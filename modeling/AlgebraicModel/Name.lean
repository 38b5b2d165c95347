import AlgebraicModel.Text.Blank

/-!
# Names

The name of an index, a container or a registered object. Names are case sensitive. `Name.ofText`
drops the blanks around a name; a name that is read from a stored declaration is kept as written.
-/

set_option autoImplicit false

namespace AlgebraicModel

/-- A name. -/
structure Name where
  text : String
deriving DecidableEq, Repr

namespace Name

/-- The name written in a text, without the blanks around it. -/
def ofText (s : String) : Name := ⟨Text.trim s⟩

/-- The name of one element of an indexed container: `x` with `1,2` is `x[1,2]`. -/
def subscript (n : Name) (position : String) : Name := ⟨n.text ++ "[" ++ position ++ "]"⟩

instance : Ord Name := ⟨fun a b => compare a.text b.text⟩

example : (ofText "  flow ").subscript "a" = ⟨"flow[a]"⟩ := by decide +kernel

end Name

end AlgebraicModel
