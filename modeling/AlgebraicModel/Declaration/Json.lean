import AlgebraicModel.Declaration.Basic
import AlgebraicModel.Expr.Json
import AlgebraicModel.Json.Reader
import AlgebraicModel.Json.Writer

/-!
# Declarations in JSON

A declaration is stored as an object with the fields `name`, `indices`, `filter` and `kind`, an
index set as one with `name` and `set`. A reader also takes an array of the fields in this order,
and it passes over fields that it does not know. The name may be left out or null, and so may the
condition; the kind may be left out. Names are taken as they stand, with the blanks around them.

`Declaration.toText` writes the text of a declaration in a format and `Declaration.ofText` reads it.
The usual format (`Json.usualFormat`) writes numbers with the shortest digits. Its reader rounds
more than once, and it enters 127 levels.
-/

set_option autoImplicit false

namespace AlgebraicModel

namespace Json

/-- The fields of an object, if every name is a text. -/
def namedFields (fields : List (JsonText × Json)) : Option (List (String × Json)) :=
  fields.mapM fun (key, v) => key.map fun key => (key, v)

/-- The value of a field, if there is one. It is refused when it is there twice. -/
def field? (fields : List (String × Json)) (name : String) : Option (Option Json) :=
  match fields.filter fun f => f.1 == name with
  | [] => some none
  | [(_, v)] => some (some v)
  | _ => none

/-- A stored value that may be null. -/
def nullable? {α : Type} (read? : Json → Option α) : Json → Option (Option α)
  | null => some none
  | v => (read? v).map some

end Json

namespace ContainerKind

/-- The kind as it is stored. -/
def toJson : ContainerKind → Json
  | auto => .text "Auto"
  | dense => .text "DenseArray"
  | axis => .text "OrderedAxisArray"
  | map => .text "AssociativeMap"
  | custom name => .tagged "Custom" (.text name)

/-- The kind without data that has a name. -/
def ofName? (s : String) : Option ContainerKind :=
  if s = "Auto" then some auto
  else if s = "DenseArray" then some dense
  else if s = "OrderedAxisArray" then some axis
  else if s = "AssociativeMap" then some map
  else none

/-- The stored kind. -/
def ofJson? (levels : Nat) (j : Json) : Option ContainerKind :=
  match j with
  | .object [(some "Custom", name)] => if levels = 0 then none else name.text?.map custom
  | j => (j.choice? levels).bind ofName?

end ContainerKind

namespace IndexSet

variable [JsonFormat]

/-- The index set as it is stored. -/
def toJson (i : IndexSet) : Json :=
  .object [(some "name", i.name.toJson), (some "set", i.set.toJson)]

/-- The stored index set, if it enters no more than the given number of levels. -/
def ofJson? (levels : Nat) (j : Json) : Option IndexSet :=
  match levels, j with
  | n + 1, .object fields => do
    let fields ← Json.namedFields fields
    let name ← Json.field? fields "name"
    let set ← Json.field? fields "set"
    return ⟨← Name.ofJson? (← name), ← Expr.ofJson? n (← set)⟩
  | n + 1, .array [name, set] => do
    return ⟨← Name.ofJson? name, ← Expr.ofJson? n set⟩
  | _, _ => none

end IndexSet

/-- A text that describes no declaration. -/
inductive DeclarationTextError where
  | notJson
  | notDeclaration
deriving DecidableEq, Repr

namespace DeclarationTextError

/-- What a reader is told. -/
def message : DeclarationTextError → String
  | notJson => "invalid container declaration: the text is not JSON"
  | notDeclaration => "invalid container declaration: a field is missing or malformed"

instance : Cause DeclarationTextError := ⟨fun _ => .specification, fun _ => .generic, message⟩

end DeclarationTextError

namespace Declaration

variable [JsonFormat]

/-- The declaration as it is stored. -/
def toJson (d : Declaration) : Json :=
  .object
    [(some "name", (d.name.map Name.toJson).getD .null),
     (some "indices", .array (d.indices.map IndexSet.toJson)),
     (some "filter", (d.filter.map Expr.toJson).getD .null),
     (some "kind", d.kind.toJson)]

/-- The declaration of stored parts. The levels are those left inside the object that holds them. -/
def ofParts? (levels : Nat) (name indices filter kind : Option Json) : Option Declaration := do
  let name ← Json.nullable? Name.ofJson? (name.getD .null)
  let indices ← match levels, indices with
    | n + 1, some (.array is) => is.mapM (IndexSet.ofJson? n)
    | _, _ => none
  let filter ← Json.nullable? (Expr.ofJson? levels) (filter.getD .null)
  let kind ← match kind with
    | none => some ContainerKind.auto
    | some j => ContainerKind.ofJson? levels j
  return ⟨name, indices, filter, kind⟩

/-- The stored declaration, if it enters no more than the given number of levels. -/
def ofJson? (levels : Nat) (j : Json) : Option Declaration :=
  match levels, j with
  | n + 1, .object fields => do
    let fields ← Json.namedFields fields
    ofParts? n (← Json.field? fields "name") (← Json.field? fields "indices")
      (← Json.field? fields "filter") (← Json.field? fields "kind")
  | n + 1, .array [name, indices] => ofParts? n name indices none none
  | n + 1, .array [name, indices, filter] => ofParts? n name indices filter none
  | n + 1, .array [name, indices, filter, kind] => ofParts? n name indices filter kind
  | _, _ => none

/-- The text of a declaration. -/
def toText (d : Declaration) : String := JsonFormat.write d.toJson

/-- The declaration that a text describes. -/
def ofText (s : String) : Except Error Declaration :=
  match JsonFormat.read? s with
  | none => .error (.ofCause DeclarationTextError.notJson)
  | some j =>
    match ofJson? JsonFormat.maxLevels j with
    | none => .error (.ofCause DeclarationTextError.notDeclaration)
    | some d => .ok d

end Declaration

/-- The format in which values are written without blanks and numbers with the shortest digits. -/
instance Json.usualFormat : JsonFormat where
  write := Json.write
  read? := Json.read?
  ofFloat := JsonNumber.ofFloat
  toFloat? := JsonNumber.float?
  maxLevels := 127

end AlgebraicModel
