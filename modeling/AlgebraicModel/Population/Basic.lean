import AlgebraicModel.Container.Basic
import AlgebraicModel.Declaration.Plan
import AlgebraicModel.Population.Building
import AlgebraicModel.Population.Keys

/-!
# Populating a container

`Plan.populate` carries out a plan: it finds the keys, checks them, and builds one element per key
in the order of the keys. Everything that can be wrong with the keys is found before the first
element is built.
-/

set_option autoImplicit false

namespace AlgebraicModel

/-- A description of the element at the bound indices. -/
abbrev Builder (σ α : Type) := Bindings → BuildM σ α

namespace Plan

variable [Closeness] {σ α : Type}

/-- The error of an evaluation, with the label. -/
def evalFailure (l : Label) (e : EvalError) : Error := l.attach (.ofCause e)

/-- The axes of the plan's index sets, each without repetition. -/
def distinctAxes (p : Plan) (l : Label) (sets : List (List IndexValue)) :
    Except Error (List Axis) :=
  (p.declaration.indexNames.zip sets).mapM fun (name, elements) =>
    (Axis.ofList elements).mapError fun v =>
      l.repeatedIndex (v.text ++ " in index `" ++ name.text ++ "`")

/-- The keys of the plan's nested index sets, without repetition. -/
def distinctKeys (p : Plan) (l : Label) (params : Params) : Except Error (List Key) := do
  let keys ← (p.declaration.enumerateKeys params).mapError (evalFailure l)
  match Key.firstRepeat? keys with
  | some k => throw (l.repeatedIndex (p.declaration.label ++ "[" ++ k.text ++ "]"))
  | none => return keys

/-- Builds the elements of a list of keys, in order. -/
def buildAll (p : Plan) (l : Label) (params : Params) (build : Builder σ α) (keys : List Key) :
    BuildM σ (List α) :=
  keys.mapM fun k => BuildM.labelled l (build (p.declaration.bindingsAt params k))

/-- Carries out the plan. -/
def populate (p : Plan) (l : Label) (params : Params) (build : Builder σ α) :
    BuildM σ (Container α) :=
  match p.representation with
  | .scalar => do
    return .scalar (← BuildM.labelled l (build (.ofParams params)))
  | .dense => do
    let sets ← BuildM.ofExcept ((p.declaration.evalAxes params).mapError (evalFailure l))
    let data ← p.buildAll l params build (tuples sets)
    return .dense ⟨sets.map List.length, data.toArray⟩
  | .axis => do
    let sets ← BuildM.ofExcept ((p.declaration.evalAxes params).mapError (evalFailure l))
    let axes ← BuildM.ofExcept (p.distinctAxes l sets)
    let data ← p.buildAll l params build (tuples sets)
    return .axis ⟨axes, data.toArray⟩
  | .map => do
    let keys ← BuildM.ofExcept (p.distinctKeys l params)
    let elements ← p.buildAll l params build keys
    return .map (.ofList (keys.zip elements) Key.compare)

end Plan

end AlgebraicModel
