import AlgebraicModel.Proofs.Binary64.Integer
import AlgebraicModel.Proofs.Outcome
import AlgebraicModel.Variable

/-!
# What a declaration of a variable means

Each bound of a declaration gives a value for some of the three parts of what is known of the
variable (`VariableBound.given`), or it asks for an integer or a binary variable. Whether a
declaration is accepted depends on what its bounds give and ask together
(`VariableDecl.IsConsistent`), and an accepted one comes to the values that were given, each in its
part (`VariableDecl.summary`). Neither looks at the order of the bounds.

The declaration is read bound by bound, into parts of which some are taken already.
`VariableInfo.Takes` relates the state before some bounds to the state behind them. A run takes its
first bound and then the others (`VariableInfo.takes_cons_iff`), one bound is taken as `apply` does
it (`VariableInfo.apply_eq_ok_iff`), and by induction so are all (`VariableInfo.foldlM_eq_ok_iff`).

What a value has to satisfy is said by the bounds as they are written (`VariableBound.Admits`) and
again by the parts (`VariableInfo.Admits`). For an accepted declaration the two agree
(`VariableDecl.resolve_conjunction`). Values are compared as their type compares them, and the
comparisons of `Float` will do: an equation may be turned round, and nothing more is asked.
-/

set_option autoImplicit false

namespace AlgebraicModel

open Outcome

variable {α : Type}

/-! ## What a value has to satisfy -/

section Admission

variable [LE α] [LT α] [BEq α]

/-- The comparison of two values. -/
def Comparison.Relates : Comparison → α → α → Prop
  | le, a, b => a ≤ b
  | ge, a, b => b ≤ a
  | eq, a, b => (a == b) = true
  | lt, a, b => a < b
  | gt, a, b => b < a
  | ne, a, b => (a == b) = false

/-- The value satisfies the bound as it is written. Of a membership in the integers or in zero and
one nothing is asked here. -/
def VariableBound.Admits : VariableBound α → α → Prop
  | oneSided op value true, x => op.Relates x value
  | oneSided op value false, x => op.Relates value x
  | ranged lb op₁ op₂ ub, x => op₁.Relates lb x ∧ op₂.Relates x ub
  | membership (.lessThan upper), x => x ≤ upper
  | membership (.greaterThan lower), x => lower ≤ x
  | membership (.equalTo value), x => (x == value) = true
  | membership (.interval lower upper), x => lower ≤ x ∧ x ≤ upper
  | membership .integer, _ | membership .zeroOne, _ => True

/-- The value satisfies a part whose content is `v`. -/
def BoundSlot.Admits : BoundSlot → α → α → Prop
  | lower, v, x => v ≤ x
  | upper, v, x => x ≤ v
  | fixed, v, x => (x == v) = true

/-- The value satisfies every part that is known. -/
def VariableInfo.Admits (info : VariableInfo α) (x : α) : Prop :=
  ∀ slot, ∀ v ∈ info.get? slot, slot.Admits v x

end Admission

/-! ## What bounds give and ask -/

namespace VariableBound

/-- The operators are ones that bound a variable, and the two of a range point the same way. -/
def IsRecognized : VariableBound α → Prop
  | oneSided op _ _ => op = .le ∨ op = .ge ∨ op = .eq
  | ranged _ op₁ op₂ _ => op₁ = .le ∧ op₂ = .le ∨ op₁ = .ge ∧ op₂ = .ge
  | membership _ => True

/-- What the bound gives for a part: one value or none. -/
def given : VariableBound α → BoundSlot → List α
  | oneSided .le value true, .upper | oneSided .ge value false, .upper => [value]
  | oneSided .ge value true, .lower | oneSided .le value false, .lower => [value]
  | oneSided .eq value _, .fixed => [value]
  | ranged lb .le .le _, .lower => [lb]
  | ranged _ .le .le ub, .upper => [ub]
  | ranged _ .ge .ge ub, .lower => [ub]
  | ranged lb .ge .ge _, .upper => [lb]
  | membership (.lessThan upper), .upper => [upper]
  | membership (.greaterThan lower), .lower => [lower]
  | membership (.equalTo value), .fixed => [value]
  | membership (.interval lower _), .lower => [lower]
  | membership (.interval _ upper), .upper => [upper]
  | _, _ => []

/-- The bound asks for an integer variable. -/
def asksInteger : VariableBound α → Bool
  | membership .integer => true
  | _ => false

/-- The bound asks for a binary variable. -/
def asksBinary : VariableBound α → Bool
  | membership .zeroOne => true
  | _ => false

theorem asksInteger_iff {b : VariableBound α} : b.asksInteger = true ↔ b = membership .integer := by
  constructor
  · intro h
    cases b with
    | membership s =>
      cases s with
      | integer => rfl
      | _ => cases h
    | _ => cases h
  · rintro rfl
    rfl

theorem asksBinary_iff {b : VariableBound α} : b.asksBinary = true ↔ b = membership .zeroOne := by
  constructor
  · intro h
    cases b with
    | membership s =>
      cases s with
      | zeroOne => rfl
      | _ => cases h
    | _ => cases h
  · rintro rfl
    rfl

end VariableBound

namespace VariableDecl

/-- What all bounds together give for a part. -/
def values (d : VariableDecl α) (slot : BoundSlot) : List α :=
  d.bounds.flatMap (·.given slot)

/-- The variable is to be an integer one, by the flag or by a bound. -/
def asksInteger (d : VariableDecl α) : Bool := d.integer || d.bounds.any (·.asksInteger)

/-- The variable is to be a binary one, by the flag or by a bound. -/
def asksBinary (d : VariableDecl α) : Bool := d.binary || d.bounds.any (·.asksBinary)

/-- Nothing in the declaration stands against another part of it. -/
structure IsConsistent [Coefficient α] (d : VariableDecl α) : Prop where
  recognized : ∀ b ∈ d.bounds, b.IsRecognized
  numbers : ∀ slot, ∀ v ∈ d.values slot, Coefficient.isNaN v = false
  once : ∀ slot, (d.values slot).length ≤ 1
  fixedAlone : d.values .fixed ≠ [] → d.values .lower = [] ∧ d.values .upper = []
  oneKind : ¬ (d.asksInteger = true ∧ d.asksBinary = true)

end VariableDecl

namespace VariableInfo

/-- The information with the given parts. -/
def ofParts (part : BoundSlot → Option α) (integer binary : Bool) (start : Option α) :
    VariableInfo α :=
  ⟨part .lower, part .upper, part .fixed, integer, binary, start⟩

@[simp] theorem get?_ofParts (part : BoundSlot → Option α) (integer binary : Bool)
    (start : Option α) (slot : BoundSlot) :
    (ofParts part integer binary start).get? slot = part slot := by
  cases slot <;> rfl

theorem ext_get? {info info' : VariableInfo α} (hparts : ∀ slot, info.get? slot = info'.get? slot)
    (hinteger : info.integer = info'.integer) (hbinary : info.binary = info'.binary)
    (hstart : info.start = info'.start) : info = info' := by
  have hlower : info.lower = info'.lower := hparts .lower
  have hupper : info.upper = info'.upper := hparts .upper
  have hfixed : info.fixed = info'.fixed := hparts .fixed
  cases info
  cases info'
  congr

theorem get?_put_self (info : VariableInfo α) (slot : BoundSlot) (v : α) :
    (info.put slot v).get? slot = some v := by
  cases slot <;> rfl

theorem get?_put_of_ne (info : VariableInfo α) {slot slot' : BoundSlot} (h : slot' ≠ slot) (v : α) :
    (info.put slot v).get? slot' = info.get? slot' := by
  cases slot <;> cases slot' <;> first | rfl | exact absurd rfl h

theorem put_flags (info : VariableInfo α) (slot : BoundSlot) (v : α) :
    (info.put slot v).integer = info.integer ∧ (info.put slot v).binary = info.binary ∧
      (info.put slot v).start = info.start := by
  cases slot <;> exact ⟨rfl, rfl, rfl⟩

end VariableInfo

/-- What an accepted declaration comes to. -/
def VariableDecl.summary (d : VariableDecl α) : VariableInfo α :=
  .ofParts (fun slot => (d.values slot).head?) d.asksInteger d.asksBinary d.start

/-! ## Lists of at most one entry -/

theorem toList_head? {β : Type} {l : List β} (h : l.length ≤ 1) : l.head?.toList = l := by
  match l, h with
  | [], _ => rfl
  | [_], _ => rfl

theorem eq_of_perm {β : Type} {xs ys : List β} (h : xs.Perm ys) (hys : ys.length ≤ 1) :
    xs = ys := by
  match ys, hys with
  | [], _ => exact h.eq_nil
  | [y], _ => exact List.perm_singleton.mp h

theorem any_of_perm {β : Type} {xs ys : List β} (h : xs.Perm ys) (p : β → Bool) :
    xs.any p = ys.any p := by
  apply Bool.eq_iff_iff.mpr
  simp only [List.any_eq_true, h.mem_iff]

theorem eq_head?_of_toList {β : Type} {o : Option β} {l : List β} (h : o.toList = l) :
    o = l.head? := by
  rw [← h]
  cases o <;> rfl

theorem toList_inj {β : Type} {o o' : Option β} (h : o.toList = o'.toList) : o = o' := by
  rw [eq_head?_of_toList h]
  exact (eq_head?_of_toList rfl).symm

theorem length_toList_le {β : Type} (o : Option β) : o.toList.length ≤ 1 := by
  cases o with
  | none => exact Nat.zero_le 1
  | some b => exact Nat.le_refl 1

/-! ## Bound by bound -/

namespace VariableInfo

variable [Coefficient α] {start info : VariableInfo α} {b : VariableBound α}
  {bounds : List (VariableBound α)}

/-- From the state `start` the bounds lead to the state `info`. What a part holds behind them is
what it held before or what they give for it, and there is room for one value only. -/
structure Takes (start : VariableInfo α) (bounds : List (VariableBound α))
    (info : VariableInfo α) : Prop where
  recognized : ∀ b ∈ bounds, b.IsRecognized
  numbers : ∀ slot, ∀ v ∈ bounds.flatMap (·.given slot), Coefficient.isNaN v = false
  parts : ∀ slot, (info.get? slot).toList =
    (start.get? slot).toList ++ bounds.flatMap (·.given slot)
  integer : info.integer = (start.integer || bounds.any (·.asksInteger))
  binary : info.binary = (start.binary || bounds.any (·.asksBinary))
  kept : info.start = start.start

/-- There is only one state that bounds lead to. -/
theorem Takes.unique {info' : VariableInfo α} (h : start.Takes bounds info)
    (h' : start.Takes bounds info') : info = info' := by
  apply ext_get?
  · intro slot
    apply toList_inj
    rw [h.parts, h'.parts]
  · rw [h.integer, h'.integer]
  · rw [h.binary, h'.binary]
  · rw [h.kept, h'.kept]

theorem takes_nil (start : VariableInfo α) : start.Takes [] start where
  recognized := List.forall_mem_nil _
  numbers _ := List.forall_mem_nil _
  parts _ := (List.append_nil _).symm
  integer := (Bool.or_false _).symm
  binary := (Bool.or_false _).symm
  kept := rfl

/-- A computation that ends in a state to which the bounds lead ends in the one that they lead
to. -/
theorem ok_eq_ok_iff_takes {next : VariableInfo α} (h : start.Takes bounds next) :
    (.ok next : Except VariableError (VariableInfo α)) = .ok info ↔ start.Takes bounds info := by
  constructor
  · intro heq
    cases heq
    exact h
  · intro h'
    exact congrArg Except.ok (h.unique h')

/-- The state behind one bound: a part holds what it held, or else what the bound gives. -/
def after (start : VariableInfo α) (b : VariableBound α) : VariableInfo α :=
  .ofParts (fun slot => ((start.get? slot).toList ++ b.given slot).head?)
    (start.integer || b.asksInteger) (start.binary || b.asksBinary) start.start

/-- Where there is room behind all bounds there is room behind the first. -/
theorem Takes.toList_after (h : start.Takes (b :: bounds) info) (slot : BoundSlot) :
    ((start.after b).get? slot).toList = (start.get? slot).toList ++ b.given slot := by
  rw [after, get?_ofParts]
  apply toList_head?
  have hparts := congrArg List.length (h.parts slot)
  have hlength := length_toList_le (info.get? slot)
  rw [List.flatMap_cons, ← List.append_assoc, List.length_append] at hparts
  omega

theorem Takes.head (h : start.Takes (b :: bounds) info) : start.Takes [b] (start.after b) where
  recognized := List.forall_mem_singleton.mpr (h.recognized b List.mem_cons_self)
  numbers slot v hv := by
    rw [List.flatMap_singleton] at hv
    exact h.numbers slot v (List.mem_append_left _ hv)
  parts slot := by rw [h.toList_after, List.flatMap_singleton]
  integer := by
    rw [List.any_cons, List.any_nil, Bool.or_false]
    rfl
  binary := by
    rw [List.any_cons, List.any_nil, Bool.or_false]
    rfl
  kept := rfl

theorem Takes.tail (h : start.Takes (b :: bounds) info) : (start.after b).Takes bounds info where
  recognized := (List.forall_mem_cons.mp h.recognized).2
  numbers slot v hv := h.numbers slot v (List.mem_append_right _ hv)
  parts slot := by rw [h.toList_after, h.parts, List.flatMap_cons, List.append_assoc]
  integer := by
    rw [h.integer, List.any_cons, ← Bool.or_assoc]
    rfl
  binary := by
    rw [h.binary, List.any_cons, ← Bool.or_assoc]
    rfl
  kept := h.kept

/-- The first bound is taken, and then the others from where it leads. -/
theorem takes_cons_iff :
    start.Takes (b :: bounds) info ↔ ∃ next, start.Takes [b] next ∧ next.Takes bounds info := by
  constructor
  · intro h
    exact ⟨start.after b, h.head, h.tail⟩
  · rintro ⟨next, hb, hbounds⟩
    refine ⟨?_, ?_, ?_, ?_, ?_, hbounds.kept.trans hb.kept⟩
    · exact List.forall_mem_cons.mpr ⟨hb.recognized b List.mem_cons_self, hbounds.recognized⟩
    · intro slot v hv
      rcases List.mem_append.mp hv with hv | hv
      · exact hb.numbers slot v (List.mem_append_left _ hv)
      · exact hbounds.numbers slot v hv
    · intro slot
      rw [hbounds.parts, hb.parts, List.flatMap_singleton, List.flatMap_cons, List.append_assoc]
    · rw [hbounds.integer, hb.integer, List.any_cons, List.any_cons, List.any_nil, Bool.or_false,
        Bool.or_assoc]
    · rw [hbounds.binary, hb.binary, List.any_cons, List.any_cons, List.any_nil, Bool.or_false,
        Bool.or_assoc]

/-! ### One bound -/

theorem set_eq_ok_iff {slot : BoundSlot} {v : α} :
    start.set slot v = .ok info ↔
      Coefficient.isNaN v = false ∧ start.get? slot = none ∧ start.put slot v = info := by
  rw [set]
  split
  · rename_i hnan
    refine iff_of_false (fun h => by cases h) ?_
    rintro ⟨hnumber, -, -⟩
    rw [hnumber] at hnan
    cases hnan
  · rename_i hnumber
    split
    · rename_i htaken
      refine iff_of_false (fun h => by cases h) ?_
      rintro ⟨-, hfree, -⟩
      rw [hfree] at htaken
      cases htaken
    · rename_i hfree
      constructor
      · intro h
        cases h
        exact ⟨Bool.eq_false_iff.mpr hnumber, Option.not_isSome_iff_eq_none.mp hfree, rfl⟩
      · rintro ⟨-, -, rfl⟩
        rfl

section Setting

variable {slot : BoundSlot} {v : α}

/-- A bound is taken that gives a value for one free part and nothing else. -/
theorem takes_put (hb : b.IsRecognized)
    (hgiven : ∀ slot', b.given slot' = if slot' = slot then [v] else [])
    (hinteger : b.asksInteger = false) (hbinary : b.asksBinary = false)
    (hnumber : Coefficient.isNaN v = false) (hfree : start.get? slot = none) :
    start.Takes [b] (start.put slot v) := by
  obtain ⟨hputInteger, hputBinary, hputStart⟩ := start.put_flags slot v
  refine ⟨List.forall_mem_singleton.mpr hb, ?_, ?_, ?_, ?_, hputStart⟩
  · intro slot' w hw
    rw [List.flatMap_singleton, hgiven] at hw
    split at hw
    · rw [List.mem_singleton.mp hw]
      exact hnumber
    · cases hw
  · intro slot'
    rw [List.flatMap_singleton, hgiven]
    by_cases h : slot' = slot
    · rw [h, get?_put_self, hfree, if_pos rfl]
      rfl
    · rw [get?_put_of_ne start h, if_neg h, List.append_nil]
  · rw [hputInteger, List.any_cons, hinteger, List.any_nil, Bool.or_false, Bool.or_false]
  · rw [hputBinary, List.any_cons, hbinary, List.any_nil, Bool.or_false, Bool.or_false]

/-- A part is set as a bound is taken that gives this part its value and nothing else. -/
theorem set_eq_ok_iff_takes (hb : b.IsRecognized)
    (hgiven : ∀ slot', b.given slot' = if slot' = slot then [v] else [])
    (hinteger : b.asksInteger = false) (hbinary : b.asksBinary = false) :
    start.set slot v = .ok info ↔ start.Takes [b] info := by
  rw [set_eq_ok_iff]
  constructor
  · rintro ⟨hnumber, hfree, rfl⟩
    exact takes_put hb hgiven hinteger hbinary hnumber hfree
  · intro h
    have hself : [b].flatMap (·.given slot) = [v] := by
      rw [List.flatMap_singleton, hgiven, if_pos rfl]
    have hnumber : Coefficient.isNaN v = false := by
      apply h.numbers slot
      rw [hself]
      exact List.mem_singleton_self v
    have hfree : start.get? slot = none := by
      -- with a value of its own the part would have to hold two
      have hlength := congrArg List.length (h.parts slot)
      rw [hself, List.length_append, List.length_singleton] at hlength
      have hle := length_toList_le (info.get? slot)
      have hnil : (start.get? slot).toList = [] := List.eq_nil_of_length_eq_zero (by omega)
      exact Option.toList_eq_nil_iff.mp hnil
    exact ⟨hnumber, hfree, (takes_put hb hgiven hinteger hbinary hnumber hfree).unique h⟩

end Setting

/-- Bounds that give and ask the same lead to the same state. -/
theorem takes_congr {bounds' : List (VariableBound α)} (hbounds : ∀ b ∈ bounds, b.IsRecognized)
    (hbounds' : ∀ b ∈ bounds', b.IsRecognized)
    (hgiven : ∀ slot, bounds.flatMap (·.given slot) = bounds'.flatMap (·.given slot))
    (hinteger : bounds.any (·.asksInteger) = bounds'.any (·.asksInteger))
    (hbinary : bounds.any (·.asksBinary) = bounds'.any (·.asksBinary)) :
    start.Takes bounds info ↔ start.Takes bounds' info := by
  constructor
  · rintro ⟨-, hnumbers, hparts, hint, hbin, hkept⟩
    simp only [hgiven] at hnumbers hparts
    exact ⟨hbounds', hnumbers, hparts, hinteger ▸ hint, hbinary ▸ hbin, hkept⟩
  · rintro ⟨-, hnumbers, hparts, hint, hbin, hkept⟩
    simp only [← hgiven] at hnumbers hparts
    exact ⟨hbounds, hnumbers, hparts, hinteger ▸ hint, hbinary ▸ hbin, hkept⟩

/-- A range is set as a bound is taken that gives the two ends and nothing else. -/
theorem setRange_eq_ok_iff_takes {lower upper : α} (hb : b.IsRecognized)
    (hgiven : ∀ slot, b.given slot = (VariableBound.membership (.interval lower upper)).given slot)
    (hinteger : b.asksInteger = false) (hbinary : b.asksBinary = false) :
    start.setRange lower upper = .ok info ↔ start.Takes [b] info := by
  -- two bounds that give one end each give the same, and these are set one after the other
  have hends : start.Takes [b] info ↔ start.Takes
      [.membership (.greaterThan lower), .membership (.lessThan upper)] info := by
    apply takes_congr
    · exact List.forall_mem_singleton.mpr hb
    · exact List.forall_mem_cons.mpr ⟨trivial, List.forall_mem_singleton.mpr trivial⟩
    · intro slot
      rw [List.flatMap_singleton, hgiven]
      cases slot <;> rfl
    · rw [List.any_cons, hinteger]
      rfl
    · rw [List.any_cons, hbinary]
      rfl
  rw [hends, takes_cons_iff, setRange, bind_eq_ok_iff]
  apply exists_congr
  intro next
  apply and_congr
  · exact set_eq_ok_iff_takes trivial (fun slot => by cases slot <;> rfl) rfl rfl
  · exact set_eq_ok_iff_takes trivial (fun slot => by cases slot <;> rfl) rfl rfl

/-- A bound is taken that gives nothing but may ask for a kind of variable. -/
theorem takes_flags (start : VariableInfo α) (hb : b.IsRecognized)
    (hgiven : ∀ slot, b.given slot = []) :
    start.Takes [b] { start with
      integer := start.integer || b.asksInteger, binary := start.binary || b.asksBinary } where
  recognized := List.forall_mem_singleton.mpr hb
  numbers slot v hv := by
    rw [List.flatMap_singleton, hgiven] at hv
    cases hv
  parts slot := by
    rw [List.flatMap_singleton, hgiven, List.append_nil]
    cases slot <;> rfl
  integer := by rw [List.any_cons, List.any_nil, Bool.or_false]
  binary := by rw [List.any_cons, List.any_nil, Bool.or_false]
  kept := rfl

theorem apply_ne_ok (hb : ¬ b.IsRecognized) : start.apply b ≠ .ok info := by
  cases b with
  | oneSided op value variableOnLeft =>
    cases op with
    | le => exact absurd (.inl rfl) hb
    | ge => exact absurd (.inr (.inl rfl)) hb
    | eq => exact absurd (.inr (.inr rfl)) hb
    | _ =>
      intro h
      cases variableOnLeft <;> cases h
  | ranged lb op₁ op₂ ub =>
    rw [apply]
    · intro h
      cases h
    · exact fun hop₁ hop₂ => hb (.inl ⟨hop₁, hop₂⟩)
    · exact fun hop₁ hop₂ => hb (.inr ⟨hop₁, hop₂⟩)
  | membership s => exact absurd trivial hb

/-- One bound is taken into account. -/
theorem apply_eq_ok_iff : start.apply b = .ok info ↔ start.Takes [b] info := by
  by_cases hb : b.IsRecognized
  · cases b with
    | oneSided op value variableOnLeft =>
      -- turned round, the comparison sets the part that is given from the other side
      have hop : op = .le ∨ op = .ge ∨ op = .eq := hb
      rcases hop with rfl | rfl | rfl <;> cases variableOnLeft
      all_goals exact set_eq_ok_iff_takes hb (fun slot => by cases slot <;> rfl) rfl rfl
    | ranged lb op₁ op₂ ub =>
      have hops : op₁ = .le ∧ op₂ = .le ∨ op₁ = .ge ∧ op₂ = .ge := hb
      obtain ⟨rfl, rfl⟩ | ⟨rfl, rfl⟩ := hops
      · exact setRange_eq_ok_iff_takes hb (fun slot => by cases slot <;> rfl) rfl rfl
      · exact setRange_eq_ok_iff_takes hb (fun slot => by cases slot <;> rfl) rfl rfl
    | membership s =>
      cases s with
      | lessThan upper =>
        exact set_eq_ok_iff_takes trivial (fun slot => by cases slot <;> rfl) rfl rfl
      | greaterThan lower =>
        exact set_eq_ok_iff_takes trivial (fun slot => by cases slot <;> rfl) rfl rfl
      | equalTo value =>
        exact set_eq_ok_iff_takes trivial (fun slot => by cases slot <;> rfl) rfl rfl
      | interval lower upper => exact setRange_eq_ok_iff_takes trivial (fun _ => rfl) rfl rfl
      | integer =>
        have hflags := start.takes_flags hb fun slot => by cases slot <;> rfl
        rw [← ok_eq_ok_iff_takes hflags, apply]
        simp [VariableBound.asksInteger, VariableBound.asksBinary]
      | zeroOne =>
        have hflags := start.takes_flags hb fun slot => by cases slot <;> rfl
        rw [← ok_eq_ok_iff_takes hflags, apply]
        simp [VariableBound.asksInteger, VariableBound.asksBinary]
  · refine iff_of_false (apply_ne_ok hb) ?_
    intro h
    exact hb (h.recognized b List.mem_cons_self)

/-! ### All bounds -/

theorem foldlM_eq_ok_iff :
    bounds.foldlM VariableInfo.apply start = .ok info ↔ start.Takes bounds info := by
  induction bounds generalizing start with
  | nil =>
    exact ok_eq_ok_iff_takes start.takes_nil
  | cons b bounds ih =>
    rw [List.foldlM_cons, bind_eq_ok_iff, takes_cons_iff]
    apply exists_congr
    intro next
    exact and_congr apply_eq_ok_iff ih

/-! ## The whole declaration -/

omit [Coefficient α] in
theorem checked_eq_ok_iff {next : VariableInfo α} :
    next.checked = .ok info ↔
      (next.get? .fixed ≠ none → next.get? .lower = none ∧ next.get? .upper = none) ∧
        ¬ (next.integer = true ∧ next.binary = true) ∧ next = info := by
  obtain ⟨lower, upper, fixed, integer, binary, start⟩ := next
  unfold checked get?
  cases fixed <;> cases lower <;> cases upper <;> cases integer <;> cases binary <;> simp

end VariableInfo

namespace VariableDecl

variable [Coefficient α] {l : Label} {d : VariableDecl α} {info : VariableInfo α}

/-- The bounds lead from nothing to the summary. -/
theorem IsConsistent.takes_summary (h : d.IsConsistent) :
    (⟨none, none, none, d.integer, d.binary, d.start⟩ : VariableInfo α).Takes d.bounds
      d.summary where
  recognized := h.recognized
  numbers := h.numbers
  parts slot := by
    rw [summary, VariableInfo.get?_ofParts, toList_head? (h.once slot)]
    cases slot <;> rfl
  integer := rfl
  binary := rfl
  kept := rfl

theorem info_eq_ok_iff : d.info = .ok info ↔ d.IsConsistent ∧ d.summary = info := by
  rw [VariableDecl.info, bind_eq_ok_iff]
  constructor
  · rintro ⟨next, hnext, hchecked⟩
    rw [VariableInfo.foldlM_eq_ok_iff] at hnext
    obtain ⟨hfixed, hkind, rfl⟩ := VariableInfo.checked_eq_ok_iff.mp hchecked
    have hvalues : ∀ slot, d.values slot = (next.get? slot).toList := by
      intro slot
      rw [hnext.parts]
      cases slot <;> rfl
    have hconsistent : d.IsConsistent := by
      refine ⟨hnext.recognized, hnext.numbers, ?_, ?_, ?_⟩
      · intro slot
        rw [hvalues]
        exact length_toList_le _
      · simp only [hvalues, ne_eq, Option.toList_eq_nil_iff]
        exact hfixed
      · rw [hnext.integer, hnext.binary] at hkind
        exact hkind
    exact ⟨hconsistent, hconsistent.takes_summary.unique hnext⟩
  · rintro ⟨h, rfl⟩
    refine ⟨d.summary, VariableInfo.foldlM_eq_ok_iff.mpr h.takes_summary, ?_⟩
    apply VariableInfo.checked_eq_ok_iff.mpr
    refine ⟨?_, h.oneKind, rfl⟩
    simp only [summary, VariableInfo.get?_ofParts, ne_eq, List.head?_eq_none_iff]
    exact h.fixedAlone

/-- A declaration is accepted when it is consistent, and what it comes to is its summary. -/
theorem resolve_eq_ok_iff : d.resolve l = .ok info ↔ d.IsConsistent ∧ d.summary = info := by
  rw [resolve, mapError_eq_ok_iff, info_eq_ok_iff]

/-! ### The order of the bounds -/

section Order

variable {bounds bounds' : List (VariableBound α)} {integer binary : Bool} {start : Option α}

/-- Bounds in another order give the same values. -/
theorem IsConsistent.values_of_perm (h : bounds.Perm bounds')
    (hd : (⟨bounds', integer, binary, start⟩ : VariableDecl α).IsConsistent) (slot : BoundSlot) :
    values ⟨bounds, integer, binary, start⟩ slot = values ⟨bounds', integer, binary, start⟩ slot := by
  apply eq_of_perm _ (hd.once slot)
  exact h.flatMap_right _

theorem IsConsistent.of_perm (h : bounds.Perm bounds')
    (hd : (⟨bounds', integer, binary, start⟩ : VariableDecl α).IsConsistent) :
    (⟨bounds, integer, binary, start⟩ : VariableDecl α).IsConsistent where
  recognized b hb := hd.recognized b (h.mem_iff.mp hb)
  numbers slot := by
    rw [hd.values_of_perm h]
    exact hd.numbers slot
  once slot := by
    rw [hd.values_of_perm h]
    exact hd.once slot
  fixedAlone := by
    simp only [hd.values_of_perm h]
    exact hd.fixedAlone
  oneKind := by
    simp only [asksInteger, asksBinary, any_of_perm h]
    exact hd.oneKind

theorem IsConsistent.summary_of_perm (h : bounds.Perm bounds')
    (hd : (⟨bounds', integer, binary, start⟩ : VariableDecl α).IsConsistent) :
    summary ⟨bounds, integer, binary, start⟩ = summary ⟨bounds', integer, binary, start⟩ := by
  simp only [summary, hd.values_of_perm h, asksInteger, asksBinary, any_of_perm h]

end Order

/-! ### The meaning of the bounds -/

section Meaning

variable [LE α] [LT α] [BEq α] [PartialEquivBEq α] {x : α}

omit [Coefficient α] in
/-- A bound asks of a value what the parts ask that it gives a value for. -/
theorem admits_iff_given {b : VariableBound α} (hb : b.IsRecognized) :
    b.Admits x ↔ ∀ slot, ∀ v ∈ b.given slot, slot.Admits v x := by
  have hslots {P : BoundSlot → Prop} : (∀ slot, P slot) ↔ P .lower ∧ P .upper ∧ P .fixed := by
    constructor
    · intro h
      exact ⟨h .lower, h .upper, h .fixed⟩
    · rintro ⟨hlower, hupper, hfixed⟩ slot
      cases slot
      · exact hlower
      · exact hupper
      · exact hfixed
  rw [hslots]
  cases b with
  | oneSided op value variableOnLeft =>
    have hop : op = .le ∨ op = .ge ∨ op = .eq := hb
    rcases hop with rfl | rfl | rfl <;> cases variableOnLeft
    all_goals simp [VariableBound.Admits, VariableBound.given, Comparison.Relates,
      BoundSlot.Admits, BEq.comm]
  | ranged lb op₁ op₂ ub =>
    have hops : op₁ = .le ∧ op₂ = .le ∨ op₁ = .ge ∧ op₂ = .ge := hb
    obtain ⟨rfl, rfl⟩ | ⟨rfl, rfl⟩ := hops
    all_goals simp [VariableBound.Admits, VariableBound.given, Comparison.Relates,
      BoundSlot.Admits, and_comm]
  | membership s =>
    cases s
    all_goals simp [VariableBound.Admits, VariableBound.given, BoundSlot.Admits]

theorem IsConsistent.admits_summary_iff (h : d.IsConsistent) :
    d.summary.Admits x ↔ ∀ b ∈ d.bounds, b.Admits x := by
  have hparts : ∀ slot v, v ∈ d.summary.get? slot ↔ ∃ b ∈ d.bounds, v ∈ b.given slot := by
    intro slot v
    rw [Option.mem_def, ← Option.mem_toList, summary, VariableInfo.get?_ofParts, toList_head? (h.once slot), values,
      List.mem_flatMap]
  constructor
  · intro hx b hb
    apply (admits_iff_given (h.recognized b hb)).mpr
    intro slot v hv
    exact hx slot v ((hparts slot v).mpr ⟨b, hb, hv⟩)
  · intro hx slot v hv
    obtain ⟨b, hb, hv⟩ := (hparts slot v).mp hv
    exact (admits_iff_given (h.recognized b hb)).mp (hx b hb) slot v hv

/-- A declaration is accepted exactly when it is consistent. Its information then admits the values
that every bound admits, tells of an integer or a binary variable when a flag or a bound asks for
one, and has the start value of the declaration. The bounds may stand in any order. -/
theorem resolve_conjunction (l : Label) (d : VariableDecl α) :
    ((∃ info, d.resolve l = .ok info) ↔ d.IsConsistent) ∧
    (∀ info, d.resolve l = .ok info →
      (∀ x, info.Admits x ↔ ∀ b ∈ d.bounds, b.Admits x) ∧
      (info.integer = true ↔ d.integer = true ∨ .membership .integer ∈ d.bounds) ∧
      (info.binary = true ↔ d.binary = true ∨ .membership .zeroOne ∈ d.bounds) ∧
      info.start = d.start) ∧
    ∀ bounds, bounds.Perm d.bounds → ∀ info,
      (({ d with bounds := bounds }).resolve l = .ok info ↔ d.resolve l = .ok info) := by
  refine ⟨?_, ?_, ?_⟩
  · simp only [resolve_eq_ok_iff, exists_and_left, exists_eq', and_true]
  · intro info hinfo
    obtain ⟨h, rfl⟩ := resolve_eq_ok_iff.mp hinfo
    refine ⟨fun x => h.admits_summary_iff, ?_, ?_, rfl⟩
    · change (d.integer || d.bounds.any _) = true ↔ _
      simp only [Bool.or_eq_true, List.any_eq_true, VariableBound.asksInteger_iff, exists_eq_right]
    · change (d.binary || d.bounds.any _) = true ↔ _
      simp only [Bool.or_eq_true, List.any_eq_true, VariableBound.asksBinary_iff, exists_eq_right]
  · intro bounds hbounds info
    rw [resolve_eq_ok_iff, resolve_eq_ok_iff]
    constructor
    · rintro ⟨h, rfl⟩
      exact ⟨h.of_perm hbounds.symm, h.summary_of_perm hbounds.symm⟩
    · rintro ⟨h, rfl⟩
      exact ⟨h.of_perm hbounds, h.summary_of_perm hbounds⟩

end Meaning

/-- An integer variable between four and one, the greater end first. -/
theorem resolve_conjunction_descending :
    let d : VariableDecl Float := ⟨[.ranged 4.0 .ge .ge 1.0, .membership .integer], false, false, none⟩
    let info : VariableInfo Float := ⟨some 1.0, some 4.0, none, true, false, none⟩
    d.resolve ⟨"variable x"⟩ = .ok info ∧
      (∀ x, info.Admits x ↔ ∀ b ∈ d.bounds, b.Admits x) ∧
      ({ d with bounds := d.bounds.reverse }).resolve ⟨"variable x"⟩ = .ok info := by
  intro d info
  have hd : d.resolve ⟨"variable x"⟩ = .ok info := rfl
  obtain ⟨-, hmeaning, horder⟩ := resolve_conjunction ⟨"variable x"⟩ d
  exact ⟨hd, (hmeaning info hd).1, (horder _ (List.reverse_perm _) info).mpr hd⟩

end VariableDecl

end AlgebraicModel
