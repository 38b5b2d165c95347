import AlgebraicModel.Proofs.Container.Repetition
import AlgebraicModel.Proofs.IndexValue.Hashing

/-!
# Tables that go by hash

An axis keeps the positions of its elements in a table, and the check for repeated keys keeps the
keys that it has seen. Here both tables are hash tables: an entry is looked for among those with its
hash, and compared by the order. Since equal values are hashed alike (`Hashing`), the walks along a
list stop where the walks of `Axis.tabulate` and `Key.firstRepeat?` stop and find what these find,
whichever way what is written is digested (`Axis.hashTable_eq_error_iff`,
`Axis.hashFind?_of_hashTable`, `Key.firstHashed?_eq_firstRepeat?`). The first repetition in the
order is what a hash table refuses, and places in the order are what it finds
(`IndexValue.hashing_agrees_with_order`).
-/

set_option autoImplicit false

namespace AlgebraicModel

/-! ## Entries -/

/-- An entry of a hash table that compares entries by `cmp` and hashes them by `hash`. -/
structure HashEntry {β : Type} (cmp : β → β → Ordering) (hash : β → UInt64) where
  value : β

namespace HashEntry

variable {β : Type} {cmp : β → β → Ordering} {hash : β → UInt64}

instance : BEq (HashEntry cmp hash) := ⟨fun x y => cmp x.value y.value == .eq⟩

instance : Hashable (HashEntry cmp hash) := ⟨fun x => hash x.value⟩

theorem beq_iff {x y : HashEntry cmp hash} : (x == y) = true ↔ cmp x.value y.value = .eq := by
  change (cmp x.value y.value == .eq) = true ↔ _
  exact beq_iff_eq

instance [Std.TransCmp cmp] : EquivBEq (HashEntry cmp hash) where
  rfl := beq_iff.mpr Std.ReflCmp.compare_self
  symm h := beq_iff.mpr (Std.OrientedCmp.eq_symm (beq_iff.mp h))
  trans h h' := beq_iff.mpr (Std.TransCmp.eq_trans (beq_iff.mp h) (beq_iff.mp h'))

/-- What a hash table needs of its entries: equal ones are hashed alike. -/
theorem lawfulHashable (h : ∀ x y, cmp x y = .eq → hash x = hash y) :
    LawfulHashable (HashEntry cmp hash) where
  hash_eq x y hxy := h x.value y.value (beq_iff.mp hxy)

end HashEntry

/-! ## Axes -/

namespace Axis

variable {hash : IndexValue → UInt64}

/-- The positions of index values, in a table that goes by hash. -/
abbrev HashTable (hash : IndexValue → UInt64) := Std.HashMap (HashEntry IndexValue.compare hash) Nat

/-- Enters values into a hash table from position `i` on, or gives back the first value that is
there already. -/
def hashTabulate (table : HashTable hash) (i : Nat) :
    List IndexValue → Except IndexValue (HashTable hash)
  | [] => .ok table
  | v :: vs => if table.contains ⟨v⟩ then .error v else hashTabulate (table.insert ⟨v⟩ i) (i + 1) vs

/-- The hash table of a list of values, or the first value that is equal to an earlier one. -/
def hashTable (hash : IndexValue → UInt64) (vs : List IndexValue) :
    Except IndexValue (HashTable hash) :=
  hashTabulate ∅ 0 vs

/-- The position of a value in a hash table. -/
def hashFind? (table : HashTable hash) (v : IndexValue) : Option Nat :=
  table[(⟨v⟩ : HashEntry IndexValue.compare hash)]?

/-- The two tables find the same. -/
def Holds (hashed : HashTable hash) (table : PositionTable) : Prop :=
  ∀ v : IndexValue, hashFind? hashed v = table[v.identity]?

theorem holds_empty : Holds (∅ : HashTable hash) ∅ := by
  intro v
  simp [hashFind?]

theorem Holds.contains {hashed : HashTable hash} {table : PositionTable} (h : Holds hashed table)
    [LawfulHashable (HashEntry IndexValue.compare hash)] (v : IndexValue) :
    hashed.contains ⟨v⟩ = table.contains v.identity := by
  rw [Std.HashMap.contains_eq_isSome_getElem?, Std.TreeMap.contains_eq_isSome_getElem?, ← h v]
  rfl

/-- Entering a value into both tables. -/
theorem Holds.insert {hashed : HashTable hash} {table : PositionTable} (h : Holds hashed table)
    [LawfulHashable (HashEntry IndexValue.compare hash)] (v : IndexValue) (i : Nat) :
    Holds (hashed.insert ⟨v⟩ i) (table.insert v.identity i) := by
  intro w
  have hsame : (⟨v⟩ : HashEntry IndexValue.compare hash) == ⟨w⟩ ↔
      Identity.compare v.identity w.identity = .eq := by
    rw [HashEntry.beq_iff, ← IndexValue.identity_eq_iff, Std.LawfulEqCmp.compare_eq_iff_eq]
  rw [hashFind?, Std.HashMap.getElem?_insert, Std.TreeMap.getElem?_insert, ← h w]
  by_cases hvw : Identity.compare v.identity w.identity = .eq
  · rw [if_pos hvw, if_pos (hsame.mpr hvw)]
  · rw [if_neg hvw, if_neg fun heq => hvw (hsame.mp heq)]
    rfl

variable [LawfulHashable (HashEntry IndexValue.compare hash)]

/-- Both walks stop at the same value. -/
theorem hashTabulate_eq_error_iff {hashed : HashTable hash} {table : PositionTable}
    (h : Holds hashed table) {i : Nat} {vs : List IndexValue} {v : IndexValue} :
    hashTabulate hashed i vs = .error v ↔ tabulate table i vs = .error v := by
  induction vs generalizing hashed table i with
  | nil => exact iff_of_false (fun h => by cases h) (fun h => by cases h)
  | cons w vs ih =>
    rw [hashTabulate, tabulate, h.contains w]
    split
    · rw [Except.error.injEq, Except.error.injEq]
    · exact ih (h.insert w i)

/-- A hash table that was filled finds what the table of an axis finds. -/
theorem holds_of_hashTabulate {hashed hashed' : HashTable hash} {table : PositionTable}
    (h : Holds hashed table) {i : Nat} {vs : List IndexValue}
    (hvs : hashTabulate hashed i vs = .ok hashed') :
    ∃ table', tabulate table i vs = .ok table' ∧ Holds hashed' table' := by
  induction vs generalizing hashed table i with
  | nil =>
    cases hvs
    exact ⟨table, rfl, h⟩
  | cons w vs ih =>
    rw [hashTabulate, h.contains w] at hvs
    rw [tabulate]
    split at hvs
    · cases hvs
    · rename_i hnew
      rw [if_neg hnew]
      exact ih (h.insert w i) hvs

/-- The hash table of a list refuses what the axis of the list refuses. -/
theorem hashTable_eq_error_iff {vs : List IndexValue} {v : IndexValue} :
    hashTable hash vs = .error v ↔ ofList vs = .error v := by
  rw [hashTable, hashTabulate_eq_error_iff holds_empty, ofList]
  cases tabulate ∅ 0 vs with
  | error w => simp [Except.map]
  | ok table => simp [Except.map]

/-- The hash table of a list finds what the axis of the list finds. -/
theorem hashFind?_of_hashTable {vs : List IndexValue} {hashed : HashTable hash}
    (h : hashTable hash vs = .ok hashed) : ∃ a, ofList vs = .ok a ∧
      ∀ v, hashFind? hashed v = a.position? v := by
  obtain ⟨table, htable, hholds⟩ := holds_of_hashTabulate holds_empty h
  refine ⟨⟨vs, table⟩, ?_, hholds⟩
  rw [ofList, htable]
  rfl

end Axis

/-! ## Keys -/

namespace Key

variable {hash : Key → UInt64}

/-- A set of keys that goes by hash. -/
abbrev HashSeen (hash : Key → UInt64) := Std.HashSet (HashEntry Key.compare hash)

/-- The first key that is among `seen` or equal to an earlier key of the list. -/
def firstHashedAfter? (seen : HashSeen hash) : List Key → Option Key
  | [] => none
  | k :: ks => if seen.contains ⟨k⟩ then some k else firstHashedAfter? (seen.insert ⟨k⟩) ks

/-- Both walks stop at the same key, when the same keys were seen before them. -/
theorem firstHashedAfter?_eq [LawfulHashable (HashEntry Key.compare hash)] {hashed : HashSeen hash}
    {seen : Seen} (h : ∀ k : Key, hashed.contains ⟨k⟩ = seen.contains k.identity)
    (ks : List Key) : firstHashedAfter? hashed ks = firstRepeatAfter? seen ks := by
  induction ks generalizing hashed seen with
  | nil => rfl
  | cons k ks ih =>
    rw [firstHashedAfter?, firstRepeatAfter?, h k]
    have hinsert (k' : Key) :
        (hashed.insert ⟨k⟩).contains ⟨k'⟩ = (seen.insert k.identity).contains k'.identity := by
      rw [Std.HashSet.contains_insert, Std.TreeSet.contains_insert, h k']
      congr 1
      rw [Bool.eq_iff_iff, HashEntry.beq_iff, ← identity_eq_iff, beq_iff_eq,
        Std.LawfulEqCmp.compare_eq_iff_eq]
    rw [ih hinsert]

/-- The first key that is equal to an earlier one, with the keys seen so far in a hash table. -/
def firstHashed? (hash : Key → UInt64) (ks : List Key) : Option Key :=
  firstHashedAfter? (∅ : HashSeen hash) ks

theorem firstHashed?_eq_firstRepeat? [LawfulHashable (HashEntry Key.compare hash)] (ks : List Key) :
    firstHashed? hash ks = firstRepeat? ks := by
  apply firstHashedAfter?_eq
  intro k
  simp

end Key

/-! ## Hashing and the order -/

section Hashing

variable {π : Type} {pattern : Float → π}

theorem IndexValue.lawfulHashable (hpattern : SeparatesNumbers pattern)
    (digest : List (HashWrite π) → UInt64) :
    LawfulHashable (HashEntry IndexValue.compare fun v => digest (v.hashWrites pattern)) := by
  apply HashEntry.lawfulHashable
  intro v w h
  rw [(IndexValue.hashWrites_eq_iff hpattern).mpr h]

theorem Key.lawfulHashable (hpattern : SeparatesNumbers pattern)
    (digest : List (HashWrite π) → UInt64) :
    LawfulHashable (HashEntry Key.compare fun k => digest (k.hashWrites pattern)) := by
  apply HashEntry.lawfulHashable
  intro k k' h
  rw [(Key.hashWrites_eq_iff hpattern).mpr h]

/-- Values write the same to a hasher exactly when they are equal in the order, and so do keys. An
axis is refused exactly when two of its elements are equal, with the first one that is equal to an
earlier one, and finds the places of its elements otherwise. The check for repeated keys rejects a
list exactly when two of its keys are equal, with the first such one. Tables that go by hash refuse
and find the same, whichever way what is written is digested. -/
theorem IndexValue.hashing_agrees_with_order (hpattern : SeparatesNumbers pattern) :
    (∀ v w : IndexValue, v.hashWrites pattern = w.hashWrites pattern ↔ compare v w = .eq) ∧
    (∀ k k' : Key, k.hashWrites pattern = k'.hashWrites pattern ↔ Key.compare k k' = .eq) ∧
    (∀ vs : List IndexValue,
      ((∃ v, Axis.ofList vs = .error v) ↔ ¬ vs.Pairwise fun v w => compare v w ≠ .eq) ∧
      (∀ v, Axis.ofList vs = .error v ↔ FirstRepeat compare vs v) ∧
      ∀ a, Axis.ofList vs = .ok a → a.elements = vs ∧
        ∀ v i, a.position? v = some i ↔ ∃ w, vs[i]? = some w ∧ compare v w = .eq) ∧
    (∀ ks : List Key,
      ((∃ k, Key.firstRepeat? ks = some k) ↔ ¬ ks.Pairwise fun k k' => Key.compare k k' ≠ .eq) ∧
      ∀ k, Key.firstRepeat? ks = some k ↔ FirstRepeat Key.compare ks k) ∧
    ∀ digest : List (HashWrite π) → UInt64,
      (∀ vs v, Axis.hashTable (fun v => digest (v.hashWrites pattern)) vs = .error v ↔
        Axis.ofList vs = .error v) ∧
      (∀ vs table, Axis.hashTable (fun v => digest (v.hashWrites pattern)) vs = .ok table →
        ∃ a, Axis.ofList vs = .ok a ∧ ∀ v, Axis.hashFind? table v = a.position? v) ∧
      ∀ ks, Key.firstHashed? (fun k => digest (k.hashWrites pattern)) ks = Key.firstRepeat? ks := by
  refine ⟨fun v w => hashWrites_eq_iff hpattern, fun k k' => Key.hashWrites_eq_iff hpattern, ?_, ?_,
    ?_⟩
  · intro vs
    refine ⟨?_, fun v => Axis.ofList_eq_error_iff, ?_⟩
    · rw [← Axis.exists_ofList_iff]
      cases Axis.ofList vs with
      | error v => simp
      | ok a => simp
    · intro a ha
      exact ⟨Axis.elements_of_ofList ha, Axis.locates_position? ha⟩
  · intro ks
    refine ⟨?_, fun k => Key.firstRepeat?_eq_some_iff⟩
    rw [← Key.firstRepeat?_eq_none_iff, ← Option.isSome_iff_exists, ← Option.ne_none_iff_isSome]
  · intro digest
    have hvalues := IndexValue.lawfulHashable hpattern digest
    have hkeys := Key.lawfulHashable hpattern digest
    exact ⟨fun vs v => Axis.hashTable_eq_error_iff, fun vs table => Axis.hashFind?_of_hashTable,
      Key.firstHashed?_eq_firstRepeat?⟩

/-- Negative zero is hashed like the integer zero, and `1.0` repeats `1`. -/
theorem IndexValue.hashing_agrees_with_order_canonicalBits :
    SeparatesNumbers Binary64.canonicalBits ∧
      (float (-0.0)).hashWrites Binary64.canonicalBits =
        (int 0).hashWrites Binary64.canonicalBits ∧
      Axis.ofList [int 1, str "a", float 1.0] = .error (float 1.0) := by
  have hpattern := Binary64.separatesNumbers_canonicalBits
  obtain ⟨hvalues, -, haxes, -⟩ := IndexValue.hashing_agrees_with_order hpattern
  refine ⟨hpattern, (hvalues _ _).mpr (by decide +kernel), ?_⟩
  apply ((haxes _).2.1 _).mpr
  exact ⟨[int 1, str "a"], [], rfl, by decide +kernel, int 1, by decide, by decide +kernel⟩

end Hashing

end AlgebraicModel
