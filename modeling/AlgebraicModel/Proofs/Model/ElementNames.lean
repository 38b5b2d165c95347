import AlgebraicModel.Proofs.IndexValue.Text
import AlgebraicModel.Proofs.Model.Variables

/-!
# The names of elements

A variable of a collection has the name of the declaration with its key behind it, if the model
keeps names (`Declaration.exists_entry_of_addVariables`). The key stands in the name without quotes,
so two variables may have one name: their keys are written alike where a text reads like a number,
where an integer beyond `2 ^ 53` is written like the number that it is rounded to, and where a comma
of one text is taken for one between values (`Declaration.element_names_collide`). Apart from these
cases different keys give different names (`Declaration.element_names_differ`).
-/

set_option autoImplicit false

namespace AlgebraicModel

variable {α σ : Type}

/-- The name of an element tells the text of its key. -/
theorem Name.subscript_inj {n : Name} {s t : String} (h : n.subscript s = n.subscript t) :
    s = t := by
  have htext : n.text ++ "[" ++ s ++ "]" = n.text ++ "[" ++ t ++ "]" := congrArg Name.text h
  have hchars := congrArg String.toList htext
  simp only [String.toList_append, List.append_assoc, List.append_cancel_left_eq,
    List.append_cancel_right_eq] at hchars
  exact String.toList_inj.mp hchars

/-- Every entry of the sequence was stored. -/
theorem Container.Stores.mem_of_mem_toList {c : Container α} {entries : List (Key × α)}
    (h : c.Stores entries) {x : Key × α} (hx : x ∈ c.toList) : x ∈ entries := by
  have hlisted := h.listed
  cases c with
  | map t => exact hlisted.1.mem_iff.mp hx
  | scalar | dense | axis =>
    rw [← (hlisted : _ = entries)]
    exact hx

namespace Declaration

variable [Coefficient α] {d : Declaration} {params : Params}
  {describe : Builder σ (VariableDecl α)} {m m' : Model α} {s s' : σ} {c : Container VarRef}

/-- The variable that the container has at a key was added under the name of the key, and the key
has a value for each index. -/
theorem exists_entry_of_addVariables [Closeness]
    (hrun : (d.addVariables params describe).exec (m, s) = (.ok c, (m', s'))) {k : Key} {v : VarRef}
    (hk : (k, v) ∈ c.toList) :
    k.length = d.indices.length ∧
      ∃ info, Model.variableEntry? m' v = some ⟨info, m.keptName (d.elementName k)⟩ := by
  rw [addVariables_eq] at hrun
  obtain ⟨ks, decls, vs, m₁, hkeys, hkeyed, hdecls, -, -, hsteps, -, hstores, -, rfl⟩ :=
    exists_steps_of_assemble (isStep_addVariableAt d describe) (d.projects_addVariableAt describe)
      hrun
  obtain ⟨infos, hinfos, rfl, hm₁⟩ := appended_of_steps hsteps
  rw [hkeyed] at hm₁
  rw [List.length_map] at hstores
  obtain ⟨i, hi⟩ := List.mem_iff_getElem?.mp (hstores.mem_of_mem_toList hk)
  obtain ⟨hki, hvi⟩ := List.getElem?_zip_eq_some.mp hi
  refine ⟨?_, ?_⟩
  · rw [length_of_mem_enumerate hkeys k (List.mem_of_getElem? hki), Bindings.key_ofParams,
      List.length_nil, Nat.zero_add]
  · have hlt : i < ks.length := (List.getElem?_eq_some_iff.mp hki).1
    have hlength : infos.length = ks.length := by rw [hdecls, hinfos.length_eq]
    -- the variable of the call is the one that its reference counts to
    have hv : v = ⟨m.id, m.vars.size + i⟩ := by
      rw [List.getElem?_map, List.getElem?_range' hlt, Nat.one_mul,
        Option.map_some] at hvi
      exact (Option.some.inj hvi).symm
    have hid : m₁.id = m.id := by rw [hm₁]
    have hvars : m₁.vars = m.vars ++ (List.zipWith
        (fun k info => ⟨info, m.keptName (d.elementName k)⟩) ks infos).toArray := by rw [hm₁]
    refine ⟨infos[i], ?_⟩
    rw [hv]
    refine (Model.variableEntry?_appended hid hvars i).trans ?_
    rw [List.getElem?_zipWith, hki, List.getElem?_eq_getElem (by omega)]

/-- The names that `addVariables` gives to elements at different keys. Where the model keeps names
and the declaration has a name and indices, each of two variables has the name with its key behind
it. The names are different if at some place the values of the keys are, and are not confusable: a
number and a text that reads like it, or an integer beyond `2 ^ 53` and another number that is
written like it. Where the two keys have as many commas in their texts, they must have as many at
each place. -/
theorem element_names_differ [Closeness]
    (hrun : (d.addVariables params describe).exec (m, s) = (.ok c, (m', s')))
    (hstrings : m.stringNames = true) {n : Name} (hname : d.name = some n)
    (hindices : d.indices ≠ []) {k k' : Key} {v v' : VarRef} (hk : (k, v) ∈ c.toList)
    (hk' : (k', v') ∈ c.toList) (hdistinct : Key.Distinguishable k k')
    (haligned : Key.CommasAligned k k') :
    ∃ e e', Model.variableEntry? m' v = some e ∧ Model.variableEntry? m' v' = some e' ∧
      e.name = some (n.subscript k.text) ∧ e'.name = some (n.subscript k'.text) ∧
      e.name ≠ e'.name := by
  obtain ⟨hlength, info, hentry⟩ := exists_entry_of_addVariables hrun hk
  obtain ⟨hlength', info', hentry'⟩ := exists_entry_of_addVariables hrun hk'
  have hkept (k : Key) : m.keptName (d.elementName k) = some (n.subscript k.text) := by
    rw [Model.keptName_elementName, if_pos hstrings, hname, Option.map_some, if_neg hindices]
  rw [hkept] at hentry hentry'
  refine ⟨_, _, hentry, hentry', rfl, rfl, ?_⟩
  intro hsame
  have htext : k.text = k'.text := Name.subscript_inj (Option.some.inj hsame)
  exact hdistinct.not_textsEqual
    (Key.textsEqual_of_text_eq (hlength.trans hlength'.symm) haligned htext)

/-- The elements of `x` at `a,b` and `c,d`, and at `a,b` and `c,e`. -/
theorem element_names_differ_map :
    let d : Declaration := ⟨some ⟨"x"⟩,
      [⟨⟨"i"⟩, .collection [.const (.str "a,b")]⟩,
        ⟨⟨"j"⟩, .collection [.const (.str "c,d"), .const (.str "c,e")]⟩], none, .map⟩
    let describe : Builder Unit (VariableDecl Float) := fun _ => pure .free
    ∃ c m' e e', (d.addVariables ⟨[]⟩ describe).exec (.empty 7 true, ()) = (.ok c, (m', ())) ∧
      ([.str "a,b", .str "c,d"], ⟨7, 0⟩) ∈ c.toList ∧
      ([.str "a,b", .str "c,e"], ⟨7, 1⟩) ∈ c.toList ∧
      Model.variableEntry? m' ⟨7, 0⟩ = some e ∧ Model.variableEntry? m' ⟨7, 1⟩ = some e' ∧
      e.name ≠ e'.name := by
  intro d describe
  obtain ⟨c, m', hrun, hk, hk'⟩ : ∃ c m',
      (d.addVariables ⟨[]⟩ describe).exec (.empty 7 true, ()) = (.ok c, (m', ())) ∧
        (([.str "a,b", .str "c,d"], ⟨7, 0⟩) : Key × VarRef) ∈ c.toList ∧
        (([.str "a,b", .str "c,e"], ⟨7, 1⟩) : Key × VarRef) ∈ c.toList :=
    ⟨_, _, rfl, by decide +kernel, by decide +kernel⟩
  have hdistinct : Key.Distinguishable [.str "a,b", .str "c,d"] [.str "a,b", .str "c,e"] :=
    ⟨1, .str "c,d", .str "c,e", rfl, rfl, by decide +kernel, fun h =>
      absurd h.text_eq (by decide +kernel)⟩
  -- one comma in each value
  have haligned : Key.CommasAligned [.str "a,b", .str "c,d"] [.str "a,b", .str "c,e"] :=
    fun _ => .cons (by decide +kernel) (.cons (by decide +kernel) .nil)
  obtain ⟨e, e', he, he', -, -, hnames⟩ := element_names_differ hrun rfl rfl (by simp [d]) hk hk'
    hdistinct haligned
  exact ⟨c, m', e, e', hrun, hk, hk', he, he', hnames⟩

/-- The keys and names of the elements of a collection `x` over the index sets, in a model that
keeps names. -/
def elementNames [Closeness] (indices : List IndexSet) : List (Key × Option Name) :=
  let d : Declaration := ⟨some ⟨"x"⟩, indices, none, .map⟩
  let describe : Builder Unit (VariableDecl Float) := fun _ => pure .free
  match (d.addVariables ⟨[]⟩ describe).exec (.empty 7 true, ()) with
  | (.ok c, (m, _)) => c.toList.map fun p => (p.1, (Model.variableEntry? m p.2).bind (·.name))
  | (.error _, _) => []

/-- Names that do not tell the elements apart: with a text that reads like a number, with an integer
beyond `2 ^ 53` and the number that it is rounded to, and with commas at different places. -/
theorem element_names_collide :
    (Key.compare [.int 1] [.str "1"] ≠ .eq ∧
      ∀ k ∈ ([[.int 1], [.str "1"]] : List Key), (k, some ⟨"x[1]"⟩) ∈
        elementNames [⟨⟨"i"⟩, .collection [.const (.int 1), .const (.str "1")]⟩]) ∧
    (Key.compare [.int 1152921504606847000] [.float 1152921504606846976.0] ≠ .eq ∧
      ∀ k ∈ ([[.int 1152921504606847000], [.float 1152921504606846976.0]] : List Key),
        (k, some ⟨"x[1152921504606847000]"⟩) ∈
          elementNames [⟨⟨"i"⟩, .collection [.const (.int 1152921504606847000),
            .const (.float 1152921504606846976.0)]⟩]) ∧
    Key.compare [.str "a,b", .str "c"] [.str "a", .str "b,c"] ≠ .eq ∧
      ∀ k ∈ ([[.str "a,b", .str "c"], [.str "a", .str "b,c"]] : List Key),
        (k, some ⟨"x[a,b,c]"⟩) ∈
          elementNames [⟨⟨"i"⟩, .collection [.const (.str "a,b"), .const (.str "a")]⟩,
            ⟨⟨"j"⟩, .collection [.const (.str "c"), .const (.str "b,c")]⟩] := by
  refine ⟨⟨?_, ?_⟩, ⟨?_, ?_⟩, ?_, ?_⟩ <;> decide +kernel

end Declaration

end AlgebraicModel
