import AlgebraicModel.Proofs.Json.Format

/-!
# Stored declarations come back

A declaration that is written and read again is the declaration that it was: the same expressions,
the same constants of the same kind, names with the blanks around them, the same condition and kind.
Each part is read back from what it was stored as, expressions by induction
(`Expr.ofJson?_toJson`). What is stored is a value whose text a format has to read back
(`Declaration.serialized_toJson`), so the text of a declaration is read as the declaration
(`Declaration.ofText_toText`).

Two things are asked of the declaration. It is nested no deeper than the reader allows
(`Json.depth`). And its binary64 constants are finite, and the format, whose reader may round more
than once, makes of the number that is written for each of them that constant again (`ReadsBack`).
-/

set_option autoImplicit false

namespace AlgebraicModel

/-! ## Constants -/

/-- The format makes the number again of what it writes for it. -/
def ReadsBack [JsonFormat] (x : Float) : Prop :=
  Binary64.isFinite x = true ∧ JsonFormat.toFloat? (JsonFormat.ofFloat x) = some x

namespace Expr

mutual

/-- The binary64 constants of an expression. -/
def numbers : Expr → List Float
  | const (.float x) => [x]
  | const (.int _) | const (.str _) | var _ => []
  | range lo hi => lo.numbers ++ hi.numbers
  | collection es => allNumbers es
  | app _ args => allNumbers args
  | unary _ e => e.numbers
  | binary _ l r => l.numbers ++ r.numbers
  | ite c t f => c.numbers ++ t.numbers ++ f.numbers

/-- The binary64 constants of a list of expressions. -/
def allNumbers : List Expr → List Float
  | [] => []
  | e :: es => e.numbers ++ allNumbers es

end

end Expr

/-- The binary64 constants of a declaration. -/
def Declaration.numbers (d : Declaration) : List Float :=
  d.indices.flatMap (fun i => i.set.numbers) ++ (d.filter.map Expr.numbers).getD []

/-! ## Parts that are stored alike in every format -/

@[simp] theorem Name.ofJson?_toJson (n : Name) : ofJson? n.toJson = some n := rfl

@[simp] theorem Json.choice?_text (levels : Nat) (s : String) :
    (text s).choice? levels = some s := rfl

theorem ContainerKind.ofJson?_toJson {kind : ContainerKind} {levels : Nat}
    (h : kind.toJson.depth ≤ levels) : ofJson? levels kind.toJson = some kind := by
  cases kind with
  | auto => simp [toJson, ofJson?, Json.text, Json.choice?, ofName?]
  | dense => simp [toJson, ofJson?, Json.text, Json.choice?, ofName?]
  | axis => simp [toJson, ofJson?, Json.text, Json.choice?, ofName?]
  | map => simp [toJson, ofJson?, Json.text, Json.choice?, ofName?]
  | custom name =>
    rw [toJson, Json.depth_tagged] at h
    have hlevels : levels ≠ 0 := by omega
    simp [toJson, ofJson?, Json.tagged, hlevels]

/-- What may be null is read back when it is stored as something else. -/
theorem Json.nullable?_getD {α : Type} {read? : Json → Option α} {toJson : α → Json} {a : Option α}
    (h : ∀ b ∈ a, toJson b ≠ .null ∧ read? (toJson b) = some b) :
    nullable? read? ((a.map toJson).getD .null) = some a := by
  cases a with
  | none => rfl
  | some b =>
    obtain ⟨hne, hread⟩ := h b rfl
    rw [Option.map_some, Option.getD_some, nullable?, hread]
    · rfl
    · exact hne

/-- An expression whose parts are in an array enters two levels before its parts. -/
theorem Expr.exists_levels {form : Form} {parts : List Json} {levels : Nat}
    (h : (Json.tagged form.name (.array parts)).depth ≤ levels) :
    ∃ n, levels = n + 2 ∧ Json.elementsDepth parts ≤ n := by
  rw [Json.depth_tagged, Json.depth] at h
  exact ⟨levels - 2, by omega, by omega⟩

/-! ## Index values -/

section

variable [JsonFormat]

theorem IndexValue.ofJson?_toJson [LawfulJsonFormat] {v : IndexValue}
    (h : ∀ x ∈ (Expr.const v).numbers, ReadsBack x) :
    ofJson? v.toJson = some v := by
  cases v with
  | int n =>
    rw [toJson, Json.int, ofJson?, Word.ofInt?_toInt]
  | float x =>
    obtain ⟨hfinite, hread⟩ := h x (by simp [Expr.numbers])
    obtain ⟨negative, n, hdecimal⟩ := LawfulJsonFormat.ofFloat_decimal x hfinite
    rw [hdecimal] at hread
    rw [toJson, floatJson, if_pos hfinite, hdecimal]
    change (JsonFormat.toFloat? (.decimal negative n)).map float = _
    rw [hread]
    rfl
  | str s => rfl

@[simp] theorem IndexValue.depth_toJson (v : IndexValue) : v.toJson.depth = 0 := by
  cases v with
  | int n => rfl
  | float x =>
    rw [toJson, floatJson]
    split <;> rfl
  | str s => rfl

theorem IndexValue.serialized_toJson (v : IndexValue) : v.toJson.Serialized := by
  cases v with
  | int n => exact .int n
  | float x =>
    rw [toJson, floatJson]
    split
    case isTrue hx => exact .float hx
    case isFalse => exact .null
  | str s => exact .text s

theorem Name.serialized_toJson (n : Name) : n.toJson.Serialized := .text n.text

/-! ## Expressions -/

namespace Expr

/-- An object of one field is read by its tag. -/
theorem ofJson?_tagged (n : Nat) (form : Form) (payload : Json) :
    ofJson? (n + 1) (.tagged form.name payload) = ofPayload? n form payload := by
  rw [ofJson?, Json.tagged?_tagged]
  simp only [Form.ofName?_name, Option.bind_eq_bind, Option.bind_some]

mutual

/-- What is stored for an expression has a text that is read back. -/
theorem serialized_toJson : ∀ e : Expr, e.toJson.Serialized
  | const v => .tagged v.serialized_toJson _
  | var n => .tagged n.serialized_toJson _
  | range lo hi => by
    have hlo := serialized_toJson lo
    have hhi := serialized_toJson hi
    rw [toJson]
    exact .tagged (.array (by simp [hlo, hhi])) _
  | collection es => by
    rw [toJson]
    exact .tagged (.array (serialized_toJsons es)) _
  | app f args => by
    have hargs : (Json.array (toJsons args)).Serialized := .array (serialized_toJsons args)
    rw [toJson]
    exact .tagged (.array (by simp [f.serialized_toJson, hargs])) _
  | unary op e => by
    have he := serialized_toJson e
    rw [toJson]
    exact .tagged (.array (by simp [Json.Serialized.text op.name, he])) _
  | binary op l r => by
    have hl := serialized_toJson l
    have hr := serialized_toJson r
    rw [toJson]
    exact .tagged (.array (by simp [Json.Serialized.text op.name, hl, hr])) _
  | ite c t f => by
    have hc := serialized_toJson c
    have ht := serialized_toJson t
    have hf := serialized_toJson f
    rw [toJson]
    exact .tagged (.array (by simp [hc, ht, hf])) _

theorem serialized_toJsons : ∀ es : List Expr, ∀ j ∈ toJsons es, j.Serialized
  | [], j, hj => by cases hj
  | e :: es, j, hj => by
    rw [toJsons, List.mem_cons] at hj
    rcases hj with rfl | hj
    · exact serialized_toJson e
    · exact serialized_toJsons es j hj

end

mutual

/-- A stored expression is read back, with levels enough for its depth. -/
theorem ofJson?_toJson [LawfulJsonFormat] : ∀ (e : Expr) (levels : Nat), e.toJson.depth ≤ levels →
    (∀ x ∈ e.numbers, ReadsBack x) → ofJson? levels e.toJson = some e
  | const v, levels, hdepth, hnumbers => by
    rw [toJson, Json.depth_tagged, IndexValue.depth_toJson] at hdepth
    obtain ⟨n, rfl⟩ : ∃ n, levels = n + 1 := ⟨levels - 1, by omega⟩
    rw [toJson, ofJson?_tagged, ofPayload?, IndexValue.ofJson?_toJson hnumbers]
    rfl
  | var name, levels, hdepth, hnumbers => by
    rw [toJson, Json.depth_tagged] at hdepth
    obtain ⟨n, rfl⟩ : ∃ n, levels = n + 1 := ⟨levels - 1, by omega⟩
    rw [toJson, ofJson?_tagged, ofPayload?, Name.ofJson?_toJson]
    rfl
  | range lo hi, levels, hdepth, hnumbers => by
    obtain ⟨n, rfl, hparts⟩ := exists_levels hdepth
    simp only [Json.elementsDepth] at hparts
    obtain ⟨hlo, hhi⟩ := List.forall_mem_append.mp hnumbers
    rw [toJson, ofJson?_tagged, ofPayload?, ofJson?_toJson lo n (by omega) hlo,
      ofJson?_toJson hi n (by omega) hhi]
    rfl
  | collection es, levels, hdepth, hnumbers => by
    obtain ⟨n, rfl, hparts⟩ := exists_levels hdepth
    rw [toJson, ofJson?_tagged, ofPayload?, mapM_ofJson?_toJsons es n hparts hnumbers]
    rfl
  | app f args, levels, hdepth, hnumbers => by
    obtain ⟨n, rfl, hparts⟩ := exists_levels hdepth
    simp only [Json.elementsDepth, Json.depth] at hparts
    -- the arguments are in an array of their own
    obtain ⟨n, rfl⟩ : ∃ m, n = m + 1 := ⟨n - 1, by omega⟩
    rw [toJson, ofJson?_tagged, ofPayload?, Name.ofJson?_toJson,
      mapM_ofJson?_toJsons args n (by omega) hnumbers]
    rfl
  | unary op e, levels, hdepth, hnumbers => by
    obtain ⟨n, rfl, hparts⟩ := exists_levels hdepth
    simp only [Json.elementsDepth] at hparts
    rw [toJson, ofJson?_tagged, ofPayload?, Json.choice?_text,
      ofJson?_toJson e n (by omega) hnumbers]
    simp only [Option.bind_eq_bind, Option.bind_some, UnaryOp.ofName?_name]
    rfl
  | binary op l r, levels, hdepth, hnumbers => by
    obtain ⟨n, rfl, hparts⟩ := exists_levels hdepth
    simp only [Json.elementsDepth] at hparts
    obtain ⟨hl, hr⟩ := List.forall_mem_append.mp hnumbers
    rw [toJson, ofJson?_tagged, ofPayload?, Json.choice?_text, ofJson?_toJson l n (by omega) hl,
      ofJson?_toJson r n (by omega) hr]
    simp only [Option.bind_eq_bind, Option.bind_some, BinaryOp.ofName?_name]
    rfl
  | ite c t f, levels, hdepth, hnumbers => by
    obtain ⟨n, rfl, hparts⟩ := exists_levels hdepth
    simp only [Json.elementsDepth] at hparts
    obtain ⟨hct, hf⟩ := List.forall_mem_append.mp hnumbers
    obtain ⟨hc, ht⟩ := List.forall_mem_append.mp hct
    rw [toJson, ofJson?_tagged, ofPayload?, ofJson?_toJson c n (by omega) hc,
      ofJson?_toJson t n (by omega) ht, ofJson?_toJson f n (by omega) hf]
    rfl

/-- The parts of an expression are read back one by one. -/
theorem mapM_ofJson?_toJsons [LawfulJsonFormat] : ∀ (es : List Expr) (levels : Nat),
    Json.elementsDepth (toJsons es) ≤ levels → (∀ x ∈ allNumbers es, ReadsBack x) →
      (toJsons es).mapM (ofJson? levels) = some es
  | [], _, _, _ => rfl
  | e :: es, levels, hdepth, hnumbers => by
    simp only [toJsons, Json.elementsDepth] at hdepth
    obtain ⟨he, hes⟩ := List.forall_mem_append.mp hnumbers
    rw [toJsons, List.mapM_cons, ofJson?_toJson e levels (by omega) he,
      mapM_ofJson?_toJsons es levels (by omega) hes]
    rfl

end

end Expr

/-! ## Declarations -/

theorem ContainerKind.serialized_toJson (kind : ContainerKind) : kind.toJson.Serialized := by
  cases kind with
  | auto | dense | axis | map => exact .text _
  | custom name => exact .tagged (.text name) _

theorem IndexSet.serialized_toJson (i : IndexSet) : i.toJson.Serialized :=
  .object (by simp) (by simp [i.name.serialized_toJson, i.set.serialized_toJson])

theorem IndexSet.ofJson?_toJson [LawfulJsonFormat] {i : IndexSet} {levels : Nat}
    (h : i.toJson.depth ≤ levels) (hnumbers : ∀ x ∈ i.set.numbers, ReadsBack x) :
    ofJson? levels i.toJson = some i := by
  simp only [toJson, Json.depth, Json.fieldsDepth] at h
  obtain ⟨n, rfl⟩ : ∃ n, levels = n + 1 := ⟨levels - 1, by omega⟩
  have hset := Expr.ofJson?_toJson i.set n (by omega) hnumbers
  simp [toJson, ofJson?, Json.namedFields, Json.field?, hset]

theorem Expr.toJson_ne_null (e : Expr) : e.toJson ≠ .null := by
  cases e <;> rw [toJson, Json.tagged] <;> exact Json.noConfusion

namespace Declaration

/-- What is stored for a declaration has a text that is read back. -/
theorem serialized_toJson (d : Declaration) : d.toJson.Serialized := by
  have hname : ((d.name.map Name.toJson).getD .null).Serialized := by
    cases d.name with
    | none => exact .null
    | some n => exact n.serialized_toJson
  have hindices : (Json.array (d.indices.map IndexSet.toJson)).Serialized :=
    .array (by simp [IndexSet.serialized_toJson])
  have hfilter : ((d.filter.map Expr.toJson).getD .null).Serialized := by
    cases d.filter with
    | none => exact .null
    | some e => exact e.serialized_toJson
  exact .object (by simp) (by simp [hname, hindices, hfilter, d.kind.serialized_toJson])

variable [LawfulJsonFormat]

theorem mapM_ofJson?_indices {is : List IndexSet} {levels : Nat}
    (h : Json.elementsDepth (is.map IndexSet.toJson) ≤ levels)
    (hnumbers : ∀ x ∈ is.flatMap (fun i => i.set.numbers), ReadsBack x) :
    (is.map IndexSet.toJson).mapM (IndexSet.ofJson? levels) = some is := by
  induction is with
  | nil => rfl
  | cons i is ih =>
    rw [List.map_cons, Json.elementsDepth] at h
    rw [List.flatMap_cons] at hnumbers
    obtain ⟨hi, his⟩ := List.forall_mem_append.mp hnumbers
    rw [List.map_cons, List.mapM_cons, IndexSet.ofJson?_toJson (by omega) hi, ih (by omega) his]
    rfl

/-- A stored declaration is read back, with levels enough for its depth. -/
theorem ofJson?_toJson {d : Declaration} {levels : Nat} (h : d.toJson.depth ≤ levels)
    (hnumbers : ∀ x ∈ d.numbers, ReadsBack x) : ofJson? levels d.toJson = some d := by
  obtain ⟨hindices, hfilter⟩ := List.forall_mem_append.mp hnumbers
  simp only [toJson, Json.depth, Json.fieldsDepth] at h
  obtain ⟨n, rfl⟩ : ∃ n, levels = n + 2 := ⟨levels - 2, by omega⟩
  have hname : Json.nullable? Name.ofJson? ((d.name.map Name.toJson).getD .null) = some d.name := by
    apply Json.nullable?_getD
    intro name _
    exact ⟨Json.noConfusion, name.ofJson?_toJson⟩
  have hsets : (d.indices.map IndexSet.toJson).mapM (IndexSet.ofJson? n) = some d.indices :=
    mapM_ofJson?_indices (by omega) hindices
  have hcondition : Json.nullable? (Expr.ofJson? (n + 1)) ((d.filter.map Expr.toJson).getD .null) =
      some d.filter := by
    apply Json.nullable?_getD
    intro e he
    have he : d.filter = some e := he
    rw [he] at h hfilter
    simp only [Option.map_some, Option.getD_some] at h hfilter
    exact ⟨e.toJson_ne_null, e.ofJson?_toJson (n + 1) (by omega) hfilter⟩
  have hkind : ContainerKind.ofJson? (n + 1) d.kind.toJson = some d.kind :=
    ContainerKind.ofJson?_toJson (by omega)
  simp [toJson, ofJson?, Json.namedFields, Json.field?, ofParts?, hname, hsets, hcondition, hkind]

/-- The text of a declaration is read as the declaration, when it is nested no deeper than the
reader allows, and when its binary64 constants are finite and come back from their numbers. -/
theorem ofText_toText {d : Declaration} (hdepth : d.toJson.depth ≤ JsonFormat.maxLevels)
    (hfinite : ∀ x ∈ d.numbers, Binary64.isFinite x = true)
    (hread : ∀ x ∈ d.numbers, JsonFormat.toFloat? (JsonFormat.ofFloat x) = some x) :
    ofText d.toText = .ok d := by
  have hnumbers : ∀ x ∈ d.numbers, ReadsBack x := fun x hx => ⟨hfinite x hx, hread x hx⟩
  have htext : JsonFormat.read? (JsonFormat.write d.toJson) = some d.toJson :=
    LawfulJsonFormat.read?_write d.toJson d.serialized_toJson hdepth
  rw [ofText, toText, htext]
  dsimp only
  rw [ofJson?_toJson hdepth hnumbers]

end Declaration

end

/-- In the usual format a declaration with constants of every kind, blanks in its names and a kind
of its own comes back. -/
theorem Declaration.ofText_toText_constants :
    let d : Declaration :=
      ⟨some ⟨" x "⟩,
        [⟨⟨"i"⟩, .collection [.const (.float 2.0), .const (.float (-0.0)), .const (.float 0.1),
            .const (.int (-9223372036854775808)), .const (.int 9223372036854775807),
            .const (.str "1"), .const (.str "a\"\\\n")]⟩,
          ⟨⟨"j"⟩, .app ⟨"f"⟩ [.range (.const (.int 1)) (.var ⟨" i"⟩)]⟩],
        some (.ite (.unary .not (.var ⟨"i"⟩)) (.binary .neq (.var ⟨"i"⟩) (.var ⟨"j"⟩))
          (.const (.float 1e300))), .custom " Auto"⟩
    ofText d.toText = .ok d := by
  intro d
  apply ofText_toText
  · decide +kernel
  · decide +kernel
  · decide +kernel

end AlgebraicModel
