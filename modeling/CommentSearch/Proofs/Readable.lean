import CommentSearch.Compile
import CommentSearch.Proofs.Fields
import CommentSearch.Proofs.Outcome

/-!
# Values that can be read

Parameters are read leniently, but two kinds of values stop the reading: a value without a text form
where its text is needed (`Value.Formless`), and a value that counts as true and is no text where a
keyword is expected (`Param.IsKeyword`).

A dimension takes every value, unless it is to be a scalar (`Dimension.exists_node_iff`), and a
selection of search fields has to name its fields by a list or a text
(`exists_searchFields_iff`).
-/

namespace CommentSearch

/-! ### Text forms -/

/-- A value without a text form: an object with one of its own, or a list with such an item, at any
depth. -/
inductive Value.Formless : Value → Prop
  | object {fields : Fields} (own : fields.get? "toString" ≠ none) : Formless (.object fields)
  | list {items : List Value} {item : Value} (mem : item ∈ items) (formless : Formless item) :
    Formless (.list items)

namespace Value

theorem itemForms?_eq_none_iff {items : List Value} :
    itemForms? items = none ↔ ∃ item ∈ items, item.form? = none := by
  induction items with
  | nil => simp [itemForms?]
  | cons item items ih =>
    have hitem : itemForms? (item :: items) = none ↔
        item.form? = none ∨ itemForms? items = none := by
      cases item with
      | null => simp [itemForms?, form?]
      | bool | number | text | list | object =>
        rw [itemForms?]
        · cases form? _ <;> cases itemForms? items <;> simp
        · exact nofun
    rw [hitem, ih]
    simp only [List.mem_cons, exists_eq_or_imp]

/-- The values without a text form are those of this kind. -/
theorem form?_eq_none_iff (v : Value) : v.form? = none ↔ v.Formless :=
  match v with
  | null | bool _ | number _ | text _ => by
    rw [form?]
    exact ⟨nofun, nofun⟩
  | object fields => by
    have hown : fields.any (·.1 == "toString") = true ↔
        Fields.get? fields "toString" ≠ none := by
      rw [ne_eq, Fields.get?_eq_none_iff, List.any_eq_true]
      simp
    rw [form?]
    constructor
    · intro h
      split at h
      · rename_i hany
        exact .object (hown.1 hany)
      · cases h
    · intro h
      cases h with
      | object own => rw [if_pos (hown.2 own)]
  | list items => by
    have hitems (item : Value) (hmem : item ∈ items) : item.form? = none ↔ item.Formless :=
      have := List.sizeOf_lt_of_mem hmem
      form?_eq_none_iff item
    rw [form?, Option.map_eq_none_iff, itemForms?_eq_none_iff]
    constructor
    · rintro ⟨item, hmem, hnone⟩
      exact .list hmem ((hitems item hmem).1 hnone)
    · intro h
      cases h with
      | list mem formless => exact ⟨_, mem, (hitems _ mem).2 formless⟩
termination_by sizeOf v

end Value

namespace Param

/-- A parameter that is absent or has a text form. -/
def HasForm (p : Param) : Prop := ∀ v, p = some v → ¬v.Formless

/-- A parameter that is a text, or does not count as true. -/
def IsKeyword (p : Param) : Prop := ∀ v, p = some v → v.isTruthy = true → ∃ s, v = .text s

/-- A parameter that gives a single scalar: it has one, or else its text form is taken for it. -/
def GivesScalar (p : Param) : Prop := p.toList ≠ [] ∨ p.HasForm

theorem exists_textForm_iff {p : Param} : (∃ s, textForm p = .ok s) ↔ p.HasForm := by
  cases p with
  | none => exact ⟨fun _ => nofun, fun _ => ⟨_, rfl⟩⟩
  | some v =>
    have hform : HasForm (some v) ↔ v.form? ≠ none := by
      rw [ne_eq, Value.form?_eq_none_iff]
      exact ⟨fun h => h v rfl, fun h w hw => Option.some.inj hw ▸ h⟩
    rw [hform, textForm]
    cases v.form? with
    | none => exact ⟨nofun, fun h => absurd rfl h⟩
    | some s => exact ⟨fun _ => nofun, fun _ => ⟨s, rfl⟩⟩

theorem exists_keyword_iff {p : Param} : (∃ keyword, p.keyword = .ok keyword) ↔ p.IsKeyword := by
  cases p with
  | none => exact ⟨fun _ => nofun, fun _ => ⟨none, rfl⟩⟩
  | some v =>
    unfold keyword IsKeyword
    dsimp only
    split
    · rename_i htrue
      have hsome : (∀ w, some v = some w → w.isTruthy = true → ∃ s, w = .text s) ↔
          ∃ s, v = .text s :=
        ⟨fun h => h v rfl htrue, fun h w hw _ => Option.some.inj hw ▸ h⟩
      rw [hsome]
      cases v with
      | text s => exact ⟨fun _ => ⟨s, rfl⟩, fun _ => ⟨_, rfl⟩⟩
      | null | bool | number | list | object => exact ⟨nofun, nofun⟩
    · rename_i hfalse
      exact ⟨fun _ w hw htrue => absurd (Option.some.inj hw ▸ htrue) hfalse, fun _ => ⟨none, rfl⟩⟩

/-- What asks for nothing has a text form. -/
theorem hasForm_of_isEmpty {p : Param} (h : p.isEmpty = true) : p.HasForm := by
  rintro v rfl hformless
  cases hformless with
  | object own => cases h
  | list mem formless =>
    rw [isEmpty, List.isEmpty_iff] at h
    subst h
    cases mem

theorem hasForm_text (s : String) : HasForm (some (.text s)) := by
  rintro v hv hformless
  obtain rfl := Option.some.inj hv
  cases hformless

/-- A parameter that asks for nothing, or whose value is of some kind. -/
def EmptyOr (P : Value → Prop) (p : Param) : Prop := p.isEmpty = true ∨ ∃ v, p = some v ∧ P v

theorem emptyOr_some_iff {P : Value → Prop} {v : Value} (h : ¬isEmpty (some v) = true) :
    EmptyOr P (some v) ↔ P v := by
  constructor
  · rintro (hempty | ⟨w, hw, hp⟩)
    · exact absurd hempty h
    · exact Option.some.inj hw ▸ hp
  · exact fun hp => .inr ⟨v, rfl, hp⟩

end Param

/-! ### Dimensions -/

theorem exists_singleScalar_iff {v : Value} :
    (∃ x, singleScalar v = .ok x) ↔ Param.GivesScalar (some v) := by
  unfold singleScalar Param.GivesScalar
  cases hscalar : v.scalar? with
  | some x =>
    have hlist : Param.toList (some v) ≠ [] := by
      cases v with
      | null | list | object => cases hscalar
      | bool | number | text => simp [Param.toList, Value.scalar?]
    exact ⟨fun _ => .inl hlist, fun _ => ⟨x, rfl⟩⟩
  | none =>
    cases hlist : Param.toList (some v) with
    | cons x xs => exact ⟨fun _ => .inl (List.cons_ne_nil x xs), fun _ => ⟨x, rfl⟩⟩
    | nil =>
      dsimp only
      rw [exists_bind_pure_eq_ok_iff, Param.exists_textForm_iff]
      exact ⟨.inr, fun h => h.resolve_left fun hne => hne rfl⟩

namespace Dimension

variable (d : Dimension)

/-- A dimension of a single value that is not read as an integer is read as a scalar. -/
def TakesScalar : Prop := d.shape = .one ∧ d.integer = false

theorem exists_clause_iff {v : Value} : (∃ q, d.clause v = .ok q) ↔
    (d.TakesScalar → Param.GivesScalar (some v)) := by
  unfold clause TakesScalar
  cases d.shape with
  | list => exact ⟨fun _ => nofun, fun _ => ⟨_, rfl⟩⟩
  | entries => exact ⟨fun _ => nofun, fun _ => ⟨_, rfl⟩⟩
  | one =>
    cases d.integer with
    | true => exact ⟨fun _ => nofun, fun _ => ⟨_, rfl⟩⟩
    | false =>
      rw [← exists_singleScalar_iff]
      have hread : (∃ q, (singleScalar v >>= fun x => pure (Query.term d.field x.toValue)) =
          (.ok q : Except Fault Query)) ↔ ∃ x, singleScalar v = .ok x :=
        exists_bind_pure_eq_ok_iff
      exact hread.trans ⟨fun h _ => h, fun h => h ⟨rfl, rfl⟩⟩

theorem exists_node_iff {p : Param} : (∃ node, d.node p = .ok node) ↔
    (d.TakesScalar → p.GivesScalar) := by
  cases p with
  | none => exact ⟨fun _ _ => .inr nofun, fun _ => ⟨none, rfl⟩⟩
  | some v =>
    unfold node
    dsimp only
    cases hactive : d.isActive v with
    | true =>
      rw [if_pos rfl, exists_bind_pure_eq_ok_iff]
      exact d.exists_clause_iff
    | false =>
      -- an inactive value is empty, or the text that switches the filter off
      have hform : Param.HasForm (some v) := by
        simp only [isActive, Bool.and_eq_false_iff, Bool.or_eq_false_iff,
          Bool.not_eq_false'] at hactive
        rcases hactive with ⟨hempty, -⟩ | hdisabled
        · exact Param.hasForm_of_isEmpty hempty
        · split at hdisabled
          · exact Param.hasForm_text _
          · cases hdisabled
      exact ⟨fun _ _ => .inr hform, fun _ => ⟨none, rfl⟩⟩

end Dimension

/-! ### Selections of search fields -/

/-- What a selection names as its fields. -/
def selectedFields (v : Value) : Value :=
  let named : Param := match v with
    | .list items => some (.list items)
    | v => v.get? "fields"
  match named with
  | none | some .null => .list []
  | some w => w

/-- The keys of metadata that a selection names. -/
def selectedKeys (v : Value) : List Value :=
  match v.get? "meta" with
  | none => []
  | some (.list keys) => keys
  | some key => [key]

/-- A selection of search fields that can be read: it names nothing, or its fields are a list or a
text, and its keys have text forms unless they are empty. -/
def IsReadableSelection (v : Value) : Prop :=
  hasNoLength (selectedFields v) = true ∧ selectedKeys v = [] ∨
    ((∃ items, selectedFields v = .list items) ∨ ∃ s, selectedFields v = .text s) ∧
      ∀ key ∈ selectedKeys v, Param.HasForm (some key)

theorem exists_itemsOf_iff {v : Value} :
    (∃ items, itemsOf v = .ok items) ↔ (∃ items, v = .list items) ∨ ∃ s, v = .text s := by
  cases v with
  | list items => exact iff_of_true ⟨items, rfl⟩ (.inl ⟨items, rfl⟩)
  | text s => exact iff_of_true ⟨_, rfl⟩ (.inr ⟨s, rfl⟩)
  | null | bool | number | object => simp [itemsOf]

theorem exists_metaSearchFields_iff {keys : List Value} :
    (∃ names, (keys.filter fun key => !Param.isEmpty (some key)).mapM metaSearchField = .ok names) ↔
      ∀ key ∈ keys, Param.HasForm (some key) := by
  rw [exists_mapM_eq_ok_iff]
  have hkey (key : Value) : (∃ name, metaSearchField key = .ok name) ↔ Param.HasForm (some key) :=
    exists_bind_pure_eq_ok_iff.trans Param.exists_textForm_iff
  simp only [hkey, List.mem_filter, Bool.not_eq_true', and_imp]
  constructor
  · intro h key hmem
    cases hempty : Param.isEmpty (some key) with
    | true => exact Param.hasForm_of_isEmpty hempty
    | false => exact h key hmem hempty
  · exact fun h key hmem _ => h key hmem

/-- The selections that compile are those that can be read, if the default fields are a list. -/
theorem exists_searchFields_iff {v : Value} (hnull : v ≠ .null) (defaults : List Value) :
    (∃ fields, searchFields (some v) (.list defaults) = .ok fields) ↔ IsReadableSelection v := by
  have hjoin : (∃ fields, (if hasNoLength (selectedFields v) && (selectedKeys v).isEmpty then
      itemsOf (.list defaults)
      else itemsOf (selectedFields v) >>= fun explicit =>
        ((selectedKeys v).filter fun key => !Param.isEmpty (some key)).mapM metaSearchField >>=
          fun others => pure (explicit ++ others)) = .ok fields) ↔ IsReadableSelection v := by
    unfold IsReadableSelection
    split
    · rename_i hnone
      rw [Bool.and_eq_true, List.isEmpty_iff] at hnone
      exact iff_of_true ⟨defaults, rfl⟩ (.inl hnone)
    · rename_i hsome
      rw [Bool.and_eq_true, List.isEmpty_iff] at hsome
      rw [exists_bind_bind_eq_ok_iff, exists_itemsOf_iff, exists_metaSearchFields_iff]
      exact ⟨.inr, fun h => h.resolve_left hsome⟩
  cases v with
  | null => exact absurd rfl hnull
  | bool | number | text | list | object => exact hjoin

end CommentSearch
