import CommentSearch.Proofs.AcceptedRequest
import CommentSearch.Proofs.Outcome

/-!
# Selected search fields

A selection of search fields names fields and keys of metadata (`Selects`). An accepted selection
always does (`exists_selects_of_accepts`), and then the search runs on the fields that it names,
followed by those of the keys that are not empty; where it names neither, on the default fields
(`searchFields_of_selects`).
-/

namespace CommentSearch

/-- A selection names some fields and some keys of metadata: it is a list of fields, or an object
with either. -/
inductive Selects : Value → List String → List String → Prop where
  | list (names : List String) : Selects (.texts names) names []
  | object {fields : Fields} {names keys : List String}
      (named : fields.get? "fields" = none ∧ names = [] ∨
        fields.get? "fields" = some (.texts names))
      (metadata : fields.get? "meta" = none ∧ keys = [] ∨
        (∃ key, fields.get? "meta" = some (.text key) ∧ keys = [key]) ∨
        fields.get? "meta" = some (.texts keys)) : Selects (.object fields) names keys

theorem exists_texts_of_accepts {v : Value} (h : (Schema.list .text).accepts v = true) :
    ∃ names, v = .texts names := by
  obtain ⟨items, rfl, hitems⟩ := Schema.accepts_list_iff.1 h
  -- the hypothesis on the whole list would hinder the induction
  clear h
  induction items with
  | nil => exact ⟨[], rfl⟩
  | cons item items ih =>
    obtain ⟨s, rfl⟩ := Schema.accepts_text_iff.1 (hitems item List.mem_cons_self)
    obtain ⟨names, hnames⟩ := ih fun w hw => hitems w (List.mem_cons_of_mem _ hw)
    refine ⟨s :: names, ?_⟩
    rw [Value.list.inj hnames]
    rfl

/-- An accepted selection names fields and keys. -/
theorem exists_selects_of_accepts {v : Value} (h : Schema.searchSelection.accepts v = true) :
    ∃ names keys, Selects v names keys := by
  obtain ⟨form, hmem, haccepts⟩ := Schema.accepts_anyOf_iff.1 h
  simp only [List.mem_cons, List.not_mem_nil, or_false] at hmem
  rcases hmem with rfl | rfl
  · obtain ⟨names, rfl⟩ := exists_texts_of_accepts haccepts
    exact ⟨names, [], .list names⟩
  · obtain ⟨fields, rfl, hfields⟩ := Schema.accepts_object_iff.1 haccepts
    have hnamed := (hfields "fields" true (.list .text) (by simp)).1
    have hmeta := (hfields "meta" true .textOrTexts (by simp)).1
    obtain ⟨names, hnames⟩ : ∃ names, fields.get? "fields" = none ∧ names = [] ∨
        fields.get? "fields" = some (.texts names) := by
      cases hget : fields.get? "fields" with
      | none => exact ⟨[], .inl ⟨rfl, rfl⟩⟩
      | some w =>
        obtain ⟨names, rfl⟩ := exists_texts_of_accepts (hnamed w hget)
        exact ⟨names, .inr rfl⟩
    obtain ⟨keys, hkeys⟩ : ∃ keys, fields.get? "meta" = none ∧ keys = [] ∨
        (∃ key, fields.get? "meta" = some (.text key) ∧ keys = [key]) ∨
        fields.get? "meta" = some (.texts keys) := by
      cases hget : fields.get? "meta" with
      | none => exact ⟨[], .inl ⟨rfl, rfl⟩⟩
      | some w =>
        obtain ⟨form, hform, haccepts⟩ := Schema.accepts_anyOf_iff.1 (hmeta w hget)
        simp only [List.mem_cons, List.not_mem_nil, or_false] at hform
        rcases hform with rfl | rfl
        · obtain ⟨key, rfl⟩ := Schema.accepts_text_iff.1 haccepts
          exact ⟨[key], .inr (.inl ⟨key, rfl, rfl⟩)⟩
        · obtain ⟨keys, rfl⟩ := exists_texts_of_accepts haccepts
          exact ⟨keys, .inr (.inr rfl)⟩
    exact ⟨names, keys, .object hnames hkeys⟩

/-- The search fields of the keys that are not empty. -/
def metaSearchFields (keys : List String) : List String :=
  (keys.filter fun key => !Param.isEmpty (some (.text key))).map fun key =>
    "meta." ++ key ++ ".value"

theorem mapM_metaSearchField (keys : List String) :
    ((keys.map Value.text).filter fun key => !Param.isEmpty (some key)).mapM metaSearchField =
      .ok ((metaSearchFields keys).map Value.text) := by
  rw [List.filter_map, List.mapM_map, metaSearchFields, List.map_map]
  exact mapM_eq_ok_of_forall fun key _ => rfl

/-- The search runs on the fields that a selection names and those of its keys, or on the default
fields where it names neither. -/
theorem searchFields_of_selects {v : Value} {names keys : List String} (h : Selects v names keys)
    (defaults : Value) : searchFields (some v) defaults =
      if names = [] ∧ keys = [] then itemsOf defaults
      else .ok ((names ++ metaSearchFields keys).map Value.text) := by
  -- both forms of a selection end in the same step, on the names and keys that they were read to
  have hjoin (metaKeys : List Value) (hkeys : metaKeys = keys.map Value.text) :
      (if hasNoLength (.texts names) && metaKeys.isEmpty then itemsOf defaults
        else do
          let explicit ← itemsOf (.texts names)
          let others ← (metaKeys.filter fun key => !Param.isEmpty (some key)).mapM metaSearchField
          return explicit ++ others) =
        if names = [] ∧ keys = [] then itemsOf defaults
        else .ok ((names ++ metaSearchFields keys).map Value.text) := by
    subst hkeys
    rw [mapM_metaSearchField, List.map_append]
    simp only [Value.texts, hasNoLength, List.isEmpty_iff, List.map_eq_nil_iff, Bool.and_eq_true]
    rfl
  cases h with
  | list names => exact hjoin [] rfl
  | @object fields _ _ named metadata =>
    rcases named with ⟨hfields, rfl⟩ | hfields <;>
      rcases metadata with ⟨hmeta, rfl⟩ | ⟨key, hmeta, rfl⟩ | hmeta <;>
        rw [← hjoin _ rfl] <;> simp only [searchFields, Value.get?_object, hfields, hmeta] <;> rfl

end CommentSearch
