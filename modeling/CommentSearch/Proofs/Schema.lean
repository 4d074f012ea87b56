import CommentSearch.Schema
import CommentSearch.Proofs.MetaGrammar

/-!
# Accepted values

What it means for a value to be accepted by each kind of schema, and that validation accepts what it
has kept of an accepted value (`Schema.accepts_strip`). The latter needs that no object names a
field twice, which `Schema.distinctNames` decides.
-/

namespace CommentSearch

/-- Listing entries loses none and adds none. -/
theorem mem_listed {α : Type} {entries : List (String × α)} {entry : String × α} :
    entry ∈ listed entries ↔ entry ∈ entries := by
  unfold listed
  simp only [List.mem_append, List.mem_map, List.mem_mergeSort, List.mem_filterMap,
    Option.map_eq_some_iff, List.mem_filter, Option.isNone_iff_eq_none]
  constructor
  · rintro (⟨_, ⟨other, hmem, i, -, rfl⟩, rfl⟩ | ⟨hmem, -⟩)
    · exact hmem
    · exact hmem
  · intro hmem
    cases hindex : arrayIndex? entry.1 with
    | none => exact .inr ⟨hmem, rfl⟩
    | some i => exact .inl ⟨(i, entry), ⟨entry, hmem, i, hindex, rfl⟩, rfl⟩

namespace Schema

attribute [local simp] issues anyAccepts fieldIssues strip stripAny stripFields mismatch

/-! ### Acceptance by the kind of schema -/

theorem accepts_iff {s : Schema} {v : Value} : s.accepts v = true ↔ s.issues v = [] :=
  List.isEmpty_iff

theorem accepts_text_iff {v : Value} : text.accepts v = true ↔ ∃ s, v = .text s := by
  rw [accepts_iff, issues]
  cases v with
  | number x => cases hx : x.isNaN <;> simp [Value.kind, hx]
  | null | bool | text | list | object => simp [Value.kind]

theorem accepts_number_iff {v : Value} :
    number.accepts v = true ↔ ∃ x, v = .number x ∧ x.isNaN = false := by
  rw [accepts_iff, issues]
  cases v with
  | number x => cases hx : x.isNaN <;> simp [Value.kind, hx]
  | null | bool | text | list | object => simp [Value.kind]

theorem accepts_bool_iff {v : Value} : bool.accepts v = true ↔ ∃ b, v = .bool b := by
  rw [accepts_iff, issues]
  cases v with
  | number x => cases hx : x.isNaN <;> simp [Value.kind, hx]
  | null | bool | text | list | object => simp [Value.kind]

theorem anyAccepts_iff {forms : List Schema} {v : Value} :
    anyAccepts forms v = true ↔ ∃ form ∈ forms, form.accepts v = true := by
  induction forms with
  | nil => simp
  | cons form forms ih => simp [ih, accepts]

theorem accepts_anyOf_iff {forms : List Schema} {v : Value} :
    (anyOf forms).accepts v = true ↔ ∃ form ∈ forms, form.accepts v = true := by
  rw [accepts_iff, issues, ← anyAccepts_iff]
  cases anyAccepts forms v <;> simp

theorem accepts_list_iff {item : Schema} {v : Value} :
    (list item).accepts v = true ↔
      ∃ items, v = .list items ∧ ∀ w ∈ items, item.accepts w = true := by
  cases v with
  | list items =>
    rw [accepts_iff, issues]
    simp only [List.flatMap_eq_nil_iff, List.map_eq_nil_iff, Value.list.injEq, exists_eq_left',
      Prod.forall, accepts_iff]
    constructor
    · intro h w hw
      obtain ⟨i, hi, rfl⟩ := List.mem_iff_getElem.1 hw
      exact h _ i (List.mk_mem_zipIdx_iff_getElem?.2 (List.getElem?_eq_getElem hi))
    · intro h w i hw
      exact h w (List.mem_of_getElem? (List.mk_mem_zipIdx_iff_getElem?.1 hw))
  | null | bool | text | number | object => simp [accepts_iff]

theorem accepts_record_iff {item : Schema} {v : Value} :
    (record item).accepts v = true ↔
      ∃ fields : Fields, v = .object fields ∧ ∀ field ∈ fields, item.accepts field.2 = true := by
  cases v with
  | object fields =>
    rw [accepts_iff, issues]
    simp only [List.flatMap_eq_nil_iff, List.map_eq_nil_iff, Value.object.injEq, exists_eq_left',
      mem_listed, accepts_iff]
  | null | bool | text | number | list => simp [accepts_iff]

theorem accepts_nullable_iff {form : Schema} {v : Value} :
    (nullable form).accepts v = true ↔ v = .null ∨ form.accepts v = true := by
  cases v <;> simp [accepts_iff]

theorem accepts_metaQuery_iff {v : Value} :
    metaQuery.accepts v = true ↔ ∃ kept, metaQuery? v = some kept := by
  rw [accepts_iff, issues]
  cases metaQuery? v <;> simp

/-- The named fields of an object are accepted: each is of its schema, or may be left out. -/
def AcceptsFields (shape : List (String × Bool × Schema)) (fields : Fields) : Prop :=
  ∀ name optional schema, (name, optional, schema) ∈ shape →
    (∀ v, fields.get? name = some v → schema.accepts v = true) ∧
      (fields.get? name = none → optional = true)

theorem fieldIssues_eq_nil_iff {shape : List (String × Bool × Schema)} {fields : Fields} :
    fieldIssues shape fields = [] ↔ AcceptsFields shape fields := by
  unfold AcceptsFields
  induction shape with
  | nil => simp
  | cons part shape ih =>
    obtain ⟨name, optional, schema⟩ := part
    rw [fieldIssues, List.append_eq_nil_iff, ih]
    constructor
    · rintro ⟨hpart, hrest⟩ other optional' schema' hmem
      rcases List.mem_cons.1 hmem with heq | hmem
      · obtain ⟨rfl, rfl, rfl⟩ : other = name ∧ optional' = optional ∧ schema' = schema := by
          simpa using heq
        cases hget : fields.get? other with
        | none => cases optional' <;> simp [hget] at hpart ⊢
        | some v => simpa [hget, accepts_iff] using hpart
      · exact hrest other optional' schema' hmem
    · intro h
      refine ⟨?_, fun other optional' schema' hmem => h _ _ _ (List.mem_cons_of_mem _ hmem)⟩
      obtain ⟨hsome, hnone⟩ := h name optional schema List.mem_cons_self
      cases hget : fields.get? name with
      | none => simp [hnone hget]
      | some v => simpa [accepts_iff] using hsome v hget

theorem accepts_object_iff {shape : List (String × Bool × Schema)} {v : Value} :
    (object shape).accepts v = true ↔
      ∃ fields : Fields, v = .object fields ∧ AcceptsFields shape fields := by
  cases v with
  | object fields => simp [accepts_iff, fieldIssues_eq_nil_iff]
  | null | bool | text | number | list => simp [accepts_iff]

/-- The names of the fields that an object needs. -/
def requiredNames : Schema → List String
  | object shape => (shape.filter fun part => !part.2.1).map (·.1)
  | _ => []

theorem isSome_of_mem_requiredNames {schema : Schema} {v : Value} (h : schema.accepts v = true)
    {name : String} (hname : name ∈ schema.requiredNames) : (v.get? name).isSome := by
  cases schema with
  | object shape =>
    obtain ⟨fields, rfl, hfields⟩ := accepts_object_iff.1 h
    obtain ⟨⟨other, optional, schema⟩, hpart, rfl⟩ := List.mem_map.1 hname
    obtain ⟨hmem, hoptional⟩ := List.mem_filter.1 hpart
    rw [Value.get?_object, Option.isSome_iff_ne_none]
    intro habsent
    rw [(hfields other optional schema hmem).2 habsent] at hoptional
    cases hoptional
  | _ => cases hname

/-! ### Stripping -/

/-- An accepted value is stripped by one of the forms that accept it. -/
theorem exists_form_of_stripAny {forms : List Schema} {v : Value}
    (h : anyAccepts forms v = true) :
    ∃ form ∈ forms, form.accepts v = true ∧ stripAny forms v = form.strip v := by
  induction forms with
  | nil => simp at h
  | cons form forms ih =>
    rw [anyAccepts] at h
    rw [stripAny]
    cases hform : (form.issues v).isEmpty with
    | true => exact ⟨form, List.mem_cons_self, hform, by simp⟩
    | false =>
      rw [hform, Bool.false_or] at h
      obtain ⟨other, hmem, haccepts, hstrip⟩ := ih h
      exact ⟨other, List.mem_cons_of_mem _ hmem, haccepts, by simpa using hstrip⟩

theorem get?_stripFields_of_notMem {shape : List (String × Bool × Schema)} {fields : Fields}
    {key : String} (h : key ∉ shape.map (·.1)) :
    Fields.get? (stripFields shape fields) key = none := by
  induction shape with
  | nil => simp
  | cons part shape ih =>
    obtain ⟨name, optional, schema⟩ := part
    simp only [List.map_cons, List.mem_cons, not_or] at h
    rw [stripFields]
    split
    · rw [Fields.get?_cons_of_ne _ _ h.1, ih h.2]
    · exact ih h.2

/-- What is kept under a name is what its schema keeps of the value there. -/
theorem get?_stripFields {shape : List (String × Bool × Schema)} {fields : Fields}
    (distinct : (shape.map (·.1)).Nodup) {name : String} {optional : Bool} {schema : Schema}
    (h : (name, optional, schema) ∈ shape) :
    Fields.get? (stripFields shape fields) name = (fields.get? name).map schema.strip := by
  induction shape with
  | nil => cases h
  | cons part shape ih =>
    obtain ⟨other, optional', schema'⟩ := part
    simp only [List.map_cons, List.nodup_cons] at distinct
    rw [stripFields]
    rcases List.mem_cons.1 h with heq | hmem
    · obtain ⟨rfl, rfl, rfl⟩ : name = other ∧ optional = optional' ∧ schema = schema' := by
        simpa using heq
      cases hget : fields.get? name with
      | none => exact get?_stripFields_of_notMem distinct.1
      | some v => exact Fields.get?_cons_self ..
    · have hne : name ≠ other := by
        rintro rfl
        exact distinct.1 (List.mem_map_of_mem hmem)
      split
      · rw [Fields.get?_cons_of_ne _ _ hne, ih distinct.2 hmem]
      · exact ih distinct.2 hmem

mutual

/-- Whether no object of a schema names a field twice. -/
def distinctNames : Schema → Bool
  | anyOf forms => allDistinct forms
  | list item => item.distinctNames
  | record item => item.distinctNames
  | object shape => (shape.map (·.1)).Nodup && fieldsDistinct shape
  | nullable form => form.distinctNames
  | text | number | bool | metaQuery => true

/-- Whether no object of several schemas names a field twice. -/
def allDistinct : List Schema → Bool
  | [] => true
  | form :: forms => form.distinctNames && allDistinct forms

/-- Whether no object within the fields of an object names a field twice. -/
def fieldsDistinct : List (String × Bool × Schema) → Bool
  | [] => true
  | (_, _, schema) :: shape => schema.distinctNames && fieldsDistinct shape

end

mutual

/-- What is kept of an accepted value is accepted. -/
theorem accepts_strip : ∀ {s : Schema}, s.distinctNames = true → ∀ {v : Value},
    s.accepts v = true → s.accepts (s.strip v) = true
  | text, _, v, h | number, _, v, h | bool, _, v, h => by simpa using h
  | metaQuery, _, v, h => by
    obtain ⟨kept, hkept⟩ := accepts_metaQuery_iff.1 h
    rw [strip, hkept, Option.getD_some, accepts_metaQuery_iff]
    exact ⟨kept, metaQuery?_self hkept⟩
  | nullable form, distinct, v, h => by
    rw [accepts_nullable_iff] at h ⊢
    rcases h with rfl | h
    · exact .inl (by simp)
    · by_cases hv : v = .null
      · exact .inl (by simp [hv])
      · refine .inr ?_
        have heq : (nullable form).strip v = form.strip v := by
          cases v <;> simp at hv ⊢
        rw [heq]
        exact accepts_strip (s := form) (by simpa [distinctNames] using distinct) h
  | list item, distinct, v, h => by
    obtain ⟨items, rfl, hitems⟩ := accepts_list_iff.1 h
    rw [strip, accepts_list_iff]
    refine ⟨_, rfl, fun w hw => ?_⟩
    obtain ⟨w, hmem, rfl⟩ := List.mem_map.1 hw
    exact accepts_strip (s := item) (by simpa [distinctNames] using distinct) (hitems w hmem)
  | record item, distinct, v, h => by
    obtain ⟨fields, rfl, hfields⟩ := accepts_record_iff.1 h
    rw [strip, accepts_record_iff]
    refine ⟨_, rfl, fun field hfield => ?_⟩
    obtain ⟨other, hmem, rfl⟩ := List.mem_map.1 hfield
    exact accepts_strip (s := item) (by simpa [distinctNames] using distinct)
      (hfields other (List.mem_filter.1 hmem).1)
  | anyOf forms, distinct, v, h => by
    have hany : anyAccepts forms v = true := anyAccepts_iff.2 (accepts_anyOf_iff.1 h)
    obtain ⟨form, hmem, haccepts, hstrip⟩ := exists_form_of_stripAny hany
    rw [strip, accepts_anyOf_iff]
    refine ⟨form, hmem, ?_⟩
    rw [hstrip]
    exact accepts_strip_forms (by simpa [distinctNames] using distinct) form hmem haccepts
  | object shape, distinct, v, h => by
    obtain ⟨fields, rfl, hfields⟩ := accepts_object_iff.1 h
    simp only [distinctNames, Bool.and_eq_true, decide_eq_true_eq] at distinct
    rw [strip, accepts_object_iff]
    refine ⟨_, rfl, fun name optional schema hmem => ?_⟩
    obtain ⟨hsome, hnone⟩ := hfields name optional schema hmem
    rw [get?_stripFields distinct.1 hmem]
    constructor
    · intro w hw
      obtain ⟨v, hv, rfl⟩ := Option.map_eq_some_iff.1 hw
      exact accepts_strip_shape distinct.2 (name, optional, schema) hmem (hsome v hv)
    · intro hw
      exact hnone (Option.map_eq_none_iff.1 hw)

theorem accepts_strip_forms : ∀ {forms : List Schema}, allDistinct forms = true →
    ∀ form ∈ forms, ∀ {v : Value}, form.accepts v = true → form.accepts (form.strip v) = true
  | [], _ => by simp
  | first :: forms, distinct => by
    simp only [allDistinct, Bool.and_eq_true] at distinct
    exact List.forall_mem_cons.2
      ⟨fun h => accepts_strip distinct.1 h, accepts_strip_forms distinct.2⟩

theorem accepts_strip_shape : ∀ {shape : List (String × Bool × Schema)},
    fieldsDistinct shape = true → ∀ part ∈ shape, ∀ {v : Value},
    part.2.2.accepts v = true → part.2.2.accepts (part.2.2.strip v) = true
  | [], _ => by simp
  | (name, optional, schema) :: shape, distinct => by
    simp only [fieldsDistinct, Bool.and_eq_true] at distinct
    exact List.forall_mem_cons.2
      ⟨fun h => accepts_strip distinct.1 h, accepts_strip_shape distinct.2⟩

end

end Schema

end CommentSearch
