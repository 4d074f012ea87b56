import CommentSearch.Proofs.Stripping

/-!
# Stripping once more

What a schema has kept of a value it keeps as it is (`Schema.strip_strip`). Stripping a value by one
of several forms leaves its kind, so that no other form comes first for what is kept, if no two of
the forms accept values of one kind. `Schema.disjointForms` decides that.
-/

namespace CommentSearch.Schema

/-! ### Kinds of accepted values -/

mutual

/-- The kinds of the values that a schema may accept. -/
def kinds : Schema → List Kind
  | text => [.text]
  | number => [.number]
  | bool => [.bool]
  | anyOf forms => allKinds forms
  | list _ => [.list]
  | record _ | object _ => [.object]
  | nullable form => .null :: form.kinds
  | metaQuery => [.list, .object]

/-- The kinds of the values that several schemas may accept. -/
def allKinds : List Schema → List Kind
  | [] => []
  | form :: forms => form.kinds ++ allKinds forms

end

theorem kind_of_metaQuery? {v kept : Value} (h : metaQuery? v = some kept) :
    kept.kind = v.kind ∧ v.kind ∈ metaQuery.kinds := by
  unfold metaQuery? at h
  split at h
  · obtain ⟨entries, -, rfl⟩ := Option.map_eq_some_iff.1 h
    exact ⟨rfl, by simp [Value.kind, kinds]⟩
  · obtain ⟨fields, _, _, _, rfl, -, -, -, rfl⟩ := metaGroup?_eq_some_iff.1 h
    exact ⟨rfl, by simp [Value.kind, kinds]⟩

mutual

theorem kind_mem_kinds : ∀ {s : Schema} {v : Value}, s.accepts v = true → v.kind ∈ s.kinds
  | text, v, h => by
    obtain ⟨s, rfl⟩ := accepts_text_iff.1 h
    simp [Value.kind, kinds]
  | number, v, h => by
    obtain ⟨x, rfl, hx⟩ := accepts_number_iff.1 h
    simp [Value.kind, kinds, hx]
  | bool, v, h => by
    obtain ⟨b, rfl⟩ := accepts_bool_iff.1 h
    simp [Value.kind, kinds]
  | anyOf forms, v, h => by
    rw [kinds]
    exact kind_mem_allKinds (anyAccepts_iff.2 (accepts_anyOf_iff.1 h))
  | list item, v, h => by
    obtain ⟨items, rfl, -⟩ := accepts_list_iff.1 h
    simp [Value.kind, kinds]
  | record item, v, h => by
    obtain ⟨fields, rfl, -⟩ := accepts_record_iff.1 h
    simp [Value.kind, kinds]
  | object shape, v, h => by
    obtain ⟨fields, rfl, -⟩ := accepts_object_iff.1 h
    simp [Value.kind, kinds]
  | nullable form, v, h => by
    rw [kinds]
    rcases accepts_nullable_iff.1 h with rfl | hform
    · exact List.mem_cons_self
    · exact List.mem_cons_of_mem _ (kind_mem_kinds hform)
  | metaQuery, v, h => by
    obtain ⟨kept, hkept⟩ := accepts_metaQuery_iff.1 h
    exact (kind_of_metaQuery? hkept).2

theorem kind_mem_allKinds : ∀ {forms : List Schema} {v : Value},
    anyAccepts forms v = true → v.kind ∈ allKinds forms
  | [], v, h => by simp [anyAccepts] at h
  | form :: forms, v, h => by
    rw [anyAccepts, Bool.or_eq_true] at h
    rw [allKinds, List.mem_append]
    exact h.imp kind_mem_kinds kind_mem_allKinds

end

mutual

/-- What is kept of a value is of its kind. -/
theorem kind_strip : ∀ (s : Schema) (v : Value), (s.strip v).kind = v.kind
  | text, v | number, v | bool, v => by rw [strip]
  | anyOf forms, v => by
    rw [strip]
    exact kind_stripAny forms v
  | list item, v => by
    cases v <;> simp [strip, Value.kind]
  | record item, v => by
    cases v <;> simp [strip, Value.kind]
  | object shape, v => by
    cases v <;> simp [strip, Value.kind]
  | nullable form, v => by
    have hform := kind_strip form v
    cases v <;> simp [strip, hform]
  | metaQuery, v => by
    rw [strip]
    cases h : metaQuery? v with
    | none => rfl
    | some kept => exact (kind_of_metaQuery? h).1

theorem kind_stripAny : ∀ (forms : List Schema) (v : Value),
    (stripAny forms v).kind = v.kind
  | [], v => by rw [stripAny]
  | form :: forms, v => by
    rw [stripAny]
    split
    · exact kind_strip form v
    · exact kind_stripAny forms v

end

/-! ### What is kept of what was kept -/

mutual

/-- Whether the forms that a schema chooses from never accept values of one kind. -/
def disjointForms : Schema → Bool
  | anyOf forms => allDisjoint forms
  | list item => item.disjointForms
  | record item => item.disjointForms
  | object shape => fieldsDisjoint shape
  | nullable form => form.disjointForms
  | text | number | bool | metaQuery => true

/-- Whether several forms never accept values of one kind, nor do the forms within them. -/
def allDisjoint : List Schema → Bool
  | [] => true
  | form :: forms =>
    form.disjointForms && form.kinds.all (fun kind => kind ∉ allKinds forms) && allDisjoint forms

/-- Whether this holds of the forms within the fields of an object. -/
def fieldsDisjoint : List (String × Bool × Schema) → Bool
  | [] => true
  | (_, _, schema) :: shape => schema.disjointForms && fieldsDisjoint shape

end

/-- What is kept of fields depends on what is kept of each named one. -/
theorem stripFields_congr {shape : List (String × Bool × Schema)} {fields others : Fields}
    (h : ∀ part ∈ shape, (fields.get? part.1).map part.2.2.strip =
      (others.get? part.1).map part.2.2.strip) :
    stripFields shape fields = stripFields shape others := by
  induction shape with
  | nil => rw [stripFields, stripFields]
  | cons part shape ih =>
    obtain ⟨name, optional, schema⟩ := part
    obtain ⟨hpart, hshape⟩ := List.forall_mem_cons.1 h
    rw [stripFields, stripFields, ih hshape]
    dsimp only at hpart
    cases hget : fields.get? name <;> cases hother : others.get? name <;> simp_all

mutual

/-- What is kept of an accepted value is kept as it is. -/
theorem strip_strip : ∀ {s : Schema}, s.distinctNames = true → s.disjointForms = true →
    ∀ {v : Value}, s.accepts v = true → s.strip (s.strip v) = s.strip v
  | text, _, _, v, _ | number, _, _, v, _ | bool, _, _, v, _ => by simp only [strip]
  | anyOf forms, distinct, disjoint, v, h => by
    rw [strip, strip]
    exact stripAny_stripAny (by simpa [distinctNames] using distinct)
      (by simpa [disjointForms] using disjoint) (anyAccepts_iff.2 (accepts_anyOf_iff.1 h))
  | list item, distinct, disjoint, v, h => by
    obtain ⟨items, rfl, hitems⟩ := accepts_list_iff.1 h
    rw [strip_list, strip_list, List.map_map]
    refine congrArg Value.list (List.map_congr_left fun w hw => ?_)
    exact strip_strip (by simpa [distinctNames] using distinct)
      (by simpa [disjointForms] using disjoint) (hitems w hw)
  | record item, distinct, disjoint, v, h => by
    obtain ⟨fields, rfl, hfields⟩ := accepts_record_iff.1 h
    simp only [strip, List.filter_map, List.filter_filter, List.map_map, Function.comp_def,
      Bool.and_self]
    refine congrArg Value.object (List.map_congr_left fun field hfield => ?_)
    have hfield := hfields field (List.mem_filter.1 hfield).1
    rw [strip_strip (by simpa [distinctNames] using distinct)
      (by simpa [disjointForms] using disjoint) hfield]
  | object shape, distinct, disjoint, v, h => by
    obtain ⟨fields, rfl, hfields⟩ := accepts_object_iff.1 h
    simp only [distinctNames, Bool.and_eq_true, decide_eq_true_eq] at distinct
    rw [strip_object, strip_object]
    refine congrArg Value.object (stripFields_congr ?_)
    rintro ⟨name, optional, schema⟩ hmem
    rw [get?_stripFields distinct.1 hmem, Option.map_map]
    refine Option.map_congr fun v hv => ?_
    exact strip_strip_shape distinct.2 (by simpa [disjointForms] using disjoint) _ hmem
      ((hfields name optional schema hmem).1 v hv)
  | nullable form, distinct, disjoint, v, h => by
    by_cases hv : v = .null
    · rw [hv, strip, strip]
    · have hform : form.accepts v = true := (accepts_nullable_iff.1 h).resolve_left hv
      -- stripping leaves the kind, so it does not lead to null
      have hkept : form.strip v ≠ .null := by
        intro hnull
        have hkind := kind_strip form v
        rw [hnull] at hkind
        cases v with
        | null => exact hv rfl
        | number x => cases hx : x.isNaN <;> simp [Value.kind, hx] at hkind
        | bool | text | list | object => cases hkind
      rw [strip_nullable hv, strip_nullable hkept]
      exact strip_strip (by simpa [distinctNames] using distinct)
        (by simpa [disjointForms] using disjoint) hform
  | metaQuery, _, _, v, h => by
    obtain ⟨kept, hkept⟩ := accepts_metaQuery_iff.1 h
    simp only [strip, hkept, Option.getD_some, metaQuery?_self hkept]

theorem stripAny_stripAny : ∀ {forms : List Schema}, allDistinct forms = true →
    allDisjoint forms = true → ∀ {v : Value}, anyAccepts forms v = true →
      stripAny forms (stripAny forms v) = stripAny forms v
  | [], _, _, v, h => by simp [anyAccepts] at h
  | form :: forms, distinct, disjoint, v, h => by
    simp only [allDistinct, allDisjoint, Bool.and_eq_true] at distinct disjoint
    obtain ⟨hdistinct, hdistincts⟩ := distinct
    obtain ⟨⟨hdisjoint, hkinds⟩, hdisjoints⟩ := disjoint
    cases hform : form.accepts v with
    | true =>
      have hkept : form.accepts (form.strip v) = true := accepts_strip hdistinct hform
      have hfirst (w : Value) (hw : form.accepts w = true) :
          stripAny (form :: forms) w = form.strip w := by
        rw [stripAny]
        exact if_pos hw
      rw [hfirst v hform, hfirst _ hkept]
      exact strip_strip hdistinct hdisjoint hform
    | false =>
      have hrest : anyAccepts forms v = true := by
        rw [anyAccepts, Bool.or_eq_true] at h
        exact h.resolve_left fun hfirst => Bool.false_ne_true (hform.symm.trans hfirst)
      have hlater (w : Value) (hw : form.accepts w = false) :
          stripAny (form :: forms) w = stripAny forms w := by
        rw [stripAny]
        exact if_neg fun hfirst => Bool.false_ne_true (hw.symm.trans hfirst)
      -- what a later form keeps is of a kind that only the later forms accept
      have hkept : form.accepts (stripAny forms v) = false := by
        refine Bool.eq_false_iff.2 fun haccepts => ?_
        have hkind := kind_mem_kinds haccepts
        rw [kind_stripAny] at hkind
        have hnot := List.all_eq_true.1 hkinds _ hkind
        exact of_decide_eq_true hnot (kind_mem_allKinds hrest)
      rw [hlater v hform, hlater _ hkept]
      exact stripAny_stripAny hdistincts hdisjoints hrest

theorem strip_strip_shape : ∀ {shape : List (String × Bool × Schema)},
    fieldsDistinct shape = true → fieldsDisjoint shape = true → ∀ part ∈ shape, ∀ {v : Value},
    part.2.2.accepts v = true → part.2.2.strip (part.2.2.strip v) = part.2.2.strip v
  | [], _, _ => by simp
  | (name, optional, schema) :: shape, distinct, disjoint => by
    simp only [fieldsDistinct, fieldsDisjoint, Bool.and_eq_true] at distinct disjoint
    exact List.forall_mem_cons.2 ⟨fun h => strip_strip distinct.1 disjoint.1 h,
      strip_strip_shape distinct.2 disjoint.2⟩

end

end CommentSearch.Schema
