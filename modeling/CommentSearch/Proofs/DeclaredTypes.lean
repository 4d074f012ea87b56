import CommentSearch.Proofs.Schema

/-!
# Declared types

The type that a schema declares, as a set of values (`Schema.Describes`), apart from how validation
goes over them and what it reports. A schema accepts the values of its type and no others
(`accepts_iff_describes`).

The type of metadata queries is a grammar of its own, in which an entry can be a group and a clause
at once.
-/

namespace CommentSearch

/-- A text, a number or a truth value. The number that is none is no number here. -/
inductive Value.IsPlain : Value → Prop
  | text (s : String) : IsPlain (.text s)
  | number {x : Number} (isNumber : x.isNaN = false) : IsPlain (.number x)
  | bool (b : Bool) : IsPlain (.bool b)

/-! ### The grammar of metadata queries -/

namespace MetaGrammar

/-- The named fields of a clause are of their types. It may have any other fields. -/
structure Clause (fields : Fields) : Prop where
  key : ∀ v, fields.get? "key" = some v → ∃ s, v = .text s
  value : ∀ v, fields.get? "value" = some v →
    v = .null ∨ v.IsPlain ∨ ∃ items, v = .list items ∧ ∀ item ∈ items, item.IsPlain
  compare : ∀ v, fields.get? "compare" = some v → ∃ s, v = .text s
  type : ∀ v, fields.get? "type" = some v → ∃ s, v = .text s

/-- A group of entries, with a relation or without, or a clause. -/
inductive Entry : Value → Prop
  | group {fields : Fields} {items : List Value}
    (clauses : fields.get? "clauses" = some (.list items))
    (relation : ∀ v, fields.get? "relation" = some v → ∃ s, v = .text s)
    (entries : ∀ item ∈ items, Entry item) : Entry (.object fields)
  | clause {fields : Fields} (typed : Clause fields) : Entry (.object fields)

/-- A group of entries, with a relation or without. -/
inductive Group : Value → Prop
  | mk {fields : Fields} {items : List Value}
    (clauses : fields.get? "clauses" = some (.list items))
    (relation : ∀ v, fields.get? "relation" = some v → ∃ s, v = .text s)
    (entries : ∀ item ∈ items, Entry item) : Group (.object fields)

/-- A list of entries or a group of them. -/
inductive Query : Value → Prop
  | list {items : List Value} (entries : ∀ item ∈ items, Entry item) : Query (.list items)
  | group {v : Value} (group : Group v) : Query v

theorem Group.entry {v : Value} (h : Group v) : Entry v := by
  cases h with
  | mk clauses relation entries => exact .group clauses relation entries

theorem entry_iff {v : Value} :
    Entry v ↔ Group v ∨ ∃ fields, v = .object fields ∧ Clause fields := by
  constructor
  · intro h
    cases h with
    | group clauses relation entries => exact .inl ⟨clauses, relation, entries⟩
    | clause typed => exact .inr ⟨_, rfl, typed⟩
  · rintro (h | ⟨fields, rfl, typed⟩)
    · exact h.entry
    · exact .clause typed

/-! ### What is kept of what -/

theorem isText_iff {v : Value} : isText v = true ↔ ∃ s, v = .text s :=
  ⟨eq_text_of_isText, by rintro ⟨s, rfl⟩; rfl⟩

theorem isPlainScalar_iff {v : Value} : isPlainScalar v = true ↔ v.IsPlain := by
  constructor
  · intro h
    cases v with
    | text s => exact .text s
    | bool b => exact .bool b
    | number x =>
      cases hx : x.isNaN with
      | false => exact .number hx
      | true => simp [isPlainScalar, Value.kind, hx] at h
    | null | list | object => simp [isPlainScalar, Value.scalar?] at h
  · intro h
    cases h with
    | text s => rfl
    | bool b => rfl
    | number isNumber => simp [isPlainScalar, Value.scalar?, Value.kind, isNumber]

theorem isMetaValue_iff {v : Value} : isMetaValue v = true ↔
    v = .null ∨ v.IsPlain ∨ ∃ items, v = .list items ∧ ∀ item ∈ items, item.IsPlain := by
  cases v with
  | null => simp [isMetaValue]
  | list items =>
    have hplain : ¬(Value.list items).IsPlain := by
      intro h
      cases h
    simp [isMetaValue, isPlainScalar_iff, hplain]
  | bool | number | text | object => simp [isMetaValue, isPlainScalar_iff]

theorem isSome_acceptedFields_iff {fields : Fields} {specs : List (String × (Value → Bool))} :
    (acceptedFields fields specs).isSome = true ↔
      ∀ spec ∈ specs, ∀ v, fields.get? spec.1 = some v → spec.2 v = true := by
  induction specs with
  | nil => simp [acceptedFields]
  | cons spec specs ih =>
    obtain ⟨name, accepts⟩ := spec
    rw [acceptedFields, List.forall_mem_cons, ← ih]
    cases hget : fields.get? name with
    | none => simp
    | some v =>
      dsimp only
      split
      · simp [*]
      · simp [*]

theorem isSome_metaClause?_iff {fields : Fields} :
    (metaClause? fields).isSome = true ↔ Clause fields := by
  rw [metaClause?, Option.isSome_map, isSome_acceptedFields_iff]
  simp only [List.forall_mem_cons, List.not_mem_nil, false_implies, implies_true, and_true,
    isText_iff, isMetaValue_iff]
  exact ⟨fun ⟨key, value, compare, type⟩ => ⟨key, value, compare, type⟩,
    fun h => ⟨h.key, h.value, h.compare, h.type⟩⟩

theorem isSome_metaEntries?_iff {items : List Value}
    (groups : ∀ item ∈ items, (metaGroup? item).isSome = true ↔ Group item) :
    (metaEntries? items).isSome = true ↔ ∀ item ∈ items, Entry item := by
  induction items with
  | nil => simp [metaEntries?]
  | cons v vs ih =>
    obtain ⟨hgroup, hgroups⟩ := List.forall_mem_cons.1 groups
    rw [List.forall_mem_cons, entry_iff, ← hgroup, ← ih hgroups]
    simp only [Option.isSome_iff_exists, metaEntries?_cons_eq_some_iff, ← isSome_metaClause?_iff]
    constructor
    · rintro ⟨-, entry, entries, -, hentries, hentry | ⟨-, fields, hfields, hclause⟩⟩
      · exact ⟨.inl ⟨entry, hentry⟩, entries, hentries⟩
      · exact ⟨.inr ⟨fields, hfields, entry, hclause⟩, entries, hentries⟩
    · rintro ⟨hentry, entries, hentries⟩
      -- an entry that is a group and a clause at once is kept as a group
      cases hnone : metaGroup? v with
      | some entry => exact ⟨_, entry, entries, rfl, hentries, .inl rfl⟩
      | none =>
        rcases hentry with ⟨entry, hentry⟩ | ⟨fields, hfields, entry, hclause⟩
        · rw [hnone] at hentry
          cases hentry
        · exact ⟨_, entry, entries, rfl, hentries, .inr ⟨rfl, fields, hfields, hclause⟩⟩

theorem isSome_metaGroup?_iff (v : Value) : (metaGroup? v).isSome = true ↔ Group v := by
  -- on the nesting of groups: the entries of this one are settled
  induction v using entries_induction with
  | step v ih =>
    constructor
    · intro h
      obtain ⟨kept, hkept⟩ := Option.isSome_iff_exists.1 h
      obtain ⟨fields, relation, items, entries, rfl, hitems, hentries, hrelation, -⟩ :=
        metaGroup?_eq_some_iff.1 hkept
      have htyped := isSome_acceptedFields_iff.1 (Option.isSome_of_mem hrelation)
      refine .mk hitems (fun v hv => isText_iff.1 (htyped _ (List.mem_singleton_self _) v hv)) ?_
      exact (isSome_metaEntries?_iff (ih fields items rfl hitems)).1 (Option.isSome_of_mem hentries)
    · rintro ⟨clauses, relation, typed⟩
      rename_i fields items
      obtain ⟨entries, hentries⟩ := Option.isSome_iff_exists.1
        ((isSome_metaEntries?_iff (ih fields items rfl clauses)).2 typed)
      have hrelation : (acceptedFields fields [("relation", isText)]).isSome = true :=
        isSome_acceptedFields_iff.2
          (List.forall_mem_singleton.2 fun v hv => isText_iff.2 (relation v hv))
      obtain ⟨kept, hkept⟩ := Option.isSome_iff_exists.1 hrelation
      exact Option.isSome_of_mem (metaGroup?_eq_some_iff.2
        ⟨fields, kept, items, entries, rfl, clauses, hentries, hkept, rfl⟩)

/-- Something is kept of the metadata queries, and of no other value. -/
theorem isSome_metaQuery?_iff {v : Value} : (metaQuery? v).isSome = true ↔ Query v := by
  cases v with
  | list items =>
    rw [metaQuery?, Option.isSome_map,
      isSome_metaEntries?_iff fun item _ => isSome_metaGroup?_iff item]
    constructor
    · exact .list
    · intro h
      cases h with
      | list entries => exact entries
      | group group => cases group
  | null | bool | number | text | object =>
    rw [metaQuery?, isSome_metaGroup?_iff]
    · constructor
      · exact .group
      · intro h
        cases h with
        | group group => exact group
    · intro items h
      cases h

end MetaGrammar

/-! ### Declared types -/

namespace Schema

/-- A value is of the type that a schema declares. -/
inductive Describes : Schema → Value → Prop
  | text (s : String) : Describes text (.text s)
  | number {x : Number} (isNumber : x.isNaN = false) : Describes number (.number x)
  | bool (b : Bool) : Describes bool (.bool b)
  | anyOf {forms : List Schema} {form : Schema} {v : Value} (mem : form ∈ forms)
    (typed : Describes form v) : Describes (anyOf forms) v
  | list {item : Schema} {items : List Value} (typed : ∀ v ∈ items, Describes item v) :
    Describes (list item) (.list items)
  | record {item : Schema} {fields : Fields} (typed : ∀ field ∈ fields, Describes item field.2) :
    Describes (record item) (.object fields)
  | object {shape : List (String × Bool × Schema)} {fields : Fields}
    (typed : ∀ name optional schema, (name, optional, schema) ∈ shape →
      ∀ v, fields.get? name = some v → Describes schema v)
    (present : ∀ name schema, (name, false, schema) ∈ shape → fields.get? name ≠ none) :
    Describes (object shape) (.object fields)
  | null {form : Schema} : Describes (nullable form) .null
  | value {form : Schema} {v : Value} (typed : Describes form v) : Describes (nullable form) v
  | metaQuery {v : Value} (typed : MetaGrammar.Query v) : Describes metaQuery v

mutual

/-- A schema accepts the values of the type that it declares. -/
theorem accepts_iff_describes : ∀ {s : Schema} {v : Value}, s.accepts v = true ↔ s.Describes v
  | text, v => by
    rw [accepts_text_iff]
    exact ⟨by rintro ⟨s, rfl⟩; exact .text s, by rintro ⟨s⟩; exact ⟨s, rfl⟩⟩
  | number, v => by
    rw [accepts_number_iff]
    exact ⟨by rintro ⟨x, rfl, hx⟩; exact .number hx, by rintro (_ | hx); exact ⟨_, rfl, hx⟩⟩
  | bool, v => by
    rw [accepts_bool_iff]
    exact ⟨by rintro ⟨b, rfl⟩; exact .bool b, by rintro (_ | _ | b); exact ⟨b, rfl⟩⟩
  | anyOf forms, v => by
    have hforms : ∀ form ∈ forms, form.accepts v = true ↔ form.Describes v :=
      fun form hmem => accepts_iff_describes_forms form hmem
    rw [accepts_anyOf_iff]
    constructor
    · rintro ⟨form, hmem, haccepts⟩
      exact .anyOf hmem ((hforms form hmem).1 haccepts)
    · intro h
      cases h with
      | anyOf hmem typed => exact ⟨_, hmem, (hforms _ hmem).2 typed⟩
  | list item, v => by
    rw [accepts_list_iff]
    constructor
    · rintro ⟨items, rfl, hitems⟩
      exact .list fun w hw => accepts_iff_describes.1 (hitems w hw)
    · intro h
      cases h with
      | list typed => exact ⟨_, rfl, fun w hw => accepts_iff_describes.2 (typed w hw)⟩
  | record item, v => by
    rw [accepts_record_iff]
    constructor
    · rintro ⟨fields, rfl, hfields⟩
      exact .record fun field hfield => accepts_iff_describes.1 (hfields field hfield)
    · intro h
      cases h with
      | record typed =>
        exact ⟨_, rfl, fun field hfield => accepts_iff_describes.2 (typed field hfield)⟩
  | object shape, v => by
    have hshape : ∀ part ∈ shape, ∀ {w : Value},
        part.2.2.accepts w = true ↔ part.2.2.Describes w :=
      fun part hmem => accepts_iff_describes_shape part hmem
    rw [accepts_object_iff]
    constructor
    · rintro ⟨fields, rfl, hfields⟩
      refine .object (fun name optional schema hmem v hv => ?_) fun name schema hmem habsent => ?_
      · exact (hshape _ hmem).1 ((hfields name optional schema hmem).1 v hv)
      · exact Bool.false_ne_true ((hfields name false schema hmem).2 habsent)
    · intro h
      cases h with
      | object typed present =>
        refine ⟨_, rfl, fun name optional schema hmem => ⟨fun v hv => ?_, fun habsent => ?_⟩⟩
        · exact (hshape _ hmem).2 (typed name optional schema hmem v hv)
        · cases optional with
          | true => rfl
          | false => exact absurd habsent (present name schema hmem)
  | nullable form, v => by
    rw [accepts_nullable_iff]
    constructor
    · rintro (rfl | haccepts)
      · exact .null
      · exact .value (accepts_iff_describes.1 haccepts)
    · intro h
      cases h with
      | null => exact .inl rfl
      | value typed => exact .inr (accepts_iff_describes.2 typed)
  | metaQuery, v => by
    rw [accepts_metaQuery_iff, ← Option.isSome_iff_exists, MetaGrammar.isSome_metaQuery?_iff]
    constructor
    · exact .metaQuery
    · intro h
      cases h with
      | metaQuery typed => exact typed

theorem accepts_iff_describes_forms : ∀ {forms : List Schema}, ∀ form ∈ forms, ∀ {v : Value},
    form.accepts v = true ↔ form.Describes v
  | [] => by simp
  | _ :: _ => List.forall_mem_cons.2 ⟨accepts_iff_describes, accepts_iff_describes_forms⟩

theorem accepts_iff_describes_shape : ∀ {shape : List (String × Bool × Schema)},
    ∀ part ∈ shape, ∀ {v : Value}, part.2.2.accepts v = true ↔ part.2.2.Describes v
  | [] => by simp
  | (_, _, _) :: _ => List.forall_mem_cons.2 ⟨accepts_iff_describes, accepts_iff_describes_shape⟩

end

end Schema

end CommentSearch
