import CommentSearch.MetaQuery
import CommentSearch.Schema
import CommentSearch.Proofs.Fields

/-!
# The grammar of metadata queries

`IsMetaEntry` says which values are entries of metadata queries, and `IsMetaQuery` which values are
queries: a group has a list of entries under `clauses`, and every other object is a clause. The
fields of both are of the types that they are declared with.

What validation keeps of a query is a query (`isMetaQuery_of_metaQuery?`), and validation keeps all
of what it has kept once (`metaQuery?_self`).
-/

namespace CommentSearch

/-! ### Named fields -/

/-- Whether fields are accepted depends on the values under their names only. -/
theorem acceptedFields_congr {fields others : Fields} {specs : List (String × (Value → Bool))}
    (h : Fields.AgreeOn (specs.map (·.1)) fields others) :
    acceptedFields fields specs = acceptedFields others specs := by
  induction specs with
  | nil => rfl
  | cons spec specs ih =>
    obtain ⟨name, accepts⟩ := spec
    rw [acceptedFields, acceptedFields, h name (by simp),
      ih (h.mono fun name hname => by simp [hname])]

/-- The accepted fields are those under the names, with their values. -/
theorem get?_acceptedFields {fields kept : Fields} {specs : List (String × (Value → Bool))}
    (h : acceptedFields fields specs = some kept) (key : String) :
    Fields.get? kept key = if key ∈ specs.map (·.1) then fields.get? key else none := by
  induction specs generalizing kept with
  | nil =>
    obtain rfl : [] = kept := by simpa [acceptedFields] using h
    simp
  | cons spec specs ih =>
    obtain ⟨name, accepts⟩ := spec
    rw [acceptedFields] at h
    cases hget : fields.get? name with
    | none =>
      rw [hget] at h
      rw [ih h, List.map_cons]
      by_cases hname : key = name
      · simp [hname, hget]
      · simp only [List.mem_cons, hname, false_or]
    | some v =>
      rw [hget] at h
      dsimp only at h
      split at h
      · obtain ⟨rest, hrest, rfl⟩ := Option.map_eq_some_iff.1 h
        rw [Fields.get?_cons, ih hrest, List.map_cons]
        by_cases hname : key = name
        · simp [hname, hget]
        · simp only [List.mem_cons, hname, false_or, if_false]
      · cases h

/-- Each accepted field is of the kind that its name asks for. -/
theorem accepted_of_acceptedFields {fields kept : Fields}
    {specs : List (String × (Value → Bool))} (h : acceptedFields fields specs = some kept)
    {name : String} {accepts : Value → Bool} (hspec : (name, accepts) ∈ specs) {v : Value}
    (hv : fields.get? name = some v) : accepts v = true := by
  induction specs generalizing kept with
  | nil => cases hspec
  | cons spec specs ih =>
    obtain ⟨other, acceptsOther⟩ := spec
    rw [acceptedFields] at h
    cases hget : fields.get? other with
    | none =>
      rw [hget] at h
      rcases List.mem_cons.1 hspec with heq | hmem
      · obtain ⟨rfl, rfl⟩ := Prod.mk.inj heq
        rw [hget] at hv
        cases hv
      · exact ih h hmem
    | some w =>
      rw [hget] at h
      dsimp only at h
      split at h
      · rename_i haccepts
        obtain ⟨rest, hrest, -⟩ := Option.map_eq_some_iff.1 h
        rcases List.mem_cons.1 hspec with heq | hmem
        · obtain ⟨rfl, rfl⟩ := Prod.mk.inj heq
          obtain rfl : w = v := Option.some.inj (hget.symm.trans hv)
          exact haccepts
        · exact ih hrest hmem
      · cases h

/-- Accepted fields are accepted again, and kept as they are. -/
theorem acceptedFields_self {fields kept : Fields} {specs : List (String × (Value → Bool))}
    (h : acceptedFields fields specs = some kept) : acceptedFields kept specs = some kept := by
  rw [← h]
  refine acceptedFields_congr fun name hname => ?_
  rw [get?_acceptedFields h, if_pos hname]

/-! ### Induction on entries -/

/-- The entries of a group are smaller than the group. -/
theorem sizeOf_entry_lt {fields : Fields} {items : List Value} {item : Value}
    (h : fields.get? "clauses" = some (.list items)) (hitem : item ∈ items) :
    sizeOf item < sizeOf (Value.object fields) := by
  have h1 := List.sizeOf_lt_of_mem hitem
  have h2 := List.sizeOf_lt_of_mem (Fields.mem_of_get? h)
  simp only [Prod.mk.sizeOf_spec, Value.list.sizeOf_spec, Value.object.sizeOf_spec] at h2 ⊢
  omega

/-- What holds of a value as soon as it holds of the entries of the group that the value may be,
holds of every value. -/
theorem entries_induction {P : Value → Prop}
    (step : ∀ v, (∀ (fields : Fields) (items : List Value), v = .object fields →
      fields.get? "clauses" = some (.list items) → ∀ item ∈ items, P item) → P v)
    (v : Value) : P v :=
  step v fun fields items hv h item hitem => by
    have := hv ▸ sizeOf_entry_lt h hitem
    exact entries_induction step item
termination_by sizeOf v

/-! ### Typed entries -/

/-- A clause whose fields are of their types. -/
structure IsMetaClause (fields : Fields) : Prop where
  key : ∀ v, fields.get? "key" = some v → ∃ s, v = .text s
  value : ∀ v, fields.get? "value" = some v →
    v = .null ∨ v.scalar?.isSome ∨ ∃ items, v = .list items ∧ ∀ item ∈ items, item.scalar?.isSome
  compare : ∀ v, fields.get? "compare" = some v → ∃ s, v = .text s
  type : ∀ v, fields.get? "type" = some v → ∃ s, v = .text s

/-- An entry of a metadata query whose fields, at any depth, are of their types: a group where it
has a list of entries, or else a clause. -/
inductive IsMetaEntry : Value → Prop where
  | clause {fields : Fields} (single : ∀ items, fields.get? "clauses" ≠ some (.list items))
      (typed : IsMetaClause fields) : IsMetaEntry (.object fields)
  | group {fields : Fields} {items : List Value}
      (entries : fields.get? "clauses" = some (.list items))
      (relation : ∀ v, fields.get? "relation" = some v → ∃ s, v = .text s)
      (typed : ∀ item ∈ items, IsMetaEntry item) : IsMetaEntry (.object fields)

/-- A group whose fields, at any depth, are of their types. -/
def IsMetaGroup (v : Value) : Prop :=
  IsMetaEntry v ∧ ∃ (fields : Fields) (items : List Value),
    v = .object fields ∧ fields.get? "clauses" = some (.list items)

/-- A metadata query whose fields, at any depth, are of their types: a list of entries or a
group. -/
def IsMetaQuery : Value → Prop
  | .list items => ∀ item ∈ items, IsMetaEntry item
  | v => IsMetaGroup v

theorem eq_text_of_isText {v : Value} (h : isText v = true) : ∃ s, v = .text s := by
  cases v <;> simp_all [isText, Value.text?]

theorem isSome_scalar?_of_isPlainScalar {v : Value} (h : isPlainScalar v = true) :
    v.scalar?.isSome := by
  simp only [isPlainScalar, Bool.and_eq_true] at h
  exact h.1

theorem typed_of_isMetaValue {v : Value} (h : isMetaValue v = true) :
    v = .null ∨ v.scalar?.isSome ∨
      ∃ items, v = .list items ∧ ∀ item ∈ items, item.scalar?.isSome := by
  cases v with
  | null => exact .inl rfl
  | list items =>
    simp only [isMetaValue, List.all_eq_true] at h
    exact .inr (.inr ⟨items, rfl, fun item hitem => isSome_scalar?_of_isPlainScalar (h item hitem)⟩)
  | bool b => exact .inr (.inl rfl)
  | number x => exact .inr (.inl rfl)
  | text s => exact .inr (.inl rfl)
  | object fields => simp [isMetaValue, isPlainScalar, Value.scalar?] at h

/-! ### The two forms of a query -/

/-- The relation and the entries of a metadata query in either of its forms; of any other value, no
entries. -/
def MetaGroup.ofQuery : Param → MetaGroup
  | some (.list items) => ⟨none, items⟩
  | some (.object fields) => ⟨Fields.get? fields "relation", match Fields.get? fields "clauses" with
    | some (.list items) => items
    | _ => []⟩
  | _ => ⟨none, []⟩

/-- A query that is not null is read in its own form. -/
theorem MetaGroup.ofGroupForm_groupForm {v : Value} (h : v ≠ .null) :
    ofGroupForm (groupForm (some v)) = .ok (ofQuery (some v)) := by
  cases v with
  | null => exact absurd rfl h
  | bool | number | text | list | object => rfl

/-! ### What validation keeps -/

/-- The entries under `clauses` are those of the list that is read there. -/
theorem metaClauses?_eq (fields : Fields) :
    metaClauses? fields = match fields.get? "clauses" with
      | some (.list items) => metaEntries? items
      | _ => none := by
  induction fields with
  | nil => simp [metaClauses?]
  | cons field fields ih =>
    obtain ⟨name, v⟩ := field
    by_cases hname : name = "clauses"
    · subst hname
      cases v <;> simp [metaClauses?]
    · rw [metaClauses?.eq_def, Fields.get?_cons_of_ne v fields (Ne.symm hname)]
      simp only [hname, if_false, ih]

/-- The names of the fields of a clause, with what each accepts. -/
def metaClauseSpecs : List (String × (Value → Bool)) :=
  [("key", isText), ("value", isMetaValue), ("compare", isText), ("type", isText)]

theorem metaClause?_eq_some_iff {fields : Fields} {v : Value} :
    metaClause? fields = some v ↔
      ∃ kept, acceptedFields fields metaClauseSpecs = some kept ∧ v = .object kept := by
  unfold metaClause? metaClauseSpecs
  rw [Option.map_eq_some_iff]
  constructor <;> rintro ⟨kept, h, rfl⟩ <;> exact ⟨kept, h, rfl⟩

/-- What is kept of a group: its relation and its entries. -/
theorem metaGroup?_eq_some_iff {v kept : Value} :
    metaGroup? v = some kept ↔ ∃ (fields relation : Fields) (items entries : List Value),
      v = .object fields ∧
      fields.get? "clauses" = some (.list items) ∧ metaEntries? items = some entries ∧
      acceptedFields fields [("relation", isText)] = some relation ∧
      kept = .object (relation ++ [("clauses", .list entries)]) := by
  constructor
  · intro h
    cases v with
    | object fields =>
      rw [metaGroup?, metaClauses?_eq] at h
      split at h
      · rename_i entries relation hentries hrelation
        split at hentries
        · rename_i items hitems
          exact ⟨fields, relation, items, entries, rfl, hitems, hentries, hrelation,
            (Option.some.inj h).symm⟩
        · cases hentries
      · cases h
    | null | bool | number | text | list => simp [metaGroup?] at h
  · rintro ⟨fields, relation, items, entries, rfl, hitems, hentries, hrelation, rfl⟩
    rw [metaGroup?, metaClauses?_eq, hitems, hrelation]
    simp only [hentries]

/-- What is kept of an entry that is first in a list: a group where it can be, or else a clause. -/
theorem metaEntries?_cons_eq_some_iff {v : Value} {vs kept : List Value} :
    metaEntries? (v :: vs) = some kept ↔ ∃ entry entries, kept = entry :: entries ∧
      metaEntries? vs = some entries ∧
      (metaGroup? v = some entry ∨
        metaGroup? v = none ∧ ∃ fields, v = .object fields ∧ metaClause? fields = some entry) := by
  rw [metaEntries?]
  constructor
  · intro h
    split at h
    · rename_i entry entries hentry hentries
      refine ⟨entry, entries, (Option.some.inj h).symm, hentries, ?_⟩
      split at hentry
      · rename_i group hgroup
        exact .inl (hgroup.trans hentry)
      · rename_i hgroup
        obtain ⟨fields, hfields, hclause⟩ := Option.bind_eq_some_iff.1 hentry
        cases v <;> simp only [Value.fields?, reduceCtorEq, Option.some.injEq] at hfields
        exact .inr ⟨hgroup, fields, hfields ▸ rfl, hclause⟩
    · cases h
  · rintro ⟨entry, entries, rfl, hentries, hgroup | ⟨hgroup, fields, rfl, hclause⟩⟩
    · simp [hgroup, hentries]
    · simp [hgroup, hentries, Value.fields?, hclause]

theorem isMetaClause_of_acceptedFields {fields kept : Fields}
    (h : acceptedFields fields metaClauseSpecs = some kept) : IsMetaClause kept := by
  have accepted {name : String} {accepts : Value → Bool} (hspec : (name, accepts) ∈ metaClauseSpecs)
      {v : Value} (hv : kept.get? name = some v) : accepts v = true :=
    accepted_of_acceptedFields (acceptedFields_self h) hspec hv
  exact {
    key := fun v hv => eq_text_of_isText (accepted (by simp [metaClauseSpecs]) hv)
    value := fun v hv => typed_of_isMetaValue (accepted (by simp [metaClauseSpecs]) hv)
    compare := fun v hv => eq_text_of_isText (accepted (by simp [metaClauseSpecs]) hv)
    type := fun v hv => eq_text_of_isText (accepted (by simp [metaClauseSpecs]) hv) }

/-- A kept clause has no entries of its own, so that it is no group. -/
theorem get?_clauses_of_acceptedFields {fields kept : Fields}
    (h : acceptedFields fields metaClauseSpecs = some kept) : kept.get? "clauses" = none := by
  rw [get?_acceptedFields h, if_neg (by simp [metaClauseSpecs])]

theorem get?_clauses_group {fields relation : Fields}
    (h : acceptedFields fields [("relation", isText)] = some relation) (entries : List Value) :
    Fields.get? (relation ++ [("clauses", .list entries)]) "clauses" = some (.list entries) := by
  rw [Fields.get?_append, get?_acceptedFields h, if_neg (by simp), Option.none_or,
    Fields.get?_cons_self]

theorem get?_relation_group (relation : Fields) (entries : List Value) :
    Fields.get? (relation ++ [("clauses", .list entries)]) "relation" =
      Fields.get? relation "relation" := by
  rw [Fields.get?_append, Fields.get?_cons_of_ne _ _ (by simp), Fields.get?_nil, Option.or_none]

theorem relation_group_typed {fields relation : Fields}
    (h : acceptedFields fields [("relation", isText)] = some relation) (entries : List Value) :
    ∀ v, Fields.get? (relation ++ [("clauses", .list entries)]) "relation" = some v →
      ∃ s, v = .text s := by
  intro v hv
  rw [get?_relation_group] at hv
  exact eq_text_of_isText
    (accepted_of_acceptedFields (acceptedFields_self h) (List.mem_singleton_self _) hv)

theorem isMetaEntry_of_metaEntries? {vs kept : List Value}
    (groups : ∀ v ∈ vs, ∀ group, metaGroup? v = some group → IsMetaGroup group)
    (h : metaEntries? vs = some kept) : ∀ entry ∈ kept, IsMetaEntry entry := by
  induction vs generalizing kept with
  | nil =>
    obtain rfl : [] = kept := by simpa [metaEntries?] using h
    simp
  | cons v vs ih =>
    obtain ⟨entry, entries, rfl, hentries, hentry⟩ := metaEntries?_cons_eq_some_iff.1 h
    have htail := ih (fun w hw => groups w (List.mem_cons_of_mem _ hw)) hentries
    refine List.forall_mem_cons.2 ⟨?_, htail⟩
    rcases hentry with hgroup | ⟨-, fields, -, hclause⟩
    · exact (groups v List.mem_cons_self entry hgroup).1
    · obtain ⟨kept, hkept, rfl⟩ := metaClause?_eq_some_iff.1 hclause
      refine .clause (fun items => ?_) (isMetaClause_of_acceptedFields hkept)
      rw [get?_clauses_of_acceptedFields hkept]
      exact nofun

theorem isMetaGroup_of_metaGroup? (v : Value) :
    ∀ kept, metaGroup? v = some kept → IsMetaGroup kept := by
  induction v using entries_induction with
  | step v ih =>
    intro kept h
    obtain ⟨fields, relation, items, entries, rfl, hitems, hentries, hrelation, rfl⟩ :=
      metaGroup?_eq_some_iff.1 h
    have hclauses := get?_clauses_group hrelation entries
    -- the induction is on the group as it was given, not on what is kept of it
    have htyped := isMetaEntry_of_metaEntries? (ih fields items rfl hitems) hentries
    exact ⟨.group hclauses (relation_group_typed hrelation entries) htyped, _, entries, rfl,
      hclauses⟩

theorem isMetaQuery_of_metaQuery? {v kept : Value} (h : metaQuery? v = some kept) :
    IsMetaQuery kept := by
  unfold metaQuery? at h
  split at h
  · obtain ⟨entries, hentries, rfl⟩ := Option.map_eq_some_iff.1 h
    exact isMetaEntry_of_metaEntries? (fun v _ => isMetaGroup_of_metaGroup? v) hentries
  · have hgroup := isMetaGroup_of_metaGroup? _ kept h
    obtain ⟨-, fields, items, rfl, -⟩ := id hgroup
    exact hgroup

/-! ### Keeping what was kept -/

/-- What is kept of a clause is a clause of which all is kept. -/
theorem metaClause?_self {fields : Fields} {kept : Value} (h : metaClause? fields = some kept) :
    ∃ fields, kept = .object fields ∧ metaGroup? kept = none ∧ metaClause? fields = some kept := by
  obtain ⟨clause, hclause, rfl⟩ := metaClause?_eq_some_iff.1 h
  refine ⟨clause, rfl, ?_, metaClause?_eq_some_iff.2 ⟨clause, acceptedFields_self hclause, rfl⟩⟩
  rw [metaGroup?, metaClauses?_eq, get?_clauses_of_acceptedFields hclause]

theorem metaEntries?_self {vs kept : List Value}
    (groups : ∀ v ∈ vs, ∀ group, metaGroup? v = some group → metaGroup? group = some group)
    (h : metaEntries? vs = some kept) : metaEntries? kept = some kept := by
  induction vs generalizing kept with
  | nil =>
    obtain rfl : [] = kept := by simpa [metaEntries?] using h
    rfl
  | cons v vs ih =>
    obtain ⟨entry, entries, rfl, hentries, hentry⟩ := metaEntries?_cons_eq_some_iff.1 h
    have htail := ih (fun w hw => groups w (List.mem_cons_of_mem _ hw)) hentries
    refine metaEntries?_cons_eq_some_iff.2 ⟨entry, entries, rfl, htail, ?_⟩
    rcases hentry with hgroup | ⟨-, fields, -, hclause⟩
    · exact .inl (groups v List.mem_cons_self entry hgroup)
    · obtain ⟨clause, hclause', hnone, hself⟩ := metaClause?_self hclause
      exact .inr ⟨hnone, clause, hclause', hself⟩

theorem metaGroup?_self (v : Value) :
    ∀ kept, metaGroup? v = some kept → metaGroup? kept = some kept := by
  induction v using entries_induction with
  | step v ih =>
    intro kept h
    obtain ⟨fields, relation, items, entries, rfl, hitems, hentries, hrelation, rfl⟩ :=
      metaGroup?_eq_some_iff.1 h
    refine metaGroup?_eq_some_iff.2 ⟨_, relation, entries, entries, rfl,
      get?_clauses_group hrelation entries,
      metaEntries?_self (ih fields items rfl hitems) hentries, ?_, rfl⟩
    rw [← acceptedFields_self hrelation]
    refine acceptedFields_congr fun name hname => ?_
    -- the entries, put after the relation, do not hide it
    obtain rfl : name = "relation" := by simpa using hname
    exact get?_relation_group relation entries

theorem metaQuery?_self {v kept : Value} (h : metaQuery? v = some kept) :
    metaQuery? kept = some kept := by
  unfold metaQuery? at h
  split at h
  · obtain ⟨entries, hentries, rfl⟩ := Option.map_eq_some_iff.1 h
    rw [metaQuery?, metaEntries?_self (fun v _ => metaGroup?_self v) hentries, Option.map_some]
  · obtain ⟨-, fields, items, rfl, -⟩ := isMetaGroup_of_metaGroup? _ kept h
    exact metaGroup?_self _ _ h

end CommentSearch
