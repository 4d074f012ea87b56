import CommentSearch.Proofs.KeywordCase

/-!
# Keywords that validation keeps

Validation accepts keywords in any case, and does not change it: what it keeps of fields, of
metadata queries at any depth, and of their entries, is in the case of what it is given
(`stripFields_recased`, `metaQuery?_recased`).
-/

namespace CommentSearch

/-! ### Fields that are kept -/

namespace Fields

variable {keywords others : List String} {fields fields' : Fields}

/-- Fields in another case, followed by others in another case. -/
theorem Recased.append {rest rest' : Fields} (h : Recased keywords [] fields fields')
    (hrest : Recased keywords others rest rest') :
    Recased keywords others (fields ++ rest) (fields' ++ rest') := by
  constructor
  · intro name hname
    have hfirst := h.recased name hname
    rw [get?_append, get?_append]
    generalize fields.get? name = p at hfirst
    generalize fields'.get? name = p' at hfirst
    cases hfirst with
    | none => exact hrest.recased name hname
    | some hvalue => exact .some hvalue
  · intro name hname hother
    rw [get?_append, get?_append, h.same name hname List.not_mem_nil, hrest.same name hname hother]

/-- A field that is the same in both, or the text of a keyword in two cases. -/
theorem Recased.rel_get? (h : Recased keywords others fields fields') {name : String}
    (hname : name ∉ others) :
    Option.Rel (fun v w => Value.Recased v w ∧ (name ∉ keywords → v = w)) (fields.get? name)
      (fields'.get? name) := by
  by_cases hkeyword : name ∈ keywords
  · exact rel_imp (h.recased name hkeyword) fun v w hvalue => ⟨hvalue, (absurd hkeyword ·)⟩
  · rw [h.same name hkeyword hname]
    exact rel_same (fun v => ⟨.same v, fun _ => rfl⟩) _

end Fields

theorem Value.Recased.isText_eq {v w : Value} (h : Value.Recased v w) : isText v = isText w := by
  cases h <;> rfl

/-! ### Metadata queries -/

section Grammar

variable {keywords others : List String} {fields fields' : Fields}

/-- Fields are accepted in any case of their keywords if these may be any texts, and kept in their
case. -/
theorem acceptedFields_recased (h : Fields.Recased keywords others fields fields')
    {specs : List (String × (Value → Bool))} (hothers : ∀ name ∈ others, name ∉ specs.map (·.1))
    (htexts : ∀ spec ∈ specs, spec.1 ∈ keywords → spec.2 = isText) :
    Option.Rel (Fields.Recased keywords []) (acceptedFields fields specs)
      (acceptedFields fields' specs) := by
  induction specs with
  | nil => exact .some (.refl ..)
  | cons spec specs ih =>
    obtain ⟨name, accepts⟩ := spec
    obtain ⟨htext, htexts⟩ := List.forall_mem_cons.1 htexts
    have hname : name ∉ others := fun hother => hothers name hother List.mem_cons_self
    have hrest := ih (fun other hother => mt (List.mem_cons_of_mem _) (hothers other hother)) htexts
    have hvalues := h.rel_get? hname
    rw [acceptedFields, acceptedFields]
    generalize fields.get? name = p at hvalues
    generalize fields'.get? name = p' at hvalues
    cases hvalues with
    | none => exact hrest
    | @some v w hvalue =>
      obtain ⟨hrecased, hsame⟩ := hvalue
      have haccepts : accepts v = accepts w := by
        by_cases hkeyword : name ∈ keywords
        · obtain rfl := htext hkeyword
          exact hrecased.isText_eq
        · rw [hsame hkeyword]
      dsimp only
      rw [haccepts]
      split
      · generalize acceptedFields fields specs = kept at hrest
        generalize acceptedFields fields' specs = kept' at hrest
        cases hrest with
        | none => exact .none
        | some hkept => exact .some (hkept.cons (fun _ => hrecased) fun hne _ => hsame hne)
      · exact .none

variable (h : Fields.Recased ["relation", "compare", "type"] others fields fields')
  (hothers : ∀ name ∈ others, name = "clauses")

include h hothers

/-- What is kept of a clause is in the case of the clause. -/
theorem metaClause?_recased :
    Option.Rel MetaEntry.Recased (metaClause? fields) (metaClause? fields') := by
  have hkept : Option.Rel (Fields.Recased ["relation", "compare", "type"] [])
      (acceptedFields fields metaClauseSpecs) (acceptedFields fields' metaClauseSpecs) :=
    acceptedFields_recased h (fun name hname => hothers name hname ▸ by decide)
      (by simp [metaClauseSpecs])
  exact rel_map hkept fun kept kept' => .clause

/-- What is kept of a group is in the case of the group, if this holds of its entries. -/
theorem metaGroup?_recased_of_entries
    (hentries : Option.Rel (List.Forall₂ MetaEntry.Recased) (metaClauses? fields)
      (metaClauses? fields')) :
    Option.Rel MetaEntry.Recased (metaGroup? (.object fields)) (metaGroup? (.object fields')) := by
  have hrelation : Option.Rel (Fields.Recased ["relation", "compare", "type"] [])
      (acceptedFields fields [("relation", isText)])
      (acceptedFields fields' [("relation", isText)]) :=
    acceptedFields_recased h (fun name hname => hothers name hname ▸ by decide) (by simp)
  rw [metaGroup?, metaGroup?]
  generalize metaClauses? fields = entries at hentries
  generalize metaClauses? fields' = entries' at hentries
  generalize hkept : acceptedFields fields [("relation", isText)] = relation at hrelation
  generalize hkept' : acceptedFields fields' [("relation", isText)] = relation' at hrelation
  cases hentries with
  | none => exact .none
  | some each =>
    cases hrelation with
    | none => exact .none
    | some hrelation =>
      refine .some (.group (get?_clauses_group hkept _) (get?_clauses_group hkept' _) each
        (hrelation.append (.cons_other (.refl ..) ?_ ?_ _ _)))
      · decide
      · decide

end Grammar

/-- What is kept of a value as an entry of a metadata query: a group where it can be, or else a
clause. -/
def groupOrClause? (v : Value) : Option Value := (metaGroup? v).or (v.fields?.bind metaClause?)

theorem metaEntries?_cons (v : Value) (vs : List Value) :
    metaEntries? (v :: vs) = match groupOrClause? v, metaEntries? vs with
      | some entry, some entries => some (entry :: entries)
      | _, _ => none := by
  rw [metaEntries?, groupOrClause?]
  cases metaGroup? v <;> rfl

theorem groupOrClause?_recased {v w : Value} (h : MetaEntry.Recased v w)
    (hgroup : Option.Rel MetaEntry.Recased (metaGroup? v) (metaGroup? w)) :
    Option.Rel MetaEntry.Recased (groupOrClause? v) (groupOrClause? w) := by
  unfold groupOrClause?
  generalize metaGroup? v = group at hgroup
  generalize metaGroup? w = group' at hgroup
  cases hgroup with
  | some hkept => exact .some hkept
  | none =>
    cases h with
    | same => exact rel_same .same _
    | clause keywords => exact metaClause?_recased keywords (by simp)
    | group _ _ _ keywords => exact metaClause?_recased keywords (by simp)

/-- What is kept of entries is in their case, if this holds of those that are groups. -/
theorem metaEntries?_recased {items items' : List Value}
    (h : List.Forall₂ (fun v w => Option.Rel MetaEntry.Recased (metaGroup? v) (metaGroup? w) ∧
      MetaEntry.Recased v w) items items') :
    Option.Rel (List.Forall₂ MetaEntry.Recased) (metaEntries? items) (metaEntries? items') := by
  induction h with
  | nil =>
    rw [metaEntries?]
    exact .some .nil
  | @cons v w items items' hentry _ ih =>
    have hkept := groupOrClause?_recased hentry.2 hentry.1
    rw [metaEntries?_cons, metaEntries?_cons]
    generalize groupOrClause? v = entry at hkept
    generalize groupOrClause? w = entry' at hkept
    generalize metaEntries? items = entries at ih
    generalize metaEntries? items' = entries' at ih
    cases hkept with
    | none => exact .none
    | some hkept =>
      cases ih with
      | none => exact .none
      | some each => exact .some (.cons hkept each)

/-- What is kept of a group is in the case of the group, at any depth. -/
theorem metaGroup?_recased (v : Value) : ∀ w, MetaEntry.Recased v w →
    Option.Rel MetaEntry.Recased (metaGroup? v) (metaGroup? w) := by
  -- as for nodes, on the entry; a clause is a group here if what it has under `clauses` is kept
  induction v using entries_induction with
  | step v ih =>
    intro w h
    cases h with
    | same => exact rel_same .same _
    | @clause fields fields' keywords =>
      refine metaGroup?_recased_of_entries keywords (by simp) ?_
      rw [metaClauses?_eq, metaClauses?_eq, keywords.same "clauses" (by decide) (by decide)]
      exact rel_same (fun entries => List.forall₂_same.2 fun v _ => .same v) _
    | @group fields fields' items items' clauses clauses' each keywords =>
      refine metaGroup?_recased_of_entries keywords (by simp) ?_
      rw [metaClauses?_eq, metaClauses?_eq, clauses, clauses']
      have hall := (List.forall₂_and_left items items').2 ⟨ih fields items rfl clauses, each⟩
      exact metaEntries?_recased (hall.imp fun v w hpair => ⟨hpair.1 w hpair.2, hpair.2⟩)

/-- What is kept of a metadata query is in the case of the query. -/
theorem metaQuery?_recased {v w : Value} (h : MetaGroup.Recased v w) :
    Option.Rel MetaGroup.Recased (metaQuery? v) (metaQuery? w) := by
  cases h with
  | entry recased =>
    have hkept := rel_imp (metaGroup?_recased _ _ recased) fun entry entry' =>
      MetaGroup.Recased.entry
    cases recased with
    | same => exact rel_same (fun v => .entry (.same v)) _
    | clause => exact hkept
    | group => exact hkept
  | @list items items' each =>
    have hentries := metaEntries?_recased
      (each.imp fun v w hentry => ⟨metaGroup?_recased v w hentry, hentry⟩)
    exact rel_map hentries fun entries entries' => .list

/-! ### Acceptance -/

section Acceptance

variable {keywords others : List String} {fields fields' : Fields}
  {shape : List (String × Bool × Schema)}

/-- Fields are accepted in any case of their keywords, if these and all else that differs are. -/
theorem Schema.AcceptsFields.recased (h : Schema.AcceptsFields shape fields)
    (hfields : Fields.Recased keywords others fields fields')
    (hkeywords : ∀ part ∈ shape, part.1 ∈ keywords → ∀ v w, Value.Recased v w →
      part.2.2.accepts v = true → part.2.2.accepts w = true)
    (hothers : ∀ part ∈ shape, part.1 ∈ others →
      Option.Rel (fun v w => part.2.2.accepts v = true → part.2.2.accepts w = true)
        (fields.get? part.1) (fields'.get? part.1)) :
    Schema.AcceptsFields shape fields' := by
  intro name optional schema hmem
  have hrel : Option.Rel (fun v w => schema.accepts v = true → schema.accepts w = true)
      (fields.get? name) (fields'.get? name) := by
    by_cases hother : name ∈ others
    · exact hothers _ hmem hother
    · refine rel_imp (hfields.rel_get? hother) fun v w hvalue => ?_
      by_cases hkeyword : name ∈ keywords
      · exact hkeywords _ hmem hkeyword v w hvalue.1
      · exact fun haccepts => hvalue.2 hkeyword ▸ haccepts
  obtain ⟨hvalue, habsent⟩ := h name optional schema hmem
  generalize fields.get? name = p at hrel hvalue habsent
  generalize fields'.get? name = p' at hrel
  cases hrel with
  | none => exact ⟨nofun, habsent⟩
  | some haccepts =>
    refine ⟨fun w hw => ?_, nofun⟩
    obtain rfl := Option.some.inj hw
    exact haccepts (hvalue _ rfl)

/-- What is kept of fields is in their case. -/
theorem stripFields_recased (distinct : (shape.map (·.1)).Nodup)
    (h : Fields.Recased keywords others fields fields')
    (hflat : ∀ name ∈ keywords, name ∈ Schema.flatNames shape) :
    Fields.Recased keywords others (Schema.stripFields shape fields)
      (Schema.stripFields shape fields') := by
  constructor
  · intro name hname
    rw [Schema.agreeOn_flatNames distinct fields name (hflat name hname),
      Schema.agreeOn_flatNames distinct fields' name (hflat name hname)]
    exact h.recased name hname
  · intro name hname hother
    by_cases hmem : name ∈ shape.map (·.1)
    · obtain ⟨⟨name, optional, schema⟩, hpart, rfl⟩ := List.mem_map.1 hmem
      rw [Schema.get?_stripFields distinct hpart, Schema.get?_stripFields distinct hpart,
        h.same name hname hother]
    · rw [Schema.get?_stripFields_of_notMem hmem, Schema.get?_stripFields_of_notMem hmem]

end Acceptance

theorem Schema.accepts_nullable_imp {form : Schema} {v w : Value} (hnull : v = .null → w = .null)
    (hform : form.accepts v = true → form.accepts w = true) :
    (Schema.nullable form).accepts v = true → (Schema.nullable form).accepts w = true := by
  rw [Schema.accepts_nullable_iff, Schema.accepts_nullable_iff]
  exact Or.imp hnull hform

theorem Value.Recased.accepts_text {v w : Value} (h : Value.Recased v w)
    (hv : Schema.text.accepts v = true) : Schema.text.accepts w = true := by
  cases h with
  | same => exact hv
  | text => exact Schema.accepts_text_iff.2 ⟨_, rfl⟩

theorem DateFilter.Recased.eq_null {v w : Value} (h : DateFilter.Recased v w) (hv : v = .null) :
    w = .null := by
  subst hv
  cases h
  rfl

/-- A date query is accepted in any case of its relation. -/
theorem DateFilter.Recased.accepts {v w : Value} (h : DateFilter.Recased v w)
    (hv : Schema.dateQuery.accepts v = true) : Schema.dateQuery.accepts w = true := by
  cases h with
  | same => exact hv
  | @object fields fields' keywords =>
    obtain ⟨form, hform, haccepts⟩ := Schema.accepts_anyOf_iff.1 hv
    refine Schema.accepts_anyOf_iff.2 ⟨form, hform, ?_⟩
    simp only [List.mem_cons, List.not_mem_nil, or_false] at hform
    rcases hform with rfl | rfl
    · obtain ⟨_, heq, -⟩ := Schema.accepts_list_iff.1 haccepts
      cases heq
    · obtain ⟨_, heq, hfields⟩ := Schema.accepts_object_iff.1 haccepts
      obtain rfl := Value.object.inj heq
      refine Schema.accepts_object_iff.2 ⟨fields', rfl, hfields.recased keywords ?_ (by simp)⟩
      intro part hpart hkeyword v w hrecased
      simp only [List.mem_cons, List.not_mem_nil, or_false] at hpart hkeyword
      rcases hpart with rfl | rfl | rfl
      · exact hrecased.accepts_text
      · exact absurd hkeyword (by decide)
      · exact absurd hkeyword (by decide)

namespace MetaGroup

variable {v w : Value}

theorem Recased.eq_null (h : Recased v w) (hv : v = .null) : w = .null := by
  subst hv
  cases h with
  | entry recased =>
    cases recased
    rfl

/-- A metadata query is accepted in any case. -/
theorem Recased.accepts (h : Recased v w) (hv : Schema.metaQuery.accepts v = true) :
    Schema.metaQuery.accepts w = true := by
  obtain ⟨kept, hkept⟩ := Schema.accepts_metaQuery_iff.1 hv
  have hrel := metaQuery?_recased h
  rw [hkept] at hrel
  rw [Schema.accepts_metaQuery_iff]
  generalize metaQuery? w = p at hrel
  cases hrel with
  | some => exact ⟨_, rfl⟩

/-- What validation keeps of a metadata query is in the case of the query. -/
theorem Recased.strip (h : Recased v w) :
    Recased ((Schema.nullable .metaQuery).strip v) ((Schema.nullable .metaQuery).strip w) := by
  have hobjects (hv : v ≠ .null) (hw : w ≠ .null) :
      Recased ((Schema.nullable .metaQuery).strip v) ((Schema.nullable .metaQuery).strip w) := by
    have hrel := metaQuery?_recased h
    rw [Schema.strip_nullable hv, Schema.strip_nullable hw, Schema.strip, Schema.strip]
    generalize metaQuery? v = p at hrel
    generalize metaQuery? w = p' at hrel
    cases hrel with
    | none => exact h
    | some hkept => exact hkept
  cases h with
  | entry recased =>
    cases recased with
    | same => exact .entry (.same _)
    | clause => exact hobjects nofun nofun
    | group => exact hobjects nofun nofun
  | list => exact hobjects nofun nofun

end MetaGroup

end CommentSearch
