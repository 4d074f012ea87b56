import CommentSearch.Proofs.Decomposition
import CommentSearch.Proofs.DocumentGrammar
import CommentSearch.Proofs.Session

/-!
# Accepted requests compile to well-formed documents

The compiling tool answers every accepted request, in any session and whatever the settings
(`exists_compile`), and its answer is a well-formed document (`IsDocument`).

No filter fails, since the standard collaborators take every query that validation lets through; and
each filter gives a node (`isNode_of_gives`).
-/

namespace CommentSearch

/-! ### Nodes of filters -/

theorem isNode_of_comparesField {q : Query} {field : String} (h : q.ComparesField field) :
    IsNode q.toValue := by
  rcases h with ⟨x, rfl⟩ | ⟨xs, rfl⟩
  · exact .term field x
  · exact .terms field xs

theorem isNode_place (placement : Placement) {q : Query} (h : IsNode q.toValue) :
    IsNode (placement.place q).toValue := by
  cases placement with
  | root => exact h
  | must => exact .mustOne h
  | mustNot => exact .mustNot h

theorem isNode_of_statusNode {r : Request} {q : Query} (h : statusNode r = some q) :
    IsNode q.toValue := by
  rcases comparesField_or_should_of_statusNode h with h | ⟨node, ids, emails, hnode, rfl⟩
  · exact isNode_of_comparesField h
  · refine isNode_should (List.cons_ne_nil _ _) fun q hq => ?_
    simp only [List.mem_cons, List.not_mem_nil, or_false] at hq
    rcases hq with rfl | rfl | rfl
    · exact isNode_of_comparesField hnode
    · exact .terms _ _
    · exact .terms _ _

/-! ### Metadata queries of requests -/

/-- The value of an accepted `meta_value` can be that of a clause. -/
theorem typed_of_accepts_scalars {v : Value} (h : Schema.scalars.accepts v = true) :
    v = .null ∨ v.scalar?.isSome ∨
      ∃ items, v = .list items ∧ ∀ item ∈ items, item.scalar?.isSome := by
  have hscalar {w : Value} (hw : Schema.scalar.accepts w = true) : w.scalar?.isSome := by
    obtain ⟨x, rfl⟩ := exists_scalar_of_accepts hw
    cases x <;> rfl
  obtain ⟨form, hform, haccepts⟩ := Schema.accepts_anyOf_iff.1 h
  simp only [List.mem_cons, List.not_mem_nil, or_false] at hform
  rcases hform with rfl | rfl
  · exact .inr (.inl (hscalar haccepts))
  · obtain ⟨items, rfl, hitems⟩ := Schema.accepts_list_iff.1 haccepts
    exact .inr (.inr ⟨items, rfl, fun item hitem => hscalar (hitems item hitem)⟩)

/-- A key, with a value or without one, is an entry. -/
theorem isMetaEntry_of_key (key : String) {value : Fields}
    (hvalue : ∀ field ∈ value, field.1 = "value" ∧ (field.2 = .null ∨ field.2.scalar?.isSome ∨
      ∃ items, field.2 = .list items ∧ ∀ item ∈ items, item.scalar?.isSome)) :
    IsMetaEntry (.object (("key", .text key) :: value)) := by
  have habsent {name : String} (hname : name ≠ "key" ∧ name ≠ "value") :
      Fields.get? (("key", .text key) :: value) name = none := by
    rw [Fields.get?_cons_of_ne _ _ hname.1, Fields.get?_eq_none_iff]
    intro field hfield heq
    exact hname.2 (heq.symm.trans (hvalue field hfield).1)
  refine .clause (fun items => by simp [habsent]) ⟨?_, ?_, ?_, ?_⟩
  · intro w hw
    rw [Fields.get?_cons_self] at hw
    exact ⟨key, (Option.some.inj hw).symm⟩
  · intro w hw
    rw [Fields.get?_cons_of_ne _ _ (by simp)] at hw
    exact (hvalue _ (Fields.mem_of_get? hw)).2
  · simp [habsent]
  · simp [habsent]

namespace Request

variable {r : Request}

theorem Accepted.isMetaEntry_metaShorthand (h : r.Accepted) :
    ∀ v ∈ r.metaShorthand, IsMetaEntry v := by
  unfold metaShorthand
  split
  · rename_i key _
    split
    · simp
    · rw [List.forall_mem_singleton]
      refine isMetaEntry_of_key key ?_
      split
      · simp
      · simp
      · rename_i v hnull hvalue
        have hparam : requestShape.lookup "meta_value" = some (true, .nullable .scalars) := rfl
        rw [List.forall_mem_singleton]
        refine ⟨rfl, ?_⟩
        rcases h.param hparam hvalue with rfl | haccepts
        · exact .inl rfl
        · exact typed_of_accepts_scalars haccepts
  · simp

/-- The entries of the metadata query that an accepted request asks for are typed, and so is their
relation. -/
theorem typed_metaGroup (hquery : ∀ v, r.get? "meta_query" = some v → v = .null ∨ IsMetaQuery v) :
    (∀ v, r.metaGroup.relation = some v → ∃ s, v = .text s) ∧
      ∀ v ∈ r.metaGroup.clauses, IsMetaEntry v := by
  unfold metaGroup
  split
  · exact ⟨nofun, by simp⟩
  · rename_i hempty
    cases hget : r.get? "meta_query" with
    | none =>
      rw [hget] at hempty
      exact absurd rfl hempty
    | some v =>
      rcases hquery v hget with rfl | htyped
      · rw [hget] at hempty
        exact absurd rfl hempty
      · exact typed_ofQuery htyped

/-- The metadata query that is put together from the parameters of a request is typed. -/
theorem Accepted.isTyped_collected (h : r.Accepted)
    (hquery : ∀ v, r.get? "meta_query" = some v → v = .null ∨ IsMetaQuery v) {g : MetaGroup}
    (hg : collectMetaQuery r = .ok (some g)) : g.entry.IsTyped := by
  have hkey : Param.IsTextual (r.get? "meta_key") := h.isTextual rfl
  obtain ⟨hrelation, hclauses⟩ := typed_metaGroup hquery
  rw [collectMetaQuery_eq hkey] at hg
  obtain ⟨-, hg⟩ := Option.ite_none_left_eq_some.1 (Except.ok.inj hg)
  obtain rfl := Option.some.inj hg
  refine MetaGroup.isTyped_entry hrelation fun v hv => ?_
  rcases List.mem_append.1 hv with hv | hv
  · exact h.isMetaEntry_metaShorthand v hv
  · exact hclauses v hv

/-! ### The answer of the tool -/

/-- What a filter of an accepted request gives is a node. -/
theorem Accepted.isNode_of_gives (h : r.Accepted) {zone : TimeZone}
    (hquery : ∀ v, r.get? "meta_query" = some v → v = .null ∨ IsMetaQuery v) {q : Query}
    (hq : r.Gives zone q) : IsNode q.toValue := by
  cases hq with
  | dimension _ hfield => exact isNode_place _ (isNode_of_comparesField hfield)
  | status hstatus => exact isNode_of_statusNode hstatus
  | date hget hempty hfilter hall =>
    exact isNode_of_dateFilter (Param.ne_null_of_not_isEmpty hempty) hfilter hall
  | metadata hcollected hcompiled =>
    rw [MetaGroup.compile_eq] at hcompiled
    exact isNode_of_prunes (h.isTyped_collected hquery hcollected)
      ((MetaEntry.prunes_of_node hcompiled).2 q rfl).2

/-- An accepted request compiles, whatever the settings and the time zone. -/
theorem Accepted.exists_compile (h : r.Accepted)
    (hquery : ∀ v, r.get? "meta_query" = some v → v = .null ∨ IsMetaQuery v) (settings : Fields)
    (zone : TimeZone) : ∃ c, r.compile (.ofSettings settings zone) = .ok c := by
  cases hcompile : r.compile (.ofSettings settings zone) with
  | ok c => exact ⟨c, rfl⟩
  | error e =>
    -- the only faults left are those of the collaborators, and these take every accepted query
    rcases h.fault_of_compile hcompile with ⟨g, hg, he⟩ | ⟨query, hget, hempty, he⟩ | he
    · obtain ⟨result, hresult⟩ :=
        MetaEntry.exists_node_of_isTyped (h.isTyped_collected hquery hg)
      change g.compile = .error e at he
      rw [MetaGroup.compile_eq, hresult] at he
      cases he
    · have hparam : requestShape.lookup "date_query" = some (true, .nullable .dateQuery) := rfl
      rcases h.param hparam hget with rfl | haccepts
      · cases hempty
      · obtain ⟨filter, hfilter⟩ :=
          exists_compile_of_isDateQuery zone (isDateQuery_of_accepts haccepts)
        change DateFilter.compile (some query) zone = .error e at he
        rw [hfilter] at he
        cases he
    · cases he

theorem Accepted.isNode_of_compile (h : r.Accepted)
    (hquery : ∀ v, r.get? "meta_query" = some v → v = .null ∨ IsMetaQuery v) {settings : Fields}
    {zone : TimeZone} {c : Compilation} (hc : r.compile (.ofSettings settings zone) = .ok c) :
    ∀ q ∈ c.compiled.filters, IsNode q.toValue :=
  fun _ hq => h.isNode_of_gives hquery (h.gives_of_compile hc _ hq)

end Request

/-- A document is well-formed: it sorts by one field at most, in one of the two directions, and what
the comments have to pass is a node. -/
structure IsDocument (document : Value) : Prop where
  sort : document.get? "sort" = some (.list []) ∨ ∃ field order,
    document.get? "sort" = some (.list [.object [(field, .object [("order", .text order)])]]) ∧
      (order = "asc" ∨ order = "desc")
  postFilter : ∀ v, document.get? "post_filter" = some v → IsNode v

/-- The compiling tool answers whatever it accepts, in any session, by a well-formed document. -/
theorem compileTool_wellFormed {args : Param} {r : Request}
    (h : Tool.compileQuery.accept args = .ok r) (s : Session) :
    ∃ compiled, ((Work.compileTool args).run.run s).1 = .ok compiled ∧
      IsDocument compiled.toValue := by
  have haccepted := accepted_of_accept h
  have hquery : ∀ v, r.get? "meta_query" = some v → v = .null ∨ IsMetaQuery v :=
    fun _ hv => isMetaQuery_of_accept h hv
  obtain ⟨c, hc⟩ := haccepted.exists_compile hquery s.querySettings s.platform.zone
  refine ⟨c.compiled, by rw [Work.run_compileTool h, hc]; rfl, ?_, ?_⟩
  · rw [Compiled.get?_sort]
    rcases r.sort_of_compile _ hc with hsort | ⟨field, order, hsort⟩
    · exact .inl (by rw [hsort]; rfl)
    · refine .inr ⟨field, order.name, by rw [hsort]; rfl, ?_⟩
      cases order
      · exact .inl rfl
      · exact .inr rfl
  · intro v hv
    rw [Compiled.get?_postFilter] at hv
    obtain ⟨hne, hv⟩ := Option.ite_none_left_eq_some.1 hv
    obtain rfl := Option.some.inj hv
    rw [← Query.toValues_eq]
    exact isNode_must hne (haccepted.isNode_of_compile hquery hc)

theorem compileTool_wellFormed_nested :
    let dates : Value := .list [.object [("after", .text "2024-02-29 10:00")]]
    let colors : Value := .list [.object [("clauses", .list [.object [("key", .text "color")]])]]
    let args : Param :=
      some (.object [("status", .text "hold"), ("date_query", dates), ("meta_query", colors)])
    let s : Session := { files := ⟨[], []⟩ }
    let after : Bounds := { gt := some (.text "2024-02-29 10:00:00") }
    let compiled : Compiled :=
      { window := ⟨.finite 0, .finite 10000⟩, sort := [⟨"comment_date_gmt", .text "desc"⟩],
        query := .matchAll, idsOnly := false,
        filters := [.must [.range "comment_date_gmt" after], .must [.must [.exists "meta.color"]],
          .term "comment_approved" (.number (.finite 0))] }
    (∃ r, Tool.compileQuery.accept args = .ok r) ∧
      ((Work.compileTool args).run.run s).1 = .ok compiled ∧ IsDocument compiled.toValue := by
  intro dates colors args s after compiled
  have haccept : Tool.compileQuery.accept args =
      .ok [("status", .text "hold"), ("meta_query", colors), ("date_query", dates)] := rfl
  have hrun : ((Work.compileTool args).run.run s).1 = .ok compiled := by
    rw [Work.run_compileTool haccept]
    dsimp only [dates, colors, s, compiled, after]
    rfl
  obtain ⟨answer, hanswer, hdocument⟩ := compileTool_wellFormed haccept s
  obtain rfl := Except.ok.inj (hanswer.symm.trans hrun)
  exact ⟨⟨_, haccept⟩, hrun, hdocument⟩

end CommentSearch
