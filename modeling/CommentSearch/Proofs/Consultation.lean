import CommentSearch.Proofs.Validation

/-!
# Consulting collaborators

The filters of dates and of metadata leave their work to collaborators. An accepted request puts at
most one query to each of them (`Request.Consults`), and what they answer changes no more than two
places among the nodes of the compiled request, one right before that of the karma and one right
after it (`compile_consults`).
-/

namespace CommentSearch

/-! ### Queries to collaborators -/

/-- The queries that are put to the collaborators, at most one to each. -/
structure Consultation where
  dates : Option Value
  metadata : Option MetaGroup

namespace Consultation

/-- The queries in the order in which they are put. -/
def questions (q : Consultation) : List Question :=
  q.dates.toList.map .dateQuery ++ q.metadata.toList.map .metaQuery

/-- The node that has to hold by the answer about dates. A node of alternatives does not count. -/
def dateNode (q : Consultation) (c : Collaborators) : Except Fault (Option Query) :=
  match q.dates with
  | some query => (c.dateFilter query).map DateFilter.all
  | none => .ok none

/-- The node that is the answer about metadata. -/
def metaNode (q : Consultation) (c : Collaborators) : Except Fault (Option Query) :=
  match q.metadata with
  | some query => c.metaFilter query
  | none => .ok none

end Consultation

namespace Request

/-- The clauses that `meta_key` and `meta_value` stand for: one if there is a key, with a value
unless that is null or absent. -/
inductive HasShorthand (r : Request) : List Value → Prop
  | absent (empty : Param.isEmpty (r.get? "meta_key") = true) : HasShorthand r []
  | key {key : String} (get : r.get? "meta_key" = some (.text key))
    (nonempty : Param.isEmpty (r.get? "meta_key") = false)
    (valueless : Param.isSet (r.get? "meta_value") = false) :
    HasShorthand r [.object [("key", .text key)]]
  | value {key : String} {v : Value} (get : r.get? "meta_key" = some (.text key))
    (nonempty : Param.isEmpty (r.get? "meta_key") = false) (value : r.get? "meta_value" = some v)
    (set : Param.isSet (some v) = true) :
    HasShorthand r [.object [("key", .text key), ("value", v)]]

/-- The relation and the clauses of `meta_query`, which is a list of clauses or a group. -/
inductive HasEntries (r : Request) : Param → List Value → Prop
  | absent (empty : Param.isEmpty (r.get? "meta_query") = true) : HasEntries r none []
  | list {items : List Value} (get : r.get? "meta_query" = some (.list items)) :
    HasEntries r none items
  | group {fields : Fields} {items : List Value} (get : r.get? "meta_query" = some (.object fields))
    (clauses : fields.get? "clauses" = some (.list items)) :
    HasEntries r (fields.get? "relation") items

/-- A request puts its queries: the date query as it stands unless it is empty, and a metadata query
of the clause of the key and of all clauses of `meta_query` after it, unless there are none. -/
structure Consults (r : Request) (q : Consultation) : Prop where
  dates : ∀ query, q.dates = some query ↔
    r.get? "date_query" = some query ∧ Param.isEmpty (some query) = false
  metadata : ∃ shorthand relation entries, r.HasShorthand shorthand ∧
    r.HasEntries relation entries ∧
    q.metadata = if shorthand ++ entries = [] then none
      else some ⟨relation, shorthand ++ entries⟩
  metadata_isSome_iff : q.metadata.isSome = true ↔ Param.isEmpty (r.get? "meta_key") = false ∨
    ∃ relation entries, r.HasEntries relation entries ∧ entries ≠ []

/-! ### What is put -/

/-- The queries that a request puts. -/
def consultation (r : Request) : Consultation where
  dates := (r.get? "date_query").filter fun query => !Param.isEmpty (some query)
  metadata :=
    if r.metaShorthand ++ r.metaGroup.clauses = [] then none
    else some ⟨r.metaGroup.relation, r.metaShorthand ++ r.metaGroup.clauses⟩

variable {r : Request}

theorem HasShorthand.eq_nil_iff {shorthand : List Value} (h : r.HasShorthand shorthand) :
    shorthand = [] ↔ Param.isEmpty (r.get? "meta_key") = true := by
  cases h with
  | absent empty => simp [empty]
  | key _ nonempty => simp [nonempty]
  | value _ nonempty => simp [nonempty]

/-- The clauses of `meta_query` are what they are in one way only. -/
theorem HasEntries.unique {relation relation' : Param} {entries entries' : List Value}
    (h : r.HasEntries relation entries) (h' : r.HasEntries relation' entries') :
    entries = entries' := by
  cases h <;> cases h' <;> simp_all [Param.isEmpty]

theorem Accepted.hasShorthand (h : r.Accepted) : r.HasShorthand r.metaShorthand := by
  have hkey : Param.IsTextual (r.get? "meta_key") := h.isTextual rfl
  cases hempty : Param.isEmpty (r.get? "meta_key") with
  | true =>
    have hnone : r.metaShorthand = [] := by
      unfold metaShorthand
      split
      · rename_i key hget
        rw [hget] at hempty
        exact if_pos hempty
      · rfl
    rw [hnone]
    exact .absent hempty
  | false =>
    obtain ⟨key, hget⟩ := hkey.eq_text hempty
    have hne := hempty
    rw [hget] at hne
    unfold metaShorthand
    rw [hget]
    dsimp only
    rw [if_neg (by rw [hne]; exact Bool.false_ne_true)]
    split
    · rename_i hvalue
      exact .key hget hempty (by rw [hvalue]; rfl)
    · rename_i hvalue
      exact .key hget hempty (by rw [hvalue]; rfl)
    · rename_i v hnull hvalue
      refine .value hget hempty hvalue ?_
      cases v <;> simp_all [Param.isSet]

theorem Accepted.hasEntries (h : r.Accepted) :
    r.HasEntries r.metaGroup.relation r.metaGroup.clauses := by
  unfold metaGroup
  split
  · rename_i hempty
    exact .absent hempty
  · rename_i hempty
    cases hget : r.get? "meta_query" with
    | none => exact absurd (hget ▸ rfl) hempty
    | some v =>
      rw [hget] at hempty
      have haccepts : Schema.metaQuery.accepts v = true := h.accepts_of_not_isEmpty rfl hget hempty
      obtain ⟨kept, hkept⟩ := Schema.accepts_metaQuery_iff.1 haccepts
      unfold metaQuery? at hkept
      split at hkept
      · exact .list hget
      · obtain ⟨fields, relation, items, entries, rfl, hitems, -, -, -⟩ :=
          metaGroup?_eq_some_iff.1 hkept
        have hentries : (MetaGroup.ofQuery (some (.object fields))).clauses = items := by
          simp [MetaGroup.ofQuery, hitems]
        rw [hentries]
        exact .group hget hitems

/-- An accepted request puts its queries. -/
theorem Accepted.consults (h : r.Accepted) : r.Consults r.consultation := by
  have hshorthand := h.hasShorthand
  have hentries := h.hasEntries
  refine ⟨fun query => ?_, ⟨_, _, _, hshorthand, hentries, rfl⟩, ?_⟩
  · rw [consultation, Option.filter_eq_some_iff]
    simp
  · unfold consultation
    constructor
    · intro hsome
      by_cases hnil : r.metaShorthand = []
      · refine .inr ⟨_, _, hentries, fun hnone => ?_⟩
        rw [if_pos (by rw [hnil, hnone]; rfl)] at hsome
        cases hsome
      · refine .inl ?_
        rw [hshorthand.eq_nil_iff] at hnil
        simpa using hnil
    · intro hany
      have hne : r.metaShorthand ++ r.metaGroup.clauses ≠ [] := by
        intro hnil
        obtain ⟨hnone, hempty⟩ := List.append_eq_nil_iff.1 hnil
        rcases hany with hkey | ⟨relation, entries, hother, hentry⟩
        · rw [hshorthand.eq_nil_iff.1 hnone] at hkey
          cases hkey
        · -- `meta_query` has one reading, so no other shows clauses
          exact hentry ((hother.unique hentries).trans hempty)
      rw [if_neg hne]
      rfl

/-! ### What the filters make of the answers -/

theorem dateContribution_eq (r : Request) (c : Collaborators) : dateContribution r c =
    (r.consultation.dateNode c).map fun node =>
      ⟨node, r.consultation.dates.toList.map .dateQuery⟩ := by
  unfold dateContribution consultation Consultation.dateNode
  cases r.get? "date_query" with
  | none => rfl
  | some query =>
    cases hempty : Param.isEmpty (some query) with
    | true => simp [Option.filter, hempty, Except.map]
    | false =>
      simp only [Option.filter, hempty, Bool.not_false, if_true, Bool.false_eq_true, if_false]
      exact c.ask_eq_map (.dateQuery query)

theorem metaContribution_eq_map (hkey : Param.IsTextual (r.get? "meta_key")) (c : Collaborators) :
    metaContribution r c = (r.consultation.metaNode c).map fun node =>
      ⟨node, r.consultation.metadata.toList.map .metaQuery⟩ := by
  unfold metaContribution consultation Consultation.metaNode
  rw [collectMetaQuery_eq hkey]
  cases r.metaShorthand ++ r.metaGroup.clauses with
  | nil => rfl
  | cons v vs =>
    rw [if_neg (List.cons_ne_nil v vs)]
    exact c.ask_eq_map (.metaQuery ⟨r.metaGroup.relation, v :: vs⟩)

/-- The contribution of a filter that asks nobody. -/
def Contribution.silent (node : Option Query) : Contribution where
  node := node
  asked := []

/-- A filter that asks nobody has a node, or none, whoever the collaborators are. -/
theorem Accepted.exists_node_of_not_asks (h : r.Accepted) {f : Filter} (hf : f ∈ filters)
    (hasks : f.asks = false) :
    ∃ node, ∀ c, f.contribution r c = .ok (Contribution.silent node) := by
  cases f with
  | dimension d =>
    obtain ⟨node, hnode, -⟩ := d.exists_node (h.suits hf)
    exact ⟨node, fun c => by rw [Filter.contribution, hnode]; rfl⟩
  | parent d =>
    obtain ⟨node, hnode, -⟩ := d.exists_node (suits_parent hf (effectiveParent r))
    exact ⟨node, fun c => by rw [Filter.contribution, hnode]; rfl⟩
  | status => exact ⟨statusNode r, fun c => rfl⟩
  | date | metadata => cases hasks

theorem Accepted.exists_nodes_of_not_asks (h : r.Accepted) {fs : List Filter}
    (hfs : ∀ f ∈ fs, f ∈ filters ∧ f.asks = false) : ∃ nodes : List (Option Query), ∀ c,
      (fs.mapM fun f => f.contribution r c) = .ok (nodes.map Contribution.silent) := by
  induction fs with
  | nil => exact ⟨[], fun c => rfl⟩
  | cons f fs ih =>
    obtain ⟨hf, hasks⟩ := hfs f List.mem_cons_self
    obtain ⟨node, hnode⟩ := h.exists_node_of_not_asks hf hasks
    obtain ⟨nodes, hnodes⟩ := ih fun f' hf' => hfs f' (List.mem_cons_of_mem _ hf')
    refine ⟨node :: nodes, fun c => ?_⟩
    rw [List.mapM_cons, hnode, hnodes]
    rfl

/-! ### The frame of the answers -/

/-- A compiled request but for its scoring query and for what the collaborators answer. -/
structure AnswerFrame where
  window : Window
  sort : List SortClause
  idsOnly : Bool
  before : List Query
  karma : List Query
  after : List Query

/-- The compiled request with a scoring query and with the nodes that the collaborators answer,
where they do: that of the dates right before the node of the karma, that of the metadata right
after it. -/
def AnswerFrame.fill (frame : AnswerFrame) (query : Query) (dates metadata : Option Query) :
    Compiled where
  window := frame.window
  sort := frame.sort
  query := query
  idsOnly := frame.idsOnly
  filters := frame.before ++ (dates.toList ++ (frame.karma ++ (metadata.toList ++ frame.after)))

/-- The nodes of a frame are those that the parameters of the other filters give: the groups up to
the date query, that of the karma, and from the parent on. -/
structure AnswerFrame.IsOf (frame : AnswerFrame) (r : Request) (o : CompileOptions) : Prop where
  before : ((parameterGroups.take 7).mapM (r.part o)).map List.flatten = .ok frame.before
  karma : r.part o ["karma"] = .ok frame.karma
  after : ((parameterGroups.drop 10).mapM (r.part o)).map List.flatten = .ok frame.after

/-- The filter of the karma. -/
def karmaFilter : Filter := .dimension ⟨"karma", "comment_karma", .one, .must, false, none, true⟩

theorem filters_eq_around_karma :
    filters = filters.take 7 ++ .date :: karmaFilter :: .metadata :: filters.drop 10 := rfl

theorem not_asks_of_mem : ∀ f ∈ filters.take 7 ++ karmaFilter :: filters.drop 10,
    f.asks = false := by
  decide

theorem mem_filters_of_mem {f : Filter}
    (h : f ∈ filters.take 7 ++ karmaFilter :: filters.drop 10) : f ∈ filters := by
  rw [filters_eq_around_karma]
  simp only [List.mem_append, List.mem_cons] at h ⊢
  tauto

/-- The nodes of contributions of which three may ask something. -/
theorem filterMap_node_around (before after : List (Option Query))
    (dates karma metadata : Contribution) :
    (before.map Contribution.silent ++
      dates :: karma :: metadata :: after.map Contribution.silent).filterMap (·.node) =
    before.filterMap id ++ (dates.node.toList ++ (karma.node.toList ++ (metadata.node.toList ++
      after.filterMap id))) := by
  have hsilent (nodes : List (Option Query)) :
      (nodes.map Contribution.silent).filterMap (·.node) = nodes.filterMap id := by
    rw [List.filterMap_map]
    rfl
  have hcons (contribution : Contribution) (rest : List Contribution) :
      (contribution :: rest).filterMap (·.node) =
        contribution.node.toList ++ rest.filterMap (·.node) := by
    rcases contribution with ⟨_ | node, asked⟩ <;> rfl
  simp only [List.filterMap_append, hcons, hsilent]

/-- What contributions ask of which three may ask something. -/
theorem flatMap_asked_around (before after : List (Option Query))
    (dates karma metadata : Contribution) :
    (before.map Contribution.silent ++
      dates :: karma :: metadata :: after.map Contribution.silent).flatMap (·.asked) =
    dates.asked ++ (karma.asked ++ metadata.asked) := by
  have hsilent (nodes : List (Option Query)) :
      (nodes.map Contribution.silent).flatMap (·.asked) = [] := by
    rw [List.flatMap_map]
    exact List.flatMap_eq_nil_iff.2 fun _ _ => rfl
  simp only [List.flatMap_append, List.flatMap_cons, hsilent, List.nil_append, List.append_nil]

/-- The parts of some filters are the nodes that they contribute. -/
theorem flatten_mapM_part {fs : List Filter} {nodes : List (Option Query)} {o : CompileOptions}
    (hfs : ∀ f ∈ fs, f ∈ filters) (hnodes : (fs.mapM fun f => f.contribution r o.collaborators) =
      .ok (nodes.map Contribution.silent)) :
    ((fs.map Filter.parameters).mapM (r.part o)).map List.flatten = .ok (nodes.filterMap id) := by
  have hparts : (fs.map Filter.parameters).mapM (r.part o) =
      (fs.mapM fun f : Filter => f.contribution r o.collaborators).map
        (List.map fun contribution => contribution.node.toList) := by
    rw [List.mapM_map, ← mapM_map_eq]
    exact mapM_congr_of_forall fun f hf => r.part_parameters o (hfs f hf)
  rw [hparts, hnodes, List.filterMap_eq_flatMap_toList, List.flatMap_def, Except.map, Except.map,
    List.map_map]
  rfl

/-- An accepted request compiles to a frame, filled by what the collaborators answer. -/
theorem Accepted.exists_frame (h : r.Accepted) (maxSize : Number) : ∃ frame : AnswerFrame,
    ∀ (search : SearchOptions) (c : Collaborators), frame.IsOf r ⟨maxSize, search, c⟩ ∧
      r.compile ⟨maxSize, search, c⟩ = do
        let dates ← r.consultation.dateNode c
        let metadata ← r.consultation.metaNode c
        let query ← r.normalize.query search
        return ⟨frame.fill query dates metadata, r.consultation.questions⟩ := by
  have hkey : Param.IsTextual (r.get? "meta_key") := h.isTextual rfl
  have hother {f : Filter} (hf : f ∈ filters.take 7 ++ karmaFilter :: filters.drop 10) :
      f ∈ filters ∧ f.asks = false := ⟨mem_filters_of_mem hf, not_asks_of_mem f hf⟩
  have hbefore : ∀ f ∈ filters.take 7, f ∈ filters ∧ f.asks = false :=
    fun f hf => hother (List.mem_append_left _ hf)
  have hkarma : karmaFilter ∈ filters ∧ karmaFilter.asks = false :=
    hother (List.mem_append_right _ List.mem_cons_self)
  have hafter : ∀ f ∈ filters.drop 10, f ∈ filters ∧ f.asks = false :=
    fun f hf => hother (List.mem_append_right _ (List.mem_cons_of_mem _ hf))
  -- none of these depends on the collaborators, so they are chosen before those
  obtain ⟨sort, hsort⟩ := h.exists_sort
  obtain ⟨before, hbeforeNodes⟩ := h.exists_nodes_of_not_asks hbefore
  obtain ⟨karma, hkarmaNode⟩ := h.exists_node_of_not_asks hkarma.1 hkarma.2
  obtain ⟨after, hafterNodes⟩ := h.exists_nodes_of_not_asks hafter
  refine ⟨⟨r.normalize.window maxSize, sort, r.normalize.idsOnly, before.filterMap id,
    karma.toList, after.filterMap id⟩, fun search c => ⟨⟨?_, ?_, ?_⟩, ?_⟩⟩
  · exact flatten_mapM_part (fun f hf => (hbefore f hf).1) (hbeforeNodes c)
  · have hpart := r.part_parameters ⟨maxSize, search, c⟩ hkarma.1
    rw [hkarmaNode c] at hpart
    exact hpart
  · exact flatten_mapM_part (fun f hf => (hafter f hf).1) (hafterNodes c)
  · -- the filters of the frame do not fail, so the faults are those of the two answers, in order
    have hcontributions : r.contributions c = do
        let dates ← r.consultation.dateNode c
        let metadata ← r.consultation.metaNode c
        return before.map Contribution.silent ++
          ⟨dates, r.consultation.dates.toList.map .dateQuery⟩ :: Contribution.silent karma ::
            ⟨metadata, r.consultation.metadata.toList.map .metaQuery⟩ ::
              after.map Contribution.silent := by
      rw [contributions, filters_eq_around_karma, List.mapM_append, hbeforeNodes, List.mapM_cons,
        List.mapM_cons, List.mapM_cons, hkarmaNode, hafterNodes, Filter.contribution,
        Filter.contribution, dateContribution_eq, metaContribution_eq_map hkey]
      cases r.consultation.dateNode c with
      | error e => rfl
      | ok dates => cases r.consultation.metaNode c <;> rfl
    rw [compile_eq, hsort, hcontributions]
    cases r.consultation.dateNode c with
    | error e => rfl
    | ok dates =>
      cases r.consultation.metaNode c with
      | error e => rfl
      | ok metadata =>
        cases r.normalize.query search with
        | error e => rfl
        | ok query =>
          simp only [bind, Except.bind, pure, Except.pure, filterMap_node_around,
            flatMap_asked_around]
          rfl

/-- An accepted request puts its queries, each once, whoever the collaborators are. They change
nothing but that the nodes they answer stand around that of the karma. -/
theorem compile_consults (h : r.Accepted) : r.Consults r.consultation ∧
    ∀ maxSize : Number, ∃ frame : AnswerFrame, ∀ (search : SearchOptions) (c : Collaborators),
      frame.IsOf r ⟨maxSize, search, c⟩ ∧ r.compile ⟨maxSize, search, c⟩ = do
        let dates ← r.consultation.dateNode c
        let metadata ← r.consultation.metaNode c
        let query ← r.normalize.query search
        return ⟨frame.fill query dates metadata, r.consultation.questions⟩ :=
  ⟨h.consults, h.exists_frame⟩

theorem compile_consults_featured :
    let year : Value := .list [.object [("year", .number (.finite 2024))]]
    let key : Value := .object [("key", .text "rating"), ("value", .number (.finite 5))]
    let featured : Value := .object [("key", .text "featured"), ("compare", .text "EXISTS")]
    let r : Request := [("date_query", year), ("karma", .number (.finite 3)),
      ("meta_key", .text "rating"), ("meta_value", .number (.finite 5)),
      ("meta_query", .object [("relation", .text "OR"), ("clauses", .list [featured])])]
    r.Accepted ∧ r.consultation = ⟨some year, some ⟨some (.text "OR"), [key, featured]⟩⟩ ∧
    r.Consults r.consultation ∧
    ∀ maxSize : Number, ∃ frame : AnswerFrame, ∀ (search : SearchOptions) (c : Collaborators),
      frame.IsOf r ⟨maxSize, search, c⟩ ∧ r.compile ⟨maxSize, search, c⟩ = do
        let dates ← c.dateFilter year
        let metadata ← c.metaFilter ⟨some (.text "OR"), [key, featured]⟩
        let query ← r.normalize.query search
        return ⟨frame.fill query dates.all metadata,
          [.dateQuery year, .metaQuery ⟨some (.text "OR"), [key, featured]⟩]⟩ := by
  intro year key featured r
  have haccepted : r.Accepted := by
    unfold Accepted
    decide
  obtain ⟨hconsults, hframe⟩ := compile_consults haccepted
  refine ⟨haccepted, rfl, hconsults, fun maxSize => ?_⟩
  obtain ⟨frame, hcompile⟩ := hframe maxSize
  refine ⟨frame, fun search c => ⟨(hcompile search c).1, (hcompile search c).2.trans ?_⟩⟩
  change (c.dateFilter year).map DateFilter.all >>= _ = c.dateFilter year >>= _
  cases c.dateFilter year <;> rfl

end Request

end CommentSearch
