import Mathlib.Data.List.Basic
import CommentSearch.Proofs.Filters
import CommentSearch.Proofs.QueryDocument
import CommentSearch.Proofs.RequestParts

/-!
# The parts of a compiled request

Each filter reads a group of parameters of its own, and no two groups share a parameter
(`pairwise_disjoint_filters`). So the nodes of a compiled request are those of its groups: what the
request, restricted to the parameters of one group, compiles to (`Request.part`).

An accepted request is put together from its parts, and no part depends on a parameter of another:
`Request.Decomposes` says so of the filters, and `Request.SharesParts` of the rest of the document.
-/

namespace CommentSearch

/-- A request with some of its parameters only. -/
abbrev Request.restrict (r : Request) (names : List String) : Request := Fields.restrict r names

/-! ### The parameters of filters -/

/-- The parameters that a filter reads. -/
def Filter.parameters : Filter → List String
  | dimension d => [d.param]
  | parent _ => ["parent", "hierarchical"]
  | status => ["status", "include_unapproved"]
  | date => ["date_query"]
  | metadata => ["meta_key", "meta_value", "meta_query"]

/-- The groups of parameters that filters read, in the order of the nodes. -/
def parameterGroups : List (List String) :=
  [["author_email"], ["author_url"], ["user_id"], ["author__in"], ["author__not_in"],
    ["comment__in"], ["comment__not_in"], ["date_query"], ["karma"],
    ["meta_key", "meta_value", "meta_query"], ["parent", "hierarchical"], ["parent__in"],
    ["parent__not_in"], ["post_author"], ["post_author__in"], ["post_author__not_in"], ["post_id"],
    ["post__in"], ["post__not_in"], ["post_status"], ["post_type"], ["post_name"],
    ["post_parent"], ["status", "include_unapproved"], ["type"], ["type__in"], ["type__not_in"]]

theorem map_parameters_filters : filters.map Filter.parameters = parameterGroups := rfl

/-- No two filters share a parameter. -/
theorem pairwise_disjoint_filters :
    filters.Pairwise fun f f' => ∀ name ∈ f.parameters, name ∉ f'.parameters := by
  rw [← List.pairwise_map (f := Filter.parameters)
    (R := fun names names' => ∀ name ∈ names, name ∉ names'), map_parameters_filters]
  decide

/-- What a filter contributes depends on its own parameters only. -/
theorem Filter.contribution_congr (f : Filter) (c : Collaborators) {r r' : Request}
    (h : Fields.AgreeOn f.parameters r r') : f.contribution r c = f.contribution r' c := by
  cases f with
  | dimension d =>
    have hparam := h d.param (by simp [parameters])
    simp only [contribution, hparam]
  | parent d =>
    have hparent := h "parent" (by simp [parameters])
    have hhierarchical := h "hierarchical" (by simp [parameters])
    simp only [contribution, effectiveParent, hparent, hhierarchical]
  | status =>
    have hstatus := h "status" (by simp [parameters])
    have hunapproved := h "include_unapproved" (by simp [parameters])
    simp only [contribution, statusNode, hstatus, hunapproved]
  | date =>
    have hdate := h "date_query" (by simp [parameters])
    simp only [contribution, dateContribution, hdate]
  | metadata =>
    have hkey := h "meta_key" (by simp [parameters])
    have hvalue := h "meta_value" (by simp [parameters])
    have hquery := h "meta_query" (by simp [parameters])
    simp only [contribution, metaContribution, collectMetaQuery, hkey, hvalue, hquery]

/-- A filter none of whose parameters is present contributes nothing. -/
theorem Filter.contribution_of_absent (f : Filter) (c : Collaborators) {r : Request}
    (h : ∀ name ∈ f.parameters, r.get? name = none) : f.contribution r c = .ok {} := by
  have hagree : Fields.AgreeOn f.parameters r [] := by
    intro name hname
    rw [h name hname, Fields.get?_nil]
  rw [f.contribution_congr c hagree]
  cases f <;> rfl

/-- A request that is restricted to the parameters of a filter has the node of that filter only. -/
theorem filterMap_mapM_restrict {fs : List Filter} (c : Collaborators) (r : Request)
    (disjoint : fs.Pairwise fun f f' => ∀ name ∈ f.parameters, name ∉ f'.parameters)
    {f : Filter} (hf : f ∈ fs) :
    (fs.mapM fun f' : Filter => f'.contribution (r.restrict f.parameters) c).map
        (·.filterMap Contribution.node) =
      (f.contribution r c).map fun contribution => contribution.node.toList := by
  induction fs with
  | nil => cases hf
  | cons f' fs ih =>
    obtain ⟨hhead, htail⟩ := List.pairwise_cons.1 disjoint
    rw [List.mapM_cons]
    rcases List.mem_cons.1 hf with rfl | hmem
    -- the filter itself: those after it find none of their parameters
    · have hrest : (fs.mapM fun f' : Filter => f'.contribution (r.restrict f.parameters) c) =
          .ok (fs.map fun _ => {}) :=
        mapM_eq_ok_of_forall fun f' hf' => Filter.contribution_of_absent f' c fun name hname =>
          Fields.get?_restrict_of_notMem r fun hown => hhead f' hf' name hown hname
      have hinactive : (fs.map fun _ => ({} : Contribution)).filterMap Contribution.node = [] := by
        simp
      rw [f.contribution_congr c (Fields.agreeOn_restrict f.parameters r), hrest]
      cases f.contribution r c with
      | error e => rfl
      | ok contribution =>
        have hnodes : (contribution :: fs.map fun _ => ({} : Contribution)).filterMap
            Contribution.node = contribution.node.toList := by
          rw [List.filterMap_cons, hinactive]
          cases contribution.node <;> rfl
        exact congrArg Except.ok hnodes
    -- another filter comes first: it finds none of its parameters
    · rw [f'.contribution_of_absent c fun name hname =>
        Fields.get?_restrict_of_notMem r fun hown => hhead f hmem name hname hown, ← ih htail hmem]
      cases fs.mapM fun f' : Filter => f'.contribution (r.restrict f.parameters) c <;> rfl

/-! ### The parts of a compilation -/

namespace Request

variable (r : Request) (o : CompileOptions)

/-- The nodes that a request compiles to if it is restricted to a group of parameters. -/
def part (group : List String) : Except Fault (List Query) :=
  ((r.restrict group).compile o).map (·.compiled.filters)

theorem mem_flatten_parameterGroups {f : Filter} (hf : f ∈ filters) {name : String}
    (hname : name ∈ f.parameters) : name ∈ parameterGroups.flatten := by
  rw [← map_parameters_filters]
  exact List.mem_flatten.2 ⟨f.parameters, List.mem_map_of_mem hf, hname⟩

/-- Resolving second names changes no parameter that a filter reads. -/
theorem contributions_normalize (c : Collaborators) :
    r.normalize.contributions c = r.contributions c := by
  refine mapM_congr_of_forall fun f hf => f.contribution_congr c fun name hname => ?_
  have hmem := mem_flatten_parameterGroups hf hname
  refine get?_normalize r ?_ ?_ <;> rintro rfl <;> revert hmem <;> decide

/-- The compilation of a request as the composition of its parts. -/
theorem compile_eq : r.compile o = do
    let sort ← r.normalize.sort
    let contributions ← r.contributions o.collaborators
    let query ← r.normalize.query o.search
    return {
      compiled := {
        window := r.normalize.window o.maxResultsWindow
        sort := sort
        query := query
        idsOnly := r.normalize.idsOnly
        filters := contributions.filterMap (·.node) }
      asked := contributions.flatMap (·.asked) } := by
  rw [← contributions_normalize]
  rfl

/-- The nodes of a compiled request are those that its filters give. -/
theorem Accepted.gives_of_compile {r : Request} (h : r.Accepted) {settings : Fields}
    {zone : TimeZone} {c : Compilation} (hc : r.compile (.ofSettings settings zone) = .ok c) :
    ∀ q ∈ c.compiled.filters, r.Gives zone q := by
  rw [compile_eq] at hc
  obtain ⟨_, -, hc⟩ := bind_eq_ok_iff.1 hc
  obtain ⟨contributions, hcontributions, hc⟩ := bind_eq_ok_iff.1 hc
  obtain ⟨_, -, hc⟩ := bind_eq_ok_iff.1 hc
  obtain rfl := Except.ok.inj hc
  intro q hq
  obtain ⟨contribution, hmem, hnode⟩ := List.mem_filterMap.1 hq
  obtain ⟨f, hf, hcontribution⟩ := forall_mem_of_mapM_eq_ok hcontributions contribution hmem
  exact h.gives_of_contribution hf hcontribution hnode

theorem normalize_sort_of_compile {c : Compilation} (h : r.compile o = .ok c) :
    r.normalize.sort = .ok c.compiled.sort := by
  rw [compile_eq] at h
  obtain ⟨clauses, hsort, h⟩ := bind_eq_ok_iff.1 h
  obtain ⟨_, -, h⟩ := bind_eq_ok_iff.1 h
  obtain ⟨_, -, h⟩ := bind_eq_ok_iff.1 h
  obtain rfl := Except.ok.inj h
  exact hsort

/-- A compiled request has one sort clause at most, in one of the two directions. -/
theorem sort_of_compile {c : Compilation} (h : r.compile o = .ok c) : c.compiled.sort = [] ∨
    ∃ field, ∃ order : Order, c.compiled.sort = [⟨field, .text order.name⟩] := by
  rcases eq_of_sort (normalize_sort_of_compile r o h) with hnil | ⟨field, hone⟩
  · exact .inl hnil
  · exact .inr ⟨field, _, hone⟩

/-- A request restricted to the parameters of a filter compiles to the node of that filter. -/
theorem part_parameters {f : Filter} (hf : f ∈ filters) :
    r.part o f.parameters =
      (f.contribution r o.collaborators).map fun contribution => contribution.node.toList := by
  -- the sort and the scoring query of the restricted request are those of an empty one
  have habsent {name : String} (hname : name ∉ parameterGroups.flatten) :
      Fields.get? (r.restrict f.parameters) name = none :=
    Fields.get?_restrict_of_notMem r fun hown => hname (mem_flatten_parameterGroups hf hown)
  obtain ⟨clauses, hsort⟩ := exists_sort_of_absent (r := (r.restrict f.parameters).normalize) (by
    rw [get?_normalize_orderby, habsent (by decide), habsent (by decide)]
    rfl)
  have hquery := query_of_absent (r := (r.restrict f.parameters).normalize) o.search (by
    rw [get?_normalize _ (by decide) (by decide), habsent (by decide)])
  rw [← filterMap_mapM_restrict o.collaborators r pairwise_disjoint_filters hf]
  rw [part, compile_eq, hsort, hquery]
  unfold contributions
  cases filters.mapM fun f' : Filter =>
    f'.contribution (r.restrict f.parameters) o.collaborators <;> rfl

/-- The parts of a request are the nodes of its filters. -/
theorem mapM_part :
    parameterGroups.mapM (r.part o) =
      (r.contributions o.collaborators).map (List.map fun contribution => contribution.node.toList)
    := by
  rw [← map_parameters_filters, List.mapM_map, contributions, ← mapM_map_eq]
  exact mapM_congr_of_forall fun f hf => r.part_parameters o hf

/-- No filter reads a parameter of the scoring query. -/
theorem notMem_parameterGroups {name : String} (h : name ∈ queryParameters) :
    name ∉ parameterGroups.flatten := by
  revert name
  decide

/-- A request restricted to the parameters of the scoring query compiles to that query, and has no
filters. -/
theorem compile_restrict_query :
    ((r.restrict queryParameters).compile o).map (fun c => (c.compiled.query, c.compiled.filters)) =
      (r.normalize.query o.search).map fun query => (query, []) := by
  have habsent {name : String} (hname : name ∉ queryParameters) :
      Fields.get? (r.restrict queryParameters) name = none :=
    Fields.get?_restrict_of_notMem r hname
  obtain ⟨clauses, hsort⟩ := exists_sort_of_absent (r := (r.restrict queryParameters).normalize) (by
    rw [get?_normalize_orderby, habsent (by decide), habsent (by decide)]
    rfl)
  have hinactive : (r.restrict queryParameters).contributions o.collaborators =
      .ok (filters.map fun _ => {}) :=
    mapM_eq_ok_of_forall fun f hf => f.contribution_of_absent _ fun name hname =>
      habsent fun hown => notMem_parameterGroups hown (mem_flatten_parameterGroups hf hname)
  rw [compile_eq, hsort, hinactive, query_congr (Fields.agreeOn_restrict queryParameters r)]
  cases r.normalize.query o.search with
  | error e => rfl
  | ok query => simp [bind, Except.bind, pure, Except.pure, Except.map]

/-! ### The decomposition -/

/-- The filters of an accepted request are those of its groups, in order. A fault is the one of the
first group that has one, or else of the scoring query. -/
theorem Accepted.filters_eq {r : Request} (h : r.Accepted) (o : CompileOptions) :
    (r.compile o).map (·.compiled.filters) = do
      let parts ← parameterGroups.mapM (r.part o)
      let _ ← (r.restrict queryParameters).compile o
      return parts.flatten := by
  obtain ⟨clauses, hsort⟩ := h.exists_sort
  have hquery := r.compile_restrict_query o
  rw [compile_eq, hsort, mapM_part]
  -- the filters come before the scoring query, so a fault of a filter is the one that counts
  cases r.contributions o.collaborators with
  | error e => rfl
  | ok contributions =>
    have hflatten : contributions.filterMap Contribution.node =
        (contributions.map fun contribution => contribution.node.toList).flatten := by
      rw [← List.flatMap_def, List.filterMap_eq_flatMap_toList]
    cases hscoring : r.normalize.query o.search with
    | error e =>
      rw [hscoring] at hquery
      have hrestricted := map_eq_error_iff.1 hquery
      simp [bind, Except.bind, Except.map, hrestricted]
    | ok query =>
      rw [hscoring] at hquery
      obtain ⟨c, hrestricted, -⟩ := map_eq_ok_iff.1 hquery
      simp [bind, Except.bind, Except.map, pure, Except.pure, hrestricted, hflatten]

/-- An accepted request fails to compile only where a collaborator fails on what it is asked, or
where the default search fields are no list. -/
theorem Accepted.fault_of_compile {r : Request} (h : r.Accepted) {o : CompileOptions} {e : Fault}
    (he : r.compile o = .error e) :
    (∃ query, collectMetaQuery r = .ok (some query) ∧
      o.collaborators.metaFilter query = .error e) ∨
    (∃ query, r.get? "date_query" = some query ∧ Param.isEmpty (some query) = false ∧
      o.collaborators.dateFilter query = .error e) ∨
    itemsOf o.search.defaultFields = .error e := by
  obtain ⟨clauses, hsort⟩ := h.exists_sort
  rw [compile_eq, hsort] at he
  rcases bind_eq_error_iff.1 he with he | ⟨_, -, he⟩
  · cases he
  rcases bind_eq_error_iff.1 he with he | ⟨contributions, -, he⟩
  · obtain ⟨f, hf, hfault⟩ := exists_of_mapM_eq_error he
    rcases Filter.fault_of_collaborator hf h hfault with hmeta | hdate
    · exact .inl hmeta
    · exact .inr (.inl hdate)
  rcases bind_eq_error_iff.1 he with he | ⟨query, -, he⟩
  · exact .inr (.inr (h.fault_of_query he))
  · cases he

theorem length_part {group : List String} (hgroup : group ∈ parameterGroups) {nodes : List Query}
    (h : r.part o group = .ok nodes) : nodes.length ≤ 1 := by
  rw [← map_parameters_filters] at hgroup
  obtain ⟨f, hf, rfl⟩ := List.mem_map.1 hgroup
  rw [part_parameters r o hf] at h
  obtain ⟨contribution, -, rfl⟩ := map_eq_ok_iff.1 h
  cases contribution.node <;> simp

theorem part_congr {group : List String} (hgroup : group ∈ parameterGroups) {r' : Request}
    (h : Fields.AgreeOn group r r') : r'.part o group = r.part o group := by
  rw [← map_parameters_filters] at hgroup
  obtain ⟨f, hf, rfl⟩ := List.mem_map.1 hgroup
  rw [part_parameters r o hf, part_parameters r' o hf, f.contribution_congr _ h]

theorem exists_parts_of_compile {c : Compilation} (h : r.compile o = .ok c) :
    ∃ parts, parameterGroups.mapM (r.part o) = .ok parts ∧ c.compiled.filters = parts.flatten := by
  rw [compile_eq] at h
  obtain ⟨_, -, h⟩ := bind_eq_ok_iff.1 h
  obtain ⟨contributions, hcontributions, h⟩ := bind_eq_ok_iff.1 h
  obtain ⟨_, -, h⟩ := bind_eq_ok_iff.1 h
  refine ⟨contributions.map fun contribution => contribution.node.toList, ?_, ?_⟩
  · rw [mapM_part, hcontributions]
    rfl
  · rw [← Except.ok.inj h, ← List.flatMap_def, List.filterMap_eq_flatMap_toList]

/-- A compiled request has no filters exactly where no group gives a node. -/
theorem filters_eq_nil_iff {c : Compilation} (h : r.compile o = .ok c) :
    c.compiled.filters = [] ↔ ∀ group ∈ parameterGroups, r.part o group = .ok [] := by
  obtain ⟨parts, hparts, hfilters⟩ := r.exists_parts_of_compile o h
  rw [hfilters, List.flatten_eq_nil_iff]
  constructor
  · intro hnil group hgroup
    obtain ⟨nodes, hmem, hnodes⟩ := exists_mem_of_mapM_eq_ok hparts group hgroup
    rw [hnodes, hnil nodes hmem]
  · intro hnil nodes hmem
    obtain ⟨group, hgroup, hnodes⟩ := forall_mem_of_mapM_eq_ok hparts nodes hmem
    rw [hnil group hgroup] at hnodes
    exact (Except.ok.inj hnodes).symm

/-- A request decomposes under some options: what it compiles to is put together from what it
compiles to when restricted to each group of parameters. -/
structure Decomposes : Prop where
  filters_eq : (r.compile o).map (·.compiled.filters) = do
    let parts ← parameterGroups.mapM (r.part o)
    let _ ← (r.restrict queryParameters).compile o
    return parts.flatten
  fault_of_compile : ∀ e, r.compile o = .error e →
    (∃ query, collectMetaQuery r = .ok (some query) ∧
      o.collaborators.metaFilter query = .error e) ∨
    (∃ query, r.get? "date_query" = some query ∧ Param.isEmpty (some query) = false ∧
      o.collaborators.dateFilter query = .error e) ∨
    itemsOf o.search.defaultFields = .error e
  length_part : ∀ group ∈ parameterGroups, ∀ nodes, r.part o group = .ok nodes → nodes.length ≤ 1
  part_congr : ∀ group ∈ parameterGroups, ∀ r' : Request, Fields.AgreeOn group r r' →
    r'.part o group = r.part o group
  postFilter : ∀ c, r.compile o = .ok c → ∃ parts, parameterGroups.mapM (r.part o) = .ok parts ∧
    c.compiled.toValue.get? "post_filter" =
      if parts.flatten = [] then none
      else some (.object [("bool", .object [("must", .list (parts.flatten.map Query.toValue))])])
  postFilter_eq_none_iff : ∀ c, r.compile o = .ok c →
    (c.compiled.toValue.get? "post_filter" = none ↔
      ∀ group ∈ parameterGroups, r.part o group = .ok [])

/-- Two compiled requests have each part of their documents in common whose parameters, and whose
options, they have in common. -/
structure SharesParts (r' : Request) (o' : CompileOptions) (document document' : Value) : Prop where
  window : Fields.AgreeOn windowParameters r r' → o.maxResultsWindow = o'.maxResultsWindow →
    document.get? "from" = document'.get? "from" ∧ document.get? "size" = document'.get? "size"
  sort : Fields.AgreeOn sortParameters r r' → document.get? "sort" = document'.get? "sort"
  query : Fields.AgreeOn queryParameters r r' → o.search = o'.search →
    document.get? "query" = document'.get? "query"
  source : Fields.AgreeOn projectionParameters r r' →
    document.get? "_source" = document'.get? "_source"

theorem sharesParts_of_compile {r' : Request} {o' : CompileOptions} {c c' : Compilation}
    (h : r.compile o = .ok c) (h' : r'.compile o' = .ok c') :
    r.SharesParts o r' o' c.compiled.toValue c'.compiled.toValue := by
  rw [compile_eq] at h h'
  obtain ⟨clauses, hsort, h⟩ := bind_eq_ok_iff.1 h
  obtain ⟨_, -, h⟩ := bind_eq_ok_iff.1 h
  obtain ⟨query, hquery, h⟩ := bind_eq_ok_iff.1 h
  obtain ⟨clauses', hsort', h'⟩ := bind_eq_ok_iff.1 h'
  obtain ⟨_, -, h'⟩ := bind_eq_ok_iff.1 h'
  obtain ⟨query', hquery', h'⟩ := bind_eq_ok_iff.1 h'
  rw [← Except.ok.inj h, ← Except.ok.inj h']
  constructor
  · intro hagree hwindow
    simp only [Compiled.get?_from, Compiled.get?_size, window_congr hagree, hwindow, and_self]
  · intro hagree
    rw [sort_congr hagree, hsort'] at hsort
    simp only [Compiled.get?_sort, Except.ok.inj hsort]
  · intro hagree hsearch
    rw [query_congr hagree, hsearch, hquery'] at hquery
    simp only [Compiled.get?_query, Except.ok.inj hquery]
  · intro hagree
    simp only [Compiled.get?_source, idsOnly_congr hagree]

/-- An accepted request decomposes into its groups of parameters, for any collaborators, and every
other part of its document depends on the parameters of that part only. -/
theorem compile_decomposes {r : Request} (h : r.Accepted) (o : CompileOptions) :
    r.Decomposes o ∧ ∀ (r' : Request) (o' : CompileOptions) (c c' : Compilation),
      r.compile o = .ok c → r'.compile o' = .ok c' →
        r.SharesParts o r' o' c.compiled.toValue c'.compiled.toValue := by
  refine ⟨?_, fun r' o' c c' hc hc' => r.sharesParts_of_compile o hc hc'⟩
  exact {
    filters_eq := h.filters_eq o
    fault_of_compile := fun e he => h.fault_of_compile he
    length_part := fun group hgroup nodes hnodes => r.length_part o hgroup hnodes
    part_congr := fun group hgroup r' hagree => r.part_congr o hgroup hagree
    postFilter := fun c hc => by
      obtain ⟨parts, hparts, hfilters⟩ := r.exists_parts_of_compile o hc
      refine ⟨parts, hparts, ?_⟩
      rw [Compiled.get?_postFilter, hfilters]
      rfl
    postFilter_eq_none_iff := fun c hc => by
      rw [Compiled.get?_postFilter, ← r.filters_eq_nil_iff o hc]
      split <;> simp_all }

theorem compile_decomposes_pending :
    let r : Request :=
      [("status", .text "hold"), ("include_unapproved", .list [.number (.finite 3)])]
    let o := CompileOptions.ofSettings []
    r.Accepted ∧ r.Decomposes o ∧ ∀ (r' : Request) (o' : CompileOptions) (c c' : Compilation),
      r.compile o = .ok c → r'.compile o' = .ok c' →
        r.SharesParts o r' o' c.compiled.toValue c'.compiled.toValue := by
  have haccepted : Request.Accepted
      [("status", .text "hold"), ("include_unapproved", .list [.number (.finite 3)])] := by
    unfold Accepted
    decide
  exact ⟨haccepted, compile_decomposes haccepted _⟩

end Request

end CommentSearch
