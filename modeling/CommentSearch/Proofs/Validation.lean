import CommentSearch.Proofs.Decomposition
import CommentSearch.Proofs.Readable
import CommentSearch.Proofs.Session
import CommentSearch.Proofs.Stripping

/-!
# Validated requests

The compiling tool validates its arguments and compiles what validation keeps of them. The result
is that of the arguments themselves (`run_compileTool_eq`), if no entry of the metadata query that
has a list of entries of its own is taken for a clause. One that is loses its entries
(`compileTool_lost_group`).
-/

namespace CommentSearch

/-- Whether a filter leaves its work to a collaborator. -/
def Filter.asks : Filter → Bool
  | .date | .metadata => true
  | .dimension _ | .parent _ | .status => false

/-- The other filters read parameters without objects only. -/
theorem flat_of_mem : ∀ f ∈ filters, f.asks = false →
    ∀ name ∈ f.parameters, name ∈ Schema.flatNames requestShape := by
  decide

namespace Request

/-! ### Compilations by their parts -/

/-- The compiled request, from its sort, the nodes of its filters and its scoring query. -/
theorem map_compiled (r : Request) (o : CompileOptions) : (r.compile o).map (·.compiled) = do
    let sort ← r.normalize.sort
    let nodes ← filters.mapM fun f => (f.contribution r o.collaborators).map Contribution.node
    let query ← r.normalize.query o.search
    return {
      window := r.normalize.window o.maxResultsWindow
      sort := sort
      query := query
      idsOnly := r.normalize.idsOnly
      filters := nodes.filterMap id } := by
  rw [compile_eq, mapM_map_eq]
  unfold contributions
  cases r.normalize.sort with
  | error e => rfl
  | ok sort =>
    cases filters.mapM fun f => f.contribution r o.collaborators with
    | error e => rfl
    | ok contributions =>
      cases r.normalize.query o.search with
      | error e => rfl
      | ok query => simp [bind, Except.bind, pure, Except.pure, Except.map, List.filterMap_map]

/-! ### What validation keeps of a request -/

/-- What validation keeps of a request. -/
def kept (r : Request) : Request := Schema.stripFields requestShape r

variable {r : Request}

/-- The parameters without objects are kept as they are. -/
theorem agreeOn_kept : Fields.AgreeOn (Schema.flatNames requestShape) r.kept r :=
  Schema.agreeOn_flatNames nodup_requestShape r

theorem get?_kept {name : String} {schema : Schema} (h : (name, true, schema) ∈ requestShape) :
    r.kept.get? name = (r.get? name).map schema.strip :=
  Schema.get?_stripFields nodup_requestShape h

theorem isEmpty_map_strip (s : Schema) (p : Param) :
    Param.isEmpty (p.map s.strip) = Param.isEmpty p := by
  cases p with
  | none => rfl
  | some v => exact s.isEmpty_strip v

/-- The kept value of a parameter that is not empty is what the schema of its values keeps. -/
theorem get?_kept_of_not_isEmpty {name : String} {schema : Schema} {v : Value}
    (hparam : requestShape.lookup name = some (true, .nullable schema))
    (hv : r.get? name = some v) (hne : ¬Param.isEmpty (some v) = true) :
    r.kept.get? name = some (schema.strip v) := by
  rw [get?_kept (mem_of_lookup hparam), hv, Option.map_some,
    Schema.strip_nullable (Param.ne_null_of_not_isEmpty hne)]

theorem isEmpty_kept {name : String} {schema : Schema}
    (hparam : requestShape.lookup name = some (true, schema)) :
    Param.isEmpty (r.kept.get? name) = Param.isEmpty (r.get? name) := by
  rw [get?_kept (mem_of_lookup hparam), isEmpty_map_strip]

/-! ### The filters that ask collaborators -/

theorem dateContribution_of_isEmpty (c : Collaborators)
    (h : Param.isEmpty (r.get? "date_query") = true) : dateContribution r c = .ok {} := by
  unfold dateContribution
  split
  · rename_i v hget
    rw [hget] at h
    exact if_pos h
  · rfl

theorem dateContribution_of_get? (zone : TimeZone) {v : Value} (hget : r.get? "date_query" = some v)
    (hne : ¬Param.isEmpty (some v) = true) :
    (dateContribution r (.standard zone)).map Contribution.node =
      (DateFilter.compile (some v) zone).map DateFilter.all := by
  unfold dateContribution
  rw [hget]
  dsimp only
  rw [if_neg hne, Collaborators.map_node_ask]
  rfl

/-- The metadata filter is the group of the clause of the key and of the entries of `meta_query`. -/
theorem metaContribution_eq (zone : TimeZone) (hkey : Param.IsTextual (r.get? "meta_key")) :
    (metaContribution r (.standard zone)).map Contribution.node =
      MetaGroup.compile ⟨r.metaGroup.relation, r.metaShorthand ++ r.metaGroup.clauses⟩ := by
  unfold metaContribution
  rw [collectMetaQuery_eq hkey]
  cases hclauses : r.metaShorthand ++ r.metaGroup.clauses with
  | nil => rfl
  | cons v vs => exact Collaborators.map_node_ask ..

namespace Accepted

theorem dateContribution_kept (h : r.Accepted) (zone : TimeZone) :
    (dateContribution r.kept (.standard zone)).map Contribution.node =
      (dateContribution r (.standard zone)).map Contribution.node := by
  have hparam : requestShape.lookup "date_query" = some (true, .nullable .dateQuery) := rfl
  have hempty := isEmpty_kept (r := r) hparam
  cases hget : r.get? "date_query" with
  | none =>
    rw [hget] at hempty
    rw [dateContribution_of_isEmpty _ hempty, dateContribution_of_isEmpty _ (by rw [hget]; rfl)]
  | some v =>
    rw [hget] at hempty
    by_cases hne : Param.isEmpty (some v) = true
    · rw [dateContribution_of_isEmpty _ (hempty.trans hne),
        dateContribution_of_isEmpty _ (by rw [hget]; exact hne)]
    · have hkept := get?_kept_of_not_isEmpty hparam hget hne
      have haccepts : Schema.dateQuery.accepts v = true := h.accepts_of_not_isEmpty hparam hget hne
      rw [hkept] at hempty
      rw [dateContribution_of_get? zone hkept (by rw [hempty]; exact hne),
        dateContribution_of_get? zone hget hne, DateFilter.compile_strip zone haccepts]

theorem metaGroup_kept (h : r.Accepted)
    (hkeeps : ∀ entry ∈ (MetaGroup.ofQuery (r.get? "meta_query")).clauses, KeepsGroups entry) :
    r.kept.metaGroup.relation = r.metaGroup.relation ∧
      r.kept.metaGroup.nodes = r.metaGroup.nodes := by
  have hparam : requestShape.lookup "meta_query" = some (true, .nullable .metaQuery) := rfl
  unfold metaGroup
  rw [isEmpty_kept (r := r) hparam]
  split
  · exact ⟨rfl, rfl⟩
  · rename_i hne
    cases hget : r.get? "meta_query" with
    | none => exact absurd (hget ▸ rfl) hne
    | some v =>
      rw [hget] at hne hkeeps
      have haccepts : Schema.metaQuery.accepts v = true := h.accepts_of_not_isEmpty hparam hget hne
      obtain ⟨kept, hkept⟩ := Schema.accepts_metaQuery_iff.1 haccepts
      have hstrip : Schema.metaQuery.strip v = kept := by
        rw [Schema.strip, hkept, Option.getD_some]
      rw [get?_kept_of_not_isEmpty hparam hget hne, hstrip]
      exact MetaGroup.nodes_ofQuery hkept hkeeps

theorem metaContribution_kept (h : r.Accepted)
    (hkeeps : ∀ entry ∈ (MetaGroup.ofQuery (r.get? "meta_query")).clauses, KeepsGroups entry)
    (zone : TimeZone) :
    (metaContribution r.kept (.standard zone)).map Contribution.node =
      (metaContribution r (.standard zone)).map Contribution.node := by
  have hkey : Param.IsTextual (r.get? "meta_key") := h.isTextual rfl
  have hagree := agreeOn_kept (r := r)
  have hkey' : r.kept.get? "meta_key" = r.get? "meta_key" := hagree "meta_key" (by decide)
  have hshorthand : r.kept.metaShorthand = r.metaShorthand := by
    unfold metaShorthand
    rw [hkey', hagree "meta_value" (by decide)]
  obtain ⟨hrelation, hnodes⟩ := h.metaGroup_kept hkeeps
  rw [metaContribution_eq zone (hkey' ▸ hkey), metaContribution_eq zone hkey, MetaGroup.compile_eq,
    MetaGroup.compile_eq, hrelation, hshorthand]
  have hall : ((r.metaShorthand ++ r.kept.metaGroup.clauses).map MetaEntry.ofValue).map
      MetaEntry.node =
        ((r.metaShorthand ++ r.metaGroup.clauses).map MetaEntry.ofValue).map MetaEntry.node := by
    simp only [List.map_append, List.map_map]
    exact congrArg _ hnodes
  rw [MetaGroup.entry, MetaGroup.entry, MetaEntry.node, MetaEntry.node,
    MetaEntry.nodes_congr hall]

theorem query_kept (h : r.Accepted) (options : SearchOptions) :
    r.kept.normalize.query options = r.normalize.query options := by
  have hparam : requestShape.lookup "search_fields" = some (true, .nullable .searchSelection) := rfl
  have hwords : r.kept.get? "search" = r.get? "search" := agreeOn_kept (r := r) "search" (by decide)
  have hselection : searchFields
      (if Param.isEmpty (r.kept.get? "search_fields") then none else r.kept.get? "search_fields")
      options.defaultFields =
    searchFields (if Param.isEmpty (r.get? "search_fields") then none else r.get? "search_fields")
      options.defaultFields := by
    rw [isEmpty_kept (r := r) hparam]
    split
    · rfl
    · rename_i hne
      cases hget : r.get? "search_fields" with
      | none => exact absurd (hget ▸ rfl) hne
      | some v =>
        rw [hget] at hne
        have haccepts : Schema.searchSelection.accepts v = true :=
          h.accepts_of_not_isEmpty hparam hget hne
        rw [get?_kept_of_not_isEmpty hparam hget hne, searchFields_strip haccepts]
  unfold query searchQuery
  rw [get?_normalize r.kept (by decide) (by decide), get?_normalize r.kept (by decide) (by decide),
    get?_normalize r (by decide) (by decide), get?_normalize r (by decide) (by decide), hwords]
  dsimp only
  rw [hselection]

/-- What is kept of a request compiles as the request does. -/
theorem compiled_kept (h : r.Accepted)
    (hkeeps : ∀ entry ∈ (MetaGroup.ofQuery (r.get? "meta_query")).clauses, KeepsGroups entry)
    (settings : Fields) (zone : TimeZone) :
    (r.kept.compile (.ofSettings settings zone)).map (·.compiled) =
      (r.compile (.ofSettings settings zone)).map (·.compiled) := by
  have hagree := agreeOn_kept (r := r)
  have hnodes : ∀ f ∈ filters, (f.contribution r.kept (.standard zone)).map Contribution.node =
      (f.contribution r (.standard zone)).map Contribution.node := by
    intro f hf
    have hflat := flat_of_mem f hf
    cases f with
    | dimension | parent | status =>
      rw [Filter.contribution_congr _ _ (hagree.mono (hflat rfl))]
    | date => exact h.dateContribution_kept zone
    | metadata => exact h.metaContribution_kept hkeeps zone
  rw [map_compiled, map_compiled, sort_congr (hagree.mono (by decide)),
    window_congr (hagree.mono (by decide)), idsOnly_congr (hagree.mono (by decide)),
    h.query_kept]
  -- the parts come in the same order, so that only the nodes are left to compare
  refine congrArg (r.normalize.sort >>= ·) (funext fun sort => ?_)
  exact congrArg (· >>= _) (mapM_congr_of_forall hnodes)

end Accepted

end Request

/-! ### The compiling tool -/

namespace Work

/-- Two requests that compile alike with all settings, and both search for something or neither, do
the same in a session. -/
theorem run_compiled_congr {r r' : Request} {options : Fields → CompileOptions}
    (hcompiled : ∀ settings, (r.compile (options settings)).map (·.compiled) =
      (r'.compile (options settings)).map (·.compiled))
    (hsearch : Param.isEmpty (r.get? "search") = Param.isEmpty (r'.get? "search")) (s : Session) :
    (do return (← compile r options).compiled : Work Compiled).run.run s =
      (do return (← compile r' options).compiled : Work Compiled).run.run s := by
  have hequal := hcompiled s.querySettings
  have hrun (r : Request) : (do return (← compile r options).compiled : Work Compiled).run.run s =
      match (r.compile (options s.querySettings)).map (·.compiled) with
      | .error e => (.error e, { s with settings := s.querySettings })
      | .ok compiled => (.ok compiled, { s with
          settings := s.querySettings
          events := s.events ++ [.compiled compiled.filters.length compiled.window compiled.sort
            (!Param.isEmpty (r.get? "search"))] }) := by
    unfold compile
    rw [bind_assoc, run_bind_of_ok (run_querySettings s)]
    cases r.compile (options s.querySettings) <;> rfl
  rw [hrun, hrun, hequal, hsearch]

end Work

/-- The compiling tool does what the compilation of its arguments does, with the same result or
fault and the same session left, if validation takes no group of the metadata query for a clause. -/
theorem run_compileTool_eq {fields r : Fields}
    (h : Tool.compileQuery.accept (some (.object fields)) = .ok r)
    (hkeeps : ∀ entry ∈ (MetaGroup.ofQuery (fields.get? "meta_query")).clauses, KeepsGroups entry)
    (s : Session) : (Work.compileTool (some (.object fields))).run.run s =
      (do return (← Work.compile fields (.ofSettings · s.platform.zone)).compiled :
        Work Compiled).run.run s := by
  obtain ⟨_, heq, haccepts, rfl⟩ := exists_fields_of_accept h
  obtain rfl := Value.object.inj heq
  have haccepted : Request.Accepted fields := haccepts
  rw [Work.run_compileTool_eq_compile h]
  exact Work.run_compiled_congr (haccepted.compiled_kept hkeeps · s.platform.zone)
    (congrArg Param.isEmpty (Request.agreeOn_kept (r := fields) "search" (by decide))) s

theorem run_compileTool_eq_nested :
    let fields : Fields := [("unknown", .null), ("meta_query", .list
      [.object [("relation", .text "or"), ("clauses", .list
        [.object [("key", .text "color"), ("note", .number (.finite 1))]])]])]
    ∃ r, Tool.compileQuery.accept (some (.object fields)) = .ok r ∧
      (∀ entry ∈ (MetaGroup.ofQuery (fields.get? "meta_query")).clauses, KeepsGroups entry) ∧
      (Work.compileTool (some (.object fields))).run.run {} =
        (do return (← Work.compile fields (.ofSettings · .universal)).compiled :
          Work Compiled).run.run {} := by
  intro fields
  have haccept : Tool.compileQuery.accept (some (.object fields)) = .ok
      [("meta_query", .list [.object [("relation", .text "or"), ("clauses", .list
        [.object [("key", .text "color")]])]])] := rfl
  have hkeeps : ∀ entry ∈ (MetaGroup.ofQuery (fields.get? "meta_query")).clauses,
      KeepsGroups entry := by
    refine List.forall_mem_singleton.2 (.group rfl rfl ?_)
    exact List.forall_mem_singleton.2 (.clause nofun)
  exact ⟨_, haccept, hkeeps, run_compileTool_eq haccept hkeeps {}⟩

/-- A group with a relation that is null is kept as a clause without entries: the tool compiles no
filter where the request has one. -/
theorem compileTool_lost_group :
    let fields : Fields := [("meta_query", .list
      [.object [("relation", .null), ("clauses", .list
        [.object [("key", .text "color"), ("value", .text "red")]])]])]
    ((Work.compileTool (some (.object fields))).run.run {}).1.map (·.filters) = .ok [] ∧
      ((Work.compile fields (.ofSettings ·)).run.run {}).1.map (·.compiled.filters) =
        .ok [.must [.must [.term "meta.color.raw" (.text "red")]]] := by
  intro fields
  have haccept : Tool.compileQuery.accept (some (.object fields)) = .ok
      [("meta_query", .list [.object []])] := rfl
  rw [Work.run_compileTool haccept, Work.run_compile]
  -- the filters do not depend on the settings
  generalize Session.querySettings {} = settings
  exact ⟨rfl, rfl⟩

end CommentSearch
