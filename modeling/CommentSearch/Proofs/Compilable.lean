import CommentSearch.Proofs.Decomposition
import CommentSearch.Proofs.ReadableDates
import CommentSearch.Proofs.ReadableMeta
import CommentSearch.Proofs.Session

/-!
# Which requests compile

A request that has not been validated compiles exactly where its parts can be read
(`exists_compilation_iff`): most parameters are skipped or coerced whatever they are, and
`Request.IsCompilable` names those that are not. A null end of a date clause is one that stops the
compilation (`compile_null_end`).
-/

namespace CommentSearch

/-! ### The filters -/

theorem exists_dimension_contribution_iff {d : Dimension} {r : Request} {c : Collaborators} :
    (∃ contribution, (Filter.dimension d).contribution r c = .ok contribution) ↔
      (d.TakesScalar → Param.GivesScalar (r.get? d.param)) := by
  rw [← d.exists_node_iff]
  exact exists_bind_pure_eq_ok_iff

theorem exists_parent_contribution {d : Dimension} (h : d.integer = true) (r : Request)
    (c : Collaborators) :
    ∃ contribution, (Filter.parent d).contribution r c = .ok contribution := by
  have hnode : ∃ node, d.node (effectiveParent r) = .ok node := by
    rw [d.exists_node_iff]
    rintro ⟨-, hinteger⟩
    rw [h] at hinteger
    cases hinteger
  exact exists_bind_pure_eq_ok_iff.2 hnode

theorem exists_dateContribution_iff {r : Request} {zone : TimeZone} :
    (∃ contribution, dateContribution r (.standard zone) = .ok contribution) ↔
      Param.EmptyOr DateFilter.IsReadable (r.get? "date_query") := by
  unfold dateContribution
  cases r.get? "date_query" with
  | none => exact iff_of_true ⟨{}, rfl⟩ (.inl rfl)
  | some query =>
    dsimp only
    split
    · rename_i hempty
      exact iff_of_true ⟨{}, rfl⟩ (.inl hempty)
    · rename_i hne
      rw [Collaborators.exists_ask_iff, Param.emptyOr_some_iff hne,
        ← DateFilter.exists_compile_iff (Param.ne_null_of_not_isEmpty hne)]
      exact exists_map_eq_ok_iff

/-- The metadata query of a request, from the clause of its key and from `meta_query`. -/
theorem collectMetaQuery_bind (r : Request) : collectMetaQuery r =
    (if Param.isEmpty (r.get? "meta_key") then pure [] else
      textForm (r.get? "meta_key") >>= fun key =>
        pure [Value.object (("key", .text key) :: match r.get? "meta_value" with
          | some .null | none => []
          | some v => [("value", v)])]) >>= fun shorthand =>
    (if Param.isEmpty (r.get? "meta_query") then pure ⟨none, []⟩
      else MetaGroup.ofGroupForm (MetaGroup.groupForm (r.get? "meta_query"))) >>= fun group =>
    pure (if (shorthand ++ group.clauses).isEmpty then none
      else some ⟨group.relation, shorthand ++ group.clauses⟩) := by
  unfold collectMetaQuery
  dsimp only
  -- once it is known which parameters are empty, both sides are the same computation
  cases Param.isEmpty (r.get? "meta_key") <;> cases Param.isEmpty (r.get? "meta_query") <;>
    cases textForm (r.get? "meta_key") <;> rfl

/-- The metadata query of a request is put together as soon as its key has a text form. -/
theorem exists_collectMetaQuery_iff {r : Request} :
    (∃ query, collectMetaQuery r = .ok query) ↔ Param.HasForm (r.get? "meta_key") := by
  have hgroup : ∃ group, (if Param.isEmpty (r.get? "meta_query") then pure ⟨none, []⟩
      else MetaGroup.ofGroupForm (MetaGroup.groupForm (r.get? "meta_query")) :
        Except Fault MetaGroup) = .ok group := by
    split
    · exact ⟨_, rfl⟩
    · rename_i hne
      cases hget : r.get? "meta_query" with
      | none =>
        rw [hget] at hne
        exact absurd rfl hne
      | some v =>
        rw [hget] at hne
        exact ⟨_, MetaGroup.ofGroupForm_groupForm (Param.ne_null_of_not_isEmpty hne)⟩
  rw [collectMetaQuery_bind, exists_bind_bind_eq_ok_iff, and_iff_left hgroup]
  split
  · rename_i hempty
    exact iff_of_true ⟨[], rfl⟩ (Param.hasForm_of_isEmpty hempty)
  · rw [exists_bind_pure_eq_ok_iff, Param.exists_textForm_iff]

theorem exists_metaContribution_iff {r : Request} {zone : TimeZone} :
    (∃ contribution, metaContribution r (.standard zone) = .ok contribution) ↔
      Param.HasForm (r.get? "meta_key") ∧
        ∀ g, collectMetaQuery r = .ok (some g) → g.entry.IsReadable := by
  rw [← exists_collectMetaQuery_iff]
  unfold metaContribution
  rw [exists_bind_eq_ok_iff]
  have hnode (g : MetaGroup) :
      (∃ contribution, (Collaborators.standard zone).ask (.metaQuery g) = .ok contribution) ↔
        g.entry.IsReadable := by
    rw [Collaborators.exists_ask_iff, ← MetaEntry.exists_node_iff, ← MetaGroup.compile_eq]
    rfl
  constructor
  · rintro ⟨query, hquery, hcontribution⟩
    refine ⟨⟨query, hquery⟩, fun g hg => (hnode g).1 ?_⟩
    obtain rfl : query = some g := Except.ok.inj (hquery.symm.trans hg)
    exact hcontribution
  · rintro ⟨⟨query, hquery⟩, hreadable⟩
    refine ⟨query, hquery, ?_⟩
    cases query with
    | none => exact ⟨{}, rfl⟩
    | some g => exact (hnode g).2 (hreadable g hquery)

namespace Request

/-- A request whose parts can be read: what is read by its text form has one, the metadata and the
date query are readable, and so is the selection of search fields if there is something to search
for. -/
structure IsCompilable (r : Request) : Prop where
  sortKey : Param.HasForm (r.normalize.get? "orderby")
  metaKey : Param.HasForm (r.get? "meta_key")
  scalars : ∀ name ∈ scalarParameters, Param.GivesScalar (r.get? name)
  metadata : ∀ g, collectMetaQuery r = .ok (some g) → g.entry.IsReadable
  dates : Param.EmptyOr DateFilter.IsReadable (r.get? "date_query")
  words : Param.HasForm (r.get? "search")
  selection : Param.isEmpty (r.get? "search") = true ∨
    Param.EmptyOr IsReadableSelection (r.get? "search_fields")

variable {r : Request}

theorem exists_sort_iff (hkey : Param.HasForm (r.get? "meta_key")) :
    (∃ clauses, r.sort = .ok clauses) ↔ Param.HasForm (r.get? "orderby") := by
  have hresolve (sortKey : String) (order : Value) :
      ∃ clauses, SortClause.resolve sortKey order (some (.object r)) = .ok clauses := by
    unfold SortClause.resolve
    split
    · exact ⟨[], rfl⟩
    · split
      · exact ⟨_, rfl⟩
      · split
        · exact ⟨_, rfl⟩
        · obtain ⟨key, hform⟩ := Param.exists_textForm_iff.2 hkey
          change ∃ clauses, (if Param.isEmpty (r.get? "meta_key") then pure []
            else textForm (r.get? "meta_key") >>= fun key => pure _) = .ok clauses
          rw [hform]
          split <;> exact ⟨_, rfl⟩
  have hsortKey : (∃ sortKey, (if Param.isEmpty (r.get? "orderby") then pure defaultSortAlias
      else textForm (r.get? "orderby") : Except Fault String) = .ok sortKey) ↔
        Param.HasForm (r.get? "orderby") := by
    split
    · rename_i hempty
      exact iff_of_true ⟨_, rfl⟩ (Param.hasForm_of_isEmpty hempty)
    · exact Param.exists_textForm_iff
  rw [sort_eq, exists_bind_eq_ok_iff, ← hsortKey]
  exact exists_congr fun sortKey => and_iff_left (hresolve sortKey _)

/-- The table has a dimension that takes a scalar for each of the parameters that are to be scalars
only. -/
theorem exists_scalar_dimension {name : String} (h : name ∈ scalarParameters) :
    ∃ d, .dimension d ∈ filters ∧ d.TakesScalar ∧ d.param = name := by
  have hany : ∀ name ∈ scalarParameters, filters.any fun f => match f with
      | .dimension d => d.shape = .one && d.integer = false && d.param = name
      | _ => false := by
    decide
  obtain ⟨f, hf, hdimension⟩ := List.any_eq_true.1 (hany name h)
  cases f with
  | dimension d =>
    simp only [Bool.and_eq_true, decide_eq_true_eq] at hdimension
    exact ⟨d, hf, hdimension.1, hdimension.2⟩
  | parent | status | date | metadata => cases hdimension

theorem exists_contributions_iff {zone : TimeZone} :
    (∃ contributions, r.contributions (.standard zone) = .ok contributions) ↔
      (∀ name ∈ scalarParameters, Param.GivesScalar (r.get? name)) ∧
      Param.HasForm (r.get? "meta_key") ∧
      (∀ g, collectMetaQuery r = .ok (some g) → g.entry.IsReadable) ∧
      Param.EmptyOr DateFilter.IsReadable (r.get? "date_query") := by
  unfold contributions
  rw [exists_mapM_eq_ok_iff]
  constructor
  · intro h
    obtain ⟨hkey, hmetadata⟩ := exists_metaContribution_iff.1 (h .metadata (by simp [filters]))
    refine ⟨fun name hname => ?_, hkey, hmetadata,
      exists_dateContribution_iff.1 (h .date (by simp [filters]))⟩
    obtain ⟨d, hd, hscalar, rfl⟩ := exists_scalar_dimension hname
    exact exists_dimension_contribution_iff.1 (h _ hd) hscalar
  · rintro ⟨hscalars, hkey, hmetadata, hdates⟩ f hf
    have hreads := readsScalars_of_mem f hf
    cases f with
    | dimension d =>
      refine exists_dimension_contribution_iff.2 fun ⟨hshape, hinteger⟩ => hscalars _ ?_
      simpa [Filter.readsScalars, hshape, hinteger] using hreads
    | parent d => exact exists_parent_contribution hreads r _
    | status => exact ⟨_, rfl⟩
    | date => exact exists_dateContribution_iff.2 hdates
    | metadata => exact exists_metaContribution_iff.2 ⟨hkey, hmetadata⟩

/-- The fields of a search can be read where the selection can, since the default fields are a list
of texts whatever the settings are. -/
theorem exists_requestFields_iff (selection : Param) (settings : Fields) :
    (∃ fields, searchFields (if Param.isEmpty selection then none else selection)
      (SearchOptions.ofSettings settings).defaultFields = .ok fields) ↔
      Param.EmptyOr IsReadableSelection selection := by
  cases selection with
  | none => exact iff_of_true ⟨_, rfl⟩ (.inl rfl)
  | some v =>
    split
    · rename_i hempty
      exact iff_of_true ⟨_, rfl⟩ (.inl hempty)
    · rename_i hne
      rw [Param.emptyOr_some_iff hne]
      exact exists_searchFields_iff (Param.ne_null_of_not_isEmpty hne) _

theorem exists_query_iff (settings : Fields) :
    (∃ q, r.query (.ofSettings settings) = .ok q) ↔ Param.HasForm (r.get? "search") ∧
      (Param.isEmpty (r.get? "search") = true ∨
        Param.EmptyOr IsReadableSelection (r.get? "search_fields")) := by
  unfold query
  dsimp only
  split
  · rename_i hempty
    exact iff_of_true ⟨_, rfl⟩ ⟨Param.hasForm_of_isEmpty hempty, .inl hempty⟩
  · rename_i hne
    have hscored (words : String) :
        (∃ q, searchQuery (.text words) (if Param.isEmpty (r.get? "search_fields") then none
          else r.get? "search_fields") (.ofSettings settings) = .ok q) ↔
          Param.EmptyOr IsReadableSelection (r.get? "search_fields") :=
      exists_bind_pure_eq_ok_iff.trans (exists_requestFields_iff _ settings)
    rw [exists_bind_eq_ok_iff, ← Param.exists_textForm_iff, ← exists_and_right]
    refine exists_congr fun words => and_congr_right fun _ => ?_
    exact (hscored words).trans ⟨.inr, fun h => h.resolve_left hne⟩

theorem exists_compile_ofSettings_iff (settings : Fields) (zone : TimeZone) :
    (∃ c, r.compile (.ofSettings settings zone) = .ok c) ↔ r.IsCompilable := by
  have hparts : (∃ c, r.compile (.ofSettings settings zone) = .ok c) ↔
      (∃ clauses, r.normalize.sort = .ok clauses) ∧
        (∃ contributions, r.contributions (.standard zone) = .ok contributions) ∧
          ∃ q, r.normalize.query (.ofSettings settings) = .ok q := by
    rw [compile_eq, exists_bind_eq_ok_iff, ← exists_and_right]
    exact exists_congr fun clauses => and_congr_right fun _ => exists_bind_bind_eq_ok_iff
  have hmetaKey : Fields.get? r.normalize "meta_key" = r.get? "meta_key" :=
    get?_normalize r (by decide) (by decide)
  have hwords : Fields.get? r.normalize "search" = r.get? "search" :=
    get?_normalize r (by decide) (by decide)
  have hselection : Fields.get? r.normalize "search_fields" = r.get? "search_fields" :=
    get?_normalize r (by decide) (by decide)
  rw [hparts, exists_contributions_iff, exists_query_iff, hwords, hselection]
  constructor
  · rintro ⟨hsort, ⟨hscalars, hkey, hmetadata, hdates⟩, hform, hselected⟩
    have hsortKey := (exists_sort_iff (hmetaKey ▸ hkey)).1 hsort
    exact ⟨hsortKey, hkey, hscalars, hmetadata, hdates, hform, hselected⟩
  · intro h
    refine ⟨(exists_sort_iff (hmetaKey ▸ h.metaKey)).2 h.sortKey, ?_, h.words, h.selection⟩
    exact ⟨h.scalars, h.metaKey, h.metadata, h.dates⟩

end Request

/-- A request compiles, in any session and any local time zone, exactly where its parts can be
read. -/
theorem exists_compilation_iff (r : Request) (zone : TimeZone) (s : Session) :
    (∃ c, ((Work.compile r (.ofSettings · zone)).run.run s).1 = .ok c) ↔ r.IsCompilable := by
  rw [Work.run_compile]
  exact Request.exists_compile_ofSettings_iff s.querySettings zone

/-- The compilation of a request faults on a date clause with an end that is null. -/
theorem compile_null_end :
    let r : Request := [("date_query", .list [.object [("after", .null)]])]
    ¬∃ c, ((Work.compile r (.ofSettings ·)).run.run {}).1 = .ok c := by
  intro r
  rw [Work.run_compile]
  intro h
  have hcompilable := (Request.exists_compile_ofSettings_iff _ _).1 h
  have hreadable : DateFilter.IsReadable (.list [.object [("after", .null)]]) :=
    (Param.emptyOr_some_iff (by decide)).1 hcompilable.dates
  exact (hreadable.clauses _ (List.mem_singleton_self _)).after rfl

end CommentSearch
