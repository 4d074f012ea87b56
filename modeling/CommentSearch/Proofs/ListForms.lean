import Mathlib.Data.List.Pairwise
import CommentSearch.Proofs.Decomposition
import CommentSearch.Proofs.WidenedStatus

/-!
# Two forms of a list

The statuses of comments and of posts and the types of comments are listed, or written as one text
with commas. Both forms have the same entries (`toTrimmedList_intercalate`), and the filters of the
three parameters read nothing else of a value that is not empty (`Filter.ReadsEntries`). So a
request compiles alike in both forms (`compile_set_congr`), apart from one word: where the text is
the word that switches the filter off, the list that has this word as its one item does not
(`list_forms_compile_alike`, `postStatus_forms_differ`).
-/

namespace CommentSearch

/-! ### Entries -/

/-- A text is cut at its commas into the items that it was put together from. -/
theorem splitAt_intercalate {xs : List String} (hne : xs ≠ []) (h : ∀ x ∈ xs, ',' ∉ x.toList) :
    Text.splitAt ',' (",".intercalate xs) = xs := by
  have hcomma : ",".toList = [','] := rfl
  have hplain : ∀ cs ∈ xs.map String.toList, ',' ∉ cs := by
    intro cs hcs
    obtain ⟨x, hx, rfl⟩ := List.mem_map.1 hcs
    exact h x hx
  unfold Text.splitAt
  rw [String.toList_intercalate, hcomma, List.splitOn_intercalate ',' hplain (by simpa using hne),
    List.map_map]
  simp [Function.comp_def]

/-- A list of texts and the text with commas between them have the same entries. -/
theorem toTrimmedList_intercalate {xs : List String} (hne : xs ≠ [])
    (h : ∀ x ∈ xs, ',' ∉ x.toList) :
    Param.toTrimmedList (some (.text (",".intercalate xs))) =
      Param.toTrimmedList (some (.texts xs)) := by
  have hitems : Param.toList (some (.texts xs)) = xs.map Scalar.text := by
    unfold Value.texts Param.toList
    dsimp only
    rw [List.filterMap_map]
    simp [Function.comp_def, Value.scalar?]
  have hentries : Param.toTrimmedList (some (.texts xs)) =
      (Param.toList (some (.texts xs))).map fun x => Text.trim x.toText := rfl
  have hpieces : Param.toTrimmedList (some (.text (",".intercalate xs))) =
      (Text.splitAt ',' (",".intercalate xs)).map Text.trim := rfl
  rw [hpieces, hentries, splitAt_intercalate hne h, hitems, List.map_map]
  rfl

/-! ### Filters of entries -/

/-- A filter that reads the entries of a parameter: it gives a node made from them where the
parameter is not empty, unless that is the word that switches the filter off. -/
structure Filter.ReadsEntries (f : Filter) (param : String) (word? : Option String)
    (node : Request → List String → Query) : Prop where
  mem : f ∈ filters
  param_mem : param ∈ f.parameters
  of_word : ∀ (r : Request) (c : Collaborators) (word : String), word? = some word →
    f.contribution (r.set param (.text word)) c = .ok {}
  of_entries : ∀ (r : Request) (c : Collaborators) (v : Value), Param.isEmpty (some v) = false →
    (∀ word, word? = some word → v ≠ .text word) →
    f.contribution (r.set param v) c = .ok ⟨some (node r (Param.toTrimmedList (some v))), []⟩

/-- The dimensions that compare a field with entries read them. -/
theorem readsEntries_dimension {param field : String} {placement : Placement}
    {word? : Option String}
    (hmem : .dimension ⟨param, field, .entries, placement, false, word?, false⟩ ∈ filters) :
    Filter.ReadsEntries (.dimension ⟨param, field, .entries, placement, false, word?, false⟩) param
      word? fun _ entries => placement.place (termOrTerms field (entries.map .text)) where
  mem := hmem
  param_mem := List.mem_singleton.2 rfl
  of_word r c word hword := by
    subst hword
    unfold Filter.contribution
    dsimp only
    rw [Fields.get?_set, if_pos rfl]
    simp [Dimension.node, Dimension.isActive, bind, Except.bind, pure, Except.pure]
  of_entries r c v hempty hword := by
    have hactive : Dimension.isActive ⟨param, field, .entries, placement, false, word?, false⟩ v =
        true := by
      unfold Dimension.isActive
      rw [hempty]
      cases v with
      | text s =>
        cases word? with
        | none => rfl
        | some word =>
          have hne : s ≠ word := fun heq => hword word rfl (congrArg Value.text heq)
          simp [hne]
      | null | bool | number | list | object => simp
    unfold Filter.contribution
    dsimp only
    rw [Fields.get?_set, if_pos rfl]
    unfold Dimension.node
    dsimp only
    rw [hactive]
    rfl

/-- The status filter reads entries. -/
theorem readsEntries_status : Filter.ReadsEntries .status "status" (some "all") fun r entries =>
    let clause := termOrTerms "comment_approved" (entries.map moderationStatus)
    if Param.isEmpty (r.get? "include_unapproved") then clause
    else widened clause (.ofParam (r.get? "include_unapproved")) where
  mem := by simp [filters]
  param_mem := List.mem_cons_self
  of_word r c word hword := by
    obtain rfl := Option.some.inj hword
    have hstatus : ¬Request.HasStatus (r.set "status" (.text "all")) := fun h =>
      h.2 (by rw [Fields.get?_set, if_pos rfl])
    unfold Filter.contribution
    dsimp only
    rw [Request.statusNode_of_not_hasStatus hstatus]
  of_entries r c v hempty hword := by
    have hget : Fields.get? (r.set "status" v) "status" = some v := by
      rw [Fields.get?_set, if_pos rfl]
    have hunapproved : Fields.get? (r.set "status" v) "include_unapproved" =
        Fields.get? r "include_unapproved" := by
      rw [Fields.get?_set, if_neg (by decide)]
    have hstatus : Request.HasStatus (r.set "status" v) := by
      refine ⟨by rw [hget, hempty], fun hall => ?_⟩
      rw [hget] at hall
      exact hword "all" rfl (Option.some.inj hall)
    unfold Filter.contribution
    dsimp only
    rw [Request.statusNode_of_hasStatus hstatus]
    unfold Request.statusClause
    rw [hget, hunapproved]
    split <;> rfl

/-! ### Requests that differ in one parameter -/

/-- Only one filter reads a parameter. -/
theorem eq_of_mem_parameters {f f' : Filter} (hf : f ∈ filters) (hf' : f' ∈ filters)
    {name : String} (h : name ∈ f.parameters) (h' : name ∈ f'.parameters) : f = f' := by
  by_contra hne
  have : Std.Symm fun f f' : Filter => ∀ name ∈ f.parameters, name ∉ f'.parameters :=
    ⟨fun _ _ hdisjoint name hmem hother => hdisjoint name hother hmem⟩
  exact pairwise_disjoint_filters.forall hf hf' hne name h h'

namespace Request

variable {r : Request} {name : String} {v w : Value}

theorem agreeOn_set {names : List String} (h : name ∉ names) :
    Fields.AgreeOn names (r.set name v) (r.set name w) := by
  intro other hother
  have hne : other ≠ name := by
    rintro rfl
    exact h hother
  rw [Fields.get?_set, Fields.get?_set, if_neg hne, if_neg hne]

/-- A parameter that a filter reads, and nothing besides the filters, has an influence on what that
filter contributes only. -/
theorem compile_set_congr {f : Filter} (hf : f ∈ filters) (hname : name ∈ f.parameters)
    (hframe : name ∉ windowParameters ++ sortParameters ++ queryParameters ++ projectionParameters)
    {o : CompileOptions} (h : f.contribution (r.set name v) o.collaborators =
      f.contribution (r.set name w) o.collaborators) :
    compile (r.set name v) o = compile (r.set name w) o := by
  simp only [List.mem_append, not_or] at hframe
  obtain ⟨⟨⟨hwindow, hsort⟩, hquery⟩, hprojection⟩ := hframe
  have hcontributions : contributions (r.set name v) o.collaborators =
      contributions (r.set name w) o.collaborators := by
    refine mapM_congr_of_forall fun f' hf' => ?_
    by_cases hreads : name ∈ f'.parameters
    · obtain rfl := eq_of_mem_parameters hf hf' hname hreads
      exact h
    · exact f'.contribution_congr _ (agreeOn_set hreads)
  rw [compile_eq, compile_eq, hcontributions, window_congr (agreeOn_set hwindow),
    sort_congr (agreeOn_set hsort), query_congr (agreeOn_set hquery),
    idsOnly_congr (agreeOn_set hprojection)]

end Request

/-! ### The two forms -/

/-- The parameters whose entries are listed or written as one text, with the word that switches the
filter of the parameter off. -/
def entryParameters : List (String × Option String) :=
  [("status", some "all"), ("post_status", some "any"), ("type", none)]

theorem exists_readsEntries {pair : String × Option String} (h : pair ∈ entryParameters) :
    ∃ f node, Filter.ReadsEntries f pair.1 pair.2 node := by
  simp only [entryParameters, List.mem_cons, List.not_mem_nil, or_false] at h
  rcases h with rfl | rfl | rfl
  · exact ⟨_, _, readsEntries_status⟩
  · have hmem : .dimension ⟨"post_status", "comment_post_status", .entries, .root, false,
        some "any", false⟩ ∈ filters := by
      simp [filters]
    exact ⟨_, _, readsEntries_dimension hmem⟩
  · have hmem : .dimension ⟨"type", "comment_type.raw", .entries, .root, false, none, false⟩ ∈
        filters := by
      simp [filters]
    exact ⟨_, _, readsEntries_dimension hmem⟩

theorem notMem_frame_of_mem_entryParameters : ∀ pair ∈ entryParameters, pair.1 ∉
    Request.windowParameters ++ Request.sortParameters ++ Request.queryParameters ++
      Request.projectionParameters := by
  decide

/-- A request compiles alike with a list of texts without commas and with the text that they are put
together to, if that is not empty and not the word that switches the filter off. That word gives no
node, and the list with the one item gives one. -/
theorem list_forms_compile_alike (r : Request) (o : CompileOptions) :
    ∀ pair ∈ entryParameters, ∀ xs : List String, xs ≠ [] → (∀ x ∈ xs, ',' ∉ x.toList) →
      Param.isEmpty (some (.text (",".intercalate xs))) = false →
      (pair.2 ≠ some (",".intercalate xs) →
        Request.compile (r.set pair.1 (.texts xs)) o =
          Request.compile (r.set pair.1 (.text (",".intercalate xs))) o) ∧
      (pair.2 = some (",".intercalate xs) → ∃ group ∈ parameterGroups, pair.1 ∈ group ∧
        Request.part (r.set pair.1 (.text (",".intercalate xs))) o group = .ok [] ∧
        ∃ q, Request.part (r.set pair.1 (.texts xs)) o group = .ok [q]) := by
  intro pair hpair xs hne hcomma hempty
  obtain ⟨f, node, hreads⟩ := exists_readsEntries hpair
  have hlist (c : Collaborators) : f.contribution (r.set pair.1 (.texts xs)) c =
      .ok ⟨some (node r (Param.toTrimmedList (some (.texts xs)))), []⟩ := by
    refine hreads.of_entries r c (.texts xs) ?_ fun word _ heq => nomatch heq
    simpa [Param.isEmpty, Value.texts] using hne
  constructor
  · intro hword
    refine Request.compile_set_congr hreads.mem hreads.param_mem
      (notMem_frame_of_mem_entryParameters pair hpair) ?_
    have htext := hreads.of_entries r o.collaborators (.text (",".intercalate xs)) hempty
      fun word heq hvalue => hword (by rw [heq, Value.text.inj hvalue])
    rw [hlist, htext, toTrimmedList_intercalate hne hcomma]
  · intro hword
    have hgroup : f.parameters ∈ parameterGroups := by
      rw [← map_parameters_filters]
      exact List.mem_map_of_mem hreads.mem
    refine ⟨f.parameters, hgroup, hreads.param_mem, ?_, ?_⟩
    · rw [Request.part_parameters _ _ hreads.mem, hreads.of_word r _ _ hword]
      rfl
    · rw [Request.part_parameters _ _ hreads.mem, hlist]
      exact ⟨_, rfl⟩

/-- Pingbacks and trackbacks in both forms. -/
theorem list_forms_compile_alike_type :
    Param.isEmpty (some (.text "pingback,trackback")) = false ∧
      Request.compile [("type", .texts ["pingback", "trackback"])] (.ofSettings []) =
        Request.compile [("type", .text "pingback,trackback")] (.ofSettings []) := by
  have hplain : ∀ x ∈ ["pingback", "trackback"], ',' ∉ x.toList := by decide
  exact ⟨by decide, (list_forms_compile_alike [] (.ofSettings []) ("type", none) (by decide)
    ["pingback", "trackback"] (by decide) hplain (by decide)).1 nofun⟩

/-- The word that switches the filter of the status of posts off does not do so as an item. -/
theorem postStatus_forms_differ :
    (Request.compile [("post_status", .texts ["any"])] (.ofSettings [])).map
        (·.compiled.filters) = .ok [.term "comment_post_status" (.text "any")] ∧
      (Request.compile [("post_status", .text "any")] (.ofSettings [])).map
        (·.compiled.filters) = .ok [] :=
  ⟨rfl, rfl⟩

end CommentSearch
