import CommentSearch.Proofs.KeptKeywords
import CommentSearch.Proofs.WidenedStatus

/-!
# Requests with recased keywords

A request is accepted in any case of its keywords, and what validation keeps of it is in the same
case (`Recased.accepted`, `Recased.fields_kept`). So the case of keywords changes nothing: neither
what a request compiles to, nor what the compiling tool answers (`compileTool_recased`).
-/

namespace CommentSearch

/-! ### Requests -/

/-- A request in another case: its order, and the keywords of its metadata query and of its date
query. -/
structure Request.Recased (r r' : Request) : Prop where
  fields : Fields.Recased ["order"] ["meta_query", "date_query"] r r'
  metadata : Option.Rel MetaGroup.Recased (r.get? "meta_query") (r'.get? "meta_query")
  dates : Option.Rel DateFilter.Recased (r.get? "date_query") (r'.get? "date_query")

/-- The parameters that have keywords, with their schemas. -/
theorem filter_requestShape : (requestShape.filter fun part =>
    part.1 ∈ ["order", "meta_query", "date_query"]) =
      [("order", true, .nullable .text), ("meta_query", true, .nullable .metaQuery),
        ("date_query", true, .nullable .dateQuery)] := rfl

theorem mem_of_mem_requestShape {part : String × Bool × Schema} (h : part ∈ requestShape)
    (hname : part.1 ∈ ["order", "meta_query", "date_query"]) :
    part = ("order", true, .nullable .text) ∨ part = ("meta_query", true, .nullable .metaQuery) ∨
      part = ("date_query", true, .nullable .dateQuery) := by
  have hmem : part ∈ requestShape.filter fun part =>
      part.1 ∈ ["order", "meta_query", "date_query"] :=
    List.mem_filter.2 ⟨h, by simpa using hname⟩
  rw [filter_requestShape] at hmem
  simpa using hmem

namespace Request

variable {r r' : Request}

/-- A request is accepted in any case of its keywords. -/
theorem Recased.accepted (h : Recased r r') (hr : r.Accepted) : r'.Accepted := by
  obtain ⟨_, heq, hfields⟩ := Schema.accepts_object_iff.1 hr
  obtain rfl := Value.object.inj heq
  refine Schema.accepts_object_iff.2 ⟨r', rfl, hfields.recased h.fields ?_ ?_⟩
  · intro part hpart hkeyword v w hrecased
    rcases mem_of_mem_requestShape hpart (List.mem_append_left _ hkeyword) with
      rfl | rfl | rfl
    · refine Schema.accepts_nullable_imp ?_ hrecased.accepts_text
      rintro rfl
      cases hrecased
      rfl
    · exact absurd hkeyword (by decide)
    · exact absurd hkeyword (by decide)
  · intro part hpart hother
    rcases mem_of_mem_requestShape hpart (List.mem_cons_of_mem _ hother) with rfl | rfl | rfl
    · exact absurd hother (by decide)
    · exact rel_imp h.metadata fun v w hrecased =>
        Schema.accepts_nullable_imp hrecased.eq_null hrecased.accepts
    · exact rel_imp h.dates fun v w hrecased =>
        Schema.accepts_nullable_imp hrecased.eq_null hrecased.accepts

/-- What validation keeps of a request is in its case, and so is what it keeps of the metadata
query. -/
theorem Recased.fields_kept (h : Recased r r') :
    Fields.Recased ["order"] ["meta_query", "date_query"] r.kept r'.kept :=
  stripFields_recased nodup_requestShape h.fields (by decide)

theorem Recased.rel_kept (h : Recased r r') :
    Option.Rel MetaGroup.Recased (r.kept.get? "meta_query") (r'.kept.get? "meta_query") := by
  have hmem : ("meta_query", true, Schema.nullable .metaQuery) ∈ requestShape := by
    simp [requestShape, Tool.requestParameters, Tool.requestParameter]
  rw [get?_kept hmem, get?_kept hmem]
  exact rel_map h.metadata fun v w hrecased => hrecased.strip

/-! ### Compilation -/

/-- The filters that ask nobody read no parameter that has keywords. -/
theorem notMem_keywords_of_mem : ∀ f ∈ filters, f.asks = false → ∀ name ∈ f.parameters,
    name ∉ ["order"] ∧ name ∉ ["meta_query", "date_query"] := by
  decide

section

variable (hfields : Fields.Recased ["order"] ["meta_query", "date_query"] r r')

include hfields

/-- A request has the same sort in any case of its order. -/
theorem sort_recased : r.normalize.sort = r'.normalize.sort := by
  have horder := (hfields.recased "order" (by decide)).ofParam_eq
  have hagree : Fields.AgreeOn ["orderby", "order_by", "meta_key"] r r' :=
    hfields.agreeOn (by decide)
  have horderby := hagree "orderby" (by decide)
  have hsecond := hagree "order_by" (by decide)
  have hkey := hagree "meta_key" (by decide)
  rw [sort_eq, sort_eq]
  unfold SortClause.resolve
  simp only [fieldOf, Value.get?_object, get?_normalize_orderby]
  rw [get?_normalize r (by decide) (by decide), get?_normalize r (by decide) (by decide),
    get?_normalize r' (by decide) (by decide), get?_normalize r' (by decide) (by decide), horder,
    horderby, hsecond, hkey]

/-- The metadata filter has the same node in any case of the metadata query. -/
theorem metaContribution_recased (zone : TimeZone) (hkey : Param.IsTextual (r.get? "meta_key"))
    (hmetadata : Option.Rel MetaGroup.Recased (r.get? "meta_query") (r'.get? "meta_query")) :
    (metaContribution r (.standard zone)).map Contribution.node =
      (metaContribution r' (.standard zone)).map Contribution.node := by
  have hagree : Fields.AgreeOn ["meta_key", "meta_value"] r r' := hfields.agreeOn (by decide)
  have hshorthand : r.metaShorthand = r'.metaShorthand := by
    unfold metaShorthand
    rw [hagree "meta_key" (by decide), hagree "meta_value" (by decide)]
  obtain ⟨hrelation, hnodes⟩ : Param.Recased r.metaGroup.relation r'.metaGroup.relation ∧
      r.metaGroup.nodes = r'.metaGroup.nodes := by
    unfold metaGroup
    generalize r.get? "meta_query" = p at hmetadata
    generalize r'.get? "meta_query" = p' at hmetadata
    cases hmetadata with
    | none => exact ⟨.none, rfl⟩
    | some recased =>
      rw [recased.isEmpty_eq]
      split
      · exact ⟨.none, rfl⟩
      · exact recased.ofQuery
  have hall : ((r.metaShorthand ++ r.metaGroup.clauses).map MetaEntry.ofValue).map
      MetaEntry.node =
        ((r'.metaShorthand ++ r'.metaGroup.clauses).map MetaEntry.ofValue).map MetaEntry.node := by
    rw [hshorthand]
    simp only [List.map_append, List.map_map]
    exact congrArg _ hnodes
  rw [metaContribution_eq zone hkey,
    metaContribution_eq zone (hagree "meta_key" (by decide) ▸ hkey),
    MetaGroup.compile_eq, MetaGroup.compile_eq]
  exact MetaEntry.node_group_congr hrelation hall

/-- Requests compile alike if they are the same but for the case of their keywords, where the date
filter has the same node. -/
theorem compiled_recased {zone : TimeZone} (hkey : Param.IsTextual (r.get? "meta_key"))
    (hmetadata : Option.Rel MetaGroup.Recased (r.get? "meta_query") (r'.get? "meta_query"))
    (hdates : (dateContribution r (.standard zone)).map Contribution.node =
      (dateContribution r' (.standard zone)).map Contribution.node) (settings : Fields) :
    (r.compile (.ofSettings settings zone)).map (·.compiled) =
      (r'.compile (.ofSettings settings zone)).map (·.compiled) := by
  have hnodes : ∀ f ∈ filters, (f.contribution r (.standard zone)).map Contribution.node =
      (f.contribution r' (.standard zone)).map Contribution.node := by
    intro f hf
    have hplain := notMem_keywords_of_mem f hf
    cases f with
    | dimension | parent | status =>
      rw [Filter.contribution_congr _ _ (hfields.agreeOn (hplain rfl))]
    | date => exact hdates
    | metadata => exact metaContribution_recased hfields zone hkey hmetadata
  rw [map_compiled, map_compiled, sort_recased hfields,
    window_congr (hfields.agreeOn (by decide)), idsOnly_congr (hfields.agreeOn (by decide)),
    query_congr (hfields.agreeOn (by decide))]
  refine congrArg (r'.normalize.sort >>= ·) (funext fun sort => ?_)
  exact congrArg (· >>= _) (mapM_congr_of_forall hnodes)

end

theorem Recased.dateContribution_eq (h : Recased r r') (zone : TimeZone) :
    (dateContribution r (.standard zone)).map Contribution.node =
      (dateContribution r' (.standard zone)).map Contribution.node := by
  have hdates := h.dates
  unfold dateContribution
  generalize r.get? "date_query" = p at hdates
  generalize r'.get? "date_query" = p' at hdates
  cases hdates with
  | none => rfl
  | @some query query' recased =>
    dsimp only
    rw [recased.isEmpty_eq]
    split
    · rfl
    · rw [Collaborators.map_node_ask, Collaborators.map_node_ask]
      exact congrArg (Except.map DateFilter.all) (DateFilter.compile_recased zone recased)

/-- An accepted request compiles alike in any case of its keywords, as it stands and as validation
keeps it. -/
theorem Recased.compiled_eq (h : Recased r r') (hr : r.Accepted) (settings : Fields)
    (zone : TimeZone) :
    (r.compile (.ofSettings settings zone)).map (·.compiled) =
        (r'.compile (.ofSettings settings zone)).map (·.compiled) ∧
      (r.kept.compile (.ofSettings settings zone)).map (·.compiled) =
        (r'.kept.compile (.ofSettings settings zone)).map (·.compiled) := by
  have hr' := h.accepted hr
  have hkept : r.kept.Accepted := accepted_of_accept (accept_of_accepted hr)
  refine ⟨compiled_recased h.fields (hr.isTextual rfl) h.metadata
      (h.dateContribution_eq zone) settings,
    compiled_recased h.fields_kept (hkept.isTextual rfl) h.rel_kept ?_ settings⟩
  rw [hr.dateContribution_kept, hr'.dateContribution_kept, h.dateContribution_eq]

end Request

/-- The case of keywords changes neither what an accepted request compiles to, in any time zone, nor
what the compiling tool answers, and the tool answers it by a compiled request. -/
theorem compileTool_recased {fields fields' r : Fields}
    (h : Tool.compileQuery.accept (some (.object fields)) = .ok r)
    (hrecased : Request.Recased fields fields') :
    (∀ settings zone, (Request.compile fields (.ofSettings settings zone)).map (·.compiled) =
      (Request.compile fields' (.ofSettings settings zone)).map (·.compiled)) ∧
    ∀ s, (∃ compiled, ((Work.compileTool (some (.object fields))).run.run s).1 = .ok compiled) ∧
      (Work.compileTool (some (.object fields))).run.run s =
        (Work.compileTool (some (.object fields'))).run.run s := by
  obtain ⟨_, heq, haccepts, rfl⟩ := exists_fields_of_accept h
  obtain rfl := Value.object.inj heq
  have hr : Request.Accepted fields := haccepts
  have haccept' := Request.accept_of_accepted (hrecased.accepted hr)
  refine ⟨fun settings zone => (hrecased.compiled_eq hr settings zone).1, fun s => ⟨?_, ?_⟩⟩
  · obtain ⟨compiled, hcompiled, -⟩ := compileTool_wellFormed h s
    exact ⟨compiled, hcompiled⟩
  · have hsearch := hrecased.fields_kept.same "search" (by decide) (by decide)
    rw [Work.run_compileTool_eq_compile h, Work.run_compileTool_eq_compile haccept']
    exact Work.run_compiled_congr (fun settings => (hrecased.compiled_eq hr settings _).2)
      (congrArg Param.isEmpty hsearch) s

/-- A request with keywords in all places, in two cases. -/
theorem compileTool_recased_nested :
    let fields : Fields := [("order", .text "asc"),
      ("meta_query", .object [("relation", .text "or"), ("clauses", .list
        [.object [("key", .text "color"), ("compare", .text "not exists")],
          .object [("relation", .text "and"), ("clauses", .list
            [.object [("key", .text "size"), ("type", .text "numeric")]])]])]),
      ("date_query", .object [("relation", .text "or"), ("clauses", .list
        [.object [("year", .text "2024")]])])]
    let fields' : Fields := [("order", .text "Asc"),
      ("meta_query", .object [("relation", .text "OR"), ("clauses", .list
        [.object [("key", .text "color"), ("compare", .text "NOT Exists")],
          .object [("relation", .text "AND"), ("clauses", .list
            [.object [("key", .text "size"), ("type", .text "Numeric")]])]])]),
      ("date_query", .object [("relation", .text "oR"), ("clauses", .list
        [.object [("year", .text "2024")]])])]
    ∃ r, Tool.compileQuery.accept (some (.object fields)) = .ok r ∧
      Request.Recased fields fields' ∧ ∃ compiled,
        ((Work.compileTool (some (.object fields))).run.run {}).1 = .ok compiled ∧
        ((Work.compileTool (some (.object fields'))).run.run {}).1 = .ok compiled := by
  intro fields fields'
  have haccepted : Request.Accepted fields := by
    unfold Request.Accepted
    decide
  have hcolor : MetaEntry.Recased
      (.object [("key", .text "color"), ("compare", .text "not exists")])
      (.object [("key", .text "color"), ("compare", .text "NOT Exists")]) := by
    refine .clause (.cons_same (.cons_keyword (.refl ..) ?_ ?_) _ _)
    · decide
    · decide
  have hsize : MetaEntry.Recased (.object [("key", .text "size"), ("type", .text "numeric")])
      (.object [("key", .text "size"), ("type", .text "Numeric")]) := by
    refine .clause (.cons_same (.cons_keyword (.refl ..) ?_ ?_) _ _)
    · decide
    · decide
  have hrecased : Request.Recased fields fields' := by
    refine ⟨?_, .some (.entry ?_), .some (.object ?_)⟩
    · refine .cons_keyword (.cons_other (.cons_other (.refl ..) ?_ ?_ _ _) ?_ ?_ _ _) ?_ ?_ <;>
        decide
    · refine .group rfl rfl (.cons hcolor (.cons (.group rfl rfl (.cons hsize .nil) ?_) .nil)) ?_
      · refine .cons_keyword (.cons_other (.refl ..) ?_ ?_ _ _) ?_ ?_ <;> decide
      · refine .cons_keyword (.cons_other (.refl ..) ?_ ?_ _ _) ?_ ?_ <;> decide
    · refine .cons_keyword (.cons_same (.refl ..) _ _) ?_ ?_ <;> decide
  have haccept := Request.accept_of_accepted haccepted
  obtain ⟨⟨compiled, hcompiled⟩, heq⟩ := (compileTool_recased haccept hrecased).2 {}
  exact ⟨_, haccept, hrecased, compiled, hcompiled, heq ▸ hcompiled⟩

end CommentSearch
