import CommentSearch.Proofs.MetaMeaning
import CommentSearch.Proofs.Validation
import CommentSearch.Proofs.WellFormed

/-!
# Identifiers that widen the status

The parameter `include_unapproved` has an influence on the node of the status only: a request
compiles to a frame that does not depend on it, with the node of the status in its place
(`map_compiled_eq_fill`). It leaves that node as it is, or offers the comments of its identifiers
besides, so that every comment that passes without it passes with it (`compileTool_widens`).
-/

namespace CommentSearch

/-! ### Removing a field -/

/-- The fields but those under a key. -/
def Fields.without (fields : Fields) (key : String) : Fields :=
  fields.filter fun field => field.1 != key

theorem Fields.get?_without (fields : Fields) (key name : String) :
    get? (fields.without key) name = if name = key then none else get? fields name :=
  lookup_filter_ne fields key name

/-! ### The post filter -/

namespace Compiled

/-- The node that the comments have to pass, if there is one. -/
def postFilter? (c : Compiled) : Option Query :=
  if c.filters.isEmpty then none else some (.must c.filters)

theorem get?_postFilter_eq_map (c : Compiled) :
    c.toValue.get? "post_filter" = c.postFilter?.map Query.toValue := by
  rw [get?_postFilter, postFilter?]
  cases h : c.filters with
  | nil => rfl
  | cons node nodes =>
    rw [if_neg (List.cons_ne_nil _ _), ← Query.toValues_eq]
    rfl

/-- A comment passes, if it is given which of the plain nodes hold for it. Without a post filter
all comments do. -/
def Passes (c : Compiled) (given : Query → Prop) : Prop :=
  ∀ node, c.postFilter? = some node → node.Holds given

theorem passes_iff {c : Compiled} {given : Query → Prop} :
    c.Passes given ↔ ∀ node ∈ c.filters, node.Holds given := by
  unfold Passes postFilter?
  cases h : c.filters with
  | nil => simp
  | cons node nodes =>
    rw [← Query.holds_must_iff]
    exact ⟨fun hall => hall _ rfl, fun hholds other heq => Option.some.inj heq ▸ hholds⟩

end Compiled

/-! ### The node of the status -/

namespace Request

/-- Whether a request filters by status. -/
def HasStatus (r : Request) : Prop :=
  Param.isEmpty (r.get? "status") = false ∧ r.get? "status" ≠ some (.text "all")

/-- The clause that compares the status. -/
def statusClause (r : Request) : Query :=
  termOrTerms "comment_approved" ((Param.toTrimmedList (r.get? "status")).map moderationStatus)

end Request

/-- The node that offers the comments of identifiers besides those of a clause. -/
def widened (clause : Query) (identifiers : Identifiers) : Query :=
  .should [clause, .terms "user_id" (identifiers.userIds.map .number),
    .terms "comment_author_email.raw" (identifiers.emails.map .text)]

theorem holds_widened_iff {clause : Query} {identifiers : Identifiers} {given : Query → Prop} :
    (widened clause identifiers).Holds given ↔ clause.Holds given ∨
      given (.terms "user_id" (identifiers.userIds.map .number)) ∨
      given (.terms "comment_author_email.raw" (identifiers.emails.map .text)) := by
  rw [widened, Query.holds_should_iff]
  simp [Query.Holds]

namespace Request

variable {r : Request}

theorem statusNode_of_not_hasStatus (h : ¬r.HasStatus) : statusNode r = none := by
  unfold statusNode
  refine if_pos ?_
  rw [Bool.or_eq_true]
  by_contra hactive
  rw [not_or] at hactive
  refine h ⟨Bool.eq_false_iff.2 hactive.1, fun hall => hactive.2 ?_⟩
  rw [hall]
  rfl

theorem statusNode_of_hasStatus (h : r.HasStatus) : statusNode r =
    if Param.isEmpty (r.get? "include_unapproved") then some r.statusClause
    else some (widened r.statusClause (.ofParam (r.get? "include_unapproved"))) := by
  unfold statusNode
  refine if_neg ?_
  rw [h.1, Bool.false_or]
  split
  · rename_i s hstatus
    intro hall
    exact h.2 (by rw [hstatus, of_decide_eq_true hall])
  · exact Bool.false_ne_true

end Request

/-! ### The frame of the status -/

/-- The filters before that of the status, and those after it. -/
def filtersBefore : List Filter := filters.take 23

def filtersAfter : List Filter := filters.drop 24

theorem filters_eq_append : filters = filtersBefore ++ .status :: filtersAfter := rfl

/-- The names of the parameters but for the identifiers. -/
def otherParameters : List String :=
  (requestShape.map (·.1)).filter fun name => name != "include_unapproved"

theorem mem_otherParameters : ∀ f ∈ filtersBefore ++ filtersAfter,
    ∀ name ∈ f.parameters, name ∈ otherParameters := by
  decide

/-- A compiled request but for the node of the status. -/
structure StatusFrame where
  window : Window
  sort : List SortClause
  query : Query
  idsOnly : Bool
  before : List Query
  after : List Query

/-- The compiled request with a node of the status, or with none, in its place. -/
def StatusFrame.fill (frame : StatusFrame) (node : Option Query) : Compiled where
  window := frame.window
  sort := frame.sort
  query := frame.query
  idsOnly := frame.idsOnly
  filters := frame.before ++ (node.toList ++ frame.after)

namespace Request

/-- The nodes that filters have for a request. -/
def nodes (r : Request) (c : Collaborators) (fs : List Filter) :
    Except Fault (List (Option Query)) :=
  fs.mapM fun f => (f.contribution r c).map Contribution.node

/-- The frame that a request compiles to. -/
def frame (r : Request) (o : CompileOptions) : Except Fault StatusFrame := do
  let sort ← r.normalize.sort
  let before ← r.nodes o.collaborators filtersBefore
  let after ← r.nodes o.collaborators filtersAfter
  let query ← r.normalize.query o.search
  return {
    window := r.normalize.window o.maxResultsWindow
    sort := sort
    query := query
    idsOnly := r.normalize.idsOnly
    before := before.filterMap id
    after := after.filterMap id }

/-- A request compiles to its frame with the node of its status. -/
theorem map_compiled_eq_fill (r : Request) (o : CompileOptions) :
    (r.compile o).map (·.compiled) = (r.frame o).map (·.fill (statusNode r)) := by
  have hnodes : r.nodes o.collaborators filters = do
      let before ← r.nodes o.collaborators filtersBefore
      let after ← r.nodes o.collaborators filtersAfter
      return before ++ statusNode r :: after := by
    unfold nodes
    rw [filters_eq_append, List.mapM_append, List.mapM_cons]
    cases filtersBefore.mapM fun f => (f.contribution r o.collaborators).map Contribution.node with
    | error e => rfl
    | ok before =>
      cases filtersAfter.mapM fun f =>
        (f.contribution r o.collaborators).map Contribution.node <;> rfl
  rw [map_compiled]
  change (r.normalize.sort >>= fun sort => r.nodes o.collaborators filters >>= _) = _
  rw [hnodes]
  unfold frame
  cases r.normalize.sort with
  | error e => rfl
  | ok sort =>
    cases r.nodes o.collaborators filtersBefore with
    | error e => rfl
    | ok before =>
      cases r.nodes o.collaborators filtersAfter with
      | error e => rfl
      | ok after =>
        cases r.normalize.query o.search with
        | error e => rfl
        | ok query =>
          cases hstatus : statusNode r <;>
            simp [StatusFrame.fill, bind, Except.bind, pure, Except.pure, Except.map]

/-- The frame does not depend on the identifiers. -/
theorem frame_congr {r r' : Request} (h : Fields.AgreeOn otherParameters r r')
    (o : CompileOptions) : r.frame o = r'.frame o := by
  have hnodes (fs : List Filter) (hfs : ∀ f ∈ fs, f ∈ filtersBefore ++ filtersAfter) :
      r.nodes o.collaborators fs = r'.nodes o.collaborators fs :=
    mapM_congr_of_forall fun f hf => by
      rw [f.contribution_congr _ (h.mono (mem_otherParameters f (hfs f hf)))]
  unfold frame
  rw [sort_congr (h.mono (by decide)), window_congr (h.mono (by decide)),
    query_congr (h.mono (by decide)), idsOnly_congr (h.mono (by decide)),
    hnodes filtersBefore fun f hf => List.mem_append_left _ hf,
    hnodes filtersAfter fun f hf => List.mem_append_right _ hf]

/-! ### Acceptance -/

/-- A parameter that validation keeps is kept in the same form where it was the same. -/
theorem agreeOn_kept_of_agreeOn {fields others : Fields}
    (h : Fields.AgreeOn otherParameters fields others) :
    Fields.AgreeOn otherParameters (kept fields) (kept others) := by
  intro name hname
  obtain ⟨⟨name, optional, schema⟩, hmem, rfl⟩ := List.mem_map.1 (List.mem_filter.1 hname).1
  unfold kept
  rw [Schema.get?_stripFields nodup_requestShape hmem,
    Schema.get?_stripFields nodup_requestShape hmem, h name hname]

/-- The identifiers are kept as they are. -/
theorem get?_kept_identifiers (fields : Fields) :
    (kept fields).get? "include_unapproved" = fields.get? "include_unapproved" :=
  agreeOn_kept (r := fields) "include_unapproved" (by decide)

theorem shape_identifiers {optional : Bool} {schema : Schema}
    (h : ("include_unapproved", optional, schema) ∈ requestShape) :
    schema = .nullable .scalars ∧ optional = true := by
  have hone : requestShape.filter (fun part => part.1 == "include_unapproved") =
      [("include_unapproved", true, .nullable .scalars)] := rfl
  have hmem : ("include_unapproved", optional, schema) ∈
      requestShape.filter fun part => part.1 == "include_unapproved" :=
    List.mem_filter.2 ⟨h, rfl⟩
  rw [hone, List.mem_singleton] at hmem
  cases hmem
  exact ⟨rfl, rfl⟩

/-- A request is accepted with other identifiers, and without any. -/
theorem Accepted.of_agreeOn {fields others : Request} (h : Accepted fields)
    (hagree : Fields.AgreeOn otherParameters others fields)
    (hidentifiers : ∀ v, others.get? "include_unapproved" = some v →
      (Schema.nullable .scalars).accepts v = true) : Accepted others := by
  obtain ⟨_, heq, hfields⟩ := Schema.accepts_object_iff.1 h
  obtain rfl := Value.object.inj heq
  refine Schema.accepts_object_iff.2 ⟨others, rfl, fun name optional schema hmem => ?_⟩
  by_cases hname : name = "include_unapproved"
  · subst hname
    obtain ⟨rfl, rfl⟩ := shape_identifiers hmem
    exact ⟨hidentifiers, fun _ => rfl⟩
  · have hother : name ∈ otherParameters :=
      List.mem_filter.2 ⟨List.mem_map_of_mem hmem, by simpa using hname⟩
    rw [hagree name hother]
    exact hfields name optional schema hmem

theorem accept_of_accepted {fields : Request} (h : Accepted fields) :
    Tool.compileQuery.accept (some (.object fields)) = .ok (kept fields) := by
  rw [Tool.accept_eq]
  exact if_pos h

end Request

/-! ### Widening -/

/-- What identifiers change of a compiled request. -/
structure Widens (r : Request) (unapproved : Value) (narrow wide : Compiled) : Prop where
  /-- What passes without the identifiers passes with them. -/
  passes : ∀ given, narrow.Passes given → wide.Passes given
  /-- Without a status, or without identifiers, nothing changes. -/
  unchanged : ¬r.HasStatus ∨ Param.isEmpty (some unapproved) = true → wide = narrow
  /-- Otherwise the node of the status changes, and nothing else: it holds where the clause of the
  status holds, or that of the users, or that of the authors. -/
  changed : r.HasStatus → Param.isEmpty (some unapproved) = false → ∃ before after,
    narrow.filters = before ++ r.statusClause :: after ∧
    wide = { narrow with
      filters := before ++ widened r.statusClause (.ofParam (some unapproved)) :: after } ∧
    ∀ given, (widened r.statusClause (.ofParam (some unapproved))).Holds given ↔
      r.statusClause.Holds given ∨
      given (.terms "user_id" ((Identifiers.ofParam (some unapproved)).userIds.map .number)) ∨
      given (.terms "comment_author_email.raw"
        ((Identifiers.ofParam (some unapproved)).emails.map .text))

theorem holds_of_widened {given : Query → Prop} {before after : List Query} {clause : Query}
    {identifiers : Identifiers} (h : ∀ q ∈ before ++ clause :: after, q.Holds given) :
    ∀ q ∈ before ++ widened clause identifiers :: after, q.Holds given := by
  rw [List.forall_mem_append, List.forall_mem_cons] at h ⊢
  exact ⟨h.1, holds_widened_iff.2 (.inl h.2.1), h.2.2⟩

/-- A frame is widened where it is filled with the nodes of the status with and without
identifiers. -/
theorem StatusFrame.widens_fill (frame : StatusFrame) {r bare full : Request} {unapproved : Value}
    (hbare : bare.get? "include_unapproved" = none)
    (hfull : full.get? "include_unapproved" = some unapproved)
    (hbareStatus : bare.get? "status" = r.get? "status")
    (hfullStatus : full.get? "status" = r.get? "status") :
    Widens r unapproved (frame.fill (statusNode bare)) (frame.fill (statusNode full)) := by
  have hasStatus_iff {other : Request} (h : other.get? "status" = r.get? "status") :
      other.HasStatus ↔ r.HasStatus := by
    unfold Request.HasStatus
    rw [h]
  have statusClause_eq {other : Request} (h : other.get? "status" = r.get? "status") :
      other.statusClause = r.statusClause := by
    unfold Request.statusClause
    rw [h]
  by_cases hstatus : r.HasStatus
  · have hnarrow : statusNode bare = some r.statusClause := by
      rw [Request.statusNode_of_hasStatus ((hasStatus_iff hbareStatus).2 hstatus), hbare,
        statusClause_eq hbareStatus]
      rfl
    have hwide := Request.statusNode_of_hasStatus ((hasStatus_iff hfullStatus).2 hstatus)
    rw [hfull, statusClause_eq hfullStatus] at hwide
    cases hempty : Param.isEmpty (some unapproved) with
    | true =>
      -- empty identifiers leave the clause as it is
      rw [hempty, if_pos rfl] at hwide
      rw [hnarrow, hwide]
      exact ⟨fun _ h => h, fun _ => rfl, fun _ hne => by cases hempty.symm.trans hne⟩
    | false =>
      rw [hempty, if_neg Bool.false_ne_true] at hwide
      rw [hnarrow, hwide]
      refine ⟨fun given h => ?_, fun h => ?_, fun _ _ => ?_⟩
      · rw [Compiled.passes_iff] at h ⊢
        exact holds_of_widened h
      · rcases h with h | h
        · exact absurd hstatus h
        · cases hempty.symm.trans h
      · exact ⟨frame.before, frame.after, rfl, rfl, fun given => holds_widened_iff⟩
  -- without a status neither request has a node to widen
  · have hnone {other : Request} (h : other.get? "status" = r.get? "status") :
        statusNode other = none :=
      Request.statusNode_of_not_hasStatus (mt (hasStatus_iff h).1 hstatus)
    rw [hnone hbareStatus, hnone hfullStatus]
    exact ⟨fun _ h => h, fun _ => rfl, fun h _ => absurd h hstatus⟩

/-- The compiling tool answers every accepted request, without identifiers and with any that it
accepts, and the identifiers change no more than the node of the status, which they widen. -/
theorem compileTool_widens {fields : Fields} {r : Request}
    (h : Tool.compileQuery.accept (some (.object fields)) = .ok r) {unapproved : Value}
    (hunapproved : (Schema.nullable .scalars).accepts unapproved = true) (s : Session) :
    ∃ narrow wide,
      ((Work.compileTool (some (.object (fields.without "include_unapproved")))).run.run s).1 =
        .ok narrow ∧
      ((Work.compileTool (some (.object (fields.set "include_unapproved" unapproved)))).run.run
        s).1 = .ok wide ∧
      Widens fields unapproved narrow wide := by
  obtain ⟨_, heq, haccepts, -⟩ := exists_fields_of_accept h
  obtain rfl := Value.object.inj heq
  have haccepted : Request.Accepted fields := haccepts
  have hname {name : String} (hother : name ∈ otherParameters) : name ≠ "include_unapproved" := by
    simpa using (List.mem_filter.1 hother).2
  have hbare : Fields.AgreeOn otherParameters (fields.without "include_unapproved") fields :=
    fun name hother => by rw [Fields.get?_without, if_neg (hname hother)]
  have hfull : Fields.AgreeOn otherParameters (fields.set "include_unapproved" unapproved) fields :=
    fun name hother => by rw [Fields.get?_set, if_neg (hname hother)]
  have hnone : (fields.without "include_unapproved").get? "include_unapproved" = none := by
    rw [Fields.get?_without, if_pos rfl]
  have hsome : (fields.set "include_unapproved" unapproved).get? "include_unapproved" =
      some unapproved := by
    rw [Fields.get?_set, if_pos rfl]
  have hbareAccept := Request.accept_of_accepted (haccepted.of_agreeOn hbare (by simp [hnone]))
  have hfullAccept := Request.accept_of_accepted
    (haccepted.of_agreeOn hfull (by simpa [hsome] using hunapproved))
  obtain ⟨c, hc⟩ := (accepted_of_accept hbareAccept).exists_compile
    (fun _ hv => isMetaQuery_of_accept hbareAccept hv) s.querySettings s.platform.zone
  -- the frame of the request without identifiers is that of the one with them
  obtain ⟨frame, hframe, -⟩ := map_eq_ok_iff.1
    ((Request.map_compiled_eq_fill _ _).symm.trans (map_eq_ok_iff.2 ⟨c, hc, rfl⟩))
  have hshared := Request.frame_congr (Request.agreeOn_kept_of_agreeOn fun name hother =>
    (hbare name hother).trans (hfull name hother).symm)
    (.ofSettings s.querySettings s.platform.zone)
  have hwidens := frame.widens_fill ((Request.get?_kept_identifiers _).trans hnone)
    ((Request.get?_kept_identifiers _).trans hsome)
    ((Request.agreeOn_kept "status" (by decide)).trans (hbare "status" (by decide)))
    ((Request.agreeOn_kept "status" (by decide)).trans (hfull "status" (by decide)))
  refine ⟨_, _, ?_, ?_, hwidens⟩
  · rw [Work.run_compileTool hbareAccept, Request.map_compiled_eq_fill, hframe]
    rfl
  · rw [Work.run_compileTool hfullAccept, Request.map_compiled_eq_fill, ← hshared, hframe]
    rfl

theorem compileTool_widens_hold :
    let fields : Fields :=
      [("post_type", .text "page"), ("include_unapproved", .text "3"), ("status", .text "hold")]
    let unapproved : Value := .list [.text "7", .text "author@example.org"]
    (∃ r, Tool.compileQuery.accept (some (.object fields)) = .ok r) ∧
      (Schema.nullable .scalars).accepts unapproved = true ∧
      Request.HasStatus fields ∧ Param.isEmpty (some unapproved) = false ∧
      ∃ narrow wide,
        ((Work.compileTool (some (.object (fields.without "include_unapproved")))).run.run {}).1 =
          .ok narrow ∧
        ((Work.compileTool (some (.object (fields.set "include_unapproved" unapproved)))).run.run
          {}).1 = .ok wide ∧
        Widens fields unapproved narrow wide := by
  intro fields unapproved
  have haccept : Tool.compileQuery.accept (some (.object fields)) =
      .ok [("post_type", .text "page"),
    ("status", .text "hold"), ("include_unapproved", .text "3")] := rfl
  have hunapproved : (Schema.nullable .scalars).accepts unapproved = true := by decide
  have hstatus : Request.HasStatus fields := ⟨by decide, by simp [fields, Fields.get?_cons]⟩
  exact ⟨⟨_, haccept⟩, hunapproved, hstatus, rfl, compileTool_widens haccept hunapproved {}⟩

end CommentSearch
