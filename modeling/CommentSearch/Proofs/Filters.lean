import CommentSearch.Proofs.AcceptedRequest
import CommentSearch.Proofs.Outcome

/-!
# What filters contribute

Each filter either fails or gives at most one node. A dimension compares its field with one value
or with a list of values (`Dimension.exists_node`), and never fails on the parameters of accepted
requests; the date and the metadata filter fail only where their collaborator does
(`Filter.fault_of_collaborator`). `Request.Gives` tells which nodes there are.
-/

namespace CommentSearch

/-! ### Dimensions -/

/-- A node that compares a field with one scalar or with a list of scalars. -/
def Query.ComparesField (q : Query) (field : String) : Prop :=
  (∃ x : Scalar, q = .term field x.toValue) ∨ ∃ xs : List Scalar, q = .terms field xs

theorem comparesField_termOrTerms (field : String) (xs : List Scalar) :
    (termOrTerms field xs).ComparesField field := by
  match xs with
  | [] => exact .inl ⟨.text "", rfl⟩
  | [x] => exact .inl ⟨x, rfl⟩
  | x :: y :: rest => exact .inr ⟨x :: y :: rest, rfl⟩

namespace Dimension

variable (d : Dimension)

/-- A dimension of a single value that is not read as an integer needs a scalar; every other one
takes all values. -/
def Suits (p : Param) : Prop := d.shape = .one → d.integer = false → p.IsScalar

/-- The clause of a dimension for a value that suits it. -/
theorem exists_clause {v : Value} (hnull : v ≠ .null) (h : d.Suits (some v)) :
    ∃ q, d.clause v = .ok q ∧ q.ComparesField d.field := by
  unfold clause
  cases hshape : d.shape with
  | list => exact ⟨_, rfl, .inr ⟨_, rfl⟩⟩
  | entries => exact ⟨_, rfl, comparesField_termOrTerms _ _⟩
  | one =>
    cases hinteger : d.integer with
    | true => exact ⟨_, rfl, .inl ⟨.number _, rfl⟩⟩
    | false =>
      rcases h hshape hinteger v rfl with rfl | ⟨x, rfl⟩
      · exact absurd rfl hnull
      · cases x <;> exact ⟨_, rfl, .inl ⟨_, rfl⟩⟩

theorem isActive_null : d.isActive .null = false := by
  simp [isActive, Param.isEmpty]

/-- A dimension does not fail on a parameter that suits it; its node, if there is one, compares its
field. -/
theorem exists_node {p : Param} (h : d.Suits p) :
    ∃ node, d.node p = .ok node ∧
      ∀ q, node = some q →
        ∃ clause, q = d.placement.place clause ∧ clause.ComparesField d.field := by
  unfold node
  cases p with
  | none => exact ⟨none, rfl, nofun⟩
  | some v =>
    dsimp only
    split
    · rename_i hactive
      have hnull : v ≠ .null := by
        rintro rfl
        rw [d.isActive_null] at hactive
        cases hactive
      obtain ⟨clause, hclause, hfield⟩ := d.exists_clause hnull h
      rw [hclause]
      refine ⟨_, rfl, fun q hq => ⟨clause, ?_, hfield⟩⟩
      exact (Option.some.inj hq).symm
    · exact ⟨none, rfl, nofun⟩

end Dimension

/-! ### The status -/

/-- The node of the status compares the status, and where there are identifiers it offers those of
users and of authors besides. -/
theorem comparesField_or_should_of_statusNode {r : Request} {q : Query}
    (h : statusNode r = some q) : q.ComparesField "comment_approved" ∨ ∃ node ids emails,
      node.ComparesField "comment_approved" ∧ q = .should [node, .terms "user_id" ids,
        .terms "comment_author_email.raw" emails] := by
  have hstatus := comparesField_termOrTerms "comment_approved"
    ((Param.toTrimmedList (r.get? "status")).map moderationStatus)
  unfold statusNode at h
  obtain ⟨-, h⟩ := Option.ite_none_left_eq_some.1 h
  dsimp only at h
  split at h
  · obtain rfl := Option.some.inj h
    exact .inl hstatus
  · obtain rfl := Option.some.inj h
    exact .inr ⟨_, _, _, hstatus, rfl⟩

/-! ### Filters of accepted requests -/

/-- The parameters that dimensions read as a scalar. -/
def scalarParameters : List String :=
  ["author_email", "author_url", "karma", "post_type", "post_name"]

/-- Whether a filter reads scalars from parameters that are to be scalars only. -/
def Filter.readsScalars : Filter → Bool
  | dimension d => d.shape ≠ .one || d.integer || d.param ∈ scalarParameters
  | parent d => d.integer
  | status | date | metadata => true

theorem readsScalars_of_mem : ∀ f ∈ filters, f.readsScalars = true := by
  rw [← List.all_eq_true]
  decide

namespace Request.Accepted

variable {r : Request}

theorem isScalar_of_mem (h : r.Accepted) {name : String} (hname : name ∈ scalarParameters) :
    Param.IsScalar (r.get? name) := by
  simp only [scalarParameters, List.mem_cons, List.not_mem_nil, or_false] at hname
  rcases hname with rfl | rfl | rfl | rfl | rfl
  · exact (h.isTextual rfl).isScalar
  · exact (h.isTextual rfl).isScalar
  · exact h.isScalar rfl
  · exact (h.isTextual rfl).isScalar
  · exact (h.isTextual rfl).isScalar

/-- Every dimension of the table suits its parameter. -/
theorem suits (h : r.Accepted) {d : Dimension} (hd : .dimension d ∈ filters) :
    d.Suits (r.get? d.param) := by
  intro hshape hinteger
  have hreads := readsScalars_of_mem _ hd
  simp only [Filter.readsScalars, hshape, hinteger] at hreads
  exact h.isScalar_of_mem (by simpa using hreads)

end Request.Accepted

theorem suits_parent {d : Dimension} (hd : .parent d ∈ filters) (p : Param) : d.Suits p := by
  intro _ hinteger
  have hreads := readsScalars_of_mem _ hd
  rw [Filter.readsScalars, hinteger] at hreads
  cases hreads

/-! ### The metadata query -/

/-- The clause that `meta_key` and `meta_value` stand for: one with a value unless that is null. -/
def Request.metaShorthand (r : Request) : List Value :=
  match r.get? "meta_key" with
  | some (.text key) =>
    if Param.isEmpty (some (.text key)) then []
    else [.object (("key", .text key) :: match r.get? "meta_value" with
      | some .null | none => []
      | some v => [("value", v)])]
  | _ => []

/-- The metadata query that a request asks for with `meta_query`, without entries if it asks for
none. -/
def Request.metaGroup (r : Request) : MetaGroup :=
  if Param.isEmpty (r.get? "meta_query") then ⟨none, []⟩ else .ofQuery (r.get? "meta_query")

/-- The metadata query of a request whose key is a text: the clause of the key before the entries of
`meta_query`, under the relation of these. -/
theorem collectMetaQuery_eq {r : Request} (hkey : Param.IsTextual (r.get? "meta_key")) :
    collectMetaQuery r = .ok
      (if (r.metaShorthand ++ r.metaGroup.clauses).isEmpty then none
        else some ⟨r.metaGroup.relation, r.metaShorthand ++ r.metaGroup.clauses⟩) := by
  -- the rest of the collection is the same with and without a clause of the key
  have hcollect (shorthand : List Value) :
      (if Param.isEmpty (r.get? "meta_query") then
          (pure ⟨none, []⟩ : Except Fault MetaGroup) >>= fun group =>
            pure (if (shorthand ++ group.clauses).isEmpty then none
              else some (MetaGroup.mk group.relation (shorthand ++ group.clauses)))
        else MetaGroup.ofGroupForm (MetaGroup.groupForm (r.get? "meta_query")) >>= fun group =>
            pure (if (shorthand ++ group.clauses).isEmpty then none
              else some (MetaGroup.mk group.relation (shorthand ++ group.clauses)))) =
        .ok (if (shorthand ++ r.metaGroup.clauses).isEmpty then none
          else some ⟨r.metaGroup.relation, shorthand ++ r.metaGroup.clauses⟩) := by
    unfold Request.metaGroup
    split
    · rfl
    · rename_i hquery
      cases hget : r.get? "meta_query" with
      | none => simp [hget, Param.isEmpty] at hquery
      | some v =>
        have hnull : v ≠ .null := by
          rintro rfl
          simp [hget, Param.isEmpty] at hquery
        rw [MetaGroup.ofGroupForm_groupForm hnull]
        rfl
  unfold collectMetaQuery
  dsimp only
  split
  · rename_i hempty
    have hshorthand : r.metaShorthand = [] := by
      unfold Request.metaShorthand
      split
      · rename_i key hget
        rw [← hget, if_pos hempty]
      · rfl
    rw [hshorthand, ← hcollect []]
    rfl
  · rename_i hempty
    obtain ⟨key, hget, hform⟩ := hkey.textForm_eq (by simpa using hempty)
    have hshorthand : r.metaShorthand =
        [.object (("key", .text key) :: match r.get? "meta_value" with
          | some .null | none => []
          | some v => [("value", v)])] := by
      unfold Request.metaShorthand
      rw [hget] at hempty ⊢
      exact if_neg hempty
    rw [hshorthand, ← hcollect, hform]
    rfl

/-! ### Asking collaborators -/

namespace Collaborators

variable {c : Collaborators} {q : Question}

/-- What asking a collaborator contributes is its answer, and that it was asked. -/
theorem ask_eq_map (c : Collaborators) (q : Question) :
    c.ask q = (c.answer q).map fun node => ⟨node, [q]⟩ := by
  unfold ask
  cases c.answer q <;> rfl

theorem ask_eq_ok_iff {contribution : Contribution} : c.ask q = .ok contribution ↔
    ∃ node, c.answer q = .ok node ∧ ⟨node, [q]⟩ = contribution := by
  rw [ask_eq_map, map_eq_ok_iff]

theorem ask_eq_error_iff {e : Fault} : c.ask q = .error e ↔ c.answer q = .error e := by
  rw [ask_eq_map, map_eq_error_iff]

theorem exists_ask_iff :
    (∃ contribution, c.ask q = .ok contribution) ↔ ∃ node, c.answer q = .ok node := by
  rw [ask_eq_map, exists_map_eq_ok_iff]

theorem map_node_ask (c : Collaborators) (q : Question) :
    (c.ask q).map Contribution.node = c.answer q := by
  rw [ask_eq_map]
  cases c.answer q <;> rfl

end Collaborators

/-! ### Nodes -/

/-- The nodes that the filters of a request give, with the compilers of this library. -/
inductive Request.Gives (r : Request) (zone : TimeZone) : Query → Prop
  | dimension {d : Dimension} {clause : Query} (mem : .dimension d ∈ filters ∨ .parent d ∈ filters)
    (compares : clause.ComparesField d.field) : Gives r zone (d.placement.place clause)
  | status {q : Query} (node : statusNode r = some q) : Gives r zone q
  | date {query : Value} {filter : DateFilter} {q : Query} (get : r.get? "date_query" = some query)
    (nonempty : ¬Param.isEmpty (some query) = true)
    (compiled : DateFilter.compile (some query) zone = .ok filter) (all : filter.all = some q) :
    Gives r zone q
  | metadata {g : MetaGroup} {q : Query} (collected : collectMetaQuery r = .ok (some g))
    (compiled : g.compile = .ok (some q)) : Gives r zone q

theorem Request.Accepted.gives_of_contribution {r : Request} (h : r.Accepted) {zone : TimeZone}
    {f : Filter} (hf : f ∈ filters) {contribution : Contribution}
    (hc : f.contribution r (.standard zone) = .ok contribution) {q : Query}
    (hq : contribution.node = some q) : r.Gives zone q := by
  cases f with
  | dimension d =>
    obtain ⟨node, hnode, hplaced⟩ := d.exists_node (h.suits hf)
    rw [Filter.contribution, hnode] at hc
    obtain rfl := Except.ok.inj hc
    obtain ⟨clause, rfl, hfield⟩ := hplaced q hq
    exact .dimension (.inl hf) hfield
  | parent d =>
    obtain ⟨node, hnode, hplaced⟩ := d.exists_node (suits_parent hf (effectiveParent r))
    rw [Filter.contribution, hnode] at hc
    obtain rfl := Except.ok.inj hc
    obtain ⟨clause, rfl, hfield⟩ := hplaced q hq
    exact .dimension (.inr hf) hfield
  | status =>
    obtain rfl := Except.ok.inj hc
    exact .status hq
  | date =>
    rw [Filter.contribution, dateContribution] at hc
    split at hc
    · rename_i query hget
      split at hc
      · obtain rfl := Except.ok.inj hc
        cases hq
      · rename_i hempty
        obtain ⟨node, hanswer, rfl⟩ := Collaborators.ask_eq_ok_iff.1 hc
        obtain ⟨filter, hfilter, hall⟩ := map_eq_ok_iff.1 hanswer
        exact .date hget hempty hfilter (hall.trans hq)
    · obtain rfl := Except.ok.inj hc
      cases hq
  | metadata =>
    rw [Filter.contribution, metaContribution] at hc
    obtain ⟨query, hcollected, hc⟩ := bind_eq_ok_iff.1 hc
    cases query with
    | none =>
      obtain rfl := Except.ok.inj hc
      cases hq
    | some g =>
      obtain ⟨node, hanswer, rfl⟩ := Collaborators.ask_eq_ok_iff.1 hc
      obtain rfl : node = some q := hq
      exact .metadata hcollected hanswer

/-! ### Faults -/

/-- A filter of an accepted request fails only where a collaborator does, on what it is asked. -/
theorem Filter.fault_of_collaborator {f : Filter} (hf : f ∈ filters) {r : Request}
    (h : r.Accepted) {c : Collaborators} {e : Fault} (he : f.contribution r c = .error e) :
    (∃ query, collectMetaQuery r = .ok (some query) ∧ c.metaFilter query = .error e) ∨
      ∃ query, r.get? "date_query" = some query ∧ Param.isEmpty (some query) = false ∧
        c.dateFilter query = .error e := by
  cases f with
  | dimension d =>
    obtain ⟨node, hnode, -⟩ := d.exists_node (h.suits hf)
    rw [contribution, hnode] at he
    cases he
  | parent d =>
    obtain ⟨node, hnode, -⟩ := d.exists_node (suits_parent hf (effectiveParent r))
    rw [contribution, hnode] at he
    cases he
  -- the status filter reads its parameters by total functions only
  | status => cases he
  | date =>
    rw [contribution, dateContribution] at he
    split at he
    · rename_i query hget
      split at he
      · cases he
      · rename_i hempty
        have hanswer := map_eq_error_iff.1 (Collaborators.ask_eq_error_iff.1 he)
        exact .inr ⟨query, hget, by simpa using hempty, hanswer⟩
    · cases he
  | metadata =>
    have hkey : Param.IsTextual (r.get? "meta_key") := h.isTextual rfl
    have hcollect := collectMetaQuery_eq hkey
    rw [contribution, metaContribution, hcollect] at he
    rcases bind_eq_error_iff.1 he with he | ⟨query, hquery, he⟩
    · cases he
    · cases query with
      | none => cases he
      | some query =>
        exact .inl ⟨query, hcollect.trans hquery, Collaborators.ask_eq_error_iff.1 he⟩

end CommentSearch
