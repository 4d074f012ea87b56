import CommentSearch.Filter
import CommentSearch.Proofs.Fields
import CommentSearch.Proofs.Outcome

/-!
# Complements

What is negated is the complement of the form without the negation. Of the comparisons of a metadata
clause, each negated keyword stands beside the one that it negates (`Comparison.opposites`), and of
the parameters that list the values of a field, each that excludes them beside the one that includes
them (`memberships`).

The two clauses, or the two filters, then give a node for the same values, and it is the negation of
the one node in both cases (`metaClauseNode_of_opposite`, `contribution_membership`). `complements`
has both, and that nothing else is negated.
-/

namespace CommentSearch

/-! ### Comparisons -/

namespace Comparison

/-- The keywords of comparisons that have a negation, each with the keyword of that. -/
def opposites : List (String × String) :=
  [("EXISTS", "NOT EXISTS"), ("IN", "NOT IN"), ("BETWEEN", "NOT BETWEEN"), ("LIKE", "NOT LIKE"),
    ("=", "!=")]

/-- Opposite keywords ask for the same test, one for its success and one for its failure. -/
theorem ofKeyword_of_mem_opposites : ∀ pair ∈ opposites,
    pair.1 ≠ "" ∧ pair.2 ≠ "" ∧ (ofKeyword pair.1).negated = false ∧
      ofKeyword pair.2 = { ofKeyword pair.1 with negated := true } := by
  decide

/-- Every keyword of a negated comparison has an opposite. -/
theorem mem_opposites_of_negated : ∀ entry ∈ keywords, entry.2.negated = true →
    ∃ pair ∈ opposites, pair.2 = entry.1 := by
  decide

/-- The negated comparison gives a node where the other one does: the negation of that node. -/
theorem node_negated {c : Comparison} (h : c.negated = false) (key field : String)
    (value : Param) : ({ c with negated := true } : Comparison).node key field value =
      (c.node key field value).map (Option.map .mustNot) := by
  unfold node
  rw [h]
  cases c.test.node key field value with
  | error e => rfl
  | ok made => rfl

end Comparison

/-- The node of a clause by the comparison that its keyword asks for. -/
theorem metaClauseNode_of_keyword {clause : Fields} {s : String}
    (hcompare : clause.get? "compare" = some (.text s)) (hs : Text.toCapitals s ≠ "") :
    metaClauseNode clause =
      if Param.isEmpty (clause.get? "key") then .ok none
      else textForm (clause.get? "key") >>= fun key =>
        metaField key (clause.get? "type") >>= fun field =>
          (Comparison.ofKeyword (Text.toCapitals s)).node key field (clause.get? "value") := by
  have hkeyword : Param.keyword (clause.get? "compare") = .ok (some (Text.toCapitals s)) := by
    have htruthy : (Value.text s).isTruthy = true := by
      have hne : s ≠ "" := by
        rintro rfl
        exact hs rfl
      simpa [Value.isTruthy] using hne
    rw [hcompare]
    simp only [Param.keyword, htruthy, if_true]
  unfold metaClauseNode
  rw [hkeyword]
  split
  · rfl
  · rfl

/-- Two clauses that differ in opposite keywords only give a node for the same keys, values and
types, and the node of the negated one is the negation of the other. -/
theorem metaClauseNode_of_opposite {clause negated : Fields} {s t : String}
    (hagree : Fields.AgreeOn ["key", "value", "type"] clause negated)
    (hs : clause.get? "compare" = some (.text s)) (ht : negated.get? "compare" = some (.text t))
    (hopposite : (Text.toCapitals s, Text.toCapitals t) ∈ Comparison.opposites) :
    metaClauseNode negated = (metaClauseNode clause).map (Option.map .mustNot) := by
  obtain ⟨hsne, htne, hplain, hnegated⟩ := Comparison.ofKeyword_of_mem_opposites _ hopposite
  rw [metaClauseNode_of_keyword hs hsne, metaClauseNode_of_keyword ht htne, hnegated,
    ← hagree "key" (by decide), ← hagree "value" (by decide), ← hagree "type" (by decide)]
  split
  · rfl
  · rw [map_bind_eq]
    refine bind_congr fun key => ?_
    rw [map_bind_eq]
    exact bind_congr fun field => Comparison.node_negated hplain key field _

/-! ### Parameters -/

/-- The fields that can be asked to have one of the values of a list, or none of them, by what the
names of the two parameters begin with. -/
def memberships : List (String × String) :=
  [("author", "user_id"), ("comment", "comment_ID"), ("parent", "comment_parent"),
    ("post_author", "comment_post_author_ID"), ("post", "comment_post_ID"),
    ("type", "comment_type.raw")]

/-- The clause of the values of a list parameter, if it is not empty. -/
def membershipClause (field : String) (p : Param) : Option Query :=
  if p.isEmpty then none else some (.terms field p.toList)

/-- A filter of a list parameter places the clause of its values. -/
theorem contribution_membership (param field : String) (placement : Placement) (r : Request)
    (c : Collaborators) :
    (Filter.dimension ⟨param, field, .list, placement, false, none, false⟩).contribution r c =
      .ok ⟨(membershipClause field (r.get? param)).map placement.place, []⟩ := by
  unfold Filter.contribution membershipClause
  dsimp only
  cases r.get? param with
  | none => rfl
  | some v =>
    have hactive : Dimension.isActive ⟨param, field, .list, placement, false, none, false⟩ v =
        !Param.isEmpty (some v) := by
      cases v <;> simp [Dimension.isActive]
    unfold Dimension.node
    dsimp only
    rw [hactive]
    cases Param.isEmpty (some v) <;> rfl

theorem mem_filters_of_mem_memberships {pair : String × String} (h : pair ∈ memberships) :
    includes (pair.1 ++ "__in") pair.2 ∈ filters ∧
      excludes (pair.1 ++ "__not_in") pair.2 ∈ filters := by
  simp only [memberships, List.mem_cons, List.not_mem_nil, or_false] at h
  rcases h with rfl | rfl | rfl | rfl | rfl | rfl <;> simp [filters]

/-- The dimension of a filter. -/
def Filter.dimension? : Filter → Option Dimension
  | dimension d | parent d => some d
  | status | date | metadata => none

/-- The dimensions that must not hold are those of lists of values that a field must not have. -/
theorem filter_mustNot_dimensions :
    (filters.filterMap Filter.dimension?).filter (·.placement = .mustNot) =
      memberships.map fun pair =>
        ⟨pair.1 ++ "__not_in", pair.2, .list, .mustNot, false, none, false⟩ :=
  rfl

theorem exists_membership_of_mustNot {f : Filter} (hf : f ∈ filters) {d : Dimension}
    (hd : f.dimension? = some d) (hplacement : d.placement = .mustNot) :
    ∃ pair ∈ memberships, .dimension d = excludes (pair.1 ++ "__not_in") pair.2 := by
  have hmem : d ∈ (filters.filterMap Filter.dimension?).filter (·.placement = .mustNot) :=
    List.mem_filter.2 ⟨List.mem_filterMap.2 ⟨f, hf, hd⟩, by simpa using hplacement⟩
  rw [filter_mustNot_dimensions] at hmem
  obtain ⟨pair, hpair, rfl⟩ := List.mem_map.1 hmem
  exact ⟨pair, hpair, rfl⟩

/-- Negative forms are the complements of positive ones. A clause of metadata with a negated keyword
can be used where the clause with the opposite keyword and the same key, value and type can, and its
node is the negation of the node of that one; each negated keyword has an opposite. The filters that
must not hold are those of six parameters, each beside one that includes values of the same field.
For the same value both are active or neither is, and their nodes place one clause. -/
theorem complements :
    (∀ entry ∈ Comparison.keywords, entry.2.negated = true →
      ∃ pair ∈ Comparison.opposites, pair.2 = entry.1) ∧
    (∀ (clause negated : Fields) (s t : String),
      Fields.AgreeOn ["key", "value", "type"] clause negated →
      clause.get? "compare" = some (.text s) → negated.get? "compare" = some (.text t) →
      (Text.toCapitals s, Text.toCapitals t) ∈ Comparison.opposites →
      metaClauseNode negated = (metaClauseNode clause).map (Option.map .mustNot)) ∧
    (∀ f ∈ filters, ∀ d, f.dimension? = some d → d.placement = .mustNot →
      ∃ pair ∈ memberships, .dimension d = excludes (pair.1 ++ "__not_in") pair.2) ∧
    ∀ pair ∈ memberships,
      includes (pair.1 ++ "__in") pair.2 ∈ filters ∧
      excludes (pair.1 ++ "__not_in") pair.2 ∈ filters ∧
      ∀ (r r' : Request) (c : Collaborators),
        r.get? (pair.1 ++ "__in") = r'.get? (pair.1 ++ "__not_in") →
        ∃ clause : Option Query,
          (∀ q, clause = some q →
            q = .terms pair.2 (Param.toList (r.get? (pair.1 ++ "__in")))) ∧
          (includes (pair.1 ++ "__in") pair.2).contribution r c =
            .ok ⟨clause.map .mustOne, []⟩ ∧
          (excludes (pair.1 ++ "__not_in") pair.2).contribution r' c =
            .ok ⟨clause.map .mustNot, []⟩ := by
  refine ⟨Comparison.mem_opposites_of_negated, ?_, ?_, ?_⟩
  · intro clause negated s t hagree hs ht hopposite
    exact metaClauseNode_of_opposite hagree hs ht hopposite
  · intro f hf d hd hplacement
    exact exists_membership_of_mustNot hf hd hplacement
  · intro pair hpair
    obtain ⟨hincludes, hexcludes⟩ := mem_filters_of_mem_memberships hpair
    refine ⟨hincludes, hexcludes, fun r r' c hvalue => ?_⟩
    refine ⟨membershipClause pair.2 (r.get? (pair.1 ++ "__in")), ?_, ?_, ?_⟩
    · intro q hq
      unfold membershipClause at hq
      exact (Option.some.inj (Option.ite_none_left_eq_some.1 hq).2).symm
    · exact contribution_membership _ _ .must r c
    · rw [hvalue]
      exact contribution_membership _ _ .mustNot r' c

/-- Comments whose color is not red, and comments on other posts than one. -/
theorem complements_color_post :
    metaClauseNode [("key", .text "color"), ("value", .text "red"), ("compare", .text "!=")] =
      .ok (some (.mustNot (.term "meta.color.raw" (.text "red")))) ∧
    (excludes "post__not_in" "comment_post_ID").contribution
        [("post__not_in", .list [.text "1"])] .standard =
      .ok ⟨some (.mustNot (.terms "comment_post_ID" [.text "1"])), []⟩ := by
  obtain ⟨-, hclauses, -, hfilters⟩ := complements
  constructor
  · have hagree : Fields.AgreeOn ["key", "value", "type"]
        [("key", .text "color"), ("value", .text "red"), ("compare", .text "=")]
        [("key", .text "color"), ("value", .text "red"), ("compare", .text "!=")] := by
      intro name hname
      simp only [List.mem_cons, List.not_mem_nil, or_false] at hname
      rcases hname with rfl | rfl | rfl <;> rfl
    exact hclauses _ _ "=" "!=" hagree rfl rfl (by decide)
  · obtain ⟨-, -, hnodes⟩ := hfilters ("post", "comment_post_ID") (by decide)
    obtain ⟨clause, -, hincludes, hexcludes⟩ := hnodes [("post__in", .list [.text "1"])]
      [("post__not_in", .list [.text "1"])] .standard rfl
    have hplaced : some (.mustOne (.terms "comment_post_ID" [.text "1"])) =
        clause.map Query.mustOne := congrArg Contribution.node (Except.ok.inj hincludes)
    obtain ⟨q, rfl, hq⟩ := Option.map_eq_some_iff.1 hplaced.symm
    obtain rfl := Query.mustOne.inj hq
    exact hexcludes

end CommentSearch
