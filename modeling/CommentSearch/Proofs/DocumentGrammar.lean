import CommentSearch.Proofs.DateClauses
import CommentSearch.Proofs.QueryDocument

/-!
# The grammar of filters in query documents

`IsNode` says which values the search backend takes for a node of a filter. A Boolean node has one
of its three keys, with something under it; a range has an end, and each end once; and every value
that a field is compared with is a scalar.

Every node of a date query is one (`isNode_of_dateClause`), and every node of a metadata query whose
fields are of their types (`isNode_of_prunes`).
-/

namespace CommentSearch

/-! ### Nodes -/

/-- The ends of a range: at least one, each below and each above at most once, and scalars. -/
structure IsRange (bounds : Fields) : Prop where
  nonempty : bounds ≠ []
  ends : ∀ bound ∈ bounds, bound.1 ∈ ["gt", "gte", "lt", "lte"] ∧ ∃ x : Scalar, bound.2 = x.toValue
  lower : bounds.get? "gt" = none ∨ bounds.get? "gte" = none
  upper : bounds.get? "lt" = none ∨ bounds.get? "lte" = none

/-- A node of a filter. -/
inductive IsNode : Value → Prop where
  | term (field : String) (x : Scalar) : IsNode (.object [("term", .object [(field, x.toValue)])])
  | terms (field : String) (xs : List Scalar) :
    IsNode (.object [("terms", .object [(field, .list (xs.map Scalar.toValue))])])
  | range (field : String) {bounds : Fields} (range : IsRange bounds) :
    IsNode (.object [("range", .object [(field, .object bounds)])])
  | exists (field : String) : IsNode (.object [("exists", .object [("field", .text field)])])
  | matchPhrase (field text : String) :
    IsNode (.object [("match_phrase", .object [(field, .text text)])])
  | must {nodes : List Value} (nonempty : nodes ≠ []) (all : ∀ node ∈ nodes, IsNode node) :
    IsNode (.object [("bool", .object [("must", .list nodes)])])
  | mustOne {node : Value} (one : IsNode node) :
    IsNode (.object [("bool", .object [("must", node)])])
  | mustNot {node : Value} (one : IsNode node) :
    IsNode (.object [("bool", .object [("must_not", node)])])
  | should {nodes : List Value} (nonempty : nodes ≠ []) (all : ∀ node ∈ nodes, IsNode node) :
    IsNode (.object [("bool", .object [("should", .list nodes)])])

theorem exists_scalar_of_isSome {v : Value} (h : v.scalar?.isSome) :
    ∃ x : Scalar, v = x.toValue := by
  cases v with
  | null | list | object => cases h
  | bool b => exact ⟨.bool b, rfl⟩
  | number x => exact ⟨.number x, rfl⟩
  | text s => exact ⟨.text s, rfl⟩

/-! ### The nodes of queries -/

theorem isRange_one {key : String} (hkey : key ∈ ["gt", "gte", "lt", "lte"]) (x : Scalar) :
    IsRange [(key, x.toValue)] := by
  have hone : ∀ other, key ≠ other → Fields.get? [(key, x.toValue)] other = none := by
    intro other hne
    rw [Fields.get?_cons_of_ne _ _ (Ne.symm hne), Fields.get?_nil]
  refine ⟨List.cons_ne_nil _ _, List.forall_mem_singleton.2 ⟨hkey, x, rfl⟩, ?_, ?_⟩
  · by_cases hgt : key = "gt"
    · exact .inr (hone "gte" (by simp [hgt]))
    · exact .inl (hone "gt" hgt)
  · by_cases hlt : key = "lt"
    · exact .inr (hone "lte" (by simp [hlt]))
    · exact .inl (hone "lt" hlt)

theorem isRange_two {lower upper : String} (hlower : lower = "gt" ∨ lower = "gte")
    (hupper : upper = "lt" ∨ upper = "lte") (x y : Scalar) :
    IsRange [(lower, x.toValue), (upper, y.toValue)] := by
  refine ⟨List.cons_ne_nil _ _, ?_, ?_, ?_⟩
  · rw [List.forall_mem_cons, List.forall_mem_singleton]
    refine ⟨⟨?_, x, rfl⟩, ?_, y, rfl⟩
    · rcases hlower with rfl | rfl <;> simp
    · rcases hupper with rfl | rfl <;> simp
  · rcases hlower with rfl | rfl <;> rcases hupper with rfl | rfl <;> simp [Fields.get?_cons]
  · rcases hlower with rfl | rfl <;> rcases hupper with rfl | rfl <;> simp [Fields.get?_cons]

/-- The bounds between two ends, of which either may be missing. -/
def Bounds.between (inclusive : Bool) (lower upper : Option Scalar) : Bounds :=
  if inclusive then { gte := lower.map Scalar.toValue, lte := upper.map Scalar.toValue }
  else { gt := lower.map Scalar.toValue, lt := upper.map Scalar.toValue }

theorem isNode_between (field : String) (inclusive : Bool) (lower upper : Option Scalar)
    (h : (Bounds.between inclusive lower upper).isEmpty = false) :
    IsNode (Query.range field (Bounds.between inclusive lower upper)).toValue := by
  cases lower with
  | none =>
    cases upper with
    | none => cases inclusive <;> cases h
    | some y => cases inclusive <;> exact .range field (isRange_one (by simp) y)
  | some x =>
    cases upper with
    | none => cases inclusive <;> exact .range field (isRange_one (by simp) x)
    | some y => cases inclusive <;> exact .range field (isRange_two (by simp) (by simp) x y)

theorem isNode_must {nodes : List Query} (hnonempty : nodes ≠ [])
    (h : ∀ node ∈ nodes, IsNode node.toValue) : IsNode (Query.must nodes).toValue := by
  rw [Query.toValue, Query.toValues_eq]
  refine .must (by simpa using hnonempty) fun v hv => ?_
  obtain ⟨node, hnode, rfl⟩ := List.mem_map.1 hv
  exact h node hnode

theorem isNode_should {nodes : List Query} (hnonempty : nodes ≠ [])
    (h : ∀ node ∈ nodes, IsNode node.toValue) : IsNode (Query.should nodes).toValue := by
  rw [Query.toValue, Query.toValues_eq]
  refine .should (by simpa using hnonempty) fun v hv => ?_
  obtain ⟨node, hnode, rfl⟩ := List.mem_map.1 hv
  exact h node hnode

theorem isNode_join (any : Bool) {nodes : List Query} (hnonempty : nodes ≠ [])
    (h : ∀ node ∈ nodes, IsNode node.toValue) : IsNode (Query.join any nodes).toValue := by
  cases any with
  | true => exact isNode_should hnonempty h
  | false => exact isNode_must hnonempty h

/-! ### Date queries -/

/-- The bounds of a clause are between two texts, of which either may be missing. -/
theorem exists_between_of_bounds {zone : TimeZone} {clause : Fields} {b : Bounds}
    (h : DateClause.bounds zone clause = .ok b) :
    ∃ lower upper, b = Bounds.between (DateClause.isInclusive clause) lower upper := by
  rw [DateClause.bounds_eq] at h
  obtain ⟨lower, -, h⟩ := bind_eq_ok_iff.1 h
  obtain ⟨upper, -, h⟩ := bind_eq_ok_iff.1 h
  refine ⟨lower.map .text, upper.map .text, ?_⟩
  rw [← Except.ok.inj h, Bounds.between, Option.map_map, Option.map_map]
  rfl

theorem isNode_range_of_bounds {zone : TimeZone} {clause : Fields} {b : Bounds} (field : String)
    (h : DateClause.bounds zone clause = .ok b) (hnonempty : b.isEmpty = false) :
    IsNode (Query.range field b).toValue := by
  obtain ⟨lower, upper, rfl⟩ := exists_between_of_bounds h
  exact isNode_between field _ lower upper hnonempty

/-- The period that a clause is limited to has both its ends. -/
theorem isNode_range_of_limits {clause : Fields} {b : Bounds} (field : String)
    (h : DateClause.limits clause = some b) : IsNode (Query.range field b).toValue := by
  unfold DateClause.limits at h
  split at h
  · cases h
  · obtain rfl := Option.some.inj h
    exact isNode_between field true (some (.text _)) (some (.text _)) rfl

/-- The node of a clause of a date query, if there is one. -/
theorem isNode_of_dateClause {zone : TimeZone} {clause : Fields} {column : Value} {q : Query}
    (h : DateClause.node zone clause column = .ok (some q)) : IsNode q.toValue := by
  obtain ⟨field, between, -, hbetween, hq⟩ := DateClause.exists_ranges_of_node h
  have hrange : ∀ b ∈ DateClause.ranges clause between, IsNode (Query.range field b).toValue := by
    intro b hb
    rcases List.mem_append.1 hb with hb | hb
    · cases hempty : between.isEmpty with
      | true => simp [hempty] at hb
      | false =>
        obtain rfl : b = between := by simpa [hempty] using hb
        exact isNode_range_of_bounds field hbetween hempty
    · exact isNode_range_of_limits field (Option.mem_toList.1 hb)
  rcases hq with ⟨b, hb, rfl⟩ | ⟨hne, rfl⟩
  · exact hrange b hb
  · refine isNode_must (by simpa using hne) fun node hnode => ?_
    obtain ⟨b, hb, rfl⟩ := List.mem_map.1 hnode
    exact hrange b hb

/-- What a date query asks to hold is a node. -/
theorem isNode_of_dateFilter {zone : TimeZone} {query : Value} (hnull : query ≠ .null)
    {filter : DateFilter} (h : DateFilter.compile (some query) zone = .ok filter) {q : Query}
    (hq : filter.all = some q) : IsNode q.toValue := by
  obtain ⟨nodes, rfl, hne, hnodes⟩ := DateFilter.exists_nodes_of_compile hnull h hq
  refine isNode_must hne fun node hnode => ?_
  obtain ⟨clause, -, hclause⟩ := hnodes node hnode
  exact isNode_of_dateClause hclause

/-! ### Metadata queries -/

theorem isNode_of_makes {fields : Fields} (typed : IsMetaClause fields) {key field : String}
    {q : Query} (h : MetaTest.Makes key field (fields.get? "value") q) : IsNode q.toValue := by
  -- the single value of a typed clause is a scalar
  have hsingle {v : Value} (hv : singleValue (fields.get? "value") = some v) :
      ∃ x : Scalar, v = x.toValue :=
    exists_scalar_of_isSome (isSome_scalar?_of_singleValue typed hv)
  cases h with
  | hasAny => exact .exists _
  | isOneOf => exact .terms field _
  | isBetween low high => exact isNode_between field true (some low) (some high) rfl
  | contains form => exact .matchPhrase _ form
  | isAbove hv =>
    obtain ⟨x, rfl⟩ := hsingle hv
    exact isNode_between field false (some x) none rfl
  | isAtLeast hv =>
    obtain ⟨x, rfl⟩ := hsingle hv
    exact isNode_between field true (some x) none rfl
  | isBelow hv =>
    obtain ⟨x, rfl⟩ := hsingle hv
    exact isNode_between field false none (some x) rfl
  | isAtMost hv =>
    obtain ⟨x, rfl⟩ := hsingle hv
    exact isNode_between field true none (some x) rfl
  | isEqual hv =>
    obtain ⟨x, rfl⟩ := hsingle hv
    exact .term field x

theorem isNode_of_metaClause {fields : Fields} (typed : IsMetaClause fields) {q : Query}
    (h : metaClauseNode fields = .ok (some q)) : IsNode q.toValue := by
  obtain ⟨key, field, plain, -, -, -, hplain, rfl | rfl⟩ := exists_made_of_metaClauseNode h
  · exact isNode_of_makes typed hplain
  · exact .mustNot (isNode_of_makes typed hplain)

/-- The tree that a typed entry is pruned to. -/
theorem isNode_of_prunes {entry : MetaEntry} (typed : entry.IsTyped) {q : Query}
    (h : entry.Prunes q) : IsNode q.toValue := by
  induction typed generalizing q with
  | clause typed =>
    cases h with
    | clause usable => exact isNode_of_metaClause typed usable
  | group _ _ ih =>
    cases h with
    | group pruned nonempty =>
      refine isNode_join _ nonempty fun node hnode => ?_
      obtain ⟨entry, hentry, himage⟩ := pruned.exists_of_mem hnode
      exact ih entry hentry himage

end CommentSearch
