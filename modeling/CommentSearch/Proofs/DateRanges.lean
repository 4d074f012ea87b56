import CommentSearch.Proofs.PeriodLimits

/-!
# The ranges of date filters

A clause asks for up to two ranges (`DateClause.HasRange`): one with the bounds that its ends give,
and one for the period that it is limited to. The ranges that stand anywhere in the filter of a date
query are those of its clauses, whatever relation joins them
(`DateFilter.hasRange_iff_of_compile`).
-/

namespace CommentSearch

/-! ### Ranges in nodes -/

/-- A range stands in a node: it is the node, or it stands in one of the nodes that are joined. -/
inductive Query.HasRange : Query → Bounds → Prop where
  | range (field : String) (b : Bounds) : HasRange (.range field b) b
  | must {nodes : List Query} {node : Query} {b : Bounds} (hmem : node ∈ nodes)
    (h : HasRange node b) : HasRange (.must nodes) b
  | should {nodes : List Query} {node : Query} {b : Bounds} (hmem : node ∈ nodes)
    (h : HasRange node b) : HasRange (.should nodes) b

namespace Query

variable {field : String} {nodes : List Query} {b between : Bounds}

theorem hasRange_range_iff : (range field between).HasRange b ↔ b = between :=
  ⟨fun h => by cases h; rfl, fun h => h ▸ .range field b⟩

theorem hasRange_must_iff : (must nodes).HasRange b ↔ ∃ node ∈ nodes, node.HasRange b := by
  constructor
  · rintro (_ | ⟨hmem, h⟩)
    exact ⟨_, hmem, h⟩
  · rintro ⟨node, hmem, h⟩
    exact .must hmem h

theorem hasRange_should_iff : (should nodes).HasRange b ↔ ∃ node ∈ nodes, node.HasRange b := by
  constructor
  · rintro (_ | _ | ⟨hmem, h⟩)
    exact ⟨_, hmem, h⟩
  · rintro ⟨node, hmem, h⟩
    exact .should hmem h

end Query

/-- A range stands in a filter. -/
def DateFilter.HasRange (f : DateFilter) (b : Bounds) : Prop :=
  ∃ q, (f.all = some q ∨ f.any = some q) ∧ q.HasRange b

/-! ### Ranges of clauses -/

namespace DateClause

/-- What one end of a clause gives as a bound: nothing where it is absent or names no year, the
bound of a text, or an edge of the period that its parts name. -/
inductive EndGives (zone : TimeZone) : Param → Bool → Option String → Prop where
  | absent (atEnd : Bool) : EndGives zone none atEnd none
  | text (s : String) (atEnd : Bool) : EndGives zone (some (.text s)) atEnd (textBound zone s atEnd)
  | yearless {parts : Fields} (year : Param.isEmpty (parts.get? "year") = true) (atEnd : Bool) :
    EndGives zone (some (.object parts)) atEnd none
  | period {parts : Fields} (year : Param.isEmpty (parts.get? "year") = false) (atEnd : Bool) :
    EndGives zone (some (.object parts)) atEnd
      (some (edge (.ofParts (parts.get? "year") (parts.get? "month") (parts.get? "day")) atEnd))

/-- A clause asks for a range: with the bounds of its ends if one of them gives a bound, and from
the first to the last second of the period that it names itself. -/
inductive HasRange (zone : TimeZone) (clause : Fields) : Bounds → Prop where
  | ends {lower upper : Option String}
    (hlower : EndGives zone (clause.get? "after") (!isInclusive clause) lower)
    (hupper : EndGives zone (clause.get? "before") (isInclusive clause) upper)
    (hany : lower ≠ none ∨ upper ≠ none) :
    HasRange zone clause (if isInclusive clause then
        { gte := lower.map Value.text, lte := upper.map Value.text }
      else { gt := lower.map Value.text, lt := upper.map Value.text })
  | period (year : Param.isEmpty (clause.get? "year") = false) :
    HasRange zone clause
      { gte := some (.text (edge
          (.ofParts (clause.get? "year") (monthOf clause) (clause.get? "day")) false))
        lte := some (.text (edge
          (.ofParts (clause.get? "year") (monthOf clause) (clause.get? "day")) true)) }

variable {zone : TimeZone}

theorem endBound_of_gives {p : Param} {atEnd : Bool} {result : Option String}
    (h : EndGives zone p atEnd result) : endBound zone p atEnd = .ok result := by
  cases h with
  | absent | text => rfl
  | yearless year => exact if_pos year
  | period year =>
    refine if_neg ?_
    rw [Value.get?_object, year]
    exact Bool.false_ne_true

/-- An end that is a text or parts of a date gives nothing but its bound. -/
theorem gives_of_endBound {p : Param} {atEnd : Bool} {result : Option String}
    (typed : ∀ v, p = some v → (∃ s, v = .text s) ∨ ∃ parts, v = .object parts)
    (h : endBound zone p atEnd = .ok result) : EndGives zone p atEnd result := by
  suffices hgives : ∃ given, EndGives zone p atEnd given by
    obtain ⟨given, hgiven⟩ := hgives
    rwa [← Except.ok.inj ((endBound_of_gives hgiven).symm.trans h)]
  cases p with
  | none => exact ⟨none, .absent atEnd⟩
  | some v =>
    rcases typed v rfl with ⟨s, rfl⟩ | ⟨parts, rfl⟩
    · exact ⟨_, .text s atEnd⟩
    · cases hyear : Param.isEmpty (Fields.get? parts "year") with
      | true => exact ⟨none, .yearless hyear atEnd⟩
      | false => exact ⟨_, .period hyear atEnd⟩

/-- The ranges that the node of a clause is made of are those that the clause asks for. -/
theorem mem_ranges_iff {clause : Fields} (typed : IsDateClause clause) {between b : Bounds}
    (h : bounds zone clause = .ok between) :
    b ∈ ranges clause between ↔ HasRange zone clause b := by
  rw [bounds_eq] at h
  obtain ⟨lower, hlower, h⟩ := bind_eq_ok_iff.1 h
  obtain ⟨upper, hupper, h⟩ := bind_eq_ok_iff.1 h
  have hbetween := Except.ok.inj h
  have hempty : between.isEmpty = true ↔ ¬(lower ≠ none ∨ upper ≠ none) := by
    rw [← hbetween]
    cases isInclusive clause <;> cases lower <;> cases upper <;> simp [Bounds.isEmpty]
  unfold ranges
  rw [List.mem_append]
  constructor
  · rintro (hends | hperiod)
    · split at hends
      · cases hends
      · rename_i hany
        obtain rfl := List.mem_singleton.1 hends
        rw [← hbetween]
        exact .ends (gives_of_endBound (typed.ends "after" (by simp)) hlower)
          (gives_of_endBound (typed.ends "before" (by simp)) hupper) (not_not.1 (mt hempty.2 hany))
    · unfold limits at hperiod
      split at hperiod
      · cases hperiod
      · rename_i year
        obtain rfl := List.mem_singleton.1 hperiod
        exact .period (Bool.eq_false_iff.2 year)
  · intro hrange
    cases hrange with
    | @ends lower' upper' hlower' hupper' hany =>
      obtain rfl := Except.ok.inj ((endBound_of_gives hlower').symm.trans hlower)
      obtain rfl := Except.ok.inj ((endBound_of_gives hupper').symm.trans hupper)
      refine .inl ?_
      rw [if_neg (mt hempty.1 (not_not.2 hany)), List.mem_singleton]
      exact hbetween
    | period year =>
      refine .inr ?_
      unfold limits
      rw [if_neg (by rw [year]; exact Bool.false_ne_true)]
      exact List.mem_singleton.2 rfl

/-- The ranges in the node of a clause are those that the clause asks for. -/
theorem hasRange_iff_of_node {clause : Fields} (typed : IsDateClause clause) {column : Value}
    {result : Option Query} (h : node zone clause column = .ok result) (b : Bounds) :
    (∃ q, result = some q ∧ q.HasRange b) ↔ HasRange zone clause b := by
  rw [node_eq] at h
  obtain ⟨between, hbetween, h⟩ := bind_eq_ok_iff.1 h
  rw [← mem_ranges_iff typed hbetween]
  split at h
  · rename_i hnil
    obtain rfl := Except.ok.inj h
    simp [hnil]
  · obtain ⟨field, -, h⟩ := bind_eq_ok_iff.1 h
    obtain rfl := Except.ok.inj h
    generalize ranges clause between = bs
    -- a single range stands alone, and several are joined: the node has the same ranges
    have hmust : (Query.must (bs.map (.range field))).HasRange b ↔ b ∈ bs := by
      rw [Query.hasRange_must_iff]
      simp [Query.hasRange_range_iff]
    simp only [Option.some.injEq, exists_eq_left']
    split
    · rename_i range hsingle
      rw [← hmust, hsingle, Query.hasRange_must_iff]
      simp
    · exact hmust

end DateClause

/-! ### Ranges of queries -/

namespace DateFilter

variable {zone : TimeZone}

/-- The ranges in the nodes of typed clauses are those that the clauses ask for. -/
theorem hasRange_iff_of_nodes {column : Value} {values : List Value}
    (typed : ∀ v ∈ values, ∃ clause, v = .object clause ∧ IsDateClause clause)
    {result : List Query} (h : nodes zone column values = .ok result) (b : Bounds) :
    (∃ q ∈ result, q.HasRange b) ↔
      ∃ clause, .object clause ∈ values ∧ DateClause.HasRange zone clause b := by
  induction values generalizing result with
  | nil =>
    obtain rfl := Except.ok.inj h
    simp
  | cons v values ih =>
    obtain ⟨clause, rfl, hclause⟩ := typed v List.mem_cons_self
    rw [nodes_cons_object] at h
    obtain ⟨node, hnode, h⟩ := bind_eq_ok_iff.1 h
    obtain ⟨others, hothers, h⟩ := bind_eq_ok_iff.1 h
    obtain rfl := Except.ok.inj h
    have hhead := DateClause.hasRange_iff_of_node hclause hnode b
    have htail := ih (fun w hw => typed w (List.mem_cons_of_mem _ hw)) hothers
    simp only [List.mem_append, Option.mem_toList, or_and_right, exists_or, List.mem_cons,
      Value.object.injEq, exists_eq_left]
    rw [← htail, ← hhead]

/-- The ranges in the filter of a date query are those that its clauses ask for. -/
theorem hasRange_iff_of_compile {query : Value} (typed : IsDateQuery query) {filter : DateFilter}
    (h : compile (some query) zone = .ok filter) (b : Bounds) :
    filter.HasRange b ↔
      ∃ clause, .object clause ∈ clausesOf query ∧ DateClause.HasRange zone clause b := by
  have hclauses : ∀ v ∈ clausesOf query, ∃ clause, v = .object clause ∧ IsDateClause clause := by
    cases typed with
    | list typed => exact typed
    | object relation column entries typed =>
      unfold clausesOf
      dsimp only
      rw [Value.get?_object, entries]
      exact typed
  have hnull : query ≠ .null := by
    rintro rfl
    cases typed
  rw [compile_eq hnull, ofClauses] at h
  obtain ⟨result, hresult, h⟩ := bind_eq_ok_iff.1 h
  rw [← hasRange_iff_of_nodes hclauses hresult]
  unfold HasRange
  split at h
  · rename_i hnil
    obtain rfl := Except.ok.inj h
    simp [List.isEmpty_iff.1 hnil]
  · obtain ⟨keyword, -, h⟩ := bind_eq_ok_iff.1 h
    obtain rfl := Except.ok.inj h
    split
    · simp [Query.hasRange_should_iff]
    · simp [Query.hasRange_must_iff]

end DateFilter

end CommentSearch
