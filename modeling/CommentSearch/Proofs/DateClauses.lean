import CommentSearch.DateQuery
import CommentSearch.Tool.Parameters
import CommentSearch.Proofs.MetaTree
import CommentSearch.Proofs.Schema

/-!
# Clauses of date queries

A clause bounds the dates of a column by what its two ends give (`bounds_eq`), and has a node for
each of these bounds and for the period that it is limited to (`node_eq`).

A date query whose fields are of their types always compiles (`exists_compile_of_isDateQuery`), and
an accepted one is of this kind (`isDateQuery_of_accepts`).
-/

namespace CommentSearch

namespace DateClause

variable {zone : TimeZone}

/-! ### Bounds and nodes -/

/-- Whether a clause includes the periods that it is bounded by. -/
def isInclusive (clause : Fields) : Bool :=
  match clause.get? "inclusive" with
  | some (.bool true) => true
  | _ => false

/-- The bound that parts of a date give. -/
theorem bound_object (parts : Fields) (atEnd : Bool) : bound zone (.object parts) atEnd =
    if Param.isEmpty (parts.get? "year") then .ok none
    else .ok (some (edge (Period.ofParts (parts.get? "year") (parts.get? "month")
      (parts.get? "day")) atEnd)) :=
  rfl

/-- The bound that one end of a clause gives, if it is there. -/
def endBound (zone : TimeZone) (p : Param) (atEnd : Bool) : Except Fault (Option String) :=
  match p with
  | some v => bound zone v atEnd
  | none => .ok none

theorem bounds_eq (clause : Fields) : bounds zone clause =
    endBound zone (clause.get? "after") (!isInclusive clause) >>= fun lower =>
      endBound zone (clause.get? "before") (isInclusive clause) >>= fun upper =>
        .ok (if isInclusive clause then
            { gte := lower.map Value.text, lte := upper.map Value.text }
          else { gt := lower.map Value.text, lt := upper.map Value.text }) := by
  unfold bounds isInclusive endBound
  cases clause.get? "after" <;> cases clause.get? "before" <;> rfl

/-- The ranges of a clause: its bounds, and the period that it is limited to. -/
def ranges (clause : Fields) (between : Bounds) : List Bounds :=
  (if between.isEmpty then [] else [between]) ++ (limits clause).toList

theorem node_eq (clause : Fields) (column : Value) : node zone clause column =
    bounds zone clause >>= fun between =>
      if ranges clause between = [] then .ok none
      else textForm (some (columnOr (clause.get? "column") column)) >>= fun field =>
        .ok (some (match (ranges clause between).map (Query.range field) with
          | [range] => range
          | nodes => .must nodes)) := by
  unfold node ranges
  cases bounds zone clause with
  | error e => rfl
  | ok between =>
    dsimp only [bind, Except.bind]
    -- how the ranges came about does not matter from here on, only how many there are
    generalize (if between.isEmpty then [] else [between]) ++ (limits clause).toList = bs
    cases bs with
    | nil => rfl
    | cons b bs =>
      rw [if_neg (List.cons_ne_nil b bs)]
      cases textForm (some (columnOr (clause.get? "column") column)) with
      | error e => rfl
      | ok field => cases bs <;> rfl

/-- The node of a clause is one of its ranges, or all of them joined. -/
theorem exists_ranges_of_node {clause : Fields} {column : Value} {q : Query}
    (h : node zone clause column = .ok (some q)) : ∃ field between,
      textForm (some (columnOr (clause.get? "column") column)) = .ok field ∧
      bounds zone clause = .ok between ∧ ((∃ b ∈ ranges clause between, q = .range field b) ∨
        (ranges clause between ≠ [] ∧ q = .must ((ranges clause between).map (.range field)))) := by
  rw [node_eq] at h
  obtain ⟨between, hbetween, h⟩ := bind_eq_ok_iff.1 h
  split at h
  · cases h
  · rename_i hne
    obtain ⟨field, hfield, h⟩ := bind_eq_ok_iff.1 h
    obtain rfl := Option.some.inj (Except.ok.inj h)
    refine ⟨field, between, hfield, hbetween, ?_⟩
    split
    · rename_i range hrange
      obtain ⟨b, hb, rfl⟩ := List.mem_map.1 (hrange ▸ List.mem_singleton_self range)
      exact .inl ⟨b, hb, rfl⟩
    · exact .inr ⟨hne, rfl⟩

end DateClause

/-! ### Filters -/

namespace DateFilter

variable {zone : TimeZone}

theorem nodes_cons_object (column : Value) (clause : Fields) (rest : List Value) :
    nodes zone column (.object clause :: rest) =
      DateClause.node zone clause column >>= fun node =>
        nodes zone column rest >>= fun others => .ok (node.toList ++ others) :=
  rfl

/-- Each of the nodes of values is that of one of the clauses among them. -/
theorem exists_clause_of_mem_nodes {column : Value} {values : List Value} {result : List Query}
    (h : nodes zone column values = .ok result) {q : Query} (hq : q ∈ result) :
    ∃ clause, .object clause ∈ values ∧ DateClause.node zone clause column = .ok (some q) := by
  induction values generalizing result with
  | nil =>
    obtain rfl := Except.ok.inj h
    cases hq
  | cons v values ih =>
    cases v with
    | object clause =>
      rw [nodes_cons_object] at h
      obtain ⟨node, hnode, h⟩ := bind_eq_ok_iff.1 h
      obtain ⟨others, hothers, h⟩ := bind_eq_ok_iff.1 h
      obtain rfl := Except.ok.inj h
      rcases List.mem_append.1 hq with hq | hq
      · rw [Option.mem_toList.1 hq] at hnode
        exact ⟨clause, List.mem_cons_self, hnode⟩
      · obtain ⟨other, hmem, hnode⟩ := ih hothers hq
        exact ⟨other, List.mem_cons_of_mem _ hmem, hnode⟩
    | null | bool | number | text | list =>
      obtain ⟨other, hmem, hnode⟩ := ih h hq
      exact ⟨other, List.mem_cons_of_mem _ hmem, hnode⟩

/-- The clauses of a date query in either of its forms. -/
def clausesOf : Value → List Value
  | .list clauses => clauses
  | v => match v.get? "clauses" with
    | some (.list clauses) => clauses
    | _ => []

/-- The column of the clauses that name none. -/
def columnOf (query : Value) : Value :=
  DateClause.columnOr (query.get? "column") (.text defaultDateColumn)

theorem compile_eq {query : Value} (h : query ≠ .null) : compile (some query) zone =
    ofClauses zone (query.get? "relation") (columnOf query) (clausesOf query) := by
  cases query with
  | null => exact absurd rfl h
  | bool | number | text | list | object => rfl

/-- What a date query asks to hold are nodes of its clauses, at least one. -/
theorem exists_nodes_of_compile {query : Value} (hnull : query ≠ .null) {filter : DateFilter}
    (h : compile (some query) zone = .ok filter) {q : Query} (hq : filter.all = some q) :
    ∃ result, q = .must result ∧ result ≠ [] ∧ ∀ node ∈ result, ∃ clause,
      .object clause ∈ clausesOf query ∧
        DateClause.node zone clause (columnOf query) = .ok (some node) := by
  rw [compile_eq hnull, ofClauses] at h
  obtain ⟨result, hresult, h⟩ := bind_eq_ok_iff.1 h
  split at h
  · obtain rfl := Except.ok.inj h
    cases hq
  · rename_i hne
    obtain ⟨keyword, -, h⟩ := bind_eq_ok_iff.1 h
    obtain rfl := Except.ok.inj h
    split at hq
    · cases hq
    · obtain rfl := Option.some.inj hq
      refine ⟨result, rfl, by simpa using hne, fun node hnode => ?_⟩
      exact exists_clause_of_mem_nodes hresult hnode

end DateFilter

/-! ### Typed queries -/

/-- A clause whose ends are texts or parts of dates, and whose column is a text. -/
structure IsDateClause (clause : Fields) : Prop where
  ends : ∀ key ∈ ["after", "before"], ∀ v, clause.get? key = some v →
    (∃ s, v = .text s) ∨ ∃ parts, v = .object parts
  column : ∀ v, clause.get? "column" = some v → ∃ s, v = .text s

/-- A date query whose fields are of their types: a list of clauses, or an object with one. -/
inductive IsDateQuery : Value → Prop where
  | list {clauses : List Value}
    (typed : ∀ v ∈ clauses, ∃ clause, v = .object clause ∧ IsDateClause clause) :
    IsDateQuery (.list clauses)
  | object {fields : Fields} {clauses : List Value}
    (relation : ∀ v, fields.get? "relation" = some v → ∃ s, v = .text s)
    (column : ∀ v, fields.get? "column" = some v → ∃ s, v = .text s)
    (entries : fields.get? "clauses" = some (.list clauses))
    (typed : ∀ v ∈ clauses, ∃ clause, v = .object clause ∧ IsDateClause clause) :
    IsDateQuery (.object fields)

section

variable (zone : TimeZone)

/-- An end that is a text or parts of a date gives a bound or none. -/
theorem exists_endBound {p : Param} (atEnd : Bool)
    (h : ∀ v, p = some v → (∃ s, v = .text s) ∨ ∃ parts, v = .object parts) :
    ∃ bound, DateClause.endBound zone p atEnd = .ok bound := by
  cases p with
  | none => exact ⟨none, rfl⟩
  | some v =>
    rcases h v rfl with ⟨s, rfl⟩ | ⟨parts, rfl⟩
    · exact ⟨_, rfl⟩
    · unfold DateClause.endBound DateClause.bound
      dsimp only
      split <;> exact ⟨_, rfl⟩

/-- The column of a clause is a text where all that name one do so by a text. -/
theorem exists_text_columnOr {p : Param} {other : Value}
    (h : ∀ v, p = some v → ∃ s, v = .text s) (hother : ∃ s, other = .text s) :
    ∃ s, DateClause.columnOr p other = .text s := by
  unfold DateClause.columnOr
  split
  · rename_i v
    split
    · exact h v rfl
    · exact hother
  · exact hother

/-- A typed clause either has a node or bounds nothing. -/
theorem exists_dateClauseNode {clause : Fields} {column : Value} (h : IsDateClause clause)
    (hcolumn : ∃ s, column = .text s) :
    ∃ result, DateClause.node zone clause column = .ok result := by
  obtain ⟨lower, hlower⟩ := exists_endBound zone (!DateClause.isInclusive clause)
    (h.ends "after" (by simp))
  obtain ⟨upper, hupper⟩ := exists_endBound zone (DateClause.isInclusive clause)
    (h.ends "before" (by simp))
  obtain ⟨name, hname⟩ := exists_text_columnOr h.column hcolumn
  rw [DateClause.node_eq, DateClause.bounds_eq, hlower, hupper, hname]
  simp only [bind, Except.bind, textForm, Value.form?]
  generalize DateClause.ranges clause _ = bs
  by_cases hnil : bs = []
  · exact ⟨none, if_pos hnil⟩
  · exact ⟨_, if_neg hnil⟩

theorem exists_dateNodes {clauses : List Value} {column : Value}
    (h : ∀ v ∈ clauses, ∃ clause, v = .object clause ∧ IsDateClause clause)
    (hcolumn : ∃ s, column = .text s) :
    ∃ nodes, DateFilter.nodes zone column clauses = .ok nodes := by
  induction clauses with
  | nil => exact ⟨[], rfl⟩
  | cons v clauses ih =>
    obtain ⟨clause, rfl, htyped⟩ := h v List.mem_cons_self
    obtain ⟨result, hresult⟩ := exists_dateClauseNode zone htyped hcolumn
    obtain ⟨nodes, hnodes⟩ := ih fun w hw => h w (List.mem_cons_of_mem _ hw)
    rw [DateFilter.nodes_cons_object, hresult, hnodes]
    exact ⟨_, rfl⟩

theorem exists_ofClauses {relation : Param} {clauses : List Value} {column : Value}
    (hrelation : ∀ v, relation = some v → ∃ s, v = .text s)
    (h : ∀ v ∈ clauses, ∃ clause, v = .object clause ∧ IsDateClause clause)
    (hcolumn : ∃ s, column = .text s) :
    ∃ filter, DateFilter.ofClauses zone relation column clauses = .ok filter := by
  obtain ⟨nodes, hnodes⟩ := exists_dateNodes zone h hcolumn
  obtain ⟨keyword, hkeyword⟩ := exists_keyword hrelation
  unfold DateFilter.ofClauses
  simp only [bind, Except.bind, hnodes, hkeyword]
  split <;> exact ⟨_, rfl⟩

theorem exists_compile_of_isDateQuery {query : Value} (h : IsDateQuery query) :
    ∃ filter, DateFilter.compile (some query) zone = .ok filter := by
  cases h with
  | list typed => exact exists_ofClauses zone nofun typed ⟨_, rfl⟩
  | @object fields clauses relation column entries typed =>
    unfold DateFilter.compile
    simp only [bind, Except.bind, fieldOf, Value.get?_object, entries]
    exact exists_ofClauses zone relation typed (exists_text_columnOr column ⟨_, rfl⟩)

end

/-! ### Accepted queries -/

theorem text_or_object_of_accepts {v : Value}
    (h : (Schema.anyOf [.text, .dateParts]).accepts v = true) :
    (∃ s, v = .text s) ∨ ∃ parts, v = .object parts := by
  obtain ⟨form, hform, haccepts⟩ := Schema.accepts_anyOf_iff.1 h
  simp only [List.mem_cons, List.not_mem_nil, or_false] at hform
  rcases hform with rfl | rfl
  · exact .inl (Schema.accepts_text_iff.1 haccepts)
  · obtain ⟨parts, rfl, -⟩ := Schema.accepts_object_iff.1 haccepts
    exact .inr ⟨parts, rfl⟩

theorem isDateClause_of_accepts {v : Value} (h : Schema.dateClause.accepts v = true) :
    ∃ clause, v = .object clause ∧ IsDateClause clause := by
  obtain ⟨clause, rfl, hfields⟩ := Schema.accepts_object_iff.1 h
  refine ⟨clause, rfl, ?_, ?_⟩
  · intro key hkey w hw
    simp only [List.mem_cons, List.not_mem_nil, or_false] at hkey
    rcases hkey with rfl | rfl
    · exact text_or_object_of_accepts ((hfields "after" true _ (by simp)).1 w hw)
    · exact text_or_object_of_accepts ((hfields "before" true _ (by simp)).1 w hw)
  · intro w hw
    exact Schema.accepts_text_iff.1 ((hfields "column" true .text (by simp)).1 w hw)

theorem isDateQuery_of_accepts {v : Value} (h : Schema.dateQuery.accepts v = true) :
    IsDateQuery v := by
  obtain ⟨form, hform, haccepts⟩ := Schema.accepts_anyOf_iff.1 h
  simp only [List.mem_cons, List.not_mem_nil, or_false] at hform
  rcases hform with rfl | rfl
  · obtain ⟨clauses, rfl, hclauses⟩ := Schema.accepts_list_iff.1 haccepts
    exact .list fun w hw => isDateClause_of_accepts (hclauses w hw)
  · obtain ⟨fields, rfl, hfields⟩ := Schema.accepts_object_iff.1 haccepts
    have hentries := hfields "clauses" false (.list .dateClause) (by simp)
    obtain ⟨w, hw⟩ : ∃ w, fields.get? "clauses" = some w := by
      rw [← Option.ne_none_iff_exists']
      exact fun hnone => Bool.false_ne_true (hentries.2 hnone)
    obtain ⟨clauses, rfl, hclauses⟩ := Schema.accepts_list_iff.1 (hentries.1 w hw)
    refine .object ?_ ?_ hw fun w hw => isDateClause_of_accepts (hclauses w hw)
    · intro w hw
      exact Schema.accepts_text_iff.1 ((hfields "relation" true .text (by simp)).1 w hw)
    · intro w hw
      exact Schema.accepts_text_iff.1 ((hfields "column" true .text (by simp)).1 w hw)

end CommentSearch
