import CommentSearch.Proofs.DateClauses
import CommentSearch.Proofs.Readable

/-!
# Date queries that can be read

No end of a clause may be null, and a clause that restricts its column is read by the text form of
that column (`DateClause.IsReadable`). The relation of a query is read only if one of its clauses
restricts something (`DateFilter.exists_compile_iff`).
-/

namespace CommentSearch

/-! ### Clauses -/

/-- A value that names a bound: a text that is not blank, or an object with a year. -/
inductive Value.NamesBound : Value → Prop
  | text {s : String} (nonblank : Text.trimChars s.toList ≠ []) : NamesBound (.text s)
  | year {v : Value} (year : Param.isEmpty (v.get? "year") = false) : NamesBound v

/-- A parameter that names a bound. -/
def Param.NamesBound (p : Param) : Prop := ∃ v, p = some v ∧ v.NamesBound

namespace DateClause

variable {zone : TimeZone}

theorem namesBound_text_iff {s : String} :
    (Value.text s).NamesBound ↔ Text.trimChars s.toList ≠ [] := by
  constructor
  · intro h
    cases h with
    | text nonblank => exact nonblank
    | year year => cases year
  · exact .text

theorem bound_of_not_text {v : Value} (hnull : v ≠ .null) (htext : ∀ s, v ≠ .text s)
    (atEnd : Bool) : bound zone v atEnd =
      if Param.isEmpty (v.get? "year") then .ok none
      else .ok (some (edge (Period.ofParts (v.get? "year") (v.get? "month") (v.get? "day"))
        atEnd)) := by
  cases v with
  | null => exact absurd rfl hnull
  | text s => exact absurd rfl (htext s)
  | bool | number | list | object => rfl

/-- Every value but null gives a bound if it names one, and none otherwise. -/
theorem exists_bound (zone : TimeZone) {v : Value} (hnull : v ≠ .null) (atEnd : Bool) :
    ∃ result, bound zone v atEnd = .ok result ∧ (result ≠ none ↔ v.NamesBound) := by
  by_cases htext : ∃ s, v = .text s
  · obtain ⟨s, rfl⟩ := htext
    refine ⟨textBound zone s atEnd, rfl, ?_⟩
    rw [namesBound_text_iff]
    unfold textBound
    dsimp only
    split
    · rename_i hblank
      exact iff_of_false (fun h => h rfl) fun h => h (List.isEmpty_iff.1 hblank)
    · rename_i hblank
      have hne : Text.trimChars s.toList ≠ [] := fun h => hblank (List.isEmpty_iff.2 h)
      split <;> exact iff_of_true nofun hne
  · have hother : ∀ s, v ≠ .text s := fun s h => htext ⟨s, h⟩
    rw [bound_of_not_text hnull hother]
    cases hempty : Param.isEmpty (v.get? "year") with
    | true =>
      refine ⟨none, if_pos rfl, iff_of_false (fun h => h rfl) fun h => ?_⟩
      cases h with
      | text => exact hother _ rfl
      | year year =>
        rw [hempty] at year
        cases year
    | false => exact ⟨_, if_neg Bool.false_ne_true, iff_of_true nofun (.year hempty)⟩

theorem exists_endBound_iff {p : Param} (atEnd : Bool) :
    (∃ result, endBound zone p atEnd = .ok result) ↔ p ≠ some .null := by
  cases p with
  | none => exact ⟨fun _ => nofun, fun _ => ⟨none, rfl⟩⟩
  | some v =>
    by_cases hnull : v = .null
    · subst hnull
      exact ⟨nofun, fun h => absurd rfl h⟩
    · obtain ⟨result, hresult, -⟩ := exists_bound zone hnull atEnd
      exact ⟨fun _ h => hnull (Option.some.inj h), fun _ => ⟨result, hresult⟩⟩

theorem ne_none_iff_of_endBound {p : Param} {atEnd : Bool} {result : Option String}
    (h : endBound zone p atEnd = .ok result) : result ≠ none ↔ p.NamesBound := by
  cases p with
  | none =>
    obtain rfl := Except.ok.inj h
    exact iff_of_false (fun h => h rfl) nofun
  | some v =>
    have hnull : v ≠ .null := by
      rintro rfl
      cases h
    obtain ⟨other, hother, hiff⟩ := exists_bound zone hnull atEnd
    obtain rfl : result = other := Except.ok.inj (h.symm.trans hother)
    rw [hiff]
    exact ⟨fun h => ⟨v, rfl, h⟩, fun ⟨w, hw, h⟩ => Option.some.inj hw ▸ h⟩

/-- A clause that restricts its column: an end of it names a bound, or it names a year itself. -/
def Restricts (clause : Fields) : Prop :=
  Param.NamesBound (clause.get? "after") ∨ Param.NamesBound (clause.get? "before") ∨
    Param.isEmpty (clause.get? "year") = false

theorem ranges_ne_nil_iff {clause : Fields} {between : Bounds}
    (h : bounds zone clause = .ok between) : ranges clause between ≠ [] ↔ Restricts clause := by
  rw [bounds_eq] at h
  obtain ⟨lower, hlower, h⟩ := bind_eq_ok_iff.1 h
  obtain ⟨upper, hupper, h⟩ := bind_eq_ok_iff.1 h
  have hbetween : between.isEmpty = (lower.isNone && upper.isNone) := by
    rw [← Except.ok.inj h]
    cases isInclusive clause <;> cases lower <;> cases upper <;> rfl
  have hlimits : (limits clause).toList ≠ [] ↔ Param.isEmpty (clause.get? "year") = false := by
    unfold limits
    cases Param.isEmpty (clause.get? "year") <;> simp
  unfold Restricts ranges
  rw [← ne_none_iff_of_endBound hlower, ← ne_none_iff_of_endBound hupper, ← hlimits, hbetween]
  cases lower <;> cases upper <;> simp

/-- A clause of a date query that can be read: none of its ends is null, and if it restricts its
column, that has a text form. -/
structure IsReadable (clause : Fields) (column : Value) : Prop where
  after : clause.get? "after" ≠ some .null
  before : clause.get? "before" ≠ some .null
  column : Restricts clause → ¬(columnOr (clause.get? "column") column).Formless

theorem exists_bounds_iff {clause : Fields} : (∃ between, bounds zone clause = .ok between) ↔
    clause.get? "after" ≠ some .null ∧ clause.get? "before" ≠ some .null := by
  rw [bounds_eq, ← exists_endBound_iff (!isInclusive clause),
    ← exists_endBound_iff (isInclusive clause)]
  exact exists_bind_bind_eq_ok_iff

/-- The clauses that compile are those that can be read. -/
theorem exists_node_iff {clause : Fields} {column : Value} :
    (∃ result, node zone clause column = .ok result) ↔ IsReadable clause column := by
  have hfield (between : Bounds) (hbetween : bounds zone clause = .ok between)
      (joined : String → Query) : (∃ result, (if ranges clause between = [] then .ok none
        else textForm (some (columnOr (clause.get? "column") column)) >>= fun field =>
          .ok (some (joined field)) : Except Fault (Option Query)) = .ok result) ↔
        (Restricts clause → ¬(columnOr (clause.get? "column") column).Formless) := by
    rw [← ranges_ne_nil_iff hbetween]
    by_cases hnil : ranges clause between = []
    · rw [if_pos hnil]
      exact ⟨fun _ hne => absurd hnil hne, fun _ => ⟨none, rfl⟩⟩
    · rw [if_neg hnil]
      have hform : Param.HasForm (some (columnOr (clause.get? "column") column)) ↔
          ¬(columnOr (clause.get? "column") column).Formless :=
        ⟨fun h => h _ rfl, fun h v hv => Option.some.inj hv ▸ h⟩
      rw [← hform, ← Param.exists_textForm_iff]
      exact exists_bind_pure_eq_ok_iff.trans ⟨fun h _ => h, fun h => h hnil⟩
  rw [node_eq, exists_bind_eq_ok_iff]
  constructor
  · rintro ⟨between, hbetween, hresult⟩
    obtain ⟨hafter, hbefore⟩ := exists_bounds_iff.1 ⟨between, hbetween⟩
    exact ⟨hafter, hbefore, (hfield between hbetween _).1 hresult⟩
  · rintro ⟨hafter, hbefore, hcolumn⟩
    obtain ⟨between, hbetween⟩ := exists_bounds_iff.2 ⟨hafter, hbefore⟩
    exact ⟨between, hbetween, (hfield between hbetween _).2 hcolumn⟩

theorem ne_none_iff_of_node {clause : Fields} {column : Value} {result : Option Query}
    (h : node zone clause column = .ok result) : result ≠ none ↔ Restricts clause := by
  rw [node_eq] at h
  obtain ⟨between, hbetween, h⟩ := bind_eq_ok_iff.1 h
  rw [← ranges_ne_nil_iff hbetween]
  split at h
  · rename_i hnil
    obtain rfl := Except.ok.inj h
    exact iff_of_false (fun h => h rfl) fun h => h hnil
  · rename_i hne
    obtain ⟨field, -, h⟩ := bind_eq_ok_iff.1 h
    obtain rfl := Except.ok.inj h
    exact iff_of_true nofun hne

end DateClause

/-! ### Queries -/

namespace DateFilter

variable {zone : TimeZone}

theorem exists_nodes_iff {column : Value} {clauses : List Value} :
    (∃ result, nodes zone column clauses = .ok result) ↔
      ∀ clause, .object clause ∈ clauses → DateClause.IsReadable clause column := by
  induction clauses with
  | nil => exact ⟨fun _ => by simp, fun _ => ⟨[], rfl⟩⟩
  | cons v clauses ih =>
    cases v with
    | object clause =>
      have hcons : (∃ result, nodes zone column (.object clause :: clauses) = .ok result) ↔
          (∃ result, DateClause.node zone clause column = .ok result) ∧
            ∃ others, nodes zone column clauses = .ok others :=
        exists_bind_bind_eq_ok_iff
      rw [hcons, ih, DateClause.exists_node_iff]
      simp only [List.mem_cons, Value.object.injEq, forall_eq_or_imp]
    | null | bool | number | text | list => simpa [nodes] using ih

theorem ne_nil_iff_of_nodes {column : Value} {clauses : List Value} {result : List Query}
    (h : nodes zone column clauses = .ok result) :
    result ≠ [] ↔ ∃ clause, .object clause ∈ clauses ∧ DateClause.Restricts clause := by
  induction clauses generalizing result with
  | nil =>
    obtain rfl := Except.ok.inj h
    simp
  | cons v clauses ih =>
    cases v with
    | object clause =>
      rw [nodes_cons_object] at h
      obtain ⟨node, hnode, h⟩ := bind_eq_ok_iff.1 h
      obtain ⟨others, hothers, h⟩ := bind_eq_ok_iff.1 h
      obtain rfl := Except.ok.inj h
      have hhead := DateClause.ne_none_iff_of_node hnode
      simp only [List.mem_cons, Value.object.injEq, or_and_right, exists_or, exists_eq_left]
      rw [← hhead, ← ih hothers]
      cases node <;> simp
    | null | bool | number | text | list => simpa using ih h

/-- A date query that can be read: its clauses are readable, and if one of them restricts its
column, the relation is a keyword. -/
structure IsReadable (query : Value) : Prop where
  clauses : ∀ clause, .object clause ∈ clausesOf query →
    DateClause.IsReadable clause (columnOf query)
  relation : (∃ clause, .object clause ∈ clausesOf query ∧ DateClause.Restricts clause) →
    Param.IsKeyword (query.get? "relation")

/-- The date queries that compile are those that can be read. -/
theorem exists_compile_iff {query : Value} (h : query ≠ .null) :
    (∃ filter, compile (some query) zone = .ok filter) ↔ IsReadable query := by
  have hjoin (result : List Query) : (∃ filter, (if result.isEmpty then pure {}
      else (Param.keyword (query.get? "relation")) >>= fun keyword =>
        pure (if keyword = some "OR" then ({ any := some (.should result) } : DateFilter)
          else { all := some (.must result) }) : Except Fault DateFilter) = .ok filter) ↔
        (result ≠ [] → Param.IsKeyword (query.get? "relation")) := by
    cases result with
    | nil => exact ⟨fun _ hne => absurd rfl hne, fun _ => ⟨_, rfl⟩⟩
    | cons node result =>
      rw [if_neg (by simp), exists_bind_pure_eq_ok_iff, Param.exists_keyword_iff]
      exact ⟨fun h _ => h, fun h => h (List.cons_ne_nil node result)⟩
  rw [compile_eq h]
  unfold ofClauses
  rw [exists_bind_eq_ok_iff]
  constructor
  · rintro ⟨result, hresult, hfilter⟩
    refine ⟨exists_nodes_iff.1 ⟨result, hresult⟩, fun hrestricts => ?_⟩
    exact (hjoin result).1 hfilter ((ne_nil_iff_of_nodes hresult).2 hrestricts)
  · rintro ⟨hclauses, hrelation⟩
    obtain ⟨result, hresult⟩ := exists_nodes_iff.2 hclauses
    refine ⟨result, hresult, (hjoin result).2 fun hne => ?_⟩
    exact hrelation ((ne_nil_iff_of_nodes hresult).1 hne)

end DateFilter

end CommentSearch
