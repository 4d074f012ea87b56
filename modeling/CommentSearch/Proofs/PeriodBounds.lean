import CommentSearch.Proofs.DateClauses
import CommentSearch.Proofs.DateSpans

/-!
# Bounds by whole periods

A span is named by its text or by an object of its parts (`DateSpan.NamedBy`). In either form it
gives one of its edges as a bound (`bound_of_namedBy`), so a clause that is bounded by it has the
range of one side of the span (`DateSpan.range`, `node_of_isBoundedBy`).

Stored dates are compared as texts (`Bounds.Admits`). As this is their order in time, such a range
admits the dates beyond the span, or those in it and beyond (`admits_after_exclusive_iff` and the
like), and two ranges on opposite sides divide the stored dates between them.
-/

namespace CommentSearch

/-! ### Forms of spans -/

namespace DateSpan

/-- The text of a span: `YYYY`, `YYYY-MM` or `YYYY-MM-DD`. -/
def chars : DateSpan → List Char
  | year y => padded 4 y
  | month y m => padded 4 y ++ '-' :: padded 2 m
  | day y m d => padded 4 y ++ '-' :: (padded 2 m ++ '-' :: padded 2 d)

/-- A value names a span: its text between blanks, or an object of its parts. -/
inductive NamedBy (P : DateSpan) : Value → Prop where
  | text {before after : List Char} (blankBefore : ∀ c ∈ before, Text.isBlank c = true)
    (blankAfter : ∀ c ∈ after, Text.isBlank c = true) :
    NamedBy P (.text (String.ofList (before ++ (P.chars ++ after))))
  | parts {fields : Fields}
    (parts : P.Parts (fields.get? "year") (fields.get? "month") (fields.get? "day")) :
    NamedBy P (.object fields)

variable {P : DateSpan}

theorem digits?_padded (width : Nat) {n : Int} (hwidth : 0 < width)
    (hn : 0 ≤ n ∧ n < 10 ^ width) (rest : List Char) :
    DateText.digits? width (padded width n ++ rest) = some (padded width n, rest) := by
  have hlength := length_padded hwidth hn.1 hn.2
  have hall : (padded width n).all Char.isDigit = true := List.all_eq_true.2 (isDigits_padded hn.1)
  unfold DateText.digits?
  rw [List.take_left' hlength, List.drop_left' hlength]
  exact if_pos ⟨hlength, hall⟩

theorem partAfter?_padded (separator : Char) {n : Int} (hn : 0 ≤ n ∧ n < 100) (rest : List Char) :
    DateText.partAfter? separator (separator :: (padded 2 n ++ rest)) =
      some (padded 2 n, rest) := by
  unfold DateText.partAfter?
  dsimp only
  rw [if_pos rfl]
  exact digits?_padded 2 (by decide) hn rest

/-- The digits of the parts of a span. -/
def digits : DateSpan → List Char × Option (List Char) × Option (List Char)
  | year y => (padded 4 y, none, none)
  | month y m => (padded 4 y, some (padded 2 m), none)
  | day y m d => (padded 4 y, some (padded 2 m), some (padded 2 d))

/-- The text of a span is read as the digits of its parts. -/
theorem periodParts?_chars (h : P.IsReal) : DateText.periodParts? P.chars = some P.digits := by
  cases P with
  | year y =>
    unfold IsReal at h
    have hyear := digits?_padded 4 (n := y) (by decide) (by omega) []
    rw [List.append_nil] at hyear
    simp [DateText.periodParts?, chars, digits, hyear]
  | month y m =>
    unfold IsReal at h
    have hyear := digits?_padded 4 (n := y) (by decide) (by omega) ('-' :: padded 2 m)
    have hmonth := partAfter?_padded '-' (n := m) (by omega) []
    rw [List.append_nil] at hmonth
    simp [DateText.periodParts?, chars, digits, hyear, hmonth]
  | day y m d =>
    have hdays := daysInMonth_bounds y m
    unfold IsReal at h
    have hyear := digits?_padded 4 (n := y) (by decide) (by omega)
      ('-' :: (padded 2 m ++ '-' :: padded 2 d))
    have hmonth := partAfter?_padded '-' (n := m) (by omega) ('-' :: padded 2 d)
    have hday := partAfter?_padded '-' (n := d) (by omega) []
    rw [List.append_nil] at hday
    simp [DateText.periodParts?, chars, digits, hyear, hmonth, hday]

theorem isBlank_of_mem_padded {width : Nat} {n : Int} (hn : 0 ≤ n) {c : Char}
    (hc : c ∈ padded width n) : Text.isBlank c = false := by
  have hdigit := isDigits_padded hn c hc
  rw [Char.isDigit_iff_toNat] at hdigit
  exact isBlank_of_isDigit hdigit

theorem isBlank_of_mem_chars (h : P.IsReal) {c : Char} (hc : c ∈ P.chars) :
    Text.isBlank c = false := by
  have hhyphen : Text.isBlank '-' = false := by decide
  cases P with
  | year y =>
    unfold IsReal at h
    exact isBlank_of_mem_padded (by omega) hc
  | month y m =>
    unfold IsReal at h
    rcases List.mem_append.1 hc with hc | hc
    · exact isBlank_of_mem_padded (by omega) hc
    rcases List.mem_cons.1 hc with rfl | hc
    · exact hhyphen
    · exact isBlank_of_mem_padded (by omega) hc
  | day y m d =>
    unfold IsReal at h
    rcases List.mem_append.1 hc with hc | hc
    · exact isBlank_of_mem_padded (by omega) hc
    rcases List.mem_cons.1 hc with rfl | hc
    · exact hhyphen
    rcases List.mem_append.1 hc with hc | hc
    · exact isBlank_of_mem_padded (by omega) hc
    rcases List.mem_cons.1 hc with rfl | hc
    · exact hhyphen
    · exact isBlank_of_mem_padded (by omega) hc

theorem isInteger_padded {width : Nat} {n : Int} (hwidth : 0 < width)
    (hn : 0 ≤ n ∧ n < 10 ^ width) :
    Param.IsInteger (some (.text (String.ofList (padded width n)))) n := by
  have hlength := length_padded hwidth hn.1 hn.2
  refine .inr ⟨_, rfl, ?_, ?_, ?_⟩
  · intro hempty
    have hnil : padded width n = [] := by simpa using congrArg String.toList hempty
    rw [hnil, List.length_nil] at hlength
    omega
  · rw [String.toList_ofList]
    exact isDigits_padded hn.1
  · rw [String.toList_ofList, digitsValue_padded hn.1]
    omega

theorem parts_digits (h : P.IsReal) : P.Parts (some (.text (String.ofList P.digits.1)))
    (P.digits.2.1.map fun ds => .text (String.ofList ds))
    (P.digits.2.2.map fun ds => .text (String.ofList ds)) := by
  cases P with
  | year y =>
    unfold IsReal at h
    exact ⟨isInteger_padded (by decide) (by omega), rfl, rfl⟩
  | month y m =>
    unfold IsReal at h
    exact ⟨isInteger_padded (by decide) (by omega), isInteger_padded (by decide) (by omega), rfl⟩
  | day y m d =>
    have hdays := daysInMonth_bounds y m
    unfold IsReal at h
    exact ⟨isInteger_padded (by decide) (by omega), isInteger_padded (by decide) (by omega),
      isInteger_padded (by decide) (by omega)⟩

/-- The text of a span gives an edge of the span as its bound. -/
theorem textBound_chars (zone : TimeZone) (h : P.IsReal) {before after : List Char}
    (hbefore : ∀ c ∈ before, Text.isBlank c = true) (hafter : ∀ c ∈ after, Text.isBlank c = true)
    (atEnd : Bool) :
    DateClause.textBound zone (String.ofList (before ++ (P.chars ++ after))) atEnd =
      some (if atEnd then P.last else P.first).stored := by
  have hparts := periodParts?_chars h
  -- an empty text has no parts
  have hne : P.chars ≠ [] := by
    intro hnil
    rw [hnil] at hparts
    cases hparts
  unfold DateClause.textBound
  rw [String.toList_ofList,
    trimChars_append hne hbefore (fun c hc => isBlank_of_mem_chars h hc) hafter]
  dsimp only
  rw [if_neg (by simpa using hne), hparts]
  exact congrArg some (edge_ofParts h (parts_digits h) atEnd)

/-- Whatever names a span gives an edge of the span as its bound. -/
theorem bound_of_namedBy (zone : TimeZone) (h : P.IsReal) {v : Value} (hv : P.NamedBy v)
    (atEnd : Bool) :
    DateClause.bound zone v atEnd = .ok (some (if atEnd then P.last else P.first).stored) := by
  cases hv with
  | text blankBefore blankAfter =>
    exact congrArg _ (textBound_chars zone h blankBefore blankAfter atEnd)
  | @parts fields parts =>
    -- no year of a span is zero, which would count as none
    have hyear : Param.isEmpty (fields.get? "year") = false := by
      cases P <;> exact parts.1.isEmpty_eq (by unfold IsReal at h; omega)
    unfold DateClause.bound
    simp only [Value.get?_object, hyear, edge_ofParts h parts]
    rfl

end DateSpan

/-! ### Sides -/

/-- The sides of a date on which a clause can ask for dates. -/
inductive DateSide where
  | after
  | before

namespace DateSide

/-- The field of a clause that bounds a side. -/
def key : DateSide → String
  | after => "after"
  | before => "before"

/-- The opposite side. -/
def opposite : DateSide → DateSide
  | after => before
  | before => after

end DateSide

/-- The dates on a side of a span: up to an edge of the span, which is the near one if the span is
included and the far one if it is not. -/
def DateSpan.range (P : DateSpan) : DateSide → Bool → Bounds
  | .after, false => { gt := some (.text P.last.stored) }
  | .after, true => { gte := some (.text P.first.stored) }
  | .before, false => { lt := some (.text P.first.stored) }
  | .before, true => { lte := some (.text P.last.stored) }

/-- A text lies between the ends of a range. Texts are in the order of their first characters that
differ. -/
structure Bounds.Admits (b : Bounds) (t : String) : Prop where
  gt : ∀ v, b.gt = some v → ∃ s, v = .text s ∧ s.toList < t.toList
  gte : ∀ v, b.gte = some v → ∃ s, v = .text s ∧ ¬t.toList < s.toList
  lt : ∀ v, b.lt = some v → ∃ s, v = .text s ∧ t.toList < s.toList
  lte : ∀ v, b.lte = some v → ∃ s, v = .text s ∧ ¬s.toList < t.toList

namespace Bounds

variable {s t : String}

theorem exists_text_eq_and {p : String → Prop} :
    (∀ v, some (Value.text s) = some v → ∃ s, v = .text s ∧ p s) ↔ p s := by
  constructor
  · intro h
    obtain ⟨s', heq, hp⟩ := h _ rfl
    rwa [Value.text.inj heq]
  · rintro hp v ⟨⟩
    exact ⟨s, rfl, hp⟩

theorem admits_gt_iff : Admits { gt := some (.text s) } t ↔ s.toList < t.toList :=
  ⟨fun h => exists_text_eq_and.1 h.gt, fun h => ⟨exists_text_eq_and.2 h, nofun, nofun, nofun⟩⟩

theorem admits_gte_iff : Admits { gte := some (.text s) } t ↔ ¬t.toList < s.toList :=
  ⟨fun h => exists_text_eq_and.1 h.gte, fun h => ⟨nofun, exists_text_eq_and.2 h, nofun, nofun⟩⟩

theorem admits_lt_iff : Admits { lt := some (.text s) } t ↔ t.toList < s.toList :=
  ⟨fun h => exists_text_eq_and.1 h.lt, fun h => ⟨nofun, nofun, exists_text_eq_and.2 h, nofun⟩⟩

theorem admits_lte_iff : Admits { lte := some (.text s) } t ↔ ¬s.toList < t.toList :=
  ⟨fun h => exists_text_eq_and.1 h.lte, fun h => ⟨nofun, nofun, nofun, exists_text_eq_and.2 h⟩⟩

end Bounds

/-! ### Clauses with one bound -/

namespace DateClause

/-- A clause for a column that has a bound on one side only, and is not limited to a period. -/
structure IsBoundedBy (clause : Fields) (side : DateSide) (inclusive : Bool) (v : Value) :
    Prop where
  bound : clause.get? side.key = some v
  opposite : clause.get? side.opposite.key = none
  inclusive : clause.get? "inclusive" = some (.bool true) ↔ inclusive = true
  year : clause.get? "year" = none

variable {zone : TimeZone} {P : DateSpan} {clause : Fields} {side : DateSide} {inclusive : Bool}
  {v : Value}

theorem IsBoundedBy.isInclusive_eq (h : IsBoundedBy clause side inclusive v) :
    isInclusive clause = inclusive := by
  have hinclusive := h.inclusive
  unfold isInclusive
  split
  · rename_i heq
    exact (hinclusive.1 heq).symm
  · rename_i hne
    cases inclusive with
    | false => rfl
    | true => exact absurd (hinclusive.2 rfl) hne

/-- The bounds of a clause that is bounded by a span are those of a side of the span. -/
theorem bounds_of_isBoundedBy (real : P.IsReal) (hv : P.NamedBy v)
    (h : IsBoundedBy clause side inclusive v) :
    bounds zone clause = .ok (P.range side inclusive) := by
  rw [bounds_eq, h.isInclusive_eq]
  cases side with
  | after =>
    have hends : clause.get? "after" = some v ∧ clause.get? "before" = none := ⟨h.bound, h.opposite⟩
    simp only [hends, endBound, DateSpan.bound_of_namedBy zone real hv]
    cases inclusive <;> rfl
  | before =>
    have hends : clause.get? "before" = some v ∧ clause.get? "after" = none := ⟨h.bound, h.opposite⟩
    simp only [hends, endBound, DateSpan.bound_of_namedBy zone real hv]
    cases inclusive <;> rfl

/-- A clause that is bounded by a span is a range of its column. -/
theorem node_of_isBoundedBy (real : P.IsReal) (hv : P.NamedBy v)
    (h : IsBoundedBy clause side inclusive v) {column : Value} {field : String}
    (hcolumn : columnOr (clause.get? "column") column = .text field) :
    node zone clause column = .ok (some (.range field (P.range side inclusive))) := by
  have hnonempty : (P.range side inclusive).isEmpty = false := by
    cases side <;> cases inclusive <;> rfl
  have hlimits : limits clause = none := by
    unfold limits
    rw [h.year]
    rfl
  have hranges : ranges clause (P.range side inclusive) = [P.range side inclusive] := by
    simp [ranges, hnonempty, hlimits]
  rw [node_eq, bounds_of_isBoundedBy real hv h, hcolumn]
  change (if ranges clause (P.range side inclusive) = [] then _ else _) = _
  rw [hranges, if_neg (List.cons_ne_nil _ _)]
  rfl

end DateClause

/-- A query of one clause that is bounded by a span asks for a range of the column of the clause. -/
theorem DateFilter.compile_of_isBoundedBy {zone : TimeZone} {P : DateSpan} (real : P.IsReal)
    {v : Value} (hv : P.NamedBy v) {clause : Fields} {side : DateSide} {inclusive : Bool}
    (h : DateClause.IsBoundedBy clause side inclusive v) {field : String}
    (hcolumn : DateClause.columnOr (clause.get? "column") (.text defaultDateColumn) =
      .text field) :
    compile (some (.list [.object clause])) zone =
      .ok { all := some (.must [.range field (P.range side inclusive)]) } := by
  unfold compile ofClauses
  dsimp only
  rw [nodes_cons_object, DateClause.node_of_isBoundedBy real hv h hcolumn]
  rfl

/-! ### The dates of a side -/

namespace DateSpan

section Meaning

variable {P : DateSpan} (real : P.IsReal) {t : DateTime} (ht : t.Storable)

include real ht

theorem admits_after_exclusive_iff :
    (P.range .after false).Admits t.stored ↔ P.Precedes t := by
  rw [range, Bounds.admits_gt_iff, DateTime.stored_lt_stored_iff (storable_last real) ht,
    precedes_iff real ht.valid]

theorem admits_after_inclusive_iff :
    (P.range .after true).Admits t.stored ↔ P.Contains t ∨ P.Precedes t := by
  rw [range, Bounds.admits_gte_iff, DateTime.stored_lt_stored_iff ht (storable_first real),
    contains_or_precedes_iff real ht.valid]

theorem admits_before_exclusive_iff :
    (P.range .before false).Admits t.stored ↔ P.Follows t := by
  rw [range, Bounds.admits_lt_iff, DateTime.stored_lt_stored_iff ht (storable_first real),
    follows_iff real ht.valid]

theorem admits_before_inclusive_iff :
    (P.range .before true).Admits t.stored ↔ P.Contains t ∨ P.Follows t := by
  rw [range, Bounds.admits_lte_iff, DateTime.stored_lt_stored_iff (storable_last real) ht,
    contains_or_follows_iff real ht.valid]

end Meaning

end DateSpan

/-- A clause that is bounded by a span asks for the stored dates beyond the span, or for those in it
and beyond, in whichever form it names the span. Of every stored date, exactly one of two opposite
sides asks for it, of which one includes the span and the other does not. -/
theorem boundedBy_span_meaning (zone : TimeZone) {P : DateSpan} (real : P.IsReal) :
    (∀ v clause side inclusive, P.NamedBy v → DateClause.IsBoundedBy clause side inclusive v →
      (∀ column field, DateClause.columnOr (clause.get? "column") column = .text field →
        DateClause.node zone clause column = .ok (some (.range field (P.range side inclusive)))) ∧
      ∀ field,
        DateClause.columnOr (clause.get? "column") (.text defaultDateColumn) = .text field →
          DateFilter.compile (some (.list [.object clause])) zone =
            .ok { all := some (.must [.range field (P.range side inclusive)]) }) ∧
    ∀ t : DateTime, t.Storable →
      ((P.range .after false).Admits t.stored ↔ P.Precedes t) ∧
      ((P.range .after true).Admits t.stored ↔ P.Contains t ∨ P.Precedes t) ∧
      ((P.range .before false).Admits t.stored ↔ P.Follows t) ∧
      ((P.range .before true).Admits t.stored ↔ P.Contains t ∨ P.Follows t) ∧
      ((P.range .before false).Admits t.stored ↔ ¬(P.range .after true).Admits t.stored) ∧
      ((P.range .before true).Admits t.stored ↔ ¬(P.range .after false).Admits t.stored) := by
  refine ⟨?_, ?_⟩
  · intro v clause side inclusive hv h
    constructor
    · intro column field hcolumn
      exact DateClause.node_of_isBoundedBy real hv h hcolumn
    · intro field hcolumn
      exact DateFilter.compile_of_isBoundedBy real hv h hcolumn
  · intro t ht
    refine ⟨DateSpan.admits_after_exclusive_iff real ht,
      DateSpan.admits_after_inclusive_iff real ht, DateSpan.admits_before_exclusive_iff real ht,
      DateSpan.admits_before_inclusive_iff real ht, ?_, ?_⟩
    · rw [DateSpan.admits_before_exclusive_iff real ht, DateSpan.admits_after_inclusive_iff real ht,
        DateSpan.follows_iff real ht.valid, DateSpan.contains_or_precedes_iff real ht.valid,
        not_not]
    · rw [DateSpan.admits_before_inclusive_iff real ht, DateSpan.admits_after_exclusive_iff real ht,
        DateSpan.precedes_iff real ht.valid, DateSpan.contains_or_follows_iff real ht.valid]

theorem boundedBy_span_meaning_february :
    let range : Bounds := { gt := some (.text "2024-02-29 23:59:59") }
    let filter : DateFilter := { all := some (.must [.range "comment_date_gmt" range]) }
    (DateSpan.month 2024 2).IsReal ∧
      DateFilter.compile (some (.list [.object [("after", .text " 2024-02 ")]])) = .ok filter ∧
      DateFilter.compile (some (.list [.object [("after", .object
        [("year", .number (.finite 2024)), ("month", .text "02")])]])) = .ok filter ∧
      (range.Admits "2024-03-01 00:00:00" ↔
        (DateSpan.month 2024 2).Precedes ⟨2024, 3, 1, 0, 0, 0⟩) := by
  intro range filter
  have real : (DateSpan.month 2024 2).IsReal := by
    unfold DateSpan.IsReal
    decide
  have hrange : (DateSpan.month 2024 2).range .after false = range := rfl
  have hblank : ∀ c ∈ [' '], Text.isBlank c = true := List.all_eq_true.1 rfl
  have htext : (DateSpan.month 2024 2).NamedBy (.text " 2024-02 ") :=
    @DateSpan.NamedBy.text _ [' '] [' '] hblank hblank
  have hdigits : IsDigits "02".toList := List.all_eq_true.1 rfl
  have hparts : (DateSpan.month 2024 2).NamedBy
      (.object [("year", .number (.finite 2024)), ("month", .text "02")]) :=
    .parts ⟨.inl (by norm_num [Fields.get?]), .inr ⟨"02", rfl, by decide, hdigits, by decide⟩, rfl⟩
  have hbounded (v : Value) : DateClause.IsBoundedBy [("after", v)] .after false v :=
    ⟨rfl, rfl, ⟨nofun, nofun⟩, rfl⟩
  have hstorable : DateTime.Storable ⟨2024, 3, 1, 0, 0, 0⟩ :=
    ⟨⟨by decide, by decide, by decide, by decide, by decide⟩, by decide⟩
  obtain ⟨hcompile, hmeaning⟩ := boundedBy_span_meaning .universal real
  rw [← hrange]
  refine ⟨real, ?_, ?_, (hmeaning _ hstorable).1⟩
  · exact (hcompile _ _ _ _ htext (hbounded _)).2 _ rfl
  · exact (hcompile _ _ _ _ hparts (hbounded _)).2 _ rfl

end CommentSearch
