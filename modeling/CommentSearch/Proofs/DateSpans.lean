import CommentSearch.DateQuery
import CommentSearch.Proofs.ExactNumbers
import CommentSearch.Proofs.StoredDates

/-!
# Spans of the calendar

A span is a year, a month of a year or a day of a month (`DateSpan`). It reaches from its first to
its last second: the dates in it are those that are neither before the one nor after the other
(`contains_iff`).

The period of the parts of a real span has the stored forms of these two seconds as its edges
(`edge_ofParts`), however the parts are written (`Param.IsInteger`).
-/

namespace CommentSearch

/-! ### Spans -/

/-- A year, a month of a year, or a day of a month. -/
inductive DateSpan where
  | year (year : Int)
  | month (year month : Int)
  | day (year month day : Int)

namespace DateSpan

/-- A span exists in the calendar, in one of the years 1 to 9999. -/
def IsReal : DateSpan → Prop
  | year y => 1 ≤ y ∧ y ≤ 9999
  | month y m => (1 ≤ y ∧ y ≤ 9999) ∧ 1 ≤ m ∧ m ≤ 12
  | day y m d => (1 ≤ y ∧ y ≤ 9999) ∧ (1 ≤ m ∧ m ≤ 12) ∧ 1 ≤ d ∧ d ≤ daysInMonth y m

/-- A date lies in a span. -/
def Contains (t : DateTime) : DateSpan → Prop
  | year y => t.year = y
  | month y m => t.year = y ∧ t.month = m
  | day y m d => t.year = y ∧ t.month = m ∧ t.day = d

/-- The first second of a span. -/
def first : DateSpan → DateTime
  | year y => ⟨y, 1, 1, 0, 0, 0⟩
  | month y m => ⟨y, m, 1, 0, 0, 0⟩
  | day y m d => ⟨y, m, d, 0, 0, 0⟩

/-- The last second of a span. -/
def last : DateSpan → DateTime
  | year y => ⟨y, 12, 31, 23, 59, 59⟩
  | month y m => ⟨y, m, daysInMonth y m, 23, 59, 59⟩
  | day y m d => ⟨y, m, d, 23, 59, 59⟩

variable {P : DateSpan}

theorem storable_first (h : P.IsReal) : P.first.Storable := by
  cases P with
  | year y =>
    have hdays := daysInMonth_bounds y 1
    unfold IsReal at h
    refine ⟨⟨?_, ?_, ?_, ?_, ?_⟩, ?_⟩ <;> dsimp only [first] <;> omega
  | month y m =>
    have hdays := daysInMonth_bounds y m
    unfold IsReal at h
    refine ⟨⟨?_, ?_, ?_, ?_, ?_⟩, ?_⟩ <;> dsimp only [first] <;> omega
  | day y m d =>
    unfold IsReal at h
    refine ⟨⟨?_, ?_, ?_, ?_, ?_⟩, ?_⟩ <;> dsimp only [first] <;> omega

theorem storable_last (h : P.IsReal) : P.last.Storable := by
  cases P with
  | year y =>
    have hdays : daysInMonth y 12 = 31 := rfl
    unfold IsReal at h
    refine ⟨⟨?_, ?_, ?_, ?_, ?_⟩, ?_⟩ <;> dsimp only [last] <;> omega
  | month y m =>
    have hdays := daysInMonth_bounds y m
    unfold IsReal at h
    refine ⟨⟨?_, ?_, ?_, ?_, ?_⟩, ?_⟩ <;> dsimp only [last] <;> omega
  | day y m d =>
    unfold IsReal at h
    refine ⟨⟨?_, ?_, ?_, ?_, ?_⟩, ?_⟩ <;> dsimp only [last] <;> omega

theorem contains_first (P : DateSpan) : P.Contains P.first := by
  cases P <;> simp [Contains, first]

theorem contains_last (P : DateSpan) : P.Contains P.last := by
  cases P <;> simp [Contains, last]

/-- The dates of a span are those between its first and its last second. -/
theorem contains_iff {t : DateTime} (h : t.Valid) :
    P.Contains t ↔ ¬t.Before P.first ∧ ¬P.last.Before t := by
  obtain ⟨hmonth, hday, hhour, hminute, hsecond⟩ := h
  cases P with
  | year y =>
    have hdays := daysInMonth_bounds t.year t.month
    unfold Contains DateTime.Before
    dsimp only [first, last]
    omega
  | month y m =>
    unfold Contains DateTime.Before
    dsimp only [first, last]
    constructor
    · rintro ⟨rfl, rfl⟩
      omega
    · omega
  | day y m d =>
    unfold Contains DateTime.Before
    dsimp only [first, last]
    omega

/-- Every second of a span is before a date. -/
def Precedes (t : DateTime) (P : DateSpan) : Prop :=
  ∀ s, s.Valid → P.Contains s → s.toSeconds < t.toSeconds

/-- Every second of a span is after a date. -/
def Follows (t : DateTime) (P : DateSpan) : Prop :=
  ∀ s, s.Valid → P.Contains s → t.toSeconds < s.toSeconds

section Real

variable (h : P.IsReal) {t : DateTime} (ht : t.Valid)

include h ht

theorem precedes_iff : P.Precedes t ↔ P.last.Before t := by
  have hlast := (storable_last h).valid
  rw [DateTime.before_iff_toSeconds_lt hlast ht]
  constructor
  · exact fun hall => hall P.last hlast P.contains_last
  · intro hlt s hs hcontains
    have hnot := ((contains_iff hs).1 hcontains).2
    rw [DateTime.before_iff_toSeconds_lt hlast hs] at hnot
    omega

theorem follows_iff : P.Follows t ↔ t.Before P.first := by
  have hfirst := (storable_first h).valid
  rw [DateTime.before_iff_toSeconds_lt ht hfirst]
  constructor
  · exact fun hall => hall P.first hfirst P.contains_first
  · intro hlt s hs hcontains
    have hnot := ((contains_iff hs).1 hcontains).1
    rw [DateTime.before_iff_toSeconds_lt hs hfirst] at hnot
    omega

omit ht in
theorem toSeconds_first_le_last : P.first.toSeconds ≤ P.last.toSeconds := by
  have hfirst := (storable_first h).valid
  have hnot := ((contains_iff hfirst).1 P.contains_first).2
  rw [DateTime.before_iff_toSeconds_lt (storable_last h).valid hfirst] at hnot
  omega

/-- A date is in a span or after all of it where it is not before its first second. -/
theorem contains_or_precedes_iff : P.Contains t ∨ P.Precedes t ↔ ¬t.Before P.first := by
  have horder := toSeconds_first_le_last h
  rw [precedes_iff h ht, contains_iff ht,
    DateTime.before_iff_toSeconds_lt ht (storable_first h).valid,
    DateTime.before_iff_toSeconds_lt (storable_last h).valid ht]
  omega

theorem contains_or_follows_iff : P.Contains t ∨ P.Follows t ↔ ¬P.last.Before t := by
  have horder := toSeconds_first_le_last h
  rw [follows_iff h ht, contains_iff ht,
    DateTime.before_iff_toSeconds_lt ht (storable_first h).valid,
    DateTime.before_iff_toSeconds_lt (storable_last h).valid ht]
  omega

end Real

end DateSpan

/-! ### Integers in parameters -/

namespace Param

/-- A parameter is an integer: a number, or a text of its decimal digits, zeros in front allowed. -/
def IsInteger (p : Param) (n : Int) : Prop :=
  p = some (.number (.finite n)) ∨ ∃ s : String, p = some (.text s) ∧ s ≠ "" ∧ IsDigits s.toList ∧
    (Decimal.digitsValue s.toList : Int) = n

variable {p : Param} {n : Int}

theorem IsInteger.toInt_eq (h : p.IsInteger n) (hn : n.natAbs < 2 ^ 53) : p.toInt = .finite n := by
  rcases h with rfl | ⟨s, rfl, hne, hdigits, hvalue⟩
  · exact Number.trunc_finite_intCast n
  · have hlist : s.toList ≠ [] := by simpa using hne
    rw [toInt, Number.leading, leadingInt?_of_isDigits hlist hdigits, Option.getD_some, hvalue]
    exact Number.ofInt_eq hn

theorem IsInteger.isEmpty_eq (h : p.IsInteger n) (hn : n ≠ 0) : p.isEmpty = false := by
  rcases h with rfl | ⟨s, rfl, hne, hdigits, hvalue⟩
  · have hcast : (n : Rat) ≠ 0 := by exact_mod_cast hn
    simp [isEmpty, Number.isZero, Number.isNaN, hcast]
  · have hzero : s ≠ "0" := by
      rintro rfl
      exact hn hvalue.symm
    simp [isEmpty, hne, hzero]

end Param

/-! ### Edges -/

/-- The days of a date of a four-digit year are not far from 1970. -/
theorem dayNumber_bounds {year day : Int} (month : Int) (hyear : 0 ≤ year ∧ year ≤ 9999)
    (hday : 1 ≤ day ∧ day ≤ 31) :
    -1000000 ≤ dayNumber year month day ∧ dayNumber year month day ≤ 4000000 := by
  have hdays := dayNumber_eq year month day
  have hmarch : marchYear year month = if month ≤ 2 then year - 1 else year := rfl
  have hbefore : 0 ≤ daysBeforeMonth ((month + 9) % 12) ∧
      daysBeforeMonth ((month + 9) % 12) ≤ 337 := by
    unfold daysBeforeMonth
    omega
  unfold firstOfYear at hdays
  omega

/-- The stored form of the instant of a date and time is the one of the date and time. -/
theorem storedForm_toSeconds {t : DateTime} (h : t.Storable) :
    storedForm (instant? (t.toSeconds * 1000)) = t.stored := by
  have hvalid := h.valid
  obtain ⟨⟨_, hday, hhour, hminute, hsecond⟩, hyear⟩ := h
  have hdays := daysInMonth_bounds t.year t.month
  have hbounds := dayNumber_bounds t.month hyear ⟨hday.1, by omega⟩
  have hrange : -lastInstant ≤ t.toSeconds * 1000 ∧ t.toSeconds * 1000 ≤ lastInstant := by
    unfold DateTime.toSeconds lastInstant
    omega
  unfold instant?
  rw [if_pos hrange, storedForm, Int.mul_ediv_cancel _ (by decide),
    DateTime.ofSeconds_toSeconds hvalid]

/-- The instant at a second of a day that is given by integers, its month counted from zero. -/
theorem instantAt_eq {year month day : Int} (second : Int) (hyear : year.natAbs ≤ 1000000)
    (hmonth : month.natAbs ≤ 10000000) :
    instantAt (.finite year) (.finite month) (.finite day) second =
      instant? ((dayNumber (year + month / 12) (month % 12 + 1) day * 86400 + second) * 1000) := by
  unfold instantAt
  simp only [Number.toInt?_finite_intCast, Option.bind_eq_bind, Option.bind_some]
  rw [if_pos ⟨hyear, hmonth⟩]

/-- The instant at a second of a day of a month. -/
theorem instantAt_sub_one {year month day : Int} (second : Int) (hyear : year.natAbs ≤ 1000000)
    (hmonth : 1 ≤ month ∧ month ≤ 12) :
    instantAt (.finite year) (.finite ((month - 1 : Int) : Rat)) (.finite day) second =
      instant? ((dayNumber year month day * 86400 + second) * 1000) := by
  have hsame : year + (month - 1) / 12 = year ∧ (month - 1) % 12 + 1 = month := by omega
  rw [instantAt_eq second hyear (by omega), hsame.1, hsame.2]

/-- The instant at a second of the last day of a month. -/
theorem instantAt_day_zero {year month : Int} (second : Int) (hyear : year.natAbs ≤ 1000000)
    (hmonth : 1 ≤ month ∧ month ≤ 12) :
    instantAt (.finite year) (.finite month) (.finite 0) second =
      instant? ((dayNumber year month (daysInMonth year month) * 86400 + second) * 1000) := by
  rw [← dayNumber_next year hmonth, ← instantAt_eq second hyear (by omega), Int.cast_zero]

/-! ### Periods -/

theorem add_neg_one {month : Int} (h : 1 ≤ month ∧ month ≤ 12) :
    (Number.finite month).add (.finite (-1)) = .finite ((month - 1 : Int) : Rat) := by
  have hcast : (-1 : Rat) = ((-1 : Int) : Rat) := by norm_num
  rw [hcast, Number.add_finite_intCast (by omega)]
  rfl

theorem sub_one_add_one {month : Int} (h : 1 ≤ month ∧ month ≤ 12) :
    (Number.finite ((month - 1 : Int) : Rat)).add (.finite 1) = .finite month := by
  have hcast : (1 : Rat) = ((1 : Int) : Rat) := by norm_num
  rw [hcast, Number.add_finite_intCast (by omega), Int.sub_add_cancel]

theorem toSeconds_midnight (year month day : Int) :
    DateTime.toSeconds ⟨year, month, day, 0, 0, 0⟩ = dayNumber year month day * 86400 + 0 := by
  simp [DateTime.toSeconds]

theorem toSeconds_lastSecond (year month day : Int) :
    DateTime.toSeconds ⟨year, month, day, 23, 59, 59⟩ =
      dayNumber year month day * 86400 + lastSecond := by
  unfold DateTime.toSeconds lastSecond
  dsimp only
  omega

namespace DateSpan

/-- The parts of a span: as many integers as the span has. -/
def Parts (year month day : Param) : DateSpan → Prop
  | .year y => year.IsInteger y ∧ month = none ∧ day = none
  | .month y m => year.IsInteger y ∧ month.IsInteger m ∧ day = none
  | .day y m d => year.IsInteger y ∧ month.IsInteger m ∧ day.IsInteger d

/-- The period of the parts of a real span is from its first to its last second. -/
theorem ofParts_eq {P : DateSpan} (h : P.IsReal) {year month day : Param}
    (hparts : P.Parts year month day) : Period.ofParts year month day =
      ⟨instant? (P.first.toSeconds * 1000), instant? (P.last.toSeconds * 1000)⟩ := by
  have hone : Number.finite 1 = .finite ((1 : Int) : Rat) := by norm_num
  cases P with
  | year y =>
    obtain ⟨hyear, rfl, rfl⟩ := hparts
    unfold IsReal at h
    -- a year ends on the last day of its twelfth month, which is counted from zero
    have hjanuary : Number.finite 0 = .finite ((1 - 1 : Int) : Rat) := by norm_num
    have hdecember : Number.finite 11 = .finite ((12 - 1 : Int) : Rat) := by norm_num
    have hend : Number.finite 31 = .finite ((31 : Int) : Rat) := by norm_num
    rw [first, last, toSeconds_midnight, toSeconds_lastSecond,
      ← instantAt_sub_one 0 (by omega) (by omega),
      ← instantAt_sub_one lastSecond (by omega) (by omega), ← hjanuary, ← hdecember, ← hend, ← hone,
      ← hyear.toInt_eq (by omega)]
    rfl
  | month y m =>
    -- a month ends on day zero of the next one
    obtain ⟨hyear, hmonth, rfl⟩ := hparts
    unfold IsReal at h
    rw [first, last, toSeconds_midnight, toSeconds_lastSecond,
      ← instantAt_sub_one 0 (by omega) h.2, ← instantAt_day_zero lastSecond (by omega) h.2,
      ← sub_one_add_one h.2, ← add_neg_one h.2, ← hone, ← hyear.toInt_eq (by omega),
      ← hmonth.toInt_eq (by omega)]
    unfold Period.ofParts
    rw [hmonth.isEmpty_eq (by omega)]
    rfl
  | day y m d =>
    obtain ⟨hyear, hmonth, hday⟩ := hparts
    have hdays := daysInMonth_bounds y m
    unfold IsReal at h
    rw [first, last, toSeconds_midnight, toSeconds_lastSecond,
      ← instantAt_sub_one 0 (by omega) h.2.1, ← instantAt_sub_one lastSecond (by omega) h.2.1,
      ← add_neg_one h.2.1, ← hyear.toInt_eq (by omega), ← hmonth.toInt_eq (by omega),
      ← hday.toInt_eq (by omega)]
    unfold Period.ofParts
    rw [hmonth.isEmpty_eq (by omega), hday.isEmpty_eq (by omega)]
    rfl

/-- The edges of the period of the parts of a real span are the stored forms of its first and of its
last second. -/
theorem edge_ofParts {P : DateSpan} (h : P.IsReal) {year month day : Param}
    (hparts : P.Parts year month day) (atEnd : Bool) :
    DateClause.edge (Period.ofParts year month day) atEnd =
      (if atEnd then P.last else P.first).stored := by
  rw [ofParts_eq h hparts, DateClause.edge]
  cases atEnd with
  | true => exact storedForm_toSeconds (storable_last h)
  | false => exact storedForm_toSeconds (storable_first h)

end DateSpan

end CommentSearch
