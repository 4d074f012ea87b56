import CommentSearch.Proofs.DateRanges
import CommentSearch.Proofs.Instants
import CommentSearch.Proofs.Rounding

/-!
# The edges of periods

Loosely typed parts name a period with the instants of its first and its last second, of which
either may be none that can be expressed. The first is never after the last
(`Period.first_le_last`): parts count by their integers, and months so far out that their numbers
are rounded have no instants.

An edge of a period has the stored layout exactly where its instant can be expressed and is of one
of the years 0 to 9999 (`isStoredText_storedForm_iff`). Every structured date of a date query that
has a year gives its edges as bounds all the same (`period_bounds_fit_iff`).
-/

namespace CommentSearch

/-! ### Instants of days -/

/-- An instant at a second of a day is that of the integers of the parts, with months counted over
the years. -/
theorem exists_of_instantAt {year month day : Number} {second ms : Int}
    (h : instantAt year month day second = some ms) : ∃ y m d : Int,
      year.toInt? = some y ∧ month.toInt? = some m ∧ day.toInt? = some d ∧
        m.natAbs ≤ 10000000 ∧
        ms = ((DateTime.dayBefore (12 * y + m) + d) * 86400 + second) * 1000 := by
  unfold instantAt at h
  simp only [Option.bind_eq_bind, Option.bind_eq_some_iff] at h
  obtain ⟨y, hy, m, hm, d, hd, h⟩ := h
  split at h
  · rename_i hrange
    unfold instant? at h
    split at h
    · have hmonths : 12 * (y + m / 12) + (m % 12 + 1 - 1) = 12 * y + m := by omega
      refine ⟨y, m, d, hy, hm, hd, hrange.2, ?_⟩
      rw [← Option.some.inj h, DateTime.dayNumber_eq_dayBefore _ _ (by omega), hmonths]
    · cases h
  · cases h

/-- The integer that a parameter stands for is one, or out of range. -/
theorem Param.exists_intCast_toInt (p : Param) (h : p.toInt.isFinite = true) :
    ∃ n : Int, p.toInt = .finite n := by
  have hzero : ∃ n : Int, Number.finite 0 = .finite n := ⟨0, by simp⟩
  have hone : ∃ n : Int, Number.finite 1 = .finite n := ⟨1, by simp⟩
  cases p with
  | none => exact hzero
  | some v =>
    cases v with
    | null | object => exact hzero
    | bool b => cases b <;> assumption
    | list items => cases items <;> assumption
    | number x => cases x with
      | finite q => exact ⟨_, rfl⟩
      | nan | infinite => exact hzero
    | text s =>
      rw [toInt, Number.leading] at h ⊢
      obtain ⟨n, hn, -⟩ := Number.exists_intCast_of_ofInt h
      exact ⟨n, hn⟩

/-- The month before an integer is an integer, or out of range. -/
theorem exists_intCast_add_neg_one {x : Number} (hx : x.isFinite = true → ∃ n : Int, x = .finite n)
    (h : (x.add (.finite (-1))).isFinite = true) : ∃ m : Int, x.add (.finite (-1)) = .finite m := by
  cases x with
  | nan | infinite => cases h
  | finite q =>
    obtain ⟨n, hn⟩ := hx rfl
    have hsum : Number.add (.finite q) (.finite (-1)) = .ofInt (n - 1) := by
      rw [hn, Number.add, Number.ofInt, Int.cast_sub, Int.cast_one, sub_eq_add_neg]
    rw [hsum] at h ⊢
    obtain ⟨m, hm, -⟩ := Number.exists_intCast_of_ofInt h
    exact ⟨m, hm⟩

/-- The month after one that is not far out is exact. -/
theorem toInt?_add_one {x : Number} (hx : x.isFinite = true → ∃ n : Int, x = .finite n) {m : Int}
    (hm : x.toInt? = some m) (hrange : m.natAbs ≤ 10000000) :
    (x.add (.finite 1)).toInt? = some (m + 1) := by
  cases x with
  | nan | infinite => cases hm
  | finite q =>
    obtain ⟨n, hn⟩ := hx rfl
    rw [hn, Number.toInt?_finite_intCast, Option.some.injEq] at hm
    have hsum := @Number.add_finite_intCast m 1 (by omega)
    rw [Int.cast_one] at hsum
    rw [hn, hm, hsum, Number.toInt?_finite_intCast]

section Order

variable {year month day : Number} {first last : Int}

theorem le_of_instantAt_day (hfirst : instantAt year month day 0 = some first)
    (hlast : instantAt year month day lastSecond = some last) : first ≤ last := by
  obtain ⟨y, m, d, hy, hm, hd, -, rfl⟩ := exists_of_instantAt hfirst
  obtain ⟨y', m', d', hy', hm', hd', -, rfl⟩ := exists_of_instantAt hlast
  obtain rfl := Option.some.inj (hy.symm.trans hy')
  obtain rfl := Option.some.inj (hm.symm.trans hm')
  obtain rfl := Option.some.inj (hd.symm.trans hd')
  unfold lastSecond
  omega

/-- The last day of a month is day zero of the next one. -/
theorem le_of_instantAt_month (hmonth : month.isFinite = true → ∃ n : Int, month = .finite n)
    (hfirst : instantAt year month (.finite 1) 0 = some first)
    (hlast : instantAt year (month.add (.finite 1)) (.finite 0) lastSecond = some last) :
    first ≤ last := by
  obtain ⟨y, m, d, hy, hm, hd, hrange, rfl⟩ := exists_of_instantAt hfirst
  obtain ⟨y', m', d', hy', hm', hd', -, rfl⟩ := exists_of_instantAt hlast
  obtain rfl := Option.some.inj (hy.symm.trans hy')
  obtain rfl : m + 1 = m' := Option.some.inj ((toInt?_add_one hmonth hm hrange).symm.trans hm')
  obtain rfl : 1 = d := Option.some.inj hd
  obtain rfl : 0 = d' := Option.some.inj hd'
  have hsucc := DateTime.dayBefore_succ (12 * y + m)
  have hdays := daysInMonth_bounds ((12 * y + m) / 12) ((12 * y + m) % 12 + 1)
  unfold lastSecond
  rw [← Int.add_assoc]
  omega

/-- The last day of a year is the 31st of its twelfth month. -/
theorem le_of_instantAt_year (hfirst : instantAt year (.finite 0) (.finite 1) 0 = some first)
    (hlast : instantAt year (.finite 11) (.finite 31) lastSecond = some last) : first ≤ last := by
  obtain ⟨y, m, d, hy, hm, hd, -, rfl⟩ := exists_of_instantAt hfirst
  obtain ⟨y', m', d', hy', hm', hd', -, rfl⟩ := exists_of_instantAt hlast
  obtain rfl := Option.some.inj (hy.symm.trans hy')
  obtain rfl : 0 = m := Option.some.inj hm
  obtain rfl : 11 = m' := Option.some.inj hm'
  obtain rfl : 1 = d := Option.some.inj hd
  obtain rfl : 31 = d' := Option.some.inj hd'
  have hmono : DateTime.dayBefore (12 * y) ≤ DateTime.dayBefore (12 * y + 11) :=
    DateTime.dayBefore_mono (12 * y) 11
  unfold lastSecond
  rw [Int.add_zero (12 * y)]
  omega

end Order

/-- The first second of a period is not after the last. -/
theorem Period.first_le_last {year month day : Param} {first last : Int}
    (hfirst : (Period.ofParts year month day).first = some first)
    (hlast : (Period.ofParts year month day).last = some last) : first ≤ last := by
  unfold ofParts at hfirst hlast
  cases hday : day.isEmpty with
  | false =>
    rw [hday] at hfirst hlast
    exact le_of_instantAt_day hfirst hlast
  | true =>
    cases hmonth : month.isEmpty with
    | false =>
      rw [hday, hmonth] at hfirst hlast
      exact le_of_instantAt_month (exists_intCast_add_neg_one month.exists_intCast_toInt) hfirst
        hlast
    | true =>
      rw [hday, hmonth] at hfirst hlast
      exact le_of_instantAt_year hfirst hlast

/-! ### Edges -/

theorem length_of_isStoredText {cs : List Char} (h : IsStoredText cs) : cs.length = 19 := by
  obtain ⟨hday, htime⟩ := h
  rw [List.length_append, List.length_cons, length_of_isDayText hday, length_of_isTimeText htime]

/-- The stored form of an instant has the stored layout exactly where the instant can be expressed
and is of one of the years 0 to 9999. -/
theorem isStoredText_storedForm_iff (instant : Option Int) :
    IsStoredText (storedForm instant).toList ↔ ∃ ms, instant = some ms ∧ InStoredYears ms := by
  cases instant with
  | none =>
    refine iff_of_false (fun h => ?_) nofun
    -- the parts that are no numbers are too long
    have hlength := length_of_isStoredText h
    revert hlength
    decide
  | some ms =>
    have hvalid : (DateTime.ofInstant ms).Valid := DateTime.valid_ofSeconds _
    change IsStoredText (DateTime.ofInstant ms).stored.toList ↔ _
    rw [DateTime.isStoredText_stored_iff hvalid.hasTwoDigits]
    simp only [Option.some.injEq, exists_eq_left']
    exact ⟨fun h => h.year, storable_ofInstant⟩

/-- The filter of an accepted date query has exactly the ranges that its clauses ask for, in which
each structured date with a year gives its edges as bounds. For a real span these are its first and
its last second. In general an edge has the stored layout where its instant can be expressed and is
of one of the years 0 to 9999, and where both edges have it, the first is not after the last. -/
theorem period_bounds_fit_iff (zone : TimeZone) {query : Value}
    (h : Schema.dateQuery.accepts query = true) (year month day : Param) :
    (∃ filter, DateFilter.compile (some query) zone = .ok filter ∧ ∀ b, filter.HasRange b ↔
        ∃ clause, .object clause ∈ DateFilter.clausesOf query ∧
          DateClause.HasRange zone clause b) ∧
      let P := Period.ofParts year month day
      (∀ S : DateSpan, S.IsReal → S.Parts year month day →
          DateClause.edge P false = S.first.stored ∧ DateClause.edge P true = S.last.stored) ∧
        (IsStoredText (DateClause.edge P false).toList ↔
          ∃ ms, P.first = some ms ∧ InStoredYears ms) ∧
        (IsStoredText (DateClause.edge P true).toList ↔
          ∃ ms, P.last = some ms ∧ InStoredYears ms) ∧
        (IsStoredText (DateClause.edge P false).toList →
          IsStoredText (DateClause.edge P true).toList →
            ¬(DateClause.edge P true).toList < (DateClause.edge P false).toList) := by
  constructor
  · have typed := isDateQuery_of_accepts h
    obtain ⟨filter, hfilter⟩ := exists_compile_of_isDateQuery zone typed
    exact ⟨filter, hfilter, DateFilter.hasRange_iff_of_compile typed hfilter⟩
  · intro P
    have hedge (atEnd : Bool) := isStoredText_storedForm_iff (if atEnd then P.last else P.first)
    refine ⟨fun S real parts => ⟨DateSpan.edge_ofParts real parts false,
      DateSpan.edge_ofParts real parts true⟩, hedge false, hedge true, fun hfirst hlast hlt => ?_⟩
    obtain ⟨first, hfirst, hfirstYears⟩ := (hedge false).1 hfirst
    obtain ⟨last, hlast, hlastYears⟩ := (hedge true).1 hlast
    have hle : first ≤ last := Period.first_le_last hfirst hlast
    unfold DateClause.edge at hlt
    rw [hfirst, hlast] at hlt
    have hseconds := (stored_ofInstant_lt_iff hlastYears hfirstYears).1 hlt
    omega

/-- The month of a clause may be given as a text, and its year as a number. -/
theorem period_bounds_fit_iff_february :
    let clause : Fields := [("year", .number (.finite 2024)), ("monthnum", .text "2")]
    let low := "2024-02-01 00:00:00"
    let high := "2024-02-29 23:59:59"
    Schema.dateQuery.accepts (.list [.object clause]) = true ∧ (DateSpan.month 2024 2).IsReal ∧
      (DateSpan.month 2024 2).Parts (some (.number (.finite 2024))) (some (.text "2")) none ∧
      (∃ filter, DateFilter.compile (some (.list [.object clause])) = .ok filter ∧
        filter.HasRange { gte := some (.text low), lte := some (.text high) }) ∧
      IsStoredText low.toList ∧ IsStoredText high.toList ∧ ¬high.toList < low.toList := by
  intro clause low high
  have haccepts : Schema.dateQuery.accepts (.list [.object clause]) = true := by decide
  have real : (DateSpan.month 2024 2).IsReal := by
    unfold DateSpan.IsReal
    decide
  have hdigits : IsDigits "2".toList := List.all_eq_true.1 rfl
  have parts : (DateSpan.month 2024 2).Parts (some (.number (.finite 2024))) (some (.text "2"))
      none :=
    ⟨.inl (by norm_num), .inr ⟨"2", rfl, by decide, hdigits, by decide⟩, rfl⟩
  obtain ⟨⟨filter, hfilter, hmem⟩, hspan, hfirst, hlast, horder⟩ :=
    period_bounds_fit_iff .universal haccepts (some (.number (.finite 2024))) (some (.text "2"))
      none
  obtain ⟨hlow, hhigh⟩ := hspan _ real parts
  have hasked : DateClause.HasRange .universal clause
      { gte := some (.text (DateSpan.month 2024 2).first.stored)
        lte := some (.text (DateSpan.month 2024 2).last.stored) } := by
    rw [← hlow, ← hhigh]
    exact .period (by decide)
  have hlowStored := hfirst.2 ⟨1706745600000, by decide +kernel, inStoredYears_iff.2 (by decide)⟩
  have hhighStored := hlast.2 ⟨1709251199000, by decide +kernel, inStoredYears_iff.2 (by decide)⟩
  have hnotlt := horder hlowStored hhighStored
  rw [hlow] at hlowStored hnotlt
  rw [hhigh] at hhighStored hnotlt
  exact ⟨haccepts, real, parts,
    ⟨filter, hfilter, (hmem _).2 ⟨clause, List.mem_singleton_self _, hasked⟩⟩, hlowStored,
    hhighStored, hnotlt⟩

/-- A year whose instants cannot be expressed bounds the dates by a text that is none. -/
theorem period_bounds_misfit :
    let query : Value := .list [.object [("year", .number (.finite 300000))]]
    Schema.dateQuery.accepts query = true ∧
      ∃ filter low high, DateFilter.compile (some query) = .ok filter ∧
        filter.HasRange { gte := some (.text low), lte := some (.text high) } ∧
        ¬IsStoredText low.toList ∧ ¬IsStoredText high.toList := by
  intro query
  have haccepts : Schema.dateQuery.accepts query = true := by decide
  have typed := isDateQuery_of_accepts haccepts
  obtain ⟨filter, hfilter⟩ := exists_compile_of_isDateQuery .universal typed
  have hfirst : (Period.ofParts (some (.number (.finite 300000))) none none).first = none := by
    decide +kernel
  have hlast : (Period.ofParts (some (.number (.finite 300000))) none none).last = none := by
    decide +kernel
  refine ⟨haccepts, filter, _, _, hfilter,
    (DateFilter.hasRange_iff_of_compile typed hfilter _).2
      ⟨_, List.mem_singleton_self _, .period (by decide)⟩, fun hlow => ?_, fun hhigh => ?_⟩
  · obtain ⟨ms, hms, -⟩ := (isStoredText_storedForm_iff _).1 hlow
    cases hfirst.symm.trans hms
  · obtain ⟨ms, hms, -⟩ := (isStoredText_storedForm_iff _).1 hhigh
    cases hlast.symm.trans hms

end CommentSearch
