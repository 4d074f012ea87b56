import CommentSearch.Proofs.Calendar
import CommentSearch.Proofs.Digits

/-!
# The order of stored dates

Dates are compared part by part (`DateTime.Before`), which is the order of their seconds
(`before_iff_toSeconds_lt`). The stored forms of dates of four-digit years are in this order, too
(`stored_lt_stored_iff`): all parts have a fixed width, so the first part in which two texts differ
decides.
-/

namespace CommentSearch.DateTime

/-- A date and time that has a stored form of the common layout: one of a year of four digits. -/
structure Storable (t : DateTime) : Prop where
  valid : t.Valid
  year : 0 ≤ t.year ∧ t.year ≤ 9999

/-- A date and time is before another: it is smaller in the first part in which the two differ. -/
def Before (s t : DateTime) : Prop :=
  s.year < t.year ∨ s.year = t.year ∧ (s.month < t.month ∨ s.month = t.month ∧
    (s.day < t.day ∨ s.day = t.day ∧ (s.hour < t.hour ∨ s.hour = t.hour ∧
      (s.minute < t.minute ∨ s.minute = t.minute ∧ s.second < t.second))))

/-! ### The order of seconds -/

theorem dayNumber_eq_add (year month day : Int) :
    dayNumber year month day = dayNumber year month 0 + day := by
  unfold dayNumber
  dsimp only
  omega

/-- The day before the first of a month. Months are counted from the first of year zero. -/
def dayBefore (months : Int) : Int := dayNumber (months / 12) (months % 12 + 1) 0

theorem dayBefore_succ (months : Int) : dayBefore (months + 1) =
    dayBefore months + daysInMonth (months / 12) (months % 12 + 1) := by
  have hvalid : 1 ≤ months % 12 + 1 ∧ months % 12 + 1 ≤ 12 := by omega
  have hnext := dayNumber_next (months / 12) hvalid
  have hyear : (months + 1) / 12 = months / 12 + (months % 12 + 1) / 12 := by omega
  have hmonth : (months + 1) % 12 = (months % 12 + 1) % 12 := by omega
  rw [dayBefore, hyear, hmonth, hnext]
  exact dayNumber_eq_add _ _ _

theorem dayBefore_mono (months : Int) (later : Nat) :
    dayBefore months ≤ dayBefore (months + later) := by
  induction later with
  | zero => simp
  | succ k ih =>
    have hdays := daysInMonth_bounds ((months + k) / 12) ((months + k) % 12 + 1)
    have hsucc := dayBefore_succ (months + k)
    rw [Int.natCast_succ, ← Int.add_assoc]
    omega

/-- The days up to a date are those before its month and those in it. -/
theorem dayNumber_eq_dayBefore (year : Int) {month : Int} (day : Int)
    (h : 1 ≤ month ∧ month ≤ 12) :
    dayNumber year month day = dayBefore (12 * year + (month - 1)) + day := by
  have hyear : (12 * year + (month - 1)) / 12 = year := by omega
  have hmonth : (12 * year + (month - 1)) % 12 + 1 = month := by omega
  rw [dayBefore, hyear, hmonth]
  exact dayNumber_eq_add year month day

theorem toSeconds_lt_of_before {s t : DateTime} (hs : s.Valid) (ht : t.Valid) (h : s.Before t) :
    s.toSeconds < t.toSeconds := by
  obtain ⟨hsmonth, hsday, hshour, hsminute, hssecond⟩ := hs
  obtain ⟨htmonth, htday, hthour, htminute, htsecond⟩ := ht
  have hsdays := dayNumber_eq_dayBefore s.year s.day hsmonth
  have htdays := dayNumber_eq_dayBefore t.year t.day htmonth
  have hcases : dayNumber s.year s.month s.day < dayNumber t.year t.month t.day ∨
      dayNumber s.year s.month s.day = dayNumber t.year t.month t.day ∧
        s.hour * 3600 + s.minute * 60 + s.second < t.hour * 3600 + t.minute * 60 + t.second := by
    unfold Before at h
    -- a date of an earlier month is in the days before the later month
    by_cases hlt : 12 * s.year + (s.month - 1) < 12 * t.year + (t.month - 1)
    · obtain ⟨k, hk⟩ := Int.le.dest hlt
      have hmono := dayBefore_mono (12 * s.year + (s.month - 1) + 1) k
      have hsucc := dayBefore_succ (12 * s.year + (s.month - 1))
      have hyear : (12 * s.year + (s.month - 1)) / 12 = s.year := by omega
      have hmonth : (12 * s.year + (s.month - 1)) % 12 + 1 = s.month := by omega
      rw [hyear, hmonth] at hsucc
      rw [hk] at hmono
      omega
    · have hsame : 12 * s.year + (s.month - 1) = 12 * t.year + (t.month - 1) := by omega
      rw [hsame] at hsdays
      omega
  unfold toSeconds
  omega

/-- Dates are in the order of their seconds. -/
theorem before_iff_toSeconds_lt {s t : DateTime} (hs : s.Valid) (ht : t.Valid) :
    s.Before t ↔ s.toSeconds < t.toSeconds := by
  constructor
  · exact toSeconds_lt_of_before hs ht
  · intro hlt
    by_cases hafter : t.Before s
    · exact absurd (toSeconds_lt_of_before ht hs hafter) (by omega)
    · have hne : s ≠ t := by
        rintro rfl
        exact Int.lt_irrefl _ hlt
      obtain ⟨syear, smonth, sday, shour, sminute, ssecond⟩ := s
      obtain ⟨tyear, tmonth, tday, thour, tminute, tsecond⟩ := t
      rw [ne_eq, DateTime.mk.injEq] at hne
      unfold Before at *
      dsimp only at *
      omega

/-! ### The order of texts -/

theorem toList_stored (t : DateTime) : t.stored.toList =
    padded 4 t.year ++ '-' :: (padded 2 t.month ++ '-' :: (padded 2 t.day ++ ' ' ::
      (padded 2 t.hour ++ ':' :: (padded 2 t.minute ++ ':' :: padded 2 t.second)))) := by
  unfold stored storedChars padded
  rw [String.toList_ofList]
  simp only [List.append_assoc, List.cons_append]

/-- A part of two texts comes first if they differ in it, and else the rest decides. -/
theorem part_lt_part_iff {width : Nat} {m n : Int} {cs ds : List Char} (separator : Char)
    (hwidth : 0 < width) (hm : 0 ≤ m ∧ m < 10 ^ width) (hn : 0 ≤ n ∧ n < 10 ^ width) :
    padded width m ++ separator :: cs < padded width n ++ separator :: ds ↔
      m < n ∨ m = n ∧ cs < ds := by
  have hlength := (length_padded hwidth hm.1 hm.2).trans (length_padded hwidth hn.1 hn.2).symm
  rw [append_lt_append_iff hlength, padded_lt_padded_iff hwidth hm hn, padded_inj hm.1 hn.1,
    List.cons_lt_cons_iff]
  simp

/-- The stored forms of dates are in the order of time. -/
theorem stored_lt_stored_iff {s t : DateTime} (hs : s.Storable) (ht : t.Storable) :
    s.stored.toList < t.stored.toList ↔ s.Before t := by
  obtain ⟨⟨hsmonth, hsday, hshour, hsminute, hssecond⟩, hsyear⟩ := hs
  obtain ⟨⟨htmonth, htday, hthour, htminute, htsecond⟩, htyear⟩ := ht
  -- all parts fit their widths: the days as no month has more than 31
  have hsdays := daysInMonth_bounds s.year s.month
  have htdays := daysInMonth_bounds t.year t.month
  rw [toList_stored, toList_stored,
    part_lt_part_iff '-' (by decide) (by omega) (by omega),
    part_lt_part_iff '-' (by decide) (by omega) (by omega),
    part_lt_part_iff ' ' (by decide) (by omega) (by omega),
    part_lt_part_iff ':' (by decide) (by omega) (by omega),
    part_lt_part_iff ':' (by decide) (by omega) (by omega),
    padded_lt_padded_iff (by decide) (by omega) (by omega)]
  rfl

end CommentSearch.DateTime
