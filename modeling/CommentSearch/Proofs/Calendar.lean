import CommentSearch.Calendar

/-!
# The Gregorian calendar

Which dates exist (`DateTime.Valid`), and that the conversions between dates and days are right for
all years: `ofSeconds_toSeconds` recovers every date and time of day from its seconds, and
`dayNumber_next` says that day zero of a month is the last day of the month before.

In the count from March a year of a cycle starts `firstOfYear` days into the cycle. The year of a
day is found by leaving out the leap days before it (`withoutLeapDays`), after which each year has
365 days.
-/

namespace CommentSearch

/-! ### Dates -/

/-- A leap year: every fourth, but of the full centuries only every fourth. -/
def IsLeapYear (year : Int) : Prop := year % 4 = 0 ∧ (year % 100 ≠ 0 ∨ year % 400 = 0)

instance (year : Int) : Decidable (IsLeapYear year) :=
  inferInstanceAs (Decidable (year % 4 = 0 ∧ (year % 100 ≠ 0 ∨ year % 400 = 0)))

/-- The number of days of a month. -/
def daysInMonth (year month : Int) : Int :=
  if month = 2 then if IsLeapYear year then 29 else 28
  else if month = 4 ∨ month = 6 ∨ month = 9 ∨ month = 11 then 30
  else 31

/-- A date of the calendar and a time of day. -/
structure DateTime.Valid (t : DateTime) : Prop where
  month : 1 ≤ t.month ∧ t.month ≤ 12
  day : 1 ≤ t.day ∧ t.day ≤ daysInMonth t.year t.month
  hour : 0 ≤ t.hour ∧ t.hour < 24
  minute : 0 ≤ t.minute ∧ t.minute < 60
  second : 0 ≤ t.second ∧ t.second < 60

theorem daysInMonth_bounds (year month : Int) :
    28 ≤ daysInMonth year month ∧ daysInMonth year month ≤ 31 := by
  unfold daysInMonth
  split
  · split <;> omega
  · split <;> omega

theorem eq_of_month {month : Int} (h : 1 ≤ month ∧ month ≤ 12) :
    month = 1 ∨ month = 2 ∨ month = 3 ∨ month = 4 ∨ month = 5 ∨ month = 6 ∨ month = 7 ∨ month = 8 ∨
      month = 9 ∨ month = 10 ∨ month = 11 ∨ month = 12 := by
  omega

/-! ### Years of a cycle -/

/-- The days of a cycle before one of its years, counted from March. -/
def firstOfYear (ofCycle : Int) : Int := 365 * ofCycle + ofCycle / 4 - ofCycle / 100

/-- A day of a cycle counted without the leap days before it. -/
def withoutLeapDays (day : Int) : Int := day - day / 1460 + day / 36524 - day / 146096

theorem withoutLeapDays_mono {d e : Int} (h : d ≤ e) : withoutLeapDays d ≤ withoutLeapDays e := by
  unfold withoutLeapDays
  omega

/-- Without leap days, the days of each year of a cycle are those of a year of 365 days. -/
theorem bounds_withoutLeapDays : ∀ y : Fin 400,
    365 * (y : Int) ≤ withoutLeapDays (firstOfYear y) ∧
      withoutLeapDays (firstOfYear y + if IsLeapYear (y + 1) then 365 else 364) ≤
        365 * (y : Int) + 364 := by
  decide +kernel

section Cycle

variable {ofCycle day : Int} (hcycle : 0 ≤ ofCycle ∧ ofCycle < 400) (hday : 0 ≤ day)
  (hlast : day ≤ if IsLeapYear (ofCycle + 1) then 365 else 364)

include hcycle hday hlast

/-- The year of a day of a cycle. -/
theorem withoutLeapDays_div : withoutLeapDays (firstOfYear ofCycle + day) / 365 = ofCycle := by
  obtain ⟨n, rfl⟩ := Int.eq_ofNat_of_zero_le hcycle.1
  -- the table speaks of the first and the last day of the year, and days between lie between
  obtain ⟨hfirst, hend⟩ := bounds_withoutLeapDays ⟨n, by omega⟩
  have hlower : withoutLeapDays (firstOfYear n) ≤ withoutLeapDays (firstOfYear n + day) :=
    withoutLeapDays_mono (by omega)
  have hupper := withoutLeapDays_mono (Int.add_le_add_left hlast (firstOfYear n))
  dsimp only at hfirst hend
  omega

/-- A day of a year of a cycle is a day of the cycle. -/
theorem firstOfYear_add_lt :
    0 ≤ firstOfYear ofCycle + day ∧ firstOfYear ofCycle + day < 146097 := by
  unfold firstOfYear
  by_cases hleap : IsLeapYear (ofCycle + 1)
  · rw [if_pos hleap] at hlast
    unfold IsLeapYear at hleap
    omega
  · rw [if_neg hleap] at hlast
    unfold IsLeapYear at hleap
    omega

end Cycle

/-! ### Dates and days -/

/-- The year that a month belongs to in the count from March. -/
def marchYear (year month : Int) : Int := if month ≤ 2 then year - 1 else year

theorem dayNumber_eq (year month day : Int) : dayNumber year month day + 719468 =
    marchYear year month / 400 * 146097 + (firstOfYear (marchYear year month % 400) +
      (daysBeforeMonth ((month + 9) % 12) + day - 1)) := by
  simp only [dayNumber, firstOfYear, marchYear]
  omega

/-- The leap day is the last day of its year. -/
theorem isLeapYear_marchYear (year : Int) :
    IsLeapYear (marchYear year 2 % 400 + 1) ↔ IsLeapYear year := by
  have hyear : marchYear year 2 = year - 1 := if_pos (Int.le_refl 2)
  rw [hyear]
  unfold IsLeapYear
  omega

/-- The day of its year, counted from March, that a date is. -/
theorem dayOfYear_bounds {year month day : Int} (hmonth : 1 ≤ month ∧ month ≤ 12)
    (hday : 1 ≤ day ∧ day ≤ daysInMonth year month) :
    0 ≤ daysBeforeMonth ((month + 9) % 12) + day - 1 ∧
      (daysBeforeMonth ((month + 9) % 12) + day - 1 ≤
        if IsLeapYear (marchYear year month % 400 + 1) then 365 else 364) ∧
      (5 * (daysBeforeMonth ((month + 9) % 12) + day - 1) + 2) / 153 = (month + 9) % 12 := by
  -- only February depends on the year
  by_cases hfebruary : month = 2
  · subst hfebruary
    have hlast : day ≤ if IsLeapYear year then 29 else 28 := hday.2
    unfold daysBeforeMonth
    simp only [isLeapYear_marchYear]
    by_cases hleap : IsLeapYear year
    · rw [if_pos hleap] at hlast ⊢
      omega
    · rw [if_neg hleap] at hlast ⊢
      omega
  · have hlast : day ≤ if month = 4 ∨ month = 6 ∨ month = 9 ∨ month = 11 then 30 else 31 := by
      simpa only [daysInMonth, if_neg hfebruary] using hday.2
    have hleap (limit : Int) (h : limit ≤ 364) :
        limit ≤ if IsLeapYear (marchYear year month % 400 + 1) then 365 else 364 := by
      split <;> omega
    unfold daysBeforeMonth
    obtain rfl | rfl | rfl | rfl | rfl | rfl | rfl | rfl | rfl | rfl | rfl | rfl :=
      eq_of_month hmonth
    case inr.inl => exact absurd rfl hfebruary
    all_goals refine ⟨?_, hleap _ ?_, ?_⟩ <;> omega

/-- The year and the month of a date in the count from March. -/
theorem year_and_month (year : Int) {month : Int} (h : 1 ≤ month ∧ month ≤ 12) :
    marchYear year month % 400 + marchYear year month / 400 * 400 +
        (if (month + 9) % 12 < 10 then 0 else 1) = year ∧
      (if (month + 9) % 12 < 10 then (month + 9) % 12 + 3 else (month + 9) % 12 - 9) = month := by
  have hmarch : marchYear year month = if month ≤ 2 then year - 1 else year := rfl
  constructor <;> omega

/-- The date of a day of a year of a cycle, and the time of a second of the day. -/
theorem DateTime.ofSeconds_eq (cycle : Int) {ofCycle day second : Int}
    (hcycle : 0 ≤ ofCycle ∧ ofCycle < 400) (hday : 0 ≤ day)
    (hlast : day ≤ if IsLeapYear (ofCycle + 1) then 365 else 364)
    (hsecond : 0 ≤ second ∧ second < 86400) :
    ofSeconds ((cycle * 146097 + (firstOfYear ofCycle + day) - 719468) * 86400 + second) =
      { year := ofCycle + cycle * 400 + (if (5 * day + 2) / 153 < 10 then 0 else 1)
        month := if (5 * day + 2) / 153 < 10 then (5 * day + 2) / 153 + 3
          else (5 * day + 2) / 153 - 9
        day := day - daysBeforeMonth ((5 * day + 2) / 153) + 1
        hour := second / 3600
        minute := second / 60 % 60
        second := second % 60 } := by
  have hbounds := firstOfYear_add_lt hcycle hday hlast
  have hofCycle := withoutLeapDays_div hcycle hday hlast
  have hofDay : ((cycle * 146097 + (firstOfYear ofCycle + day) - 719468) * 86400 + second) % 86400 =
      second := by
    omega
  have hmod : (((cycle * 146097 + (firstOfYear ofCycle + day) - 719468) * 86400 + second) / 86400 +
      719468) % 146097 = firstOfYear ofCycle + day := by
    omega
  have hdiv : (((cycle * 146097 + (firstOfYear ofCycle + day) - 719468) * 86400 + second) / 86400 +
      719468) / 146097 = cycle := by
    omega
  have hofYear : firstOfYear ofCycle + day - (365 * ofCycle + ofCycle / 4 - ofCycle / 100) =
      day := by
    unfold firstOfYear
    omega
  unfold withoutLeapDays at hofCycle
  simp only [ofSeconds, hofDay, hmod, hdiv, hofCycle, hofYear]

/-- A date and time of day is recovered from its seconds. -/
theorem DateTime.ofSeconds_toSeconds {t : DateTime} (h : t.Valid) : ofSeconds t.toSeconds = t := by
  obtain ⟨hmonth, hday, hhour, hminute, hsecond⟩ := h
  obtain ⟨hnonneg, hlast, hfromMarch⟩ := dayOfYear_bounds hmonth hday
  have hcycle : 0 ≤ marchYear t.year t.month % 400 ∧ marchYear t.year t.month % 400 < 400 := by
    omega
  have hofDay : 0 ≤ t.hour * 3600 + t.minute * 60 + t.second ∧
      t.hour * 3600 + t.minute * 60 + t.second < 86400 := by
    omega
  have hseconds : t.toSeconds = (marchYear t.year t.month / 400 * 146097 +
      (firstOfYear (marchYear t.year t.month % 400) +
        (daysBeforeMonth ((t.month + 9) % 12) + t.day - 1)) - 719468) * 86400 +
      (t.hour * 3600 + t.minute * 60 + t.second) := by
    rw [← dayNumber_eq]
    unfold toSeconds
    omega
  obtain ⟨hyear, hmonth⟩ := year_and_month t.year hmonth
  rw [hseconds, ofSeconds_eq _ hcycle hnonneg hlast hofDay, hfromMarch, hyear, hmonth]
  obtain ⟨year, month, day, hour, minute, second⟩ := t
  -- the goals left are about the time of day; `omega` need not see the calendar
  clear hseconds hyear hmonth hlast hfromMarch
  rw [DateTime.mk.injEq]
  dsimp only at *
  refine ⟨rfl, rfl, ?_, ?_, ?_, ?_⟩ <;> omega

/-! ### The end of a month -/

/-- A month other than February and the next one are of one year from March, in which the next one
starts after the days of the first. -/
theorem marchYear_next (year : Int) {month : Int} (h : 1 ≤ month ∧ month ≤ 12)
    (hfebruary : month ≠ 2) :
    marchYear (year + month / 12) (month % 12 + 1) = marchYear year month ∧
      daysBeforeMonth ((month % 12 + 1 + 9) % 12) =
        daysBeforeMonth ((month + 9) % 12) + daysInMonth year month := by
  simp only [marchYear, daysBeforeMonth, daysInMonth, if_neg hfebruary]
  obtain rfl | rfl | rfl | rfl | rfl | rfl | rfl | rfl | rfl | rfl | rfl | rfl := eq_of_month h
  case inr.inl => exact absurd rfl hfebruary
  all_goals constructor <;> omega

/-- The last day of February is the last of a year from March. -/
theorem dayNumber_lastOfFebruary (year : Int) :
    dayNumber year 2 (daysInMonth year 2) + 1 = dayNumber year 3 1 := by
  have hlast := dayNumber_eq year 2 (daysInMonth year 2)
  have hfirst := dayNumber_eq year 3 1
  have hmarch : marchYear year 2 = year - 1 ∧ marchYear year 3 = year := by
    unfold marchYear
    omega
  have hdays : daysInMonth year 2 = if IsLeapYear year then 29 else 28 := rfl
  rw [hmarch.1, hdays] at hlast
  rw [hmarch.2] at hfirst
  unfold firstOfYear daysBeforeMonth at hlast hfirst
  rw [hdays]
  by_cases hleap : IsLeapYear year
  · rw [if_pos hleap] at hlast ⊢
    unfold IsLeapYear at hleap
    omega
  · rw [if_neg hleap] at hlast ⊢
    unfold IsLeapYear at hleap
    omega

/-- Day zero of a month is the last day of the month before. -/
theorem dayNumber_next (year : Int) {month : Int} (h : 1 ≤ month ∧ month ≤ 12) :
    dayNumber (year + month / 12) (month % 12 + 1) 0 =
      dayNumber year month (daysInMonth year month) := by
  have hnext := dayNumber_eq (year + month / 12) (month % 12 + 1) 0
  have hlast := dayNumber_eq year month (daysInMonth year month)
  by_cases hfebruary : month = 2
  · subst hfebruary
    have hmarch := dayNumber_lastOfFebruary year
    have hthird := dayNumber_eq year 3 1
    have hyear : year + 2 / 12 = year ∧ (2 : Int) % 12 + 1 = 3 := by omega
    rw [hyear.1, hyear.2] at hnext ⊢
    omega
  · obtain ⟨hyear, hdays⟩ := marchYear_next year h hfebruary
    rw [hyear, hdays] at hnext
    omega

end CommentSearch
