import CommentSearch.Proofs.PeriodBounds

/-!
# Dates that are written plainly

What a text of the stored layout is (`IsStoredText`): runs of digits of fixed widths with their
separators, whose numbers are those of a date and time that exists. The stored form of a date has
the layout exactly where the date exists and its year has four digits
(`isStoredText_stored_iff`).

A text that writes its parts plainly (`PlainlyWrites`) is stored as it stands, whether or not they
make a date (`plain?_eq_some_iff`). A stored form is such a text, and is read as itself
(`stored?_stored`).
-/

namespace CommentSearch

open Decimal (digitsValue)

/-! ### Runs of digits -/

/-- A run of so many decimal digits. -/
def IsRun (width : Nat) (cs : List Char) : Prop := cs.length = width ∧ IsDigits cs

theorem isRun_padded {width : Nat} {n : Int} (hwidth : 0 < width) (hn : 0 ≤ n ∧ n < 10 ^ width) :
    IsRun width (padded width n) :=
  ⟨length_padded hwidth hn.1 hn.2, isDigits_padded hn.1⟩

theorem IsRun.digitsValue_lt {width : Nat} {cs : List Char} (h : IsRun width cs) :
    (digitsValue cs : Int) < 10 ^ width := by
  have hlt := CommentSearch.digitsValue_lt h.2
  rw [h.1] at hlt
  exact_mod_cast hlt

/-- Runs of one width that have the same value are the same. -/
theorem IsRun.eq_of_digitsValue_eq {width : Nat} {cs ds : List Char} (hcs : IsRun width cs)
    (hds : IsRun width ds) (h : digitsValue cs = digitsValue ds) : cs = ds := by
  have hlength := hcs.1.trans hds.1.symm
  have hnotlt : ¬cs < ds := by
    rw [lt_iff_digitsValue_lt hcs.2 hds.2 hlength]
    omega
  have hnotgt : ¬ds < cs := by
    rw [lt_iff_digitsValue_lt hds.2 hcs.2 hlength.symm]
    omega
  exact List.le_antisymm hnotgt hnotlt

/-- A run of digits is the text of its value, filled up to its width. -/
theorem padded_digitsValue {width : Nat} {cs : List Char} (hwidth : 0 < width)
    (h : IsRun width cs) : padded width (digitsValue cs) = cs := by
  have hvalue : 0 ≤ (digitsValue cs : Int) := Int.natCast_nonneg _
  refine (isRun_padded hwidth ⟨hvalue, h.digitsValue_lt⟩).eq_of_digitsValue_eq h ?_
  rw [digitsValue_padded hvalue, Int.toNat_natCast]

/-- The text of an integer is a run of digits where the integer fits the width. -/
theorem isRun_padded_iff {width : Nat} {n : Int} (hwidth : 0 < width) :
    IsRun width (padded width n) ↔ 0 ≤ n ∧ n < 10 ^ width := by
  refine ⟨fun h => ?_, isRun_padded hwidth⟩
  -- the text of a negative integer has its sign in it
  have hnonneg : 0 ≤ n := by
    by_contra hneg
    have hsign : '-' ∈ padded width n := by
      unfold padded padText intChars
      rw [if_pos (by omega)]
      exact List.mem_append_right _ List.mem_cons_self
    exact absurd (h.2 '-' hsign) (by decide)
  have hlt := h.digitsValue_lt
  rw [digitsValue_padded hnonneg] at hlt
  exact ⟨hnonneg, by omega⟩

/-- Texts with the same separator before parts of one length have the same parts. -/
theorem eq_of_append_separator {as bs cs ds : List Char} {separator : Char}
    (h : as ++ separator :: cs = bs ++ separator :: ds) (hlength : cs.length = ds.length) :
    as = bs ∧ cs = ds := by
  obtain ⟨hbefore, hafter⟩ := List.append_inj' h (congrArg Nat.succ hlength)
  exact ⟨hbefore, (List.cons.inj hafter).2⟩

/-! ### The stored layout -/

/-- A text `yyyy-MM-dd` of a day of the calendar. -/
inductive IsDayText : List Char → Prop where
  | mk {year month day : List Char} (hyear : IsRun 4 year) (hmonth : IsRun 2 month)
    (hday : IsRun 2 day) (inYear : 1 ≤ digitsValue month ∧ digitsValue month ≤ 12)
    (inMonth : 1 ≤ digitsValue day ∧
      (digitsValue day : Int) ≤ daysInMonth (digitsValue year) (digitsValue month)) :
    IsDayText (year ++ '-' :: (month ++ '-' :: day))

/-- A text `HH:mm:ss` of a time of day. -/
inductive IsTimeText : List Char → Prop where
  | mk {hour minute second : List Char} (hhour : IsRun 2 hour) (hminute : IsRun 2 minute)
    (hsecond : IsRun 2 second) (inDay : digitsValue hour < 24) (inHour : digitsValue minute < 60)
    (inMinute : digitsValue second < 60) :
    IsTimeText (hour ++ ':' :: (minute ++ ':' :: second))

/-- A text `yyyy-MM-dd HH:mm:ss` of a date and time that exists. -/
inductive IsStoredText : List Char → Prop where
  | mk {day time : List Char} (hday : IsDayText day) (htime : IsTimeText time) :
    IsStoredText (day ++ ' ' :: time)

theorem length_of_isDayText {cs : List Char} (h : IsDayText cs) : cs.length = 10 := by
  cases h with
  | mk hyear hmonth hday _ _ => simp [hyear.1, hmonth.1, hday.1]

theorem length_of_isTimeText {cs : List Char} (h : IsTimeText cs) : cs.length = 8 := by
  cases h with
  | mk hhour hminute hsecond _ _ _ => simp [hhour.1, hminute.1, hsecond.1]

namespace DateTime

/-- The text of the day of a date. -/
def dayChars (t : DateTime) : List Char :=
  padded 4 t.year ++ '-' :: (padded 2 t.month ++ '-' :: padded 2 t.day)

/-- The text of the time of day of a date. -/
def timeChars (t : DateTime) : List Char :=
  padded 2 t.hour ++ ':' :: (padded 2 t.minute ++ ':' :: padded 2 t.second)

theorem toList_stored_eq (t : DateTime) : t.stored.toList = t.dayChars ++ ' ' :: t.timeChars := by
  rw [toList_stored]
  simp only [dayChars, timeChars, List.append_assoc, List.cons_append]

/-- The parts of a date after its year have two digits. -/
structure HasTwoDigits (t : DateTime) : Prop where
  month : 0 ≤ t.month ∧ t.month < 100
  day : 0 ≤ t.day ∧ t.day < 100
  hour : 0 ≤ t.hour ∧ t.hour < 100
  minute : 0 ≤ t.minute ∧ t.minute < 100
  second : 0 ≤ t.second ∧ t.second < 100

variable {t : DateTime}

theorem Valid.hasTwoDigits (h : t.Valid) : t.HasTwoDigits := by
  obtain ⟨hmonth, hday, hhour, hminute, hsecond⟩ := h
  have hdays := daysInMonth_bounds t.year t.month
  constructor <;> omega

theorem isDayText_dayChars_iff (h : t.HasTwoDigits) : IsDayText t.dayChars ↔
    (0 ≤ t.year ∧ t.year ≤ 9999) ∧ (1 ≤ t.month ∧ t.month ≤ 12) ∧
      1 ≤ t.day ∧ t.day ≤ daysInMonth t.year t.month := by
  obtain ⟨hmonth, hday, -, -, -⟩ := h
  have hM : IsRun 2 (padded 2 t.month) := isRun_padded (by decide) hmonth
  have hD : IsRun 2 (padded 2 t.day) := isRun_padded (by decide) hday
  have hmonthValue := @digitsValue_padded 2 _ hmonth.1
  have hdayValue := @digitsValue_padded 2 _ hday.1
  constructor
  · intro h
    generalize htext : t.dayChars = text at h
    obtain ⟨hyear, hmonth', hday', inYear, inMonth⟩ := h
    -- the last parts have two digits in both texts, so the first parts are the same
    obtain ⟨hY, hafter⟩ := eq_of_append_separator htext (by simp [hM.1, hD.1, hmonth'.1, hday'.1])
    obtain ⟨rfl, rfl⟩ := eq_of_append_separator hafter (hD.1.trans hday'.1.symm)
    rw [← hY] at hyear inMonth
    have hwidth := (isRun_padded_iff (by decide)).1 hyear
    rw [digitsValue_padded hwidth.1, hmonthValue, hdayValue, Int.toNat_of_nonneg hwidth.1,
      Int.toNat_of_nonneg hmonth.1, Int.toNat_of_nonneg hday.1] at inMonth
    rw [hmonthValue] at inYear
    omega
  · rintro ⟨hyear, inYear, inMonth⟩
    refine .mk (isRun_padded (by decide) (by omega)) hM hD ?_ ?_
    · rw [hmonthValue]
      omega
    · rw [hmonthValue, hdayValue, digitsValue_padded hyear.1, Int.toNat_of_nonneg hyear.1,
        Int.toNat_of_nonneg hmonth.1, Int.toNat_of_nonneg hday.1]
      omega

theorem length_timeChars (h : t.HasTwoDigits) : t.timeChars.length = 8 := by
  obtain ⟨-, -, hhour, hminute, hsecond⟩ := h
  have hH : IsRun 2 (padded 2 t.hour) := isRun_padded (by decide) hhour
  have hN : IsRun 2 (padded 2 t.minute) := isRun_padded (by decide) hminute
  have hS : IsRun 2 (padded 2 t.second) := isRun_padded (by decide) hsecond
  simp [timeChars, hH.1, hN.1, hS.1]

theorem isTimeText_timeChars_iff (h : t.HasTwoDigits) :
    IsTimeText t.timeChars ↔ t.hour < 24 ∧ t.minute < 60 ∧ t.second < 60 := by
  obtain ⟨-, -, hhour, hminute, hsecond⟩ := h
  have hH : IsRun 2 (padded 2 t.hour) := isRun_padded (by decide) hhour
  have hN : IsRun 2 (padded 2 t.minute) := isRun_padded (by decide) hminute
  have hS : IsRun 2 (padded 2 t.second) := isRun_padded (by decide) hsecond
  have hhourValue := @digitsValue_padded 2 _ hhour.1
  have hminuteValue := @digitsValue_padded 2 _ hminute.1
  have hsecondValue := @digitsValue_padded 2 _ hsecond.1
  constructor
  · intro h
    generalize htext : t.timeChars = text at h
    obtain ⟨hhour', hminute', hsecond', inDay, inHour, inMinute⟩ := h
    obtain ⟨rfl, hafter⟩ :=
      eq_of_append_separator htext (by simp [hN.1, hS.1, hminute'.1, hsecond'.1])
    obtain ⟨rfl, rfl⟩ := eq_of_append_separator hafter (hS.1.trans hsecond'.1.symm)
    omega
  · rintro ⟨inDay, inHour, inMinute⟩
    exact .mk hH hN hS (by omega) (by omega) (by omega)

/-- The stored form of a date has the stored layout exactly where the date exists and its year has
four digits. -/
theorem isStoredText_stored_iff (h : t.HasTwoDigits) :
    IsStoredText t.stored.toList ↔ t.Storable := by
  have hday := isDayText_dayChars_iff h
  have htime := isTimeText_timeChars_iff h
  have hlength := length_timeChars h
  obtain ⟨-, -, hhour, hminute, hsecond⟩ := h
  rw [toList_stored_eq]
  constructor
  · intro h
    generalize htext : t.dayChars ++ ' ' :: t.timeChars = text at h
    obtain ⟨hdayText, htimeText⟩ := h
    obtain ⟨rfl, rfl⟩ :=
      eq_of_append_separator htext (hlength.trans (length_of_isTimeText htimeText).symm)
    obtain ⟨hyear, hmonth, hday⟩ := hday.1 hdayText
    obtain ⟨inDay, inHour, inMinute⟩ := htime.1 htimeText
    exact ⟨⟨hmonth, hday, ⟨hhour.1, inDay⟩, ⟨hminute.1, inHour⟩, ⟨hsecond.1, inMinute⟩⟩, hyear⟩
  · rintro ⟨⟨hmonth, hday', hhour', hminute', hsecond'⟩, hyear⟩
    exact .mk (hday.2 ⟨hyear, hmonth, hday'⟩) (htime.2 ⟨hhour'.2, hminute'.2, hsecond'.2⟩)

end DateTime

/-! ### Reading plain texts -/

namespace DateText

theorem digits?_eq_some_iff {width : Nat} {cs ds rest : List Char} :
    digits? width cs = some (ds, rest) ↔ cs = ds ++ rest ∧ IsRun width ds := by
  unfold digits? IsRun IsDigits
  dsimp only
  constructor
  · intro h
    split at h
    · rename_i hrun
      obtain ⟨rfl, rfl⟩ := Prod.mk.inj (Option.some.inj h)
      exact ⟨(List.take_append_drop width cs).symm, hrun.1, List.all_eq_true.1 hrun.2⟩
    · cases h
  · rintro ⟨rfl, hlength, hdigits⟩
    rw [List.take_left' hlength, List.drop_left' hlength]
    exact if_pos ⟨hlength, List.all_eq_true.2 hdigits⟩

theorem partAfter?_eq_some_iff {separator : Char} {cs ds rest : List Char} :
    partAfter? separator cs = some (ds, rest) ↔ cs = separator :: (ds ++ rest) ∧ IsRun 2 ds := by
  cases cs with
  | nil => exact ⟨nofun, fun h => absurd h.1 (by simp)⟩
  | cons c cs =>
    unfold partAfter?
    dsimp only
    by_cases hc : c = separator
    · rw [if_pos hc, digits?_eq_some_iff, hc, List.cons.injEq]
      simp
    · rw [if_neg hc, List.cons.injEq]
      exact ⟨nofun, fun h => absurd h.1.1 hc⟩

theorem plainDay?_eq_some_iff {cs year month day rest : List Char} :
    plainDay? cs = some (year, month, day, rest) ↔
      cs = year ++ '-' :: (month ++ '-' :: (day ++ rest)) ∧
        IsRun 4 year ∧ IsRun 2 month ∧ IsRun 2 day := by
  unfold plainDay?
  simp only [Option.bind_eq_bind, Option.bind_eq_some_iff, Prod.exists, digits?_eq_some_iff,
    partAfter?_eq_some_iff, Option.pure_def, Option.some.injEq, Prod.mk.injEq]
  constructor
  · rintro ⟨_, _, ⟨rfl, hyear⟩, _, _, ⟨rfl, hmonth⟩, _, _, ⟨rfl, hday⟩, rfl, rfl, rfl, rfl⟩
    exact ⟨rfl, hyear, hmonth, hday⟩
  · rintro ⟨rfl, hyear, hmonth, hday⟩
    exact ⟨_, _, ⟨rfl, hyear⟩, _, _, ⟨rfl, hmonth⟩, _, _, ⟨rfl, hday⟩, rfl, rfl, rfl, rfl⟩

/-- What follows the day in a plain text, with the digits of hour, minute and second: nothing, or a
separator and a time of day with or without seconds. What is missing is zero. -/
inductive WritesTime : List Char → List Char → List Char → List Char → Prop where
  | nothing : WritesTime [] ['0', '0'] ['0', '0'] ['0', '0']
  | minutes {c : Char} {hour minute : List Char} (separator : c = ' ' ∨ c = 'T')
    (hhour : IsRun 2 hour) (hminute : IsRun 2 minute) :
    WritesTime (c :: (hour ++ ':' :: minute)) hour minute ['0', '0']
  | seconds {c : Char} {hour minute second : List Char} (separator : c = ' ' ∨ c = 'T')
    (hhour : IsRun 2 hour) (hminute : IsRun 2 minute) (hsecond : IsRun 2 second) :
    WritesTime (c :: (hour ++ ':' :: (minute ++ ':' :: second))) hour minute second

theorem plainTime?_cons {c : Char} (cs : List Char) (separator : c = ' ' ∨ c = 'T') :
    plainTime? (c :: cs) = (digits? 2 cs).bind fun hour =>
      (partAfter? ':' hour.2).bind fun minute =>
        if minute.2 = [] then some (hour.1, minute.1, ['0', '0'])
        else (partAfter? ':' minute.2).bind fun second =>
          if second.2 = [] then some (hour.1, minute.1, second.1) else none := by
  unfold plainTime?
  simp only [Option.bind_eq_bind, List.isEmpty_iff]
  rw [if_neg (by rintro ⟨hspace, hmark⟩; exact separator.elim hspace hmark)]
  refine congrArg _ (funext fun hour => congrArg _ (funext fun minute => ?_))
  split
  · rename_i hend
    exact (if_pos hend).symm
  · rename_i hend
    exact (if_neg hend).symm

theorem plainTime?_cons_of_ne {c : Char} (cs : List Char) (hspace : c ≠ ' ') (hmark : c ≠ 'T') :
    plainTime? (c :: cs) = none := by
  unfold plainTime?
  dsimp only
  rw [if_pos ⟨hspace, hmark⟩]
  rfl

theorem writesTime_of_plainTime? {cs hour minute second : List Char}
    (h : plainTime? cs = some (hour, minute, second)) : WritesTime cs hour minute second := by
  cases cs with
  | nil =>
    cases h
    exact .nothing
  | cons c cs =>
    by_cases separator : c = ' ' ∨ c = 'T'
    · rw [plainTime?_cons cs separator] at h
      obtain ⟨⟨_, _⟩, hreadHour, hafter⟩ := Option.bind_eq_some_iff.1 h
      obtain ⟨⟨_, _⟩, hreadMinute, hend⟩ := Option.bind_eq_some_iff.1 hafter
      obtain ⟨rfl, hhour⟩ := digits?_eq_some_iff.1 hreadHour
      obtain ⟨hrest, hminute⟩ := partAfter?_eq_some_iff.1 hreadMinute
      dsimp only at hend hrest
      subst hrest
      split at hend
      · rename_i hnil
        subst hnil
        cases hend
        rw [List.append_nil]
        exact .minutes separator hhour hminute
      · obtain ⟨⟨_, _⟩, hreadSecond, hlast⟩ := Option.bind_eq_some_iff.1 hend
        obtain ⟨rfl, hsecond⟩ := partAfter?_eq_some_iff.1 hreadSecond
        dsimp only at hlast
        split at hlast
        · rename_i hnil
          subst hnil
          cases hlast
          rw [List.append_nil]
          exact .seconds separator hhour hminute hsecond
        · cases hlast
    · rw [not_or] at separator
      rw [plainTime?_cons_of_ne cs separator.1 separator.2] at h
      cases h

theorem plainTime?_of_writesTime {cs hour minute second : List Char}
    (h : WritesTime cs hour minute second) : plainTime? cs = some (hour, minute, second) := by
  cases h with
  | nothing => rfl
  | minutes separator hhour hminute =>
    rw [plainTime?_cons _ separator, digits?_eq_some_iff.2 ⟨rfl, hhour⟩, Option.bind_some]
    dsimp only
    rw [partAfter?_eq_some_iff.2 ⟨congrArg _ (List.append_nil minute).symm, hminute⟩]
    rfl
  | seconds separator hhour hminute hsecond =>
    rw [plainTime?_cons _ separator, digits?_eq_some_iff.2 ⟨rfl, hhour⟩, Option.bind_some]
    dsimp only
    rw [partAfter?_eq_some_iff.2 ⟨rfl, hminute⟩, Option.bind_some, if_neg (List.cons_ne_nil _ _)]
    dsimp only
    rw [partAfter?_eq_some_iff.2 ⟨congrArg _ (List.append_nil second).symm, hsecond⟩]
    rfl

theorem plainTime?_eq_some_iff {cs hour minute second : List Char} :
    plainTime? cs = some (hour, minute, second) ↔ WritesTime cs hour minute second :=
  ⟨writesTime_of_plainTime?, plainTime?_of_writesTime⟩

/-- A text that writes the parts of a date in digits, the seconds or the whole time of day left out
where they are zero. The parts need not make a date that exists. -/
inductive PlainlyWrites : List Char → DateTime → Prop where
  | mk {year month day rest hour minute second : List Char} (hyear : IsRun 4 year)
    (hmonth : IsRun 2 month) (hday : IsRun 2 day) (htime : WritesTime rest hour minute second) :
    PlainlyWrites (year ++ '-' :: (month ++ '-' :: (day ++ rest)))
      ⟨digitsValue year, digitsValue month, digitsValue day, digitsValue hour, digitsValue minute,
        digitsValue second⟩

theorem isRun_of_writesTime {cs hour minute second : List Char}
    (h : WritesTime cs hour minute second) : IsRun 2 hour ∧ IsRun 2 minute ∧ IsRun 2 second := by
  have hzeros : IsRun 2 ['0', '0'] := ⟨rfl, List.all_eq_true.1 rfl⟩
  cases h with
  | nothing => exact ⟨hzeros, hzeros, hzeros⟩
  | minutes _ hhour hminute => exact ⟨hhour, hminute, hzeros⟩
  | seconds _ hhour hminute hsecond => exact ⟨hhour, hminute, hsecond⟩

theorem padText_of_isRun {width : Nat} {cs : List Char} (h : IsRun width cs) :
    padText width cs = cs := by
  unfold padText
  rw [h.1, Nat.sub_self]
  rfl

theorem fits_of_plainlyWrites {cs : List Char} {t : DateTime} (h : PlainlyWrites cs t) :
    (0 ≤ t.year ∧ t.year ≤ 9999) ∧ t.HasTwoDigits := by
  obtain ⟨hyear, hmonth, hday, htime⟩ := h
  obtain ⟨hhour, hminute, hsecond⟩ := isRun_of_writesTime htime
  have hbounds {width : Nat} {ds : List Char} (h : IsRun width ds) :
      0 ≤ (digitsValue ds : Int) ∧ (digitsValue ds : Int) < 10 ^ width :=
    ⟨Int.natCast_nonneg _, h.digitsValue_lt⟩
  refine ⟨⟨(hbounds hyear).1, Int.le_of_lt_add_one (hbounds hyear).2⟩, ?_⟩
  exact ⟨hbounds hmonth, hbounds hday, hbounds hhour, hbounds hminute, hbounds hsecond⟩

/-- A plain text is stored as it stands, its missing parts filled in. -/
theorem plain?_eq_some_iff {cs ds : List Char} :
    plain? cs = some ds ↔ ∃ t, PlainlyWrites cs t ∧ ds = t.stored.toList := by
  have hstored {year month day rest hour minute second : List Char} (hyear : IsRun 4 year)
      (hmonth : IsRun 2 month) (hday : IsRun 2 day) (htime : WritesTime rest hour minute second) :
      storedChars year month day hour minute second =
        (DateTime.mk (digitsValue year) (digitsValue month) (digitsValue day) (digitsValue hour)
          (digitsValue minute) (digitsValue second)).stored.toList := by
    obtain ⟨hhour, hminute, hsecond⟩ := isRun_of_writesTime htime
    rw [DateTime.toList_stored, storedChars]
    simp only [padText_of_isRun, padded_digitsValue, hyear, hmonth, hday, hhour, hminute, hsecond,
      Nat.zero_lt_succ, List.append_assoc, List.cons_append]
  unfold plain?
  simp only [Option.bind_eq_bind, Option.bind_eq_some_iff, Prod.exists, plainDay?_eq_some_iff,
    plainTime?_eq_some_iff, Option.pure_def, Option.some.injEq]
  constructor
  · rintro ⟨_, _, _, _, ⟨rfl, hyear, hmonth, hday⟩, _, _, _, htime, rfl⟩
    exact ⟨_, .mk hyear hmonth hday htime, hstored hyear hmonth hday htime⟩
  · rintro ⟨t, hwrites, hds⟩
    obtain ⟨hyear, hmonth, hday, htime⟩ := hwrites
    exact ⟨_, _, _, _, ⟨rfl, hyear, hmonth, hday⟩, _, _, _, htime,
      (hstored hyear hmonth hday htime).trans hds.symm⟩

/-! ### Reading stored forms -/

theorem plainlyWrites_stored {t : DateTime} (hyear : 0 ≤ t.year ∧ t.year ≤ 9999)
    (h : t.HasTwoDigits) : PlainlyWrites t.stored.toList t := by
  obtain ⟨hmonth, hday, hhour, hminute, hsecond⟩ := h
  have hrun {n : Int} (hn : 0 ≤ n ∧ n < 100) : IsRun 2 (padded 2 n) := isRun_padded (by decide) hn
  have hvalue {width : Nat} {n : Int} (hn : 0 ≤ n) : (digitsValue (padded width n) : Int) = n := by
    rw [digitsValue_padded hn, Int.toNat_of_nonneg hn]
  have hwrites := PlainlyWrites.mk (isRun_padded (by decide) ⟨hyear.1, by omega⟩) (hrun hmonth)
    (hrun hday) (.seconds (.inl rfl) (hrun hhour) (hrun hminute) (hrun hsecond))
  rw [hvalue hyear.1, hvalue hmonth.1, hvalue hday.1, hvalue hhour.1, hvalue hminute.1,
    hvalue hsecond.1] at hwrites
  rw [DateTime.toList_stored]
  exact hwrites

theorem isBlank_of_mem_isRun {width : Nat} {cs : List Char} (h : IsRun width cs) {c : Char}
    (hc : c ∈ cs) : Text.isBlank c = false := by
  have hdigit := h.2 c hc
  rw [Char.isDigit_iff_toNat] at hdigit
  exact isBlank_of_isDigit hdigit

/-- A text that begins and ends with a digit has no blanks at its ends. -/
theorem trimChars_of_isRun {width other : Nat} {first last : List Char}
    (hfirst : IsRun (width + 1) first) (between : List Char) (hlast : IsRun (other + 1) last) :
    Text.trimChars (first ++ (between ++ last)) = first ++ (between ++ last) := by
  have hdrop {width : Nat} {run : List Char} (h : IsRun (width + 1) run) {cs rest : List Char}
      (hcs : ∀ c ∈ cs, c ∈ run) (hlength : cs.length = width + 1) :
      (cs ++ rest).dropWhile Text.isBlank = cs ++ rest := by
    cases cs with
    | nil => cases hlength
    | cons c cs =>
      exact List.dropWhile_cons_of_neg
        (by simp [isBlank_of_mem_isRun h (hcs c List.mem_cons_self)])
  unfold Text.trimChars Text.trimEndChars
  rw [hdrop hfirst (fun _ => id) hfirst.1, List.reverse_append, List.reverse_append,
    List.append_assoc, hdrop hlast (fun _ => List.mem_reverse.1)
      (List.length_reverse.trans hlast.1), ← List.append_assoc, ← List.reverse_append,
    ← List.reverse_append, List.reverse_reverse]

theorem trimChars_stored {t : DateTime} (hyear : 0 ≤ t.year ∧ t.year ≤ 9999)
    (h : t.HasTwoDigits) : Text.trimChars t.stored.toList = t.stored.toList := by
  have hfirst : IsRun 4 (padded 4 t.year) := isRun_padded (by decide) ⟨hyear.1, by omega⟩
  have hlast : IsRun 2 (padded 2 t.second) := isRun_padded (by decide) h.second
  have hends : t.stored.toList = padded 4 t.year ++
      (('-' :: (padded 2 t.month ++ '-' :: (padded 2 t.day ++ ' ' ::
        (padded 2 t.hour ++ ':' :: (padded 2 t.minute ++ [':']))))) ++ padded 2 t.second) := by
    rw [DateTime.toList_stored]
    simp
  rw [hends]
  exact trimChars_of_isRun hfirst _ hlast

/-- A stored form is read as itself. -/
theorem stored?_stored {t : DateTime} (hyear : 0 ≤ t.year ∧ t.year ≤ 9999) (h : t.HasTwoDigits)
    (zone : TimeZone) : stored? t.stored zone = some t.stored := by
  have hplain : plain? t.stored.toList = some t.stored.toList :=
    plain?_eq_some_iff.2 ⟨t, plainlyWrites_stored hyear h, rfl⟩
  unfold stored?
  rw [trimChars_stored hyear h, hplain]
  exact congrArg some (String.ofList_toList)

end DateText

end CommentSearch
