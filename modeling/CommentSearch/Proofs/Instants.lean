import CommentSearch.Proofs.PlainDates

/-!
# Instants and their stored forms

Every second is that of one date and time that exists (`exists_valid_toSeconds_eq`), so the
conversion from seconds to dates is right for all instants, before 1970 as well as after
(`toSeconds_ofSeconds`). The instants of the years 0 to 9999 (`InStoredYears`) have stored forms of
the stored layout, which are in the order of the seconds and are read back as they are
(`storedForm_orders_seconds`).
-/

namespace CommentSearch

/-! ### The date of a second -/

/-- Every day is one of some month. -/
theorem exists_month_of_day (days : Int) :
    ∃ months, DateTime.dayBefore months < days ∧ days ≤ DateTime.dayBefore (months + 1) := by
  have hbounds (months : Int) := daysInMonth_bounds (months / 12) (months % 12 + 1)
  induction days using Int.induction_on with
  | zero => exact ⟨12 * 1970, by decide, by decide⟩
  | succ days ih =>
    -- the day after the last one of a month is the first one of the next month
    obtain ⟨months, hbefore, hlast⟩ := ih
    by_cases hnext : (days : Int) + 1 ≤ DateTime.dayBefore (months + 1)
    · exact ⟨months, by omega, hnext⟩
    · have hsucc := DateTime.dayBefore_succ (months + 1)
      have hdays := hbounds (months + 1)
      exact ⟨months + 1, by omega, by omega⟩
  | pred days ih =>
    obtain ⟨months, hbefore, hlast⟩ := ih
    by_cases hprevious : DateTime.dayBefore months < -(days : Int) - 1
    · exact ⟨months, hprevious, by omega⟩
    · have hsucc := DateTime.dayBefore_succ (months - 1)
      have hdays := hbounds (months - 1)
      rw [Int.sub_add_cancel] at hsucc
      exact ⟨months - 1, by omega, by rw [Int.sub_add_cancel]; omega⟩

/-- Every day is that of a date of the calendar. -/
theorem exists_dayNumber_eq (days : Int) : ∃ year month day,
    (1 ≤ month ∧ month ≤ 12) ∧ (1 ≤ day ∧ day ≤ daysInMonth year month) ∧
      dayNumber year month day = days := by
  obtain ⟨months, hbefore, hlast⟩ := exists_month_of_day days
  have hsucc := DateTime.dayBefore_succ months
  refine ⟨months / 12, months % 12 + 1, days - DateTime.dayBefore months, by omega, by omega, ?_⟩
  have hmonths : 12 * (months / 12) + (months % 12 + 1 - 1) = months := by omega
  rw [DateTime.dayNumber_eq_dayBefore _ _ (by omega), hmonths]
  omega

namespace DateTime

/-- Every second is that of a date and time that exists. -/
theorem exists_valid_toSeconds_eq (seconds : Int) :
    ∃ t : DateTime, t.Valid ∧ t.toSeconds = seconds := by
  obtain ⟨year, month, day, hmonth, hday, hdays⟩ := exists_dayNumber_eq (seconds / 86400)
  refine ⟨⟨year, month, day, seconds % 86400 / 3600, seconds % 86400 / 60 % 60,
    seconds % 86400 % 60⟩, ⟨hmonth, hday, ?_, ?_, ?_⟩, ?_⟩
  · dsimp only
    omega
  · dsimp only
    omega
  · dsimp only
    omega
  · unfold toSeconds
    dsimp only
    rw [hdays]
    omega

theorem valid_ofSeconds (seconds : Int) : (ofSeconds seconds).Valid := by
  obtain ⟨t, ht, rfl⟩ := exists_valid_toSeconds_eq seconds
  rwa [ofSeconds_toSeconds ht]

/-- The date and time of a second is at that second. -/
theorem toSeconds_ofSeconds (seconds : Int) : (ofSeconds seconds).toSeconds = seconds := by
  obtain ⟨t, ht, rfl⟩ := exists_valid_toSeconds_eq seconds
  rw [ofSeconds_toSeconds ht]

end DateTime

/-! ### Instants of the years 0 to 9999 -/

/-- The date and time of an instant in milliseconds, of which the fraction of the second is
dropped. -/
def DateTime.ofInstant (ms : Int) : DateTime := ofSeconds (ms / 1000)

/-- An instant of one of the years 0 to 9999. -/
def InStoredYears (ms : Int) : Prop :=
  0 ≤ (DateTime.ofInstant ms).year ∧ (DateTime.ofInstant ms).year ≤ 9999

theorem storable_ofInstant {ms : Int} (h : InStoredYears ms) :
    (DateTime.ofInstant ms).Storable :=
  ⟨DateTime.valid_ofSeconds _, h⟩

/-- The instants of the years 0 to 9999 are those from the start of the first of these years to the
end of the last. -/
theorem inStoredYears_iff {ms : Int} :
    InStoredYears ms ↔ -62167219200000 ≤ ms ∧ ms < 253402300800000 := by
  have hvalid := DateTime.valid_ofSeconds (ms / 1000)
  have hseconds := DateTime.toSeconds_ofSeconds (ms / 1000)
  have hdays := daysInMonth_bounds (DateTime.ofSeconds (ms / 1000)).year
    (DateTime.ofSeconds (ms / 1000)).month
  -- an instant is of these years where its date is neither before the first nor after the last one
  have hfirst : DateTime.Valid ⟨0, 1, 1, 0, 0, 0⟩ :=
    ⟨by decide, by decide, by decide, by decide, by decide⟩
  have hlast : DateTime.Valid ⟨9999, 12, 31, 23, 59, 59⟩ :=
    ⟨by decide, by decide, by decide, by decide, by decide⟩
  have hbefore := DateTime.before_iff_toSeconds_lt hvalid hfirst
  have hafter := DateTime.before_iff_toSeconds_lt hlast hvalid
  have hfirstSeconds : DateTime.toSeconds ⟨0, 1, 1, 0, 0, 0⟩ = -62167219200 := rfl
  have hlastSeconds : DateTime.toSeconds ⟨9999, 12, 31, 23, 59, 59⟩ = 253402300799 := rfl
  obtain ⟨hmonth, hday, hhour, hminute, hsecond⟩ := hvalid
  rw [hseconds, hfirstSeconds] at hbefore
  rw [hseconds, hlastSeconds] at hafter
  unfold DateTime.Before at hbefore hafter
  unfold InStoredYears DateTime.ofInstant
  dsimp only at hbefore hafter
  omega

/-- The instants of the years 0 to 9999 can be expressed. -/
theorem instantOf_finite {ms : Int} (h : InStoredYears ms) : instantOf (.finite ms) = some ms := by
  have hbounds := inStoredYears_iff.1 h
  unfold instantOf
  rw [Number.toInt?_finite_intCast, Option.bind_some, instant?, if_pos]
  unfold lastInstant
  omega

/-- The stored form of an instant of the years 0 to 9999 is that of its date and time. -/
theorem storedForm_instantOf {ms : Int} (h : InStoredYears ms) :
    storedForm (instantOf (.finite ms)) = (DateTime.ofInstant ms).stored := by
  rw [instantOf_finite h]
  rfl

/-- The stored forms of instants of the years 0 to 9999 are in the order of their seconds. -/
theorem stored_ofInstant_lt_iff {a b : Int} (ha : InStoredYears a) (hb : InStoredYears b) :
    (DateTime.ofInstant a).stored.toList < (DateTime.ofInstant b).stored.toList ↔
      a / 1000 < b / 1000 := by
  have hastorable := storable_ofInstant ha
  have hbstorable := storable_ofInstant hb
  rw [DateTime.stored_lt_stored_iff hastorable hbstorable,
    DateTime.before_iff_toSeconds_lt hastorable.valid hbstorable.valid, DateTime.ofInstant,
    DateTime.ofInstant, DateTime.toSeconds_ofSeconds, DateTime.toSeconds_ofSeconds]

/-- The stored forms of the instants of the years 0 to 9999 are in the order of the seconds of the
instants, the same for the same second only, and each is read as itself in
every time zone. -/
theorem storedForm_orders_seconds {a b : Int} (ha : InStoredYears a) (hb : InStoredYears b) :
    let form (ms : Int) : String := storedForm (instantOf (.finite ms))
    ((form a).toList < (form b).toList ↔ a / 1000 < b / 1000) ∧
      (form a = form b ↔ a / 1000 = b / 1000) ∧
      ∀ zone, DateText.stored? (form a) zone = some (form a) := by
  intro form
  have hform {ms : Int} (h : InStoredYears ms) : form ms = (DateTime.ofInstant ms).stored :=
    storedForm_instantOf h
  have horder {c d : Int} (hc : InStoredYears c) (hd : InStoredYears d) :
      (form c).toList < (form d).toList ↔ c / 1000 < d / 1000 := by
    rw [hform hc, hform hd, stored_ofInstant_lt_iff hc hd]
  refine ⟨horder ha hb, ⟨fun heq => ?_, fun heq => ?_⟩, fun zone => ?_⟩
  · -- of two different seconds one is before the other, and so is its stored form
    have hirrefl : ¬(form b).toList < (form b).toList := List.lt_irrefl _
    have hnotlt : ¬a / 1000 < b / 1000 := fun hlt => hirrefl (heq ▸ (horder ha hb).2 hlt)
    have hnotgt : ¬b / 1000 < a / 1000 := fun hlt => hirrefl (heq ▸ (horder hb ha).2 hlt)
    omega
  · rw [hform ha, hform hb, DateTime.ofInstant, DateTime.ofInstant, heq]
  · have hstorable := storable_ofInstant ha
    rw [hform ha]
    exact DateText.stored?_stored hstorable.year hstorable.valid.hasTwoDigits zone

/-- The last millisecond before 1970 belongs to a second of its own. -/
theorem storedForm_orders_seconds_epoch :
    let form (ms : Int) : String := storedForm (instantOf (.finite ms))
    InStoredYears (-1) ∧ InStoredYears 999 ∧
      (form (-1)).toList < (form 999).toList ∧ form (-1) ≠ form 999 ∧
      ∀ zone, DateText.stored? (form (-1)) zone = some (form (-1)) := by
  intro form
  have hbefore : InStoredYears (-1) := inStoredYears_iff.2 (by decide)
  have hafter : InStoredYears 999 := inStoredYears_iff.2 (by decide)
  obtain ⟨horder, heq, hread⟩ := storedForm_orders_seconds hbefore hafter
  exact ⟨hbefore, hafter, horder.2 (by decide), mt heq.1 (by decide), hread⟩

end CommentSearch
