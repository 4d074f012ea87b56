import CommentSearch.Proofs.Instants
import CommentSearch.Proofs.PreparedDocuments

/-!
# Dates among metadata

The date that a text means (`DateText.Means`) is the one whose parts the text writes plainly, or
else that of the instant that the text gives. The text is stored as the form of that date
(`stored?_eq_some_iff`), and this has the stored layout exactly where the date exists and is of one
of the years 0 to 9999 (`isStoredText_iff_of_means`): parts that are written plainly need not make a
date, and an instant may be of a year with more digits.

A typed entry with a date and time has its date and its time of day besides, cut out at fixed
places. They are the halves of a text of the stored layout, and of no other
(`isStoredText_iff_halves`).
-/

namespace CommentSearch

/-! ### The date that a text means -/

namespace DateText

/-- A text means a date in a local zone: it writes its parts plainly between blanks, or it does not
do so and gives an instant of the date. -/
inductive Means (zone : TimeZone) (s : String) : DateTime → Prop where
  | plainly {t : DateTime} (hwrites : PlainlyWrites (Text.trimChars s.toList) t) : Means zone s t
  | instant {ms : Int} (hplain : ∀ t, ¬PlainlyWrites (Text.trimChars s.toList) t)
    (hinstant : instant? zone s = some ms) : Means zone s (.ofInstant ms)

/-- A text is stored as the form of the date that it means, if it means one. -/
theorem stored?_eq_some_iff {zone : TimeZone} {s r : String} :
    stored? s zone = some r ↔ ∃ t, Means zone s t ∧ t.stored = r := by
  unfold stored?
  cases hplain : plain? (Text.trimChars s.toList) with
  | some cs =>
    -- the instant of such a text is not asked for
    obtain ⟨t, hwrites, hcs⟩ := plain?_eq_some_iff.1 hplain
    dsimp only
    rw [hcs, String.ofList_toList, Option.some.injEq]
    refine ⟨fun hr => ⟨t, .plainly hwrites, hr⟩, ?_⟩
    rintro ⟨u, hmeans, rfl⟩
    cases hmeans with
    | plainly hother =>
      have hstored := plain?_eq_some_iff.2 ⟨u, hother, rfl⟩
      rw [hplain, hcs, Option.some.injEq] at hstored
      exact String.toList_injective hstored
    | instant hnone => exact absurd hwrites (hnone t)
  | none =>
    have hnone (t : DateTime) : ¬PlainlyWrites (Text.trimChars s.toList) t := fun hwrites => by
      rw [plain?_eq_some_iff.2 ⟨t, hwrites, rfl⟩] at hplain
      cases hplain
    dsimp only
    rw [Option.map_eq_some_iff]
    constructor
    · rintro ⟨ms, hinstant, rfl⟩
      exact ⟨.ofInstant ms, .instant hnone hinstant, rfl⟩
    · rintro ⟨_, hmeans, rfl⟩
      cases hmeans with
      | plainly hwrites => exact absurd hwrites (hnone _)
      | instant _ hinstant => exact ⟨_, hinstant, rfl⟩

-- one hour ahead of universal time, in which a day in the longer ISO form is counted
example :
    stored? "1 Jan 2020" ⟨fun _ => 3600000⟩ = some "2019-12-31 23:00:00" ∧
      stored? "+002020-01-01" ⟨fun _ => 3600000⟩ = some "2020-01-01 00:00:00" := by
  decide +kernel

/-- The stored form of a date that a text means has the stored layout exactly where the date exists
and its year has four digits. -/
theorem isStoredText_iff_of_means {zone : TimeZone} {s : String} {t : DateTime}
    (h : Means zone s t) : IsStoredText t.stored.toList ↔ t.Storable := by
  cases h with
  | plainly hwrites => exact DateTime.isStoredText_stored_iff (fits_of_plainlyWrites hwrites).2
  | instant _ _ =>
    exact DateTime.isStoredText_stored_iff (DateTime.valid_ofSeconds _).hasTwoDigits

end DateText

/-! ### The halves of stored forms -/

/-- A text of the stored layout is one with a day and a time of day at the fixed places of these,
and the blank between them. -/
theorem isStoredText_iff_halves (r : String) : IsStoredText r.toList ↔
    IsDayText (MetaEntryValue.halves r).1.toList ∧ IsTimeText (MetaEntryValue.halves r).2.toList ∧
      r = (MetaEntryValue.halves r).1 ++ " " ++ (MetaEntryValue.halves r).2 := by
  unfold MetaEntryValue.halves
  rw [String.toList_ofList, String.toList_ofList]
  constructor
  · intro h
    generalize hr : r.toList = cs at h
    obtain ⟨hday, htime⟩ := h
    rename_i day time
    have hlength := length_of_isDayText hday
    have htake : (day ++ ' ' :: time).take 10 = day := List.take_left' hlength
    have hdrop : (day ++ ' ' :: time).drop 11 = time := by
      have hblank : day ++ ' ' :: time = (day ++ [' ']) ++ time := by simp
      rw [hblank]
      exact List.drop_left' (by rw [List.length_append, hlength]; rfl)
    rw [htake, hdrop]
    refine ⟨hday, htime, String.toList_injective ?_⟩
    simp [hr]
  · rintro ⟨hday, htime, heq⟩
    rw [heq]
    simpa using IsStoredText.mk hday htime

/-! ### Typed entries -/

/-- The stored form of the date that a text is read as. -/
def MetaReading.moment? : MetaReading → Option String
  | .moment stored => some stored
  | _ => none

/-- A text is read as a date if it is stored as one and neither numeric nor blank. -/
theorem MetaReading.moment?_ofText_iff {zone : TimeZone} {s r : String} :
    (MetaReading.ofText zone s).moment? = some r ↔ Number.isNumericText s = false ∧
      Text.isAllBlank s = false ∧ DateText.stored? s zone = some r := by
  unfold MetaReading.ofText
  cases Number.isNumericText s with
  | true => exact ⟨nofun, fun h => absurd h.1 nofun⟩
  | false =>
    cases Text.isAllBlank s with
    | true => exact ⟨nofun, fun h => absurd h.2.1 nofun⟩
    | false =>
      rw [if_neg Bool.false_ne_true, if_neg Bool.false_ne_true]
      cases DateText.stored? s zone with
      | none => exact ⟨nofun, fun h => absurd h.2.2 nofun⟩
      | some stored => exact ⟨fun h => ⟨rfl, rfl, h⟩, fun h => h.2.2⟩

/-- The fields of a typed entry for its date and time: all three or none. -/
theorem MetaEntryValue.get?_toValue_date (e : MetaEntryValue) :
    e.toValue.get? "datetime" = e.reading.moment?.map .text ∧
      e.toValue.get? "date" = e.reading.moment?.map (fun r => .text (halves r).1) ∧
      e.toValue.get? "time" = e.reading.moment?.map (fun r => .text (halves r).2) := by
  obtain ⟨text, isTrue, reading⟩ := e
  cases reading <;> exact ⟨rfl, rfl, rfl⟩

/-- A text is stored as the form of the date that it means in the local zone. The typed entry of a
value that can be stored has no date, or this form with a date and a time of day cut out of it. All
of these have the layouts of their fields exactly where the date exists and its year has four
digits. -/
theorem date_fields_fit_iff (zone : TimeZone) (s : String) {v : Value}
    (hv : v = .null ∨ ∃ x : Scalar, v = x.toValue) :
    (∀ r, DateText.stored? s zone = some r ↔ ∃ t, DateText.Means zone s t ∧ t.stored = r) ∧
      (∀ t, DateText.Means zone s t → (IsStoredText t.stored.toList ↔ t.Storable)) ∧
      ∃ e, MetaEntryValue.ofValue (some v) zone = .ok e ∧
        (e.toValue.get? "datetime" = none ∧ e.toValue.get? "date" = none ∧
            e.toValue.get? "time" = none ∨
          ∃ t date time, DateText.Means zone e.text t ∧
            e.toValue.get? "datetime" = some (.text t.stored) ∧
            e.toValue.get? "date" = some (.text date) ∧
            e.toValue.get? "time" = some (.text time) ∧
            (IsStoredText t.stored.toList ∧ IsDayText date.toList ∧ IsTimeText time.toList ∧
              t.stored = date ++ " " ++ time ↔ t.Storable)) := by
  refine ⟨fun r => DateText.stored?_eq_some_iff, fun t => DateText.isStoredText_iff_of_means, ?_⟩
  obtain ⟨text, htext⟩ : ∃ text, metaEntry zone v = .ofText zone text := ⟨_, rfl⟩
  refine ⟨.ofText zone text, htext ▸ ofValue_eq_metaEntry zone hv, ?_⟩
  obtain ⟨hdatetime, hdate, htime⟩ := (MetaEntryValue.ofText zone text).get?_toValue_date
  have hreading : (MetaEntryValue.ofText zone text).reading = .ofText zone text := by
    rw [MetaEntryValue.ofText]
  rw [hreading] at hdatetime hdate htime
  cases hmoment : (MetaReading.ofText zone text).moment? with
  | none =>
    rw [hmoment] at hdatetime hdate htime
    exact .inl ⟨hdatetime, hdate, htime⟩
  | some r =>
    rw [hmoment] at hdatetime hdate htime
    obtain ⟨t, hmeans, rfl⟩ :=
      DateText.stored?_eq_some_iff.1 (MetaReading.moment?_ofText_iff.1 hmoment).2.2
    refine .inr ⟨t, _, _, hmeans, hdatetime, hdate, htime, ?_⟩
    rw [← isStoredText_iff_halves, and_self]
    exact DateText.isStoredText_iff_of_means hmeans

/-- A day in digits is a date at the start of the day, here of a leap day. -/
theorem date_fields_fit_iff_leapDay :
    let t : DateTime := ⟨2024, 2, 29, 0, 0, 0⟩
    DateText.Means .universal "2024-02-29" t ∧ IsStoredText t.stored.toList ∧
      (Value.text "2024-02-29" = .null ∨ ∃ x : Scalar, Value.text "2024-02-29" = x.toValue) ∧
      ∃ e date time, MetaEntryValue.ofValue (some (.text "2024-02-29")) = .ok e ∧
        e.toValue.get? "datetime" = some (.text t.stored) ∧
        e.toValue.get? "date" = some (.text date) ∧ e.toValue.get? "time" = some (.text time) ∧
        IsDayText date.toList ∧ IsTimeText time.toList := by
  intro t
  have hvalue : Value.text "2024-02-29" = .null ∨
      ∃ x : Scalar, Value.text "2024-02-29" = x.toValue := .inr ⟨.text "2024-02-29", rfl⟩
  obtain ⟨-, hreal, e, he, hcases⟩ := date_fields_fit_iff .universal "2024-02-29" hvalue
  have hwrites : DateText.PlainlyWrites "2024-02-29".toList t :=
    @DateText.PlainlyWrites.mk ['2', '0', '2', '4'] ['0', '2'] ['2', '9'] [] _ _ _
      ⟨rfl, List.all_eq_true.1 rfl⟩ ⟨rfl, List.all_eq_true.1 rfl⟩ ⟨rfl, List.all_eq_true.1 rfl⟩
      .nothing
  have hmeans : DateText.Means .universal "2024-02-29" t := .plainly hwrites
  have hstored : IsStoredText t.stored.toList :=
    (hreal t hmeans).2 ⟨⟨by decide, by decide, by decide, by decide, by decide⟩, by decide⟩
  refine ⟨hmeans, hstored, hvalue, ?_⟩
  have hentry (s : String) : MetaEntryValue.ofValue (some (.text s)) =
      .ok (.ofText .universal s) := rfl
  have heq := Except.ok.inj (he.symm.trans (hentry _))
  rw [heq] at he hcases
  have hmoment : (MetaReading.ofText .universal "2024-02-29").moment? = some t.stored :=
    MetaReading.moment?_ofText_iff.2
      ⟨by decide, by decide, DateText.stored?_eq_some_iff.2 ⟨t, hmeans, rfl⟩⟩
  have hdatetime : (MetaEntryValue.ofText .universal "2024-02-29").toValue.get? "datetime" =
      some (.text t.stored) := by
    rw [(MetaEntryValue.ofText .universal "2024-02-29").get?_toValue_date.1]
    exact congrArg (Option.map Value.text) hmoment
  rcases hcases with ⟨hnone, -, -⟩ | ⟨u, date, time, hmeans', hdatetime', hdate, htime, hfit⟩
  · rw [hdatetime] at hnone
    cases hnone
  · rw [hdatetime, Option.some.injEq, Value.text.injEq] at hdatetime'
    have hparts := hfit.2 ((hreal u hmeans').1 (hdatetime' ▸ hstored))
    exact ⟨_, date, time, he, hdatetime, hdate, htime, hparts.2.1, hparts.2.2.1⟩

/-- Digits that make no date are stored as they stand, and an instant after the year 9999 is cut
apart in the wrong places. -/
theorem date_fields_misfit :
    (∃ r, DateText.stored? "2024-13-45" = some r ∧ ¬IsStoredText r.toList) ∧
      ∃ e, MetaEntryValue.ofValue (some (.text "+010000-01-01")) = .ok e ∧
        e.toValue.get? "datetime" = some (.text "10000-01-01 00:00:00") ∧
        e.toValue.get? "date" = some (.text "10000-01-0") ∧
        e.toValue.get? "time" = some (.text " 00:00:00") := by
  constructor
  · have hwrites : DateText.PlainlyWrites "2024-13-45".toList ⟨2024, 13, 45, 0, 0, 0⟩ :=
      @DateText.PlainlyWrites.mk ['2', '0', '2', '4'] ['1', '3'] ['4', '5'] [] _ _ _
        ⟨rfl, List.all_eq_true.1 rfl⟩ ⟨rfl, List.all_eq_true.1 rfl⟩ ⟨rfl, List.all_eq_true.1 rfl⟩
        .nothing
    have hmeans : DateText.Means .universal "2024-13-45" ⟨2024, 13, 45, 0, 0, 0⟩ := .plainly hwrites
    refine ⟨_, DateText.stored?_eq_some_iff.2 ⟨_, hmeans, rfl⟩, fun hreal => ?_⟩
    have hmonth := ((DateText.isStoredText_iff_of_means hmeans).1 hreal).valid.month
    exact absurd hmonth (by decide)
  · have hreading : (MetaEntryValue.ofText .universal "+010000-01-01").reading =
        .moment "10000-01-01 00:00:00" := by decide +kernel
    obtain ⟨hdatetime, hdate, htime⟩ :=
      (MetaEntryValue.ofText .universal "+010000-01-01").get?_toValue_date
    rw [hreading, MetaReading.moment?, Option.map_some] at hdatetime hdate htime
    have hhalves : MetaEntryValue.halves "10000-01-01 00:00:00" = ("10000-01-0", " 00:00:00") := by
      decide +kernel
    rw [hhalves] at hdate htime
    exact ⟨_, rfl, hdatetime, hdate, htime⟩

end CommentSearch
