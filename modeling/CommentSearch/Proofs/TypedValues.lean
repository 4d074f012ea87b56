import CommentSearch.Proofs.DateReadings
import CommentSearch.Proofs.PrintedNumbers

/-!
# Kinds of typed entries

The typed entry of a value of metadata has its text under two names, and is of exactly one kind
(`MetaEntryValue.existsUnique_fits`): it has two numbers, or a date and time with its two halves, or
none of these. Which one it is depends on the text only. So a number and its text have one entry,
and because a number is read back from its text, the two numbers of that entry are the number itself
and its integer part (`MetaEntryValue.ofValue_typed`).
-/

namespace CommentSearch

/-! ### Kinds -/

/-- What an entry has besides its text: numbers, a date and time, or neither. -/
inductive MetaKind where
  | number
  | moment
  | plain
deriving DecidableEq

section Kinds

variable (entry : Value)

/-- An entry has a number and its integer part. -/
def Value.HasNumbers (x : Number) : Prop :=
  entry.get? "double" = some (.number x) ∧ entry.get? "long" = some (.number x.trunc)

/-- An entry has no number. -/
def Value.LacksNumbers : Prop := entry.get? "double" = none ∧ entry.get? "long" = none

/-- An entry has a date and time, and the two halves of it. -/
def Value.HasMoment (stored : String) : Prop :=
  entry.get? "datetime" = some (.text stored) ∧
    entry.get? "date" = some (.text (MetaEntryValue.halves stored).1) ∧
    entry.get? "time" = some (.text (MetaEntryValue.halves stored).2)

/-- An entry has no part of a date and time. -/
def Value.LacksMoment : Prop :=
  entry.get? "datetime" = none ∧ entry.get? "date" = none ∧ entry.get? "time" = none

/-- An entry is of a kind: it has the fields of the kind, with numbers that are some, and lacks the
fields of the other kinds. -/
def MetaKind.Fits : MetaKind → Prop
  | number => (∃ x, entry.HasNumbers x ∧ x.isNaN = false ∧ x.trunc.isNaN = false) ∧
      entry.LacksMoment
  | moment => (∃ stored, entry.HasMoment stored) ∧ entry.LacksNumbers
  | plain => entry.LacksNumbers ∧ entry.LacksMoment

end Kinds

namespace MetaKind

variable {entry : Value} {kind other : MetaKind}

/-- Only an entry with numbers has a number. -/
theorem isSome_double_of_fits (h : kind.Fits entry) :
    (entry.get? "double").isSome = decide (kind = number) := by
  cases kind with
  | number =>
    obtain ⟨⟨x, ⟨hdouble, -⟩, -, -⟩, -⟩ := h
    rw [hdouble]
    rfl
  | moment =>
    obtain ⟨-, hdouble, -⟩ := h
    rw [hdouble]
    rfl
  | plain =>
    obtain ⟨⟨hdouble, -⟩, -⟩ := h
    rw [hdouble]
    rfl

/-- Only an entry with a date and time has one. -/
theorem isSome_datetime_of_fits (h : kind.Fits entry) :
    (entry.get? "datetime").isSome = decide (kind = moment) := by
  cases kind with
  | number =>
    obtain ⟨-, hdatetime, -⟩ := h
    rw [hdatetime]
    rfl
  | moment =>
    obtain ⟨⟨stored, hdatetime, -, -⟩, -⟩ := h
    rw [hdatetime]
    rfl
  | plain =>
    obtain ⟨-, hdatetime, -⟩ := h
    rw [hdatetime]
    rfl

/-- An entry is of no two kinds: two of its fields tell them apart. -/
theorem eq_of_fits (h : kind.Fits entry) (hother : other.Fits entry) : kind = other := by
  have hdouble : decide (kind = number) = decide (other = number) :=
    (isSome_double_of_fits h).symm.trans (isSome_double_of_fits hother)
  have hdatetime : decide (kind = moment) = decide (other = moment) :=
    (isSome_datetime_of_fits h).symm.trans (isSome_datetime_of_fits hother)
  revert hdouble hdatetime
  cases kind <;> cases other <;> decide

end MetaKind

/-! ### Numbers that are some -/

namespace Number

theorem isNaN_ofRat (q : Rat) : (ofRat q).isNaN = false := by
  rw [ofRat_eq]
  split <;> rfl

theorem isNaN_trunc (x : Number) : x.trunc.isNaN = x.isNaN := by
  cases x <;> rfl

end Number

/-- No text is read as what is not a number. -/
theorem MetaReading.isNaN_of_number?_ofText {zone : TimeZone} {s : String} {x : Number}
    (h : (ofText zone s).number? = some x) : x.isNaN = false := by
  rw [number?_ofText, Option.map_eq_some_iff] at h
  obtain ⟨q, -, rfl⟩ := h
  exact Number.isNaN_ofRat q

namespace MetaEntryValue

variable (zone : TimeZone)

/-! ### The entry of a text -/

/-- The entry of a text is of exactly one kind. -/
theorem existsUnique_fits (s : String) :
    ∃! kind : MetaKind, kind.Fits (ofText zone s).toValue := by
  have hnumber (x : Number) : (MetaReading.ofText zone s).number? = some x → x.isNaN = false :=
    MetaReading.isNaN_of_number?_ofText
  unfold ofText
  -- of the reading nothing counts but that its number is one
  generalize MetaReading.ofText zone s = reading at hnumber
  apply existsUnique_of_exists_of_unique
  · cases reading with
    | number x =>
      have hx : x.isNaN = false := hnumber x rfl
      have htrunc : x.trunc.isNaN = false := by rw [Number.isNaN_trunc, hx]
      exact ⟨.number, ⟨x, ⟨rfl, rfl⟩, hx, htrunc⟩, rfl, rfl, rfl⟩
    | moment stored => exact ⟨.moment, ⟨stored, rfl, rfl, rfl⟩, rfl, rfl⟩
    | nothing => exact ⟨.plain, ⟨rfl, rfl⟩, rfl, rfl, rfl⟩
  · intro kind other h hother
    exact MetaKind.eq_of_fits h hother

/-! ### The entry of a number -/

theorem ofValue_number (x : Number) :
    ofValue (some (.number x)) zone = .ok (ofText zone x.toText) :=
  rfl

/-- The entry of a number has the number and its integer part. -/
theorem hasNumbers_ofText_toText {q : Rat} (h : Number.ofRat q = .finite q) :
    (ofText zone (Number.finite q).toText).toValue.HasNumbers (.finite q) := by
  obtain ⟨r, hexact, hround⟩ := Number.exists_exactValue?_toText h
  have hreading : (ofText zone (Number.finite q).toText).reading.number? = some (.finite q) := by
    rw [ofText, MetaReading.number?_ofText, hexact, Option.map_some, hround]
  unfold Value.HasNumbers
  rw [get?_toValue_double, get?_toValue_long, hreading]
  exact ⟨rfl, rfl⟩

/-! ### All values -/

/-- The entry of a value that can be stored has one text under two names and is of exactly one kind.
A number has the entry of its text, `true` has that of the text `1`, and `false` and null have that
of the empty text. The entry of a number that is finite has the number and its integer part, and the
entry of an integer of up to 53 binary digits has it twice. -/
theorem ofValue_typed {v : Value} (hv : v = .null ∨ ∃ x : Scalar, v = x.toValue) :
    (∃ e, ofValue (some v) zone = .ok e ∧
        (∃ s, e.toValue.get? "value" = some (.text s) ∧ e.toValue.get? "raw" = some (.text s)) ∧
        ∃! kind : MetaKind, kind.Fits e.toValue) ∧
      (∀ x : Number,
        ofValue (some (.number x)) zone = ofValue (some (.text x.toText)) zone) ∧
      ofValue (some (.bool true)) zone = ofValue (some (.text "1")) zone ∧
      ofValue (some (.bool false)) zone = ofValue (some (.text "")) zone ∧
      ofValue (some .null) zone = ofValue (some (.text "")) zone ∧
      (∀ q, Number.ofRat q = .finite q → ∃ e, ofValue (some (.number (.finite q))) zone = .ok e ∧
        e.toValue.HasNumbers (.finite q)) ∧
      ∀ n : Int, n.natAbs < 2 ^ 53 → ∃ e, ofValue (some (.number (.finite n))) zone = .ok e ∧
        e.toValue.get? "double" = some (.number (.finite n)) ∧
        e.toValue.get? "long" = some (.number (.finite n)) := by
  refine ⟨?_, fun x => rfl, rfl, rfl, rfl, ?_, ?_⟩
  · obtain ⟨s, hs⟩ : ∃ s, metaEntry zone v = .ofText zone s := ⟨_, rfl⟩
    refine ⟨metaEntry zone v, ofValue_eq_metaEntry zone hv, ?_⟩
    rw [hs]
    exact ⟨⟨s, rfl, rfl⟩, existsUnique_fits zone s⟩
  · intro q hq
    exact ⟨_, ofValue_number zone _, hasNumbers_ofText_toText zone hq⟩
  · intro n hn
    obtain ⟨hdouble, hlong⟩ := hasNumbers_ofText_toText zone (Number.ofRat_intCast hn)
    rw [Number.trunc_finite_intCast] at hlong
    exact ⟨_, ofValue_number zone _, hdouble, hlong⟩

/-- The text of a number with places behind the point, and a negative integer. -/
theorem ofValue_typed_threeAndAHalf :
    let x : Number := .finite (7 / 2)
    (Value.text "3.5" = .null ∨ ∃ y : Scalar, Value.text "3.5" = y.toValue) ∧
      Number.ofRat (7 / 2) = x ∧ x.toText = "3.5" ∧ Int.natAbs (-7) < 2 ^ 53 ∧
      (∃ e, ofValue (some (.text "3.5")) = .ok e ∧
        (∃! kind : MetaKind, kind.Fits e.toValue) ∧ e.toValue.HasNumbers x ∧
        e.toValue.get? "long" = some (.number (.finite 3))) ∧
      ∃ e, ofValue (some (.number (.finite (-7 : Int)))) = .ok e ∧
        e.toValue.get? "long" = some (.number (.finite (-7 : Int))) := by
  intro x
  have hstored : Value.text "3.5" = .null ∨ ∃ y : Scalar, Value.text "3.5" = y.toValue :=
    .inr ⟨.text "3.5", rfl⟩
  have hrepresented : Number.ofRat (7 / 2) = x := by decide +kernel
  have htext : x.toText = "3.5" := by decide +kernel
  have htrunc : x.trunc = .finite 3 := by decide +kernel
  have hsmall : Int.natAbs (-7) < 2 ^ 53 := by decide
  obtain ⟨⟨e, he, -, hkind⟩, hsame, -, -, -, hnumbers, hintegers⟩ :=
    ofValue_typed .universal hstored
  obtain ⟨e', he', hnumbers⟩ := hnumbers (7 / 2) hrepresented
  rw [hsame, htext] at he'
  obtain rfl : e = e' := Except.ok.inj (he.symm.trans he')
  have hlong := hnumbers.2
  rw [htrunc] at hlong
  obtain ⟨i, hi, -, hilong⟩ := hintegers (-7) hsmall
  exact ⟨hstored, hrepresented, htext, hsmall, ⟨e, he, hkind, hnumbers, hlong⟩, i, hi, hilong⟩

end MetaEntryValue

end CommentSearch
