import Mathlib.Algebra.Order.Floor.Ring
import Mathlib.Data.Rat.Floor
import CommentSearch.Proofs.PreparedDocuments
import CommentSearch.Proofs.Rounding

/-!
# Numbers among metadata

A numeric text has an exact value (`exactValue?`), and is read as the number nearest to it
(`ofText_eq`). Its two typed fields are that number and the integer part of it. They are numbers of
the mapped types only for exact values in range: up to half-way beyond the largest number for the
one, and from and up to half-way beyond the limits of 64-bit integers for the other
(`numeric_fields_fit_iff`).
-/

namespace CommentSearch

namespace Number

/-! ### Exact values -/

/-- The exact value of a decimal literal with an optional sign. -/
def literalValue? (cs : List Char) : Option Rat :=
  (Decimal.ofChars? (Decimal.scanSign cs).2).map fun d =>
    if (Decimal.scanSign cs).1 then -d.toRat else d.toRat

/-- A decimal literal is read as the number nearest to its value. -/
theorem ofDecimalLiteral?_eq (cs : List Char) :
    ofDecimalLiteral? cs = (literalValue? cs).map ofRat := by
  have hsigned (negative : Bool) (d : Decimal) :
      signed negative d.toNumber = ofRat (if negative then -d.toRat else d.toRat) := by
    rw [signed, Decimal.toNumber_eq, apply_ite ofRat, ofRat_neg]
  unfold ofDecimalLiteral? literalValue?
  simp only [hsigned, Option.map_map, Function.comp_def]

/-- The exact value of a numeric text. -/
def exactValue? (s : String) : Option Rat := literalValue? (Text.trimChars s.toList)

theorem isNumericText_eq (s : String) : isNumericText s = (exactValue? s).isSome := by
  rw [isNumericText, ofDecimalLiteral?_eq, Option.isSome_map]
  rfl

/-- A numeric text is read as the number nearest to its value. -/
theorem ofText_eq {s : String} {q : Rat} (h : exactValue? s = some q) : ofText s = ofRat q := by
  have hne : Text.trimChars s.toList ≠ [] := by
    intro hnil
    rw [exactValue?, hnil] at h
    cases h
  have hliteral : ofDecimalLiteral? (Text.trimChars s.toList) = some (ofRat q) := by
    rw [ofDecimalLiteral?_eq]
    exact congrArg (Option.map ofRat) h
  have hchoice (x : Number) (y : Option Number) : (some x <|> y).getD nan = x := rfl
  unfold ofText
  dsimp only
  rw [if_neg (by simpa using hne), hliteral, hchoice]

/-! ### Integer parts -/

/-- A number that is an integer of 64 bits. -/
def IsLong (x : Number) : Prop := ∃ n : Int, x = finite n ∧ -2 ^ 63 ≤ n ∧ n ≤ 2 ^ 63 - 1

theorem tdiv_of_nonneg {r : Rat} (h : 0 ≤ r) : r.num.tdiv r.den = ⌊r⌋ := by
  rw [Int.tdiv_eq_ediv_of_nonneg (Rat.num_nonneg.2 h), Rat.floor_def']

theorem tdiv_neg {r : Rat} (h : 0 ≤ r) : (-r).num.tdiv (-r).den = -⌊r⌋ := by
  rw [Rat.num_neg_eq_neg_num, Rat.den_neg_eq_den, Int.neg_tdiv, tdiv_of_nonneg h]

theorem isLong_finite_intCast_iff {n : Int} :
    (finite n).IsLong ↔ -2 ^ 63 ≤ n ∧ n ≤ 2 ^ 63 - 1 := by
  constructor
  · rintro ⟨m, heq, hm⟩
    rwa [Int.cast_inj.1 (Number.finite.inj heq)]
  · exact fun h => ⟨n, rfl, h⟩

/-- A rounded magnitude has its integer part within `2 ^ 63` where it is itself: beyond `2 ^ 53`
there are integers only. -/
theorem floor_rounded_le_iff (q : Rat) : ⌊rounded q⌋ ≤ 2 ^ 63 ↔ rounded q ≤ 2 ^ (63 : Int) := by
  rw [zpow_ofNat]
  by_cases hlarge : (2 : Rat) ^ (53 : Int) ≤ rounded q
  · obtain ⟨n, hn⟩ := exists_natCast_eq_rounded hlarge
    -- the magnitude is its own integer part
    rw [hn, Int.floor_natCast]
    exact_mod_cast Iff.rfl
  · have hsmall : rounded q < 2 ^ 53 := by
      rw [← zpow_ofNat]
      exact lt_of_not_ge hlarge
    refine iff_of_true ?_ ?_
    · rw [Int.floor_le_iff]
      push_cast
      linarith
    · linarith

/-- The integer part of the number nearest to a rational is an integer of 64 bits where the rounded
magnitude is: below `2 ^ 63`, which only a negative number may reach. -/
theorem isLong_trunc_ofRat_iff_rounded (q : Rat) : (ofRat q).trunc.IsLong ↔
    if q < 0 then rounded q ≤ 2 ^ (63 : Int) else rounded q < 2 ^ (63 : Int) := by
  rw [ofRat_eq]
  split
  · rename_i hlarge
    -- an infinity is no integer, and the magnitude that gives it is far out of range
    have hmore : (2 : Rat) ^ (63 : Int) < rounded q :=
      (two_zpow_lt_two_zpow_iff.2 (by decide)).trans_le hlarge
    refine iff_of_false ?_ ?_
    · rintro ⟨n, heq, -⟩
      cases heq
    · split
      · exact not_le_of_gt hmore
      · exact not_lt_of_gt hmore
  · rw [sign_mul_rounded]
    split
    · rw [trunc, tdiv_neg (rounded_nonneg q), isLong_finite_intCast_iff, ← floor_rounded_le_iff]
      have hnonneg := Int.floor_nonneg.2 (rounded_nonneg q)
      omega
    · have hbelow : rounded q < 2 ^ (63 : Int) ↔ ⌊rounded q⌋ < 2 ^ 63 := by
        rw [Int.floor_lt, zpow_ofNat]
        norm_num
      rw [trunc, tdiv_of_nonneg (rounded_nonneg q), isLong_finite_intCast_iff, hbelow]
      have hnonneg := Int.floor_nonneg.2 (rounded_nonneg q)
      omega

/-- The integer part of the number nearest to a rational is an integer of 64 bits where the rational
is not rounded beyond the limits of these. -/
theorem isLong_trunc_ofRat_iff (q : Rat) : (ofRat q).trunc.IsLong ↔
    -(2 ^ 63 + 2 ^ 10) ≤ q ∧ q < 2 ^ 63 - 2 ^ 9 := by
  have hreaches := two_zpow_le_rounded_iff (q := q) (k := 63) (by decide)
  have hexceeds := two_zpow_lt_rounded_iff (q := q) (k := 63) (by decide)
  rw [isLong_trunc_ofRat_iff_rounded]
  norm_num only at hreaches hexceeds ⊢
  split
  · rename_i hneg
    rw [abs_of_neg hneg] at hexceeds
    rw [← not_lt, hexceeds]
    constructor
    · intro h
      constructor <;> linarith
    · intro h
      linarith
  · rename_i hneg
    rw [abs_of_nonneg (le_of_not_gt hneg)] at hreaches
    rw [← not_le, hreaches]
    constructor
    · intro h
      constructor <;> linarith
    · intro h
      linarith

end Number

/-! ### Typed entries -/

/-- The number that a text is read as. -/
def MetaReading.number? : MetaReading → Option Number
  | .number x => some x
  | _ => none

theorem MetaReading.number?_ofText (zone : TimeZone) (s : String) :
    (MetaReading.ofText zone s).number? = (Number.exactValue? s).map Number.ofRat := by
  unfold MetaReading.ofText
  rw [Number.isNumericText_eq]
  cases hexact : Number.exactValue? s with
  | none =>
    rw [Option.isSome_none, if_neg Bool.false_ne_true, Option.map_none]
    split
    · rfl
    · split <;> rfl
  | some q =>
    rw [Option.isSome_some, if_pos rfl, Number.ofText_eq hexact]
    rfl

theorem MetaEntryValue.get?_toValue_double (e : MetaEntryValue) :
    e.toValue.get? "double" = e.reading.number?.map .number := by
  obtain ⟨text, isTrue, reading⟩ := e
  cases reading <;> rfl

theorem MetaEntryValue.get?_toValue_long (e : MetaEntryValue) :
    e.toValue.get? "long" = e.reading.number?.map fun x => .number x.trunc := by
  obtain ⟨text, isTrue, reading⟩ := e
  cases reading <;> rfl

/-- The typed entry of a value that can be stored has two numbers where its text has an exact value:
the nearest number to that, and the integer part of this. The one is finite and the other is an
integer of 64 bits exactly up to half-way beyond the limits of each. -/
theorem numeric_fields_fit_iff (zone : TimeZone) {v : Value}
    (h : v = .null ∨ ∃ x : Scalar, v = x.toValue) :
    MetaEntryValue.ofValue (some v) zone = .ok (metaEntry zone v) ∧
      (metaEntry zone v).toValue.get? "double" =
        (Number.exactValue? (metaEntry zone v).text).map (fun q => .number (.ofRat q)) ∧
      (metaEntry zone v).toValue.get? "long" =
        (Number.exactValue? (metaEntry zone v).text).map (fun q => .number (Number.ofRat q).trunc) ∧
      ∀ q, Number.exactValue? (metaEntry zone v).text = some q →
        ((Number.ofRat q).isFinite = true ↔ |q| < 2 ^ (1024 : Int) - 2 ^ (970 : Int)) ∧
        ((Number.ofRat q).trunc.IsLong ↔ -(2 ^ 63 + 2 ^ 10) ≤ q ∧ q < 2 ^ 63 - 2 ^ 9) := by
  have hreading : (metaEntry zone v).reading.number? =
      (Number.exactValue? (metaEntry zone v).text).map Number.ofRat :=
    MetaReading.number?_ofText zone _
  refine ⟨ofValue_eq_metaEntry zone h, ?_, ?_, fun q _ =>
    ⟨Number.isFinite_ofRat_iff q, Number.isLong_trunc_ofRat_iff q⟩⟩
  · rw [MetaEntryValue.get?_toValue_double, hreading, Option.map_map, Function.comp_def]
  · rw [MetaEntryValue.get?_toValue_long, hreading, Option.map_map, Function.comp_def]

/-- The largest integer of 64 bits is read as a number beyond it. -/
theorem numeric_fields_fit_iff_limit :
    (Value.text "9223372036854775807" = .null ∨
        ∃ x : Scalar, Value.text "9223372036854775807" = x.toValue) ∧
      ∃ x : Number, (metaEntry .universal (.text "9223372036854775807")).toValue.get? "long" =
          some (.number x) ∧ ¬x.IsLong := by
  have hstored : Value.text "9223372036854775807" = .null ∨
      ∃ x : Scalar, Value.text "9223372036854775807" = x.toValue :=
    .inr ⟨.text "9223372036854775807", rfl⟩
  have hexact : Number.exactValue? (metaEntry .universal (.text "9223372036854775807")).text =
      some 9223372036854775807 := by decide +kernel
  obtain ⟨-, -, hlong, hfit⟩ := numeric_fields_fit_iff .universal hstored
  rw [hexact] at hlong
  refine ⟨hstored, _, hlong, fun hfits => ?_⟩
  have hrange := ((hfit _ hexact).2.1 hfits).2
  norm_num at hrange

/-- A numeric text beyond all numbers is indexed with infinities. -/
theorem numeric_fields_infinite :
    ∃ e : MetaEntryValue, MetaEntryValue.ofValue (some (.text "1e400")) = .ok e ∧
      ∃ double long : Number, e.toValue.get? "double" = some (.number double) ∧
        e.toValue.get? "long" = some (.number long) ∧
        double.isFinite = false ∧ ¬long.IsLong := by
  have hreading : (MetaEntryValue.ofText .universal "1e400").reading =
      .number (.infinite false) := by
    decide +kernel
  refine ⟨.ofText .universal "1e400", rfl, .infinite false, .infinite false, ?_, ?_, rfl, nofun⟩
  · rw [MetaEntryValue.get?_toValue_double, hreading]
    rfl
  · rw [MetaEntryValue.get?_toValue_long, hreading]
    rfl

end CommentSearch
