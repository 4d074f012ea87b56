import Mathlib.Data.Nat.Prime.Basic
import Mathlib.Data.Rat.Lemmas
import CommentSearch.Proofs.EmptyIdentifiers

/-!
# Numbers that are printed and read

The text of a number is a decimal literal, in each of its four layouts (`ofChars?_layout`). Its
value is the decimal with the fewest digits that is found for the number, and that is rounded to the
number again (`toNumber_shortest`). So a number is read back from its text (`ofText_toText`).

A number is one of the 64-bit format where rounding leaves it as it is, which is the hypothesis
`ofRat q = finite q`.
-/

namespace CommentSearch

namespace Decimal

/-! ### Literals of digits, a point and an exponent -/

/-- An exponent is empty or starts with its letter, neither a digit nor a point. -/
theorem head_of_exponentOf? {cs : List Char} {e : Int} (h : exponentOf? cs = some e) :
    cs = [] ∨ ∃ c rest, cs = c :: rest ∧ (c = 'e' ∨ c = 'E') := by
  cases cs with
  | nil => exact .inl rfl
  | cons c rest =>
    by_cases hletter : c = 'e' ∨ c = 'E'
    · exact .inr ⟨c, rest, rfl, hletter⟩
    · rw [exponentOf?, if_neg hletter] at h
      cases h

section Literals

variable {cs whole places rest : List Char} {e : Int}

/-- A literal is what its digits and its exponent make together. -/
theorem ofChars?_of_scanDigits {d : Decimal} (hscan : scanDigits cs = some (d, rest))
    (h : exponentOf? rest = some e) : ofChars? cs = some ⟨d.mantissa, d.exponent + e⟩ := by
  unfold ofChars?
  rw [hscan, Option.bind_eq_bind, Option.bind_some]
  dsimp only
  rw [h]
  rfl

/-- The run of digits before an exponent ends with it. -/
theorem takeWhile_isDigit_append (hwhole : IsDigits whole) (h : exponentOf? rest = some e) :
    (whole ++ rest).takeWhile Char.isDigit = whole := by
  have hend : rest.takeWhile Char.isDigit = [] := by
    obtain rfl | ⟨c, rest, rfl, rfl | rfl⟩ := head_of_exponentOf? h <;> rfl
  rw [List.takeWhile_append_of_pos hwhole, hend, List.append_nil]

theorem dropWhile_isDigit_append (hwhole : IsDigits whole) (h : exponentOf? rest = some e) :
    (whole ++ rest).dropWhile Char.isDigit = rest := by
  have hend : rest.dropWhile Char.isDigit = rest := by
    obtain rfl | ⟨c, rest, rfl, rfl | rfl⟩ := head_of_exponentOf? h <;> rfl
  rw [List.dropWhile_append_of_pos hwhole, hend]

/-- Digits with an exponent are the literal of their value. -/
theorem ofChars?_whole (hne : whole ≠ []) (hwhole : IsDigits whole)
    (h : exponentOf? rest = some e) :
    ofChars? (whole ++ rest) = some ⟨digitsValue whole, e⟩ := by
  have htake := takeWhile_isDigit_append hwhole h
  have hdrop := dropWhile_isDigit_append hwhole h
  have hscan : scanDigits (whole ++ rest) = some (⟨digitsValue whole, 0⟩, rest) := by
    unfold scanDigits
    rw [htake, hdrop]
    -- what follows the digits does not start with a point
    obtain rfl | ⟨c, rest, rfl, rfl | rfl⟩ := head_of_exponentOf? h <;>
      exact if_neg (by simpa using hne)
  rw [ofChars?_of_scanDigits hscan h, Int.zero_add]

/-- Digits with a point among them and an exponent are the literal of their value without the point,
which the exponent makes up for. -/
theorem ofChars?_point (hne : whole ≠ [] ∨ places ≠ []) (hwhole : IsDigits whole)
    (hplaces : IsDigits places) (h : exponentOf? rest = some e) :
    ofChars? (whole ++ '.' :: (places ++ rest)) =
      some ⟨digitsValue (whole ++ places), e - places.length⟩ := by
  have htake : (whole ++ '.' :: (places ++ rest)).takeWhile Char.isDigit = whole := by
    rw [List.takeWhile_append_of_pos hwhole, List.takeWhile_cons_of_neg (by decide),
      List.append_nil]
  have hdrop : (whole ++ '.' :: (places ++ rest)).dropWhile Char.isDigit =
      '.' :: (places ++ rest) := by
    rw [List.dropWhile_append_of_pos hwhole, List.dropWhile_cons_of_neg (by decide)]
  have hplacesTake := takeWhile_isDigit_append hplaces h
  have hplacesDrop := dropWhile_isDigit_append hplaces h
  have hscan : scanDigits (whole ++ '.' :: (places ++ rest)) =
      some (⟨digitsValue (whole ++ places), -(places.length : Int)⟩, rest) := by
    have hempty : ¬(whole.isEmpty && places.isEmpty) = true := by
      simpa [Decidable.imp_iff_not_or] using hne
    unfold scanDigits
    rw [htake, hdrop]
    simp only [hplacesTake, hplacesDrop]
    exact if_neg hempty
  have hexponent : -(places.length : Int) + e = e - places.length := by omega
  rw [ofChars?_of_scanDigits hscan h, hexponent]

/-- Digits with a point among them are a literal of as many places as are behind the point. -/
theorem ofChars?_point_of_isDigits (hne : whole ≠ []) (hwhole : IsDigits whole)
    (hplaces : IsDigits places) : ofChars? (whole ++ '.' :: places) =
      some ⟨digitsValue (whole ++ places), -(places.length : Int)⟩ := by
  have hread := @ofChars?_point whole places [] 0 (.inl hne) hwhole hplaces rfl
  rwa [List.append_nil, Int.zero_sub] at hread

end Literals

/-- An unsigned literal starts with neither sign. -/
theorem scanSign_of_ofChars? {cs : List Char} {d : Decimal} (h : ofChars? cs = some d) :
    scanSign cs = (false, cs) := by
  unfold scanSign
  split
  · cases h
  · cases h
  · rfl

end Decimal

/-! ### Digits -/

theorem isDigits_toDigits (n : Nat) : IsDigits (Nat.toDigits 10 n) :=
  fun _ hc => Nat.isDigit_of_mem_toDigits (by decide) (by decide) hc

theorem isDigits_zeros (k : Nat) : IsDigits (List.replicate k '0') := by
  intro c hc
  rw [List.eq_of_mem_replicate hc]
  rfl

theorem isDigits_append {cs ds : List Char} (hcs : IsDigits cs) (hds : IsDigits ds) :
    IsDigits (cs ++ ds) :=
  List.forall_mem_append.2 ⟨hcs, hds⟩

/-- Each zero at the end multiplies the value by ten. -/
theorem digitsValue_append_zeros (digits : List Char) (k : Nat) :
    Decimal.digitsValue (digits ++ List.replicate k '0') = Decimal.digitsValue digits * 10 ^ k := by
  induction digits with
  | nil =>
    have hzeros := digitsValue_zeros_append k []
    rw [List.append_nil] at hzeros
    rw [List.nil_append, hzeros]
    exact (Nat.zero_mul _).symm
  | cons c digits ih =>
    rw [List.cons_append, digitsValue_cons, ih, digitsValue_cons, List.length_append,
      List.length_replicate, Nat.pow_add]
    ring

namespace Number

theorem exponentOf?_exponentChars (e : Int) : Decimal.exponentOf? (exponentChars e) = some e := by
  have hdigits : (Nat.toDigits 10 e.natAbs).all Char.isDigit = true :=
    List.all_eq_true.2 (isDigits_toDigits _)
  have hempty : (Nat.toDigits 10 e.natAbs).isEmpty = false := by simp
  have hscan : Decimal.scanSign ((if e < 0 then '-' else '+') :: Nat.toDigits 10 e.natAbs) =
      (decide (e < 0), Nat.toDigits 10 e.natAbs) := by
    by_cases hneg : e < 0
    · rw [if_pos hneg, decide_eq_true hneg]
      rfl
    · rw [if_neg hneg, decide_eq_false hneg]
      rfl
  unfold exponentChars Decimal.exponentOf?
  dsimp only
  rw [if_pos (.inl rfl), hscan]
  dsimp only
  rw [hdigits, hempty, digitsValue_toDigits, Bool.not_false, Bool.and_self, if_pos rfl]
  by_cases hneg : e < 0
  · have habs : -(e.natAbs : Int) = e := by omega
    rw [decide_eq_true hneg, if_pos rfl, habs]
  · have habs : (e.natAbs : Int) = e := by omega
    rw [decide_eq_false hneg, if_neg Bool.false_ne_true, habs]

/-- Digits are the significant ones and zeros at the end. -/
theorem exists_significant_append (digits : List Char) :
    ∃ k, digits = significant digits ++ List.replicate k '0' := by
  let zeros := digits.reverse.takeWhile fun c => decide (c = '0')
  have hzeros : zeros = List.replicate zeros.length '0' :=
    List.eq_replicate_of_mem fun c hc => of_decide_eq_true
      (List.mem_takeWhile_imp (p := fun c => decide (c = '0')) hc)
  refine ⟨zeros.length, ?_⟩
  calc digits = (zeros ++ digits.reverse.dropWhile fun c => decide (c = '0')).reverse := by
        rw [List.takeWhile_append_dropWhile, List.reverse_reverse]
    _ = significant digits ++ zeros.reverse := List.reverse_append
    _ = significant digits ++ List.replicate zeros.length '0' := by
        rw [← List.reverse_replicate, ← hzeros]

/-- Zeros that are not written are made up for by the place of the point. -/
theorem digitsValue_significant (digits : List Char) (e : Int) :
    (Decimal.digitsValue (significant digits) : Rat) *
        10 ^ (digits.length + e - (significant digits).length) =
      Decimal.digitsValue digits * 10 ^ e := by
  obtain ⟨k, hk⟩ := exists_significant_append digits
  have hvalue : Decimal.digitsValue digits =
      Decimal.digitsValue (significant digits) * 10 ^ k := by
    rw [← digitsValue_append_zeros, ← hk]
  have hlength : (digits.length : Int) + e - (significant digits).length = k + e := by
    have hsum : digits.length = (significant digits).length + k := by
      conv_lhs => rw [hk, List.length_append, List.length_replicate]
    omega
  rw [hvalue, hlength, zpow_add₀ (by decide), zpow_natCast]
  push_cast
  rw [mul_assoc]

theorem isDigits_significant {digits : List Char} (h : IsDigits digits) :
    IsDigits (significant digits) := by
  obtain ⟨k, hk⟩ := exists_significant_append digits
  rw [hk] at h
  exact (List.forall_mem_append.1 h).1

/-! ### Layouts -/

section Layout

variable {digits : List Char}

/-- In each layout the digits `0.d₁d₂…` times ten to the power `point` are a literal of that
value. -/
theorem ofChars?_layout (hne : digits ≠ []) (h : IsDigits digits) (point : Int) :
    ∃ d, Decimal.ofChars? (layout digits point) = some d ∧
      d.toRat = Decimal.digitsValue digits * 10 ^ (point - digits.length) := by
  unfold layout
  split
  · -- zeros after the digits
    rename_i hpoint
    have hdigits := isDigits_append h (isDigits_zeros (point.toNat - digits.length))
    refine ⟨_, Decimal.ofChars?_of_isDigits (List.append_ne_nil_of_left_ne_nil hne _) hdigits, ?_⟩
    have hzeros : point - digits.length = (point.toNat - digits.length : Nat) := by omega
    rw [Decimal.toRat_eq, digitsValue_append_zeros, hzeros, zpow_natCast]
    push_cast
    exact mul_one _
  split
  · -- the point among the digits
    rename_i hlong hpoint
    have hwhole : digits.take point.toNat ≠ [] := by
      rw [Ne, List.take_eq_nil_iff, not_or]
      exact ⟨by omega, hne⟩
    have hread := Decimal.ofChars?_point_of_isDigits hwhole
      (fun c hc => h c (List.mem_of_mem_take hc))
      (fun c (hc : c ∈ digits.drop point.toNat) => h c (List.mem_of_mem_drop hc))
    rw [List.take_append_drop, List.length_drop] at hread
    refine ⟨_, hread, ?_⟩
    have hplaces : -((digits.length - point.toNat : Nat) : Int) = point - digits.length := by omega
    rw [Decimal.toRat_eq, hplaces]
  split
  · -- zeros between the point and the digits
    rename_i hlong hmiddle hpoint
    have hread := Decimal.ofChars?_point_of_isDigits (List.cons_ne_nil '0' []) (isDigits_zeros 1)
      (isDigits_append (isDigits_zeros (-point).toNat) h)
    have hvalue : Decimal.digitsValue (['0'] ++ (List.replicate (-point).toNat '0' ++ digits)) =
        Decimal.digitsValue digits :=
      digitsValue_zeros_append ((-point).toNat + 1) digits
    rw [hvalue, List.length_append, List.length_replicate] at hread
    refine ⟨_, hread, ?_⟩
    have hplaces : -(((-point).toNat + digits.length : Nat) : Int) = point - digits.length := by
      omega
    rw [Decimal.toRat_eq, hplaces]
  · -- one digit before the point, and an exponent
    have hexponent := exponentOf?_exponentChars (point - 1)
    cases digits with
    | nil => exact absurd rfl hne
    | cons d ds =>
      obtain ⟨hd, hds⟩ := List.forall_mem_cons.1 h
      have hfirst : IsDigits [d] := List.forall_mem_singleton.2 hd
      cases ds with
      | nil =>
        refine ⟨_, Decimal.ofChars?_whole (List.cons_ne_nil _ _) hfirst hexponent, ?_⟩
        rw [Decimal.toRat_eq]
        rfl
      | cons c cs =>
        refine ⟨_, Decimal.ofChars?_point (.inl (List.cons_ne_nil _ _)) hfirst hds hexponent, ?_⟩
        have hlength : point - 1 - ((c :: cs).length : Int) = point - (d :: c :: cs).length := by
          rw [List.length_cons (a := d)]
          omega
        rw [Decimal.toRat_eq, hlength]
        rfl

theorem isBlank_exponentChars (e : Int) : ∀ c ∈ exponentChars e, Text.isBlank c = false := by
  have hsign : Text.isBlank (if e < 0 then '-' else '+') = false := by
    split <;> decide
  unfold exponentChars
  rw [List.forall_mem_cons, List.forall_mem_cons]
  exact ⟨by decide, hsign, isBlank_of_isDigits (isDigits_toDigits _)⟩

/-- There is no blank in a layout. -/
theorem isBlank_layout (h : IsDigits digits) (point : Int) :
    ∀ c ∈ layout digits point, Text.isBlank c = false := by
  have hplain := isBlank_of_isDigits h
  have hzeros (k : Nat) := isBlank_of_isDigits (isDigits_zeros k)
  have hexponent := isBlank_exponentChars (point - 1)
  unfold layout
  split
  · exact List.forall_mem_append.2 ⟨hplain, hzeros _⟩
  split
  · rw [List.forall_mem_append, List.forall_mem_cons]
    exact ⟨fun c hc => hplain c (List.mem_of_mem_take hc), by decide,
      fun c hc => hplain c (List.mem_of_mem_drop hc)⟩
  split
  · rw [List.forall_mem_append, List.forall_mem_cons, List.forall_mem_cons]
    exact ⟨⟨by decide, by decide, hzeros _⟩, hplain⟩
  split
  · exact List.forall_mem_nil _
  · rw [List.forall_mem_cons] at hplain ⊢
    exact ⟨hplain.1, hexponent⟩
  · rw [List.forall_mem_cons] at hplain
    rw [List.forall_mem_append, List.forall_mem_cons, List.forall_mem_cons]
    exact ⟨⟨hplain.1, by decide, hplain.2⟩, hexponent⟩

end Layout

/-! ### The text of a positive number -/

section Positive

variable {q : Rat}

theorem significant_toDigits_ne_nil (hq : 0 < q) :
    significant (Nat.toDigits 10 (shortest q).mantissa) ≠ [] := by
  apply significant_ne_nil
  rw [digitsValue_toDigits]
  exact mantissa_shortest_ne_zero hq

/-- The text of a positive rational is a literal of the value of the decimal found for it. -/
theorem ofChars?_positiveChars (hq : 0 < q) :
    ∃ d, Decimal.ofChars? (positiveChars q) = some d ∧ d.toRat = (shortest q).toRat := by
  obtain ⟨d, hd, hvalue⟩ := ofChars?_layout (significant_toDigits_ne_nil hq)
    (isDigits_significant (isDigits_toDigits (shortest q).mantissa))
    ((Nat.toDigits 10 (shortest q).mantissa).length + (shortest q).exponent)
  refine ⟨d, hd, ?_⟩
  rw [hvalue, digitsValue_significant, digitsValue_toDigits, Decimal.toRat_eq]

theorem isBlank_positiveChars (q : Rat) : ∀ c ∈ positiveChars q, Text.isBlank c = false :=
  isBlank_layout (isDigits_significant (isDigits_toDigits _)) _

/-! ### The decimal found for a number -/

/-- The denominator of a number is a power of two. -/
theorem exists_den_eq_two_pow (h : ofRat q = finite q) : ∃ k, q.den = 2 ^ k := by
  have hround : q = q.num.sign * rounded q := by
    have hfinite : (ofRat q).isFinite = true := by rw [h]; rfl
    exact finite.inj (h.symm.trans (ofRat_of_isFinite hfinite))
  -- all that a number is divided by is a power of two, of its last place
  have hquotient : q = ((q.num.sign * significand q.num.natAbs q.den *
      2 ^ (lastPlace q.num.natAbs q.den).toNat : Int) : Rat) /
        ((2 ^ (-lastPlace q.num.natAbs q.den).toNat : Int) : Rat) := by
    rw [rounded, two_zpow_eq] at hround
    push_cast
    rw [mul_assoc, mul_div_assoc, mul_div_assoc]
    exact hround
  have hdvd : (q.den : Int) ∣ 2 ^ (-lastPlace q.num.natAbs q.den).toNat := by
    have hden := Rat.den_dvd (q.num.sign * significand q.num.natAbs q.den *
      2 ^ (lastPlace q.num.natAbs q.den).toNat) (2 ^ (-lastPlace q.num.natAbs q.den).toNat)
    rwa [Rat.divInt_eq_div, ← hquotient] at hden
  obtain ⟨k, -, hk⟩ := (Nat.dvd_prime_pow Nat.prime_two).1 (by exact_mod_cast hdvd)
  exact ⟨k, hk⟩

/-- A positive rational with a power of two as its denominator is the decimal of all its places. -/
theorem toRat_allPlaces (hq : 0 < q) {k : Nat} (hk : q.den = 2 ^ k) : (allPlaces q).toRat = q := by
  have hplaces : q.den.log2 = k := by rw [hk, Nat.log2_two_pow]
  have hnum : ((q.num.toNat : Nat) : Rat) = q.num := by
    exact_mod_cast Int.toNat_of_nonneg (Rat.num_pos.2 hq).le
  have hten : (10 : Rat) ^ k = 2 ^ k * 5 ^ k := by
    rw [← mul_pow]
    norm_num
  have hscaled : q * 10 ^ k = ((q.num.toNat * 5 ^ k : Nat) : Rat) := by
    have hden : q * 2 ^ k = q.num := by
      have hmul := Rat.mul_den_eq_num q
      rw [hk] at hmul
      exact_mod_cast hmul
    rw [hten, ← mul_assoc, hden]
    push_cast
    rw [hnum]
  have hmantissa : (allPlaces q).mantissa = q.num.toNat * 5 ^ k := by
    unfold allPlaces
    dsimp only
    rw [hplaces, hscaled, ← Int.cast_natCast, Rat.floor_intCast, Int.toNat_natCast]
  have hexponent : (allPlaces q).exponent = -(k : Int) := by
    unfold allPlaces
    dsimp only
    rw [hplaces]
  rw [Decimal.toRat_eq, hmantissa, hexponent, ← hscaled, zpow_neg, zpow_natCast]
  exact mul_inv_cancel_right₀ (pow_ne_zero k (by decide)) q

/-- The decimal found for a positive number is rounded to it. -/
theorem toNumber_shortest (hq : 0 < q) (h : ofRat q = finite q) :
    (shortest q).toNumber = finite q := by
  unfold shortest
  cases hfound : (List.range 17).findSome? fun i => decimalOf? q (i + 1) with
  | none =>
    -- where no short decimal is found all places are taken, and none is lost
    obtain ⟨k, hk⟩ := exists_den_eq_two_pow h
    rw [Option.getD_none, Decimal.toNumber_eq, toRat_allPlaces hq hk, h]
  | some d =>
    obtain ⟨i, -, hd⟩ := List.exists_of_findSome?_eq_some hfound
    exact toNumber_of_decimalOf? hd

end Positive

/-! ### Reading back -/

/-- The text of a number has an exact value, which is rounded to the number. -/
theorem exists_exactValue?_toText {q : Rat} (h : ofRat q = finite q) :
    ∃ r, exactValue? (finite q).toText = some r ∧ ofRat r = finite q := by
  unfold exactValue? toText
  rw [String.toList_ofList, toChars]
  rcases lt_trichotomy q 0 with hneg | rfl | hpos
  · -- a minus before the text of the opposite number
    have hopposite : ofRat (-q) = finite (-q) := by rw [ofRat_neg, h, neg]
    have hpos : 0 < -q := neg_pos.2 hneg
    obtain ⟨d, hd, hvalue⟩ := ofChars?_positiveChars hpos
    have hscan : Decimal.scanSign ('-' :: positiveChars (-q)) = (true, positiveChars (-q)) := rfl
    have hplain : ∀ c ∈ '-' :: positiveChars (-q), Text.isBlank c = false :=
      List.forall_mem_cons.2 ⟨by decide, isBlank_positiveChars _⟩
    rw [if_neg hneg.ne, if_pos hneg, trimChars_eq_self (List.cons_ne_nil _ _) hplain,
      literalValue?, hscan]
    dsimp only
    rw [hd, Option.map_some, if_pos rfl]
    refine ⟨_, rfl, ?_⟩
    rw [ofRat_neg, hvalue, ← Decimal.toNumber_eq, toNumber_shortest hpos hopposite, neg, neg_neg]
  · exact ⟨0, by decide +kernel, h⟩
  · obtain ⟨d, hd, hvalue⟩ := ofChars?_positiveChars hpos
    rw [if_neg hpos.ne', if_neg hpos.not_gt,
      trimChars_eq_self (positiveChars_ne_nil hpos) (isBlank_positiveChars q), literalValue?,
      Decimal.scanSign_of_ofChars? hd]
    dsimp only
    rw [hd, Option.map_some, if_neg Bool.false_ne_true]
    refine ⟨_, rfl, ?_⟩
    rw [hvalue, ← Decimal.toNumber_eq, toNumber_shortest hpos h]

/-- A number is read back from its text. -/
theorem ofText_toText {q : Rat} (h : ofRat q = finite q) : ofText (finite q).toText = finite q := by
  obtain ⟨r, hexact, hround⟩ := exists_exactValue?_toText h
  rw [ofText_eq hexact, hround]

end Number

end CommentSearch
