import CommentSearch.Number.Decimal
import CommentSearch.Proofs.ExactNumbers
import Mathlib.Algebra.Order.Field.Basic
import Mathlib.Algebra.Order.Field.Power
import Mathlib.Tactic.Linarith

/-!
# Rounding at powers of two

A rational is rounded to a multiple of the last place that is kept of it, and of two such multiples
that are equally near to the even one. Half-way from a power of two to its neighbours are therefore
the limits from which on a rational is rounded to the power or beyond it
(`two_zpow_le_rounded_iff`, `two_zpow_lt_rounded_iff`).

A rational is rounded to an infinity from such a limit on (`isFinite_ofRat_iff`), and decimals far
out of range are rounded as all others are (`toNumber_eq`).
-/

namespace CommentSearch

/-! ### The nearest natural number -/

/-- A quotient is rounded to a natural number or beyond it from half a unit before the number on,
the half itself included where the number is even. -/
theorem le_nearestEven_iff {n d t : Nat} (hd : 0 < d) : t ≤ nearestEven n d ↔
    2 * (t * d) < 2 * n + d ∨ 2 * (t * d) = 2 * n + d ∧ t % 2 = 0 := by
  have hdiv := Nat.div_add_mod n d
  have hmod := Nat.mod_lt n hd
  rw [Nat.mul_comm] at hdiv
  unfold nearestEven
  dsimp only
  generalize n / d = q at *
  generalize n % d = r at *
  rcases Nat.lt_trichotomy t (q + 1) with hlt | rfl | hgt
  · have hmul : t * d ≤ q * d := Nat.mul_le_mul_right d (by omega)
    split_ifs <;> omega
  · rw [Nat.add_mul, Nat.one_mul]
    split_ifs <;> omega
  · have hmul : (q + 2) * d ≤ t * d := Nat.mul_le_mul_right d (by omega)
    rw [Nat.add_mul] at hmul
    split_ifs <;> omega

namespace Number

/-! ### The last place -/

theorem two_zpow_eq (k : Int) : (2 : Rat) ^ k = 2 ^ k.toNat / 2 ^ (-k).toNat := by
  rcases Int.le_total 0 k with h | h
  · obtain ⟨n, rfl⟩ := Int.eq_ofNat_of_zero_le h
    simp
  · obtain ⟨n, hn⟩ := Int.eq_ofNat_of_zero_le (Int.neg_nonneg_of_nonpos h)
    obtain rfl : k = -n := by omega
    simp

theorem two_zpow_pos (k : Int) : (0 : Rat) < 2 ^ k := zpow_pos two_pos k

theorem two_zpow_le {j k : Int} (h : j ≤ k) : (2 : Rat) ^ j ≤ 2 ^ k :=
  zpow_le_zpow_right₀ one_le_two h

theorem two_zpow_lt_two_zpow_iff {j k : Int} : (2 : Rat) ^ j < 2 ^ k ↔ j < k :=
  zpow_lt_zpow_iff_right₀ one_lt_two

/-- A quotient of natural numbers lies between the powers of two next to that of the difference of
their lengths. -/
theorem log2_bounds {n d : Nat} (hn : 0 < n) (hd : 0 < d) :
    (2 : Rat) ^ ((n.log2 : Int) - d.log2 - 1) ≤ n / d ∧
      (n : Rat) / d < 2 ^ ((n.log2 : Int) - d.log2 + 1) := by
  have hdpos : (0 : Rat) < d := Nat.cast_pos.2 hd
  have hbounds {m : Nat} (hm : 0 < m) :
      (2 : Rat) ^ (m.log2 : Int) ≤ m ∧ (m : Rat) < 2 ^ ((m.log2 : Int) + 1) := by
    rw [← Int.natCast_succ, zpow_natCast, zpow_natCast]
    exact ⟨by exact_mod_cast Nat.log2_self_le (Nat.ne_of_gt hm),
      by exact_mod_cast Nat.lt_log2_self⟩
  obtain ⟨hnlow, hnhigh⟩ := hbounds hn
  obtain ⟨hdlow, hdhigh⟩ := hbounds hd
  constructor
  · rw [le_div_iff₀ hdpos]
    calc (2 : Rat) ^ ((n.log2 : Int) - d.log2 - 1) * d
        ≤ 2 ^ ((n.log2 : Int) - d.log2 - 1) * 2 ^ ((d.log2 : Int) + 1) :=
          mul_le_mul_of_nonneg_left hdhigh.le (two_zpow_pos _).le
      _ = 2 ^ (n.log2 : Int) := by
          rw [← zpow_add₀ two_ne_zero]
          congr 1
          omega
      _ ≤ n := hnlow
  · rw [div_lt_iff₀ hdpos]
    calc (n : Rat) < 2 ^ ((n.log2 : Int) + 1) := hnhigh
      _ = 2 ^ ((n.log2 : Int) - d.log2 + 1) * 2 ^ (d.log2 : Int) := by
          rw [← zpow_add₀ two_ne_zero]
          congr 1
          omega
      _ ≤ 2 ^ ((n.log2 : Int) - d.log2 + 1) * d :=
          mul_le_mul_of_nonneg_left hdlow (two_zpow_pos _).le

/-- The last place that is kept leaves 53 significant places, or is the finest there is. -/
theorem lastPlace_bounds {n d : Nat} (hn : 0 < n) (hd : 0 < d) :
    (n : Rat) / d < 2 ^ (lastPlace n d + 53) ∧
      ((2 : Rat) ^ (lastPlace n d + 52) ≤ n / d ∨ lastPlace n d = -1074) := by
  obtain ⟨hlow, hhigh⟩ := log2_bounds hn hd
  unfold lastPlace
  dsimp only
  generalize hguess : (n.log2 : Int) - d.log2 - 53 = guess
  have hfits : n * Nat.pow 2 (-guess).toNat < Nat.pow 2 53 * (d * Nat.pow 2 guess.toNat) ↔
      (n : Rat) / d < 2 ^ (guess + 53) := by
    have hpow (a b : Nat) : Nat.pow a b = a ^ b := rfl
    rw [zpow_add₀ two_ne_zero, two_zpow_eq guess, hpow, hpow, hpow,
      div_lt_iff₀ (Nat.cast_pos.2 hd), div_mul_eq_mul_div, div_mul_eq_mul_div,
      lt_div_iff₀ (pow_pos two_pos _), ← Nat.cast_lt (α := Rat)]
    push_cast
    constructor <;> intro h <;> linarith
  split
  · rename_i h
    have hless := hfits.1 h
    refine ⟨lt_of_lt_of_le hless (two_zpow_le (by omega)), ?_⟩
    rcases Int.le_total (-1074) guess with hguess' | hguess'
    · rw [Int.max_eq_left hguess']
      exact .inl (le_trans (two_zpow_le (by omega)) hlow)
    · exact .inr (Int.max_eq_right hguess')
  · rename_i h
    have hmore := le_of_not_gt (mt hfits.2 h)
    refine ⟨lt_of_lt_of_le hhigh (two_zpow_le (by omega)), ?_⟩
    rcases Int.le_total (-1074) (guess + 1) with hguess' | hguess'
    · rw [Int.max_eq_left hguess']
      exact .inl (le_trans (two_zpow_le (by omega)) hmore)
    · exact .inr (Int.max_eq_right hguess')

/-! ### The rounded magnitude -/

/-- The absolute value that a rational is rounded to if that is in range. -/
def rounded (q : Rat) : Rat :=
  significand q.num.natAbs q.den * 2 ^ lastPlace q.num.natAbs q.den

theorem abs_eq_natAbs_div (q : Rat) : |q| = (q.num.natAbs : Rat) / q.den := by
  rw [Nat.cast_natAbs, Int.cast_abs]
  conv_lhs => rw [← Rat.num_div_den q]
  rw [abs_div, Nat.abs_cast]

theorem rounded_zero : rounded 0 = 0 := by
  have hzero : significand (0 : Rat).num.natAbs (0 : Rat).den = 0 := by decide +kernel
  rw [rounded, hzero, Nat.cast_zero, zero_mul]

/-- A rational is rounded to a multiple of its last place or beyond it from half a unit before it
on, the half itself included where the multiple is even. -/
theorem le_significand_iff (q : Rat) (t : Nat) : t ≤ significand q.num.natAbs q.den ↔
    ((t : Rat) - 1 / 2) * 2 ^ lastPlace q.num.natAbs q.den < |q| ∨
      ((t : Rat) - 1 / 2) * 2 ^ lastPlace q.num.natAbs q.den = |q| ∧ t % 2 = 0 := by
  have hden : (0 : Rat) < q.den := Nat.cast_pos.2 q.den_pos
  rw [abs_eq_natAbs_div, significand]
  generalize lastPlace q.num.natAbs q.den = place
  have hpow (a b : Nat) : Nat.pow a b = a ^ b := rfl
  have hpositive : 0 < q.den * 2 ^ place.toNat := Nat.mul_pos q.den_pos (Nat.two_pow_pos _)
  have hscale : (0 : Rat) < 2 ^ (-place).toNat := pow_pos two_pos _
  -- both sides say the same of the numerator after multiplication with the denominators
  have hless : 2 * (t * (q.den * 2 ^ place.toNat)) <
      2 * (q.num.natAbs * 2 ^ (-place).toNat) + q.den * 2 ^ place.toNat ↔
        ((t : Rat) - 1 / 2) * 2 ^ place < q.num.natAbs / q.den := by
    rw [two_zpow_eq, lt_div_iff₀ hden, mul_div_assoc', div_mul_eq_mul_div, div_lt_iff₀ hscale,
      ← Nat.cast_lt (α := Rat)]
    push_cast
    constructor <;> intro h <;> linarith
  have hequal : 2 * (t * (q.den * 2 ^ place.toNat)) =
      2 * (q.num.natAbs * 2 ^ (-place).toNat) + q.den * 2 ^ place.toNat ↔
        ((t : Rat) - 1 / 2) * 2 ^ place = q.num.natAbs / q.den := by
    rw [two_zpow_eq, eq_div_iff hden.ne', mul_div_assoc', div_mul_eq_mul_div, div_eq_iff hscale.ne',
      ← Nat.cast_inj (R := Rat)]
    push_cast
    constructor <;> intro h <;> linarith
  rw [hpow, hpow, le_nearestEven_iff hpositive, hless, hequal]

/-- The bounds of the last place of a rational other than zero. -/
theorem lastPlace_bounds_abs {q : Rat} (hq : q ≠ 0) :
    |q| < 2 ^ (lastPlace q.num.natAbs q.den + 53) ∧
      ((2 : Rat) ^ (lastPlace q.num.natAbs q.den + 52) ≤ |q| ∨
        lastPlace q.num.natAbs q.den = -1074) := by
  rw [abs_eq_natAbs_div]
  exact lastPlace_bounds (Int.natAbs_pos.2 (Rat.num_ne_zero.2 hq)) q.den_pos

/-! ### Powers of two as limits -/

section Limits

variable {q : Rat} {k : Int}

theorem rounded_le (hq : q ≠ 0) :
    rounded q ≤ 2 ^ (lastPlace q.num.natAbs q.den + 53) := by
  have hless := (lastPlace_bounds_abs hq).1
  have hpos := two_zpow_pos (lastPlace q.num.natAbs q.den)
  have hsplit := zpow_add₀ (two_ne_zero (α := Rat)) (lastPlace q.num.natAbs q.den) 53
  have hunits : significand q.num.natAbs q.den ≤ 2 ^ 53 := by
    by_contra hmore
    have hreach := (le_significand_iff q (2 ^ 53 + 1)).1 (by omega)
    push_cast at hreach
    rw [hsplit] at hless
    rcases hreach with hreach | ⟨hreach, -⟩
    · linarith
    · linarith
  have hcast : (significand q.num.natAbs q.den : Rat) ≤ 2 ^ 53 := by exact_mod_cast hunits
  rw [rounded, hsplit, mul_comm]
  exact mul_le_mul_of_nonneg_left (by exact_mod_cast hcast) hpos.le

theorem le_rounded (h : (2 : Rat) ^ (lastPlace q.num.natAbs q.den + 52) ≤ |q|) :
    2 ^ (lastPlace q.num.natAbs q.den + 52) ≤ rounded q := by
  have hpos := two_zpow_pos (lastPlace q.num.natAbs q.den)
  have hsplit := zpow_add₀ (two_ne_zero (α := Rat)) (lastPlace q.num.natAbs q.den) 52
  have hunits : 2 ^ 52 ≤ significand q.num.natAbs q.den := by
    refine (le_significand_iff q (2 ^ 52)).2 (.inl ?_)
    rw [hsplit] at h
    push_cast
    linarith
  have hcast : (2 : Rat) ^ 52 ≤ significand q.num.natAbs q.den := by exact_mod_cast hunits
  rw [rounded, hsplit, mul_comm]
  exact mul_le_mul_of_nonneg_right (by exact_mod_cast hcast) hpos.le

/-- A number of 53 significant places is reached or passed from half a unit of its last place before
it on, the half itself included where the number is even in these units. -/
theorem mul_two_zpow_le_rounded_iff {m : Nat} (hm : 2 ^ 52 < m ∧ m ≤ 2 ^ 53) (hk : -1074 ≤ k) :
    (m : Rat) * 2 ^ k ≤ rounded q ↔
      ((m : Rat) - 1 / 2) * 2 ^ k < |q| ∨ ((m : Rat) - 1 / 2) * 2 ^ k = |q| ∧ m % 2 = 0 := by
  have hpos := two_zpow_pos k
  have hsplit (places : Int) : (2 : Rat) ^ (k + places) = 2 ^ places * 2 ^ k := by
    rw [zpow_add₀ two_ne_zero, mul_comm]
  have hlow : (2 : Rat) ^ (k + 52) ≤ (m - 1 / 2) * 2 ^ k := by
    have hcast : (2 : Rat) ^ 52 + 1 ≤ m := by exact_mod_cast hm.1
    rw [hsplit]
    exact mul_le_mul_of_nonneg_right (by linarith [zpow_ofNat (2 : Rat) 52]) hpos.le
  have hhigh : (m : Rat) * 2 ^ k ≤ 2 ^ (k + 53) := by
    have hcast : (m : Rat) ≤ 2 ^ 53 := by exact_mod_cast hm.2
    rw [hsplit]
    exact mul_le_mul_of_nonneg_right (by linarith [zpow_ofNat (2 : Rat) 53]) hpos.le
  have hhalf : ((m : Rat) - 1 / 2) * 2 ^ k < m * 2 ^ k := by linarith
  by_cases hq : q = 0
  · subst hq
    have hzero : (0 : Rat) < 2 ^ (k + 52) := two_zpow_pos _
    rw [rounded_zero, abs_zero]
    exact iff_of_false (by linarith) (by rintro (h | ⟨h, -⟩) <;> linarith)
  obtain ⟨hless, hplace⟩ := lastPlace_bounds_abs hq
  have hupper := rounded_le hq
  rcases Int.lt_trichotomy (lastPlace q.num.natAbs q.den) k with hlt | heq | hgt
  · -- the number is too large for the last place
    have hbelow : (2 : Rat) ^ (lastPlace q.num.natAbs q.den + 53) ≤ 2 ^ (k + 52) :=
      two_zpow_le (by omega)
    exact iff_of_false (by linarith) (by rintro (h | ⟨h, -⟩) <;> linarith)
  · have hreach := le_significand_iff q m
    rw [heq] at hreach
    rw [← hreach, rounded, heq, mul_le_mul_iff_left₀ hpos, Nat.cast_le]
  · -- all that is rounded at a coarser place is beyond the number
    have hnormal := hplace.resolve_right (by omega)
    have habove : (2 : Rat) ^ (k + 53) ≤ 2 ^ (lastPlace q.num.natAbs q.den + 52) :=
      two_zpow_le (by omega)
    have hlower := le_rounded hnormal
    exact iff_of_true (by linarith) (.inl (by linarith))

/-- A rational is rounded to a power of two or beyond it from half-way between the power and its
lower neighbour on. -/
theorem two_zpow_le_rounded_iff (hk : -1021 ≤ k) :
    2 ^ k ≤ rounded q ↔ (2 : Rat) ^ k - 2 ^ (k - 54) ≤ |q| := by
  have hunit : ((2 ^ 53 : Nat) : Rat) * 2 ^ (k - 53) = 2 ^ k := by
    rw [Nat.cast_pow, Nat.cast_ofNat, ← zpow_natCast, ← zpow_add₀ two_ne_zero]
    congr 1
    omega
  have hdouble : (2 : Rat) ^ (k - 53) = 2 ^ (k - 54) * 2 := by
    rw [← zpow_add_one₀ two_ne_zero]
    congr 1
    omega
  have hlimit : (((2 ^ 53 : Nat) : Rat) - 1 / 2) * 2 ^ (k - 53) = 2 ^ k - 2 ^ (k - 54) := by
    rw [sub_mul, hunit, hdouble]
    ring
  have hreach := @mul_two_zpow_le_rounded_iff q (k - 53) (2 ^ 53) (by decide) (by omega)
  rw [hunit, hlimit] at hreach
  rw [hreach, le_iff_lt_or_eq]
  exact or_congr_right (and_iff_left (by decide))

/-- There is no number between a power of two and the next multiple of its last place. -/
theorem two_zpow_lt_rounded_iff_next :
    2 ^ (k + 52) < rounded q ↔ ((2 ^ 52 + 1 : Nat) : Rat) * 2 ^ k ≤ rounded q := by
  have hpos := two_zpow_pos k
  have hunit : (2 : Rat) ^ (k + 52) = ((2 ^ 52 : Nat) : Rat) * 2 ^ k := by
    rw [zpow_add₀ two_ne_zero, mul_comm, Nat.cast_pow, Nat.cast_ofNat, zpow_ofNat]
  constructor
  · intro h
    have hq : q ≠ 0 := by
      rintro rfl
      rw [rounded_zero] at h
      exact absurd h (not_lt_of_gt (two_zpow_pos _))
    have hplace : k ≤ lastPlace q.num.natAbs q.den := by
      by_contra hfine
      have hbelow : (2 : Rat) ^ (lastPlace q.num.natAbs q.den + 53) ≤ 2 ^ (k + 52) :=
        two_zpow_le (by omega)
      exact absurd ((rounded_le hq).trans hbelow) (not_le_of_gt h)
    obtain ⟨n, hn⟩ := Int.le.dest hplace
    have hmultiple :
        rounded q = ((significand q.num.natAbs q.den * 2 ^ n : Nat) : Rat) * 2 ^ k := by
      rw [rounded, ← hn, zpow_add₀ two_ne_zero, zpow_natCast]
      push_cast
      ring
    rw [hmultiple, hunit, mul_lt_mul_iff_left₀ hpos, Nat.cast_lt] at h
    rw [hmultiple, mul_le_mul_iff_left₀ hpos, Nat.cast_le]
    exact h
  · intro h
    refine lt_of_lt_of_le ?_ h
    rw [hunit, mul_lt_mul_iff_left₀ hpos, Nat.cast_lt]
    exact Nat.lt_succ_self _

/-- A rational is rounded beyond a power of two after the point half-way between the power and its
upper neighbour. -/
theorem two_zpow_lt_rounded_iff (hk : -1022 ≤ k) :
    2 ^ k < rounded q ↔ (2 : Rat) ^ k + 2 ^ (k - 53) < |q| := by
  have hplace : k - 52 + 52 = k := by omega
  have hunit : ((2 ^ 52 : Nat) : Rat) * 2 ^ (k - 52) = 2 ^ k := by
    rw [Nat.cast_pow, Nat.cast_ofNat, ← zpow_natCast, ← zpow_add₀ two_ne_zero]
    congr 1
    omega
  have hdouble : (2 : Rat) ^ (k - 52) = 2 ^ (k - 53) * 2 := by
    rw [← zpow_add_one₀ two_ne_zero]
    congr 1
    omega
  have hlimit : (((2 ^ 52 + 1 : Nat) : Rat) - 1 / 2) * 2 ^ (k - 52) = 2 ^ k + 2 ^ (k - 53) := by
    rw [Nat.cast_add, Nat.cast_one, add_sub_assoc, add_mul, hunit, hdouble]
    ring
  have hreach := @mul_two_zpow_le_rounded_iff q (k - 52) (2 ^ 52 + 1) (by decide) (by omega)
  have hnext := @two_zpow_lt_rounded_iff_next q (k - 52)
  rw [hplace, hreach, hlimit] at hnext
  rw [hnext]
  exact or_iff_left fun h => absurd h.2 (by decide)

end Limits

/-! ### Infinities -/

theorem natCast_pow_two (k : Nat) : ((Nat.pow 2 k : Nat) : Rat) = 2 ^ k := by
  exact_mod_cast Nat.cast_pow (α := Rat) 2 k

theorem two_zpow_natCast (k : Nat) : (2 : Rat) ^ (k : Int) = ((Nat.pow 2 k : Nat) : Rat) :=
  (zpow_natCast 2 k).trans (natCast_pow_two k).symm

theorem mkRat_eq_mul_two_zpow (units : Nat) (place : Int) :
    mkRat ((units : Int) * (Nat.pow 2 place.toNat : Nat)) (Nat.pow 2 (-place).toNat) =
      (units : Rat) * 2 ^ place := by
  rw [Rat.mkRat_eq_div, two_zpow_eq, mul_div_assoc', natCast_pow_two, Int.cast_mul,
    Int.cast_natCast, Int.cast_natCast, natCast_pow_two]

/-- The number nearest to a rational has the rounded magnitude, if that is in range. -/
theorem ofRat_eq (q : Rat) : ofRat q =
    if (2 : Rat) ^ (1024 : Int) ≤ rounded q then infinite (q < 0)
    else finite (q.num.sign * rounded q) := by
  unfold ofRat rounded
  dsimp only
  generalize lastPlace q.num.natAbs q.den = place
  generalize significand q.num.natAbs q.den = units
  -- the power of two is not computed
  generalize hlimit : (1024 : Nat) = k
  have hcast : (1024 : Int) = k := by omega
  have hscale : (0 : Rat) < 2 ^ (-place).toNat := pow_pos two_pos _
  have hrange : Nat.pow 2 k * Nat.pow 2 (-place).toNat ≤ units * Nat.pow 2 place.toNat ↔
      (2 : Rat) ^ (k : Int) ≤ units * 2 ^ place := by
    rw [two_zpow_natCast, two_zpow_eq, mul_div_assoc', le_div_iff₀ hscale, ← natCast_pow_two,
      ← natCast_pow_two, ← Nat.cast_mul, ← Nat.cast_mul, Nat.cast_le]
  rw [mkRat_eq_mul_two_zpow, hcast]
  exact if_congr hrange rfl rfl

/-- A rational is rounded to a finite number up to half-way between the largest one and the power of
two beyond it. -/
theorem isFinite_ofRat_iff (q : Rat) :
    (ofRat q).isFinite = true ↔ |q| < 2 ^ (1024 : Int) - 2 ^ (970 : Int) := by
  have hlimit := two_zpow_le_rounded_iff (q := q) (k := 1024) (by decide)
  rw [ofRat_eq]
  split
  · rename_i hlarge
    exact iff_of_false nofun (not_lt_of_ge (hlimit.1 hlarge))
  · rename_i hlarge
    exact iff_of_true rfl (lt_of_not_ge (mt hlimit.2 hlarge))

theorem ofRat_of_isFinite {q : Rat} (h : (ofRat q).isFinite = true) :
    ofRat q = finite (q.num.sign * rounded q) := by
  rw [ofRat_eq] at h ⊢
  split at h
  · cases h
  · rename_i hlarge
    exact if_neg hlarge

theorem ofRat_zero : ofRat 0 = finite 0 := by
  have hzero := ofRat_intCast (n := 0) (by decide)
  rwa [Int.cast_zero] at hzero

/-- A rational below half of the smallest number is rounded to zero. -/
theorem ofRat_of_abs_lt {q : Rat} (h : |q| < 2 ^ (-1075 : Int)) : ofRat q = finite 0 := by
  have hplace : (-1074 : Int) ≤ lastPlace q.num.natAbs q.den := Int.le_max_right _ _
  have hhalf : (2 : Rat) ^ (-1075 : Int) ≤
      (((1 : Nat) : Rat) - 1 / 2) * 2 ^ lastPlace q.num.natAbs q.den := by
    have hmono : (2 : Rat) ^ (-1075 : Int) ≤ 2 ^ (lastPlace q.num.natAbs q.den - 1) :=
      two_zpow_le (by omega)
    refine hmono.trans_eq ?_
    rw [zpow_sub_one₀ two_ne_zero, Nat.cast_one]
    ring
  have hunits : significand q.num.natAbs q.den = 0 := by
    by_contra hne
    rcases (le_significand_iff q 1).1 (Nat.one_le_iff_ne_zero.2 hne) with hreach | ⟨hreach, -⟩
    · linarith
    · linarith
  have hrounded : rounded q = 0 := by rw [rounded, hunits, Nat.cast_zero, zero_mul]
  rw [ofRat_eq, hrounded, if_neg (not_le_of_gt (two_zpow_pos _)), mul_zero]

/-! ### Signs and integers -/

theorem rounded_neg (q : Rat) : rounded (-q) = rounded q := by
  unfold rounded
  rw [Rat.num_neg_eq_neg_num, Int.natAbs_neg, Rat.den_neg_eq_den]

theorem rounded_nonneg (q : Rat) : 0 ≤ rounded q :=
  mul_nonneg (Nat.cast_nonneg _) (two_zpow_pos _).le

/-- The signed magnitude that a rational is rounded to. -/
theorem sign_mul_rounded (q : Rat) :
    q.num.sign * rounded q = if q < 0 then -rounded q else rounded q := by
  rcases lt_trichotomy q 0 with hneg | rfl | hpos
  · rw [if_pos hneg, Int.sign_eq_neg_one_of_neg (Rat.num_neg.2 hneg)]
    push_cast
    rw [neg_one_mul]
  · rw [rounded_zero, mul_zero, if_neg (lt_irrefl _)]
  · rw [if_neg (not_lt_of_gt hpos), Int.sign_eq_one_of_pos (Rat.num_pos.2 hpos), Int.cast_one,
      one_mul]

/-- Opposite rationals are rounded to opposite numbers. -/
theorem ofRat_neg (q : Rat) : ofRat (-q) = (ofRat q).neg := by
  rw [ofRat_eq, ofRat_eq, rounded_neg, Rat.num_neg_eq_neg_num, Int.sign_neg]
  split
  · rename_i hlarge
    have hne : q ≠ 0 := by
      rintro rfl
      rw [rounded_zero] at hlarge
      exact absurd hlarge (not_le_of_gt (two_zpow_pos _))
    have hflip : decide (-q < 0) = !decide (q < 0) := by
      rcases lt_or_gt_of_ne hne with hlt | hgt
      · simp [hlt, hlt.le]
      · simp [hgt, hgt.le]
    rw [neg, hflip]
  · rw [neg]
    push_cast
    rw [neg_mul]

/-- A large number has no places behind the point. -/
theorem exists_natCast_eq_rounded {q : Rat} (h : (2 : Rat) ^ (53 : Int) ≤ rounded q) :
    ∃ n : Nat, rounded q = n := by
  have hne : q ≠ 0 := by
    rintro rfl
    rw [rounded_zero] at h
    exact absurd h (not_le_of_gt (two_zpow_pos _))
  have hplace : 53 ≤ lastPlace q.num.natAbs q.den + 53 := by
    by_contra hsmall
    have hless : (2 : Rat) ^ (lastPlace q.num.natAbs q.den + 53) < 2 ^ (53 : Int) :=
      two_zpow_lt_two_zpow_iff.2 (by omega)
    exact absurd (h.trans (rounded_le hne)) (not_le_of_gt hless)
  obtain ⟨k, hk⟩ := Int.eq_ofNat_of_zero_le (a := lastPlace q.num.natAbs q.den) (by omega)
  refine ⟨significand q.num.natAbs q.den * 2 ^ k, ?_⟩
  rw [rounded, hk, zpow_natCast]
  push_cast
  rfl

/-- An integer is rounded to an integer, if it is in range. -/
theorem exists_intCast_of_ofInt {n : Int} (h : (ofInt n).isFinite = true) :
    ∃ m : Int, ofInt n = finite m ∧ (m = n ∨ 2 ^ 53 ≤ n.natAbs ∧ 2 ^ 53 ≤ m.natAbs) := by
  by_cases hsmall : n.natAbs < 2 ^ 53
  · exact ⟨n, ofInt_eq hsmall, .inl rfl⟩
  · have hmagnitude : (2 : Rat) ^ (53 : Int) ≤ rounded n := by
      rw [two_zpow_le_rounded_iff (by decide)]
      have habs : ((n.natAbs : Nat) : Rat) = |(n : Rat)| := by
        rw [Nat.cast_natAbs, Int.cast_abs]
      have hlarge : (2 : Rat) ^ (53 : Int) ≤ |(n : Rat)| := by
        rw [← habs]
        exact_mod_cast Nat.le_of_not_lt hsmall
      have hpos := two_zpow_pos (53 - 54)
      linarith
    obtain ⟨k, hk⟩ := exists_natCast_eq_rounded hmagnitude
    have hsign : n.sign.natAbs = 1 := Int.natAbs_sign_of_ne_zero (by
      rintro rfl
      exact hsmall (by decide))
    refine ⟨n.sign * k, ?_, .inr ⟨Nat.le_of_not_lt hsmall, ?_⟩⟩
    · unfold ofInt at h ⊢
      rw [ofRat_of_isFinite h, Rat.num_intCast, hk]
      push_cast
      rfl
    · rw [Int.natAbs_mul, hsign, Nat.one_mul, Int.natAbs_natCast]
      rw [hk] at hmagnitude
      exact_mod_cast hmagnitude

end Number

/-! ### Decimals -/

namespace Decimal

open Number

theorem toRat_eq (d : Decimal) : d.toRat = d.mantissa * 10 ^ d.exponent := by
  have hten (k : Nat) : ((Nat.pow 10 k : Nat) : Rat) = 10 ^ k := by
    exact_mod_cast Nat.cast_pow (α := Rat) 10 k
  rw [toRat, Rat.mkRat_eq_div, Int.cast_mul, Int.cast_natCast, Int.cast_natCast, hten, hten]
  rcases Int.le_total 0 d.exponent with h | h
  · obtain ⟨n, hn⟩ := Int.eq_ofNat_of_zero_le h
    rw [hn]
    simp
  · obtain ⟨n, hn⟩ := Int.eq_ofNat_of_zero_le (Int.neg_nonneg_of_nonpos h)
    have hexponent : d.exponent = -n := by omega
    rw [hexponent]
    simp [div_eq_mul_inv]

theorem toRat_nonneg (d : Decimal) : 0 ≤ d.toRat := by
  rw [toRat_eq]
  exact mul_nonneg (Nat.cast_nonneg _) (zpow_nonneg (by norm_num) _)

/-- A decimal is at least the power of two that the length of its mantissa and its natural exponent
give. -/
theorem two_zpow_le_toRat {d : Decimal} (hmantissa : d.mantissa ≠ 0) (h : 0 ≤ d.exponent) :
    (2 : Rat) ^ ((d.mantissa.log2 : Int) + 3 * d.exponent) ≤ d.toRat := by
  have hlow : (2 : Rat) ^ (d.mantissa.log2 : Int) ≤ d.mantissa := by
    rw [zpow_natCast]
    exact_mod_cast Nat.log2_self_le hmantissa
  have height : (2 : Rat) ^ (3 * d.exponent) ≤ 10 ^ d.exponent := by
    rw [zpow_mul]
    exact zpow_le_zpow_left₀ h (by norm_num) (by norm_num)
  rw [toRat_eq, zpow_add₀ two_ne_zero]
  exact mul_le_mul hlow height (two_zpow_pos _).le (Nat.cast_nonneg _)

/-- A decimal with a negative exponent is less than the power of two that the length of its mantissa
and its exponent give. -/
theorem toRat_lt_two_zpow {d : Decimal} (h : d.exponent < 0) :
    d.toRat < (2 : Rat) ^ ((d.mantissa.log2 : Int) + 1 + 3 * d.exponent) := by
  have hhigh : (d.mantissa : Rat) < 2 ^ ((d.mantissa.log2 : Int) + 1) := by
    rw [← Int.natCast_succ, zpow_natCast]
    exact_mod_cast Nat.lt_log2_self
  have height : (10 : Rat) ^ d.exponent ≤ 2 ^ (3 * d.exponent) := by
    have hinverse : ((2 : Rat) ^ (3 : Int)) ^ (-d.exponent) ≤ 10 ^ (-d.exponent) :=
      zpow_le_zpow_left₀ (by omega) (by norm_num) (by norm_num)
    rw [zpow_neg, zpow_neg] at hinverse
    rw [zpow_mul]
    exact (inv_le_inv₀ (by positivity) (by positivity)).1 hinverse
  rw [toRat_eq, zpow_add₀ two_ne_zero]
  exact mul_lt_mul hhigh height (zpow_pos (by norm_num) _) (two_zpow_pos _).le

/-- Decimals far out of range are rounded as all others are. -/
theorem toNumber_eq (d : Decimal) : d.toNumber = ofRat d.toRat := by
  have habs : |d.toRat| = d.toRat := abs_of_nonneg d.toRat_nonneg
  unfold toNumber
  split
  · rename_i hzero
    rw [toRat_eq, hzero, Nat.cast_zero, zero_mul, ofRat_zero]
  split
  · rename_i hmantissa hlarge
    -- the decimal is beyond all numbers
    have hpower : (2 : Rat) ^ (1024 : Int) ≤ |d.toRat| := by
      rw [habs]
      exact (two_zpow_le hlarge.2).trans (two_zpow_le_toRat hmantissa hlarge.1)
    have hrounded : (2 : Rat) ^ (1024 : Int) ≤ rounded d.toRat := by
      rw [two_zpow_le_rounded_iff (by decide)]
      exact (sub_le_self _ (two_zpow_pos _).le).trans hpower
    rw [ofRat_eq, if_pos hrounded, decide_eq_false (not_lt_of_ge d.toRat_nonneg)]
  split
  · rename_i hsmall
    -- the decimal is nearer to zero than to the smallest number
    have hpower : |d.toRat| < 2 ^ (-1075 : Int) := by
      rw [habs]
      exact (toRat_lt_two_zpow hsmall.1).trans_le (two_zpow_le (by omega))
    exact (ofRat_of_abs_lt hpower).symm
  · rfl

end Decimal

end CommentSearch
