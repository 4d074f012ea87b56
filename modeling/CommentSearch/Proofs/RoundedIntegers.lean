import CommentSearch.Proofs.Rounding

/-!
# Integers that are rounded

An integer of more than 53 binary digits is rounded, but it stays on its side of every smaller one
(`lt_ofInt_iff`, `ofInt_lt_iff`). It is rounded to an integer, or else to the infinity of its sign
from `rangeEnd` on (`ofInt_cases`).

`Number.IsCount` says of a number that it is a natural one, neither infinite nor not a number, and
`Number.IsWhole` that it is an integer or an infinity. An integer that is rounded and raised to zero
is a natural number unless it is too large (`isCount_atLeastZero_ofInt_iff`), and
`isCount_atLeastZero_mul_iff` says the same of a product by a positive number.
-/

namespace CommentSearch.Number

/-! ### Exact integers -/

/-- An integer up to the first one of 54 binary digits is not rounded. -/
theorem ofInt_of_natAbs_le {n : Int} (h : n.natAbs ≤ 2 ^ 53) : ofInt n = finite n := by
  rcases Nat.lt_or_eq_of_le h with hlt | heq
  · exact ofInt_eq hlt
  · rcases Int.natAbs_eq_iff.1 heq with rfl | rfl
    · decide +kernel
    · decide +kernel

/-- The sum of two integers is rounded as an integer. -/
theorem add_finite_intCast_eq (m n : Int) : add (finite m) (finite n) = ofInt (m + n) := by
  unfold add ofInt
  push_cast
  rfl

/-- The product of two integers is rounded as an integer. -/
theorem mul_finite_intCast_eq (m n : Int) : mul (finite m) (finite n) = ofInt (m * n) := by
  unfold mul ofInt
  push_cast
  rfl

/-! ### Order -/

/-- A large integer is rounded to a large magnitude. -/
theorem two_pow_le_rounded_intCast {n : Int} (h : 2 ^ 53 ≤ n.natAbs) :
    (2 : Rat) ^ 53 ≤ rounded n := by
  have habs : ((n.natAbs : Nat) : Rat) = |(n : Rat)| := by
    rw [Nat.cast_natAbs, Int.cast_abs]
  have hlarge : (2 : Rat) ^ (53 : Int) ≤ |(n : Rat)| := by
    rw [← habs]
    exact_mod_cast h
  have hpos := two_zpow_pos (53 - 54)
  rw [← zpow_ofNat, two_zpow_le_rounded_iff (by decide)]
  linarith

theorem lt_neg_neg (x y : Number) : lt x.neg y.neg = lt y x := by
  cases x <;> cases y <;> simp [lt, neg, Bool.and_comm]

/-- A small integer is below another exactly where it is below the rounding of that. -/
theorem lt_ofInt_iff {a n : Int} (ha : a.natAbs < 2 ^ 53) :
    lt (finite a) (ofInt n) = true ↔ a < n := by
  by_cases hsmall : n.natAbs ≤ 2 ^ 53
  · rw [ofInt_of_natAbs_le hsmall]
    simp [lt]
  have hrounded := two_pow_le_rounded_intCast (n := n) (by omega)
  have hlow : -(2 : Rat) ^ 53 < a := by exact_mod_cast (by omega : -2 ^ 53 < a)
  have hhigh : (a : Rat) < 2 ^ 53 := by exact_mod_cast (by omega : a < 2 ^ 53)
  unfold ofInt
  rw [ofRat_eq, sign_mul_rounded]
  rcases lt_or_ge n 0 with hneg | hnonneg
  · -- a large negative integer is rounded to a number below all small ones
    have hnot : ¬a < n := by omega
    have hsign : (n : Rat) < 0 := by exact_mod_cast hneg
    rw [if_pos hsign, decide_eq_true hsign]
    split
    · simp [lt, hnot]
    · simp only [lt, hnot, iff_false, decide_eq_true_eq]
      linarith
  · have hless : a < n := by omega
    have hsign : ¬(n : Rat) < 0 := by exact_mod_cast not_lt_of_ge hnonneg
    rw [if_neg hsign, decide_eq_false hsign]
    split
    · simp [lt, hless]
    · simp only [lt, hless, iff_true, decide_eq_true_eq]
      linarith

/-- An integer is below a small one exactly where its rounding is. -/
theorem ofInt_lt_iff {a n : Int} (ha : a.natAbs < 2 ^ 53) :
    lt (ofInt n) (finite a) = true ↔ n < a := by
  have hopposite := lt_ofInt_iff (a := -a) (n := -n) (by omega)
  have hleft : finite ((-a : Int) : Rat) = (finite a).neg := by
    rw [neg, Int.cast_neg]
  have hright : ofInt (-n) = (ofInt n).neg := by
    unfold ofInt
    rw [Int.cast_neg, ofRat_neg]
  rw [hleft, hright, lt_neg_neg] at hopposite
  rw [hopposite]
  omega

/-! ### Range -/

/-- The end of the range of numbers: a rational is rounded to an infinity from there on. -/
def rangeEnd : Rat := 2 ^ (1024 : Int) - 2 ^ (970 : Int)

theorem rangeEnd_pos : 0 < rangeEnd := sub_pos.2 (two_zpow_lt_two_zpow_iff.2 (by decide))

/-- A magnitude in range is below the end of the range. -/
theorem rounded_lt_of_lt {q : Rat} (h : rounded q < 2 ^ (1024 : Int)) : rounded q < rangeEnd := by
  have hdouble (k : Int) : (2 : Rat) ^ (k + 1) = 2 * 2 ^ k := by
    rw [zpow_add_one₀ two_ne_zero, mul_comm]
  have hunit : (2 : Rat) ^ (971 : Int) = 2 * 2 ^ (970 : Int) := hdouble 970
  have hlimit : (2 : Rat) ^ (1024 : Int) = 2 * 2 ^ (1023 : Int) := hdouble 1023
  have hless : (2 : Rat) ^ (970 : Int) < 2 ^ (1023 : Int) := two_zpow_lt_two_zpow_iff.2 (by decide)
  by_cases hzero : q = 0
  · rw [hzero, rounded_zero]
    exact rangeEnd_pos
  unfold rangeEnd
  rw [lt_sub_iff_add_lt]
  rcases lt_or_ge (lastPlace q.num.natAbs q.den) 971 with hfine | hcoarse
  · have hhalf : rounded q ≤ 2 ^ (1023 : Int) :=
      (rounded_le hzero).trans (two_zpow_le (by omega))
    rw [hlimit, two_mul]
    exact add_lt_add_of_le_of_lt hhalf hless
  · -- the magnitude is a multiple of the last place of the largest numbers
    obtain ⟨k, hk⟩ := Int.le.dest hcoarse
    obtain ⟨units, hunits⟩ : ∃ units : Nat, rounded q = units * 2 ^ (971 : Int) := by
      refine ⟨significand q.num.natAbs q.den * 2 ^ k, ?_⟩
      rw [rounded, ← hk, zpow_add₀ two_ne_zero, zpow_natCast, Nat.cast_mul, Nat.cast_pow,
        Nat.cast_ofNat, mul_assoc, mul_comm ((2 : Rat) ^ k)]
    have hpower : (2 : Rat) ^ (1024 : Int) = ((2 ^ 53 : Nat) : Rat) * 2 ^ (971 : Int) := by
      rw [Nat.cast_pow, Nat.cast_ofNat, ← zpow_natCast, ← zpow_add₀ two_ne_zero]
      rfl
    rw [hunits, hpower, mul_lt_mul_iff_left₀ (two_zpow_pos _), Nat.cast_lt] at h
    have hnext : (units : Rat) + 1 ≤ ((2 ^ 53 : Nat) : Rat) := by exact_mod_cast h
    have hscaled := mul_le_mul_of_nonneg_right hnext (two_zpow_pos 971).le
    rw [← hpower, add_mul, one_mul, ← hunits, hunit, two_mul] at hscaled
    exact (add_lt_add_right (lt_add_of_pos_left _ (two_zpow_pos 970)) _).trans_le hscaled

/-- An integer is rounded to an integer of the range, or to the infinity of its sign. -/
theorem ofInt_cases (n : Int) :
    (∃ m : Int, ofInt n = finite m ∧ |(n : Rat)| < rangeEnd ∧ |(m : Rat)| < rangeEnd) ∨
      ofInt n = infinite (n < 0) ∧ rangeEnd ≤ |(n : Rat)| := by
  have hfinite : (ofInt n).isFinite = true ↔ |(n : Rat)| < rangeEnd := isFinite_ofRat_iff n
  have hround : ofInt n = if (2 : Rat) ^ (1024 : Int) ≤ rounded n then infinite ((n : Rat) < 0)
      else finite (if (n : Rat) < 0 then -rounded n else rounded n) := by
    rw [← sign_mul_rounded]
    exact ofRat_eq n
  by_cases hlarge : (2 : Rat) ^ (1024 : Int) ≤ rounded n
  · rw [if_pos hlarge] at hround
    rw [hround] at hfinite
    refine .inr ⟨?_, le_of_not_gt (mt hfinite.2 nofun)⟩
    rw [hround]
    simp only [Int.cast_lt_zero]
  · rw [if_neg hlarge] at hround
    obtain ⟨m, hm, -⟩ := exists_intCast_of_ofInt (n := n) (by rw [hround]; rfl)
    refine .inl ⟨m, hm, hfinite.1 (by rw [hround]; rfl), ?_⟩
    have hmagnitude : |(m : Rat)| = rounded n := by
      rw [← Number.finite.inj (hround.symm.trans hm)]
      split
      · rw [abs_neg, abs_of_nonneg (rounded_nonneg _)]
      · rw [abs_of_nonneg (rounded_nonneg _)]
    rw [hmagnitude]
    exact rounded_lt_of_lt (lt_of_not_ge hlarge)

/-! ### Natural numbers -/

/-- A number that is a natural one. -/
def IsCount (x : Number) : Prop := ∃ n : Nat, x = finite n

/-- A number that is an integer or an infinity. -/
def IsWhole (x : Number) : Prop := (∃ n : Int, x = finite n) ∨ ∃ negative, x = infinite negative

theorem isCount_zero : (finite 0).IsCount := ⟨0, by rw [Nat.cast_zero]⟩

theorem not_isCount_infinite (negative : Bool) : ¬(infinite negative).IsCount := by
  rintro ⟨n, h⟩
  cases h

theorem not_isCount_nan : ¬nan.IsCount := by
  rintro ⟨n, h⟩
  cases h

theorem IsCount.isWhole {x : Number} (h : x.IsCount) : x.IsWhole := by
  obtain ⟨n, rfl⟩ := h
  exact .inl ⟨n, by rw [Int.cast_natCast]⟩

theorem isWhole_ofInt (n : Int) : (ofInt n).IsWhole := by
  rcases ofInt_cases n with ⟨m, hm, -⟩ | ⟨hinfinite, -⟩
  · exact .inl ⟨m, hm⟩
  · exact .inr ⟨_, hinfinite⟩

/-- A positive whole number is a positive integer or the positive infinity. -/
theorem IsWhole.pos_cases {x : Number} (h : x.IsWhole) (hpos : lt (finite 0) x = true) :
    (∃ n : Int, 0 < n ∧ x = finite n) ∨ x = infinite false := by
  rcases h with ⟨n, rfl⟩ | ⟨negative, rfl⟩
  · exact .inl ⟨n, by simpa [lt] using hpos, rfl⟩
  · exact .inr (by simpa [lt] using hpos)

theorem atLeastZero_of_lt {x : Number} (h : x.lt (finite 0) = true) : x.atLeastZero = finite 0 :=
  if_pos h

theorem atLeastZero_finite_intCast (n : Int) : (finite n).atLeastZero = finite (n.toNat : Nat) := by
  unfold atLeastZero lt
  simp only [Int.cast_lt_zero, decide_eq_true_eq]
  split
  · rename_i hneg
    rw [Int.toNat_of_nonpos hneg.le, Nat.cast_zero]
  · rename_i hneg
    rw [← Int.cast_natCast, Int.toNat_of_nonneg (by omega)]

/-- A whole number that is raised to zero is a natural number or the positive infinity. -/
theorem IsWhole.atLeastZero_cases {x : Number} (h : x.IsWhole) :
    x.atLeastZero.IsCount ∨ x.atLeastZero = infinite false := by
  rcases h with ⟨n, rfl⟩ | ⟨negative, rfl⟩
  · exact .inl ⟨_, atLeastZero_finite_intCast n⟩
  · cases negative with
    | false => exact .inr rfl
    | true => exact .inl isCount_zero

/-- An integer that is rounded and raised to zero is a natural number, unless it is too large. -/
theorem isCount_atLeastZero_ofInt_iff {n : Int} :
    (ofInt n).atLeastZero.IsCount ↔ (n : Rat) < rangeEnd := by
  rcases ofInt_cases n with ⟨m, hm, hrange, -⟩ | ⟨hinfinite, hbeyond⟩
  · rw [hm, atLeastZero_finite_intCast]
    exact iff_of_true ⟨_, rfl⟩ (lt_of_abs_lt hrange)
  · rw [hinfinite]
    rcases lt_or_ge n 0 with hneg | hnonneg
    · have hsign : (n : Rat) < 0 := by exact_mod_cast hneg
      rw [decide_eq_true hneg]
      exact iff_of_true isCount_zero (hsign.trans rangeEnd_pos)
    · have hsign : (0 : Rat) ≤ n := by exact_mod_cast hnonneg
      rw [abs_of_nonneg hsign] at hbeyond
      rw [decide_eq_false (not_lt_of_ge hnonneg)]
      exact iff_of_false (not_isCount_infinite false) (not_lt_of_ge hbeyond)

/-! ### Products by a positive number -/

/-- An integer times the positive infinity is the infinity of its sign. -/
theorem mul_infinite_of_neg {m : Int} (h : m < 0) :
    (finite m).mul (infinite false) = infinite true := by
  have hsign : (m : Rat) < 0 := Int.cast_lt_zero.2 h
  simp [mul, hsign.ne, h]

theorem mul_infinite_of_pos {m : Int} (h : 0 < m) :
    (finite m).mul (infinite false) = infinite false := by
  have hsign : (0 : Rat) < m := Int.cast_pos.2 h
  simp [mul, hsign.ne', h.le]

/-- An infinity stays as it is when it is multiplied by a positive number. -/
theorem infinite_mul {y : Number} (negative : Bool) (hy : y.IsWhole)
    (hpos : lt (finite 0) y = true) : (infinite negative).mul y = infinite negative := by
  rcases hy.pos_cases hpos with ⟨n, hn, rfl⟩ | rfl
  · have hsign : (0 : Rat) < n := Int.cast_pos.2 hn
    have hnonneg : decide ((n : Rat) < 0) = false := decide_eq_false hsign.le.not_gt
    simp only [mul, hsign.ne', if_false, hnonneg, Bool.bne_false]
  · cases negative <;> rfl

/-- A product by a positive whole number is negative where the first factor is. -/
theorem mul_lt_zero {x y : Number} (hx : x.IsWhole) (hneg : x.lt (finite 0) = true)
    (hy : y.IsWhole) (hpos : lt (finite 0) y = true) : (x.mul y).lt (finite 0) = true := by
  rcases hx with ⟨m, rfl⟩ | ⟨negative, rfl⟩
  · have hm : m < 0 := by simpa [lt] using hneg
    rcases hy.pos_cases hpos with ⟨n, hn, rfl⟩ | rfl
    · rw [mul_finite_intCast_eq]
      exact (ofInt_lt_iff (a := 0) (by decide)).2 (mul_neg_of_neg_of_pos hm hn)
    · rw [mul_infinite_of_neg hm]
      rfl
  · rw [infinite_mul negative hy hpos]
    exact hneg

/-- A product by a positive whole number fails to be one only for zero times infinity. -/
theorem isWhole_mul {x y : Number} (hx : x.IsWhole) (hy : y.IsWhole)
    (hpos : lt (finite 0) y = true) :
    (x.mul y).IsWhole ∨ x = finite 0 ∧ y = infinite false ∧ x.mul y = nan := by
  rcases hx with ⟨m, rfl⟩ | ⟨negative, rfl⟩
  · rcases hy.pos_cases hpos with ⟨n, -, rfl⟩ | rfl
    · rw [mul_finite_intCast_eq]
      exact .inl (isWhole_ofInt _)
    · rcases lt_trichotomy m 0 with hneg | rfl | hpos
      · exact .inl (.inr ⟨_, mul_infinite_of_neg hneg⟩)
      · exact .inr ⟨by rw [Int.cast_zero], rfl, rfl⟩
      · exact .inl (.inr ⟨_, mul_infinite_of_pos hpos⟩)
  · exact .inl (.inr ⟨_, infinite_mul negative hy hpos⟩)

/-- A product by a positive whole number, raised to zero, is a natural number where the first factor
is negative, or where both are integers with a product in range. -/
theorem isCount_atLeastZero_mul_iff {x y : Number} (hx : x.IsWhole) (hy : y.IsWhole)
    (hpos : lt (finite 0) y = true) :
    (x.mul y).atLeastZero.IsCount ↔ x.lt (finite 0) = true ∨
      ∃ m n : Int, x = finite m ∧ y = finite n ∧ ((m * n : Int) : Rat) < rangeEnd := by
  rcases hx with ⟨m, rfl⟩ | ⟨negative, rfl⟩
  · have hsign : (finite m).lt (finite 0) = true ↔ m < 0 := by simp [lt]
    rw [hsign]
    rcases hy.pos_cases hpos with ⟨n, hn, rfl⟩ | rfl
    · rw [mul_finite_intCast_eq, isCount_atLeastZero_ofInt_iff]
      constructor
      · intro hrange
        exact .inr ⟨m, n, rfl, rfl, hrange⟩
      · rintro (hneg | ⟨m', n', hm, hn', hrange⟩)
        · have hproduct : ((m * n : Int) : Rat) < 0 :=
            Int.cast_lt_zero.2 (mul_neg_of_neg_of_pos hneg hn)
          exact hproduct.trans rangeEnd_pos
        · obtain rfl : m = m' := by simpa using hm
          obtain rfl : n = n' := by simpa using hn'
          exact hrange
    · have hnone : ¬∃ m' n : Int, finite m = finite m' ∧ infinite false = finite n ∧
          ((m' * n : Int) : Rat) < rangeEnd := by
        rintro ⟨_, _, -, h, -⟩
        cases h
      rw [or_iff_left hnone]
      rcases lt_trichotomy m 0 with hneg | rfl | hpos
      · rw [mul_infinite_of_neg hneg]
        exact iff_of_true isCount_zero hneg
      · exact iff_of_false not_isCount_nan (lt_irrefl 0)
      · rw [mul_infinite_of_pos hpos]
        exact iff_of_false (not_isCount_infinite false) hpos.not_gt
  · have hnone : ¬∃ m n : Int, infinite negative = finite m ∧ y = finite n ∧
        ((m * n : Int) : Rat) < rangeEnd := by
      rintro ⟨_, _, h, -⟩
      cases h
    rw [or_iff_left hnone, infinite_mul negative hy hpos]
    cases negative with
    | false => exact iff_of_false (not_isCount_infinite false) (by decide)
    | true => exact iff_of_true isCount_zero rfl

end CommentSearch.Number
