import CommentSearch.Number.Literal
import Mathlib.Algebra.Order.Field.Rat
import Mathlib.Data.Rat.Cast.Order
import Mathlib.Tactic.Ring

/-!
# Numbers that need no rounding

An integer of up to 53 binary digits is a number as it stands (`ofInt_eq`), and so are sums of such
integers that stay within the bound (`add_finite_intCast`).
-/

namespace CommentSearch.Number

/-- An integer of up to 53 binary digits has no place behind the point. -/
theorem lastPlace_one_nonpos {n : Nat} (h : n < 2 ^ 53) : lastPlace n 1 ≤ 0 := by
  have hlog : n.log2 < 53 := by
    by_cases hn : n = 0
    · subst hn
      decide
    · exact (Nat.log2_lt hn).2 h
  have hone : Nat.log2 1 = 0 := by decide
  unfold lastPlace
  simp only [hone]
  split <;> omega

theorem nearestEven_one (n : Nat) : nearestEven n 1 = n := by
  unfold nearestEven
  simp only [Nat.div_one, Nat.mod_one]
  rfl

theorem ofRat_intCast {n : Int} (h : n.natAbs < 2 ^ 53) : ofRat n = finite n := by
  have hplace := Int.toNat_of_nonpos (lastPlace_one_nonpos h)
  have hpow (a b : Nat) : Nat.pow a b = a ^ b := rfl
  unfold ofRat
  simp only [Rat.num_intCast, Rat.den_intCast, significand, hplace, hpow, pow_zero, mul_one,
    nearestEven_one]
  -- the scale that the number is rounded at cancels, whatever it is
  generalize (-lastPlace n.natAbs 1).toNat = k
  have hbig : n.natAbs < 2 ^ 1024 := lt_of_lt_of_le h (pow_le_pow_right₀ one_le_two (by decide))
  have hmagnitude : mkRat ((n.natAbs * 2 ^ k : Nat) : Int) (2 ^ k) = (n.natAbs : Rat) := by
    have hne : (2 : Rat) ^ k ≠ 0 := pow_ne_zero k two_ne_zero
    rw [Rat.mkRat_eq_div, Int.cast_natCast, Nat.cast_mul, Nat.cast_pow, Nat.cast_ofNat]
    exact mul_div_cancel_right₀ _ hne
  have hsign : (n.sign : Rat) * (n.natAbs : Rat) = n := by
    rw [← Int.cast_natCast, ← Int.cast_mul, Int.sign_mul_natAbs]
  rw [if_neg (not_le_of_gt (Nat.mul_lt_mul_of_pos_right hbig (Nat.two_pow_pos k))), Nat.cast_one,
    mul_one, hmagnitude, hsign]

/-- An integer of up to 53 binary digits is not rounded. -/
theorem ofInt_eq {n : Int} (h : n.natAbs < 2 ^ 53) : ofInt n = finite n := ofRat_intCast h

/-- Integers whose sum has up to 53 binary digits are added exactly. -/
theorem add_finite_intCast {m n : Int} (h : (m + n).natAbs < 2 ^ 53) :
    add (finite m) (finite n) = finite ((m + n : Int) : Rat) := by
  unfold add
  rw [← ofRat_intCast h]
  push_cast
  rfl

theorem toInt?_finite_intCast (n : Int) : (finite n).toInt? = some n := by
  simp [toInt?]

theorem trunc_finite_intCast (n : Int) : (finite n).trunc = finite n := by
  simp [trunc]

end CommentSearch.Number
