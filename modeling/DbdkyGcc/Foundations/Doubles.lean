import Mathlib

/-!
# Arithmetic in double precision

A result is rounded after every operation. Of the rounding nothing is used but that it keeps the
order and that integers of up to 53 bits are exact; on these the arithmetic is the one of the
integers.
-/

namespace DbdkyGcc.Foundations

structure Doubles where
  round : ℚ → ℚ
  round_mono : Monotone round
  round_int : ∀ n : ℤ, |n| ≤ 2 ^ 53 → round n = n

namespace Doubles

variable (fp : Doubles)

/-- The conversion from an integer type. -/
def ofInt (n : ℤ) : ℚ := fp.round n

def mul (a b : ℚ) : ℚ := fp.round (a * b)

/-- The conversion to an integer type, towards zero. -/
def toInt (a : ℚ) : ℤ := a.num.tdiv a.den

theorem ofInt_eq {n : ℤ} (h : |n| ≤ 2 ^ 53) : fp.ofInt n = n := fp.round_int n h

theorem mul_int {a b : ℤ} (h : |a * b| ≤ 2 ^ 53) : fp.mul a b = (a * b : ℤ) := by
  rw [mul, ← Int.cast_mul]
  exact fp.round_int _ h

theorem mul_nonneg {a b : ℚ} (ha : 0 ≤ a) (hb : 0 ≤ b) : 0 ≤ fp.mul a b := by
  have hzero : fp.round 0 = 0 := by simpa using fp.round_int 0 (by norm_num)
  rw [mul, ← hzero]
  exact fp.round_mono (Rat.mul_nonneg ha hb)

theorem toInt_int (n : ℤ) : toInt n = n := by
  rw [toInt, Rat.num_intCast, Rat.den_intCast, Nat.cast_one, Int.tdiv_one]

theorem toInt_nonneg {a : ℚ} (h : 0 ≤ a) : 0 ≤ toInt a :=
  Int.tdiv_nonneg (Rat.num_nonneg.mpr h) (Int.natCast_nonneg _)

/-- Exact arithmetic, to evaluate with. -/
def rational : Doubles := ⟨id, monotone_id, fun _ _ => rfl⟩

end Doubles

end DbdkyGcc.Foundations
