import Mathlib.Algebra.Order.Group.Int
import Mathlib.Algebra.Order.Ring.Int
import Mathlib.Tactic.Linarith

/-!
# Rounded quotients

`(a + b / 2) / b` is the quotient of `a` and `b` rounded to the nearest integer. A share of `h`, in
parts of which there are no fewer than `h` to the whole, is told apart from all others when it is
rounded to these parts: it comes back when it is rounded again.
-/

namespace Numeric

def roundedQuotient (a b : ℤ) : ℤ := (a + b / 2) / b

section RoundedQuotient

variable {a b h n v : ℤ}

theorem roundedQuotient_mul_le (hb : 0 < b) : roundedQuotient a b * b ≤ a + b / 2 :=
  Int.ediv_mul_le _ hb.ne'

theorem lt_roundedQuotient_mul_add (hb : 0 < b) : a + b / 2 < roundedQuotient a b * b + b := by
  rw [← add_one_mul]
  exact Int.lt_ediv_add_one_mul_self _ hb

theorem roundedQuotient_mul_self (hb : 0 < b) : roundedQuotient (v * b) b = v := by
  rw [roundedQuotient, Int.add_comm, Int.add_mul_ediv_right _ _ hb.ne',
    Int.ediv_eq_zero_of_lt (by omega) (by omega), zero_add]

theorem roundedQuotient_bounds (hv : 0 ≤ v) (hvh : v ≤ h) (hh : 0 < h) (hn : 0 ≤ n) :
    0 ≤ roundedQuotient (v * n) h ∧ roundedQuotient (v * n) h ≤ n := by
  have hhalf : 0 ≤ h / 2 := by omega
  have hmul : v * n ≤ n * h := by nlinarith
  refine ⟨Int.ediv_nonneg (add_nonneg (mul_nonneg hv hn) hhalf) hh.le, ?_⟩
  refine Int.lt_add_one_iff.mp (Int.ediv_lt_of_lt_mul hh ?_)
  rw [add_one_mul]
  omega

theorem roundedQuotient_roundedQuotient (v : ℤ) (hh : 0 < h) (hhn : h ≤ n) :
    roundedQuotient (h * roundedQuotient (v * n) h) n = v := by
  rcases hhn.eq_or_lt with rfl | hlt
  · rw [roundedQuotient_mul_self hh, mul_comm, roundedQuotient_mul_self hh]
  · have hle := @roundedQuotient_mul_le (v * n) h hh
    have hadd := @lt_roundedQuotient_mul_add (v * n) h hh
    rw [mul_comm (roundedQuotient _ _)] at hle hadd
    have hn : 0 < n := hh.trans hlt
    refine le_antisymm (Int.lt_add_one_iff.mp (Int.ediv_lt_of_lt_mul hn ?_))
      (Int.le_ediv_of_mul_le hn ?_)
    · rw [add_one_mul]
      omega
    · omega

end RoundedQuotient

end Numeric
