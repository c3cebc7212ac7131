import Mathlib.Algebra.Order.Group.Int
import Mathlib.Algebra.Order.Ring.Abs
import Mathlib.Algebra.Order.Ring.Int
import Mathlib.Tactic.Linarith

/-!
# Counting the same interval at two rates

An interval of `x` units at `b` to the second is one of `x * a / b` units at `a` to the
second. `rescale a b x` is this number rounded towards zero, so that it is odd in `x`. From a
coarse rate to a fine one nothing that is told apart becomes the same; there and back is off by at
most one unit, and back and there by less than a coarse unit and a fine one.
-/

namespace Numeric

/-- The interval `x` at `b` to the second, at `a` to the second. -/
def rescale (a b x : ℤ) : ℤ := (x * a).tdiv b

section Rescale

variable {a b : ℤ}

@[simp] theorem rescale_neg (a b x : ℤ) : rescale a b (-x) = -rescale a b x := by
  rw [rescale, neg_mul, Int.neg_tdiv, rescale]

theorem rescale_nonneg (ha : 0 ≤ a) (hb : 0 ≤ b) {x : ℤ} (hx : 0 ≤ x) : 0 ≤ rescale a b x :=
  Int.tdiv_nonneg (mul_nonneg hx ha) hb

theorem rescale_mul_le (ha : 0 ≤ a) {x : ℤ} (hx : 0 ≤ x) : rescale a b x * b ≤ x * a := by
  rw [mul_comm]
  exact Int.mul_tdiv_self_le (mul_nonneg hx ha)

theorem lt_rescale_mul_add (hb : 0 < b) (x : ℤ) : x * a < rescale a b x * b + b := by
  rw [mul_comm (rescale a b x)]
  exact Int.lt_mul_tdiv_self_add hb

theorem abs_rescale (a b x : ℤ) : |rescale a b x| = |rescale a b (abs x)| := by
  rcases abs_choice x with hx | hx
  · rw [hx]
  · rw [hx, rescale_neg, abs_neg]

theorem abs_rescale_mul_le (ha : 0 ≤ a) (hb : 0 ≤ b) (x : ℤ) :
    |rescale a b x| * b ≤ |x| * a := by
  rw [abs_rescale, abs_of_nonneg (rescale_nonneg ha hb (abs_nonneg x))]
  exact rescale_mul_le ha (abs_nonneg x)

theorem rescale_lt_of_nonneg (hb : 0 < b) (hab : b ≤ a) {x y : ℤ} (hx : 0 ≤ x) (hxy : x < y) :
    rescale a b x < rescale a b y := by
  have hle : rescale a b x * b ≤ x * a := rescale_mul_le (by linarith) hx
  have hlt : y * a < rescale a b y * b + b := lt_rescale_mul_add hb y
  have hstep : x * a + a ≤ y * a := by nlinarith
  have hmul : rescale a b x * b < rescale a b y * b := by linarith
  exact lt_of_mul_lt_mul_right hmul hb.le

theorem rescale_lt (hb : 0 < b) (hab : b ≤ a) {x y : ℤ} (hxy : x < y) :
    rescale a b x < rescale a b y := by
  have hneg {x y : ℤ} (hy : y ≤ 0) (hxy : x < y) : rescale a b x < rescale a b y := by
    have hopposite := rescale_lt_of_nonneg hb hab (neg_nonneg.mpr hy) (neg_lt_neg hxy)
    rwa [rescale_neg, rescale_neg, neg_lt_neg_iff] at hopposite
  rcases le_or_gt 0 x with hx | hx
  · exact rescale_lt_of_nonneg hb hab hx hxy
  · rcases le_or_gt y 0 with hy | hy
    · exact hneg hy hxy
    · exact (hneg le_rfl hx).trans (rescale_lt_of_nonneg hb hab le_rfl hy)

theorem abs_rescale_rescale_neg_sub (x : ℤ) :
    |rescale b a (rescale a b (-x)) - -x| = |rescale b a (rescale a b x) - x| := by
  rw [rescale_neg, rescale_neg, ← abs_neg, neg_sub, sub_neg_eq_add, neg_add_eq_sub]

theorem abs_rescale_rescale_sub_le (hb : 0 < b) (hab : b ≤ a) (x : ℤ) :
    |rescale b a (rescale a b x) - x| ≤ 1 := by
  have hnonneg {x : ℤ} (hx : 0 ≤ x) : |rescale b a (rescale a b x) - x| ≤ 1 := by
    have ha : 0 < a := hb.trans_le hab
    have hfine := rescale_nonneg ha.le hb.le hx
    have hle : rescale a b x * b ≤ x * a := rescale_mul_le ha.le hx
    have hlt : x * a < rescale a b x * b + b := lt_rescale_mul_add hb x
    have hle' : rescale b a (rescale a b x) * a ≤ rescale a b x * b := rescale_mul_le hb.le hfine
    have hlt' : rescale a b x * b < rescale b a (rescale a b x) * a + a := lt_rescale_mul_add ha _
    have hupper : rescale b a (rescale a b x) ≤ x := by
      refine le_of_mul_le_mul_right ?_ ha
      linarith
    have hlower : x < rescale b a (rescale a b x) + 2 := by
      refine lt_of_mul_lt_mul_right ?_ ha.le
      linarith
    rw [abs_le]
    constructor <;> linarith
  rcases le_or_gt 0 x with hx | hx
  · exact hnonneg hx
  · rw [← abs_rescale_rescale_neg_sub]
    exact hnonneg (neg_nonneg.mpr hx.le)

theorem abs_rescale_rescale_sub_mul_lt (hb : 0 < b) (hab : b ≤ a) (x : ℤ) :
    |rescale a b (rescale b a x) - x| * b < 2 * a := by
  have hnonneg {x : ℤ} (hx : 0 ≤ x) : |rescale a b (rescale b a x) - x| * b < 2 * a := by
    have ha : 0 < a := hb.trans_le hab
    have hcoarse := rescale_nonneg hb.le ha.le hx
    have hle : rescale b a x * a ≤ x * b := rescale_mul_le hb.le hx
    have hlt : x * b < rescale b a x * a + a := lt_rescale_mul_add ha x
    have hle' : rescale a b (rescale b a x) * b ≤ rescale b a x * a := rescale_mul_le ha.le hcoarse
    have hlt' : rescale b a x * a < rescale a b (rescale b a x) * b + b := lt_rescale_mul_add hb _
    have hnear : |(rescale a b (rescale b a x) - x) * b| < 2 * a := by
      rw [abs_lt, sub_mul]
      constructor <;> linarith
    rwa [abs_mul, abs_of_pos hb] at hnear
  rcases le_or_gt 0 x with hx | hx
  · exact hnonneg hx
  · rw [← abs_rescale_rescale_neg_sub]
    exact hnonneg (neg_nonneg.mpr hx.le)

end Rescale

end Numeric
