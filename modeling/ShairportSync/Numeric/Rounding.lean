import Mathlib.Algebra.Order.Field.Rat
import Mathlib.Algebra.Order.Floor.Ring
import Mathlib.Data.Rat.Floor
import Mathlib.Tactic.Linarith

/-!
# Rounded arithmetic

What a product of two binary floating-point numbers is depends on how it is rounded. Short of the
ends of the range of exponents the rounding is monotone, it leaves alone what has been rounded, and
it does the same at every power of two.
-/

namespace Numeric

/-- A rounding to numbers with a fixed number of binary digits -/
structure Rounding where
  round : ℚ → ℚ
  mono : ∀ {x y : ℚ}, x ≤ y → round x ≤ round y
  round_round : ∀ x, round (round x) = round x
  round_double : ∀ x, round (2 * x) = 2 * round x

namespace Rounding

variable (r : Rounding)

def exact : Rounding := ⟨id, id, fun _ => rfl, fun _ => rfl⟩

@[simp] theorem round_zero : r.round 0 = 0 := by
  have h := r.round_double 0
  rw [mul_zero] at h
  linarith

theorem round_nonneg {x : ℚ} (hx : 0 ≤ x) : 0 ≤ r.round x := by
  rw [← r.round_zero]
  exact r.mono hx

theorem round_twoPow_mul (n : ℕ) (x : ℚ) : r.round (2 ^ n * x) = 2 ^ n * r.round x := by
  induction n with
  | zero => rw [pow_zero, one_mul, one_mul]
  | succ n ih => rw [pow_succ', mul_assoc, r.round_double, ih, mul_assoc]

theorem le_round {x y : ℚ} (h : r.round x ≤ y) : r.round x ≤ r.round y := by
  rw [← r.round_round x]
  exact r.mono h

theorem round_le {x y : ℚ} (h : x ≤ r.round y) : r.round x ≤ r.round y := by
  rw [← r.round_round y]
  exact r.mono h

end Rounding

/-- The conversion to an integer, towards zero -/
def truncate (q : ℚ) : ℤ := if 0 ≤ q then ⌊q⌋ else ⌈q⌉

theorem truncate_of_nonneg {q : ℚ} (h : 0 ≤ q) : truncate q = ⌊q⌋ := if_pos h

theorem truncate_nonneg {q : ℚ} (h : 0 ≤ q) : 0 ≤ truncate q := by
  rw [truncate_of_nonneg h]
  exact Int.floor_nonneg.mpr h

theorem truncate_mono {p q : ℚ} (hp : 0 ≤ p) (h : p ≤ q) : truncate p ≤ truncate q := by
  rw [truncate_of_nonneg hp, truncate_of_nonneg (hp.trans h)]
  exact Int.floor_mono h

theorem le_truncate {z : ℤ} {q : ℚ} (hq : 0 ≤ q) : z ≤ truncate q ↔ (z : ℚ) ≤ q := by
  rw [truncate_of_nonneg hq, Int.le_floor]

theorem truncate_lt {z : ℤ} {q : ℚ} (hq : 0 ≤ q) : truncate q < z ↔ q < (z : ℚ) := by
  rw [truncate_of_nonneg hq, Int.floor_lt]

end Numeric
