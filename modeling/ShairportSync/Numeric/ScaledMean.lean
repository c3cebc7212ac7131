import Mathlib.Algebra.BigOperators.Ring.Finset
import Mathlib.Algebra.Order.BigOperators.Group.List
import Mathlib.Algebra.Order.Field.Basic
import Mathlib.Algebra.Order.Ring.Abs
import Mathlib.Data.Nat.Cast.Order.Ring
import Mathlib.Tactic.Linarith
import Mathlib.Tactic.Ring

/-!
# Means of scaled-down numbers

So that a sum of large numbers does not overflow they are divided by a scale before they are added,
and the mean is multiplied by the scale afterwards. Each division leaves out less than one, so the
result is at most the true mean, and above it less twice the scale. The difference of two such means
is then within twice the scale of the mean of the differences.
-/

namespace Numeric

def scaledMean (scale : ℕ) (xs : List ℕ) : ℕ := (xs.map (· / scale)).sum / xs.length * scale

section Natural

variable {scale : ℕ}

theorem sum_scaled_mul_le (scale : ℕ) (xs : List ℕ) :
    (xs.map (· / scale)).sum * scale ≤ xs.sum := by
  induction xs with
  | nil => exact (Nat.zero_mul scale).le
  | cons x xs ih =>
      rw [List.map_cons, List.sum_cons, List.sum_cons, Nat.add_mul]
      exact Nat.add_le_add (Nat.div_mul_le_self x scale) ih

theorem sum_le_sum_scaled (hscale : 0 < scale) (xs : List ℕ) :
    xs.sum ≤ (xs.map (· / scale)).sum * scale + xs.length * (scale - 1) := by
  induction xs with
  | nil => exact Nat.zero_le _
  | cons x xs ih =>
      have hx : x ≤ x / scale * scale + (scale - 1) := by
        have hdiv := Nat.div_add_mod' x scale
        have hmod := Nat.mod_lt x hscale
        omega
      rw [List.map_cons, List.sum_cons, List.sum_cons, List.length_cons, Nat.add_mul, Nat.succ_mul]
      omega

theorem scaledMean_mul_length_le (scale : ℕ) (xs : List ℕ) :
    scaledMean scale xs * xs.length ≤ xs.sum := by
  calc scaledMean scale xs * xs.length
      = (xs.map (· / scale)).sum / xs.length * xs.length * scale := Nat.mul_right_comm _ _ _
    _ ≤ (xs.map (· / scale)).sum * scale := Nat.mul_le_mul_right _ (Nat.div_mul_le_self _ _)
    _ ≤ xs.sum := sum_scaled_mul_le scale xs

theorem scaledMean_le {scale b : ℕ} {xs : List ℕ} (h : ∀ x ∈ xs, x ≤ b) :
    scaledMean scale xs ≤ b := by
  rcases xs.length.eq_zero_or_pos with hzero | hpos
  · rw [scaledMean, hzero, Nat.div_zero, Nat.zero_mul]
    exact Nat.zero_le b
  · have hsum := List.sum_le_card_nsmul xs b h
    rw [nsmul_eq_mul, Nat.cast_id, Nat.mul_comm] at hsum
    exact Nat.le_of_mul_le_mul_right ((scaledMean_mul_length_le scale xs).trans hsum) hpos

theorem sum_lt_scaledMean_add {xs : List ℕ} (hscale : 0 < scale) (hxs : 0 < xs.length) :
    xs.sum < (scaledMean scale xs + 2 * scale) * xs.length := by
  have hsum := sum_le_sum_scaled hscale xs
  have hrest : (xs.map (· / scale)).sum <
      ((xs.map (· / scale)).sum / xs.length + 1) * xs.length := by
    rw [Nat.mul_comm]
    exact Nat.lt_mul_div_succ _ hxs
  have hscaled := Nat.mul_lt_mul_of_pos_right hrest hscale
  have hless : xs.length * (scale - 1) ≤ xs.length * scale :=
    Nat.mul_le_mul_left _ (Nat.sub_le _ _)
  calc xs.sum
      < ((xs.map (· / scale)).sum / xs.length + 1) * xs.length * scale + xs.length * scale := by
        omega
    _ = (scaledMean scale xs + 2 * scale) * xs.length := by
        rw [scaledMean]
        ring

end Natural

section Field

variable {K α : Type*} [Field K]

def mean (xs : List K) : K := xs.sum / xs.length

theorem mean_map_sub (f g : α → K) (xs : List α) :
    mean (xs.map fun x => f x - g x) = mean (xs.map f) - mean (xs.map g) := by
  have hsum : (xs.map fun x => f x - g x).sum = (xs.map f).sum - (xs.map g).sum := by
    induction xs with
    | nil => exact (sub_zero _).symm
    | cons x xs ih =>
        simp only [List.map_cons, List.sum_cons]
        rw [ih, add_sub_add_comm]
  rw [mean, mean, mean, hsum, sub_div, List.length_map, List.length_map, List.length_map]

variable [LinearOrder K] [IsStrictOrderedRing K] {scale : ℕ}

theorem scaledMean_error (f : α → ℕ) {xs : List α} (hscale : 0 < scale) (hxs : 0 < xs.length) :
    (scaledMean scale (xs.map f) : K) ≤ mean (xs.map fun x => (f x : K)) ∧
      mean (xs.map fun x => (f x : K)) < scaledMean scale (xs.map f) + 2 * scale := by
  have hlength : (0 : K) < xs.length := Nat.cast_pos.2 hxs
  have hsum : (xs.map fun x => (f x : K)).sum = ((xs.map f).sum : ℕ) := by
    rw [Nat.cast_list_sum, List.map_map]
    rfl
  have hle := scaledMean_mul_length_le scale (xs.map f)
  have hlt := @sum_lt_scaledMean_add scale (xs.map f) hscale (by rwa [List.length_map])
  rw [List.length_map] at hle hlt
  rw [mean, List.length_map, hsum, le_div_iff₀ hlength, div_lt_iff₀ hlength]
  constructor
  · exact_mod_cast hle
  · exact_mod_cast hlt

/-- Of two scaled means the errors are on the same side. -/
theorem abs_scaledMean_sub_lt (f g : α → ℕ) {xs : List α} (hscale : 0 < scale)
    (hxs : 0 < xs.length) :
    |(scaledMean scale (xs.map f) : K) - scaledMean scale (xs.map g) -
      mean (xs.map fun x => (f x : K) - g x)| < 2 * scale := by
  obtain ⟨hf, hf'⟩ := scaledMean_error (K := K) f hscale hxs
  obtain ⟨hg, hg'⟩ := scaledMean_error (K := K) g hscale hxs
  rw [mean_map_sub, abs_lt]
  constructor
  · linarith
  · linarith

end Field

end Numeric
