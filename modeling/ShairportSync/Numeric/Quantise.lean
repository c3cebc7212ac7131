import Mathlib.Algebra.Order.Group.Int
import Mathlib.Algebra.Order.Ring.Abs
import Mathlib.Algebra.Order.Ring.Int
import Mathlib.Data.BitVec
import Mathlib.Tactic.Linarith
import Mathlib.Tactic.Ring

/-!
# Quantising, saturating and signed bytes

A number is quantised by division by a step, rounded down. If less than a step is added before, with
saturation at bounds that it is within, what comes out is off by at most one.

A number in two's complement is written as some bytes, and can be read back if it is in their range.
-/

namespace Numeric

/-! ## Saturation -/

def saturate (lo hi x : ℤ) : ℤ := max lo (min hi x)

section Saturate

variable {lo hi x k : ℤ}

theorem saturate_of_lt (hlo : lo ≤ hi) (h : hi < x) : saturate lo hi x = hi := by
  rw [saturate, min_eq_left h.le, max_eq_right hlo]

theorem saturate_of_gt (hlo : lo ≤ hi) (h : x < lo) : saturate lo hi x = lo := by
  rw [saturate, min_eq_right (h.le.trans hlo), max_eq_left h.le]

theorem saturate_of_mem (hlo : lo ≤ x) (hhi : x ≤ hi) : saturate lo hi x = x := by
  rw [saturate, min_eq_right hhi, max_eq_right hlo]

theorem saturate_ediv (hk : 0 < k) (lo hi x : ℤ) :
    saturate lo hi x / k = saturate (lo / k) (hi / k) (x / k) := by
  have hmono : Monotone fun y : ℤ => y / k := fun _ _ h => Int.ediv_le_ediv hk h
  rw [saturate, saturate]
  exact (hmono.map_max).trans (congrArg (max _) hmono.map_min)

theorem abs_saturate_ediv_sub_le {t : ℤ} (hk : 0 < k) (ht : |t| < k) (hlo : lo ≤ x) (hhi : x ≤ hi) :
    |saturate lo hi (x + t) / k - x / k| ≤ 1 := by
  obtain ⟨hneg, hpos⟩ := abs_lt.mp ht
  have hle : saturate lo hi (x + t) ≤ x + k :=
    max_le (by linarith) ((min_le_right _ _).trans (by linarith))
  have hge : x - k ≤ saturate lo hi (x + t) :=
    (le_min (by linarith) (by linarith)).trans (le_max_right _ _)
  have hup : (x + k) / k = x / k + 1 := by
    rw [Int.add_ediv_of_dvd_right (dvd_refl k), Int.ediv_self hk.ne']
  have hdown : (x - k) / k = x / k - 1 := by
    rw [Int.sub_ediv_of_dvd x (dvd_refl k), Int.ediv_self hk.ne']
  have hleDiv := Int.ediv_le_ediv hk hle
  have hgeDiv := Int.ediv_le_ediv hk hge
  rw [abs_le]
  constructor <;> linarith

end Saturate

/-! ## Bytes -/

/-- The low bytes of a number, the least significant one first. -/
def leBytes : ℕ → ℤ → List (BitVec 8)
  | 0, _ => []
  | n + 1, v => BitVec.ofInt 8 v :: leBytes n (v / 256)

def leValue : List (BitVec 8) → ℤ
  | [] => 0
  | b :: bytes => b.toNat + 256 * leValue bytes

def signedValue (bytes : List (BitVec 8)) : ℤ := (leValue bytes).bmod (256 ^ bytes.length)

theorem length_leBytes (n : ℕ) (v : ℤ) : (leBytes n v).length = n := by
  induction n generalizing v with
  | zero => rfl
  | succ n ih => rw [leBytes, List.length_cons, ih]

theorem leValue_leBytes (n : ℕ) (v : ℤ) : leValue (leBytes n v) = v % 256 ^ n := by
  induction n generalizing v with
  | zero => rw [leBytes, leValue, pow_zero, Int.emod_one]
  | succ n ih =>
      have hbyte : ((BitVec.ofInt 8 v).toNat : ℤ) = v % 256 := by
        rw [BitVec.toNat_ofInt]
        omega
      have hdiv : v / (256 * 256 ^ n) = v / 256 / 256 ^ n :=
        (Int.ediv_ediv_of_nonneg (by decide)).symm
      rw [leBytes, leValue, ih, hbyte, pow_succ', Int.emod_def v (256 * 256 ^ n), hdiv,
        Int.emod_def v 256, Int.emod_def (v / 256)]
      ring

theorem signedValue_leBytes {n : ℕ} {v : ℤ} (hlo : -256 ^ n ≤ 2 * v) (hhi : 2 * v < 256 ^ n) :
    signedValue (leBytes n v) = v := by
  have hcast : ((256 ^ n : ℕ) : ℤ) = 256 ^ n := by norm_cast
  rw [signedValue, leValue_leBytes, length_leBytes, ← hcast, Int.emod_bmod]
  refine Int.bmod_eq_of_le_mul_two ?_ ?_ <;> rw [hcast] <;> linarith

end Numeric
