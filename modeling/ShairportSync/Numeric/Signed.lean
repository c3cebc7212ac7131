import Mathlib.Data.Int.ModEq
import Mathlib.Tactic.Ring

/-!
# Signed words as numbers

`signed w v` is what a signed word of `w` bits holds after `v` was put into it. Two numbers leave
the same in the word if they differ by a multiple of `2 ^ w`, so a computation that wraps at every
step ends with the value that it would have had without.

Shifting the lower bits of a word up to its sign and down again extends their sign: `signed_shift`.
-/

namespace Numeric

/-- The value of a signed word of `w` bits -/
def signed (w : ℕ) (v : ℤ) : ℤ := v.bmod (2 ^ w)

/-- The values of a signed word of `w + 1` bits -/
def SignedRange (w : ℕ) (v : ℤ) : Prop := -(2 ^ w) ≤ v ∧ v < 2 ^ w

theorem signed_of_range {w : ℕ} {v : ℤ} (h : SignedRange w v) : signed (w + 1) v = v := by
  obtain ⟨hle, hlt⟩ := h
  have hpow : ((2 ^ (w + 1) : ℕ) : ℤ) = 2 * 2 ^ w := by
    push_cast
    ring
  exact Int.bmod_eq_of_le_mul_two (by omega) (by omega)

theorem signed_range (w : ℕ) (v : ℤ) : SignedRange w (signed (w + 1) v) := by
  have hpos : 0 < 2 ^ (w + 1) := Nat.two_pow_pos _
  have hpow : ((2 ^ (w + 1) : ℕ) : ℤ) = 2 * 2 ^ w := by
    push_cast
    ring
  have hle := @Int.le_bmod v _ hpos
  have hlt := @Int.bmod_lt v _ hpos
  constructor <;> rw [signed] <;> omega

theorem SignedRange.mono {m n : ℕ} {v : ℤ} (h : SignedRange m v) (hmn : m ≤ n) :
    SignedRange n v := by
  have hpow : (2 : ℤ) ^ m ≤ 2 ^ n := by exact_mod_cast Nat.pow_le_pow_right (by decide) hmn
  obtain ⟨hle, hlt⟩ := h
  exact ⟨by omega, by omega⟩

/-! ## Congruence -/

theorem signed_modEq (w : ℕ) (v : ℤ) : signed w v ≡ v [ZMOD 2 ^ w] := by
  have h := @Int.bmod_emod v (2 ^ w)
  rw [Nat.cast_pow, Nat.cast_ofNat] at h
  exact h

theorem signed_eq_iff {w : ℕ} {a b : ℤ} : signed w a = signed w b ↔ a ≡ b [ZMOD 2 ^ w] := by
  constructor
  · intro h
    exact (signed_modEq w a).symm.trans (h ▸ signed_modEq w b)
  · intro h
    have hcast : ((2 ^ w : ℕ) : ℤ) = 2 ^ w := by push_cast; rfl
    rw [signed, signed, ← Int.emod_bmod a, ← Int.emod_bmod b, hcast, h]

theorem signed_signed {m n : ℕ} (h : m ≤ n) (v : ℤ) : signed m (signed n v) = signed m v :=
  signed_eq_iff.mpr ((signed_modEq n v).of_dvd (pow_dvd_pow 2 h))

theorem signed_add_signed {m n : ℕ} (h : m ≤ n) (a b : ℤ) :
    signed m (a + signed n b) = signed m (a + b) :=
  signed_eq_iff.mpr (((signed_modEq n b).of_dvd (pow_dvd_pow 2 h)).add_left a)

theorem signed_eq_of_modEq {w : ℕ} {a v : ℤ} (h : a ≡ v [ZMOD 2 ^ (w + 1)])
    (hv : SignedRange w v) : signed (w + 1) a = v :=
  (signed_eq_iff.mpr h).trans (signed_of_range hv)

/-! ## Shifts -/

theorem signed_shift {m n : ℕ} (hm : 0 < m) (h : m ≤ n) (v : ℤ) :
    signed n (v * 2 ^ (n - m)) / 2 ^ (n - m) = signed m v := by
  obtain ⟨m, rfl⟩ := Nat.exists_eq_succ_of_ne_zero hm.ne'
  obtain ⟨c, rfl⟩ := Nat.exists_eq_add_of_le h
  have hsub : m + 1 + c - (m + 1) = c := by omega
  have hpos : (0 : ℤ) < 2 ^ c := Int.pow_pos (by decide)
  have hrange := signed_range m v
  have hscaled : signed (m + 1 + c) (v * 2 ^ c) = signed (m + 1) v * 2 ^ c := by
    have hword : m + 1 + c = m + c + 1 := by omega
    rw [hword]
    refine signed_eq_of_modEq ?_ ⟨?_, ?_⟩
    · have hpow : (2 : ℤ) ^ (m + c + 1) = 2 ^ (m + 1) * 2 ^ c := by
        rw [← pow_add, ← hword]
      rw [hpow]
      exact (signed_modEq (m + 1) v).symm.mul_right'
    · calc -(2 ^ (m + c)) = -(2 ^ m) * (2 : ℤ) ^ c := by rw [pow_add]; ring
        _ ≤ _ := Int.mul_le_mul_of_nonneg_right hrange.1 hpos.le
    · calc _ < 2 ^ m * (2 : ℤ) ^ c := Int.mul_lt_mul_of_pos_right hrange.2 hpos
        _ = 2 ^ (m + c) := by rw [pow_add]
  rw [hsub, Nat.succ_eq_add_one, hscaled, Int.mul_ediv_cancel _ hpos.ne']

end Numeric
