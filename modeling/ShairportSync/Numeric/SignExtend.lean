import Mathlib.Data.BitVec
import Mathlib.Data.Int.ModEq

/-!
# Sign extension with masks

The lower bits of a word are taken for a signed number by looking at the highest of them, and
setting or clearing all bits above it. Of all the numbers with the same lower bits the result is the
one nearest to zero.
-/

namespace Numeric

variable {w n : ℕ}

/-- A word with the lower `n` bits set. -/
def lowMask (w n : ℕ) : BitVec w := BitVec.twoPow w n - 1

/-- The signed number in the lower `n + 1` bits of a word. -/
def extendSign (n : ℕ) (word : BitVec w) : BitVec w :=
  if word &&& BitVec.twoPow w n ≠ 0 then word ||| ~~~lowMask w (n + 1)
  else word &&& lowMask w (n + 1)

theorem toNat_lowMask (hn : n < w) : (lowMask w n).toNat = 2 ^ n - 1 := by
  have hlt : 2 ^ n < 2 ^ w := Nat.pow_lt_pow_right (by decide) hn
  have hpos := Nat.two_pow_pos n
  have hone : (1 : BitVec w).toNat = 1 :=
    (BitVec.toNat_ofNat 1 w).trans (Nat.mod_eq_of_lt (by omega))
  have hsum : 2 ^ w - 1 + 2 ^ n = 2 ^ w + (2 ^ n - 1) := by omega
  rw [lowMask, BitVec.toNat_sub, BitVec.toNat_twoPow, hone, Nat.mod_eq_of_lt hlt, hsum,
    Nat.add_mod_left, Nat.mod_eq_of_lt (by omega)]

theorem getLsbD_lowMask (hn : n < w) (i : ℕ) : (lowMask w n).getLsbD i = decide (i < n) := by
  rw [BitVec.getLsbD, toNat_lowMask hn, Nat.testBit_two_pow_sub_one]

theorem and_twoPow_ne_zero_iff (hn : n < w) (word : BitVec w) :
    word &&& BitVec.twoPow w n ≠ 0 ↔ word.getLsbD n = true := by
  have hpos : BitVec.twoPow w n ≠ 0 := fun hzero => by
    have hbit := congrArg (fun b : BitVec w => b.getLsbD n) hzero
    simp [hn] at hbit
  rw [BitVec.and_twoPow]
  split
  · next hbit => exact iff_of_true hpos hbit
  · next hbit => exact iff_of_false (fun hne => hne rfl) hbit

theorem extendSign_eq_signExtend (hn : n + 1 < w) (word : BitVec w) :
    extendSign n word = (word.setWidth (n + 1)).signExtend w := by
  have hmsb : (word.setWidth (n + 1)).msb = word.getLsbD n := by
    rw [BitVec.msb_eq_getLsbD_last, BitVec.getLsbD_setWidth]
    simp
  apply BitVec.eq_of_getLsbD_eq
  intro i hi
  rw [BitVec.getLsbD_signExtend, hmsb, BitVec.getLsbD_setWidth, extendSign]
  split
  · next hbit =>
    rw [(and_twoPow_ne_zero_iff (by omega) word).mp hbit, BitVec.getLsbD_or, BitVec.getLsbD_not,
      getLsbD_lowMask hn]
    by_cases hlow : i < n + 1 <;> simp [hlow, hi]
  · next hbit =>
    rw [Bool.eq_false_iff.mpr (mt (and_twoPow_ne_zero_iff (by omega) word).mpr hbit),
      BitVec.getLsbD_and, getLsbD_lowMask hn]
    by_cases hlow : i < n + 1 <;> simp [hlow, hi]

theorem toInt_extendSign (hn : n + 1 < w) (word : BitVec w) :
    (extendSign n word).toInt = word.toInt.bmod (2 ^ (n + 1)) := by
  rw [extendSign_eq_signExtend hn, BitVec.toInt_signExtend_of_le hn.le, BitVec.toInt_setWidth,
    BitVec.toInt_eq_toNat_bmod, Int.bmod_bmod_of_dvd (Nat.pow_dvd_pow 2 hn.le)]

theorem toNat_and_lowMask (hn : n < w) (word : BitVec w) :
    (word &&& lowMask w n).toNat = word.toNat % 2 ^ n := by
  rw [BitVec.toNat_and, toNat_lowMask hn, Nat.and_two_pow_sub_one_eq_mod]

end Numeric
