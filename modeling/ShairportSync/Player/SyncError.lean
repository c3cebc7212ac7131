import ShairportSync.Numeric.SignExtend

/-!
# The sync error

The player scales two frame numbers of 32 bits to the rate of the output, in 64 bits, and takes the
difference with the delay of the output. The scaled numbers still wrap, in 32 bits and those of the
ratio, so that the difference has to be sign-extended from there.
-/

namespace ShairportSync

namespace Player

open Numeric

/-! ## The code -/

def outputRtptimeSignBit (outputSampleRatio : ℕ) : ℕ :=
  match outputSampleRatio with
  | 1 => 31
  | 2 => 32
  | 4 => 33
  | 8 => 34
  | _ => 31

def outputRtptimeMask (outputSampleRatio : ℕ) : BitVec 64 :=
  BitVec.twoPow 64 (outputRtptimeSignBit outputSampleRatio + 1) - 1

def outputRtptimeSignMask (outputSampleRatio : ℕ) : BitVec 64 :=
  BitVec.twoPow 64 (outputRtptimeSignBit outputSampleRatio)

/-- An underrun is ignored. -/
def currentDelay (lDelay : BitVec 64) : BitVec 64 := if 0 ≤ lDelay.toInt then lDelay else 0

/-- The error of a frame that is about to be played, in frames of the output. It is positive if the
frame is late. -/
def syncError (outputSampleRatio : ℕ) (shouldBeFrame32 givenTimestamp : BitVec 32)
    (lDelay : BitVec 64) : BitVec 64 :=
  let ratio := BitVec.ofNat 64 outputSampleRatio
  let shouldBeFrame := shouldBeFrame32.setWidth 64 * ratio
  let willBeFrame := (givenTimestamp.setWidth 64 * ratio - currentDelay lDelay) &&&
    outputRtptimeMask outputSampleRatio
  let difference := shouldBeFrame - willBeFrame
  if difference &&& outputRtptimeSignMask outputSampleRatio ≠ 0 then
    difference ||| ~~~outputRtptimeMask outputSampleRatio
  else difference &&& outputRtptimeMask outputSampleRatio

/-! ## The nearest difference -/

section Nearest

variable {ratio : ℕ}

theorem cycle_eq (hratio : ratio ∈ [1, 2, 4, 8]) :
    2 ^ (outputRtptimeSignBit ratio + 1) = ratio * 2 ^ 32 ∧
      outputRtptimeSignBit ratio + 1 < 64 := by
  simp only [List.mem_cons, List.not_mem_nil, or_false] at hratio
  rcases hratio with rfl | rfl | rfl | rfl <;> decide

theorem toInt_scaled (hratio : ratio ∈ [1, 2, 4, 8]) (frame : BitVec 32) :
    (frame.setWidth 64 * BitVec.ofNat 64 ratio).toInt = frame.toNat * ratio := by
  have hframe := frame.isLt
  have hle : ratio ≤ 8 := by
    simp only [List.mem_cons, List.not_mem_nil, or_false] at hratio
    omega
  have hproduct : frame.toNat * ratio ≤ 2 ^ 32 * 8 := Nat.mul_le_mul hframe.le hle
  have htoNat : (frame.setWidth 64 * BitVec.ofNat 64 ratio).toNat = frame.toNat * ratio := by
    have hsmall : frame.toNat % 2 ^ 64 = frame.toNat := Nat.mod_eq_of_lt (by omega)
    have hsmallRatio : ratio % 2 ^ 64 = ratio := Nat.mod_eq_of_lt (by omega)
    rw [BitVec.toNat_mul, BitVec.toNat_setWidth, BitVec.toNat_ofNat, hsmall, hsmallRatio,
      Nat.mod_eq_of_lt (by omega)]
  rw [BitVec.toInt_eq_toNat_of_lt (by omega), htoNat, Nat.cast_mul]

theorem toInt_sub_modEq {n : ℕ} (hn : n ≤ 64) (a b : BitVec 64) :
    (a - b).toInt ≡ a.toInt - b.toInt [ZMOD 2 ^ n] := by
  have hdvd : (2 : ℤ) ^ n ∣ 2 ^ 64 := pow_dvd_pow 2 hn
  rw [BitVec.toInt_sub]
  exact Int.ModEq.of_dvd hdvd Int.bmod_emod

theorem toInt_modEq_toNat {n : ℕ} (hn : n ≤ 64) (word : BitVec 64) :
    word.toInt ≡ word.toNat [ZMOD 2 ^ n] := by
  have hdvd : (2 : ℤ) ^ n ∣ 2 ^ 64 := pow_dvd_pow 2 hn
  rw [BitVec.toInt_eq_toNat_bmod]
  exact Int.ModEq.of_dvd hdvd Int.bmod_emod

theorem toInt_and_lowMask_modEq {n : ℕ} (hn : n < 64) (word : BitVec 64) :
    (word &&& lowMask 64 n).toInt ≡ word.toInt [ZMOD 2 ^ n] := by
  have hcast : ((word &&& lowMask 64 n).toNat : ℤ) = word.toNat % 2 ^ n := by
    rw [toNat_and_lowMask hn]
    push_cast
    rfl
  calc (word &&& lowMask 64 n).toInt
      ≡ (word &&& lowMask 64 n).toNat [ZMOD 2 ^ n] := toInt_modEq_toNat hn.le _
    _ = word.toNat % 2 ^ n := hcast
    _ ≡ word.toNat [ZMOD 2 ^ n] := Int.mod_modEq _ _
    _ ≡ word.toInt [ZMOD 2 ^ n] := (toInt_modEq_toNat hn.le word).symm

theorem bmod_congr {a b : ℤ} {m : ℕ} (h : a ≡ b [ZMOD m]) : a.bmod m = b.bmod m := by
  rw [← Int.emod_bmod a, h, Int.emod_bmod]

/-- The sync error is the nearest number to zero that the difference may stand for. -/
theorem toInt_syncError (hratio : ratio ∈ [1, 2, 4, 8]) (shouldBe given : BitVec 32)
    (lDelay : BitVec 64) :
    (syncError ratio shouldBe given lDelay).toInt =
      ((shouldBe.toNat : ℤ) * ratio - given.toNat * ratio + (currentDelay lDelay).toInt).bmod
        (ratio * 2 ^ 32) := by
  obtain ⟨hcycle, hbits⟩ := cycle_eq hratio
  generalize hn : outputRtptimeSignBit ratio + 1 = n at hcycle hbits
  have hextend : syncError ratio shouldBe given lDelay =
      extendSign (outputRtptimeSignBit ratio)
        (shouldBe.setWidth 64 * BitVec.ofNat 64 ratio -
          ((given.setWidth 64 * BitVec.ofNat 64 ratio - currentDelay lDelay) &&&
            lowMask 64 n)) := by
    rw [← hn]
    rfl
  have hwill := (toInt_and_lowMask_modEq hbits (given.setWidth 64 * BitVec.ofNat 64 ratio -
    currentDelay lDelay)).trans (toInt_sub_modEq hbits.le _ _)
  have hdifference := (toInt_sub_modEq hbits.le (shouldBe.setWidth 64 * BitVec.ofNat 64 ratio)
    ((given.setWidth 64 * BitVec.ofNat 64 ratio - currentDelay lDelay) &&& lowMask 64 n)).trans
    ((Int.ModEq.refl _).sub hwill)
  rw [toInt_scaled hratio, toInt_scaled hratio, sub_sub_eq_add_sub, add_sub_right_comm]
    at hdifference
  rw [hextend, toInt_extendSign (by omega), hn, ← hcycle]
  exact bmod_congr (by exact_mod_cast hdifference)

theorem toInt_syncError_modEq (hratio : ratio ∈ [1, 2, 4, 8]) (shouldBe given : BitVec 32)
    (lDelay : BitVec 64) :
    (syncError ratio shouldBe given lDelay).toInt ≡
      shouldBe.toNat * ratio - given.toNat * ratio + (currentDelay lDelay).toInt
        [ZMOD (ratio * 2 ^ 32 : ℕ)] := by
  rw [toInt_syncError hratio]
  exact Int.bmod_emod

theorem cycle_cast (ratio : ℕ) : ((ratio * 2 ^ 32 : ℕ) : ℤ) = ratio * 2 ^ 32 := by push_cast; rfl

/-- The sync error is congruent to the difference with the delay, and within half a cycle. If the
frames, counted without wrapping, are within half a cycle of each other, it is their distance. -/
theorem syncError_nearest (hratio : ratio ∈ [1, 2, 4, 8]) (shouldBe given : BitVec 32)
    (lDelay : BitVec 64) :
    (0 ≤ lDelay.toInt → (currentDelay lDelay).toInt = lDelay.toInt) ∧
    (syncError ratio shouldBe given lDelay).toInt ≡
      shouldBe.toNat * ratio - given.toNat * ratio + (currentDelay lDelay).toInt
        [ZMOD ratio * 2 ^ 32] ∧
    -(ratio * 2 ^ 31) ≤ (syncError ratio shouldBe given lDelay).toInt ∧
    (syncError ratio shouldBe given lDelay).toInt < ratio * 2 ^ 31 ∧
    ∀ shouldBeFrame givenFrame : ℤ, shouldBeFrame ≡ shouldBe.toNat [ZMOD 2 ^ 32] →
      givenFrame ≡ given.toNat [ZMOD 2 ^ 32] →
      -(ratio * 2 ^ 31) ≤
        shouldBeFrame * ratio - givenFrame * ratio + (currentDelay lDelay).toInt →
      shouldBeFrame * ratio - givenFrame * ratio + (currentDelay lDelay).toInt < ratio * 2 ^ 31 →
      (syncError ratio shouldBe given lDelay).toInt =
        shouldBeFrame * ratio - givenFrame * ratio + (currentDelay lDelay).toInt := by
  have herror := toInt_syncError hratio shouldBe given lDelay
  have hcongr := toInt_syncError_modEq hratio shouldBe given lDelay
  generalize (syncError ratio shouldBe given lDelay).toInt = error at herror hcongr ⊢
  have hdelay : 0 ≤ lDelay.toInt → (currentDelay lDelay).toInt = lDelay.toInt :=
    fun hnonneg => congrArg BitVec.toInt (if_pos hnonneg)
  generalize (currentDelay lDelay).toInt = delay at herror hcongr hdelay ⊢
  have hpos : 0 < ratio * 2 ^ 32 := by
    obtain ⟨hcycle, -⟩ := cycle_eq hratio
    exact hcycle ▸ Nat.two_pow_pos _
  refine ⟨hdelay, ?_, ?_, ?_, fun S G hS hG hlo hhi => ?_⟩
  · rwa [cycle_cast] at hcongr
  · have hle := @Int.le_bmod (shouldBe.toNat * ratio - given.toNat * ratio + delay) _ hpos
    rw [herror]
    omega
  · have hlt := @Int.bmod_lt (shouldBe.toNat * ratio - given.toNat * ratio + delay) _ hpos
    rw [herror]
    omega
  · have hsame : (shouldBe.toNat : ℤ) * ratio - given.toNat * ratio + delay ≡
        S * ratio - G * ratio + delay [ZMOD (ratio * 2 ^ 32 : ℕ)] := by
      rw [cycle_cast, mul_comm (ratio : ℤ) (2 ^ 32)]
      exact ((hS.symm.mul_right').sub hG.symm.mul_right').add_right delay
    rw [herror, bmod_congr hsame]
    exact Int.bmod_eq_of_le_mul_two (by omega) (by omega)

/-- The frame that is to be played has wrapped, and the one that is given has not. -/
theorem syncError_nearest_wrapped : (syncError 2 3 0xFFFFFFFE 40).toInt = 50 :=
  (syncError_nearest (by decide) 3 0xFFFFFFFE 40).2.2.2.2 (2 ^ 32 + 3) (2 ^ 32 - 2) (by decide)
    (by decide) (by decide) (by decide)

end Nearest

end Player

end ShairportSync
