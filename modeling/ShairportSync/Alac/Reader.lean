import ShairportSync.Encoding.Bits

/-!
# The bit reader of the ALAC decoder

The reader is a pointer into the input buffer and the number of bits of the byte there that were
read. It takes up to sixteen bits out of a window of three bytes. The buffer is a memory that the
pointer can leave on both sides, as a bit that was read too many is given back.

A reader is known by its position in bits: every function reads the bits from there on and moves the
position.
-/

namespace ShairportSync

open Bits

namespace Alac

/-- `input_buffer`, counted from the start of the frame, and `input_buffer_bitaccumulator` -/
@[ext]
structure Input where
  inputBuffer : ℤ
  bitAccumulator : ℕ
  bitAccumulator_lt : bitAccumulator < 8

theorem and_seven_lt (n : ℕ) : n &&& 7 < 8 := Nat.lt_succ_of_le Nat.and_le_right

variable (memory : ℤ → BitVec 8)

def readbits16 (bits : ℕ) (input : Input) : ℕ × Input :=
  let result := (memory input.inputBuffer).toNat <<< 16 |||
    (memory (input.inputBuffer + 1)).toNat <<< 8 ||| (memory (input.inputBuffer + 2)).toNat
  let result := (result <<< input.bitAccumulator &&& 0x00ffffff) >>> (24 - bits)
  let newAccumulator := input.bitAccumulator + bits
  (result, ⟨input.inputBuffer + (newAccumulator >>> 3 : ℕ), newAccumulator &&& 7, and_seven_lt _⟩)

def readbits (bits : ℕ) (input : Input) : ℕ × Input :=
  if bits > 16 then
    let high := readbits16 memory 16 input
    let low := readbits16 memory (bits - 16) high.2
    (high.1 <<< (bits - 16) % 2 ^ 32 ||| low.1, low.2)
  else readbits16 memory bits input

def readbit (input : Input) : Bool × Input :=
  let result := (memory input.inputBuffer).toNat <<< input.bitAccumulator >>> 7 &&& 1
  let newAccumulator := input.bitAccumulator + 1
  (result ≠ 0, ⟨input.inputBuffer + (newAccumulator / 8 : ℕ), newAccumulator % 8,
    Nat.mod_lt _ (by decide)⟩)

/-- `unreadbits`: the remainder of a negative number is not negative, so it is never turned. -/
def unreadbits (bits : ℕ) (input : Input) : Input :=
  let newAccumulator := (input.bitAccumulator : ℤ) - bits
  ⟨input.inputBuffer + newAccumulator >>> (3 : ℕ), (newAccumulator % 8).toNat, by omega⟩

/-! ## Positions -/

def inputAt (q : ℤ) : Input := ⟨q / 8, (q % 8).toNat, by omega⟩

def Input.position (input : Input) : ℤ := 8 * input.inputBuffer + input.bitAccumulator

@[simp]
theorem inputAt_position (input : Input) : inputAt input.position = input := by
  have hlt := input.bitAccumulator_lt
  ext
  · change (8 * input.inputBuffer + input.bitAccumulator) / 8 = input.inputBuffer
    omega
  · change ((8 * input.inputBuffer + input.bitAccumulator) % 8).toNat = input.bitAccumulator
    omega

/-- A reader is moved by `n` bits when `a` bits of its byte were read. -/
theorem inputAt_add (q : ℤ) (n : ℕ) :
    inputAt (q + n) =
      ⟨q / 8 + (((q % 8).toNat + n) / 8 : ℕ), ((q % 8).toNat + n) % 8,
        Nat.mod_lt _ (by decide)⟩ := by
  ext
  · change (q + n) / 8 = q / 8 + (((q % 8).toNat + n) / 8 : ℕ)
    omega
  · change ((q + n) % 8).toNat = ((q % 8).toNat + n) % 8
    omega

theorem unreadbits_inputAt (bits : ℕ) (q : ℤ) :
    unreadbits bits (inputAt q) = inputAt (q - bits) := by
  have hdiv (a : ℤ) : a >>> (3 : ℕ) = a / 8 := Int.shiftRight_eq_div_pow a 3
  ext
  · change q / 8 + (((q % 8).toNat : ℤ) - bits) >>> (3 : ℕ) = (q - bits) / 8
    rw [hdiv]
    omega
  · change (((q % 8).toNat - bits : ℤ) % 8).toNat = ((q - bits) % 8).toNat
    omega

/-! ## Reading -/

theorem window_three (byte : ℤ) :
    (memory byte).toNat <<< 16 ||| (memory (byte + 1)).toNat <<< 8 ||| (memory (byte + 2)).toNat =
      toNat (window memory (8 * byte) 24) := by
  have h1 := (memory (byte + 1)).isLt
  have h2 := (memory (byte + 2)).isLt
  have hsum : (memory byte).toNat <<< 16 ||| (memory (byte + 1)).toNat <<< 8 =
      ((memory byte).toNat * 256 + (memory (byte + 1)).toNat) <<< 8 := by
    rw [← Nat.shiftLeft_add_eq_or_of_lt (by rw [Nat.shiftLeft_eq]; omega), Nat.shiftLeft_eq,
      Nat.shiftLeft_eq, Nat.shiftLeft_eq]
    ring
  have hsecond := toNat_window_bytes memory (byte + 1) 1
  have hthird := toNat_window_byte memory (byte + 1 + 1)
  rw [show byte + 1 + 1 = byte + 2 by ring] at hsecond hthird
  rw [hsum, ← Nat.shiftLeft_add_eq_or_of_lt h2, Nat.shiftLeft_eq, toNat_window_bytes memory byte 2,
    hsecond, Nat.mul_one, hthird]
  ring

theorem readbits16_inputAt {bits : ℕ} (h : bits ≤ 16) (q : ℤ) :
    readbits16 memory bits (inputAt q) = (toNat (window memory q bits), inputAt (q + bits)) := by
  have hacc := (inputAt q).bitAccumulator_lt
  have hq : 8 * (q / 8) + ((q % 8).toNat : ℤ) = q := by omega
  have hmask : (0x00ffffff : ℕ) = 2 ^ 24 - 1 := by decide
  have hafter : ∃ after, 24 = (q % 8).toNat + bits + after := ⟨24 - bits - (q % 8).toNat, by omega⟩
  obtain ⟨after, hafter⟩ := hafter
  have hshift : 24 - bits = (q % 8).toNat + after := by omega
  refine Prod.ext ?_ ?_
  · change (((memory (q / 8)).toNat <<< 16 ||| (memory (q / 8 + 1)).toNat <<< 8 |||
      (memory (q / 8 + 2)).toNat) <<< (q % 8).toNat &&& 0x00ffffff) >>> (24 - bits) = _
    rw [window_three, hmask, Nat.and_two_pow_sub_one_eq_mod, Nat.shiftRight_eq_div_pow,
      Nat.shiftLeft_eq, hshift, hafter, toNat_window_middle, hq]
  · rw [inputAt_add]
    ext
    · exact congrArg (fun n : ℕ => q / 8 + (n : ℤ)) (Nat.shiftRight_eq_div_pow _ 3)
    · change (((q % 8).toNat + bits) &&& 7) = _
      exact Nat.and_two_pow_sub_one_eq_mod _ 3

theorem readbits_inputAt {bits : ℕ} (h : bits ≤ 32) (q : ℤ) :
    readbits memory bits (inputAt q) = (toNat (window memory q bits), inputAt (q + bits)) := by
  rw [readbits]
  split_ifs with hlong
  · have hhigh := toNat_lt (window memory q 16)
    have hlow := toNat_lt (window memory (q + (16 : ℕ)) (bits - 16))
    rw [window_length] at hhigh hlow
    have hsum : bits = 16 + (bits - 16) := by omega
    have hfit : toNat (window memory q 16) <<< (bits - 16) < 2 ^ 32 := by
      rw [Nat.shiftLeft_eq]
      calc _ < 2 ^ 16 * 2 ^ (bits - 16) := Nat.mul_lt_mul_of_pos_right hhigh (Nat.two_pow_pos _)
        _ = 2 ^ bits := by rw [← Nat.pow_add, ← hsum]
        _ ≤ 2 ^ 32 := Nat.pow_le_pow_right (by decide) h
    have hposition : q + (16 : ℕ) + (bits - 16 : ℕ) = q + bits := by omega
    have hsecond := readbits16_inputAt memory (show bits - 16 ≤ 16 by omega) (q + (16 : ℕ))
    simp only [readbits16_inputAt memory (le_refl 16), hsecond]
    rw [hposition, Nat.mod_eq_of_lt hfit, ← Nat.shiftLeft_add_eq_or_of_lt hlow, Nat.shiftLeft_eq]
    have hwindow : window memory q bits =
        window memory q 16 ++ window memory (q + (16 : ℕ)) (bits - 16) := by
      rw [← window_add, ← hsum]
    rw [hwindow, toNat_append, window_length]
  · exact readbits16_inputAt memory (by omega) q

theorem readbit_inputAt (q : ℤ) :
    readbit memory (inputAt q) = (bitAt memory q, inputAt (q + 1)) := by
  have hacc : (q % 8).toNat ≤ 7 := by omega
  have hindex : (7 - q % 8).toNat = 7 - (q % 8).toNat := by omega
  refine Prod.ext ?_ (inputAt_add q 1).symm
  change decide ((memory (q / 8)).toNat <<< (q % 8).toNat >>> 7 &&& 1 ≠ 0) = _
  have hone : ∀ n : ℕ, decide (n >>> 7 &&& 1 ≠ 0) = n.testBit 7 := fun n => by
    rw [Nat.testBit, Nat.and_comm, bne]
    simp only [ne_eq, decide_not, beq_eq_decide]
  rw [hone, Nat.testBit_shiftLeft, bitAt, hindex]
  simp [hacc]

/-! ## Stored bits -/

variable {memory}

theorem readbits_ofNat {bits v : ℕ} {q : ℤ} (hbits : bits ≤ 32)
    (h : Stored memory q (ofNat bits v)) (hv : v < 2 ^ bits) :
    readbits memory bits (inputAt q) = (v, inputAt (q + bits)) := by
  rw [readbits_inputAt memory hbits, h.toNat_window hv]

end Alac

end ShairportSync
