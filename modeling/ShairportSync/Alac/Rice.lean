import ShairportSync.Alac.Reader
import ShairportSync.Numeric.Signed
import Mathlib.Data.Nat.Size
import Mathlib.Tactic.Linarith

/-!
# The entropy coder of ALAC

A value is written with a prefix of up to eight ones, which counts the multiples of `2 ^ k - 1`,
and `k` bits for what is left. A value with a longer prefix follows nine ones as it is. `k` goes
with a history of the values before. When the history has become small a run of zeros follows, as a
value of sixteen bits, and after it a sample that is not zero.

`valueBits` is a value as it is written; it has no counterpart in the source, which only decodes.
The decoder reads it back wherever it is stored, and nothing behind it.

The decoder has no result where it would write behind the samples that were allocated, or shift a
number by less than zero or by as many bits as it has.
-/

namespace ShairportSync

open Bits Numeric

namespace Alac

/-- What an `int32_t` is after a computation; computations that overflow are taken to wrap. -/
abbrev int32 (v : ℤ) : ℤ := signed 32 v

abbrev riceThreshold : ℕ := 8

/-- `count_leading_zeros`, of zero with the value of the generic version -/
def countLeadingZeros (input : ℤ) : ℕ := 32 - (input % 2 ^ 32).toNat.size

variable (memory : ℤ → BitVec 8)

/-! ## The decoder -/

/-- The ones before a zero; a zero is not looked for behind the last of them. -/
def ricePrefix : ℕ → Input → ℕ × Input
  | 0, input => (0, input)
  | left + 1, input =>
    if (readbit memory input).1 then
      let more := ricePrefix left (readbit memory input).2
      (more.1 + 1, more.2)
    else (0, (readbit memory input).2)

/-- `entropy_decode_value`: nothing if `1 << k` is not a number. -/
def entropyDecodeValue (readSampleSize : ℕ) (k : ℤ) (riceKModifierMask : ℕ) (input : Input) :
    Option (ℤ × Input) :=
  let x := ricePrefix memory (riceThreshold + 1) input
  if x.1 > riceThreshold then
    let value := readbits memory readSampleSize x.2
    some (int32 (value.1 &&& 0xffffffff >>> (32 - readSampleSize) : ℕ), value.2)
  else if k ≠ 1 then
    if k < 0 ∨ 31 ≤ k then none
    else
      let extraBits := readbits memory k.toNat x.2
      let multiple := int32 (x.1 * ((1 <<< k.toNat - 1) &&& riceKModifierMask) : ℕ)
      if extraBits.1 > 1 then some (int32 (multiple + (extraBits.1 - 1 : ℕ)), extraBits.2)
      else some (multiple, unreadbits 1 extraBits.2)
  else some (x.1, x.2)

/-- What `entropy_rice_decode` is called with. -/
structure RiceSettings where
  readSampleSize : ℕ
  riceInitialHistory : ℤ
  riceKModifier : ℕ
  riceHistoryMult : ℤ
  riceKModifierMask : ℕ

/-- The local variables of `entropy_rice_decode` and what it writes -/
structure RiceState where
  input : Input
  outputBuffer : ℕ → ℤ
  outputCount : ℕ
  history : ℤ
  signModifier : ℤ

def sampleK (riceKModifier : ℕ) (history : ℤ) : ℤ :=
  let k := 31 - (riceKModifier : ℤ) - countLeadingZeros (history / 512 + 3)
  if k < 0 then k + riceKModifier else riceKModifier

def blockK (history : ℤ) : ℤ := countLeadingZeros history + (history + 16).tdiv 64 - 24

def nextHistory (riceHistoryMult history decodedValue : ℤ) : ℤ :=
  let history := int32 (history +
    int32 (int32 (decodedValue * riceHistoryMult) - int32 (history * riceHistoryMult) / 512))
  if decodedValue > 0xFFFF then 0xFFFF else history

def finalValue (decodedValue : ℤ) : ℤ :=
  let finalValue := (int32 (decodedValue + 1)).tdiv 2
  if decodedValue % 2 ≠ 0 then int32 (finalValue * -1) else finalValue

/-- One sample and the zeros after it: nothing if they do not fit into the `allocated` samples of
the buffer. -/
def riceStep (s : RiceSettings) (allocated outputSize : ℕ) (st : RiceState) : Option RiceState :=
  (entropyDecodeValue memory s.readSampleSize (sampleK s.riceKModifier st.history) 0xFFFFFFFF
    st.input).bind fun value =>
    let decodedValue := int32 (value.1 + st.signModifier)
    let outputBuffer := Function.update st.outputBuffer st.outputCount (finalValue decodedValue)
    let history := nextHistory s.riceHistoryMult st.history decodedValue
    if allocated < st.outputCount + 1 then none
    else if history < 128 ∧ st.outputCount + 1 < outputSize then
      (entropyDecodeValue memory 16 (blockK history) s.riceKModifierMask value.2).bind fun block =>
        let blockSize := block.1.toNat
        if allocated < st.outputCount + 1 + blockSize then none
        else some
          { input := block.2
            outputBuffer := fun i =>
              if st.outputCount + 1 ≤ i ∧ i < st.outputCount + 1 + blockSize then 0
              else outputBuffer i
            outputCount := st.outputCount + blockSize + 1
            history := 0
            signModifier := if block.1 > 0xFFFF then 0 else 1 }
    else some
      { input := value.2, outputBuffer := outputBuffer, outputCount := st.outputCount + 1,
        history := history, signModifier := 0 }

def riceLoop (s : RiceSettings) (allocated outputSize : ℕ) : ℕ → RiceState → Option RiceState
  | 0, st => some st
  | rounds + 1, st =>
    if st.outputCount < outputSize then
      (riceStep memory s allocated outputSize st).bind (riceLoop s allocated outputSize rounds)
    else some st

/-- `entropy_rice_decode`: every round writes at least one sample. -/
def entropyRiceDecode (s : RiceSettings) (allocated : ℕ) (outputBuffer : ℕ → ℤ) (outputSize : ℕ)
    (input : Input) : Option RiceState :=
  riceLoop memory s allocated outputSize outputSize
    { input := input, outputBuffer := outputBuffer, outputCount := 0,
      history := s.riceInitialHistory, signModifier := 0 }

/-! ## Values -/

/-- A value, with the multiple that a one of the prefix stands for -/
def valueBits (size k multiple value : ℕ) : List Bool :=
  if value / multiple ≤ riceThreshold then
    List.replicate (value / multiple) true ++ false ::
      (if value % multiple = 0 then List.replicate (k - 1) false
      else ofNat k (value % multiple + 1))
  else List.replicate (riceThreshold + 1) true ++ ofNat size value

variable {memory}

theorem int32_natCast {n : ℕ} (h : n < 2 ^ 31) : int32 n = n :=
  signed_of_range (w := 31) ⟨by omega, by exact_mod_cast h⟩

theorem ricePrefix_ones {left n : ℕ} {rest : List Bool} {q : ℤ} (hn : n < left)
    (h : Stored memory q (List.replicate n true ++ false :: rest)) :
    ricePrefix memory left (inputAt q) = (n, inputAt (q + (n + 1))) := by
  induction left generalizing n q with
  | zero => omega
  | succ left ih =>
      rw [ricePrefix, readbit_inputAt]
      cases n with
      | zero =>
          rw [List.replicate_zero, List.nil_append, stored_cons] at h
          rw [h.1]
          simp
      | succ n =>
          rw [List.replicate_succ, List.cons_append, stored_cons] at h
          rw [h.1]
          simp only [if_true, ih (by omega) h.2, Prod.mk.injEq, true_and]
          congr 1
          push_cast
          ring

theorem ricePrefix_all {left : ℕ} {q : ℤ} (h : Stored memory q (List.replicate left true)) :
    ricePrefix memory left (inputAt q) = (left, inputAt (q + left)) := by
  induction left generalizing q with
  | zero => simp [ricePrefix]
  | succ left ih =>
      rw [List.replicate_succ, stored_cons] at h
      rw [ricePrefix, readbit_inputAt, h.1]
      simp only [if_true, ih h.2, Prod.mk.injEq, true_and]
      congr 1
      push_cast
      ring

theorem toNat_window_le_one {k : ℕ} {q : ℤ} (hk : 0 < k)
    (h : Stored memory q (List.replicate (k - 1) false)) : toNat (window memory q k) ≤ 1 := by
  obtain ⟨k, rfl⟩ := Nat.exists_eq_succ_of_ne_zero hk.ne'
  have hzeros : toNat (window memory q k) = 0 := by
    rw [Stored, List.length_replicate, Nat.succ_sub_one] at h
    rw [h]
    clear h hk
    induction k with
    | zero => rfl
    | succ k ih => rw [List.replicate_succ, Bits.toNat, ih, Bool.toNat_false, Nat.zero_mul]
  have hlast := toNat_lt (window memory (q + k) 1)
  rw [window_length] at hlast
  rw [Nat.succ_eq_add_one, window_add, toNat_append, hzeros]
  omega

theorem entropyDecodeValue_escape {size mask v : ℕ} {k q : ℤ}
    (hsize : size ≤ 31) (hv : v < 2 ^ size)
    (h : Stored memory q (List.replicate (riceThreshold + 1) true ++ ofNat size v)) :
    entropyDecodeValue memory size k mask (inputAt q) =
      some ((v : ℤ), inputAt (q + (riceThreshold + 1 + size : ℕ))) := by
  rw [stored_append, List.length_replicate] at h
  have hmasks : ∀ n < 32, (0xffffffff : ℕ) >>> (32 - n) = 2 ^ n - 1 := by decide
  rw [entropyDecodeValue, ricePrefix_all h.1]
  simp only [gt_iff_lt, Nat.lt_succ_self, if_true]
  rw [readbits_ofNat (by omega) h.2 hv, hmasks size (by omega), Nat.and_two_pow_sub_one_eq_mod,
    Nat.mod_eq_of_lt hv, int32_natCast (hv.trans_le (Nat.pow_le_pow_right (by decide) hsize)),
    Nat.cast_add _ size, add_assoc]

/-- A value is read as it was written, and nothing behind it. -/
theorem entropyDecodeValue_valueBits {size k mask v : ℕ} {q : ℤ} (hsize : size ≤ 31)
    (hv : v < 2 ^ size) (hk : 0 < k) (hk' : k < 31) (hpos : 0 < (1 <<< k - 1) &&& mask)
    (h : Stored memory q (valueBits size k ((1 <<< k - 1) &&& mask) v)) :
    entropyDecodeValue memory size k mask (inputAt q) =
      some ((v : ℤ), inputAt (q + (valueBits size k ((1 <<< k - 1) &&& mask) v).length)) := by
  have hle : (1 <<< k - 1) &&& mask ≤ 2 ^ k - 1 := by
    rw [Nat.shiftLeft_eq, Nat.one_mul]
    exact Nat.and_le_left
  generalize hmultiple : (1 <<< k - 1) &&& mask = multiple at h hpos hle ⊢
  have hdiv := Nat.div_add_mod v multiple
  have hmod := Nat.mod_lt v hpos
  have hv31 : v < 2 ^ 31 := hv.trans_le (Nat.pow_le_pow_right (by decide) hsize)
  rw [valueBits] at h ⊢
  by_cases hones : v / multiple ≤ riceThreshold
  · rw [if_pos hones] at h ⊢
    have hrest := h
    rw [stored_append, stored_cons, List.length_replicate] at hrest
    have hposition : q + ((v / multiple : ℕ) + 1) = q + (v / multiple : ℕ) + 1 := by ring
    rw [entropyDecodeValue, ricePrefix_ones (by omega) h]
    simp only [not_lt.mpr hones, gt_iff_lt, if_false, hposition, Int.toNat_natCast, hmultiple]
    have hproduct : int32 ((v / multiple * multiple : ℕ) : ℤ) = (v / multiple * multiple : ℕ) :=
      int32_natCast (by rw [Nat.mul_comm]; omega)
    have hlength (rest : List Bool) :
        q + (List.replicate (v / multiple) true ++ false :: rest).length =
          q + (v / multiple : ℕ) + 1 + rest.length := by
      rw [List.length_append, List.length_replicate, List.length_cons]
      omega
    rw [hlength]
    have hread := readbits_inputAt memory (show k ≤ 32 by omega) (q + (v / multiple : ℕ) + 1)
    have hnumber : ¬((k : ℤ) < 0 ∨ 31 ≤ (k : ℤ)) := by omega
    by_cases hzero : v % multiple = 0
    · rw [if_pos hzero] at hrest ⊢
      have hle_one := toNat_window_le_one hk hrest.2.2
      have hv_eq : v / multiple * multiple = v := by rw [Nat.mul_comm]; omega
      rw [hread]
      simp only [hnumber, not_lt.mpr hle_one, if_false, hv_eq, unreadbits_inputAt,
        int32_natCast hv31, List.length_replicate]
      split_ifs with hone
      · refine congrArg some (Prod.ext rfl (congrArg inputAt ?_))
        omega
      · have hk_one : k = 1 := by omega
        subst hk_one
        have hmultiple_one : multiple = 1 := by omega
        subst hmultiple_one
        rw [Nat.div_one, Nat.sub_self, Nat.cast_zero, add_zero]
    · rw [if_neg hzero] at hrest ⊢
      have hextra := hrest.2.2.toNat_window (show v % multiple + 1 < 2 ^ k by omega)
      have hone : (k : ℤ) ≠ 1 := by
        intro hone
        obtain rfl : k = 1 := by omega
        omega
      have hsum : (v / multiple * multiple : ℕ) + ((v % multiple + 1 - 1 : ℕ) : ℤ) = v := by
        rw [Nat.add_sub_cancel, Nat.mul_comm]
        exact_mod_cast hdiv
      have hgt : 1 < v % multiple + 1 := by omega
      rw [hread, hextra, if_pos hone, if_neg hnumber]
      simp only [hgt, if_true, hproduct, hsum, int32_natCast hv31]
      rw [ofNat_length]
  · rw [if_neg hones] at h ⊢
    rw [entropyDecodeValue_escape hsize hv h, List.length_append, List.length_replicate,
      ofNat_length]

end Alac

end ShairportSync
