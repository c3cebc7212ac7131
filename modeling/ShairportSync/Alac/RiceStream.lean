import ShairportSync.Alac.Rice
import ShairportSync.Fifo.Window

/-!
# Streams of samples

`riceEncode` is the stream of a list of samples, with the history that the decoder follows.
`entropyRiceDecode` gives back the samples of every such stream, wherever it is stored and whatever
comes after it, writes nothing beside them and ends at its last bit.

The history stays between zero and 512 times the greatest value that does not reset it, so no
computation of the decoder overflows, and it is not zero when the length of a run of zeros is read.
-/

namespace ShairportSync

open Bits Numeric

namespace Alac

/-- The settings under which the decoder can follow a stream: the mask lets the first bit through.
-/
structure RiceSettings.Regular (s : RiceSettings) : Prop where
  size_pos : 0 < s.readSampleSize
  size_le : s.readSampleSize ≤ 25
  history_pos : 0 < s.riceInitialHistory
  history_le : s.riceInitialHistory ≤ 512 * 0xFFFF
  kModifier_pos : 0 < s.riceKModifier
  kModifier_lt : s.riceKModifier < 31
  historyMult_pos : 0 < s.riceHistoryMult
  historyMult_lt : s.riceHistoryMult < 64
  mask_odd : s.riceKModifierMask % 2 = 1

def HistoryRange (history : ℤ) : Prop := 0 ≤ history ∧ history ≤ 512 * 0xFFFF

/-! ## The history -/

theorem int32_of_lt {v : ℤ} (hle : -(2 ^ 31) ≤ v) (hlt : v < 2 ^ 31) : int32 v = v :=
  signed_of_range (w := 31) ⟨hle, hlt⟩

/-- No step of the computation overflows. -/
theorem nextHistory_eq {mult history : ℤ} {decodedValue : ℕ} (hmult : 0 < mult) (hmult' : mult < 64)
    (hhistory : HistoryRange history) (hdecoded : decodedValue < 2 ^ 25) :
    nextHistory mult history decodedValue =
      if (decodedValue : ℤ) > 0xFFFF then 0xFFFF
      else history + (decodedValue * mult - history * mult / 512) := by
  obtain ⟨hle, hlt⟩ := hhistory
  have hvalue : (decodedValue : ℤ) ≤ 2 ^ 25 - 1 := by omega
  have hproduct : (decodedValue : ℤ) * mult ≤ (2 ^ 25 - 1) * 63 :=
    mul_le_mul hvalue (by omega) hmult.le (by decide)
  have hproduct' : 0 ≤ (decodedValue : ℤ) * mult := mul_nonneg (by omega) hmult.le
  have hhistory : history * mult ≤ 512 * 0xFFFF * 63 :=
    mul_le_mul hlt (by omega) hmult.le (by decide)
  have hhistory' : 0 ≤ history * mult := mul_nonneg hle hmult.le
  have hself : history * mult ≤ history * 63 := Int.mul_le_mul_of_nonneg_left (by omega) hle
  rw [nextHistory]
  simp only [int32_of_lt (show -(2 ^ 31) ≤ (decodedValue : ℤ) * mult by omega) (by omega),
    int32_of_lt (show -(2 ^ 31) ≤ history * mult by omega) (by omega)]
  rw [int32_of_lt (v := decodedValue * mult - history * mult / 512) (by omega) (by omega),
    int32_of_lt (by omega) (by omega)]

theorem nextHistory_range {mult history : ℤ} {decodedValue : ℕ} (hmult : 0 < mult)
    (hmult' : mult < 64) (hhistory : HistoryRange history) (hdecoded : decodedValue < 2 ^ 25) :
    HistoryRange (nextHistory mult history decodedValue) := by
  rw [nextHistory_eq hmult hmult' hhistory hdecoded]
  obtain ⟨hle, hlt⟩ := hhistory
  split_ifs with hreset
  · constructor <;> decide
  · have hself : history * mult ≤ history * 63 := Int.mul_le_mul_of_nonneg_left (by omega) hle
    have hproduct : 0 ≤ (decodedValue : ℤ) * mult := mul_nonneg (by omega) hmult.le
    have hvalue : (decodedValue : ℤ) * mult ≤ 0xFFFF * mult :=
      Int.mul_le_mul_of_nonneg_right (by omega) hmult.le
    have hweighted : history * (512 - mult) ≤ 512 * 0xFFFF * (512 - mult) :=
      Int.mul_le_mul_of_nonneg_right hlt (by omega)
    constructor
    · omega
    · rw [mul_sub] at hweighted
      omega

theorem nextHistory_pos {mult history : ℤ} {decodedValue : ℕ} (hmult : 0 < mult)
    (hmult' : mult < 64) (hhistory : HistoryRange history) (hdecoded : decodedValue < 2 ^ 25)
    (hpos : 0 < history ∨ 0 < decodedValue) : 0 < nextHistory mult history decodedValue := by
  rw [nextHistory_eq hmult hmult' hhistory hdecoded]
  obtain ⟨hle, hlt⟩ := hhistory
  split_ifs with hreset
  · decide
  · have hself : history * mult ≤ history * 63 := Int.mul_le_mul_of_nonneg_left (by omega) hle
    rcases hpos with hpos | hpos
    · have hproduct : 0 ≤ (decodedValue : ℤ) * mult := mul_nonneg (by omega) hmult.le
      omega
    · have hproduct : 0 < (decodedValue : ℤ) * mult := mul_pos (by omega) hmult
      omega

/-! ## The parameter of a code -/

theorem countLeadingZeros_le {v : ℤ} {n : ℕ} (hpos : 2 ^ n ≤ v) (hlt : v < 2 ^ 32) :
    countLeadingZeros v ≤ 31 - n := by
  have hmod : v % 2 ^ 32 = v := Int.emod_eq_of_lt (le_trans (by positivity) hpos) hlt
  have hsize : n < v.toNat.size := by
    rw [Nat.lt_size]
    have hcast : ((2 ^ n : ℕ) : ℤ) ≤ v := by exact_mod_cast hpos
    omega
  rw [countLeadingZeros, hmod]
  omega

theorem le_countLeadingZeros {v : ℤ} {n : ℕ} (hle : 0 ≤ v) (hlt : v < 2 ^ n) (hn : n ≤ 32) :
    32 - n ≤ countLeadingZeros v := by
  have hpow : (2 : ℤ) ^ n ≤ 2 ^ 32 := by exact_mod_cast Nat.pow_le_pow_right (by decide) hn
  have hmod : v % 2 ^ 32 = v := Int.emod_eq_of_lt hle (by omega)
  have hsize : v.toNat.size ≤ n := by
    rw [Nat.size_le]
    have hcast : v < ((2 ^ n : ℕ) : ℤ) := by exact_mod_cast hlt
    omega
  rw [countLeadingZeros, hmod]
  omega

theorem sampleK_bounds {riceKModifier : ℕ} {history : ℤ} (hk : 0 < riceKModifier)
    (hk' : riceKModifier < 31) (hhistory : HistoryRange history) :
    0 < sampleK riceKModifier history ∧ sampleK riceKModifier history < 31 := by
  obtain ⟨hle, hlt⟩ := hhistory
  have hclz := @countLeadingZeros_le (history / 512 + 3) 1 (by omega) (by omega)
  have hclz' := @le_countLeadingZeros (history / 512 + 3) 31 (by omega) (by omega) (by decide)
  rw [sampleK]
  split_ifs with h <;> constructor <;> omega

theorem blockK_bounds {history : ℤ} (hpos : 0 < history) (hlt : history < 128) :
    0 < blockK history ∧ blockK history < 31 := by
  have hupper := @countLeadingZeros_le history 0 (by omega) (by omega)
  have hlower := @le_countLeadingZeros history 7 hpos.le (by omega) (by decide)
  have hquotient : (history + 16).tdiv 64 = (history + 16) / 64 :=
    Int.tdiv_eq_ediv_of_nonneg (by omega)
  rw [blockK, hquotient]
  constructor <;> omega

theorem multiple_pos {k mask : ℕ} (hk : 0 < k) (hmask : mask % 2 = 1) :
    0 < (1 <<< k - 1) &&& mask := by
  have hodd : ((1 <<< k - 1) &&& mask).testBit 0 = true := by
    rw [Nat.testBit_and, Nat.shiftLeft_eq, Nat.one_mul, Nat.testBit_two_pow_sub_one,
      Nat.testBit_zero, hmask]
    simp [hk]
  exact Nat.pos_of_ne_zero fun hzero => by
    rw [hzero, Nat.zero_testBit] at hodd
    exact Bool.false_ne_true hodd

/-! ## Samples -/

def zigzag (x : ℤ) : ℕ := (if 0 ≤ x then 2 * x else -2 * x - 1).toNat

theorem zigzag_lt {x : ℤ} {n : ℕ} (h : SignedRange n x) : zigzag x < 2 ^ (n + 1) := by
  obtain ⟨hle, hlt⟩ := h
  have hpow : ((2 ^ (n + 1) : ℕ) : ℤ) = 2 * 2 ^ n := by
    push_cast
    ring
  rw [zigzag]
  split_ifs <;> omega

theorem zigzag_pos {x : ℤ} (h : x ≠ 0) : 0 < zigzag x := by
  rw [zigzag]
  split_ifs <;> omega

theorem finalValue_zigzag {x : ℤ} (h : SignedRange 29 x) : finalValue (zigzag x) = x := by
  obtain ⟨hle, hlt⟩ := h
  have hvalue : (zigzag x : ℤ) = if 0 ≤ x then 2 * x else -2 * x - 1 := by
    rw [zigzag]
    split_ifs <;> omega
  have hnext : int32 ((zigzag x : ℤ) + 1) = zigzag x + 1 := by
    refine int32_of_lt ?_ ?_ <;> rw [hvalue] <;> split_ifs <;> omega
  rw [finalValue, hnext, Int.tdiv_eq_ediv_of_nonneg (by omega), hvalue]
  by_cases hsign : 0 ≤ x
  · rw [if_pos hsign, if_neg (by omega)]
    omega
  · rw [if_neg hsign, if_pos (by omega), int32_of_lt (by omega) (by omega)]
    omega

/-- No run of zeros is too long for a value of sixteen bits. -/
def ShortRuns (samples : List ℤ) : Prop :=
  ∀ before n after, samples = before ++ List.replicate n 0 ++ after → n ≤ 0xFFFF

theorem ShortRuns.drop {samples : List ℤ} (h : ShortRuns samples) (n : ℕ) :
    ShortRuns (samples.drop n) := by
  intro before m after hsplit
  refine h (samples.take n ++ before) m after ?_
  rw [List.append_assoc, List.append_assoc, ← List.append_assoc before, ← hsplit,
    List.take_append_drop]

/-! ## Streams -/

def zeroRun (samples : List ℤ) : ℕ := (samples.takeWhile (· = 0)).length

theorem replicate_zeroRun (samples : List ℤ) :
    List.replicate (zeroRun samples) 0 ++ samples.drop (zeroRun samples) = samples := by
  induction samples with
  | nil => rfl
  | cons x samples ih =>
      rw [zeroRun, List.takeWhile_cons]
      by_cases hx : x = 0
      · simp only [hx, decide_true, if_true, List.length_cons]
        rw [List.replicate_succ, List.cons_append, List.drop_succ_cons]
        exact congrArg _ ih
      · simp [hx]

theorem head_drop_zeroRun (samples : List ℤ) :
    ∀ x ∈ (samples.drop (zeroRun samples)).head?, x ≠ 0 := by
  induction samples with
  | nil => simp [zeroRun]
  | cons x samples ih =>
      rw [zeroRun, List.takeWhile_cons]
      by_cases hx : x = 0
      · rw [zeroRun] at ih
        simpa [hx] using ih
      · simp [hx]

theorem zeroRun_le_length (samples : List ℤ) : zeroRun samples ≤ samples.length :=
  (List.takeWhile_sublist _).length_le

def riceEncode (s : RiceSettings) (history : ℤ) (signModifier : ℕ) : List ℤ → List Bool
  | [] => []
  | x :: samples =>
    let k := (sampleK s.riceKModifier history).toNat
    let next := nextHistory s.riceHistoryMult history (zigzag x)
    let zerosK := (blockK next).toNat
    valueBits s.readSampleSize k ((1 <<< k - 1) &&& 0xFFFFFFFF) (zigzag x - signModifier) ++
      if next < 128 ∧ samples ≠ [] then
        valueBits 16 zerosK ((1 <<< zerosK - 1) &&& s.riceKModifierMask) (zeroRun samples) ++
          riceEncode s 0 1 (samples.drop (zeroRun samples))
      else riceEncode s next 0 samples
termination_by samples => samples.length
decreasing_by
  all_goals simp only [List.length_drop, List.length_cons]; omega

/-! ## The round trip -/

/-- A buffer with zeros after a sample -/
theorem write_zeros (buffer : ℕ → ℤ) (count n : ℕ) (x : ℤ) :
    (fun i => if count + 1 ≤ i ∧ i < count + 1 + n then 0
      else Function.update buffer count x i) =
      Fifo.write buffer count (x :: List.replicate n 0) := by
  funext i
  by_cases hi : count ≤ i
  · obtain ⟨j, rfl⟩ := Nat.exists_eq_add_of_le hi
    cases j with
    | zero => simp [Fifo.write]
    | succ j =>
        have hne : count + (j + 1) ≠ count := by omega
        have hsub : count + (j + 1) - count = j + 1 := by omega
        rw [Fifo.write, if_pos hi, hsub, List.getD_cons_succ, Function.update_of_ne hne]
        by_cases hj : j < n
        · rw [if_pos ⟨by omega, by omega⟩, List.getD_replicate _ hj]
        · rw [if_neg (by omega), List.getD_eq_default _ _ (by simpa using hj)]
  · rw [if_neg (by omega), Function.update_of_ne (by omega), Fifo.write_of_lt (by omega)]

theorem write_one (buffer : ℕ → ℤ) (count : ℕ) (x : ℤ) :
    Function.update buffer count x = Fifo.write buffer count [x] := by
  have h := write_zeros buffer count 0 x
  rw [List.replicate_zero] at h
  rw [← h]
  funext i
  rw [if_neg (by omega)]

variable {memory : ℤ → BitVec 8}

/-- The history and the `signModifier` before a sample: a sample of zero can be coded with a history
of zero only if there is none. -/
structure RiceContext (history : ℤ) (signModifier : ℕ) (samples : List ℤ) : Prop where
  range : HistoryRange history
  pos_or : 0 < history ∨ signModifier = 1
  signModifier_le : signModifier ≤ 1
  head_ne : signModifier = 1 → ∀ x ∈ samples.head?, x ≠ 0

theorem RiceContext.signModifier_le_zigzag {history : ℤ} {signModifier : ℕ} {x : ℤ}
    {samples : List ℤ} (h : RiceContext history signModifier (x :: samples)) :
    signModifier ≤ zigzag x := by
  have hle := h.signModifier_le
  have hhead := h.head_ne
  by_cases hone : signModifier = 1
  · have hpos := zigzag_pos (hhead hone x rfl)
    omega
  · omega

variable {s : RiceSettings} {history : ℤ} {signModifier : ℕ} {x : ℤ} {samples : List ℤ} {q : ℤ}

/-- The history after a sample is in range, and positive. -/
theorem RiceContext.next (hs : s.Regular)
    (h : RiceContext history signModifier (x :: samples))
    (hx : SignedRange (s.readSampleSize - 1) x) :
    HistoryRange (nextHistory s.riceHistoryMult history (zigzag x)) ∧
      0 < nextHistory s.riceHistoryMult history (zigzag x) := by
  have hsize := hs.size_le
  have hvalue := zigzag_lt (hx.mono (show s.readSampleSize - 1 ≤ 24 by omega))
  refine ⟨nextHistory_range hs.historyMult_pos hs.historyMult_lt h.range hvalue,
    nextHistory_pos hs.historyMult_pos hs.historyMult_lt h.range hvalue ?_⟩
  rcases h.pos_or with hpos | hone
  · exact Or.inl hpos
  · exact Or.inr (zigzag_pos (h.head_ne hone x rfl))

def sampleBits (s : RiceSettings) (history : ℤ) (signModifier : ℕ) (x : ℤ) : List Bool :=
  let k := (sampleK s.riceKModifier history).toNat
  valueBits s.readSampleSize k ((1 <<< k - 1) &&& 0xFFFFFFFF) (zigzag x - signModifier)

theorem entropyDecodeValue_sampleBits (hs : s.Regular)
    (h : RiceContext history signModifier (x :: samples))
    (hx : SignedRange (s.readSampleSize - 1) x)
    (hstored : Stored memory q (sampleBits s history signModifier x)) :
    entropyDecodeValue memory s.readSampleSize (sampleK s.riceKModifier history) 0xFFFFFFFF
        (inputAt q) =
      some (((zigzag x - signModifier : ℕ) : ℤ),
        inputAt (q + (sampleBits s history signModifier x).length)) := by
  have hpos := hs.size_pos
  have hvalue := zigzag_lt hx
  rw [Nat.sub_add_cancel hpos] at hvalue
  obtain ⟨hk, hk'⟩ := sampleK_bounds hs.kModifier_pos hs.kModifier_lt h.range
  rw [← Int.toNat_of_nonneg hk.le]
  exact entropyDecodeValue_valueBits (hs.size_le.trans (by decide)) (by omega) (by omega)
    (by omega) (multiple_pos (by omega) (by decide)) hstored

def blockBits (s : RiceSettings) (next : ℤ) (zeros : ℕ) : List Bool :=
  let k := (blockK next).toNat
  valueBits 16 k ((1 <<< k - 1) &&& s.riceKModifierMask) zeros

theorem entropyDecodeValue_blockBits (hs : s.Regular) {next : ℤ} (hpos : 0 < next)
    (hlt : next < 128) {zeros : ℕ} (hzeros : zeros ≤ 0xFFFF)
    (hstored : Stored memory q (blockBits s next zeros)) :
    entropyDecodeValue memory 16 (blockK next) s.riceKModifierMask (inputAt q) =
      some ((zeros : ℤ), inputAt (q + (blockBits s next zeros).length)) := by
  obtain ⟨hk, hk'⟩ := blockK_bounds hpos hlt
  rw [← Int.toNat_of_nonneg hk.le]
  exact entropyDecodeValue_valueBits (by decide) (by omega) (by omega) (by omega)
    (multiple_pos (by omega) hs.mask_odd) hstored

theorem riceEncode_cons (s : RiceSettings) (history : ℤ) (signModifier : ℕ) (x : ℤ)
    (samples : List ℤ) :
    riceEncode s history signModifier (x :: samples) =
      sampleBits s history signModifier x ++
        if nextHistory s.riceHistoryMult history (zigzag x) < 128 ∧ samples ≠ [] then
          blockBits s (nextHistory s.riceHistoryMult history (zigzag x)) (zeroRun samples) ++
            riceEncode s 0 1 (samples.drop (zeroRun samples))
        else riceEncode s (nextHistory s.riceHistoryMult history (zigzag x)) 0 samples := by
  rw [riceEncode]
  rfl

/-- What a round reads and writes -/
theorem riceStep_riceEncode (hs : s.Regular) {allocated outputSize count : ℕ} {buffer : ℕ → ℤ}
    (h : RiceContext history signModifier (x :: samples))
    (hx : SignedRange (s.readSampleSize - 1) x) (hshort : ShortRuns samples)
    (hcount : count + 1 + samples.length = outputSize) (hallocated : outputSize ≤ allocated)
    (hstored : Stored memory q (riceEncode s history signModifier (x :: samples))) :
    riceStep memory s allocated outputSize ⟨inputAt q, buffer, count, history, signModifier⟩ =
      some (if nextHistory s.riceHistoryMult history (zigzag x) < 128 ∧ samples ≠ [] then
        ⟨inputAt (q + (sampleBits s history signModifier x).length +
            (blockBits s (nextHistory s.riceHistoryMult history (zigzag x))
              (zeroRun samples)).length),
          Fifo.write buffer count (x :: List.replicate (zeroRun samples) 0),
          count + zeroRun samples + 1, 0, 1⟩
      else
        ⟨inputAt (q + (sampleBits s history signModifier x).length),
          Fifo.write buffer count [x], count + 1,
          nextHistory s.riceHistoryMult history (zigzag x), 0⟩) := by
  have hsize := hs.size_le
  have hwide := hx.mono (show s.readSampleSize - 1 ≤ 24 by omega)
  have hvalue := zigzag_lt hwide
  obtain ⟨-, hpos⟩ := h.next hs hx
  rw [riceEncode_cons, stored_append] at hstored
  have hfirst := entropyDecodeValue_sampleBits hs h hx hstored.1
  have hdecoded : int32 ((zigzag x - signModifier : ℕ) + (signModifier : ℤ)) = zigzag x := by
    have hle := h.signModifier_le_zigzag
    rw [← Nat.cast_add, Nat.sub_add_cancel hle, int32_natCast (by omega)]
  have hnil : samples ≠ [] ↔ count + 1 < outputSize := by
    rw [← List.length_pos_iff_ne_nil]
    omega
  have hroom : ¬allocated < count + 1 := by omega
  rw [riceStep, hfirst, Option.bind_some]
  simp only [hdecoded, finalValue_zigzag (hwide.mono (by decide)), ← hnil, hroom, if_false]
  by_cases hblock : nextHistory s.riceHistoryMult history (zigzag x) < 128 ∧ samples ≠ []
  · have hzeros := hshort [] (zeroRun samples) _ (replicate_zeroRun samples).symm
    rw [if_pos hblock, stored_append] at hstored
    rw [if_pos hblock, if_pos hblock]
    have hsecond := entropyDecodeValue_blockBits hs hpos hblock.1 hzeros hstored.2.1
    have hbound : ¬((zeroRun samples : ℤ) > 0xFFFF) := by omega
    have hrun := zeroRun_le_length samples
    have hzerosRoom : ¬allocated < count + 1 + zeroRun samples := by omega
    rw [hsecond, Option.bind_some]
    simp only [Int.toNat_natCast, write_zeros, hbound, hzerosRoom, if_false]
  · rw [if_neg hblock, if_neg hblock, write_one]

/-- The rounds of the loop, from any sample on -/
theorem riceLoop_riceEncode (hs : s.Regular) {allocated outputSize : ℕ}
    (hallocated : outputSize ≤ allocated) (rounds : ℕ) {count : ℕ} (buffer : ℕ → ℤ)
    (h : RiceContext history signModifier samples)
    (hrange : ∀ x ∈ samples, SignedRange (s.readSampleSize - 1) x) (hshort : ShortRuns samples)
    (hcount : count + samples.length = outputSize) (hrounds : samples.length ≤ rounds)
    (hstored : Stored memory q (riceEncode s history signModifier samples)) :
    ∃ last sign, riceLoop memory s allocated outputSize rounds
        ⟨inputAt q, buffer, count, history, signModifier⟩ =
      some ⟨inputAt (q + (riceEncode s history signModifier samples).length),
        Fifo.write buffer count samples, outputSize, last, sign⟩ := by
  induction rounds generalizing samples count buffer q history signModifier with
  | zero =>
      obtain rfl := List.length_eq_zero_iff.mp (Nat.le_zero.mp hrounds)
      rw [List.length_nil, Nat.add_zero] at hcount
      subst hcount
      exact ⟨history, signModifier, by
        simp [riceLoop, riceEncode, Fifo.write_nil]⟩
  | succ rounds ih =>
      cases samples with
      | nil =>
          rw [List.length_nil, Nat.add_zero] at hcount
          subst hcount
          exact ⟨history, signModifier, by
            simp [riceLoop, riceEncode, Fifo.write_nil]⟩
      | cons x samples =>
          rw [List.length_cons] at hcount hrounds
          have hx := hrange x List.mem_cons_self
          have hrest : ∀ y ∈ samples, SignedRange (s.readSampleSize - 1) y :=
            fun y hy => hrange y (List.mem_cons_of_mem x hy)
          have hshort' : ShortRuns samples := hshort.drop 1
          have hnext := h.next hs hx
          have hmore : count < outputSize := by omega
          rw [riceLoop, if_pos hmore,
            riceStep_riceEncode hs h hx hshort' (by omega) hallocated hstored, Option.bind_some]
          rw [riceEncode_cons] at hstored ⊢
          rw [stored_append] at hstored
          by_cases hblock : nextHistory s.riceHistoryMult history (zigzag x) < 128 ∧ samples ≠ []
          · rw [if_pos hblock] at hstored ⊢
            rw [if_pos hblock]
            rw [stored_append] at hstored
            have hdrop := zeroRun_le_length samples
            have hcontext : RiceContext 0 1 (samples.drop (zeroRun samples)) :=
              ⟨⟨le_refl 0, by decide⟩, Or.inr rfl, le_refl 1, fun _ => head_drop_zeroRun samples⟩
            have hcount' : count + zeroRun samples + 1 +
                (samples.drop (zeroRun samples)).length = outputSize := by
              rw [List.length_drop]
              omega
            have hposition : q + (sampleBits s history signModifier x).length +
                (blockBits s (nextHistory s.riceHistoryMult history (zigzag x))
                  (zeroRun samples)).length +
                (riceEncode s 0 1 (samples.drop (zeroRun samples))).length =
                q + (sampleBits s history signModifier x ++
                  (blockBits s (nextHistory s.riceHistoryMult history (zigzag x))
                    (zeroRun samples) ++
                  riceEncode s 0 1 (samples.drop (zeroRun samples)))).length := by
              rw [List.length_append, List.length_append, Nat.cast_add, Nat.cast_add, add_assoc,
                add_assoc]
            have hwritten := Fifo.write_write buffer count
              (x :: List.replicate (zeroRun samples) 0) (samples.drop (zeroRun samples))
            rw [List.cons_append, replicate_zeroRun, List.length_cons, List.length_replicate,
              ← add_assoc] at hwritten
            rw [← hposition, ← hwritten]
            exact ih _ hcontext (fun y hy => hrest y (List.mem_of_mem_drop hy)) (hshort'.drop _)
              hcount' (by rw [List.length_drop]; omega) hstored.2.2
          · rw [if_neg hblock] at hstored ⊢
            rw [if_neg hblock]
            have hcontext : RiceContext (nextHistory s.riceHistoryMult history (zigzag x)) 0
                samples :=
              ⟨hnext.1, Or.inl hnext.2, Nat.zero_le 1, fun hone => absurd hone (by decide)⟩
            have hwritten := Fifo.write_write buffer count [x] samples
            rw [List.length_append, Nat.cast_add, ← add_assoc]
            rw [List.singleton_append, List.length_singleton] at hwritten
            rw [← hwritten]
            exact ih _ hcontext hrest hshort' (by omega) (by omega) hstored.2

/-- Every stream gives back its samples, and the reader is behind its last bit. -/
theorem entropyRiceDecode_riceEncode (hs : s.Regular) {allocated : ℕ} (buffer : ℕ → ℤ)
    (hallocated : samples.length ≤ allocated)
    (hrange : ∀ x ∈ samples, SignedRange (s.readSampleSize - 1) x) (hshort : ShortRuns samples)
    (hstored : Stored memory q (riceEncode s s.riceInitialHistory 0 samples)) :
    ∃ rice, entropyRiceDecode memory s allocated buffer samples.length (inputAt q) = some rice ∧
      rice.outputBuffer = Fifo.write buffer 0 samples ∧
      rice.input = inputAt (q + (riceEncode s s.riceInitialHistory 0 samples).length) := by
  have hcontext : RiceContext s.riceInitialHistory 0 samples :=
    ⟨⟨hs.history_pos.le, hs.history_le⟩, Or.inl hs.history_pos, Nat.zero_le 1,
      fun hone => absurd hone (by decide)⟩
  obtain ⟨last, sign, hloop⟩ := riceLoop_riceEncode hs hallocated samples.length buffer hcontext
    hrange hshort (Nat.zero_add _) le_rfl hstored
  rw [Nat.cast_zero] at hloop
  exact ⟨_, hloop, rfl, rfl⟩

end Alac

end ShairportSync
