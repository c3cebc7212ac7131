import ShairportSync.Alac.Frame
import Mathlib.Data.List.Flatten

/-!
# The round trip of a frame

`frameBits` is a frame of a list of samples in two channels, with a free choice of the mixing, of
the predictor of each channel and of the bytes that are not compressed. `alacDecodeFrame` writes
the samples of every such frame, as numbers with the lowest byte first, and nothing else.

Mixing loses nothing, as the difference of the channels is kept with one bit more than a sample has:
with it the weighted mean need be known only up to a multiple of the range of a sample.
-/

namespace ShairportSync

open Bits Numeric

namespace Alac

/-! ## Mixing -/

def mix (readSampleSize interlacingShift interlacingLeftWeight : ℕ) (left right : ℤ) : ℤ × ℤ :=
  if interlacingLeftWeight ≠ 0 then
    (signed readSampleSize
      (right + int32 ((left - right) * interlacingLeftWeight) / 2 ^ interlacingShift), left - right)
  else (left, right)

theorem mix_range {w : ℕ} (shift weight : ℕ) {left right : ℤ} (hleft : SignedRange w left)
    (hright : SignedRange w right) :
    SignedRange (w + 1) (mix (w + 2) shift weight left right).1 ∧
      SignedRange (w + 1) (mix (w + 2) shift weight left right).2 := by
  rw [mix]
  split_ifs
  · refine ⟨signed_range _ _, ?_⟩
    obtain ⟨hl, hl'⟩ := hleft
    obtain ⟨hr, hr'⟩ := hright
    have hpow : (2 : ℤ) ^ (w + 1) = 2 * 2 ^ w := by ring
    constructor
    · change -(2 ^ (w + 1)) ≤ left - right
      omega
    · change left - right < 2 ^ (w + 1)
      omega
  · exact ⟨hleft.mono (Nat.le_succ w), hright.mono (Nat.le_succ w)⟩

theorem mean_sub_modEq {w size : ℕ} (hw : w ≤ size) (hsize : size ≤ 32) (right x : ℤ) :
    int32 (signed size (right + x) - x) ≡ right [ZMOD 2 ^ w] := by
  have hmean : signed size (right + x) ≡ right + x [ZMOD 2 ^ w] :=
    (signed_modEq size _).of_dvd (pow_dvd_pow 2 hw)
  have hwrap : int32 (signed size (right + x) - x) ≡ signed size (right + x) - x [ZMOD 2 ^ w] :=
    (signed_modEq 32 _).of_dvd (pow_dvd_pow 2 (hw.trans hsize))
  have hsub := hmean.sub_right x
  rw [add_sub_cancel_right] at hsub
  exact hwrap.trans hsub

theorem mixed16_mix {size : ℕ} (hle : 16 ≤ size) (hsize : size ≤ 32) (shift weight : ℕ)
    {left right : ℤ} (hleft : SignedRange 15 left) (hright : SignedRange 15 right) :
    mixed16 (mix size shift weight left right).1 (mix size shift weight left right).2 shift weight =
      (left, right) := by
  rw [mix, mixed16]
  by_cases hweight : weight ≠ 0
  · rw [if_pos hweight, if_pos hweight]
    have hr : int16 (int32 (signed size
        (right + int32 ((left - right) * weight) / 2 ^ shift) -
          int32 ((left - right) * weight) / 2 ^ shift)) = right :=
      signed_eq_of_modEq (mean_sub_modEq hle hsize right _) hright
    have hl : int16 (int32 (right + (left - right))) = left := by
      rw [add_sub_cancel, int16, signed_signed (by decide)]
      exact signed_of_range hleft
    simp only [hr, hl]
  · rw [if_neg hweight, if_neg hweight]
    exact Prod.ext (signed_of_range hleft) (signed_of_range hright)

theorem mixed24_mix {w size : ℕ} (hle : w ≤ size) (hsize : size ≤ 32) (shift weight : ℕ)
    (left right : ℤ) :
    (mixed24 (mix size shift weight left right).1 (mix size shift weight left right).2 shift
        weight).1 ≡ left [ZMOD 2 ^ w] ∧
      (mixed24 (mix size shift weight left right).1 (mix size shift weight left right).2 shift
        weight).2 ≡ right [ZMOD 2 ^ w] := by
  rw [mix, mixed24]
  by_cases hweight : weight ≠ 0
  · rw [if_pos hweight, if_pos hweight]
    have hr := mean_sub_modEq hle hsize right (int32 ((left - right) * weight) / 2 ^ shift)
    refine ⟨?_, hr⟩
    have hl := hr.add_right (left - right)
    rw [add_sub_cancel] at hl
    exact ((signed_modEq 32 _).of_dvd (pow_dvd_pow 2 (hle.trans hsize))).trans hl
  · rw [if_neg hweight, if_neg hweight]
    exact ⟨rfl, rfl⟩

/-! ## Bytes that are not compressed -/

/-- Or-ing a small number into the zeros of a shifted one adds it. -/
theorem or_low_eq (a : ℤ) {l k : ℕ} (hl : l < 2 ^ k) :
    BitVec.ofInt 32 (a * 2 ^ k) |||
        BitVec.ofInt 32 l &&& ~~~(BitVec.ofNat 32 0xFFFFFFFF <<< k) =
      BitVec.ofInt 32 (a * 2 ^ k + l) := by
  have hlow (i : ℕ) (hi : k ≤ i) : (BitVec.ofInt 32 l).getLsbD i = false := by
    rw [BitVec.ofInt_natCast, BitVec.getLsbD_ofNat,
      Nat.testBit_lt_two_pow (hl.trans_le (Nat.pow_le_pow_right (by decide) hi)), Bool.and_false]
  have hshift : BitVec.ofInt 32 (a * 2 ^ k) = BitVec.ofInt 32 a <<< k := by
    have hcast : (2 : ℤ) ^ k = (2 ^ k : ℕ) := by push_cast; rfl
    have htwo : BitVec.ofNat 32 (2 ^ k) = BitVec.twoPow 32 k :=
      BitVec.eq_of_toNat_eq (by rw [BitVec.toNat_ofNat, BitVec.toNat_twoPow])
    rw [BitVec.shiftLeft_eq_mul_twoPow, BitVec.ofInt_mul, hcast, BitVec.ofInt_natCast, htwo]
  have hones : BitVec.ofNat 32 0xFFFFFFFF = BitVec.allOnes 32 := by decide
  have hmask : BitVec.ofInt 32 l &&& ~~~(BitVec.ofNat 32 0xFFFFFFFF <<< k) = BitVec.ofInt 32 l := by
    rw [hones]
    refine BitVec.eq_of_getLsbD_eq fun i hi => ?_
    rw [BitVec.getLsbD_and, BitVec.getLsbD_not, BitVec.getLsbD_shiftLeft]
    by_cases hik : i < k
    · simp [hik, hi]
    · rw [hlow i (by omega), Bool.false_and]
  rw [hmask, BitVec.ofInt_add]
  refine (BitVec.add_eq_or_of_and_eq_zero _ _ ?_).symm
  rw [hshift]
  refine BitVec.eq_of_getLsbD_eq fun i hi => ?_
  rw [BitVec.getLsbD_and, BitVec.getLsbD_shiftLeft]
  by_cases hik : i < k
  · simp [hik]
  · rw [hlow i (by omega), Bool.and_false, BitVec.getLsbD_zero]

theorem withLowBytes_modEq {uncompressedBytes : ℕ} (hle : uncompressedBytes ≤ 2) {sample v : ℤ}
    (h : sample ≡ v / 2 ^ (uncompressedBytes * 8) [ZMOD 2 ^ (24 - uncompressedBytes * 8)]) :
    withLowBytes sample (v % 2 ^ (uncompressedBytes * 8)) uncompressedBytes ≡ v [ZMOD 2 ^ 24] := by
  generalize hk : uncompressedBytes * 8 = k at h
  have hpow : (2 : ℤ) ^ 24 = 2 ^ (24 - k) * 2 ^ k := by
    rw [← pow_add]
    congr 1
    omega
  have hpos : (0 : ℤ) < 2 ^ k := Int.pow_pos (by decide)
  have hmul : sample * 2 ^ k + v % 2 ^ k ≡ v [ZMOD 2 ^ 24] := by
    have hscaled := (h.mul_right' (c := 2 ^ k)).add_right (v % 2 ^ k)
    rw [← hpow, mul_comm (v / 2 ^ k), Int.mul_ediv_add_emod] at hscaled
    exact hscaled
  rw [withLowBytes]
  by_cases hzero : uncompressedBytes = 0
  · subst hzero
    rw [if_neg (by decide)]
    rw [Nat.zero_mul] at hk
    subst hk
    rw [pow_zero, Int.emod_one, add_zero, mul_one] at hmul
    exact hmul
  · rw [if_pos hzero]
    have hnonneg : 0 ≤ v % 2 ^ k := Int.emod_nonneg v hpos.ne'
    obtain ⟨l, hl⟩ := Int.eq_ofNat_of_zero_le hnonneg
    have hlt : l < 2 ^ k := by
      have hlt := Int.emod_lt_of_pos v hpos
      rw [hl] at hlt
      exact_mod_cast hlt
    simp only [hk]
    rw [hl] at hmul ⊢
    rw [or_low_eq sample hlt, BitVec.toInt_ofInt]
    have hwrap := signed_modEq 32 (sample * 2 ^ k + l)
    exact (hwrap.of_dvd (pow_dvd_pow 2 (by decide))).trans hmul

theorem leBytes_of_modEq {n : ℕ} {v w : ℤ} (h : v ≡ w [ZMOD 256 ^ n]) :
    leBytes n v = leBytes n w := by
  induction n generalizing v w with
  | zero => rfl
  | succ n ih =>
      rw [pow_succ'] at h
      have hbyte : v ≡ w [ZMOD 256] := h.of_mul_right _
      have hdiv : v / 256 ≡ w / 256 [ZMOD 256 ^ n] := by
        refine Int.modEq_iff_dvd.mpr ?_
        obtain ⟨c, hc⟩ := Int.modEq_iff_dvd.mp h
        refine ⟨c, ?_⟩
        have hmod : v % 256 = w % 256 := hbyte
        have hprod : 256 * 256 ^ n * c = 256 * (256 ^ n * c) := by ring
        rw [hprod] at hc
        omega
      have hfirst : BitVec.ofInt 8 v = BitVec.ofInt 8 w := by
        apply BitVec.eq_of_toInt_eq
        rw [BitVec.toInt_ofInt, BitVec.toInt_ofInt]
        exact signed_eq_iff.mpr hbyte
      rw [leBytes, leBytes, hfirst, ih hdiv]

/-! ## Output -/

def pcm (bytes : ℕ) (frames : List (ℤ × ℤ)) : List (BitVec 8) :=
  frames.flatMap fun s => leBytes bytes s.1 ++ leBytes bytes s.2

theorem deinterlace16_eq {bufferA bufferB : ℕ → ℤ} {shift weight : ℕ} {frames : List (ℤ × ℤ)}
    (h : ∀ (i : ℕ) (hi : i < frames.length),
      mixed16 (bufferA i) (bufferB i) shift weight = frames[i]) (out : ℕ → BitVec 8) :
    deinterlace16 bufferA bufferB out 2 shift weight frames.length =
      Fifo.write out 0 (pcm 2 frames) := by
  refine Fifo.write_flatMap (c := 4) (fun s _ => ?_) fun n hn => ?_
  · rw [List.length_append, length_leBytes, length_leBytes]
  · have hindex : 2 * (n * 2) = n * 4 := by omega
    rw [deinterlace16, h n hn, hindex]

theorem deinterlace24_eq {bufferA bufferB lowA lowB : ℕ → ℤ} {shift weight uncompressedBytes : ℕ}
    {frames : List (ℤ × ℤ)}
    (h : ∀ (i : ℕ) (hi : i < frames.length),
      withLowBytes (mixed24 (bufferA i) (bufferB i) shift weight).1 (lowA i) uncompressedBytes ≡
          (frames[i]).1 [ZMOD 2 ^ 24] ∧
        withLowBytes (mixed24 (bufferA i) (bufferB i) shift weight).2 (lowB i) uncompressedBytes ≡
          (frames[i]).2 [ZMOD 2 ^ 24])
    (out : ℕ → BitVec 8) :
    deinterlace24 bufferA bufferB uncompressedBytes lowA lowB out 2 shift weight frames.length =
      Fifo.write out 0 (pcm 3 frames) := by
  refine Fifo.write_flatMap (c := 6) (fun s _ => ?_) fun n hn => ?_
  · rw [List.length_append, length_leBytes, length_leBytes]
  · obtain ⟨hleft, hright⟩ := h n hn
    have hindex : n * 2 * 3 = n * 6 := by omega
    have hbytes : (2 : ℤ) ^ 24 = 256 ^ 3 := by decide
    rw [hbytes] at hleft hright
    rw [deinterlace24, leBytes_of_modEq hleft, leBytes_of_modEq hright, hindex]

/-! ## Reading -/

/-- The bits are read as `x`, wherever they are. -/
def Reads {α : Type*} (memory : ℤ → BitVec 8) (read : Input → α × Input) (x : α)
    (bits : List Bool) : Prop :=
  ∀ q, Stored memory q bits → read (inputAt q) = (x, inputAt (q + bits.length))

variable {memory : ℤ → BitVec 8}

theorem reads_mod {bits : ℕ} (hbits : bits ≤ 32) (v : ℕ) :
    Reads memory (readbits memory bits) (v % 2 ^ bits) (ofNat bits v) := by
  intro q h
  rw [Stored, ofNat_length] at h
  rw [readbits_inputAt memory hbits, h, toNat_ofNat, ofNat_length]

theorem reads_readbits {bits v : ℕ} (hbits : bits ≤ 32) (hv : v < 2 ^ bits) :
    Reads memory (readbits memory bits) v (ofNat bits v) := by
  have h := @reads_mod memory bits hbits v
  rwa [Nat.mod_eq_of_lt hv] at h

theorem reads_readMany {α : Type*} {read : Input → α × Input} {code : α → List Bool} (xs : List α)
    (h : ∀ x ∈ xs, Reads memory read x (code x)) :
    Reads memory (readMany read xs.length) xs (xs.flatMap code) := by
  induction xs with
  | nil => exact fun q _ => by simp [readMany]
  | cons x xs ih =>
      intro q hstored
      rw [List.flatMap_cons, stored_append] at hstored
      have hfirst := h x List.mem_cons_self q hstored.1
      have hrest := ih (fun y hy => h y (List.mem_cons_of_mem x hy)) _ hstored.2
      rw [List.length_cons, readMany, hfirst]
      simp only [hrest]
      rw [List.flatMap_cons, List.length_append, Nat.cast_add, add_assoc]

theorem reads_readBoth {α : Type*} {read : Input → α × Input} {x y : α} {left right : List Bool}
    (hx : Reads memory read x left) (hy : Reads memory read y right) :
    Reads memory (readBoth read) (x, y) (left ++ right) := by
  intro q hstored
  rw [stored_append] at hstored
  rw [readBoth, hx q hstored.1]
  simp only [hy _ hstored.2]
  rw [List.length_append, Nat.cast_add, add_assoc]

def codeOf (bits : ℕ) (v : ℤ) : List Bool := ofNat bits (v % 2 ^ bits).toNat

theorem reads_codeOf {bits : ℕ} (hbits : bits ≤ 32) (v : ℤ) :
    Reads memory (readbits memory bits) (v % 2 ^ bits).toNat (codeOf bits v) := by
  have hpos : (0 : ℤ) < 2 ^ bits := Int.pow_pos (by decide)
  refine reads_readbits hbits ?_
  have hlt := Int.emod_lt_of_pos v hpos
  have hcast : ((2 ^ bits : ℕ) : ℤ) = 2 ^ bits := by push_cast; rfl
  omega

theorem toNat_emod {bits : ℕ} (v : ℤ) : (((v % 2 ^ bits).toNat : ℕ) : ℤ) = v % 2 ^ bits :=
  Int.toNat_of_nonneg (Int.emod_nonneg v (Int.pow_pos (by decide)).ne')

/-! ## A channel -/

/-- The choices of an encoder for a channel -/
structure ChannelCoding where
  predictionQuantitization : Fin 16
  ricemodifier : Fin 8
  coefs : List (BitVec 16)
  coefs_length_lt : coefs.length < 32

namespace ChannelCoding

def coefTable (c : ChannelCoding) : List ℤ := c.coefs.map BitVec.toInt

def header (c : ChannelCoding) : ChannelHeader :=
  ⟨0, c.predictionQuantitization, c.ricemodifier, c.coefTable⟩

def headerBits (c : ChannelCoding) : List Bool :=
  ofNat 4 0 ++ (ofNat 4 c.predictionQuantitization ++ (ofNat 3 c.ricemodifier ++
    (ofNat 5 c.coefTable.length ++ c.coefTable.flatMap (codeOf 16))))

def errors (c : ChannelCoding) (readSampleSize : ℕ) (samples : ℕ → ℤ) : ℕ → ℤ :=
  predictorErrors samples readSampleSize c.coefTable.length c.predictionQuantitization
    (fun i => c.coefTable.getD i 0)

def bits (c : ChannelCoding) (alac : AlacFile) (readSampleSize : ℕ) (samples : ℕ → ℤ) (n : ℕ) :
    List Bool :=
  riceEncode (alac.riceSettings readSampleSize c.ricemodifier) alac.setinfoRiceInitialHistory 0
    ((List.range n).map (c.errors readSampleSize samples))

theorem reads_coef {v : ℤ} (h : SignedRange 15 v) :
    Reads memory (fun input => (int16 (readbits memory 16 input).1,
      (readbits memory 16 input).2)) v (codeOf 16 v) := by
  intro q hstored
  have hvalue : int16 (v % 2 ^ 16) = v := signed_eq_of_modEq (Int.mod_modEq v _) h
  simp only [reads_codeOf (by decide) v q hstored, toNat_emod, hvalue]

theorem reads_headerBits (c : ChannelCoding) :
    Reads memory (readChannelHeader memory) c.header c.headerBits := by
  intro q h
  have hlength : c.coefTable.length < 2 ^ 5 := by
    rw [coefTable, List.length_map]
    exact c.coefs_length_lt
  rw [headerBits, stored_append, stored_append, stored_append, stored_append] at h
  obtain ⟨htype, hquantitization, hmodifier, hnum, htable⟩ := h
  have hcoefs := @reads_readMany memory _ _ _ c.coefTable (fun v hv => reads_coef (by
    obtain ⟨b, _, rfl⟩ := List.mem_map.mp hv
    exact ⟨BitVec.le_toInt b, BitVec.toInt_lt⟩)) _ htable
  have htype' := reads_readbits (by decide) (by decide) _ htype
  have hquantitization' :=
    reads_readbits (by decide) c.predictionQuantitization.isLt _ hquantitization
  have hmodifier' := reads_readbits (by decide) c.ricemodifier.isLt _ hmodifier
  have hnum' := reads_readbits (by decide) hlength _ hnum
  simp only [readChannelHeader, htype', hquantitization', hmodifier', hnum', hcoefs]
  refine Prod.ext rfl (congrArg inputAt ?_)
  simp only [headerBits, List.length_append, Nat.cast_add, add_assoc]

end ChannelCoding

/-- The settings with which streams can be followed -/
structure AlacFile.Regular (alac : AlacFile) : Prop where
  history_pos : 0 < alac.setinfoRiceInitialHistory
  history_le : alac.setinfoRiceInitialHistory ≤ 512 * 0xFFFF
  kModifier_pos : 0 < alac.setinfoRiceKModifier
  kModifier_lt : alac.setinfoRiceKModifier < 31

/-- The weight of the history stays below that at which its products overflow. -/
def ChannelCoding.Moderate (c : ChannelCoding) (alac : AlacFile) : Prop :=
  0 < c.ricemodifier * alac.setinfoRiceHistoryMult / 4 ∧
    c.ricemodifier * alac.setinfoRiceHistoryMult / 4 < 64

/-- The warm-up of the predictor has room in the work buffers, and it rounds with half of a step. -/
def ChannelCoding.Predictable (c : ChannelCoding) (alac : AlacFile) : Prop :=
  (if c.coefs.length = 0x1f then 1 else c.coefs.length + 1) ≤ alac.setinfoMaxSamplesPerFrame ∧
    (c.coefs.length = 0 ∨ c.coefs.length = 0x1f ∨ 0 < (c.predictionQuantitization : ℕ))

theorem AlacFile.workBufferSize_eq {alac : AlacFile}
    (h : alac.setinfoMaxSamplesPerFrame ≤ 0xFFFF) :
    alac.workBufferSize = alac.setinfoMaxSamplesPerFrame := by
  rw [workBufferSize]
  omega

theorem ChannelCoding.Predictable.predicts {c : ChannelCoding} {alac : AlacFile}
    (h : c.Predictable alac) (hmax : alac.setinfoMaxSamplesPerFrame ≤ 0xFFFF) {n : ℕ}
    (hn : n ≤ alac.setinfoMaxSamplesPerFrame) : alac.Predicts c.header n := by
  have hlength : c.header.predictorCoefTable.length = c.coefs.length := List.length_map _
  obtain ⟨hwarm, hsteps⟩ := h
  constructor
  · rw [alac.workBufferSize_eq hmax, hlength, firReach]
    exact max_le hn hwarm
  · rw [hlength]
    rcases hsteps with hnone | hdifferences | hpos
    · exact Or.inl hnone
    · exact Or.inr (Or.inl hdifferences)
    · exact Or.inr (Or.inr (Or.inr hpos))

theorem AlacFile.Regular.riceSettings {alac : AlacFile} (h : alac.Regular) {c : ChannelCoding}
    (hc : c.Moderate alac) {readSampleSize : ℕ} (hpos : 0 < readSampleSize)
    (hle : readSampleSize ≤ 25) : (alac.riceSettings readSampleSize c.ricemodifier).Regular where
  size_pos := hpos
  size_le := hle
  history_pos := Int.ofNat_lt.mpr h.history_pos
  history_le := by
    have hle := h.history_le
    change (alac.setinfoRiceInitialHistory : ℤ) ≤ 512 * 0xFFFF
    omega
  kModifier_pos := h.kModifier_pos
  kModifier_lt := h.kModifier_lt
  historyMult_pos := Int.ofNat_lt.mpr hc.1
  historyMult_lt := Int.ofNat_lt.mpr hc.2
  mask_odd := by
    have hpos := Nat.two_pow_pos (alac.setinfoRiceKModifier - 1)
    have hpow : 1 <<< alac.setinfoRiceKModifier = 2 * 2 ^ (alac.setinfoRiceKModifier - 1) := by
      rw [Nat.shiftLeft_eq, Nat.one_mul, ← Nat.pow_succ',
        Nat.succ_eq_add_one, Nat.sub_add_cancel h.kModifier_pos]
    change (1 <<< alac.setinfoRiceKModifier - 1) % 2 = 1
    omega

theorem shortRuns_of_length {samples : List ℤ} (h : samples.length ≤ 0xFFFF) :
    ShortRuns samples := by
  rintro before n after rfl
  simp only [List.length_append, List.length_replicate] at h
  omega

/-- A channel is decoded into its samples, and the reader is behind it. -/
theorem decodeChannel_bits {alac : AlacFile} (halac : alac.Regular) {c : ChannelCoding}
    (hc : c.Moderate alac) {readSampleSize : ℕ} (hpos : 0 < readSampleSize)
    (hle : readSampleSize ≤ 25) {samples : ℕ → ℤ} {n : ℕ} (hn : n ≤ 0xFFFF)
    (hroom : n ≤ alac.workBufferSize) (hpredicts : alac.Predicts c.header n)
    (hrange : ∀ i < n, SignedRange (readSampleSize - 1) (samples i)) (errorBuffer buffer : ℕ → ℤ)
    {q : ℤ} (hstored : Stored memory q (c.bits alac readSampleSize samples n)) :
    ∃ a, alac.decodeChannel memory c.header readSampleSize n errorBuffer buffer (inputAt q) =
        some a ∧
      (∀ i < n, a.2.1 i = samples i) ∧
      a.2.2 = inputAt (q + (c.bits alac readSampleSize samples n).length) := by
  have hlength : ((List.range n).map (c.errors readSampleSize samples)).length = n := by
    rw [List.length_map, List.length_range]
  have herrors : ∀ x ∈ (List.range n).map (c.errors readSampleSize samples),
      SignedRange (readSampleSize - 1) x := by
    intro x hx
    obtain ⟨i, hi, rfl⟩ := List.mem_map.mp hx
    exact predictorErrors_range hpos hrange _ _ _ i (List.mem_range.mp hi)
  have hshifts : alac.Shifts readSampleSize := ⟨halac.kModifier_lt, hpos, by omega⟩
  obtain ⟨rice, hdecode, hbuffer, hinput⟩ := entropyRiceDecode_riceEncode
    (halac.riceSettings hc hpos hle) errorBuffer (hlength.trans_le hroom) herrors
    (shortRuns_of_length (hlength.trans_le hn)) hstored
  rw [hlength] at hdecode
  have hricemodifier : c.header.ricemodifier = c.ricemodifier := rfl
  rw [AlacFile.decodeChannel, if_pos hshifts, hricemodifier, hdecode, Option.bind_some,
    if_pos (show c.header.predictionType = 0 from rfl), if_pos hpredicts]
  refine ⟨_, rfl, ?_, hinput⟩
  refine predictorDecompressFirAdapt_predictorErrors hpos (by omega) hrange _ _ _ _ fun i hi => ?_
  have hwrite := @Fifo.write_add _ errorBuffer
    ((List.range n).map (c.errors readSampleSize samples)) 0 i (hi.trans_eq hlength.symm)
  rw [Nat.zero_add, List.getElem_map, List.getElem_range] at hwrite
  exact (congrFun hbuffer i).trans hwrite

/-! ## A frame of two channels -/

/-- The choices of an encoder for the samples of a frame -/
inductive Body where
  | verbatim
  | compressed (uncompressedBytes : Fin 3) (interlacingShift : Fin 32)
    (interlacingLeftWeight : Fin 256) (a b : ChannelCoding)

def bothCodes (bits : ℕ) (s : ℤ × ℤ) : List Bool := codeOf bits s.1 ++ codeOf bits s.2

def lowPart (uncompressedBytes : ℕ) (s : ℤ × ℤ) : ℤ × ℤ :=
  (s.1 % 2 ^ (uncompressedBytes * 8), s.2 % 2 ^ (uncompressedBytes * 8))

def mixedPart (readSampleSize uncompressedBytes interlacingShift interlacingLeftWeight : ℕ)
    (s : ℤ × ℤ) : ℤ × ℤ :=
  mix readSampleSize interlacingShift interlacingLeftWeight (s.1 / 2 ^ (uncompressedBytes * 8))
    (s.2 / 2 ^ (uncompressedBytes * 8))

namespace Body

def bits (alac : AlacFile) (frames : List (ℤ × ℤ)) : Body → List Bool
  | verbatim => frames.flatMap (bothCodes alac.setinfoSampleSize)
  | compressed uncompressedBytes shift weight a b =>
    let size := alac.setinfoSampleSize + 1 - uncompressedBytes * 8
    let mixed := fun i => mixedPart size uncompressedBytes shift weight (frames.getD i (0, 0))
    ofNat 8 shift ++ (ofNat 8 weight ++ (a.headerBits ++ (b.headerBits ++
      ((if (uncompressedBytes : ℕ) ≠ 0 then
          (frames.map (lowPart uncompressedBytes)).flatMap (bothCodes (uncompressedBytes * 8))
        else []) ++
        (a.bits alac size (fun i => (mixed i).1) frames.length ++
          b.bits alac size (fun i => (mixed i).2) frames.length)))))

def isNotCompressed : Body → Bool
  | verbatim => true
  | compressed .. => false

def uncompressedBytes : Body → Fin 3
  | verbatim => 0
  | compressed uncompressedBytes .. => uncompressedBytes

def Fits (alac : AlacFile) : Body → Prop
  | verbatim => True
  | compressed uncompressedBytes _ _ a b =>
    a.Moderate alac ∧ b.Moderate alac ∧ a.Predictable alac ∧ b.Predictable alac ∧
      (alac.setinfoSampleSize = 16 → uncompressedBytes = 0)

end Body

theorem reads_lowBytes {uncompressedBytes : ℕ} (h : uncompressedBytes ≤ 2) (v : ℤ) :
    Reads memory (readLowBytes memory uncompressedBytes) (v % 2 ^ (uncompressedBytes * 8))
      (codeOf (uncompressedBytes * 8) (v % 2 ^ (uncompressedBytes * 8))) := by
  intro q hstored
  have hpos : (0 : ℤ) < 2 ^ (uncompressedBytes * 8) := Int.pow_pos (by decide)
  have hpow : (2 : ℤ) ^ (uncompressedBytes * 8) ≤ 2 ^ 16 :=
    pow_le_pow_right₀ (by decide) (by omega)
  have hlow := Int.emod_nonneg v hpos.ne'
  have hlow' := Int.emod_lt_of_pos v hpos
  have hvalue : int32 (v % 2 ^ (uncompressedBytes * 8)) = v % 2 ^ (uncompressedBytes * 8) :=
    int32_of_lt (by omega) (by omega)
  rw [readLowBytes]
  simp only [reads_codeOf (show uncompressedBytes * 8 ≤ 32 by omega) _ q hstored, toNat_emod,
    Int.emod_emod, hvalue]

theorem shifted_or_low {u : ℕ} (h : u < 2 ^ 24) :
    (u / 2 ^ 8) <<< (24 - 16) % 2 ^ 32 ||| u % 2 ^ 8 = u := by
  have hshift : (u / 2 ^ 8) <<< (24 - 16) < 2 ^ 32 := by
    rw [Nat.shiftLeft_eq]
    omega
  have hlow : u % 2 ^ 8 < 2 ^ (24 - 16) := Nat.mod_lt u (by decide)
  rw [Nat.mod_eq_of_lt hshift, ← Nat.shiftLeft_add_eq_or_of_lt hlow, Nat.shiftLeft_eq]
  omega

theorem reads_audiobits {size : ℕ} (hsize : size = 16 ∨ size = 24) {v : ℤ}
    (hv : SignedRange (size - 1) v) :
    Reads memory (readAudiobits memory size) v (codeOf size v) := by
  intro q hstored
  rcases hsize with rfl | rfl
  · rw [readAudiobits, if_pos (by decide)]
    simp only [reads_codeOf (by decide) v q hstored, toNat_emod]
    have hvalue : signExtended32 (int32 (v % 2 ^ 16)) 16 = v := by
      rw [signExtended32_eq (by decide) (by decide)]
      exact signed_eq_of_modEq (Int.mod_modEq v _) hv
    rw [hvalue]
  · have hlt : (v % 2 ^ 24).toNat < 2 ^ 24 := by
      have hlt := Int.emod_lt_of_pos v (show (0 : ℤ) < 2 ^ 24 by decide)
      omega
    have hlength : ((codeOf 24 v).length : ℤ) = 16 + 8 := by
      rw [codeOf, ofNat_length]
      rfl
    have hsplit : codeOf 24 v = ofNat 16 ((v % 2 ^ 24).toNat / 2 ^ 8) ++
        ofNat 8 (v % 2 ^ 24).toNat := ofNat_add 16 8 _
    rw [hsplit, stored_append] at hstored
    have hhigh := reads_readbits (by decide) (by omega) q hstored.1
    have hlow := reads_mod (by decide) _ _ hstored.2
    rw [ofNat_length] at hhigh hlow
    rw [ofNat_length] at hlow
    rw [readAudiobits, if_neg (by decide)]
    simp only [hhigh, hlow]
    have hvalue : signed 24 (v % 2 ^ 24) = v := signed_eq_of_modEq (Int.mod_modEq v _) hv
    rw [shifted_or_low hlt, toNat_emod, hvalue, hlength]
    refine Prod.ext rfl (congrArg inputAt ?_)
    push_cast
    ring

def Made (alac : AlacFile) (uncompressedBytes shift weight : ℕ) (a b lowA lowB : ℤ) (s : ℤ × ℤ) :
    Prop :=
  (alac.setinfoSampleSize = 16 → mixed16 a b shift weight = s) ∧
    (alac.setinfoSampleSize = 24 →
      withLowBytes (mixed24 a b shift weight).1 lowA uncompressedBytes ≡ s.1 [ZMOD 2 ^ 24] ∧
        withLowBytes (mixed24 a b shift weight).2 lowB uncompressedBytes ≡ s.2 [ZMOD 2 ^ 24])

theorem finishStereo_outbuffer {alac : AlacFile} (hchannels : alac.numChannels = 2)
    (hsize : alac.setinfoSampleSize = 16 ∨ alac.setinfoSampleSize = 24)
    {uncompressedBytes shift weight : ℕ} {frames : List (ℤ × ℤ)} (hshift : shift < 32)
    (h : ∀ (i : ℕ) (hi : i < frames.length),
      Made alac uncompressedBytes shift weight (alac.outputSamplesBufferA i)
        (alac.outputSamplesBufferB i) (alac.uncompressedBytesBufferA i)
        (alac.uncompressedBytesBufferB i) frames[i])
    (out : ℕ → BitVec 8) (outputsize : ℤ) :
    alac.finishStereo uncompressedBytes shift weight frames.length out outputsize =
      some ⟨alac, Fifo.write out 0 (pcm (alac.setinfoSampleSize / 8) frames), outputsize⟩ := by
  have hmixes : AlacFile.Mixes shift weight frames.length := Or.inr (Or.inl hshift)
  rw [AlacFile.finishStereo, hchannels]
  rcases hsize with h16 | h24
  · rw [h16]
    simp only [hmixes, if_true, deinterlace16_eq (fun i hi => (h i hi).1 h16) out, Nat.reduceDiv]
  · rw [h24]
    simp only [hmixes, if_true, deinterlace24_eq (fun i hi => (h i hi).2 h24) out, Nat.reduceDiv]

theorem made_verbatim (alac : AlacFile) {s : ℤ × ℤ}
    (h : SignedRange (alac.setinfoSampleSize - 1) s.1 ∧
      SignedRange (alac.setinfoSampleSize - 1) s.2) (lowA lowB : ℤ) :
    Made alac 0 0 0 s.1 s.2 lowA lowB s := by
  refine ⟨fun h16 => ?_, fun h24 => ⟨rfl, rfl⟩⟩
  rw [h16] at h
  exact Prod.ext (signed_of_range h.1) (signed_of_range h.2)

/-- The parts of a sample are enough to make it. -/
theorem made_compressed {alac : AlacFile} {uncompressedBytes : ℕ} (hle : uncompressedBytes ≤ 2)
    (hwhole : alac.setinfoSampleSize = 16 → uncompressedBytes = 0) (shift weight : ℕ) {s : ℤ × ℤ}
    (h : SignedRange (alac.setinfoSampleSize - 1) s.1 ∧
      SignedRange (alac.setinfoSampleSize - 1) s.2) {lowA lowB : ℤ}
    (hlowA : uncompressedBytes ≠ 0 → lowA = (lowPart uncompressedBytes s).1)
    (hlowB : uncompressedBytes ≠ 0 → lowB = (lowPart uncompressedBytes s).2) :
    Made alac uncompressedBytes shift weight
      (mixedPart (alac.setinfoSampleSize + 1 - uncompressedBytes * 8) uncompressedBytes shift weight
        s).1
      (mixedPart (alac.setinfoSampleSize + 1 - uncompressedBytes * 8) uncompressedBytes shift weight
        s).2 lowA lowB s := by
  constructor
  · intro h16
    obtain rfl := hwhole h16
    rw [h16] at h
    rw [h16, mixedPart, Nat.zero_mul, pow_zero, Int.ediv_one, Int.ediv_one]
    exact mixed16_mix (by decide) (by decide) shift weight h.1 h.2
  · intro h24
    have hmix := @mixed24_mix (24 - uncompressedBytes * 8)
      (alac.setinfoSampleSize + 1 - uncompressedBytes * 8) (by omega) (by omega) shift weight
      (s.1 / 2 ^ (uncompressedBytes * 8)) (s.2 / 2 ^ (uncompressedBytes * 8))
    by_cases hzero : uncompressedBytes = 0
    · subst hzero
      have hleft := withLowBytes_modEq hle hmix.1
      have hright := withLowBytes_modEq hle hmix.2
      rw [withLowBytes, if_neg (by decide)] at hleft hright ⊢
      rw [withLowBytes, if_neg (by decide)]
      exact ⟨hleft, hright⟩
    · rw [hlowA hzero, hlowB hzero]
      exact ⟨withLowBytes_modEq hle hmix.1, withLowBytes_modEq hle hmix.2⟩

theorem signedRange_div {w k : ℕ} (hk : k ≤ w) {v : ℤ} (h : SignedRange w v) :
    SignedRange (w - k) (v / 2 ^ k) := by
  have hpos : (0 : ℤ) < 2 ^ k := Int.pow_pos (by decide)
  have hpow : (2 : ℤ) ^ w = 2 ^ (w - k) * 2 ^ k := by
    rw [← pow_add]
    congr 1
    omega
  obtain ⟨hle, hlt⟩ := h
  rw [hpow] at hle hlt
  refine ⟨(Int.le_ediv_iff_mul_le hpos).mpr ?_, Int.ediv_lt_of_lt_mul hpos hlt⟩
  rwa [Int.neg_mul]

theorem mixedPart_range {size uncompressedBytes : ℕ} (hsize : uncompressedBytes * 8 < size)
    (shift weight : ℕ) {s : ℤ × ℤ}
    (h : SignedRange (size - 1) s.1 ∧ SignedRange (size - 1) s.2) :
    SignedRange (size + 1 - uncompressedBytes * 8 - 1)
        (mixedPart (size + 1 - uncompressedBytes * 8) uncompressedBytes shift weight s).1 ∧
      SignedRange (size + 1 - uncompressedBytes * 8 - 1)
        (mixedPart (size + 1 - uncompressedBytes * 8) uncompressedBytes shift weight s).2 := by
  have hwidth : size + 1 - uncompressedBytes * 8 = size - 1 - uncompressedBytes * 8 + 2 := by omega
  have hhigh : uncompressedBytes * 8 ≤ size - 1 := by omega
  rw [hwidth]
  exact mix_range shift weight (signedRange_div hhigh h.1) (signedRange_div hhigh h.2)

theorem getElem_write {values : List ℤ} (buffer : ℕ → ℤ) {i : ℕ} (hi : i < values.length) :
    Fifo.write buffer 0 values i = values[i] := by
  have h := @Fifo.write_add _ buffer values 0 i hi
  rwa [Nat.zero_add] at h

/-- The low bytes of a frame, if there are any -/
theorem reads_lowParts {uncompressedBytes : ℕ} (hle : uncompressedBytes ≤ 2)
    (frames : List (ℤ × ℤ)) :
    Reads memory
      (fun input => if uncompressedBytes ≠ 0 then
          readMany (readBoth (readLowBytes memory uncompressedBytes)) frames.length input
        else ([], input))
      (if uncompressedBytes ≠ 0 then frames.map (lowPart uncompressedBytes) else [])
      (if uncompressedBytes ≠ 0 then
        (frames.map (lowPart uncompressedBytes)).flatMap (bothCodes (uncompressedBytes * 8))
      else []) := by
  by_cases hzero : uncompressedBytes ≠ 0
  · simp only [if_pos hzero]
    have h := @reads_readMany memory _ (readBoth (readLowBytes memory uncompressedBytes))
      (bothCodes (uncompressedBytes * 8)) (frames.map (lowPart uncompressedBytes))
      (fun p hp => by
        obtain ⟨s, _, rfl⟩ := List.mem_map.mp hp
        exact reads_readBoth (reads_lowBytes hle s.1) (reads_lowBytes hle s.2))
    rwa [List.length_map] at h
  · simp only [if_neg hzero]
    intro q _
    simp

theorem decodeStereo_verbatim {alac : AlacFile} (hchannels : alac.numChannels = 2)
    (hsize : alac.setinfoSampleSize = 16 ∨ alac.setinfoSampleSize = 24) {frames : List (ℤ × ℤ)}
    (hroom : frames.length ≤ alac.workBufferSize)
    (hrange : ∀ s ∈ frames, SignedRange (alac.setinfoSampleSize - 1) s.1 ∧
      SignedRange (alac.setinfoSampleSize - 1) s.2)
    (out : ℕ → BitVec 8) (outputsize : ℤ) {q : ℤ}
    (hstored : Stored memory q (Body.verbatim.bits alac frames)) :
    ∃ d, alac.decodeStereo memory true (0 : Fin 3) frames.length out outputsize (inputAt q) =
        some d ∧
      d.outbuffer = Fifo.write out 0 (pcm (alac.setinfoSampleSize / 8) frames) ∧
      d.outputsize = outputsize := by
  have hread := reads_readMany frames (fun s hs => reads_readBoth
    (reads_audiobits hsize (hrange s hs).1) (reads_audiobits hsize (hrange s hs).2)) q hstored
  rw [AlacFile.decodeStereo]
  simp only [if_true, not_lt.mpr hroom, if_false, hread]
  refine ⟨_, finishStereo_outbuffer (by exact hchannels) (by exact hsize) (by decide)
    (fun i hi => ?_) out outputsize, rfl, rfl⟩
  simp only [getElem_write _ (show i < (frames.map Prod.fst).length by simpa using hi),
    getElem_write _ (show i < (frames.map Prod.snd).length by simpa using hi),
    List.getElem_map]
  exact made_verbatim alac (hrange _ (List.getElem_mem hi)) _ _

/-- The body of a frame is decoded into its samples. -/
theorem decodeStereo_bits {alac : AlacFile} (halac : alac.Regular)
    (hchannels : alac.numChannels = 2)
    (hsize : alac.setinfoSampleSize = 16 ∨ alac.setinfoSampleSize = 24) {body : Body}
    (hfits : body.Fits alac) {frames : List (ℤ × ℤ)}
    (hn : frames.length ≤ alac.setinfoMaxSamplesPerFrame)
    (hmax : alac.setinfoMaxSamplesPerFrame ≤ 0xFFFF)
    (hrange : ∀ s ∈ frames, SignedRange (alac.setinfoSampleSize - 1) s.1 ∧
      SignedRange (alac.setinfoSampleSize - 1) s.2)
    (out : ℕ → BitVec 8) (outputsize : ℤ) {q : ℤ}
    (hstored : Stored memory q (body.bits alac frames)) :
    ∃ d, alac.decodeStereo memory body.isNotCompressed body.uncompressedBytes frames.length out
        outputsize (inputAt q) = some d ∧
      d.outbuffer = Fifo.write out 0 (pcm (alac.setinfoSampleSize / 8) frames) ∧
      d.outputsize = outputsize := by
  have hroom : frames.length ≤ alac.workBufferSize := hn.trans_eq (alac.workBufferSize_eq hmax).symm
  cases body with
  | verbatim =>
      exact decodeStereo_verbatim hchannels hsize hroom hrange out outputsize hstored
  | compressed uncompressedBytes shift weight a b =>
      obtain ⟨ha, hb, hpredictsA, hpredictsB, hwhole⟩ := hfits
      have hle : (uncompressedBytes : ℕ) ≤ 2 := by omega
      have hwhole' : alac.setinfoSampleSize = 16 → (uncompressedBytes : ℕ) = 0 := fun h16 => by
        rw [hwhole h16]
        rfl
      have hwidth : (uncompressedBytes : ℕ) * 8 < alac.setinfoSampleSize := by
        rcases hsize with h16 | h24
        · rw [hwhole' h16]
          omega
        · omega
      have hsize' : alac.setinfoSampleSize ≤ 24 := by omega
      have hget (i : ℕ) (hi : i < frames.length) : frames.getD i (0, 0) = frames[i] :=
        List.getD_eq_getElem _ _ hi
      have hmem (i : ℕ) (hi : i < frames.length) : frames.getD i (0, 0) ∈ frames := by
        rw [hget i hi]
        exact List.getElem_mem hi
      have hmixed (i : ℕ) (hi : i < frames.length) :=
        mixedPart_range hwidth shift weight (hrange _ (hmem i hi))
      simp only [Body.bits, stored_append] at hstored
      obtain ⟨hshift, hweight, hheaderA, hheaderB, hlow, hbitsA, hbitsB⟩ := hstored
      have hshift' := reads_readbits (by decide) (by omega) _ hshift
      have hweight' := reads_readbits (by decide) weight.isLt _ hweight
      have hheaderA' := a.reads_headerBits _ hheaderA
      have hheaderB' := b.reads_headerBits _ hheaderB
      obtain ⟨channelA, hchannelA, hsamplesA, hinputA⟩ := decodeChannel_bits halac ha
        (by omega) (by omega) (hn.trans hmax) hroom (hpredictsA.predicts hmax hn)
        (fun i hi => (hmixed i hi).1) alac.predictErrorBufferA alac.outputSamplesBufferA hbitsA
      obtain ⟨channelB, hchannelB, hsamplesB, -⟩ := decodeChannel_bits halac hb
        (by omega) (by omega) (hn.trans hmax) hroom (hpredictsB.predicts hmax hn)
        (fun i hi => (hmixed i hi).2) alac.predictErrorBufferB alac.outputSamplesBufferB hbitsB
      have hbytes := reads_lowParts hle frames _ hlow
      rw [AlacFile.decodeStereo]
      simp only [Body.isNotCompressed, Body.uncompressedBytes, hshift', hweight', hheaderA',
        hheaderB', hbytes, not_lt.mpr hroom, and_false, Bool.false_eq_true, if_false, hchannelA,
        hinputA, hchannelB, Option.bind_some]
      refine ⟨_, finishStereo_outbuffer (by exact hchannels) (by exact hsize) shift.isLt
        (fun i hi => ?_) out outputsize, rfl, rfl⟩
      simp only [hsamplesA i hi, hsamplesB i hi, hget i hi]
      refine made_compressed hle hwhole' shift weight (hrange _ (List.getElem_mem hi)) ?_ ?_
      · intro hzero
        simp only [if_pos hzero]
        rw [getElem_write _ (by simpa using hi)]
        simp
      · intro hzero
        simp only [if_pos hzero]
        rw [getElem_write _ (by simpa using hi)]
        simp

/-! ## The frame -/

/-- The header of a frame of one or two channels: the decoder skips some of it, and the number of
samples need not stand in it. -/
structure FrameHeader where
  channels : Fin 2
  skipped4 : Fin 16
  skipped12 : Fin 4096
  hasSize : Bool
  uncompressedBytes : Fin 4
  isNotCompressed : Bool

def FrameHeader.bits (header : FrameHeader) (n : ℕ) : List Bool :=
  ofNat 3 header.channels ++ (ofNat 4 header.skipped4 ++ (ofNat 12 header.skipped12 ++
    (ofNat 1 header.hasSize.toNat ++ (ofNat 2 header.uncompressedBytes ++
      (ofNat 1 header.isNotCompressed.toNat ++ if header.hasSize then ofNat 32 n else [])))))

/-- A frame of two channels, with a free choice of what the decoder skips -/
structure FrameCoding where
  skipped4 : Fin 16
  skipped12 : Fin 4096
  hasSize : Bool
  body : Body

def FrameCoding.header (coding : FrameCoding) : FrameHeader :=
  ⟨1, coding.skipped4, coding.skipped12, coding.hasSize, coding.body.uncompressedBytes.castSucc,
    coding.body.isNotCompressed⟩

def FrameCoding.bits (coding : FrameCoding) (alac : AlacFile) (frames : List (ℤ × ℤ)) : List Bool :=
  coding.header.bits frames.length ++ coding.body.bits alac frames

/-- A decoder for two channels, as `alac_create` makes it -/
structure AlacFile.TwoChannels (alac : AlacFile) : Prop where
  numChannels_eq : alac.numChannels = 2
  sampleSize_eq : alac.setinfoSampleSize = 16 ∨ alac.setinfoSampleSize = 24
  bytesPerSample_eq : alac.bytesPerSample = alac.setinfoSampleSize / 8 * 2

theorem length_pcm (bytes : ℕ) (frames : List (ℤ × ℤ)) :
    (pcm bytes frames).length = frames.length * (bytes * 2) := by
  induction frames with
  | nil => simp [pcm]
  | cons s frames ih =>
      rw [pcm, List.flatMap_cons, List.length_append, List.length_append, length_leBytes,
        length_leBytes]
      rw [pcm] at ih
      rw [ih, List.length_cons]
      ring

theorem readSize {size n : ℕ} {hasSize : Bool} (hn : n < 2 ^ 31)
    (hsize : hasSize = false → n = size) {q : ℤ}
    (h : Stored memory q (if hasSize then ofNat 32 n else [])) :
    (if hasSize.toNat ≠ 0 then int32 (readbits memory 32 (inputAt q)).1 else int32 size) = n ∧
      (if hasSize.toNat ≠ 0 then (readbits memory 32 (inputAt q)).2 else inputAt q) =
        inputAt (q + (if hasSize then ofNat 32 n else []).length) := by
  cases hasSize with
  | true =>
      have hread := reads_readbits (by decide) (hn.trans (by decide)) q h
      simp [hread, int32_natCast hn]
  | false =>
      obtain rfl := hsize rfl
      simp [int32_natCast hn]

/-- The header of a frame is read up to its body. -/
theorem alacDecodeFrame_header {alac : AlacFile} {header : FrameHeader} {n : ℕ} (hn : n < 2 ^ 31)
    (hsize : header.hasSize = false → n = alac.setinfoMaxSamplesPerFrame)
    (out : ℕ → BitVec 8) {outputsize : ℤ}
    (hallocated : int32 (int32 alac.setinfoMaxSamplesPerFrame * alac.bytesPerSample) ≤ outputsize)
    (hstored : Stored memory 0 (header.bits n)) :
    alac.alacDecodeFrame memory out outputsize =
      if int32 (n * alac.bytesPerSample) > outputsize then some ⟨alac, out, 0⟩
      else if (header.channels : ℕ) = 0 then
        alac.decodeMono memory header.isNotCompressed header.uncompressedBytes n out
          (int32 (n * alac.bytesPerSample)) (inputAt (0 + (header.bits n).length))
      else
        alac.decodeStereo memory header.isNotCompressed header.uncompressedBytes n out
          (int32 (n * alac.bytesPerSample)) (inputAt (0 + (header.bits n).length)) := by
  have hlength : (0 : ℤ) + (header.bits n).length = 0 + (ofNat 3 header.channels).length +
      (ofNat 4 header.skipped4).length + (ofNat 12 header.skipped12).length +
      (ofNat 1 header.hasSize.toNat).length + (ofNat 2 header.uncompressedBytes).length +
      (ofNat 1 header.isNotCompressed.toNat).length +
      (if header.hasSize then ofNat 32 n else []).length := by
    simp only [FrameHeader.bits, List.length_append, Nat.cast_add, add_assoc]
  rw [FrameHeader.bits, stored_append, stored_append, stored_append, stored_append, stored_append,
    stored_append] at hstored
  obtain ⟨hchannels, hskip4, hskip12, hhas, hlow, hnot, hnumber⟩ := hstored
  have hchannels' := reads_readbits (by decide) (by omega) _ hchannels
  have hskip4' := reads_readbits (by decide) header.skipped4.isLt _ hskip4
  have hskip12' := reads_readbits (by decide) header.skipped12.isLt _ hskip12
  have hhas' := reads_readbits (by decide) (Bool.toNat_lt _) _ hhas
  have hlow' := reads_readbits (by decide) header.uncompressedBytes.isLt _ hlow
  have hnot' := reads_readbits (by decide) (Bool.toNat_lt _) _ hnot
  have hnumber' := readSize hn hsize hnumber
  have hone : ∀ b : Bool, (b.toNat ≠ 0) = (b = true) := by decide
  have htwo : (header.channels : ℕ) ≤ 1 := by omega
  rw [AlacFile.alacDecodeFrame, hlength]
  simp only [hchannels', hskip4', hskip12', hhas', hlow', hnot', hnumber',
    if_neg (not_lt.mpr hallocated), gt_iff_lt, htwo, if_true, Int.toNat_natCast]
  simp only [hone, Bool.decide_eq_true]

/-- Every frame is decoded into its samples, and nothing else is written. -/
theorem alacDecodeFrame_bits {alac : AlacFile} (halac : alac.TwoChannels) (hregular : alac.Regular)
    {coding : FrameCoding} (hfits : coding.body.Fits alac) {frames : List (ℤ × ℤ)}
    (hn : frames.length ≤ alac.setinfoMaxSamplesPerFrame)
    (hmax : alac.setinfoMaxSamplesPerFrame ≤ 0xFFFF)
    (hsize : coding.hasSize = false → frames.length = alac.setinfoMaxSamplesPerFrame)
    (hrange : ∀ s ∈ frames, SignedRange (alac.setinfoSampleSize - 1) s.1 ∧
      SignedRange (alac.setinfoSampleSize - 1) s.2)
    (out : ℕ → BitVec 8) {outputsize : ℤ}
    (hallocated : alac.setinfoMaxSamplesPerFrame * alac.bytesPerSample ≤ outputsize)
    (hstored : Stored memory 0 (coding.bits alac frames)) :
    ∃ d, alac.alacDecodeFrame memory out outputsize = some d ∧
      d.outbuffer = Fifo.write out 0 (pcm (alac.setinfoSampleSize / 8) frames) ∧
      d.outputsize = (pcm (alac.setinfoSampleSize / 8) frames).length := by
  have hbytes : alac.bytesPerSample ≤ 6 := by
    rw [halac.bytesPerSample_eq]
    rcases halac.sampleSize_eq with h | h <;> omega
  have hproduct : alac.setinfoMaxSamplesPerFrame * alac.bytesPerSample ≤ 0xFFFF * 6 :=
    Nat.mul_le_mul hmax hbytes
  have hfewer := Nat.mul_le_mul_right alac.bytesPerSample hn
  have hfirst : int32 (int32 alac.setinfoMaxSamplesPerFrame * alac.bytesPerSample) ≤
      outputsize := by
    rw [int32_natCast (by omega), ← Nat.cast_mul, int32_natCast (by omega)]
    omega
  have hwritten : int32 ((frames.length : ℤ) * alac.bytesPerSample) =
      (frames.length * alac.bytesPerSample : ℕ) := by
    rw [← Nat.cast_mul, int32_natCast (by omega)]
  have hsecond : ¬int32 ((frames.length : ℤ) * alac.bytesPerSample) > outputsize := by
    rw [hwritten]
    omega
  rw [FrameCoding.bits, stored_append] at hstored
  have hdecode := alacDecodeFrame_header (by omega) hsize out hfirst hstored.1
  obtain ⟨d, hd, hout, hwrote⟩ := decodeStereo_bits hregular halac.numChannels_eq
    halac.sampleSize_eq hfits hn hmax hrange out (int32 (frames.length * alac.bytesPerSample))
    hstored.2
  refine ⟨d, ?_, hout, ?_⟩
  · rw [hdecode, if_neg hsecond, if_neg (by exact Nat.one_ne_zero)]
    exact hd
  · rw [hwrote, hwritten, length_pcm, halac.bytesPerSample_eq]

/-- The decoder of a stream with frames of up to 352 samples of three bytes -/
def alac352 : AlacFile where
  numChannels := 2
  bytesPerSample := 6
  setinfoMaxSamplesPerFrame := 352
  setinfoSampleSize := 24
  setinfoRiceHistoryMult := 40
  setinfoRiceInitialHistory := 10
  setinfoRiceKModifier := 14
  predictErrorBufferA := 0
  predictErrorBufferB := 0
  outputSamplesBufferA := 0
  outputSamplesBufferB := 0
  uncompressedBytesBufferA := 0
  uncompressedBytesBufferB := 0

/-- Two coefficients for one channel, and differences to the sample before for the other -/
def twoSampleCoding : FrameCoding where
  skipped4 := 0
  skipped12 := 0
  hasSize := true
  body := .compressed 1 2 1 ⟨9, 4, [3, -2], by decide⟩ ⟨9, 4, List.replicate 31 0, by decide⟩

theorem alacDecodeFrame_twoSamples :
    ∃ d, alac352.alacDecodeFrame
        (pack (twoSampleCoding.bits alac352 [(0x7FFFFF, -5), (0, 300)])) 0 2112 = some d ∧
      d.outbuffer =
        Fifo.write 0 0 (pcm (alac352.setinfoSampleSize / 8) [(0x7FFFFF, -5), (0, 300)]) ∧
      d.outputsize = (pcm (alac352.setinfoSampleSize / 8) [(0x7FFFFF, -5), (0, 300)]).length :=
  alacDecodeFrame_bits
    ⟨rfl, Or.inr rfl, by decide⟩ ⟨by decide, by decide, by decide, by decide⟩
    (show twoSampleCoding.body.Fits alac352 from
      ⟨⟨by decide, by decide⟩, ⟨by decide, by decide⟩,
        ⟨by decide, Or.inr (Or.inr (by decide))⟩, ⟨by decide, Or.inr (Or.inl (by decide))⟩,
        fun h => absurd h (by decide)⟩)
    (by decide) (by decide) (fun h => absurd h (by decide))
    (by
      intro s hs
      rcases List.mem_pair.mp hs with rfl | rfl <;> (constructor <;> constructor <;> decide))
    0 (by decide) (stored_pack _)

end Alac

end ShairportSync
