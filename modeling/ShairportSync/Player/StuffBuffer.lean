import Mathlib.Data.Stream.Defs
import ShairportSync.Player.ProcessSample

/-!
# Basic interpolation

`stuff_buffer_basic_32` processes the samples of the input one by one. On the way it may leave out a
frame, or put in the mean of the frames on both sides. What it does is to process the samples of a
changed list of frames.
-/

namespace ShairportSync

namespace Player

open Numeric

/-! ## Output -/

def SpsFormat.size : SpsFormat → ℕ
  | .s32 | .s32le | .s32be | .s24 | .s24le | .s24be => 4
  | .s243le | .s243be => 3
  | .s16 | .s16le | .s16be => 2
  | .s8 | .u8 => 1
  | .unknown | .auto | .invalid => 0

/-- What does not change while a buffer is processed. -/
structure SampleOutput where
  bigEndian : Bool
  loudness : Bool
  format : SpsFormat
  /-- `fix_volume` -/
  volume : ℤ
  dither : Bool
  isSome_bits : format.bits.isSome
  volume_nonneg : 0 ≤ volume
  volume_le : volume ≤ 0x10000

/-- The random number before, and those that `r64i` will return. -/
structure Noise where
  previousRandomNumber : BitVec 64
  draws : Stream' (BitVec 64)

def Noise.next (noise : Noise) : Noise := ⟨noise.draws.head, noise.draws.tail⟩

/-- One call of `process_sample`. -/
def SampleOutput.process (out : SampleOutput) (noise : Noise) (sample : BitVec 32) :
    Option (Bytes × Noise) :=
  if out.dither then
    (processSample out.bigEndian out.loudness out.format out.volume
      (some (noise.draws.head, noise.previousRandomNumber)) sample).map fun bytes =>
        (bytes, noise.next)
  else
    (processSample out.bigEndian out.loudness out.format out.volume none sample).map fun bytes =>
      (bytes, noise)

/-! ## The code -/

def mean32 (a b : BitVec 32) : BitVec 32 := BitVec.ofInt 32 ((a.toInt + b.toInt).tdiv 2)

def sampleAt (input : List (BitVec 32)) (i : ℤ) : Option (BitVec 32) :=
  if 0 ≤ i then input[i.toNat]? else none

structure StuffState where
  /-- The number of samples before `inptr`. -/
  inptr : ℤ
  /-- What is before `l_outptr`. -/
  outptr : Bytes
  noise : Noise

section Code

variable (out : SampleOutput) (input : List (BitVec 32))

def StuffState.put (st : StuffState) (sample : BitVec 32) : Option StuffState :=
  (out.process st.noise sample).map fun written =>
    { st with outptr := st.outptr ++ written.1, noise := written.2 }

/-- `process_sample(*inptr++, …)` -/
def processNext (st : StuffState) : Option StuffState := do
  let sample ← sampleAt input st.inptr
  { st with inptr := st.inptr + 1 }.put out sample

def processFrames : ℕ → StuffState → Option StuffState
  | 0, st => some st
  | n + 1, st => do
      let left ← processNext out input st
      let right ← processNext out input left
      processFrames n right

/-- "interpolate one sample" -/
def putMean (st : StuffState) : Option StuffState := do
  let leftBefore ← sampleAt input (st.inptr - 2)
  let leftAfter ← sampleAt input st.inptr
  let left ← st.put out (mean32 leftBefore leftAfter)
  let rightBefore ← sampleAt input (st.inptr - 1)
  let rightAfter ← sampleAt input (st.inptr + 1)
  left.put out (mean32 rightBefore rightAfter)

def stuffFrame (tstuff stuff : ℤ) (st : StuffState) : Option StuffState :=
  if tstuff = 1 then putMean out input st
  else if stuff = -1 then some { st with inptr := st.inptr + 2 }
  else some st

structure StuffResult where
  outptr : Bytes
  noise : Noise
  amountStuffed : ℤ
  returned : ℤ

/-- `stuff_buffer_basic_32`, with what `rand` returns. It has no result if it dies of the length,
or if it reads outside of the input. -/
def stuffBufferBasic32 (length stuff : ℤ) (rand : ℕ) (noise : Noise) : Option StuffResult :=
  if length < 3 then none
  else
    let tstuff := if 1 < stuff ∨ stuff < -1 ∨ length < 100 then 0 else stuff
    let finish := fun st : StuffState =>
      (⟨st.outptr, st.noise, tstuff, length + tstuff⟩ : StuffResult)
    if tstuff = 0 then (processFrames out input length.toNat ⟨0, [], noise⟩).map finish
    else do
      let stuffsamp := (rand : ℤ) % (length - 2) + 1
      let before ← processFrames out input stuffsamp.toNat ⟨0, [], noise⟩
      let stuffed ← stuffFrame out input tstuff stuff before
      let remainder := if tstuff < 0 then length + tstuff else length
      let after ← processFrames out input (remainder - stuffsamp).toNat stuffed
      some (finish after)

end Code

/-! ## What is to come out -/

/-- A left and a right sample. -/
abbrev Frame := BitVec 32 × BitVec 32

def samplesOf (frames : List Frame) : List (BitVec 32) := frames.flatMap fun f => [f.1, f.2]

def SampleOutput.processAll (out : SampleOutput) :
    Noise → List (BitVec 32) → Option (Bytes × Noise)
  | noise, [] => some ([], noise)
  | noise, sample :: samples => do
      let first ← out.process noise sample
      let rest ← out.processAll first.2 samples
      some (first.1 ++ rest.1, rest.2)

/-- The number half way between, towards zero. -/
def IsMean (a b mean : BitVec 32) : Prop := mean.toInt = (a.toInt + b.toInt).tdiv 2

/-- The list of frames with no change, without an interior frame, or with the mean of two frames
between them, the second of which is an interior frame. -/
inductive Stuffed (frames : List Frame) : ℤ → List Frame → Prop
  | unchanged : Stuffed frames 0 frames
  | removed (k : ℕ) (first : 1 ≤ k) (last : k + 2 ≤ frames.length) :
      Stuffed frames (-1) (frames.eraseIdx k)
  | inserted (k : ℕ) (first : 1 ≤ k) (last : k + 2 ≤ frames.length) (before after mean : Frame)
      (getBefore : frames[k - 1]? = some before) (getAfter : frames[k]? = some after)
      (left : IsMean before.1 after.1 mean.1) (right : IsMean before.2 after.2 mean.2) :
      Stuffed frames 1 (frames.insertIdx k mean)

/-! ## Every sample is written -/

section Process

variable {format : SpsFormat} {bits : ℕ}

theorem length_hostBytes (bigEndian : Bool) (n : ℕ) (v : ℤ) :
    (hostBytes bigEndian n v).length = n := by
  rw [hostBytes]
  split
  · rw [List.length_reverse, length_leBytes]
  · exact length_leBytes n v

theorem SpsFormat.length_output {bigEndian : Bool} {h : ℤ} {bytes : Bytes}
    (houtput : format.output bigEndian h = some bytes) : bytes.length = format.size := by
  cases format
  case s32 | s24 | s16 =>
    cases houtput
    exact length_hostBytes _ _ _
  case u8 =>
    obtain ⟨_, -, rfl⟩ := Option.map_eq_some_iff.mp houtput
    rfl
  case unknown | auto | invalid => cases houtput
  all_goals
    cases houtput
    rfl

theorem exists_hyperSample (loudness : Bool) (sample : BitVec 32) {volume : ℤ} (hlo : 0 ≤ volume)
    (hhi : volume ≤ 0x10000) :
    ∃ h, hyperSample loudness sample volume = some h ∧ int64Min ≤ h ∧ h ≤ int64Max := by
  cases loudness with
  | false => exact ⟨_, hyperSample_eq sample hlo hhi⟩
  | true =>
      have hmin : -2 ^ 31 ≤ sample.toInt := BitVec.le_toInt sample
      have hmax : sample.toInt < 2 ^ 31 := BitVec.toInt_lt
      refine ⟨sample.toInt * 2 ^ 32, ?_, ?_, ?_⟩
      · rw [hyperSample, if_pos rfl, int64, if_pos (by omega)]
      · simp only [int64Min]
        omega
      · simp only [int64Max]
        omega

theorem exists_processSample (bigEndian loudness : Bool) (hbits : format.bits = some bits)
    (random : Option (BitVec 64 × BitVec 64)) (sample : BitVec 32) {volume : ℤ} (hlo : 0 ≤ volume)
    (hhi : volume ≤ 0x10000) :
    ∃ bytes, processSample bigEndian loudness format volume random sample = some bytes ∧
      bytes.length = format.size := by
  obtain ⟨h, hscaled, hmin, hmax⟩ := exists_hyperSample loudness sample hlo hhi
  rw [processSample, hscaled]
  cases random with
  | none =>
      obtain ⟨bytes, houtput, -⟩ := SpsFormat.decode_output bigEndian hbits hmin hmax
      exact ⟨bytes, houtput, SpsFormat.length_output houtput⟩
  | some random =>
      obtain ⟨dithered, hdither, hditherMin, hditherMax⟩ :=
        exists_addDither (SpsFormat.bits_mem hbits) random.1 random.2 hmin hmax
      obtain ⟨bytes, houtput, -⟩ := SpsFormat.decode_output bigEndian hbits hditherMin hditherMax
      refine ⟨bytes, ?_, SpsFormat.length_output houtput⟩
      simp only [Option.bind_eq_bind, Option.bind_some, hbits]
      rw [← Option.bind_assoc, hdither]
      exact houtput

theorem SampleOutput.exists_process (out : SampleOutput) (noise : Noise) (sample : BitVec 32) :
    ∃ written, out.process noise sample = some written ∧
      written.1.length = out.format.size := by
  obtain ⟨bits, hbits⟩ := Option.isSome_iff_exists.mp out.isSome_bits
  rw [process]
  split
  · obtain ⟨bytes, hbytes, hlength⟩ := exists_processSample out.bigEndian out.loudness hbits
      (some (noise.draws.head, noise.previousRandomNumber)) sample out.volume_nonneg out.volume_le
    exact ⟨(bytes, noise.next), by rw [hbytes, Option.map_some], hlength⟩
  · obtain ⟨bytes, hbytes, hlength⟩ := exists_processSample out.bigEndian out.loudness hbits
      none sample out.volume_nonneg out.volume_le
    exact ⟨(bytes, noise), by rw [hbytes, Option.map_some], hlength⟩

theorem SampleOutput.processAll_cons {out : SampleOutput} {noise : Noise} {sample : BitVec 32}
    {samples : List (BitVec 32)} {first rest : Bytes × Noise}
    (hfirst : out.process noise sample = some first)
    (hrest : out.processAll first.2 samples = some rest) :
    out.processAll noise (sample :: samples) = some (first.1 ++ rest.1, rest.2) := by
  rw [processAll, hfirst, Option.bind_eq_bind, Option.bind_some, hrest]
  rfl

theorem SampleOutput.exists_processAll (out : SampleOutput) (noise : Noise)
    (samples : List (BitVec 32)) :
    ∃ written, out.processAll noise samples = some written ∧
      written.1.length = samples.length * out.format.size := by
  induction samples generalizing noise with
  | nil => exact ⟨_, rfl, (Nat.zero_mul _).symm⟩
  | cons sample samples ih =>
      obtain ⟨first, hfirst, hfirstLength⟩ := out.exists_process noise sample
      obtain ⟨rest, hrest, hrestLength⟩ := ih first.2
      refine ⟨_, processAll_cons hfirst hrest, ?_⟩
      rw [List.length_append, hfirstLength, hrestLength, List.length_cons, Nat.succ_mul,
        Nat.add_comm]

theorem SampleOutput.processAll_append {out : SampleOutput} {noise : Noise}
    {samples others : List (BitVec 32)} {first rest : Bytes × Noise}
    (hfirst : out.processAll noise samples = some first)
    (hrest : out.processAll first.2 others = some rest) :
    out.processAll noise (samples ++ others) = some (first.1 ++ rest.1, rest.2) := by
  induction samples generalizing noise first with
  | nil =>
      cases hfirst
      exact hrest
  | cons sample samples ih =>
      obtain ⟨head, hhead, -⟩ := out.exists_process noise sample
      obtain ⟨tail, htail, -⟩ := out.exists_processAll head.2 samples
      cases hfirst.symm.trans (processAll_cons hhead htail)
      rw [List.append_assoc]
      exact processAll_cons hhead (ih htail hrest)

end Process

/-! ## Frames -/

section Frames

variable (out : SampleOutput) {frames : List Frame}

theorem samplesOf_cons (f : Frame) (frames : List Frame) :
    samplesOf (f :: frames) = f.1 :: f.2 :: samplesOf frames := rfl

theorem samplesOf_append (frames others : List Frame) :
    samplesOf (frames ++ others) = samplesOf frames ++ samplesOf others :=
  List.flatMap_append

theorem length_samplesOf (frames : List Frame) : (samplesOf frames).length = 2 * frames.length := by
  induction frames with
  | nil => rfl
  | cons f frames ih =>
      rw [samplesOf_cons, List.length_cons, List.length_cons, ih, List.length_cons]
      omega

theorem getElem?_samplesOf (frames : List Frame) (j : ℕ) :
    (samplesOf frames)[2 * j]? = frames[j]?.map Prod.fst ∧
      (samplesOf frames)[2 * j + 1]? = frames[j]?.map Prod.snd := by
  induction frames generalizing j with
  | nil => exact ⟨rfl, rfl⟩
  | cons f frames ih =>
      cases j with
      | zero => exact ⟨rfl, rfl⟩
      | succ j => exact ih j

theorem sampleAt_samplesOf {j : ℕ} {f : Frame} (hget : frames[j]? = some f) :
    sampleAt (samplesOf frames) (2 * j) = some f.1 ∧
      sampleAt (samplesOf frames) (2 * j + 1) = some f.2 := by
  obtain ⟨hleft, hright⟩ := getElem?_samplesOf frames j
  have htoNat : (2 * (j : ℤ)).toNat = 2 * j := by omega
  have htoNatSucc : (2 * (j : ℤ) + 1).toNat = 2 * j + 1 := by omega
  rw [sampleAt, sampleAt, if_pos (by omega), if_pos (by omega), htoNat, htoNatSucc, hleft, hright,
    hget]
  exact ⟨rfl, rfl⟩

theorem StuffState.put_eq (st : StuffState) {sample : BitVec 32} {written : Bytes × Noise}
    (hprocess : out.process st.noise sample = some written) :
    st.put out sample = some { st with outptr := st.outptr ++ written.1, noise := written.2 } := by
  rw [put, hprocess, Option.map_some]

theorem processNext_eq {input : List (BitVec 32)} (st : StuffState) {sample : BitVec 32}
    {written : Bytes × Noise} (hsample : sampleAt input st.inptr = some sample)
    (hprocess : out.process st.noise sample = some written) :
    processNext out input st =
      some ⟨st.inptr + 1, st.outptr ++ written.1, written.2⟩ := by
  rw [processNext, hsample, Option.bind_eq_bind, Option.bind_some]
  exact StuffState.put_eq out { st with inptr := st.inptr + 1 } hprocess

/-- A loop processes the next frames and moves behind them. -/
theorem processFrames_eq {j n : ℕ} (hn : j + n ≤ frames.length) {outptr : Bytes} {noise : Noise}
    {written : Bytes × Noise}
    (hall : out.processAll noise (samplesOf ((frames.drop j).take n)) = some written) :
    processFrames out (samplesOf frames) n ⟨2 * j, outptr, noise⟩ =
      some ⟨2 * (j + n : ℕ), outptr ++ written.1, written.2⟩ := by
  induction n generalizing j outptr noise written with
  | zero =>
      rw [List.take_zero] at hall
      cases hall
      rw [List.append_nil]
      rfl
  | succ n ih =>
      have hj : j < frames.length := by omega
      obtain ⟨hleft, hright⟩ := sampleAt_samplesOf (List.getElem?_eq_getElem hj)
      obtain ⟨left, hleftProcess, -⟩ := out.exists_process noise frames[j].1
      obtain ⟨right, hrightProcess, -⟩ := out.exists_process left.2 frames[j].2
      obtain ⟨rest, hrest, -⟩ :=
        out.exists_processAll right.2 (samplesOf ((frames.drop (j + 1)).take n))
      rw [List.drop_eq_getElem_cons hj, List.take_succ_cons, samplesOf_cons] at hall
      cases hall.symm.trans (SampleOutput.processAll_cons hleftProcess
        (SampleOutput.processAll_cons hrightProcess hrest))
      have hnext : 2 * (j : ℤ) + 1 + 1 = 2 * (j + 1 : ℕ) := by push_cast; ring
      have hend : j + 1 + n = j + (n + 1) := by omega
      rw [processFrames, processNext_eq out ⟨2 * j, outptr, noise⟩ hleft hleftProcess,
        Option.bind_eq_bind, Option.bind_some,
        processNext_eq out ⟨2 * j + 1, outptr ++ left.1, left.2⟩ hright hrightProcess,
        Option.bind_some]
      dsimp only
      rw [hnext, ih (by omega) hrest, hend, List.append_assoc, List.append_assoc]

theorem isMean_mean32 (a b : BitVec 32) : IsMean a b (mean32 a b) := by
  have hmin : -2 ^ 31 ≤ a.toInt ∧ -2 ^ 31 ≤ b.toInt := ⟨BitVec.le_toInt a, BitVec.le_toInt b⟩
  have hmax : a.toInt < 2 ^ 31 ∧ b.toInt < 2 ^ 31 := ⟨BitVec.toInt_lt, BitVec.toInt_lt⟩
  have hdiv := Int.mul_tdiv_add_tmod (a.toInt + b.toInt) 2
  have hrem := Int.tmod_lt_of_pos (a.toInt + b.toInt) (b := 2) (by decide)
  have hremNeg := Int.lt_tmod_of_pos (a.toInt + b.toInt) (b := 2) (by decide)
  rw [IsMean, mean32, BitVec.toInt_ofInt]
  refine Int.bmod_eq_of_le_mul_two ?_ ?_ <;> omega

/-- The mean of the frames on both sides is put in. -/
theorem putMean_eq {k : ℕ} {before after : Frame} (hbefore : frames[k]? = some before)
    (hafter : frames[k + 1]? = some after) {outptr : Bytes} {noise : Noise}
    {written : Bytes × Noise}
    (hall : out.processAll noise
      (samplesOf [(mean32 before.1 after.1, mean32 before.2 after.2)]) = some written) :
    putMean out (samplesOf frames) ⟨2 * (k + 1 : ℕ), outptr, noise⟩ =
      some ⟨2 * (k + 1 : ℕ), outptr ++ written.1, written.2⟩ := by
  obtain ⟨hleftBefore, hrightBefore⟩ := sampleAt_samplesOf hbefore
  obtain ⟨hleftAfter, hrightAfter⟩ := sampleAt_samplesOf hafter
  have hleft : 2 * ((k + 1 : ℕ) : ℤ) - 2 = 2 * k := by push_cast; ring
  have hright : 2 * ((k + 1 : ℕ) : ℤ) - 1 = 2 * k + 1 := by push_cast; ring
  obtain ⟨left, hleftProcess, -⟩ := out.exists_process noise (mean32 before.1 after.1)
  obtain ⟨right, hrightProcess, -⟩ := out.exists_process left.2 (mean32 before.2 after.2)
  cases hall.symm.trans (SampleOutput.processAll_cons hleftProcess
    (SampleOutput.processAll_cons hrightProcess rfl))
  rw [putMean]
  dsimp only
  rw [hleft, hright, hleftBefore, hrightBefore, hleftAfter, hrightAfter]
  simp only [Option.bind_eq_bind, Option.bind_some]
  rw [StuffState.put_eq out ⟨_, outptr, noise⟩ hleftProcess, Option.bind_some,
    StuffState.put_eq out ⟨_, outptr ++ left.1, left.2⟩ hrightProcess, List.append_nil,
    List.append_assoc]

end Frames

/-! ## The three modes -/

section Modes

variable (out : SampleOutput) {frames : List Frame} {k : ℕ}

theorem insertIdx_eq_append {frames : List Frame} {k : ℕ} (hk : k ≤ frames.length) (mean : Frame) :
    frames.insertIdx k mean = frames.take k ++ mean :: frames.drop k := by
  induction k generalizing frames with
  | zero => rfl
  | succ k ih =>
      cases frames with
      | nil => simp at hk
      | cons f frames =>
          rw [List.insertIdx_succ_cons, ih (Nat.le_of_succ_le_succ hk), List.take_succ_cons,
            List.drop_succ_cons, List.cons_append]

/-- The first frames, the mean, and the rest. -/
theorem run_inserted (hlast : k + 3 ≤ frames.length) {before after : Frame}
    (hbefore : frames[k]? = some before) (hafter : frames[k + 1]? = some after) (noise : Noise) :
    ∃ first mean last,
      processFrames out (samplesOf frames) (k + 1) ⟨0, [], noise⟩ = some first ∧
      stuffFrame out (samplesOf frames) 1 1 first = some mean ∧
      processFrames out (samplesOf frames) (frames.length - (k + 1)) mean = some last ∧
      out.processAll noise (samplesOf (frames.insertIdx (k + 1)
        (mean32 before.1 after.1, mean32 before.2 after.2))) = some (last.outptr, last.noise) := by
  obtain ⟨w, hw, -⟩ := out.exists_processAll noise (samplesOf (frames.take (k + 1)))
  obtain ⟨m, hm, -⟩ := out.exists_processAll w.2
    (samplesOf [(mean32 before.1 after.1, mean32 before.2 after.2)])
  obtain ⟨r, hr, -⟩ := out.exists_processAll m.2 (samplesOf (frames.drop (k + 1)))
  have hrest : (frames.drop (k + 1)).take (frames.length - (k + 1)) = frames.drop (k + 1) :=
    List.take_of_length_le (by rw [List.length_drop])
  have hfirst := @processFrames_eq out frames 0 (k + 1) (by omega) [] noise w hw
  rw [Nat.zero_add] at hfirst
  refine ⟨_, _, _, hfirst, putMean_eq out hbefore hafter hm,
    processFrames_eq out (j := k + 1) (by omega) (by rw [hrest]; exact hr), ?_⟩
  rw [insertIdx_eq_append (by omega), samplesOf_append]
  refine (SampleOutput.processAll_append hw (SampleOutput.processAll_append hm hr)).trans ?_
  rw [List.nil_append, List.append_assoc]

/-- The first frames, and the rest but one. -/
theorem run_removed (hlast : k + 3 ≤ frames.length) (noise : Noise) :
    ∃ first skipped last,
      processFrames out (samplesOf frames) (k + 1) ⟨0, [], noise⟩ = some first ∧
      stuffFrame out (samplesOf frames) (-1) (-1) first = some skipped ∧
      processFrames out (samplesOf frames) (frames.length - 1 - (k + 1)) skipped = some last ∧
      out.processAll noise (samplesOf (frames.eraseIdx (k + 1))) =
        some (last.outptr, last.noise) := by
  obtain ⟨w, hw, -⟩ := out.exists_processAll noise (samplesOf (frames.take (k + 1)))
  obtain ⟨r, hr, -⟩ := out.exists_processAll w.2 (samplesOf (frames.drop (k + 2)))
  have hrest : (frames.drop (k + 2)).take (frames.length - 1 - (k + 1)) = frames.drop (k + 2) :=
    List.take_of_length_le (by rw [List.length_drop]; omega)
  have hfirst := @processFrames_eq out frames 0 (k + 1) (by omega) [] noise w hw
  rw [Nat.zero_add] at hfirst
  have hskip : 2 * ((k + 1 : ℕ) : ℤ) + 2 = 2 * (k + 2 : ℕ) := by push_cast; ring
  refine ⟨_, ⟨2 * (k + 2 : ℕ), w.1, w.2⟩, _, hfirst, ?_,
    processFrames_eq out (j := k + 2) (by omega) (by rw [hrest]; exact hr), ?_⟩
  · rw [stuffFrame, if_neg (by decide), if_pos rfl, hskip]
    rfl
  · rw [List.eraseIdx_eq_take_drop_succ, samplesOf_append]
    exact SampleOutput.processAll_append hw hr

theorem run_unchanged (noise : Noise) :
    ∃ last, processFrames out (samplesOf frames) frames.length ⟨0, [], noise⟩ = some last ∧
      out.processAll noise (samplesOf frames) = some (last.outptr, last.noise) := by
  obtain ⟨w, hw, -⟩ := out.exists_processAll noise (samplesOf frames)
  have hall := hw
  rw [← List.take_length (l := frames)] at hall
  exact ⟨_, processFrames_eq out (j := 0) (by omega) hall, hw⟩

theorem Stuffed.length_eq {t : ℤ} {stuffed : List Frame} (h : Stuffed frames t stuffed) :
    (stuffed.length : ℤ) = frames.length + t := by
  cases h with
  | unchanged => omega
  | removed k first last =>
      rw [List.length_eraseIdx_of_lt (by omega)]
      omega
  | inserted k first last =>
      rw [List.length_insertIdx_of_le_length (by omega)]
      omega

def change (length stuff : ℤ) : ℤ :=
  if (stuff = -1 ∨ stuff = 0 ∨ stuff = 1) ∧ 100 ≤ length then stuff else 0

theorem change_eq (length stuff : ℤ) :
    (if 1 < stuff ∨ stuff < -1 ∨ length < 100 then 0 else stuff) = change length stuff := by
  rw [change]
  split <;> split <;> omega

theorem change_of_ne_zero {length stuff : ℤ} (hne : change length stuff ≠ 0) :
    change length stuff = stuff ∧ (stuff = -1 ∨ stuff = 1) := by
  rw [change] at hne ⊢
  split at hne
  · next h =>
    rw [if_pos h]
    exact ⟨rfl, by omega⟩
  · exact absurd rfl hne

theorem exists_randomPosition {length : ℕ} (hlength : 3 ≤ length) (rand : ℕ) :
    ∃ k : ℕ, (rand : ℤ) % (length - 2) = k ∧ k + 3 ≤ length := by
  obtain ⟨k, hk⟩ := Int.eq_ofNat_of_zero_le
    (Int.emod_nonneg (rand : ℤ) (b := length - 2) (by omega))
  have hlt := Int.emod_lt_of_pos (rand : ℤ) (b := length - 2) (by omega)
  exact ⟨k, hk, by omega⟩

/-- What is written is the input processed with a frame more or less, or none, as asked for. -/
theorem stuffBufferBasic32_stuffed (hlength : 3 ≤ frames.length) (stuff : ℤ) (rand : ℕ)
    (noise : Noise) :
    ∃ stuffed result,
      stuffBufferBasic32 out (samplesOf frames) frames.length stuff rand noise = some result ∧
      Stuffed frames (change frames.length stuff) stuffed ∧
      out.processAll noise (samplesOf stuffed) = some (result.outptr, result.noise) ∧
      result.amountStuffed = change frames.length stuff ∧
      result.returned = frames.length + change frames.length stuff ∧
      (stuffed.length : ℤ) = frames.length + change frames.length stuff ∧
      (result.outptr.length : ℤ) =
        (frames.length + change frames.length stuff) * 2 * out.format.size := by
  -- the counts follow from what is written
  suffices h : ∃ stuffed result,
      stuffBufferBasic32 out (samplesOf frames) frames.length stuff rand noise = some result ∧
      Stuffed frames (change frames.length stuff) stuffed ∧
      out.processAll noise (samplesOf stuffed) = some (result.outptr, result.noise) ∧
      result.amountStuffed = change frames.length stuff ∧
      result.returned = frames.length + change frames.length stuff by
    obtain ⟨stuffed, result, hrun, hstuffed, hall, hamount, hreturned⟩ := h
    have hframes := hstuffed.length_eq
    refine ⟨stuffed, result, hrun, hstuffed, hall, hamount, hreturned, hframes, ?_⟩
    obtain ⟨written, hwritten, hsize⟩ := out.exists_processAll noise (samplesOf stuffed)
    cases hall.symm.trans hwritten
    rw [hsize, length_samplesOf, ← hframes]
    push_cast
    ring
  have hshort : ¬(frames.length : ℤ) < 3 := by omega
  rw [stuffBufferBasic32, if_neg hshort]
  dsimp only
  rw [change_eq]
  split
  · next hzero =>
    obtain ⟨last, hrun, hall⟩ := run_unchanged out noise
    refine ⟨frames, ⟨last.outptr, last.noise, 0, frames.length⟩, ?_, ?_, hall, hzero.symm, ?_⟩
    · rw [hzero, Int.toNat_natCast, hrun, Option.map_some, Int.add_zero]
    · rw [hzero]
      exact .unchanged
    · rw [hzero, Int.add_zero]
  · next hne =>
    obtain ⟨k, hk, hlast⟩ := exists_randomPosition hlength rand
    have htoNat : ((k : ℤ) + 1).toNat = k + 1 := by omega
    obtain ⟨hchange, rfl | rfl⟩ := change_of_ne_zero hne
    · obtain ⟨first, skipped, last, hfirst, hskipped, hrun, hall⟩ := run_removed out hlast noise
      have hremainder : ((frames.length : ℤ) + -1 - (k + 1)).toNat =
          frames.length - 1 - (k + 1) := by omega
      refine ⟨_, ⟨last.outptr, last.noise, -1, frames.length + -1⟩, ?_, ?_, hall, ?_, ?_⟩
      · rw [hk, hchange, htoNat, hfirst, if_pos (by decide), hremainder]
        simp only [Option.bind_eq_bind, Option.bind_some, hskipped, hrun]
      · rw [hchange]
        exact .removed (k + 1) (by omega) (by omega)
      · rw [hchange]
      · rw [hchange]
    · have hbefore := List.getElem?_eq_getElem (show k < frames.length by omega)
      have hafter := List.getElem?_eq_getElem (show k + 1 < frames.length by omega)
      obtain ⟨first, mean, last, hfirst, hmean, hrun, hall⟩ :=
        run_inserted out hlast hbefore hafter noise
      have hremainder : ((frames.length : ℤ) - (k + 1)).toNat = frames.length - (k + 1) := by omega
      refine ⟨_, ⟨last.outptr, last.noise, 1, frames.length + 1⟩, ?_, ?_, hall, ?_, ?_⟩
      · rw [hk, hchange, htoNat, hfirst, if_neg (by decide), hremainder]
        simp only [Option.bind_eq_bind, Option.bind_some, hmean, hrun]
      · rw [hchange]
        exact .inserted (k + 1) (by omega) (by omega) _ _ _ hbefore hafter
          (isMean_mean32 _ _) (isMean_mean32 _ _)
      · rw [hchange]
      · rw [hchange]

/-- Eight bits at full volume, without dither. -/
def plainOutput : SampleOutput :=
  ⟨false, false, .s8, 0x10000, false, by decide, by decide, by decide⟩

def noNoise : Noise := ⟨0, fun _ => 0⟩

theorem stuffBufferBasic32_stuffed_shorter :
    ∃ result, stuffBufferBasic32 plainOutput (samplesOf (List.replicate 100 (0, 0))) 100 (-1) 7
      noNoise = some result ∧ result.outptr.length = 198 := by
  obtain ⟨_, result, hrun, -, -, -, -, -, hsize⟩ :=
    @stuffBufferBasic32_stuffed plainOutput (List.replicate 100 (0, 0)) (by decide) (-1) 7 noNoise
  exact ⟨result, hrun, Int.ofNat_inj.mp (hsize.trans (by decide))⟩

def click : List Frame := (0x40000000, 0x40000000) :: List.replicate 99 (0, 0)

/-- The new frame may be behind the first one, which is not between two interior frames. -/
theorem stuffBufferBasic32_click :
    ∃ result, stuffBufferBasic32 plainOutput (samplesOf click) 100 1 0 noNoise = some result ∧
      ∀ (k : ℕ) (mean : Frame), 1 ≤ k - 1 → k ≤ click.length - 2 →
        plainOutput.processAll noNoise (samplesOf (click.insertIdx k mean)) ≠
          some (result.outptr, result.noise) := by
  have hbytes : (stuffBufferBasic32 plainOutput (samplesOf click) 100 1 0 noNoise).map
      (fun result => result.outptr.take 4) = some [0x40, 0x40, 0x20, 0x20] := by
    decide +kernel
  obtain ⟨result, hresult, htake⟩ := Option.map_eq_some_iff.mp hbytes
  refine ⟨result, hresult, fun k mean hk _ hall => ?_⟩
  obtain ⟨k, rfl⟩ : ∃ j, k = j + 2 := ⟨k - 2, by omega⟩
  have hclick : click.insertIdx (k + 2) mean =
      (0x40000000, 0x40000000) :: (0, 0) :: (List.replicate 98 (0, 0)).insertIdx k mean := rfl
  have hloud : plainOutput.process noNoise 0x40000000 = some ([0x40], noNoise) := rfl
  have hsilent : plainOutput.process noNoise 0 = some ([0], noNoise) := rfl
  obtain ⟨rest, hrest, -⟩ := plainOutput.exists_processAll noNoise
    (samplesOf ((List.replicate 98 (0, 0)).insertIdx k mean))
  have hwritten := SampleOutput.processAll_cons hloud (SampleOutput.processAll_cons hloud
    (SampleOutput.processAll_cons hsilent (SampleOutput.processAll_cons hsilent hrest)))
  rw [hclick, samplesOf_cons, samplesOf_cons] at hall
  have hfirst : [0x40, 0x40, 0, 0] ++ rest.1 = result.outptr :=
    congrArg Prod.fst (Option.some.inj (hwritten.symm.trans hall))
  rw [← hfirst] at htake
  have hthird : ([0x40, 0x40, 0, 0] : Bytes) = [0x40, 0x40, 0x20, 0x20] := htake
  exact absurd hthird (by decide)

end Modes

end Player

end ShairportSync
