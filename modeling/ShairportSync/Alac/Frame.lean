import ShairportSync.Alac.RiceStream
import ShairportSync.Alac.Predictor
import ShairportSync.Numeric.Quantise

/-!
# Frames of ALAC

A frame has a header, and for every channel the differences of a predictor or, uncompressed, the
samples. The lowest bytes of samples can stand in front of the differences as they are. Two channels
can be mixed: then the first is a weighted mean of both and the second is their difference.

The six work buffers have room for as many samples as a frame can have by the settings. The samples
of a frame, the runs of zeros and the warm-up of the predictor can be more: a frame that runs over
a work buffer has no result here, and neither has one with a shift that is not defined.

The decoder is a host with little endian numbers, so the samples of two bytes are not swapped. What
it prints is left out.
-/

namespace ShairportSync

open Bits Numeric

namespace Alac

/-- The part of `alac_file` that a frame is decoded with, with whatever is in memory behind the
start of each work buffer -/
structure AlacFile where
  numChannels : ℕ
  bytesPerSample : ℕ
  setinfoMaxSamplesPerFrame : ℕ
  setinfoSampleSize : ℕ
  setinfoRiceHistoryMult : ℕ
  setinfoRiceInitialHistory : ℕ
  setinfoRiceKModifier : ℕ
  predictErrorBufferA : ℕ → ℤ
  predictErrorBufferB : ℕ → ℤ
  outputSamplesBufferA : ℕ → ℤ
  outputSamplesBufferB : ℕ → ℤ
  uncompressedBytesBufferA : ℕ → ℤ
  uncompressedBytesBufferB : ℕ → ℤ

/-! ## Output -/

def mixed16 (a b : ℤ) (interlacingShift interlacingLeftWeight : ℕ) : ℤ × ℤ :=
  if interlacingLeftWeight ≠ 0 then
    let right := int16 (int32 (a - int32 (b * interlacingLeftWeight) / 2 ^ interlacingShift))
    (int16 (int32 (right + b)), right)
  else (int16 a, int16 b)

def deinterlace16 (bufferA bufferB : ℕ → ℤ) (bufferOut : ℕ → BitVec 8) (numChannels : ℕ)
    (interlacingShift interlacingLeftWeight : ℕ) : ℕ → ℕ → BitVec 8
  | 0 => bufferOut
  | i + 1 =>
    let samples := mixed16 (bufferA i) (bufferB i) interlacingShift interlacingLeftWeight
    Fifo.write (deinterlace16 bufferA bufferB bufferOut numChannels interlacingShift
        interlacingLeftWeight i)
      (2 * (i * numChannels)) (leBytes 2 samples.1 ++ leBytes 2 samples.2)

/-- A sample with the bytes that were not compressed below it -/
def withLowBytes (sample lowBytes : ℤ) (uncompressedBytes : ℕ) : ℤ :=
  if uncompressedBytes ≠ 0 then
    let mask := ~~~(BitVec.ofNat 32 0xFFFFFFFF <<< (uncompressedBytes * 8))
    (BitVec.ofInt 32 (sample * 2 ^ (uncompressedBytes * 8)) |||
      BitVec.ofInt 32 lowBytes &&& mask).toInt
  else sample

def mixed24 (a b : ℤ) (interlacingShift interlacingLeftWeight : ℕ) : ℤ × ℤ :=
  if interlacingLeftWeight ≠ 0 then
    let right := int32 (a - int32 (b * interlacingLeftWeight) / 2 ^ interlacingShift)
    (int32 (right + b), right)
  else (a, b)

def deinterlace24 (bufferA bufferB : ℕ → ℤ) (uncompressedBytes : ℕ)
    (uncompressedBytesBufferA uncompressedBytesBufferB : ℕ → ℤ) (bufferOut : ℕ → BitVec 8)
    (numChannels interlacingShift interlacingLeftWeight : ℕ) : ℕ → ℕ → BitVec 8
  | 0 => bufferOut
  | i + 1 =>
    let samples := mixed24 (bufferA i) (bufferB i) interlacingShift interlacingLeftWeight
    Fifo.write (deinterlace24 bufferA bufferB uncompressedBytes uncompressedBytesBufferA
        uncompressedBytesBufferB bufferOut numChannels interlacingShift interlacingLeftWeight i)
      (i * numChannels * 3)
      (leBytes 3 (withLowBytes samples.1 (uncompressedBytesBufferA i) uncompressedBytes) ++
        leBytes 3 (withLowBytes samples.2 (uncompressedBytesBufferB i) uncompressedBytes))

def output16 (bufferA : ℕ → ℤ) (bufferOut : ℕ → BitVec 8) (numChannels : ℕ) : ℕ → ℕ → BitVec 8
  | 0 => bufferOut
  | i + 1 =>
    Fifo.write (output16 bufferA bufferOut numChannels i) (2 * (i * numChannels))
      (leBytes 2 (bufferA i))

def output24 (bufferA : ℕ → ℤ) (uncompressedBytes : ℕ) (uncompressedBytesBufferA : ℕ → ℤ)
    (bufferOut : ℕ → BitVec 8) (numChannels : ℕ) : ℕ → ℕ → BitVec 8
  | 0 => bufferOut
  | i + 1 =>
    Fifo.write (output24 bufferA uncompressedBytes uncompressedBytesBufferA bufferOut numChannels i)
      (i * numChannels * 3)
      (leBytes 3 (withLowBytes (bufferA i) (uncompressedBytesBufferA i) uncompressedBytes))

/-! ## Input -/

variable (inbuffer : ℤ → BitVec 8)

def readMany {α : Type*} (read : Input → α × Input) : ℕ → Input → List α × Input
  | 0, input => ([], input)
  | n + 1, input =>
    let first := read input
    let rest := readMany read n first.2
    (first.1 :: rest.1, rest.2)

/-- What precedes the samples of a channel -/
structure ChannelHeader where
  predictionType : ℕ
  predictionQuantitization : ℕ
  ricemodifier : ℕ
  predictorCoefTable : List ℤ

def readChannelHeader (input : Input) : ChannelHeader × Input :=
  let predictionType := readbits inbuffer 4 input
  let predictionQuantitization := readbits inbuffer 4 predictionType.2
  let ricemodifier := readbits inbuffer 3 predictionQuantitization.2
  let predictorCoefNum := readbits inbuffer 5 ricemodifier.2
  let table := readMany (fun input => let coef := readbits inbuffer 16 input
    (int16 coef.1, coef.2)) predictorCoefNum.1 predictorCoefNum.2
  (⟨predictionType.1, predictionQuantitization.1, ricemodifier.1, table.1⟩, table.2)

def readLowBytes (uncompressedBytes : ℕ) (input : Input) : ℤ × Input :=
  let bytes := readbits inbuffer (uncompressedBytes * 8) input
  (int32 bytes.1, bytes.2)

def readAudiobits (sampleSize : ℕ) (input : Input) : ℤ × Input :=
  if sampleSize ≤ 16 then
    let audiobits := readbits inbuffer sampleSize input
    (signExtended32 (int32 audiobits.1) sampleSize, audiobits.2)
  else
    let high := readbits inbuffer 16 input
    let low := readbits inbuffer (sampleSize - 16) high.2
    (signed 24 ((high.1 <<< (sampleSize - 16)) % 2 ^ 32 ||| low.1 : ℕ), low.2)

def readBoth {α : Type*} (read : Input → α × Input) (input : Input) : (α × α) × Input :=
  let a := read input
  let b := read a.2
  ((a.1, b.1), b.2)

namespace AlacFile

/-- The samples that `alac_allocate_buffers` makes room for in each work buffer; the bytes are
counted with 32 bits. -/
def workBufferSize (alac : AlacFile) : ℕ := alac.setinfoMaxSamplesPerFrame * 4 % 2 ^ 32 / 4

def riceSettings (alac : AlacFile) (readSampleSize ricemodifier : ℕ) : RiceSettings where
  readSampleSize := readSampleSize
  riceInitialHistory := alac.setinfoRiceInitialHistory
  riceKModifier := alac.setinfoRiceKModifier
  riceHistoryMult := (ricemodifier * alac.setinfoRiceHistoryMult / 4 : ℕ)
  riceKModifierMask := 1 <<< alac.setinfoRiceKModifier - 1

/-- The shifts by `setinfo_rice_kmodifier` and by `32 - readsamplesize` are defined. -/
def Shifts (alac : AlacFile) (readSampleSize : ℕ) : Prop :=
  alac.setinfoRiceKModifier < 31 ∧ 0 < readSampleSize ∧ readSampleSize ≤ 32

instance (alac : AlacFile) (readSampleSize : ℕ) : Decidable (alac.Shifts readSampleSize) :=
  inferInstanceAs (Decidable (_ ∧ _ ∧ _))

/-- The predictor stays inside of the work buffers, and its shifts are defined. -/
def Predicts (alac : AlacFile) (header : ChannelHeader) (outputSamples : ℕ) : Prop :=
  firReach outputSamples header.predictorCoefTable.length ≤ alac.workBufferSize ∧
    FirShifts outputSamples header.predictorCoefTable.length header.predictionQuantitization

instance (alac : AlacFile) (header : ChannelHeader) (outputSamples : ℕ) :
    Decidable (alac.Predicts header outputSamples) :=
  inferInstanceAs (Decidable (_ ∧ _))

/-- The differences and the samples of a channel; other prediction types leave the samples as the
last frame had them. -/
def decodeChannel (alac : AlacFile) (header : ChannelHeader) (readSampleSize outputSamples : ℕ)
    (predictErrorBuffer outputSamplesBuffer : ℕ → ℤ) (input : Input) :
    Option ((ℕ → ℤ) × (ℕ → ℤ) × Input) :=
  if alac.Shifts readSampleSize then
    (entropyRiceDecode inbuffer (alac.riceSettings readSampleSize header.ricemodifier)
      alac.workBufferSize predictErrorBuffer outputSamples input).bind fun rice =>
      if header.predictionType = 0 then
        if alac.Predicts header outputSamples then
          some (rice.outputBuffer,
            predictorDecompressFirAdapt rice.outputBuffer outputSamplesBuffer outputSamples
              readSampleSize (fun i => header.predictorCoefTable.getD i 0)
              header.predictorCoefTable.length header.predictionQuantitization,
            rice.input)
        else none
      else some (rice.outputBuffer, outputSamplesBuffer, rice.input)
  else none

structure Decoded where
  alac : AlacFile
  outbuffer : ℕ → BitVec 8
  outputsize : ℤ

def finishMono (alac : AlacFile) (uncompressedBytes outputSamples : ℕ) (outbuffer : ℕ → BitVec 8)
    (outputsize : ℤ) : Decoded :=
  ⟨alac,
    match alac.setinfoSampleSize with
    | 16 => output16 alac.outputSamplesBufferA outbuffer alac.numChannels outputSamples
    | 24 => output24 alac.outputSamplesBufferA uncompressedBytes alac.uncompressedBytesBufferA
      outbuffer alac.numChannels outputSamples
    | _ => outbuffer,
    outputsize⟩

/-- The shift of the weighted difference is defined, if there is one. -/
def Mixes (interlacingShift interlacingLeftWeight outputSamples : ℕ) : Prop :=
  interlacingLeftWeight = 0 ∨ interlacingShift < 32 ∨ outputSamples = 0

instance (interlacingShift interlacingLeftWeight outputSamples : ℕ) :
    Decidable (Mixes interlacingShift interlacingLeftWeight outputSamples) :=
  inferInstanceAs (Decidable (_ ∨ _ ∨ _))

def finishStereo (alac : AlacFile) (uncompressedBytes interlacingShift interlacingLeftWeight
    outputSamples : ℕ) (outbuffer : ℕ → BitVec 8) (outputsize : ℤ) : Option Decoded :=
  match alac.setinfoSampleSize with
  | 16 =>
    if Mixes interlacingShift interlacingLeftWeight outputSamples then
      some ⟨alac, deinterlace16 alac.outputSamplesBufferA alac.outputSamplesBufferB outbuffer
        alac.numChannels interlacingShift interlacingLeftWeight outputSamples, outputsize⟩
    else none
  | 24 =>
    if Mixes interlacingShift interlacingLeftWeight outputSamples then
      some ⟨alac, deinterlace24 alac.outputSamplesBufferA alac.outputSamplesBufferB
        uncompressedBytes alac.uncompressedBytesBufferA alac.uncompressedBytesBufferB outbuffer
        alac.numChannels interlacingShift interlacingLeftWeight outputSamples, outputsize⟩
    else none
  | _ => some ⟨alac, outbuffer, outputsize⟩

def decodeMono (alac : AlacFile) (isNotCompressed : Bool) (uncompressedBytes outputSamples : ℕ)
    (outbuffer : ℕ → BitVec 8) (outputsize : ℤ) (input : Input) : Option Decoded :=
  let readSampleSize := alac.setinfoSampleSize - uncompressedBytes * 8
  if isNotCompressed then
    if alac.workBufferSize < outputSamples then none
    else
      let samples := readMany (readAudiobits inbuffer alac.setinfoSampleSize) outputSamples input
      some (finishMono
        { alac with outputSamplesBufferA := Fifo.write alac.outputSamplesBufferA 0 samples.1 }
        0 outputSamples outbuffer outputsize)
  else
    let input := (readbits inbuffer 8 (readbits inbuffer 8 input).2).2
    let header := readChannelHeader inbuffer input
    if uncompressedBytes ≠ 0 ∧ alac.workBufferSize < outputSamples then none
    else
      let bytes := if uncompressedBytes ≠ 0 then
          readMany (readLowBytes inbuffer uncompressedBytes) outputSamples header.2
        else ([], header.2)
      (alac.decodeChannel inbuffer header.1 readSampleSize outputSamples alac.predictErrorBufferA
        alac.outputSamplesBufferA bytes.2).map fun a =>
        finishMono
          { alac with
            uncompressedBytesBufferA := Fifo.write alac.uncompressedBytesBufferA 0 bytes.1
            predictErrorBufferA := a.1
            outputSamplesBufferA := a.2.1 }
          uncompressedBytes outputSamples outbuffer outputsize

def decodeStereo (alac : AlacFile) (isNotCompressed : Bool) (uncompressedBytes outputSamples : ℕ)
    (outbuffer : ℕ → BitVec 8) (outputsize : ℤ) (input : Input) : Option Decoded :=
  let readSampleSize := alac.setinfoSampleSize + 1 - uncompressedBytes * 8
  if isNotCompressed then
    if alac.workBufferSize < outputSamples then none
    else
      let samples := readMany (readBoth (readAudiobits inbuffer alac.setinfoSampleSize))
        outputSamples input
      finishStereo
        { alac with
          outputSamplesBufferA := Fifo.write alac.outputSamplesBufferA 0 (samples.1.map Prod.fst)
          outputSamplesBufferB := Fifo.write alac.outputSamplesBufferB 0 (samples.1.map Prod.snd) }
        0 0 0 outputSamples outbuffer outputsize
  else
    let interlacingShift := readbits inbuffer 8 input
    let interlacingLeftWeight := readbits inbuffer 8 interlacingShift.2
    let headerA := readChannelHeader inbuffer interlacingLeftWeight.2
    let headerB := readChannelHeader inbuffer headerA.2
    if uncompressedBytes ≠ 0 ∧ alac.workBufferSize < outputSamples then none
    else
      let bytes := if uncompressedBytes ≠ 0 then
          readMany (readBoth (readLowBytes inbuffer uncompressedBytes)) outputSamples headerB.2
        else ([], headerB.2)
      (alac.decodeChannel inbuffer headerA.1 readSampleSize outputSamples alac.predictErrorBufferA
        alac.outputSamplesBufferA bytes.2).bind fun a =>
      (alac.decodeChannel inbuffer headerB.1 readSampleSize outputSamples alac.predictErrorBufferB
        alac.outputSamplesBufferB a.2.2).bind fun b =>
        finishStereo
          { alac with
            uncompressedBytesBufferA :=
              Fifo.write alac.uncompressedBytesBufferA 0 (bytes.1.map Prod.fst)
            uncompressedBytesBufferB :=
              Fifo.write alac.uncompressedBytesBufferB 0 (bytes.1.map Prod.snd)
            predictErrorBufferA := a.1
            outputSamplesBufferA := a.2.1
            predictErrorBufferB := b.1
            outputSamplesBufferB := b.2.1 }
          uncompressedBytes interlacingShift.1 interlacingLeftWeight.1 outputSamples outbuffer
          outputsize

/-- `alac_decode_frame`: `outputsize` is what was allocated, and then what was written. -/
def alacDecodeFrame (alac : AlacFile) (outbuffer : ℕ → BitVec 8) (outputsize : ℤ) :
    Option Decoded :=
  let outbufferAllocationSize := outputsize
  let outputsamples := int32 alac.setinfoMaxSamplesPerFrame
  let channels := readbits inbuffer 3 (inputAt 0)
  let outputsize := int32 (outputsamples * alac.bytesPerSample)
  if outputsize > outbufferAllocationSize then some ⟨alac, outbuffer, 0⟩
  else if channels.1 ≤ 1 then
    let unknown := readbits inbuffer 12 (readbits inbuffer 4 channels.2).2
    let hassize := readbits inbuffer 1 unknown.2
    let uncompressedBytes := readbits inbuffer 2 hassize.2
    let isnotcompressed := readbits inbuffer 1 uncompressedBytes.2
    let size := readbits inbuffer 32 isnotcompressed.2
    let outputsamples := if hassize.1 ≠ 0 then int32 size.1 else outputsamples
    let outputsize := int32 (outputsamples * alac.bytesPerSample)
    let input := if hassize.1 ≠ 0 then size.2 else isnotcompressed.2
    if outputsize > outbufferAllocationSize then some ⟨alac, outbuffer, 0⟩
    else if channels.1 = 0 then
      alac.decodeMono inbuffer (isnotcompressed.1 ≠ 0) uncompressedBytes.1 outputsamples.toNat
        outbuffer outputsize input
    else
      alac.decodeStereo inbuffer (isnotcompressed.1 ≠ 0) uncompressedBytes.1 outputsamples.toNat
        outbuffer outputsize input
  else some ⟨alac, outbuffer, outputsize⟩

end AlacFile

end Alac

end ShairportSync
