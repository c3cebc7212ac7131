import ShairportSync.Alac.FrameStream

/-!
# What a frame can overwrite

The decoder compares the bytes of a frame with what was allocated for them, but never the samples
with the room in its work buffers. Whatever the input, a frame that does not run over a work buffer
writes inside of the output and inside of the work buffers.

The number of samples comes from the frame and the product with the bytes of a sample is a number of
32 bits. When it overflows, a frame that is not compressed passes the comparison and runs over the
work buffers.
-/

namespace ShairportSync

open Bits Numeric

namespace Alac

variable {memory : ℤ → BitVec 8}

/-! ## The work buffers -/

/-- A round writes from its count on, and not behind the allocation. -/
theorem riceStep_outputCount {s : RiceSettings} {allocated outputSize : ℕ} {st st' : RiceState}
    (h : riceStep memory s allocated outputSize st = some st') :
    st.outputCount < st'.outputCount ∧ st'.outputCount ≤ allocated ∧
      ∀ i, st'.outputCount ≤ i → st'.outputBuffer i = st.outputBuffer i := by
  rw [riceStep, Option.bind_eq_some_iff] at h
  obtain ⟨value, -, h⟩ := h
  dsimp only at h
  split_ifs at h with hroom hblock
  · obtain ⟨block, -, h⟩ := Option.bind_eq_some_iff.mp h
    by_cases hzeros : allocated < st.outputCount + 1 + block.1.toNat
    · rw [if_pos hzeros] at h
      exact absurd h (by simp)
    · rw [if_neg hzeros] at h
      obtain rfl := Option.some.inj h
      refine ⟨by dsimp only; omega, by dsimp only; omega, fun i hi => ?_⟩
      dsimp only at hi ⊢
      rw [if_neg (by omega), Function.update_of_ne (by omega)]
  · obtain rfl := Option.some.inj h
    refine ⟨Nat.lt_succ_self _, Nat.not_lt.mp hroom, fun i hi => ?_⟩
    dsimp only at hi ⊢
    rw [Function.update_of_ne (by omega)]

theorem riceLoop_outputCount {s : RiceSettings} {allocated outputSize rounds : ℕ}
    {st st' : RiceState} (hcount : st.outputCount ≤ allocated)
    (hrounds : outputSize ≤ st.outputCount + rounds)
    (h : riceLoop memory s allocated outputSize rounds st = some st') :
    outputSize ≤ st'.outputCount ∧ st'.outputCount ≤ allocated ∧
      ∀ i, allocated ≤ i → st'.outputBuffer i = st.outputBuffer i := by
  induction rounds generalizing st with
  | zero =>
      obtain rfl := Option.some.inj h
      exact ⟨hrounds, hcount, fun _ _ => rfl⟩
  | succ rounds ih =>
      rw [riceLoop] at h
      split_ifs at h with hmore
      · obtain ⟨next, hstep, hrest⟩ := Option.bind_eq_some_iff.mp h
        obtain ⟨hlt, hle, hsame⟩ := riceStep_outputCount hstep
        obtain ⟨hdone, hle', hsame'⟩ := ih hle (by omega) hrest
        exact ⟨hdone, hle', fun i hi => (hsame' i hi).trans (hsame i (hle.trans hi))⟩
      · obtain rfl := Option.some.inj h
        exact ⟨Nat.not_lt.mp hmore, hcount, fun _ _ => rfl⟩

variable {alac : AlacFile} {out : ℕ → BitVec 8} {n : ℕ}

/-- A channel has no more samples than there is room for, and leaves what is behind as it is. -/
theorem decodeChannel_inside {header : ChannelHeader} {readSampleSize : ℕ}
    {errorBuffer buffer : ℕ → ℤ} {input : Input} {a : (ℕ → ℤ) × (ℕ → ℤ) × Input}
    (h : alac.decodeChannel memory header readSampleSize n errorBuffer buffer input = some a) :
    n ≤ alac.workBufferSize ∧
      ∀ i, alac.workBufferSize ≤ i → a.1 i = errorBuffer i ∧ a.2.1 i = buffer i := by
  rw [AlacFile.decodeChannel] at h
  by_cases hshifts : alac.Shifts readSampleSize
  · rw [if_pos hshifts] at h
    obtain ⟨rice, hrice, h⟩ := Option.bind_eq_some_iff.mp h
    obtain ⟨hdone, hle, hsame⟩ := riceLoop_outputCount (Nat.zero_le _) (Nat.le_add_left _ _) hrice
    refine ⟨hdone.trans hle, fun i hi => ?_⟩
    by_cases htype : header.predictionType = 0
    · rw [if_pos htype] at h
      by_cases hpredicts : alac.Predicts header n
      · rw [if_pos hpredicts] at h
        obtain rfl := Option.some.inj h
        exact ⟨hsame i hi, predictorDecompressFirAdapt_of_le (hpredicts.1.trans hi)⟩
      · rw [if_neg hpredicts] at h
        exact absurd h (by simp)
    · rw [if_neg htype] at h
      obtain rfl := Option.some.inj h
      exact ⟨hsame i hi, rfl⟩
  · rw [if_neg hshifts] at h
    exact absurd h (by simp)

/-- What is behind the work buffers is as it was. -/
structure AlacFile.Kept (alac alac' : AlacFile) (i : ℕ) : Prop where
  predictErrorA : alac'.predictErrorBufferA i = alac.predictErrorBufferA i
  predictErrorB : alac'.predictErrorBufferB i = alac.predictErrorBufferB i
  outputSamplesA : alac'.outputSamplesBufferA i = alac.outputSamplesBufferA i
  outputSamplesB : alac'.outputSamplesBufferB i = alac.outputSamplesBufferB i
  uncompressedBytesA : alac'.uncompressedBytesBufferA i = alac.uncompressedBytesBufferA i
  uncompressedBytesB : alac'.uncompressedBytesBufferB i = alac.uncompressedBytesBufferB i

theorem length_readMany {α : Type*} (read : Input → α × Input) (input : Input) :
    (readMany read n input).1.length = n := by
  induction n generalizing input with
  | zero => rfl
  | succ n ih => rw [readMany, List.length_cons, ih]

/-- There is room for the low bytes, if there are any. -/
theorem length_lowBytes {α : Type*} {uncompressedBytes : ℕ}
    (hroom : ¬(uncompressedBytes ≠ 0 ∧ alac.workBufferSize < n)) (read : Input → α × Input)
    (input : Input) :
    (if uncompressedBytes ≠ 0 then readMany read n input else ([], input)).1.length ≤
      alac.workBufferSize := by
  split_ifs with hlow
  · rw [length_readMany]
    exact Nat.not_lt.mp fun hlt => hroom ⟨hlow, hlt⟩
  · exact Nat.zero_le _

/-- What is written from the start of a work buffer with room for it leaves what is behind. -/
theorem write_inside {values : List ℤ} (buffer : ℕ → ℤ) {i : ℕ}
    (hroom : values.length ≤ alac.workBufferSize) (hi : alac.workBufferSize ≤ i) :
    Fifo.write buffer 0 values i = buffer i :=
  Fifo.write_of_le (by omega)

/-! ## The output -/

theorem deinterlace16_of_le {bufferA bufferB : ℕ → ℤ} {shift weight i : ℕ}
    (hi : n * 4 ≤ i) : deinterlace16 bufferA bufferB out 2 shift weight n i = out i := by
  induction n with
  | zero => rfl
  | succ n ih =>
      rw [deinterlace16, Fifo.write_of_le, ih (by omega)]
      rw [List.length_append, length_leBytes, length_leBytes]
      omega

theorem deinterlace24_of_le {bufferA bufferB lowA lowB : ℕ → ℤ} {out : ℕ → BitVec 8}
    {uncompressedBytes shift weight i : ℕ} (hi : n * 6 ≤ i) :
    deinterlace24 bufferA bufferB uncompressedBytes lowA lowB out 2 shift weight n i = out i := by
  induction n with
  | zero => rfl
  | succ n ih =>
      rw [deinterlace24, Fifo.write_of_le, ih (by omega)]
      rw [List.length_append, length_leBytes, length_leBytes]
      omega

theorem output16_of_le {bufferA : ℕ → ℤ} {i : ℕ} (hi : n * 4 ≤ i) :
    output16 bufferA out 2 n i = out i := by
  induction n with
  | zero => rfl
  | succ n ih =>
      rw [output16, Fifo.write_of_le, ih (by omega)]
      rw [length_leBytes]
      omega

theorem output24_of_le {bufferA lowA : ℕ → ℤ} {uncompressedBytes i : ℕ}
    (hi : n * 6 ≤ i) : output24 bufferA uncompressedBytes lowA out 2 n i = out i := by
  induction n with
  | zero => rfl
  | succ n ih =>
      rw [output24, Fifo.write_of_le, ih (by omega)]
      rw [length_leBytes]
      omega

theorem finishMono_of_le (h : alac.TwoChannels) {uncompressedBytes i : ℕ} {outputsize : ℤ}
    (hi : n * alac.bytesPerSample ≤ i) :
    (alac.finishMono uncompressedBytes n out outputsize).outbuffer i = out i := by
  rw [h.bytesPerSample_eq] at hi
  rw [AlacFile.finishMono, h.numChannels_eq]
  rcases h.sampleSize_eq with hsize | hsize <;> rw [hsize] at hi ⊢
  · exact output16_of_le hi
  · exact output24_of_le hi

theorem finishStereo_of_le (h : alac.TwoChannels) {uncompressedBytes shift weight : ℕ}
    {outputsize : ℤ} {d : AlacFile.Decoded}
    (hd : alac.finishStereo uncompressedBytes shift weight n out outputsize = some d) :
    d.alac = alac ∧ ∀ i, n * alac.bytesPerSample ≤ i → d.outbuffer i = out i := by
  rw [h.bytesPerSample_eq]
  rw [AlacFile.finishStereo, h.numChannels_eq] at hd
  rcases h.sampleSize_eq with hsize | hsize <;> rw [hsize] at hd ⊢ <;>
    by_cases hmixes : AlacFile.Mixes shift weight n <;>
    simp only [hmixes, if_true, if_false, reduceCtorEq, Option.some.injEq] at hd <;> subst hd
  · exact ⟨rfl, fun i hi => deinterlace16_of_le hi⟩
  · exact ⟨rfl, fun i hi => deinterlace24_of_le hi⟩

/-! ## The frame -/

/-- What a frame of `n` samples leaves as it was -/
structure AlacFile.Decoded.Inside (d : AlacFile.Decoded) (alac : AlacFile) (out : ℕ → BitVec 8)
    (n : ℕ) : Prop where
  samples_le : n ≤ alac.workBufferSize
  kept : ∀ i, alac.workBufferSize ≤ i → alac.Kept d.alac i
  outbuffer_eq : ∀ i, n * alac.bytesPerSample ≤ i → d.outbuffer i = out i

theorem decodeMono_inside (h : alac.TwoChannels) {isNotCompressed : Bool} {uncompressedBytes : ℕ}
    {outputsize : ℤ} {input : Input} {d : AlacFile.Decoded}
    (hd : alac.decodeMono memory isNotCompressed uncompressedBytes n out outputsize input =
      some d) : d.Inside alac out n := by
  cases isNotCompressed with
  | true =>
      by_cases hroom : alac.workBufferSize < n
      · simp only [AlacFile.decodeMono, hroom, if_true, reduceCtorEq] at hd
      · simp only [AlacFile.decodeMono, hroom, if_true, if_false, Option.some.injEq] at hd
        subst hd
        have hle := Nat.not_lt.mp hroom
        have hsamples := (length_readMany (n := n) (readAudiobits memory alac.setinfoSampleSize)
          input).trans_le hle
        exact ⟨hle, fun i hi => ⟨rfl, rfl, write_inside _ hsamples hi, rfl, rfl, rfl⟩,
          fun i hi => finishMono_of_le (by exact ⟨h.1, h.2, h.3⟩) hi⟩
  | false =>
      by_cases hroom : uncompressedBytes ≠ 0 ∧ alac.workBufferSize < n
      · simp only [AlacFile.decodeMono, if_pos hroom, Bool.false_eq_true, if_false,
          reduceCtorEq] at hd
      · simp only [AlacFile.decodeMono, if_neg hroom, Bool.false_eq_true, if_false] at hd
        obtain ⟨a, ha, rfl⟩ := Option.map_eq_some_iff.mp hd
        obtain ⟨hle, hsame⟩ := decodeChannel_inside ha
        exact ⟨hle, fun i hi => ⟨(hsame i hi).1, rfl, (hsame i hi).2, rfl,
            write_inside _ (length_lowBytes hroom _ _) hi, rfl⟩,
          fun i hi => finishMono_of_le (by exact ⟨h.1, h.2, h.3⟩) hi⟩

theorem decodeStereo_inside (h : alac.TwoChannels) {isNotCompressed : Bool}
    {uncompressedBytes : ℕ} {outputsize : ℤ} {input : Input} {d : AlacFile.Decoded}
    (hd : alac.decodeStereo memory isNotCompressed uncompressedBytes n out outputsize input =
      some d) : d.Inside alac out n := by
  cases isNotCompressed with
  | true =>
      by_cases hroom : alac.workBufferSize < n
      · simp only [AlacFile.decodeStereo, hroom, if_true, reduceCtorEq] at hd
      · simp only [AlacFile.decodeStereo, hroom, if_true, if_false] at hd
        obtain ⟨hkept, hout⟩ := finishStereo_of_le (by exact ⟨h.1, h.2, h.3⟩) hd
        have hle := Nat.not_lt.mp hroom
        have hsamples {f : ℤ × ℤ → ℤ} := ((List.length_map f).trans (length_readMany (n := n)
          (readBoth (readAudiobits memory alac.setinfoSampleSize)) input)).trans_le hle
        refine ⟨hle, fun i hi => ?_, hout⟩
        rw [hkept]
        exact ⟨rfl, rfl, write_inside _ hsamples hi, write_inside _ hsamples hi, rfl, rfl⟩
  | false =>
      by_cases hroom : uncompressedBytes ≠ 0 ∧ alac.workBufferSize < n
      · simp only [AlacFile.decodeStereo, if_pos hroom, Bool.false_eq_true, if_false,
          reduceCtorEq] at hd
      · simp only [AlacFile.decodeStereo, if_neg hroom, Bool.false_eq_true, if_false] at hd
        obtain ⟨a, ha, hd⟩ := Option.bind_eq_some_iff.mp hd
        obtain ⟨b, hb, hd⟩ := Option.bind_eq_some_iff.mp hd
        obtain ⟨hle, hsameA⟩ := decodeChannel_inside ha
        obtain ⟨-, hsameB⟩ := decodeChannel_inside hb
        obtain ⟨hkept, hout⟩ := finishStereo_of_le (by exact ⟨h.1, h.2, h.3⟩) hd
        have hlow {f : ℤ × ℤ → ℤ} := (List.length_map f).trans_le (length_lowBytes hroom
          (readBoth (readLowBytes memory uncompressedBytes))
          (readChannelHeader memory (readChannelHeader memory
            (readbits memory 8 (readbits memory 8 input).2).2).2).2)
        refine ⟨hle, fun i hi => ?_, hout⟩
        rw [hkept]
        exact ⟨(hsameA i hi).1, (hsameB i hi).1, (hsameA i hi).2, (hsameB i hi).2,
          write_inside _ hlow hi, write_inside _ hlow hi⟩

/-- Whatever the input, a frame that does not run over a work buffer is written inside of what was
allocated, and nothing behind the work buffers is changed. -/
theorem alacDecodeFrame_inside (h : alac.TwoChannels) {outputsize : ℤ}
    (hfits : alac.setinfoMaxSamplesPerFrame * alac.bytesPerSample < 2 ^ 31)
    {d : AlacFile.Decoded} (hd : alac.alacDecodeFrame memory out outputsize = some d) :
    (∀ i : ℕ, outputsize ≤ i → d.outbuffer i = out i) ∧
      ∀ i, alac.workBufferSize ≤ i → alac.Kept d.alac i := by
  have hbytes : 4 ≤ alac.bytesPerSample := by
    rw [h.bytesPerSample_eq]
    rcases h.sampleSize_eq with hsize | hsize <;> omega
  have hmax : alac.setinfoMaxSamplesPerFrame < 2 ^ 31 := by
    have hproduct := Nat.mul_le_mul_left alac.setinfoMaxSamplesPerFrame hbytes
    omega
  have hunread {size : ℤ} (hd : some ⟨alac, out, size⟩ = some d) :
      (∀ i : ℕ, outputsize ≤ i → d.outbuffer i = out i) ∧
        ∀ i, alac.workBufferSize ≤ i → alac.Kept d.alac i := by
    obtain rfl := Option.some.inj hd
    exact ⟨fun _ _ => rfl, fun _ _ => ⟨rfl, rfl, rfl, rfl, rfl, rfl⟩⟩
  rw [AlacFile.alacDecodeFrame] at hd
  dsimp only at hd
  rw [int32_natCast hmax, ← Nat.cast_mul, int32_natCast hfits] at hd
  by_cases hfirst : ((alac.setinfoMaxSamplesPerFrame * alac.bytesPerSample : ℕ) : ℤ) > outputsize
  · rw [if_pos hfirst] at hd
    exact hunread hd
  · -- the frame has no more samples than the limit, and the limit has been compared
    have hinside {n : ℕ} (hd : d.Inside alac out n) :
        (∀ i : ℕ, outputsize ≤ i → d.outbuffer i = out i) ∧
          ∀ i, alac.workBufferSize ≤ i → alac.Kept d.alac i := by
      refine ⟨fun i hi => hd.outbuffer_eq i ?_, hd.kept⟩
      have hroom : alac.workBufferSize ≤ alac.setinfoMaxSamplesPerFrame := by
        rw [AlacFile.workBufferSize]
        omega
      have hproduct := Nat.mul_le_mul_right alac.bytesPerSample (hd.samples_le.trans hroom)
      omega
    have hbody {channels uncompressedBytes n : ℕ} {isNotCompressed : Bool} {size : ℤ}
        {input : Input}
        (hd : (if size > outputsize then some ⟨alac, out, 0⟩
          else if channels = 0 then
            alac.decodeMono memory isNotCompressed uncompressedBytes n out size input
          else alac.decodeStereo memory isNotCompressed uncompressedBytes n out size input) =
            some d) :
        (∀ i : ℕ, outputsize ≤ i → d.outbuffer i = out i) ∧
          ∀ i, alac.workBufferSize ≤ i → alac.Kept d.alac i := by
      split_ifs at hd
      · exact hunread hd
      · exact hinside (decodeMono_inside h hd)
      · exact hinside (decodeStereo_inside h hd)
    rw [if_neg hfirst] at hd
    by_cases hchannels : (readbits memory 3 (inputAt 0)).1 ≤ 1
    · rw [if_pos hchannels] at hd
      exact hbody hd
    · rw [if_neg hchannels] at hd
      exact hunread hd

def verbatimCoding : FrameCoding where
  skipped4 := ⟨0, by decide⟩
  skipped12 := ⟨0, by decide⟩
  hasSize := true
  body := .verbatim

theorem alacDecodeFrame_inside_two :
    ∃ d, alac352.alacDecodeFrame (pack (verbatimCoding.bits alac352 [(1, -2), (3, 4)]))
        (fun _ => 1) 2112 = some d ∧
      (∀ i : ℕ, 2112 ≤ (i : ℤ) → d.outbuffer i = 1) ∧
      ∀ i, alac352.workBufferSize ≤ i → alac352.Kept d.alac i := by
  have hstored := stored_pack (verbatimCoding.bits alac352 [(1, -2), (3, 4)])
  have hheader := (stored_append.mp hstored).1
  have hbody := (stored_append.mp hstored).2
  have htwo : alac352.numChannels = 2 := rfl
  obtain ⟨d, hd, -⟩ := decodeStereo_verbatim htwo (Or.inr rfl) (by decide)
    (by
      intro s hs
      rcases List.mem_pair.mp hs with rfl | rfl <;> (constructor <;> constructor <;> decide))
    (fun _ => 1) (int32 ([((1 : ℤ), (-2 : ℤ)), (3, 4)].length * alac352.bytesPerSample)) hbody
  have hframe : alac352.alacDecodeFrame (pack (verbatimCoding.bits alac352 [(1, -2), (3, 4)]))
      (fun _ => 1) 2112 = some d := by
    rw [alacDecodeFrame_header (by decide) (fun h => absurd h (by decide)) _ (by decide) hheader,
      if_neg (by decide), if_neg (by decide)]
    exact hd
  exact ⟨d, hframe, alacDecodeFrame_inside ⟨rfl, Or.inr rfl, by decide⟩ (by decide) hframe⟩

/-! ## Overflows -/

end Alac

end ShairportSync
