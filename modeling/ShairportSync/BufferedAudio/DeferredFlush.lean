import ShairportSync.BufferedAudio.BlockFraming

/-!
# The cut before a deferred flush

While a deferred flush is pending, the audio that is decoded is to end at the frame it flushes
from. The source keeps as many frames of a sample buffer as lie between the read point of the pcm
buffer and that frame. This is right where the sample buffer begins at the read point. Frames left
over in the pcm buffer, and earlier sample buffers of the block, come between the two, and a read
point at or after the frame cuts nothing.
-/

namespace ShairportSync

namespace BufferedAudio

open Player (RtpTime Bytes)
open Transition

/-! ## The beginnings of sample buffers -/

section Chunks

variable {chunks : List Bytes} {n : ℕ}

theorem flatten_map_take_of_le (h : ∀ samples ∈ chunks, samples.length ≤ n) :
    (chunks.map (List.take n)).flatten = chunks.flatten := by
  rw [List.map_congr_left fun samples hmem => List.take_of_length_le (h samples hmem),
    List.map_id']

theorem flatten_map_take_of_lt (h : (chunks.map (List.take n)).flatten.length < n) :
    (chunks.map (List.take n)).flatten = chunks.flatten := by
  refine flatten_map_take_of_le fun samples hmem => ?_
  have hle := (List.sublist_flatten_of_mem
    (List.mem_map_of_mem (f := List.take n) hmem)).length_le
  rw [List.length_take] at hle
  omega

theorem flatten_eq_nil_of_take (hn : 0 < n)
    (h : (chunks.map (List.take n)).flatten = []) : chunks.flatten = [] := by
  rw [List.flatten_eq_nil_iff] at h ⊢
  intro samples hmem
  rcases List.take_eq_nil_iff.mp (h _ (List.mem_map_of_mem hmem)) with hzero | hnil
  · exact absurd hzero hn.ne'
  · exact hnil

theorem flatten_map_take_of_single (h : ∃ samples ∈ chunks, chunks.flatten = samples) :
    (chunks.map (List.take n)).flatten = chunks.flatten.take n := by
  obtain ⟨samples, hmem, hflatten⟩ := h
  obtain ⟨before, after, rfl⟩ := List.append_of_mem hmem
  rw [List.flatten_append, List.flatten_cons] at hflatten
  have hlength := congrArg List.length hflatten
  rw [List.length_append, List.length_append] at hlength
  have hbefore : before.flatten = [] := List.eq_nil_of_length_eq_zero (by omega)
  have hafter : after.flatten = [] := List.eq_nil_of_length_eq_zero (by omega)
  have hnil : ∀ l : List Bytes, l.flatten = [] → (l.map (List.take n)).flatten = [] := by
    intro l hl
    rw [List.flatten_eq_nil_iff] at hl ⊢
    intro taken htaken
    obtain ⟨samples', hmem', rfl⟩ := List.mem_map.mp htaken
    rw [hl samples' hmem', List.take_nil]
  rw [List.map_append, List.map_cons, List.flatten_append, List.flatten_cons, hnil before hbefore,
    hnil after hafter, List.flatten_append, List.flatten_cons, hbefore, hafter, List.append_nil,
    List.append_nil, List.nil_append, List.nil_append]

/-- If the beginnings of `n` bytes are `n` bytes together, and not all there is, there is one
sample buffer only. -/
theorem single_of_length_take (hn : 0 < n)
    (htaken : (chunks.map (List.take n)).flatten.length = n) (hmore : n < chunks.flatten.length) :
    ∃ samples ∈ chunks, chunks.flatten = samples := by
  by_cases hlong : ∃ samples ∈ chunks, n < samples.length
  · obtain ⟨samples, hmem, hsamples⟩ := hlong
    refine ⟨samples, hmem, ?_⟩
    obtain ⟨before, after, rfl⟩ := List.append_of_mem hmem
    rw [List.map_append, List.map_cons, List.flatten_append, List.flatten_cons, List.length_append,
      List.length_append, List.length_take, Nat.min_eq_left hsamples.le] at htaken
    have hbefore := flatten_eq_nil_of_take hn (List.eq_nil_of_length_eq_zero
      (show (before.map (List.take n)).flatten.length = 0 by omega))
    have hafter := flatten_eq_nil_of_take hn (List.eq_nil_of_length_eq_zero
      (show (after.map (List.take n)).flatten.length = 0 by omega))
    rw [List.flatten_append, List.flatten_cons, hbefore, hafter, List.append_nil, List.nil_append]
  · have hshort : ∀ samples ∈ chunks, samples.length ≤ n := fun samples hmem =>
      not_lt.mp fun hlt => hlong ⟨samples, hmem, hlt⟩
    rw [flatten_map_take_of_le hshort] at htaken
    omega

/-- Where something is cut off some of the buffers, it is all of them together only if nothing is
cut off. -/
theorem flatten_map_eq_flatten_iff {cut : Bytes → Bytes}
    (hcut : ∀ samples, (cut samples).length ≤ samples.length) :
    (chunks.map cut).flatten = chunks.flatten ↔ ∀ samples ∈ chunks, cut samples = samples := by
  have hle : ∀ l : List Bytes, (l.map cut).flatten.length ≤ l.flatten.length := by
    intro l
    induction l with
    | nil => exact le_rfl
    | cons samples l ih =>
        rw [List.map_cons, List.flatten_cons, List.flatten_cons, List.length_append,
          List.length_append]
        exact Nat.add_le_add (hcut samples) ih
  constructor
  · intro h
    induction chunks with
    | nil => exact fun samples hmem => absurd hmem List.not_mem_nil
    | cons samples l ih =>
        rw [List.map_cons, List.flatten_cons, List.flatten_cons] at h
        have hlength := congrArg List.length h
        rw [List.length_append, List.length_append] at hlength
        have hfirst := hcut samples
        have hrest := hle l
        obtain ⟨hsame, htail⟩ := List.append_inj h (by omega)
        intro samples' hmem
        rcases List.mem_cons.mp hmem with rfl | hmem
        · exact hsame
        · exact ih htail samples' hmem
  · intro h
    rw [List.map_congr_left h, List.map_id']

end Chunks

/-! ## Numbered frames -/

def numbered (bytesPerFrame : ℕ) (readPoint : RtpTime) (bytes : Bytes) : List (RtpTime × Bytes) :=
  (List.range (bytes.length / bytesPerFrame)).map fun i =>
    (readPoint + BitVec.ofNat 32 i, (bytes.drop (bytesPerFrame * i)).take bytesPerFrame)

def isBefore (flushFrame : RtpTime) (frame : RtpTime × Bytes) : Bool :=
  (frame.1 - flushFrame).toInt < 0

def audioBefore (bytesPerFrame : ℕ) (readPoint flushFrame : RtpTime) (bytes : Bytes) : Bytes :=
  ((numbered bytesPerFrame readPoint bytes).filter (isBefore flushFrame)).flatMap Prod.snd

section Numbered

variable {bytesPerFrame n : ℕ} {readPoint flushFrame : RtpTime} {bytes : Bytes}

theorem flatMap_range_take (bytesPerFrame : ℕ) (bytes : Bytes) (n : ℕ) :
    ((List.range n).flatMap fun i => (bytes.drop (bytesPerFrame * i)).take bytesPerFrame) =
      bytes.take (bytesPerFrame * n) := by
  induction n with
  | zero => rw [Nat.mul_zero, List.take_zero, List.range_zero, List.flatMap_nil]
  | succ n ih =>
      rw [List.range_succ, List.flatMap_append, ih, List.flatMap_singleton, Nat.mul_succ,
        List.take_add]

/-- How a frame of the buffer lies to the flush frame, by how the read point does. -/
theorem isBefore_iff {i : ℕ} (hi : i < 2 ^ 31) (data : Bytes) :
    isBefore flushFrame (readPoint + BitVec.ofNat 32 i, data) = true ↔
      (i : Int) < (flushFrame - readPoint).toInt ∨
        (flushFrame - readPoint).toInt + 2 ^ 31 ≤ i := by
  have hsub : readPoint + BitVec.ofNat 32 i - flushFrame =
      BitVec.ofNat 32 i - (flushFrame - readPoint) := by ring
  unfold isBefore
  dsimp only
  rw [hsub, decide_eq_true_iff]
  generalize flushFrame - readPoint = d
  have hd := d.isLt
  rw [BitVec.toInt_eq_toNat_cond, BitVec.toInt_eq_toNat_cond, BitVec.toNat_sub,
    BitVec.toNat_ofNat]
  split_ifs <;> omega

/-- Where the flush frame is after the read point, the frames before it are the first ones. -/
theorem audioBefore_of_pos (hlength : bytes.length = bytesPerFrame * n) (hn : n < 2 ^ 31)
    (hbytes : 0 < bytesPerFrame) (hpos : 0 < (flushFrame - readPoint).toInt) :
    audioBefore bytesPerFrame readPoint flushFrame bytes =
      bytes.take (bytesPerFrame * min (flushFrame - readPoint).toInt.toNat n) := by
  obtain ⟨m, hm⟩ := Nat.exists_eq_add_of_le
    (Nat.min_le_right (flushFrame - readPoint).toInt.toNat n)
  have hcount : bytes.length / bytesPerFrame =
      min (flushFrame - readPoint).toInt.toNat n + m := by
    rw [hlength, Nat.mul_div_cancel_left n hbytes, ← hm]
  unfold audioBefore numbered
  rw [hcount, List.range_add, List.map_append, List.filter_append, List.filter_eq_self.mpr,
    List.filter_eq_nil_iff.mpr, List.append_nil, List.flatMap_map, flatMap_range_take]
  · intro frame hframe
    rw [List.map_map] at hframe
    obtain ⟨i, hi, rfl⟩ := List.mem_map.mp hframe
    have hi := List.mem_range.mp hi
    rw [Function.comp_apply, isBefore_iff (by omega)]
    omega
  · intro frame hframe
    obtain ⟨i, hi, rfl⟩ := List.mem_map.mp hframe
    have hi := List.mem_range.mp hi
    rw [isBefore_iff (by omega)]
    omega

theorem length_flatMap_snd {frames : List (RtpTime × Bytes)}
    (h : ∀ frame ∈ frames, frame.2.length = bytesPerFrame) :
    (frames.flatMap Prod.snd).length = bytesPerFrame * frames.length := by
  induction frames with
  | nil => rfl
  | cons frame frames ih =>
      rw [List.flatMap_cons, List.length_append, h frame List.mem_cons_self,
        ih fun frame' hmem => h frame' (List.mem_cons_of_mem frame hmem), List.length_cons,
        Nat.mul_succ, Nat.add_comm]

/-- All the audio is of frames before the flush frame only if they all are. -/
theorem audioBefore_eq_self_iff (hlength : bytes.length = bytesPerFrame * n)
    (hbytes : 0 < bytesPerFrame) :
    audioBefore bytesPerFrame readPoint flushFrame bytes = bytes ↔
      ∀ frame ∈ numbered bytesPerFrame readPoint bytes, isBefore flushFrame frame = true := by
  have hcount : bytes.length / bytesPerFrame = n := by
    rw [hlength, Nat.mul_div_cancel_left n hbytes]
  have hframe : ∀ frame ∈ numbered bytesPerFrame readPoint bytes,
      frame.2.length = bytesPerFrame := by
    intro frame hmem
    obtain ⟨i, hi, rfl⟩ := List.mem_map.mp hmem
    have hi := List.mem_range.mp hi
    have hfits : bytesPerFrame * i + bytesPerFrame ≤ bytesPerFrame * n := by
      rw [← Nat.mul_succ]
      exact Nat.mul_le_mul_left _ (hcount ▸ hi)
    rw [List.length_take, List.length_drop]
    omega
  have hall : (numbered bytesPerFrame readPoint bytes).flatMap Prod.snd = bytes := by
    unfold numbered
    rw [List.flatMap_map, flatMap_range_take, hcount, ← hlength, List.take_length]
  unfold audioBefore
  constructor
  · intro h
    have hsame := congrArg List.length (h.trans hall.symm)
    rw [length_flatMap_snd hframe, length_flatMap_snd fun frame hmem =>
      hframe frame (List.mem_of_mem_filter hmem)] at hsame
    exact List.length_filter_eq_length_iff.mp (Nat.eq_of_mul_eq_mul_left hbytes hsame)
  · intro h
    rw [List.filter_eq_self.mpr h, hall]

end Numbered

/-! ## Cutting sample buffers -/

def Processor.samplesRemaining {σ : Type} (p : Processor σ) : Int :=
  (p.flushFromTimestamp - p.pcmBufferReadPointRtptime).toInt

/-- `samples_remaining * conn->input_bytes_per_frame`, a product of two C integers. -/
def Processor.bytesRemaining {σ : Type} (stream : Stream) (p : Processor σ) : Int :=
  ((p.flushFromTimestamp - p.pcmBufferReadPointRtptime) *
    BitVec.ofNat 32 stream.inputBytesPerFrame).toInt

/-- The pcm buffer after the sample buffers have been added is the audio before the flush frame,
and no number of bytes to be copied is negative. -/
structure CutRight {σ : Type} (stream : Stream) (p : Processor σ) (chunks : List Bytes)
    (pcmBuffer : Bytes) : Prop where
  audio : pcmBuffer = audioBefore stream.inputBytesPerFrame p.pcmBufferReadPointRtptime
    p.flushFromTimestamp (p.pcmBuffer ++ chunks.flatten)
  copied : 0 < p.samplesRemaining → ∀ samples ∈ chunks,
    p.bytesRemaining stream < samples.length → 0 ≤ p.bytesRemaining stream

/-- The flush frame is not after the read point, and there are no frames; or they are all before
the flush frame, and the product is not less than the bytes of a sample buffer; or the flush frame
is inside the block, which is one sample buffer with nothing before it in the pcm buffer; or it is
as far from the read point as can be. -/
def CutInOrder {σ : Type} (stream : Stream) (p : Processor σ) (chunks : List Bytes) : Prop :=
  (p.samplesRemaining ≤ 0 ∧ p.pcmBuffer ++ chunks.flatten = []) ∨
    (0 < p.samplesRemaining ∧
      ((p.pcmBuffer ++ chunks.flatten).length / stream.inputBytesPerFrame : ℕ) ≤
        p.samplesRemaining ∧
      ∀ samples ∈ chunks, (samples.length : Int) ≤ p.bytesRemaining stream) ∨
    (p.pcmBuffer = [] ∧ 0 < p.samplesRemaining ∧
      p.samplesRemaining < (chunks.flatten.length / stream.inputBytesPerFrame : ℕ) ∧
      ∃ samples ∈ chunks, chunks.flatten = samples) ∨
    p.samplesRemaining = -2 ^ 31

instance {σ : Type} (stream : Stream) (p : Processor σ) (chunks : List Bytes) :
    Decidable (CutInOrder stream p chunks) :=
  inferInstanceAs (Decidable ((_ ∧ _) ∨ (_ ∧ _ ∧ ∀ samples ∈ chunks, _) ∨
    (_ ∧ _ ∧ _ ∧ ∃ samples ∈ chunks, _) ∨ _))

section Cut

variable {σ : Type} {stream : Stream} {p : Processor σ} {chunks : List Bytes}

theorem truncateToFlush_of_pos (hpos : 0 < p.samplesRemaining) (samples : Bytes) :
    truncateToFlush stream true p samples =
      if p.bytesRemaining stream < samples.length then
        samples.take (p.bytesRemaining stream).toNat
      else samples := by
  unfold truncateToFlush
  dsimp only
  by_cases hless : p.bytesRemaining stream < samples.length
  · rw [if_pos hless]
    exact if_pos ⟨rfl, hpos, hless⟩
  · rw [if_neg hless]
    exact if_neg fun h => hless h.2.2

theorem truncateToFlush_of_not_pos (hpos : ¬ 0 < p.samplesRemaining) (flushIsDelayed : Bool)
    (samples : Bytes) : truncateToFlush stream flushIsDelayed p samples = samples :=
  if_neg fun h => hpos h.2.1

theorem bytesRemaining_eq (hbytes : stream.inputBytesPerFrame ≤ 8)
    (hpos : 0 < p.samplesRemaining) (hnear : p.samplesRemaining < 2 ^ 16) :
    p.bytesRemaining stream = stream.inputBytesPerFrame * p.samplesRemaining := by
  unfold Processor.bytesRemaining
  unfold Processor.samplesRemaining at hpos hnear ⊢
  generalize p.flushFromTimestamp - p.pcmBufferReadPointRtptime = d at *
  have hd : d.toInt = d.toNat := by
    have hlt := d.isLt
    rw [BitVec.toInt_eq_toNat_cond] at hpos ⊢
    split_ifs at hpos ⊢ <;> omega
  rw [hd] at hpos hnear ⊢
  have hproduct : d.toNat * stream.inputBytesPerFrame < 2 ^ 31 := by
    have hle := Nat.mul_le_mul (show d.toNat ≤ 2 ^ 16 by omega) hbytes
    omega
  have hsmall : stream.inputBytesPerFrame % 2 ^ 32 = stream.inputBytesPerFrame :=
    Nat.mod_eq_of_lt (by omega)
  rw [BitVec.toInt_eq_toNat_cond, BitVec.toNat_mul, BitVec.toNat_ofNat, hsmall,
    Nat.mod_eq_of_lt (by omega), if_pos (by omega), Nat.cast_mul, mul_comm]

/-- Less than 352 frames in the pcm buffer, and a block of at most 1024. -/
structure WholeFrames (stream : Stream) (p : Processor σ) (chunks : List Bytes) (L B : ℕ) :
    Prop where
  bytes_pos : 0 < stream.inputBytesPerFrame
  bytes_le : stream.inputBytesPerFrame ≤ 8
  leftover : p.pcmBuffer.length = stream.inputBytesPerFrame * L
  block : chunks.flatten.length = stream.inputBytesPerFrame * B
  leftover_lt : L < framesPerPacket
  block_le : B ≤ 1024

variable {L B : ℕ}

theorem WholeFrames.length_append (h : WholeFrames stream p chunks L B) :
    (p.pcmBuffer ++ chunks.flatten).length = stream.inputBytesPerFrame * (L + B) := by
  rw [List.length_append, h.leftover, h.block, Nat.mul_add]

theorem WholeFrames.audioBefore_eq (h : WholeFrames stream p chunks L B)
    (hpos : 0 < p.samplesRemaining) :
    audioBefore stream.inputBytesPerFrame p.pcmBufferReadPointRtptime p.flushFromTimestamp
        (p.pcmBuffer ++ chunks.flatten) =
      (p.pcmBuffer ++ chunks.flatten).take
        (stream.inputBytesPerFrame * min p.samplesRemaining.toNat (L + B)) := by
  have hlt : L < 352 := h.leftover_lt
  have hle := h.block_le
  exact audioBefore_of_pos h.length_append (by omega) h.bytes_pos hpos

/-- All the frames are before the flush frame: nothing is to be cut. -/
theorem WholeFrames.cutRight_iff_of_le (h : WholeFrames stream p chunks L B)
    (hpos : 0 < p.samplesRemaining) (hle : ((L + B : ℕ) : Int) ≤ p.samplesRemaining) :
    CutRight stream p chunks
        (p.pcmBuffer ++ (chunks.map (truncateToFlush stream true p)).flatten) ↔
      ∀ samples ∈ chunks, (samples.length : Int) ≤ p.bytesRemaining stream := by
  have hall : audioBefore stream.inputBytesPerFrame p.pcmBufferReadPointRtptime
      p.flushFromTimestamp (p.pcmBuffer ++ chunks.flatten) = p.pcmBuffer ++ chunks.flatten := by
    rw [h.audioBefore_eq hpos, Nat.min_eq_right (by omega), ← h.length_append, List.take_length]
  constructor
  · rintro ⟨haudio, hcopied⟩ samples hmem
    rw [hall, List.append_cancel_left_eq,
      flatten_map_eq_flatten_iff (length_truncateToFlush_le stream true p)] at haudio
    have hsame := haudio samples hmem
    by_contra hless
    have hnonneg := hcopied hpos samples hmem (not_le.mp hless)
    rw [truncateToFlush_of_pos hpos, if_pos (not_le.mp hless)] at hsame
    have hlength := List.length_take_le (p.bytesRemaining stream).toNat samples
    rw [hsame] at hlength
    omega
  · intro hproduct
    refine ⟨?_, fun _ samples hmem hless => absurd hless (not_lt.mpr (hproduct samples hmem))⟩
    rw [hall, List.append_cancel_left_eq,
      flatten_map_eq_flatten_iff (length_truncateToFlush_le stream true p)]
    intro samples hmem
    rw [truncateToFlush_of_pos hpos, if_neg (not_lt.mpr (hproduct samples hmem))]

/-- The flush frame is among the frames: all sample buffers are cut to the same length. -/
theorem WholeFrames.cutRight_iff_of_lt (h : WholeFrames stream p chunks L B)
    (hpos : 0 < p.samplesRemaining) (hlt : p.samplesRemaining < (L + B : ℕ)) :
    CutRight stream p chunks
        (p.pcmBuffer ++ (chunks.map (truncateToFlush stream true p)).flatten) ↔
      p.pcmBuffer = [] ∧ ∃ samples ∈ chunks, chunks.flatten = samples := by
  obtain ⟨d, hd⟩ := Int.eq_ofNat_of_zero_le hpos.le
  have hleftover : L < 352 := h.leftover_lt
  have hblock := h.block_le
  have hproduct : p.bytesRemaining stream = (stream.inputBytesPerFrame * d : ℕ) := by
    rw [bytesRemaining_eq h.bytes_le hpos (by omega), hd, Nat.cast_mul]
  have hcut : ∀ samples : Bytes, truncateToFlush stream true p samples =
      samples.take (stream.inputBytesPerFrame * d) := by
    intro samples
    rw [truncateToFlush_of_pos hpos, hproduct, Int.toNat_natCast]
    split_ifs with hless
    · rfl
    · exact (List.take_of_length_le (by omega)).symm
  have hmap : chunks.map (truncateToFlush stream true p) =
      chunks.map (List.take (stream.inputBytesPerFrame * d)) :=
    List.map_congr_left fun samples _ => hcut samples
  have hbefore : audioBefore stream.inputBytesPerFrame p.pcmBufferReadPointRtptime
      p.flushFromTimestamp (p.pcmBuffer ++ chunks.flatten) =
      (p.pcmBuffer ++ chunks.flatten).take (stream.inputBytesPerFrame * d) := by
    rw [h.audioBefore_eq hpos, Nat.min_eq_left (by omega), hd]
    rfl
  have hless : stream.inputBytesPerFrame * d < stream.inputBytesPerFrame * (L + B) :=
    Nat.mul_lt_mul_of_pos_left (by omega) h.bytes_pos
  have hsome : 0 < stream.inputBytesPerFrame * d := Nat.mul_pos h.bytes_pos (by omega)
  rw [hmap]
  constructor
  · rintro ⟨haudio, -⟩
    rw [hbefore] at haudio
    have hlength := congrArg List.length haudio
    rw [List.length_append, List.length_take, h.length_append, Nat.min_eq_left hless.le] at hlength
    have htotal := h.length_append
    rw [List.length_append] at htotal
    have hnil : p.pcmBuffer = [] := by
      by_contra hne
      have hsomeLeft := List.length_pos_of_ne_nil hne
      rw [flatten_map_take_of_lt (show (chunks.map (List.take
        (stream.inputBytesPerFrame * d))).flatten.length < _ by omega)] at hlength
      omega
    rw [hnil, List.length_nil, Nat.zero_add] at hlength htotal
    exact ⟨hnil, single_of_length_take hsome hlength (by omega)⟩
  · rintro ⟨hnil, hsingle⟩
    refine ⟨?_, fun _ _ _ _ => by omega⟩
    rw [hbefore, hnil, List.nil_append, List.nil_append, flatten_map_take_of_single hsingle]

/-- The flush frame is not after the read point: nothing is cut. -/
theorem WholeFrames.cutRight_iff_of_not_pos (h : WholeFrames stream p chunks L B)
    (hpos : ¬ 0 < p.samplesRemaining) :
    CutRight stream p chunks
        (p.pcmBuffer ++ (chunks.map (truncateToFlush stream true p)).flatten) ↔
      p.pcmBuffer ++ chunks.flatten = [] ∨ p.samplesRemaining = -2 ^ 31 := by
  have hall : (chunks.map (truncateToFlush stream true p)).flatten = chunks.flatten := by
    rw [flatten_map_eq_flatten_iff (length_truncateToFlush_le stream true p)]
    exact fun samples _ => truncateToFlush_of_not_pos hpos true samples
  have hlength := h.length_append
  have hfew : L + B < 2 ^ 31 := by
    have hlt : L < 352 := h.leftover_lt
    have hle := h.block_le
    omega
  have hframes : (∀ frame ∈ numbered stream.inputBytesPerFrame p.pcmBufferReadPointRtptime
        (p.pcmBuffer ++ chunks.flatten), isBefore p.flushFromTimestamp frame = true) ↔
      ∀ i < L + B, p.samplesRemaining + 2 ^ 31 ≤ i := by
    unfold numbered
    rw [List.forall_mem_map, hlength, Nat.mul_div_cancel_left _ h.bytes_pos]
    refine forall_congr' fun i => ?_
    rw [List.mem_range]
    refine imp_congr_right fun hi => ?_
    rw [isBefore_iff (by omega)]
    exact or_iff_right fun hless => hpos (lt_of_le_of_lt (Int.natCast_nonneg i) hless)
  have haudio : p.pcmBuffer ++ chunks.flatten = audioBefore stream.inputBytesPerFrame
        p.pcmBufferReadPointRtptime p.flushFromTimestamp (p.pcmBuffer ++ chunks.flatten) ↔
      p.pcmBuffer ++ chunks.flatten = [] ∨ p.samplesRemaining = -2 ^ 31 := by
    rw [eq_comm, audioBefore_eq_self_iff hlength h.bytes_pos, hframes]
    have hleast : -2 ^ 31 ≤ p.samplesRemaining :=
      BitVec.le_toInt (p.flushFromTimestamp - p.pcmBufferReadPointRtptime)
    rw [← List.length_eq_zero_iff, hlength, Nat.mul_eq_zero]
    have hbytes := h.bytes_pos
    constructor
    · intro hall
      by_cases hnone : L + B = 0
      · exact Or.inl (Or.inr hnone)
      · have hfirst := hall 0 (Nat.pos_of_ne_zero hnone)
        exact Or.inr (by omega)
    · rintro ((hzero | hnone) | hfar) i hi
      · omega
      · omega
      · omega
  rw [hall, ← haudio]
  exact ⟨fun hcut => hcut.audio, fun h => ⟨h, fun hless => absurd hless hpos⟩⟩

/-- The sample buffers are added right exactly if the flush frame lies in order. -/
theorem WholeFrames.cutRight_iff (h : WholeFrames stream p chunks L B) :
    CutRight stream p chunks
        (p.pcmBuffer ++ (chunks.map (truncateToFlush stream true p)).flatten) ↔
      CutInOrder stream p chunks := by
  have hcount : (p.pcmBuffer ++ chunks.flatten).length / stream.inputBytesPerFrame = L + B := by
    rw [h.length_append, Nat.mul_div_cancel_left _ h.bytes_pos]
  have hblock : chunks.flatten.length / stream.inputBytesPerFrame = B := by
    rw [h.block, Nat.mul_div_cancel_left _ h.bytes_pos]
  unfold CutInOrder
  rw [hcount, hblock]
  by_cases hpos : 0 < p.samplesRemaining
  · by_cases hle : ((L + B : ℕ) : Int) ≤ p.samplesRemaining
    · rw [h.cutRight_iff_of_le hpos hle]
      constructor
      · exact fun hproduct => Or.inr (Or.inl ⟨hpos, hle, hproduct⟩)
      · rintro (⟨hnot, -⟩ | ⟨-, -, hproduct⟩ | ⟨-, -, hinside, -⟩ | hfar)
        · omega
        · exact hproduct
        · omega
        · omega
    · rw [h.cutRight_iff_of_lt hpos (not_le.mp hle)]
      constructor
      · rintro ⟨hnil, hsingle⟩
        have hnone : L = 0 := by
          have hleftover := h.leftover
          rw [hnil, List.length_nil, eq_comm, Nat.mul_eq_zero] at hleftover
          exact hleftover.resolve_left h.bytes_pos.ne'
        exact Or.inr (Or.inr (Or.inl ⟨hnil, hpos, by omega, hsingle⟩))
      · rintro (⟨hnot, -⟩ | ⟨-, hbefore, -⟩ | ⟨hnil, -, -, hsingle⟩ | hfar)
        · omega
        · exact absurd hbefore hle
        · exact ⟨hnil, hsingle⟩
        · omega
  · rw [h.cutRight_iff_of_not_pos hpos]
    constructor
    · rintro (hnone | hfar)
      · exact Or.inl ⟨not_lt.mp hpos, hnone⟩
      · exact Or.inr (Or.inr (Or.inr hfar))
    · rintro (⟨-, hnone⟩ | ⟨hless, -⟩ | ⟨-, hless, -⟩ | hfar)
      · exact Or.inl hnone
      · exact absurd hless hpos
      · exact absurd hless hpos
      · exact Or.inr hfar

end Cut

/-! ## Turns and runs -/

section Turns

variable {σ : Type} (stream : Stream) (codec : Codec σ)

def Conn.DeferredFlushPending (conn : Conn) (seqNo : BitVec 32) : Prop :=
  (conn.ap2FlushRequested = true ∧ conn.ap2FlushFromValid = true) ∧
    conn.flushRequestActive seqNo = false

instance (conn : Conn) (seqNo : BitVec 32) : Decidable (conn.DeferredFlushPending seqNo) :=
  inferInstanceAs (Decidable (_ ∧ _))

def System.withBlock (rd : LoopReadings) (s : System σ) (bytes : Bytes) : Processor σ :=
  (s.beforeBlock stream rd).acceptBlock stream rd bytes

def System.sampleBuffers (rd : LoopReadings) (s : System σ) (bytes : Bytes) : List Bytes :=
  (decodeBlock stream codec (s.withBlock stream rd bytes).packet bytes.length
    (s.withBlock stream rd bytes).codec).2

/-- A turn that decodes a block while a deferred flush is pending, with `L` frames left over in the
pcm buffer and `B` in the block. -/
structure DecodesBeforeFlush (rd : LoopReadings) (s : System σ) (bytes : Bytes) (L B : ℕ) :
    Prop where
  pending : s.conn.DeferredFlushPending s.processor.seqNo
  received : rd.received = some bytes
  nonempty : bytes ≠ []
  decodes : (s.withBlock stream rd bytes).DecodesBlock stream
    s.conn.ap2FlushUntilSequenceNumber rd
  whole : WholeFrames stream (s.withBlock stream rd bytes) (s.sampleBuffers stream codec rd bytes)
    L B

/-- The audio in the pcm buffer is cut at the frame that the flush is from. -/
structure CutsAtFlush (rd : LoopReadings) (s : System σ) (bytes : Bytes) : Prop where
  cut : CutRight stream (s.withBlock stream rd bytes) (s.sampleBuffers stream codec rd bytes)
    (s.turn stream codec rd).processor.pcmBuffer
  flushFrom : (s.withBlock stream rd bytes).flushFromTimestamp = s.conn.ap2FlushFromRtpTimestamp
  readPoint : (s.turn stream codec rd).processor.pcmBufferReadPoint = 0 ∧
    (s.turn stream codec rd).processor.pcmBufferReadPointRtptime =
      (s.withBlock stream rd bytes).pcmBufferReadPointRtptime

def CutsAtFlushAt (s : System σ) : Label → Prop
  | .turn rd => ∀ bytes L B, DecodesBeforeFlush stream codec rd s bytes L B →
      CutsAtFlush stream codec rd s bytes
  | _ => True

def CutInOrderAt (s : System σ) : Label → Prop
  | .turn rd => ∀ bytes L B, DecodesBeforeFlush stream codec rd s bytes L B →
      CutInOrder stream (s.withBlock stream rd bytes) (s.sampleBuffers stream codec rd bytes)
  | _ => True

/-- While a block is needed the pcm buffer is read from its start. -/
def ReadsFromStart (p : Processor σ) : Prop :=
  p.newBufferNeeded = true → p.pcmBufferReadPoint = 0

variable {stream} {codec} {rd : LoopReadings} {s t : System σ} {bytes : Bytes} {L B : ℕ}

/-- A look empties the pcm buffer or leaves it with its read point. -/
theorem look_readPoint (conn : Conn) (p : Processor σ) :
    (look conn p).processor.newBufferNeeded = p.newBufferNeeded ∧
      ((look conn p).processor.pcmBufferReadPoint = p.pcmBufferReadPoint ∨
        (look conn p).processor.pcmBufferReadPoint = 0) := by
  unfold look
  dsimp only
  refine ⟨?_, ?_⟩
  · split_ifs <;> rfl
  · split_ifs <;> first | exact Or.inr rfl | exact Or.inl rfl

theorem offerPacket_newBufferNeeded (p : Processor σ) :
    (p.offerPacket stream rd).1.newBufferNeeded = p.newBufferNeeded := by
  unfold Processor.offerPacket
  split_ifs
  · dsimp only
    split
    · rfl
    · dsimp only
      split_ifs <;> rfl
  · rfl

theorem supplyPlayer_readsFromStart {p : Processor σ} (h : ReadsFromStart p) :
    ReadsFromStart (supplyPlayer stream rd p).1 := by
  unfold supplyPlayer
  split_ifs
  · exact h
  · intro hneeded
    rw [offerPacket_newBufferNeeded] at hneeded
    exact absurd hneeded Bool.false_ne_true
  · exact fun _ => rfl

theorem beforeBlock_readsFromStart (h : ReadsFromStart s.processor) :
    ReadsFromStart (s.beforeBlock stream rd) := by
  obtain ⟨hneeded, hpoint⟩ := look_readPoint s.conn s.processor
  have hlooked : ReadsFromStart (look s.conn s.processor).processor := by
    intro hlook
    exact hpoint.elim (fun hsame => hsame.trans (h (hneeded.symm.trans hlook))) id
  unfold System.beforeBlock
  dsimp only
  split_ifs
  · exact hlooked
  · exact supplyPlayer_readsFromStart hlooked

theorem acceptBlock_readsFromStart {p : Processor σ} (h : ReadsFromStart p) (bytes : Bytes) :
    ReadsFromStart (p.acceptBlock stream rd bytes) := by
  intro hneeded
  by_cases hempty : (p.acceptBlock stream rd bytes).pcmBuffer.length = 0
  · exact if_pos hempty
  · exact (if_neg hempty).trans (h hneeded)

/-- Sample buffers do not move the read point. -/
theorem addBlock_frame (stream : Stream) (codec : Codec σ) (flushIsDelayed : Bool) (nread : ℕ)
    (p : Processor σ) :
    ∃ size buffer decoder, addBlock stream codec flushIsDelayed nread p =
      { p with pcmBufferSize := size, pcmBuffer := buffer, codec := decoder } := by
  unfold addBlock
  obtain ⟨size, buffer, -, heq⟩ := foldl_addSamples_frame stream flushIsDelayed
    (decodeBlock stream codec p.packet nread p.codec).2
    { p with codec := (decodeBlock stream codec p.packet nread p.codec).1 }
  exact ⟨size, buffer, _, heq⟩

theorem readBlock_readsFromStart {p : Processor σ} (h : ReadsFromStart p)
    (flushUntilSeq : BitVec 32) (flushIsDelayed : Bool) :
    ReadsFromStart (readBlock stream codec flushUntilSeq flushIsDelayed rd p) := by
  unfold readBlock
  split_ifs
  · split
    · exact h
    · exact h
    · rename_i bytes _ _
      rw [processBlock_eq_ite]
      split_ifs
      · obtain ⟨size, buffer, decoder, heq⟩ := addBlock_frame stream codec flushIsDelayed
          bytes.length (p.acceptBlock stream rd bytes)
        rw [heq]
        exact acceptBlock_readsFromStart h bytes
      · exact acceptBlock_readsFromStart h bytes
  · exact h

theorem ReadsFromStart.step {l : Label} (h : ReadsFromStart s.processor)
    (hstep : step stream codec s l = some t) : ReadsFromStart t.processor := by
  refine step_processor h (fun rd => ?_) hstep
  rw [turn_processor]
  exact readBlock_readsFromStart (beforeBlock_readsFromStart h) _ _

theorem look_flushFromTimestamp (conn : Conn) (p : Processor σ) :
    (look conn p).processor.flushFromTimestamp =
      if conn.ap2FlushRequested && conn.ap2FlushFromValid then conn.ap2FlushFromRtpTimestamp
      else p.flushFromTimestamp := by
  unfold look
  dsimp only
  split_ifs <;> rfl

/-- What a look does with a request that is not active yet. -/
theorem look_of_deferred {conn : Conn} {p : Processor σ}
    (hpending : conn.DeferredFlushPending p.seqNo) :
    (look conn p).flushIsDelayed = true ∧
      (look conn p).processor.flushRequested = false ∧
      (look conn p).processor.flushFromTimestamp = conn.ap2FlushFromRtpTimestamp := by
  obtain ⟨⟨hrequested, hvalid⟩, hactive⟩ := hpending
  have hdelayed : (conn.ap2FlushRequested && conn.ap2FlushFromValid) = true := by
    rw [hrequested, hvalid, Bool.and_self]
  refine ⟨hdelayed, ?_, (look_flushFromTimestamp conn p).trans (if_pos hdelayed)⟩
  unfold look
  rw [hactive]
  rfl

theorem supplyPlayer_flush_frame (stream : Stream) (rd : LoopReadings) (p : Processor σ) :
    (supplyPlayer stream rd p).1.flushRequested = p.flushRequested ∧
      (supplyPlayer stream rd p).1.flushFromTimestamp = p.flushFromTimestamp := by
  obtain ⟨_, _, _, _, _, heq⟩ := supplyPlayer_frame stream rd p
  rw [heq]
  exact ⟨rfl, rfl⟩

theorem beforeBlock_of_deferred (stream : Stream) (rd : LoopReadings)
    (hpending : s.conn.DeferredFlushPending s.processor.seqNo) :
    s.beforeBlock stream rd = (supplyPlayer stream rd (look s.conn s.processor).processor).1 ∧
      (s.beforeBlock stream rd).flushRequested = false ∧
      (s.beforeBlock stream rd).flushFromTimestamp = s.conn.ap2FlushFromRtpTimestamp := by
  obtain ⟨-, hflush, hfrom⟩ := look_of_deferred hpending
  obtain ⟨hkeptFlush, hkeptFrom⟩ :=
    supplyPlayer_flush_frame stream rd (look s.conn s.processor).processor
  have hbefore : s.beforeBlock stream rd =
      (supplyPlayer stream rd (look s.conn s.processor).processor).1 :=
    if_neg (hflush ▸ Bool.false_ne_true)
  rw [hbefore]
  exact ⟨rfl, hkeptFlush.trans hflush, hkeptFrom.trans hfrom⟩

theorem Roomy.supplied (h : Roomy stream s.processor) :
    Roomy stream (BufferedAudio.supplyPlayer stream rd (look s.conn s.processor).processor).1 :=
  Roomy.supplyPlayer (le_of_le_of_eq h (look_frame s.conn s.processor).2.2.symm)

theorem DecodesBeforeFlush.turn_eq (h : DecodesBeforeFlush stream codec rd s bytes L B) :
    (s.turn stream codec rd).processor =
      addBlock stream codec true bytes.length (s.withBlock stream rd bytes) := by
  obtain ⟨-, hflush, -⟩ := beforeBlock_of_deferred stream rd h.pending
  have hneeded : (s.beforeBlock stream rd).newBufferNeeded = true := by
    rcases h.decodes.1 with ⟨hmode, -⟩ | ⟨-, hneeded⟩
    · exact absurd (hflush.symm.trans hmode) Bool.false_ne_true
    · exact hneeded
  rw [turn_processor, (look_of_deferred h.pending).1]
  unfold readBlock
  rw [if_pos (Bool.or_eq_true_iff.mpr (Or.inr hneeded)), h.received]
  cases bytes with
  | nil => exact absurd rfl h.nonempty
  | cons byte bytes =>
      dsimp only
      rw [processBlock_eq_ite]
      exact if_pos h.decodes

theorem DecodesBeforeFlush.pcmBuffer_turn (h : DecodesBeforeFlush stream codec rd s bytes L B)
    (hroomy : Roomy stream s.processor) :
    (s.turn stream codec rd).processor.pcmBuffer =
      (s.withBlock stream rd bytes).pcmBuffer ++
        ((s.sampleBuffers stream codec rd bytes).map
          (truncateToFlush stream true (s.withBlock stream rd bytes))).flatten := by
  have hsize : Roomy stream (s.withBlock stream rd bytes) := by
    unfold System.withBlock
    rw [(beforeBlock_of_deferred stream rd h.pending).1]
    exact hroomy.supplied
  have hroom : (s.withBlock stream rd bytes).pcmBuffer.length +
      (s.sampleBuffers stream codec rd bytes).flatten.length ≤
        (s.withBlock stream rd bytes).pcmBufferSize := by
    refine le_trans ?_ hsize
    have hleftover := h.whole.leftover_lt
    have hblock := h.whole.block_le
    unfold Stream.initialPcmBufferSize
    rw [h.whole.leftover, h.whole.block, ← Nat.mul_add, Nat.mul_comm]
    exact Nat.mul_le_mul_right _ (by omega)
  rw [h.turn_eq]
  exact foldl_addSamples_pcmBuffer stream true _ _ hroom

/-- A turn that decodes a block cuts it at the flush frame exactly if the flush frame lies in
order. -/
theorem DecodesBeforeFlush.cutsAtFlush_iff (h : DecodesBeforeFlush stream codec rd s bytes L B)
    (hroomy : Roomy stream s.processor) (hstart : ReadsFromStart s.processor) :
    CutsAtFlush stream codec rd s bytes ↔
      CutInOrder stream (s.withBlock stream rd bytes) (s.sampleBuffers stream codec rd bytes) := by
  obtain ⟨-, hflush, hfrom⟩ := beforeBlock_of_deferred stream rd h.pending
  obtain ⟨size, buffer, decoder, hframe⟩ := addBlock_frame stream codec true
    bytes.length (s.withBlock stream rd bytes)
  have hpoint : (s.withBlock stream rd bytes).pcmBufferReadPoint = 0 := by
    refine acceptBlock_readsFromStart (beforeBlock_readsFromStart hstart) bytes ?_
    rcases h.decodes.1 with ⟨hmode, -⟩ | ⟨-, hneeded⟩
    · exact absurd (hflush.symm.trans hmode) Bool.false_ne_true
    · exact hneeded
  rw [← h.whole.cutRight_iff, ← h.pcmBuffer_turn hroomy]
  refine ⟨fun hcut => hcut.cut, fun hcut => ⟨hcut, hfrom, ?_⟩⟩
  rw [h.turn_eq, hframe]
  exact ⟨hpoint, rfl⟩

theorem DecodesBeforeFlush.length_of_cuts (h : DecodesBeforeFlush stream codec rd s bytes L B)
    (hcuts : CutsAtFlush stream codec rd s bytes)
    (hpos : 0 < (s.withBlock stream rd bytes).samplesRemaining) :
    (s.turn stream codec rd).processor.pcmBuffer.length = stream.inputBytesPerFrame *
      min (s.withBlock stream rd bytes).samplesRemaining.toNat (L + B) := by
  rw [hcuts.cut.audio, h.whole.audioBefore_eq hpos, List.length_take, h.whole.length_append,
    Nat.min_eq_left (Nat.mul_le_mul_left _ (Nat.min_le_right _ _))]

/-- In every run, every turn that decodes a block while a deferred flush is pending, with less than
352 frames left over in the pcm buffer and at most 1024 in the block, leaves exactly the audio
before the flush frame in the pcm buffer, exactly if the flush frame lies in order. -/
theorem deferred_flush_cut_iff (stream : Stream) (codec : Codec σ) (memory : Bytes) (c : σ)
    (conn : Conn) (labels : List Label) :
    Along (step stream codec) (CutsAtFlushAt stream codec) (.start stream memory c conn) labels ↔
      Along (step stream codec) (CutInOrderAt stream codec) (.start stream memory c conn)
        labels := by
  refine along_iff_of_invariant
    (I := fun s : System σ => Roomy stream s.processor ∧ ReadsFromStart s.processor)
    (fun s l t hs hstep => ⟨hs.1.step hstep, hs.2.step hstep⟩) ?_ ⟨le_rfl, fun _ => rfl⟩
  intro s l hs
  cases l with
  | flushBuffered items => exact Iff.rfl
  | setRate rate => exact Iff.rfl
  | turn rd =>
      exact forall₄_congr fun bytes L B h => h.cutsAtFlush_iff hs.1 hs.2

end Turns

def Codec.silence1024 : Codec Unit where
  decrypt := fun _ _ _ ciphertext => some ciphertext
  decode := fun c _ => (c, [List.replicate 4096 0])

def numberedBlock (number : BitVec 8) (timestamp : BitVec 16) : Bytes :=
  [0x80, 0, 0, number, 0, 0, timestamp.extractLsb' 8 8, timestamp.extractLsb' 0 8, 0, 0, 0, 0] ++
    [1, 2, 3, 4] ++ List.replicate 8 0

/-- A turn with a valid clock finds the block, if it needs one. -/
def LoopReadings.numbered (number : BitVec 8) (timestamp : BitVec 16) : LoopReadings where
  playerBufferOccupancy := 0
  havePtpTimingInformation := true
  bufferShouldBeTime := some 1000000000
  sendTimeNow := 0
  zeroFrames := []
  received := some (numberedBlock number timestamp)
  localShouldBeTime := none
  connectionTimeNow := 0
  blockTimeNow := 0

/-- When two packets have been taken of block 1 there are 320 frames left over. A flush from frame
100 of block 2 cuts the block at frame 420. -/
theorem deferred_flush_frame_left :
    ¬ ∀ (σ : Type) (stream : Stream) (codec : Codec σ) (memory : Bytes) (c : σ) (conn : Conn)
      (labels : List Label),
        Along (step stream codec) (CutsAtFlushAt stream codec) (.start stream memory c conn)
          labels := by
  intro h
  have hturn (s : System Unit) (rd : LoopReadings) (hs : s.processor.finished = false) :
      step .plain .silence1024 s (.turn rd) = some (s.turn .plain .silence1024 rd) := by
    rw [step, hs]
    rfl
  have hrun := h Unit .plain .silence1024 [] () { Conn.idle with ap2PlayEnabled := true }
    [.turn (.numbered 1 256), .flushBuffered ⟨some 2, some 1380, some 4, some 5000⟩,
      .turn (.numbered 2 1280), .turn (.numbered 2 1280), .turn (.numbered 2 1280)]
  have hpending := (hrun _ (hturn _ _ rfl)).2 _ rfl
  have htaken := (hpending.2 _ (hturn _ _ (by decide +kernel))).2 _ (hturn _ _ (by decide +kernel))
  have hlast := (htaken.2 _ (hturn _ _ (by decide +kernel))).1 (numberedBlock 2 1280) 320 1024
  have hlength := fun hdecodes => DecodesBeforeFlush.length_of_cuts hdecodes (hlast hdecodes)
  have hwrong := hlength
    { pending := by decide +kernel
      received := rfl
      nonempty := by decide
      decodes := by decide +kernel
      whole :=
        { bytes_pos := by decide
          bytes_le := by decide
          leftover := by decide +kernel
          block := by decide +kernel
          leftover_lt := by decide
          block_le := by decide } } (by decide +kernel)
  exact absurd hwrong (by decide +kernel)

end BufferedAudio

end ShairportSync
