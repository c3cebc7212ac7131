import ShairportSync.BufferedAudio.DeferredFlush

/-!
# The room in the pcm buffer

`pcm_buffer` is an array with room for 1024 + 352 frames. Sample buffers are copied in behind
`pcm_buffer_occupancy`, packets are taken out at `pcm_buffer_read_point`, and what is left is moved
down before more is read. Whether there is room is asked of `pcm_buffer_size`, which a sample
buffer that does not fit makes larger, while the array stays as it is.

`PcmBuffer` has these three variables, and `step` is what the code does to them. `Fits` is the
condition on a step under which what is copied stays inside the array, and `FitsAfter` says it of
the sample buffers before. A turn of the processor is a run of such steps.
-/

namespace ShairportSync

namespace BufferedAudio

open Player (RtpTime Bytes)
open Transition

/-- The sizes of `pcm_buffer`, in bytes. -/
structure PcmBuffer where
  /-- `pcm_buffer_size`, which is not always the size of the array. -/
  size : Int
  occupancy : Int
  readPoint : Int
deriving DecidableEq

inductive PcmLabel where
  /-- A sample buffer of `dst_bufsize` bytes, and `samples_remaining` if a flush is delayed. -/
  | frame (dstBufsize : Int) (samplesRemaining : Option (BitVec 32))
  /-- 352 frames for the player, or dropped. -/
  | extract
  | moveDown
  /-- The pcm buffer is emptied. -/
  | flush
deriving DecidableEq

namespace PcmBuffer

variable (stream : Stream)

def start : PcmBuffer where
  size := stream.initialPcmBufferSize
  occupancy := 0
  readPoint := 0

/-- `dst_bufsize`, after it has been cut to a delayed flush. -/
def bytesToCopy (dstBufsize : Int) (samplesRemaining : Option (BitVec 32)) : Int :=
  match samplesRemaining with
  | none => dstBufsize
  | some samplesRemaining =>
      -- a product of two C integers
      let bytesRemaining := (samplesRemaining * BitVec.ofNat 32 stream.inputBytesPerFrame).toInt
      if 0 < samplesRemaining.toInt ∧ bytesRemaining < dstBufsize then bytesRemaining
      else dstBufsize

/-- "make sure it's big enough first". -/
def addFrame (n : Int) (b : PcmBuffer) : PcmBuffer :=
  if b.size - b.occupancy < n then
    -- "fatal error! pcm buffer too small"
    { b with size := n + b.occupancy }
  else { b with occupancy := b.occupancy + n }

def HasPacket (b : PcmBuffer) : Prop :=
  (stream.packetSize : Int) ≤ b.occupancy - b.readPoint

instance (b : PcmBuffer) : Decidable (b.HasPacket stream) := inferInstanceAs (Decidable (_ ≤ _))

/-- "move the remaining frames down to the start of the buffer". -/
def moveDown (b : PcmBuffer) : PcmBuffer :=
  if b.readPoint ≠ 0 then
    { b with
      occupancy := if 0 < b.occupancy - b.readPoint then b.occupancy - b.readPoint else 0
      readPoint := 0 }
  else b

def step (b : PcmBuffer) : PcmLabel → Option PcmBuffer
  | .frame dstBufsize samplesRemaining =>
      some (b.addFrame (bytesToCopy stream dstBufsize samplesRemaining))
  | .extract =>
      if b.HasPacket stream then some { b with readPoint := b.readPoint + stream.packetSize }
      else none
  | .moveDown => if b.HasPacket stream then none else some b.moveDown
  | .flush => some { b with occupancy := 0, readPoint := 0 }

/-! ## Copies inside the array -/

/-- What is in use lies inside the array, and the read point inside what is in use. -/
structure InBounds (b : PcmBuffer) : Prop where
  readPoint_nonneg : 0 ≤ b.readPoint
  readPoint_le : b.readPoint ≤ b.occupancy
  occupancy_le : b.occupancy ≤ stream.initialPcmBufferSize

def CopiesInside (b : PcmBuffer) : PcmLabel → Prop
  | .frame dstBufsize samplesRemaining =>
      let n := bytesToCopy stream dstBufsize samplesRemaining
      n ≤ b.size - b.occupancy → 0 ≤ n ∧ b.occupancy + n ≤ stream.initialPcmBufferSize
  | _ => True

/-- The number of bytes is not negative, and the end of the sample buffer is not both beyond the
array and within the end of an earlier one that did not fit. -/
def Fits (b : PcmBuffer) : PcmLabel → Prop
  | .frame dstBufsize samplesRemaining =>
      let n := bytesToCopy stream dstBufsize samplesRemaining
      0 ≤ n ∧ ¬ (stream.initialPcmBufferSize < b.occupancy + n ∧ b.occupancy + n ≤ b.size)
  | _ => True

instance (b : PcmBuffer) : DecidablePred (b.Fits stream)
  | .frame _ _ => inferInstanceAs (Decidable (_ ∧ _))
  | .extract => isTrue trivial
  | .moveDown => isTrue trivial
  | .flush => isTrue trivial

/-- The sizes in bounds, and `pcm_buffer_size` not less than the size of the array. -/
structure Inv (b : PcmBuffer) : Prop extends b.InBounds stream where
  size_le : (stream.initialPcmBufferSize : Int) ≤ b.size

variable {stream} {b t : PcmBuffer} {l : PcmLabel}

theorem inv_start : (start stream).Inv stream where
  readPoint_nonneg := le_rfl
  readPoint_le := le_rfl
  occupancy_le := Int.natCast_nonneg _
  size_le := le_rfl

theorem addFrame_cases (n : Int) (b : PcmBuffer) :
    b.size < b.occupancy + n ∧ b.addFrame n = { b with size := n + b.occupancy } ∨
      b.occupancy + n ≤ b.size ∧ b.addFrame n = { b with occupancy := b.occupancy + n } := by
  by_cases hless : b.size - b.occupancy < n
  · exact Or.inl ⟨by omega, if_pos hless⟩
  · exact Or.inr ⟨by omega, if_neg hless⟩

theorem moveDown_of_inBounds (hb : b.InBounds stream) :
    b.moveDown = { b with occupancy := b.occupancy - b.readPoint, readPoint := 0 } := by
  have hle := hb.readPoint_le
  unfold moveDown
  by_cases hzero : b.readPoint = 0
  · rw [if_neg (not_not.mpr hzero), hzero, Int.sub_zero, ← hzero]
  · rw [if_pos hzero]
    congr 1
    split_ifs <;> omega

theorem copiesInside_iff (hb : b.Inv stream) : b.CopiesInside stream l ↔ b.Fits stream l := by
  obtain ⟨⟨-, -, hocc⟩, hsize⟩ := hb
  cases l with
  | frame dstBufsize samplesRemaining =>
      unfold CopiesInside Fits
      dsimp only
      constructor
      · intro hcopies
        refine ⟨?_, fun hend => ?_⟩
        · by_contra hneg
          exact hneg (hcopies (by omega)).1
        · have hinside := (hcopies (by omega)).2
          omega
      · rintro ⟨hnonneg, hend⟩ hroom
        refine ⟨hnonneg, ?_⟩
        by_contra hless
        exact hend ⟨by omega, by omega⟩
  | extract => exact Iff.rfl
  | moveDown => exact Iff.rfl
  | flush => exact Iff.rfl

theorem Inv.step (hb : b.Inv stream) (hfits : b.Fits stream l)
    (hstep : PcmBuffer.step stream b l = some t) : t.Inv stream := by
  obtain ⟨hbounds, hsize⟩ := hb
  have hpoint := hbounds.readPoint_nonneg
  have hread := hbounds.readPoint_le
  have hocc := hbounds.occupancy_le
  cases l with
  | frame dstBufsize samplesRemaining =>
      obtain rfl := Option.some.inj hstep
      obtain ⟨hnonneg, hend⟩ := hfits
      rcases addFrame_cases (bytesToCopy stream dstBufsize samplesRemaining) b with
        ⟨hless, heq⟩ | ⟨hroom, heq⟩
      · rw [heq]
        exact ⟨⟨hpoint, hread, hocc⟩, by dsimp only; omega⟩
      · rw [heq]
        refine ⟨⟨hpoint, by dsimp only; omega, ?_⟩, hsize⟩
        by_contra hbeyond
        exact hend ⟨not_le.mp hbeyond, hroom⟩
  | extract =>
      unfold PcmBuffer.step at hstep
      dsimp only at hstep
      split_ifs at hstep with hpacket
      obtain rfl := Option.some.inj hstep
      unfold HasPacket at hpacket
      exact ⟨⟨by dsimp only; omega, by dsimp only; omega, hocc⟩, hsize⟩
  | moveDown =>
      unfold PcmBuffer.step at hstep
      dsimp only at hstep
      split_ifs at hstep
      obtain rfl := Option.some.inj hstep
      rw [moveDown_of_inBounds hbounds]
      exact ⟨⟨le_rfl, by dsimp only; omega, by dsimp only; omega⟩, hsize⟩
  | flush =>
      obtain rfl := Option.some.inj hstep
      exact ⟨⟨le_rfl, le_rfl, Int.natCast_nonneg _⟩, hsize⟩

theorem inBounds_iff_fits (stream : Stream) (labels : List PcmLabel) :
    Along (step stream) (CopiesInside stream) (start stream) labels ∧
        Throughout (step stream) (InBounds stream) (start stream) labels ↔
      Along (step stream) (Fits stream) (start stream) labels := by
  have hcopies : Along (step stream) (Fits stream) (start stream) labels ↔
      Along (step stream) (CopiesInside stream) (start stream) labels :=
    along_iff_of_step (I := Inv stream) (fun b l t hb hfits hstep => hb.step hfits hstep)
      (fun b l hb => (copiesInside_iff hb).symm) inv_start
  constructor
  · exact fun h => hcopies.mpr h.1
  · intro hfits
    refine ⟨hcopies.mp hfits, ?_⟩
    exact (throughout_of_step (I := Inv stream)
      (fun b l t hb hfits hstep => hb.step hfits hstep) inv_start hfits).mono
        fun b hb => hb.toInBounds

/-- Where the sample buffers have ended, or would have if they had fitted -/
def recordEnd (stream : Stream) (ends : List Int) (b : PcmBuffer) : PcmLabel → List Int
  | .frame dstBufsize samplesRemaining =>
      ends ++ [b.occupancy + bytesToCopy stream dstBufsize samplesRemaining]
  | _ => ends

/-- The number of bytes is not negative, and a sample buffer whose end is beyond the array has its
end beyond those of all sample buffers before it. -/
def FitsAfter (stream : Stream) (s : PcmBuffer × List Int) : PcmLabel → Prop
  | .frame dstBufsize samplesRemaining =>
      let n := bytesToCopy stream dstBufsize samplesRemaining
      0 ≤ n ∧ (stream.initialPcmBufferSize < s.1.occupancy + n →
        ∀ earlier ∈ s.2, earlier < s.1.occupancy + n)
  | _ => True

/-- `pcm_buffer_size` is the size of the array or the end of a sample buffer that did not fit, and
no sample buffer has had its end beyond it. -/
structure Sized (stream : Stream) (s : PcmBuffer × List Int) : Prop where
  le_size : ∀ earlier ∈ s.2, earlier ≤ s.1.size
  size_mem : s.1.size = stream.initialPcmBufferSize ∨ s.1.size ∈ s.2

theorem Sized.step {s s' : PcmBuffer × List Int} (hs : Sized stream s)
    (hstep : recorded (step stream) (recordEnd stream) s l = some s') : Sized stream s' := by
  obtain ⟨b, hb, rfl⟩ := Option.map_eq_some_iff.mp hstep
  cases l with
  | frame dstBufsize samplesRemaining =>
      obtain rfl := Option.some.inj hb
      rcases addFrame_cases (bytesToCopy stream dstBufsize samplesRemaining) s.1 with
        ⟨hless, heq⟩ | ⟨hroom, heq⟩
      · rw [heq, recordEnd, Int.add_comm (bytesToCopy stream dstBufsize samplesRemaining)]
        refine ⟨fun earlier hmem => ?_, .inr (List.mem_append_right _ List.mem_cons_self)⟩
        rcases List.mem_append.mp hmem with hmem | hmem
        · exact (hs.le_size earlier hmem).trans hless.le
        · exact (List.mem_singleton.mp hmem).le
      · rw [heq, recordEnd]
        refine ⟨fun earlier hmem => ?_, hs.size_mem.imp_right (List.mem_append_left _)⟩
        rcases List.mem_append.mp hmem with hmem | hmem
        · exact hs.le_size earlier hmem
        · exact (List.mem_singleton.mp hmem).le.trans hroom
  | extract =>
      unfold PcmBuffer.step at hb
      dsimp only at hb
      split_ifs at hb
      obtain rfl := Option.some.inj hb
      exact ⟨hs.le_size, hs.size_mem⟩
  | moveDown =>
      unfold PcmBuffer.step PcmBuffer.moveDown at hb
      dsimp only at hb
      split_ifs at hb <;> obtain rfl := Option.some.inj hb <;> exact ⟨hs.le_size, hs.size_mem⟩
  | flush =>
      obtain rfl := Option.some.inj hb
      exact ⟨hs.le_size, hs.size_mem⟩

theorem Sized.fits_iff {s : PcmBuffer × List Int} (hs : Sized stream s) :
    s.1.Fits stream l ↔ FitsAfter stream s l := by
  cases l with
  | frame dstBufsize samplesRemaining =>
      rw [Fits, FitsAfter]
      refine and_congr_right fun _ => ?_
      rw [not_and, not_le]
      refine imp_congr_right fun hbeyond => ⟨fun hsize earlier hmem => ?_, fun hends => ?_⟩
      · exact (hs.le_size earlier hmem).trans_lt hsize
      · rcases hs.size_mem with hsize | hsize
        · exact hsize ▸ hbeyond
        · exact hends _ hsize
  | extract => exact Iff.rfl
  | moveDown => exact Iff.rfl
  | flush => exact Iff.rfl

/-- In every run, whatever is copied into the pcm buffer lies inside the array, and so does what is
in use, with the read point in it, exactly if every sample buffer fits after those before it. -/
theorem pcm_buffer_in_bounds_iff (stream : Stream) (labels : List PcmLabel) :
    Along (step stream) (CopiesInside stream) (start stream) labels ∧
        Throughout (step stream) (InBounds stream) (start stream) labels ↔
      Along (recorded (step stream) (recordEnd stream)) (FitsAfter stream) (start stream, [])
        labels := by
  have hstart : Sized stream (start stream, []) :=
    ⟨fun earlier hmem => absurd hmem List.not_mem_nil, .inl rfl⟩
  have hrecorded : Along (recorded (step stream) (recordEnd stream)) (fun s => s.1.Fits stream)
      (start stream, []) labels ↔ Along (step stream) (Fits stream) (start stream) labels :=
    along_recorded_iff
  rw [inBounds_iff_fits, ← hrecorded]
  exact along_iff_of_invariant (fun s l t hs hstep => hs.step hstep) (fun s l hs => hs.fits_iff)
    hstart

/-- Three sample buffers of 1024 frames: the second one does not fit, and the third one, which
does not fit either, is copied. -/
theorem pcm_buffer_out_of_bounds :
    ¬ ∀ (stream : Stream) (labels : List PcmLabel),
        Along (step stream) (CopiesInside stream) (start stream) labels ∧
          Throughout (step stream) (InBounds stream) (start stream) labels := by
  intro h
  have hrun := ((((h .plain [.frame 4096 none, .frame 4096 none, .frame 4096 none]).2.2 _ rfl).2
    _ rfl).2 _ rfl).head
  exact absurd hrun.occupancy_le (by decide)

def Quiet (stream : Stream) (b t : PcmBuffer) : Prop :=
  ∃ labels, (∀ l ∈ labels, ∀ dstBufsize samplesRemaining, l ≠ .frame dstBufsize samplesRemaining) ∧
    run (step stream) b labels = some t

theorem Quiet.refl (stream : Stream) (b : PcmBuffer) : Quiet stream b b :=
  ⟨[], fun _ hmem => absurd hmem List.not_mem_nil, rfl⟩

theorem Quiet.trans {u : PcmBuffer} (h : Quiet stream b t) (h' : Quiet stream t u) :
    Quiet stream b u := by
  obtain ⟨ls, hls, hrun⟩ := h
  obtain ⟨ms, hms, hrun'⟩ := h'
  refine ⟨ls ++ ms, fun l hmem => (List.mem_append.mp hmem).elim (hls l) (hms l), ?_⟩
  rw [run_append, hrun]
  exact hrun'

theorem Quiet.of_step
    (hl : ∀ dstBufsize samplesRemaining, l ≠ .frame dstBufsize samplesRemaining)
    (h : step stream b l = some t) : Quiet stream b t :=
  ⟨[l], fun _ hmem => List.mem_singleton.mp hmem ▸ hl, run_cons_eq_some_iff.mpr ⟨t, h, rfl⟩⟩

theorem quiet_flush (stream : Stream) (b : PcmBuffer) :
    Quiet stream b { b with occupancy := 0, readPoint := 0 } :=
  Quiet.of_step (l := .flush) (fun _ _ => nofun) rfl

/-- In runs whose sample buffers all fit, the sizes stay in bounds. -/
theorem inv_of_run {labels : List PcmLabel} (hb : b.Inv stream)
    (hfits : Along (step stream) (Fits stream) b labels)
    (hrun : run (step stream) b labels = some t) : t.Inv stream :=
  (throughout_of_step (I := Inv stream) (fun _ _ _ hb hfits hstep => hb.step hfits hstep) hb
    hfits).last hrun

theorem Inv.quiet (hb : b.Inv stream) (h : Quiet stream b t) : t.Inv stream := by
  obtain ⟨labels, hlabels, hrun⟩ := h
  refine inv_of_run hb ?_ hrun
  clear hrun hb
  induction labels generalizing b with
  | nil => trivial
  | cons l labels ih =>
      intro u _
      refine ⟨?_, ih fun l' hmem => hlabels l' (List.mem_cons_of_mem l hmem)⟩
      cases l with
      | frame dstBufsize samplesRemaining =>
          exact absurd rfl (hlabels _ List.mem_cons_self dstBufsize samplesRemaining)
      | extract => trivial
      | moveDown => trivial
      | flush => trivial

end PcmBuffer

/-! ## The processor's pcm buffer -/

section Processor

variable {σ : Type}

def Processor.sizes (p : Processor σ) : PcmBuffer where
  size := p.pcmBufferSize
  occupancy := p.pcmBuffer.length
  readPoint := p.pcmBufferReadPoint

/-- `samples_remaining`, if a flush is delayed. -/
def Processor.samplesToFlush (flushIsDelayed : Bool) (p : Processor σ) : Option (BitVec 32) :=
  if flushIsDelayed then some (p.flushFromTimestamp - p.pcmBufferReadPointRtptime) else none

def Processor.frames (stream : Stream) (codec : Codec σ) (flushIsDelayed : Bool) (nread : ℕ)
    (p : Processor σ) : List PcmLabel :=
  (decodeBlock stream codec p.packet nread p.codec).2.map fun samples =>
    .frame samples.length (p.samplesToFlush flushIsDelayed)

def FramesFit (stream : Stream) (codec : Codec σ) (s : System σ) : Label → Prop
  | .turn rd => ∀ bytes ∈ rd.received,
      (s.withBlock stream rd bytes).DecodesBlock stream s.conn.ap2FlushUntilSequenceNumber rd →
        Along (PcmBuffer.step stream) (PcmBuffer.Fits stream) (s.withBlock stream rd bytes).sizes
          ((s.withBlock stream rd bytes).frames stream codec
            (look s.conn s.processor).flushIsDelayed bytes.length)
  | _ => True

/-- `generate_zero_frames` writes over no more than a packet. -/
def ZeroFramesFit (stream : Stream) : Label → Prop
  | .turn rd => rd.zeroFrames.length ≤ stream.packetSize
  | _ => True

variable {stream : Stream} {codec : Codec σ} {rd : LoopReadings} {s : System σ}
  {p : Processor σ}

open PcmBuffer (Quiet quiet_flush)

theorem quiet_look (stream : Stream) (conn : Conn) (p : Processor σ) :
    Quiet stream p.sizes (look conn p).processor.sizes := by
  have hcases : (look conn p).processor.sizes = p.sizes ∨
      (look conn p).processor.sizes = { p.sizes with occupancy := 0, readPoint := 0 } := by
    unfold look
    dsimp only
    split_ifs <;> first | exact Or.inr rfl | exact Or.inl rfl
  rcases hcases with heq | heq
  · rw [heq]
    exact Quiet.refl stream _
  · rw [heq]
    exact quiet_flush stream _

theorem sendPacket_sizes (hzero : rd.zeroFrames.length ≤ stream.packetSize)
    (hpacket : p.pcmBufferReadPoint + stream.packetSize ≤ p.pcmBuffer.length) :
    (p.sendPacket stream rd).1.sizes = p.sizes := by
  unfold Processor.sendPacket Processor.sizes
  dsimp only
  congr 2
  split_ifs
  · rw [List.length_append, List.length_append, List.length_take, List.length_drop]
    omega
  · rfl

theorem quiet_offerPacket (hzero : rd.zeroFrames.length ≤ stream.packetSize)
    (hpacket : p.pcmBufferReadPoint + stream.packetSize ≤ p.pcmBuffer.length) :
    Quiet stream p.sizes (p.offerPacket stream rd).1.sizes := by
  have hextract : PcmBuffer.step stream p.sizes .extract =
      some { p.sizes with readPoint := p.sizes.readPoint + stream.packetSize } := by
    refine if_pos ?_
    unfold PcmBuffer.HasPacket Processor.sizes
    dsimp only
    omega
  unfold Processor.offerPacket
  split_ifs
  · dsimp only
    split
    · exact Quiet.refl stream _
    · refine Quiet.of_step (l := .extract) (fun _ _ => nofun) (hextract.trans ?_)
      dsimp only
      split_ifs
      · rw [← sendPacket_sizes hzero hpacket]
        rfl
      · rfl
  · exact Quiet.refl stream _

theorem quiet_supplyPlayer (hzero : rd.zeroFrames.length ≤ stream.packetSize)
    (hp : p.sizes.InBounds stream) :
    Quiet stream p.sizes (supplyPlayer stream rd p).1.sizes := by
  unfold supplyPlayer
  split_ifs with hfull hpacket
  · exact Quiet.refl stream _
  · exact quiet_offerPacket (p := { p with newBufferNeeded := false }) hzero hpacket
  · refine Quiet.of_step (l := .moveDown) (fun _ _ => nofun) ((if_neg ?_).trans ?_)
    · unfold PcmBuffer.HasPacket Processor.sizes
      dsimp only
      omega
    · have hle : p.pcmBufferReadPoint ≤ p.pcmBuffer.length := Int.ofNat_le.mp hp.readPoint_le
      rw [PcmBuffer.moveDown_of_inBounds hp]
      unfold Processor.moveDown Processor.sizes
      dsimp only
      rw [List.length_drop, Nat.cast_sub hle]
      rfl

theorem quiet_acceptBlock (stream : Stream) (rd : LoopReadings) (bytes : Bytes)
    (p : Processor σ) : Quiet stream p.sizes (p.acceptBlock stream rd bytes).sizes := by
  by_cases hempty : (p.acceptBlock stream rd bytes).pcmBuffer.length = 0
  · have heq : (p.acceptBlock stream rd bytes).sizes =
        { p.sizes with occupancy := 0, readPoint := 0 } := by
      unfold Processor.sizes
      rw [hempty, show (p.acceptBlock stream rd bytes).pcmBufferReadPoint = 0 from if_pos hempty]
      rfl
    rw [heq]
    exact quiet_flush stream _
  · have hsame : (p.acceptBlock stream rd bytes).pcmBuffer = p.pcmBuffer := by
      unfold Processor.acceptBlock at hempty ⊢
      dsimp only at hempty ⊢
      split_ifs at hempty ⊢
      · exact absurd rfl hempty
      · rfl
    have heq : (p.acceptBlock stream rd bytes).sizes = p.sizes := by
      unfold Processor.sizes
      rw [hsame, show (p.acceptBlock stream rd bytes).pcmBufferReadPoint = p.pcmBufferReadPoint
        from if_neg hempty]
      rfl
    rw [heq]
    exact Quiet.refl stream _

/-- The length of a sample buffer that has been cut, unless the product is negative. -/
theorem length_truncateToFlush (flushIsDelayed : Bool) (samples : Bytes)
    (hnonneg : 0 ≤ PcmBuffer.bytesToCopy stream samples.length (p.samplesToFlush flushIsDelayed)) :
    ((truncateToFlush stream flushIsDelayed p samples).length : Int) =
      PcmBuffer.bytesToCopy stream samples.length (p.samplesToFlush flushIsDelayed) := by
  cases flushIsDelayed with
  | false => rw [truncateToFlush_of_not_delayed]; rfl
  | true =>
      unfold PcmBuffer.bytesToCopy Processor.samplesToFlush at hnonneg ⊢
      unfold truncateToFlush
      rw [if_pos rfl] at hnonneg ⊢
      dsimp only at hnonneg ⊢
      split_ifs at hnonneg ⊢ with hcut hkeep hkeep
      · rw [List.length_take]
        omega
      · exact absurd hcut.2 hkeep
      · exact absurd ⟨rfl, hkeep⟩ hcut
      · rfl

theorem addSamples_sizes (flushIsDelayed : Bool) (samples : Bytes)
    (hnonneg : 0 ≤ PcmBuffer.bytesToCopy stream samples.length (p.samplesToFlush flushIsDelayed)) :
    (addSamples stream flushIsDelayed p samples).sizes = p.sizes.addFrame
      (PcmBuffer.bytesToCopy stream samples.length (p.samplesToFlush flushIsDelayed)) := by
  rw [← length_truncateToFlush flushIsDelayed samples hnonneg]
  unfold addSamples PcmBuffer.addFrame Processor.sizes
  dsimp only
  by_cases hless : p.pcmBufferSize <
      p.pcmBuffer.length + (truncateToFlush stream flushIsDelayed p samples).length
  · rw [if_pos hless, if_pos (by omega)]
    rfl
  · rw [if_neg hless, if_neg (by omega)]
    dsimp only
    rw [List.length_append]
    rfl

/-- Sample buffers that fit are added one after the other. -/
theorem foldl_addSamples_sizes (flushIsDelayed : Bool) (chunks : List Bytes) (p : Processor σ)
    (hfits : Along (PcmBuffer.step stream) (PcmBuffer.Fits stream) p.sizes
      (chunks.map fun samples => .frame samples.length (p.samplesToFlush flushIsDelayed))) :
    run (PcmBuffer.step stream) p.sizes
        (chunks.map fun samples => .frame samples.length (p.samplesToFlush flushIsDelayed)) =
      some (chunks.foldl (addSamples stream flushIsDelayed) p).sizes := by
  induction chunks generalizing p with
  | nil => rfl
  | cons samples chunks ih =>
      obtain ⟨hfit, hrest⟩ := hfits _ rfl
      rw [← addSamples_sizes flushIsDelayed samples hfit.1] at hrest
      -- how many samples there are to the flush is not changed by what is added
      have hsame : (addSamples stream flushIsDelayed p samples).samplesToFlush flushIsDelayed =
          p.samplesToFlush flushIsDelayed := by
        obtain ⟨size, buffer, -, hframe⟩ :=
          foldl_addSamples_frame stream flushIsDelayed [samples] p
        rw [List.foldl_cons, List.foldl_nil] at hframe
        rw [hframe]
        rfl
      rw [List.map_cons, List.foldl_cons]
      refine run_cons_eq_some_iff.mpr ⟨_, rfl, ?_⟩
      rw [← addSamples_sizes flushIsDelayed samples hfit.1, ← hsame]
      exact ih _ (hsame ▸ hrest)

theorem addBlock_sizes (flushIsDelayed : Bool) (nread : ℕ)
    (hfits : Along (PcmBuffer.step stream) (PcmBuffer.Fits stream) p.sizes
      (p.frames stream codec flushIsDelayed nread)) :
    run (PcmBuffer.step stream) p.sizes (p.frames stream codec flushIsDelayed nread) =
      some (addBlock stream codec flushIsDelayed nread p).sizes :=
  foldl_addSamples_sizes flushIsDelayed _
    { p with codec := (decodeBlock stream codec p.packet nread p.codec).1 } hfits

theorem quiet_beforeBlock (hzero : rd.zeroFrames.length ≤ stream.packetSize)
    (hs : s.processor.sizes.Inv stream) :
    Quiet stream s.processor.sizes (s.beforeBlock stream rd).sizes := by
  have hlook := quiet_look stream s.conn s.processor
  unfold System.beforeBlock
  dsimp only
  split_ifs
  · exact hlook
  · exact hlook.trans (quiet_supplyPlayer hzero (hs.quiet hlook).toInBounds)

theorem inv_turn (hzero : rd.zeroFrames.length ≤ stream.packetSize)
    (hs : s.processor.sizes.Inv stream) (hfits : FramesFit stream codec s (.turn rd)) :
    (s.turn stream codec rd).processor.sizes.Inv stream := by
  have hbefore := hs.quiet (quiet_beforeBlock hzero hs)
  rw [turn_processor]
  unfold readBlock
  split_ifs
  · split
    · exact hbefore
    · exact hbefore
    · rename_i bytes _ hreceived
      have haccept := hbefore.quiet (quiet_acceptBlock stream rd bytes (s.beforeBlock stream rd))
      rw [processBlock_eq_ite]
      split_ifs with hdecodes
      · have hfit := hfits bytes hreceived hdecodes
        exact PcmBuffer.inv_of_run haccept hfit (addBlock_sizes _ _ hfit)
      · exact haccept
  · exact hbefore

/-- In every run of the processor whose sample buffers all fit, what is in use of the pcm buffer
stays inside the array. -/
theorem pcmBuffer_throughout_inBounds (stream : Stream) (codec : Codec σ) (memory : Bytes) (c : σ)
    (conn : Conn) (labels : List Label)
    (hfits : Along (step stream codec)
      (fun s l => FramesFit stream codec s l ∧ ZeroFramesFit stream l)
      (.start stream memory c conn) labels) :
    Throughout (step stream codec) (fun s => s.processor.sizes.InBounds stream)
      (.start stream memory c conn) labels := by
  refine (throughout_of_step (I := fun s : System σ => s.processor.sizes.Inv stream)
    ?_ PcmBuffer.inv_start hfits).mono fun s hs => hs.toInBounds
  rintro s l t hs ⟨hframes, hzero⟩ hstep
  cases l with
  | flushBuffered items =>
      obtain rfl := Option.some.inj hstep
      exact hs
  | setRate rate =>
      obtain rfl := Option.some.inj hstep
      exact hs
  | turn rd =>
      unfold step at hstep
      dsimp only at hstep
      split_ifs at hstep
      obtain rfl := Option.some.inj hstep
      exact inv_turn hzero hs hframes

end Processor

end BufferedAudio

end ShairportSync
