import ShairportSync.BufferedAudio.Processor
import ShairportSync.Transition.Run
import Mathlib.Tactic.MkIffOfInductiveProp

/-!
# The window of an immediate flush

An immediate request to flush until a block puts the processor into flush mode, in which
it reads blocks and drops them, until it has read a block at or after that one. Block
numbers are 24 bits wide and go round, so "at or after" is a matter of their signed
24-bit difference. The source compares the numbers as 32-bit integers instead, and
decodes the block that ends the flush only if it is the very one that was named.

`FlushWindow` is what a turn of the loop with a pending immediate request should do, and
`FlushCondition` is exactly when it does.
-/

namespace ShairportSync

namespace BufferedAudio

open Player (RtpTime Nanoseconds Bytes PutArgs)
open Transition

variable {σ : Type}

/-! ## The processor and its requests -/

structure System (σ : Type) where
  conn : Conn
  processor : Processor σ

inductive Label where
  /-- A FLUSHBUFFERED request. -/
  | flushBuffered (items : FlushItems)
  /-- A SETRATEANCHORTIME request with a rate. -/
  | setRate (rate : BitVec 64)
  /-- A turn of the processor's loop. -/
  | turn (rd : LoopReadings)

def System.turn (stream : Stream) (codec : Codec σ) (rd : LoopReadings) (s : System σ) :
    System σ :=
  let turned := BufferedAudio.turn stream codec rd s.conn s.processor
  { conn := turned.1, processor := turned.2.1 }

def step (stream : Stream) (codec : Codec σ) (s : System σ) : Label → Option (System σ)
  | .flushBuffered items => some { s with conn := handleFlushbuffered items s.conn }
  | .setRate rate => some { s with conn := setRate rate s.conn }
  | .turn rd => if s.processor.finished then none else some (s.turn stream codec rd)

def Processor.numberOf (p : Processor σ) (bytes : Bytes) : BitVec 32 :=
  blockSeqNo (overwrite bytes p.packet)

def Processor.audioOf (stream : Stream) (codec : Codec σ) (p : Processor σ) (bytes : Bytes) :
    Bytes :=
  (decodeBlock stream codec (overwrite bytes p.packet) bytes.length p.codec).2.flatten

/-- The block `n` is at or after the block `flushUntilSeq`, modulo 2^24. -/
def AtOrAfter (flushUntilSeq n : BitVec 32) : Prop :=
  0 ≤ (n.setWidth 24 - flushUntilSeq.setWidth 24).toInt

instance (flushUntilSeq n : BitVec 32) : Decidable (AtOrAfter flushUntilSeq n) :=
  inferInstanceAs (Decidable (_ ≤ _))

/-- The last block that was read is at or after the one to flush until. -/
def System.Reached (s : System σ) : Prop :=
  s.processor.blocksRead ≠ 0 ∧
    AtOrAfter s.conn.ap2FlushUntilSequenceNumber s.processor.seqNo

instance (s : System σ) : Decidable s.Reached := inferInstanceAs (Decidable (_ ∧ _))

def System.ImmediateFlushPending (s : System σ) : Prop :=
  s.conn.ap2FlushRequested = true ∧ s.conn.ap2FlushFromValid = false

instance (s : System σ) : Decidable s.ImmediateFlushPending :=
  inferInstanceAs (Decidable (_ ∧ _))

section Window

variable (stream : Stream) (codec : Codec σ) (s : System σ) (rd : LoopReadings)

/-- What a turn of the loop with a pending immediate request should do. -/
structure FlushWindow : Prop where
  /-- It is in flush mode until the block to flush until, or one after it, has been read. -/
  mode : (look s.conn s.processor).processor.flushRequested = true ↔ ¬ s.Reached
  /-- Until then the request stands, and then it is done with. -/
  request : (look s.conn s.processor).conn.ap2FlushRequested = true ↔ ¬ s.Reached
  /-- In flush mode nothing is given to the player. -/
  silent : ¬ s.Reached →
    ∀ a, Output.playerPutPacket a ∉ (turn stream codec rd s.conn s.processor).2.2
  /-- The block that ends the flush is decoded into the empty pcm buffer. -/
  decoded : ¬ s.Reached → ∀ bytes ∈ rd.received, bytes ≠ [] →
    AtOrAfter s.conn.ap2FlushUntilSequenceNumber (s.processor.numberOf bytes) →
      (s.turn stream codec rd).processor.pcmBuffer = s.processor.audioOf stream codec bytes ∧
        (s.turn stream codec rd).processor.pcmBufferReadPoint = 0 ∧
        (s.turn stream codec rd).processor.pcmBufferReadPointRtptime =
          blockTimestamp (overwrite bytes s.processor.packet)
  /-- Leaving flush mode keeps the pcm buffer, unless play is stopped at that moment. -/
  kept : s.Reached → ¬ (s.processor.playEnabled = true ∧ s.conn.ap2PlayEnabled = false) →
    (look s.conn s.processor).processor.pcmBuffer = s.processor.pcmBuffer ∧
      (look s.conn s.processor).processor.pcmBufferReadPoint = s.processor.pcmBufferReadPoint

/-- The number of the last block stands to the one to flush until in the order of the integers
as it does modulo 2^24, and the first block at or after it is that very block, and not too
soon after the connection (or nothing can be decoded from it). -/
@[mk_iff]
structure FlushCondition : Prop where
  ordered : s.processor.blocksRead ≠ 0 →
    (s.conn.ap2FlushUntilSequenceNumber ≤ s.processor.seqNo ↔
      AtOrAfter s.conn.ap2FlushUntilSequenceNumber s.processor.seqNo)
  exact : ¬ s.Reached → ∀ bytes ∈ rd.received, bytes ≠ [] →
    AtOrAfter s.conn.ap2FlushUntilSequenceNumber (s.processor.numberOf bytes) →
      s.processor.numberOf bytes = s.conn.ap2FlushUntilSequenceNumber ∧
          tooSoonAfterConnection stream rd = false ∨
        s.processor.audioOf stream codec bytes = []

instance : Decidable (FlushCondition stream codec s rd) :=
  decidable_of_iff' _ (flushCondition_iff stream codec s rd)

end Window

/-! ## The look -/

section Look

variable (conn : Conn) (p : Processor σ)

theorem look_frame :
    (look conn p).processor.packet = p.packet ∧ (look conn p).processor.codec = p.codec ∧
      (look conn p).processor.pcmBufferSize = p.pcmBufferSize := by
  unfold look
  dsimp only
  refine ⟨?_, ?_, ?_⟩ <;> split_ifs <;> rfl

variable {conn} {p}

theorem flushUntilReached_eq_true_iff (conn : Conn) (p : Processor σ) :
    conn.flushUntilReached p.blocksRead p.seqNo = true ↔
      p.blocksRead ≠ 0 ∧ conn.ap2FlushUntilSequenceNumber ≤ p.seqNo := by
  simp [Conn.flushUntilReached]

/-- With a pending immediate request the processor is in flush mode, unless it finds that the
block to flush until has been reached. -/
theorem look_of_immediate (hrequested : conn.ap2FlushRequested = true)
    (hnow : conn.ap2FlushFromValid = false) :
    (look conn p).processor.flushRequested =
        !conn.flushUntilReached p.blocksRead p.seqNo ∧
      (look conn p).conn.ap2FlushRequested =
        !conn.flushUntilReached p.blocksRead p.seqNo ∧
      (look conn p).flushIsDelayed = false := by
  have hactive : conn.flushRequestActive p.seqNo = true := by
    rw [Conn.flushRequestActive, hrequested, hnow]
    rfl
  unfold look
  dsimp only
  rw [hactive, hrequested, hnow]
  refine ⟨?_, ?_, rfl⟩
  · split_ifs <;> simp [Processor.startFlush]
  · simp

/-- A look that does not start a flush and finds play as it was leaves the pcm buffer. -/
theorem look_pcmBuffer_of_reached (hrequested : conn.ap2FlushRequested = true)
    (hnow : conn.ap2FlushFromValid = false)
    (hreached : conn.flushUntilReached p.blocksRead p.seqNo = true)
    (hplay : ¬ (p.playEnabled = true ∧ conn.ap2PlayEnabled = false)) :
    (look conn p).processor.pcmBuffer = p.pcmBuffer ∧
      (look conn p).processor.pcmBufferReadPoint = p.pcmBufferReadPoint := by
  have hactive : conn.flushRequestActive p.seqNo = true := by
    rw [Conn.flushRequestActive, hrequested, hnow]
    rfl
  have hkeep : (p.playEnabled && !conn.ap2PlayEnabled) = false := by
    rw [Bool.and_eq_false_iff, Bool.not_eq_false']
    rcases hp : p.playEnabled with _ | _
    · exact Or.inl rfl
    · exact Or.inr (Bool.eq_true_of_not_eq_false fun h => hplay ⟨hp, h⟩)
  unfold look
  dsimp only
  rw [hactive, hreached, hkeep]
  refine ⟨?_, ?_⟩ <;> split_ifs <;> first | rfl | simp_all

end Look

/-! ## The block that is read in flush mode -/

section Block

variable {stream : Stream} {codec : Codec σ} {rd : LoopReadings} {p : Processor σ}

theorem truncateToFlush_of_not_delayed (stream : Stream) (p : Processor σ) (samples : Bytes) :
    truncateToFlush stream false p samples = samples := by
  unfold truncateToFlush
  exact if_neg fun h => Bool.false_ne_true h.1

theorem length_truncateToFlush_le (stream : Stream) (flushIsDelayed : Bool) (p : Processor σ)
    (samples : Bytes) :
    (truncateToFlush stream flushIsDelayed p samples).length ≤ samples.length := by
  unfold truncateToFlush
  dsimp only
  split_ifs
  · exact List.length_take_le' _ _
  · exact le_rfl

/-- Sample buffers that all fit are truncated and appended to the pcm buffer. -/
theorem foldl_addSamples_pcmBuffer (stream : Stream) (flushIsDelayed : Bool) (chunks : List Bytes)
    (p : Processor σ) (h : p.pcmBuffer.length + chunks.flatten.length ≤ p.pcmBufferSize) :
    (chunks.foldl (addSamples stream flushIsDelayed) p).pcmBuffer =
      p.pcmBuffer ++ (chunks.map (truncateToFlush stream flushIsDelayed p)).flatten := by
  induction chunks generalizing p with
  | nil => exact (List.append_nil _).symm
  | cons samples chunks ih =>
      rw [List.flatten_cons, List.length_append] at h
      have hcut := length_truncateToFlush_le stream flushIsDelayed p samples
      have hadd : addSamples stream flushIsDelayed p samples =
          { p with
            pcmBuffer := p.pcmBuffer ++ truncateToFlush stream flushIsDelayed p samples } := by
        unfold addSamples
        exact if_neg (by omega)
      rw [List.foldl_cons, hadd, ih, List.map_cons, List.flatten_cons, List.append_assoc]
      · rfl
      · dsimp only
        rw [List.length_append]
        omega

/-- Sample buffers change nothing but the pcm buffer, whose size is never made smaller. -/
theorem foldl_addSamples_frame (stream : Stream) (flushIsDelayed : Bool) (chunks : List Bytes)
    (p : Processor σ) :
    ∃ size buffer, p.pcmBufferSize ≤ size ∧
      chunks.foldl (addSamples stream flushIsDelayed) p =
        { p with pcmBufferSize := size, pcmBuffer := buffer } := by
  induction chunks generalizing p with
  | nil => exact ⟨_, _, le_rfl, rfl⟩
  | cons samples chunks ih =>
      obtain ⟨size, buffer, hsize, heq⟩ := ih (addSamples stream flushIsDelayed p samples)
      refine ⟨size, buffer, ?_, ?_⟩
      · refine le_trans ?_ hsize
        unfold addSamples
        dsimp only
        split_ifs
        · dsimp only
          omega
        · exact le_rfl
      · rw [List.foldl_cons, heq]
        unfold addSamples
        dsimp only
        split_ifs <;> rfl

/-- A block that is read in flush mode empties the pcm buffer, and is decoded into it if it is
the block to flush until. -/
theorem processBlock_of_flush (rd : LoopReadings) (flushUntilSeq : BitVec 32) {bytes : Bytes}
    (hflush : p.flushRequested = true)
    (hfits : (p.audioOf stream codec bytes).length ≤ p.pcmBufferSize) :
    (processBlock stream codec flushUntilSeq false rd bytes p).pcmBuffer =
        (if p.numberOf bytes = flushUntilSeq ∧ tooSoonAfterConnection stream rd = false then
          p.audioOf stream codec bytes
        else []) ∧
      (processBlock stream codec flushUntilSeq false rd bytes p).pcmBufferReadPoint = 0 ∧
      (processBlock stream codec flushUntilSeq false rd bytes p).pcmBufferReadPointRtptime =
        blockTimestamp (overwrite bytes p.packet) := by
  have haccept : (p.acceptBlock stream rd bytes).pcmBuffer = [] ∧
      (p.acceptBlock stream rd bytes).pcmBufferReadPoint = 0 ∧
      (p.acceptBlock stream rd bytes).pcmBufferReadPointRtptime =
        blockTimestamp (overwrite bytes p.packet) := by
    simp [Processor.acceptBlock, hflush]
  obtain ⟨hempty, hpoint, htime⟩ := haccept
  have hflush' : (p.acceptBlock stream rd bytes).flushRequested = true := hflush
  unfold processBlock
  dsimp only
  by_cases hnumber : p.numberOf bytes = flushUntilSeq ∧ tooSoonAfterConnection stream rd = false
  · rw [if_pos hnumber, if_pos ⟨Or.inl ⟨hflush', hnumber.1⟩, by simp [hnumber.2]⟩]
    unfold addBlock
    dsimp only
    obtain ⟨size, buffer, -, heq⟩ := foldl_addSamples_frame stream false
      (decodeBlock stream codec (p.acceptBlock stream rd bytes).packet bytes.length
        (p.acceptBlock stream rd bytes).codec).2
      { p.acceptBlock stream rd bytes with
        codec := (decodeBlock stream codec (p.acceptBlock stream rd bytes).packet bytes.length
          (p.acceptBlock stream rd bytes).codec).1 }
    refine ⟨?_, heq ▸ hpoint, heq ▸ htime⟩
    rw [foldl_addSamples_pcmBuffer]
    · dsimp only
      rw [hempty, List.nil_append, List.map_congr_left fun samples _ =>
        truncateToFlush_of_not_delayed stream _ samples, List.map_id']
      rfl
    · dsimp only
      rw [hempty, List.length_nil, Nat.zero_add]
      exact hfits
  · have hdrop : ¬ (((p.acceptBlock stream rd bytes).flushRequested = true ∧
          (p.acceptBlock stream rd bytes).seqNo = flushUntilSeq ∨
        ¬ (p.acceptBlock stream rd bytes).flushRequested = true ∧
          (p.acceptBlock stream rd bytes).newBufferNeeded = true) ∧
        ¬ tooSoonAfterConnection stream rd = true) := by
      rintro ⟨⟨-, hseq⟩ | ⟨hnot, -⟩, hsoon⟩
      · exact hnumber ⟨hseq, Bool.eq_false_iff.mpr hsoon⟩
      · exact hnot hflush'
    rw [if_neg hnumber, if_neg hdrop]
    exact ⟨hempty, hpoint, htime⟩

end Block

/-! ## Turns and runs -/

/-- The decoder makes at most one AAC frame, 1024 frames of audio, of a block. -/
def OneFrame (stream : Stream) (codec : Codec σ) : Prop :=
  ∀ c bytes, (codec.decode c bytes).2.flatten.length ≤ 1024 * stream.inputBytesPerFrame

/-- The pcm buffer has at least the size it was created with. -/
def Roomy (stream : Stream) (p : Processor σ) : Prop :=
  stream.initialPcmBufferSize ≤ p.pcmBufferSize

section Runs

variable {stream : Stream} {codec : Codec σ} {rd : LoopReadings} {s t : System σ}

theorem audioOf_length_le (hcodec : OneFrame stream codec) {p : Processor σ}
    (hp : Roomy stream p) (bytes : Bytes) :
    (p.audioOf stream codec bytes).length ≤ p.pcmBufferSize := by
  refine le_trans ?_ hp
  unfold Processor.audioOf decodeBlock Stream.initialPcmBufferSize
  split
  · exact Nat.zero_le _
  · exact le_trans (hcodec _ _) (Nat.mul_le_mul_right _ (Nat.le_add_right _ _))

/-- The supply of the player touches the pcm buffer and its read point, the count of packets and
whether a block is needed. -/
theorem supplyPlayer_frame (stream : Stream) (rd : LoopReadings) (p : Processor σ) :
    ∃ buffer readPoint rtptime needed played, (supplyPlayer stream rd p).1 =
      { p with
        pcmBuffer := buffer
        pcmBufferReadPoint := readPoint
        pcmBufferReadPointRtptime := rtptime
        newBufferNeeded := needed
        packetsPlayedInThisSequence := played } := by
  unfold supplyPlayer Processor.offerPacket
  split_ifs
  · exact ⟨_, _, _, _, _, rfl⟩
  · dsimp only
    split
    · exact ⟨_, _, _, _, _, rfl⟩
    · dsimp only
      split_ifs <;> exact ⟨_, _, _, _, _, rfl⟩
  · exact ⟨_, _, _, _, _, rfl⟩
  · exact ⟨_, _, _, _, _, rfl⟩

theorem Roomy.supplyPlayer {p : Processor σ} (h : Roomy stream p) :
    Roomy stream (supplyPlayer stream rd p).1 := by
  obtain ⟨_, _, _, _, _, heq⟩ := supplyPlayer_frame stream rd p
  rw [heq]
  exact h

theorem Roomy.readBlock {p : Processor σ} (h : Roomy stream p) (flushUntilSeq : BitVec 32)
    (flushIsDelayed : Bool) :
    Roomy stream (readBlock stream codec flushUntilSeq flushIsDelayed rd p) := by
  unfold BufferedAudio.readBlock
  split_ifs
  · split
    · exact h
    · exact h
    · unfold processBlock addBlock
      dsimp only
      split_ifs
      · obtain ⟨size, buffer, hsize, heq⟩ := foldl_addSamples_frame stream _ _ _
        rw [heq]
        exact le_trans h hsize
      · exact h
  · exact h

theorem step_processor {I : Processor σ → Prop} {l : Label} (h : I s.processor)
    (hturn : ∀ rd, I (s.turn stream codec rd).processor)
    (hstep : step stream codec s l = some t) : I t.processor := by
  cases l with
  | flushBuffered items =>
      obtain rfl := Option.some.inj hstep
      exact h
  | setRate rate =>
      obtain rfl := Option.some.inj hstep
      exact h
  | turn rd =>
      unfold BufferedAudio.step at hstep
      dsimp only at hstep
      split_ifs at hstep
      obtain rfl := Option.some.inj hstep
      exact hturn rd

theorem Roomy.step {l : Label} (h : Roomy stream s.processor)
    (hstep : step stream codec s l = some t) : Roomy stream t.processor := by
  refine step_processor h (fun rd => ?_) hstep
  have hlook : Roomy stream (look s.conn s.processor).processor :=
    le_of_le_of_eq h (look_frame s.conn s.processor).2.2.symm
  unfold System.turn turn
  dsimp only
  refine Roomy.readBlock ?_ _ _
  split_ifs
  · exact hlook
  · exact hlook.supplyPlayer

/-- In flush mode a turn only reads a block. -/
theorem turn_of_flush (hflush : (look s.conn s.processor).processor.flushRequested = true) :
    turn stream codec rd s.conn s.processor =
      ((look s.conn s.processor).conn,
        readBlock stream codec s.conn.ap2FlushUntilSequenceNumber
          (look s.conn s.processor).flushIsDelayed rd (look s.conn s.processor).processor,
        (look s.conn s.processor).outputs) := by
  unfold turn
  dsimp only
  rw [if_pos hflush, List.append_nil]

theorem playerPutPacket_notMem_look_outputs (conn : Conn) (p : Processor σ) (a : PutArgs) :
    Output.playerPutPacket a ∉ (look conn p).outputs := by
  unfold look
  dsimp only
  split_ifs <;> simp

/-- A turn with a pending immediate request in flush mode, and the block it reads. -/
theorem turn_pcmBuffer_of_flush (hcodec : OneFrame stream codec)
    (hroomy : Roomy stream s.processor) (hpending : s.ImmediateFlushPending)
    (hflush : (look s.conn s.processor).processor.flushRequested = true) {bytes : Bytes}
    (hreceived : bytes ∈ rd.received) (hbytes : bytes ≠ []) :
    (s.turn stream codec rd).processor.pcmBuffer =
        (if s.processor.numberOf bytes = s.conn.ap2FlushUntilSequenceNumber ∧
            tooSoonAfterConnection stream rd = false then
          s.processor.audioOf stream codec bytes
        else []) ∧
      (s.turn stream codec rd).processor.pcmBufferReadPoint = 0 ∧
      (s.turn stream codec rd).processor.pcmBufferReadPointRtptime =
        blockTimestamp (overwrite bytes s.processor.packet) := by
  obtain ⟨hpacket, hdecoder, hsize⟩ := look_frame s.conn s.processor
  obtain ⟨-, -, hnow⟩ := look_of_immediate (p := s.processor) hpending.1 hpending.2
  have haudio : (look s.conn s.processor).processor.audioOf stream codec bytes =
      s.processor.audioOf stream codec bytes := by
    unfold Processor.audioOf
    rw [hpacket, hdecoder]
  have hfits := audioOf_length_le hcodec hroomy bytes
  rw [← haudio, ← hsize] at hfits
  have hblock := processBlock_of_flush rd s.conn.ap2FlushUntilSequenceNumber hflush hfits
  have hread : readBlock stream codec s.conn.ap2FlushUntilSequenceNumber false rd
      (look s.conn s.processor).processor =
      processBlock stream codec s.conn.ap2FlushUntilSequenceNumber false rd bytes
        (look s.conn s.processor).processor := by
    unfold readBlock
    rw [hflush, Option.mem_def.mp hreceived]
    cases bytes with
    | nil => exact absurd rfl hbytes
    | cons b bs => rfl
  unfold System.turn
  rw [turn_of_flush hflush, hnow, hread, ← haudio]
  rw [Processor.numberOf, hpacket] at hblock
  exact hblock

/-- With a pending immediate request, a turn does what it should exactly under the
condition. -/
theorem flushWindow_turn_iff (hcodec : OneFrame stream codec)
    (hroomy : Roomy stream s.processor) (hpending : s.ImmediateFlushPending) :
    FlushWindow stream codec s rd ↔ FlushCondition stream codec s rd := by
  obtain ⟨hmode, hrequest, -⟩ := look_of_immediate (p := s.processor) hpending.1 hpending.2
  have hreached := flushUntilReached_eq_true_iff s.conn s.processor
  constructor
  · intro h
    refine ⟨fun hread => ?_, fun hnot bytes hreceived hbytes hafter => ?_⟩
    · have hiff := h.mode
      rw [hmode, Bool.not_eq_true', ← Bool.not_eq_true, not_iff_not, hreached] at hiff
      simpa [System.Reached, hread] using hiff
    · have hblock := (turn_pcmBuffer_of_flush hcodec hroomy hpending (h.mode.mpr hnot) hreceived
        hbytes).1
      rw [(h.decoded hnot bytes hreceived hbytes hafter).1] at hblock
      by_cases hnumber : s.processor.numberOf bytes = s.conn.ap2FlushUntilSequenceNumber ∧
          tooSoonAfterConnection stream rd = false
      · exact Or.inl hnumber
      · exact Or.inr (hblock.trans (if_neg hnumber))
  · intro h
    have hiff : s.conn.flushUntilReached s.processor.blocksRead s.processor.seqNo = true ↔
        s.Reached :=
      hreached.trans (and_congr_right h.ordered)
    have hflush : (look s.conn s.processor).processor.flushRequested = true ↔ ¬ s.Reached := by
      rw [hmode, Bool.not_eq_true', ← Bool.not_eq_true, hiff]
    refine ⟨hflush, ?_, fun hnot a ha => ?_, fun hnot bytes hreceived hbytes hafter => ?_,
      fun hreach hplay => ?_⟩
    · rw [hrequest, Bool.not_eq_true', ← Bool.not_eq_true, hiff]
    · rw [turn_of_flush (hflush.mpr hnot)] at ha
      exact playerPutPacket_notMem_look_outputs _ _ a ha
    · obtain ⟨hbuffer, hpoint, htime⟩ := turn_pcmBuffer_of_flush hcodec hroomy hpending
        (hflush.mpr hnot) hreceived hbytes
      refine ⟨?_, hpoint, htime⟩
      rw [hbuffer]
      rcases h.exact hnot bytes hreceived hbytes hafter with hnumber | hsilent
      · rw [if_pos hnumber]
      · rw [hsilent, ite_self]
    · exact look_pcmBuffer_of_reached hpending.1 hpending.2 (hiff.mpr hreach) hplay

end Runs

def FlushWindowAt (stream : Stream) (codec : Codec σ) (s : System σ) : Label → Prop
  | .turn rd => s.ImmediateFlushPending → FlushWindow stream codec s rd
  | _ => True

def FlushConditionAt (stream : Stream) (codec : Codec σ) (s : System σ) : Label → Prop
  | .turn rd => s.ImmediateFlushPending → FlushCondition stream codec s rd
  | _ => True

instance (stream : Stream) (codec : Codec σ) (s : System σ) :
    DecidablePred (FlushConditionAt stream codec s)
  | .turn _ => inferInstanceAs (Decidable (_ → _))
  | .flushBuffered _ => isTrue trivial
  | .setRate _ => isTrue trivial

def System.start (stream : Stream) (memory : Bytes) (c : σ) (conn : Conn) : System σ where
  conn := conn
  processor := .start stream memory c

/-- In every run, every turn with a pending immediate flush request is in flush mode until a
block at or after the one to flush until has been read, gives no audio to the player
meanwhile, then leaves flush mode, and decodes that block and keeps its audio, exactly if
the numbers of the blocks that are read are in the order of the integers with the one to
flush until, and the block that ends the flush is that one. -/
theorem flush_window_iff (stream : Stream) (codec : Codec σ) (hcodec : OneFrame stream codec)
    (memory : Bytes) (c : σ) (conn : Conn) (labels : List Label) :
    Along (step stream codec) (FlushWindowAt stream codec) (.start stream memory c conn)
        labels ↔
      Along (step stream codec) (FlushConditionAt stream codec) (.start stream memory c conn)
        labels := by
  refine along_iff_of_invariant (I := fun s : System σ => Roomy stream s.processor)
    (fun s l t hroomy hstep => hroomy.step hstep) ?_ le_rfl
  intro s l hroomy
  cases l with
  | flushBuffered items => exact Iff.rfl
  | setRate rate => exact Iff.rfl
  | turn rd => exact forall_congr' fun hpending => flushWindow_turn_iff hcodec hroomy hpending

/-! ## A flush until block 5 -/

def Codec.plain : Codec Unit where
  decrypt := fun _ _ _ ciphertext => some ciphertext
  decode := fun c bytes => (c, [(bytes.drop 7).take 4096])

def Stream.plain : Stream where
  inputRate := 44100
  inputBytesPerFrame := 4
  sessionKey := some []
  connectionStartTime := 0

def Conn.idle : Conn where
  ap2FlushRequested := false
  ap2FlushFromValid := false
  ap2FlushFromRtpTimestamp := 0
  ap2FlushFromSequenceNumber := 0
  ap2FlushUntilRtpTimestamp := 0
  ap2FlushUntilSequenceNumber := 0
  ap2PlayEnabled := false

def Label.block (number : BitVec 8) : Label :=
  .turn
    { playerBufferOccupancy := 0
      havePtpTimingInformation := true
      bufferShouldBeTime := none
      sendTimeNow := 0
      zeroFrames := []
      received := some
        ([0x80, 0, 0, number, 0, 0, 1, 0, 0, 0, 0, 0] ++ [1, 2, 3, 4] ++ List.replicate 8 0)
      localShouldBeTime := none
      connectionTimeNow := 0
      blockTimeNow := 0 }

def Label.flushUntil (number : BitVec 64) : Label :=
  .flushBuffered ⟨none, none, some number, some 0⟩

theorem oneFrame_plain : OneFrame .plain .plain := by
  intro c bytes
  simp [Codec.plain, Stream.plain]

theorem flush_window_until_block :
    Along (step .plain .plain) (FlushWindowAt .plain .plain) (.start .plain [] () .idle)
      [.flushUntil 5, .block 4, .block 5, .block 6] :=
  (flush_window_iff .plain .plain oneFrame_plain [] () .idle _).mpr (by decide +kernel)

def NumbersIncrease (s : System σ) : Label → Prop
  | .turn rd => s.processor.blocksRead ≠ 0 → ∀ bytes ∈ rd.received, bytes ≠ [] →
      0 < ((s.processor.numberOf bytes).setWidth 24 - s.processor.seqNo.setWidth 24).toInt
  | _ => True

instance (s : System σ) : DecidablePred (NumbersIncrease s)
  | .turn _ => inferInstanceAs (Decidable (_ → _))
  | .flushBuffered _ => isTrue trivial
  | .setRate _ => isTrue trivial

/-- Block 5 is missing: block 6 ends the flush, and is dropped. -/
theorem flush_window_overshot :
    ¬ ∀ (σ : Type) (stream : Stream) (codec : Codec σ), OneFrame stream codec →
      ∀ (memory : Bytes) (c : σ) (conn : Conn) (labels : List Label),
        Along (step stream codec) NumbersIncrease (.start stream memory c conn) labels →
        Along (step stream codec) (FlushWindowAt stream codec) (.start stream memory c conn)
          labels := by
  intro h
  have hwindow := h Unit .plain .plain oneFrame_plain [] () .idle
    [.flushUntil 5, .block 4, .block 6] (by decide +kernel)
  have hturn := (((hwindow _ rfl).2 _ rfl).2 _ rfl).1 (by decide +kernel)
  have hdecoded := (hturn.decoded (by decide +kernel) _ rfl (by decide) (by decide +kernel)).1
  exact absurd hdecoded (by decide +kernel)

end BufferedAudio

end ShairportSync
