import ShairportSync.BufferedAudio.DeferredFlush
import ShairportSync.Player.Occupancy
import Mathlib.Tactic.MkIffOfInductiveProp

/-!
# Repacketising

The frames of the blocks are handed to the player in packets of 352, whatever the lengths of the
blocks. Frames that do not fill a packet are moved down to the start of the pcm buffer, and the
next block is decoded behind them.

A `Session` is the processor and its connection with the player, which takes packets as it likes
and gets none but those it is handed. It also has the audio that has been decoded and the packets
that have been handed over: `Repacketised` says that these are the pieces of that audio, and that
what is left of it is in the pcm buffer.
-/

namespace ShairportSync

namespace BufferedAudio

open Player (RtpTime Bytes PutArgs)
open Transition

/-! ## The session -/

/-- The processor, the player, and what has passed between them. -/
structure Session (σ : Type) extends System σ where
  /-- No more packets than these are waiting in the player's buffer. -/
  playerBufferOccupancy : ℕ
  handedOver : List PutArgs
  decoded : Bytes
  /-- The timestamp of the first block. -/
  firstTimestamp : RtpTime
  /-- `expected_timestamp`: where the last block ends. -/
  expectedTimestamp : RtpTime

def Output.packet? : Output → Option PutArgs
  | .resetBuffer => none
  | .playerPutPacket a => some a

section Session

variable {σ : Type} (stream : Stream) (codec : Codec σ)

def System.blockRead (rd : LoopReadings) (s : System σ) : Option Bytes :=
  if (s.beforeBlock stream rd).flushRequested || (s.beforeBlock stream rd).newBufferNeeded then
    rd.received.filter fun bytes => !bytes.isEmpty
  else none

def System.blockAudio (rd : LoopReadings) (s : System σ) (bytes : Bytes) : Bytes :=
  if (s.withBlock stream rd bytes).DecodesBlock stream s.conn.ap2FlushUntilSequenceNumber rd then
    (s.sampleBuffers stream codec rd bytes).flatten
  else []

def Session.noteBlock (rd : LoopReadings) (s : Session σ) : Option Bytes → Session σ
  | none => s
  | some bytes =>
      let timestamp := blockTimestamp (overwrite bytes s.processor.packet)
      let audio := s.toSystem.blockAudio stream codec rd bytes
      { s with
        decoded := s.decoded ++ audio
        firstTimestamp := if s.processor.blocksRead = 0 then timestamp else s.firstTimestamp
        expectedTimestamp :=
          timestamp + BitVec.ofNat 32 (audio.length / stream.inputBytesPerFrame) }

def Session.turn (rd : LoopReadings) (s : Session σ) : Session σ :=
  let packets :=
    (BufferedAudio.turn stream codec rd s.conn s.processor).2.2.filterMap Output.packet?
  { s.noteBlock stream codec rd (s.toSystem.blockRead stream rd) with
    toSystem := s.toSystem.turn stream codec rd
    playerBufferOccupancy := rd.playerBufferOccupancy + packets.length
    handedOver := s.handedOver ++ packets }

/-- The player has no more packets than it had, and those that have been handed over since. This is
so of the player's own buffer (`Session.reportedOccupancy_le_turn`). -/
def Session.step (s : Session σ) : Label → Option (Session σ)
  | .flushBuffered items => some { s with conn := handleFlushbuffered items s.conn }
  | .setRate rate => some { s with conn := setRate rate s.conn }
  | .turn rd =>
      if s.processor.finished ∨ s.playerBufferOccupancy < rd.playerBufferOccupancy then none
      else some (s.turn stream codec rd)

def Session.start (memory : Bytes) (c : σ) (conn : Conn) (playerBufferOccupancy : ℕ) :
    Session σ where
  toSystem := .start stream memory c conn
  playerBufferOccupancy := playerBufferOccupancy
  handedOver := []
  decoded := []
  firstTimestamp := 0
  expectedTimestamp := 0

/-! ## What is asked of the blocks and the clock -/

/-- The clock is valid, and the lead time of the next packet in range. -/
def LeadInRange (rd : LoopReadings) : Prop :=
  rd.havePtpTimingInformation = true ∧
    ∃ time ∈ rd.bufferShouldBeTime, 0 ≤ (time - rd.sendTimeNow).toInt ∧
      (time - rd.sendTimeNow).toInt < 30000000000

instance (rd : LoopReadings) : Decidable (LeadInRange rd) :=
  match h : rd.bufferShouldBeTime with
  | none => isFalse (by simp [LeadInRange, h])
  | some time =>
      decidable_of_iff (rd.havePtpTimingInformation = true ∧ 0 ≤ (time - rd.sendTimeNow).toInt ∧
        (time - rd.sendTimeNow).toInt < 30000000000) (by simp [LeadInRange, h])

/-- The block is in time, and is decoded to 1 to 1024 frames that follow those before them. -/
@[mk_iff]
structure Session.BlockInOrder (rd : LoopReadings) (s : Session σ) (bytes : Bytes) : Prop where
  notOutdated : outdated rd = false
  notTooSoon : tooSoonAfterConnection stream rd = false
  whole : stream.inputBytesPerFrame ∣ (s.sampleBuffers stream codec rd bytes).flatten.length
  pos : 0 < (s.sampleBuffers stream codec rd bytes).flatten.length
  le : (s.sampleBuffers stream codec rd bytes).flatten.length ≤ 1024 * stream.inputBytesPerFrame
  contiguous : s.processor.blocksRead ≠ 0 →
    blockTimestamp (overwrite bytes s.processor.packet) = s.expectedTimestamp

instance (rd : LoopReadings) (s : Session σ) (bytes : Bytes) :
    Decidable (s.BlockInOrder stream codec rd bytes) :=
  decidable_of_iff' _ (Session.blockInOrder_iff stream codec rd s bytes)

@[mk_iff]
structure Session.TurnInOrder (rd : LoopReadings) (s : Session σ) : Prop where
  noFlush : s.conn.ap2FlushRequested = false
  playing : s.conn.ap2PlayEnabled = true
  lead : LeadInRange rd
  block : ∀ bytes ∈ s.toSystem.blockRead stream rd, s.BlockInOrder stream codec rd bytes

instance (rd : LoopReadings) (s : Session σ) : Decidable (s.TurnInOrder stream codec rd) :=
  decidable_of_iff' _ (Session.turnInOrder_iff stream codec rd s)

def Session.InOrder (s : Session σ) : Label → Prop
  | .turn rd => s.TurnInOrder stream codec rd
  | _ => True

instance (s : Session σ) : DecidablePred (s.InOrder stream codec)
  | .turn rd => inferInstanceAs (Decidable (s.TurnInOrder stream codec rd))
  | .flushBuffered _ => isTrue trivial
  | .setRate _ => isTrue trivial

/-! ## What is to hold -/

def packetAt (firstTimestamp : RtpTime) (audio : Bytes) (k : ℕ) : PutArgs where
  originalFormat := false
  seqno := 0
  actualTimestamp := firstTimestamp + BitVec.ofNat 32 (framesPerPacket * k)
  data := (audio.drop (stream.packetSize * k)).take stream.packetSize
  len := framesPerPacket

/-- What has been handed over are the first packets of the audio, and what is left of it is in the
pcm buffer. -/
structure Session.Repacketised (s : Session σ) : Prop where
  handedOver : s.handedOver = (List.range s.handedOver.length).map
    (packetAt stream s.firstTimestamp s.decoded)
  whole : stream.packetSize * s.handedOver.length ≤ s.decoded.length
  heldBack : s.processor.pcmBuffer.drop s.processor.pcmBufferReadPoint =
    s.decoded.drop (stream.packetSize * s.handedOver.length)

/-- The turn gets to the memcpy that moves the remaining frames down. -/
def System.MovesDown (rd : LoopReadings) (s : System σ) : Prop :=
  let p := (look s.conn s.processor).processor
  p.flushRequested = false ∧ stream.playerIsSupplied rd.playerBufferOccupancy = false ∧
    p.pcmBuffer.length < p.pcmBufferReadPoint + stream.packetSize ∧ p.pcmBufferReadPoint ≠ 0

/-- What is moved down does not overlap the place it is moved to, and less than 352 frames are held
back when a block is requested. -/
structure Session.KeepsFrames (rd : LoopReadings) (s : Session σ) : Prop where
  moveDown : s.toSystem.MovesDown stream rd →
    (look s.conn s.processor).processor.pcmBuffer.length -
        (look s.conn s.processor).processor.pcmBufferReadPoint ≤
      (look s.conn s.processor).processor.pcmBufferReadPoint
  heldBack : (s.beforeBlock stream rd).newBufferNeeded = true →
    (s.beforeBlock stream rd).pcmBuffer.length <
      (s.beforeBlock stream rd).pcmBufferReadPoint + stream.packetSize

def Session.KeepsFramesAt (s : Session σ) : Label → Prop
  | .turn rd => s.KeepsFrames stream rd
  | _ => True

end Session

/-! ## The supply of the player -/

section Supply

variable {σ : Type} {stream : Stream} {rd : LoopReadings}

theorem look_of_playing {conn : Conn} {p : Processor σ} (hnone : conn.ap2FlushRequested = false)
    (hplay : conn.ap2PlayEnabled = true) (hmode : p.flushRequested = false) :
    look conn p = ⟨conn, { p with playEnabled := true }, false, []⟩ := by
  obtain ⟨_, _, _, _, _, _, _⟩ := conn
  cases p
  dsimp only at hnone hplay hmode
  subst hnone hplay hmode
  simp [look, Conn.flushRequestActive]

/-- The packet at the read point is handed over, and the read point moves on. -/
theorem offerPacket_of_lead {p : Processor σ} (hlead : LeadInRange rd)
    (hplay : p.playEnabled = true) (hsequence : p.blocksReadInSequence = p.blocksRead)
    (hoffset : p.pcmBufferReadPointRtptimeOffset = 0) :
    p.offerPacket stream rd =
      ({ p with
          packetsPlayedInThisSequence := p.packetsPlayedInThisSequence + 1
          pcmBufferReadPointRtptime :=
            p.pcmBufferReadPointRtptime + BitVec.ofNat 32 framesPerPacket
          pcmBufferReadPoint := p.pcmBufferReadPoint + stream.packetSize },
        [.playerPutPacket
          { originalFormat := false
            seqno := 0
            actualTimestamp := p.pcmBufferReadPointRtptime
            data := (p.pcmBuffer.drop p.pcmBufferReadPoint).take stream.packetSize
            len := framesPerPacket }]) := by
  obtain ⟨hclock, time, htime, hnonneg, hless⟩ := hlead
  have hmuted : (decide (p.blocksReadInSequence ≤ 2) &&
      decide (p.blocksReadInSequence ≠ p.blocksRead)) = false := by
    rw [hsequence]
    simp
  unfold Processor.offerPacket
  rw [if_pos (by rw [hplay, hclock]; rfl), Option.mem_def.mp htime]
  dsimp only
  rw [if_pos ⟨hless, hnonneg, Or.inl hnonneg⟩]
  unfold Processor.sendPacket
  dsimp only
  rw [hmuted, hoffset, add_zero]
  rfl

end Supply

/-! ## The invariant -/

section Invariant

variable {σ : Type} (stream : Stream) (codec : Codec σ)

/-- The read point and its timestamp are those of the next packet, the pcm buffer holds the rest of
the audio, and a block is needed only while the player is not supplied. -/
structure Session.Inv (s : Session σ) : Prop extends s.Repacketised stream where
  idle : s.processor.flushRequested = false
  inSequence : s.processor.blocksReadInSequence = s.processor.blocksRead
  offset : s.processor.pcmBufferReadPointRtptimeOffset = 0
  roomy : Roomy stream s.processor
  readPoint_dvd : stream.packetSize ∣ s.processor.pcmBufferReadPoint
  readPoint_le : s.processor.pcmBufferReadPoint ≤ s.processor.pcmBuffer.length
  wholeFrames : stream.inputBytesPerFrame ∣ s.decoded.length
  readPointTime : s.processor.blocksRead ≠ 0 → s.processor.pcmBufferReadPointRtptime =
    s.firstTimestamp + BitVec.ofNat 32 (framesPerPacket * s.handedOver.length)
  expected : s.processor.blocksRead ≠ 0 → s.expectedTimestamp =
    s.firstTimestamp + BitVec.ofNat 32 (s.decoded.length / stream.inputBytesPerFrame)
  noBlock : s.processor.blocksRead = 0 → s.decoded = []
  needed : s.processor.newBufferNeeded = true →
    stream.playerIsSupplied s.playerBufferOccupancy = false

variable {stream} {codec} {rd : LoopReadings} {s t : Session σ}

theorem inv_start (memory : Bytes) (c : σ) (conn : Conn) (playerBufferOccupancy : ℕ) :
    (Session.start stream memory c conn playerBufferOccupancy).Inv stream where
  handedOver := rfl
  whole := le_rfl
  heldBack := rfl
  idle := rfl
  inSequence := rfl
  offset := rfl
  roomy := le_rfl
  readPoint_dvd := dvd_zero _
  readPoint_le := le_rfl
  wholeFrames := dvd_zero _
  readPointTime := fun h => absurd rfl h
  expected := fun h => absurd rfl h
  noBlock := fun _ => rfl
  needed := nofun

theorem playerIsSupplied_eq_false_of_le {m n : ℕ} (h : m ≤ n)
    (hn : stream.playerIsSupplied n = false) : stream.playerIsSupplied m = false := by
  unfold Stream.playerIsSupplied at hn ⊢
  rw [decide_eq_false_iff_not] at hn ⊢
  exact fun hless =>
    hn (hless.trans_le (Nat.mul_le_mul_right _ (Nat.mul_le_mul_right _ h)))

theorem Session.Repacketised.length (hs : s.Repacketised stream) :
    s.processor.pcmBuffer.length - s.processor.pcmBufferReadPoint +
      stream.packetSize * s.handedOver.length = s.decoded.length := by
  have hlength := congrArg List.length hs.heldBack
  have hwhole := hs.whole
  rw [List.length_drop, List.length_drop] at hlength
  omega

theorem packetAt_append {firstTimestamp : RtpTime} {audio : Bytes} {k : ℕ}
    (h : stream.packetSize * (k + 1) ≤ audio.length) (more : Bytes) :
    packetAt stream firstTimestamp (audio ++ more) k =
      packetAt stream firstTimestamp audio k := by
  rw [Nat.mul_succ] at h
  unfold packetAt
  rw [List.drop_append_of_le_length (by omega), List.take_append_of_le_length]
  rw [List.length_drop]
  omega

def Session.supplied (rd : LoopReadings) (supply : Processor σ × List Output) (s : Session σ) :
    Session σ :=
  { s with
    processor := supply.1
    playerBufferOccupancy :=
      rd.playerBufferOccupancy + (supply.2.filterMap Output.packet?).length
    handedOver := s.handedOver ++ supply.2.filterMap Output.packet? }

/-- After the supply of the player a block is needed only if there are less than 352 frames, and
these are at the start of the pcm buffer. -/
structure Session.AfterSupply (stream : Stream) (s : Session σ) : Prop extends s.Inv stream where
  fromStart : s.processor.newBufferNeeded = true →
    s.processor.pcmBufferReadPoint = 0 ∧ s.processor.pcmBuffer.length < stream.packetSize

theorem Session.Inv.offer (hs : s.Inv stream) (hlead : LeadInRange rd)
    (hplay : s.processor.playEnabled = true) (hblock : 0 < stream.packetSize)
    (henough : s.processor.pcmBufferReadPoint + stream.packetSize ≤
      s.processor.pcmBuffer.length) :
    (s.supplied rd (Processor.offerPacket stream rd
      { s.processor with newBufferNeeded := false })).AfterSupply stream := by
  have hlength := hs.length
  have hroom : stream.packetSize * (s.handedOver.length + 1) ≤ s.decoded.length := by
    rw [Nat.mul_succ]
    omega
  have hread : s.processor.blocksRead ≠ 0 := by
    intro hzero
    have hnil := hs.noBlock hzero
    rw [hnil, List.length_nil] at hlength
    omega
  rw [offerPacket_of_lead (p := { s.processor with newBufferNeeded := false }) hlead hplay
    hs.inSequence hs.offset]
  unfold Session.supplied
  refine
    { handedOver := ?_
      whole := ?_
      heldBack := ?_
      idle := hs.idle
      inSequence := hs.inSequence
      offset := hs.offset
      roomy := hs.roomy
      readPoint_dvd := Nat.dvd_add hs.readPoint_dvd dvd_rfl
      readPoint_le := henough
      wholeFrames := hs.wholeFrames
      readPointTime := fun _ => ?_
      expected := hs.expected
      noBlock := hs.noBlock
      needed := nofun
      fromStart := nofun }
  · dsimp only [List.filterMap_cons, Output.packet?, List.filterMap_nil]
    rw [List.length_append, List.length_singleton, List.range_succ, List.map_append,
      ← hs.handedOver, List.map_singleton]
    unfold packetAt
    rw [hs.readPointTime hread, hs.heldBack]
  · dsimp only [List.filterMap_cons, Output.packet?, List.filterMap_nil]
    rw [List.length_append, List.length_singleton]
    exact hroom
  · dsimp only [List.filterMap_cons, Output.packet?, List.filterMap_nil]
    rw [List.length_append, List.length_singleton, Nat.mul_succ, ← List.drop_drop, hs.heldBack,
      List.drop_drop]
  · dsimp only [List.filterMap_cons, Output.packet?, List.filterMap_nil]
    rw [List.length_append, List.length_singleton, hs.readPointTime hread, Nat.mul_succ,
      BitVec.ofNat_add, add_assoc]

theorem Session.Inv.supply (hs : s.Inv stream) (hlead : LeadInRange rd)
    (hplay : s.processor.playEnabled = true) (hblock : 0 < stream.packetSize)
    (hoccupancy : rd.playerBufferOccupancy ≤ s.playerBufferOccupancy) :
    (s.supplied rd (supplyPlayer stream rd s.processor)).AfterSupply stream := by
  unfold supplyPlayer
  split_ifs with hfull henough
  · -- a block is not needed, or the player would not have been supplied
    have hneeded : s.processor.newBufferNeeded = false := by
      by_contra hneeded
      have hnot := playerIsSupplied_eq_false_of_le hoccupancy
        (hs.needed (Bool.eq_true_of_not_eq_false hneeded))
      exact Bool.false_ne_true (hnot.symm.trans hfull)
    have hkept : s.handedOver ++ [] = s.handedOver := List.append_nil _
    unfold Session.supplied
    dsimp only [List.filterMap_nil]
    rw [hkept]
    exact
      { hs with
        needed := fun h => absurd (hneeded.symm.trans h) Bool.false_ne_true
        fromStart := fun h => absurd (hneeded.symm.trans h) Bool.false_ne_true }
  · exact hs.offer hlead hplay hblock henough
  · have hkept : s.handedOver ++ [] = s.handedOver := List.append_nil _
    unfold Session.supplied Processor.moveDown
    dsimp only [List.filterMap_nil]
    rw [hkept]
    exact
      { hs with
        heldBack := hs.heldBack
        readPoint_dvd := dvd_zero _
        readPoint_le := Nat.zero_le _
        needed := fun _ => Bool.eq_false_of_not_eq_true hfull
        fromStart := fun _ => ⟨rfl, by
          dsimp only
          rw [List.length_drop]
          omega⟩ }

theorem acceptBlock_pcmBuffer_of_current {p : Processor σ} (hidle : p.flushRequested = false)
    (houtdated : outdated rd = false) (hsoon : tooSoonAfterConnection stream rd = false)
    (bytes : Bytes) : (p.acceptBlock stream rd bytes).pcmBuffer = p.pcmBuffer := by
  unfold Processor.acceptBlock
  dsimp only
  rw [hidle, houtdated, hsoon]
  rfl

/-- A block that is needed, and has room, is added behind what is in the pcm buffer. -/
theorem processBlock_of_needed {p : Processor σ} {bytes audio : Bytes}
    (hidle : p.flushRequested = false) (hneeded : p.newBufferNeeded = true)
    (houtdated : outdated rd = false) (hsoon : tooSoonAfterConnection stream rd = false)
    (flushUntilSeq : BitVec 32)
    (haudio : audio = (decodeBlock stream codec (p.acceptBlock stream rd bytes).packet
      bytes.length (p.acceptBlock stream rd bytes).codec).2.flatten)
    (hroom : p.pcmBuffer.length + audio.length ≤ p.pcmBufferSize) :
    ∃ size decoder, p.pcmBufferSize ≤ size ∧
      processBlock stream codec flushUntilSeq false rd bytes p =
        { p.acceptBlock stream rd bytes with
          pcmBufferSize := size, pcmBuffer := p.pcmBuffer ++ audio, codec := decoder } := by
  have hbuffer := acceptBlock_pcmBuffer_of_current hidle houtdated hsoon bytes
  have hdecodes : (p.acceptBlock stream rd bytes).DecodesBlock stream flushUntilSeq rd :=
    ⟨Or.inr ⟨Bool.eq_false_iff.mp hidle, hneeded⟩, Bool.eq_false_iff.mp hsoon⟩
  rw [processBlock_eq_ite, if_pos hdecodes]
  unfold addBlock
  dsimp only
  generalize hdecoded : decodeBlock stream codec (p.acceptBlock stream rd bytes).packet
    bytes.length (p.acceptBlock stream rd bytes).codec = decoded at haudio ⊢
  obtain ⟨size, buffer, hsize, heq⟩ := foldl_addSamples_frame stream false decoded.2
    { p.acceptBlock stream rd bytes with codec := decoded.1 }
  have hadded := foldl_addSamples_pcmBuffer stream false decoded.2
    { p.acceptBlock stream rd bytes with codec := decoded.1 } (by
      dsimp only
      rw [hbuffer, ← haudio]
      exact hroom)
  rw [heq, List.map_congr_left fun samples _ => truncateToFlush_of_not_delayed stream _ samples,
    List.map_id', ← haudio] at hadded
  dsimp only at hadded
  rw [hbuffer] at hadded
  refine ⟨size, decoded.1, hsize, ?_⟩
  rw [heq, hadded]

/-- A block begins where the audio before it ends. -/
theorem Session.Inv.timestamp_eq (hs : s.Inv stream) {timestamp : RtpTime}
    (hcontiguous : s.processor.blocksRead ≠ 0 → timestamp = s.expectedTimestamp) :
    timestamp = (if s.processor.blocksRead = 0 then timestamp else s.firstTimestamp) +
      BitVec.ofNat 32 (s.decoded.length / stream.inputBytesPerFrame) := by
  split_ifs with hzero
  · rw [hs.noBlock hzero, List.length_nil, Nat.zero_div]
    exact (add_zero timestamp).symm
  · rw [← hs.expected hzero]
    exact hcontiguous hzero

/-- The packets that have been handed over are those of the audio with more behind it. -/
theorem Session.Inv.handedOver_append (hs : s.Inv stream) (hblock : 0 < stream.packetSize)
    (timestamp : RtpTime) (more : Bytes) :
    s.handedOver = (List.range s.handedOver.length).map
      (packetAt stream (if s.processor.blocksRead = 0 then timestamp else s.firstTimestamp)
        (s.decoded ++ more)) := by
  split_ifs with hzero
  · have hnone := hs.whole
    rw [hs.noBlock hzero, List.length_nil, Nat.le_zero, Nat.mul_eq_zero] at hnone
    rw [hnone.resolve_left hblock.ne']
    exact List.eq_nil_of_length_eq_zero (hnone.resolve_left hblock.ne')
  · refine hs.handedOver.trans (List.map_congr_left fun k hk => ?_)
    have hpiece := Nat.mul_le_mul_left stream.packetSize
      (Nat.succ_le_of_lt (List.mem_range.mp hk))
    exact (packetAt_append (hpiece.trans hs.whole) more).symm

/-- With the pcm buffer read from its start, the time of the read point is that of the next packet,
also if there is nothing in the buffer yet. -/
theorem Session.Inv.time_of_fromStart (hs : s.Inv stream)
    (hpoint : s.processor.pcmBufferReadPoint = 0) (hbytes : 0 < stream.inputBytesPerFrame)
    {timestamp : RtpTime}
    (hcontiguous : s.processor.blocksRead ≠ 0 → timestamp = s.expectedTimestamp) :
    (if s.processor.pcmBuffer.length = 0 then timestamp
      else s.processor.pcmBufferReadPointRtptime) =
      (if s.processor.blocksRead = 0 then timestamp else s.firstTimestamp) +
        BitVec.ofNat 32 (framesPerPacket * s.handedOver.length) := by
  have hlength := hs.length
  rw [hpoint, Nat.sub_zero] at hlength
  by_cases hempty : s.processor.pcmBuffer.length = 0
  · have hframes : s.decoded.length / stream.inputBytesPerFrame =
        framesPerPacket * s.handedOver.length := by
      rw [← hlength, hempty, Nat.zero_add, Stream.packetSize, Nat.mul_right_comm,
        Nat.mul_div_cancel _ hbytes]
    rw [if_pos hempty, ← hframes]
    exact hs.timestamp_eq hcontiguous
  · have hread : s.processor.blocksRead ≠ 0 := by
      intro hzero
      rw [hs.noBlock hzero, List.length_nil] at hlength
      omega
    rw [if_neg hempty, if_neg hread]
    exact hs.readPointTime hread

/-- A block is added behind the frames that are held back. -/
theorem Session.AfterSupply.block (hs : s.AfterSupply stream)
    (hneeded : s.processor.newBufferNeeded = true) (hbytes : 0 < stream.inputBytesPerFrame)
    (houtdated : outdated rd = false) (hsoon : tooSoonAfterConnection stream rd = false)
    (flushUntilSeq : BitVec 32) {bytes audio : Bytes} {timestamp : RtpTime}
    (haudio : audio = (decodeBlock stream codec (s.processor.acceptBlock stream rd bytes).packet
      bytes.length (s.processor.acceptBlock stream rd bytes).codec).2.flatten)
    (htimestamp : timestamp = blockTimestamp (overwrite bytes s.processor.packet))
    (hwhole : stream.inputBytesPerFrame ∣ audio.length)
    (hle : audio.length ≤ 1024 * stream.inputBytesPerFrame)
    (hcontiguous : s.processor.blocksRead ≠ 0 → timestamp = s.expectedTimestamp) :
    ({ s with
        processor := processBlock stream codec flushUntilSeq false rd bytes s.processor
        decoded := s.decoded ++ audio
        firstTimestamp := if s.processor.blocksRead = 0 then timestamp else s.firstTimestamp
        expectedTimestamp :=
          timestamp + BitVec.ofNat 32 (audio.length / stream.inputBytesPerFrame) } :
      Session σ).Inv stream := by
  obtain ⟨hpoint, hfew⟩ := hs.fromStart hneeded
  have hblock : 0 < stream.packetSize := Nat.mul_pos (by decide) hbytes
  have htime := hs.timestamp_eq hcontiguous
  have hroom : s.processor.pcmBuffer.length + audio.length ≤ s.processor.pcmBufferSize := by
    refine le_trans ?_ hs.roomy
    unfold Stream.initialPcmBufferSize
    unfold Stream.packetSize at hfew
    rw [Nat.add_mul]
    omega
  have hbuffer := acceptBlock_pcmBuffer_of_current hs.idle houtdated hsoon bytes
  have hpoint' : (s.processor.acceptBlock stream rd bytes).pcmBufferReadPoint = 0 := by
    change (if (s.processor.acceptBlock stream rd bytes).pcmBuffer.length = 0 then 0
      else s.processor.pcmBufferReadPoint) = 0
    rw [hpoint, ite_self]
  have htime' : (s.processor.acceptBlock stream rd bytes).pcmBufferReadPointRtptime =
      if s.processor.pcmBuffer.length = 0 then timestamp
      else s.processor.pcmBufferReadPointRtptime := by
    rw [← hbuffer, htimestamp]
    rfl
  obtain ⟨size, decoder, hsize, heq⟩ := processBlock_of_needed hs.idle hneeded houtdated hsoon
    flushUntilSeq haudio hroom
  rw [heq]
  refine
    { handedOver := ?_
      whole := ?_
      heldBack := ?_
      idle := hs.idle
      inSequence := congrArg Nat.succ hs.inSequence
      offset := hs.offset
      roomy := le_trans hs.roomy hsize
      readPoint_dvd := ?_
      readPoint_le := ?_
      wholeFrames := ?_
      readPointTime := fun _ => ?_
      expected := fun _ => ?_
      noBlock := fun h => absurd h (Nat.succ_ne_zero _)
      needed := hs.needed }
  · exact hs.handedOver_append hblock timestamp audio
  · dsimp only
    rw [List.length_append]
    exact le_trans hs.whole (Nat.le_add_right _ _)
  · dsimp only
    rw [hpoint', List.drop_zero, List.drop_append_of_le_length hs.whole, ← hs.heldBack, hpoint,
      List.drop_zero]
  · dsimp only
    rw [hpoint']
    exact dvd_zero _
  · dsimp only
    rw [hpoint']
    exact Nat.zero_le _
  · dsimp only
    rw [List.length_append]
    exact Nat.dvd_add hs.wholeFrames hwhole
  · dsimp only
    rw [htime']
    exact hs.time_of_fromStart hpoint hbytes hcontiguous
  · dsimp only
    rw [List.length_append, Nat.add_div_of_dvd_right hs.wholeFrames, BitVec.ofNat_add, ← add_assoc,
      ← htime]

theorem supplyPlayer_packet_frame (stream : Stream) (rd : LoopReadings) (p : Processor σ) :
    (supplyPlayer stream rd p).1.packet = p.packet ∧
      (supplyPlayer stream rd p).1.blocksRead = p.blocksRead := by
  obtain ⟨_, _, _, _, _, heq⟩ := supplyPlayer_frame stream rd p
  rw [heq]
  exact ⟨rfl, rfl⟩

def Session.playing (s : Session σ) : Session σ :=
  { s with processor := { s.processor with playEnabled := true } }

theorem Session.Inv.playing (hs : s.Inv stream) : s.playing.Inv stream :=
  { hs with
    handedOver := hs.handedOver
    whole := hs.whole
    heldBack := hs.heldBack }

/-- The look and the supply of a turn that is in order. -/
theorem turn_of_inOrder (hs : s.Inv stream) (horder : s.TurnInOrder stream codec rd) :
    look s.conn s.processor = ⟨s.conn, s.playing.processor, false, []⟩ ∧
      s.beforeBlock stream rd = (supplyPlayer stream rd s.playing.processor).1 ∧
      BufferedAudio.turn stream codec rd s.conn s.processor =
        (s.conn,
          readBlock stream codec s.conn.ap2FlushUntilSequenceNumber false rd
            (supplyPlayer stream rd s.playing.processor).1,
          (supplyPlayer stream rd s.playing.processor).2) := by
  have hlook := look_of_playing horder.noFlush horder.playing hs.idle
  have hidle : ¬ ({ s.processor with playEnabled := true } : Processor σ).flushRequested = true :=
    Bool.eq_false_iff.mp hs.idle
  refine ⟨hlook, ?_, ?_⟩
  · unfold System.beforeBlock
    rw [hlook]
    exact if_neg hidle
  · unfold BufferedAudio.turn
    rw [hlook]
    dsimp only
    rw [if_neg hidle]
    rfl

/-- A turn reads no block, or the one it goes on to process. -/
theorem blockRead_cases (stream : Stream) (codec : Codec σ) (flushUntilSeq : BitVec 32)
    (flushIsDelayed : Bool) (rd : LoopReadings) (s : System σ) :
    s.blockRead stream rd = none ∧
        (∃ finished, readBlock stream codec flushUntilSeq flushIsDelayed rd
          (s.beforeBlock stream rd) = { s.beforeBlock stream rd with finished := finished }) ∨
      ∃ bytes, s.blockRead stream rd = some bytes ∧
        ((s.beforeBlock stream rd).flushRequested || (s.beforeBlock stream rd).newBufferNeeded) ∧
        readBlock stream codec flushUntilSeq flushIsDelayed rd (s.beforeBlock stream rd) =
          processBlock stream codec flushUntilSeq flushIsDelayed rd bytes
            (s.beforeBlock stream rd) := by
  unfold System.blockRead readBlock
  split_ifs with hneeded
  · rcases rd.received with _ | _ | ⟨byte, bytes⟩
    · exact Or.inl ⟨rfl, _, rfl⟩
    · exact Or.inl ⟨rfl, true, rfl⟩
    · exact Or.inr ⟨byte :: bytes, rfl, hneeded, rfl⟩
  · exact Or.inl ⟨rfl, _, rfl⟩

/-- What a turn keeps. -/
theorem Session.Inv.turn (hs : s.Inv stream) (hbytes : 0 < stream.inputBytesPerFrame)
    (horder : s.TurnInOrder stream codec rd)
    (hoccupancy : rd.playerBufferOccupancy ≤ s.playerBufferOccupancy) :
    (s.turn stream codec rd).Inv stream := by
  obtain ⟨-, hbefore, hturn⟩ := turn_of_inOrder hs horder
  have hsupplied := hs.playing.supply horder.lead rfl (Nat.mul_pos (by decide) hbytes) hoccupancy
  have hcases := blockRead_cases stream codec s.conn.ap2FlushUntilSequenceNumber false rd
    s.toSystem
  rw [hbefore] at hcases
  unfold Session.turn System.turn
  rw [hturn]
  dsimp only
  rcases hcases with ⟨hnone, finished, hread⟩ | ⟨bytes, hsome, hneeded, hread⟩
  · rw [hnone, hread]
    exact { hsupplied.toInv with
      handedOver := hsupplied.handedOver
      whole := hsupplied.whole
      heldBack := hsupplied.heldBack }
  · have hblock := horder.block bytes hsome
    have hidle : (supplyPlayer stream rd s.playing.processor).1.flushRequested = false :=
      hsupplied.idle
    rw [hidle, Bool.false_or] at hneeded
    obtain ⟨hpacket, hblocks⟩ := supplyPlayer_packet_frame stream rd s.playing.processor
    have hbuffers : (s.sampleBuffers stream codec rd bytes).flatten =
        (decodeBlock stream codec
          ((supplyPlayer stream rd s.playing.processor).1.acceptBlock stream rd bytes).packet
          bytes.length
          ((supplyPlayer stream rd s.playing.processor).1.acceptBlock stream rd
            bytes).codec).2.flatten := by
      unfold System.sampleBuffers System.withBlock
      rw [hbefore]
    have haudio : s.toSystem.blockAudio stream codec rd bytes =
        (s.sampleBuffers stream codec rd bytes).flatten := by
      refine if_pos ?_
      unfold System.withBlock
      rw [hbefore]
      exact ⟨Or.inr ⟨Bool.eq_false_iff.mp hidle, hneeded⟩, Bool.eq_false_iff.mp hblock.notTooSoon⟩
    have htimestamp : blockTimestamp (overwrite bytes s.processor.packet) =
        blockTimestamp (overwrite bytes (supplyPlayer stream rd s.playing.processor).1.packet) := by
      rw [hpacket]
      rfl
    have hadded := hsupplied.block hneeded hbytes hblock.notOutdated hblock.notTooSoon
      s.conn.ap2FlushUntilSequenceNumber hbuffers htimestamp hblock.whole hblock.le
      fun h => hblock.contiguous (hblocks ▸ h)
    have hfirst : (s.playing.supplied rd
        (supplyPlayer stream rd s.playing.processor)).processor.blocksRead =
          s.processor.blocksRead := hblocks
    rw [hfirst] at hadded
    rw [hsome, hread]
    unfold Session.noteBlock
    dsimp only
    rw [haudio]
    exact { hadded with
      handedOver := hadded.handedOver
      whole := hadded.whole
      heldBack := hadded.heldBack }

/-- The invariant does not look at the connection. -/
theorem Session.Inv.withConn (hs : s.Inv stream) (conn : Conn) :
    ({ s with conn := conn } : Session σ).Inv stream :=
  { hs with
    handedOver := hs.handedOver
    whole := hs.whole
    heldBack := hs.heldBack }

theorem step_turn (hstep : s.step stream codec (.turn rd) = some t) :
    rd.playerBufferOccupancy ≤ s.playerBufferOccupancy ∧ t = s.turn stream codec rd := by
  unfold Session.step at hstep
  dsimp only at hstep
  split_ifs at hstep with hnot
  exact ⟨not_lt.mp fun hless => hnot (Or.inr hless), (Option.some.inj hstep).symm⟩

theorem Session.Inv.step (hs : s.Inv stream) (hbytes : 0 < stream.inputBytesPerFrame) {l : Label}
    (horder : s.InOrder stream codec l) (hstep : s.step stream codec l = some t) :
    t.Inv stream := by
  cases l with
  | flushBuffered items =>
      obtain rfl := Option.some.inj hstep
      exact hs.withConn _
  | setRate rate =>
      obtain rfl := Option.some.inj hstep
      exact hs.withConn _
  | turn rd =>
      obtain ⟨hoccupancy, rfl⟩ := step_turn hstep
      exact hs.turn hbytes horder hoccupancy

/-- A move-down moves less than a packet, over at least one packet. -/
theorem Session.Inv.keepsFrames (hs : s.Inv stream) (hbytes : 0 < stream.inputBytesPerFrame)
    (horder : s.TurnInOrder stream codec rd)
    (hoccupancy : rd.playerBufferOccupancy ≤ s.playerBufferOccupancy) :
    s.KeepsFrames stream rd := by
  obtain ⟨hlook, hbefore, -⟩ := turn_of_inOrder hs horder
  have hsupplied := hs.playing.supply horder.lead rfl (Nat.mul_pos (by decide) hbytes) hoccupancy
  refine ⟨?_, fun hneeded => ?_⟩
  · rintro ⟨-, -, hfew, hpoint⟩
    rw [hlook] at hfew hpoint ⊢
    have hpacket : stream.packetSize ≤ s.processor.pcmBufferReadPoint :=
      Nat.le_of_dvd (Nat.pos_of_ne_zero hpoint) hs.readPoint_dvd
    change s.processor.pcmBuffer.length - s.processor.pcmBufferReadPoint ≤
      s.processor.pcmBufferReadPoint
    change s.processor.pcmBuffer.length <
      s.processor.pcmBufferReadPoint + stream.packetSize at hfew
    omega
  · rw [hbefore] at hneeded ⊢
    obtain ⟨hpoint, hfew⟩ := hsupplied.fromStart hneeded
    exact lt_of_lt_of_le hfew (Nat.le_add_left _ _)

end Invariant

/-- In every run with no flush, play enabled, a valid clock and lead times in range, whose blocks
are of 1 to 1024 frames each and follow one another, the packets that are handed over are the
pieces of 352 frames of the audio, in order and with their timestamps, and what is left of it is in
the pcm buffer. No memcpy of a move-down overlaps, and less than 352 frames are held back when a
block is requested. -/
theorem repacketising_lossless {σ : Type} (stream : Stream) (codec : Codec σ)
    (hbytes : 0 < stream.inputBytesPerFrame) (memory : Bytes) (c : σ) (conn : Conn)
    (playerBufferOccupancy : ℕ) (labels : List Label)
    (horder : Along (Session.step stream codec) (Session.InOrder stream codec)
      (.start stream memory c conn playerBufferOccupancy) labels) :
    Throughout (Session.step stream codec) (Session.Repacketised stream)
        (.start stream memory c conn playerBufferOccupancy) labels ∧
      Along (Session.step stream codec) (Session.KeepsFramesAt stream)
        (.start stream memory c conn playerBufferOccupancy) labels := by
  have hstart : (Session.start stream memory c conn playerBufferOccupancy).Inv stream :=
    inv_start memory c conn playerBufferOccupancy
  have hstep : ∀ s l t, s.Inv stream → s.InOrder stream codec l →
      Session.step stream codec s l = some t → t.Inv stream :=
    fun s l t hs horder hstep => hs.step hbytes horder hstep
  have henabled := along_of_throughout (Q := fun _ : Session σ => True)
    (fun s l t (h : Session.step stream codec s l = some t) _ =>
      (⟨t, h⟩ : ∃ t, Session.step stream codec s l = some t))
    (throughout_true (.start stream memory c conn playerBufferOccupancy) labels)
  refine ⟨(throughout_of_step hstep hstart horder).mono fun s hs => hs.toRepacketised, ?_⟩
  refine along_of_step (fun s l t hs h hlt => hstep s l t hs h.1 hlt) ?_ hstart
    (horder.and henabled)
  rintro s l hs ⟨horder, t, hlt⟩
  cases l with
  | flushBuffered items => trivial
  | setRate rate => trivial
  | turn rd => exact hs.keepsFrames hbytes horder (step_turn hlt).1

/-! ## The buffer of the player -/

def putPackets (decode : Player.PacketDecoder) (timeNow : Player.Nanoseconds)
    (player : Player.ConnInfo) (packets : List PutArgs) : Player.ConnInfo :=
  packets.foldl (fun player a => (Player.playerPutPacketStore decode timeNow a player).1) player

/-- A turn hands over one packet at most, and its audio has been decoded. -/
theorem turn_packets (stream : Stream) (codec : Codec σ) (rd : LoopReadings) (conn : Conn)
    (p : Processor σ) :
    (turn stream codec rd conn p).2.2.filterMap Output.packet? = [] ∨
      ∃ a : PutArgs, a.originalFormat = false ∧
        (turn stream codec rd conn p).2.2.filterMap Output.packet? = [a] := by
  have hlook : (look conn p).outputs.filterMap Output.packet? = [] := by
    rw [List.filterMap_eq_nil_iff]
    intro output hmem
    rcases List.mem_append.mp hmem with hmem | hmem <;> split_ifs at hmem <;>
      first
        | exact absurd hmem List.not_mem_nil
        | exact List.mem_singleton.mp hmem ▸ rfl
  have hoffer : ∀ q : Processor σ, (q.offerPacket stream rd).2.filterMap Output.packet? = [] ∨
      ∃ a : PutArgs, a.originalFormat = false ∧
        (q.offerPacket stream rd).2.filterMap Output.packet? = [a] := by
    intro q
    unfold Processor.offerPacket
    split_ifs
    · split
      · exact .inl rfl
      · dsimp only
        split_ifs
        · exact .inr ⟨_, rfl, rfl⟩
        · exact .inl rfl
    · exact .inl rfl
  unfold turn
  dsimp only
  rw [List.filterMap_append, hlook, List.nil_append]
  split_ifs
  · exact .inl rfl
  · unfold supplyPlayer
    split_ifs
    · exact .inl rfl
    · exact hoffer _
    · exact .inl rfl

/-- If a turn reads what the player reports of its buffer, then what the player reports when it has
the packets of the turn is not more than the session says. -/
theorem Session.reportedOccupancy_le_turn (s : Session σ) {rd : LoopReadings}
    {player : Player.ConnInfo} (hfits : player.toAudioRing.Fits)
    (hread : (Player.getAudioBufferSizeAndOccupancy player).2.toNat = rd.playerBufferOccupancy)
    (decode : Player.PacketDecoder) (timeNow : Player.Nanoseconds) :
    (Player.getAudioBufferSizeAndOccupancy (putPackets decode timeNow player
        ((BufferedAudio.turn stream codec rd s.conn s.processor).2.2.filterMap
          Output.packet?))).2.toNat ≤
      (s.turn stream codec rd).playerBufferOccupancy := by
  change _ ≤ rd.playerBufferOccupancy +
    ((BufferedAudio.turn stream codec rd s.conn s.processor).2.2.filterMap Output.packet?).length
  rw [← hread]
  rcases turn_packets stream codec rd s.conn s.processor with hnone | ⟨a, ha, hone⟩
  · rw [hnone]
    exact le_rfl
  · rw [hone]
    exact Player.reportedOccupancy_put_le decode timeNow ha hfits

def Codec.silent : Codec Unit where
  decrypt := fun _ _ _ ciphertext => some ciphertext
  decode := fun c _ => (c, [List.replicate 1600 0])

/-- A turn with a valid clock, which finds a block with this timestamp. -/
def Label.blockAt (timestamp : BitVec 16) : Label :=
  .turn
    { playerBufferOccupancy := 0
      havePtpTimingInformation := true
      bufferShouldBeTime := some 1000000000
      sendTimeNow := 0
      zeroFrames := []
      received := some
        ([0x80, 0, 0, 0, 0, 0, timestamp.extractLsb' 8 8, timestamp.extractLsb' 0 8, 0, 0, 0, 0] ++
          [1, 2, 3, 4] ++ List.replicate 8 0)
      localShouldBeTime := none
      connectionTimeNow := 0
      blockTimeNow := 0 }

/-- Two blocks of 400 frames, and a packet from each. -/
theorem repacketising_lossless_of_two_blocks :
    Throughout (Session.step .plain .silent) (Session.Repacketised .plain)
        (.start .plain [] () { Conn.idle with ap2PlayEnabled := true } 0)
        [.blockAt 256, .blockAt 0, .blockAt 656, .blockAt 0] ∧
      Along (Session.step .plain .silent) (Session.KeepsFramesAt .plain)
        (.start .plain [] () { Conn.idle with ap2PlayEnabled := true } 0)
        [.blockAt 256, .blockAt 0, .blockAt 656, .blockAt 0] :=
  repacketising_lossless .plain .silent (by decide) [] () _ 0 _ (by decide +kernel)

end BufferedAudio

end ShairportSync
