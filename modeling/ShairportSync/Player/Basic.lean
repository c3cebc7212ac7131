import ShairportSync.SerialNumber.Ring

/-!
# The jitter buffer of a connection

The part of `rtsp_conn_info` that `player_put_packet` and `buffer_get_frame` work on:
the ring of audio buffer entries with its two 16-bit serial indices, the pending flush
request and the counters beside them. Fields keep the source's words; a C integer used
as a flag is a `Bool`, the fixed-width integers are bit vectors, the counters that
only ever count up are natural numbers.

Both sides of the buffer record what they do as a list of `Event`s, the moments at which
the source writes its debug lines.
-/

namespace ShairportSync

namespace Player

open SerialNumber

abbrev SeqT := BitVec 16

abbrev RtpTime := BitVec 32

abbrev Nanoseconds := BitVec 64

abbrev Bytes := List (BitVec 8)

abbrev bufferFrames : ℕ := 1024

def bufidx (seqno : SeqT) : Fin bufferFrames := slot bufferFrames seqno

/-- `is_after`: the second number is strictly after the first. -/
def isAfter (a b : SeqT) : Bool := 0 < (b - a).toInt

/-- The decoded audio of one packet: what the player is given to play. -/
structure Packet where
  timestamp : RtpTime
  length : Int
  data : Bytes
deriving DecidableEq

def Packet.lastFrame (p : Packet) : RtpTime :=
  p.timestamp + BitVec.ofInt 32 p.length - 1

structure AudioBufferEntry where
  ready : Bool
  status : BitVec 8
  resendRequestNumber : BitVec 16
  data : Bytes
  sequenceNumber : SeqT
  initialisationTime : Nanoseconds
  resendTime : Nanoseconds
  givenTimestamp : RtpTime
  length : Int
deriving DecidableEq

/-- The packet an entry holds, if it is ready. -/
def AudioBufferEntry.packet (abuf : AudioBufferEntry) : Packet where
  timestamp := abuf.givenTimestamp
  length := abuf.length
  data := abuf.data

def AudioBufferEntry.content (abuf : AudioBufferEntry) : Option (SeqT × Packet) :=
  if abuf.ready then some (abuf.sequenceNumber, abuf.packet) else none

/-- The ring of entries and its window `[abRead, abWrite)`. -/
structure AudioRing where
  audioBuffer : Fin bufferFrames → AudioBufferEntry
  abRead : SeqT
  abWrite : SeqT
  abSynced : Bool

/-- The pending flush request, protected by `flush_mutex`. -/
structure FlushRequest where
  flushRequested : Bool
  flushOutputFlushed : Bool
  flushRtpTimestamp : RtpTime
deriving DecidableEq

/-- The fields of `rtsp_conn_info` that the two sides of the buffer read and write.
`first_packet_timestamp` is an `int64_t` that only ever holds a 32-bit timestamp. -/
structure ConnInfo extends AudioRing, FlushRequest where
  abBuffering : Bool
  firstPacketTimestamp : RtpTime
  firstPacketTimeToPlay : Nanoseconds
  timeSincePlayStarted : Int
  packetCount : ℕ
  packetCountSinceFlush : ℕ
  timeOfLastAudioPacket : Nanoseconds
  connectionStateToOutput : Int
  lastSeqnoRead : Int
  missingPackets : ℕ
  latePackets : ℕ
  tooLatePackets : ℕ
  resendRequests : ℕ
  inputFrameRateStartingPointIsValid : Bool
  framesInwardMeasurementStartTime : Nanoseconds
  framesInwardFramesReceivedAtMeasurementStartTime : RtpTime
  framesInwardMeasurementTime : Nanoseconds
  framesInwardFramesReceivedAtMeasurementTime : RtpTime
  initialReferenceTime : Nanoseconds
  initialReferenceTimestamp : RtpTime
  playNumberAfterFlush : Int
  maxFramesPerPacket : ℕ
  inputRate : ℕ
  inputBytesPerFrame : ℕ
  latency : BitVec 32
  /-- `config.unfixable_error_reported`. -/
  unfixableErrorReported : Bool

def AudioRing.entry (ring : AudioRing) (seqno : SeqT) : AudioBufferEntry :=
  ring.audioBuffer (bufidx seqno)

/-- `(int16_t)(ab_write - ab_read)`, the occupancy in serial arithmetic. -/
def AudioRing.occupancy (ring : AudioRing) : Int := (ring.abWrite - ring.abRead).toInt

/-- `ab_write - ab_read`, the same difference taken in C's `int` arithmetic. -/
def AudioRing.intDifference (ring : AudioRing) : Int :=
  (ring.abWrite.toNat : Int) - ring.abRead.toNat

/-- What the player and the receivers do to the buffer, in the order they do it. -/
inductive Event where
  /-- The buffer was synced by this first sequence number. -/
  | synced (seqno : SeqT)
  /-- A packet was accepted for this number. -/
  | stored (seqno : SeqT) (packet : Packet)
  /-- A packet that does not decode arrived for this number. -/
  | discarded (seqno : SeqT)
  /-- `ab_resync`. -/
  | resynced
  /-- A complete packet before the flush frame was dropped. -/
  | flushed (seqno : SeqT)
  /-- The frames before the flush frame were removed from this packet. -/
  | trimmed (seqno : SeqT) (flushFrame : RtpTime) (bytesPerFrame : ℕ)
  /-- A packet was dropped because this was the frame that should be playing. -/
  | outOfDate (seqno : SeqT) (shouldBeFrame : RtpTime)
  /-- A number was passed because its slot was empty or not ready. -/
  | emptyOrNotReady (seqno : SeqT)
  /-- "Aliasing of buffer index -- reset." -/
  | aliasing (seqno found : SeqT)
  /-- "Inconsistent sequence numbers detected" -/
  | inconsistent (seqno found : SeqT)
  /-- The player was given this ready entry. -/
  | supplied (seqno : SeqT) (frame : AudioBufferEntry)
  /-- The player was given this entry to play silence for. -/
  | silent (seqno : SeqT) (frame : AudioBufferEntry)
deriving DecidableEq

/-- One of the two branches for an entry that is not of the number `abRead`. -/
def Event.isSequenceError : Event → Bool
  | .aliasing _ _ => true
  | .inconsistent _ _ => true
  | _ => false

/-- What `buffer_get_frame` asks of the output back end. -/
inductive OutputCall where
  | flush
  | playSilence (frames : Int)
  | commandUnfixable
  | die
deriving DecidableEq

/-- The settings of `config` used here. The times are those the source converts to
integers from `double` settings before it uses them. -/
structure Config where
  /-- `config.output->flush` is provided. -/
  outputFlush : Bool
  /-- `config.output->delay` is provided. -/
  outputDelay : Bool
  /-- `config.output->is_running` is provided. -/
  outputIsRunning : Bool
  outputRate : ℕ
  audioBackendSilentLeadInTimeAuto : Bool
  /-- `audio_backend_silent_lead_in_time` in nanoseconds. -/
  audioBackendSilentLeadInTime : Int
  /-- `audio_backend_buffer_desired_length` in output frames. -/
  audioBackendBufferDesiredFrames : Int
  /-- `audio_backend_buffer_desired_length` in input frames. -/
  bufferLatencyOffset : RtpTime
  cmdUnfixable : Bool
  disableResendRequests : Bool
  minimumWaitTime : Nanoseconds
  resendRepeatInterval : Nanoseconds
  minimumRemainingTime : Nanoseconds

def memcpy (dest src : Bytes) (n : ℕ) : Bytes := src.take n ++ dest.drop n

/-- What `ab_resync` does to one entry. -/
def AudioBufferEntry.resync (abuf : AudioBufferEntry) : AudioBufferEntry :=
  { abuf with
    ready := false
    resendRequestNumber := 0
    resendTime := 0
    initialisationTime := 0
    sequenceNumber := 0 }

def abResync (conn : ConnInfo) : ConnInfo :=
  { conn with
    audioBuffer := fun i => (conn.audioBuffer i).resync
    abSynced := false
    lastSeqnoRead := -1
    abBuffering := true }

def resetInputFlowMetrics (conn : ConnInfo) : ConnInfo :=
  { conn with
    playNumberAfterFlush := 0
    packetCountSinceFlush := 0
    inputFrameRateStartingPointIsValid := false
    initialReferenceTime := 0
    initialReferenceTimestamp := 0 }

/-- `do_flush`: flush all packets up to, but not including, this frame. -/
def doFlush (timestamp : RtpTime) (conn : ConnInfo) : ConnInfo :=
  resetInputFlowMetrics
    { conn with
      flushRequested := true
      flushRtpTimestamp := timestamp }

/-- `get_audio_buffer_size_and_occupancy`. The occupancy is an `int16_t` stored in an
`unsigned int`. -/
def getAudioBufferSizeAndOccupancy (conn : ConnInfo) : BitVec 32 × BitVec 32 :=
  (BitVec.ofNat 32 bufferFrames,
    if conn.abSynced then (conn.abWrite - conn.abRead).signExtend 32 else 0)

theorem add_one_add_ofNat (r : SeqT) (i : ℕ) :
    r + 1 + BitVec.ofNat 16 i = r + BitVec.ofNat 16 (i + 1) := by
  rw [Nat.add_comm i 1, BitVec.ofNat_add, ← BitVec.add_assoc]
  rfl

theorem content_eq_none_iff {abuf : AudioBufferEntry} :
    abuf.content = none ↔ abuf.ready = false := by
  cases h : abuf.ready <;> simp [AudioBufferEntry.content, h]

theorem content_of_ready {abuf : AudioBufferEntry} (h : abuf.ready = true) :
    abuf.content = some (abuf.sequenceNumber, abuf.packet) := by
  simp [AudioBufferEntry.content, h]

theorem bufferFrames_dvd : bufferFrames ∣ 2 ^ 16 := by decide

end Player

end ShairportSync
