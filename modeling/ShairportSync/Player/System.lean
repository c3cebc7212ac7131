import ShairportSync.Player.PutPacket
import ShairportSync.Player.GetFrame
import ShairportSync.Transition.Run

/-!
# The buffer under its threads

The player thread goes round the loop of `buffer_get_frame`, plays the frame it is
handed and marks it as finished, outside the mutex. The receiver threads put packets;
a receiver that is sending a resend request has released the mutex in the middle of its
scan. Any thread may resync the buffer or ask for a flush. `step` is one of these
actions, each under one hold of `ab_mutex`, and a run is any interleaving of them.

`held` reads the log of events as an abstract buffer: a map from the sequence numbers
to the packets that have been accepted for them and have not left the buffer.
-/

namespace ShairportSync

namespace Player

open SerialNumber Transition

inductive PlayerThread where
  /-- In the loop of `buffer_get_frame`. -/
  | getting (loop : FrameLoop)
  /-- Playing the frame in this slot, which it was handed last. -/
  | playing (frame : Fin bufferFrames)
deriving DecidableEq

structure System where
  conn : ConnInfo
  /-- The global `first_possibly_missing_frame`. -/
  firstPossiblyMissingFrame : Int
  player : PlayerThread
  /-- The receiver threads that are sending a resend request. -/
  resending : ℕ → Option ResendScan
  log : List Event
  calls : List OutputCall

inductive Label where
  /-- A receiver thread calls `player_put_packet`. -/
  | put (thread : ℕ) (timeNow : Nanoseconds) (a : PutArgs)
  /-- A receiver thread has sent its resend request. -/
  | resent (thread : ℕ)
  /-- An iteration of `buffer_get_frame`, with the hand-out if it does not wait. -/
  | get (rd : Readings)
  /-- The player thread is done with its frame; `played` says that the frame was played,
  not replaced by silence. -/
  | finish (played : Bool)
  /-- `ab_resync` from another thread; `linkResumed` says it is a resumed RTSP link. -/
  | resync (linkResumed : Bool)
  /-- `do_flush`. -/
  | flush (timestamp : RtpTime)

/-- "mark the frame as finished". -/
def AudioBufferEntry.finish (abuf : AudioBufferEntry) : AudioBufferEntry :=
  { abuf with
    givenTimestamp := 0
    sequenceNumber := 0
    resendTime := 0
    initialisationTime := 0 }

def System.afterScan (s : System) (thread : ℕ) : ResendOutcome → System
  | .finished st =>
      { s with
        conn := st.conn
        firstPossiblyMissingFrame := st.firstPossiblyMissingFrame
        resending := Function.update s.resending thread none }
  | .requesting _ _ st scan =>
      { s with
        conn := st.conn
        firstPossiblyMissingFrame := st.firstPossiblyMissingFrame
        resending := Function.update s.resending thread (some scan) }

/-- `player_put_packet`, up to its first resend request. -/
def System.put (cfg : Config) (decode : PacketDecoder) (s : System) (thread : ℕ)
    (timeNow : Nanoseconds) (a : PutArgs) : System :=
  let stored := playerPutPacketStore decode timeNow a s.conn
  let s' := { s with conn := stored.1, log := s.log ++ stored.2 }
  if stored.1.connectionStateToOutput = 0 then s'
  else
    s'.afterScan thread
      (startResendScan cfg timeNow s.firstPossiblyMissingFrame stored.1)

/-- The rest of `player_put_packet` after a resend request. -/
def System.resent (cfg : Config) (s : System) (thread : ℕ) (scan : ResendScan) : System :=
  s.afterScan thread (continueResendScan cfg scan ⟨s.conn, s.firstPossiblyMissingFrame⟩)

def System.get (cfg : Config) (rd : Readings) (s : System) (loop : FrameLoop) : System :=
  let iteration := bufferGetFrameIteration cfg rd s.conn loop
  if iteration.1 then
    { s with
      conn := iteration.2.conn
      player := .getting iteration.2.loop
      log := s.log ++ iteration.2.events
      calls := s.calls ++ iteration.2.calls }
  else
    let pr := handOut iteration.2
    { s with
      conn := pr.conn
      player := match pr.loop.curframe with
        | some i => .playing i
        | none => .getting .start
      log := s.log ++ pr.events
      calls := s.calls ++ pr.calls }

/-- The player thread goes back to `buffer_get_frame`. -/
def System.finish (s : System) (frame : Fin bufferFrames) (played : Bool) : System :=
  { s with
    conn :=
      if played then
        { s.conn with
          audioBuffer := Function.update s.conn.audioBuffer frame
            (s.conn.audioBuffer frame).finish }
      else s.conn
    player := .getting .start }

def System.resync (s : System) (linkResumed : Bool) : System :=
  { s with
    conn :=
      if linkResumed then
        { abResync s.conn with
          firstPacketTimestamp := 0
          inputFrameRateStartingPointIsValid := false }
      else abResync s.conn
    log := s.log ++ [.resynced] }

def step (cfg : Config) (decode : PacketDecoder) (s : System) : Label → Option System
  | .put thread timeNow a =>
      match s.resending thread with
      | some _ => none
      | none => some (s.put cfg decode thread timeNow a)
  | .resent thread => (s.resending thread).map (s.resent cfg thread)
  | .get rd =>
      match s.player with
      | .getting loop => some (s.get cfg rd loop)
      | .playing _ => none
  | .finish played =>
      match s.player with
      | .playing frame => some (s.finish frame played)
      | .getting _ => none
  | .resync linkResumed => some (s.resync linkResumed)
  | .flush timestamp => some { s with conn := doFlush timestamp s.conn }

section StepCases

variable {cfg : Config} {decode : PacketDecoder} {s t : System}

theorem step_put_eq_some_iff {thread : ℕ} {timeNow : Nanoseconds} {a : PutArgs} :
    step cfg decode s (.put thread timeNow a) = some t ↔
      s.resending thread = none ∧ s.put cfg decode thread timeNow a = t := by
  cases h : s.resending thread <;> simp [step, h]

theorem step_resent_eq_some_iff {thread : ℕ} :
    step cfg decode s (.resent thread) = some t ↔
      ∃ scan, s.resending thread = some scan ∧ s.resent cfg thread scan = t :=
  Option.map_eq_some_iff

theorem step_get_eq_some_iff {rd : Readings} :
    step cfg decode s (.get rd) = some t ↔
      ∃ loop, s.player = .getting loop ∧ s.get cfg rd loop = t := by
  cases h : s.player <;> simp [step, h]

theorem step_finish_eq_some_iff {played : Bool} :
    step cfg decode s (.finish played) = some t ↔
      ∃ frame, s.player = .playing frame ∧ s.finish frame played = t := by
  cases h : s.player <;> simp [step, h]

end StepCases

/-- What `player_thread_func` sets before its loop, on the connection it is given. -/
def playerThreadStart (conn : ConnInfo) : ConnInfo :=
  abResync
    { conn with
      packetCount := 0
      packetCountSinceFlush := 0
      abBuffering := true
      abSynced := false
      firstPacketTimestamp := 0
      flushRequested := false
      flushOutputFlushed := false
      flushRtpTimestamp := 0
      missingPackets := 0
      latePackets := 0
      tooLatePackets := 0
      resendRequests := 0 }

def System.start (conn : ConnInfo) (firstPossiblyMissingFrame : Int) : System where
  conn := playerThreadStart conn
  firstPossiblyMissingFrame := firstPossiblyMissingFrame
  player := .getting .start
  resending := fun _ => none
  log := []
  calls := []

/-- A connection whose memory has been cleared, prepared for a stream of CD audio while
the output is on. -/
def ConnInfo.fresh : ConnInfo where
  audioBuffer _ := ⟨false, 0, 0, [], 0, 0, 0, 0, 0⟩
  abRead := 0
  abWrite := 0
  abSynced := false
  flushRequested := false
  flushOutputFlushed := false
  flushRtpTimestamp := 0
  abBuffering := false
  firstPacketTimestamp := 0
  firstPacketTimeToPlay := 0
  timeSincePlayStarted := 0
  packetCount := 0
  packetCountSinceFlush := 0
  timeOfLastAudioPacket := 0
  connectionStateToOutput := 1
  lastSeqnoRead := 0
  missingPackets := 0
  latePackets := 0
  tooLatePackets := 0
  resendRequests := 0
  inputFrameRateStartingPointIsValid := false
  framesInwardMeasurementStartTime := 0
  framesInwardFramesReceivedAtMeasurementStartTime := 0
  framesInwardMeasurementTime := 0
  framesInwardFramesReceivedAtMeasurementTime := 0
  initialReferenceTime := 0
  initialReferenceTimestamp := 0
  playNumberAfterFlush := 0
  maxFramesPerPacket := 352
  inputRate := 44100
  inputBytesPerFrame := 4
  latency := 88200
  unfixableErrorReported := false

/-- An output back end that can only play. -/
def Config.playOnly : Config where
  outputFlush := false
  outputDelay := false
  outputIsRunning := false
  outputRate := 44100
  audioBackendSilentLeadInTimeAuto := true
  audioBackendSilentLeadInTime := 0
  audioBackendBufferDesiredFrames := 6615
  bufferLatencyOffset := 6615
  cmdUnfixable := false
  disableResendRequests := false
  minimumWaitTime := 100000000
  resendRepeatInterval := 250000000
  minimumRemainingTime := 100000000

def maxPacket : ℕ := 2048

/-- `*dest = ntohs(*source)` for every two bytes of the source. -/
def swapSamples : Bytes → Bytes
  | a :: b :: source => b :: a :: swapSamples source
  | _ => []

/-- `audio_packet_decode` for an uncompressed stream of four-byte frames that is not encrypted.
What does not fit in the slot is cut off, and the answer is 0 all the same. -/
def PacketDecoder.pcm : PacketDecoder := fun dest destlen buf =>
  if maxPacket < buf.length then ⟨-1, destlen, dest⟩
  else
    let lengthToUse := min buf.length (4 * destlen)
    ⟨0, (lengthToUse / 4 : ℕ), memcpy dest (swapSamples buf) (lengthToUse / 2 * 2)⟩

/-- The readings of an iteration at time `now`, when the frame `shouldBeFrame` should be
playing and every frame is due at `timeToPlay`. -/
def Readings.at (now : Nanoseconds) (shouldBeFrame : RtpTime) (timeToPlay : Nanoseconds) :
    Readings where
  localTimeNow := now
  haveTimestampTimingInformation := true
  requestedConnectionStateToOutput := 1
  isRunning := 0
  localTimeToFrame _ _ := shouldBeFrame
  frameToLocalTime _ _ := timeToPlay
  delayResponse := 0
  dacDelay := 0
  haveTimingAtRelease := true

def PutArgs.original (seqno : SeqT) (timestamp : RtpTime) (data : Bytes) : PutArgs where
  originalFormat := true
  seqno := seqno
  actualTimestamp := timestamp
  data := data
  len := data.length

/-! ## The abstract buffer -/

/-- The packets that have been accepted and are still waiting to leave. -/
abbrev Held := SeqT → Option Packet

def Held.apply (held : Held) : Event → Held
  | .synced _ => fun _ => none
  | .resynced => fun _ => none
  | .stored seqno packet => Function.update held seqno (some packet)
  | .discarded seqno => Function.update held seqno none
  | .flushed seqno => Function.update held seqno none
  | .trimmed seqno flushFrame bytesPerFrame =>
      Function.update held seqno ((held seqno).map (Packet.trim bytesPerFrame flushFrame))
  | .outOfDate seqno _ => Function.update held seqno none
  | .emptyOrNotReady seqno => Function.update held seqno none
  | .supplied seqno _ => Function.update held seqno none
  | .silent seqno _ => Function.update held seqno none
  | .aliasing _ _ => held
  | .inconsistent _ _ => held

def Held.applyAll (held : Held) (events : List Event) : Held :=
  events.foldl Held.apply held

def held (log : List Event) : Held := Held.applyAll (fun _ => none) log

theorem Held.applyAll_append (h : Held) (es fs : List Event) :
    h.applyAll (es ++ fs) = (h.applyAll es).applyAll fs := List.foldl_append

@[simp] theorem Held.applyAll_nil (h : Held) : h.applyAll [] = h := rfl

theorem Held.applyAll_cons (h : Held) (e : Event) (es : List Event) :
    h.applyAll (e :: es) = (h.apply e).applyAll es := rfl

theorem held_append (log es : List Event) : held (log ++ es) = (held log).applyAll es :=
  Held.applyAll_append _ log es

end Player

end ShairportSync
