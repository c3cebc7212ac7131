import ShairportSync.Player.Basic

/-!
# `buffer_get_frame`

The player's side of the buffer. Each iteration of the loop looks at the pending flush
request (`serviceFlush`), skips the frames that are out of date (`skipOutOfDate`),
decides how much silence leads in to the first frame (`leadIn`) and whether the frame at
`abRead` is due (`waitForFrame`). The loop ends by handing that frame to the player
(`handOut`).

What an iteration reads from the clock, the anchor information and the output back end
is collected in `Readings`.
-/

namespace ShairportSync

namespace Player

open SerialNumber

/-- What one iteration reads from outside the buffer. The two conversions are indexed by
the number of the call, since the clock runs on between calls. -/
structure Readings where
  localTimeNow : Nanoseconds
  haveTimestampTimingInformation : Bool
  requestedConnectionStateToOutput : Int
  /-- `config.output->is_running()`. -/
  isRunning : Int
  /-- The frame `local_time_to_frame` leaves in `should_be_frame`. -/
  localTimeToFrame : ℕ → Nanoseconds → RtpTime
  /-- The time `frame_to_local_time` leaves for a frame. -/
  frameToLocalTime : ℕ → RtpTime → Nanoseconds
  /-- The response of `config.output->delay`. -/
  delayResponse : Int
  /-- The delay it sets. -/
  dacDelay : Int
  /-- `have_timestamp_timing_information` when the release of the frame is considered. -/
  haveTimingAtRelease : Bool

/-- The automatic variables of `buffer_get_frame` that live across iterations. -/
structure FrameLoop where
  curframe : Option (Fin bufferFrames)
  notifiedBufferEmpty : Bool
  dacDelay : Int
  haveSentPrefillerSilence : Bool
deriving DecidableEq

def FrameLoop.start : FrameLoop where
  curframe := none
  notifiedBufferEmpty := false
  dacDelay := 0
  haveSentPrefillerSilence := false

/-- An iteration in progress: the connection, the automatic variables, the calls made to
the output and the events so far. -/
structure Progress where
  conn : ConnInfo
  loop : FrameLoop
  calls : List OutputCall
  events : List Event

/-! ## Servicing a flush request -/

/-- A change of the requested output state, or a back end that is not running, asks for
a flush of everything. -/
def requestFlushes (cfg : Config) (rd : Readings) (conn : ConnInfo) : ConnInfo :=
  let conn :=
    if conn.connectionStateToOutput ≠ rd.requestedConnectionStateToOutput then
      let conn :=
        { conn with connectionStateToOutput := rd.requestedConnectionStateToOutput }
      if rd.requestedConnectionStateToOutput = 0 then
        { conn with flushRequested := true, flushRtpTimestamp := 0 }
      else conn
    else conn
  if cfg.outputIsRunning ∧ rd.isRunning ≠ 0 then
    { conn with flushRequested := true, flushRtpTimestamp := 0 }
  else conn

def flushOutput (cfg : Config) (pr : Progress) : Progress :=
  if pr.conn.flushRequested then
    { pr with
      conn := { pr.conn with flushOutputFlushed := true }
      calls :=
        if !pr.conn.flushOutputFlushed && cfg.outputFlush then pr.calls ++ [.flush]
        else pr.calls }
  else pr

def memmoveDown (data : Bytes) (n remaining : ℕ) : Bytes :=
  (data.drop n).take remaining ++ data.drop remaining

def Packet.trim (bytesPerFrame : ℕ) (flushFrame : RtpTime) (p : Packet) : Packet :=
  let framesToRemove := (flushFrame - p.timestamp).toInt
  if 0 < framesToRemove then
    { timestamp := flushFrame
      length := p.length - framesToRemove
      data := memmoveDown p.data (bytesPerFrame * framesToRemove.toNat)
        ((p.length - framesToRemove).toNat * bytesPerFrame) }
  else p

def AudioBufferEntry.trim (bytesPerFrame : ℕ) (flushFrame : RtpTime)
    (abuf : AudioBufferEntry) : AudioBufferEntry :=
  let p := abuf.packet.trim bytesPerFrame flushFrame
  { abuf with givenTimestamp := p.timestamp, length := p.length, data := p.data }

/-- The loop that drops all complete frames leading up to the flush frame: it stops at
the first entry whose last frame is not before it. `n` bounds the entries looked at. -/
def dropBeforeFlush (slots : Fin bufferFrames → AudioBufferEntry) (flushFrame : RtpTime) :
    ℕ → SeqT → SeqT
  | 0, abRead => abRead
  | n + 1, abRead =>
      if 0 < (flushFrame - (slots (bufidx abRead)).packet.lastFrame).toInt then
        dropBeforeFlush slots flushFrame n (abRead + 1)
      else abRead

/-- The events of the numbers from `seqno` on, `n` of them, being flushed. -/
def flushedEvents : ℕ → SeqT → List Event
  | 0, _ => []
  | n + 1, seqno => .flushed seqno :: flushedEvents n (seqno + 1)

def flushPart (pr : Progress) : Progress :=
  let conn := pr.conn
  let abRead := dropBeforeFlush conn.audioBuffer conn.flushRtpTimestamp
    conn.intDifference.toNat conn.abRead
  { pr with
    conn := { conn with
      abRead := abRead
      audioBuffer := Function.update conn.audioBuffer (bufidx abRead)
        ((conn.entry abRead).trim conn.inputBytesPerFrame conn.flushRtpTimestamp) }
    events := pr.events ++ flushedEvents (distance conn.abRead abRead) conn.abRead ++
      [.trimmed abRead conn.flushRtpTimestamp conn.inputBytesPerFrame] }

/-- What the request asks for, given what is in the buffer. -/
inductive FlushDecision where
  /-- There is no request, or not enough information to decide. -/
  | leave
  /-- Flush everything; the flag says whether the request is dropped too. -/
  | flushAll (dropRequest : Bool)
  /-- Flush up to the flush frame and drop the request. -/
  | flushPart
  /-- The flush frame is before the buffer: drop the request. -/
  | expired
  /-- The buffer is not synced or empty. -/
  | notSyncedOrEmpty
deriving DecidableEq

def flushDecision (conn : ConnInfo) : FlushDecision :=
  if !conn.flushRequested then .leave
  else if conn.flushRtpTimestamp = 0 then .flushAll true
  else if conn.abSynced ∧ 0 < conn.intDifference then
    let firstPacket := conn.entry conn.abRead
    let lastPacket := conn.entry (conn.abWrite - 1)
    if firstPacket.ready ∧ lastPacket.ready then
      let lastFrameInBuffer := lastPacket.packet.lastFrame
      if 0 < (conn.flushRtpTimestamp - firstPacket.givenTimestamp).toInt then
        if 0 ≤ (lastFrameInBuffer - conn.flushRtpTimestamp).toInt then .flushPart
        else .flushAll (conn.flushRtpTimestamp = lastFrameInBuffer + 1)
      else .expired
    else .leave
  else .notSyncedOrEmpty

def flushAll (pr : Progress) : Progress :=
  { pr with
    conn := { abResync pr.conn with
      firstPacketTimestamp := 0
      firstPacketTimeToPlay := 0
      timeSincePlayStarted := 0 }
    loop := { pr.loop with
      haveSentPrefillerSilence := false
      dacDelay := 0 }
    events := pr.events ++ [.resynced] }

def dropRequest (pr : Progress) : Progress :=
  { pr with
    conn := { pr.conn with
      flushRequested := false
      flushRtpTimestamp := 0
      flushOutputFlushed := false } }

/-- The flush handling of an iteration. -/
def serviceFlush (cfg : Config) (pr : Progress) : Progress :=
  let pr := flushOutput cfg pr
  match flushDecision pr.conn with
  | .leave => pr
  | .flushAll true => dropRequest (flushAll pr)
  | .flushAll false => flushAll pr
  | .flushPart => dropRequest (flushPart pr)
  | .expired => dropRequest pr
  | .notSyncedOrEmpty => { pr with conn := { pr.conn with flushRequested := false } }

/-! ## Skipping out-of-date frames -/

/-- The loop over the window, with `n` numbers left before its end in `int` arithmetic;
`k` counts the calls of `local_time_to_frame`. -/
def skipLoop (slots : Fin bufferFrames → AudioBufferEntry) (shouldBeFrame : ℕ → RtpTime) :
    ℕ → ℕ → SeqT → SeqT × List Event
  | 0, _, abRead => (abRead, [])
  | n + 1, k, abRead =>
      let thePacket := slots (bufidx abRead)
      if thePacket.ready then
        if (thePacket.givenTimestamp - shouldBeFrame k).toInt < 0 then
          let rest := skipLoop slots shouldBeFrame n (k + 1) (abRead + 1)
          (rest.1, .outOfDate abRead (shouldBeFrame k) :: rest.2)
        else (abRead, [])
      else
        let rest := skipLoop slots shouldBeFrame n k (abRead + 1)
        (rest.1, .emptyOrNotReady abRead :: rest.2)

def timeToAimFor (rd : Readings) (conn : ConnInfo) : Nanoseconds :=
  if conn.firstPacketTimestamp = 0 then rd.localTimeNow + 120000000 else rd.localTimeNow

def skipOutOfDate (rd : Readings) (pr : Progress) : Progress :=
  if pr.conn.abSynced then
    let skipped := skipLoop pr.conn.audioBuffer
      (fun k => rd.localTimeToFrame k (timeToAimFor rd pr.conn))
      pr.conn.intDifference.toNat 0 pr.conn.abRead
    { pr with
      conn := { pr.conn with abRead := skipped.1 }
      events := pr.events ++ skipped.2 }
  else pr

/-! ## The first frame -/

/-- The sequence number of the current frame should be `abRead`. -/
def checkSequence (pr : Progress) : Progress :=
  let conn := pr.conn
  let curframe := conn.entry conn.abRead
  if conn.abRead ≠ conn.abWrite ∧ curframe.ready ∧ curframe.sequenceNumber ≠ conn.abRead then
    if bufidx curframe.sequenceNumber = bufidx conn.abRead then
      { pr with
        conn := { conn with abRead := curframe.sequenceNumber }
        events := pr.events ++ [.aliasing conn.abRead curframe.sequenceNumber] }
    else
      { pr with events := pr.events ++ [.inconsistent conn.abRead curframe.sequenceNumber] }
  else pr

/-- The very first packet fixes the time at which play should start. -/
def noteFirstPacket (rd : Readings) (givenTimestamp : RtpTime) (conn : ConnInfo) : ConnInfo :=
  if conn.firstPacketTimestamp = 0 then
    { conn with
      firstPacketTimestamp := givenTimestamp
      firstPacketTimeToPlay := rd.frameToLocalTime 1 givenTimestamp }
  else conn

def firstFrameEarlyBias : Int := 8

def spsExtraCodeOutputStalled : Int := 32768

/-- The frames of silence to send before the first frame, and whether they end the
buffering. -/
def silenceNeeded (cfg : Config) (rd : Readings) (dacDelay : Int) (conn : ConnInfo) :
    Int × Bool :=
  let grossFrameGap : Int :=
    (((conn.firstPacketTimeToPlay - rd.localTimeNow) * BitVec.ofNat 64 cfg.outputRate) /
      1000000000#64).toInt
  let exactFrameGap := grossFrameGap - dacDelay
  let framesNeeded := cfg.audioBackendBufferDesiredFrames - dacDelay
  let fs := if exactFrameGap ≤ framesNeeded then (conn.maxFramesPerPacket : Int) * 2
    else framesNeeded
  if exactFrameGap ≤ (conn.maxFramesPerPacket : Int) * 2 then
    (if firstFrameEarlyBias < exactFrameGap then exactFrameGap - firstFrameEarlyBias
      else exactFrameGap, true)
  else (fs, false)

def sendLeadIn (cfg : Config) (rd : Readings) (pr : Progress) : Progress :=
  let resp := if pr.loop.haveSentPrefillerSilence then rd.delayResponse else 0
  let dacDelay := if pr.loop.haveSentPrefillerSilence then rd.dacDelay else 0
  let pr := { pr with loop := { pr.loop with dacDelay := dacDelay } }
  if resp = 0 then
    let fs := silenceNeeded cfg rd dacDelay pr.conn
    let pr := { pr with
      conn := { pr.conn with abBuffering := if fs.2 then false else pr.conn.abBuffering } }
    if 0 < fs.1 then
      { pr with
        loop := { pr.loop with haveSentPrefillerSilence := true }
        calls := pr.calls ++ [.playSilence fs.1] }
    else pr
  else if resp = spsExtraCodeOutputStalled ∧ !pr.conn.unfixableErrorReported then
    { pr with
      conn := { pr.conn with unfixableErrorReported := true }
      calls := pr.calls ++ [if cfg.cmdUnfixable then .commandUnfixable else .die] }
  else pr

/-- The silence for an output without a delay function, sent in pieces of `chunk`
frames; `n` bounds the number of pieces. -/
def silencePieces (chunk : Int) : ℕ → Int → List OutputCall
  | 0, _ => []
  | n + 1, frameGap =>
      if 0 < frameGap then
        let fs := min chunk frameGap
        .playSilence fs :: silencePieces chunk n (frameGap - fs)
      else []

def sendAllLeadIn (cfg : Config) (rd : Readings) (pr : Progress) : Progress :=
  let leadTime := pr.conn.firstPacketTimeToPlay - rd.localTimeNow
  let frameGap : Int := ((leadTime * BitVec.ofNat 64 cfg.outputRate).sdiv 1000000000#64).toInt
  { pr with
    conn := { pr.conn with abBuffering := false }
    calls := pr.calls ++ silencePieces (cfg.outputRate / 10 : ℕ) frameGap.toNat frameGap }

/-- Packets are being received but not yet forwarded: send silence until it is time. -/
def leadIn (cfg : Config) (rd : Readings) (pr : Progress) : Progress :=
  let curframe := pr.conn.entry pr.conn.abRead
  if !curframe.ready then pr
  else
    let pr := { pr with loop := { pr.loop with notifiedBufferEmpty := false } }
    if !pr.conn.abBuffering then pr
    else
      let pr := { pr with conn := noteFirstPacket rd curframe.givenTimestamp pr.conn }
      if pr.conn.firstPacketTimeToPlay = 0 then pr
      else if cfg.outputDelay then
        let pr := { pr with
          conn := { pr.conn with
            firstPacketTimeToPlay := rd.frameToLocalTime 2 pr.conn.firstPacketTimestamp } }
        let leadTime := (pr.conn.firstPacketTimeToPlay - rd.localTimeNow).toInt
        if leadTime < 0 then { pr with conn := { pr.conn with abBuffering := false } }
        else if cfg.audioBackendSilentLeadInTimeAuto ∨
            leadTime ≤ cfg.audioBackendSilentLeadInTime then
          sendLeadIn cfg rd pr
        else pr
      else sendAllLeadIn cfg rd pr

/-- `curframe = conn->audio_buffer + BUFIDX(conn->ab_read)`. -/
def pointAtFrame (pr : Progress) : Progress :=
  { pr with loop := { pr.loop with curframe := some (bufidx pr.conn.abRead) } }

/-- The current frame of a synced buffer is the one in the slot of `abRead`. -/
def currentFrame (cfg : Config) (rd : Readings) (pr : Progress) : Progress :=
  if pr.conn.abSynced then leadIn cfg rd (checkSequence (pointAtFrame pr)) else pr

/-! ## Releasing the frame -/

/-- A ready frame waits until it is time to let it go. -/
def frameNotDue (cfg : Config) (rd : Readings) (conn : ConnInfo) (curframe : AudioBufferEntry) :
    Bool :=
  if conn.abSynced ∧ curframe.ready ∧ curframe.givenTimestamp ≠ 0 then
    if rd.haveTimingAtRelease then
      let timeToPlay :=
        rd.frameToLocalTime 3 (curframe.givenTimestamp - cfg.bufferLatencyOffset)
      let timeDifference := (rd.localTimeNow - timeToPlay).toInt
      rd.localTimeNow < timeToPlay ∧
        ¬ (10000000000 < timeDifference ∨ timeDifference < -10000000000)
    else true
  else false

/-- An empty buffer makes sure that the first packet to come isn't late. -/
def noteBufferEmpty (pr : Progress) : Progress :=
  if pr.loop.notifiedBufferEmpty then pr
  else
    { pr with
      conn := { pr.conn with
        initialReferenceTime := 0
        initialReferenceTimestamp := 0
        firstPacketTimestamp := 0 }
      loop := { pr.loop with notifiedBufferEmpty := true } }

/-- Whether the loop goes round again, with the state at the end of the iteration. -/
def waitForFrame (cfg : Config) (rd : Readings) (pr : Progress) : Bool × Progress :=
  let notDue := match pr.loop.curframe with
    | some i => frameNotDue cfg rd pr.conn (pr.conn.audioBuffer i)
    | none => false
  if !notDue ∧ pr.conn.abSynced ∧ pr.conn.abRead = pr.conn.abWrite then
    (true, noteBufferEmpty pr)
  else (pr.conn.abBuffering || notDue || !pr.conn.abSynced, pr)

def flushAndSkip (cfg : Config) (rd : Readings) (pr : Progress) : Progress :=
  skipOutOfDate rd (serviceFlush cfg pr)

/-- One iteration of the loop of `buffer_get_frame`. -/
def bufferGetFrameIteration (cfg : Config) (rd : Readings) (conn : ConnInfo)
    (loop : FrameLoop) : Bool × Progress :=
  if rd.haveTimestampTimingInformation then
    waitForFrame cfg rd
      (currentFrame cfg rd
        (flushAndSkip cfg rd ⟨requestFlushes cfg rd conn, loop, [], []⟩))
  else (true, ⟨conn, loop, [], []⟩)

/-- The entry as it is handed to the player: a frame that is not ready is marked so that
silence is played in its place. -/
def AudioBufferEntry.handOut (abuf : AudioBufferEntry) : AudioBufferEntry :=
  if abuf.ready then { abuf with ready := false }
  else { abuf with givenTimestamp := 0 }

/-- The end of `buffer_get_frame`, once the loop does not wait any more. -/
def handOut (pr : Progress) : Progress :=
  match pr.loop.curframe with
  | some i =>
      let curframe := pr.conn.audioBuffer i
      let given := curframe.handOut
      { pr with
        conn := { pr.conn with
          missingPackets :=
            if curframe.ready then pr.conn.missingPackets else pr.conn.missingPackets + 1
          audioBuffer := Function.update pr.conn.audioBuffer i given
          abRead := pr.conn.abRead + 1 }
        events := pr.events ++
          [if curframe.ready then .supplied pr.conn.abRead given
            else .silent pr.conn.abRead given] }
  | none => { pr with conn := { pr.conn with abRead := pr.conn.abRead + 1 } }

theorem trim_content (bytesPerFrame : ℕ) (flushFrame : RtpTime) (abuf : AudioBufferEntry) :
    (abuf.trim bytesPerFrame flushFrame).content =
      abuf.content.map (Prod.map id (Packet.trim bytesPerFrame flushFrame)) := by
  cases h : abuf.ready <;>
    simp [AudioBufferEntry.content, AudioBufferEntry.trim, AudioBufferEntry.packet, h]

/-! ## What the phases leave alone

The requests, the lead-in and the release work on the flags and times of the connection;
only the flush handling, the skipping, the sequence check and the hand-out touch the
ring or write events. -/

@[simp] theorem requestFlushes_toAudioRing (cfg : Config) (rd : Readings) (conn : ConnInfo) :
    (requestFlushes cfg rd conn).toAudioRing = conn.toAudioRing := by
  unfold requestFlushes
  split_ifs <;> rfl

theorem requestFlushes_timeToAimFor (cfg : Config) (rd : Readings) (conn : ConnInfo) :
    timeToAimFor rd (requestFlushes cfg rd conn) = timeToAimFor rd conn := by
  unfold timeToAimFor requestFlushes
  split_ifs <;> rfl

@[simp] theorem flushOutput_toAudioRing (cfg : Config) (pr : Progress) :
    (flushOutput cfg pr).conn.toAudioRing = pr.conn.toAudioRing := by
  unfold flushOutput
  split <;> rfl

@[simp] theorem flushOutput_events (cfg : Config) (pr : Progress) :
    (flushOutput cfg pr).events = pr.events := by
  unfold flushOutput
  split <;> rfl

theorem flushOutput_request (cfg : Config) (pr : Progress) :
    (flushOutput cfg pr).conn.flushRequested = pr.conn.flushRequested ∧
      (flushOutput cfg pr).conn.flushRtpTimestamp = pr.conn.flushRtpTimestamp := by
  unfold flushOutput
  split
  · exact ⟨rfl, rfl⟩
  · exact ⟨rfl, rfl⟩

theorem serviceFlush_of_not_requested (cfg : Config) {pr : Progress}
    (h : pr.conn.flushRequested = false) : serviceFlush cfg pr = pr := by
  have hout : flushOutput cfg pr = pr := by
    simp [flushOutput, h]
  have hleave : flushDecision pr.conn = .leave := by
    simp [flushDecision, h]
  unfold serviceFlush
  dsimp only
  rw [hout, hleave]

theorem skipOutOfDate_request (rd : Readings) (pr : Progress) :
    (skipOutOfDate rd pr).conn.toFlushRequest = pr.conn.toFlushRequest ∧
      (skipOutOfDate rd pr).conn.abSynced = pr.conn.abSynced := by
  unfold skipOutOfDate
  split
  · exact ⟨rfl, rfl⟩
  · exact ⟨rfl, rfl⟩

theorem skipOutOfDate_of_not_synced (rd : Readings) {pr : Progress}
    (h : pr.conn.abSynced = false) : skipOutOfDate rd pr = pr := by
  unfold skipOutOfDate
  rw [h]
  rfl

/-- Neither the ring nor the flush request nor the counters change and no event is
written. -/
structure Untouched (pr pr' : Progress) : Prop where
  ring : pr'.conn.toAudioRing = pr.conn.toAudioRing
  flush : pr'.conn.toFlushRequest = pr.conn.toFlushRequest
  packetCount : pr'.conn.packetCount = pr.conn.packetCount
  missingPackets : pr'.conn.missingPackets = pr.conn.missingPackets
  events : pr'.events = pr.events

theorem Untouched.refl (pr : Progress) : Untouched pr pr := ⟨rfl, rfl, rfl, rfl, rfl⟩

theorem Untouched.trans {pr pr' pr'' : Progress} (h : Untouched pr pr')
    (h' : Untouched pr' pr'') : Untouched pr pr'' where
  ring := h'.ring.trans h.ring
  flush := h'.flush.trans h.flush
  packetCount := h'.packetCount.trans h.packetCount
  missingPackets := h'.missingPackets.trans h.missingPackets
  events := h'.events.trans h.events

/-- The lead-in and the release keep the current frame too. -/
structure LeadInFrame (pr pr' : Progress) : Prop extends Untouched pr pr' where
  curframe : pr'.loop.curframe = pr.loop.curframe

theorem LeadInFrame.refl (pr : Progress) : LeadInFrame pr pr := ⟨.refl pr, rfl⟩

theorem LeadInFrame.trans {pr pr' pr'' : Progress} (h : LeadInFrame pr pr')
    (h' : LeadInFrame pr' pr'') : LeadInFrame pr pr'' :=
  ⟨h.toUntouched.trans h'.toUntouched, h'.curframe.trans h.curframe⟩

theorem sendLeadIn_frame (cfg : Config) (rd : Readings) (pr : Progress) :
    LeadInFrame pr (sendLeadIn cfg rd pr) := by
  unfold sendLeadIn
  dsimp only
  split_ifs <;> exact ⟨⟨rfl, rfl, rfl, rfl, rfl⟩, rfl⟩

theorem sendAllLeadIn_frame (cfg : Config) (rd : Readings) (pr : Progress) :
    LeadInFrame pr (sendAllLeadIn cfg rd pr) := ⟨⟨rfl, rfl, rfl, rfl, rfl⟩, rfl⟩

theorem noteFirstPacket_frame (rd : Readings) (givenTimestamp : RtpTime) (pr : Progress) :
    LeadInFrame pr { pr with conn := noteFirstPacket rd givenTimestamp pr.conn } := by
  unfold noteFirstPacket
  split <;> exact ⟨⟨rfl, rfl, rfl, rfl, rfl⟩, rfl⟩

theorem leadIn_frame (cfg : Config) (rd : Readings) (pr : Progress) :
    LeadInFrame pr (leadIn cfg rd pr) := by
  unfold leadIn
  dsimp only
  split
  · exact .refl pr
  split
  · exact ⟨⟨rfl, rfl, rfl, rfl, rfl⟩, rfl⟩
  have hnote : LeadInFrame pr
      { pr with
        conn := noteFirstPacket rd (pr.conn.entry pr.conn.abRead).givenTimestamp pr.conn
        loop := { pr.loop with notifiedBufferEmpty := false } } :=
    (noteFirstPacket_frame rd _ pr).trans ⟨⟨rfl, rfl, rfl, rfl, rfl⟩, rfl⟩
  split
  · exact hnote
  split
  · refine hnote.trans ?_
    split_ifs
    · exact ⟨⟨rfl, rfl, rfl, rfl, rfl⟩, rfl⟩
    · refine LeadInFrame.trans ?_ (sendLeadIn_frame cfg rd _)
      exact ⟨⟨rfl, rfl, rfl, rfl, rfl⟩, rfl⟩
    · exact ⟨⟨rfl, rfl, rfl, rfl, rfl⟩, rfl⟩
  · exact hnote.trans (sendAllLeadIn_frame cfg rd _)

theorem waitForFrame_frame (cfg : Config) (rd : Readings) (pr : Progress) :
    LeadInFrame pr (waitForFrame cfg rd pr).2 := by
  unfold waitForFrame noteBufferEmpty
  dsimp only
  generalize (match pr.loop.curframe with
    | some i => frameNotDue cfg rd pr.conn (pr.conn.audioBuffer i)
    | none => false) = notDue
  split_ifs <;> exact ⟨⟨rfl, rfl, rfl, rfl, rfl⟩, rfl⟩

theorem waitForFrame_stops {cfg : Config} {rd : Readings} {pr : Progress}
    (h : (waitForFrame cfg rd pr).1 = false) :
    pr.conn.abSynced = true ∧ pr.conn.abRead ≠ pr.conn.abWrite := by
  unfold waitForFrame at h
  dsimp only at h
  generalize (match pr.loop.curframe with
    | some i => frameNotDue cfg rd pr.conn (pr.conn.audioBuffer i)
    | none => false) = notDue at h
  split at h
  · simp at h
  · rename_i hne
    simp only [Bool.or_eq_false_iff, Bool.not_eq_false'] at h
    obtain ⟨⟨-, hdue⟩, hsynced⟩ := h
    exact ⟨hsynced, fun heq => hne ⟨by simp [hdue], hsynced, heq⟩⟩

theorem waitForFrame_due {cfg : Config} {rd : Readings} {pr : Progress} {i : Fin bufferFrames}
    (h : (waitForFrame cfg rd pr).1 = false) (hcur : pr.loop.curframe = some i) :
    frameNotDue cfg rd pr.conn (pr.conn.audioBuffer i) = false := by
  unfold waitForFrame at h
  rw [hcur] at h
  dsimp only at h
  split at h
  · simp at h
  · simp only [Bool.or_eq_false_iff] at h
    exact h.1.2

end Player

end ShairportSync
