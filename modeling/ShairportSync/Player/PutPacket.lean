import ShairportSync.Player.Basic

/-!
# `player_put_packet`

The receiver's side of the buffer. A packet is placed in the slot of its sequence
number (`playerPutPacketStore`), and then the window is scanned for missing frames
whose retransmission should be requested (`resendScan`). The mutex is released while a
request is sent, so the scan stops there and is taken up again afterwards.

The packet decoder is a parameter: `decode dest destlen buf` is what
`audio_packet_decode` answers and what it leaves in the entry's memory.
-/

namespace ShairportSync

namespace Player

open SerialNumber

/-- What `audio_packet_decode` returns, the length it sets and the memory it leaves. -/
structure DecodeResult where
  reply : Int
  destlen : Int
  dest : Bytes
deriving DecidableEq

/-- `audio_packet_decode`, for the stream this connection plays. -/
abbrev PacketDecoder := Bytes → ℕ → Bytes → DecodeResult

/-- The arguments of `player_put_packet`. For a packet that is not in the original
format, `len` counts frames and `data` is already decoded. -/
structure PutArgs where
  originalFormat : Bool
  seqno : SeqT
  actualTimestamp : RtpTime
  data : Bytes
  len : ℕ
deriving DecidableEq

/-- Where a sequence number falls with respect to the window. -/
inductive Placement where
  | expected
  | newer
  | late
  | tooLate
deriving DecidableEq

def ignoreEarlyFlush (conn : ConnInfo) : ConnInfo :=
  if conn.packetCount = 0 then
    { conn with
      flushRequested := false
      flushRtpTimestamp := 0 }
  else conn

def countPacket (timeNow : Nanoseconds) (conn : ConnInfo) : ConnInfo :=
  { conn with
    packetCount := conn.packetCount + 1
    packetCountSinceFlush := conn.packetCountSinceFlush + 1
    timeOfLastAudioPacket := timeNow }

/-- An unsynced buffer is synced by the packet's own number. -/
def syncToPacket (a : PutArgs) (conn : ConnInfo) : ConnInfo × List Event :=
  if conn.abSynced then (conn, [])
  else
    ({ conn with
        abWrite := a.seqno
        abRead := a.seqno
        abSynced := true
        firstPacketTimestamp := 0 }, [.synced a.seqno])

/-- The number a packet is given: a packet that is not in the original format takes the
next one, unless it syncs the buffer. -/
def effectiveSeqno (a : PutArgs) (conn : ConnInfo) : SeqT :=
  if conn.abSynced && !a.originalFormat then conn.abWrite else a.seqno

/-- The comparison of a number with the two ends of the window. -/
def placement (ring : AudioRing) (seqno : SeqT) : Placement :=
  if ring.abWrite = seqno then .expected
  else if isAfter ring.abWrite seqno then .newer
  else if isAfter ring.abRead seqno then .late
  else .tooLate

def AudioBufferEntry.markMissing (timeNow : Nanoseconds) (abuf : AudioBufferEntry) :
    AudioBufferEntry :=
  { abuf with
    ready := false
    resendRequestNumber := 0
    initialisationTime := timeNow
    status := 1
    resendTime := 0
    givenTimestamp := 0
    sequenceNumber := 0 }

/-- The loop over the gap: `n` entries from this number on are marked missing. -/
def clearGap (timeNow : Nanoseconds) :
    ℕ → SeqT → (Fin bufferFrames → AudioBufferEntry) → Fin bufferFrames → AudioBufferEntry
  | 0, _, slots => slots
  | n + 1, seqno, slots =>
      clearGap timeNow n (seqno + 1)
        (Function.update slots (bufidx seqno) ((slots (bufidx seqno)).markMissing timeNow))

/-- `int32_t gap = seqno - conn->ab_write`, both operands promoted to `int`. -/
def gapSize (ring : AudioRing) (seqno : SeqT) : Int :=
  (seqno.toNat : Int) - ring.abWrite.toNat

def measureInputFrameRate (timeNow : Nanoseconds) (timestamp : RtpTime) (conn : ConnInfo) :
    ConnInfo :=
  let conn :=
    if !conn.inputFrameRateStartingPointIsValid && 500 ≤ conn.packetCountSinceFlush &&
        conn.packetCountSinceFlush ≤ 510 then
      { conn with
        framesInwardMeasurementStartTime := timeNow
        framesInwardFramesReceivedAtMeasurementStartTime := timestamp
        inputFrameRateStartingPointIsValid := true }
    else conn
  { conn with
    framesInwardMeasurementTime := timeNow
    framesInwardFramesReceivedAtMeasurementTime := timestamp }

/-- The window and the counters after a packet with this number has been placed. -/
def placePacket (timeNow : Nanoseconds) (timestamp : RtpTime) (seqno : SeqT)
    (conn : ConnInfo) : ConnInfo :=
  match placement conn.toAudioRing seqno with
  | .expected =>
      { measureInputFrameRate timeNow timestamp conn with abWrite := seqno + 1 }
  | .newer =>
      { conn with
        audioBuffer := clearGap timeNow (gapSize conn.toAudioRing seqno).toNat conn.abWrite
          conn.audioBuffer
        abWrite := seqno + 1 }
  | .late => { conn with latePackets := conn.latePackets + 1 }
  | .tooLate => { conn with tooLatePackets := conn.tooLatePackets + 1 }

def AudioBufferEntry.receive (seqno : SeqT) (timestamp : RtpTime) (length : Int)
    (data : Bytes) (abuf : AudioBufferEntry) : AudioBufferEntry :=
  { abuf with
    data := data
    ready := true
    status := 0
    length := length
    givenTimestamp := timestamp
    sequenceNumber := seqno }

def AudioBufferEntry.discard (data : Bytes) (abuf : AudioBufferEntry) : AudioBufferEntry :=
  { abuf with
    data := data
    ready := false
    status := 2
    resendRequestNumber := 0
    givenTimestamp := 0
    sequenceNumber := 0 }

/-- The entry after the packet's audio has been decoded or copied into it. -/
def fillEntry (decode : PacketDecoder) (timeNow : Nanoseconds) (a : PutArgs) (seqno : SeqT)
    (conn : ConnInfo) (abuf : AudioBufferEntry) : AudioBufferEntry :=
  let abuf := { abuf with initialisationTime := timeNow, resendTime := 0 }
  if a.originalFormat then
    let decoded := decode abuf.data conn.maxFramesPerPacket a.data
    if decoded.reply = 0 then
      abuf.receive seqno a.actualTimestamp decoded.destlen decoded.dest
    else abuf.discard decoded.dest
  else
    abuf.receive seqno a.actualTimestamp a.len
      (memcpy abuf.data a.data (a.len * conn.inputBytesPerFrame))

def fillEvent (seqno : SeqT) (abuf : AudioBufferEntry) : Event :=
  if abuf.ready then .stored seqno abuf.packet else .discarded seqno

/-- The packet goes into the slot of its number. -/
def fillSlot (decode : PacketDecoder) (timeNow : Nanoseconds) (a : PutArgs) (seqno : SeqT)
    (conn : ConnInfo) : ConnInfo × List Event :=
  let abuf := fillEntry decode timeNow a seqno conn (conn.entry seqno)
  ({ conn with audioBuffer := Function.update conn.audioBuffer (bufidx seqno) abuf },
    [fillEvent seqno abuf])

/-- The placing and storing of a packet, up to the signal to the player thread. -/
def storePacket (decode : PacketDecoder) (timeNow : Nanoseconds) (a : PutArgs)
    (conn : ConnInfo) : ConnInfo × List Event :=
  let seqno := effectiveSeqno a conn
  let synced := syncToPacket a conn
  let placed := placePacket timeNow a.actualTimestamp seqno synced.1
  if placement synced.1.toAudioRing seqno = .tooLate then (placed, synced.2)
  else
    let filled := fillSlot decode timeNow a seqno placed
    (filled.1, synced.2 ++ filled.2)

/-- `player_put_packet` up to the resend checks. -/
def playerPutPacketStore (decode : PacketDecoder) (timeNow : Nanoseconds) (a : PutArgs)
    (conn : ConnInfo) : ConnInfo × List Event :=
  let conn := countPacket timeNow (ignoreEarlyFlush conn)
  if conn.connectionStateToOutput = 0 then (conn, [])
  else storePacket decode timeNow a conn

/-! ## The resend checks -/

/-- The automatic variables of the loop over the window, for a call made at `timeNow`. -/
structure ResendScan where
  timeNow : Nanoseconds
  x : SeqT
  /-- `none` is the source's `-1`. -/
  startOfMissingFrameRun : Option SeqT
  missingFrameRunCount : ℕ
  numberOfMissingFrames : ℕ
deriving DecidableEq

/-- Where the scan starts: at `first_possibly_missing_frame` if it lies in the window. -/
def resendScanStart (firstPossiblyMissingFrame : Int) (ring : AudioRing) : SeqT :=
  if 0 ≤ firstPossiblyMissingFrame ∧ 0 ≤ ring.occupancy then
    let position := (BitVec.ofInt 16 firstPossiblyMissingFrame - ring.abRead).toInt
    if 0 ≤ position ∧ position < ring.occupancy then BitVec.ofInt 16 firstPossiblyMissingFrame
    else ring.abRead
  else ring.abRead

def latencyTime (conn : ConnInfo) : Nanoseconds :=
  (conn.latency.setWidth 64 * 1000000000) / BitVec.ofNat 64 conn.inputRate

def tooLate (cfg : Config) (conn : ConnInfo) (timeNow : Nanoseconds) (abuf : AudioBufferEntry) :
    Bool :=
  abuf.initialisationTime < timeNow - latencyTime conn ||
    abuf.initialisationTime - (timeNow - latencyTime conn) < cfg.minimumRemainingTime

def tooEarly (cfg : Config) (timeNow : Nanoseconds) (abuf : AudioBufferEntry) : Bool :=
  timeNow - abuf.initialisationTime < cfg.minimumWaitTime

def tooSoonAfterLastRequest (cfg : Config) (timeNow : Nanoseconds) (abuf : AudioBufferEntry) :
    Bool :=
  abuf.resendTime ≠ 0 && timeNow - abuf.resendTime < cfg.resendRepeatInterval

def setStatusFlag (flag : BitVec 8) (value : Bool) (status : BitVec 8) : BitVec 8 :=
  if value then status ||| flag else status &&& (0xFF - flag)

/-- A missing entry is asked for again when it is none of the three. -/
def resendEligible (cfg : Config) (conn : ConnInfo) (timeNow : Nanoseconds)
    (abuf : AudioBufferEntry) : Bool :=
  !tooSoonAfterLastRequest cfg timeNow abuf && !tooLate cfg conn timeNow abuf &&
    !tooEarly cfg timeNow abuf

def AudioBufferEntry.checkResend (cfg : Config) (conn : ConnInfo) (timeNow : Nanoseconds)
    (abuf : AudioBufferEntry) : AudioBufferEntry :=
  let status := setStatusFlag 4 (tooLate cfg conn timeNow abuf) abuf.status
  let status := setStatusFlag 8 (tooEarly cfg timeNow abuf) status
  let status := setStatusFlag 16 (tooSoonAfterLastRequest cfg timeNow abuf) status
  if resendEligible cfg conn timeNow abuf then
    { abuf with
      status := status
      resendTime := timeNow
      resendRequestNumber := abuf.resendRequestNumber + 1 }
  else { abuf with status := status }

/-- The state the scan works on: the connection and the global position it leaves. -/
structure ResendState where
  conn : ConnInfo
  firstPossiblyMissingFrame : Int

/-- The check of the entry at `x`, before `x` is advanced. -/
def checkEntry (cfg : Config) (st : ResendState) (scan : ResendScan) :
    ResendState × ResendScan :=
  let abuf := st.conn.entry scan.x
  if abuf.ready then (st, scan)
  else
    let eligible := resendEligible cfg st.conn scan.timeNow abuf
    ({ conn := { st.conn with
          audioBuffer := Function.update st.conn.audioBuffer (bufidx scan.x)
            (abuf.checkResend cfg st.conn scan.timeNow) }
       firstPossiblyMissingFrame :=
          if st.firstPossiblyMissingFrame < 0 then scan.x.toNat
          else st.firstPossiblyMissingFrame },
     { scan with
        numberOfMissingFrames := scan.numberOfMissingFrames + 1
        startOfMissingFrameRun :=
          if eligible then some (scan.startOfMissingFrameRun.getD scan.x)
          else scan.startOfMissingFrameRun
        missingFrameRunCount :=
          if eligible then
            if scan.startOfMissingFrameRun = none then 1 else scan.missingFrameRunCount + 1
          else scan.missingFrameRunCount })

/-- The scan either runs to the end of the window or stops to send a request for the
frames `first`, `first + 1`, ... with the mutex released. -/
inductive ResendOutcome where
  | finished (st : ResendState)
  | requesting (first : SeqT) (count : ℕ) (st : ResendState) (scan : ResendScan)

/-- The loop over the window, with `n` numbers left before its end. -/
def resendScan (cfg : Config) : ℕ → ResendState → ResendScan → ResendOutcome
  | 0, st, scan =>
      .finished
        { st with
          firstPossiblyMissingFrame :=
            if scan.numberOfMissingFrames = 0 then st.conn.abWrite.toNat
            else st.firstPossiblyMissingFrame }
  | n + 1, st, scan =>
      let wasReady := (st.conn.entry scan.x).ready
      let (st, scan) := checkEntry cfg st scan
      let scan := { scan with x := scan.x + 1 }
      if (wasReady || scan.x = st.conn.abWrite) && 0 < scan.missingFrameRunCount then
        let rest := { scan with startOfMissingFrameRun := none, missingFrameRunCount := 0 }
        if cfg.disableResendRequests then resendScan cfg n st rest
        else
          .requesting (scan.startOfMissingFrameRun.getD 0) scan.missingFrameRunCount st rest
      else resendScan cfg n st scan

/-- The resend checks of a call of `player_put_packet`, up to its first request. -/
def startResendScan (cfg : Config) (timeNow : Nanoseconds) (firstPossiblyMissingFrame : Int)
    (conn : ConnInfo) : ResendOutcome :=
  let x := resendScanStart firstPossiblyMissingFrame conn.toAudioRing
  resendScan cfg (distance x conn.abWrite) ⟨conn, -1⟩ ⟨timeNow, x, none, 0, 0⟩

def continueResendScan (cfg : Config) (scan : ResendScan) (st : ResendState) : ResendOutcome :=
  let st := { st with conn := { st.conn with resendRequests := st.conn.resendRequests + 1 } }
  resendScan cfg (distance scan.x st.conn.abWrite) st scan

/-! ## What the resend checks leave alone -/

/-- Two connections differ at most in the flags and resend bookkeeping of their entries
and in the count of requests. -/
structure ResendFrame (conn conn' : ConnInfo) : Prop where
  rest : conn' = { conn with
    audioBuffer := conn'.audioBuffer
    resendRequests := conn'.resendRequests }
  content : ∀ i, (conn'.audioBuffer i).content = (conn.audioBuffer i).content
  packet : ∀ i, (conn'.audioBuffer i).packet = (conn.audioBuffer i).packet

theorem ResendFrame.refl (conn : ConnInfo) : ResendFrame conn conn :=
  ⟨rfl, fun _ => rfl, fun _ => rfl⟩

theorem ResendFrame.trans {conn conn' conn'' : ConnInfo} (h : ResendFrame conn conn')
    (h' : ResendFrame conn' conn'') : ResendFrame conn conn'' where
  rest := by
    rw [h'.rest, h.rest]
  content i := (h'.content i).trans (h.content i)
  packet i := (h'.packet i).trans (h.packet i)

theorem ResendFrame.ready {conn conn' : ConnInfo} (h : ResendFrame conn conn')
    (i : Fin bufferFrames) : (conn'.audioBuffer i).ready = (conn.audioBuffer i).ready := by
  have hcontent := congrArg Option.isSome (h.content i)
  have hsome : ∀ abuf : AudioBufferEntry, abuf.content.isSome = abuf.ready := by
    intro abuf
    cases hready : abuf.ready <;> simp [AudioBufferEntry.content, hready]
  rwa [hsome, hsome] at hcontent

theorem checkResend_content (cfg : Config) (conn : ConnInfo) (timeNow : Nanoseconds)
    (abuf : AudioBufferEntry) :
    (abuf.checkResend cfg conn timeNow).content = abuf.content ∧
      (abuf.checkResend cfg conn timeNow).packet = abuf.packet := by
  unfold AudioBufferEntry.checkResend
  dsimp only
  split <;> exact ⟨rfl, rfl⟩

theorem checkEntry_frame (cfg : Config) (st : ResendState) (scan : ResendScan) :
    ResendFrame st.conn (checkEntry cfg st scan).1.conn := by
  unfold checkEntry
  dsimp only
  split
  · exact .refl _
  · have hcheck := checkResend_content cfg st.conn scan.timeNow (st.conn.entry scan.x)
    refine ⟨rfl, fun i => ?_, fun i => ?_⟩
    all_goals
      by_cases hi : i = bufidx scan.x
      · subst hi
        simpa [AudioRing.entry] using by first | exact hcheck.1 | exact hcheck.2
      · simp [Function.update_of_ne hi]

def ResendOutcome.conn : ResendOutcome → ConnInfo
  | .finished st => st.conn
  | .requesting _ _ st _ => st.conn

theorem resendScan_frame (cfg : Config) (n : ℕ) (st : ResendState) (scan : ResendScan) :
    ResendFrame st.conn (resendScan cfg n st scan).conn := by
  induction n generalizing st scan with
  | zero => exact .refl _
  | succ n ih =>
      have hcheck := checkEntry_frame cfg st scan
      unfold resendScan
      dsimp only
      split_ifs
      · exact hcheck.trans (ih _ _)
      · exact hcheck
      · exact hcheck.trans (ih _ _)

theorem startResendScan_frame (cfg : Config) (timeNow : Nanoseconds)
    (firstPossiblyMissingFrame : Int) (conn : ConnInfo) :
    ResendFrame conn (startResendScan cfg timeNow firstPossiblyMissingFrame conn).conn := by
  unfold startResendScan
  exact resendScan_frame cfg _ ⟨conn, -1⟩ _

theorem continueResendScan_frame (cfg : Config) (scan : ResendScan) (st : ResendState) :
    ResendFrame st.conn (continueResendScan cfg scan st).conn := by
  unfold continueResendScan
  refine ResendFrame.trans ?_ (resendScan_frame cfg _ _ _)
  exact ⟨rfl, fun _ => rfl, fun _ => rfl⟩

end Player

end ShairportSync
