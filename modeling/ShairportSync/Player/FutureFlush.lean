import ShairportSync.Player.SlotInvariant

/-!
# A flush to a future frame

`do_flush` asks for everything up to a frame to be flushed. When the frame is not in the
buffer yet, the buffer is flushed and the request is to stay in force until the frame
comes. The flush handling does keep it then, but the next iteration meets a buffer that
is not synced and removes it. `KeepsPending` says that every iteration that looks at the
request meets a buffer it can decide on, or hands out nothing that lies before the frame.
-/

namespace ShairportSync

namespace Player

open SerialNumber Transition

def WhollyBefore (frame : RtpTime) (p : Packet) : Prop := (p.lastFrame - frame).toInt < 0

instance (frame : RtpTime) (p : Packet) : Decidable (WhollyBefore frame p) :=
  inferInstanceAs (Decidable (_ < _))

/-- No packet in the buffer contains or follows the frame. -/
def BeforePoint (frame : RtpTime) (ring : AudioRing) : Prop :=
  ring.abSynced = true →
    ∀ q, Between ring.abRead ring.abWrite q → (ring.entry q).ready = true →
      WhollyBefore frame (ring.entry q).packet

instance (frame : RtpTime) (ring : AudioRing) : Decidable (BeforePoint frame ring) :=
  inferInstanceAs (Decidable (_ → _))

/-- The frame is later than the end of the buffer. -/
def LaterThanEnd (frame : RtpTime) (ring : AudioRing) : Prop :=
  ring.abSynced = true ∧ ring.abRead ≠ ring.abWrite ∧
    WhollyBefore frame (ring.entry (ring.abWrite - 1)).packet

instance (frame : RtpTime) (ring : AudioRing) : Decidable (LaterThanEnd frame ring) :=
  inferInstanceAs (Decidable (_ ∧ _))

def RequestInForce (frame : RtpTime) (conn : ConnInfo) : Prop :=
  conn.flushRequested = true ∧ conn.flushRtpTimestamp = frame

def Event.suppliesBefore (frame : RtpTime) : Event → Bool
  | .supplied _ abuf => WhollyBefore frame abuf.packet
  | _ => false

/-! ## The conditions on a step -/

/-- Only the two sides of the buffer act, and no newer request is made. -/
def NoNewRequest (cfg : Config) (s : System) : Label → Prop
  | .get rd => (requestFlushes cfg rd s.conn).toFlushRequest = s.conn.toFlushRequest
  | .resync _ => False
  | .flush _ => False
  | _ => True

instance (cfg : Config) (s : System) : ∀ l, Decidable (NoNewRequest cfg s l)
  | .get rd =>
      inferInstanceAs (Decidable ((requestFlushes cfg rd s.conn).toFlushRequest =
        s.conn.toFlushRequest))
  | .resync _ => isFalse id
  | .flush _ => isFalse id
  | .put _ _ _ => isTrue trivial
  | .resent _ => isTrue trivial
  | .finish _ => isTrue trivial

/-- The request is not looked at. -/
def NotServicing : Label → Prop
  | .get rd => rd.haveTimestampTimingInformation = false
  | _ => True

/-- The first and the last packet of the buffer are there to decide on a request. -/
def FirstAndLastReady (ring : AudioRing) : Prop :=
  (ring.entry ring.abRead).ready = true ∧ (ring.entry (ring.abWrite - 1)).ready = true

instance (ring : AudioRing) : Decidable (FirstAndLastReady ring) :=
  inferInstanceAs (Decidable (_ ∧ _))

/-- The request is decided on, and the frame is neither before the buffer nor the one
right after it. -/
def Pends (frame : RtpTime) (ring : AudioRing) : Prop :=
  ring.abSynced = true ∧ 0 < ring.intDifference ∧ FirstAndLastReady ring ∧
    0 < (frame - (ring.entry ring.abRead).givenTimestamp).toInt ∧
    frame ≠ (ring.entry (ring.abWrite - 1)).packet.lastFrame + 1

instance (frame : RtpTime) (ring : AudioRing) : Decidable (Pends frame ring) :=
  inferInstanceAs (Decidable (_ ∧ _))

/-- The request is not decided on, but no packet before the frame is due. -/
def Withholds (cfg : Config) (rd : Readings) (frame : RtpTime) (conn : ConnInfo) : Prop :=
  conn.abSynced = true ∧ 0 < conn.intDifference ∧ ¬ FirstAndLastReady conn.toAudioRing ∧
    ∀ q, Between conn.abRead conn.abWrite q → (conn.entry q).ready = true →
      WhollyBefore frame (conn.entry q).packet →
        frameNotDue cfg rd conn (conn.entry q) = true ∨
        ∀ k, ((conn.entry q).givenTimestamp -
          rd.localTimeToFrame k (timeToAimFor rd conn)).toInt < 0

/-- An iteration that looks at the request leaves it pending. -/
def KeepsPending (cfg : Config) (frame : RtpTime) (s : System) : Label → Prop
  | .get rd =>
      rd.haveTimestampTimingInformation = true →
        Pends frame s.conn.toAudioRing ∨ Withholds cfg rd frame s.conn
  | _ => True

/-! ## One iteration -/

section Iteration

variable {cfg : Config} {rd : Readings} {frame : RtpTime}

/-- A request that pends on a later frame flushes everything and stays. -/
theorem flushDecision_of_pends {conn : ConnInfo} (hframe : frame ≠ 0)
    (hforce : RequestInForce frame conn) (hpends : Pends frame conn.toAudioRing)
    (hlater : WhollyBefore frame (conn.entry (conn.abWrite - 1)).packet) :
    flushDecision conn = .flushAll false := by
  obtain ⟨hrequested, rfl⟩ := hforce
  obtain ⟨hs, hpos, ⟨hfirst, hlast⟩, hoffset, hnext⟩ := hpends
  unfold WhollyBefore at hlater
  unfold flushDecision
  rw [hrequested, if_neg (by simp), if_neg hframe, if_pos ⟨hs, hpos⟩]
  dsimp only
  rw [if_pos ⟨hfirst, hlast⟩, if_pos hoffset, if_neg (not_le.mpr hlater)]
  exact congrArg FlushDecision.flushAll (decide_eq_false hnext)

theorem flushDecision_of_not_ready {conn : ConnInfo} (hframe : frame ≠ 0)
    (hforce : RequestInForce frame conn) (hs : conn.abSynced = true)
    (hpos : 0 < conn.intDifference) (hready : ¬ FirstAndLastReady conn.toAudioRing) :
    flushDecision conn = .leave := by
  obtain ⟨hrequested, rfl⟩ := hforce
  unfold flushDecision
  rw [hrequested, if_neg (by simp), if_neg hframe, if_pos ⟨hs, hpos⟩]
  exact if_neg hready

/-- An iteration on a buffer that is not synced changes nothing more and goes round
again. -/
theorem waitForFrame_of_not_synced (cfg : Config) (rd : Readings) {pr : Progress}
    (h : pr.conn.abSynced = false) :
    waitForFrame cfg rd (currentFrame cfg rd (skipOutOfDate rd pr)) = (true, pr) := by
  have hcurrent : currentFrame cfg rd pr = pr := by
    unfold currentFrame
    rw [h]
    rfl
  rw [skipOutOfDate_of_not_synced rd h, hcurrent]
  unfold waitForFrame
  dsimp only
  rw [if_neg (by simp [h]), h]
  simp

/-- What looking at the current frame leaves alone, whatever the ring holds. -/
structure Looked (pr pr' : Progress) : Prop where
  audioBuffer : pr'.conn.audioBuffer = pr.conn.audioBuffer
  abWrite : pr'.conn.abWrite = pr.conn.abWrite
  abSynced : pr'.conn.abSynced = pr.conn.abSynced
  flush : pr'.conn.toFlushRequest = pr.conn.toFlushRequest
  packetCount : pr'.conn.packetCount = pr.conn.packetCount
  suppliesBefore : ∀ frame, pr'.events.countP (Event.suppliesBefore frame) =
    pr.events.countP (Event.suppliesBefore frame)

theorem Looked.trans {pr pr' pr'' : Progress} (h : Looked pr pr') (h' : Looked pr' pr'') :
    Looked pr pr'' where
  audioBuffer := h'.audioBuffer.trans h.audioBuffer
  abWrite := h'.abWrite.trans h.abWrite
  abSynced := h'.abSynced.trans h.abSynced
  flush := h'.flush.trans h.flush
  packetCount := h'.packetCount.trans h.packetCount
  suppliesBefore frame := (h'.suppliesBefore frame).trans (h.suppliesBefore frame)

theorem Untouched.looked {pr pr' : Progress} (h : Untouched pr pr') : Looked pr pr' where
  audioBuffer := congrArg AudioRing.audioBuffer h.ring
  abWrite := congrArg AudioRing.abWrite h.ring
  abSynced := congrArg AudioRing.abSynced h.ring
  flush := h.flush
  packetCount := h.packetCount
  suppliesBefore frame := by rw [h.events]

theorem checkSequence_looked (pr : Progress) : Looked pr (checkSequence pr) := by
  unfold checkSequence
  dsimp only
  split_ifs
  · exact ⟨rfl, rfl, rfl, rfl, rfl, fun frame => by rw [List.countP_append]; rfl⟩
  · exact ⟨rfl, rfl, rfl, rfl, rfl, fun frame => by rw [List.countP_append]; rfl⟩
  · exact ⟨rfl, rfl, rfl, rfl, rfl, fun frame => rfl⟩

theorem currentFrame_looked (cfg : Config) (rd : Readings) (pr : Progress) :
    Looked pr (currentFrame cfg rd pr) := by
  unfold currentFrame
  split
  · have hpoint : Looked pr (pointAtFrame pr) := ⟨rfl, rfl, rfl, rfl, rfl, fun _ => rfl⟩
    exact (hpoint.trans (checkSequence_looked _)).trans
      (leadIn_frame cfg rd (checkSequence (pointAtFrame pr))).toUntouched.looked
  · exact (Untouched.refl pr).looked

theorem frameNotDue_congr {conn conn' : ConnInfo} (h : conn'.abSynced = conn.abSynced)
    (abuf : AudioBufferEntry) : frameNotDue cfg rd conn' abuf = frameNotDue cfg rd conn abuf := by
  unfold frameNotDue
  rw [h]

theorem currentFrame_curframe_eq (cfg : Config) (rd : Readings) {pr : Progress}
    (hs : pr.conn.abSynced = true) :
    (currentFrame cfg rd pr).loop.curframe = some (bufidx pr.conn.abRead) := by
  unfold currentFrame
  rw [if_pos hs, (leadIn_frame cfg rd (checkSequence (pointAtFrame pr))).curframe]
  unfold checkSequence
  dsimp only
  split_ifs <;> rfl

theorem currentFrame_window_of_empty (cfg : Config) (rd : Readings) {pr : Progress}
    (h : pr.conn.abRead = pr.conn.abWrite) :
    (currentFrame cfg rd pr).conn.abRead = (currentFrame cfg rd pr).conn.abWrite := by
  have hcheck : checkSequence (pointAtFrame pr) = pointAtFrame pr := by
    unfold checkSequence
    dsimp only
    rw [if_neg fun hw => hw.1 h]
  unfold currentFrame
  split
  · rw [hcheck, (leadIn_frame cfg rd (pointAtFrame pr)).ring]
    exact h
  · exact h

/-- The frame the loop stops at is in the window, and it is due. -/
theorem released_of_stop {pr : Progress}
    (hstop : (waitForFrame cfg rd (currentFrame cfg rd pr)).1 = false) :
    pr.conn.abRead ≠ pr.conn.abWrite ∧
      (waitForFrame cfg rd (currentFrame cfg rd pr)).2.loop.curframe =
        some (bufidx pr.conn.abRead) ∧
      frameNotDue cfg rd pr.conn (pr.conn.entry pr.conn.abRead) = false := by
  obtain ⟨hs, hne⟩ := waitForFrame_stops hstop
  have hlooked := currentFrame_looked cfg rd pr
  have hcur := currentFrame_curframe_eq cfg rd (hlooked.abSynced ▸ hs)
  refine ⟨fun h => hne (currentFrame_window_of_empty cfg rd h), ?_, ?_⟩
  · rw [(waitForFrame_frame cfg rd (currentFrame cfg rd pr)).curframe]
    exact hcur
  · have hdue := waitForFrame_due hstop hcur
    rwa [frameNotDue_congr hlooked.abSynced, hlooked.audioBuffer] at hdue

/-- The state of an iteration in progress while the request stays in force and nothing
before the frame has been handed out. -/
structure StaysPending (frame : RtpTime) (pr : Progress) : Prop where
  force : RequestInForce frame pr.conn
  packetCount : pr.conn.packetCount ≠ 0
  quiet : pr.events.countP (Event.suppliesBefore frame) = 0

theorem StaysPending.of_looked {pr pr' : Progress} (h : StaysPending frame pr)
    (hl : Looked pr pr') : StaysPending frame pr' := by
  refine ⟨?_, ?_, ?_⟩
  · unfold RequestInForce
    rw [hl.flush]
    exact h.force
  · rw [hl.packetCount]
    exact h.packetCount
  · rw [hl.suppliesBefore]
    exact h.quiet

theorem StaysPending.flushOutput {pr : Progress} (h : StaysPending frame pr) (cfg : Config) :
    StaysPending frame (flushOutput cfg pr) := by
  obtain ⟨hrequested, htimestamp⟩ := flushOutput_request cfg pr
  refine ⟨⟨hrequested.trans h.force.1, htimestamp.trans h.force.2⟩, ?_, ?_⟩
  · unfold Player.flushOutput
    split <;> exact h.packetCount
  · rw [flushOutput_events]
    exact h.quiet

theorem skipLoop_suppliesBefore (slots : Fin bufferFrames → AudioBufferEntry)
    (shouldBeFrame : ℕ → RtpTime) (n k : ℕ) (r : SeqT) :
    (skipLoop slots shouldBeFrame n k r).2.countP (Event.suppliesBefore frame) = 0 := by
  induction n generalizing k r with
  | zero => rfl
  | succ n ih =>
      unfold skipLoop
      dsimp only
      split_ifs
      · exact ih _ _
      · rfl
      · exact ih _ _

theorem StaysPending.skipOutOfDate {pr : Progress} (h : StaysPending frame pr)
    (rd : Readings) : StaysPending frame (skipOutOfDate rd pr) := by
  unfold Player.skipOutOfDate
  split
  · refine ⟨h.force, h.packetCount, ?_⟩
    rw [List.countP_append, h.quiet, skipLoop_suppliesBefore]
  · exact h

/-- Handing out a packet that is not before the frame. -/
theorem StaysPending.handOut {pr : Progress} (h : StaysPending frame pr) {i : Fin bufferFrames}
    (hcur : pr.loop.curframe = some i)
    (hafter : (pr.conn.audioBuffer i).ready = true →
      ¬ WhollyBefore frame (pr.conn.audioBuffer i).packet) :
    StaysPending frame (handOut pr) := by
  simp only [Player.handOut, hcur]
  refine ⟨h.force, h.packetCount, ?_⟩
  rw [List.countP_append, h.quiet, Nat.zero_add]
  split
  · rename_i hready
    have hgiven : (pr.conn.audioBuffer i).handOut.packet = (pr.conn.audioBuffer i).packet := by
      unfold AudioBufferEntry.handOut
      rw [if_pos hready]
      rfl
    simp [Event.suppliesBefore, hgiven, hafter hready]
  · rfl

/-- Where the skipping stops, no packet before the frame is due. -/
theorem not_whollyBefore_of_withholds {conn : ConnInfo} {pr : Progress}
    (hw : Withholds cfg rd frame conn) (hring : pr.conn.toAudioRing = conn.toAudioRing)
    (haim : timeToAimFor rd pr.conn = timeToAimFor rd conn)
    (hstop : (waitForFrame cfg rd (currentFrame cfg rd (skipOutOfDate rd pr))).1 = false)
    (hready : ((skipOutOfDate rd pr).conn.entry (skipOutOfDate rd pr).conn.abRead).ready = true) :
    ¬ WhollyBefore frame
      ((skipOutOfDate rd pr).conn.entry (skipOutOfDate rd pr).conn.abRead).packet := by
  obtain ⟨hs, hpos, -, hdue⟩ := hw
  obtain ⟨hne, -, hreleased⟩ := released_of_stop hstop
  have hsynced : pr.conn.abSynced = true := by
    rw [hring]
    exact hs
  rw [frameNotDue_congr ((skipOutOfDate_request rd pr).2.trans
    (hsynced.trans hs.symm))] at hreleased
  unfold skipOutOfDate at hne hready hreleased ⊢
  rw [if_pos hsynced] at hne hready hreleased ⊢
  dsimp only [AudioRing.entry] at hne hready hreleased ⊢
  rw [hring, haim] at hne hready hreleased ⊢
  have hcount := intDifference_toNat_of_pos hpos
  rcases skipLoop_stops conn.audioBuffer
    (fun k => rd.localTimeToFrame k (timeToAimFor rd conn)) conn.intDifference.toNat 0
    conn.abRead with hend | ⟨⟨j, hj, hread⟩, k, htime⟩
  · rw [hcount, add_ofNat_distance] at hend
    exact absurd (hcount ▸ hend) hne
  · intro hbefore
    have hq : Between conn.abRead conn.abWrite (conn.abRead + BitVec.ofNat 16 j) :=
      forall_lt_distance_iff.mpr (fun q hq => hq) j (hcount ▸ hj)
    rw [hread] at hready hreleased hbefore htime
    rcases hdue _ hq hready hbefore with hnot | hlate
    · exact absurd (hreleased.symm.trans hnot) Bool.false_ne_true
    · exact absurd (hlate k) (not_lt.mpr htime)

theorem requestFlushes_packetCount (cfg : Config) (rd : Readings) (conn : ConnInfo) :
    (requestFlushes cfg rd conn).packetCount = conn.packetCount := by
  unfold requestFlushes
  split_ifs <;> rfl

theorem flushOutput_timeToAimFor (cfg : Config) (rd : Readings) (pr : Progress) :
    timeToAimFor rd (flushOutput cfg pr).conn = timeToAimFor rd pr.conn := by
  unfold flushOutput
  split <;> rfl

theorem StaysPending.flushAll {pr : Progress} (h : StaysPending frame pr) :
    StaysPending frame (flushAll pr) := by
  refine ⟨h.force, h.packetCount, ?_⟩
  unfold Player.flushAll
  rw [List.countP_append, h.quiet]
  rfl

/-- An iteration that meets the condition keeps the request and hands out no packet before
the frame. -/
theorem bufferGetFrameIteration_staysPending {conn : ConnInfo} (loop : FrameLoop)
    (hframe : frame ≠ 0) (hforce : RequestInForce frame conn)
    (hcount : conn.packetCount ≠ 0)
    (hnew : (requestFlushes cfg rd conn).toFlushRequest = conn.toFlushRequest)
    (hkeeps : rd.haveTimestampTimingInformation = true →
      (Pends frame conn.toAudioRing ∧
        WhollyBefore frame (conn.entry (conn.abWrite - 1)).packet) ∨
      Withholds cfg rd frame conn) :
    StaysPending frame (bufferGetFrameIteration cfg rd conn loop).2 ∧
      ((bufferGetFrameIteration cfg rd conn loop).1 = false →
        StaysPending frame (handOut (bufferGetFrameIteration cfg rd conn loop).2)) := by
  unfold bufferGetFrameIteration
  by_cases htiming : rd.haveTimestampTimingInformation = true
  · rw [if_pos htiming]
    have hstart : StaysPending frame ⟨requestFlushes cfg rd conn, loop, [], []⟩ := by
      refine ⟨?_, ?_, rfl⟩
      · unfold RequestInForce
        rw [hnew]
        exact hforce
      · rw [requestFlushes_packetCount]
        exact hcount
    have hout := hstart.flushOutput cfg
    have hring :
        (Player.flushOutput cfg ⟨requestFlushes cfg rd conn, loop, [], []⟩).conn.toAudioRing =
          conn.toAudioRing := by simp
    have haim : timeToAimFor rd
        (Player.flushOutput cfg ⟨requestFlushes cfg rd conn, loop, [], []⟩).conn =
          timeToAimFor rd conn := by
      rw [flushOutput_timeToAimFor, requestFlushes_timeToAimFor]
    unfold flushAndSkip serviceFlush
    dsimp only
    generalize Player.flushOutput cfg ⟨requestFlushes cfg rd conn, loop, [], []⟩ = out
      at hout hring haim ⊢
    rcases hkeeps htiming with ⟨hpends, hlater⟩ | hw
    · rw [← hring] at hpends hlater
      rw [flushDecision_of_pends hframe hout.force hpends hlater]
      dsimp only
      rw [waitForFrame_of_not_synced cfg rd rfl]
      exact ⟨hout.flushAll, fun h => absurd h (by simp)⟩
    · obtain ⟨hs, hpos, hready, -⟩ := id hw
      rw [← hring] at hs hpos hready
      rw [flushDecision_of_not_ready hframe hout.force hs hpos hready]
      dsimp only
      have hskip := hout.skipOutOfDate rd
      have hlooked := (currentFrame_looked cfg rd (Player.skipOutOfDate rd out)).trans
        (waitForFrame_frame cfg rd _).toUntouched.looked
      refine ⟨hskip.of_looked hlooked, fun hstop => ?_⟩
      obtain ⟨-, hcur, -⟩ := released_of_stop hstop
      refine (hskip.of_looked hlooked).handOut hcur ?_
      rw [hlooked.audioBuffer]
      exact not_whollyBefore_of_withholds hw hring haim hstop
  · rw [if_neg htiming]
    exact ⟨⟨hforce, hcount, rfl⟩, fun h => absurd h (by simp)⟩

end Iteration

/-! ## Runs -/

/-- The request is in force, and `count` packets before the frame have been handed out. -/
structure Pending (frame : RtpTime) (count : ℕ) (s : System) : Prop where
  force : RequestInForce frame s.conn
  packetCount : s.conn.packetCount ≠ 0
  handedOut : s.log.countP (Event.suppliesBefore frame) = count

section Steps

variable {cfg : Config} {decode : PacketDecoder} {frame : RtpTime} {count : ℕ} {s t : System}

theorem Pending.of_staysPending {pr : Progress} (h : Pending frame count s)
    (hpr : StaysPending frame pr) (hconn : t.conn = pr.conn)
    (hlog : t.log = s.log ++ pr.events) : Pending frame count t := by
  refine ⟨hconn ▸ hpr.force, hconn ▸ hpr.packetCount, ?_⟩
  rw [hlog, List.countP_append, h.handedOut, hpr.quiet, Nat.add_zero]

theorem requestInForce_of_resendFrame {conn conn' : ConnInfo} (hframe : ResendFrame conn conn')
    (h : RequestInForce frame conn ∧ conn.packetCount ≠ 0) :
    RequestInForce frame conn' ∧ conn'.packetCount ≠ 0 := by
  rw [hframe.rest]
  exact h

theorem playerPutPacketStore_request (timeNow : Nanoseconds) (a : PutArgs) {conn : ConnInfo}
    (hforce : RequestInForce frame conn) (hcount : conn.packetCount ≠ 0) :
    RequestInForce frame (playerPutPacketStore decode timeNow a conn).1 ∧
      (playerPutPacketStore decode timeNow a conn).1.packetCount ≠ 0 := by
  have hcounted : RequestInForce frame (countPacket timeNow (ignoreEarlyFlush conn)) ∧
      (countPacket timeNow (ignoreEarlyFlush conn)).packetCount ≠ 0 := by
    unfold ignoreEarlyFlush
    rw [if_neg hcount]
    exact ⟨hforce, Nat.succ_ne_zero _⟩
  unfold playerPutPacketStore
  dsimp only
  split
  · exact hcounted
  · have hstore := storePacket_frame decode timeNow a (countPacket timeNow (ignoreEarlyFlush conn))
    unfold RequestInForce
    rw [hstore.flush, hstore.packetCount]
    exact hcounted

theorem playerPutPacketStore_suppliesBefore (timeNow : Nanoseconds) (a : PutArgs)
    (conn : ConnInfo) :
    (playerPutPacketStore decode timeNow a conn).2.countP (Event.suppliesBefore frame) = 0 := by
  have hsync : ∀ conn, (syncToPacket a conn).2.countP (Event.suppliesBefore frame) = 0 := by
    intro conn
    unfold syncToPacket
    split <;> rfl
  have hfill : ∀ seqno abuf, (fillEvent seqno abuf).suppliesBefore frame = false := by
    intro seqno abuf
    unfold fillEvent
    split <;> rfl
  unfold playerPutPacketStore storePacket fillSlot
  dsimp only
  split
  · rfl
  · split
    · exact hsync _
    · rw [List.countP_append, hsync, List.countP_singleton, hfill]
      rfl

/-- One step that keeps the request pending. -/
theorem Pending.step {l : Label} (hframe : frame ≠ 0) (h : Pending frame count s)
    (hnew : NoNewRequest cfg s l)
    (hkeeps : ∀ rd, l = .get rd → rd.haveTimestampTimingInformation = true →
      (Pends frame s.conn.toAudioRing ∧
        WhollyBefore frame (s.conn.entry (s.conn.abWrite - 1)).packet) ∨
      Withholds cfg rd frame s.conn)
    (hstep : Player.step cfg decode s l = some t) : Pending frame count t := by
  cases l with
  | put thread timeNow a =>
      obtain ⟨-, rfl⟩ := step_put_eq_some_iff.mp hstep
      obtain ⟨hforce, hcount⟩ := requestInForce_of_resendFrame
        (put_resendFrame cfg decode s thread timeNow a)
        (playerPutPacketStore_request timeNow a h.force h.packetCount)
      refine ⟨hforce, hcount, ?_⟩
      rw [put_log, List.countP_append, h.handedOut, playerPutPacketStore_suppliesBefore,
        Nat.add_zero]
  | resent thread =>
      obtain ⟨scan, -, rfl⟩ := step_resent_eq_some_iff.mp hstep
      obtain ⟨hforce, hcount⟩ :=
        requestInForce_of_resendFrame (resent_resendFrame cfg s thread scan)
          ⟨h.force, h.packetCount⟩
      have hlog : (s.resent cfg thread scan).log = s.log := afterScan_log _ _ _
      exact ⟨hforce, hcount, hlog ▸ h.handedOut⟩
  | get rd =>
      obtain ⟨loop, -, rfl⟩ := step_get_eq_some_iff.mp hstep
      obtain ⟨hwait, hout⟩ := bufferGetFrameIteration_staysPending loop hframe h.force
        h.packetCount hnew (hkeeps rd rfl)
      unfold System.get
      dsimp only
      split
      · exact h.of_staysPending hwait rfl rfl
      · rename_i hstop
        exact h.of_staysPending (hout (Bool.eq_false_iff.mpr hstop)) rfl rfl
  | finish played =>
      obtain ⟨slot, -, rfl⟩ := step_finish_eq_some_iff.mp hstep
      cases played <;> exact ⟨h.force, h.packetCount, h.handedOut⟩
  | resync linkResumed => exact absurd hnew id
  | flush timestamp => exact absurd hnew id

theorem whollyBefore_last {ring : AudioRing} (h : BeforePoint frame ring)
    (hp : Pends frame ring) : WhollyBefore frame (ring.entry (ring.abWrite - 1)).packet := by
  obtain ⟨hs, hpos, ⟨-, hlast⟩, -, -⟩ := hp
  have hne : ring.abWrite ≠ ring.abRead := by
    intro heq
    unfold AudioRing.intDifference at hpos
    rw [heq] at hpos
    omega
  exact h hs _ (between_sub_one hne) hlast

end Steps

def System.flushTo (frame : RtpTime) (s : System) : System :=
  { s with conn := doFlush frame s.conn }

/-- After a request to flush to a frame that is later than the end of the buffer when the
request is first looked at, and for as long as no packet in the buffer contains or
follows the frame: if every iteration that looks at the request leaves it pending, it
stays in force, and no packet before the frame is handed to the player. -/
theorem future_flush_stays_in_force (cfg : Config) (decode : PacketDecoder) (s u t : System)
    (frame : RtpTime) (pre post : List Label) (rd : Readings)
    (hframe : frame ≠ 0) (hpacket : s.conn.packetCount ≠ 0)
    (hpre : Along (step cfg decode) (fun s l => NoNewRequest cfg s l ∧ NotServicing l)
      (s.flushTo frame) pre)
    (hfirst : run (step cfg decode) (s.flushTo frame) pre = some u)
    (hlater : LaterThanEnd frame u.conn.toAudioRing)
    (hnew : Along (step cfg decode) (NoNewRequest cfg) u (.get rd :: post))
    (hbefore : ∀ v, step cfg decode u (.get rd) = some v →
      Along (step cfg decode) (fun s _ => BeforePoint frame s.conn.toAudioRing) v post)
    (hkeeps : Along (step cfg decode) (KeepsPending cfg frame) u (.get rd :: post))
    (hrun : run (step cfg decode) u (.get rd :: post) = some t) :
    RequestInForce frame t.conn ∧
      t.log.countP (Event.suppliesBefore frame) = s.log.countP (Event.suppliesBefore frame) := by
  have hstart : Pending frame (s.log.countP (Event.suppliesBefore frame)) (s.flushTo frame) :=
    ⟨⟨rfl, rfl⟩, hpacket, rfl⟩
  have hu : Pending frame (s.log.countP (Event.suppliesBefore frame)) u := by
    refine run_invariant ?_ hstart (throughout_true _ pre) hpre hfirst
    rintro s l u h - ⟨hnew, hnot⟩ hstep -
    refine h.step hframe hnew ?_ hstep
    rintro rd rfl htiming
    exact absurd (hnot.symm.trans htiming) Bool.false_ne_true
  obtain ⟨v, hv, hpost⟩ := run_cons_eq_some_iff.mp hrun
  obtain ⟨hnewu, hnewv⟩ := hnew v hv
  obtain ⟨hkeepsu, hkeepsv⟩ := hkeeps v hv
  have hv' : Pending frame (s.log.countP (Event.suppliesBefore frame)) v := by
    refine hu.step hframe hnewu ?_ hv
    rintro rd' heq htiming
    obtain rfl := Label.get.inj heq
    exact (hkeepsu htiming).imp_left fun hp => ⟨hp, hlater.2.2⟩
  have ht : Pending frame (s.log.countP (Event.suppliesBefore frame)) t := by
    refine run_invariant ?_ hv' (throughout_true _ post) ((hnewv.and (hbefore v hv)).and hkeepsv)
      hpost
    rintro s l u h - ⟨⟨hnew, hbefore⟩, hkeeps⟩ hstep -
    refine h.step hframe hnew ?_ hstep
    rintro rd rfl htiming
    exact (hkeeps htiming).imp_left fun hp => ⟨hp, whollyBefore_last hbefore hp⟩
  exact ⟨ht.force, ht.handedOut⟩

def onePacket : System :=
  (System.start .fresh 0).put .playOnly .pcm 0 1 (.original 10 1000 [1, 2, 3, 4])

theorem future_flush_stays_in_force_until_put :
    ∃ t, run (step .playOnly .pcm) (onePacket.flushTo 5000)
        [.get (.at 10 900 5), .put 0 2 (.original 11 1001 [5, 6, 7, 8])] = some t ∧
      RequestInForce 5000 t.conn := by
  have hbefore : Along (step .playOnly .pcm)
      (fun s _ => BeforePoint 5000 s.conn.toAudioRing) (onePacket.flushTo 5000)
      [.get (.at 10 900 5), .put 0 2 (.original 11 1001 [5, 6, 7, 8])] := by decide +kernel
  obtain ⟨t, hrun⟩ := Option.isSome_iff_exists.mp (show (run (step .playOnly .pcm)
    (onePacket.flushTo 5000) [.get (.at 10 900 5),
      .put 0 2 (.original 11 1001 [5, 6, 7, 8])]).isSome by decide +kernel)
  refine ⟨t, hrun, (future_flush_stays_in_force .playOnly .pcm onePacket
    (onePacket.flushTo 5000) t 5000 [] [.put 0 2 (.original 11 1001 [5, 6, 7, 8])]
    (.at 10 900 5) (by decide) (by decide +kernel) trivial rfl (by decide +kernel)
    (by decide +kernel) (fun v hv => (hbefore v hv).2)
    (fun v _ => ⟨fun _ => Or.inl (by decide +kernel), fun _ _ => ⟨trivial, trivial⟩⟩)
    hrun).1⟩

/-- The iteration after the one that flushed the buffer removes the request. -/
theorem future_flush_removed_by_next_iteration :
    ¬ ∀ (cfg : Config) (decode : PacketDecoder) (s u t : System) (frame : RtpTime)
      (pre post : List Label) (rd : Readings), frame ≠ 0 → s.conn.packetCount ≠ 0 →
      Along (step cfg decode) (fun s l => NoNewRequest cfg s l ∧ NotServicing l)
        (s.flushTo frame) pre →
      run (step cfg decode) (s.flushTo frame) pre = some u →
      LaterThanEnd frame u.conn.toAudioRing →
      Along (step cfg decode) (NoNewRequest cfg) u (.get rd :: post) →
      (∀ v, step cfg decode u (.get rd) = some v →
        Along (step cfg decode) (fun s _ => BeforePoint frame s.conn.toAudioRing) v post) →
      run (step cfg decode) u (.get rd :: post) = some t →
      RequestInForce frame t.conn ∧
        t.log.countP (Event.suppliesBefore frame) =
          s.log.countP (Event.suppliesBefore frame) := by
  intro h
  have hbefore : Along (step .playOnly .pcm)
      (fun s _ => BeforePoint 5000 s.conn.toAudioRing) (onePacket.flushTo 5000)
      [.get (.at 10 900 5), .get (.at 11 901 5)] := by decide +kernel
  have hend : (run (step .playOnly .pcm) (onePacket.flushTo 5000)
      [.get (.at 10 900 5), .get (.at 11 901 5)]).map (fun t => t.conn.flushRequested) =
      some false := by decide +kernel
  obtain ⟨t, hrun, hremoved⟩ := Option.map_eq_some_iff.mp hend
  have hforce := h .playOnly .pcm onePacket (onePacket.flushTo 5000) t 5000 []
    [.get (.at 11 901 5)] (.at 10 900 5) (by decide) (by decide +kernel) trivial rfl
    (by decide +kernel) (by decide +kernel) (fun v hv => (hbefore v hv).2) hrun
  exact absurd (hforce.1.1.symm.trans hremoved) (by decide)

end Player

end ShairportSync
