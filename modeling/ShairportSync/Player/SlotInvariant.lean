import ShairportSync.Player.Holds

/-!
# The slots of the window hold their own packets

In every run in which the occupancy stays within the ring, a ready slot of the window
holds the packet of its own sequence number. Two places of the source spoil this, and
`SlotsSafe` says that a step does not go through them: a newer packet whose number is
numerically below `abWrite` leaves the slots of the gap as they are (`GapCleared`), and
the player thread marks its frame as finished without the mutex, when a resync may have
given the slot to another packet (`FinishUnseen`).
-/

namespace ShairportSync

namespace Player

open SerialNumber Transition

/-! ## One iteration of `buffer_get_frame` -/

/-- The ring in the middle of an iteration that started from the abstract buffer `m`. -/
structure Intact (m : Held) (pr : Progress) : Prop where
  holds : pr.conn.toAudioRing.Holds (m.applyAll pr.events)
  fits : pr.conn.toAudioRing.Fits
  noSequenceError : ∀ e ∈ pr.events, e.isSequenceError = false

section Iteration

variable {m : Held} {pr pr' : Progress}

theorem Intact.congr (h : Intact m pr)
    (hring : pr'.conn.toAudioRing = pr.conn.toAudioRing) (hevents : pr'.events = pr.events) :
    Intact m pr' where
  holds := by
    rw [hring, hevents]
    exact h.holds
  fits := by
    rw [hring]
    exact h.fits
  noSequenceError := by
    rw [hevents]
    exact h.noSequenceError

theorem fits_of_distance_le {ring ring' : AudioRing} (h : ring.Fits)
    (hsynced : ring'.abSynced = true → ring.abSynced = true)
    (hle : distance ring'.abRead ring'.abWrite ≤ distance ring.abRead ring.abWrite) :
    ring'.Fits := fun hs =>
  (occupancy_le_iff bufferFrames_lt ring').mpr (le_trans hle (h.distance_le (hsynced hs)))

theorem flushedEvents_noSequenceError (n : ℕ) (seqno : SeqT) :
    ∀ e ∈ flushedEvents n seqno, e.isSequenceError = false := by
  induction n generalizing seqno with
  | zero => simp [flushedEvents]
  | succ n ih =>
      intro e he
      rcases List.mem_cons.mp he with rfl | he
      · rfl
      · exact ih _ e he

theorem skipLoop_noSequenceError (slots : Fin bufferFrames → AudioBufferEntry)
    (shouldBeFrame : ℕ → RtpTime) (n k : ℕ) (r : SeqT) :
    ∀ e ∈ (skipLoop slots shouldBeFrame n k r).2, e.isSequenceError = false := by
  induction n generalizing k r with
  | zero => simp [skipLoop]
  | succ n ih =>
      unfold skipLoop
      dsimp only
      split_ifs
      · intro e he
        rcases List.mem_cons.mp he with rfl | he
        · rfl
        · exact ih _ _ e he
      · simp
      · intro e he
        rcases List.mem_cons.mp he with rfl | he
        · rfl
        · exact ih _ _ e he

theorem Intact.flushPart (h : Intact m pr) : Intact m (flushPart pr) where
  holds hs := by
    obtain ⟨hdrop, hle⟩ := dropBeforeFlush_holds pr.conn.flushRtpTimestamp _ (h.holds hs)
      (intDifference_toNat_le pr.conn.toAudioRing)
    have hlen := h.fits.distance_le hs
    simp only [Player.flushPart, Held.applyAll_append]
    exact hdrop.trim (hle.trans hlen) pr.conn.inputBytesPerFrame pr.conn.flushRtpTimestamp
  fits := by
    refine fun hs => (occupancy_le_iff bufferFrames_lt _).mpr ?_
    obtain ⟨-, hle⟩ := dropBeforeFlush_holds pr.conn.flushRtpTimestamp _ (h.holds hs)
      (intDifference_toNat_le pr.conn.toAudioRing)
    exact le_trans hle (h.fits.distance_le hs)
  noSequenceError := by
    intro e he
    simp only [Player.flushPart, List.mem_append, List.mem_singleton] at he
    rcases he with (he | he) | rfl
    · exact h.noSequenceError e he
    · exact flushedEvents_noSequenceError _ _ e he
    · rfl

theorem Intact.flushAll (h : Intact m pr) : Intact m (flushAll pr) where
  holds hs := absurd hs Bool.false_ne_true
  fits hs := absurd hs Bool.false_ne_true
  noSequenceError := by
    intro e he
    rcases List.mem_append.mp he with he | he
    · exact h.noSequenceError e he
    · rw [List.mem_singleton.mp he]
      rfl

theorem Intact.serviceFlush (h : Intact m pr) (cfg : Config) :
    Intact m (serviceFlush cfg pr) := by
  have hout : Intact m (flushOutput cfg pr) := h.congr (by simp) (by simp)
  unfold Player.serviceFlush
  dsimp only
  split
  · exact hout
  · exact hout.flushAll.congr rfl rfl
  · exact hout.flushAll
  · exact hout.flushPart.congr rfl rfl
  · exact hout.congr rfl rfl
  · exact hout.congr rfl rfl

theorem Intact.skipOutOfDate (h : Intact m pr) (rd : Readings) :
    Intact m (skipOutOfDate rd pr) := by
  unfold Player.skipOutOfDate
  split
  · rename_i hs
    obtain ⟨hskip, hle⟩ := skipLoop_holds
      (fun k => rd.localTimeToFrame k (timeToAimFor rd pr.conn)) _ 0 (h.holds hs)
      (intDifference_toNat_le pr.conn.toAudioRing)
    constructor
    · intro _
      rw [Held.applyAll_append]
      exact hskip
    · exact fits_of_distance_le h.fits id hle
    · intro e he
      rcases List.mem_append.mp he with he | he
      · exact h.noSequenceError e he
      · exact skipLoop_noSequenceError _ _ _ _ _ e he
  · exact h

theorem Intact.checkSequence_eq (h : Intact m pr) (hs : pr.conn.abSynced = true) :
    checkSequence pr = pr := by
  unfold checkSequence
  dsimp only
  rw [if_neg]
  rintro ⟨hne, hready, hseq⟩
  exact hseq ((h.holds hs).packet_of_ready (between_left hne.symm) hready).1

theorem Intact.currentFrame_untouched (h : Intact m pr) (cfg : Config) (rd : Readings) :
    Untouched pr (currentFrame cfg rd pr) := by
  unfold Player.currentFrame
  split
  · rename_i hs
    have hcur : Intact m (pointAtFrame pr) := h.congr rfl rfl
    rw [hcur.checkSequence_eq hs]
    have hpoint : Untouched pr (pointAtFrame pr) := ⟨rfl, rfl, rfl, rfl, rfl⟩
    exact hpoint.trans (leadIn_frame cfg rd (pointAtFrame pr)).toUntouched
  · exact .refl pr

/-- The current frame of a synced buffer is in the slot of `abRead`. -/
theorem currentFrame_curframe (cfg : Config) (rd : Readings) (pr : Progress)
    (hs : (currentFrame cfg rd pr).conn.abSynced = true) :
    (currentFrame cfg rd pr).loop.curframe =
      some (bufidx (currentFrame cfg rd pr).conn.abRead) := by
  unfold Player.currentFrame at hs ⊢
  split
  · have hframe := leadIn_frame cfg rd (checkSequence (pointAtFrame pr))
    rw [hframe.curframe, hframe.ring]
    unfold checkSequence
    dsimp only
    split_ifs with hwrong halias
    · exact congrArg some halias.symm
    · rfl
    · rfl
  · rename_i hns
    rw [if_neg hns] at hs
    exact absurd hs hns

/-- The loop has stopped at the frame at the start of a window that is not empty. -/
structure Released (pr : Progress) : Prop where
  synced : pr.conn.abSynced = true
  nonempty : pr.conn.abRead ≠ pr.conn.abWrite
  curframe : pr.loop.curframe = some (bufidx pr.conn.abRead)

theorem Intact.handOut (h : Intact m pr) (hr : Released pr) : Intact m (handOut pr) := by
  have hlen := h.fits.distance_le hr.synced
  have hleft := distance_add_one_left hr.nonempty.symm
  simp only [Player.handOut, hr.curframe]
  constructor
  · intro _
    have hleave := (h.holds hr.synced).leave_write hr.nonempty.symm hlen
      (pr.conn.audioBuffer (bufidx pr.conn.abRead)).handOut
    rw [Held.applyAll_append, Held.applyAll_cons]
    split <;> exact hleave
  · refine fits_of_distance_le h.fits (fun _ => hr.synced) ?_
    exact Nat.le_of_succ_le hleft.le
  · intro e he
    rcases List.mem_append.mp he with he | he
    · exact h.noSequenceError e he
    · rw [List.mem_singleton.mp he]
      split <;> rfl

/-- After the skipping, an iteration leaves a faithful ring alone, and it stops only at a
frame of the window. -/
theorem Intact.waitForFrame (h : Intact m pr) (cfg : Config) (rd : Readings) :
    Untouched pr (waitForFrame cfg rd (currentFrame cfg rd pr)).2 ∧
      ((waitForFrame cfg rd (currentFrame cfg rd pr)).1 = false →
        Released (waitForFrame cfg rd (currentFrame cfg rd pr)).2) := by
  have hframe := waitForFrame_frame cfg rd (currentFrame cfg rd pr)
  refine ⟨(h.currentFrame_untouched cfg rd).trans hframe.toUntouched, fun hstop => ?_⟩
  obtain ⟨hs, hne⟩ := waitForFrame_stops hstop
  refine ⟨?_, ?_, ?_⟩
  · rw [hframe.ring]
    exact hs
  · rw [hframe.ring]
    exact hne
  · rw [hframe.curframe, hframe.ring]
    exact currentFrame_curframe cfg rd pr hs

def startIteration (cfg : Config) (rd : Readings) (conn : ConnInfo) (loop : FrameLoop) :
    Progress :=
  ⟨requestFlushes cfg rd conn, loop, [], []⟩

theorem intact_startIteration (cfg : Config) (rd : Readings) {conn : ConnInfo}
    (loop : FrameLoop) (h : conn.toAudioRing.Holds m) (hfits : conn.toAudioRing.Fits) :
    Intact m (startIteration cfg rd conn loop) := by
  unfold startIteration
  refine ⟨?_, ?_, by simp⟩
  · simpa using h
  · simpa using hfits

theorem bufferGetFrameIteration_intact (cfg : Config) (rd : Readings) {conn : ConnInfo}
    (loop : FrameLoop) (h : conn.toAudioRing.Holds m) (hfits : conn.toAudioRing.Fits) :
    Intact m (bufferGetFrameIteration cfg rd conn loop).2 ∧
      ((bufferGetFrameIteration cfg rd conn loop).1 = false →
        Intact m (Player.handOut (bufferGetFrameIteration cfg rd conn loop).2)) := by
  unfold bufferGetFrameIteration
  split
  · have hskip := ((intact_startIteration cfg rd loop h hfits).serviceFlush cfg).skipOutOfDate rd
    obtain ⟨huntouched, hreleased⟩ := hskip.waitForFrame cfg rd
    have hwait := hskip.congr huntouched.ring huntouched.events
    exact ⟨hwait, fun hstop => hwait.handOut (hreleased hstop)⟩
  · exact ⟨⟨h, hfits, by simp⟩, fun hstop => absurd hstop (by simp)⟩

end Iteration

/-! ## Runs -/

/-- The slot the player thread is about to mark as finished is not a ready slot of the
window. -/
def FinishUnseen (s : System) (frame : Fin bufferFrames) : Prop :=
  s.conn.abSynced = true →
    ∀ q, Between s.conn.abRead s.conn.abWrite q → bufidx q = frame →
      (s.conn.audioBuffer frame).ready = false

instance (s : System) (frame : Fin bufferFrames) : Decidable (FinishUnseen s frame) :=
  inferInstanceAs (Decidable (_ → _))

/-- The step leaves no stale entry in the window. -/
def SlotsSafe (s : System) : Label → Prop
  | .put _ _ a => s.conn.connectionStateToOutput ≠ 0 → GapCleared a s.conn
  | .finish played =>
      match s.player with
      | .playing frame => played = true → FinishUnseen s frame
      | .getting _ => True
  | _ => True

instance (s : System) : ∀ l, Decidable (SlotsSafe s l)
  | .put _ _ a =>
      inferInstanceAs (Decidable (s.conn.connectionStateToOutput ≠ 0 → GapCleared a s.conn))
  | .finish played =>
      match h : s.player with
      | .playing frame =>
          decidable_of_iff (played = true → FinishUnseen s frame) (by simp [SlotsSafe, h])
      | .getting _ => isTrue (by simp [SlotsSafe, h])
  | .resent _ => isTrue trivial
  | .get _ => isTrue trivial
  | .resync _ => isTrue trivial
  | .flush _ => isTrue trivial

/-- Every ready slot of a synced window holds the packet of its own number, and neither
branch for a wrong sequence number has been taken. -/
def SlotsHoldTheirPackets (s : System) : Prop :=
  (s.conn.abSynced = true →
    ∀ q, Between s.conn.abRead s.conn.abWrite q → (s.conn.entry q).ready = true →
      (s.conn.entry q).sequenceNumber = q ∧ held s.log q = some (s.conn.entry q).packet) ∧
  ∀ e ∈ s.log, e.isSequenceError = false

/-- The invariant: the ring is a copy of the abstract buffer of the log. -/
structure SlotInvariant (s : System) : Prop where
  holds : s.conn.toAudioRing.Holds (held s.log)
  noSequenceError : ∀ e ∈ s.log, e.isSequenceError = false

section Steps

variable {cfg : Config} {decode : PacketDecoder} {s t : System}

theorem SlotInvariant.slotsHoldTheirPackets (h : SlotInvariant s) :
    SlotsHoldTheirPackets s :=
  ⟨fun hs _ hq hready => (h.holds hs).packet_of_ready hq hready, h.noSequenceError⟩

theorem slotInvariant_start (conn : ConnInfo) (firstPossiblyMissingFrame : Int) :
    SlotInvariant (System.start conn firstPossiblyMissingFrame) :=
  ⟨fun hs => absurd hs Bool.false_ne_true, by simp [System.start]⟩

theorem ResendFrame.holds {conn conn' : ConnInfo} {m : Held} (h : ResendFrame conn conn')
    (hm : conn.toAudioRing.Holds m) : conn'.toAudioRing.Holds m := by
  intro hs
  rw [h.rest] at hs ⊢
  exact (hm hs).congr_slots fun q _ => h.content (bufidx q)

theorem ResendFrame.fits_iff {conn conn' : ConnInfo} (h : ResendFrame conn conn') :
    conn'.toAudioRing.Fits ↔ conn.toAudioRing.Fits := by
  rw [h.rest]
  rfl

theorem afterScan_conn (s : System) (thread : ℕ) (outcome : ResendOutcome) :
    (s.afterScan thread outcome).conn = outcome.conn := by
  cases outcome <;> rfl

theorem afterScan_log (s : System) (thread : ℕ) (outcome : ResendOutcome) :
    (s.afterScan thread outcome).log = s.log := by
  cases outcome <;> rfl

theorem syncToPacket_toAudioRing_congr {a : PutArgs} {conn conn' : ConnInfo}
    (hring : conn'.toAudioRing = conn.toAudioRing) :
    (syncToPacket a conn').1.toAudioRing = (syncToPacket a conn).1.toAudioRing := by
  unfold syncToPacket
  rw [hring]
  split <;> simp [hring]

theorem effectiveSeqno_congr {a : PutArgs} {conn conn' : ConnInfo}
    (hring : conn'.toAudioRing = conn.toAudioRing) :
    effectiveSeqno a conn' = effectiveSeqno a conn := by
  unfold effectiveSeqno
  rw [hring]

theorem gapCleared_congr {a : PutArgs} {conn conn' : ConnInfo}
    (hring : conn'.toAudioRing = conn.toAudioRing) :
    GapCleared a conn' ↔ GapCleared a conn := by
  unfold GapCleared
  rw [syncToPacket_toAudioRing_congr hring, effectiveSeqno_congr hring]

theorem countPacket_ignoreEarlyFlush_toAudioRing (timeNow : Nanoseconds) (conn : ConnInfo) :
    (countPacket timeNow (ignoreEarlyFlush conn)).toAudioRing = conn.toAudioRing := by
  simp

theorem countPacket_ignoreEarlyFlush_connectionStateToOutput (timeNow : Nanoseconds)
    (conn : ConnInfo) :
    (countPacket timeNow (ignoreEarlyFlush conn)).connectionStateToOutput =
      conn.connectionStateToOutput := by
  unfold countPacket ignoreEarlyFlush
  split <;> rfl

theorem playerPutPacketStore_holds (timeNow : Nanoseconds) (a : PutArgs) {conn : ConnInfo}
    {m : Held} (h : conn.toAudioRing.Holds m) (hfits : conn.toAudioRing.Fits)
    (hgap : conn.connectionStateToOutput ≠ 0 → GapCleared a conn)
    (hpost : (playerPutPacketStore decode timeNow a conn).1.toAudioRing.Fits) :
    (playerPutPacketStore decode timeNow a conn).1.toAudioRing.Holds
      (m.applyAll (playerPutPacketStore decode timeNow a conn).2) := by
  have hring := countPacket_ignoreEarlyFlush_toAudioRing timeNow conn
  unfold playerPutPacketStore at hpost ⊢
  dsimp only at hpost ⊢
  rw [countPacket_ignoreEarlyFlush_connectionStateToOutput] at hpost ⊢
  split
  · rw [Held.applyAll_nil, hring]
    exact h
  · rename_i hout
    rw [if_neg hout] at hpost
    exact storePacket_holds decode timeNow a (hring ▸ h) (hring ▸ hfits)
      ((gapCleared_congr hring).mpr (hgap hout)) hpost

theorem syncToPacket_noSequenceError (a : PutArgs) (conn : ConnInfo) :
    ∀ e ∈ (syncToPacket a conn).2, e.isSequenceError = false := by
  unfold syncToPacket
  split
  · simp
  · simp [Event.isSequenceError]

theorem fillEvent_isSequenceError (seqno : SeqT) (abuf : AudioBufferEntry) :
    (fillEvent seqno abuf).isSequenceError = false := by
  unfold fillEvent
  split <;> rfl

theorem playerPutPacketStore_noSequenceError (timeNow : Nanoseconds) (a : PutArgs)
    (conn : ConnInfo) :
    ∀ e ∈ (playerPutPacketStore decode timeNow a conn).2, e.isSequenceError = false := by
  unfold playerPutPacketStore storePacket
  dsimp only
  split
  · simp
  · split
    · exact syncToPacket_noSequenceError a _
    · intro e he
      rcases List.mem_append.mp he with he | he
      · exact syncToPacket_noSequenceError a _ e he
      · rw [List.mem_singleton.mp he]
        exact fillEvent_isSequenceError _ _

/-- A call of `player_put_packet` is the storing followed by the resend checks. -/
theorem put_resendFrame (cfg : Config) (decode : PacketDecoder) (s : System) (thread : ℕ)
    (timeNow : Nanoseconds) (a : PutArgs) :
    ResendFrame (playerPutPacketStore decode timeNow a s.conn).1
      (s.put cfg decode thread timeNow a).conn := by
  unfold System.put
  dsimp only
  split
  · exact .refl _
  · rw [afterScan_conn]
    exact startResendScan_frame cfg timeNow s.firstPossiblyMissingFrame _

theorem put_log (cfg : Config) (decode : PacketDecoder) (s : System) (thread : ℕ)
    (timeNow : Nanoseconds) (a : PutArgs) :
    (s.put cfg decode thread timeNow a).log =
      s.log ++ (playerPutPacketStore decode timeNow a s.conn).2 := by
  unfold System.put
  dsimp only
  split
  · rfl
  · exact afterScan_log _ _ _

theorem SlotInvariant.put (h : SlotInvariant s) (hfits : s.conn.toAudioRing.Fits)
    {thread : ℕ} {timeNow : Nanoseconds} {a : PutArgs}
    (hsafe : SlotsSafe s (.put thread timeNow a))
    (hpost : (s.put cfg decode thread timeNow a).conn.toAudioRing.Fits) :
    SlotInvariant (s.put cfg decode thread timeNow a) := by
  have hframe := put_resendFrame cfg decode s thread timeNow a
  constructor
  · rw [put_log, held_append]
    exact hframe.holds
      (playerPutPacketStore_holds timeNow a h.holds hfits hsafe (hframe.fits_iff.mp hpost))
  · intro e he
    rw [put_log, List.mem_append] at he
    exact he.elim (h.noSequenceError e)
      (playerPutPacketStore_noSequenceError timeNow a s.conn e)

theorem resent_resendFrame (cfg : Config) (s : System) (thread : ℕ) (scan : ResendScan) :
    ResendFrame s.conn (s.resent cfg thread scan).conn := by
  unfold System.resent
  rw [afterScan_conn]
  exact continueResendScan_frame cfg scan ⟨s.conn, s.firstPossiblyMissingFrame⟩

theorem SlotInvariant.resent (h : SlotInvariant s) (thread : ℕ) (scan : ResendScan) :
    SlotInvariant (s.resent cfg thread scan) := by
  have hlog : (s.resent cfg thread scan).log = s.log := afterScan_log _ _ _
  constructor
  · rw [hlog]
    exact (resent_resendFrame cfg s thread scan).holds h.holds
  · rw [hlog]
    exact h.noSequenceError

theorem SlotInvariant.of_intact {pr : Progress} (h : SlotInvariant s)
    (hpr : Intact (held s.log) pr) (hconn : t.conn = pr.conn)
    (hlog : t.log = s.log ++ pr.events) : SlotInvariant t where
  holds := by
    rw [hconn, hlog, held_append]
    exact hpr.holds
  noSequenceError := by
    intro e he
    rw [hlog, List.mem_append] at he
    exact he.elim (h.noSequenceError e) (hpr.noSequenceError e)

theorem SlotInvariant.get (h : SlotInvariant s) (hfits : s.conn.toAudioRing.Fits)
    (rd : Readings) (loop : FrameLoop) : SlotInvariant (s.get cfg rd loop) := by
  obtain ⟨hwait, hout⟩ := bufferGetFrameIteration_intact cfg rd loop h.holds hfits
  unfold System.get
  dsimp only
  split
  · exact h.of_intact hwait rfl rfl
  · rename_i hstop
    exact h.of_intact (hout (Bool.eq_false_iff.mpr hstop)) rfl rfl

theorem finish_content (abuf : AudioBufferEntry) (h : abuf.ready = false) :
    abuf.finish.content = abuf.content := by
  rw [content_eq_none_iff.mpr h, content_eq_none_iff]
  exact h

theorem SlotInvariant.finish (h : SlotInvariant s) {frame : Fin bufferFrames} {played : Bool}
    (hsafe : played = true → FinishUnseen s frame) : SlotInvariant (s.finish frame played) := by
  refine ⟨?_, h.noSequenceError⟩
  unfold System.finish
  dsimp only
  split
  · rename_i hplayed
    intro hs
    refine (h.holds hs).congr_slots fun q hq => ?_
    dsimp only
    by_cases hslot : bufidx q = frame
    · subst hslot
      rw [Function.update_self]
      exact finish_content _ (hsafe hplayed hs q hq rfl)
    · rw [Function.update_of_ne hslot]
  · exact h.holds

theorem SlotInvariant.resync (h : SlotInvariant s) (linkResumed : Bool) :
    SlotInvariant (s.resync linkResumed) := by
  refine ⟨fun hs => ?_, ?_⟩
  · unfold System.resync at hs
    cases linkResumed <;> exact absurd hs Bool.false_ne_true
  · intro e he
    rcases List.mem_append.mp he with he | he
    · exact h.noSequenceError e he
    · rw [List.mem_singleton.mp he]
      rfl

/-- One step keeps the invariant. -/
theorem SlotInvariant.step {l : Label} (h : SlotInvariant s)
    (hfits : s.conn.toAudioRing.Fits) (hsafe : SlotsSafe s l)
    (hstep : step cfg decode s l = some t) (hpost : t.conn.toAudioRing.Fits) :
    SlotInvariant t := by
  cases l with
  | put thread timeNow a =>
      obtain ⟨-, rfl⟩ := step_put_eq_some_iff.mp hstep
      exact h.put hfits hsafe hpost
  | resent thread =>
      obtain ⟨scan, -, rfl⟩ := step_resent_eq_some_iff.mp hstep
      exact h.resent thread scan
  | get rd =>
      obtain ⟨loop, -, rfl⟩ := step_get_eq_some_iff.mp hstep
      exact h.get hfits rd loop
  | finish played =>
      obtain ⟨frame, hplayer, rfl⟩ := step_finish_eq_some_iff.mp hstep
      simp only [SlotsSafe, hplayer] at hsafe
      exact h.finish hsafe
  | resync linkResumed =>
      obtain rfl := Option.some.inj hstep
      exact h.resync linkResumed
  | flush timestamp =>
      obtain rfl := Option.some.inj hstep
      exact ⟨h.holds, h.noSequenceError⟩

end Steps

/-- In every run within the ring whose steps are safe, the ready slots of the window hold
their own packets and the two branches for a wrong sequence number are not taken. -/
theorem slots_hold_their_packets (cfg : Config) (decode : PacketDecoder) (conn : ConnInfo)
    (firstPossiblyMissingFrame : Int) (labels : List Label) (t : System)
    (hwithin : Throughout (step cfg decode) (fun s => s.conn.toAudioRing.Within (bufferFrames - 1))
      (System.start conn firstPossiblyMissingFrame) labels)
    (hsafe : Along (step cfg decode) SlotsSafe
      (System.start conn firstPossiblyMissingFrame) labels)
    (hrun : run (step cfg decode) (System.start conn firstPossiblyMissingFrame) labels =
      some t) : SlotsHoldTheirPackets t := by
  have hinv : SlotInvariant t :=
    run_invariant (fun _ _ _ h hw hp hstep hpost => h.step hw.fits hp hstep hpost.fits)
      (slotInvariant_start conn firstPossiblyMissingFrame) hwithin hsafe hrun
  exact hinv.slotsHoldTheirPackets

/-- A frame is handed out and played, a resync and a packet give its slot to the number
2048, and then the frame is marked as finished. -/
def reissuedSlot : List Label :=
  [.put 0 1 (.original 1024 1000 [1, 2, 3, 4]), .get (.at 10 900 5), .resync true,
    .put 0 2 (.original 2048 2000 [5, 6, 7, 8]), .finish true]

/-- A packet played to its end before the next one arrives after a gap. -/
theorem slots_hold_their_packets_with_gap :
    ∃ t, run (step .playOnly .pcm) (.start .fresh 0)
        [.put 0 1 (.original 7 1000 [1, 2, 3, 4]), .get (.at 10 900 5), .finish true,
          .put 0 2 (.original 10 1003 [5, 6, 7, 8])] = some t ∧
      SlotsHoldTheirPackets t := by
  obtain ⟨t, hrun⟩ := Option.isSome_iff_exists.mp (show (run (step .playOnly .pcm)
    (.start .fresh 0) [.put 0 1 (.original 7 1000 [1, 2, 3, 4]), .get (.at 10 900 5),
      .finish true, .put 0 2 (.original 10 1003 [5, 6, 7, 8])]).isSome by decide +kernel)
  exact ⟨t, hrun, slots_hold_their_packets _ _ _ _ _ t (by decide +kernel)
    (by decide +kernel) hrun⟩

/-- The run `reissuedSlot` ends with a ready slot in the window whose sequence number is
not its own. -/
theorem reissuedSlot_loses_sequence_number :
    ¬ ∀ (cfg : Config) (decode : PacketDecoder) (conn : ConnInfo)
      (firstPossiblyMissingFrame : Int) (labels : List Label) (t : System),
      Throughout (step cfg decode) (fun s => s.conn.toAudioRing.Within (bufferFrames - 1))
        (System.start conn firstPossiblyMissingFrame) labels →
      run (step cfg decode) (System.start conn firstPossiblyMissingFrame) labels = some t →
      SlotsHoldTheirPackets t := by
  intro h
  have hend : (run (step .playOnly .pcm) (.start .fresh 0) reissuedSlot).map
      (fun t => (t.conn.abSynced, decide (Between t.conn.abRead t.conn.abWrite 2048),
        (t.conn.entry 2048).ready, (t.conn.entry 2048).sequenceNumber)) =
      some (true, true, true, 0) := by decide +kernel
  obtain ⟨t, hrun, ht⟩ := Option.map_eq_some_iff.mp hend
  simp only [Prod.mk.injEq, decide_eq_true_eq] at ht
  obtain ⟨hs, hq, hready, hseq⟩ := ht
  have hhold := h .playOnly .pcm .fresh 0 reissuedSlot t (by decide +kernel) hrun
  have hseq' := ((hhold.1 hs) 2048 hq hready).1
  rw [hseq] at hseq'
  exact absurd hseq' (by decide)

end Player

end ShairportSync
