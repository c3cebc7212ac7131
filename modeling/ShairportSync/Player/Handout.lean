import ShairportSync.Player.SlotInvariant

/-!
# What becomes of every sequence number

Read as a log of events, a buffer that skips no frame lets the sequence numbers leave one
after the other, each of them supplied with the packet held for it, replaced by silence
when nothing is held, or dropped with a packet that is out of date (`Accounted`). The
loop that skips out-of-date frames also passes over slots that are not ready, with
nothing taking their place; `SkipsReady` says that it does not meet such a slot.
-/

namespace ShairportSync

namespace Player

open SerialNumber Transition

/-! ## The abstract account -/

/-- The number that is to leave the buffer next, after an event. -/
def Event.next (next : Option SeqT) : Event → Option SeqT
  | .synced seqno => some seqno
  | .supplied seqno _ => some (seqno + 1)
  | .silent seqno _ => some (seqno + 1)
  | .outOfDate seqno _ => some (seqno + 1)
  | _ => next

/-- The event is one that a buffer holding `m` allows when `next` is to leave next. -/
def Event.Accounted (next : Option SeqT) (m : Held) : Event → Prop
  | .synced _ => True
  | .stored _ _ => True
  | .discarded _ => True
  | .supplied seqno frame => next = some seqno ∧ m seqno = some frame.packet
  | .silent seqno frame => next = some seqno ∧ m seqno = none ∧ frame.givenTimestamp = 0
  | .outOfDate seqno shouldBeFrame =>
      next = some seqno ∧ ∃ p, m seqno = some p ∧ (p.timestamp - shouldBeFrame).toInt < 0
  | _ => False

def Accounted : Option SeqT → Held → List Event → Prop
  | _, _, [] => True
  | next, m, e :: es => e.Accounted next m ∧ Accounted (e.next next) (m.apply e) es

def nextAfter (next : Option SeqT) (es : List Event) : Option SeqT := es.foldl Event.next next

def Event.isSilent : Event → Bool
  | .silent _ _ => true
  | _ => false

theorem nextAfter_append (next : Option SeqT) (es fs : List Event) :
    nextAfter next (es ++ fs) = nextAfter (nextAfter next es) fs := List.foldl_append

theorem accounted_append {next : Option SeqT} {m : Held} {es fs : List Event} :
    Accounted next m (es ++ fs) ↔
      Accounted next m es ∧ Accounted (nextAfter next es) (m.applyAll es) fs := by
  induction es generalizing next m with
  | nil => simp [Accounted, nextAfter]
  | cons e es ih =>
      rw [List.cons_append, Accounted, Accounted, ih, and_assoc]
      rfl

theorem not_accounted_of_mem_emptyOrNotReady {next : Option SeqT} {m : Held} {es : List Event}
    {seqno : SeqT} (h : .emptyOrNotReady seqno ∈ es) : ¬ Accounted next m es := by
  induction es generalizing next m with
  | nil => simp at h
  | cons e es ih =>
      rintro ⟨he, hes⟩
      rcases List.mem_cons.mp h with rfl | h
      · exact he
      · exact ih h hes

/-! ## One iteration -/

/-- The loop over the window meets only slots that are ready: the first one, and the one
after each frame that is out of date. -/
def SkipsReady (slots : Fin bufferFrames → AudioBufferEntry) (shouldBeFrame : ℕ → RtpTime)
    (n : ℕ) (r : SeqT) : Prop :=
  ∀ i < n,
    (∀ j < i, ((slots (bufidx (r + BitVec.ofNat 16 j))).givenTimestamp -
      shouldBeFrame j).toInt < 0) →
    (slots (bufidx (r + BitVec.ofNat 16 i))).ready = true

instance (slots : Fin bufferFrames → AudioBufferEntry) (shouldBeFrame : ℕ → RtpTime)
    (n : ℕ) (r : SeqT) : Decidable (SkipsReady slots shouldBeFrame n r) :=
  inferInstanceAs (Decidable (∀ i < n, _ → _))

theorem SkipsReady.head {slots : Fin bufferFrames → AudioBufferEntry}
    {shouldBeFrame : ℕ → RtpTime} {n : ℕ} {r : SeqT}
    (h : SkipsReady slots shouldBeFrame (n + 1) r) : (slots (bufidx r)).ready = true := by
  have h0 := h 0 (Nat.succ_pos n) fun j hj => absurd hj (Nat.not_lt_zero j)
  rwa [BitVec.add_zero] at h0

theorem SkipsReady.tail {slots : Fin bufferFrames → AudioBufferEntry}
    {shouldBeFrame : ℕ → RtpTime} {n : ℕ} {r : SeqT}
    (h : SkipsReady slots shouldBeFrame (n + 1) r)
    (hlate : ((slots (bufidx r)).givenTimestamp - shouldBeFrame 0).toInt < 0) :
    SkipsReady slots (fun k => shouldBeFrame (k + 1)) n (r + 1) := by
  intro i hi hlater
  rw [add_one_add_ofNat]
  refine h (i + 1) (Nat.succ_lt_succ hi) fun j hj => ?_
  cases j with
  | zero =>
      rw [BitVec.add_zero]
      exact hlate
  | succ j =>
      rw [← add_one_add_ofNat]
      exact hlater j (Nat.lt_of_succ_lt_succ hj)

/-- The calls of the conversion are numbered from the first one the loop makes. -/
theorem skipLoop_shift (slots : Fin bufferFrames → AudioBufferEntry)
    (shouldBeFrame : ℕ → RtpTime) (n k : ℕ) (r : SeqT) :
    skipLoop slots shouldBeFrame n (k + 1) r =
      skipLoop slots (fun k => shouldBeFrame (k + 1)) n k r := by
  induction n generalizing k r with
  | zero => rfl
  | succ n ih =>
      unfold skipLoop
      rw [ih, ih]

theorem skipLoop_accounted {slots : Fin bufferFrames → AudioBufferEntry}
    (shouldBeFrame : ℕ → RtpTime) (n : ℕ) {r t : SeqT} {m : Held} (h : Holds slots r t m)
    (hn : n ≤ distance r t) (hready : SkipsReady slots shouldBeFrame n r) :
    Accounted (some r) m (skipLoop slots shouldBeFrame n 0 r).2 ∧
      nextAfter (some r) (skipLoop slots shouldBeFrame n 0 r).2 =
        some (skipLoop slots shouldBeFrame n 0 r).1 ∧
      (skipLoop slots shouldBeFrame n 0 r).2.countP Event.isSilent = 0 := by
  induction n generalizing r m shouldBeFrame with
  | zero => exact ⟨trivial, rfl, rfl⟩
  | succ n ih =>
      have hne : t ≠ r := distance_pos_iff.mp (by omega)
      have hstep : distance (r + 1) t + 1 = distance r t := distance_add_one_left hne
      have hheld := (h.packet_of_ready (between_left hne) hready.head).2
      unfold skipLoop
      dsimp only
      rw [if_pos hready.head]
      split_ifs with hlate
      · obtain ⟨hacc, hnext, hsilent⟩ := ih (fun k => shouldBeFrame (k + 1)) (h.leave hne)
          (by omega) (hready.tail hlate)
        rw [skipLoop_shift]
        exact ⟨⟨⟨rfl, _, hheld, hlate⟩, hacc⟩, hnext, hsilent⟩
      · exact ⟨trivial, rfl, rfl⟩

/-- The account of an iteration in progress that started with `next` and `m` and with
`missing` packets counted. -/
structure Accounts (next : Option SeqT) (m : Held) (missing : ℕ) (pr : Progress) : Prop where
  intact : Intact m pr
  accounted : Accounted next m pr.events
  next : pr.conn.abSynced = true → nextAfter next pr.events = some pr.conn.abRead
  missing : pr.conn.missingPackets = missing + pr.events.countP Event.isSilent

section Iteration

variable {next : Option SeqT} {m : Held} {missing : ℕ} {pr pr' : Progress}

theorem Accounts.congr (h : Accounts next m missing pr) (hu : Untouched pr pr') :
    Accounts next m missing pr' where
  intact := h.intact.congr hu.ring hu.events
  accounted := by
    rw [hu.events]
    exact h.accounted
  next := by
    rw [hu.ring, hu.events]
    exact h.next
  missing := by
    rw [hu.missingPackets, hu.events]
    exact h.missing

theorem Accounts.skipOutOfDate (h : Accounts next m missing pr) (rd : Readings)
    (hready : pr.conn.abSynced = true → SkipsReady pr.conn.audioBuffer
      (fun k => rd.localTimeToFrame k (timeToAimFor rd pr.conn))
      pr.conn.intDifference.toNat pr.conn.abRead) :
    Accounts next m missing (skipOutOfDate rd pr) := by
  have hintact := h.intact.skipOutOfDate rd
  unfold Player.skipOutOfDate at hintact ⊢
  split
  · rename_i hs
    obtain ⟨hacc, hnext, hsilent⟩ := skipLoop_accounted _ _ (h.intact.holds hs)
      (intDifference_toNat_le pr.conn.toAudioRing) (hready hs)
    rw [if_pos hs] at hintact
    refine ⟨hintact, ?_, fun _ => ?_, ?_⟩
    · rw [accounted_append, h.next hs]
      exact ⟨h.accounted, hacc⟩
    · rw [nextAfter_append, h.next hs]
      exact hnext
    · rw [List.countP_append, hsilent, Nat.add_zero]
      exact h.missing
  · exact h

theorem Accounts.handOut (h : Accounts next m missing pr) (hr : Released pr) :
    Accounts next m missing (handOut pr) := by
  have hintact := h.intact.handOut hr
  have hhead := between_left hr.nonempty.symm
  have hholds := h.intact.holds hr.synced
  simp only [Player.handOut, hr.curframe] at hintact ⊢
  cases hready : (pr.conn.audioBuffer (bufidx pr.conn.abRead)).ready with
  | true =>
      simp only [hready, if_true] at hintact ⊢
      refine ⟨hintact, ?_, fun _ => ?_, ?_⟩
      · rw [accounted_append, h.next hr.synced]
        refine ⟨h.accounted, ⟨rfl, ?_⟩, trivial⟩
        rw [(hholds.packet_of_ready hhead hready).2]
        unfold AudioBufferEntry.handOut
        rw [if_pos hready]
        rfl
      · rw [nextAfter_append, h.next hr.synced]
        rfl
      · rw [List.countP_append]
        exact h.missing
  | false =>
      simp only [hready, Bool.false_eq_true, if_false] at hintact ⊢
      refine ⟨hintact, ?_, fun _ => ?_, ?_⟩
      · rw [accounted_append, h.next hr.synced]
        refine ⟨h.accounted, ⟨rfl, hholds.eq_none_of_not_ready hhead hready, ?_⟩, trivial⟩
        unfold AudioBufferEntry.handOut
        rw [hready]
        rfl
      · rw [nextAfter_append, h.next hr.synced]
        rfl
      · rw [List.countP_append, h.missing, Nat.add_assoc]
        rfl

end Iteration

/-! ## Runs -/

/-- The run stays between two resyncs with no flush request pending. -/
def Quiet (cfg : Config) (s : System) : Label → Prop
  | .get rd => (requestFlushes cfg rd s.conn).flushRequested = false
  | .resync _ => False
  | .flush _ => False
  | _ => True

instance (cfg : Config) (s : System) : ∀ l, Decidable (Quiet cfg s l)
  | .get rd => inferInstanceAs (Decidable ((requestFlushes cfg rd s.conn).flushRequested = false))
  | .resync _ => isFalse id
  | .flush _ => isFalse id
  | .put _ _ _ => isTrue trivial
  | .resent _ => isTrue trivial
  | .finish _ => isTrue trivial

/-- The iteration does not skip a number whose packet is missing. -/
def NothingMissingSkipped (s : System) : Label → Prop
  | .get rd =>
      rd.haveTimestampTimingInformation = true → s.conn.abSynced = true →
        SkipsReady s.conn.audioBuffer
          (fun k => rd.localTimeToFrame k (timeToAimFor rd s.conn))
          s.conn.intDifference.toNat s.conn.abRead
  | _ => True

instance (s : System) : ∀ l, Decidable (NothingMissingSkipped s l)
  | .get _ => inferInstanceAs (Decidable (_ → _ → _))
  | .resync _ => isTrue trivial
  | .flush _ => isTrue trivial
  | .put _ _ _ => isTrue trivial
  | .resent _ => isTrue trivial
  | .finish _ => isTrue trivial

/-- The account of a run that started with an empty log and `missing` packets counted. -/
structure FrameAccount (missing : ℕ) (s : System) : Prop where
  slots : SlotInvariant s
  accounted : Accounted none (fun _ => none) s.log
  next : s.conn.abSynced = true → nextAfter none s.log = some s.conn.abRead
  missing : s.conn.missingPackets = missing + s.log.countP Event.isSilent

section Steps

variable {cfg : Config} {decode : PacketDecoder} {s t : System} {missing : ℕ}

theorem FrameAccount.of_accounts {pr : Progress} (h : FrameAccount missing s)
    (hpr : Accounts (nextAfter none s.log) (held s.log) s.conn.missingPackets pr)
    (hconn : t.conn = pr.conn) (hlog : t.log = s.log ++ pr.events) :
    FrameAccount missing t where
  slots := h.slots.of_intact hpr.intact hconn hlog
  accounted := by
    rw [hlog, accounted_append]
    exact ⟨h.accounted, hpr.accounted⟩
  next := by
    rw [hconn, hlog, nextAfter_append]
    exact hpr.next
  missing := by
    rw [hconn, hlog, List.countP_append, hpr.missing, h.missing, Nat.add_assoc]

theorem requestFlushes_missingPackets (cfg : Config) (rd : Readings) (conn : ConnInfo) :
    (requestFlushes cfg rd conn).missingPackets = conn.missingPackets := by
  unfold requestFlushes
  split_ifs <;> rfl

theorem FrameAccount.get (h : FrameAccount missing s) (hfits : s.conn.toAudioRing.Fits)
    {rd : Readings} (loop : FrameLoop) (hquiet : Quiet cfg s (.get rd))
    (hready : NothingMissingSkipped s (.get rd)) : FrameAccount missing (s.get cfg rd loop) := by
  unfold System.get bufferGetFrameIteration
  dsimp only
  by_cases htiming : rd.haveTimestampTimingInformation = true
  · have hstart : Accounts (nextAfter none s.log) (held s.log) s.conn.missingPackets
        (startIteration cfg rd s.conn loop) := by
      refine ⟨intact_startIteration cfg rd loop h.slots.holds hfits, trivial, ?_, ?_⟩
      · unfold startIteration
        rw [requestFlushes_toAudioRing]
        exact h.next
      · exact requestFlushes_missingPackets cfg rd s.conn
    have hskip := hstart.skipOutOfDate rd <| by
      unfold startIteration
      rw [requestFlushes_toAudioRing, requestFlushes_timeToAimFor]
      exact hready htiming
    have hservice : serviceFlush cfg (startIteration cfg rd s.conn loop) =
        startIteration cfg rd s.conn loop := serviceFlush_of_not_requested cfg hquiet
    rw [← hservice] at hskip
    obtain ⟨huntouched, hreleased⟩ := hskip.intact.waitForFrame cfg rd
    have hwait := hskip.congr huntouched
    rw [if_pos htiming]
    split
    · exact h.of_accounts hwait rfl rfl
    · rename_i hstop
      exact h.of_accounts (hwait.handOut (hreleased (Bool.eq_false_iff.mpr hstop))) rfl rfl
  · have hwait : Accounts (nextAfter none s.log) (held s.log) s.conn.missingPackets
        ⟨s.conn, loop, [], []⟩ :=
      ⟨⟨h.slots.holds, hfits, by simp⟩, trivial, h.next, rfl⟩
    rw [if_neg htiming, if_pos rfl]
    exact h.of_accounts hwait rfl rfl

theorem syncToPacket_accounted {next : Option SeqT} (m : Held) (a : PutArgs) {conn : ConnInfo}
    (h : conn.abSynced = true → next = some conn.abRead) :
    Accounted next m (syncToPacket a conn).2 ∧
      nextAfter next (syncToPacket a conn).2 = some (syncToPacket a conn).1.abRead ∧
      (syncToPacket a conn).2.countP Event.isSilent = 0 := by
  unfold syncToPacket
  split
  · rename_i hs
    exact ⟨trivial, h hs, rfl⟩
  · exact ⟨⟨trivial, trivial⟩, rfl, rfl⟩

theorem fillEvent_accounted (next : Option SeqT) (m : Held) (seqno : SeqT)
    (abuf : AudioBufferEntry) :
    (fillEvent seqno abuf).Accounted next m ∧ (fillEvent seqno abuf).next next = next ∧
      (fillEvent seqno abuf).isSilent = false := by
  unfold fillEvent
  split
  · exact ⟨trivial, rfl, rfl⟩
  · exact ⟨trivial, rfl, rfl⟩

theorem countPacket_ignoreEarlyFlush_missingPackets (timeNow : Nanoseconds) (conn : ConnInfo) :
    (countPacket timeNow (ignoreEarlyFlush conn)).missingPackets = conn.missingPackets := by
  unfold countPacket ignoreEarlyFlush
  split <;> rfl

theorem storePacket_accounted {next : Option SeqT} (m : Held) (decode : PacketDecoder)
    (timeNow : Nanoseconds) (a : PutArgs) {conn : ConnInfo}
    (h : conn.abSynced = true → next = some conn.abRead) :
    Accounted next m (storePacket decode timeNow a conn).2 ∧
      nextAfter next (storePacket decode timeNow a conn).2 =
        some (storePacket decode timeNow a conn).1.abRead ∧
      (storePacket decode timeNow a conn).2.countP Event.isSilent = 0 := by
  obtain ⟨hacc, hnext, hsilent⟩ := syncToPacket_accounted m a h
  obtain ⟨hread, -⟩ := storePacket_window decode timeNow a conn
  rw [hread]
  unfold storePacket
  dsimp only
  split
  · exact ⟨hacc, hnext, hsilent⟩
  · have hfill := fillEvent_accounted (nextAfter next (syncToPacket a conn).2)
      (m.applyAll (syncToPacket a conn).2)
    unfold fillSlot
    dsimp only
    rw [accounted_append, nextAfter_append, List.countP_append, hsilent]
    refine ⟨⟨hacc, (hfill _ _).1, trivial⟩, ?_, ?_⟩
    · rw [← hnext]
      exact (hfill _ _).2.1
    · rw [Nat.zero_add, List.countP_singleton, (hfill _ _).2.2]
      rfl

theorem FrameAccount.put (h : FrameAccount missing s) {thread : ℕ} {timeNow : Nanoseconds}
    {a : PutArgs} (hslots : SlotInvariant (s.put cfg decode thread timeNow a)) :
    FrameAccount missing (s.put cfg decode thread timeNow a) := by
  have hframe := put_resendFrame cfg decode s thread timeNow a
  have hlog := put_log cfg decode s thread timeNow a
  have hmissing : (s.put cfg decode thread timeNow a).conn.missingPackets =
      s.conn.missingPackets := by
    rw [hframe.rest]
    unfold playerPutPacketStore
    dsimp only
    split
    · exact (countPacket_ignoreEarlyFlush_missingPackets timeNow s.conn)
    · exact (storePacket_frame decode timeNow a _).missingPackets.trans
        (countPacket_ignoreEarlyFlush_missingPackets timeNow s.conn)
  have hstored : Accounted (nextAfter none s.log) (held s.log)
        (playerPutPacketStore decode timeNow a s.conn).2 ∧
      ((playerPutPacketStore decode timeNow a s.conn).1.abSynced = true →
        nextAfter (nextAfter none s.log) (playerPutPacketStore decode timeNow a s.conn).2 =
          some (playerPutPacketStore decode timeNow a s.conn).1.abRead) ∧
      (playerPutPacketStore decode timeNow a s.conn).2.countP Event.isSilent = 0 := by
    have hring := countPacket_ignoreEarlyFlush_toAudioRing timeNow s.conn
    unfold playerPutPacketStore
    dsimp only
    generalize countPacket timeNow (ignoreEarlyFlush s.conn) = counted at hring ⊢
    have hnext := h.next
    rw [← hring] at hnext
    split
    · exact ⟨trivial, hnext, rfl⟩
    · obtain ⟨hacc, hnext', hsilent⟩ :=
        storePacket_accounted (held s.log) decode timeNow a hnext
      exact ⟨hacc, fun _ => hnext', hsilent⟩
  obtain ⟨hacc, hnext, hsilent⟩ := hstored
  refine ⟨hslots, ?_, ?_, ?_⟩
  · rw [hlog, accounted_append]
    exact ⟨h.accounted, hacc⟩
  · rw [hlog, nextAfter_append, hframe.rest]
    exact hnext
  · rw [hlog, hmissing, List.countP_append, hsilent]
    exact h.missing

/-- One quiet step that skips nothing keeps the account. -/
theorem FrameAccount.step {l : Label} (h : FrameAccount missing s)
    (hfits : s.conn.toAudioRing.Fits) (hquiet : Quiet cfg s l) (hsafe : SlotsSafe s l)
    (hready : NothingMissingSkipped s l) (hstep : step cfg decode s l = some t)
    (hpost : t.conn.toAudioRing.Fits) : FrameAccount missing t := by
  have hslots := h.slots.step hfits hsafe hstep hpost
  cases l with
  | put thread timeNow a =>
      obtain ⟨-, rfl⟩ := step_put_eq_some_iff.mp hstep
      exact h.put hslots
  | resent thread =>
      obtain ⟨scan, -, rfl⟩ := step_resent_eq_some_iff.mp hstep
      have hframe := resent_resendFrame cfg s thread scan
      have hlog : (s.resent cfg thread scan).log = s.log := afterScan_log _ _ _
      refine ⟨hslots, hlog ▸ h.accounted, ?_, ?_⟩
      · rw [hlog, hframe.rest]
        exact h.next
      · rw [hlog, hframe.rest]
        exact h.missing
  | get rd =>
      obtain ⟨loop, -, rfl⟩ := step_get_eq_some_iff.mp hstep
      exact h.get hfits loop hquiet hready
  | finish played =>
      obtain ⟨frame, -, rfl⟩ := step_finish_eq_some_iff.mp hstep
      refine ⟨hslots, h.accounted, ?_, ?_⟩
      · cases played <;> exact h.next
      · cases played <;> exact h.missing
  | resync linkResumed => exact absurd hquiet id
  | flush timestamp => exact absurd hquiet id

end Steps

/-- The sequence numbers leave one after the other, each with its packet, with silence in
its place or out of date, and the silent ones are counted as missing. -/
def NoFrameSkipped (missing : ℕ) (t : System) : Prop :=
  Accounted none (fun _ => none) t.log ∧
    t.conn.missingPackets = missing + t.log.countP Event.isSilent

/-- In every run between two resyncs, with no flush pending and within the ring, in which
no iteration meets a missing packet while it looks for frames that are out of date, no
frame is skipped. -/
theorem no_frame_skipped (cfg : Config) (decode : PacketDecoder) (s : System)
    (labels : List Label) (t : System) (hresynced : s.conn.abSynced = false)
    (hlog : s.log = [])
    (hwithin : Throughout (step cfg decode)
      (fun s => s.conn.toAudioRing.Within (bufferFrames - 1)) s labels)
    (hquiet : Along (step cfg decode) (Quiet cfg) s labels)
    (hready : Along (step cfg decode) (fun s l => SlotsSafe s l ∧ NothingMissingSkipped s l)
      s labels)
    (hrun : run (step cfg decode) s labels = some t) :
    NoFrameSkipped s.conn.missingPackets t := by
  have hstart : FrameAccount s.conn.missingPackets s := by
    refine ⟨⟨?_, ?_⟩, ?_, ?_, ?_⟩
    · exact fun hs => absurd (hresynced ▸ hs) Bool.false_ne_true
    · simp [hlog]
    · rw [hlog]
      trivial
    · exact fun hs => absurd (hresynced ▸ hs) Bool.false_ne_true
    · simp [hlog]
  have hend : FrameAccount s.conn.missingPackets t := by
    refine run_invariant ?_ hstart hwithin (hquiet.and hready) hrun
    rintro s l u h hw ⟨hquiet, hsafe, hready⟩ hstep hpost
    exact h.step hw.fits hquiet hsafe hready hstep hpost.fits
  exact ⟨hend.accounted, hend.missing⟩

def inOrder : List Label :=
  [.put 0 1 (.original 7 1000 [1, 2, 3, 4]), .put 0 2 (.original 8 1001 [5, 6, 7, 8]),
    .get (.at 10 900 5), .finish true, .get (.at 11 901 5)]

theorem no_frame_skipped_in_order :
    ∃ t, run (step .playOnly .pcm) (.start .fresh 0) inOrder = some t ∧
      NoFrameSkipped 0 t := by
  obtain ⟨t, hrun⟩ := Option.isSome_iff_exists.mp (show (run (step .playOnly .pcm)
    (.start .fresh 0) inOrder).isSome by decide +kernel)
  exact ⟨t, hrun, no_frame_skipped _ _ _ _ t rfl rfl (by decide +kernel) (by decide +kernel)
    (by decide +kernel) hrun⟩

/-- The packet 8 is missing when the player comes to it: packet 9 is handed out next. -/
def missingAtHead : List Label :=
  [.put 0 1 (.original 7 1000 [1, 2, 3, 4]), .put 0 2 (.original 9 1002 [5, 6, 7, 8]),
    .get (.at 10 900 5), .finish true, .get (.at 11 901 5)]

theorem missingAtHead_skips_a_frame :
    ¬ ∀ (cfg : Config) (decode : PacketDecoder) (s : System) (labels : List Label)
      (t : System), s.conn.abSynced = false → s.log = [] →
      Throughout (step cfg decode)
        (fun s => s.conn.toAudioRing.Within (bufferFrames - 1)) s labels →
      Along (step cfg decode) (Quiet cfg) s labels →
      run (step cfg decode) s labels = some t → NoFrameSkipped s.conn.missingPackets t := by
  intro h
  have hend : (run (step .playOnly .pcm) (.start .fresh 0) missingAtHead).map
      (fun t => t.log.any fun e => e = .emptyOrNotReady 8) = some true := by decide +kernel
  obtain ⟨t, hrun, ht⟩ := Option.map_eq_some_iff.mp hend
  have hskip := h .playOnly .pcm (.start .fresh 0) missingAtHead t rfl rfl
    (by decide +kernel) (by decide +kernel) hrun
  obtain ⟨e, he, heq⟩ := List.any_eq_true.mp ht
  rw [decide_eq_true_eq] at heq
  exact not_accounted_of_mem_emptyOrNotReady (heq ▸ he) hskip.1

end Player

end ShairportSync
