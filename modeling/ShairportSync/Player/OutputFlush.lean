import ShairportSync.Player.FutureFlush

/-!
# One flush of the output for each request

When `buffer_get_frame` sees a flush request for the first time it flushes the output and sets
`flush_output_flushed`, so that the output is not flushed again while the request is pending. A
request that is serviced takes both flags with it. One that is dropped because the buffer is not
synced, or is empty, leaves `flush_output_flushed` set behind it, and the output is not flushed for
the next request.
-/

namespace ShairportSync

namespace Player

open SerialNumber Transition

/-! ## The flags in an iteration -/

section Service

variable {cfg : Config} {rd : Readings} {pr : Progress}

theorem flushDecision_flushOutput (cfg : Config) (pr : Progress) :
    flushDecision (flushOutput cfg pr).conn = flushDecision pr.conn := by
  obtain ⟨hrequested, htimestamp⟩ := flushOutput_request cfg pr
  have hring := flushOutput_toAudioRing cfg pr
  unfold flushDecision
  rw [hrequested, htimestamp, hring]

theorem flushRequested_of_flushDecision {conn : ConnInfo} (h : flushDecision conn ≠ .leave) :
    conn.flushRequested = true := by
  by_contra hnone
  refine h ?_
  rw [flushDecision, Bool.eq_false_iff.mpr hnone]
  rfl

theorem flushOutput_flags (cfg : Config) (pr : Progress)
    (h : pr.conn.flushOutputFlushed = true → pr.conn.flushRequested = true) :
    (flushOutput cfg pr).conn.flushOutputFlushed = pr.conn.flushRequested := by
  unfold flushOutput
  split
  · rename_i hrequested
    exact hrequested.symm
  · rename_i hnone
    rw [Bool.eq_false_iff.mpr hnone]
    exact Bool.eq_false_iff.mpr fun hflushed => hnone (h hflushed)

theorem flushOutput_calls (cfg : Config) (pr : Progress) :
    (flushOutput cfg pr).calls.count .flush = pr.calls.count .flush +
      if pr.conn.flushRequested && !pr.conn.flushOutputFlushed && cfg.outputFlush then 1
      else 0 := by
  unfold flushOutput
  cases pr.conn.flushRequested with
  | false => rfl
  | true =>
      simp only [Bool.true_and, if_true]
      split_ifs
      · rw [List.count_append]
        rfl
      · rfl

theorem serviceFlush_calls (cfg : Config) (pr : Progress) :
    (serviceFlush cfg pr).calls = (flushOutput cfg pr).calls := by
  unfold serviceFlush
  dsimp only
  split <;> rfl

/-- When a request is not dropped for want of a buffer, the two flags are together afterwards. -/
theorem serviceFlush_flags (cfg : Config) (pr : Progress)
    (h : pr.conn.flushOutputFlushed = true → pr.conn.flushRequested = true)
    (hkept : flushDecision pr.conn ≠ .notSyncedOrEmpty) :
    (serviceFlush cfg pr).conn.flushOutputFlushed = (serviceFlush cfg pr).conn.flushRequested := by
  have hflags := flushOutput_flags cfg pr h
  have hrequested := (flushOutput_request cfg pr).1
  rw [← flushDecision_flushOutput cfg] at hkept
  unfold serviceFlush
  dsimp only
  split
  · exact hflags.trans hrequested.symm
  · rfl
  · exact hflags.trans hrequested.symm
  · rfl
  · rfl
  · contradiction

/-- A request that is dropped for want of a buffer leaves the other flag set. -/
theorem serviceFlush_flags_of_notSyncedOrEmpty (cfg : Config) (pr : Progress)
    (h : flushDecision pr.conn = .notSyncedOrEmpty) :
    (serviceFlush cfg pr).conn.flushOutputFlushed = true ∧
      (serviceFlush cfg pr).conn.flushRequested = false := by
  have hrequested : pr.conn.flushRequested = true :=
    flushRequested_of_flushDecision (by rw [h]; decide)
  unfold serviceFlush
  dsimp only
  rw [flushDecision_flushOutput, h]
  refine ⟨?_, rfl⟩
  unfold flushOutput
  rw [if_pos hrequested]

theorem silencePieces_count (chunk : Int) (n : ℕ) (frameGap : Int) :
    (silencePieces chunk n frameGap).count .flush = 0 := by
  induction n generalizing frameGap with
  | zero => rfl
  | succ n ih =>
      unfold silencePieces
      split_ifs
      · dsimp only
        rw [List.count_cons_of_ne OutputCall.noConfusion, ih]
      · rfl

theorem leadIn_calls (cfg : Config) (rd : Readings) (pr : Progress) :
    (leadIn cfg rd pr).calls.count .flush = pr.calls.count .flush := by
  have hsend (pr : Progress) :
      (sendLeadIn cfg rd pr).calls.count .flush = pr.calls.count .flush := by
    unfold sendLeadIn
    dsimp only
    split_ifs <;> simp [List.count_append]
  have hall (pr : Progress) :
      (sendAllLeadIn cfg rd pr).calls.count .flush = pr.calls.count .flush := by
    unfold sendAllLeadIn
    dsimp only
    rw [List.count_append, silencePieces_count, Nat.add_zero]
  unfold leadIn
  dsimp only
  split_ifs
  · rfl
  · rfl
  · rfl
  · rfl
  · rw [hsend]
  · rfl
  · rw [hall]

theorem currentFrame_calls (cfg : Config) (rd : Readings) (pr : Progress) :
    (currentFrame cfg rd pr).calls.count .flush = pr.calls.count .flush := by
  unfold currentFrame
  split
  · rw [leadIn_calls]
    unfold checkSequence pointAtFrame
    dsimp only
    split_ifs <;> rfl
  · rfl

theorem waitForFrame_calls (cfg : Config) (rd : Readings) (pr : Progress) :
    (waitForFrame cfg rd pr).2.calls = pr.calls := by
  unfold waitForFrame noteBufferEmpty
  cases pr.loop.curframe with
  | none =>
      dsimp only
      split_ifs <;> rfl
  | some i =>
      dsimp only
      split_ifs <;> rfl

/-- Of what an iteration does to the request and asks of the output by way of a flush, all is done
by the flush handling. -/
structure FlushDone (pr pr' : Progress) : Prop where
  flush : pr'.conn.toFlushRequest = pr.conn.toFlushRequest
  packetCount : pr'.conn.packetCount = pr.conn.packetCount
  abSynced : pr'.conn.abSynced = pr.conn.abSynced
  calls : pr'.calls.count .flush = pr.calls.count .flush

theorem flushDone_afterService (cfg : Config) (rd : Readings) (pr : Progress) :
    FlushDone pr (waitForFrame cfg rd (currentFrame cfg rd (skipOutOfDate rd pr))).2 := by
  obtain ⟨hflush, hsynced⟩ := skipOutOfDate_request rd pr
  have hskip : (skipOutOfDate rd pr).conn.packetCount = pr.conn.packetCount ∧
      (skipOutOfDate rd pr).calls = pr.calls := by
    unfold skipOutOfDate
    split <;> exact ⟨rfl, rfl⟩
  have hlooked := currentFrame_looked cfg rd (skipOutOfDate rd pr)
  have hframe := waitForFrame_frame cfg rd (currentFrame cfg rd (skipOutOfDate rd pr))
  refine ⟨?_, ?_, ?_, ?_⟩
  · rw [hframe.flush, hlooked.flush, hflush]
  · rw [hframe.packetCount, hlooked.packetCount, hskip.1]
  · rw [hframe.ring, hlooked.abSynced, hsynced]
  · rw [waitForFrame_calls, currentFrame_calls, hskip.2]

theorem flushDone_handOut (pr : Progress) : FlushDone pr (handOut pr) := by
  unfold handOut
  cases pr.loop.curframe <;> exact ⟨rfl, rfl, rfl, rfl⟩

theorem FlushDone.trans {pr pr' pr'' : Progress} (h : FlushDone pr pr') (h' : FlushDone pr' pr'') :
    FlushDone pr pr'' :=
  ⟨h'.flush.trans h.flush, h'.packetCount.trans h.packetCount, h'.abSynced.trans h.abSynced,
    h'.calls.trans h.calls⟩

/-- A turn of the player thread that has timing information, as far as the request goes. -/
theorem get_flush (cfg : Config) (s : System) (loop : FrameLoop)
    (hrd : rd.haveTimestampTimingInformation = true) :
    let pr := serviceFlush cfg ⟨requestFlushes cfg rd s.conn, loop, [], []⟩
    (s.get cfg rd loop).conn.toFlushRequest = pr.conn.toFlushRequest ∧
      (s.get cfg rd loop).conn.packetCount = pr.conn.packetCount ∧
      (s.get cfg rd loop).conn.abSynced = pr.conn.abSynced ∧
      (s.get cfg rd loop).calls.count .flush = s.calls.count .flush + pr.calls.count .flush := by
  intro pr
  have hdone := flushDone_afterService cfg rd pr
  have hiteration : bufferGetFrameIteration cfg rd s.conn loop =
      waitForFrame cfg rd (currentFrame cfg rd (skipOutOfDate rd pr)) := by
    unfold bufferGetFrameIteration flushAndSkip
    rw [if_pos hrd]
  unfold System.get
  dsimp only
  rw [hiteration]
  split
  · refine ⟨hdone.flush, hdone.packetCount, hdone.abSynced, ?_⟩
    rw [List.count_append, hdone.calls]
  · have hout := hdone.trans (flushDone_handOut _)
    refine ⟨hout.flush, hout.packetCount, hout.abSynced, ?_⟩
    rw [List.count_append, hout.calls]

end Service

/-! ## Requests that have been seen -/

/-- A run that is watched: `seen` says that the pending request has been seen by an iteration. -/
structure Watched where
  system : System
  seen : Bool

def Label.looksAtRequest : Label → Bool
  | .get rd => rd.haveTimestampTimingInformation
  | _ => false

def watch (cfg : Config) (decode : PacketDecoder) (w : Watched) (l : Label) : Option Watched :=
  (step cfg decode w.system l).map fun t =>
    ⟨t, t.conn.flushRequested && (w.seen || l.looksAtRequest)⟩

def Watched.start (conn : ConnInfo) (firstPossiblyMissingFrame : Int) : Watched where
  system := .start conn firstPossiblyMissingFrame
  seen := false

/-- `flush_output_flushed` is set for a pending request only. -/
def FlagsTogether (w : Watched) : Prop :=
  w.system.conn.flushOutputFlushed = true → w.system.conn.flushRequested = true

instance : DecidablePred FlagsTogether := fun _ => inferInstanceAs (Decidable (_ → _))

def SeesNewRequest (cfg : Config) (w : Watched) : Label → Prop
  | .get rd => rd.haveTimestampTimingInformation = true ∧
      (requestFlushes cfg rd w.system.conn).flushRequested = true ∧ w.seen = false
  | _ => False

instance (cfg : Config) (w : Watched) : ∀ l, Decidable (SeesNewRequest cfg w l)
  | .get _ => inferInstanceAs (Decidable (_ ∧ _ ∧ _))
  | .put _ _ _ => isFalse id
  | .resent _ => isFalse id
  | .finish _ => isFalse id
  | .resync _ => isFalse id
  | .flush _ => isFalse id

/-- The step flushes the output once if it sees a new request, and not at all if it does not. -/
def FlushedOnce (cfg : Config) (decode : PacketDecoder) (w : Watched) (l : Label) : Prop :=
  ∀ t, step cfg decode w.system l = some t →
    t.calls.count .flush = w.system.calls.count .flush +
      if SeesNewRequest cfg w l ∧ cfg.outputFlush = true then 1 else 0

/-- The step does not drop a request because the buffer is not synced or is empty. -/
def NotCancelled (cfg : Config) (w : Watched) : Label → Prop
  | .get rd => rd.haveTimestampTimingInformation = true →
      flushDecision (requestFlushes cfg rd w.system.conn) ≠ .notSyncedOrEmpty
  | _ => True

instance (cfg : Config) (w : Watched) : ∀ l, Decidable (NotCancelled cfg w l)
  | .get _ => inferInstanceAs (Decidable (_ → _))
  | .put _ _ _ => isTrue trivial
  | .resent _ => isTrue trivial
  | .finish _ => isTrue trivial
  | .resync _ => isTrue trivial
  | .flush _ => isTrue trivial

/-- The flag says of the pending request that it has been seen; before the first packet there is
nothing in the buffer and no flush of the output outstanding. -/
structure FlushInvariant (w : Watched) : Prop where
  seen : w.system.conn.flushOutputFlushed = w.seen
  together : FlagsTogether w
  beforeFirst : w.system.conn.packetCount = 0 →
    w.system.conn.abSynced = false ∧ w.system.conn.flushOutputFlushed = false

section Steps

variable {cfg : Config} {decode : PacketDecoder} {w w' : Watched} {l : Label}

theorem requestFlushes_flags (cfg : Config) (rd : Readings) (conn : ConnInfo) :
    (requestFlushes cfg rd conn).flushOutputFlushed = conn.flushOutputFlushed ∧
      (conn.flushRequested = true → (requestFlushes cfg rd conn).flushRequested = true) ∧
      (requestFlushes cfg rd conn).packetCount = conn.packetCount := by
  unfold requestFlushes
  split_ifs <;> simp

theorem serviceFlush_packetCount (cfg : Config) (pr : Progress) :
    (serviceFlush cfg pr).conn.packetCount = pr.conn.packetCount := by
  have hout : (flushOutput cfg pr).conn.packetCount = pr.conn.packetCount := by
    unfold flushOutput
    split <;> rfl
  rw [← hout]
  unfold serviceFlush
  dsimp only
  split <;> rfl

theorem serviceFlush_abSynced (cfg : Config) (pr : Progress) (h : pr.conn.abSynced = false) :
    (serviceFlush cfg pr).conn.abSynced = false := by
  have hout : (flushOutput cfg pr).conn.abSynced = false := by
    rw [flushOutput_toAudioRing]
    exact h
  unfold serviceFlush
  dsimp only
  split
  · exact hout
  · rfl
  · rfl
  · exact hout
  · exact hout
  · exact hout

theorem flushDecision_of_not_synced {conn : ConnInfo} (hs : conn.abSynced = false) :
    flushDecision conn = .leave ∧ conn.flushRequested = false ∨
      flushDecision conn = .flushAll true ∨ flushDecision conn = .notSyncedOrEmpty := by
  unfold flushDecision
  rw [hs]
  cases conn.flushRequested with
  | false => exact Or.inl ⟨rfl, rfl⟩
  | true =>
      by_cases hframe : conn.flushRtpTimestamp = 0
      · refine Or.inr (Or.inl ?_)
        rw [if_neg (by decide), if_pos hframe]
      · refine Or.inr (Or.inr ?_)
        rw [if_neg (by decide), if_neg hframe, if_neg fun h => Bool.false_ne_true h.1]

/-- A step that does not look at the request, and keeps a request whose flush has been seen to. -/
theorem FlushInvariant.of_same (h : FlushInvariant w) {t : System}
    (hflushed : t.conn.flushOutputFlushed = w.system.conn.flushOutputFlushed)
    (hrequested : w.system.conn.flushOutputFlushed = true → t.conn.flushRequested = true)
    (hfirst : t.conn.packetCount = 0 → w.system.conn.packetCount = 0 ∧
      (w.system.conn.abSynced = false → t.conn.abSynced = false)) :
    FlushInvariant ⟨t, t.conn.flushRequested && (w.seen || false)⟩ := by
  refine ⟨?_, fun hset => hrequested (hflushed.symm.trans hset), fun hzero => ?_⟩
  · dsimp only
    rw [hflushed, Bool.or_false, ← h.seen]
    cases hset : w.system.conn.flushOutputFlushed with
    | false => rw [Bool.and_false]
    | true => rw [hrequested hset, Bool.and_true]
  · obtain ⟨hzero, hsynced⟩ := hfirst hzero
    obtain ⟨hns, hclear⟩ := h.beforeFirst hzero
    exact ⟨hsynced hns, hflushed.trans hclear⟩

theorem put_flags (cfg : Config) (decode : PacketDecoder) (s : System) (thread : ℕ)
    (timeNow : Nanoseconds) (a : PutArgs) :
    (s.put cfg decode thread timeNow a).conn.flushOutputFlushed = s.conn.flushOutputFlushed ∧
      (s.conn.packetCount ≠ 0 →
        (s.put cfg decode thread timeNow a).conn.flushRequested = s.conn.flushRequested) ∧
      (s.put cfg decode thread timeNow a).conn.packetCount = s.conn.packetCount + 1 := by
  have hframe := put_resendFrame cfg decode s thread timeNow a
  have hcounted : (countPacket timeNow (ignoreEarlyFlush s.conn)).flushOutputFlushed =
        s.conn.flushOutputFlushed ∧
      (s.conn.packetCount ≠ 0 → (countPacket timeNow (ignoreEarlyFlush s.conn)).flushRequested =
        s.conn.flushRequested) ∧
      (countPacket timeNow (ignoreEarlyFlush s.conn)).packetCount = s.conn.packetCount + 1 := by
    unfold countPacket ignoreEarlyFlush
    split_ifs with hfirst
    · exact ⟨rfl, fun h => absurd hfirst h, rfl⟩
    · exact ⟨rfl, fun _ => rfl, rfl⟩
  have hstored : StoreFrame (countPacket timeNow (ignoreEarlyFlush s.conn))
      (playerPutPacketStore decode timeNow a s.conn).1 := by
    unfold playerPutPacketStore
    dsimp only
    split_ifs
    · exact ⟨rfl, rfl, rfl⟩
    · exact storePacket_frame decode timeNow a _
  rw [hframe.rest]
  dsimp only
  rw [hstored.flush, hstored.packetCount]
  exact hcounted

/-- The step of the player thread. -/
theorem FlushInvariant.get (h : FlushInvariant w) {rd : Readings} (loop : FrameLoop)
    (hkept : NotCancelled cfg w (.get rd)) :
    FlushInvariant ⟨w.system.get cfg rd loop, (w.system.get cfg rd loop).conn.flushRequested &&
      (w.seen || rd.haveTimestampTimingInformation)⟩ := by
  cases hrd : rd.haveTimestampTimingInformation with
  | false =>
      have hsame : (w.system.get cfg rd loop).conn = w.system.conn := by
        unfold System.get bufferGetFrameIteration
        rw [hrd]
        rfl
      refine h.of_same ?_ ?_ ?_
      · rw [hsame]
      · rw [hsame]
        exact h.together
      · rw [hsame]
        exact fun hzero => ⟨hzero, id⟩
  | true =>
      obtain ⟨hflush, hcount, hsynced, -⟩ := get_flush cfg w.system loop hrd
      obtain ⟨hkeeps, hstays, hsame⟩ := requestFlushes_flags cfg rd w.system.conn
      have hservice := serviceFlush_flags cfg ⟨requestFlushes cfg rd w.system.conn, loop, [], []⟩
        (fun hset => hstays (h.together (hkeeps.symm.trans hset))) (hkept hrd)
      have hflags : (w.system.get cfg rd loop).conn.flushOutputFlushed =
          (w.system.get cfg rd loop).conn.flushRequested := by
        rw [hflush]
        exact hservice
      refine ⟨?_, fun hset => hflags.symm.trans hset, fun hzero => ?_⟩
      · dsimp only
        rw [hflags, Bool.or_true, Bool.and_true]
      · dsimp only at hzero ⊢
        rw [hcount, serviceFlush_packetCount] at hzero
        obtain ⟨hns, hclear⟩ := h.beforeFirst (hsame.symm.trans hzero)
        have hns' : (requestFlushes cfg rd w.system.conn).abSynced = false := by
          rw [requestFlushes_toAudioRing]
          exact hns
        refine ⟨hsynced.trans (serviceFlush_abSynced cfg _ hns'), ?_⟩
        rw [hflags, hflush]
        unfold serviceFlush
        dsimp only
        rw [flushDecision_flushOutput]
        rcases flushDecision_of_not_synced hns' with ⟨hleave, hnone⟩ | hall | hdropped
        · rw [hleave]
          exact (flushOutput_request cfg _).1.trans hnone
        · rw [hall]
          rfl
        · exact absurd hdropped (hkept hrd)

theorem FlushInvariant.step (h : FlushInvariant w) (hkept : NotCancelled cfg w l)
    (hstep : watch cfg decode w l = some w') : FlushInvariant w' := by
  obtain ⟨t, htaken, rfl⟩ := Option.map_eq_some_iff.mp hstep
  cases l with
  | put thread timeNow a =>
      obtain ⟨-, rfl⟩ := step_put_eq_some_iff.mp htaken
      obtain ⟨hflushed, hrequested, hcount⟩ := put_flags cfg decode w.system thread timeNow a
      refine h.of_same hflushed (fun hset => ?_) fun hzero => ?_
      · have hfirst : w.system.conn.packetCount ≠ 0 := fun hzero =>
          Bool.false_ne_true ((h.beforeFirst hzero).2.symm.trans hset)
        exact (hrequested hfirst).trans (h.together hset)
      · exact absurd (hcount.symm.trans hzero) (Nat.succ_ne_zero _)
  | resent thread =>
      obtain ⟨scan, -, rfl⟩ := step_resent_eq_some_iff.mp htaken
      have hframe := resent_resendFrame cfg w.system thread scan
      refine h.of_same ?_ ?_ ?_
      · rw [hframe.rest]
      · rw [hframe.rest]
        exact h.together
      · rw [hframe.rest]
        exact fun hzero => ⟨hzero, id⟩
  | get rd =>
      obtain ⟨loop, -, rfl⟩ := step_get_eq_some_iff.mp htaken
      exact h.get loop hkept
  | finish played =>
      obtain ⟨frame, -, rfl⟩ := step_finish_eq_some_iff.mp htaken
      cases played <;> exact h.of_same rfl h.together fun hzero => ⟨hzero, id⟩
  | resync linkResumed =>
      obtain rfl := Option.some.inj htaken
      cases linkResumed <;> exact h.of_same rfl h.together fun hzero => ⟨hzero, fun _ => rfl⟩
  | flush timestamp =>
      obtain rfl := Option.some.inj htaken
      exact h.of_same rfl (fun _ => rfl) fun hzero => ⟨hzero, id⟩

theorem FlushInvariant.flushedOnce (h : FlushInvariant w) : FlushedOnce cfg decode w l := by
  intro t hstep
  cases l with
  | put thread timeNow a =>
      obtain ⟨-, rfl⟩ := step_put_eq_some_iff.mp hstep
      rw [if_neg fun hsees => hsees.1]
      unfold System.put System.afterScan
      dsimp only
      split_ifs
      · rfl
      · split <;> rfl
  | resent thread =>
      obtain ⟨scan, -, rfl⟩ := step_resent_eq_some_iff.mp hstep
      rw [if_neg fun hsees => hsees.1]
      unfold System.resent System.afterScan
      split <;> rfl
  | get rd =>
      obtain ⟨loop, -, rfl⟩ := step_get_eq_some_iff.mp hstep
      cases hrd : rd.haveTimestampTimingInformation with
      | false =>
          rw [if_neg fun hsees => Bool.false_ne_true (hrd.symm.trans hsees.1.1)]
          unfold System.get bufferGetFrameIteration
          rw [hrd]
          exact congrArg _ (List.append_nil _)
      | true =>
          obtain ⟨-, -, -, hcalls⟩ := get_flush cfg w.system loop hrd
          rw [hcalls, serviceFlush_calls, flushOutput_calls]
          dsimp only
          rw [(requestFlushes_flags cfg rd w.system.conn).1, h.seen, List.count_nil, Nat.zero_add]
          refine congrArg _ (if_congr ?_ rfl rfl)
          unfold SeesNewRequest
          simp [hrd, and_assoc]
  | finish played =>
      obtain ⟨frame, -, rfl⟩ := step_finish_eq_some_iff.mp hstep
      rw [if_neg fun hsees => hsees.1]
      rfl
  | resync linkResumed =>
      obtain rfl := Option.some.inj hstep
      rw [if_neg fun hsees => hsees.1]
      rfl
  | flush timestamp =>
      obtain rfl := Option.some.inj hstep
      rw [if_neg fun hsees => hsees.1]
      rfl

theorem notCancelled_of_flagsTogether (hstep : watch cfg decode w l = some w')
    (hflags : FlagsTogether w') : NotCancelled cfg w l := by
  obtain ⟨t, htaken, rfl⟩ := Option.map_eq_some_iff.mp hstep
  cases l with
  | get rd =>
      obtain ⟨loop, -, rfl⟩ := step_get_eq_some_iff.mp htaken
      intro hrd hdropped
      obtain ⟨hflushed, hnone⟩ := serviceFlush_flags_of_notSyncedOrEmpty cfg
        ⟨requestFlushes cfg rd w.system.conn, loop, [], []⟩ hdropped
      obtain ⟨hflush, -⟩ := get_flush cfg w.system loop hrd
      have hset : (w.system.get cfg rd loop).conn.flushRequested = true := by
        refine hflags ?_
        dsimp only
        rw [hflush]
        exact hflushed
      rw [hflush, hnone] at hset
      exact Bool.false_ne_true hset
  | _ => exact trivial

end Steps

/-- The flag is set for a pending request only, and every request that is seen has the output
flushed exactly once, if and only if no request is dropped for want of a buffer. -/
theorem output_flushed_once_iff (cfg : Config) (decode : PacketDecoder) (conn : ConnInfo)
    (firstPossiblyMissingFrame : Int) (labels : List Label) :
    (Throughout (watch cfg decode) FlagsTogether
        (Watched.start conn firstPossiblyMissingFrame) labels ∧
      Along (watch cfg decode) (FlushedOnce cfg decode)
        (Watched.start conn firstPossiblyMissingFrame) labels) ↔
      Along (watch cfg decode) (NotCancelled cfg)
        (Watched.start conn firstPossiblyMissingFrame) labels := by
  have hstart : FlushInvariant (Watched.start conn firstPossiblyMissingFrame) :=
    ⟨rfl, fun hset => absurd hset Bool.false_ne_true, fun _ => ⟨rfl, rfl⟩⟩
  constructor
  · rintro ⟨hflags, -⟩
    exact along_of_throughout (fun w l w' => notCancelled_of_flagsTogether) hflags
  · intro hkept
    have hstep (w : Watched) (l : Label) (w' : Watched) (h : FlushInvariant w)
        (hkept : NotCancelled cfg w l) (hstep : watch cfg decode w l = some w') :
        FlushInvariant w' := h.step hkept hstep
    exact ⟨(throughout_of_step hstep hstart hkept).mono fun w h => h.together,
      along_of_step hstep (fun w l h _ => h.flushedOnce) hstart hkept⟩

def twoRequests : List Label :=
  [.flush 1000, .get (.at 0 0 0), .flush 2000, .get (.at 0 0 0)]

/-- The output is flushed for the first of the two only. -/
example : (run (step { Config.playOnly with outputFlush := true } .pcm) (System.start .fresh (-1))
    twoRequests).map (fun t => t.calls.count .flush) = some 1 := by decide +kernel

/-- Without a buffer, the flag stays set when the request is dropped. -/
theorem output_not_flushed_once :
    ¬ ∀ (cfg : Config) (decode : PacketDecoder) (conn : ConnInfo)
      (firstPossiblyMissingFrame : Int) (labels : List Label),
      Throughout (watch cfg decode) FlagsTogether
          (Watched.start conn firstPossiblyMissingFrame) labels ∧
        Along (watch cfg decode) (FlushedOnce cfg decode)
          (Watched.start conn firstPossiblyMissingFrame) labels := by
  intro h
  have hflags := (h { Config.playOnly with outputFlush := true } .pcm .fresh (-1) twoRequests).1
  exact absurd hflags (by decide +kernel)

end Player

end ShairportSync
