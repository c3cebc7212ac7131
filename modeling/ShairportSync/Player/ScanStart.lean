import ShairportSync.Player.Acceptance
import ShairportSync.Player.ResendRanges
import ShairportSync.Player.Wrap

/-!
# The first possibly missing frame

The resend scan may start at `first_possibly_missing_frame`, a global that outlives everything
that happens to the buffer, if it lies in the window. That is right as long as every number of the
window before it is ready: then the scan finds what a scan of the whole window would find. The
player's side only ever takes numbers from the start of the window (`Advances`), which keeps this
so. A bad packet that clears a slot before the position does not.
-/

namespace ShairportSync

namespace Player

open SerialNumber Transition

/-! ## Taking numbers from the start of the window -/

/-- The window has lost some numbers at its start; the entries of the rest are as ready as they
were, for the same sequence numbers. -/
structure AdvancedTo (ring ring' : AudioRing) : Prop where
  synced : ring.abSynced = true
  abWrite : ring'.abWrite = ring.abWrite
  distance_add : distance ring.abRead ring'.abRead + distance ring'.abRead ring.abWrite =
    distance ring.abRead ring.abWrite
  ready : ∀ q, Between ring'.abRead ring.abWrite q → (ring'.entry q).ready = (ring.entry q).ready
  sequenceNumber : ∀ q, Between ring'.abRead ring.abWrite q →
    (ring'.entry q).sequenceNumber = (ring.entry q).sequenceNumber

/-- A buffer that is still synced has at most lost numbers at the start of its window. -/
def Advances (ring ring' : AudioRing) : Prop := ring'.abSynced = true → AdvancedTo ring ring'

/-- No ready entry of the window bears another number of its slot. -/
def NoAlias (ring : AudioRing) : Prop :=
  ring.abSynced = true → ∀ q, Between ring.abRead ring.abWrite q → (ring.entry q).ready = true →
    bufidx (ring.entry q).sequenceNumber = bufidx q → (ring.entry q).sequenceNumber = q

instance (ring : AudioRing) : Decidable (NoAlias ring) := inferInstanceAs (Decidable (_ → _))

section Advances

variable {ring ring' ring'' : AudioRing}

theorem AdvancedTo.between (h : AdvancedTo ring ring') {q : SeqT}
    (hq : Between ring'.abRead ring.abWrite q) : Between ring.abRead ring.abWrite q := by
  have hround := distance_lt ring.abRead ring.abWrite
  exact (between_append (h.distance_add ▸ hround)).mpr (Or.inr hq)

theorem Advances.refl (ring : AudioRing) : Advances ring ring := fun hs =>
  ⟨hs, rfl, by rw [distance_self, Nat.zero_add], fun _ _ => rfl, fun _ _ => rfl⟩

theorem Advances.trans (h : Advances ring ring') (h' : Advances ring' ring'') :
    Advances ring ring'' := by
  intro hs
  have hsecond := h' hs
  have hfirst := h hsecond.synced
  have hsum := hfirst.distance_add
  have hsum' := hsecond.distance_add
  rw [hfirst.abWrite] at hsum'
  have hround := distance_lt ring.abRead ring.abWrite
  have hadd : distance ring.abRead ring''.abRead =
      distance ring.abRead ring'.abRead + distance ring'.abRead ring''.abRead :=
    SerialNumber.distance_add (by omega)
  have hin {q : SeqT} (hq : Between ring''.abRead ring.abWrite q) :
      Between ring''.abRead ring'.abWrite q ∧ Between ring'.abRead ring.abWrite q := by
    rw [← hfirst.abWrite] at hq ⊢
    exact ⟨hq, hsecond.between hq⟩
  refine ⟨hfirst.synced, hsecond.abWrite.trans hfirst.abWrite, by omega, ?_, ?_⟩
  · intro q hq
    exact (hsecond.ready q (hin hq).1).trans (hfirst.ready q (hin hq).2)
  · intro q hq
    exact (hsecond.sequenceNumber q (hin hq).1).trans (hfirst.sequenceNumber q (hin hq).2)

theorem Advances.of_not_synced (h : ring'.abSynced = false) : Advances ring ring' := fun hs =>
  absurd (hs.symm.trans h) Bool.false_ne_true.symm

theorem Advances.of_eq (h : ring' = ring) : Advances ring ring' := h ▸ Advances.refl ring

theorem Advances.noAlias (h : Advances ring ring') (hno : NoAlias ring) : NoAlias ring' := by
  intro hs q hq hready hslot
  have hto := h hs
  rw [hto.abWrite] at hq
  rw [hto.ready q hq] at hready
  rw [hto.sequenceNumber q hq] at hslot ⊢
  exact hno hto.synced q (hto.between hq) hready hslot

theorem Advances.fits (h : Advances ring ring') (hfits : ring.Fits) : ring'.Fits := by
  intro hs
  have hto := h hs
  refine (occupancy_le_iff bufferFrames_lt ring').mpr ?_
  have hlen := hfits.distance_le hto.synced
  have hsum := hto.distance_add
  rw [hto.abWrite]
  omega

/-- A few numbers are taken from a window that has them. -/
theorem advances_of_add {k : ℕ} (hk : k ≤ distance ring.abRead ring.abWrite)
    (hsynced : ring'.abSynced = ring.abSynced) (hwrite : ring'.abWrite = ring.abWrite)
    (hread : ring'.abRead = ring.abRead + BitVec.ofNat 16 k)
    (hready : ∀ q, Between ring'.abRead ring.abWrite q →
      (ring'.entry q).ready = (ring.entry q).ready)
    (hsequence : ∀ q, Between ring'.abRead ring.abWrite q →
      (ring'.entry q).sequenceNumber = (ring.entry q).sequenceNumber) : Advances ring ring' := by
  intro hs
  have hround := distance_lt ring.abRead ring.abWrite
  have hdist : distance ring.abRead ring'.abRead = k := by
    rw [hread, distance_add_ofNat ring.abRead (by omega)]
  exact ⟨hsynced.symm.trans hs, hwrite, distance_add_of_le (hdist ▸ hk), hready, hsequence⟩

end Advances

section Iteration

variable {cfg : Config} {rd : Readings} {pr : Progress}

theorem flushPart_advances (pr : Progress) :
    Advances pr.conn.toAudioRing (flushPart pr).conn.toAudioRing := by
  obtain ⟨k, hk, hread⟩ := dropBeforeFlush_eq_add pr.conn.audioBuffer pr.conn.flushRtpTimestamp
    pr.conn.intDifference.toNat pr.conn.abRead
  have htrim (i : Fin bufferFrames) :
      ((flushPart pr).conn.audioBuffer i).ready = (pr.conn.audioBuffer i).ready ∧
        ((flushPart pr).conn.audioBuffer i).sequenceNumber =
          (pr.conn.audioBuffer i).sequenceNumber := by
    unfold flushPart
    dsimp only
    by_cases hi : i = bufidx (dropBeforeFlush pr.conn.audioBuffer pr.conn.flushRtpTimestamp
      pr.conn.intDifference.toNat pr.conn.abRead)
    · rw [hi, Function.update_self]
      exact ⟨rfl, rfl⟩
    · rw [Function.update_of_ne hi]
      exact ⟨rfl, rfl⟩
  exact advances_of_add (hk.trans (intDifference_toNat_le pr.conn.toAudioRing)) rfl rfl hread
    (fun q _ => (htrim (bufidx q)).1) fun q _ => (htrim (bufidx q)).2

theorem serviceFlush_advances (cfg : Config) (pr : Progress) :
    Advances pr.conn.toAudioRing (serviceFlush cfg pr).conn.toAudioRing := by
  have hout : Advances pr.conn.toAudioRing (flushOutput cfg pr).conn.toAudioRing :=
    .of_eq (flushOutput_toAudioRing cfg pr)
  unfold serviceFlush
  dsimp only
  split
  · exact hout
  · exact .of_not_synced rfl
  · exact .of_not_synced rfl
  · exact hout.trans (flushPart_advances _)
  · exact hout
  · exact hout

theorem skipLoop_eq_add (slots : Fin bufferFrames → AudioBufferEntry)
    (shouldBeFrame : ℕ → RtpTime) (n k : ℕ) (r : SeqT) :
    ∃ j ≤ n, (skipLoop slots shouldBeFrame n k r).1 = r + BitVec.ofNat 16 j := by
  induction n generalizing k r with
  | zero => exact ⟨0, le_refl 0, (BitVec.add_zero r).symm⟩
  | succ n ih =>
      unfold skipLoop
      dsimp only
      split_ifs
      · obtain ⟨j, hj, heq⟩ := ih (k + 1) (r + 1)
        exact ⟨j + 1, Nat.succ_le_succ hj, heq.trans (add_one_add_ofNat r j)⟩
      · exact ⟨0, Nat.zero_le _, (BitVec.add_zero r).symm⟩
      · obtain ⟨j, hj, heq⟩ := ih k (r + 1)
        exact ⟨j + 1, Nat.succ_le_succ hj, heq.trans (add_one_add_ofNat r j)⟩

theorem skipOutOfDate_advances (rd : Readings) (pr : Progress) :
    Advances pr.conn.toAudioRing (skipOutOfDate rd pr).conn.toAudioRing := by
  unfold skipOutOfDate
  split
  · obtain ⟨k, hk, hread⟩ := skipLoop_eq_add pr.conn.audioBuffer
      (fun k => rd.localTimeToFrame k (timeToAimFor rd pr.conn)) pr.conn.intDifference.toNat 0
      pr.conn.abRead
    exact advances_of_add (hk.trans (intDifference_toNat_le pr.conn.toAudioRing)) rfl rfl hread
      (fun _ _ => rfl) fun _ _ => rfl
  · exact .refl _

theorem currentFrame_toAudioRing (cfg : Config) (rd : Readings) (pr : Progress)
    (hno : NoAlias pr.conn.toAudioRing) :
    (currentFrame cfg rd pr).conn.toAudioRing = pr.conn.toAudioRing := by
  unfold currentFrame
  split
  · rename_i hs
    rw [(leadIn_frame cfg rd _).ring]
    unfold checkSequence
    dsimp only
    split_ifs with hwrong halias
    · obtain ⟨hne, hready, hseq⟩ := hwrong
      exact absurd (hno hs _ (between_left hne.symm) hready halias) hseq
    · rfl
    · rfl
  · rfl

theorem handOut_advances (hfits : pr.conn.toAudioRing.Fits) (hr : Released pr) :
    Advances pr.conn.toAudioRing (handOut pr).conn.toAudioRing := by
  have hlen := hfits.distance_le hr.synced
  have hleft := distance_add_one_left hr.nonempty.symm
  have hslot (q : SeqT) (hq : Between (pr.conn.abRead + 1) pr.conn.abWrite q) :
      bufidx q ≠ bufidx pr.conn.abRead := by
    intro he
    obtain ⟨hq, hne⟩ := (between_add_one_left hr.nonempty.symm).mp hq
    exact hne (slot_injective_on bufferFrames_dvd (lt_of_lt_of_le hq hlen)
      (by rw [distance_self]; exact lt_of_lt_of_le (by omega) hlen) he)
  have hentry (q : SeqT) (hq : Between (pr.conn.abRead + 1) pr.conn.abWrite q) :
      (handOut pr).conn.entry q = pr.conn.entry q := by
    simp only [handOut, hr.curframe]
    exact Function.update_of_ne (hslot q hq) _ _
  have hread : (handOut pr).conn.abRead = pr.conn.abRead + BitVec.ofNat 16 1 := by
    simp only [handOut, hr.curframe]
    rfl
  refine advances_of_add (k := 1) (by omega) ?_ ?_ hread ?_ ?_
  · simp only [handOut, hr.curframe]
  · simp only [handOut, hr.curframe]
  · intro q hq
    rw [hread] at hq
    exact congrArg AudioBufferEntry.ready (hentry q hq)
  · intro q hq
    rw [hread] at hq
    exact congrArg AudioBufferEntry.sequenceNumber (hentry q hq)

/-- An iteration takes numbers from the start of the window, unless it resyncs the buffer. -/
theorem bufferGetFrameIteration_advances (cfg : Config) (rd : Readings) {conn : ConnInfo}
    (loop : FrameLoop) (hfits : conn.toAudioRing.Fits) (hno : NoAlias conn.toAudioRing) :
    Advances conn.toAudioRing (bufferGetFrameIteration cfg rd conn loop).2.conn.toAudioRing ∧
      ((bufferGetFrameIteration cfg rd conn loop).1 = false →
        Advances conn.toAudioRing
          (handOut (bufferGetFrameIteration cfg rd conn loop).2).conn.toAudioRing) := by
  unfold bufferGetFrameIteration
  split
  · have hskip : Advances conn.toAudioRing
        (flushAndSkip cfg rd ⟨requestFlushes cfg rd conn, loop, [], []⟩).conn.toAudioRing :=
      (Advances.of_eq (requestFlushes_toAudioRing cfg rd conn)).trans
        ((serviceFlush_advances cfg _).trans (skipOutOfDate_advances rd _))
    generalize flushAndSkip cfg rd ⟨requestFlushes cfg rd conn, loop, [], []⟩ = pr at hskip
    have hcurrent := currentFrame_toAudioRing cfg rd pr (hskip.noAlias hno)
    have hframe := waitForFrame_frame cfg rd (currentFrame cfg rd pr)
    have hwait : Advances conn.toAudioRing
        (waitForFrame cfg rd (currentFrame cfg rd pr)).2.conn.toAudioRing :=
      hskip.trans (.of_eq (hframe.ring.trans hcurrent))
    refine ⟨hwait, fun hstop => hwait.trans (handOut_advances (hwait.fits hfits) ?_)⟩
    obtain ⟨hs, hne⟩ := waitForFrame_stops hstop
    refine ⟨by rw [hframe.ring]; exact hs, by rw [hframe.ring]; exact hne, ?_⟩
    rw [hframe.curframe, hframe.ring]
    exact currentFrame_curframe cfg rd pr hs
  · exact ⟨.refl _, fun hstop => absurd hstop (by simp)⟩

end Iteration

/-! ## What the scan makes of the ready numbers it starts with -/

def ResendOutcome.Seen : ResendOutcome → Prop
  | .finished _ => True
  | .requesting _ _ _ scan => 0 < scan.numberOfMissingFrames

section Scan

variable {cfg : Config} {st : ResendState} {scan : ResendScan}

theorem checkEntry_of_ready (hready : (st.conn.entry scan.x).ready = true) :
    checkEntry cfg st scan = (st, scan) := by
  unfold checkEntry
  dsimp only
  rw [if_pos hready]

theorem checkEntry_of_missing (cfg : Config) (hready : (st.conn.entry scan.x).ready = false) :
    (checkEntry cfg st scan).1.firstPossiblyMissingFrame =
        (if st.firstPossiblyMissingFrame < 0 then (scan.x.toNat : Int)
          else st.firstPossiblyMissingFrame) ∧
      (checkEntry cfg st scan).2.numberOfMissingFrames = scan.numberOfMissingFrames + 1 := by
  unfold checkEntry
  dsimp only
  rw [if_neg (by rw [hready]; exact Bool.false_ne_true)]
  exact ⟨rfl, rfl⟩

/-- After a check the scan goes on, or it stops for a request; the frames seen are the same. -/
theorem resendScan_succ_cases (cfg : Config) (n : ℕ) (st : ResendState) (scan : ResendScan) :
    ∃ scan' : ResendScan,
      scan'.numberOfMissingFrames = (checkEntry cfg st scan).2.numberOfMissingFrames ∧
      (resendScan cfg (n + 1) st scan = resendScan cfg n (checkEntry cfg st scan).1 scan' ∨
        ∃ first count, resendScan cfg (n + 1) st scan =
          .requesting first count (checkEntry cfg st scan).1 scan') := by
  rw [resendScan]
  dsimp only
  split_ifs
  · refine ⟨_, ?_, Or.inl rfl⟩
    rfl
  · refine ⟨_, ?_, Or.inr ⟨_, _, rfl⟩⟩
    rfl
  · refine ⟨_, ?_, Or.inl rfl⟩
    rfl

theorem resendScan_of_ready (n : ℕ) (hready : (st.conn.entry scan.x).ready = true)
    (hcount : scan.missingFrameRunCount = 0) :
    resendScan cfg (n + 1) st scan = resendScan cfg n st { scan with x := scan.x + 1 } := by
  conv_lhs => unfold resendScan
  dsimp only
  rw [checkEntry_of_ready hready]
  simp [hcount]

theorem resendScan_skip (k n : ℕ) (st : ResendState) (scan : ResendScan)
    (hready : ∀ i < k, (st.conn.entry (scan.x + BitVec.ofNat 16 i)).ready = true)
    (hcount : scan.missingFrameRunCount = 0) :
    resendScan cfg (k + n) st scan =
      resendScan cfg n st { scan with x := scan.x + BitVec.ofNat 16 k } := by
  induction k generalizing scan with
  | zero => rw [Nat.zero_add, BitVec.add_zero]
  | succ k ih =>
      have hfirst : (st.conn.entry scan.x).ready = true := by
        have h := hready 0 (Nat.succ_pos k)
        rwa [BitVec.add_zero] at h
      have hrest (i : ℕ) (hi : i < k) :
          (st.conn.entry (scan.x + 1 + BitVec.ofNat 16 i)).ready = true := by
        rw [add_one_add_ofNat]
        exact hready (i + 1) (Nat.succ_lt_succ hi)
      rw [Nat.succ_add, resendScan_of_ready _ hfirst hcount,
        ih { scan with x := scan.x + 1 } hrest hcount]
      dsimp only
      rw [add_one_add_ofNat]

/-- Once a missing frame has been seen, the position stays. -/
theorem resendScan_keeps_position (n : ℕ) (st : ResendState) (scan : ResendScan)
    (hfirst : 0 ≤ st.firstPossiblyMissingFrame) (hseen : 0 < scan.numberOfMissingFrames) :
    (resendScan cfg n st scan).state.firstPossiblyMissingFrame = st.firstPossiblyMissingFrame ∧
      (resendScan cfg n st scan).Seen := by
  induction n generalizing st scan with
  | zero =>
      refine ⟨?_, trivial⟩
      rw [resendScan, ResendOutcome.state]
      exact if_neg hseen.ne'
  | succ n ih =>
      have hcheck : (checkEntry cfg st scan).1.firstPossiblyMissingFrame =
            st.firstPossiblyMissingFrame ∧
          0 < (checkEntry cfg st scan).2.numberOfMissingFrames := by
        cases hready : (st.conn.entry scan.x).ready with
        | true =>
            rw [checkEntry_of_ready hready]
            exact ⟨rfl, hseen⟩
        | false =>
            obtain ⟨hposition, hnumber⟩ := checkEntry_of_missing cfg hready
            rw [hposition, hnumber, if_neg (not_lt.mpr hfirst)]
            exact ⟨rfl, Nat.succ_pos _⟩
      obtain ⟨scan', hnumber, hgo | ⟨first, count, hstop⟩⟩ := resendScan_succ_cases cfg n st scan
      · rw [hgo, ← hcheck.1]
        exact ih _ _ (hcheck.1.symm ▸ hfirst) (hnumber ▸ hcheck.2)
      · rw [hstop]
        refine ⟨hcheck.1, ?_⟩
        rw [ResendOutcome.Seen, hnumber]
        exact hcheck.2

/-- The position a scan leaves: every number it has come to before that one is ready. -/
theorem resendScan_position (cfg : Config) (n : ℕ) (st : ResendState) (scan : ResendScan)
    (hn : distance scan.x st.conn.abWrite = n) (hfirst : st.firstPossiblyMissingFrame < 0)
    (hseen : scan.numberOfMissingFrames = 0) (hcount : scan.missingFrameRunCount = 0) :
    (∃ k ≤ n, (resendScan cfg n st scan).state.firstPossiblyMissingFrame =
        (scan.x + BitVec.ofNat 16 k).toNat ∧
      ∀ i < k, (st.conn.entry (scan.x + BitVec.ofNat 16 i)).ready = true) ∧
      (resendScan cfg n st scan).Seen := by
  induction n generalizing scan with
  | zero =>
      refine ⟨⟨0, le_rfl, ?_, fun i hi => absurd hi (Nat.not_lt_zero i)⟩, trivial⟩
      rw [resendScan, ResendOutcome.state, BitVec.add_zero, ← distance_eq_zero_iff.mp hn]
      exact if_pos hseen
  | succ n ih =>
      have hne : st.conn.abWrite ≠ scan.x := distance_pos_iff.mp (hn ▸ Nat.succ_pos n)
      have hrest : distance (scan.x + 1) st.conn.abWrite = n :=
        Nat.succ_injective ((distance_add_one_left hne).trans hn)
      cases hready : (st.conn.entry scan.x).ready with
      | true =>
          rw [resendScan_of_ready n hready hcount]
          obtain ⟨⟨k, hk, hposition, hbefore⟩, hstopped⟩ :=
            ih { scan with x := scan.x + 1 } hrest hseen hcount
          refine ⟨⟨k + 1, Nat.succ_le_succ hk, ?_, fun i hi => ?_⟩, hstopped⟩
          · rw [hposition]
            dsimp only
            rw [add_one_add_ofNat]
          · cases i with
            | zero => rwa [BitVec.add_zero]
            | succ i =>
                rw [← add_one_add_ofNat]
                exact hbefore i (Nat.lt_of_succ_lt_succ hi)
      | false =>
          obtain ⟨hposition, hnumber⟩ := checkEntry_of_missing cfg hready
          rw [if_pos hfirst] at hposition
          have hpos : 0 < (checkEntry cfg st scan).2.numberOfMissingFrames :=
            hnumber ▸ Nat.succ_pos _
          have hhere : ((resendScan cfg (n + 1) st scan).state.firstPossiblyMissingFrame =
              scan.x.toNat) ∧ (resendScan cfg (n + 1) st scan).Seen := by
            obtain ⟨scan', hnumber', hgo | ⟨first, count, hstop⟩⟩ :=
              resendScan_succ_cases cfg n st scan
            · rw [hgo, ← hposition]
              exact resendScan_keeps_position n _ _ (by rw [hposition]; exact Int.natCast_nonneg _)
                (hnumber' ▸ hpos)
            · rw [hstop]
              refine ⟨hposition, ?_⟩
              rw [ResendOutcome.Seen, hnumber']
              exact hpos
          refine ⟨⟨0, Nat.zero_le _, ?_, fun i hi => absurd hi (Nat.not_lt_zero i)⟩, hhere.2⟩
          rw [BitVec.add_zero]
          exact hhere.1

end Scan

/-! ## The position and the window -/

/-- The position is not far behind the end of the window, and if it is in the window every number
before it is ready. -/
structure Shortcut (ring : AudioRing) (f : SeqT) : Prop where
  near : distance f ring.abWrite ≤ bufferFrames
  ready : distance ring.abRead f ≤ distance ring.abRead ring.abWrite →
    ∀ q, Between ring.abRead f q → (ring.entry q).ready = true

theorem Shortcut.advance {ring ring' : AudioRing} {f : SeqT} (h : Shortcut ring f)
    (hto : AdvancedTo ring ring') : Shortcut ring' f := by
  refine ⟨hto.abWrite ▸ h.near, fun hle q hq => ?_⟩
  rw [hto.abWrite] at hle
  have hsum := hto.distance_add
  have hround := distance_lt ring.abRead ring.abWrite
  have hbehind : distance ring.abRead ring'.abRead + distance ring'.abRead f < 2 ^ 16 := by omega
  have hadd := distance_add hbehind
  rw [hto.ready q (lt_of_lt_of_le hq hle)]
  exact h.ready (by omega) q ((between_append hbehind).mpr (Or.inr hq))

theorem Shortcut.congr {ring ring' : AudioRing} {f : SeqT} (h : Shortcut ring f)
    (hread : ring'.abRead = ring.abRead) (hwrite : ring'.abWrite = ring.abWrite)
    (hready : ∀ q, (ring'.entry q).ready = (ring.entry q).ready) : Shortcut ring' f := by
  refine ⟨hwrite ▸ h.near, fun hle q hq => ?_⟩
  rw [hread] at hle hq
  rw [hwrite] at hle
  rw [hready]
  exact h.ready hle q hq

theorem Shortcut.of_resendFrame {conn conn' : ConnInfo} {f : SeqT}
    (h : Shortcut conn.toAudioRing f) (hframe : ResendFrame conn conn') :
    Shortcut conn'.toAudioRing f :=
  h.congr (by rw [hframe.rest]) (by rw [hframe.rest]) fun q => hframe.ready (bufidx q)

/-- A bad packet for a number before the position, which is in the window. -/
def ClearsEarlier (decode : PacketDecoder) (a : PutArgs) (conn : ConnInfo)
    (firstPossiblyMissingFrame : Int) : Prop :=
  conn.abSynced = true ∧ a.originalFormat = true ∧ ¬ Decodes decode a conn ∧
    placement conn.toAudioRing a.seqno = .late ∧
    Between conn.abRead conn.abWrite (BitVec.ofInt 16 firstPossiblyMissingFrame) ∧
    Between conn.abRead (BitVec.ofInt 16 firstPossiblyMissingFrame) a.seqno

instance (decode : PacketDecoder) (a : PutArgs) (conn : ConnInfo) (fpm : Int) :
    Decidable (ClearsEarlier decode a conn fpm) :=
  inferInstanceAs (Decidable (_ ∧ _ ∧ _ ∧ _ ∧ _ ∧ _))

section Store

variable {decode : PacketDecoder} {timeNow : Nanoseconds} {a : PutArgs} {conn : ConnInfo}

theorem ready_of_content {abuf : AudioBufferEntry} {x : SeqT × Packet}
    (h : abuf.content = some x) : abuf.ready = true := by
  by_contra hready
  rw [content_eq_none_iff.mpr (Bool.eq_false_iff.mpr hready)] at h
  exact Option.some_ne_none x h.symm

theorem originalFormat_of_placement (hs : conn.abSynced = true)
    (hplace : placement conn.toAudioRing (effectiveSeqno a conn) ≠ .expected) :
    a.originalFormat = true := by
  by_contra ha
  refine hplace ?_
  rw [effectiveSeqno, hs, Bool.eq_false_iff.mpr ha, placement, if_pos (by rfl)]

/-- A late packet leaves a ready entry ready, unless it is a bad one for the same slot. -/
theorem storePacket_ready_of_late (hs : conn.abSynced = true)
    (hlate : placement conn.toAudioRing (effectiveSeqno a conn) = .late) {q : SeqT}
    (hready : (conn.entry q).ready = true)
    (hgood : Decodes decode a conn ∨ bufidx q ≠ bufidx a.seqno) :
    ((storePacket decode timeNow a conn).1.entry q).ready = true := by
  have ha : a.originalFormat = true := originalFormat_of_placement hs (by rw [hlate]; decide)
  rw [effectiveSeqno_of_originalFormat ha] at hlate
  have hcontent := storePacket_content decode timeNow ha hs (by rw [hlate]; decide) (bufidx q)
  have hplaced : (placePacket timeNow a.actualTimestamp a.seqno conn).audioBuffer =
      conn.audioBuffer := by
    unfold placePacket
    rw [hlate]
  rw [hplaced] at hcontent
  by_cases hslot : bufidx q = bufidx a.seqno
  · rw [if_pos hslot, if_pos (hgood.resolve_right (not_not.mpr hslot))] at hcontent
    exact ready_of_content hcontent
  · rw [if_neg hslot] at hcontent
    exact ready_of_content (hcontent.trans (content_of_ready hready))

/-- A packet that extends the window leaves the slots before the position ready: the position was
in the window before, or at its end. -/
theorem storePacket_ready_of_extends {fpm : Int} (hs : conn.abSynced = true)
    (hfits : conn.toAudioRing.Fits)
    (hcut : Shortcut conn.toAudioRing (BitVec.ofInt 16 fpm)) (hroom : RoomFor a conn)
    (hext : Extends conn.toAudioRing (effectiveSeqno a conn))
    (hin : Between conn.abRead (effectiveSeqno a conn + 1) (BitVec.ofInt 16 fpm)) {q : SeqT}
    (hq : Between conn.abRead (BitVec.ofInt 16 fpm) q) :
    ((storePacket decode timeNow a conn).1.entry q).ready = true := by
  have hlen := hfits.distance_le hs
  have hframes : bufferFrames < 2 ^ 14 := by decide
  have hroom' := hroom
  unfold RoomFor at hroom'
  rw [syncToPacket_of_synced a hs] at hroom'
  have hlt := hroom' hext
  dsimp only at hlt
  rw [Between, distance_add_one_of_lt (by omega)] at hin
  have hbefore : distance conn.abRead (BitVec.ofInt 16 fpm) ≤
      distance conn.abRead conn.abWrite := by
    by_contra hbeyond
    have hadd := distance_add_of_le (Nat.le_of_not_le hbeyond)
    have hnear := hcut.near
    have hne : BitVec.ofInt 16 fpm ≠ conn.abWrite := fun he => hbeyond (he ▸ le_rfl)
    have hswap := distance_add_swap hne
    omega
  rw [storePacket_entry_of_between decode timeNow a hs hfits hroom hext
    (lt_of_lt_of_le hq hbefore)]
  exact hcut.ready hbefore q hq

/-- A packet in the window or before it leaves the slots before the position ready, unless it
clears one. -/
theorem storePacket_ready_of_not_extends {fpm : Int} (hs : conn.abSynced = true)
    (hfits : conn.toAudioRing.Fits)
    (hcut : Shortcut conn.toAudioRing (BitVec.ofInt 16 fpm))
    (hclear : ¬ ClearsEarlier decode a conn fpm)
    (hext : ¬ Extends conn.toAudioRing (effectiveSeqno a conn))
    (hin : Between conn.abRead conn.abWrite (BitVec.ofInt 16 fpm)) {q : SeqT}
    (hq : Between conn.abRead (BitVec.ofInt 16 fpm) q) :
    ((storePacket decode timeNow a conn).1.entry q).ready = true := by
  have hlen := hfits.distance_le hs
  have hready := hcut.ready hin.le q hq
  cases hplace : placement conn.toAudioRing (effectiveSeqno a conn) with
  | expected => exact absurd (Or.inl hplace) hext
  | newer => exact absurd (Or.inr hplace) hext
  | tooLate =>
      have ha := originalFormat_of_placement hs (by rw [hplace]; decide)
      rw [effectiveSeqno_of_originalFormat ha] at hplace
      unfold AudioRing.entry
      rw [storePacket_audioBuffer_of_tooLate ha hs hplace]
      exact hready
  | late =>
      have ha := originalFormat_of_placement hs (by rw [hplace]; decide)
      refine storePacket_ready_of_late hs hplace hready ?_
      rw [effectiveSeqno_of_originalFormat ha] at hplace
      by_contra hbad
      rw [not_or, not_not] at hbad
      have hseqno : q = a.seqno := slot_injective_on bufferFrames_dvd
        (lt_of_lt_of_le (lt_trans hq hin) hlen)
        (lt_of_lt_of_le (between_of_placement_late hplace) hlen) hbad.2
      exact hclear ⟨hs, ha, hbad.1, hplace, hin, hseqno ▸ hq⟩

/-- When a packet has been stored, every number of the window before the start of the scan is
ready. -/
theorem storePacket_ready_before {fpm : Int} (hfits : conn.toAudioRing.Fits)
    (hshort : conn.abSynced = true → Shortcut conn.toAudioRing (BitVec.ofInt 16 fpm))
    (hroom : RoomFor a conn) (hclear : ¬ ClearsEarlier decode a conn fpm) {q : SeqT}
    (hq : Between (storePacket decode timeNow a conn).1.abRead
      (resendScanStart fpm (storePacket decode timeNow a conn).1.toAudioRing) q) :
    ((storePacket decode timeNow a conn).1.entry q).ready = true := by
  obtain ⟨hread, hwrite⟩ := storePacket_window decode timeNow a conn
  rcases resendScanStart_cases fpm (storePacket decode timeNow a conn).1.toAudioRing with
    hstart | ⟨hstart, hin⟩
  · rw [hstart] at hq
    exact absurd hq (not_between_self _ _)
  rw [hstart] at hq
  rw [hread] at hq hin
  rw [hwrite] at hin
  cases hs : conn.abSynced with
  | false =>
      -- the window is the packet's own number
      have hsync : (syncToPacket a conn).1.abRead = a.seqno ∧
          (syncToPacket a conn).1.abWrite = a.seqno ∧ effectiveSeqno a conn = a.seqno := by
        unfold syncToPacket effectiveSeqno
        rw [hs]
        exact ⟨rfl, rfl, rfl⟩
      have hext : Extends (syncToPacket a conn).1.toAudioRing (effectiveSeqno a conn) := by
        refine Or.inl ?_
        rw [hsync.2.2, placement, if_pos hsync.2.1]
      rw [if_pos hext, hsync.1, hsync.2.2] at hin
      rw [hsync.1] at hq
      unfold Between at hq hin
      rw [distance_add_one_of_lt (by rw [distance_self]; decide), distance_self] at hin
      omega
  | true =>
      rw [syncToPacket_of_synced a hs] at hq hin
      dsimp only at hq hin
      by_cases hext : Extends conn.toAudioRing (effectiveSeqno a conn)
      · rw [if_pos hext] at hin
        exact storePacket_ready_of_extends hs hfits (hshort hs) hroom hext hin hq
      · rw [if_neg hext] at hin
        exact storePacket_ready_of_not_extends hs hfits (hshort hs) hclear hext hin hq

end Store

/-! ## Runs -/

/-- What keeps the position right from one step to the next. -/
structure ScanInvariant (s : System) : Prop where
  fits : s.conn.toAudioRing.Fits
  shortcut : s.conn.abSynced = true →
    Shortcut s.conn.toAudioRing (BitVec.ofInt 16 s.firstPossiblyMissingFrame)
  resending : ∀ thread scan, s.resending thread = some scan →
    0 ≤ s.firstPossiblyMissingFrame ∧ 0 < scan.numberOfMissingFrames

/-- The step does not overrun the ring, does not meet an entry of another lap of it, and is not a
bad packet for a number of the window before the position. -/
def ScanStartSafe (decode : PacketDecoder) (s : System) : Label → Prop
  | .put _ _ a => s.conn.connectionStateToOutput ≠ 0 →
      RoomFor a s.conn ∧ ¬ ClearsEarlier decode a s.conn s.firstPossiblyMissingFrame
  | .get _ => NoAlias s.conn.toAudioRing
  | _ => True

instance (decode : PacketDecoder) (s : System) : ∀ l, Decidable (ScanStartSafe decode s l)
  | .put _ _ a => inferInstanceAs (Decidable (s.conn.connectionStateToOutput ≠ 0 →
      RoomFor a s.conn ∧ ¬ ClearsEarlier decode a s.conn s.firstPossiblyMissingFrame))
  | .get _ => inferInstanceAs (Decidable (NoAlias s.conn.toAudioRing))
  | .resent _ => isTrue trivial
  | .finish _ => isTrue trivial
  | .resync _ => isTrue trivial
  | .flush _ => isTrue trivial

/-- If the step makes the resend checks, every number of the window before the start of the scan is
ready, and the scan asks for what a scan from `abRead` would ask for, and leaves what it would
leave. -/
def ScanExact (cfg : Config) (decode : PacketDecoder) (s : System) : Label → Prop
  | .put _ timeNow a =>
      let stored := (playerPutPacketStore decode timeNow a s.conn).1
      stored.connectionStateToOutput ≠ 0 →
        (∀ q, Between stored.abRead
            (resendScanStart s.firstPossiblyMissingFrame stored.toAudioRing) q →
          (stored.entry q).ready = true) ∧
        startResendScan cfg timeNow s.firstPossiblyMissingFrame stored =
          resendScan cfg (distance stored.abRead stored.abWrite) ⟨stored, -1⟩
            ⟨timeNow, stored.abRead, none, 0, 0⟩
  | _ => True

section Steps

variable {cfg : Config} {decode : PacketDecoder} {s t : System}

/-- The scan from a later start finds what the scan from `abRead` finds. -/
theorem startResendScan_eq_of_ready (cfg : Config) (timeNow : Nanoseconds) (fpm : Int)
    (conn : ConnInfo) (hready : ∀ q, Between conn.abRead (resendScanStart fpm conn.toAudioRing) q →
      (conn.entry q).ready = true) :
    startResendScan cfg timeNow fpm conn =
      resendScan cfg (distance conn.abRead conn.abWrite) ⟨conn, -1⟩
        ⟨timeNow, conn.abRead, none, 0, 0⟩ := by
  have hsum := distance_resendScanStart fpm conn.toAudioRing
  rw [← hsum, resendScan_skip _ _ _ _ (forall_lt_distance_iff.mpr hready) rfl]
  dsimp only
  rw [add_ofNat_distance]
  rfl

theorem clearsEarlier_counted_iff (decode : PacketDecoder) (timeNow : Nanoseconds) (a : PutArgs)
    (conn : ConnInfo) (fpm : Int) :
    ClearsEarlier decode a (countPacket timeNow (ignoreEarlyFlush conn)) fpm ↔
      ClearsEarlier decode a conn fpm := by
  unfold ClearsEarlier
  rw [decodes_counted_iff, countPacket_ignoreEarlyFlush_toAudioRing]

/-- When the resend checks start, every number before the start of the scan is ready. -/
theorem ScanInvariant.ready_before (h : ScanInvariant s) {thread : ℕ} (timeNow : Nanoseconds)
    {a : PutArgs} (hsafe : ScanStartSafe decode s (.put thread timeNow a))
    (houtput : s.conn.connectionStateToOutput ≠ 0) {q : SeqT}
    (hq : Between (playerPutPacketStore decode timeNow a s.conn).1.abRead
      (resendScanStart s.firstPossiblyMissingFrame
        (playerPutPacketStore decode timeNow a s.conn).1.toAudioRing) q) :
    ((playerPutPacketStore decode timeNow a s.conn).1.entry q).ready = true := by
  obtain ⟨hroom, hclear⟩ := hsafe houtput
  have hring := countPacket_ignoreEarlyFlush_toAudioRing timeNow s.conn
  have hfits := h.fits
  have hshort := h.shortcut
  rw [playerPutPacketStore_of_output houtput] at hq ⊢
  rw [← clearsEarlier_counted_iff decode timeNow] at hclear
  generalize countPacket timeNow (ignoreEarlyFlush s.conn) = counted at hring hq hclear ⊢
  rw [← roomFor_congr hring] at hroom
  rw [← hring] at hfits hshort
  exact storePacket_ready_before hfits hshort hroom hclear hq

theorem playerPutPacketStore_connectionStateToOutput (decode : PacketDecoder)
    (timeNow : Nanoseconds) (a : PutArgs) (conn : ConnInfo) :
    (playerPutPacketStore decode timeNow a conn).1.connectionStateToOutput =
      conn.connectionStateToOutput := by
  have hcounted := countPacket_ignoreEarlyFlush_connectionStateToOutput timeNow conn
  unfold playerPutPacketStore
  dsimp only
  split_ifs
  · exact hcounted
  · obtain ⟨slots, hstored⟩ := storePacket_eq decode timeNow a
      (countPacket timeNow (ignoreEarlyFlush conn))
    rw [hstored, ← hcounted]
    unfold placePacket measureInputFrameRate syncToPacket
    dsimp only
    split <;> split_ifs <;> rfl

theorem ScanInvariant.scanExact (h : ScanInvariant s) {l : Label}
    (hsafe : ScanStartSafe decode s l) : ScanExact cfg decode s l := by
  cases l with
  | put thread timeNow a =>
      intro houtput
      rw [playerPutPacketStore_connectionStateToOutput] at houtput
      have hready (q : SeqT) := h.ready_before timeNow hsafe houtput (q := q)
      exact ⟨hready, startResendScan_eq_of_ready cfg timeNow _ _ hready⟩
  | _ => exact trivial

theorem afterScan_position (s : System) (thread : ℕ) (outcome : ResendOutcome) :
    (s.afterScan thread outcome).firstPossiblyMissingFrame =
      outcome.state.firstPossiblyMissingFrame := by
  cases outcome <;> rfl

theorem afterScan_resending {thread thread' : ℕ} {outcome : ResendOutcome} {scan : ResendScan}
    (hseen : outcome.Seen) (hscan : (s.afterScan thread outcome).resending thread' = some scan) :
    s.resending thread' = some scan ∨ 0 < scan.numberOfMissingFrames := by
  cases outcome with
  | finished st =>
      simp only [System.afterScan] at hscan
      by_cases hthread : thread' = thread
      · rw [hthread, Function.update_self] at hscan
        exact absurd hscan.symm (Option.some_ne_none scan)
      · rw [Function.update_of_ne hthread] at hscan
        exact Or.inl hscan
  | requesting first count st scan' =>
      simp only [System.afterScan] at hscan
      by_cases hthread : thread' = thread
      · rw [hthread, Function.update_self] at hscan
        exact Or.inr (Option.some.inj hscan ▸ hseen)
      · rw [Function.update_of_ne hthread] at hscan
        exact Or.inl hscan

/-- The position a scan from `x` leaves is a shortcut to what the scan has found. -/
theorem shortcut_of_position {ring : AudioRing} {x : SeqT} {k : ℕ}
    (hlen : distance ring.abRead ring.abWrite ≤ bufferFrames)
    (hx : distance ring.abRead x + distance x ring.abWrite = distance ring.abRead ring.abWrite)
    (hbefore : ∀ q, Between ring.abRead x q → (ring.entry q).ready = true)
    (hk : k ≤ distance x ring.abWrite)
    (hready : ∀ i < k, (ring.entry (x + BitVec.ofNat 16 i)).ready = true) :
    Shortcut ring (x + BitVec.ofNat 16 k) := by
  have hround := distance_lt ring.abRead ring.abWrite
  have hdist : distance x (x + BitVec.ofNat 16 k) = k := distance_add_ofNat x (by omega)
  have hrest := distance_add_of_le (hdist.symm ▸ hk)
  refine ⟨by omega, fun _ q hq => ?_⟩
  rcases (between_append (t := x) (by omega)).mp hq with hq | hq
  · exact hbefore q hq
  · exact (forall_lt_distance_iff (p := fun q => (ring.entry q).ready = true)).mp
      (by rwa [hdist]) q hq

/-- Only numbers at the start of the window are taken. -/
theorem ScanInvariant.of_advances (h : ScanInvariant s)
    (hadvances : Advances s.conn.toAudioRing t.conn.toAudioRing)
    (hposition : t.firstPossiblyMissingFrame = s.firstPossiblyMissingFrame)
    (hresending : t.resending = s.resending) : ScanInvariant t where
  fits := hadvances.fits h.fits
  shortcut hs := by
    rw [hposition]
    exact (h.shortcut (hadvances hs).synced).advance (hadvances hs)
  resending := by
    rw [hposition, hresending]
    exact h.resending

theorem ScanInvariant.put (h : ScanInvariant s) {thread : ℕ} {timeNow : Nanoseconds} {a : PutArgs}
    (hsafe : ScanStartSafe decode s (.put thread timeNow a)) :
    ScanInvariant (s.put cfg decode thread timeNow a) := by
  have hstate := playerPutPacketStore_connectionStateToOutput decode timeNow a s.conn
  have hframe := put_resendFrame cfg decode s thread timeNow a
  by_cases houtput : s.conn.connectionStateToOutput = 0
  · have hring : (s.put cfg decode thread timeNow a).conn.toAudioRing = s.conn.toAudioRing := by
      unfold System.put
      dsimp only
      rw [if_pos (hstate.trans houtput)]
      exact playerPutPacketStore_toAudioRing_of_output_off houtput
    refine h.of_advances (.of_eq hring) ?_ ?_
    all_goals
      unfold System.put
      dsimp only
      rw [if_pos (hstate.trans houtput)]
  · have hfits : (playerPutPacketStore decode timeNow a s.conn).1.toAudioRing.Fits :=
      playerPutPacketStore_fits timeNow a h.fits fun houtput => (hsafe houtput).1
    have hbefore (q : SeqT) := h.ready_before timeNow hsafe houtput (q := q)
    have hsynced : (playerPutPacketStore decode timeNow a s.conn).1.abSynced = true := by
      rw [playerPutPacketStore_of_output houtput]
      exact storePacket_abSynced _
    obtain ⟨⟨k, hk, hposition, hready⟩, hseen⟩ := resendScan_position cfg _
      ⟨(playerPutPacketStore decode timeNow a s.conn).1, -1⟩
      ⟨timeNow, resendScanStart s.firstPossiblyMissingFrame
        (playerPutPacketStore decode timeNow a s.conn).1.toAudioRing, none, 0, 0⟩
      rfl (show (-1 : Int) < 0 by decide) rfl rfl
    have hcut := shortcut_of_position (hfits.distance_le hsynced)
      (distance_resendScanStart _ _) hbefore hk hready
    have hfirst : (s.put cfg decode thread timeNow a).firstPossiblyMissingFrame =
        (resendScanStart s.firstPossiblyMissingFrame
          (playerPutPacketStore decode timeNow a s.conn).1.toAudioRing +
            BitVec.ofNat 16 k).toNat := by
      unfold System.put
      dsimp only
      rw [if_neg (by rwa [hstate]), afterScan_position]
      exact hposition
    refine ⟨hframe.fits_iff.mpr hfits, fun _ => ?_, fun thread' scan hscan => ⟨?_, ?_⟩⟩
    · rw [hfirst, BitVec.ofInt_natCast, BitVec.ofNat_toNat, BitVec.setWidth_eq]
      exact hcut.of_resendFrame hframe
    · rw [hfirst]
      exact Int.natCast_nonneg _
    · unfold System.put at hscan
      dsimp only at hscan
      rw [if_neg (by rwa [hstate])] at hscan
      exact (afterScan_resending hseen hscan).elim (fun hold => (h.resending _ _ hold).2) id

theorem ScanInvariant.resent (h : ScanInvariant s) {thread : ℕ} {scan : ResendScan}
    (hscan : s.resending thread = some scan) : ScanInvariant (s.resent cfg thread scan) := by
  have hframe := resent_resendFrame cfg s thread scan
  obtain ⟨hfirst, hpos⟩ := h.resending thread scan hscan
  obtain ⟨hposition, hseen⟩ : (continueResendScan cfg scan
        ⟨s.conn, s.firstPossiblyMissingFrame⟩).state.firstPossiblyMissingFrame =
          s.firstPossiblyMissingFrame ∧
      (continueResendScan cfg scan ⟨s.conn, s.firstPossiblyMissingFrame⟩).Seen :=
    resendScan_keeps_position _ _ _ hfirst hpos
  have hsame : (s.resent cfg thread scan).firstPossiblyMissingFrame =
      s.firstPossiblyMissingFrame := (afterScan_position _ _ _).trans hposition
  refine ⟨hframe.fits_iff.mpr h.fits, fun hs => ?_, fun thread' scan' hscan' => ⟨?_, ?_⟩⟩
  · rw [hsame]
    exact (h.shortcut (by rwa [hframe.rest] at hs)).of_resendFrame hframe
  · rwa [hsame]
  · exact (afterScan_resending hseen hscan').elim (fun hold => (h.resending _ _ hold).2) id

theorem finish_ready (ring : AudioRing) (frame : Fin bufferFrames) (q : SeqT) :
    (Function.update ring.audioBuffer frame (ring.audioBuffer frame).finish (bufidx q)).ready =
      (ring.entry q).ready := by
  by_cases hslot : bufidx q = frame
  · rw [← hslot, Function.update_self]
    rfl
  · rw [Function.update_of_ne hslot]
    rfl

theorem ScanInvariant.step {l : Label} (h : ScanInvariant s) (hsafe : ScanStartSafe decode s l)
    (hstep : step cfg decode s l = some t) : ScanInvariant t := by
  cases l with
  | put thread timeNow a =>
      obtain ⟨-, rfl⟩ := step_put_eq_some_iff.mp hstep
      exact h.put hsafe
  | resent thread =>
      obtain ⟨scan, hscan, rfl⟩ := step_resent_eq_some_iff.mp hstep
      exact h.resent hscan
  | get rd =>
      obtain ⟨loop, -, rfl⟩ := step_get_eq_some_iff.mp hstep
      obtain ⟨hwait, hout⟩ := bufferGetFrameIteration_advances cfg rd loop h.fits hsafe
      unfold System.get
      dsimp only
      split
      · exact h.of_advances hwait rfl rfl
      · rename_i hstop
        exact h.of_advances (hout (Bool.eq_false_iff.mpr hstop)) rfl rfl
  | finish played =>
      obtain ⟨frame, -, rfl⟩ := step_finish_eq_some_iff.mp hstep
      cases played with
      | false => exact ⟨h.fits, h.shortcut, h.resending⟩
      | true =>
          refine ⟨h.fits, fun hs => (h.shortcut hs).congr rfl rfl fun q => ?_, h.resending⟩
          exact finish_ready s.conn.toAudioRing frame q
  | resync linkResumed =>
      obtain rfl := Option.some.inj hstep
      refine h.of_advances (.of_not_synced ?_) rfl rfl
      cases linkResumed <;> rfl
  | flush timestamp =>
      obtain rfl := Option.some.inj hstep
      exact h.of_advances (.of_eq rfl) rfl rfl

end Steps

/-- In every run whose steps meet the condition, every resend check finds what a scan of the whole
window would find. -/
theorem first_possibly_missing_frame_exact (cfg : Config) (decode : PacketDecoder)
    (conn : ConnInfo) (firstPossiblyMissingFrame : Int) (labels : List Label)
    (hsafe : Along (step cfg decode) (ScanStartSafe decode)
      (System.start conn firstPossiblyMissingFrame) labels) :
    Along (step cfg decode) (ScanExact cfg decode)
      (System.start conn firstPossiblyMissingFrame) labels := by
  refine along_of_step (I := ScanInvariant) (fun s l t h hsafe hstep => h.step hsafe hstep)
    (fun s l h hsafe => h.scanExact hsafe) ?_ hsafe
  exact ⟨fun hs => absurd hs Bool.false_ne_true, fun hs => absurd hs Bool.false_ne_true,
    fun thread scan hscan => absurd hscan.symm (Option.some_ne_none scan)⟩

def oneGap : List Label :=
  [.put 0 10000000000 (.original 0 1000 [1, 2, 3, 4]),
    .put 0 10000000001 (.original 1 1001 [1, 2, 3, 4]),
    .put 0 10000000002 (.original 2 1002 [1, 2, 3, 4]),
    .put 0 10000000003 (.original 4 1004 [1, 2, 3, 4])]

/-- The number 3 comes late. -/
theorem first_possibly_missing_frame_exact_of_gap :
    Along (step .playOnly .pcm) (ScanExact .playOnly .pcm) (System.start .fresh (-1))
      (oneGap ++ [.put 0 10000000004 (.original 3 1003 [1, 2, 3, 4])]) :=
  first_possibly_missing_frame_exact .playOnly .pcm .fresh (-1) _ (by decide +kernel)

/-- A bad packet for the number 1 makes that one missing, and the scan starts at the number 3. -/
theorem first_possibly_missing_frame_inexact :
    ¬ ∀ (cfg : Config) (decode : PacketDecoder) (conn : ConnInfo)
      (firstPossiblyMissingFrame : Int) (labels : List Label),
      Along (step cfg decode) (ScanExact cfg decode)
        (System.start conn firstPossiblyMissingFrame) labels := by
  intro h
  have hexact := h .playOnly .pcm .fresh (-1)
    (oneGap ++ [.put 0 10000000004 (.original 1 1001 (List.replicate 2052 0))])
  obtain ⟨t, hrun⟩ := Option.isSome_iff_exists.mp
    (show (run (step .playOnly .pcm) (System.start .fresh (-1)) oneGap).isSome by
      decide +kernel)
  have hmissing : ∀ t ∈ run (step .playOnly .pcm) (System.start .fresh (-1)) oneGap,
      (step .playOnly .pcm t
          (.put 0 10000000004 (.original 1 1001 (List.replicate 2052 0)))).isSome ∧
        let stored := (playerPutPacketStore .pcm 10000000004
          (.original 1 1001 (List.replicate 2052 0)) t.conn).1
        stored.connectionStateToOutput ≠ 0 ∧
          Between stored.abRead
            (resendScanStart t.firstPossiblyMissingFrame stored.toAudioRing) 1 ∧
          (stored.entry 1).ready = false := by
    decide +kernel
  obtain ⟨henabled, houtput, hbefore, hready⟩ := hmissing t hrun
  obtain ⟨u, hu⟩ := Option.isSome_iff_exists.mp henabled
  have hfound := ((hexact.of_run hrun hu) houtput).1 1 hbefore
  exact Bool.false_ne_true (hready.symm.trans hfound)

end Player

end ShairportSync
