import ShairportSync.Rtp.Decipher
import ShairportSync.Scan.Runs

/-!
# The ranges a resend check asks for

With nothing between its requests, the scan of `player_put_packet` is one walk over the window.
Each frame it comes to is ready, or it is missing and is asked for, or it is missing and left for
later. A run of frames to ask for is ended by a ready one and by the end of the window, but not by
a frame that is left for later, so the ranges are those of `Scan.reports`. They match the frames
that are marked as requested if and only if no run has such a frame between two requested ones.
-/

namespace ShairportSync

namespace Player

open SerialNumber Scan

/-- The ranges that are passed to `rtp_request_resend` when no other thread acts in between. -/
def requests (cfg : Config) : ℕ → ResendOutcome → List (SeqT × ℕ)
  | 0, _ => []
  | _ + 1, .finished _ => []
  | n + 1, .requesting first count st scan =>
      (first, count) :: requests cfg n (continueResendScan cfg scan st)

def playerPutPacketRequests (cfg : Config) (decode : PacketDecoder) (timeNow : Nanoseconds)
    (a : PutArgs) (st : ResendState) : List (SeqT × ℕ) :=
  let stored := (playerPutPacketStore decode timeNow a st.conn).1
  if stored.connectionStateToOutput = 0 then []
  else
    requests cfg (2 ^ 16)
      (startResendScan cfg timeNow st.firstPossiblyMissingFrame stored)

/-! ## The frames the scan comes to -/

/-- A frame the scan comes to, with its entry before and after the check. -/
structure Visit where
  seqno : SeqT
  before : AudioBufferEntry
  after : AudioBufferEntry

section Visits

variable (cfg : Config) (conn : ConnInfo) (timeNow : Nanoseconds)

/-- The entries after the check of the number `x`, for the latency of this connection. -/
def checkSlot (x : SeqT) (slots : Fin bufferFrames → AudioBufferEntry) :
    Fin bufferFrames → AudioBufferEntry :=
  if (slots (bufidx x)).ready then slots
  else
    Function.update slots (bufidx x) ((slots (bufidx x)).checkResend cfg conn timeNow)

/-- The frames of a scan of `n` numbers from `x` on. -/
def visits : ℕ → (Fin bufferFrames → AudioBufferEntry) → SeqT → List Visit
  | 0, _, _ => []
  | n + 1, slots, x =>
      ⟨x, slots (bufidx x), checkSlot cfg conn timeNow x slots (bufidx x)⟩ ::
        visits n (checkSlot cfg conn timeNow x slots) (x + 1)

def scannedSlots : ℕ → (Fin bufferFrames → AudioBufferEntry) → SeqT →
    Fin bufferFrames → AudioBufferEntry
  | 0, slots, _ => slots
  | n + 1, slots, x => scannedSlots n (checkSlot cfg conn timeNow x slots) (x + 1)

/-- What the frame is to the scan. -/
def Visit.mark (v : Visit) : Mark :=
  if v.before.ready then .closed
  else if resendEligible cfg conn timeNow v.before then .marked
  else .waiting

end Visits

/-- A missing frame whose resend time is set to now and whose request number is incremented. -/
def Visit.Requested (timeNow : Nanoseconds) (v : Visit) : Prop :=
  v.before.ready = false ∧ v.after.resendTime = timeNow ∧
    v.after.resendRequestNumber = v.before.resendRequestNumber + 1

instance (timeNow : Nanoseconds) (v : Visit) : Decidable (v.Requested timeNow) :=
  inferInstanceAs (Decidable (_ ∧ _))

/-- The frames a call of `player_put_packet` comes to. -/
def playerPutPacketVisits (cfg : Config) (decode : PacketDecoder) (timeNow : Nanoseconds)
    (a : PutArgs) (st : ResendState) : List Visit :=
  let stored := (playerPutPacketStore decode timeNow a st.conn).1
  if stored.connectionStateToOutput = 0 then []
  else
    let x := resendScanStart st.firstPossiblyMissingFrame stored.toAudioRing
    visits cfg stored timeNow (distance x stored.abWrite) stored.audioBuffer x

section Walk

variable {cfg : Config} {conn : ConnInfo} {timeNow : Nanoseconds}
  {slots : Fin bufferFrames → AudioBufferEntry}

@[simp] theorem length_visits (n : ℕ) (slots : Fin bufferFrames → AudioBufferEntry) (x : SeqT) :
    (visits cfg conn timeNow n slots x).length = n := by
  induction n generalizing slots x with
  | zero => rfl
  | succ n ih => rw [visits, List.length_cons, ih]

theorem map_seqno_visits (n : ℕ) (slots : Fin bufferFrames → AudioBufferEntry) (x : SeqT) :
    (visits cfg conn timeNow n slots x).map Visit.seqno =
      (List.range n).map fun i => x + BitVec.ofNat 16 i := by
  induction n generalizing slots x with
  | zero => rfl
  | succ n ih =>
      rw [visits, List.map_cons, ih, List.range_succ_eq_map, List.map_cons, List.map_map,
        BitVec.add_zero]
      refine congrArg (x :: ·) (List.map_congr_left fun i _ => ?_)
      exact add_one_add_ofNat x i

theorem checkSlot_bufidx (x : SeqT) (slots : Fin bufferFrames → AudioBufferEntry) :
    checkSlot cfg conn timeNow x slots (bufidx x) =
      if (slots (bufidx x)).ready then slots (bufidx x)
      else (slots (bufidx x)).checkResend cfg conn timeNow := by
  unfold checkSlot
  split_ifs
  · rfl
  · rw [Function.update_self]

theorem after_of_mem_visits {n : ℕ} {x : SeqT} {v : Visit}
    (hv : v ∈ visits cfg conn timeNow n slots x) :
    v.after = if v.before.ready then v.before else v.before.checkResend cfg conn timeNow := by
  induction n generalizing slots x with
  | zero => exact absurd hv List.not_mem_nil
  | succ n ih =>
      rcases List.mem_cons.mp hv with rfl | hv
      · exact checkSlot_bufidx x slots
      · exact ih hv

theorem mark_eq_marked_iff {n : ℕ} {x : SeqT} {v : Visit}
    (hv : v ∈ visits cfg conn timeNow n slots x) :
    v.mark cfg conn timeNow = .marked ↔ v.Requested timeNow := by
  have hafter := after_of_mem_visits hv
  unfold Visit.mark Visit.Requested
  rw [hafter]
  cases hready : v.before.ready with
  | true => simp
  | false =>
      simp only [Bool.false_eq_true, if_false, true_and]
      unfold AudioBufferEntry.checkResend
      cases heligible : resendEligible cfg conn timeNow v.before with
      | true => simp
      | false => simp

/-- The check of one entry, on the entries alone. -/
theorem checkEntry_audioBuffer (cfg : Config) (scan : ResendScan) {st : ResendState}
    (hframe : ResendFrame conn st.conn) :
    (checkEntry cfg st scan).1.conn.audioBuffer =
      checkSlot cfg conn scan.timeNow scan.x st.conn.audioBuffer := by
  have hcheck : (st.conn.entry scan.x).checkResend cfg st.conn scan.timeNow =
      (st.conn.entry scan.x).checkResend cfg conn scan.timeNow := by
    rw [hframe.rest]
    rfl
  unfold checkEntry checkSlot
  dsimp only
  by_cases hready : (st.conn.entry scan.x).ready = true
  · rw [if_pos hready, if_pos (show (st.conn.audioBuffer (bufidx scan.x)).ready = true from hready)]
  · rw [if_neg hready,
      if_neg (show ¬ (st.conn.audioBuffer (bufidx scan.x)).ready = true from hready), hcheck]
    rfl

/-- What the check of an entry does to the run, with the positions counted from `x`. -/
theorem checkEntry_run (cfg : Config) {x : SeqT} {pos start : ℕ} {st : ResendState}
    {scan : ResendScan} {v : Visit} (hframe : ResendFrame conn st.conn)
    (hx : scan.x = x + BitVec.ofNat 16 pos) (hv : v.before = st.conn.entry scan.x)
    (hstart : scan.startOfMissingFrameRun =
      if scan.missingFrameRunCount = 0 then none else some (x + BitVec.ofNat 16 start)) :
    let mark := v.mark cfg conn scan.timeNow
    let start' := if mark = .marked ∧ scan.missingFrameRunCount = 0 then pos else start
    let count' :=
      if mark = .marked then scan.missingFrameRunCount + 1 else scan.missingFrameRunCount
    (checkEntry cfg st scan).2.missingFrameRunCount = count' ∧
      (checkEntry cfg st scan).2.startOfMissingFrameRun =
        if count' = 0 then none else some (x + BitVec.ofNat 16 start') := by
  have heligible : resendEligible cfg st.conn scan.timeNow (st.conn.entry scan.x) =
      resendEligible cfg conn scan.timeNow (st.conn.entry scan.x) := by
    rw [hframe.rest]
    rfl
  unfold checkEntry Visit.mark
  dsimp only
  rw [heligible, hv]
  cases (st.conn.entry scan.x).ready with
  | true => simpa using hstart
  | false =>
      cases resendEligible cfg conn scan.timeNow (st.conn.entry scan.x) with
      | true =>
          by_cases hcount : scan.missingFrameRunCount = 0
          · simp [hstart, hcount, hx]
          · simp [hstart, hcount]
      | false => simpa using hstart

theorem checkEntry_timeNow (cfg : Config) (st : ResendState) (scan : ResendScan) :
    (checkEntry cfg st scan).2.timeNow = scan.timeNow := by
  unfold checkEntry
  dsimp only
  split <;> rfl

theorem mark_eq_closed_iff {v : Visit} :
    v.mark cfg conn timeNow = .closed ↔ v.before.ready = true := by
  unfold Visit.mark
  cases v.before.ready with
  | true => simp
  | false => cases resendEligible cfg conn timeNow v.before <;> simp

/-- The range of the positions of a scan from `x` on. -/
def rangeAt (x : SeqT) (r : ℕ × ℕ) : SeqT × ℕ := (x + BitVec.ofNat 16 r.1, r.2)

/-- One turn of the loop, when requests are enabled. -/
theorem resendScan_succ (henabled : cfg.disableResendRequests = false) (n : ℕ) (st : ResendState)
    (scan : ResendScan) :
    resendScan cfg (n + 1) st scan =
      let checked := checkEntry cfg st scan
      if ((st.conn.entry scan.x).ready = true ∨ scan.x + 1 = st.conn.abWrite) ∧
          0 < checked.2.missingFrameRunCount then
        .requesting (checked.2.startOfMissingFrameRun.getD 0) checked.2.missingFrameRunCount
          checked.1
          { checked.2 with
            x := scan.x + 1
            startOfMissingFrameRun := none
            missingFrameRunCount := 0 }
      else resendScan cfg n checked.1 { checked.2 with x := scan.x + 1 } := by
  conv_lhs => unfold resendScan
  simp only [checkEntry_x, checkEntry_abWrite, henabled, Bool.and_eq_true, Bool.or_eq_true,
    decide_eq_true_eq, Bool.false_eq_true, if_false]

/-- What the scan asks for, and the entries it leaves, when it has `n` numbers left and the run so
far has its first mark at the position `start`. -/
theorem requests_resendScan (henabled : cfg.disableResendRequests = false) (x : SeqT)
    (n m pos start : ℕ) (st : ResendState) (scan : ResendScan) (hframe : ResendFrame conn st.conn)
    (hx : scan.x = x + BitVec.ofNat 16 pos) (hn : distance scan.x st.conn.abWrite = n)
    (hm : n ≤ m) (hlast : 0 < scan.missingFrameRunCount → 0 < n)
    (hstart : scan.startOfMissingFrameRun =
      if scan.missingFrameRunCount = 0 then none else some (x + BitVec.ofNat 16 start)) :
    requests cfg m (resendScan cfg n st scan) =
        (reports pos start scan.missingFrameRunCount
          ((visits cfg conn scan.timeNow n st.conn.audioBuffer scan.x).map
            (Visit.mark cfg conn scan.timeNow))).map (rangeAt x) ∧
      (sendRequests cfg m (resendScan cfg n st scan)).conn.audioBuffer =
        scannedSlots cfg conn scan.timeNow n st.conn.audioBuffer scan.x := by
  induction n generalizing m pos start st scan with
  | zero =>
      have hcount : ¬ 0 < scan.missingFrameRunCount := fun h => absurd (hlast h) (Nat.lt_irrefl 0)
      rw [resendScan, visits, List.map_nil, reports, if_neg hcount, scannedSlots]
      cases m <;> exact ⟨rfl, rfl⟩
  | succ n ih =>
      have hne : st.conn.abWrite ≠ scan.x := distance_pos_iff.mp (hn ▸ Nat.succ_pos n)
      have hrest : distance (scan.x + 1) st.conn.abWrite = n :=
        Nat.succ_injective ((distance_add_one_left hne).trans hn)
      have hend : scan.x + 1 = st.conn.abWrite ↔ n = 0 := by
        rw [← hrest, distance_eq_zero_iff, eq_comm]
      have hnext : scan.x + 1 = x + BitVec.ofNat 16 (pos + 1) := by
        rw [hx, BitVec.ofNat_add, ← BitVec.add_assoc]
        rfl
      have hchecked := hframe.trans (checkEntry_frame cfg st scan)
      have hwrite : (checkEntry cfg st scan).1.conn.abWrite = st.conn.abWrite :=
        checkEntry_abWrite st scan
      have hslots := checkEntry_audioBuffer cfg scan hframe
      rw [resendScan_succ henabled, visits, List.map_cons, scannedSlots, reports_cons]
      generalize hv : (⟨scan.x, st.conn.audioBuffer (bufidx scan.x), _⟩ : Visit) = v
      have hbefore : v.before = st.conn.entry scan.x := by
        rw [← hv]
        rfl
      have hready :
          (st.conn.entry scan.x).ready = true ↔ v.mark cfg conn scan.timeNow = .closed := by
        rw [← hbefore, mark_eq_closed_iff]
      have hlist (slots : Fin bufferFrames → AudioBufferEntry) (y : SeqT) :
          (visits cfg conn scan.timeNow n slots y).map (Visit.mark cfg conn scan.timeNow) = [] ↔
            n = 0 := by
        rw [List.map_eq_nil_iff, ← List.length_eq_zero_iff, length_visits]
      obtain ⟨hcount, hrun⟩ := checkEntry_run cfg hframe hx hbefore hstart
      have htime := checkEntry_timeNow cfg st scan
      rw [← hslots]
      simp only [hready, hend, hlist, hcount]
      generalize (if v.mark cfg conn scan.timeNow = .marked then scan.missingFrameRunCount + 1
        else scan.missingFrameRunCount) = count' at hcount hrun ⊢
      generalize (if v.mark cfg conn scan.timeNow = .marked ∧ scan.missingFrameRunCount = 0 then pos
        else start) = start' at hrun ⊢
      by_cases hstop : (v.mark cfg conn scan.timeNow = .closed ∨ n = 0) ∧ 0 < count'
      · -- a request is sent for the run, and the loop goes on without one
        rw [if_pos hstop, if_pos hstop]
        obtain ⟨m, rfl⟩ := Nat.exists_eq_succ_of_ne_zero (Nat.ne_of_gt (Nat.lt_of_lt_of_le
          (Nat.succ_pos n) hm))
        have hfirst : (checkEntry cfg st scan).2.startOfMissingFrameRun.getD 0 =
            x + BitVec.ofNat 16 start' := by
          rw [hrun, if_neg hstop.2.ne', Option.getD_some]
        rw [requests, sendRequests, continueResendScan, hfirst, List.map_cons]
        dsimp only
        rw [hwrite, hrest, htime]
        have hgo := ih m (pos + 1) 0
          ⟨{ (checkEntry cfg st scan).1.conn with
            resendRequests := (checkEntry cfg st scan).1.conn.resendRequests + 1 },
            (checkEntry cfg st scan).1.firstPossiblyMissingFrame⟩
          { (checkEntry cfg st scan).2 with
            x := scan.x + 1
            startOfMissingFrameRun := none
            missingFrameRunCount := 0 }
          (hchecked.trans ⟨rfl, fun _ => rfl, fun _ => rfl⟩) hnext (hwrite ▸ hrest)
          (Nat.le_of_succ_le_succ hm) (fun h => absurd h (Nat.lt_irrefl 0)) rfl
        dsimp only at hgo
        rw [htime] at hgo
        exact ⟨congrArg _ hgo.1, hgo.2⟩
      · rw [if_neg hstop, if_neg hstop, htime]
        have hgo := ih m (pos + 1) start' (checkEntry cfg st scan).1
          { (checkEntry cfg st scan).2 with x := scan.x + 1 } hchecked hnext (hwrite ▸ hrest)
          (Nat.le_of_succ_le hm) (by dsimp only; omega) (by dsimp only; rw [hrun, hcount])
        dsimp only at hgo
        rwa [htime, hcount] at hgo

theorem seqno_of_getElem?_visits {n i : ℕ} {x : SeqT} {v : Visit}
    (hv : (visits cfg conn timeNow n slots x)[i]? = some v) :
    i < n ∧ v.seqno = x + BitVec.ofNat 16 i := by
  have hi : i < n := by
    have hlt := (List.getElem?_eq_some_iff.mp hv).1
    rwa [length_visits] at hlt
  have hseqnos : (visits cfg conn timeNow n slots x).map Visit.seqno =
      (List.range n).map fun i => x + BitVec.ofNat 16 i := map_seqno_visits n slots x
  have hmap := congrArg (fun l => l[i]?) hseqnos
  simp only [List.getElem?_map, hv, List.getElem?_range hi, Option.map_some,
    Option.some.injEq] at hmap
  exact ⟨hi, hmap⟩

theorem exists_of_mem_visits {n : ℕ} {x : SeqT} {v : Visit}
    (hv : v ∈ visits cfg conn timeNow n slots x) : ∃ i < n, v.seqno = x + BitVec.ofNat 16 i := by
  obtain ⟨i, hi⟩ := List.mem_iff_getElem?.mp hv
  exact ⟨i, seqno_of_getElem?_visits hi⟩

theorem bufidx_add_ofNat_ne (x : SeqT) {k : ℕ} (hpos : 0 < k) (hk : k < bufferFrames) :
    bufidx (x + BitVec.ofNat 16 k) ≠ bufidx x := by
  intro hslot
  have hk' : k < 2 ^ 16 := hk.trans (by decide)
  have hdist := distance_add_ofNat x hk'
  have hsame : x + BitVec.ofNat 16 k = x := slot_injective_on bufferFrames_dvd (r := x)
    (by rw [hdist]; exact hk) (by rw [distance_self]; decide) hslot
  rw [hsame, distance_self] at hdist
  exact hpos.ne hdist

theorem checkSlot_of_ne {x : SeqT} {i : Fin bufferFrames} (hi : i ≠ bufidx x) :
    checkSlot cfg conn timeNow x slots i = slots i := by
  unfold checkSlot
  split_ifs
  · rfl
  · rw [Function.update_of_ne hi]

theorem scannedSlots_of_forall_ne (n : ℕ) (slots : Fin bufferFrames → AudioBufferEntry) (x : SeqT)
    {i : Fin bufferFrames} (hi : ∀ k < n, bufidx (x + BitVec.ofNat 16 k) ≠ i) :
    scannedSlots cfg conn timeNow n slots x i = slots i := by
  induction n generalizing slots x with
  | zero => rfl
  | succ n ih =>
      have hfirst : i ≠ bufidx x := by
        have h0 := hi 0 (Nat.succ_pos n)
        rw [BitVec.add_zero] at h0
        exact h0.symm
      rw [scannedSlots, ih _ _ fun k hk => ?_, checkSlot_of_ne hfirst]
      have hk' := hi (k + 1) (Nat.succ_lt_succ hk)
      rwa [← add_one_add_ofNat] at hk'

/-- In a window that fits in the ring no slot is met twice: a frame is found as it was before the
scan, and is left as its check leaves it. -/
theorem visits_of_fits (n : ℕ) (slots : Fin bufferFrames → AudioBufferEntry) (x : SeqT)
    (hn : n ≤ bufferFrames) {v : Visit} (hv : v ∈ visits cfg conn timeNow n slots x) :
    v.before = slots (bufidx v.seqno) ∧
      v.after = scannedSlots cfg conn timeNow n slots x (bufidx v.seqno) := by
  induction n generalizing slots x with
  | zero => exact absurd hv List.not_mem_nil
  | succ n ih =>
      rcases List.mem_cons.mp hv with rfl | hv
      · refine ⟨rfl, (scannedSlots_of_forall_ne n _ _ fun k hk => ?_).symm⟩
        rw [add_one_add_ofNat]
        exact bufidx_add_ofNat_ne x (Nat.succ_pos k) (by omega)
      · obtain ⟨k, hk, hseqno⟩ := exists_of_mem_visits hv
        obtain ⟨hbefore, hafter⟩ := ih _ _ (Nat.le_of_succ_le hn) hv
        refine ⟨hbefore.trans (checkSlot_of_ne ?_), hafter⟩
        rw [hseqno, add_one_add_ofNat]
        exact bufidx_add_ofNat_ne x (Nat.succ_pos k) (by omega)

end Walk

/-! ## The ranges and the frames -/

def Asked (ranges : List (SeqT × ℕ)) (q : SeqT) : Prop := ∃ r ∈ ranges, distance r.1 q < r.2

instance (ranges : List (SeqT × ℕ)) (q : SeqT) : Decidable (Asked ranges q) :=
  inferInstanceAs (Decidable (∃ r ∈ ranges, _))

/-- The ranges lie behind one another in the window, together they are exactly the frames that are
requested, and each frame in them is missing and may be asked for. -/
structure RequestsMatch (cfg : Config) (conn : ConnInfo) (timeNow : Nanoseconds)
    (ranges : List (SeqT × ℕ)) (vs : List Visit) : Prop where
  ordered : ranges.Pairwise fun r r' =>
    distance conn.abRead r.1 + r.2 ≤ distance conn.abRead r'.1
  inWindow : ∀ r ∈ ranges,
    0 < r.2 ∧ distance conn.abRead r.1 + r.2 ≤ distance conn.abRead conn.abWrite
  union : ∀ q, Asked ranges q ↔ ∃ v ∈ vs, v.seqno = q ∧ v.Requested timeNow
  eligible : ∀ v ∈ vs, Asked ranges v.seqno →
    v.before.ready = false ∧ tooEarly cfg timeNow v.before = false ∧
      tooLate cfg conn timeNow v.before = false ∧
      tooSoonAfterLastRequest cfg timeNow v.before = false

section Ranges

variable {cfg : Config} {conn : ConnInfo} {timeNow : Nanoseconds}
  {slots : Fin bufferFrames → AudioBufferEntry}

theorem eligible_of_mark {v : Visit} (hv : v.mark cfg conn timeNow = .marked) :
    v.before.ready = false ∧ tooEarly cfg timeNow v.before = false ∧
      tooLate cfg conn timeNow v.before = false ∧
      tooSoonAfterLastRequest cfg timeNow v.before = false := by
  unfold Visit.mark at hv
  split_ifs at hv with hready heligible
  unfold resendEligible at heligible
  simp only [Bool.and_eq_true, Bool.not_eq_true'] at heligible
  exact ⟨Bool.eq_false_iff.mpr hready, heligible.2, heligible.1.2, heligible.1.1⟩

/-- The scan starts at the start of the window, or at a position in it. -/
theorem resendScanStart_cases (firstPossiblyMissingFrame : Int) (ring : AudioRing) :
    resendScanStart firstPossiblyMissingFrame ring = ring.abRead ∨
      resendScanStart firstPossiblyMissingFrame ring = BitVec.ofInt 16 firstPossiblyMissingFrame ∧
        Between ring.abRead ring.abWrite (BitVec.ofInt 16 firstPossiblyMissingFrame) := by
  unfold resendScanStart
  dsimp only
  split_ifs with hknown hinside
  · refine Or.inr ⟨rfl, ?_⟩
    have hocc : (ring.abWrite - ring.abRead).toInt = ring.occupancy := rfl
    unfold Between distance
    rw [BitVec.toInt_eq_toNat_cond] at hinside hocc
    have := (ring.abWrite - ring.abRead).isLt
    have := (BitVec.ofInt 16 firstPossiblyMissingFrame - ring.abRead).isLt
    split_ifs at hinside hocc <;> omega
  · exact Or.inl rfl
  · exact Or.inl rfl

theorem distance_resendScanStart (firstPossiblyMissingFrame : Int) (ring : AudioRing) :
    distance ring.abRead (resendScanStart firstPossiblyMissingFrame ring) +
        distance (resendScanStart firstPossiblyMissingFrame ring) ring.abWrite =
      distance ring.abRead ring.abWrite := by
  rcases resendScanStart_cases firstPossiblyMissingFrame ring with hstart | ⟨hstart, hin⟩
  · rw [hstart, distance_self, Nat.zero_add]
  · rw [hstart]
    exact distance_add_of_le hin.le

/-- Ranges of positions that do not go round are ranges of numbers. -/
theorem distance_rangeAt_lt_iff (x : SeqT) {r : ℕ × ℕ} {n i : ℕ} (hr : r.1 + r.2 ≤ n)
    (hn : n < 2 ^ 16) (hi : i < 2 ^ 16) :
    distance (rangeAt x r).1 (x + BitVec.ofNat 16 i) < (rangeAt x r).2 ↔
      r.1 ≤ i ∧ i < r.1 + r.2 := by
  have hsub : x + BitVec.ofNat 16 i - (x + BitVec.ofNat 16 r.1) =
      BitVec.ofNat 16 i - BitVec.ofNat 16 r.1 := by ring
  unfold rangeAt distance
  dsimp only
  rw [hsub, BitVec.toNat_sub, BitVec.toNat_ofNat, BitVec.toNat_ofNat, Nat.mod_eq_of_lt hi,
    Nat.mod_eq_of_lt (by omega : r.1 < 2 ^ 16)]
  omega

theorem asked_map_rangeAt_iff (x : SeqT) {ranges : List (ℕ × ℕ)} {n i : ℕ}
    (hranges : ∀ r ∈ ranges, r.1 + r.2 ≤ n) (hn : n < 2 ^ 16) (hi : i < 2 ^ 16) :
    Asked (ranges.map (rangeAt x)) (x + BitVec.ofNat 16 i) ↔ Covered ranges i := by
  rw [Asked, Covered]
  constructor
  · rintro ⟨_, hmem, hlt⟩
    obtain ⟨r, hr, rfl⟩ := List.mem_map.mp hmem
    exact ⟨r, hr, (distance_rangeAt_lt_iff x (hranges r hr) hn hi).mp hlt⟩
  · rintro ⟨r, hr, hin⟩
    exact ⟨_, List.mem_map_of_mem hr,
      (distance_rangeAt_lt_iff x (hranges r hr) hn hi).mpr hin⟩

/-- What positions are marked says what frames are requested. -/
theorem getElem?_eq_marked_iff {n i : ℕ} (x : SeqT) (hn : n < 2 ^ 16) (hi : i < 2 ^ 16) :
    ((visits cfg conn timeNow n slots x).map (Visit.mark cfg conn timeNow))[i]? =
        some Mark.marked ↔
      ∃ v ∈ visits cfg conn timeNow n slots x,
        v.seqno = x + BitVec.ofNat 16 i ∧ v.Requested timeNow := by
  rw [List.getElem?_map, Option.map_eq_some_iff]
  constructor
  · rintro ⟨v, hv, hmark⟩
    have hmem := List.mem_of_getElem? hv
    exact ⟨v, hmem, (seqno_of_getElem?_visits hv).2, (mark_eq_marked_iff hmem).mp hmark⟩
  · rintro ⟨v, hmem, hseqno, hv⟩
    obtain ⟨j, hj⟩ := List.mem_iff_getElem?.mp hmem
    obtain ⟨hlt, hseqno'⟩ := seqno_of_getElem?_visits hj
    have hdist := congrArg (distance x) (hseqno'.symm.trans hseqno)
    rw [distance_add_ofNat x (by omega), distance_add_ofNat x hi] at hdist
    exact ⟨v, hdist ▸ hj, (mark_eq_marked_iff hmem).mpr hv⟩

/-- The ranges of the scan are disjoint and in order, and they match the frames that are requested
exactly if no run is broken. -/
theorem requestsMatch_iff (cfg : Config) (timeNow : Nanoseconds) (conn : ConnInfo) (x : SeqT)
    (hx : distance conn.abRead x + distance x conn.abWrite = distance conn.abRead conn.abWrite)
    (slots : Fin bufferFrames → AudioBufferEntry) :
    let vs := visits cfg conn timeNow (distance x conn.abWrite) slots x
    RequestsMatch cfg conn timeNow
        ((reports 0 0 0 (vs.map (Visit.mark cfg conn timeNow))).map (rangeAt x)) vs ↔
      Unbroken (vs.map (Visit.mark cfg conn timeNow)) := by
  intro vs
  set l := vs.map (Visit.mark cfg conn timeNow) with hl
  have hlength : l.length = distance x conn.abWrite := by
    rw [hl, List.length_map, length_visits]
  have hround : l.length < 2 ^ 16 := hlength ▸ distance_lt x conn.abWrite
  obtain ⟨hordered, hbounds⟩ := reports_ordered l 0 0 0 fun h => absurd h (Nat.lt_irrefl 0)
  have hwithin (r : ℕ × ℕ) (hr : r ∈ reports 0 0 0 l) : 0 < r.2 ∧ r.1 + r.2 ≤ l.length := by
    have h := hbounds r hr
    rw [Nat.zero_add] at h
    exact h.2
  have hstart (r : ℕ × ℕ) (hr : r ∈ reports 0 0 0 l) :
      distance conn.abRead (rangeAt x r).1 = distance conn.abRead x + r.1 := by
    have hdist : distance x (rangeAt x r).1 = r.1 :=
      distance_add_ofNat x (by have := hwithin r hr; omega)
    have hsum := distance_lt conn.abRead conn.abWrite
    rw [← hdist]
    refine distance_add ?_
    have := hwithin r hr
    omega
  have hasked (i : ℕ) (hi : i < 2 ^ 16) :
      Asked ((reports 0 0 0 l).map (rangeAt x)) (x + BitVec.ofNat 16 i) ↔
        Covered (reports 0 0 0 l) i :=
    asked_map_rangeAt_iff x (fun r hr => (hwithin r hr).2) hround hi
  have hrequested (i : ℕ) (hi : i < 2 ^ 16) :
      l[i]? = some Mark.marked ↔
        ∃ v ∈ vs, v.seqno = x + BitVec.ofNat 16 i ∧ v.Requested timeNow :=
    getElem?_eq_marked_iff x (hlength ▸ hround) hi
  rw [← covered_reports_iff]
  constructor
  · intro h p
    rcases Nat.lt_or_ge p (2 ^ 16) with hp | hp
    · rw [← hasked p hp, h.union, hrequested p hp]
    · refine iff_of_false ?_ ?_
      · rintro ⟨r, hr, -, hlt⟩
        have := hwithin r hr
        omega
      · rw [List.getElem?_eq_none (by omega)]
        exact (Option.some_ne_none _).symm
  · intro h
    have hunion (q : SeqT) : Asked ((reports 0 0 0 l).map (rangeAt x)) q ↔
        ∃ v ∈ vs, v.seqno = q ∧ v.Requested timeNow := by
      rw [← add_ofNat_distance x q, hasked _ (distance_lt x q), h,
        hrequested _ (distance_lt x q)]
    refine ⟨?_, ?_, hunion, ?_⟩
    · rw [List.pairwise_map]
      refine hordered.imp_of_mem fun {r r'} hr hr' hle => ?_
      rw [hstart r hr, hstart r' hr', rangeAt]
      omega
    · intro _ hmem
      obtain ⟨r, hr, rfl⟩ := List.mem_map.mp hmem
      rw [hstart r hr, ← hx, ← hlength]
      have := hwithin r hr
      exact ⟨this.1, by rw [rangeAt]; omega⟩
    · intro v hv hin
      obtain ⟨i, hi⟩ := List.mem_iff_getElem?.mp hv
      obtain ⟨hlt, hseqno⟩ := seqno_of_getElem?_visits hi
      rw [hseqno, hasked i (by omega), h, hl, List.getElem?_map, hi, Option.map_some,
        Option.some.injEq] at hin
      exact eligible_of_mark hin

end Ranges

/-! ## A call of `player_put_packet` -/

/-- What a call asks for and the entries it leaves, in terms of the frames it comes to. -/
theorem playerPutPacketRequests_eq (cfg : Config) (decode : PacketDecoder) (timeNow : Nanoseconds)
    (a : PutArgs) (st : ResendState) (henabled : cfg.disableResendRequests = false)
    (houtput : (playerPutPacketStore decode timeNow a st.conn).1.connectionStateToOutput ≠ 0) :
    let stored := (playerPutPacketStore decode timeNow a st.conn).1
    let x := resendScanStart st.firstPossiblyMissingFrame stored.toAudioRing
    playerPutPacketRequests cfg decode timeNow a st =
        (reports 0 0 0 ((playerPutPacketVisits cfg decode timeNow a st).map
          (Visit.mark cfg stored timeNow))).map (rangeAt x) ∧
      (playerPutPacket cfg decode timeNow a st).conn.audioBuffer =
        scannedSlots cfg stored timeNow (distance x stored.abWrite) stored.audioBuffer x := by
  intro stored x
  have h := requests_resendScan henabled x (distance x stored.abWrite) (2 ^ 16) 0 0 ⟨stored, -1⟩
    ⟨timeNow, x, none, 0, 0⟩ (ResendFrame.refl stored) (BitVec.add_zero x).symm rfl
    (distance_lt x stored.abWrite).le (fun h => absurd h (Nat.lt_irrefl 0)) rfl
  unfold playerPutPacketRequests playerPutPacketVisits playerPutPacket
  dsimp only
  rw [if_neg houtput, if_neg houtput, if_neg houtput, ResendOutcome.state_conn]
  exact h

/-- In a window that fits in the ring, the frames a call comes to are the entries before and after
the resend checks. -/
theorem playerPutPacketVisits_of_fits (cfg : Config) (decode : PacketDecoder)
    (timeNow : Nanoseconds) (a : PutArgs) (st : ResendState)
    (henabled : cfg.disableResendRequests = false)
    (hfits : distance (playerPutPacketStore decode timeNow a st.conn).1.abRead
      (playerPutPacketStore decode timeNow a st.conn).1.abWrite ≤ bufferFrames) {v : Visit}
    (hv : v ∈ playerPutPacketVisits cfg decode timeNow a st) :
    v.before = (playerPutPacketStore decode timeNow a st.conn).1.entry v.seqno ∧
      v.after = (playerPutPacket cfg decode timeNow a st).conn.entry v.seqno := by
  have hstart := distance_resendScanStart st.firstPossiblyMissingFrame
    (playerPutPacketStore decode timeNow a st.conn).1.toAudioRing
  have hleft := playerPutPacketRequests_eq cfg decode timeNow a st henabled
  unfold playerPutPacketVisits at hv
  dsimp only at hv hleft
  split_ifs at hv with houtput
  · exact absurd hv List.not_mem_nil
  · obtain ⟨hbefore, hafter⟩ := visits_of_fits _ _ _ (by omega) hv
    exact ⟨hbefore, hafter.trans (congrFun (hleft houtput).2 (bufidx v.seqno)).symm⟩

/-- The ranges a call asks for match the frames that it marks as requested if and only if between
two of them, with no ready frame in between, no frame is left for later. -/
theorem playerPutPacketRequests_match_iff (cfg : Config) (decode : PacketDecoder)
    (timeNow : Nanoseconds) (a : PutArgs) (st : ResendState)
    (henabled : cfg.disableResendRequests = false) :
    RequestsMatch cfg (playerPutPacketStore decode timeNow a st.conn).1 timeNow
        (playerPutPacketRequests cfg decode timeNow a st)
        (playerPutPacketVisits cfg decode timeNow a st) ↔
      Unbroken ((playerPutPacketVisits cfg decode timeNow a st).map
        (Visit.mark cfg (playerPutPacketStore decode timeNow a st.conn).1 timeNow)) := by
  by_cases houtput :
      (playerPutPacketStore decode timeNow a st.conn).1.connectionStateToOutput = 0
  · unfold playerPutPacketRequests playerPutPacketVisits
    dsimp only
    rw [if_pos houtput, if_pos houtput, List.map_nil]
    refine iff_of_true ⟨List.Pairwise.nil, ?_, ?_, ?_⟩ unbroken_nil
    · exact fun r hr => absurd hr List.not_mem_nil
    · simp [Asked]
    · exact fun v hv => absurd hv List.not_mem_nil
  · rw [(playerPutPacketRequests_eq cfg decode timeNow a st henabled houtput).1]
    have h := requestsMatch_iff cfg timeNow
      (playerPutPacketStore decode timeNow a st.conn).1 _
      (distance_resendScanStart st.firstPossiblyMissingFrame _)
      (playerPutPacketStore decode timeNow a st.conn).1.audioBuffer
    unfold playerPutPacketVisits
    dsimp only
    rw [if_neg houtput]
    exact h

def threeMissing : ResendState :=
  playerPutPacket .playOnly .pcm 10000000000 (.original 4 5000 [5])
    (playerPutPacket .playOnly .pcm 10000000000 (.original 0 1000 [1]) ⟨.fresh, -1⟩)

/-- The three are asked for as soon as they may be. -/
theorem playerPutPacketRequests_match_of_three :
    RequestsMatch .playOnly
      (playerPutPacketStore .pcm 10120000000 (.original 5 6000 [6]) threeMissing.conn).1
      10120000000
      (playerPutPacketRequests .playOnly .pcm 10120000000 (.original 5 6000 [6]) threeMissing)
      (playerPutPacketVisits .playOnly .pcm 10120000000 (.original 5 6000 [6])
        threeMissing) := by
  refine (playerPutPacketRequests_match_iff _ _ _ _ _ rfl).mpr ?_
  have hmarks : (playerPutPacketVisits .playOnly .pcm 10120000000 (.original 5 6000 [6])
      threeMissing).map (Visit.mark .playOnly (playerPutPacketStore .pcm 10120000000
        (.original 5 6000 [6]) threeMissing.conn).1 10120000000) =
      [.marked, .marked, .marked, .closed, .closed] := by decide +kernel
  rw [hmarks]
  simp [unbroken_cons_of_ne]

/-- A packet longer than `MAX_PACKET` has come for the number 2 in between, so it is too early to
ask for that one; the range of two from the number 1 on is asked for, which the numbers 1 and 3 are
marked for. -/
theorem playerPutPacketRequests_mismatch :
    ¬ ∀ (cfg : Config) (decode : PacketDecoder) (timeNow : Nanoseconds) (a : PutArgs)
      (st : ResendState), cfg.disableResendRequests = false → st.conn.abSynced = true →
      RequestsMatch cfg (playerPutPacketStore decode timeNow a st.conn).1 timeNow
        (playerPutPacketRequests cfg decode timeNow a st)
        (playerPutPacketVisits cfg decode timeNow a st) := by
  intro h
  have hmatch := h .playOnly .pcm 10120000000 (.original 5 6000 [6])
    (playerPutPacket .playOnly .pcm 10050000000 (.original 2 3000 (List.replicate 2052 0))
      threeMissing)
    rfl (by decide +kernel)
  have hunion := hmatch.union 2
  exact absurd hunion (by decide +kernel)

end Player

end ShairportSync
