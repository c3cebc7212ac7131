import ShairportSync.Player.Holds

/-!
# Where the sequence numbers wrap

`shift c` adds `c` to both ends of the window and to every sequence number. When `c` is
a multiple of the size of the ring no slot moves, and the flush handling followed by the
skipping should not see the difference. Both compare `abWrite - abRead` with zero in
`int` arithmetic, where a window that straddles 65535 looks empty; they commute with the
shift exactly when this does not matter.
-/

namespace ShairportSync

namespace Player

open SerialNumber

def AudioBufferEntry.shift (c : SeqT) (abuf : AudioBufferEntry) : AudioBufferEntry :=
  { abuf with sequenceNumber := abuf.sequenceNumber + c }

def AudioRing.shift (c : SeqT) (ring : AudioRing) : AudioRing where
  audioBuffer i := (ring.audioBuffer i).shift c
  abRead := ring.abRead + c
  abWrite := ring.abWrite + c
  abSynced := ring.abSynced

def ConnInfo.shift (c : SeqT) (conn : ConnInfo) : ConnInfo :=
  { conn with toAudioRing := conn.toAudioRing.shift c }

def Event.shift (c : SeqT) : Event → Event
  | .synced seqno => .synced (seqno + c)
  | .stored seqno packet => .stored (seqno + c) packet
  | .discarded seqno => .discarded (seqno + c)
  | .resynced => .resynced
  | .flushed seqno => .flushed (seqno + c)
  | .trimmed seqno flushFrame bytesPerFrame => .trimmed (seqno + c) flushFrame bytesPerFrame
  | .outOfDate seqno shouldBeFrame => .outOfDate (seqno + c) shouldBeFrame
  | .emptyOrNotReady seqno => .emptyOrNotReady (seqno + c)
  | .aliasing seqno found => .aliasing (seqno + c) (found + c)
  | .inconsistent seqno found => .inconsistent (seqno + c) (found + c)
  | .supplied seqno frame => .supplied (seqno + c) (frame.shift c)
  | .silent seqno frame => .silent (seqno + c) (frame.shift c)

def Progress.shift (c : SeqT) (pr : Progress) : Progress :=
  { pr with conn := pr.conn.shift c, events := pr.events.map (Event.shift c) }

def AudioBufferEntry.visible (abuf : AudioBufferEntry) : AudioBufferEntry :=
  if abuf.ready then abuf else { abuf with sequenceNumber := 0 }

/-- The state without the sequence numbers of the entries that are not ready. -/
def Progress.visible (pr : Progress) : Progress :=
  { pr with
    conn := { pr.conn with audioBuffer := fun i => (pr.conn.audioBuffer i).visible } }

/-- The flush handling and the skipping lead from the shifted state to the shifted
result. -/
def Commutes (cfg : Config) (rd : Readings) (c : SeqT) (pr : Progress) : Prop :=
  (flushAndSkip cfg rd (pr.shift c)).visible = ((flushAndSkip cfg rd pr).shift c).visible

/-- In `int` arithmetic the window is empty after the shift if and only if it is before. -/
def SameGuard (c : SeqT) (ring : AudioRing) : Prop :=
  0 < (ring.shift c).intDifference ↔ 0 < ring.intDifference

instance (c : SeqT) (ring : AudioRing) : Decidable (SameGuard c ring) :=
  inferInstanceAs (Decidable (_ ↔ _))

/-- The frame at the start of the window is ready and not out of date. -/
def HeadInTime (rd : Readings) (conn : ConnInfo) : Prop :=
  (conn.entry conn.abRead).ready = true ∧
    0 ≤ ((conn.entry conn.abRead).givenTimestamp -
      rd.localTimeToFrame 0 (timeToAimFor rd conn)).toInt

/-! ## The pieces under a shift -/

section Shift

variable {c : SeqT}

theorem bufidx_add (hc : bufferFrames ∣ c.toNat) (q : SeqT) : bufidx (q + c) = bufidx q :=
  slot_add_of_dvd bufferFrames_dvd q hc

theorem shift_entry (hc : bufferFrames ∣ c.toNat) (ring : AudioRing) (q : SeqT) :
    (ring.shift c).entry (q + c) = (ring.entry q).shift c := by
  unfold AudioRing.entry
  rw [bufidx_add hc]
  rfl

theorem SameGuard.toNat_eq {ring : AudioRing} (h : SameGuard c ring) :
    (ring.shift c).intDifference.toNat = ring.intDifference.toNat := by
  by_cases hpos : 0 < ring.intDifference
  · rw [intDifference_toNat_of_pos hpos, intDifference_toNat_of_pos (h.mpr hpos)]
    exact distance_add_right ring.abRead ring.abWrite c
  · have hshift : ¬ 0 < (ring.shift c).intDifference := fun hs => hpos (h.mp hs)
    omega

theorem add_one_add (q c : SeqT) : q + c + 1 = q + 1 + c := by ring

theorem dropBeforeFlush_shift (hc : bufferFrames ∣ c.toNat)
    (slots : Fin bufferFrames → AudioBufferEntry) (flushFrame : RtpTime) (n : ℕ) (r : SeqT) :
    dropBeforeFlush (fun i => (slots i).shift c) flushFrame n (r + c) =
      dropBeforeFlush slots flushFrame n r + c := by
  induction n generalizing r with
  | zero => rfl
  | succ n ih =>
      unfold dropBeforeFlush
      rw [bufidx_add hc, add_one_add, ih]
      exact (apply_ite (· + c) _ _ _).symm

theorem flushedEvents_shift (n : ℕ) (q : SeqT) :
    flushedEvents n (q + c) = (flushedEvents n q).map (Event.shift c) := by
  induction n generalizing q with
  | zero => rfl
  | succ n ih =>
      unfold flushedEvents
      rw [add_one_add, ih]
      rfl

theorem skipLoop_shift_window (hc : bufferFrames ∣ c.toNat)
    (slots : Fin bufferFrames → AudioBufferEntry) (shouldBeFrame : ℕ → RtpTime)
    (n k : ℕ) (r : SeqT) :
    skipLoop (fun i => (slots i).shift c) shouldBeFrame n k (r + c) =
      ((skipLoop slots shouldBeFrame n k r).1 + c,
        (skipLoop slots shouldBeFrame n k r).2.map (Event.shift c)) := by
  induction n generalizing k r with
  | zero => rfl
  | succ n ih =>
      unfold skipLoop
      rw [bufidx_add hc, add_one_add, ih, ih]
      dsimp only [AudioBufferEntry.shift]
      split_ifs <;> rfl

/-- Flushing the frames before the flush frame keeps the window what it is in `int`
arithmetic. -/
theorem dropBeforeFlush_eq_add (slots : Fin bufferFrames → AudioBufferEntry)
    (flushFrame : RtpTime) (n : ℕ) (r : SeqT) :
    ∃ k ≤ n, dropBeforeFlush slots flushFrame n r = r + BitVec.ofNat 16 k := by
  induction n generalizing r with
  | zero => exact ⟨0, le_refl 0, (BitVec.add_zero r).symm⟩
  | succ n ih =>
      unfold dropBeforeFlush
      split_ifs
      · obtain ⟨k, hk, heq⟩ := ih (r + 1)
        refine ⟨k + 1, Nat.succ_le_succ hk, ?_⟩
        rw [heq, add_one_add_ofNat]
      · exact ⟨0, Nat.zero_le _, (BitVec.add_zero r).symm⟩

theorem intDifference_advance (ring : AudioRing) {k : ℕ}
    (hk : k ≤ ring.intDifference.toNat) :
    { ring with abRead := ring.abRead + BitVec.ofNat 16 k }.intDifference =
      ring.intDifference - k := by
  unfold AudioRing.intDifference at hk ⊢
  have hread := ring.abRead.isLt
  have hwrite := ring.abWrite.isLt
  simp only [BitVec.toNat_add, BitVec.toNat_ofNat]
  omega

theorem flushDecision_shift (hc : bufferFrames ∣ c.toNat) {conn : ConnInfo}
    (h : SameGuard c conn.toAudioRing) : flushDecision (conn.shift c) = flushDecision conn := by
  have hlast : conn.abWrite + c - 1 = conn.abWrite - 1 + c := by ring
  have hguard : 0 < (conn.shift c).intDifference ↔ 0 < conn.intDifference := h
  have hfirst : (conn.shift c).entry (conn.shift c).abRead = (conn.entry conn.abRead).shift c :=
    shift_entry hc conn.toAudioRing conn.abRead
  have hend : (conn.shift c).entry ((conn.shift c).abWrite - 1) =
      (conn.entry (conn.abWrite - 1)).shift c := by
    rw [show (conn.shift c).abWrite - 1 = conn.abWrite - 1 + c from hlast]
    exact shift_entry hc conn.toAudioRing (conn.abWrite - 1)
  unfold flushDecision
  rw [hfirst, hend]
  simp only [hguard]
  rfl

theorem flushOutput_shift (cfg : Config) (pr : Progress) :
    flushOutput cfg (pr.shift c) = (flushOutput cfg pr).shift c := by
  unfold flushOutput Progress.shift ConnInfo.shift
  dsimp only
  split <;> rfl

theorem flushPart_shift (hc : bufferFrames ∣ c.toNat) {pr : Progress}
    (h : SameGuard c pr.conn.toAudioRing) : flushPart (pr.shift c) = (flushPart pr).shift c := by
  have hread : dropBeforeFlush (pr.shift c).conn.audioBuffer (pr.shift c).conn.flushRtpTimestamp
      (pr.shift c).conn.intDifference.toNat (pr.shift c).conn.abRead =
      dropBeforeFlush pr.conn.audioBuffer pr.conn.flushRtpTimestamp
        pr.conn.intDifference.toNat pr.conn.abRead + c := by
    have hcount : (pr.shift c).conn.intDifference.toNat = pr.conn.intDifference.toNat :=
      h.toNat_eq
    rw [hcount]
    exact dropBeforeFlush_shift hc _ _ _ _
  have hflushed : ∀ r : SeqT, flushedEvents (distance (pr.shift c).conn.abRead (r + c))
      (pr.shift c).conn.abRead =
      (flushedEvents (distance pr.conn.abRead r) pr.conn.abRead).map (Event.shift c) := by
    intro r
    rw [show (pr.shift c).conn.abRead = pr.conn.abRead + c from rfl, distance_add_right,
      flushedEvents_shift]
  unfold flushPart
  dsimp only
  rw [hread]
  generalize dropBeforeFlush pr.conn.audioBuffer pr.conn.flushRtpTimestamp
    pr.conn.intDifference.toNat pr.conn.abRead = r
  have hslots : Function.update (pr.shift c).conn.audioBuffer (bufidx (r + c))
      (((pr.shift c).conn.entry (r + c)).trim pr.conn.inputBytesPerFrame
        pr.conn.flushRtpTimestamp) =
      fun i => (Function.update pr.conn.audioBuffer (bufidx r)
        ((pr.conn.entry r).trim pr.conn.inputBytesPerFrame pr.conn.flushRtpTimestamp) i).shift
          c := by
    have hentry : (pr.shift c).conn.entry (r + c) = (pr.conn.entry r).shift c :=
      shift_entry hc pr.conn.toAudioRing r
    rw [hentry, bufidx_add hc]
    funext i
    exact (Function.apply_update (fun _ abuf => AudioBufferEntry.shift c abuf)
      pr.conn.audioBuffer (bufidx r)
      ((pr.conn.entry r).trim pr.conn.inputBytesPerFrame pr.conn.flushRtpTimestamp) i).symm
  unfold Progress.shift ConnInfo.shift AudioRing.shift at *
  dsimp only at *
  rw [hflushed, hslots, List.map_append, List.map_append]
  rfl

theorem skipOutOfDate_shift (hc : bufferFrames ∣ c.toNat) (rd : Readings) (pr : Progress)
    (h : SameGuard c pr.conn.toAudioRing) :
    skipOutOfDate rd (pr.shift c) = (skipOutOfDate rd pr).shift c := by
  have hcount : (pr.shift c).conn.intDifference.toNat = pr.conn.intDifference.toNat :=
    h.toNat_eq
  have hloop := skipLoop_shift_window hc pr.conn.audioBuffer
    (fun k => rd.localTimeToFrame k (timeToAimFor rd pr.conn)) pr.conn.intDifference.toNat 0
    pr.conn.abRead
  unfold skipOutOfDate
  rw [hcount]
  unfold Progress.shift ConnInfo.shift AudioRing.shift at *
  dsimp only at *
  split
  · rw [show timeToAimFor rd { pr.conn with
        audioBuffer := fun i => (pr.conn.audioBuffer i).shift c
        abRead := pr.conn.abRead + c
        abWrite := pr.conn.abWrite + c } = timeToAimFor rd pr.conn from rfl, hloop,
      List.map_append]
  · rfl

theorem SameGuard.advance {ring : AudioRing} (h : SameGuard c ring) {k : ℕ}
    (hk : k ≤ ring.intDifference.toNat) :
    SameGuard c { ring with abRead := ring.abRead + BitVec.ofNat 16 k } := by
  have hcount := h.toNat_eq
  have hshift := intDifference_advance (ring.shift c) (hcount ▸ hk)
  have hadd : ring.abRead + BitVec.ofNat 16 k + c = ring.abRead + c + BitVec.ofNat 16 k := by
    ring
  unfold SameGuard at h ⊢
  rw [intDifference_advance ring hk]
  unfold AudioRing.shift at h hcount hshift ⊢
  dsimp only at hshift ⊢
  rw [hadd, hshift]
  omega

theorem flushAll_shift_visible (pr : Progress) :
    (flushAll (pr.shift c)).visible = ((flushAll pr).shift c).visible := by
  have hevents : pr.events.map (Event.shift c) ++ [Event.resynced] =
      (pr.events ++ [Event.resynced]).map (Event.shift c) := by
    rw [List.map_append]
    rfl
  unfold flushAll Progress.visible Progress.shift ConnInfo.shift AudioRing.shift
  dsimp only
  rw [hevents]
  rfl

theorem commutes_of_sameGuard (hc : bufferFrames ∣ c.toNat) (cfg : Config) (rd : Readings)
    {pr : Progress} (h : SameGuard c pr.conn.toAudioRing) : Commutes cfg rd c pr := by
  unfold Commutes flushAndSkip serviceFlush
  dsimp only
  rw [flushOutput_shift]
  replace h : SameGuard c (flushOutput cfg pr).conn.toAudioRing := by
    rwa [flushOutput_toAudioRing]
  generalize flushOutput cfg pr = out at h ⊢
  rw [show flushDecision (out.shift c).conn = flushDecision out.conn from
    flushDecision_shift hc h]
  cases flushDecision out.conn with
  | leave => exact congrArg Progress.visible (skipOutOfDate_shift hc rd out h)
  | flushAll drop =>
      cases drop with
      | false =>
          dsimp only
          rw [skipOutOfDate_of_not_synced rd rfl, skipOutOfDate_of_not_synced rd rfl]
          exact flushAll_shift_visible out
      | true =>
          dsimp only
          rw [skipOutOfDate_of_not_synced rd rfl, skipOutOfDate_of_not_synced rd rfl]
          exact congrArg dropRequest (flushAll_shift_visible out)
  | flushPart =>
      dsimp only
      rw [flushPart_shift hc h]
      obtain ⟨k, hk, hread⟩ := dropBeforeFlush_eq_add out.conn.audioBuffer
        out.conn.flushRtpTimestamp out.conn.intDifference.toNat out.conn.abRead
      refine congrArg Progress.visible
        (skipOutOfDate_shift hc rd (dropRequest (flushPart out)) ?_)
      have hadvanced := h.advance hk
      rw [← hread] at hadvanced
      exact hadvanced
  | expired =>
      exact congrArg Progress.visible (skipOutOfDate_shift hc rd (dropRequest out) h)
  | notSyncedOrEmpty =>
      exact congrArg Progress.visible
        (skipOutOfDate_shift hc rd
          { out with conn := { out.conn with flushRequested := false } } h)

theorem commutes_of_flush_everything (cfg : Config) (rd : Readings) {pr : Progress}
    (hrequested : pr.conn.flushRequested = true) (hzero : pr.conn.flushRtpTimestamp = 0) :
    Commutes cfg rd c pr := by
  have hdecision : ∀ out : Progress, out.conn.toFlushRequest.flushRequested = true →
      out.conn.flushRtpTimestamp = 0 → flushDecision out.conn = .flushAll true := by
    intro out hr hz
    unfold flushDecision
    rw [hr, if_neg (by simp), if_pos hz]
  have hout : (flushOutput cfg pr).conn.flushRequested = true ∧
      (flushOutput cfg pr).conn.flushRtpTimestamp = 0 := by
    unfold flushOutput
    rw [if_pos hrequested]
    exact ⟨hrequested, hzero⟩
  unfold Commutes flushAndSkip serviceFlush
  dsimp only
  rw [flushOutput_shift, hdecision _ hout.1 hout.2,
    hdecision ((flushOutput cfg pr).shift c) hout.1 hout.2]
  dsimp only
  rw [skipOutOfDate_of_not_synced rd rfl, skipOutOfDate_of_not_synced rd rfl]
  exact congrArg dropRequest (flushAll_shift_visible (flushOutput cfg pr))

theorem skipOutOfDate_of_headInTime {rd : Readings} {pr : Progress}
    (h : HeadInTime rd pr.conn) : skipOutOfDate rd pr = pr := by
  obtain ⟨hready, htime⟩ := h
  unfold skipOutOfDate
  split
  · cases pr.conn.intDifference.toNat with
    | zero => simp [skipLoop]
    | succ n =>
        have hstop : skipLoop pr.conn.audioBuffer
            (fun k => rd.localTimeToFrame k (timeToAimFor rd pr.conn)) (n + 1) 0 pr.conn.abRead =
            (pr.conn.abRead, []) := by
          unfold skipLoop
          exact (if_pos hready).trans (if_neg (not_lt.mpr htime))
        rw [hstop]
        simp
  · rfl

theorem headInTime_shift (hc : bufferFrames ∣ c.toNat) (rd : Readings) (conn : ConnInfo) :
    HeadInTime rd (conn.shift c) ↔ HeadInTime rd conn := by
  have hentry : (conn.shift c).entry (conn.shift c).abRead = (conn.entry conn.abRead).shift c :=
    shift_entry hc conn.toAudioRing conn.abRead
  unfold HeadInTime
  rw [hentry]
  rfl

theorem commutes_of_headInTime (hc : bufferFrames ∣ c.toNat) (cfg : Config) {rd : Readings}
    {pr : Progress} (hrequested : pr.conn.flushRequested = false)
    (h : HeadInTime rd pr.conn) : Commutes cfg rd c pr := by
  have hshift : HeadInTime rd (pr.shift c).conn := (headInTime_shift hc rd pr.conn).mpr h
  unfold Commutes flushAndSkip
  rw [serviceFlush_of_not_requested cfg hrequested,
    serviceFlush_of_not_requested cfg (show (pr.shift c).conn.flushRequested = false from
      hrequested), skipOutOfDate_of_headInTime h, skipOutOfDate_of_headInTime hshift]

end Shift

/-! ## The converse -/

section Converse

theorem flushDecision_of_looks_empty {conn : ConnInfo} (hempty : ¬ 0 < conn.intDifference)
    (hrequested : conn.flushRequested = true) (hframe : conn.flushRtpTimestamp ≠ 0) :
    flushDecision conn = .notSyncedOrEmpty := by
  unfold flushDecision
  rw [hrequested, if_neg (by simp), if_neg hframe, if_neg fun h => hempty h.2]

/-- A request that is for a frame and meets a window that does not look empty is pending,
served or expired. -/
theorem flushDecision_of_not_empty {conn : ConnInfo} (hs : conn.abSynced = true)
    (hpos : 0 < conn.intDifference) (hrequested : conn.flushRequested = true)
    (hframe : conn.flushRtpTimestamp ≠ 0) : flushDecision conn ≠ .notSyncedOrEmpty := by
  unfold flushDecision
  rw [hrequested, if_neg (by simp), if_neg hframe, if_pos ⟨hs, hpos⟩]
  dsimp only
  split_ifs <;> simp

/-- A window that looks empty loses a request for a frame, and nothing else happens. -/
theorem flushAndSkip_of_looks_empty (cfg : Config) (rd : Readings) (pr : Progress)
    (hs : pr.conn.abSynced = true) (hempty : ¬ 0 < pr.conn.intDifference)
    (hrequested : pr.conn.flushRequested = true) (hframe : pr.conn.flushRtpTimestamp ≠ 0) :
    (flushAndSkip cfg rd pr).conn.flushRequested = false ∧
      (flushAndSkip cfg rd pr).conn.flushRtpTimestamp = pr.conn.flushRtpTimestamp ∧
      (flushAndSkip cfg rd pr).conn.abSynced = true := by
  obtain ⟨hreq, hts⟩ := flushOutput_request cfg pr
  have hring := flushOutput_toAudioRing cfg pr
  unfold flushAndSkip serviceFlush
  dsimp only
  generalize flushOutput cfg pr = out at hreq hts hring ⊢
  rw [flushDecision_of_looks_empty (by rw [hring]; exact hempty) (hreq.trans hrequested)
    (by rw [hts]; exact hframe)]
  dsimp only
  obtain ⟨hflush, hsynced⟩ := skipOutOfDate_request rd
    { out with conn := { out.conn with flushRequested := false } }
  rw [hflush, hsynced]
  exact ⟨rfl, hts, by rw [hring]; exact hs⟩

/-- A window that does not look empty never ends up so. -/
theorem flushAndSkip_of_not_empty (cfg : Config) (rd : Readings) (pr : Progress)
    (hs : pr.conn.abSynced = true) (hpos : 0 < pr.conn.intDifference)
    (hrequested : pr.conn.flushRequested = true) (hframe : pr.conn.flushRtpTimestamp ≠ 0) :
    ¬ ((flushAndSkip cfg rd pr).conn.flushRequested = false ∧
      (flushAndSkip cfg rd pr).conn.flushRtpTimestamp = pr.conn.flushRtpTimestamp ∧
      (flushAndSkip cfg rd pr).conn.abSynced = true) := by
  obtain ⟨hreq, hts⟩ := flushOutput_request cfg pr
  have hring := flushOutput_toAudioRing cfg pr
  unfold flushAndSkip serviceFlush
  dsimp only
  generalize flushOutput cfg pr = out at hreq hts hring ⊢
  have hdecision : flushDecision out.conn ≠ .notSyncedOrEmpty :=
    flushDecision_of_not_empty (by rw [hring]; exact hs) (by rw [hring]; exact hpos)
      (hreq.trans hrequested) (by rw [hts]; exact hframe)
  rintro ⟨hdropped, hkept, hsynced⟩
  cases hd : flushDecision out.conn with
  | leave =>
      rw [hd] at hdropped
      rw [(skipOutOfDate_request rd out).1, hreq, hrequested] at hdropped
      exact absurd hdropped (by simp)
  | flushAll drop =>
      rw [hd] at hsynced
      cases drop <;>
        exact absurd ((skipOutOfDate_request rd _).2.symm.trans hsynced) Bool.false_ne_true
  | flushPart =>
      rw [hd, (skipOutOfDate_request rd _).1] at hkept
      exact hframe hkept.symm
  | expired =>
      rw [hd, (skipOutOfDate_request rd _).1] at hkept
      exact hframe hkept.symm
  | notSyncedOrEmpty => exact hdecision hd

theorem flushAndSkip_events_of_looks_empty (cfg : Config) (rd : Readings) (pr : Progress)
    (hempty : ¬ 0 < pr.conn.intDifference) (hrequested : pr.conn.flushRequested = false) :
    (flushAndSkip cfg rd pr).events = pr.events := by
  unfold flushAndSkip
  rw [serviceFlush_of_not_requested cfg hrequested]
  unfold skipOutOfDate
  rw [show pr.conn.intDifference.toNat = 0 by omega]
  split
  · simp [skipLoop]
  · rfl

/-- A window that does not look empty loses the number at its start when there is no
request, unless its frame is in time. -/
theorem flushAndSkip_events_of_not_empty (cfg : Config) {rd : Readings} (pr : Progress)
    (hs : pr.conn.abSynced = true) (hpos : 0 < pr.conn.intDifference)
    (hrequested : pr.conn.flushRequested = false) (hhead : ¬ HeadInTime rd pr.conn) :
    pr.events.length < (flushAndSkip cfg rd pr).events.length := by
  obtain ⟨n, hn⟩ := Nat.exists_eq_succ_of_ne_zero
    (show pr.conn.intDifference.toNat ≠ 0 by omega)
  unfold flushAndSkip
  rw [serviceFlush_of_not_requested cfg hrequested]
  unfold skipOutOfDate
  rw [if_pos hs, hn]
  unfold skipLoop
  dsimp only
  rw [List.length_append]
  split_ifs with hready hlate
  · simp
  · exact absurd ⟨hready, not_lt.mp hlate⟩ hhead
  · simp

end Converse

/-- The flush handling and the skipping commute with a shift exactly when the window is
empty in `int` arithmetic before and after it alike, or everything is flushed, or there
is nothing to do because no request is pending and the first frame is in time. -/
theorem commutes_iff (cfg : Config) (rd : Readings) (c : SeqT) (pr : Progress)
    (hc : bufferFrames ∣ c.toNat) (hs : pr.conn.abSynced = true) :
    Commutes cfg rd c pr ↔
      SameGuard c pr.conn.toAudioRing ∨
      (pr.conn.flushRequested = true ∧ pr.conn.flushRtpTimestamp = 0) ∨
      (pr.conn.flushRequested = false ∧ HeadInTime rd pr.conn) := by
  constructor
  · intro h
    by_contra hnot
    simp only [not_or] at hnot
    obtain ⟨hguard, hzero, hhead⟩ := hnot
    have hsides : (0 < (pr.shift c).conn.intDifference ∧ ¬ 0 < pr.conn.intDifference) ∨
        (¬ 0 < (pr.shift c).conn.intDifference ∧ 0 < pr.conn.intDifference) := by
      have hne : ¬ (0 < (pr.shift c).conn.intDifference ↔ 0 < pr.conn.intDifference) := hguard
      tauto
    cases hrequested : pr.conn.flushRequested with
    | true =>
        have hframe : pr.conn.flushRtpTimestamp ≠ 0 := fun hz => hzero ⟨hrequested, hz⟩
        have hdropped : (flushAndSkip cfg rd (pr.shift c)).conn.flushRequested =
            (flushAndSkip cfg rd pr).conn.flushRequested :=
          congrArg (fun p => p.conn.flushRequested) h
        have hkept : (flushAndSkip cfg rd (pr.shift c)).conn.flushRtpTimestamp =
            (flushAndSkip cfg rd pr).conn.flushRtpTimestamp :=
          congrArg (fun p => p.conn.flushRtpTimestamp) h
        have hsynced : (flushAndSkip cfg rd (pr.shift c)).conn.abSynced =
            (flushAndSkip cfg rd pr).conn.abSynced :=
          congrArg (fun p => p.conn.abSynced) h
        rcases hsides with ⟨hpos, hempty⟩ | ⟨hempty, hpos⟩
        · refine flushAndSkip_of_not_empty cfg rd (pr.shift c) hs hpos hrequested hframe ?_
          rw [hdropped, hkept, hsynced]
          exact flushAndSkip_of_looks_empty cfg rd pr hs hempty hrequested hframe
        · refine flushAndSkip_of_not_empty cfg rd pr hs hpos hrequested hframe ?_
          rw [← hdropped, ← hkept, ← hsynced]
          exact flushAndSkip_of_looks_empty cfg rd (pr.shift c) hs hempty hrequested hframe
    | false =>
        have hlength : (flushAndSkip cfg rd (pr.shift c)).events.length =
            (flushAndSkip cfg rd pr).events.length :=
          (congrArg (fun p => p.events.length) h).trans (List.length_map _)
        have hshift : (pr.shift c).events.length = pr.events.length :=
          List.length_map _
        have hhead' : ¬ HeadInTime rd pr.conn := fun hh => hhead ⟨hrequested, hh⟩
        rcases hsides with ⟨hpos, hempty⟩ | ⟨hempty, hpos⟩
        · have hlost := flushAndSkip_events_of_not_empty cfg (pr.shift c) hs hpos
            hrequested fun hh => hhead' ((headInTime_shift hc rd pr.conn).mp hh)
          rw [hlength, flushAndSkip_events_of_looks_empty cfg rd pr hempty hrequested] at hlost
          omega
        · have hlost := flushAndSkip_events_of_not_empty cfg pr hs hpos hrequested hhead'
          rw [← hlength, flushAndSkip_events_of_looks_empty cfg rd (pr.shift c) hempty
            hrequested] at hlost
          omega
  · rintro (h | ⟨hrequested, hzero⟩ | ⟨hrequested, hhead⟩)
    · exact commutes_of_sameGuard hc cfg rd h
    · exact commutes_of_flush_everything cfg rd hrequested hzero
    · exact commutes_of_headInTime hc cfg hrequested hhead

/-- The window `[65535, 1)`, with a frame that is out of date at its start. -/
def straddling : Progress where
  conn :=
    { ConnInfo.fresh with
      audioBuffer := fun i =>
        if i = bufidx 65535 then ⟨true, 0, 0, [], 65535, 0, 0, 1000, 352⟩
        else ⟨true, 0, 0, [], 0, 0, 0, 1352, 352⟩
      abRead := 65535
      abWrite := 1
      abSynced := true }
  loop := .start
  calls := []
  events := []

/-- Once it no longer straddles 65535 the window may be shifted again. -/
theorem straddling_shifted_commutes :
    Commutes .playOnly (.at 10 1200 5) 2048 (straddling.shift 1024) :=
  (commutes_iff .playOnly (.at 10 1200 5) 2048 (straddling.shift 1024) (by decide) rfl).mpr
    (Or.inl (by decide +kernel))

/-- Shifted by 1024 the frame is dropped; as it stands it is not. -/
theorem straddling_not_commutes :
    ¬ ∀ (cfg : Config) (rd : Readings) (c : SeqT) (pr : Progress),
      bufferFrames ∣ c.toNat → pr.conn.abSynced = true →
      0 ≤ pr.conn.occupancy ∧ pr.conn.occupancy < bufferFrames → Commutes cfg rd c pr := by
  intro h
  have hcommutes := h .playOnly (.at 10 1200 5) 1024 straddling (by decide) rfl (by decide)
  have hread := congrArg (fun pr => pr.conn.abRead) hcommutes
  exact absurd hread (by decide +kernel)

end Player

end ShairportSync
