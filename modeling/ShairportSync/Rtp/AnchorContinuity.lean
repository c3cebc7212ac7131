import ShairportSync.Rtp.PtpAnchor
import ShairportSync.Transition.Run
import Mathlib.Data.Nat.Factorization.Basic

/-!
# The anchor across a change of master clock

A session is any sequence of calls of the three anchor functions. While `nqptp` reports
one offset for each clock, an anchor message is a point: a frame and a local time. The
anchor of the connection and its last valid anchor are both such points as long as no
message with another frame comes between the last time the anchor was converted and the
call that moves it to a new master clock. That call takes the time of the last valid
anchor and leaves the frame of the current one.
-/

namespace ShairportSync

namespace Rtp

open Player Transition

/-! ## Frame differences -/

theorem exists_mul_eq_half {δ : BitVec 32} (h : δ ≠ 0) :
    ∃ k : ℕ, BitVec.ofNat 32 k * δ = 0x80000000 := by
  have hne : δ.toNat ≠ 0 := fun h0 => h (BitVec.eq_of_toNat_eq h0)
  have hlt : δ.toNat < 2 ^ 32 := δ.isLt
  obtain ⟨j, m, ⟨r, hr⟩, hm⟩ := Nat.exists_eq_two_pow_mul_odd hne
  have hj : j ≤ 31 := by
    by_contra hj
    have hpow : 2 ^ 32 ≤ 2 ^ j := Nat.pow_le_pow_right (by decide) (by omega)
    have hm' : 2 ^ j * 1 ≤ 2 ^ j * m := Nat.mul_le_mul_left _ (by omega)
    omega
  refine ⟨2 ^ (31 - j), BitVec.eq_of_toNat_eq ?_⟩
  rw [BitVec.toNat_mul, BitVec.toNat_ofNat, Nat.mod_mul_mod, hm, ← Nat.mul_assoc, ← Nat.pow_add,
    Nat.sub_add_cancel hj, hr]
  change 2 ^ 31 * (2 * r + 1) % 2 ^ 32 = 2 ^ 31
  omega

theorem apply_half_of_periodic {α : Type*} {T : BitVec 32 → α} {δ : BitVec 32} (hδ : δ ≠ 0)
    (h : ∀ x, T (x + δ) = T x) : T 0x80000000 = T 0 := by
  obtain ⟨k, hk⟩ := exists_mul_eq_half hδ
  have hmul : ∀ k : ℕ, T (BitVec.ofNat 32 k * δ) = T 0 := by
    intro k
    induction k with
    | zero => simp
    | succ k ih =>
        rw [BitVec.ofNat_add, BitVec.add_mul, show BitVec.ofNat 32 1 * δ = δ from BitVec.one_mul δ,
          h, ih]
  rw [← hk, hmul]

theorem frameDifferenceToTime_zero (inputRate : BitVec 32) :
    frameDifferenceToTime inputRate 0 = 0 := by
  simp [frameDifferenceToTime]

theorem frameDifferenceToTime_half_ne_zero {inputRate : BitVec 32} (h : inputRate ≠ 0) :
    frameDifferenceToTime inputRate 0x80000000 ≠ 0 := by
  have hne : inputRate.toNat ≠ 0 := fun h0 => h (BitVec.eq_of_toNat_eq h0)
  have hlt : inputRate.toNat < 2 ^ 32 := inputRate.isLt
  intro h0
  have hint : (frameDifferenceToTime inputRate 0x80000000).toInt = 0 := by
    rw [h0]
    rfl
  have hdiff : (0x80000000 : BitVec 32).toInt * 1000000000 = -(2147483648000000000 : ℤ) := rfl
  have hpos : 1 ≤ (2147483648000000000 : ℤ) / inputRate.toNat := by
    rw [Int.le_ediv_iff_mul_le (by omega)]
    omega
  have hle : (2147483648000000000 : ℤ) / inputRate.toNat ≤ 2147483648000000000 :=
    Int.ediv_le_self _ (by omega)
  rw [frameDifferenceToTime, hdiff, Int.neg_tdiv, Int.tdiv_eq_ediv_of_nonneg (by omega),
    BitVec.toInt_ofInt, Int.bmod_def] at hint
  omega

/-- Two anchor points with one local time give the same time to every frame only if they
are the same point. -/
theorem AnchorPoint.frameTime_eq_iff {inputRate : BitVec 32} (hrate : inputRate ≠ 0)
    {p q : AnchorPoint} (htime : p.localTime = q.localTime) :
    (∀ timestamp, p.frameTime inputRate timestamp = q.frameTime inputRate timestamp) ↔
      p.rtptime = q.rtptime := by
  constructor
  · intro h
    by_contra hne
    have hδ : p.rtptime - q.rtptime ≠ 0 := by
      intro h0
      exact hne (by bv_omega)
    have hperiod : ∀ x, frameDifferenceToTime inputRate (x + (p.rtptime - q.rtptime)) =
        frameDifferenceToTime inputRate x := by
      intro x
      have hx := h (x + p.rtptime)
      unfold AnchorPoint.frameTime at hx
      rw [htime, BitVec.add_sub_cancel, BitVec.add_right_inj] at hx
      rw [hx, BitVec.sub_eq_add_neg, BitVec.sub_eq_add_neg, BitVec.add_assoc]
    refine frameDifferenceToTime_half_ne_zero hrate ?_
    rw [apply_half_of_periodic hδ hperiod, frameDifferenceToTime_zero]
  · intro h timestamp
    unfold AnchorPoint.frameTime
    rw [htime, h]

/-! ## Sessions -/

/-- A connection's anchor and the anchor messages received since the last reset, the latest
first. -/
structure Session where
  conn : AnchorInfo
  received : List AnchorMessage

def Session.start : Session where
  conn := .fresh
  received := []

inductive Call where
  | setPtpAnchorInfo (m : AnchorMessage) (timeNow : Nanoseconds)
  | resetPtpAnchorInfo
  | getPtpAnchorLocalTimeInfo (rd : ClockReading)

def Session.call (s : Session) : Call → Session
  | .setPtpAnchorInfo m timeNow =>
      { conn := setPtpAnchorInfo m timeNow s.conn, received := m :: s.received }
  | .resetPtpAnchorInfo => { conn := resetPtpAnchorInfo s.conn, received := [] }
  | .getPtpAnchorLocalTimeInfo rd => { s with conn := s.conn.afterGet rd }

def step (s : Session) (c : Call) : Option Session := some (s.call c)

def FixedOffset (offset : ClockId → BitVec 64) : Call → Prop
  | .getPtpAnchorLocalTimeInfo rd =>
      (ptpGetClockInfo rd.nqptp).1 = .clockOk →
        (ptpGetClockInfo rd.nqptp).2.rawOffset =
          offset (ptpGetClockInfo rd.nqptp).2.actualClockId
  | _ => True

instance (offset : ClockId → BitVec 64) : DecidablePred (FixedOffset offset)
  | .getPtpAnchorLocalTimeInfo _ => inferInstanceAs (Decidable (_ → _))
  | .setPtpAnchorInfo _ _ => isTrue trivial
  | .resetPtpAnchorInfo => isTrue trivial

section Offset

variable (offset : ClockId → BitVec 64)

def AnchorMessage.point (m : AnchorMessage) : AnchorPoint :=
  ⟨m.rtptime, m.networktime - offset m.clockId⟩

def AnchorInfo.anchor (conn : AnchorInfo) : AnchorPoint :=
  ⟨conn.anchorRtptime, conn.anchorTime - offset conn.anchorClock⟩

/-- Each valid anchor of the connection, its frame and its time together, is the point of one
of the messages. -/
def OnePoint (s : Session) : Prop :=
  (s.conn.anchorRemoteInfoIsValid = true →
    s.conn.anchor offset ∈ s.received.map (AnchorMessage.point offset)) ∧
  (s.conn.lastAnchorInfoIsValid = true →
    s.conn.lastAnchor ∈ s.received.map (AnchorMessage.point offset))

/-- The call moves the anchor to another clock. -/
def Rebases (rd : ClockReading) (conn : AnchorInfo) : Prop :=
  (conn.afterGet rd).anchorClock ≠ conn.anchorClock

/-- If the call moves the anchor to another clock, the moved anchor gives the local time to
every frame that the last valid anchor gave to it. -/
def ContinuousAtRebase (inputRate : BitVec 32) (s : Session) : Call → Prop
  | .getPtpAnchorLocalTimeInfo rd =>
      Rebases rd s.conn → ∀ timestamp,
        ((s.conn.afterGet rd).anchor offset).frameTime inputRate timestamp =
          s.conn.lastAnchor.frameTime inputRate timestamp
  | _ => True

end Offset

/-- If the call moves the anchor to another clock, the frame of the anchor is still the one of
the last valid anchor. -/
def SameRtptimeAtRebase (s : Session) : Call → Prop
  | .getPtpAnchorLocalTimeInfo rd =>
      Rebases rd s.conn → s.conn.anchorRtptime = s.conn.lastAnchorRtptime
  | _ => True

instance (rd : ClockReading) (conn : AnchorInfo) : Decidable (Rebases rd conn) :=
  inferInstanceAs (Decidable (_ ≠ _))

instance (s : Session) : DecidablePred (SameRtptimeAtRebase s)
  | .getPtpAnchorLocalTimeInfo _ => inferInstanceAs (Decidable (_ → _))
  | .setPtpAnchorInfo _ _ => isTrue trivial
  | .resetPtpAnchorInfo => isTrue trivial

/-! ## Steps and runs -/

section Steps

variable {offset : ClockId → BitVec 64} {inputRate : BitVec 32}

theorem afterGet_eq (rd : ClockReading) (conn : AnchorInfo) :
    conn.afterGet rd =
      { (readAnchor rd conn).2 with clockStatus := (readAnchor rd conn).1 } := rfl

/-- What `get_ptp_anchor_local_time_info` can do to the connection: nothing but note the
clock status, record the anchor as the last valid one, or move it to the new clock. -/
theorem afterGet_cases (rd : ClockReading) (conn : AnchorInfo) :
    (∃ response, conn.afterGet rd = { conn with clockStatus := response }) ∨
    (∃ clock, ptpGetClockInfo rd.nqptp = (.clockOk, clock) ∧
      conn.anchorRemoteInfoIsValid = true ∧ clock.actualClockId = conn.anchorClock ∧
      conn.afterGet rd =
        { conn with
          lastAnchorRtptime := conn.anchorRtptime
          lastAnchorLocalTime := conn.anchorTime - clock.rawOffset
          lastAnchorTimeOfUpdate := rd.timeNow
          lastAnchorValidityStartTime :=
            if conn.lastAnchorInfoIsValid then conn.lastAnchorValidityStartTime
            else clock.mastershipStartTime
          lastAnchorInfoIsValid := true
          clockStatus := .clockOk }) ∨
    (∃ clock, ptpGetClockInfo rd.nqptp = (.clockOk, clock) ∧
      conn.lastAnchorInfoIsValid = true ∧ clock.actualClockId ≠ conn.anchorClock ∧
      conn.afterGet rd =
        { conn with
          anchorTime := conn.lastAnchorLocalTime + clock.rawOffset
          anchorClock := clock.actualClockId
          clockStatus := .clockOk }) := by
  rw [afterGet_eq]
  unfold readAnchor
  split
  · exact Or.inl ⟨_, rfl⟩
  · rcases hclock : ptpGetClockInfo rd.nqptp with ⟨response, clock⟩
    dsimp only
    split
    · rename_i hok
      subst hok
      split
      · rename_i hremote
        unfold followMasterClock
        split
        · rename_i hsame
          exact Or.inr (Or.inl ⟨clock, rfl, hremote, hsame, rfl⟩)
        · rename_i hother
          split
          · rename_i hlast
            split
            · exact Or.inr (Or.inr ⟨clock, rfl, hlast, hother, rfl⟩)
            · exact Or.inl ⟨_, rfl⟩
          · exact Or.inl ⟨_, rfl⟩
      · exact Or.inl ⟨_, rfl⟩
    · exact Or.inl ⟨_, rfl⟩

/-- The moved anchor has the time of the last valid anchor and the frame of the current one. -/
theorem anchor_afterGet_of_rebases {rd : ClockReading} {conn : AnchorInfo}
    (hoffset : FixedOffset offset (.getPtpAnchorLocalTimeInfo rd)) (h : Rebases rd conn) :
    conn.lastAnchorInfoIsValid = true ∧
      (conn.afterGet rd).anchor offset = ⟨conn.anchorRtptime, conn.lastAnchorLocalTime⟩ ∧
      (conn.afterGet rd).lastAnchor = conn.lastAnchor := by
  obtain ⟨response, heq⟩ | ⟨clock, -, -, -, heq⟩ | ⟨clock, hclock, hlast, -, heq⟩ :=
    afterGet_cases rd conn
  · exact absurd (congrArg AnchorInfo.anchorClock heq) h
  · exact absurd (congrArg AnchorInfo.anchorClock heq) h
  · have hraw : clock.rawOffset = offset clock.actualClockId := by
      simpa only [FixedOffset, hclock, forall_const] using hoffset
    refine ⟨hlast, ?_, heq ▸ rfl⟩
    rw [heq, AnchorInfo.anchor, hraw, BitVec.add_sub_cancel]

/-- A call that leaves the anchor on its clock leaves its point; the last valid anchor is kept
or is that point. -/
theorem anchor_afterGet_of_not_rebases {rd : ClockReading} {conn : AnchorInfo}
    (hoffset : FixedOffset offset (.getPtpAnchorLocalTimeInfo rd)) (h : ¬ Rebases rd conn) :
    (conn.afterGet rd).anchor offset = conn.anchor offset ∧
      ((conn.afterGet rd).lastAnchorInfoIsValid = conn.lastAnchorInfoIsValid ∧
          (conn.afterGet rd).lastAnchor = conn.lastAnchor ∨
        conn.anchorRemoteInfoIsValid = true ∧
          (conn.afterGet rd).lastAnchor = conn.anchor offset) := by
  obtain ⟨response, heq⟩ | ⟨clock, hclock, hremote, hsame, heq⟩ | ⟨clock, -, -, hother, heq⟩ :=
    afterGet_cases rd conn
  · exact ⟨heq ▸ rfl, Or.inl ⟨heq ▸ rfl, heq ▸ rfl⟩⟩
  · have hraw : clock.rawOffset = offset conn.anchorClock := by
      simpa only [FixedOffset, hclock, forall_const, hsame] using hoffset
    refine ⟨heq ▸ rfl, Or.inr ⟨hremote, ?_⟩⟩
    rw [heq, AnchorInfo.lastAnchor, AnchorInfo.anchor, hraw]
  · exact absurd ((congrArg AnchorInfo.anchorClock heq).trans_ne hother) h

theorem afterGet_anchorRemoteInfoIsValid (rd : ClockReading) (conn : AnchorInfo) :
    (conn.afterGet rd).anchorRemoteInfoIsValid = conn.anchorRemoteInfoIsValid := by
  obtain ⟨_, heq⟩ | ⟨_, -, -, -, heq⟩ | ⟨_, -, -, -, heq⟩ := afterGet_cases rd conn <;>
    exact heq ▸ rfl

/-- A call keeps the anchors on the points of the messages, if the frame is the same whenever
the anchor is moved. -/
theorem OnePoint.call {s : Session} {c : Call} (h : OnePoint offset s)
    (hoffset : FixedOffset offset c) (hsame : SameRtptimeAtRebase s c) :
    OnePoint offset (s.call c) := by
  obtain ⟨hanchor, hlast⟩ := h
  cases c with
  | setPtpAnchorInfo m timeNow =>
      refine ⟨fun _ => List.mem_cons_self, fun hvalid => List.mem_cons_of_mem _ (hlast ?_)⟩
      simp only [Session.call, setPtpAnchorInfo] at hvalid
      split at hvalid
      · exact absurd hvalid Bool.false_ne_true
      · exact hvalid
  | resetPtpAnchorInfo =>
      exact ⟨fun hvalid => absurd hvalid Bool.false_ne_true,
        fun hvalid => absurd hvalid Bool.false_ne_true⟩
  | getPtpAnchorLocalTimeInfo rd =>
      by_cases hrebases : Rebases rd s.conn
      · obtain ⟨hvalid, hmoved, hkept⟩ := anchor_afterGet_of_rebases hoffset hrebases
        have hmem := hlast hvalid
        refine ⟨fun _ => ?_, fun _ => ?_⟩
        · change (s.conn.afterGet rd).anchor offset ∈ _
          rw [hmoved, hsame hrebases]
          exact hmem
        · change (s.conn.afterGet rd).lastAnchor ∈ _
          rw [hkept]
          exact hmem
      · obtain ⟨hunmoved, hrecord⟩ := anchor_afterGet_of_not_rebases hoffset hrebases
        refine ⟨fun hvalid => ?_, fun hvalid => ?_⟩
        · change (s.conn.afterGet rd).anchor offset ∈ _
          rw [hunmoved]
          exact hanchor ((afterGet_anchorRemoteInfoIsValid rd s.conn).symm.trans hvalid)
        · change (s.conn.afterGet rd).lastAnchor ∈ _
          obtain ⟨hflag, hkept⟩ | ⟨hremote, hrecorded⟩ := hrecord
          · rw [hkept]
            exact hlast (hflag.symm.trans hvalid)
          · rw [hrecorded]
            exact hanchor hremote

/-- A call that moves the anchor keeps the local time of every frame exactly if the anchor's
frame is still the one of the last valid anchor. -/
theorem continuousAtRebase_iff (hrate : inputRate ≠ 0) {s : Session} {c : Call}
    (hoffset : FixedOffset offset c) :
    ContinuousAtRebase offset inputRate s c ↔ SameRtptimeAtRebase s c := by
  cases c with
  | setPtpAnchorInfo m timeNow => exact Iff.rfl
  | resetPtpAnchorInfo => exact Iff.rfl
  | getPtpAnchorLocalTimeInfo rd =>
      refine forall_congr' fun hrebases => ?_
      obtain ⟨-, hmoved, -⟩ := anchor_afterGet_of_rebases hoffset hrebases
      rw [hmoved]
      exact AnchorPoint.frameTime_eq_iff hrate rfl

end Steps

/-- In every session, the anchor keeps the local time of every frame whenever it is moved to a
new master clock, and no anchor mixes two points, exactly if the frame of the anchor is the
one of the last valid anchor whenever it is moved. -/
theorem anchor_continuity_iff (offset : ClockId → BitVec 64) (inputRate : BitVec 32)
    (hrate : inputRate ≠ 0) (calls : List Call)
    (hoffset : Along step (fun _ c => FixedOffset offset c) .start calls) :
    (Along step (ContinuousAtRebase offset inputRate) .start calls ∧
        Throughout step (OnePoint offset) .start calls) ↔
      Along step SameRtptimeAtRebase .start calls := by
  constructor
  · rintro ⟨hcontinuous, -⟩
    exact (hoffset.and hcontinuous).mono fun s c h => (continuousAtRebase_iff hrate h.1).mp h.2
  · intro hsame
    refine ⟨(hoffset.and hsame).mono fun s c h => (continuousAtRebase_iff hrate h.1).mpr h.2, ?_⟩
    refine throughout_of_step ?_ ?_ (hoffset.and hsame)
    · rintro s c t h ⟨hoffset, hsame⟩ hstep
      obtain rfl := Option.some.inj hstep
      exact h.call hoffset hsame
    · exact ⟨fun hvalid => absurd hvalid Bool.false_ne_true,
        fun hvalid => absurd hvalid Bool.false_ne_true⟩

/-- A reading of the clock `clockId`, master from the start, at `seconds`. -/
def ClockReading.at (clockId : ClockId) (offset : BitVec 64) (seconds : Nanoseconds) :
    ClockReading where
  rtspLinkIsIdle := false
  nqptp := some
    { version := nqptpShmStructuresVersion
      masterClockId := clockId
      localTime := seconds * 1000000000
      localToMasterTimeOffset := offset
      masterClockStartTime := 0 }
  timeNow := seconds * 1000000000
  timeAtUpdateCheck := seconds * 1000000000

theorem anchor_continuity_of_one_message :
    Along step (ContinuousAtRebase (fun c => c * 1000) 44100) .start
        [.setPtpAnchorInfo ⟨1, 44100, 2000001000⟩ 1000000000,
          .getPtpAnchorLocalTimeInfo (.at 1 1000 10),
          .getPtpAnchorLocalTimeInfo (.at 2 2000 20)] ∧
      Throughout step (OnePoint fun c => c * 1000) .start
        [.setPtpAnchorInfo ⟨1, 44100, 2000001000⟩ 1000000000,
          .getPtpAnchorLocalTimeInfo (.at 1 1000 10),
          .getPtpAnchorLocalTimeInfo (.at 2 2000 20)] :=
  (anchor_continuity_iff _ 44100 (by decide) _ (by decide)).mpr (by decide)

/-- A message that comes after the anchor was last converted: the call that moves the anchor
takes its frame, and the time of the anchor before it. -/
theorem anchor_discontinuous_after_message :
    ¬ ∀ (offset : ClockId → BitVec 64) (inputRate : BitVec 32), inputRate ≠ 0 →
      ∀ calls : List Call, Along step (fun _ c => FixedOffset offset c) .start calls →
        Along step (ContinuousAtRebase offset inputRate) .start calls ∧
          Throughout step (OnePoint offset) .start calls := by
  intro h
  have hcontinuous := (h (fun c => c * 1000) 44100 (by decide)
    [.setPtpAnchorInfo ⟨1, 44100, 2000001000⟩ 1000000000,
      .getPtpAnchorLocalTimeInfo (.at 1 1000 10),
      .setPtpAnchorInfo ⟨1, 88200, 9000001000⟩ 11000000000,
      .getPtpAnchorLocalTimeInfo (.at 2 2000 20)] (by decide)).1
  have hmoved := ((((hcontinuous _ rfl).2 _ rfl).2 _ rfl).2 _ rfl).1 (by decide) 44100
  exact absurd hmoved (by decide)

end Rtp

end ShairportSync
