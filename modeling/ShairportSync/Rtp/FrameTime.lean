import Mathlib.Data.BitVec
import ShairportSync.Numeric.Rescale
import ShairportSync.Rtp.PtpAnchor

/-!
# Frames and local time

`frame_to_local_time` says at which local time a frame is due, and `local_time_to_frame`
which frame is due at a local time. Both start from the anchor, the frame and the local time
it is due at: the PTP clock gives it as a whole, and in NTP mode it is the time of the sync
packet less the current difference between the clocks. A frame is as far from the anchor as
the signed 32-bit difference says, a time as far as the signed 64-bit difference says.
-/

namespace ShairportSync

namespace Rtp

open Player
open Numeric

/-! ## The conversions -/

inductive TimingType where
  | tsNtp
  | tsPtp
deriving DecidableEq

/-- The fields of `rtsp_conn_info` that the conversions read. -/
structure TimingConn where
  anchor : AnchorInfo
  timingType : TimingType
  inputRate : BitVec 32

/-- What a conversion reads beside the connection: the PTP clock, or
`local_to_remote_time_difference_now`. -/
structure TimingReading where
  clock : ClockReading
  localToRemoteTimeDifferenceNow : BitVec 64

def frameToNtpLocalTime (timestamp : RtpTime) (rd : TimingReading) (conn : AnchorInfo) :
    Option Nanoseconds :=
  if conn.anchorRemoteInfoIsValid then
    let timestampInterval := timestamp - conn.anchorRtptime
    let remoteTimeOfTimestamp := conn.anchorTime + frameDifferenceToTime 44100 timestampInterval
    some (remoteTimeOfTimestamp - rd.localToRemoteTimeDifferenceNow)
  else none

def timeDifferenceToFrames (inputRate : BitVec 32) (timeDifference : BitVec 64) : BitVec 32 :=
  BitVec.ofInt 32 ((timeDifference * inputRate.setWidth 64).toInt.tdiv 1000000000)

def localNtpTimeToFrame (time : Nanoseconds) (rd : TimingReading) (conn : AnchorInfo) :
    Option RtpTime :=
  if conn.anchorRemoteInfoIsValid then
    let remoteTime := time + rd.localToRemoteTimeDifferenceNow
    let offset := remoteTime - conn.anchorTime
    some (conn.anchorRtptime + timeDifferenceToFrames 44100 offset)
  else none

def AnchorPoint.timeFrame (inputRate : BitVec 32) (p : AnchorPoint)
    (time : Nanoseconds) : RtpTime :=
  p.rtptime + timeDifferenceToFrames inputRate (time - p.localTime)

def localPtpTimeToFrame (inputRate : BitVec 32) (time : Nanoseconds) (rd : ClockReading)
    (conn : AnchorInfo) : AnchorInfo × Option RtpTime :=
  let (response, conn, anchor) := getPtpAnchorLocalTimeInfo rd conn
  (conn,
    if response = .clockOk then some ((anchor.getD ⟨0, 0⟩).timeFrame inputRate time) else none)

def frameToLocalTime (timestamp : RtpTime) (rd : TimingReading) (conn : TimingConn) :
    TimingConn × Option Nanoseconds :=
  match conn.timingType with
  | .tsPtp =>
      let (anchor, time) := frameToPtpLocalTime conn.inputRate timestamp rd.clock conn.anchor
      ({ conn with anchor := anchor }, time)
  | .tsNtp => (conn, frameToNtpLocalTime timestamp rd conn.anchor)

def localTimeToFrame (time : Nanoseconds) (rd : TimingReading) (conn : TimingConn) :
    TimingConn × Option RtpTime :=
  match conn.timingType with
  | .tsPtp =>
      let (anchor, frame) := localPtpTimeToFrame conn.inputRate time rd.clock conn.anchor
      ({ conn with anchor := anchor }, frame)
  | .tsNtp => (conn, localNtpTimeToFrame time rd conn.anchor)

/-! ## The anchor of a conversion -/

/-- The conversion works with this anchor point, at this rate. -/
structure SeesAnchor (rd : TimingReading) (conn : TimingConn) (p : AnchorPoint)
    (rate : BitVec 32) : Prop where
  ptp : conn.timingType = .tsPtp → (readAnchor rd.clock conn.anchor).1 = .clockOk ∧
    (conn.anchor.afterGet rd.clock).lastAnchor = p ∧ conn.inputRate = rate
  ntp : conn.timingType = .tsNtp → conn.anchor.anchorRemoteInfoIsValid = true ∧
    ⟨conn.anchor.anchorRtptime,
      conn.anchor.anchorTime - rd.localToRemoteTimeDifferenceNow⟩ = p ∧ 44100 = rate

section Anchor

variable {rd : TimingReading} {conn : TimingConn} {p : AnchorPoint} {rate : BitVec 32}

theorem localPtpTimeToFrame_of_clockOk {inputRate : BitVec 32} {time : Nanoseconds}
    {rd : ClockReading} {conn : AnchorInfo} (hok : (readAnchor rd conn).1 = .clockOk) :
    (localPtpTimeToFrame inputRate time rd conn).2 =
      some ((conn.afterGet rd).lastAnchor.timeFrame inputRate time) := by
  unfold localPtpTimeToFrame AnchorInfo.afterGet getPtpAnchorLocalTimeInfo
  simp [hok, readAnchor_lastAnchorInfoIsValid hok, AnchorInfo.lastAnchor]

theorem SeesAnchor.frameToLocalTime (h : SeesAnchor rd conn p rate) (timestamp : RtpTime) :
    (frameToLocalTime timestamp rd conn).2 = some (p.frameTime rate timestamp) := by
  unfold Rtp.frameToLocalTime
  cases htype : conn.timingType with
  | tsPtp =>
      obtain ⟨hok, rfl, rfl⟩ := h.ptp htype
      exact frameToPtpLocalTime_eq_some_iff.mpr ⟨hok, rfl⟩
  | tsNtp =>
      obtain ⟨hvalid, rfl, rfl⟩ := h.ntp htype
      dsimp only
      rw [frameToNtpLocalTime, if_pos hvalid, AnchorPoint.frameTime]
      exact congrArg some (by ring)

theorem SeesAnchor.localTimeToFrame (h : SeesAnchor rd conn p rate) (time : Nanoseconds) :
    (localTimeToFrame time rd conn).2 = some (p.timeFrame rate time) := by
  unfold Rtp.localTimeToFrame
  cases htype : conn.timingType with
  | tsPtp =>
      obtain ⟨hok, rfl, rfl⟩ := h.ptp htype
      exact localPtpTimeToFrame_of_clockOk hok
  | tsNtp =>
      obtain ⟨hvalid, rfl, rfl⟩ := h.ntp htype
      dsimp only
      rw [localNtpTimeToFrame, if_pos hvalid, AnchorPoint.timeFrame]
      dsimp only
      congr 3
      ring

end Anchor

/-! ## Order, round trips and overflow -/

def FitsInt64 (x : ℤ) : Prop := -2 ^ 63 ≤ x ∧ x < 2 ^ 63

namespace AnchorPoint

def exactFrameTime (rate : BitVec 32) (p : AnchorPoint) (timestamp : RtpTime) : ℤ :=
  p.localTime.toNat + rescale 1000000000 rate.toNat (timestamp - p.rtptime).toInt

/-- The time is within 2^31 frames of the anchor. -/
def Near (rate : BitVec 32) (p : AnchorPoint) (time : Nanoseconds) : Prop :=
  |(time - p.localTime).toInt| * rate.toNat < 2 ^ 31 * 1000000000

end AnchorPoint

section AnchorPoint

variable {p : AnchorPoint} {rate : BitVec 32}

theorem abs_toInt_le (x : BitVec 32) : |x.toInt| ≤ 2 ^ 31 := by
  have hle := x.le_toInt
  have hlt := x.toInt_lt
  rw [abs_le]
  constructor <;> omega

theorem fitsInt64_mul (x : BitVec 32) : FitsInt64 (x.toInt * 1000000000) := by
  have hle := x.le_toInt
  have hlt := x.toInt_lt
  constructor <;> omega

theorem fitsInt64_of_abs_le {x : ℤ} (hx : |x| ≤ 2 ^ 31 * 1000000000) : FitsInt64 x := by
  rw [abs_le] at hx
  constructor <;> omega

theorem toInt_ofInt_of_fits {x : ℤ} (hx : FitsInt64 x) : (BitVec.ofInt 64 x).toInt = x :=
  BitVec.toInt_ofInt_eq_self (by decide) hx.1 hx.2

theorem rate_pos (hrate : 0 < rate) : (0 : ℤ) < rate.toNat := by
  have hpos : 0 < rate.toNat := hrate
  omega

theorem rate_le (hrate' : rate.toNat ≤ 1000000000) : (rate.toNat : ℤ) ≤ 1000000000 := by
  exact_mod_cast hrate'

/-- As far as the anchor is away in frames, so far it is in time. -/
theorem abs_rescale_mul_rate_le (rate x : BitVec 32) :
    |rescale 1000000000 rate.toNat x.toInt| * rate.toNat ≤ 2 ^ 31 * 1000000000 :=
  (abs_rescale_mul_le (by decide) (Int.natCast_nonneg _) _).trans
    (mul_le_mul_of_nonneg_right (abs_toInt_le x) (by decide))

theorem fitsInt64_rescale (hrate : 0 < rate) (x : BitVec 32) :
    FitsInt64 (rescale 1000000000 rate.toNat x.toInt) := by
  have hmul := abs_rescale_mul_rate_le rate x
  have hpos := rate_pos hrate
  refine fitsInt64_of_abs_le (le_trans ?_ hmul)
  exact le_mul_of_one_le_right (abs_nonneg _) hpos

theorem toInt_frameTime_sub (hrate : 0 < rate) (f : RtpTime) :
    (p.frameTime rate f - p.localTime).toInt =
      rescale 1000000000 rate.toNat (f - p.rtptime).toInt := by
  rw [AnchorPoint.frameTime, add_sub_cancel_left]
  exact toInt_ofInt_of_fits (fitsInt64_rescale hrate _)

theorem abs_frameTime_sub_mul_le (hrate : 0 < rate) (f : RtpTime) :
    |(p.frameTime rate f - p.localTime).toInt| * rate.toNat ≤ 2 ^ 31 * 1000000000 := by
  rw [toInt_frameTime_sub hrate]
  exact abs_rescale_mul_rate_le _ _

theorem fitsInt64_mul_rate {d : BitVec 64}
    (hd : |d.toInt| * rate.toNat ≤ 2 ^ 31 * 1000000000) : FitsInt64 (d.toInt * rate.toNat) := by
  refine fitsInt64_of_abs_le ?_
  rwa [abs_mul, abs_of_nonneg (Int.natCast_nonneg rate.toNat)]

theorem timeDifferenceToFrames_eq {d : BitVec 64}
    (hd : |d.toInt| * rate.toNat ≤ 2 ^ 31 * 1000000000) :
    timeDifferenceToFrames rate d = BitVec.ofInt 32 (rescale rate.toNat 1000000000 d.toInt) := by
  have hrate : (rate.setWidth 64).toInt = rate.toNat := by
    have hlt := rate.isLt
    rw [BitVec.toInt_eq_toNat_of_lt] <;> rw [BitVec.toNat_setWidth, Nat.mod_eq_of_lt] <;> omega
  have hproduct : (d * rate.setWidth 64).toInt = d.toInt * rate.toNat := by
    have hfits := fitsInt64_mul_rate hd
    rw [← toInt_ofInt_of_fits hfits, BitVec.ofInt_mul, BitVec.ofInt_toInt, ← hrate,
      BitVec.ofInt_toInt]
  rw [timeDifferenceToFrames, hproduct, rescale]

theorem frameTime_sub_lt (hrate : 0 < rate) (hrate' : rate.toNat ≤ 1000000000) {f g : RtpTime}
    (hfg : (f - p.rtptime).toInt < (g - p.rtptime).toInt) :
    (p.frameTime rate f - p.localTime).toInt < (p.frameTime rate g - p.localTime).toInt := by
  rw [toInt_frameTime_sub hrate, toInt_frameTime_sub hrate]
  exact rescale_lt (rate_pos hrate) (rate_le hrate') hfg

theorem ofInt_sub_toInt {w : ℕ} (x : ℤ) (y : BitVec w) :
    BitVec.ofInt w (x - y.toInt) = BitVec.ofInt w x - y := by
  rw [sub_eq_add_neg, BitVec.ofInt_add, BitVec.ofInt_neg, BitVec.ofInt_toInt, ← sub_eq_add_neg]

theorem toNat_frameTime {f : RtpTime} (hle : 0 ≤ p.exactFrameTime rate f)
    (hlt : p.exactFrameTime rate f < 2 ^ 64) :
    ((p.frameTime rate f).toNat : ℤ) = p.exactFrameTime rate f := by
  have hdistance : frameDifferenceToTime rate (f - p.rtptime) =
      BitVec.ofInt 64 (rescale 1000000000 rate.toNat (f - p.rtptime).toInt) := rfl
  have htime : p.frameTime rate f = BitVec.ofInt 64 (p.exactFrameTime rate f) := by
    rw [AnchorPoint.frameTime, hdistance, AnchorPoint.exactFrameTime, BitVec.ofInt_add,
      BitVec.ofInt_natCast, BitVec.ofNat_toNat, BitVec.setWidth_eq]
  rw [htime, BitVec.toNat_ofInt, Int.emod_eq_of_lt hle (by exact_mod_cast hlt),
    Int.toNat_of_nonneg hle]

/-- Where no local time is taken modulo 2^64, it is strictly increasing as a number. -/
theorem frameTime_lt (hrate : 0 < rate) (hrate' : rate.toNat ≤ 1000000000) {f g : RtpTime}
    (hfg : (f - p.rtptime).toInt < (g - p.rtptime).toInt)
    (hle : 0 ≤ p.exactFrameTime rate f) (hlt : p.exactFrameTime rate g < 2 ^ 64) :
    p.frameTime rate f < p.frameTime rate g := by
  have hexact : p.exactFrameTime rate f < p.exactFrameTime rate g :=
    add_lt_add_right (rescale_lt (rate_pos hrate) (rate_le hrate') hfg) _
  have hf := toNat_frameTime hle (hexact.trans hlt)
  have hg := toNat_frameTime (hle.trans hexact.le) hlt
  rw [BitVec.lt_def]
  omega

theorem timeFrame_frameTime (hrate : 0 < rate) (hrate' : rate.toNat ≤ 1000000000) (f : RtpTime) :
    ∃ k : ℤ, |k| ≤ 1 ∧ p.timeFrame rate (p.frameTime rate f) = f + BitVec.ofInt 32 k := by
  refine ⟨_, abs_rescale_rescale_sub_le (rate_pos hrate) (rate_le hrate')
    (f - p.rtptime).toInt, ?_⟩
  rw [AnchorPoint.timeFrame, timeDifferenceToFrames_eq (abs_frameTime_sub_mul_le hrate f),
    toInt_frameTime_sub hrate, ofInt_sub_toInt]
  ring

theorem toInt_timeFrame_sub {t : Nanoseconds} (ht : p.Near rate t) :
    (p.timeFrame rate t - p.rtptime).toInt =
      rescale rate.toNat 1000000000 (t - p.localTime).toInt := by
  rw [AnchorPoint.timeFrame, timeDifferenceToFrames_eq ht.le, add_sub_cancel_left]
  have hmul := abs_rescale_mul_le (a := rate.toNat) (b := 1000000000)
    (Int.natCast_nonneg _) (by decide) (t - p.localTime).toInt
  have habs : |rescale rate.toNat 1000000000 (t - p.localTime).toInt| < 2 ^ 31 :=
    lt_of_mul_lt_mul_right (hmul.trans_lt ht) (by decide)
  rw [abs_lt] at habs
  exact BitVec.toInt_ofInt_eq_self (by decide) (by omega) (by omega)

theorem abs_frameTime_timeFrame_sub_mul_lt (hrate : 0 < rate) (hrate' : rate.toNat ≤ 1000000000)
    {t : Nanoseconds} (ht : p.Near rate t) :
    |(p.frameTime rate (p.timeFrame rate t) - t).toInt| * rate.toNat < 2 * 1000000000 := by
  have hnear := abs_rescale_rescale_sub_mul_lt (rate_pos hrate) (rate_le hrate')
    (t - p.localTime).toInt
  have hsub : p.frameTime rate (p.timeFrame rate t) - t =
      BitVec.ofInt 64 (rescale 1000000000 rate.toNat
        (rescale rate.toNat 1000000000 (t - p.localTime).toInt) - (t - p.localTime).toInt) := by
    rw [ofInt_sub_toInt, ← toInt_timeFrame_sub ht,
      ← toInt_frameTime_sub hrate, BitVec.ofInt_toInt]
    ring
  rw [hsub, toInt_ofInt_of_fits]
  · exact hnear
  · refine fitsInt64_of_abs_le ((le_mul_of_one_le_right (abs_nonneg _) (rate_pos hrate)).trans ?_)
    exact hnear.le.trans (by decide)

end AnchorPoint

/-- What the conversions of one anchor do, `toTime` and `toFrame` in one call and `toTime'` and
`toFrame'` in another. -/
structure Converts (toTime toTime' : RtpTime → Option Nanoseconds)
    (toFrame toFrame' : Nanoseconds → Option RtpTime) (p : AnchorPoint) (rate : BitVec 32) :
    Prop where
  increasing : ∀ f g, (f - p.rtptime).toInt < (g - p.rtptime).toInt →
    ∃ tf tg, toTime f = some tf ∧ toTime' g = some tg ∧
      (tf - p.localTime).toInt < (tg - p.localTime).toInt ∧
        (0 ≤ p.exactFrameTime rate f → p.exactFrameTime rate g < 2 ^ 64 → tf < tg)
  frame_time_frame : ∀ f, ∃ t, ∃ k : ℤ, toTime f = some t ∧
    toFrame' t = some (f + BitVec.ofInt 32 k) ∧ |k| ≤ 1
  time_frame_time : ∀ t, p.Near rate t → ∃ f t', toFrame t = some f ∧ toTime' f = some t' ∧
    |(t' - t).toInt| * rate.toNat < 2 * 1000000000

/-- No signed 64-bit product of the conversions overflows: from a frame to a time, from a time near
the anchor to a frame, and from the time of a frame to a frame. -/
structure NoOverflow (p : AnchorPoint) (rate : BitVec 32) : Prop where
  frame_time : ∀ f : RtpTime, FitsInt64 ((f - p.rtptime).toInt * 1000000000)
  time_frame : ∀ t, p.Near rate t → FitsInt64 ((t - p.localTime).toInt * rate.toNat)
  frame_time_frame : ∀ f, FitsInt64 ((p.frameTime rate f - p.localTime).toInt * rate.toNat)

section Conversions

variable {rd rd' : TimingReading} {conn conn' : TimingConn} {p : AnchorPoint} {rate : BitVec 32}

/-- Two calls that work with the same anchor, whatever else has changed between them. Local time is
strictly increasing as a signed distance from the anchor's, and as a number where it is not taken
modulo 2^64; there and back there is at most one frame's difference, back and there less than two;
and no signed 64-bit product overflows. -/
theorem conversions_of_one_anchor (h : SeesAnchor rd conn p rate) (h' : SeesAnchor rd' conn' p rate)
    (hrate : 0 < rate) (hrate' : rate.toNat ≤ 1000000000) :
    Converts (fun f => (frameToLocalTime f rd conn).2) (fun f => (frameToLocalTime f rd' conn').2)
        (fun t => (localTimeToFrame t rd conn).2) (fun t => (localTimeToFrame t rd' conn').2)
        p rate ∧
      NoOverflow p rate := by
  refine ⟨⟨fun f g hfg => ?_, fun f => ?_, fun t ht => ?_⟩,
    ⟨fun f => ?_, fun t ht => ?_, fun f => ?_⟩⟩
  · exact ⟨_, _, h.frameToLocalTime f, h'.frameToLocalTime g, frameTime_sub_lt hrate hrate' hfg,
      frameTime_lt hrate hrate' hfg⟩
  · obtain ⟨k, hk, hframe⟩ := timeFrame_frameTime (p := p) hrate hrate' f
    exact ⟨_, k, h.frameToLocalTime f, (h'.localTimeToFrame _).trans (congrArg some hframe), hk⟩
  · exact ⟨_, _, h.localTimeToFrame t, h'.frameToLocalTime _,
      abs_frameTime_timeFrame_sub_mul_lt hrate hrate' ht⟩
  · exact fitsInt64_mul _
  · exact fitsInt64_mul_rate ht.le
  · exact fitsInt64_mul_rate (abs_frameTime_sub_mul_le hrate f)

end Conversions

def anchorAtOneHour : TimingConn where
  anchor := { AnchorInfo.fresh with
    anchorRemoteInfoIsValid := true
    anchorTime := 3600000000000
    anchorRtptime := 0 }
  timingType := .tsNtp
  inputRate := 44100

def sameClocks : TimingReading where
  clock := ⟨false, none, 0, 0⟩
  localToRemoteTimeDifferenceNow := 0

theorem anchorAtOneHour_seesAnchor :
    SeesAnchor sameClocks anchorAtOneHour ⟨0, 3600000000000⟩ 44100 :=
  ⟨fun htype => TimingType.noConfusion htype, fun _ => ⟨rfl, rfl, rfl⟩⟩

theorem conversions_of_anchorAtOneHour :
    Converts (fun f => (frameToLocalTime f sameClocks anchorAtOneHour).2)
        (fun f => (frameToLocalTime f sameClocks anchorAtOneHour).2)
        (fun t => (localTimeToFrame t sameClocks anchorAtOneHour).2)
        (fun t => (localTimeToFrame t sameClocks anchorAtOneHour).2)
        ⟨0, 3600000000000⟩ 44100 ∧
      NoOverflow ⟨0, 3600000000000⟩ 44100 :=
  conversions_of_one_anchor anchorAtOneHour_seesAnchor anchorAtOneHour_seesAnchor (by decide)
    (by decide)

/-- A frame that was due before the local clock began has the greater local time. -/
theorem frameToLocalTime_not_increasing :
    ¬ ∀ (rd rd' : TimingReading) (conn conn' : TimingConn) (p : AnchorPoint) (rate : BitVec 32),
      SeesAnchor rd conn p rate → SeesAnchor rd' conn' p rate → 0 < rate →
      rate.toNat ≤ 1000000000 → ∀ f g, (f - p.rtptime).toInt < (g - p.rtptime).toInt →
      ∃ tf tg, (frameToLocalTime f rd conn).2 = some tf ∧
        (frameToLocalTime g rd' conn').2 = some tg ∧ tf < tg := by
  intro h
  obtain ⟨tf, tg, htf, htg, hlt⟩ := h sameClocks sameClocks anchorAtOneHour anchorAtOneHour _ _
    anchorAtOneHour_seesAnchor anchorAtOneHour_seesAnchor (by decide) (by decide) 2147483648 0
    (by decide)
  have hf : (frameToLocalTime 2147483648 sameClocks anchorAtOneHour).2 =
      some 18446698977935220551 := by decide
  have hg : (frameToLocalTime 0 sameClocks anchorAtOneHour).2 = some 3600000000000 := by decide
  obtain rfl := Option.some.inj (hf.symm.trans htf)
  obtain rfl := Option.some.inj (hg.symm.trans htg)
  exact absurd hlt (by decide)

end Rtp

end ShairportSync
