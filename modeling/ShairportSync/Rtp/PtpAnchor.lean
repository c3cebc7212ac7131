import ShairportSync.Player.Basic
import Mathlib.Tactic.SplitIfs

/-!
# Anchors of the PTP clock

An AirPlay 2 client says at which time of its clock an RTP frame is due: the anchor.
`nqptp` publishes the current master clock and its offset from the local clock in shared
memory. `set_ptp_anchor_info` and `reset_ptp_anchor_info` take the anchor from the
client, and `get_ptp_anchor_local_time_info` turns it into local time. The latter keeps
the last anchor it could convert, and moves the anchor to a new master clock with it.

The structures keep the source's words. A debug line is not modelled, and neither is
what only a debug line reads.
-/

namespace ShairportSync

namespace Rtp

open Player

inductive ClockStatus where
  | clockNoAnchorInfo
  | clockOk
  | clockServiceUnavailable
  | clockAccessError
  | clockDataUnavailable
  | clockNoMaster
  | clockVersionMismatch
  | clockNotSynchronised
  | clockNotValid
  | clockNotReady
deriving DecidableEq

def nqptpShmStructuresVersion : BitVec 16 := 9

abbrev ClockId := BitVec 64

/-- `struct shm_structure`, without its mutex and the address of the clock. -/
structure NqptpData where
  version : BitVec 16
  masterClockId : ClockId
  /-- "the time when the offset was calculated". -/
  localTime : Nanoseconds
  /-- "add this to the local time to get master clock time". -/
  localToMasterTimeOffset : BitVec 64
  /-- "this is when the master clock became master". -/
  masterClockStartTime : Nanoseconds

/-- What `ptp_get_clock_info` writes through its pointers. -/
structure ClockInfo where
  actualClockId : ClockId
  timeOfSample : Nanoseconds
  rawOffset : BitVec 64
  mastershipStartTime : Nanoseconds

/-- `ptp_get_clock_info`, on what `get_nqptp_data` copies if the interface is open. -/
def ptpGetClockInfo : Option NqptpData → ClockStatus × ClockInfo
  | none => (.clockDataUnavailable, ⟨0, 0, 0, 0⟩)
  | some nqptpData =>
      if nqptpData.version = nqptpShmStructuresVersion then
        -- "assuming a clock id can not be zero"
        if nqptpData.masterClockId ≠ 0 then
          (.clockOk,
            ⟨nqptpData.masterClockId, nqptpData.localTime, nqptpData.localToMasterTimeOffset,
              nqptpData.masterClockStartTime⟩)
        else (.clockNoMaster, ⟨0, 0, 0, 0⟩)
      else if nqptpData.version = 0 then (.clockServiceUnavailable, ⟨0, 0, 0, 0⟩)
      else (.clockVersionMismatch, ⟨0, 0, 0, 0⟩)

/-- The anchor fields of `rtsp_conn_info`. -/
structure AnchorInfo where
  anchorRemoteInfoIsValid : Bool
  anchorClock : ClockId
  /-- "this is the time according to the clock". -/
  anchorTime : Nanoseconds
  anchorRtptime : RtpTime
  lastAnchorInfoIsValid : Bool
  lastAnchorRtptime : RtpTime
  lastAnchorLocalTime : Nanoseconds
  lastAnchorTimeOfUpdate : Nanoseconds
  lastAnchorValidityStartTime : Nanoseconds
  clockStatus : ClockStatus

/-- A connection is allocated with zeroes. -/
def AnchorInfo.fresh : AnchorInfo where
  anchorRemoteInfoIsValid := false
  anchorClock := 0
  anchorTime := 0
  anchorRtptime := 0
  lastAnchorInfoIsValid := false
  lastAnchorRtptime := 0
  lastAnchorLocalTime := 0
  lastAnchorTimeOfUpdate := 0
  lastAnchorValidityStartTime := 0
  clockStatus := .clockNoAnchorInfo

/-- What the client says: at `networktime` of its clock the frame `rtptime` is due. -/
structure AnchorMessage where
  clockId : ClockId
  rtptime : RtpTime
  networktime : Nanoseconds

/-- `set_ptp_anchor_info`, at the local time `timeNow`. -/
def setPtpAnchorInfo (m : AnchorMessage) (timeNow : Nanoseconds) (conn : AnchorInfo) :
    AnchorInfo :=
  -- the clock is the same but a detail has changed, before the clock has stabilised
  let unreliable := m.clockId = conn.anchorClock ∧
    (conn.anchorRtptime ≠ m.rtptime ∨ conn.anchorTime ≠ m.networktime) ∧
    (timeNow - conn.lastAnchorValidityStartTime).toInt < 5000000000
  { conn with
    lastAnchorInfoIsValid := if unreliable then false else conn.lastAnchorInfoIsValid
    anchorRemoteInfoIsValid := true
    anchorRtptime := m.rtptime
    anchorTime := m.networktime
    anchorClock := m.clockId }

def resetPtpAnchorInfo (conn : AnchorInfo) : AnchorInfo :=
  { conn with lastAnchorInfoIsValid := false, anchorRemoteInfoIsValid := false }

/-- What `get_ptp_anchor_local_time_info` reads beside the anchor. -/
structure ClockReading where
  rtspLinkIsIdle : Bool
  nqptp : Option NqptpData
  /-- The local time when the clock information has been read. -/
  timeNow : Nanoseconds
  /-- The local time when it is read again for the age of the last anchor. -/
  timeAtUpdateCheck : Nanoseconds

/-- `get_ptp_anchor_local_time_info`, when the clock information is good and there is an
anchor. -/
def followMasterClock (clock : ClockInfo) (rd : ClockReading) (conn : AnchorInfo) :
    ClockStatus × AnchorInfo :=
  if clock.actualClockId = conn.anchorClock then
    (.clockOk,
      { conn with
        lastAnchorRtptime := conn.anchorRtptime
        lastAnchorLocalTime := conn.anchorTime - clock.rawOffset
        lastAnchorTimeOfUpdate := rd.timeNow
        lastAnchorValidityStartTime :=
          if conn.lastAnchorInfoIsValid then conn.lastAnchorValidityStartTime
          else clock.mastershipStartTime
        lastAnchorInfoIsValid := true })
  else if conn.lastAnchorInfoIsValid then
    if 5000000000 < (rd.timeAtUpdateCheck - conn.lastAnchorTimeOfUpdate).toInt then
      (.clockOk,
        { conn with
          anchorTime := conn.lastAnchorLocalTime + clock.rawOffset
          anchorClock := clock.actualClockId })
    else (.clockOk, conn)
  -- "no current clock information and no previous clock info"
  else (.clockNotValid, conn)

/-- `get_ptp_anchor_local_time_info` up to the check of the clock status. -/
def readAnchor (rd : ClockReading) (conn : AnchorInfo) : ClockStatus × AnchorInfo :=
  if rd.rtspLinkIsIdle then (.clockNotValid, conn)
  else
    let (response, clock) := ptpGetClockInfo rd.nqptp
    if response = .clockOk then
      if conn.anchorRemoteInfoIsValid then followMasterClock clock rd conn
      else (.clockNoAnchorInfo, conn)
    else (response, conn)

/-- A frame and the local time it is due at. -/
structure AnchorPoint where
  rtptime : RtpTime
  localTime : Nanoseconds
deriving DecidableEq

def AnchorInfo.lastAnchor (conn : AnchorInfo) : AnchorPoint :=
  ⟨conn.lastAnchorRtptime, conn.lastAnchorLocalTime⟩

/-- `get_ptp_anchor_local_time_info`: the response, the connection afterwards and what is
written through the pointers. -/
def getPtpAnchorLocalTimeInfo (rd : ClockReading) (conn : AnchorInfo) :
    ClockStatus × AnchorInfo × Option AnchorPoint :=
  let (response, conn) := readAnchor rd conn
  let conn := { conn with clockStatus := response }
  (response, conn, if conn.lastAnchorInfoIsValid then some conn.lastAnchor else none)

def AnchorInfo.afterGet (rd : ClockReading) (conn : AnchorInfo) : AnchorInfo :=
  (getPtpAnchorLocalTimeInfo rd conn).2.1

theorem followMasterClock_lastAnchorInfoIsValid {clock : ClockInfo} {rd : ClockReading}
    {conn : AnchorInfo} (h : (followMasterClock clock rd conn).1 = .clockOk) :
    (followMasterClock clock rd conn).2.lastAnchorInfoIsValid = true := by
  unfold followMasterClock at h ⊢
  by_cases hsame : clock.actualClockId = conn.anchorClock
  · rw [if_pos hsame]
  · rw [if_neg hsame] at h ⊢
    by_cases hlast : conn.lastAnchorInfoIsValid = true
    · rw [if_pos hlast]
      split <;> exact hlast
    · rw [if_neg hlast] at h
      exact ClockStatus.noConfusion h

theorem readAnchor_lastAnchorInfoIsValid {rd : ClockReading} {conn : AnchorInfo}
    (h : (readAnchor rd conn).1 = .clockOk) :
    (readAnchor rd conn).2.lastAnchorInfoIsValid = true := by
  unfold readAnchor at h ⊢
  dsimp only at h ⊢
  split_ifs at h ⊢ with hidle hok hremote
  · exact followMasterClock_lastAnchorInfoIsValid h
  · exact absurd h hok

/-- The time between two frames, `inputRate` frames to the second. -/
def frameDifferenceToTime (inputRate frameDifference : BitVec 32) : Nanoseconds :=
  BitVec.ofInt 64 ((frameDifference.toInt * 1000000000).tdiv inputRate.toNat)

def AnchorPoint.frameTime (inputRate : BitVec 32) (p : AnchorPoint) (timestamp : RtpTime) :
    Nanoseconds :=
  p.localTime + frameDifferenceToTime inputRate (timestamp - p.rtptime)

/-- `frame_to_ptp_local_time`, for an input rate that is not zero. -/
def frameToPtpLocalTime (inputRate : BitVec 32) (timestamp : RtpTime) (rd : ClockReading)
    (conn : AnchorInfo) : AnchorInfo × Option Nanoseconds :=
  let (response, conn, anchor) := getPtpAnchorLocalTimeInfo rd conn
  (conn,
    if response = .clockOk then some ((anchor.getD ⟨0, 0⟩).frameTime inputRate timestamp)
    else none)

/-- A conversion that succeeds is made with the last valid anchor. -/
theorem frameToPtpLocalTime_eq_some_iff {inputRate : BitVec 32} {timestamp : RtpTime}
    {rd : ClockReading} {conn : AnchorInfo} {time : Nanoseconds} :
    (frameToPtpLocalTime inputRate timestamp rd conn).2 = some time ↔
      (readAnchor rd conn).1 = .clockOk ∧
        (conn.afterGet rd).lastAnchor.frameTime inputRate timestamp = time := by
  unfold frameToPtpLocalTime AnchorInfo.afterGet getPtpAnchorLocalTimeInfo
  dsimp only
  split
  · rename_i hok
    simp [hok, readAnchor_lastAnchorInfoIsValid hok, AnchorInfo.lastAnchor]
  · rename_i hok
    simp [hok]

end Rtp

end ShairportSync
