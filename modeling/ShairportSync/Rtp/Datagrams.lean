import ShairportSync.Rtp.PtpAnchor
import ShairportSync.Rtp.Decipher

/-!
# The control and the timing port

On a classic connection `rtp_control_receiver` takes sync packets and retransmitted audio, and
`rtp_timing_receiver` the answers to the timing requests. Each has one buffer of 2048 bytes for all
its datagrams. A datagram is written over the front of it, and the type and the fields are then
read at fixed offsets: where the datagram is shorter, these are bytes of earlier ones.

The sync packet brings the anchor and the latency, a timing answer the difference between the
clocks. What is computed in floating point, the drift and the rates, is left out.
-/

namespace ShairportSync

namespace Rtp

open Player
open Metadata (ntohl contentMemory)

/-! ## The connection -/

/-- The settings of `config` that a sync packet is taken with. -/
structure SyncConfig where
  userSuppliedLatency : BitVec 32
  fixedLatencyOffset : BitVec 32
  /-- `(int32_t)(config.audio_backend_latency_offset * conn->input_rate)`. -/
  latencyOffset : ℕ → BitVec 32

/-- `config.minimum_free_buffer_headroom`, which is never set to anything else. -/
abbrev minimumFreeBufferHeadroom : ℕ := 125

structure TimePing where
  dispersion : BitVec 64
  localTime : Nanoseconds
  remoteTime : Nanoseconds
  sequenceNumber : ℕ
  chosen : Bool
deriving DecidableEq

/-- The fields of `rtsp_conn_info` that the two receivers read and write, and the count of timing
answers that is a variable of the receiver. -/
structure UdpConn where
  player : ResendState
  anchor : AnchorInfo
  airPlayVersion : Int
  minimumLatency : BitVec 32
  maximumLatency : BitVec 32
  rtspLinkIsIdle : Bool
  udpClockIsInitialised : Bool
  latencyDelayedTimestamp : BitVec 64
  referenceToPreviousFrameDifference : BitVec 64
  referenceToPreviousTimeDifference : BitVec 64
  departureTime : Nanoseconds
  timePings : List TimePing
  localToRemoteTimeDifference : BitVec 64
  localToRemoteTimeDifferenceMeasurementTime : Nanoseconds
  sequenceNumber : ℕ

/-! ## Fields of a packet -/

def nctohs (packet : ℕ → BitVec 8) (p : ℕ) : BitVec 16 := ntohs (packet p) (packet (p + 1))

def nctohl (packet : ℕ → BitVec 8) (p : ℕ) : BitVec 32 :=
  ntohl (packet p) (packet (p + 1)) (packet (p + 2)) (packet (p + 3))

def ntpNanoseconds (packet : ℕ → BitVec 8) (p : ℕ) : Nanoseconds :=
  let ps := (nctohl packet p).setWidth 64 * 1000000000
  let pn := ((nctohl packet (p + 4)).setWidth 64 * 1000000000) >>> 32
  ps + pn

/-! ## Sync packets -/

abbrev maxFrames : ℕ := 3 * bufferFrames * 352 / 4 - 11025

/-- The latency that a sync packet asks for, offset, and in the range the client has announced. -/
def requestedLatency (cfg : SyncConfig) (c : UdpConn) (flags : BitVec 16)
    (syncRtpTimestamp rtpTimestampLessLatency : RtpTime) : BitVec 32 :=
  let la := syncRtpTimestamp - rtpTimestampLessLatency
  let la :=
    if flags = 7 ∨ (0 < c.airPlayVersion ∧ c.airPlayVersion ≤ 353) ∨
        (0 < c.airPlayVersion ∧ 371 ≤ c.airPlayVersion) then la + cfg.fixedLatencyOffset
    else la
  let la := if c.maximumLatency ≠ 0 ∧ c.maximumLatency < la then c.maximumLatency else la
  if c.minimumLatency ≠ 0 ∧ la < c.minimumLatency then c.minimumLatency else la

def adjustedLatency (cfg : SyncConfig) (conn : ConnInfo) (la : BitVec 32) : Int :=
  (cfg.latencyOffset conn.inputRate + la).toInt

def adjustedLimit (conn : ConnInfo) : Int :=
  (BitVec.ofNat 32 (conn.maxFramesPerPacket * (bufferFrames - minimumFreeBufferHeadroom))).toInt

/-- The latency after a request: an out-of-range request is ignored, and an offset that is out of
range is ignored. -/
def adoptLatency (cfg : SyncConfig) (conn : ConnInfo) (la : BitVec 32) : BitVec 32 :=
  if maxFrames < la.toNat then conn.latency
  else if adjustedLatency cfg conn la < 0 ∨ adjustedLimit conn < adjustedLatency cfg conn la then la
  else BitVec.ofInt 32 (adjustedLatency cfg conn la)

def syncLatency (cfg : SyncConfig) (packet : ℕ → BitVec 8) (c : UdpConn) : BitVec 32 :=
  if cfg.userSuppliedLatency ≠ 0 then cfg.userSuppliedLatency
  else
    adoptLatency cfg c.player.conn
      (requestedLatency cfg c (nctohs packet 2) (nctohl packet 16) (nctohl packet 4))

/-- The initial reference, if there is none and audio has come. -/
def takeInitialReference (time : Nanoseconds) (timestamp : RtpTime) (conn : ConnInfo) : ConnInfo :=
  if conn.initialReferenceTime = 0 ∧ 0 < conn.packetCountSinceFlush then
    { conn with
      initialReferenceTime := time
      initialReferenceTimestamp := timestamp }
  else conn

/-- A sync packet, once the difference between the clocks is known. -/
def takeSync (cfg : SyncConfig) (packet : ℕ → BitVec 8) (c : UdpConn) : UdpConn :=
  let remoteTimeOfSync := ntpNanoseconds packet 8
  let latency := syncLatency cfg packet c
  -- "here, we apply the latency to the sync_rtp_timestamp"
  let syncRtpTimestamp := nctohl packet 16 - latency
  { c with
    player :=
      { c.player with
        conn := takeInitialReference remoteTimeOfSync syncRtpTimestamp
          { c.player.conn with latency := latency } }
    anchor :=
      { c.anchor with
        anchorTime := remoteTimeOfSync
        anchorRtptime := syncRtpTimestamp
        anchorRemoteInfoIsValid := true }
    latencyDelayedTimestamp := (nctohl packet 4).setWidth 64
    referenceToPreviousTimeDifference := remoteTimeOfSync - c.anchor.anchorTime
    referenceToPreviousFrameDifference :=
      if c.anchor.anchorRtptime = 0 then 0
      else (syncRtpTimestamp - c.anchor.anchorRtptime).setWidth 64 }

theorem latency_takeInitialReference (time : Nanoseconds) (timestamp : RtpTime) (conn : ConnInfo) :
    (takeInitialReference time timestamp conn).latency = conn.latency := by
  rw [takeInitialReference]
  split_ifs <;> rfl

theorem latency_takeSync (cfg : SyncConfig) (packet : ℕ → BitVec 8) (c : UdpConn) :
    (takeSync cfg packet c).player.conn.latency = syncLatency cfg packet c := by
  rw [takeSync]
  exact latency_takeInitialReference _ _ _

/-- A sync packet: "need a time packet to be interchanged first". -/
def receiveSync (cfg : SyncConfig) (packet : ℕ → BitVec 8) (c : UdpConn) : UdpConn :=
  if c.localToRemoteTimeDifference ≠ 0 then takeSync cfg packet c else c

/-! ## Timing answers -/

abbrev timePingHistoryPowerOfTwo : ℕ := 7

abbrev timePingHistory : ℕ := 2 ^ timePingHistoryPowerOfTwo

/-- `(uint64_t)(multiplier * 100)`, where the multiplier is the 128th root of 10. -/
abbrev dispersionFactor : BitVec 64 := 101

/-- "make the dispersions 'age' by this rational factor" -/
def TimePing.age (ping : TimePing) : TimePing :=
  if BitVec.allOnes 64 / dispersionFactor < ping.dispersion then ping
  else { ping with dispersion := ping.dispersion * dispersionFactor / 100 }

/-- "now pick the timestamp with the lowest dispersion": of the first `n + 1` answers, the number of
the first that has it. -/
def leastDispersion (pings : ℕ → TimePing) : ℕ → ℕ
  | 0 => 0
  | n + 1 =>
      let chosen := leastDispersion pings n
      if (pings (n + 1)).dispersion < (pings chosen).dispersion then n + 1 else chosen

/-- The difference between the clocks and when it was measured, from the chosen answer, or from the
averages once there are enough of them. -/
def clockDifference (chosen : TimePing) (pings : List TimePing) : BitVec 64 × Nanoseconds :=
  let samples := pings.filter fun ping => ping.chosen && decide (20 < ping.sequenceNumber)
  if 8 < samples.length then
    let count := BitVec.ofNat 64 samples.length
    let scaled (time : Nanoseconds) : BitVec 64 := time >>> timePingHistoryPowerOfTwo
    let yBar := (samples.map fun ping => scaled ping.remoteTime).sum / count
    let xBar := (samples.map fun ping => scaled ping.localTime).sum / count
    -- "scale the numbers back up"
    let ybf := yBar <<< timePingHistoryPowerOfTwo
    let xbf := xBar <<< timePingHistoryPowerOfTwo
    (ybf - xbf, xbf)
  else (chosen.remoteTime - chosen.localTime, chosen.localTime)

def recordPing (ping : TimePing) (c : UdpConn) : UdpConn :=
  let pings := (ping :: c.timePings.map TimePing.age).take timePingHistory
  let chosen := leastDispersion (fun i => pings.getD i ping) (pings.length - 1)
  let pings := pings.modify chosen fun ping => { ping with chosen := true }
  let difference := clockDifference (pings.getD chosen ping) pings
  { c with
    timePings := pings
    localToRemoteTimeDifference := difference.1
    localToRemoteTimeDifferenceMeasurementTime := difference.2
    sequenceNumber := c.sequenceNumber + 1 }

/-- What an answer says, less the time that the remote end took for it. -/
def pingOf (packet : ℕ → BitVec 8) (arrivalTime returnTime : Nanoseconds) (sequenceNumber : ℕ) :
    TimePing :=
  let distantReceiveTime := ntpNanoseconds packet 16
  let distantTransmitTime := ntpNanoseconds packet 24
  let remoteProcessingTime :=
    if distantReceiveTime ≤ distantTransmitTime then distantTransmitTime - distantReceiveTime else 0
  let returnTime :=
    if remoteProcessingTime < returnTime then returnTime - remoteProcessingTime else returnTime
  { dispersion := returnTime
    localTime := arrivalTime
    remoteTime := distantTransmitTime + returnTime / 2
    sequenceNumber := sequenceNumber
    chosen := false }

/-- A timing answer, if it has taken less than 0.2 seconds. -/
def takePing (arrivalTime : Nanoseconds) (packet : ℕ → BitVec 8) (c : UdpConn) : UdpConn :=
  let returnTime := arrivalTime - c.departureTime
  if returnTime < 200000000 then
    recordPing (pingOf packet arrivalTime returnTime c.sequenceNumber) c
  else c

/-! ## The receivers -/

/-- The settings, and the decoder of the audio. -/
structure ReceiverEnv where
  sync : SyncConfig
  player : Player.Config
  decode : PacketDecoder

/-- What `rtp_control_receiver` does with `nread` bytes at the front of its buffer. -/
def takeControl (env : ReceiverEnv) (timeNow : Nanoseconds) (packet : ℕ → BitVec 8) (nread : ℕ)
    (c : UdpConn) : UdpConn :=
  if packet 1 = 0xd4 then receiveSync env.sync packet c
  else if packet 1 = 0xd6 then
    -- "check if packet contains enough content to be reasonable"
    if nread < 32 then c
    else
      { c with
        player := playerPutPacket env.player env.decode timeNow
          { originalFormat := true
            seqno := nctohs packet 6
            actualTimestamp := nctohl packet 8
            data := (List.range (nread - 16)).map fun i => packet (16 + i)
            len := nread - 16 } c.player }
  else c

/-- What `rtp_timing_receiver` does with the bytes in its buffer. -/
def takeTiming (arrivalTime : Nanoseconds) (packet : ℕ → BitVec 8) (c : UdpConn) : UdpConn :=
  if packet 1 = 0xd3 then takePing arrivalTime packet c else c

def initialiseClock (c : UdpConn) : UdpConn :=
  if c.udpClockIsInitialised then c
  else { c with udpClockIsInitialised := true, sequenceNumber := 0 }

/-- The connection, and the buffers of the two receivers. -/
structure Receivers where
  conn : UdpConn
  controlPacket : ℕ → BitVec 8
  timingPacket : ℕ → BitVec 8

/-- What happens on the two ports. A datagram may be dropped "to simulate a bad network". -/
inductive PortEvent where
  | control (datagram : Bytes) (timeNow : Nanoseconds) (dropped : Bool)
  | timing (datagram : Bytes) (arrivalTime : Nanoseconds) (dropped : Bool)
  /-- A timing request is sent. -/
  | request (departureTime : Nanoseconds)

/-- What `recv` leaves of a datagram, in a buffer of 2048 bytes. -/
def recv (datagram : Bytes) : Bytes := datagram.take 2048

/-- The state after an event. -/
def Receivers.next (env : ReceiverEnv) (s : Receivers) : PortEvent → Receivers
  | .control datagram timeNow dropped =>
      let packet := contentMemory (recv datagram) s.controlPacket
      { s with
        controlPacket := packet
        conn :=
          if s.conn.rtspLinkIsIdle ∨ dropped then s.conn
          else takeControl env timeNow packet (recv datagram).length s.conn }
  | .timing datagram arrivalTime dropped =>
      let packet := contentMemory (recv datagram) s.timingPacket
      { s with
        timingPacket := packet
        conn :=
          if s.conn.rtspLinkIsIdle then s.conn
          else if dropped then initialiseClock s.conn
          else takeTiming arrivalTime packet (initialiseClock s.conn) }
  | .request departureTime => { s with conn := { s.conn with departureTime := departureTime } }

def Receivers.after (env : ReceiverEnv) (s : Receivers) (history : List PortEvent) : Receivers :=
  history.foldl (Receivers.next env) s

def Receivers.start (player : ResendState) (airPlayVersion : Int)
    (minimumLatency maximumLatency : BitVec 32) (controlPacket timingPacket : ℕ → BitVec 8) :
    Receivers where
  conn :=
    { player := player
      anchor := .fresh
      airPlayVersion := airPlayVersion
      minimumLatency := minimumLatency
      maximumLatency := maximumLatency
      rtspLinkIsIdle := false
      udpClockIsInitialised := false
      latencyDelayedTimestamp := 0
      referenceToPreviousFrameDifference := 0
      referenceToPreviousTimeDifference := 0
      departureTime := 0
      timePings := []
      localToRemoteTimeDifference := 0
      localToRemoteTimeDifferenceMeasurementTime := 0
      sequenceNumber := 0 }
  controlPacket := controlPacket
  timingPacket := timingPacket

end Rtp

end ShairportSync
