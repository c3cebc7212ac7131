import ShairportSync.Rtp.Datagrams

/-!
# Whose bytes a datagram is read from

A receiver reads a datagram from the front of a buffer in which earlier datagrams have left their
bytes. What becomes of the connection depends on the bytes of the datagram alone if it has a type,
and as many bytes as the fields of its type take. A datagram of another kind is read to the end
from what is there, and two histories that have led to the same connection may then part.
-/

namespace ShairportSync

namespace Rtp

open Player
open Metadata (ntohl contentMemory contentMemory_of_lt htonl_ntohl)

/-! ## What is read -/

section Congr

variable {packet packet' : ℕ → BitVec 8} {n p : ℕ}

theorem nctohs_congr (h : ∀ i < n, packet i = packet' i) (hp : p + 2 ≤ n) :
    nctohs packet p = nctohs packet' p := by
  rw [nctohs, nctohs, h p (by omega), h (p + 1) (by omega)]

theorem nctohl_congr (h : ∀ i < n, packet i = packet' i) (hp : p + 4 ≤ n) :
    nctohl packet p = nctohl packet' p := by
  rw [nctohl, nctohl, h p (by omega), h (p + 1) (by omega), h (p + 2) (by omega),
    h (p + 3) (by omega)]

theorem ntpNanoseconds_congr (h : ∀ i < n, packet i = packet' i) (hp : p + 8 ≤ n) :
    ntpNanoseconds packet p = ntpNanoseconds packet' p := by
  have hps := nctohl_congr (p := p) h (by omega)
  have hpn := nctohl_congr (p := p + 4) h (by omega)
  rw [ntpNanoseconds, ntpNanoseconds, hps, hpn]

theorem receiveSync_congr (cfg : SyncConfig) (c : UdpConn) (h : ∀ i < 20, packet i = packet' i) :
    receiveSync cfg packet c = receiveSync cfg packet' c := by
  have hflags := nctohs_congr (p := 2) h (by decide)
  have hless := nctohl_congr (p := 4) h (by decide)
  have htime := ntpNanoseconds_congr (p := 8) h (by decide)
  have hsync := nctohl_congr (p := 16) h (by decide)
  simp only [receiveSync, takeSync, syncLatency, hflags, hless, htime, hsync]

theorem takePing_congr (arrivalTime : Nanoseconds) (c : UdpConn)
    (h : ∀ i < 32, packet i = packet' i) :
    takePing arrivalTime packet c = takePing arrivalTime packet' c := by
  have hreceive := ntpNanoseconds_congr (p := 16) h (by decide)
  have htransmit := ntpNanoseconds_congr (p := 24) h (by decide)
  simp only [takePing, pingOf, hreceive, htransmit]

theorem takeControl_congr (env : ReceiverEnv) (timeNow : Nanoseconds) (nread : ℕ) (c : UdpConn)
    (htype : packet 1 = packet' 1)
    (hsync : packet 1 = 0xd4 → ∀ i < 20, packet i = packet' i)
    (haudio : 32 ≤ nread → ∀ i < nread, packet i = packet' i) :
    takeControl env timeNow packet nread c = takeControl env timeNow packet' nread c := by
  rw [takeControl, takeControl, ← htype]
  split_ifs with hd4 hd6 hshort
  · exact receiveSync_congr env.sync c (hsync hd4)
  · rfl
  · have hsame := haudio (not_lt.mp hshort)
    have hseqno := nctohs_congr (p := 6) hsame (by omega)
    have htimestamp := nctohl_congr (p := 8) hsame (by omega)
    have hdata : (List.range (nread - 16)).map (fun i => packet (16 + i)) =
        (List.range (nread - 16)).map fun i => packet' (16 + i) := by
      refine List.map_congr_left fun i hi => hsame _ ?_
      have := List.mem_range.mp hi
      omega
    simp only [hseqno, htimestamp, hdata]
  · rfl

theorem takeTiming_congr (arrivalTime : Nanoseconds) (c : UdpConn) (htype : packet 1 = packet' 1)
    (hping : packet 1 = 0xd3 → ∀ i < 32, packet i = packet' i) :
    takeTiming arrivalTime packet c = takeTiming arrivalTime packet' c := by
  rw [takeTiming, takeTiming, ← htype]
  split_ifs with hd3
  · exact takePing_congr arrivalTime c (hping hd3)
  · rfl

end Congr

/-! ## Datagrams that carry what is read of them -/

inductive Port where
  | control
  | timing

def Port.event (port : Port) (datagram : Bytes) (time : Nanoseconds) (dropped : Bool) : PortEvent :=
  match port with
  | .control => .control datagram time dropped
  | .timing => .timing datagram time dropped

/-- How many bytes the type and the fields of this type take. A short packet of retransmitted audio
is ignored. -/
def Port.fieldsEnd (port : Port) (type : BitVec 8) : ℕ :=
  match port with
  | .control => if type = 0xd4 then 20 else 2
  | .timing => if type = 0xd3 then 32 else 2

/-- The datagram has a type, and the fields of its type. -/
def Port.CarriesFields (port : Port) (datagram : Bytes) : Prop :=
  ∃ type, datagram[1]? = some type ∧ port.fieldsEnd type ≤ datagram.length

/-- Whatever two histories have led to the same connection, the datagram leads on to the same one.
-/
def OwnBytesOnly (env : ReceiverEnv) (port : Port) (datagram : Bytes) : Prop :=
  ∀ (player : ResendState) (airPlayVersion : Int) (minimumLatency maximumLatency : BitVec 32)
    (controlPacket timingPacket : ℕ → BitVec 8) (history history' : List PortEvent)
    (time : Nanoseconds) (dropped : Bool) (s s' : Receivers),
    s = (Receivers.start player airPlayVersion minimumLatency maximumLatency controlPacket
      timingPacket).after env history →
    s' = (Receivers.start player airPlayVersion minimumLatency maximumLatency controlPacket
      timingPacket).after env history' →
    s.conn = s'.conn →
      (s.next env (port.event datagram time dropped)).conn =
        (s'.next env (port.event datagram time dropped)).conn

section Carried

variable {env : ReceiverEnv} {datagram : Bytes}

theorem length_recv (datagram : Bytes) : (recv datagram).length = min 2048 datagram.length :=
  List.length_take ..

theorem recv_congr (stale stale' : ℕ → BitVec 8) {n : ℕ} (hn : n ≤ 2048)
    (hlength : n ≤ datagram.length) :
    ∀ i < n, contentMemory (recv datagram) stale i = contentMemory (recv datagram) stale' i := by
  intro i hi
  have hrecv := length_recv datagram
  rw [contentMemory_of_lt (by omega), contentMemory_of_lt (by omega)]

theorem two_le_fieldsEnd (port : Port) (type : BitVec 8) : 2 ≤ port.fieldsEnd type := by
  cases port <;> rw [Port.fieldsEnd] <;> split_ifs <;> decide

theorem type_of_carriesFields {type : BitVec 8} (htype : datagram[1]? = some type)
    (stale : ℕ → BitVec 8) : contentMemory (recv datagram) stale 1 = type := by
  rw [contentMemory, recv, List.getD_eq_getElem?_getD, List.getElem?_take_of_lt (by decide), htype]
  rfl

/-- A datagram that carries its fields is read from its own bytes, in any state. -/
theorem next_congr_of_carriesFields {port : Port} (h : port.CarriesFields datagram)
    (time : Nanoseconds) (dropped : Bool) {s s' : Receivers} (hconn : s.conn = s'.conn) :
    (s.next env (port.event datagram time dropped)).conn =
      (s'.next env (port.event datagram time dropped)).conn := by
  obtain ⟨type, htype, hlength⟩ := h
  have htwo := two_le_fieldsEnd port type
  cases port with
  | control =>
      have hcontrol : takeControl env time (contentMemory (recv datagram) s.controlPacket)
          (recv datagram).length s'.conn =
          takeControl env time (contentMemory (recv datagram) s'.controlPacket)
            (recv datagram).length s'.conn := by
        refine takeControl_congr env time _ _ ?_ (fun hd4 => ?_) fun _ => ?_
        · rw [type_of_carriesFields htype, type_of_carriesFields htype]
        · rw [type_of_carriesFields htype] at hd4
          rw [Port.fieldsEnd, if_pos hd4] at hlength
          exact recv_congr _ _ (by decide) hlength
        · have hrecv := length_recv datagram
          exact recv_congr _ _ (by omega) (by omega)
      simp only [Receivers.next, Port.event, hconn, hcontrol]
  | timing =>
      have htiming : takeTiming time (contentMemory (recv datagram) s.timingPacket)
          (initialiseClock s'.conn) =
          takeTiming time (contentMemory (recv datagram) s'.timingPacket)
            (initialiseClock s'.conn) := by
        refine takeTiming_congr time _ ?_ fun hd3 => ?_
        · rw [type_of_carriesFields htype, type_of_carriesFields htype]
        · rw [type_of_carriesFields htype] at hd3
          rw [Port.fieldsEnd, if_pos hd3] at hlength
          exact recv_congr _ _ (by decide) hlength
      simp only [Receivers.next, Port.event, hconn, htiming]

end Carried

/-! ## Datagrams that do not -/

def Receivers.fresh : Receivers := .start ⟨.fresh, -1⟩ 0 0 0 (fun _ => 0) fun _ => 0

def timingAnswer : Bytes := [0x80, 0xd3] ++ List.replicate 22 0 ++ [0, 0, 0, 1, 0, 0, 0, 0]

def unknownDatagram (n : ℕ) (last : BitVec 8) : Bytes := List.replicate n 0 ++ [last]

section Stale

variable {env : ReceiverEnv} {datagram : Bytes}

theorem recv_stale (stale : ℕ → BitVec 8) {i : ℕ} (hi : datagram.length ≤ i) :
    contentMemory (recv datagram) stale i = stale i := by
  have hrecv := length_recv datagram
  rw [contentMemory, List.getD_eq_getElem?_getD, List.getElem?_eq_none (by omega)]
  rfl

theorem nctohl_inj {packet packet' : ℕ → BitVec 8} {p : ℕ}
    (h : nctohl packet p = nctohl packet' p) : packet (p + 3) = packet' (p + 3) := by
  have hbytes := congrArg Metadata.htonl h
  rw [nctohl, nctohl, htonl_ntohl, htonl_ntohl] at hbytes
  simp only [List.cons.injEq, and_true] at hbytes
  exact hbytes.2.2.2

theorem takeSync_inj {cfg : SyncConfig} {packet packet' : ℕ → BitVec 8} {c : UdpConn}
    (h : takeSync cfg packet c = takeSync cfg packet' c) :
    nctohl packet 16 = nctohl packet' 16 := by
  have hanchor (packet : ℕ → BitVec 8) : (takeSync cfg packet c).anchor.anchorRtptime =
      nctohl packet 16 - syncLatency cfg packet c := rfl
  have hsame : syncLatency cfg packet c = syncLatency cfg packet' c := by
    rw [← latency_takeSync, ← latency_takeSync, h]
  have hrtptime := congrArg (fun c => c.anchor.anchorRtptime) h
  rw [hanchor, hanchor, hsame] at hrtptime
  exact (BitVec.sub_left_inj _).mp hrtptime

theorem difference_recordPing {ping : TimePing} {c : UdpConn} (hfirst : c.timePings = []) :
    (recordPing ping c).localToRemoteTimeDifference = ping.remoteTime - ping.localTime := by
  have hsamples : ¬ 8 < ([{ ping with chosen := true }].filter fun ping =>
      ping.chosen && decide (20 < ping.sequenceNumber)).length :=
    not_lt.mpr ((List.length_filter_le _ _).trans (by simp))
  simp only [recordPing, hfirst, clockDifference]
  rw [if_neg]
  · rfl
  · exact hsamples

theorem remoteTime_pingOf (packet : ℕ → BitVec 8) (arrivalTime : Nanoseconds) (n : ℕ) :
    (pingOf packet arrivalTime 0 n).remoteTime = ntpNanoseconds packet 24 := by
  simp [pingOf]

theorem ntpNanoseconds_ne {packet packet' : ℕ → BitVec 8} {p : ℕ}
    (h : ∀ i < p + 7, packet i = packet' i) (hlast : packet (p + 7) = 0)
    (hlast' : packet' (p + 7) = 255) : ntpNanoseconds packet p ≠ ntpNanoseconds packet' p := by
  have hps : nctohl packet p = nctohl packet' p := nctohl_congr h (by omega)
  have hlow : (nctohl packet' (p + 4)).toNat = (nctohl packet (p + 4)).toNat + 255 := by
    have h4 := h (p + 4) (by omega)
    have h5 := h (p + 5) (by omega)
    have h6 := h (p + 6) (by omega)
    have hzero : (0 : BitVec 8).toNat = 0 := rfl
    have hmax : (255 : BitVec 8).toNat = 255 := rfl
    simp only [nctohl, add_assoc, Nat.reduceAdd, ← h4, ← h5, ← h6, hlast, hlast', ntohl,
      BitVec.toNat_ofNat, hzero, hmax]
    have := (packet (p + 4)).isLt
    have := (packet (p + 5)).isLt
    have := (packet (p + 6)).isLt
    omega
  have hpn (packet : ℕ → BitVec 8) :
      (((nctohl packet (p + 4)).setWidth 64 * 1000000000) >>> 32 : BitVec 64).toNat =
        (nctohl packet (p + 4)).toNat * 1000000000 / 2 ^ 32 := by
    have hlt := (nctohl packet (p + 4)).isLt
    have hfactor : (1000000000 : BitVec 64).toNat = 1000000000 := rfl
    rw [BitVec.toNat_ushiftRight, BitVec.toNat_mul, BitVec.toNat_setWidth, hfactor,
      Nat.shiftRight_eq_div_pow, Nat.mod_eq_of_lt (hlt.trans (by decide)),
      Nat.mod_eq_of_lt (by omega)]
  intro heq
  rw [ntpNanoseconds, ntpNanoseconds, hps] at heq
  have hsame := congrArg BitVec.toNat ((BitVec.add_right_inj _).mp heq)
  rw [hpn, hpn, hlow] at hsame
  omega

/-! ### Histories that leave something behind -/

theorem conn_next_control (env : ReceiverEnv) {s : Receivers}
    (hidle : s.conn.rtspLinkIsIdle = false) (datagram : Bytes) (time : Nanoseconds) :
    (s.next env (.control datagram time false)).conn =
      takeControl env time (contentMemory (recv datagram) s.controlPacket) (recv datagram).length
        s.conn := by
  simp [Receivers.next, hidle]

theorem conn_next_timing (env : ReceiverEnv) {s : Receivers} (hidle : s.conn.rtspLinkIsIdle = false)
    (datagram : Bytes) (time : Nanoseconds) :
    (s.next env (.timing datagram time false)).conn =
      takeTiming time (contentMemory (recv datagram) s.timingPacket) (initialiseClock s.conn) := by
  simp [Receivers.next, hidle]

def UdpConn.answered : UdpConn :=
  recordPing (pingOf (contentMemory timingAnswer fun _ => 0) 0 0 0)
    (initialiseClock Receivers.fresh.conn)

theorem difference_answered : UdpConn.answered.localToRemoteTimeDifference ≠ 0 := by
  rw [UdpConn.answered, difference_recordPing rfl]
  decide

theorem receiveSync_answered (cfg : SyncConfig) (packet : ℕ → BitVec 8) :
    receiveSync cfg packet .answered = takeSync cfg packet .answered :=
  if_pos difference_answered

theorem conn_next_answer (env : ReceiverEnv) {s : Receivers}
    (hconn : s.conn = Receivers.fresh.conn) :
    (s.next env (.timing timingAnswer 0 false)).conn = .answered := by
  have htype : contentMemory (recv timingAnswer) s.timingPacket 1 = 0xd3 := rfl
  rw [conn_next_timing env (by rw [hconn]; rfl), takeTiming, if_pos htype, hconn,
    takePing_congr 0 _ (recv_congr s.timingPacket (fun _ => 0) (by decide) (by decide))]
  rfl

def afterControlType (env : ReceiverEnv) (type : BitVec 8) : Receivers :=
  Receivers.fresh.after env [.control [0, type] 0 false, .timing timingAnswer 0 false]

theorem conn_afterControlType (env : ReceiverEnv) {type : BitVec 8} (htype : type ≠ 0xd6) :
    (afterControlType env type).conn = .answered := by
  refine conn_next_answer env ?_
  have hread (stale : ℕ → BitVec 8) : contentMemory (recv [0, type]) stale 1 = type := rfl
  rw [conn_next_control env rfl, takeControl, hread, if_neg htype, receiveSync]
  split_ifs with _ hclock
  · exact absurd rfl hclock
  · rfl
  · rfl

theorem not_ownBytesOnly_control_of_short (env : ReceiverEnv) (hshort : datagram.length < 2) :
    ¬ OwnBytesOnly env .control datagram := by
  intro h
  have hread (type : BitVec 8) : contentMemory (recv datagram)
      (afterControlType env type).controlPacket 1 = type :=
    recv_stale _ (Nat.le_of_lt_succ hshort)
  have hsync : ((afterControlType env 0xd4).next env (.control datagram 0 false)).conn.anchor =
      (takeSync env.sync (contentMemory (recv datagram) (afterControlType env 0xd4).controlPacket)
        .answered).anchor := by
    rw [conn_next_control env (by rw [conn_afterControlType env (by decide)]; rfl),
      conn_afterControlType env (by decide), takeControl, if_pos (hread _), receiveSync_answered]
  have hunknown : ((afterControlType env 0).next env (.control datagram 0 false)).conn =
      .answered := by
    rw [conn_next_control env (by rw [conn_afterControlType env (by decide)]; rfl),
      conn_afterControlType env (by decide), takeControl, hread, if_neg (by decide),
      if_neg (by decide)]
  have hsame := h _ 0 0 0 _ _ _ _ 0 false (afterControlType env 0xd4) (afterControlType env 0) rfl
    rfl ((conn_afterControlType env (by decide)).trans (conn_afterControlType env (by decide)).symm)
  have hvalid := congrArg (fun c => c.anchor.anchorRemoteInfoIsValid) hsame
  rw [Port.event, hsync, hunknown] at hvalid
  exact Bool.noConfusion hvalid

def afterControlBytes (env : ReceiverEnv) (last : BitVec 8) : Receivers :=
  Receivers.fresh.after env
    [.timing timingAnswer 0 false, .control (unknownDatagram 19 last) 0 false]

theorem conn_afterControlBytes (env : ReceiverEnv) (last : BitVec 8) :
    (afterControlBytes env last).conn = .answered := by
  have hanswer := conn_next_answer env (s := .fresh) rfl
  have hread (stale : ℕ → BitVec 8) :
      contentMemory (recv (unknownDatagram 19 last)) stale 1 = 0 := rfl
  have hlast := conn_next_control env (s := Receivers.fresh.next env (.timing timingAnswer 0 false))
    (by rw [hanswer]; rfl) (unknownDatagram 19 last) 0
  rw [hanswer, takeControl, hread, if_neg (by decide), if_neg (by decide)] at hlast
  exact hlast

theorem not_ownBytesOnly_control_of_sync (env : ReceiverEnv) (htype : datagram[1]? = some 0xd4)
    (hshort : datagram.length < 20) : ¬ OwnBytesOnly env .control datagram := by
  intro h
  have hsync (last : BitVec 8) : ((afterControlBytes env last).next env
      (.control datagram 0 false)).conn = takeSync env.sync (contentMemory (recv datagram)
        (afterControlBytes env last).controlPacket) .answered := by
    rw [conn_next_control env (by rw [conn_afterControlBytes]; rfl), conn_afterControlBytes,
      takeControl, if_pos (type_of_carriesFields htype _), receiveSync_answered]
  have hsame := h _ 0 0 0 _ _ _ _ 0 false (afterControlBytes env 0) (afterControlBytes env 1) rfl
    rfl ((conn_afterControlBytes env 0).trans (conn_afterControlBytes env 1).symm)
  rw [Port.event, hsync, hsync] at hsame
  have hlast := nctohl_inj (takeSync_inj hsame)
  have hbyte (last : BitVec 8) : (afterControlBytes env last).controlPacket 19 = last := rfl
  rw [recv_stale _ (Nat.le_of_lt_succ hshort), recv_stale _ (Nat.le_of_lt_succ hshort), hbyte,
    hbyte] at hlast
  exact absurd hlast (by decide)

/-- A timing answer that has taken too long, or a datagram of another type, has come. -/
def afterTimingType (env : ReceiverEnv) (type : BitVec 8) : Receivers :=
  Receivers.fresh.after env [.timing [0, type] 1000000000 false]

theorem conn_afterTimingType (env : ReceiverEnv) (type : BitVec 8) :
    (afterTimingType env type).conn = initialiseClock Receivers.fresh.conn := by
  have hnext := conn_next_timing env (s := .fresh) rfl [0, type] 1000000000
  rw [takeTiming, takePing] at hnext
  refine hnext.trans ?_
  split_ifs with _ hsoon
  · exact absurd hsoon (by decide)
  · rfl
  · rfl

theorem not_ownBytesOnly_timing_of_short (env : ReceiverEnv) (hshort : datagram.length < 2) :
    ¬ OwnBytesOnly env .timing datagram := by
  intro h
  have hread (type : BitVec 8) : contentMemory (recv datagram)
      (afterTimingType env type).timingPacket 1 = type :=
    recv_stale _ (Nat.le_of_lt_succ hshort)
  have hnext (type : BitVec 8) : ((afterTimingType env type).next env
      (.timing datagram 0 false)).conn = takeTiming 0 (contentMemory (recv datagram)
        (afterTimingType env type).timingPacket) (initialiseClock Receivers.fresh.conn) := by
    rw [conn_next_timing env (by rw [conn_afterTimingType]; rfl), conn_afterTimingType]
    rfl
  have hsame := h _ 0 0 0 _ _ _ _ 0 false (afterTimingType env 0xd3) (afterTimingType env 0) rfl
    rfl ((conn_afterTimingType env 0xd3).trans (conn_afterTimingType env 0).symm)
  rw [Port.event, hnext, hnext, takeTiming, takeTiming, if_pos (hread _), hread,
    if_neg (by decide)] at hsame
  exact absurd (congrArg UdpConn.sequenceNumber hsame) (Nat.succ_ne_zero 0)

def afterTimingBytes (env : ReceiverEnv) (last : BitVec 8) : Receivers :=
  Receivers.fresh.after env [.timing (unknownDatagram 31 last) 0 false]

theorem conn_afterTimingBytes (env : ReceiverEnv) (last : BitVec 8) :
    (afterTimingBytes env last).conn = initialiseClock Receivers.fresh.conn :=
  conn_next_timing env (s := .fresh) rfl (unknownDatagram 31 last) 0

theorem not_ownBytesOnly_timing_of_answer (env : ReceiverEnv) (htype : datagram[1]? = some 0xd3)
    (hshort : datagram.length < 32) : ¬ OwnBytesOnly env .timing datagram := by
  intro h
  have hnext (last : BitVec 8) : ((afterTimingBytes env last).next env
      (.timing datagram 0 false)).conn.localToRemoteTimeDifference =
        ntpNanoseconds (contentMemory (recv datagram) (afterTimingBytes env last).timingPacket) 24 -
          0 := by
    rw [conn_next_timing env (by rw [conn_afterTimingBytes]; rfl), conn_afterTimingBytes,
      takeTiming, if_pos (type_of_carriesFields htype _), takePing, if_pos (by decide),
      difference_recordPing rfl]
    exact congrArg (fun time => time - 0) (remoteTime_pingOf _ 0 _)
  have hsame := h _ 0 0 0 _ _ _ _ 0 false (afterTimingBytes env 0) (afterTimingBytes env 255) rfl
    rfl ((conn_afterTimingBytes env 0).trans (conn_afterTimingBytes env 255).symm)
  have hdifference := congrArg UdpConn.localToRemoteTimeDifference hsame
  rw [Port.event, hnext, hnext] at hdifference
  refine ntpNanoseconds_ne (fun i hi => ?_) ?_ ?_
    ((BitVec.sub_left_inj _).mp hdifference)
  · rcases Nat.lt_or_ge i datagram.length with hown | hstale
    · have hrecv := length_recv datagram
      rw [contentMemory_of_lt (by omega), contentMemory_of_lt (by omega)]
    · rw [recv_stale _ hstale, recv_stale _ hstale]
      have hzero (last : BitVec 8) : (afterTimingBytes env last).timingPacket i = 0 := by
        have hleft : (unknownDatagram 31 last)[i]? = some 0 := by
          rw [unknownDatagram, List.getElem?_append_left (by simpa using hi),
            List.getElem?_replicate, if_pos hi]
        change contentMemory (recv (unknownDatagram 31 last)) _ i = 0
        rw [contentMemory, recv, List.getD_eq_getElem?_getD, List.getElem?_take_of_lt (by omega),
          hleft]
        rfl
      rw [hzero, hzero]
  · exact recv_stale _ (Nat.le_of_lt_succ hshort)
  · exact recv_stale _ (Nat.le_of_lt_succ hshort)

end Stale

/-- A datagram is interpreted from its own bytes alone exactly if it carries the fields of its
type. -/
theorem ownBytesOnly_iff (env : ReceiverEnv) (port : Port) (datagram : Bytes) :
    OwnBytesOnly env port datagram ↔ port.CarriesFields datagram := by
  constructor
  · intro h
    by_contra hcarries
    rw [Port.CarriesFields, not_exists] at hcarries
    cases htype : datagram[1]? with
    | none =>
        have hshort : datagram.length < 2 :=
          Nat.lt_succ_of_le (List.getElem?_eq_none_iff.mp htype)
        cases port with
        | control => exact not_ownBytesOnly_control_of_short env hshort h
        | timing => exact not_ownBytesOnly_timing_of_short env hshort h
    | some type =>
        have htwo : 2 ≤ datagram.length := (List.getElem?_eq_some_iff.mp htype).1
        have hmissing := not_le.mp fun hlength => hcarries type ⟨htype, hlength⟩
        cases port with
        | control =>
            rw [Port.fieldsEnd] at hmissing
            split_ifs at hmissing with hd4
            · exact not_ownBytesOnly_control_of_sync env (hd4 ▸ htype) hmissing h
            · omega
        | timing =>
            rw [Port.fieldsEnd] at hmissing
            split_ifs at hmissing with hd3
            · exact not_ownBytesOnly_timing_of_answer env (hd3 ▸ htype) hmissing h
            · omega
  · intro hcarries player airPlayVersion minimumLatency maximumLatency controlPacket timingPacket
      history history' time dropped s s' _ _ hconn
    exact next_congr_of_carriesFields hcarries time dropped hconn

/-- The first two bytes of a sync packet: its timestamp is the one of another datagram. -/
theorem not_ownBytesOnly_of_two_bytes :
    ¬ ∀ (env : ReceiverEnv) (port : Port) (datagram : Bytes), OwnBytesOnly env port datagram :=
  fun h => not_ownBytesOnly_control_of_sync ⟨⟨0, 11025, fun _ => 0⟩, .playOnly, .pcm⟩ rfl
    (by decide) (h _ .control [0x80, 0xd4])

end Rtp

end ShairportSync
