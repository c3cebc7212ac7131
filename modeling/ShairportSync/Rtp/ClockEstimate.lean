import Mathlib.Data.List.GetD
import ShairportSync.Numeric.ScaledMean
import ShairportSync.Numeric.WordArithmetic
import ShairportSync.Rtp.OwnBytes

/-!
# The difference between the clocks

The answers to the last 128 timing requests are kept. With each new one the dispersions of the
others grow by a hundredth, and the answer with the least dispersion is chosen. While few have been
chosen, the difference between the clocks is that of the chosen answer; afterwards it is the
difference between the means of their remote and of their local times, which are divided by 128 so
that the sums do not overflow. What this leaves out is less than 256 nanoseconds.
-/

namespace ShairportSync

namespace Rtp

open Numeric Player
open Metadata (contentMemory)

/-! ## Ageing -/

/-- A dispersion is multiplied only if the product is a word. One that is too large stays. -/
structure TimePing.AgesExactly (ping : TimePing) : Prop where
  product_lt : ¬ BitVec.allOnes 64 / dispersionFactor < ping.dispersion →
    ping.dispersion.toNat * dispersionFactor.toNat < 2 ^ 64
  age_of_lt : ping.dispersion.toNat * dispersionFactor.toNat < 2 ^ 64 →
    ping.age = { ping with
      dispersion := BitVec.ofNat 64 (ping.dispersion.toNat * dispersionFactor.toNat / 100) }
  age_of_le : 2 ^ 64 ≤ ping.dispersion.toNat * dispersionFactor.toNat → ping.age = ping

theorem TimePing.agesExactly (ping : TimePing) : ping.AgesExactly := by
  have hguard : BitVec.allOnes 64 / dispersionFactor < ping.dispersion ↔
      2 ^ 64 ≤ ping.dispersion.toNat * dispersionFactor.toNat :=
    allOnes_div_lt_iff (by decide) ping.dispersion
  refine ⟨fun hsmall => not_le.1 (mt hguard.2 hsmall), fun hlt => ?_, fun hle => ?_⟩
  · have hage : ping.dispersion * dispersionFactor / 100 =
        BitVec.ofNat 64 (ping.dispersion.toNat * dispersionFactor.toNat / 100) := by
      apply BitVec.eq_of_toNat_eq
      have hhundred : (100 : BitVec 64).toNat = 100 := rfl
      rw [BitVec.toNat_udiv, BitVec.toNat_mul, Nat.mod_eq_of_lt hlt, BitVec.toNat_ofNat, hhundred,
        Nat.mod_eq_of_lt ((Nat.div_le_self _ _).trans_lt hlt)]
    rw [age, if_neg (mt hguard.1 (not_le.2 hlt)), hage]
  · rw [age, if_pos (hguard.2 hle)]

/-! ## The chosen answer -/

theorem leastDispersion_le (pings : ℕ → TimePing) (n : ℕ) : leastDispersion pings n ≤ n := by
  induction n with
  | zero => exact le_rfl
  | succ n ih =>
      rw [leastDispersion]
      split_ifs
      · exact le_rfl
      · exact ih.trans n.le_succ

theorem leastDispersion_min (pings : ℕ → TimePing) {n i : ℕ} (hi : i ≤ n) :
    (pings (leastDispersion pings n)).dispersion ≤ (pings i).dispersion := by
  induction n with
  | zero =>
      obtain rfl := Nat.le_zero.1 hi
      exact BitVec.le_refl _
  | succ n ih =>
      rw [leastDispersion]
      rcases Nat.le_succ_iff.1 hi with hle | rfl
      · split_ifs with hlt
        · exact BitVec.le_trans (BitVec.le_of_lt hlt) (ih hle)
        · exact ih hle
      · split_ifs with hlt
        · exact BitVec.le_refl _
        · exact BitVec.not_lt.1 hlt

def agedPings (ping : TimePing) (c : UdpConn) : List TimePing :=
  (ping :: c.timePings.map TimePing.age).take timePingHistory

/-- "record the fact that it has been used for timing" -/
def TimePing.choose (ping : TimePing) : TimePing := { ping with chosen := true }

/-- The records consist of those before the chosen one, the chosen one, and those after it. -/
structure Chooses (pings after : List TimePing) (chosen : TimePing) : Prop where
  split : ∃ front back, pings = front ++ chosen :: back ∧ after = front ++ chosen.choose :: back
  least : ∀ ping ∈ pings, chosen.dispersion ≤ ping.dispersion

theorem getD_modify_choose {pings : List TimePing} {i : ℕ} (hi : i < pings.length)
    (ping : TimePing) :
    (pings.modify i .choose).getD i ping = (pings.getD i ping).choose := by
  have hi' : i < (pings.modify i .choose).length := by rwa [List.length_modify]
  rw [List.getD_eq_getElem _ _ hi', List.getD_eq_getElem _ _ hi, List.getElem_modify_eq]

theorem chooses_leastDispersion {pings : List TimePing} (hpings : 0 < pings.length)
    (ping : TimePing) :
    Chooses pings
      (pings.modify (leastDispersion (fun i => pings.getD i ping) (pings.length - 1)) .choose)
      (pings.getD (leastDispersion (fun i => pings.getD i ping) (pings.length - 1)) ping) := by
  have hle := leastDispersion_le (fun i => pings.getD i ping) (pings.length - 1)
  have hleast := fun i => @leastDispersion_min (fun i => pings.getD i ping) (pings.length - 1) i
  revert hle hleast
  generalize leastDispersion (fun i => pings.getD i ping) (pings.length - 1) = chosen
  intro hle hleast
  have hchosen : chosen < pings.length := by omega
  refine ⟨⟨pings.take chosen, pings.drop (chosen + 1), ?_, ?_⟩, ?_⟩
  · rw [List.getD_eq_getElem _ _ hchosen, List.cons_getElem_drop_succ, List.take_append_drop]
  · rw [List.getD_eq_getElem _ _ hchosen]
    exact List.modify_eq_take_cons_drop hchosen
  · intro other hother
    obtain ⟨i, hi, rfl⟩ := List.getElem_of_mem hother
    have hother := hleast i (by omega)
    beta_reduce at hother
    rwa [List.getD_eq_getElem pings ping hi] at hother

/-! ## The averages -/

section Averages

variable {pings : List TimePing}

/-- The records that are averaged: those that have been chosen, once the system has settled down. -/
def samples (pings : List TimePing) : List TimePing :=
  pings.filter fun ping => ping.chosen && decide (20 < ping.sequenceNumber)

/-- The sum of the times of the records, "scaled down". -/
def scaledSum (time : TimePing → Nanoseconds) (pings : List TimePing) : BitVec 64 :=
  (pings.map fun ping => time ping >>> timePingHistoryPowerOfTwo).sum

def scaledAverage (time : TimePing → Nanoseconds) (pings : List TimePing) : BitVec 64 :=
  (scaledSum time pings / BitVec.ofNat 64 pings.length) <<< timePingHistoryPowerOfTwo

theorem clockDifference_of_lt (chosen : TimePing) (h : 8 < (samples pings).length) :
    (clockDifference chosen pings).1 =
      scaledAverage TimePing.remoteTime (samples pings) -
        scaledAverage TimePing.localTime (samples pings) := by
  rw [clockDifference]
  exact congrArg Prod.fst (if_pos h)

theorem clockDifference_of_le (chosen : TimePing) (h : (samples pings).length ≤ 8) :
    (clockDifference chosen pings).1 = chosen.remoteTime - chosen.localTime := by
  rw [clockDifference]
  exact congrArg Prod.fst (if_neg (not_lt.2 h))

theorem toNat_shift (time : Nanoseconds) :
    (time >>> timePingHistoryPowerOfTwo).toNat = time.toNat / timePingHistory := by
  rw [BitVec.toNat_ushiftRight, Nat.shiftRight_eq_div_pow]

theorem toNat_scaledSum (time : TimePing → Nanoseconds) (h : pings.length ≤ timePingHistory) :
    (scaledSum time pings).toNat =
      (pings.map fun ping => (time ping).toNat / timePingHistory).sum := by
  have hhistory : timePingHistory = 128 := rfl
  have hsum := @toNat_sum_of_le 64
    (pings.map fun ping => time ping >>> timePingHistoryPowerOfTwo) (2 ^ 57 - 1)
    (fun word hword => ?_) ?_
  · rw [scaledSum, hsum, List.map_map]
    exact congrArg List.sum (List.map_congr_left fun ping _ => toNat_shift (time ping))
  · obtain ⟨ping, -, rfl⟩ := List.mem_map.1 hword
    have hlt := (time ping).isLt
    rw [toNat_shift, hhistory]
    omega
  · rw [List.length_map]
    omega

theorem toNat_scaledAverage (time : TimePing → Nanoseconds) (h : pings.length ≤ timePingHistory) :
    (scaledAverage time pings).toNat =
      scaledMean timePingHistory (pings.map fun ping => (time ping).toNat) := by
  have hmean : scaledMean timePingHistory (pings.map fun ping => (time ping).toNat) ≤ 2 ^ 64 - 1 :=
    scaledMean_le fun n hn => by
      obtain ⟨ping, -, rfl⟩ := List.mem_map.1 hn
      exact Nat.le_sub_one_of_lt (time ping).isLt
  have hhistory : timePingHistory = 128 := rfl
  have hsum := toNat_scaledSum time h
  have hcount : (BitVec.ofNat 64 pings.length).toNat = pings.length :=
    (BitVec.toNat_ofNat _ _).trans (Nat.mod_eq_of_lt (by omega))
  rw [scaledMean, List.map_map, List.length_map] at hmean ⊢
  rw [scaledAverage, BitVec.toNat_shiftLeft, BitVec.toNat_udiv, hsum, hcount, Nat.shiftLeft_eq]
  exact Nat.mod_eq_of_lt (hmean.trans_lt (by decide))

end Averages

/-! ## The update with an answer -/

/-- What the update with an answer makes of the connection. -/
structure EstimateSound (ping : TimePing) (c after : UdpConn) : Prop where
  agesExactly : ∀ other ∈ c.timePings, other.AgesExactly
  length_le : after.timePings.length ≤ timePingHistory
  chosen : ∃ chosen, Chooses (agedPings ping c) after.timePings chosen ∧
    ((samples after.timePings).length ≤ 8 →
      after.localToRemoteTimeDifference = chosen.remoteTime - chosen.localTime)
  /-- None of the additions overflows. -/
  sums : ∀ (time : TimePing → Nanoseconds) (n : ℕ),
    (scaledSum time ((samples after.timePings).take n)).toNat =
      (((samples after.timePings).take n).map fun ping => (time ping).toNat / timePingHistory).sum
  averaged : 8 < (samples after.timePings).length →
    after.localToRemoteTimeDifference =
        scaledAverage TimePing.remoteTime (samples after.timePings) -
          scaledAverage TimePing.localTime (samples after.timePings) ∧
      Approximates after.localToRemoteTimeDifference
        (mean ((samples after.timePings).map fun ping =>
          (ping.remoteTime.toNat : ℚ) - ping.localTime.toNat)) 256

/-- The difference of the averages is near to the average of the differences. -/
theorem approximates_scaledAverage {pings : List TimePing} (hpos : 0 < pings.length)
    (hle : pings.length ≤ timePingHistory) :
    Approximates
      (scaledAverage TimePing.remoteTime pings - scaledAverage TimePing.localTime pings)
      (mean (pings.map fun ping => (ping.remoteTime.toNat : ℚ) - ping.localTime.toNat)) 256 := by
  have herror := @abs_scaledMean_sub_lt ℚ TimePing _ _ _ timePingHistory
    (fun ping => ping.remoteTime.toNat) (fun ping => ping.localTime.toNat) pings (by decide) hpos
  have hbound : 2 * ((timePingHistory : ℕ) : ℚ) = 256 := by norm_num
  rw [hbound] at herror
  rw [sub_eq_ofInt, toNat_scaledAverage _ hle, toNat_scaledAverage _ hle]
  refine approximates_ofInt (by decide) ?_
  push_cast
  exact herror

theorem estimateSound_recordPing (ping : TimePing) (c : UdpConn) :
    EstimateSound ping c (recordPing ping c) := by
  have hpos : 0 < (agedPings ping c).length := by
    rw [agedPings, List.length_take, List.length_cons]
    exact lt_min (by decide) (Nat.succ_pos _)
  have hchosen : leastDispersion (fun i => (agedPings ping c).getD i ping)
      ((agedPings ping c).length - 1) < (agedPings ping c).length :=
    (leastDispersion_le _ _).trans_lt (Nat.sub_one_lt hpos.ne')
  have hlength : (recordPing ping c).timePings.length ≤ timePingHistory := by
    change ((agedPings ping c).modify _ _).length ≤ _
    rw [List.length_modify]
    exact List.length_take_le _ _
  have hsamples : (samples (recordPing ping c).timePings).length ≤ timePingHistory :=
    (List.length_filter_le _ _).trans hlength
  refine ⟨fun other _ => other.agesExactly, hlength,
    ⟨_, chooses_leastDispersion hpos ping, fun hfew => ?_⟩, fun time n => ?_, fun hmany => ?_⟩
  · have hdifference : (recordPing ping c).localToRemoteTimeDifference = _ :=
      clockDifference_of_le _ hfew
    have htimes := congrArg (fun chosen : TimePing => chosen.remoteTime - chosen.localTime)
      (getD_modify_choose hchosen ping)
    rw [hdifference]
    exact htimes
  · exact toNat_scaledSum time ((List.length_take_le' _ _).trans hsamples)
  · have hdifference : (recordPing ping c).localToRemoteTimeDifference = _ :=
      clockDifference_of_lt _ hmany
    rw [hdifference]
    exact ⟨rfl, approximates_scaledAverage (Nat.zero_lt_of_lt hmany) hsamples⟩

/-! ## Histories -/

/-- The answer that is recorded at an event, if one is, and the connection that it comes to. -/
def Receivers.recorded (s : Receivers) : PortEvent → Option (TimePing × UdpConn)
  | .timing datagram arrivalTime false =>
      let packet := contentMemory (recv datagram) s.timingPacket
      let c := initialiseClock s.conn
      let returnTime := arrivalTime - c.departureTime
      if s.conn.rtspLinkIsIdle = false ∧ packet 1 = 0xd3 ∧ returnTime < 200000000 then
        some (pingOf packet arrivalTime returnTime c.sequenceNumber, c)
      else none
  | _ => none

theorem conn_next_of_recorded (env : ReceiverEnv) {s : Receivers} {event : PortEvent}
    {ping : TimePing} {c : UdpConn} (h : s.recorded event = some (ping, c)) :
    (s.next env event).conn = recordPing ping c := by
  cases event with
  | control datagram timeNow dropped => exact absurd h.symm (Option.some_ne_none _)
  | request departureTime => exact absurd h.symm (Option.some_ne_none _)
  | timing datagram arrivalTime dropped =>
      cases dropped with
      | true => exact absurd h.symm (Option.some_ne_none _)
      | false =>
          rw [Receivers.recorded] at h
          split_ifs at h with hrecorded
          obtain ⟨hidle, htype, hreturn⟩ := hrecorded
          obtain ⟨rfl, rfl⟩ := Prod.mk.inj (Option.some.inj h)
          rw [conn_next_timing env hidle, takeTiming, if_pos htype, takePing]
          exact if_pos hreturn

def UdpConn.clock (c : UdpConn) : List TimePing × BitVec 64 :=
  (c.timePings, c.localToRemoteTimeDifference)

theorem clock_initialiseClock (c : UdpConn) : (initialiseClock c).clock = c.clock := by
  rw [initialiseClock]
  split_ifs
  · rfl
  · rfl

theorem clock_takeControl (env : ReceiverEnv) (timeNow : Nanoseconds) (packet : ℕ → BitVec 8)
    (nread : ℕ) (c : UdpConn) : (takeControl env timeNow packet nread c).clock = c.clock := by
  rw [takeControl, receiveSync]
  split_ifs
  · rfl
  · rfl
  · rfl
  · rfl
  · rfl

theorem clock_next_of_not_recorded (env : ReceiverEnv) {s : Receivers} {event : PortEvent}
    (h : s.recorded event = none) : (s.next env event).conn.clock = s.conn.clock := by
  cases event with
  | request departureTime => rfl
  | control datagram timeNow dropped =>
      rw [Receivers.next]
      dsimp only
      split_ifs
      · rfl
      · exact clock_takeControl _ _ _ _ _
  | timing datagram arrivalTime dropped =>
      rw [Receivers.next]
      dsimp only
      split_ifs with hidle hdropped
      · rfl
      · exact clock_initialiseClock _
      · rw [Bool.not_eq_true] at hidle hdropped
        rw [← clock_initialiseClock s.conn, takeTiming]
        split_ifs with htype
        · rw [takePing]
          split_ifs with hreturn
          · subst hdropped
            have hrecorded := h.symm.trans (if_pos ⟨hidle, htype, hreturn⟩)
            exact absurd hrecorded (Option.some_ne_none _).symm
          · rfl
        · rfl

/-- After any history, the difference between the clocks changes with an answer alone, and the
update with an answer is sound. -/
theorem clockEstimate_sound (env : ReceiverEnv) (s : Receivers) (history : List PortEvent)
    (event : PortEvent) :
    (∀ ping c, (s.after env history).recorded event = some (ping, c) →
      EstimateSound ping c ((s.after env history).next env event).conn) ∧
      ((s.after env history).recorded event = none →
        ((s.after env history).next env event).conn.clock = (s.after env history).conn.clock) := by
  refine ⟨fun ping c hrecorded => ?_, clock_next_of_not_recorded env⟩
  rw [conn_next_of_recorded env hrecorded]
  exact estimateSound_recordPing ping c

/-- Settings without an offset, and the decoder of plain audio. -/
def ReceiverEnv.plain : ReceiverEnv := ⟨⟨0, 0, fun _ => 0⟩, .playOnly, .pcm⟩

/-- Receivers that have settled down, with nine chosen answers. -/
def Receivers.settled : Receivers where
  conn :=
    { Receivers.fresh.conn with
      udpClockIsInitialised := true
      sequenceNumber := 30
      timePings := List.replicate 9 ⟨5000, 1000, 3000, 21, true⟩ }
  controlPacket := fun _ => 0
  timingPacket := fun _ => 0

def Receivers.answeredQuickly : Receivers :=
  Receivers.settled.after .plain [.timing timingAnswer 4000 false]

/-- A slow answer comes after it, and is not. -/
theorem clockEstimate_sound_of_slow_answer :
    ∃ ping c,
      Receivers.answeredQuickly.recorded (.timing timingAnswer 199999999 false) = some (ping, c) ∧
      8 < (samples (Receivers.answeredQuickly.next .plain
        (.timing timingAnswer 199999999 false)).conn.timePings).length ∧
      EstimateSound ping c (Receivers.answeredQuickly.next .plain
        (.timing timingAnswer 199999999 false)).conn := by
  refine ⟨_, _, rfl, ?_, (clockEstimate_sound .plain .settled [.timing timingAnswer 4000 false]
    (.timing timingAnswer 199999999 false)).1 _ _ rfl⟩
  decide +kernel

end Rtp

end ShairportSync
