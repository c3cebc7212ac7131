import ShairportSync.Rtp.Datagrams
import ShairportSync.Transition.Run

/-!
# The latency of a sync packet

The latency that a sync packet asks for is a difference of two timestamps. A fixed offset may be
added to it, it is brought into the range that the client has announced, and it is ignored if it is
out of range. Then the offset of the output is added, and what comes of it is compared with what
the ring holds, less some headroom. If it is out of that range only the offset is ignored: the
latency without it is taken, and nothing has compared that with the ring.
-/

namespace ShairportSync

namespace Rtp

open Player
open Metadata (contentMemory htonl)
open Transition

/-! ## The limit -/

def ringLimit (conn : ConnInfo) : ℕ :=
  conn.maxFramesPerPacket * (bufferFrames - minimumFreeBufferHeadroom)

def syncRequest (cfg : SyncConfig) (c : UdpConn) (packet : ℕ → BitVec 8) : BitVec 32 :=
  requestedLatency cfg c (nctohs packet 2) (nctohl packet 16) (nctohl packet 4)

def UdpConn.latency (c : UdpConn) : BitVec 32 := c.player.conn.latency

def syncStep (cfg : SyncConfig) (c : UdpConn) (packet : ℕ → BitVec 8) : Option UdpConn :=
  some (receiveSync cfg packet c)

/-- A latency that the packet stores fits the ring, and a request that is out of range leaves the
latency as it was. -/
structure StoresFittingLatency (cfg : SyncConfig) (c : UdpConn) (packet : ℕ → BitVec 8) : Prop where
  fits : (receiveSync cfg packet c).latency ≠ c.latency →
    (receiveSync cfg packet c).latency.toNat ≤ ringLimit c.player.conn
  ignored : maxFrames < (syncRequest cfg c packet).toNat →
    (receiveSync cfg packet c).latency = c.latency

/-- The latency with the offset of the output is in the range it is compared with. -/
def OffsetInRange (cfg : SyncConfig) (conn : ConnInfo) (la : BitVec 32) : Prop :=
  0 ≤ adjustedLatency cfg conn la ∧ adjustedLatency cfg conn la ≤ adjustedLimit conn

instance (cfg : SyncConfig) (conn : ConnInfo) (la : BitVec 32) :
    Decidable (OffsetInRange cfg conn la) :=
  inferInstanceAs (Decidable (_ ∧ _))

/-- A request that is in range, but not with the offset of the output, is the latency already, or it
fits the ring without the offset. -/
def LatencyCondition (cfg : SyncConfig) (c : UdpConn) (packet : ℕ → BitVec 8) : Prop :=
  c.localToRemoteTimeDifference ≠ 0 → (syncRequest cfg c packet).toNat ≤ maxFrames →
    ¬ OffsetInRange cfg c.player.conn (syncRequest cfg c packet) →
      syncRequest cfg c packet = c.latency ∨
        (syncRequest cfg c packet).toNat ≤ ringLimit c.player.conn

instance (cfg : SyncConfig) (c : UdpConn) (packet : ℕ → BitVec 8) :
    Decidable (LatencyCondition cfg c packet) :=
  inferInstanceAs (Decidable (_ → _ → _ → _))

section Adopt

variable {cfg : SyncConfig} {conn : ConnInfo} {la : BitVec 32}

theorem adoptLatency_of_out_of_range (h : maxFrames < la.toNat) :
    adoptLatency cfg conn la = conn.latency :=
  if_pos h

theorem adoptLatency_of_offset (hrange : la.toNat ≤ maxFrames)
    (hoffset : OffsetInRange cfg conn la) :
    adoptLatency cfg conn la = BitVec.ofInt 32 (adjustedLatency cfg conn la) := by
  rw [adoptLatency, if_neg (not_lt.mpr hrange), if_neg]
  rintro (hneg | hlarge)
  · exact absurd hoffset.1 (not_le.mpr hneg)
  · exact absurd hoffset.2 (not_le.mpr hlarge)

theorem adoptLatency_of_not_offset (hrange : la.toNat ≤ maxFrames)
    (hoffset : ¬ OffsetInRange cfg conn la) : adoptLatency cfg conn la = la := by
  rw [adoptLatency, if_neg (not_lt.mpr hrange), if_pos]
  rw [OffsetInRange, not_and_or, not_le, not_le] at hoffset
  exact hoffset

theorem adjustedLimit_le (conn : ConnInfo) : adjustedLimit conn ≤ ringLimit conn := by
  have hmod := Nat.mod_le (ringLimit conn) (2 ^ 32)
  rw [adjustedLimit, ← ringLimit, BitVec.toInt_eq_toNat_bmod, BitVec.toNat_ofNat]
  rw [Int.bmod_eq_emod]
  split_ifs <;> omega

theorem toNat_adoptLatency_of_offset (hrange : la.toNat ≤ maxFrames)
    (hoffset : OffsetInRange cfg conn la) :
    (adoptLatency cfg conn la).toNat ≤ ringLimit conn := by
  have hlimit := adjustedLimit_le conn
  obtain ⟨hnonneg, hle⟩ := hoffset
  rw [adoptLatency_of_offset hrange ⟨hnonneg, hle⟩, BitVec.toNat_ofInt]
  omega

end Adopt

section Sync

variable {cfg : SyncConfig}

/-- The latency after a sync packet. -/
theorem latency_receiveSync (huser : cfg.userSuppliedLatency = 0) (c : UdpConn)
    (packet : ℕ → BitVec 8) :
    (receiveSync cfg packet c).latency =
      if c.localToRemoteTimeDifference ≠ 0 then
        adoptLatency cfg c.player.conn (syncRequest cfg c packet)
      else c.latency := by
  rw [receiveSync]
  split_ifs with hclock
  · rw [UdpConn.latency, latency_takeSync, syncLatency, if_neg (not_not.mpr huser), syncRequest]
  · rfl

theorem storesFittingLatency_iff (huser : cfg.userSuppliedLatency = 0) (c : UdpConn)
    (packet : ℕ → BitVec 8) :
    StoresFittingLatency cfg c packet ↔ LatencyCondition cfg c packet := by
  have hlatency := latency_receiveSync huser c packet
  by_cases hclock : c.localToRemoteTimeDifference ≠ 0
  · rw [if_pos hclock] at hlatency
    rcases Nat.lt_or_ge maxFrames (syncRequest cfg c packet).toNat with hout | hrange
    · rw [adoptLatency_of_out_of_range hout] at hlatency
      exact iff_of_true ⟨fun hne => absurd hlatency hne, fun _ => hlatency⟩
        fun _ hin => absurd hin (not_le.mpr hout)
    · by_cases hoffset : OffsetInRange cfg c.player.conn (syncRequest cfg c packet)
      · refine iff_of_true ⟨fun _ => ?_, fun hout => absurd hout (not_lt.mpr hrange)⟩
          fun _ _ hnot => absurd hoffset hnot
        rw [hlatency]
        exact toNat_adoptLatency_of_offset hrange hoffset
      · rw [adoptLatency_of_not_offset hrange hoffset] at hlatency
        constructor
        · intro hstores _ _ _
          refine or_iff_not_imp_left.mpr fun hne => ?_
          rw [← hlatency] at hne ⊢
          exact hstores.fits hne
        · intro hcondition
          refine ⟨fun hne => ?_, fun hout => absurd hout (not_lt.mpr hrange)⟩
          rw [hlatency] at hne ⊢
          exact (hcondition hclock hrange hoffset).resolve_left hne
  · rw [if_neg hclock] at hlatency
    exact iff_of_true ⟨fun hne => absurd hlatency hne, fun _ => hlatency⟩
      fun hnonzero => absurd hnonzero hclock

end Sync

/-- In a run of sync packets every latency that is stored fits the ring, exactly if every packet of
the run meets the condition. -/
theorem storesFittingLatency_run_iff (cfg : SyncConfig) (huser : cfg.userSuppliedLatency = 0)
    (c : UdpConn) (packets : List (ℕ → BitVec 8)) :
    Along (syncStep cfg) (StoresFittingLatency cfg) c packets ↔
      Along (syncStep cfg) (LatencyCondition cfg) c packets :=
  along_iff_of_invariant (I := fun _ => True) (fun _ _ _ _ _ => trivial)
    (fun c packet _ => storesFittingLatency_iff huser c packet) trivial

/-- The settings as they are if the configuration says nothing, and no offset of the output. -/
def SyncConfig.standard : SyncConfig where
  userSuppliedLatency := 0
  fixedLatencyOffset := 11025
  latencyOffset _ := 0

def syncPacket (syncRtpTimestamp rtpTimestampLessLatency : RtpTime) : ℕ → BitVec 8 :=
  contentMemory ([0x80, 0xd4, 0, 4] ++ htonl rtpTimestampLessLatency ++ htonl 1 ++ htonl 0 ++
    htonl syncRtpTimestamp) fun _ => 0

def UdpConn.compared (maxFramesPerPacket : ℕ) : UdpConn :=
  { (Receivers.start ⟨{ ConnInfo.fresh with maxFramesPerPacket := maxFramesPerPacket }, -1⟩ 0 0 0
      (fun _ => 0) fun _ => 0).conn with localToRemoteTimeDifference := 1 }

/-- Two packets of a usual stream. -/
theorem storesFittingLatency_run_usual :
    Along (syncStep .standard) (StoresFittingLatency .standard) (.compared 352)
      [syncPacket 100000 22675, syncPacket 100352 23027] :=
  (storesFittingLatency_run_iff .standard rfl _ _).mpr (by decide)

/-- With 100 frames in a packet the ring holds 89900 frames, and a latency of 200000 is taken. -/
theorem not_storesFittingLatency_of_short_packets :
    ¬ ∀ (cfg : SyncConfig) (c : UdpConn) (packets : List (ℕ → BitVec 8)),
      cfg.userSuppliedLatency = 0 →
        Along (syncStep cfg) (StoresFittingLatency cfg) c packets := by
  intro h
  have hfits := (h .standard (.compared 100) [syncPacket 300000 100000] rfl _ rfl).1.fits
  exact absurd (hfits (by decide)) (by decide)

end Rtp

end ShairportSync
