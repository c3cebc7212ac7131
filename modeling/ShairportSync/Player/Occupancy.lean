import ShairportSync.Player.SlotInvariant

/-!
# The occupancy of the ring

Neither the in-order path nor the gap path of `player_put_packet` compares the window
with the size of the ring; the caller that reads ahead does it for itself. `RoomFor` is
the comparison: a packet that extends the window is fewer than `BUFFER_FRAMES` numbers
after `abRead`. In every run whose packets all meet it the occupancy stays within the
ring, and a packet that is accepted leaves the rest of the window alone.
-/

namespace ShairportSync

namespace Player

open SerialNumber Transition

/-- If the packet extends the window, there is a slot for it. -/
def RoomFor (a : PutArgs) (conn : ConnInfo) : Prop :=
  let ring := (syncToPacket a conn).1.toAudioRing
  let seqno := effectiveSeqno a conn
  Extends ring seqno → distance ring.abRead seqno < bufferFrames

instance (a : PutArgs) (conn : ConnInfo) : Decidable (RoomFor a conn) :=
  inferInstanceAs (Decidable (_ → _))

/-- The step does not extend the window beyond the ring. -/
def HasRoom (s : System) : Label → Prop
  | .put _ _ a => s.conn.connectionStateToOutput ≠ 0 → RoomFor a s.conn
  | _ => True

instance (s : System) : ∀ l, Decidable (HasRoom s l)
  | .put _ _ a =>
      inferInstanceAs (Decidable (s.conn.connectionStateToOutput ≠ 0 → RoomFor a s.conn))
  | .resent _ => isTrue trivial
  | .get _ => isTrue trivial
  | .finish _ => isTrue trivial
  | .resync _ => isTrue trivial
  | .flush _ => isTrue trivial

/-- If the step accepts a packet in order or after a gap, the entries of the packets that
have not been consumed are what they were. -/
def KeepsUnconsumed (s : System) (l : Label) (t : System) : Prop :=
  match l with
  | .put _ _ a =>
      s.conn.connectionStateToOutput ≠ 0 → s.conn.abSynced = true →
      Extends s.conn.toAudioRing (effectiveSeqno a s.conn) →
        ∀ q, Between s.conn.abRead s.conn.abWrite q →
          (t.conn.entry q).content = (s.conn.entry q).content
  | _ => True

/-! ## Accepting a packet -/

theorem distance_abWrite_lt_of_extends {ring : AudioRing} {seqno : SeqT}
    (h : Extends ring seqno) : distance ring.abWrite seqno < 2 ^ 15 := by
  rcases h with h | h
  · rw [eq_of_placement_expected h, distance_self]
    decide
  · exact (distance_of_placement_newer h).2

/-- The number of a packet that extends the window is not in it. -/
theorem distance_of_extends {ring : AudioRing} {seqno : SeqT}
    (hlen : distance ring.abRead ring.abWrite ≤ bufferFrames) (h : Extends ring seqno) :
    distance ring.abRead seqno =
      distance ring.abRead ring.abWrite + distance ring.abWrite seqno := by
  have hahead := distance_abWrite_lt_of_extends h
  have hframes : bufferFrames < 2 ^ 15 := bufferFrames_lt
  exact distance_add (by omega)

theorem storePacket_fits (decode : PacketDecoder) (timeNow : Nanoseconds) (a : PutArgs)
    {conn : ConnInfo} (h : conn.toAudioRing.Fits) (hroom : RoomFor a conn) :
    (storePacket decode timeNow a conn).1.toAudioRing.Fits := by
  have hlen := (syncToPacket_within a h).distance_le (syncToPacket_abSynced a conn)
  obtain ⟨hread, hwrite⟩ := storePacket_window decode timeNow a conn
  refine fun _ => (occupancy_le_iff bufferFrames_lt _).mpr ?_
  rw [hread, hwrite]
  split
  · rename_i hext
    have hlt := hroom hext
    have hframes : bufferFrames < 2 ^ 14 := by decide
    rw [distance_add_one_of_lt (by omega)]
    exact hlt
  · exact hlen

theorem syncToPacket_of_synced (a : PutArgs) {conn : ConnInfo} (h : conn.abSynced = true) :
    syncToPacket a conn = (conn, []) := by
  unfold syncToPacket
  rw [if_pos h]

/-- A packet that extends the window within the ring does not touch the window. -/
theorem storePacket_entry_of_between (decode : PacketDecoder) (timeNow : Nanoseconds)
    (a : PutArgs) {conn : ConnInfo} (hs : conn.abSynced = true) (h : conn.toAudioRing.Fits)
    (hroom : RoomFor a conn) (hext : Extends conn.toAudioRing (effectiveSeqno a conn))
    {q : SeqT} (hq : Between conn.abRead conn.abWrite q) :
    (storePacket decode timeNow a conn).1.entry q = conn.entry q := by
  have hlen := h.distance_le hs
  have hdist := distance_of_extends hlen hext
  unfold RoomFor at hroom
  unfold storePacket
  rw [syncToPacket_of_synced a hs] at hroom ⊢
  replace hroom := hroom hext
  dsimp only at hroom ⊢
  generalize effectiveSeqno a conn = seqno at hroom hext hdist ⊢
  have hslot : bufidx q ≠ bufidx seqno := by
    intro he
    have hqs : q = seqno := slot_injective_on bufferFrames_dvd (lt_of_lt_of_le hq hlen) hroom he
    unfold Between at hq
    rw [hqs] at hq
    omega
  have hfill : ∀ placed : ConnInfo,
      (fillSlot decode timeNow a seqno placed).1.entry q = placed.entry q := fun placed =>
    Function.update_of_ne hslot _ _
  unfold placePacket
  rcases hext with hplace | hplace
  · simp only [hplace, reduceCtorEq, if_false, hfill]
    have hslots := congrArg AudioRing.audioBuffer
      (measureInputFrameRate_toAudioRing timeNow a.actualTimestamp conn)
    exact congrFun hslots (bufidx q)
  · simp only [hplace, reduceCtorEq, if_false, hfill]
    exact clearGap_gap_of_between timeNow (by omega) hq

/-! ## Runs -/

section Steps

variable {cfg : Config} {decode : PacketDecoder} {s t : System}

theorem roomFor_congr {a : PutArgs} {conn conn' : ConnInfo}
    (hring : conn'.toAudioRing = conn.toAudioRing) :
    RoomFor a conn' ↔ RoomFor a conn := by
  unfold RoomFor
  rw [syncToPacket_toAudioRing_congr hring, effectiveSeqno_congr hring]

theorem playerPutPacketStore_fits (timeNow : Nanoseconds) (a : PutArgs) {conn : ConnInfo}
    (h : conn.toAudioRing.Fits)
    (hroom : conn.connectionStateToOutput ≠ 0 → RoomFor a conn) :
    (playerPutPacketStore decode timeNow a conn).1.toAudioRing.Fits := by
  have hring := countPacket_ignoreEarlyFlush_toAudioRing timeNow conn
  unfold playerPutPacketStore
  dsimp only
  rw [countPacket_ignoreEarlyFlush_connectionStateToOutput]
  split
  · rw [hring]
    exact h
  · rename_i hout
    exact storePacket_fits decode timeNow a (hring ▸ h) ((roomFor_congr hring).mpr (hroom hout))

theorem playerPutPacketStore_entry_of_between (decode : PacketDecoder)
    (timeNow : Nanoseconds) (a : PutArgs) {conn : ConnInfo}
    (hout : conn.connectionStateToOutput ≠ 0) (hs : conn.abSynced = true)
    (h : conn.toAudioRing.Fits) (hroom : RoomFor a conn)
    (hext : Extends conn.toAudioRing (effectiveSeqno a conn)) {q : SeqT}
    (hq : Between conn.abRead conn.abWrite q) :
    (playerPutPacketStore decode timeNow a conn).1.entry q = conn.entry q := by
  have hring := countPacket_ignoreEarlyFlush_toAudioRing timeNow conn
  have hstate := countPacket_ignoreEarlyFlush_connectionStateToOutput timeNow conn
  unfold playerPutPacketStore
  dsimp only
  generalize countPacket timeNow (ignoreEarlyFlush conn) = counted at hring hstate ⊢
  rw [← effectiveSeqno_congr hring] at hext
  rw [← roomFor_congr hring] at hroom
  rw [← hring] at hs h hext hq ⊢
  rw [if_neg (by rw [hstate]; exact hout)]
  exact storePacket_entry_of_between decode timeNow a hs h hroom hext hq

theorem step_fits {l : Label} (h : SlotInvariant s) (hfits : s.conn.toAudioRing.Fits)
    (hroom : HasRoom s l) (hstep : step cfg decode s l = some t) :
    t.conn.toAudioRing.Fits := by
  cases l with
  | put thread timeNow a =>
      obtain ⟨-, rfl⟩ := step_put_eq_some_iff.mp hstep
      rw [(put_resendFrame cfg decode s thread timeNow a).fits_iff]
      exact playerPutPacketStore_fits timeNow a hfits hroom
  | resent thread =>
      obtain ⟨scan, -, rfl⟩ := step_resent_eq_some_iff.mp hstep
      exact (resent_resendFrame cfg s thread scan).fits_iff.mpr hfits
  | get rd =>
      obtain ⟨loop, -, rfl⟩ := step_get_eq_some_iff.mp hstep
      obtain ⟨hwait, hout⟩ := bufferGetFrameIteration_intact cfg rd loop h.holds hfits
      unfold System.get
      dsimp only
      split
      · exact hwait.fits
      · rename_i hstop
        exact (hout (Bool.eq_false_iff.mpr hstop)).fits
  | finish played =>
      obtain ⟨frame, -, rfl⟩ := step_finish_eq_some_iff.mp hstep
      unfold System.finish
      cases played <;> exact hfits
  | resync linkResumed =>
      obtain rfl := Option.some.inj hstep
      intro hs
      cases linkResumed <;> exact absurd hs Bool.false_ne_true
  | flush timestamp =>
      obtain rfl := Option.some.inj hstep
      exact hfits

theorem step_keepsUnconsumed {l : Label} (hfits : s.conn.toAudioRing.Fits)
    (hroom : HasRoom s l) (hstep : step cfg decode s l = some t) : KeepsUnconsumed s l t := by
  cases l with
  | put thread timeNow a =>
      obtain ⟨-, rfl⟩ := step_put_eq_some_iff.mp hstep
      intro hout hs hext q hq
      have hentry := playerPutPacketStore_entry_of_between decode timeNow a hout hs
        hfits (hroom hout) hext hq
      have hcontent := (put_resendFrame cfg decode s thread timeNow a).content (bufidx q)
      exact hcontent.trans (congrArg AudioBufferEntry.content hentry)
  | _ => exact trivial

/-- What `get_audio_buffer_size_and_occupancy` reports of a window that does not look negative. -/
theorem reportedOccupancy_eq {conn : ConnInfo}
    (hlen : distance conn.abRead conn.abWrite < 2 ^ 15) :
    (getAudioBufferSizeAndOccupancy conn).2.toNat =
      if conn.abSynced then distance conn.abRead conn.abWrite else 0 := by
  unfold getAudioBufferSizeAndOccupancy
  dsimp only
  split
  · have hmsb : (conn.abWrite - conn.abRead).msb = false := by
      rw [BitVec.msb_eq_false_iff_two_mul_lt]
      unfold distance at hlen
      omega
    rw [BitVec.signExtend_eq_setWidth_of_msb_false hmsb, BitVec.toNat_setWidth,
      Nat.mod_eq_of_lt (lt_trans (BitVec.isLt _) (by decide))]
    rfl
  · rfl

theorem getAudioBufferSizeAndOccupancy_le {conn : ConnInfo} (h : conn.toAudioRing.Fits) :
    (getAudioBufferSizeAndOccupancy conn).2 ≤ (getAudioBufferSizeAndOccupancy conn).1 := by
  by_cases hs : conn.abSynced = true
  · have hlen := h.distance_le hs
    rw [BitVec.le_def, reportedOccupancy_eq (hlen.trans_lt bufferFrames_lt), if_pos hs]
    exact hlen
  · unfold getAudioBufferSizeAndOccupancy
    rw [if_neg hs, BitVec.le_def]
    exact Nat.zero_le _

theorem reportedOccupancy_storePacket_le (decode : PacketDecoder) (timeNow : Nanoseconds)
    {a : PutArgs} (ha : a.originalFormat = false) {conn : ConnInfo} (h : conn.toAudioRing.Fits) :
    (getAudioBufferSizeAndOccupancy (storePacket decode timeNow a conn).1).2.toNat ≤
      (getAudioBufferSizeAndOccupancy conn).2.toNat + 1 := by
  have hframes : bufferFrames = 1024 := rfl
  obtain ⟨hread, hwrite⟩ := storePacket_window decode timeNow a conn
  -- the packet takes the next number, which a buffer that is not synced begins with
  have hnext : effectiveSeqno a conn = (syncToPacket a conn).1.abWrite ∧
      distance (syncToPacket a conn).1.abRead (syncToPacket a conn).1.abWrite =
        if conn.abSynced then distance conn.abRead conn.abWrite else 0 := by
    unfold effectiveSeqno syncToPacket
    rw [ha]
    cases hs : conn.abSynced with
    | true => exact ⟨rfl, rfl⟩
    | false => exact ⟨rfl, distance_self _⟩
  have hbefore : (getAudioBufferSizeAndOccupancy conn).2.toNat =
      distance (syncToPacket a conn).1.abRead (syncToPacket a conn).1.abWrite := by
    rw [hnext.2]
    by_cases hs : conn.abSynced = true
    · exact reportedOccupancy_eq ((h.distance_le hs).trans_lt bufferFrames_lt)
    · unfold getAudioBufferSizeAndOccupancy
      rw [if_neg hs, if_neg hs]
      rfl
  have hlen := (syncToPacket_within a h).distance_le (syncToPacket_abSynced a conn)
  have hafter : distance (storePacket decode timeNow a conn).1.abRead
      (storePacket decode timeNow a conn).1.abWrite ≤
        distance (syncToPacket a conn).1.abRead (syncToPacket a conn).1.abWrite + 1 := by
    rw [hread, hwrite, hnext.1]
    split
    · rw [distance_add_one_of_lt (by omega)]
    · exact Nat.le_add_right _ _
  rw [hbefore, reportedOccupancy_eq (by omega)]
  split
  · exact hafter
  · exact Nat.zero_le _

/-- A packet that is not in the original format adds no more than itself to what is reported. -/
theorem reportedOccupancy_put_le (decode : PacketDecoder) (timeNow : Nanoseconds) {a : PutArgs}
    (ha : a.originalFormat = false) {conn : ConnInfo} (h : conn.toAudioRing.Fits) :
    (getAudioBufferSizeAndOccupancy (playerPutPacketStore decode timeNow a conn).1).2.toNat ≤
      (getAudioBufferSizeAndOccupancy conn).2.toNat + 1 := by
  have hring := countPacket_ignoreEarlyFlush_toAudioRing timeNow conn
  unfold playerPutPacketStore
  dsimp only
  generalize countPacket timeNow (ignoreEarlyFlush conn) = counted at hring ⊢
  have hsame : getAudioBufferSizeAndOccupancy conn = getAudioBufferSizeAndOccupancy counted := by
    unfold getAudioBufferSizeAndOccupancy
    rw [hring]
  rw [hsame]
  split
  · exact Nat.le_add_right _ _
  · exact reportedOccupancy_storePacket_le decode timeNow ha (hring ▸ h)

end Steps

/-- The occupancy is between 0 and the size of the ring, also as it is reported. -/
def OccupancyBounded (conn : ConnInfo) : Prop :=
  conn.toAudioRing.Within bufferFrames ∧
    (getAudioBufferSizeAndOccupancy conn).2 ≤ (getAudioBufferSizeAndOccupancy conn).1

/-- In every run whose packets have room, the occupancy stays within the ring and
accepting a packet never overwrites one that is waiting. -/
theorem occupancy_stays_within_ring (cfg : Config) (decode : PacketDecoder) (conn : ConnInfo)
    (firstPossiblyMissingFrame : Int) (labels : List Label) (t : System)
    (hroom : Along (step cfg decode) (fun s l => SlotsSafe s l ∧ HasRoom s l)
      (System.start conn firstPossiblyMissingFrame) labels)
    (hrun : run (step cfg decode) (System.start conn firstPossiblyMissingFrame) labels =
      some t) :
    OccupancyBounded t.conn ∧
      ∀ l u, HasRoom t l → step cfg decode t l = some u → KeepsUnconsumed t l u := by
  have hinv : SlotInvariant t ∧ t.conn.toAudioRing.Fits := by
    refine run_invariant (I := fun s => SlotInvariant s ∧ s.conn.toAudioRing.Fits) ?_
      ⟨slotInvariant_start conn firstPossiblyMissingFrame,
        fun hs => absurd hs Bool.false_ne_true⟩
      (throughout_true _ labels) hroom hrun
    rintro s l u ⟨h, hfits⟩ - ⟨hsafe, hroom⟩ hstep -
    have hpost := step_fits h hfits hroom hstep
    exact ⟨h.step hfits hsafe hstep hpost, hpost⟩
  exact ⟨⟨hinv.2, getAudioBufferSizeAndOccupancy_le hinv.2⟩,
    fun _ _ hroom hstep => step_keepsUnconsumed hinv.2 hroom hstep⟩

/-- Two packets in order and a late one. -/
theorem occupancy_stays_within_ring_of_three :
    ∃ t, run (step .playOnly .pcm) (.start .fresh 0)
        [.put 0 1 (.original 65534 1000 [1, 2, 3, 4]),
          .put 0 2 (.original 65535 1001 [5, 6, 7, 8]),
          .put 0 3 (.original 65535 1001 [5, 6, 7, 8])] = some t ∧
      OccupancyBounded t.conn := by
  obtain ⟨t, hrun⟩ := Option.isSome_iff_exists.mp (show (run (step .playOnly .pcm)
    (.start .fresh 0) [.put 0 1 (.original 65534 1000 [1, 2, 3, 4]),
      .put 0 2 (.original 65535 1001 [5, 6, 7, 8]),
      .put 0 3 (.original 65535 1001 [5, 6, 7, 8])]).isSome by decide +kernel)
  exact ⟨t, hrun,
    (occupancy_stays_within_ring _ _ _ _ _ t (by decide +kernel) hrun).1⟩

/-- A packet 5000 numbers after the first one is accepted by a ring of 1024 slots. -/
theorem occupancy_exceeds_ring :
    ¬ ∀ (cfg : Config) (decode : PacketDecoder) (conn : ConnInfo)
      (firstPossiblyMissingFrame : Int) (labels : List Label) (t : System),
      (∀ l ∈ labels, (∃ thread timeNow a, l = .put thread timeNow a) ∨ ∃ rd, l = .get rd) →
      run (step cfg decode) (System.start conn firstPossiblyMissingFrame) labels = some t →
      OccupancyBounded t.conn := by
  intro h
  have hfirst : ((System.start .fresh 0).put .playOnly .pcm 0 1 (.original 0 1000 [])).resending
      0 = none := by decide +kernel
  have hrun : run (step .playOnly .pcm) (System.start .fresh 0)
      [.put 0 1 (.original 0 1000 []), .put 0 2 (.original 5000 2000 [])] =
      some (((System.start .fresh 0).put .playOnly .pcm 0 1 (.original 0 1000 [])).put
        .playOnly .pcm 0 2 (.original 5000 2000 [])) := by
    rw [run_cons_eq_some_iff]
    refine ⟨_, step_put_eq_some_iff.mpr ⟨rfl, rfl⟩, ?_⟩
    rw [run_cons_eq_some_iff]
    exact ⟨_, step_put_eq_some_iff.mpr ⟨hfirst, rfl⟩, rfl⟩
  have hbounded := h .playOnly .pcm .fresh 0 _ _ (by simp) hrun
  have hfits := (put_resendFrame _ _ _ _ _ _).fits_iff.mp hbounded.1
  exact absurd hfits (by decide +kernel)

end Player

end ShairportSync
