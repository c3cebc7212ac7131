import ShairportSync.Player.System

/-!
# The ring as a copy of the abstract buffer

`Holds slots r t m` says that in the window `[r, t)` the ready entries are the packets
the abstract buffer `m` holds, each under its own number, and that `m` holds nothing
outside the window. Every way the source changes the ring is a lemma here: writing an
entry of the window, appending one, marking a gap, advancing the start of the window by
one number or by one of the loops.
-/

namespace ShairportSync

namespace Player

open SerialNumber

/-- The ready entries of the window `[r, t)` are exactly the packets held. -/
structure Holds (slots : Fin bufferFrames → AudioBufferEntry) (r t : SeqT) (m : Held) :
    Prop where
  agrees : Agrees (fun i => (slots i).content) (fun q => (m q).map (Prod.mk q)) r t
  outside : ∀ q, ¬ Between r t q → m q = none

section Window

variable {slots : Fin bufferFrames → AudioBufferEntry} {r t : SeqT} {m : Held}

theorem holds_empty (slots : Fin bufferFrames → AudioBufferEntry) (r : SeqT) :
    Holds slots r r fun _ => none :=
  ⟨agrees_self _ _ r, fun _ _ => rfl⟩

theorem Holds.packet_of_ready (h : Holds slots r t m) {q : SeqT} (hq : Between r t q)
    (hready : (slots (bufidx q)).ready = true) :
    (slots (bufidx q)).sequenceNumber = q ∧ m q = some (slots (bufidx q)).packet := by
  have hcontent : (slots (bufidx q)).content = (m q).map (Prod.mk q) := h.agrees q hq
  rw [content_of_ready hready, eq_comm, Option.map_eq_some_iff] at hcontent
  obtain ⟨p, hp, heq⟩ := hcontent
  obtain ⟨hseq, hpacket⟩ := Prod.mk.inj heq
  exact ⟨hseq.symm, by rw [hp, hpacket]⟩

theorem Holds.eq_none_of_not_ready (h : Holds slots r t m) {q : SeqT} (hq : Between r t q)
    (hready : (slots (bufidx q)).ready = false) : m q = none := by
  have hcontent : (slots (bufidx q)).content = (m q).map (Prod.mk q) := h.agrees q hq
  rwa [content_eq_none_iff.mpr hready, eq_comm, Option.map_eq_none_iff] at hcontent

/-- Only the contents of the entries of the window matter. -/
theorem Holds.congr_slots (h : Holds slots r t m)
    {slots' : Fin bufferFrames → AudioBufferEntry}
    (hs : ∀ q, Between r t q →
      (slots' (bufidx q)).content = (slots (bufidx q)).content) :
    Holds slots' r t m :=
  ⟨fun q hq => (hs q hq).trans (h.agrees q hq), h.outside⟩

/-- Writing the entry of a number of the window. -/
theorem Holds.write (h : Holds slots r t m) (hlen : distance r t ≤ bufferFrames) {q : SeqT}
    (hq : Between r t q) {abuf : AudioBufferEntry} {x : Option Packet}
    (hx : abuf.content = x.map (Prod.mk q)) :
    Holds (Function.update slots (bufidx q) abuf) r t (Function.update m q x) := by
  constructor
  · have hagrees := h.agrees.update bufferFrames_dvd hlen hq abuf.content
    intro p hp
    have hp' := hagrees p hp
    rw [hx, ← Function.apply_update (fun p x => Option.map (Prod.mk p) x), ← hx,
      ← Function.apply_update fun _ abuf => AudioBufferEntry.content abuf] at hp'
    exact hp'
  · intro p hp
    have hpq : p ≠ q := fun he => hp (he ▸ hq)
    rw [Function.update_of_ne hpq]
    exact h.outside p hp

theorem Holds.push (h : Holds slots r t m) (hlen : distance r t < bufferFrames)
    {abuf : AudioBufferEntry} {x : Option Packet} (hx : abuf.content = x.map (Prod.mk t)) :
    Holds (Function.update slots (bufidx t) abuf) r (t + 1) (Function.update m t x) := by
  have hw : distance r t + 1 < 2 ^ 16 := by
    have : bufferFrames + 1 < 2 ^ 16 := by decide
    omega
  constructor
  · have hagrees := h.agrees.push bufferFrames_dvd hlen hw abuf.content
    intro p hp
    have hp' := hagrees p hp
    rw [hx, ← Function.apply_update (fun p x => Option.map (Prod.mk p) x), ← hx,
      ← Function.apply_update fun _ abuf => AudioBufferEntry.content abuf] at hp'
    exact hp'
  · intro p hp
    rw [show t + 1 = t + 1#16 from rfl, between_add_one_right hw, not_or] at hp
    rw [Function.update_of_ne hp.1]
    exact h.outside p hp.2

/-- Extending the window by numbers whose slots are not ready. -/
theorem Holds.extend (h : Holds slots r t m) {u : SeqT}
    {slots' : Fin bufferFrames → AudioBufferEntry}
    (hlen : distance r t + distance t u < 2 ^ 16)
    (hkeep : ∀ q, Between r t q → slots' (bufidx q) = slots (bufidx q))
    (hclear : ∀ q, Between t u q → (slots' (bufidx q)).ready = false) :
    Holds slots' r u m := by
  constructor
  · intro q hq
    rcases (between_append hlen).mp hq with hq | hq
    · have hcontent := h.agrees q hq
      have hkeep' : slots' (slot bufferFrames q) = slots (slot bufferFrames q) := hkeep q hq
      simpa only [hkeep'] using hcontent
    · have hnone : m q = none := h.outside q (hq.not_between_left hlen)
      simp only [hnone, Option.map_none]
      exact content_eq_none_iff.mpr (hclear q hq)
  · intro q hq
    rw [between_append hlen, not_or] at hq
    exact h.outside q hq.1

theorem Holds.leave (h : Holds slots r t m) (hne : t ≠ r) :
    Holds slots (r + 1) t (Function.update m r none) := by
  constructor
  · refine (h.agrees.tail hne).congr_map fun q hq => ?_
    have hqr : q ≠ r := ((between_add_one_left hne).mp hq).2
    rw [Function.update_of_ne hqr]
  · intro q hq
    by_cases hqr : q = r
    · rw [hqr, Function.update_self]
    · rw [Function.update_of_ne hqr]
      exact h.outside q fun hq' => hq ((between_add_one_left hne).mpr ⟨hq', hqr⟩)

theorem Holds.leave_write (h : Holds slots r t m) (hne : t ≠ r)
    (hlen : distance r t ≤ bufferFrames) (abuf : AudioBufferEntry) :
    Holds (Function.update slots (bufidx r) abuf) (r + 1) t (Function.update m r none) := by
  refine (h.leave hne).congr_slots fun q hq => ?_
  obtain ⟨hq, hqr⟩ := (between_add_one_left hne).mp hq
  have hslot : bufidx q ≠ bufidx r := fun he =>
    hqr (slot_injective_on bufferFrames_dvd (lt_of_lt_of_le hq hlen)
      (lt_of_lt_of_le (between_left hne) hlen) he)
  rw [Function.update_of_ne hslot]

/-- The entry at the start of the window is trimmed to the flush frame. -/
theorem Holds.trim (h : Holds slots r t m) (hlen : distance r t ≤ bufferFrames)
    (bytesPerFrame : ℕ) (flushFrame : RtpTime) :
    Holds (Function.update slots (bufidx r) ((slots (bufidx r)).trim bytesPerFrame flushFrame))
      r t (Function.update m r ((m r).map (Packet.trim bytesPerFrame flushFrame))) := by
  by_cases hne : t = r
  · subst hne
    have hnone : m t = none := h.outside t (not_between_right t t)
    rw [hnone, Option.map_none, ← hnone, Function.update_eq_self]
    exact h.congr_slots fun q hq => absurd hq (not_between_self t q)
  · refine h.write hlen (between_left hne) ?_
    have hcontent : (slots (bufidx r)).content = (m r).map (Prod.mk r) :=
      h.agrees r (between_left hne)
    rw [trim_content, hcontent, Option.map_map, Option.map_map]
    rfl

end Window

/-! ## The loops -/

section Loops

variable {slots : Fin bufferFrames → AudioBufferEntry} {r t : SeqT} {m : Held}

theorem intDifference_toNat_le (ring : AudioRing) :
    ring.intDifference.toNat ≤ distance ring.abRead ring.abWrite := by
  unfold AudioRing.intDifference distance
  rw [BitVec.toNat_sub]
  omega

theorem intDifference_toNat_of_pos {ring : AudioRing} (h : 0 < ring.intDifference) :
    ring.intDifference.toNat = distance ring.abRead ring.abWrite := by
  unfold AudioRing.intDifference at h ⊢
  unfold distance
  rw [BitVec.toNat_sub]
  omega

theorem skipLoop_holds (shouldBeFrame : ℕ → RtpTime) (n k : ℕ) (h : Holds slots r t m)
    (hn : n ≤ distance r t) :
    Holds slots (skipLoop slots shouldBeFrame n k r).1 t
        (m.applyAll (skipLoop slots shouldBeFrame n k r).2) ∧
      distance (skipLoop slots shouldBeFrame n k r).1 t ≤ distance r t := by
  induction n generalizing k r m with
  | zero => exact ⟨h, le_refl _⟩
  | succ n ih =>
      have hne : t ≠ r := distance_pos_iff.mp (by omega)
      have hstep : distance (r + 1) t + 1 = distance r t := distance_add_one_left hne
      have hrest := fun k => ih (r := r + 1) k (h.leave hne) (by omega)
      unfold skipLoop
      dsimp only
      split_ifs
      · exact ⟨(hrest (k + 1)).1, (hrest (k + 1)).2.trans (by omega)⟩
      · exact ⟨h, le_refl _⟩
      · exact ⟨(hrest k).1, (hrest k).2.trans (by omega)⟩

/-- The loop over the window ends at the end of the window or at a ready frame that is not
out of date. -/
theorem skipLoop_stops (slots : Fin bufferFrames → AudioBufferEntry)
    (shouldBeFrame : ℕ → RtpTime) (n k : ℕ) (r : SeqT) :
    (skipLoop slots shouldBeFrame n k r).1 = r + BitVec.ofNat 16 n ∨
      (∃ j < n, (skipLoop slots shouldBeFrame n k r).1 = r + BitVec.ofNat 16 j) ∧
        ∃ j, 0 ≤ ((slots (bufidx (skipLoop slots shouldBeFrame n k r).1)).givenTimestamp -
          shouldBeFrame j).toInt := by
  induction n generalizing k r with
  | zero => exact Or.inl (BitVec.add_zero r).symm
  | succ n ih =>
      have hrest : ∀ k, (skipLoop slots shouldBeFrame n k (r + 1)).1 =
            r + BitVec.ofNat 16 (n + 1) ∨
          (∃ j < n + 1, (skipLoop slots shouldBeFrame n k (r + 1)).1 =
            r + BitVec.ofNat 16 j) ∧
          ∃ j, 0 ≤ ((slots (bufidx (skipLoop slots shouldBeFrame n k (r + 1)).1)).givenTimestamp
            - shouldBeFrame j).toInt := by
        intro k
        rcases ih k (r + 1) with hend | ⟨⟨j, hj, hstop⟩, hframe⟩
        · exact Or.inl (hend.trans (add_one_add_ofNat r n))
        · exact Or.inr ⟨⟨j + 1, Nat.succ_lt_succ hj, hstop.trans (add_one_add_ofNat r j)⟩, hframe⟩
      unfold skipLoop
      dsimp only
      split_ifs with hready hlate
      · exact hrest (k + 1)
      · exact Or.inr ⟨⟨0, Nat.succ_pos n, (BitVec.add_zero r).symm⟩, k, not_lt.mp hlate⟩
      · exact hrest k

theorem dropBeforeFlush_holds (flushFrame : RtpTime) (n : ℕ) (h : Holds slots r t m)
    (hn : n ≤ distance r t) :
    Holds slots (dropBeforeFlush slots flushFrame n r) t
        (m.applyAll
          (flushedEvents (distance r (dropBeforeFlush slots flushFrame n r)) r)) ∧
      distance (dropBeforeFlush slots flushFrame n r) t ≤ distance r t := by
  induction n generalizing r m with
  | zero =>
      unfold dropBeforeFlush
      rw [distance_self]
      exact ⟨h, le_refl _⟩
  | succ n ih =>
      have hne : t ≠ r := distance_pos_iff.mp (by omega)
      have hstep : distance (r + 1) t + 1 = distance r t := distance_add_one_left hne
      unfold dropBeforeFlush
      split_ifs with hbefore
      · obtain ⟨hholds, hle⟩ := ih (h.leave hne) (by omega)
        generalize dropBeforeFlush slots flushFrame n (r + 1) = r' at hholds hle
        have hr' : r' ≠ r := by
          rintro rfl
          omega
        have hcount : distance r r' = distance (r + 1) r' + 1 :=
          (distance_add_one_left hr').symm
        rw [hcount]
        exact ⟨hholds, by omega⟩
      · rw [distance_self]
        exact ⟨h, le_refl _⟩

theorem clearGap_of_forall_ne (timeNow : Nanoseconds) (n : ℕ) (seqno : SeqT)
    {i : Fin bufferFrames} (hi : ∀ k < n, bufidx (seqno + BitVec.ofNat 16 k) ≠ i) :
    clearGap timeNow n seqno slots i = slots i := by
  induction n generalizing seqno slots with
  | zero => rfl
  | succ n ih =>
      have hfirst : i ≠ bufidx seqno := by
        have h0 := hi 0 (Nat.succ_pos n)
        rw [BitVec.add_zero] at h0
        exact h0.symm
      unfold clearGap
      rw [ih (seqno + 1) fun k hk => ?_, Function.update_of_ne hfirst]
      have hk' := hi (k + 1) (Nat.succ_lt_succ hk)
      rwa [← add_one_add_ofNat] at hk'

theorem clearGap_ready_of_not_ready (timeNow : Nanoseconds) (n : ℕ) (seqno : SeqT)
    {i : Fin bufferFrames} (hi : (slots i).ready = false) :
    (clearGap timeNow n seqno slots i).ready = false := by
  induction n generalizing seqno slots with
  | zero => exact hi
  | succ n ih =>
      unfold clearGap
      apply ih
      by_cases hfirst : i = bufidx seqno
      · rw [hfirst, Function.update_self]
        rfl
      · rw [Function.update_of_ne hfirst]
        exact hi

theorem clearGap_ready (timeNow : Nanoseconds) (n : ℕ) (seqno : SeqT)
    (slots : Fin bufferFrames → AudioBufferEntry) {k : ℕ} (hk : k < n) :
    (clearGap timeNow n seqno slots (bufidx (seqno + BitVec.ofNat 16 k))).ready = false := by
  induction n generalizing seqno slots k with
  | zero => omega
  | succ n ih =>
      unfold clearGap
      cases k with
      | zero =>
          apply clearGap_ready_of_not_ready
          rw [BitVec.add_zero, Function.update_self]
          rfl
      | succ k =>
          have hk' := ih (seqno + 1) (Function.update slots (bufidx seqno)
            ((slots (bufidx seqno)).markMissing timeNow)) (Nat.lt_of_succ_lt_succ hk)
          rwa [← add_one_add_ofNat]

end Loops

/-! ## Storing a packet -/

@[simp] theorem countPacket_toAudioRing (timeNow : Nanoseconds) (conn : ConnInfo) :
    (countPacket timeNow conn).toAudioRing = conn.toAudioRing := rfl

@[simp] theorem ignoreEarlyFlush_toAudioRing (conn : ConnInfo) :
    (ignoreEarlyFlush conn).toAudioRing = conn.toAudioRing := by
  unfold ignoreEarlyFlush
  split <;> rfl

@[simp] theorem measureInputFrameRate_toAudioRing (timeNow : Nanoseconds) (timestamp : RtpTime)
    (conn : ConnInfo) :
    (measureInputFrameRate timeNow timestamp conn).toAudioRing = conn.toAudioRing := by
  unfold measureInputFrameRate
  dsimp only
  split <;> rfl

/-- The window of a connection that is synced is a copy of what is held. -/
def AudioRing.Holds (ring : AudioRing) (m : Held) : Prop :=
  ring.abSynced = true → Player.Holds ring.audioBuffer ring.abRead ring.abWrite m

/-- The occupancy of a synced ring is at most `limit`. -/
def AudioRing.Within (limit : ℕ) (ring : AudioRing) : Prop :=
  ring.abSynced = true → 0 ≤ ring.occupancy ∧ ring.occupancy ≤ limit

instance (limit : ℕ) (ring : AudioRing) : Decidable (ring.Within limit) :=
  inferInstanceAs (Decidable (_ → _))

theorem occupancy_le_iff {limit : ℕ} (hlimit : limit < 2 ^ 15) (ring : AudioRing) :
    (0 ≤ ring.occupancy ∧ ring.occupancy ≤ limit) ↔
      distance ring.abRead ring.abWrite ≤ limit := by
  unfold AudioRing.occupancy distance
  rw [BitVec.toInt_eq_toNat_cond]
  have := (ring.abWrite - ring.abRead).isLt
  split <;> omega

theorem bufferFrames_lt : bufferFrames < 2 ^ 15 := by decide

/-- The window has at most one number for each slot. -/
abbrev AudioRing.Fits (ring : AudioRing) : Prop := ring.Within bufferFrames

theorem AudioRing.Fits.distance_le {ring : AudioRing} (h : ring.Fits)
    (hs : ring.abSynced = true) : distance ring.abRead ring.abWrite ≤ bufferFrames :=
  (occupancy_le_iff bufferFrames_lt ring).mp (h hs)

theorem AudioRing.Within.fits {ring : AudioRing} (h : ring.Within (bufferFrames - 1)) :
    ring.Fits := fun hs => ⟨(h hs).1, (h hs).2.trans (by decide)⟩

theorem syncToPacket_abSynced (a : PutArgs) (conn : ConnInfo) :
    (syncToPacket a conn).1.abSynced = true := by
  unfold syncToPacket
  split <;> simp [*]

theorem syncToPacket_holds (a : PutArgs) {conn : ConnInfo} {m : Held}
    (h : conn.toAudioRing.Holds m) :
    (syncToPacket a conn).1.toAudioRing.Holds (m.applyAll (syncToPacket a conn).2) := by
  unfold syncToPacket
  split
  · exact h
  · exact fun _ => holds_empty _ _

theorem isAfter_iff {a b : SeqT} :
    isAfter a b = true ↔ 0 < distance a b ∧ distance a b < 2 ^ 15 := by
  unfold isAfter distance
  rw [decide_eq_true_iff, BitVec.toInt_eq_toNat_cond]
  have := (b - a).isLt
  split <;> omega

theorem between_of_placement_late {ring : AudioRing} {seqno : SeqT}
    (h : placement ring seqno = .late) : Between ring.abRead ring.abWrite seqno := by
  unfold placement at h
  split_ifs at h with heq hnewer hlate
  have hpos : 0 < distance ring.abWrite seqno := distance_pos_iff.mpr (Ne.symm heq)
  rw [isAfter_iff] at hnewer hlate
  by_contra hge
  have hadd : distance ring.abRead ring.abWrite + distance ring.abWrite seqno =
      distance ring.abRead seqno := distance_add_of_le (not_lt.mp hge)
  omega

theorem distance_of_placement_newer {ring : AudioRing} {seqno : SeqT}
    (h : placement ring seqno = .newer) :
    0 < distance ring.abWrite seqno ∧ distance ring.abWrite seqno < 2 ^ 15 := by
  unfold placement at h
  split_ifs at h with heq hnewer
  exact isAfter_iff.mp hnewer

theorem eq_of_placement_expected {ring : AudioRing} {seqno : SeqT}
    (h : placement ring seqno = .expected) : ring.abWrite = seqno := by
  unfold placement at h
  split_ifs at h with heq
  exact heq

def Extends (ring : AudioRing) (seqno : SeqT) : Prop :=
  placement ring seqno = .expected ∨ placement ring seqno = .newer

instance (ring : AudioRing) (seqno : SeqT) : Decidable (Extends ring seqno) :=
  inferInstanceAs (Decidable (_ ∨ _))

/-- The window after a packet has been placed. -/
theorem placePacket_window (timeNow : Nanoseconds) (timestamp : RtpTime) (seqno : SeqT)
    (conn : ConnInfo) :
    (placePacket timeNow timestamp seqno conn).abRead = conn.abRead ∧
      (placePacket timeNow timestamp seqno conn).abSynced = conn.abSynced ∧
      (placePacket timeNow timestamp seqno conn).abWrite =
        if Extends conn.toAudioRing seqno then seqno + 1 else conn.abWrite := by
  unfold placePacket
  split
  · rename_i hplace
    have hring := measureInputFrameRate_toAudioRing timeNow timestamp conn
    have hread := congrArg AudioRing.abRead hring
    have hsynced := congrArg AudioRing.abSynced hring
    rw [if_pos (show Extends conn.toAudioRing seqno from Or.inl hplace)]
    exact ⟨hread, hsynced, rfl⟩
  · rename_i hplace
    rw [if_pos (show Extends conn.toAudioRing seqno from Or.inr hplace)]
    exact ⟨rfl, rfl, rfl⟩
  · rename_i hplace
    rw [if_neg (by simp [Extends, hplace])]
    exact ⟨rfl, rfl, rfl⟩
  · rename_i hplace
    rw [if_neg (by simp [Extends, hplace])]
    exact ⟨rfl, rfl, rfl⟩

/-- Filling a slot does not move the window. -/
theorem storePacket_window (decode : PacketDecoder) (timeNow : Nanoseconds) (a : PutArgs)
    (conn : ConnInfo) :
    let synced := (syncToPacket a conn).1
    let seqno := effectiveSeqno a conn
    (storePacket decode timeNow a conn).1.abRead = synced.abRead ∧
      (storePacket decode timeNow a conn).1.abWrite =
        if Extends synced.toAudioRing seqno then seqno + 1 else synced.abWrite := by
  have hplaced := placePacket_window timeNow a.actualTimestamp (effectiveSeqno a conn)
    (syncToPacket a conn).1
  unfold storePacket
  dsimp only
  split
  · exact ⟨hplaced.1, hplaced.2.2⟩
  · exact ⟨hplaced.1, hplaced.2.2⟩

/-- The placing and storing of a packet leaves the flush request and two of the counters
alone. -/
structure StoreFrame (conn conn' : ConnInfo) : Prop where
  flush : conn'.toFlushRequest = conn.toFlushRequest
  packetCount : conn'.packetCount = conn.packetCount
  missingPackets : conn'.missingPackets = conn.missingPackets

theorem StoreFrame.trans {conn conn' conn'' : ConnInfo} (h : StoreFrame conn conn')
    (h' : StoreFrame conn' conn'') : StoreFrame conn conn'' :=
  ⟨h'.flush.trans h.flush, h'.packetCount.trans h.packetCount,
    h'.missingPackets.trans h.missingPackets⟩

theorem syncToPacket_frame (a : PutArgs) (conn : ConnInfo) :
    StoreFrame conn (syncToPacket a conn).1 := by
  unfold syncToPacket
  split <;> exact ⟨rfl, rfl, rfl⟩

theorem placePacket_frame (timeNow : Nanoseconds) (timestamp : RtpTime) (seqno : SeqT)
    (conn : ConnInfo) : StoreFrame conn (placePacket timeNow timestamp seqno conn) := by
  unfold placePacket measureInputFrameRate
  dsimp only
  split
  · split <;> exact ⟨rfl, rfl, rfl⟩
  · exact ⟨rfl, rfl, rfl⟩
  · exact ⟨rfl, rfl, rfl⟩
  · exact ⟨rfl, rfl, rfl⟩

theorem storePacket_frame (decode : PacketDecoder) (timeNow : Nanoseconds) (a : PutArgs)
    (conn : ConnInfo) : StoreFrame conn (storePacket decode timeNow a conn).1 := by
  have hplaced := (syncToPacket_frame a conn).trans
    (placePacket_frame timeNow a.actualTimestamp (effectiveSeqno a conn) (syncToPacket a conn).1)
  unfold storePacket
  dsimp only
  split
  · exact hplaced
  · exact hplaced.trans ⟨rfl, rfl, rfl⟩

theorem syncToPacket_within (a : PutArgs) {conn : ConnInfo}
    (h : conn.toAudioRing.Fits) :
    (syncToPacket a conn).1.toAudioRing.Fits := by
  unfold syncToPacket
  split
  · exact h
  · intro _
    rw [occupancy_le_iff bufferFrames_lt, distance_self]
    decide

/-- The slots of the numbers a newer packet jumps over are ready no more: the loop over
the gap marks them, unless the packet's number is numerically below `abWrite`. -/
def GapCleared (a : PutArgs) (conn : ConnInfo) : Prop :=
  let ring := (syncToPacket a conn).1.toAudioRing
  let seqno := effectiveSeqno a conn
  placement ring seqno = .newer →
    ring.abWrite.toNat < seqno.toNat ∨
      ∀ q, Between ring.abWrite seqno q → (ring.entry q).ready = false

instance (a : PutArgs) (conn : ConnInfo) : Decidable (GapCleared a conn) :=
  inferInstanceAs (Decidable (_ → _))

theorem gapSize_toNat_le (ring : AudioRing) (seqno : SeqT) :
    (gapSize ring seqno).toNat ≤ distance ring.abWrite seqno := by
  unfold gapSize distance
  rw [BitVec.toNat_sub]
  omega

theorem gapSize_toNat_of_lt {ring : AudioRing} {seqno : SeqT}
    (h : ring.abWrite.toNat < seqno.toNat) :
    (gapSize ring seqno).toNat = distance ring.abWrite seqno := by
  unfold gapSize distance
  rw [BitVec.toNat_sub]
  omega

/-- After the loop over the gap no slot of the gap is ready. -/
theorem clearGap_gap_ready {ring : AudioRing} {seqno : SeqT} (timeNow : Nanoseconds)
    (h : ring.abWrite.toNat < seqno.toNat ∨
      ∀ q, Between ring.abWrite seqno q → (ring.entry q).ready = false)
    {q : SeqT} (hq : Between ring.abWrite seqno q) :
    (clearGap timeNow (gapSize ring seqno).toNat ring.abWrite ring.audioBuffer
      (bufidx q)).ready = false := by
  rcases h with hlt | hready
  · have hk : distance ring.abWrite q < (gapSize ring seqno).toNat := by
      rw [gapSize_toNat_of_lt hlt]
      exact hq
    have hclear := clearGap_ready timeNow _ ring.abWrite ring.audioBuffer hk
    rwa [add_ofNat_distance] at hclear
  · exact clearGap_ready_of_not_ready timeNow _ _ (hready q hq)

/-- The loop over the gap does not touch the window, as long as both fit in the ring. -/
theorem clearGap_gap_of_between {ring : AudioRing} {seqno : SeqT} (timeNow : Nanoseconds)
    (hlen : distance ring.abRead ring.abWrite + distance ring.abWrite seqno ≤ bufferFrames)
    {q : SeqT} (hq : Between ring.abRead ring.abWrite q) :
    clearGap timeNow (gapSize ring seqno).toNat ring.abWrite ring.audioBuffer (bufidx q) =
      ring.audioBuffer (bufidx q) := by
  have hlen' : distance ring.abRead ring.abWrite + distance ring.abWrite seqno < 2 ^ 16 :=
    lt_of_le_of_lt hlen (by decide)
  have hadd := distance_add hlen'
  apply clearGap_of_forall_ne
  intro k hk hslot
  have hgap := forall_lt_distance_iff (r := ring.abWrite) (t := seqno)
    (p := fun p => bufidx p ≠ bufidx q)
  refine hgap.mpr (fun p hp he => ?_) k (hk.trans_le (gapSize_toNat_le ring seqno)) hslot
  have hp' : Between ring.abRead seqno p := (between_append hlen').mpr (Or.inr hp)
  have hq' : Between ring.abRead seqno q := (between_append hlen').mpr (Or.inl hq)
  have hpq : p = q := slot_injective_on bufferFrames_dvd
    (lt_of_lt_of_le hp' (by omega)) (lt_of_lt_of_le hq' (by omega)) he
  exact hp.not_between_left hlen' (hpq ▸ hq)

theorem fillEntry_sequenceNumber (decode : PacketDecoder) (timeNow : Nanoseconds)
    (a : PutArgs) (seqno : SeqT) (conn : ConnInfo) (abuf : AudioBufferEntry)
    (h : (fillEntry decode timeNow a seqno conn abuf).ready = true) :
    (fillEntry decode timeNow a seqno conn abuf).sequenceNumber = seqno := by
  unfold fillEntry at h ⊢
  dsimp only at h ⊢
  split_ifs at h ⊢
  · rfl
  · exact absurd h Bool.false_ne_true
  · rfl

theorem content_of_sequenceNumber {abuf : AudioBufferEntry} {q : SeqT}
    (h : abuf.ready = true → abuf.sequenceNumber = q) :
    abuf.content = (if abuf.ready then some abuf.packet else none).map (Prod.mk q) := by
  cases hready : abuf.ready with
  | false => simp [AudioBufferEntry.content, hready]
  | true => simp [AudioBufferEntry.content, hready, h hready]

theorem Held.apply_fillEvent (m : Held) (seqno : SeqT) (abuf : AudioBufferEntry) :
    m.apply (fillEvent seqno abuf) =
      Function.update m seqno (if abuf.ready then some abuf.packet else none) := by
  unfold fillEvent
  split <;> rfl

section Fill

variable (decode : PacketDecoder) (timeNow : Nanoseconds) (a : PutArgs) (conn : ConnInfo)
variable {seqno : SeqT} {m : Held}

/-- Filling the slot of a number of the window. -/
theorem fillSlot_holds (h : Player.Holds conn.audioBuffer conn.abRead conn.abWrite m)
    (hlen : distance conn.abRead conn.abWrite ≤ bufferFrames)
    (hq : Between conn.abRead conn.abWrite seqno) :
    Player.Holds (fillSlot decode timeNow a seqno conn).1.audioBuffer conn.abRead conn.abWrite
      (m.applyAll (fillSlot decode timeNow a seqno conn).2) := by
  unfold fillSlot
  dsimp only
  rw [Held.applyAll_cons, Held.apply_fillEvent]
  exact h.write hlen hq
    (content_of_sequenceNumber (fillEntry_sequenceNumber decode timeNow a seqno conn _))

/-- Filling the slot of the number at the end of the window. -/
theorem fillSlot_holds_push (h : Player.Holds conn.audioBuffer conn.abRead seqno m)
    (hlen : distance conn.abRead seqno < bufferFrames) :
    Player.Holds (fillSlot decode timeNow a seqno conn).1.audioBuffer conn.abRead (seqno + 1)
      (m.applyAll (fillSlot decode timeNow a seqno conn).2) := by
  unfold fillSlot
  dsimp only
  rw [Held.applyAll_cons, Held.apply_fillEvent]
  exact h.push hlen
    (content_of_sequenceNumber (fillEntry_sequenceNumber decode timeNow a seqno conn _))

end Fill

theorem distance_add_one_of_lt {r q : SeqT} (hlen : distance r q < 2 ^ 15 + 2 ^ 14) :
    distance r (q + 1) = distance r q + 1 :=
  distance_add_one_right (show distance r q + 1 < 2 ^ 16 by omega)

/-- Storing a packet keeps the ring a copy of what is held. -/
theorem storePacket_holds (decode : PacketDecoder) (timeNow : Nanoseconds) (a : PutArgs)
    {conn : ConnInfo} {m : Held} (h : conn.toAudioRing.Holds m)
    (hwithin : conn.toAudioRing.Fits) (hgap : GapCleared a conn)
    (hpost : (storePacket decode timeNow a conn).1.toAudioRing.Fits) :
    (storePacket decode timeNow a conn).1.toAudioRing.Holds
      (m.applyAll (storePacket decode timeNow a conn).2) := by
  have hsynced := syncToPacket_abSynced a conn
  have hholds := syncToPacket_holds a h hsynced
  have hlen := (syncToPacket_within a hwithin).distance_le hsynced
  have hframes : bufferFrames < 2 ^ 14 := by decide
  unfold GapCleared at hgap
  unfold storePacket at hpost ⊢
  dsimp only at hgap hpost ⊢
  generalize effectiveSeqno a conn = seqno at hgap hpost ⊢
  generalize syncToPacket a conn = synced at hsynced hholds hlen hgap hpost ⊢
  unfold placePacket at hpost ⊢
  cases hplace : placement synced.1.toAudioRing seqno with
  | tooLate => exact fun _ => hholds
  | late =>
      intro _
      simp only [reduceCtorEq, if_false, Held.applyAll_append]
      exact fillSlot_holds decode timeNow a
        { synced.1 with latePackets := synced.1.latePackets + 1 } hholds hlen
        (between_of_placement_late hplace)
  | expected =>
      intro _
      obtain rfl := eq_of_placement_expected hplace
      simp only [hplace, reduceCtorEq, if_false, Held.applyAll_append] at hpost ⊢
      have hring := measureInputFrameRate_toAudioRing timeNow a.actualTimestamp synced.1
      generalize measureInputFrameRate timeNow a.actualTimestamp synced.1 = measured
        at hring hpost ⊢
      rw [← hring] at hholds hlen hsynced hpost ⊢
      have hgrown := distance_add_one_of_lt (r := measured.abRead) (q := measured.abWrite)
        (by omega)
      have hroom := hpost.distance_le hsynced
      have hlast : distance measured.abRead measured.abWrite < bufferFrames := by
        change distance measured.abRead (measured.abWrite + 1) ≤ bufferFrames at hroom
        omega
      exact fillSlot_holds_push decode timeNow a
        { measured with abWrite := measured.abWrite + 1 } hholds hlast
  | newer =>
      intro _
      simp only [hplace, reduceCtorEq, if_false, Held.applyAll_append] at hpost ⊢
      obtain ⟨-, hahead⟩ := distance_of_placement_newer hplace
      have hfits : distance synced.1.abRead synced.1.abWrite +
          distance synced.1.abWrite seqno < 2 ^ 16 := by omega
      have hadd := distance_add hfits
      have hgrown := distance_add_one_of_lt (r := synced.1.abRead) (q := seqno) (by omega)
      have hroom := hpost.distance_le hsynced
      have hlast : distance synced.1.abRead seqno < bufferFrames := by
        change distance synced.1.abRead (seqno + 1) ≤ bufferFrames at hroom
        omega
      refine fillSlot_holds_push decode timeNow a
        { synced.1 with
          audioBuffer := clearGap timeNow (gapSize synced.1.toAudioRing seqno).toNat
            synced.1.abWrite synced.1.audioBuffer
          abWrite := seqno + 1 } (hholds.extend hfits ?_ ?_) hlast
      · exact fun q hq => clearGap_gap_of_between timeNow (by omega) hq
      · exact fun q hq => clearGap_gap_ready timeNow (hgap hplace) hq

end Player

end ShairportSync
