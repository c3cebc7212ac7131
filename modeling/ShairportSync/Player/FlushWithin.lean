import ShairportSync.Player.OutputFlush
import ShairportSync.Player.Wrap

/-!
# A flush to a frame inside the buffer

The flush handling drops the packets that end before the flush frame and removes the frames before
it from the packet it stops at. It looks at the slots of missing packets too, as though they held
packets with the timestamp 0. If it stops at such a slot too early, the packets behind it are not
looked at, and frames before the flush frame stay in the buffer.
-/

namespace ShairportSync

namespace Player

open SerialNumber

/-! ## The frames of a packet -/

def Packet.frames (bytesPerFrame : ℕ) (p : Packet) : List (RtpTime × Bytes) :=
  (List.range p.length.toNat).map fun j =>
    (p.timestamp + BitVec.ofNat 32 j, (p.data.drop (bytesPerFrame * j)).take bytesPerFrame)

def atOrAfter (flushFrame : RtpTime) (frame : RtpTime × Bytes) : Bool :=
  0 ≤ (frame.1 - flushFrame).toInt

section Frames

variable {first : RtpTime} {bytesPerFrame o l f : ℕ} {p : Packet}

theorem toInt_add_sub_add (first : RtpTime) {a b : ℕ} (ha : a < 2 ^ 31) (hb : b < 2 ^ 31) :
    (first + BitVec.ofNat 32 a - (first + BitVec.ofNat 32 b)).toInt = (a : Int) - b := by
  have hsub : first + BitVec.ofNat 32 a - (first + BitVec.ofNat 32 b) =
      BitVec.ofNat 32 a - BitVec.ofNat 32 b := by ring
  rw [hsub, BitVec.toInt_eq_toNat_cond, BitVec.toNat_sub, BitVec.toNat_ofNat, BitVec.toNat_ofNat]
  split_ifs <;> omega

theorem atOrAfter_iff {a b : ℕ} (ha : a < 2 ^ 31) (hb : b < 2 ^ 31) (data : Bytes) :
    atOrAfter (first + BitVec.ofNat 32 b) (first + BitVec.ofNat 32 a, data) = true ↔ b ≤ a := by
  unfold atOrAfter
  dsimp only
  rw [decide_eq_true_iff, toInt_add_sub_add first ha hb]
  omega

/-- The packet has `l` frames, the first of them `o` frames after `first`. -/
structure StartsAt (first : RtpTime) (o l : ℕ) (p : Packet) : Prop where
  timestamp : p.timestamp = first + BitVec.ofNat 32 o
  length : p.length = l

theorem StartsAt.frames_eq (h : StartsAt first o l p) (bytesPerFrame : ℕ) :
    p.frames bytesPerFrame = (List.range l).map fun j =>
      (first + BitVec.ofNat 32 (o + j),
        (p.data.drop (bytesPerFrame * j)).take bytesPerFrame) := by
  unfold Packet.frames
  rw [h.length, h.timestamp, Int.toNat_natCast]
  refine List.map_congr_left fun j _ => ?_
  rw [BitVec.ofNat_add, BitVec.add_assoc]

theorem StartsAt.lastFrame_eq (h : StartsAt first o l p) (hl : 0 < l) :
    p.lastFrame = first + BitVec.ofNat 32 (o + l - 1) := by
  obtain ⟨l, rfl⟩ := Nat.exists_eq_succ_of_ne_zero hl.ne'
  unfold Packet.lastFrame
  rw [h.length, h.timestamp, Nat.add_sub_assoc (Nat.succ_pos l), Nat.succ_sub_one]
  have hone : BitVec.ofInt 32 (Nat.succ l : ℕ) = BitVec.ofNat 32 l + 1 := by
    rw [BitVec.ofInt_natCast, Nat.succ_eq_add_one, BitVec.ofNat_add]
    rfl
  rw [hone, BitVec.ofNat_add]
  ring

theorem StartsAt.passed_iff (h : StartsAt first o l p) (hl : 0 < l) (hshort : o + l < 2 ^ 31)
    (hf : f < 2 ^ 31) :
    0 < (first + BitVec.ofNat 32 f - p.lastFrame).toInt ↔ o + l ≤ f := by
  rw [h.lastFrame_eq hl, toInt_add_sub_add first hf (by omega)]
  omega

theorem StartsAt.filter_of_before (h : StartsAt first o l p) (hshort : o + l < 2 ^ 31)
    (hf : f < 2 ^ 31) (hbefore : o + l ≤ f) :
    (p.frames bytesPerFrame).filter (atOrAfter (first + BitVec.ofNat 32 f)) = [] := by
  rw [h.frames_eq, List.filter_eq_nil_iff]
  intro x hx
  obtain ⟨j, hj, rfl⟩ := List.mem_map.mp hx
  have hj := List.mem_range.mp hj
  rw [atOrAfter_iff (by omega) hf]
  omega

theorem StartsAt.filter_of_after (h : StartsAt first o l p) (hshort : o + l < 2 ^ 31)
    (hf : f < 2 ^ 31) (hafter : f ≤ o) :
    (p.frames bytesPerFrame).filter (atOrAfter (first + BitVec.ofNat 32 f)) =
      p.frames bytesPerFrame := by
  rw [h.frames_eq, List.filter_eq_self]
  intro x hx
  obtain ⟨j, hj, rfl⟩ := List.mem_map.mp hx
  have hj := List.mem_range.mp hj
  rw [atOrAfter_iff (by omega) hf]
  omega

theorem slice_memmoveDown (data : Bytes) {n remaining i m : ℕ} (hi : i + m ≤ remaining)
    (hdata : n + remaining ≤ data.length) :
    ((memmoveDown data n remaining).drop i).take m = (data.drop (n + i)).take m := by
  have hlength : ((data.drop n).take remaining).length = remaining := by
    rw [List.length_take, List.length_drop]
    omega
  unfold memmoveDown
  rw [List.drop_append_of_le_length (by omega), List.take_append_of_le_length (by
    rw [List.length_drop]
    omega), List.drop_take, List.take_take, List.drop_drop]
  congr 1
  omega

/-- Trimming removes the frames before the flush frame from a packet that it does not end. -/
theorem StartsAt.frames_trim (h : StartsAt first o l p) (hshort : o + l < 2 ^ 31)
    (hdata : bytesPerFrame * l ≤ p.data.length) (hends : f < o + l) :
    (p.trim bytesPerFrame (first + BitVec.ofNat 32 f)).frames bytesPerFrame =
      (p.frames bytesPerFrame).filter (atOrAfter (first + BitVec.ofNat 32 f)) := by
  have hremove : (first + BitVec.ofNat 32 f - p.timestamp).toInt = (f : Int) - o := by
    rw [h.timestamp, toInt_add_sub_add first (by omega) (by omega)]
  rcases Nat.lt_or_ge o f with hlt | hle
  · obtain ⟨d, rfl⟩ := Nat.exists_eq_add_of_le hlt.le
    obtain ⟨m, rfl⟩ := Nat.exists_eq_add_of_le (by omega : d ≤ l)
    have hd : ((o + d : ℕ) : Int) - o = d := by omega
    have hm : ((d + m : ℕ) : Int) - d = m := by omega
    rw [hd] at hremove
    have htrim : p.trim bytesPerFrame (first + BitVec.ofNat 32 (o + d)) =
        ⟨first + BitVec.ofNat 32 (o + d), m,
          memmoveDown p.data (bytesPerFrame * d) (m * bytesPerFrame)⟩ := by
      unfold Packet.trim
      dsimp only
      rw [hremove, if_pos (by omega), h.length, hm, Int.toNat_natCast, Int.toNat_natCast]
    have hstart : StartsAt first (o + d) m
        (p.trim bytesPerFrame (first + BitVec.ofNat 32 (o + d))) := by
      rw [htrim]
      exact ⟨rfl, rfl⟩
    rw [hstart.frames_eq, h.frames_eq, List.range_add, List.map_append, List.filter_append,
      List.filter_eq_nil_iff.mpr, List.nil_append, List.filter_eq_self.mpr, List.map_map, htrim]
    · refine List.map_congr_left fun j hj => ?_
      have hj := List.mem_range.mp hj
      rw [Function.comp_apply, Nat.add_assoc, slice_memmoveDown, Nat.mul_add]
      · rw [Nat.mul_comm m]
        exact (Nat.mul_succ bytesPerFrame j).symm.trans_le (Nat.mul_le_mul_left _ hj)
      · rwa [Nat.mul_comm m, ← Nat.mul_add]
    · intro x hx
      rw [List.map_map] at hx
      obtain ⟨j, hj, rfl⟩ := List.mem_map.mp hx
      have hj := List.mem_range.mp hj
      rw [Function.comp_apply, atOrAfter_iff (by omega) (by omega)]
      omega
    · intro x hx
      obtain ⟨j, hj, rfl⟩ := List.mem_map.mp hx
      have hj := List.mem_range.mp hj
      rw [atOrAfter_iff (by omega) (by omega)]
      omega
  · rw [h.filter_of_after hshort (by omega) hle]
    unfold Packet.trim
    dsimp only
    rw [if_neg (by omega)]

end Frames

/-! ## The frames in the window -/

def AudioRing.windowEntry (ring : AudioRing) (i : ℕ) : AudioBufferEntry :=
  ring.entry (ring.abRead + BitVec.ofNat 16 i)

def AudioBufferEntry.frames (bytesPerFrame : ℕ) (abuf : AudioBufferEntry) :
    List (RtpTime × Bytes) :=
  if abuf.ready then abuf.packet.frames bytesPerFrame else []

theorem AudioBufferEntry.frames_of_ready (bytesPerFrame : ℕ) {abuf : AudioBufferEntry}
    (hready : abuf.ready = true) :
    abuf.frames bytesPerFrame = abuf.packet.frames bytesPerFrame :=
  if_pos hready

theorem AudioBufferEntry.frames_of_not_ready (bytesPerFrame : ℕ) {abuf : AudioBufferEntry}
    (hready : abuf.ready = false) : abuf.frames bytesPerFrame = [] :=
  if_neg (hready ▸ Bool.false_ne_true)

def ConnInfo.windowFrames (conn : ConnInfo) : List (RtpTime × Bytes) :=
  (List.range conn.intDifference.toNat).flatMap fun i =>
    (conn.windowEntry i).frames conn.inputBytesPerFrame

/-- The flush handling goes past the entry: its last frame is before the flush frame. -/
def AudioBufferEntry.Passed (flushFrame : RtpTime) (abuf : AudioBufferEntry) : Prop :=
  0 < (flushFrame - abuf.packet.lastFrame).toInt

instance (flushFrame : RtpTime) (abuf : AudioBufferEntry) :
    Decidable (abuf.Passed flushFrame) :=
  inferInstanceAs (Decidable (_ < _))

/-- The synced window begins and ends with a ready packet, and from packet to packet the
timestamps go on. The `i`-th slot begins `offset i` frames after `first`; a missing packet takes
the frames up to the next, and its slot has the timestamp 0. -/
structure ContiguousWindow (conn : ConnInfo) (first : RtpTime) (offset : ℕ → ℕ) : Prop where
  synced : conn.abSynced = true
  positive : 0 < conn.intDifference
  firstReady : (conn.entry conn.abRead).ready = true
  lastReady : (conn.entry (conn.abWrite - 1)).ready = true
  start : offset 0 = 0
  mono : ∀ i < conn.intDifference.toNat, offset i ≤ offset (i + 1)
  short : offset conn.intDifference.toNat < 2 ^ 31
  nonempty : ∀ i < conn.intDifference.toNat, (conn.windowEntry i).ready = true →
    offset i < offset (i + 1)
  startsAt : ∀ i < conn.intDifference.toNat, (conn.windowEntry i).ready = true →
    StartsAt first (offset i) (offset (i + 1) - offset i) (conn.windowEntry i).packet
  stored : ∀ i < conn.intDifference.toNat, (conn.windowEntry i).ready = true →
    conn.inputBytesPerFrame * (offset (i + 1) - offset i) ≤ (conn.windowEntry i).data.length
  missing : ∀ i < conn.intDifference.toNat, (conn.windowEntry i).ready = false →
    (conn.windowEntry i).givenTimestamp = 0

/-- A flush to a frame in the window: the frames that remain are those at the flush frame and
after it, and the request is gone. -/
structure FlushedTo (pr pr' : Progress) : Prop where
  /-- The loop has ended. -/
  stopped : ¬ (pr.conn.entry pr'.conn.abRead).Passed pr.conn.flushRtpTimestamp
  before : 0 < pr'.conn.intDifference
  /-- The number of frames that remain of the packet it ended at is not negative. -/
  remaining : 0 < (pr.conn.flushRtpTimestamp -
      (pr.conn.entry pr'.conn.abRead).givenTimestamp).toInt →
    (pr.conn.flushRtpTimestamp - (pr.conn.entry pr'.conn.abRead).givenTimestamp).toInt ≤
      (pr.conn.entry pr'.conn.abRead).length
  frames : pr'.conn.windowFrames =
    pr.conn.windowFrames.filter (atOrAfter pr.conn.flushRtpTimestamp)
  dropped : pr'.conn.toFlushRequest = ⟨false, false, 0⟩

/-- The first slot of the window that is not passed is the slot of a missing packet. -/
def StopsAtMissing (conn : ConnInfo) (i : ℕ) : Prop :=
  (conn.windowEntry i).ready = false ∧
    (∀ i' < i, (conn.windowEntry i').Passed conn.flushRtpTimestamp) ∧
    ¬ (conn.windowEntry i).Passed conn.flushRtpTimestamp

instance (conn : ConnInfo) (i : ℕ) : Decidable (StopsAtMissing conn i) :=
  inferInstanceAs (Decidable (_ ∧ _ ∧ _))

/-- A packet that begins before the flush frame is in the window behind the slot. -/
def EarlyBehind (conn : ConnInfo) (i : ℕ) : Prop :=
  ∃ j < conn.intDifference.toNat, i < j ∧ (conn.windowEntry j).ready = true ∧
    0 < (conn.flushRtpTimestamp - (conn.windowEntry j).givenTimestamp).toInt

instance (conn : ConnInfo) (i : ℕ) : Decidable (EarlyBehind conn i) :=
  inferInstanceAs (Decidable (∃ j < _, _ ∧ _))

/-- Where the slot of a missing packet is the first that is not passed, no packet behind it
begins before the flush frame, and it has as many frames as would be removed from it. -/
def MissingHarmless (conn : ConnInfo) : Prop :=
  ∀ i < conn.intDifference.toNat, StopsAtMissing conn i →
    ¬ EarlyBehind conn i ∧
      (0 < conn.flushRtpTimestamp.toInt →
        conn.flushRtpTimestamp.toInt ≤ (conn.windowEntry i).length)

instance (conn : ConnInfo) : Decidable (MissingHarmless conn) :=
  inferInstanceAs (Decidable (∀ i < _, _ → _))

/-- Where the loop stops: past the slots that it passes, at one that it does not or at the end. -/
theorem dropBeforeFlush_spec (slots : Fin bufferFrames → AudioBufferEntry)
    (flushFrame : RtpTime) (n : ℕ) (r : SeqT) :
    ∃ k ≤ n, dropBeforeFlush slots flushFrame n r = r + BitVec.ofNat 16 k ∧
      (∀ i < k, (slots (bufidx (r + BitVec.ofNat 16 i))).Passed flushFrame) ∧
      (k < n → ¬ (slots (bufidx (r + BitVec.ofNat 16 k))).Passed flushFrame) := by
  induction n generalizing r with
  | zero => exact ⟨0, le_refl 0, (BitVec.add_zero r).symm, by simp, by simp⟩
  | succ n ih =>
      unfold dropBeforeFlush
      split_ifs with hpassed
      · obtain ⟨k, hk, heq, hbefore, hstop⟩ := ih (r + 1)
        refine ⟨k + 1, Nat.succ_le_succ hk, heq.trans (add_one_add_ofNat r k), ?_, ?_⟩
        · rintro (_ | i) hi
          · rwa [BitVec.add_zero]
          · rw [← add_one_add_ofNat]
            exact hbefore i (Nat.lt_of_succ_lt_succ hi)
        · intro hlt
          rw [← add_one_add_ofNat]
          exact hstop (Nat.lt_of_succ_lt_succ hlt)
      · refine ⟨0, Nat.zero_le _, (BitVec.add_zero r).symm, by simp, fun _ => ?_⟩
        rwa [BitVec.add_zero]

section Window

variable {conn : ConnInfo} {first : RtpTime} {offset : ℕ → ℕ}

theorem ContiguousWindow.offset_le (h : ContiguousWindow conn first offset) {i j : ℕ}
    (hij : i ≤ j) (hj : j ≤ conn.intDifference.toNat) : offset i ≤ offset j := by
  induction j, hij using Nat.le_induction with
  | base => exact le_refl _
  | succ j _ ih => exact (ih (by omega)).trans (h.mono j (by omega))

theorem ContiguousWindow.fits (h : ContiguousWindow conn first offset) :
    conn.intDifference.toNat ≤ bufferFrames := by
  by_contra hlong
  have hslot : conn.windowEntry bufferFrames = conn.windowEntry 0 := by
    unfold AudioRing.windowEntry AudioRing.entry
    rw [BitVec.add_zero, show bufidx (conn.abRead + BitVec.ofNat 16 bufferFrames) =
      bufidx conn.abRead from slot_add_of_dvd bufferFrames_dvd _ (by decide)]
  have hready : (conn.windowEntry 0).ready = true := by
    unfold AudioRing.windowEntry
    rw [BitVec.add_zero]
    exact h.firstReady
  have hlast : (conn.windowEntry bufferFrames).ready = true := by
    rw [hslot]
    exact hready
  have hstart := (h.startsAt 0 (by omega) hready).timestamp
  have hagain := (h.startsAt bufferFrames (by omega) hlast).timestamp
  have hnonempty := h.nonempty 0 (by omega) hready
  have hle := h.offset_le (i := 0 + 1) (Nat.succ_le_of_lt (NeZero.pos bufferFrames))
    (le_of_not_ge hlong)
  have hshort := h.offset_le (le_of_not_ge hlong) le_rfl
  have hbound := h.short
  rw [hslot, hstart] at hagain
  have hdiff := toInt_add_sub_add first (a := offset 0) (b := offset bufferFrames) (by omega)
    (by omega)
  rw [hagain, sub_self] at hdiff
  have hzero : (0 : RtpTime).toInt = 0 := by decide
  omega

theorem windowEntry_zero (ring : AudioRing) : ring.windowEntry 0 = ring.entry ring.abRead := by
  unfold AudioRing.windowEntry
  rw [BitVec.add_zero]

theorem windowEntry_last {ring : AudioRing} (h : 0 < ring.intDifference) :
    ring.windowEntry (ring.intDifference.toNat - 1) = ring.entry (ring.abWrite - 1) := by
  have hnumber : ring.abRead + BitVec.ofNat 16 (ring.intDifference.toNat - 1) =
      ring.abWrite - 1 := by
    rw [intDifference_toNat_of_pos h]
    have hpos : 1 ≤ distance ring.abRead ring.abWrite := by
      rw [← intDifference_toNat_of_pos h]
      omega
    have hend := add_ofNat_distance ring.abRead ring.abWrite
    obtain ⟨m, hm⟩ := Nat.exists_eq_add_of_le' hpos
    rw [hm, BitVec.ofNat_add] at hend
    rw [hm, Nat.add_sub_cancel, ← hend, ← BitVec.add_assoc]
    exact (BitVec.add_sub_cancel _ _).symm
  unfold AudioRing.windowEntry
  rw [hnumber]

theorem ContiguousWindow.first_startsAt (h : ContiguousWindow conn first offset) :
    (conn.entry conn.abRead).givenTimestamp = first := by
  have hpos := h.positive
  have hready := h.firstReady
  rw [← windowEntry_zero] at hready ⊢
  have hstart : (conn.windowEntry 0).givenTimestamp = first + BitVec.ofNat 32 (offset 0) :=
    (h.startsAt 0 (by omega) hready).timestamp
  rw [hstart, h.start, BitVec.add_zero]

/-- A ready slot is passed when all its frames are before the flush frame. -/
theorem ContiguousWindow.passed_iff (h : ContiguousWindow conn first offset) {i f : ℕ}
    (hi : i < conn.intDifference.toNat) (hready : (conn.windowEntry i).ready = true)
    (hf : f < offset conn.intDifference.toNat) :
    (conn.windowEntry i).Passed (first + BitVec.ofNat 32 f) ↔ offset (i + 1) ≤ f := by
  have hnonempty := h.nonempty i hi hready
  have hle := h.offset_le (i := i + 1) (Nat.succ_le_of_lt hi) le_rfl
  have hshort := h.short
  have hpassed := (h.startsAt i hi hready).passed_iff (f := f) (by omega) (by omega) (by omega)
  unfold AudioBufferEntry.Passed
  rw [hpassed]
  omega

theorem ContiguousWindow.last_not_passed (h : ContiguousWindow conn first offset) {f : ℕ}
    (hf : f < offset conn.intDifference.toNat) :
    ¬ (conn.windowEntry (conn.intDifference.toNat - 1)).Passed (first + BitVec.ofNat 32 f) := by
  have hpos := h.positive
  have hready := h.lastReady
  rw [← windowEntry_last hpos] at hready
  rw [h.passed_iff (by omega) hready hf, Nat.sub_add_cancel (by omega)]
  omega

/-- The flush frame is in the window, and the handling flushes a part of it. -/
theorem ContiguousWindow.flushDecision_eq (h : ContiguousWindow conn first offset) {f : ℕ}
    (hrequested : conn.flushRequested = true)
    (htarget : conn.flushRtpTimestamp = first + BitVec.ofNat 32 f)
    (hne : conn.flushRtpTimestamp ≠ 0) (hpos : 0 < f)
    (hf : f < offset conn.intDifference.toNat) : flushDecision conn = .flushPart := by
  have hn := h.positive
  have hshort := h.short
  have hready := h.lastReady
  have hlast := (h.startsAt (conn.intDifference.toNat - 1) (by omega)
    (by rwa [windowEntry_last hn])).lastFrame_eq
    (Nat.sub_pos_of_lt (h.nonempty _ (by omega) (by rwa [windowEntry_last hn])))
  rw [windowEntry_last hn, Nat.sub_add_cancel (by omega)] at hlast
  have hle := h.offset_le (Nat.sub_le conn.intDifference.toNat 1) le_rfl
  rw [Nat.add_sub_cancel' hle] at hlast
  have hfirst : 0 < (conn.flushRtpTimestamp - (conn.entry conn.abRead).givenTimestamp).toInt := by
    have hzero := toInt_add_sub_add first (a := f) (b := 0) (by omega) (by omega)
    rw [BitVec.add_zero] at hzero
    rw [htarget, h.first_startsAt, hzero]
    omega
  have hend : 0 ≤ ((conn.entry (conn.abWrite - 1)).packet.lastFrame -
      conn.flushRtpTimestamp).toInt := by
    rw [hlast, htarget, toInt_add_sub_add first (by omega) (by omega)]
    omega
  unfold flushDecision
  dsimp only
  rw [hrequested, if_neg (by simp), if_neg hne, if_pos ⟨h.synced, hn⟩,
    if_pos ⟨h.firstReady, h.lastReady⟩, if_pos hfirst, if_pos hend]

/-- The frames of the window, apart at the slot `k`. -/
theorem windowFrames_eq_append (conn : ConnInfo) {k m : ℕ}
    (hn : conn.intDifference.toNat = k + (m + 1)) :
    conn.windowFrames =
      ((List.range k).flatMap fun i =>
        (conn.windowEntry i).frames conn.inputBytesPerFrame) ++
      ((conn.windowEntry k).frames conn.inputBytesPerFrame ++
        (List.range m).flatMap fun i =>
          (conn.windowEntry (k + (i + 1))).frames conn.inputBytesPerFrame) := by
  unfold ConnInfo.windowFrames
  rw [hn, List.range_add, List.flatMap_append, List.range_succ_eq_map, List.map_cons,
    List.flatMap_cons, List.map_map, List.flatMap_map]
  rfl

/-- The handling leaves the slot `k` at the start of the window and trims it. -/
theorem windowFrames_flushPart {pr : Progress} {k m : ℕ}
    (hn : pr.conn.intDifference.toNat = k + (m + 1))
    (hfits : pr.conn.intDifference.toNat ≤ bufferFrames)
    (hread : dropBeforeFlush pr.conn.audioBuffer pr.conn.flushRtpTimestamp
      pr.conn.intDifference.toNat pr.conn.abRead = pr.conn.abRead + BitVec.ofNat 16 k) :
    (dropRequest (flushPart pr)).conn.windowFrames =
      ((pr.conn.windowEntry k).trim pr.conn.inputBytesPerFrame
        pr.conn.flushRtpTimestamp).frames pr.conn.inputBytesPerFrame ++
      (List.range m).flatMap fun i =>
        (pr.conn.windowEntry (k + (i + 1))).frames pr.conn.inputBytesPerFrame := by
  have hcount : (dropRequest (flushPart pr)).conn.intDifference.toNat = 0 + (m + 1) := by
    have hadvance := intDifference_advance pr.conn.toAudioRing (k := k) (by omega)
    have hsame : (dropRequest (flushPart pr)).conn.intDifference =
        { pr.conn.toAudioRing with
          abRead := pr.conn.abRead + BitVec.ofNat 16 k }.intDifference := by
      rw [← hread]
      rfl
    rw [hsame, hadvance]
    omega
  have hentry : ∀ q, (dropRequest (flushPart pr)).conn.entry q =
      Function.update pr.conn.audioBuffer (bufidx (pr.conn.abRead + BitVec.ofNat 16 k))
        ((pr.conn.windowEntry k).trim pr.conn.inputBytesPerFrame pr.conn.flushRtpTimestamp)
        (bufidx q) := by
    intro q
    unfold AudioRing.windowEntry
    rw [← hread]
    rfl
  have hfirst : (dropRequest (flushPart pr)).conn.windowEntry 0 =
      (pr.conn.windowEntry k).trim pr.conn.inputBytesPerFrame pr.conn.flushRtpTimestamp := by
    rw [windowEntry_zero, hentry, show (dropRequest (flushPart pr)).conn.abRead =
      pr.conn.abRead + BitVec.ofNat 16 k from hread, Function.update_self]
  have hrest : ∀ i < m, (dropRequest (flushPart pr)).conn.windowEntry (0 + (i + 1)) =
      pr.conn.windowEntry (k + (i + 1)) := by
    intro i hi
    have hnumber : (dropRequest (flushPart pr)).conn.abRead + BitVec.ofNat 16 (0 + (i + 1)) =
        pr.conn.abRead + BitVec.ofNat 16 (k + (i + 1)) := by
      rw [show (dropRequest (flushPart pr)).conn.abRead =
        pr.conn.abRead + BitVec.ofNat 16 k from hread, Nat.zero_add, BitVec.add_assoc,
        ← BitVec.ofNat_add]
    have hslot : bufidx (pr.conn.abRead + BitVec.ofNat 16 (k + (i + 1))) ≠
        bufidx (pr.conn.abRead + BitVec.ofNat 16 k) := by
      intro heq
      have hdistance : ∀ j < bufferFrames,
          distance pr.conn.abRead (pr.conn.abRead + BitVec.ofNat 16 j) = j :=
        fun j hj => distance_add_ofNat _ (hj.trans (by decide))
      have hsame := slot_injective_on bufferFrames_dvd (r := pr.conn.abRead)
        (by rw [hdistance _ (by omega)]; omega) (by rw [hdistance _ (by omega)]; omega) heq
      have hindex := congrArg (distance pr.conn.abRead) hsame
      rw [hdistance _ (by omega), hdistance _ (by omega)] at hindex
      omega
    unfold AudioRing.windowEntry
    rw [hnumber, hentry, Function.update_of_ne hslot]
    rfl
  rw [windowFrames_eq_append _ hcount, List.range_zero, List.flatMap_nil, List.nil_append, hfirst]
  congr 1
  refine List.flatMap_congr fun i hi => ?_
  rw [hrest i (List.mem_range.mp hi)]
  rfl

theorem ContiguousWindow.sub_givenTimestamp (h : ContiguousWindow conn first offset) {i f : ℕ}
    (hi : i < conn.intDifference.toNat) (hready : (conn.windowEntry i).ready = true)
    (hf : f < offset conn.intDifference.toNat) :
    (first + BitVec.ofNat 32 f - (conn.windowEntry i).givenTimestamp).toInt =
      (f : Int) - offset i := by
  have hstart : (conn.windowEntry i).givenTimestamp = first + BitVec.ofNat 32 (offset i) :=
    (h.startsAt i hi hready).timestamp
  have hle := h.offset_le hi.le le_rfl
  have hshort := h.short
  rw [hstart, toInt_add_sub_add first (by omega) (by omega)]

/-- A slot that is passed has no frames at the flush frame or after it. -/
theorem ContiguousWindow.frames_of_passed (h : ContiguousWindow conn first offset) {i f : ℕ}
    (hi : i < conn.intDifference.toNat) (hf : f < offset conn.intDifference.toNat)
    (hpassed : (conn.windowEntry i).Passed (first + BitVec.ofNat 32 f)) :
    ((conn.windowEntry i).frames conn.inputBytesPerFrame).filter
      (atOrAfter (first + BitVec.ofNat 32 f)) = [] := by
  have hshort := h.short
  cases hready : (conn.windowEntry i).ready with
  | false => rw [AudioBufferEntry.frames_of_not_ready _ hready, List.filter_nil]
  | true =>
      have hend := (h.passed_iff hi hready hf).mp hpassed
      have hmono := h.mono i hi
      rw [AudioBufferEntry.frames_of_ready _ hready]
      exact (h.startsAt i hi hready).filter_of_before (by omega) (by omega) (by omega)

/-- A slot that does not begin before the flush frame has only frames at it or after it. -/
theorem ContiguousWindow.frames_of_not_early (h : ContiguousWindow conn first offset) {i f : ℕ}
    (hi : i < conn.intDifference.toNat) (hf : f < offset conn.intDifference.toNat)
    (hlate : (conn.windowEntry i).ready = true → f ≤ offset i) :
    ((conn.windowEntry i).frames conn.inputBytesPerFrame).filter
      (atOrAfter (first + BitVec.ofNat 32 f)) =
      (conn.windowEntry i).frames conn.inputBytesPerFrame := by
  have hshort := h.short
  cases hready : (conn.windowEntry i).ready with
  | false => rw [AudioBufferEntry.frames_of_not_ready _ hready, List.filter_nil]
  | true =>
      have hmono := h.mono i hi
      have hle := h.offset_le (i := i + 1) (Nat.succ_le_of_lt hi) le_rfl
      rw [AudioBufferEntry.frames_of_ready _ hready]
      exact (h.startsAt i hi hready).filter_of_after (by omega) (by omega) (hlate hready)

/-- Trimming leaves the frames at the flush frame and after it in the slot. -/
theorem ContiguousWindow.frames_trim (h : ContiguousWindow conn first offset) {i f : ℕ}
    (hi : i < conn.intDifference.toNat) (hf : f < offset conn.intDifference.toNat)
    (hstop : ¬ (conn.windowEntry i).Passed (first + BitVec.ofNat 32 f)) :
    ((conn.windowEntry i).trim conn.inputBytesPerFrame
        (first + BitVec.ofNat 32 f)).frames conn.inputBytesPerFrame =
      ((conn.windowEntry i).frames conn.inputBytesPerFrame).filter
        (atOrAfter (first + BitVec.ofNat 32 f)) := by
  have hshort := h.short
  have hready_trim : ((conn.windowEntry i).trim conn.inputBytesPerFrame
      (first + BitVec.ofNat 32 f)).ready = (conn.windowEntry i).ready := rfl
  cases hready : (conn.windowEntry i).ready with
  | false =>
      rw [AudioBufferEntry.frames_of_not_ready _ hready,
        AudioBufferEntry.frames_of_not_ready _ (hready_trim.trans hready), List.filter_nil]
  | true =>
      have hend := mt (h.passed_iff hi hready hf).mpr hstop
      have hmono := h.mono i hi
      have hle := h.offset_le (i := i + 1) (Nat.succ_le_of_lt hi) le_rfl
      rw [AudioBufferEntry.frames_of_ready _ hready,
        AudioBufferEntry.frames_of_ready _ (hready_trim.trans hready)]
      exact (h.startsAt i hi hready).frames_trim (by omega) (h.stored i hi hready) (by omega)

/-- A packet that begins before the flush frame has a frame before it. -/
theorem ContiguousWindow.exists_frame (h : ContiguousWindow conn first offset) {i f : ℕ}
    (hi : i < conn.intDifference.toNat) (hready : (conn.windowEntry i).ready = true)
    (hf : f < offset conn.intDifference.toNat) (hearly : offset i < f) :
    ∃ x ∈ (conn.windowEntry i).frames conn.inputBytesPerFrame,
      ¬ atOrAfter (first + BitVec.ofNat 32 f) x = true := by
  have hshort := h.short
  have hnonempty := h.nonempty i hi hready
  rw [AudioBufferEntry.frames_of_ready _ hready, (h.startsAt i hi hready).frames_eq]
  refine ⟨_, List.mem_map.mpr ⟨0, List.mem_range.mpr (by omega), rfl⟩, ?_⟩
  rw [atOrAfter_iff (by omega) (by omega)]
  omega

/-- Slots that are all passed have no frames at the flush frame or after it. -/
theorem ContiguousWindow.frames_of_all_passed (h : ContiguousWindow conn first offset) {k f : ℕ}
    (hk : k < conn.intDifference.toNat) (hf : f < offset conn.intDifference.toNat)
    (hpassed : ∀ i < k, (conn.windowEntry i).Passed (first + BitVec.ofNat 32 f)) :
    ((List.range k).flatMap fun i => (conn.windowEntry i).frames conn.inputBytesPerFrame).filter
      (atOrAfter (first + BitVec.ofNat 32 f)) = [] := by
  rw [List.filter_flatMap, List.flatMap_eq_nil_iff]
  intro i hi
  have hi := List.mem_range.mp hi
  exact h.frames_of_passed (hi.trans hk) hf (hpassed i hi)

/-- Slots behind the slot `k` that do not begin before the flush frame have only frames at it or
after it. -/
theorem ContiguousWindow.frames_of_none_early (h : ContiguousWindow conn first offset) {k m f : ℕ}
    (hn : conn.intDifference.toNat = k + (m + 1)) (hf : f < offset conn.intDifference.toNat)
    (hlate : ∀ i < m, (conn.windowEntry (k + (i + 1))).ready = true → f ≤ offset (k + (i + 1))) :
    ((List.range m).flatMap fun i =>
      (conn.windowEntry (k + (i + 1))).frames conn.inputBytesPerFrame).filter
        (atOrAfter (first + BitVec.ofNat 32 f)) =
      (List.range m).flatMap fun i =>
        (conn.windowEntry (k + (i + 1))).frames conn.inputBytesPerFrame := by
  rw [List.filter_flatMap]
  refine List.flatMap_congr fun i hi => ?_
  have hi := List.mem_range.mp hi
  exact h.frames_of_not_early (by omega) hf (hlate i hi)

theorem ContiguousWindow.flushPart_iff (pr : Progress)
    (h : ContiguousWindow pr.conn first offset) {f : ℕ}
    (htarget : pr.conn.flushRtpTimestamp = first + BitVec.ofNat 32 f)
    (hf : f < offset pr.conn.intDifference.toNat) :
    FlushedTo pr (dropRequest (flushPart pr)) ↔ MissingHarmless pr.conn := by
  obtain ⟨k, hk, hread, hbefore, hstop⟩ := dropBeforeFlush_spec pr.conn.audioBuffer
    pr.conn.flushRtpTimestamp pr.conn.intDifference.toNat pr.conn.abRead
  have hpos := h.positive
  have hlt : k < pr.conn.intDifference.toNat := by
    refine lt_of_le_of_ne hk fun hend => ?_
    refine h.last_not_passed hf ?_
    rw [← htarget]
    exact hbefore _ (by omega)
  replace hstop : ¬ (pr.conn.windowEntry k).Passed pr.conn.flushRtpTimestamp := hstop hlt
  obtain ⟨m, hm⟩ : ∃ m, pr.conn.intDifference.toNat = k + (m + 1) :=
    Nat.exists_eq_add_of_lt hlt
  have hentry : pr.conn.entry (dropRequest (flushPart pr)).conn.abRead =
      pr.conn.windowEntry k := by
    unfold AudioRing.windowEntry
    rw [← hread]
    rfl
  have hafter := windowFrames_flushPart hm h.fits hread
  have hframes := windowFrames_eq_append pr.conn hm
  constructor
  · intro hflushed i hi ⟨hmissing, hpassed, hnot⟩
    obtain rfl : i = k := by
      rcases lt_trichotomy i k with hik | hik | hki
      · exact absurd (hbefore i hik) hnot
      · exact hik
      · exact absurd (hpassed k hki) hstop
    constructor
    · rintro ⟨j, hj, hij, hready, hearly⟩
      rw [htarget, h.sub_givenTimestamp hj hready hf] at hearly
      obtain ⟨x, hx, hearlier⟩ := h.exists_frame hj hready hf (by omega)
      have hmem : x ∈ pr.conn.windowFrames.filter (atOrAfter pr.conn.flushRtpTimestamp) := by
        rw [← hflushed.frames, hafter]
        refine List.mem_append_right _ (List.mem_flatMap.mpr ⟨j - i - 1, ?_, ?_⟩)
        · exact List.mem_range.mpr (by omega)
        · rwa [show i + (j - i - 1 + 1) = j by omega]
      rw [htarget] at hmem
      exact hearlier (List.mem_filter.mp hmem).2
    · have hremaining := hflushed.remaining
      rw [hentry, h.missing i hi hmissing, sub_zero] at hremaining
      exact hremaining
  · intro hharmless
    refine ⟨?_, ?_, ?_, ?_, rfl⟩
    · rwa [hentry]
    · have hadvance := intDifference_advance pr.conn.toAudioRing hk
      rw [← hread] at hadvance
      refine lt_of_lt_of_eq ?_ hadvance.symm
      omega
    · rw [hentry]
      cases hready : (pr.conn.windowEntry k).ready with
      | false =>
          rw [h.missing k hlt hready, sub_zero]
          exact (hharmless k hlt ⟨hready, hbefore, hstop⟩).2
      | true =>
          have hlength : (pr.conn.windowEntry k).length =
              (offset (k + 1) - offset k : ℕ) := (h.startsAt k hlt hready).length
          rw [htarget, h.passed_iff hlt hready hf] at hstop
          rw [htarget, h.sub_givenTimestamp hlt hready hf, hlength]
          omega
    · have hpassed := h.frames_of_all_passed hlt hf fun i hi => htarget ▸ hbefore i hi
      have hbehind := h.frames_of_none_early hm hf fun i hi hready => by
        cases hreadyk : (pr.conn.windowEntry k).ready with
        | false =>
            have hearly := (hharmless k hlt ⟨hreadyk, hbefore, hstop⟩).1
            by_contra hnot
            refine hearly ⟨k + (i + 1), by omega, by omega, hready, ?_⟩
            rw [htarget, h.sub_givenTimestamp (by omega) hready hf]
            omega
        | true =>
            rw [htarget, h.passed_iff hlt hreadyk hf] at hstop
            have hle := h.offset_le (i := k + 1) (j := k + (i + 1)) (by omega) (by omega)
            omega
      rw [hafter, hframes, htarget, List.filter_append, List.filter_append, hpassed, hbehind,
        List.nil_append, h.frames_trim hlt hf (by rwa [← htarget])]

/-- A flush to a frame in the buffer leaves exactly the frames at the flush frame and after it,
and drops the request, if and only if the loop does not stop at a missing packet with a packet
behind it that begins before the flush frame. -/
theorem flush_within_exact_iff (cfg : Config) {pr : Progress}
    (h : ContiguousWindow pr.conn first offset) {f : ℕ}
    (hrequested : pr.conn.flushRequested = true)
    (htarget : pr.conn.flushRtpTimestamp = first + BitVec.ofNat 32 f)
    (hne : pr.conn.flushRtpTimestamp ≠ 0) (hpos : 0 < f)
    (hf : f < offset pr.conn.intDifference.toNat) :
    FlushedTo pr (serviceFlush cfg pr) ↔ MissingHarmless pr.conn := by
  have hdecision : flushDecision (flushOutput cfg pr).conn = .flushPart := by
    rw [flushDecision_flushOutput, h.flushDecision_eq hrequested htarget hne hpos hf]
  have hservice : serviceFlush cfg pr = dropRequest (flushPart (flushOutput cfg pr)) := by
    unfold serviceFlush
    dsimp only
    rw [hdecision]
  have hout : ∃ calls, flushOutput cfg pr =
      { pr with conn := { pr.conn with flushOutputFlushed := true }, calls := calls } := by
    unfold flushOutput
    rw [if_pos hrequested]
    exact ⟨_, rfl⟩
  obtain ⟨calls, hout⟩ := hout
  rw [hservice, hout]
  have hwindow : ContiguousWindow { pr.conn with flushOutputFlushed := true } first offset :=
    ⟨h.synced, h.positive, h.firstReady, h.lastReady, h.start, h.mono, h.short, h.nonempty,
      h.startsAt, h.stored, h.missing⟩
  have hiff := hwindow.flushPart_iff
    { pr with conn := { pr.conn with flushOutputFlushed := true }, calls := calls } htarget hf
  refine Iff.trans ⟨fun h => ?_, fun h => ?_⟩ hiff
  · exact ⟨h.stopped, h.before, h.remaining, h.frames, h.dropped⟩
  · exact ⟨h.stopped, h.before, h.remaining, h.frames, h.dropped⟩

end Window

/-- Packets of two frames in the slots 0 and 2, the packet between them missing, and a request
to flush to the last frame. -/
def missingBetween (first : RtpTime) : Progress where
  conn :=
    { ConnInfo.fresh with
      audioBuffer := fun i =>
        if i = bufidx 0 then ⟨true, 0, 0, List.replicate 8 1, 0, 0, 0, first, 2⟩
        else if i = bufidx 2 then ⟨true, 0, 0, List.replicate 8 1, 2, 0, 0, first + 4, 2⟩
        else ⟨false, 0, 0, [], 0, 0, 0, 0, 0⟩
      abRead := 0
      abWrite := 3
      abSynced := true
      flushRequested := true
      flushRtpTimestamp := first + 5 }
  loop := .start
  calls := []
  events := []

theorem missingBetween_contiguous (first : RtpTime) :
    ContiguousWindow (missingBetween first).conn first (2 * ·) where
  synced := rfl
  positive := show (0 : Int) < 3 - 0 by decide
  firstReady := rfl
  lastReady := by
    have hlast : (3 : SeqT) - 1 = 2 := by decide
    show ((missingBetween first).conn.entry (3 - 1)).ready = true
    rw [hlast]
    rfl
  start := rfl
  mono i _ := show 2 * i ≤ 2 * (i + 1) by omega
  short := show 2 * 3 < 2 ^ 31 by decide
  nonempty i _ _ := show 2 * i < 2 * (i + 1) by omega
  startsAt i hi hready := by
    replace hi : i < 3 := hi
    obtain rfl | rfl | rfl : i = 0 ∨ i = 1 ∨ i = 2 := by omega
    · exact ⟨(BitVec.add_zero first).symm, rfl⟩
    · exact nomatch hready
    · exact ⟨rfl, rfl⟩
  stored i hi hready := by
    replace hi : i < 3 := hi
    obtain rfl | rfl | rfl : i = 0 ∨ i = 1 ∨ i = 2 := by omega
    · exact le_refl _
    · exact nomatch hready
    · exact le_refl _
  missing i hi hready := by
    replace hi : i < 3 := hi
    obtain rfl | rfl | rfl : i = 0 ∨ i = 1 ∨ i = 2 := by omega
    · exact nomatch hready
    · rfl
    · exact nomatch hready

/-- The loop goes past the missing packet where the flush frame looks later than its frames. -/
theorem flush_within_exact_past_missing :
    FlushedTo (missingBetween 1000) (serviceFlush .playOnly (missingBetween 1000)) :=
  (flush_within_exact_iff .playOnly (missingBetween_contiguous 1000) (f := 5) rfl rfl (by decide)
    (by decide) (show 5 < 2 * 3 by decide)).mpr (by decide +kernel)

/-- A flush frame in the upper half of the timestamps looks earlier than the missing packet, and
a frame before it stays. -/
theorem flush_within_not_exact :
    ¬ ∀ (cfg : Config) (pr : Progress) (first : RtpTime) (offset : ℕ → ℕ) (f : ℕ),
      ContiguousWindow pr.conn first offset → pr.conn.flushRequested = true →
      pr.conn.flushRtpTimestamp = first + BitVec.ofNat 32 f → pr.conn.flushRtpTimestamp ≠ 0 →
      0 < f → f < offset pr.conn.intDifference.toNat → FlushedTo pr (serviceFlush cfg pr) := by
  intro h
  have hflushed := h .playOnly (missingBetween 0x90000000) 0x90000000 (2 * ·) 5
    (missingBetween_contiguous 0x90000000) rfl rfl (by decide) (by decide)
    (show 5 < 2 * 3 by decide)
  exact absurd hflushed.frames (by decide +kernel)

end Player

end ShairportSync
