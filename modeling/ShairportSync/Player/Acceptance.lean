import ShairportSync.Rtp.Decipher
import ShairportSync.Player.Occupancy

/-!
# What a packet in the original format does to the window

A packet is written over the slot of its own number, and one that jumps over a gap marks the slots
of the gap as missing. A packet that does not decode has its slot cleared all the same, so a bad
duplicate takes the good audio of its number away with it. A packet for the number `abRead` itself
is too late, although the resend scan asks for it and the slot has not been handed out.
-/

namespace ShairportSync

namespace Player

open SerialNumber

/-- The slots a packet with this number is written to: its own, and those of the gap. -/
def WritesSlot (ring : AudioRing) (seqno : SeqT) (i : Fin bufferFrames) : Prop :=
  i = bufidx seqno ∨
    placement ring seqno = .newer ∧
      ∃ k < (gapSize ring seqno).toNat, i = bufidx (ring.abWrite + BitVec.ofNat 16 k)

def Decodes (decode : PacketDecoder) (a : PutArgs) (conn : ConnInfo) : Prop :=
  (decode (conn.entry a.seqno).data conn.maxFramesPerPacket a.data).reply = 0

instance (decode : PacketDecoder) (a : PutArgs) (conn : ConnInfo) :
    Decidable (Decodes decode a conn) := inferInstanceAs (Decidable (_ = _))

def decodedPacket (decode : PacketDecoder) (a : PutArgs) (conn : ConnInfo) : Packet :=
  let decoded := decode (conn.entry a.seqno).data conn.maxFramesPerPacket a.data
  ⟨a.actualTimestamp, decoded.destlen, decoded.dest⟩

section Place

variable {timeNow : Nanoseconds} {timestamp : RtpTime} {seqno : SeqT} {conn : ConnInfo}

theorem effectiveSeqno_of_originalFormat {a : PutArgs} (ha : a.originalFormat = true)
    (conn : ConnInfo) : effectiveSeqno a conn = a.seqno := by
  rw [effectiveSeqno, ha, Bool.not_true, Bool.and_false]
  rfl

theorem clearGap_data (timeNow : Nanoseconds) (n : ℕ) (seqno : SeqT)
    (slots : Fin bufferFrames → AudioBufferEntry) (i : Fin bufferFrames) :
    (clearGap timeNow n seqno slots i).data = (slots i).data := by
  induction n generalizing seqno slots with
  | zero => rfl
  | succ n ih =>
      unfold clearGap
      rw [ih]
      by_cases hi : i = bufidx seqno
      · rw [hi, Function.update_self]
        rfl
      · rw [Function.update_of_ne hi]

theorem placePacket_data (i : Fin bufferFrames) :
    ((placePacket timeNow timestamp seqno conn).audioBuffer i).data =
      (conn.audioBuffer i).data := by
  have hring := measureInputFrameRate_toAudioRing timeNow timestamp conn
  unfold placePacket
  split
  · exact congrArg (fun ring => (ring.audioBuffer i).data) hring
  · exact clearGap_data _ _ _ _ _
  · rfl
  · rfl

theorem placePacket_maxFramesPerPacket :
    (placePacket timeNow timestamp seqno conn).maxFramesPerPacket = conn.maxFramesPerPacket := by
  unfold placePacket measureInputFrameRate
  dsimp only
  split
  · split_ifs <;> rfl
  · rfl
  · rfl
  · rfl

/-- The slots of the gap are cleared by a newer packet, the others are left as they are. -/
theorem placePacket_content (timeNow : Nanoseconds) (timestamp : RtpTime) (conn : ConnInfo)
    (i : Fin bufferFrames) (hi : i ≠ bufidx seqno) :
    (WritesSlot conn.toAudioRing seqno i →
        ((placePacket timeNow timestamp seqno conn).audioBuffer i).ready = false) ∧
      (¬ WritesSlot conn.toAudioRing seqno i →
        (placePacket timeNow timestamp seqno conn).audioBuffer i = conn.audioBuffer i) := by
  have hring := measureInputFrameRate_toAudioRing timeNow timestamp conn
  unfold placePacket WritesSlot
  cases hplace : placement conn.toAudioRing seqno with
  | expected =>
      refine ⟨fun h => ?_, fun _ => congrArg (fun ring => ring.audioBuffer i) hring⟩
      rcases h with h | ⟨h, -⟩
      · exact absurd h hi
      · exact Placement.noConfusion h
  | newer =>
      dsimp only
      refine ⟨fun h => ?_, fun h => ?_⟩
      · rcases h with h | ⟨-, k, hk, rfl⟩
        · exact absurd h hi
        · exact clearGap_ready timeNow _ conn.abWrite conn.audioBuffer hk
      · apply clearGap_of_forall_ne
        exact fun k hk he => h (Or.inr ⟨rfl, k, hk, he.symm⟩)
  | late =>
      refine ⟨fun h => ?_, fun _ => rfl⟩
      rcases h with h | ⟨h, -⟩
      · exact absurd h hi
      · exact Placement.noConfusion h
  | tooLate =>
      refine ⟨fun h => ?_, fun _ => rfl⟩
      rcases h with h | ⟨h, -⟩
      · exact absurd h hi
      · exact Placement.noConfusion h

end Place

section Store

variable {decode : PacketDecoder} {timeNow : Nanoseconds} {a : PutArgs} {conn : ConnInfo}

/-- What the slot of a packet in the original format holds once the packet is in it. -/
theorem fillEntry_content (ha : a.originalFormat = true) (seqno : SeqT) (abuf : AudioBufferEntry) :
    (fillEntry decode timeNow a seqno conn abuf).content =
      if (decode abuf.data conn.maxFramesPerPacket a.data).reply = 0 then
        some (seqno, ⟨a.actualTimestamp,
          (decode abuf.data conn.maxFramesPerPacket a.data).destlen,
          (decode abuf.data conn.maxFramesPerPacket a.data).dest⟩)
      else none := by
  unfold fillEntry
  dsimp only
  rw [if_pos ha]
  split_ifs <;> rfl

/-- The slots after a packet in the original format has been stored in a synced buffer, unless it
is too late. -/
theorem storePacket_content (decode : PacketDecoder) (timeNow : Nanoseconds)
    (ha : a.originalFormat = true) (hs : conn.abSynced = true)
    (hplace : placement conn.toAudioRing a.seqno ≠ .tooLate) (i : Fin bufferFrames) :
    ((storePacket decode timeNow a conn).1.audioBuffer i).content =
      if i = bufidx a.seqno then
        if Decodes decode a conn then some (a.seqno, decodedPacket decode a conn) else none
      else ((placePacket timeNow a.actualTimestamp a.seqno conn).audioBuffer i).content := by
  have hsync : (syncToPacket a conn).1 = conn := by
    rw [syncToPacket, if_pos hs]
  unfold storePacket
  dsimp only
  rw [effectiveSeqno_of_originalFormat ha, hsync, if_neg hplace]
  unfold fillSlot
  dsimp only
  by_cases hi : i = bufidx a.seqno
  · rw [if_pos hi, hi, Function.update_self, fillEntry_content ha]
    unfold Decodes decodedPacket AudioRing.entry
    rw [placePacket_data, placePacket_maxFramesPerPacket]
    rfl
  · rw [if_neg hi, Function.update_of_ne hi]

theorem playerPutPacketStore_of_output (houtput : conn.connectionStateToOutput ≠ 0) :
    playerPutPacketStore decode timeNow a conn =
      storePacket decode timeNow a (countPacket timeNow (ignoreEarlyFlush conn)) := by
  unfold playerPutPacketStore
  dsimp only
  rw [if_neg]
  rwa [countPacket_ignoreEarlyFlush_connectionStateToOutput]

theorem playerPutPacketStore_toAudioRing_of_output_off
    (houtput : conn.connectionStateToOutput = 0) :
    (playerPutPacketStore decode timeNow a conn).1.toAudioRing = conn.toAudioRing := by
  unfold playerPutPacketStore
  dsimp only
  rw [if_pos (by rwa [countPacket_ignoreEarlyFlush_connectionStateToOutput])]
  exact countPacket_ignoreEarlyFlush_toAudioRing timeNow conn

theorem countPacket_ignoreEarlyFlush_maxFramesPerPacket (timeNow : Nanoseconds) (conn : ConnInfo) :
    (countPacket timeNow (ignoreEarlyFlush conn)).maxFramesPerPacket =
      conn.maxFramesPerPacket := by
  unfold countPacket ignoreEarlyFlush
  split_ifs <;> rfl

theorem countPacket_ignoreEarlyFlush_tooLatePackets (timeNow : Nanoseconds) (conn : ConnInfo) :
    (countPacket timeNow (ignoreEarlyFlush conn)).tooLatePackets = conn.tooLatePackets := by
  unfold countPacket ignoreEarlyFlush
  split_ifs <;> rfl

theorem decodes_counted_iff (decode : PacketDecoder) (timeNow : Nanoseconds) (a : PutArgs)
    (conn : ConnInfo) :
    Decodes decode a (countPacket timeNow (ignoreEarlyFlush conn)) ↔ Decodes decode a conn := by
  unfold Decodes AudioRing.entry
  rw [countPacket_ignoreEarlyFlush_toAudioRing, countPacket_ignoreEarlyFlush_maxFramesPerPacket]

theorem decodedPacket_counted (decode : PacketDecoder) (timeNow : Nanoseconds) (a : PutArgs)
    (conn : ConnInfo) :
    decodedPacket decode a (countPacket timeNow (ignoreEarlyFlush conn)) =
      decodedPacket decode a conn := by
  unfold decodedPacket AudioRing.entry
  rw [countPacket_ignoreEarlyFlush_toAudioRing, countPacket_ignoreEarlyFlush_maxFramesPerPacket]

end Store

/-! ## A packet that does not decode -/

/-- The entries of the window that were ready hold the same packet under the same number. -/
def KeepsReady (conn conn' : ConnInfo) : Prop :=
  conn.abSynced = true → ∀ q, Between conn.abRead conn.abWrite q →
    (conn.entry q).ready = true → (conn'.entry q).content = (conn.entry q).content

/-- The packet is ignored, or it is not written to a ready slot of the window. -/
def SparesReady (a : PutArgs) (conn : ConnInfo) : Prop :=
  conn.connectionStateToOutput = 0 ∨ conn.abSynced = false ∨
    placement conn.toAudioRing a.seqno = .tooLate ∨
    ∀ q, Between conn.abRead conn.abWrite q → (conn.entry q).ready = true →
      ¬ WritesSlot conn.toAudioRing a.seqno (bufidx q)

section Bad

variable {cfg : Config} {decode : PacketDecoder} {timeNow : Nanoseconds} {a : PutArgs}

/-- The slots after a bad packet: those it is written to are not ready. -/
theorem storePacket_content_of_bad (timeNow : Nanoseconds) {conn : ConnInfo}
    (ha : a.originalFormat = true)
    (hbad : ¬ Decodes decode a conn) (hs : conn.abSynced = true)
    (hplace : placement conn.toAudioRing a.seqno ≠ .tooLate) (i : Fin bufferFrames) :
    (WritesSlot conn.toAudioRing a.seqno i →
        ((storePacket decode timeNow a conn).1.audioBuffer i).content = none) ∧
      (¬ WritesSlot conn.toAudioRing a.seqno i →
        ((storePacket decode timeNow a conn).1.audioBuffer i).content =
          (conn.audioBuffer i).content) := by
  rw [storePacket_content decode timeNow ha hs hplace, if_neg hbad]
  by_cases hi : i = bufidx a.seqno
  · rw [if_pos hi]
    exact ⟨fun _ => rfl, fun h => absurd (Or.inl hi) h⟩
  · rw [if_neg hi]
    obtain ⟨hgap, hrest⟩ := placePacket_content timeNow a.actualTimestamp conn i hi
    exact ⟨fun h => content_eq_none_iff.mpr (hgap h),
      fun h => congrArg AudioBufferEntry.content (hrest h)⟩

theorem storePacket_audioBuffer_of_tooLate {conn : ConnInfo} (ha : a.originalFormat = true)
    (hs : conn.abSynced = true) (hplace : placement conn.toAudioRing a.seqno = .tooLate) :
    (storePacket decode timeNow a conn).1.audioBuffer = conn.audioBuffer := by
  have hsync : (syncToPacket a conn).1 = conn := by
    rw [syncToPacket, if_pos hs]
  unfold storePacket placePacket
  dsimp only
  rw [effectiveSeqno_of_originalFormat ha, hsync, if_pos hplace, hplace]

/-- A bad packet leaves the ready entries of the window as they are if and only if it is ignored or
is not written to any of their slots. -/
theorem badPacket_keepsReady_iff (cfg : Config) (decode : PacketDecoder) (timeNow : Nanoseconds)
    (a : PutArgs) (st : ResendState) (ha : a.originalFormat = true)
    (hbad : ¬ Decodes decode a st.conn) :
    KeepsReady st.conn (playerPutPacket cfg decode timeNow a st).conn ↔ SparesReady a st.conn := by
  have hafter (q : SeqT) : ((playerPutPacket cfg decode timeNow a st).conn.entry q).content =
      ((playerPutPacketStore decode timeNow a st.conn).1.entry q).content :=
    (playerPutPacket_frame st).content (bufidx q)
  unfold KeepsReady SparesReady
  simp only [hafter]
  by_cases houtput : st.conn.connectionStateToOutput = 0
  · refine iff_of_true (fun _ q _ _ => ?_) (Or.inl houtput)
    unfold AudioRing.entry
    rw [playerPutPacketStore_toAudioRing_of_output_off houtput]
  · cases hs : st.conn.abSynced with
    | false => exact iff_of_true (fun h => absurd h Bool.false_ne_true) (Or.inr (Or.inl rfl))
    | true =>
        rw [playerPutPacketStore_of_output houtput, or_iff_right houtput,
          or_iff_right Bool.false_ne_true.symm, forall_prop_of_true rfl]
        have hring := countPacket_ignoreEarlyFlush_toAudioRing timeNow st.conn
        rw [← decodes_counted_iff decode timeNow] at hbad
        generalize countPacket timeNow (ignoreEarlyFlush st.conn) = counted at hring hbad
        rw [← hring] at hs ⊢
        by_cases hplace : placement counted.toAudioRing a.seqno = .tooLate
        · refine iff_of_true (fun q _ _ => ?_) (Or.inl hplace)
          unfold AudioRing.entry
          rw [storePacket_audioBuffer_of_tooLate ha hs hplace]
        · rw [or_iff_right hplace]
          refine forall₃_congr fun q hq hready => ?_
          obtain ⟨hwritten, hrest⟩ :=
            storePacket_content_of_bad timeNow ha hbad hs hplace (bufidx q)
          constructor
          · intro hsame hwrites
            have hnone := (hsame.symm.trans (hwritten hwrites))
            rw [content_of_ready hready] at hnone
            exact Option.some_ne_none _ hnone
          · exact hrest

end Bad

/-- In a ring that has room for it, a packet that extends the window is written outside it. -/
theorem not_writesSlot_of_extends {ring : AudioRing} {seqno : SeqT}
    (hlen : distance ring.abRead ring.abWrite ≤ bufferFrames) (hext : Extends ring seqno)
    (hroom : distance ring.abRead seqno < bufferFrames) :
    ∀ q, Between ring.abRead ring.abWrite q → (ring.entry q).ready = true →
      ¬ WritesSlot ring seqno (bufidx q) := by
  have hdist := distance_of_extends hlen hext
  have hround : distance ring.abRead ring.abWrite + distance ring.abWrite seqno < 2 ^ 16 := by
    have hframes : bufferFrames < 2 ^ 15 := bufferFrames_lt
    omega
  have hslot (p q : SeqT) (hp : distance ring.abRead p < bufferFrames)
      (hq : Between ring.abRead ring.abWrite q) (he : bufidx q = bufidx p) : q = p :=
    slot_injective_on bufferFrames_dvd (lt_of_lt_of_le hq hlen) hp he
  rintro q hq - (hown | ⟨-, k, hk, hgap⟩)
  · rw [hslot seqno q hroom hq hown] at hq
    unfold Between at hq
    omega
  · have hp : Between ring.abWrite seqno (ring.abWrite + BitVec.ofNat 16 k) := by
      have hlt := hk.trans_le (gapSize_toNat_le ring seqno)
      have hround' := distance_lt ring.abWrite seqno
      rwa [Between, distance_add_ofNat ring.abWrite (by omega)]
    have hp' : Between ring.abRead seqno (ring.abWrite + BitVec.ofNat 16 k) :=
      (between_append hround).mpr (Or.inr hp)
    rw [hslot _ q (lt_trans hp' hroom) hq hgap] at hq
    exact hp.not_between_left hround hq

/-- Within a ring that has room for it, a bad packet does harm exactly if it is a late one for a
number whose slot is ready. -/
theorem sparesReady_iff_of_fits {a : PutArgs} {conn : ConnInfo} (ha : a.originalFormat = true)
    (houtput : conn.connectionStateToOutput ≠ 0) (hs : conn.abSynced = true)
    (hfits : conn.toAudioRing.Fits) (hroom : RoomFor a conn) :
    SparesReady a conn ↔
      ¬ (placement conn.toAudioRing a.seqno = .late ∧ (conn.entry a.seqno).ready = true) := by
  have hlen := hfits.distance_le hs
  unfold RoomFor at hroom
  rw [syncToPacket_of_synced a hs, effectiveSeqno_of_originalFormat ha] at hroom
  dsimp only at hroom
  unfold SparesReady
  rw [or_iff_right houtput, or_iff_right (by rw [hs]; exact Bool.false_ne_true.symm)]
  cases hplace : placement conn.toAudioRing a.seqno with
  | tooLate => exact iff_of_true (Or.inl rfl) fun h => Placement.noConfusion h.1
  | late =>
      rw [or_iff_right Placement.noConfusion]
      have hin := between_of_placement_late hplace
      constructor
      · rintro hspared ⟨-, hready⟩
        exact hspared a.seqno hin hready (Or.inl rfl)
      · rintro hnot q hq hready (hslot | ⟨hnewer, -⟩)
        · have hsame : q = a.seqno := slot_injective_on bufferFrames_dvd
            (lt_of_lt_of_le hq hlen) (lt_of_lt_of_le hin hlen) hslot
          exact hnot ⟨rfl, hsame ▸ hready⟩
        · exact Placement.noConfusion (hplace.symm.trans hnewer)
  | expected => exact iff_of_true (Or.inr (not_writesSlot_of_extends hlen
      (Or.inl hplace) (hroom (Or.inl hplace)))) fun h => Placement.noConfusion h.1
  | newer => exact iff_of_true (Or.inr (not_writesSlot_of_extends hlen
      (Or.inr hplace) (hroom (Or.inr hplace)))) fun h => Placement.noConfusion h.1

def twoReceived : ResendState :=
  playerPutPacket .playOnly .pcm 20000000000 (.original 1 1001 [5, 6, 7, 8])
    (playerPutPacket .playOnly .pcm 10000000000 (.original 0 1000 [1, 2, 3, 4]) ⟨.fresh, -1⟩)

/-- A packet that is longer than `MAX_PACKET` leaves the two as they are if it is the next one. -/
theorem badPacket_keepsReady_of_two :
    KeepsReady twoReceived.conn (playerPutPacket .playOnly .pcm 30000000000
      (.original 2 1002 (List.replicate 2052 0)) twoReceived).conn :=
  (badPacket_keepsReady_iff .playOnly .pcm 30000000000
    (.original 2 1002 (List.replicate 2052 0)) twoReceived rfl (by decide +kernel)).mpr
    ((sparesReady_iff_of_fits rfl (by decide +kernel) (by decide +kernel) (by decide +kernel)
      (by decide +kernel)).mpr (by decide +kernel))

/-- A second packet for the number 1, longer than `MAX_PACKET`, clears the slot of the good one. -/
theorem badPacket_destroys :
    ¬ ∀ (cfg : Config) (decode : PacketDecoder) (timeNow : Nanoseconds) (a : PutArgs)
      (st : ResendState), a.originalFormat = true → ¬ Decodes decode a st.conn →
      KeepsReady st.conn (playerPutPacket cfg decode timeNow a st).conn := by
  intro h
  have hkept := h .playOnly .pcm 30000000000 (.original 1 1001 (List.replicate 2052 0))
    twoReceived rfl (by decide +kernel) (by decide +kernel) 1 (by decide +kernel)
    (by decide +kernel)
  exact absurd hkept (by decide +kernel)

/-! ## A packet that decodes -/

/-- The packet is stored in its slot, which is ready, and it is not counted as too late unless its
number is before `abRead`. -/
structure Used (decode : PacketDecoder) (a : PutArgs) (conn conn' : ConnInfo)
    (events : List Event) : Prop where
  stored : .stored a.seqno (decodedPacket decode a conn) ∈ events
  content : (conn'.entry a.seqno).content = some (a.seqno, decodedPacket decode a conn)
  tooLate : conn'.tooLatePackets ≠ conn.tooLatePackets → isAfter a.seqno conn.abRead = true

section Good

variable {decode : PacketDecoder} {timeNow : Nanoseconds} {a : PutArgs} {conn : ConnInfo}

theorem fillEvent_of_content {seqno : SeqT} {abuf : AudioBufferEntry} {p : Packet}
    (h : abuf.content = some (seqno, p)) : fillEvent seqno abuf = .stored seqno p := by
  unfold AudioBufferEntry.content at h
  split_ifs at h with hready
  obtain ⟨-, rfl⟩ := Prod.mk.inj (Option.some.inj h)
  rw [fillEvent, if_pos hready]

theorem storePacket_tooLatePackets (timeNow : Nanoseconds) (ha : a.originalFormat = true)
    (hs : conn.abSynced = true) (hplace : placement conn.toAudioRing a.seqno ≠ .tooLate) :
    (storePacket decode timeNow a conn).1.tooLatePackets = conn.tooLatePackets := by
  obtain ⟨slots, hstored⟩ := storePacket_eq decode timeNow a conn
  rw [hstored, syncToPacket_of_synced a hs, effectiveSeqno_of_originalFormat ha]
  unfold placePacket measureInputFrameRate
  dsimp only
  split
  · split_ifs <;> rfl
  · rfl
  · rfl
  · contradiction

/-- What is reported of the packet is what is in its slot. -/
theorem storePacket_events (ha : a.originalFormat = true) (hs : conn.abSynced = true)
    (hplace : placement conn.toAudioRing a.seqno ≠ .tooLate) :
    (storePacket decode timeNow a conn).2 =
      [fillEvent a.seqno ((storePacket decode timeNow a conn).1.entry a.seqno)] := by
  unfold storePacket
  rw [syncToPacket_of_synced a hs, effectiveSeqno_of_originalFormat ha]
  dsimp only
  rw [if_neg hplace]
  unfold fillSlot AudioRing.entry
  dsimp only
  rw [Function.update_self, List.nil_append]

/-- A packet is reported as stored exactly if it is not too late. -/
theorem storePacket_used_iff (timeNow : Nanoseconds) (ha : a.originalFormat = true)
    (hs : conn.abSynced = true) (hdecodes : Decodes decode a conn) :
    Used decode a conn (storePacket decode timeNow a conn).1
        (storePacket decode timeNow a conn).2 ↔
      placement conn.toAudioRing a.seqno ≠ .tooLate := by
  constructor
  · intro h hplace
    have hstored := h.stored
    unfold storePacket at hstored
    rw [syncToPacket_of_synced a hs, effectiveSeqno_of_originalFormat ha] at hstored
    dsimp only at hstored
    rw [if_pos hplace] at hstored
    exact List.not_mem_nil hstored
  · intro hplace
    have hcontent := storePacket_content decode timeNow ha hs hplace (bufidx a.seqno)
    rw [if_pos rfl, if_pos hdecodes] at hcontent
    refine ⟨?_, hcontent, fun h => absurd (storePacket_tooLatePackets timeNow ha hs hplace) h⟩
    rw [storePacket_events ha hs hplace]
    exact List.mem_singleton.mpr (fillEvent_of_content hcontent).symm

/-- Only the slot of the packet and the count of the packets that are too late matter. -/
theorem Used.congr {conn conn₁ conn' conn₁' : ConnInfo} {events : List Event}
    (h : Used decode a conn conn' events)
    (hpacket : decodedPacket decode a conn₁ = decodedPacket decode a conn)
    (hread : conn₁.abRead = conn.abRead) (hcount : conn₁.tooLatePackets = conn.tooLatePackets)
    (hcontent : (conn₁'.entry a.seqno).content = (conn'.entry a.seqno).content)
    (hcount' : conn₁'.tooLatePackets = conn'.tooLatePackets) :
    Used decode a conn₁ conn₁' events where
  stored := by
    rw [hpacket]
    exact h.stored
  content := by
    rw [hcontent, hpacket]
    exact h.content
  tooLate := by
    rw [hcount, hcount', hread]
    exact h.tooLate

/-- In the window a packet is too late exactly if it is after neither end of it. -/
theorem placement_ne_tooLate_iff {ring : AudioRing} {seqno : SeqT}
    (hin : Between ring.abRead ring.abWrite seqno) :
    placement ring seqno ≠ .tooLate ↔
      isAfter ring.abRead seqno = true ∨ isAfter ring.abWrite seqno = true := by
  have hne : ring.abWrite ≠ seqno := by
    rintro rfl
    exact not_between_right _ _ hin
  unfold placement
  rw [if_neg hne]
  cases isAfter ring.abWrite seqno <;> cases isAfter ring.abRead seqno <;> simp

/-- A packet in the original format that decodes and is in the window is used if and only if the
output is on and its number is after `abRead`, or after `abWrite`. -/
theorem retransmission_used_iff (cfg : Config) (decode : PacketDecoder) (timeNow : Nanoseconds)
    (a : PutArgs) (st : ResendState) (ha : a.originalFormat = true) (hs : st.conn.abSynced = true)
    (hin : Between st.conn.abRead st.conn.abWrite a.seqno) (hdecodes : Decodes decode a st.conn) :
    Used decode a st.conn (playerPutPacket cfg decode timeNow a st).conn
        (playerPutPacketStore decode timeNow a st.conn).2 ↔
      st.conn.connectionStateToOutput ≠ 0 ∧
        (isAfter st.conn.abRead a.seqno = true ∨ isAfter st.conn.abWrite a.seqno = true) := by
  by_cases houtput : st.conn.connectionStateToOutput = 0
  · refine iff_of_false (fun h => ?_) fun h => h.1 houtput
    have hstored := h.stored
    unfold playerPutPacketStore at hstored
    dsimp only at hstored
    rw [if_pos (by rwa [countPacket_ignoreEarlyFlush_connectionStateToOutput])] at hstored
    exact List.not_mem_nil hstored
  · rw [and_iff_right houtput, ← placement_ne_tooLate_iff hin,
      playerPutPacketStore_of_output houtput]
    have hframe : ResendFrame (playerPutPacketStore decode timeNow a st.conn).1
        (playerPutPacket cfg decode timeNow a st).conn := playerPutPacket_frame st
    rw [playerPutPacketStore_of_output houtput] at hframe
    have hring := countPacket_ignoreEarlyFlush_toAudioRing timeNow st.conn
    have hpacket := decodedPacket_counted decode timeNow a st.conn
    have hcount := countPacket_ignoreEarlyFlush_tooLatePackets timeNow st.conn
    rw [← decodes_counted_iff decode timeNow] at hdecodes
    generalize countPacket timeNow (ignoreEarlyFlush st.conn) = counted at *
    have hcontent := hframe.content (bufidx a.seqno)
    have hcount' : (playerPutPacket cfg decode timeNow a st).conn.tooLatePackets =
        (storePacket decode timeNow a counted).1.tooLatePackets := by
      rw [hframe.rest]
    rw [← hring, ← storePacket_used_iff timeNow ha ((congrArg AudioRing.abSynced hring).trans hs)
      hdecodes]
    have hread : st.conn.abRead = counted.abRead := (congrArg AudioRing.abRead hring).symm
    exact ⟨fun h => h.congr hpacket hread.symm hcount hcontent.symm hcount'.symm,
      fun h => h.congr hpacket.symm hread hcount.symm hcontent hcount'⟩

end Good

/-- The number 1 is missing between 0 and 2, and the frame of 0 has not been handed out. -/
def oneMissing : ResendState :=
  playerPutPacket .playOnly .pcm 20000000000 (.original 2 1002 [9, 10, 11, 12])
    (playerPutPacket .playOnly .pcm 10000000000 (.original 0 1000 [1, 2, 3, 4]) ⟨.fresh, -1⟩)

/-- The number 1 is used when it arrives. -/
theorem retransmission_used_of_one :
    Used .pcm (.original 1 1001 [5, 6, 7, 8]) oneMissing.conn
      (playerPutPacket .playOnly .pcm 30000000000 (.original 1 1001 [5, 6, 7, 8])
        oneMissing).conn
      (playerPutPacketStore .pcm 30000000000 (.original 1 1001 [5, 6, 7, 8])
        oneMissing.conn).2 :=
  (retransmission_used_iff .playOnly .pcm 30000000000 (.original 1 1001 [5, 6, 7, 8])
    oneMissing rfl (by decide +kernel) (by decide +kernel) (by decide +kernel)).mpr
    (by decide +kernel)

/-- With the number 1 at the start of the window, still missing, its retransmission is thrown away
and counted as too late. -/
theorem retransmission_of_abRead_unused :
    ¬ ∀ (cfg : Config) (decode : PacketDecoder) (timeNow : Nanoseconds) (a : PutArgs)
      (st : ResendState), a.originalFormat = true → st.conn.abSynced = true →
      st.conn.connectionStateToOutput ≠ 0 →
      Between st.conn.abRead st.conn.abWrite a.seqno → Decodes decode a st.conn →
      Used decode a st.conn (playerPutPacket cfg decode timeNow a st).conn
        (playerPutPacketStore decode timeNow a st.conn).2 := by
  intro h
  have hused := h .playOnly .pcm 30000000000 (.original 1 1001 [5, 6, 7, 8])
    { oneMissing with conn := { oneMissing.conn with abRead := 1 } } rfl (by decide +kernel)
    (by decide +kernel) (by decide +kernel) (by decide +kernel)
  exact absurd hused.stored (by decide +kernel)

end Player

end ShairportSync
