import ShairportSync.Metadata.Dmap
import ShairportSync.Metadata.Pipe

/-!
# Metadata in datagrams

`metadata_multicast_process` puts an item together in `metadata_sockmsg`, which is as long as a
datagram may be, and sends it. An item that does not leave a byte of it free goes out in numbered
chunks; how many there are is computed before the data is cut.
-/

namespace ShairportSync

namespace Metadata

open Player (Bytes)
open Rtsp (ascii)
open Memory

/-! ## The length of a datagram -/

structure SockMsgLength where
  value : ℕ
  le_value : 500 ≤ value
  value_le : value ≤ 65000

/-- What `parse_options` makes of `metadata.socket_msglength`, if it is set. -/
def SockMsgLength.configured : Option (BitVec 32) → SockMsgLength
  | none => ⟨500, by decide, by decide⟩
  | some value =>
      ⟨(if value.toInt < 500 then 500 else if 65000 < value.toInt then 65000 else
        value.toInt).toNat, by split_ifs <;> omega, by split_ifs <;> omega⟩

/-! ## The message -/

/-- The memory from the start of `metadata_sockmsg` on, the place for the next byte, and what has
been written where. -/
structure SockMsg where
  memory : Int → BitVec 8
  ptr : ℕ
  writes : List Write

/-- `char *ptr = metadata_sockmsg;` -/
def SockMsg.restart (m : SockMsg) : SockMsg := { m with ptr := 0 }

/-- `memcpy(ptr, ..); ptr += ..;` -/
def SockMsg.memcpy (m : SockMsg) (bytes : Bytes) : SockMsg :=
  ⟨store m.memory m.ptr bytes, m.ptr + bytes.length, m.writes ++ [⟨m.ptr, bytes.length⟩]⟩

def SockMsg.sendto (m : SockMsg) (length : ℕ) : Bytes :=
  (List.range length).map fun k => m.memory (k : ℕ)

def SockMsg.fillWhole (m : SockMsg) (item : MetadataItem) : SockMsg :=
  ((m.restart.memcpy (htonl item.type)).memcpy (htonl item.code)).memcpy item.payload

def SockMsg.fillHead (m : SockMsg) (chunkIx chunkTotal type code : BitVec 32) : SockMsg :=
  ((((m.restart.memcpy (ascii "ssncchnk")).memcpy (htonl chunkIx)).memcpy
    (htonl chunkTotal)).memcpy (htonl type)).memcpy (htonl code)

def chunkTotal (L : SockMsgLength) (length : BitVec 32) : BitVec 32 :=
  let total := BitVec.ofNat 32 (length.toNat / (L.value - 24))
  if total.toNat * (L.value - 24) % 2 ^ 64 < length.toNat then total + 1 else total

/-- The loop that sends the chunks, if it ends after at most so many turns. -/
def sendChunks (L : SockMsgLength) (total type code : BitVec 32) :
    ℕ → BitVec 32 → BitVec 32 → Bytes → SockMsg → Option (List Bytes × SockMsg)
  | 0, _, _, _, _ => none
  | turns + 1, chunkIx, remaining, dataCrsr, m =>
      let datalen := if L.value - 24 < remaining.toNat then L.value - 24 else remaining.toNat
      let m := (m.fillHead chunkIx total type code).memcpy (dataCrsr.take datalen)
      let datagram := m.sendto (datalen + 24)
      let remaining := remaining - BitVec.ofNat 32 datalen
      if remaining = 0 then some ([datagram], m)
      else
        (sendChunks L total type code turns (chunkIx + 1) remaining (dataCrsr.drop datalen) m).map
          fun (datagrams, m) => (datagram :: datagrams, m)

/-- `metadata_multicast_process` with an open socket. -/
def metadataMulticastProcess (L : SockMsgLength) (item : MetadataItem) (m : SockMsg) (turns : ℕ) :
    Option (List Bytes × SockMsg) :=
  if item.length.toNat < L.value - 8 then
    some ([(m.fillWhole item).sendto (item.length.toNat + 8)], m.fillWhole item)
  else if L.value = 24 then none
  else
    sendChunks L (chunkTotal L item.length) item.type item.code turns 0 item.length item.payload m

/-! ## What is to be sent -/

def wholeDatagram (item : MetadataItem) : Bytes :=
  htonl item.type ++ htonl item.code ++ item.payload

def chunkDatagram (type code total ix : BitVec 32) (chunk : Bytes) : Bytes :=
  ascii "ssncchnk" ++ htonl ix ++ htonl total ++ htonl type ++ htonl code ++ chunk

/-- The data of the item, cut into as many chunks as each of them says, in order. -/
def SentInChunks (item : MetadataItem) (datagrams : List Bytes) : Prop :=
  ∃ (chunks : List Bytes) (total : BitVec 32), total.toNat = chunks.length ∧
    datagrams =
      chunks.mapIdx (fun ix => chunkDatagram item.type item.code total (BitVec.ofNat 32 ix)) ∧
    chunks.flatten = item.payload

/-! ## Putting a message together -/

section Message

variable {size : ℕ} {m : SockMsg} {out : Bytes}

/-- The message begins with these bytes, the next one comes behind them, and nothing has been
written outside of it. -/
structure SockMsg.Begins (size : ℕ) (m : SockMsg) (out : Bytes) : Prop where
  holds : Holds m.memory out
  ptr : m.ptr = out.length
  inside : ∀ w ∈ m.writes, w.Inside size

theorem SockMsg.begins_restart (h : ∀ w ∈ m.writes, w.Inside size) : m.restart.Begins size [] :=
  ⟨holds_nil _, rfl, h⟩

theorem SockMsg.Begins.memcpy (h : m.Begins size out) {bytes : Bytes}
    (hsize : out.length + bytes.length ≤ size) : (m.memcpy bytes).Begins size (out ++ bytes) := by
  refine ⟨?_, ?_, ?_⟩
  · rw [SockMsg.memcpy, h.ptr]
    exact h.holds.store bytes
  · rw [SockMsg.memcpy, h.ptr, List.length_append]
  · intro w hw
    rcases List.mem_append.mp hw with hw | hw
    · exact h.inside w hw
    · obtain rfl := List.mem_singleton.mp hw
      have hend : m.ptr + bytes.length ≤ size := h.ptr ▸ hsize
      exact ⟨Int.natCast_nonneg _, show (m.ptr : Int) + bytes.length ≤ size by exact_mod_cast hend⟩

theorem SockMsg.Begins.sendto (h : m.Begins size out) : m.sendto out.length = out :=
  h.holds.read

theorem length_wholeDatagram (item : MetadataItem) :
    (wholeDatagram item).length = item.payload.length + 8 := by
  simp only [wholeDatagram, List.length_append, length_htonl]
  omega

theorem length_chunkDatagram (type code total ix : BitVec 32) (chunk : Bytes) :
    (chunkDatagram type code total ix chunk).length = chunk.length + 24 := by
  have hname : (ascii "ssncchnk").length = 8 := rfl
  simp only [chunkDatagram, List.length_append, length_htonl, hname]
  omega

theorem SockMsg.fillWhole_begins (h : ∀ w ∈ m.writes, w.Inside size) {item : MetadataItem}
    (hsize : item.payload.length + 8 ≤ size) :
    (m.fillWhole item).Begins size (wholeDatagram item) := by
  refine (((begins_restart h).memcpy ?_).memcpy ?_).memcpy ?_ <;>
    simp only [List.length_append, List.length_nil, length_htonl] <;> omega

theorem SockMsg.fillChunk_begins (h : ∀ w ∈ m.writes, w.Inside size)
    (chunkIx total type code : BitVec 32) {chunk : Bytes} (hsize : chunk.length + 24 ≤ size) :
    ((m.fillHead chunkIx total type code).memcpy chunk).Begins size
      (chunkDatagram type code total chunkIx chunk) := by
  have hname : (ascii "ssncchnk").length = 8 := rfl
  refine ((((((begins_restart h).memcpy ?_).memcpy ?_).memcpy ?_).memcpy ?_).memcpy
    ?_).memcpy ?_ <;>
    simp only [List.length_append, List.length_nil, length_htonl, hname] <;> omega

end Message

/-! ## The chunks -/

section Chunks

variable {L : SockMsgLength} {m : SockMsg}

theorem toNat_chunkTotal (L : SockMsgLength) (length : BitVec 32) :
    (chunkTotal L length).toNat = (length.toNat + (L.value - 24) - 1) / (L.value - 24) := by
  have hle := L.le_value
  have hlt := length.isLt
  obtain ⟨c, hc⟩ : ∃ c, c = L.value - 24 := ⟨_, rfl⟩
  have hpos : 0 < c := by omega
  have hdiv := Nat.div_add_mod length.toNat c
  have hmod := Nat.mod_lt length.toNat hpos
  have hquot : length.toNat / c < 2 ^ 31 :=
    (Nat.div_le_div_left (show 2 ≤ c by omega) (by decide)).trans_lt (by omega)
  have htotal : (BitVec.ofNat 32 (length.toNat / c)).toNat = length.toNat / c := by
    rw [BitVec.toNat_ofNat, Nat.mod_eq_of_lt (by omega)]
  rw [chunkTotal, ← hc]
  simp only [htotal]
  rw [Nat.mul_comm, Nat.mod_eq_of_lt (by omega)]
  split
  · next hsmaller =>
    have hone : (1 : BitVec 32).toNat = 1 := rfl
    rw [BitVec.toNat_add, htotal, hone, Nat.mod_eq_of_lt (by omega)]
    refine (Nat.div_eq_of_lt_le ?_ ?_).symm <;>
      simp only [Nat.mul_comm _ c, Nat.mul_one, Nat.mul_add] <;> omega
  · next hwhole =>
    rw [htotal]
    refine (Nat.div_eq_of_lt_le ?_ ?_).symm <;>
      simp only [Nat.mul_comm _ c, Nat.mul_one, Nat.mul_add] <;> omega

/-- A turn sends a chunk of the data. -/
theorem SockMsg.sendto_fillChunk (h : ∀ w ∈ m.writes, w.Inside L.value)
    (chunkIx total type code : BitVec 32) {chunk : Bytes} (hsize : chunk.length + 24 ≤ L.value) :
    ((m.fillHead chunkIx total type code).memcpy chunk).sendto (chunk.length + 24) =
      chunkDatagram type code total chunkIx chunk := by
  rw [← length_chunkDatagram type code total chunkIx chunk]
  exact (fillChunk_begins h chunkIx total type code hsize).sendto

theorem sendChunks_last (total type code : BitVec 32) (turns : ℕ) {chunkIx remaining : BitVec 32}
    {data : Bytes} (hremaining : remaining.toNat = data.length)
    (hdata : data.length ≤ L.value - 24) (h : ∀ w ∈ m.writes, w.Inside L.value) :
    ∃ m', sendChunks L total type code (turns + 1) chunkIx remaining data m =
        some ([chunkDatagram type code total chunkIx data], m') ∧
      ∀ w ∈ m'.writes, w.Inside L.value := by
  have hL := L.le_value
  have hsize : data.length + 24 ≤ L.value := by omega
  have hzero : remaining - BitVec.ofNat 32 data.length = 0 := by
    rw [← hremaining, BitVec.ofNat_toNat, BitVec.setWidth_eq, BitVec.sub_self]
    rfl
  refine ⟨_, ?_, (SockMsg.fillChunk_begins h chunkIx total type code hsize).inside⟩
  simp only [sendChunks, hremaining, if_neg (not_lt.mpr hdata), if_pos hzero, List.take_length,
    SockMsg.sendto_fillChunk h chunkIx total type code hsize]

theorem sendChunks_full (total type code : BitVec 32) (turns : ℕ) {chunkIx remaining : BitVec 32}
    {data : Bytes} (hremaining : remaining.toNat = data.length)
    (hdata : L.value - 24 < data.length) (h : ∀ w ∈ m.writes, w.Inside L.value) :
    ∃ remaining' m', remaining'.toNat = (data.drop (L.value - 24)).length ∧
      (∀ w ∈ m'.writes, w.Inside L.value) ∧
      sendChunks L total type code (turns + 1) chunkIx remaining data m =
        (sendChunks L total type code turns (chunkIx + 1) remaining' (data.drop (L.value - 24))
          m').map fun (datagrams, m) =>
            (chunkDatagram type code total chunkIx (data.take (L.value - 24)) :: datagrams, m) := by
  have hL := L.le_value
  have hlength : (data.take (L.value - 24)).length = L.value - 24 :=
    List.length_take_of_le hdata.le
  have hsize : (data.take (L.value - 24)).length + 24 ≤ L.value := by omega
  have hlt := remaining.isLt
  have hrest : (remaining - BitVec.ofNat 32 (L.value - 24)).toNat =
      (data.drop (L.value - 24)).length := by
    rw [List.length_drop, BitVec.toNat_sub, BitVec.toNat_ofNat]
    omega
  have hne : remaining - BitVec.ofNat 32 (L.value - 24) ≠ 0 := by
    intro hzero
    rw [hzero, List.length_drop] at hrest
    change 0 = _ at hrest
    omega
  have hsendto := SockMsg.sendto_fillChunk h chunkIx total type code hsize
  rw [hlength] at hsendto
  refine ⟨_, _, hrest, (SockMsg.fillChunk_begins h chunkIx total type code hsize).inside, ?_⟩
  simp only [sendChunks, hremaining, if_pos hdata, if_neg hne, hsendto]

theorem mapIdx_numbered (f : BitVec 32 → Bytes → Bytes) (ix : BitVec 32) (chunk : Bytes)
    (chunks : List Bytes) :
    (chunk :: chunks).mapIdx (fun k => f (ix + BitVec.ofNat 32 k)) =
      f ix chunk :: chunks.mapIdx fun k => f (ix + 1 + BitVec.ofNat 32 k) := by
  have hnext : ∀ k : ℕ, ix + BitVec.ofNat 32 (k + 1) = ix + 1 + BitVec.ofNat 32 k := fun k => by
    rw [BitVec.ofNat_add, add_comm (BitVec.ofNat 32 k), ← add_assoc]
    rfl
  have hfirst : ix + BitVec.ofNat 32 0 = ix := BitVec.add_zero ix
  rw [List.mapIdx_cons, hfirst]
  exact congrArg _ (congrArg (fun g => List.mapIdx g chunks) (funext fun k => by rw [hnext]))

/-- The chunks are numbered from the first on, and their data is what was to be sent. -/
theorem sendChunks_spec (total type code : BitVec 32) (turns : ℕ) {chunkIx remaining : BitVec 32}
    {data : Bytes} (hremaining : remaining.toNat = data.length) (hdata : data ≠ [])
    (hturns : data.length ≤ turns) (h : ∀ w ∈ m.writes, w.Inside L.value) :
    ∃ (chunks : List Bytes) (m' : SockMsg),
      sendChunks L total type code turns chunkIx remaining data m =
        some (chunks.mapIdx (fun ix => chunkDatagram type code total
          (chunkIx + BitVec.ofNat 32 ix)), m') ∧
      chunks.flatten = data ∧
      chunks.length = (data.length + (L.value - 24) - 1) / (L.value - 24) ∧
      (∀ chunk ∈ chunks, chunk.length + 24 ≤ L.value) ∧ ∀ w ∈ m'.writes, w.Inside L.value := by
  have hL := L.le_value
  have hpos := List.length_pos_iff.mpr hdata
  induction turns generalizing chunkIx remaining data m with
  | zero => omega
  | succ turns ih =>
      rcases Nat.lt_or_ge (L.value - 24) data.length with hlt | hle
      · obtain ⟨remaining', m₁, hremaining', hinside, hsend⟩ :=
          sendChunks_full total type code turns hremaining hlt h
        have hrest : 0 < (data.drop (L.value - 24)).length := by
          rw [List.length_drop]
          omega
        obtain ⟨chunks, m', hchunks, hflatten, hcount, hlength, hinside'⟩ :=
          ih hremaining' (List.length_pos_iff.mp hrest) (by rw [List.length_drop]; omega) hinside
            hrest
        refine ⟨data.take (L.value - 24) :: chunks, m', ?_, ?_, ?_, ?_, hinside'⟩
        · rw [hsend, hchunks, Option.map_some, mapIdx_numbered]
        · rw [List.flatten_cons, hflatten, List.take_append_drop]
        · have hsum : data.length + (L.value - 24) - 1 =
              data.length - (L.value - 24) + (L.value - 24) - 1 + (L.value - 24) := by omega
          rw [List.length_cons, hcount, List.length_drop, hsum, Nat.add_div_right _ (by omega)]
        · refine List.forall_mem_cons.mpr ⟨?_, hlength⟩
          rw [List.length_take_of_le hlt.le]
          omega
      · obtain ⟨m', hsend, hinside⟩ := sendChunks_last total type code turns hremaining hle h
        refine ⟨[data], m', ?_, List.flatten_singleton, ?_, ?_, hinside⟩
        · rw [hsend, mapIdx_numbered, List.mapIdx_nil]
        · refine (Nat.div_eq_of_lt_le ?_ ?_).symm <;> simp only [List.length_singleton] <;> omega
        · rw [List.forall_mem_singleton]
          omega

end Chunks

/-- The process ends, and neither writes nor sends more than a message has room for. An item that
leaves a byte free is sent as it is, and any other in chunks from which it can be put together. -/
theorem metadataMulticastProcess_lossless (L : SockMsgLength) (item : MetadataItem)
    (memory : Int → BitVec 8) :
    ∃ turns datagrams m,
      metadataMulticastProcess L item ⟨memory, 0, []⟩ turns = some (datagrams, m) ∧
      (∀ d ∈ datagrams, d.length ≤ L.value) ∧ (∀ w ∈ m.writes, w.Inside L.value) ∧
      if item.payload.length < L.value - 8 then datagrams = [wholeDatagram item]
      else SentInChunks item datagrams := by
  have hL := L.le_value
  have hlength : item.length.toNat = item.payload.length := item.length_eq
  have hstart : ∀ w ∈ (⟨memory, 0, []⟩ : SockMsg).writes, w.Inside L.value := by simp
  by_cases hwhole : item.payload.length < L.value - 8
  · have hbegins : ((⟨memory, 0, []⟩ : SockMsg).fillWhole item).Begins L.value
        (wholeDatagram item) := SockMsg.fillWhole_begins hstart (by omega)
    have hsendto := hbegins.sendto
    rw [length_wholeDatagram, ← hlength] at hsendto
    refine ⟨0, [wholeDatagram item], (⟨memory, 0, []⟩ : SockMsg).fillWhole item, ?_, ?_,
      hbegins.inside, ?_⟩
    · rw [metadataMulticastProcess, if_pos (hlength ▸ hwhole), hsendto]
    · rw [List.forall_mem_singleton, length_wholeDatagram]
      omega
    · rw [if_pos hwhole]
  · have hdata : item.payload ≠ [] := List.length_pos_iff.mp (by omega)
    obtain ⟨chunks, m, hsend, hflatten, hcount, hchunk, hinside⟩ :=
      @sendChunks_spec L ⟨memory, 0, []⟩ (chunkTotal L item.length) item.type item.code
        item.payload.length 0 item.length item.payload hlength hdata le_rfl hstart
    simp only [BitVec.ofNat_eq_ofNat, BitVec.zero_add] at hsend
    refine ⟨item.payload.length, chunks.mapIdx fun ix => chunkDatagram item.type item.code
      (chunkTotal L item.length) (BitVec.ofNat 32 ix), m, ?_, ?_, hinside, ?_⟩
    · rw [metadataMulticastProcess, if_neg (hlength ▸ hwhole), if_neg (by omega)]
      exact hsend
    · intro d hd
      obtain ⟨ix, hix, rfl⟩ := List.mem_mapIdx.mp hd
      rw [length_chunkDatagram]
      exact hchunk _ (List.getElem_mem hix)
    · rw [if_neg hwhole]
      refine ⟨chunks, chunkTotal L item.length, ?_, rfl, hflatten⟩
      rw [toNat_chunkTotal, hlength, hcount]

/-- With its type and its code this item fills a datagram of 500 bytes. -/
def fullItem : MetadataItem where
  type := 0
  code := 0
  data := some (List.replicate 492 0)
  length := 492
  length_eq := by rw [Option.getD_some, List.length_replicate]; rfl

theorem fullItem_not_sent_whole :
    (wholeDatagram fullItem).length ≤ (SockMsgLength.configured none).value ∧
      ∀ memory turns datagrams m,
        metadataMulticastProcess (.configured none) fullItem ⟨memory, 0, []⟩ turns =
          some (datagrams, m) → datagrams ≠ [wholeDatagram fullItem] := by
  have hpayload : fullItem.payload.length = 492 := List.length_replicate
  have hvalue : (SockMsgLength.configured none).value = 500 := rfl
  refine ⟨by rw [length_wholeDatagram, hpayload, hvalue], fun memory turns datagrams m hsend => ?_⟩
  rw [metadataMulticastProcess, if_neg (by decide), if_neg (by decide)] at hsend
  cases turns with
  | zero => cases hsend
  | succ turns =>
      obtain ⟨remaining, m', -, -, hfull⟩ := @sendChunks_full (.configured none) ⟨memory, 0, []⟩
        (chunkTotal (.configured none) fullItem.length) fullItem.type fullItem.code turns 0
        fullItem.length fullItem.payload fullItem.length_eq (by rw [hpayload, hvalue]; decide)
        (by simp)
      rw [hfull] at hsend
      obtain ⟨⟨rest, m''⟩, -, hdatagrams⟩ := Option.map_eq_some_iff.mp hsend
      rintro rfl
      have hfirst : some (115 : BitVec 8) = some 0 :=
        congrArg (fun x => x.1.head?.bind List.head?) hdatagrams
      exact absurd hfirst (by decide)

end Metadata

end ShairportSync
