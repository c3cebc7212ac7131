import ShairportSync.Dacp.Replies

/-!
# The list of speakers

Each `mdcl` container of a reply is a speaker, and what follows up to the next one is about it. The
index is at -1 before the first container, where an item would be written before the array. A name
is copied up to a NUL, which an item does not have, and the reply is not freed if there are more
containers than entries. Otherwise the list is what is in the reply.
-/

namespace ShairportSync

namespace Dacp

open Player (Bytes)
open Metadata

/-! ## What a reply says -/

def preludeOf (items : List Item) : List Item := items.takeWhile fun item => !isMdcl item.type

def containersOf : List Item → List (List Item)
  | [] => []
  | item :: rest =>
      if isMdcl item.type then preludeOf rest :: containersOf rest else containersOf rest

def lastOf (type : BitVec 32) : List Item → Option Item
  | [] => none
  | item :: rest => (lastOf type rest).or (if item.type = type then some item else none)

def Item.bytes (reply : Reply) (item : Item) : Bytes :=
  (reply.body.drop item.data.toNat).take item.size.toInt.toNat

def cString (bytes : Bytes) : Bytes := bytes.takeWhile (· != 0)

def nameValue (data : Bytes) : Option Bytes := some (cString (data.take 127))

def volumeValue (data : Bytes) : Option (BitVec 32) :=
  if data.length = 4 then firstWord data else none

def numberValue (data : Bytes) : Option (BitVec 64) :=
  if data.length = 8 then firstDoubleWord data else none

/-- What the last item with this tag says, or what there is without such an item. -/
def lastValue {α : Type*} (reply : Reply) (type : BitVec 32) (value : Bytes → Option α)
    (default : α) (content : List Item) : Option α :=
  match lastOf type content with
  | some item => value (item.bytes reply)
  | none => some default

/-- The entry says what the items of a container say. -/
structure SpeakerStuff.Holds (reply : Reply) (content : List Item) (speaker : SpeakerStuff) :
    Prop where
  name : lastValue reply minm nameValue [] content = some (cString speaker.name)
  number : lastValue reply msma numberValue 0 content = some speaker.speakerNumber
  active : speaker.active = content.any (fun item => item.type = caia)
  volume : lastValue reply cmvo volumeValue 0 content = some speaker.volume

/-- Only entries of the array are written to. A list that is returned as fine has as many entries as
there are containers, and the entries say what the containers say. The reply is freed. -/
structure SpeakerList.Exact (response : Response) (max : ℕ) (items : List Item)
    (list : SpeakerList) : Prop where
  written : ∀ i ∈ list.speakers.written, 0 ≤ i ∧ i < max
  count : list.response = 200 → list.actualSpeakerCount = some ((containersOf items).length : ℤ)
  entries : list.response = 200 → ∀ reply ∈ response.serverReply, ∀ (i : ℕ) content,
    (containersOf items)[i]? = some content →
      (list.speakers.speakerInfo i).Holds reply content
  freed : list.freed = response.buffers

/-! ## Strings -/

section Strings

theorem cString_nil : cString [] = [] := rfl

theorem cString_cons (c : BitVec 8) (bytes : Bytes) :
    cString (c :: bytes) = if c = 0 then [] else c :: cString bytes := by
  rw [cString, List.takeWhile_cons, cString]
  by_cases hc : c = 0
  · rw [if_pos hc, hc]
    rfl
  · rw [if_neg hc, if_pos (bne_iff_ne.mpr hc)]

theorem cString_append (data rest : Bytes) :
    cString (data ++ rest) = if 0 ∈ data then cString data else data ++ cString rest := by
  induction data with
  | nil => rfl
  | cons c data ih =>
      rw [List.cons_append, cString_cons, cString_cons, ih]
      by_cases hc : c = 0
      · rw [if_pos hc, if_pos hc, if_pos (by rw [hc]; exact List.mem_cons_self)]
      · have hmem : 0 ∈ c :: data ↔ 0 ∈ data :=
          ⟨fun h => (List.mem_cons.mp h).resolve_left (Ne.symm hc), List.mem_cons_of_mem _⟩
        rw [if_neg hc, if_neg hc]
        simp only [hmem]
        split <;> rfl

theorem cString_of_not_mem {data : Bytes} (h : 0 ∉ data) : cString data = data := by
  have happend := cString_append data []
  rwa [if_neg h, List.append_nil, cString_nil, List.append_nil] at happend

theorem cString_append_eq_iff (data : Bytes) (b : BitVec 8) (rest : Bytes) :
    cString (data ++ b :: rest) = cString data ↔ 0 ∈ data ∨ b = 0 := by
  rw [cString_append]
  by_cases hmem : 0 ∈ data
  · exact iff_of_true (if_pos hmem) (Or.inl hmem)
  · rw [if_neg hmem, cString_of_not_mem hmem, List.append_right_eq_self, cString_cons]
    by_cases hb : b = 0
    · exact iff_of_true (if_pos hb) (Or.inr hb)
    · rw [if_neg hb]
      exact iff_of_false (List.cons_ne_nil _ _) (not_or.mpr ⟨hmem, hb⟩)

theorem cString_take_padded (bytes : Bytes) (k : ℕ) :
    cString ((cString bytes ++ List.replicate (bytes.length - (cString bytes).length) 0).take k) =
      cString (bytes.take k) := by
  induction bytes generalizing k with
  | nil => rfl
  | cons c bytes ih =>
      cases k with
      | zero => rw [List.take_zero, List.take_zero]
      | succ k =>
          rw [cString_cons c bytes, List.take_succ_cons, cString_cons c]
          by_cases hc : c = 0
          · rw [if_pos hc, if_pos hc]
            rfl
          · rw [if_neg hc, if_neg hc, List.cons_append, List.take_succ_cons, cString_cons,
              if_neg hc, List.length_cons, List.length_cons, Nat.add_sub_add_right, ih]

theorem cString_strncpy (reply : Reply) (src : ℤ) :
    cString ((strncpy reply src 128).set 127 0) =
      cString ((List.range 127).map fun i : ℕ => reply.byte (src + i)) := by
  set bytes := (List.range 128).map fun i : ℕ => reply.byte (src + i) with hbytes
  have hlength : bytes.length = 128 := by rw [hbytes, List.length_map, List.length_range]
  have hcopy : strncpy reply src 128 =
      cString bytes ++ List.replicate (bytes.length - (cString bytes).length) 0 := by
    rw [hlength]
    rfl
  have hle : (cString bytes).length ≤ 128 := hlength ▸ (List.takeWhile_sublist _).length_le
  have htake : bytes.take 127 = (List.range 127).map fun i : ℕ => reply.byte (src + i) := by
    rw [hbytes, ← List.map_take, List.take_range]
    rfl
  have hlast : 127 < (strncpy reply src 128).length := by
    rw [hcopy, List.length_append, List.length_replicate]
    omega
  rw [List.set_eq_take_append_cons_drop, if_pos hlast,
    (cString_append_eq_iff _ _ _).mpr (Or.inr rfl), hcopy, cString_take_padded, htake]

end Strings

/-! ## Entries -/

section Entries

variable {reply : Reply} {content : List Item}

/-- What an item can do to an entry. -/
theorem putItem_cases (reply : Reply) (item : Item) :
    (item.type = minm ∧ putItem reply item =
        some fun speaker => { speaker with name := (strncpy reply item.data 128).set 127 0 }) ∨
    (item.type = cmvo ∧ putItem reply item =
        some fun speaker => { speaker with volume := reply.word item.data }) ∨
    (item.type = msma ∧ putItem reply item =
        some fun speaker => { speaker with speakerNumber :=
          ((reply.word item.data).setWidth 64 <<< 32) +
            (reply.word (item.data + 4)).setWidth 64 }) ∨
    (item.type = caia ∧ putItem reply item =
        some fun speaker => { speaker with active := true }) ∨
    (item.type ∉ [minm, cmvo, msma, caia] ∧ putItem reply item = none) := by
  by_cases hminm : item.type = minm
  · exact .inl ⟨hminm, if_pos hminm⟩
  by_cases hcmvo : item.type = cmvo
  · refine .inr (.inl ⟨hcmvo, ?_⟩)
    rw [putItem, if_neg hminm, if_pos hcmvo]
  by_cases hmsma : item.type = msma
  · refine .inr (.inr (.inl ⟨hmsma, ?_⟩))
    rw [putItem, if_neg hminm, if_neg hcmvo, if_pos hmsma]
  by_cases hcaia : item.type = caia
  · refine .inr (.inr (.inr (.inl ⟨hcaia, ?_⟩)))
    rw [putItem, if_neg hminm, if_neg hcmvo, if_neg hmsma, if_pos hcaia]
  · refine .inr (.inr (.inr (.inr ⟨?_, ?_⟩)))
    · simp only [List.mem_cons, List.not_mem_nil, or_false, not_or]
      exact ⟨hminm, hcmvo, hmsma, hcaia⟩
    · rw [putItem, if_neg hminm, if_neg hcmvo, if_neg hmsma, if_neg hcaia]

theorem tags_ne : (minm ≠ cmvo ∧ minm ≠ msma ∧ minm ≠ caia) ∧ (cmvo ≠ msma ∧ cmvo ≠ caia) ∧
    msma ≠ caia := by
  decide

theorem ne_of_not_mem {item : Item} (h : item.type ∉ [minm, cmvo, msma, caia]) :
    item.type ≠ minm ∧ item.type ≠ cmvo ∧ item.type ≠ msma ∧ item.type ≠ caia := by
  simpa only [List.mem_cons, List.not_mem_nil, or_false, not_or] using h

def putOne (reply : Reply) (item : Item) (speaker : SpeakerStuff) : SpeakerStuff :=
  (putItem reply item).elim speaker fun put => put speaker

/-- An item sets the field that its tag is of, and leaves the others. -/
theorem putOne_eq (item : Item) (speaker : SpeakerStuff) :
    putOne reply item speaker =
      { name :=
          if item.type = minm then (strncpy reply item.data 128).set 127 0 else speaker.name
        volume := if item.type = cmvo then reply.word item.data else speaker.volume
        speakerNumber :=
          if item.type = msma then
            ((reply.word item.data).setWidth 64 <<< 32) + (reply.word (item.data + 4)).setWidth 64
          else speaker.speakerNumber
        active := if item.type = caia then true else speaker.active } := by
  obtain ⟨⟨hminmCmvo, hminmMsma, hminmCaia⟩, ⟨hcmvoMsma, hcmvoCaia⟩, hmsmaCaia⟩ := tags_ne
  rw [putOne]
  obtain ⟨h, hput⟩ | ⟨h, hput⟩ | ⟨h, hput⟩ | ⟨h, hput⟩ | ⟨h, hput⟩ := putItem_cases reply item <;>
    rw [hput, Option.elim]
  · rw [h, if_pos rfl, if_neg hminmCmvo, if_neg hminmMsma, if_neg hminmCaia]
  · rw [h, if_neg hminmCmvo.symm, if_pos rfl, if_neg hcmvoMsma, if_neg hcmvoCaia]
  · rw [h, if_neg hminmMsma.symm, if_neg hcmvoMsma.symm, if_pos rfl, if_neg hmsmaCaia]
  · rw [h, if_neg hminmCaia.symm, if_neg hcmvoCaia.symm, if_neg hmsmaCaia.symm, if_pos rfl]
  · obtain ⟨hminm, hcmvo, hmsma, hcaia⟩ := ne_of_not_mem h
    rw [if_neg hminm, if_neg hcmvo, if_neg hmsma, if_neg hcaia]

theorem name_putOne (item : Item) (speaker : SpeakerStuff) :
    cString (putOne reply item speaker).name =
      if item.type = minm then
        cString ((List.range 127).map fun i : ℕ => reply.byte (item.data + i))
      else cString speaker.name := by
  rw [putOne_eq, apply_ite cString, cString_strncpy]

theorem volume_putOne (item : Item) (speaker : SpeakerStuff) :
    (putOne reply item speaker).volume =
      if item.type = cmvo then reply.word item.data else speaker.volume := by
  rw [putOne_eq]

theorem speakerNumber_putOne (item : Item) (speaker : SpeakerStuff) :
    (putOne reply item speaker).speakerNumber =
      if item.type = msma then
        ((reply.word item.data).setWidth 64 <<< 32) + (reply.word (item.data + 4)).setWidth 64
      else speaker.speakerNumber := by
  rw [putOne_eq]

theorem active_putOne (item : Item) (speaker : SpeakerStuff) :
    (putOne reply item speaker).active = if item.type = caia then true else speaker.active := by
  rw [putOne_eq]

def putAll (reply : Reply) (content : List Item) (speaker : SpeakerStuff) : SpeakerStuff :=
  content.foldl (fun speaker item => putOne reply item speaker) speaker

/-- A field that is set by the items with a tag has what the last one of them sets it to. -/
theorem field_putAll {α : Type*} (field : SpeakerStuff → α) (type : BitVec 32) (value : Item → α)
    (hput : ∀ item speaker, field (putOne reply item speaker) =
      if item.type = type then value item else field speaker)
    (content : List Item) (speaker : SpeakerStuff) :
    field (putAll reply content speaker) =
      (lastOf type content).elim (field speaker) value := by
  induction content generalizing speaker with
  | nil => rfl
  | cons item content ih =>
      rw [putAll, List.foldl_cons, ← putAll, ih, lastOf, hput]
      cases lastOf type content with
      | some last => rfl
      | none => split <;> rfl

theorem lastOf_isSome (type : BitVec 32) (content : List Item) :
    (lastOf type content).isSome = content.any fun item => item.type = type := by
  induction content with
  | nil => rfl
  | cons item content ih =>
      rw [lastOf, List.any_cons, ← ih]
      cases lastOf type content with
      | some last => simp
      | none => by_cases h : item.type = type <;> simp [h]

theorem mem_of_lastOf {type : BitVec 32} {item : Item} (h : lastOf type content = some item) :
    item ∈ content := by
  induction content with
  | nil => cases h
  | cons head content ih =>
      rw [lastOf] at h
      cases hlast : lastOf type content with
      | some last =>
          rw [hlast] at h
          exact List.mem_cons_of_mem _ (ih (hlast.trans h))
      | none =>
          rw [hlast] at h
          split at h <;> cases h
          exact List.mem_cons_self

end Entries

/-! ## Data -/

section Data

variable {reply : Reply} {item : Item}

/-- The place and the size of data inside the body. -/
theorem exists_data (hinside : item.Inside isMdcl reply.body.length)
    (htype : isMdcl item.type = false) :
    ∃ start size : ℕ, item.data = start ∧ item.size.toInt = size ∧
      start + size ≤ reply.body.length ∧ item.bytes reply = (reply.body.drop start).take size ∧
      (item.bytes reply).length = size := by
  obtain ⟨hstart, hextent, hend⟩ := hinside
  rw [Item.extent_of_past htype] at hextent hend
  obtain ⟨size, hsize⟩ := Int.eq_ofNat_of_zero_le hextent
  obtain ⟨start, hdata⟩ := Int.eq_ofNat_of_zero_le (show 0 ≤ item.data by rw [Item.data]; omega)
  have hle : start + size ≤ reply.body.length := by
    rw [Item.data] at hdata
    omega
  have hbytes : item.bytes reply = (reply.body.drop start).take size := by
    rw [Item.bytes, hdata, hsize, Int.toNat_natCast, Int.toNat_natCast]
  refine ⟨start, size, hdata, hsize, hle, hbytes, ?_⟩
  rw [hbytes, List.length_take, List.length_drop]
  omega

theorem firstWord_take {bytes : Bytes} {n : ℕ} (hn : 4 ≤ n) :
    firstWord (bytes.take n) = firstWord bytes := by
  obtain ⟨n, rfl⟩ : ∃ k, n = k + 4 := ⟨n - 4, by omega⟩
  match bytes with
  | [] => rfl
  | [_] => rfl
  | [_, _] => rfl
  | [_, _, _] => rfl
  | _ :: _ :: _ :: _ :: _ => rfl

theorem firstWord_drop {start : ℕ} (hend : start + 4 ≤ reply.body.length) :
    firstWord (reply.body.drop start) = some (reply.word start) := by
  have hsome := (firstWord_isSome_iff (reply.body.drop start)).mpr (by
    rw [List.length_drop]
    omega)
  obtain ⟨v, hv⟩ := Option.isSome_iff_exists.mp hsome
  rw [word_eq hend, hv, Option.getD_some]

theorem volumeValue_eq_iff (hinside : item.Inside isMdcl reply.body.length)
    (htype : isMdcl item.type = false) :
    volumeValue (item.bytes reply) = some (reply.word item.data) ↔ item.size.toInt = 4 := by
  obtain ⟨start, size, hdata, hsize, hle, hbytes, hlength⟩ := exists_data hinside htype
  rw [volumeValue, hlength, hsize]
  by_cases h : size = 4
  · rw [if_pos h, hbytes, firstWord_take h.ge, firstWord_drop (by omega), hdata]
    exact iff_of_true rfl (congrArg _ h)
  · rw [if_neg h]
    exact iff_of_false (fun hnone => nomatch hnone) (by omega)

/-- The number is read from data of the right size. -/
theorem numberValue_eq_iff (hinside : item.Inside isMdcl reply.body.length)
    (htype : isMdcl item.type = false) :
    numberValue (item.bytes reply) = some
      (((reply.word item.data).setWidth 64 <<< 32) + (reply.word (item.data + 4)).setWidth 64) ↔
      item.size.toInt = 8 := by
  obtain ⟨start, size, hdata, hsize, hle, hbytes, hlength⟩ := exists_data hinside htype
  rw [numberValue, hlength, hsize]
  by_cases h : size = 8
  · have hsecond : firstWord ((item.bytes reply).drop 4) = some (reply.word (start + 4)) := by
      rw [hbytes, List.drop_take, firstWord_take (by omega), List.drop_drop]
      exact firstWord_drop (by omega)
    have hfirst : firstWord (item.bytes reply) = some (reply.word start) := by
      rw [hbytes, firstWord_take (by omega), firstWord_drop (by omega)]
    rw [if_pos h, firstDoubleWord, hfirst, hsecond, hdata]
    exact iff_of_true rfl (congrArg _ h)
  · rw [if_neg h]
    exact iff_of_false (fun hnone => Option.some_ne_none _ hnone.symm) (by omega)

/-- Behind the name or in it there is a NUL, unless it is too long for the entry. -/
def Item.NameEnds (reply : Reply) (item : Item) : Prop :=
  127 ≤ item.size.toInt ∨ 0 ∈ item.bytes reply ∨ reply.byte (item.data + item.size.toInt) = 0

theorem map_byte_range {start size : ℕ} (hle : start + size ≤ reply.body.length) :
    (List.range size).map (fun i : ℕ => reply.byte (start + i)) =
      (reply.body.drop start).take size := by
  refine List.ext_getElem ?_ fun i hi hi' => ?_
  · rw [List.length_map, List.length_range, List.length_take, List.length_drop]
    omega
  · rw [List.length_map, List.length_range] at hi
    rw [List.getElem_map, List.getElem_range, List.getElem_take, List.getElem_drop, Reply.byte,
      if_pos (by omega)]
    exact contentMemory_of_lt (by omega)

/-- The name is that of the item if the copy stops with it. -/
theorem nameValue_eq_iff (hinside : item.Inside isMdcl reply.body.length)
    (htype : isMdcl item.type = false) :
    nameValue (item.bytes reply) =
      some (cString ((List.range 127).map fun i : ℕ => reply.byte (item.data + i))) ↔
      item.NameEnds reply := by
  obtain ⟨start, size, hdata, hsize, hle, hbytes, hlength⟩ := exists_data hinside htype
  rw [nameValue, Item.NameEnds, Option.some_inj, hsize, hdata]
  by_cases hlong : 127 ≤ size
  · have hcopy : (item.bytes reply).take 127 =
        (List.range 127).map fun i : ℕ => reply.byte (start + i) := by
      rw [map_byte_range (by omega), hbytes, List.take_take, Nat.min_eq_left hlong]
    rw [hcopy]
    exact iff_of_true rfl (.inl (by omega))
  · have hcopy : ((List.range 127).map fun i : ℕ => reply.byte (start + i)) =
        item.bytes reply ++ reply.byte (start + size) ::
          (List.range (126 - size)).map fun i : ℕ => reply.byte (start + (size + (i + 1) : ℕ)) := by
      have hsplit : 127 = size + (126 - size + 1) := by omega
      rw [hbytes, ← map_byte_range hle]
      conv_lhs => rw [hsplit]
      rw [List.range_add, List.map_append, List.range_succ_eq_map]
      simp only [List.map_cons, List.map_map, Function.comp_def]
      rfl
    have hall : (item.bytes reply).take 127 = item.bytes reply :=
      List.take_of_length_le (by omega)
    rw [hall, hcopy, eq_comm, cString_append_eq_iff]
    refine ⟨.inr, fun h => h.resolve_left (by omega)⟩

end Data

/-! ## A container and its entry -/

section Containers

variable {reply : Reply} {content : List Item}

/-- The name of a container ends with its item, and the volume and the number have their sizes. -/
structure Legible (reply : Reply) (content : List Item) : Prop where
  name : ∀ item ∈ lastOf minm content, item.NameEnds reply
  number : ∀ item ∈ lastOf msma content, item.size.toInt = 8
  volume : ∀ item ∈ lastOf cmvo content, item.size.toInt = 4

/-- A value is that of the entry exactly if this is so for the last item. -/
theorem lastValue_eq_iff {α : Type*} {type : BitVec 32} {value : Bytes → Option α} {default : α}
    {entry : Item → α} {P : Item → Prop}
    (hvalue : ∀ item ∈ content, value (item.bytes reply) = some (entry item) ↔ P item) :
    lastValue reply type value default content =
      some ((lastOf type content).elim default entry) ↔ ∀ item ∈ lastOf type content, P item := by
  rw [lastValue]
  cases hlast : lastOf type content with
  | none => exact iff_of_true rfl fun item hitem => nomatch hitem
  | some item =>
      refine (hvalue item (mem_of_lastOf hlast)).trans
        ⟨fun h item' hitem => ?_, fun h => h item rfl⟩
      cases hitem
      exact h

theorem holds_putAll_iff (hcontent : ∀ item ∈ content,
      item.Inside isMdcl reply.body.length ∧ isMdcl item.type = false)
    (speaker : SpeakerStuff) :
    (putAll reply content speaker.clear).Holds reply content ↔ Legible reply content := by
  have hname : cString (putAll reply content speaker.clear).name =
      (lastOf minm content).elim [] fun item =>
        cString ((List.range 127).map fun i : ℕ => reply.byte (item.data + i)) := by
    have hempty : cString speaker.clear.name = [] := by
      rw [SpeakerStuff.clear]
      dsimp only
      cases speaker.name <;> rfl
    rw [← hempty]
    exact field_putAll (fun speaker => cString speaker.name) minm _ name_putOne content _
  have hnumber := field_putAll SpeakerStuff.speakerNumber msma _ (@speakerNumber_putOne reply)
    content speaker.clear
  have hvolume := field_putAll SpeakerStuff.volume cmvo _ (@volume_putOne reply) content
    speaker.clear
  have hactive := field_putAll SpeakerStuff.active caia _ (@active_putOne reply) content
    speaker.clear
  have hnameIff := @lastValue_eq_iff reply content _ minm nameValue [] _ _
    fun item hitem => nameValue_eq_iff (hcontent item hitem).1 (hcontent item hitem).2
  have hnumberIff := @lastValue_eq_iff reply content _ msma numberValue 0 _ _
    fun item hitem => numberValue_eq_iff (hcontent item hitem).1 (hcontent item hitem).2
  have hvolumeIff := @lastValue_eq_iff reply content _ cmvo volumeValue 0 _ _
    fun item hitem => volumeValue_eq_iff (hcontent item hitem).1 (hcontent item hitem).2
  constructor
  · rintro ⟨name, number, -, volume⟩
    refine ⟨hnameIff.mp ?_, hnumberIff.mp ?_, hvolumeIff.mp ?_⟩
    · rw [name, hname]
    · rw [number, hnumber]
      rfl
    · rw [volume, hvolume]
      rfl
  · rintro ⟨name, number, volume⟩
    refine ⟨?_, ?_, ?_, ?_⟩
    · rw [hname, hnameIff.mpr name]
    · rw [hnumber, hnumberIff.mpr number]
      rfl
    · rw [hactive, ← lastOf_isSome]
      cases lastOf caia content <;> rfl
    · rw [hvolume, hvolumeIff.mpr volume]
      rfl

end Containers

/-! ## All items -/

section Items

variable {reply : Reply} {max : ℕ} {items : List Item}

/-- The array after some items, from an index on: the items before the first container go to the
entry at the index, and those of each container to an entry of their own. -/
structure Speakers.After (reply : Reply) (items : List Item) (before after : Speakers) : Prop where
  index : after.speakerIndex = before.speakerIndex + (containersOf items).length
  frame : ∀ j < before.speakerIndex, after.speakerInfo j = before.speakerInfo j
  prelude : after.speakerInfo before.speakerIndex =
    putAll reply (preludeOf items) (before.speakerInfo before.speakerIndex)
  entries : ∀ (i : ℕ) content, (containersOf items)[i]? = some content →
    after.speakerInfo (before.speakerIndex + 1 + i) =
      putAll reply content (before.speakerInfo (before.speakerIndex + 1 + i)).clear
  written : ∀ j, j ∈ after.written ↔ j ∈ before.written ∨
    (j = before.speakerIndex ∧ ∃ item ∈ preludeOf items, (putItem reply item).isSome) ∨
    (before.speakerIndex < j ∧ j ≤ before.speakerIndex + (containersOf items).length)

theorem preludeOf_cons_past {item : Item} (h : isMdcl item.type = false) :
    preludeOf (item :: items) = item :: preludeOf items := by
  rw [preludeOf, List.takeWhile_cons_of_pos (by rw [h]; rfl), preludeOf]

theorem containersOf_cons_past {item : Item} (h : isMdcl item.type = false) :
    containersOf (item :: items) = containersOf items := by
  rw [containersOf, h, if_neg Bool.false_ne_true]

theorem preludeOf_cons_into {item : Item} (h : isMdcl item.type = true) :
    preludeOf (item :: items) = [] := by
  rw [preludeOf, List.takeWhile_cons_of_neg (by rw [h]; exact Bool.false_ne_true)]

theorem containersOf_cons_into {item : Item} (h : isMdcl item.type = true) :
    containersOf (item :: items) = preludeOf items :: containersOf items := by
  rw [containersOf, h, if_pos rfl]

/-- What an item that is not a container does to the entry at the index. -/
theorem visitSpeakers_past (speakers : Speakers) {item : Item} (h : isMdcl item.type = false) :
    ∃ after, visitSpeakers max reply speakers item = .past after ∧
      after.speakerIndex = speakers.speakerIndex ∧
      after.speakerInfo = Function.update speakers.speakerInfo speakers.speakerIndex
        (putOne reply item (speakers.speakerInfo speakers.speakerIndex)) ∧
      ∀ j, j ∈ after.written ↔
        j ∈ speakers.written ∨ (j = speakers.speakerIndex ∧ (putItem reply item).isSome) := by
  rw [visitSpeakers, if_neg (by simpa [isMdcl] using h), putOne]
  cases hput : putItem reply item with
  | none =>
      refine ⟨speakers, rfl, rfl, (Function.update_eq_self _ _).symm, fun j => ?_⟩
      exact ⟨.inl, fun hj => hj.resolve_right fun hj => absurd hj.2 Bool.false_ne_true⟩
  | some put =>
      refine ⟨speakers.write put, rfl, rfl, rfl, fun j => ?_⟩
      rw [Speakers.write, List.mem_append, List.mem_singleton]
      exact or_congr_right ⟨fun hj => ⟨hj, rfl⟩, And.left⟩

/-- What a container does that there is an entry for. -/
theorem visitSpeakers_into {speakers : Speakers} {item : Item} (h : isMdcl item.type = true)
    (hroom : speakers.speakerIndex + 1 < max) :
    ∃ after, visitSpeakers max reply speakers item = .into after ∧
      after.speakerIndex = speakers.speakerIndex + 1 ∧
      after.speakerInfo = Function.update speakers.speakerInfo (speakers.speakerIndex + 1)
        (speakers.speakerInfo (speakers.speakerIndex + 1)).clear ∧
      ∀ j, j ∈ after.written ↔ j ∈ speakers.written ∨ j = speakers.speakerIndex + 1 := by
  rw [visitSpeakers, if_pos (by simpa [isMdcl] using h)]
  dsimp only
  rw [if_neg (by omega)]
  refine ⟨_, rfl, rfl, rfl, fun j => ?_⟩
  rw [Speakers.write, List.mem_append, List.mem_singleton]

theorem Speakers.after_nil (speakers : Speakers) : speakers.After reply [] speakers := by
  refine ⟨(add_zero _).symm, fun _ _ => rfl, rfl, fun i content h => (nomatch h), fun j => ?_⟩
  refine ⟨.inl, ?_⟩
  rintro (h | ⟨-, item, hitem, -⟩ | ⟨hlt, hle⟩)
  · exact h
  · cases hitem
  · rw [containersOf, List.length_nil, Nat.cast_zero] at hle
    omega

variable {before mid after : Speakers} {item : Item}

/-- An item that is not a container comes before the others. -/
theorem Speakers.After.past (h : mid.After reply items after) (htype : isMdcl item.type = false)
    (hindex : mid.speakerIndex = before.speakerIndex)
    (hinfo : mid.speakerInfo = Function.update before.speakerInfo before.speakerIndex
      (putOne reply item (before.speakerInfo before.speakerIndex)))
    (hwritten : ∀ j, j ∈ mid.written ↔
      j ∈ before.written ∨ (j = before.speakerIndex ∧ (putItem reply item).isSome)) :
    before.After reply (item :: items) after := by
  obtain ⟨index, frame, prelude, entries, written⟩ := h
  rw [hindex, hinfo] at frame prelude entries
  rw [hindex] at index written
  refine ⟨?_, ?_, ?_, ?_, ?_⟩
  · rw [containersOf_cons_past htype, index]
  · intro j hj
    rw [frame j hj, Function.update_of_ne hj.ne]
  · rw [preludeOf_cons_past htype, prelude, Function.update_self]
    rfl
  · intro i content hget
    rw [containersOf_cons_past htype] at hget
    rw [entries i content hget, Function.update_of_ne (by omega)]
  · intro j
    rw [containersOf_cons_past htype, preludeOf_cons_past htype, written, hwritten,
      List.exists_mem_cons_iff, and_or_left, or_assoc, or_assoc]

/-- A container comes before the others, and they go to the next entries. -/
theorem Speakers.After.into (h : mid.After reply items after) (htype : isMdcl item.type = true)
    (hindex : mid.speakerIndex = before.speakerIndex + 1)
    (hinfo : mid.speakerInfo = Function.update before.speakerInfo (before.speakerIndex + 1)
      (before.speakerInfo (before.speakerIndex + 1)).clear)
    (hwritten : ∀ j, j ∈ mid.written ↔ j ∈ before.written ∨ j = before.speakerIndex + 1) :
    before.After reply (item :: items) after := by
  obtain ⟨index, frame, prelude, entries, written⟩ := h
  rw [hindex, hinfo] at frame prelude entries
  rw [hindex] at index written
  refine ⟨?_, ?_, ?_, ?_, ?_⟩
  · rw [containersOf_cons_into htype, index, List.length_cons]
    push_cast
    ring
  · intro j hj
    rw [frame j (by omega), Function.update_of_ne (by omega)]
  · rw [preludeOf_cons_into htype, frame _ (by omega), Function.update_of_ne (by omega)]
    rfl
  · intro i content hget
    rw [containersOf_cons_into htype] at hget
    cases i with
    | zero =>
        cases hget
        rw [Nat.cast_zero, add_zero, prelude, Function.update_self]
    | succ i =>
        have hplace : before.speakerIndex + 1 + ((i + 1 : ℕ) : ℤ) =
            before.speakerIndex + 1 + 1 + i := by
          push_cast
          ring
        rw [hplace, entries i content hget, Function.update_of_ne (by omega)]
  · intro j
    rw [containersOf_cons_into htype, preludeOf_cons_into htype, written, hwritten,
      List.length_cons]
    push_cast
    constructor
    · rintro ((h | h) | ⟨h, -⟩ | h)
      · exact .inl h
      · exact .inr (.inr (by omega))
      · exact .inr (.inr (by omega))
      · exact .inr (.inr (by omega))
    · rintro (h | ⟨-, item, hitem, -⟩ | h)
      · exact .inl (.inl h)
      · cases hitem
      · by_cases hj : j = before.speakerIndex + 1
        · exact .inl (.inr hj)
        · exact .inr (.inr (by omega))

theorem visitAll_after (before : Speakers)
    (hroom : before.speakerIndex + (containersOf items).length < max) :
    before.After reply items (visitAll (visitSpeakers max reply) before items) := by
  induction items generalizing before with
  | nil => exact before.after_nil
  | cons item items ih =>
      rw [visitAll, List.foldl_cons, ← visitAll]
      cases htype : isMdcl item.type with
      | false =>
          obtain ⟨mid, hvisit, hindex, hinfo, hwritten⟩ :=
            @visitSpeakers_past reply max before item htype
          rw [containersOf_cons_past htype] at hroom
          rw [hvisit, Visit.state]
          exact (ih mid (by rw [hindex]; exact hroom)).past htype hindex hinfo hwritten
      | true =>
          rw [containersOf_cons_into htype, List.length_cons] at hroom
          push_cast at hroom
          obtain ⟨mid, hvisit, hindex, hinfo, hwritten⟩ :=
            @visitSpeakers_into reply max before item htype (by omega)
          rw [hvisit, Visit.state]
          exact (ih mid (by rw [hindex]; omega)).into htype hindex hinfo hwritten

theorem countP_eq_length_containersOf (items : List Item) :
    items.countP (fun item => isMdcl item.type) = (containersOf items).length := by
  induction items with
  | nil => rfl
  | cons item items ih =>
      cases htype : isMdcl item.type with
      | false =>
          rw [List.countP_cons, ih, containersOf_cons_past htype, htype,
            if_neg Bool.false_ne_true, Nat.add_zero]
      | true =>
          rw [List.countP_cons, ih, containersOf_cons_into htype, htype, if_pos rfl,
            List.length_cons]

theorem mem_of_mem_containersOf {content : List Item} (h : content ∈ containersOf items)
    {item : Item} (hitem : item ∈ content) : item ∈ items ∧ isMdcl item.type = false := by
  induction items with
  | nil => cases h
  | cons head items ih =>
      cases htype : isMdcl head.type with
      | false =>
          rw [containersOf_cons_past htype] at h
          exact ⟨List.mem_cons_of_mem _ (ih h).1, (ih h).2⟩
      | true =>
          rw [containersOf_cons_into htype] at h
          rcases List.mem_cons.mp h with rfl | h
          · exact ⟨List.mem_cons_of_mem _ ((List.takeWhile_sublist _).subset hitem),
              by simpa using List.all_eq_true.mp List.all_takeWhile item hitem⟩
          · exact ⟨List.mem_cons_of_mem _ (ih h).1, (ih h).2⟩

end Items

/-! ## The function -/

section Function

variable {max : ℕ} {items : List Item}

/-- The items of a reply that is fine are inside it, as far as the code looks at them. -/
def Response.ItemsInside (response : Response) (max : ℕ) (items : List Item) : Prop :=
  response.code = 200 → ∀ reply ∈ response.serverReply, 8 ≤ reply.body.length →
    4 + (itemAt 0 reply.body).size.toInt ≤ intMax ∧
    ((itemAt 0 reply.body).type = casp → WholeItems isMdcl max 8 (reply.body.drop 8) items)

/-- There is a list of speakers, not more than there are entries. Nothing is said before the first
one of them, and what is said of each can be read. -/
structure Reply.Lists (reply : Reply) (max : ℕ) (items : List Item) : Prop where
  length : 8 ≤ reply.body.length
  casp : (itemAt 0 reply.body).type = casp
  prelude : ∀ item ∈ preludeOf items, item.type ∉ [minm, cmvo, msma, caia]
  containers : (containersOf items).length ≤ max
  legible : ∀ content ∈ containersOf items, Legible reply content

/-- With a list in the reply, the result is the list. -/
theorem dacpGetSpeakerList_casp (reply : Reply) (hlength : 8 ≤ reply.body.length)
    (hsize : 4 + (itemAt 0 reply.body).size.toInt ≤ intMax)
    (htype : (itemAt 0 reply.body).type = casp)
    (hitems : WholeItems isMdcl max 8 (reply.body.drop 8) items)
    (speakerInfo : ℤ → SpeakerStuff) :
    (∃ turns₀, ∀ turns ≥ turns₀, dacpGetSpeakerList ⟨200, some reply⟩ max speakerInfo turns =
      some (if (containersOf items).length ≤ max then
          ⟨200, some ((containersOf items).length : ℤ),
            visitAll (visitSpeakers max reply) ⟨-1, speakerInfo, []⟩ items, items, 1⟩
        else ⟨413, none, visitAll (visitSpeakers max reply) ⟨-1, speakerInfo, []⟩ items, items,
          0⟩)) ∧
      ∀ item ∈ items, item.Inside isMdcl reply.body.length := by
  obtain ⟨⟨turns, hloop⟩, hinside⟩ := crawlLoop_of_wholeItems (enters_speakers max reply) hitems
    (budget_eq_some.mpr (by push_cast; ring : (⟨-1, speakerInfo, []⟩ : Speakers).speakerIndex + 1 +
      max = max)) hlength
  refine ⟨⟨turns, fun more hmore => ?_⟩, hinside⟩
  simp only [dacpGetSpeakerList, if_pos, Response.crawl]
  rw [crawlReply_eq hlength, if_pos hsize, if_pos htype, crawlLoop_mono hmore hloop,
    Option.map_some, endingOf, countP_eq_length_containersOf]
  by_cases hmax : (containersOf items).length ≤ max
  · have hafter := @visitAll_after reply max items ⟨-1, speakerInfo, []⟩ (by dsimp only; omega)
    have hcount : (-1 : ℤ) + (containersOf items).length + 1 = (containersOf items).length := by
      ring
    rw [if_neg (by omega), if_pos hmax]
    dsimp only
    rw [hafter.index, hcount]
    rfl
  · rw [if_pos (by omega), if_neg hmax]

theorem putItem_isSome_iff (reply : Reply) (item : Item) :
    (putItem reply item).isSome ↔ item.type ∈ [minm, cmvo, msma, caia] := by
  obtain ⟨h, hput⟩ | ⟨h, hput⟩ | ⟨h, hput⟩ | ⟨h, hput⟩ | ⟨h, hput⟩ := putItem_cases reply item <;>
    rw [hput]
  · exact iff_of_true rfl (by rw [h]; decide)
  · exact iff_of_true rfl (by rw [h]; decide)
  · exact iff_of_true rfl (by rw [h]; decide)
  · exact iff_of_true rfl (by rw [h]; decide)
  · exact iff_of_false Bool.false_ne_true h

theorem not_exact_of_absent {response : Response} {list : SpeakerList}
    (hresponse : list.response = 200) (hcount : list.actualSpeakerCount = some (-1)) :
    ¬list.Exact response max items := by
  intro h
  have hlength := hcount.symm.trans (h.count hresponse)
  rw [Option.some_inj] at hlength
  omega

/-- The list that is made of the items is right exactly if it can be read. -/
theorem exact_iff_lists {reply : Reply} (hlength : 8 ≤ reply.body.length)
    (htype : (itemAt 0 reply.body).type = casp)
    (hinside : ∀ item ∈ items, item.Inside isMdcl reply.body.length)
    (hmax : (containersOf items).length ≤ max) (speakerInfo : ℤ → SpeakerStuff) :
    SpeakerList.Exact ⟨200, some reply⟩ max items ⟨200, some ((containersOf items).length : ℤ),
        visitAll (visitSpeakers max reply) ⟨-1, speakerInfo, []⟩ items, items, 1⟩ ↔
      reply.Lists max items := by
  have hafter := @visitAll_after reply max items ⟨-1, speakerInfo, []⟩ (by dsimp only; omega)
  have hentry : ∀ (i : ℕ) content, (containersOf items)[i]? = some content →
      (visitAll (visitSpeakers max reply) ⟨-1, speakerInfo, []⟩ items).speakerInfo i =
        putAll reply content (speakerInfo i).clear := fun i content hget => by
    have hplace : (-1 : ℤ) + 1 + i = i := by ring
    have h := hafter.entries i content hget
    dsimp only at h
    rwa [hplace] at h
  have hcontent : ∀ content ∈ containersOf items, ∀ item ∈ content,
      item.Inside isMdcl reply.body.length ∧ isMdcl item.type = false := fun content hc item hi =>
    ⟨hinside item (mem_of_mem_containersOf hc hi).1, (mem_of_mem_containersOf hc hi).2⟩
  constructor
  · intro h
    refine ⟨hlength, htype, fun item hitem htag => ?_, hmax, fun content hc => ?_⟩
    · have hwritten := (hafter.written (-1)).mpr (.inr (.inl ⟨rfl, item, hitem,
        (putItem_isSome_iff reply item).mpr htag⟩))
      have hnonneg := (h.written _ hwritten).1
      omega
    · obtain ⟨i, hi⟩ := List.mem_iff_getElem?.mp hc
      have hholds := h.entries rfl reply rfl i content hi
      dsimp only at hholds
      rw [hentry i content hi] at hholds
      exact (holds_putAll_iff (hcontent content hc) _).mp hholds
  · rintro ⟨-, -, prelude, -, legible⟩
    refine ⟨fun j hj => ?_, fun _ => rfl, fun _ reply' hreply i content hget => ?_, rfl⟩
    · rcases (hafter.written j).mp hj with hj | ⟨-, item, hitem, hput⟩ | hj
      · cases hj
      · exact absurd ((putItem_isSome_iff reply item).mp hput) (prelude item hitem)
      · dsimp only at hj
        omega
    · cases hreply
      have hc := List.mem_of_getElem? hget
      dsimp only
      rw [hentry i content hget]
      exact (holds_putAll_iff (hcontent content hc) _).mpr (legible content hc)

/-- What `dacp_get_speaker_list` does is right exactly if the server says that there is an error, or
there is a list that can be read. -/
theorem dacpGetSpeakerList_exact_iff (response : Response)
    (hinside : response.ItemsInside max items) (speakerInfo : ℤ → SpeakerStuff) :
    ∃ list, (∃ turns₀, ∀ turns ≥ turns₀,
        dacpGetSpeakerList response max speakerInfo turns = some list) ∧
      (list.Exact response max items ↔
        response.code ≠ 200 ∨ ∃ reply, response.serverReply = some reply ∧
          reply.Lists max items) := by
  obtain ⟨code, serverReply⟩ := response
  by_cases hcode : code = 200
  case neg =>
    refine ⟨⟨code, some (-1), ⟨-1, speakerInfo, []⟩, [], _⟩, ⟨0, fun turns _ => if_neg hcode⟩, ?_⟩
    exact iff_of_true ⟨fun i hi => absurd hi List.not_mem_nil, (absurd · hcode),
      (absurd · hcode), rfl⟩ (.inl hcode)
  subst hcode
  have hok : ∀ {P : Prop}, (200 : ℕ) ≠ 200 ∨ P ↔ P := or_iff_right (absurd rfl)
  rw [hok]
  cases serverReply with
  | none =>
      refine ⟨⟨200, some (-1), ⟨-1, speakerInfo, []⟩, [], _⟩, ⟨0, fun turns _ => rfl⟩, ?_⟩
      exact iff_of_false (not_exact_of_absent rfl rfl) fun ⟨_, h, _⟩ => nomatch h
  | some reply =>
      have hreply : (∃ reply', some reply = some reply' ∧ reply'.Lists max items) ↔
          reply.Lists max items := by
        simp only [Option.some_inj, exists_eq_left']
      dsimp only
      rw [hreply]
      by_cases hlength : 8 ≤ reply.body.length
      case neg =>
        refine ⟨⟨200, some (-1), ⟨-1, speakerInfo, []⟩, [], 1⟩, ⟨0, fun turns _ => ?_⟩, ?_⟩
        · simp only [dacpGetSpeakerList, if_pos, Response.crawl]
          rw [crawlReply_short hlength]
          rfl
        · exact iff_of_false (not_exact_of_absent rfl rfl) fun h => hlength h.length
      obtain ⟨hsize, hitems⟩ := hinside rfl reply rfl hlength
      by_cases htype : (itemAt 0 reply.body).type = casp
      case neg =>
        refine ⟨⟨200, some (-1), ⟨-1, speakerInfo, []⟩, [], 1⟩, ⟨0, fun turns _ => ?_⟩, ?_⟩
        · simp only [dacpGetSpeakerList, if_pos, Response.crawl]
          rw [crawlReply_eq hlength, if_pos hsize, if_neg htype]
          rfl
        · exact iff_of_false (not_exact_of_absent rfl rfl) fun h => htype h.casp
      obtain ⟨hrun, hall⟩ :=
        dacpGetSpeakerList_casp reply hlength hsize htype (hitems htype) speakerInfo
      refine ⟨_, hrun, ?_⟩
      by_cases hmax : (containersOf items).length ≤ max
      · rw [if_pos hmax]
        exact exact_iff_lists hlength htype hall hmax speakerInfo
      · rw [if_neg hmax]
        refine iff_of_false (fun h => ?_) fun h => hmax h.containers
        have hfreed : 0 = 1 := h.freed
        exact absurd hfreed (by decide)

def noSpeakers : ℤ → SpeakerStuff := fun _ => ⟨0, false, 0, List.replicate 128 0⟩

def oneSpeaker : Reply :=
  ⟨htonl casp ++ htonl 20 ++ (htonl mdcl ++ htonl 12 ++ (htonl cmvo ++ htonl 4 ++ htonl 50)),
    fun _ => 0⟩

theorem dacpGetSpeakerList_exact_oneSpeaker :
    ∃ list, (∃ turns₀, ∀ turns ≥ turns₀,
        dacpGetSpeakerList ⟨200, some oneSpeaker⟩ 50 noSpeakers turns = some list) ∧
      list.Exact ⟨200, some oneSpeaker⟩ 50 [⟨8, mdcl, 12⟩, ⟨16, cmvo, 4⟩] := by
  have hwhole : WholeItems isMdcl 50 8 (oneSpeaker.body.drop 8)
      [⟨8, mdcl, 12⟩, ⟨16, cmvo, 4⟩] :=
    .into (by decide) (by decide) (by decide)
      (@WholeItems.past isMdcl 49 16 4 _ [] (by decide) (by decide) (by decide) (by decide)
        (.tail (by decide)))
  obtain ⟨list, hrun, hexact⟩ := dacpGetSpeakerList_exact_iff ⟨200, some oneSpeaker⟩
    (fun _ reply hreply _ => by cases hreply; exact ⟨by decide, fun _ => hwhole⟩) noSpeakers
  refine ⟨list, hrun, hexact.mpr (.inr ⟨oneSpeaker, rfl, by decide, by decide, ?_, by decide, ?_⟩)⟩
  · have hnone : preludeOf [⟨8, mdcl, 12⟩, ⟨16, cmvo, 4⟩] = [] := by decide
    rw [hnone]
    exact fun item hitem => absurd hitem List.not_mem_nil
  · intro content hcontent
    cases List.mem_singleton.mp hcontent
    refine ⟨fun item hitem => ?_, fun item hitem => ?_, fun item hitem => ?_⟩
    · exact nomatch hitem
    · exact nomatch hitem
    · cases hitem
      decide

def twoSpeakers : Reply :=
  ⟨htonl casp ++ htonl 16 ++ (htonl mdcl ++ htonl 0 ++ (htonl mdcl ++ htonl 0)), fun _ => 0⟩

/-- With one entry for two speakers the reply is not freed. -/
theorem dacpGetSpeakerList_twoSpeakers :
    Response.ItemsInside ⟨200, some twoSpeakers⟩ 1 [⟨8, mdcl, 0⟩, ⟨16, mdcl, 0⟩] ∧
    ∃ list, dacpGetSpeakerList ⟨200, some twoSpeakers⟩ 1 noSpeakers 2 = some list ∧
      list.response = 413 ∧ list.freed = 0 ∧
      ¬list.Exact ⟨200, some twoSpeakers⟩ 1 [⟨8, mdcl, 0⟩, ⟨16, mdcl, 0⟩] := by
  have hwhole : WholeItems isMdcl 1 8 (twoSpeakers.body.drop 8) [⟨8, mdcl, 0⟩, ⟨16, mdcl, 0⟩] :=
    .into (by decide) (by decide) (by decide) (.leave (by decide) (by decide) (by decide))
  refine ⟨fun _ reply hreply _ => ?_, ?_⟩
  · cases hreply
    exact ⟨by decide, fun _ => hwhole⟩
  · refine ⟨_, rfl, rfl, rfl, fun h => ?_⟩
    have hfreed : 0 = 1 := h.freed
    exact absurd hfreed (by decide)

end Function

end Dacp

end ShairportSync
