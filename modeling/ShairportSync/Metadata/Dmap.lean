import ShairportSync.Player.Basic

/-!
# DMAP metadata in a SET_PARAMETER body

`handle_set_parameter_metadata` walks through the body of a SET_PARAMETER request from
its ninth byte on. Each item is a tag, a length and that many bytes of data; the offset
is a 32-bit number that is compared with the length of the body at the head of the loop
only. A walk is safe if it comes to an end, and reads and hands over nothing outside the
body. It is safe exactly for the bodies that are a sequence of whole items, and of these it
passes on the items as they are.
-/

namespace ShairportSync

namespace Metadata

open Player (Bytes)

def ntohl (a b c d : BitVec 8) : BitVec 32 :=
  BitVec.ofNat 32 (a.toNat * 2 ^ 24 + b.toNat * 2 ^ 16 + c.toNat * 2 ^ 8 + d.toNat)

def htonl (v : BitVec 32) : Bytes :=
  [BitVec.ofNat 8 (v.toNat / 2 ^ 24), BitVec.ofNat 8 (v.toNat / 2 ^ 16),
    BitVec.ofNat 8 (v.toNat / 2 ^ 8), BitVec.ofNat 8 v.toNat]

/-- One turn of the loop: where it starts, what it reads there, and what it hands over. -/
structure Iteration where
  off : BitVec 32
  itag : BitVec 32
  vl : BitVec 32
deriving DecidableEq

namespace Iteration

def lengthOff (it : Iteration) : BitVec 32 := it.off + 4

/-- The offset of the data that is handed over to `send_metadata`. -/
def dataOff (it : Iteration) : BitVec 32 := it.lengthOff + 4

def next (it : Iteration) : BitVec 32 := it.dataOff + it.vl

/-- The turn reads the tag and the length inside the content, hands over data inside the
content, and advances. -/
structure Inside (cl : ℕ) (it : Iteration) : Prop where
  itag : it.off.toNat + 4 ≤ cl
  length : it.lengthOff.toNat + 4 ≤ cl
  data : it.dataOff.toNat + it.vl.toNat ≤ cl
  advances : it.off < it.next

end Iteration

/-- What is passed to `send_metadata` with the type 'core': the code, the data or NULL, and the
length. -/
structure SentItem where
  code : BitVec 32
  data : Option Bytes
  length : BitVec 32
deriving DecidableEq

def Iteration.sent (memory : ℕ → BitVec 8) (it : Iteration) : SentItem :=
  if it.vl = 0 then ⟨it.itag, none, 0⟩
  else ⟨it.itag, some ((List.range it.vl.toNat).map fun i => memory (it.dataOff.toNat + i)), it.vl⟩

def iterationAt (memory : ℕ → BitVec 8) (off : BitVec 32) : Iteration :=
  let word (off : BitVec 32) : BitVec 32 :=
    ntohl (memory off.toNat) (memory (off.toNat + 1)) (memory (off.toNat + 2))
      (memory (off.toNat + 3))
  { off := off, itag := word off, vl := word (off + 4) }

/-- The turns of the loop from an offset on, if there are at most so many. -/
def iterations (memory : ℕ → BitVec 8) (cl : BitVec 32) : ℕ → BitVec 32 → Option (List Iteration)
  | 0, off => if off < cl then none else some []
  | n + 1, off =>
      if off < cl then
        let it := iterationAt memory off
        (iterations memory cl n it.next).map fun its => it :: its
      else some []

def contentMemory (content : Bytes) (beyond : ℕ → BitVec 8) (i : ℕ) : BitVec 8 :=
  content.getD i (beyond i)

/-- `handle_set_parameter_metadata` on this content, with anything behind it in memory. -/
def handleSetParameterMetadata (content : Bytes) (beyond : ℕ → BitVec 8) (turns : ℕ) :
    Option (List Iteration) :=
  iterations (contentMemory content beyond) (BitVec.ofNat 32 content.length) turns 8

/-- The loop ends, and every turn stays inside the content. -/
def ParsesSafely (content : Bytes) (beyond : ℕ → BitVec 8) : Prop :=
  ∃ turns its, handleSetParameterMetadata content beyond turns = some its ∧
    ∀ it ∈ its, it.Inside content.length

/-! ## Whole items -/

structure DmapItem where
  itag : BitVec 32
  data : Bytes
  length_lt : data.length < 2 ^ 32

def DmapItem.encode (item : DmapItem) : Bytes :=
  htonl item.itag ++ htonl (BitVec.ofNat 32 item.data.length) ++ item.data

/-- The item as it is to be passed on: its tag and its data, or NULL where there is none. -/
def DmapItem.sent (item : DmapItem) : SentItem where
  code := item.itag
  data := if item.data = [] then none else some item.data
  length := BitVec.ofNat 32 item.data.length

/-- Behind its first eight bytes the content is a sequence of whole items. -/
def IsDmap (content : Bytes) : Prop :=
  ∃ items : List DmapItem, content.drop 8 = items.flatMap DmapItem.encode

section Bytes

theorem htonl_ntohl (a b c d : BitVec 8) : htonl (ntohl a b c d) = [a, b, c, d] := by
  have ha := a.isLt
  have hb := b.isLt
  have hc := c.isLt
  have hd := d.isLt
  simp only [htonl, ntohl, BitVec.toNat_ofNat, List.cons.injEq, and_true]
  refine ⟨?_, ?_, ?_, ?_⟩ <;> apply BitVec.eq_of_toNat_eq <;> rw [BitVec.toNat_ofNat] <;> omega

theorem ntohl_bytes (v : BitVec 32) :
    ntohl (BitVec.ofNat 8 (v.toNat / 2 ^ 24)) (BitVec.ofNat 8 (v.toNat / 2 ^ 16))
      (BitVec.ofNat 8 (v.toNat / 2 ^ 8)) (BitVec.ofNat 8 v.toNat) = v := by
  have hv := v.isLt
  apply BitVec.eq_of_toNat_eq
  simp only [ntohl, BitVec.toNat_ofNat]
  omega

@[simp] theorem length_htonl (v : BitVec 32) : (htonl v).length = 4 := rfl

theorem length_encode (item : DmapItem) : item.encode.length = 8 + item.data.length := by
  simp [DmapItem.encode]
  omega

variable {content : Bytes} {beyond : ℕ → BitVec 8}

theorem contentMemory_of_drop {off : ℕ} {bytes rest : Bytes}
    (h : content.drop off = bytes ++ rest) {i : ℕ} (hi : i < bytes.length) :
    contentMemory content beyond (off + i) = bytes[i] := by
  have hget : content[off + i]? = some bytes[i] := by
    rw [← List.getElem?_drop, h, List.getElem?_append_left hi, List.getElem?_eq_getElem hi]
  rw [contentMemory, List.getD_eq_getElem?_getD, hget]
  rfl

theorem contentMemory_of_lt {i : ℕ} (hi : i < content.length) :
    contentMemory content beyond i = content[i] := by
  rw [contentMemory, List.getD_eq_getElem?_getD, List.getElem?_eq_getElem hi]
  rfl

/-- The bytes of a word that is read inside the content. -/
theorem htonl_contentMemory (beyond : ℕ → BitVec 8) {i : ℕ} (hi : i + 4 ≤ content.length) :
    htonl (ntohl (contentMemory content beyond i) (contentMemory content beyond (i + 1))
      (contentMemory content beyond (i + 2)) (contentMemory content beyond (i + 3))) ++
        content.drop (i + 4) = content.drop i := by
  rw [htonl_ntohl, contentMemory_of_lt (by omega), contentMemory_of_lt (by omega),
    contentMemory_of_lt (by omega), contentMemory_of_lt (by omega),
    List.drop_eq_getElem_cons (i := i) (by omega),
    List.drop_eq_getElem_cons (i := i + 1) (by omega),
    List.drop_eq_getElem_cons (i := i + 2) (by omega),
    List.drop_eq_getElem_cons (i := i + 3) (by omega)]
  rfl

end Bytes

/-! ## Walks -/

section Walk

variable {content : Bytes} {beyond : ℕ → BitVec 8} {off : BitVec 32}

theorem toNat_add_four (h : off.toNat + 4 < 2 ^ 32) : (off + 4).toNat = off.toNat + 4 := by
  rw [BitVec.toNat_add]
  exact Nat.mod_eq_of_lt h

/-- At a whole item the turn reads its tag and its length. -/
theorem iterationAt_eq_of_item (beyond : ℕ → BitVec 8) (hlen : content.length < 2 ^ 32)
    {item : DmapItem} {rest : Bytes} (h : content.drop off.toNat = item.encode ++ rest) :
    iterationAt (contentMemory content beyond) off =
      ⟨off, item.itag, BitVec.ofNat 32 item.data.length⟩ := by
  have hsize : content.length = off.toNat + (8 + item.data.length + rest.length) := by
    have hdrop := congrArg List.length h
    rw [List.length_drop, List.length_append, length_encode] at hdrop
    omega
  have hlength : (off + 4).toNat = off.toNat + 4 := toNat_add_four (by omega)
  have hmem : ∀ i, (hi : i < item.encode.length) →
      contentMemory content beyond (off.toNat + i) = item.encode[i] :=
    fun i hi => contentMemory_of_drop h hi
  have hbytes := length_encode item
  have hitag : (iterationAt (contentMemory content beyond) off).itag = item.itag := by
    rw [← ntohl_bytes item.itag]
    have hfirst := hmem 0 (by omega)
    rw [add_zero] at hfirst
    simp only [iterationAt]
    rw [hfirst, hmem 1 (by omega), hmem 2 (by omega), hmem 3 (by omega)]
    rfl
  have hvl : (iterationAt (contentMemory content beyond) off).vl =
      BitVec.ofNat 32 item.data.length := by
    rw [← ntohl_bytes (BitVec.ofNat 32 item.data.length)]
    simp only [iterationAt, hlength, add_assoc, Nat.reduceAdd]
    rw [hmem 4 (by omega), hmem 5 (by omega), hmem 6 (by omega), hmem 7 (by omega)]
    rfl
  rw [← hitag, ← hvl]
  rfl

theorem dataOff_of_item (hlen : content.length < 2 ^ 32) {item : DmapItem} {rest : Bytes}
    (h : content.drop off.toNat = item.encode ++ rest) (itag vl : BitVec 32) :
    (Iteration.mk off itag vl).dataOff.toNat = off.toNat + 8 := by
  have hdrop := congrArg List.length h
  rw [List.length_drop, List.length_append, length_encode] at hdrop
  have hlength : (off + 4).toNat = off.toNat + 4 := toNat_add_four (by omega)
  change (off + 4 + 4).toNat = off.toNat + 8
  rw [toNat_add_four (by omega), hlength]

/-- At a whole item the turn stays inside the content, and ends behind the item. -/
theorem iterationAt_of_item (beyond : ℕ → BitVec 8) (hlen : content.length < 2 ^ 32)
    {item : DmapItem} {rest : Bytes} (h : content.drop off.toNat = item.encode ++ rest) :
    (iterationAt (contentMemory content beyond) off).Inside content.length ∧
      content.drop (iterationAt (contentMemory content beyond) off).next.toNat = rest := by
  have hsize : content.length = off.toNat + (8 + item.data.length + rest.length) := by
    have hdrop := congrArg List.length h
    rw [List.length_drop, List.length_append, length_encode] at hdrop
    omega
  have hlength : (off + 4).toNat = off.toNat + 4 := toNat_add_four (by omega)
  rw [iterationAt_eq_of_item beyond hlen h]
  set it : Iteration := ⟨off, item.itag, BitVec.ofNat 32 item.data.length⟩ with hit
  have hvl : it.vl.toNat = item.data.length := by
    rw [hit, BitVec.toNat_ofNat]
    exact Nat.mod_eq_of_lt item.length_lt
  have hdata : it.dataOff.toNat = off.toNat + 8 := dataOff_of_item hlen h _ _
  have hnext : it.next.toNat = off.toNat + item.encode.length := by
    rw [Iteration.next, BitVec.toNat_add, hdata, hvl, length_encode]
    rw [Nat.mod_eq_of_lt (by omega), add_assoc]
  refine ⟨⟨?_, ?_, ?_, ?_⟩, ?_⟩
  · change off.toNat + 4 ≤ content.length
    omega
  · change (off + 4).toNat + 4 ≤ content.length
    omega
  · omega
  · change off.toNat < _
    rw [hnext, length_encode]
    omega
  · rw [hnext, ← List.drop_drop, h, List.drop_left]

/-- At a whole item the turn passes on the item. -/
theorem sent_iterationAt_of_item (beyond : ℕ → BitVec 8) (hlen : content.length < 2 ^ 32)
    {item : DmapItem} {rest : Bytes} (h : content.drop off.toNat = item.encode ++ rest) :
    (iterationAt (contentMemory content beyond) off).sent (contentMemory content beyond) =
      item.sent := by
  have hvl : (BitVec.ofNat 32 item.data.length).toNat = item.data.length := by
    rw [BitVec.toNat_ofNat]
    exact Nat.mod_eq_of_lt item.length_lt
  rw [iterationAt_eq_of_item beyond hlen h, Iteration.sent, DmapItem.sent]
  dsimp only
  by_cases hempty : item.data = []
  · rw [if_pos (by rw [hempty]; rfl), if_pos hempty, hempty]
    rfl
  · have hne : BitVec.ofNat 32 item.data.length ≠ 0 := by
      intro hzero
      rw [hzero] at hvl
      exact hempty (List.length_eq_zero_iff.mp hvl.symm)
    rw [if_neg hne, if_neg hempty, hvl, dataOff_of_item hlen h]
    have hdata : (List.range item.data.length).map
        (fun i => contentMemory content beyond (off.toNat + 8 + i)) = item.data := by
      refine List.ext_getElem (by simp) fun i hi hi' => ?_
      rw [List.getElem_map, List.getElem_range]
      have hrest : content.drop (off.toNat + 8) = item.data ++ rest := by
        rw [← List.drop_drop, h, DmapItem.encode, List.append_assoc]
        rfl
      exact contentMemory_of_drop hrest hi'
    rw [hdata]

/-- A walk over whole items ends, stays inside, and passes on the items. -/
theorem iterations_of_items (off : BitVec 32) (beyond : ℕ → BitVec 8)
    (hlen : content.length < 2 ^ 32) {items : List DmapItem}
    (h : content.drop off.toNat = items.flatMap DmapItem.encode) :
    ∃ its, iterations (contentMemory content beyond) (BitVec.ofNat 32 content.length)
      items.length off = some its ∧ (∀ it ∈ its, it.Inside content.length) ∧
        its.map (Iteration.sent (contentMemory content beyond)) = items.map DmapItem.sent := by
  have hcl : (BitVec.ofNat 32 content.length).toNat = content.length := by
    rw [BitVec.toNat_ofNat]
    exact Nat.mod_eq_of_lt hlen
  induction items generalizing off with
  | nil =>
      refine ⟨[], ?_, fun it hit => absurd hit List.not_mem_nil, rfl⟩
      have hend : ¬ off < BitVec.ofNat 32 content.length := by
        rw [BitVec.lt_def, hcl]
        exact not_lt.mpr (List.drop_eq_nil_iff.mp h)
      rw [List.length_nil, iterations, if_neg hend]
  | cons item items ih =>
      rw [List.flatMap_cons] at h
      obtain ⟨hinside, hdrop⟩ := iterationAt_of_item beyond hlen h
      obtain ⟨its, hits, hall, hsent⟩ := ih _ hdrop
      refine ⟨iterationAt (contentMemory content beyond) off :: its, ?_, ?_, ?_⟩
      · have hmore : off < BitVec.ofNat 32 content.length := by
          have := hinside.itag
          rw [BitVec.lt_def, hcl]
          change off.toNat + 4 ≤ content.length at this
          omega
        rw [List.length_cons, iterations, if_pos hmore]
        exact congrArg (Option.map _) hits
      · intro it hit
        rcases List.mem_cons.mp hit with rfl | hit
        · exact hinside
        · exact hall it hit
      · rw [List.map_cons, List.map_cons, sent_iterationAt_of_item beyond hlen h, hsent]

/-- A turn that stays inside is at a whole item. -/
theorem item_of_inside (hlen : content.length < 2 ^ 32)
    (h : (iterationAt (contentMemory content beyond) off).Inside content.length) :
    ∃ item : DmapItem, content.drop off.toNat = item.encode ++
      content.drop (iterationAt (contentMemory content beyond) off).next.toNat := by
  obtain ⟨htag, hlength, hdata, -⟩ := h
  set it := iterationAt (contentMemory content beyond) off with hit
  have hoff : it.off.toNat = off.toNat := rfl
  have hlengthOff : it.lengthOff.toNat = off.toNat + 4 := toNat_add_four (by omega)
  have hdataOff : it.dataOff.toNat = off.toNat + 8 := by
    rw [Iteration.dataOff, toNat_add_four (by omega), hlengthOff]
  have hnext : it.next.toNat = off.toNat + 8 + it.vl.toNat := by
    rw [Iteration.next, BitVec.toNat_add, hdataOff]
    exact Nat.mod_eq_of_lt (by omega)
  have hbytes : content.drop off.toNat =
      htonl it.itag ++ htonl it.vl ++ content.drop (off.toNat + 8) := by
    have htag' := htonl_contentMemory beyond htag
    have hlength' := htonl_contentMemory beyond hlength
    have hvl : it.vl = ntohl (contentMemory content beyond it.lengthOff.toNat)
        (contentMemory content beyond (it.lengthOff.toNat + 1))
        (contentMemory content beyond (it.lengthOff.toNat + 2))
        (contentMemory content beyond (it.lengthOff.toNat + 3)) := rfl
    rw [← hvl, hlengthOff] at hlength'
    rw [List.append_assoc, hlength']
    exact htag'.symm
  have hdata' : ((content.drop (off.toNat + 8)).take it.vl.toNat).length = it.vl.toNat := by
    rw [List.length_take, List.length_drop]
    omega
  have hlt : ((content.drop (off.toNat + 8)).take it.vl.toNat).length < 2 ^ 32 := by
    rw [hdata']
    exact it.vl.isLt
  refine ⟨⟨it.itag, (content.drop (off.toNat + 8)).take it.vl.toNat, hlt⟩, ?_⟩
  have hlengthWord : BitVec.ofNat 32 ((content.drop (off.toNat + 8)).take it.vl.toNat).length =
      it.vl := by
    rw [hdata', BitVec.ofNat_toNat, BitVec.setWidth_eq]
  unfold DmapItem.encode
  dsimp only
  have hsplit : (content.drop (off.toNat + 8)).take it.vl.toNat ++
      content.drop (off.toNat + 8 + it.vl.toNat) = content.drop (off.toNat + 8) := by
    rw [← List.drop_drop (i := it.vl.toNat), List.take_append_drop]
  rw [hlengthWord, hbytes, hnext, List.append_assoc _ (List.take _ _), hsplit]

/-- A walk that stays inside goes over whole items. -/
theorem items_of_inside (hlen : content.length < 2 ^ 32) {turns : ℕ} {its : List Iteration}
    (h : iterations (contentMemory content beyond) (BitVec.ofNat 32 content.length) turns off =
      some its) (hinside : ∀ it ∈ its, it.Inside content.length) :
    ∃ items : List DmapItem, content.drop off.toNat = items.flatMap DmapItem.encode := by
  have hend : ∀ {off : BitVec 32}, ¬ off < BitVec.ofNat 32 content.length →
      content.drop off.toNat = [].flatMap DmapItem.encode := by
    intro off hoff
    rw [BitVec.lt_def, BitVec.toNat_ofNat, Nat.mod_eq_of_lt hlen, not_lt] at hoff
    rw [List.drop_eq_nil_iff.mpr hoff, List.flatMap_nil]
  induction turns generalizing off its with
  | zero =>
      rw [iterations] at h
      split_ifs at h with hoff
      exact ⟨[], hend hoff⟩
  | succ n ih =>
      rw [iterations] at h
      split_ifs at h with hoff
      · obtain ⟨its', hits', rfl⟩ := Option.map_eq_some_iff.mp h
        obtain ⟨items, hitems⟩ := ih hits' fun it hit => hinside it (List.mem_cons_of_mem _ hit)
        obtain ⟨item, hitem⟩ := item_of_inside hlen (hinside _ List.mem_cons_self)
        exact ⟨item :: items, by rw [hitem, hitems, List.flatMap_cons]⟩
      · exact ⟨[], hend hoff⟩

end Walk

/-- The walk ends and stays inside the content exactly if the content is a sequence of whole
items behind its first eight bytes, whatever else is in memory. -/
theorem parsesSafely_iff (content : Bytes) (beyond : ℕ → BitVec 8)
    (hlen : content.length < 2 ^ 32) : ParsesSafely content beyond ↔ IsDmap content := by
  constructor
  · rintro ⟨turns, its, hits, hinside⟩
    exact items_of_inside hlen hits hinside
  · rintro ⟨items, hitems⟩
    obtain ⟨its, hits, hinside, -⟩ := iterations_of_items 8 beyond hlen hitems
    exact ⟨items.length, its, hits, hinside⟩

/-- One item, of a song title of two bytes. -/
theorem parsesSafely_of_one_item :
    ParsesSafely (List.replicate 8 0 ++ htonl 0x6D696E6D ++ htonl 2 ++ [72, 105]) fun _ => 0 :=
  (parsesSafely_iff _ _ (by decide)).mpr ⟨[⟨0x6D696E6D, [72, 105], by decide⟩], rfl⟩

/-- An item that says that its data has -8 bytes: the walk never leaves its tag. -/
theorem not_parsesSafely_of_wrapping_length :
    ¬ ∀ (content : Bytes) (beyond : ℕ → BitVec 8), content.length < 2 ^ 32 →
      ParsesSafely content beyond := by
  intro h
  obtain ⟨turns, its, hits, -⟩ :=
    h (List.replicate 8 0 ++ htonl 0x6D696E6D ++ htonl (-8)) (fun _ => 0) (by decide)
  have hstays : (iterationAt (contentMemory
      (List.replicate 8 0 ++ htonl 0x6D696E6D ++ htonl (-8)) fun _ => 0) 8).next = 8 := by
    decide
  unfold handleSetParameterMetadata at hits
  induction turns generalizing its with
  | zero => exact absurd hits.symm (Option.some_ne_none its)
  | succ n ih =>
      rw [iterations, if_pos (by decide)] at hits
      obtain ⟨its', hits', -⟩ := Option.map_eq_some_iff.mp hits
      rw [hstays] at hits'
      exact ih its' hits'

/-- The items of a body that is put together from a header and encoded items are passed on one by
one, with their tags and their data. -/
theorem handleSetParameterMetadata_sends (header : Bytes) (items : List DmapItem)
    (beyond : ℕ → BitVec 8) (hheader : header.length = 8)
    (hlen : (header ++ items.flatMap DmapItem.encode).length < 2 ^ 31) :
    ∃ its, handleSetParameterMetadata (header ++ items.flatMap DmapItem.encode) beyond
        items.length = some its ∧
      its.map (Iteration.sent (contentMemory (header ++ items.flatMap DmapItem.encode) beyond)) =
        items.map DmapItem.sent := by
  have hdrop : (header ++ items.flatMap DmapItem.encode).drop (8 : BitVec 32).toNat =
      items.flatMap DmapItem.encode := List.drop_left' hheader
  obtain ⟨its, hits, -, hsent⟩ := iterations_of_items 8 beyond (hlen.trans (by decide)) hdrop
  exact ⟨its, hits, hsent⟩

/-- A title, and a comment without data. -/
theorem handleSetParameterMetadata_sends_two :
    ∃ its, handleSetParameterMetadata (List.replicate 8 0 ++ [⟨0x6D696E6D, [72, 105], by decide⟩,
        ⟨0x6173636D, [], by decide⟩].flatMap DmapItem.encode) (fun _ => 0) 2 = some its ∧
      its.map (Iteration.sent (contentMemory (List.replicate 8 0 ++
        [⟨0x6D696E6D, [72, 105], by decide⟩, ⟨0x6173636D, [], by decide⟩].flatMap
          DmapItem.encode) fun _ => 0)) =
        [⟨0x6D696E6D, some [72, 105], 2⟩, ⟨0x6173636D, none, 0⟩] :=
  handleSetParameterMetadata_sends (List.replicate 8 0)
    [⟨0x6D696E6D, [72, 105], by decide⟩, ⟨0x6173636D, [], by decide⟩] (fun _ => 0) rfl (by decide)

end Metadata

end ShairportSync
