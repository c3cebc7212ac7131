import ShairportSync.Metadata.ItemReads

/-!
# Crawling through a DACP reply

The body of a reply is a container: a tag, a size, and items that have a tag, a size and that many
bytes of data each. Three loops crawl through it with `dacp_tlv_crawl`. They differ in what they do
with an item, and one of them also drops down into the containers that it meets.

The loops stop when less than eight bytes are left, and look at no size. A crawl comes to an end
and stays inside the body exactly if the items are whole.
-/

namespace ShairportSync

namespace Dacp

open Player (Bytes)
open Metadata

/-! ## The code -/

def intMax : ℤ := 2 ^ 31 - 1

/-- The body of a reply, and what is in memory before and behind it. -/
structure Reply where
  body : Bytes
  beyond : ℤ → BitVec 8

def Reply.byte (reply : Reply) (i : ℤ) : BitVec 8 :=
  if 0 ≤ i then contentMemory reply.body (fun j => reply.beyond j) i.toNat else reply.beyond i

def Reply.word (reply : Reply) (i : ℤ) : BitVec 32 :=
  ntohl (reply.byte i) (reply.byte (i + 1)) (reply.byte (i + 2)) (reply.byte (i + 3))

/-- Where an item is, its tag, and its size as it is declared. -/
structure Item where
  start : ℤ
  type : BitVec 32
  size : BitVec 32
deriving DecidableEq

/-- `sp - item_size` behind the item -/
def Item.data (item : Item) : ℤ := item.start + 8

/-- `dacp_tlv_crawl`, with the item and the new pointer, unless the sum `4 + *length` overflows. -/
def dacpTlvCrawl (reply : Reply) (sp : ℤ) : Option (Item × ℤ) :=
  let length := reply.word (sp + 4)
  if 4 + length.toInt ≤ intMax then
    some (⟨sp, reply.word sp, length⟩, sp + 4 + (4 + length.toInt))
  else none

inductive Visit (σ : Type*) where
  /-- It goes on behind the item. -/
  | past (s : σ)
  /-- "drop down into the dictionary -- don't skip over it" -/
  | into (s : σ)
  /-- It returns. -/
  | leave (s : σ)

inductive Ending where
  | finished
  | left
  /-- There is no container of the right kind. -/
  | absent
deriving DecidableEq

/-- The items in their order, and what has been made of them. -/
structure Crawl (σ : Type*) where
  items : List Item
  state : σ
  ending : Ending

def Crawl.cons {σ : Type*} (item : Item) (crawl : Crawl σ) : Crawl σ :=
  { crawl with items := item :: crawl.items }

section Code

variable {σ : Type*} (reply : Reply) (visit : σ → Item → Visit σ)

/-- The loop `while (le >= 8)`, if it ends in so many turns. -/
def crawlLoop : ℕ → ℤ → ℤ → σ → Option (Crawl σ)
  | 0, _, _, _ => none
  | turns + 1, sp, le, s =>
      if le < 8 then some ⟨[], s, .finished⟩
      else
        (dacpTlvCrawl reply sp).bind fun (item, sp) =>
          match visit s item with
          | .past s =>
              if item.size.toInt + 8 ≤ intMax then
                (crawlLoop turns sp (le - (item.size.toInt + 8)) s).map (Crawl.cons item)
              else none
          | .into s =>
              (crawlLoop turns (sp - item.size.toInt) (le - 8) s).map (Crawl.cons item)
          | .leave s => some ⟨[item], s, .left⟩

def crawlReply (container : BitVec 32) (turns : ℕ) (s : σ) : Option (Crawl σ) :=
  if 8 ≤ reply.body.length then
    (dacpTlvCrawl reply 0).bind fun (item, sp) =>
      if item.type = container then
        crawlLoop reply visit turns (sp - item.size.toInt) (reply.body.length - 8) s
      else some ⟨[], s, .absent⟩
  else some ⟨[], s, .absent⟩

end Code

/-! ## Whole items -/

section Whole

variable (enters : BitVec 32 → Bool)

def Item.extent (item : Item) : ℤ := if enters item.type then 0 else item.size.toInt

/-- The tag, the size and the data are in the body. -/
structure Item.Inside (le : ℕ) (item : Item) : Prop where
  start_nonneg : 0 ≤ item.start
  extent_nonneg : 0 ≤ item.extent enters
  end_le : item.start + 8 + item.extent enters ≤ le

def itemAt (start : ℕ) (bytes : Bytes) : Item :=
  ⟨start, (firstWord bytes).getD 0, (firstWord (bytes.drop 4)).getD 0⟩

/-- The bytes are these items, one after the other, and less than eight bytes. Only so many
containers can be opened, and whatever follows one more of them. -/
inductive WholeItems : ℕ → ℕ → Bytes → List Item → Prop
  | tail {n start : ℕ} {bytes : Bytes} (short : bytes.length < 8) :
      WholeItems n start bytes []
  | past {n start size : ℕ} {bytes : Bytes} {items : List Item}
      (enters_eq : enters (itemAt start bytes).type = false)
      (size_eq : (itemAt start bytes).size.toInt = size) (fits : 8 + size ≤ bytes.length)
      (size_le : (size : ℤ) + 8 ≤ intMax)
      (rest : WholeItems n (start + 8 + size) (bytes.drop (8 + size)) items) :
      WholeItems n start bytes (itemAt start bytes :: items)
  | into {n start : ℕ} {bytes : Bytes} {items : List Item}
      (enters_eq : enters (itemAt start bytes).type = true) (fits : 8 ≤ bytes.length)
      (size_le : 4 + (itemAt start bytes).size.toInt ≤ intMax)
      (rest : WholeItems n (start + 8) (bytes.drop 8) items) :
      WholeItems (n + 1) start bytes (itemAt start bytes :: items)
  | leave {start : ℕ} {bytes : Bytes}
      (enters_eq : enters (itemAt start bytes).type = true) (fits : 8 ≤ bytes.length)
      (size_le : 4 + (itemAt start bytes).size.toInt ≤ intMax) :
      WholeItems 0 start bytes [itemAt start bytes]

end Whole

/-! ## Reads inside the body -/

section Reads

variable {reply : Reply} {start : ℕ}

theorem word_eq (hend : start + 4 ≤ reply.body.length) :
    reply.word start = (firstWord (reply.body.drop start)).getD 0 := by
  have hbyte : ∀ (j : ℤ) (i : ℕ) (hi : i < reply.body.length), j = i →
      reply.byte j = reply.body[i] := fun j i hi hj => by
    rw [Reply.byte, if_pos (by omega), hj]
    exact contentMemory_of_lt hi
  rw [Reply.word, hbyte start start (by omega) rfl, hbyte (start + 1) (start + 1) (by omega) rfl,
    hbyte (start + 2) (start + 2) (by omega) rfl, hbyte (start + 3) (start + 3) (by omega) rfl,
    List.drop_eq_getElem_cons (i := start) (by omega),
    List.drop_eq_getElem_cons (i := start + 1) (by omega),
    List.drop_eq_getElem_cons (i := start + 2) (by omega),
    List.drop_eq_getElem_cons (i := start + 3) (by omega)]
  rfl

/-- Where there are eight bytes more, the item there is read. -/
theorem dacpTlvCrawl_eq (hend : start + 8 ≤ reply.body.length) :
    dacpTlvCrawl reply start =
      if 4 + (itemAt start (reply.body.drop start)).size.toInt ≤ intMax then
        some (itemAt start (reply.body.drop start),
          start + 8 + (itemAt start (reply.body.drop start)).size.toInt)
      else none := by
  have htype : reply.word start = (itemAt start (reply.body.drop start)).type := word_eq (by omega)
  have hsize : reply.word (start + 4) = (itemAt start (reply.body.drop start)).size := by
    have hword := @word_eq reply (start + 4) (by omega)
    push_cast at hword
    rw [hword, itemAt, List.drop_drop]
    rfl
  have hnext : ∀ size : ℤ, (start : ℤ) + 4 + (4 + size) = start + 8 + size := fun size => by ring
  rw [dacpTlvCrawl, htype, hsize, hnext]
  rfl

end Reads

/-! ## Crawls -/

section Crawls

variable {σ : Type*} {reply : Reply} {visit : σ → Item → Visit σ} {enters : BitVec 32 → Bool}
  {budget : σ → Option ℕ} {n start : ℕ} {s : σ} {items : List Item}

theorem Item.extent_of_past {item : Item} (h : enters item.type = false) :
    item.extent enters = item.size.toInt := by
  rw [Item.extent, h, if_neg Bool.false_ne_true]

theorem Item.extent_of_enters {item : Item} (h : enters item.type = true) :
    item.extent enters = 0 := by
  rw [Item.extent, h, if_pos rfl]

theorem past_eq (length start size : ℕ) :
    (start : ℤ) + 8 + size = (start + 8 + size : ℕ) ∧
      (length : ℤ) - start - (size + 8) = length - (start + 8 + size : ℕ) := by
  push_cast
  exact ⟨rfl, by ring⟩

theorem into_eq (length start : ℕ) (size : ℤ) :
    (start : ℤ) + 8 + size - size = (start + 8 : ℕ) ∧
      (length : ℤ) - start - 8 = length - (start + 8 : ℕ) := by
  push_cast
  exact ⟨by ring, by ring⟩

/-- A loop that drops down into the containers, as long as its budget lasts, and passes over the
other items. Not all states need to have a budget. -/
structure Enters (visit : σ → Item → Visit σ) (enters : BitVec 32 → Bool)
    (budget : σ → Option ℕ) : Prop where
  past {s : σ} {item : Item} (h : enters item.type = false) :
    ∃ s', visit s item = .past s' ∧ budget s' = budget s
  into {s : σ} {item : Item} {n : ℕ} (h : enters item.type = true)
    (hbudget : budget s = some (n + 1)) : ∃ s', visit s item = .into s' ∧ budget s' = some n
  leave {s : σ} {item : Item} (h : enters item.type = true) (hbudget : budget s = some 0) :
    ∃ s', visit s item = .leave s'

def Visit.state : Visit σ → σ
  | .past s => s
  | .into s => s
  | .leave s => s

def visitAll (visit : σ → Item → Visit σ) (s : σ) (items : List Item) : σ :=
  items.foldl (fun s item => (visit s item).state) s

def endingOf (enters : BitVec 32 → Bool) (n : ℕ) (items : List Item) : Ending :=
  if n < items.countP (fun item => enters item.type) then .left else .finished

theorem endingOf_cons_past {item : Item} (h : enters item.type = false) :
    endingOf enters n (item :: items) = endingOf enters n items := by
  rw [endingOf, List.countP_cons, h, if_neg Bool.false_ne_true, Nat.add_zero, endingOf]

theorem endingOf_cons_into {item : Item} (h : enters item.type = true) :
    endingOf enters (n + 1) (item :: items) = endingOf enters n items := by
  rw [endingOf, List.countP_cons, h, if_pos rfl]
  simp only [Nat.add_lt_add_iff_right]
  rfl

theorem endingOf_cons_leave {item : Item} (h : enters item.type = true) :
    endingOf enters 0 (item :: items) = .left := by
  rw [endingOf, List.countP_cons, h, if_pos rfl, if_pos (Nat.succ_pos _)]

theorem itemAt_inside {bytes : Bytes} (hend : start + 8 ≤ reply.body.length)
    (hnonneg : 0 ≤ (itemAt start bytes).extent enters)
    (hle : (itemAt start bytes).extent enters ≤ (reply.body.length - start - 8 : ℕ)) :
    (itemAt start bytes).Inside enters reply.body.length := by
  refine ⟨Int.natCast_nonneg _, hnonneg, ?_⟩
  change (start : ℤ) + 8 + _ ≤ _
  omega

theorem crawlLoop_mono {turns more : ℕ} (hmore : turns ≤ more) {sp le : ℤ} {crawl : Crawl σ}
    (hloop : crawlLoop reply visit turns sp le s = some crawl) :
    crawlLoop reply visit more sp le s = some crawl := by
  induction turns generalizing more sp le s crawl with
  | zero => cases hloop
  | succ turns ih =>
      obtain ⟨more, rfl⟩ : ∃ k, more = k + 1 := ⟨more - 1, by omega⟩
      have hle : turns ≤ more := Nat.le_of_succ_le_succ hmore
      rw [crawlLoop] at hloop ⊢
      split at hloop
      · next hshort => rwa [if_pos hshort]
      · next hroom =>
        rw [if_neg hroom]
        obtain ⟨⟨item, next⟩, hitem, hvisit⟩ := Option.bind_eq_some_iff.mp hloop
        rw [hitem, Option.bind_some]
        dsimp only at hvisit ⊢
        cases hs : visit s item with
        | past s' =>
            rw [hs] at hvisit
            dsimp only at hvisit ⊢
            split at hvisit
            · next hsize =>
              obtain ⟨rest, hrest, rfl⟩ := Option.map_eq_some_iff.mp hvisit
              rw [if_pos hsize, ih hle hrest, Option.map_some]
            · cases hvisit
        | into s' =>
            rw [hs] at hvisit
            obtain ⟨rest, hrest, rfl⟩ := Option.map_eq_some_iff.mp hvisit
            dsimp only
            rw [ih hle hrest, Option.map_some]
        | leave s' =>
            rw [hs] at hvisit
            exact hvisit

/-- Over whole items the loop comes to an end inside the body. -/
theorem crawlLoop_of_wholeItems (hvisit : Enters visit enters budget)
    (hwhole : WholeItems enters n start (reply.body.drop start) items)
    (hbudget : budget s = some n)
    (hstart : start ≤ reply.body.length) :
    (∃ turns, crawlLoop reply visit turns start (reply.body.length - start) s =
      some ⟨items, visitAll visit s items, endingOf enters n items⟩) ∧
      ∀ item ∈ items, item.Inside enters reply.body.length := by
  generalize hbytes : reply.body.drop start = bytes at hwhole
  induction hwhole generalizing s with
  | @tail n start bytes short =>
      subst hbytes
      rw [List.length_drop] at short
      refine ⟨⟨1, ?_⟩, fun item hitem => absurd hitem List.not_mem_nil⟩
      rw [crawlLoop, if_pos (by omega)]
      rfl
  | @past n start size bytes items enters_eq size_eq fits size_le rest ih =>
      subst hbytes
      rw [List.length_drop] at fits
      obtain ⟨s', hpast, hbudget'⟩ := hvisit.past (s := s) enters_eq
      have hdrop : reply.body.drop (start + 8 + size) =
          (reply.body.drop start).drop (8 + size) := by rw [List.drop_drop, Nat.add_assoc]
      obtain ⟨⟨turns, hloop⟩, hinside⟩ :=
        ih (hbudget'.trans hbudget) (by omega) hdrop
      refine ⟨⟨turns + 1, ?_⟩, ?_⟩
      · obtain ⟨hsp, hle⟩ := past_eq reply.body.length start size
        rw [crawlLoop, if_neg (by omega), dacpTlvCrawl_eq (by omega), size_eq,
          if_pos (by omega), Option.bind_some]
        dsimp only
        rw [hpast]
        dsimp only
        rw [size_eq, if_pos size_le, hsp, hle, hloop]
        rw [visitAll, visitAll, List.foldl_cons, hpast, endingOf_cons_past enters_eq]
        rfl
      · intro item hitem
        rcases List.mem_cons.mp hitem with rfl | hitem
        · have hextent := (Item.extent_of_past enters_eq).trans size_eq
          exact itemAt_inside (by omega) (by omega) (by omega)
        · exact hinside item hitem
  | @into n start bytes items enters_eq fits size_le rest ih =>
      subst hbytes
      rw [List.length_drop] at fits
      obtain ⟨s', hinto, hbudget'⟩ := hvisit.into enters_eq hbudget
      have hdrop : reply.body.drop (start + 8) = (reply.body.drop start).drop 8 :=
        List.drop_drop.symm
      obtain ⟨⟨turns, hloop⟩, hinside⟩ := ih hbudget' (by omega) hdrop
      refine ⟨⟨turns + 1, ?_⟩, ?_⟩
      · obtain ⟨hsp, hle⟩ := into_eq reply.body.length start
          (itemAt start (reply.body.drop start)).size.toInt
        rw [crawlLoop, if_neg (by omega), dacpTlvCrawl_eq (by omega), if_pos size_le,
          Option.bind_some]
        dsimp only
        rw [hinto]
        dsimp only
        rw [hsp, hle, hloop]
        rw [visitAll, visitAll, List.foldl_cons, hinto, endingOf_cons_into enters_eq]
        rfl
      · intro item hitem
        rcases List.mem_cons.mp hitem with rfl | hitem
        · have hextent := Item.extent_of_enters enters_eq
          exact itemAt_inside (by omega) (by omega) (by omega)
        · exact hinside item hitem
  | @leave start bytes enters_eq fits size_le =>
      subst hbytes
      rw [List.length_drop] at fits
      obtain ⟨s', hleave⟩ := hvisit.leave enters_eq hbudget
      refine ⟨⟨1, ?_⟩, ?_⟩
      · rw [crawlLoop, if_neg (by omega), dacpTlvCrawl_eq (by omega), if_pos size_le,
          Option.bind_some]
        dsimp only
        rw [hleave, visitAll, List.foldl_cons, hleave, endingOf_cons_leave enters_eq]
        rfl
      · intro item hitem
        cases List.mem_singleton.mp hitem
        have hextent := Item.extent_of_enters enters_eq
        exact itemAt_inside (by omega) (by omega) (by omega)

/-- A loop that comes to an end inside the body has gone over whole items. -/
theorem wholeItems_of_crawlLoop (hvisit : Enters visit enters budget) {turns : ℕ}
    {crawl : Crawl σ} (hbudget : budget s = some n)
    (hloop : crawlLoop reply visit turns start (reply.body.length - start) s = some crawl)
    (hstart : start ≤ reply.body.length)
    (hinside : ∀ item ∈ crawl.items, item.Inside enters reply.body.length) :
    WholeItems enters n start (reply.body.drop start) crawl.items := by
  induction turns generalizing start n s crawl with
  | zero => cases hloop
  | succ turns ih =>
      rw [crawlLoop] at hloop
      split at hloop
      · next hshort =>
        cases hloop
        exact .tail (by rw [List.length_drop]; omega)
      · next hmore =>
        have hroom : start + 8 ≤ reply.body.length := by omega
        rw [dacpTlvCrawl_eq hroom] at hloop
        split at hloop
        case isFalse => cases hloop
        case isTrue hsize =>
        rw [Option.bind_some] at hloop
        dsimp only at hloop
        set item := itemAt start (reply.body.drop start) with hitem
        have hlength : (reply.body.drop start).length = reply.body.length - start :=
          List.length_drop
        cases henters : enters item.type with
        | false =>
            obtain ⟨s', hpast, hbudget'⟩ := hvisit.past (s := s) henters
            rw [hpast] at hloop
            dsimp only at hloop
            split at hloop
            case isFalse => cases hloop
            case isTrue hsum =>
            obtain ⟨rest, hrest, rfl⟩ := Option.map_eq_some_iff.mp hloop
            obtain ⟨-, hnonneg, hend⟩ := hinside item List.mem_cons_self
            rw [Item.extent_of_past henters] at hnonneg hend
            have hitemStart : item.start = start := rfl
            obtain ⟨size, hsizeEq⟩ := Int.eq_ofNat_of_zero_le hnonneg
            obtain ⟨hsp, hle⟩ := past_eq reply.body.length start size
            rw [hsizeEq, hsp, hle] at hrest
            have hwhole := ih (hbudget'.trans hbudget) hrest (by omega) fun other hother =>
              hinside other (List.mem_cons_of_mem _ hother)
            have hdrop : reply.body.drop (start + 8 + size) =
                (reply.body.drop start).drop (8 + size) := by rw [List.drop_drop, Nat.add_assoc]
            rw [hdrop] at hwhole
            exact .past henters hsizeEq (by omega) (by omega) hwhole
        | true =>
            cases n with
            | zero =>
                obtain ⟨s', hleave⟩ := hvisit.leave henters hbudget
                rw [hleave] at hloop
                cases hloop
                exact .leave henters (by omega) hsize
            | succ n =>
                obtain ⟨s', hinto, hbudget'⟩ := hvisit.into henters hbudget
                rw [hinto] at hloop
                obtain ⟨rest, hrest, rfl⟩ := Option.map_eq_some_iff.mp hloop
                obtain ⟨hsp, hle⟩ := into_eq reply.body.length start item.size.toInt
                rw [hsp, hle] at hrest
                have hwhole := ih hbudget' hrest hroom fun other hother =>
                  hinside other (List.mem_cons_of_mem _ hother)
                rw [← List.drop_drop] at hwhole
                exact .into henters (by omega) hsize hwhole

/-! ## Replies -/

/-- There is an end to the items that are handed on, and they are inside the body. -/
def EndsInside (enters : BitVec 32 → Bool) (reply : Reply) (run : ℕ → Option (List Item)) : Prop :=
  ∃ turns items, run turns = some items ∧ ∀ item ∈ items, item.Inside enters reply.body.length

/-- If there is a container of this kind, it has whole items. -/
def Reply.Whole (reply : Reply) (container : BitVec 32) (enters : BitVec 32 → Bool) (n : ℕ) :
    Prop :=
  8 ≤ reply.body.length →
    4 + (itemAt 0 reply.body).size.toInt ≤ intMax ∧
    ((itemAt 0 reply.body).type = container → ∃ items,
      WholeItems enters n 8 (reply.body.drop 8) items)

theorem crawlReply_short (hlength : ¬8 ≤ reply.body.length) (container : BitVec 32) (turns : ℕ) :
    crawlReply reply visit container turns s = some ⟨[], s, .absent⟩ := by
  rw [crawlReply, if_neg hlength]

theorem crawlReply_eq (hlength : 8 ≤ reply.body.length) (container : BitVec 32) (turns : ℕ) :
    crawlReply reply visit container turns s =
      if 4 + (itemAt 0 reply.body).size.toInt ≤ intMax then
        if (itemAt 0 reply.body).type = container then
          crawlLoop reply visit turns (8 : ℕ) (reply.body.length - (8 : ℕ)) s
        else some ⟨[], s, .absent⟩
      else none := by
  have hcrawl := @dacpTlvCrawl_eq reply 0 (by omega)
  rw [List.drop_zero, Nat.cast_zero] at hcrawl
  rw [crawlReply, if_pos hlength, hcrawl]
  split
  · have hsp : ∀ size : ℤ, 0 + 8 + size - size = (8 : ℕ) := fun size => by
      push_cast
      ring
    rw [Option.bind_some]
    dsimp only
    rw [hsp]
    rfl
  · rfl

/-- A crawl stays inside a reply exactly if there are whole items in it. -/
theorem crawlReply_endsInside_iff (hvisit : Enters visit enters budget) (reply : Reply)
    (container : BitVec 32) (hbudget : budget s = some n) :
    EndsInside enters reply
        (fun turns => (crawlReply reply visit container turns s).map Crawl.items) ↔
      reply.Whole container enters n := by
  by_cases hlength : 8 ≤ reply.body.length
  case neg =>
    refine iff_of_true ⟨0, [], ?_, fun item hitem => absurd hitem List.not_mem_nil⟩
      (absurd · hlength)
    exact congrArg (Option.map _) (crawlReply_short hlength container 0)
  simp only [EndsInside, crawlReply_eq hlength, Reply.Whole, hlength, forall_const]
  by_cases hsize : 4 + (itemAt 0 reply.body).size.toInt ≤ intMax
  case neg =>
    refine iff_of_false ?_ fun h => hsize h.1
    rintro ⟨turns, items, hrun, -⟩
    rw [if_neg hsize] at hrun
    cases hrun
  by_cases htype : (itemAt 0 reply.body).type = container
  case neg =>
    refine iff_of_true ⟨0, [], ?_, fun item hitem => absurd hitem List.not_mem_nil⟩
      ⟨hsize, (absurd · htype)⟩
    rw [if_pos hsize, if_neg htype]
    rfl
  simp only [hsize, htype, if_true, true_and, forall_const]
  constructor
  · rintro ⟨turns, items, hrun, hinside⟩
    obtain ⟨crawl, hcrawl, rfl⟩ := Option.map_eq_some_iff.mp hrun
    exact ⟨crawl.items, wholeItems_of_crawlLoop hvisit hbudget hcrawl hlength hinside⟩
  · rintro ⟨items, hitems⟩
    obtain ⟨⟨turns, hloop⟩, hinside⟩ := crawlLoop_of_wholeItems hvisit hitems hbudget hlength
    refine ⟨turns, items, ?_, hinside⟩
    rw [hloop]
    rfl

end Crawls

end Dacp

end ShairportSync
