import Mathlib.Logic.Function.Basic
import ShairportSync.Dacp.Tlv

/-!
# The replies that are crawled through

The monitor thread asks for a status update, `dacp_get_client_volume` for the volume, and
`dacp_get_speaker_list` for the speakers. Each of them crawls through the reply if the server says
that it is fine.
-/

namespace ShairportSync

namespace Dacp

open Player (Bytes)
open Metadata

/-! ## Tags -/

def cmst : BitVec 32 := fourChars 'c' 'm' 's' 't'

def cmsr : BitVec 32 := fourChars 'c' 'm' 's' 'r'

def cmgt : BitVec 32 := fourChars 'c' 'm' 'g' 't'

def cmvo : BitVec 32 := fourChars 'c' 'm' 'v' 'o'

def casp : BitVec 32 := fourChars 'c' 'a' 's' 'p'

def mdcl : BitVec 32 := fourChars 'm' 'd' 'c' 'l'

def minm : BitVec 32 := fourChars 'm' 'i' 'n' 'm'

def msma : BitVec 32 := fourChars 'm' 's' 'm' 'a'

def caia : BitVec 32 := fourChars 'c' 'a' 'i' 'a'

/-- What `dacp_send_command` returns: the code, and the body unless it is NULL. -/
structure Response where
  code : ℕ
  serverReply : Option Reply

def Response.buffers (response : Response) : ℕ := if response.serverReply.isSome then 1 else 0

/-- A crawl through the body. If it is NULL then `le` is zero. -/
def Response.crawl {σ : Type*} (response : Response) (visit : Reply → σ → Item → Visit σ)
    (container : BitVec 32) (turns : ℕ) (s : σ) : Option (Crawl σ) :=
  match response.serverReply with
  | some reply => crawlReply reply (visit reply) container turns s
  | none => some ⟨[], s, .absent⟩

/-! ## The status update -/

/-- What `dacp_monitor_thread_code` does about an item. The revision number is for its next command.
What it knows of the other items goes to the metadata store, and has no part in the loop. -/
def visitStatus (reply : Reply) (revisionNumber : BitVec 32) (item : Item) :
    Visit (BitVec 32) :=
  .past (if item.type = cmsr then reply.word item.data else revisionNumber)

structure StatusUpdate where
  revisionNumber : BitVec 32
  items : List Item
  freed : ℕ

/-- The part of `dacp_monitor_thread_code` behind the request for a status update. -/
def statusUpdate (response : Response) (revisionNumber : BitVec 32) (turns : ℕ) :
    Option StatusUpdate :=
  if response.code = 200 then
    (response.crawl visitStatus cmst turns revisionNumber).map fun crawl =>
      ⟨crawl.state, crawl.items, response.buffers⟩
  else some ⟨revisionNumber, [], response.buffers⟩

/-! ## The volume -/

def visitVolume (reply : Reply) (overallVolume : BitVec 32) (item : Item) : Visit (BitVec 32) :=
  .past (if item.type = cmvo then reply.word item.data else overallVolume)

structure ClientVolume where
  response : ℕ
  /-- `*result` -/
  overallVolume : BitVec 32
  items : List Item
  freed : ℕ

def dacpGetClientVolume (response : Response) (turns : ℕ) : Option ClientVolume :=
  if response.code = 200 then
    (response.crawl visitVolume cmgt turns (-1)).map fun crawl =>
      ⟨response.code, crawl.state, crawl.items, response.buffers⟩
  else some ⟨response.code, -1, [], response.buffers⟩

/-! ## The speakers -/

structure SpeakerStuff where
  speakerNumber : BitVec 64
  active : Bool
  volume : BitVec 32
  /-- `char name[128]` -/
  name : Bytes

/-- `strncpy` from this place on. -/
def strncpy (reply : Reply) (src : ℤ) (n : ℕ) : Bytes :=
  let chars := ((List.range n).map fun i : ℕ => reply.byte (src + i)).takeWhile (· != 0)
  chars ++ List.replicate (n - chars.length) 0

structure Speakers where
  speakerIndex : ℤ
  /-- The entries of the array, and what would be an entry before and behind them. -/
  speakerInfo : ℤ → SpeakerStuff
  /-- The indices that have been written to. -/
  written : List ℤ

def Speakers.write (speakers : Speakers) (put : SpeakerStuff → SpeakerStuff) : Speakers where
  speakerIndex := speakers.speakerIndex
  speakerInfo := Function.update speakers.speakerInfo speakers.speakerIndex
    (put (speakers.speakerInfo speakers.speakerIndex))
  written := speakers.written ++ [speakers.speakerIndex]

def SpeakerStuff.clear (speaker : SpeakerStuff) : SpeakerStuff :=
  { speaker with active := false, speakerNumber := 0, volume := 0, name := speaker.name.set 0 0 }

/-- What an item that is not a container writes, if it writes something. -/
def putItem (reply : Reply) (item : Item) : Option (SpeakerStuff → SpeakerStuff) :=
  if item.type = minm then
    some fun speaker => { speaker with name := (strncpy reply item.data 128).set 127 0 }
  else if item.type = cmvo then
    some fun speaker => { speaker with volume := reply.word item.data }
  else if item.type = msma then
    some fun speaker =>
      { speaker with speakerNumber :=
          ((reply.word item.data).setWidth 64 <<< 32) + (reply.word (item.data + 4)).setWidth 64 }
  else if item.type = caia then some fun speaker => { speaker with active := true }
  else none

def visitSpeakers (max : ℕ) (reply : Reply) (speakers : Speakers) (item : Item) :
    Visit Speakers :=
  if item.type = mdcl then
    let next : Speakers := { speakers with speakerIndex := speakers.speakerIndex + 1 }
    if next.speakerIndex = (max : ℤ) then .leave next
    else .into (next.write SpeakerStuff.clear)
  else
    match putItem reply item with
    | some put => .past (speakers.write put)
    | none => .past speakers

structure SpeakerList where
  response : ℕ
  /-- `*actual_speaker_count`, if it is set -/
  actualSpeakerCount : Option ℤ
  speakers : Speakers
  items : List Item
  freed : ℕ

/-- `dacp_get_speaker_list` with an array of this size. -/
def dacpGetSpeakerList (response : Response) (max : ℕ) (speakerInfo : ℤ → SpeakerStuff)
    (turns : ℕ) : Option SpeakerList :=
  let before : Speakers := ⟨-1, speakerInfo, []⟩
  if response.code = 200 then
    (response.crawl (visitSpeakers max) casp turns before).map fun crawl =>
      match crawl.ending with
      | .left => ⟨413, none, crawl.state, crawl.items, 0⟩
      | .finished =>
          ⟨200, some (crawl.state.speakerIndex + 1), crawl.state, crawl.items, response.buffers⟩
      | .absent => ⟨200, some (-1), crawl.state, crawl.items, response.buffers⟩
  else some ⟨response.code, some (-1), before, [], response.buffers⟩

/-! ## They end inside the reply -/

/-- The containers that are entered in a list of speakers. -/
def isMdcl (type : BitVec 32) : Bool := type = mdcl

section Enters

variable {σ : Type*} {reply : Reply}

/-- A loop that passes over all items. -/
theorem enters_none {visit : σ → Item → Visit σ}
    (hpast : ∀ s item, ∃ s', visit s item = .past s') :
    Enters visit (fun _ => false) (fun _ => some 0) where
  past {s item} _ := by
    obtain ⟨s', hs'⟩ := hpast s item
    exact ⟨s', hs', rfl⟩
  into h := nomatch h
  leave h := nomatch h

/-- How many containers there is still an entry for. -/
def Speakers.budget (max : ℕ) (speakers : Speakers) : Option ℕ :=
  if speakers.speakerIndex < max then some (max - 1 - speakers.speakerIndex).toNat else none

theorem write_speakerIndex (speakers : Speakers) (put : SpeakerStuff → SpeakerStuff) :
    (speakers.write put).speakerIndex = speakers.speakerIndex := rfl

theorem budget_eq_some {max n : ℕ} {speakers : Speakers} :
    speakers.budget max = some n ↔ speakers.speakerIndex + 1 + n = max := by
  rw [Speakers.budget]
  split
  · rw [Option.some_inj]
    omega
  · refine iff_of_false (fun h => nomatch h) ?_
    omega

theorem enters_speakers (max : ℕ) (reply : Reply) :
    Enters (visitSpeakers max reply) isMdcl (Speakers.budget max) where
  past {s item} h := by
    rw [visitSpeakers, if_neg (by simpa [isMdcl] using h)]
    cases putItem reply item with
    | some put => exact ⟨_, rfl, rfl⟩
    | none => exact ⟨_, rfl, rfl⟩
  into {s item n} h hbudget := by
    rw [budget_eq_some] at hbudget
    push_cast at hbudget
    rw [visitSpeakers, if_pos (by simpa [isMdcl] using h)]
    dsimp only
    rw [if_neg (by omega)]
    refine ⟨_, rfl, budget_eq_some.mpr ?_⟩
    rw [write_speakerIndex]
    dsimp only
    omega
  leave {s item} h hbudget := by
    rw [budget_eq_some] at hbudget
    push_cast at hbudget
    rw [visitSpeakers, if_pos (by simpa [isMdcl] using h)]
    dsimp only
    rw [if_pos (by omega)]
    exact ⟨_, rfl⟩

end Enters

/-- Each of the three crawls ends inside the reply exactly if the items are whole: those of the
container, and for the speakers also those of the containers in it. -/
theorem crawls_endInside_iff (reply : Reply) :
    (∀ revisionNumber, EndsInside (fun _ => false) reply (fun turns =>
        (statusUpdate ⟨200, some reply⟩ revisionNumber turns).map StatusUpdate.items) ↔
      reply.Whole cmst (fun _ => false) 0) ∧
    (EndsInside (fun _ => false) reply (fun turns =>
        (dacpGetClientVolume ⟨200, some reply⟩ turns).map ClientVolume.items) ↔
      reply.Whole cmgt (fun _ => false) 0) ∧
    ∀ max speakerInfo, EndsInside isMdcl reply (fun turns =>
        (dacpGetSpeakerList ⟨200, some reply⟩ max speakerInfo turns).map SpeakerList.items) ↔
      reply.Whole casp isMdcl max := by
  refine ⟨fun revisionNumber => ?_, ?_, fun max speakerInfo => ?_⟩
  · rw [← crawlReply_endsInside_iff (s := revisionNumber)
      (enters_none fun _ _ => ⟨_, rfl⟩ : Enters (visitStatus reply) _ _) reply cmst rfl]
    simp only [statusUpdate, if_pos, Response.crawl, Option.map_map]
    rfl
  · rw [← crawlReply_endsInside_iff (s := (-1 : BitVec 32))
      (enters_none fun _ _ => ⟨_, rfl⟩ : Enters (visitVolume reply) _ _) reply cmgt rfl]
    simp only [dacpGetClientVolume, if_pos, Response.crawl, Option.map_map]
    rfl
  · rw [← crawlReply_endsInside_iff (s := ⟨-1, speakerInfo, []⟩) (enters_speakers max reply) reply
      casp (budget_eq_some.mpr (by push_cast; ring))]
    simp only [dacpGetSpeakerList, if_pos, Response.crawl, Option.map_map]
    refine iff_of_eq (congrArg _ (funext fun turns => ?_))
    refine congrArg (Option.map · _) (funext fun crawl => ?_)
    simp only [Function.comp]
    split <;> rfl

/-- A volume with a size of -8: the pointer comes back to its tag. -/
def minusEight : Reply := ⟨htonl cmgt ++ htonl 8 ++ htonl cmvo ++ htonl (-8), fun _ => 0⟩

theorem dacpGetClientVolume_minusEight :
    ¬EndsInside (fun _ => false) minusEight (fun turns =>
      (dacpGetClientVolume ⟨200, some minusEight⟩ turns).map ClientVolume.items) := by
  have hcrawl := crawlReply_endsInside_iff (s := (-1 : BitVec 32))
    (enters_none fun _ _ => ⟨_, rfl⟩ : Enters (visitVolume minusEight) _ _) minusEight cmgt rfl
  simp only [dacpGetClientVolume, if_pos, Response.crawl, Option.map_map]
  refine fun hends => ?_
  obtain ⟨-, hwhole⟩ := hcrawl.mp hends (by decide)
  obtain ⟨items, hitems⟩ := hwhole (by decide)
  have hsize : (itemAt 8 (minusEight.body.drop 8)).size.toInt = -8 := by decide
  cases hitems with
  | tail short => exact absurd short (by decide)
  | past _ size_eq => omega
  | leave enters_eq => exact nomatch enters_eq

end Dacp

end ShairportSync
