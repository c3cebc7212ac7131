import ShairportSync.Dacp.SpeakerList
import ShairportSync.Numeric.RoundedQuotient
import Mathlib.Data.List.Forall2

/-!
# Setting the volume of this device

The remote control has an overall volume, and for each speaker a volume that is relative to it.
`dacp_set_volume` can only ask for two things: that the overall volume becomes that of a speaker, or
that the relative volume of a speaker changes. A volume that is lower than that of the loudest of
the others is set with the overall volume brought down to this.
-/

namespace ShairportSync

namespace Dacp

open Numeric

/-! ## The code -/

/-- What the remote control returns for each command, and what it is then -/
structure Remote (ρ : Type*) where
  getClientVolume : ρ → (ℕ × ℤ) × ρ
  getSpeakerList : ρ → (ℕ × List SpeakerStuff) × ρ
  setIncludeSpeakerVolume : BitVec 64 → ℤ → ρ → ℕ × ρ
  setSpeakerVolume : BitVec 64 → ℤ → ρ → ℕ × ρ

def relativeVolume (machineNumber : BitVec 64) (speakerInfo : List SpeakerStuff) : ℤ :=
  speakerInfo.foldl (fun relative speaker =>
    if speaker.speakerNumber = machineNumber then speaker.volume.toInt else relative) 0

/-- `highest_other_volume` after an entry -/
def louder (machineNumber : BitVec 64) (highest : ℤ) (speaker : SpeakerStuff) : ℤ :=
  if speaker.speakerNumber ≠ machineNumber ∧ speaker.active = true ∧
      highest < speaker.volume.toInt then speaker.volume.toInt
  else highest

def highestOtherVolume (machineNumber : BitVec 64) (speakerInfo : List SpeakerStuff) : ℤ :=
  speakerInfo.foldl (louder machineNumber) 0

section Code

variable {ρ : Type*} (remote : Remote ρ) (machineNumber : BitVec 64)

def dacpGetVolume (r : ρ) : (ℕ × ℤ) × ρ :=
  let ((response, overallVolume), r) := remote.getClientVolume r
  if response = 200 then
    let ((response, speakerInfo), r) := remote.getSpeakerList r
    if response = 200 then
      ((response, (overallVolume * relativeVolume machineNumber speakerInfo + 50).tdiv 100), r)
    else ((response, 0), r)
  else ((response, 0), r)

/-- The part of `dacp_set_volume` for a volume that is lower than the highest of the others -/
def lowerVolume (vo overallVolume highest : ℤ) (response : ℕ) (r : ρ) : ℕ × ρ :=
  let (response, r) :=
    if highest < overallVolume then remote.setIncludeSpeakerVolume machineNumber highest r
    else (response, r)
  if highest ≠ 0 then
    remote.setSpeakerVolume machineNumber ((vo * 100 + highest.tdiv 2).tdiv highest) r
  else (response, r)

def dacpSetVolume (vo : ℤ) (r : ρ) : ℕ × ρ :=
  if 0 ≤ vo ∧ vo ≤ 100 then
    let ((response, overallVolume), r) := remote.getClientVolume r
    if response = 200 then
      let ((response, speakerInfo), r) := remote.getSpeakerList r
      if response = 200 then
        let activeSpeakers := speakerInfo.countP fun speaker => speaker.active
        if activeSpeakers = 1 then remote.setIncludeSpeakerVolume machineNumber vo r
        else if activeSpeakers = 0 then (response, r)
        else if overallVolume ≤ vo then remote.setIncludeSpeakerVolume machineNumber vo r
        else
          let highest :=
            (highestOtherVolume machineNumber speakerInfo * overallVolume + 50).tdiv 100
          if highest ≤ vo then remote.setIncludeSpeakerVolume machineNumber vo r
          else lowerVolume remote machineNumber vo overallVolume highest response r
      else (response, r)
    else (response, r)
  else (492, r)

/-- The remote control answers, and does what the commands for this device say: the overall volume
becomes that of the device, or its relative volume changes. What happens to the other speakers does
not matter. Volumes are per cent. -/
structure Remote.Obeys (overall : ρ → ℤ) (speakers : ρ → List SpeakerStuff) : Prop where
  getClientVolume_eq : ∀ r, remote.getClientVolume r = ((200, overall r), r)
  getSpeakerList_eq : ∀ r, remote.getSpeakerList r = ((200, speakers r), r)
  overall_nonneg : ∀ r, 0 ≤ overall r
  volume_le : ∀ r, ∀ speaker ∈ speakers r, speaker.volume.toInt ≤ 100
  overall_include : ∀ r v, 0 ≤ v → v ≤ 100 →
    overall (remote.setIncludeSpeakerVolume machineNumber v r).2 = v
  relative_include : ∀ r v, 0 ≤ v → v ≤ 100 →
    relativeVolume machineNumber
      (speakers (remote.setIncludeSpeakerVolume machineNumber v r).2) = 100
  overall_set : ∀ r v, 0 ≤ v → v ≤ 100 →
    overall (remote.setSpeakerVolume machineNumber v r).2 = overall r
  relative_set : ∀ r v, 0 ≤ v → v ≤ 100 →
    relativeVolume machineNumber (speakers (remote.setSpeakerVolume machineNumber v r).2) = v

end Code

/-! ## The volume that is read back -/

theorem highestOtherVolume_bounds (machineNumber : BitVec 64) {speakerInfo : List SpeakerStuff}
    (h : ∀ speaker ∈ speakerInfo, speaker.volume.toInt ≤ 100) :
    0 ≤ highestOtherVolume machineNumber speakerInfo ∧
      highestOtherVolume machineNumber speakerInfo ≤ 100 := by
  refine List.foldlRecOn speakerInfo (louder machineNumber)
    (motive := fun highest => 0 ≤ highest ∧ highest ≤ 100) ⟨le_rfl, by decide⟩ ?_
  intro highest hbounds speaker hmem
  unfold louder
  split_ifs with hhigher
  · exact ⟨hbounds.1.trans hhigher.2.2.le, h speaker hmem⟩
  · exact hbounds

section ReadBack

variable {ρ : Type*} {remote : Remote ρ} {machineNumber : BitVec 64} {overall : ρ → ℤ}
  {speakers : ρ → List SpeakerStuff} {r : ρ} {vo : ℤ}

theorem Remote.Obeys.dacpGetVolume_eq (h : remote.Obeys machineNumber overall speakers) :
    dacpGetVolume remote machineNumber r =
      ((200, (overall r * relativeVolume machineNumber (speakers r) + 50).tdiv 100), r) := by
  simp only [dacpGetVolume, h.getClientVolume_eq, h.getSpeakerList_eq, if_true]

theorem Remote.Obeys.dacpGetVolume_include (h : remote.Obeys machineNumber overall speakers)
    (hvo : 0 ≤ vo) (hle : vo ≤ 100) :
    (dacpGetVolume remote machineNumber
      (remote.setIncludeSpeakerVolume machineNumber vo r).2).1 = (200, vo) := by
  rw [h.dacpGetVolume_eq, h.overall_include r vo hvo hle, h.relative_include r vo hvo hle,
    Int.tdiv_eq_ediv_of_nonneg (by omega)]
  exact congrArg (Prod.mk 200) (by omega)

/-- With the overall volume at the highest of the others, the relative volume that is asked for is
rounded, and so is the volume that is read back. It is the same. -/
theorem Remote.Obeys.dacpGetVolume_set (h : remote.Obeys machineNumber overall speakers)
    (hvo : 0 ≤ vo) (hlt : vo < overall r) (hle : overall r ≤ 100) :
    (dacpGetVolume remote machineNumber (remote.setSpeakerVolume machineNumber
      ((vo * 100 + (overall r).tdiv 2).tdiv (overall r)) r).2).1 = (200, vo) := by
  have hpos : 0 < overall r := hvo.trans_lt hlt
  have hquotient : (vo * 100 + (overall r).tdiv 2).tdiv (overall r) =
      roundedQuotient (vo * 100) (overall r) := by
    rw [Int.tdiv_eq_ediv_of_nonneg hpos.le, Int.tdiv_eq_ediv_of_nonneg (by omega)]
    rfl
  have hbounds := roundedQuotient_bounds (n := 100) hvo hlt.le hpos (by decide)
  rw [hquotient, h.dacpGetVolume_eq, h.overall_set r _ hbounds.1 hbounds.2,
    h.relative_set r _ hbounds.1 hbounds.2,
    Int.tdiv_eq_ediv_of_nonneg (add_nonneg (mul_nonneg hpos.le hbounds.1) (by decide))]
  exact congrArg (Prod.mk 200) (roundedQuotient_roundedQuotient vo hpos hle)

theorem Remote.Obeys.dacpGetVolume_lowerVolume (h : remote.Obeys machineNumber overall speakers)
    {highest : ℤ} {response : ℕ} (hvo : 0 ≤ vo) (hlt : vo < highest) (hle : highest ≤ 100)
    (hhighest : highest ≤ overall r) :
    (dacpGetVolume remote machineNumber
      (lowerVolume remote machineNumber vo (overall r) highest response r).2).1 = (200, vo) := by
  have hne : highest ≠ 0 := (hvo.trans_lt hlt).ne'
  rcases hhighest.eq_or_lt with rfl | hlower
  · have hlowerVolume : lowerVolume remote machineNumber vo (overall r) (overall r) response r =
        remote.setSpeakerVolume machineNumber
          ((vo * 100 + (overall r).tdiv 2).tdiv (overall r)) r := by
      simp only [lowerVolume, lt_irrefl, if_false, if_pos hne]
    rw [hlowerVolume]
    exact h.dacpGetVolume_set hvo hlt hle
  · have hoverall := h.overall_include r highest (by omega) hle
    have hlowerVolume : lowerVolume remote machineNumber vo (overall r) highest response r =
        remote.setSpeakerVolume machineNumber ((vo * 100 + highest.tdiv 2).tdiv highest)
          (remote.setIncludeSpeakerVolume machineNumber highest r).2 := by
      simp only [lowerVolume, if_pos hlower, if_pos hne]
    have hread := @Remote.Obeys.dacpGetVolume_set _ _ _ _ _
      (remote.setIncludeSpeakerVolume machineNumber highest r).2 vo h hvo
    rw [hoverall] at hread
    rw [hlowerVolume]
    exact hread hlt hle

/-- If there is an active speaker, the volume that has been set is the one that is read back; and if
there is none, nothing is changed. -/
theorem dacpGetVolume_dacpSetVolume (h : remote.Obeys machineNumber overall speakers)
    (hvo : 0 ≤ vo) (hle : vo ≤ 100) (hoverall : overall r ≤ 100) :
    if ∃ speaker ∈ speakers r, speaker.active = true then
      (dacpGetVolume remote machineNumber (dacpSetVolume remote machineNumber vo r).2).1 = (200, vo)
    else (dacpSetVolume remote machineNumber vo r).2 = r := by
  have hset : dacpSetVolume remote machineNumber vo r =
      (if (speakers r).countP (fun speaker => speaker.active) = 1 then
        remote.setIncludeSpeakerVolume machineNumber vo r
      else if (speakers r).countP (fun speaker => speaker.active) = 0 then (200, r)
      else if overall r ≤ vo then remote.setIncludeSpeakerVolume machineNumber vo r
      else if (highestOtherVolume machineNumber (speakers r) * overall r + 50).tdiv 100 ≤ vo then
        remote.setIncludeSpeakerVolume machineNumber vo r
      else lowerVolume remote machineNumber vo (overall r)
        ((highestOtherVolume machineNumber (speakers r) * overall r + 50).tdiv 100) 200 r) := by
    simp only [dacpSetVolume, h.getClientVolume_eq, h.getSpeakerList_eq, if_true,
      if_pos (And.intro hvo hle)]
  have hcount : (speakers r).countP (fun speaker => speaker.active) = 0 ↔
      ¬ ∃ speaker ∈ speakers r, speaker.active = true := by
    rw [List.countP_eq_zero]
    exact ⟨fun hall ⟨speaker, hmem, hactive⟩ => hall speaker hmem hactive,
      fun hnone speaker hmem hactive => hnone ⟨speaker, hmem, hactive⟩⟩
  obtain ⟨hnonneg, hhundred⟩ := highestOtherVolume_bounds machineNumber (h.volume_le r)
  have hmul : 0 ≤ highestOtherVolume machineNumber (speakers r) * overall r :=
    mul_nonneg hnonneg (h.overall_nonneg r)
  have hmul_le : highestOtherVolume machineNumber (speakers r) * overall r ≤ 100 * overall r :=
    mul_le_mul_of_nonneg_right hhundred (h.overall_nonneg r)
  rw [hset]
  by_cases hactive : ∃ speaker ∈ speakers r, speaker.active = true
  · rw [if_pos hactive]
    split_ifs with hone hzero hhigh hother
    · exact h.dacpGetVolume_include hvo hle
    · exact absurd hactive (hcount.mp hzero)
    · exact h.dacpGetVolume_include hvo hle
    · exact h.dacpGetVolume_include hvo hle
    · rw [Int.tdiv_eq_ediv_of_nonneg (by omega)] at hother ⊢
      exact h.dacpGetVolume_lowerVolume hvo (by omega) (by omega) (by omega)
  · have hzero := hcount.mpr hactive
    rw [if_neg hactive, if_neg (by omega), if_pos hzero]

end ReadBack

/-! ## The replies -/

def SpeakerList.entries (list : SpeakerList) : List SpeakerStuff :=
  (List.range (list.actualSpeakerCount.getD 0).toNat).map fun i : ℕ => list.speakers.speakerInfo i

/-- The commands that read return what `dacp_get_client_volume`, and `dacp_get_speaker_list` with an
array of 50 entries, make of these replies. -/
structure Remote.Reads {ρ : Type*} (remote : Remote ρ) (clientVolume speakerList : ρ → Response) :
    Prop where
  getClientVolume : ∀ r, ∃ volume, (∃ turns₀, ∀ turns ≥ turns₀,
      dacpGetClientVolume (clientVolume r) turns = some volume) ∧
    remote.getClientVolume r = ((volume.response, volume.overallVolume.toInt), r)
  getSpeakerList : ∀ r, ∃ list, (∃ speakerInfo turns₀, ∀ turns ≥ turns₀,
      dacpGetSpeakerList (speakerList r) 50 speakerInfo turns = some list) ∧
    remote.getSpeakerList r = ((list.response, list.entries), r)

/-- There is an overall volume, of which these are the items. -/
structure Reply.SaysVolume (reply : Reply) (items : List Item) : Prop where
  length : 8 ≤ reply.body.length
  size_le : 4 + (itemAt 0 reply.body).size.toInt ≤ intMax
  cmgt : (itemAt 0 reply.body).type = cmgt
  items : WholeItems (fun _ => false) 0 8 (reply.body.drop 8) items

def overallSaid (reply : Reply) (items : List Item) : BitVec 32 :=
  (lastOf cmvo items).elim (-1) fun item => reply.word item.data

/-- The relative volume that the last container for this device says -/
def relativeSaid (reply : Reply) (machineNumber : BitVec 64) (contents : List (List Item)) : ℤ :=
  contents.foldl (fun relative content =>
    if lastValue reply msma numberValue 0 content = some machineNumber then
      ((lastValue reply cmvo volumeValue 0 content).getD 0).toInt
    else relative) 0

section Replies

variable {ρ : Type*} {remote : Remote ρ} {machineNumber : BitVec 64}
  {clientVolume speakerList : ρ → Response} {r : ρ} {reply volumeReply : Reply}
  {items volumeItems : List Item} {contents : List (List Item)} {speakers : List SpeakerStuff}

theorem visitAll_visitVolume (reply : Reply) (overallVolume : BitVec 32) (items : List Item) :
    visitAll (visitVolume reply) overallVolume items =
      (lastOf cmvo items).elim overallVolume fun item => reply.word item.data := by
  induction items generalizing overallVolume with
  | nil => rfl
  | cons item items ih =>
      rw [visitAll, List.foldl_cons, ← visitAll, ih, visitVolume, Visit.state, lastOf]
      cases lastOf cmvo items with
      | some last => rw [Option.some_or, Option.elim_some, Option.elim_some]
      | none =>
          by_cases htype : item.type = cmvo
          · rw [if_pos htype, if_pos htype, Option.none_or, Option.elim_none, Option.elim_some]
          · rw [if_neg htype, if_neg htype, Option.none_or]

theorem dacpGetClientVolume_cmgt (h : reply.SaysVolume items) :
    ∃ turns₀, ∀ turns ≥ turns₀, dacpGetClientVolume ⟨200, some reply⟩ turns =
      some ⟨200, overallSaid reply items, items, 1⟩ := by
  have henters : Enters (visitVolume reply) (fun _ => false) (fun _ => some 0) :=
    enters_none fun _ _ => ⟨_, rfl⟩
  obtain ⟨⟨turns, hloop⟩, -⟩ :=
    crawlLoop_of_wholeItems henters h.items (rfl : (fun _ => some 0) (-1 : BitVec 32) = _) h.length
  refine ⟨turns, fun more hmore => ?_⟩
  simp only [dacpGetClientVolume, if_pos, Response.crawl]
  rw [crawlReply_eq h.length, if_pos h.size_le, if_pos h.cmgt, crawlLoop_mono hmore hloop,
    visitAll_visitVolume]
  rfl

theorem forall₂_entries {list : SpeakerList}
    (h : list.Exact ⟨200, some reply⟩ 50 items) (hresponse : list.response = 200) :
    List.Forall₂ (SpeakerStuff.Holds reply) (containersOf items) list.entries := by
  have hcount : (list.actualSpeakerCount.getD 0).toNat = (containersOf items).length := by
    rw [h.count hresponse]
    rfl
  rw [SpeakerList.entries, hcount, List.forall₂_iff_get]
  refine ⟨by rw [List.length_map, List.length_range], fun i hi _ => ?_⟩
  rw [List.get_eq_getElem, List.get_eq_getElem, List.getElem_map, List.getElem_range]
  exact h.entries hresponse reply rfl i _ (List.getElem?_eq_getElem hi)

theorem relativeVolume_eq_relativeSaid
    (h : List.Forall₂ (SpeakerStuff.Holds reply) contents speakers) :
    relativeVolume machineNumber speakers = relativeSaid reply machineNumber contents := by
  rw [relativeVolume, relativeSaid]
  generalize (0 : ℤ) = relative
  induction h generalizing relative with
  | nil => rfl
  | cons hholds _ ih =>
      rw [List.foldl_cons, List.foldl_cons, hholds.number, hholds.volume, ih]
      simp only [Option.some_inj, Option.getD_some]

/-- If its replies can be read, a remote control answers as one that obeys does: with the overall
volume that the one says, and the speakers that the other lists. -/
theorem Remote.Reads.answers (h : remote.Reads clientVolume speakerList)
    (hvolume : clientVolume r = ⟨200, some volumeReply⟩) (hlist : speakerList r = ⟨200, some reply⟩)
    (hvolumeItems : volumeReply.SaysVolume volumeItems) (hlists : reply.Lists 50 items)
    (hsize : 4 + (itemAt 0 reply.body).size.toInt ≤ intMax)
    (hitems : WholeItems isMdcl 50 8 (reply.body.drop 8) items) :
    remote.getClientVolume r = ((200, (overallSaid volumeReply volumeItems).toInt), r) ∧
    ∃ speakers, remote.getSpeakerList r = ((200, speakers), r) ∧
      List.Forall₂ (SpeakerStuff.Holds reply) (containersOf items) speakers ∧
      relativeVolume machineNumber speakers =
        relativeSaid reply machineNumber (containersOf items) := by
  obtain ⟨volume, ⟨volumeTurns, hvolumeRun⟩, hgetVolume⟩ := h.getClientVolume r
  obtain ⟨list, ⟨speakerInfo, turns, hrun⟩, hgetList⟩ := h.getSpeakerList r
  obtain ⟨volumeTurns', hvolumeRun'⟩ := dacpGetClientVolume_cmgt hvolumeItems
  obtain ⟨⟨turns', hrun'⟩, hinside⟩ :=
    dacpGetSpeakerList_casp reply hlists.length hsize hlists.casp hitems speakerInfo
  rw [hvolume] at hvolumeRun
  rw [hlist] at hrun
  obtain rfl := Option.some.inj ((hvolumeRun _ (le_max_left _ _)).symm.trans
    (hvolumeRun' (max volumeTurns volumeTurns') (le_max_right _ _)))
  have hsame := Option.some.inj ((hrun _ (le_max_left _ _)).symm.trans
    (hrun' (max turns turns') (le_max_right _ _)))
  rw [if_pos hlists.containers] at hsame
  have hexact := (exact_iff_lists hlists.length hlists.casp hinside hlists.containers
    speakerInfo).mpr hlists
  rw [← hsame] at hexact
  have hresponse : list.response = 200 := by rw [hsame]
  have hentries := forall₂_entries hexact hresponse
  rw [hresponse] at hgetList
  exact ⟨hgetVolume, _, hgetList, hentries, relativeVolume_eq_relativeSaid hentries⟩

end Replies

def percent (v : ℤ) : Fin 101 := if h : 0 ≤ v ∧ v ≤ 100 then ⟨v.toNat, by omega⟩ else 0

theorem coe_percent {v : ℤ} (hv : 0 ≤ v) (hle : v ≤ 100) : ((percent v : ℕ) : ℤ) = v := by
  rw [percent, dif_pos ⟨hv, hle⟩]
  exact Int.toNat_of_nonneg hv

theorem toInt_percent (k : Fin 101) : (BitVec.ofNat 32 (k : ℕ)).toInt = ((k : ℕ) : ℤ) := by
  revert k
  decide

/-- The entries for this device, with the number 1, and for another one -/
def bothSpeakers (r : Fin 101 × Fin 101 × Fin 101) : List SpeakerStuff :=
  [⟨1, true, BitVec.ofNat 32 (r.2.1 : ℕ), []⟩, ⟨2, true, BitVec.ofNat 32 (r.2.2 : ℕ), []⟩]

/-- A remote control with an overall volume and those of the two speakers -/
def bothRemote : Remote (Fin 101 × Fin 101 × Fin 101) where
  getClientVolume r := ((200, ((r.1 : ℕ) : ℤ)), r)
  getSpeakerList r := ((200, bothSpeakers r), r)
  setIncludeSpeakerVolume number v r :=
    (204, if number = 1 then (percent v, 100, r.2.2) else (percent v, r.2.1, 100))
  setSpeakerVolume number v r :=
    (204, if number = 1 then (r.1, percent v, r.2.2) else (r.1, r.2.1, percent v))

theorem relativeVolume_bothSpeakers (r : Fin 101 × Fin 101 × Fin 101) :
    relativeVolume 1 (bothSpeakers r) = ((r.2.1 : ℕ) : ℤ) :=
  toInt_percent r.2.1

theorem obeys_bothRemote :
    bothRemote.Obeys 1 (fun r => ((r.1 : ℕ) : ℤ)) bothSpeakers where
  getClientVolume_eq _ := rfl
  getSpeakerList_eq _ := rfl
  overall_nonneg r := Int.natCast_nonneg _
  volume_le r := by
    simp only [bothSpeakers, List.forall_mem_cons, toInt_percent, List.not_mem_nil,
      false_implies, implies_true, and_true]
    omega
  overall_include _ _ hv hle := coe_percent hv hle
  relative_include _ _ _ _ := relativeVolume_bothSpeakers _
  overall_set _ _ _ _ := rfl
  relative_set _ _ hv hle := (relativeVolume_bothSpeakers _).trans (coe_percent hv hle)

theorem dacpGetVolume_dacpSetVolume_both :
    if ∃ speaker ∈ bothSpeakers (80, 50, 100), speaker.active = true then
      (dacpGetVolume bothRemote 1 (dacpSetVolume bothRemote 1 30 (80, 50, 100)).2).1 = (200, 30)
    else (dacpSetVolume bothRemote 1 30 (80, 50, 100)).2 = (80, 50, 100) :=
  dacpGetVolume_dacpSetVolume obeys_bothRemote (by decide) (by decide) (by decide)

end Dacp

end ShairportSync
