import ShairportSync.Metadata.Hub
import ShairportSync.Transition.Run

/-!
# What the watchers of the metadata hub see

Beside each value of `metadata_store` is a flag that says whether it has changed since the
watchers ran. A number sets its flag when it changes and leaves it alone when it does not. A
string that is the same as the one stored clears its flag, also where the watchers have not seen
the stored one yet; and four of the flags are not turned off after the watchers have run.
-/

namespace ShairportSync

namespace Metadata

open Player (Bytes)
open Transition

/-- What `string_update` stores for a string: nothing for the empty one. -/
def nonempty (s : Bytes) : Option Bytes := if s = [] then none else some s

theorem stringUpdate_eq (str : Option Bytes) (s : Bytes) :
    stringUpdate str s = (nonempty s, decide (str ≠ nonempty s)) := by
  unfold stringUpdate stringUpdateWithSize nonempty
  cases str with
  | none => by_cases hs : s = [] <;> simp [hs]
  | some old =>
      by_cases hs : s = []
      · simp [hs]
      · by_cases hold : old = s
        · simp [hold, hs]
        · have hdiffers : s.length ≠ old.length ∨ old.take s.length ≠ s := by
            by_contra hsame
            rw [not_or, not_not, not_not] at hsame
            rw [hsame.1, List.take_length] at hsame
            exact hold hsame.2
          simp [hs, hold, hdiffers]

/-! ## The whole store -/

/-- The hub with the picture, and with the fields that `dacp.c` sets or nothing does. -/
structure WatchedHub extends Hub where
  coverArtPathname : Option Bytes
  coverArtPathnameChanged : Bool
  fileKind : Option Bytes
  fileKindChanged : Bool
  itemCompositeId : Bytes
  itemCompositeIdChanged : Bool
  itemCompositeIdIsValid : Bool

/-- The fields of `metadata_bundle` beside which there is a flag. -/
inductive WatchedField where
  | track (f : TrackField)
  | coverArtPathname
  | fileKind
  | itemCompositeId

def WatchedHub.value (h : WatchedHub) : WatchedField → Option (Bytes ⊕ ℕ)
  | .track f => h.metadataStore.stored f
  | .coverArtPathname => h.coverArtPathname.map Sum.inl
  | .fileKind => h.fileKind.map Sum.inl
  | .itemCompositeId =>
      if h.itemCompositeIdIsValid then some (Sum.inl h.itemCompositeId) else none

def MetadataBundle.flag (m : MetadataBundle) : TrackField → Bool
  | .text f => m.textChanged f
  | .songDataKind => m.songDataKind.changed
  | .itemId => m.itemId.changed
  | .songtimeInMilliseconds => m.songtimeInMilliseconds.changed

def WatchedHub.changed (h : WatchedHub) : WatchedField → Bool
  | .track f => h.metadataStore.flag f
  | .coverArtPathname => h.coverArtPathnameChanged
  | .fileKind => h.fileKindChanged
  | .itemCompositeId => h.itemCompositeIdChanged

/-- `run_metadata_watchers`, after the watchers have run. -/
def WatchedHub.runMetadataWatchers (h : WatchedHub) : WatchedHub :=
  { h with
    metadataStore := h.metadataStore.runMetadataWatchers
    coverArtPathnameChanged := false
    fileKindChanged := false
    itemCompositeIdChanged := false }

/-- Metadata that comes in: an item, or a picture. The file a picture is written to depends on the
file system, so its path comes with it. -/
inductive Update where
  | item (item : Item)
  | pict (coverArtCacheDir : Bytes) (pathname : Bytes) (length : ℕ)

def fileScheme : Bytes := [0x66, 0x69, 0x6c, 0x65, 0x3a, 0x2f, 0x2f]

/-- The `uri` of a picture, written into an array of 2048 bytes. -/
def pictureUri (coverArtCacheDir pathname : Bytes) (length : ℕ) : Bytes :=
  if 16 < length ∧ coverArtCacheDir ≠ [] then (fileScheme ++ pathname).take 2047 else []

/-- The `switch` of `metadata_hub_process_metadata`: the hub, and `changed`. -/
def WatchedHub.update (h : WatchedHub) : Update → Option (WatchedHub × Bool)
  | .item (.core item) => (h.processCore item).map fun hub => ({ h with toHub := hub }, false)
  | .item (.ssnc code data length) =>
      let (hub, changed) := h.processSsnc code data length
      some ({ h with toHub := hub }, changed)
  | .pict coverArtCacheDir pathname length =>
      let (str, flag) := stringUpdate h.coverArtPathname
        (pictureUri coverArtCacheDir pathname length)
      some ({ h with coverArtPathname := str, coverArtPathnameChanged := flag }, flag)

def Update.string : Update → Option (WatchedField × Bytes)
  | .item (.core i) => i.code.textField.map fun f =>
      (.track (.text f), strndup i.data i.length)
  | .item (.ssnc code data length) => code.textField.map fun f =>
      (.track (.text f), strndup data length)
  | .pict coverArtCacheDir pathname length =>
      some (.coverArtPathname, pictureUri coverArtCacheDir pathname length)

theorem update_item (h : WatchedHub) (item : Item) :
    h.toHub.processMetadata item = (h.update (.item item)).map fun (h, changed) =>
      (if changed then h.runMetadataWatchers.toHub else h.toHub, changed) := by
  cases item with
  | core item =>
      unfold Hub.processMetadata WatchedHub.update
      dsimp only
      rw [Option.map_map]
      rfl
  | ssnc code data length =>
      unfold Hub.processMetadata WatchedHub.update Hub.modifyEpilog
      dsimp only
      rw [Option.map_some]
      cases (h.processSsnc code data length).2 <;> rfl

/-! ## What an update does to a field -/

section Update

variable {h h' : WatchedHub} {changed : Bool}

/-- How a field may look after an update: as it was, or flagged, or flagged no more because the
string that came in was the one stored. -/
def FieldAfter (u : Update) (h h' : WatchedHub) (f : WatchedField) : Prop :=
  (h'.value f = h.value f ∧ h'.changed f = h.changed f) ∨ h'.changed f = true ∨
    ∃ s, u.string = some (f, s) ∧ h.value f = (nonempty s).map Sum.inl ∧ h'.value f = h.value f

theorem NumberField.update_flag {w : ℕ} (n : NumberField w) (v : BitVec w) :
    (n.update v).1 = n ∨ (n.update v).1.changed = true := by
  unfold NumberField.update
  split
  · exact Or.inr rfl
  · exact Or.inl rfl

/-- A field after its number has come in. -/
theorem updateNumber_fieldAfter {u : Update} {f : WatchedField} {w : ℕ} (n : NumberField w)
    (v : BitVec w) (hvalue : h.value f = n.stored.map fun n => Sum.inr n.toNat)
    (hflag : h.changed f = n.changed)
    (hvalue' : h'.value f = (n.update v).1.stored.map fun n => Sum.inr n.toNat)
    (hflag' : h'.changed f = (n.update v).1.changed) : FieldAfter u h h' f := by
  rcases n.update_flag v with hsame | hset
  · exact Or.inl ⟨by rw [hvalue', hvalue, hsame], by rw [hflag', hflag, hsame]⟩
  · exact Or.inr (Or.inl (hflag'.trans hset))

theorem stringUpdate_flag (str : Option Bytes) (s : Bytes) :
    (stringUpdate str s).2 = true ∨ str = nonempty s ∧ (stringUpdate str s).1 = str := by
  rw [stringUpdate_eq]
  by_cases hsame : str = nonempty s
  · exact Or.inr ⟨hsame, hsame.symm⟩
  · exact Or.inl (decide_eq_true hsame)

/-- The fields of the track after a string of the track has come in. -/
theorem updateText_fieldAfter {u : Update} (f : TextField) (s : Bytes)
    (hstring : u.string = some (.track (.text f), s))
    (hstore : h'.metadataStore = (h.metadataStore.updateText f s).1) (g : TrackField) :
    FieldAfter u h h' (.track g) := by
  unfold FieldAfter WatchedHub.value WatchedHub.changed
  dsimp only
  rw [hstore]
  cases g with
  | songDataKind => exact Or.inl ⟨rfl, rfl⟩
  | itemId => exact Or.inl ⟨rfl, rfl⟩
  | songtimeInMilliseconds => exact Or.inl ⟨rfl, rfl⟩
  | text g =>
      by_cases hg : g = f
      · subst hg
        have hvalue : (h.metadataStore.updateText g s).1.text g =
            (stringUpdate (h.metadataStore.text g) s).1 := Function.update_self g _ _
        have hflag : (h.metadataStore.updateText g s).1.textChanged g =
            (stringUpdate (h.metadataStore.text g) s).2 := Function.update_self g _ _
        rcases stringUpdate_flag (h.metadataStore.text g) s with hchanged | ⟨hsame, hkept⟩
        · exact Or.inr (Or.inl (hflag.trans hchanged))
        · refine Or.inr (Or.inr ⟨s, hstring, congrArg (Option.map Sum.inl) hsame, ?_⟩)
          exact congrArg (Option.map Sum.inl) (hvalue.trans hkept)
      · refine Or.inl ⟨congrArg (Option.map Sum.inl) ?_, ?_⟩
        · exact Function.update_of_ne hg _ _
        · exact Function.update_of_ne hg _ _

theorem processCore_fieldAfter {item : CoreItem} {hub : Hub}
    (hp : h.processCore item = some hub) (g : TrackField) :
    FieldAfter (.item (.core item)) h { h with toHub := hub } (.track g) := by
  cases hf : item.code.textField with
  | some f =>
      rw [processCore_of_textField hf] at hp
      obtain rfl := Option.some.inj hp
      exact updateText_fieldAfter f _ (by rw [Update.string, hf, Option.map_some]) rfl g
  | none =>
      obtain ⟨code, data, length⟩ := item
      cases code with
      | asdk =>
          obtain ⟨v, -, rfl⟩ := Option.map_eq_some_iff.mp hp
          cases g with
          | songDataKind =>
              exact updateNumber_fieldAfter h.metadataStore.songDataKind v rfl rfl rfl rfl
          | _ => exact Or.inl ⟨rfl, rfl⟩
      | mper =>
          obtain ⟨v, -, rfl⟩ := Option.map_eq_some_iff.mp hp
          cases g with
          | itemId =>
              exact updateNumber_fieldAfter h.metadataStore.itemId v rfl rfl rfl rfl
          | _ => exact Or.inl ⟨rfl, rfl⟩
      | astm =>
          obtain ⟨v, -, rfl⟩ := Option.map_eq_some_iff.mp hp
          cases g with
          | songtimeInMilliseconds =>
              exact updateNumber_fieldAfter h.metadataStore.songtimeInMilliseconds v rfl rfl rfl rfl
          | _ => exact Or.inl ⟨rfl, rfl⟩
      | other code =>
          obtain rfl := Option.some.inj hp
          exact Or.inl ⟨rfl, rfl⟩
      | _ => exact absurd hf (Option.some_ne_none _)

theorem processSsnc_fieldAfter (h : WatchedHub) (code : SsncCode) (data : Bytes) (length : ℕ)
    (g : TrackField) :
    FieldAfter (.item (.ssnc code data length)) h
      { h with toHub := (h.processSsnc code data length).1 } (.track g) := by
  cases hf : code.textField with
  | some f =>
      refine updateText_fieldAfter f (strndup data length)
        (by rw [Update.string, hf, Option.map_some]) ?_ g
      cases code <;> first | exact absurd hf.symm (Option.some_ne_none f) | skip
      all_goals
        obtain rfl := Option.some.inj hf
        rfl
  | none =>
      cases code <;> first | exact absurd hf (Option.some_ne_none _) | skip
      all_goals
        exact Or.inl ⟨by cases g <;> rfl, by cases g <;> rfl⟩

theorem update_fieldAfter {u : Update} (hu : h.update u = some (h', changed))
    (f : WatchedField) : FieldAfter u h h' f := by
  cases u with
  | item i =>
      cases i with
      | core item =>
          obtain ⟨hub, hp, heq⟩ := Option.map_eq_some_iff.mp hu
          obtain ⟨rfl, -⟩ := Prod.mk.inj heq
          cases f with
          | track g => exact processCore_fieldAfter hp g
          | _ => exact Or.inl ⟨rfl, rfl⟩
      | ssnc code data length =>
          obtain ⟨rfl, -⟩ := Prod.mk.inj (Option.some.inj hu)
          cases f with
          | track g => exact processSsnc_fieldAfter h code data length g
          | _ => exact Or.inl ⟨rfl, rfl⟩
  | pict coverArtCacheDir pathname length =>
      obtain ⟨rfl, -⟩ := Prod.mk.inj (Option.some.inj hu)
      cases f with
      | coverArtPathname =>
          rcases stringUpdate_flag h.coverArtPathname (pictureUri coverArtCacheDir pathname length)
            with hflag | ⟨hsame, hkept⟩
          · exact Or.inr (Or.inl hflag)
          · exact Or.inr (Or.inr ⟨_, rfl, congrArg (Option.map Sum.inl) hsame,
              congrArg (Option.map Sum.inl) hkept⟩)
      | _ => exact Or.inl ⟨rfl, rfl⟩

end Update

/-! ## Runs of the watchers -/

/-- The hub, and the values that the watchers saw when they ran last. -/
structure Watching where
  hub : WatchedHub
  seen : WatchedField → Option (Bytes ⊕ ℕ)

inductive WatchLabel where
  /-- `metadata_hub_process_metadata` -/
  | processMetadata (u : Update)
  /-- The watchers are run for another part of the program, or because the volume has changed. -/
  | runMetadataWatchers

def Watching.shown (s : Watching) : WatchLabel → Option WatchedHub
  | .processMetadata u => (s.hub.update u).bind fun (h, changed) => if changed then some h else none
  | .runMetadataWatchers => some s.hub

def Watching.step (s : Watching) : WatchLabel → Option Watching
  | .processMetadata u => (s.hub.update u).map fun (h, changed) =>
      if changed then ⟨h.runMetadataWatchers, h.value⟩ else ⟨h, s.seen⟩
  | .runMetadataWatchers => some ⟨s.hub.runMetadataWatchers, s.hub.value⟩

/-- A field with another value than the watchers saw last is flagged. -/
def Watching.Flagged (seen : WatchedField → Option (Bytes ⊕ ℕ)) (h : WatchedHub) : Prop :=
  ∀ f, h.value f ≠ seen f → h.changed f = true

/-- If the step runs the watchers, every field that has changed since they ran last is flagged
when they run, and no field is flagged afterwards. -/
def Announces (s : Watching) (l : WatchLabel) : Prop :=
  ∀ h, s.shown l = some h →
    Watching.Flagged s.seen h ∧ ∀ f, h.runMetadataWatchers.changed f = false

/-- No string comes in that is the same as the one stored while that one is flagged and not what
the watchers saw last. -/
def SparesFlags (s : Watching) : WatchLabel → Prop
  | .processMetadata u =>
      match u.string with
      | some (f, str) =>
          s.hub.value f = (nonempty str).map Sum.inl → s.hub.changed f = true →
            s.hub.value f = s.seen f
      | none => True
  | .runMetadataWatchers => True

instance (s : Watching) : ∀ l, Decidable (SparesFlags s l)
  | .processMetadata u =>
      match h : u.string with
      | some (f, str) =>
          decidable_of_iff (s.hub.value f = (nonempty str).map Sum.inl →
            s.hub.changed f = true → s.hub.value f = s.seen f) (by simp [SparesFlags, h])
      | none => isTrue (by simp [SparesFlags, h])
  | .runMetadataWatchers => isTrue trivial

def keptFlags : List TextField :=
  [.streamType, .framePositionString, .firstFramePositionString, .sortName]

/-- The watchers are not run while one of these flags is set. -/
def AllTurnedOff (s : Watching) (l : WatchLabel) : Prop :=
  ∀ h ∈ s.shown l, ∀ f ∈ keptFlags, h.metadataStore.textChanged f = false

instance (s : Watching) (l : WatchLabel) : Decidable (AllTurnedOff s l) :=
  inferInstanceAs (Decidable (∀ h ∈ s.shown l, _))

def Watching.start : Watching where
  hub :=
    { Hub.empty with
      coverArtPathname := none
      coverArtPathnameChanged := false
      fileKind := none
      fileKindChanged := false
      itemCompositeId := List.replicate 16 0
      itemCompositeIdChanged := false
      itemCompositeIdIsValid := false }
  seen _ := none

section Runs

variable {s t : Watching} {h : WatchedHub} {l : WatchLabel}

theorem value_runMetadataWatchers (h : WatchedHub) (f : WatchedField) :
    h.runMetadataWatchers.value f = h.value f := by
  cases f with
  | track g => cases g <;> rfl
  | _ => rfl

theorem mem_keptFlags_iff {f : TextField} : f ∈ keptFlags ↔ f.isTurnedOff = false := by
  cases f <;> decide

theorem changed_runMetadataWatchers_iff (h : WatchedHub) :
    (∀ f, h.runMetadataWatchers.changed f = false) ↔
      ∀ f ∈ keptFlags, h.metadataStore.textChanged f = false := by
  have htext : ∀ f : TextField, h.runMetadataWatchers.changed (.track (.text f)) =
      (h.metadataStore.textChanged f && !f.isTurnedOff) := fun _ => rfl
  constructor
  · intro hoff f hf
    have hflag := hoff (.track (.text f))
    rwa [htext, mem_keptFlags_iff.mp hf, Bool.not_false, Bool.and_true] at hflag
  · intro hkept f
    cases f with
    | track g =>
        cases g with
        | text g =>
            rw [htext]
            cases hg : g.isTurnedOff with
            | false => rw [hkept g (mem_keptFlags_iff.mpr hg), Bool.false_and]
            | true => rw [Bool.not_true, Bool.and_false]
        | _ => rfl
    | _ => rfl

theorem Watching.Flagged.update {u : Update} {changed : Bool}
    (hflagged : Watching.Flagged s.seen s.hub) (hspares : SparesFlags s (.processMetadata u))
    (hu : s.hub.update u = some (h, changed)) : Watching.Flagged s.seen h := by
  intro f hdiffers
  rcases update_fieldAfter hu f with ⟨hvalue, hflag⟩ | hflag | ⟨str, hstring, hstored, hvalue⟩
  · rw [hflag]
    exact hflagged f (hvalue ▸ hdiffers)
  · exact hflag
  · rw [hvalue] at hdiffers
    unfold SparesFlags at hspares
    dsimp only at hspares
    rw [hstring] at hspares
    exact absurd (hspares hstored (hflagged f hdiffers)) hdiffers

theorem Watching.Flagged.shown (hflagged : Watching.Flagged s.seen s.hub)
    (hspares : SparesFlags s l) (hshown : s.shown l = some h) : Watching.Flagged s.seen h := by
  cases l with
  | processMetadata u =>
      obtain ⟨⟨h', changed⟩, hu, hif⟩ := Option.bind_eq_some_iff.mp hshown
      cases changed with
      | false => exact absurd hif.symm (Option.some_ne_none h)
      | true =>
          obtain rfl := Option.some.inj hif
          exact hflagged.update hspares hu
  | runMetadataWatchers =>
      obtain rfl := Option.some.inj hshown
      exact hflagged

theorem Watching.Flagged.step (hflagged : Watching.Flagged s.seen s.hub)
    (hspares : SparesFlags s l) (hstep : s.step l = some t) :
    Watching.Flagged t.seen t.hub := by
  have hrun : ∀ h : WatchedHub, Watching.Flagged h.value h.runMetadataWatchers :=
    fun h f hdiffers => absurd (value_runMetadataWatchers h f) hdiffers
  cases l with
  | processMetadata u =>
      obtain ⟨⟨h', changed⟩, hu, rfl⟩ := Option.map_eq_some_iff.mp hstep
      cases changed with
      | false => exact hflagged.update hspares hu
      | true => exact hrun h'
  | runMetadataWatchers =>
      obtain rfl := Option.some.inj hstep
      exact hrun s.hub

end Runs

/-- In every run in which no string is repeated before the watchers have seen it, and the watchers
do not run while one of the four flags is set, they see every change flagged and no flag is
left. -/
theorem watchers_see_every_change (labels : List WatchLabel)
    (hconditions : Along Watching.step (fun s l => SparesFlags s l ∧ AllTurnedOff s l) .start
      labels) : Along Watching.step Announces .start labels := by
  refine along_of_step (I := fun s => Watching.Flagged s.seen s.hub) ?_ ?_ ?_ hconditions
  · exact fun s l t hflagged hcondition hstep => hflagged.step hcondition.1 hstep
  · intro s l hflagged hcondition h hshown
    exact ⟨hflagged.shown hcondition.1 hshown,
      (changed_runMetadataWatchers_iff h).mpr (hcondition.2 h hshown)⟩
  · intro f hdiffers
    refine absurd ?_ hdiffers
    cases f with
    | track g => cases g <;> rfl
    | _ => rfl

def packetLabels (items : List CoreItem) : List WatchLabel :=
  (packet [] [] items).map fun item => .processMetadata (.item item)

/-- A name and an artist, and the name again in the next packet. -/
theorem watchers_see_every_change_of_packets :
    Along Watching.step Announces .start
      (packetLabels [⟨.minm, [65], 1⟩, ⟨.asar, [66], 1⟩] ++ packetLabels [⟨.minm, [65], 1⟩]) :=
  watchers_see_every_change _ (by decide +kernel)

/-- A packet in which the same name comes twice, up to its end. -/
def nameTwice : List WatchLabel :=
  [.processMetadata (.item (.ssnc .mdst [] 0)),
    .processMetadata (.item (.core ⟨.minm, [65], 1⟩)),
    .processMetadata (.item (.core ⟨.minm, [65], 1⟩))]

/-- The watchers run at the end of the packet, and the new name is not flagged. -/
theorem watchers_miss_change :
    ¬ ∀ labels : List WatchLabel, Along Watching.step Announces .start labels := by
  intro h
  obtain ⟨t, hrun⟩ := Option.isSome_iff_exists.mp
    (show (run Watching.step .start nameTwice).isSome by decide +kernel)
  have hmissed : ∀ t ∈ run Watching.step .start nameTwice,
      (t.shown (.processMetadata (.item (.ssnc .mden [] 0)))).isSome ∧
        ∀ u ∈ t.shown (.processMetadata (.item (.ssnc .mden [] 0))),
          u.value (.track (.text .trackName)) ≠ t.seen (.track (.text .trackName)) ∧
            u.changed (.track (.text .trackName)) = false := by
    decide +kernel
  obtain ⟨hruns, hnew⟩ := hmissed t hrun
  obtain ⟨u, hu⟩ := Option.isSome_iff_exists.mp hruns
  obtain ⟨hdiffers, hflag⟩ := hnew u hu
  have hannounces : Announces t (.processMetadata (.item (.ssnc .mden [] 0))) :=
    (h (nameTwice ++ [.processMetadata (.item (.ssnc .mden [] 0))])).of_run hrun rfl
  exact Bool.false_ne_true (hflag.symm.trans ((hannounces u hu).1 _ hdiffers))

end Metadata

end ShairportSync
