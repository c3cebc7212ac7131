import ShairportSync.Metadata.Dmap

/-!
# The metadata hub

`metadata_hub_process_metadata` stores the metadata of the track and of the session, and
runs the watchers when something has changed. The items of a metadata packet, between
`mdst` and `mden`, do not run the watchers themselves: they set
`metadata_packet_item_changed`, and `mden` runs the watchers if it is set. Every item that
changes a field sets it, except the song description.

The picture and the volume, which need a file and the configuration, are left out.
-/

namespace ShairportSync

namespace Metadata

open Player (Bytes)

/-! ## Strings -/

/-- `strndup`: the bytes up to the length, or up to a NUL before it. -/
def strndup (data : Bytes) (length : ℕ) : Bytes := (data.take length).takeWhile (· != 0)

/-- `string_update_with_size`, for a string that is not NULL: the stored string, and the
flag. -/
def stringUpdateWithSize (str : Option Bytes) (s : Bytes) (len : ℕ) : Option Bytes × Bool :=
  match str with
  | some old =>
      if len ≠ 0 then
        if len ≠ old.length ∨ old.take len ≠ s.take len then (some (s.take len), true)
        else (some old, false)
      else (none, true)
  | none => if len ≠ 0 then (some (s.take len), true) else (none, false)

def stringUpdate (str : Option Bytes) (s : Bytes) : Option Bytes × Bool :=
  stringUpdateWithSize str s s.length

theorem stringUpdate_snd_eq_true_iff (str : Option Bytes) (s : Bytes) :
    (stringUpdate str s).2 = true ↔ (stringUpdate str s).1 ≠ str := by
  unfold stringUpdate stringUpdateWithSize
  cases str with
  | none =>
      dsimp only
      split_ifs
      · simp
      · simp
  | some old =>
      dsimp only
      rw [List.take_length]
      split_ifs with hlen hdiffers
      · simp
        rintro rfl
        simp at hdiffers
      · simp
      · simp

/-! ## The metadata store -/

/-- The strings of `metadata_bundle` that are set here. -/
inductive TextField where
  | clientIp
  | clientName
  | serverIp
  | streamType
  | progressString
  | framePositionString
  | firstFramePositionString
  | trackName
  | artistName
  | albumArtistName
  | albumName
  | genre
  | comment
  | composer
  | songDescription
  | songAlbumArtist
  | sortName
  | sortArtist
  | sortAlbum
  | sortComposer
deriving DecidableEq

/-- A number of `metadata_bundle`, with its flags. -/
structure NumberField (w : ℕ) where
  value : BitVec w
  changed : Bool
  isValid : Bool
deriving DecidableEq

inductive PlayStatus where
  | notAvailable
  | stopped
  | paused
  | playing
deriving DecidableEq

inductive ActiveState where
  | inactive
  | active
deriving DecidableEq

structure MetadataBundle where
  text : TextField → Option Bytes
  textChanged : TextField → Bool
  itemId : NumberField 64
  songDataKind : NumberField 32
  songtimeInMilliseconds : NumberField 32
  playerState : PlayStatus
  activeState : ActiveState
  playerThreadActive : Bool

structure Hub where
  metadataStore : MetadataBundle
  metadataPacketItemChanged : Bool

def NumberField.update {w : ℕ} (n : NumberField w) (v : BitVec w) : NumberField w × Bool :=
  if v ≠ n.value ∨ n.isValid = false then (⟨v, true, true⟩, true) else (n, false)

def NumberField.stored {w : ℕ} (n : NumberField w) : Option (BitVec w) :=
  if n.isValid then some n.value else none

theorem NumberField.update_snd_eq_true_iff {w : ℕ} (n : NumberField w) (v : BitVec w) :
    (n.update v).2 = true ↔ (n.update v).1.stored ≠ n.stored := by
  unfold NumberField.update NumberField.stored
  cases hvalid : n.isValid with
  | false => simp
  | true =>
      by_cases hv : v = n.value
      · simp [hv, hvalid]
      · simp [hv]

/-- The string is set to the one that comes in; says whether it has changed. -/
def MetadataBundle.updateText (m : MetadataBundle) (f : TextField) (s : Bytes) :
    MetadataBundle × Bool :=
  let (str, flag) := stringUpdate (m.text f) s
  ({ m with
      text := Function.update m.text f str
      textChanged := Function.update m.textChanged f flag }, flag)

/-- The flags that `run_metadata_watchers` turns off. -/
def TextField.isTurnedOff : TextField → Bool
  | .streamType => false
  | .framePositionString => false
  | .firstFramePositionString => false
  | .sortName => false
  | _ => true

/-- `run_metadata_watchers`, after the watchers have run. -/
def MetadataBundle.runMetadataWatchers (m : MetadataBundle) : MetadataBundle :=
  { m with
    textChanged := fun f => m.textChanged f && !f.isTurnedOff
    itemId := { m.itemId with changed := false }
    songDataKind := { m.songDataKind with changed := false }
    songtimeInMilliseconds := { m.songtimeInMilliseconds with changed := false } }

/-! ## Items -/

inductive CoreCode where
  | asdk
  | mper
  | astm
  | asal
  | asar
  | assl
  | ascm
  | asgn
  | minm
  | ascp
  | asdt
  | asaa
  | assn
  | assa
  | assu
  | assc
  | other (code : BitVec 32)
deriving DecidableEq

inductive SsncCode where
  | mdst
  | mden
  | clip
  | snam
  | prgr
  | phbt
  | phb0
  | styp
  | svip
  | abeg
  | aend
  | pres
  | pbeg
  | pend
  | paus
  | other (code : BitVec 32)
deriving DecidableEq

structure CoreItem where
  code : CoreCode
  data : Bytes
  length : ℕ

/-- The string that a code of type 'core' is for. -/
def CoreCode.textField : CoreCode → Option TextField
  | .asal => some .albumName
  | .asar => some .artistName
  | .assl => some .albumArtistName
  | .ascm => some .comment
  | .asgn => some .genre
  | .minm => some .trackName
  | .ascp => some .composer
  | .asdt => some .songDescription
  | .asaa => some .songAlbumArtist
  | .assn => some .sortName
  | .assa => some .sortArtist
  | .assu => some .sortAlbum
  | .assc => some .sortComposer
  | .asdk => none
  | .mper => none
  | .astm => none
  | .other _ => none

def firstByte : Bytes → Option (BitVec 32)
  | a :: _ => some (a.setWidth 32)
  | [] => none

def firstWord : Bytes → Option (BitVec 32)
  | a :: b :: c :: d :: _ => some (ntohl a b c d)
  | _ => none

def firstDoubleWord (data : Bytes) : Option (BitVec 64) := do
  let vl ← firstWord data
  let ul ← firstWord (data.drop 4)
  pure (vl.setWidth 64 <<< 32 + ul.setWidth 64)

/-- A string that has changed sets `metadata_packet_item_changed`, unless it is the song
description. -/
def Hub.processText (h : Hub) (f : TextField) (item : CoreItem) : Hub :=
  let (m, updated) := h.metadataStore.updateText f (strndup item.data item.length)
  { metadataStore := m
    metadataPacketItemChanged :=
      if updated && decide (item.code ≠ .asdt) then true else h.metadataPacketItemChanged }

/-- The case 'core' of `metadata_hub_process_metadata`; there is no result if a number is read
where there is none. -/
def Hub.processCore (h : Hub) (item : CoreItem) : Option Hub :=
  match item.code with
  | .asdk => (firstByte item.data).map fun songDataKind =>
      let (n, updated) := h.metadataStore.songDataKind.update songDataKind
      { metadataStore := { h.metadataStore with songDataKind := n }
        metadataPacketItemChanged := if updated then true else h.metadataPacketItemChanged }
  | .mper => (firstDoubleWord item.data).map fun vl =>
      let (n, updated) := h.metadataStore.itemId.update vl
      { metadataStore := { h.metadataStore with itemId := n }
        metadataPacketItemChanged := if updated then true else h.metadataPacketItemChanged }
  | .astm => (firstWord item.data).map fun ui =>
      let (n, updated) := h.metadataStore.songtimeInMilliseconds.update ui
      { metadataStore := { h.metadataStore with songtimeInMilliseconds := n }
        metadataPacketItemChanged := if updated then true else h.metadataPacketItemChanged }
  | code =>
      match code.textField with
      | some f => some (h.processText f item)
      | none => some h

def SsncCode.textField : SsncCode → Option TextField
  | .clip => some .clientIp
  | .snam => some .clientName
  | .prgr => some .progressString
  | .phbt => some .framePositionString
  | .phb0 => some .firstFramePositionString
  | .styp => some .streamType
  | .svip => some .serverIp
  | _ => none

def Hub.startPacket (h : Hub) : Hub := { h with metadataPacketItemChanged := false }

/-- The case 'ssnc' of `metadata_hub_process_metadata`: the store, and `changed`. -/
def Hub.processSsnc (h : Hub) (code : SsncCode) (data : Bytes) (length : ℕ) : Hub × Bool :=
  match code with
  | .mdst => (h.startPacket, false)
  | .mden => (h, h.metadataPacketItemChanged)
  | .abeg =>
      ({ h with metadataStore := { h.metadataStore with activeState := .active } },
        decide (h.metadataStore.activeState ≠ .active))
  | .aend =>
      ({ h with metadataStore := { h.metadataStore with activeState := .inactive } },
        decide (h.metadataStore.activeState ≠ .inactive))
  | .pres | .pbeg =>
      ({ h with metadataStore :=
          { h.metadataStore with playerState := .playing, playerThreadActive := true } },
        decide (h.metadataStore.playerState ≠ .playing) || !h.metadataStore.playerThreadActive)
  | .pend =>
      ({ h with metadataStore :=
          { h.metadataStore with playerState := .stopped, playerThreadActive := false } },
        decide (h.metadataStore.playerState ≠ .stopped) || h.metadataStore.playerThreadActive)
  | .paus =>
      ({ h with metadataStore := { h.metadataStore with playerState := .paused } },
        decide (h.metadataStore.playerState ≠ .paused))
  | code =>
      match code.textField with
      | some f =>
          let (m, changed) := h.metadataStore.updateText f (strndup data length)
          ({ h with metadataStore := m }, changed)
      | none => (h, false)

inductive Item where
  | core (item : CoreItem)
  | ssnc (code : SsncCode) (data : Bytes) (length : ℕ)

def Hub.modifyEpilog (h : Hub) (modified : Bool) : Hub :=
  if modified then { h with metadataStore := h.metadataStore.runMetadataWatchers } else h

/-- `metadata_hub_process_metadata`: the hub, and whether the watchers are run. -/
def Hub.processMetadata (h : Hub) : Item → Option (Hub × Bool)
  | .core item => (h.processCore item).map fun h => (h.modifyEpilog false, false)
  | .ssnc code data length =>
      let (h, changed) := h.processSsnc code data length
      some (h.modifyEpilog changed, changed)

/-! ## What an item changes -/

/-- The fields of the track that the items of type 'core' are stored in. -/
inductive TrackField where
  | text (f : TextField)
  | songDataKind
  | itemId
  | songtimeInMilliseconds

def MetadataBundle.stored (m : MetadataBundle) : TrackField → Option (Bytes ⊕ ℕ)
  | .text f => (m.text f).map Sum.inl
  | .songDataKind => m.songDataKind.stored.map fun n => Sum.inr n.toNat
  | .itemId => m.itemId.stored.map fun n => Sum.inr n.toNat
  | .songtimeInMilliseconds => m.songtimeInMilliseconds.stored.map fun n => Sum.inr n.toNat

/-- A stored field has another value than before. -/
def Hub.Differs (h h' : Hub) : Prop :=
  ∃ f, h'.metadataStore.stored f ≠ h.metadataStore.stored f

/-- The data has all the bytes of the number that the item is read as. -/
def CoreItem.Readable (item : CoreItem) : Prop :=
  match item.code with
  | .asdk => 1 ≤ item.data.length
  | .mper => 8 ≤ item.data.length
  | .astm => 4 ≤ item.data.length
  | _ => True

/-- The item has been applied to the hub, and gave a stored field another value. -/
def Hub.ChangedBy (h : Hub) (item : CoreItem) : Prop :=
  ∃ h', h.processCore item = some h' ∧ h.Differs h'

/-- The hub after the items have been delivered in turn, and for each of them whether the
watchers were run. -/
def Hub.deliver (h : Hub) : List Item → Option (Hub × List Bool)
  | [] => some (h, [])
  | item :: items => do
      let (h, notified) ← h.processMetadata item
      let (h, rest) ← h.deliver items
      pure (h, notified :: rest)

/-- At some item of the sequence, the condition holds of the hub before it and the item. -/
def AtSomeItem (P : Hub → CoreItem → Prop) : Hub → List CoreItem → Prop
  | _, [] => False
  | h, item :: items =>
      P h item ∨ ∃ h', h.processCore item = some h' ∧ AtSomeItem P h' items

section Items

variable {h h' : Hub} {item : CoreItem}

theorem firstByte_isSome_iff (data : Bytes) : (firstByte data).isSome ↔ 1 ≤ data.length := by
  cases data with
  | nil => simp [firstByte]
  | cons a data => simp [firstByte]

theorem firstWord_isSome_iff (data : Bytes) : (firstWord data).isSome ↔ 4 ≤ data.length := by
  rcases data with _ | ⟨a, _ | ⟨b, _ | ⟨c, _ | ⟨d, data⟩⟩⟩⟩ <;> simp [firstWord]

theorem firstDoubleWord_isSome_iff (data : Bytes) :
    (firstDoubleWord data).isSome ↔ 8 ≤ data.length := by
  have hfirst := firstWord_isSome_iff data
  have hsecond := firstWord_isSome_iff (data.drop 4)
  rw [List.length_drop] at hsecond
  cases hvl : firstWord data with
  | none =>
      rw [hvl] at hfirst
      simp only [firstDoubleWord, hvl]
      simp at hfirst ⊢
      omega
  | some vl =>
      rw [hvl] at hfirst
      cases hul : firstWord (data.drop 4) with
      | none =>
          rw [hul] at hsecond
          simp only [firstDoubleWord, hvl, hul]
          simp at hsecond ⊢
          omega
      | some ul =>
          rw [hul] at hsecond
          simp only [firstDoubleWord, hvl, hul]
          simp at hfirst hsecond ⊢
          omega

theorem processCore_isSome_iff : (h.processCore item).isSome ↔ item.Readable := by
  obtain ⟨code, data, length⟩ := item
  unfold Hub.processCore CoreItem.Readable
  cases code <;> simp [firstByte_isSome_iff, firstWord_isSome_iff, firstDoubleWord_isSome_iff,
    CoreCode.textField]

/-- A numeric item: the flag is set exactly if the stored number changes. -/
theorem differs_number {w : ℕ} (put : NumberField w → MetadataBundle) (n : NumberField w)
    (v : BitVec w) (f : TrackField)
    (hput : ∀ n, (put n).stored f = n.stored.map fun n => Sum.inr n.toNat)
    (hothers : ∀ n n' g, g ≠ f → (put n').stored g = (put n).stored g) :
    (∃ g, (put (n.update v).1).stored g ≠ (put n).stored g) ↔ (n.update v).2 = true := by
  rw [NumberField.update_snd_eq_true_iff]
  constructor
  · rintro ⟨g, hg⟩ heq
    by_cases hgf : g = f
    · subst hgf
      rw [hput, hput, heq] at hg
      exact hg rfl
    · exact hg (hothers _ _ g hgf)
  · intro hne
    refine ⟨f, fun heq => hne ?_⟩
    rw [hput, hput] at heq
    refine Option.map_injective ?_ heq
    exact fun a b hab => BitVec.eq_of_toNat_eq (Sum.inr.inj hab)

theorem differs_text (m : MetadataBundle) (f : TextField) (s : Bytes) :
    (∃ g, (m.updateText f s).1.stored g ≠ m.stored g) ↔ (m.updateText f s).2 = true := by
  have hflag := stringUpdate_snd_eq_true_iff (m.text f) s
  have hself : (m.updateText f s).1.text f = (stringUpdate (m.text f) s).1 :=
    Function.update_self f _ _
  constructor
  · rintro ⟨g, hg⟩
    refine hflag.mpr fun heq => hg ?_
    cases g with
    | text g =>
        refine congrArg (Option.map Sum.inl) ?_
        by_cases hgf : g = f
        · subst hgf
          rw [hself, heq]
        · exact Function.update_of_ne hgf _ _
    | songDataKind => rfl
    | itemId => rfl
    | songtimeInMilliseconds => rfl
  · intro hupdated
    refine ⟨.text f, fun heq => hflag.mp hupdated ?_⟩
    rw [← hself]
    exact Option.map_injective Sum.inl_injective heq

theorem processCore_of_textField {f : TextField} (hf : item.code.textField = some f) :
    h.processCore item = some (h.processText f item) := by
  obtain ⟨code, data, length⟩ := item
  cases code with
  | asdk => exact absurd hf.symm (Option.some_ne_none f)
  | mper => exact absurd hf.symm (Option.some_ne_none f)
  | astm => exact absurd hf.symm (Option.some_ne_none f)
  | other code => exact absurd hf.symm (Option.some_ne_none f)
  | _ =>
      obtain rfl := Option.some.inj hf
      rfl

/-- The flag after an item that updates a field. -/
theorem flag_eq_true_iff {updated flag : Bool} {differs announced : Prop} [Decidable announced]
    (hdiffers : differs ↔ updated = true) :
    (if updated && decide announced then true else flag) = true ↔
      flag = true ∨ (differs ∧ announced) := by
  rw [hdiffers]
  cases updated <;> by_cases hannounced : announced <;> simp [hannounced]

/-- An item that changes a field sets `metadata_packet_item_changed`, unless it is the song
description. -/
theorem processCore_changed_iff (hp : h.processCore item = some h') :
    h'.metadataPacketItemChanged = true ↔
      h.metadataPacketItemChanged = true ∨ (h.Differs h' ∧ item.code ≠ .asdt) := by
  have hnumber : ∀ {updated : Bool} {differs : Prop}, (differs ↔ updated = true) →
      item.code ≠ .asdt → ((if updated then true else h.metadataPacketItemChanged) = true ↔
        h.metadataPacketItemChanged = true ∨ (differs ∧ item.code ≠ .asdt)) := by
    intro updated differs hdiffers hcode
    rw [hdiffers]
    cases updated <;> simp [hcode]
  cases hf : item.code.textField with
  | some f =>
      rw [processCore_of_textField hf] at hp
      obtain rfl := Option.some.inj hp
      exact flag_eq_true_iff (differs_text h.metadataStore f _)
  | none =>
      obtain ⟨code, data, length⟩ := item
      cases code with
      | asdk =>
          obtain ⟨v, -, rfl⟩ := Option.map_eq_some_iff.mp hp
          refine hnumber (differs_number (fun n => { h.metadataStore with songDataKind := n })
            h.metadataStore.songDataKind v .songDataKind (fun _ => rfl) ?_) CoreCode.noConfusion
          rintro n n' (g | _ | _ | _) hg
          all_goals first | rfl | exact absurd rfl hg
      | mper =>
          obtain ⟨v, -, rfl⟩ := Option.map_eq_some_iff.mp hp
          refine hnumber (differs_number (fun n => { h.metadataStore with itemId := n })
            h.metadataStore.itemId v .itemId (fun _ => rfl) ?_) CoreCode.noConfusion
          rintro n n' (g | _ | _ | _) hg
          all_goals first | rfl | exact absurd rfl hg
      | astm =>
          obtain ⟨v, -, rfl⟩ := Option.map_eq_some_iff.mp hp
          refine hnumber
            (differs_number (fun n => { h.metadataStore with songtimeInMilliseconds := n })
              h.metadataStore.songtimeInMilliseconds v .songtimeInMilliseconds (fun _ => rfl) ?_)
            CoreCode.noConfusion
          rintro n n' (g | _ | _ | _) hg
          all_goals first | rfl | exact absurd rfl hg
      | other code =>
          obtain rfl := Option.some.inj hp
          refine ⟨Or.inl, fun hchanged => hchanged.elim id ?_⟩
          rintro ⟨⟨f, hne⟩, -⟩
          exact absurd rfl hne
      | _ => exact absurd hf (Option.some_ne_none _)

end Items

/-! ## Packets -/

/-- A metadata packet: `mdst`, items of type 'core', `mden`. -/
def packet (mdst mden : Bytes) (items : List CoreItem) : List Item :=
  .ssnc .mdst mdst mdst.length :: (items.map .core ++ [.ssnc .mden mden mden.length])

/-- The items are all applied, no watcher is run before `mden`, and at `mden` they are run exactly
if some item gave a stored field another value than it had just before. -/
def NotifiesExactlyOnChange (h : Hub) (mdst mden : Bytes) (items : List CoreItem) : Prop :=
  ∃ h' notified, h.deliver (packet mdst mden items) =
      some (h', false :: (List.replicate items.length false ++ [notified])) ∧
    (notified = true ↔ AtSomeItem Hub.ChangedBy h.startPacket items)

/-- Every number can be read, and if the song description changes, so does another field. -/
structure PacketCondition (h : Hub) (items : List CoreItem) : Prop where
  readable : ∀ item ∈ items, item.Readable
  announced : AtSomeItem (fun h item => h.ChangedBy item ∧ item.code = .asdt) h.startPacket items →
    AtSomeItem (fun h item => h.ChangedBy item ∧ item.code ≠ .asdt) h.startPacket items

section Packets

variable {h h' : Hub} {P Q : Hub → CoreItem → Prop} {items : List CoreItem}

theorem AtSomeItem.mono (hPQ : ∀ h item, P h item → Q h item) (hP : AtSomeItem P h items) :
    AtSomeItem Q h items := by
  induction items generalizing h with
  | nil => exact hP
  | cons item items ih =>
      rcases hP with hP | ⟨h', hp, hP⟩
      · exact Or.inl (hPQ h item hP)
      · exact Or.inr ⟨h', hp, ih hP⟩

theorem atSomeItem_or (h : Hub) (items : List CoreItem) :
    AtSomeItem (fun h item => P h item ∨ Q h item) h items ↔
      AtSomeItem P h items ∨ AtSomeItem Q h items := by
  constructor
  · intro hPQ
    induction items generalizing h with
    | nil => exact hPQ.elim
    | cons item items ih =>
        rcases hPQ with (hP | hQ) | ⟨h', hp, hPQ⟩
        · exact Or.inl (Or.inl hP)
        · exact Or.inr (Or.inl hQ)
        · exact (ih h' hPQ).imp (fun hP => Or.inr ⟨h', hp, hP⟩) fun hQ => Or.inr ⟨h', hp, hQ⟩
  · rintro (hP | hQ)
    · exact hP.mono fun _ _ => Or.inl
    · exact hQ.mono fun _ _ => Or.inr

/-- An item changes a field as the song description or as another. -/
theorem atSomeItem_changedBy_iff (h : Hub) (items : List CoreItem) :
    AtSomeItem Hub.ChangedBy h items ↔
      AtSomeItem (fun h item => h.ChangedBy item ∧ item.code ≠ .asdt) h items ∨
        AtSomeItem (fun h item => h.ChangedBy item ∧ item.code = .asdt) h items := by
  rw [← atSomeItem_or]
  constructor
  · refine AtSomeItem.mono fun h item hchanged => ?_
    by_cases hcode : item.code = .asdt
    · exact Or.inr ⟨hchanged, hcode⟩
    · exact Or.inl ⟨hchanged, hcode⟩
  · exact AtSomeItem.mono fun h item hchanged => hchanged.elim And.left And.left

theorem deliver_core_cons (h : Hub) (item : CoreItem) (rest : List Item) :
    h.deliver (.core item :: rest) = (h.processCore item).bind fun h' =>
      (h'.deliver rest).map fun out => (out.1, false :: out.2) := by
  cases hp : h.processCore item with
  | none => simp [Hub.deliver, Hub.processMetadata, hp]
  | some h' => simp [Hub.deliver, Hub.processMetadata, hp, Hub.modifyEpilog, Option.map_eq_bind]

/-- The items of a packet, and what comes after them: if they can all be read, the flag then says
whether one of them other than the song description has changed a field. -/
theorem deliver_items (h : Hub) (rest : List Item) (hreadable : ∀ item ∈ items, item.Readable) :
    ∃ h' : Hub, h.deliver (items.map .core ++ rest) =
        (h'.deliver rest).map (fun out => (out.1, List.replicate items.length false ++ out.2)) ∧
      (h'.metadataPacketItemChanged = true ↔ h.metadataPacketItemChanged = true ∨
        AtSomeItem (fun h item => h.ChangedBy item ∧ item.code ≠ .asdt) h items) := by
  induction items generalizing h with
  | nil => exact ⟨h, by simp, by simp [AtSomeItem]⟩
  | cons item items ih =>
      obtain ⟨h₁, hp⟩ := Option.isSome_iff_exists.mp
        ((processCore_isSome_iff (h := h)).mpr (hreadable item List.mem_cons_self))
      obtain ⟨h₂, hdeliver, hflag⟩ := ih h₁ fun item' hitem' =>
        hreadable item' (List.mem_cons_of_mem item hitem')
      refine ⟨h₂, ?_, ?_⟩
      · rw [List.map_cons, List.cons_append, deliver_core_cons, hp, Option.bind_some, hdeliver,
          Option.map_map]
        rfl
      · rw [hflag, processCore_changed_iff hp, or_assoc]
        refine or_congr_right (or_congr ?_ ?_)
        · refine and_congr_left fun _ => ⟨fun hdiffers => ⟨h₁, hp, hdiffers⟩, ?_⟩
          rintro ⟨h', hp', hdiffers⟩
          rwa [Option.some.inj (hp.symm.trans hp')]
        · constructor
          · exact fun hrest => ⟨h₁, hp, hrest⟩
          · rintro ⟨h', hp', hrest⟩
            rwa [Option.some.inj (hp.symm.trans hp')]

theorem readable_of_deliver {rest : List Item} {out : Hub × List Bool}
    (hdeliver : h.deliver (items.map .core ++ rest) = some out) :
    ∀ item ∈ items, item.Readable := by
  induction items generalizing h out with
  | nil => exact fun item hitem => absurd hitem List.not_mem_nil
  | cons item items ih =>
      rw [List.map_cons, List.cons_append, deliver_core_cons] at hdeliver
      obtain ⟨h₁, hp, hdeliver⟩ := Option.bind_eq_some_iff.mp hdeliver
      obtain ⟨out', hdeliver', -⟩ := Option.map_eq_some_iff.mp hdeliver
      intro item' hitem'
      rcases List.mem_cons.mp hitem' with rfl | hitem'
      · exact processCore_isSome_iff.mp (Option.isSome_iff_exists.mpr ⟨h₁, hp⟩)
      · exact ih hdeliver' item' hitem'

theorem deliver_packet (h : Hub) (mdst mden : Bytes) (items : List CoreItem) :
    h.deliver (packet mdst mden items) =
      (h.startPacket.deliver (items.map .core ++ [.ssnc .mden mden mden.length])).map
        fun out => (out.1, false :: out.2) := by
  simp [packet, Hub.deliver, Hub.processMetadata, Hub.processSsnc, Hub.modifyEpilog,
    Option.map_eq_bind]

theorem deliver_mden (h : Hub) (mden : Bytes) :
    h.deliver [.ssnc .mden mden mden.length] =
      some (h.modifyEpilog h.metadataPacketItemChanged, [h.metadataPacketItemChanged]) := rfl

/-- At the end of a packet that can be read, the watchers are run exactly if an item other than
the song description has changed a field. -/
theorem deliver_packet_of_readable (h : Hub) (mdst mden : Bytes)
    (hreadable : ∀ item ∈ items, item.Readable) :
    ∃ h' notified, h.deliver (packet mdst mden items) =
        some (h', false :: (List.replicate items.length false ++ [notified])) ∧
      (notified = true ↔
        AtSomeItem (fun h item => h.ChangedBy item ∧ item.code ≠ .asdt) h.startPacket items) := by
  obtain ⟨h₁, hdeliver, hflag⟩ :=
    deliver_items h.startPacket [.ssnc .mden mden mden.length] hreadable
  refine ⟨h₁.modifyEpilog h₁.metadataPacketItemChanged, h₁.metadataPacketItemChanged, ?_, ?_⟩
  · rw [deliver_packet, hdeliver, deliver_mden]
    rfl
  · rw [hflag]
    exact or_iff_right Bool.false_ne_true

end Packets

/-- The hub notifies its watchers of a packet exactly on change, exactly if its numbers can be read
and the song description does not change alone. -/
theorem notifiesExactlyOnChange_iff (h : Hub) (mdst mden : Bytes) (items : List CoreItem) :
    NotifiesExactlyOnChange h mdst mden items ↔ PacketCondition h items := by
  constructor
  · rintro ⟨h', notified, hdeliver, hnotified⟩
    have hreadable : ∀ item ∈ items, item.Readable := by
      rw [deliver_packet] at hdeliver
      obtain ⟨out, hout, -⟩ := Option.map_eq_some_iff.mp hdeliver
      exact readable_of_deliver hout
    refine ⟨hreadable, fun hdescription => ?_⟩
    obtain ⟨h₁, notified', hdeliver', hnotified'⟩ :=
      deliver_packet_of_readable h mdst mden hreadable
    have hsame : notified = notified' := by
      have hruns := (Prod.mk.inj (Option.some.inj (hdeliver.symm.trans hdeliver'))).2
      simpa using hruns
    rw [← hnotified', ← hsame, hnotified]
    exact (atSomeItem_changedBy_iff _ _).mpr (Or.inr hdescription)
  · rintro ⟨hreadable, hannounced⟩
    obtain ⟨h', notified, hdeliver, hnotified⟩ := deliver_packet_of_readable h mdst mden hreadable
    refine ⟨h', notified, hdeliver, ?_⟩
    rw [hnotified, atSomeItem_changedBy_iff]
    exact ⟨Or.inl, fun hchanged => hchanged.elim id hannounced⟩

def Hub.empty : Hub where
  metadataStore :=
    { text := fun _ => none
      textChanged := fun _ => false
      itemId := ⟨0, false, false⟩
      songDataKind := ⟨0, false, false⟩
      songtimeInMilliseconds := ⟨0, false, false⟩
      playerState := .notAvailable
      activeState := .inactive
      playerThreadActive := false }
  metadataPacketItemChanged := false

/-- A packet with a song description alone: it is stored, and no watcher is run. -/
theorem songDescription_not_notified :
    ¬ ∀ (h : Hub) (mdst mden : Bytes) (items : List CoreItem),
      NotifiesExactlyOnChange h mdst mden items := by
  intro h
  obtain ⟨h', notified, hdeliver, hnotified⟩ := h .empty [] [] [⟨.asdt, [72, 105], 2⟩]
  have hsilent : notified = false :=
    List.head_eq_of_cons_eq (List.tail_eq_of_cons_eq (List.tail_eq_of_cons_eq
      (Prod.mk.inj (Option.some.inj hdeliver)).2)) |>.symm
  rw [hsilent] at hnotified
  refine Bool.false_ne_true (hnotified.mpr (Or.inl ⟨_, rfl, .text .songDescription, ?_⟩))
  decide

end Metadata

end ShairportSync
