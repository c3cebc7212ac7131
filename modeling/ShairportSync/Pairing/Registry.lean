import ShairportSync.Pairing.Tlv
import ShairportSync.Transition.Run
import Mathlib.Data.List.TakeWhile
import Mathlib.Logic.Function.Basic

/-!
# The pairings

Controllers add and remove pairings, and ask for a list of them. The pairings are a linked list,
the latest in front; it stands for a map from the ids of the devices to their public keys.

Between two pairings of the list that is sent there is a separator, which is an empty value. The
size of the list leaves the separators out.
-/

namespace ShairportSync

namespace Pairing

open Player (Bytes)
open Transition

/-! ## The code -/

def tlvTypeIdentifier : BitVec 8 := 1

def tlvTypePublicKey : BitVec 8 := 3

def tlvTypeState : BitVec 8 := 6

def tlvTypeError : BitVec 8 := 7

def tlvTypePermissions : BitVec 8 := 11

def tlvTypeSeparator : BitVec 8 := 255

abbrev deviceIdLenMax : ℕ := 64

abbrev requestBufsize : ℕ := 4096

/-- `char device_id[PAIR_AP_DEVICE_ID_LEN_MAX]`, up to the NUL -/
@[ext]
structure DeviceId where
  chars : Bytes
  noNul : (0 : BitVec 8) ∉ chars
  length_lt : chars.length < deviceIdLenMax
deriving DecidableEq

/-- The value is copied into a buffer that has been cleared. -/
def DeviceId.ofValue (value : Bytes) (h : value.length < deviceIdLenMax) : DeviceId where
  chars := value.takeWhile (· ≠ 0)
  noNul := fun hmem => by simpa using List.mem_takeWhile_imp hmem
  length_lt := lt_of_le_of_lt (List.takeWhile_sublist _).length_le h

abbrev PublicKey := { key : Bytes // key.length = 32 }

structure PairedDevice where
  deviceId : DeviceId
  publicKey : PublicKey
deriving DecidableEq

/-- `pairings` and what `next` leads to -/
abbrev Pairings := List PairedDevice

def pairingFind (pairings : Pairings) (deviceId : DeviceId) : Option PairedDevice :=
  pairings.find? fun pairing => pairing.deviceId = deviceId

def pairingAdd (pairings : Pairings) (publicKey : PublicKey) (deviceId : DeviceId) : Pairings :=
  ⟨deviceId, publicKey⟩ :: pairings

/-- `pairing_remove` of the pairing that has been found -/
def pairingRemove (pairings : Pairings) (deviceId : DeviceId) : Pairings :=
  pairings.eraseP fun pairing => pairing.deviceId = deviceId

/-- The key is copied into the pairing that has been found. -/
def replaceKey (publicKey : PublicKey) (deviceId : DeviceId) : Pairings → Pairings
  | [] => []
  | pairing :: pairings =>
      if pairing.deviceId = deviceId then { pairing with publicKey := publicKey } :: pairings
      else pairing :: replaceKey publicKey deviceId pairings

/-- `pairing_add_cb`, unless it reads the key from `NULL` -/
def pairingAddCb (pairings : Pairings) (publicKey : Option PublicKey) (deviceId : DeviceId) :
    Option Pairings :=
  publicKey.map fun publicKey =>
    if (pairingFind pairings deviceId).isSome then replaceKey publicKey deviceId pairings
    else pairingAdd pairings publicKey deviceId

def pairingRemoveCb (pairings : Pairings) (deviceId : DeviceId) : Pairings :=
  if (pairingFind pairings deviceId).isSome then pairingRemove pairings deviceId else pairings

/-- What `server_add_remove_request` takes as the key -/
def requestKey (request : PairTlvValues) : Option PublicKey :=
  (pairTlvGetValue request tlvTypePublicKey).bind fun pk =>
    if h : pk.value.length = 32 then some ⟨pk.value, h⟩ else none

/-- What `server_add_remove_request` calls `cb` with, unless it returns -1 -/
def serverAddRemoveRequest (request : PairTlvValues) : Option (Option PublicKey × DeviceId) :=
  if (pairTlvGetValue request tlvTypeError).isSome then none
  else
    (pairTlvGetValue request tlvTypeIdentifier).bind fun deviceId =>
      if h : deviceId.value.length < deviceIdLenMax then
        some (requestKey request, .ofValue deviceId.value h)
      else none

inductive PairResponse where
  | content (body : Bytes)
  | code451
deriving DecidableEq

/-- What is made of the formatted values: the first `data_len` bytes of what has been written. There
is nothing if more has been written than there is room for. -/
def formattedResponse (response : PairTlvValues) : Option PairResponse :=
  let formatted := pairTlvFormat response requestBufsize
  if formatted.ret < 0 then some .code451
  else if requestBufsize < formatted.written.length then none
  else some (.content (formatted.written.take formatted.size))

def serverAddRemoveResponse : Option PairResponse :=
  formattedResponse (pairTlvAddValue [] tlvTypeState [2])

def serverListCb (response : PairTlvValues) (pairing : PairedDevice) : PairTlvValues :=
  let response :=
    if (pairTlvGetValue response tlvTypeIdentifier).isSome then
      pairTlvAddValue response tlvTypeSeparator []
    else response
  let response := pairTlvAddValue response tlvTypeIdentifier pairing.deviceId.chars
  let response := pairTlvAddValue response tlvTypePublicKey pairing.publicKey
  pairTlvAddValue response tlvTypePermissions [1]

/-- The values of `server_list_response`, with the calls that `pairing_list_cb` makes -/
def listedValues (pairings : Pairings) : PairTlvValues :=
  pairings.foldl serverListCb (pairTlvAddValue [] tlvTypeState [2])

inductive PairRequest where
  | add (content : Bytes)
  | remove (content : Bytes)
  | list
deriving DecidableEq

/-- `handle_pair_add`, `handle_pair_remove` or `handle_pair_list`: the pairings, and the response.
There are none if the content is not parsed to an end, a key is read from `NULL`, or a response is
written behind its buffer. -/
def handle (pairings : Pairings) : PairRequest → Option (Pairings × PairResponse)
  | .add content =>
      (parsedValues content).bind fun request =>
        match serverAddRemoveRequest request with
        | none => some (pairings, .code451)
        | some (publicKey, deviceId) =>
            (pairingAddCb pairings publicKey deviceId).bind fun pairings =>
              serverAddRemoveResponse.map fun response => (pairings, response)
  | .remove content =>
      (parsedValues content).bind fun request =>
        match serverAddRemoveRequest request with
        | none => some (pairings, .code451)
        | some (_, deviceId) =>
            serverAddRemoveResponse.map fun response =>
              (pairingRemoveCb pairings deviceId, response)
  | .list => (formattedResponse (listedValues pairings)).map fun response => (pairings, response)

def step (pairings : Pairings) (request : PairRequest) : Option Pairings :=
  (handle pairings request).map Prod.fst

/-! ## The map -/

/-- What a request says about a device: the key that it has from now on -/
def PairRequest.effect : PairRequest → Option (DeviceId × Option PublicKey)
  | .add content =>
      ((parsedValues content).bind serverAddRemoveRequest).map fun (publicKey, deviceId) =>
        (deviceId, publicKey)
  | .remove content =>
      ((parsedValues content).bind serverAddRemoveRequest).map fun (_, deviceId) =>
        (deviceId, none)
  | .list => none

/-- A map from devices to keys after an effect -/
def affect (keys : DeviceId → Option PublicKey) :
    Option (DeviceId × Option PublicKey) → DeviceId → Option PublicKey
  | none => keys
  | some (deviceId, publicKey) => Function.update keys deviceId publicKey

def keysAfter (requests : List PairRequest) : DeviceId → Option PublicKey :=
  requests.foldl (fun keys request => affect keys request.effect) fun _ => none

def keyOf (pairings : Pairings) (deviceId : DeviceId) : Option PublicKey :=
  (pairingFind pairings deviceId).map PairedDevice.publicKey

/-- No device has two pairings. -/
def Distinct (pairings : Pairings) : Prop := (pairings.map PairedDevice.deviceId).Nodup

theorem keyOf_cons (pairing : PairedDevice) (pairings : Pairings) (deviceId : DeviceId) :
    keyOf (pairing :: pairings) deviceId =
      if pairing.deviceId = deviceId then some pairing.publicKey else keyOf pairings deviceId := by
  rw [keyOf, pairingFind, List.find?_cons]
  by_cases h : pairing.deviceId = deviceId
  · simp [h]
  · simp [h, keyOf, pairingFind]

theorem keyOf_eq_none_iff {pairings : Pairings} {deviceId : DeviceId} :
    keyOf pairings deviceId = none ↔ deviceId ∉ pairings.map PairedDevice.deviceId := by
  rw [keyOf, Option.map_eq_none_iff, pairingFind, List.find?_eq_none, List.mem_map]
  simp

theorem isSome_pairingFind_iff {pairings : Pairings} {deviceId : DeviceId} :
    (pairingFind pairings deviceId).isSome ↔
      deviceId ∈ pairings.map PairedDevice.deviceId := by
  rw [← not_iff_not, ← keyOf_eq_none_iff, keyOf, Option.map_eq_none_iff,
    Option.not_isSome_iff_eq_none]

theorem map_deviceId_replaceKey (publicKey : PublicKey) (deviceId : DeviceId)
    (pairings : Pairings) :
    (replaceKey publicKey deviceId pairings).map PairedDevice.deviceId =
      pairings.map PairedDevice.deviceId := by
  induction pairings with
  | nil => rfl
  | cons pairing pairings ih =>
      rw [replaceKey]
      split
      · rfl
      · rw [List.map_cons, List.map_cons, ih]

theorem keyOf_replaceKey {pairings : Pairings} {deviceId : DeviceId} (publicKey : PublicKey)
    (h : deviceId ∈ pairings.map PairedDevice.deviceId) :
    keyOf (replaceKey publicKey deviceId pairings) =
      Function.update (keyOf pairings) deviceId (some publicKey) := by
  funext other
  induction pairings with
  | nil => cases h
  | cons pairing pairings ih =>
      rw [replaceKey]
      by_cases hfirst : pairing.deviceId = deviceId
      · rw [if_pos hfirst, keyOf_cons, hfirst, Function.update_apply, keyOf_cons, hfirst]
        by_cases hother : deviceId = other
        · rw [if_pos hother, if_pos hother.symm]
        · rw [if_neg hother, if_neg (Ne.symm hother), if_neg hother]
      · rw [if_neg hfirst, keyOf_cons,
          ih ((List.mem_cons.mp h).resolve_left (Ne.symm hfirst)), Function.update_apply,
          Function.update_apply, keyOf_cons]
        by_cases hother : other = deviceId
        · rw [if_pos hother, if_pos hother, if_neg (fun h => hfirst (h.trans hother))]
        · rw [if_neg hother, if_neg hother]

theorem map_deviceId_pairingRemove_sublist (deviceId : DeviceId) (pairings : Pairings) :
    ((pairingRemove pairings deviceId).map PairedDevice.deviceId).Sublist
      (pairings.map PairedDevice.deviceId) :=
  List.Sublist.map _ List.eraseP_sublist

theorem keyOf_pairingRemove {pairings : Pairings} (hdistinct : Distinct pairings)
    (deviceId : DeviceId) :
    keyOf (pairingRemove pairings deviceId) = Function.update (keyOf pairings) deviceId none := by
  funext other
  induction pairings with
  | nil =>
      rw [Function.update_apply]
      split <;> rfl
  | cons pairing pairings ih =>
      rw [Distinct, List.map_cons, List.nodup_cons] at hdistinct
      rw [pairingRemove, Function.update_apply, keyOf_cons]
      by_cases hfirst : pairing.deviceId = deviceId
      · rw [List.eraseP_cons_of_pos (by simpa using hfirst), hfirst]
        by_cases hother : other = deviceId
        · rw [if_pos hother, keyOf_eq_none_iff, hother, ← hfirst]
          exact hdistinct.1
        · rw [if_neg hother, if_neg (Ne.symm hother)]
      · have hrest := ih hdistinct.2
        rw [pairingRemove, Function.update_apply] at hrest
        rw [List.eraseP_cons_of_neg (by simpa using hfirst), keyOf_cons, hrest]
        by_cases hother : other = deviceId
        · rw [if_pos hother, if_pos hother, if_neg (fun h => hfirst (h.trans hother))]
        · rw [if_neg hother, if_neg hother]

/-! ## What a request does -/

theorem distinct_pairingAddCb {pairings pairings' : Pairings} {publicKey : Option PublicKey}
    {deviceId : DeviceId} (hdistinct : Distinct pairings)
    (h : pairingAddCb pairings publicKey deviceId = some pairings') :
    Distinct pairings' ∧ keyOf pairings' = Function.update (keyOf pairings) deviceId publicKey := by
  obtain ⟨key, rfl, hadded⟩ := Option.map_eq_some_iff.mp h
  by_cases hfound : (pairingFind pairings deviceId).isSome
  · rw [if_pos hfound] at hadded
    rw [← hadded]
    refine ⟨?_, keyOf_replaceKey key (isSome_pairingFind_iff.mp hfound)⟩
    rw [Distinct, map_deviceId_replaceKey]
    exact hdistinct
  · rw [if_neg hfound, pairingAdd] at hadded
    rw [isSome_pairingFind_iff] at hfound
    rw [← hadded]
    refine ⟨List.nodup_cons.mpr ⟨hfound, hdistinct⟩, funext fun other => ?_⟩
    rw [keyOf_cons, Function.update_apply]
    by_cases hother : other = deviceId
    · rw [if_pos hother, if_pos hother.symm]
    · rw [if_neg hother, if_neg (Ne.symm hother)]

theorem distinct_pairingRemoveCb {pairings : Pairings} (hdistinct : Distinct pairings)
    (deviceId : DeviceId) :
    Distinct (pairingRemoveCb pairings deviceId) ∧
      keyOf (pairingRemoveCb pairings deviceId) =
        Function.update (keyOf pairings) deviceId none := by
  rw [pairingRemoveCb]
  by_cases hfound : (pairingFind pairings deviceId).isSome
  · rw [if_pos hfound]
    exact ⟨hdistinct.sublist (map_deviceId_pairingRemove_sublist deviceId pairings),
      keyOf_pairingRemove hdistinct deviceId⟩
  · rw [if_neg hfound]
    rw [isSome_pairingFind_iff, ← keyOf_eq_none_iff] at hfound
    exact ⟨hdistinct, by rw [← hfound, Function.update_eq_self]⟩

theorem step_distinct {pairings pairings' : Pairings} {request : PairRequest}
    (hdistinct : Distinct pairings) (h : step pairings request = some pairings') :
    Distinct pairings' ∧ keyOf pairings' = affect (keyOf pairings) request.effect := by
  obtain ⟨⟨after, response⟩, hhandle, rfl⟩ := Option.map_eq_some_iff.mp h
  cases request with
  | add content =>
      obtain ⟨values, hvalues, hhandle⟩ := Option.bind_eq_some_iff.mp hhandle
      cases hrequest : serverAddRemoveRequest values with
      | none =>
          rw [hrequest] at hhandle
          cases hhandle
          refine ⟨hdistinct, ?_⟩
          rw [PairRequest.effect, hvalues, Option.bind_some, hrequest]
          rfl
      | some arguments =>
          rw [hrequest] at hhandle
          obtain ⟨added, hadded, hhandle⟩ := Option.bind_eq_some_iff.mp hhandle
          obtain ⟨_, -, hafter⟩ := Option.map_eq_some_iff.mp hhandle
          cases hafter
          rw [PairRequest.effect, hvalues, Option.bind_some, hrequest]
          exact distinct_pairingAddCb hdistinct hadded
  | remove content =>
      obtain ⟨values, hvalues, hhandle⟩ := Option.bind_eq_some_iff.mp hhandle
      cases hrequest : serverAddRemoveRequest values with
      | none =>
          rw [hrequest] at hhandle
          cases hhandle
          refine ⟨hdistinct, ?_⟩
          rw [PairRequest.effect, hvalues, Option.bind_some, hrequest]
          rfl
      | some arguments =>
          rw [hrequest] at hhandle
          obtain ⟨_, -, hafter⟩ := Option.map_eq_some_iff.mp hhandle
          cases hafter
          rw [PairRequest.effect, hvalues, Option.bind_some, hrequest]
          exact distinct_pairingRemoveCb hdistinct arguments.2
  | list =>
      obtain ⟨_, -, hafter⟩ := Option.map_eq_some_iff.mp hhandle
      cases hafter
      exact ⟨hdistinct, rfl⟩

theorem distinct_nil : Distinct [] := List.nodup_nil

theorem run_foldl_affect {requests : List PairRequest} {start pairings : Pairings}
    (hstart : Distinct start) (hrun : run step start requests = some pairings) :
    Distinct pairings ∧ keyOf pairings =
      requests.foldl (fun keys request => affect keys request.effect) (keyOf start) := by
  induction requests generalizing start with
  | nil =>
      cases hrun
      exact ⟨hstart, rfl⟩
  | cons request requests ih =>
      obtain ⟨next, hnext, hrun⟩ := Option.bind_eq_some_iff.mp hrun
      obtain ⟨hdistinct, hkeys⟩ := step_distinct hstart hnext
      rw [List.foldl_cons, ← hkeys]
      exact ih hdistinct hrun

/-- The pairings that requests leave are the map that they describe, with one entry for each
device. -/
theorem run_keyOf {requests : List PairRequest} {pairings : Pairings}
    (hrun : run step [] requests = some pairings) :
    Distinct pairings ∧ keyOf pairings = keysAfter requests :=
  run_foldl_affect distinct_nil hrun

/-! ## The list -/

def entry (pairing : PairedDevice) : PairTlvValues :=
  [⟨tlvTypeIdentifier, pairing.deviceId.chars⟩, ⟨tlvTypePublicKey, pairing.publicKey⟩,
    ⟨tlvTypePermissions, [1]⟩]

def separatedEntry (pairing : PairedDevice) : PairTlvValues :=
  ⟨tlvTypeSeparator, []⟩ :: entry pairing

theorem foldl_serverListCb {response : PairTlvValues}
    (h : (pairTlvGetValue response tlvTypeIdentifier).isSome) (pairings : Pairings) :
    pairings.foldl serverListCb response = response ++ pairings.flatMap separatedEntry := by
  induction pairings generalizing response with
  | nil => rw [List.foldl_nil, List.flatMap_nil, List.append_nil]
  | cons pairing pairings ih =>
      have hcb : serverListCb response pairing = response ++ separatedEntry pairing := by
        simp [serverListCb, if_pos h, pairTlvAddValue, separatedEntry, entry]
      have hnext : (pairTlvGetValue (response ++ separatedEntry pairing)
          tlvTypeIdentifier).isSome := by
        rw [pairTlvGetValue, List.find?_append]
        rw [pairTlvGetValue] at h
        rw [Option.isSome_or, h, Bool.true_or]
      rw [List.foldl_cons, hcb, ih hnext, List.flatMap_cons, List.append_assoc]

/-- The entries one after the other, with a separator in front of each but the first -/
theorem listedValues_cons (pairing : PairedDevice) (pairings : Pairings) :
    listedValues (pairing :: pairings) =
      ⟨tlvTypeState, [2]⟩ :: entry pairing ++ pairings.flatMap separatedEntry :=
  @foldl_serverListCb (serverListCb [⟨tlvTypeState, [2]⟩] pairing) rfl pairings

def emptyValues (pairings : Pairings) : ℕ :=
  (pairings.length - 1) + pairings.countP fun pairing => pairing.deviceId.chars = []

theorem countP_separatedEntries (pairings : Pairings) :
    (pairings.flatMap separatedEntry).countP (fun t => t.value = []) =
      pairings.length + pairings.countP fun pairing => pairing.deviceId.chars = [] := by
  induction pairings with
  | nil => rfl
  | cons pairing pairings ih =>
      have hkey : (pairing.publicKey : Bytes) ≠ [] := fun h => by
        have hlength := pairing.publicKey.property
        rw [h] at hlength
        cases hlength
      rw [List.flatMap_cons, List.countP_append, ih, List.countP_cons, List.length_cons]
      simp [separatedEntry, entry, List.countP_cons, hkey]
      omega

theorem countP_listedValues (pairings : Pairings) :
    (listedValues pairings).countP (fun t => t.value = []) = emptyValues pairings := by
  cases pairings with
  | nil => rfl
  | cons pairing pairings =>
      have h := countP_separatedEntries [pairing]
      have hrest := countP_separatedEntries pairings
      rw [listedValues_cons, emptyValues, List.cons_append, List.countP_cons,
        List.countP_append, hrest]
      simp only [List.flatMap_cons, List.flatMap_nil, List.append_nil, separatedEntry,
        List.countP_cons, List.length_cons, List.length_nil, List.countP_nil] at h ⊢
      simp at h ⊢
      omega

theorem countP_empty_le_one {pairings : Pairings} (hdistinct : Distinct pairings) :
    pairings.countP (fun pairing => pairing.deviceId.chars = []) ≤ 1 := by
  have hcount : pairings.countP (fun pairing => pairing.deviceId.chars = []) =
      (pairings.map PairedDevice.deviceId).count ⟨[], List.not_mem_nil, by decide⟩ := by
    rw [List.count, List.countP_map]
    refine List.countP_congr fun pairing _ => ?_
    simp [DeviceId.ext_iff]
  rw [hcount]
  exact List.nodup_iff_count_le_one.mp hdistinct _

def listWritten (pairings : Pairings) : Bytes := (listedValues pairings).flatMap formatValue

theorem length_listWritten (pairings : Pairings) :
    (listWritten pairings).length =
      requiredSize (listedValues pairings) + 2 * emptyValues pairings := by
  rw [listWritten, length_written, countP_listedValues]

theorem formattedResponse_listed (pairings : Pairings) :
    formattedResponse (listedValues pairings) =
      if requestBufsize < requiredSize (listedValues pairings) then some .code451
      else if requestBufsize < (listWritten pairings).length then none
      else some (.content
        ((listWritten pairings).take (requiredSize (listedValues pairings)))) := by
  rw [formattedResponse, pairTlvFormat]
  by_cases h : requestBufsize < requiredSize (listedValues pairings)
  · simp only [if_pos h]
    rfl
  · simp only [if_neg h]
    rfl

/-- Whatever has been added and removed: a list that is sent lacks two bytes at its end for each
separator, and for an id that is empty. It is written behind its buffer exactly if it fits without
them and not with them. -/
theorem handle_list_cut {requests : List PairRequest} {pairings : Pairings}
    (hrun : run step [] requests = some pairings) :
    (∀ body, handle pairings .list = some (pairings, .content body) →
      body = (listWritten pairings).take body.length ∧
        (listWritten pairings).length = body.length + 2 * emptyValues pairings) ∧
    (handle pairings .list = none ↔
      requiredSize (listedValues pairings) ≤ requestBufsize ∧
        requestBufsize < requiredSize (listedValues pairings) + 2 * emptyValues pairings) ∧
    pairings.length ≤ emptyValues pairings + 1 ∧ emptyValues pairings ≤ pairings.length := by
  have hlength := length_listWritten pairings
  have hhandle : handle pairings .list =
      (formattedResponse (listedValues pairings)).map fun response => (pairings, response) := rfl
  rw [hhandle, formattedResponse_listed]
  refine ⟨fun body h => ?_, ?_, ?_⟩
  · split at h
    · cases h
    · split at h
      · cases h
      · cases h
        have htake : ((listWritten pairings).take
            (requiredSize (listedValues pairings))).length =
              requiredSize (listedValues pairings) :=
          List.length_take_of_le (by omega)
        rw [htake]
        exact ⟨rfl, hlength⟩
  · rw [← hlength, Option.map_eq_none_iff]
    split
    · exact ⟨fun h => (by cases h), fun h => by omega⟩
    · split
      · exact ⟨fun _ => by omega, fun _ => rfl⟩
      · exact ⟨fun h => (by cases h), fun h => by omega⟩
  · have hone := countP_empty_le_one (run_foldl_affect distinct_nil hrun).1
    cases pairings with
    | nil => exact ⟨by decide, by decide⟩
    | cons pairing pairings =>
        rw [emptyValues, List.length_cons]
        omega

/-! ## A controller that is understood -/

theorem serverAddRemoveResponse_eq : serverAddRemoveResponse = some (.content [6, 1, 2]) := by
  have hwritten : (pairTlvFormat [⟨tlvTypeState, [2]⟩] requestBufsize) = ⟨0, 3, [6, 1, 2]⟩ := by
    rw [pairTlvFormat, if_neg (by decide)]
    simp [formatValue, formatChunks, requiredSize, tlvTypeState]
  rw [serverAddRemoveResponse, pairTlvAddValue, List.nil_append, formattedResponse, hwritten]
  rfl

def addValues (deviceId : DeviceId) (publicKey : PublicKey) : PairTlvValues :=
  [⟨tlvTypeState, [1]⟩, ⟨tlvTypeIdentifier, deviceId.chars⟩, ⟨tlvTypePublicKey, publicKey⟩]

theorem parsedValues_addValues {deviceId : DeviceId} (hid : deviceId.chars ≠ [])
    (publicKey : PublicKey) :
    parsedValues (pairTlvFormat (addValues deviceId publicKey) requestBufsize).written =
      some (addValues deviceId publicKey) := by
  have hkey := publicKey.property
  have hlength : deviceId.chars.length < 64 := deviceId.length_lt
  have hpos := List.length_pos_iff.mpr hid
  have hrequired : requiredSize (addValues deviceId publicKey) ≤ requestBufsize := by
    simp only [requiredSize, addValues, List.map_cons, List.map_nil, List.sum_cons, List.sum_nil,
      List.length_cons, List.length_nil, hkey, requestBufsize]
    omega
  rw [pairTlvFormat, if_neg (not_lt.mpr hrequired)]
  refine parsedValues_flatMap ?_ ?_
  · simp only [addValues, List.forall_mem_cons, List.not_mem_nil, false_implies, implies_true,
      and_true]
    exact ⟨List.cons_ne_nil _ _, hid, List.ne_nil_of_length_pos (by omega)⟩
  · have hstate : ¬ PairTlv.Continues ⟨tlvTypeState, [1]⟩ ⟨tlvTypeIdentifier, deviceId.chars⟩ :=
      fun h => absurd h.1 (by decide)
    have hnext : ¬ PairTlv.Continues ⟨tlvTypeIdentifier, deviceId.chars⟩
        ⟨tlvTypePublicKey, publicKey⟩ := fun h =>
      absurd (show tlvTypePublicKey = tlvTypeIdentifier from h.2) (by decide)
    exact List.isChain_cons_cons.mpr
      ⟨hstate, List.isChain_cons_cons.mpr ⟨hnext, List.isChain_singleton _⟩⟩

theorem DeviceId.ofValue_chars (deviceId : DeviceId) :
    DeviceId.ofValue deviceId.chars deviceId.length_lt = deviceId := by
  refine DeviceId.ext (List.takeWhile_eq_self_iff.mpr fun c hc => ?_)
  exact decide_eq_true fun h => deviceId.noNul (h ▸ hc)

/-- A device whose id is not empty is added with the key that has been sent. -/
theorem step_addValues (pairings : Pairings) {deviceId : DeviceId} (hid : deviceId.chars ≠ [])
    (publicKey : PublicKey) :
    step pairings (.add (pairTlvFormat (addValues deviceId publicKey) requestBufsize).written) =
      pairingAddCb pairings (some publicKey) deviceId := by
  have hrequestKey : requestKey (addValues deviceId publicKey) = some publicKey :=
    dif_pos publicKey.property
  have hrequest : serverAddRemoveRequest (addValues deviceId publicKey) =
      some (some publicKey, deviceId) := by
    have hfound : pairTlvGetValue (addValues deviceId publicKey) tlvTypeIdentifier =
      some ⟨tlvTypeIdentifier, deviceId.chars⟩ := rfl
    rw [serverAddRemoveRequest, if_neg (by rintro ⟨⟩), hfound, Option.bind_some,
      dif_pos deviceId.length_lt, hrequestKey, DeviceId.ofValue_chars]
  rw [step, handle, parsedValues_addValues hid, Option.bind_some, hrequest]
  simp [serverAddRemoveResponse_eq, pairingAddCb]

def deviceA : DeviceId := ⟨[65], by decide, by decide⟩

def deviceB : DeviceId := ⟨[66], by decide, by decide⟩

def someKey : PublicKey := ⟨List.replicate 32 7, List.length_replicate⟩

def twoRequests : List PairRequest :=
  [.add (pairTlvFormat (addValues deviceA someKey) requestBufsize).written,
    .add (pairTlvFormat (addValues deviceB someKey) requestBufsize).written]

def twoPairings : Pairings := [⟨deviceB, someKey⟩, ⟨deviceA, someKey⟩]

theorem run_twoRequests : run step [] twoRequests = some twoPairings := by
  have hA := @step_addValues [] deviceA (by decide) someKey
  have hB := @step_addValues [⟨deviceA, someKey⟩] deviceB (by decide) someKey
  rw [twoRequests, run_cons, hA, pairingAddCb, Option.map_some, Option.bind_some,
    if_neg (by decide), pairingAdd, run_cons, hB, pairingAddCb, Option.map_some,
    Option.bind_some, if_neg (by decide), pairingAdd, run_nil, twoPairings]

theorem run_keyOf_two : keysAfter twoRequests deviceA = some someKey := by
  rw [← (run_keyOf run_twoRequests).2]
  rfl

/-- The list of two devices is two bytes short. -/
theorem handle_list_cut_two :
    handle twoPairings .list ≠ none ∧
      ∀ body, handle twoPairings .list = some (twoPairings, .content body) →
        (listWritten twoPairings).length = body.length + 2 :=
  ⟨fun h => absurd ((handle_list_cut run_twoRequests).2.1.mp h).2 (by decide),
    fun body h => ((handle_list_cut run_twoRequests).1 body h).2⟩

end Pairing

end ShairportSync
