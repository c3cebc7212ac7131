import ShairportSync.Pairing.Setup

/-!
# Verifying a pairing

`pair_verify` is the same kind of machine as `pair_setup`. The secret is that of a key exchange.
The server is not given a way to look up the key of a controller, so that the signature of the
controller is not verified.
-/

namespace ShairportSync

namespace Pairing

open Player (Bytes)
open Transition

/-- `struct pair_verify_context` of a server, as `handle_pair_verify` makes it, without `get_cb` -/
structure PairVerifyContext where
  status : PairStatus
  clientEphPublicKey : Bytes
  serverEphPublicKey : Bytes
  serverEphPrivateKey : Bytes
  exchanged : Bytes
  sharedSecret : Bytes

/-- The contents of a buffer of 32 bytes that `calloc` has cleared -/
def zeros : Bytes := List.replicate 32 0

namespace PairVerifyContext

def new : PairVerifyContext := ⟨.inProgress, zeros, zeros, zeros, zeros, []⟩

/-- `RETURN_ERROR(PAIR_STATUS_INVALID, ...)` in a request -/
def failed (s : PairVerifyContext) : Bool × PairVerifyContext :=
  (false, { s with status := .invalid })

/-- `RETURN_ERROR(PAIR_STATUS_INVALID, ...)` in a response -/
def noResponse (s : PairVerifyContext) : Option Bytes × PairVerifyContext :=
  (none, { s with status := .invalid })

section Server

variable (c : Crypto) (accessory : Accessory)

def serverVerifyRequest1 (s : PairVerifyContext) (data : Bytes) :
    Option (Bool × PairVerifyContext) :=
  (messageProcess data).map fun
    | none => s.failed
    | some request =>
        match pairTlvGetValue request tlvTypePublicKey with
        | none => s.failed
        | some pk =>
            if pk.value.length = 32 then (true, { s with clientEphPublicKey := pk.value })
            else s.failed

/-- `server_verify_request2`, which does not look up the client -/
def serverVerifyRequest2 (s : PairVerifyContext) (data : Bytes) :
    Option (Bool × PairVerifyContext) :=
  (messageProcess data).bind fun
    | none => some s.failed
    | some request =>
        match pairTlvGetValue request tlvTypeEncryptedData with
        | none => some s.failed
        | some encrypted =>
            if encrypted.value.length < 16 then some s.failed
            else
              match c.decryptChacha (c.hkdfExtractExpand .verifyMsg03 s.exchanged)
                  PairKeys.verifyMsg03.nonce encrypted.value with
              | none => some s.failed
              | some decrypted =>
                  (messageProcess decrypted).map fun
                    | none => s.failed
                    | some request =>
                        match pairTlvGetValue request tlvTypeIdentifier,
                            pairTlvGetValue request tlvTypeSignature with
                        | some _, some signature =>
                            if signature.value.length = 64 then (true, s) else s.failed
                        | _, _ => s.failed

/-- `create_and_sign_accessory_info` -/
def accessoryInfo (serverPk clientPk : Bytes) : Option (Option Bytes) :=
  match createInfo serverPk accessory.deviceId.chars clientPk with
  | none => some none
  | some info =>
      formatted [⟨tlvTypeIdentifier, accessory.deviceId.chars⟩,
        ⟨tlvTypeSignature, c.cryptoSignDetached accessory.privateKey info⟩] requestBufsize

def serverVerifyResponse1 (s : PairVerifyContext) (random : Bytes) :
    Option (Option Bytes × PairVerifyContext) :=
  if s.status = .authFailed then
    (formatted (authFailedValues 2) requestBufsize).map fun out => (out, s)
  else
    let (publicKey, privateKey) := c.cryptoBoxKeypair random
    let (exchanged, ok) := c.cryptoScalarmult s.exchanged privateKey s.clientEphPublicKey
    let s :=
      { s with
        serverEphPublicKey := publicKey
        serverEphPrivateKey := privateKey
        exchanged := exchanged }
    if !ok then some s.noResponse
    else
      (accessoryInfo c accessory publicKey s.clientEphPublicKey).bind fun
        | none => some s.noResponse
        | some data =>
            let encrypted := c.encryptChacha (c.hkdfExtractExpand .verifyMsg02 exchanged)
              PairKeys.verifyMsg02.nonce data
            (formatted [⟨tlvTypeState, [2]⟩, ⟨tlvTypePublicKey, publicKey⟩,
              ⟨tlvTypeEncryptedData, encrypted⟩] requestBufsize).map fun
                | none => s.noResponse
                | some out => (some out, s)

def serverVerifyResponse2 (s : PairVerifyContext) : Option (Option Bytes × PairVerifyContext) :=
  if s.status = .authFailed then
    (formatted (authFailedValues 4) requestBufsize).map fun out => (out, s)
  else
    (formatted [⟨tlvTypeState, [4]⟩] requestBufsize).map fun
      | none => s.noResponse
      | some out => (some out, { s with sharedSecret := s.exchanged, status := .completed })

def pairVerify (s : PairVerifyContext) (data random : Bytes) :
    Option (PairReturn × PairVerifyContext) :=
  (stateGet data).bind fun state =>
    match state with
    | none => some (⟨false, none⟩, s)
    | some 0 => (s.serverVerifyResponse1 c accessory random).map fun (out, s) => (⟨false, out⟩, s)
    | some 1 =>
        answer (s.serverVerifyRequest1 data) fun s => s.serverVerifyResponse1 c accessory random
    | some 2 => answer (s.serverVerifyRequest1 data) serverVerifyResponse2
    | some 3 => answer (s.serverVerifyRequest2 c data) serverVerifyResponse2
    | some 4 => (s.serverVerifyRequest2 c data).map fun (_, s) => (⟨false, none⟩, s)
    | some _ => some (⟨false, none⟩, s)

end Server

variable {c : Crypto} {accessory : Accessory} {s : PairVerifyContext} {data random : Bytes}

theorem serverVerifyResponse2_eq (h : s.status ≠ .authFailed) :
    ∃ out, s.serverVerifyResponse2 =
      some (some out, { s with sharedSecret := s.exchanged, status := .completed }) := by
  refine ⟨[⟨tlvTypeState, [4]⟩].flatMap formatValue, ?_⟩
  have hempty : ∀ t ∈ ([⟨tlvTypeState, [4]⟩] : PairTlvValues), t.value ≠ [] := by decide
  rw [serverVerifyResponse2, if_neg h, formatted_of_le (by decide) hempty, Option.map_some]

/-- A message that says it is the second one completes the verification with what has been exchanged
so far. -/
theorem pairVerify_second {request : PairTlvValues} {pk : PairTlv} (h : s.status ≠ .authFailed)
    (hdata : HasState data 2 request) (hpk : pairTlvGetValue request tlvTypePublicKey = some pk)
    (hlength : pk.value.length = 32) :
    ∃ out, s.pairVerify c accessory data random =
      some (⟨true, some out⟩,
        { s with
          clientEphPublicKey := pk.value
          sharedSecret := s.exchanged
          status := .completed }) := by
  obtain ⟨out, hout⟩ :=
    @serverVerifyResponse2_eq { s with clientEphPublicKey := pk.value } h
  have hrequest : s.serverVerifyRequest1 data =
      some (true, { s with clientEphPublicKey := pk.value }) := by
    rw [serverVerifyRequest1, hdata.1, Option.map_some]
    simp only [hpk, hlength, if_true]
  refine ⟨out, ?_⟩
  rw [pairVerify, hdata.stateGet_eq, Option.bind_some]
  show answer (s.serverVerifyRequest1 data) _ = _
  rw [hrequest, answer, Option.bind_some]
  dsimp only
  rw [if_pos rfl, hout]
  rfl

/-- A message that says it is the first one is answered if the keys can be exchanged and the answer
fits. The buffer for the secret has what the exchange has made of it. -/
theorem pairVerify_first {request : PairTlvValues} {pk : PairTlv} (h : s.status ≠ .authFailed)
    (hdata : HasState data 1 request) (hpk : pairTlvGetValue request tlvTypePublicKey = some pk)
    (hlength : pk.value.length = 32) {secret info : Bytes}
    (hexchange : c.cryptoScalarmult s.exchanged (c.cryptoBoxKeypair random).2 pk.value =
      (secret, true))
    (hinfo : accessoryInfo c accessory (c.cryptoBoxKeypair random).1 pk.value = some (some info))
    (hanswer : ∃ out, formatted [⟨tlvTypeState, [2]⟩,
      ⟨tlvTypePublicKey, (c.cryptoBoxKeypair random).1⟩,
      ⟨tlvTypeEncryptedData, c.encryptChacha (c.hkdfExtractExpand .verifyMsg02 secret)
        PairKeys.verifyMsg02.nonce info⟩] requestBufsize = some (some out)) :
    ∃ out, s.pairVerify c accessory data random =
      some (⟨true, some out⟩,
        { s with
          clientEphPublicKey := pk.value
          serverEphPublicKey := (c.cryptoBoxKeypair random).1
          serverEphPrivateKey := (c.cryptoBoxKeypair random).2
          exchanged := secret }) := by
  obtain ⟨out, hout⟩ := hanswer
  have hrequest : s.serverVerifyRequest1 data =
      some (true, { s with clientEphPublicKey := pk.value }) := by
    rw [serverVerifyRequest1, hdata.1, Option.map_some]
    simp only [hpk, hlength, if_true]
  refine ⟨out, ?_⟩
  rw [pairVerify, hdata.stateGet_eq, Option.bind_some]
  show answer (s.serverVerifyRequest1 data) _ = _
  rw [hrequest, answer, Option.bind_some]
  simp only [serverVerifyResponse1, h, hexchange, hinfo, hout, Bool.not_true, Bool.false_eq_true,
    if_true, if_false, Option.bind_some, Option.map_some, Option.isSome_some]

/-! ## The secret -/

section Secret

variable (c accessory) in
def step (s : PairVerifyContext) (label : Bytes × Bytes) : Option PairVerifyContext :=
  (s.pairVerify c accessory label.1 label.2).map Prod.snd

/-- The key has come with one of these messages, or it is what the buffer for it was cleared to. -/
def Received (labels : List (Bytes × Bytes)) (key : Bytes) : Prop :=
  key = zeros ∨ ∃ label ∈ labels, ∃ request pk, messageProcess label.1 = some (some request) ∧
    pairTlvGetValue request tlvTypePublicKey = some pk ∧ pk.value.length = 32 ∧ key = pk.value

variable (c) in
/-- What key exchanges have made of the cleared buffer for the secret, one after the other, with
keys that were drawn and received -/
inductive Exchanged (labels : List (Bytes × Bytes)) : Bytes → Prop where
  | cleared : Exchanged labels zeros
  | exchange {label : Bytes × Bytes} {old key : Bytes} (hmem : label ∈ labels)
      (hkey : Received labels key) (hold : Exchanged labels old) :
      Exchanged labels (c.cryptoScalarmult old (c.cryptoBoxKeypair label.2).2 key).1

variable (c) in
/-- The keys and the secrets of a context come from these messages. -/
structure Derived (labels : List (Bytes × Bytes)) (s : PairVerifyContext) : Prop where
  received : Received labels s.clientEphPublicKey
  exchanged : Exchanged c labels s.exchanged
  shared : s.sharedSecret ≠ [] → Exchanged c labels s.sharedSecret

theorem Received.mono {labels labels' : List (Bytes × Bytes)} {key : Bytes}
    (h : Received labels key) (hlabels : labels ⊆ labels') : Received labels' key :=
  h.imp_right fun ⟨label, hmem, hkey⟩ => ⟨label, hlabels hmem, hkey⟩

theorem Exchanged.mono {labels labels' : List (Bytes × Bytes)} {secret : Bytes}
    (h : Exchanged c labels secret) (hlabels : labels ⊆ labels') : Exchanged c labels' secret := by
  induction h with
  | cleared => exact .cleared
  | exchange hmem hkey _ ih => exact .exchange (hlabels hmem) (hkey.mono hlabels) ih

/-- If an exchange that fails leaves the buffer as it was or clears it, then the secret is 32 zeros
or what an exchange that succeeded has made. -/
theorem Exchanged.eq_zeros_or {labels : List (Bytes × Bytes)} {secret : Bytes}
    (hfail : ∀ old privateKey publicKey, (c.cryptoScalarmult old privateKey publicKey).2 = false →
      (c.cryptoScalarmult old privateKey publicKey).1 = old ∨
        (c.cryptoScalarmult old privateKey publicKey).1 = zeros)
    (h : Exchanged c labels secret) :
    secret = zeros ∨ ∃ label ∈ labels, ∃ old key, Received labels key ∧
      c.cryptoScalarmult old (c.cryptoBoxKeypair label.2).2 key = (secret, true) := by
  induction h with
  | cleared => exact .inl rfl
  | @exchange label old key hmem hkey _ ih =>
      cases hok : (c.cryptoScalarmult old (c.cryptoBoxKeypair label.2).2 key).2 with
      | true => exact .inr ⟨label, hmem, old, key, hkey, Prod.ext rfl hok⟩
      | false =>
          rcases hfail _ _ _ hok with hsame | hzeros
          · rwa [hsame]
          · exact .inl hzeros

namespace Derived

variable {labels : List (Bytes × Bytes)} {label : Bytes × Bytes} {s' : PairVerifyContext}

theorem new : Derived c labels .new where
  received := .inl rfl
  exchanged := .cleared
  shared h := absurd rfl h

theorem mono {labels' : List (Bytes × Bytes)} (h : Derived c labels s)
    (hlabels : labels ⊆ labels') : Derived c labels' s where
  received := h.received.mono hlabels
  exchanged := h.exchanged.mono hlabels
  shared hshared := (h.shared hshared).mono hlabels

theorem withStatus (h : Derived c labels s) (status : PairStatus) :
    Derived c labels { s with status := status } :=
  ⟨h.received, h.exchanged, h.shared⟩

theorem failed {ok : Bool} (h : Derived c labels s) (hs' : s.failed = (ok, s')) :
    Derived c labels s' := by
  obtain ⟨-, rfl⟩ := Prod.mk.inj hs'
  exact h.withStatus .invalid

theorem noResponse {out : Option Bytes} (h : Derived c labels s) (hs' : s.noResponse = (out, s')) :
    Derived c labels s' := by
  obtain ⟨-, rfl⟩ := Prod.mk.inj hs'
  exact h.withStatus .invalid

theorem serverVerifyRequest1 {ok : Bool} (h : Derived c labels s) (hmem : label ∈ labels)
    (hs' : s.serverVerifyRequest1 label.1 = some (ok, s')) : Derived c labels s' := by
  obtain ⟨message, hmessage, hs'⟩ := Option.map_eq_some_iff.mp hs'
  cases message with
  | none => exact h.failed hs'
  | some request =>
      simp only at hs'
      split at hs'
      · exact h.failed hs'
      · rename_i pk hpk
        split_ifs at hs' with hlength
        · obtain ⟨-, rfl⟩ := Prod.mk.inj hs'
          exact ⟨.inr ⟨label, hmem, request, pk, hmessage, hpk, hlength, rfl⟩, h.exchanged,
            h.shared⟩
        · exact h.failed hs'

theorem serverVerifyRequest2 {ok : Bool} (h : Derived c labels s)
    (hs' : s.serverVerifyRequest2 c data = some (ok, s')) : Derived c labels s' := by
  obtain ⟨message, -, hs'⟩ := Option.bind_eq_some_iff.mp hs'
  cases message with
  | none => exact h.failed (Option.some.inj hs')
  | some request =>
      simp only at hs'
      split at hs'
      · exact h.failed (Option.some.inj hs')
      · split at hs'
        · exact h.failed (Option.some.inj hs')
        · split at hs'
          · exact h.failed (Option.some.inj hs')
          · obtain ⟨inner, -, hs'⟩ := Option.map_eq_some_iff.mp hs'
            cases inner with
            | none => exact h.failed hs'
            | some request =>
                simp only at hs'
                split at hs'
                · split_ifs at hs'
                  · obtain ⟨-, rfl⟩ := Prod.mk.inj hs'
                    exact h
                  · exact h.failed hs'
                · exact h.failed hs'

theorem serverVerifyResponse1 {out : Option Bytes} (h : Derived c labels s) (hmem : label ∈ labels)
    (hs' : s.serverVerifyResponse1 c accessory label.2 = some (out, s')) :
    Derived c labels s' := by
  unfold PairVerifyContext.serverVerifyResponse1 at hs'
  split at hs'
  · obtain ⟨_, -, hout⟩ := Option.map_eq_some_iff.mp hs'
    obtain ⟨-, rfl⟩ := Prod.mk.inj hout
    exact h
  · simp only at hs'
    have hnew : Derived c labels
        { s with
          serverEphPublicKey := (c.cryptoBoxKeypair label.2).1
          serverEphPrivateKey := (c.cryptoBoxKeypair label.2).2
          exchanged := (c.cryptoScalarmult s.exchanged (c.cryptoBoxKeypair label.2).2
            s.clientEphPublicKey).1 } :=
      ⟨h.received, .exchange hmem h.received h.exchanged, h.shared⟩
    split at hs'
    · exact hnew.noResponse (Option.some.inj hs')
    · obtain ⟨data, -, hs'⟩ := Option.bind_eq_some_iff.mp hs'
      cases data with
      | none => exact hnew.noResponse (Option.some.inj hs')
      | some data =>
          obtain ⟨message, -, hs'⟩ := Option.map_eq_some_iff.mp hs'
          cases message with
          | none => exact hnew.noResponse hs'
          | some out =>
              obtain ⟨-, rfl⟩ := Prod.mk.inj hs'
              exact hnew

theorem serverVerifyResponse2 {out : Option Bytes} (h : Derived c labels s)
    (hs' : s.serverVerifyResponse2 = some (out, s')) : Derived c labels s' := by
  unfold PairVerifyContext.serverVerifyResponse2 at hs'
  split at hs'
  · obtain ⟨_, -, hout⟩ := Option.map_eq_some_iff.mp hs'
    obtain ⟨-, rfl⟩ := Prod.mk.inj hout
    exact h
  · obtain ⟨message, -, hs'⟩ := Option.map_eq_some_iff.mp hs'
    cases message with
    | none => exact h.noResponse hs'
    | some _ =>
        obtain ⟨-, rfl⟩ := Prod.mk.inj hs'
        exact ⟨h.received, h.exchanged, fun _ => h.exchanged⟩

theorem pairVerify {ret : PairReturn} (h : Derived c labels s) (hmem : label ∈ labels)
    (hs' : s.pairVerify c accessory label.1 label.2 = some (ret, s')) : Derived c labels s' := by
  obtain ⟨state, -, hs'⟩ := Option.bind_eq_some_iff.mp hs'
  simp only at hs'
  split at hs'
  · obtain ⟨-, rfl⟩ := Prod.mk.inj (Option.some.inj hs')
    exact h
  · obtain ⟨⟨out, t⟩, ht, hret⟩ := Option.map_eq_some_iff.mp hs'
    obtain ⟨-, rfl⟩ := Prod.mk.inj hret
    exact h.serverVerifyResponse1 hmem ht
  · exact answer_invariant (h.serverVerifyRequest1 hmem) (serverVerifyResponse1 · hmem) hs'
  · exact answer_invariant (h.serverVerifyRequest1 hmem) serverVerifyResponse2 hs'
  · exact answer_invariant h.serverVerifyRequest2 serverVerifyResponse2 hs'
  · obtain ⟨⟨out, t⟩, ht, hret⟩ := Option.map_eq_some_iff.mp hs'
    obtain ⟨-, rfl⟩ := Prod.mk.inj hret
    exact h.serverVerifyRequest2 ht
  · obtain ⟨-, rfl⟩ := Prod.mk.inj (Option.some.inj hs')
    exact h

end Derived

theorem derived_run {labels : List (Bytes × Bytes)}
    (h : run (step c accessory) .new labels = some s) : Derived c labels s := by
  induction labels using List.reverseRecOn generalizing s with
  | nil =>
      obtain rfl := Option.some.inj h
      exact .new
  | append_singleton labels label ih =>
      rw [run_append] at h
      obtain ⟨t, ht, h⟩ := Option.bind_eq_some_iff.mp h
      obtain ⟨u, hu, hrun⟩ := Option.bind_eq_some_iff.mp h
      obtain rfl := Option.some.inj hrun
      obtain ⟨⟨ret, s⟩, hs, rfl⟩ := Option.map_eq_some_iff.mp hu
      exact ((ih ht).mono (List.subset_append_left _ _)).pairVerify (by simp) hs

/-- Whatever messages come in whatever order, a secret that is shared is what exchanges have made of
32 zeros, with key pairs that were drawn for the messages and keys that they brought. -/
theorem run_exchanged {labels : List (Bytes × Bytes)}
    (h : run (step c accessory) .new labels = some s) (hsecret : s.sharedSecret ≠ []) :
    Exchanged c labels s.sharedSecret :=
  (derived_run h).shared hsecret

/-- The key pair of a server, the public key of a client and their secret, by the function on
Curve25519 -/
def exchangedKeys : (Bytes × Bytes) × Bytes × Bytes :=
  (([7, 163, 124, 188, 20, 32, 147, 200, 183, 85, 220, 27, 16, 232, 108, 180, 38, 55, 74, 209, 106,
      168, 83, 237, 11, 223, 192, 178, 184, 109, 28, 124],
    [1, 2, 3, 4, 5, 6, 7, 8, 9, 10, 11, 12, 13, 14, 15, 16, 17, 18, 19, 20, 21, 22, 23, 24, 25, 26,
      27, 28, 29, 30, 31, 32]),
    [19, 190, 79, 234, 234, 242, 4, 199, 253, 51, 88, 252, 156, 0, 114, 24, 129, 209, 116, 39, 129,
      40, 34, 126, 198, 116, 243, 127, 127, 233, 123, 109],
    [23, 186, 240, 165, 202, 110, 119, 114, 165, 74, 38, 234, 81, 136, 124, 25, 207, 47, 163, 36,
      69, 204, 222, 45, 136, 87, 169, 251, 1, 15, 4, 7])

/-- Libraries that draw this key pair and know this exchange -/
def exchangeCrypto : Crypto :=
  { emptyCrypto with
    cryptoBoxKeypair := fun _ => exchangedKeys.1
    cryptoScalarmult := fun old privateKey publicKey =>
      if privateKey = exchangedKeys.1.2 ∧ publicKey = exchangedKeys.2.1 then
        (exchangedKeys.2.2, true)
      else (old, false) }

def letterAccessory : Accessory :=
  { defaultAccessory with deviceId := deviceA }

def keyMessages : PairTlvValues × PairTlvValues :=
  ([⟨tlvTypeState, [1]⟩, ⟨tlvTypePublicKey, exchangedKeys.2.1⟩],
    [⟨tlvTypeState, [2]⟩, ⟨tlvTypePublicKey, exchangedKeys.2.1⟩])

def letterInfo : PairTlvValues :=
  [⟨tlvTypeIdentifier, [65]⟩, ⟨tlvTypeSignature, List.replicate 64 0⟩]

theorem accessoryInfo_letter :
    accessoryInfo exchangeCrypto letterAccessory exchangedKeys.1.1 exchangedKeys.2.1 =
      some (some (letterInfo.flatMap formatValue)) := by
  have hinfo : createInfo exchangedKeys.1.1 letterAccessory.deviceId.chars exchangedKeys.2.1 =
      some (exchangedKeys.1.1 ++ [65] ++ exchangedKeys.2.1) := if_neg (by decide)
  rw [accessoryInfo, hinfo]
  exact formatted_of_le (by decide) (by decide)

theorem formatted_letter :
    ∃ out, formatted [⟨tlvTypeState, [2]⟩, ⟨tlvTypePublicKey, exchangedKeys.1.1⟩,
      ⟨tlvTypeEncryptedData, letterInfo.flatMap formatValue⟩] requestBufsize = some (some out) := by
  have hlength : (letterInfo.flatMap formatValue).length = 69 := by
    rw [length_written]
    decide
  have hne : letterInfo.flatMap formatValue ≠ [] :=
    List.ne_nil_of_length_pos (by rw [hlength]; decide)
  refine ⟨_, formatted_of_le ?_ ?_⟩
  · simp only [requiredSize, List.map_cons, List.map_nil, hlength]
    decide
  · simp only [List.forall_mem_cons, hne, ne_eq, not_false_eq_true, true_and]
    decide

def exchangedContext : PairVerifyContext :=
  { PairVerifyContext.new with
    clientEphPublicKey := exchangedKeys.2.1
    serverEphPublicKey := exchangedKeys.1.1
    serverEphPrivateKey := exchangedKeys.1.2
    exchanged := exchangedKeys.2.2 }

theorem step_first : step exchangeCrypto letterAccessory .new
    (keyMessages.1.flatMap formatValue, []) = some exchangedContext := by
  have hstate : HasState (keyMessages.1.flatMap formatValue) 1 keyMessages.1 :=
    hasState_flatMap (by decide) (by decide) (by decide) (by decide)
  have hexchange : exchangeCrypto.cryptoScalarmult new.exchanged exchangedKeys.1.2
      exchangedKeys.2.1 = (exchangedKeys.2.2, true) := by decide
  obtain ⟨out, hout⟩ := @pairVerify_first exchangeCrypto letterAccessory .new _ [] _
    ⟨tlvTypePublicKey, exchangedKeys.2.1⟩ PairStatus.noConfusion hstate rfl rfl _ _ hexchange
    accessoryInfo_letter formatted_letter
  rw [step, hout]
  rfl

theorem step_second : step exchangeCrypto letterAccessory exchangedContext
    (keyMessages.2.flatMap formatValue, []) =
      some { exchangedContext with sharedSecret := exchangedKeys.2.2, status := .completed } := by
  have hstate : HasState (keyMessages.2.flatMap formatValue) 2 keyMessages.2 :=
    hasState_flatMap (by decide) (by decide) (by decide) (by decide)
  obtain ⟨out, hout⟩ := @pairVerify_second exchangeCrypto letterAccessory exchangedContext _ [] _
    ⟨tlvTypePublicKey, exchangedKeys.2.1⟩ PairStatus.noConfusion hstate rfl rfl
  rw [step, hout]
  rfl

theorem run_exchanged_key :
    ∃ s, run (step exchangeCrypto letterAccessory) .new
        [(keyMessages.1.flatMap formatValue, []), (keyMessages.2.flatMap formatValue, [])] =
        some s ∧
      s.sharedSecret = exchangedKeys.2.2 ∧
      Exchanged exchangeCrypto
        [(keyMessages.1.flatMap formatValue, []), (keyMessages.2.flatMap formatValue, [])]
        s.sharedSecret := by
  have hrun := run_cons_eq_some_iff.mpr
    ⟨_, step_first, run_cons_eq_some_iff.mpr ⟨_, step_second, run_nil _⟩⟩
  exact ⟨_, hrun, rfl, run_exchanged hrun (List.cons_ne_nil _ _)⟩

end Secret

end PairVerifyContext

end Pairing

end ShairportSync
