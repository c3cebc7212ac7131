import ShairportSync.Pairing.Verify
import ShairportSync.Rtsp.ControlWrite

/-!
# Pairing on a connection

Each request that completes a pairing makes a new cipher, with its counters at zero. From the next
request on the connection is encrypted.

The status stays what it is until something fails, so that every request of a completed pairing that
is answered makes a cipher again, from the secret that has been shared last.
-/

namespace ShairportSync

namespace Pairing

open Player (Bytes)
open Rtsp (nblocksOf)
open Transition

/-! ## The code -/

/-- `struct pair_cipher_context`, as far as it encrypts -/
structure PairCipherContext where
  encryptionKey : Bytes
  decryptionKey : Bytes
  encryptionCounter : BitVec 64
deriving DecidableEq

structure PairingContext where
  setupCtx : Option PairSetupContext
  verifyCtx : Option PairVerifyContext
  cipherCtx : Option PairCipherContext
  isEncrypted : Bool

structure HandlerResponse where
  respcode : ℕ
  content : Option Bytes

/-- How a response has been written: as it is, or in blocks that are encrypted with this key, the
first of them with this counter -/
inductive Written where
  | plain
  | encrypted (key : Bytes) (counter : BitVec 64) (nblocks : ℕ)
deriving DecidableEq

/-- A request, with what is drawn at random when it is processed -/
inductive Request where
  | pairSetup (content random : Bytes)
  | pairVerify (content random : Bytes)
  | other

/-- The context of a connection, and how its responses have been written -/
structure Session where
  context : PairingContext
  responses : List Written

/-- The keys and the counters that have been used together -/
def Written.nonces : Written → List (Bytes × BitVec 64)
  | .plain => []
  | .encrypted key counter nblocks =>
      (List.range nblocks).map fun i => (key, counter + BitVec.ofNat 64 i)

namespace Session

def nonces (s : Session) : List (Bytes × BitVec 64) := s.responses.flatMap Written.nonces

section Handlers

variable (c : Crypto) (accessory : Accessory)

/-- `pair_cipher_new(PAIR_SERVER_HOMEKIT, 2, ...)` -/
def pairCipherNew (sharedSecret : Bytes) : PairCipherContext where
  encryptionKey := c.hkdfExtractExpand .controlRead sharedSecret
  decryptionKey := c.hkdfExtractExpand .controlWrite sharedSecret
  encryptionCounter := 0

/-- The cipher when a request has been answered: a new one if the pairing is completed and a secret
has been shared -/
def prepared (old : Option PairCipherContext) (ok : Bool) (status : PairStatus)
    (sharedSecret : Bytes) : Option PairCipherContext :=
  if ok = true ∧ status = .completed ∧ 0 < sharedSecret.length then
    some (pairCipherNew c sharedSecret)
  else old

def handlePairVerify (s : PairingContext) (content random : Bytes) :
    Option (HandlerResponse × PairingContext) :=
  ((s.verifyCtx.getD .new).pairVerify c accessory content random).map fun (ret, verifyCtx) =>
    (⟨if ret.ok then 200 else 470, ret.out⟩,
      { s with
        verifyCtx := some verifyCtx
        cipherCtx := prepared c s.cipherCtx ret.ok verifyCtx.status verifyCtx.sharedSecret })

def handlePairSetup (s : PairingContext) (content random : Bytes) :
    Option (HandlerResponse × PairingContext) :=
  ((s.setupCtx.getD .new).pairSetup c accessory content random).map fun (ret, setupCtx) =>
    (⟨if ret.ok then 200 else 470, ret.out⟩,
      { s with
        setupCtx := some setupCtx
        cipherCtx := prepared c s.cipherCtx ret.ok setupCtx.status setupCtx.sharedSecret })

def read (s : PairingContext) : PairingContext :=
  { s with isEncrypted := s.isEncrypted || s.cipherCtx.isSome }

def handle (s : PairingContext) : Request → Option PairingContext
  | .pairSetup content random => (handlePairSetup c accessory s content random).map Prod.snd
  | .pairVerify content random => (handlePairVerify c accessory s content random).map Prod.snd
  | .other => some s

/-- The response is written, with `msg_write_response`. It has so many bytes. -/
def write (s : PairingContext) (length : { n : ℕ // 0 < n }) : Option (Written × PairingContext) :=
  if s.isEncrypted then
    s.cipherCtx.map fun cipher =>
      (.encrypted cipher.encryptionKey cipher.encryptionCounter (nblocksOf length),
        { s with
          cipherCtx := some
            { cipher with
              encryptionCounter :=
                cipher.encryptionCounter + BitVec.ofNat 64 (nblocksOf length) } })
  else some (.plain, s)

def step (s : Session) (label : Request × { n : ℕ // 0 < n }) : Option Session :=
  (handle c accessory (read s.context) label.1).bind fun context =>
    (write context label.2).map fun (written, context) =>
      ⟨context, s.responses ++ [written]⟩

def completed (s : PairingContext) : Request → Option Bytes
  | .pairSetup content random =>
      ((s.setupCtx.getD .new).pairSetup c accessory content random).bind fun (ret, ctx) =>
        if ret.ok = true ∧ ctx.status = .completed ∧ 0 < ctx.sharedSecret.length then
          some ctx.sharedSecret
        else none
  | .pairVerify content random =>
      ((s.verifyCtx.getD .new).pairVerify c accessory content random).bind fun (ret, ctx) =>
        if ret.ok = true ∧ ctx.status = .completed ∧ 0 < ctx.sharedSecret.length then
          some ctx.sharedSecret
        else none
  | .other => none

end Handlers

def new : Session := ⟨⟨none, none, none, false⟩, []⟩

/-! ## A step -/

section Step

variable {c : Crypto} {accessory : Accessory}

theorem prepared_eq (old : Option PairCipherContext) (ok : Bool) (status : PairStatus)
    (sharedSecret : Bytes) :
    prepared c old ok status sharedSecret =
      ((if ok = true ∧ status = .completed ∧ 0 < sharedSecret.length then some sharedSecret
        else none).map (pairCipherNew c)).or old := by
  unfold prepared
  split <;> rfl

theorem handle_cipherCtx {s s' : PairingContext} {request : Request}
    (h : handle c accessory s request = some s') :
    s'.isEncrypted = s.isEncrypted ∧
      s'.cipherCtx = ((completed c accessory s request).map (pairCipherNew c)).or s.cipherCtx := by
  cases request with
  | pairSetup content random =>
      obtain ⟨⟨response, t⟩, hhandle, rfl⟩ := Option.map_eq_some_iff.mp h
      obtain ⟨⟨ret, ctx⟩, hctx, hresult⟩ := Option.map_eq_some_iff.mp hhandle
      obtain ⟨-, rfl⟩ := Prod.mk.inj hresult
      rw [completed, hctx, Option.bind_some]
      exact ⟨rfl, prepared_eq ..⟩
  | pairVerify content random =>
      obtain ⟨⟨response, t⟩, hhandle, rfl⟩ := Option.map_eq_some_iff.mp h
      obtain ⟨⟨ret, ctx⟩, hctx, hresult⟩ := Option.map_eq_some_iff.mp hhandle
      obtain ⟨-, rfl⟩ := Prod.mk.inj hresult
      rw [completed, hctx, Option.bind_some]
      exact ⟨rfl, prepared_eq ..⟩
  | other =>
      obtain rfl := Option.some.inj h
      exact ⟨rfl, rfl⟩

theorem completed_read (s : PairingContext) (request : Request) :
    completed c accessory (read s) request = completed c accessory s request := by
  cases request <;> rfl

variable (c accessory) in
def cipherFor (s : Session) (request : Request) : Option PairCipherContext :=
  ((completed c accessory s.context request).map (pairCipherNew c)).or s.context.cipherCtx

/-- What a request and its response do: the response is encrypted if there was a cipher before the
request was read. -/
theorem step_cases {s s' : Session} {label : Request × { n : ℕ // 0 < n }}
    (h : step c accessory s label = some s') :
    ((read s.context).isEncrypted = false ∧ s'.responses = s.responses ++ [.plain] ∧
      s'.context.isEncrypted = false ∧ s'.context.cipherCtx = cipherFor c accessory s label.1) ∨
    ((read s.context).isEncrypted = true ∧ s'.context.isEncrypted = true ∧
      ∃ cipher, cipherFor c accessory s label.1 = some cipher ∧
        s'.responses = s.responses ++
          [.encrypted cipher.encryptionKey cipher.encryptionCounter (nblocksOf label.2)] ∧
        s'.context.cipherCtx = some
          { cipher with
            encryptionCounter :=
              cipher.encryptionCounter + BitVec.ofNat 64 (nblocksOf label.2) }) := by
  obtain ⟨context, hcontext, h⟩ := Option.bind_eq_some_iff.mp h
  obtain ⟨⟨written, context'⟩, hwrite, rfl⟩ := Option.map_eq_some_iff.mp h
  obtain ⟨hencrypted, hcipher⟩ := handle_cipherCtx hcontext
  rw [completed_read] at hcipher
  unfold write at hwrite
  split at hwrite
  · rename_i hread
    rw [hencrypted] at hread
    obtain ⟨cipher, hsome, hresult⟩ := Option.map_eq_some_iff.mp hwrite
    obtain ⟨rfl, rfl⟩ := Prod.mk.inj hresult
    refine .inr ⟨hread, hencrypted.trans hread, cipher, hcipher.symm.trans hsome, rfl, rfl⟩
  · rename_i hread
    rw [hencrypted, Bool.not_eq_true] at hread
    obtain ⟨rfl, rfl⟩ := Prod.mk.inj (Option.some.inj hwrite)
    exact .inl ⟨hread, rfl, hencrypted.trans hread, hcipher⟩

/-- A message of a verification that says it is the second one, with any key of 32 bytes, is
answered on a new connection. The secret of the cipher is 32 zeros. -/
theorem step_new_pairVerify {content random : Bytes} {request : PairTlvValues} {pk : PairTlv}
    (hcontent : HasState content 2 request)
    (hpk : pairTlvGetValue request tlvTypePublicKey = some pk) (hlength : pk.value.length = 32)
    (n : { n : ℕ // 0 < n }) :
    ∃ s, step c accessory new (.pairVerify content random, n) = some s ∧
      s.context.isEncrypted = false ∧ s.context.cipherCtx = some (pairCipherNew c zeros) ∧
      s.responses = [.plain] ∧
      s.context.verifyCtx = some
        { PairVerifyContext.new with
          clientEphPublicKey := pk.value
          sharedSecret := zeros
          status := .completed } := by
  obtain ⟨out, hout⟩ := @PairVerifyContext.pairVerify_second c accessory .new content random request
    pk PairStatus.noConfusion hcontent hpk hlength
  have hhandle : handle c accessory (read new.context) (.pairVerify content random) =
      ((PairVerifyContext.new.pairVerify c accessory content random).map fun (ret, verifyCtx) =>
        { new.context with
          verifyCtx := some verifyCtx
          cipherCtx :=
            prepared c none ret.ok verifyCtx.status verifyCtx.sharedSecret }) := Option.map_map ..
  rw [step, hhandle, hout]
  exact ⟨_, rfl, rfl, rfl, rfl, rfl⟩

/-- A request of another kind is always answered. -/
theorem step_other {s : Session} {cipher : PairCipherContext}
    (hcipher : s.context.cipherCtx = some cipher) (n : { n : ℕ // 0 < n }) :
    ∃ t, step c accessory s (.other, n) = some t ∧
      t.context.verifyCtx = s.context.verifyCtx := by
  rw [step, handle, Option.bind_some, write, read, hcipher, Option.isSome_some, Bool.or_true,
    if_pos rfl]
  exact ⟨_, rfl, rfl⟩

/-- With a new cipher the next response is encrypted, unless its own request makes another one. -/
theorem responses_of_cipher {s t : Session} {secret : Bytes}
    {label : Request × { n : ℕ // 0 < n }}
    (hcipher : s.context.cipherCtx = some (pairCipherNew c secret))
    (hcompleted : completed c accessory s.context label.1 = none)
    (h : step c accessory s label = some t) :
    t.responses = s.responses ++
      [.encrypted (c.hkdfExtractExpand .controlRead secret) 0 (nblocksOf label.2)] := by
  have hread : (read s.context).isEncrypted = true := by
    rw [read, hcipher, Option.isSome_some, Bool.or_true]
  rcases step_cases h with ⟨hplain, -⟩ | ⟨-, -, cipher, hfor, hresponses, -⟩
  · rw [hread] at hplain
    cases hplain
  · rw [cipherFor, hcompleted, Option.map_none, Option.none_or, hcipher] at hfor
    obtain rfl := Option.some.inj hfor
    exact hresponses

/-- A verification that is completed is completed again by a second message, and the response is
encrypted with a cipher that starts again. -/
theorem step_again {s : Session} {ctx : PairVerifyContext} {content random : Bytes}
    {request : PairTlvValues} {pk : PairTlv} (hctx : s.context.verifyCtx = some ctx)
    (hstatus : ctx.status = .completed) (hsecret : 0 < ctx.exchanged.length)
    (hencrypted : (read s.context).isEncrypted = true) (hcontent : HasState content 2 request)
    (hpk : pairTlvGetValue request tlvTypePublicKey = some pk) (hlength : pk.value.length = 32)
    (n : { n : ℕ // 0 < n }) :
    ∃ t, step c accessory s (.pairVerify content random, n) = some t ∧
      t.responses = s.responses ++
        [.encrypted (c.hkdfExtractExpand .controlRead ctx.exchanged) 0 (nblocksOf n)] := by
  have hnot : ctx.status ≠ .authFailed := by
    rw [hstatus]
    decide
  obtain ⟨out, hout⟩ := @PairVerifyContext.pairVerify_second c accessory ctx content random request
    pk hnot hcontent hpk hlength
  have hread : (read s.context).verifyCtx = some ctx := hctx
  rw [step, handle, handlePairVerify, hread, Option.getD_some, hout, Option.map_some,
    Option.map_some, Option.bind_some, write, if_pos (show _ = true from hencrypted)]
  have hprepared : prepared c (read s.context).cipherCtx true .completed ctx.exchanged =
      some (pairCipherNew c ctx.exchanged) := if_pos ⟨rfl, rfl, hsecret⟩
  simp only [hprepared, Option.map_some]
  exact ⟨_, rfl, rfl⟩

def secondValues : PairTlvValues := [⟨tlvTypeState, [2]⟩, ⟨tlvTypePublicKey, zeros⟩]

theorem hasState_secondValues : HasState (secondValues.flatMap formatValue) 2 secondValues :=
  hasState_flatMap (by decide) (by decide) (by decide) (by decide)

def secondLabels : List (Request × { n : ℕ // 0 < n }) :=
  [(.pairVerify (secondValues.flatMap formatValue) [], ⟨1, Nat.one_pos⟩),
    (.other, ⟨1, Nat.one_pos⟩)]

theorem run_secondLabels :
    ∃ t, run (step emptyCrypto defaultAccessory) new secondLabels = some t ∧
      t.nonces.length = 1 := by
  obtain ⟨s, hfirst, -, hcipher, hresponses, -⟩ :=
    @step_new_pairVerify emptyCrypto defaultAccessory _ [] secondValues ⟨tlvTypePublicKey, zeros⟩
      hasState_secondValues rfl rfl ⟨1, Nat.one_pos⟩
  obtain ⟨t, hsecond, -⟩ :=
    @step_other emptyCrypto defaultAccessory s _ hcipher ⟨1, Nat.one_pos⟩
  refine ⟨t, run_cons_eq_some_iff.mpr ⟨s, hfirst, run_cons_eq_some_iff.mpr ⟨t, hsecond, rfl⟩⟩, ?_⟩
  rw [nonces, responses_of_cipher hcipher rfl hsecond, hresponses]
  rfl

end Step

/-! ## The nonces -/

theorem nblocksOf_pos (n : ℕ) : 0 < nblocksOf n := Nat.lt_of_lt_of_le Nat.zero_lt_one le_self_add

/-- The nonces of blocks that are counted from `k` on -/
theorem mem_nonces_encrypted {key key' : Bytes} {n : BitVec 64} {k nblocks : ℕ}
    (hk : k + nblocks ≤ 2 ^ 64) :
    (key', n) ∈ (Written.encrypted key (BitVec.ofNat 64 k) nblocks).nonces ↔
      key' = key ∧ k ≤ n.toNat ∧ n.toNat < k + nblocks := by
  simp only [Written.nonces, List.mem_map, List.mem_range, Prod.mk.injEq]
  constructor
  · rintro ⟨i, hi, rfl, rfl⟩
    rw [← BitVec.ofNat_add, BitVec.toNat_ofNat, Nat.mod_eq_of_lt (by omega)]
    exact ⟨rfl, by omega, by omega⟩
  · rintro ⟨rfl, hle, hlt⟩
    refine ⟨n.toNat - k, by omega, rfl, ?_⟩
    rw [← BitVec.ofNat_add, Nat.add_sub_cancel' hle, BitVec.ofNat_toNat, BitVec.setWidth_eq]

theorem nodup_nonces_encrypted {key : Bytes} {k nblocks : ℕ} (hk : k + nblocks ≤ 2 ^ 64) :
    (Written.encrypted key (BitVec.ofNat 64 k) nblocks).nonces.Nodup := by
  refine List.Nodup.map_on (fun i hi j hj h => ?_) List.nodup_range
  rw [List.mem_range] at hi hj
  have hcounter := congrArg BitVec.toNat (Prod.mk.inj h).2
  rw [← BitVec.ofNat_add, ← BitVec.ofNat_add, BitVec.toNat_ofNat, BitVec.toNat_ofNat,
    Nat.mod_eq_of_lt (by omega), Nat.mod_eq_of_lt (by omega)] at hcounter
  omega

theorem length_nonces_encrypted (key : Bytes) (counter : BitVec 64) (nblocks : ℕ) :
    (Written.encrypted key counter nblocks).nonces.length = nblocks := by
  rw [Written.nonces, List.length_map, List.length_range]

/-- The cipher has used the counters up to its own, and no others, with its key. -/
def Counted (nonces : List (Bytes × BitVec 64)) (cipher : PairCipherContext) : Prop :=
  ∃ k ≤ nonces.length, cipher.encryptionCounter = BitVec.ofNat 64 k ∧
    ∀ n, (cipher.encryptionKey, n) ∈ nonces ↔ n.toNat < k

/-- A key has been used with the counter zero if it has been used. As long as no nonce has been used
twice with a key, the cipher is counted. -/
structure Sound (s : Session) : Prop where
  isSome_cipherCtx : s.context.isEncrypted = true → s.context.cipherCtx.isSome
  nonces_eq_nil : s.context.isEncrypted = false → s.nonces = []
  zero_mem : ∀ key n, (key, n) ∈ s.nonces → (key, 0) ∈ s.nonces
  zero_mem_of_counter : ∀ cipher ∈ s.context.cipherCtx, cipher.encryptionCounter ≠ 0 →
    (cipher.encryptionKey, 0) ∈ s.nonces
  counted : s.nonces.Nodup → ∀ cipher ∈ s.context.cipherCtx, Counted s.nonces cipher

theorem sound_new : new.Sound where
  isSome_cipherCtx h := absurd h Bool.false_ne_true
  nonces_eq_nil _ := rfl
  zero_mem _ _ h := absurd h List.not_mem_nil
  zero_mem_of_counter _ h := absurd h (Option.not_mem_none _)
  counted _ _ h := absurd h (Option.not_mem_none _)

section Nonces

variable {c : Crypto} {accessory : Accessory}

variable (c accessory) in
/-- The request does not complete a pairing, or with a key that has not been used. -/
def KeepsNonces (s : Session) (label : Request × { n : ℕ // 0 < n }) : Prop :=
  ∀ secret ∈ completed c accessory s.context label.1,
    (pairCipherNew c secret).encryptionKey ∉ s.nonces.map Prod.fst

/-- Blocks that are written with a new cipher repeat a nonce if and only if its key has been used.
-/
theorem nodup_append_new {nonces : List (Bytes × BitVec 64)} (key : Bytes) {nblocks : ℕ}
    (hzero : ∀ key n, (key, n) ∈ nonces → (key, 0) ∈ nonces) (hpos : 0 < nblocks)
    (hbound : nblocks ≤ 2 ^ 64) :
    (nonces ++ (Written.encrypted key (BitVec.ofNat 64 0) nblocks).nonces).Nodup ↔
      nonces.Nodup ∧ key ∉ nonces.map Prod.fst := by
  have hk : 0 + nblocks ≤ 2 ^ 64 := by omega
  rw [List.nodup_append']
  refine and_congr_right fun _ => ?_
  rw [and_iff_right (nodup_nonces_encrypted (k := 0) hk)]
  constructor
  · rintro hdisjoint hkey
    obtain ⟨⟨key', n⟩, hmem, rfl⟩ := List.mem_map.mp hkey
    refine hdisjoint (hzero _ n hmem) ((mem_nonces_encrypted (k := 0) hk).mpr ⟨rfl, ?_, ?_⟩)
    · exact Nat.zero_le _
    · simpa using hpos
  · rintro hkey ⟨key', n⟩ hmem hblock
    obtain ⟨rfl, -, -⟩ := (mem_nonces_encrypted (k := 0) hk).mp hblock
    exact hkey (List.mem_map_of_mem hmem)

/-- Blocks that are written with a cipher that has been counted repeat none. -/
theorem nodup_append_counted {nonces : List (Bytes × BitVec 64)} {key : Bytes} {k nblocks : ℕ}
    (hcounted : ∀ n, (key, n) ∈ nonces ↔ n.toNat < k) (hbound : k + nblocks ≤ 2 ^ 64) :
    (nonces ++ (Written.encrypted key (BitVec.ofNat 64 k) nblocks).nonces).Nodup ↔
      nonces.Nodup := by
  rw [List.nodup_append', and_iff_left]
  refine ⟨nodup_nonces_encrypted hbound, ?_⟩
  rintro ⟨key', n⟩ hmem hblock
  obtain ⟨rfl, hle, -⟩ := (mem_nonces_encrypted hbound).mp hblock
  exact absurd ((hcounted n).mp hmem) (not_lt.mpr hle)

/-- A cipher that has been counted still is when blocks have been written with it. -/
theorem Counted.append {nonces : List (Bytes × BitVec 64)} {cipher : PairCipherContext}
    (h : Counted nonces cipher) {nblocks : ℕ} (hbound : nonces.length + nblocks ≤ 2 ^ 64) :
    Counted
      (nonces ++ (Written.encrypted cipher.encryptionKey cipher.encryptionCounter nblocks).nonces)
      { cipher with
        encryptionCounter := cipher.encryptionCounter + BitVec.ofNat 64 nblocks } := by
  obtain ⟨k, hk, hcounter, hmem⟩ := h
  refine ⟨k + nblocks, ?_, ?_, fun n => ?_⟩
  · rw [List.length_append, length_nonces_encrypted]
    omega
  · rw [hcounter, BitVec.ofNat_add]
  · rw [hcounter, List.mem_append, hmem, mem_nonces_encrypted (by omega), eq_self_iff_true,
      true_and]
    omega

theorem zero_mem_append {nonces : List (Bytes × BitVec 64)} {key : Bytes} {counter : BitVec 64}
    {nblocks : ℕ} (h : counter ≠ 0 → (key, 0) ∈ nonces) (hpos : 0 < nblocks) :
    (key, 0) ∈ nonces ++ (Written.encrypted key counter nblocks).nonces := by
  by_cases hcounter : counter = 0
  · subst hcounter
    refine List.mem_append_right _ (List.mem_map.mpr ⟨0, List.mem_range.mpr hpos, ?_⟩)
    rfl
  · exact List.mem_append_left _ (h hcounter)

theorem length_nonces_le {s s' : Session} {label : Request × { n : ℕ // 0 < n }}
    (h : step c accessory s label = some s') : s.nonces.length ≤ s'.nonces.length := by
  rcases step_cases h with ⟨-, hresponses, -⟩ | ⟨-, -, cipher, -, hresponses, -⟩ <;>
    rw [nonces, nonces, hresponses, List.flatMap_append, List.length_append] <;>
    exact Nat.le_add_right _ _

/-- What the cipher that a response is written with has used: it is new, or it is the one there was.
-/
theorem cipherFor_nonces {s : Session} {label : Request × { n : ℕ // 0 < n }}
    {cipher : PairCipherContext} (hs : s.Sound)
    (hfor : cipherFor c accessory s label.1 = some cipher)
    (hbound : s.nonces.length + nblocksOf label.2 ≤ 2 ^ 64) :
    (cipher.encryptionCounter ≠ 0 → (cipher.encryptionKey, 0) ∈ s.nonces) ∧
      ((s.nonces ++ (Written.encrypted cipher.encryptionKey cipher.encryptionCounter
        (nblocksOf label.2)).nonces).Nodup → Counted s.nonces cipher) ∧
      ((s.nonces ++ (Written.encrypted cipher.encryptionKey cipher.encryptionCounter
        (nblocksOf label.2)).nonces).Nodup ↔
          s.nonces.Nodup ∧ KeepsNonces c accessory s label) := by
  cases hcompleted : completed c accessory s.context label.1 with
  | some secret =>
      obtain rfl : pairCipherNew c secret = cipher := by
        rwa [cipherFor, hcompleted, Option.map_some, Option.some_or, Option.some.injEq] at hfor
      have hkeeps : KeepsNonces c accessory s label ↔
          (pairCipherNew c secret).encryptionKey ∉ s.nonces.map Prod.fst := by
        rw [KeepsNonces, hcompleted]
        exact ⟨fun h => h secret rfl, fun h _ hsecret => Option.some.inj hsecret ▸ h⟩
      have hiff := nodup_append_new (pairCipherNew c secret).encryptionKey hs.zero_mem
        (nblocksOf_pos label.2) (by omega)
      refine ⟨fun h => absurd rfl h, fun hnodup => ?_,
        hiff.trans (and_congr_right fun _ => hkeeps.symm)⟩
      refine ⟨0, Nat.zero_le _, rfl, fun n => iff_of_false (fun hmem => ?_) (Nat.not_lt_zero _)⟩
      exact (hiff.mp hnodup).2 (List.mem_map_of_mem hmem)
  | none =>
      have hold : cipher ∈ s.context.cipherCtx := by
        rwa [cipherFor, hcompleted, Option.map_none, Option.none_or] at hfor
      have hkeeps : KeepsNonces c accessory s label := by
        rw [KeepsNonces, hcompleted]
        exact fun _ h => absurd h (Option.not_mem_none _)
      refine ⟨hs.zero_mem_of_counter cipher hold,
        fun h => hs.counted (List.Nodup.of_append_left h) cipher hold,
        fun h => ⟨List.Nodup.of_append_left h, hkeeps⟩, fun h => ?_⟩
      obtain ⟨k, hk, hcount, hmem⟩ := hs.counted h.1 cipher hold
      rw [hcount]
      exact (nodup_append_counted hmem (by omega)).mpr h.1

/-- Nothing has been encrypted, and this response is not. -/
theorem step_sound_plain {s s' : Session} {label : Request × { n : ℕ // 0 < n }} (hs : s.Sound)
    (hread : (read s.context).isEncrypted = false)
    (hresponses : s'.responses = s.responses ++ [.plain])
    (hencrypted : s'.context.isEncrypted = false)
    (hcipher : s'.context.cipherCtx = cipherFor c accessory s label.1) :
    s'.Sound ∧ (s'.nonces.Nodup ↔ s.nonces.Nodup ∧ KeepsNonces c accessory s label) := by
  have hnot : s.context.isEncrypted = false ∧ s.context.cipherCtx = none := by
    simpa [read] using hread
  have hnil := hs.nonces_eq_nil hnot.1
  have hnil' : s'.nonces = [] := by
    rw [nonces, hresponses, List.flatMap_append, ← nonces, hnil]
    rfl
  have hnew : ∀ cipher ∈ s'.context.cipherCtx, ∃ secret, pairCipherNew c secret = cipher := by
    intro cipher hmem
    rw [hcipher, cipherFor, hnot.2, Option.or_none, Option.mem_def,
      Option.map_eq_some_iff] at hmem
    obtain ⟨secret, -, hsecret⟩ := hmem
    exact ⟨secret, hsecret⟩
  refine ⟨⟨fun h => ?_, fun _ => hnil', fun key n h => ?_, fun cipher hmem h => ?_,
    fun _ cipher hmem => ?_⟩, ?_⟩
  · rw [hencrypted] at h
    cases h
  · rw [hnil'] at h
    cases h
  · obtain ⟨secret, rfl⟩ := hnew cipher hmem
    exact absurd rfl h
  · obtain ⟨secret, rfl⟩ := hnew cipher hmem
    exact ⟨0, Nat.zero_le _, rfl, fun n => by simp [hnil']⟩
  · rw [hnil', hnil]
    exact iff_of_true List.nodup_nil ⟨List.nodup_nil, fun _ _ => by simp [hnil]⟩

theorem step_sound {s s' : Session} {label : Request × { n : ℕ // 0 < n }} (hs : s.Sound)
    (hbound : s'.nonces.length ≤ 2 ^ 64) (h : step c accessory s label = some s') :
    s'.Sound ∧ (s'.nonces.Nodup ↔ s.nonces.Nodup ∧ KeepsNonces c accessory s label) := by
  rcases step_cases h with ⟨hread, hresponses, hencrypted, hcipher⟩ |
    ⟨-, hencrypted, cipher, hfor, hresponses, hcipher⟩
  · exact step_sound_plain hs hread hresponses hencrypted hcipher
  · have hnonces : s'.nonces = s.nonces ++
        (Written.encrypted cipher.encryptionKey cipher.encryptionCounter
          (nblocksOf label.2)).nonces := by
      rw [nonces, hresponses, List.flatMap_append, List.flatMap_singleton, nonces]
    have hlength : s.nonces.length + nblocksOf label.2 ≤ 2 ^ 64 := by
      rwa [hnonces, List.length_append, length_nonces_encrypted] at hbound
    obtain ⟨hcounter, hcounted, hiff⟩ := cipherFor_nonces hs hfor hlength
    rw [← hnonces] at hcounted hiff
    have hzero : (cipher.encryptionKey, 0) ∈ s'.nonces :=
      hnonces ▸ zero_mem_append hcounter (nblocksOf_pos label.2)
    refine ⟨⟨fun _ => by rw [hcipher]; rfl, fun h => ?_, fun key n h => ?_, fun new hnew _ => ?_,
      fun hnodup new hnew => ?_⟩, hiff⟩
    · rw [hencrypted] at h
      cases h
    · rw [hnonces, List.mem_append] at h
      rcases h with h | h
      · exact hnonces ▸ List.mem_append_left _ (hs.zero_mem key n h)
      · obtain ⟨i, -, hi⟩ := List.mem_map.mp h
        exact (Prod.mk.inj hi).1 ▸ hzero
    · obtain rfl := Option.some.inj (hcipher.symm.trans hnew)
      exact hzero
    · obtain rfl := Option.some.inj (hcipher.symm.trans hnew)
      rw [hnonces]
      exact (hcounted hnodup).append hlength

/-- On a connection no key and counter are used together twice if and only if no request completes a
pairing with a key that has been used. -/
theorem run_nonces_nodup_iff {labels : List (Request × { n : ℕ // 0 < n })} {s : Session}
    (h : run (step c accessory) new labels = some s) (hbound : s.nonces.length ≤ 2 ^ 64) :
    s.nonces.Nodup ↔ Along (step c accessory) (KeepsNonces c accessory) new labels := by
  have hback : ∀ s l t, step c accessory s l = some t → t.nonces.length ≤ 2 ^ 64 →
      s.nonces.length ≤ 2 ^ 64 := fun _ _ _ hstep => (length_nonces_le hstep).trans
  have hiff := run_iff_along (D := fun s => s.nonces.Nodup) hback
    (fun _ _ _ hs ht hstep => step_sound hs ht hstep) sound_new hbound h
  rwa [and_iff_right (show new.nonces.Nodup from List.nodup_nil)] at hiff

def againLabels : List (Request × { n : ℕ // 0 < n }) :=
  secondLabels ++ [(.pairVerify (secondValues.flatMap formatValue) [], ⟨1, Nat.one_pos⟩)]

/-- The key and the counter zero have been used twice. -/
theorem run_againLabels :
    ∃ s, run (step emptyCrypto defaultAccessory) new againLabels = some s ∧
      s.nonces = [(emptyCrypto.hkdfExtractExpand .controlRead zeros, 0),
        (emptyCrypto.hkdfExtractExpand .controlRead zeros, 0)] := by
  obtain ⟨s, hfirst, -, hcipher, hresponses, hctx⟩ :=
    @step_new_pairVerify emptyCrypto defaultAccessory _ [] secondValues ⟨tlvTypePublicKey, zeros⟩
      hasState_secondValues rfl rfl ⟨1, Nat.one_pos⟩
  obtain ⟨t, hsecond, hsame⟩ :=
    @step_other emptyCrypto defaultAccessory s _ hcipher ⟨1, Nat.one_pos⟩
  have hencrypted : (read t.context).isEncrypted = true := by
    rcases step_cases hsecond with ⟨hplain, -⟩ | ⟨-, hencrypted, -⟩
    · rw [read, hcipher, Option.isSome_some, Bool.or_true] at hplain
      cases hplain
    · rw [read, hencrypted, Bool.true_or]
  obtain ⟨u, hthird, hagain⟩ := @step_again emptyCrypto defaultAccessory t _ _ [] secondValues
    ⟨tlvTypePublicKey, zeros⟩ (hsame.trans hctx) rfl (by decide) hencrypted hasState_secondValues
    rfl rfl ⟨1, Nat.one_pos⟩
  refine ⟨u, run_cons_eq_some_iff.mpr ⟨s, hfirst, run_cons_eq_some_iff.mpr ⟨t, hsecond,
    run_cons_eq_some_iff.mpr ⟨u, hthird, rfl⟩⟩⟩, ?_⟩
  rw [nonces, hagain, responses_of_cipher hcipher rfl hsecond, hresponses]
  rfl

theorem run_nonces_nodup_iff_zeros :
    ∃ s, run (step emptyCrypto defaultAccessory) new againLabels = some s ∧ ¬s.nonces.Nodup ∧
      (s.nonces.Nodup ↔ Along (step emptyCrypto defaultAccessory)
        (KeepsNonces emptyCrypto defaultAccessory) new againLabels) := by
  obtain ⟨s, hrun, hnonces⟩ := run_againLabels
  refine ⟨s, hrun, ?_, run_nonces_nodup_iff hrun (by rw [hnonces]; decide)⟩
  rw [hnonces]
  simp

end Nonces

/-! ## The switch -/

section Switch

variable {c : Crypto} {accessory : Accessory}

variable (c accessory) in
/-- The request does not complete a pairing. -/
def LeavesPlain (s : Session) (label : Request × { n : ℕ // 0 < n }) : Prop :=
  completed c accessory s.context label.1 = none

def HasCipher (s : Session) : Prop :=
  s.context.isEncrypted = true → s.context.cipherCtx.isSome

theorem isEncrypted_read {s : Session} (hs : s.HasCipher) :
    (read s.context).isEncrypted = s.context.cipherCtx.isSome := by
  rw [read]
  cases hencrypted : s.context.isEncrypted with
  | false => exact Bool.false_or _
  | true => exact (hs hencrypted).symm

theorem step_cipherCtx {s s' : Session} {label : Request × { n : ℕ // 0 < n }}
    (h : step c accessory s label = some s') :
    s'.HasCipher ∧ (s'.context.cipherCtx = none ↔
      s.context.cipherCtx = none ∧ LeavesPlain c accessory s label) := by
  have hfor : cipherFor c accessory s label.1 = none ↔
      s.context.cipherCtx = none ∧ LeavesPlain c accessory s label := by
    rw [cipherFor, Option.or_eq_none_iff, Option.map_eq_none_iff, and_comm, LeavesPlain]
  rcases step_cases h with ⟨-, -, hencrypted, hcipher⟩ | ⟨-, -, cipher, hsome, -, hcipher⟩
  · refine ⟨fun h => ?_, by rw [hcipher, hfor]⟩
    rw [hencrypted] at h
    cases h
  · refine ⟨fun _ => by rw [hcipher]; rfl, ?_⟩
    rw [← hfor, hcipher, hsome]
    exact iff_of_false (Option.some_ne_none _) (Option.some_ne_none _)

theorem hasCipher_run {t : Session} {labels : List (Request × { n : ℕ // 0 < n })}
    (h : run (step c accessory) new labels = some t) : t.HasCipher :=
  (throughout_of_invariant (I := HasCipher) (fun _ _ _ _ hstep => (step_cipherCtx hstep).1)
    fun h => absurd h Bool.false_ne_true).last h

theorem run_cipherCtx {t : Session} {labels : List (Request × { n : ℕ // 0 < n })}
    (h : run (step c accessory) new labels = some t) :
    t.context.cipherCtx = none ↔ Along (step c accessory) (LeavesPlain c accessory) new labels := by
  have hiff := run_iff_along (I := fun _ => True) (B := fun _ => True)
    (D := fun s => s.context.cipherCtx = none) (fun _ _ _ _ => id)
    (fun s label t _ _ hstep => ⟨trivial, (@step_cipherCtx c accessory s t label hstep).2⟩)
    trivial trivial h
  rwa [and_iff_right (show new.context.cipherCtx = none from rfl)] at hiff

theorem run_responses {labels : List (Request × { n : ℕ // 0 < n })} {s t : Session}
    (h : run (step c accessory) s labels = some t) :
    ∃ more, t.responses = s.responses ++ more ∧ more.length = labels.length := by
  induction labels generalizing s with
  | nil =>
      obtain rfl := Option.some.inj h
      exact ⟨[], (List.append_nil _).symm, rfl⟩
  | cons label labels ih =>
      obtain ⟨u, hu, h⟩ := run_cons_eq_some_iff.mp h
      obtain ⟨more, hmore, hlength⟩ := ih h
      obtain ⟨written, hresponses⟩ : ∃ written, u.responses = s.responses ++ [written] := by
        rcases step_cases hu with ⟨-, hresponses, -⟩ | ⟨-, -, cipher, -, hresponses, -⟩
        · exact ⟨_, hresponses⟩
        · exact ⟨_, hresponses⟩
      refine ⟨written :: more, ?_, ?_⟩
      · rw [hmore, hresponses, List.append_assoc, List.singleton_append]
      · rw [List.length_cons, List.length_cons, hlength]

/-- A response is written as it is if and only if no request before its own has completed a pairing.
The response to the first one that does is still written as it is. -/
theorem responses_plain_iff {before after : List (Request × { n : ℕ // 0 < n })}
    {label : Request × { n : ℕ // 0 < n }} {s : Session}
    (h : run (step c accessory) new (before ++ label :: after) = some s) :
    s.responses[before.length]? = some .plain ↔
      Along (step c accessory) (LeavesPlain c accessory) new before := by
  rw [run_append] at h
  obtain ⟨t, ht, h⟩ := Option.bind_eq_some_iff.mp h
  obtain ⟨u, hu, h⟩ := run_cons_eq_some_iff.mp h
  obtain ⟨first, hfirst, hlength⟩ := run_responses ht
  obtain ⟨more, hmore, -⟩ := run_responses h
  have hbefore : t.responses.length = before.length := by
    rw [hfirst, List.length_append, hlength]
    exact Nat.zero_add _
  rw [← run_cipherCtx ht, ← Option.not_isSome_iff_eq_none, ← isEncrypted_read (hasCipher_run ht),
    hmore, ← hbefore]
  rcases step_cases hu with ⟨hread, hresponses, -⟩ | ⟨hread, -, cipher, -, hresponses, -⟩
  · simp [hread, hresponses]
  · simp [hread, hresponses]

theorem responses_plain_iff_zeros :
    ∃ s, run (step emptyCrypto defaultAccessory) new secondLabels = some s ∧
      (s.responses[1]? = some .plain ↔ Along (step emptyCrypto defaultAccessory)
        (LeavesPlain emptyCrypto defaultAccessory) new (secondLabels.take 1)) := by
  obtain ⟨s, hrun, -⟩ := run_secondLabels
  exact ⟨s, hrun, @responses_plain_iff emptyCrypto defaultAccessory (secondLabels.take 1) []
    (.other, ⟨1, Nat.one_pos⟩) s hrun⟩

/-- On a new connection a message of a verification that says it is the second one, with any key of
32 bytes, is answered. The response to the next request, if that does not complete a pairing, is
encrypted with a key that is derived from 32 zeros. -/
theorem run_zeros {content random : Bytes} {request : PairTlvValues} {pk : PairTlv}
    (hcontent : HasState content 2 request)
    (hpk : pairTlvGetValue request tlvTypePublicKey = some pk) (hlength : pk.value.length = 32)
    (n : { n : ℕ // 0 < n }) :
    ∃ s, step c accessory new (.pairVerify content random, n) = some s ∧
      s.responses = [.plain] ∧
      (∀ label t, completed c accessory s.context label.1 = none →
        step c accessory s label = some t →
          t.responses =
            [.plain, .encrypted (c.hkdfExtractExpand .controlRead zeros) 0 (nblocksOf label.2)]) ∧
      ∀ n', ∃ t, step c accessory s (.other, n') = some t := by
  obtain ⟨s, hfirst, -, hcipher, hresponses, -⟩ :=
    @step_new_pairVerify c accessory content random request pk hcontent hpk hlength n
  refine ⟨s, hfirst, hresponses, fun label t hcompleted hstep => ?_, fun n' => ?_⟩
  · rw [responses_of_cipher hcipher hcompleted hstep, hresponses]
    rfl
  · obtain ⟨t, ht, -⟩ := @step_other c accessory s _ hcipher n'
    exact ⟨t, ht⟩

theorem run_zeros_key :
    ∃ s, step emptyCrypto defaultAccessory new
        (.pairVerify (secondValues.flatMap formatValue) [], ⟨1, Nat.one_pos⟩) = some s ∧
      s.responses = [.plain] ∧
      (∀ label t, completed emptyCrypto defaultAccessory s.context label.1 = none →
        step emptyCrypto defaultAccessory s label = some t →
          t.responses = [.plain, .encrypted (emptyCrypto.hkdfExtractExpand .controlRead zeros) 0
            (nblocksOf label.2)]) ∧
      ∀ n', ∃ t, step emptyCrypto defaultAccessory s (.other, n') = some t :=
  run_zeros hasState_secondValues rfl rfl ⟨1, Nat.one_pos⟩

end Switch

end Session

end Pairing

end ShairportSync
