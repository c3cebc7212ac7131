import ShairportSync.Memory.Store
import ShairportSync.Player.Basic
import ShairportSync.Transition.Run

/-!
# The encrypted control channel

`read_encrypted` receives ciphertext in whatever pieces it comes, and keeps in one `sized_buffer`
what `pair_decrypt` has not consumed, and in another what has been decrypted and not asked for.

`pair_decrypt` is a parameter: it consumes whole blocks from the start of what it is given, as many
as it likes, or fails and has consumed nothing. The one for HomeKit is `decrypt`. The stream is a
sequence of blocks; `Delivered` says what has become of each of its bytes.
-/

namespace ShairportSync

namespace Rtsp

open Player (Bytes)
open Memory
open Transition

/-! ## Sized buffers -/

/-- `sized_buffer`: the memory at `data`, how many bytes of it are in use and how many there are. -/
structure SizedBuffer where
  data : Int → BitVec 8
  length : ℕ
  size : ℕ
  length_le : length ≤ size

namespace SizedBuffer

def contents (buf : SizedBuffer) : Bytes := (List.range buf.length).map fun k => buf.data (k : ℕ)

/-- A buffer that has been cleared with `memset`. -/
def cleared (memory : Int → BitVec 8) : SizedBuffer := ⟨memory, 0, 0, le_rfl⟩

/-- `buf_add`, where `malloc` returns this memory. -/
def bufAdd (fresh : Int → BitVec 8) (buf : SizedBuffer) (bytes : Bytes) : SizedBuffer :=
  if h : buf.size < buf.length + bytes.length then
    { data := store (store fresh 0 buf.contents) buf.length bytes
      length := buf.length + bytes.length
      size := buf.length + bytes.length + 2048
      length_le := Nat.le_add_right _ _ }
  else
    { data := store buf.data buf.length bytes
      length := buf.length + bytes.length
      size := buf.size
      length_le := not_lt.mp h }

def bufDrain (buf : SizedBuffer) (len : Int) : SizedBuffer :=
  if len < 0 ∨ buf.length ≤ len then cleared buf.data
  else
    { data := store buf.data 0 (buf.contents.drop len.toNat)
      length := buf.length - len.toNat
      size := buf.size
      length_le := (Nat.sub_le _ _).trans buf.length_le }

/-- `buf_remove`: the bytes that are put in `out`, and what is left. -/
def bufRemove (buf : SizedBuffer) (outLen : ℕ) : Bytes × SizedBuffer :=
  let bytes := if outLen < buf.length then outLen else buf.length
  (buf.contents.take bytes, buf.bufDrain bytes)

end SizedBuffer

/-! ## Reading -/

structure PairCipherBundle (σ : Type) where
  cipherCtx : σ
  encryptedReadBuffer : SizedBuffer
  plaintextReadBuffer : SizedBuffer

/-- What a call of `read_encrypted` returns, and what it puts in `buf`. -/
structure ReadReturn where
  ret : Int
  bytes : Bytes
deriving DecidableEq

/-- The bundle, the count of a call that is in its loop, the ciphertext that has not been received,
and what the calls have returned. -/
structure ControlChannel (σ : Type) where
  bundle : PairCipherBundle σ
  reading : Option ℕ
  unread : Bytes
  returned : List ReadReturn

/-- A call, or what `read` returns in it: so many bytes, or a number that is not positive. -/
inductive ControlLabel where
  | readEncrypted (count : ℕ)
  | received (got : ℕ)
  | notReceived (got : Int)
deriving DecidableEq

namespace ControlChannel

abbrev inSize : ℕ := 4096

section Step

variable {σ : Type} (pairDecrypt : σ → Bytes → Option (ℕ × Bytes) × σ) (fresh : Int → BitVec 8)

def start (memory : Int → BitVec 8) (cipherCtx : σ) (ciphertext : Bytes) : ControlChannel σ where
  bundle := ⟨cipherCtx, .cleared memory, .cleared memory⟩
  reading := none
  unread := ciphertext
  returned := []

def returns (s : ControlChannel σ) (ret : Int) : ControlChannel σ :=
  { s with reading := none, returned := s.returned ++ [⟨ret, []⟩] }

/-- `return buf_remove(&ctx->plaintext_read_buffer, buf, count);` -/
def returnPlaintext (s : ControlChannel σ) (count : ℕ) : ControlChannel σ :=
  let (bytes, plaintextReadBuffer) := s.bundle.plaintextReadBuffer.bufRemove count
  { s with
    bundle := { s.bundle with plaintextReadBuffer := plaintextReadBuffer }
    reading := none
    returned := s.returned ++ [⟨bytes.length, bytes⟩] }

/-- The rest of a turn of the loop, in a call with this count, when these bytes have been received.
-/
def turn (s : ControlChannel σ) (count : ℕ) (bytes : Bytes) : ControlChannel σ :=
  let encrypted := s.bundle.encryptedReadBuffer.bufAdd fresh bytes
  match pairDecrypt s.bundle.cipherCtx encrypted.contents with
  | (none, ctx) =>
      let bundle := { s.bundle with cipherCtx := ctx, encryptedReadBuffer := encrypted }
      { s with bundle := bundle }.returns (-1)
  | (some (consumed, plain), ctx) =>
      let bundle : PairCipherBundle σ :=
        { s.bundle with cipherCtx := ctx, encryptedReadBuffer := encrypted.bufDrain consumed }
      if plain.length = 0 then { s with bundle := bundle }
      else
        { s with
          bundle :=
            { bundle with
              plaintextReadBuffer :=
                bundle.plaintextReadBuffer.bufAdd fresh plain } }.returnPlaintext count

def step (s : ControlChannel σ) : ControlLabel → Option (ControlChannel σ)
  | .readEncrypted count =>
      if s.reading.isSome then none
      else if 0 < s.bundle.plaintextReadBuffer.length then some (s.returnPlaintext count)
      else some { s with reading := some count }
  | .received got =>
      match s.reading with
      | none => none
      | some count =>
          if 1 ≤ got ∧ got ≤ inSize ∧ got ≤ s.unread.length then
            some ({ s with unread := s.unread.drop got }.turn pairDecrypt fresh count
              (s.unread.take got))
          else none
  | .notReceived got => if s.reading.isSome ∧ got ≤ 0 then some (s.returns got) else none

end Step

end ControlChannel

/-! ## Blocks -/

/-- A block of the stream: what is sent, and what it stands for. -/
structure CipherBlock where
  cipher : Bytes
  plain : Bytes
deriving DecidableEq

def ciphertext (blocks : List CipherBlock) : Bytes := blocks.flatMap CipherBlock.cipher

def plaintext (blocks : List CipherBlock) : Bytes := blocks.flatMap CipherBlock.plain

/-- From a context that is ready for some blocks and the start of their ciphertext, `pair_decrypt`
makes the plaintext of those blocks that it consumes. -/
structure DecryptsBlocks {σ : Type} (pairDecrypt : σ → Bytes → Option (ℕ × Bytes) × σ)
    (Ready : σ → List CipherBlock → Prop) : Prop where
  failed : ∀ {ctx ctx' : σ} {blocks : List CipherBlock} {input : Bytes}, Ready ctx blocks →
    input <+: ciphertext blocks → pairDecrypt ctx input = (none, ctx') → Ready ctx' blocks
  consumed : ∀ {ctx ctx' : σ} {blocks : List CipherBlock} {input plain : Bytes} {consumed : ℕ},
    Ready ctx blocks → input <+: ciphertext blocks →
    pairDecrypt ctx input = (some (consumed, plain), ctx') →
    ∃ done rest, blocks = done ++ rest ∧ ciphertext done <+: input ∧
      consumed = (ciphertext done).length ∧ plain = plaintext done ∧ Ready ctx' rest

/-! ## What the buffers hold -/

namespace SizedBuffer

variable {fresh : Int → BitVec 8} (buf : SizedBuffer)

theorem length_contents : buf.contents.length = buf.length := by
  rw [contents, List.length_map, List.length_range]

theorem holds_contents : Holds buf.data buf.contents := by
  intro k hk
  simp only [contents, List.getElem_map, List.getElem_range]

theorem contents_eq {buf : SizedBuffer} {out : Bytes} (h : Holds buf.data out)
    (hlength : buf.length = out.length) : buf.contents = out := by
  rw [contents, hlength]
  exact h.read

@[simp] theorem contents_cleared (memory : Int → BitVec 8) : (cleared memory).contents = [] := rfl

@[simp] theorem contents_bufAdd (bytes : Bytes) :
    (buf.bufAdd fresh bytes).contents = buf.contents ++ bytes := by
  rw [bufAdd]
  split
  · have hcopy := (holds_nil fresh).store buf.contents
    refine contents_eq ?_ ?_
    · have hbehind := hcopy.store bytes
      rwa [List.nil_append, length_contents] at hbehind
    · rw [List.length_append, length_contents]
  · refine contents_eq ?_ ?_
    · have hbehind := buf.holds_contents.store bytes
      rwa [length_contents] at hbehind
    · rw [List.length_append, length_contents]

@[simp] theorem contents_bufDrain (len : ℕ) :
    (buf.bufDrain len).contents = buf.contents.drop len := by
  rw [bufDrain]
  split
  · next hall =>
    rw [contents_cleared, List.drop_of_length_le (by rw [length_contents]; omega)]
  · refine contents_eq ?_ ?_
    · exact (holds_nil buf.data).store (buf.contents.drop len)
    · rw [List.length_drop, length_contents]
      rfl

theorem bufRemove_append (outLen : ℕ) :
    (buf.bufRemove outLen).1 ++ (buf.bufRemove outLen).2.contents = buf.contents := by
  rw [bufRemove]
  exact (contents_bufDrain buf _).symm ▸ List.take_append_drop _ _

end SizedBuffer

/-! ## What has been delivered -/

theorem ciphertext_cons (b : CipherBlock) (bs : List CipherBlock) :
    ciphertext (b :: bs) = b.cipher ++ ciphertext bs := List.flatMap_cons

theorem plaintext_cons (b : CipherBlock) (bs : List CipherBlock) :
    plaintext (b :: bs) = b.plain ++ plaintext bs := List.flatMap_cons

theorem ciphertext_append (bs bs' : List CipherBlock) :
    ciphertext (bs ++ bs') = ciphertext bs ++ ciphertext bs' := List.flatMap_append

theorem plaintext_append (bs bs' : List CipherBlock) :
    plaintext (bs ++ bs') = plaintext bs ++ plaintext bs' := List.flatMap_append

namespace ControlChannel

section Delivery

variable {σ : Type} {pairDecrypt : σ → Bytes → Option (ℕ × Bytes) × σ} {fresh : Int → BitVec 8}
  {Ready : σ → List CipherBlock → Prop} {blocks : List CipherBlock} {s s' : ControlChannel σ}

/-- The results of the calls put together. -/
def delivered (s : ControlChannel σ) : Bytes := s.returned.flatMap ReadReturn.bytes

/-- The plaintext of the stream is what has been delivered, what is kept, and that of the blocks of
which the ciphertext is kept or has not been received. -/
structure Accounted (Ready : σ → List CipherBlock → Prop) (blocks : List CipherBlock)
    (s : ControlChannel σ) (rest : List CipherBlock) : Prop where
  ready : Ready s.bundle.cipherCtx rest
  plain : s.delivered ++ s.bundle.plaintextReadBuffer.contents ++ plaintext rest = plaintext blocks
  cipher : s.bundle.encryptedReadBuffer.contents ++ s.unread = ciphertext rest
  counted : ∀ r ∈ s.returned, r.ret.toNat = r.bytes.length

theorem Accounted.returns {rest : List CipherBlock} (h : Accounted Ready blocks s rest) {ret : Int}
    (hret : ret ≤ 0) : Accounted Ready blocks (s.returns ret) rest := by
  refine ⟨h.ready, ?_, h.cipher, ?_⟩
  · rw [← h.plain]
    simp [delivered, ControlChannel.returns]
  · intro r hr
    rcases List.mem_append.mp hr with hr | hr
    · exact h.counted r hr
    · obtain rfl := List.mem_singleton.mp hr
      exact Int.toNat_of_nonpos hret

theorem Accounted.returnPlaintext {rest : List CipherBlock} (h : Accounted Ready blocks s rest)
    (count : ℕ) : Accounted Ready blocks (s.returnPlaintext count) rest := by
  refine ⟨h.ready, ?_, h.cipher, ?_⟩
  · rw [← h.plain, ← SizedBuffer.bufRemove_append s.bundle.plaintextReadBuffer count]
    simp [delivered, ControlChannel.returnPlaintext]
  · intro r hr
    rcases List.mem_append.mp hr with hr | hr
    · exact h.counted r hr
    · obtain rfl := List.mem_singleton.mp hr
      exact Int.toNat_natCast _

theorem Accounted.turn (hdecrypt : DecryptsBlocks pairDecrypt Ready) {rest : List CipherBlock}
    (h : Accounted Ready blocks s rest) (count got : ℕ) :
    ∃ rest', Accounted Ready blocks ({ s with unread := s.unread.drop got }.turn pairDecrypt fresh
      count (s.unread.take got)) rest' := by
  have hcontents := @SizedBuffer.contents_bufAdd fresh s.bundle.encryptedReadBuffer
    (s.unread.take got)
  have hinput : s.bundle.encryptedReadBuffer.contents ++ s.unread.take got ++ s.unread.drop got =
      ciphertext rest := by
    rw [List.append_assoc, List.take_append_drop, h.cipher]
  have hprefix : s.bundle.encryptedReadBuffer.contents ++ s.unread.take got <+: ciphertext rest :=
    ⟨_, hinput⟩
  rw [ControlChannel.turn]
  simp only [hcontents]
  split
  · next ctx hfailed =>
    refine ⟨rest, Accounted.returns ?_ (by decide)⟩
    exact ⟨hdecrypt.failed h.ready hprefix hfailed, h.plain, by rw [hcontents, hinput], h.counted⟩
  · next consumed plain ctx hconsumed =>
    obtain ⟨done, rest', rfl, hdone, rfl, rfl, hready⟩ :=
      hdecrypt.consumed h.ready hprefix hconsumed
    have hcipher : (s.bundle.encryptedReadBuffer.contents ++ s.unread.take got).drop
        (ciphertext done).length ++ s.unread.drop got = ciphertext rest' := by
      obtain ⟨tail, htail⟩ := hdone
      rw [ciphertext_append, ← htail, List.append_assoc] at hinput
      rw [← htail, List.drop_left]
      exact List.append_cancel_left hinput
    have hplain := h.plain
    rw [plaintext_append] at hplain
    refine ⟨rest', ?_⟩
    split
    · next hnil =>
      rw [List.length_eq_zero_iff.mp hnil, List.nil_append] at hplain
      exact ⟨hready, hplain, by rw [SizedBuffer.contents_bufDrain, hcontents, hcipher], h.counted⟩
    · refine Accounted.returnPlaintext ?_ count
      refine ⟨hready, ?_, ?_, h.counted⟩
      · rw [SizedBuffer.contents_bufAdd, ← hplain]
        simp [delivered]
      · rw [SizedBuffer.contents_bufDrain, hcontents, hcipher]

theorem step_accounted (hdecrypt : DecryptsBlocks pairDecrypt Ready) {l : ControlLabel}
    (h : ∃ rest, Accounted Ready blocks s rest) (hstep : step pairDecrypt fresh s l = some s') :
    ∃ rest, Accounted Ready blocks s' rest := by
  obtain ⟨rest, h⟩ := h
  cases l with
  | readEncrypted count =>
      simp only [step] at hstep
      split at hstep
      · cases hstep
      · split at hstep
        · cases hstep
          exact ⟨rest, h.returnPlaintext count⟩
        · cases hstep
          exact ⟨rest, ⟨h.ready, h.plain, h.cipher, h.counted⟩⟩
  | received got =>
      simp only [step] at hstep
      split at hstep
      · cases hstep
      · next count hreading =>
        split at hstep
        · cases hstep
          exact h.turn hdecrypt count got
        · cases hstep
  | notReceived got =>
      simp only [step] at hstep
      split at hstep
      · next hgot =>
        cases hstep
        exact ⟨rest, h.returns hgot.2⟩
      · cases hstep

/-- The results of the calls are the start of the plaintext, and every byte behind it is still in a
buffer or in a block that has not been consumed; the buffers have room for what they hold. -/
theorem run_delivers (hdecrypt : DecryptsBlocks pairDecrypt Ready) (memory : Int → BitVec 8)
    {cipherCtx : σ} (hready : Ready cipherCtx blocks) {ls : List ControlLabel}
    (hrun : run (step pairDecrypt fresh) (start memory cipherCtx (ciphertext blocks)) ls = some s) :
    s.delivered <+: plaintext blocks ∧
      (∃ rest, s.delivered ++ s.bundle.plaintextReadBuffer.contents ++ plaintext rest =
          plaintext blocks ∧
        s.bundle.encryptedReadBuffer.contents ++ s.unread = ciphertext rest) ∧
      (∀ r ∈ s.returned, r.ret.toNat = r.bytes.length) ∧
      s.bundle.encryptedReadBuffer.length ≤ s.bundle.encryptedReadBuffer.size ∧
      s.bundle.plaintextReadBuffer.length ≤ s.bundle.plaintextReadBuffer.size := by
  have hstart : ∃ rest, Accounted Ready blocks (start memory cipherCtx (ciphertext blocks)) rest :=
    ⟨blocks, hready, rfl, rfl, by simp [start]⟩
  obtain ⟨rest, h⟩ := (throughout_of_invariant
    (fun _ _ _ hI hstep => step_accounted hdecrypt hI hstep) hstart).last hrun
  refine ⟨⟨s.bundle.plaintextReadBuffer.contents ++ plaintext rest, ?_⟩,
    ⟨rest, h.plain, h.cipher⟩, h.counted, SizedBuffer.length_le _, SizedBuffer.length_le _⟩
  rw [← h.plain, List.append_assoc]

end Delivery

end ControlChannel

/-!
## The blocks of HomeKit

`decryptChacha` stands for `decrypt_chacha`: it makes the plaintext of a block, from the counter in
the nonce, the bytes of the length, the ciphertext and the tag.
-/

section HomeKit

abbrev authtagLength : ℕ := 16

/-- `block_len`, from the first two bytes of a block. -/
def blockLen (cipherBlock : Bytes) : ℕ :=
  (cipherBlock.getD 0 0).toNat + 2 ^ 8 * (cipherBlock.getD 1 0).toNat

def blockLenBytes (n : ℕ) : Bytes := [BitVec.ofNat 8 n, BitVec.ofNat 8 (n / 2 ^ 8)]

variable (decryptChacha : BitVec 64 → Bytes → Bytes → Bytes → Option Bytes)

/-- The loop of `decrypt`: how much it consumes, the plaintext, and the counter. -/
def decryptLoop (decryptionCounter : BitVec 64) (cipherBlock : Bytes) :
    Option (ℕ × Bytes × BitVec 64) :=
  if cipherBlock.length < blockLen cipherBlock + 2 + authtagLength then
    some (0, [], decryptionCounter)
  else
    match decryptChacha decryptionCounter (cipherBlock.take 2)
        ((cipherBlock.drop 2).take (blockLen cipherBlock))
        ((cipherBlock.drop (2 + blockLen cipherBlock)).take authtagLength) with
    | none => none
    | some plainBlock =>
        (decryptLoop (decryptionCounter + 1)
          (cipherBlock.drop (blockLen cipherBlock + 2 + authtagLength))).map
            fun (consumed, plain, counter) =>
              (blockLen cipherBlock + 2 + authtagLength + consumed, plainBlock ++ plain, counter)
  termination_by cipherBlock.length
  decreasing_by
    simp only [List.length_drop, authtagLength] at *
    omega

/-- `decrypt`, which starts over from the counter it had if it fails. -/
def decrypt (decryptionCounter : BitVec 64) (bytes : Bytes) :
    Option (ℕ × Bytes) × BitVec 64 :=
  if bytes.length < 2 then (none, decryptionCounter)
  else
    match decryptLoop decryptChacha decryptionCounter bytes with
    | none => (none, decryptionCounter)
    | some (consumed, plain, counter) => (some (consumed, plain), counter)

/-- A length, the ciphertext and a tag, with which it can be decrypted. -/
structure CipherBlock.Encrypted (counter : BitVec 64) (b : CipherBlock) : Prop where
  exists_cipher : ∃ body tag, b.cipher = blockLenBytes body.length ++ (body ++ tag) ∧
    body.length < 2 ^ 16 ∧ tag.length = authtagLength ∧
    decryptChacha counter (blockLenBytes body.length) body tag = some b.plain

def EncryptedFrom : BitVec 64 → List CipherBlock → Prop
  | _, [] => True
  | counter, b :: blocks => b.Encrypted decryptChacha counter ∧ EncryptedFrom (counter + 1) blocks

variable {decryptChacha}

theorem blockLen_of_prefix {n : ℕ} (hn : n < 2 ^ 16) {input tail : Bytes}
    (h : input <+: blockLenBytes n ++ tail) (hinput : 2 ≤ input.length) : blockLen input = n := by
  obtain ⟨rest, hrest⟩ := h
  match input, hinput with
  | x :: y :: input, _ =>
      obtain ⟨rfl, rfl, -⟩ : x = BitVec.ofNat 8 n ∧ y = BitVec.ofNat 8 (n / 2 ^ 8) ∧ _ := by
        simpa [blockLenBytes] using hrest
      simp only [blockLen, List.getD_cons_zero, List.getD_cons_succ, BitVec.toNat_ofNat]
      omega

theorem add_one_add_ofNat (counter : BitVec 64) (n : ℕ) :
    counter + 1 + BitVec.ofNat 64 n = counter + BitVec.ofNat 64 (n + 1) := by
  rw [BitVec.ofNat_add, BitVec.add_assoc]
  exact congrArg (counter + ·) (BitVec.add_comm _ _)

/-- The loop consumes the blocks that are complete. -/
theorem decryptLoop_spec (blocks : List CipherBlock) {counter : BitVec 64} {input : Bytes}
    (hblocks : EncryptedFrom decryptChacha counter blocks) (hinput : input <+: ciphertext blocks) :
    ∃ done rest counter', decryptLoop decryptChacha counter input =
        some ((ciphertext done).length, plaintext done, counter') ∧
      blocks = done ++ rest ∧ ciphertext done <+: input ∧
      EncryptedFrom decryptChacha counter' rest ∧
      counter' = counter + BitVec.ofNat 64 done.length := by
  induction blocks generalizing counter input with
  | nil =>
      obtain rfl := List.prefix_nil.mp hinput
      refine ⟨[], [], counter, ?_, rfl, List.prefix_rfl, trivial, (BitVec.add_zero _).symm⟩
      rw [decryptLoop, if_pos (by decide)]
      rfl
  | cons b blocks ih =>
      obtain ⟨⟨body, tag, hcipher, hbody, htag, hchacha⟩, hrest⟩ := hblocks
      rw [ciphertext_cons] at hinput
      have hlength : b.cipher.length = body.length + 2 + authtagLength := by
        rw [hcipher, List.length_append, List.length_append, htag]
        simp only [blockLenBytes, List.length_cons, List.length_nil]
        omega
      have hlen : 2 ≤ input.length → blockLen input = body.length := fun htwo => by
        rw [hcipher, List.append_assoc] at hinput
        exact blockLen_of_prefix hbody hinput htwo
      rw [decryptLoop]
      rcases Nat.lt_or_ge input.length b.cipher.length with hlt | hle
      · refine ⟨[], b :: blocks, counter, ?_, rfl, List.nil_prefix,
          ⟨⟨body, tag, hcipher, hbody, htag, hchacha⟩, hrest⟩, (BitVec.add_zero _).symm⟩
        rw [if_pos]
        · rfl
        · rcases Nat.lt_or_ge input.length 2 with hshort | htwo
          · simp only [authtagLength]
            omega
          · rw [hlen htwo]
            omega
      · have hb : b.cipher <+: input :=
          List.prefix_of_prefix_length_le (List.prefix_append _ _) hinput hle
        obtain ⟨input, rfl⟩ := hb
        obtain ⟨done, rest, counter', hloop, rfl, hdone, hready, rfl⟩ :=
          ih hrest ((List.prefix_append_right_inj _).mp hinput)
        have hblockLen := hlen (by rw [List.length_append]; omega)
        have hdrop : (b.cipher ++ input).drop (body.length + 2 + authtagLength) = input := by
          rw [← hlength, List.drop_left]
        have htake₂ : (b.cipher ++ input).take 2 = blockLenBytes body.length := by
          rw [hcipher]
          rfl
        have htakeBody : ((b.cipher ++ input).drop 2).take body.length = body := by
          rw [hcipher, List.append_assoc, List.append_assoc]
          exact List.take_left
        have htakeTag : ((b.cipher ++ input).drop (2 + body.length)).take authtagLength = tag := by
          rw [hcipher, List.append_assoc, List.append_assoc, ← List.drop_drop, ← htag]
          change ((body ++ (tag ++ input)).drop body.length).take tag.length = tag
          rw [List.drop_left, List.take_left]
        refine ⟨b :: done, rest, _, ?_, rfl, ?_, hready, add_one_add_ofNat counter done.length⟩
        · rw [if_neg (by rw [hblockLen, List.length_append]; omega)]
          simp only [hblockLen, htake₂, htakeBody, htakeTag, hchacha, hdrop, hloop, Option.map_some]
          rw [ciphertext_cons, plaintext_cons, List.length_append, hlength]
        · rw [ciphertext_cons]
          exact (List.prefix_append_right_inj _).mpr hdone

theorem decrypt_decryptsBlocks :
    DecryptsBlocks (decrypt decryptChacha) (EncryptedFrom decryptChacha) where
  failed := by
    intro ctx ctx' blocks input hready hinput hfailed
    obtain ⟨done, rest, counter', hloop, -, -, -⟩ := decryptLoop_spec blocks hready hinput
    rw [decrypt, hloop] at hfailed
    split at hfailed
    · cases hfailed
      exact hready
    · cases hfailed
  consumed := by
    intro ctx ctx' blocks input plain consumed hready hinput hconsumed
    obtain ⟨done, rest, counter', hloop, hblocks, hdone, hrest, -⟩ :=
      decryptLoop_spec blocks hready hinput
    rw [decrypt, hloop] at hconsumed
    split at hconsumed
    · cases hconsumed
    · cases hconsumed
      exact ⟨done, rest, hblocks, hdone, rfl, rfl, hrest⟩

def xorCipher (counter : BitVec 64) (_ body _ : Bytes) : Option Bytes :=
  some (body.map fun b => b ^^^ counter.setWidth 8)

def twoBlocks : List CipherBlock :=
  [⟨blockLenBytes 3 ++ ([104, 101, 108] ++ List.replicate 16 0), [104, 101, 108]⟩,
    ⟨blockLenBytes 2 ++ ([109, 110] ++ List.replicate 16 0), [108, 111]⟩]

theorem encryptedFrom_twoBlocks : EncryptedFrom xorCipher 0 twoBlocks :=
  ⟨⟨[104, 101, 108], List.replicate 16 0, rfl, by decide, rfl, by decide⟩,
    ⟨[109, 110], List.replicate 16 0, rfl, by decide, rfl, by decide⟩, trivial⟩

def threePieces : List ControlLabel :=
  [.readEncrypted 2, .received 5, .received 30, .readEncrypted 9, .readEncrypted 9, .received 6]

theorem run_delivers_twoBlocks :
    ∃ s, run (ControlChannel.step (decrypt xorCipher) fun _ => 0)
        (.start (fun _ => 0) 0 (ciphertext twoBlocks)) threePieces = some s ∧
      s.delivered <+: [104, 101, 108, 108, 111] := by
  have hsome : (run (ControlChannel.step (decrypt xorCipher) fun _ => 0)
      (.start (fun _ => 0) 0 (ciphertext twoBlocks)) threePieces).isSome = true := by decide +kernel
  obtain ⟨s, hs⟩ := Option.isSome_iff_exists.mp hsome
  exact ⟨s, hs, (ControlChannel.run_delivers decrypt_decryptsBlocks (fun _ => 0)
    encryptedFrom_twoBlocks hs).1⟩

example : ((run (ControlChannel.step (decrypt xorCipher) fun _ => 0)
    (.start (fun _ => 0) 0 (ciphertext twoBlocks)) threePieces).map ControlChannel.returned) =
    some [⟨2, [104, 101]⟩, ⟨1, [108]⟩, ⟨2, [108, 111]⟩] := by decide +kernel

end HomeKit

end Rtsp

end ShairportSync
