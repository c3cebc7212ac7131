import ShairportSync.Rtsp.ControlChannel

/-!
# Writing to the encrypted control channel

`write_encrypted` encrypts what it is given in blocks of at most 1024 bytes, and writes them in as
many turns as `write` takes. When it fails the connection is stopped, and what has not been written
is lost.

A writer and a reader that uses `read_encrypted` make a link, with the bytes that are on their way
between them. Whatever the order of their steps, the reader gets what the writer has been given.
-/

namespace ShairportSync

namespace Rtsp

open Player (Bytes)
open Transition

/-! ## The code -/

abbrev encryptedLenMax : ℕ := 0x400

section Encrypt

variable (encryptChacha : BitVec 64 → Bytes → Bytes → Option (Bytes × Bytes))

/-- The loop of `encrypt` over so many blocks: the ciphertext and the counter, unless
`encrypt_chacha` fails. It makes the ciphertext of a block and a tag, from the counter in the nonce,
the bytes of the length and the plaintext. -/
def encryptBlocks : ℕ → BitVec 64 → Bytes → Option (Bytes × BitVec 64)
  | 0, encryptionCounter, _ => some ([], encryptionCounter)
  | nblocks + 1, encryptionCounter, plain =>
      let blockLen := if nblocks = 0 then plain.length else encryptedLenMax
      match encryptChacha encryptionCounter (blockLenBytes blockLen) (plain.take blockLen) with
      | none => none
      | some (body, tag) =>
          (encryptBlocks nblocks (encryptionCounter + 1) (plain.drop blockLen)).map
            fun (cipher, counter) => (blockLenBytes blockLen ++ (body ++ tag) ++ cipher, counter)

def nblocksOf (plaintextLen : ℕ) : ℕ := 1 + (plaintextLen - 1) / encryptedLenMax

/-- `encrypt`, which goes back to the counter it had if it fails -/
def encrypt (encryptionCounter : BitVec 64) (plain : Bytes) : Option Bytes × BitVec 64 :=
  if plain = [] then (none, encryptionCounter)
  else
    match encryptBlocks encryptChacha (nblocksOf plain.length) encryptionCounter plain with
    | none => (none, encryptionCounter)
    | some (cipher, counter) => (some cipher, counter)

/-- The counter, what a call of `write_encrypted` has still to write, and `conn->stop`. What the
calls that could encrypt it have been given is kept to be compared with what is read. -/
structure ControlWriter where
  encryptionCounter : BitVec 64
  remain : Option Bytes
  stop : Bool
  given : Bytes

/-- A call, or what `write` returns in it: so many bytes, or a number that is not positive -/
inductive WriteLabel where
  | writeEncrypted (plain : Bytes)
  | wrote (n : ℕ)
  | notWritten

/-- `while (remain > 0)` -/
def remaining (cipher : Bytes) : Option Bytes := if cipher = [] then none else some cipher

/-- A step of the writer, with the bytes that it puts on their way. A call that fails stops the
connection. -/
def ControlWriter.step (w : ControlWriter) : WriteLabel → Option (ControlWriter × Bytes)
  | .writeEncrypted plain =>
      if w.stop ∨ w.remain.isSome then none
      else
        match encrypt encryptChacha w.encryptionCounter plain with
        | (none, counter) => some (⟨counter, none, true, w.given⟩, [])
        | (some cipher, counter) => some (⟨counter, remaining cipher, false, w.given ++ plain⟩, [])
  | .wrote n =>
      w.remain.bind fun cipher =>
        if 1 ≤ n ∧ n ≤ cipher.length then
          some ({ w with remain := remaining (cipher.drop n) }, cipher.take n)
        else none
  | .notWritten => w.remain.map fun _ => ({ w with remain := none, stop := true }, [])

structure ControlLink where
  writer : ControlWriter
  reader : ControlChannel (BitVec 64)

inductive LinkLabel where
  | write (l : WriteLabel)
  | read (l : ControlLabel)

def ControlChannel.more {σ : Type} (s : ControlChannel σ) (bytes : Bytes) : ControlChannel σ :=
  { s with unread := s.unread ++ bytes }

namespace ControlLink

variable (decryptChacha : BitVec 64 → Bytes → Bytes → Bytes → Option Bytes)
  (fresh : Int → BitVec 8)

def start (memory : Int → BitVec 8) : ControlLink where
  writer := ⟨0, none, false, []⟩
  reader := .start memory 0 []

def step (s : ControlLink) : LinkLabel → Option ControlLink
  | .write l =>
      (s.writer.step encryptChacha l).map fun (writer, bytes) => ⟨writer, s.reader.more bytes⟩
  | .read l =>
      (s.reader.step (decrypt decryptChacha) fresh l).map fun reader => { s with reader := reader }

end ControlLink

end Encrypt

/-! ## Encrypted blocks -/

/-- `decrypt_chacha` makes the plaintext of what `encrypt_chacha` has made. -/
structure Decrypts (encryptChacha : BitVec 64 → Bytes → Bytes → Option (Bytes × Bytes))
    (decryptChacha : BitVec 64 → Bytes → Bytes → Bytes → Option Bytes) : Prop where
  exact : ∀ {counter : BitVec 64} {ad plain body tag : Bytes},
    encryptChacha counter ad plain = some (body, tag) →
    body.length = plain.length ∧ tag.length = authtagLength ∧
      decryptChacha counter ad body tag = some plain

section Blocks

variable {encryptChacha : BitVec 64 → Bytes → Bytes → Option (Bytes × Bytes)}
  {decryptChacha : BitVec 64 → Bytes → Bytes → Bytes → Option Bytes}

theorem encryptedFrom_append (counter : BitVec 64) (blocks more : List CipherBlock) :
    EncryptedFrom decryptChacha counter (blocks ++ more) ↔
      EncryptedFrom decryptChacha counter blocks ∧
        EncryptedFrom decryptChacha (counter + BitVec.ofNat 64 blocks.length) more := by
  induction blocks generalizing counter with
  | nil =>
      have hcounter : counter + BitVec.ofNat 64 ([] : List CipherBlock).length = counter :=
        BitVec.add_zero counter
      rw [hcounter]
      exact ⟨fun h => ⟨trivial, h⟩, And.right⟩
  | cons b blocks ih =>
      rw [List.length_cons, ← add_one_add_ofNat, List.cons_append, EncryptedFrom, EncryptedFrom, ih,
        and_assoc]

/-- What the loop makes is blocks that can be decrypted one after the other, from the counter on. -/
theorem encryptBlocks_spec (hchacha : Decrypts encryptChacha decryptChacha) {nblocks : ℕ}
    {counter counter' : BitVec 64} {plain cipher : Bytes}
    (hmany : (nblocks - 1) * encryptedLenMax ≤ plain.length)
    (hfew : plain.length ≤ nblocks * encryptedLenMax)
    (h : encryptBlocks encryptChacha nblocks counter plain = some (cipher, counter')) :
    ∃ blocks : List CipherBlock, blocks.length = nblocks ∧ ciphertext blocks = cipher ∧
      plaintext blocks = plain ∧ EncryptedFrom decryptChacha counter blocks ∧
      counter' = counter + BitVec.ofNat 64 nblocks := by
  induction nblocks generalizing counter plain cipher with
  | zero =>
      cases h
      rw [Nat.zero_mul, Nat.le_zero, List.length_eq_zero_iff] at hfew
      exact ⟨[], rfl, rfl, hfew.symm, trivial, (BitVec.add_zero _).symm⟩
  | succ nblocks ih =>
      obtain ⟨blockLen, hblockLen⟩ :
          ∃ n, n = if nblocks = 0 then plain.length else encryptedLenMax := ⟨_, rfl⟩
      rw [Nat.add_sub_cancel] at hmany
      have hle : blockLen ≤ plain.length ∧ blockLen ≤ encryptedLenMax ∧
          (nblocks - 1) * encryptedLenMax ≤ plain.length - blockLen ∧
          plain.length - blockLen ≤ nblocks * encryptedLenMax := by
        simp only [encryptedLenMax] at *
        split at hblockLen <;> omega
      rw [encryptBlocks, ← hblockLen] at h
      have hlength : (plain.take blockLen).length = blockLen := List.length_take_of_le hle.1
      cases hblock : encryptChacha counter (blockLenBytes blockLen) (plain.take blockLen) with
      | none =>
          simp only [hblock] at h
          cases h
      | some made =>
          obtain ⟨body, tag⟩ := made
          obtain ⟨hbody, htag, hplain⟩ := hchacha.exact hblock
          rw [hlength] at hbody
          simp only [hblock] at h
          obtain ⟨⟨rest, counter''⟩, hrest, hcipher⟩ := Option.map_eq_some_iff.mp h
          cases hcipher
          obtain ⟨blocks, hcount, rfl, hplaintext, hencrypted, rfl⟩ :=
            ih (by rw [List.length_drop]; exact hle.2.2.1)
              (by rw [List.length_drop]; exact hle.2.2.2) hrest
          refine ⟨⟨blockLenBytes blockLen ++ (body ++ tag), plain.take blockLen⟩ :: blocks,
            by rw [List.length_cons, hcount], ciphertext_cons _ _, ?_,
            ⟨⟨body, tag, by rw [hbody], ?_, htag, by rw [hbody]; exact hplain⟩, hencrypted⟩,
            add_one_add_ofNat counter nblocks⟩
          · rw [plaintext_cons, hplaintext, List.take_append_drop]
          · rw [hbody]
            exact lt_of_le_of_lt hle.2.1 (by decide)

theorem encrypt_spec (hchacha : Decrypts encryptChacha decryptChacha)
    {counter counter' : BitVec 64} {plain cipher : Bytes}
    (h : encrypt encryptChacha counter plain = (some cipher, counter')) :
    ∃ blocks : List CipherBlock, ciphertext blocks = cipher ∧ plaintext blocks = plain ∧
      blocks.length = nblocksOf plain.length ∧ EncryptedFrom decryptChacha counter blocks ∧
      counter' = counter + BitVec.ofNat 64 blocks.length := by
  rw [encrypt] at h
  split at h
  · cases h
  · rename_i hplain
    have hpos := List.length_pos_iff.mpr hplain
    cases hblocks : encryptBlocks encryptChacha (nblocksOf plain.length) counter plain with
    | none =>
        rw [hblocks] at h
        cases h
    | some made =>
        rw [hblocks] at h
        cases h
        obtain ⟨blocks, hcount, hcipher, hplaintext, hencrypted, hcounter⟩ :=
          encryptBlocks_spec hchacha (by rw [nblocksOf, encryptedLenMax]; omega)
            (by rw [nblocksOf, encryptedLenMax]; omega) hblocks
        exact ⟨blocks, hcipher, hplaintext, hcount, hencrypted, by rw [hcounter, hcount]⟩

end Blocks

/-! ## The link -/

namespace ControlLink

section Delivery

variable {encryptChacha : BitVec 64 → Bytes → Bytes → Option (Bytes × Bytes)}
  {decryptChacha : BitVec 64 → Bytes → Bytes → Bytes → Option Bytes} {fresh : Int → BitVec 8}

/-- The context of a reader is ready for these blocks, which a writer with this counter has
encrypted last. -/
def ReadyUpTo (decryptChacha : BitVec 64 → Bytes → Bytes → Bytes → Option Bytes)
    (encryptionCounter ctx : BitVec 64) (rest : List CipherBlock) : Prop :=
  EncryptedFrom decryptChacha ctx rest ∧ encryptionCounter = ctx + BitVec.ofNat 64 rest.length

theorem decrypt_readyUpTo (encryptionCounter : BitVec 64) :
    DecryptsBlocks (decrypt decryptChacha) (ReadyUpTo decryptChacha encryptionCounter) where
  failed := by
    intro ctx ctx' blocks input hready hinput hfailed
    obtain ⟨done, rest, counter', hloop, -, -, -⟩ := decryptLoop_spec blocks hready.1 hinput
    rw [decrypt, hloop] at hfailed
    split at hfailed
    · cases hfailed
      exact hready
    · cases hfailed
  consumed := by
    intro ctx ctx' blocks input plain consumed hready hinput hconsumed
    obtain ⟨done, rest, counter', hloop, rfl, hdone, hrest, rfl⟩ :=
      decryptLoop_spec blocks hready.1 hinput
    rw [decrypt, hloop] at hconsumed
    split at hconsumed
    · cases hconsumed
    · cases hconsumed
      refine ⟨done, rest, rfl, hdone, rfl, rfl, hrest, ?_⟩
      rw [hready.2, List.length_append, BitVec.ofNat_add, BitVec.add_assoc]

/-- What a reader does does not depend on what comes later. -/
theorem step_more {σ : Type} {pairDecrypt : σ → Bytes → Option (ℕ × Bytes) × σ}
    {s s' : ControlChannel σ} {l : ControlLabel} (bytes : Bytes)
    (h : s.step pairDecrypt fresh l = some s') :
    (s.more bytes).step pairDecrypt fresh l = some (s'.more bytes) := by
  have hturn (s : ControlChannel σ) (count : ℕ) (input : Bytes) :
      (s.more bytes).turn pairDecrypt fresh count input =
        (s.turn pairDecrypt fresh count input).more bytes := by
    simp only [ControlChannel.turn, ControlChannel.more]
    split
    · rfl
    · split <;> rfl
  cases l with
  | readEncrypted count =>
      simp only [ControlChannel.step] at h ⊢
      change (if s.reading.isSome then none else _) = _
      split at h
      · cases h
      · rename_i hreading
        rw [if_neg hreading]
        change (if 0 < s.bundle.plaintextReadBuffer.length then _ else _) = _
        split at h
        · rename_i hbuffer
          cases h
          rw [if_pos hbuffer]
          rfl
        · rename_i hbuffer
          cases h
          rw [if_neg hbuffer]
          rfl
  | received got =>
      have hreading : (s.more bytes).reading = s.reading := rfl
      simp only [ControlChannel.step, hreading] at h ⊢
      cases hcount : s.reading with
      | none =>
          rw [hcount] at h
          cases h
      | some count =>
          simp only [hcount] at h ⊢
          split at h
          · rename_i hgot
            cases h
            have hlength : got ≤ (s.more bytes).unread.length := by
              rw [ControlChannel.more, List.length_append]
              omega
            rw [if_pos ⟨hgot.1, hgot.2.1, hlength⟩, ← hturn]
            simp only [ControlChannel.more, List.take_append_of_le_length hgot.2.2,
              List.drop_append_of_le_length hgot.2.2]
          · cases h
  | notReceived got =>
      simp only [ControlChannel.step] at h ⊢
      change (if s.reading.isSome ∧ got ≤ 0 then _ else _) = _
      split at h
      · rename_i hgot
        cases h
        rw [if_pos hgot]
        rfl
      · cases h

/-- What has been written, with what the call that is writing will write or the one that failed has
lost, is the ciphertext of what has been given. -/
def Linked (decryptChacha : BitVec 64 → Bytes → Bytes → Bytes → Option Bytes)
    (s : ControlLink) : Prop :=
  ∃ blocks rest lost, plaintext blocks = s.writer.given ∧
    (s.reader.more lost).Accounted (ReadyUpTo decryptChacha s.writer.encryptionCounter) blocks
      rest ∧
    (s.writer.stop = true ∧ s.writer.remain = none ∨
      s.writer.stop = false ∧ s.writer.remain.getD [] = lost)

theorem getD_remaining (cipher : Bytes) : (remaining cipher).getD [] = cipher := by
  rw [remaining]
  split
  · exact Eq.symm ‹_›
  · rfl

theorem write_linked (hchacha : Decrypts encryptChacha decryptChacha) {s s' : ControlLink}
    {l : WriteLabel} (hlinked : s.Linked decryptChacha)
    (h : s.step encryptChacha decryptChacha fresh (.write l) = some s') :
    s'.Linked decryptChacha := by
  obtain ⟨blocks, rest, lost, hgiven, haccounted, hlost⟩ := hlinked
  obtain ⟨⟨writer, bytes⟩, hwriter, rfl⟩ := Option.map_eq_some_iff.mp h
  cases l with
  | writeEncrypted plain =>
      simp only [ControlWriter.step] at hwriter
      split at hwriter
      · cases hwriter
      · rename_i hidle
        rw [not_or] at hidle
        have hremain : s.writer.remain = none := Option.not_isSome_iff_eq_none.mp hidle.2
        obtain rfl : [] = lost := by
          rcases hlost with hstop | hlost
          · exact absurd hstop.1 hidle.1
          · rw [← hlost.2, hremain]
            rfl
        split at hwriter
        · rename_i counter hfailed
          have hcounter : counter = s.writer.encryptionCounter := by
            rw [encrypt] at hfailed
            split at hfailed
            · cases hfailed
              rfl
            · split at hfailed
              · cases hfailed
                rfl
              · cases hfailed
          cases hwriter
          refine ⟨blocks, rest, [], hgiven, ?_, .inl ⟨rfl, rfl⟩⟩
          rw [hcounter]
          simpa only [ControlChannel.more, List.append_nil] using haccounted
        · rename_i cipher counter hencrypt
          obtain ⟨new, rfl, rfl, -, hnew, rfl⟩ := encrypt_spec hchacha hencrypt
          cases hwriter
          obtain ⟨⟨hready, hcounter⟩, hplain, hcipher, hcounted⟩ := haccounted
          refine ⟨blocks ++ new, rest ++ new, ciphertext new, ?_, ⟨⟨?_, ?_⟩, ?_, ?_, hcounted⟩,
            .inr ⟨rfl, getD_remaining _⟩⟩
          · rw [plaintext_append, hgiven]
          · rw [encryptedFrom_append]
            refine ⟨hready, ?_⟩
            rw [hcounter] at hnew
            exact hnew
          · rw [hcounter, List.length_append, BitVec.ofNat_add, BitVec.add_assoc]
            rfl
          · rw [plaintext_append, plaintext_append, ← hplain, ← List.append_assoc]
            rfl
          · rw [ciphertext_append, ← hcipher]
            simp only [ControlChannel.more, List.append_nil, List.append_assoc]
  | wrote n =>
      obtain ⟨cipher, hremain, hwrote⟩ := Option.bind_eq_some_iff.mp hwriter
      rcases hlost with hstop | ⟨hstop, hlost⟩
      · rw [hstop.2] at hremain
        cases hremain
      · obtain rfl : cipher = lost := by
          rw [← hlost, hremain]
          rfl
        split at hwrote
        · cases hwrote
          refine ⟨blocks, rest, cipher.drop n, hgiven, ?_, .inr ⟨hstop, getD_remaining _⟩⟩
          simpa only [ControlChannel.more, List.append_assoc, List.take_append_drop] using
            haccounted
        · cases hwrote
  | notWritten =>
      obtain ⟨cipher, -, hfailed⟩ := Option.map_eq_some_iff.mp hwriter
      cases hfailed
      refine ⟨blocks, rest, lost, hgiven, ?_, .inl ⟨rfl, rfl⟩⟩
      simpa only [ControlChannel.more, List.append_nil] using haccounted

theorem step_linked (hchacha : Decrypts encryptChacha decryptChacha) {s s' : ControlLink}
    {l : LinkLabel} (hlinked : s.Linked decryptChacha)
    (h : s.step encryptChacha decryptChacha fresh l = some s') : s'.Linked decryptChacha := by
  cases l with
  | write l => exact write_linked hchacha hlinked h
  | read l =>
      obtain ⟨blocks, rest, lost, hgiven, haccounted, hlost⟩ := hlinked
      obtain ⟨reader, hreader, rfl⟩ := Option.map_eq_some_iff.mp h
      obtain ⟨rest', haccounted'⟩ := ControlChannel.step_accounted (decrypt_readyUpTo _)
        ⟨rest, haccounted⟩ (step_more lost hreader)
      exact ⟨blocks, rest', lost, hgiven, haccounted', hlost⟩

theorem eq_nil_of_ciphertext {counter : BitVec 64} {blocks : List CipherBlock}
    (h : EncryptedFrom decryptChacha counter blocks) (hnil : ciphertext blocks = []) :
    blocks = [] := by
  cases blocks with
  | nil => rfl
  | cons b blocks =>
      obtain ⟨⟨body, tag, hcipher, -⟩, -⟩ := h
      rw [ciphertext_cons, hcipher] at hnil
      cases hnil

/-- Whatever the order in which the two get on, and however their calls split what they write and
read: what has been read is the start of what has been given to be written, and all of it, but for
the plaintext that is kept, once no ciphertext is held or on its way and the writer is idle. -/
theorem run_delivers_link (hchacha : Decrypts encryptChacha decryptChacha)
    (memory : Int → BitVec 8) {ls : List LinkLabel} {s : ControlLink}
    (hrun : run (step encryptChacha decryptChacha fresh) (start memory) ls = some s) :
    s.reader.delivered <+: s.writer.given ∧
      (s.writer.stop = false → s.writer.remain = none → s.reader.unread = [] →
        s.reader.bundle.encryptedReadBuffer.contents = [] →
        s.reader.delivered ++ s.reader.bundle.plaintextReadBuffer.contents = s.writer.given) := by
  have hstart : (start memory).Linked decryptChacha :=
    ⟨[], [], [], rfl, ⟨⟨trivial, rfl⟩, rfl, rfl, fun r hr => by cases hr⟩, .inr ⟨rfl, rfl⟩⟩
  obtain ⟨blocks, rest, lost, hgiven, haccounted, hlost⟩ := (throughout_of_invariant
    (fun _ _ _ hI hstep => step_linked hchacha hI hstep) hstart).last hrun
  rw [hgiven.symm, ← haccounted.plain]
  refine ⟨⟨s.reader.bundle.plaintextReadBuffer.contents ++ plaintext rest, ?_⟩,
    fun hstop hremain hunread hencrypted => ?_⟩
  · rw [← List.append_assoc]
    rfl
  · have hnil : lost = [] := by
      rcases hlost with hlost | hlost
      · rw [hstop] at hlost
        cases hlost.1
      · rw [← hlost.2, hremain]
        rfl
    have hcipher : ciphertext rest = [] := by
      rw [← haccounted.cipher, hnil]
      change s.reader.bundle.encryptedReadBuffer.contents ++ (s.reader.unread ++ []) = []
      rw [hunread, hencrypted]
      rfl
    rw [eq_nil_of_ciphertext haccounted.ready.1 hcipher]
    exact (List.append_nil _).symm

end Delivery

/-! ## Two messages -/

def xorEncrypt (counter : BitVec 64) (_ plain : Bytes) : Option (Bytes × Bytes) :=
  some (plain.map fun b => b ^^^ counter.setWidth 8, List.replicate 16 0)

theorem decrypts_xorEncrypt : Decrypts xorEncrypt xorCipher where
  exact := by
    intro counter ad plain body tag h
    cases h
    refine ⟨List.length_map _, rfl, ?_⟩
    rw [xorCipher, List.map_map]
    refine congrArg some ((List.map_congr_left fun b _ => ?_).trans (List.map_id plain))
    rw [Function.comp_apply, BitVec.xor_assoc, BitVec.xor_self, BitVec.xor_zero, id]

/-- The second message is begun when the first is on its way and in part read. -/
def twoMessages : List LinkLabel :=
  [.write (.writeEncrypted [104, 105]), .write (.wrote 5), .read (.readEncrypted 9),
    .read (.received 3), .write (.wrote 15), .write (.writeEncrypted [33]), .read (.received 17),
    .write (.wrote 19), .read (.readEncrypted 9), .read (.received 19)]

theorem run_delivers_link_twoMessages :
    ∃ s, run (step xorEncrypt xorCipher fun _ => 0) (start fun _ => 0) twoMessages = some s ∧
      s.reader.delivered <+: s.writer.given ∧ s.writer.given = [104, 105, 33] := by
  have hsome : ((run (step xorEncrypt xorCipher fun _ => 0) (start fun _ => 0) twoMessages).map
      fun s => s.writer.given) = some [104, 105, 33] := by decide +kernel
  obtain ⟨s, hs, hgiven⟩ := Option.map_eq_some_iff.mp hsome
  exact ⟨s, hs, (run_delivers_link decrypts_xorEncrypt (fun _ => 0) hs).1, hgiven⟩

end ControlLink

end Rtsp

end ShairportSync
