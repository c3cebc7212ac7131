import ShairportSync.BufferedAudio.FlushWindow
import ShairportSync.BufferedAudio.TcpRing
import ShairportSync.Rtp.Decipher

/-!
# The blocks in the stream of bytes

On the connection of the buffered stream, a block is a length in two bytes, which counts these
two as well, and as many bytes less two. They are read into an array of 16 KiB, and taken apart at
offsets from the start and from the end of what was read. Nothing is compared with the length:
it may be less than two, greater than the array, or too small for what is looked for in the block.
-/

namespace ShairportSync

namespace BufferedAudio

open Player (Bytes)
open Rtp (ntohs)
open Transition

/-! ## Reading a given number of bytes -/

inductive Ending where
  | closed
  | error (errno : BitVec 32)
deriving DecidableEq

structure Incoming where
  bytes : Bytes
  ending : Ending

def retriedErrors : List (BitVec 32) := [104, 11, 4]

/-- How many bytes a call of `buffered_read` moves when there are some: at most `count`, and no
more than lie in one piece in the buffer, `available` and one. -/
def bytesMoved (available count : ℕ) (bytes : Bytes) : ℕ :=
  min (available + 1) (min count bytes.length)

/-- What `lread_sized_block` returns, what it has written to its buffer, and what is left. -/
structure SizedBlock where
  nread : Int
  stored : Bytes
  rest : Bytes
deriving DecidableEq

/-- The loop of `lread_sized_block`, when `inbuf` is in the buffer; `available` are the bytes that
a call finds. The first number bounds the calls. There is no result where an error is met with
another try for ever: once it is there, the error stays. -/
def lreadLoop (available : ℕ → ℕ) (ending : Ending) (count : ℕ) :
    ℕ → Bytes → Bytes → Option SizedBlock
  | 0, _, _ => none
  | _ + 1, inbuf, [] =>
      match ending with
      | .closed => some ⟨0, inbuf, []⟩
      | .error errno => if errno ∈ retriedErrors then none else some ⟨-1, inbuf, []⟩
  | n + 1, inbuf, byte :: bytes =>
      let nread := bytesMoved (available inbuf.length) (count - inbuf.length) (byte :: bytes)
      let inbuf' := inbuf ++ (byte :: bytes).take nread
      if nread = 0 then some ⟨0, inbuf, byte :: bytes⟩
      else if inbuf'.length < count then
        lreadLoop available ending count n inbuf' ((byte :: bytes).drop nread)
      else some ⟨inbuf'.length, inbuf', (byte :: bytes).drop nread⟩

def lreadSizedBlock (available : ℕ → ℕ) (count : ℕ) (incoming : Incoming) : Option SizedBlock :=
  lreadLoop available incoming.ending count (incoming.bytes.length + 1) [] incoming.bytes

/-- What is returned when the connection ends before all the bytes have come. -/
def Ending.sizedBlock (ending : Ending) (stored : Bytes) : Option SizedBlock :=
  match ending with
  | .closed => some ⟨0, stored, []⟩
  | .error errno => if errno ∈ retriedErrors then none else some ⟨-1, stored, []⟩

section Reading

variable {available : ℕ → ℕ} {ending : Ending} {count : ℕ}

theorem bytesMoved_spec (available : ℕ) {count : ℕ} {bytes : Bytes} (hcount : 0 < count)
    (hne : bytes ≠ []) :
    0 < bytesMoved available count bytes ∧ bytesMoved available count bytes ≤ count ∧
      bytesMoved available count bytes ≤ bytes.length := by
  have hlength := List.length_pos_of_ne_nil hne
  unfold bytesMoved
  omega

/-- One more call of the loop, when there are bytes and not all have been read. -/
theorem lreadLoop_succ (available : ℕ → ℕ) (ending : Ending) (n : ℕ) {inbuf bytes : Bytes}
    (hinbuf : inbuf.length < count) (hne : bytes ≠ []) :
    ∃ k, 0 < k ∧ k ≤ count - inbuf.length ∧ k ≤ bytes.length ∧
      lreadLoop available ending count (n + 1) inbuf bytes =
        if inbuf.length + k < count then
          lreadLoop available ending count n (inbuf ++ bytes.take k) (bytes.drop k)
        else some ⟨(inbuf.length + k : ℕ), inbuf ++ bytes.take k, bytes.drop k⟩ := by
  obtain ⟨hpos, hcount, hlength⟩ := bytesMoved_spec (available inbuf.length)
    (Nat.sub_pos_of_lt hinbuf) hne
  refine ⟨_, hpos, hcount, hlength, ?_⟩
  have hstored : (inbuf ++ bytes.take (bytesMoved (available inbuf.length)
      (count - inbuf.length) bytes)).length =
      inbuf.length + bytesMoved (available inbuf.length) (count - inbuf.length) bytes := by
    rw [List.length_append, List.length_take, Nat.min_eq_left hlength]
  cases bytes with
  | nil => exact absurd rfl hne
  | cons byte bytes =>
      rw [lreadLoop, if_neg hpos.ne', hstored]

theorem lreadLoop_of_le {n : ℕ} {inbuf bytes : Bytes} (hn : bytes.length < n)
    (hinbuf : inbuf.length < count) (hle : count ≤ inbuf.length + bytes.length) :
    lreadLoop available ending count n inbuf bytes =
      some ⟨count, inbuf ++ bytes.take (count - inbuf.length),
        bytes.drop (count - inbuf.length)⟩ := by
  induction n generalizing inbuf bytes with
  | zero => exact absurd hn (Nat.not_lt_zero _)
  | succ n ih =>
      have hne : bytes ≠ [] := List.ne_nil_of_length_pos (by omega)
      obtain ⟨k, hpos, hcount, hlength, hloop⟩ :=
        lreadLoop_succ available ending n hinbuf hne
      have hstored : (inbuf ++ bytes.take k).length = inbuf.length + k := by
        rw [List.length_append, List.length_take, Nat.min_eq_left hlength]
      rw [hloop]
      split_ifs with hmore
      · have hrest : count - inbuf.length = k + (count - (inbuf ++ bytes.take k).length) := by
          omega
        rw [ih (by rw [List.length_drop]; omega) (by omega)
          (by rw [hstored, List.length_drop]; omega), hrest, List.take_add, List.drop_drop,
          List.append_assoc]
      · obtain rfl : k = count - inbuf.length := by omega
        rw [Nat.add_sub_cancel' hinbuf.le]

theorem lreadLoop_of_lt {n : ℕ} {inbuf bytes : Bytes} (hn : bytes.length < n)
    (hlt : inbuf.length + bytes.length < count) :
    lreadLoop available ending count n inbuf bytes = ending.sizedBlock (inbuf ++ bytes) := by
  induction n generalizing inbuf bytes with
  | zero => exact absurd hn (Nat.not_lt_zero _)
  | succ n ih =>
      by_cases hne : bytes = []
      · subst hne
        rw [List.append_nil]
        rfl
      · obtain ⟨k, hpos, hcount, hlength, hloop⟩ :=
          lreadLoop_succ available ending n (show inbuf.length < count by omega) hne
        have hstored : (inbuf ++ bytes.take k).length = inbuf.length + k := by
          rw [List.length_append, List.length_take, Nat.min_eq_left hlength]
        rw [hloop, if_pos (by omega), ih (by rw [List.length_drop]; omega)
          (by rw [hstored, List.length_drop]; omega), List.append_assoc, List.take_append_drop]

/-- All the bytes that are asked for are there. -/
theorem lreadSizedBlock_of_le (available : ℕ → ℕ) {incoming : Incoming} (hpos : 0 < count)
    (hle : count ≤ incoming.bytes.length) :
    lreadSizedBlock available count incoming =
      some ⟨count, incoming.bytes.take count, incoming.bytes.drop count⟩ := by
  exact lreadLoop_of_le (Nat.lt_succ_self incoming.bytes.length) hpos
    (hle.trans (Nat.le_add_left _ _))

/-- The connection ends before all the bytes have come. -/
theorem lreadSizedBlock_of_lt (available : ℕ → ℕ) {incoming : Incoming}
    (hlt : incoming.bytes.length < count) :
    lreadSizedBlock available count incoming = incoming.ending.sizedBlock incoming.bytes :=
  lreadLoop_of_lt (Nat.lt_succ_self _) ((Nat.zero_add _).trans_lt hlt)

theorem Ending.not_pos_of_sizedBlock {stored : Bytes} {block : SizedBlock}
    (hblock : ending.sizedBlock stored = some block) : ¬ 0 < block.nread := by
  unfold Ending.sizedBlock at hblock
  split at hblock
  · obtain rfl := Option.some.inj hblock
    exact lt_irrefl 0
  · split_ifs at hblock
    obtain rfl := Option.some.inj hblock
    exact (show ¬ (0 : Int) < -1 by decide)

/-- A positive result is the number of bytes that were asked for, and they are the next ones. -/
theorem lreadSizedBlock_spec {incoming : Incoming} {block : SizedBlock}
    (hblock : lreadSizedBlock available count incoming = some block) :
    (0 < block.nread ↔ 0 < count ∧ count ≤ incoming.bytes.length) ∧
      (0 < block.nread → block.nread = count ∧ block.stored = incoming.bytes.take count) := by
  rcases Nat.lt_or_ge incoming.bytes.length count with hlt | hle
  · rw [lreadSizedBlock_of_lt available hlt] at hblock
    have hnone := Ending.not_pos_of_sizedBlock hblock
    exact ⟨iff_of_false hnone fun h => by omega, fun h => absurd h hnone⟩
  · rcases Nat.eq_zero_or_pos count with rfl | hpos
    · have hnone : ¬ 0 < block.nread := by
        obtain ⟨bytes, ending⟩ := incoming
        cases bytes with
        | nil => exact Ending.not_pos_of_sizedBlock hblock
        | cons byte bytes =>
            obtain rfl := Option.some.inj hblock
            exact lt_irrefl 0
      exact ⟨iff_of_false hnone fun h => absurd h.1 (lt_irrefl 0), fun h => absurd h hnone⟩
    · rw [lreadSizedBlock_of_le available hpos hle] at hblock
      obtain rfl := Option.some.inj hblock
      exact ⟨iff_of_true (Int.natCast_pos.mpr hpos) ⟨hpos, hle⟩, fun _ => ⟨rfl, rfl⟩⟩

/-- The buffer of the connection gives what a call is taken to give here. -/
theorem bufferedRead_bytesMoved {d : TcpDesc} (hd : d.WellFormed) (hocc : d.bufferOccupancy ≠ 0)
    (count : ℕ) (later : Bytes) :
    ∃ available remaining,
      (d.bufferedRead count).1 = .bytes ((d.unread ++ later).take
        (bytesMoved available count (d.unread ++ later))) remaining ∧
      (d.bufferedRead count).2.unread ++ later =
        (d.unread ++ later).drop (bytesMoved available count (d.unread ++ later)) := by
  have hmin := d.bytesToMove_eq_min count
  have hle := hd.occupancy_le
  have hlt := hd.toq_lt (by omega)
  have hunread : d.unread.length = d.bufferOccupancy := Fifo.length_window _ _ _ _
  have hmoved : bytesMoved (min (d.bufferMaxSize - d.toq) d.bufferOccupancy - 1) count
      (d.unread ++ later) = d.bytesToMove count := by
    unfold bytesMoved
    rw [List.length_append, hunread, hmin]
    omega
  have hmove : d.bytesToMove count ≤ d.bufferOccupancy := TcpDesc.bytesToMove_le_occupancy
  have happend := hd.unread_eq_append hocc hmove (hd.toq_add_bytesToMove_le hocc)
  have hlength : ((List.range (d.bytesToMove count)).map fun i => d.buffer (d.toq + i)).length =
      d.bytesToMove count := by
    rw [List.length_map, List.length_range]
  refine ⟨min (d.bufferMaxSize - d.toq) d.bufferOccupancy - 1,
    d.bufferOccupancy - d.bytesToMove count, ?_, ?_⟩
  · rw [hmoved, happend, List.append_assoc, List.take_left' hlength]
    unfold TcpDesc.bufferedRead
    rw [if_pos hocc]
  · rw [hmoved, happend, List.append_assoc, List.drop_left' hlength]
    unfold TcpDesc.bufferedRead
    rw [if_pos hocc]

end Reading

/-! ## A block -/

/-- The size of the array `packet`, and of the array `m` that the plaintext goes to. -/
def packetSize : ℕ := 16 * 1024

/-- `data_len` in the order of the host: what has been read of it, over what was in memory. -/
def dataLen (memory : BitVec 8 × BitVec 8) (stored : Bytes) : BitVec 16 :=
  ntohs (stored.getD 0 memory.1) (stored.getD 1 memory.2)

def bodyLength (dataLen : BitVec 16) : Int := dataLen.toNat - 2

def sizeT (n : Int) : ℕ := (BitVec.ofInt 64 n).toNat

/-- Bytes of the array that are read: from which offset, and how many. -/
structure Access where
  offset : Int
  length : Int

/-- The bytes are among the first `nread` of the array. -/
def Access.Within (nread : Int) (a : Access) : Prop :=
  0 ≤ a.offset ∧ 0 ≤ a.length ∧ a.offset + a.length ≤ nread

/-- What is read of a block: the sequence number and the timestamp, and, if it is deciphered, the
nonce, the ciphertext with its tag and the additional data. -/
def blockAccesses (deciphered : Bool) (nread : Int) : List Access :=
  if 0 < nread then
    ⟨1, 3⟩ :: ⟨4, 4⟩ ::
      if deciphered then [⟨nread - 8, 8⟩, ⟨12, nread - (8 + 12)⟩, ⟨4, 8⟩] else []
  else []

theorem blockAccesses_within_iff (deciphered : Bool) (nread : Int) :
    (∀ a ∈ blockAccesses deciphered nread, a.Within nread) ↔
      (0 < nread → 8 ≤ nread ∧ (deciphered = true → 20 ≤ nread)) := by
  unfold blockAccesses Access.Within
  by_cases hpos : 0 < nread
  · cases deciphered <;> simp [hpos] <;> omega
  · simp [hpos]

/-- The block that has been read is decoded: it ends a flush, or is needed, and is not too soon
after the connection. -/
def Processor.DecodesBlock {σ : Type} (stream : Stream) (flushUntilSeq : BitVec 32)
    (rd : LoopReadings) (p : Processor σ) : Prop :=
  (p.flushRequested ∧ p.seqNo = flushUntilSeq ∨ ¬ p.flushRequested ∧ p.newBufferNeeded) ∧
    ¬ tooSoonAfterConnection stream rd

instance {σ : Type} (stream : Stream) (flushUntilSeq : BitVec 32) (rd : LoopReadings)
    (p : Processor σ) : Decidable (p.DecodesBlock stream flushUntilSeq rd) :=
  inferInstanceAs (Decidable (_ ∧ _))

/-! ## The stream of blocks -/

section Stream

variable {σ : Type} (stream : Stream) (codec : Codec σ)

/-- The processor with its requests, and the connection. -/
structure Framing (σ : Type) extends System σ where
  incoming : Incoming
  /-- `lread_sized_block` never returns. -/
  stuck : Bool

/-- What a turn of the loop meets on the connection: what is in the buffer at the calls for the
length and for the block, and what is in memory in the place of `data_len`. -/
structure FramingReadings where
  rd : LoopReadings
  availableForLength : ℕ → ℕ
  availableForBlock : ℕ → ℕ
  memory : BitVec 8 × BitVec 8

inductive FramingLabel where
  | flushBuffered (items : FlushItems)
  | setRate (rate : BitVec 64)
  | turn (fr : FramingReadings)

def System.beforeBlock (rd : LoopReadings) (s : System σ) : Processor σ :=
  let looked := (look s.conn s.processor).processor
  if looked.flushRequested then looked else (supplyPlayer stream rd looked).1

def Framing.readLength (fr : FramingReadings) (s : Framing σ) : Option SizedBlock :=
  lreadSizedBlock fr.availableForLength 2 s.incoming

def Framing.readBody (fr : FramingReadings) (s : Framing σ) (length : SizedBlock) :
    Option SizedBlock :=
  lreadSizedBlock fr.availableForBlock (sizeT (bodyLength (dataLen fr.memory length.stored)))
    { s.incoming with bytes := length.rest }

def SizedBlock.received (block : SizedBlock) : Option Bytes :=
  if block.nread < 0 then none else if block.nread = 0 then some [] else some block.stored

def Framing.turn (fr : FramingReadings) (s : Framing σ) : Framing σ :=
  let p := s.beforeBlock stream fr.rd
  if p.flushRequested || p.newBufferNeeded then
    match (s.readLength fr).bind (s.readBody fr) with
    | none => { s with stuck := true }
    | some block =>
        { s with
          toSystem := s.toSystem.turn stream codec { fr.rd with received := block.received }
          incoming := { s.incoming with bytes := block.rest } }
  else { s with toSystem := s.toSystem.turn stream codec fr.rd }

def Framing.step (s : Framing σ) : FramingLabel → Option (Framing σ)
  | .flushBuffered items => some { s with conn := handleFlushbuffered items s.conn }
  | .setRate rate => some { s with conn := setRate rate s.conn }
  | .turn fr =>
      if s.processor.finished || s.stuck then none else some (s.turn stream codec fr)

def Framing.withBlock (fr : FramingReadings) (s : Framing σ) (bytes : Bytes) : Processor σ :=
  (s.beforeBlock stream fr.rd).acceptBlock stream fr.rd bytes

def Framing.Deciphers (fr : FramingReadings) (s : Framing σ) (bytes : Bytes) : Prop :=
  stream.sessionKey.isSome = true ∧ (s.withBlock stream fr bytes).DecodesBlock stream
    s.conn.ap2FlushUntilSequenceNumber fr.rd

instance (fr : FramingReadings) (s : Framing σ) (bytes : Bytes) :
    Decidable (s.Deciphers stream fr bytes) := inferInstanceAs (Decidable (_ ∧ _))

/-- The reading of a block is safe: the length that is asked for lies between 0 and the size of the
array, only bytes of the block that has been read are looked at, and the plaintext fits behind the
ADTS header. -/
def Framing.BlockSafe (fr : FramingReadings) (s : Framing σ) : Prop :=
  ∀ length ∈ s.readLength fr,
    (0 ≤ bodyLength (dataLen fr.memory length.stored) ∧
      bodyLength (dataLen fr.memory length.stored) ≤ packetSize) ∧
    ∀ block ∈ s.readBody fr length,
      (∀ a ∈ blockAccesses (decide (s.Deciphers stream fr block.stored)) block.nread,
        a.Within block.nread) ∧
      (0 < block.nread → s.Deciphers stream fr block.stored →
        ∀ payload ∈ decipher stream codec (s.withBlock stream fr block.stored).packet
          block.stored.length, 7 + payload.length ≤ packetSize)

def SafelyFramed (s : Framing σ) : FramingLabel → Prop
  | .turn fr =>
      (s.beforeBlock stream fr.rd).flushRequested || (s.beforeBlock stream fr.rd).newBufferNeeded →
        s.BlockSafe stream codec fr
  | _ => True

/-- The length that is met is at least 2 and at most two more than the size of the array; and if
it is not 2, and the whole block comes, it is at least 10, and at least 22 if the block is
deciphered. -/
def Framing.LengthInOrder (fr : FramingReadings) (s : Framing σ) : Prop :=
  let n := (dataLen fr.memory s.incoming.bytes).toNat
  2 ≤ n ∧ n ≤ packetSize + 2 ∧ (2 < n → n ≤ s.incoming.bytes.length →
    10 ≤ n ∧ (s.Deciphers stream fr ((s.incoming.bytes.drop 2).take (n - 2)) → 22 ≤ n))

instance (fr : FramingReadings) (s : Framing σ) : Decidable (s.LengthInOrder stream fr) :=
  inferInstanceAs (Decidable (_ ∧ _ ∧ (_ → _ → _)))

/-- A turn that reads a block, and does not stay in the reading of its length, meets a length in
order. -/
def WellFramed (s : Framing σ) : FramingLabel → Prop
  | .turn fr =>
      (s.beforeBlock stream fr.rd).flushRequested || (s.beforeBlock stream fr.rd).newBufferNeeded →
        s.readLength fr ≠ none → s.LengthInOrder stream fr
  | _ => True

instance (s : Framing σ) : DecidablePred (WellFramed stream s)
  | .turn _ => inferInstanceAs (Decidable (_ → _ → _))
  | .flushBuffered _ => isTrue trivial
  | .setRate _ => isTrue trivial

def Framing.start (memory : Bytes) (c : σ) (conn : Conn) (incoming : Incoming) : Framing σ where
  toSystem := .start stream memory c conn
  incoming := incoming
  stuck := false

variable {stream} {codec} {fr : FramingReadings} {s : Framing σ} {length block : SizedBlock}

theorem dataLen_take (memory : BitVec 8 × BitVec 8) (bytes : Bytes) :
    dataLen memory (bytes.take 2) = dataLen memory bytes := by
  rcases bytes with _ | ⟨a, _ | ⟨b, bytes⟩⟩ <;> rfl

theorem bodyLength_eq (fr : FramingReadings) (s : Framing σ) :
    bodyLength (dataLen fr.memory s.incoming.bytes) =
      (dataLen fr.memory s.incoming.bytes).toNat - 2 := rfl

theorem readLength_spec (hlength : s.readLength fr = some length) :
    length.stored = s.incoming.bytes.take 2 ∧ length.rest = s.incoming.bytes.drop 2 := by
  unfold Framing.readLength at hlength
  rcases Nat.lt_or_ge s.incoming.bytes.length 2 with hlt | hle
  · rw [lreadSizedBlock_of_lt _ hlt] at hlength
    rw [List.take_of_length_le hlt.le, List.drop_of_length_le hlt.le]
    unfold Ending.sizedBlock at hlength
    split at hlength
    · obtain rfl := Option.some.inj hlength
      exact ⟨rfl, rfl⟩
    · split_ifs at hlength
      obtain rfl := Option.some.inj hlength
      exact ⟨rfl, rfl⟩
  · rw [lreadSizedBlock_of_le _ Nat.two_pos hle] at hlength
    obtain rfl := Option.some.inj hlength
    exact ⟨rfl, rfl⟩

theorem sizeT_bodyLength {n : BitVec 16} (hn : 2 ≤ n.toNat) :
    sizeT (bodyLength n) = n.toNat - 2 := by
  have hlt := n.isLt
  unfold sizeT bodyLength
  rw [BitVec.toNat_ofInt]
  omega

/-- A block is read where its length is more than 2 and all of it comes. -/
theorem readBody_spec {n : ℕ} (hlength : s.readLength fr = some length)
    (hn : (dataLen fr.memory s.incoming.bytes).toNat = n) (htwo : 2 ≤ n)
    (hblock : s.readBody fr length = some block) :
    (0 < block.nread ↔ 2 < n ∧ n ≤ s.incoming.bytes.length) ∧
      (0 < block.nread → block.nread = (n : Int) - 2 ∧
        block.stored = (s.incoming.bytes.drop 2).take (n - 2)) := by
  obtain ⟨hstored, hrest⟩ := readLength_spec hlength
  unfold Framing.readBody at hblock
  rw [hstored, dataLen_take, sizeT_bodyLength (hn.symm ▸ htwo), hn, hrest] at hblock
  obtain ⟨hpos, hread⟩ := lreadSizedBlock_spec hblock
  rw [List.length_drop] at hpos
  refine ⟨hpos.trans (by omega), fun h => ⟨(hread h).1.trans (by omega), (hread h).2⟩⟩

/-- Decryption takes off the tag. -/
def Codec.TakesOffTag (codec : Codec σ) : Prop :=
  ∀ key nonce additionalData ciphertext m,
    codec.decrypt key nonce additionalData ciphertext = some m → m.length + 16 = ciphertext.length

theorem payload_length_le (htag : codec.TakesOffTag) {packet payload : Bytes} {nread : ℕ}
    (hpayload : decipher stream codec packet nread = some payload) :
    payload.length + 16 ≤ nread - 20 := by
  unfold decipher at hpayload
  obtain ⟨key, -, hdecrypt⟩ := Option.bind_eq_some_iff.mp hpayload
  have hlength := htag _ _ _ _ _ hdecrypt
  rw [List.length_take] at hlength
  omega

theorem blockSafe_iff (htag : codec.TakesOffTag) (fr : FramingReadings) (s : Framing σ) :
    s.BlockSafe stream codec fr ↔ (s.readLength fr ≠ none → s.LengthInOrder stream fr) := by
  cases hlength : s.readLength fr with
  | none =>
      refine iff_of_true (fun length hmem => ?_) fun hne => absurd rfl hne
      rw [hlength] at hmem
      exact absurd hmem.symm (Option.some_ne_none length)
  | some length =>
      obtain ⟨hstored, hrest⟩ := readLength_spec hlength
      have hdata : dataLen fr.memory length.stored = dataLen fr.memory s.incoming.bytes := by
        rw [hstored, dataLen_take]
      constructor
      · intro hsafe _
        obtain ⟨⟨hnonneg, hle⟩, hbody⟩ := hsafe length hlength
        rw [hdata, bodyLength_eq] at hnonneg hle
        refine ⟨by omega, by omega, fun htwo hcomes => ?_⟩
        have hblock : s.readBody fr length = some
            ⟨((dataLen fr.memory s.incoming.bytes).toNat - 2 : ℕ),
              (s.incoming.bytes.drop 2).take ((dataLen fr.memory s.incoming.bytes).toNat - 2),
              (s.incoming.bytes.drop 2).drop
                ((dataLen fr.memory s.incoming.bytes).toNat - 2)⟩ := by
          unfold Framing.readBody
          rw [hdata, sizeT_bodyLength (by omega), hrest]
          refine lreadSizedBlock_of_le _ (by omega) ?_
          rw [List.length_drop]
          omega
        have hwithin := (blockAccesses_within_iff _ _).mp (hbody _ hblock).1
        dsimp only at hwithin
        obtain ⟨height, hdeciphers⟩ := hwithin (by omega)
        refine ⟨by omega, fun hdecipher => ?_⟩
        have htwenty := hdeciphers (decide_eq_true hdecipher)
        omega
      · rintro horder length' hlength'
        obtain rfl := Option.some.inj (hlength.symm.trans hlength')
        obtain ⟨htwo, hle, hcomplete⟩ := horder (Option.some_ne_none length)
        rw [hdata, bodyLength_eq]
        refine ⟨by omega, fun block hblock => ⟨?_, fun hpos _ payload hpayload => ?_⟩⟩
        · obtain ⟨hiff, hread⟩ := readBody_spec hlength rfl htwo hblock
          rw [blockAccesses_within_iff]
          intro hpos
          obtain ⟨hnread, hbytes⟩ := hread hpos
          obtain ⟨hmore, hcomes⟩ := hiff.mp hpos
          obtain ⟨hten, hdeciphers⟩ := hcomplete hmore hcomes
          refine ⟨by omega, fun hdecipher => ?_⟩
          have htwentyTwo := hdeciphers (hbytes ▸ of_decide_eq_true hdecipher)
          omega
        · obtain ⟨-, hread⟩ := readBody_spec hlength rfl htwo hblock
          have hpayload := payload_length_le htag hpayload
          rw [(hread hpos).2, List.length_take] at hpayload
          omega

/-- In every run, whatever bytes come, every block is read safely exactly if every length is in
order. -/
theorem block_framing_safe_iff (htag : codec.TakesOffTag) (memory : Bytes) (c : σ) (conn : Conn)
    (incoming : Incoming) (labels : List FramingLabel) :
    Along (Framing.step stream codec) (SafelyFramed stream codec)
        (.start stream memory c conn incoming) labels ↔
      Along (Framing.step stream codec) (WellFramed stream)
        (.start stream memory c conn incoming) labels := by
  refine along_iff_of_invariant (I := fun _ : Framing σ => True) (fun _ _ _ _ _ => trivial) ?_
    trivial
  intro s l _
  cases l with
  | flushBuffered items => exact Iff.rfl
  | setRate rate => exact Iff.rfl
  | turn fr => exact imp_congr_right fun _ => blockSafe_iff htag fr s

/-- What the reading of a block leaves of a turn of the loop. -/
theorem turn_processor (stream : Stream) (codec : Codec σ) (rd : LoopReadings) (s : System σ) :
    (s.turn stream codec rd).processor =
      readBlock stream codec s.conn.ap2FlushUntilSequenceNumber
        (look s.conn s.processor).flushIsDelayed rd (s.beforeBlock stream rd) := by
  unfold System.turn BufferedAudio.turn System.beforeBlock
  dsimp only
  split_ifs <;> rfl

/-- A block that has been read is decoded, or only its header is kept. -/
theorem processBlock_eq_ite (stream : Stream) (codec : Codec σ) (flushUntilSeq : BitVec 32)
    (flushIsDelayed : Bool) (rd : LoopReadings) (bytes : Bytes) (p : Processor σ) :
    processBlock stream codec flushUntilSeq flushIsDelayed rd bytes p =
      if (p.acceptBlock stream rd bytes).DecodesBlock stream flushUntilSeq rd then
        addBlock stream codec flushIsDelayed bytes.length (p.acceptBlock stream rd bytes)
      else p.acceptBlock stream rd bytes := rfl

end Stream

/-- The last 16 bytes of the ciphertext are the tag, and samples are bytes. -/
def Codec.tagged : Codec Unit where
  decrypt := fun _ _ _ ciphertext =>
    if 16 ≤ ciphertext.length then some (ciphertext.take (ciphertext.length - 16)) else none
  decode := fun c bytes => (c, [(bytes.drop 7).take 4096])

theorem takesOffTag_tagged : Codec.tagged.TakesOffTag := by
  intro key nonce additionalData ciphertext m hdecrypt
  change (if 16 ≤ ciphertext.length then _ else none) = some m at hdecrypt
  split_ifs at hdecrypt with hlength
  obtain rfl := Option.some.inj hdecrypt
  rw [List.length_take]
  omega

/-- The bytes come one at a time, and the length is in the place of one of 40. -/
def FramingReadings.oneByOne : FramingReadings where
  rd :=
    { playerBufferOccupancy := 0
      havePtpTimingInformation := true
      bufferShouldBeTime := none
      sendTimeNow := 0
      zeroFrames := []
      received := none
      localShouldBeTime := none
      connectionTimeNow := 0
      blockTimeNow := 0 }
  availableForLength _ := 0
  availableForBlock _ := 0
  memory := (0, 40)

/-- A block of 40 bytes, and the end of the connection. -/
theorem block_framing_safe_of_block :
    Along (Framing.step .plain .tagged) (SafelyFramed .plain .tagged)
      (.start .plain [] () .idle ⟨[0, 40] ++ List.replicate 38 1, .closed⟩)
      [.turn .oneByOne, .turn .oneByOne] :=
  (block_framing_safe_iff takesOffTag_tagged [] () .idle _ _).mpr (by decide +kernel)

/-- A length of 1 asks for -1 bytes. -/
theorem block_framing_unsafe :
    ¬ ∀ (σ : Type) (stream : Stream) (codec : Codec σ), codec.TakesOffTag →
      ∀ (memory : Bytes) (c : σ) (conn : Conn) (incoming : Incoming)
        (labels : List FramingLabel),
        Along (Framing.step stream codec) (SafelyFramed stream codec)
          (.start stream memory c conn incoming) labels := by
  intro h
  have hsafe := (h Unit .plain .tagged takesOffTag_tagged [] () .idle ⟨[0, 1], .closed⟩
    [.turn .oneByOne] _ rfl).1 (by decide +kernel)
  have hnonneg := (hsafe ⟨2, [0, 1], []⟩ (by decide +kernel)).1.1
  exact absurd hnonneg (by decide)

end BufferedAudio

end ShairportSync
