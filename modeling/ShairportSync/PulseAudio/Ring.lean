import ShairportSync.Fifo.Window
import ShairportSync.Player.Basic
import ShairportSync.Transition.Run

/-!
# The buffer of the PulseAudio output

`play` puts audio into a circular buffer, and `stream_write_cb`, in the thread of PulseAudio, takes
it out. `flush`, and `stop` in the same way, empties the buffer; it holds the lock of PulseAudio's
main loop, as the callback does, and `play` does not. The occupancy that the two sides share is
changed under a mutex, except by `flush` and in the branch of `play` whose bytes go to one piece of
the buffer.

A step has at most one access to what another thread uses: a piece of the buffer that is copied, or
the occupancy. What is added to the occupancy without the mutex is read in one step and written in
another. The pointers into the buffer are offsets from `audio_lmb`.
-/

namespace ShairportSync

namespace PulseAudio

open Player (Bytes)
open Transition

/-! ## The three functions -/

def audioSize : ℕ := 44100 * 4 * 2 * 2

theorem audioSize_pos : 0 < audioSize := by decide

inductive Play where
  | idle
  /-- The bytes are in the buffer, in one piece. -/
  | copied (bytes : Bytes)
  /-- The occupancy that they are to be added to has been read. -/
  | reading (bytes : Bytes) (audioOccupancy : ℕ)
  | added (bytes : Bytes)
  /-- The first of two pieces is in the buffer. -/
  | copiedFirst (bytes : Bytes) (spaceToEndOfBuffer : ℕ)
  | copiedBoth (bytes : Bytes) (spaceToEndOfBuffer : ℕ)
  | addedBoth (bytes : Bytes) (spaceToEndOfBuffer : ℕ)
deriving DecidableEq

inductive WriteCb where
  | idle
  /-- At the condition of the loop, with `ret` still 0. -/
  | looping (bytesToTransfer : ℤ)
  /-- At the comparison with the occupancy. -/
  | comparing (bytesToTransfer : ℤ)
  | underflow (bytesToTransfer : ℤ)
  | beginning (bytesToTransfer : ℤ) (bytesWeCanTransfer : ℕ)
  /-- The bytes have been copied out, from one piece. -/
  | copied (bytesToTransfer : ℤ) (buffer : Bytes)
  | subtracted (bytesToTransfer : ℤ) (buffer : Bytes)
  /-- The first of two pieces has been copied out. -/
  | copiedFirst (bytesToTransfer : ℤ) (bytesWeCanTransfer : ℕ) (buffer : Bytes)
  /-- Both have been, and PulseAudio has them. -/
  | written (bytesToTransfer : ℤ) (bytesWeCanTransfer : ℕ) (ok : Bool)
deriving DecidableEq

/-- What `pa_stream_begin_write` answers: an error, no buffer, or one for some bytes, no more than
it was asked for. -/
inductive BeginWrite where
  | error
  | noBuffer
  | bytes (bytesWeCanTransfer : ℕ)
deriving DecidableEq

structure PulseRing where
  buffer : ℕ → BitVec 8
  audioToq : ℕ
  audioEoq : ℕ
  audioOccupancy : ℕ
  play : Play
  /-- `flush` has reset the pointers, and not yet the occupancy. -/
  flushing : Bool
  writeCb : WriteCb
  /-- How many bytes have been added to the occupancy, taken off it, and flushed. -/
  queued : ℕ
  taken : ℕ
  flushed : ℕ
  /-- The bytes that have been queued and neither given to PulseAudio nor flushed. -/
  undelivered : Bytes

inductive Label where
  | callPlay (buf : ℕ → BitVec 8) (samples : ℕ)
  | play
  | flushPointers
  | flushOccupancy
  | callWriteCb (requestedBytes : BitVec 64)
  | writeCb
  | beginWrite (answer : BeginWrite)
  | streamWrite (ok : Bool)

namespace PulseRing

/-- What `init` sets up; `memory` is what `malloc` finds. -/
def init (memory : ℕ → BitVec 8) : PulseRing where
  buffer := memory
  audioToq := 0
  audioEoq := 0
  audioOccupancy := 0
  play := .idle
  flushing := false
  writeCb := .idle
  queued := 0
  taken := 0
  flushed := 0
  undelivered := []

def copyIn (bytes : Bytes) (s : PulseRing) : PulseRing :=
  let spaceToEndOfBuffer := audioSize - s.audioEoq
  if bytes.length ≤ spaceToEndOfBuffer then
    { s with
      buffer := Fifo.write s.buffer s.audioEoq bytes
      play := .copied bytes }
  else
    { s with
      buffer := Fifo.write s.buffer s.audioEoq (bytes.take spaceToEndOfBuffer)
      play := .copiedFirst bytes spaceToEndOfBuffer }

/-- The occupancy becomes what has been read of it and the number of the bytes. -/
def add (bytes : Bytes) (audioOccupancy : ℕ) (play : Play) (s : PulseRing) : PulseRing :=
  { s with
    audioOccupancy := audioOccupancy + bytes.length
    play := play
    queued := s.queued + bytes.length
    undelivered := s.undelivered ++ bytes }

def nextPlay (s : PulseRing) : Option PulseRing :=
  match s.play with
  | .idle => none
  | .copied bytes => some { s with play := .reading bytes s.audioOccupancy }
  | .reading bytes audioOccupancy => some (s.add bytes audioOccupancy (.added bytes))
  | .added bytes => some { s with audioEoq := s.audioEoq + bytes.length, play := .idle }
  | .copiedFirst bytes spaceToEndOfBuffer =>
      some { s with
        buffer := Fifo.write s.buffer 0 (bytes.drop spaceToEndOfBuffer)
        play := .copiedBoth bytes spaceToEndOfBuffer }
  | .copiedBoth bytes spaceToEndOfBuffer =>
      some (s.add bytes s.audioOccupancy (.addedBoth bytes spaceToEndOfBuffer))
  | .addedBoth bytes spaceToEndOfBuffer =>
      some { s with audioEoq := bytes.length - spaceToEndOfBuffer, play := .idle }

/-- `audio_occupancy -= n`, under the mutex. -/
def subtract (n : ℕ) (writeCb : WriteCb) (s : PulseRing) : PulseRing :=
  { s with
    audioOccupancy := s.audioOccupancy - n
    writeCb := writeCb
    taken := s.taken + n }

def again (ok : Bool) (bytesToTransfer : ℤ) : WriteCb :=
  if ok then .looping bytesToTransfer else .idle

/-- The next step of `stream_write_cb` that is not a call of PulseAudio. -/
def nextWriteCb (s : PulseRing) : Option PulseRing :=
  match s.writeCb with
  | .looping bytesToTransfer =>
      if 0 < bytesToTransfer ∧ 0 < s.audioOccupancy then
        some { s with writeCb := .comparing bytesToTransfer }
      else some { s with writeCb := .idle }
  | .comparing bytesToTransfer =>
      if s.audioOccupancy < bytesToTransfer.toNat then
        some { s with writeCb := .underflow bytesToTransfer }
      else some { s with writeCb := .beginning bytesToTransfer bytesToTransfer.toNat }
  | .underflow bytesToTransfer =>
      some { s with writeCb := .beginning bytesToTransfer s.audioOccupancy }
  | .copied bytesToTransfer buffer =>
      some (s.subtract buffer.length (.subtracted bytesToTransfer buffer))
  | .written bytesToTransfer n ok => some (s.subtract n (again ok (bytesToTransfer - n)))
  | _ => none

def copyOut (bytesToTransfer : ℤ) (n : ℕ) (s : PulseRing) : PulseRing :=
  if n ≤ audioSize - s.audioToq then
    { s with
      audioToq := s.audioToq + n
      writeCb := .copied bytesToTransfer
        ((List.range n).map fun i => s.buffer (s.audioToq + i)) }
  else
    { s with
      writeCb := .copiedFirst bytesToTransfer n
        ((List.range (audioSize - s.audioToq)).map fun i => s.buffer (s.audioToq + i)) }

/-- What `pa_stream_write` is called with. -/
def chunk (s : PulseRing) : Bytes :=
  match s.writeCb with
  | .subtracted _ buffer => buffer
  | .copiedFirst _ n buffer => buffer ++ (List.range (n - buffer.length)).map s.buffer
  | _ => []

/-- The call of `pa_stream_write`, with the copy of the second of two pieces. -/
def deliver (ok : Bool) (s : PulseRing) : Option PulseRing :=
  match s.writeCb with
  | .subtracted bytesToTransfer buffer =>
      some { s with
        writeCb := again ok (bytesToTransfer - buffer.length)
        undelivered := s.undelivered.drop s.chunk.length }
  | .copiedFirst bytesToTransfer n buffer =>
      some { s with
        audioToq := n - buffer.length
        writeCb := .written bytesToTransfer n ok
        undelivered := s.undelivered.drop s.chunk.length }
  | _ => none

/-- One step of one of the threads. `flush` and `stream_write_cb` hold the lock of the main loop. -/
def step (s : PulseRing) : Label → Option PulseRing
  | .callPlay buf samples =>
      match s.play with
      | .idle => some (s.copyIn ((List.range (samples * 2 * 2)).map buf))
      | _ => none
  | .play => s.nextPlay
  | .flushPointers =>
      if s.flushing = false ∧ s.writeCb = .idle then
        some { s with audioToq := 0, audioEoq := 0, flushing := true }
      else none
  | .flushOccupancy =>
      if s.flushing = true then
        some { s with
          audioOccupancy := 0
          flushing := false
          flushed := s.queued - s.taken
          undelivered := [] }
      else none
  | .callWriteCb requestedBytes =>
      if s.flushing = false ∧ s.writeCb = .idle then
        some { s with writeCb := .looping (requestedBytes.setWidth 32).toInt }
      else none
  | .writeCb => s.nextWriteCb
  | .beginWrite answer =>
      match s.writeCb, answer with
      | .beginning _ _, .error => some { s with writeCb := .idle }
      | .beginning bytesToTransfer _, .noBuffer =>
          some { s with writeCb := .looping bytesToTransfer }
      | .beginning bytesToTransfer asked, .bytes n =>
          if n ≤ asked then some (s.copyOut bytesToTransfer n) else none
      | _, _ => none
  | .streamWrite ok => s.deliver ok

end PulseRing

/-! ## A bounded queue -/

/-- The bytes that are in the buffer behind those that have been added to the occupancy. -/
def Play.uncounted : Play → Bytes
  | .copied bytes => bytes
  | .reading bytes _ => bytes
  | .copiedFirst bytes spaceToEndOfBuffer => bytes.take spaceToEndOfBuffer
  | .copiedBoth bytes _ => bytes
  | _ => []

/-- How many bytes are still to be added to the occupancy. -/
def Play.toAdd : Play → ℕ
  | .copied bytes => bytes.length
  | .reading bytes _ => bytes.length
  | .copiedFirst bytes _ => bytes.length
  | .copiedBoth bytes _ => bytes.length
  | _ => 0

def Play.isReading : Play → Bool
  | .reading _ _ => true
  | _ => false

/-- How many bytes have been copied out and not been taken off the occupancy. -/
def WriteCb.copiedOut : WriteCb → ℕ
  | .copied _ buffer => buffer.length
  | .copiedFirst _ _ buffer => buffer.length
  | .written _ n _ => n
  | _ => 0

/-- How many bytes the copying is ahead of `audio_toq`. -/
def WriteCb.ahead : WriteCb → ℕ
  | .copiedFirst _ _ buffer => buffer.length
  | _ => 0

/-- How many bytes the next step takes off the occupancy. -/
def WriteCb.toSubtract : WriteCb → ℕ
  | .copied _ buffer => buffer.length
  | .written _ n _ => n
  | _ => 0

/-- The bytes that have been copied out and not been given to PulseAudio. -/
def WriteCb.inHand : WriteCb → Bytes
  | .copied _ buffer => buffer
  | .subtracted _ buffer => buffer
  | .copiedFirst _ _ buffer => buffer
  | _ => []

namespace PulseRing

/-- Where the next byte is copied from. -/
def readPoint (s : PulseRing) : ℕ := s.audioToq + s.writeCb.ahead

def unread (s : PulseRing) : ℕ := s.queued - s.taken - s.flushed - s.writeCb.copiedOut

/-- The cells are in the buffer, and none of them holds an unread byte. -/
def WritesFree (s : PulseRing) (pos n : ℕ) : Prop :=
  pos + n ≤ audioSize ∧
    ∀ i < s.unread,
      (s.readPoint + i) % audioSize < pos ∨ pos + n ≤ (s.readPoint + i) % audioSize

/-- The occupancy is the number of the bytes that have been queued and neither taken nor flushed,
and no more than fit. -/
structure Sound (s : PulseRing) : Prop where
  occupancy_eq : s.audioOccupancy + s.taken + s.flushed = s.queued
  occupancy_le : s.audioOccupancy ≤ audioSize

instance (s : PulseRing) : Decidable s.Sound :=
  decidable_of_iff (_ ∧ _) ⟨fun h => ⟨h.1, h.2⟩, fun h => ⟨h.1, h.2⟩⟩

/-- `play` copies into free cells, and PulseAudio is given the bytes that are next. -/
def StepSound (s : PulseRing) : Label → Prop
  | .callPlay _ samples =>
      s.play = .idle →
        s.WritesFree s.audioEoq (min (samples * 2 * 2) (audioSize - s.audioEoq))
  | .play => ∀ bytes n, s.play = .copiedFirst bytes n → s.WritesFree 0 (bytes.length - n)
  | .streamWrite _ => s.chunk <+: s.undelivered
  | _ => True

/-- `play` is called when there is room and no flush is going on, no flush begins during a call, and
nothing is taken off the occupancy between the two steps of adding to it without the mutex. -/
def Guarded (s : PulseRing) : Label → Prop
  | .callPlay _ samples =>
      s.flushing = false ∧ s.audioOccupancy + samples * 2 * 2 ≤ audioSize
  | .flushPointers => s.play = .idle
  | .writeCb => s.play.isReading = true → s.writeCb.toSubtract = 0
  | _ => True

instance (s : PulseRing) : DecidablePred s.Guarded
  | .callPlay _ _ => inferInstanceAs (Decidable (_ ∧ _))
  | .play => isTrue trivial
  | .flushPointers => inferInstanceAs (Decidable (_ = _))
  | .flushOccupancy => isTrue trivial
  | .callWriteCb _ => isTrue trivial
  | .writeCb => inferInstanceAs (Decidable (_ → _))
  | .beginWrite _ => isTrue trivial
  | .streamWrite _ => isTrue trivial

end PulseRing

/-! ## The invariant -/

/-- Where the end of the queue is, when `tail` is behind the last byte that has been counted. -/
def Play.Placed (audioEoq tail : ℕ) : Play → Prop
  | .idle => audioEoq % audioSize = tail % audioSize
  | .copied bytes =>
      audioEoq % audioSize = tail % audioSize ∧ audioEoq + bytes.length ≤ audioSize
  | .reading bytes _ =>
      audioEoq % audioSize = tail % audioSize ∧ audioEoq + bytes.length ≤ audioSize
  | .added bytes =>
      (audioEoq + bytes.length) % audioSize = tail % audioSize ∧
        audioEoq + bytes.length ≤ audioSize
  | .copiedFirst bytes n =>
      audioEoq % audioSize = tail % audioSize ∧ audioEoq + n = audioSize ∧ n < bytes.length
  | .copiedBoth bytes n =>
      audioEoq % audioSize = tail % audioSize ∧ audioEoq + n = audioSize ∧ n < bytes.length
  | .addedBoth bytes n =>
      (audioEoq + bytes.length) % audioSize = tail % audioSize ∧ audioEoq + n = audioSize ∧
        n < bytes.length ∧ bytes.length ≤ audioSize

def Play.UpToDate (audioOccupancy : ℕ) : Play → Prop
  | .reading _ n => n = audioOccupancy
  | _ => True

/-- No more is taken than has been counted. -/
def WriteCb.Agrees (audioToq audioOccupancy : ℕ) : WriteCb → Prop
  | .beginning _ n => n ≤ audioOccupancy
  | .copied _ buffer => buffer.length ≤ audioOccupancy
  | .copiedFirst _ n buffer =>
      audioToq + buffer.length = audioSize ∧ buffer.length < n ∧ n ≤ audioOccupancy
  | .written _ n _ => n ≤ audioOccupancy
  | _ => True

theorem Play.Placed.of_mod {audioEoq m n : ℕ} {play : Play} (h : play.Placed audioEoq m)
    (hmod : m % audioSize = n % audioSize) : play.Placed audioEoq n := by
  cases play with
  | idle => exact h.trans hmod
  | _ => exact ⟨h.1.trans hmod, h.2⟩

theorem WriteCb.Agrees.mono {audioToq m n : ℕ} {writeCb : WriteCb}
    (h : writeCb.Agrees audioToq m) (hle : m ≤ n) : writeCb.Agrees audioToq n := by
  cases writeCb with
  | beginning bytesToTransfer asked => exact h.trans hle
  | copied bytesToTransfer buffer => exact h.trans hle
  | copiedFirst bytesToTransfer asked buffer => exact ⟨h.1, h.2.1, h.2.2.trans hle⟩
  | written bytesToTransfer asked ok => exact h.trans hle
  | _ => trivial

namespace PulseRing

/-- What holds while the pointers and the occupancy belong together. -/
structure Live (s : PulseRing) : Prop where
  toq_le : s.audioToq ≤ audioSize
  eoq_le : s.audioEoq ≤ audioSize
  room : s.audioOccupancy + s.play.toAdd ≤ audioSize
  placed : s.play.Placed s.audioEoq (s.readPoint + s.unread)
  faithful : s.undelivered ++ s.play.uncounted =
    s.writeCb.inHand ++
      Fifo.window s.buffer audioSize s.readPoint (s.unread + s.play.uncounted.length)

structure Inv (s : PulseRing) : Prop where
  sound : s.Sound
  agrees : s.writeCb.Agrees s.audioToq s.audioOccupancy
  upToDate : s.play.UpToDate s.audioOccupancy
  quiet : s.flushing = true →
    s.play = .idle ∧ s.writeCb = .idle ∧ s.audioToq = 0 ∧ s.audioEoq = 0
  live : s.flushing = false → s.Live

variable {s t : PulseRing}

theorem Inv.of_live (hflushing : s.flushing = false) (hsound : s.Sound)
    (hagrees : s.writeCb.Agrees s.audioToq s.audioOccupancy)
    (hupToDate : s.play.UpToDate s.audioOccupancy) (hlive : s.Live) : s.Inv :=
  ⟨hsound, hagrees, hupToDate, fun h => absurd (hflushing.symm.trans h) Bool.false_ne_true,
    fun _ => hlive⟩

theorem inv_init (memory : ℕ → BitVec 8) : (init memory).Inv :=
  .of_live rfl ⟨rfl, Nat.zero_le _⟩ trivial trivial
    ⟨Nat.zero_le _, Nat.zero_le _, Nat.zero_le _, rfl, rfl⟩

theorem Inv.copiedOut_le (h : s.Inv) : s.writeCb.copiedOut ≤ s.audioOccupancy := by
  have hagrees := h.agrees
  cases hcb : s.writeCb with
  | copied bytesToTransfer buffer =>
      rw [hcb] at hagrees
      exact hagrees
  | copiedFirst bytesToTransfer n buffer =>
      rw [hcb] at hagrees
      exact hagrees.2.1.le.trans hagrees.2.2
  | written bytesToTransfer n ok =>
      rw [hcb] at hagrees
      exact hagrees
  | _ => exact Nat.zero_le _

theorem Inv.unread_add (h : s.Inv) : s.unread + s.writeCb.copiedOut = s.audioOccupancy := by
  have hle := h.copiedOut_le
  have heq := h.sound.occupancy_eq
  unfold unread
  omega

theorem Inv.unread_le (h : s.Inv) : s.unread ≤ s.audioOccupancy :=
  Nat.le.intro h.unread_add

/-! ### The steps of `play` -/

theorem writesFree_of_room {pos n k : ℕ}
    (hpos : pos % audioSize = (s.readPoint + (s.unread + k)) % audioSize)
    (hfits : pos + n ≤ audioSize) (hfree : s.unread + k + n ≤ audioSize) : s.WritesFree pos n := by
  refine ⟨hfits, fun i hi => ?_⟩
  rcases Nat.eq_zero_or_pos n with rfl | hn
  · omega
  · rw [Nat.mod_eq_of_lt (by omega)] at hpos
    have hbehind : pos = (s.readPoint % audioSize + (s.unread + k)) % audioSize := by
      rw [Nat.mod_add_mod, hpos]
    have houtside := Fifo.cell_outside (Nat.mod_lt _ audioSize_pos) hbehind hfree
      (show i < s.unread + k by omega)
    rw [Nat.mod_add_mod] at houtside
    exact houtside

/-- What is copied in behind the bytes that are there. -/
theorem Live.faithful_write (h : s.Live) (pos : ℕ) (xs : Bytes)
    (hpos : pos % audioSize =
      (s.readPoint + (s.unread + s.play.uncounted.length)) % audioSize)
    (hfits : pos + xs.length ≤ audioSize)
    (hfree : s.unread + s.play.uncounted.length + xs.length ≤ audioSize) :
    s.undelivered ++ (s.play.uncounted ++ xs) =
      s.writeCb.inHand ++ Fifo.window (Fifo.write s.buffer pos xs) audioSize s.readPoint
        (s.unread + (s.play.uncounted ++ xs).length) := by
  rw [← List.append_assoc, h.faithful, List.length_append, ← Nat.add_assoc,
    Fifo.window_write_append audioSize_pos hpos hfits hfree, List.append_assoc]

theorem Inv.copyIn {bytes : Bytes} (h : s.Inv) (hplay : s.play = .idle)
    (hflushing : s.flushing = false) (hroom : s.audioOccupancy + bytes.length ≤ audioSize) :
    (s.copyIn bytes).Inv := by
  have hlive := h.live hflushing
  have hplaced := hlive.placed
  have hwrite := hlive.faithful_write s.audioEoq
  rw [hplay] at hplaced hwrite
  have hunread := h.unread_le
  have heoq := hlive.eoq_le
  unfold PulseRing.copyIn
  dsimp only
  split_ifs with hspace
  · have hfits : s.audioEoq + bytes.length ≤ audioSize := by omega
    have hfree : s.unread + 0 + bytes.length ≤ audioSize := by omega
    exact .of_live hflushing ⟨h.sound.1, h.sound.2⟩ h.agrees trivial
      ⟨hlive.toq_le, heoq, hroom, ⟨hplaced, hfits⟩, hwrite bytes hplaced hfits hfree⟩
  · have hlength : (bytes.take (audioSize - s.audioEoq)).length = audioSize - s.audioEoq :=
      List.length_take_of_le (by omega)
    have hfits : s.audioEoq + (audioSize - s.audioEoq) = audioSize := by omega
    have hfree : s.unread + 0 + (audioSize - s.audioEoq) ≤ audioSize := by omega
    refine .of_live hflushing ⟨h.sound.1, h.sound.2⟩ h.agrees trivial
      ⟨hlive.toq_le, heoq, hroom, ⟨hplaced, hfits, not_le.mp hspace⟩, hwrite _ hplaced ?_ ?_⟩
    · rw [hlength, hfits]
    · rw [hlength]
      exact hfree

theorem Inv.not_flushing (h : s.Inv) (hbusy : s.play ≠ .idle ∨ s.writeCb ≠ .idle) :
    s.flushing = false := by
  by_contra hflushing
  obtain ⟨hplay, hcb, -⟩ := h.quiet (Bool.not_eq_false _ ▸ hflushing)
  exact hbusy.elim (fun hne => hne hplay) fun hne => hne hcb

/-- Adding the copied bytes to the occupancy, if it is still what has been read. -/
theorem Inv.add {bytes : Bytes} {play : Play} (h : s.Inv) (hflushing : s.flushing = false)
    (hbytes : s.play.uncounted = bytes) (htoAdd : s.play.toAdd = bytes.length)
    (hcounted : play.uncounted = []) (hnone : play.toAdd = 0)
    (hplaced : play.Placed s.audioEoq (s.readPoint + (s.unread + bytes.length)))
    (hupToDate : play.UpToDate (s.audioOccupancy + bytes.length)) :
    (s.add bytes s.audioOccupancy play).Inv := by
  have hlive := h.live hflushing
  have hroom := hlive.room
  have hfaithful := hlive.faithful
  have heq := h.sound.occupancy_eq
  have hcopied := h.copiedOut_le
  have hunread : (s.add bytes s.audioOccupancy play).unread = s.unread + bytes.length := by
    unfold PulseRing.add unread
    dsimp only
    omega
  rw [htoAdd] at hroom
  rw [hbytes] at hfaithful
  refine .of_live hflushing ⟨?_, hroom⟩ (h.agrees.mono (Nat.le_add_right _ _)) hupToDate
    ⟨hlive.toq_le, hlive.eoq_le, ?_, ?_, ?_⟩
  · change s.audioOccupancy + bytes.length + s.taken + s.flushed = s.queued + bytes.length
    omega
  · change s.audioOccupancy + bytes.length + play.toAdd ≤ audioSize
    rw [hnone]
    exact hroom
  · rw [hunread]
    exact hplaced
  · rw [hunread]
    change s.undelivered ++ bytes ++ play.uncounted = s.writeCb.inHand ++
      Fifo.window s.buffer audioSize s.readPoint (s.unread + bytes.length + play.uncounted.length)
    rw [hcounted, List.append_nil]
    exact hfaithful

/-- A step of `play` that leaves the bytes and what has been counted as they are. -/
theorem Inv.play {audioEoq : ℕ} {play : Play} (h : s.Inv) (hflushing : s.flushing = false)
    (hbytes : play.uncounted = s.play.uncounted) (htoAdd : play.toAdd = s.play.toAdd)
    (heoq : audioEoq ≤ audioSize) (hplaced : play.Placed audioEoq (s.readPoint + s.unread))
    (hupToDate : play.UpToDate s.audioOccupancy) :
    Inv { s with audioEoq := audioEoq, play := play } := by
  have hlive := h.live hflushing
  refine .of_live hflushing ⟨h.sound.1, h.sound.2⟩ h.agrees hupToDate
    ⟨hlive.toq_le, heoq, ?_, hplaced, ?_⟩
  · change s.audioOccupancy + play.toAdd ≤ audioSize
    rw [htoAdd]
    exact hlive.room
  · change s.undelivered ++ play.uncounted = s.writeCb.inHand ++
      Fifo.window s.buffer audioSize s.readPoint (s.unread + play.uncounted.length)
    rw [hbytes]
    exact hlive.faithful

/-- The copy of the second piece. -/
theorem Inv.copySecond {bytes : Bytes} {n : ℕ} (h : s.Inv)
    (hplay : s.play = .copiedFirst bytes n) :
    s.WritesFree 0 (bytes.length - n) ∧
      Inv { s with
        buffer := Fifo.write s.buffer 0 (bytes.drop n)
        play := .copiedBoth bytes n } := by
  have hflushing := h.not_flushing (Or.inl (hplay ▸ Play.noConfusion))
  have hlive := h.live hflushing
  have hwrite := hlive.faithful_write 0 (bytes.drop n)
  have hroom := hlive.room
  have hplaced := hlive.placed
  rw [hplay] at hwrite hroom hplaced
  obtain ⟨htail, hfits, hless⟩ := hplaced
  have hunread := h.unread_le
  have hfirst : (bytes.take n).length = n := List.length_take_of_le hless.le
  have hend : 0 % audioSize = (s.readPoint + (s.unread + n)) % audioSize := by
    rw [← Nat.add_assoc, ← Nat.mod_add_mod, ← htail, Nat.mod_add_mod, hfits, Nat.mod_self,
      Nat.zero_mod]
  have hadd : s.audioOccupancy + bytes.length ≤ audioSize := hroom
  have hsecond : (bytes.drop n).length = bytes.length - n := List.length_drop
  have hfree : s.unread + n + (bytes.length - n) ≤ audioSize := by omega
  refine ⟨writesFree_of_room hend (by omega) hfree,
    .of_live hflushing ⟨h.sound.1, h.sound.2⟩ h.agrees trivial
      ⟨hlive.toq_le, hlive.eoq_le, hroom, ⟨htail, hfits, hless⟩, ?_⟩⟩
  have hboth := hwrite (hfirst.symm ▸ hend) (by omega)
    (show s.unread + (bytes.take n).length + (bytes.drop n).length ≤ audioSize by omega)
  have hall : (Play.copiedFirst bytes n).uncounted ++ bytes.drop n = bytes :=
    List.take_append_drop n bytes
  rw [hall] at hboth
  exact hboth

theorem Inv.nextPlay (h : s.Inv) (hstep : s.nextPlay = some t) : t.Inv := by
  unfold PulseRing.nextPlay at hstep
  cases hplay : s.play with
  | idle =>
      rw [hplay] at hstep
      cases hstep
  | copied bytes =>
      have hflushing := h.not_flushing (Or.inl (hplay ▸ Play.noConfusion))
      have hplaced := (h.live hflushing).placed
      rw [hplay] at hstep hplaced
      obtain rfl := Option.some.inj hstep
      exact h.play hflushing (hplay ▸ rfl) (hplay ▸ rfl) (h.live hflushing).eoq_le hplaced rfl
  | reading bytes audioOccupancy =>
      have hflushing := h.not_flushing (Or.inl (hplay ▸ Play.noConfusion))
      have hplaced := (h.live hflushing).placed
      have hread := h.upToDate
      rw [hplay] at hstep hplaced hread
      obtain rfl := Option.some.inj hstep
      obtain rfl : audioOccupancy = s.audioOccupancy := hread
      refine h.add hflushing (hplay ▸ rfl) (hplay ▸ rfl) rfl rfl ⟨?_, hplaced.2⟩ trivial
      rw [← Nat.add_assoc, ← Nat.mod_add_mod, hplaced.1, Nat.mod_add_mod]
  | added bytes =>
      have hflushing := h.not_flushing (Or.inl (hplay ▸ Play.noConfusion))
      have hplaced := (h.live hflushing).placed
      rw [hplay] at hstep hplaced
      obtain rfl := Option.some.inj hstep
      exact h.play hflushing (hplay ▸ rfl) (hplay ▸ rfl) hplaced.2 hplaced.1 trivial
  | copiedFirst bytes n =>
      rw [hplay] at hstep
      obtain rfl := Option.some.inj hstep
      exact (h.copySecond hplay).2
  | copiedBoth bytes n =>
      have hflushing := h.not_flushing (Or.inl (hplay ▸ Play.noConfusion))
      have hplaced := (h.live hflushing).placed
      have hroom := (h.live hflushing).room
      rw [hplay] at hstep hplaced hroom
      obtain rfl := Option.some.inj hstep
      refine h.add hflushing (hplay ▸ rfl) (hplay ▸ rfl) rfl rfl
        ⟨?_, hplaced.2.1, hplaced.2.2, le_of_add_le_right hroom⟩ trivial
      rw [← Nat.add_assoc, ← Nat.mod_add_mod, hplaced.1, Nat.mod_add_mod]
  | addedBoth bytes n =>
      have hflushing := h.not_flushing (Or.inl (hplay ▸ Play.noConfusion))
      have hplaced := (h.live hflushing).placed
      rw [hplay] at hstep hplaced
      obtain rfl := Option.some.inj hstep
      obtain ⟨htail, hfits, hless, hle⟩ := hplaced
      refine h.play hflushing (hplay ▸ rfl) (hplay ▸ rfl) ((Nat.sub_le _ _).trans hle) ?_ trivial
      -- the end wraps round: a whole turn less than where it would be
      have hturn : s.audioEoq + bytes.length = bytes.length - n + audioSize := by omega
      rw [hturn, Nat.add_mod_right] at htail
      exact htail

/-! ### The steps of `stream_write_cb` -/

/-- A step that leaves the bytes and the pointers as they are. -/
theorem Inv.writeCb {writeCb : WriteCb} (h : s.Inv) (hflushing : s.flushing = false)
    (hcopied : writeCb.copiedOut = s.writeCb.copiedOut) (hahead : writeCb.ahead = s.writeCb.ahead)
    (hinHand : writeCb.inHand = s.writeCb.inHand)
    (hagrees : writeCb.Agrees s.audioToq s.audioOccupancy) :
    Inv { s with writeCb := writeCb } := by
  have hlive := h.live hflushing
  have hunread : unread { s with writeCb := writeCb } = s.unread := by
    unfold unread
    rw [hcopied]
  have hpoint : readPoint { s with writeCb := writeCb } = s.readPoint := by
    unfold readPoint
    rw [hahead]
  refine .of_live hflushing ⟨h.sound.1, h.sound.2⟩ hagrees h.upToDate
    ⟨hlive.toq_le, hlive.eoq_le, hlive.room, ?_, ?_⟩
  · rw [hunread, hpoint]
    exact hlive.placed
  · rw [hunread, hpoint, hinHand]
    exact hlive.faithful

/-- Taking off the occupancy what has been copied out, while `play` does not rely on it. -/
theorem Inv.subtract {n : ℕ} {writeCb : WriteCb} (h : s.Inv) (hflushing : s.flushing = false)
    (hcopied : s.writeCb.copiedOut = n) (hnone : writeCb.copiedOut = 0)
    (hahead : writeCb.ahead = s.writeCb.ahead) (hinHand : writeCb.inHand = s.writeCb.inHand)
    (hagrees : writeCb.Agrees s.audioToq (s.audioOccupancy - n))
    (hguard : s.play.isReading = true → n = 0) : (s.subtract n writeCb).Inv := by
  have hlive := h.live hflushing
  have heq := h.sound.occupancy_eq
  have hle := h.copiedOut_le
  have hroom := hlive.room
  have hunread : (s.subtract n writeCb).unread = s.unread := by
    unfold PulseRing.subtract unread
    dsimp only
    omega
  have hpoint : (s.subtract n writeCb).readPoint = s.readPoint := by
    unfold PulseRing.subtract readPoint
    rw [hahead]
  have hupToDate : s.play.UpToDate (s.audioOccupancy - n) := by
    have hold := h.upToDate
    cases hplay : s.play with
    | reading bytes audioOccupancy =>
        rw [hplay] at hold
        rw [hguard (hplay ▸ rfl)]
        exact hold
    | _ => trivial
  refine .of_live hflushing ⟨?_, (Nat.sub_le _ _).trans h.sound.2⟩ hagrees hupToDate
    ⟨hlive.toq_le, hlive.eoq_le, ?_, ?_, ?_⟩
  · change s.audioOccupancy - n + (s.taken + n) + s.flushed = s.queued
    omega
  · change s.audioOccupancy - n + s.play.toAdd ≤ audioSize
    omega
  · rw [hunread, hpoint]
    exact hlive.placed
  · rw [hunread, hpoint]
    change _ = writeCb.inHand ++ _
    rw [hinHand]
    exact hlive.faithful

/-- Copying out the next bytes, as far as they are in one piece. -/
theorem Inv.takeOut {k audioToq : ℕ} {writeCb : WriteCb} (h : s.Inv)
    (hflushing : s.flushing = false) (hnone : s.writeCb.copiedOut = 0)
    (hahead : s.writeCb.ahead = 0) (hinHand : s.writeCb.inHand = []) (hk : k ≤ s.audioOccupancy)
    (hfits : s.audioToq + k ≤ audioSize) (htoq : audioToq ≤ audioSize)
    (hpoint : audioToq + writeCb.ahead = s.audioToq + k) (hcopied : writeCb.copiedOut = k)
    (hbuffer : writeCb.inHand = (List.range k).map fun i => s.buffer (s.audioToq + i))
    (hagrees : writeCb.Agrees audioToq s.audioOccupancy) :
    Inv { s with audioToq := audioToq, writeCb := writeCb } := by
  have hlive := h.live hflushing
  have hadd := h.unread_add
  have hold : s.readPoint = s.audioToq := by
    unfold readPoint
    rw [hahead, Nat.add_zero]
  have hunread : unread { s with audioToq := audioToq, writeCb := writeCb } = s.unread - k := by
    unfold unread
    dsimp only
    omega
  have hread : readPoint { s with audioToq := audioToq, writeCb := writeCb } = s.audioToq + k :=
    hpoint
  refine .of_live hflushing ⟨h.sound.1, h.sound.2⟩ hagrees h.upToDate
    ⟨htoq, hlive.eoq_le, hlive.room, ?_, ?_⟩
  · have htail : s.audioToq + k + (s.unread - k) = s.readPoint + s.unread := by omega
    rw [hunread, hread, htail]
    exact hlive.placed
  · have hsplit : s.unread + s.play.uncounted.length =
        k + (s.unread - k + s.play.uncounted.length) := by omega
    have hfaithful := hlive.faithful
    rw [hinHand, hold, hsplit, Fifo.window_add, Fifo.window_of_fits hfits,
      List.nil_append] at hfaithful
    rw [hunread, hread]
    change _ = writeCb.inHand ++ _
    rw [hbuffer]
    exact hfaithful

theorem Inv.copyOut {bytesToTransfer : ℤ} {asked n : ℕ} (h : s.Inv)
    (hcb : s.writeCb = .beginning bytesToTransfer asked) (hn : n ≤ asked) :
    (s.copyOut bytesToTransfer n).Inv := by
  have hflushing := h.not_flushing (Or.inr (hcb ▸ WriteCb.noConfusion))
  have hlive := h.live hflushing
  have htoq := hlive.toq_le
  have hagrees := h.agrees
  rw [hcb] at hagrees
  have hle : n ≤ s.audioOccupancy := hn.trans hagrees
  have hlength : ∀ k, ((List.range k).map fun i => s.buffer (s.audioToq + i)).length = k :=
    fun k => by rw [List.length_map, List.length_range]
  unfold PulseRing.copyOut
  split_ifs with hpiece
  · have hfits : s.audioToq + n ≤ audioSize := by omega
    exact h.takeOut hflushing (hcb ▸ rfl) (hcb ▸ rfl) (hcb ▸ rfl) hle hfits hfits
      (Nat.add_zero _) (hlength n) rfl ((hlength n).trans_le hle)
  · have hless : audioSize - s.audioToq < n := not_le.mp hpiece
    have hfits : s.audioToq + (audioSize - s.audioToq) = audioSize := by omega
    refine h.takeOut hflushing (hcb ▸ rfl) (hcb ▸ rfl) (hcb ▸ rfl) (hless.le.trans hle) hfits.le
      htoq (congrArg _ (hlength _)) (hlength _) rfl ⟨?_, ?_, hle⟩
    · rw [hlength, hfits]
    · rw [hlength]
      exact hless

theorem again_spec (ok : Bool) (bytesToTransfer : ℤ) (audioToq audioOccupancy : ℕ) :
    (again ok bytesToTransfer).copiedOut = 0 ∧ (again ok bytesToTransfer).ahead = 0 ∧
      (again ok bytesToTransfer).inHand = [] ∧
      (again ok bytesToTransfer).Agrees audioToq audioOccupancy := by
  unfold again
  split_ifs <;> exact ⟨rfl, rfl, rfl, trivial⟩

theorem Inv.nextWriteCb (h : s.Inv) (hguard : s.Guarded .writeCb)
    (hstep : s.nextWriteCb = some t) : t.Inv := by
  unfold PulseRing.nextWriteCb at hstep
  have hguard : s.play.isReading = true → s.writeCb.toSubtract = 0 := hguard
  cases hcb : s.writeCb with
  | looping bytesToTransfer =>
      have hflushing := h.not_flushing (Or.inr (hcb ▸ WriteCb.noConfusion))
      rw [hcb] at hstep
      dsimp only at hstep
      split_ifs at hstep <;> obtain rfl := Option.some.inj hstep
      · exact h.writeCb hflushing (hcb ▸ rfl) (hcb ▸ rfl) (hcb ▸ rfl) trivial
      · exact h.writeCb hflushing (hcb ▸ rfl) (hcb ▸ rfl) (hcb ▸ rfl) trivial
  | comparing bytesToTransfer =>
      have hflushing := h.not_flushing (Or.inr (hcb ▸ WriteCb.noConfusion))
      rw [hcb] at hstep
      dsimp only at hstep
      split_ifs at hstep with hless <;> obtain rfl := Option.some.inj hstep
      · exact h.writeCb hflushing (hcb ▸ rfl) (hcb ▸ rfl) (hcb ▸ rfl) trivial
      · exact h.writeCb hflushing (hcb ▸ rfl) (hcb ▸ rfl) (hcb ▸ rfl) (not_lt.mp hless)
  | underflow bytesToTransfer =>
      have hflushing := h.not_flushing (Or.inr (hcb ▸ WriteCb.noConfusion))
      rw [hcb] at hstep
      obtain rfl := Option.some.inj hstep
      exact h.writeCb hflushing (hcb ▸ rfl) (hcb ▸ rfl) (hcb ▸ rfl) (le_refl s.audioOccupancy)
  | copied bytesToTransfer buffer =>
      have hflushing := h.not_flushing (Or.inr (hcb ▸ WriteCb.noConfusion))
      rw [hcb] at hstep hguard
      obtain rfl := Option.some.inj hstep
      exact h.subtract hflushing (hcb ▸ rfl) rfl (hcb ▸ rfl) (hcb ▸ rfl) trivial hguard
  | written bytesToTransfer n ok =>
      have hflushing := h.not_flushing (Or.inr (hcb ▸ WriteCb.noConfusion))
      obtain ⟨hcopied, hahead, hinHand, hagrees⟩ :=
        again_spec ok (bytesToTransfer - n) s.audioToq (s.audioOccupancy - n)
      rw [hcb] at hstep hguard
      obtain rfl := Option.some.inj hstep
      exact h.subtract hflushing (hcb ▸ rfl) hcopied (hahead.trans (hcb ▸ rfl))
        (hinHand.trans (hcb ▸ rfl)) hagrees hguard
  | _ =>
      rw [hcb] at hstep
      cases hstep

theorem prefix_of_append_eq {xs ys zs ws : Bytes} (h : xs ++ ys = zs ++ ws)
    (hle : zs.length ≤ xs.length) : zs <+: xs ∧ xs.drop zs.length ++ ys = ws := by
  refine ⟨List.prefix_of_prefix_length_le (h ▸ List.prefix_append zs ws)
    (List.prefix_append xs ys) hle, ?_⟩
  rw [← List.drop_append_of_le_length hle, h, List.drop_left]

theorem Live.length_undelivered (h : s.Live) :
    s.undelivered.length = s.writeCb.inHand.length + s.unread := by
  have hlength := congrArg List.length h.faithful
  rw [List.length_append, List.length_append, Fifo.length_window] at hlength
  omega

/-- What is given to PulseAudio from one piece is next. -/
theorem Inv.chunk_of_subtracted {bytesToTransfer : ℤ} {buffer : Bytes} (h : s.Inv)
    (hcb : s.writeCb = .subtracted bytesToTransfer buffer) :
    s.chunk <+: s.undelivered ∧
      s.undelivered.drop s.chunk.length ++ s.play.uncounted =
        Fifo.window s.buffer audioSize s.audioToq (s.unread + s.play.uncounted.length) := by
  have hlive := h.live (h.not_flushing (Or.inr (hcb ▸ WriteCb.noConfusion)))
  have hfaithful := hlive.faithful
  have hlength := hlive.length_undelivered
  have hchunk : s.chunk = buffer := by
    unfold chunk
    rw [hcb]
  unfold readPoint at hfaithful
  rw [hcb] at hfaithful hlength
  rw [hchunk]
  exact prefix_of_append_eq hfaithful (Nat.le.intro hlength.symm)

/-- What is given to PulseAudio from two pieces is next. -/
theorem Inv.chunk_of_copiedFirst {bytesToTransfer : ℤ} {n : ℕ} {buffer : Bytes} (h : s.Inv)
    (hcb : s.writeCb = .copiedFirst bytesToTransfer n buffer) :
    n - buffer.length ≤ s.unread ∧ s.chunk <+: s.undelivered ∧
      s.undelivered.drop s.chunk.length ++ s.play.uncounted =
        Fifo.window s.buffer audioSize (n - buffer.length)
          (s.unread - (n - buffer.length) + s.play.uncounted.length) := by
  have hlive := h.live (h.not_flushing (Or.inr (hcb ▸ WriteCb.noConfusion)))
  have hfaithful := hlive.faithful
  have hlength := hlive.length_undelivered
  have hadd := h.unread_add
  have hagrees := h.agrees
  unfold readPoint at hfaithful
  rw [hcb] at hfaithful hlength hadd hagrees
  obtain ⟨hend, hless, hle⟩ := hagrees
  have hcopied : s.unread + buffer.length = s.audioOccupancy := hadd
  have hk : n - buffer.length ≤ s.unread := by omega
  have hroom := h.sound.occupancy_le
  have hfits : 0 + (n - buffer.length) ≤ audioSize := by omega
  have hchunk : s.chunk =
      buffer ++ (List.range (n - buffer.length)).map fun i => s.buffer (0 + i) := by
    unfold chunk
    rw [hcb]
    simp only [Nat.zero_add]
  have hsplit : s.unread + s.play.uncounted.length =
      n - buffer.length + (s.unread - (n - buffer.length) + s.play.uncounted.length) := by omega
  -- the second piece is at the start of the buffer, where the cells go on
  have hwindow : Fifo.window s.buffer audioSize
        (s.audioToq + (WriteCb.copiedFirst bytesToTransfer n buffer).ahead)
        (s.unread + s.play.uncounted.length) =
      Fifo.window s.buffer audioSize 0 (s.unread + s.play.uncounted.length) := by
    rw [← Fifo.window_mod]
    change Fifo.window _ _ ((s.audioToq + buffer.length) % audioSize) _ = _
    rw [hend, Nat.mod_self]
  rw [hwindow, hsplit, Fifo.window_add, Fifo.window_of_fits hfits, ← List.append_assoc,
    Nat.zero_add (n - buffer.length)] at hfaithful
  refine ⟨hk, hchunk ▸ prefix_of_append_eq hfaithful ?_⟩
  change _ = buffer.length + s.unread at hlength
  change (buffer ++ _).length ≤ _
  rw [hlength, List.length_append, List.length_map, List.length_range]
  omega

/-- PulseAudio is given what is next, the last `k` bytes of it straight out of the buffer. -/
theorem Inv.give {k audioToq : ℕ} {writeCb : WriteCb} (h : s.Inv) (hflushing : s.flushing = false)
    (htoq : audioToq ≤ audioSize)
    (hpoint : (s.readPoint + s.unread) % audioSize = (audioToq + (s.unread - k)) % audioSize)
    (hcopied : writeCb.copiedOut = s.writeCb.copiedOut + k) (hahead : writeCb.ahead = 0)
    (hinHand : writeCb.inHand = []) (hagrees : writeCb.Agrees audioToq s.audioOccupancy)
    (hnext : s.undelivered.drop s.chunk.length ++ s.play.uncounted =
      Fifo.window s.buffer audioSize audioToq (s.unread - k + s.play.uncounted.length)) :
    Inv { s with
      audioToq := audioToq
      writeCb := writeCb
      undelivered := s.undelivered.drop s.chunk.length } := by
  have hlive := h.live hflushing
  have hunread : unread { s with
      audioToq := audioToq
      writeCb := writeCb
      undelivered := s.undelivered.drop s.chunk.length } = s.unread - k := by
    unfold unread
    dsimp only
    omega
  have hread : readPoint { s with
      audioToq := audioToq
      writeCb := writeCb
      undelivered := s.undelivered.drop s.chunk.length } = audioToq := by
    unfold readPoint
    rw [hahead, Nat.add_zero]
  refine .of_live hflushing ⟨h.sound.1, h.sound.2⟩ hagrees h.upToDate
    ⟨htoq, hlive.eoq_le, hlive.room, ?_, ?_⟩
  · rw [hunread, hread]
    exact hlive.placed.of_mod hpoint
  · rw [hunread, hread, hinHand]
    exact hnext

theorem Inv.deliver {ok : Bool} (h : s.Inv) (hstep : s.deliver ok = some t) : t.Inv := by
  unfold PulseRing.deliver at hstep
  cases hcb : s.writeCb with
  | subtracted bytesToTransfer buffer =>
      have hflushing := h.not_flushing (Or.inr (hcb ▸ WriteCb.noConfusion))
      obtain ⟨hcopied, hahead, hinHand, hagrees⟩ :=
        again_spec ok (bytesToTransfer - buffer.length) s.audioToq s.audioOccupancy
      have hpoint : s.readPoint = s.audioToq := by
        unfold readPoint
        rw [hcb]
        rfl
      rw [hcb] at hstep
      obtain rfl := Option.some.inj hstep
      exact h.give (k := 0) hflushing (h.live hflushing).toq_le (hpoint ▸ rfl)
        (hcopied.trans (hcb ▸ rfl)) hahead hinHand hagrees (h.chunk_of_subtracted hcb).2
  | copiedFirst bytesToTransfer n buffer =>
      have hflushing := h.not_flushing (Or.inr (hcb ▸ WriteCb.noConfusion))
      have hagrees := h.agrees
      have hle := h.sound.occupancy_le
      obtain ⟨hk, -, hnext⟩ := h.chunk_of_copiedFirst hcb
      rw [hcb] at hstep hagrees
      obtain ⟨hend, hless, hcounted⟩ := hagrees
      have hpoint : s.readPoint = audioSize := by
        unfold readPoint
        rw [hcb]
        exact hend
      obtain rfl := Option.some.inj hstep
      refine h.give hflushing (by omega) ?_ ?_ rfl rfl hcounted hnext
      · rw [hpoint, Nat.add_sub_cancel' hk, Nat.add_mod_left]
      · rw [hcb]
        exact (Nat.add_sub_cancel' hless.le).symm
  | _ =>
      rw [hcb] at hstep
      cases hstep

/-! ### Flushes and runs -/

theorem Inv.flushPointers (h : s.Inv) (hplay : s.play = .idle) (hcb : s.writeCb = .idle) :
    Inv { s with audioToq := 0, audioEoq := 0, flushing := true } := by
  refine ⟨⟨h.sound.1, h.sound.2⟩, ?_, h.upToDate, fun _ => ⟨hplay, hcb, rfl, rfl⟩,
    fun hf => absurd hf.symm Bool.false_ne_true⟩
  change s.writeCb.Agrees 0 s.audioOccupancy
  rw [hcb]
  trivial

theorem Inv.flushOccupancy (h : s.Inv) (hflushing : s.flushing = true) :
    Inv { s with
      audioOccupancy := 0
      flushing := false
      flushed := s.queued - s.taken
      undelivered := [] } := by
  obtain ⟨hplay, hcb, htoq, heoq⟩ := h.quiet hflushing
  have heq := h.sound.occupancy_eq
  have hunread : unread { s with
      audioOccupancy := 0
      flushing := false
      flushed := s.queued - s.taken
      undelivered := [] } = 0 := by
    change s.queued - s.taken - (s.queued - s.taken) - s.writeCb.copiedOut = 0
    omega
  refine .of_live rfl ⟨?_, Nat.zero_le _⟩ ?_ ?_
    ⟨htoq.trans_le (Nat.zero_le _), heoq.trans_le (Nat.zero_le _), ?_, ?_, ?_⟩
  · change 0 + s.taken + (s.queued - s.taken) = s.queued
    omega
  · change s.writeCb.Agrees s.audioToq 0
    rw [hcb]
    trivial
  · change s.play.UpToDate 0
    rw [hplay]
    trivial
  · change 0 + s.play.toAdd ≤ audioSize
    rw [hplay]
    exact Nat.zero_le _
  · rw [hunread]
    change s.play.Placed s.audioEoq (s.audioToq + s.writeCb.ahead + 0)
    rw [hplay, hcb, htoq, heoq]
    rfl
  · rw [hunread]
    change [] ++ s.play.uncounted = s.writeCb.inHand ++
      Fifo.window s.buffer audioSize (s.audioToq + s.writeCb.ahead) (0 + s.play.uncounted.length)
    rw [hplay, hcb]
    rfl

theorem Inv.step {l : Label} (h : s.Inv) (hguard : s.Guarded l) (hstep : s.step l = some t) :
    t.Inv := by
  cases l with
  | callPlay buf samples =>
      obtain ⟨hflushing, hroom⟩ := hguard
      cases hplay : s.play with
      | idle =>
          unfold PulseRing.step at hstep
          rw [hplay] at hstep
          obtain rfl := Option.some.inj hstep
          refine h.copyIn hplay hflushing ?_
          rw [List.length_map, List.length_range]
          exact hroom
      | _ =>
          unfold PulseRing.step at hstep
          rw [hplay] at hstep
          cases hstep
  | play => exact h.nextPlay hstep
  | flushPointers =>
      unfold PulseRing.step at hstep
      dsimp only at hstep
      split_ifs at hstep with hidle
      obtain rfl := Option.some.inj hstep
      exact h.flushPointers hguard hidle.2
  | flushOccupancy =>
      unfold PulseRing.step at hstep
      dsimp only at hstep
      split_ifs at hstep with hflushing
      obtain rfl := Option.some.inj hstep
      exact h.flushOccupancy hflushing
  | callWriteCb requestedBytes =>
      unfold PulseRing.step at hstep
      dsimp only at hstep
      split_ifs at hstep with hidle
      obtain rfl := Option.some.inj hstep
      obtain ⟨hflushing, hcb⟩ := hidle
      exact h.writeCb hflushing (hcb ▸ rfl) (hcb ▸ rfl) (hcb ▸ rfl) trivial
  | writeCb => exact h.nextWriteCb hguard hstep
  | beginWrite answer =>
      unfold PulseRing.step at hstep
      cases hcb : s.writeCb with
      | beginning bytesToTransfer asked =>
          have hflushing := h.not_flushing (Or.inr (hcb ▸ WriteCb.noConfusion))
          rw [hcb] at hstep
          cases answer with
          | error =>
              obtain rfl := Option.some.inj hstep
              exact h.writeCb hflushing (hcb ▸ rfl) (hcb ▸ rfl) (hcb ▸ rfl) trivial
          | noBuffer =>
              obtain rfl := Option.some.inj hstep
              exact h.writeCb hflushing (hcb ▸ rfl) (hcb ▸ rfl) (hcb ▸ rfl) trivial
          | bytes n =>
              dsimp only at hstep
              split_ifs at hstep with hn
              obtain rfl := Option.some.inj hstep
              exact h.copyOut hcb hn
      | _ =>
          rw [hcb] at hstep
          cases hstep
  | streamWrite ok => exact h.deliver hstep

theorem Inv.stepSound {l : Label} (h : s.Inv) (hguard : s.Guarded l) : s.StepSound l := by
  cases l with
  | callPlay buf samples =>
      intro hplay
      obtain ⟨hflushing, hroom⟩ := hguard
      have hlive := h.live hflushing
      have hplaced := hlive.placed
      rw [hplay] at hplaced
      have heoq := hlive.eoq_le
      have hunread := h.unread_le
      exact writesFree_of_room (k := 0) hplaced (by omega) (by omega)
  | play => exact fun bytes n hplay => (h.copySecond hplay).1
  | streamWrite ok =>
      change s.chunk <+: s.undelivered
      cases hcb : s.writeCb with
      | subtracted bytesToTransfer buffer => exact (h.chunk_of_subtracted hcb).1
      | copiedFirst bytesToTransfer n buffer => exact (h.chunk_of_copiedFirst hcb).2.1
      | _ =>
          have hchunk : s.chunk = [] := by
            unfold chunk
            rw [hcb]
          exact hchunk ▸ List.nil_prefix
  | _ => trivial

/-- In every run whose steps all meet the condition, the occupancy is in every state the number of
the bytes that have been queued and neither taken nor flushed, and no more than fit; every copy into
the buffer goes to free cells; and PulseAudio is given the bytes in the order they were queued
in. -/
theorem queue_of_guarded (memory : ℕ → BitVec 8) (labels : List Label)
    (h : Along step Guarded (init memory) labels) :
    Throughout step Sound (init memory) labels ∧ Along step StepSound (init memory) labels :=
  ⟨(throughout_of_step (fun _ _ _ hs hguard hstep => hs.step hguard hstep) (inv_init memory) h).mono
      fun _ hs => hs.sound,
    along_of_step (fun _ _ _ hs hguard hstep => hs.step hguard hstep)
      (fun _ _ hs hguard => hs.stepSound hguard) (inv_init memory) h⟩

/-- Two frames are queued, one is taken, and the other one is flushed. -/
theorem queue_of_guarded_two_frames :
    Throughout step Sound (init fun _ => 0)
        [.callPlay (BitVec.ofNat 8) 2, .play, .play, .play, .callWriteCb 4, .writeCb, .writeCb,
          .beginWrite (.bytes 4), .writeCb, .streamWrite true, .writeCb, .flushPointers,
          .flushOccupancy] ∧
      Along step StepSound (init fun _ => 0)
        [.callPlay (BitVec.ofNat 8) 2, .play, .play, .play, .callWriteCb 4, .writeCb, .writeCb,
          .beginWrite (.bytes 4), .writeCb, .streamWrite true, .writeCb, .flushPointers,
          .flushOccupancy] :=
  queue_of_guarded _ _ (by decide +kernel)

/-- One frame is taken between the two steps of adding another one to the occupancy. -/
theorem queue_update_lost :
    ¬ ∀ (memory : ℕ → BitVec 8) (labels : List Label),
        Throughout step Sound (init memory) labels ∧ Along step StepSound (init memory) labels := by
  intro h
  have hsound := (h (fun _ => 0)
    [.callPlay (BitVec.ofNat 8) 1, .play, .play, .play, .callPlay (BitVec.ofNat 8) 1, .play,
      .callWriteCb 4, .writeCb, .writeCb, .beginWrite (.bytes 4), .writeCb, .play]).1
  exact absurd hsound (by decide +kernel)

end PulseRing

end PulseAudio

end ShairportSync
