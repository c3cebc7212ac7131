import ShairportSync.Fifo.Window
import ShairportSync.Player.Basic
import ShairportSync.Transition.Run

/-!
# The buffer of the buffered audio stream

`buffered_tcp_reader` receives the bytes of the stream into a circular buffer, and
`buffered_read` takes them out. The reader checks under the mutex that the buffer is not
full, and then, with the mutex released, wraps the end of the queue, works out how much to
ask for and receives; it takes the mutex again to move the end of the queue, or to note an
error or the end of the stream. Any number of threads call `buffered_read` meanwhile, which
may have to wait.

What is done under the mutex is one step. The pointers into the buffer are offsets.
-/

namespace ShairportSync

namespace BufferedAudio

open Player (Bytes)
open Transition

/-! ## The two functions -/

structure TcpDesc where
  closed : Bool
  errorCode : BitVec 32
  buffer : ℕ → BitVec 8
  toq : ℕ
  eoq : ℕ
  bufferMaxSize : ℕ
  bufferOccupancy : ℕ

/-- What `recv` returns: bytes, 0, or an error. -/
inductive Received where
  | bytes (xs : Bytes)
  | eof
  | error (errno : BitVec 32)
deriving DecidableEq

/-- Where `buffered_tcp_reader` is: at the top of the loop, past the check, in `recv`, or about to
take the mutex again. -/
inductive TcpReader where
  | checking
  | ready
  | receiving (bytesToRequest : ℕ)
  | received (nread : Received)
deriving DecidableEq

/-- What `buffered_read` returns: bytes, with how many are left, an error, 0 if the connection is
closed, or -1 without an error. -/
inductive Response where
  | bytes (xs : Bytes) (remaining : ℕ)
  | error (errno : BitVec 32)
  | closed
  | failed
deriving DecidableEq

/-- Where a caller of `buffered_read` is: before the mutex, or waiting for the buffer not to be
empty. -/
inductive TcpCaller where
  | idle
  | reading (count : ℕ)
  | waiting (count : ℕ)
deriving DecidableEq

def standardPacketSize : ℕ := 4096

namespace TcpDesc

/-- The descriptor `rtp_buffered_audio_processor` sets up. -/
def init (buffer : ℕ → BitVec 8) (bufferMaxSize : ℕ) : TcpDesc where
  closed := false
  errorCode := 0
  buffer := buffer
  toq := 0
  eoq := 0
  bufferMaxSize := bufferMaxSize
  bufferOccupancy := 0

def ReaderWaits (d : TcpDesc) : Prop :=
  d.bufferOccupancy = d.bufferMaxSize ∨ d.errorCode ≠ 0 ∨ d.closed = true

instance : DecidablePred ReaderWaits := fun _ => inferInstanceAs (Decidable (_ ∨ _ ∨ _))

/-- Neither a byte nor an error has come in. -/
def NothingIn (d : TcpDesc) : Prop := d.bufferOccupancy = 0 ∧ d.errorCode = 0

instance : DecidablePred NothingIn := fun _ => inferInstanceAs (Decidable (_ ∧ _))

def wrap (d : TcpDesc) : TcpDesc := if d.eoq = d.bufferMaxSize then { d with eoq := 0 } else d

def bytesToRequest (d : TcpDesc) : ℕ :=
  let freeSpace := d.bufferMaxSize - d.bufferOccupancy
  let bytesToRequest := if freeSpace < standardPacketSize then freeSpace else standardPacketSize
  let gapToEndOfBuffer := d.bufferMaxSize - d.eoq
  if gapToEndOfBuffer < bytesToRequest then gapToEndOfBuffer else bytesToRequest

def receive (d : TcpDesc) : Received → TcpDesc
  | .bytes xs => { d with buffer := Fifo.write d.buffer d.eoq xs }
  | .eof => d
  | .error _ => d

def commit (d : TcpDesc) : Received → TcpDesc
  | .bytes xs =>
      { d with
        eoq := d.eoq + xs.length
        bufferOccupancy := d.bufferOccupancy + xs.length }
  | .eof => { d with closed := true }
  | .error errno => { d with errorCode := errno }

def bytesToMove (d : TcpDesc) (count : ℕ) : ℕ :=
  let bytesToMove := if d.bufferOccupancy < count then d.bufferOccupancy else count
  let topGap := d.bufferMaxSize - d.toq
  if topGap < bytesToMove then topGap else bytesToMove

def moveOut (d : TcpDesc) (n : ℕ) : TcpDesc :=
  { d with
    toq := if d.toq + n = d.bufferMaxSize then 0 else d.toq + n
    bufferOccupancy := d.bufferOccupancy - n }

/-- `buffered_read`, once it has nothing to wait for. -/
def bufferedRead (d : TcpDesc) (count : ℕ) : Response × TcpDesc :=
  if d.bufferOccupancy ≠ 0 then
    let n := d.bytesToMove count
    (.bytes ((List.range n).map fun i => d.buffer (d.toq + i)) (d.bufferOccupancy - n), d.moveOut n)
  else if d.errorCode ≠ 0 then (.error d.errorCode, d)
  else if d.closed then (.closed, d)
  else (.failed, d)

def unread (d : TcpDesc) : Bytes := Fifo.window d.buffer d.bufferMaxSize d.toq d.bufferOccupancy

end TcpDesc

/-! ## Any interleaving of the threads -/

/-- The descriptor, the threads, what has been received, and what the calls of `buffered_read` have
returned. -/
structure TcpRing where
  desc : TcpDesc
  reader : TcpReader
  caller : ℕ → TcpCaller
  received : Bytes
  log : List (ℕ × Response)

inductive TcpLabel where
  | check
  | request
  | recv (nread : Received)
  | commit
  | callRead (thread count : ℕ)
  | read (thread : ℕ)
deriving DecidableEq

/-- What `recv` may return when it is asked for that many bytes. -/
def Received.Possible (bytesToRequest : ℕ) : Received → Prop
  | .bytes xs => 1 ≤ xs.length ∧ xs.length ≤ bytesToRequest
  | .eof => True
  | .error errno => errno ≠ 0

instance (bytesToRequest : ℕ) : DecidablePred (Received.Possible bytesToRequest)
  | .bytes xs => inferInstanceAs (Decidable (1 ≤ xs.length ∧ xs.length ≤ bytesToRequest))
  | .eof => isTrue trivial
  | .error errno => inferInstanceAs (Decidable (errno ≠ 0))

def Received.toBytes : Received → Bytes
  | .bytes xs => xs
  | .eof => []
  | .error _ => []

theorem Received.Possible.length_le {bytesToRequest : ℕ} {nread : Received}
    (h : nread.Possible bytesToRequest) : nread.toBytes.length ≤ bytesToRequest := by
  cases nread with
  | bytes xs => exact h.2
  | eof => exact Nat.zero_le _
  | error errno => exact Nat.zero_le _

namespace TcpRing

def init (buffer : ℕ → BitVec 8) (bufferMaxSize : ℕ) : TcpRing where
  desc := .init buffer bufferMaxSize
  reader := .checking
  caller := fun _ => .idle
  received := []
  log := []

def setCaller (s : TcpRing) (thread : ℕ) (c : TcpCaller) : TcpRing :=
  { s with caller := Function.update s.caller thread c }

def finish (s : TcpRing) (thread count : ℕ) : TcpRing :=
  let (response, desc) := s.desc.bufferedRead count
  { s.setCaller thread .idle with desc := desc, log := s.log ++ [(thread, response)] }

/-- One step of the reader or of a caller. A thread that waits and is woken for nothing stays where
it is. -/
def step (s : TcpRing) : TcpLabel → Option TcpRing
  | .check =>
      match s.reader with
      | .checking => if s.desc.ReaderWaits then none else some { s with reader := .ready }
      | _ => none
  | .request =>
      match s.reader with
      | .ready =>
          let desc := s.desc.wrap
          some { s with desc := desc, reader := .receiving desc.bytesToRequest }
      | _ => none
  | .recv nread =>
      match s.reader with
      | .receiving bytesToRequest =>
          if nread.Possible bytesToRequest then
            some { s with
              desc := s.desc.receive nread
              reader := .received nread
              received := s.received ++ nread.toBytes }
          else none
      | _ => none
  | .commit =>
      match s.reader with
      | .received nread => some { s with desc := s.desc.commit nread, reader := .checking }
      | _ => none
  | .callRead thread count =>
      match s.caller thread with
      | .idle => if 0 < count then some (s.setCaller thread (.reading count)) else none
      | _ => none
  | .read thread =>
      match s.caller thread with
      | .reading count =>
          if s.desc.closed = false ∧ s.desc.NothingIn then
            some (s.setCaller thread (.waiting count))
          else some (s.finish thread count)
      | .waiting count => if s.desc.NothingIn then none else some (s.finish thread count)
      | _ => none

end TcpRing

/-! ## A queue of bytes -/

def returnedBytes (log : List (ℕ × Response)) : Bytes :=
  log.flatMap fun
    | (_, .bytes xs _) => xs
    | _ => []

def TcpReader.pending : TcpReader → Bytes
  | .received nread => nread.toBytes
  | _ => []

/-- What is asked of `recv`: at least one byte, into free cells of the buffer. -/
def TcpDesc.AsksSafely (d : TcpDesc) (bytesToRequest : ℕ) : Prop :=
  0 < bytesToRequest ∧ d.eoq + bytesToRequest ≤ d.bufferMaxSize ∧
    ∀ i < d.bufferOccupancy, (d.toq + i) % d.bufferMaxSize < d.eoq ∨
      d.eoq + bytesToRequest ≤ (d.toq + i) % d.bufferMaxSize

/-- The buffer holds no more than it can, `recv` is asked safely, and the bytes received are those
returned, those in the buffer, and those about to be put there, in this order. -/
structure TcpRing.Sound (s : TcpRing) : Prop where
  occupancy_le : s.desc.bufferOccupancy ≤ s.desc.bufferMaxSize
  asksSafely : ∀ n, s.reader = .receiving n → s.desc.AsksSafely n
  faithful : s.received = returnedBytes s.log ++ s.desc.unread ++ s.reader.pending

/-- What a return value of `buffered_read` says: some bytes, or, after all that was received has
been returned, an error or the end of the stream. -/
def Response.Truthful (s : TcpRing) : Response → Prop
  | .bytes xs _ => xs ≠ []
  | .error errno => errno ≠ 0 ∧ returnedBytes s.log = s.received
  | .closed => returnedBytes s.log = s.received
  | .failed => False

/-- If a call of `buffered_read` returns in the step, what it returns is truthful. -/
def TcpRing.StepSound (s : TcpRing) (l : TcpLabel) : Prop :=
  ∀ t thread response, s.step l = some t → t.log = s.log ++ [(thread, response)] →
    response.Truthful s

/-- What the reader relies on when it does not have the mutex. -/
def TcpReader.Agrees (d : TcpDesc) : TcpReader → Prop
  | .checking => True
  | .ready => ¬ d.ReaderWaits
  | .receiving n =>
      d.closed = false ∧ d.errorCode = 0 ∧ 0 < n ∧ d.bufferOccupancy + n ≤ d.bufferMaxSize ∧
        d.eoq + n ≤ d.bufferMaxSize
  | .received nread =>
      d.closed = false ∧ d.errorCode = 0 ∧
        d.bufferOccupancy + nread.toBytes.length ≤ d.bufferMaxSize ∧
        d.eoq + nread.toBytes.length ≤ d.bufferMaxSize ∧
        Fifo.window d.buffer d.bufferMaxSize d.eoq nread.toBytes.length = nread.toBytes

/-- The pointers, with the end of the queue possibly still to be wrapped. -/
structure TcpDesc.WellFormed (d : TcpDesc) : Prop where
  occupancy_le : d.bufferOccupancy ≤ d.bufferMaxSize
  toq_lt : 0 < d.bufferMaxSize → d.toq < d.bufferMaxSize
  eoq_le : d.eoq ≤ d.bufferMaxSize
  eoq_eq : d.eoq % d.bufferMaxSize = (d.toq + d.bufferOccupancy) % d.bufferMaxSize

def TcpCaller.CountPos : TcpCaller → Prop
  | .idle => True
  | .reading count => 0 < count
  | .waiting count => 0 < count

structure TcpRing.Inv (s : TcpRing) : Prop where
  wellFormed : s.desc.WellFormed
  agrees : s.reader.Agrees s.desc
  countPos : ∀ thread, (s.caller thread).CountPos
  faithful : s.received = returnedBytes s.log ++ s.desc.unread ++ s.reader.pending

namespace TcpDesc

section Pointers

variable {d : TcpDesc} {n count : ℕ} {xs : Bytes}

theorem wellFormed_init (buffer : ℕ → BitVec 8) (bufferMaxSize : ℕ) :
    (init buffer bufferMaxSize).WellFormed :=
  ⟨Nat.zero_le _, id, Nat.zero_le _, rfl⟩

@[simp] theorem unread_wrap (d : TcpDesc) : d.wrap.unread = d.unread := by
  unfold wrap
  split_ifs <;> rfl

theorem WellFormed.wrap (hd : d.WellFormed) : d.wrap.WellFormed := by
  unfold TcpDesc.wrap
  split_ifs with heoq
  · refine ⟨hd.occupancy_le, hd.toq_lt, Nat.zero_le _, ?_⟩
    rw [← hd.eoq_eq, heoq, Nat.mod_self]
    exact Nat.zero_mod _
  · exact hd

theorem WellFormed.eoq_wrap_lt (hd : d.WellFormed) (hmax : 0 < d.bufferMaxSize) :
    d.wrap.eoq < d.bufferMaxSize := by
  unfold TcpDesc.wrap
  split_ifs with heoq
  · exact hmax
  · exact Nat.lt_of_le_of_ne hd.eoq_le heoq

theorem bytesToRequest_eq_min (d : TcpDesc) : d.bytesToRequest =
    min (d.bufferMaxSize - d.eoq) (min (d.bufferMaxSize - d.bufferOccupancy) 4096) := by
  rw [min_def_lt, min_def_lt]
  rfl

theorem bytesToMove_eq_min (d : TcpDesc) (count : ℕ) :
    d.bytesToMove count = min (d.bufferMaxSize - d.toq) (min d.bufferOccupancy count) := by
  rw [min_def_lt, min_def_lt]
  rfl

@[simp] theorem bufferMaxSize_wrap (d : TcpDesc) : d.wrap.bufferMaxSize = d.bufferMaxSize := by
  unfold wrap
  split_ifs <;> rfl

@[simp] theorem bufferOccupancy_wrap (d : TcpDesc) :
    d.wrap.bufferOccupancy = d.bufferOccupancy := by
  unfold wrap
  split_ifs <;> rfl

theorem readerWaits_wrap : d.wrap.ReaderWaits ↔ d.ReaderWaits := by
  unfold wrap
  split_ifs <;> exact Iff.rfl

theorem WellFormed.agrees_request (hd : d.WellFormed) (hready : ¬ d.ReaderWaits) :
    (TcpReader.receiving d.wrap.bytesToRequest).Agrees d.wrap := by
  have hocc : d.bufferOccupancy < d.bufferMaxSize :=
    Nat.lt_of_le_of_ne hd.occupancy_le fun h => hready (Or.inl h)
  have heoq := hd.eoq_wrap_lt (Nat.zero_lt_of_lt hocc)
  rw [← readerWaits_wrap, ReaderWaits, not_or, not_or, not_not, Bool.not_eq_true] at hready
  rw [← bufferOccupancy_wrap, ← bufferMaxSize_wrap] at hocc
  rw [← bufferMaxSize_wrap] at heoq
  have hmin := d.wrap.bytesToRequest_eq_min
  exact ⟨hready.2.2, hready.2.1, by omega, by omega, by omega⟩

theorem WellFormed.asksSafely (hd : d.WellFormed) (hn : (TcpReader.receiving n).Agrees d) :
    d.AsksSafely n := by
  obtain ⟨-, -, hpos, hroom, hgap⟩ := hn
  refine ⟨hpos, hgap, fun i hi => Fifo.cell_outside (hd.toq_lt (by omega)) ?_ hroom hi⟩
  rw [← hd.eoq_eq, Nat.mod_eq_of_lt (by omega)]

theorem bytesToMove_le_occupancy : d.bytesToMove count ≤ d.bufferOccupancy := by
  have hmin := d.bytesToMove_eq_min count
  omega

theorem WellFormed.toq_add_bytesToMove_le (hd : d.WellFormed) (hocc : d.bufferOccupancy ≠ 0) :
    d.toq + d.bytesToMove count ≤ d.bufferMaxSize := by
  have hmin := d.bytesToMove_eq_min count
  have hle := hd.occupancy_le
  have hlt := hd.toq_lt (by omega)
  omega

theorem WellFormed.bytesToMove_pos (hd : d.WellFormed) (hocc : d.bufferOccupancy ≠ 0)
    (hcount : 0 < count) : 0 < d.bytesToMove count := by
  have hmin := d.bytesToMove_eq_min count
  have hle := hd.occupancy_le
  have hlt := hd.toq_lt (by omega)
  omega

theorem toq_moveOut (hfits : d.toq + n ≤ d.bufferMaxSize) :
    (d.moveOut n).toq = (d.toq + n) % d.bufferMaxSize := by
  unfold moveOut
  dsimp only
  split_ifs with hend
  · rw [hend, Nat.mod_self]
  · rw [Nat.mod_eq_of_lt (Nat.lt_of_le_of_ne hfits hend)]

theorem WellFormed.moveOut (hd : d.WellFormed) (hn : n ≤ d.bufferOccupancy)
    (hfits : d.toq + n ≤ d.bufferMaxSize) : (d.moveOut n).WellFormed where
  occupancy_le := (Nat.sub_le _ _).trans hd.occupancy_le
  toq_lt := fun hmax => (toq_moveOut hfits).symm ▸ Nat.mod_lt _ hmax
  eoq_le := hd.eoq_le
  eoq_eq := by
    rw [toq_moveOut hfits]
    change d.eoq % d.bufferMaxSize =
      ((d.toq + n) % d.bufferMaxSize + (d.bufferOccupancy - n)) % d.bufferMaxSize
    rw [Nat.mod_add_mod, hd.eoq_eq, Nat.add_assoc, Nat.add_sub_cancel' hn]

theorem WellFormed.unread_eq_append (hd : d.WellFormed) (hocc : d.bufferOccupancy ≠ 0)
    (hn : n ≤ d.bufferOccupancy) (hfits : d.toq + n ≤ d.bufferMaxSize) :
    d.unread = ((List.range n).map fun i => d.buffer (d.toq + i)) ++ (d.moveOut n).unread := by
  have hmax : 0 < d.bufferMaxSize := by
    have := hd.occupancy_le
    omega
  rw [← Fifo.window_of_fits hfits, unread, unread, toq_moveOut hfits]
  change _ = _ ++ Fifo.window d.buffer d.bufferMaxSize _ (d.bufferOccupancy - n)
  rw [Fifo.window_mod, ← Fifo.window_add, Nat.add_sub_cancel' hn]

/-- What `recv` writes does not touch the bytes that have not been read. -/
theorem WellFormed.unread_receive (hd : d.WellFormed) {nread : Received}
    (hroom : d.bufferOccupancy + nread.toBytes.length ≤ d.bufferMaxSize)
    (hgap : d.eoq + nread.toBytes.length ≤ d.bufferMaxSize)
    (hpossible : nread.Possible n) : (d.receive nread).unread = d.unread := by
  cases nread with
  | bytes xs =>
      obtain ⟨hpos, -⟩ := hpossible
      simp only [Received.toBytes] at hroom hgap
      have heoq : d.eoq = (d.toq + d.bufferOccupancy) % d.bufferMaxSize := by
        rw [← hd.eoq_eq, Nat.mod_eq_of_lt (by omega)]
      exact Fifo.window_write (hd.toq_lt (by omega)) heoq hroom
  | eof => rfl
  | error errno => rfl

theorem WellFormed.unread_commit (hd : d.WellFormed) {nread : Received}
    (hwritten : Fifo.window d.buffer d.bufferMaxSize d.eoq nread.toBytes.length = nread.toBytes) :
    (d.commit nread).unread = d.unread ++ nread.toBytes := by
  cases nread with
  | bytes xs =>
      change Fifo.window d.buffer d.bufferMaxSize d.toq (d.bufferOccupancy + xs.length) = _
      rw [Fifo.window_add, ← Fifo.window_mod _ _ (d.toq + d.bufferOccupancy), ← hd.eoq_eq,
        Fifo.window_mod]
      exact congrArg _ hwritten
  | eof => exact (List.append_nil _).symm
  | error errno => exact (List.append_nil _).symm

theorem WellFormed.receive (hd : d.WellFormed) (nread : Received) :
    (d.receive nread).WellFormed := by
  cases nread with
  | bytes xs => exact ⟨hd.occupancy_le, hd.toq_lt, hd.eoq_le, hd.eoq_eq⟩
  | eof => exact hd
  | error errno => exact hd

theorem WellFormed.commit (hd : d.WellFormed) {nread : Received}
    (hroom : d.bufferOccupancy + nread.toBytes.length ≤ d.bufferMaxSize)
    (hgap : d.eoq + nread.toBytes.length ≤ d.bufferMaxSize) : (d.commit nread).WellFormed := by
  cases nread with
  | bytes xs =>
      refine ⟨hroom, hd.toq_lt, hgap, ?_⟩
      change (d.eoq + xs.length) % _ = (d.toq + (d.bufferOccupancy + xs.length)) % _
      rw [← Nat.add_assoc]
      exact Nat.ModEq.add_right _ hd.eoq_eq
  | eof => exact ⟨hd.occupancy_le, hd.toq_lt, hd.eoq_le, hd.eoq_eq⟩
  | error errno => exact ⟨hd.occupancy_le, hd.toq_lt, hd.eoq_le, hd.eoq_eq⟩

theorem agrees_receive {nread : Received} (hn : (TcpReader.receiving n).Agrees d)
    (hpossible : nread.Possible n) : (TcpReader.received nread).Agrees (d.receive nread) := by
  obtain ⟨hclosed, herror, -, hroom, hgap⟩ := hn
  cases nread with
  | bytes xs =>
      obtain ⟨-, hlength⟩ := hpossible
      exact ⟨hclosed, herror, (Nat.add_le_add_left hlength _).trans hroom,
        (Nat.add_le_add_left hlength _).trans hgap,
        Fifo.window_write_self ((Nat.add_le_add_left hlength _).trans hgap)⟩
  | eof =>
      exact ⟨hclosed, herror, Nat.le_of_add_right_le hroom, Nat.le_of_add_right_le hgap, rfl⟩
  | error errno =>
      exact ⟨hclosed, herror, Nat.le_of_add_right_le hroom, Nat.le_of_add_right_le hgap, rfl⟩

theorem agrees_moveOut {reader : TcpReader} (hn : n ≤ d.bufferOccupancy)
    (hreader : reader.Agrees d) (hd : d.WellFormed) : reader.Agrees (d.moveOut n) := by
  cases reader with
  | checking => trivial
  | ready =>
      rintro (hfull | hstopped)
      · have hle := hd.occupancy_le
        have hsame : d.bufferOccupancy - n = d.bufferMaxSize := hfull
        exact hreader (Or.inl (by omega))
      · exact hreader (Or.inr hstopped)
  | receiving k =>
      obtain ⟨hclosed, herror, hpos, hroom, hgap⟩ := hreader
      exact ⟨hclosed, herror, hpos, (Nat.add_le_add_right (Nat.sub_le _ n) k).trans hroom, hgap⟩
  | received nread =>
      obtain ⟨hclosed, herror, hroom, hgap, hwritten⟩ := hreader
      exact ⟨hclosed, herror, (Nat.add_le_add_right (Nat.sub_le _ n) _).trans hroom, hgap, hwritten⟩

theorem pending_eq_nil {reader : TcpReader} (hreader : reader.Agrees d)
    (hstopped : d.errorCode ≠ 0 ∨ d.closed = true) : reader.pending = [] := by
  cases reader with
  | received nread =>
      obtain ⟨hclosed, herror, -⟩ := hreader
      rcases hstopped with hstopped | hstopped
      · exact absurd herror hstopped
      · exact absurd hstopped (hclosed ▸ Bool.false_ne_true)
  | _ => rfl

/-- There are bytes: some of them are returned, the first ones. -/
theorem WellFormed.bufferedRead_of_occupied (hd : d.WellFormed) (hocc : d.bufferOccupancy ≠ 0)
    (hcount : 0 < count) :
    ∃ xs remaining n, d.bufferedRead count = (.bytes xs remaining, d.moveOut n) ∧ xs ≠ [] ∧
      n ≤ d.bufferOccupancy ∧ d.toq + n ≤ d.bufferMaxSize ∧
        d.unread = xs ++ (d.moveOut n).unread := by
  have hfits : d.toq + d.bytesToMove count ≤ d.bufferMaxSize := hd.toq_add_bytesToMove_le hocc
  refine ⟨_, _, d.bytesToMove count, if_pos hocc, ?_, bytesToMove_le_occupancy, hfits,
    hd.unread_eq_append hocc bytesToMove_le_occupancy hfits⟩
  have hpos := hd.bytesToMove_pos hocc hcount
  intro hnil
  rw [List.map_eq_nil_iff, List.range_eq_nil] at hnil
  omega

/-- There are no bytes, and there is nothing to wait for. -/
theorem bufferedRead_of_empty (count : ℕ) (hocc : d.bufferOccupancy = 0)
    (hready : ¬ (d.closed = false ∧ d.NothingIn)) :
    (d.bufferedRead count = (.error d.errorCode, d) ∧ d.errorCode ≠ 0) ∨
      (d.bufferedRead count = (.closed, d) ∧ d.closed = true) := by
  unfold bufferedRead
  rw [if_neg (not_not.mpr hocc)]
  by_cases herror : d.errorCode ≠ 0
  · exact Or.inl ⟨if_pos herror, herror⟩
  · rw [if_neg herror]
    cases hclosed : d.closed with
    | false => exact absurd ⟨hclosed, hocc, not_not.mp herror⟩ hready
    | true => exact Or.inr ⟨rfl, rfl⟩

end Pointers

end TcpDesc

section Steps

variable {s t : TcpRing} {l : TcpLabel} {thread count : ℕ}

theorem returnedBytes_append (log log' : List (ℕ × Response)) :
    returnedBytes (log ++ log') = returnedBytes log ++ returnedBytes log' :=
  List.flatMap_append

/-- What a step is to do: keep the invariant, and return only what is truthful. -/
def TcpRing.Keeps (s t : TcpRing) : Prop :=
  t.Inv ∧ ∀ thread response, t.log = s.log ++ [(thread, response)] → response.Truthful s

theorem TcpRing.Keeps.of_silent (ht : t.Inv) (hlog : t.log = s.log) : s.Keeps t :=
  ⟨ht, fun _ _ h => absurd (hlog.symm.trans h) (by simp)⟩

namespace TcpRing.Inv

theorem countPos_update (hs : s.Inv) {c : TcpCaller} (hc : c.CountPos) (u : ℕ) :
    (Function.update s.caller thread c u).CountPos := by
  by_cases hu : u = thread
  · subst hu
    rwa [Function.update_self]
  · rw [Function.update_of_ne hu]
    exact hs.countPos u

theorem setCaller (hs : s.Inv) {c : TcpCaller} (hc : c.CountPos) : (s.setCaller thread c).Inv :=
  ⟨hs.wellFormed, hs.agrees, hs.countPos_update hc, hs.faithful⟩

/-- A call of `buffered_read` returns. -/
theorem finish_of_read (hs : s.Inv) {response : Response} {d : TcpDesc}
    (hread : s.desc.bufferedRead count = (response, d)) (hd : d.WellFormed)
    (hagrees : s.reader.Agrees d)
    (hunread : s.desc.unread = returnedBytes [(thread, response)] ++ d.unread)
    (htruthful : response.Truthful s) : s.Keeps (s.finish thread count) := by
  unfold TcpRing.finish
  rw [hread]
  refine ⟨⟨hd, hagrees, hs.countPos_update trivial, ?_⟩, ?_⟩
  · rw [returnedBytes_append, List.append_assoc (returnedBytes s.log), ← hunread]
    exact hs.faithful
  · intro thread' response' hlog
    obtain ⟨-, rfl⟩ : thread = thread' ∧ response = response' := by simpa using hlog
    exact htruthful

theorem finish (hs : s.Inv) (hcount : 0 < count)
    (hready : ¬ (s.desc.closed = false ∧ s.desc.NothingIn)) : s.Keeps (s.finish thread count) := by
  by_cases hocc : s.desc.bufferOccupancy = 0
  · have hunread : s.desc.unread = [] := by
      rw [TcpDesc.unread, hocc, Fifo.window_zero]
    have hreturned (hstopped : s.desc.errorCode ≠ 0 ∨ s.desc.closed = true) :
        returnedBytes s.log = s.received := by
      rw [hs.faithful, hunread, TcpDesc.pending_eq_nil hs.agrees hstopped, List.append_nil,
        List.append_nil]
    rcases TcpDesc.bufferedRead_of_empty count hocc hready with
      ⟨hread, herror⟩ | ⟨hread, hclosed⟩
    · exact hs.finish_of_read hread hs.wellFormed hs.agrees rfl ⟨herror, hreturned (Or.inl herror)⟩
    · exact hs.finish_of_read hread hs.wellFormed hs.agrees rfl (hreturned (Or.inr hclosed))
  · obtain ⟨xs, remaining, n, hread, hxs, hn, hfits, hunread⟩ :=
      hs.wellFormed.bufferedRead_of_occupied hocc hcount
    have hlast : returnedBytes [(thread, .bytes xs remaining)] = xs := List.append_nil xs
    exact hs.finish_of_read hread (hs.wellFormed.moveOut hn hfits)
      (TcpDesc.agrees_moveOut hn hs.agrees hs.wellFormed) (hlast.symm ▸ hunread) hxs

theorem check (hs : s.Inv) (h : s.step .check = some t) : s.Keeps t := by
  rw [step] at h
  split at h
  case h_1 hreader =>
    split_ifs at h with hwaits
    obtain rfl := Option.some.inj h
    refine .of_silent ⟨hs.wellFormed, hwaits, hs.countPos, ?_⟩ rfl
    have hfaithful := hs.faithful
    rwa [hreader] at hfaithful
  case h_2 => exact absurd h.symm (Option.some_ne_none t)

theorem request (hs : s.Inv) (h : s.step .request = some t) : s.Keeps t := by
  rw [step] at h
  split at h
  case h_1 hreader =>
    have hagrees := hs.agrees
    have hfaithful := hs.faithful
    rw [hreader] at hagrees hfaithful
    obtain rfl := Option.some.inj h
    refine .of_silent ⟨hs.wellFormed.wrap, hs.wellFormed.agrees_request hagrees, hs.countPos, ?_⟩
      rfl
    rw [TcpDesc.unread_wrap]
    exact hfaithful
  case h_2 => exact absurd h.symm (Option.some_ne_none t)

theorem recv {nread : Received} (hs : s.Inv) (h : s.step (.recv nread) = some t) : s.Keeps t := by
  rw [step] at h
  split at h
  case h_1 bytesToRequest hreader =>
    have hagrees := hs.agrees
    have hfaithful := hs.faithful
    rw [hreader] at hagrees hfaithful
    split_ifs at h with hpossible
    obtain rfl := Option.some.inj h
    have hagrees' := TcpDesc.agrees_receive hagrees hpossible
    refine .of_silent ⟨hs.wellFormed.receive nread, hagrees', hs.countPos, ?_⟩ rfl
    obtain ⟨-, -, -, hroom, hgap⟩ := hagrees
    have hlength := hpossible.length_le
    rw [hs.wellFormed.unread_receive (by omega) (by omega) hpossible, hfaithful]
    simp [TcpReader.pending]
  case h_2 => exact absurd h.symm (Option.some_ne_none t)

theorem commit (hs : s.Inv) (h : s.step .commit = some t) : s.Keeps t := by
  rw [step] at h
  split at h
  case h_1 nread hreader =>
    have hagrees := hs.agrees
    have hfaithful := hs.faithful
    rw [hreader] at hagrees hfaithful
    obtain ⟨-, -, hroom, hgap, hwritten⟩ := hagrees
    obtain rfl := Option.some.inj h
    refine .of_silent ⟨hs.wellFormed.commit hroom hgap, trivial, hs.countPos, ?_⟩ rfl
    rw [hs.wellFormed.unread_commit hwritten, hfaithful]
    simp [TcpReader.pending]
  case h_2 => exact absurd h.symm (Option.some_ne_none t)

theorem callRead (hs : s.Inv) (h : s.step (.callRead thread count) = some t) : s.Keeps t := by
  rw [step] at h
  split at h
  · split_ifs at h with hcount
    obtain rfl := Option.some.inj h
    exact .of_silent (hs.setCaller hcount) rfl
  · exact absurd h.symm (Option.some_ne_none t)

theorem read (hs : s.Inv) (h : s.step (.read thread) = some t) : s.Keeps t := by
  have hcount := hs.countPos thread
  rw [step] at h
  split at h
  case h_1 count hcaller =>
    rw [hcaller] at hcount
    split_ifs at h with hwaits
    · obtain rfl := Option.some.inj h
      exact .of_silent (hs.setCaller hcount) rfl
    · obtain rfl := Option.some.inj h
      exact hs.finish hcount hwaits
  case h_2 count hcaller =>
    rw [hcaller] at hcount
    split_ifs at h with hwaits
    obtain rfl := Option.some.inj h
    exact hs.finish hcount fun hempty => hwaits hempty.2
  case h_3 => exact absurd h.symm (Option.some_ne_none t)

theorem keeps (hs : s.Inv) (h : s.step l = some t) : s.Keeps t := by
  cases l with
  | check => exact hs.check h
  | request => exact hs.request h
  | recv nread => exact hs.recv h
  | commit => exact hs.commit h
  | callRead thread count => exact hs.callRead h
  | read thread => exact hs.read h

theorem sound (hs : s.Inv) : s.Sound where
  occupancy_le := hs.wellFormed.occupancy_le
  asksSafely := fun _ hn => hs.wellFormed.asksSafely (hn ▸ hs.agrees)
  faithful := hs.faithful

end TcpRing.Inv

end Steps

theorem TcpRing.inv_init (buffer : ℕ → BitVec 8) (bufferMaxSize : ℕ) :
    (TcpRing.init buffer bufferMaxSize).Inv :=
  ⟨TcpDesc.wellFormed_init buffer bufferMaxSize, trivial, fun _ => trivial, rfl⟩

/-- However the reader and the callers are interleaved, the buffer is a queue of the bytes received,
and an error or the end of the stream is returned only behind them. -/
theorem tcpRing_run_sound (buffer : ℕ → BitVec 8) (bufferMaxSize : ℕ) (ls : List TcpLabel) :
    Throughout TcpRing.step TcpRing.Sound (.init buffer bufferMaxSize) ls ∧
      Along TcpRing.step TcpRing.StepSound (.init buffer bufferMaxSize) ls := by
  have hinit := TcpRing.inv_init buffer bufferMaxSize
  have hstep : ∀ (s : TcpRing) l t, s.Inv → s.step l = some t → t.Inv :=
    fun s l t hs ht => (hs.keeps ht).1
  refine ⟨?_, ?_⟩
  · exact (throughout_of_invariant hstep hinit).mono fun s hs => hs.sound
  · exact along_of_invariant hstep
      (fun s l hs t thread response ht => (hs.keeps ht).2 thread response) hinit

end BufferedAudio

end ShairportSync
