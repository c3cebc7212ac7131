import Mathlib.Data.Rat.Defs
import ShairportSync.Fifo.Parts
import ShairportSync.Transition.Run

/-!
# The ring buffer of the JACK output

`play` converts frames into the free parts of JACK's ring buffer, or has soxr resample them into
these, and `process`, in JACK's thread, copies frames out of the parts that are held. Each side
moves its own pointer; `flush` only asks `process` to throw away what is held.

A step has one access to a pointer of the ring, or copies the frames of a part: those that are being
written are not looked at before the pointer has been advanced, and those that are being read are
not written over before theirs has.

In a part that soxr fills in several passes every pass is given the start of the part, although the
pointer of the ring has been advanced. So a second pass that produces frames writes over those of
the first, and what is held in their stead is what was in the ring before. Where all the frames of a
part come from one pass, the ports are given the frames that were produced.
-/

namespace ShairportSync

namespace Jack

open Fifo Transition

/-! ## The functions -/

/-- Two samples of 16 bits, for the left and for the right. -/
abbrev Input := BitVec 16 × BitVec 16

/-- Two samples for JACK. They are taken exactly here, before they are rounded to a `sample_t`. -/
abbrev Frame := ℚ × ℚ

def bytesPerFrame : ℕ := 2 * 4

/-- A ring buffer of JACK's: its size is a power of two, and not all of it need be usable. -/
structure Ringbuffer where
  power : ℕ
  capacity : ℕ
  capacity_le : capacity ≤ 2 ^ power

def Ringbuffer.size (ring : Ringbuffer) : ℕ := 2 ^ ring.power

def Ringbuffer.cells (ring : Ringbuffer) : ℕ := ring.size / bytesPerFrame

/-- "Zero int needs to be zero float", "Plus 32767 int is 1.0", "Minus 32767 int is -0.99997" -/
def sampleConv (sample : BitVec 16) : ℚ :=
  if sample.toInt < 0 then -1 * sample.toInt / -32768 else sample.toInt / 32767

def convert (frame : Input) : Frame := (sampleConv frame.1, sampleConv frame.2)

abbrev Ports := List ℚ × List ℚ

def deinterleave (frames : List Frame) (buffer : Ports) : Ports :=
  (buffer.1 ++ frames.map Prod.fst, buffer.2 ++ frames.map Prod.snd)

/-- "If there are any more frames to put into the buffer, fill them with silence." -/
def fillWithSilence (nframes : ℕ) (buffer : Ports) : Ports :=
  (buffer.1 ++ List.replicate nframes 0, buffer.2 ++ List.replicate nframes 0)

/-- Where a call of `play` is, with the parts of the ring and the samples that are left. -/
inductive Play where
  | idle
  /-- Before the next of the parts. -/
  | parts (v : List Part) (samples : List Input)
  /-- Converted samples are in the ring, and its pointer is to be advanced by them. -/
  | filled (frames : List Frame) (v : List Part) (samples : List Input)
  /-- At the condition of the loop of `soxr_process`, with the part `out` and what is left of it. -/
  | resampling (out : Part) (thisbuf : ℕ) (v : List Part) (samples : List Input)
  /-- The pointer is to be advanced by the frames of a pass. -/
  | resampled (frames : List Frame) (out : Part) (thisbuf : ℕ) (v : List Part)
      (samples : List Input)

inductive Process where
  | idle
  /-- At the test of `flush_please`. -/
  | called (nframes : ℕ)
  /-- So many bytes are to be thrown away. -/
  | discarding (nframes readSpace : ℕ)
  /-- They have been. -/
  | discarded
  /-- Before the next of the parts; `held` frames were in them. -/
  | reading (requested nframes framesWritten : ℕ) (v : List Part) (buffer : Ports) (held : ℕ)

/-- What has become of a call of `play`: what it was given, what it converted or soxr took, and the
number in the warning, if there was one. -/
structure PlayCall where
  buf : List Input
  taken : List Input
  dropped : Option ℕ
deriving DecidableEq

/-- A call of `process`: whether it was to flush, how many frames it was to provide, how many were
held when it looked, those that it took out of the ring, and what the ports were given. -/
structure Callback where
  flushed : Bool
  nframes : ℕ
  held : ℕ
  removed : List Frame
  buffer : Ports
deriving DecidableEq

/-- The ring buffer in cells of a frame, with pointers that are not wrapped round, where the two
threads are, and what has been done. -/
structure Output where
  cells : ℕ → Frame
  readPos : ℕ
  writePos : ℕ
  flushPlease : Bool
  play : Play
  process : Process
  /-- The frames that have been converted, or that soxr has produced. -/
  produced : List Frame
  /-- What the present call of `play` was given, and what of this has been taken. -/
  buf : List Input
  taken : List Input
  calls : List PlayCall
  callbacks : List Callback

inductive Label where
  | callPlay (buf : List Input)
  | play
  /-- `soxr_process` takes so many samples and produces the frames. -/
  | soxrProcess (iDone : ℕ) (frames : List Frame)
  | callProcess (nframes : ℕ)
  | process
  | flush

namespace Output

/-- What `jack_init` sets up; `memory` is what the ring buffer is in. -/
def init (memory : ℕ → Frame) : Output where
  cells := memory
  readPos := 0
  writePos := 0
  flushPlease := false
  play := .idle
  process := .idle
  produced := []
  buf := []
  taken := []
  calls := []
  callbacks := []

def readSpace (s : Output) : ℕ := s.writePos - s.readPos

def writeVector (ring : Ringbuffer) (s : Output) : List Part :=
  parts ring.size s.writePos (ring.capacity - s.readSpace)

def readVector (ring : Ringbuffer) (s : Output) : List Part :=
  parts ring.size s.readPos s.readSpace

/-- The cells that `n` frames are in from `pos` bytes on. -/
def frames (ring : Ringbuffer) (s : Output) (pos n : ℕ) : List Frame :=
  window s.cells ring.cells (pos / bytesPerFrame) n

/-- The loop over the samples, for one part: as many are converted as there are and fit. -/
def fill (p : Part) (v : List Part) (samples : List Input) (s : Output) : Output :=
  let out := p.units bytesPerFrame
  let frames := (samples.take out.len).map convert
  { s with
    cells := write s.cells out.start frames
    play := .filled frames v (samples.drop out.len)
    produced := s.produced ++ frames
    taken := s.taken ++ samples.take out.len }

def commit (frames : List Frame) (play : Play) (s : Output) : Output :=
  { s with
    writePos := s.writePos + frames.length * bytesPerFrame
    play := play }

/-- The end of `play`, where the samples that are left are dropped with a warning. -/
def finish (samples : List Input) (s : Output) : Output :=
  { s with
    play := .idle
    buf := []
    taken := []
    calls := s.calls ++
      [⟨s.buf, s.taken, if samples.length ≠ 0 then some samples.length else none⟩] }

def nextPlay (soxr : Bool) (s : Output) : Option Output :=
  match s.play with
  | .idle => none
  | .parts [] samples => some (s.finish samples)
  | .parts (p :: v) samples =>
      if soxr then
        let out := p.units bytesPerFrame
        some { s with play := .resampling out out.len v samples }
      else some (s.fill p v samples)
  | .filled frames v samples => some (s.commit frames (.parts v samples))
  | .resampling _ thisbuf v samples =>
      if 0 < samples.length ∧ 0 < thisbuf then none
      else some { s with play := .parts v samples }
  | .resampled frames out thisbuf v samples =>
      some (s.commit frames (.resampling out thisbuf v samples))

/-- A call of `soxr_process`, which takes samples or produces frames, no more than there is room
for. It writes them to the start of the part. -/
def resample (iDone : ℕ) (frames : List Frame) (s : Output) : Option Output :=
  match s.play with
  | .resampling out thisbuf v samples =>
      if 0 < samples.length ∧ 0 < thisbuf ∧ iDone ≤ samples.length ∧ frames.length ≤ thisbuf ∧
          (0 < iDone ∨ 0 < frames.length) then
        some { s with
          cells := write s.cells out.start frames
          play := .resampled frames out (thisbuf - frames.length) v (samples.drop iDone)
          produced := s.produced ++ frames
          taken := s.taken ++ samples.take iDone }
      else none
  | _ => none

def nextProcess (ring : Ringbuffer) (s : Output) : Option Output :=
  match s.process with
  | .idle => none
  | .called nframes =>
      if s.flushPlease then some { s with process := .discarding nframes s.readSpace }
      else
        some { s with
          process := .reading nframes nframes 0 (s.readVector ring) ([], [])
            (s.readSpace / bytesPerFrame) }
  | .discarding nframes readSpace =>
      some { s with
        readPos := s.readPos + readSpace
        process := .discarded
        callbacks := s.callbacks ++
          [⟨true, nframes, readSpace / bytesPerFrame,
            s.frames ring s.readPos (readSpace / bytesPerFrame),
            fillWithSilence nframes ([], [])⟩] }
  | .discarded => some { s with flushPlease := false, process := .idle }
  | .reading requested nframes framesWritten (p :: v) buffer held =>
      let thisbuf := p.units bytesPerFrame
      let framesRequired := if thisbuf.len > nframes then nframes else thisbuf.len
      some { s with
        process := .reading requested (nframes - framesRequired) (framesWritten + framesRequired) v
          (deinterleave (thisbuf.read s.cells framesRequired) buffer) held }
  | .reading requested nframes framesWritten [] buffer held =>
      some { s with
        readPos := s.readPos + framesWritten * bytesPerFrame
        process := .idle
        callbacks := s.callbacks ++
          [⟨false, requested, held, s.frames ring s.readPos framesWritten,
            fillWithSilence nframes buffer⟩] }

def step (ring : Ringbuffer) (soxr : Bool) (s : Output) : Label → Option Output
  | .callPlay buf =>
      match s.play with
      | .idle => some { s with play := .parts (s.writeVector ring) buf, buf := buf }
      | _ => none
  | .play => s.nextPlay soxr
  | .soxrProcess iDone frames => s.resample iDone frames
  | .callProcess nframes =>
      match s.process with
      | .idle => some { s with process := .called nframes }
      | _ => none
  | .process => s.nextProcess ring
  | .flush => some { s with flushPlease := true }

end Output

/-! ## The stream of frames -/

/-- The frames that are in the ring without having been counted there. -/
def Play.uncommitted : Play → List Frame
  | .filled frames _ _ => frames
  | .resampled frames _ _ _ _ => frames
  | _ => []

def Play.samples : Play → List Input
  | .idle => []
  | .parts _ samples => samples
  | .filled _ _ samples => samples
  | .resampling _ _ _ samples => samples
  | .resampled _ _ _ _ samples => samples

def Play.UnfilledPart : Play → Prop
  | .resampling out thisbuf _ _ => thisbuf = out.len
  | _ => True

instance : DecidablePred Play.UnfilledPart
  | .idle => isTrue trivial
  | .parts _ _ => isTrue trivial
  | .filled _ _ _ => isTrue trivial
  | .resampling _ _ _ _ => inferInstanceAs (Decidable (_ = _))
  | .resampled _ _ _ _ _ => isTrue trivial

/-- What was given to a call has been taken from the front, and the number of the others is
reported. -/
def PlayCall.Accounted (call : PlayCall) : Prop :=
  call.taken <+: call.buf ∧
    call.dropped =
      if call.buf.length = call.taken.length then none
      else some (call.buf.length - call.taken.length)

/-- The ports are given the frames that are taken out, each of the ports as many samples as it was
to be given: zeros behind the frames, if there were fewer of them. A call that flushes takes out all
that is there, and gives the ports none of it. -/
structure Callback.Sound (c : Callback) : Prop where
  left : c.buffer.1.length = c.nframes
  right : c.buffer.2.length = c.nframes
  flushed : c.flushed = true →
    c.removed.length = c.held ∧ c.buffer = fillWithSilence c.nframes ([], [])
  given : c.flushed = false →
    c.buffer =
      fillWithSilence (c.nframes - c.removed.length) (deinterleave c.removed ([], []))
  silence : c.flushed = false → c.removed.length < c.nframes →
    c.removed.length = c.held ∧ c.held < c.nframes

namespace Output

def held (s : Output) : ℕ := s.readSpace / bytesPerFrame

/-- The frames that were produced are, in this order and each of them once, those that have been
taken out of the ring and those that are in it. -/
structure Preserved (ring : Ringbuffer) (soxr : Bool) (s : Output) : Prop where
  stream : s.produced =
    s.callbacks.flatMap Callback.removed ++ s.frames ring s.readPos s.held ++ s.play.uncommitted
  callbacks : ∀ c ∈ s.callbacks, c.Sound
  calls : ∀ call ∈ s.calls, call.Accounted
  converted : soxr = false →
    s.produced = (s.calls.flatMap PlayCall.taken ++ s.taken).map convert

/-- The cells are in the ring, and none of them holds a frame. -/
def WritesFree (ring : Ringbuffer) (s : Output) (pos n : ℕ) : Prop :=
  ∀ i < n, pos + i < ring.cells ∧
    ∀ j < s.held, (s.readPos / bytesPerFrame + j) % ring.cells ≠ pos + i

/-- `play` and soxr write into free cells. -/
def StepFree (ring : Ringbuffer) (soxr : Bool) (s : Output) : Label → Prop
  | .play =>
      soxr = false → ∀ p v samples, s.play = .parts (p :: v) samples →
        s.WritesFree ring (p.units bytesPerFrame).start
          (min (p.units bytesPerFrame).len samples.length)
  | .soxrProcess _ frames =>
      ∀ out thisbuf v samples, s.play = .resampling out thisbuf v samples →
        s.WritesFree ring out.start frames.length
  | _ => True

def OnceInAPart (s : Output) : Label → Prop
  | .soxrProcess _ frames => s.play.UnfilledPart ∨ frames = []
  | _ => True

instance (s : Output) : DecidablePred s.OnceInAPart
  | .callPlay _ => isTrue trivial
  | .play => isTrue trivial
  | .soxrProcess _ _ => inferInstanceAs (Decidable (_ ∨ _))
  | .callProcess _ => isTrue trivial
  | .process => isTrue trivial
  | .flush => isTrue trivial

end Output

end Jack

end ShairportSync
