import Mathlib.Data.Nat.ModEq
import ShairportSync.Jack.Output

/-!
# The frames that the ports are given

Where all the frames of a part come from one pass of soxr, or it is not used, the frames that `play`
produces lie one behind the other in the ring, in free cells, and `process` takes them out in this
order. The parts that `play` has got stay free while `process` goes on, and the frames that
`process` has found stay where they are while `play` goes on.
-/

namespace ShairportSync

namespace Jack

open Fifo Transition

/-! ## The invariant -/

def Ringbuffer.room (ring : Ringbuffer) : ℕ := ring.capacity / bytesPerFrame

theorem bytesPerFrame_pos : 0 < bytesPerFrame := by decide

theorem Ringbuffer.room_le (ring : Ringbuffer) : ring.room ≤ ring.cells :=
  Nat.div_le_div_right ring.capacity_le

theorem Ringbuffer.size_frames (ring : Ringbuffer) :
    bytesPerFrame ∣ ring.size ∨ ring.size < bytesPerFrame := by
  rcases Nat.lt_or_ge ring.power 3 with hless | hle
  · exact .inr (Nat.pow_lt_pow_right Nat.one_lt_two hless)
  · exact .inl (Nat.pow_dvd_pow 2 hle)

/-- The pointers are at frames, and no more is held than can be. -/
structure Ringbuffer.Pointers (ring : Ringbuffer) (readPos writePos : ℕ) : Prop where
  read_dvd : bytesPerFrame ∣ readPos
  write_dvd : bytesPerFrame ∣ writePos
  read_le : readPos ≤ writePos
  space_le : writePos - readPos ≤ ring.capacity

section Pointers

variable {ring : Ringbuffer} {readPos writePos n : ℕ}

theorem Ringbuffer.Pointers.space_dvd (h : ring.Pointers readPos writePos) :
    bytesPerFrame ∣ writePos - readPos :=
  Nat.dvd_sub h.write_dvd h.read_dvd

theorem Ringbuffer.Pointers.frames_eq (h : ring.Pointers readPos writePos) :
    writePos / bytesPerFrame =
      readPos / bytesPerFrame + (writePos - readPos) / bytesPerFrame := by
  rw [← Nat.add_div_of_dvd_right h.read_dvd, Nat.add_sub_cancel' h.read_le]

theorem Ringbuffer.Pointers.write (h : ring.Pointers readPos writePos)
    (hroom : (writePos - readPos) / bytesPerFrame + n ≤ ring.room) :
    ring.Pointers readPos (writePos + n * bytesPerFrame) := by
  refine ⟨h.read_dvd, Nat.dvd_add h.write_dvd (Nat.dvd_mul_left _ _),
    h.read_le.trans (Nat.le_add_right _ _), ?_⟩
  have hspace := Nat.div_mul_cancel h.space_dvd
  calc writePos + n * bytesPerFrame - readPos
      = writePos - readPos + n * bytesPerFrame := Nat.sub_add_comm h.read_le
    _ = ((writePos - readPos) / bytesPerFrame + n) * bytesPerFrame := by rw [Nat.add_mul, hspace]
    _ ≤ ring.room * bytesPerFrame := Nat.mul_le_mul_right _ hroom
    _ ≤ ring.capacity := Nat.div_mul_le_self _ _

theorem Ringbuffer.Pointers.read (h : ring.Pointers readPos writePos)
    (hheld : n ≤ (writePos - readPos) / bytesPerFrame) :
    ring.Pointers (readPos + n * bytesPerFrame) writePos := by
  have hspace := Nat.div_mul_cancel h.space_dvd
  have hless := Nat.mul_le_mul_right bytesPerFrame hheld
  have hle := h.read_le
  rw [hspace] at hless
  exact ⟨Nat.dvd_add h.read_dvd (Nat.dvd_mul_left _ _), h.write_dvd, by omega,
    (Nat.sub_le_sub_left (Nat.le_add_right _ _) _).trans h.space_le⟩

end Pointers

/-- What is left of a part, if it is all of it or none, and the parts behind it are free. -/
def AtPart (cap bound pos : ℕ) (out : Part) (thisbuf : ℕ) (v : List Part) : Prop :=
  (thisbuf = out.len → Free cap bound pos (out :: v)) ∧ (thisbuf = 0 → Free cap bound pos v)

/-- The frames are there behind what is held, and go no further than to `bound`. -/
def Filled (cap bound pos : ℕ) (cells : ℕ → Frame) (frames : List Frame) : Prop :=
  pos + frames.length ≤ bound ∧ window cells cap pos frames.length = frames

def Play.Placed (soxr : Bool) (cap bound pos : ℕ) (cells : ℕ → Frame) : Play → Prop
  | .idle => True
  | .parts v samples => samples = [] ∨ Free cap bound pos (v.map (Part.units bytesPerFrame))
  | .filled frames v samples =>
      Filled cap bound pos cells frames ∧
        (samples = [] ∨
          Free cap bound (pos + frames.length) (v.map (Part.units bytesPerFrame)))
  | .resampling out thisbuf v samples =>
      soxr = true ∧
        (samples = [] ∨ AtPart cap bound pos out thisbuf (v.map (Part.units bytesPerFrame)))
  | .resampled frames out thisbuf v _ =>
      soxr = true ∧ Filled cap bound pos cells frames ∧
        AtPart cap bound (pos + frames.length) out thisbuf (v.map (Part.units bytesPerFrame))

def Process.Agrees (cap first last : ℕ) (cells : ℕ → Frame) : Process → Prop
  | .discarding _ readSpace =>
      bytesPerFrame ∣ readSpace ∧ first + readSpace / bytesPerFrame ≤ last
  | .reading requested nframes framesWritten v buffer held =>
      framesWritten + nframes = requested ∧ framesWritten ≤ held ∧ first + held ≤ last ∧
        buffer = deinterleave (window cells cap first framesWritten) ([], []) ∧
        (nframes = 0 ∨
          Layout cap (first + framesWritten) (held - framesWritten)
            (v.map (Part.units bytesPerFrame)))
  | _ => True

theorem Play.Placed.mono {soxr : Bool} {cap bound bound' pos : ℕ} {cells : ℕ → Frame} {play : Play}
    (h : play.Placed soxr cap bound pos cells) (hle : bound ≤ bound') :
    play.Placed soxr cap bound' pos cells := by
  have hpart : ∀ {pos out thisbuf v}, AtPart cap bound pos out thisbuf v →
      AtPart cap bound' pos out thisbuf v :=
    fun hat => ⟨fun hall => (hat.1 hall).mono hle, fun hnone => (hat.2 hnone).mono hle⟩
  cases play with
  | idle => trivial
  | parts v samples => exact h.imp_right fun hfree => hfree.mono hle
  | filled frames v samples =>
      exact ⟨⟨h.1.1.trans hle, h.1.2⟩, h.2.imp_right fun hfree => hfree.mono hle⟩
  | resampling out thisbuf v samples => exact ⟨h.1, h.2.imp_right hpart⟩
  | resampled frames out thisbuf v samples =>
      exact ⟨h.1, ⟨h.2.1.1.trans hle, h.2.1.2⟩, hpart h.2.2⟩

theorem Process.Agrees.mono {cap first last last' : ℕ} {cells cells' : ℕ → Frame}
    {process : Process} (h : process.Agrees cap first last cells) (hle : last ≤ last')
    (hcells : ∀ m, first + m ≤ last → window cells' cap first m = window cells cap first m) :
    process.Agrees cap first last' cells' := by
  cases process with
  | discarding nframes readSpace => exact ⟨h.1, h.2.trans hle⟩
  | reading requested nframes framesWritten v buffer held =>
      obtain ⟨hcount, hwritten, hheld, hbuffer, hparts⟩ := h
      refine ⟨hcount, hwritten, hheld.trans hle, ?_, hparts⟩
      rw [hcells framesWritten (by omega)]
      exact hbuffer
  | _ => trivial

theorem Filled.of_nil {cap bound pos : ℕ} {cells : ℕ → Frame} (h : pos ≤ bound) :
    Filled cap bound pos cells [] :=
  ⟨h, rfl⟩

namespace Output

def readFrame (s : Output) : ℕ := s.readPos / bytesPerFrame

def writeFrame (s : Output) : ℕ := s.writePos / bytesPerFrame

structure Inv (ring : Ringbuffer) (soxr : Bool) (s : Output) : Prop where
  pointers : ring.Pointers s.readPos s.writePos
  placed : s.play.Placed soxr ring.cells (s.readFrame + ring.room) s.writeFrame s.cells
  agrees : s.process.Agrees ring.cells s.readFrame s.writeFrame s.cells
  taken : s.buf = s.taken ++ s.play.samples
  idle : s.play = .idle → s.taken = []
  preserved : s.Preserved ring soxr

variable {ring : Ringbuffer} {soxr : Bool} {s t : Output}

theorem inv_init (ring : Ringbuffer) (soxr : Bool) (memory : ℕ → Frame) :
    (init memory).Inv ring soxr where
  pointers := ⟨Nat.dvd_zero _, Nat.dvd_zero _, le_rfl, Nat.zero_le _⟩
  placed := trivial
  agrees := trivial
  taken := rfl
  idle _ := rfl
  preserved := by
    have hheld : (init memory).held = 0 := Nat.zero_div _
    refine ⟨?_, List.forall_mem_nil _, List.forall_mem_nil _, fun _ => rfl⟩
    rw [hheld]
    rfl

theorem Inv.writeFrame_eq (h : s.Inv ring soxr) : s.writeFrame = s.readFrame + s.held :=
  h.pointers.frames_eq

theorem Inv.held_le (h : s.Inv ring soxr) : s.held ≤ ring.room :=
  Nat.div_le_div_right h.pointers.space_le

theorem Inv.free_writeVector (h : s.Inv ring soxr) :
    Free ring.cells (s.readFrame + ring.room) s.writeFrame
      ((s.writeVector ring).map (Part.units bytesPerFrame)) := by
  refine ⟨(ring.capacity - s.readSpace) / bytesPerFrame, ?_,
    layout_units_parts ring.size_frames h.pointers.write_dvd
      ((Nat.sub_le _ _).trans ring.capacity_le)⟩
  have hspace : bytesPerFrame * s.held = s.readSpace := Nat.mul_div_cancel' h.pointers.space_dvd
  have hfree : (ring.capacity - s.readSpace) / bytesPerFrame = ring.room - s.held := by
    rw [← hspace, Nat.sub_mul_div]
    rfl
  have hle := h.held_le
  rw [hfree, h.writeFrame_eq]
  omega

/-- The read vector is of the frames that are held. -/
theorem Inv.layout_readVector (h : s.Inv ring soxr) :
    Layout ring.cells s.readFrame s.held ((s.readVector ring).map (Part.units bytesPerFrame)) :=
  layout_units_parts ring.size_frames h.pointers.read_dvd
    (h.pointers.space_le.trans ring.capacity_le)

/-! ### The steps of `play` -/

/-- Frames that are written behind what is held leave this as it is. -/
theorem Inv.write_behind {p : Part} {frames : List Frame} (h : s.Inv ring soxr)
    (hpart : p.At ring.cells s.writeFrame) (hlength : frames.length ≤ p.len)
    (hbound : s.writeFrame + frames.length ≤ s.readFrame + ring.room) :
    (∀ m, s.readFrame + m ≤ s.writeFrame →
        window (write s.cells p.start frames) ring.cells s.readFrame m =
          window s.cells ring.cells s.readFrame m) ∧
      Filled ring.cells (s.readFrame + ring.room) s.writeFrame (write s.cells p.start frames)
        frames := by
  have heq := h.writeFrame_eq
  have hroom := ring.room_le
  have hfree : s.held + frames.length ≤ ring.cells := by omega
  refine ⟨fun m hm => (hpart.window_write heq hfree hlength (by omega)).1, hbound, ?_⟩
  exact (hpart.window_write heq hfree hlength (Nat.zero_le _)).2

theorem Inv.writesFree {p : Part} {n : ℕ} (h : s.Inv ring soxr)
    (hpart : p.At ring.cells s.writeFrame) (hlength : n ≤ p.len)
    (hbound : s.writeFrame + n ≤ s.readFrame + ring.room) : s.WritesFree ring p.start n := by
  have heq := h.writeFrame_eq
  have hroom := ring.room_le
  have hfree : s.held + n ≤ ring.cells := by omega
  refine fun i hi => ⟨?_, fun j hj => (hpart.cell_ne heq hfree hlength hi hj).2⟩
  rcases hpart with hnone | ⟨-, hfits⟩
  · omega
  · omega

/-- A step that puts frames into the ring behind what is held. -/
theorem Inv.store {cells : ℕ → Frame} {play : Play} {frames : List Frame} {samples : List Input}
    (h : s.Inv ring soxr) (hnone : s.play.uncommitted = []) (hframes : play.uncommitted = frames)
    (hsamples : s.play.samples = samples ++ play.samples) (hbusy : play ≠ .idle)
    (hcells : ∀ m, s.readFrame + m ≤ s.writeFrame →
      window cells ring.cells s.readFrame m = window s.cells ring.cells s.readFrame m)
    (hplaced : play.Placed soxr ring.cells (s.readFrame + ring.room) s.writeFrame cells)
    (hconverted : soxr = false → frames = samples.map convert) :
    Inv ring soxr { s with
      cells := cells
      play := play
      produced := s.produced ++ frames
      taken := s.taken ++ samples } where
  pointers := h.pointers
  placed := hplaced
  agrees := h.agrees.mono le_rfl hcells
  taken := by
    change s.buf = s.taken ++ samples ++ play.samples
    rw [h.taken, hsamples, List.append_assoc]
  idle hidle := absurd hidle hbusy
  preserved := by
    refine ⟨?_, h.preserved.callbacks, h.preserved.calls, fun hsoxr => ?_⟩
    · have hstream := h.preserved.stream
      rw [hnone, List.append_nil] at hstream
      have hheld := hcells s.held h.writeFrame_eq.ge
      change s.produced ++ frames = s.callbacks.flatMap Callback.removed ++
        window cells ring.cells s.readFrame s.held ++ play.uncommitted
      rw [hheld, hframes, hstream]
      rfl
    · change s.produced ++ frames =
        (s.calls.flatMap PlayCall.taken ++ (s.taken ++ samples)).map convert
      rw [h.preserved.converted hsoxr, hconverted hsoxr, ← List.map_append, List.append_assoc]

/-- A step of `play` that leaves the ring and the samples as they are. -/
theorem Inv.play {play : Play} (h : s.Inv ring soxr) (hnone : s.play.uncommitted = [])
    (hframes : play.uncommitted = []) (hsamples : s.play.samples = play.samples)
    (hbusy : play ≠ .idle)
    (hplaced : play.Placed soxr ring.cells (s.readFrame + ring.room) s.writeFrame s.cells) :
    Inv ring soxr { s with play := play } := by
  have hstore := h.store hnone hframes (show s.play.samples = [] ++ play.samples from hsamples)
    hbusy (fun _ _ => rfl) hplaced fun _ => rfl
  rw [List.append_nil, List.append_nil] at hstore
  exact hstore

/-- Advancing the pointer of the ring by the frames that are behind what is held. -/
theorem Inv.commit {play : Play} {frames : List Frame} (h : s.Inv ring soxr)
    (hframes : s.play.uncommitted = frames) (hnone : play.uncommitted = [])
    (hsamples : s.play.samples = play.samples) (hbusy : play ≠ .idle)
    (hfilled : Filled ring.cells (s.readFrame + ring.room) s.writeFrame s.cells frames)
    (hplaced : play.Placed soxr ring.cells (s.readFrame + ring.room)
      (s.writeFrame + frames.length) s.cells) :
    (s.commit frames play).Inv ring soxr := by
  have heq := h.writeFrame_eq
  have hroom : s.held + frames.length ≤ ring.room := by
    have hbound := hfilled.1
    omega
  have hpointers : ring.Pointers (s.commit frames play).readPos (s.commit frames play).writePos :=
    h.pointers.write hroom
  have hlast : (s.commit frames play).writeFrame = s.writeFrame + frames.length :=
    Nat.add_mul_div_right _ _ bytesPerFrame_pos
  have hheld : (s.commit frames play).held = s.held + frames.length := by
    have hnew : (s.commit frames play).writeFrame = s.readFrame + (s.commit frames play).held :=
      hpointers.frames_eq
    omega
  refine ⟨hpointers, ?_, ?_, ?_, fun hidle => absurd hidle hbusy, ?_, h.preserved.callbacks,
    h.preserved.calls, h.preserved.converted⟩
  · rw [hlast]
    exact hplaced
  · rw [hlast]
    exact h.agrees.mono (Nat.le_add_right _ _) fun _ _ => rfl
  · change s.buf = s.taken ++ play.samples
    rw [h.taken, hsamples]
  · have hstream := h.preserved.stream
    rw [hframes] at hstream
    rw [hheld]
    change s.produced = s.callbacks.flatMap Callback.removed ++
      window s.cells ring.cells s.readFrame (s.held + frames.length) ++ play.uncommitted
    rw [hnone, List.append_nil, window_add, ← heq, hfilled.2, ← List.append_assoc]
    exact hstream

theorem Inv.fill {p : Part} {v : List Part} {samples : List Input} (h : s.Inv ring soxr)
    (hplay : s.play = .parts (p :: v) samples) :
    s.WritesFree ring (p.units bytesPerFrame).start
        (min (p.units bytesPerFrame).len samples.length) ∧
      (s.fill p v samples).Inv ring soxr := by
  have hplaced := h.placed
  rw [hplay] at hplaced
  have hsplit : s.play.samples = samples.take (p.units bytesPerFrame).len ++
      samples.drop (p.units bytesPerFrame).len := by
    rw [hplay, List.take_append_drop]
    rfl
  have hlength : ((samples.take (p.units bytesPerFrame).len).map convert).length =
      min (p.units bytesPerFrame).len samples.length := by
    rw [List.length_map, List.length_take]
  rcases hplaced with rfl | hfree
  · refine ⟨fun i hi => absurd hi (Nat.not_lt.2 ((Nat.min_le_right _ _).trans i.zero_le)), ?_⟩
    refine h.store (by rw [hplay]; rfl) rfl hsplit nofun (fun m _ => ?_) ⟨?_, .inl ?_⟩ fun _ => rfl
    · rw [List.take_nil, List.map_nil, write_nil]
    · rw [List.take_nil, List.map_nil]
      have heq := h.writeFrame_eq
      have hroom := h.held_le
      exact .of_nil (by omega)
    · exact List.drop_nil
  · have hfree : Free ring.cells (s.readFrame + ring.room) s.writeFrame
        (p.units bytesPerFrame :: v.map (Part.units bytesPerFrame)) := hfree
    obtain ⟨hpart, hbound⟩ := hfree.head
    have hless : min (p.units bytesPerFrame).len samples.length ≤ (p.units bytesPerFrame).len :=
      Nat.min_le_left _ _
    refine ⟨h.writesFree hpart hless (by omega), ?_⟩
    obtain ⟨hcells, hfilled⟩ := h.write_behind hpart (hlength.trans_le hless) (by omega)
    refine h.store (by rw [hplay]; rfl) rfl hsplit nofun hcells ⟨hfilled, ?_⟩ fun _ => rfl
    rcases Nat.le_total samples.length (p.units bytesPerFrame).len with hall | hpartly
    · exact .inl (List.drop_eq_nil_of_le hall)
    · rw [hlength, Nat.min_eq_left hpartly]
      exact .inr hfree.tail

theorem Inv.finish {samples : List Input} (h : s.Inv ring soxr)
    (hplay : s.play = .parts [] samples) : (s.finish samples).Inv ring soxr := by
  have htaken := h.taken
  have hstream := h.preserved.stream
  rw [hplay] at htaken hstream
  have hbuf : s.buf = s.taken ++ samples := htaken
  refine ⟨h.pointers, trivial, h.agrees, rfl, fun _ => rfl, hstream, h.preserved.callbacks, ?_,
    fun hsoxr => ?_⟩
  · refine List.forall_mem_append.2 ⟨h.preserved.calls, List.forall_mem_singleton.2 ⟨?_, ?_⟩⟩
    · exact ⟨samples, hbuf.symm⟩
    · dsimp only
      rw [hbuf, List.length_append, Nat.add_sub_cancel_left]
      rcases Nat.eq_zero_or_pos samples.length with hnone | hsome
      · rw [hnone, if_neg (not_not.2 rfl), if_pos (Nat.add_zero _)]
      · rw [if_pos (by omega), if_neg (by omega)]
  · change s.produced = ((s.calls ++ [_]).flatMap PlayCall.taken ++ []).map convert
    rw [List.flatMap_append, List.append_nil, h.preserved.converted hsoxr]
    simp only [List.flatMap_cons, List.flatMap_nil, List.append_nil]

theorem Inv.nextPlay (h : s.Inv ring soxr) (hstep : s.nextPlay soxr = some t) :
    t.Inv ring soxr := by
  have hplaced := h.placed
  unfold Output.nextPlay at hstep
  cases hplay : s.play with
  | idle =>
      rw [hplay] at hstep
      cases hstep
  | parts v samples =>
      rw [hplay] at hstep hplaced
      cases v with
      | nil =>
          obtain rfl := Option.some.inj hstep
          exact h.finish hplay
      | cons p v =>
          dsimp only at hstep
          cases hsoxr : soxr with
          | false =>
              rw [hsoxr, if_neg Bool.false_ne_true] at hstep
              obtain rfl := Option.some.inj hstep
              exact hsoxr ▸ (h.fill hplay).2
          | true =>
              rw [hsoxr, if_pos rfl] at hstep
              obtain rfl := Option.some.inj hstep
              refine hsoxr ▸ h.play (by rw [hplay]; rfl) rfl (by rw [hplay]; rfl) nofun ⟨hsoxr, ?_⟩
              refine hplaced.imp_right fun hfree => ⟨fun _ => hfree, fun hnone => ?_⟩
              have htail := Free.tail (p := p.units bytesPerFrame) hfree
              rwa [hnone, Nat.add_zero] at htail
  | filled frames v samples =>
      rw [hplay] at hstep hplaced
      obtain rfl := Option.some.inj hstep
      exact h.commit (by rw [hplay]; rfl) rfl (by rw [hplay]; rfl) nofun hplaced.1 hplaced.2
  | resampling out thisbuf v samples =>
      rw [hplay] at hstep hplaced
      dsimp only at hstep
      split_ifs at hstep with hmore
      obtain rfl := Option.some.inj hstep
      refine h.play (by rw [hplay]; rfl) rfl (by rw [hplay]; rfl) nofun ?_
      rcases hplaced.2 with hnone | hat
      · exact .inl hnone
      · rcases Nat.eq_zero_or_pos samples.length with hnone | hsome
        · exact .inl (List.length_eq_zero_iff.1 hnone)
        · exact .inr (hat.2 (by omega))
  | resampled frames out thisbuf v samples =>
      rw [hplay] at hstep hplaced
      obtain rfl := Option.some.inj hstep
      exact h.commit (by rw [hplay]; rfl) rfl (by rw [hplay]; rfl) nofun hplaced.2.1
        ⟨hplaced.1, .inr hplaced.2.2⟩

/-- A pass of soxr, if no frames have been put into the part yet, or none are now. -/
theorem Inv.resample {iDone : ℕ} {frames : List Frame} (h : s.Inv ring soxr)
    (hguard : s.OnceInAPart (.soxrProcess iDone frames))
    (hstep : s.resample iDone frames = some t) :
    s.StepFree ring soxr (.soxrProcess iDone frames) ∧ t.Inv ring soxr := by
  have hplaced := h.placed
  have hheld := h.held_le
  have heq := h.writeFrame_eq
  unfold Output.resample at hstep
  unfold StepFree
  cases hplay : s.play with
  | resampling out thisbuf v samples =>
      have honce : s.play.UnfilledPart ∨ frames = [] := hguard
      rw [hplay] at hstep hplaced honce
      dsimp only at hstep
      split_ifs at hstep with hpass
      obtain ⟨hsamples, hthisbuf, hiDone, hlength, -⟩ := hpass
      obtain rfl := Option.some.inj hstep
      obtain ⟨hsoxr, hnone | hat⟩ := hplaced
      · rw [hnone] at hsamples
        exact absurd hsamples (Nat.lt_irrefl 0)
      have hsplit : s.play.samples = samples.take iDone ++ samples.drop iDone := by
        rw [hplay, List.take_append_drop]
        rfl
      have hconverted : soxr = false → frames = (samples.take iDone).map convert :=
        fun hoff => absurd (hoff.symm.trans hsoxr) Bool.false_ne_true
      rcases eq_or_ne frames [] with rfl | hsome
      · -- nothing is written, and what is left of the part stays as it is
        refine ⟨fun _ _ _ _ _ i hi => absurd hi (Nat.not_lt_zero i), ?_⟩
        refine h.store (by rw [hplay]; rfl) rfl hsplit nofun (fun m _ => by rw [write_nil])
          ⟨hsoxr, .of_nil (by omega), hat⟩ hconverted
      · obtain rfl := honce.resolve_right hsome
        have hfree := hat.1 rfl
        obtain ⟨hpart, hbound⟩ := hfree.head
        obtain ⟨hcells, hfilled⟩ := h.write_behind hpart hlength (by omega)
        refine ⟨fun out' thisbuf' v' samples' hplay' => ?_, ?_⟩
        · obtain ⟨rfl, -, -, -⟩ := Play.resampling.inj hplay'
          exact h.writesFree hpart hlength (by omega)
        · have hpositive := List.length_pos_iff.2 hsome
          refine h.store (by rw [hplay]; rfl) rfl hsplit nofun hcells
            ⟨hsoxr, hfilled, fun hall => ?_, fun hnone => ?_⟩ hconverted
          · omega
          · have hall : frames.length = out.len := by omega
            rw [hall]
            exact hfree.tail
  | _ =>
      rw [hplay] at hstep
      cases hstep

/-! ### The steps of `process` -/

/-- A step of `process` that leaves the pointers as they are. -/
theorem Inv.process {process : Process} (h : s.Inv ring soxr)
    (hagrees : process.Agrees ring.cells s.readFrame s.writeFrame s.cells) :
    Inv ring soxr { s with process := process } :=
  { h with agrees := hagrees, preserved := { h.preserved with } }

/-- The end of a call, in which the pointer is advanced over the frames that it takes out. -/
theorem Inv.advance {process : Process} {n m : ℕ} {c : Callback} (h : s.Inv ring soxr)
    (hn : n = m * bytesPerFrame) (hheld : s.readFrame + m ≤ s.writeFrame)
    (hremoved : c.removed = s.frames ring s.readPos m) (hsound : c.Sound)
    (hagrees : process.Agrees ring.cells (s.readFrame + m) s.writeFrame s.cells) :
    Inv ring soxr { s with
      readPos := s.readPos + n
      process := process
      callbacks := s.callbacks ++ [c] } := by
  have heq := h.writeFrame_eq
  have hm : m ≤ s.held := by omega
  have hpointers : ring.Pointers (s.readPos + n) s.writePos := hn ▸ h.pointers.read hm
  have hfirst : (s.readPos + n) / bytesPerFrame = s.readFrame + m := by
    rw [hn]
    exact Nat.add_mul_div_right _ _ bytesPerFrame_pos
  have hrest : (s.writePos - (s.readPos + n)) / bytesPerFrame = s.held - m := by
    have hnew : s.writeFrame = _ := hpointers.frames_eq
    omega
  refine ⟨hpointers, ?_, ?_, h.taken, h.idle, ?_, ?_, h.preserved.calls, h.preserved.converted⟩
  · change s.play.Placed soxr ring.cells ((s.readPos + n) / bytesPerFrame + ring.room) s.writeFrame
      s.cells
    rw [hfirst]
    exact h.placed.mono (by omega)
  · change process.Agrees ring.cells ((s.readPos + n) / bytesPerFrame) s.writeFrame s.cells
    rw [hfirst]
    exact hagrees
  · change s.produced = (s.callbacks ++ [c]).flatMap Callback.removed ++
      window s.cells ring.cells ((s.readPos + n) / bytesPerFrame)
        ((s.writePos - (s.readPos + n)) / bytesPerFrame) ++ s.play.uncommitted
    have hsplit : s.frames ring s.readPos s.held =
        c.removed ++ window s.cells ring.cells (s.readFrame + m) (s.held - m) := by
      have hsum : s.held = m + (s.held - m) := by omega
      rw [hremoved]
      unfold Output.frames
      rw [hsum, window_add, Nat.add_sub_cancel_left]
      rfl
    rw [hfirst, hrest, h.preserved.stream, hsplit, List.flatMap_append, List.flatMap_cons,
      List.flatMap_nil, List.append_nil]
    simp only [List.append_assoc]
  · exact List.forall_mem_append.2 ⟨h.preserved.callbacks, List.forall_mem_singleton.2 hsound⟩

theorem sound_flushed (nframes held : ℕ) {removed : List Frame} (hall : removed.length = held) :
    Callback.Sound ⟨true, nframes, held, removed, fillWithSilence nframes ([], [])⟩ where
  left := List.length_replicate
  right := List.length_replicate
  flushed _ := ⟨hall, rfl⟩
  given h := absurd h.symm Bool.false_ne_true
  silence h := absurd h.symm Bool.false_ne_true

theorem sound_given {requested nframes held : ℕ} {removed : List Frame}
    (hcount : removed.length + nframes = requested)
    (hsilence : nframes = 0 ∨ removed.length = held) :
    Callback.Sound ⟨false, requested, held, removed,
      fillWithSilence nframes (deinterleave removed ([], []))⟩ where
  left := by
    simp only [fillWithSilence, deinterleave, List.nil_append, List.length_append, List.length_map,
      List.length_replicate]
    exact hcount
  right := by
    simp only [fillWithSilence, deinterleave, List.nil_append, List.length_append, List.length_map,
      List.length_replicate]
    exact hcount
  flushed h := absurd h Bool.false_ne_true
  given _ := by
    dsimp only
    rw [← hcount, Nat.add_sub_cancel_left]
  silence _ hless := by
    dsimp only at hless ⊢
    omega

/-- The frames of the next part go to the ports behind those before them. -/
theorem Inv.read {requested nframes framesWritten held : ℕ} {p : Part} {v : List Part}
    {buffer : Ports} (h : s.Inv ring soxr)
    (hprocess : s.process = .reading requested nframes framesWritten (p :: v) buffer held)
    {n : ℕ} (hn : n = min nframes (p.units bytesPerFrame).len) :
    (Process.reading requested (nframes - n) (framesWritten + n) v
      (deinterleave ((p.units bytesPerFrame).read s.cells n) buffer) held).Agrees
        ring.cells s.readFrame s.writeFrame s.cells := by
  have hagrees := h.agrees
  rw [hprocess] at hagrees
  obtain ⟨hcount, hwritten, hheld, hbuffer, hparts⟩ := hagrees
  rcases hparts with hnone | hlayout
  · have hzero : n = 0 := by omega
    rw [hzero]
    refine ⟨hcount, hwritten, hheld, ?_, .inl (Nat.sub_eq_zero_of_le (by omega))⟩
    rw [hbuffer]
    simp only [Part.read, deinterleave, List.range_zero, List.map_nil, List.append_nil,
      Nat.add_zero]
  · have hlayout : Layout ring.cells (s.readFrame + framesWritten) (held - framesWritten)
        (p.units bytesPerFrame :: v.map (Part.units bytesPerFrame)) := hlayout
    obtain ⟨hpart, hless, hrest⟩ := hlayout
    refine ⟨by omega, by omega, hheld, ?_, ?_⟩
    · rw [hpart.read_eq (by omega), hbuffer, window_add]
      simp only [deinterleave, List.nil_append, List.map_append]
    · rcases Nat.le_total nframes (p.units bytesPerFrame).len with hall | hpartly
      · exact .inl (by omega)
      · rw [Nat.min_eq_right hpartly] at hn
        rw [hn, ← Nat.add_assoc, Nat.sub_add_eq]
        exact .inr hrest

theorem Inv.nextProcess (h : s.Inv ring soxr) (hstep : s.nextProcess ring = some t) :
    t.Inv ring soxr := by
  have hagrees := h.agrees
  have heq := h.writeFrame_eq
  unfold Output.nextProcess at hstep
  cases hprocess : s.process with
  | idle =>
      rw [hprocess] at hstep
      cases hstep
  | called nframes =>
      rw [hprocess] at hstep
      dsimp only at hstep
      split_ifs at hstep with hflush
      · obtain rfl := Option.some.inj hstep
        exact h.process ⟨h.pointers.space_dvd, heq.ge⟩
      · obtain rfl := Option.some.inj hstep
        exact h.process ⟨Nat.zero_add _, Nat.zero_le _, heq.ge, rfl, .inr h.layout_readVector⟩
  | discarding nframes readSpace =>
      rw [hprocess] at hstep hagrees
      obtain rfl := Option.some.inj hstep
      exact h.advance (Nat.div_mul_cancel hagrees.1).symm hagrees.2 rfl
        (sound_flushed nframes _ (length_window _ _ _ _)) trivial
  | discarded =>
      rw [hprocess] at hstep
      obtain rfl := Option.some.inj hstep
      exact { h with agrees := trivial, preserved := { h.preserved with } }
  | reading requested nframes framesWritten v buffer held =>
      rw [hprocess] at hstep hagrees
      cases v with
      | nil =>
          obtain rfl := Option.some.inj hstep
          obtain ⟨hcount, hwritten, hheld, rfl, hparts⟩ := hagrees
          have hlength : (s.frames ring s.readPos framesWritten).length = framesWritten :=
            length_window _ _ _ _
          refine h.advance rfl (by omega) rfl (sound_given ?_ ?_) trivial
          · rw [hlength]
            exact hcount
          · rw [hlength]
            exact hparts.imp_right fun hnone => by
              have hall := layout_nil_iff.1 hnone
              omega
      | cons p v =>
          obtain rfl := Option.some.inj hstep
          refine h.process (h.read hprocess ?_)
          split_ifs <;> omega

/-! ### Every step -/

theorem Inv.step {l : Label} (h : s.Inv ring soxr) (hguard : s.OnceInAPart l)
    (hstep : s.step ring soxr l = some t) : t.Inv ring soxr ∧ s.StepFree ring soxr l := by
  unfold Output.step at hstep
  cases l with
  | callPlay buf =>
      refine ⟨?_, trivial⟩
      cases hplay : s.play with
      | idle =>
          have htaken := h.idle hplay
          have hstream := h.preserved.stream
          rw [hplay] at hstep hstream
          obtain rfl := Option.some.inj hstep
          refine ⟨h.pointers, .inr h.free_writeVector, h.agrees, ?_, nofun, hstream,
            h.preserved.callbacks, h.preserved.calls, h.preserved.converted⟩
          rw [htaken]
          rfl
      | _ =>
          rw [hplay] at hstep
          cases hstep
  | play => exact ⟨h.nextPlay hstep, fun _ p v samples hplay => (h.fill hplay).1⟩
  | soxrProcess iDone frames => exact (h.resample hguard hstep).symm
  | callProcess nframes =>
      refine ⟨?_, trivial⟩
      cases hprocess : s.process with
      | idle =>
          rw [hprocess] at hstep
          obtain rfl := Option.some.inj hstep
          exact h.process trivial
      | _ =>
          rw [hprocess] at hstep
          cases hstep
  | process => exact ⟨h.nextProcess hstep, trivial⟩
  | flush =>
      obtain rfl := Option.some.inj hstep
      exact ⟨{ h with preserved := { h.preserved with } }, trivial⟩

/-- In a run of the two threads in which the frames of a part come from one pass of soxr, if soxr is
used, the frames that are produced are given to the ports, apart from those that are flushed, and
they are only written to free cells. -/
theorem preserved_of_onceInAPart (ring : Ringbuffer) (soxr : Bool) (memory : ℕ → Frame)
    {ls : List Label} (h : Along (step ring soxr) OnceInAPart (init memory) ls) :
    Throughout (step ring soxr) (Preserved ring soxr) (init memory) ls ∧
      Along (step ring soxr) (StepFree ring soxr) (init memory) ls := by
  have hrun := throughout_and_along_of_step (fun _ _ _ hs hl ht => Inv.step hs hl ht)
    (inv_init ring soxr memory) h
  exact ⟨hrun.1.mono fun _ hs => hs.preserved, hrun.2⟩

end Output

def fourFrames : Ringbuffer := ⟨5, 31, by decide⟩

/-- Three frames and then two, each of the parts in one pass, so that the second ones are in both
parts, and callbacks for all of them. -/
def onePass : List Label :=
  [.callPlay [(1, 1), (2, 2), (3, 3)], .play, .soxrProcess 3 [(1, 1), (2, 2), (3, 3)], .play, .play,
    .play, .play, .play, .callProcess 3, .process, .process, .process, .process,
    .callPlay [(4, 4), (5, 5)], .play, .soxrProcess 1 [(4, 4)], .play, .play, .play,
    .soxrProcess 1 [(5, 5)], .play, .play, .play, .callProcess 3, .process, .process, .process,
    .process]

theorem preserved_of_onceInAPart_onePass :
    Throughout (Output.step fourFrames true) (Output.Preserved fourFrames true)
        (Output.init fun _ => (0, 0)) onePass ∧
      Along (Output.step fourFrames true) (Output.StepFree fourFrames true)
        (Output.init fun _ => (0, 0)) onePass :=
  Output.preserved_of_onceInAPart fourFrames true _ (by decide +kernel)

/-- Two frames, each from a pass of its own, and a callback for both. -/
def secondPass : List Label :=
  [.callPlay [(1, 1), (2, 2)], .play, .soxrProcess 1 [(1, 1)], .play, .soxrProcess 1 [(2, 2)],
    .play, .play, .play, .play, .play, .callProcess 2, .process, .process, .process, .process]

/-- The ports are given the second frame where the first one was, and then what was in the ring. -/
theorem not_preserved_secondPass :
    ¬ (Throughout (Output.step fourFrames true) (Output.Preserved fourFrames true)
        (Output.init fun _ => (0, 0)) secondPass ∧
      Along (Output.step fourFrames true) (Output.StepFree fourFrames true)
        (Output.init fun _ => (0, 0)) secondPass) := by
  rintro ⟨h, -⟩
  obtain ⟨s, hrun, hproduced, hgiven⟩ : ∃ s,
      run (Output.step fourFrames true) (Output.init fun _ => (0, 0)) secondPass = some s ∧
        s.produced = [(1, 1), (2, 2)] ∧
          s.callbacks.flatMap Callback.removed = [(2, 2), (0, 0)] :=
    ⟨_, rfl, by decide +kernel, by decide +kernel⟩
  have hstream := (h.last hrun).stream
  rw [hproduced, hgiven] at hstream
  exact absurd hstream (by simp)

end Jack

end ShairportSync
