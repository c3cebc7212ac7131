import Mathlib.Algebra.Order.Ring.Int
import ShairportSync.Transition.Run

/-!
# The delay of the sndio output

sndio reports frames that have been played by callbacks, and `delay` adds an estimate of those that
have been played since the last one. `start`, `flush` and `stop` begin to count anew, but only
`start` forgets the time of the last callback. So after a flush or a stop, and until there is a
callback, the estimate is of the frames since a callback of an earlier run. The delay is that of the
current run if there has been a callback in it, or the estimate makes no difference.
-/

namespace ShairportSync

namespace Sndio

open Transition

/-! ## The functions -/

/-- What `init` finds out: the width of `size_t` and `long`, `framesize`, and `par.rate`. -/
structure Settings where
  width : ℕ
  framesize : ℕ
  rate : BitVec 32
  framesize_pos : 0 < framesize

/-- The variables of the output, and what has happened since the last `start`, `flush` or `stop`. -/
structure Output where
  played : ℕ
  written : ℕ
  timeOfLastOnmoveCb : BitVec 64
  atLeastOneOnmoveCbSeen : Bool
  /-- How many bytes sndio has accepted. -/
  accepted : ℕ
  /-- How many frames the callbacks have reported. -/
  reported : ℤ
  /-- There has been a callback. -/
  received : Bool
deriving DecidableEq

inductive Label where
  | start
  | play (frames : ℤ) (accepted : ℕ)
  | flush
  | stop
  | onmoveCb (now : BitVec 64) (delta : ℤ)
  | delay (now : BitVec 64)
deriving DecidableEq

namespace Output

def init : Output where
  played := 0
  written := 0
  timeOfLastOnmoveCb := 0
  atLeastOneOnmoveCbSeen := false
  accepted := 0
  reported := 0
  received := false

/-- `written = played = 0` -/
def newRun (s : Output) : Output :=
  { s with
    played := 0
    written := 0
    accepted := 0
    reported := 0
    received := false }

def start (s : Output) : Output :=
  { s.newRun with
    timeOfLastOnmoveCb := 0
    atLeastOneOnmoveCbSeen := false }

def flush (s : Output) : Output := s.newRun

def stop (s : Output) : Output := s.newRun

/-- `sio_write` accepts so many bytes. -/
def play (c : Settings) (frames : ℤ) (accepted : ℕ) (s : Output) : Output :=
  if 0 < frames then
    { s with
      written := (s.written + accepted) % 2 ^ c.width
      accepted := s.accepted + accepted }
  else s

def onmoveCb (c : Settings) (now : BitVec 64) (delta : ℤ) (s : Output) : Output :=
  { s with
    timeOfLastOnmoveCb := now
    atLeastOneOnmoveCbSeen := true
    played := ((s.played + delta) % (2 ^ c.width : ℕ)).toNat
    reported := s.reported + delta
    received := true }

def frameDifference (c : Settings) (now : BitVec 64) (s : Output) : ℕ :=
  let timeDifference := now - s.timeOfLastOnmoveCb
  (timeDifference * c.rate.setWidth 64 / 1000000000).toNat % 2 ^ c.width

/-- "sanity check -- total estimate can not exceed frames written" -/
def exceedsWritten (c : Settings) (frames : ℕ) (s : Output) : Prop :=
  (frames + s.played) % 2 ^ c.width > s.written / c.framesize

instance (c : Settings) (frames : ℕ) (s : Output) : Decidable (s.exceedsWritten c frames) :=
  inferInstanceAs (Decidable (_ > _))

def estimatedExtraFramesOutput (c : Settings) (now : BitVec 64) (s : Output) : ℕ :=
  if s.atLeastOneOnmoveCbSeen then
    if s.exceedsWritten c (s.frameDifference c now) then 0 else s.frameDifference c now
  else 0

def getDelay (c : Settings) (now : BitVec 64) (s : Output) : ℤ :=
  let output := (s.played + s.estimatedExtraFramesOutput c now) % 2 ^ c.width
  ((s.written / c.framesize : ℕ) - (output : ℤ)).bmod (2 ^ c.width)

def step (c : Settings) (s : Output) : Label → Option Output
  | .start => some s.start
  | .play frames accepted => some (s.play c frames accepted)
  | .flush => some s.flush
  | .stop => some s.stop
  | .onmoveCb now delta => some (s.onmoveCb c now delta)
  | .delay _ => some s

/-! ## The delay of the current run -/

/-- The callbacks since the last `start`, `flush` or `stop` report no more frames than sndio has
accepted since then. -/
def Reported (c : Settings) (s : Output) : Label → Prop
  | .onmoveCb _ delta =>
      0 ≤ s.reported + delta ∧ s.reported + delta ≤ (s.accepted / c.framesize : ℕ)
  | _ => True

/-- The bytes that are accepted since then can be counted in a `size_t`, and the frames in a
`long`. -/
def Counted (c : Settings) (s : Output) : Label → Prop
  | .play frames accepted =>
      0 < frames → s.accepted + accepted < 2 ^ c.width ∧
        2 * ((s.accepted + accepted) / c.framesize) < 2 ^ c.width
  | _ => True

/-- The delay is one of the frames that have been written, and nothing is subtracted for frames
since a callback, if there has been none. -/
def DelayOfRun (c : Settings) (s : Output) : Label → Prop
  | .delay now =>
      0 ≤ s.getDelay c now ∧ s.getDelay c now ≤ (s.written / c.framesize : ℕ) ∧
        (s.received = false → s.getDelay c now = (s.written / c.framesize : ℕ) - (s.played : ℤ))
  | _ => True

/-- There has been a callback in the current run, or none since the last `start`, or it is less than
a frame since then, or more frames than can have been played. -/
def NotStale (c : Settings) (s : Output) : Label → Prop
  | .delay now =>
      s.received = true ∨ s.atLeastOneOnmoveCbSeen = false ∨ s.frameDifference c now = 0 ∨
        s.exceedsWritten c (s.frameDifference c now)
  | _ => True

instance (c : Settings) (s : Output) : DecidablePred (s.Reported c)
  | .start => isTrue trivial
  | .play _ _ => isTrue trivial
  | .flush => isTrue trivial
  | .stop => isTrue trivial
  | .onmoveCb _ _ => inferInstanceAs (Decidable (_ ∧ _))
  | .delay _ => isTrue trivial

instance (c : Settings) (s : Output) : DecidablePred (s.Counted c)
  | .start => isTrue trivial
  | .play _ _ => inferInstanceAs (Decidable (_ → _))
  | .flush => isTrue trivial
  | .stop => isTrue trivial
  | .onmoveCb _ _ => isTrue trivial
  | .delay _ => isTrue trivial

instance (c : Settings) (s : Output) : DecidablePred (s.DelayOfRun c)
  | .start => isTrue trivial
  | .play _ _ => isTrue trivial
  | .flush => isTrue trivial
  | .stop => isTrue trivial
  | .onmoveCb _ _ => isTrue trivial
  | .delay _ => inferInstanceAs (Decidable (_ ∧ _ ∧ (_ → _)))

instance (c : Settings) (s : Output) : DecidablePred (s.NotStale c)
  | .start => isTrue trivial
  | .play _ _ => isTrue trivial
  | .flush => isTrue trivial
  | .stop => isTrue trivial
  | .onmoveCb _ _ => isTrue trivial
  | .delay _ => inferInstanceAs (Decidable (_ ∨ _ ∨ _ ∨ _))

/-! ## The invariant -/

/-- The variables count what has happened in the current run. -/
structure Inv (c : Settings) (s : Output) : Prop where
  written_eq : s.written = s.accepted
  played_eq : (s.played : ℤ) = s.reported
  played_le : s.played ≤ s.accepted / c.framesize
  accepted_lt : s.accepted < 2 ^ c.width
  frames_lt : 2 * (s.accepted / c.framesize) < 2 ^ c.width

variable {c : Settings} {s t : Output} {now : BitVec 64}

theorem Inv.newRun (c : Settings) (s : Output) : s.newRun.Inv c where
  written_eq := rfl
  played_eq := rfl
  played_le := Nat.zero_le _
  accepted_lt := Nat.two_pow_pos _
  frames_lt := by
    change 2 * (0 / c.framesize) < _
    rw [Nat.zero_div]
    exact Nat.two_pow_pos _

theorem inv_init (c : Settings) : init.Inv c := Inv.newRun c init

theorem Inv.play {frames : ℤ} {accepted : ℕ} (h : s.Inv c)
    (hcounted : s.Counted c (.play frames accepted)) : (s.play c frames accepted).Inv c := by
  unfold Output.play
  split_ifs with hframes
  · obtain ⟨hbytes, hlong⟩ := hcounted hframes
    refine ⟨?_, h.played_eq, ?_, hbytes, hlong⟩
    · change (s.written + accepted) % _ = _
      rw [h.written_eq, Nat.mod_eq_of_lt hbytes]
    · exact h.played_le.trans (Nat.div_le_div_right (Nat.le_add_right _ _))
  · exact h

theorem Inv.onmoveCb {delta : ℤ} (h : s.Inv c) (hreported : s.Reported c (.onmoveCb now delta)) :
    (s.onmoveCb c now delta).Inv c := by
  obtain ⟨hnonneg, hle⟩ := hreported
  have hlong := h.frames_lt
  have hsum : ((s.played + delta) % (2 ^ c.width : ℕ)).toNat = (s.reported + delta).toNat := by
    rw [h.played_eq, Int.emod_eq_of_lt hnonneg (by omega)]
  refine ⟨h.written_eq, ?_, ?_, h.accepted_lt, hlong⟩
  · change ((((s.played + delta) % (2 ^ c.width : ℕ)).toNat : ℕ) : ℤ) = s.reported + delta
    rw [hsum, Int.toNat_of_nonneg hnonneg]
  · change ((s.played + delta) % (2 ^ c.width : ℕ)).toNat ≤ _
    rw [hsum]
    exact Int.toNat_le.2 hle

theorem Inv.step {l : Label} (h : s.Inv c) (hguard : s.Reported c l ∧ s.Counted c l)
    (hstep : s.step c l = some t) : t.Inv c := by
  unfold Output.step at hstep
  cases l with
  | start =>
      obtain rfl := Option.some.inj hstep
      exact { Inv.newRun c s with }
  | play frames accepted =>
      obtain rfl := Option.some.inj hstep
      exact h.play hguard.2
  | flush =>
      obtain rfl := Option.some.inj hstep
      exact Inv.newRun c s
  | stop =>
      obtain rfl := Option.some.inj hstep
      exact Inv.newRun c s
  | onmoveCb now delta =>
      obtain rfl := Option.some.inj hstep
      exact h.onmoveCb hguard.1
  | delay now =>
      obtain rfl := Option.some.inj hstep
      exact h

/-! ### One delay -/

theorem Inv.output_le (h : s.Inv c) (now : BitVec 64) :
    (s.played + s.estimatedExtraFramesOutput c now) % 2 ^ c.width ≤ s.written / c.framesize := by
  have hplayed := h.played_le
  have hlong := h.frames_lt
  rw [← h.written_eq] at hplayed hlong
  have hnone : (s.played + 0) % 2 ^ c.width ≤ s.written / c.framesize := by
    rw [Nat.add_zero, Nat.mod_eq_of_lt (by omega)]
    exact hplayed
  unfold estimatedExtraFramesOutput
  split_ifs with hseen hexceeds
  · exact hnone
  · rw [Nat.add_comm]
    exact Nat.le_of_not_lt hexceeds
  · exact hnone

theorem Inv.getDelay_eq (h : s.Inv c) :
    s.getDelay c now = (s.written / c.framesize : ℕ) -
      ((s.played + s.estimatedExtraFramesOutput c now) % 2 ^ c.width : ℕ) := by
  have houtput := h.output_le now
  have hlong := h.frames_lt
  rw [← h.written_eq] at hlong
  exact Int.bmod_eq_of_le_mul_two (by omega) (by omega)

theorem add_mod_eq_left_iff {m n k : ℕ} (hm : m < k) (hn : n < k) : (m + n) % k = m ↔ n = 0 := by
  rcases Nat.lt_or_ge (m + n) k with hless | hge
  · rw [Nat.mod_eq_of_lt hless]
    omega
  · rw [Nat.mod_eq_sub_mod hge, Nat.mod_eq_of_lt (by omega)]
    omega

theorem estimatedExtraFramesOutput_eq_zero_iff :
    s.estimatedExtraFramesOutput c now = 0 ↔
      s.atLeastOneOnmoveCbSeen = false ∨ s.frameDifference c now = 0 ∨
        s.exceedsWritten c (s.frameDifference c now) := by
  unfold estimatedExtraFramesOutput
  split_ifs with hseen hexceeds
  · exact iff_of_true rfl (.inr (.inr hexceeds))
  · rw [hseen]
    simp only [Bool.true_eq_false, false_or, hexceeds, or_false]
  · exact iff_of_true rfl (.inl (Bool.not_eq_true _ ▸ hseen))

theorem estimatedExtraFramesOutput_lt :
    s.estimatedExtraFramesOutput c now < 2 ^ c.width := by
  have hpos : 0 < 2 ^ c.width := Nat.two_pow_pos _
  unfold estimatedExtraFramesOutput
  split_ifs
  · exact hpos
  · exact Nat.mod_lt _ hpos
  · exact hpos

theorem Inv.delayOfRun_iff (h : s.Inv c) (l : Label) : s.DelayOfRun c l ↔ s.NotStale c l := by
  cases l with
  | delay now =>
      have houtput := h.output_le now
      have hplayed := h.played_le
      have hlong := h.frames_lt
      rw [← h.written_eq] at hplayed hlong
      have hzero : (s.played + s.estimatedExtraFramesOutput c now) % 2 ^ c.width = s.played ↔
          s.estimatedExtraFramesOutput c now = 0 :=
        add_mod_eq_left_iff (by omega) estimatedExtraFramesOutput_lt
      rw [estimatedExtraFramesOutput_eq_zero_iff] at hzero
      unfold DelayOfRun NotStale
      dsimp only
      rw [h.getDelay_eq, ← hzero]
      cases hreceived : s.received with
      | false =>
          simp only [Bool.false_eq_true, false_or, forall_const]
          omega
      | true =>
          simp only [true_or, Bool.true_eq_false, false_implies, and_true, iff_true]
          omega
  | _ => exact Iff.rfl

/-! ## Runs -/

/-- In a run whose callbacks report no more than has been written, and in which that can be counted,
every delay is of the current run if and only if no estimate is used that is of an earlier one. -/
theorem delayOfRun_iff_notStale (c : Settings) {ls : List Label}
    (hreported : Along (step c) (Reported c) init ls)
    (hcounted : Along (step c) (Counted c) init ls) :
    Along (step c) (DelayOfRun c) init ls ↔ Along (step c) (NotStale c) init ls := by
  have hguard := hreported.and hcounted
  constructor
  · intro h
    exact along_of_step (fun _ _ _ hs hl ht => Inv.step hs hl.1 ht)
      (fun s l hs hl => (Inv.delayOfRun_iff hs l).1 hl.2) (inv_init c) (hguard.and h)
  · intro h
    exact along_of_step (fun _ _ _ hs hl ht => Inv.step hs hl.1 ht)
      (fun s l hs hl => (Inv.delayOfRun_iff hs l).2 hl.2) (inv_init c) (hguard.and h)

end Output

/-- 16 bits and two channels at 44100 frames a second. -/
def cdSettings : Settings := ⟨64, 4, 44100, by decide⟩

def twoSeconds : List Label :=
  [.start, .play 44100 176400, .onmoveCb 1000000000 0, .delay 1250000000, .flush, .delay 1250000000,
    .play 44100 176400, .onmoveCb 1300000000 441, .delay 1500000000, .stop]

theorem delayOfRun_iff_notStale_twoSeconds :
    Along (Output.step cdSettings) (Output.DelayOfRun cdSettings) Output.init twoSeconds :=
  (Output.delayOfRun_iff_notStale cdSettings (by decide +kernel) (by decide +kernel)).2
    (by decide +kernel)

/-- Half a second after the last callback, all of a second that has been written since a flush is to
be played. The answer is half a second. -/
theorem not_delayOfRun_flushed :
    Along (Output.step cdSettings) (Output.Reported cdSettings) Output.init
        [.start, .play 44100 176400, .onmoveCb 1000000000 0, .flush, .play 44100 176400,
          .delay 1500000000] ∧
      ¬ Along (Output.step cdSettings) (Output.DelayOfRun cdSettings) Output.init
        [.start, .play 44100 176400, .onmoveCb 1000000000 0, .flush, .play 44100 176400,
          .delay 1500000000] := by
  decide +kernel

end Sndio

end ShairportSync
