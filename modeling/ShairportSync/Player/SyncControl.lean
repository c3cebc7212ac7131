import ShairportSync.Numeric.Rounding
import ShairportSync.Player.SyncError
import Mathlib.Data.List.DropRight
import Mathlib.Data.List.ReduceOption
import Mathlib.Data.Rat.Cast.Order

/-!
# Keeping in sync

For each frame of which the sync error is known, the player puts in a frame of audio, takes one out
or leaves it. While the error is large it counts, and at the fourth frame in a row it
resynchronises: it drops frames, or plays a silence.

The threshold of a correction is drawn for each frame, from the tolerance up to twice the tolerance.
An error within the tolerance is never corrected, and one beyond twice the tolerance always is. So
a clock that drifts by at most a frame of audio for each frame that is played is followed without
resynchronising.
-/

namespace ShairportSync

namespace Player

open Numeric

/-! ## The code -/

/-- What of `config` and of the connection the corrections depend on. Floating-point numbers are
rational, and the results of their arithmetic are rounded. -/
structure SyncSettings where
  noSync : Bool
  tolerance : ℚ
  resyncThreshold : ℚ
  resyncRecoveryTime : ℚ
  outputRate : ℕ
  inputRate : ℕ
  outputSampleRatio : ℕ
  rounding : Rounding

namespace SyncSettings

variable (cfg : SyncSettings)

def toleranceInFrames : ℚ := cfg.rounding.round (cfg.tolerance * cfg.outputRate)

def resyncLimit : ℚ := cfg.rounding.round (cfg.resyncThreshold * cfg.outputRate)

def fillerLength : ℤ := truncate cfg.resyncLimit

def extraFramesToDrop : ℤ :=
  truncate (cfg.rounding.round (cfg.inputRate * cfg.resyncRecoveryTime))

/-- `s`, with what `r64i` returns, which is half of an unsigned number of 64 bits. The shifts to the
right are divisions by a power of two, rounded down. -/
def stuffThreshold (ranval : BitVec 64) : ℤ :=
  let s : ℤ := ((ranval >>> 1).toNat / 2 ^ 31 : ℕ)
  let s := truncate (cfg.rounding.round (cfg.rounding.round (s * cfg.tolerance) * cfg.outputRate))
  truncate (cfg.rounding.round ((s / 2 ^ 32 : ℤ) + cfg.toleranceInFrames))

end SyncSettings

/-- A frame of which the delay is known: its sync error, its timestamp, the time, the time at which
the session began, or 0, and a random number. -/
structure TimedFrame where
  syncError : ℤ
  givenTimestamp : BitVec 32
  localTimeNow : ℕ
  firstPacketTimeToPlay : ℕ
  ranval : BitVec 64

inductive SyncAction where
  /-- The silence in front of the first frame -/
  | finalAdjustment (frames : ℤ)
  /-- `do_flush` -/
  | flush (toFrame : BitVec 32)
  | longSilence (frames : ℤ)
  | play (amountToStuff : ℤ)
deriving DecidableEq

structure SyncState where
  atLeastOneFrameSeenThisSession : Bool
  syncErrorOutOfBounds : ℕ
deriving DecidableEq

def SyncState.start : SyncState := ⟨false, 0⟩

section Code

variable (cfg : SyncSettings)

def adjust (first : Bool) (syncError : ℤ) : ℤ := if first ∧ syncError < 0 then 0 else syncError

/-- The error counts. -/
def OutOfBounds (syncError : ℤ) (givenTimestamp : BitVec 32) : Prop :=
  cfg.noSync = false ∧ givenTimestamp ≠ 0 ∧ 0 < cfg.resyncThreshold ∧
    cfg.resyncLimit < cfg.rounding.round (|syncError| : ℤ)

instance (syncError : ℤ) (givenTimestamp : BitVec 32) :
    Decidable (OutOfBounds cfg syncError givenTimestamp) := inferInstanceAs (Decidable (_ ∧ _))

def amountToStuff (syncError : ℤ) (frame : TimedFrame) : ℤ :=
  let s := cfg.stuffThreshold frame.ranval
  let amount : ℤ := if 0 < syncError ∧ s < syncError then -1 else 0
  let amount : ℤ := if syncError < 0 ∧ syncError < -s then 1 else amount
  let amount : ℤ :=
    if frame.localTimeNow ≠ 0 ∧ frame.firstPacketTimeToPlay ≠ 0 ∧
        frame.firstPacketTimeToPlay ≤ frame.localTimeNow ∧
        (frame.localTimeNow - frame.firstPacketTimeToPlay) / 1000000000 < 5 then 0
    else amount
  if cfg.noSync then 0 else amount

/-- What is done when the sync is lost: nothing is played of the frame. -/
def resync (syncError : ℤ) (givenTimestamp : BitVec 32) : List SyncAction :=
  if 0 < syncError ∧ cfg.fillerLength < syncError then
    let sourceFramesToDrop := syncError.tdiv cfg.outputSampleRatio + cfg.extraFramesToDrop
    [.flush (givenTimestamp + BitVec.ofInt 32 sourceFramesToDrop)]
  else if syncError < 0 ∧ cfg.fillerLength < -syncError then
    [.longSilence
      (if cfg.fillerLength * 5 < -syncError then cfg.fillerLength * 5 else -syncError)]
  else []

/-- A frame that is about to be played, with its timing if the delay is known -/
def syncStep (s : SyncState) : Option TimedFrame → SyncState × List SyncAction
  | none => ({ s with atLeastOneFrameSeenThisSession := true }, [.play 0])
  | some frame =>
      let first := !s.atLeastOneFrameSeenThisSession
      let adjustment : List SyncAction :=
        if first ∧ frame.syncError < 0 then [.finalAdjustment (-frame.syncError)] else []
      let syncError := adjust first frame.syncError
      let outOfBounds :=
        if OutOfBounds cfg syncError frame.givenTimestamp then s.syncErrorOutOfBounds + 1 else 0
      if 3 < outOfBounds then
        (⟨true, 0⟩, adjustment ++ resync cfg syncError frame.givenTimestamp)
      else
        (⟨true, outOfBounds⟩, adjustment ++ [.play (amountToStuff cfg syncError frame)])

def syncRun (s : SyncState) (frames : List (Option TimedFrame)) : SyncState :=
  frames.foldl (fun s frame => (syncStep cfg s frame).1) s

end Code

/-! ## The threshold -/

section Threshold

variable {cfg : SyncSettings}

/-- What a setting has to be: it is not negative, and it is a number of the format. -/
structure SyncSettings.Sound (cfg : SyncSettings) : Prop where
  tolerance_nonneg : 0 ≤ cfg.tolerance
  tolerance_round : cfg.rounding.round cfg.tolerance = cfg.tolerance
  resyncThreshold_nonneg : 0 ≤ cfg.resyncThreshold

def SyncSettings.defaults : SyncSettings where
  noSync := false
  tolerance := 2 / 1000
  resyncThreshold := 50 / 1000
  resyncRecoveryTime := 1 / 10
  outputRate := 44100
  inputRate := 44100
  outputSampleRatio := 1
  rounding := .exact

theorem sound_defaults : SyncSettings.defaults.Sound :=
  ⟨by norm_num [SyncSettings.defaults], rfl, by norm_num [SyncSettings.defaults]⟩

def TimedFrame.withError (syncError : ℤ) : TimedFrame where
  syncError := syncError
  givenTimestamp := 1000
  localTimeNow := 11000000000
  firstPacketTimeToPlay := 1000000000
  ranval := 0

theorem toleranceInFrames_nonneg (hcfg : cfg.Sound) : 0 ≤ cfg.toleranceInFrames :=
  cfg.rounding.round_nonneg (mul_nonneg hcfg.tolerance_nonneg (Nat.cast_nonneg _))

theorem resyncLimit_nonneg (hcfg : cfg.Sound) : 0 ≤ cfg.resyncLimit :=
  cfg.rounding.round_nonneg (mul_nonneg hcfg.resyncThreshold_nonneg (Nat.cast_nonneg _))

theorem stuffThreshold_bounds (hcfg : cfg.Sound) (ranval : BitVec 64) :
    truncate cfg.toleranceInFrames ≤ cfg.stuffThreshold ranval ∧
      cfg.stuffThreshold ranval ≤ truncate (2 * cfg.toleranceInFrames) := by
  have htolerance := toleranceInFrames_nonneg hcfg
  obtain ⟨draw, hdraw⟩ : ∃ draw : ℤ, draw = ((ranval >>> 1).toNat / 2 ^ 31 : ℕ) := ⟨_, rfl⟩
  have hdraw0 : 0 ≤ draw := by
    rw [hdraw]
    exact Int.natCast_nonneg _
  have hdraw1 : draw ≤ 2 ^ 32 := by
    have hlt := ranval.isLt
    rw [hdraw, BitVec.toNat_ushiftRight, Nat.shiftRight_eq_div_pow]
    omega
  have hproduct0 : (0 : ℚ) ≤ draw * cfg.tolerance :=
    mul_nonneg (by exact_mod_cast hdraw0) hcfg.tolerance_nonneg
  have hproduct1 : cfg.rounding.round (draw * cfg.tolerance) ≤ 2 ^ 32 * cfg.tolerance := by
    rw [← hcfg.tolerance_round, ← cfg.rounding.round_twoPow_mul, hcfg.tolerance_round]
    refine cfg.rounding.mono (mul_le_mul_of_nonneg_right ?_ hcfg.tolerance_nonneg)
    exact_mod_cast hdraw1
  obtain ⟨scaled, hscaled⟩ : ∃ scaled, scaled = cfg.rounding.round
      (cfg.rounding.round (draw * cfg.tolerance) * cfg.outputRate) := ⟨_, rfl⟩
  have hscaled0 : 0 ≤ scaled := by
    rw [hscaled]
    exact cfg.rounding.round_nonneg
      (mul_nonneg (cfg.rounding.round_nonneg hproduct0) (Nat.cast_nonneg _))
  have hscaled1 : scaled ≤ 2 ^ 32 * cfg.toleranceInFrames := by
    rw [hscaled, SyncSettings.toleranceInFrames, ← cfg.rounding.round_twoPow_mul, ← mul_assoc]
    exact cfg.rounding.mono (mul_le_mul_of_nonneg_right hproduct1 (Nat.cast_nonneg _))
  obtain ⟨part, hpart⟩ : ∃ part : ℤ, part = truncate scaled / 2 ^ 32 := ⟨_, rfl⟩
  have hpart0 : 0 ≤ part := by
    rw [hpart]
    exact Int.ediv_nonneg (truncate_nonneg hscaled0) (by decide)
  have hpart1 : (part : ℚ) ≤ cfg.toleranceInFrames := by
    have hle : (truncate scaled : ℚ) ≤ scaled := (le_truncate hscaled0).mp le_rfl
    have hmul : part * 2 ^ 32 ≤ truncate scaled := by
      rw [hpart]
      exact Int.ediv_mul_le _ (by decide)
    have hmul' : (part : ℚ) * 2 ^ 32 ≤ truncate scaled := by exact_mod_cast hmul
    linarith
  have hthreshold : cfg.stuffThreshold ranval =
      truncate (cfg.rounding.round (part + cfg.toleranceInFrames)) := by
    rw [hpart, hscaled, hdraw]
    rfl
  have hpartQ : (0 : ℚ) ≤ part := by exact_mod_cast hpart0
  rw [hthreshold]
  refine ⟨truncate_mono htolerance ?_, truncate_mono (cfg.rounding.round_nonneg (by linarith)) ?_⟩
  · exact cfg.rounding.le_round (by rw [← SyncSettings.toleranceInFrames]; linarith)
  · rw [SyncSettings.toleranceInFrames, ← cfg.rounding.round_double]
    refine cfg.rounding.round_le ?_
    rw [cfg.rounding.round_double, ← SyncSettings.toleranceInFrames]
    linarith

/-- Five seconds of the session have passed, or it is not known how many. -/
def TimedFrame.Settled (frame : TimedFrame) : Prop :=
  ¬ (frame.localTimeNow ≠ 0 ∧ frame.firstPacketTimeToPlay ≠ 0 ∧
    frame.firstPacketTimeToPlay ≤ frame.localTimeNow ∧
    (frame.localTimeNow - frame.firstPacketTimeToPlay) / 1000000000 < 5)

theorem amountToStuff_eq (hcfg : cfg.Sound) (syncError : ℤ) (frame : TimedFrame)
    [Decidable frame.Settled] :
    amountToStuff cfg syncError frame =
      if cfg.noSync = false ∧ frame.Settled ∧ cfg.stuffThreshold frame.ranval < |syncError| then
        -syncError.sign
      else 0 := by
  have hthreshold : 0 ≤ cfg.stuffThreshold frame.ranval :=
    (truncate_nonneg (toleranceInFrames_nonneg hcfg)).trans
      (stuffThreshold_bounds hcfg frame.ranval).1
  simp only [amountToStuff]
  generalize cfg.stuffThreshold frame.ranval = threshold at hthreshold ⊢
  have hamount : (if syncError < 0 ∧ syncError < -threshold then (1 : ℤ)
      else if 0 < syncError ∧ threshold < syncError then -1 else 0) =
      if threshold < |syncError| then -syncError.sign else 0 := by
    rcases lt_trichotomy syncError 0 with hneg | rfl | hpos
    · have hiff : (syncError < 0 ∧ syncError < -threshold) ↔ threshold < |syncError| := by
        rw [abs_of_neg hneg]
        omega
      rw [if_congr hiff rfl (if_neg fun h => (h.1.trans hneg).false),
        Int.sign_eq_neg_one_of_neg hneg, neg_neg]
    · simp
    · have hiff : (0 < syncError ∧ threshold < syncError) ↔ threshold < |syncError| := by
        rw [abs_of_pos hpos]
        omega
      rw [if_neg (fun h => (h.1.trans hpos).false), if_congr hiff rfl rfl,
        Int.sign_eq_one_of_pos hpos]
  rw [hamount]
  by_cases hsettled : frame.Settled
  · rw [if_neg hsettled]
    cases cfg.noSync
    · simp [hsettled]
    · simp
  · have hearly := not_not.mp hsettled
    rw [if_pos hearly]
    simp [hsettled]

/-- An error within the tolerance is not corrected, one beyond twice the tolerance is, and a
correction is against the error. -/
theorem amountToStuff_band (hcfg : cfg.Sound) (syncError : ℤ) (frame : TimedFrame) :
    (amountToStuff cfg syncError frame ≠ 0 →
      amountToStuff cfg syncError frame = -syncError.sign ∧
        truncate cfg.toleranceInFrames < |syncError| ∧ cfg.noSync = false ∧ frame.Settled) ∧
    (truncate (2 * cfg.toleranceInFrames) < |syncError| → cfg.noSync = false → frame.Settled →
      amountToStuff cfg syncError frame = -syncError.sign) := by
  classical
  obtain ⟨hlow, hhigh⟩ := stuffThreshold_bounds hcfg frame.ranval
  rw [amountToStuff_eq hcfg]
  constructor
  · intro h
    by_cases hcond : cfg.noSync = false ∧ frame.Settled ∧
        cfg.stuffThreshold frame.ranval < |syncError|
    · rw [if_pos hcond]
      exact ⟨rfl, hlow.trans_lt hcond.2.2, hcond.1, hcond.2.1⟩
    · exact absurd (if_neg hcond) h
  · intro hlarge hsync hsettled
    exact if_pos ⟨hsync, hsettled, hhigh.trans_lt hlarge⟩

theorem amountToStuff_band_late :
    amountToStuff .defaults 200 (.withError 200) = -1 :=
  (amountToStuff_band sound_defaults 200 (.withError 200)).2 (by decide +kernel) rfl
    (by simp [TimedFrame.Settled, TimedFrame.withError])

end Threshold

/-! ## Resynchronising -/

section Resync

variable {cfg : SyncSettings}

/-- The errors that are known, with the timestamps of their frames. That of the first frame is the
one after the adjustment. -/
def knownErrors : List (Option TimedFrame) → List (ℤ × BitVec 32)
  | [] => []
  | frame :: frames =>
      (frame.toList.map fun f => (adjust true f.syncError, f.givenTimestamp)) ++
        frames.reduceOption.map fun f => (f.syncError, f.givenTimestamp)

def streak (cfg : SyncSettings) (frames : List (Option TimedFrame)) : ℕ :=
  ((knownErrors frames).rtakeWhile fun known => OutOfBounds cfg known.1 known.2).length

theorem knownErrors_concat_none (frames : List (Option TimedFrame)) :
    knownErrors (frames ++ [none]) = knownErrors frames := by
  cases frames with
  | nil => rfl
  | cons frame frames => simp [knownErrors, List.reduceOption_append]

theorem knownErrors_concat (frames : List (Option TimedFrame)) (frame : TimedFrame) :
    knownErrors (frames ++ [some frame]) =
      knownErrors frames ++
        [(adjust (frames.isEmpty) frame.syncError, frame.givenTimestamp)] := by
  cases frames with
  | nil => rfl
  | cons first frames => simp [knownErrors, List.reduceOption_append, adjust]

theorem streak_concat_none (frames : List (Option TimedFrame)) :
    streak cfg (frames ++ [none]) = streak cfg frames := by
  rw [streak, knownErrors_concat_none, streak]

theorem streak_concat (frames : List (Option TimedFrame)) (frame : TimedFrame) :
    streak cfg (frames ++ [some frame]) =
      if OutOfBounds cfg (adjust frames.isEmpty frame.syncError) frame.givenTimestamp then
        streak cfg frames + 1
      else 0 := by
  rw [streak, knownErrors_concat, List.rtakeWhile_concat]
  by_cases h : OutOfBounds cfg (adjust frames.isEmpty frame.syncError) frame.givenTimestamp
  · simp [h, streak]
  · simp [h]

theorem syncRun_concat (s : SyncState) (frames : List (Option TimedFrame))
    (frame : Option TimedFrame) :
    syncRun cfg s (frames ++ [frame]) = (syncStep cfg (syncRun cfg s frames) frame).1 := by
  rw [syncRun, List.foldl_append]
  rfl

theorem syncRun_start (cfg : SyncSettings) (frames : List (Option TimedFrame)) :
    syncRun cfg .start frames = ⟨!frames.isEmpty, streak cfg frames % 4⟩ := by
  induction frames using List.reverseRecOn with
  | nil => rfl
  | append_singleton frames frame ih =>
      have hseen : (frames ++ [frame]).isEmpty = false := by simp
      rw [syncRun_concat, ih, hseen, Bool.not_false]
      cases frame with
      | none => rw [streak_concat_none, syncStep]
      | some frame =>
          have hlt := Nat.mod_lt (streak cfg frames) (show 0 < 4 by decide)
          rw [streak_concat]
          simp only [syncStep, Bool.not_not]
          split
          · split <;> rename_i hcount <;> simp only [SyncState.mk.injEq, true_and] <;> omega
          · rfl

theorem OutOfBounds.fillerLength_lt (hcfg : cfg.Sound) {e : ℤ} {givenTimestamp : BitVec 32}
    (h : OutOfBounds cfg e givenTimestamp) : cfg.fillerLength < |e| := by
  rw [SyncSettings.fillerLength, truncate_lt (resyncLimit_nonneg hcfg)]
  by_contra hle
  exact h.2.2.2.not_ge (cfg.rounding.round_le (not_lt.mp hle))

theorem resync_eq (hcfg : cfg.Sound) {e : ℤ} {givenTimestamp : BitVec 32}
    (h : OutOfBounds cfg e givenTimestamp) :
    resync cfg e givenTimestamp =
      if 0 < e then
        [.flush (givenTimestamp +
          BitVec.ofInt 32 (e.tdiv cfg.outputSampleRatio + cfg.extraFramesToDrop))]
      else [.longSilence (min (cfg.fillerLength * 5) (-e))] := by
  have hlarge := h.fillerLength_lt hcfg
  have hfiller : 0 ≤ cfg.fillerLength := truncate_nonneg (resyncLimit_nonneg hcfg)
  rw [resync]
  by_cases hpos : 0 < e
  · rw [abs_of_pos hpos] at hlarge
    rw [if_pos ⟨hpos, hlarge⟩, if_pos hpos]
  · rw [abs_of_nonpos (not_lt.mp hpos)] at hlarge
    have hmin : (if cfg.fillerLength * 5 < -e then cfg.fillerLength * 5 else -e) =
        min (cfg.fillerLength * 5) (-e) := by
      split <;> omega
    rw [if_neg fun h => hpos h.1, if_pos ⟨by omega, hlarge⟩, if_neg hpos, hmin]

/-- Whatever the player has gone through: it resynchronises at a frame exactly if the errors in a
row that have counted, with that of the frame, are a multiple of four. Then it plays nothing of the
frame, but drops frames if it is late and plays a silence if it is early. -/
theorem syncStep_resync (hcfg : cfg.Sound) (frames : List (Option TimedFrame))
    (frame : TimedFrame) :
    (syncStep cfg (syncRun cfg .start frames) (some frame)).2 =
      (if frames = [] ∧ frame.syncError < 0 then [.finalAdjustment (-frame.syncError)] else []) ++
      (if 0 < streak cfg (frames ++ [some frame]) ∧ 4 ∣ streak cfg (frames ++ [some frame]) then
        if 0 < adjust frames.isEmpty frame.syncError then
          [.flush (frame.givenTimestamp + BitVec.ofInt 32
            ((adjust frames.isEmpty frame.syncError).tdiv cfg.outputSampleRatio +
              cfg.extraFramesToDrop))]
        else
          [.longSilence (min (cfg.fillerLength * 5)
            (-adjust frames.isEmpty frame.syncError))]
      else [.play (amountToStuff cfg (adjust frames.isEmpty frame.syncError) frame)]) := by
  have hlt := Nat.mod_lt (streak cfg frames) (show 0 < 4 by decide)
  rw [syncRun_start, streak_concat]
  simp only [syncStep, Bool.not_not, List.isEmpty_iff]
  generalize adjust frames.isEmpty frame.syncError = e
  generalize (if frames = [] ∧ frame.syncError < 0 then
    [SyncAction.finalAdjustment (-frame.syncError)] else []) = adjustment
  by_cases hout : OutOfBounds cfg e frame.givenTimestamp
  · rw [if_pos hout, if_pos hout]
    by_cases hfour : 0 < streak cfg frames + 1 ∧ 4 ∣ streak cfg frames + 1
    · rw [if_pos (show 3 < streak cfg frames % 4 + 1 by omega), if_pos hfour, resync_eq hcfg hout]
    · rw [if_neg (show ¬ 3 < streak cfg frames % 4 + 1 by omega), if_neg hfour]
  · rw [if_neg hout, if_neg hout, if_neg (by decide), if_neg (by simp)]

/-- The fourth frame in a row that is a second late -/
theorem syncStep_resync_fourth :
    (syncStep .defaults (syncRun .defaults .start (List.replicate 3 (some (.withError 44100))))
      (some (.withError 44100))).2 = [.flush 49510] := by
  rw [syncStep_resync sound_defaults]
  decide +kernel

theorem toNat_add_ofInt_modEq (a : BitVec 32) (n : ℤ) :
    ((a + BitVec.ofInt 32 n).toNat : ℤ) ≡ a.toNat + n [ZMOD 2 ^ 32] := by
  have hn : ((BitVec.ofInt 32 n).toNat : ℤ) = n % 2 ^ 32 := by
    rw [BitVec.toNat_ofInt]
    exact Int.toNat_of_nonneg (Int.emod_nonneg _ (by decide))
  rw [BitVec.toNat_add]
  push_cast
  rw [hn]
  exact (Int.mod_modEq _ _).trans ((Int.ModEq.refl _).add (Int.mod_modEq _ _))

/-- What the error is congruent to when the frame has moved on by it, in frames of the input, and by
some frames more -/
theorem dropped_modEq {ratio : ℕ} {error shouldBe given delay extra dropped : ℤ}
    (herror : error ≡ shouldBe * ratio - given * ratio + delay [ZMOD (ratio * 2 ^ 32 : ℕ)])
    (hdrop : dropped ≡ given + (error / ratio + extra) [ZMOD 2 ^ 32]) :
    shouldBe * ratio - dropped * ratio + delay ≡ error % ratio - extra * ratio
      [ZMOD (ratio * 2 ^ 32 : ℕ)] := by
  have hproduct : dropped * ratio ≡ (given + (error / ratio + extra)) * ratio
      [ZMOD (ratio * 2 ^ 32 : ℕ)] := by
    rw [cycle_cast, mul_comm (ratio : ℤ) (2 ^ 32)]
    exact hdrop.mul_right'
  have hdivision := Int.emod_add_mul_ediv error ratio
  have hrest : error % ratio - extra * ratio = error - (error / ratio + extra) * ratio := by
    rw [add_mul, mul_comm (error / (ratio : ℤ))]
    omega
  have hsame : shouldBe * ratio - (given + (error / ratio + extra)) * ratio + delay =
      shouldBe * ratio - given * ratio + delay - (error / ratio + extra) * ratio := by
    rw [add_mul]
    omega
  rw [hrest]
  refine (((Int.ModEq.refl _).sub hproduct).add_right _).trans ?_
  rw [hsame]
  exact herror.symm.sub_right _

theorem toInt_syncError_dropped {ratio : ℕ} (hratio : ratio ∈ [1, 2, 4, 8])
    (shouldBe given : BitVec 32) (lDelay : BitVec 64) {extra : ℤ} (hextra0 : 0 ≤ extra)
    (hextra1 : extra ≤ 2 ^ 31) (hlate : 0 ≤ (syncError ratio shouldBe given lDelay).toInt) :
    (syncError ratio shouldBe (given + BitVec.ofInt 32
        ((syncError ratio shouldBe given lDelay).toInt.tdiv ratio + extra)) lDelay).toInt =
      (syncError ratio shouldBe given lDelay).toInt % ratio - extra * ratio := by
  have hpos : (0 : ℤ) < ratio ∧ (ratio : ℤ) ≤ 8 := by
    simp only [List.mem_cons, List.not_mem_nil, or_false] at hratio
    omega
  have herror := toInt_syncError_modEq hratio shouldBe given lDelay
  rw [toInt_syncError hratio, Int.tdiv_eq_ediv_of_nonneg hlate]
  generalize (syncError ratio shouldBe given lDelay).toInt = error at herror ⊢
  rw [bmod_congr (dropped_modEq herror (toNat_add_ofInt_modEq given (error / ratio + extra)))]
  have hmod := Int.emod_nonneg error hpos.1.ne'
  have hmodLt := Int.emod_lt_of_pos error hpos.1
  have hextra : 0 ≤ extra * ratio ∧ extra * ratio ≤ 2 ^ 31 * ratio :=
    ⟨mul_nonneg hextra0 hpos.1.le, mul_le_mul_of_nonneg_right hextra1 hpos.1.le⟩
  exact Int.bmod_eq_of_le_mul_two (by rw [cycle_cast]; omega) (by rw [cycle_cast]; omega)

/-- The frame that the player goes on with is early by the frames that are dropped in excess. -/
theorem toInt_syncError_flush {cfg : SyncSettings} (hratio : cfg.outputSampleRatio ∈ [1, 2, 4, 8])
    (hextra0 : 0 ≤ cfg.extraFramesToDrop) (hextra1 : cfg.extraFramesToDrop ≤ 2 ^ 31)
    {shouldBe given toFrame : BitVec 32} {lDelay : BitVec 64}
    (hflush : .flush toFrame ∈
      resync cfg (syncError cfg.outputSampleRatio shouldBe given lDelay).toInt given) :
    (syncError cfg.outputSampleRatio shouldBe toFrame lDelay).toInt =
      (syncError cfg.outputSampleRatio shouldBe given lDelay).toInt % cfg.outputSampleRatio -
        cfg.extraFramesToDrop * cfg.outputSampleRatio := by
  have hdropped := toInt_syncError_dropped hratio shouldBe given lDelay hextra0 hextra1
  generalize (syncError cfg.outputSampleRatio shouldBe given lDelay).toInt = error
    at hflush hdropped ⊢
  rw [resync] at hflush
  by_cases hlate : 0 < error ∧ cfg.fillerLength < error
  · rw [if_pos hlate] at hflush
    obtain rfl := SyncAction.flush.inj (List.mem_singleton.mp hflush)
    exact hdropped hlate.1.le
  · rw [if_neg hlate] at hflush
    split at hflush
    · exact absurd (List.mem_singleton.mp hflush) SyncAction.noConfusion
    · exact absurd hflush List.not_mem_nil

/-- An output at twice the rate of the input -/
def twiceAsFast : SyncSettings :=
  { SyncSettings.defaults with outputRate := 88200, outputSampleRatio := 2 }

/-- A frame that is 20000 frames of the output late -/
theorem toInt_syncError_flush_late :
    (syncError 2 10000 14410 0).toInt =
      (syncError 2 10000 0 0).toInt % (2 : ℕ) - twiceAsFast.extraFramesToDrop * (2 : ℕ) :=
  @toInt_syncError_flush twiceAsFast (by decide) (by decide +kernel) (by decide +kernel) 10000 0
    14410 0 (by decide +kernel)

end Resync

/-! ## Following a clock -/

section Following

variable {cfg : SyncSettings}

/-- The frames of audio that are put in -/
def stuffed (actions : List SyncAction) : ℤ :=
  (actions.map fun action => match action with
    | .play amountToStuff => amountToStuff
    | _ => 0).sum

/-- The error of each frame is that of the frame before it and what has been put in, but for a drift
of at most one. -/
def Follows (cfg : SyncSettings) : SyncState → List TimedFrame → Prop
  | s, frame :: next :: frames =>
      |next.syncError - (frame.syncError + stuffed (syncStep cfg s (some frame)).2)| ≤ 1 ∧
        Follows cfg (syncStep cfg s (some frame)).1 (next :: frames)
  | _, _ => True

def syncActions (cfg : SyncSettings) : SyncState → List TimedFrame → List (List SyncAction)
  | _, [] => []
  | s, frame :: frames =>
      (syncStep cfg s (some frame)).2 ::
        syncActions cfg (syncStep cfg s (some frame)).1 frames

theorem abs_sub_sign {e : ℤ} (he : e ≠ 0) : |e + -e.sign| = |e| - 1 := by
  rcases lt_or_gt_of_ne he with hneg | hpos
  · rw [Int.sign_eq_neg_one_of_neg hneg, abs_of_neg hneg, abs_of_nonpos (by omega)]
    omega
  · rw [Int.sign_eq_one_of_pos hpos, abs_of_pos hpos, abs_of_nonneg (by omega)]
    omega

/-- A correction brings an error that is large a frame nearer to zero, and none further away. -/
theorem abs_add_amountToStuff (hcfg : cfg.Sound) (hsync : cfg.noSync = false)
    {frame : TimedFrame} (hsettled : frame.Settled) :
    |frame.syncError + amountToStuff cfg frame.syncError frame| + 1 ≤
      max |frame.syncError| (truncate (2 * cfg.toleranceInFrames) + 1) := by
  classical
  have htolerance := truncate_nonneg (toleranceInFrames_nonneg hcfg)
  obtain ⟨hlow, hhigh⟩ := stuffThreshold_bounds hcfg frame.ranval
  rw [amountToStuff_eq hcfg]
  by_cases hbeyond : cfg.stuffThreshold frame.ranval < |frame.syncError|
  · have hne : frame.syncError ≠ 0 := abs_pos.mp ((htolerance.trans hlow).trans_lt hbeyond)
    rw [if_pos ⟨hsync, hsettled, hbeyond⟩, abs_sub_sign hne]
    omega
  · rw [if_neg fun h => hbeyond h.2.2, add_zero]
    omega

theorem syncStep_within (hcfg : cfg.Sound) {s : SyncState}
    (hseen : s.atLeastOneFrameSeenThisSession = true) {frame : TimedFrame}
    (hwithin : |frame.syncError| ≤ cfg.fillerLength) :
    syncStep cfg s (some frame) =
      (⟨true, 0⟩, [.play (amountToStuff cfg frame.syncError frame)]) := by
  have hin : ¬ OutOfBounds cfg frame.syncError frame.givenTimestamp :=
    fun h => (h.fillerLength_lt hcfg).not_ge hwithin
  simp [syncStep, hseen, adjust, hin]

/-- A clock that drifts by at most one frame of audio for each frame that is played is followed: the
errors stay as small as they were, or within twice the tolerance and one frame, and every frame is
played. -/
theorem follows_bounded (hcfg : cfg.Sound) (hsync : cfg.noSync = false) {s : SyncState}
    (hseen : s.atLeastOneFrameSeenThisSession = true) {frames : List TimedFrame}
    (hsettled : ∀ frame ∈ frames, frame.Settled) (hfollows : Follows cfg s frames) {bound : ℤ}
    (hbound : truncate (2 * cfg.toleranceInFrames) < bound) (hlimit : bound ≤ cfg.fillerLength)
    (hfirst : ∀ frame ∈ frames.head?, |frame.syncError| ≤ bound) :
    (∀ frame ∈ frames, |frame.syncError| ≤ bound) ∧
      ∀ actions ∈ syncActions cfg s frames, ∃ amount, actions = [.play amount] := by
  induction frames generalizing s with
  | nil => exact ⟨List.forall_mem_nil _, List.forall_mem_nil _⟩
  | cons frame frames ih =>
      have hframe := hfirst frame rfl
      have hstep := syncStep_within hcfg hseen (hframe.trans hlimit)
      have hnearer := abs_add_amountToStuff hcfg hsync (hsettled frame List.mem_cons_self)
      have hrest : (∀ next ∈ frames, |next.syncError| ≤ bound) ∧
          ∀ actions ∈ syncActions cfg ⟨true, 0⟩ frames, ∃ amount, actions = [.play amount] := by
        cases frames with
        | nil => exact ⟨List.forall_mem_nil _, List.forall_mem_nil _⟩
        | cons next frames =>
            rw [Follows, hstep] at hfollows
            refine ih rfl (fun f hf => hsettled f (List.mem_cons_of_mem _ hf)) hfollows.2
              fun f hf => ?_
            obtain rfl : next = f := Option.some.inj hf
            have hstuffed : stuffed [.play (amountToStuff cfg frame.syncError frame)] =
                amountToStuff cfg frame.syncError frame := List.sum_singleton
            have hdrift := hfollows.1
            rw [hstuffed] at hdrift
            have htriangle := abs_sub_abs_le_abs_sub next.syncError
              (frame.syncError + amountToStuff cfg frame.syncError frame)
            omega
      rw [syncActions, hstep]
      exact ⟨List.forall_mem_cons.mpr ⟨hframe, hrest.1⟩,
        List.forall_mem_cons.mpr ⟨⟨_, rfl⟩, hrest.2⟩⟩

/-- The first of three frames within the tolerance, while the clock drifts -/
theorem follows_bounded_three :
    ∃ amount, (syncStep .defaults ⟨true, 0⟩ (some (.withError 0))).2 = [.play amount] := by
  refine (@follows_bounded .defaults sound_defaults rfl ⟨true, 0⟩ rfl
    [.withError 0, .withError 1, .withError 2] ?_ ?_ 177 (by decide +kernel) (by decide +kernel)
    ?_).2 _ List.mem_cons_self
  · simp [TimedFrame.Settled, TimedFrame.withError]
  · exact ⟨by decide +kernel, by decide +kernel, trivial⟩
  · simp [TimedFrame.withError]

end Following

end Player

end ShairportSync
