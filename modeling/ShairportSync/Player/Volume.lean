import Mathlib.Analysis.SpecialFunctions.Pow.Real
import Mathlib.Data.Rat.Floor
import ShairportSync.Numeric.Rounding
import ShairportSync.Numeric.Transfer
import ShairportSync.Player.Basic

/-!
# Setting the volume

`player_volume_without_notification` works out limits for the hardware and the software mixer from
the range of the hardware and the settings, brings the AirPlay volume to a level in these limits by
the volume control profile, and divides it between the two mixers. Levels are in hundredths of a dB.
The arithmetic here is exact.

In each mode the level is the sum of what the two mixers are given, less the bottom of their ranges,
and neither is ever outside its limits or steps back when the volume goes up.
-/

namespace ShairportSync

namespace Player

open Numeric

/-! ## Settings -/

inductive VolumeControlProfile where
  | standard
  | flat
deriving DecidableEq

inductive VolumeMode where
  | swOnly
  | hwOnly
  | both
deriving DecidableEq

structure AudioParameters where
  minimumVolumeDb : ℤ
  maximumVolumeDb : ℤ
  le : minimumVolumeDb ≤ maximumVolumeDb

/-- The settings of `volume_range_db` that there can be. Zero is the one that is not configured. -/
def VolumeRangeDb : Type := { range : ℕ // range = 0 ∨ 30 ≤ range ∧ range ≤ 150 }

/-- `parse_options` for `general.volume_range_db`. It dies of the settings it does not accept. -/
def parseVolumeRangeDb (value : ℤ) : Option VolumeRangeDb :=
  if h : value < 30 ∨ 150 < value then none else some ⟨value.toNat, by omega⟩

theorem parseVolumeRangeDb_eq_some_iff {value : ℤ} {volumeRangeDb : VolumeRangeDb} :
    parseVolumeRangeDb value = some volumeRangeDb ↔
      volumeRangeDb.val ≠ 0 ∧ (volumeRangeDb.val : ℤ) = value := by
  obtain ⟨range, hrange⟩ := volumeRangeDb
  change _ ↔ range ≠ 0 ∧ (range : ℤ) = value
  by_cases h : value < 30 ∨ 150 < value
  · rw [parseVolumeRangeDb, dif_pos h]
    refine iff_of_false nofun ?_
    omega
  · rw [parseVolumeRangeDb, dif_neg h]
    refine Option.some_inj.trans (Subtype.ext_iff.trans ?_)
    change value.toNat = range ↔ _
    omega

/-- What `player_volume_without_notification` goes by. The maximum is as it is configured, a
`double`, and there is one if `volume_max_db_set` is. -/
structure VolumeConfig where
  parameters : Option AudioParameters
  hasVolume : Bool
  mutes : Bool
  configuredMaxDb : Option ℚ
  volumeRangeDb : VolumeRangeDb
  ignoreVolumeControl : Bool
  volumeControlProfile : VolumeControlProfile
  volumeRangeHwPriority : Bool

/-- `volume_max_db`, which is an `int` -/
def VolumeConfig.volumeMaxDb (c : VolumeConfig) : Option ℤ := c.configuredMaxDb.map truncate

/-! ## Limits -/

structure VolumeLimits where
  mode : VolumeMode
  hwMaxDb : ℤ
  hwMinDb : ℤ
  swMaxDb : ℤ
  swMinDb : ℤ
  warnings : List String

def maximumOutside : String :=
  "The maximum output level is outside the range of the hardware mixer -- ignored"

def rangeTooLarge : String := "The range requested is too large to accommodate -- ignored."

def VolumeLimits.hardwareMaximum (volumeMaxDb : Option ℤ) (range : ℕ) (l : VolumeLimits) :
    VolumeLimits :=
  match volumeMaxDb with
  | none => l
  | some v =>
      if v * 100 ≤ l.hwMaxDb ∧ l.hwMinDb ≤ v * 100 then { l with hwMaxDb := v * 100 }
      else if range ≠ 0 then
        { l with hwMaxDb := l.hwMinDb, swMaxDb := v * 100 - l.hwMinDb }
      else { l with warnings := l.warnings ++ [maximumOutside] }

/-- "only if a range is specified could we need both" -/
def VolumeLimits.hardwareRange (range : ℕ) (l : VolumeLimits) : VolumeLimits :=
  if range ≠ 0 then
    let desiredRangeDb : ℤ := range * 100
    if l.hwMaxDb - l.hwMinDb < desiredRangeDb then
      let desiredSwRange := desiredRangeDb - (l.hwMaxDb - l.hwMinDb)
      if l.swMaxDb - desiredSwRange < l.swMinDb then
        { l with mode := .both, warnings := l.warnings ++ [rangeTooLarge] }
      else { l with mode := .both, swMinDb := l.swMaxDb - desiredSwRange }
    else { l with hwMinDb := l.hwMaxDb - desiredRangeDb }
  else l

/-- The maximum, if there is no hardware mixer. -/
def VolumeLimits.softwareMaximum (volumeMaxDb : Option ℤ) (l : VolumeLimits) : VolumeLimits :=
  match volumeMaxDb with
  | none => l
  | some v =>
      if v * 100 ≤ l.swMaxDb ∧ l.swMinDb ≤ v * 100 then { l with swMaxDb := v * 100 } else l

def VolumeLimits.softwareRange (range : ℕ) (l : VolumeLimits) : VolumeLimits :=
  if range ≠ 0 then
    let desiredRangeDb : ℤ := range * 100
    if l.swMaxDb - l.swMinDb < desiredRangeDb then
      { l with warnings := l.warnings ++ [rangeTooLarge] }
    else { l with swMinDb := l.swMaxDb - desiredRangeDb }
  else l

def VolumeConfig.limits (c : VolumeConfig) : VolumeLimits :=
  match c.parameters with
  | some p =>
      (VolumeLimits.hardwareMaximum c.volumeMaxDb c.volumeRangeDb.1
        ⟨.hwOnly, p.maximumVolumeDb, p.minimumVolumeDb, 0, -9630, []⟩).hardwareRange
          c.volumeRangeDb.1
  | none =>
      (VolumeLimits.softwareMaximum c.volumeMaxDb ⟨.swOnly, 0, 0, 0, -9630, []⟩).softwareRange
        c.volumeRangeDb.1

def VolumeLimits.maxDb (l : VolumeLimits) : ℤ :=
  match l.mode with
  | .hwOnly => l.hwMaxDb
  | .swOnly => l.swMaxDb
  | .both => (l.hwMaxDb - l.hwMinDb) + (l.swMaxDb - l.swMinDb)

def VolumeLimits.minDb (l : VolumeLimits) : ℤ :=
  match l.mode with
  | .hwOnly => l.hwMinDb
  | .swOnly => l.swMinDb
  | .both => 0

/-! ## Profiles -/

def flatVol2attn (vol : ℚ) (maxDb minDb : ℤ) : ℚ :=
  if vol ≤ 0 ∧ -30 ≤ vol then ((maxDb - minDb : ℤ) : ℚ) * (30 + vol) / 30 + minDb else minDb

/-- "this is the slope of the attenuation at the high end" -/
def firstSlope (rangeDb : ℤ) : ℤ :=
  let slope := (-rangeDb).tdiv 2
  if slope < -rangeDb then rangeDb else slope

def attenuationLines (rangeDb : ℤ) : List (ℚ × ℚ) :=
  [(0, firstSlope rangeDb), (-5, firstSlope rangeDb - (rangeDb + firstSlope rangeDb) / 2),
    (-17, -rangeDb)]

def vol2attn (vol : ℚ) (maxDb minDb : ℤ) : ℚ :=
  if vol ≤ 0 ∧ -30 ≤ vol then transfer (-30) (attenuationLines (maxDb - minDb)) vol + maxDb
  else minDb

def VolumeConfig.scaledAttenuation (c : VolumeConfig) (airplayVolume : ℚ) : ℚ :=
  if c.ignoreVolumeControl then c.limits.maxDb
  else
    match c.volumeControlProfile with
    | .standard => vol2attn airplayVolume c.limits.maxDb c.limits.minDb
    | .flat => flatVol2attn airplayVolume c.limits.maxDb c.limits.minDb

/-! ## The two mixers -/

structure Attenuations where
  hardware : ℚ
  software : ℚ

/-- "apportion it to the sw and hw mixers" -/
def VolumeLimits.apportion (l : VolumeLimits) (hwPriority : Bool) (scaled : ℚ) : Attenuations :=
  match l.mode with
  | .hwOnly => ⟨scaled, 0⟩
  | .swOnly => ⟨0, scaled⟩
  | .both =>
      if hwPriority then
        if scaled < (l.swMaxDb - l.swMinDb : ℤ) then ⟨l.hwMinDb, l.swMinDb + scaled⟩
        else ⟨l.hwMinDb + scaled - (l.swMaxDb - l.swMinDb : ℤ), l.swMaxDb⟩
      else
        if scaled < (l.hwMaxDb - l.hwMinDb : ℤ) then ⟨l.hwMinDb + scaled, l.swMinDb⟩
        else ⟨l.hwMaxDb, l.swMinDb + scaled - (l.hwMaxDb - l.hwMinDb : ℤ)⟩

def VolumeConfig.attenuations (c : VolumeConfig) (airplayVolume : ℚ) : Attenuations :=
  c.limits.apportion c.volumeRangeHwPriority (c.scaledAttenuation airplayVolume)

/-- `temp_fix_volume`, as it is stored in an `int` -/
noncomputable def tempFixVolume (software : ℚ) : ℤ :=
  ⌊(65536 : ℝ) * (10 : ℝ) ^ ((software / 2000 : ℚ) : ℝ)⌋

/-- What the volume of an output is set to. There is no level from the hardware mixer until it has
been set. -/
structure OutputVolume where
  hardware : Option ℚ
  fixVolume : ℤ
  hardwareMute : Bool
  softwareMute : Bool

noncomputable def VolumeConfig.playerVolume (c : VolumeConfig) (airplayVolume : ℚ)
    (o : OutputVolume) : OutputVolume :=
  if airplayVolume = -144 then
    if c.mutes then { o with hardwareMute := true } else { o with softwareMute := true }
  else
    let a := c.attenuations airplayVolume
    let mode := c.limits.mode
    { hardware := if mode ≠ .swOnly ∧ c.hasVolume then some a.hardware else o.hardware
      fixVolume :=
        if mode ≠ .hwOnly then tempFixVolume a.software
        else if c.hasVolume then 0x10000 else o.fixVolume
      hardwareMute := false
      softwareMute := false }

/-! ## What the limits are -/

/-- The limits of the hardware mixer are in order, and a mixer that is not in use is left where it
gives no attenuation. -/
theorem VolumeConfig.limits_spec (c : VolumeConfig) :
    c.limits.hwMinDb ≤ c.limits.hwMaxDb ∧
      (c.limits.mode = .hwOnly → c.limits.swMaxDb = 0 ∧ c.limits.swMinDb = -9630) ∧
      (c.limits.mode = .swOnly → c.limits.hwMaxDb = 0 ∧ c.limits.hwMinDb = 0) := by
  unfold VolumeConfig.limits
  cases c.parameters with
  | none =>
      unfold VolumeLimits.softwareRange VolumeLimits.softwareMaximum
      grind
  | some p =>
      have hle := p.le
      unfold VolumeLimits.hardwareRange VolumeLimits.hardwareMaximum
      grind

theorem VolumeConfig.limits_range (c : VolumeConfig) (hset : c.volumeRangeDb.1 ≠ 0)
    (hfits : rangeTooLarge ∉ c.limits.warnings) :
    c.limits.maxDb - c.limits.minDb = c.volumeRangeDb.1 * 100 := by
  unfold VolumeConfig.limits at hfits ⊢
  cases hparameters : c.parameters with
  | none =>
      unfold VolumeLimits.softwareRange VolumeLimits.softwareMaximum VolumeLimits.maxDb
        VolumeLimits.minDb
      rw [hparameters] at hfits
      unfold VolumeLimits.softwareRange VolumeLimits.softwareMaximum at hfits
      grind
  | some p =>
      rw [hparameters] at hfits
      unfold VolumeLimits.hardwareRange VolumeLimits.hardwareMaximum at hfits
      unfold VolumeLimits.hardwareRange VolumeLimits.hardwareMaximum VolumeLimits.maxDb
        VolumeLimits.minDb
      grind

/-! ## What the profiles give -/

def airplayScale : Set ℚ := Set.Icc (-30) 0

theorem firstSlope_eq {rangeDb : ℤ} (h : 0 ≤ rangeDb) : firstSlope rangeDb = -(rangeDb / 2) := by
  have hslope : (-rangeDb).tdiv 2 = -(rangeDb / 2) := by
    rw [Int.neg_tdiv, Int.tdiv_eq_ediv_of_nonneg h]
  rw [firstSlope, hslope, if_neg (by omega)]

theorem attenuationLines_spec {rangeDb : ℤ} (h : 0 ≤ rangeDb) :
    ∀ l ∈ attenuationLines rangeDb, -30 < l.1 ∧ l.1 ≤ 0 ∧ l.2 ≤ 0 ∧ -(rangeDb : ℚ) ≤ l.2 := by
  have hhalf : (0 : ℚ) ≤ (rangeDb / 2 : ℤ) := by exact_mod_cast Int.ediv_nonneg h zero_le_two
  have htwice : 2 * ((rangeDb / 2 : ℤ) : ℚ) ≤ rangeDb := by
    exact_mod_cast Int.mul_ediv_self_le two_ne_zero
  intro l hl
  simp only [attenuationLines, firstSlope_eq h, List.mem_cons, List.not_mem_nil, or_false,
    Int.cast_neg] at hl
  rcases hl with rfl | rfl | rfl
  · exact ⟨by norm_num, le_rfl, by linarith, by linarith⟩
  · exact ⟨by norm_num, by norm_num, by linarith, by linarith⟩
  · exact ⟨by norm_num, by norm_num, by linarith, le_rfl⟩

theorem vol2attn_of_mem {vol : ℚ} (h : vol ∈ airplayScale) (maxDb minDb : ℤ) :
    vol2attn vol maxDb minDb =
      transfer (-30) (attenuationLines (maxDb - minDb)) vol + maxDb := if_pos ⟨h.2, h.1⟩

theorem flatVol2attn_of_mem {vol : ℚ} (h : vol ∈ airplayScale) (maxDb minDb : ℤ) :
    flatVol2attn vol maxDb minDb =
      ((maxDb - minDb : ℤ) : ℚ) * (30 + vol) / 30 + minDb := if_pos ⟨h.2, h.1⟩

/-- What is asked of a profile: it takes the scale of AirPlay volumes to the range, with its ends,
and does not step back. -/
structure FitsRange (profile : ℚ → ℚ) (maxDb minDb : ℤ) : Prop where
  bottom : profile (-30) = minDb
  top : profile 0 = maxDb
  mono : MonotoneOn profile airplayScale

theorem neg_thirty_mem : (-30 : ℚ) ∈ airplayScale := ⟨le_rfl, by norm_num⟩

theorem zero_mem : (0 : ℚ) ∈ airplayScale := ⟨by norm_num, le_rfl⟩

theorem FitsRange.mem {profile : ℚ → ℚ} {maxDb minDb : ℤ} (h : FitsRange profile maxDb minDb)
    {vol : ℚ} (hvol : vol ∈ airplayScale) : minDb ≤ profile vol ∧ profile vol ≤ maxDb := by
  rw [← h.bottom, ← h.top]
  exact ⟨h.mono neg_thirty_mem hvol hvol.1, h.mono hvol zero_mem hvol.2⟩

theorem vol2attn_fitsRange {maxDb minDb : ℤ} (h : minDb ≤ maxDb) :
    FitsRange (vol2attn · maxDb minDb) maxDb minDb where
  bottom := by
    have hlines := attenuationLines_spec (sub_nonneg.2 h)
    have hlast : ((-17, -((maxDb - minDb : ℤ) : ℚ)) : ℚ × ℚ) ∈
        attenuationLines (maxDb - minDb) := by simp [attenuationLines]
    have hbottom := transfer_bottom (fun l hl => (hlines l hl).1) hlast
      (fun l hl => (hlines l hl).2.2.2) (hlines _ hlast).2.2.1
    rw [vol2attn_of_mem neg_thirty_mem, hbottom, Int.cast_sub]
    ring
  top := by
    have hlines := attenuationLines_spec (sub_nonneg.2 h)
    rw [vol2attn_of_mem zero_mem, transfer_eq_zero fun l hl => (hlines l hl).2.1, zero_add]
  mono := by
    intro vol hvol vol' hvol' hle
    have hlines := attenuationLines_spec (sub_nonneg.2 h)
    simp only [vol2attn_of_mem hvol, vol2attn_of_mem hvol']
    exact add_le_add_left
      (transfer_mono (fun l hl => ⟨(hlines l hl).1, (hlines l hl).2.2.1⟩) hle) _

theorem flatVol2attn_fitsRange {maxDb minDb : ℤ} (h : minDb ≤ maxDb) :
    FitsRange (flatVol2attn · maxDb minDb) maxDb minDb where
  bottom := by
    rw [flatVol2attn_of_mem neg_thirty_mem]
    ring
  top := by
    rw [flatVol2attn_of_mem zero_mem, Int.cast_sub]
    ring
  mono := by
    intro vol hvol vol' hvol' hle
    have hrange : (0 : ℚ) ≤ (maxDb - minDb : ℤ) := by exact_mod_cast sub_nonneg.2 h
    simp only [flatVol2attn_of_mem hvol, flatVol2attn_of_mem hvol']
    gcongr

theorem VolumeConfig.scaledAttenuation_fitsRange (c : VolumeConfig)
    (hon : c.ignoreVolumeControl = false) (h : c.limits.minDb ≤ c.limits.maxDb) :
    FitsRange c.scaledAttenuation c.limits.maxDb c.limits.minDb := by
  have heq : c.scaledAttenuation = fun vol =>
      match c.volumeControlProfile with
      | .standard => vol2attn vol c.limits.maxDb c.limits.minDb
      | .flat => flatVol2attn vol c.limits.maxDb c.limits.minDb := by
    funext vol
    rw [VolumeConfig.scaledAttenuation, hon, if_neg Bool.false_ne_true]
  rw [heq]
  cases c.volumeControlProfile with
  | standard => exact vol2attn_fitsRange h
  | flat => exact flatVol2attn_fitsRange h

/-! ## What the mixers are given -/

/-- In limits that are in order the level is divided as it is filled, from the bottom of both
ranges. -/
theorem VolumeLimits.apportion_both {l : VolumeLimits} (h : l.mode = .both) (hwPriority : Bool)
    (scaled : ℚ) :
    l.apportion hwPriority scaled =
      if hwPriority then
        ⟨l.hwMinDb + (fillFirst ((l.swMaxDb - l.swMinDb : ℤ) : ℚ) scaled).2,
          l.swMinDb + (fillFirst ((l.swMaxDb - l.swMinDb : ℤ) : ℚ) scaled).1⟩
      else
        ⟨l.hwMinDb + (fillFirst ((l.hwMaxDb - l.hwMinDb : ℤ) : ℚ) scaled).1,
          l.swMinDb + (fillFirst ((l.hwMaxDb - l.hwMinDb : ℤ) : ℚ) scaled).2⟩ := by
  unfold VolumeLimits.apportion fillFirst
  rw [h]
  split_ifs <;> simp [add_sub_assoc]

/-- The two parts make up the level. -/
theorem VolumeLimits.apportion_add {l : VolumeLimits} (h : l.mode = .both) (hwPriority : Bool)
    (scaled : ℚ) :
    (l.apportion hwPriority scaled).hardware + (l.apportion hwPriority scaled).software =
      l.hwMinDb + l.swMinDb + scaled := by
  have hsw := fillFirst_add ((l.swMaxDb - l.swMinDb : ℤ) : ℚ) scaled
  have hhw := fillFirst_add ((l.hwMaxDb - l.hwMinDb : ℤ) : ℚ) scaled
  rw [l.apportion_both h]
  split_ifs
  · linarith
  · linarith

/-- Neither mixer steps back when the level goes up. -/
theorem VolumeLimits.apportion_mono (l : VolumeLimits) (hwPriority : Bool) {scaled scaled' : ℚ}
    (hle : scaled ≤ scaled') :
    (l.apportion hwPriority scaled).hardware ≤ (l.apportion hwPriority scaled').hardware ∧
      (l.apportion hwPriority scaled).software ≤ (l.apportion hwPriority scaled').software := by
  cases hmode : l.mode with
  | swOnly =>
      simp only [VolumeLimits.apportion, hmode]
      exact ⟨le_rfl, hle⟩
  | hwOnly =>
      simp only [VolumeLimits.apportion, hmode]
      exact ⟨hle, le_rfl⟩
  | both =>
      rw [l.apportion_both hmode, l.apportion_both hmode]
      have hsw := fillFirst_mono ((l.swMaxDb - l.swMinDb : ℤ) : ℚ) hle
      have hhw := fillFirst_mono ((l.hwMaxDb - l.hwMinDb : ℤ) : ℚ) hle
      split_ifs
      · exact ⟨add_le_add_right hsw.2 _, add_le_add_right hsw.1 _⟩
      · exact ⟨add_le_add_right hhw.1 _, add_le_add_right hhw.2 _⟩

theorem VolumeLimits.minDb_le_maxDb {l : VolumeLimits} (hhw : l.hwMinDb ≤ l.hwMaxDb)
    (hsw : l.swMinDb ≤ l.swMaxDb) : l.minDb ≤ l.maxDb := by
  unfold VolumeLimits.minDb VolumeLimits.maxDb
  cases l.mode with
  | swOnly => exact hsw
  | hwOnly => exact hhw
  | both => exact add_nonneg (sub_nonneg.2 hhw) (sub_nonneg.2 hsw)

/-- Both mixers stay in their limits, if a mixer that is not in use has zero in its own. -/
theorem VolumeLimits.apportion_mem {l : VolumeLimits} (hhw : l.hwMinDb ≤ l.hwMaxDb)
    (hsw : l.swMinDb ≤ l.swMaxDb)
    (hhwOnly : l.mode = .hwOnly → l.swMinDb ≤ 0 ∧ 0 ≤ l.swMaxDb)
    (hswOnly : l.mode = .swOnly → l.hwMinDb ≤ 0 ∧ 0 ≤ l.hwMaxDb) (hwPriority : Bool) {scaled : ℚ}
    (hmin : l.minDb ≤ scaled) (hmax : scaled ≤ l.maxDb) :
    ((l.hwMinDb : ℚ) ≤ (l.apportion hwPriority scaled).hardware ∧
        (l.apportion hwPriority scaled).hardware ≤ l.hwMaxDb) ∧
      (l.swMinDb : ℚ) ≤ (l.apportion hwPriority scaled).software ∧
        (l.apportion hwPriority scaled).software ≤ l.swMaxDb := by
  unfold VolumeLimits.minDb at hmin
  unfold VolumeLimits.maxDb at hmax
  cases hmode : l.mode with
  | swOnly =>
      rw [hmode] at hmin hmax
      obtain ⟨hlow, hhigh⟩ := hswOnly hmode
      simp only [VolumeLimits.apportion, hmode]
      exact ⟨⟨by exact_mod_cast hlow, by exact_mod_cast hhigh⟩, hmin, hmax⟩
  | hwOnly =>
      rw [hmode] at hmin hmax
      obtain ⟨hlow, hhigh⟩ := hhwOnly hmode
      simp only [VolumeLimits.apportion, hmode]
      exact ⟨⟨hmin, hmax⟩, by exact_mod_cast hlow, by exact_mod_cast hhigh⟩
  | both =>
      rw [hmode] at hmin hmax
      have hhwRange : (0 : ℚ) ≤ (l.hwMaxDb - l.hwMinDb : ℤ) := by
        exact_mod_cast sub_nonneg.2 hhw
      have hswRange : (0 : ℚ) ≤ (l.swMaxDb - l.swMinDb : ℤ) := by
        exact_mod_cast sub_nonneg.2 hsw
      have hzero : (0 : ℚ) ≤ scaled := by exact_mod_cast hmin
      have hsum : scaled ≤ (l.hwMaxDb - l.hwMinDb : ℤ) + (l.swMaxDb - l.swMinDb : ℤ) := by
        exact_mod_cast hmax
      have hswFirst := fillFirst_mem hswRange hhwRange hzero (hsum.trans_eq (add_comm _ _))
      have hhwFirst := fillFirst_mem hhwRange hswRange hzero hsum
      rw [l.apportion_both hmode]
      push_cast at hswFirst hhwFirst ⊢
      split_ifs
      · exact ⟨⟨by linarith, by linarith⟩, by linarith, by linarith⟩
      · exact ⟨⟨by linarith, by linarith⟩, by linarith, by linarith⟩

/-- What is asked of the two mixers over the scale of AirPlay volumes. -/
structure VolumeConfig.Apportioned (c : VolumeConfig) : Prop where
  hardware_mem : ∀ vol ∈ airplayScale,
    (c.limits.hwMinDb : ℚ) ≤ (c.attenuations vol).hardware ∧
      (c.attenuations vol).hardware ≤ c.limits.hwMaxDb
  software_mem : ∀ vol ∈ airplayScale,
    (c.limits.swMinDb : ℚ) ≤ (c.attenuations vol).software ∧
      (c.attenuations vol).software ≤ c.limits.swMaxDb
  sum : c.limits.mode = .both → ∀ vol ∈ airplayScale,
    (c.attenuations vol).hardware + (c.attenuations vol).software =
      c.limits.hwMinDb + c.limits.swMinDb + c.scaledAttenuation vol
  scaled : FitsRange c.scaledAttenuation c.limits.maxDb c.limits.minDb
  requested : c.volumeRangeDb.1 ≠ 0 → rangeTooLarge ∉ c.limits.warnings →
    c.limits.maxDb - c.limits.minDb = c.volumeRangeDb.1 * 100
  hardware_mono : MonotoneOn (fun vol => (c.attenuations vol).hardware) airplayScale
  software_mono : MonotoneOn (fun vol => (c.attenuations vol).software) airplayScale

/-- With volume control honoured and the limits of the software mixer in order, each mixer is given
a level in its limits that does not step back when the volume goes up, and together they make up the
level that the profile gives. -/
theorem VolumeConfig.apportioned (c : VolumeConfig) (hon : c.ignoreVolumeControl = false)
    (hsw : c.limits.swMinDb ≤ c.limits.swMaxDb) : c.Apportioned := by
  obtain ⟨hhw, hhwOnly, hswOnly⟩ := c.limits_spec
  have hscaled := c.scaledAttenuation_fitsRange hon (VolumeLimits.minDb_le_maxDb hhw hsw)
  have hmem : ∀ vol ∈ airplayScale, _ := fun vol hvol =>
    VolumeLimits.apportion_mem hhw hsw (fun h => by have := hhwOnly h; omega)
      (fun h => by have := hswOnly h; omega) c.volumeRangeHwPriority (hscaled.mem hvol).1
      (hscaled.mem hvol).2
  have hmono : ∀ vol ∈ airplayScale, ∀ vol' ∈ airplayScale, vol ≤ vol' → _ :=
    fun vol hvol vol' hvol' hle =>
      c.limits.apportion_mono c.volumeRangeHwPriority (hscaled.mono hvol hvol' hle)
  exact
    { hardware_mem := fun vol hvol => (hmem vol hvol).1
      software_mem := fun vol hvol => (hmem vol hvol).2
      sum := fun hboth vol _ => VolumeLimits.apportion_add hboth _ _
      scaled := hscaled
      requested := c.limits_range
      hardware_mono := fun vol hvol vol' hvol' hle => (hmono vol hvol vol' hvol' hle).1
      software_mono := fun vol hvol vol' hvol' hle => (hmono vol hvol vol' hvol' hle).2 }

/-- A mixer of 20 dB, of which the maximum takes 5 dB, and a range of 60 dB. -/
def mixerAndRange (profile : VolumeControlProfile) (hwPriority : Bool) : VolumeConfig where
  parameters := some ⟨-2000, 0, by decide⟩
  hasVolume := true
  mutes := false
  configuredMaxDb := some (-5)
  volumeRangeDb := ⟨60, by decide⟩
  ignoreVolumeControl := false
  volumeControlProfile := profile
  volumeRangeHwPriority := hwPriority

/-- A mixer of 20 dB and the widest range that is accepted. -/
def mixerAndWidestRange : VolumeConfig :=
  { mixerAndRange .standard true with
    configuredMaxDb := none
    volumeRangeDb := ⟨150, by decide⟩ }

/-- The two mixers have 116.3 dB, and all of it is used, where 150 dB are asked for. -/
theorem mixerAndWidestRange_not_requested :
    ¬ ∀ c : VolumeConfig, c.ignoreVolumeControl = false → c.limits.swMinDb ≤ c.limits.swMaxDb →
      c.volumeRangeDb.1 ≠ 0 →
      c.scaledAttenuation 0 - c.scaledAttenuation (-30) = c.volumeRangeDb.1 * 100 := by
  intro h
  have hrange := h mixerAndWidestRange rfl (by decide +kernel) (by decide)
  have hmax : mixerAndWidestRange.limits.maxDb = 11630 := by decide +kernel
  have hmin : mixerAndWidestRange.limits.minDb = 0 := by decide +kernel
  have hscaled := mixerAndWidestRange.scaledAttenuation_fitsRange rfl (by rw [hmax, hmin]; decide)
  have hasked : mixerAndWidestRange.volumeRangeDb.1 = 150 := rfl
  rw [hscaled.top, hscaled.bottom, hmax, hmin, hasked] at hrange
  norm_num at hrange

theorem apportioned_mixerAndRange :
    (mixerAndRange .standard true).Apportioned ∧ (mixerAndRange .flat false).Apportioned :=
  ⟨VolumeConfig.apportioned _ rfl (by decide +kernel),
    VolumeConfig.apportioned _ rfl (by decide +kernel)⟩

end Player

end ShairportSync
