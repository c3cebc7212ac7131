import ShairportSync.Player.ProcessSample
import ShairportSync.Player.Volume

/-!
# The maximum volume

`volume_max_db` is to be the highest level. It is stored without its fraction, and a maximum that
the hardware mixer does not have is made up for in the software mixer if a range is configured.
Above the hardware mixer this makes the software mixer amplify.

The highest level is set at the top of the scale, so it is enough to know the limits.
-/

namespace ShairportSync

namespace Player

open Numeric

/-! ## The level at the top of the scale -/

theorem VolumeConfig.scaledAttenuation_top (c : VolumeConfig) :
    c.scaledAttenuation 0 = c.limits.maxDb := by
  unfold VolumeConfig.scaledAttenuation
  split_ifs
  · rfl
  · cases c.volumeControlProfile with
    | standard =>
        have hlines : ∀ l ∈ attenuationLines (c.limits.maxDb - c.limits.minDb), l.1 ≤ 0 := by
          intro l hl
          simp only [attenuationLines, List.mem_cons, List.not_mem_nil, or_false] at hl
          rcases hl with rfl | rfl | rfl <;> norm_num
        simp only [vol2attn_of_mem zero_mem, transfer_eq_zero hlines, zero_add]
    | flat =>
        simp only [flatVol2attn_of_mem zero_mem, Int.cast_sub]
        ring

theorem VolumeConfig.scaledAttenuation_le (c : VolumeConfig) {vol : ℚ} (hvol : vol ∈ airplayScale) :
    c.scaledAttenuation vol ≤ max (c.limits.maxDb : ℚ) c.limits.minDb := by
  unfold VolumeConfig.scaledAttenuation
  split_ifs
  · exact le_max_left _ _
  · cases c.volumeControlProfile with
    | standard =>
        have hline := transfer_nonpos (-30)
          (attenuationLines (c.limits.maxDb - c.limits.minDb)) vol
        simp only [vol2attn_of_mem hvol]
        exact le_max_of_le_left (by linarith)
    | flat =>
        obtain ⟨hlow, hhigh⟩ := hvol
        simp only [flatVol2attn_of_mem ⟨hlow, hhigh⟩, Int.cast_sub]
        rcases le_total (c.limits.minDb : ℚ) c.limits.maxDb with h | h
        · exact le_max_of_le_left (by nlinarith)
        · exact le_max_of_le_right (by nlinarith)

/-- In limits that are in order the level is at most the sum of the two maxima, and so is the
software attenuation at most its own. At the top of the scale they are reached. -/
theorem VolumeConfig.attenuations_top (c : VolumeConfig)
    (hsw : c.limits.swMinDb ≤ c.limits.swMaxDb) :
    (c.attenuations 0).hardware + (c.attenuations 0).software =
        c.limits.hwMaxDb + c.limits.swMaxDb ∧
      (c.attenuations 0).software = c.limits.swMaxDb := by
  obtain ⟨hhw, hhwOnly, hswOnly⟩ := c.limits_spec
  unfold VolumeConfig.attenuations
  rw [c.scaledAttenuation_top, VolumeLimits.maxDb]
  cases hmode : c.limits.mode with
  | swOnly =>
      simp [VolumeLimits.apportion, hmode, (hswOnly hmode).1]
  | hwOnly =>
      simp [VolumeLimits.apportion, hmode, (hhwOnly hmode).1]
  | both =>
      have hhwRange : (0 : ℚ) ≤ (c.limits.hwMaxDb - c.limits.hwMinDb : ℤ) := by
        exact_mod_cast sub_nonneg.2 hhw
      have hswRange : (0 : ℚ) ≤ (c.limits.swMaxDb - c.limits.swMinDb : ℤ) := by
        exact_mod_cast sub_nonneg.2 hsw
      rw [c.limits.apportion_both hmode]
      simp only [fillFirst_fst, fillFirst_snd]
      push_cast at hhwRange hswRange ⊢
      split_ifs
      · rw [min_eq_right (by linarith), max_eq_right (by linarith)]
        exact ⟨by ring, by ring⟩
      · rw [min_eq_right (by linarith), max_eq_right (by linarith)]
        exact ⟨by ring, by ring⟩

theorem VolumeConfig.attenuations_le (c : VolumeConfig)
    (hsw : c.limits.swMinDb ≤ c.limits.swMaxDb) {vol : ℚ} (hvol : vol ∈ airplayScale) :
    (c.attenuations vol).hardware + (c.attenuations vol).software ≤
        c.limits.hwMaxDb + c.limits.swMaxDb ∧
      (c.attenuations vol).software ≤ c.limits.swMaxDb := by
  have hhw := c.limits_spec.1
  have hle : c.scaledAttenuation vol ≤ c.scaledAttenuation 0 := by
    have hmax := c.scaledAttenuation_le hvol
    rwa [max_eq_left (by exact_mod_cast VolumeLimits.minDb_le_maxDb hhw hsw),
      ← c.scaledAttenuation_top] at hmax
  obtain ⟨hlevel, hsoftware⟩ := c.attenuations_top hsw
  obtain ⟨hhardwareLe, hsoftwareLe⟩ := c.limits.apportion_mono c.volumeRangeHwPriority hle
  rw [← hlevel, ← hsoftware]
  exact ⟨add_le_add hhardwareLe hsoftwareLe, hsoftwareLe⟩

/-! ## The limits for a maximum -/

section Limits

variable {c : VolumeConfig} {p : AudioParameters} {v : ℤ}

/-- The limits are in order, and the maxima are these. -/
def VolumeConfig.Maxima (c : VolumeConfig) (hwMaxDb swMaxDb : ℤ) : Prop :=
  c.limits.swMinDb ≤ c.limits.swMaxDb ∧ c.limits.hwMaxDb = hwMaxDb ∧ c.limits.swMaxDb = swMaxDb

theorem maxima_of_none (hp : c.parameters = some p) (hmax : c.volumeMaxDb = none) :
    c.Maxima p.maximumVolumeDb 0 := by
  unfold VolumeConfig.Maxima VolumeConfig.limits VolumeLimits.hardwareRange
    VolumeLimits.hardwareMaximum
  grind

theorem maxima_of_inside (hp : c.parameters = some p) (hmax : c.volumeMaxDb = some v)
    (hinside : p.minimumVolumeDb ≤ v * 100 ∧ v * 100 ≤ p.maximumVolumeDb) :
    c.Maxima (v * 100) 0 := by
  unfold VolumeConfig.Maxima VolumeConfig.limits VolumeLimits.hardwareRange
    VolumeLimits.hardwareMaximum
  grind

theorem maxima_of_ignored (hp : c.parameters = some p) (hmax : c.volumeMaxDb = some v)
    (houtside : ¬(p.minimumVolumeDb ≤ v * 100 ∧ v * 100 ≤ p.maximumVolumeDb))
    (hrange : c.volumeRangeDb.1 = 0) : c.Maxima p.maximumVolumeDb 0 := by
  unfold VolumeConfig.Maxima VolumeConfig.limits VolumeLimits.hardwareRange
    VolumeLimits.hardwareMaximum
  grind

/-- With a range it moves to the software mixer, above the bottom of the hardware mixer. -/
theorem limits_of_moved (hp : c.parameters = some p) (hmax : c.volumeMaxDb = some v)
    (houtside : ¬(p.minimumVolumeDb ≤ v * 100 ∧ v * 100 ≤ p.maximumVolumeDb))
    (hrange : c.volumeRangeDb.1 ≠ 0) :
    c.limits.mode = .both ∧ c.limits.hwMinDb = p.minimumVolumeDb ∧
      c.limits.hwMaxDb = p.minimumVolumeDb ∧
      c.limits.swMaxDb = v * 100 - p.minimumVolumeDb ∧
      (c.limits.swMinDb ≤ c.limits.swMaxDb ∨
        c.limits.swMinDb = -9630 ∧ c.limits.swMaxDb < -9630) := by
  unfold VolumeConfig.limits VolumeLimits.hardwareRange VolumeLimits.hardwareMaximum
  grind

theorem limits_of_software (hp : c.parameters = none) :
    c.limits.swMinDb ≤ c.limits.swMaxDb ∧ c.limits.swMaxDb ≤ 0 := by
  unfold VolumeConfig.limits VolumeLimits.softwareRange VolumeLimits.softwareMaximum
  grind

theorem maxima_of_software (hp : c.parameters = none) (hmax : c.volumeMaxDb = some v)
    (hinside : -9630 ≤ v * 100 ∧ v * 100 ≤ 0) : c.Maxima 0 (v * 100) := by
  unfold VolumeConfig.Maxima VolumeConfig.limits VolumeLimits.softwareRange
    VolumeLimits.softwareMaximum
  grind

/-- In limits of the software mixer that are out of order it still does not amplify. -/
theorem software_nonpos_of_lt (hboth : c.limits.mode = .both)
    (hhw : c.limits.hwMaxDb = c.limits.hwMinDb) (hmin : c.limits.swMinDb ≤ 0)
    (hmax : c.limits.swMaxDb ≤ 0) (hlt : c.limits.swMaxDb < c.limits.swMinDb) {vol : ℚ}
    (hvol : vol ∈ airplayScale) : (c.attenuations vol).software ≤ 0 := by
  have hminQ : (c.limits.swMinDb : ℚ) ≤ 0 := by exact_mod_cast hmin
  have hmaxQ : (c.limits.swMaxDb : ℚ) ≤ 0 := by exact_mod_cast hmax
  have hltQ : (c.limits.swMaxDb : ℚ) < c.limits.swMinDb := by exact_mod_cast hlt
  have hscaled : c.scaledAttenuation vol ≤ 0 := by
    have hle := c.scaledAttenuation_le hvol
    simp only [VolumeLimits.maxDb, VolumeLimits.minDb, hboth, hhw] at hle
    push_cast at hle
    rwa [max_eq_right (by linarith)] at hle
  unfold VolumeConfig.attenuations VolumeLimits.apportion
  simp only [hboth, hhw, sub_self, Int.cast_zero, Int.cast_sub]
  split_ifs
  · linarith
  · exact hmaxQ
  · exact hminQ
  · linarith

end Limits

/-! ## Never louder than configured -/

theorem tempFixVolume_mem {software : ℚ} (h : software ≤ 0) :
    0 ≤ tempFixVolume software ∧ tempFixVolume software ≤ 0x10000 := by
  have hexponent : ((software / 2000 : ℚ) : ℝ) ≤ 0 := by
    exact_mod_cast div_nonpos_of_nonpos_of_nonneg h (by norm_num)
  have hpow := Real.rpow_le_one_of_one_le_of_nonpos (by norm_num : (1 : ℝ) ≤ 10) hexponent
  refine ⟨Int.floor_nonneg.2 (by positivity), ?_⟩
  have hproduct : (65536 : ℝ) * (10 : ℝ) ^ ((software / 2000 : ℚ) : ℝ) ≤ 65536 := by linarith
  exact_mod_cast (Int.floor_le _).trans hproduct

def VolumeConfig.mixerRange (c : VolumeConfig) : Set ℚ :=
  match c.parameters with
  | some p => Set.Icc p.minimumVolumeDb p.maximumVolumeDb
  | none => Set.Icc (-9630) 0

/-- What is asked over the scale of AirPlay volumes. -/
structure VolumeConfig.NeverLouder (c : VolumeConfig) : Prop where
  software_le : ∀ vol ∈ airplayScale, (c.attenuations vol).software ≤ 0
  fixVolume_mem : ∀ vol ∈ airplayScale, ∀ o : OutputVolume, 0 ≤ o.fixVolume →
    o.fixVolume ≤ 0x10000 →
    0 ≤ (c.playerVolume vol o).fixVolume ∧ (c.playerVolume vol o).fixVolume ≤ 0x10000
  product : ∀ vol ∈ airplayScale, ∀ o : OutputVolume, 0 ≤ o.fixVolume → o.fixVolume ≤ 0x10000 →
    ∀ sample, hyperSample false sample (c.playerVolume vol o).fixVolume ≠ none
  level_le : ∀ d, c.configuredMaxDb = some d → d * 100 ∈ c.mixerRange →
    ∀ vol ∈ airplayScale, (c.attenuations vol).hardware + (c.attenuations vol).software ≤ d * 100

/-- A maximum that is stored in the range of the hardware mixer is not higher than the one that is
configured. One that is stored outside it is not above the mixer if a range is configured. If none
is, it can only be that the configured maximum is the top of the mixer. -/
def VolumeConfig.MaximumKept (c : VolumeConfig) : Prop :=
  match c.parameters, c.configuredMaxDb with
  | _, none => True
  | none, some d => d * 100 ∈ c.mixerRange → (truncate d : ℚ) ≤ d
  | some p, some d =>
      if p.minimumVolumeDb ≤ truncate d * 100 ∧ truncate d * 100 ≤ p.maximumVolumeDb then
        d * 100 ∈ c.mixerRange → (truncate d : ℚ) ≤ d
      else if c.volumeRangeDb.1 ≠ 0 then truncate d * 100 ≤ p.maximumVolumeDb
      else d * 100 ∈ c.mixerRange → (p.maximumVolumeDb : ℚ) ≤ d * 100

/-- It is enough for the software attenuation to be none, and for the level not to be too high. -/
theorem neverLouder_of_le {c : VolumeConfig}
    (hsoftware : ∀ vol ∈ airplayScale, (c.attenuations vol).software ≤ 0)
    (hlevel : ∀ d, c.configuredMaxDb = some d → d * 100 ∈ c.mixerRange →
      ∀ vol ∈ airplayScale,
        (c.attenuations vol).hardware + (c.attenuations vol).software ≤ d * 100) :
    c.NeverLouder := by
  have hfix : ∀ vol ∈ airplayScale, ∀ o : OutputVolume, 0 ≤ o.fixVolume →
      o.fixVolume ≤ 0x10000 →
      0 ≤ (c.playerVolume vol o).fixVolume ∧ (c.playerVolume vol o).fixVolume ≤ 0x10000 := by
    intro vol hvol o hzero hmax
    have hset : vol ≠ -144 := fun h => by
      have hlow := hvol.1
      rw [h] at hlow
      norm_num at hlow
    simp only [VolumeConfig.playerVolume, if_neg hset]
    split_ifs
    · exact tempFixVolume_mem (hsoftware vol hvol)
    · exact ⟨by decide, le_rfl⟩
    · exact ⟨hzero, hmax⟩
  refine ⟨hsoftware, hfix, fun vol hvol o hzero hmax sample => ?_, hlevel⟩
  obtain ⟨hlow, hhigh⟩ := hfix vol hvol o hzero hmax
  rw [(hyperSample_eq sample hlow hhigh).1]
  exact Option.some_ne_none _

/-- Known maxima decide whether it is never louder. -/
theorem VolumeConfig.Maxima.neverLouder_iff_le {c : VolumeConfig} {hwMaxDb swMaxDb : ℤ}
    (h : c.Maxima hwMaxDb swMaxDb) :
    c.NeverLouder ↔ swMaxDb ≤ 0 ∧ ∀ d, c.configuredMaxDb = some d → d * 100 ∈ c.mixerRange →
      (hwMaxDb : ℚ) + swMaxDb ≤ d * 100 := by
  obtain ⟨hsw, rfl, rfl⟩ := h
  constructor
  · intro hquiet
    obtain ⟨hlevel, hsoftware⟩ := c.attenuations_top hsw
    refine ⟨?_, fun d hd hmem => ?_⟩
    · have hle := hquiet.software_le 0 zero_mem
      rw [hsoftware] at hle
      exact_mod_cast hle
    · rw [← hlevel]
      exact hquiet.level_le d hd hmem 0 zero_mem
  · rintro ⟨hnonpos, hlevel⟩
    refine neverLouder_of_le (fun vol hvol => ?_) fun d hd hmem vol hvol => ?_
    · exact (c.attenuations_le hsw hvol).2.trans (by exact_mod_cast hnonpos)
    · exact (c.attenuations_le hsw hvol).1.trans (hlevel d hd hmem)

theorem VolumeConfig.Maxima.neverLouder_iff_of_some {c : VolumeConfig} {hwMaxDb swMaxDb : ℤ} {d : ℚ}
    (h : c.Maxima hwMaxDb swMaxDb) (hd : c.configuredMaxDb = some d) :
    c.NeverLouder ↔
      swMaxDb ≤ 0 ∧ (d * 100 ∈ c.mixerRange → (hwMaxDb : ℚ) + swMaxDb ≤ d * 100) := by
  rw [h.neverLouder_iff_le]
  refine and_congr_right' ⟨fun hlevel => hlevel d hd, fun hlevel d' hd' => ?_⟩
  obtain rfl : d = d' := Option.some.inj (hd.symm.trans hd')
  exact hlevel

theorem sub_one_lt_truncate (x : ℚ) : x - 1 < truncate x := by
  unfold truncate
  split_ifs
  · exact Int.sub_one_lt_floor x
  · exact (sub_one_lt x).trans_le (Int.le_ceil x)

theorem le_truncate_of_nonpos {x : ℚ} (h : x ≤ 0) : x ≤ truncate x ∧ (truncate x : ℚ) ≤ 0 := by
  unfold truncate
  split_ifs with hzero
  · rw [le_antisymm h hzero, Int.floor_zero, Int.cast_zero]
    exact ⟨le_rfl, le_rfl⟩
  · exact ⟨Int.le_ceil x, by exact_mod_cast Int.ceil_le.2 (h.trans_eq Int.cast_zero.symm)⟩

theorem VolumeConfig.volumeMaxDb_of_some {c : VolumeConfig} {d : ℚ}
    (hd : c.configuredMaxDb = some d) : c.volumeMaxDb = some (truncate d) := by
  rw [VolumeConfig.volumeMaxDb, hd, Option.map_some]

/-- With a hardware mixer and a range, a maximum that moves to the software mixer is kept if it is
below the hardware mixer. -/
theorem neverLouder_of_moved {c : VolumeConfig} {p : AudioParameters} {d : ℚ}
    (hp : c.parameters = some p) (hd : c.configuredMaxDb = some d)
    (houtside : ¬(p.minimumVolumeDb ≤ truncate d * 100 ∧
      truncate d * 100 ≤ p.maximumVolumeDb)) (hrange : c.volumeRangeDb.1 ≠ 0) :
    c.NeverLouder ↔ truncate d * 100 ≤ p.maximumVolumeDb := by
  obtain ⟨hboth, hhwMin, hhwMax, hswMax, horder⟩ :=
    limits_of_moved hp (VolumeConfig.volumeMaxDb_of_some hd) houtside hrange
  have hple := p.le
  have hmaxima : ∀ hsw : c.limits.swMinDb ≤ c.limits.swMaxDb,
      c.Maxima p.minimumVolumeDb (truncate d * 100 - p.minimumVolumeDb) :=
    fun hsw => ⟨hsw, hhwMax, hswMax⟩
  constructor
  · intro hquiet
    rcases horder with hsw | ⟨_, hlow⟩
    · have hnonpos := ((hmaxima hsw).neverLouder_iff_le.1 hquiet).1
      omega
    · omega
  · intro hle
    have hbelow : truncate d * 100 < p.minimumVolumeDb := by omega
    -- a maximum in the range of the mixer is less than one dB from the one that is stored
    have hnear : d * 100 ∈ c.mixerRange → c.limits.swMinDb ≤ c.limits.swMaxDb ∧
        ((truncate d * 100 : ℤ) : ℚ) ≤ d * 100 := by
      rw [VolumeConfig.mixerRange, hp]
      rintro ⟨hlow, _⟩
      have hclose := sub_one_lt_truncate d
      have hgap : ((p.minimumVolumeDb : ℤ) : ℚ) < ((truncate d * 100 + 100 : ℤ) : ℚ) := by
        push_cast
        linarith
      have hgap' : p.minimumVolumeDb < truncate d * 100 + 100 := by exact_mod_cast hgap
      have hbelowQ : ((truncate d * 100 : ℤ) : ℚ) < p.minimumVolumeDb := by exact_mod_cast hbelow
      exact ⟨by omega, (hbelowQ.trans_le hlow).le⟩
    refine neverLouder_of_le (fun vol hvol => ?_) fun d' hd' hmem vol hvol => ?_
    · rcases horder with hsw | ⟨hmin, hlow⟩
      · refine (c.attenuations_le hsw hvol).2.trans ?_
        rw [hswMax]
        exact_mod_cast (sub_neg.2 hbelow).le
      · exact software_nonpos_of_lt hboth (by omega) (by omega) (by omega) (by omega) hvol
    · obtain rfl : d = d' := Option.some.inj (hd.symm.trans hd')
      obtain ⟨hsw, hkept⟩ := hnear hmem
      refine (c.attenuations_le hsw hvol).1.trans ?_
      rw [hhwMax, hswMax]
      push_cast at hkept ⊢
      linarith

theorem neverLouder_of_none {c : VolumeConfig} (hd : c.configuredMaxDb = none) :
    c.NeverLouder := by
  have hnone : c.volumeMaxDb = none := by rw [VolumeConfig.volumeMaxDb, hd, Option.map_none]
  have hquiet : ∀ {hwMaxDb swMaxDb : ℤ}, c.Maxima hwMaxDb swMaxDb → swMaxDb ≤ 0 →
      c.NeverLouder := fun hmaxima hnonpos => hmaxima.neverLouder_iff_le.2
    ⟨hnonpos, fun _ hd' => absurd (hd'.symm.trans hd) (Option.some_ne_none _)⟩
  cases hp : c.parameters with
  | none =>
      obtain ⟨hsw, hnonpos⟩ := limits_of_software hp
      exact hquiet ⟨hsw, rfl, rfl⟩ hnonpos
  | some p => exact hquiet (maxima_of_none hp hnone) le_rfl

theorem neverLouder_of_software {c : VolumeConfig} {d : ℚ} (hp : c.parameters = none)
    (hd : c.configuredMaxDb = some d) :
    c.NeverLouder ↔ (d * 100 ∈ c.mixerRange → (truncate d : ℚ) ≤ d) := by
  by_cases hmem : d * 100 ∈ c.mixerRange
  · have hrange := hmem
    rw [VolumeConfig.mixerRange, hp] at hrange
    obtain ⟨hle, hnonpos⟩ := le_truncate_of_nonpos (by linarith [hrange.2] : d ≤ 0)
    have hinside : -9630 ≤ truncate d * 100 ∧ truncate d * 100 ≤ 0 := by
      constructor
      · exact_mod_cast (hrange.1.trans (by linarith) : (-9630 : ℚ) ≤ truncate d * 100)
      · exact_mod_cast (by linarith : (truncate d : ℚ) * 100 ≤ 0)
    rw [(maxima_of_software hp (VolumeConfig.volumeMaxDb_of_some hd)
      hinside).neverLouder_iff_of_some hd]
    push_cast
    refine ⟨fun h _ => by linarith [h.2 hmem], fun h => ⟨hinside.2, fun _ => by linarith [h hmem]⟩⟩
  · obtain ⟨hsw, hnonpos⟩ := limits_of_software hp
    have hmaxima : c.Maxima c.limits.hwMaxDb c.limits.swMaxDb := ⟨hsw, rfl, rfl⟩
    rw [hmaxima.neverLouder_iff_of_some hd]
    exact iff_of_true ⟨hnonpos, fun h => absurd h hmem⟩ fun h => absurd h hmem

/-- The volume is never louder than configured exactly if the maximum is kept by the way it is
stored. -/
theorem VolumeConfig.neverLouder_iff (c : VolumeConfig) : c.NeverLouder ↔ c.MaximumKept := by
  unfold VolumeConfig.MaximumKept
  cases hd : c.configuredMaxDb with
  | none =>
      cases c.parameters with
      | none => exact iff_of_true (neverLouder_of_none hd) trivial
      | some p => exact iff_of_true (neverLouder_of_none hd) trivial
  | some d =>
      cases hp : c.parameters with
      | none => exact neverLouder_of_software hp hd
      | some p =>
          have hmax := VolumeConfig.volumeMaxDb_of_some hd
          by_cases hinside : p.minimumVolumeDb ≤ truncate d * 100 ∧
              truncate d * 100 ≤ p.maximumVolumeDb
          · simp only [if_pos hinside]
            rw [(maxima_of_inside hp hmax hinside).neverLouder_iff_of_some hd]
            simp only [Int.cast_mul, Int.cast_ofNat, Int.cast_zero, add_zero]
            exact ⟨fun h hmem => by linarith [h.2 hmem],
              fun h => ⟨le_rfl, fun hmem => by linarith [h hmem]⟩⟩
          · by_cases hrange : c.volumeRangeDb.1 = 0
            · simp only [if_neg hinside, if_neg (not_not.2 hrange)]
              rw [(maxima_of_ignored hp hmax hinside hrange).neverLouder_iff_of_some hd,
                Int.cast_zero, add_zero]
              exact ⟨fun h => h.2, fun h => ⟨le_rfl, h⟩⟩
            · simp only [if_neg hinside, if_pos hrange]
              exact neverLouder_of_moved hp hd hinside hrange

/-- A mixer from -50 dB to 0, a maximum of 10 dB and a range of 50 dB. -/
def aboveMixer : VolumeConfig where
  parameters := some ⟨-5000, 0, by decide⟩
  hasVolume := true
  mutes := false
  configuredMaxDb := some 10
  volumeRangeDb := ⟨50, by decide⟩
  ignoreVolumeControl := false
  volumeControlProfile := .standard
  volumeRangeHwPriority := false

/-- No hardware mixer, and a maximum of -3.5 dB. -/
def halfDecibel : VolumeConfig where
  parameters := none
  hasVolume := false
  mutes := false
  configuredMaxDb := some (-7 / 2)
  volumeRangeDb := ⟨0, by decide⟩
  ignoreVolumeControl := false
  volumeControlProfile := .standard
  volumeRangeHwPriority := false

/-- At the top of the scale the software mixer amplifies by 60 dB, and the volume is at -3 dB. -/
theorem not_neverLouder_aboveMixer : ¬aboveMixer.NeverLouder ∧ ¬halfDecibel.NeverLouder := by
  constructor
  · intro h
    have hsoftware : (aboveMixer.attenuations 0).software = 6000 := by decide +kernel
    have hle := h.software_le 0 zero_mem
    rw [hsoftware] at hle
    norm_num at hle
  · intro h
    have hlevel : (halfDecibel.attenuations 0).hardware + (halfDecibel.attenuations 0).software =
        -300 := by decide +kernel
    have hle := h.level_le (-7 / 2) rfl ⟨by norm_num, by norm_num⟩ 0 zero_mem
    rw [hlevel] at hle
    norm_num at hle

end Player

end ShairportSync
