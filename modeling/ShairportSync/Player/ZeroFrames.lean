import ShairportSync.Player.StuffBuffer

/-!
# Silence

`generate_zero_frames` has a dither and layouts of its own. What it writes is what
`process_sample` writes for samples that are zero. It draws a random number for each sample, also
where there is to be no dither.
-/

namespace ShairportSync

namespace Player

open Numeric

/-! ## The code -/

/-- What `generate_zero_frames` writes for a sample. -/
def SpsFormat.zeroOutput (bigEndian : Bool) (hyperSample : ℤ) : SpsFormat → Option Bytes
  | .s32 => some (hostBytes bigEndian 4 (hyperSample >>> (64 - 32 : ℕ)))
  | .s32le =>
      some [byt hyperSample (64 - 32), byt hyperSample (64 - 32 + 8),
        byt hyperSample (64 - 32 + 16), byt hyperSample (64 - 32 + 24)]
  | .s32be =>
      some [byt hyperSample (64 - 32 + 24), byt hyperSample (64 - 32 + 16),
        byt hyperSample (64 - 32 + 8), byt hyperSample (64 - 32)]
  | .s243le =>
      some [byt hyperSample (64 - 24), byt hyperSample (64 - 24 + 8),
        byt hyperSample (64 - 24 + 16)]
  | .s243be =>
      some [byt hyperSample (64 - 24 + 16), byt hyperSample (64 - 24 + 8),
        byt hyperSample (64 - 24)]
  | .s24 => some (hostBytes bigEndian 4 (hyperSample >>> (64 - 24 : ℕ)))
  | .s24le =>
      some [byt hyperSample (64 - 24), byt hyperSample (64 - 24 + 8),
        byt hyperSample (64 - 24 + 16), 0]
  | .s24be =>
      some [0, byt hyperSample (64 - 24 + 16), byt hyperSample (64 - 24 + 8),
        byt hyperSample (64 - 24)]
  | .s16le => some [byt hyperSample (64 - 16), byt hyperSample (64 - 16 + 8)]
  | .s16be => some [byt hyperSample (64 - 16 + 8), byt hyperSample (64 - 16)]
  | .s16 => some (hostBytes bigEndian 2 (hyperSample >>> (64 - 16 : ℕ)))
  | .s8 => some [byt hyperSample (64 - 8)]
  | .u8 => some [128 + byt hyperSample (64 - 8)]
  | .unknown | .auto | .invalid => none

section Code

variable (bigEndian : Bool) (format : SpsFormat) (withDither : Bool)

/-- The loop over so many samples. The random number is drawn in any case. -/
def zeroSamples (bits : ℕ) : ℕ → Noise → Option (Bytes × Noise)
  | 0, noise => some ([], noise)
  | n + 1, noise => do
      let tpdf ← tpdf bits noise.draws.head noise.previousRandomNumber
      let hyperSample ← if withDither then int64 (0 + tpdf) else some 0
      let first ← format.zeroOutput bigEndian hyperSample
      let rest ← zeroSamples bits n noise.next
      some (first ++ rest.1, rest.2)

/-- `generate_zero_frames`, with the random number that it returns. It has no result if it dies of
the format. -/
def generateZeroFrames (numberOfFrames : ℕ) (noise : Noise) : Option (Bytes × BitVec 64) := do
  let bits ← format.bits
  let written ← zeroSamples bigEndian format withDither bits (numberOfFrames * 2) noise
  some (written.1, written.2.previousRandomNumber)

end Code

/-! ## The same layouts -/

section Layouts

variable {bigEndian : Bool} {format : SpsFormat} {bits : ℕ} {h : ℤ}

theorem byt_shiftRight (h : ℤ) (a b : ℕ) : byt (h >>> a) b = byt h (a + b) := by
  rw [byt, byt, Int.shiftRight_add]

theorem byt_add_offset (h : ℤ) : byt (h + 128) 0 = 128 + byt h 0 := by
  rw [byt, byt, Int.shiftRight_zero, Int.shiftRight_zero, BitVec.ofInt_add, BitVec.add_comm]
  rfl

theorem SpsFormat.zeroOutput_eq (hlo : int64Min ≤ h) (hhi : h ≤ int64Max) :
    format.zeroOutput bigEndian h = format.output bigEndian h := by
  cases format with
  | u8 =>
      have hshift : h >>> (64 - 8 : ℕ) = h / 2 ^ 56 := by
        rw [Int.shiftRight_eq_div_pow]
        norm_cast
      simp only [int64Min, int64Max] at hlo hhi
      have hfits : -2 ^ 63 ≤ h / 2 ^ 56 + 128 ∧ h / 2 ^ 56 + 128 < 2 ^ 63 := by omega
      rw [zeroOutput, output, hshift, int64, if_pos hfits, Option.map_some, byt_add_offset,
        ← hshift, byt_shiftRight]
  | _ => simp only [zeroOutput, output, byt_shiftRight, Nat.add_zero]

end Layouts

/-! ## The same samples -/

section Samples

variable {format : SpsFormat} {bits : ℕ}

theorem hyperSample_zero (loudness : Bool) {volume : ℤ} (hlo : 0 ≤ volume)
    (hhi : volume ≤ 0x10000) : hyperSample loudness 0 volume = some 0 := by
  cases loudness with
  | true => rfl
  | false =>
      obtain ⟨heq, -⟩ := hyperSample_eq 0 hlo hhi
      have hzero : (0 : BitVec 32).toInt = 0 := by decide
      rw [heq, hzero, Int.zero_mul, Int.zero_mul]

theorem addDither_zero (hmem : bits ∈ [8, 16, 24, 32]) {t : ℤ} (ht : |t| < 2 ^ (64 - bits)) :
    addDither 0 t = some t ∧ int64Min ≤ t ∧ t ≤ int64Max := by
  have hsmall : |t| < 2 ^ 56 := ht.trans_le (pow_le_pow_right₀ (by decide) (unused_le hmem))
  obtain ⟨hlo, hhi⟩ := abs_lt.mp hsmall
  have hmin : int64Min ≤ t := by
    simp only [int64Min]
    omega
  have hmax : t ≤ int64Max := by
    simp only [int64Max]
    omega
  rw [addDither_eq (by decide) (by decide) hsmall, Int.zero_add, saturate_of_mem hmin hmax]
  exact ⟨rfl, hmin, hmax⟩

theorem processSample_zero_of_dither (bigEndian loudness : Bool) (hbits : format.bits = some bits)
    {volume : ℤ} (hlo : 0 ≤ volume) (hhi : volume ≤ 0x10000) {r previous : BitVec 64} {t : ℤ}
    (htpdf : tpdf bits r previous = some t) (ht : |t| < 2 ^ (64 - bits)) :
    processSample bigEndian loudness format volume (some (r, previous)) 0 =
      format.zeroOutput bigEndian t := by
  obtain ⟨hdither, hmin, hmax⟩ := addDither_zero (SpsFormat.bits_mem hbits) ht
  rw [processSample, hyperSample_zero loudness hlo hhi, SpsFormat.zeroOutput_eq hmin hmax]
  simp only [Option.bind_eq_bind, Option.bind_some, hbits, htpdf, hdither]

theorem processSample_zero (bigEndian loudness : Bool) {volume : ℤ} (hlo : 0 ≤ volume)
    (hhi : volume ≤ 0x10000) :
    processSample bigEndian loudness format volume none 0 = format.zeroOutput bigEndian 0 := by
  rw [processSample, hyperSample_zero loudness hlo hhi,
    SpsFormat.zeroOutput_eq (by decide) (by decide)]
  rfl

/-- With dither, as many samples of silence are written with the same random numbers. -/
theorem zeroSamples_of_dither (out : SampleOutput) (hdither : out.dither = true)
    (hbits : out.format.bits = some bits) (n : ℕ) (noise : Noise) :
    zeroSamples out.bigEndian out.format true bits n noise =
      out.processAll noise (List.replicate n 0) := by
  induction n generalizing noise with
  | zero => rfl
  | succ n ih =>
      obtain ⟨t, htpdf, ht, -⟩ :=
        tpdf_eq (SpsFormat.bits_mem hbits) noise.draws.head noise.previousRandomNumber
      obtain ⟨-, hmin, hmax⟩ := addDither_zero (SpsFormat.bits_mem hbits) ht
      have hsum : int64 (0 + t) = some t := by
        simp only [int64Min, int64Max] at hmin hmax
        rw [int64, if_pos (by omega), Int.zero_add]
      have hprocess := processSample_zero_of_dither out.bigEndian out.loudness hbits
        out.volume_nonneg out.volume_le htpdf ht
      rw [zeroSamples, List.replicate_succ, SampleOutput.processAll, SampleOutput.process,
        if_pos hdither, hprocess, htpdf]
      simp only [Option.bind_eq_bind, Option.bind_some, if_true, hsum, ih, Option.bind_map,
        Function.comp_def]

/-- Without dither, the random numbers do not come into it. -/
theorem zeroSamples_of_not_dither (out : SampleOutput) (hdither : out.dither = false)
    (hbits : out.format.bits = some bits) (n : ℕ) (noise others : Noise) :
    ∃ bytes final, zeroSamples out.bigEndian out.format false bits n noise = some (bytes, final) ∧
      out.processAll others (List.replicate n 0) = some (bytes, others) := by
  induction n generalizing noise with
  | zero => exact ⟨[], noise, rfl, rfl⟩
  | succ n ih =>
      obtain ⟨rest, final, hrest, hprocessRest⟩ := ih noise.next
      obtain ⟨t, htpdf, -, -⟩ :=
        tpdf_eq (SpsFormat.bits_mem hbits) noise.draws.head noise.previousRandomNumber
      have hprocess := @processSample_zero out.format out.bigEndian out.loudness out.volume
        out.volume_nonneg out.volume_le
      obtain ⟨first, hfirst, -⟩ := exists_processSample out.bigEndian out.loudness hbits none 0
        out.volume_nonneg out.volume_le
      have hsample : out.process others 0 = some (first, others) := by
        rw [SampleOutput.process, hdither, if_neg Bool.false_ne_true, hfirst, Option.map_some]
      refine ⟨first ++ rest, final, ?_, SampleOutput.processAll_cons hsample hprocessRest⟩
      rw [zeroSamples, htpdf]
      simp only [Option.bind_eq_bind, Option.bind_some, Bool.false_eq_true, if_false, ← hprocess,
        hfirst, hrest]

/-- The bytes are those of as many calls of `process_sample` on silence. With dither the random
number that is returned is the one they end with. Without dither any other random numbers will do.
-/
theorem generateZeroFrames_eq (out : SampleOutput) (numberOfFrames : ℕ) (noise : Noise) :
    ∃ bytes final,
      generateZeroFrames out.bigEndian out.format out.dither numberOfFrames noise =
        some (bytes, final) ∧
      if out.dither then
        ∃ left, out.processAll noise (List.replicate (2 * numberOfFrames) 0) = some (bytes, left) ∧
          left.previousRandomNumber = final
      else
        ∀ others, out.processAll others (List.replicate (2 * numberOfFrames) 0) =
          some (bytes, others) := by
  obtain ⟨bits, hbits⟩ := Option.isSome_iff_exists.mp out.isSome_bits
  rw [generateZeroFrames, hbits, Option.bind_eq_bind, Option.bind_some, Nat.mul_comm]
  cases hdither : out.dither with
  | true =>
      obtain ⟨written, hwritten, -⟩ :=
        out.exists_processAll noise (List.replicate (2 * numberOfFrames) 0)
      rw [zeroSamples_of_dither out hdither hbits, hwritten]
      exact ⟨written.1, _, rfl, written.2, rfl, rfl⟩
  | false =>
      obtain ⟨bytes, final, hzero, -⟩ :=
        zeroSamples_of_not_dither out hdither hbits (2 * numberOfFrames) noise noise
      rw [hzero]
      refine ⟨bytes, final.previousRandomNumber, rfl, fun others => ?_⟩
      obtain ⟨bytes', final', hzero', hall⟩ :=
        zeroSamples_of_not_dither out hdither hbits (2 * numberOfFrames) noise others
      cases hzero.symm.trans hzero'
      exact hall

end Samples

end Player

end ShairportSync
