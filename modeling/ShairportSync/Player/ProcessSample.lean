import ShairportSync.Numeric.Quantise
import ShairportSync.Player.Basic

/-!
# Processing a sample

`process_sample` multiplies a sample by the volume in 64 bits, adds a dither of less than one step
of the output format, and writes the upper bits in the layout of the format. A signed operation
that overflows is undefined: it has no result.
-/

namespace ShairportSync

namespace Player

open Numeric

/-! ## Formats -/

inductive SpsFormat where
  | unknown
  | s8
  | u8
  | s16
  | s16le
  | s16be
  | s24
  | s24le
  | s24be
  | s243le
  | s243be
  | s32
  | s32le
  | s32be
  | auto
  | invalid
deriving DecidableEq

/-- The resolution of an output format. The others are not for output. -/
def SpsFormat.bits : SpsFormat → Option ℕ
  | .s32 | .s32le | .s32be => some 32
  | .s24 | .s24le | .s24be | .s243le | .s243be => some 24
  | .s16 | .s16le | .s16be => some 16
  | .s8 | .u8 => some 8
  | .unknown | .auto | .invalid => none

/-! ## Arithmetic in 64 bits -/

/-- The result of a signed operation, if it does not overflow. -/
def int64 (n : ℤ) : Option ℤ := if -2 ^ 63 ≤ n ∧ n < 2 ^ 63 then some n else none

def int64Max : ℤ := 2 ^ 63 - 1

def int64Min : ℤ := -2 ^ 63

/-- The sample multiplied by the volume, unless this has been done already. -/
def hyperSample (loudness : Bool) (sample : BitVec 32) (volume : ℤ) : Option ℤ :=
  if loudness then int64 (sample.toInt * 2 ^ 32)
  else do
    let hyperVolume ← int64 (volume * 2 ^ 16)
    int64 (sample.toInt * hyperVolume)

def ditherMask (bits : ℕ) : BitVec 64 := (1 <<< (64 - bits)) - 1

def tpdf (bits : ℕ) (r previousRandomNumber : BitVec 64) : Option ℤ :=
  int64 ((r &&& ditherMask bits).toInt - (previousRandomNumber &&& ditherMask bits).toInt)

/-- "add dither, allowing for clipping" -/
def addDither (hyperSample tpdf : ℤ) : Option ℤ :=
  if 0 ≤ tpdf then do
    let room ← int64 (int64Max - tpdf)
    if hyperSample ≤ room then int64 (hyperSample + tpdf) else some int64Max
  else do
    let room ← int64 (int64Min - tpdf)
    if room ≤ hyperSample then int64 (hyperSample + tpdf) else some int64Min

/-! ## Layouts -/

/-- `(uint8_t)(hyper_sample >> shift)` -/
def byt (hyperSample : ℤ) (shift : ℕ) : BitVec 8 := BitVec.ofInt 8 (hyperSample >>> shift)

def hostBytes (bigEndian : Bool) (size : ℕ) (n : ℤ) : Bytes :=
  if bigEndian then (leBytes size n).reverse else leBytes size n

def SpsFormat.output (bigEndian : Bool) (hyperSample : ℤ) : SpsFormat → Option Bytes
  | .s32le =>
      let h := hyperSample >>> (64 - 32 : ℕ)
      some [byt h 0, byt h 8, byt h 16, byt h 24]
  | .s32be =>
      let h := hyperSample >>> (64 - 32 : ℕ)
      some [byt h 24, byt h 16, byt h 8, byt h 0]
  | .s32 => some (hostBytes bigEndian 4 (hyperSample >>> (64 - 32 : ℕ)))
  | .s243le =>
      let h := hyperSample >>> (64 - 24 : ℕ)
      some [byt h 0, byt h 8, byt h 16]
  | .s243be =>
      let h := hyperSample >>> (64 - 24 : ℕ)
      some [byt h 16, byt h 8, byt h 0]
  | .s24le =>
      let h := hyperSample >>> (64 - 24 : ℕ)
      some [byt h 0, byt h 8, byt h 16, 0]
  | .s24be =>
      let h := hyperSample >>> (64 - 24 : ℕ)
      some [0, byt h 16, byt h 8, byt h 0]
  | .s24 => some (hostBytes bigEndian 4 (hyperSample >>> (64 - 24 : ℕ)))
  | .s16le =>
      let h := hyperSample >>> (64 - 16 : ℕ)
      some [byt h 0, byt h 8]
  | .s16be =>
      let h := hyperSample >>> (64 - 16 : ℕ)
      some [byt h 8, byt h 0]
  | .s16 => some (hostBytes bigEndian 2 (hyperSample >>> (64 - 16 : ℕ)))
  | .s8 => some [byt (hyperSample >>> (64 - 8 : ℕ)) 0]
  | .u8 => (int64 (hyperSample >>> (64 - 8 : ℕ) + 128)).map fun h => [byt h 0]
  | .unknown | .auto | .invalid => none

/-- `process_sample`, with the random number and the one before it if there is to be dither. It has
no result if an operation overflows, or if it dies of the format. -/
def processSample (bigEndian loudness : Bool) (format : SpsFormat) (volume : ℤ)
    (random : Option (BitVec 64 × BitVec 64)) (sample : BitVec 32) : Option Bytes := do
  let scaled ← hyperSample loudness sample volume
  let dithered ←
    match random with
    | none => some scaled
    | some (r, previousRandomNumber) => do
        let bits ← format.bits
        let tpdf ← tpdf bits r previousRandomNumber
        addDither scaled tpdf
  format.output bigEndian dithered

/-! ## What the bytes say -/

def SpsFormat.decode (bigEndian : Bool) : SpsFormat → Bytes → Option ℤ
  | .s32le, [a, b, c, d] => some (signedValue [a, b, c, d])
  | .s32be, [a, b, c, d] => some (signedValue [d, c, b, a])
  | .s32, [a, b, c, d] => some (signedValue (if bigEndian then [d, c, b, a] else [a, b, c, d]))
  | .s243le, [a, b, c] => some (signedValue [a, b, c])
  | .s243be, [a, b, c] => some (signedValue [c, b, a])
  | .s24le, [a, b, c, d] => if d = 0 then some (signedValue [a, b, c]) else none
  | .s24be, [a, b, c, d] => if a = 0 then some (signedValue [d, c, b]) else none
  | .s24, [a, b, c, d] => some (signedValue (if bigEndian then [d, c, b, a] else [a, b, c, d]))
  | .s16le, [a, b] => some (signedValue [a, b])
  | .s16be, [a, b] => some (signedValue [b, a])
  | .s16, [a, b] => some (signedValue (if bigEndian then [b, a] else [a, b]))
  | .s8, [a] => some (signedValue [a])
  | .u8, [a] => some (leValue [a] - 128)
  | _, _ => none

/-! ## What is written can be read -/

section Output

variable {bigEndian : Bool} {format : SpsFormat} {bits : ℕ} {h : ℤ}

theorem byt_eq (h : ℤ) (shift : ℕ) : byt h shift = BitVec.ofInt 8 (h / 2 ^ shift) := by
  rw [byt, Int.shiftRight_eq_div_pow]
  norm_cast

theorem leBytes_one (h : ℤ) : leBytes 1 h = [byt h 0] := by
  simp [leBytes, byt_eq]

theorem leBytes_two (h : ℤ) : leBytes 2 h = [byt h 0, byt h 8] := by
  simp [leBytes, byt_eq]

theorem leBytes_three (h : ℤ) : leBytes 3 h = [byt h 0, byt h 8, byt h 16] := by
  simp [leBytes, byt_eq, Int.ediv_ediv_of_nonneg]

theorem leBytes_four (h : ℤ) : leBytes 4 h = [byt h 0, byt h 8, byt h 16, byt h 24] := by
  simp [leBytes, byt_eq, Int.ediv_ediv_of_nonneg]

/-- The layouts with a byte for each eight bits, in the order of the format or of the host. -/
theorem decode_layout_32 (bigEndian : Bool) {v : ℤ} (hlo : -2 ^ 31 ≤ v) (hhi : v < 2 ^ 31) :
    SpsFormat.s32le.decode bigEndian [byt v 0, byt v 8, byt v 16, byt v 24] = some v ∧
    SpsFormat.s32be.decode bigEndian [byt v 24, byt v 16, byt v 8, byt v 0] = some v ∧
    SpsFormat.s32.decode bigEndian (hostBytes bigEndian 4 v) = some v ∧
    SpsFormat.s24.decode bigEndian (hostBytes bigEndian 4 v) = some v := by
  have hvalue : signedValue [byt v 0, byt v 8, byt v 16, byt v 24] = v := by
    rw [← leBytes_four]
    exact signedValue_leBytes (by omega) (by omega)
  rw [hostBytes, leBytes_four]
  cases bigEndian <;>
    exact ⟨congrArg some hvalue, congrArg some hvalue, congrArg some hvalue, congrArg some hvalue⟩

theorem decode_layout_24 (bigEndian : Bool) {v : ℤ} (hlo : -2 ^ 23 ≤ v) (hhi : v < 2 ^ 23) :
    SpsFormat.s243le.decode bigEndian [byt v 0, byt v 8, byt v 16] = some v ∧
    SpsFormat.s243be.decode bigEndian [byt v 16, byt v 8, byt v 0] = some v ∧
    SpsFormat.s24le.decode bigEndian [byt v 0, byt v 8, byt v 16, 0] = some v ∧
    SpsFormat.s24be.decode bigEndian [0, byt v 16, byt v 8, byt v 0] = some v := by
  have hvalue : signedValue [byt v 0, byt v 8, byt v 16] = v := by
    rw [← leBytes_three]
    exact signedValue_leBytes (by omega) (by omega)
  exact ⟨congrArg some hvalue, congrArg some hvalue, congrArg some hvalue, congrArg some hvalue⟩

theorem decode_layout_16 (bigEndian : Bool) {v : ℤ} (hlo : -2 ^ 15 ≤ v) (hhi : v < 2 ^ 15) :
    SpsFormat.s16le.decode bigEndian [byt v 0, byt v 8] = some v ∧
    SpsFormat.s16be.decode bigEndian [byt v 8, byt v 0] = some v ∧
    SpsFormat.s16.decode bigEndian (hostBytes bigEndian 2 v) = some v := by
  have hvalue : signedValue [byt v 0, byt v 8] = v := by
    rw [← leBytes_two]
    exact signedValue_leBytes (by omega) (by omega)
  rw [hostBytes, leBytes_two]
  cases bigEndian <;> exact ⟨congrArg some hvalue, congrArg some hvalue, congrArg some hvalue⟩

theorem decode_layout_8 (bigEndian : Bool) {v : ℤ} (hlo : -2 ^ 7 ≤ v) (hhi : v < 2 ^ 7) :
    SpsFormat.s8.decode bigEndian [byt v 0] = some v ∧
    SpsFormat.u8.decode bigEndian [byt (v + 128) 0] = some v := by
  have hvalue : signedValue [byt v 0] = v := by
    rw [← leBytes_one]
    exact signedValue_leBytes (by omega) (by omega)
  have hoffset : leValue [byt (v + 128) 0] - 128 = v := by
    rw [← leBytes_one, leValue_leBytes]
    omega
  exact ⟨congrArg some hvalue, congrArg some hoffset⟩

/-- The number that an output format holds is its upper bits. -/
theorem SpsFormat.decode_output (bigEndian : Bool) (hbits : format.bits = some bits)
    (hlo : int64Min ≤ h) (hhi : h ≤ int64Max) :
    ∃ bytes, format.output bigEndian h = some bytes ∧
      format.decode bigEndian bytes = some (h / 2 ^ (64 - bits)) := by
  have hshift : ∀ k : ℕ, h >>> k = h / 2 ^ k := fun k => by
    rw [Int.shiftRight_eq_div_pow]
    norm_cast
  simp only [int64Min, int64Max] at hlo hhi
  have h32 := @decode_layout_32 bigEndian (h / 2 ^ (64 - 32)) (by omega) (by omega)
  have hlo24 : -2 ^ 23 ≤ h / 2 ^ (64 - 24) := by omega
  have hhi24 : h / 2 ^ (64 - 24) < 2 ^ 23 := by omega
  have h24 := decode_layout_24 bigEndian hlo24 hhi24
  have h24Host := @decode_layout_32 bigEndian (h / 2 ^ (64 - 24)) (by omega) (by omega)
  have h16 := @decode_layout_16 bigEndian (h / 2 ^ (64 - 16)) (by omega) (by omega)
  have hlo8 : -2 ^ 7 ≤ h / 2 ^ (64 - 8) := by omega
  have hhi8 : h / 2 ^ (64 - 8) < 2 ^ 7 := by omega
  have h8 := decode_layout_8 bigEndian hlo8 hhi8
  cases format <;> cases hbits <;> simp only [SpsFormat.output, hshift]
  case s32 => exact ⟨_, rfl, h32.2.2.1⟩
  case s32le => exact ⟨_, rfl, h32.1⟩
  case s32be => exact ⟨_, rfl, h32.2.1⟩
  case s24 => exact ⟨_, rfl, h24Host.2.2.2⟩
  case s24le => exact ⟨_, rfl, h24.2.2.1⟩
  case s24be => exact ⟨_, rfl, h24.2.2.2⟩
  case s243le => exact ⟨_, rfl, h24.1⟩
  case s243be => exact ⟨_, rfl, h24.2.1⟩
  case s16 => exact ⟨_, rfl, h16.2.2⟩
  case s16le => exact ⟨_, rfl, h16.1⟩
  case s16be => exact ⟨_, rfl, h16.2.1⟩
  case s8 => exact ⟨_, rfl, h8.1⟩
  case u8 =>
    rw [int64, if_pos (by omega)]
    exact ⟨_, rfl, h8.2⟩

end Output

/-! ## Volume and dither -/

section Dither

variable {bits : ℕ} {format : SpsFormat}

theorem SpsFormat.bits_mem (h : format.bits = some bits) : bits ∈ [8, 16, 24, 32] := by
  cases format <;> cases h <;> decide

theorem unused_le (h : bits ∈ [8, 16, 24, 32]) : 64 - bits ≤ 56 := by
  simp only [List.mem_cons, List.not_mem_nil, or_false] at h
  omega

/-- At full volume the product just fits. -/
theorem hyperSample_eq (sample : BitVec 32) {volume : ℤ} (hlo : 0 ≤ volume)
    (hhi : volume ≤ 0x10000) :
    hyperSample false sample volume = some (sample.toInt * volume * 2 ^ 16) ∧
      int64Min ≤ sample.toInt * volume * 2 ^ 16 ∧ sample.toInt * volume * 2 ^ 16 ≤ int64Max := by
  have hmin : -2 ^ 31 ≤ sample.toInt := BitVec.le_toInt sample
  have hmax : sample.toInt < 2 ^ 31 := BitVec.toInt_lt
  have hproductMin : -2 ^ 31 * 2 ^ 16 ≤ sample.toInt * volume := by nlinarith
  have hproductMax : sample.toInt * volume ≤ (2 ^ 31 - 1) * 2 ^ 16 := by nlinarith
  have hassoc : sample.toInt * (volume * 2 ^ 16) = sample.toInt * volume * 2 ^ 16 := by ring
  refine ⟨?_, ?_, ?_⟩
  · rw [hyperSample, if_neg Bool.false_ne_true, int64, if_pos (by omega)]
    simp only [Option.bind_eq_bind, Option.bind_some, hassoc]
    rw [int64, if_pos (by omega)]
  · simp only [int64Min]
    omega
  · simp only [int64Max]
    omega

theorem toInt_and_ditherMask (h : bits ∈ [8, 16, 24, 32]) (r : BitVec 64) :
    (r &&& ditherMask bits).toInt = (r.toNat % 2 ^ (64 - bits) : ℕ) := by
  have hmask : (ditherMask bits).toNat = 2 ^ (64 - bits) - 1 := by
    simp only [List.mem_cons, List.not_mem_nil, or_false] at h
    rcases h with rfl | rfl | rfl | rfl <;> decide
  have hsmall : 2 ^ (64 - bits) ≤ 2 ^ 56 := Nat.pow_le_pow_right (by decide) (unused_le h)
  have hpos : 0 < 2 ^ (64 - bits) := Nat.two_pow_pos _
  have hlt := Nat.mod_lt r.toNat hpos
  have htoNat : (r &&& ditherMask bits).toNat = r.toNat % 2 ^ (64 - bits) := by
    rw [BitVec.toNat_and, hmask, Nat.and_two_pow_sub_one_eq_mod]
  rw [BitVec.toInt_eq_toNat_of_lt (by omega), htoNat]

theorem tpdf_eq (h : bits ∈ [8, 16, 24, 32]) (r previousRandomNumber : BitVec 64) :
    ∃ t : ℤ, tpdf bits r previousRandomNumber = some t ∧ |t| < 2 ^ (64 - bits) ∧
      t = (r.toNat % 2 ^ (64 - bits) : ℕ) - (previousRandomNumber.toNat % 2 ^ (64 - bits) : ℕ) := by
  have hpos : 0 < 2 ^ (64 - bits) := Nat.two_pow_pos _
  have hsmall : 2 ^ (64 - bits) ≤ 2 ^ 56 := Nat.pow_le_pow_right (by decide) (unused_le h)
  have hr := Nat.mod_lt r.toNat hpos
  have hp := Nat.mod_lt previousRandomNumber.toNat hpos
  have hcast : ((2 ^ (64 - bits) : ℕ) : ℤ) = 2 ^ (64 - bits) := by norm_cast
  refine ⟨_, ?_, ?_, rfl⟩
  · rw [tpdf, toInt_and_ditherMask h, toInt_and_ditherMask h, int64, if_pos (by omega)]
  · rw [← hcast, abs_lt]
    omega

theorem addDither_eq {h t : ℤ} (hlo : int64Min ≤ h) (hhi : h ≤ int64Max) (ht : |t| < 2 ^ 56) :
    addDither h t = some (saturate int64Min int64Max (h + t)) := by
  obtain ⟨hneg, hpos⟩ := abs_lt.mp ht
  have hlimits : int64Min ≤ int64Max := by decide
  rw [addDither]
  split
  · next hsign =>
    rw [int64, if_pos (by simp only [int64Max]; omega)]
    simp only [Option.bind_eq_bind, Option.bind_some]
    split
    · next hroom =>
      rw [saturate_of_mem (by omega) (by omega), int64,
        if_pos (by simp only [int64Min, int64Max] at *; omega)]
    · next hroom => rw [saturate_of_lt hlimits (by omega)]
  · next hsign =>
    rw [int64, if_pos (by simp only [int64Min]; omega)]
    simp only [Option.bind_eq_bind, Option.bind_some]
    split
    · next hroom =>
      rw [saturate_of_mem (by omega) (by omega), int64,
        if_pos (by simp only [int64Min, int64Max] at *; omega)]
    · next hroom => rw [saturate_of_gt hlimits (by omega)]

/-- A sample with dither is in 64 bits. -/
theorem exists_addDither {h : ℤ} (hmem : bits ∈ [8, 16, 24, 32])
    (r previousRandomNumber : BitVec 64) (hlo : int64Min ≤ h) (hhi : h ≤ int64Max) :
    ∃ dithered, ((tpdf bits r previousRandomNumber).bind fun t => addDither h t) = some dithered ∧
      int64Min ≤ dithered ∧ dithered ≤ int64Max := by
  obtain ⟨t, htpdf, hsmall, -⟩ := tpdf_eq hmem r previousRandomNumber
  have hstep : (2 : ℤ) ^ (64 - bits) ≤ 2 ^ 56 := pow_le_pow_right₀ (by decide) (unused_le hmem)
  rw [htpdf, Option.bind_some]
  exact ⟨_, addDither_eq hlo hhi (hsmall.trans_le hstep), le_max_left _ _,
    max_le (by decide) (min_le_left _ _)⟩

theorem limits_ediv (h : bits ∈ [8, 16, 24, 32]) :
    int64Min / 2 ^ (64 - bits) = -2 ^ (bits - 1) ∧
      int64Max / 2 ^ (64 - bits) = 2 ^ (bits - 1) - 1 := by
  simp only [List.mem_cons, List.not_mem_nil, or_false] at h
  rcases h with rfl | rfl | rfl | rfl <;> decide

def quantised (bits : ℕ) (sample : BitVec 32) (volume : ℤ) : ℤ :=
  sample.toInt * volume / 2 ^ (48 - bits)

theorem ediv_eq_quantised (h : bits ∈ [8, 16, 24, 32]) (sample : BitVec 32) (volume : ℤ) :
    sample.toInt * volume * 2 ^ 16 / 2 ^ (64 - bits) = quantised bits sample volume := by
  have hpow : (2 : ℤ) ^ (64 - bits) = 2 ^ (48 - bits) * 2 ^ 16 := by
    simp only [List.mem_cons, List.not_mem_nil, or_false] at h
    rw [← pow_add]
    congr 1
    omega
  rw [hpow, Int.mul_ediv_mul_of_pos_left _ _ (by decide), quantised]

/-- No operation overflows. Without dither the bytes hold the quantised sample. With dither they
hold what is off by at most one, and is cut off at the limits of the format. -/
theorem processSample_decode (bigEndian : Bool) (hbits : format.bits = some bits)
    (sample : BitVec 32) {volume : ℤ} (hlo : 0 ≤ volume) (hhi : volume ≤ 0x10000) :
    (∃ bytes, processSample bigEndian false format volume none sample = some bytes ∧
      format.decode bigEndian bytes = some (quantised bits sample volume)) ∧
    ∀ r previousRandomNumber : BitVec 64, ∃ bytes dithered,
      processSample bigEndian false format volume (some (r, previousRandomNumber)) sample =
        some bytes ∧
      format.decode bigEndian bytes = some dithered ∧
      |dithered - quantised bits sample volume| ≤ 1 ∧
      dithered = saturate (-2 ^ (bits - 1)) (2 ^ (bits - 1) - 1)
        ((sample.toInt * volume * 2 ^ 16 + ((r.toNat % 2 ^ (64 - bits) : ℕ) -
          (previousRandomNumber.toNat % 2 ^ (64 - bits) : ℕ))) / 2 ^ (64 - bits)) := by
  have hmem := SpsFormat.bits_mem hbits
  have hstep : (0 : ℤ) < 2 ^ (64 - bits) := pow_pos (by decide) _
  obtain ⟨hscaled, hmin, hmax⟩ := hyperSample_eq sample hlo hhi
  have hquantised := ediv_eq_quantised hmem sample volume
  refine ⟨?_, fun r previousRandomNumber => ?_⟩
  · obtain ⟨bytes, houtput, hdecode⟩ := SpsFormat.decode_output bigEndian hbits hmin hmax
    refine ⟨bytes, ?_, by rw [hdecode, hquantised]⟩
    rw [processSample, hscaled]
    exact houtput
  · obtain ⟨t, htpdf, hsmall, ht⟩ := tpdf_eq hmem r previousRandomNumber
    have hlimits := limits_ediv hmem
    have hdither := addDither_eq hmin hmax
      (hsmall.trans_le (pow_le_pow_right₀ (by decide) (unused_le hmem)))
    obtain ⟨bytes, houtput, hdecode⟩ := SpsFormat.decode_output bigEndian hbits
      (le_max_left int64Min (min int64Max (sample.toInt * volume * 2 ^ 16 + t)))
      (max_le (by decide) (min_le_left _ _))
    refine ⟨bytes, _, ?_, hdecode, ?_, ?_⟩
    · rw [processSample, hscaled]
      simp only [Option.bind_eq_bind, Option.bind_some, hbits, htpdf, hdither]
      exact houtput
    · rw [← hquantised]
      exact abs_saturate_ediv_sub_le hstep hsmall hmin hmax
    · rw [← ht, ← hlimits.1, ← hlimits.2]
      exact saturate_ediv hstep _ _ _

theorem processSample_decode_full :
    ∃ bytes, processSample false false .s24le 0x10000 none (BitVec.intMin 32) = some bytes ∧
      SpsFormat.s24le.decode false bytes = some (quantised 24 (BitVec.intMin 32) 0x10000) :=
  (processSample_decode false rfl (BitVec.intMin 32) (by decide) (by decide)).1

end Dither

end Player

end ShairportSync
