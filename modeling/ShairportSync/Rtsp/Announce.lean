import ShairportSync.Rtsp.Handlers
import ShairportSync.Rtsp.Message

/-!
# The format a client announces

The content of an ANNOUNCE is text, and the format of the audio is in two kinds of its lines:
`a=rtpmap:` for uncompressed CD audio, and `a=fmtp:` with up to twelve numbers for Apple Lossless.
The numbers are read with `atoi` and stored as they are; "here we should check the sanity of the
fmtp values". The player divides by them and allocates its buffers with them.
-/

namespace ShairportSync

namespace Rtsp

open Player (Bytes)

/-! ## The content -/

def attributeValue (name : String) (line : Bytes) : Option Bytes :=
  if (ascii name).isPrefixOf line then some (line.drop (ascii name).length) else none

/-- The loop over the lines of the content, `fuel` of them at most. The last line may have no end.
-/
def contentLines : ℕ → Bytes → List Bytes
  | 0, _ => []
  | _ + 1, [] => []
  | fuel + 1, b :: content =>
      match nextline (b :: content) with
      | none => [cString (b :: content)]
      | some (line, next) => cString line :: contentLines fuel next

/-- What follows the name in the last of the lines that start with it; there are no more lines than
bytes. -/
def lastAttribute (name : String) (content : Bytes) : Option Bytes :=
  ((contentLines content.length content).filterMap (attributeValue name)).getLast?

/-- `strsep` with a space and a tab: the token, and what is left if there is a delimiter behind it.
-/
def strsep : Bytes → Bytes × Option Bytes
  | [] => ([], none)
  | b :: s =>
      if b = 32 ∨ b = 9 then ([], some s)
      else (b :: (strsep s).1, (strsep s).2)

/-- The loop that reads the numbers of `a=fmtp:`, of which there is room for this many. -/
def fmtpNumbers : ℕ → Option Bytes → List (BitVec 32)
  | 0, _ => []
  | _ + 1, none => []
  | room + 1, some pfmtp =>
      BitVec.ofInt 32 (atoi (strsep pfmtp).1) :: fmtpNumbers room (strsep pfmtp).2

/-- What `handle_announce` finds in the content. -/
def announceContent (base64Dec rsaApply : Bytes → Bytes) (content : Bytes) : AnnounceContent where
  uncompressedCDAudio := (lastAttribute "a=rtpmap:96 L16/44100/2" content).isSome
  minLatency := (lastAttribute "a=min-latency:" content).map fun s => BitVec.ofInt 32 (atoi s)
  maxLatency := (lastAttribute "a=max-latency:" content).map fun s => BitVec.ofInt 32 (atoi s)
  aesiv := (lastAttribute "a=aesiv:" content).map base64Dec
  aeskey := (lastAttribute "a=rsaaeskey:" content).map fun s => rsaApply (base64Dec s)
  fmtp := (lastAttribute "a=fmtp:" content).map fun s => fmtpNumbers 12 (some s)

/-! ## What the player does with the format -/

inductive OutputFormat where
  | unknown
  | s8
  | u8
  | s16
  | s16LE
  | s16BE
  | s24
  | s24LE
  | s24BE
  | s24ThreeLE
  | s24ThreeBE
  | s32
  | s32LE
  | s32BE
  | auto
  | invalid
deriving DecidableEq

structure OutputConfig where
  outputRate : BitVec 32
  outputFormat : OutputFormat
deriving DecidableEq

def OutputConfig.outputBytesPerFrame (out : OutputConfig) : BitVec 32 :=
  match out.outputFormat with
  | .s24ThreeLE | .s24ThreeBE => 6
  | .s24 | .s24LE | .s24BE | .s32 | .s32LE | .s32BE => 8
  | _ => 4

/-- A quotient of unsigned numbers, if the divisor is not zero. -/
def quotient {w : ℕ} (a b : BitVec w) : Option (BitVec w) := if b = 0 then none else some (a / b)

/-- The division in `player_put_packet`. -/
def OwnFields.latencyTime (own : OwnFields) (latency : BitVec 32) : Option (BitVec 64) :=
  quotient (latency.setWidth 64 * 1000000000) (own.inputRate.setWidth 64)

/-- What `audio_packet_decode` takes for the size of a packet when it is decoded: a product of two
`int`s. -/
def OwnFields.outsize (own : OwnFields) : Int :=
  own.inputBytesPerFrame.toInt * own.maxFramesPerPacket.toInt

/-- The number of frames after `audio_packet_decode`, where the decoder replies with this many
bytes, unless it dies. -/
def OwnFields.audioPacketDecode (own : OwnFields) (decoded : Int) : Option Int :=
  if own.inputBytesPerFrame ≠ 0 then some (decoded.tdiv own.inputBytesPerFrame.toInt) else none

/-- `bytespersample` of the decoder, in `alac_create`. -/
def OwnFields.bytespersample (own : OwnFields) : Int :=
  own.inputBitDepth.toInt.tdiv 8 * own.inputNumChannels.toInt

/-- `setinfo_sample_size` of the decoder. -/
def OwnFields.sampleSize (own : OwnFields) : BitVec 8 := own.inputBitDepth.setWidth 8

/-- `setinfo_rice_kmodifier` of the decoder. -/
def OwnFields.riceKmodifier (own : OwnFields) : BitVec 8 := (own.stream.fmtp.getD 6 0).setWidth 8

def OwnFields.outputSampleRatio (own : OwnFields) (out : OutputConfig) : Option (BitVec 32) :=
  quotient out.outputRate own.inputRate

def sourceFramesToDrop (outputSampleRatio : BitVec 32) (syncError : Int) : Option Int :=
  if outputSampleRatio = 0 then none else some (syncError.tdiv outputSampleRatio.toInt)

/-- The sizes of the buffers of the player as they are allocated, and the bytes they are to hold:
those of `init_buffer`, into which the decoder may write what `audio_packet_decode` expects of it,
those of `alac_allocate_buffers`, the transition and the output buffer, and silence. -/
def OwnFields.bufferSizes (own : OwnFields) (out : OutputConfig) (ratio : BitVec 32) :
    List (BitVec 64 × Int) :=
  let frames := own.maxFramesPerPacket
  let bytes := out.outputBytesPerFrame
  [((8 * frames).setWidth 64, own.outsize),
    ((frames * 4).setWidth 64, (frames.toNat * 4 : ℕ)),
    (8 * (frames * ratio + ratio).setWidth 64,
      (8 * (frames.toNat * ratio.toNat + ratio.toNat) : ℕ)),
    ((bytes * (frames * ratio + ratio)).setWidth 64,
      (bytes.toNat * (frames.toNat * ratio.toNat + ratio.toNat) : ℕ)),
    ((bytes * frames * ratio).setWidth 64, (bytes.toNat * frames.toNat * ratio.toNat : ℕ))]

/-- A size that is an `int` and not negative. -/
def IsSize (n : Int) : Prop := 0 ≤ n ∧ n < 2 ^ 31

instance (n : Int) : Decidable (IsSize n) := inferInstanceAs (Decidable (_ ∧ _))

/-- The player can play the stream: the decoder has this kind of samples and its shifts are defined,
the player reads the frames as they are and does not die of them, nothing is divided by zero, and no
size is negative, or less than what the buffer is to hold. -/
structure Playable (out : OutputConfig) (own : OwnFields) : Prop where
  inputRate : 0 < own.inputRate
  maxFramesPerPacket : 0 < own.maxFramesPerPacket
  inputBytesPerFrame : 0 < own.inputBytesPerFrame.toInt
  /-- The player reads a left and a right sample of every frame. -/
  inputNumChannels : own.inputNumChannels = 2
  /-- "Shairport Sync only supports 16 or 32 bit input" -/
  inputBitDepth : own.inputBitDepth = 16 ∨ own.inputBitDepth = 32
  /-- Others are an "unimplemented sample size". -/
  sampleSize : own.stream.type = .astAppleLossless → own.sampleSize = 16 ∨ own.sampleSize = 24
  /-- `1 << setinfo_rice_kmodifier` is an `int`. -/
  riceKmodifier : own.stream.type = .astAppleLossless → own.riceKmodifier.toNat < 31
  latencyTime : ∀ latency, own.latencyTime latency ≠ none
  audioPacketDecode : ∀ decoded, own.audioPacketDecode decoded ≠ none
  outsize : IsSize own.outsize
  bytespersample : own.stream.type = .astAppleLossless → IsSize own.bytespersample
  outputSampleRatio : ∃ ratio, own.outputSampleRatio out = some ratio ∧
    (∀ syncError, sourceFramesToDrop ratio syncError ≠ none) ∧
    ∀ size ∈ own.bufferSizes out ratio, size.2 ≤ size.1.toNat

/-! ## The numbers that are announced -/

/-- The numbers that make the format of the input of the player, and the one that the decoder
shifts by, if the stream is Apple Lossless. -/
structure InputFormat where
  maxFramesPerPacket : BitVec 32
  inputRate : BitVec 32
  inputNumChannels : BitVec 32
  inputBitDepth : BitVec 32
  riceKmodifier : Option (BitVec 8)
deriving DecidableEq

def AnnounceContent.inputFormat (content : AnnounceContent) : InputFormat :=
  match content.fmtp with
  | none => ⟨352, 44100, 2, 16, none⟩
  | some fmtp =>
      let fmtp := fmtp.take 12 ++ defaultFmtp.drop fmtp.length
      ⟨fmtp.getD 1 0, fmtp.getD 11 0, fmtp.getD 7 0, fmtp.getD 3 0,
        some ((fmtp.getD 6 0).setWidth 8)⟩

/-- The sanity of the values: the rate is not zero and not more than that of the output, frames have
two samples of 16 bits, the decoder can shift by the number it is given, packets have frames, and
they fit into the sizes of the decoder and of the buffers. -/
structure InputFormat.Sane (out : OutputConfig) (format : InputFormat) : Prop where
  inputRate_pos : 0 < format.inputRate.toNat
  inputRate_le : format.inputRate.toNat ≤ out.outputRate.toNat
  inputBitDepth : format.inputBitDepth = 16
  inputNumChannels : format.inputNumChannels = 2
  riceKmodifier_lt : ∀ k ∈ format.riceKmodifier, k.toNat < 31
  maxFramesPerPacket_pos : 0 < format.maxFramesPerPacket.toNat
  maxFramesPerPacket_lt : format.maxFramesPerPacket.toNat < 2 ^ 29
  output_lt : out.outputBytesPerFrame.toNat * ((format.maxFramesPerPacket.toNat + 1) *
    (out.outputRate.toNat / format.inputRate.toNat)) < 2 ^ 32

structure OwnFields.HasFormat (own : OwnFields) (format : InputFormat) : Prop where
  maxFramesPerPacket : own.maxFramesPerPacket = format.maxFramesPerPacket
  inputRate : own.inputRate = format.inputRate
  inputNumChannels : own.inputNumChannels = format.inputNumChannels
  inputBitDepth : own.inputBitDepth = format.inputBitDepth
  inputBytesPerFrame :
    own.inputBytesPerFrame = format.inputNumChannels * ((format.inputBitDepth + 7) / 8)
  riceKmodifier : format.riceKmodifier =
    if own.stream.type = .astAppleLossless then some own.riceKmodifier else none

section Announce

variable {cfg : Config} {content : AnnounceContent} {own : OwnFields}

theorem announceKeys_eq (h : (announceKeys content own).1 = 200) :
    ∃ stream : StreamCfg, stream.type = own.stream.type ∧
      announceKeys content own = announceFormat content { own with stream := stream } := by
  have hcode : (456 : ℕ) ≠ 200 := by decide
  unfold announceKeys at h ⊢
  revert h
  rcases content.aesiv with _ | aesiv <;> rcases content.aeskey with _ | aeskey <;> intro h
  · exact ⟨{ own.stream with encrypted := false }, rfl, rfl⟩
  · exact absurd h hcode
  · exact absurd h hcode
  · dsimp only at h ⊢
    split_ifs at h ⊢ with haesiv haeskey
    · exact absurd h hcode
    · exact absurd h hcode
    · exact ⟨{ own.stream with encrypted := true, aesiv := aesiv, aeskey := aeskey }, rfl, rfl⟩

/-- The type of the stream before the numbers are looked at, and the format of CD audio. -/
theorem announceStart_spec (cfg : Config) (content : AnnounceContent) (own : OwnFields) :
    (content.uncompressedCDAudio = false →
      (announceStart cfg content own).stream.type = .astUnknown) ∧
    (content.uncompressedCDAudio = true →
      (announceStart cfg content own).stream.type = .astUncompressed ∧
        (announceStart cfg content own).HasFormat ⟨352, 44100, 2, 16, none⟩) := by
  unfold announceStart
  constructor
  · intro hcd
    rw [hcd]
    rfl
  · intro hcd
    rw [hcd]
    exact ⟨rfl, rfl, rfl, rfl, rfl, rfl, rfl⟩

theorem hasFormat_setAlac (fmtp : List (BitVec 32)) (own : OwnFields) :
    (own.setAlac fmtp).HasFormat ⟨fmtp.getD 1 0, fmtp.getD 11 0, fmtp.getD 7 0, fmtp.getD 3 0,
      some ((fmtp.getD 6 0).setWidth 8)⟩ :=
  ⟨rfl, rfl, rfl, rfl, rfl, rfl⟩

theorem hasFormat_announce (h : (announce cfg content own).1 = 200) :
    (announce cfg content own).2.HasFormat content.inputFormat ∧
      ((announce cfg content own).2.stream.type = .astAppleLossless ↔ content.fmtp ≠ none) := by
  obtain ⟨stream, htype, hkeys⟩ := announceKeys_eq h
  rw [announce, hkeys, announceFormat] at h
  rw [announce, hkeys, announceFormat, AnnounceContent.inputFormat]
  obtain ⟨hunknown, hcd⟩ := announceStart_spec cfg content own
  cases hfmtp : content.fmtp with
  | none =>
      rw [hfmtp] at h
      dsimp only at h ⊢
      rw [htype] at h ⊢
      split_ifs at h ⊢ with hcode
      · exact absurd h (by decide : (456 : ℕ) ≠ 200)
      · obtain ⟨huncompressed, hformat⟩ := hcd (Bool.eq_true_of_not_eq_false fun hfalse =>
          hcode (hunknown hfalse))
        have hother : stream.type ≠ .astAppleLossless := by
          rw [htype, huncompressed]
          exact StreamType.noConfusion
        exact ⟨⟨hformat.1, hformat.2, hformat.3, hformat.4, hformat.5, (if_neg hother).symm⟩,
          fun halac => absurd halac hother, fun hne => absurd rfl hne⟩
  | some fmtp =>
      dsimp only
      rw [if_neg (by exact StreamType.noConfusion)]
      exact ⟨hasFormat_setAlac _ _, fun _ => Option.some_ne_none _, fun _ => rfl⟩

end Announce

/-! ## Sizes -/

section Sizes

variable {out : OutputConfig} {format : InputFormat} {own : OwnFields} {a b ratio : BitVec 32}

theorem quotient_eq_some {w : ℕ} {a b c : BitVec w} :
    quotient a b = some c ↔ b ≠ 0 ∧ c = a / b := by
  rw [quotient]
  split_ifs with hb
  · exact ⟨False.elim, fun h => absurd hb h.1⟩
  · exact ⟨fun h => ⟨hb, (Option.some.inj h).symm⟩, fun h => congrArg some h.2.symm⟩

theorem toNat_pos_of_ne (h : a ≠ 0) : 0 < a.toNat := by
  rcases Nat.eq_zero_or_pos a.toNat with hzero | hpos
  · exact absurd (BitVec.eq_of_toNat_eq hzero) h
  · exact hpos

theorem le_toNat_setWidth_mul {n : ℕ} (h : a.toNat * b.toNat = n) :
    n ≤ ((a * b).setWidth 64).toNat ↔ n < 2 ^ 32 := by
  rw [BitVec.toNat_setWidth, BitVec.toNat_mul, h]
  omega

theorem outputBytesPerFrame_mem (out : OutputConfig) :
    4 ≤ out.outputBytesPerFrame.toNat ∧ out.outputBytesPerFrame.toNat ≤ 8 := by
  rw [OutputConfig.outputBytesPerFrame]
  split <;> decide

theorem toNat_mul_add (a b : BitVec 32) :
    (a * b + b).toNat = (a.toNat + 1) * b.toNat % 2 ^ 32 := by
  rw [BitVec.toNat_add, BitVec.toNat_mul, Nat.mod_add_mod, Nat.succ_mul]

theorem isSize_outsize_iff (h : own.inputBytesPerFrame = 4) :
    IsSize own.outsize ↔ own.maxFramesPerPacket.toNat < 2 ^ 29 := by
  have hfour : (4 : BitVec 32).toInt = 4 := by decide
  have hlt := own.maxFramesPerPacket.isLt
  rw [IsSize, OwnFields.outsize, h, hfour, BitVec.toInt_eq_toNat_cond]
  split_ifs <;> omega

/-- The buffers hold what they are to hold. -/
theorem bufferSizes_iff (h : own.inputBytesPerFrame = 4)
    (hframes : own.maxFramesPerPacket.toNat < 2 ^ 29) :
    (∀ size ∈ own.bufferSizes out ratio, size.2 ≤ size.1.toNat) ↔
      out.outputBytesPerFrame.toNat * ((own.maxFramesPerPacket.toNat + 1) * ratio.toNat) <
        2 ^ 32 := by
  have haudio : own.outsize ≤ ((8 * own.maxFramesPerPacket).setWidth 64).toNat := by
    have hfour : (4 : BitVec 32).toInt = 4 := by decide
    have height : (8 : BitVec 32).toNat = 8 := rfl
    rw [OwnFields.outsize, h, hfour, BitVec.toInt_eq_toNat_of_lt (by omega), BitVec.toNat_setWidth,
      BitVec.toNat_mul, height]
    omega
  have halac :
      own.maxFramesPerPacket.toNat * 4 ≤ ((own.maxFramesPerPacket * 4).setWidth 64).toNat := by
    have hfour : (4 : BitVec 32).toNat = 4 := rfl
    rw [BitVec.toNat_setWidth, BitVec.toNat_mul, hfour]
    omega
  have hbytes := (outputBytesPerFrame_mem out).1
  have hmod := toNat_mul_add own.maxFramesPerPacket ratio
  simp only [OwnFields.bufferSizes, List.forall_mem_cons, List.not_mem_nil, false_imp_iff,
    implies_true, and_true, haudio, halac, true_and, Nat.cast_le, ← Nat.add_one_mul]
  constructor
  · rintro ⟨-, hout, -⟩
    rw [BitVec.toNat_setWidth, BitVec.toNat_mul] at hout
    omega
  · intro hout
    have hfit : (own.maxFramesPerPacket.toNat + 1) * ratio.toNat < 2 ^ 32 :=
      (Nat.le_mul_of_pos_left _ (by omega)).trans_lt hout
    rw [Nat.mod_eq_of_lt hfit] at hmod
    refine ⟨?_, ?_, ?_⟩
    · have height : (8 : BitVec 64).toNat = 8 := rfl
      rw [BitVec.toNat_mul, BitVec.toNat_setWidth, hmod, height]
      omega
    · exact (le_toNat_setWidth_mul (by rw [hmod])).mpr hout
    · have hle : out.outputBytesPerFrame.toNat * own.maxFramesPerPacket.toNat * ratio.toNat ≤
          out.outputBytesPerFrame.toNat * ((own.maxFramesPerPacket.toNat + 1) * ratio.toNat) := by
        rw [Nat.mul_assoc]
        exact Nat.mul_le_mul_left _ (Nat.mul_le_mul_right _ (Nat.le_succ _))
      rw [BitVec.toNat_setWidth, BitVec.toNat_mul, BitVec.toNat_mul, Nat.mod_mul_mod]
      omega

theorem ratio_pos_iff : 0 < (a / b).toNat ↔ 0 < b.toNat ∧ b.toNat ≤ a.toNat := by
  rw [BitVec.toNat_udiv, Nat.div_pos_iff]

theorem Playable.inputBitDepth_eq (h : Playable out own) (hformat : own.HasFormat format)
    (htype : own.stream.type = .astAppleLossless ∨ format = ⟨352, 44100, 2, 16, none⟩) :
    own.inputBitDepth = 16 := by
  rcases htype with halac | rfl
  · rcases h.inputBitDepth with hdepth | hdepth
    · exact hdepth
    · have hsize := h.sampleSize halac
      rw [OwnFields.sampleSize, hdepth] at hsize
      exact absurd hsize (by decide)
  · exact hformat.inputBitDepth

theorem Playable.sane (h : Playable out own) (hformat : own.HasFormat format)
    (htype : own.stream.type = .astAppleLossless ∨ format = ⟨352, 44100, 2, 16, none⟩) :
    format.Sane out := by
  have hdepth : format.inputBitDepth = 16 :=
    hformat.inputBitDepth.symm.trans (h.inputBitDepth_eq hformat htype)
  have hchannels : format.inputNumChannels = 2 :=
    hformat.inputNumChannels.symm.trans h.inputNumChannels
  have hbytes : own.inputBytesPerFrame = 4 := by
    rw [hformat.inputBytesPerFrame, hchannels, hdepth]
    decide
  have hframes := (isSize_outsize_iff hbytes).mp h.outsize
  obtain ⟨ratio, hratio, hdrop, hsizes⟩ := h.outputSampleRatio
  rw [OwnFields.outputSampleRatio, quotient_eq_some, hformat.inputRate] at hratio
  obtain ⟨-, rfl⟩ := hratio
  have hpos : 0 < (out.outputRate / format.inputRate).toNat := by
    refine toNat_pos_of_ne fun hzero => hdrop 0 ?_
    rw [sourceFramesToDrop, if_pos hzero]
  obtain ⟨hrate, hrateLe⟩ := ratio_pos_iff.mp hpos
  have hout := (bufferSizes_iff hbytes hframes).mp hsizes
  have hframesPos := h.maxFramesPerPacket
  rw [hformat.maxFramesPerPacket] at hframes hout hframesPos
  rw [BitVec.toNat_udiv] at hout
  rw [BitVec.lt_def] at hframesPos
  refine ⟨hrate, hrateLe, hdepth, hchannels, fun k hk => ?_, hframesPos, hframes, hout⟩
  rw [hformat.riceKmodifier, Option.mem_def] at hk
  split_ifs at hk with halac
  cases hk
  exact h.riceKmodifier halac

theorem InputFormat.Sane.playable (h : format.Sane out) (hformat : own.HasFormat format) :
    Playable out own := by
  have hdepth : own.inputBitDepth = 16 := hformat.inputBitDepth.trans h.inputBitDepth
  have hchannels : own.inputNumChannels = 2 := hformat.inputNumChannels.trans h.inputNumChannels
  have hbytes : own.inputBytesPerFrame = 4 := by
    rw [hformat.inputBytesPerFrame, h.inputNumChannels, h.inputBitDepth]
    decide
  have hframes : own.maxFramesPerPacket.toNat < 2 ^ 29 := by
    rw [hformat.maxFramesPerPacket]
    exact h.maxFramesPerPacket_lt
  have hratio := ratio_pos_iff.mpr ⟨h.inputRate_pos, h.inputRate_le⟩
  have hrate : own.inputRate ≠ 0 := by
    intro hzero
    have hpos := h.inputRate_pos
    rw [← hformat.inputRate, hzero] at hpos
    exact absurd hpos (by decide)
  constructor
  · rw [hformat.inputRate, BitVec.lt_def]
    exact h.inputRate_pos
  · rw [hformat.maxFramesPerPacket, BitVec.lt_def]
    exact h.maxFramesPerPacket_pos
  · rw [hbytes]
    decide
  · exact hchannels
  · exact Or.inl hdepth
  · intro _
    rw [OwnFields.sampleSize, hdepth]
    decide
  · intro halac
    refine h.riceKmodifier_lt _ ?_
    rw [hformat.riceKmodifier, if_pos halac]
    rfl
  · intro latency
    have hwide : own.inputRate.setWidth 64 ≠ 0 := by
      intro hzero
      have hnat := congrArg BitVec.toNat hzero
      rw [BitVec.toNat_setWidth_of_le (by decide)] at hnat
      exact hrate (BitVec.eq_of_toNat_eq hnat)
    rw [OwnFields.latencyTime, quotient, if_neg hwide]
    exact Option.some_ne_none _
  · intro decoded
    rw [OwnFields.audioPacketDecode, hbytes, if_pos (by decide)]
    exact Option.some_ne_none _
  · exact (isSize_outsize_iff hbytes).mpr hframes
  · intro _
    rw [OwnFields.bytespersample, hdepth, hchannels]
    decide
  · refine ⟨out.outputRate / own.inputRate, quotient_eq_some.mpr ⟨hrate, rfl⟩, fun syncError => ?_,
      (bufferSizes_iff hbytes hframes).mpr ?_⟩
    · have hne : out.outputRate / own.inputRate ≠ 0 := by
        intro hzero
        rw [← hformat.inputRate, hzero] at hratio
        exact absurd hratio (by decide)
      rw [sourceFramesToDrop, if_neg hne]
      exact Option.some_ne_none _
    · rw [hformat.maxFramesPerPacket, hformat.inputRate, BitVec.toNat_udiv]
      exact h.output_lt

end Sizes

/-- What is answered with 200 can be played exactly if the values that are announced are sane. -/
theorem playable_announce_iff (cfg : Config) (out : OutputConfig)
    (base64Dec rsaApply : Bytes → Bytes) (content : Bytes) (own : OwnFields)
    (h : (announce cfg (announceContent base64Dec rsaApply content) own).1 = 200) :
    Playable out (announce cfg (announceContent base64Dec rsaApply content) own).2 ↔
      (announceContent base64Dec rsaApply content).inputFormat.Sane out := by
  obtain ⟨hformat, htype⟩ := hasFormat_announce h
  refine ⟨fun hplayable => hplayable.sane hformat ?_, fun hsane => hsane.playable hformat⟩
  rcases hfmtp : (announceContent base64Dec rsaApply content).fmtp with _ | fmtp
  · refine Or.inr ?_
    rw [AnnounceContent.inputFormat, hfmtp]
  · refine Or.inl (htype.mpr ?_)
    rw [hfmtp]
    exact Option.some_ne_none _

/-- A connection to which nothing has been announced. -/
def OwnFields.unannounced : OwnFields :=
  ⟨.conversing, .ap1, .unspecifiedStreamCategory, false, ⟨.astUnknown, false, [], [], []⟩,
    0, 0, 0, 0, 4, 0, 0⟩

theorem playable_announce_iff_usual :
    Playable ⟨44100, .s16⟩ (announce ⟨false, false⟩ (announceContent id id
      (ascii "a=fmtp:96 352 0 16 40 10 14 2 255 0 0 44100\n")) .unannounced).2 :=
  (playable_announce_iff ⟨false, false⟩ ⟨44100, .s16⟩ id id
    (ascii "a=fmtp:96 352 0 16 40 10 14 2 255 0 0 44100\n") .unannounced (by decide +kernel)).mpr
    ⟨by decide +kernel, by decide +kernel, by decide +kernel, by decide +kernel, by decide +kernel,
      by decide +kernel, by decide +kernel, by decide +kernel⟩

/-- The last of the numbers, the rate, is 0: the ANNOUNCE is answered with 200. -/
theorem not_playable_of_zero_rate :
    (announce ⟨false, false⟩ (announceContent id id
      (ascii "a=fmtp:96 352 0 16 40 10 14 2 255 0 0 0\n")) .unannounced).1 = 200 ∧
    ¬ Playable ⟨44100, .s16⟩ (announce ⟨false, false⟩ (announceContent id id
      (ascii "a=fmtp:96 352 0 16 40 10 14 2 255 0 0 0\n")) .unannounced).2 := by
  refine ⟨by decide +kernel, fun h => ?_⟩
  exact absurd h.inputRate (by decide +kernel)

end Rtsp

end ShairportSync
