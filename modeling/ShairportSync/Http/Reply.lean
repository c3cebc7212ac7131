import ShairportSync.Http.Header

/-!
# Replies

A header and a body, which is as long as the header says or comes in chunks. The parser gets from
them the code and the body that were sent. If the header says neither then the parser reads on for
as long as there is anything.
-/

namespace ShairportSync

namespace Http

open Numeric
open Player (Bytes)

def isHex (ch : BitVec 8) : Bool := (hexValue ch).isSome

def hexNumber (digits : Bytes) : ℕ :=
  Nat.ofDigits 16 (digits.reverse.map fun ch => (hexValue ch).getD 0)

structure Chunk where
  size : Bytes
  data : Bytes
  size_hex : ∀ ch ∈ size, isHex ch
  hexNumber_size : hexNumber size = data.length
  data_ne_nil : data ≠ []
  data_lt : data.length < 2 ^ 31

def Chunk.bytes (chunk : Chunk) : Bytes := chunk.size ++ crlf ++ (chunk.data ++ crlf)

/-- The body is sent as these bytes, after this header: in chunks, the last of which has the size
zero, or as it is if the header has its length. -/
def Sent (head : Head) (body sent : Bytes) : Prop :=
  if head.chunked then
    ∃ (chunks : List Chunk) (size : Bytes), size ≠ [] ∧ (∀ ch ∈ size, ch = 48) ∧
      body = chunks.flatMap Chunk.data ∧
        sent = chunks.flatMap Chunk.bytes ++ (size ++ crlf ++ crlf)
  else
    sent = body ∧ ∃ digits, head.length = some digits ∧ (∀ ch ∈ digits, isDigit ch) ∧
      decimalNumber digits = body.length ∧ body.length + 48 < 2 ^ 31

/-! ## Chunks -/

theorem hexNumber_append_singleton (digits : Bytes) (ch : BitVec 8) :
    hexNumber (digits ++ [ch]) = hexNumber digits * 16 + (hexValue ch).getD 0 := by
  simp only [hexNumber, List.reverse_append, List.reverse_cons, List.reverse_nil,
    List.nil_append, List.singleton_append, List.map_cons, Nat.ofDigits_cons]
  ring

def inChunkHeader (p : Parser) (state : ℕ) (size : ℤ) : Parser :=
  { p with rt := { p.rt with parsestate := state, stage := .chunkHeader size } }

theorem byte_inChunkHeader_more {p : Parser} {state state' : ℕ} {size size' : ℤ} {ch : BitVec 8}
    (h : httpParseChunked state size ch = (.more size', state')) :
    (inChunkHeader p state size).byte ch = inChunkHeader p state' size' := by
  simp only [Parser.byte, inChunkHeader, Parser.chunkHeaderChar, h]

theorem chunkColumn_of_isHex {ch : BitVec 8} (h : isHex ch) : chunkColumn ch = 3 := by
  have hlf : ch ≠ 10 := by rintro rfl; exact absurd h (by decide)
  have hcr : ch ≠ 13 := by rintro rfl; exact absurd h (by decide)
  rw [chunkColumn, if_neg hlf, if_neg hcr, if_pos (show (hexValue ch).isSome from h)]

theorem httpParseChunked_first (size : ℤ) {ch : BitVec 8} (h : isHex ch) :
    httpParseChunked 0 size ch = (.more ((hexValue ch).getD 0), 1) := by
  simp only [httpParseChunked, chunkColumn_of_isHex h]
  rfl

theorem httpParseChunked_next (size : ℤ) {ch : BitVec 8} (h : isHex ch) :
    httpParseChunked 1 size ch =
      (.more (signed 32 (size * 16 + ((hexValue ch).getD 0 : ℕ))), 1) := by
  have hentry : httpChunkState.getD (1 * 4 + 3) 0xC1 = 0x81 := rfl
  simp only [httpParseChunked, chunkColumn_of_isHex h, hentry]

theorem hexValue_lt (ch : BitVec 8) : (hexValue ch).getD 0 < 16 := by
  revert ch
  decide

theorem foldl_size_signed (p : Parser) (n : ℤ) {size : Bytes} (hne : size ≠ [])
    (h : ∀ ch ∈ size, isHex ch) :
    size.foldl Parser.byte (inChunkHeader p 0 n) =
      inChunkHeader p 1 (signed 32 (hexNumber size)) := by
  induction size using List.reverseRecOn with
  | nil => exact absurd rfl hne
  | append_singleton size ch ih =>
      have hch := h ch (by simp)
      rw [List.foldl_append, List.foldl_cons, List.foldl_nil, hexNumber_append_singleton]
      by_cases hsize : size = []
      · subst hsize
        have hlt := hexValue_lt ch
        have hword : signed 32 ((hexNumber [] * 16 + (hexValue ch).getD 0 : ℕ) : ℤ) =
            ((hexValue ch).getD 0 : ℕ) := by
          simp only [hexNumber, List.reverse_nil, List.map_nil, Nat.ofDigits_nil, zero_mul,
            zero_add]
          exact signed_of_range (w := 31) ⟨by omega, by omega⟩
        rw [List.foldl_nil, byte_inChunkHeader_more (httpParseChunked_first n hch), hword]
      · rw [ih hsize fun ch' hch' => h ch' (List.mem_append_left _ hch'),
          byte_inChunkHeader_more (httpParseChunked_next _ hch), signed_mul_add, Nat.cast_add,
          Nat.cast_mul, Nat.cast_ofNat]

theorem foldl_size (p : Parser) (n : ℤ) {size : Bytes} (hne : size ≠ [])
    (h : ∀ ch ∈ size, isHex ch) (hlt : hexNumber size < 2 ^ 31) :
    size.foldl Parser.byte (inChunkHeader p 0 n) = inChunkHeader p 1 (hexNumber size) := by
  have hword : signed 32 (hexNumber size : ℤ) = hexNumber size :=
    signed_of_range (w := 31) ⟨by omega, by exact_mod_cast hlt⟩
  rw [foldl_size_signed p n hne h, hword]

theorem sizeCr (size : ℤ) : httpParseChunked 1 size 13 = (.more size, 2) := rfl

theorem sizeLf {size : ℤ} (h : 0 < size) : httpParseChunked 2 size 10 = (.ended size, 3) :=
  congrArg (·, 3) (if_neg h.ne')

theorem lastLf : httpParseChunked 2 0 10 = (.more 0, 3) := rfl

theorem dataCr (size : ℤ) : httpParseChunked 3 size 13 = (.more size, 4) := rfl

theorem dataLf : httpParseChunked 4 1 10 = (.more 1, 0) := rfl

theorem endLf : httpParseChunked 4 0 10 = (.ended 0, 0) := rfl

theorem foldl_crlf_size (p : Parser) {size : ℕ} (h : 0 < size) :
    crlf.foldl Parser.byte (inChunkHeader p 1 size) =
      { p with rt := { p.rt with parsestate := 3, stage := .chunkData ⟨size, h⟩ } } := by
  have hpos : (0 : ℤ) < size := by omega
  have hone : (size : ℤ) ≠ -1 := by omega
  rw [crlf, List.foldl_cons, byte_inChunkHeader_more (sizeCr _), List.foldl_cons, List.foldl_nil]
  simp only [Parser.byte, inChunkHeader, Parser.chunkHeaderChar, sizeLf hpos, hone, hpos.ne', hpos,
    if_false, dif_pos, Int.toNat_natCast]

theorem foldl_crlf_last (p : Parser) :
    crlf.foldl Parser.byte (inChunkHeader p 1 0) = inChunkHeader p 3 0 := by
  rw [crlf, List.foldl_cons, byte_inChunkHeader_more (sizeCr _), List.foldl_cons,
    byte_inChunkHeader_more lastLf, List.foldl_nil]

theorem foldl_crlf_data (p : Parser) :
    crlf.foldl Parser.byte (inChunkHeader p 3 1) = inChunkHeader p 0 1 := by
  rw [crlf, List.foldl_cons, byte_inChunkHeader_more (dataCr _), List.foldl_cons,
    byte_inChunkHeader_more dataLf, List.foldl_nil]

theorem foldl_crlf_end (p : Parser) :
    crlf.foldl Parser.byte (inChunkHeader p 3 0) =
      { p with rt := { p.rt with parsestate := 0, stage := .close } } := by
  rw [crlf, List.foldl_cons, byte_inChunkHeader_more (dataCr _), List.foldl_cons, List.foldl_nil]
  have hone : (0 : ℤ) ≠ -1 := by decide
  simp only [Parser.byte, inChunkHeader, Parser.chunkHeaderChar, endLf, hone, if_false, if_true]

theorem foldl_data (p : Parser) {size : ℕ} (h : 0 < size) {data : Bytes}
    (hsize : size = data.length) :
    data.foldl Parser.byte
        { p with rt := { p.rt with parsestate := 3, stage := .chunkData ⟨size, h⟩ } } =
      inChunkHeader (p.appendBody data .close) 3 1 := by
  rw [Parser.foldl_byte_part Parser.byte_chunkData data _ ⟨size, h⟩ rfl
    (List.ne_nil_of_length_pos (hsize ▸ h)) hsize.ge]
  simp only [hsize, Nat.sub_self, Parser.left_zero]
  rfl

theorem foldl_chunk (p : Parser) (n : ℤ) (chunk : Chunk) :
    chunk.bytes.foldl Parser.byte (inChunkHeader p 0 n) =
      inChunkHeader (p.appendBody chunk.data .close) 0 1 := by
  have hpos : 0 < hexNumber chunk.size := by
    rw [chunk.hexNumber_size]
    exact List.length_pos_of_ne_nil chunk.data_ne_nil
  have hne : chunk.size ≠ [] := by
    intro h
    rw [h] at hpos
    exact absurd hpos (by decide)
  have hlt : hexNumber chunk.size < 2 ^ 31 := chunk.hexNumber_size.trans_lt chunk.data_lt
  rw [Chunk.bytes, List.foldl_append, List.foldl_append, List.foldl_append,
    foldl_size p n hne chunk.size_hex hlt, foldl_crlf_size p hpos,
    foldl_data p hpos chunk.hexNumber_size, foldl_crlf_data]

theorem foldl_chunks (p : Parser) (n : ℤ) (chunks : List Chunk) :
    ∃ m, (chunks.flatMap Chunk.bytes).foldl Parser.byte (inChunkHeader p 0 n) =
      inChunkHeader (p.appendBody (chunks.flatMap Chunk.data) .close) 0 m := by
  induction chunks generalizing p n with
  | nil =>
      refine ⟨n, ?_⟩
      simp only [List.flatMap_nil, List.foldl_nil, Parser.appendBody, List.append_nil]
      rfl
  | cons chunk chunks ih =>
      obtain ⟨m, hm⟩ := ih (p.appendBody chunk.data .close) 1
      refine ⟨m, ?_⟩
      rw [List.flatMap_cons, List.flatMap_cons, List.foldl_append, foldl_chunk, hm,
        Parser.appendBody_appendBody]

theorem hexNumber_zeros {size : Bytes} (h : ∀ ch ∈ size, ch = 48) : hexNumber size = 0 := by
  induction size using List.reverseRecOn with
  | nil => rfl
  | append_singleton size ch ih =>
      rw [hexNumber_append_singleton, ih fun ch' hch' => h ch' (List.mem_append_left _ hch'),
        h ch (by simp)]
      rfl

/-- The last chunk has no data. -/
theorem foldl_last (p : Parser) (n : ℤ) {size : Bytes} (hne : size ≠ [])
    (h : ∀ ch ∈ size, ch = 48) :
    (size ++ crlf ++ crlf).foldl Parser.byte (inChunkHeader p 0 n) =
      { p with rt := { p.rt with parsestate := 0, stage := .close } } := by
  have hhex : ∀ ch ∈ size, isHex ch := fun ch hch => by rw [h ch hch]; decide
  rw [List.foldl_append, List.foldl_append, foldl_size p n hne hhex (hexNumber_zeros h ▸ by decide),
    hexNumber_zeros h, Nat.cast_zero, foldl_crlf_last, foldl_crlf_end]

theorem foldl_crlf_negative (p : Parser) {size : ℤ} (h : size < -1) :
    (crlf.foldl Parser.byte (inChunkHeader p 1 size)).rt.stage = .negativeData := by
  have hone : size ≠ -1 := by omega
  have hzero : size ≠ 0 := by omega
  have hpos : ¬0 < size := by omega
  have hended : httpParseChunked 2 size 10 = (.ended size, 3) := congrArg (·, 3) (if_neg hzero)
  rw [crlf, List.foldl_cons, byte_inChunkHeader_more (sizeCr _), List.foldl_cons, List.foldl_nil]
  simp only [Parser.byte, inChunkHeader, Parser.chunkHeaderChar, hended, hone, hzero, hpos,
    if_false, dif_neg, not_false_eq_true]

theorem foldl_negative (p : Parser) (n : ℤ) {size : Bytes} (hne : size ≠ [])
    (h : ∀ ch ∈ size, isHex ch) (hneg : signed 32 (hexNumber size) < -1) (ch : BitVec 8) :
    ((size ++ crlf ++ [ch]).foldl Parser.byte (inChunkHeader p 0 n)).rt.stage = .crashed := by
  have hline := foldl_crlf_negative p hneg
  rw [← foldl_size_signed p n hne h, ← List.foldl_append] at hline
  rw [List.foldl_append, List.foldl_cons, List.foldl_nil, Parser.byte]
  simp only [hline, Parser.crash]

/-! ## The whole reply -/

theorem atBody_of_chunked (code : ℤ) {framing : ℤ × Bool} (h : framing.2 = true) :
    atBody code framing = inChunkHeader (atBody code framing) 0 0 := by
  simp only [atBody, inChunkHeader, HttpRoundtripper.bodyStage, h, ne_eq, not_true_eq_false,
    if_false, if_true]

theorem atBody_stage (code : ℤ) {framing : ℤ × Bool} (h : framing.2 = false) :
    (atBody code framing).rt.stage =
      if framing.1 = 0 then .close
      else if hpos : 0 < framing.1 then .rawData ⟨framing.1.toNat, by omega⟩
      else if framing.1 = -1 then .unknownData
      else .error := by
  simp only [atBody, HttpRoundtripper.bodyStage, h, ne_eq, not_true_eq_false, if_false,
    Bool.false_eq_true]

/-- A body that is sent as it is -/
theorem foldl_body (code : ℤ) {framing : ℤ × Bool} (h : framing.2 = false) {body : Bytes}
    (hlength : framing.1 = body.length) :
    (body.foldl Parser.byte (atBody code framing)).rt.stage = .close ∧
      (body.foldl Parser.byte (atBody code framing)).response = ⟨code, body⟩ := by
  have hstage := atBody_stage code h
  by_cases hbody : body = []
  · subst hbody
    rw [if_pos (show framing.1 = 0 from hlength)] at hstage
    exact ⟨hstage, rfl⟩
  · have hpos : 0 < body.length := List.length_pos_of_ne_nil hbody
    rw [if_neg (by omega), dif_pos (by omega)] at hstage
    rw [Parser.foldl_byte_part Parser.byte_rawData body _ _ hstage hbody
      (show _ ≤ framing.1.toNat by omega)]
    have hleft : framing.1.toNat - body.length = 0 := by omega
    simp only [hleft, Parser.left_zero, Parser.appendBody, atBody, List.nil_append, and_self]

theorem foldl_sent {head : Head} {body sent : Bytes} (h : Sent head body sent) :
    ((head.bytes ++ sent).foldl Parser.byte start).rt.stage = .close ∧
      ((head.bytes ++ sent).foldl Parser.byte start).response =
        ⟨decimalNumber head.code, body⟩ := by
  rw [List.foldl_append, foldl_head]
  have hchunked := framingOf_snd head.fields
  by_cases hc : head.chunked
  · rw [Sent, if_pos hc] at h
    obtain ⟨chunks, size, hne, hsize, rfl, rfl⟩ := h
    obtain ⟨m, hm⟩ :=
      foldl_chunks (atBody (decimalNumber head.code) (framingOf head.fields)) 0 chunks
    rw [List.foldl_append, atBody_of_chunked _ (hchunked.trans (decide_eq_true hc)), hm,
      foldl_last _ m hne hsize]
    exact ⟨rfl, rfl⟩
  · rw [Sent, if_neg hc] at h
    obtain ⟨rfl, digits, hdigits, hdigit, hnumber, hlt⟩ := h
    have hlength : (framingOf head.fields).1 = sent.length := by
      rw [framingOf_fst, show lastValue contentLength head.fields = some digits from hdigits,
        Option.elim_some, foldl_decimal hdigit (by omega), hnumber]
    exact foldl_body _ (hchunked.trans (decide_eq_false hc)) hlength

theorem foldl_endless {head : Head} (hc : ¬ head.chunked) (hlength : head.length = none)
    (bytes : Bytes) :
    ((head.bytes ++ bytes).foldl Parser.byte start).rt.stage = .unknownData := by
  have hstage : (atBody (decimalNumber head.code) (framingOf head.fields)).rt.stage =
      .unknownData := by
    have hnone : (framingOf head.fields).1 = -1 := by
      rw [framingOf_fst, show lastValue contentLength head.fields = none from hlength]
      rfl
    rw [atBody_stage _ ((framingOf_snd head.fields).trans (decide_eq_false hc)),
      if_neg (by omega), dif_neg (by omega), if_pos hnone]
  rw [List.foldl_append, foldl_head]
  cases bytes with
  | nil => exact hstage
  | cons ch bytes => rw [Parser.foldl_byte_unknownData hstage, Parser.appendBody_stage]

end Http

end ShairportSync
