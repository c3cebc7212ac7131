import ShairportSync.Numeric.Signed
import ShairportSync.Player.Basic

/-!
# The HTTP parser

A reply of the DACP server is parsed as it is received, a piece at a time. Two tables drive the
parser through the header and through the sizes of chunks, a character at a time; the body is passed
on in as large parts as there are.

The sizes are numbers of type `int`, and a size that is too large wraps. One that wraps to a
negative number makes the next byte of the body a copy of a negative number of bytes, which has no
result.

How the reply is cut into pieces makes no difference.
-/

namespace ShairportSync

namespace Http

open Player (Bytes)

/-! ## Characters of the header -/

def httpHeaderState : List ℕ := [
  0x80, 1, 0xC1, 0xC1, 1, 0x80, 0x80, 0xC1,
  0x81, 2, 0xC1, 0xC1, 2, 1, 1, 0xC1,
  0x82, 0x82, 4, 3, 0x82, 0x82, 0x82, 0xC1,
  0xC1, 0xC1, 4, 0xC1, 0xC1, 0xC1, 0xC1, 0xC1,
  0x84, 0xC1, 0xC0, 5, 0xC1, 0xC1, 6, 0xC1,
  0xC1, 0xC1, 0xC0, 0xC1, 0xC1, 0xC1, 0xC1, 0xC1,
  0x87, 6, 0xC1, 0xC1, 6, 0x87, 0x87, 0xC1,
  0x87, 0x87, 0xC4, 10, 0x87, 0x88, 0x87, 0xC1,
  0x87, 0x88, 6, 9, 0x88, 0x88, 0x87, 0xC1,
  0xC1, 0xC1, 6, 0xC1, 0xC1, 0xC1, 0xC1, 0xC1,
  0xC1, 0xC1, 0xC4, 0xC1, 0xC1, 0xC1, 0xC1, 0xC1]

def headerColumn (ch : BitVec 8) : ℕ :=
  if ch = 9 then 1
  else if ch = 10 then 2
  else if ch = 13 then 3
  else if ch = 32 then 4
  else if ch = 44 then 5
  else if ch = 58 then 6
  else 0

inductive HttpHeaderStatus where
  | done
  | continue
  | versionCharacter
  | codeCharacter
  | statusCharacter
  | keyCharacter
  | valueCharacter
  | storeKeyvalue
deriving DecidableEq

/-- The status that an entry of the table stands for -/
def headerStatus (newstate : ℕ) : HttpHeaderStatus :=
  match newstate with
  | 0xC0 => .done
  | 0xC1 => .done
  | 0xC4 => .storeKeyvalue
  | 0x80 => .versionCharacter
  | 0x81 => .codeCharacter
  | 0x82 => .statusCharacter
  | 0x84 => .keyCharacter
  | 0x87 => .valueCharacter
  | 0x88 => .valueCharacter
  | _ => .continue

/-- `http_parse_header_char`: the status and the new state -/
def httpParseHeaderChar (state : ℕ) (ch : BitVec 8) : HttpHeaderStatus × ℕ :=
  let newstate := httpHeaderState.getD (state * 8 + headerColumn ch) 0xC1
  (headerStatus newstate, newstate % 16)

/-! ## Sizes of chunks -/

def httpChunkState : List ℕ := [
  0xC1, 0xC1, 0xC1, 1,
  0xC1, 0xC1, 2, 0x81,
  0xC1, 0x83, 0xC1, 0xC1,
  0xC1, 0xC1, 4, 0xC1,
  0xC1, 0xC0, 0xC1, 0xC1]

def hexValue (ch : BitVec 8) : Option ℕ :=
  if 48 ≤ ch ∧ ch ≤ 57 then some (ch.toNat - 48)
  else if 97 ≤ ch ∧ ch ≤ 102 then some (ch.toNat - 97 + 10)
  else if 65 ≤ ch ∧ ch ≤ 70 then some (ch.toNat - 65 + 10)
  else none

def chunkColumn (ch : BitVec 8) : ℕ :=
  if ch = 10 then 1 else if ch = 13 then 2 else if (hexValue ch).isSome then 3 else 0

/-- Whether `http_parse_chunked` asks for more, with the size so far, or has come to the end of a
size. The size is -1 if a character is out of place. -/
inductive ChunkSize where
  | more (size : ℤ)
  | ended (size : ℤ)
  | invalid
deriving DecidableEq

/-- `http_parse_chunked`: what it returns with the size, and the new state -/
def httpParseChunked (state : ℕ) (size : ℤ) (ch : BitVec 8) : ChunkSize × ℕ :=
  let newstate := httpChunkState.getD (state * 4 + chunkColumn ch) 0xC1
  (match newstate with
    | 0xC0 => if size ≠ 0 then .more size else .ended size
    | 0xC1 => .invalid
    | 0x01 => .more ((hexValue ch).getD 0)
    | 0x81 => .more (Numeric.signed 32 (size * 16 + (hexValue ch).getD 0))
    | 0x83 => if size = 0 then .more size else .ended size
    | _ => .more size,
    newstate % 16)

/-! ## The reply -/

/-- `enum http_roundtripper_state`, with `contentlength` where it is the size of what is still to
come. Data of a chunk with a negative size are `negativeData`, and `crashed` comes after the copy of
a negative number of bytes. -/
inductive Stage where
  | header
  | chunkHeader (contentlength : ℤ)
  | chunkData (contentlength : { n : ℕ // 0 < n })
  | negativeData
  | crashed
  | rawData (contentlength : { n : ℕ // 0 < n })
  | unknownData
  | close
  | error
deriving DecidableEq

/-- `struct http_roundtripper`. The key and the value are in `scratch`, one behind the other. -/
structure HttpRoundtripper where
  code : ℤ
  parsestate : ℕ
  contentlength : ℤ
  stage : Stage
  key : Bytes
  value : Bytes
  chunked : Bool
deriving DecidableEq

def httpInit : HttpRoundtripper := ⟨0, 0, -1, .header, [], [], false⟩

structure HttpResponse where
  code : ℤ
  body : Bytes
deriving DecidableEq

/-- The parser, and what the callbacks have made of the reply -/
structure Parser where
  rt : HttpRoundtripper
  response : HttpResponse
deriving DecidableEq

def transferEncoding : Bytes :=
  [116, 114, 97, 110, 115, 102, 101, 114, 45, 101, 110, 99, 111, 100, 105, 110, 103]

def contentLength : Bytes := [99, 111, 110, 116, 101, 110, 116, 45, 108, 101, 110, 103, 116, 104]

def chunkedValue : Bytes := [99, 104, 117, 110, 107, 101, 100]

def tolower (ch : BitVec 8) : BitVec 8 := if 65 ≤ ch ∧ ch ≤ 90 then ch + 32 else ch

def decimal (number : ℤ) (ch : BitVec 8) : ℤ := Numeric.signed 32 (number * 10 + ch.toInt - 48)

/-- `case http_header_status_store_keyvalue` -/
def HttpRoundtripper.storeKeyvalue (rt : HttpRoundtripper) : HttpRoundtripper :=
  let rt :=
    if rt.key = transferEncoding then { rt with chunked := rt.value = chunkedValue }
    else if rt.key = contentLength then { rt with contentlength := rt.value.foldl decimal 0 }
    else rt
  { rt with key := [], value := [] }

/-- Where the parser goes on at the end of the header -/
def HttpRoundtripper.bodyStage (rt : HttpRoundtripper) : Stage :=
  if rt.parsestate ≠ 0 then .error
  else if rt.chunked then .chunkHeader 0
  else if rt.contentlength = 0 then .close
  else if h : 0 < rt.contentlength then .rawData ⟨rt.contentlength.toNat, by omega⟩
  else if rt.contentlength = -1 then .unknownData
  else .error

namespace Parser

/-- `case http_roundtripper_header` -/
def headerChar (p : Parser) (ch : BitVec 8) : Parser :=
  let (status, parsestate) := httpParseHeaderChar p.rt.parsestate ch
  let rt := { p.rt with parsestate := parsestate }
  match status with
  | .done => ⟨{ rt with stage := rt.bodyStage }, { p.response with code := rt.code }⟩
  | .codeCharacter => { p with rt := { rt with code := decimal rt.code ch } }
  | .keyCharacter => { p with rt := { rt with key := rt.key ++ [tolower ch] } }
  | .valueCharacter => { p with rt := { rt with value := rt.value ++ [ch] } }
  | .storeKeyvalue => { p with rt := rt.storeKeyvalue }
  | .continue => { p with rt := rt }
  | .versionCharacter => { p with rt := rt }
  | .statusCharacter => { p with rt := rt }

/-- `case http_roundtripper_chunk_header` -/
def chunkHeaderChar (p : Parser) (size : ℤ) (ch : BitVec 8) : Parser :=
  let (result, parsestate) := httpParseChunked p.rt.parsestate size ch
  let stage : Stage := match result with
    | .more size => .chunkHeader size
    | .invalid => .error
    | .ended size =>
      if size = -1 then .error
      else if size = 0 then .close
      else if h : 0 < size then .chunkData ⟨size.toNat, by omega⟩
      else .negativeData
  { p with rt := { p.rt with parsestate := parsestate, stage := stage } }

def appendBody (p : Parser) (data : Bytes) (stage : Stage) : Parser where
  rt := { p.rt with stage := stage }
  response := { p.response with body := p.response.body ++ data }

/-- `append_body` with a negative size -/
def crash (p : Parser) : Parser := { p with rt := { p.rt with stage := .crashed } }

def left (contentlength : ℕ) (atEnd : Stage) (part : { n : ℕ // 0 < n } → Stage) : Stage :=
  if h : 0 < contentlength then part ⟨contentlength, h⟩ else atEnd

/-- The parser has come to the end of the reply, or to an error. -/
def Stopped (p : Parser) : Prop := p.rt.stage = .close ∨ p.rt.stage = .error

instance (p : Parser) : Decidable p.Stopped := inferInstanceAs (Decidable (_ ∨ _))

/-- `http_data`: the parser, and what has not been read. It returns 0 if the parser has stopped. -/
def httpData (p : Parser) : Bytes → Parser × Bytes
  | [] => (p, [])
  | ch :: data =>
      match p.rt.stage with
      | .header =>
          let p := p.headerChar ch
          if p.Stopped then (p, data) else p.httpData data
      | .chunkHeader size =>
          let p := p.chunkHeaderChar size ch
          if p.Stopped then (p, data) else p.httpData data
      | .chunkData ⟨contentlength, _⟩ =>
          let chunksize := min (data.length + 1) contentlength
          (p.appendBody ((ch :: data).take chunksize)
            (left (contentlength - chunksize) (.chunkHeader 1) .chunkData)).httpData
              ((ch :: data).drop chunksize)
      | .negativeData => (p.crash, [])
      | .crashed => (p, [])
      | .rawData ⟨contentlength, _⟩ =>
          let chunksize := min (data.length + 1) contentlength
          let p := p.appendBody ((ch :: data).take chunksize)
            (left (contentlength - chunksize) .close .rawData)
          if p.Stopped then (p, (ch :: data).drop chunksize)
          else p.httpData ((ch :: data).drop chunksize)
      | .unknownData => (p.appendBody (ch :: data) .unknownData, [])
      | .close => (p, ch :: data)
      | .error => (p, ch :: data)
termination_by data => data.length
decreasing_by all_goals simp only [List.length_cons, List.length_drop]; omega

/-! ## A byte at a time -/

def byte (p : Parser) (ch : BitVec 8) : Parser :=
  match p.rt.stage with
  | .header => p.headerChar ch
  | .chunkHeader size => p.chunkHeaderChar size ch
  | .chunkData ⟨contentlength, _⟩ =>
      p.appendBody [ch] (left (contentlength - 1) (.chunkHeader 1) .chunkData)
  | .negativeData => p.crash
  | .crashed => p
  | .rawData ⟨contentlength, _⟩ =>
      p.appendBody [ch] (left (contentlength - 1) .close .rawData)
  | .unknownData => p.appendBody [ch] .unknownData
  | .close => p
  | .error => p

theorem foldl_byte_of_stopped {p : Parser} (h : p.Stopped) (data : Bytes) :
    data.foldl byte p = p := by
  induction data with
  | nil => rfl
  | cons ch data ih =>
      have hbyte : p.byte ch = p := by
        rcases h with h | h <;> simp only [byte, h]
      rw [List.foldl_cons, hbyte, ih]

theorem foldl_byte_of_crashed {p : Parser} (h : p.rt.stage = .crashed) (data : Bytes) :
    data.foldl byte p = p := by
  induction data with
  | nil => rfl
  | cons ch data ih =>
      have hbyte : p.byte ch = p := by simp only [byte, h]
      rw [List.foldl_cons, hbyte, ih]

@[simp] theorem appendBody_stage (p : Parser) (data : Bytes) (stage : Stage) :
    (p.appendBody data stage).rt.stage = stage := rfl

@[simp] theorem appendBody_appendBody (p : Parser) (data more : Bytes) (stage stage' : Stage) :
    (p.appendBody data stage).appendBody more stage' = p.appendBody (data ++ more) stage' := by
  simp only [appendBody, List.append_assoc]

theorem left_pos {n : ℕ} (h : 0 < n) (atEnd : Stage) (part : { n : ℕ // 0 < n } → Stage) :
    left n atEnd part = part ⟨n, h⟩ := dif_pos h

@[simp] theorem left_zero (atEnd : Stage) (part : { n : ℕ // 0 < n } → Stage) :
    left 0 atEnd part = atEnd := rfl

theorem byte_chunkData (p : Parser) (n : { n : ℕ // 0 < n }) (ch : BitVec 8)
    (hp : p.rt.stage = .chunkData n) :
    p.byte ch = p.appendBody [ch] (left (n - 1) (.chunkHeader 1) .chunkData) := by
  simp only [byte, hp]

theorem byte_rawData (p : Parser) (n : { n : ℕ // 0 < n }) (ch : BitVec 8)
    (hp : p.rt.stage = .rawData n) :
    p.byte ch = p.appendBody [ch] (left (n - 1) .close .rawData) := by
  simp only [byte, hp]

section Part

variable {atEnd : Stage} {part : { n : ℕ // 0 < n } → Stage}

/-- A part of the body, if every byte of it is appended and leaves one less to come -/
theorem foldl_byte_part
    (hbyte : ∀ (p : Parser) (n : { n : ℕ // 0 < n }) (ch : BitVec 8), p.rt.stage = part n →
      p.byte ch = p.appendBody [ch] (left (n - 1) atEnd part)) :
    ∀ (data : Bytes) (p : Parser) (n : { n : ℕ // 0 < n }), p.rt.stage = part n → data ≠ [] →
      data.length ≤ n →
        data.foldl byte p = p.appendBody data (left (n - data.length) atEnd part)
  | [], _, _, _, hdata, _ => absurd rfl hdata
  | [ch], p, n, hp, _, _ => hbyte p n ch hp
  | ch :: ch' :: data, p, n, hp, _, hlen => by
      simp only [List.length_cons] at hlen
      have hn : 0 < n.val - 1 := by omega
      have ih := foldl_byte_part hbyte (ch' :: data)
        (p.appendBody [ch] (left (n - 1) atEnd part)) ⟨n - 1, hn⟩ (left_pos hn atEnd part)
        (List.cons_ne_nil _ _) (by simp only [List.length_cons]; omega)
      rw [List.foldl_cons, hbyte p n ch hp, ih, appendBody_appendBody, List.singleton_append]
      simp only [List.length_cons, Nat.sub_sub, Nat.add_comm]

/-- What there is of a part of the body can be taken off at once. -/
theorem foldl_byte_part_take
    (hbyte : ∀ (p : Parser) (n : { n : ℕ // 0 < n }) (ch : BitVec 8), p.rt.stage = part n →
      p.byte ch = p.appendBody [ch] (left (n - 1) atEnd part))
    {p : Parser} {n : ℕ} {hn : 0 < n} (hp : p.rt.stage = part ⟨n, hn⟩) (ch : BitVec 8)
    (data : Bytes) (k : ℕ) (hk : k = min (data.length + 1) n) :
    ((ch :: data).drop k).foldl byte
        (p.appendBody ((ch :: data).take k) (left (n - k) atEnd part)) =
      (ch :: data).foldl byte p := by
  have hlen : ((ch :: data).take k).length = k := by
    rw [List.length_take, List.length_cons]
    omega
  have htake := foldl_byte_part hbyte ((ch :: data).take k) p ⟨n, hn⟩ hp
    (List.ne_nil_of_length_pos (by omega)) (show _ ≤ n by omega)
  rw [hlen] at htake
  rw [← htake, ← List.foldl_append, List.take_append_drop]

end Part

theorem foldl_byte_unknownData {p : Parser} (hp : p.rt.stage = .unknownData) (ch : BitVec 8)
    (data : Bytes) : (ch :: data).foldl byte p = p.appendBody (ch :: data) .unknownData := by
  induction data generalizing p ch with
  | nil => simp only [List.foldl_cons, List.foldl_nil, byte, hp]
  | cons ch' data ih =>
      have hbyte : p.byte ch = p.appendBody [ch] .unknownData := by simp only [byte, hp]
      rw [List.foldl_cons, hbyte, ih (appendBody_stage p [ch] .unknownData),
        appendBody_appendBody, List.singleton_append]

/-- `http_data` does as much as the bytes would one at a time, and leaves some of them unread only
if it returns 0. -/
theorem httpData_spec (p : Parser) (data : Bytes) :
    (p.httpData data).1 = data.foldl byte p ∧
      ((p.httpData data).2 = [] ∨ (p.httpData data).1.Stopped) := by
  fun_induction httpData p data with
  | case1 p => exact ⟨rfl, .inl rfl⟩
  | case2 p ch data hp q hq =>
      have hbyte : p.byte ch = q := by simp only [byte, hp, q]
      exact ⟨by rw [List.foldl_cons, hbyte, foldl_byte_of_stopped hq], .inr hq⟩
  | case3 p ch data hp q hq ih =>
      have hbyte : p.byte ch = q := by simp only [byte, hp, q]
      rwa [List.foldl_cons, hbyte]
  | case4 p ch data size hp q hq =>
      have hbyte : p.byte ch = q := by simp only [byte, hp, q]
      exact ⟨by rw [List.foldl_cons, hbyte, foldl_byte_of_stopped hq], .inr hq⟩
  | case5 p ch data size hp q hq ih =>
      have hbyte : p.byte ch = q := by simp only [byte, hp, q]
      rwa [List.foldl_cons, hbyte]
  | case6 p ch data n hn hp chunksize ih =>
      rwa [foldl_byte_part_take byte_chunkData hp ch data chunksize rfl] at ih
  | case7 p ch data hp =>
      have hbyte : p.byte ch = p.crash := by simp only [byte, hp]
      exact ⟨by rw [List.foldl_cons, hbyte, foldl_byte_of_crashed rfl], .inl rfl⟩
  | case8 p ch data hp => exact ⟨(foldl_byte_of_crashed hp _).symm, .inl rfl⟩
  | case9 p ch data n hn hp chunksize q hq =>
      refine ⟨?_, .inr hq⟩
      rw [← foldl_byte_part_take byte_rawData hp ch data chunksize rfl]
      exact (foldl_byte_of_stopped hq _).symm
  | case10 p ch data n hn hp chunksize q hq ih =>
      rwa [foldl_byte_part_take byte_rawData hp ch data chunksize rfl] at ih
  | case11 p ch data hp => exact ⟨(foldl_byte_unknownData hp ch data).symm, .inl rfl⟩
  | case12 p ch data hp =>
      exact ⟨(foldl_byte_of_stopped (.inl hp) _).symm, .inr (.inl hp)⟩
  | case13 p ch data hp =>
      exact ⟨(foldl_byte_of_stopped (.inr hp) _).symm, .inr (.inr hp)⟩

end Parser

end Http

end ShairportSync
