import Mathlib.Data.List.TakeWhile
import Mathlib.Data.Nat.Digits.Lemmas
import ShairportSync.Memory.Store
import ShairportSync.Rtsp.Message

/-!
# Writing a response

`msg_write_response` puts a response together in an array of 4096 bytes and writes it to the
connection. `pktfree` is what is left of the array. The lines of the head are written with
`snprintf`, which does not write more than that, and each time there must be more than 1024 bytes
left. The content is copied, and what is left is looked at only afterwards.
-/

namespace ShairportSync

namespace Rtsp

open Player (Bytes)
open Memory

/-! ## Text -/

def crlf : Bytes := [cr, lf]

def decimalDigits (n : ℕ) : Bytes :=
  if n = 0 then [charByte '0']
  else ((Nat.digits 10 n).map fun d => BitVec.ofNat 8 (48 + d)).reverse

/-- A number printed with `%d`. -/
def decimal (n : Int) : Bytes :=
  if n < 0 then charByte '-' :: decimalDigits n.natAbs else decimalDigits n.natAbs

/-- What `snprintf` returns: the length of the text, or -1 if that is not an `int`. -/
def printedLength (text : Bytes) : Int := if text.length < 2 ^ 31 then text.length else -1

/-- What `snprintf` writes of a text, with a NUL. -/
def printed (size : ℕ) (text : Bytes) : Bytes :=
  if size = 0 then [] else text.take (size - 1) ++ [0]

/-! ## Responses -/

/-- The fields of `rtsp_message` that make a response. -/
structure RtspResponse where
  respcode : BitVec 32
  headers : List (Bytes × Bytes)
  content : Bytes
  headers_length : headers.length ≤ maxHeaders
  content_length : content.length < 2 ^ 32

def responses : List (Int × String) :=
  [(200, "OK"), (400, "Bad Request"), (403, "Unauthorized"), (404, "Not Found"),
    (451, "Unavailable"), (456, "Header Field Not Valid for Resource"),
    (470, "Connection Authorization Required"), (500, "Internal Server Error"),
    (501, "Not Implemented")]

def respcodeText (respcode : Int) : String :=
  responses.foldl (fun text response => if respcode = response.1 then response.2 else text)
    "Unauthorized"

def statusLine (respcode : Int) : Bytes :=
  ascii "RTSP/1.0 " ++ decimal respcode ++ ascii " " ++ ascii (respcodeText respcode) ++ crlf

def headerLine (header : Bytes × Bytes) : Bytes := header.1 ++ ascii ": " ++ header.2 ++ crlf

def contentLengthLine (contentLength : Int) : Bytes :=
  ascii "Content-Length: " ++ decimal contentLength ++ crlf

/-- What a response is to be sent as: the status line, the headers in order, the length of the
content if there is any, an empty line and the content. -/
def RtspResponse.serialised (resp : RtspResponse) : Bytes :=
  statusLine resp.respcode.toInt ++ resp.headers.flatMap headerLine ++
    (if resp.content = [] then [] else contentLengthLine resp.content.length) ++ crlf ++
    resp.content

/-! ## The array -/

abbrev pktSize : ℕ := 4096

/-- The memory from the start of `pkt` on, the place for the next byte, what is said to be free, and
what has been written where. -/
structure PktWriter where
  memory : Int → BitVec 8
  p : Int
  pktfree : Int
  writes : List Write

def PktWriter.start (memory : Int → BitVec 8) : PktWriter := ⟨memory, 0, pktSize, []⟩

/-- `n = snprintf(p, pktfree, ..); pktfree -= n; p += n;` -/
def PktWriter.snprintf (w : PktWriter) (text : Bytes) : PktWriter :=
  let out := printed (w.pktfree % 2 ^ 64).toNat text
  { memory := store w.memory w.p out
    p := w.p + printedLength text
    pktfree := w.pktfree - printedLength text
    writes := w.writes ++ [⟨w.p, out.length⟩] }

/-- `memcpy(p, resp->content, resp->contentlength)`, after which `pktfree` and `p` are changed. The
length is unsigned, and the difference is an `int`. -/
def PktWriter.memcpy (w : PktWriter) (content : Bytes) : PktWriter where
  memory := store w.memory w.p content
  p := w.p + content.length
  pktfree := (BitVec.ofInt 32 (w.pktfree - content.length)).toInt
  writes := w.writes ++ [⟨w.p, content.length⟩]

/-- A line of the head: "Attempted to write overlong RTSP packet" if it leaves too little. -/
def PktWriter.writeLine (w : PktWriter) (code : Int) (line : Bytes) :
    Except (Int × PktWriter) PktWriter :=
  if (w.snprintf line).pktfree ≤ 1024 then .error (code, w.snprintf line)
  else .ok (w.snprintf line)

def PktWriter.writeHeaders (w : PktWriter) :
    List (Bytes × Bytes) → Except (Int × PktWriter) PktWriter
  | [] => .ok w
  | header :: headers => do
      let w ← w.writeLine (-1) (headerLine header)
      w.writeHeaders headers

def fillPkt (memory : Int → BitVec 8) (resp : RtspResponse) :
    Except (Int × PktWriter) PktWriter := do
  let contentLength := BitVec.ofNat 32 resp.content.length
  let w := (PktWriter.start memory).snprintf (statusLine resp.respcode.toInt)
  let w ← w.writeHeaders resp.headers
  let w ←
    if contentLength ≠ 0 then w.writeLine (-2) (contentLengthLine contentLength.toInt) else .ok w
  let w := w.snprintf crlf
  let w := if contentLength ≠ 0 then w.memcpy resp.content else w
  if w.pktfree ≤ 1024 then .error (-3, w) else .ok w

/-- What a call has written where, what it has handed over to be sent, and what it returns. -/
structure WriteResult where
  writes : List Write
  sent : Option Bytes
  code : Int

/-- `msg_write_response`, where the write to the connection replies `reply`. -/
def msgWriteResponse (memory : Int → BitVec 8) (reply : Int) (resp : RtspResponse) : WriteResult :=
  match fillPkt memory resp with
  | .error (code, w) => ⟨w.writes, none, code⟩
  | .ok w =>
      { writes := w.writes
        sent := some ((List.range w.p.toNat).map fun k => w.memory (k : ℕ))
        code := if reply = -1 then -4 else if reply ≠ w.p then -5 else 0 }

/-- No byte is placed outside the array, nothing is sent if the call gives up before it writes to
the connection, and if it returns 0 the response has been sent, and nothing else. -/
structure WritesResponse (resp : RtspResponse) : Prop where
  inside : ∀ memory reply, ∀ w ∈ (msgWriteResponse memory reply resp).writes, w.Inside pktSize
  unsent : ∀ memory reply, (msgWriteResponse memory reply resp).code ∈ [-1, -2, -3] →
    (msgWriteResponse memory reply resp).sent = none
  exact : ∀ memory reply, (msgWriteResponse memory reply resp).code = 0 →
    (msgWriteResponse memory reply resp).sent = some resp.serialised

/-! ## The length of the status line -/

section StatusLine

variable {n : Int}

theorem length_decimalDigits_pos (n : ℕ) : 0 < (decimalDigits n).length := by
  rw [decimalDigits]
  split_ifs with hzero
  · exact Nat.one_pos
  · rw [List.length_reverse, List.length_map]
    exact List.length_pos_iff.mpr (Nat.digits_ne_nil_iff_ne_zero.mpr hzero)

theorem length_decimalDigits_le {n k : ℕ} (hk : 0 < k) (hn : n < 10 ^ k) :
    (decimalDigits n).length ≤ k := by
  rw [decimalDigits]
  split_ifs
  · exact hk
  · rw [List.length_reverse, List.length_map]
    exact (Nat.digits_length_le_iff (by decide) n).mpr hn

theorem lt_length_decimalDigits {n k : ℕ} (hn : 10 ^ k ≤ n) : k < (decimalDigits n).length := by
  have hpos : 0 < 10 ^ k := Nat.pow_pos (by decide)
  rw [decimalDigits, if_neg (by omega), List.length_reverse, List.length_map]
  exact (Nat.lt_digits_length_iff (by decide) n).mpr hn

theorem isDigit_of_mem_decimalDigits {n : ℕ} {b : BitVec 8} (hb : b ∈ decimalDigits n) :
    isDigit b = true := by
  rw [decimalDigits] at hb
  split_ifs at hb
  · obtain rfl := List.mem_singleton.mp hb
    decide
  · rw [List.mem_reverse, List.mem_map] at hb
    obtain ⟨d, hd, rfl⟩ := hb
    have hlt : d < 10 := Nat.digits_lt_base (by decide) hd
    interval_cases d <;> decide

theorem foldr_digits (ds : List ℕ) (h : ∀ d ∈ ds, d < 10) :
    (ds.map fun d => BitVec.ofNat 8 (48 + d)).foldr (fun d n => 10 * n + (d.toNat - 48)) 0 =
      Nat.ofDigits 10 ds := by
  induction ds with
  | nil => rfl
  | cons d ds ih =>
      have hd := h d List.mem_cons_self
      rw [List.map_cons, List.foldr_cons, ih fun d hd => h d (List.mem_cons_of_mem _ hd),
        Nat.ofDigits_cons, BitVec.toNat_ofNat]
      omega

theorem digitsValue_decimalDigits (n : ℕ) : digitsValue (decimalDigits n) = n := by
  rw [digitsValue, List.takeWhile_eq_self_iff.mpr fun b hb => isDigit_of_mem_decimalDigits hb,
    decimalDigits]
  split_ifs with hzero
  · rw [hzero]
    rfl
  · rw [List.foldl_reverse, foldr_digits _ fun d hd => Nat.digits_lt_base (by decide) hd,
      Nat.ofDigits_digits]

theorem decimalValue_decimalDigits (n : ℕ) : decimalValue (decimalDigits n) = n := by
  have hdigit : ∀ {b : BitVec 8}, isDigit b = true →
      isSpace b = false ∧ b ≠ charByte '-' ∧ b ≠ charByte '+' := by decide
  have hpos := length_decimalDigits_pos n
  have hvalue := digitsValue_decimalDigits n
  cases hdigits : decimalDigits n with
  | nil =>
      rw [hdigits] at hpos
      exact absurd hpos (lt_irrefl 0)
  | cons b digits =>
      obtain ⟨hspace, hminus, hplus⟩ :=
        hdigit (isDigit_of_mem_decimalDigits (hdigits ▸ List.mem_cons_self))
      rw [decimalValue, List.dropWhile_cons_of_neg (by rw [hspace]; exact Bool.false_ne_true)]
      simp only [if_neg hminus, if_neg hplus]
      rw [← hdigits, hvalue]

theorem length_decimal_pos (n : Int) : 0 < (decimal n).length := by
  rw [decimal]
  split_ifs
  · exact Nat.succ_pos _
  · exact length_decimalDigits_pos _

theorem length_decimal_le (hn : n.natAbs < 10 ^ 10) : (decimal n).length ≤ 11 := by
  have hdigits := length_decimalDigits_le (by decide) hn
  rw [decimal]
  split_ifs
  · exact Nat.succ_le_succ hdigits
  · omega

theorem lt_length_decimal (hn : 100 ≤ n) : 2 < (decimal n).length := by
  rw [decimal, if_neg (by omega)]
  exact lt_length_decimalDigits (by omega)

/-- A search through a table finds the text it starts with or one of the table. -/
theorem foldl_response_mem (respcode : Int) (table : List (Int × String)) (text : String) :
    table.foldl (fun text response => if respcode = response.1 then response.2 else text) text =
        text ∨
      (respcode, table.foldl (fun text response =>
        if respcode = response.1 then response.2 else text) text) ∈ table := by
  induction table generalizing text with
  | nil => exact .inl rfl
  | cons response table ih =>
      rw [List.foldl_cons]
      rcases ih (if respcode = response.1 then response.2 else text) with htext | hmem
      · rw [htext]
        by_cases hcode : respcode = response.1
        · rw [if_pos hcode, hcode]
          exact .inr List.mem_cons_self
        · exact .inl (if_neg hcode)
      · exact .inr (List.mem_cons_of_mem response hmem)

theorem respcodeText_mem (respcode : Int) :
    respcodeText respcode = "Unauthorized" ∨ (respcode, respcodeText respcode) ∈ responses :=
  foldl_response_mem respcode responses "Unauthorized"

theorem length_respcodeText (respcode : Int) :
    2 ≤ (ascii (respcodeText respcode)).length ∧ (ascii (respcodeText respcode)).length ≤ 35 ∧
      ((ascii (respcodeText respcode)).length < 12 → 100 ≤ respcode) := by
  rcases respcodeText_mem respcode with htext | hmem
  · rw [htext]
    exact ⟨by decide, by decide, fun h => absurd h (by decide)⟩
  · have hall : ∀ response ∈ responses, 2 ≤ (ascii response.2).length ∧
        (ascii response.2).length ≤ 35 ∧ 100 ≤ response.1 := by decide
    obtain ⟨hlower, hupper, hcode⟩ := hall _ hmem
    exact ⟨hlower, hupper, fun _ => hcode⟩

theorem length_statusLine (respcode : BitVec 32) :
    maxHeaders < (statusLine respcode.toInt).length ∧
      (statusLine respcode.toInt).length < 1024 := by
  have hlt := BitVec.toInt_lt (x := respcode)
  have hle := BitVec.le_toInt (x := respcode)
  have hlength : (statusLine respcode.toInt).length = 12 + (decimal respcode.toInt).length +
      (ascii (respcodeText respcode.toInt)).length := by
    simp only [statusLine, List.length_append]
    have hstart : (ascii "RTSP/1.0 ").length = 9 := by decide
    have hspace : (ascii " ").length = 1 := by decide
    have hend : crlf.length = 2 := rfl
    omega
  obtain ⟨hlower, hupper, hcode⟩ := length_respcodeText respcode.toInt
  have hpos := length_decimal_pos respcode.toInt
  have hdecimal := length_decimal_le (n := respcode.toInt) (by norm_num at hlt hle ⊢; omega)
  have hmax : maxHeaders = 16 := rfl
  refine ⟨?_, by omega⟩
  rcases Nat.lt_or_ge (ascii (respcodeText respcode.toInt)).length 12 with hshort | hlong
  · have hthree := lt_length_decimal (hcode hshort)
    omega
  · omega

end StatusLine

/-! ## The lines of the head -/

/-- What is free is what is behind the place of the next byte, and all has been written inside. -/
structure PktWriter.Sound (w : PktWriter) : Prop where
  p : 0 ≤ w.p
  pktfree : w.pktfree = pktSize - w.p
  inside : ∀ x ∈ w.writes, x.Inside pktSize

/-- Lines that are written one after the other, each with what is returned if it is too long. -/
def PktWriter.writeLines (w : PktWriter) :
    List (Int × Bytes) → Except (Int × PktWriter) PktWriter
  | [] => .ok w
  | line :: lines => do
      let w ← w.writeLine line.1 line.2
      w.writeLines lines

def LinesFit : Int → List Bytes → Prop
  | _, [] => True
  | pktfree, line :: lines =>
      1024 < pktfree - printedLength line ∧ LinesFit (pktfree - printedLength line) lines

section Lines

variable {w : PktWriter} {text : Bytes} {lines : List (Int × Bytes)}

theorem length_printed_le (size : ℕ) (text : Bytes) : (printed size text).length ≤ size := by
  rw [printed]
  split_ifs with hzero
  · exact Nat.zero_le _
  · rw [List.length_append, List.length_take, List.length_singleton]
    omega

theorem printed_of_lt {size : ℕ} (h : text.length < size) : printed size text = text ++ [0] := by
  rw [printed, if_neg (by omega), List.take_of_length_le (by omega)]

theorem neg_one_le_printedLength (text : Bytes) : -1 ≤ printedLength text := by
  rw [printedLength]
  split_ifs <;> omega

theorem printedLength_of_lt (h : text.length < 2 ^ 31) : printedLength text = text.length :=
  if_pos h

theorem PktWriter.Sound.size_eq (hw : w.Sound) (hfree : 0 < w.pktfree) :
    (w.pktfree % 2 ^ 64).toNat = w.pktfree.toNat := by
  have hp := hw.p
  have hpktfree := hw.pktfree
  have hsize : ((pktSize : ℕ) : Int) = 4096 := rfl
  rw [Int.emod_eq_of_lt hfree.le (by omega)]

theorem PktWriter.Sound.snprintf (hw : w.Sound) (hfree : 0 < w.pktfree)
    (hp : 0 ≤ w.p + printedLength text) : (w.snprintf text).Sound where
  p := hp
  pktfree := by
    have hpktfree := hw.pktfree
    change w.pktfree - printedLength text = pktSize - (w.p + printedLength text)
    omega
  inside := by
    intro x hx
    rcases List.mem_append.mp hx with hx | hx
    · exact hw.inside x hx
    · have hlength := length_printed_le (w.pktfree % 2 ^ 64).toNat text
      have hpktfree := hw.pktfree
      rw [hw.size_eq hfree] at hlength hx
      rw [List.mem_singleton.mp hx]
      refine ⟨hw.p, ?_⟩
      change w.p + (printed w.pktfree.toNat text).length ≤ pktSize
      omega

theorem PktWriter.Sound.holds_snprintf (hw : w.Sound) {out : Bytes} (hout : Holds w.memory out)
    (hp : w.p = out.length) (hfits : text.length < w.pktfree) :
    Holds (w.snprintf text).memory (out ++ text) := by
  have hstore := hout.store (text ++ [0])
  rw [← List.append_assoc] at hstore
  have hmemory : (w.snprintf text).memory = store w.memory out.length (text ++ [0]) := by
    rw [PktWriter.snprintf]
    dsimp only
    rw [hw.size_eq (by omega), printed_of_lt (by omega), hp]
  rw [hmemory]
  exact hstore.left

/-- The lines fit, or the call gives up at one of them; nothing is written outside in any case. -/
theorem writeLines_spec (hw : w.Sound) (hfree : 1024 < w.pktfree) (hp : lines.length ≤ w.p) :
    (LinesFit w.pktfree (lines.map Prod.snd) → ∃ w', w.writeLines lines = .ok w' ∧ w'.Sound ∧
      1024 < w'.pktfree ∧ w'.p = w.p + (lines.map fun line => printedLength line.2).sum) ∧
    (¬ LinesFit w.pktfree (lines.map Prod.snd) → ∃ code w', w.writeLines lines = .error (code, w') ∧
      code ∈ lines.map Prod.fst ∧ w'.Sound) := by
  induction lines generalizing w with
  | nil => exact ⟨fun _ => ⟨w, rfl, hw, hfree, (add_zero _).symm⟩, fun hnot => absurd trivial hnot⟩
  | cons line lines ih =>
      obtain ⟨code, text⟩ := line
      have hback := neg_one_le_printedLength text
      rw [List.length_cons] at hp
      have hnext : (w.snprintf text).Sound := hw.snprintf (by omega) (by omega)
      have hpktfree : (w.snprintf text).pktfree = w.pktfree - printedLength text := rfl
      have hplace : (w.snprintf text).p = w.p + printedLength text := rfl
      rw [List.map_cons, LinesFit, ← hpktfree]
      by_cases hroom : 1024 < (w.snprintf text).pktfree
      · have hwrite : w.writeLines ((code, text) :: lines) =
            (w.snprintf text).writeLines lines := by
          rw [PktWriter.writeLines, PktWriter.writeLine, if_neg (not_le.mpr hroom)]
          rfl
        obtain ⟨hfit, hnot⟩ := ih hnext hroom (by omega)
        rw [hwrite]
        constructor
        · rintro ⟨-, hlines⟩
          obtain ⟨w', hok, hw', hfree', hp'⟩ := hfit hlines
          refine ⟨w', hok, hw', hfree', ?_⟩
          rw [hp', hplace, List.map_cons, List.sum_cons, add_assoc]
        · intro hlines
          obtain ⟨code', w', herror, hcode, hw'⟩ := hnot fun h => hlines ⟨hroom, h⟩
          exact ⟨code', w', herror, List.mem_cons_of_mem _ hcode, hw'⟩
      · refine ⟨fun hlines => absurd hlines.1 hroom,
          fun _ => ⟨code, w.snprintf text, ?_, ?_, hnext⟩⟩
        · rw [PktWriter.writeLines, PktWriter.writeLine, if_pos (not_lt.mp hroom)]
          rfl
        · exact List.mem_cons_self

theorem sum_printedLength (hlines : ∀ line ∈ lines, line.2.length < 2 ^ 31) :
    (lines.map fun line => printedLength line.2).sum = (lines.flatMap Prod.snd).length := by
  induction lines with
  | nil => rfl
  | cons line lines ih =>
      have hhead := printedLength_of_lt (hlines line List.mem_cons_self)
      have htail := ih fun line hline => hlines line (List.mem_cons_of_mem _ hline)
      rw [List.map_cons, List.sum_cons, hhead, htail, List.flatMap_cons, List.length_append,
        Nat.cast_add]

/-- Lines that fit are added to what the array holds. -/
theorem holds_writeLines (hw : w.Sound) {out : Bytes} (hout : Holds w.memory out)
    (hp : w.p = out.length) (hlines : ∀ line ∈ lines, line.2.length < 2 ^ 31) {w' : PktWriter}
    (hfit : LinesFit w.pktfree (lines.map Prod.snd)) (hok : w.writeLines lines = .ok w') :
    Holds w'.memory (out ++ lines.flatMap Prod.snd) := by
  induction lines generalizing w out with
  | nil =>
      obtain rfl := Except.ok.inj hok
      rwa [List.flatMap_nil, List.append_nil]
  | cons line lines ih =>
      obtain ⟨code, text⟩ := line
      have hlength : printedLength text = text.length :=
        printedLength_of_lt (hlines (code, text) List.mem_cons_self)
      obtain ⟨hroom, hfit⟩ := hfit
      change 1024 < w.pktfree - printedLength text at hroom
      have hpktfree : (w.snprintf text).pktfree = w.pktfree - printedLength text := rfl
      have hleft : ¬ (w.snprintf text).pktfree ≤ 1024 := by
        rw [hpktfree, hlength]
        omega
      rw [PktWriter.writeLines, PktWriter.writeLine, if_neg hleft] at hok
      have hnext : (w.snprintf text).Sound := hw.snprintf (by omega) (by rw [hlength]; omega)
      have hheld := ih hnext (hw.holds_snprintf hout hp (by omega)) (by
        change w.p + printedLength text = _
        rw [hlength, hp, List.length_append, Nat.cast_add])
        (fun line hline => hlines line (List.mem_cons_of_mem _ hline)) hfit hok
      rwa [List.append_assoc] at hheld

end Lines

/-! ## Whole responses -/

/-- The lines of the head behind the status line. The length of the content is printed as an
`int`. -/
def RtspResponse.headLines (resp : RtspResponse) : List (Int × Bytes) :=
  (resp.headers.map fun header => (-1, headerLine header)) ++
    if resp.content = [] then []
    else [(-2, contentLengthLine (BitVec.ofNat 32 resp.content.length).toInt)]

/-- The length of the head as `snprintf` counts it, with the empty line. -/
def RtspResponse.headLength (resp : RtspResponse) : Int :=
  printedLength (statusLine resp.respcode.toInt) +
    (resp.headLines.map fun line => printedLength line.2).sum + 2

/-- The lines of the head leave enough of the array one after the other. -/
def RtspResponse.HeadFits (resp : RtspResponse) : Prop :=
  LinesFit (pktSize - printedLength (statusLine resp.respcode.toInt))
    (resp.headLines.map Prod.snd)

/-- If the head fits, so does the content behind it, and if with the content more than 1024 bytes
are left, every line has a length that is an `int`. -/
def RtspResponse.Fits (resp : RtspResponse) : Prop :=
  resp.HeadFits → resp.headLength + resp.content.length ≤ pktSize ∧
    (1024 < pktSize - (resp.headLength + resp.content.length) →
      ∀ line ∈ resp.headLines, line.2.length < 2 ^ 31)

/-- The empty line and the content, behind the other lines. -/
def PktWriter.finish (w : PktWriter) (content : Bytes) : PktWriter :=
  if content = [] then w.snprintf crlf else (w.snprintf crlf).memcpy content

section Response

variable {memory : Int → BitVec 8} {w : PktWriter} {resp : RtspResponse}

theorem writeHeaders_eq (headers : List (Bytes × Bytes)) :
    w.writeHeaders headers = w.writeLines (headers.map fun header => (-1, headerLine header)) := by
  induction headers generalizing w with
  | nil => rfl
  | cons header headers ih =>
      rw [PktWriter.writeHeaders, List.map_cons, PktWriter.writeLines]
      exact congrArg (Except.bind _) (funext fun w => ih)

theorem writeLines_append (lines lines' : List (Int × Bytes)) :
    w.writeLines (lines ++ lines') = (w.writeLines lines).bind fun w => w.writeLines lines' := by
  induction lines generalizing w with
  | nil => rfl
  | cons line lines ih =>
      rw [List.cons_append, PktWriter.writeLines, PktWriter.writeLines]
      cases hline : w.writeLine line.1 line.2 with
      | error e => rfl
      | ok w' => exact ih

theorem writeLines_singleton (line : Int × Bytes) :
    w.writeLines [line] = w.writeLine line.1 line.2 := by
  rw [PktWriter.writeLines]
  cases w.writeLine line.1 line.2 <;> rfl

theorem contentLength_ne_zero_iff (resp : RtspResponse) :
    BitVec.ofNat 32 resp.content.length ≠ 0 ↔ resp.content ≠ [] := by
  refine not_congr ⟨fun hzero => ?_, fun hnil => by rw [hnil]; rfl⟩
  have hlength := congrArg BitVec.toNat hzero
  rw [BitVec.toNat_ofNat, Nat.mod_eq_of_lt resp.content_length] at hlength
  exact List.length_eq_zero_iff.mp hlength

/-- The lines of the head are written, then the empty line and the content, and what is left is
looked at. -/
theorem fillPkt_eq (memory : Int → BitVec 8) (resp : RtspResponse) :
    fillPkt memory resp =
      (((PktWriter.start memory).snprintf (statusLine resp.respcode.toInt)).writeLines
        resp.headLines).bind fun w =>
          if (w.finish resp.content).pktfree ≤ 1024 then .error (-3, w.finish resp.content)
          else .ok (w.finish resp.content) := by
  rw [fillPkt, RtspResponse.headLines, writeLines_append, writeHeaders_eq]
  dsimp only
  cases hheaders : ((PktWriter.start memory).snprintf (statusLine resp.respcode.toInt)).writeLines
      (resp.headers.map fun header => (-1, headerLine header)) with
  | error e => rfl
  | ok w =>
      by_cases hempty : resp.content = []
      · simp only [hempty, PktWriter.finish]
        rfl
      · have hne := (contentLength_ne_zero_iff resp).mpr hempty
        simp only [if_pos hne, if_neg hempty, PktWriter.finish]
        change _ = Except.bind (w.writeLines [_]) _
        rw [writeLines_singleton]
        rfl

theorem length_headLines_le (resp : RtspResponse) :
    resp.headLines.length ≤ resp.headers.length + 1 := by
  rw [RtspResponse.headLines, List.length_append, List.length_map]
  split_ifs
  · exact Nat.le_succ _
  · exact le_rfl

theorem code_of_mem_headLines {code : Int} (hcode : code ∈ resp.headLines.map Prod.fst) :
    code = -1 ∨ code = -2 := by
  rw [RtspResponse.headLines, List.map_append, List.map_map] at hcode
  rcases List.mem_append.mp hcode with hheader | hlength
  · obtain ⟨_, -, rfl⟩ := List.mem_map.mp hheader
    exact Or.inl rfl
  · split_ifs at hlength
    · exact absurd hlength List.not_mem_nil
    · exact Or.inr (List.mem_singleton.mp hlength)

/-- Behind the status line there is room for the other lines. -/
theorem start_spec (memory : Int → BitVec 8) (resp : RtspResponse) {w : PktWriter}
    (hw : (PktWriter.start memory).snprintf (statusLine resp.respcode.toInt) = w) :
    w.Sound ∧ 1024 < w.pktfree ∧ resp.headLines.length ≤ w.p ∧
      w.p = (statusLine resp.respcode.toInt).length ∧
      w.pktfree = pktSize - printedLength (statusLine resp.respcode.toInt) ∧
      Holds w.memory (statusLine resp.respcode.toInt) := by
  subst hw
  obtain ⟨hlong, hshort⟩ := length_statusLine resp.respcode
  have hlines := length_headLines_le resp
  have hheaders := resp.headers_length
  have hlength := printedLength_of_lt (hshort.trans (by decide))
  have hstart : (PktWriter.start memory).Sound :=
    ⟨le_rfl, rfl, fun x hx => absurd hx List.not_mem_nil⟩
  have hp : ((PktWriter.start memory).snprintf (statusLine resp.respcode.toInt)).p =
      (statusLine resp.respcode.toInt).length := (zero_add _).trans hlength
  have hfree : ((PktWriter.start memory).snprintf (statusLine resp.respcode.toInt)).pktfree =
      4096 - printedLength (statusLine resp.respcode.toInt) := rfl
  have hsize : (PktWriter.start memory).pktfree = 4096 := rfl
  have hzero : (PktWriter.start memory).p = 0 := rfl
  refine ⟨hstart.snprintf (by omega) (by rw [hlength]; omega), by omega, ?_, hp, hfree, ?_⟩
  · rw [hp]
    exact_mod_cast hlines.trans ((Nat.succ_le_succ hheaders).trans hlong)
  · exact hstart.holds_snprintf (holds_nil _) rfl (by omega)

/-- What becomes of the head. -/
theorem fillPkt_spec (memory : Int → BitVec 8) (resp : RtspResponse) :
    (resp.HeadFits → ∃ w : PktWriter, w.Sound ∧ 1024 < w.pktfree ∧ w.p + 2 = resp.headLength ∧
      (fillPkt memory resp =
        if (w.finish resp.content).pktfree ≤ 1024 then .error (-3, w.finish resp.content)
        else .ok (w.finish resp.content)) ∧
      ((∀ line ∈ resp.headLines, line.2.length < 2 ^ 31) →
        Holds w.memory (statusLine resp.respcode.toInt ++ resp.headLines.flatMap Prod.snd))) ∧
    (¬ resp.HeadFits → ∃ code w, fillPkt memory resp = .error (code, w) ∧
      (code = -1 ∨ code = -2) ∧ w.Sound) := by
  obtain ⟨hsound, hroom, hlines, hp, hfree, hheld⟩ := start_spec memory resp rfl
  obtain ⟨hfit, hnot⟩ := writeLines_spec hsound hroom hlines
  rw [fillPkt_eq, RtspResponse.HeadFits, ← hfree]
  constructor
  · intro hhead
    obtain ⟨w, hok, hw, hroom', hp'⟩ := hfit hhead
    refine ⟨w, hw, hroom', ?_, by rw [hok]; rfl, fun hall => ?_⟩
    · rw [hp', RtspResponse.headLength, hp,
        printedLength_of_lt ((length_statusLine resp.respcode).2.trans (by decide))]
    · exact holds_writeLines hsound hheld hp hall hhead hok
  · intro hhead
    obtain ⟨code, w, herror, hcode, hw⟩ := hnot hhead
    exact ⟨code, w, by rw [herror]; rfl, code_of_mem_headLines hcode, hw⟩

theorem p_finish (w : PktWriter) (content : Bytes) :
    (w.finish content).p = w.p + 2 + content.length := by
  rw [PktWriter.finish]
  split_ifs with hempty
  · rw [hempty]
    exact (add_zero _).symm
  · rfl

theorem PktWriter.Sound.finish (hw : w.Sound) (hfree : 1024 < w.pktfree) {content : Bytes}
    (hfits : w.p + 2 + content.length ≤ pktSize) : (w.finish content).Sound := by
  have hcrlf : printedLength crlf = 2 := by decide
  have hp := hw.p
  have hempty : (w.snprintf crlf).Sound := hw.snprintf (by omega) (by rw [hcrlf]; omega)
  have hplace : (w.snprintf crlf).p = w.p + 2 := rfl
  have hpktfree := hempty.pktfree
  have hsize : ((pktSize : ℕ) : Int) = 4096 := rfl
  rw [PktWriter.finish]
  split_ifs
  · exact hempty
  · refine ⟨?_, ?_, fun x hx => ?_⟩
    · change 0 ≤ (w.snprintf crlf).p + content.length
      omega
    · change (BitVec.ofInt 32 ((w.snprintf crlf).pktfree - content.length)).toInt =
        pktSize - ((w.snprintf crlf).p + content.length)
      rw [BitVec.toInt_ofInt, Int.bmod_eq_emod]
      split_ifs <;> omega
    · rcases List.mem_append.mp hx with hx | hx
      · exact hempty.inside x hx
      · rw [List.mem_singleton.mp hx]
        exact ⟨hempty.p, by
          change (w.snprintf crlf).p + content.length ≤ pktSize
          omega⟩

theorem mem_writes_finish {content : Bytes} (hne : content ≠ []) :
    ⟨w.p + 2, content.length⟩ ∈ (w.finish content).writes := by
  rw [PktWriter.finish, if_neg hne]
  exact List.mem_append_right _ List.mem_cons_self

theorem holds_finish (hw : w.Sound) (hfree : 1024 < w.pktfree) {out content : Bytes}
    (hout : Holds w.memory out) (hp : w.p = out.length) :
    Holds (w.finish content).memory (out ++ crlf ++ content) := by
  have hcrlf : ((crlf.length : ℕ) : Int) = 2 := rfl
  have hheld : Holds (w.snprintf crlf).memory (out ++ crlf) :=
    hw.holds_snprintf hout hp (by omega)
  rw [PktWriter.finish]
  split_ifs with hempty
  · rwa [hempty, List.append_nil]
  · have hplace : (w.snprintf crlf).p = (out ++ crlf).length := by
      rw [List.length_append, Nat.cast_add, ← hp, hcrlf]
      rfl
    change Holds (store (w.snprintf crlf).memory (w.snprintf crlf).p content) _
    rw [hplace]
    exact hheld.store content

theorem flatMap_headLines (hlength : resp.content.length < 2 ^ 31) :
    resp.headLines.flatMap Prod.snd = resp.headers.flatMap headerLine ++
      if resp.content = [] then [] else contentLengthLine resp.content.length := by
  have hint : (BitVec.ofNat 32 resp.content.length).toInt = resp.content.length := by
    rw [BitVec.toInt_eq_toNat_cond, BitVec.toNat_ofNat, Nat.mod_eq_of_lt resp.content_length,
      if_pos (by omega)]
  rw [RtspResponse.headLines, List.flatMap_append, List.flatMap_map, hint]
  split_ifs
  · rfl
  · rw [List.flatMap_singleton]

theorem sent_of_holds {out : Bytes} (hp : w.p = out.length) (hout : Holds w.memory out) :
    ((List.range w.p.toNat).map fun k => w.memory (k : ℕ)) = out := by
  rw [hp, Int.toNat_natCast]
  exact hout.read

theorem length_headerLine_le {header : Bytes × Bytes} (hmem : header ∈ resp.headers) :
    (headerLine header).length ≤ resp.serialised.length := by
  obtain ⟨before, behind, hsplit⟩ := List.append_of_mem hmem
  rw [RtspResponse.serialised, hsplit, List.flatMap_append, List.flatMap_cons]
  simp only [List.length_append]
  omega

theorem length_contentLengthLine_lt (length : BitVec 32) :
    (contentLengthLine length.toInt).length < 2 ^ 31 := by
  have hlt := BitVec.toInt_lt (x := length)
  have hle := BitVec.le_toInt (x := length)
  have hdecimal := length_decimal_le (n := length.toInt) (by norm_num at hlt hle ⊢; omega)
  have hstart : (ascii "Content-Length: ").length = 16 := by decide
  have hend : crlf.length = 2 := rfl
  rw [contentLengthLine, List.length_append, List.length_append]
  omega

theorem length_line_lt (hserialised : resp.serialised.length < 2 ^ 31) :
    ∀ line ∈ resp.headLines, line.2.length < 2 ^ 31 := by
  intro line hline
  rw [RtspResponse.headLines] at hline
  rcases List.mem_append.mp hline with hheader | hlength
  · obtain ⟨header, hmem, rfl⟩ := List.mem_map.mp hheader
    exact (length_headerLine_le hmem).trans_lt hserialised
  · split_ifs at hlength
    · exact absurd hlength List.not_mem_nil
    · rw [List.mem_singleton.mp hlength]
      exact length_contentLengthLine_lt _

/-- What the array holds when all is in it. -/
theorem holds_serialised {w : PktWriter} (hw : w.Sound) (hfree : 1024 < w.pktfree)
    (hfits : w.p + 2 + resp.content.length ≤ pktSize)
    (hp : w.p + 2 = resp.headLength)
    (hall : ∀ line ∈ resp.headLines, line.2.length < 2 ^ 31)
    (hheld : Holds w.memory (statusLine resp.respcode.toInt ++ resp.headLines.flatMap Prod.snd)) :
    (w.finish resp.content).p = resp.serialised.length ∧
      Holds (w.finish resp.content).memory resp.serialised := by
  have hposition := hw.p
  have hsize : ((pktSize : ℕ) : Int) = 4096 := rfl
  have hstatus := printedLength_of_lt ((length_statusLine resp.respcode).2.trans (by decide))
  have hplace : w.p =
      (statusLine resp.respcode.toInt ++ resp.headLines.flatMap Prod.snd).length := by
    rw [RtspResponse.headLength, hstatus, sum_printedLength hall] at hp
    rw [List.length_append, Nat.cast_add]
    omega
  have hserialised : statusLine resp.respcode.toInt ++ resp.headLines.flatMap Prod.snd ++ crlf ++
      resp.content = resp.serialised := by
    rw [flatMap_headLines (by omega), RtspResponse.serialised, ← List.append_assoc]
  constructor
  · have hcrlf : crlf.length = 2 := rfl
    rw [p_finish, hplace, ← hserialised]
    simp only [List.length_append, hcrlf, Nat.cast_add, Nat.cast_ofNat]
  · rw [← hserialised]
    exact holds_finish hw hfree hheld hplace

end Response

theorem writesResponse_of_not_headFits {resp : RtspResponse} (hhead : ¬ resp.HeadFits) :
    WritesResponse resp := by
  refine ⟨fun memory reply => ?_, fun memory reply => ?_, fun memory reply => ?_⟩
  all_goals
    obtain ⟨code, w, herror, hcode, hw⟩ := (fillPkt_spec memory resp).2 hhead
    rw [msgWriteResponse, herror]
  · exact hw.inside
  · exact fun _ => rfl
  · intro hzero
    dsimp only at hzero
    omega

/-- A response with a head that fits and with content that fits behind it. -/
theorem writesResponse_of_headFits {resp : RtspResponse} (hhead : resp.HeadFits)
    (hfits : resp.headLength + resp.content.length ≤ pktSize)
    (hshort : 1024 < pktSize - (resp.headLength + resp.content.length) →
      ∀ line ∈ resp.headLines, line.2.length < 2 ^ 31) : WritesResponse resp := by
  refine ⟨fun memory reply => ?_, fun memory reply => ?_, fun memory reply => ?_⟩
  all_goals
    obtain ⟨w, hw, hfree, hp, hfill, hheld⟩ := (fillPkt_spec memory resp).1 hhead
    rw [← hp] at hfits hshort
    have hsound := hw.finish hfree hfits
    rw [msgWriteResponse, hfill]
    by_cases hlong : (w.finish resp.content).pktfree ≤ 1024
  · rw [if_pos hlong]
    exact hsound.inside
  · rw [if_neg hlong]
    exact hsound.inside
  · rw [if_pos hlong]
    exact fun _ => rfl
  · rw [if_neg hlong]
    intro hcode
    dsimp only at hcode
    split_ifs at hcode <;> exact absurd hcode (by decide)
  · rw [if_pos hlong]
    intro hcode
    dsimp only at hcode
    omega
  · rw [if_neg hlong]
    intro _
    have hpktfree := hsound.pktfree
    rw [p_finish] at hpktfree
    have hall := hshort (by omega)
    obtain ⟨hplace, hholds⟩ := holds_serialised hw hfree hfits hp hall (hheld hall)
    exact congrArg some (sent_of_holds hplace hholds)

theorem WritesResponse.fits {resp : RtspResponse} (h : WritesResponse resp)
    (hhead : resp.HeadFits) : resp.headLength + resp.content.length ≤ pktSize := by
  have hsize : ((pktSize : ℕ) : Int) = 4096 := rfl
  obtain ⟨w, hw, hfree, hp, hfill, -⟩ := (fillPkt_spec (fun _ => 0) resp).1 hhead
  have hpktfree := hw.pktfree
  rw [← hp]
  by_cases hempty : resp.content = []
  · rw [hempty, List.length_nil]
    omega
  · have hinside := h.inside (fun _ => 0) 0 ⟨w.p + 2, resp.content.length⟩ (by
      rw [msgWriteResponse, hfill]
      by_cases hlong : (w.finish resp.content).pktfree ≤ 1024
      · rw [if_pos hlong]
        exact mem_writes_finish hempty
      · rw [if_neg hlong]
        exact mem_writes_finish hempty)
    exact hinside.2

/-- A response is written well exactly if it fits. -/
theorem writesResponse_iff (resp : RtspResponse) : WritesResponse resp ↔ resp.Fits := by
  constructor
  · intro h hhead
    have hfits := h.fits hhead
    refine ⟨hfits, fun hleft => length_line_lt ?_⟩
    obtain ⟨w, hw, hfree, hp, hfill, -⟩ := (fillPkt_spec (fun _ => 0) resp).1 hhead
    rw [← hp] at hfits hleft
    have hsize : ((pktSize : ℕ) : Int) = 4096 := rfl
    have hposition := hw.p
    have hplace := p_finish w resp.content
    have hfinish := (hw.finish hfree hfits).pktfree
    rw [if_neg (by omega)] at hfill
    -- the response has been sent as it is to be, and the array is as long as what has been sent
    have hsent := h.exact (fun _ => 0) (w.finish resp.content).p (by
      rw [msgWriteResponse, hfill]
      dsimp only
      rw [if_neg (by omega), if_neg (not_not.mpr rfl)])
    rw [msgWriteResponse, hfill] at hsent
    have hlength := congrArg List.length (Option.some.inj hsent)
    rw [List.length_map, List.length_range, hplace] at hlength
    omega
  · intro hcondition
    by_cases hhead : resp.HeadFits
    · obtain ⟨hfits, hshort⟩ := hcondition hhead
      exact writesResponse_of_headFits hhead hfits hshort
    · exact writesResponse_of_not_headFits hhead

/-- A response with 5000 bytes of content: they are copied beyond the end of the array. -/
theorem not_writesResponse_of_long_content : ¬ ∀ resp : RtspResponse, WritesResponse resp := by
  intro h
  have hbound : (List.replicate 5000 (0 : BitVec 8)).length < 2 ^ 32 := by
    rw [List.length_replicate]
    decide
  have hlines : RtspResponse.headLines ⟨200, [], List.replicate 5000 0, by decide, hbound⟩ =
      [(-2, contentLengthLine 5000)] := by
    rw [RtspResponse.headLines, List.length_replicate]
    rfl
  have hstatus : printedLength (statusLine (200 : BitVec 32).toInt) = 17 := by decide
  have hlength : printedLength (contentLengthLine 5000) = 22 := by decide
  have hsize : ((pktSize : ℕ) : Int) = 4096 := rfl
  have hfits := (h ⟨200, [], List.replicate 5000 0, by decide, hbound⟩).fits (by
    rw [RtspResponse.HeadFits, hlines]
    refine ⟨?_, trivial⟩
    rw [hstatus, hlength, hsize]
    decide)
  rw [RtspResponse.headLength, hlines, List.length_replicate, hstatus, hsize, List.map_cons,
    List.map_nil, hlength] at hfits
  exact absurd hfits (by decide)

end Rtsp

end ShairportSync
