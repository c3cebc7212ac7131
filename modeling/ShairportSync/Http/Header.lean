import Mathlib.Data.List.DropRight
import Mathlib.Data.Nat.Digits.Defs
import ShairportSync.Http.Parser

/-!
# Headers

The status line and the header fields as a server writes them. The parser gets from them the code,
and from the last fields of two names what is said about the body. A value whose last character that
is not blank is a comma goes on in the next line.
-/

namespace ShairportSync

namespace Http

open Numeric
open Player (Bytes)

def crlf : Bytes := [13, 10]

def isBlank (ch : BitVec 8) : Bool := ch = 9 || ch = 32

def endsLine (ch : BitVec 8) : Bool := ch = 10 || ch = 13

def isDigit (ch : BitVec 8) : Bool := 48 ≤ ch && ch ≤ 57

def decimalNumber (digits : Bytes) : ℕ :=
  Nat.ofDigits 10 (digits.reverse.map fun ch => ch.toNat - 48)

/-- A header field. A value whose last character that is not blank is a comma would go on in the
next line. -/
structure Field where
  name : Bytes
  blanks : Bytes
  value : Bytes
  name_plain : ∀ ch ∈ name, headerColumn ch = 0
  blanks_blank : ∀ ch ∈ blanks, isBlank ch
  value_ne_nil : value ≠ []
  value_head : ∀ ch ∈ value.head?, ¬ isBlank ch
  value_line : ∀ ch ∈ value, ¬ endsLine ch
  value_last : (value.tail.rdropWhile isBlank).getLast? ≠ some 44

def Field.bytes (field : Field) : Bytes :=
  field.name ++ 58 :: (field.blanks ++ field.value ++ crlf)

def Field.called (name : Bytes) (field : Field) : Bool := field.name.map tolower = name

def lastValue (name : Bytes) (fields : List Field) : Option Bytes :=
  (fields.reverse.find? (Field.called name)).map Field.value

/-- The status line and the header. The code is in the range of an `int`, with the last character
added to it. -/
structure Head where
  version : Bytes
  code : Bytes
  reason : Bytes
  fields : List Field
  version_word : ∀ ch ∈ version, ¬ isBlank ch ∧ ¬ endsLine ch
  code_digits : ∀ ch ∈ code, isDigit ch
  code_lt : decimalNumber code + 48 < 2 ^ 31
  reason_line : ∀ ch ∈ reason, ¬ endsLine ch

namespace Head

def bytes (head : Head) : Bytes :=
  head.version ++ 32 :: (head.code ++ 32 :: (head.reason ++ crlf ++
    (head.fields.flatMap Field.bytes ++ crlf)))

def chunked (head : Head) : Prop := lastValue transferEncoding head.fields = some chunkedValue

instance (head : Head) : Decidable head.chunked := inferInstanceAs (Decidable (_ = _))

def length (head : Head) : Option Bytes := lastValue contentLength head.fields

end Head

/-! ## Numbers -/

theorem decimalNumber_append_singleton (digits : Bytes) (ch : BitVec 8) :
    decimalNumber (digits ++ [ch]) = decimalNumber digits * 10 + (ch.toNat - 48) := by
  simp only [decimalNumber, List.reverse_append, List.reverse_cons, List.reverse_nil,
    List.nil_append, List.singleton_append, List.map_cons, Nat.ofDigits_cons]
  ring

theorem decimal_of_isDigit (number : ℤ) {ch : BitVec 8} (h : isDigit ch) :
    decimal number ch = signed 32 (number * 10 + ((ch.toNat - 48 : ℕ) : ℤ)) := by
  simp only [isDigit, Bool.and_eq_true, decide_eq_true_eq, BitVec.le_def] at h
  have h48 : (48 : BitVec 8).toNat = 48 := rfl
  have h57 : (57 : BitVec 8).toNat = 57 := rfl
  rw [decimal, BitVec.toInt_eq_toNat_of_lt (by omega)]
  congr 1
  omega

theorem signed_mul_add (a b c : ℤ) :
    signed 32 (signed 32 a * b + c) = signed 32 (a * b + c) :=
  signed_eq_iff.mpr (((signed_modEq 32 a).mul_right b).add_right c)

theorem foldl_decimal_signed {digits : Bytes} (h : ∀ ch ∈ digits, isDigit ch) :
    digits.foldl decimal 0 = signed 32 (decimalNumber digits) := by
  induction digits using List.reverseRecOn with
  | nil => rfl
  | append_singleton digits ch ih =>
      have hdigits : ∀ ch' ∈ digits, isDigit ch' := fun ch' hch' => h ch' (by simp [hch'])
      rw [List.foldl_append, List.foldl_cons, List.foldl_nil, ih hdigits,
        decimal_of_isDigit _ (h ch (by simp)), decimalNumber_append_singleton, signed_mul_add]
      push_cast
      rfl

theorem foldl_decimal {digits : Bytes} (h : ∀ ch ∈ digits, isDigit ch)
    (hlt : decimalNumber digits < 2 ^ 31) : digits.foldl decimal 0 = decimalNumber digits := by
  rw [foldl_decimal_signed h]
  exact signed_of_range (w := 31) ⟨by omega, by exact_mod_cast hlt⟩

/-! ## Characters -/

theorem headerColumn_lt (ch : BitVec 8) : headerColumn ch < 7 := by
  unfold headerColumn
  split_ifs <;> omega

theorem headerColumn_of_isBlank {ch : BitVec 8} (h : isBlank ch) :
    headerColumn ch = 1 ∨ headerColumn ch = 4 := by
  simp only [isBlank, Bool.or_eq_true, decide_eq_true_eq] at h
  rcases h with rfl | rfl
  · exact .inl rfl
  · exact .inr rfl

theorem headerColumn_of_not_endsLine {ch : BitVec 8} (h : ¬ endsLine ch) :
    headerColumn ch ≠ 2 ∧ headerColumn ch ≠ 3 := by
  simp only [endsLine, Bool.or_eq_true, decide_eq_true_eq, not_or] at h
  unfold headerColumn
  split_ifs <;> simp_all

theorem headerColumn_of_not_isBlank {ch : BitVec 8} (h : ¬ isBlank ch) :
    headerColumn ch ≠ 1 ∧ headerColumn ch ≠ 4 := by
  simp only [isBlank, Bool.or_eq_true, decide_eq_true_eq, not_or] at h
  unfold headerColumn
  split_ifs <;> simp_all

theorem headerColumn_of_ne_comma {ch : BitVec 8} (h : ch ≠ 44) : headerColumn ch ≠ 5 := by
  unfold headerColumn
  split_ifs <;> simp_all

theorem headerColumn_of_isDigit {ch : BitVec 8} (h : isDigit ch) : headerColumn ch = 0 := by
  revert ch
  decide

def inHeader (state : ℕ) (code : ℤ) (key value : Bytes) (framing : ℤ × Bool) : Parser :=
  ⟨⟨code, state, framing.1, .header, key, value, framing.2⟩, ⟨0, []⟩⟩

section Characters

variable {state state' : ℕ} {code : ℤ} {key value : Bytes} {framing : ℤ × Bool} {ch : BitVec 8}

theorem byte_inHeader_silent (status : HttpHeaderStatus)
    (hstatus : status ∈ [.continue, .versionCharacter, .statusCharacter])
    (h : httpParseHeaderChar state ch = (status, state')) :
    (inHeader state code key value framing).byte ch =
      inHeader state' code key value framing := by
  simp only [List.mem_cons, List.not_mem_nil, or_false] at hstatus
  rcases hstatus with rfl | rfl | rfl <;>
    simp only [Parser.byte, inHeader, Parser.headerChar, h]

theorem byte_inHeader_code (h : httpParseHeaderChar state ch = (.codeCharacter, state')) :
    (inHeader state code key value framing).byte ch =
      inHeader state' (decimal code ch) key value framing := by
  simp only [Parser.byte, inHeader, Parser.headerChar, h]

theorem byte_inHeader_key (h : httpParseHeaderChar state ch = (.keyCharacter, state')) :
    (inHeader state code key value framing).byte ch =
      inHeader state' code (key ++ [tolower ch]) value framing := by
  simp only [Parser.byte, inHeader, Parser.headerChar, h]

theorem byte_inHeader_value (h : httpParseHeaderChar state ch = (.valueCharacter, state')) :
    (inHeader state code key value framing).byte ch =
      inHeader state' code key (value ++ [ch]) framing := by
  simp only [Parser.byte, inHeader, Parser.headerChar, h]

def storeFraming (key value : Bytes) (framing : ℤ × Bool) : ℤ × Bool :=
  if key = transferEncoding then (framing.1, decide (value = chunkedValue))
  else if key = contentLength then (value.foldl decimal 0, framing.2)
  else framing

theorem byte_inHeader_store (h : httpParseHeaderChar state ch = (.storeKeyvalue, state')) :
    (inHeader state code key value framing).byte ch =
      inHeader state' code [] [] (storeFraming key value framing) := by
  simp only [Parser.byte, inHeader, Parser.headerChar, h, HttpRoundtripper.storeKeyvalue,
    storeFraming]
  split_ifs <;> rfl

/-- Characters that leave the parser as it is -/
theorem foldl_inHeader_silent (status : HttpHeaderStatus) {bytes : Bytes}
    (hstatus : status ∈ [.continue, .versionCharacter, .statusCharacter])
    (h : ∀ ch ∈ bytes, httpParseHeaderChar state ch = (status, state)) :
    bytes.foldl Parser.byte (inHeader state code key value framing) =
      inHeader state code key value framing := by
  induction bytes with
  | nil => rfl
  | cons ch bytes ih =>
      rw [List.foldl_cons, byte_inHeader_silent status hstatus (h ch (List.mem_cons_self ..))]
      exact ih fun ch' hch' => h ch' (List.mem_cons_of_mem _ hch')

end Characters

/-- What the table says of all characters in some columns -/
theorem httpParseHeaderChar_of_column {state : ℕ} {entry : HttpHeaderStatus × ℕ}
    {P : ℕ → Prop} (h : ∀ column < 7, P column →
      (headerStatus (httpHeaderState.getD (state * 8 + column) 0xC1),
        httpHeaderState.getD (state * 8 + column) 0xC1 % 16) = entry)
    {ch : BitVec 8} (hch : P (headerColumn ch)) : httpParseHeaderChar state ch = entry :=
  h _ (headerColumn_lt ch) hch

/-! ### The status line -/

theorem foldl_version {version : Bytes} {framing : ℤ × Bool}
    (h : ∀ ch ∈ version, ¬ isBlank ch ∧ ¬ endsLine ch) :
    version.foldl Parser.byte (inHeader 0 0 [] [] framing) = inHeader 0 0 [] [] framing := by
  refine foldl_inHeader_silent .versionCharacter (by decide) fun ch hch => ?_
  have hblank := headerColumn_of_not_isBlank (h ch hch).1
  have hline := headerColumn_of_not_endsLine (h ch hch).2
  exact httpParseHeaderChar_of_column (P := fun c => (c ≠ 1 ∧ c ≠ 4) ∧ c ≠ 2 ∧ c ≠ 3) (by decide)
    ⟨hblank, hline⟩

theorem foldl_code (code : ℤ) {digits : Bytes} {framing : ℤ × Bool}
    (h : ∀ ch ∈ digits, isDigit ch) :
    digits.foldl Parser.byte (inHeader 1 code [] [] framing) =
      inHeader 1 (digits.foldl decimal code) [] [] framing := by
  induction digits generalizing code with
  | nil => rfl
  | cons ch digits ih =>
      have hch : httpParseHeaderChar 1 ch = (.codeCharacter, 1) :=
        httpParseHeaderChar_of_column (P := (· = 0)) (by decide)
          (headerColumn_of_isDigit (h ch (List.mem_cons_self ..)))
      rw [List.foldl_cons, byte_inHeader_code hch, List.foldl_cons]
      exact ih _ fun ch' hch' => h ch' (List.mem_cons_of_mem _ hch')

theorem foldl_reason {reason : Bytes} {code : ℤ} {framing : ℤ × Bool}
    (h : ∀ ch ∈ reason, ¬ endsLine ch) :
    reason.foldl Parser.byte (inHeader 2 code [] [] framing) = inHeader 2 code [] [] framing := by
  refine foldl_inHeader_silent .statusCharacter (by decide) fun ch hch => ?_
  exact httpParseHeaderChar_of_column (P := fun c => c ≠ 2 ∧ c ≠ 3) (by decide)
    (headerColumn_of_not_endsLine (h ch hch))

/-! ### Fields -/

theorem foldl_name {code : ℤ} (key : Bytes) {name : Bytes} {framing : ℤ × Bool}
    (h : ∀ ch ∈ name, headerColumn ch = 0) :
    name.foldl Parser.byte (inHeader 4 code key [] framing) =
      inHeader 4 code (key ++ name.map tolower) [] framing := by
  induction name generalizing key with
  | nil => rw [List.map_nil, List.append_nil, List.foldl_nil]
  | cons ch name ih =>
      have hch : httpParseHeaderChar 4 ch = (.keyCharacter, 4) :=
        httpParseHeaderChar_of_column (P := (· = 0)) (by decide) (h ch (List.mem_cons_self ..))
      rw [List.foldl_cons, byte_inHeader_key hch,
        ih _ fun ch' hch' => h ch' (List.mem_cons_of_mem _ hch'), List.map_cons,
        List.append_assoc, List.singleton_append]

theorem foldl_blanks {code : ℤ} {key blanks : Bytes} {framing : ℤ × Bool}
    (h : ∀ ch ∈ blanks, isBlank ch) :
    blanks.foldl Parser.byte (inHeader 6 code key [] framing) = inHeader 6 code key [] framing := by
  refine foldl_inHeader_silent .continue (by decide) fun ch hch => ?_
  exact httpParseHeaderChar_of_column (P := fun c => c = 1 ∨ c = 4) (by decide)
    (headerColumn_of_isBlank (h ch hch))

def valueState (more : Bytes) : ℕ := if (more.rdropWhile isBlank).getLast? = some 44 then 8 else 7

theorem valueState_eq (more : Bytes) : valueState more = 7 ∨ valueState more = 8 := by
  unfold valueState
  split_ifs
  · exact .inr rfl
  · exact .inl rfl

theorem valueState_concat_blank (more : Bytes) {ch : BitVec 8} (h : isBlank ch) :
    valueState (more ++ [ch]) = valueState more := by
  rw [valueState, List.rdropWhile_concat_pos _ _ _ h, valueState]

theorem valueState_concat (more : Bytes) {ch : BitVec 8} (h : ¬ isBlank ch) :
    valueState (more ++ [ch]) = if ch = 44 then 8 else 7 := by
  rw [valueState, List.rdropWhile_concat_neg _ _ _ h]
  simp only [List.getLast?_append, List.getLast?_singleton, Option.some_or, Option.some.injEq]

/-- What the table says in both states of a value -/
theorem httpParseHeaderChar_valueState_of_column {more : Bytes} {entry : HttpHeaderStatus × ℕ}
    {P : ℕ → Prop} {ch : BitVec 8} (hch : P (headerColumn ch))
    (h : ∀ state ∈ [7, 8], ∀ column < 7, P column →
      (headerStatus (httpHeaderState.getD (state * 8 + column) 0xC1),
        httpHeaderState.getD (state * 8 + column) 0xC1 % 16) = entry) :
    httpParseHeaderChar (valueState more) ch = entry := by
  rcases valueState_eq more with hstate | hstate <;> rw [hstate]
  · exact httpParseHeaderChar_of_column (h 7 (by decide)) hch
  · exact httpParseHeaderChar_of_column (h 8 (by decide)) hch

theorem httpParseHeaderChar_valueState (more : Bytes) {ch : BitVec 8} (h : ¬ endsLine ch) :
    httpParseHeaderChar (valueState more) ch = (.valueCharacter, valueState (more ++ [ch])) := by
  by_cases hblank : isBlank ch
  · have hcolumn := headerColumn_of_isBlank hblank
    rw [valueState_concat_blank more hblank]
    rcases valueState_eq more with hstate | hstate <;> rw [hstate]
    · exact httpParseHeaderChar_of_column (P := fun c => c = 1 ∨ c = 4) (by decide) hcolumn
    · exact httpParseHeaderChar_of_column (P := fun c => c = 1 ∨ c = 4) (by decide) hcolumn
  · rw [valueState_concat more hblank]
    split_ifs with hcomma
    · exact httpParseHeaderChar_valueState_of_column (P := (· = 5)) (hcomma ▸ rfl) (by decide)
    · have hcolumn : headerColumn ch = 0 ∨ headerColumn ch = 6 := by
        have hlt := headerColumn_lt ch
        have hline := headerColumn_of_not_endsLine h
        have hnot := headerColumn_of_not_isBlank hblank
        have h5 := headerColumn_of_ne_comma hcomma
        omega
      exact httpParseHeaderChar_valueState_of_column (P := fun c => c = 0 ∨ c = 6) hcolumn
        (by decide)

theorem foldl_more {code : ℤ} {key : Bytes} (first : BitVec 8) {more : Bytes}
    {framing : ℤ × Bool} (h : ∀ ch ∈ more, ¬ endsLine ch) :
    more.foldl Parser.byte (inHeader 7 code key [first] framing) =
      inHeader (valueState more) code key (first :: more) framing := by
  induction more using List.reverseRecOn with
  | nil => rfl
  | append_singleton more ch ih =>
      rw [List.foldl_append, ih fun ch' hch' => h ch' (List.mem_append_left _ hch'),
        List.foldl_cons, List.foldl_nil,
        byte_inHeader_value (httpParseHeaderChar_valueState more (h ch (by simp))),
        List.cons_append]

theorem versionSpace : httpParseHeaderChar 0 32 = (.continue, 1) := rfl

theorem codeSpace : httpParseHeaderChar 1 32 = (.continue, 2) := rfl

theorem reasonCr : httpParseHeaderChar 2 13 = (.continue, 3) := rfl

theorem lineLf : httpParseHeaderChar 3 10 = (.continue, 4) := rfl

theorem headerCr : httpParseHeaderChar 4 13 = (.continue, 5) := rfl

theorem headerLf : httpParseHeaderChar 5 10 = (.done, 0) := rfl

theorem colon : httpParseHeaderChar 4 58 = (.continue, 6) := rfl

theorem valueCr : httpParseHeaderChar 7 13 = (.continue, 10) := rfl

theorem valueLf : httpParseHeaderChar 10 10 = (.storeKeyvalue, 4) := rfl

theorem foldl_field (code : ℤ) (framing : ℤ × Bool) (field : Field) :
    field.bytes.foldl Parser.byte (inHeader 4 code [] [] framing) =
      inHeader 4 code [] [] (storeFraming (field.name.map tolower) field.value framing) := by
  obtain ⟨first, more, hvalue⟩ := List.exists_cons_of_ne_nil field.value_ne_nil
  have hfirst : httpParseHeaderChar 6 first = (.valueCharacter, 7) := by
    have hblank : ¬ isBlank first := field.value_head first (by rw [hvalue]; rfl)
    have hline : ¬ endsLine first := field.value_line first (by rw [hvalue]; simp)
    exact httpParseHeaderChar_of_column (P := fun c => (c ≠ 1 ∧ c ≠ 4) ∧ c ≠ 2 ∧ c ≠ 3)
      (by decide) ⟨headerColumn_of_not_isBlank hblank, headerColumn_of_not_endsLine hline⟩
  have hmore : ∀ ch ∈ more, ¬ endsLine ch := fun ch hch =>
    field.value_line ch (by rw [hvalue]; exact List.mem_cons_of_mem _ hch)
  have hstate : valueState more = 7 := by
    have hlast := field.value_last
    rw [hvalue, List.tail_cons] at hlast
    exact if_neg hlast
  rw [Field.bytes, List.foldl_append, foldl_name [] field.name_plain, List.nil_append,
    List.foldl_cons, byte_inHeader_silent .continue (by decide) colon, List.foldl_append,
    List.foldl_append, foldl_blanks field.blanks_blank, hvalue, List.foldl_cons,
    byte_inHeader_value hfirst, List.nil_append, foldl_more first hmore, hstate, ← hvalue, crlf,
    List.foldl_cons, byte_inHeader_silent .continue (by decide) valueCr, List.foldl_cons,
    byte_inHeader_store valueLf, List.foldl_nil]

/-! ### The whole header -/

theorem foldl_statusLine (head : Head) (framing : ℤ × Bool) (rest : Bytes) :
    (head.version ++ 32 :: (head.code ++ 32 :: (head.reason ++ crlf ++ rest))).foldl Parser.byte
        (inHeader 0 0 [] [] framing) =
      rest.foldl Parser.byte (inHeader 4 (decimalNumber head.code) [] [] framing) := by
  rw [List.foldl_append, foldl_version head.version_word, List.foldl_cons,
    byte_inHeader_silent .continue (by decide) versionSpace, List.foldl_append,
    foldl_code 0 head.code_digits,
    foldl_decimal head.code_digits (by have hlt := head.code_lt; omega), List.foldl_cons,
    byte_inHeader_silent .continue (by decide) codeSpace, List.foldl_append, List.foldl_append,
    foldl_reason head.reason_line, crlf, List.foldl_cons,
    byte_inHeader_silent .continue (by decide) reasonCr, List.foldl_cons,
    byte_inHeader_silent .continue (by decide) lineLf, List.foldl_nil]

/-- What the header says about the body, as the parser keeps it -/
def framingOf (fields : List Field) : ℤ × Bool :=
  fields.foldl (fun framing field => storeFraming (field.name.map tolower) field.value framing)
    (-1, false)

theorem foldl_fields (code : ℤ) (framing : ℤ × Bool) (fields : List Field) :
    (fields.flatMap Field.bytes).foldl Parser.byte (inHeader 4 code [] [] framing) =
      inHeader 4 code [] []
        (fields.foldl
          (fun framing field => storeFraming (field.name.map tolower) field.value framing)
          framing) := by
  induction fields generalizing framing with
  | nil => rfl
  | cons field fields ih =>
      rw [List.flatMap_cons, List.foldl_append, foldl_field, ih, List.foldl_cons]

theorem lastValue_append_singleton (name : Bytes) (fields : List Field) (field : Field) :
    lastValue name (fields ++ [field]) =
      if field.called name then some field.value else lastValue name fields := by
  rw [lastValue, List.reverse_append, List.reverse_singleton, List.singleton_append,
    List.find?_cons]
  split <;> rename_i h <;> simp only [h, lastValue] <;> rfl

theorem framingOf_append_singleton (fields : List Field) (field : Field) :
    framingOf (fields ++ [field]) =
      storeFraming (field.name.map tolower) field.value (framingOf fields) := by
  rw [framingOf, List.foldl_append, List.foldl_cons, List.foldl_nil, framingOf]

theorem framingOf_snd (fields : List Field) :
    (framingOf fields).2 = decide (lastValue transferEncoding fields = some chunkedValue) := by
  induction fields using List.reverseRecOn with
  | nil => rfl
  | append_singleton fields field ih =>
      rw [framingOf_append_singleton, lastValue_append_singleton, storeFraming, Field.called]
      by_cases hte : field.name.map tolower = transferEncoding
      · simp only [hte, if_true, decide_true, Option.some.injEq]
      · simp only [hte, decide_false, if_false, Bool.false_eq_true]
        split_ifs <;> exact ih

theorem framingOf_fst (fields : List Field) :
    (framingOf fields).1 =
      (lastValue contentLength fields).elim (-1) fun value => value.foldl decimal 0 := by
  induction fields using List.reverseRecOn with
  | nil => rfl
  | append_singleton fields field ih =>
      rw [framingOf_append_singleton, lastValue_append_singleton, storeFraming, Field.called]
      by_cases hcl : field.name.map tolower = contentLength
      · have hte : contentLength ≠ transferEncoding := by decide
        simp only [hcl, hte, if_false, if_true, decide_true, Option.elim_some]
      · simp only [hcl, decide_false, if_false, Bool.false_eq_true]
        split_ifs <;> exact ih

def atBody (code : ℤ) (framing : ℤ × Bool) : Parser :=
  ⟨⟨code, 0, framing.1, HttpRoundtripper.bodyStage ⟨code, 0, framing.1, .header, [], [], framing.2⟩,
    [], [], framing.2⟩, ⟨code, []⟩⟩

def start : Parser := ⟨httpInit, ⟨0, []⟩⟩

theorem byte_inHeader_done {code : ℤ} {framing : ℤ × Bool} :
    (inHeader 5 code [] [] framing).byte 10 = atBody code framing := by
  simp only [Parser.byte, inHeader, Parser.headerChar, headerLf, atBody]

theorem foldl_head (head : Head) :
    head.bytes.foldl Parser.byte start =
      atBody (decimalNumber head.code) (framingOf head.fields) := by
  rw [Head.bytes, show start = inHeader 0 0 [] [] (-1, false) from rfl, foldl_statusLine,
    List.foldl_append, foldl_fields, crlf, List.foldl_cons,
    byte_inHeader_silent .continue (by decide) headerCr, List.foldl_cons, byte_inHeader_done,
    List.foldl_nil, framingOf]

end Http

end ShairportSync
