import ShairportSync.Encoding.Base64
import ShairportSync.Rtsp.Response

/-!
# Metadata in the pipe

`metadata_process` writes an item to the metadata pipe: its type, its code and its length, and then
its data in base64. The data is cut into groups of 57 bytes, each of which is encoded by itself in a
buffer of 76 characters. The groups but the last are whole groups of three, so the texts put
together are the encoding of the data.
-/

namespace ShairportSync

namespace Metadata

open Player (Bytes)
open Rtsp (ascii charByte cString decimalDigits printed)
open Memory

/-! ## The encoder -/

def encodingTable : Bytes :=
  ascii "ABCDEFGHIJKLMNOPQRSTUVWXYZabcdefghijklmnopqrstuvwxyz0123456789+/"

def modTable : List ℕ := [0, 2, 1]

/-- The memory from `encoded_data` on, and what has been written where. -/
structure OutBuffer where
  memory : Int → BitVec 8
  writes : List Write

/-- `encoded_data[j] = c;` -/
def OutBuffer.put (b : OutBuffer) (j : Int) (c : BitVec 8) : OutBuffer :=
  ⟨store b.memory j [c], b.writes ++ [⟨j, 1⟩]⟩

def OutBuffer.putTriple (b : OutBuffer) (j : ℕ) (octetA octetB octetC : BitVec 8) : OutBuffer :=
  let triple := (octetA.setWidth 32 <<< 16) + (octetB.setWidth 32 <<< 8) + octetC.setWidth 32
  let c (shift : ℕ) : BitVec 8 := encodingTable.getD ((triple >>> shift) &&& 0x3F).toNat 0
  (((b.put j (c 18)).put (j + 1) (c 12)).put (j + 2) (c 6)).put (j + 3) (c 0)

/-- The loop over the data. An octet behind its end is 0. -/
def OutBuffer.putTriples (b : OutBuffer) (j : ℕ) : Bytes → OutBuffer
  | [] => b
  | [octetA] => b.putTriple j octetA 0 0
  | [octetA, octetB] => b.putTriple j octetA octetB 0
  | octetA :: octetB :: octetC :: data =>
      (b.putTriple j octetA octetB octetC).putTriples (j + 4) data

/-- The loop that puts so many `=` at the end. -/
def OutBuffer.putPadding (b : OutBuffer) (outputLength count : ℕ) : OutBuffer :=
  (List.range count).foldl (fun b (i : ℕ) => b.put ((outputLength : Int) - 1 - i) (charByte '=')) b

/-- `base64_encode_so`, with what is left in `*output_length`. -/
def base64EncodeSo (data : Bytes) (b : OutBuffer) (outputLength : ℕ) : Option (OutBuffer × ℕ) :=
  let calculatedOutputLength := 4 * ((data.length + 2) / 3)
  if outputLength < calculatedOutputLength then none
  else
    some ((b.putTriples 0 data).putPadding calculatedOutputLength
      (modTable.getD (data.length % 3) 0), calculatedOutputLength)

/-! ## The writes to the pipe -/

/-- A call of `write`: what is to be written, and what is returned. -/
structure PipeWrite where
  text : Bytes
  ret : Int

def PipeWrite.Succeeded (w : PipeWrite) : Prop := w.ret = w.text.length

instance (w : PipeWrite) : Decidable w.Succeeded :=
  inferInstanceAs (Decidable (w.ret = w.text.length))

/-- What has been written, the buffer of the encoder, and what each call of the encoder has left in
`outbuf_size`, or NULL. -/
structure PipeRun where
  writes : List PipeWrite
  outbuf : OutBuffer
  encodings : List (Option ℕ)

def PipeRun.written (r : PipeRun) : Bytes := r.writes.flatMap PipeWrite.text

def PipeRun.piped (r : PipeRun) : Bytes := r.writes.flatMap fun w => w.text.take w.ret.toNat

/-- `outbuf` has room for a line. -/
abbrev outbufSize : ℕ := 76

/-- So many bytes of data are encoded at a time. -/
abbrev groupSize : ℕ := 57

section Process

variable (reply : ℕ → Int)

/-- `ret = write(fd, ..)`, and the return if it is negative. -/
def PipeRun.write (r : PipeRun) (text : Bytes) : Except PipeRun PipeRun :=
  let ret := reply r.writes.length
  let r := { r with writes := r.writes ++ [⟨text, ret⟩] }
  if ret < 0 then .error r else .ok r

/-- A text that has been printed to `thestring` is written. -/
def PipeRun.writeString (r : PipeRun) (text : Bytes) : Except PipeRun PipeRun :=
  r.write reply (cString (printed 1024 text))

/-- `base64_encode_so` on a group. If it returns NULL the buffer and its size are as before. -/
def PipeRun.encodeGroup (r : PipeRun) (group : Bytes) : PipeRun :=
  match base64EncodeSo group r.outbuf outbufSize with
  | none => { r with encodings := r.encodings ++ [none] }
  | some (outbuf, length) =>
      { r with outbuf := outbuf, encodings := r.encodings ++ [some length] }

def PipeRun.outbufText (r : PipeRun) : Bytes :=
  (List.range ((r.encodings.getLast?.join).getD outbufSize)).map fun k => r.outbuf.memory (k : ℕ)

/-- The loop over the data. -/
def PipeRun.writeGroups (r : PipeRun) (remainingData : Bytes) : Except PipeRun PipeRun :=
  if _hnil : remainingData = [] then .ok r
  else do
    let r := r.encodeGroup (remainingData.take groupSize)
    let r ← r.write reply r.outbufText
    r.writeGroups (remainingData.drop groupSize)
  termination_by remainingData.length
  decreasing_by
    have hpos := List.length_pos_iff.mpr _hnil
    simp only [List.length_drop, groupSize]
    omega

def hexDigits (n : ℕ) : Bytes :=
  if n = 0 then [charByte '0']
  else ((Nat.digits 16 n).map fun d =>
    BitVec.ofNat 8 (if d < 10 then 48 + d else 87 + d)).reverse

def itemHead (type code : BitVec 32) (digits : Bytes) : Bytes :=
  ascii "<item><type>" ++ hexDigits type.toNat ++ ascii "</type><code>" ++
    hexDigits code.toNat ++ ascii "</code><length>" ++ digits ++ ascii "</length>"

def dataStart : Bytes := ascii "\n<data encoding=\"base64\">\n"

def dataEnd : Bytes := ascii "</data>"

def itemEnd : Bytes := ascii "</item>\n"

/-- The arguments of `metadata_process`: there are as many bytes at `data` as the length says, or
none if it is NULL. -/
structure MetadataItem where
  type : BitVec 32
  code : BitVec 32
  data : Option Bytes
  length : BitVec 32
  length_eq : length.toNat = (data.getD []).length

def PipeRun.writeData (r : PipeRun) (length : BitVec 32) : Option Bytes → Except PipeRun PipeRun
  | none => .ok r
  | some data =>
      if 0 < length then do
        let r ← r.writeString reply dataStart
        let r ← r.writeGroups reply data
        r.writeString reply dataEnd
      else .ok r

/-- The writes of `metadata_process` while the pipe is open. -/
def PipeRun.writeItem (r : PipeRun) (item : MetadataItem) : Except PipeRun PipeRun := do
  let r ← r.writeString reply (itemHead item.type item.code (decimalDigits item.length.toNat))
  let r ← r.writeData reply item.length item.data
  r.writeString reply itemEnd

end Process

/-- The pipe: `fd`, what it is after an attempt to open the pipe, and what the writes return. -/
structure MetadataPipe where
  fd : Int
  opened : Int
  reply : ℕ → Int

def MetadataPipe.writeFd (pipe : MetadataPipe) : Int := if pipe.fd < 0 then pipe.opened else pipe.fd

/-- `metadata_process`, with anything in memory. -/
def metadataProcess (pipe : MetadataPipe) (memory : Int → BitVec 8)
    (item : MetadataItem) : PipeRun :=
  let r : PipeRun := ⟨[], ⟨memory, []⟩, []⟩
  if pipe.writeFd < 0 then r
  else
    match r.writeItem pipe.reply item with
    | .ok r => r
    | .error r => r

/-! ## A group in the buffer -/

section Encoder

variable {b : OutBuffer} {out : Bytes}

theorem encodingTable_getD :
    ∀ {v : ℕ}, v < 64 → encodingTable.getD v 0 = Base64.character v := by
  decide

theorem toNat_triple (octetA octetB octetC : BitVec 8) :
    ((octetA.setWidth 32 <<< 16) + (octetB.setWidth 32 <<< 8) + octetC.setWidth 32 :
      BitVec 32).toNat = octetA.toNat * 2 ^ 16 + octetB.toNat * 2 ^ 8 + octetC.toNat := by
  have hA := octetA.isLt
  have hB := octetB.isLt
  have hC := octetC.isLt
  simp only [BitVec.toNat_add, BitVec.toNat_shiftLeft, BitVec.toNat_setWidth, Nat.shiftLeft_eq]
  omega

theorem encodingTable_sixBits (triple : BitVec 32) (shift : ℕ) :
    encodingTable.getD ((triple >>> shift) &&& 0x3F).toNat 0 =
      Base64.character (triple.toNat / 2 ^ shift % 64) := by
  have hmask : ((triple >>> shift) &&& 0x3F).toNat = triple.toNat / 2 ^ shift % 64 := by
    rw [BitVec.toNat_and, BitVec.toNat_ushiftRight, Nat.shiftRight_eq_div_pow]
    exact Nat.and_two_pow_sub_one_eq_mod _ 6
  rw [hmask, encodingTable_getD (Nat.mod_lt _ (by decide))]

theorem OutBuffer.put_holds {c : BitVec 8} (h : Holds b.memory out) :
    Holds (b.put out.length c).memory (out ++ [c]) :=
  h.store [c]

theorem OutBuffer.putTriple_holds (octetA octetB octetC : BitVec 8) (h : Holds b.memory out) :
    Holds (b.putTriple out.length octetA octetB octetC).memory
      (out ++ Base64.encodeThree octetA octetB octetC) := by
  have hA := octetA.isLt
  have hB := octetB.isLt
  have hC := octetC.isLt
  rw [putTriple]
  simp only [encodingTable_sixBits, toNat_triple]
  have h₁ : (octetA.toNat * 2 ^ 16 + octetB.toNat * 2 ^ 8 + octetC.toNat) / 2 ^ 18 % 64 =
      octetA.toNat / 4 := by omega
  have h₂ : (octetA.toNat * 2 ^ 16 + octetB.toNat * 2 ^ 8 + octetC.toNat) / 2 ^ 12 % 64 =
      octetA.toNat % 4 * 16 + octetB.toNat / 16 := by omega
  have h₃ : (octetA.toNat * 2 ^ 16 + octetB.toNat * 2 ^ 8 + octetC.toNat) / 2 ^ 6 % 64 =
      octetB.toNat % 16 * 4 + octetC.toNat / 64 := by omega
  have h₄ : (octetA.toNat * 2 ^ 16 + octetB.toNat * 2 ^ 8 + octetC.toNat) / 2 ^ 0 % 64 =
      octetC.toNat % 64 := by omega
  rw [h₁, h₂, h₃, h₄]
  have hput := put_holds (c := Base64.character (octetC.toNat % 64)) <|
    put_holds (c := Base64.character (octetB.toNat % 16 * 4 + octetC.toNat / 64)) <|
    put_holds (c := Base64.character (octetA.toNat % 4 * 16 + octetB.toNat / 16)) <|
    put_holds (c := Base64.character (octetA.toNat / 4)) h
  simpa [Base64.encodeThree] using hput

/-- Before the padding is put there are zero values in its place. -/
theorem OutBuffer.putTriples_holds (data : Bytes) (h : Holds b.memory out) :
    ∃ text, Base64.encode data =
        text ++ List.replicate (modTable.getD (data.length % 3) 0) Base64.pad ∧
      Holds (b.putTriples out.length data).memory
        (out ++ text ++ List.replicate (modTable.getD (data.length % 3) 0)
          (Base64.character 0)) := by
  induction data using Base64.encode.induct generalizing b out with
  | case1 => exact ⟨[], rfl, by simpa [modTable, putTriples] using h⟩
  | case2 octetA =>
      refine ⟨[Base64.character (octetA.toNat / 4), Base64.character (octetA.toNat % 4 * 16)],
        rfl, ?_⟩
      simpa [modTable, putTriples, Base64.encodeThree] using putTriple_holds octetA 0 0 h
  | case3 octetA octetB =>
      refine ⟨[Base64.character (octetA.toNat / 4),
        Base64.character (octetA.toNat % 4 * 16 + octetB.toNat / 16),
        Base64.character (octetB.toNat % 16 * 4)], rfl, ?_⟩
      simpa [modTable, putTriples, Base64.encodeThree] using putTriple_holds octetA octetB 0 h
  | case4 octetA octetB octetC data ih =>
      have hmod : (octetA :: octetB :: octetC :: data).length % 3 = data.length % 3 := by
        simp only [List.length_cons]
        omega
      have hthree := putTriple_holds octetA octetB octetC h
      obtain ⟨text, heq, hholds⟩ := ih hthree
      refine ⟨Base64.encodeThree octetA octetB octetC ++ text, ?_, ?_⟩
      · rw [Base64.encode, heq, hmod, List.append_assoc]
      · rw [hmod, putTriples, ← List.append_assoc]
        simpa [Base64.encodeThree] using hholds

/-- The characters in the place of the padding are overwritten from the last one back. -/
theorem OutBuffer.putPadding_holds (count : ℕ) {text : Bytes} {c : BitVec 8}
    (h : Holds b.memory (text ++ List.replicate count c)) :
    Holds (b.putPadding (text.length + count) count).memory
      (text ++ List.replicate count Base64.pad) := by
  induction count generalizing text with
  | zero => simpa [putPadding] using h
  | succ count ih =>
      have hone : text ++ [c] ++ List.replicate count c = text ++ List.replicate (count + 1) c := by
        rw [List.replicate_succ, List.append_assoc, List.singleton_append]
      have hrest := ih (by rwa [hone])
      have hlength : (text ++ [c]).length + count = text.length + (count + 1) := by
        simp only [List.length_append, List.length_singleton]
        omega
      have hplace : ((text.length + (count + 1) : ℕ) : Int) - 1 - (count : ℕ) = text.length := by
        omega
      rw [hlength, List.append_assoc] at hrest
      rw [putPadding, List.range_succ, List.foldl_append, List.foldl_cons, List.foldl_nil, hplace,
        List.replicate_succ]
      exact Holds.store_one hrest

theorem OutBuffer.putTriple_writes {limit j : ℕ} (octetA octetB octetC : BitVec 8)
    (hj : j + 4 ≤ limit) (h : ∀ w ∈ b.writes, w.Inside limit) :
    ∀ w ∈ (b.putTriple j octetA octetB octetC).writes, w.Inside limit := by
  intro w hw
  simp only [putTriple, put, List.append_assoc, List.cons_append, List.nil_append,
    List.mem_append, List.mem_cons, List.not_mem_nil, or_false] at hw
  rcases hw with hw | rfl | rfl | rfl | rfl
  · exact h w hw
  all_goals
    constructor <;> simp only [Nat.cast_one] <;> omega

theorem OutBuffer.putTriples_writes {limit j : ℕ} (data : Bytes)
    (hj : j + 4 * ((data.length + 2) / 3) ≤ limit) (h : ∀ w ∈ b.writes, w.Inside limit) :
    ∀ w ∈ (b.putTriples j data).writes, w.Inside limit := by
  induction data using Base64.encode.induct generalizing b j with
  | case1 => exact h
  | case2 octetA => exact putTriple_writes octetA 0 0 (by simpa using hj) h
  | case3 octetA octetB => exact putTriple_writes octetA octetB 0 (by simpa using hj) h
  | case4 octetA octetB octetC data ih =>
      simp only [List.length_cons] at hj
      rw [putTriples]
      exact ih (by omega) (putTriple_writes octetA octetB octetC (by omega) h)

theorem OutBuffer.putPadding_writes {limit outputLength count : ℕ} (hcount : count ≤ outputLength)
    (hlimit : outputLength ≤ limit) (h : ∀ w ∈ b.writes, w.Inside limit) :
    ∀ w ∈ (b.putPadding outputLength count).writes, w.Inside limit := by
  induction count with
  | zero => exact h
  | succ count ih =>
      intro w hw
      rw [putPadding, List.range_succ, List.foldl_append, List.foldl_cons, List.foldl_nil] at hw
      rcases List.mem_append.mp hw with hw | hw
      · exact ih (by omega) w hw
      · obtain rfl := List.mem_singleton.mp hw
        constructor <;> simp only [Nat.cast_one] <;> omega

/-- The encoder on a group that fits. -/
theorem base64EncodeSo_holds (data : Bytes) (b : OutBuffer) {limit : ℕ}
    (hlimit : 4 * ((data.length + 2) / 3) ≤ limit) (h : ∀ w ∈ b.writes, w.Inside limit) :
    ∃ b', base64EncodeSo data b limit = some (b', (Base64.encode data).length) ∧
      Holds b'.memory (Base64.encode data) ∧ ∀ w ∈ b'.writes, w.Inside limit := by
  obtain ⟨text, heq, hholds⟩ := OutBuffer.putTriples_holds data (holds_nil b.memory)
  have hlength : 4 * ((data.length + 2) / 3) =
      text.length + modTable.getD (data.length % 3) 0 := by
    rw [← Base64.length_encode, heq, List.length_append, List.length_replicate]
  refine ⟨(b.putTriples 0 data).putPadding (4 * ((data.length + 2) / 3))
    (modTable.getD (data.length % 3) 0), ?_, ?_, ?_⟩
  · rw [base64EncodeSo, if_neg (by omega), Base64.length_encode]
  · rw [heq, hlength]
    exact OutBuffer.putPadding_holds _ hholds
  · exact OutBuffer.putPadding_writes (by omega) hlimit
      (OutBuffer.putTriples_writes data (by omega) h)

end Encoder

/-! ## The item in the pipe -/

section Item

variable {reply : ℕ → Int} {r : PipeRun}

/-- The encoder has not returned NULL, and has written inside its buffer. -/
structure PipeRun.Safe (r : PipeRun) : Prop where
  inside : ∀ w ∈ r.outbuf.writes, w.Inside outbufSize
  encoded : none ∉ r.encodings

def PipeRun.Yields (r : PipeRun) (text : Bytes) : Except PipeRun PipeRun → Prop
  | .ok r' => r'.Safe ∧ r'.written = r.written ++ text
  | .error r' => r'.Safe ∧ ∃ w ∈ r'.writes, w.ret < 0

theorem PipeRun.yields_nil (h : r.Safe) : r.Yields [] (.ok r) :=
  ⟨h, (List.append_nil _).symm⟩

theorem PipeRun.Yields.congr {r' : PipeRun} {text : Bytes} {x : Except PipeRun PipeRun}
    (hx : r.Yields text x) (h : r.written = r'.written) : r'.Yields text x := by
  cases x with
  | error r'' => exact hx
  | ok r'' => exact ⟨hx.1, h ▸ hx.2⟩

theorem PipeRun.Yields.bind {text text' : Bytes} {x : Except PipeRun PipeRun}
    {f : PipeRun → Except PipeRun PipeRun} (hx : r.Yields text x)
    (hf : ∀ r' : PipeRun, r'.Safe → r'.Yields text' (f r')) :
    r.Yields (text ++ text') (x >>= f) := by
  cases x with
  | error r' => exact hx
  | ok r' =>
      obtain ⟨hsafe, htext⟩ := hx
      have hr' := hf r' hsafe
      change r.Yields (text ++ text') (f r')
      revert hr'
      cases f r' with
      | error r'' => exact id
      | ok r'' =>
          rintro ⟨hsafe', htext'⟩
          exact ⟨hsafe', by rw [htext', htext, List.append_assoc]⟩

theorem PipeRun.write_yields (h : r.Safe) (text : Bytes) : r.Yields text (r.write reply text) := by
  rw [write]
  split
  · next hret => exact ⟨⟨h.inside, h.encoded⟩, _, List.mem_concat_self, hret⟩
  · exact ⟨⟨h.inside, h.encoded⟩, by simp [written]⟩

theorem cString_printed {size : ℕ} {text : Bytes} (hsize : text.length < size) (h : 0 ∉ text) :
    cString (printed size text) = text := by
  have hne : ∀ c ∈ text, decide (c ≠ 0) = true := fun c hc =>
    decide_eq_true fun h0 => h (h0 ▸ hc)
  rw [printed, if_neg (by omega), List.take_of_length_le (by omega), cString,
    List.takeWhile_append_of_pos hne]
  simp

theorem PipeRun.writeString_yields (h : r.Safe) {text : Bytes} (hlength : text.length < 1024)
    (hzero : 0 ∉ text) : r.Yields text (r.writeString reply text) := by
  rw [writeString, cString_printed hlength hzero]
  exact write_yields h text

theorem PipeRun.encodeGroup_spec (h : r.Safe) {group : Bytes} (hgroup : group.length ≤ groupSize) :
    (r.encodeGroup group).Safe ∧ (r.encodeGroup group).writes = r.writes ∧
      (r.encodeGroup group).outbufText = Base64.encode group := by
  have hlimit : 4 * ((group.length + 2) / 3) ≤ outbufSize := by
    simp only [groupSize, outbufSize] at hgroup ⊢
    omega
  obtain ⟨b, heq, hholds, hinside⟩ := base64EncodeSo_holds group r.outbuf hlimit h.inside
  rw [encodeGroup, heq]
  refine ⟨⟨hinside, ?_⟩, rfl, ?_⟩
  · simpa using h.encoded
  · simpa [outbufText] using hholds.read

theorem PipeRun.writeGroups_yields (h : r.Safe) (data : Bytes) :
    r.Yields (Base64.encode data) (r.writeGroups reply data) := by
  induction hn : data.length using Nat.strong_induction_on generalizing r data with
  | _ n ih =>
      rw [writeGroups]
      split
      · next hnil =>
        subst hnil
        exact yields_nil h
      · next hnil =>
        have hpos := List.length_pos_iff.mpr hnil
        obtain ⟨hsafe, hwrites, htext⟩ :=
          encodeGroup_spec h (List.length_take_le groupSize data)
        have hfirst := @write_yields reply _ hsafe (Base64.encode (data.take groupSize))
        have hall := hfirst.bind fun r' hr' =>
          ih (data.drop groupSize).length (by rw [List.length_drop, groupSize]; omega) hr'
            (data.drop groupSize) rfl
        rw [Base64.encode_take_append_drop (by decide)] at hall
        simp only [htext]
        exact hall.congr (by rw [written, hwrites, written])

theorem length_hexDigits_le {n k : ℕ} (hk : 0 < k) (hn : n < 16 ^ k) :
    (hexDigits n).length ≤ k := by
  rw [hexDigits]
  split_ifs
  · exact hk
  · rw [List.length_reverse, List.length_map]
    exact (Nat.digits_length_le_iff (by decide) n).mpr hn

theorem zero_notMem_hexDigits (n : ℕ) : 0 ∉ hexDigits n := by
  rw [hexDigits]
  split_ifs
  · decide
  · intro hmem
    rw [List.mem_reverse, List.mem_map] at hmem
    obtain ⟨d, hd, hzero⟩ := hmem
    have hlt : d < 16 := Nat.digits_lt_base (by decide) hd
    revert hzero
    interval_cases d <;> decide

theorem zero_notMem_decimalDigits (n : ℕ) : 0 ∉ decimalDigits n := by
  rw [decimalDigits]
  split_ifs
  · decide
  · intro hmem
    rw [List.mem_reverse, List.mem_map] at hmem
    obtain ⟨d, hd, hzero⟩ := hmem
    have hlt : d < 10 := Nat.digits_lt_base (by decide) hd
    revert hzero
    interval_cases d <;> decide

theorem zero_notMem_itemHead (type code length : BitVec 32) :
    0 ∉ itemHead type code (decimalDigits length.toNat) := by
  simp only [itemHead, List.mem_append, not_or]
  refine ⟨⟨⟨⟨⟨⟨?_, zero_notMem_hexDigits _⟩, ?_⟩, zero_notMem_hexDigits _⟩, ?_⟩,
    zero_notMem_decimalDigits _⟩, ?_⟩ <;> decide

theorem length_itemHead_lt (type code length : BitVec 32) :
    (itemHead type code (decimalDigits length.toNat)).length < 1024 := by
  have htype := length_hexDigits_le (k := 8) (by decide) type.isLt
  have hcode := length_hexDigits_le (k := 8) (by decide) code.isLt
  have hlength := Rtsp.length_decimalDigits_le (k := 10) (by decide)
    (length.isLt.trans (by decide))
  have htexts : (ascii "<item><type>").length + (ascii "</type><code>").length +
      (ascii "</code><length>").length + (ascii "</length>").length = 49 := by decide
  simp only [itemHead, List.length_append]
  omega

def dataElement (data text : Bytes) : Bytes :=
  if data = [] then [] else dataStart ++ text ++ dataEnd

def MetadataItem.payload (item : MetadataItem) : Bytes := item.data.getD []

theorem PipeRun.writeData_yields (h : r.Safe) (item : MetadataItem) :
    r.Yields (dataElement item.payload (Base64.encode item.payload))
      (r.writeData reply item.length item.data) := by
  obtain ⟨type, code, data, length, hlength⟩ := item
  cases data with
  | none => exact yields_nil h
  | some data =>
      have hpos : 0 < length ↔ data ≠ [] := by
        rw [← List.length_pos_iff, ← show length.toNat = data.length from hlength]
        exact BitVec.lt_def
      rw [writeData]
      by_cases hnil : data = []
      · subst hnil
        rw [if_neg fun hlt => hpos.mp hlt rfl]
        exact yields_nil h
      · rw [if_pos (hpos.mpr hnil)]
        simp only [MetadataItem.payload, Option.getD_some, dataElement, if_neg hnil,
          List.append_assoc]
        exact (writeString_yields h (by decide) (by decide)).bind fun r₁ h₁ =>
          (writeGroups_yields h₁ data).bind fun r₂ h₂ =>
            writeString_yields h₂ (by decide) (by decide)

theorem PipeRun.writeItem_yields (h : r.Safe) (item : MetadataItem) :
    r.Yields (itemHead item.type item.code (decimalDigits item.length.toNat) ++
      (dataElement item.payload (Base64.encode item.payload) ++ itemEnd))
      (r.writeItem reply item) :=
  (writeString_yields h (length_itemHead_lt item.type item.code item.length)
    (zero_notMem_itemHead item.type item.code item.length)).bind fun r₁ h₁ =>
      (writeData_yields h₁ item).bind fun r₂ h₂ =>
        writeString_yields h₂ (by decide) (by decide)

theorem PipeRun.piped_eq_written (h : ∀ w ∈ r.writes, w.Succeeded) : r.piped = r.written := by
  refine List.flatMap_congr fun w hw => ?_
  rw [h w hw, Int.toNat_natCast, List.take_length]

end Item

/-- The encoder always has room for a group. If every write succeeds the length can be read from the
item, and its data is one base64 text, with the padding at its end only, that can be decoded. -/
theorem metadataProcess_decode (pipe : MetadataPipe) (memory : Int → BitVec 8)
    (item : MetadataItem) :
    none ∉ (metadataProcess pipe memory item).encodings ∧
    (∀ w ∈ (metadataProcess pipe memory item).outbuf.writes, w.Inside outbufSize) ∧
    (0 ≤ pipe.writeFd → (∀ w ∈ (metadataProcess pipe memory item).writes, w.Succeeded) →
      ∃ digits text padding,
        (metadataProcess pipe memory item).piped = itemHead item.type item.code digits ++
          (dataElement item.payload (text ++ padding) ++ itemEnd) ∧
        Rtsp.decimalValue digits = item.payload.length ∧
        Base64.decode (text ++ padding) = some item.payload ∧
        Base64.pad ∉ text ∧ ∀ c ∈ padding, c = Base64.pad) := by
  have hstart : PipeRun.Safe ⟨[], ⟨memory, []⟩, []⟩ := ⟨by simp, by simp⟩
  have hyields := @PipeRun.writeItem_yields pipe.reply _ hstart item
  rw [metadataProcess]
  split
  · next hfd => exact ⟨hstart.encoded, hstart.inside, fun hopen => absurd hfd (not_lt.mpr hopen)⟩
  · revert hyields
    cases hwrite : PipeRun.writeItem pipe.reply ⟨[], ⟨memory, []⟩, []⟩ item with
    | error r =>
        rintro ⟨hsafe, w, hw, hret⟩
        refine ⟨hsafe.encoded, hsafe.inside, fun _ hall => ?_⟩
        have hsucceeded : w.ret = w.text.length := hall w hw
        omega
    | ok r =>
        rintro ⟨hsafe, hwritten⟩
        refine ⟨hsafe.encoded, hsafe.inside, fun _ hall => ?_⟩
        obtain ⟨text, hencode, htext⟩ := Base64.exists_encode_eq_append item.payload
        refine ⟨decimalDigits item.length.toNat, text,
          List.replicate ((3 - item.payload.length % 3) % 3) Base64.pad, ?_, ?_, ?_, ?_, ?_⟩
        · rw [PipeRun.piped_eq_written hall, hwritten, hencode]
          rfl
        · rw [Rtsp.decimalValue_decimalDigits, item.length_eq, MetadataItem.payload]
        · rw [← hencode, Base64.decode_encode]
        · exact fun hpad => htext _ hpad rfl
        · exact fun c hc => List.eq_of_mem_replicate hc

def helloItem : MetadataItem where
  type := 1
  code := 2
  data := some (ascii "hello")
  length := 5
  length_eq := rfl

def helloPipe : MetadataPipe where
  fd := -1
  opened := 3
  reply := fun n => [52, 26, 8, 7, 8].getD n (-1)

theorem metadataProcess_decode_hello :
    ∃ digits text padding,
      (metadataProcess helloPipe (fun _ => 0) helloItem).piped = itemHead 1 2 digits ++
        (dataElement (ascii "hello") (text ++ padding) ++ itemEnd) ∧
      Rtsp.decimalValue digits = 5 ∧
      Base64.decode (text ++ padding) = some (ascii "hello") ∧
      Base64.pad ∉ text ∧ ∀ c ∈ padding, c = Base64.pad :=
  (metadataProcess_decode helloPipe (fun _ => 0) helloItem).2.2 (by decide) (by decide +kernel)

end Metadata

end ShairportSync
