import ShairportSync.Player.Basic
import Mathlib.Data.List.Chain
import Mathlib.Logic.Function.Iterate

/-!
# Type, length and value

What a controller sends when it pairs, and what it is answered, is a list of values that have a
type each. A value is written in chunks of at most 255 bytes. A chunk of 255 bytes is continued by
the next one, if that has the same type.

The parser looks at no more than it has to. It returns exactly if the bytes are chunks that are
whole and not empty. From an empty chunk it never gets away, and a chunk that is cut off takes it
out of the buffer.
-/

namespace ShairportSync

namespace Pairing

open Player (Bytes)

/-! ## The values -/

structure PairTlv where
  type : BitVec 8
  value : Bytes
deriving DecidableEq

abbrev PairTlvValues := List PairTlv

/-- `pair_tlv_add_value`, where `malloc` succeeds -/
def pairTlvAddValue (values : PairTlvValues) (type : BitVec 8) (value : Bytes) : PairTlvValues :=
  values ++ [⟨type, value⟩]

def pairTlvGetValue (values : PairTlvValues) (type : BitVec 8) : Option PairTlv :=
  values.find? fun t => t.type = type

/-! ## Writing -/

/-- The loop `while (remaining)` of `pair_tlv_format` -/
def formatChunks (type : BitVec 8) (data : Bytes) : Bytes :=
  if data = [] then []
  else
    let chunkSize := if 255 < data.length then 255 else data.length
    type :: BitVec.ofNat 8 chunkSize :: data.take chunkSize
      ++ formatChunks type (data.drop chunkSize)
termination_by data.length
decreasing_by
  have := List.length_pos_iff.mpr ‹_›
  rw [List.length_drop]
  split <;> omega

def formatValue (t : PairTlv) : Bytes :=
  if t.value = [] then [t.type, 0] else formatChunks t.type t.value

def requiredSize (values : PairTlvValues) : ℕ :=
  (values.map fun t => t.value.length + 2 * ((t.value.length + 254) / 255)).sum

/-- What `pair_tlv_format` returns, what it puts in `size`, and what it writes from the start of
the buffer -/
structure Formatted where
  ret : ℤ
  size : ℕ
  written : Bytes
deriving DecidableEq

def pairTlvErrorInsufficientSize : ℤ := -2

def pairTlvFormat (values : PairTlvValues) (size : ℕ) : Formatted :=
  if size < requiredSize values then ⟨pairTlvErrorInsufficientSize, requiredSize values, []⟩
  else ⟨0, requiredSize values, values.flatMap formatValue⟩

/-! ## Reading -/

/-- The scan over the chunks of a value: the size that they declare. There is none if it reads
behind the buffer. -/
def scanChunks (type : BitVec 8) : Bytes → Option ℕ
  | [] => some 0
  | [t] => if t = type then none else some 0
  | t :: n :: more =>
      if t = type then
        if n = 255 then (scanChunks type (more.drop 255)).map (255 + ·) else some n.toNat
      else some 0
termination_by buffer => buffer.length
decreasing_by
  rw [List.length_drop, List.length_cons, List.length_cons]
  omega

/-- The loop that copies chunks until nothing remains: the data, and the buffer from `i` on. There
is none if it reads behind the buffer. -/
def copyChunks (remaining : ℤ) (buffer : Bytes) : Option (Bytes × Bytes) :=
  if remaining = 0 then some ([], buffer)
  else
    match buffer with
    | _ :: n :: more =>
        if n.toNat ≤ more.length then
          (copyChunks (remaining - n.toNat) (more.drop n.toNat)).map fun (data, rest) =>
            (more.take n.toNat ++ data, rest)
        else none
    | _ => none
termination_by buffer.length
decreasing_by
  rw [List.length_drop, List.length_cons, List.length_cons]
  omega

/-- A turn of the loop of `pair_tlv_parse`, up to the call of `tlv_add_value_` -/
def parseValue : Bytes → Option (PairTlv × Bytes)
  | [] => none
  | type :: more =>
      (scanChunks type (type :: more)).bind fun size =>
        if size = 0 then some (⟨type, []⟩, type :: more)
        else (copyChunks size (type :: more)).map fun (data, rest) => (⟨type, data⟩, rest)

/-- `pair_tlv_parse` with the values that it has and the buffer from `i` on, or when it has read
behind the buffer, or when it has returned 0 -/
inductive Parse where
  | running (values : PairTlvValues) (rest : Bytes)
  | outside
  | returned (values : PairTlvValues)
deriving DecidableEq

/-- The test `i < length`, and a turn if there is one. `malloc` succeeds. -/
def Parse.turn : Parse → Parse
  | .running values [] => .returned values
  | .running values (b :: rest) =>
      match parseValue (b :: rest) with
      | none => .outside
      | some (t, rest) => .running (pairTlvAddValue values t.type t.value) rest
  | .outside => .outside
  | .returned values => .returned values

/-- `pair_tlv_parse` after so many tests -/
def pairTlvParse (buffer : Bytes) (turns : ℕ) : Parse := Parse.turn^[turns] (.running [] buffer)

/-! ## Chunks -/

/-- A chunk that is whole and not empty -/
structure Chunk extends PairTlv where
  value_ne : value ≠ []
  length_le : value.length ≤ 255

namespace Chunk

def bytes (c : Chunk) : Bytes := c.type :: BitVec.ofNat 8 c.value.length :: c.value

theorem length_pos (c : Chunk) : 0 < c.value.length :=
  List.length_pos_iff.mpr c.value_ne

theorem toNat_size (c : Chunk) : (BitVec.ofNat 8 c.value.length).toNat = c.value.length := by
  rw [BitVec.toNat_ofNat]
  exact Nat.mod_eq_of_lt (Nat.lt_succ_of_le c.length_le)

end Chunk

def chunkBytes (chunks : List Chunk) : Bytes := chunks.flatMap Chunk.bytes

theorem chunkBytes_cons (c : Chunk) (chunks : List Chunk) :
    chunkBytes (c :: chunks) = c.bytes ++ chunkBytes chunks := rfl

theorem chunkBytes_append (chunks more : List Chunk) :
    chunkBytes (chunks ++ more) = chunkBytes chunks ++ chunkBytes more :=
  List.flatMap_append

/-- A value that ends with a full chunk is continued by what is behind it, if that has its type. -/
def PairTlv.Continues (t next : PairTlv) : Prop := t.value.length % 255 = 0 ∧ next.type = t.type

instance (t next : PairTlv) : Decidable (t.Continues next) :=
  inferInstanceAs (Decidable (_ ∧ _))

def PairTlv.join (t : PairTlv) : PairTlvValues → PairTlvValues
  | [] => [t]
  | next :: rest =>
      if t.Continues next then ⟨t.type, t.value ++ next.value⟩ :: rest else t :: next :: rest

def joinChunks (chunks : List Chunk) : PairTlvValues :=
  chunks.foldr (fun c values => c.toPairTlv.join values) []

theorem exists_join (t : PairTlv) (values : PairTlvValues) :
    ∃ value rest, t.join values = ⟨t.type, value⟩ :: rest ∧ rest.length ≤ values.length := by
  cases values with
  | nil => exact ⟨t.value, [], rfl, le_rfl⟩
  | cons next rest =>
      by_cases h : t.Continues next
      · exact ⟨t.value ++ next.value, rest, if_pos h, Nat.le_succ _⟩
      · exact ⟨t.value, next :: rest, if_neg h, le_rfl⟩

theorem Chunk.continues_iff (c : Chunk) (next : PairTlv) :
    c.toPairTlv.Continues next ↔ c.value.length = 255 ∧ next.type = c.type := by
  have := c.length_pos
  have := c.length_le
  refine and_congr_left fun _ => ⟨fun h => ?_, fun h => by rw [h]⟩
  omega

/-! ## A turn over chunks -/

theorem scanChunks_bytes (c : Chunk) (tail : Bytes) :
    scanChunks c.type (c.bytes ++ tail) =
      if c.value.length = 255 then (scanChunks c.type tail).map (255 + ·)
      else some c.value.length := by
  have hfull : BitVec.ofNat 8 c.value.length = 255 ↔ c.value.length = 255 := by
    rw [← BitVec.toNat_inj, c.toNat_size]
    rfl
  rw [Chunk.bytes, List.cons_append, List.cons_append, scanChunks, if_pos rfl, c.toNat_size]
  by_cases h : c.value.length = 255
  · rw [if_pos (hfull.mpr h), if_pos h, List.drop_append_of_le_length h.ge, ← h, List.drop_length,
      List.nil_append]
  · rw [if_neg (hfull.not.mpr h), if_neg h]

theorem copyChunks_zero (buffer : Bytes) : copyChunks 0 buffer = some ([], buffer) := by
  unfold copyChunks
  exact if_pos rfl

theorem copyChunks_bytes (c : Chunk) (tail : Bytes) {remaining : ℤ} (h : remaining ≠ 0) :
    copyChunks remaining (c.bytes ++ tail) =
      (copyChunks (remaining - c.value.length) tail).map fun (data, rest) =>
        (c.value ++ data, rest) := by
  rw [Chunk.bytes, List.cons_append, List.cons_append, copyChunks, if_neg h]
  simp only [c.toNat_size]
  rw [if_pos (by simp), List.drop_left, List.take_left]

theorem scanChunks_of_head_ne {type : BitVec 8} {tail : Bytes} (h : tail.head? ≠ some type) :
    scanChunks type tail = some 0 := by
  match tail with
  | [] => rw [scanChunks]
  | [t] => rw [scanChunks, if_neg fun ht => h (by rw [ht]; rfl)]
  | t :: n :: more => rw [scanChunks, if_neg fun ht => h (by rw [ht]; rfl)]

theorem parseValue_cons (type : BitVec 8) (more : Bytes) :
    parseValue (type :: more) =
      (scanChunks type (type :: more)).bind fun size =>
        (copyChunks size (type :: more)).map fun (data, rest) => (⟨type, data⟩, rest) := by
  rw [parseValue]
  refine congrArg _ (funext fun size => ?_)
  by_cases h : size = 0
  · rw [if_pos h, h, Nat.cast_zero, copyChunks_zero]
    rfl
  · exact if_neg h

/-- A chunk gives a value of its own, or it is put in front of the value that the rest gives. -/
theorem parseValue_bytes (c : Chunk) (tail : Bytes) :
    parseValue (c.bytes ++ tail) =
      if c.value.length = 255 ∧ tail.head? = some c.type then
        (parseValue tail).map fun (t, rest) => (⟨c.type, c.value ++ t.value⟩, rest)
      else some (c.toPairTlv, tail) := by
  have hpos := c.length_pos
  have hturn : parseValue (c.bytes ++ tail) =
      (scanChunks c.type (c.bytes ++ tail)).bind fun size =>
        (copyChunks size (c.bytes ++ tail)).map fun (data, rest) => (⟨c.type, data⟩, rest) :=
    parseValue_cons _ _
  have hcopy (size : ℕ) : copyChunks ((c.value.length + size : ℕ) : ℤ) (c.bytes ++ tail) =
      (copyChunks size tail).map fun (data, rest) => (c.value ++ data, rest) := by
    rw [copyChunks_bytes c tail (by omega)]
    congr 2
    omega
  rw [hturn, scanChunks_bytes]
  by_cases hfull : c.value.length = 255
  · rw [if_pos hfull]
    by_cases hhead : tail.head? = some c.type
    · rw [if_pos ⟨hfull, hhead⟩]
      obtain ⟨more, rfl⟩ : ∃ more, tail = c.type :: more := by
        cases tail with
        | nil => cases hhead
        | cons t more => exact ⟨more, by rw [Option.some.inj hhead]⟩
      rw [parseValue_cons]
      cases scanChunks c.type (c.type :: more) with
      | none => rfl
      | some size =>
          have h := hcopy size
          rw [hfull] at h
          simp only [Option.map_some, Option.bind_some, h]
          cases copyChunks size (c.type :: more) <;> rfl
    · have h := hcopy 0
      rw [hfull] at h
      rw [if_neg fun h => hhead h.2, scanChunks_of_head_ne hhead]
      simp only [Option.map_some, Option.bind_some, h, Nat.cast_zero, copyChunks_zero,
        List.append_nil]
  · have h := hcopy 0
    rw [if_neg hfull, if_neg fun h => hfull h.1]
    rw [Nat.add_zero] at h
    simp only [Option.bind_some, h, Nat.cast_zero, copyChunks_zero, Option.map_some,
      List.append_nil]

/-! ## What chunks are followed by -/

def EmptyChunk (tail : Bytes) : Prop := ∃ type more, tail = type :: 0 :: more

def CutChunk : Bytes → Prop
  | [] => False
  | [_] => True
  | _ :: n :: more => more.length < n.toNat

theorem exists_chunkBytes (buffer : Bytes) :
    ∃ chunks tail, buffer = chunkBytes chunks ++ tail ∧
      (tail = [] ∨ EmptyChunk tail ∨ CutChunk tail) := by
  induction h : buffer.length using Nat.strong_induction_on generalizing buffer with
  | _ k ih =>
      match buffer with
      | [] => exact ⟨[], [], rfl, .inl rfl⟩
      | [t] => exact ⟨[], [t], rfl, .inr (.inr trivial)⟩
      | type :: n :: more =>
          by_cases hcut : more.length < n.toNat
          · exact ⟨[], type :: n :: more, rfl, .inr (.inr hcut)⟩
          by_cases hempty : n = 0
          · exact ⟨[], type :: n :: more, rfl, .inr (.inl ⟨type, more, by rw [hempty]⟩)⟩
          have hlength : (more.take n.toNat).length = n.toNat :=
            List.length_take_of_le (not_lt.mp hcut)
          have hpos : n.toNat ≠ 0 := fun h0 => hempty (BitVec.eq_of_toNat_eq h0)
          have hlt : n.toNat < 256 := n.isLt
          obtain ⟨chunks, tail, heq, htail⟩ :=
            ih _ (by
              rw [← h, List.length_cons, List.length_cons, List.length_drop]
              omega) (more.drop n.toNat) rfl
          refine ⟨⟨⟨type, more.take n.toNat⟩, List.ne_nil_of_length_pos ?_, ?_⟩ :: chunks, tail,
            ?_, htail⟩
          · change 0 < (more.take n.toNat).length
            omega
          · change (more.take n.toNat).length ≤ 255
            omega
          · rw [chunkBytes_cons, List.append_assoc, ← heq]
            simp only [Chunk.bytes, hlength, List.cons_append, List.take_append_drop,
              BitVec.ofNat_toNat, BitVec.setWidth_eq]

theorem parseValue_emptyChunk (type : BitVec 8) (more : Bytes) :
    parseValue (type :: 0 :: more) = some (⟨type, []⟩, type :: 0 :: more) := by
  rw [parseValue, scanChunks, if_pos rfl, if_neg (by decide)]
  rfl

theorem parseValue_cutChunk {tail : Bytes} (h : CutChunk tail) : parseValue tail = none := by
  match tail, h with
  | [t], _ =>
      rw [parseValue, scanChunks, if_pos rfl]
      rfl
  | type :: n :: more, h =>
      replace h : more.length < n.toNat := h
      have hcopy (size : ℕ) : copyChunks size (type :: n :: more) = none ∨ size = 0 := by
        by_cases h0 : size = 0
        · exact .inr h0
        · rw [copyChunks, if_neg (by exact_mod_cast h0)]
          exact .inl (if_neg (not_le.mpr h))
      have hscan : ∃ size, scanChunks type (type :: n :: more) = some size ∧ size ≠ 0 := by
        rw [scanChunks, if_pos rfl]
        by_cases hn : n = 255
        · have hdrop : more.drop 255 = [] := by
            rw [List.drop_eq_nil_iff]
            rw [hn] at h
            exact Nat.le_of_lt h
          rw [if_pos hn, hdrop, scanChunks]
          exact ⟨255, rfl, by decide⟩
        · rw [if_neg hn]
          exact ⟨n.toNat, rfl, by omega⟩
      obtain ⟨size, hscan, hsize⟩ := hscan
      rw [parseValue_cons, hscan, Option.bind_some, (hcopy size).resolve_right hsize]
      rfl

/-! ## The parser over a buffer -/

theorem exists_joinChunks (c : Chunk) (chunks : List Chunk) :
    ∃ value rest, joinChunks (c :: chunks) = ⟨c.type, value⟩ :: rest := by
  obtain ⟨value, rest, h, -⟩ := exists_join c.toPairTlv (joinChunks chunks)
  exact ⟨value, rest, h⟩

/-- Over what follows the chunks, a turn goes wrong or makes no progress. -/
def Stuck (tail : Bytes) : Prop :=
  parseValue tail = none ∨ ∃ type, parseValue tail = some (⟨type, []⟩, tail)

/-- A turn takes the chunks of the first value, if it does not go wrong over what follows them. -/
theorem parseValue_chunkBytes {tail : Bytes} (htail : Stuck tail) (c : Chunk)
    (chunks : List Chunk) :
    (∃ t chunks', joinChunks (c :: chunks) = t :: joinChunks chunks' ∧
      chunks'.length ≤ chunks.length ∧
      parseValue (chunkBytes (c :: chunks) ++ tail) = some (t, chunkBytes chunks' ++ tail)) ∨
    (tail ≠ [] ∧ parseValue tail = none ∧
      parseValue (chunkBytes (c :: chunks) ++ tail) = none) := by
  induction chunks generalizing c with
  | nil =>
      have hturn := parseValue_bytes c tail
      rw [show chunkBytes [c] ++ tail = c.bytes ++ tail by simp [chunkBytes], hturn]
      split
      · rename_i h
        rcases htail with hnone | ⟨type, hsame⟩
        · exact .inr ⟨fun h0 => (by rw [h0] at h; cases h.2), hnone, by rw [hnone]; rfl⟩
        · refine .inl ⟨c.toPairTlv, [], rfl, le_rfl, ?_⟩
          rw [hsame]
          simp [chunkBytes]
      · exact .inl ⟨c.toPairTlv, [], rfl, le_rfl, rfl⟩
  | cons c' chunks ih =>
      have hturn := parseValue_bytes c (chunkBytes (c' :: chunks) ++ tail)
      have hhead : (chunkBytes (c' :: chunks) ++ tail).head? = some c'.type := rfl
      rw [chunkBytes_cons c, List.append_assoc, hturn, hhead]
      obtain ⟨value, rest, hjoin⟩ := exists_joinChunks c' chunks
      have hcons : joinChunks (c :: c' :: chunks) = c.toPairTlv.join (joinChunks (c' :: chunks)) :=
        rfl
      by_cases h : c.value.length = 255 ∧ c'.type = c.type
      · rw [if_pos ⟨h.1, by rw [h.2]⟩]
        refine (ih c').imp (fun ⟨t, chunks', ht, hle, hparse⟩ => ?_) fun ⟨hne, hnone, hparse⟩ => ?_
        · refine ⟨⟨c.type, c.value ++ t.value⟩, chunks', ?_, Nat.le_succ_of_le hle, ?_⟩
          · have htype : t.type = c.type := by
              rw [hjoin] at ht
              rw [← (List.cons.inj ht).1]
              exact h.2
            rw [hcons, ht]
            exact if_pos ((c.continues_iff t).mpr ⟨h.1, htype⟩)
          · rw [hparse]
            rfl
        · exact ⟨hne, hnone, by rw [hparse]; rfl⟩
      · rw [if_neg fun h' => h ⟨h'.1, Option.some.inj h'.2⟩]
        refine .inl ⟨c.toPairTlv, c' :: chunks, ?_, le_rfl, rfl⟩
        rw [hcons, hjoin]
        exact if_neg fun h' => h ((c.continues_iff _).mp h')

/-- The turn of a parser that has something to read -/
theorem turn_running {buffer : Bytes} (hne : buffer ≠ []) (values : PairTlvValues) :
    (Parse.running values buffer).turn =
      match parseValue buffer with
      | none => .outside
      | some (t, rest) => .running (values ++ [t]) rest := by
  cases buffer with
  | nil => exact absurd rfl hne
  | cons b rest => rfl

theorem chunkBytes_cons_ne (c : Chunk) (chunks : List Chunk) (tail : Bytes) :
    chunkBytes (c :: chunks) ++ tail ≠ [] := List.cons_ne_nil _ _

/-- The parser gets to what follows the chunks, or over the last ones it goes wrong. -/
theorem exists_turns_chunkBytes {tail : Bytes} (htail : Stuck tail) (chunks : List Chunk)
    (values : PairTlvValues) :
    ∃ turns,
      (turns ≤ chunks.length ∧ Parse.turn^[turns] (.running values (chunkBytes chunks ++ tail)) =
        .running (values ++ joinChunks chunks) tail) ∨
      (tail ≠ [] ∧ parseValue tail = none ∧
        Parse.turn^[turns] (.running values (chunkBytes chunks ++ tail)) = .outside) := by
  induction h : chunks.length using Nat.strong_induction_on generalizing chunks values with
  | _ k ih =>
      cases chunks with
      | nil =>
          refine ⟨0, .inl ⟨Nat.zero_le _, ?_⟩⟩
          rw [show joinChunks [] = [] from rfl, List.append_nil]
          rfl
      | cons c chunks =>
          rw [List.length_cons] at h
          have hturn := turn_running (chunkBytes_cons_ne c chunks tail) values
          rcases parseValue_chunkBytes htail c chunks with
            ⟨t, chunks', hjoin, hle, hparse⟩ | ⟨hne, hnone, hparse⟩
          · obtain ⟨turns, hend⟩ := ih chunks'.length (by omega) chunks' (values ++ [t]) rfl
            refine ⟨turns + 1, ?_⟩
            rw [Function.iterate_succ_apply, hturn, hparse, hjoin]
            simp only [List.append_assoc, List.singleton_append] at hend
            exact hend.imp_left fun h => ⟨by omega, h.2⟩
          · refine ⟨1, .inr ⟨hne, hnone, ?_⟩⟩
            rw [Function.iterate_one, hturn, hparse]

theorem stuck_of_tail {tail : Bytes} (h : tail = [] ∨ EmptyChunk tail ∨ CutChunk tail) :
    Stuck tail := by
  rcases h with rfl | ⟨type, more, rfl⟩ | h
  · exact .inl rfl
  · exact .inr ⟨type, parseValue_emptyChunk type more⟩
  · exact .inl (parseValue_cutChunk h)

theorem exists_returned (chunks : List Chunk) :
    ∃ turns ≤ chunks.length + 1,
      pairTlvParse (chunkBytes chunks) turns = .returned (joinChunks chunks) := by
  obtain ⟨turns, ⟨hle, h⟩ | ⟨h, -⟩⟩ :=
    exists_turns_chunkBytes (stuck_of_tail (.inl rfl)) chunks []
  · refine ⟨turns + 1, Nat.succ_le_succ hle, ?_⟩
    rw [List.append_nil] at h
    rw [pairTlvParse, Function.iterate_succ_apply', h]
    rfl
  · exact absurd rfl h

theorem exists_outside (chunks : List Chunk) {tail : Bytes} (h : CutChunk tail) :
    ∃ turns, pairTlvParse (chunkBytes chunks ++ tail) turns = .outside := by
  obtain ⟨turns, ⟨-, hturns⟩ | ⟨-, -, hturns⟩⟩ :=
    exists_turns_chunkBytes (stuck_of_tail (.inr (.inr h))) chunks []
  · refine ⟨turns + 1, ?_⟩
    have hne : tail ≠ [] := fun h0 => by
      rw [h0] at h
      exact h
    rw [pairTlvParse, Function.iterate_succ_apply', hturns, turn_running hne,
      parseValue_cutChunk h]
  · exact ⟨turns, hturns⟩

theorem exists_turns_emptyChunk (chunks : List Chunk) (type : BitVec 8) (more : Bytes) :
    ∃ turns, ∀ k, pairTlvParse (chunkBytes chunks ++ type :: 0 :: more) (turns + k) =
      .running (joinChunks chunks ++ List.replicate k ⟨type, []⟩) (type :: 0 :: more) := by
  obtain ⟨turns, ⟨-, h⟩ | ⟨-, h, -⟩⟩ :=
    exists_turns_chunkBytes (stuck_of_tail (.inr (.inl ⟨type, more, rfl⟩))) chunks []
  · refine ⟨turns, fun k => ?_⟩
    induction k with
    | zero =>
        rw [pairTlvParse, Nat.add_zero, h, List.replicate_zero, List.append_nil, List.nil_append]
    | succ k ih =>
        rw [pairTlvParse] at ih
        rw [pairTlvParse, ← Nat.add_assoc, Function.iterate_succ_apply', ih,
          turn_running (List.cons_ne_nil _ _), parseValue_emptyChunk, List.replicate_succ',
          ← List.append_assoc]
  · rw [parseValue_emptyChunk] at h
    cases h

/-! ## Ends -/

theorem eq_of_iterate_fixed {α : Type*} {f : α → α} {s p q : α} {m n : ℕ} (hp : f p = p)
    (hq : f q = q) (hm : f^[m] s = p) (hn : f^[n] s = q) : p = q := by
  have h := Function.iterate_add_apply f n m s
  rw [hm, Function.iterate_fixed hp, Nat.add_comm, Function.iterate_add_apply, hn,
    Function.iterate_fixed hq] at h
  exact h.symm

theorem not_end_of_emptyChunk (chunks : List Chunk) (type : BitVec 8) (more : Bytes) {p : Parse}
    (hp : p.turn = p) (hrunning : ∀ values rest, p ≠ .running values rest) (turns : ℕ) :
    pairTlvParse (chunkBytes chunks ++ type :: 0 :: more) turns ≠ p := by
  intro h
  obtain ⟨start, hstart⟩ := exists_turns_emptyChunk chunks type more
  have hlate := hstart turns
  rw [pairTlvParse, Function.iterate_add_apply] at hlate
  rw [pairTlvParse] at h
  rw [h, Function.iterate_fixed hp] at hlate
  exact hrunning _ _ hlate

theorem pairTlvParse_returned_iff (buffer : Bytes) (values : PairTlvValues) :
    (∃ turns, pairTlvParse buffer turns = .returned values) ↔
      ∃ chunks, buffer = chunkBytes chunks ∧ values = joinChunks chunks := by
  constructor
  · rintro ⟨turns, h⟩
    obtain ⟨chunks, tail, rfl, rfl | ⟨type, more, rfl⟩ | hcut⟩ := exists_chunkBytes buffer
    · rw [List.append_nil] at h ⊢
      obtain ⟨turns', -, h'⟩ := exists_returned chunks
      have := eq_of_iterate_fixed rfl rfl h h'
      exact ⟨chunks, rfl, Parse.returned.inj this⟩
    · exact absurd h (not_end_of_emptyChunk chunks type more rfl (fun _ _ h => by cases h) turns)
    · obtain ⟨turns', h'⟩ := exists_outside chunks hcut
      cases eq_of_iterate_fixed rfl rfl h h'
  · rintro ⟨chunks, rfl, rfl⟩
    obtain ⟨turns, -, h⟩ := exists_returned chunks
    exact ⟨turns, h⟩

theorem length_le_chunkBytes (chunks : List Chunk) :
    chunks.length ≤ (chunkBytes chunks).length := by
  induction chunks with
  | nil => exact le_rfl
  | cons c chunks ih =>
      rw [chunkBytes_cons, List.length_cons, List.length_append, Chunk.bytes, List.length_cons]
      omega

/-- The values that `pair_tlv_parse` returns for a buffer, if it does -/
def parsedValues (buffer : Bytes) : Option PairTlvValues :=
  match pairTlvParse buffer (buffer.length + 1) with
  | .returned values => some values
  | _ => none

theorem parsedValues_eq_some_iff {buffer : Bytes} {values : PairTlvValues} :
    parsedValues buffer = some values ↔
      ∃ turns, pairTlvParse buffer turns = .returned values := by
  constructor
  · intro h
    refine ⟨buffer.length + 1, ?_⟩
    rw [parsedValues] at h
    split at h
    · rename_i hreturned
      rw [hreturned, Option.some.inj h]
    · cases h
  · intro h
    obtain ⟨chunks, rfl, rfl⟩ := (pairTlvParse_returned_iff buffer values).mp h
    obtain ⟨turns, hle, hturns⟩ := exists_returned chunks
    obtain ⟨more, hmore⟩ := Nat.exists_eq_add_of_le
      (hle.trans (Nat.succ_le_succ (length_le_chunkBytes chunks)))
    have hlate : pairTlvParse (chunkBytes chunks) ((chunkBytes chunks).length + 1) =
        .returned (joinChunks chunks) := by
      rw [pairTlvParse] at hturns
      rw [pairTlvParse, ← Nat.succ_eq_add_one, hmore, Nat.add_comm, Function.iterate_add_apply,
        hturns, Function.iterate_fixed rfl]
    rw [parsedValues, hlate]

theorem pairTlvParse_outside_iff (buffer : Bytes) :
    (∃ turns, pairTlvParse buffer turns = .outside) ↔
      ∃ chunks tail, buffer = chunkBytes chunks ++ tail ∧ CutChunk tail := by
  constructor
  · rintro ⟨turns, h⟩
    obtain ⟨chunks, tail, rfl, rfl | ⟨type, more, rfl⟩ | hcut⟩ := exists_chunkBytes buffer
    · rw [List.append_nil] at h
      obtain ⟨turns', -, h'⟩ := exists_returned chunks
      cases eq_of_iterate_fixed rfl rfl h h'
    · exact absurd h (not_end_of_emptyChunk chunks type more rfl (fun _ _ h => by cases h) turns)
    · exact ⟨chunks, tail, rfl, hcut⟩
  · rintro ⟨chunks, tail, rfl, hcut⟩
    exact exists_outside chunks hcut

theorem pairTlvParse_running_iff (buffer : Bytes) :
    (∀ turns, ∃ values rest, pairTlvParse buffer turns = .running values rest) ↔
      ∃ chunks tail, buffer = chunkBytes chunks ++ tail ∧ EmptyChunk tail := by
  constructor
  · intro h
    obtain ⟨chunks, tail, rfl, rfl | hempty | hcut⟩ := exists_chunkBytes buffer
    · obtain ⟨turns, -, hturns⟩ := exists_returned chunks
      rw [List.append_nil] at h
      obtain ⟨values, rest, hrunning⟩ := h turns
      rw [hturns] at hrunning
      cases hrunning
    · exact ⟨chunks, tail, rfl, hempty⟩
    · obtain ⟨turns, hturns⟩ := exists_outside chunks hcut
      obtain ⟨values, rest, hrunning⟩ := h turns
      rw [hturns] at hrunning
      cases hrunning
  · rintro ⟨chunks, tail, rfl, type, more, rfl⟩ turns
    cases h : pairTlvParse (chunkBytes chunks ++ type :: 0 :: more) turns with
    | running values rest => exact ⟨values, rest, rfl⟩
    | outside =>
        exact absurd h (not_end_of_emptyChunk chunks type more rfl (fun _ _ h => by cases h) turns)
    | returned values =>
        exact absurd h (not_end_of_emptyChunk chunks type more rfl (fun _ _ h => by cases h) turns)

/-- The parser returns the values of the chunks, reads behind the buffer, or adds empty values for
ever, according to what the whole chunks at the start of the buffer are followed by. -/
theorem pairTlvParse_fate (buffer : Bytes) :
    (∀ values, (∃ turns, pairTlvParse buffer turns = .returned values) ↔
      ∃ chunks, buffer = chunkBytes chunks ∧ values = joinChunks chunks) ∧
    ((∃ turns, pairTlvParse buffer turns = .outside) ↔
      ∃ chunks tail, buffer = chunkBytes chunks ++ tail ∧ CutChunk tail) ∧
    ((∀ turns, ∃ values rest, pairTlvParse buffer turns = .running values rest) ↔
      ∃ chunks tail, buffer = chunkBytes chunks ++ tail ∧ EmptyChunk tail) :=
  ⟨pairTlvParse_returned_iff buffer, pairTlvParse_outside_iff buffer,
    pairTlvParse_running_iff buffer⟩

/-! ## What has been written is read -/

theorem formatChunks_nil (type : BitVec 8) : formatChunks type [] = [] := by
  rw [formatChunks, if_pos rfl]

theorem exists_formatChunks (type : BitVec 8) {data : Bytes} (hdata : data ≠ []) :
    ∃ chunks, formatChunks type data = chunkBytes chunks ∧
      ∀ rest, joinChunks (chunks ++ rest) = PairTlv.join ⟨type, data⟩ (joinChunks rest) := by
  induction h : data.length using Nat.strong_induction_on generalizing data with
  | _ k ih =>
      have hpos := List.length_pos_iff.mpr hdata
      rw [formatChunks, if_neg hdata]
      by_cases hlong : 255 < data.length
      · rw [if_pos hlong]
        have htake : (data.take 255).length = 255 := List.length_take_of_le hlong.le
        have hdrop : (data.drop 255).length = data.length - 255 := List.length_drop
        obtain ⟨chunks, hbytes, hjoin⟩ := ih (data.drop 255).length (by omega)
          (List.ne_nil_of_length_pos (show 0 < (data.drop 255).length by omega)) rfl
        let c : Chunk :=
          ⟨⟨type, data.take 255⟩,
            List.ne_nil_of_length_pos (show 0 < (data.take 255).length by omega), htake.le⟩
        refine ⟨c :: chunks, ?_, fun rest => ?_⟩
        · rw [chunkBytes_cons, ← hbytes]
          simp only [c, Chunk.bytes, htake]
        · have hcons : joinChunks (c :: chunks ++ rest) =
              c.toPairTlv.join (joinChunks (chunks ++ rest)) := rfl
          have hfull (next : PairTlv) (hnext : next.type = type) : c.toPairTlv.Continues next :=
            (c.continues_iff next).mpr ⟨htake, hnext⟩
          rw [hcons, hjoin]
          cases joinChunks rest with
          | nil =>
              refine (if_pos (hfull ⟨type, _⟩ rfl)).trans ?_
              simp [c, PairTlv.join]
          | cons next values =>
              have hiff : PairTlv.Continues ⟨type, data.drop 255⟩ next ↔
                  PairTlv.Continues ⟨type, data⟩ next := by
                refine and_congr_left fun _ => ?_
                change (data.drop 255).length % 255 = 0 ↔ data.length % 255 = 0
                omega
              unfold PairTlv.join
              by_cases hnext : PairTlv.Continues ⟨type, data⟩ next
              · simp only [if_pos (hiff.mpr hnext), if_pos hnext, if_pos (hfull ⟨type, _⟩ rfl)]
                simp [c, ← List.append_assoc]
              · simp only [if_neg (hiff.not.mpr hnext), if_neg hnext,
                  if_pos (hfull ⟨type, _⟩ rfl)]
                simp [c]
      · rw [if_neg hlong]
        refine ⟨[⟨⟨type, data⟩, hdata, not_lt.mp hlong⟩], ?_, fun rest => rfl⟩
        simp only [List.drop_length, formatChunks_nil, List.take_length]
        simp [chunkBytes, Chunk.bytes]

def joinValues (values : PairTlvValues) : PairTlvValues := values.foldr PairTlv.join []

theorem exists_formatValues {values : PairTlvValues} (h : ∀ t ∈ values, t.value ≠ []) :
    ∃ chunks, values.flatMap formatValue = chunkBytes chunks ∧
      joinChunks chunks = joinValues values := by
  induction values with
  | nil => exact ⟨[], rfl, rfl⟩
  | cons t values ih =>
      obtain ⟨rest, hrest, hjoin⟩ := ih fun t' ht' => h t' (List.mem_cons_of_mem _ ht')
      have ht := h t List.mem_cons_self
      obtain ⟨chunks, hchunks, hfirst⟩ := exists_formatChunks t.type ht
      refine ⟨chunks ++ rest, ?_, ?_⟩
      · rw [List.flatMap_cons, hrest, formatValue, if_neg ht, hchunks, chunkBytes_append]
      · rw [hfirst, hjoin]
        rfl

theorem exists_formatValues_empty {values : PairTlvValues} {t : PairTlv} (ht : t ∈ values)
    (hempty : t.value = []) :
    ∃ chunks tail, values.flatMap formatValue = chunkBytes chunks ++ tail ∧ EmptyChunk tail := by
  induction values with
  | nil => cases ht
  | cons first values ih =>
      rw [List.flatMap_cons, formatValue]
      by_cases hfirst : first.value = []
      · exact ⟨[], _, rfl, first.type, _, by rw [if_pos hfirst]; rfl⟩
      · obtain ⟨chunks, hchunks, -⟩ := exists_formatChunks first.type hfirst
        have ht : t ∈ values := (List.mem_cons.mp ht).resolve_left fun h => hfirst (h ▸ hempty)
        obtain ⟨rest, tail, hrest, htail⟩ := ih ht
        refine ⟨chunks ++ rest, tail, ?_, htail⟩
        rw [if_neg hfirst, hchunks, hrest, chunkBytes_append, List.append_assoc]

theorem length_joinValues_le (values : PairTlvValues) :
    (joinValues values).length ≤ values.length := by
  induction values with
  | nil => exact le_rfl
  | cons t values ih =>
      obtain ⟨value, rest, h, hle⟩ := exists_join t (joinValues values)
      have hcons : joinValues (t :: values) = ⟨t.type, value⟩ :: rest := h
      rw [hcons, List.length_cons, List.length_cons]
      omega

/-- No value is continued by the next one. -/
abbrev Separate (values : PairTlvValues) : Prop :=
  values.IsChain fun t next => ¬ t.Continues next

theorem joinValues_eq_iff (values : PairTlvValues) :
    joinValues values = values ↔ Separate values := by
  induction values with
  | nil => exact ⟨fun _ => List.isChain_nil, fun _ => rfl⟩
  | cons t values ih =>
      cases values with
      | nil => exact ⟨fun _ => List.isChain_singleton _, fun _ => rfl⟩
      | cons next values =>
          obtain ⟨value, rest, hjoin, -⟩ := exists_join next (joinValues values)
          have htail : joinValues (next :: values) = ⟨next.type, value⟩ :: rest := hjoin
          have hcons : joinValues (t :: next :: values) =
              t.join (⟨next.type, value⟩ :: rest) := congrArg t.join htail
          have hseparate : Separate (t :: next :: values) ↔
              ¬ t.Continues next ∧ Separate (next :: values) := List.isChain_cons_cons
          rw [hseparate, ← ih, htail, hcons]
          by_cases hcontinues : t.Continues next
          · have hshorter := length_joinValues_le (next :: values)
            rw [htail] at hshorter
            refine ⟨fun h => ?_, fun h => absurd hcontinues h.1⟩
            have hlength := congrArg List.length ((if_pos hcontinues).symm.trans h)
            simp only [List.length_cons] at hlength hshorter
            omega
          · have hkeep : t.join (⟨next.type, value⟩ :: rest) = t :: ⟨next.type, value⟩ :: rest :=
              if_neg hcontinues
            rw [hkeep, List.cons.injEq]
            exact ⟨fun h => ⟨hcontinues, h.2⟩, fun h => ⟨rfl, h.2⟩⟩

theorem parsedValues_flatMap {values : PairTlvValues} (hempty : ∀ t ∈ values, t.value ≠ [])
    (hseparate : Separate values) : parsedValues (values.flatMap formatValue) = some values := by
  obtain ⟨chunks, hbytes, hjoin⟩ := exists_formatValues hempty
  obtain ⟨turns, -, hturns⟩ := exists_returned chunks
  rw [hjoin, (joinValues_eq_iff values).mpr hseparate, ← hbytes] at hturns
  exact parsedValues_eq_some_iff.mpr ⟨turns, hturns⟩

/-- What has been formatted is parsed to the same values exactly if none is empty and none is
continued by the next one. -/
theorem pairTlvParse_format_iff (values : PairTlvValues) {size : ℕ}
    (hsize : requiredSize values ≤ size) :
    (∃ turns, pairTlvParse (pairTlvFormat values size).written turns = .returned values) ↔
      (∀ t ∈ values, t.value ≠ []) ∧ Separate values := by
  have hwritten : (pairTlvFormat values size).written = values.flatMap formatValue := by
    rw [pairTlvFormat, if_neg (not_lt.mpr hsize)]
  rw [hwritten]
  by_cases hempty : ∀ t ∈ values, t.value ≠ []
  · obtain ⟨chunks, hbytes, hjoin⟩ := exists_formatValues hempty
    obtain ⟨turns, -, hturns⟩ := exists_returned chunks
    rw [hbytes, and_iff_right hempty, ← joinValues_eq_iff, ← hjoin]
    refine ⟨fun ⟨turns', h⟩ => ?_, fun h => ⟨turns, by rw [hturns, h]⟩⟩
    exact Parse.returned.inj (eq_of_iterate_fixed rfl rfl hturns h)
  · refine ⟨fun ⟨turns, h⟩ => ?_, fun h => absurd h.1 hempty⟩
    obtain ⟨t, ht, hnil⟩ : ∃ t ∈ values, t.value = [] := by simpa using hempty
    obtain ⟨chunks, _, hbytes, type, more, rfl⟩ := exists_formatValues_empty ht hnil
    rw [hbytes] at h
    exact absurd h (not_end_of_emptyChunk chunks type more rfl (fun _ _ h => by cases h) turns)

theorem pairTlvParse_format_two :
    ∃ turns, pairTlvParse (pairTlvFormat [⟨6, [2]⟩, ⟨1, [65, 66]⟩] 4096).written turns =
      .returned [⟨6, [2]⟩, ⟨1, [65, 66]⟩] :=
  (pairTlvParse_format_iff [⟨6, [2]⟩, ⟨1, [65, 66]⟩] (by decide)).mpr ⟨by decide, by decide⟩

/-! ## The size that is written -/

theorem length_formatChunks (type : BitVec 8) (data : Bytes) :
    (formatChunks type data).length = data.length + 2 * ((data.length + 254) / 255) := by
  induction h : data.length using Nat.strong_induction_on generalizing data with
  | _ k ih =>
      by_cases hdata : data = []
      · rw [← h, hdata, formatChunks_nil]
        rfl
      · have hpos := List.length_pos_iff.mpr hdata
        have hdrop (n : ℕ) : (data.drop n).length = data.length - n := List.length_drop
        rw [formatChunks, if_neg hdata, List.length_append, List.length_cons, List.length_cons,
          List.length_take, ih _ (by rw [hdrop]; split <;> omega) _ rfl, hdrop]
        split <;> omega

theorem length_written (values : PairTlvValues) :
    (values.flatMap formatValue).length =
      requiredSize values + 2 * values.countP fun t => t.value = [] := by
  induction values with
  | nil => rfl
  | cons t values ih =>
      have hcons : requiredSize (t :: values) =
          t.value.length + 2 * ((t.value.length + 254) / 255) + requiredSize values :=
        List.sum_cons
      rw [List.flatMap_cons, List.length_append, ih, hcons, List.countP_cons, formatValue]
      by_cases h : t.value = []
      · simp only [h, if_true, List.length_cons, List.length_nil, decide_true]
        omega
      · simp only [h, if_false, length_formatChunks, decide_false, Bool.false_eq_true]
        omega

end Pairing

end ShairportSync
