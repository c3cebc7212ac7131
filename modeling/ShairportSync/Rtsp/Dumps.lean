import ShairportSync.Rtsp.Response

/-!
# Diagnostic dumps of the content

The content of a request with an unknown method is printed in hexadecimal digits, two for each byte,
to an array of 4096 bytes; the limit is on the number of bytes. The content of an ANNOUNCE of an
unknown stream type is printed line by line, when `nextline` has put NULs in the place of the line
ends. The loop goes on by the length of one line, and counts down by that of the next.
-/

namespace ShairportSync

namespace Rtsp

open Player (Bytes)
open Memory

/-- The content of a request. Its length is an `int` that is not negative
(`contentLengthHeader_lt`). -/
structure RequestContent where
  bytes : Bytes
  length_lt : bytes.length < 2 ^ 31

/-! ## The dump in hexadecimal digits -/

abbrev obfSize : ℕ := 4096

/-- A number printed with `%02X`. -/
def hexUpper (n : ℕ) : Bytes :=
  let digits := ((Nat.digits 16 n).map fun d =>
    BitVec.ofNat 8 (if d < 10 then 48 + d else 55 + d)).reverse
  List.replicate (2 - digits.length) (charByte '0') ++ digits

/-- The memory from the start of `obf` on, the place for the next digits, and what has been written
where. -/
structure ObfWriter where
  memory : Int → BitVec 8
  obfp : ℕ
  writes : List Write

def ObfWriter.put (w : ObfWriter) (bytes : Bytes) : ObfWriter :=
  { w with memory := store w.memory w.obfp bytes, writes := w.writes ++ [⟨w.obfp, bytes.length⟩] }

/-- `snprintf(obfp, 3, "%02X", (unsigned int)*p); obfp += 2;`, where a `char` is signed. -/
def ObfWriter.putHex (w : ObfWriter) (b : BitVec 8) : ObfWriter :=
  { w.put (printed 3 (hexUpper (b.signExtend 32).toNat)) with obfp := w.obfp + 2 }

def hexDump (memory : Int → BitVec 8) (content : RequestContent) : ObfWriter :=
  let w : ObfWriter := ⟨memory, 0, []⟩
  if 0 < content.bytes.length then
    let y := if obfSize < content.bytes.length then obfSize else content.bytes.length
    ((content.bytes.take y).foldl ObfWriter.putHex w).put [0]
  else w

/-! ## The dump line by line -/

/-- The content when `nextline` has gone through it: NULs are in the place of the line ends. -/
def lineEndsToNul (content : Bytes) : Bytes :=
  content.map fun b => if b = cr ∨ b = lf then 0 else b

def strlen (memory : Bytes) (cp : ℕ) : ℕ := (cString (memory.drop cp)).length

/-- The loop: what it reads, if it ends after at most so many turns. -/
def dumpLines (memory : Bytes) : ℕ → ℕ → Int → Option (List Read)
  | 0, _, cpLeft => if 1 < cpLeft then none else some []
  | turns + 1, cp, cpLeft =>
      if 1 < cpLeft then
        let next := cp + (strlen memory cp + 1)
        let cpLeft := cpLeft - (strlen memory next + 1 : ℕ)
        (dumpLines memory turns next cpLeft).map fun reads =>
          ⟨cp, strlen memory cp + 1⟩ :: ⟨next, strlen memory next + 1⟩ :: reads
      else some []

def contentAndNul (content beyond : Bytes) : Bytes := lineEndsToNul content ++ 0 :: beyond

def lineDump (beyond : Bytes) (content : RequestContent) (turns : ℕ) : Option (List Read) :=
  dumpLines (contentAndNul content.bytes beyond) turns 0 content.bytes.length

/-- What the first dump writes is inside its array, and the second ends and does not read behind the
terminating NUL. -/
structure DumpsInBounds (memory : Int → BitVec 8) (beyond : Bytes) (content : RequestContent) :
    Prop where
  hexDump : ∀ w ∈ (hexDump memory content).writes, w.Inside obfSize
  lineDump : ∃ turns reads, lineDump beyond content turns = some reads ∧
    ∀ r ∈ reads, r.Inside (content.bytes.length + 1)

/-! ## Hexadecimal digits -/

section HexDump

variable {size : ℕ}

theorem two_le_length_hexUpper (n : ℕ) : 2 ≤ (hexUpper n).length := by
  rw [hexUpper, List.length_append, List.length_replicate]
  omega

theorem length_printed_hexUpper (n : ℕ) : (printed 3 (hexUpper n)).length = 3 := by
  rw [printed, if_neg (by decide), List.length_append,
    List.length_take_of_le (two_le_length_hexUpper n)]
  rfl

theorem putHex_writes (w : ObfWriter) (b : BitVec 8) :
    (∀ v ∈ (w.putHex b).writes, v.Inside size) ↔
      (∀ v ∈ w.writes, v.Inside size) ∧ w.obfp + 3 ≤ size := by
  simp only [ObfWriter.putHex, ObfWriter.put, List.forall_mem_append, List.forall_mem_singleton,
    Write.Inside, length_printed_hexUpper]
  refine and_congr_right fun _ => ⟨fun h => ?_, fun h => ⟨Int.natCast_nonneg _, ?_⟩⟩ <;> omega

theorem foldl_putHex_writes (bytes : Bytes) (w : ObfWriter) :
    (bytes.foldl ObfWriter.putHex w).obfp = w.obfp + 2 * bytes.length ∧
      ((∀ v ∈ (bytes.foldl ObfWriter.putHex w).writes, v.Inside size) ↔
        (∀ v ∈ w.writes, v.Inside size) ∧
          (bytes ≠ [] → w.obfp + 2 * bytes.length + 1 ≤ size)) := by
  induction bytes generalizing w with
  | nil => exact ⟨rfl, by simp⟩
  | cons b bytes ih =>
      obtain ⟨hobfp, hwrites⟩ := ih (w.putHex b)
      have hnext : (w.putHex b).obfp = w.obfp + 2 := rfl
      rw [List.foldl_cons, hobfp, hwrites, putHex_writes, hnext, List.length_cons, and_assoc]
      refine ⟨by omega, and_congr_right fun _ => ⟨fun h _ => ?_, fun h => ⟨?_, fun _ => ?_⟩⟩⟩
      · cases bytes with
        | nil =>
            simp only [List.length_nil]
            omega
        | cons c bytes =>
            have hrest := h.2 (List.cons_ne_nil c bytes)
            omega
      · have hall := h (List.cons_ne_nil b bytes)
        omega
      · have hall := h (List.cons_ne_nil b bytes)
        omega

theorem hexDump_inside_iff (memory : Int → BitVec 8) (content : RequestContent) :
    (∀ w ∈ (hexDump memory content).writes, w.Inside obfSize) ↔ content.bytes.length ≤ 2047 := by
  rw [hexDump]
  split
  · next hpos =>
    obtain ⟨y, hy⟩ : ∃ y, y = if obfSize < content.bytes.length then obfSize
        else content.bytes.length := ⟨_, rfl⟩
    have hlength : (content.bytes.take y).length = y := by
      rw [List.length_take_of_le]
      split_ifs at hy <;> omega
    have hne : content.bytes.take y ≠ [] := by
      rw [← List.length_pos_iff, hlength]
      simp only [obfSize] at hy
      split_ifs at hy <;> omega
    obtain ⟨hobfp, hwrites⟩ := @foldl_putHex_writes obfSize (content.bytes.take y) ⟨memory, 0, []⟩
    simp only [← hy]
    rw [ObfWriter.put, List.forall_mem_append, List.forall_mem_singleton, hwrites, hobfp, hlength]
    constructor
    · rintro ⟨-, -, hend⟩
      simp only [List.length_singleton, obfSize] at hend hy
      split_ifs at hy <;> omega
    · intro hlength
      simp only [obfSize] at hy ⊢
      rw [if_neg (by omega)] at hy
      refine ⟨⟨List.forall_mem_nil _, fun _ => by omega⟩, Int.natCast_nonneg _, ?_⟩
      simp only [List.length_singleton]
      omega
  · next hzero =>
    simp only [List.not_mem_nil, false_implies, implies_true, true_iff]
    omega

end HexDump

/-! ## Line ends and strings -/

section Lines

variable {content beyond : Bytes}

theorem length_lineEndsToNul (content : Bytes) :
    (lineEndsToNul content).length = content.length := List.length_map _

theorem lineEndsToNul_of_nextline {line rest : Bytes} (h : nextline content = some (line, rest)) :
    ∃ count ∈ [1, 2], lineEndsToNul content =
      line ++ List.replicate count 0 ++ lineEndsToNul rest := by
  induction content generalizing line with
  | nil => exact absurd h.symm (Option.some_ne_none _)
  | cons b content ih =>
      have hcons : lineEndsToNul (b :: content) =
          (if b = cr ∨ b = lf then 0 else b) :: lineEndsToNul content := rfl
      rw [nextline] at h
      split_ifs at h with hcr hlf
      · obtain ⟨rfl, rfl⟩ := Prod.mk.inj (Option.some.inj h)
        rw [hcons, if_pos (Or.inl hcr)]
        cases content with
        | nil => exact ⟨1, by simp, rfl⟩
        | cons c content =>
            rw [skipLf]
            split_ifs with hskip
            · refine ⟨2, by simp, ?_⟩
              rw [hskip]
              rfl
            · exact ⟨1, by simp, rfl⟩
      · obtain ⟨rfl, rfl⟩ := Prod.mk.inj (Option.some.inj h)
        rw [hcons, if_pos (Or.inr hlf)]
        exact ⟨1, by simp, rfl⟩
      · obtain ⟨⟨line', rest'⟩, hline, heq⟩ := Option.map_eq_some_iff.mp h
        obtain ⟨rfl, rfl⟩ := Prod.mk.inj heq
        obtain ⟨count, hcount, hcontent⟩ := ih hline
        refine ⟨count, hcount, ?_⟩
        rw [hcons, if_neg (not_or.mpr ⟨hcr, hlf⟩), hcontent]
        rfl

theorem cString_append_zero (xs ys : Bytes) : cString (xs ++ 0 :: ys) = cString xs := by
  induction xs with
  | nil => rfl
  | cons x xs ih =>
      rw [cString, cString, List.cons_append, List.takeWhile_cons, List.takeWhile_cons]
      split
      · exact congrArg _ ih
      · rfl

theorem strlen_contentAndNul {cp : ℕ} (hcp : cp ≤ content.length) :
    strlen (contentAndNul content beyond) cp =
      (cString ((lineEndsToNul content).drop cp)).length := by
  rw [strlen, contentAndNul, List.drop_append_of_le_length (by rwa [length_lineEndsToNul]),
    cString_append_zero]

theorem add_strlen_le {cp : ℕ} (hcp : cp ≤ content.length) :
    cp + strlen (contentAndNul content beyond) cp ≤ content.length := by
  have hle : (cString ((lineEndsToNul content).drop cp)).length ≤
      ((lineEndsToNul content).drop cp).length := (List.takeWhile_prefix _).length_le
  rw [List.length_drop, length_lineEndsToNul] at hle
  rw [strlen_contentAndNul hcp]
  omega

theorem read_inside {cp size count : ℕ} (h : cp + count ≤ size) :
    (⟨cp, count⟩ : Read).Inside size :=
  ⟨Int.natCast_nonneg _, show (cp : Int) + count ≤ size by exact_mod_cast h⟩

variable {first cp : ℕ} {cpLeft : Int}

/-- What is left is counted from the end of the line on, and the length of the first line is left
over. If that is at most 1 the loop ends with the last line. -/
theorem dumpLines_short (hfirst : first ≤ 1) (turns : ℕ) (hcp : cp ≤ content.length)
    (hturns : content.length - cp ≤ turns)
    (hleft : cpLeft + cp + strlen (contentAndNul content beyond) cp = first + content.length) :
    ∃ reads, dumpLines (contentAndNul content beyond) turns cp cpLeft = some reads ∧
      ∀ r ∈ reads, r.Inside (content.length + 1) := by
  have hend := @add_strlen_le content beyond cp hcp
  induction turns generalizing cp cpLeft with
  | zero => exact ⟨[], by rw [dumpLines, if_neg (by omega)], List.forall_mem_nil _⟩
  | succ turns ih =>
      rw [dumpLines]
      split
      · obtain ⟨next, hnext⟩ : ∃ next, next = cp + (strlen (contentAndNul content beyond) cp + 1) :=
          ⟨_, rfl⟩
        have hle : next ≤ content.length := by omega
        have hnextEnd := @add_strlen_le content beyond next hle
        obtain ⟨reads, hreads, hinside⟩ := @ih next
          (cpLeft - (strlen (contentAndNul content beyond) next + 1 : ℕ)) hle (by omega) (by omega)
          hnextEnd
        simp only [← hnext, hreads, Option.map_some]
        refine ⟨_, rfl, List.forall_mem_cons.mpr ⟨read_inside (by omega),
          List.forall_mem_cons.mpr ⟨read_inside (by omega), hinside⟩⟩⟩
      · exact ⟨[], rfl, List.forall_mem_nil _⟩

/-- Otherwise it goes on to what is behind the terminating NUL. -/
theorem dumpLines_long (hfirst : 2 ≤ first) (turns : ℕ) (hcp : cp ≤ content.length)
    (hleft : cpLeft + cp + strlen (contentAndNul content beyond) cp = first + content.length)
    {reads : List Read}
    (hreads : dumpLines (contentAndNul content beyond) turns cp cpLeft = some reads) :
    ∃ r ∈ reads, ¬ r.Inside (content.length + 1) := by
  have hend := @add_strlen_le content beyond cp hcp
  induction turns generalizing cp cpLeft reads with
  | zero =>
      rw [dumpLines, if_pos (by omega)] at hreads
      cases hreads
  | succ turns ih =>
      rw [dumpLines, if_pos (by omega)] at hreads
      obtain ⟨next, hnext⟩ : ∃ next, next = cp + (strlen (contentAndNul content beyond) cp + 1) :=
        ⟨_, rfl⟩
      simp only [← hnext] at hreads
      obtain ⟨rest, hrest, rfl⟩ := Option.map_eq_some_iff.mp hreads
      rcases Nat.lt_or_ge content.length next with hbehind | hle
      · refine ⟨⟨next, strlen (contentAndNul content beyond) next + 1⟩, by simp, ?_⟩
        rintro ⟨-, hinside⟩
        simp only [Nat.cast_add, Nat.cast_one] at hinside
        omega
      · obtain ⟨r, hr, hinside⟩ := ih hle (by omega) hrest (add_strlen_le hle)
        exact ⟨r, List.mem_cons_of_mem _ (List.mem_cons_of_mem _ hr), hinside⟩

theorem lineDump_inside_iff (beyond : Bytes) (content : RequestContent) :
    (∃ turns reads, lineDump beyond content turns = some reads ∧
        ∀ r ∈ reads, r.Inside (content.bytes.length + 1)) ↔
      (cString (lineEndsToNul content.bytes)).length ≤ 1 := by
  have hfirst := @strlen_contentAndNul content.bytes beyond 0 (Nat.zero_le _)
  rw [List.drop_zero] at hfirst
  constructor
  · rintro ⟨turns, reads, hreads, hinside⟩
    by_contra hlong
    obtain ⟨r, hr, houtside⟩ := dumpLines_long (not_le.mp hlong) turns (Nat.zero_le _)
      (by rw [hfirst]; omega) hreads
    exact houtside (hinside r hr)
  · intro hshort
    exact ⟨content.bytes.length, dumpLines_short hshort content.bytes.length (Nat.zero_le _)
      (Nat.sub_le _ _) (by rw [hfirst]; omega)⟩

end Lines

/-- Both dumps are in bounds exactly for a content of at most 2047 bytes with at most one byte in
its first line. -/
theorem dumpsInBounds_iff (memory : Int → BitVec 8) (beyond : Bytes) (content : RequestContent) :
    DumpsInBounds memory beyond content ↔
      content.bytes.length ≤ 2047 ∧ (cString (lineEndsToNul content.bytes)).length ≤ 1 := by
  rw [← hexDump_inside_iff memory, ← lineDump_inside_iff beyond]
  exact ⟨fun h => ⟨h.hexDump, h.lineDump⟩, fun h => ⟨h.1, h.2⟩⟩

def longContent : RequestContent :=
  ⟨List.replicate 2048 0, by rw [List.length_replicate]; decide⟩

def twoByteLine : RequestContent := ⟨[97, 98, cr, lf], by decide⟩

theorem not_dumpsInBounds :
    ¬ DumpsInBounds (fun _ => 0) [] longContent ∧ ¬ DumpsInBounds (fun _ => 0) [] twoByteLine := by
  refine ⟨fun h => ?_, fun h => ?_⟩
  · have hlength := (hexDump_inside_iff _ longContent).mp h.hexDump
    rw [longContent, List.length_replicate] at hlength
    exact absurd hlength (by decide)
  · have hline := (lineDump_inside_iff _ twoByteLine).mp h.lineDump
    exact absurd hline (by decide)

end Rtsp

end ShairportSync
