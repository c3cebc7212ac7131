import ShairportSync.Player.Basic

/-!
# RTSP messages and their lines

The head of a request is a line with the method, the path and the protocol, header lines, and an
empty line. `nextline` finds the end of a line in the buffer, which may be CR, LF or both; the line
is read as a C string, so that it ends at a NUL. `msg_handle_line` starts the message with the
first line, adds a header with every other one, and at the empty line answers the content length
the headers tell of. A message has room for 16 headers.
-/

namespace ShairportSync

namespace Rtsp

open Player (Bytes)

/-! ## Characters and C strings -/

def charByte (c : Char) : BitVec 8 := BitVec.ofNat 8 c.toNat

abbrev cr : BitVec 8 := 13

abbrev lf : BitVec 8 := 10

abbrev space : BitVec 8 := 32

abbrev colon : BitVec 8 := 58

def ascii (s : String) : Bytes := s.toList.map charByte

def cString (bytes : Bytes) : Bytes := bytes.takeWhile (· ≠ 0)

def isDigit (b : BitVec 8) : Bool := 48 ≤ b ∧ b ≤ 57

def isSpace (b : BitVec 8) : Bool := b = 32 ∨ 9 ≤ b ∧ b ≤ 13

def toLower (b : BitVec 8) : BitVec 8 := if 65 ≤ b ∧ b ≤ 90 then b + 32 else b

/-- The number that the digits at the start of a string say. -/
def digitsValue (s : Bytes) : ℕ :=
  (s.takeWhile isDigit).foldl (fun n d => 10 * n + (d.toNat - 48)) 0

/-- The number at the start of a string, after white space and a sign. -/
def decimalValue (s : Bytes) : Int :=
  match s.dropWhile (fun b => isSpace b) with
  | [] => 0
  | b :: digits =>
      if b = charByte '-' then -digitsValue digits
      else if b = charByte '+' then digitsValue digits
      else digitsValue (b :: digits)

/-- `atoi`, which is `(int) strtol`: the number is brought into the range of a `long`, and its low
32 bits are taken. -/
def atoi (s : Bytes) : Int :=
  (BitVec.ofInt 32 (max (-2 ^ 63) (min (2 ^ 63 - 1) (decimalValue s)))).toInt

/-- `strtok_r` with a space: the token and what is left. -/
def strtok (s : Bytes) : Option (Bytes × Bytes) :=
  match s.dropWhile (· = space) with
  | [] => none
  | b :: s =>
      some ((b :: s).takeWhile (· ≠ space), ((b :: s).dropWhile (· ≠ space)).drop 1)

/-- `strstr` with a colon and a space: what is before them, and what is after them. -/
def splitHeader : Bytes → Option (Bytes × Bytes)
  | [] => none
  | [_] => none
  | b :: c :: s =>
      if b = colon ∧ c = space then some ([], s)
      else (splitHeader (c :: s)).map fun (name, value) => (b :: name, value)

/-! ## Messages -/

/-- `rtsp_message`, as far as a request has it. -/
structure RtspMessage where
  method : Bytes
  path : Bytes
  headers : List (Bytes × Bytes)
  contentLength : BitVec 32
  content : Bytes
deriving DecidableEq

abbrev maxHeaders : ℕ := 16

def msgAddHeader (msg : RtspMessage) (name value : Bytes) : RtspMessage :=
  if maxHeaders ≤ msg.headers.length then msg
  else { msg with headers := msg.headers ++ [(name, value)] }

def msgGetHeader (headers : List (Bytes × Bytes)) (name : Bytes) : Option Bytes :=
  (headers.find? fun header => header.1.map toLower = name.map toLower).map Prod.snd

/-- The start of a message from the first line. The fields for the method and the path have 16 and
256 bytes. -/
def startMessage (line : Bytes) : Option RtspMessage := do
  let (method, sp) ← strtok line
  let (path, sp) ← strtok sp
  let (protocol, _) ← strtok sp
  if protocol = ascii "RTSP/1.0" then
    some ⟨method.take 15, path.take 255, [], 0, []⟩
  else none

/-- What the headers of a message say about the length of its content. -/
def contentLengthHeader (headers : List (Bytes × Bytes)) : Int :=
  match msgGetHeader headers (ascii "Content-Length") with
  | some cl => atoi cl
  | none => 0

/-- `msg_handle_line`: the message and the content length, if the head is over, or -1. -/
def msgHandleLine (msg : Option RtspMessage) (line : Bytes) : Option (RtspMessage × Int) :=
  match msg with
  | none => (startMessage line).map fun msg => (msg, -1)
  | some msg =>
      if line ≠ [] then
        (splitHeader line).map fun (name, value) => (msgAddHeader msg name value, -1)
      else some (msg, contentLengthHeader msg.headers)

/-- A line feed is left out. -/
def skipLf : Bytes → Bytes
  | [] => []
  | b :: s => if b = lf then s else b :: s

/-- `nextline`: the line without its end, and what follows it. -/
def nextline : Bytes → Option (Bytes × Bytes)
  | [] => none
  | b :: s =>
      if b = cr then some ([], skipLf s)
      else if b = lf then some ([], s)
      else (nextline s).map fun (line, rest) => (b :: line, rest)

/-! ## Numbers -/

theorem atoi_le (s : Bytes) (h : 0 ≤ decimalValue s) : atoi s ≤ decimalValue s := by
  rw [atoi, BitVec.toInt_ofInt, Int.bmod_eq_emod]
  split_ifs <;> omega

theorem atoi_lt (s : Bytes) : atoi s < 2 ^ 31 :=
  BitVec.toInt_lt

theorem contentLengthHeader_lt (headers : List (Bytes × Bytes)) :
    contentLengthHeader headers < 2 ^ 31 := by
  rw [contentLengthHeader]
  split
  · exact atoi_lt _
  · decide

theorem contentLengthHeader_append_of_neg {headers : List (Bytes × Bytes)}
    (h : contentLengthHeader headers < 0) (more : List (Bytes × Bytes)) :
    contentLengthHeader (headers ++ more) = contentLengthHeader headers := by
  rw [contentLengthHeader, msgGetHeader] at h
  rw [contentLengthHeader, contentLengthHeader, msgGetHeader, msgGetHeader, List.find?_append]
  cases hfind : headers.find? fun header =>
      header.1.map toLower = (ascii "Content-Length").map toLower with
  | none => simp [hfind] at h
  | some header => rfl

/-! ## What a line does to the message -/

theorem msgHandleLine_of_nonneg {msg : Option RtspMessage} {line : Bytes} {m : RtspMessage}
    {msgSize : Int} (h : msgHandleLine msg line = some (m, msgSize)) (hsize : 0 ≤ msgSize) :
    msg = some m ∧ line = [] ∧ msgSize = contentLengthHeader m.headers := by
  cases msg with
  | none =>
      obtain ⟨_, -, heq⟩ := Option.map_eq_some_iff.mp h
      obtain ⟨-, rfl⟩ := Prod.mk.inj heq
      exact absurd hsize (by decide)
  | some m' =>
      rw [msgHandleLine] at h
      split_ifs at h with hline
      · obtain ⟨_, -, heq⟩ := Option.map_eq_some_iff.mp h
        obtain ⟨-, rfl⟩ := Prod.mk.inj heq
        exact absurd hsize (by decide)
      · obtain ⟨rfl, rfl⟩ := Prod.mk.inj (Option.some.inj h)
        exact ⟨rfl, not_not.mp hline, rfl⟩

theorem headers_prefix_of_msgHandleLine {m m' : RtspMessage} {line : Bytes} {msgSize : Int}
    (h : msgHandleLine (some m) line = some (m', msgSize)) : m.headers <+: m'.headers := by
  rw [msgHandleLine] at h
  split_ifs at h
  · obtain ⟨_, -, heq⟩ := Option.map_eq_some_iff.mp h
    obtain ⟨rfl, -⟩ := Prod.mk.inj heq
    rw [msgAddHeader]
    split_ifs
    · exact List.prefix_rfl
    · exact List.prefix_append _ _
  · obtain ⟨rfl, -⟩ := Prod.mk.inj (Option.some.inj h)
    exact List.prefix_rfl

/-- Further headers are added as long as there is room for them. -/
theorem foldl_msgAddHeader (m : RtspMessage) (headers : List (Bytes × Bytes))
    (hroom : m.headers.length ≤ maxHeaders) :
    headers.foldl (fun m header => msgAddHeader m header.1 header.2) m =
      { m with headers := (m.headers ++ headers).take maxHeaders } := by
  induction headers generalizing m with
  | nil => simp [List.take_of_length_le hroom]
  | cons header headers ih =>
      rw [List.foldl_cons, msgAddHeader]
      split_ifs with hfull
      · rw [ih m hroom, List.take_append_of_le_length hfull, List.take_append_of_le_length hfull]
      · have hroom' : (m.headers ++ [(header.1, header.2)]).length ≤ maxHeaders := by
          rw [List.length_append]
          exact Nat.lt_of_not_le hfull
        rw [ih _ hroom']
        dsimp only
        rw [List.append_assoc, List.singleton_append]

/-! ## Lines -/

/-- Where one buffer ends and the next one begins, a line end is cut in two. -/
def CutsLineEnd (x y : Bytes) : Prop := x.getLast? = some cr ∧ y.head? = some lf

instance (x y : Bytes) : Decidable (CutsLineEnd x y) :=
  inferInstanceAs (Decidable (_ ∧ _))

theorem cutsLineEnd_append {x y : Bytes} (z : Bytes) (hy : y ≠ []) :
    CutsLineEnd x (y ++ z) ↔ CutsLineEnd x y := by
  rw [CutsLineEnd, CutsLineEnd, List.head?_append_of_ne_nil y hy]

theorem skipLf_append {x y : Bytes} (h : x = [] → y.head? ≠ some lf) :
    skipLf (x ++ y) = skipLf x ++ y := by
  cases x with
  | nil =>
      cases y with
      | nil => rfl
      | cons b y =>
          have hb : b ≠ lf := fun hb => h rfl (congrArg some hb)
          rw [List.nil_append, skipLf, skipLf, if_neg hb, List.nil_append]
  | cons b x =>
      rw [List.cons_append, skipLf, skipLf]
      split_ifs <;> rfl

theorem head?_ne_lf_of_skipLf {x : Bytes} (h : skipLf x = x) : x.head? ≠ some lf := by
  cases x with
  | nil => exact (Option.some_ne_none lf).symm
  | cons b x =>
      intro hb
      rw [skipLf, if_pos (Option.some.inj hb)] at h
      exact List.cons_ne_self b x h.symm

theorem skipLf_suffix (x : Bytes) : skipLf x <:+ x := by
  cases x with
  | nil => exact List.suffix_rfl
  | cons b x =>
      rw [skipLf]
      split_ifs
      · exact List.suffix_cons b x
      · exact List.suffix_rfl

@[simp] theorem nextline_lf (y : Bytes) : nextline (lf :: y) = some ([], y) := rfl

theorem nextline_suffix {x line rest : Bytes} (h : nextline x = some (line, rest)) :
    rest <:+ x ∧ rest.length < x.length := by
  induction x generalizing line with
  | nil => exact absurd h.symm (Option.some_ne_none _)
  | cons b s ih =>
      rw [nextline] at h
      split_ifs at h with hcr hlf
      · obtain ⟨rfl, rfl⟩ := Prod.mk.inj (Option.some.inj h)
        have hsuffix := skipLf_suffix s
        exact ⟨hsuffix.trans (List.suffix_cons b s), Nat.lt_succ_of_le hsuffix.length_le⟩
      · obtain ⟨rfl, rfl⟩ := Prod.mk.inj (Option.some.inj h)
        exact ⟨List.suffix_cons b s, Nat.lt_succ_self _⟩
      · obtain ⟨⟨line', rest'⟩, hline, heq⟩ := Option.map_eq_some_iff.mp h
        obtain ⟨-, rfl⟩ := Prod.mk.inj heq
        obtain ⟨hsuffix, hlength⟩ := ih hline
        exact ⟨hsuffix.trans (List.suffix_cons b s), Nat.lt_succ_of_lt hlength⟩

theorem nextline_append {x y line rest : Bytes} (h : nextline x = some (line, rest))
    (hcut : rest = [] → ¬ CutsLineEnd x y) : nextline (x ++ y) = some (line, rest ++ y) := by
  induction x generalizing line with
  | nil => exact absurd h.symm (Option.some_ne_none _)
  | cons b s ih =>
      rw [nextline] at h
      rw [List.cons_append, nextline]
      split_ifs at h ⊢ with hcr hlf
      · obtain ⟨rfl, rfl⟩ := Prod.mk.inj (Option.some.inj h)
        rw [skipLf_append]
        rintro rfl hhead
        exact hcut rfl ⟨congrArg some hcr, hhead⟩
      · obtain ⟨rfl, rfl⟩ := Prod.mk.inj (Option.some.inj h)
        rfl
      · obtain ⟨⟨line', rest'⟩, hline, heq⟩ := Option.map_eq_some_iff.mp h
        obtain ⟨rfl, rfl⟩ := Prod.mk.inj heq
        have hcut' : rest' = [] → ¬ CutsLineEnd s y := by
          intro hrest hcuts
          have hs : s ≠ [] := fun hs => by simp [hs, nextline] at hline
          exact hcut hrest ⟨(List.getLast?_cons_of_ne_nil hs).trans hcuts.1, hcuts.2⟩
        rw [ih hline hcut']
        rfl

theorem nextline_append_lf {x line : Bytes} (y : Bytes) (h : nextline x = some (line, []))
    (hlast : x.getLast? = some cr) : nextline (x ++ lf :: y) = some (line, y) := by
  induction x generalizing line with
  | nil => exact absurd h.symm (Option.some_ne_none _)
  | cons b s ih =>
      rw [nextline] at h
      rw [List.cons_append, nextline]
      split_ifs at h ⊢ with hcr hlf
      · obtain ⟨rfl, hskip⟩ := Prod.mk.inj (Option.some.inj h)
        cases s with
        | nil => rfl
        | cons c s =>
            rw [skipLf] at hskip
            split_ifs at hskip with hc
            simp [hskip, hc] at hlast
      · obtain ⟨rfl, rfl⟩ := Prod.mk.inj (Option.some.inj h)
        exact absurd (Option.some.inj hlast) hcr
      · obtain ⟨⟨line', rest'⟩, hline, heq⟩ := Option.map_eq_some_iff.mp h
        obtain ⟨rfl, rfl⟩ := Prod.mk.inj heq
        have hs : s ≠ [] := fun hs => by simp [hs, nextline] at hline
        rw [ih hline ((List.getLast?_cons_of_ne_nil hs).symm.trans hlast)]
        rfl

theorem nextline_of_append {h x y line : Bytes}
    (hline : nextline (h ++ (x ++ y)) = some (line, x ++ y)) :
    nextline (h ++ x) = some (line, x) := by
  induction h generalizing line with
  | nil => exact absurd (nextline_suffix hline).2 (Nat.lt_irrefl _)
  | cons b h ih =>
      rw [List.cons_append, nextline] at hline ⊢
      split_ifs at hline ⊢ with hcr hlf
      · obtain ⟨rfl, hrest⟩ := Prod.mk.inj (Option.some.inj hline)
        have hhead : h ++ x = [] → y.head? ≠ some lf := by
          intro hnil
          obtain ⟨rfl, rfl⟩ := List.append_eq_nil_iff.mp hnil
          exact head?_ne_lf_of_skipLf hrest
        rw [← List.append_assoc, skipLf_append hhead] at hrest
        rw [List.append_cancel_right hrest]
      · obtain ⟨rfl, hrest⟩ := Prod.mk.inj (Option.some.inj hline)
        rw [List.append_left_eq_self.mp hrest, List.nil_append]
      · obtain ⟨⟨line', rest'⟩, hline, heq⟩ := Option.map_eq_some_iff.mp hline
        obtain ⟨rfl, rfl⟩ := Prod.mk.inj heq
        rw [ih hline]
        rfl

@[elab_as_elim]
theorem lines_induction {P : Bytes → Prop} (none : ∀ x, nextline x = none → P x)
    (line : ∀ x line next, nextline x = some (line, next) → P next → P x) (x : Bytes) : P x := by
  induction hlength : x.length using Nat.strong_induction_on generalizing x with
  | _ n ih =>
      cases hline : nextline x with
      | none => exact none x hline
      | some found =>
          obtain ⟨_, next⟩ := found
          exact line x _ next hline (ih _ (hlength ▸ (nextline_suffix hline).2) next rfl)

theorem getLast?_ne_cr_of_nextline {x : Bytes} (h : nextline x = none) : x.getLast? ≠ some cr := by
  induction x with
  | nil => exact (Option.some_ne_none cr).symm
  | cons b s ih =>
      rw [nextline] at h
      split_ifs at h with hcr hlf
      have hnone := ih (Option.map_eq_none_iff.mp h)
      cases s with
      | nil => exact fun hlast => hcr (Option.some.inj hlast)
      | cons c s => rwa [List.getLast?_cons_cons]

end Rtsp

end ShairportSync
