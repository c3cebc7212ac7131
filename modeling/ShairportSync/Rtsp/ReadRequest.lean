import ShairportSync.Rtsp.Message

/-!
# Reading a request

`rtsp_read_request` has a buffer of its own. It reads into it, handles the lines that are complete,
moves the rest to the front and reads on, until the head is over; then it reads what is missing of
the content, and takes all that is in the buffer for the content. The results of the successive
reads are given; after the last of them the connection is closed. A call has no result here if a
read brings more than it asks for, which no read does. Interrupted reads, time limits and shutdown
requests are left out, and memory can be had.
-/

namespace ShairportSync

namespace Rtsp

open Player (Bytes)

/-! ## The calls -/

/-- `rtsp_read_request_response`, with the message if all is well. -/
inductive RequestReply where
  | ok (msg : RtspMessage)
  | badPacket
  | channelClosed
  | error
deriving DecidableEq

/-- What comes of the lines in the buffer: the head goes on, a line is not accepted, or the head is
over. -/
inductive HeadState where
  | more (msg : Option RtspMessage) (buf : Bytes)
  | bad
  | complete (msg : RtspMessage) (msgSize : Int) (buf : Bytes)
deriving DecidableEq

/-- The loop over the lines that are complete in the buffer, `fuel` of them at most. -/
def handleLines : ℕ → Option RtspMessage → Bytes → HeadState
  | 0, msg, buf => .more msg buf
  | fuel + 1, msg, buf =>
      match nextline buf with
      | none => .more msg buf
      | some (line, next) =>
          match msgHandleLine msg (cString line) with
          | none => .bad
          | some (msg, msgSize) =>
              if msgSize < 0 then handleLines fuel (some msg) next else .complete msg msgSize next

def handleBuffer (msg : Option RtspMessage) (buf : Bytes) : HeadState :=
  handleLines buf.length msg buf

/-- The loop that reads the content: the content, if all of it comes, and the reads that are left.
-/
def readContent (msgSize : Int) : List Bytes → Bytes → Option (Option Bytes × List Bytes)
  | [], buf => if buf.length < msgSize then some (none, []) else some (some buf, [])
  | nread :: reads, buf =>
      if buf.length < msgSize then
        if msgSize < buf.length + nread.length then none
        else if nread = [] then some (none, reads)
        else readContent msgSize reads (buf ++ nread)
      else some (some buf, nread :: reads)

/-- What follows the head. The buffer grows to the size of the content and one more byte; where that
is not an `int` any more, no such buffer can be had. -/
def finishRequest (buflen : ℕ) (msg : RtspMessage) (msgSize : Int) (reads : List Bytes)
    (buf : Bytes) : Option (RequestReply × List Bytes) :=
  if buflen < msgSize ∧ 2 ^ 31 ≤ msgSize + 1 then some (.error, reads)
  else
    match readContent msgSize reads buf with
    | none => none
    | some (none, reads) => some (.error, reads)
    | some (some content, reads) =>
        some (.ok { msg with
          contentLength := BitVec.ofNat 32 content.length
          content := content }, reads)

def readHead (buflen : ℕ) : List Bytes → Option RtspMessage → Bytes →
    Option (RequestReply × List Bytes)
  | [], _, _ => some (.channelClosed, [])
  | nread :: reads, msg, buf =>
      if buflen < buf.length + nread.length then none
      else if nread = [] then some (.channelClosed, reads)
      else
        match handleBuffer msg (buf ++ nread) with
        | .more msg buf => readHead buflen reads msg buf
        | .bad => some (.badPacket, reads)
        | .complete msg msgSize buf => finishRequest buflen msg msgSize reads buf

/-- `rtsp_read_request`: the reply, and the reads that are left for the next call. -/
def readRequest (buflen : ℕ) (reads : List Bytes) : Option (RequestReply × List Bytes) :=
  readHead buflen reads none []

def bufferLength (metadataEnabled getCoverart : Bool) : ℕ :=
  if metadataEnabled ∧ getCoverart then 1024 * 256 else 4096

/-! ## Lines in the buffer -/

section Lines

variable {msg : Option RtspMessage} {x y : Bytes}

theorem handleLines_eq_of_le {m n : ℕ} (hm : x.length ≤ m) (hn : x.length ≤ n) :
    handleLines m msg x = handleLines n msg x := by
  induction m generalizing msg x n with
  | zero =>
      obtain rfl := List.length_eq_zero_iff.mp (Nat.le_zero.mp hm)
      cases n <;> rfl
  | succ m ih =>
      cases n with
      | zero =>
          obtain rfl := List.length_eq_zero_iff.mp (Nat.le_zero.mp hn)
          rfl
      | succ n =>
          rw [handleLines, handleLines]
          cases hline : nextline x with
          | none => rfl
          | some found =>
              obtain ⟨line, next⟩ := found
              have hlength := (nextline_suffix hline).2
              dsimp only
              cases msgHandleLine msg (cString line) with
              | none => rfl
              | some handled =>
                  obtain ⟨msg', msgSize⟩ := handled
                  exact if_congr Iff.rfl (ih (by omega) (by omega)) rfl

theorem handleBuffer_of_none (h : nextline x = none) : handleBuffer msg x = .more msg x := by
  rw [handleBuffer]
  cases x with
  | nil => rfl
  | cons b x => rw [List.length_cons, handleLines, h]

/-- A line is handled, and then the rest of the buffer. -/
theorem handleBuffer_of_some {line next : Bytes} (h : nextline x = some (line, next)) :
    handleBuffer msg x =
      match msgHandleLine msg (cString line) with
      | none => .bad
      | some (msg, msgSize) =>
          if msgSize < 0 then handleBuffer (some msg) next else .complete msg msgSize next := by
  have hlength := (nextline_suffix h).2
  rw [handleBuffer]
  cases x with
  | nil => exact absurd hlength (Nat.not_lt_zero _)
  | cons b x =>
      rw [List.length_cons, handleLines, h]
      dsimp only
      cases msgHandleLine msg (cString line) with
      | none => rfl
      | some handled =>
          obtain ⟨msg', msgSize⟩ := handled
          exact if_congr Iff.rfl (handleLines_eq_of_le (Nat.le_of_lt_succ hlength) le_rfl) rfl

/-- What comes of the lines when more bytes come. -/
def HeadState.resume : HeadState → Bytes → HeadState
  | .more msg buf, y => handleBuffer msg (buf ++ y)
  | .bad, _ => .bad
  | .complete msg msgSize buf, y => .complete msg msgSize (buf ++ y)

theorem not_cutsLineEnd_of_suffix {rest : Bytes} (hsuffix : rest <:+ x)
    (hcut : ¬ CutsLineEnd x y) : ¬ CutsLineEnd rest y := by
  rintro ⟨hlast, hhead⟩
  obtain ⟨pre, rfl⟩ := hsuffix
  refine hcut ⟨?_, hhead⟩
  rw [List.getLast?_append, hlast, Option.some_or]

theorem handleBuffer_append (hcut : ¬ CutsLineEnd x y) :
    handleBuffer msg (x ++ y) = (handleBuffer msg x).resume y := by
  induction x using lines_induction generalizing msg with
  | none x hline => rw [handleBuffer_of_none hline, HeadState.resume]
  | line x line next hline ih =>
      have hsuffix := (nextline_suffix hline).1
      rw [handleBuffer_of_some hline,
        handleBuffer_of_some (nextline_append hline fun _ => hcut)]
      cases msgHandleLine msg (cString line) with
      | none => rfl
      | some handled =>
          obtain ⟨msg', msgSize⟩ := handled
          dsimp only
          split_ifs
          · exact ih (not_cutsLineEnd_of_suffix hsuffix hcut)
          · rfl

theorem handleBuffer_more {msg' : Option RtspMessage} {buf : Bytes}
    (h : handleBuffer msg x = .more msg' buf) : buf <:+ x ∧ nextline buf = none := by
  induction x using lines_induction generalizing msg with
  | none x hline =>
      rw [handleBuffer_of_none hline] at h
      obtain ⟨-, rfl⟩ := HeadState.more.inj h
      exact ⟨List.suffix_rfl, hline⟩
  | line x line next hline ih =>
      rw [handleBuffer_of_some hline] at h
      cases hhandled : msgHandleLine msg (cString line) with
      | none => exact HeadState.noConfusion (hhandled ▸ h)
      | some handled =>
          obtain ⟨msg', msgSize⟩ := handled
          rw [hhandled] at h
          dsimp only at h
          split_ifs at h
          obtain ⟨hsuffix, hnone⟩ := ih h
          exact ⟨hsuffix.trans (nextline_suffix hline).1, hnone⟩

/-- When a line end has been cut in two, what was read first is handled as if the line feed were
not there. -/
theorem handleBuffer_append_lf {msg' : Option RtspMessage} {buf : Bytes}
    (h : handleBuffer msg x = .more msg' buf) (hlast : x.getLast? = some cr) :
    handleBuffer msg (x ++ lf :: y) = handleBuffer msg' y := by
  induction x using lines_induction generalizing msg with
  | none x hline => exact absurd hlast (getLast?_ne_cr_of_nextline hline)
  | line x line next hline ih =>
      obtain ⟨pre, hpre⟩ := (nextline_suffix hline).1
      rw [handleBuffer_of_some hline] at h
      cases hhandled : msgHandleLine msg (cString line) with
      | none => exact HeadState.noConfusion (hhandled ▸ h)
      | some handled =>
          obtain ⟨m, msgSize⟩ := handled
          rw [hhandled] at h
          dsimp only at h
          split_ifs at h with hsize
          by_cases hnext : next = []
          · subst hnext
            rw [handleBuffer_of_none rfl] at h
            obtain ⟨rfl, -⟩ := HeadState.more.inj h
            rw [handleBuffer_of_some (nextline_append_lf y hline hlast), hhandled]
            exact if_pos hsize
          · have hnextLast : next.getLast? = some cr := by
              rw [← hlast, ← hpre, List.getLast?_append_of_ne_nil _ hnext]
            rw [handleBuffer_of_some (nextline_append hline fun h => absurd h hnext), hhandled]
            exact (if_pos hsize).trans (ih h hnextLast)

section Complete

variable {m : RtspMessage} {msgSize : Int} {buf : Bytes}

/-- The head is over after the lines before the empty one have been handled one by one. -/
@[elab_as_elim]
theorem complete_induction
    {P : ∀ msg x, handleBuffer msg x = .complete m msgSize buf → Prop}
    (last : ∀ msg x line h, nextline x = some (line, buf) →
      msgHandleLine msg (cString line) = some (m, msgSize) → 0 ≤ msgSize → P msg x h)
    (line : ∀ msg x line next m' msgSize' h, nextline x = some (line, next) →
      msgHandleLine msg (cString line) = some (m', msgSize') → msgSize' < 0 →
      (hnext : handleBuffer (some m') next = .complete m msgSize buf) → P (some m') next hnext →
      P msg x h)
    (msg : Option RtspMessage) (x : Bytes) (h : handleBuffer msg x = .complete m msgSize buf) :
    P msg x h := by
  induction x using lines_induction generalizing msg with
  | none x hline => exact HeadState.noConfusion ((handleBuffer_of_none hline).symm.trans h)
  | line x line' next hline ih =>
      have h' := (handleBuffer_of_some hline).symm.trans h
      cases hhandled : msgHandleLine msg (cString line') with
      | none => exact HeadState.noConfusion (hhandled ▸ h')
      | some handled =>
          obtain ⟨m', msgSize'⟩ := handled
          rw [hhandled] at h'
          dsimp only at h'
          split_ifs at h' with hsize
          · exact line msg x line' next m' msgSize' h hline hhandled hsize h' (ih (some m') h')
          · obtain ⟨rfl, rfl, rfl⟩ := HeadState.complete.inj h'
            exact last msg x line' h hline hhandled (not_lt.mp hsize)

theorem handleBuffer_complete_suffix (h : handleBuffer msg x = .complete m msgSize buf) :
    buf <:+ x ∧ buf.length < x.length := by
  induction msg, x, h using complete_induction with
  | last msg x line h hline => exact nextline_suffix hline
  | line msg x line next m' msgSize' h hline _ _ _ ih =>
      obtain ⟨hsuffix, hshorter⟩ := nextline_suffix hline
      exact ⟨ih.1.trans hsuffix, ih.2.trans hshorter⟩

theorem handleBuffer_complete_size (h : handleBuffer msg x = .complete m msgSize buf) :
    0 ≤ msgSize ∧ msgSize = contentLengthHeader m.headers := by
  induction msg, x, h using complete_induction with
  | last msg x line h _ hhandled hsize =>
      exact ⟨hsize, (msgHandleLine_of_nonneg hhandled hsize).2.2⟩
  | line msg x line next m' msgSize' h _ _ _ _ ih => exact ih

theorem handleBuffer_complete_headers {m₀ : RtspMessage}
    (h : handleBuffer (some m₀) x = .complete m msgSize buf) : m₀.headers <+: m.headers := by
  generalize hmsg : some m₀ = msg at h
  induction msg, x, h using complete_induction generalizing m₀ with
  | last msg x line h _ hhandled => exact headers_prefix_of_msgHandleLine (hmsg ▸ hhandled)
  | line msg x line next m' msgSize' h _ hhandled _ _ ih =>
      exact (headers_prefix_of_msgHandleLine (hmsg ▸ hhandled)).trans (ih rfl)

theorem handleBuffer_of_append {head b : Bytes}
    (h : handleBuffer msg (head ++ (b ++ y)) = .complete m msgSize (b ++ y)) :
    handleBuffer msg (head ++ b) = .complete m msgSize b := by
  generalize hx : head ++ (b ++ y) = x at h
  generalize hbuf : b ++ y = buf at h
  induction msg, x, h using complete_induction generalizing head with
  | last msg x line h hline hhandled hsize =>
      subst hx hbuf
      rw [handleBuffer_of_some (nextline_of_append hline), hhandled]
      exact if_neg (not_lt.mpr hsize)
  | line msg x line next m' msgSize' h hline hhandled hsize hnext ih =>
      subst hx hbuf
      -- what follows the line is the rest of the head and then the content
      obtain ⟨⟨rest, hrest⟩, -⟩ := handleBuffer_complete_suffix hnext
      obtain ⟨pre, hpre⟩ := (nextline_suffix hline).1
      rw [← hrest, ← List.append_assoc] at hpre
      have hhead : pre ++ rest = head := List.append_cancel_right hpre
      have hline' : nextline (head ++ b) = some (line, rest ++ b) := by
        rw [← hhead, List.append_assoc]
        refine nextline_of_append (y := y) ?_
        rw [← hhead, ← hrest] at hline
        simpa only [List.append_assoc] using hline
      rw [handleBuffer_of_some hline', hhandled]
      exact (if_pos hsize).trans (ih hrest)

end Complete

theorem handleBuffer_more_headers {m : RtspMessage} {msg' : Option RtspMessage} {buf : Bytes}
    (h : handleBuffer (some m) x = .more msg' buf) :
    ∃ m', msg' = some m' ∧ m.headers <+: m'.headers := by
  induction x using lines_induction generalizing m with
  | none x hline =>
      obtain ⟨rfl, -⟩ := HeadState.more.inj ((handleBuffer_of_none hline).symm.trans h)
      exact ⟨m, rfl, List.prefix_rfl⟩
  | line x line next hline ih =>
      rw [handleBuffer_of_some hline] at h
      cases hhandled : msgHandleLine (some m) (cString line) with
      | none => exact HeadState.noConfusion (hhandled ▸ h)
      | some handled =>
          obtain ⟨m₁, msgSize⟩ := handled
          rw [hhandled] at h
          dsimp only at h
          split_ifs at h
          obtain ⟨m', hmsg', hprefix⟩ := ih h
          exact ⟨m', hmsg', (headers_prefix_of_msgHandleLine hhandled).trans hprefix⟩

theorem length_lt_of_more {msg' : Option RtspMessage} {m : RtspMessage} {msgSize : Int}
    {buf body : Bytes} (hmore : handleBuffer msg x = .more msg' buf)
    (hover : handleBuffer msg (x ++ y) = .complete m msgSize body) : body.length < y.length := by
  by_contra hlong
  obtain ⟨head, hhead⟩ := (handleBuffer_complete_suffix hover).1
  obtain ⟨b, rfl⟩ : y <:+ body :=
    List.suffix_of_suffix_length_le (List.suffix_append x y) ⟨head, hhead⟩ (not_lt.mp hlong)
  rw [← List.append_assoc] at hhead
  obtain rfl := List.append_cancel_right hhead
  rw [List.append_assoc] at hover
  exact HeadState.noConfusion (hmore.symm.trans (handleBuffer_of_append hover))

end Lines

/-! ## Reads -/

section Reads

variable {buflen : ℕ} {msgSize : Int} {buf : Bytes} {reads rest : List Bytes}

/-- The content is what is in the buffer, if that is enough, or else as many bytes as are asked
for. -/
structure ContentReads (msgSize : Int) (g : List Bytes) (buf content : Bytes) : Prop where
  content_eq : content = buf ++ g.flatten
  nonempty : ∀ nread ∈ g, nread ≠ []
  size : g = [] ∧ msgSize ≤ buf.length ∨ g ≠ [] ∧ content.length = msgSize

theorem contentReads_of_readContent {content : Bytes}
    (h : readContent msgSize reads buf = some (some content, rest)) :
    ∃ g, reads = g ++ rest ∧ ContentReads msgSize g buf content := by
  induction reads generalizing buf with
  | nil =>
      rw [readContent] at h
      split_ifs at h with hshort
      · exact absurd (Prod.mk.inj (Option.some.inj h)).1.symm (Option.some_ne_none content)
      · obtain ⟨hcontent, rfl⟩ := Prod.mk.inj (Option.some.inj h)
        exact ⟨[], rfl, by simpa using (Option.some.inj hcontent).symm, by simp,
          Or.inl ⟨rfl, not_lt.mp hshort⟩⟩
  | cons nread reads ih =>
      rw [readContent] at h
      split_ifs at h with hshort hlong hempty
      · exact absurd (Prod.mk.inj (Option.some.inj h)).1.symm (Option.some_ne_none content)
      · obtain ⟨g, rfl, rfl, hne, hsize⟩ := ih h
        refine ⟨nread :: g, rfl, by simp, by simpa using ⟨hempty, hne⟩, Or.inr ⟨by simp, ?_⟩⟩
        rcases hsize with ⟨rfl, hsize⟩ | ⟨-, hsize⟩
        · rw [List.flatten_nil, List.append_nil]
          rw [List.length_append] at hsize ⊢
          omega
        · exact hsize
      · obtain ⟨hcontent, rfl⟩ := Prod.mk.inj (Option.some.inj h)
        exact ⟨[], rfl, by simpa using (Option.some.inj hcontent).symm, by simp,
          Or.inl ⟨rfl, not_lt.mp hshort⟩⟩

theorem readContent_of_contentReads {g : List Bytes} {content : Bytes}
    (h : ContentReads msgSize g buf content) (rest : List Bytes) :
    readContent msgSize (g ++ rest) buf = some (some content, rest) := by
  induction g generalizing buf with
  | nil =>
      have hcontent : content = buf := h.content_eq.trans (List.append_nil buf)
      rcases h.size with ⟨-, hsize⟩ | ⟨hne, -⟩
      · cases rest <;> simp [readContent, not_lt.mpr hsize, hcontent]
      · exact absurd rfl hne
  | cons nread g ih =>
      have hnread : nread ≠ [] := h.nonempty nread List.mem_cons_self
      have hpos := List.length_pos_iff.mpr hnread
      have hcontent : content = (buf ++ nread) ++ g.flatten := by simp [h.content_eq]
      rcases h.size with ⟨hnil, -⟩ | ⟨-, hsize⟩
      · exact absurd hnil (List.cons_ne_nil _ _)
      have hlength := congrArg List.length hcontent
      rw [List.length_append, List.length_append] at hlength
      rw [List.cons_append, readContent, if_pos (by omega), if_neg (by omega), if_neg hnread]
      refine ih ⟨hcontent, fun r hr => h.nonempty r (List.mem_cons_of_mem _ hr), ?_⟩
      cases g with
      | nil =>
          rw [List.flatten_nil, List.length_nil] at hlength
          exact Or.inl ⟨rfl, by rw [List.length_append]; omega⟩
      | cons r g => exact Or.inr ⟨List.cons_ne_nil _ _, hsize⟩

inductive HeadReads (buflen : ℕ) : List Bytes → Option RtspMessage → Bytes → RtspMessage → Int →
    Bytes → Prop where
  | last {nread msg buf m msgSize b} : buf.length + nread.length ≤ buflen → nread ≠ [] →
      handleBuffer msg (buf ++ nread) = .complete m msgSize b →
      HeadReads buflen [nread] msg buf m msgSize b
  | more {nread g msg buf msg' buf' m msgSize b} : buf.length + nread.length ≤ buflen →
      nread ≠ [] → handleBuffer msg (buf ++ nread) = .more msg' buf' →
      HeadReads buflen g msg' buf' m msgSize b →
      HeadReads buflen (nread :: g) msg buf m msgSize b

/-- A request that is read well has a head that is over, and its content. -/
theorem readHead_eq_ok_iff {msg : Option RtspMessage} {M : RtspMessage} :
    readHead buflen reads msg buf = some (.ok M, rest) ↔
      ∃ g g' m msgSize b, reads = g ++ g' ∧ HeadReads buflen g msg buf m msgSize b ∧
        finishRequest buflen m msgSize g' b = some (.ok M, rest) := by
  induction reads generalizing msg buf with
  | nil =>
      refine ⟨fun h => RequestReply.noConfusion (Prod.mk.inj (Option.some.inj h)).1, ?_⟩
      rintro ⟨g, g', m, msgSize, b, hreads, hhead, -⟩
      obtain ⟨rfl, -⟩ := List.append_eq_nil_iff.mp hreads.symm
      cases hhead
  | cons nread reads ih =>
      rw [readHead]
      constructor
      · intro h
        split_ifs at h with hlong hempty
        · exact RequestReply.noConfusion (Prod.mk.inj (Option.some.inj h)).1
        · cases hlines : handleBuffer msg (buf ++ nread) with
          | more msg' buf' =>
              rw [hlines] at h
              obtain ⟨g, g', m, msgSize, b, rfl, hhead, hfinish⟩ := ih.mp h
              exact ⟨nread :: g, g', m, msgSize, b, rfl,
                .more (not_lt.mp hlong) hempty hlines hhead, hfinish⟩
          | bad =>
              rw [hlines] at h
              exact RequestReply.noConfusion (Prod.mk.inj (Option.some.inj h)).1
          | complete m msgSize b =>
              rw [hlines] at h
              exact ⟨[nread], reads, m, msgSize, b, rfl, .last (not_lt.mp hlong) hempty hlines, h⟩
      · rintro ⟨g, g', m, msgSize, b, hreads, hhead, hfinish⟩
        cases hhead with
        | last hfits hne hlines =>
            obtain ⟨rfl, rfl⟩ := List.cons.inj hreads
            rw [if_neg (not_lt.mpr hfits), if_neg hne, hlines]
            exact hfinish
        | more hfits hne hlines hhead =>
            obtain ⟨rfl, rfl⟩ := List.cons.inj hreads
            rw [if_neg (not_lt.mpr hfits), if_neg hne, hlines]
            exact ih.mpr ⟨_, g', m, msgSize, b, rfl, hhead, hfinish⟩

/-- The message a head and the content make up. -/
def RtspMessage.withContent (m : RtspMessage) (content : Bytes) : RtspMessage :=
  { m with
    contentLength := BitVec.ofNat 32 content.length
    content := content }

/-- The buffer can be made long enough for the content. -/
def FitsBuffer (buflen : ℕ) (msgSize : Int) : Prop := msgSize ≤ buflen ∨ msgSize + 1 < 2 ^ 31

instance (buflen : ℕ) (msgSize : Int) : Decidable (FitsBuffer buflen msgSize) :=
  inferInstanceAs (Decidable (_ ∨ _))

theorem finishRequest_eq_ok_iff {m M : RtspMessage} :
    finishRequest buflen m msgSize reads buf = some (.ok M, rest) ↔
      FitsBuffer buflen msgSize ∧ ∃ g content, reads = g ++ rest ∧
        ContentReads msgSize g buf content ∧ M = m.withContent content := by
  rw [finishRequest]
  split_ifs with hhuge
  · refine iff_of_false (fun h => RequestReply.noConfusion (Prod.mk.inj (Option.some.inj h)).1) ?_
    rintro ⟨hfits, -⟩
    rw [FitsBuffer] at hfits
    omega
  · have hfits : FitsBuffer buflen msgSize := by
      rw [FitsBuffer]
      omega
    rw [and_iff_right hfits]
    constructor
    · intro h
      split at h
      · exact absurd h.symm (Option.some_ne_none _)
      · exact RequestReply.noConfusion (Prod.mk.inj (Option.some.inj h)).1
      · rename_i content reads' hread
        obtain ⟨hM, rfl⟩ := Prod.mk.inj (Option.some.inj h)
        obtain ⟨g, hreads, hcontent⟩ := contentReads_of_readContent hread
        exact ⟨g, content, hreads, hcontent, (RequestReply.ok.inj hM).symm⟩
    · rintro ⟨g, content, rfl, hcontent, rfl⟩
      rw [readContent_of_contentReads hcontent]
      rfl

/-- The reads of a request that is read well: those of the head, and then those of the content. -/
def RequestReads (buflen : ℕ) (g : List Bytes) (M : RtspMessage) : Prop :=
  ∃ gh gc m msgSize b content, g = gh ++ gc ∧ HeadReads buflen gh none [] m msgSize b ∧
    FitsBuffer buflen msgSize ∧ ContentReads msgSize gc b content ∧ M = m.withContent content

theorem readRequest_eq_ok_iff {M : RtspMessage} :
    readRequest buflen reads = some (.ok M, rest) ↔
      ∃ g, reads = g ++ rest ∧ RequestReads buflen g M := by
  rw [readRequest, readHead_eq_ok_iff]
  constructor
  · rintro ⟨gh, g', m, msgSize, b, rfl, hhead, hfinish⟩
    obtain ⟨hfits, gc, content, rfl, hcontent, hM⟩ := finishRequest_eq_ok_iff.mp hfinish
    exact ⟨gh ++ gc, (List.append_assoc ..).symm, gh, gc, m, msgSize, b, content, rfl, hhead, hfits,
      hcontent, hM⟩
  · rintro ⟨g, rfl, gh, gc, m, msgSize, b, content, rfl, hhead, hfits, hcontent, hM⟩
    exact ⟨gh, gc ++ rest, m, msgSize, b, List.append_assoc .., hhead,
      finishRequest_eq_ok_iff.mpr ⟨hfits, gc, content, rfl, hcontent, hM⟩⟩

namespace HeadReads

variable {g : List Bytes} {msg : Option RtspMessage} {m : RtspMessage} {b : Bytes}

theorem size (h : HeadReads buflen g msg buf m msgSize b) :
    0 ≤ msgSize ∧ msgSize = contentLengthHeader m.headers := by
  induction h with
  | last _ _ hlines => exact handleBuffer_complete_size hlines
  | more _ _ _ _ ih => exact ih

theorem headers {m₀ : RtspMessage} (h : HeadReads buflen g (some m₀) buf m msgSize b) :
    m₀.headers <+: m.headers := by
  generalize hmsg : some m₀ = msg at h
  induction h generalizing m₀ with
  | last _ _ hlines => exact handleBuffer_complete_headers (hmsg ▸ hlines)
  | more _ _ hlines _ ih =>
      obtain ⟨m₁, hm₁, hprefix⟩ := handleBuffer_more_headers (hmsg ▸ hlines)
      exact hprefix.trans (ih hm₁.symm)

theorem nonempty (h : HeadReads buflen g msg buf m msgSize b) : ∀ nread ∈ g, nread ≠ [] := by
  induction h with
  | last _ hne => simpa using hne
  | more _ hne _ _ ih => simpa using ⟨hne, ih⟩

theorem ne_nil (h : HeadReads buflen g msg buf m msgSize b) : g ≠ [] := by
  cases h <;> exact List.cons_ne_nil _ _

theorem length_le (h : HeadReads buflen g msg buf m msgSize b) : b.length ≤ buflen := by
  induction h with
  | last hfits _ hlines =>
      have hshorter := (handleBuffer_complete_suffix hlines).2
      rw [List.length_append] at hshorter
      omega
  | more _ _ _ _ ih => exact ih

theorem length_lt_getLast (h : HeadReads buflen g msg buf m msgSize b)
    (hnone : nextline buf = none) : b.length < (g.getLast h.ne_nil).length := by
  induction h with
  | last _ _ hlines => exact length_lt_of_more (handleBuffer_of_none hnone) hlines
  | more _ _ hlines hrest ih =>
      rw [List.getLast_cons hrest.ne_nil]
      exact ih (handleBuffer_more hlines).2

end HeadReads

theorem RequestReads.length_content_lt {g : List Bytes} {M : RtspMessage}
    (h : RequestReads buflen g M) (hbuflen : buflen < 2 ^ 32) : M.content.length < 2 ^ 32 := by
  obtain ⟨gh, gc, m, msgSize, b, content, rfl, hhead, -, hcontent, rfl⟩ := h
  change content.length < 2 ^ 32
  rcases hcontent.size with ⟨rfl, -⟩ | ⟨-, hsize⟩
  · have hb := hhead.length_le
    rw [hcontent.content_eq, List.flatten_nil, List.append_nil]
    omega
  · have hlt := contentLengthHeader_lt m.headers
    rw [← hhead.size.2, ← hsize] at hlt
    omega

end Reads

/-! ## Where one read ends and the next begins -/

section Cuts

variable {buflen n : ℕ} {x buf b body : Bytes} {g gc rest : List Bytes} {nread : Bytes}
  {msg : Option RtspMessage} {m M : RtspMessage} {msgSize r : Int}

/-- After the bytes `x`, no line end within the first `n` bytes is cut in two by the reads. -/
def KeepsLineEnds (n : ℕ) (x : Bytes) (g : List Bytes) : Prop :=
  ∀ g₁ g₂, g = g₁ ++ g₂ → (x ++ g₁.flatten).length < n →
    ¬ CutsLineEnd (x ++ g₁.flatten) g₂.flatten

theorem keepsLineEnds_cons :
    KeepsLineEnds n x (nread :: g) ↔
      (x.length < n → ¬ CutsLineEnd x (nread :: g).flatten) ∧ KeepsLineEnds n (x ++ nread) g := by
  constructor
  · intro h
    refine ⟨?_, fun g₁ g₂ hg => ?_⟩
    · simpa using h [] (nread :: g) rfl
    · simpa [List.append_assoc] using h (nread :: g₁) g₂ (congrArg _ hg)
  · rintro ⟨hfirst, hlater⟩ g₁ g₂ hg
    cases g₁ with
    | nil =>
        obtain rfl := hg
        simpa using hfirst
    | cons nread' g₁ =>
        obtain ⟨rfl, hrest⟩ := List.cons.inj hg
        simpa [List.append_assoc] using hlater g₁ g₂ hrest

theorem eq_nil_of_more (hmore : handleBuffer none x = .more msg buf)
    (hlast : x.getLast? = some cr) : buf = [] := by
  obtain ⟨⟨pre, rfl⟩, hnone⟩ := handleBuffer_more hmore
  by_contra hne
  rw [List.getLast?_append_of_ne_nil _ hne] at hlast
  exact getLast?_ne_cr_of_nextline hnone hlast

/-- A line end that is cut in two would end the head too early. -/
theorem HeadReads.not_cutsLineEnd (h : HeadReads buflen (nread :: g) msg buf m msgSize b)
    (hmore : handleBuffer none x = .more msg buf)
    (hwhole : handleBuffer none (x ++ (nread :: g ++ gc).flatten) =
      .complete M r (b ++ gc.flatten)) :
    ¬ CutsLineEnd x (nread :: g ++ gc).flatten := by
  rintro ⟨hlast, hhead⟩
  obtain rfl := eq_nil_of_more hmore hlast
  obtain ⟨y, rfl⟩ : ∃ y, nread = lf :: y := by
    cases nread with
    | nil => exact absurd rfl (h.nonempty [] List.mem_cons_self)
    | cons c y => exact ⟨y, congrArg (· :: y) (Option.some.inj hhead)⟩
  -- the line feed alone is an empty line
  cases msg with
  | none =>
      have hbad : handleBuffer none ([] ++ lf :: y) = .bad :=
        (handleBuffer_of_some (nextline_lf y)).trans rfl
      cases h with
      | last _ _ hlines => exact HeadState.noConfusion (hbad.symm.trans hlines)
      | more _ _ hlines _ => exact HeadState.noConfusion (hbad.symm.trans hlines)
  | some m₀ =>
      have hsize : ¬ contentLengthHeader m₀.headers < 0 := by
        intro hneg
        obtain ⟨more, hheaders⟩ := h.headers
        have hsame := contentLengthHeader_append_of_neg hneg more
        rw [hheaders, ← h.size.2] at hsame
        have hnonneg := h.size.1
        omega
      have hover : handleBuffer (some m₀) ([] ++ lf :: y) =
          .complete m₀ (contentLengthHeader m₀.headers) y :=
        (handleBuffer_of_some (nextline_lf y)).trans (if_neg hsize)
      cases h with
      | last _ _ hlines =>
          obtain ⟨-, -, rfl⟩ := HeadState.complete.inj (hover.symm.trans hlines)
          have hwhole' : handleBuffer none (x ++ lf :: (y ++ gc.flatten)) =
              .complete M r (y ++ gc.flatten) := by simpa using hwhole
          have hrest := (handleBuffer_append_lf hmore hlast).symm.trans hwhole'
          exact absurd (handleBuffer_complete_suffix hrest).2 (Nat.lt_irrefl _)
      | more _ _ hlines _ => exact HeadState.noConfusion (hover.symm.trans hlines)

/-- A head that is over where it ought to be has been read with no line end cut in two. -/
theorem HeadReads.keepsLineEnds (h : HeadReads buflen g msg buf m msgSize b)
    (hmore : handleBuffer none x = .more msg buf)
    (hwhole : handleBuffer none (x ++ (g ++ gc).flatten) = .complete M r (b ++ gc.flatten))
    (hn : n + b.length = (x ++ g.flatten).length) : KeepsLineEnds n x (g ++ gc) := by
  induction h generalizing x with
  | last hfits hne hlines =>
      rw [List.cons_append, keepsLineEnds_cons]
      refine ⟨fun _ => (HeadReads.last hfits hne hlines).not_cutsLineEnd hmore hwhole, ?_⟩
      intro g₁ g₂ _ hlength
      simp only [List.flatten_cons, List.flatten_nil, List.append_nil,
        List.length_append] at hn hlength
      omega
  | @more nread g' _ _ _ _ _ _ _ hfits hne hlines hrest ih =>
      have hcut := (HeadReads.more hfits hne hlines hrest).not_cutsLineEnd hmore hwhole
      have hcut' : ¬ CutsLineEnd x nread := by
        rwa [List.cons_append, List.flatten_cons, cutsLineEnd_append _ hne] at hcut
      have hmore' : handleBuffer none _ = _ := handleBuffer_append hcut'
      rw [hmore, HeadState.resume, hlines] at hmore'
      rw [List.cons_append, keepsLineEnds_cons]
      refine ⟨fun _ => hcut, ih hmore' ?_ ?_⟩
      · simpa [List.append_assoc] using hwhole
      · simpa [List.append_assoc] using hn

/-- If no line end is cut in two, the head is over where it ought to be. -/
theorem headReads_of_keepsLineEnds (hpossible : readHead buflen (g ++ rest) msg buf ≠ none)
    (hne : ∀ nread ∈ g, nread ≠ []) (hmore : handleBuffer none x = .more msg buf)
    (hwhole : handleBuffer none (x ++ g.flatten) = .complete m msgSize body)
    (hn : n + body.length = (x ++ g.flatten).length) (hkeeps : KeepsLineEnds n x g) :
    ∃ gh gc b, g = gh ++ gc ∧ HeadReads buflen gh msg buf m msgSize b ∧ body = b ++ gc.flatten := by
  induction g generalizing x msg buf with
  | nil =>
      rw [List.flatten_nil, List.append_nil, hmore] at hwhole
      exact HeadState.noConfusion hwhole
  | cons nread g ih =>
      obtain ⟨hcut, hkeeps⟩ := keepsLineEnds_cons.mp hkeeps
      have hnread := hne nread List.mem_cons_self
      have hshort := length_lt_of_more hmore hwhole
      rw [List.flatten_cons] at hcut hwhole hn hshort
      rw [cutsLineEnd_append _ hnread] at hcut
      simp only [List.length_append] at hn hshort
      -- the new bytes are handled as they would be in one piece
      have hlines : handleBuffer none (x ++ nread) = _ := handleBuffer_append (hcut (by omega))
      rw [hmore, HeadState.resume] at hlines
      rw [List.cons_append, readHead] at hpossible
      split_ifs at hpossible with hlong
      · exact absurd rfl hpossible
      rw [← List.append_assoc] at hwhole
      by_cases hover : g.flatten.length ≤ body.length
      · -- the head is over with this read
        obtain ⟨head, hhead⟩ := (handleBuffer_complete_suffix hwhole).1
        obtain ⟨b, rfl⟩ : g.flatten <:+ body :=
          List.suffix_of_suffix_length_le (List.suffix_append _ _) ⟨head, hhead⟩ hover
        rw [← List.append_assoc] at hhead
        have hb := List.append_cancel_right hhead
        rw [← hb, List.append_assoc] at hwhole
        have hnow := handleBuffer_of_append hwhole
        rw [hb, hlines] at hnow
        exact ⟨[nread], g, b, rfl, .last (not_lt.mp hlong) hnread hnow, rfl⟩
      · have hcut' : ¬ CutsLineEnd (x ++ nread) g.flatten := by
          have h := hkeeps [] g rfl
          simp only [List.flatten_nil, List.append_nil, List.length_append] at h
          exact h (by omega)
        have hwhole' := hwhole
        rw [handleBuffer_append hcut', hlines] at hwhole'
        cases hstate : handleBuffer msg (buf ++ nread) with
        | more msg' buf' =>
            rw [hstate] at hpossible
            obtain ⟨gh, gc, b, rfl, hhead, hbody⟩ := ih hpossible
              (fun r hr => hne r (List.mem_cons_of_mem _ hr)) (hlines.trans hstate) hwhole
              (by simp only [List.length_append]; omega) hkeeps
            exact ⟨nread :: gh, gc, b, rfl, .more (not_lt.mp hlong) hnread hstate hhead, hbody⟩
        | bad =>
            rw [hstate] at hwhole'
            exact HeadState.noConfusion hwhole'
        | complete m' msgSize' b =>
            rw [hstate] at hwhole'
            obtain ⟨-, -, rfl⟩ := HeadState.complete.inj hwhole'
            rw [List.length_append] at hover
            omega

end Cuts

end Rtsp

end ShairportSync
