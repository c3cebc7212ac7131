import ShairportSync.Resource.Ledger
import ShairportSync.Rtsp.ReadRequest

/-!
# The buffer of a request

`rtsp_read_request` allocates a buffer and pushes a clean-up handler that frees it. If the content
is longer than the buffer, the buffer is made larger, and may then be in another place, but the
handler still has the place it had before. At the end the buffer belongs to the message, or the
handler is run; the handler is run as well when the thread is cancelled in a read.
-/

namespace ShairportSync

namespace Rtsp

open Player (Bytes)
open Resource

/-! ## What the loops find -/

abbrev eintr : ℕ := 4

abbrev eagain : ℕ := 11

abbrev etimedout : ℕ := 110

/-- What `read_from_rtsp_connection` comes to. Data of no length is the end of the file. -/
inductive ReadResult where
  | data (nread : Bytes)
  | error (errno : ℕ)
  /-- The thread is cancelled in the read. -/
  | cancelled
deriving DecidableEq

/-- What a turn of one of the loops finds: whether the connection is to stop, and what is read. -/
structure ReadTurn where
  stop : Bool
  read : ReadResult
deriving DecidableEq

/-- `rtsp_read_request_response`, apart from `rtsp_read_request_response_ok`. -/
inductive ReadFailure where
  | immediateShutdownRequested
  | badPacket
  | channelClosed
  | readError
  | error
deriving DecidableEq

/-- How a loop ends: it is through, it goes to `shutdown`, or the thread is cancelled. -/
inductive LoopEnd (α : Type) where
  | through (found : α) (turns : List ReadTurn)
  | shutdown (reply : ReadFailure)
  | cancelled

/-- The loop that reads the head. It has no end here if it finds nothing more, or if a read brings
more than it asks for. -/
def headLoop (buflen : ℕ) :
    List ReadTurn → Option RtspMessage → Bytes → Option (LoopEnd (RtspMessage × Int × Bytes))
  | [], _, _ => none
  | turn :: turns, msg, inbuf =>
      if turn.stop then some (.shutdown .immediateShutdownRequested)
      else
        match turn.read with
        | .data nread =>
            if buflen < inbuf.length + nread.length then none
            else if nread = [] then some (.shutdown .channelClosed)
            else
              match handleBuffer msg (inbuf ++ nread) with
              | .more msg inbuf => headLoop buflen turns msg inbuf
              | .bad => some (.shutdown .badPacket)
              | .complete msg msgSize inbuf => some (.through (msg, msgSize, inbuf) turns)
        | .error errno =>
            if errno = eintr ∨ errno = eagain then headLoop buflen turns msg inbuf
            else if errno = etimedout then some (.shutdown .channelClosed)
            else some (.shutdown .readError)
        | .cancelled => some .cancelled

def bodyLoop (msgSize : Int) : List ReadTurn → Bytes → Option (LoopEnd Bytes)
  | [], inbuf => if inbuf.length < msgSize then none else some (.through inbuf [])
  | turn :: turns, inbuf =>
      if inbuf.length < msgSize then
        if turn.stop then some (.shutdown .immediateShutdownRequested)
        else
          match turn.read with
          | .data nread =>
              if msgSize < inbuf.length + nread.length then none
              else if nread = [] then some (.shutdown .error)
              else bodyLoop msgSize turns (inbuf ++ nread)
          | .error errno =>
              if errno = eintr ∨ errno = eagain then bodyLoop msgSize turns inbuf
              else some (.shutdown .readError)
          | .cancelled => some .cancelled
      else some (.through inbuf (turn :: turns))

/-! ## The heap -/

abbrev Addr := ℕ

/-- The buffers that have been allocated and those that have been freed. -/
structure Heap where
  allocated : List Addr
  freed : List Addr
deriving DecidableEq

def Heap.empty : Heap := ⟨[], []⟩

def Heap.malloc (heap : Heap) (p : Addr) : Heap :=
  { heap with allocated := heap.allocated ++ [p] }

/-- `free`, which is also what `malloc_cleanup` does. -/
def Heap.free (heap : Heap) (p : Addr) : Heap := { heap with freed := heap.freed ++ [p] }

/-- `realloc`, where a larger buffer can be had at this place, or cannot be had: the buffer stays
where it is, or there is a new one and the old one is freed. -/
def Heap.realloc (heap : Heap) (p : Addr) : Option Addr → Heap × Option Addr
  | none => (heap, none)
  | some q => if q = p then (heap, some p) else ((heap.malloc q).free p, some q)

/-- What becomes of a call: the message if all is well, what is returned if not, or that the thread
has been cancelled. -/
inductive CallEnd where
  | ok (msg : RtspMessage)
  | failed (reply : ReadFailure)
  | cancelled
deriving DecidableEq

structure Exit where
  callEnd : CallEnd
  heap : Heap
  content : Option Addr
deriving DecidableEq

/-- The answer to a request for `msg_size + 1` bytes. Where that is not an `int` any more, no such
buffer can be had. -/
def reallocAnswer (msgSize : Int) (answer : Option Addr) : Option Addr :=
  if 2 ^ 31 ≤ msgSize + 1 then none else answer

/-- What follows the head, with the buffer where it is now, and where the handler has it. -/
def finishCall (heap : Heap) (handler buf : Addr) (msg : RtspMessage) (msgSize : Int)
    (turns : List ReadTurn) (inbuf : Bytes) : Option Exit :=
  match bodyLoop msgSize turns inbuf with
  | none => none
  | some (.through content _) =>
      some ⟨.ok { msg with
        contentLength := BitVec.ofNat 32 content.length
        content := content }, heap, some buf⟩
  | some (.shutdown reply) => some ⟨.failed reply, heap.free handler, none⟩
  | some .cancelled => some ⟨.cancelled, heap.free handler, none⟩

/-- What follows the head if the content is longer than the buffer, which is to be made larger. -/
def growAndFinish (heap : Heap) (buf : Addr) (realloc : Option Addr) (msg : RtspMessage)
    (msgSize : Int) (turns : List ReadTurn) (inbuf : Bytes) : Option Exit :=
  match heap.realloc buf (reallocAnswer msgSize realloc) with
  | (heap, none) => some ⟨.failed .error, heap.free buf, none⟩
  | (heap, some moved) => finishCall heap buf moved msg msgSize turns inbuf

/-- `rtsp_read_request`, where `malloc` and `realloc` answer what is given. A message that is freed
at `shutdown` has no content yet. -/
def rtspReadRequest (buflen : ℕ) (malloc realloc : Option Addr) (turns : List ReadTurn) :
    Option Exit :=
  match malloc with
  | none => some ⟨.failed .error, .empty, none⟩
  | some buf =>
      let heap := Heap.empty.malloc buf
      match headLoop buflen turns none [] with
      | none => none
      | some (.shutdown reply) => some ⟨.failed reply, heap.free buf, none⟩
      | some .cancelled => some ⟨.cancelled, heap.free buf, none⟩
      | some (.through (msg, msgSize, inbuf) turns) =>
          if buflen < msgSize then growAndFinish heap buf realloc msg msgSize turns inbuf
          else finishCall heap buf buf msg msgSize turns inbuf

/-! ## Ownership -/

/-- The buffers, with the message as the only one to hold any. -/
def Exit.ledger (exit : Exit) : Ledger Unit Addr where
  held := fun _ => exit.content.toList
  allocated := (· ∈ exit.heap.allocated)
  freed := exit.heap.freed

/-- Every buffer that has been allocated belongs to the message that is returned, or it has been
freed once and only once; and nothing else has been freed. -/
def Exit.Owned (exit : Exit) : Prop := exit.ledger.Balanced

def ReadTurn.goesOn (turn : ReadTurn) : Bool :=
  match turn.read with
  | .data nread => !turn.stop && nread != []
  | .error errno => !turn.stop && (errno == eintr || errno == eagain)
  | .cancelled => false

def ReadTurn.bytes (turn : ReadTurn) : Bytes :=
  match turn.read with
  | .data nread => nread
  | _ => []

/-- What comes before the connection fails, ends, is to stop, or the thread is cancelled. -/
def arriving (turns : List ReadTurn) : Bytes :=
  (turns.takeWhile ReadTurn.goesOn).flatMap ReadTurn.bytes

/-- The content is longer than the buffer, the buffer has been moved to make it larger, and the
content does not all arrive. -/
def FailsAfterMove (buflen : ℕ) (malloc realloc : Option Addr) (turns : List ReadTurn) : Prop :=
  ∃ buf moved msg msgSize inbuf rest, malloc = some buf ∧
    headLoop buflen turns none [] = some (.through (msg, msgSize, inbuf) rest) ∧
    (buflen : Int) < msgSize ∧ reallocAnswer msgSize realloc = some moved ∧ moved ≠ buf ∧
    inbuf.length + (arriving rest).length < msgSize

section Ownership

variable {msgSize : Int} {turns : List ReadTurn} {inbuf : Bytes} {exit : Exit}

theorem arriving_of_goesOn {turn : ReadTurn} (h : turn.goesOn = true) :
    arriving (turn :: turns) = turn.bytes ++ arriving turns := by
  rw [arriving, List.takeWhile_cons_of_pos h, List.flatMap_cons, arriving]

theorem arriving_of_not_goesOn {turn : ReadTurn} (h : turn.goesOn = false) :
    arriving (turn :: turns) = [] := by
  rw [arriving, List.takeWhile_cons_of_neg (by rw [h]; exact Bool.false_ne_true), List.flatMap_nil]

/-- A turn of the loop that reads the content, if something is missing: the loop goes on with what
the turn has brought, or it has not got through. -/
theorem bodyLoop_cons {turn : ReadTurn} {e : LoopEnd Bytes} (hless : inbuf.length < msgSize)
    (h : bodyLoop msgSize (turn :: turns) inbuf = some e) :
    turn.goesOn = true ∧ bodyLoop msgSize turns (inbuf ++ turn.bytes) = some e ∨
      turn.goesOn = false ∧ ∀ content rest, e ≠ .through content rest := by
  obtain ⟨stop, read⟩ := turn
  rw [bodyLoop, if_pos hless] at h
  dsimp only at h
  cases stop with
  | true =>
      obtain rfl := Option.some.inj h
      exact Or.inr ⟨by cases read <;> rfl, fun _ _ => nofun⟩
  | false =>
      rw [if_neg Bool.false_ne_true] at h
      cases read with
      | data nread =>
          dsimp only at h
          split_ifs at h with hlong hempty
          · obtain rfl := Option.some.inj h
            rw [hempty]
            exact Or.inr ⟨rfl, fun _ _ => nofun⟩
          · exact Or.inl ⟨bne_iff_ne.mpr hempty, h⟩
      | error errno =>
          dsimp only at h
          split_ifs at h with hretried
          · refine Or.inl ⟨?_, ?_⟩
            · rcases hretried with rfl | rfl <;> rfl
            · rwa [ReadTurn.bytes, List.append_nil]
          · obtain rfl := Option.some.inj h
            rw [not_or] at hretried
            refine Or.inr ⟨?_, fun _ _ => nofun⟩
            change (!false && (errno == eintr || errno == eagain)) = false
            rw [beq_false_of_ne hretried.1, beq_false_of_ne hretried.2]
            rfl
      | cancelled =>
          obtain rfl := Option.some.inj h
          exact Or.inr ⟨rfl, fun _ _ => nofun⟩

theorem bodyLoop_through_iff {e : LoopEnd Bytes} (h : bodyLoop msgSize turns inbuf = some e) :
    (∃ content rest, e = .through content rest) ↔
      msgSize ≤ inbuf.length + (arriving turns).length := by
  induction turns generalizing inbuf with
  | nil =>
      rw [bodyLoop] at h
      split_ifs at h with hless
      obtain rfl := Option.some.inj h
      exact ⟨fun _ => by omega, fun _ => ⟨inbuf, [], rfl⟩⟩
  | cons turn turns ih =>
      by_cases hless : inbuf.length < msgSize
      · rcases bodyLoop_cons hless h with ⟨hgoes, hnext⟩ | ⟨hstops, hnot⟩
        · rw [ih hnext, arriving_of_goesOn hgoes]
          simp only [List.length_append, Nat.cast_add, add_assoc]
        · rw [arriving_of_not_goesOn hstops, List.length_nil]
          refine ⟨fun ⟨content, rest, hthrough⟩ => absurd hthrough (hnot content rest),
            fun hle => ?_⟩
          omega
      · rw [bodyLoop, if_neg hless] at h
        obtain rfl := Option.some.inj h
        exact ⟨fun _ => by omega, fun _ => ⟨inbuf, turn :: turns, rfl⟩⟩

theorem owned_iff : exit.Owned ↔ ∀ p, exit.heap.freed.count p + exit.content.toList.count p =
    if p ∈ exit.heap.allocated then 1 else 0 := by
  have hholders (p : Addr) : exit.ledger.holders p = exit.content.toList.count p :=
    Fintype.sum_unique _
  have hone (p : Addr) : exit.content.toList.count p ≤ 1 := by
    cases exit.content with
    | none => exact Nat.zero_le 1
    | some q => exact List.count_le_length
  constructor
  · intro h p
    have hp := hone p
    by_cases hmem : p ∈ exit.heap.allocated
    · have hfreed := h.allocated p hmem
      rw [hholders] at hfreed
      change exit.heap.freed.count p = _ at hfreed
      rw [if_pos hmem, hfreed]
      split_ifs <;> omega
    · obtain ⟨hnone, hfreed⟩ := h.unallocated p hmem
      rw [hholders] at hnone
      change exit.heap.freed.count p = 0 at hfreed
      rw [if_neg hmem, hfreed, hnone]
  · intro h
    refine ⟨fun p hmem => ?_, fun p hmem => ?_⟩
    · change p ∉ exit.heap.allocated at hmem
      have hp := h p
      rw [if_neg hmem] at hp
      rw [hholders]
      exact ⟨by omega, (Nat.add_eq_zero_iff.mp hp).1⟩
    · change p ∈ exit.heap.allocated at hmem
      have hp := h p
      rw [if_pos hmem] at hp
      rw [hholders]
      change exit.heap.freed.count p = _
      split_ifs <;> have hle := hone p <;> omega

theorem finishCall_spec {heap : Heap} {handler buf : Addr} {msg : RtspMessage}
    (h : finishCall heap handler buf msg msgSize turns inbuf = some exit) :
    msgSize ≤ inbuf.length + (arriving turns).length ∧
        exit.heap = heap ∧ exit.content = some buf ∨
      inbuf.length + (arriving turns).length < msgSize ∧
        exit.heap = heap.free handler ∧ exit.content = none := by
  rw [finishCall] at h
  cases hbody : bodyLoop msgSize turns inbuf with
  | none =>
      rw [hbody] at h
      exact absurd h.symm (Option.some_ne_none exit)
  | some e =>
      have hiff := bodyLoop_through_iff hbody
      rw [hbody] at h
      cases e with
      | through content rest =>
          obtain rfl := Option.some.inj h
          exact Or.inl ⟨hiff.mp ⟨content, rest, rfl⟩, rfl, rfl⟩
      | shutdown reply =>
          obtain rfl := Option.some.inj h
          exact Or.inr ⟨not_le.mp (fun hle => nomatch hiff.mpr hle), rfl, rfl⟩
      | cancelled =>
          obtain rfl := Option.some.inj h
          exact Or.inr ⟨not_le.mp (fun hle => nomatch hiff.mpr hle), rfl, rfl⟩

theorem owned_of_freed {p : Addr} (hheap : exit.heap = ⟨[p], [p]⟩)
    (hcontent : exit.content = none) : exit.Owned := by
  rw [owned_iff, hheap, hcontent]
  intro q
  by_cases hq : p = q
  · simp [hq]
  · simp [hq, Ne.symm hq]

theorem owned_of_kept {p : Addr} (hheap : exit.heap = ⟨[p], []⟩)
    (hcontent : exit.content = some p) : exit.Owned := by
  rw [owned_iff, hheap, hcontent]
  intro q
  by_cases hq : p = q
  · simp [hq]
  · simp [hq, Ne.symm hq]

theorem owned_of_moved {p q : Addr} (hne : q ≠ p) (hheap : exit.heap = ⟨[p, q], [p]⟩)
    (hcontent : exit.content = some q) : exit.Owned := by
  rw [owned_iff, hheap, hcontent]
  intro r
  by_cases hp : p = r
  · simp [← hp, hne]
  · by_cases hq : q = r
    · simp [← hq, hne, Ne.symm hne]
    · simp [hp, hq, Ne.symm hp, Ne.symm hq]

theorem not_owned_of_moved {p q : Addr} (hheap : exit.heap = ⟨[p, q], [p, p]⟩) :
    ¬ exit.Owned := by
  rw [owned_iff, hheap]
  intro h
  have hp := h p
  rw [if_pos List.mem_cons_self, List.count_cons_self] at hp
  have hcount : List.count p [p] = 1 := List.count_singleton_self
  omega

theorem owned_finishCall {buf : Addr} {msg : RtspMessage}
    (h : finishCall ⟨[buf], []⟩ buf buf msg msgSize turns inbuf = some exit) : exit.Owned := by
  rcases finishCall_spec h with ⟨-, hheap, hcontent⟩ | ⟨-, hheap, hcontent⟩
  · exact owned_of_kept hheap hcontent
  · exact owned_of_freed hheap hcontent

/-- A call in which the buffer is to be made larger. -/
theorem owned_growAndFinish_iff {buf : Addr} {realloc : Option Addr} {msg : RtspMessage}
    (h : growAndFinish ⟨[buf], []⟩ buf realloc msg msgSize turns inbuf = some exit) :
    exit.Owned ↔ ¬ ∃ moved, reallocAnswer msgSize realloc = some moved ∧ moved ≠ buf ∧
      inbuf.length + (arriving turns).length < msgSize := by
  rw [growAndFinish] at h
  cases hanswer : reallocAnswer msgSize realloc with
  | none =>
      rw [hanswer] at h
      obtain rfl := Option.some.inj h
      refine ⟨fun _ ⟨moved, hmoved, _⟩ => (nomatch hmoved), fun _ => ?_⟩
      exact owned_of_freed (p := buf) rfl rfl
  | some moved =>
      rw [hanswer, Heap.realloc] at h
      by_cases hsame : moved = buf
      · rw [if_pos hsame] at h
        refine ⟨fun _ ⟨moved', hmoved, hne, _⟩ => hne ?_, fun _ => owned_finishCall h⟩
        rw [← Option.some.inj hmoved, hsame]
      · rw [if_neg hsame] at h
        rcases finishCall_spec h with ⟨harrives, hheap, hcontent⟩ | ⟨hfails, hheap, -⟩
        · refine ⟨fun _ ⟨_, _, _, hless⟩ => absurd harrives (not_le.mpr hless), fun _ => ?_⟩
          exact owned_of_moved hsame hheap hcontent
        · exact ⟨fun howned => absurd howned (not_owned_of_moved hheap),
            fun hnot => absurd ⟨moved, rfl, hsame, hfails⟩ hnot⟩

/-- The buffer is owned at the end of a call exactly if the call does not fail after the buffer has
been moved. -/
theorem owned_iff_not_failsAfterMove (buflen : ℕ) (malloc realloc : Option Addr)
    (turns : List ReadTurn) (exit : Exit)
    (h : rtspReadRequest buflen malloc realloc turns = some exit) :
    exit.Owned ↔ ¬ FailsAfterMove buflen malloc realloc turns := by
  unfold rtspReadRequest at h
  cases malloc with
  | none =>
      obtain rfl := Option.some.inj h
      refine ⟨fun _ ⟨_, _, _, _, _, _, hmalloc, _⟩ => (nomatch hmalloc), fun _ => ?_⟩
      exact owned_iff.mpr fun p => rfl
  | some buf =>
      dsimp only at h
      cases hhead : headLoop buflen turns none [] with
      | none =>
          rw [hhead] at h
          exact absurd h.symm (Option.some_ne_none exit)
      | some e =>
          rw [hhead] at h
          cases e with
          | through found rest =>
              obtain ⟨msg, msgSize, inbuf⟩ := found
              dsimp only at h
              split_ifs at h with hlong
              · rw [owned_growAndFinish_iff h, not_iff_not]
                constructor
                · rintro ⟨moved, hanswer, hne, hless⟩
                  exact ⟨buf, moved, msg, msgSize, inbuf, rest, rfl, hhead, hlong, hanswer, hne,
                    hless⟩
                · rintro ⟨buf', moved, msg', msgSize', inbuf', rest', hbuf, hfound, -, hanswer, hne,
                    hless⟩
                  obtain rfl := Option.some.inj hbuf
                  rw [hhead] at hfound
                  obtain ⟨⟨rfl, rfl, rfl⟩, rfl⟩ := by simpa using hfound
                  exact ⟨moved, hanswer, hne, hless⟩
              · refine ⟨fun _ => ?_, fun _ => owned_finishCall h⟩
                rintro ⟨buf', moved, msg', msgSize', inbuf', rest', -, hfound, hlong', -⟩
                rw [hhead] at hfound
                obtain ⟨⟨rfl, rfl, rfl⟩, rfl⟩ := by simpa using hfound
                exact hlong hlong'
          | shutdown reply =>
              obtain rfl := Option.some.inj h
              refine ⟨fun _ ⟨_, _, _, _, _, _, _, hfound, _⟩ => ?_,
                fun _ => owned_of_freed (p := buf) rfl rfl⟩
              rw [hhead] at hfound
              exact nomatch hfound
          | cancelled =>
              obtain rfl := Option.some.inj h
              refine ⟨fun _ ⟨_, _, _, _, _, _, _, hfound, _⟩ => ?_,
                fun _ => owned_of_freed (p := buf) rfl rfl⟩
              rw [hhead] at hfound
              exact nomatch hfound

end Ownership

/-- The buffer is made larger where it is, and the connection is closed before the content is
there. -/
theorem owned_iff_not_failsAfterMove_in_place :
    Exit.Owned ⟨.failed .error, ⟨[1], [1]⟩, none⟩ := by
  refine (owned_iff_not_failsAfterMove 4096 (some 1) (some 1)
    [⟨false, .data (ascii "POST / RTSP/1.0\nContent-Length: 5000\n\n")⟩, ⟨false, .data []⟩] _
    (by decide +kernel)).mpr ?_
  rintro ⟨buf, moved, msg, msgSize, inbuf, rest, hbuf, -, -, hanswer, hne, -⟩
  rw [reallocAnswer] at hanswer
  split_ifs at hanswer
  rw [hbuf] at hanswer
  exact hne (Option.some.inj hanswer).symm

/-- The head names 5000 bytes, the buffer is moved to make it larger, and the connection is closed:
the buffer from which it has been moved is freed twice, and the one to which it has been moved is
not. -/
theorem not_owned_of_end_of_file : ¬ ∀ (turns : List ReadTurn) (exit : Exit),
    rtspReadRequest 4096 (some 1) (some 2) turns = some exit → exit.Owned := by
  intro h
  have hexit := h [⟨false, .data (ascii "POST / RTSP/1.0\nContent-Length: 5000\n\n")⟩,
    ⟨false, .data []⟩] ⟨.failed .error, ⟨[1, 2], [1, 1]⟩, none⟩ (by decide +kernel)
  exact not_owned_of_moved rfl hexit

end Rtsp

end ShairportSync
