import ShairportSync.BufferedAudio.BlockFraming

/-!
# Waiting for a block

`lread_sized_block` calls `buffered_read` until it has as many bytes as it is asked for. After the
end of the stream it gives up, and after an error too, unless it is one of those after which it
tries again; but the error it sees is the one the reader has noted, and that does not go away. A
call of `buffered_read` that is waiting already when the end of the stream is noted waits on, as it
looks for bytes and errors only.
-/

namespace ShairportSync

namespace BufferedAudio

open Player (Bytes)
open Transition

/-- A call of `lread_sized_block`, with the place in the stream where it began, the number of bytes
to be read, those that have been read, and what it has returned. -/
inductive SizedCall where
  | idle
  | reading (start count : ℕ) (stored : Bytes)
  | returned (start count : ℕ) (stored : Bytes) (response : Int)
deriving DecidableEq

/-- The reader and one thread that calls `lread_sized_block`. -/
structure SizedReads where
  ring : TcpRing
  call : SizedCall

inductive SizedLabel where
  | reader (l : TcpLabel)
  | call (count : ℕ)
  | read
deriving DecidableEq

def TcpLabel.ofReader : TcpLabel → Bool
  | .check | .request | .recv _ | .commit => true
  | .callRead _ _ | .read _ => false

def Response.toBytes : Response → Bytes
  | .bytes xs _ => xs
  | _ => []

instance (errno : BitVec 32) : Decidable (errno ∈ retriedErrors) :=
  decidable_of_iff (errno = 104 ∨ errno = 11 ∨ errno = 4) (by simp [retriedErrors])

/-- The end of a turn of the loop of `lread_sized_block`, when `buffered_read` has returned.
Without an error and without the end of the stream `errno` would be one of an earlier call;
`buffered_read` does not return then. -/
def lreadNext (ring : TcpRing) (start count : ℕ) (stored : Bytes) : Response → SizedReads
  | .bytes xs _ =>
      let inbuf := stored ++ xs
      if xs = [] then ⟨ring, .returned start count inbuf 0⟩
      else if inbuf.length < count then
        ⟨ring.setCaller 0 (.reading (count - inbuf.length)), .reading start count inbuf⟩
      else ⟨ring, .returned start count inbuf inbuf.length⟩
  | .error errno =>
      if errno ∈ retriedErrors ∧ stored.length < count then
        ⟨ring.setCaller 0 (.reading (count - stored.length)), .reading start count stored⟩
      else ⟨ring, .returned start count stored (-1)⟩
  | .closed => ⟨ring, .returned start count stored 0⟩
  | .failed => ⟨ring, .returned start count stored (-1)⟩

namespace SizedReads

def init (buffer : ℕ → BitVec 8) (bufferMaxSize : ℕ) : SizedReads :=
  ⟨.init buffer bufferMaxSize, .idle⟩

/-- A step of the reader, the start of a call, or a step of the call of `buffered_read` that is
made in it. -/
def step (s : SizedReads) : SizedLabel → Option SizedReads
  | .reader l =>
      if l.ofReader then (s.ring.step l).map fun ring => { s with ring := ring } else none
  | .call count =>
      match s.call with
      | .reading _ _ _ => none
      | _ =>
          (s.ring.step (.callRead 0 count)).map fun ring =>
            ⟨ring, .reading (returnedBytes s.ring.log).length count []⟩
  | .read =>
      match s.call with
      | .reading start count stored =>
          (s.ring.step (.read 0)).map fun ring =>
            if ring.caller 0 = .idle then
              lreadNext ring start count stored
                (s.ring.desc.bufferedRead (count - stored.length)).1
            else { s with ring := ring }
      | _ => none

/-- The descriptor is closed or has an error. -/
def Stopped (s : SizedReads) : Prop := s.ring.desc.closed = true ∨ s.ring.desc.errorCode ≠ 0

/-- What a call has returned: the number of bytes, if so many bytes of the stream have been stored
one after the other, or something that is not positive. -/
def Delivers (s : SizedReads) : Prop :=
  ∀ start count stored response, s.call = .returned start count stored response →
    (response = count ∧ stored.length = count ∧
      stored = (s.ring.received.drop start).take count) ∨ response ≤ 0

/-- The call returns after no more calls of `buffered_read` than there are bytes in the buffer, and
one more. -/
def ComesBack (s : SizedReads) : Prop :=
  ∃ n ≤ s.ring.desc.bufferOccupancy + 1, ∃ t start count stored response,
    run step s (List.replicate n .read) = some t ∧ t.call = .returned start count stored response

/-- What a call is to do: deliver what it says, and come back once the descriptor is closed or has
an error, when there is nothing that can go on besides it. -/
structure Good (s : SizedReads) : Prop where
  delivers : s.Delivers
  comesBack : ∀ start count stored, s.Stopped → s.call = .reading start count stored →
    (∀ l, l ≠ .read → s.step l = none) ∧ s.ComesBack

/-- No call waits for bytes when the descriptor is closed, and where the error is one after which
the call tries again, all it is to read is in the buffer. -/
def Unstuck (s : SizedReads) : Prop :=
  ∀ start count stored, s.Stopped → s.call = .reading start count stored →
    (s.ring.caller 0 = .waiting (count - stored.length) → ¬ s.ring.desc.NothingIn) ∧
      (s.ring.desc.errorCode ∈ retriedErrors →
        count ≤ stored.length + s.ring.desc.bufferOccupancy)

/-- What is known of the call. -/
def CallInv (s : SizedReads) : Prop :=
  match s.call with
  | .idle => s.ring.caller 0 = .idle
  | .reading start count stored =>
      stored.length < count ∧
        (s.ring.caller 0 = .reading (count - stored.length) ∨
          s.ring.caller 0 = .waiting (count - stored.length)) ∧
        ∃ before : Bytes, before.length = start ∧ returnedBytes s.ring.log = before ++ stored
  | .returned start count stored response =>
      s.ring.caller 0 = .idle ∧ (response = count ∧ stored.length = count ∨ response ≤ 0) ∧
        ∃ before : Bytes, before.length = start ∧ returnedBytes s.ring.log = before ++ stored

structure Inv (s : SizedReads) : Prop where
  ring : s.ring.Inv
  call : s.CallInv

end SizedReads

/-! ## The steps -/

section Steps

variable {ring ring' : TcpRing} {l : TcpLabel} {n start count : ℕ} {stored before : Bytes}
  {response : Response}

theorem returnedBytes_singleton (thread : ℕ) (response : Response) :
    returnedBytes [(thread, response)] = response.toBytes := by
  cases response with
  | bytes xs remaining => exact List.append_nil xs
  | _ => rfl

theorem reader_step_same (hl : l.ofReader = true) (h : ring.step l = some ring') :
    ring'.caller = ring.caller ∧ ring'.log = ring.log := by
  cases l with
  | check =>
      rw [TcpRing.step] at h
      split at h
      · split_ifs at h
        obtain rfl := Option.some.inj h
        exact ⟨rfl, rfl⟩
      · exact absurd h.symm (Option.some_ne_none ring')
  | request =>
      rw [TcpRing.step] at h
      split at h
      · obtain rfl := Option.some.inj h
        exact ⟨rfl, rfl⟩
      · exact absurd h.symm (Option.some_ne_none ring')
  | recv nread =>
      rw [TcpRing.step] at h
      split at h
      · split_ifs at h
        obtain rfl := Option.some.inj h
        exact ⟨rfl, rfl⟩
      · exact absurd h.symm (Option.some_ne_none ring')
  | commit =>
      rw [TcpRing.step] at h
      split at h
      · obtain rfl := Option.some.inj h
        exact ⟨rfl, rfl⟩
      · exact absurd h.symm (Option.some_ne_none ring')
  | callRead thread count => exact absurd hl Bool.false_ne_true
  | read thread => exact absurd hl Bool.false_ne_true

theorem setCaller_self (ring : TcpRing) (c : TcpCaller) : (ring.setCaller 0 c).caller 0 = c := by
  change Function.update ring.caller 0 c 0 = c
  exact Function.update_self ..

theorem reader_step_eq_none (hring : ring.Inv) (hl : l.ofReader = true)
    (hstopped : ring.desc.closed = true ∨ ring.desc.errorCode ≠ 0) : ring.step l = none := by
  have hagrees := hring.agrees
  have hreader : ring.reader = .checking := by
    cases hreader : ring.reader with
    | checking => rfl
    | ready =>
        rw [hreader] at hagrees
        exact absurd (Or.inr hstopped.symm) hagrees
    | receiving k =>
        rw [hreader] at hagrees
        obtain ⟨hclosed, herror, -⟩ := hagrees
        rcases hstopped with h | h
        · exact absurd (hclosed.symm.trans h) Bool.false_ne_true
        · exact absurd herror h
    | received nread =>
        rw [hreader] at hagrees
        obtain ⟨hclosed, herror, -⟩ := hagrees
        rcases hstopped with h | h
        · exact absurd (hclosed.symm.trans h) Bool.false_ne_true
        · exact absurd herror h
  cases l with
  | check =>
      rw [TcpRing.step, hreader]
      exact if_pos (Or.inr hstopped.symm)
  | callRead thread count => exact absurd hl Bool.false_ne_true
  | read thread => exact absurd hl Bool.false_ne_true
  | _ => rw [TcpRing.step, hreader]

def TcpRing.Waits (ring : TcpRing) (n : ℕ) : Prop :=
  ring.desc.NothingIn ∧ (ring.caller 0 = .waiting n ∨ ring.desc.closed = false)

/-- What a call of `buffered_read` does: it goes on waiting, begins to wait, or returns. -/
theorem step_read_cases (hcaller : ring.caller 0 = .reading n ∨ ring.caller 0 = .waiting n) :
    (ring.Waits n ∧ (ring.step (.read 0) = none ∨
      ring.step (.read 0) = some (ring.setCaller 0 (.waiting n)))) ∨
    (¬ ring.Waits n ∧ ring.step (.read 0) = some (ring.finish 0 n)) := by
  rcases hcaller with hcaller | hcaller
  · rw [TcpRing.Waits, TcpRing.step, hcaller]
    dsimp only
    split_ifs with hwaits
    · exact Or.inl ⟨⟨hwaits.2, Or.inr hwaits.1⟩, Or.inr rfl⟩
    · refine Or.inr ⟨?_, rfl⟩
      rintro ⟨hnothing, hcontra | hopen⟩
      · cases hcontra
      · exact hwaits ⟨hopen, hnothing⟩
  · rw [TcpRing.Waits, TcpRing.step, hcaller]
    dsimp only
    split_ifs with hwaits
    · exact Or.inl ⟨⟨hwaits, Or.inl rfl⟩, Or.inl rfl⟩
    · exact Or.inr ⟨fun h => hwaits h.1, rfl⟩

theorem finish_spec (ring : TcpRing) (n : ℕ) :
    (ring.finish 0 n).caller 0 = .idle ∧
      (ring.finish 0 n).desc = (ring.desc.bufferedRead n).2 ∧
      returnedBytes (ring.finish 0 n).log =
        returnedBytes ring.log ++ (ring.desc.bufferedRead n).1.toBytes := by
  refine ⟨setCaller_self ring .idle, rfl, ?_⟩
  change returnedBytes (ring.log ++ [(0, (ring.desc.bufferedRead n).1)]) = _
  rw [returnedBytes_append, returnedBytes_singleton]

theorem length_bufferedRead_le (d : TcpDesc) (n : ℕ) :
    (d.bufferedRead n).1.toBytes.length ≤ n := by
  have hmin := d.bytesToMove_eq_min n
  unfold TcpDesc.bufferedRead
  split_ifs
  · rw [Response.toBytes, List.length_map, List.length_range]
    omega
  all_goals exact Nat.zero_le n

/-- What is known of the call holds after a turn of the loop. -/
theorem inv_lreadNext (hring : ring.Inv) (hcaller : ring.caller 0 = .idle)
    (hless : stored.length < count) (hbefore : before.length = start)
    (hlog : returnedBytes ring.log = before ++ (stored ++ response.toBytes))
    (hlength : stored.length + response.toBytes.length ≤ count) :
    (lreadNext ring start count stored response).Inv := by
  have hagain {inbuf : Bytes} (hmore : inbuf.length < count)
      (hlog : returnedBytes ring.log = before ++ inbuf) :
      SizedReads.Inv ⟨ring.setCaller 0 (.reading (count - inbuf.length)),
        .reading start count inbuf⟩ :=
    ⟨hring.setCaller (Nat.sub_pos_of_lt hmore), hmore, Or.inl (setCaller_self ring _), before,
      hbefore, hlog⟩
  have hsame (hnil : response.toBytes = []) : returnedBytes ring.log = before ++ stored := by
    rw [hlog, hnil, List.append_nil]
  cases response with
  | bytes xs remaining =>
      rw [lreadNext]
      split_ifs with hempty hmore
      · exact ⟨hring, hcaller, Or.inr le_rfl, before, hbefore, hlog⟩
      · exact hagain hmore hlog
      · have hfull : (stored ++ xs).length = count := by
          rw [Response.toBytes] at hlength
          rw [List.length_append] at hmore ⊢
          omega
        exact ⟨hring, hcaller, Or.inl ⟨congrArg Nat.cast hfull, hfull⟩, before, hbefore, hlog⟩
  | error errno =>
      rw [lreadNext]
      split_ifs with hretried
      · exact hagain hless (hsame rfl)
      · exact ⟨hring, hcaller, Or.inr (by decide), before, hbefore, hsame rfl⟩
  | closed =>
      exact ⟨hring, hcaller, Or.inr le_rfl, before, hbefore, hsame rfl⟩
  | failed =>
      exact ⟨hring, hcaller, Or.inr (by decide), before, hbefore, hsame rfl⟩

end Steps

namespace SizedReads

section Invariant

variable {s t : SizedReads} {l : SizedLabel} {n start count : ℕ} {stored : Bytes}

/-- A call of `buffered_read` that returns. -/
theorem step_read_of_not_waits (hs : s.Inv) (hcall : s.call = .reading start count stored)
    (hready : ¬ s.ring.Waits (count - stored.length)) :
    s.step .read = some (lreadNext (s.ring.finish 0 (count - stored.length)) start count stored
      (s.ring.desc.bufferedRead (count - stored.length)).1) := by
  have hcallInv := hs.call
  rw [CallInv, hcall] at hcallInv
  obtain ⟨-, hcaller, -⟩ := hcallInv
  rcases step_read_cases hcaller with ⟨hwaits, -⟩ | ⟨-, hread⟩
  · exact absurd hwaits hready
  · rw [step, hcall]
    dsimp only
    rw [hread, Option.map_some, if_pos (finish_spec _ _).1]

/-- A call of `buffered_read` that has to wait. -/
theorem step_read_of_waits (hs : s.Inv) (hcall : s.call = .reading start count stored)
    (hwaits : s.ring.Waits (count - stored.length)) : s.step .read = none ∨
      s.step .read =
        some { s with ring := s.ring.setCaller 0 (.waiting (count - stored.length)) } := by
  have hcallInv := hs.call
  rw [CallInv, hcall] at hcallInv
  obtain ⟨-, hcaller, -⟩ := hcallInv
  rcases step_read_cases hcaller with ⟨-, hread | hread⟩ | ⟨hready, -⟩
  · left
    rw [step, hcall]
    dsimp only
    rw [hread, Option.map_none]
  · right
    have hwaiting : (s.ring.setCaller 0 (.waiting (count - stored.length))).caller 0 ≠ .idle := by
      rw [setCaller_self]
      exact nofun
    rw [step, hcall]
    dsimp only
    rw [hread, Option.map_some, if_neg hwaiting, ← hcall]
  · exact absurd hwaits hready

theorem received_eq (hs : s.Inv) {before : Bytes}
    (hlog : returnedBytes s.ring.log = before ++ stored) :
    (s.ring.received.drop before.length).take stored.length = stored := by
  rw [hs.ring.faithful, hlog, List.append_assoc, List.append_assoc, List.drop_left,
    List.take_left]

theorem Inv.delivers (hs : s.Inv) : s.Delivers := by
  intro start count stored response hcall
  have hcallInv := hs.call
  rw [CallInv, hcall] at hcallInv
  obtain ⟨-, hresponse, before, rfl, hlog⟩ := hcallInv
  rcases hresponse with ⟨rfl, hlength⟩ | hle
  · refine Or.inl ⟨rfl, hlength, ?_⟩
    rw [← hlength, received_eq hs hlog]
  · exact Or.inr hle

theorem inv_reader {r : TcpLabel} (hs : s.Inv) (h : s.step (.reader r) = some t) : t.Inv := by
  rw [step] at h
  split_ifs at h with hr
  obtain ⟨ring, hring, rfl⟩ := Option.map_eq_some_iff.mp h
  obtain ⟨hcaller, hlog⟩ := reader_step_same hr hring
  refine ⟨(hs.ring.keeps hring).1, ?_⟩
  have hcallInv := hs.call
  rw [CallInv] at hcallInv ⊢
  rw [hcaller, hlog]
  exact hcallInv

theorem inv_call {count : ℕ} (hs : s.Inv) (h : s.step (.call count) = some t) : t.Inv := by
  rw [step] at h
  split at h
  · exact absurd h.symm (Option.some_ne_none t)
  · obtain ⟨ring, hring, rfl⟩ := Option.map_eq_some_iff.mp h
    refine ⟨(hs.ring.keeps hring).1, ?_⟩
    rw [TcpRing.step] at hring
    split at hring
    · split_ifs at hring with hcount
      obtain rfl := Option.some.inj hring
      exact ⟨hcount, Or.inl (setCaller_self s.ring _), returnedBytes s.ring.log, rfl,
        (List.append_nil _).symm⟩
    · exact absurd hring.symm (Option.some_ne_none ring)

theorem inv_read (hs : s.Inv) (h : s.step .read = some t) : t.Inv := by
  cases hcall : s.call with
  | reading start count stored =>
      have hcallInv := hs.call
      rw [CallInv, hcall] at hcallInv
      obtain ⟨hless, hcaller, before, hbefore, hlog⟩ := hcallInv
      by_cases hwaits : s.ring.Waits (count - stored.length)
      · rcases step_read_of_waits hs hcall hwaits with hnone | hwaiting
        · exact absurd (hnone.symm.trans h).symm (Option.some_ne_none t)
        · obtain rfl := Option.some.inj (hwaiting.symm.trans h)
          refine ⟨hs.ring.setCaller (Nat.sub_pos_of_lt hless), ?_⟩
          rw [CallInv, hcall]
          exact ⟨hless, Or.inr (setCaller_self s.ring _), before, hbefore, hlog⟩
      · obtain rfl := Option.some.inj ((step_read_of_not_waits hs hcall hwaits).symm.trans h)
        obtain ⟨hidle, -, hreturned⟩ := finish_spec s.ring (count - stored.length)
        have hlength := length_bufferedRead_le s.ring.desc (count - stored.length)
        have hring : (s.ring.finish 0 (count - stored.length)).Inv :=
          (hs.ring.finish (Nat.sub_pos_of_lt hless) fun hempty =>
            hwaits ⟨hempty.2, Or.inr hempty.1⟩).1
        refine inv_lreadNext hring hidle hless hbefore ?_ (by omega)
        rw [hreturned, hlog, List.append_assoc]
  | idle =>
      rw [step, hcall] at h
      exact absurd h.symm (Option.some_ne_none t)
  | returned start count stored response =>
      rw [step, hcall] at h
      exact absurd h.symm (Option.some_ne_none t)

theorem inv_step (hs : s.Inv) (h : s.step l = some t) : t.Inv := by
  cases l with
  | reader r => exact inv_reader hs h
  | call count => exact inv_call hs h
  | read => exact inv_read hs h

theorem step_eq_none (hs : s.Inv) (hstopped : s.Stopped)
    (hcall : s.call = .reading start count stored) (hl : l ≠ .read) : s.step l = none := by
  cases l with
  | reader r =>
      rw [step]
      split_ifs with hr
      · rw [reader_step_eq_none hs.ring hr hstopped, Option.map_none]
      · rfl
  | call count => rw [step, hcall]
  | read => exact absurd rfl hl

theorem not_waits (hstopped : s.Stopped)
    (hwaiting : s.ring.caller 0 = .waiting n → ¬ s.ring.desc.NothingIn) : ¬ s.ring.Waits n := by
  rintro ⟨hnothing, hcaller | hopen⟩
  · exact hwaiting hcaller hnothing
  · rcases hstopped with hclosed | herror
    · exact Bool.false_ne_true (hopen.symm.trans hclosed)
    · exact herror hnothing.2

def HasReturned (s : SizedReads) : Prop :=
  ∃ start count stored response, s.call = .returned start count stored response

/-- One more call of `buffered_read` with bytes in the buffer: all have been read, or some, and it
goes on. -/
theorem step_read_of_occupied (hs : s.Inv) (hcall : s.call = .reading start count stored)
    (hready : ¬ s.ring.Waits (count - stored.length)) (hocc : s.ring.desc.bufferOccupancy ≠ 0) :
    ∃ t, s.step .read = some t ∧
      (t.HasReturned ∧ count ≤ stored.length + s.ring.desc.bufferOccupancy ∨
        ∃ xs : Bytes, 0 < xs.length ∧ xs.length ≤ s.ring.desc.bufferOccupancy ∧
          t.call = .reading start count (stored ++ xs) ∧
          t.ring.caller 0 = .reading (count - (stored ++ xs).length) ∧
          t.ring.desc = s.ring.desc.moveOut xs.length) := by
  have hcallInv := hs.call
  rw [CallInv, hcall] at hcallInv
  have hpos : 0 < count - stored.length := Nat.sub_pos_of_lt hcallInv.1
  obtain ⟨xs, hlength, hread⟩ : ∃ xs : Bytes,
      xs.length = s.ring.desc.bytesToMove (count - stored.length) ∧
      s.ring.desc.bufferedRead (count - stored.length) =
        (.bytes xs (s.ring.desc.bufferOccupancy - xs.length), s.ring.desc.moveOut xs.length) := by
    refine ⟨(List.range (s.ring.desc.bytesToMove (count - stored.length))).map
      fun i => s.ring.desc.buffer (s.ring.desc.toq + i), by simp, ?_⟩
    rw [List.length_map, List.length_range]
    exact if_pos hocc
  have hmove := hs.ring.wellFormed.bytesToMove_pos hocc hpos
  have hle : s.ring.desc.bytesToMove (count - stored.length) ≤ s.ring.desc.bufferOccupancy :=
    TcpDesc.bytesToMove_le_occupancy
  have hdesc := (finish_spec s.ring (count - stored.length)).2.1
  rw [hread] at hdesc
  refine ⟨_, step_read_of_not_waits hs hcall hready, ?_⟩
  rw [hread]
  dsimp only
  rw [lreadNext, if_neg (List.ne_nil_of_length_pos (by omega))]
  split_ifs with hmore
  · exact Or.inr ⟨xs, by omega, by omega, rfl, setCaller_self .., hdesc⟩
  · rw [List.length_append] at hmore
    exact Or.inl ⟨⟨_, _, _, _, rfl⟩, by omega⟩

/-- One more call of `buffered_read` with no bytes in the buffer: it gives up, or tries again. -/
theorem step_read_of_empty (hs : s.Inv) (hcall : s.call = .reading start count stored)
    (hready : ¬ s.ring.Waits (count - stored.length)) (hocc : s.ring.desc.bufferOccupancy = 0) :
    ∃ t, s.step .read = some t ∧
      (t.HasReturned ∧ s.ring.desc.errorCode ∉ retriedErrors ∨
        s.ring.desc.errorCode ∈ retriedErrors ∧ t.call = s.call ∧
          t.ring.caller 0 = .reading (count - stored.length) ∧ t.ring.desc = s.ring.desc) := by
  have hcallInv := hs.call
  rw [CallInv, hcall] at hcallInv
  have hdesc := (finish_spec s.ring (count - stored.length)).2.1
  refine ⟨_, step_read_of_not_waits hs hcall hready, ?_⟩
  rcases TcpDesc.bufferedRead_of_empty (count - stored.length) hocc
    fun hempty => hready ⟨hempty.2, Or.inr hempty.1⟩ with ⟨hread, -⟩ | ⟨hread, hclosed⟩
  · rw [hread] at hdesc ⊢
    dsimp only
    rw [lreadNext]
    split_ifs with hretried
    · exact Or.inr ⟨hretried.1, hcall.symm, setCaller_self .., hdesc⟩
    · exact Or.inl ⟨⟨_, _, _, _, rfl⟩, fun hmem => hretried ⟨hmem, hcallInv.1⟩⟩
  · have herror : s.ring.desc.errorCode = 0 := by
      by_contra herror
      rw [TcpDesc.bufferedRead, if_neg (not_not.mpr hocc), if_pos herror] at hread
      exact nomatch hread
    rw [hread, herror]
    exact Or.inl ⟨⟨_, _, _, _, rfl⟩, by decide⟩

theorem ComesBack.of_next {t : SizedReads} (hstep : s.step .read = some t) (ht : t.ComesBack)
    (hless : t.ring.desc.bufferOccupancy < s.ring.desc.bufferOccupancy) : s.ComesBack := by
  obtain ⟨n, hn, u, start, count, stored, response, hrun, hcall⟩ := ht
  refine ⟨n + 1, by omega, u, start, count, stored, response, ?_, hcall⟩
  rw [List.replicate_succ, run_cons_eq_some_iff]
  exact ⟨t, hstep, hrun⟩

theorem ComesBack.of_returned {t : SizedReads} (hstep : s.step .read = some t)
    (ht : t.HasReturned) : s.ComesBack := by
  obtain ⟨start, count, stored, response, hcall⟩ := ht
  refine ⟨1, Nat.le_add_left 1 _, t, start, count, stored, response, ?_, hcall⟩
  rw [List.replicate_succ, run_cons_eq_some_iff]
  exact ⟨t, hstep, rfl⟩

/-- A call that does not wait, and for which all is in the buffer if it would try again, comes
back. -/
theorem comesBack_of_ready (hs : s.Inv) (hstopped : s.Stopped)
    (hcall : s.call = .reading start count stored)
    (hready : ¬ s.ring.Waits (count - stored.length))
    (hretried : s.ring.desc.errorCode ∈ retriedErrors →
      count ≤ stored.length + s.ring.desc.bufferOccupancy) : s.ComesBack := by
  induction hocc : s.ring.desc.bufferOccupancy using Nat.strong_induction_on
    generalizing s stored with
  | _ m ih =>
      by_cases hempty : s.ring.desc.bufferOccupancy = 0
      · obtain ⟨t, hstep, ⟨hreturned, -⟩ | ⟨hmem, -⟩⟩ := step_read_of_empty hs hcall hready hempty
        · exact .of_returned hstep hreturned
        · have hcallInv := hs.call
          rw [CallInv, hcall] at hcallInv
          have hless := hcallInv.1
          have hle := hretried hmem
          omega
      · obtain ⟨t, hstep, ⟨hreturned, -⟩ | ⟨xs, hpos, hle, hcall', hcaller, hdesc⟩⟩ :=
          step_read_of_occupied hs hcall hready hempty
        · exact .of_returned hstep hreturned
        · have hocc' : t.ring.desc.bufferOccupancy =
              s.ring.desc.bufferOccupancy - xs.length := by rw [hdesc]; rfl
          have hstopped' : t.Stopped := by rw [Stopped, hdesc]; exact hstopped
          refine .of_next hstep (ih _ (by omega) (inv_read hs hstep) hstopped' hcall' ?_ ?_ rfl)
            (by omega)
          · refine not_waits hstopped' fun hwaiting => ?_
            rw [hcaller] at hwaiting
            exact nomatch hwaiting
          · intro hmem
            rw [hdesc] at hmem
            have hle' := hretried hmem
            rw [List.length_append]
            omega

/-- A call that is stuck: it waits, or it tries again, and not all is in the buffer. -/
structure Stuck (s : SizedReads) : Prop where
  inv : s.Inv
  stuck : ∃ start count stored, s.call = .reading start count stored ∧
    (s.ring.Waits (count - stored.length) ∨ s.ring.desc.errorCode ∈ retriedErrors ∧
      stored.length + s.ring.desc.bufferOccupancy < count)

theorem Stuck.step (hs : s.Stuck) (h : s.step .read = some t) : t.Stuck := by
  refine ⟨inv_read hs.inv h, ?_⟩
  obtain ⟨start, count, stored, hcall, hstuck⟩ := hs.stuck
  by_cases hwaits : s.ring.Waits (count - stored.length)
  · rcases step_read_of_waits hs.inv hcall hwaits with hnone | hwaiting
    · exact absurd (hnone.symm.trans h).symm (Option.some_ne_none t)
    · obtain rfl := Option.some.inj (hwaiting.symm.trans h)
      exact ⟨start, count, stored, hcall, Or.inl ⟨hwaits.1, Or.inl (setCaller_self ..)⟩⟩
  · obtain ⟨hmem, hless⟩ := hstuck.resolve_left hwaits
    by_cases hempty : s.ring.desc.bufferOccupancy = 0
    · obtain ⟨u, hstep, ⟨-, hnot⟩ | ⟨-, hcall', -, hdesc⟩⟩ :=
        step_read_of_empty hs.inv hcall hwaits hempty
      · exact absurd hmem hnot
      · obtain rfl := Option.some.inj (hstep.symm.trans h)
        exact ⟨start, count, stored, hcall'.trans hcall, Or.inr ⟨hdesc ▸ hmem, hdesc ▸ hless⟩⟩
    · obtain ⟨u, hstep, ⟨-, hle⟩ | ⟨xs, hpos, hle, hcall', -, hdesc⟩⟩ :=
        step_read_of_occupied hs.inv hcall hwaits hempty
      · omega
      · obtain rfl := Option.some.inj (hstep.symm.trans h)
        refine ⟨start, count, stored ++ xs, hcall', Or.inr ⟨hdesc ▸ hmem, ?_⟩⟩
        have hocc : u.ring.desc.bufferOccupancy = s.ring.desc.bufferOccupancy - xs.length := by
          rw [hdesc]
          rfl
        rw [List.length_append]
        omega

theorem Stuck.not_comesBack (hs : s.Stuck) : ¬ s.ComesBack := by
  rintro ⟨n, -, t, start, count, stored, response, hrun, hcall⟩
  have ht : t.Stuck := by
    clear hcall
    induction n generalizing s with
    | zero => exact Option.some.inj hrun ▸ hs
    | succ n ih =>
        rw [List.replicate_succ, run_cons_eq_some_iff] at hrun
        obtain ⟨u, hstep, hrun⟩ := hrun
        exact ih (hs.step hstep) hrun
  obtain ⟨start', count', stored', hcall', -⟩ := ht.stuck
  rw [hcall] at hcall'
  exact nomatch hcall'

theorem good_iff_unstuck (hs : s.Inv) : s.Good ↔ s.Unstuck := by
  constructor
  · intro hgood start count stored hstopped hcall
    have hback := (hgood.comesBack start count stored hstopped hcall).2
    refine ⟨fun hwaiting hnothing => ?_, fun hmem => ?_⟩
    · exact Stuck.not_comesBack
        ⟨hs, start, count, stored, hcall, Or.inl ⟨hnothing, Or.inl hwaiting⟩⟩ hback
    · by_contra hless
      exact Stuck.not_comesBack
        ⟨hs, start, count, stored, hcall, Or.inr ⟨hmem, not_le.mp hless⟩⟩ hback
  · intro hunstuck
    refine ⟨hs.delivers, fun start count stored hstopped hcall => ?_⟩
    obtain ⟨hwaiting, hretried⟩ := hunstuck start count stored hstopped hcall
    exact ⟨fun l hl => step_eq_none hs hstopped hcall hl,
      comesBack_of_ready hs hstopped hcall (not_waits hstopped hwaiting) hretried⟩

end Invariant

theorem inv_init (buffer : ℕ → BitVec 8) (bufferMaxSize : ℕ) : (init buffer bufferMaxSize).Inv :=
  ⟨TcpRing.inv_init buffer bufferMaxSize, rfl⟩

end SizedReads

/-- In a run of the reader and the calls, the calls come back, with what they are to return,
exactly if none of them is stuck. -/
theorem good_run_iff_unstuck (buffer : ℕ → BitVec 8) (bufferMaxSize : ℕ) (ls : List SizedLabel) :
    Throughout SizedReads.step SizedReads.Good (.init buffer bufferMaxSize) ls ↔
      Throughout SizedReads.step SizedReads.Unstuck (.init buffer bufferMaxSize) ls :=
  throughout_iff_of_invariant (fun _ _ _ => SizedReads.inv_step)
    (fun _ => SizedReads.good_iff_unstuck) (SizedReads.inv_init buffer bufferMaxSize)

/-- No call is stuck after a run that has been good throughout. -/
theorem SizedReads.unstuck_of_good {buffer : ℕ → BitVec 8} {bufferMaxSize : ℕ}
    {ls : List SizedLabel} {t : SizedReads}
    (h : Throughout SizedReads.step SizedReads.Good (.init buffer bufferMaxSize) ls)
    (hrun : run SizedReads.step (.init buffer bufferMaxSize) ls = some t) : t.Unstuck := by
  have hinv : Throughout SizedReads.step SizedReads.Inv (.init buffer bufferMaxSize) ls :=
    throughout_of_invariant (fun _ _ _ => SizedReads.inv_step) (SizedReads.inv_init _ _)
  exact (SizedReads.good_iff_unstuck (hinv.last hrun)).mp (h.last hrun)

/-- `EAGAIN` is noted as the error, and a call for the two bytes of a length tries for ever; and a
call that waits for them when the connection is closed waits on. -/
theorem not_good_of_error_and_of_close :
    (¬ Throughout SizedReads.step SizedReads.Good (.init (fun _ => 0) 4096)
      [.reader .check, .reader .request, .reader (.recv (.error 11)), .reader .commit, .call 2]) ∧
    ¬ Throughout SizedReads.step SizedReads.Good (.init (fun _ => 0) 4096)
      [.call 2, .read, .reader .check, .reader .request, .reader (.recv .eof),
        .reader .commit] := by
  constructor
  · intro h
    obtain ⟨-, hretried⟩ := SizedReads.unstuck_of_good h rfl 0 2 [] (Or.inr (by decide)) rfl
    exact absurd (hretried (by decide)) (by decide)
  · intro h
    obtain ⟨hwaiting, -⟩ := SizedReads.unstuck_of_good h rfl 0 2 [] (Or.inl rfl) rfl
    exact hwaiting rfl ⟨rfl, rfl⟩

end BufferedAudio

end ShairportSync
