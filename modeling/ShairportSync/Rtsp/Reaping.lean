import ShairportSync.Rtsp.Sessions

/-!
# Reaping connections

The listener creates the thread of a connection, sets `running`, and tracks the connection in
`conns`. The thread clears `running` as the last thing that it does. `cleanup_threads` joins and
frees what is not running, and `cancel_all_RTSP_threads` cancels, joins and frees what is. Both go
over `conns` with its lock held.

A thread may be over before the listener sets `running`. Then the flag says for ever that it runs,
and `cleanup_threads` passes it by. A thread that is cancelled in `cancel_all_RTSP_threads` takes
the lock with it, and one that waits for the lock while it is joined by the holder keeps the holder
waiting. Then nothing is reaped any more. In all other runs a connection that is over is reaped. In
no run is a connection joined or freed twice, or freed while its thread runs.
-/

namespace ShairportSync

namespace Rtsp

namespace Reaping

open Transition

/-! ## The program -/

inductive ThreadStage where
  | unborn
  /-- It has not come to the end of its clean-up. -/
  | active
  /-- It has cleared `running`. -/
  | cleaned
  | exited
deriving DecidableEq

structure Conn where
  stage : ThreadStage
  running : Bool
  cancelRequested : Bool
  airplayStreamCategory : StreamCategory
  /-- How often `pthread_join` has returned. -/
  joined : ℕ
  /-- How often the record has been freed. -/
  freed : ℕ

/-- A record with zeroes, before its thread is created. -/
def Conn.fresh : Conn := ⟨.unborn, false, false, .unspecifiedStreamCategory, 0, 0⟩

/-- A record whose thread has just been created. -/
def Conn.created : Conn := { Conn.fresh with stage := .active }

inductive Listener where
  | selecting
  /-- In `cleanup_threads`. -/
  | culling
  /-- `pthread_create` has returned. -/
  | created (c : ConnId)
  /-- `running` has been set. -/
  | marked (c : ConnId)
  /-- In its clean-up handler, or gone. -/
  | leaving
deriving DecidableEq

/-- What goes over the connections. -/
inductive Sweeper where
  | cleanupThreads
  | cancelAllRTSPThreads (streamCategory : StreamCategory) (exceptThisOne : ConnId)
deriving DecidableEq

/-- Whether a connection is joined and freed. -/
def Sweeper.picks (sweeper : Sweeper) (c : ConnId) (conn : Conn) : Bool :=
  match sweeper with
  | cleanupThreads => !conn.running
  | cancelAllRTSPThreads streamCategory exceptThisOne =>
      conn.running && decide (c ≠ exceptThisOne) &&
        (decide (streamCategory = .unspecifiedStreamCategory) ||
          decide (streamCategory = conn.airplayStreamCategory))

inductive Phase where
  /-- In the first loop of `cancel_all_RTSP_threads`. -/
  | cancelling
  | looking
  /-- In `pthread_join`. -/
  | joining
  | freeing
deriving DecidableEq

/-- A sweep, with `conns_lock` held. -/
structure Sweep where
  /-- The connection whose thread sweeps, or the listener. -/
  actor : Option ConnId
  sweeper : Sweeper
  phase : Phase
  index : ℕ

structure State where
  conn : ConnId → Conn
  /-- The array `conns`, up to `nconns`. -/
  conns : List (Option ConnId)
  /-- `RTSP_connection_index` -/
  rtspConnectionIndex : ConnId
  listener : Listener
  sweep : Option Sweep
  /-- The threads that are in `cancel_all_RTSP_threads` and do not have the lock yet. -/
  waiting : ConnId → Bool

namespace State

def slot (s : State) (i : ℕ) : Option ConnId := s.conns.getD i none

def setConn (s : State) (c : ConnId) (conn : Conn) : State :=
  { s with conn := Function.update s.conn c conn }

/-- The lock is taken for a sweep: by the listener, by its clean-up handler, or by a thread for all
connections but its own. -/
def lock (s : State) (actor : Option ConnId) (sweeper : Sweeper) : Option State :=
  if s.sweep.isSome then none
  else
    match actor, sweeper with
    | none, .cleanupThreads =>
        if s.listener = .selecting then
          some { s with listener := .culling, sweep := some ⟨none, sweeper, .looking, 0⟩ }
        else none
    | none, .cancelAllRTSPThreads streamCategory exceptThisOne =>
        if s.listener = .leaving ∧ streamCategory = .unspecifiedStreamCategory ∧
            exceptThisOne = 0 then
          some { s with sweep := some ⟨none, sweeper, .cancelling, 0⟩ }
        else none
    | some c, .cancelAllRTSPThreads _ exceptThisOne =>
        if s.waiting c = true ∧ exceptThisOne = c then
          some { s with
            waiting := Function.update s.waiting c false
            sweep := some ⟨some c, sweeper, .cancelling, 0⟩ }
        else none
    | some _, .cleanupThreads => none

/-- What sweeps is not over, and the listener is not gone from `cleanup_threads`. -/
def goesOn (s : State) (w : Sweep) : Bool :=
  match w.actor, w.sweeper with
  | some c, _ => (s.conn c).stage = .active
  | none, .cleanupThreads => s.listener = .culling
  | none, .cancelAllRTSPThreads _ _ => true

def resume (s : State) (w : Sweep) (phase : Phase) (index : ℕ) : State :=
  { s with sweep := some { w with phase := phase, index := index } }

def sweepStep (s : State) (w : Sweep) : Option State :=
  match w.phase with
  | .cancelling =>
      if w.index < s.conns.length then
        match s.slot w.index with
        | some c =>
            if w.sweeper.picks c (s.conn c) then
              some ((s.setConn c { s.conn c with cancelRequested := true }).resume w .cancelling
                (w.index + 1))
            else some (s.resume w .cancelling (w.index + 1))
        | none => some (s.resume w .cancelling (w.index + 1))
      else some (s.resume w .looking 0)
  | .looking =>
      if w.index < s.conns.length then
        match s.slot w.index with
        | some c =>
            if w.sweeper.picks c (s.conn c) then some (s.resume w .joining w.index)
            else some (s.resume w .looking (w.index + 1))
        | none => some (s.resume w .looking (w.index + 1))
      else
        some { s with
          sweep := none
          listener := if s.listener = .culling then .selecting else s.listener }
  | .joining =>
      (s.slot w.index).bind fun c =>
        if (s.conn c).stage = .exited then
          some ((s.setConn c { s.conn c with joined := (s.conn c).joined + 1 }).resume w .freeing
            w.index)
        else none
  | .freeing =>
      (s.slot w.index).map fun c =>
        { (s.setConn c { s.conn c with freed := (s.conn c).freed + 1 }).resume w .looking
            (w.index + 1) with
          conns := s.conns.set w.index none }

end State

inductive Label where
  /-- The listener accepts a connection and creates its thread. -/
  | create
  | setRunning
  /-- `track_thread` -/
  | track
  /-- A conversation thread learns what its stream is. -/
  | setCategory (c : ConnId) (category : StreamCategory)
  /-- A conversation thread comes to `cancel_all_RTSP_threads`. -/
  | ask (c : ConnId)
  /-- A conversation thread comes to the end of its clean-up, whether it is cancelled or not. -/
  | clearRunning (c : ConnId)
  | exit (c : ConnId)
  /-- The listener is cancelled. -/
  | leave
  | lock (actor : Option ConnId) (sweeper : Sweeper)
  /-- The holder of the lock takes its next action. -/
  | sweep

def step (s : State) : Label → Option State
  | .create =>
      if s.listener = .selecting then
        some { s.setConn s.rtspConnectionIndex .created with
          rtspConnectionIndex := s.rtspConnectionIndex + 1
          listener := .created s.rtspConnectionIndex }
      else none
  | .setRunning =>
      match s.listener with
      | .created c =>
          some { s.setConn c { s.conn c with running := true } with listener := .marked c }
      | _ => none
  | .track =>
      match s.listener with
      | .marked c =>
          if s.sweep.isSome then none
          else some { s with conns := trackThread c s.conns, listener := .selecting }
      | _ => none
  | .setCategory c category =>
      if (s.conn c).stage = .active ∧ s.waiting c = false then
        some (s.setConn c { s.conn c with airplayStreamCategory := category })
      else none
  | .ask c =>
      if (s.conn c).stage = .active ∧ s.waiting c = false ∧
          s.sweep.all (fun w => w.actor ≠ some c) = true then
        some { s with waiting := Function.update s.waiting c true }
      else none
  -- to wait for the lock is no cancellation point
  | .clearRunning c =>
      if (s.conn c).stage = .active ∧ s.waiting c = false then
        some (s.setConn c { s.conn c with stage := .cleaned, running := false })
      else none
  | .exit c =>
      if (s.conn c).stage = .cleaned then
        some (s.setConn c { s.conn c with stage := .exited })
      else none
  | .leave => some { s with listener := .leaving }
  | .lock actor sweeper => s.lock actor sweeper
  | .sweep => s.sweep.bind fun w => if s.goesOn w then s.sweepStep w else none

def start : State := ⟨fun _ => .fresh, [], 1, .selecting, none, fun _ => false⟩

/-! ## What is to be so -/

def Conn.Finished (conn : Conn) : Prop := conn.stage = .cleaned ∨ conn.stage = .exited

def State.Tracked (s : State) (c : ConnId) : Prop := ∃ i, s.slot i = some c

/-- A finished connection that is tracked does not run, none is joined or freed twice, or freed
before it is joined and over. -/
structure State.Sound (s : State) : Prop where
  running : ∀ c, (s.conn c).Finished → s.Tracked c → (s.conn c).running = false
  joined : ∀ c, (s.conn c).joined ≤ 1
  freed : ∀ c, (s.conn c).freed ≤ (s.conn c).joined
  exited : ∀ c, 0 < (s.conn c).joined → (s.conn c).stage = .exited

def Conn.Reaped (conn : Conn) : Prop := conn.joined = 1 ∧ conn.freed = 1

/-- A sweep of `cleanup_threads` has not come past a connection. -/
def State.Awaits (s : State) (c : ConnId) : Prop :=
  ∃ w i, s.sweep = some w ∧ w.sweeper = .cleanupThreads ∧ w.index ≤ i ∧ s.slot i = some c

/-- A sweep waits for the end of a thread, or is going to. -/
def State.Joins (s : State) (w : Sweep) (c : ConnId) : Prop :=
  (w.phase = .joining ∧ s.slot w.index = some c) ∨
    (s.Tracked c ∧ w.sweeper.picks c (s.conn c) = true)

/-- The listener sets `running` before the thread has cleared it, nothing ends while it has the
lock, and no thread waits for the lock while the thread that has it is to join it. -/
def InTime (s : State) : Label → Prop
  | .setRunning => ∀ c, s.listener = .created c → (s.conn c).stage = .active
  | .clearRunning c => ∀ w ∈ s.sweep, w.actor ≠ some c
  | .leave => s.listener ≠ .culling
  | .ask c => ∀ w ∈ s.sweep, w.actor ≠ none → ¬s.Joins w c
  | .lock (some _) sweeper =>
      ∀ c, s.waiting c = true → s.Tracked c → ¬sweeper.picks c (s.conn c) = true
  | _ => True

/-- A connection that does not run is in the table until it has been reaped. -/
def State.Keeps (s : State) (c : ConnId) : Prop :=
  (s.conn c).Reaped ∨ (s.Tracked c ∧ (s.conn c).running = false)

/-- `cleanup_threads` can come to have the lock. -/
def State.Cullable (s : State) : Prop :=
  ∃ ls t u, run step s ls = some t ∧ step t (.lock none .cleanupThreads) = some u

/-! ## Invariants -/

/-- A connection at this index has been joined and is about to be freed. -/
def State.freeing (s : State) (i : ℕ) : Bool :=
  s.sweep.any fun w => w.phase = .freeing && w.index = i

/-- The listener has created the thread of a connection and not tracked it. -/
def Listener.pending : Listener → Option ConnId
  | .created c => some c
  | .marked c => some c
  | _ => none

/-- Where a connection is, and what has been done to it there. -/
structure Inv (s : State) : Prop where
  unborn : ∀ c, s.rtspConnectionIndex ≤ c → s.conn c = .fresh
  pending : ∀ c, s.listener.pending = some c →
    c < s.rtspConnectionIndex ∧ ¬s.Tracked c ∧ (s.conn c).joined = 0
  slot_lt : ∀ i c, s.slot i = some c → c < s.rtspConnectionIndex
  slot_inj : ∀ i j c, s.slot i = some c → s.slot j = some c → i = j
  slot_joined : ∀ i c, s.slot i = some c →
    (s.conn c).joined = (if s.freeing i then 1 else 0) ∧ (s.conn c).freed = 0
  joined : ∀ c, (s.conn c).joined ≤ 1
  freed : ∀ c, (s.conn c).freed ≤ (s.conn c).joined
  exited : ∀ c, 0 < (s.conn c).joined → (s.conn c).stage = .exited
  /-- A connection that has been marked runs until it is over. -/
  ended : ∀ c, s.Tracked c ∨ s.listener = .marked c → (s.conn c).running = false →
    (s.conn c).Finished

theorem inv_start : Inv start where
  unborn _ _ := rfl
  pending _ h := nomatch h
  slot_lt _ _ h := nomatch h
  slot_inj _ _ _ h := nomatch h
  slot_joined _ _ h := nomatch h
  joined _ := Nat.zero_le _
  freed _ := Nat.zero_le _
  exited _ h := nomatch h
  ended _ h := h.elim (fun ⟨_, h⟩ => nomatch h) fun h => nomatch h

section Invariants

variable {s t : State} {c : ConnId} {conn : Conn}

theorem conn_setConn (s : State) (c d : ConnId) (conn : Conn) :
    (s.setConn c conn).conn d = if d = c then conn else s.conn d :=
  Function.update_apply _ _ _ _

theorem setConn_of {d : ConnId} (P : Conn → Prop) (hnew : d = c → P conn) (hold : P (s.conn d)) :
    P ((s.setConn c conn).conn d) := by
  rw [conn_setConn]
  split
  · next hd => exact hnew hd
  · exact hold

/-- A change of a connection that does not join or free it. -/
theorem Inv.setConn (h : Inv s) (hborn : c < s.rtspConnectionIndex)
    (hjoined : conn.joined = (s.conn c).joined) (hfreed : conn.freed = (s.conn c).freed)
    (hexited : 0 < (s.conn c).joined → conn.stage = .exited)
    (hover : s.Tracked c ∨ s.listener = .marked c → conn.running = false → conn.Finished) :
    Inv (s.setConn c conn) := by
  have hall : ∀ d, ((s.setConn c conn).conn d).joined = (s.conn d).joined ∧
      ((s.setConn c conn).conn d).freed = (s.conn d).freed := fun d =>
    setConn_of (fun conn => conn.joined = (s.conn d).joined ∧ conn.freed = (s.conn d).freed)
      (fun hd => hd ▸ ⟨hjoined, hfreed⟩) ⟨rfl, rfl⟩
  refine ⟨fun d hd => ?_, fun d hd => ?_, h.slot_lt, h.slot_inj, fun i d hd => ?_, fun d => ?_,
    fun d => ?_, fun d hd => ?_, fun d hd => ?_⟩
  · have hlt : c < d := hborn.trans_le hd
    rw [conn_setConn, if_neg hlt.ne']
    exact h.unborn d hd
  · obtain ⟨hlt, hnot, hzero⟩ := h.pending d hd
    exact ⟨hlt, hnot, (hall d).1.trans hzero⟩
  · rw [(hall d).1, (hall d).2]
    exact h.slot_joined i d hd
  · rw [(hall d).1]
    exact h.joined d
  · rw [(hall d).1, (hall d).2]
    exact h.freed d
  · rw [(hall d).1] at hd
    rw [conn_setConn]
    split
    · next hdc => exact hexited (hdc ▸ hd)
    · exact h.exited d hd
  · rw [conn_setConn]
    split
    · next hdc => exact hover (hdc ▸ hd)
    · exact h.ended d hd

/-- A change of the sweep, or of the listener, that does not come to a connection. -/
theorem Inv.congr (h : Inv s) (hconn : t.conn = s.conn) (hconns : t.conns = s.conns)
    (hindex : t.rtspConnectionIndex = s.rtspConnectionIndex)
    (hpending : ∀ c, t.listener.pending = some c → s.listener.pending = some c)
    (hmarked : ∀ c, t.listener = .marked c →
      s.listener = .marked c ∨ (s.conn c).running = true)
    (hfreeing : ∀ i, t.freeing i = s.freeing i) : Inv t := by
  have hslot : t.slot = s.slot := by
    funext i
    rw [State.slot, hconns, State.slot]
  have htracked : ∀ c, t.Tracked c ↔ s.Tracked c := fun c => by
    rw [State.Tracked, hslot, State.Tracked]
  refine ⟨?_, fun c hc => ?_, ?_, ?_, ?_, ?_, ?_, ?_, fun c hc hrunning => ?_⟩
  · rw [hconn, hindex]
    exact h.unborn
  · rw [hconn, hindex, htracked]
    exact h.pending c (hpending c hc)
  · rw [hslot, hindex]
    exact h.slot_lt
  · rw [hslot]
    exact h.slot_inj
  · rw [hslot, hconn]
    simp only [hfreeing]
    exact h.slot_joined
  · rw [hconn]
    exact h.joined
  · rw [hconn]
    exact h.freed
  · rw [hconn]
    exact h.exited
  · rw [hconn] at hrunning ⊢
    rcases hc with hc | hc
    · exact h.ended c (.inl ((htracked c).mp hc)) hrunning
    · rcases hmarked c hc with hmarked | htrue
      · exact h.ended c (.inr hmarked) hrunning
      · exact absurd (hrunning.symm.trans htrue) Bool.false_ne_true

theorem Inv.born (h : Inv s) (hstage : (s.conn c).stage ≠ .unborn) :
    c < s.rtspConnectionIndex := by
  by_contra hnot
  rw [h.unborn c (not_lt.mp hnot)] at hstage
  exact hstage rfl

theorem trackThread_slot (c : ConnId) (conns : List (Option ConnId)) :
    ∃ k, conns.getD k none = none ∧
      ∀ j, (trackThread c conns).getD j none = if j = k then some c else conns.getD j none := by
  induction conns with
  | nil =>
      refine ⟨0, rfl, fun j => ?_⟩
      cases j <;> rfl
  | cons head conns ih =>
      cases head with
      | none =>
          refine ⟨0, rfl, fun j => ?_⟩
          cases j <;> rfl
      | some d =>
          obtain ⟨k, hk, hslot⟩ := ih
          refine ⟨k + 1, hk, fun j => ?_⟩
          cases j with
          | zero => rfl
          | succ j =>
              simp only [trackThread, List.getD_cons_succ, hslot, Nat.add_right_cancel_iff]

theorem inv_create (h : Inv s) : Inv
    { s.setConn s.rtspConnectionIndex .created with
      rtspConnectionIndex := s.rtspConnectionIndex + 1
      listener := .created s.rtspConnectionIndex } := by
  have hne : ∀ i d, s.slot i = some d → d ≠ s.rtspConnectionIndex :=
    fun i d hd => (h.slot_lt i d hd).ne
  have hconn : ∀ d, (s.setConn s.rtspConnectionIndex .created).conn d =
      if d = s.rtspConnectionIndex then .created else s.conn d :=
    fun d => conn_setConn s s.rtspConnectionIndex d .created
  refine ⟨fun d hd => ?_, fun d hd => ?_, fun i d hd => ?_, h.slot_inj, fun i d hd => ?_,
    fun d => ?_, fun d => ?_, fun d hd => ?_, fun d hd => ?_⟩
  · have hlt : s.rtspConnectionIndex < d := hd
    exact (hconn d).trans ((if_neg hlt.ne').trans (h.unborn d hlt.le))
  · cases hd
    refine ⟨Nat.lt_succ_self _, fun ⟨i, hi⟩ => hne i _ hi rfl, ?_⟩
    exact congrArg Conn.joined ((hconn _).trans (if_pos rfl))
  · exact (h.slot_lt i d hd).trans (Nat.lt_succ_self _)
  · change ((s.setConn s.rtspConnectionIndex .created).conn d).joined =
      (if s.freeing i then 1 else 0) ∧
      ((s.setConn s.rtspConnectionIndex .created).conn d).freed = 0
    rw [hconn, if_neg (hne i d hd)]
    exact h.slot_joined i d hd
  · change ((s.setConn s.rtspConnectionIndex .created).conn d).joined ≤ 1
    rw [hconn]
    split
    · exact Nat.zero_le _
    · exact h.joined d
  · change ((s.setConn s.rtspConnectionIndex .created).conn d).freed ≤
      ((s.setConn s.rtspConnectionIndex .created).conn d).joined
    rw [hconn]
    split
    · exact Nat.zero_le _
    · exact h.freed d
  · change 0 < ((s.setConn s.rtspConnectionIndex .created).conn d).joined at hd
    change ((s.setConn s.rtspConnectionIndex .created).conn d).stage = .exited
    rw [hconn] at hd ⊢
    split at hd
    · exact nomatch hd
    · next hdc =>
      rw [if_neg hdc]
      exact h.exited d hd
  · rcases hd with ⟨i, hi⟩ | hd
    · change ((s.setConn s.rtspConnectionIndex .created).conn d).running = false →
        ((s.setConn s.rtspConnectionIndex .created).conn d).Finished
      rw [hconn, if_neg (hne i d hi)]
      exact h.ended d (.inl ⟨i, hi⟩)
    · cases hd

theorem inv_setRunning (h : Inv s) (hlistener : s.listener = .created c) :
    Inv { s.setConn c { s.conn c with running := true } with listener := .marked c } := by
  obtain ⟨hlt, -, -⟩ := h.pending c (by rw [hlistener]; rfl)
  have hset := @Inv.setConn s c { s.conn c with running := true } h hlt rfl rfl (h.exited c)
    fun _ hrunning => nomatch hrunning
  refine hset.congr rfl rfl rfl (fun d hd => ?_) (fun d hd => ?_) fun _ => rfl
  · change s.listener.pending = some d
    rw [hlistener]
    exact hd
  · cases hd
    right
    rw [conn_setConn, if_pos rfl]

theorem inv_track (h : Inv s) (hlistener : s.listener = .marked c) (hsweep : s.sweep = none) :
    Inv { s with conns := trackThread c s.conns, listener := .selecting } := by
  obtain ⟨hlt, hnot, hjoined⟩ := h.pending c (by rw [hlistener]; rfl)
  obtain ⟨k, hk, hslot⟩ := trackThread_slot c s.conns
  have hfreeing : ∀ i, s.freeing i = false := fun i => by rw [State.freeing, hsweep]; rfl
  have hget : ∀ {i d}, (trackThread c s.conns).getD i none = some d →
      (i = k ∧ d = c) ∨ (i ≠ k ∧ s.slot i = some d) := fun {i d} hd => by
    rw [hslot] at hd
    split at hd
    · next hik => exact .inl ⟨hik, (Option.some.inj hd).symm⟩
    · next hik => exact .inr ⟨hik, hd⟩
  refine ⟨h.unborn, fun d hd => (nomatch hd), fun i d hd => ?_, fun i j d hi hj => ?_,
    fun i d hd => ?_, h.joined, h.freed, h.exited, fun d hd => ?_⟩
  · rcases hget hd with ⟨-, rfl⟩ | ⟨-, hd⟩
    · exact hlt
    · exact h.slot_lt i d hd
  · rcases hget hi with ⟨hik, rfl⟩ | ⟨-, hold⟩
    · rcases hget hj with ⟨hjk, -⟩ | ⟨-, hold⟩
      · exact hik.trans hjk.symm
      · exact absurd ⟨j, hold⟩ hnot
    · rcases hget hj with ⟨-, rfl⟩ | ⟨-, hold'⟩
      · exact absurd ⟨i, hold⟩ hnot
      · exact h.slot_inj i j d hold hold'
  · rcases hget hd with ⟨-, rfl⟩ | ⟨-, hd⟩
    · have hfreed := h.freed d
      change (s.conn d).joined = (if s.freeing i then 1 else 0) ∧ (s.conn d).freed = 0
      rw [hfreeing, if_neg Bool.false_ne_true]
      exact ⟨hjoined, by omega⟩
    · exact h.slot_joined i d hd
  · rcases hd with ⟨i, hd⟩ | hd
    · rcases hget hd with ⟨-, rfl⟩ | ⟨-, hd⟩
      · exact h.ended d (.inr hlistener)
      · exact h.ended d (.inl ⟨i, hd⟩)
    · cases hd

theorem freeing_eq_false {w : Sweep} (hsweep : s.sweep = some w) (hphase : w.phase ≠ .freeing)
    (i : ℕ) : s.freeing i = false := by
  rw [State.freeing, hsweep, Option.any_some, decide_eq_false hphase, Bool.false_and]

/-- A change of a tracked connection that is over, while others may go out of the table. -/
theorem Inv.setOver (h : Inv s) {k : ℕ} (hslot : s.slot k = some c)
    (hother : ∀ d, d ≠ c → t.conn d = s.conn d)
    (hslots : ∀ i d, t.slot i = some d → s.slot i = some d)
    (hlistener : t.listener = s.listener) (hindex : t.rtspConnectionIndex = s.rtspConnectionIndex)
    (hjoined : (t.conn c).joined ≤ 1) (hfreed : (t.conn c).freed ≤ (t.conn c).joined)
    (hexited : (t.conn c).stage = .exited)
    (hcount : ∀ i d, t.slot i = some d →
      (t.conn d).joined = (if t.freeing i then 1 else 0) ∧ (t.conn d).freed = 0) : Inv t := by
  have htracked : ∀ d, t.Tracked d → s.Tracked d := fun d ⟨i, hi⟩ => ⟨i, hslots i d hi⟩
  refine ⟨fun d hd => ?_, fun d hd => ?_, fun i d hd => ?_, fun i j d hi hj => ?_, hcount,
    fun d => ?_, fun d => ?_, fun d hd => ?_, fun d hd => ?_⟩
  · rw [hindex] at hd
    rw [hother d ((h.slot_lt k c hslot).trans_le hd).ne']
    exact h.unborn d hd
  · rw [hlistener] at hd
    obtain ⟨hlt, hnot, hzero⟩ := h.pending d hd
    have hne : d ≠ c := fun hdc => hnot ⟨k, hdc ▸ hslot⟩
    rw [hindex, hother d hne]
    exact ⟨hlt, fun ht => hnot (htracked d ht), hzero⟩
  · rw [hindex]
    exact h.slot_lt i d (hslots i d hd)
  · exact h.slot_inj i j d (hslots i d hi) (hslots j d hj)
  · by_cases hdc : d = c
    · exact hdc ▸ hjoined
    · rw [hother d hdc]
      exact h.joined d
  · by_cases hdc : d = c
    · exact hdc ▸ hfreed
    · rw [hother d hdc]
      exact h.freed d
  · by_cases hdc : d = c
    · exact hdc ▸ hexited
    · rw [hother d hdc] at hd ⊢
      exact h.exited d hd
  · by_cases hdc : d = c
    · exact fun _ => .inr (hdc ▸ hexited)
    · rw [hlistener] at hd
      rw [hother d hdc]
      exact h.ended d (hd.imp_left (htracked d))

theorem Inv.ne_of_slot (h : Inv s) {i k : ℕ} {d : ConnId} (hslot : s.slot k = some c)
    (hi : s.slot i = some d) (hik : k ≠ i) : d ≠ c := fun hdc =>
  hik (h.slot_inj k i c hslot (hdc ▸ hi))

theorem freeing_resume (s : State) (w : Sweep) (i j : ℕ) :
    (s.resume w .freeing i).freeing j = decide (i = j) := by
  rw [State.freeing, State.resume, Option.any_some, decide_eq_true rfl, Bool.true_and]

/-- A connection is joined. -/
theorem inv_join (h : Inv s) {w : Sweep} (hsweep : s.sweep = some w) (hphase : w.phase = .joining)
    (hslot : s.slot w.index = some c) (hexited : (s.conn c).stage = .exited) :
    Inv ((s.setConn c { s.conn c with joined := (s.conn c).joined + 1 }).resume w .freeing
      w.index) := by
  have hfreeing := freeing_eq_false hsweep (hphase.trans_ne (by decide))
  obtain ⟨hjoined, hfreed⟩ := h.slot_joined _ _ hslot
  rw [hfreeing, if_neg Bool.false_ne_true] at hjoined
  have hconn : ∀ d, ((s.setConn c { s.conn c with joined := (s.conn c).joined + 1 }).resume w
      .freeing w.index).conn d =
      if d = c then { s.conn c with joined := 1 } else s.conn d := fun d => by
    rw [hjoined]
    exact conn_setConn s c d _
  have hself := (hconn c).trans (if_pos rfl)
  refine h.setOver hslot (fun d hd => (hconn d).trans (if_neg hd)) (fun i d hd => hd) rfl rfl ?_ ?_
    ?_ fun i d hd => ?_
  · rw [hself]
  · rw [hself]
    exact hfreed.trans_le (Nat.zero_le 1)
  · rw [hself]
    exact hexited
  · rw [freeing_resume]
    by_cases hi : w.index = i
    · obtain rfl : c = d := Option.some.inj (hslot.symm.trans ((congrArg s.slot hi).trans hd))
      rw [hself, decide_eq_true hi, if_pos rfl]
      exact ⟨rfl, hfreed⟩
    · have hold := h.slot_joined i d hd
      rw [hfreeing] at hold
      rw [hconn, if_neg (h.ne_of_slot hslot hd hi), decide_eq_false hi]
      exact hold

theorem getD_set_none (conns : List (Option ConnId)) (i j : ℕ) :
    (conns.set j none).getD i none = if j = i then none else conns.getD i none := by
  rw [List.getD_eq_getElem?_getD, List.getElem?_set, List.getD_eq_getElem?_getD]
  split
  · split <;> rfl
  · rfl

/-- A connection that has been joined is freed. -/
theorem inv_free (h : Inv s) {w : Sweep} (hsweep : s.sweep = some w) (hphase : w.phase = .freeing)
    (hslot : s.slot w.index = some c) :
    Inv { (s.setConn c { s.conn c with freed := (s.conn c).freed + 1 }).resume w .looking
        (w.index + 1) with
      conns := s.conns.set w.index none } := by
  have hfreeing : ∀ i, s.freeing i = decide (w.index = i) := fun i => by
    rw [State.freeing, hsweep, Option.any_some, decide_eq_true hphase, Bool.true_and]
  obtain ⟨hjoined, hfreed⟩ := h.slot_joined _ _ hslot
  rw [hfreeing, decide_eq_true rfl, if_pos rfl] at hjoined
  have hexited := h.exited c (hjoined ▸ Nat.zero_lt_one)
  generalize ht : ({ (s.setConn c { s.conn c with freed := (s.conn c).freed + 1 }).resume w .looking
      (w.index + 1) with conns := s.conns.set w.index none } : State) = t
  have hconn : ∀ d, t.conn d = if d = c then { s.conn c with freed := 1 } else s.conn d :=
    fun d => by
      rw [← ht, hfreed]
      exact conn_setConn s c d _
  have hself := (hconn c).trans (if_pos rfl)
  have hslots : ∀ i d, t.slot i = some d → w.index ≠ i ∧ s.slot i = some d := fun i d hd => by
    rw [← ht, State.slot, getD_set_none] at hd
    split at hd
    · cases hd
    · next hne => exact ⟨hne, hd⟩
  have hnow : t.freeing = fun _ => false := ht ▸ rfl
  refine h.setOver hslot (fun d hd => (hconn d).trans (if_neg hd)) (fun i d hd => (hslots i d hd).2)
    (ht ▸ rfl) (ht ▸ rfl) ?_ ?_ ?_ fun i d hd => ?_
  · rw [hself]
    exact hjoined.le
  · rw [hself]
    exact hjoined.ge
  · rw [hself]
    exact hexited
  · obtain ⟨hne, hi⟩ := hslots i d hd
    have hold := h.slot_joined i d hi
    rw [hfreeing, decide_eq_false hne] at hold
    rw [hconn, if_neg (h.ne_of_slot hslot hi hne), hnow]
    exact hold

/-- What a sweep may do next. -/
inductive SweepStep (s : State) (w : Sweep) : State → Prop where
  | cancel {c : ConnId} (hphase : w.phase = .cancelling) (hslot : s.slot w.index = some c) :
      SweepStep s w ((s.setConn c { s.conn c with cancelRequested := true }).resume w .cancelling
        (w.index + 1))
  | passCancel (hphase : w.phase = .cancelling) (hlength : w.index < s.conns.length) :
      SweepStep s w (s.resume w .cancelling (w.index + 1))
  | cancelled (hphase : w.phase = .cancelling) : SweepStep s w (s.resume w .looking 0)
  | pick {c : ConnId} (hphase : w.phase = .looking) (hslot : s.slot w.index = some c)
      (hpicks : w.sweeper.picks c (s.conn c)) : SweepStep s w (s.resume w .joining w.index)
  | pass (hphase : w.phase = .looking) (hlength : w.index < s.conns.length)
      (hpicks : ∀ c, s.slot w.index = some c → ¬w.sweeper.picks c (s.conn c)) :
      SweepStep s w (s.resume w .looking (w.index + 1))
  | finish (hphase : w.phase = .looking) (hlength : s.conns.length ≤ w.index) :
      SweepStep s w { s with
        sweep := none
        listener := if s.listener = .culling then .selecting else s.listener }
  | join {c : ConnId} (hphase : w.phase = .joining) (hslot : s.slot w.index = some c)
      (hexited : (s.conn c).stage = .exited) :
      SweepStep s w ((s.setConn c { s.conn c with joined := (s.conn c).joined + 1 }).resume w
        .freeing w.index)
  | free {c : ConnId} (hphase : w.phase = .freeing) (hslot : s.slot w.index = some c) :
      SweepStep s w { (s.setConn c { s.conn c with freed := (s.conn c).freed + 1 }).resume w
          .looking (w.index + 1) with
        conns := s.conns.set w.index none }

theorem sweepStep_cases {w : Sweep} (hstep : s.sweepStep w = some t) : SweepStep s w t := by
  rw [State.sweepStep] at hstep
  split at hstep
  · next hphase =>
    split at hstep
    · next hlength =>
      split at hstep
      · next c hslot =>
        split at hstep
        · exact Option.some.inj hstep ▸ .cancel hphase hslot
        · exact Option.some.inj hstep ▸ .passCancel hphase hlength
      · exact Option.some.inj hstep ▸ .passCancel hphase hlength
    · exact Option.some.inj hstep ▸ .cancelled hphase
  · next hphase =>
    split at hstep
    · next hlength =>
      split at hstep
      · next c hslot =>
        split at hstep
        · next hpicks => exact Option.some.inj hstep ▸ .pick hphase hslot hpicks
        · next hpicks =>
          refine Option.some.inj hstep ▸ .pass hphase hlength fun d hd => ?_
          rwa [Option.some.inj (hd.symm.trans hslot)]
      · next hslot =>
        exact Option.some.inj hstep ▸ .pass hphase hlength fun d hd => nomatch hslot.symm.trans hd
    · next hlength => exact Option.some.inj hstep ▸ .finish hphase (not_lt.mp hlength)
  · next hphase =>
    obtain ⟨c, hslot, hstep⟩ := Option.bind_eq_some_iff.mp hstep
    split at hstep
    · next hexited => exact Option.some.inj hstep ▸ .join hphase hslot hexited
    · cases hstep
  · next hphase =>
    obtain ⟨c, hslot, hstep⟩ := Option.map_eq_some_iff.mp hstep
    exact hstep ▸ .free hphase hslot

theorem inv_resume (h : Inv s) {w : Sweep} {phase : Phase} {index : ℕ}
    (hfreeing : ∀ i, s.freeing i = false) (hphase : phase ≠ .freeing) :
    Inv (s.resume w phase index) :=
  h.congr rfl rfl rfl (fun _ hc => hc) (fun _ hc => .inl hc) fun i =>
    (freeing_eq_false rfl hphase i).trans (hfreeing i).symm

theorem inv_sweepStep (h : Inv s) {w : Sweep} (hsweep : s.sweep = some w)
    (hstep : SweepStep s w t) : Inv t := by
  have hfreeing : w.phase ≠ .freeing → ∀ i, s.freeing i = false := freeing_eq_false hsweep
  cases hstep with
  | @cancel c hphase hslot =>
      have hset := @Inv.setConn s c { s.conn c with cancelRequested := true } h
        (h.slot_lt _ _ hslot) rfl rfl (h.exited c) (h.ended c)
      exact inv_resume hset (hfreeing (hphase.trans_ne (by decide))) (by decide)
  | passCancel hphase =>
      exact inv_resume h (hfreeing (hphase.trans_ne (by decide))) (by decide)
  | cancelled hphase =>
      exact inv_resume h (hfreeing (hphase.trans_ne (by decide))) (by decide)
  | pick hphase =>
      exact inv_resume h (hfreeing (hphase.trans_ne (by decide))) (by decide)
  | pass hphase =>
      exact inv_resume h (hfreeing (hphase.trans_ne (by decide))) (by decide)
  | finish hphase =>
      refine h.congr rfl rfl rfl (fun c hc => ?_) (fun c hc => ?_) fun i =>
        (hfreeing (hphase.trans_ne (by decide)) i).symm
      · split at hc
        · cases hc
        · exact hc
      · split at hc
        · cases hc
        · exact .inl hc
  | join hphase hslot hexited => exact inv_join h hsweep hphase hslot hexited
  | free hphase hslot => exact inv_free h hsweep hphase hslot

inductive LockStep (s : State) : Option ConnId → Sweeper → State → Prop where
  | cull (hlistener : s.listener = .selecting) : LockStep s none .cleanupThreads
      { s with listener := .culling, sweep := some ⟨none, .cleanupThreads, .looking, 0⟩ }
  | leave (hlistener : s.listener = .leaving) :
      LockStep s none (.cancelAllRTSPThreads .unspecifiedStreamCategory 0)
        { s with
          sweep :=
            some ⟨none, .cancelAllRTSPThreads .unspecifiedStreamCategory 0, .cancelling, 0⟩ }
  | thread {c : ConnId} {category : StreamCategory} (hwaiting : s.waiting c = true) :
      LockStep s (some c) (.cancelAllRTSPThreads category c)
        { s with
          waiting := Function.update s.waiting c false
          sweep := some ⟨some c, .cancelAllRTSPThreads category c, .cancelling, 0⟩ }

theorem lock_cases {actor : Option ConnId} {sweeper : Sweeper}
    (hlock : s.lock actor sweeper = some t) : s.sweep = none ∧ LockStep s actor sweeper t := by
  unfold State.lock at hlock
  split at hlock
  · cases hlock
  · next hsweep =>
    refine ⟨Option.not_isSome_iff_eq_none.mp hsweep, ?_⟩
    split at hlock
    · split at hlock
      · next hlistener => exact Option.some.inj hlock ▸ .cull hlistener
      · cases hlock
    · split at hlock
      · next hleaving =>
        obtain ⟨hlistener, rfl, rfl⟩ := hleaving
        exact Option.some.inj hlock ▸ .leave hlistener
      · cases hlock
    · split at hlock
      · next hthread =>
        obtain ⟨hwaiting, rfl⟩ := hthread
        exact Option.some.inj hlock ▸ .thread hwaiting
      · cases hlock
    · cases hlock

theorem lockStep_conn {actor : Option ConnId} {sweeper : Sweeper}
    (hstep : LockStep s actor sweeper t) : t.conn = s.conn ∧ t.conns = s.conns := by
  cases hstep <;> exact ⟨rfl, rfl⟩

theorem inv_lock (h : Inv s) {actor : Option ConnId} {sweeper : Sweeper}
    (hlock : s.lock actor sweeper = some t) : Inv t := by
  obtain ⟨hsweep, hstep⟩ := lock_cases hlock
  have hfreeing : ∀ i, s.freeing i = false := fun i => by
    rw [State.freeing, hsweep, Option.any_none]
  cases hstep with
  | cull =>
      exact h.congr rfl rfl rfl (fun _ hc => nomatch hc) (fun _ hc => nomatch hc) fun i =>
        (freeing_eq_false rfl (by decide) i).trans (hfreeing i).symm
  | leave =>
      exact h.congr rfl rfl rfl (fun _ hc => hc) (fun _ hc => .inl hc) fun i =>
        (freeing_eq_false rfl (by decide) i).trans (hfreeing i).symm
  | thread =>
      have hcancelling : Phase.cancelling ≠ .freeing := by decide
      exact h.congr rfl rfl rfl (fun _ hc => hc) (fun _ hc => .inl hc) fun i =>
        (freeing_eq_false rfl hcancelling i).trans (hfreeing i).symm

theorem step_create (hstep : step s .create = some t) :
    t = { s.setConn s.rtspConnectionIndex .created with
      rtspConnectionIndex := s.rtspConnectionIndex + 1
      listener := .created s.rtspConnectionIndex } := by
  rw [step] at hstep
  split at hstep
  · exact (Option.some.inj hstep).symm
  · cases hstep

theorem step_setRunning (hstep : step s .setRunning = some t) : ∃ c, s.listener = .created c ∧
    t = { s.setConn c { s.conn c with running := true } with listener := .marked c } := by
  rw [step] at hstep
  split at hstep
  · next c hlistener => exact ⟨c, hlistener, (Option.some.inj hstep).symm⟩
  · cases hstep

theorem step_track (hstep : step s .track = some t) : ∃ c, s.listener = .marked c ∧
    s.sweep = none ∧ t = { s with conns := trackThread c s.conns, listener := .selecting } := by
  rw [step] at hstep
  split at hstep
  · next c hlistener =>
    split at hstep
    · cases hstep
    · next hsweep =>
      exact ⟨c, hlistener, Option.not_isSome_iff_eq_none.mp hsweep, (Option.some.inj hstep).symm⟩
  · cases hstep

theorem step_setCategory {category : StreamCategory}
    (hstep : step s (.setCategory c category) = some t) :
    (s.conn c).stage = .active ∧ s.waiting c = false ∧
      t = s.setConn c { s.conn c with airplayStreamCategory := category } := by
  rw [step] at hstep
  split at hstep
  · next hactive => exact ⟨hactive.1, hactive.2, (Option.some.inj hstep).symm⟩
  · cases hstep

theorem step_ask (hstep : step s (.ask c) = some t) :
    (s.conn c).stage = .active ∧ (∀ w, s.sweep = some w → w.actor ≠ some c) ∧
      t = { s with waiting := Function.update s.waiting c true } := by
  rw [step] at hstep
  split at hstep
  · next hasks =>
    obtain ⟨hactive, -, hother⟩ := hasks
    refine ⟨hactive, fun w hw => ?_, (Option.some.inj hstep).symm⟩
    rw [hw, Option.all_some] at hother
    exact of_decide_eq_true hother
  · cases hstep

theorem step_clearRunning (hstep : step s (.clearRunning c) = some t) :
    (s.conn c).stage = .active ∧ s.waiting c = false ∧
      t = s.setConn c { s.conn c with stage := .cleaned, running := false } := by
  rw [step] at hstep
  split at hstep
  · next hactive => exact ⟨hactive.1, hactive.2, (Option.some.inj hstep).symm⟩
  · cases hstep

theorem step_exit (hstep : step s (.exit c) = some t) :
    (s.conn c).stage = .cleaned ∧ t = s.setConn c { s.conn c with stage := .exited } := by
  rw [step] at hstep
  split at hstep
  · next hcleaned => exact ⟨hcleaned, (Option.some.inj hstep).symm⟩
  · cases hstep

theorem step_leave (hstep : step s .leave = some t) : t = { s with listener := .leaving } :=
  (Option.some.inj hstep).symm

theorem step_sweep (hstep : step s .sweep = some t) :
    ∃ w, s.sweep = some w ∧ SweepStep s w t := by
  obtain ⟨w, hsweep, hstep⟩ := Option.bind_eq_some_iff.mp hstep
  split at hstep
  · exact ⟨w, hsweep, sweepStep_cases hstep⟩
  · cases hstep

theorem Inv.joined_eq_zero (h : Inv s) (hstage : (s.conn c).stage ≠ .exited) :
    (s.conn c).joined = 0 :=
  Nat.eq_zero_of_not_pos fun hpos => hstage (h.exited c hpos)

theorem inv_step (h : Inv s) {l : Label} (hstep : step s l = some t) : Inv t := by
  cases l with
  | create =>
      obtain rfl := step_create hstep
      exact inv_create h
  | setRunning =>
      obtain ⟨c, hlistener, rfl⟩ := step_setRunning hstep
      exact inv_setRunning h hlistener
  | track =>
      obtain ⟨c, hlistener, hsweep, rfl⟩ := step_track hstep
      exact inv_track h hlistener hsweep
  | setCategory c category =>
      obtain ⟨hactive, -, rfl⟩ := step_setCategory hstep
      exact h.setConn (h.born (hactive.trans_ne (by decide))) rfl rfl (h.exited c) (h.ended c)
  | ask c =>
      obtain ⟨-, -, rfl⟩ := step_ask hstep
      exact h.congr rfl rfl rfl (fun _ hc => hc) (fun _ hc => .inl hc) fun _ => rfl
  | leave =>
      obtain rfl := step_leave hstep
      exact h.congr rfl rfl rfl (fun _ hc => nomatch hc) (fun _ hc => nomatch hc) fun _ => rfl
  | clearRunning c =>
      obtain ⟨hactive, -, rfl⟩ := step_clearRunning hstep
      have hzero := h.joined_eq_zero (hactive.trans_ne (by decide))
      exact h.setConn (h.born (hactive.trans_ne (by decide))) rfl rfl
        (fun hpos => absurd hzero hpos.ne') fun _ _ => .inl rfl
  | exit c =>
      obtain ⟨hcleaned, rfl⟩ := step_exit hstep
      exact h.setConn (h.born (hcleaned.trans_ne (by decide))) rfl rfl (fun _ => rfl)
        fun _ _ => .inr rfl
  | lock actor sweeper => exact inv_lock h hstep
  | sweep =>
      obtain ⟨w, hsweep, hstep⟩ := step_sweep hstep
      exact inv_sweepStep h hsweep hstep

/-! ## The flag -/

theorem setConn_keeps (hstage : conn.stage = (s.conn c).stage)
    (hrunning : conn.running = (s.conn c).running) (d : ConnId) :
    ((s.setConn c conn).conn d).stage = (s.conn d).stage ∧
      ((s.setConn c conn).conn d).running = (s.conn d).running :=
  setConn_of (fun conn => conn.stage = (s.conn d).stage ∧ conn.running = (s.conn d).running)
    (fun hd => hd ▸ ⟨hstage, hrunning⟩) ⟨rfl, rfl⟩

theorem sweepStep_keeps {w : Sweep} (hstep : SweepStep s w t) (d : ConnId) :
    (t.conn d).stage = (s.conn d).stage ∧ (t.conn d).running = (s.conn d).running := by
  cases hstep with
  | cancel => refine setConn_keeps ?_ ?_ d <;> rfl
  | join => refine setConn_keeps ?_ ?_ d <;> rfl
  | free => refine setConn_keeps ?_ ?_ d <;> rfl
  | _ => exact ⟨rfl, rfl⟩

/-- No connection that is over is marked as running. -/
def State.Cleared (s : State) : Prop := ∀ c, (s.conn c).Finished → (s.conn c).running = false

theorem cleared_step (h : s.Cleared) {l : Label} (hintime : InTime s l)
    (hstep : step s l = some t) : t.Cleared := by
  have hset : ∀ {c : ConnId} {conn : Conn}, (conn.Finished → conn.running = false) →
      (s.setConn c conn).Cleared := fun hconn d =>
    setConn_of (fun conn => conn.Finished → conn.running = false) (fun _ => hconn) (h d)
  have hactive : ∀ {conn : Conn}, conn.stage = .active → ¬conn.Finished := fun hactive hover =>
    hover.elim (fun hcleaned => nomatch hactive.symm.trans hcleaned)
      fun hexited => nomatch hactive.symm.trans hexited
  cases l with
  | create =>
      obtain rfl := step_create hstep
      exact hset fun hover => absurd hover (hactive rfl)
  | setRunning =>
      obtain ⟨c, hlistener, rfl⟩ := step_setRunning hstep
      exact hset fun hover => absurd hover (hactive (hintime c hlistener))
  | track =>
      obtain ⟨c, -, -, rfl⟩ := step_track hstep
      exact h
  | setCategory c category =>
      obtain ⟨-, -, rfl⟩ := step_setCategory hstep
      exact hset (h c)
  | ask c =>
      obtain ⟨-, -, rfl⟩ := step_ask hstep
      exact h
  | leave =>
      obtain rfl := step_leave hstep
      exact h
  | clearRunning c =>
      obtain ⟨-, -, rfl⟩ := step_clearRunning hstep
      exact hset fun _ => rfl
  | exit c =>
      obtain ⟨hcleaned, rfl⟩ := step_exit hstep
      exact hset fun _ => h c (.inl hcleaned)
  | lock actor sweeper =>
      obtain ⟨-, hlock⟩ := lock_cases hstep
      rw [State.Cleared, (lockStep_conn hlock).1]
      exact h
  | sweep =>
      obtain ⟨w, -, hstep⟩ := step_sweep hstep
      intro d hover
      obtain ⟨hstage, hrunning⟩ := sweepStep_keeps hstep d
      rw [Conn.Finished, hstage] at hover
      rw [hrunning]
      exact h d hover

theorem stale_step (h : Inv s) {l : Label} (hstep : step s l = some t)
    (hover : (s.conn c).Finished) (hrunning : (s.conn c).running = true) :
    (t.conn c).Finished ∧ (t.conn c).running = true := by
  have hborn : c ≠ s.rtspConnectionIndex := fun hc => by
    rw [h.unborn c hc.ge] at hrunning
    cases hrunning
  have hset : ∀ {d : ConnId} {conn : Conn}, (d = c → conn.Finished ∧ conn.running = true) →
      ((s.setConn d conn).conn c).Finished ∧ ((s.setConn d conn).conn c).running = true :=
    fun hconn => setConn_of (fun conn => conn.Finished ∧ conn.running = true)
      (fun hc => hconn hc.symm) ⟨hover, hrunning⟩
  cases l with
  | create =>
      obtain rfl := step_create hstep
      exact hset fun hc => absurd hc.symm hborn
  | setRunning =>
      obtain ⟨d, -, rfl⟩ := step_setRunning hstep
      exact hset fun hd => ⟨hd ▸ hover, rfl⟩
  | track =>
      obtain ⟨d, -, -, rfl⟩ := step_track hstep
      exact ⟨hover, hrunning⟩
  | setCategory d category =>
      obtain ⟨-, -, rfl⟩ := step_setCategory hstep
      exact hset fun hd => ⟨hd ▸ hover, hd ▸ hrunning⟩
  | ask d =>
      obtain ⟨-, -, rfl⟩ := step_ask hstep
      exact ⟨hover, hrunning⟩
  | leave =>
      obtain rfl := step_leave hstep
      exact ⟨hover, hrunning⟩
  | clearRunning d =>
      obtain ⟨hactive, -, rfl⟩ := step_clearRunning hstep
      refine hset fun hd => ?_
      rw [← hd] at hover
      rcases hover with hcleaned | hexited
      · exact nomatch hactive.symm.trans hcleaned
      · exact nomatch hactive.symm.trans hexited
  | exit d =>
      obtain ⟨-, rfl⟩ := step_exit hstep
      exact hset fun hd => ⟨.inr rfl, hd ▸ hrunning⟩
  | lock actor sweeper =>
      obtain ⟨-, hlock⟩ := lock_cases hstep
      rw [(lockStep_conn hlock).1]
      exact ⟨hover, hrunning⟩
  | sweep =>
      obtain ⟨w, -, hstep⟩ := step_sweep hstep
      obtain ⟨hstage, hsame⟩ := sweepStep_keeps hstep c
      rw [Conn.Finished, hstage, hsame]
      exact ⟨hover, hrunning⟩

/-! ## A sweep of `cleanup_threads` -/

/-- A sweep of `cleanup_threads` that is going on. -/
structure State.Culls (s : State) (w : Sweep) : Prop where
  sweep : s.sweep = some w
  listener : s.listener = .culling
  sweeper : w.sweeper = .cleanupThreads
  actor : w.actor = none
  phase : w.phase ≠ .cancelling
  found : w.phase ≠ .looking → ∃ d, s.slot w.index = some d ∧ (s.conn d).running = false

/-- How far a sweep has to go. -/
def State.left (s : State) (w : Sweep) : ℕ :=
  match w.phase with
  | .cancelling => 3 * s.conns.length + 3 + (s.conns.length - w.index)
  | .looking => 3 * (s.conns.length - w.index) + 2
  | .joining => 3 * (s.conns.length - w.index) + 1
  | .freeing => 3 * (s.conns.length - w.index)

theorem slot_lt_length {i : ℕ} (hslot : s.slot i = some c) : i < s.conns.length := by
  by_contra hlength
  rw [State.slot, List.getD_eq_getElem?_getD, List.getElem?_eq_none (not_lt.mp hlength)] at hslot
  cases hslot

theorem picks_cleanupThreads {w : Sweep} (hculls : s.Culls w) :
    w.sweeper.picks c (s.conn c) ↔ (s.conn c).running = false := by
  rw [hculls.sweeper, Sweeper.picks, Bool.not_eq_true']

theorem sweepStep_left {w : Sweep} (hstep : SweepStep s w t) :
    ∀ w', t.sweep = some w' → t.left w' < s.left w := by
  cases hstep with
  | cancel hphase hslot =>
      rintro w' ⟨⟩
      have hlength := slot_lt_length hslot
      rw [State.left, State.left, hphase]
      change 3 * s.conns.length + 3 + (s.conns.length - (w.index + 1)) <
        3 * s.conns.length + 3 + (s.conns.length - w.index)
      omega
  | passCancel hphase hlength =>
      rintro w' ⟨⟩
      rw [State.left, State.left, hphase]
      change 3 * s.conns.length + 3 + (s.conns.length - (w.index + 1)) <
        3 * s.conns.length + 3 + (s.conns.length - w.index)
      omega
  | cancelled hphase =>
      rintro w' ⟨⟩
      rw [State.left, State.left, hphase]
      change 3 * (s.conns.length - 0) + 2 < 3 * s.conns.length + 3 + (s.conns.length - w.index)
      omega
  | pick hphase =>
      rintro w' ⟨⟩
      rw [State.left, State.left, hphase]
      exact Nat.lt_succ_self _
  | pass hphase hlength =>
      rintro w' ⟨⟩
      rw [State.left, State.left, hphase]
      change 3 * (s.conns.length - (w.index + 1)) + 2 < 3 * (s.conns.length - w.index) + 2
      omega
  | finish =>
      intro w' hw'
      cases hw'
  | join hphase =>
      rintro w' ⟨⟩
      rw [State.left, State.left, hphase]
      exact Nat.lt_succ_self _
  | free hphase hslot =>
      rintro w' ⟨⟩
      have hlength := slot_lt_length hslot
      rw [State.left, State.left, hphase]
      change 3 * ((s.conns.set w.index none).length - (w.index + 1)) + 2 <
        3 * (s.conns.length - w.index)
      rw [List.length_set]
      omega

theorem culls_sweepStep {w : Sweep} (hculls : s.Culls w) (hstep : SweepStep s w t) :
    ∀ w', t.sweep = some w' → t.Culls w' := by
  have hrunning := fun d => (sweepStep_keeps hstep d).2
  cases hstep with
  | cancel hphase => exact absurd hphase hculls.phase
  | passCancel hphase => exact absurd hphase hculls.phase
  | cancelled hphase => exact absurd hphase hculls.phase
  | pick hphase hslot hpicks =>
      rintro w' ⟨⟩
      exact ⟨rfl, hculls.listener, hculls.sweeper, hculls.actor, nofun, fun _ =>
        ⟨_, hslot, (picks_cleanupThreads hculls).mp hpicks⟩⟩
  | pass hphase hlength =>
      rintro w' ⟨⟩
      exact ⟨rfl, hculls.listener, hculls.sweeper, hculls.actor, nofun, fun hne => absurd rfl hne⟩
  | finish hphase =>
      intro w' hw'
      cases hw'
  | join hphase hslot =>
      rintro w' ⟨⟩
      obtain ⟨d, hd, hfalse⟩ := hculls.found (hphase.trans_ne (by decide))
      exact ⟨rfl, hculls.listener, hculls.sweeper, hculls.actor, nofun, fun _ =>
        ⟨d, hd, (hrunning d).trans hfalse⟩⟩
  | free hphase hslot =>
      rintro w' ⟨⟩
      exact ⟨rfl, hculls.listener, hculls.sweeper, hculls.actor, nofun, fun hne => absurd rfl hne⟩

theorem reaped_free (h : Inv s) {w : Sweep} (hsweep : s.sweep = some w)
    (hphase : w.phase = .freeing) (hslot : s.slot w.index = some c) :
    ((s.setConn c { s.conn c with freed := (s.conn c).freed + 1 }).conn c).Reaped := by
  obtain ⟨hjoined, hfreed⟩ := h.slot_joined _ _ hslot
  have hfreeing : s.freeing w.index = true := by
    rw [State.freeing, hsweep, Option.any_some, decide_eq_true hphase, decide_eq_true rfl,
      Bool.true_and]
  rw [hfreeing, if_pos rfl] at hjoined
  rw [conn_setConn, if_pos rfl, hfreed]
  exact ⟨hjoined, rfl⟩

theorem keeps_sweepStep (h : Inv s) {w : Sweep} (hsweep : s.sweep = some w)
    (hstep : SweepStep s w t) {i : ℕ} (hslot : s.slot i = some c) :
    (t.conn c).Reaped ∨ t.slot i = some c := by
  cases hstep with
  | @free d hphase hd =>
      by_cases hi : w.index = i
      · obtain rfl : d = c := Option.some.inj (hd.symm.trans ((congrArg s.slot hi).trans hslot))
        exact .inl (reaped_free h hsweep hphase hd)
      · right
        change (s.conns.set w.index none).getD i none = some c
        rw [getD_set_none, if_neg hi]
        exact hslot
  | _ => exact .inr hslot

/-- A sweep comes past a connection that does not run only by freeing it. -/
theorem awaits_sweepStep (h : Inv s) {w : Sweep} (hculls : s.Culls w) (hstep : SweepStep s w t)
    {i : ℕ} (hle : w.index ≤ i) (hslot : s.slot i = some c)
    (hrunning : (s.conn c).running = false) :
    (t.conn c).Reaped ∨ ∃ w', t.sweep = some w' ∧ w'.index ≤ i ∧ t.slot i = some c := by
  have hkept := keeps_sweepStep h hculls.sweep hstep hslot
  cases hstep with
  | cancel hphase => exact absurd hphase hculls.phase
  | passCancel hphase => exact absurd hphase hculls.phase
  | cancelled hphase => exact absurd hphase hculls.phase
  | pick hphase => exact .inr ⟨_, rfl, hle, hslot⟩
  | pass hphase hlength hpicks =>
      have hne : w.index ≠ i := fun hi =>
        hpicks c (hi ▸ hslot) ((picks_cleanupThreads hculls).mpr hrunning)
      exact .inr ⟨_, rfl, hle.lt_of_ne hne, hslot⟩
  | finish hphase hlength => exact absurd (slot_lt_length hslot) (hlength.trans hle).not_gt
  | join hphase => exact .inr ⟨_, rfl, hle, hslot⟩
  | @free d hphase hd =>
      refine hkept.imp_right fun hi => ⟨_, rfl, hle.lt_of_ne fun hindex => ?_, hi⟩
      change (s.conns.set w.index none).getD i none = some c at hi
      rw [getD_set_none, if_pos hindex] at hi
      cases hi

theorem quiet_step {w : Sweep} (hsweep : s.sweep = some w) {l : Label} (hl : l ≠ .sweep)
    (hstep : step s l = some t) : t.sweep = some w ∧ t.conns = s.conns := by
  cases l with
  | create =>
      obtain rfl := step_create hstep
      exact ⟨hsweep, rfl⟩
  | setRunning =>
      obtain ⟨c, -, rfl⟩ := step_setRunning hstep
      exact ⟨hsweep, rfl⟩
  | track =>
      obtain ⟨c, -, hnone, -⟩ := step_track hstep
      exact nomatch hnone.symm.trans hsweep
  | setCategory c category =>
      obtain ⟨-, -, rfl⟩ := step_setCategory hstep
      exact ⟨hsweep, rfl⟩
  | ask c =>
      obtain ⟨-, -, rfl⟩ := step_ask hstep
      exact ⟨hsweep, rfl⟩
  | clearRunning c =>
      obtain ⟨-, -, rfl⟩ := step_clearRunning hstep
      exact ⟨hsweep, rfl⟩
  | exit c =>
      obtain ⟨-, rfl⟩ := step_exit hstep
      exact ⟨hsweep, rfl⟩
  | leave =>
      obtain rfl := step_leave hstep
      exact ⟨hsweep, rfl⟩
  | lock actor sweeper =>
      obtain ⟨hnone, -⟩ := lock_cases hstep
      exact nomatch hnone.symm.trans hsweep
  | sweep => exact absurd rfl hl

theorem tracked_step (h : Inv s) {l : Label} (hl : l ≠ .sweep) (hstep : step s l = some t) {i : ℕ}
    (hslot : s.slot i = some c) (hrunning : (s.conn c).running = false) :
    t.slot i = some c ∧ (t.conn c).running = false := by
  have hset : ∀ {d : ConnId} {conn : Conn}, (d = c → conn.running = false) →
      ((s.setConn d conn).conn c).running = false := fun hconn =>
    setConn_of (fun conn => conn.running = false) (fun hc => hconn hc.symm) hrunning
  cases l with
  | create =>
      obtain rfl := step_create hstep
      exact ⟨hslot, hset fun _ => rfl⟩
  | setRunning =>
      obtain ⟨d, hlistener, rfl⟩ := step_setRunning hstep
      obtain ⟨-, hnot, -⟩ := h.pending d (hlistener ▸ rfl)
      exact ⟨hslot, hset fun hd => absurd ⟨i, hd ▸ hslot⟩ hnot⟩
  | track =>
      obtain ⟨d, -, -, rfl⟩ := step_track hstep
      obtain ⟨k, hk, hslots⟩ := trackThread_slot d s.conns
      have hik : i ≠ k := fun hik => by
        rw [State.slot, hik, hk] at hslot
        cases hslot
      refine ⟨?_, hrunning⟩
      change (trackThread d s.conns).getD i none = some c
      rw [hslots, if_neg hik]
      exact hslot
  | setCategory d category =>
      obtain ⟨-, -, rfl⟩ := step_setCategory hstep
      exact ⟨hslot, hset fun hd => hd ▸ hrunning⟩
  | ask d =>
      obtain ⟨-, -, rfl⟩ := step_ask hstep
      exact ⟨hslot, hrunning⟩
  | clearRunning d =>
      obtain ⟨-, -, rfl⟩ := step_clearRunning hstep
      exact ⟨hslot, hset fun _ => rfl⟩
  | exit d =>
      obtain ⟨-, rfl⟩ := step_exit hstep
      exact ⟨hslot, hset fun hd => hd ▸ hrunning⟩
  | leave =>
      obtain rfl := step_leave hstep
      exact ⟨hslot, hrunning⟩
  | lock actor sweeper =>
      obtain ⟨-, hlock⟩ := lock_cases hstep
      rw [State.slot, (lockStep_conn hlock).1, (lockStep_conn hlock).2]
      exact ⟨hslot, hrunning⟩
  | sweep => exact absurd rfl hl

theorem culling_step {w : Sweep} (hculls : s.Culls w) {l : Label} (hl : l ≠ .sweep)
    (hintime : InTime s l) (hstep : step s l = some t) : t.listener = .culling := by
  have hlistener := hculls.listener
  cases l with
  | create =>
      rw [step, hlistener] at hstep
      cases hstep
  | setRunning =>
      obtain ⟨c, hcreated, -⟩ := step_setRunning hstep
      exact nomatch hlistener.symm.trans hcreated
  | track =>
      obtain ⟨c, hmarked, -⟩ := step_track hstep
      exact nomatch hlistener.symm.trans hmarked
  | setCategory c category =>
      obtain ⟨-, -, rfl⟩ := step_setCategory hstep
      exact hlistener
  | ask c =>
      obtain ⟨-, -, rfl⟩ := step_ask hstep
      exact hlistener
  | leave => exact absurd hlistener hintime
  | clearRunning c =>
      obtain ⟨-, -, rfl⟩ := step_clearRunning hstep
      exact hlistener
  | exit c =>
      obtain ⟨-, rfl⟩ := step_exit hstep
      exact hlistener
  | lock actor sweeper =>
      obtain ⟨hnone, -⟩ := lock_cases hstep
      exact nomatch hnone.symm.trans hculls.sweep
  | sweep => exact absurd rfl hl

theorem culls_quiet (h : Inv s) {w : Sweep} (hculls : s.Culls w) {l : Label} (hl : l ≠ .sweep)
    (hintime : InTime s l) (hstep : step s l = some t) : t.Culls w := by
  obtain ⟨hsweep, hconns⟩ := quiet_step hculls.sweep hl hstep
  refine ⟨hsweep, culling_step hculls hl hintime hstep, hculls.sweeper, hculls.actor, hculls.phase,
    fun hphase => ?_⟩
  obtain ⟨d, hd, hfalse⟩ := hculls.found hphase
  refine ⟨d, ?_, (tracked_step h hl hstep hd hfalse).2⟩
  rw [State.slot, hconns]
  exact hd

theorem freed_mono (h : Inv s) {l : Label} (hstep : step s l = some t) (c : ConnId) :
    (s.conn c).freed ≤ (t.conn c).freed := by
  have hset : ∀ {d : ConnId} {conn : Conn}, (s.conn d).freed ≤ conn.freed →
      (s.conn c).freed ≤ ((s.setConn d conn).conn c).freed := fun hconn =>
    setConn_of (fun conn => (s.conn c).freed ≤ conn.freed) (fun hc => hc ▸ hconn) le_rfl
  cases l with
  | create =>
      obtain rfl := step_create hstep
      exact hset (by rw [h.unborn _ le_rfl]; exact le_rfl)
  | setRunning =>
      obtain ⟨d, -, rfl⟩ := step_setRunning hstep
      exact hset (by exact le_rfl)
  | track =>
      obtain ⟨d, -, -, rfl⟩ := step_track hstep
      exact le_rfl
  | setCategory d category =>
      obtain ⟨-, -, rfl⟩ := step_setCategory hstep
      exact hset (by exact le_rfl)
  | ask d =>
      obtain ⟨-, -, rfl⟩ := step_ask hstep
      exact le_rfl
  | leave =>
      obtain rfl := step_leave hstep
      exact le_rfl
  | clearRunning d =>
      obtain ⟨-, -, rfl⟩ := step_clearRunning hstep
      exact hset (by exact le_rfl)
  | exit d =>
      obtain ⟨-, rfl⟩ := step_exit hstep
      exact hset (by exact le_rfl)
  | lock actor sweeper =>
      obtain ⟨-, hlock⟩ := lock_cases hstep
      rw [(lockStep_conn hlock).1]
  | sweep =>
      obtain ⟨w, -, hstep⟩ := step_sweep hstep
      cases hstep with
      | cancel => exact hset (by exact le_rfl)
      | join => exact hset (by exact le_rfl)
      | free => exact hset (by exact Nat.le_succ _)
      | _ => exact le_rfl

theorem reaped_step (h : Inv s) {l : Label} (hstep : step s l = some t)
    (hreaped : (s.conn c).Reaped) : (t.conn c).Reaped := by
  have ht := inv_step h hstep
  have hmono := freed_mono h hstep c
  rw [hreaped.2] at hmono
  have hfreed := ht.freed c
  have hjoined := ht.joined c
  exact ⟨by omega, by omega⟩

/-- A connection has been reaped, or a sweep that has not come past it is going to reap it. -/
def State.Reaps (s : State) (c : ConnId) : Prop :=
  (s.conn c).Reaped ∨
    ∃ w i, s.Culls w ∧ w.index ≤ i ∧ s.slot i = some c ∧ (s.conn c).running = false

theorem reaps_step (h : Inv s) {l : Label} (hreaps : s.Reaps c) (hintime : InTime s l)
    (hstep : step s l = some t) : t.Reaps c := by
  rcases hreaps with hreaped | ⟨w, i, hculls, hle, hslot, hrunning⟩
  · exact .inl (reaped_step h hstep hreaped)
  · by_cases hl : l = .sweep
    · rw [hl] at hstep
      obtain ⟨w₀, hsweep, hstep⟩ := step_sweep hstep
      obtain rfl : w = w₀ := Option.some.inj (hculls.sweep.symm.trans hsweep)
      rcases awaits_sweepStep h hculls hstep hle hslot hrunning with hreaped | ⟨w', hw', hle', hi⟩
      · exact .inl hreaped
      · have hfalse := (sweepStep_keeps hstep c).2.trans hrunning
        exact .inr ⟨w', i, culls_sweepStep hculls hstep w' hw', hle', hi, hfalse⟩
    · obtain ⟨hi, hfalse⟩ := tracked_step h hl hstep hslot hrunning
      exact .inr ⟨w, i, culls_quiet h hculls hl hintime hstep, hle, hi, hfalse⟩

end Invariants

theorem run_inv {ls : List Label} {s : State} (hrun : run step start ls = some s) : Inv s :=
  (throughout_of_invariant (fun _ _ _ hs hstep => inv_step hs hstep) inv_start).last hrun

/-- A flag that is set too late is never cleared. -/
theorem run_stale {ls ms : List Label} {s t : State} {c : ConnId}
    (hrun : run step start ls = some s) (hover : (s.conn c).Finished)
    (hrunning : (s.conn c).running = true) (hrun' : run step s ms = some t) :
    (t.conn c).Finished ∧ (t.conn c).running = true := by
  have hstep : ∀ s l t, (Inv s ∧ (s.conn c).Finished ∧ (s.conn c).running = true) →
      step s l = some t → Inv t ∧ (t.conn c).Finished ∧ (t.conn c).running = true :=
    fun s l t hs hstep => ⟨inv_step hs.1 hstep, stale_step hs.1 hstep hs.2.1 hs.2.2⟩
  exact ((throughout_of_invariant hstep ⟨run_inv hrun, hover, hrunning⟩).last hrun').2

end Reaping

end Rtsp

end ShairportSync
