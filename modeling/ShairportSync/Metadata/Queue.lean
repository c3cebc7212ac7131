import Mathlib.Data.BitVec
import ShairportSync.Fifo.Window
import ShairportSync.Transition.Run

/-!
# The producer-consumer queue

A `pc_queue` is a circular array with a lock. `pc_queue_add_item` never waits for room: on a
full queue it returns EWOULDBLOCK, and if it is asked not to block it may give up on the lock
and return EBUSY. `pc_queue_get_item` waits, with the lock released, until there is an item.

Any number of threads call the two functions. What a call does under the lock is two steps, the
copy of the item and the update of the indices, and other threads take their own steps between
them. A thread may be woken whether or not it was signalled.
-/

namespace ShairportSync

namespace Metadata

open Transition

variable {α : Type*}

/-! ## The queue -/

/-- `pc_queue`: the array, and the indices into it. -/
structure PcQueue (α : Type*) where
  items : ℕ → α
  count : BitVec 32
  capacity : BitVec 32
  toq : BitVec 32
  eoq : BitVec 32

namespace PcQueue

def init (items : ℕ → α) (numberOfItems : BitVec 32) : PcQueue α where
  items := items
  count := 0
  capacity := numberOfItems
  toq := 0
  eoq := 0

def next (q : PcQueue α) (i : BitVec 32) : BitVec 32 := if i + 1 = q.capacity then 0 else i + 1

def copyIn (q : PcQueue α) (x : α) : PcQueue α :=
  { q with items := Fifo.write q.items q.eoq.toNat [x] }

def top (q : PcQueue α) : α := q.items q.toq.toNat

def advanceEoq (q : PcQueue α) : PcQueue α := { q with eoq := q.next q.eoq, count := q.count + 1 }

def advanceToq (q : PcQueue α) : PcQueue α := { q with toq := q.next q.toq, count := q.count - 1 }

def contents (q : PcQueue α) : List α :=
  Fifo.window q.items q.capacity.toNat q.toq.toNat q.count.toNat

structure WellFormed (q : PcQueue α) : Prop where
  count_le : q.count ≤ q.capacity
  toq_lt : q.toq < q.capacity
  eoq_lt : q.eoq < q.capacity
  eoq_eq : q.eoq.toNat = (q.toq.toNat + q.count.toNat) % q.capacity.toNat

section Indices

variable {q : PcQueue α} {x : α}

theorem toNat_next {i : BitVec 32} (hi : i < q.capacity) :
    (q.next i).toNat = (i.toNat + 1) % q.capacity.toNat := by
  have hlt : i.toNat < q.capacity.toNat := hi
  have hsucc : (i + 1).toNat = i.toNat + 1 := by
    rw [BitVec.toNat_add, Nat.mod_eq_of_lt]
    · rfl
    · exact Nat.lt_of_le_of_lt hlt q.capacity.isLt
  unfold next
  split_ifs with hfold
  · rw [← hfold, hsucc, Nat.mod_self]
    rfl
  · have hne : i.toNat + 1 ≠ q.capacity.toNat := fun h =>
      hfold (BitVec.eq_of_toNat_eq (hsucc.trans h))
    rw [hsucc, Nat.mod_eq_of_lt (by omega)]

theorem toNat_count_add_one (hroom : q.count < q.capacity) :
    (q.count + 1).toNat = q.count.toNat + 1 := by
  have hlt : q.count.toNat < q.capacity.toNat := hroom
  have hcapacity := q.capacity.isLt
  bv_omega

theorem toNat_count_sub_one (hitem : q.count ≠ 0) :
    (q.count - 1).toNat + 1 = q.count.toNat := by
  bv_omega

theorem wellFormed_init (items : ℕ → α) {n : BitVec 32} (hn : 1 ≤ n) :
    (init items n).WellFormed := by
  have hpos : (0 : BitVec 32) < n := by bv_omega
  exact ⟨BitVec.le_def.mpr (Nat.zero_le _), hpos, hpos, (Nat.zero_mod _).symm⟩

theorem WellFormed.contents_copyIn (hq : q.WellFormed) (hroom : q.count < q.capacity) :
    (q.copyIn x).contents = q.contents :=
  Fifo.window_write hq.toq_lt hq.eoq_eq hroom

theorem items_copyIn : (q.copyIn x).items q.eoq.toNat = x :=
  Fifo.write_add q.eoq.toNat (i := 0) (List.length_singleton.symm ▸ Nat.zero_lt_one)

theorem WellFormed.copyIn (hq : q.WellFormed) : (q.copyIn x).WellFormed :=
  ⟨hq.count_le, hq.toq_lt, hq.eoq_lt, hq.eoq_eq⟩

theorem next_lt {i : BitVec 32} (hi : i < q.capacity) : q.next i < q.capacity := by
  have hlt : i.toNat < q.capacity.toNat := hi
  rw [BitVec.lt_def, toNat_next hi]
  exact Nat.mod_lt _ (by omega)

theorem WellFormed.advanceEoq (hq : q.WellFormed) (hroom : q.count < q.capacity) :
    q.advanceEoq.WellFormed where
  count_le := by
    rw [BitVec.le_def]
    exact (toNat_count_add_one hroom).trans_le hroom
  toq_lt := hq.toq_lt
  eoq_lt := next_lt hq.eoq_lt
  eoq_eq := by
    rw [PcQueue.advanceEoq, toNat_next hq.eoq_lt, toNat_count_add_one hroom, hq.eoq_eq,
      Nat.mod_add_mod, Nat.add_assoc]

theorem WellFormed.contents_advanceEoq (hq : q.WellFormed) (hroom : q.count < q.capacity)
    (hx : q.items q.eoq.toNat = x) : q.advanceEoq.contents = q.contents ++ [x] := by
  rw [contents, PcQueue.advanceEoq, toNat_count_add_one hroom, Fifo.window_add, Fifo.window_one,
    ← hq.eoq_eq, hx]
  rfl

theorem WellFormed.advanceToq (hq : q.WellFormed) (hitem : q.count ≠ 0) :
    q.advanceToq.WellFormed where
  count_le := by
    have hcount := toNat_count_sub_one hitem
    have hle : q.count.toNat ≤ q.capacity.toNat := hq.count_le
    rw [BitVec.le_def]
    change (q.count - 1).toNat ≤ q.capacity.toNat
    omega
  toq_lt := next_lt hq.toq_lt
  eoq_lt := hq.eoq_lt
  eoq_eq := by
    rw [PcQueue.advanceToq, toNat_next hq.toq_lt, Nat.mod_add_mod, Nat.add_assoc, Nat.add_comm 1,
      toNat_count_sub_one hitem]
    exact hq.eoq_eq

theorem WellFormed.contents_eq_cons (hq : q.WellFormed) (hitem : q.count ≠ 0) :
    q.contents = q.top :: q.advanceToq.contents := by
  have htoq : q.toq.toNat % q.capacity.toNat = q.toq.toNat := Nat.mod_eq_of_lt hq.toq_lt
  rw [contents, ← toNat_count_sub_one hitem, Fifo.window_succ, htoq, ← toNat_next hq.toq_lt]
  rfl

end Indices

end PcQueue

/-! ## The callers -/

/-- Where a thread is: outside the two functions, before the lock, under it, or waiting for an
item to be added. -/
inductive Caller (α : Type*) where
  | idle
  | add (x : α) (block : Bool)
  | adding (x : α)
  | copiedIn (x : α)
  | get
  | getting
  | copiedOut (x : α)
  | waiting

/-- A call has returned: 0, EWOULDBLOCK or EBUSY from `pc_queue_add_item`, or an item from
`pc_queue_get_item`. -/
inductive QueueEvent (α : Type*) where
  | added (thread : ℕ) (x : α)
  | wouldBlock (thread : ℕ) (x : α)
  | busy (thread : ℕ) (x : α)
  | got (thread : ℕ) (x : α)

/-- The queue, the holder of its lock, the threads, and the calls that have returned. -/
structure QueueState (α : Type*) where
  queue : PcQueue α
  holder : Option ℕ
  caller : ℕ → Caller α
  log : List (QueueEvent α)

inductive QueueLabel (α : Type*) where
  | callAdd (thread : ℕ) (x : α) (block : Bool)
  | callGet (thread : ℕ)
  | lock (thread : ℕ)
  | busy (thread : ℕ)
  | test (thread : ℕ)
  | update (thread : ℕ)
  | wake (thread : ℕ)

namespace QueueState

def init (items : ℕ → α) (numberOfItems : BitVec 32) : QueueState α where
  queue := .init items numberOfItems
  holder := none
  caller := fun _ => .idle
  log := []

def setCaller (s : QueueState α) (thread : ℕ) (c : Caller α) : QueueState α :=
  { s with caller := Function.update s.caller thread c }

def finish (s : QueueState α) (thread : ℕ) (e : QueueEvent α) : QueueState α :=
  { s.setCaller thread .idle with log := s.log ++ [e] }

def unlock (s : QueueState α) : QueueState α := { s with holder := none }

/-- One step of one thread. The lock is waited for, except that a call of
`pc_queue_add_item` that is not to block may find it held and return. -/
def step (s : QueueState α) : QueueLabel α → Option (QueueState α)
  | .callAdd thread x block =>
      match s.caller thread with
      | .idle => some (s.setCaller thread (.add x block))
      | _ => none
  | .callGet thread =>
      match s.caller thread with
      | .idle => some (s.setCaller thread .get)
      | _ => none
  | .lock thread =>
      match s.holder, s.caller thread with
      | none, .add x _ => some { s.setCaller thread (.adding x) with holder := some thread }
      | none, .get => some { s.setCaller thread .getting with holder := some thread }
      | _, _ => none
  | .busy thread =>
      match s.holder, s.caller thread with
      | some _, .add x false => some (s.finish thread (.busy thread x))
      | _, _ => none
  | .test thread =>
      match s.caller thread with
      | .adding x =>
          if s.queue.count < s.queue.capacity then
            some { s.setCaller thread (.copiedIn x) with queue := s.queue.copyIn x }
          else some (s.finish thread (.wouldBlock thread x)).unlock
      | .getting =>
          if s.queue.count = 0 then some (s.setCaller thread .waiting).unlock
          else some (s.setCaller thread (.copiedOut s.queue.top))
      | _ => none
  | .update thread =>
      match s.caller thread with
      | .copiedIn x =>
          some { (s.finish thread (.added thread x)).unlock with queue := s.queue.advanceEoq }
      | .copiedOut x =>
          some { (s.finish thread (.got thread x)).unlock with queue := s.queue.advanceToq }
      | _ => none
  | .wake thread =>
      match s.caller thread with
      | .waiting => some (s.setCaller thread .get)
      | _ => none

end QueueState

/-! ## A first-in first-out queue -/

def addedItems (log : List (QueueEvent α)) : List α :=
  log.filterMap fun
    | .added _ x => some x
    | _ => none

def gotItems (log : List (QueueEvent α)) : List α :=
  log.filterMap fun
    | .got _ x => some x
    | _ => none

/-- The indices are in range and agree, and what has been added is what has been got and what is in
the queue, in this order. -/
structure QueueState.Sound (s : QueueState α) : Prop where
  wellFormed : s.queue.WellFormed
  history : addedItems s.log = gotItems s.log ++ s.queue.contents

/-- What a call that returns has done to the queue. -/
def QueueEvent.Effect (q q' : PcQueue α) : QueueEvent α → Prop
  | .added _ x => q.count ≠ q.capacity ∧ q'.contents = q.contents ++ [x]
  | .wouldBlock _ _ => q.count = q.capacity ∧ q' = q
  | .busy _ _ => q' = q
  | .got _ x => q.count ≠ 0 ∧ q.contents = x :: q'.contents

/-- If the step is one in which a call returns, the call has had its effect. -/
def QueueState.StepSound (s : QueueState α) (l : QueueLabel α) : Prop :=
  ∀ t e, s.step l = some t → t.log = s.log ++ [e] → e.Effect s.queue t.queue

def Caller.Inside : Caller α → Prop
  | .adding _ => True
  | .copiedIn _ => True
  | .getting => True
  | .copiedOut _ => True
  | _ => False

/-- What a thread under the lock knows about the queue. -/
def Caller.Agrees (q : PcQueue α) : Caller α → Prop
  | .copiedIn x => q.count < q.capacity ∧ q.items q.eoq.toNat = x
  | .copiedOut x => q.count ≠ 0 ∧ q.top = x
  | _ => True

/-- Only the holder of the lock is under it, and the queue is as it knows it. -/
structure QueueState.Inv (s : QueueState α) : Prop extends s.Sound where
  inside : ∀ u, (s.caller u).Inside → s.holder = some u ∧ (s.caller u).Agrees s.queue

section Steps

variable {s t : QueueState α} {l : QueueLabel α} {thread : ℕ} {c : Caller α} {q : PcQueue α}
  {holder : Option ℕ} {log : List (QueueEvent α)}

theorem addedItems_append (log log' : List (QueueEvent α)) :
    addedItems (log ++ log') = addedItems log ++ addedItems log' :=
  List.filterMap_append

theorem gotItems_append (log log' : List (QueueEvent α)) :
    gotItems (log ++ log') = gotItems log ++ gotItems log' :=
  List.filterMap_append

theorem history_unchanged {contents : List α} {e : QueueEvent α} (hadded : addedItems [e] = [])
    (hgot : gotItems [e] = []) (h : addedItems log = gotItems log ++ contents) :
    addedItems (log ++ [e]) = gotItems (log ++ [e]) ++ contents := by
  rw [addedItems_append, gotItems_append, hadded, hgot, List.append_nil, List.append_nil, h]

theorem history_added {contents : List α} {x : α} (h : addedItems log = gotItems log ++ contents) :
    addedItems (log ++ [.added thread x]) =
      gotItems (log ++ [.added thread x]) ++ (contents ++ [x]) := by
  rw [addedItems_append, gotItems_append, h, ← List.append_assoc]
  congr 2
  exact (List.append_nil _).symm

theorem history_got {contents : List α} {x : α}
    (h : addedItems log = gotItems log ++ x :: contents) :
    addedItems (log ++ [.got thread x]) = gotItems (log ++ [.got thread x]) ++ contents := by
  rw [addedItems_append, gotItems_append, h]
  change gotItems log ++ x :: contents ++ [] = gotItems log ++ [x] ++ contents
  simp

namespace QueueState.Inv

/-- One thread moves. The invariant is kept if it knows what it should, and the others that are
under the lock still hold it and find the queue as it was. -/
theorem put (hs : s.Inv) (hq : q.WellFormed)
    (hlog : addedItems log = gotItems log ++ q.contents)
    (hc : c.Inside → holder = some thread ∧ c.Agrees q)
    (hothers : ∀ u, u ≠ thread → (s.caller u).Inside → holder = some u ∧ q = s.queue) :
    QueueState.Inv ⟨q, holder, Function.update s.caller thread c, log⟩ := by
  refine ⟨⟨hq, hlog⟩, fun u => ?_⟩
  by_cases hu : u = thread
  · subst hu
    dsimp only
    rwa [Function.update_self]
  · dsimp only
    rw [Function.update_of_ne hu]
    intro hinside
    obtain ⟨hholder, rfl⟩ := hothers u hu hinside
    exact ⟨hholder, (hs.inside u hinside).2⟩

/-- The thread is not under the lock, before or after. -/
theorem put_outside (hs : s.Inv) (hc : ¬ c.Inside)
    (hlog : addedItems log = gotItems log ++ s.queue.contents) :
    QueueState.Inv ⟨s.queue, s.holder, Function.update s.caller thread c, log⟩ :=
  hs.put hs.wellFormed hlog (fun hinside => absurd hinside hc) fun u _ hinside =>
    ⟨(hs.inside u hinside).1, rfl⟩

/-- The thread takes the lock. -/
theorem put_lock (hs : s.Inv) (hfree : s.holder = none) (hc : c.Agrees s.queue) :
    QueueState.Inv ⟨s.queue, some thread, Function.update s.caller thread c, s.log⟩ :=
  hs.put hs.wellFormed hs.history (fun _ => ⟨rfl, hc⟩) fun u _ hinside =>
    absurd (hfree.symm.trans (hs.inside u hinside).1) (Option.some_ne_none u).symm

/-- The thread has the lock, and keeps it or releases it. -/
theorem put_inside (hs : s.Inv) (hthread : (s.caller thread).Inside) (hq : q.WellFormed)
    (hlog : addedItems log = gotItems log ++ q.contents)
    (hc : c.Inside → holder = some thread ∧ c.Agrees q) :
    QueueState.Inv ⟨q, holder, Function.update s.caller thread c, log⟩ := by
  refine hs.put hq hlog hc fun u hu hinside => absurd ?_ hu
  exact Option.some.inj ((hs.inside u hinside).1.symm.trans (hs.inside thread hthread).1)

end QueueState.Inv

/-- What a step is to do: keep the invariant, and have the effect of the call that returns. -/
def QueueState.Keeps (s t : QueueState α) : Prop :=
  t.Inv ∧ ∀ e, t.log = s.log ++ [e] → e.Effect s.queue t.queue

theorem QueueState.Keeps.of_silent (ht : t.Inv) (hlog : t.log = s.log) : s.Keeps t :=
  ⟨ht, fun e he => absurd (hlog.symm.trans he) (by simp)⟩

theorem QueueState.Keeps.of_event {e : QueueEvent α} (ht : t.Inv) (hlog : t.log = s.log ++ [e])
    (he : e.Effect s.queue t.queue) : s.Keeps t := by
  refine ⟨ht, fun e' he' => ?_⟩
  obtain rfl : e = e' := by simpa using hlog.symm.trans he'
  exact he

namespace QueueState.Inv

theorem callAdd {x : α} {block : Bool} (hs : s.Inv)
    (h : s.step (.callAdd thread x block) = some t) : s.Keeps t := by
  rw [step] at h
  split at h
  · obtain rfl := Option.some.inj h
    exact .of_silent (hs.put_outside not_false hs.history) rfl
  · exact absurd h.symm (Option.some_ne_none t)

theorem callGet (hs : s.Inv) (h : s.step (.callGet thread) = some t) : s.Keeps t := by
  rw [step] at h
  split at h
  · obtain rfl := Option.some.inj h
    exact .of_silent (hs.put_outside not_false hs.history) rfl
  · exact absurd h.symm (Option.some_ne_none t)

theorem lock (hs : s.Inv) (h : s.step (.lock thread) = some t) : s.Keeps t := by
  rw [step] at h
  split at h
  case h_1 hholder hcaller =>
    obtain rfl := Option.some.inj h
    exact .of_silent (hs.put_lock hholder trivial) rfl
  case h_2 hholder hcaller =>
    obtain rfl := Option.some.inj h
    exact .of_silent (hs.put_lock hholder trivial) rfl
  case h_3 => exact absurd h.symm (Option.some_ne_none t)

theorem busy (hs : s.Inv) (h : s.step (.busy thread) = some t) : s.Keeps t := by
  rw [step] at h
  split at h
  · obtain rfl := Option.some.inj h
    exact .of_event (hs.put_outside not_false (history_unchanged rfl rfl hs.history)) rfl rfl
  · exact absurd h.symm (Option.some_ne_none t)

theorem test (hs : s.Inv) (h : s.step (.test thread) = some t) : s.Keeps t := by
  rw [step] at h
  split at h
  case h_1 x hcaller =>
    have hinside : (s.caller thread).Inside := hcaller ▸ trivial
    split_ifs at h with hroom
    · obtain rfl := Option.some.inj h
      refine .of_silent (hs.put_inside hinside hs.wellFormed.copyIn ?_ fun _ => ?_) rfl
      · rw [hs.wellFormed.contents_copyIn hroom]
        exact hs.history
      · exact ⟨(hs.inside thread hinside).1, hroom, PcQueue.items_copyIn⟩
    · obtain rfl := Option.some.inj h
      have hfull := BitVec.le_antisymm hs.wellFormed.count_le (BitVec.not_lt.mp hroom)
      exact .of_event (hs.put_inside hinside hs.wellFormed
        (history_unchanged rfl rfl hs.history) fun hin => hin.elim) rfl ⟨hfull, rfl⟩
  case h_2 hcaller =>
    have hinside : (s.caller thread).Inside := hcaller ▸ trivial
    split_ifs at h with hempty
    · obtain rfl := Option.some.inj h
      exact .of_silent (hs.put_inside hinside hs.wellFormed hs.history fun hin => hin.elim) rfl
    · obtain rfl := Option.some.inj h
      refine .of_silent (hs.put_inside hinside hs.wellFormed hs.history fun _ => ?_) rfl
      exact ⟨(hs.inside thread hinside).1, hempty, rfl⟩
  case h_3 => exact absurd h.symm (Option.some_ne_none t)

theorem update (hs : s.Inv) (h : s.step (.update thread) = some t) : s.Keeps t := by
  rw [step] at h
  split at h
  case h_1 x hcaller =>
    have hinside : (s.caller thread).Inside := hcaller ▸ trivial
    have hagrees : (Caller.copiedIn x).Agrees s.queue :=
      hcaller ▸ (hs.inside thread hinside).2
    obtain ⟨hroom, hx⟩ := hagrees
    have hcontents := hs.wellFormed.contents_advanceEoq hroom hx
    obtain rfl := Option.some.inj h
    refine .of_event (hs.put_inside hinside (hs.wellFormed.advanceEoq hroom) ?_ fun hin => hin.elim)
      rfl ⟨BitVec.ne_of_lt hroom, hcontents⟩
    rw [hcontents]
    exact history_added hs.history
  case h_2 x hcaller =>
    have hinside : (s.caller thread).Inside := hcaller ▸ trivial
    have hagrees : (Caller.copiedOut x).Agrees s.queue :=
      hcaller ▸ (hs.inside thread hinside).2
    obtain ⟨hitem, hx⟩ := hagrees
    have hcontents := hs.wellFormed.contents_eq_cons hitem
    rw [hx] at hcontents
    obtain rfl := Option.some.inj h
    refine .of_event (hs.put_inside hinside (hs.wellFormed.advanceToq hitem) ?_ fun hin => hin.elim)
      rfl ⟨hitem, hcontents⟩
    exact history_got (hcontents ▸ hs.history)
  case h_3 => exact absurd h.symm (Option.some_ne_none t)

theorem wake (hs : s.Inv) (h : s.step (.wake thread) = some t) : s.Keeps t := by
  rw [step] at h
  split at h
  · obtain rfl := Option.some.inj h
    exact .of_silent (hs.put_outside not_false hs.history) rfl
  · exact absurd h.symm (Option.some_ne_none t)

theorem keeps (hs : s.Inv) (h : s.step l = some t) : s.Keeps t := by
  cases l with
  | callAdd thread x block => exact hs.callAdd h
  | callGet thread => exact hs.callGet h
  | lock thread => exact hs.lock h
  | busy thread => exact hs.busy h
  | test thread => exact hs.test h
  | update thread => exact hs.update h
  | wake thread => exact hs.wake h

end QueueState.Inv

theorem QueueState.inv_init (items : ℕ → α) {n : BitVec 32} (hn : 1 ≤ n) :
    (QueueState.init items n).Inv :=
  ⟨⟨PcQueue.wellFormed_init items hn, rfl⟩, fun _ hinside => hinside.elim⟩

end Steps

theorem QueueState.stepSound_of_inv {s : QueueState α} {l : QueueLabel α} (hs : s.Inv) :
    s.StepSound l :=
  fun _ e ht he => (hs.keeps ht).2 e he

/-- However the calls are interleaved, the indices stay in range and agree, what is returned by
`pc_queue_get_item` is what was added, in order and once, a full queue takes no item, and an empty
one returns none. -/
theorem pcQueue_run_sound (items : ℕ → α) {numberOfItems : BitVec 32} (hn : 1 ≤ numberOfItems)
    (ls : List (QueueLabel α)) :
    Throughout QueueState.step QueueState.Sound (.init items numberOfItems) ls ∧
      Along QueueState.step QueueState.StepSound (.init items numberOfItems) ls := by
  have hinit := QueueState.inv_init items hn
  have hstep : ∀ (s : QueueState α) l t, s.Inv → s.step l = some t → t.Inv :=
    fun s l t hs ht => (hs.keeps ht).1
  refine ⟨?_, ?_⟩
  · exact (throughout_of_invariant hstep hinit).mono fun s hs => hs.toSound
  · exact along_of_invariant hstep (fun s l hs => QueueState.stepSound_of_inv hs) hinit

/-- A queue of one item: the second add finds it full, and the get frees it for the third. -/
theorem pcQueue_run_sound_of_one_item :
    Throughout QueueState.step QueueState.Sound (.init (fun _ => 0) 1)
        [.callAdd 0 7 true, .lock 0, .callAdd 1 8 false, .busy 1, .test 0, .update 0,
          .callAdd 1 9 true, .lock 1, .test 1, .callGet 2, .lock 2, .test 2, .update 2,
          .callAdd 0 6 true, .lock 0, .test 0, .update 0] ∧
      Along QueueState.step QueueState.StepSound (.init (fun _ => 0) 1)
        [.callAdd 0 7 true, .lock 0, .callAdd 1 8 false, .busy 1, .test 0, .update 0,
          .callAdd 1 9 true, .lock 1, .test 1, .callGet 2, .lock 2, .test 2, .update 2,
          .callAdd 0 6 true, .lock 0, .test 0, .update 0] :=
  pcQueue_run_sound (fun _ => 0) (by decide) _

end Metadata

end ShairportSync
