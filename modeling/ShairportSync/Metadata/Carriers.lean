import Mathlib.Data.Fintype.BigOperators
import ShairportSync.Resource.Ledger
import ShairportSync.Transition.Run

/-!
# Carriers of metadata

A metadata package points into the RTSP message that carries it, or to a copy of its data. The
thread of a conversation has the one reference of a message from `msg_init` on until it calls
`msg_free`. `send_metadata` makes a package for each of the queues that are in use, and
`send_metadata_to_queue` retains the message for it; a queue may refuse the package, and then the
sender releases it again. The thread at the other end of a queue takes a package out, processes it
and releases it with `metadata_pack_cleanup_function`.

A queue takes or refuses a package as it likes here. Messages and copies of data are numbered as
they are allocated; what is freed is noted. The type, code and length of a package are left out.
-/

namespace ShairportSync

namespace Metadata

open Resource Transition

/-! ## The threads -/

inductive MetadataQueue where
  | pipe
  | multicast
  | hub
  | mqtt
deriving DecidableEq

instance : Fintype MetadataQueue where
  elems := {.pipe, .multicast, .hub, .mqtt}
  complete := fun queue => by cases queue <;> decide

structure MetadataConfig where
  metadataEnabled : Bool
  metadataHub : Bool
  mqtt : Bool

/-- The queues a call of `send_metadata` goes through, in order. -/
def MetadataConfig.queues (cfg : MetadataConfig) : List MetadataQueue :=
  (if cfg.metadataEnabled then [.pipe, .multicast] else []) ++
    (if cfg.metadataHub then [.hub] else []) ++ if cfg.mqtt then [.mqtt] else []

/-- What can be freed: a message with its content, or copied data. -/
inductive HeapObject where
  | message (index : ℕ)
  | data (index : ℕ)
deriving DecidableEq

/-- `metadata_package`: the message, or the copied data, if there is one. -/
structure Package where
  carrier : Option ℕ
  data : Option ℕ
deriving DecidableEq

/-- The arguments of `send_metadata`: the message, and whether there is data. -/
structure SendArgs where
  carrier : Option ℕ
  data : Bool
deriving DecidableEq

/-- Where a thread is in `send_metadata`, with the queues that are left. -/
inductive Sender where
  | idle
  | sending (a : SendArgs) (rest : List MetadataQueue)
  | adding (a : SendArgs) (pack : Package) (queue : MetadataQueue) (rest : List MetadataQueue)
  | refused (a : SendArgs) (pack : Package) (rest : List MetadataQueue)
deriving DecidableEq

/-- The messages, the threads `T` that may send metadata, and the queues with the threads at their
other ends. -/
structure CarrierState (T : Type) where
  nextMessage : ℕ
  nextData : ℕ
  referenceCount : ℕ → Int
  owned : T → List ℕ
  sender : T → Sender
  queue : MetadataQueue → List Package
  consumer : MetadataQueue → Option Package
  freed : List HeapObject

inductive CarrierLabel (T : Type) where
  | msgInit (thread : T)
  | sendMetadata (thread : T) (a : SendArgs)
  | pack (thread : T)
  | add (thread : T) (accepted : Bool)
  | drop (thread : T)
  | sent (thread : T)
  | msgFree (thread : T) (msg : ℕ)
  | getItem (queue : MetadataQueue)
  | cleanup (queue : MetadataQueue)

namespace CarrierState

variable {T : Type}

def init : CarrierState T where
  nextMessage := 0
  nextData := 0
  referenceCount := fun _ => 0
  owned := fun _ => []
  sender := fun _ => .idle
  queue := fun _ => []
  consumer := fun _ => none
  freed := []

def msgRetain (s : CarrierState T) (msg : ℕ) : CarrierState T :=
  { s with referenceCount := Function.update s.referenceCount msg (s.referenceCount msg + 1) }

def msgFree (s : CarrierState T) (msg : ℕ) : CarrierState T :=
  let count := s.referenceCount msg - 1
  { s with
    referenceCount := Function.update s.referenceCount msg count
    freed := if count = 0 then s.freed ++ [.message msg] else s.freed }

/-- `metadata_pack_cleanup_function`, and what the sender does with a package that has been
refused. -/
def release (s : CarrierState T) (pack : Package) : CarrierState T :=
  match pack.carrier, pack.data with
  | some msg, _ => s.msgFree msg
  | none, some data => { s with freed := s.freed ++ [.data data] }
  | none, none => s

variable [DecidableEq T]

def setSender (s : CarrierState T) (thread : T) (c : Sender) : CarrierState T :=
  { s with sender := Function.update s.sender thread c }

/-- The package for the next queue: the message is retained, or the data is copied. -/
def makePackage (s : CarrierState T) (a : SendArgs) : Package × CarrierState T :=
  match a.carrier, a.data with
  | some msg, _ => (⟨some msg, none⟩, s.msgRetain msg)
  | none, true => (⟨none, some s.nextData⟩, { s with nextData := s.nextData + 1 })
  | none, false => (⟨none, none⟩, s)

def step (cfg : MetadataConfig) (s : CarrierState T) : CarrierLabel T → Option (CarrierState T)
  | .msgInit thread =>
      match s.sender thread with
      | .idle =>
          some { s with
            nextMessage := s.nextMessage + 1
            referenceCount := Function.update s.referenceCount s.nextMessage 1
            owned := Function.update s.owned thread (s.nextMessage :: s.owned thread) }
      | _ => none
  | .sendMetadata thread a =>
      match s.sender thread with
      | .idle =>
          if ∀ msg ∈ a.carrier, msg ∈ s.owned thread then
            some (s.setSender thread (.sending a cfg.queues))
          else none
      | _ => none
  | .pack thread =>
      match s.sender thread with
      | .sending a (queue :: rest) =>
          let (pack, s) := s.makePackage a
          some (s.setSender thread (.adding a pack queue rest))
      | _ => none
  | .add thread accepted =>
      match s.sender thread with
      | .adding a pack queue rest =>
          if accepted then
            some { s.setSender thread (.sending a rest) with
              queue := Function.update s.queue queue (s.queue queue ++ [pack]) }
          else some (s.setSender thread (.refused a pack rest))
      | _ => none
  | .drop thread =>
      match s.sender thread with
      | .refused a pack rest => some ((s.release pack).setSender thread (.sending a rest))
      | _ => none
  | .sent thread =>
      match s.sender thread with
      | .sending _ [] => some (s.setSender thread .idle)
      | _ => none
  | .msgFree thread msg =>
      match s.sender thread with
      | .idle =>
          if msg ∈ s.owned thread then
            some { s.msgFree msg with
              owned := Function.update s.owned thread ((s.owned thread).erase msg) }
          else none
      | _ => none
  | .getItem queue =>
      match s.consumer queue, s.queue queue with
      | none, pack :: rest =>
          some { s with
            queue := Function.update s.queue queue rest
            consumer := Function.update s.consumer queue (some pack) }
      | _, _ => none
  | .cleanup queue =>
      match s.consumer queue with
      | some pack =>
          some { s.release pack with consumer := Function.update s.consumer queue none }
      | none => none

end CarrierState

/-! ## Who refers to what -/

def Package.objects (pack : Package) : List HeapObject :=
  match pack.carrier, pack.data with
  | some msg, _ => [.message msg]
  | none, some data => [.data data]
  | none, none => []

theorem Package.nodup_objects (pack : Package) : pack.objects.Nodup := by
  obtain ⟨carrier, data⟩ := pack
  cases carrier with
  | some msg => exact List.nodup_singleton _
  | none =>
      cases data with
      | some data => exact List.nodup_singleton _
      | none => exact List.nodup_nil

def Sender.carrier : Sender → Option ℕ
  | .idle => none
  | .sending a _ => a.carrier
  | .adding a _ _ _ => a.carrier
  | .refused a _ _ => a.carrier

/-- The package a thread has made and not yet put on a queue or released. -/
def Sender.inHand : Sender → List Package
  | .idle => []
  | .sending _ _ => []
  | .adding _ pack _ _ => [pack]
  | .refused _ pack _ => [pack]

/-- A thread as the owner of messages, a thread with a package in hand, a queue, or a thread
processing a package. -/
abbrev Place (T : Type) := (T ⊕ T) ⊕ (MetadataQueue ⊕ MetadataQueue)

namespace CarrierState

variable {T : Type}

/-- What each place refers to. -/
def held (s : CarrierState T) : Place T → List HeapObject
  | .inl (.inl thread) => (s.owned thread).map .message
  | .inl (.inr thread) => (s.sender thread).inHand.flatMap Package.objects
  | .inr (.inl queue) => (s.queue queue).flatMap Package.objects
  | .inr (.inr queue) => (s.consumer queue).toList.flatMap Package.objects

def Allocated (s : CarrierState T) : HeapObject → Prop
  | .message msg => msg < s.nextMessage
  | .data data => data < s.nextData

def ledger (s : CarrierState T) : Ledger (Place T) HeapObject where
  held := s.held
  allocated := s.Allocated
  freed := s.freed

variable [Fintype T]

section Counting

def owners (s : CarrierState T) (msg : ℕ) : ℕ := ∑ thread, (s.owned thread).count msg

def waiting (s : CarrierState T) (queue : MetadataQueue) : List Package :=
  s.queue queue ++ (s.consumer queue).toList

def queued (s : CarrierState T) (o : HeapObject) : ℕ :=
  ∑ queue, (s.waiting queue).countP fun pack => o ∈ pack.objects

def inHand (s : CarrierState T) (o : HeapObject) : ℕ :=
  ∑ thread, (s.sender thread).inHand.countP fun pack => o ∈ pack.objects

/-- The counts are right, what nobody has any more has been freed once, what somebody has has not,
and copied data is in one package. -/
structure Sound (s : CarrierState T) : Prop where
  counted : ∀ msg < s.nextMessage,
    s.referenceCount msg = s.owners msg + s.queued (.message msg) + s.inHand (.message msg)
  messageFreed : ∀ msg < s.nextMessage, s.freed.count (.message msg) =
    if s.owners msg + s.queued (.message msg) + s.inHand (.message msg) = 0 then 1 else 0
  dataFreed : ∀ data < s.nextData, s.freed.count (.data data) =
    if s.queued (.data data) + s.inHand (.data data) = 0 then 1 else 0
  dataSingle : ∀ data, s.queued (.data data) + s.inHand (.data data) ≤ 1
  live : ∀ pack, (∃ queue, pack ∈ s.waiting queue) ∨ (∃ thread, pack ∈ (s.sender thread).inHand) →
    ∀ o ∈ pack.objects, s.Allocated o ∧ o ∉ s.freed

theorem count_flatMap_objects (packs : List Package) (o : HeapObject) :
    (packs.flatMap Package.objects).count o = packs.countP fun pack => o ∈ pack.objects := by
  induction packs with
  | nil => rfl
  | cons pack packs ih =>
      rw [List.flatMap_cons, List.count_append, ih, List.countP_cons, Nat.add_comm,
        pack.nodup_objects.count]
      simp only [decide_eq_true_eq]

theorem holders_message (s : CarrierState T) (msg : ℕ) : s.ledger.holders (.message msg) =
    s.owners msg + s.queued (.message msg) + s.inHand (.message msg) := by
  have howner (thread : T) :
      (s.held (.inl (.inl thread))).count (.message msg) = (s.owned thread).count msg :=
    List.count_map_of_injective _ _ (fun _ _ h => HeapObject.message.inj h) _
  rw [Ledger.holders, Fintype.sum_sum_type, Fintype.sum_sum_type, Fintype.sum_sum_type]
  simp only [owners, queued, inHand, waiting, List.countP_append, Finset.sum_add_distrib,
    ← count_flatMap_objects]
  change ∑ thread, (s.held (.inl (.inl thread))).count (.message msg) + _ + _ = _
  rw [Finset.sum_congr rfl fun thread _ => howner thread]
  exact Nat.add_right_comm ..

theorem holders_data (s : CarrierState T) (data : ℕ) :
    s.ledger.holders (.data data) = s.queued (.data data) + s.inHand (.data data) := by
  have howner (thread : T) : (s.held (.inl (.inl thread))).count (.data data) = 0 :=
    List.count_eq_zero.mpr (by simp [held])
  rw [Ledger.holders, Fintype.sum_sum_type, Fintype.sum_sum_type, Fintype.sum_sum_type]
  simp only [queued, inHand, waiting, List.countP_append, Finset.sum_add_distrib,
    ← count_flatMap_objects]
  change ∑ thread, (s.held (.inl (.inl thread))).count (.data data) + _ + _ = _
  rw [Finset.sum_congr rfl fun thread _ => howner thread, Finset.sum_const_zero, Nat.zero_add]
  exact Nat.add_comm ..

theorem holders_pos_of_package {s : CarrierState T} {pack : Package} {o : HeapObject}
    (hpack : (∃ queue, pack ∈ s.waiting queue) ∨ ∃ thread, pack ∈ (s.sender thread).inHand)
    (ho : o ∈ pack.objects) : 0 < s.ledger.holders o := by
  rcases hpack with ⟨queue, hpack⟩ | ⟨thread, hpack⟩
  · rcases List.mem_append.mp hpack with hpack | hpack
    · exact Ledger.holders_pos_of_mem (l := s.ledger) (i := .inr (.inl queue))
        (List.mem_flatMap_of_mem hpack ho)
    · exact Ledger.holders_pos_of_mem (l := s.ledger) (i := .inr (.inr queue))
        (List.mem_flatMap_of_mem hpack ho)
  · exact Ledger.holders_pos_of_mem (l := s.ledger) (i := .inl (.inr thread))
      (List.mem_flatMap_of_mem hpack ho)

end Counting

/-- What is kept by every step: the ledger is balanced, the counts are right, no data is referred to
twice, and the message of which a thread sends metadata is its own. -/
structure Inv (s : CarrierState T) : Prop where
  balanced : s.ledger.Balanced
  counted : ∀ msg < s.nextMessage, s.referenceCount msg = s.ledger.holders (.message msg)
  single : ∀ data, s.ledger.holders (.data data) ≤ 1
  owns : ∀ thread msg, (s.sender thread).carrier = some msg → msg ∈ s.owned thread

section Steps

variable [DecidableEq T] {s s' : CarrierState T} {thread : T} {pack : Package}

omit [Fintype T] [DecidableEq T] in
/-- A place whose part of the state is as it was refers to what it did. -/
theorem held_eq {place : Place T}
    (howned : ∀ t, place = .inl (.inl t) → s'.owned t = s.owned t)
    (hsender : ∀ t, place = .inl (.inr t) → s'.sender t = s.sender t)
    (hqueue : ∀ q, place = .inr (.inl q) → s'.queue q = s.queue q)
    (hconsumer : ∀ q, place = .inr (.inr q) → s'.consumer q = s.consumer q) :
    s'.held place = s.held place := by
  rcases place with (t | t) | (q | q)
  · exact congrArg (List.map _) (howned t rfl)
  · exact congrArg (fun c : Sender => c.inHand.flatMap Package.objects) (hsender t rfl)
  · exact congrArg (List.flatMap _) (hqueue q rfl)
  · exact congrArg (fun c : Option Package => c.toList.flatMap Package.objects) (hconsumer q rfl)

/-- A thread moves on in `send_metadata`. -/
theorem holders_of_sender (s s' : CarrierState T) {c : Sender} (howned : s'.owned = s.owned)
    (hsender : s'.sender = Function.update s.sender thread c) (hqueue : s'.queue = s.queue)
    (hconsumer : s'.consumer = s.consumer) (o : HeapObject) :
    s'.ledger.holders o + ((s.sender thread).inHand.flatMap Package.objects).count o =
      s.ledger.holders o + (c.inHand.flatMap Package.objects).count o := by
  have hplace := Ledger.holders_of_place s.ledger s'.ledger
    (i := .inl (.inr thread)) (fun place hplace => held_eq (fun t _ => congrFun howned t)
      (fun t ht => by rw [hsender, Function.update_of_ne (fun h : t = thread => hplace (h ▸ ht))])
      (fun q _ => congrFun hqueue q) (fun q _ => congrFun hconsumer q)) o
  have hc : s'.ledger.held (.inl (.inr thread)) = c.inHand.flatMap Package.objects := by
    change (s'.sender thread).inHand.flatMap _ = _
    rw [hsender, Function.update_self]
  rw [hc] at hplace
  exact hplace

/-- A thread gets or gives up a message. -/
theorem holders_of_owned {msgs : List ℕ} (hsender : s'.sender = s.sender)
    (howned : s'.owned = Function.update s.owned thread msgs) (hqueue : s'.queue = s.queue)
    (hconsumer : s'.consumer = s.consumer) (o : HeapObject) :
    s'.ledger.holders o + ((s.owned thread).map .message).count o =
      s.ledger.holders o + (msgs.map HeapObject.message).count o := by
  have hplace := Ledger.holders_of_place s.ledger s'.ledger
    (i := .inl (.inl thread)) (fun place hplace => held_eq
      (fun t ht => by rw [howned, Function.update_of_ne (fun h : t = thread => hplace (h ▸ ht))])
      (fun t _ => congrFun hsender t)
      (fun q _ => congrFun hqueue q) (fun q _ => congrFun hconsumer q)) o
  have hmsgs : s'.ledger.held (.inl (.inl thread)) = msgs.map .message := by
    change (s'.owned thread).map _ = _
    rw [howned, Function.update_self]
  rw [hmsgs] at hplace
  exact hplace

/-- A thread gets a message. -/
theorem holders_of_cons {msg : ℕ} (hsender : s'.sender = s.sender)
    (howned : s'.owned = Function.update s.owned thread (msg :: s.owned thread))
    (hqueue : s'.queue = s.queue) (hconsumer : s'.consumer = s.consumer) (o : HeapObject) :
    s'.ledger.holders o = s.ledger.holders o + [HeapObject.message msg].count o := by
  have h := holders_of_owned hsender howned hqueue hconsumer o
  rw [List.map_cons, List.count_cons] at h
  rw [List.count_singleton]
  omega

/-- A thread gives up a message. -/
theorem holders_of_erase {msg : ℕ} (hmsg : msg ∈ s.owned thread) (hsender : s'.sender = s.sender)
    (howned : s'.owned = Function.update s.owned thread ((s.owned thread).erase msg))
    (hqueue : s'.queue = s.queue) (hconsumer : s'.consumer = s.consumer) (o : HeapObject) :
    s'.ledger.holders o + [HeapObject.message msg].count o = s.ledger.holders o := by
  have h := holders_of_owned hsender howned hqueue hconsumer o
  have hperm := (List.perm_cons_erase hmsg).map HeapObject.message
  rw [hperm.count_eq, List.map_cons, List.count_cons] at h
  rw [List.count_singleton]
  omega

/-- The thread at the other end of a queue is done with a package. -/
theorem holders_of_consumer {q : MetadataQueue} (hsender : s'.sender = s.sender)
    (howned : s'.owned = s.owned) (hqueue : s'.queue = s.queue)
    (hconsumer : s'.consumer = Function.update s.consumer q none)
    (hpack : s.consumer q = some pack) (o : HeapObject) :
    s'.ledger.holders o + pack.objects.count o = s.ledger.holders o := by
  have hplace := Ledger.holders_of_place s.ledger s'.ledger
    (i := .inr (.inr q)) (fun place hplace => held_eq (fun t _ => congrFun howned t)
      (fun t _ => congrFun hsender t) (fun q' _ => congrFun hqueue q')
      (fun q' hq' => by
        rw [hconsumer, Function.update_of_ne (fun h : q' = q => hplace (h ▸ hq'))])) o
  have hafter : s'.ledger.held (.inr (.inr q)) = [] := by
    change (s'.consumer q).toList.flatMap _ = _
    rw [hconsumer, Function.update_self]
    rfl
  have hbefore : s.ledger.held (.inr (.inr q)) = pack.objects := by
    change (s.consumer q).toList.flatMap _ = _
    rw [hpack]
    exact List.append_nil _
  rwa [hafter, hbefore, List.count_nil, Nat.add_zero] at hplace

/-- A package goes from a thread to a queue. -/
theorem holders_of_add {c : Sender} {q : MetadataQueue} (howned : s'.owned = s.owned)
    (hsender : s'.sender = Function.update s.sender thread c)
    (hqueue : s'.queue = Function.update s.queue q (s.queue q ++ [pack]))
    (hconsumer : s'.consumer = s.consumer) (hpack : (s.sender thread).inHand = [pack])
    (hc : c.inHand = []) (o : HeapObject) : s'.ledger.holders o = s.ledger.holders o := by
  have hplaces := Ledger.holders_of_two_places s.ledger s'.ledger
    (i := .inl (.inr thread)) (j := .inr (.inl q)) (by simp)
    (fun place hhand hplace => held_eq (fun t _ => congrFun howned t)
      (fun t ht => by rw [hsender, Function.update_of_ne (fun h : t = thread => hhand (h ▸ ht))])
      (fun q' hq' => by rw [hqueue, Function.update_of_ne (fun h : q' = q => hplace (h ▸ hq'))])
      (fun q' _ => congrFun hconsumer q')) o
  have hhand : s'.ledger.held (.inl (.inr thread)) = [] := by
    change (s'.sender thread).inHand.flatMap _ = _
    rw [hsender, Function.update_self, hc]
    rfl
  have hhand' : s.ledger.held (.inl (.inr thread)) = pack.objects := by
    change (s.sender thread).inHand.flatMap _ = _
    rw [hpack]
    exact List.append_nil _
  have hafter : s'.ledger.held (.inr (.inl q)) = s.ledger.held (.inr (.inl q)) ++ pack.objects := by
    change (s'.queue q).flatMap _ = (s.queue q).flatMap _ ++ _
    rw [hqueue, Function.update_self, List.flatMap_append]
    exact congrArg _ (List.append_nil _)
  rw [hhand, hhand', hafter, List.count_append, List.count_nil] at hplaces
  omega

/-- A package goes from a queue to the thread at its other end. -/
theorem holders_of_getItem {q : MetadataQueue} {rest : List Package} (howned : s'.owned = s.owned)
    (hsender : s'.sender = s.sender) (hqueue : s'.queue = Function.update s.queue q rest)
    (hconsumer : s'.consumer = Function.update s.consumer q (some pack))
    (hpack : s.queue q = pack :: rest) (hidle : s.consumer q = none) (o : HeapObject) :
    s'.ledger.holders o = s.ledger.holders o := by
  have hplaces := Ledger.holders_of_two_places s.ledger s'.ledger
    (i := .inr (.inl q)) (j := .inr (.inr q)) (by simp)
    (fun place hplace hplace' => held_eq (fun t _ => congrFun howned t)
      (fun t _ => congrFun hsender t)
      (fun q' hq' => by rw [hqueue, Function.update_of_ne (fun h : q' = q => hplace (h ▸ hq'))])
      (fun q' hq' => by
        rw [hconsumer, Function.update_of_ne (fun h : q' = q => hplace' (h ▸ hq'))])) o
  have hbefore :
      s.ledger.held (.inr (.inl q)) = pack.objects ++ s'.ledger.held (.inr (.inl q)) := by
    change (s.queue q).flatMap _ = pack.objects ++ (s'.queue q).flatMap _
    rw [hqueue, Function.update_self, hpack]
    rfl
  have hconsumed : s.ledger.held (.inr (.inr q)) = [] := by
    change (s.consumer q).toList.flatMap _ = _
    rw [hidle]
    rfl
  have hafter : s'.ledger.held (.inr (.inr q)) = pack.objects := by
    change (s'.consumer q).toList.flatMap _ = _
    rw [hconsumer, Function.update_self]
    exact List.append_nil _
  rw [hbefore, hconsumed, hafter, List.count_append, List.count_nil] at hplaces
  omega

omit [Fintype T] [DecidableEq T] in
theorem allocated_eq (hmessage : s'.nextMessage = s.nextMessage)
    (hdata : s'.nextData = s.nextData) : s'.ledger.allocated = s.ledger.allocated := by
  funext o
  cases o with
  | message msg => exact congrArg (msg < ·) hmessage
  | data data => exact congrArg (data < ·) hdata

namespace Inv

omit [DecidableEq T]

/-- The places may change, as long as nothing has more or fewer holders. -/
theorem congr (hs : s.Inv) (hmessage : s'.nextMessage = s.nextMessage)
    (hdata : s'.nextData = s.nextData) (hcount : s'.referenceCount = s.referenceCount)
    (hfreed : s'.freed = s.freed) (hholders : ∀ o, s'.ledger.holders o = s.ledger.holders o)
    (howns : ∀ thread msg, (s'.sender thread).carrier = some msg → msg ∈ s'.owned thread) :
    s'.Inv where
  balanced := hs.balanced.congr (allocated_eq hmessage hdata) hfreed hholders
  counted := fun msg hmsg => by
    rw [hcount, hholders]
    exact hs.counted msg (hmessage ▸ hmsg)
  single := fun data => (hholders _).trans_le (hs.single data)
  owns := howns

/-- A message loses a holder by `msg_free`. -/
theorem msgFree {msg : ℕ} (hs : s.Inv) (hmessage : s'.nextMessage = s.nextMessage)
    (hdata : s'.nextData = s.nextData)
    (hcount : s'.referenceCount = (s.msgFree msg).referenceCount)
    (hfreed : s'.freed = (s.msgFree msg).freed)
    (hholders : ∀ o, s'.ledger.holders o + [HeapObject.message msg].count o = s.ledger.holders o)
    (howns : ∀ thread msg, (s'.sender thread).carrier = some msg → msg ∈ s'.owned thread) :
    s'.Inv := by
  obtain ⟨hless, hothers⟩ := Ledger.holders_of_loss hholders
  have hlive := hs.balanced.live (o := .message msg) (by omega)
  have hbefore := hs.counted msg hlive.1
  refine ⟨hs.balanced.release (allocated_eq hmessage hdata) ?_ hless hothers, ?_, ?_, howns⟩
  · have hlast : s.referenceCount msg - 1 = 0 ↔ s'.ledger.holders (.message msg) = 0 := by omega
    change s'.freed = _
    rw [hfreed, CarrierState.msgFree]
    exact if_congr hlast rfl rfl
  · intro msg' hmsg'
    rw [hcount, CarrierState.msgFree]
    by_cases hsame : msg' = msg
    · subst hsame
      dsimp only
      rw [Function.update_self]
      omega
    · dsimp only
      rw [Function.update_of_ne hsame, hothers _ (by simpa using hsame)]
      exact hs.counted msg' (hmessage ▸ hmsg')
  · intro data
    rw [hothers _ (by simp)]
    exact hs.single data

/-- What a package refers to loses a holder when the package is released. -/
theorem release (hs : s.Inv) (hmessage : s'.nextMessage = s.nextMessage)
    (hdata : s'.nextData = s.nextData)
    (hcount : s'.referenceCount = (s.release pack).referenceCount)
    (hfreed : s'.freed = (s.release pack).freed)
    (hholders : ∀ o, s'.ledger.holders o + pack.objects.count o = s.ledger.holders o)
    (howns : ∀ thread msg, (s'.sender thread).carrier = some msg → msg ∈ s'.owned thread) :
    s'.Inv := by
  obtain ⟨carrier, data⟩ := pack
  cases carrier with
  | some msg => exact hs.msgFree hmessage hdata hcount hfreed hholders howns
  | none =>
      cases data with
      | none => exact hs.congr hmessage hdata hcount hfreed hholders howns
      | some data =>
          obtain ⟨hless, hothers⟩ := Ledger.holders_of_loss (o := HeapObject.data data) hholders
          have hsingle := hs.single data
          have hlast : s'.ledger.holders (.data data) = 0 := by omega
          refine ⟨hs.balanced.release (o := .data data) (allocated_eq hmessage hdata) ?_ hless
            hothers, ?_, ?_, howns⟩
          · rw [if_pos hlast]
            exact hfreed
          · intro msg hmsg
            rw [hcount, hothers _ (by simp)]
            exact hs.counted msg (hmessage ▸ hmsg)
          · intro data'
            by_cases hsame : data' = data
            · subst hsame
              omega
            · rw [hothers _ (by simpa using hsame)]
              exact hs.single data'

/-- A message gets a holder by `msg_retain`. -/
theorem msgRetain {msg : ℕ} (hs : s.Inv) (hheld : 0 < s.ledger.holders (.message msg))
    (hmessage : s'.nextMessage = s.nextMessage) (hdata : s'.nextData = s.nextData)
    (hcount : s'.referenceCount = (s.msgRetain msg).referenceCount) (hfreed : s'.freed = s.freed)
    (hholders : ∀ o, s'.ledger.holders o = s.ledger.holders o + [HeapObject.message msg].count o)
    (howns : ∀ thread msg, (s'.sender thread).carrier = some msg → msg ∈ s'.owned thread) :
    s'.Inv := by
  obtain ⟨hmore, hothers⟩ := Ledger.holders_of_gain hholders
  refine ⟨hs.balanced.share hheld (allocated_eq hmessage hdata) hfreed hmore hothers, ?_, ?_, howns⟩
  · intro msg' hmsg'
    rw [hcount, CarrierState.msgRetain]
    dsimp only
    by_cases hsame : msg' = msg
    · subst hsame
      rw [Function.update_self, hmore, hs.counted msg' (hmessage ▸ hmsg')]
      omega
    · rw [Function.update_of_ne hsame, hothers _ (by simpa using hsame)]
      exact hs.counted msg' (hmessage ▸ hmsg')
  · intro data
    rw [hothers _ (by simp)]
    exact hs.single data

/-- Data is copied. -/
theorem memdup (hs : s.Inv) (hmessage : s'.nextMessage = s.nextMessage)
    (hdata : s'.nextData = s.nextData + 1) (hcount : s'.referenceCount = s.referenceCount)
    (hfreed : s'.freed = s.freed)
    (hholders : ∀ o, s'.ledger.holders o =
      s.ledger.holders o + [HeapObject.data s.nextData].count o)
    (howns : ∀ thread msg, (s'.sender thread).carrier = some msg → msg ∈ s'.owned thread) :
    s'.Inv := by
  have hfresh : ¬ s.ledger.allocated (.data s.nextData) := Nat.lt_irrefl _
  obtain ⟨hone, hothers⟩ := Ledger.holders_of_gain hholders
  rw [(hs.balanced.unallocated _ hfresh).1, Nat.zero_add] at hone
  have hallocated : ∀ o, s'.ledger.allocated o ↔ s.ledger.allocated o ∨ o = .data s.nextData := by
    intro o
    cases o with
    | message msg =>
        rw [or_iff_left (by simp)]
        exact iff_of_eq (congrArg (msg < ·) hmessage)
    | data data =>
        rw [HeapObject.data.injEq]
        change data < s'.nextData ↔ data < s.nextData ∨ data = s.nextData
        omega
  refine ⟨hs.balanced.create hfresh hfreed hallocated hone hothers, ?_, ?_, howns⟩
  · intro msg hmsg
    rw [hcount, hothers _ (by simp)]
    exact hs.counted msg (hmessage ▸ hmsg)
  · intro data
    by_cases hsame : data = s.nextData
    · rw [hsame, hone]
    · rw [hothers _ (by simpa using hsame)]
      exact hs.single data

/-- A message is allocated. -/
theorem msgInit (hs : s.Inv) (hmessage : s'.nextMessage = s.nextMessage + 1)
    (hdata : s'.nextData = s.nextData)
    (hcount : s'.referenceCount = Function.update s.referenceCount s.nextMessage 1)
    (hfreed : s'.freed = s.freed)
    (hholders : ∀ o, s'.ledger.holders o =
      s.ledger.holders o + [HeapObject.message s.nextMessage].count o)
    (howns : ∀ thread msg, (s'.sender thread).carrier = some msg → msg ∈ s'.owned thread) :
    s'.Inv := by
  have hfresh : ¬ s.ledger.allocated (.message s.nextMessage) := Nat.lt_irrefl _
  obtain ⟨hone, hothers⟩ := Ledger.holders_of_gain hholders
  rw [(hs.balanced.unallocated _ hfresh).1, Nat.zero_add] at hone
  have hallocated : ∀ o, s'.ledger.allocated o ↔
      s.ledger.allocated o ∨ o = .message s.nextMessage := by
    intro o
    cases o with
    | message msg =>
        rw [HeapObject.message.injEq]
        change msg < s'.nextMessage ↔ msg < s.nextMessage ∨ msg = s.nextMessage
        omega
    | data data =>
        rw [or_iff_left (by simp)]
        exact iff_of_eq (congrArg (data < ·) hdata)
  refine ⟨hs.balanced.create hfresh hfreed hallocated hone hothers, ?_, ?_, howns⟩
  · intro msg hmsg
    rw [hcount]
    by_cases hsame : msg = s.nextMessage
    · rw [hsame, Function.update_self, hone]
      rfl
    · rw [Function.update_of_ne hsame, hothers _ (by simpa using hsame)]
      exact hs.counted msg (by omega)
  · intro data
    rw [hothers _ (by simp)]
    exact hs.single data

end Inv

theorem owns_update {c : Sender} (hs : s.Inv)
    (hc : ∀ msg, c.carrier = some msg → msg ∈ s.owned thread) (u : T) (msg : ℕ)
    (h : (Function.update s.sender thread c u).carrier = some msg) : msg ∈ s.owned u := by
  by_cases hu : u = thread
  · subst hu
    rw [Function.update_self] at h
    exact hc msg h
  · rw [Function.update_of_ne hu] at h
    exact hs.owns u msg h

theorem owns_update_owned (hs : s.Inv) (hsender : s.sender thread = .idle) (msgs : List ℕ) (u : T)
    (msg : ℕ) (h : (s.sender u).carrier = some msg) :
    msg ∈ Function.update s.owned thread msgs u := by
  by_cases hu : u = thread
  · subst hu
    rw [hsender] at h
    exact absurd h.symm (Option.some_ne_none msg)
  · rw [Function.update_of_ne hu]
    exact hs.owns u msg h

omit [Fintype T] [DecidableEq T] in
/-- Releasing a package leaves the threads and the queues as they are. -/
theorem release_frame (s : CarrierState T) (pack : Package) :
    (s.release pack).nextMessage = s.nextMessage ∧ (s.release pack).nextData = s.nextData ∧
      (s.release pack).owned = s.owned ∧ (s.release pack).sender = s.sender ∧
      (s.release pack).queue = s.queue ∧ (s.release pack).consumer = s.consumer := by
  obtain ⟨carrier, data⟩ := pack
  cases carrier with
  | some msg => exact ⟨rfl, rfl, rfl, rfl, rfl, rfl⟩
  | none => cases data <;> exact ⟨rfl, rfl, rfl, rfl, rfl, rfl⟩

namespace Inv

theorem setSender {c : Sender} (hs : s.Inv)
    (hhand : (s.sender thread).inHand = c.inHand)
    (hc : ∀ msg, c.carrier = some msg → msg ∈ s.owned thread) : (s.setSender thread c).Inv := by
  refine hs.congr rfl rfl rfl rfl (fun o => ?_) (owns_update hs hc)
  have hholders := holders_of_sender s (s.setSender thread c) rfl rfl rfl rfl o
  rw [hhand] at hholders
  omega

omit [DecidableEq T] in
theorem carrier_mem {c : Sender} (hs : s.Inv) (hsender : s.sender thread = c) (msg : ℕ)
    (h : c.carrier = some msg) : msg ∈ s.owned thread :=
  hs.owns thread msg (hsender ▸ h)

omit [DecidableEq T] in
theorem holders_pos {msg : ℕ} (h : msg ∈ s.owned thread) :
    0 < s.ledger.holders (.message msg) :=
  Ledger.holders_pos_of_mem (i := .inl (.inl thread)) (List.mem_map_of_mem h)

theorem pack_step {a : SendArgs} {queue : MetadataQueue} {rest : List MetadataQueue} (hs : s.Inv)
    (hsender : s.sender thread = .sending a (queue :: rest)) :
    ((s.makePackage a).2.setSender thread (.adding a (s.makePackage a).1 queue rest)).Inv := by
  have hmem : ∀ msg, a.carrier = some msg → msg ∈ s.owned thread := hs.carrier_mem hsender
  have hholders (s' : CarrierState T) (pack : Package) (howned : s'.owned = s.owned)
      (hs' : s'.sender = Function.update s.sender thread (.adding a pack queue rest))
      (hqueue : s'.queue = s.queue) (hconsumer : s'.consumer = s.consumer) (o : HeapObject) :
      s'.ledger.holders o = s.ledger.holders o + pack.objects.count o := by
    have h := holders_of_sender s s' howned hs' hqueue hconsumer o
    rw [hsender] at h
    simpa [Sender.inHand] using h
  have howns (pack : Package) := owns_update (c := .adding a pack queue rest) hs hmem
  obtain ⟨carrier, data⟩ := a
  cases carrier with
  | some msg =>
      exact hs.msgRetain (holders_pos (hmem msg rfl)) rfl rfl rfl rfl
        (hholders _ ⟨some msg, none⟩ rfl rfl rfl rfl) (howns _)
  | none =>
      cases data with
      | true =>
          exact hs.memdup rfl rfl rfl rfl (hholders _ ⟨none, some _⟩ rfl rfl rfl rfl) (howns _)
      | false =>
          exact hs.congr rfl rfl rfl rfl (hholders _ ⟨none, none⟩ rfl rfl rfl rfl) (howns _)

theorem drop_step {a : SendArgs} {rest : List MetadataQueue} (hs : s.Inv)
    (hsender : s.sender thread = .refused a pack rest) :
    ((s.release pack).setSender thread (.sending a rest)).Inv := by
  obtain ⟨hmessage, hdata, howned, hsend, hqueue, hconsumer⟩ := release_frame s pack
  have hmem : ∀ msg, a.carrier = some msg → msg ∈ s.owned thread := hs.carrier_mem hsender
  have hsame : ((s.release pack).setSender thread (.sending a rest)).sender =
      Function.update s.sender thread (.sending a rest) := by
    rw [← hsend]
    rfl
  refine hs.release hmessage hdata rfl rfl (fun o => ?_) fun u msg h => ?_
  · have h := holders_of_sender s ((s.release pack).setSender thread (.sending a rest)) howned hsame
      hqueue hconsumer o
    rw [hsender] at h
    simpa [Sender.inHand] using h
  · rw [hsame] at h
    have hmsg := owns_update (c := .sending a rest) hs hmem u msg h
    exact howned.symm ▸ hmsg

theorem cleanup_step {queue : MetadataQueue} (hs : s.Inv) (hpack : s.consumer queue = some pack) :
    CarrierState.Inv
      { s.release pack with consumer := Function.update s.consumer queue none } := by
  obtain ⟨hmessage, hdata, howned, hsend, hqueue, -⟩ := release_frame s pack
  refine hs.release hmessage hdata rfl rfl
    (holders_of_consumer hsend howned hqueue rfl hpack) fun u msg h => ?_
  have hmem := hs.owns u msg (hsend ▸ h)
  exact howned.symm ▸ hmem

theorem msgInit_step (hs : s.Inv) (hsender : s.sender thread = .idle) :
    CarrierState.Inv { s with
      nextMessage := s.nextMessage + 1
      referenceCount := Function.update s.referenceCount s.nextMessage 1
      owned := Function.update s.owned thread (s.nextMessage :: s.owned thread) } := by
  exact hs.msgInit rfl rfl rfl rfl (holders_of_cons rfl rfl rfl rfl)
    (owns_update_owned hs hsender _)

theorem msgFree_step {msg : ℕ} (hs : s.Inv) (hsender : s.sender thread = .idle)
    (hmsg : msg ∈ s.owned thread) :
    CarrierState.Inv { s.msgFree msg with
      owned := Function.update s.owned thread ((s.owned thread).erase msg) } := by
  exact hs.msgFree rfl rfl rfl rfl (holders_of_erase hmsg rfl rfl rfl rfl)
    (owns_update_owned hs hsender _)

theorem add_step {a : SendArgs} {queue : MetadataQueue} {rest : List MetadataQueue} (hs : s.Inv)
    (hsender : s.sender thread = .adding a pack queue rest) :
    CarrierState.Inv { s.setSender thread (.sending a rest) with
      queue := Function.update s.queue queue (s.queue queue ++ [pack]) } := by
  have hmem : ∀ msg, a.carrier = some msg → msg ∈ s.owned thread := hs.carrier_mem hsender
  exact hs.congr rfl rfl rfl rfl (holders_of_add rfl rfl rfl rfl (hsender ▸ rfl) rfl)
    (owns_update (c := .sending a rest) hs hmem)

theorem getItem_step {queue : MetadataQueue} {rest : List Package} (hs : s.Inv)
    (hidle : s.consumer queue = none) (hpack : s.queue queue = pack :: rest) :
    CarrierState.Inv { s with
      queue := Function.update s.queue queue rest
      consumer := Function.update s.consumer queue (some pack) } :=
  hs.congr rfl rfl rfl rfl (holders_of_getItem rfl rfl rfl rfl hpack hidle) hs.owns

theorem step {cfg : MetadataConfig} {l : CarrierLabel T} (hs : s.Inv)
    (h : s.step cfg l = some s') : s'.Inv := by
  cases l with
  | msgInit thread =>
      rw [CarrierState.step] at h
      split at h
      · rename_i hsender
        exact Option.some.inj h ▸ hs.msgInit_step hsender
      · exact absurd h.symm (Option.some_ne_none s')
  | sendMetadata thread a =>
      rw [CarrierState.step] at h
      split at h
      · rename_i hsender
        split_ifs at h with hmem
        exact Option.some.inj h ▸ hs.setSender (hsender ▸ rfl) hmem
      · exact absurd h.symm (Option.some_ne_none s')
  | pack thread =>
      rw [CarrierState.step] at h
      split at h
      · rename_i hsender
        exact Option.some.inj h ▸ hs.pack_step hsender
      · exact absurd h.symm (Option.some_ne_none s')
  | add thread accepted =>
      rw [CarrierState.step] at h
      split at h
      · rename_i hsender
        split_ifs at h
        · exact Option.some.inj h ▸ hs.add_step hsender
        · have hmem := hs.carrier_mem hsender
          exact Option.some.inj h ▸ hs.setSender (hsender ▸ rfl) hmem
      · exact absurd h.symm (Option.some_ne_none s')
  | drop thread =>
      rw [CarrierState.step] at h
      split at h
      · rename_i hsender
        exact Option.some.inj h ▸ hs.drop_step hsender
      · exact absurd h.symm (Option.some_ne_none s')
  | sent thread =>
      rw [CarrierState.step] at h
      split at h
      · rename_i hsender
        exact Option.some.inj h ▸ hs.setSender (hsender ▸ rfl) fun msg hmsg =>
          absurd hmsg (Option.some_ne_none msg).symm
      · exact absurd h.symm (Option.some_ne_none s')
  | msgFree thread msg =>
      rw [CarrierState.step] at h
      split at h
      · rename_i hsender
        split_ifs at h with hmem
        exact Option.some.inj h ▸ hs.msgFree_step hsender hmem
      · exact absurd h.symm (Option.some_ne_none s')
  | getItem queue =>
      rw [CarrierState.step] at h
      split at h
      · rename_i hidle hpack
        exact Option.some.inj h ▸ hs.getItem_step hidle hpack
      · exact absurd h.symm (Option.some_ne_none s')
  | cleanup queue =>
      rw [CarrierState.step] at h
      split at h
      · rename_i hpack
        exact Option.some.inj h ▸ hs.cleanup_step hpack
      · exact absurd h.symm (Option.some_ne_none s')

omit [DecidableEq T] in
theorem sound (hs : s.Inv) : s.Sound where
  counted := fun msg hmsg => by
    have hcount := hs.counted msg hmsg
    rw [holders_message] at hcount
    exact_mod_cast hcount
  messageFreed := fun msg hmsg => by
    rw [← holders_message]
    exact hs.balanced.allocated (.message msg) hmsg
  dataFreed := fun data hdata => by
    rw [← holders_data]
    exact hs.balanced.allocated (.data data) hdata
  dataSingle := fun data => by
    rw [← holders_data]
    exact hs.single data
  live := fun _ hpack o ho => by
    have hlive := hs.balanced.live (holders_pos_of_package hpack ho)
    exact ⟨hlive.1, hlive.2⟩

end Inv

omit [DecidableEq T] in
theorem inv_init : (init : CarrierState T).Inv := by
  have hnone (o : HeapObject) : (init : CarrierState T).ledger.holders o = 0 := by
    refine Finset.sum_eq_zero fun place _ => ?_
    rcases place with (t | t) | (q | q) <;> rfl
  refine ⟨⟨fun o _ => ⟨hnone o, rfl⟩, ?_⟩, ?_, ?_, ?_⟩
  · intro o ho
    cases o <;> exact absurd ho (Nat.not_lt_zero _)
  · exact fun msg hmsg => absurd hmsg (Nat.not_lt_zero msg)
  · exact fun data => (hnone _).trans_le (Nat.zero_le 1)
  · exact fun _ msg h => absurd h.symm (Option.some_ne_none msg)

end Steps

end CarrierState

/-- However the threads are interleaved and whatever the queues refuse, the reference count of a
message is the number of its owners and of the packages that carry it, in a queue, in process or
still in the hands of their sender; and what was allocated is freed once, when nobody has it any
more. -/
theorem carriers_run_sound {T : Type} [Fintype T] [DecidableEq T] (cfg : MetadataConfig)
    (ls : List (CarrierLabel T)) :
    Throughout (CarrierState.step cfg) CarrierState.Sound (.init : CarrierState T) ls :=
  (throughout_of_invariant (fun _ _ _ hs h => CarrierState.Inv.step hs h)
    CarrierState.inv_init).mono fun _ hs => hs.sound

/-- A package that has been made and is not in a queue yet counts as well. -/
theorem referenceCount_ne_owners_add_queued :
    ¬ ∀ (cfg : MetadataConfig) (ls : List (CarrierLabel Unit)),
      Throughout (CarrierState.step cfg) (fun s => ∀ msg < s.nextMessage,
        s.referenceCount msg = s.owners msg + s.queued (.message msg)) .init ls := by
  intro h
  have hcount := h ⟨true, true, true⟩ [.msgInit (), .sendMetadata () ⟨some 0, false⟩, .pack ()]
  revert hcount
  decide

end Metadata

end ShairportSync
