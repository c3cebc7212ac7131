import ShairportSync.Rtsp.Triple
import ShairportSync.Transition.Run

/-!
# Sessions

The program as a pool of conversation threads. The listener accepts connections and
reaps those that are over; a waiting conversation thread takes a request or leaves its
loop; a thread takes its next action; a thread that has been cancelled goes to its
clean-up, wherever it is; a watchdog that has waited too long cancels its connection. A
run is any sequence of these.
-/

namespace ShairportSync

namespace Rtsp

open Concurrency Transition

abbrev Threads := Pool ConnId Shared

inductive Label where
  /-- The listener accepts a connection, starts its thread and tracks it. -/
  | accept
  /-- A waiting conversation thread reads a request. -/
  | request (c : ConnId) (req : Request)
  /-- A conversation thread takes its next action. -/
  | act (c : ConnId)
  /-- A waiting conversation thread leaves its loop: it has been asked to stop, or the
  client has closed the connection, or reading or writing has failed. -/
  | leave (c : ConnId)
  /-- A conversation thread that has been cancelled goes to its clean-up. -/
  | cancelled (c : ConnId)
  /-- The watchdog of a connection barks. -/
  | watchdog (c : ConnId)
  /-- The listener finds an entry of `conns` that is over, in `cleanup_threads`. -/
  | reap (i : ℕ)

/-- A new connection record, filled with zeroes. -/
def OwnFields.fresh (cfg : Config) : OwnFields where
  stage := .conversing
  airplayType := if cfg.airplay2 then .ap2 else .ap1
  airplayStreamCategory := .unspecifiedStreamCategory
  playerThread := false
  stream :=
    { type := .astUnknown
      encrypted := false
      aesiv := List.replicate 16 0
      aeskey := List.replicate 16 0
      fmtp := List.replicate 12 0 }
  maxFramesPerPacket := 0
  inputRate := 0
  inputNumChannels := 0
  inputBitDepth := 0
  inputBytesPerFrame := 0
  minimumLatency := 0
  maximumLatency := 0

def Conn.fresh (cfg : Config) : Conn where
  own := .fresh cfg
  stop := false
  running := true
  cancelRequested := false
  freed := false

/-- `track_thread`: the first empty entry, or a new one at the end. -/
def trackThread (c : ConnId) : List (Option ConnId) → List (Option ConnId)
  | [] => [some c]
  | none :: conns => some c :: conns
  | some d :: conns => some d :: trackThread c conns

/-- The listener's connection record, and its entry in the table. -/
def Shared.accept (cfg : Config) (s : Shared) : Shared :=
  { s.setConn s.rtspConnectionIndex (.fresh cfg) with
    connTable := trackThread s.rtspConnectionIndex s.connTable
    rtspConnectionIndex := s.rtspConnectionIndex + 1 }

def isWaiting : Prog Shared Unit → Bool
  | .done _ => true
  | .atomic _ _ => false

/-- The conversation thread goes to its clean-up. -/
def Shared.startLeaving (s : Shared) (c : ConnId) : Shared :=
  s.setOwn c { (s.conns c).own with stage := .leaving }

/-- The watchdog of a connection only looks at classic sessions. -/
def watched (cfg : Config) (own : OwnFields) : Bool :=
  (decide (own.stage = .conversing) || decide (own.stage = .leaving)) && cfg.classic own

def step (cfg : Config) (threads : Threads) : Label → Option Threads
  | .accept =>
      if threads.shared.connsLocked then none
      else some (threads.assign threads.shared.rtspConnectionIndex (pure ())
        (threads.shared.accept cfg))
  | .request c req =>
      if (threads.shared.conns c).own.stage = .conversing ∧ isWaiting (threads.thread c) ∧
          ¬ (threads.shared.conns c).stop then
        some (threads.assign c (handleRequest cfg c req) threads.shared)
      else none
  | .act c => threads.act c
  | .leave c =>
      if (threads.shared.conns c).own.stage = .conversing ∧ isWaiting (threads.thread c) then
        some (threads.assign c (conversationCleanup cfg c) (threads.shared.startLeaving c))
      else none
  | .cancelled c =>
      if (threads.shared.conns c).own.stage = .conversing ∧
          (threads.shared.conns c).cancelRequested then
        some (threads.assign c (conversationCleanup cfg c) (threads.shared.startLeaving c))
      else none
  | .watchdog c =>
      if watched cfg (threads.shared.conns c).own then
        some { threads with shared := threads.shared.askToStop c }
      else none
  | .reap i =>
      match threads.shared.slot i with
      | none => none
      | some d =>
          if ¬ threads.shared.connsLocked ∧ ¬ (threads.shared.conns d).running ∧
              (threads.shared.conns d).own.stage = .exited then
            some { threads with shared := threads.shared.freeSlot i d }
          else none

def Conn.unborn (cfg : Config) : Conn :=
  { Conn.fresh cfg with
    own := { OwnFields.fresh cfg with stage := .unborn }
    running := false }

def start (cfg : Config) : Threads where
  shared :=
    { playingConn := none
      conns := fun _ => .unborn cfg
      connTable := []
      connsLocked := false
      rtspConnectionIndex := 1 }
  thread := fun _ => pure ()

/-- An ANNOUNCE with a format and no keys. -/
def AnnounceContent.plain : AnnounceContent where
  uncompressedCDAudio := true
  minLatency := none
  maxLatency := none
  aesiv := none
  aeskey := none
  fmtp := none

def startPlaying (c : ConnId) : List Label :=
  [.request c (.announce .plain)] ++ List.replicate 3 (.act c) ++
    [.request c .record] ++ List.replicate 3 (.act c)

/-! ## Steps -/

section Steps

variable {cfg : Config} {threads threads' : Threads} {c : ConnId}

/-- What the listener and the watchdogs do to the shared state. -/
inductive Housekeeping (cfg : Config) (s : Shared) : Shared → Prop where
  | watchdog (c : ConnId) : Housekeeping cfg s (s.askToStop c)
  | reap (i : ℕ) (d : ConnId) (hexited : (s.conns d).own.stage = .exited) :
      Housekeeping cfg s (s.freeSlot i d)

/-- A step is a change of the shared state by the listener or a watchdog, or an action of one
thread, or it gives a thread something new to do: nothing yet, a request, or its
clean-up. -/
theorem step_cases {l : Label} (h : step cfg threads l = some threads') :
    (∃ t, Housekeeping cfg threads.shared t ∧ threads' = { threads with shared := t }) ∨
    (∃ c, threads.act c = some threads') ∨
    threads' = threads.assign threads.shared.rtspConnectionIndex (pure ())
      (threads.shared.accept cfg) ∨
    (∃ c req, l = .request c req ∧ (threads.shared.conns c).own.stage = .conversing ∧
      threads' = threads.assign c (handleRequest cfg c req) threads.shared) ∨
    (∃ c, (l = .leave c ∨ l = .cancelled c) ∧
      (threads.shared.conns c).own.stage = .conversing ∧
      threads' = threads.assign c (conversationCleanup cfg c)
        (threads.shared.startLeaving c)) := by
  cases l with
  | accept =>
      dsimp only [step] at h
      split_ifs at h
      exact Or.inr (Or.inr (Or.inl (Option.some.inj h).symm))
  | request c req =>
      dsimp only [step] at h
      split_ifs at h with hready
      exact Or.inr (Or.inr (Or.inr (Or.inl ⟨c, req, rfl, hready.1, (Option.some.inj h).symm⟩)))
  | act c => exact Or.inr (Or.inl ⟨c, h⟩)
  | leave c =>
      dsimp only [step] at h
      split_ifs at h with hready
      exact Or.inr (Or.inr (Or.inr (Or.inr
        ⟨c, Or.inl rfl, hready.1, (Option.some.inj h).symm⟩)))
  | cancelled c =>
      dsimp only [step] at h
      split_ifs at h with hready
      exact Or.inr (Or.inr (Or.inr (Or.inr
        ⟨c, Or.inr rfl, hready.1, (Option.some.inj h).symm⟩)))
  | watchdog c =>
      dsimp only [step] at h
      split_ifs at h
      exact Or.inl ⟨_, .watchdog c, (Option.some.inj h).symm⟩
  | reap i =>
      dsimp only [step] at h
      split at h
      · exact absurd h.symm (Option.some_ne_none threads')
      · rename_i d hslot
        split_ifs at h with hready
        exact Or.inl ⟨_, .reap i d hready.2.2, (Option.some.inj h).symm⟩

theorem Housekeeping.gains {s t : Shared} (h : Housekeeping cfg s t) (c : ConnId) :
    Gains c s t := by
  cases h with
  | watchdog d => exact gains_setConn c d s rfl rfl
  | reap i d hexited => exact gains_freeSlot i hexited

theorem Housekeeping.rely {s t : Shared} (h : Housekeeping cfg s t) (c : ConnId) :
    Rely c s t := by
  cases h with
  | watchdog d => exact view_setConn s d c rfl
  | reap i d hexited => exact view_setConn s d c rfl

theorem view_accept_of_ne {s : Shared} (hc : c ≠ s.rtspConnectionIndex) :
    (s.accept cfg).view c = s.view c :=
  view_setConn_of_ne hc s _

theorem accept_conns_of_ne {s : Shared} (hc : c ≠ s.rtspConnectionIndex) :
    (s.accept cfg).conns c = s.conns c :=
  setConn_conns_of_ne hc s _

theorem accept_conns_self (s : Shared) :
    (s.accept cfg).conns s.rtspConnectionIndex = .fresh cfg :=
  setConn_conns_self s _ _

/-- Another thread, the listener or a watchdog leaves the view of a connection, and frees it
only if it is over. -/
structure Others (c : ConnId) (s t : Shared) : Prop where
  rely : Rely c s t
  freed : (t.conns c).freed = true → (s.conns c).freed = true ∨ (s.conns c).own.stage = .exited

theorem Frame.others {c d : ConnId} {s t : Shared} (h : Frame c s t) (hd : d ≠ c) :
    Others d s t :=
  ⟨h.rely hd, h.freed d⟩

/-- What a run keeps: the threads are guarded, and a condition on every connection. -/
structure Safe (G : View → View → Prop) (I : ConnId → Shared → Prop) (threads : Threads) :
    Prop where
  guarded : threads.Guarded Rely (Guarantee G)
  holds : ∀ c, I c threads.shared

/-- What a step may do to a connection preserves a condition on it. -/
structure Preserved (cfg : Config) (G : View → View → Prop) (I : ConnId → Shared → Prop) :
    Prop where
  own : ∀ c s t, Guarantee G c s t → I c s → I c t
  others : ∀ c s t, Others c s t → I c s → I c t
  accept : ∀ s : Shared, I s.rtspConnectionIndex (s.accept cfg)
  startLeaving : ∀ (c : ConnId) (s : Shared), (s.view c).own.stage = .conversing → I c s →
    I c (s.startLeaving c)

variable {G : View → View → Prop} {I : ConnId → Shared → Prop}

def View.leaving (v : View) : View := ⟨{ v.own with stage := .leaving }, v.hasPlayer⟩

theorem view_startLeaving (s : Shared) (c : ConnId) :
    (s.startLeaving c).view c = (s.view c).leaving :=
  view_setOwn_self s c _

/-- A step keeps the threads safe, if what it gives a thread to do changes the view of the
connection only as it may. -/
theorem Safe.step (hI : Preserved cfg G I) (h : Safe G I threads) {l : Label}
    (hrequest : ∀ c req, l = .request c req →
      (threads.shared.view c).own.stage = .conversing →
      Does G c (handleRequest cfg c req) (threads.shared.view c) fun _ _ => True)
    (hcleanup : ∀ c, l = .leave c ∨ l = .cancelled c →
      (threads.shared.view c).own.stage = .conversing →
      Does G c (conversationCleanup cfg c) (threads.shared.view c).leaving fun _ _ => True)
    (hstep : Rtsp.step cfg threads l = some threads') : Safe G I threads' := by
  rcases step_cases hstep with ⟨t, ht, rfl⟩ | ⟨c, hact⟩ | rfl | ⟨c, req, hl, hstage, rfl⟩ |
    ⟨c, hl, hstage, rfl⟩
  · exact ⟨h.guarded.interfere rely_trans fun c => ht.rely c,
      fun c => hI.others c _ _ ⟨ht.rely c, (ht.gains c).freed c⟩ (h.holds c)⟩
  · obtain ⟨hG, hguarded⟩ := h.guarded.act rely_refl rely_trans
      (fun i j s t hj hG => hG.1.rely hj) hact
    refine ⟨hguarded, fun d => ?_⟩
    by_cases hd : d = c
    · subst hd
      exact hI.own d _ _ hG (h.holds d)
    · exact hI.others d _ _ (hG.1.others hd) (h.holds d)
  · refine ⟨h.guarded.assign rely_trans (assures_pure fun _ _ => trivial)
      fun d hd => view_accept_of_ne hd, fun d => ?_⟩
    by_cases hd : d = threads.shared.rtspConnectionIndex
    · subst hd
      exact hI.accept threads.shared
    · refine hI.others d _ _ ⟨view_accept_of_ne hd, fun hfreed => Or.inl ?_⟩ (h.holds d)
      exact (congrArg Conn.freed (accept_conns_of_ne hd)).symm.trans hfreed
  · exact ⟨h.guarded.assign rely_trans
      ((hrequest c req hl hstage).assures (keeps_handleRequest_frame cfg c req)) fun d _ =>
        rely_refl d _, h.holds⟩
  · have hdoes := hcleanup c hl hstage
    rw [← view_startLeaving] at hdoes
    have hframe : Frame c threads.shared (threads.shared.startLeaving c) := frame_setOwn c _ _
    refine ⟨h.guarded.assign rely_trans (hdoes.assures (keeps_conversationCleanup cfg c))
      fun d hd => hframe.rely hd, fun d => ?_⟩
    by_cases hd : d = c
    · subst hd
      exact hI.startLeaving d _ hstage (h.holds d)
    · exact hI.others d _ _ (hframe.others hd) (h.holds d)

theorem safe_start (h : ∀ c, I c (start cfg).shared) : Safe G I (start cfg) :=
  ⟨fun _ => assures_pure fun _ _ => trivial, h⟩

end Steps

end Rtsp

end ShairportSync
