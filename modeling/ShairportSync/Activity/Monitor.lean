import Mathlib.Data.Fintype.Basic
import Mathlib.Data.List.Chain
import ShairportSync.Transition.Run

/-!
# The activity monitor

`activity_monitor_signify_activity` may be called by any thread. Under the mutex it notes whether
the player is active and decides if the program is going active or, when there is no timeout,
inactive; it runs the hook after it has given the mutex up, and signals the monitor thread at its
end. The monitor thread waits for the player to become inactive, lets a timeout pass and then runs
the hook of going inactive, without the mutex too.

What happens under the mutex is one step here. A hook has its parts in the order of the source, and
each of them is a step. A wait may return at any time, signalled or not, and a timeout may be over
at any time. A thread is not cancelled while it makes a call.
-/

namespace ShairportSync

namespace Activity

open Transition

/-! ## The threads -/

inductive AmState where
  | inactive
  | active
  | timingOut
deriving DecidableEq

inductive PsState where
  | inactive
  | active
deriving DecidableEq

theorem PsState.eq_inactive {playerState : PsState} (h : playerState ≠ .active) :
    playerState = .inactive := by
  cases playerState with
  | inactive => rfl
  | active => exact absurd rfl h

inductive HookAction where
  | goingActive
  | goingInactive
deriving DecidableEq

/-- What a hook does: the command is executed, the metadata sent, the D-Bus property set, and the
output told to stay busy or not. -/
inductive HookPart where
  | command
  | metadata
  | dbus
  | standby
deriving DecidableEq

instance : Fintype HookPart where
  elems := {.command, .metadata, .dbus, .standby}
  complete := fun part => by cases part <;> decide

structure HookEffect where
  action : HookAction
  part : HookPart
deriving DecidableEq

/-- `going_active` or `going_inactive`, in order. -/
def HookAction.effects (action : HookAction) : List HookEffect :=
  [⟨action, .command⟩, ⟨action, .metadata⟩, ⟨action, .dbus⟩, ⟨action, .standby⟩]

/-- Whether `active_state_timeout` is zero, and whether the standby mode is automatic. -/
structure ActivityConfig where
  timeoutIsZero : Bool
  standbyAuto : Bool

/-- Where a thread is: in no call, or in a call of `activity_monitor_signify_activity` with the rest
of the hook before it and then the signal. -/
inductive Caller where
  | idle
  | running (rest : List HookEffect)
deriving DecidableEq

/-- Where the monitor thread is: at the `switch` with the mutex, in one of its waits, where it may
have been signalled, or in the hook. -/
inductive Monitor where
  | switch
  | awaitActive (signalled : Bool)
  | awaitInactive (signalled : Bool)
  | timedWait
  | hook (rest : List HookEffect)
deriving DecidableEq

/-- The state of the monitor, the threads `T` that make calls, and what has been signified and done
so far. -/
structure ActivityState (T : Type) where
  state : AmState
  playerState : PsState
  keepDacBusy : Bool
  caller : T → Caller
  monitor : Monitor
  signified : List PsState
  log : HookPart → List HookAction

inductive ActivityLabel (T : Type) where
  | signify (thread : T) (active : Int)
  | effect (thread : T)
  | signal (thread : T)
  | switch
  | wake
  | timeout
  | monitorEffect
  | relock

def Caller.rest : Caller → List HookEffect
  | .idle => []
  | .running rest => rest

namespace Monitor

def rest : Monitor → List HookEffect
  | .hook rest => rest
  | _ => []

def InAwaitActive : Monitor → Prop
  | .awaitActive _ => True
  | _ => False

instance : DecidablePred InAwaitActive
  | .awaitActive _ => isTrue trivial
  | .switch => isFalse not_false
  | .awaitInactive _ => isFalse not_false
  | .timedWait => isFalse not_false
  | .hook _ => isFalse not_false

/-- In a wait without a timeout, and not about to wake up. -/
def Asleep : Monitor → Prop
  | .awaitActive signalled => signalled = false
  | .awaitInactive signalled => signalled = false
  | _ => False

instance : DecidablePred Asleep
  | .awaitActive signalled => inferInstanceAs (Decidable (signalled = false))
  | .awaitInactive signalled => inferInstanceAs (Decidable (signalled = false))
  | .switch => isFalse not_false
  | .timedWait => isFalse not_false
  | .hook _ => isFalse not_false

/-- `pthread_cond_signal`: a thread that waits will wake up. -/
def signal : Monitor → Monitor
  | .awaitActive _ => .awaitActive true
  | .awaitInactive _ => .awaitInactive true
  | monitor => monitor

theorem rest_signal (monitor : Monitor) : monitor.signal.rest = monitor.rest := by
  cases monitor <;> rfl

end Monitor

namespace ActivityState

variable {T : Type}

def init : ActivityState T where
  state := .inactive
  playerState := .inactive
  keepDacBusy := false
  caller := fun _ => .idle
  monitor := .awaitActive false
  signified := []
  log := fun _ => []

def perform (cfg : ActivityConfig) (s : ActivityState T) (e : HookEffect) : ActivityState T :=
  { s with
    log := Function.update s.log e.part (s.log e.part ++ [e.action])
    keepDacBusy :=
      if e.part = .standby ∧ cfg.standbyAuto then decide (e.action = .goingActive)
      else s.keepDacBusy }

/-- `activity_monitor_signify_activity` while it has the mutex, with the hook it is going to run. -/
def signifyActivity (cfg : ActivityConfig) (s : ActivityState T) (active : Int) :
    ActivityState T × List HookEffect :=
  let playerState := if active = 0 then .inactive else .active
  let s := { s with playerState := playerState, signified := s.signified ++ [playerState] }
  if s.state = .inactive ∧ s.playerState = .active then
    ({ s with state := .active }, HookAction.goingActive.effects)
  else if s.state = .active ∧ s.playerState = .inactive ∧ cfg.timeoutIsZero then
    ({ s with state := .inactive }, HookAction.goingInactive.effects)
  else (s, [])

/-- `activity_monitor_thread_code` from the `switch` to the end of the case or to its wait. -/
def switch (s : ActivityState T) : ActivityState T :=
  match s.state with
  | .inactive =>
      if s.playerState = .active then s else { s with monitor := .awaitActive false }
  | .active =>
      if s.playerState = .inactive then { s with state := .timingOut }
      else { s with monitor := .awaitInactive false }
  | .timingOut =>
      if s.playerState = .active then { s with state := .active }
      else { s with monitor := .timedWait }

variable [DecidableEq T]

def step (cfg : ActivityConfig) (s : ActivityState T) :
    ActivityLabel T → Option (ActivityState T)
  | .signify thread active =>
      match s.caller thread, s.monitor with
      | .idle, .switch => none
      | .idle, _ =>
          let (s, hook) := s.signifyActivity cfg active
          some { s with caller := Function.update s.caller thread (.running hook) }
      | _, _ => none
  | .effect thread =>
      match s.caller thread with
      | .running (e :: rest) =>
          some { s.perform cfg e with caller := Function.update s.caller thread (.running rest) }
      | _ => none
  | .signal thread =>
      match s.caller thread, s.monitor with
      | .running [], .switch => none
      | .running [], monitor =>
          some { s with
            caller := Function.update s.caller thread .idle
            monitor := monitor.signal }
      | _, _ => none
  | .switch =>
      match s.monitor with
      | .switch => some s.switch
      | _ => none
  | .wake =>
      match s.monitor with
      | .awaitActive _ =>
          if s.playerState = .active then some { s with monitor := .switch }
          else some { s with monitor := .awaitActive false }
      | .awaitInactive _ =>
          if s.playerState = .inactive then
            some { s with
              state := if s.state = .inactive then .inactive else .timingOut
              monitor := .switch }
          else some { s with monitor := .awaitInactive false }
      | .timedWait =>
          if s.playerState = .active then some { s with state := .active, monitor := .switch }
          else some s
      | _ => none
  | .timeout =>
      match s.monitor with
      | .timedWait =>
          if s.playerState = .active then some { s with state := .active, monitor := .switch }
          else
            some { s with
              state := .inactive
              monitor := .hook HookAction.goingInactive.effects }
      | _ => none
  | .monitorEffect =>
      match s.monitor with
      | .hook (e :: rest) => some { s.perform cfg e with monitor := .hook rest }
      | _ => none
  | .relock =>
      match s.monitor with
      | .hook [] => some { s with monitor := .switch }
      | _ => none

end ActivityState

/-! ## What the hooks are to do -/

/-- Each action differs from the one before it, and the first is going active. -/
def Alternating (actions : List HookAction) : Prop :=
  (HookAction.goingInactive :: actions).IsChain (· ≠ ·)

instance : DecidablePred Alternating := fun actions =>
  inferInstanceAs (Decidable ((HookAction.goingInactive :: actions).IsChain (· ≠ ·)))

def lastAction (actions : List HookAction) : HookAction := actions.getLast?.getD .goingInactive

def AmState.action : AmState → HookAction
  | .inactive => .goingInactive
  | _ => .goingActive

theorem AmState.action_of_ne {state : AmState} (h : state ≠ .inactive) :
    state.action = .goingActive := by
  cases state with
  | inactive => exact absurd rfl h
  | active => rfl
  | timingOut => rfl

namespace ActivityState

variable {T : Type}

/-- No hook that has been decided on is still to be run, or being run. -/
def HooksDone (s : ActivityState T) : Prop :=
  (∀ thread, (s.caller thread).rest = []) ∧ s.monitor.rest = []

/-- No call is in progress and no timeout is pending, nor is the monitor thread about to wake up. -/
def Quiescent (s : ActivityState T) : Prop :=
  (∀ thread, s.caller thread = .idle) ∧ s.monitor.Asleep

def lastSignified (s : ActivityState T) : PsState := s.signified.getLast?.getD .inactive

/-- The last action is the one that led to the state, and the state that of the last signified
activity. -/
structure Agrees (cfg : ActivityConfig) (s : ActivityState T) : Prop where
  executed : ∀ part, lastAction (s.log part) = .goingActive ↔ s.state = .active
  busy : cfg.standbyAuto → (s.keepDacBusy = true ↔ s.state = .active)
  signified : s.lastSignified = .active ↔ s.state = .active

/-- Every part of the hooks alternates, and all agrees whenever nothing is going on. -/
structure Sound (cfg : ActivityConfig) (s : ActivityState T) : Prop where
  alternating : ∀ part, Alternating (s.log part)
  executed : s.HooksDone → ∀ part, lastAction (s.log part) = s.state.action
  agrees : s.Quiescent → s.Agrees cfg

def Decides (cfg : ActivityConfig) (s : ActivityState T) (active : Int) : Prop :=
  s.state = .inactive ∧ active ≠ 0 ∨ s.state = .active ∧ active = 0 ∧ cfg.timeoutIsZero

/-- The call leaves a timeout to a monitor thread that has not yet seen the player become active. -/
def Unseen (cfg : ActivityConfig) (s : ActivityState T) (active : Int) : Prop :=
  s.state = .active ∧ active = 0 ∧ ¬ cfg.timeoutIsZero ∧ s.monitor.InAwaitActive

/-- No hook is decided on before the one decided on before it is done, and no timeout is left to a
monitor thread that is still in its wait for an active player. -/
def Orderly (cfg : ActivityConfig) (s : ActivityState T) : ActivityLabel T → Prop
  | .signify _ active => (s.Decides cfg active → s.HooksDone) ∧ ¬ s.Unseen cfg active
  | .timeout => s.playerState = .inactive → s.HooksDone
  | _ => True

section Decidable

variable [Fintype T] (cfg : ActivityConfig) (s : ActivityState T) (active : Int)

instance : Decidable s.HooksDone :=
  inferInstanceAs (Decidable (_ ∧ _))

instance : Decidable s.Quiescent :=
  inferInstanceAs (Decidable (_ ∧ _))

instance : Decidable (s.Decides cfg active) :=
  inferInstanceAs (Decidable (_ ∨ _))

instance : Decidable (s.Unseen cfg active) :=
  inferInstanceAs (Decidable (_ ∧ _))

instance : DecidablePred (s.Orderly cfg)
  | .signify _ active =>
      inferInstanceAs (Decidable ((s.Decides cfg active → s.HooksDone) ∧ ¬ s.Unseen cfg active))
  | .timeout => inferInstanceAs (Decidable (s.playerState = .inactive → s.HooksDone))
  | .effect _ => isTrue trivial
  | .signal _ => isTrue trivial
  | .switch => isTrue trivial
  | .wake => isTrue trivial
  | .monitorEffect => isTrue trivial
  | .relock => isTrue trivial

end Decidable

end ActivityState

theorem alternating_append_singleton {actions : List HookAction} {action : HookAction} :
    Alternating (actions ++ [action]) ↔ Alternating actions ∧ lastAction actions ≠ action := by
  rw [Alternating, ← List.cons_append, List.isChain_append, List.getLast?_cons]
  simp [Alternating, lastAction]

@[simp] theorem lastAction_append_singleton {actions : List HookAction} {action : HookAction} :
    lastAction (actions ++ [action]) = action := by
  rw [lastAction, List.getLast?_concat, Option.getD_some]

theorem HookAction.nodup_effects (action : HookAction) : action.effects.Nodup := by
  simp [HookAction.effects]

theorem HookAction.mem_effects (action : HookAction) (part : HookPart) :
    ⟨action, part⟩ ∈ action.effects := by
  cases part <;> simp [HookAction.effects]

theorem HookAction.action_of_mem {action : HookAction} {e : HookEffect} (h : e ∈ action.effects) :
    e.action = action := by
  rcases (by simpa [HookAction.effects] using h) with rfl | rfl | rfl | rfl <;> rfl

/-! ## One hook at a time -/

/-- Who runs hooks. -/
inductive Runner (T : Type) where
  | caller (thread : T)
  | monitor

namespace ActivityState

variable {T : Type}

def remaining (s : ActivityState T) : Runner T → List HookEffect
  | .caller thread => (s.caller thread).rest
  | .monitor => s.monitor.rest

theorem hooksDone_iff {s : ActivityState T} : s.HooksDone ↔ ∀ r, s.remaining r = [] := by
  constructor
  · rintro ⟨hcaller, hmonitor⟩ (thread | _)
    · exact hcaller thread
    · exact hmonitor
  · exact fun h => ⟨fun thread => h (.caller thread), h .monitor⟩

theorem forall_notMem_remaining_iff {s : ActivityState T} {r : Runner T} {e : HookEffect}
    (hnone : ∀ r', r' ≠ r → s.remaining r' = []) :
    (∀ r', e ∉ s.remaining r') ↔ e ∉ s.remaining r := by
  refine ⟨fun h => h r, fun h r' => ?_⟩
  by_cases hne : r' = r
  · rwa [hne]
  · simp [hnone r' hne]

theorem eq_of_remaining {s : ActivityState T} {r r' : Runner T}
    (hnone : ∀ r', r' ≠ r → s.remaining r' = []) (h : s.remaining r' ≠ []) : r' = r := by
  by_contra hne
  exact h (hnone r' hne)

/-- One hook at most is not done yet, it is the one that leads to the state, and the parts of it
that are left are those whose last action was the other one. -/
structure HooksInv (cfg : ActivityConfig) (s : ActivityState T) : Prop where
  single : ∀ r r', s.remaining r ≠ [] → s.remaining r' ≠ [] → r = r'
  suffix : ∀ r, s.remaining r <:+ s.state.action.effects
  alternating : ∀ part, Alternating (s.log part)
  last : ∀ part, lastAction (s.log part) = s.state.action ↔
    ∀ r, ⟨s.state.action, part⟩ ∉ s.remaining r
  busy : cfg.standbyAuto → (s.keepDacBusy = true ↔ lastAction (s.log .standby) = .goingActive)

namespace HooksInv

variable {cfg : ActivityConfig} {s s' : ActivityState T}

/-- The threads may move as long as the hooks are left alone. -/
theorem congr (hs : s.HooksInv cfg) (haction : s'.state.action = s.state.action)
    (hremaining : ∀ r, s'.remaining r = s.remaining r) (hlog : s'.log = s.log)
    (hbusy : s'.keepDacBusy = s.keepDacBusy) : s'.HooksInv cfg where
  single := fun r r' h h' => hs.single r r' (hremaining r ▸ h) (hremaining r' ▸ h')
  suffix := fun r => by
    rw [hremaining, haction]
    exact hs.suffix r
  alternating := fun part => hlog ▸ hs.alternating part
  last := fun part => by
    simp only [hlog, haction, hremaining]
    exact hs.last part
  busy := fun h => by
    rw [hlog, hbusy]
    exact hs.busy h

/-- The other action is decided on when no hook is left. -/
theorem decided {r : Runner T} (hs : s.HooksInv cfg) (hdone : s.HooksDone)
    (haction : s'.state.action ≠ s.state.action) (hr : s'.remaining r = s'.state.action.effects)
    (hothers : ∀ r', r' ≠ r → s'.remaining r' = s.remaining r') (hlog : s'.log = s.log)
    (hbusy : s'.keepDacBusy = s.keepDacBusy) : s'.HooksInv cfg := by
  have hnone := hooksDone_iff.mp hdone
  have hnone' : ∀ r', r' ≠ r → s'.remaining r' = [] := fun r' hne =>
    (hothers r' hne).trans (hnone r')
  refine ⟨fun r₁ r₂ h₁ h₂ => (eq_of_remaining hnone' h₁).trans (eq_of_remaining hnone' h₂).symm,
    fun r' => ?_, fun part => hlog ▸ hs.alternating part, fun part => ?_, fun h => ?_⟩
  · by_cases hne : r' = r
    · rw [hne, hr]
    · rw [hnone' r' hne]
      exact List.nil_suffix
  · have hlast : lastAction (s.log part) = s.state.action :=
      (hs.last part).mpr fun r' => by simp [hnone r']
    rw [hlog, hlast]
    refine iff_of_false haction.symm fun h => h r ?_
    rw [hr]
    exact HookAction.mem_effects ..
  · rw [hlog, hbusy]
    exact hs.busy h

/-- A part of the hook takes effect. -/
theorem perform {r : Runner T} {e : HookEffect} {rest : List HookEffect} (hs : s.HooksInv cfg)
    (hr : s.remaining r = e :: rest) (hstate : s'.state = s.state) (hr' : s'.remaining r = rest)
    (hothers : ∀ r', r' ≠ r → s'.remaining r' = s.remaining r')
    (hlog : s'.log = (s.perform cfg e).log)
    (hbusy : s'.keepDacBusy = (s.perform cfg e).keepDacBusy) : s'.HooksInv cfg := by
  have hsuffix : e :: rest <:+ s.state.action.effects := hr ▸ hs.suffix r
  have hnodup : (e :: rest).Nodup := s.state.action.nodup_effects.sublist hsuffix.sublist
  have haction : e.action = s.state.action :=
    HookAction.action_of_mem (hsuffix.subset List.mem_cons_self)
  have hnone : ∀ r', r' ≠ r → s.remaining r' = [] := by
    intro r' hne
    by_contra h
    exact hne (hs.single r' r h (by simp [hr]))
  have hnone' : ∀ r', r' ≠ r → s'.remaining r' = [] := fun r' hne =>
    (hothers r' hne).trans (hnone r' hne)
  have hbefore (part : HookPart) : lastAction (s.log part) = s.state.action ↔
      ⟨s.state.action, part⟩ ∉ e :: rest := by
    rw [hs.last, forall_notMem_remaining_iff hnone, hr]
  have he : e = ⟨s.state.action, e.part⟩ := by rw [← haction]
  have hturn : lastAction (s.log e.part) ≠ e.action := by
    rw [haction, Ne, hbefore, ← he]
    exact not_not_intro List.mem_cons_self
  refine ⟨fun r₁ r₂ h₁ h₂ => (eq_of_remaining hnone' h₁).trans (eq_of_remaining hnone' h₂).symm,
    fun r' => ?_, fun part => ?_, fun part => ?_, fun h => ?_⟩
  · rw [hstate]
    by_cases hne : r' = r
    · rw [hne, hr']
      exact (List.suffix_cons e rest).trans hsuffix
    · rw [hothers r' hne]
      exact hs.suffix r'
  · rw [hlog, ActivityState.perform]
    by_cases hpart : part = e.part
    · rw [hpart]
      simp only [Function.update_self]
      exact alternating_append_singleton.mpr ⟨hs.alternating _, hturn⟩
    · simp only [Function.update_of_ne hpart]
      exact hs.alternating part
  · rw [hlog, hstate, forall_notMem_remaining_iff hnone', hr', ActivityState.perform]
    by_cases hpart : part = e.part
    · rw [hpart]
      simp only [Function.update_self, lastAction_append_singleton]
      exact iff_of_true haction (he ▸ (List.nodup_cons.mp hnodup).1)
    · simp only [Function.update_of_ne hpart]
      rw [hbefore, List.mem_cons, not_or]
      exact and_iff_right fun heq => hpart (congrArg HookEffect.part heq)
  · rw [hlog, hbusy, ActivityState.perform]
    by_cases hpart : e.part = .standby
    · simp [hpart, h]
    · simp only [hpart, false_and, if_false, Function.update_of_ne (Ne.symm hpart)]
      exact hs.busy h

end HooksInv

end ActivityState

/-! ## Who wakes up the monitor -/

namespace Monitor

variable {monitor : Monitor} {state : AmState} {playerState : PsState} {inCall inCall' : Prop}

/-- What the monitor thread may rely on where it is. Whoever makes the condition of its wait true is
still in its call, to signal it, or has signalled it. -/
def Fits (state : AmState) (playerState : PsState) (inCall : Prop) : Monitor → Prop
  | .switch => True
  | .awaitActive signalled =>
      (state = .inactive ∧ playerState = .inactive ∨ state = .active ∧ playerState = .active) ∧
        (playerState = .active → signalled = true ∨ inCall)
  | .awaitInactive signalled =>
      state ≠ .timingOut ∧ (playerState = .inactive → signalled = true ∨ inCall)
  | .timedWait => state = .timingOut
  | .hook _ => state ≠ .timingOut

theorem Fits.imp (h : monitor.Fits state playerState inCall) (hcall : inCall → inCall') :
    monitor.Fits state playerState inCall' := by
  cases monitor with
  | switch => trivial
  | awaitActive signalled => exact ⟨h.1, fun hactive => (h.2 hactive).imp_right hcall⟩
  | awaitInactive signalled => exact ⟨h.1, fun hinactive => (h.2 hinactive).imp_right hcall⟩
  | timedWait => exact h
  | hook rest => exact h

theorem Fits.signal (h : monitor.Fits state playerState inCall) :
    monitor.signal.Fits state playerState inCall' := by
  cases monitor with
  | switch => trivial
  | awaitActive signalled => exact ⟨h.1, fun _ => Or.inl rfl⟩
  | awaitInactive signalled => exact ⟨h.1, fun _ => Or.inl rfl⟩
  | timedWait => exact h
  | hook rest => exact h

end Monitor

namespace ActivityState

variable {T : Type}

def InCall (s : ActivityState T) : Prop := ∃ thread, s.caller thread ≠ .idle

/-- An active player never finds the program inactive. -/
structure WaitsInv (s : ActivityState T) : Prop where
  playing : s.playerState = .active → s.state ≠ .inactive
  signified : s.lastSignified = s.playerState
  fits : s.monitor.Fits s.state s.playerState s.InCall

/-- What every orderly step keeps. -/
structure Inv (cfg : ActivityConfig) (s : ActivityState T) : Prop extends
  s.HooksInv cfg, s.WaitsInv

section Signify

variable (cfg : ActivityConfig) (s : ActivityState T) (active : Int)

/-- What `activity_monitor_signify_activity` does to the state. -/
theorem signifyActivity_state : (s.signifyActivity cfg active).1.state =
    if s.state = .inactive ∧ active ≠ 0 then .active
    else if s.state = .active ∧ active = 0 ∧ cfg.timeoutIsZero then .inactive
    else s.state := by
  by_cases h : active = 0 <;> cases hs : s.state <;> cases hz : cfg.timeoutIsZero <;>
    simp [signifyActivity, h, hs, hz]

theorem signifyActivity_frame :
    (s.signifyActivity cfg active).1.caller = s.caller ∧
      (s.signifyActivity cfg active).1.monitor = s.monitor ∧
      (s.signifyActivity cfg active).1.log = s.log ∧
      (s.signifyActivity cfg active).1.keepDacBusy = s.keepDacBusy := by
  rw [signifyActivity]
  dsimp only
  split_ifs <;> exact ⟨rfl, rfl, rfl, rfl⟩

theorem signifyActivity_playerState : (s.signifyActivity cfg active).1.playerState =
    if active = 0 then .inactive else .active := by
  rw [signifyActivity]
  dsimp only
  split_ifs <;> rfl

theorem signifyActivity_lastSignified :
    (s.signifyActivity cfg active).1.lastSignified =
      (s.signifyActivity cfg active).1.playerState := by
  rw [signifyActivity_playerState, signifyActivity]
  dsimp only
  split_ifs <;> simp [lastSignified]

variable {cfg s active}

/-- A call that decides runs the hook that leads to the new state. -/
theorem signifyActivity_of_decides (h : s.Decides cfg active) :
    (s.signifyActivity cfg active).1.state.action ≠ s.state.action ∧
      (s.signifyActivity cfg active).2 =
        (s.signifyActivity cfg active).1.state.action.effects := by
  rcases h with ⟨hs, hactive⟩ | ⟨hs, hactive, hzero⟩
  · simp [signifyActivity, hs, hactive, AmState.action]
  · simp [signifyActivity, hs, hactive, hzero, AmState.action]

theorem signifyActivity_of_not_decides (h : ¬ s.Decides cfg active) :
    (s.signifyActivity cfg active).1.state = s.state ∧
      (s.signifyActivity cfg active).2 = [] := by
  rw [Decides, not_or] at h
  refine ⟨?_, ?_⟩
  · rw [signifyActivity_state, if_neg h.1, if_neg h.2]
  · rw [signifyActivity]
    dsimp only
    rw [if_neg (fun hs => h.1 ⟨hs.1, fun h0 => by simp [h0] at hs⟩),
      if_neg (fun hs => h.2 ⟨hs.1, by simpa using hs.2.1, hs.2.2⟩)]

end Signify

section Steps

variable [DecidableEq T] {cfg : ActivityConfig} {s s' : ActivityState T} {thread : T}

/-- A thread that moves on in its call. -/
theorem remaining_caller {c : Caller} (hcaller : s'.caller = Function.update s.caller thread c)
    (hmonitor : s'.monitor.rest = s.monitor.rest) :
    s'.remaining (.caller thread) = c.rest ∧
      ∀ r, r ≠ .caller thread → s'.remaining r = s.remaining r := by
  refine ⟨?_, fun r hr => ?_⟩
  · rw [remaining, hcaller, Function.update_self]
  · cases r with
    | caller other =>
        rw [remaining, remaining, hcaller, Function.update_of_ne fun h => hr (congrArg _ h)]
    | monitor => exact hmonitor

theorem inCall_running {rest : List HookEffect}
    (hcaller : s'.caller = Function.update s.caller thread (.running rest)) : s'.InCall := by
  refine ⟨thread, ?_⟩
  rw [hcaller, Function.update_self]
  exact Caller.noConfusion

omit [DecidableEq T] in
/-- A call that changes what the monitor thread waits for is still to signal it. -/
theorem WaitsInv.fits_signify {active : Int} {inCall : Prop} (hs : s.WaitsInv)
    (hunseen : ¬ s.Unseen cfg active) (hcall : inCall) :
    s.monitor.Fits (s.signifyActivity cfg active).1.state
      (s.signifyActivity cfg active).1.playerState inCall := by
  have hfits := hs.fits
  rw [signifyActivity_state, signifyActivity_playerState]
  cases hm : s.monitor with
  | switch => trivial
  | awaitActive signalled =>
      rw [hm] at hfits
      refine ⟨?_, fun _ => Or.inr hcall⟩
      by_cases h0 : active = 0
      · rcases hfits.1 with ⟨hin, -⟩ | ⟨hac, -⟩
        · simp [h0, hin]
        · have hzero : cfg.timeoutIsZero = true := by
            by_contra hne
            exact hunseen ⟨hac, h0, hne, hm ▸ trivial⟩
          simp [h0, hac, hzero]
      · rcases hfits.1 with ⟨hin, -⟩ | ⟨hac, -⟩
        · simp [h0, hin]
        · simp [h0, hac]
  | awaitInactive signalled =>
      rw [hm] at hfits
      refine ⟨?_, fun _ => Or.inr hcall⟩
      split_ifs
      · exact AmState.noConfusion
      · exact AmState.noConfusion
      · exact hfits.1
  | timedWait =>
      rw [hm] at hfits
      have htiming : s.state = .timingOut := hfits
      simp [Monitor.Fits, htiming]
  | hook rest =>
      rw [hm] at hfits
      change (if _ then _ else _) ≠ AmState.timingOut
      split_ifs
      · exact AmState.noConfusion
      · exact AmState.noConfusion
      · exact hfits

namespace Inv

theorem signify {active : Int} (hs : s.Inv cfg) (hord : s.Orderly cfg (.signify thread active))
    (h : s.step cfg (.signify thread active) = some s') : s'.Inv cfg := by
  obtain ⟨hidle, rfl⟩ : s.caller thread = .idle ∧
      { (s.signifyActivity cfg active).1 with
        caller := Function.update (s.signifyActivity cfg active).1.caller thread
          (.running (s.signifyActivity cfg active).2) } = s' := by
    rw [step] at h
    split at h
    · exact absurd h.symm (Option.some_ne_none s')
    · rename_i hidle _
      exact ⟨hidle, Option.some.inj h⟩
    · exact absurd h.symm (Option.some_ne_none s')
  obtain ⟨hcaller, hmonitor, hlog, hbusy⟩ := signifyActivity_frame cfg s active
  have hrunning : ({ (s.signifyActivity cfg active).1 with
      caller := Function.update (s.signifyActivity cfg active).1.caller thread
        (.running (s.signifyActivity cfg active).2) } : ActivityState T).caller =
      Function.update s.caller thread (.running (s.signifyActivity cfg active).2) := by
    rw [hcaller]
  obtain ⟨hself, hothers⟩ := remaining_caller hrunning (congrArg Monitor.rest hmonitor)
  have hfits := hs.toWaitsInv.fits_signify hord.2 (inCall_running hrunning)
  refine ⟨?_, ?_, signifyActivity_lastSignified cfg s active, hmonitor ▸ hfits⟩
  · by_cases hdecides : s.Decides cfg active
    · obtain ⟨haction, hhook⟩ := signifyActivity_of_decides hdecides
      exact hs.toHooksInv.decided (hord.1 hdecides) haction (hself.trans hhook) hothers hlog hbusy
    · obtain ⟨hstate, hhook⟩ := signifyActivity_of_not_decides hdecides
      refine hs.toHooksInv.congr (congrArg _ hstate) (fun r => ?_) hlog hbusy
      by_cases hr : r = .caller thread
      · rw [hr, hself, hhook, remaining, hidle]
        rfl
      · exact hothers r hr
  · dsimp only
    rw [signifyActivity_playerState, signifyActivity_state]
    split_ifs <;> simp_all

theorem effect (hs : s.Inv cfg) (h : s.step cfg (.effect thread) = some s') : s'.Inv cfg := by
  rw [step] at h
  split at h
  · rename_i e rest hrunning
    obtain rfl := Option.some.inj h
    have hcaller : ({ s.perform cfg e with
        caller := Function.update s.caller thread (.running rest) } : ActivityState T).caller =
        Function.update s.caller thread (.running rest) := rfl
    obtain ⟨hself, hothers⟩ := remaining_caller hcaller rfl
    refine ⟨hs.toHooksInv.perform (r := .caller thread) ?_ rfl hself hothers rfl rfl,
      hs.playing, hs.signified, hs.fits.imp fun _ => inCall_running hcaller⟩
    rw [remaining, hrunning]
    rfl
  · exact absurd h.symm (Option.some_ne_none s')

theorem signal (hs : s.Inv cfg) (h : s.step cfg (.signal thread) = some s') : s'.Inv cfg := by
  rw [step] at h
  split at h
  · exact absurd h.symm (Option.some_ne_none s')
  · rename_i hrunning _
    obtain rfl := Option.some.inj h
    have hcaller : ({ s with
        caller := Function.update s.caller thread .idle
        monitor := s.monitor.signal } : ActivityState T).caller =
        Function.update s.caller thread .idle := rfl
    obtain ⟨hself, hothers⟩ := remaining_caller hcaller (Monitor.rest_signal s.monitor)
    refine ⟨hs.toHooksInv.congr rfl (fun r => ?_) rfl rfl, hs.playing, hs.signified,
      hs.fits.signal⟩
    by_cases hr : r = .caller thread
    · rw [hr, hself, remaining, hrunning]
      rfl
    · exact hothers r hr
  · exact absurd h.symm (Option.some_ne_none s')

omit [DecidableEq T] in
/-- The monitor thread moves on and leaves the hooks alone. -/
theorem move {state : AmState} {monitor : Monitor} (hs : s.Inv cfg)
    (haction : state.action = s.state.action) (hrest : monitor.rest = s.monitor.rest)
    (hfits : monitor.Fits state s.playerState s.InCall) :
    Inv cfg { s with state := state, monitor := monitor } where
  toHooksInv := hs.toHooksInv.congr haction (fun r => by
    cases r with
    | caller thread => rfl
    | monitor => exact hrest) rfl rfl
  playing := fun hactive hinactive => by
    have hsame : s.state = .inactive := by
      dsimp only at hinactive
      rw [hinactive] at haction
      cases hstate : s.state with
      | inactive => rfl
      | active => exact absurd (hstate ▸ haction) HookAction.noConfusion
      | timingOut => exact absurd (hstate ▸ haction) HookAction.noConfusion
    exact hs.playing hactive hsame
  signified := hs.signified
  fits := hfits

theorem switch (hs : s.Inv cfg) (h : s.step cfg .switch = some s') : s'.Inv cfg := by
  rw [step] at h
  split at h
  · rename_i hswitch
    obtain rfl := Option.some.inj h
    rw [ActivityState.switch]
    cases hstate : s.state with
    | inactive =>
        dsimp only
        split_ifs with hactive
        · exact hs
        · exact hs.move (congrArg _ hstate.symm) (hswitch ▸ rfl)
            ⟨Or.inl ⟨rfl, PsState.eq_inactive hactive⟩, fun h => absurd h hactive⟩
    | active =>
        dsimp only
        split_ifs with hinactive
        · exact hs.move (hstate ▸ rfl) rfl (hswitch ▸ trivial)
        · exact hs.move (congrArg _ hstate.symm) (hswitch ▸ rfl)
            ⟨AmState.noConfusion, fun h => absurd h hinactive⟩
    | timingOut =>
        dsimp only
        split_ifs with hactive
        · exact hs.move (hstate ▸ rfl) rfl (hswitch ▸ trivial)
        · exact hs.move (congrArg _ hstate.symm) (hswitch ▸ rfl) rfl
  · exact absurd h.symm (Option.some_ne_none s')

theorem wake (hs : s.Inv cfg) (h : s.step cfg .wake = some s') : s'.Inv cfg := by
  have hfits := hs.fits
  rw [step] at h
  split at h
  · rename_i hawait
    rw [hawait] at hfits
    split_ifs at h with hactive
    · exact Option.some.inj h ▸ hs.move rfl (hawait ▸ rfl) trivial
    · exact Option.some.inj h ▸ hs.move rfl (hawait ▸ rfl)
        ⟨hfits.1, fun hplaying => absurd hplaying hactive⟩
  · rename_i hawait
    rw [hawait] at hfits
    split_ifs at h with hinactive hstate
    · exact Option.some.inj h ▸ hs.move (hstate ▸ rfl) (hawait ▸ rfl) trivial
    · refine Option.some.inj h ▸ hs.move ?_ (hawait ▸ rfl) trivial
      exact (AmState.action_of_ne hstate).symm
    · exact Option.some.inj h ▸ hs.move rfl (hawait ▸ rfl)
        ⟨hfits.1, fun hstopped => absurd hstopped hinactive⟩
  · rename_i htimed
    rw [htimed] at hfits
    split_ifs at h with hactive
    · refine Option.some.inj h ▸ hs.move ?_ (htimed ▸ rfl) trivial
      exact (congrArg AmState.action hfits).symm
    · exact Option.some.inj h ▸ hs
  · exact absurd h.symm (Option.some_ne_none s')

theorem timeout (hs : s.Inv cfg) (hord : s.Orderly cfg .timeout)
    (h : s.step cfg .timeout = some s') : s'.Inv cfg := by
  have hfits := hs.fits
  rw [step] at h
  split at h
  · rename_i htimed
    rw [htimed] at hfits
    have haction : s.state.action = .goingActive := congrArg AmState.action hfits
    split_ifs at h with hactive
    · exact Option.some.inj h ▸ hs.move haction.symm (htimed ▸ rfl) trivial
    · obtain rfl := Option.some.inj h
      refine ⟨hs.toHooksInv.decided (r := .monitor) (hord (PsState.eq_inactive hactive)) ?_ rfl
        ?_ rfl rfl, fun hplaying => absurd hplaying hactive, hs.signified, AmState.noConfusion⟩
      · rw [haction]
        exact HookAction.noConfusion
      · intro r hr
        cases r with
        | caller thread => rfl
        | monitor => exact absurd rfl hr
  · exact absurd h.symm (Option.some_ne_none s')

theorem monitorEffect (hs : s.Inv cfg) (h : s.step cfg .monitorEffect = some s') :
    s'.Inv cfg := by
  have hfits := hs.fits
  rw [step] at h
  split at h
  · rename_i e rest hhook
    rw [hhook] at hfits
    obtain rfl := Option.some.inj h
    refine ⟨hs.toHooksInv.perform (r := .monitor) ?_ rfl rfl ?_ rfl rfl, hs.playing,
      hs.signified, hfits⟩
    · rw [remaining, hhook]
      rfl
    · intro r hr
      cases r with
      | caller thread => rfl
      | monitor => exact absurd rfl hr
  · exact absurd h.symm (Option.some_ne_none s')

theorem relock (hs : s.Inv cfg) (h : s.step cfg .relock = some s') : s'.Inv cfg := by
  rw [step] at h
  split at h
  · rename_i hhook
    exact Option.some.inj h ▸ hs.move rfl (hhook ▸ rfl) trivial
  · exact absurd h.symm (Option.some_ne_none s')

theorem step {l : ActivityLabel T} (hs : s.Inv cfg) (hord : s.Orderly cfg l)
    (h : s.step cfg l = some s') : s'.Inv cfg := by
  cases l with
  | signify thread active => exact hs.signify hord h
  | effect thread => exact hs.effect h
  | signal thread => exact hs.signal h
  | switch => exact hs.switch h
  | wake => exact hs.wake h
  | timeout => exact hs.timeout hord h
  | monitorEffect => exact hs.monitorEffect h
  | relock => exact hs.relock h

omit [DecidableEq T] in
theorem settled (hs : s.Inv cfg) (hquiet : s.Quiescent) :
    s.HooksDone ∧ s.state ≠ .timingOut ∧ (s.playerState = .active ↔ s.state = .active) := by
  obtain ⟨hidle, hasleep⟩ := hquiet
  have hcall : ¬ s.InCall := fun ⟨thread, h⟩ => h (hidle thread)
  have hfits := hs.fits
  have hcallers : ∀ thread, (s.caller thread).rest = [] := fun thread => by
    rw [hidle]
    rfl
  cases hm : s.monitor with
  | awaitActive signalled =>
      rw [hm] at hfits hasleep
      have hstopped : s.playerState ≠ .active := fun h =>
        (hfits.2 h).elim (fun hs => Bool.noConfusion (hs.symm.trans hasleep)) hcall
      refine ⟨⟨hcallers, hm ▸ rfl⟩, ?_, ?_⟩
      · rcases hfits.1 with ⟨hstate, -⟩ | ⟨hstate, -⟩ <;> simp [hstate]
      · rcases hfits.1 with ⟨hstate, -⟩ | ⟨-, hactive⟩
        · simp [hstate, hstopped]
        · exact absurd hactive hstopped
  | awaitInactive signalled =>
      rw [hm] at hfits hasleep
      have hplaying : s.playerState = .active := by
        by_contra h
        exact (hfits.2 (PsState.eq_inactive h)).elim
          (fun hs => Bool.noConfusion (hs.symm.trans hasleep)) hcall
      refine ⟨⟨hcallers, hm ▸ rfl⟩, hfits.1, iff_of_true hplaying ?_⟩
      have hstate := hs.playing hplaying
      cases hst : s.state with
      | inactive => exact absurd hst hstate
      | active => rfl
      | timingOut => exact absurd hst hfits.1
  | switch =>
      rw [hm] at hasleep
      exact hasleep.elim
  | timedWait =>
      rw [hm] at hasleep
      exact hasleep.elim
  | hook rest =>
      rw [hm] at hasleep
      exact hasleep.elim

omit [DecidableEq T] in
theorem sound (hs : s.Inv cfg) : s.Sound cfg where
  alternating := hs.alternating
  executed := fun hdone part =>
    (hs.last part).mpr fun r => by simp [hooksDone_iff.mp hdone r]
  agrees := fun hquiet => by
    obtain ⟨hdone, htiming, hplayer⟩ := hs.settled hquiet
    have hlast (part : HookPart) : lastAction (s.log part) = .goingActive ↔ s.state = .active := by
      rw [(hs.last part).mpr fun r => by simp [hooksDone_iff.mp hdone r]]
      cases hstate : s.state with
      | inactive => simp [AmState.action]
      | active => simp [AmState.action]
      | timingOut => exact absurd hstate htiming
    refine ⟨hlast, fun h => (hs.busy h).trans (hlast .standby), ?_⟩
    rw [hs.signified]
    exact hplayer

end Inv

end Steps

theorem inv_init (cfg : ActivityConfig) : (init : ActivityState T).Inv cfg where
  single := fun r _ h => by cases r <;> exact absurd rfl h
  suffix := fun r => by cases r <;> exact List.nil_suffix
  alternating := fun _ => List.isChain_singleton _
  last := fun _ => iff_of_true rfl fun r => by cases r <;> exact List.not_mem_nil
  busy := fun _ => iff_of_false Bool.noConfusion HookAction.noConfusion
  playing := PsState.noConfusion
  signified := rfl
  fits := ⟨Or.inl ⟨rfl, rfl⟩, PsState.noConfusion⟩

end ActivityState

/-- In every run in which no hook is decided on before the one before it is done, and in which no
timeout is left to a monitor thread that has not seen the player become active, the actions
alternate in each of their parts, and whenever nothing is going on the last of them, the state and
the last signified activity agree. -/
theorem activityMonitor_run_sound {T : Type} [DecidableEq T] (cfg : ActivityConfig)
    (ls : List (ActivityLabel T))
    (hord : Along (ActivityState.step cfg) (ActivityState.Orderly cfg) .init ls) :
    Throughout (ActivityState.step cfg) (ActivityState.Sound cfg) .init ls :=
  (throughout_of_step (fun _ _ _ hs hord h => hs.step hord h)
    (ActivityState.inv_init cfg) hord).mono fun _ hs => hs.sound

/-- The program goes active, and inactive again after a timeout. -/
theorem activityMonitor_run_sound_of_timeout :
    Throughout (ActivityState.step ⟨false, true⟩) (ActivityState.Sound ⟨false, true⟩)
      (.init : ActivityState Bool)
      [.signify false 1, .effect false, .effect false, .effect false, .effect false,
        .signal false, .wake, .switch, .signify true 0, .signal true, .wake, .switch, .timeout,
        .monitorEffect, .monitorEffect, .monitorEffect, .monitorEffect, .relock, .switch] :=
  activityMonitor_run_sound ⟨false, true⟩ _ (by decide)

/-- The hook of going inactive may overtake that of going active. -/
theorem hooks_not_alternating :
    ¬ ∀ (cfg : ActivityConfig) (ls : List (ActivityLabel Bool)),
      Throughout (ActivityState.step cfg) (ActivityState.Sound cfg) .init ls := by
  intro h
  have hlast := (h ⟨true, true⟩ [.signify false 1, .signify true 0, .effect true]).last rfl
  exact absurd (hlast.alternating .command) (by decide)

/-- A player that stops before the monitor thread has seen it start leaves the program active for
ever: the wake-up is lost, and no timeout begins. -/
example : ∃ s : ActivityState Unit, run (ActivityState.step ⟨false, true⟩) .init
      [.signify () 1, .effect (), .effect (), .effect (), .effect (), .signal (), .signify () 0,
        .signal (), .wake] = some s ∧
    s.Quiescent ∧ s.state = .active ∧ s.lastSignified = .inactive :=
  ⟨_, rfl, by decide⟩

end Activity

end ShairportSync
