import Mathlib.Data.BitVec
import ShairportSync.Alsa.HandleState

/-!
# Measuring the output frame rate

From time to time the player asks the back end for the number of frames it has sent, and works out
the rate since an earlier measurement. `frames_sent_break_occurred` says that the two cannot be
compared. It is raised by what breaks the output and is cleared by `stats`.

As long as no opening of a device fails half-way, the two measurements are from an open device, and
between them there is nothing but writes of which the device has accepted all frames.
-/

namespace ShairportSync

namespace Alsa

open Transition

/-! ## The player -/

/-- What the player gets from `stats`. The program does not keep the handle and the events, and how
the query of the delay went. -/
structure Measurement where
  /-- Whether the times of the measurement have been stored. -/
  timed : Bool
  /-- What the query of the delay returned. -/
  queryRet : ℤ
  framesPlayed : BitVec 64
  framesSent : BitVec 64
  handle : AlsaHandle
  events : List DeviceEvent

/-- The back end and the variables of the player. There is a previous measurement if
`previous_frames_played_valid` is set. The pairs of measurements that a rate has been computed from
are kept. -/
structure FrameRateRun where
  backend : Backend
  previous : Option Measurement
  computed : List (Measurement × Measurement)

def FrameRateRun.initial (alsaOutDev : String) : FrameRateRun := ⟨.initial alsaOutDev, none, []⟩

def measurement (b : Backend) (queryRet delay : ℤ) : Measurement where
  timed := b.alsaHandle ≠ .null
  queryRet := queryRet
  framesPlayed := b.framesSentForPlaying - BitVec.ofInt 64 delay
  framesSent := b.framesSentForPlaying
  handle := b.alsaHandle
  events := b.events

def measure (c : AlsaConfig) (r : FrameRateRun) (d : DelayAnswers) : FrameRateRun :=
  let (hasBreak, delay, b) := stats c r.backend d
  let m := measurement b (statsQuery c r.backend d).1 delay
  match r.previous with
  | none => { r with backend := b, previous := some m }
  | some previous =>
      if hasBreak then { r with backend := b, previous := some m }
      else { r with backend := b, computed := (previous, m) :: r.computed }

def frameRateStep (c : AlsaConfig) (r : FrameRateRun) : AlsaCall → Option FrameRateRun
  | .stats d => some (measure c r d)
  | call => (alsaStep c r.backend call).map fun b => { r with backend := b }

/-! ## Unbroken output -/

def framesAccepted (events : List DeviceEvent) : BitVec 64 :=
  (events.map fun
    | .wrote _ _ ret => acceptedFrames ret
    | .opened | .closed | .flushed => 0).sum

/-- From one moment to another there is nothing but writes that are accepted as a whole, and the
numbers of frames sent tell how many frames these are. -/
def Unbroken (handle : AlsaHandle) (sent sent' : BitVec 64) (events events' : List DeviceEvent) :
    Prop :=
  ∃ between, events' = between ++ events ∧ sent' - sent = framesAccepted between ∧
    ∀ e ∈ between, ∃ samples : ℕ, e = .wrote handle samples samples

/-- The measurement has really been taken from an open device. -/
structure Measurement.Taken (m : Measurement) : Prop where
  timed : m.timed
  handle : m.handle = .ready
  queryRet : m.queryRet = 0

/-- What is asked of two measurements that a rate is computed from. -/
structure Comparable (earlier later : Measurement) : Prop where
  earlier_taken : earlier.Taken
  later_taken : later.Taken
  unbroken :
    Unbroken .ready earlier.framesSent later.framesSent earlier.events later.events

theorem Unbroken.refl (handle : AlsaHandle) (sent : BitVec 64) (events : List DeviceEvent) :
    Unbroken handle sent sent events events :=
  ⟨[], rfl, BitVec.sub_self sent, fun _ he => absurd he List.not_mem_nil⟩

theorem Unbroken.trans {handle : AlsaHandle} {s₁ s₂ s₃ : BitVec 64} {e₁ e₂ e₃ : List DeviceEvent}
    (h : Unbroken handle s₁ s₂ e₁ e₂) (h' : Unbroken handle s₂ s₃ e₂ e₃) :
    Unbroken handle s₁ s₃ e₁ e₃ := by
  obtain ⟨between, hevents, hsent, hall⟩ := h
  obtain ⟨between', hevents', hsent', hall'⟩ := h'
  refine ⟨between' ++ between, ?_, ?_, ?_⟩
  · rw [hevents', hevents, List.append_assoc]
  · rw [framesAccepted, List.map_append, List.sum_append]
    rw [framesAccepted] at hsent hsent'
    rw [← hsent, ← hsent']
    bv_omega
  · intro e he
    rcases List.mem_append.1 he with he | he
    · exact hall' e he
    · exact hall e he

/-- What a call may do that is not to be noticed: to leave no device, to raise the flag, or to go on
unbroken. -/
structure Continues (b b' : Backend) : Prop where
  status : b'.alsaHandle = .null → b'.alsaHandleStatus ≠ 0
  effect : b'.alsaHandle = .null ∨ b'.framesSentBreakOccurred = true ∨
    (b'.alsaHandle = b.alsaHandle ∧ b'.framesSentBreakOccurred = b.framesSentBreakOccurred ∧
      Unbroken b.alsaHandle b.framesSentForPlaying b'.framesSentForPlaying b.events b'.events)

theorem Continues.trans {b₁ b₂ b₃ : Backend} (h : Continues b₁ b₂) (h' : Continues b₂ b₃) :
    Continues b₁ b₃ := by
  refine ⟨h'.status, ?_⟩
  rcases h'.effect with hnull | hbreak | ⟨hhandle, hflag, hunbroken⟩
  · exact .inl hnull
  · exact .inr (.inl hbreak)
  · rcases h.effect with hnull | hbreak | ⟨hhandle', hflag', hunbroken'⟩
    · exact .inl (hhandle.trans hnull)
    · exact .inr (.inl (hflag.trans hbreak))
    · rw [hhandle'] at hunbroken
      exact .inr (.inr ⟨hhandle.trans hhandle', hflag.trans hflag', hunbroken'.trans hunbroken⟩)

theorem Played.continues {b b' : Backend} {samples : ℕ}
    (hstatus : b.alsaHandle = .null → b.alsaHandleStatus ≠ 0) (h : Played b samples b') :
    Continues b b' := by
  refine ⟨?_, ?_⟩
  · rw [h.alsaHandle, h.alsaHandleStatus]
    exact hstatus
  · rcases h.effect with ⟨hflag, hsent, hevents⟩ | ⟨ret, hflag, hsent, hevents⟩
    · rw [hsent, hevents]
      exact .inr (.inr ⟨h.alsaHandle, hflag, Unbroken.refl _ _ _⟩)
    · split_ifs at hflag with hall
      · refine .inr (.inr ⟨h.alsaHandle, hflag, [_], hevents, ?_, fun e he => ⟨samples, ?_⟩⟩)
        · rw [hsent, framesAccepted, List.map_singleton, List.sum_singleton]
          bv_omega
        · rw [List.mem_singleton.1 he, hall]
      · exact .inr (.inl hflag)

theorem SameDevice.continues {b b' : Backend}
    (hstatus : b.alsaHandle = .null → b.alsaHandleStatus ≠ 0) (h : SameDevice b b') :
    Continues b b' := (h.played 0).continues hstatus

/-! ## What the calls do -/

theorem doOpen_continues {c : AlsaConfig} {b b' : Backend} {a : OpenAnswers} {ret : ℤ}
    (hnull : b.alsaHandle = .null) (hwhole : ¬a.FailsHalfWay c b)
    (h : doOpen c b a = some (ret, b')) : Continues b b' := by
  rcases doOpen_cases hnull h with ⟨_, hfailed, _⟩ | ⟨_, _, hfails⟩ | ⟨_, hfull, _⟩
  · exact ⟨fun _ => hfailed.2, .inl hfailed.1⟩
  · exact absurd hfails hwhole
  · refine ⟨fun hnull' => ?_, .inr (.inl hfull.3)⟩
    rw [hfull.1] at hnull'
    exact absurd hnull' nofun

theorem doClose_continues {b : Backend} (hstatus : b.alsaHandle = .null → b.alsaHandleStatus ≠ 0) :
    Continues b (doClose b) := by
  unfold doClose
  split_ifs with hnull
  · exact ⟨fun _ => hstatus hnull, .inl hnull⟩
  · exact ⟨fun _ => by simp [enodev], .inl rfl⟩

theorem subFlush_continues {b : Backend}
    (hstatus : b.alsaHandle = .null → b.alsaHandleStatus ≠ 0) : Continues b (subFlush b) := by
  unfold subFlush
  split_ifs with hnull
  · exact ⟨hstatus, .inl hnull⟩
  · exact ⟨fun hnull' => absurd hnull' hnull, .inr (.inl rfl)⟩

/-- What does not change the device, but for the state of the back end. -/
theorem continues_of_eq {b b' : Backend}
    (hstatus : b.alsaHandle = .null → b.alsaHandleStatus ≠ 0)
    (hhandle : b'.alsaHandle = b.alsaHandle) (hstatus' : b'.alsaHandleStatus = b.alsaHandleStatus)
    (hflag : b'.framesSentBreakOccurred = b.framesSentBreakOccurred)
    (hsent : b'.framesSentForPlaying = b.framesSentForPlaying)
    (hevents : b'.events = b.events) : Continues b b' := by
  refine ⟨?_, .inr (.inr ⟨hhandle, hflag, ?_⟩)⟩
  · rw [hhandle, hstatus']
    exact hstatus
  · rw [hsent, hevents]
    exact Unbroken.refl _ _ _

theorem doPlay_continues {c : AlsaConfig} {b b' : Backend} {samples : ℕ} {p : PlayAnswers}
    (hstatus : b.alsaHandle = .null → b.alsaHandleStatus ≠ 0)
    (h : (doPlay c b samples p).map Prod.snd = some b') : Continues b b' := by
  obtain ⟨⟨ret, b₁⟩, hb₁, rfl⟩ := Option.map_eq_some_iff.1 h
  exact (doPlay_played hb₁).continues hstatus

theorem fillWithSilence_continues {c : AlsaConfig} {b b' : Backend} {hasSilence : Bool}
    {d : DelayAnswers} {p : PlayAnswers}
    (hstatus : b.alsaHandle = .null → b.alsaHandleStatus ≠ 0)
    (hstep : fillWithSilence c b hasSilence d p = some b') : Continues b b' := by
  unfold fillWithSilence at hstep
  have hsame := delayAndStatus_sameDevice c b d
  rcases hb₁ : delayAndStatus c b d with ⟨status, b₁⟩
  rw [hb₁] at hstep hsame
  simp only at hstep hsame
  have hfirst := hsame.continues hstatus
  generalize (if status.ret ≠ 0 then (0 : ℤ) else status.delay) = bufferSize at hstep
  split_ifs at hstep
  · exact hfirst.trans (doPlay_continues hfirst.status hstep)
  · cases hstep
    exact hfirst

theorem play_continues {c : AlsaConfig} {b b' : Backend} {samples : ℕ} {a : OpenAnswers}
    {p : PlayAnswers} (h : Agrees b) (hstatus : b.alsaHandle = .null → b.alsaHandleStatus ≠ 0)
    (hup : SetsUp c b (.play samples a p)) (hstep : play c b samples a p = some b') :
    Continues b b' := by
  have hplay : ∀ {b₁ : Backend}, (b₁.alsaHandle = .null → b₁.alsaHandleStatus ≠ 0) →
      (doPlay c { b₁ with alsaBackendState := .playing } samples p).map Prod.snd = some b' →
      Continues b₁ b' := by
    intro b₁ hstatus₁ hstep
    have hplaying : Continues b₁ { b₁ with alsaBackendState := .playing } :=
      continues_of_eq hstatus₁ rfl rfl rfl rfl rfl
    exact hplaying.trans (doPlay_continues hplaying.status hstep)
  unfold play at hstep
  split_ifs at hstep with hstate
  · obtain ⟨⟨ret, b₁⟩, hopen, hstep⟩ := Option.bind_eq_some_iff.1 hstep
    have hnull := h.disconnected_iff.1 hstate
    have hfirst := doOpen_continues hnull (hup a (if_pos ⟨hstate, hnull⟩)) hopen
    by_cases hret : ret = 0
    · simp only [hret, if_true] at hstep
      exact hfirst.trans (hplay hfirst.status hstep)
    · simp only [hret, if_false, Option.some.injEq] at hstep
      exact hstep ▸ hfirst
  · simp only [Option.bind_eq_bind, Option.bind_some, if_true] at hstep
    exact hplay hstatus hstep

theorem monitor_continues {c : AlsaConfig} {b b' : Backend} {k : KeepDacBusyReads}
    {hasSilence : Bool} {a : OpenAnswers} {d : DelayAnswers} {p : PlayAnswers} (h : Agrees b)
    (hstatus : b.alsaHandle = .null → b.alsaHandleStatus ≠ 0)
    (hup : SetsUp c b (.monitor k hasSilence a d p))
    (hstep : monitor c b k hasSilence a d p = some b') : Continues b b' := by
  have hfill : ∀ {b₁ : Backend}, Continues b b₁ →
      (if b₁.alsaBackendState ≠ .disconnected ∧ k.filling then fillWithSilence c b₁ hasSilence d p
        else some b₁) = some b' → Continues b b' := by
    intro b₁ hfirst hstep
    split_ifs at hstep
    · exact hfirst.trans (fillWithSilence_continues hfirst.status hstep)
    · cases hstep
      exact hfirst
  have hokb : Continues b { b with okb := k.okb b.okb } :=
    continues_of_eq hstatus rfl rfl rfl rfl rfl
  unfold monitor at hstep
  simp only at hstep
  split_ifs at hstep with hopens hcloses
  · obtain ⟨b₁, hb₁, hstep⟩ := Option.bind_eq_some_iff.1 hstep
    obtain ⟨⟨ret, b₂⟩, hopen, rfl⟩ := Option.map_eq_some_iff.1 hb₁
    have hnull := h.disconnected_iff.1 hopens.1
    have hwhole := hup a (if_pos ⟨hopens.1, hopens.2, hnull⟩)
    exact hfill (hokb.trans (doOpen_continues hnull hwhole hopen)) hstep
  · simp only [Option.bind_eq_bind, Option.bind_some] at hstep
    have hzero : Continues b { b with okb := k.okb b.okb, stallMonitorStartTime := 0 } :=
      continues_of_eq hstatus rfl rfl rfl rfl rfl
    exact hfill (hzero.trans (doClose_continues hzero.status)) hstep
  · simp only [Option.bind_eq_bind, Option.bind_some] at hstep
    exact hfill hokb hstep

theorem alsaStep_continues {c : AlsaConfig} {b b' : Backend} {call : AlsaCall} (h : Agrees b)
    (hstatus : b.alsaHandle = .null → b.alsaHandleStatus ≠ 0) (hup : SetsUp c b call)
    (hcall : ∀ d, call ≠ .stats d) (hstep : alsaStep c b call = some b') : Continues b b' := by
  cases call with
  | prepare a =>
      unfold alsaStep prepare at hstep
      split_ifs at hstep with hstate
      · obtain ⟨⟨ret, b₁⟩, hopen, rfl⟩ := Option.map_eq_some_iff.1 hstep
        have hnull := h.disconnected_iff.1 hstate
        exact doOpen_continues hnull (hup a (if_pos ⟨hstate, hnull⟩)) hopen
      · cases hstep
        exact continues_of_eq hstatus rfl rfl rfl rfl rfl
  | play samples a p => exact play_continues h hstatus hup hstep
  | flush keepDacBusy =>
      cases hstep
      unfold flush
      split_ifs
      · exact subFlush_continues hstatus
      · exact continues_of_eq hstatus rfl rfl rfl rfl rfl
  | stop keepDacBusy =>
      cases hstep
      unfold stop
      split_ifs
      · exact doClose_continues hstatus
      · exact continues_of_eq hstatus rfl rfl rfl rfl rfl
  | monitor k hasSilence a d p => exact monitor_continues h hstatus hup hstep
  | stats d => exact absurd rfl (hcall d)
  | start =>
      cases hstep
      exact continues_of_eq hstatus rfl rfl rfl rfl rfl

/-! ## Runs -/

/-- `stats` clears the flag and changes nothing else that has to do with the device. -/
theorem stats_spec {c : AlsaConfig} {b b' : Backend} {d : DelayAnswers} {hasBreak : Bool}
    {delay : ℤ}
    (hstatus : b.alsaHandle = .null → b.alsaHandleStatus ≠ 0)
    (h : stats c b d = (hasBreak, delay, b')) :
    (∃ b₁, SameDevice b b₁ ∧ b' = { b₁ with framesSentBreakOccurred := false }) ∧
      (hasBreak = false → b.alsaHandle ≠ .null ∧ (statsQuery c b d).1 = 0 ∧
        b.framesSentBreakOccurred = false) := by
  unfold stats statsQuery at h
  unfold statsQuery
  by_cases hnull : b.alsaHandle = .null
  · simp only [if_pos hnull, if_neg (hstatus hnull), Prod.mk.injEq] at h
    obtain ⟨rfl, -, rfl⟩ := h
    exact ⟨⟨b, SameDevice.refl b, rfl⟩, fun hfalse => absurd hfalse.symm Bool.false_ne_true⟩
  · have hsame := delayAndStatus_sameDevice c b d
    simp only [hnull, if_false, Prod.mk.injEq] at h ⊢
    obtain ⟨hbreak, -, rfl⟩ := h
    refine ⟨⟨_, hsame, rfl⟩, fun hfalse => ?_⟩
    rw [hfalse] at hbreak
    split_ifs at hbreak with hret
    exact ⟨hnull, hret, hsame.4.symm.trans hbreak⟩

/-- No opening of a device fails half-way, and `stats` gets the delay of a device that is open. -/
def DeviceAnswers (c : AlsaConfig) (b : Backend) (call : AlsaCall) : Prop :=
  SetsUp c b call ∧
    match call with
    | .stats d => b.alsaHandle ≠ .null → (statsQuery c b d).1 = 0
    | _ => True

structure MeasurementsAgree (r : FrameRateRun) : Prop where
  agrees : Agrees r.backend
  status : r.backend.alsaHandle = .null → r.backend.alsaHandleStatus ≠ 0
  /-- With a device and without a break the previous measurement can be compared. -/
  previous : ∀ m, r.previous = some m → r.backend.framesSentBreakOccurred = false →
    r.backend.alsaHandle = .ready →
    m.Taken ∧
      Unbroken .ready m.framesSent r.backend.framesSentForPlaying m.events r.backend.events
  computed : ∀ p ∈ r.computed, Comparable p.1 p.2

theorem measurement_unbroken {b : Backend} (delay : ℤ) (hready : b.alsaHandle = .ready) :
    (measurement b 0 delay).Taken ∧
      Unbroken .ready (measurement b 0 delay).framesSent b.framesSentForPlaying
        (measurement b 0 delay).events b.events := by
  refine ⟨⟨?_, hready, rfl⟩, Unbroken.refl _ _ _⟩
  rw [measurement, hready]
  rfl

theorem measure_measurementsAgree (c : AlsaConfig) {r : FrameRateRun} (h : MeasurementsAgree r)
    (d : DelayAnswers)
    (hquery : r.backend.alsaHandle ≠ .null → (statsQuery c r.backend d).1 = 0) :
    MeasurementsAgree (measure c r d) := by
  rcases hstats : stats c r.backend d with ⟨hasBreak, delay, b⟩
  obtain ⟨⟨b₁, hsame, hb⟩, hgood⟩ := stats_spec h.status hstats
  have hagrees₁ := hsame.agrees h.agrees
  have hagrees : Agrees b := by
    rw [hb]
    exact ⟨hagrees₁.disconnected_iff, hagrees₁.ne_unready, hagrees₁.writes⟩
  have hhandle : b.alsaHandle = r.backend.alsaHandle := by rw [hb]; exact hsame.1
  have hstatus : b.alsaHandle = .null → b.alsaHandleStatus ≠ 0 := by
    rw [hb]
    intro hnull
    rw [hsame.1] at hnull
    exact hsame.2 ▸ h.status hnull
  have hsent : b.framesSentForPlaying = r.backend.framesSentForPlaying := by rw [hb]; exact hsame.5
  have hevents : b.events = r.backend.events := by rw [hb]; exact hsame.6
  have hstored : MeasurementsAgree { r with
      backend := b, previous := some (measurement b (statsQuery c r.backend d).1 delay) } := by
    refine ⟨hagrees, hstatus, fun m hm _ hready => ?_, h.computed⟩
    have hdevice : r.backend.alsaHandle ≠ .null := by
      rw [← hhandle, show b.alsaHandle = .ready from hready]
      exact nofun
    rw [← Option.some.inj hm, hquery hdevice]
    exact measurement_unbroken delay hready
  unfold measure
  simp only [hstats]
  cases hprevious : r.previous with
  | none => exact hstored
  | some previous =>
      cases hasBreak with
      | true => exact hstored
      | false =>
          obtain ⟨hdevice, hret, hflag⟩ := hgood rfl
          have hready : r.backend.alsaHandle = .ready :=
            h.agrees.ready fun hstate => hdevice (h.agrees.disconnected_iff.1 hstate)
          obtain ⟨hopen, hunbroken⟩ := h.previous previous hprevious hflag hready
          rw [← hsent, ← hevents] at hunbroken
          have hlater := measurement_unbroken delay (hhandle.trans hready)
          rw [hret]
          refine ⟨hagrees, hstatus, fun m hm _ _ => ?_, List.forall_mem_cons.2 ⟨?_, h.computed⟩⟩
          · obtain rfl : previous = m := Option.some.inj hm
            exact ⟨hopen, hunbroken⟩
          · exact ⟨hopen, hlater.1, hunbroken⟩

theorem frameRateStep_measurementsAgree {c : AlsaConfig} {r r' : FrameRateRun} {call : AlsaCall}
    (h : MeasurementsAgree r) (hanswers : DeviceAnswers c r.backend call)
    (hstep : frameRateStep c r call = some r') : MeasurementsAgree r' := by
  have hother : (∀ d, call ≠ .stats d) →
      (alsaStep c r.backend call).map (fun b => { r with backend := b }) = some r' →
      MeasurementsAgree r' := by
    intro hcall hstep
    obtain ⟨b, hb, rfl⟩ := Option.map_eq_some_iff.1 hstep
    have hcontinues := alsaStep_continues h.agrees h.status hanswers.1 hcall hb
    refine ⟨(alsaStep_agrees_iff h.agrees hb).2 hanswers.1, hcontinues.status, ?_, h.computed⟩
    intro m hm hflag hready
    rcases hcontinues.effect with hnull | hbreak | ⟨hhandle, hflag', hunbroken⟩
    · exact absurd (hready.symm.trans hnull) nofun
    · exact absurd (hflag.symm.trans hbreak) nofun
    · have hbefore := hhandle.symm.trans hready
      obtain ⟨hopen, hprevious⟩ := h.previous m hm (hflag'.symm.trans hflag) hbefore
      rw [hbefore] at hunbroken
      exact ⟨hopen, hprevious.trans hunbroken⟩
  cases call with
  | stats d =>
      cases hstep
      exact measure_measurementsAgree c h d hanswers.2
  | prepare a => exact hother (fun _ => nofun) hstep
  | play samples a p => exact hother (fun _ => nofun) hstep
  | flush keepDacBusy => exact hother (fun _ => nofun) hstep
  | stop keepDacBusy => exact hother (fun _ => nofun) hstep
  | monitor k hasSilence a d p => exact hother (fun _ => nofun) hstep
  | start => exact hother (fun _ => nofun) hstep

/-- In a run in which no opening of a device fails half-way and no query of `stats` fails the player
computes a rate only from measurements that can be compared. -/
theorem computed_comparable (c : AlsaConfig) (alsaOutDev : String) (calls : List AlsaCall)
    {r : FrameRateRun} (hrun : run (frameRateStep c) (.initial alsaOutDev) calls = some r)
    (hanswers : Along (frameRateStep c) (fun r call => DeviceAnswers c r.backend call)
      (.initial alsaOutDev) calls) :
    ∀ p ∈ r.computed, Comparable p.1 p.2 := by
  have hinitial : MeasurementsAgree (.initial alsaOutDev) :=
    ⟨agrees_of_null rfl rfl fun _ _ _ hmem => absurd hmem List.not_mem_nil,
      fun _ => (by decide : enodev ≠ 0), fun _ hm => absurd hm nofun,
      fun _ hp => absurd hp List.not_mem_nil⟩
  exact (run_invariant (fun r call r' h _ hanswers hstep _ =>
    frameRateStep_measurementsAgree h hanswers hstep) hinitial (throughout_true _ _) hanswers
      hrun).computed

def opens : OpenAnswers := { prepareFails with steps := fun _ => 0 }

def measuredTwice : List AlsaCall :=
  [.prepare opens, .stats preparedAnswers, .play 352 opens packetAnswers, .stats preparedAnswers]

theorem computed_comparable_measuredTwice :
    ∃ r, run (frameRateStep usualConfig) (.initial "default") measuredTwice = some r ∧
      r.computed.length = 1 ∧ ∀ p ∈ r.computed, Comparable p.1 p.2 := by
  refine ⟨_, rfl, rfl, computed_comparable usualConfig "default" measuredTwice rfl ?_⟩
  have hwhole : ∀ b, ¬opens.FailsHalfWay usualConfig b := by
    rintro b ⟨_, ret, hlt, hret⟩
    exact absurd (Option.some.inj hret) hlt.ne'
  have hopens : ∀ b, SetsUp usualConfig b (.prepare opens) ∧
      SetsUp usualConfig b (.play 352 opens packetAnswers) := by
    refine fun b => ⟨fun a ha => ?_, fun a ha => ?_⟩ <;>
    · unfold opening at ha
      split_ifs at ha
      exact Option.some.inj ha ▸ hwhole b
  rintro _ ⟨⟩
  refine ⟨⟨(hopens _).1, trivial⟩, ?_⟩
  rintro _ ⟨⟩
  refine ⟨⟨setsUp_of_none rfl, fun _ => by decide +kernel⟩, ?_⟩
  rintro _ ⟨⟩
  refine ⟨⟨(hopens _).2, trivial⟩, ?_⟩
  rintro _ ⟨⟩
  exact ⟨⟨setsUp_of_none rfl, fun _ => by decide +kernel⟩, trivial⟩

/-- There is a measurement without a device, one after an opening that fails half-way, and no break
between them. -/
theorem not_comparable_prepareFails :
    ∃ r, run (frameRateStep usualConfig) (.initial "default")
        [.stats preparedAnswers, .prepare prepareFails, .stats preparedAnswers] = some r ∧
      ¬∀ p ∈ r.computed, Comparable p.1 p.2 := by
  refine ⟨_, rfl, fun h => ?_⟩
  have hearlier := (h _ List.mem_cons_self).earlier_taken.timed
  exact absurd hearlier (by decide +kernel)

def delayFails : DelayAnswers := ⟨0, .running, 0, 0, 0, -5, 0⟩

/-- A rate is computed from what is known of 8820 frames when their delay is not. -/
example : (run (frameRateStep usualConfig) (.initial "default")
    [.prepare opens, .play 8820 opens ⟨preparedAnswers, 8820, 0, 0, 0⟩, .stats delayFails,
      .stats preparedAnswers]).map (fun r => r.computed.map fun p => p.1.queryRet) =
    some [-5] := by
  decide +kernel

end Alsa

end ShairportSync
