import ShairportSync.Alsa.Backend

/-!
# The handle and the state of the ALSA back end

The back end counts as disconnected exactly if `alsa_handle` is `NULL`, as long as no opening fails
half-way. `open_alsa_device` then returns an error, and `do_open` leaves the back end disconnected,
with the handle of a device that nothing closes. The next call finds the device "already open" and
writes to it.
-/

namespace ShairportSync

namespace Alsa

open Transition

/-! ## What opening changes -/

/-- A device that `snd_pcm_open` has opened is set up in part, up to a step that is not fatal. -/
def OpenAnswers.FailsHalfWay (c : AlsaConfig) (b : Backend) (a : OpenAnswers) : Prop :=
  openResult b a = 0 ∧ ∃ ret < 0, setUp a.steps c.setUpSteps = some ret

structure OpenFailed (b b' : Backend) : Prop where
  alsaHandle : b'.alsaHandle = .null
  alsaHandleStatus : b'.alsaHandleStatus ≠ 0
  alsaBackendState : b'.alsaBackendState = b.alsaBackendState
  framesSentBreakOccurred : b'.framesSentBreakOccurred = true
  events : b'.events = b.events

structure HalfOpened (b b' : Backend) : Prop where
  alsaHandle : b'.alsaHandle = .unready
  alsaBackendState : b'.alsaBackendState = b.alsaBackendState

/-- The device is open. There may be silence in it. -/
structure FullyOpened (b b' : Backend) : Prop where
  alsaHandle : b'.alsaHandle = .ready
  alsaBackendState : b'.alsaBackendState = .connected
  framesSentBreakOccurred : b'.framesSentBreakOccurred = true
  events : ∃ writes, b'.events = writes ++ .opened :: b.events ∧
    ∀ e ∈ writes, ∃ samples ret, e = .wrote .ready samples ret

theorem setUp_le {answers : SetUpStep → ℤ} {steps : List SetUpStep} {ret : ℤ}
    (h : setUp answers steps = some ret) : ret = 0 ∨ ret < 0 := by
  induction steps with
  | nil => exact .inl (Option.some.inj h).symm
  | cons step steps ih =>
      unfold setUp at h
      split_ifs at h with hfails
      · exact .inr (Option.some.inj h ▸ hfails)
      · exact ih h

theorem precisionDelayAvailable_played {c : AlsaConfig} {b b' : Backend} {a : OpenAnswers}
    {available : Bool} (h : precisionDelayAvailable c b a = some (available, b')) :
    Played b 4410 b' := by
  unfold precisionDelayAvailable at h
  split_ifs at h
  · obtain ⟨⟨ret, b₁⟩, hb₁, h⟩ := Option.bind_eq_some_iff.1 h
    have hstatus := precisionDelayAndStatus_sameDevice c b₁ a.after
    rcases hb₂ : precisionDelayAndStatus c b₁ a.after with ⟨status, b₂⟩
    rw [hb₂] at hstatus
    simp only [hb₂, Option.some.injEq, Prod.mk.injEq] at h
    obtain ⟨-, rfl⟩ := h
    refine (doPlay_played hb₁).trans_sameDevice (hstatus.trans ?_)
    split_ifs <;> exact ⟨rfl, rfl, rfl, rfl, rfl, rfl⟩
  · cases h
    exact (SameDevice.refl b).played 4410

theorem selectTiming_played {c : AlsaConfig} {b b' : Backend} {a : OpenAnswers}
    (h : selectTiming c b a = some b') : Played b 4410 b' := by
  unfold selectTiming at h
  split at h
  · cases h
    exact ⟨rfl, rfl, rfl, .inl ⟨rfl, rfl, rfl⟩⟩
  · cases h
    exact (SameDevice.refl b).played 4410
  · obtain ⟨⟨available, b₁⟩, hb₁, h⟩ := Option.bind_eq_some_iff.1 h
    cases h
    refine (precisionDelayAvailable_played hb₁).trans_sameDevice ?_
    split_ifs <;> exact ⟨rfl, rfl, rfl, rfl, rfl, rfl⟩

/-- What `open_alsa_device` does. -/
theorem openAlsaDevice_cases {c : AlsaConfig} {b b' : Backend} {a : OpenAnswers} {ret : ℤ}
    (h : openAlsaDevice c b a = some (ret, b')) :
    (ret ≠ 0 ∧ OpenFailed b b' ∧ ¬a.FailsHalfWay c b) ∨
      (ret ≠ 0 ∧ HalfOpened b b' ∧ a.FailsHalfWay c b) ∨
      (ret = 0 ∧ ¬a.FailsHalfWay c b ∧ b'.alsaHandle = .ready ∧
        ∃ writes, b'.events = writes ++ .opened :: b.events ∧
          ∀ e ∈ writes, ∃ samples ret, e = .wrote .ready samples ret) := by
  unfold openAlsaDevice at h
  by_cases hopen : openResult b a = 0
  · simp only [hopen, ne_eq, not_true_eq_false, if_false] at h
    obtain ⟨r, hr, h⟩ := Option.bind_eq_some_iff.1 h
    rcases setUp_le hr with rfl | hneg
    · have hwhole : ¬a.FailsHalfWay c b := by
        rintro ⟨_, r, hlt, hr'⟩
        rw [hr] at hr'
        exact absurd (Option.some.inj hr') hlt.ne'
      rw [if_neg (lt_irrefl 0)] at h
      obtain ⟨b₁, hb₁, h⟩ := Option.bind_eq_some_iff.1 h
      cases h
      have hplayed := selectTiming_played hb₁
      refine .inr (.inr ⟨rfl, hwhole, hplayed.alsaHandle, ?_⟩)
      rcases hplayed.effect with ⟨_, _, hevents⟩ | ⟨ret, _, _, hevents⟩
      · exact ⟨[], hevents, fun e he => absurd he List.not_mem_nil⟩
      · exact ⟨[_], hevents, fun e he => ⟨4410, ret, List.mem_singleton.1 he⟩⟩
    · rw [if_pos hneg] at h
      cases h
      exact .inr (.inl ⟨hneg.ne, ⟨rfl, rfl⟩, hopen, ret, hneg, hr⟩)
  · simp only [hopen, ne_eq, not_false_eq_true, if_true] at h
    cases h
    exact .inl ⟨hopen, ⟨rfl, hopen, rfl, rfl, rfl⟩, fun hhalf => hopen hhalf.1⟩

/-- What `do_open` does if there is no handle. -/
theorem doOpen_cases {c : AlsaConfig} {b b' : Backend} {a : OpenAnswers} {ret : ℤ}
    (hnull : b.alsaHandle = .null) (h : doOpen c b a = some (ret, b')) :
    (ret ≠ 0 ∧ OpenFailed b b' ∧ ¬a.FailsHalfWay c b) ∨
      (ret ≠ 0 ∧ HalfOpened b b' ∧ a.FailsHalfWay c b) ∨
      (ret = 0 ∧ FullyOpened b b' ∧ ¬a.FailsHalfWay c b) := by
  unfold doOpen at h
  rw [if_pos hnull] at h
  obtain ⟨⟨r, b₁⟩, hb₁, h⟩ := Option.bind_eq_some_iff.1 h
  have hcases := openAlsaDevice_cases hb₁
  by_cases hzero : r = 0
  · simp only [hzero, if_true, Option.some.injEq, Prod.mk.injEq] at h
    obtain ⟨rfl, rfl⟩ := h
    rcases hcases with ⟨hne, _⟩ | ⟨hne, _⟩ | ⟨_, hwhole, hready, hevents⟩
    · exact absurd hzero hne
    · exact absurd hzero hne
    · exact .inr (.inr ⟨rfl, ⟨hready, rfl, rfl, hevents⟩, hwhole⟩)
  · simp only [hzero, if_false] at h
    have hlast : r = ret ∧ SameDevice b₁ b' := by
      split_ifs at h
      · obtain ⟨b₂, hb₂, heq⟩ := Option.map_eq_some_iff.1 h
        cases heq
        exact ⟨rfl, handleUnfixableError_sameDevice hb₂⟩
      · cases h
        exact ⟨rfl, SameDevice.refl _⟩
    obtain ⟨rfl, hsame⟩ := hlast
    rcases hcases with ⟨_, hfailed, hwhole⟩ | ⟨_, hhalf, hfails⟩ | ⟨hr, _⟩
    · refine .inl ⟨hzero, ⟨hsame.1.trans hfailed.1, ?_, hsame.3.trans hfailed.3,
        hsame.4.trans hfailed.4, hsame.6.trans hfailed.5⟩, hwhole⟩
      rw [hsame.2]
      exact hfailed.2
    · exact .inr (.inl ⟨hzero, ⟨hsame.1.trans hhalf.1, hsame.3.trans hhalf.2⟩, hfails⟩)
    · exact absurd hr hzero

/-! ## The handle and the state -/

/-- What is asked whenever the mutex is free. -/
structure Agrees (b : Backend) : Prop where
  disconnected_iff : b.alsaBackendState = .disconnected ↔ b.alsaHandle = .null
  /-- An open device has been set up to the end. -/
  ne_unready : b.alsaHandle ≠ .unready
  /-- So had every device that was written to. -/
  writes : ∀ handle samples ret, DeviceEvent.wrote handle samples ret ∈ b.events → handle = .ready

/-- What a call has for `do_open`, if it opens the device. -/
def opening (b : Backend) : AlsaCall → Option OpenAnswers
  | .prepare a | .play _ a _ =>
      if b.alsaBackendState = .disconnected ∧ b.alsaHandle = .null then some a else none
  | .monitor k _ a _ _ =>
      if b.alsaBackendState = .disconnected ∧ k.opening ∧ b.alsaHandle = .null then some a
      else none
  | .flush _ | .stop _ | .stats _ | .start => none

/-- The call does not leave a device that is set up in part. -/
def SetsUp (c : AlsaConfig) (b : Backend) (call : AlsaCall) : Prop :=
  ∀ a, opening b call = some a → ¬a.FailsHalfWay c b

theorem setsUp_of_none {c : AlsaConfig} {b : Backend} {call : AlsaCall}
    (h : opening b call = none) : SetsUp c b call := by
  intro a ha
  rw [h] at ha
  exact absurd ha.symm (Option.some_ne_none a)

theorem setsUp_iff {c : AlsaConfig} {b : Backend} {call : AlsaCall} {a : OpenAnswers}
    (h : opening b call = some a) : SetsUp c b call ↔ ¬a.FailsHalfWay c b := by
  refine ⟨fun hup => hup a h, fun hwhole a' ha' => ?_⟩
  rw [h] at ha'
  obtain rfl := Option.some.inj ha'
  exact hwhole

theorem Agrees.ready {b : Backend} (h : Agrees b) (hstate : b.alsaBackendState ≠ .disconnected) :
    b.alsaHandle = .ready := by
  cases hhandle : b.alsaHandle with
  | null => exact absurd (h.disconnected_iff.2 hhandle) hstate
  | unready => exact absurd hhandle h.ne_unready
  | ready => rfl

theorem agrees_of_null {b : Backend} (hnull : b.alsaHandle = .null)
    (hstate : b.alsaBackendState = .disconnected)
    (hwrites : ∀ handle samples ret,
      DeviceEvent.wrote handle samples ret ∈ b.events → handle = .ready) : Agrees b := by
  refine ⟨iff_of_true hstate hnull, ?_, hwrites⟩
  rw [hnull]
  decide

theorem agrees_of_ready {b : Backend} (hready : b.alsaHandle = .ready)
    (hstate : b.alsaBackendState ≠ .disconnected)
    (hwrites : ∀ handle samples ret,
      DeviceEvent.wrote handle samples ret ∈ b.events → handle = .ready) : Agrees b := by
  refine ⟨iff_of_false hstate ?_, ?_, hwrites⟩
  · rw [hready]
    decide
  · rw [hready]
    decide

/-- An event that is not a write asks for nothing. -/
theorem forall_wrote_cons {e : DeviceEvent} {events : List DeviceEvent}
    (he : ∀ handle samples ret, DeviceEvent.wrote handle samples ret ≠ e)
    (h : ∀ handle samples ret, DeviceEvent.wrote handle samples ret ∈ events → handle = .ready) :
    ∀ handle samples ret, DeviceEvent.wrote handle samples ret ∈ e :: events →
      handle = .ready := by
  intro handle samples ret hmem
  rcases List.mem_cons.1 hmem with heq | hmem
  · exact absurd heq (he handle samples ret)
  · exact h handle samples ret hmem

theorem SameDevice.agrees {b b' : Backend} (h : Agrees b) (hsame : SameDevice b b') :
    Agrees b' := by
  refine ⟨?_, ?_, ?_⟩
  · rw [hsame.1, hsame.3]
    exact h.disconnected_iff
  · rw [hsame.1]
    exact h.ne_unready
  · rw [hsame.6]
    exact h.writes

theorem Played.agrees {b b' : Backend} {samples : ℕ} (h : Agrees b) (hready : b.alsaHandle = .ready)
    (hplayed : Played b samples b') : Agrees b' := by
  refine ⟨?_, ?_, ?_⟩
  · rw [hplayed.1, hplayed.3]
    exact h.disconnected_iff
  · rw [hplayed.1]
    exact h.ne_unready
  · rcases hplayed.effect with ⟨_, _, hevents⟩ | ⟨r, _, _, hevents⟩
    · rw [hevents]
      exact h.writes
    · rw [hevents, hready]
      intro handle n ret hmem
      rcases List.mem_cons.1 hmem with heq | hmem
      · exact (DeviceEvent.wrote.inj heq).1
      · exact h.writes handle n ret hmem

theorem OpenFailed.agrees {b b' : Backend} (h : Agrees b)
    (hstate : b.alsaBackendState = .disconnected) (hfailed : OpenFailed b b') : Agrees b' := by
  refine agrees_of_null hfailed.1 (hfailed.3.trans hstate) ?_
  rw [hfailed.5]
  exact h.writes

theorem HalfOpened.not_agrees {b b' : Backend} (hhalf : HalfOpened b b') : ¬Agrees b' :=
  fun h => h.ne_unready hhalf.1

theorem FullyOpened.agrees {b b' : Backend} (h : Agrees b) (hfull : FullyOpened b b') :
    Agrees b' := by
  refine agrees_of_ready hfull.1 (by rw [hfull.2]; decide) ?_
  obtain ⟨writes, hevents, hwrites⟩ := hfull.events
  rw [hevents]
  intro handle n ret hmem
  rcases List.mem_append.1 hmem with hmem | hmem
  · obtain ⟨samples, r, heq⟩ := hwrites _ hmem
    exact (DeviceEvent.wrote.inj heq).1
  · exact forall_wrote_cons (by simp) h.writes handle n ret hmem

theorem doClose_agrees {b : Backend} (h : Agrees b) : Agrees (doClose b) := by
  unfold doClose
  split_ifs with hnull
  · exact agrees_of_null hnull rfl h.writes
  · exact agrees_of_null rfl rfl (forall_wrote_cons (by simp) h.writes)

theorem subFlush_agrees {b : Backend} (h : Agrees b) : Agrees (subFlush b) := by
  unfold subFlush
  split_ifs with hnull
  · exact h
  · exact ⟨iff_of_false (by simp) hnull, h.ne_unready, forall_wrote_cons (by simp) h.writes⟩

theorem fillWithSilence_agrees {c : AlsaConfig} {b b' : Backend} {hasSilence : Bool}
    {d : DelayAnswers} {p : PlayAnswers} (h : Agrees b) (hready : b.alsaHandle = .ready)
    (hstep : fillWithSilence c b hasSilence d p = some b') : Agrees b' := by
  unfold fillWithSilence at hstep
  have hstatus := delayAndStatus_sameDevice c b d
  rcases hb₁ : delayAndStatus c b d with ⟨status, b₁⟩
  rw [hb₁] at hstep hstatus
  simp only at hstep hstatus
  have hagrees := hstatus.agrees h
  generalize (if status.ret ≠ 0 then (0 : ℤ) else status.delay) = bufferSize at hstep
  split_ifs at hstep
  · obtain ⟨⟨r, b₂⟩, hb₂, rfl⟩ := Option.map_eq_some_iff.1 hstep
    exact (doPlay_played hb₂).agrees hagrees (hstatus.1.trans hready)
  · cases hstep
    exact hagrees

/-! ## Runs -/

/-- An opening in an agreeing state keeps the agreement exactly if it does not fail half-way. -/
theorem doOpen_agrees_iff {c : AlsaConfig} {b b' : Backend} {a : OpenAnswers} {ret : ℤ}
    (h : Agrees b) (hstate : b.alsaBackendState = .disconnected)
    (hopen : doOpen c b a = some (ret, b')) :
    (Agrees b' ↔ ¬a.FailsHalfWay c b) ∧
      (ret = 0 → Agrees b' ∧ b'.alsaHandle = .ready) ∧
      (ret ≠ 0 → b'.alsaBackendState = .disconnected) := by
  rcases doOpen_cases (h.disconnected_iff.1 hstate) hopen with
    ⟨hret, hfailed, hwhole⟩ | ⟨hret, hhalf, hfails⟩ | ⟨hret, hfull, hwhole⟩
  · exact ⟨iff_of_true (hfailed.agrees h hstate) hwhole, fun hzero => absurd hzero hret,
      fun _ => hfailed.3.trans hstate⟩
  · exact ⟨iff_of_false hhalf.not_agrees (not_not.2 hfails), fun hzero => absurd hzero hret,
      fun _ => hhalf.2.trans hstate⟩
  · exact ⟨iff_of_true (hfull.agrees h) hwhole, fun _ => ⟨hfull.agrees h, hfull.1⟩,
      fun hne => absurd hret hne⟩

theorem prepare_agrees_iff {c : AlsaConfig} {b b' : Backend} {a : OpenAnswers} (h : Agrees b)
    (hstep : prepare c b a = some b') : Agrees b' ↔ SetsUp c b (.prepare a) := by
  unfold prepare at hstep
  split_ifs at hstep with hstate
  · obtain ⟨⟨ret, b₁⟩, hopen, rfl⟩ := Option.map_eq_some_iff.1 hstep
    have hopening : Alsa.opening b (.prepare a) = some a :=
      if_pos ⟨hstate, h.disconnected_iff.1 hstate⟩
    rw [setsUp_iff hopening]
    exact (doOpen_agrees_iff h hstate hopen).1
  · cases hstep
    exact iff_of_true h (setsUp_of_none (if_neg fun hand => hstate hand.1))

theorem play_agrees_iff {c : AlsaConfig} {b b' : Backend} {samples : ℕ} {a : OpenAnswers}
    {p : PlayAnswers} (h : Agrees b) (hstep : play c b samples a p = some b') :
    Agrees b' ↔ SetsUp c b (.play samples a p) := by
  have hplay : ∀ {b₁ : Backend}, Agrees b₁ → b₁.alsaHandle = .ready →
      (doPlay c { b₁ with alsaBackendState := .playing } samples p).map Prod.snd = some b' →
      Agrees b' := by
    intro b₁ hagrees hready hstep
    have hplaying : Agrees { b₁ with alsaBackendState := .playing } :=
      agrees_of_ready hready (by simp) hagrees.writes
    obtain ⟨⟨ret, b₂⟩, hb₂, rfl⟩ := Option.map_eq_some_iff.1 hstep
    exact (doPlay_played hb₂).agrees hplaying hready
  unfold play at hstep
  split_ifs at hstep with hstate
  · obtain ⟨⟨ret, b₁⟩, hopen, hstep⟩ := Option.bind_eq_some_iff.1 hstep
    obtain ⟨hiff, hzero, _⟩ := doOpen_agrees_iff h hstate hopen
    have hopening : Alsa.opening b (.play samples a p) = some a :=
      if_pos ⟨hstate, h.disconnected_iff.1 hstate⟩
    rw [setsUp_iff hopening, ← hiff]
    by_cases hret : ret = 0
    · simp only [hret, if_true] at hstep
      obtain ⟨hagrees, hready⟩ := hzero hret
      exact iff_of_true (hplay hagrees hready hstep) hagrees
    · simp only [hret, if_false, Option.some.injEq] at hstep
      rw [hstep]
  · simp only [Option.bind_eq_bind, Option.bind_some, if_true] at hstep
    exact iff_of_true (hplay h (h.ready hstate) hstep)
      (setsUp_of_none (if_neg fun hand => hstate hand.1))

theorem monitor_agrees_iff {c : AlsaConfig} {b b' : Backend} {k : KeepDacBusyReads}
    {hasSilence : Bool} {a : OpenAnswers} {d : DelayAnswers} {p : PlayAnswers} (h : Agrees b)
    (hstep : monitor c b k hasSilence a d p = some b') :
    Agrees b' ↔ SetsUp c b (.monitor k hasSilence a d p) := by
  have hokb : Agrees { b with okb := k.okb b.okb } :=
    ⟨h.disconnected_iff, h.ne_unready, h.writes⟩
  have hfill : ∀ {b₁ : Backend}, Agrees b₁ →
      (if b₁.alsaBackendState ≠ .disconnected ∧ k.filling then fillWithSilence c b₁ hasSilence d p
        else some b₁) = some b' → Agrees b' := by
    intro b₁ hagrees hstep
    split_ifs at hstep with hstate
    · exact fillWithSilence_agrees hagrees (hagrees.ready hstate.1) hstep
    · cases hstep
      exact hagrees
  unfold monitor at hstep
  simp only at hstep
  split_ifs at hstep with hopens hcloses
  · obtain ⟨b₁, hb₁, hstep⟩ := Option.bind_eq_some_iff.1 hstep
    obtain ⟨⟨ret, b₂⟩, hopen, rfl⟩ := Option.map_eq_some_iff.1 hb₁
    obtain ⟨hiff, hzero, hfails⟩ := doOpen_agrees_iff hokb hopens.1 hopen
    have hopening : Alsa.opening b (.monitor k hasSilence a d p) = some a :=
      if_pos ⟨hopens.1, hopens.2, h.disconnected_iff.1 hopens.1⟩
    rw [setsUp_iff hopening]
    refine Iff.trans ?_ hiff
    by_cases hret : ret = 0
    · exact iff_of_true (hfill (hzero hret).1 hstep) (hzero hret).1
    · have hstate := hfails hret
      simp only [hstate, ne_eq, not_true_eq_false, false_and, if_false, Option.some.injEq] at hstep
      rw [hstep]
  · simp only [Option.bind_eq_bind, Option.bind_some] at hstep
    refine iff_of_true (hfill (doClose_agrees ?_) hstep)
      (setsUp_of_none (if_neg fun hand => hcloses.1 hand.1))
    exact ⟨h.disconnected_iff, h.ne_unready, h.writes⟩
  · simp only [Option.bind_eq_bind, Option.bind_some] at hstep
    exact iff_of_true (hfill hokb hstep)
      (setsUp_of_none (if_neg fun hand => hopens ⟨hand.1, hand.2.1⟩))

theorem alsaStep_agrees_iff {c : AlsaConfig} {b b' : Backend} {call : AlsaCall} (h : Agrees b)
    (hstep : alsaStep c b call = some b') : Agrees b' ↔ SetsUp c b call := by
  cases call with
  | prepare a => exact prepare_agrees_iff h hstep
  | play samples a p => exact play_agrees_iff h hstep
  | flush keepDacBusy =>
      cases hstep
      refine iff_of_true ?_ (setsUp_of_none rfl)
      unfold flush
      split_ifs
      · exact subFlush_agrees h
      · exact h
  | stop keepDacBusy =>
      cases hstep
      refine iff_of_true ?_ (setsUp_of_none rfl)
      unfold stop
      split_ifs
      · exact doClose_agrees h
      · exact h
  | monitor k hasSilence a d p => exact monitor_agrees_iff h hstep
  | stats d =>
      cases hstep
      refine iff_of_true ?_ (setsUp_of_none rfl)
      have hstatus := delayAndStatus_sameDevice c b d
      unfold stats statsQuery
      split_ifs
      · exact ⟨h.disconnected_iff, h.ne_unready, h.writes⟩
      · have hagrees := hstatus.agrees h
        exact ⟨hagrees.disconnected_iff, hagrees.ne_unready, hagrees.writes⟩
  | start =>
      cases hstep
      exact iff_of_true ⟨h.disconnected_iff, h.ne_unready, h.writes⟩ (setsUp_of_none rfl)

/-- In a run from the start of the program the handle and the state agree all the time exactly if no
opening of a device fails half-way. -/
theorem throughout_agrees_iff (c : AlsaConfig) (alsaOutDev : String) (calls : List AlsaCall) :
    Throughout (alsaStep c) Agrees (Backend.initial alsaOutDev) calls ↔
      Along (alsaStep c) (SetsUp c) (Backend.initial alsaOutDev) calls :=
  throughout_iff_along (fun _ _ _ h hstep => alsaStep_agrees_iff h hstep)
    (agrees_of_null rfl rfl fun _ _ _ hmem => absurd hmem List.not_mem_nil)

/-! ## A device that is set up in part -/

def usualConfig : AlsaConfig where
  setPeriodSizeRequest := false
  setBufferSizeRequest := false
  usePrecisionTiming := .no
  outputRate := 44100
  bufferSizeThreshold := 1764
  hasCmdUnfixable := false
  stallMonitorErrorThreshold := 858993459

def preparedAnswers : DelayAnswers := ⟨0, .prepared, 0, 0, 0, 0, 0⟩

def packetAnswers : PlayAnswers := ⟨preparedAnswers, 352, 0, 0, 0⟩

/-- The device is opened, and `snd_pcm_prepare` fails with `-EIO`. -/
def prepareFails : OpenAnswers where
  openRet := 0
  openHw0Ret := 0
  steps := fun step => if step = .prepare then -5 else 0
  hasSilence := true
  isARealHardwareDevice := true
  play := packetAnswers
  after := preparedAnswers

/-- The back end is disconnected with a handle, and `play` then writes to it. -/
theorem not_agrees_prepareFails :
    ¬Throughout (alsaStep usualConfig) Agrees (Backend.initial "default")
        [.prepare prepareFails, .play 352 prepareFails packetAnswers] ∧
      (run (alsaStep usualConfig) (Backend.initial "default")
        [.prepare prepareFails, .play 352 prepareFails packetAnswers]).map Backend.events =
        some [.wrote .unready 352 352, .opened] := by
  refine ⟨fun h => ?_, by decide +kernel⟩
  have hlast := (h.2 _ rfl).1.disconnected_iff.1 rfl
  exact absurd hlast (by decide +kernel)

end Alsa

end ShairportSync
