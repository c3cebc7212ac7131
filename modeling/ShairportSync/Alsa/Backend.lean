import Mathlib.Algebra.Order.Ring.Int
import ShairportSync.Transition.Run

/-!
# The ALSA back end

The calls of `audio_alsa.c` that open, use and close the output device, as the program makes them
with `alsa_mutex` held. What a call of the ALSA library returns is given with the call that makes
it, and so is what `keep_dac_busy` is each time it is read. A call of `die` ends the run.

A device that has been opened is set up in many steps. Some of them are fatal if they fail, and
others make `open_alsa_device` return the error, with `alsa_handle` as `snd_pcm_open` has set it.
The volume of the mixer is left out.
-/

namespace ShairportSync

namespace Alsa

/-! ## State -/

/-- Error numbers, as they are in the C library. -/
def enoent : ℤ := 2

def ebusy : ℤ := 16

def enodev : ℤ := 19

def epipe : ℤ := 32

def enosys : ℤ := 38

def estrpipe : ℤ := 86

def ehostdown : ℤ := 112

def spsExtraCodeOutputStalled : ℤ := 32768

inductive SndPcmState where
  | open
  | setup
  | prepared
  | running
  | xrun
  | draining
  | paused
  | suspended
  | disconnected
deriving DecidableEq

inductive AlsaHandle where
  | null
  /-- A device that is open and that has not been set up to the end. -/
  | unready
  | ready
deriving DecidableEq

inductive AlsaBackendState where
  | disconnected
  | connected
  | playing
deriving DecidableEq

inductive YesNoAuto where
  | yes
  | no
  | auto
deriving DecidableEq

inductive DeviceEvent where
  | opened
  | closed
  | flushed
  /-- Frames are written to what is behind `alsa_handle`, and the call returns this. -/
  | wrote (handle : AlsaHandle) (samples : ℕ) (ret : ℤ)
deriving DecidableEq

structure AlsaConfig where
  setPeriodSizeRequest : Bool
  setBufferSizeRequest : Bool
  usePrecisionTiming : YesNoAuto
  outputRate : BitVec 64
  /-- `disable_standby_mode_silence_threshold`, in frames -/
  bufferSizeThreshold : ℤ
  hasCmdUnfixable : Bool
  stallMonitorErrorThreshold : BitVec 64

/-- The variables of `audio_alsa.c`. The program does not keep the events of the device, which are
here with the last one first. -/
structure Backend where
  alsaHandle : AlsaHandle
  alsaHandleStatus : ℤ
  alsaOutDev : String
  alsaBackendState : AlsaBackendState
  framesSentBreakOccurred : Bool
  framesSentForPlaying : BitVec 64
  stallMonitorStartTime : BitVec 64
  stallMonitorFrameCount : ℤ
  /-- Whether `delay_and_status` is `precision_delay_and_status`. -/
  precision : Bool
  precisionDelayAvailableStatus : Option Bool
  unfixableErrorReported : Bool
  /-- `okb` of the buffer monitor, which starts as -1. -/
  okb : Option Bool
  events : List DeviceEvent

def Backend.initial (alsaOutDev : String) : Backend where
  alsaHandle := .null
  alsaHandleStatus := enodev
  alsaOutDev := alsaOutDev
  alsaBackendState := .disconnected
  framesSentBreakOccurred := false
  framesSentForPlaying := 0
  stallMonitorStartTime := 0
  stallMonitorFrameCount := 0
  precision := false
  precisionDelayAvailableStatus := none
  unfixableErrorReported := false
  okb := none
  events := []

/-! ## Delay and status -/

structure DelayAnswers where
  /-- `snd_pcm_status` -/
  statusRet : ℤ
  state : SndPcmState
  updateTimestampNs : BitVec 64
  /-- `snd_pcm_status_get_delay` -/
  statusDelay : ℤ
  timeNowNs : BitVec 64
  /-- `snd_pcm_delay` -/
  delayRet : ℤ
  delay : ℤ

/-- What `delay_and_status` returns, with what it stores. -/
structure DelayAndStatus where
  ret : ℤ
  state : SndPcmState
  delay : ℤ
  /-- There is no answer if it is not known. -/
  usingUpdateTimestamps : Option Bool

def SndPcmState.isActive (s : SndPcmState) : Bool := s = .running || s = .draining

def standardDelayAndStatus (b : Backend) (a : DelayAnswers) : DelayAndStatus × Backend :=
  let answer : DelayAndStatus :=
    if b.alsaHandle = .null then ⟨b.alsaHandleStatus, .disconnected, 0, some false⟩
    else if a.state.isActive then ⟨a.delayRet, a.state, a.delay, some false⟩
    else ⟨0, a.state, 0, some false⟩
  (answer, { b with stallMonitorStartTime := 0, stallMonitorFrameCount := 0 })

/-- "see if it's stalled" -/
def checkStalled (c : AlsaConfig) (b : Backend) (a : DelayAnswers) : ℤ × Backend :=
  if b.stallMonitorStartTime ≠ 0 ∧ b.stallMonitorFrameCount = a.statusDelay then
    if c.stallMonitorErrorThreshold < a.updateTimestampNs - b.stallMonitorStartTime ∨
        c.stallMonitorErrorThreshold < a.timeNowNs - b.stallMonitorStartTime then
      (spsExtraCodeOutputStalled, b)
    else (0, b)
  else
    (0, { b with
      stallMonitorStartTime := a.updateTimestampNs, stallMonitorFrameCount := a.statusDelay })

/-- The delay less what has been played since the time stamp. -/
def extrapolatedDelay (c : AlsaConfig) (a : DelayAnswers) : ℤ :=
  let delta := a.timeNowNs - a.updateTimestampNs
  let framesPlayedSinceLastInterrupt := (c.outputRate * delta) / 1000000000
  a.statusDelay - framesPlayedSinceLastInterrupt.toInt

def precisionDelayAndStatus (c : AlsaConfig) (b : Backend) (a : DelayAnswers) :
    DelayAndStatus × Backend :=
  if b.alsaHandle = .null then (⟨b.alsaHandleStatus, .disconnected, 0, none⟩, b)
  else if a.statusRet ≠ 0 then (⟨a.statusRet, .disconnected, 0, none⟩, b)
  else if a.state.isActive then
    if a.updateTimestampNs = 0 then (⟨a.delayRet, a.state, a.delay, some false⟩, b)
    else
      let (ret, b) := checkStalled c b a
      let delay := if ret = 0 then extrapolatedDelay c a else a.statusDelay
      (⟨ret, a.state, delay, some true⟩, b)
  else
    (⟨0, a.state, 0, none⟩, { b with stallMonitorStartTime := 0, stallMonitorFrameCount := 0 })

def delayAndStatus (c : AlsaConfig) (b : Backend) (a : DelayAnswers) : DelayAndStatus × Backend :=
  if b.precision then precisionDelayAndStatus c b a else standardDelayAndStatus b a

/-! ## Playing -/

structure PlayAnswers where
  before : DelayAnswers
  /-- `alsa_pcm_write` -/
  written : ℤ
  recover : ℤ
  resume : ℤ
  prepare : ℤ

def handleUnfixableError (c : AlsaConfig) (b : Backend) : Option Backend :=
  if b.unfixableErrorReported then some b
  else if c.hasCmdUnfixable then some { b with unfixableErrorReported := true }
  else none

/-- The write in `do_play`, and what is done if not all has been written. -/
def writeFrames (b : Backend) (samples : ℕ) (a : PlayAnswers) : ℤ × Backend :=
  let ret := a.written
  let b := { b with
    framesSentForPlaying :=
      if 0 < ret then b.framesSentForPlaying + BitVec.ofInt 64 ret else b.framesSentForPlaying
    events := .wrote b.alsaHandle samples ret :: b.events }
  if ret = samples then
    (ret, { b with stallMonitorFrameCount := b.stallMonitorFrameCount + samples })
  else
    let b := { b with framesSentBreakOccurred := true }
    if ret = -epipe then (a.recover, b)
    else if ret = -estrpipe then (if a.resume = -enosys then a.prepare else a.resume, b)
    else (ret, b)

def doPlay (c : AlsaConfig) (b : Backend) (samples : ℕ) (a : PlayAnswers) :
    Option (ℤ × Backend) :=
  if samples = 0 then some (0, b)
  else
    let (status, b) := delayAndStatus c b a.before
    let (ret, b) := if status.ret = 0 then writeFrames b samples a else (status.ret, b)
    if ret = -enoent ∨ ret = -enodev then
      (handleUnfixableError c b).map fun b => (ret, b)
    else some (ret, b)

/-! ## Opening -/

inductive SetUpStep where
  | hwParamsAny
  | setAccess
  | setChannels
  | setFormat
  | setRate
  | setPeriodSize
  | setBufferSize
  | hwParams
  /-- The device is to have the rate that it is asked for. -/
  | checkRate
  | getBufferSize
  | swParamsCurrent
  | setTstampMode
  | swParams
  | prepare
deriving DecidableEq

/-- Whether the program dies if the step fails. Else it gives a warning. -/
def SetUpStep.dies : SetUpStep → Bool
  | hwParamsAny | setAccess | setChannels | setFormat | setRate | hwParams | checkRate => true
  | setPeriodSize | setBufferSize | getBufferSize | swParamsCurrent | setTstampMode | swParams
  | prepare => false

def AlsaConfig.setUpSteps (c : AlsaConfig) : List SetUpStep :=
  [.hwParamsAny, .setAccess, .setChannels, .setFormat, .setRate] ++
    (if c.setPeriodSizeRequest then [.setPeriodSize] else []) ++
    (if c.setBufferSizeRequest then [.setBufferSize] else []) ++
    [.hwParams, .checkRate, .getBufferSize, .swParamsCurrent, .setTstampMode, .swParams, .prepare]

/-- The first step that fails ends the set-up. -/
def setUp (answers : SetUpStep → ℤ) : List SetUpStep → Option ℤ
  | [] => some 0
  | step :: steps =>
      if answers step < 0 then if step.dies then none else some (answers step)
      else setUp answers steps

structure OpenAnswers where
  /-- `snd_pcm_open` -/
  openRet : ℤ
  /-- `snd_pcm_open` for "hw:0" -/
  openHw0Ret : ℤ
  steps : SetUpStep → ℤ
  /-- Whether there is memory for the silence of the test of precision timing. -/
  hasSilence : Bool
  isARealHardwareDevice : Bool
  play : PlayAnswers
  after : DelayAnswers

def precisionDelayAvailable (c : AlsaConfig) (b : Backend) (a : OpenAnswers) :
    Option (Bool × Backend) :=
  if b.precisionDelayAvailableStatus = none ∧ a.hasSilence then do
    let (_, b) ← doPlay c b 4410 a.play
    let (status, b) := precisionDelayAndStatus c b a.after
    let available := decide (status.usingUpdateTimestamps = some true) && a.isARealHardwareDevice
    let b := if status.ret = 0 then { b with precisionDelayAvailableStatus := some available }
      else b
    some (decide (b.precisionDelayAvailableStatus = some true), b)
  else some (decide (b.precisionDelayAvailableStatus = some true), b)

/-- "if the default ALSA device is inaccessible" -/
def usesHw0 (b : Backend) (a : OpenAnswers) : Bool :=
  decide (a.openRet = -ehostdown) && decide (b.alsaOutDev = "default")

def openResult (b : Backend) (a : OpenAnswers) : ℤ :=
  if usesHw0 b a then a.openHw0Ret else a.openRet

/-- The selection of `precision_delay_and_status` -/
def selectTiming (c : AlsaConfig) (b : Backend) (a : OpenAnswers) : Option Backend :=
  match c.usePrecisionTiming with
  | .yes => some { b with precision := true }
  | .no => some b
  | .auto => do
      let (available, b) ← precisionDelayAvailable c b a
      some (if available then { b with precision := true } else b)

def openAlsaDevice (c : AlsaConfig) (b : Backend) (a : OpenAnswers) : Option (ℤ × Backend) :=
  let ret := openResult b a
  let b := { b with
    alsaOutDev := if usesHw0 b a ∧ (ret = 0 ∨ ret = -ebusy) then "hw:0" else b.alsaOutDev }
  if ret ≠ 0 then
    some (ret, { b with
      alsaHandle := .null, alsaHandleStatus := ret, framesSentBreakOccurred := true })
  else do
    let b := { b with
      alsaHandle := .unready, alsaHandleStatus := 0, events := .opened :: b.events }
    let ret ← setUp a.steps c.setUpSteps
    if ret < 0 then some (ret, b)
    else do
      let b ← selectTiming c { b with alsaHandle := .ready } a
      some (0, b)

def doOpen (c : AlsaConfig) (b : Backend) (a : OpenAnswers) : Option (ℤ × Backend) :=
  if b.alsaHandle = .null then do
    let (ret, b) ← openAlsaDevice c b a
    if ret = 0 then
      some (0, { b with
        framesSentBreakOccurred := true, framesSentForPlaying := 0
        alsaBackendState := .connected })
    else if ret = -enoent ∨ ret = -enodev then
      (handleUnfixableError c b).map fun b => (ret, b)
    else some (ret, b)
  else some (0, b)

/-! ## Closing and flushing -/

def doClose (b : Backend) : Backend :=
  let b := if b.alsaHandle = .null then b
    else { b with alsaHandle := .null, alsaHandleStatus := enodev, events := .closed :: b.events }
  { b with alsaBackendState := .disconnected }

def subFlush (b : Backend) : Backend :=
  if b.alsaHandle = .null then b
  else { b with
    framesSentBreakOccurred := true, alsaBackendState := .connected
    events := .flushed :: b.events }

/-! ## The calls -/

/-- What a turn of the buffer monitor reads of `keep_dac_busy`, which may change in between: when it
is compared with `okb`, when it is tested whether it has gone off, when it is stored, when the back
end may be opened, and when silence may be played. -/
structure KeepDacBusyReads where
  compared : Bool
  tested : Bool
  stored : Bool
  opening : Bool
  filling : Bool

/-- What `okb` becomes. -/
def KeepDacBusyReads.okb (k : KeepDacBusyReads) (okb : Option Bool) : Option Bool :=
  if okb = some k.compared then okb else some k.stored

/-- What is done with the back end while `alsa_mutex` is held, with what the calls it makes say. -/
inductive AlsaCall where
  | prepare (a : OpenAnswers)
  | play (samples : ℕ) (a : OpenAnswers) (p : PlayAnswers)
  | flush (keepDacBusy : Bool)
  | stop (keepDacBusy : Bool)
  /-- One turn of the buffer monitor. There may be no memory for silence. The monitor ends after too
  many errors, so there need not be another turn. -/
  | monitor (k : KeepDacBusyReads) (hasSilence : Bool) (a : OpenAnswers) (d : DelayAnswers)
      (p : PlayAnswers)
  | stats (d : DelayAnswers)
  | start

def play (c : AlsaConfig) (b : Backend) (samples : ℕ) (a : OpenAnswers) (p : PlayAnswers) :
    Option Backend := do
  let (ret, b) ← if b.alsaBackendState = .disconnected then doOpen c b a else some (0, b)
  if ret = 0 then
    (doPlay c { b with alsaBackendState := .playing } samples p).map Prod.snd
  else some b

def prepare (c : AlsaConfig) (b : Backend) (a : OpenAnswers) : Option Backend :=
  if b.alsaBackendState = .disconnected then (doOpen c b a).map Prod.snd else some b

def flush (b : Backend) (keepDacBusy : Bool) : Backend :=
  if b.alsaBackendState ≠ .disconnected ∧ keepDacBusy = false then subFlush b else b

def stop (b : Backend) (keepDacBusy : Bool) : Backend :=
  if b.alsaBackendState ≠ .disconnected ∧ keepDacBusy = false then doClose b else b

/-- "do the silence-filling thing, if needed" -/
def fillWithSilence (c : AlsaConfig) (b : Backend) (hasSilence : Bool) (d : DelayAnswers)
    (p : PlayAnswers) : Option Backend :=
  let (status, b) := delayAndStatus c b d
  let bufferSize := if status.ret ≠ 0 then 0 else status.delay
  if bufferSize < c.bufferSizeThreshold ∧ hasSilence then (doPlay c b 1024 p).map Prod.snd
  else some b

/-- One turn of `alsa_buffer_monitor_thread_code` -/
def monitor (c : AlsaConfig) (b : Backend) (k : KeepDacBusyReads) (hasSilence : Bool)
    (a : OpenAnswers) (d : DelayAnswers) (p : PlayAnswers) : Option Backend := do
  let keepDacBusyHasJustGoneOff :=
    decide (b.okb ≠ some k.compared) && decide (b.okb ≠ some false) && !k.tested
  let b := { b with okb := k.okb b.okb }
  let b ←
    if b.alsaBackendState = .disconnected ∧ k.opening then (doOpen c b a).map Prod.snd
    else if b.alsaBackendState ≠ .disconnected ∧ keepDacBusyHasJustGoneOff then
      some (doClose { b with stallMonitorStartTime := 0 })
    else some b
  if b.alsaBackendState ≠ .disconnected ∧ k.filling then fillWithSilence c b hasSilence d p
  else some b

/-- The query of the delay in `stats`, if there is a handle: what it returns, and the delay. -/
def statsQuery (c : AlsaConfig) (b : Backend) (d : DelayAnswers) : ℤ × ℤ × Backend :=
  if b.alsaHandle = .null then (b.alsaHandleStatus, 0, b)
  else
    let (status, b) := delayAndStatus c b d
    (status.ret, status.delay, b)

/-- What `stats` returns and the state it leaves. -/
def stats (c : AlsaConfig) (b : Backend) (d : DelayAnswers) : Bool × ℤ × Backend :=
  let (ret, delay, b) := statsQuery c b d
  let hasBreak := if ret = 0 then b.framesSentBreakOccurred else true
  (hasBreak, delay, { b with framesSentBreakOccurred := false })

def start (b : Backend) : Backend :=
  { b with stallMonitorStartTime := 0, stallMonitorFrameCount := 0 }

def alsaStep (c : AlsaConfig) (b : Backend) : AlsaCall → Option Backend
  | .prepare a => prepare c b a
  | .play samples a p => play c b samples a p
  | .flush keepDacBusy => some (flush b keepDacBusy)
  | .stop keepDacBusy => some (stop b keepDacBusy)
  | .monitor k hasSilence a d p => monitor c b k hasSilence a d p
  | .stats d => some (stats c b d).2.2
  | .start => some (start b)

/-! ## What playing changes -/

/-- Nothing changes that has to do with the device. -/
structure SameDevice (b b' : Backend) : Prop where
  alsaHandle : b'.alsaHandle = b.alsaHandle
  alsaHandleStatus : b'.alsaHandleStatus = b.alsaHandleStatus
  alsaBackendState : b'.alsaBackendState = b.alsaBackendState
  framesSentBreakOccurred : b'.framesSentBreakOccurred = b.framesSentBreakOccurred
  framesSentForPlaying : b'.framesSentForPlaying = b.framesSentForPlaying
  events : b'.events = b.events

theorem SameDevice.refl (b : Backend) : SameDevice b b := ⟨rfl, rfl, rfl, rfl, rfl, rfl⟩

theorem SameDevice.trans {b₁ b₂ b₃ : Backend} (h : SameDevice b₁ b₂) (h' : SameDevice b₂ b₃) :
    SameDevice b₁ b₃ :=
  ⟨h'.1.trans h.1, h'.2.trans h.2, h'.3.trans h.3, h'.4.trans h.4, h'.5.trans h.5,
    h'.6.trans h.6⟩

theorem precisionDelayAndStatus_sameDevice (c : AlsaConfig) (b : Backend) (a : DelayAnswers) :
    SameDevice b (precisionDelayAndStatus c b a).2 := by
  unfold precisionDelayAndStatus checkStalled
  split_ifs <;> exact ⟨rfl, rfl, rfl, rfl, rfl, rfl⟩

theorem delayAndStatus_sameDevice (c : AlsaConfig) (b : Backend) (a : DelayAnswers) :
    SameDevice b (delayAndStatus c b a).2 := by
  unfold delayAndStatus
  split_ifs
  · exact precisionDelayAndStatus_sameDevice c b a
  · exact ⟨rfl, rfl, rfl, rfl, rfl, rfl⟩

theorem handleUnfixableError_sameDevice {c : AlsaConfig} {b b' : Backend}
    (h : handleUnfixableError c b = some b') : SameDevice b b' := by
  unfold handleUnfixableError at h
  split_ifs at h <;> cases h <;> exact ⟨rfl, rfl, rfl, rfl, rfl, rfl⟩

def acceptedFrames (ret : ℤ) : BitVec 64 := if 0 < ret then BitVec.ofInt 64 ret else 0

/-- What `do_play` does with the device: nothing, or one write, which is a break if not all of the
frames are accepted. -/
structure Played (b : Backend) (samples : ℕ) (b' : Backend) : Prop where
  alsaHandle : b'.alsaHandle = b.alsaHandle
  alsaHandleStatus : b'.alsaHandleStatus = b.alsaHandleStatus
  alsaBackendState : b'.alsaBackendState = b.alsaBackendState
  effect :
    (b'.framesSentBreakOccurred = b.framesSentBreakOccurred ∧
      b'.framesSentForPlaying = b.framesSentForPlaying ∧ b'.events = b.events) ∨
    ∃ ret : ℤ,
      b'.framesSentBreakOccurred = (if ret = samples then b.framesSentBreakOccurred else true) ∧
      b'.framesSentForPlaying = b.framesSentForPlaying + acceptedFrames ret ∧
      b'.events = .wrote b.alsaHandle samples ret :: b.events

theorem SameDevice.played {b b' : Backend} (h : SameDevice b b') (samples : ℕ) :
    Played b samples b' :=
  ⟨h.1, h.2, h.3, .inl ⟨h.4, h.5, h.6⟩⟩

theorem Played.trans_sameDevice {b₁ b₂ b₃ : Backend} {samples : ℕ} (h : Played b₁ samples b₂)
    (h' : SameDevice b₂ b₃) : Played b₁ samples b₃ := by
  refine ⟨h'.1.trans h.1, h'.2.trans h.2, h'.3.trans h.3, ?_⟩
  rw [h'.4, h'.5, h'.6]
  exact h.effect

theorem SameDevice.trans_played {b₁ b₂ b₃ : Backend} {samples : ℕ} (h : SameDevice b₁ b₂)
    (h' : Played b₂ samples b₃) : Played b₁ samples b₃ := by
  refine ⟨h'.1.trans h.1, h'.2.trans h.2, h'.3.trans h.3, ?_⟩
  rw [← h.1, ← h.4, ← h.5, ← h.6]
  exact h'.effect

theorem writeFrames_played (b : Backend) (samples : ℕ) (a : PlayAnswers) :
    Played b samples (writeFrames b samples a).2 := by
  have hsent : (if 0 < a.written then b.framesSentForPlaying + BitVec.ofInt 64 a.written
      else b.framesSentForPlaying) = b.framesSentForPlaying + acceptedFrames a.written := by
    unfold acceptedFrames
    split_ifs
    · rfl
    · exact (BitVec.add_zero _).symm
  unfold writeFrames
  simp only [hsent]
  by_cases hall : a.written = samples
  · rw [if_pos hall]
    exact ⟨rfl, rfl, rfl, .inr ⟨a.written, (if_pos hall).symm, rfl, rfl⟩⟩
  · rw [if_neg hall]
    split_ifs <;> exact ⟨rfl, rfl, rfl, .inr ⟨a.written, (if_neg hall).symm, rfl, rfl⟩⟩

theorem doPlay_played {c : AlsaConfig} {b b' : Backend} {samples : ℕ} {a : PlayAnswers} {ret : ℤ}
    (h : doPlay c b samples a = some (ret, b')) : Played b samples b' := by
  unfold doPlay at h
  split_ifs at h with hnone
  · cases h
    exact (SameDevice.refl b).played samples
  · have hstatus := delayAndStatus_sameDevice c b a.before
    rcases hb₁ : delayAndStatus c b a.before with ⟨status, b₁⟩
    rw [hb₁] at h hstatus
    simp only at h hstatus
    have hwrite : Played b samples
        (if status.ret = 0 then writeFrames b₁ samples a else (status.ret, b₁)).2 := by
      split_ifs
      · exact hstatus.trans_played (writeFrames_played b₁ samples a)
      · exact hstatus.played samples
    rcases hb₂ : (if status.ret = 0 then writeFrames b₁ samples a else (status.ret, b₁)) with
      ⟨ret₂, b₂⟩
    rw [hb₂] at h hwrite
    simp only at h hwrite
    split_ifs at h
    · obtain ⟨b₃, hb₃, heq⟩ := Option.map_eq_some_iff.1 h
      cases heq
      exact hwrite.trans_sameDevice (handleUnfixableError_sameDevice hb₃)
    · cases h
      exact hwrite

end Alsa

end ShairportSync
