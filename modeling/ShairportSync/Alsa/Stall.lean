import Mathlib.Data.Rat.Floor
import ShairportSync.Alsa.Backend

/-!
# Detecting a stalled device

`precision_delay_and_status` compares the queue of the device with what it was at a first
observation, which writes advance, and says that the output is stalled if it has been the same for
too long. The limit is worked out before the settings are read, and in units of a second by
`2 ^ 32`, but it is compared with nanoseconds. So it is always 859 ms, whatever is configured. Where
this makes no difference, and no write that is accepted in part, which is not counted, does, the
answer is right.
-/

namespace ShairportSync

namespace Alsa

open Transition

/-! ## Settings -/

structure StallSettings where
  alsaMaximumStallTime : ℚ
  stallMonitorErrorThreshold : BitVec 64

/-- "stall time max to microseconds", and "now in fp form" -/
def errorThreshold (alsaMaximumStallTime : ℚ) : BitVec 64 :=
  let microseconds := BitVec.ofInt 64 ⌊1000000 * alsaMaximumStallTime⌋
  (microseconds <<< 32) / 1000000

/-- `init`, with the setting of `alsa.maximum_stall_time` if there is one -/
def stallSettings (configured : Option ℚ) : StallSettings where
  alsaMaximumStallTime :=
    match configured with
    | some dvalue => if dvalue < 0 then 1 / 5 else dvalue
    | none => 1 / 5
  stallMonitorErrorThreshold := errorThreshold (1 / 5)

theorem errorThreshold_fifth : errorThreshold (1 / 5) = 858993459 := by
  have hfloor : ⌊(1000000 : ℚ) * (1 / 5)⌋ = 200000 := by norm_num
  rw [errorThreshold, hfloor]
  decide

/-! ## Runs -/

inductive StallEvent where
  /-- The device is running or draining, and the queue is of this length. -/
  | observed (updateTimestampNs : BitVec 64) (queue : ℤ)
  /-- Frames have been accepted, all that there were or a part. -/
  | wrote (frames : ℤ) (whole : Bool)
  /-- The device is not running, or `start` has been called. -/
  | restarted

inductive StallCall where
  | delay (a : DelayAnswers)
  | play (samples : ℕ) (p : PlayAnswers)
  | flush
  | start

structure StallRun where
  backend : Backend
  history : List StallEvent

def observe (a : DelayAnswers) (history : List StallEvent) : List StallEvent :=
  if a.statusRet ≠ 0 then history
  else if a.state.isActive then .observed a.updateTimestampNs a.statusDelay :: history
  else .restarted :: history

/-- The calls, with precision timing in use. -/
def stallStep (c : AlsaConfig) (r : StallRun) : StallCall → Option StallRun
  | .delay a => some ⟨(precisionDelayAndStatus c r.backend a).2, observe a r.history⟩
  | .play samples p =>
      (doPlay c r.backend samples p).map fun (_, b) =>
        { backend := b
          history :=
            if samples = 0 then r.history
            else if (precisionDelayAndStatus c r.backend p.before).1.ret = 0 then
              .wrote (max p.written 0) (p.written = samples) :: observe p.before r.history
            else observe p.before r.history }
  | .flush => some { r with backend := flush r.backend false }
  | .start => some ⟨start r.backend, .restarted :: r.history⟩

def queried : StallCall → Option DelayAnswers
  | .delay a => some a
  | .play samples p => if samples = 0 then none else some p.before
  | .flush | .start => none

/-! ## What is to be detected -/

/-- The time stamps of the observations since which the queue, net of what has been written, has
been of the same length. -/
def unchangedFrom : ℤ → List StallEvent → List (BitVec 64)
  | _, [] => []
  | _, .restarted :: _ => []
  | queue, .wrote frames _ :: history => unchangedFrom (queue - frames) history
  | queue, .observed t queue' :: history =>
      if queue' = queue then t :: unchangedFrom queue history else []

/-- The queue has been the same for more than a number of nanoseconds. -/
def StalledFor (nanoseconds : ℚ) (history : List StallEvent) (a : DelayAnswers) : Prop :=
  ∃ t ∈ unchangedFrom a.statusDelay history,
    nanoseconds < (a.updateTimestampNs.toNat : ℚ) - t.toNat ∨
      nanoseconds < (a.timeNowNs.toNat : ℚ) - t.toNat

/-- What is asked of a call that asks the device for the delay. -/
def Detects (c : AlsaConfig) (nanoseconds : ℚ) (r : StallRun) (call : StallCall) : Prop :=
  ∀ a, queried call = some a →
    ((precisionDelayAndStatus c r.backend a).1.ret = spsExtraCodeOutputStalled ↔
      a.statusRet = 0 ∧ a.state.isActive ∧ StalledFor nanoseconds r.history a)

/-- What the device may say: an error is negative, and time stamps are not zero and do not go
back. -/
def Reports (r : StallRun) (call : StallCall) : Prop :=
  ∀ a, queried call = some a →
    a.statusRet ≤ 0 ∧ a.updateTimestampNs ≠ 0 ∧
      ∀ t queue, StallEvent.observed t queue ∈ r.history → t ≤ a.updateTimestampNs

def firstUnchanged (queue : ℤ) (history : List StallEvent) : Option (BitVec 64) :=
  (unchangedFrom queue history).getLast?

/-- The history as it is counted: a write that is accepted in part is left out. -/
def counted (history : List StallEvent) : List StallEvent :=
  history.map fun event => match event with
    | .wrote frames whole => .wrote (if whole then frames else 0) whole
    | .observed t queue => .observed t queue
    | .restarted => .restarted

/-- Writes that are accepted in part do not matter to how long the queue has been the same. The
present time is not before the first observation, and the time since then is more than the one limit
if it is more than the other. -/
def LimitsAgree (nanoseconds : ℚ) (r : StallRun) (call : StallCall) : Prop :=
  ∀ a, queried call = some a → a.statusRet = 0 → a.state.isActive →
    firstUnchanged a.statusDelay (counted r.history) = firstUnchanged a.statusDelay r.history ∧
    ∀ t ∈ firstUnchanged a.statusDelay r.history,
      t ≤ a.timeNowNs ∧
        (858993459 < max a.updateTimestampNs.toNat a.timeNowNs.toNat - t.toNat ↔
          nanoseconds < ((max a.updateTimestampNs.toNat a.timeNowNs.toNat : ℕ) : ℚ) - t.toNat)

/-! ## The variables of the monitor -/

/-- The start time is the time stamp of the first observation since which the queue has been the
same, and the count is the length that it is to have now. -/
def Tracks (startTime : BitVec 64) (count : ℤ) (history : List StallEvent) : Prop :=
  ∀ queue, firstUnchanged queue history =
    if startTime ≠ 0 ∧ count = queue then some startTime else none

theorem firstUnchanged_observed (t : BitVec 64) (queue queue' : ℤ) (history : List StallEvent) :
    firstUnchanged queue (.observed t queue' :: history) =
      if queue' = queue then some ((firstUnchanged queue history).getD t) else none := by
  rw [firstUnchanged, unchangedFrom]
  split_ifs
  · rw [List.getLast?_cons, ← firstUnchanged]
  · rfl

theorem tracks_restarted (count : ℤ) (history : List StallEvent) :
    Tracks 0 count (.restarted :: history) := fun _ => (if_neg fun h => h.1 rfl).symm

theorem Tracks.wrote {startTime : BitVec 64} {count : ℤ} {history : List StallEvent}
    (h : Tracks startTime count history) (frames : ℤ) (whole : Bool) :
    Tracks startTime (count + frames) (.wrote frames whole :: history) := by
  intro queue
  rw [firstUnchanged, unchangedFrom, ← firstUnchanged, h]
  exact if_congr (and_congr_right fun _ => eq_sub_iff_add_eq) rfl rfl

theorem Tracks.observed_same {startTime : BitVec 64} {count : ℤ} {history : List StallEvent}
    (h : Tracks startTime count history) (hne : startTime ≠ 0) (t : BitVec 64) :
    Tracks startTime count (.observed t count :: history) := by
  intro queue
  rw [firstUnchanged_observed, h]
  by_cases hqueue : count = queue
  · rw [if_pos hqueue, if_pos ⟨hne, hqueue⟩]
    rfl
  · rw [if_neg hqueue, if_neg fun hsame => hqueue hsame.2]

/-- An observation of another queue, or the first one, begins anew. -/
theorem Tracks.observed_other {startTime t : BitVec 64} {count queue : ℤ}
    {history : List StallEvent} (h : Tracks startTime count history)
    (hother : ¬(startTime ≠ 0 ∧ count = queue)) (ht : t ≠ 0) :
    Tracks t queue (.observed t queue :: history) := by
  intro queue'
  rw [firstUnchanged_observed]
  by_cases hqueue : queue = queue'
  · rw [if_pos hqueue, if_pos ⟨ht, hqueue⟩, h, ← hqueue, if_neg hother]
    rfl
  · rw [if_neg hqueue, if_neg fun hsame => hqueue hsame.2]

theorem exists_observed_of_mem {t : BitVec 64} {history : List StallEvent} {queue : ℤ}
    (ht : t ∈ unchangedFrom queue history) :
    ∃ queue', StallEvent.observed t queue' ∈ history := by
  induction history generalizing queue with
  | nil => exact absurd ht List.not_mem_nil
  | cons e history ih =>
      cases e with
      | restarted => exact absurd ht List.not_mem_nil
      | wrote frames whole =>
          obtain ⟨queue', hmem⟩ := ih ht
          exact ⟨queue', List.mem_cons_of_mem _ hmem⟩
      | observed t' queue' =>
          unfold unchangedFrom at ht
          split_ifs at ht
          · rcases List.mem_cons.1 ht with rfl | ht
            · exact ⟨queue', List.mem_cons_self⟩
            · obtain ⟨queue'', hmem⟩ := ih ht
              exact ⟨queue'', List.mem_cons_of_mem _ hmem⟩
          · exact absurd ht List.not_mem_nil

/-- The first observation since which the queue has been the same has the least time stamp. -/
def FirstIsLeast (history : List StallEvent) : Prop :=
  ∀ queue, ∀ t ∈ firstUnchanged queue history, ∀ t' ∈ unchangedFrom queue history, t ≤ t'

theorem FirstIsLeast.observed {t : BitVec 64} {queue : ℤ} {history : List StallEvent}
    (h : FirstIsLeast history)
    (hlate : ∀ t' queue', StallEvent.observed t' queue' ∈ history → t' ≤ t) :
    FirstIsLeast (.observed t queue :: history) := by
  intro queue' first hfirst t' ht'
  rw [firstUnchanged_observed] at hfirst
  rw [unchangedFrom] at ht'
  split_ifs at hfirst ht' with hqueue
  · cases hlast : firstUnchanged queue' history with
    | none =>
        rw [hlast] at hfirst
        rw [List.getLast?_eq_none_iff.mp hlast, List.mem_singleton] at ht'
        exact ht' ▸ (Option.some.inj hfirst) ▸ BitVec.le_refl _
    | some earliest =>
        rw [hlast] at hfirst
        obtain rfl : earliest = first := Option.some.inj hfirst
        rcases List.mem_cons.mp ht' with rfl | ht'
        · obtain ⟨queue'', hmem⟩ := exists_observed_of_mem (List.mem_of_getLast? hlast)
          exact hlate _ _ hmem
        · exact h queue' earliest hlast t' ht'
  · cases hfirst

/-- The queue has been the same for too long if it has been since the first observation. -/
theorem FirstIsLeast.stalledFor_iff {nanoseconds : ℚ} {history : List StallEvent}
    (h : FirstIsLeast history) (a : DelayAnswers) :
    StalledFor nanoseconds history a ↔ ∃ t ∈ firstUnchanged a.statusDelay history,
      nanoseconds < ((max a.updateTimestampNs.toNat a.timeNowNs.toNat : ℕ) : ℚ) - t.toNat := by
  have hmax : ∀ t : BitVec 64,
      (nanoseconds < (a.updateTimestampNs.toNat : ℚ) - t.toNat ∨
        nanoseconds < (a.timeNowNs.toNat : ℚ) - t.toNat) ↔
      nanoseconds < ((max a.updateTimestampNs.toNat a.timeNowNs.toNat : ℕ) : ℚ) - t.toNat := by
    intro t
    rw [Nat.cast_max, lt_sub_iff_add_lt, lt_sub_iff_add_lt, lt_sub_iff_add_lt, lt_max_iff]
  constructor
  · rintro ⟨t, ht, hlong⟩
    obtain ⟨first, hfirst⟩ := Option.ne_none_iff_exists'.mp
      fun hnone => List.ne_nil_of_mem ht (List.getLast?_eq_none_iff.mp hnone)
    have hle : (first.toNat : ℚ) ≤ t.toNat := by exact_mod_cast h _ first hfirst t ht
    exact ⟨first, hfirst, ((hmax t).1 hlong).trans_le (sub_le_sub_left hle _)⟩
  · rintro ⟨t, ht, hlong⟩
    exact ⟨t, List.mem_of_getLast? ht, (hmax t).2 hlong⟩

/-! ## Calls -/

/-- What holds in a run on an open device, with precision timing -/
structure Monitors (r : StallRun) : Prop where
  device : r.backend.alsaHandle ≠ .null
  precision : r.backend.precision = true
  tracks :
    Tracks r.backend.stallMonitorStartTime r.backend.stallMonitorFrameCount (counted r.history)
  firstIsLeast : FirstIsLeast r.history

def AlsaConfig.withStallTime (c : AlsaConfig) (configured : Option ℚ) : AlsaConfig :=
  { c with stallMonitorErrorThreshold := (stallSettings configured).stallMonitorErrorThreshold }

section Calls

variable {c : AlsaConfig} {configured : Option ℚ} {r : StallRun} {a : DelayAnswers}

theorem checkStalled_ret (b : Backend) (a : DelayAnswers) :
    (checkStalled (c.withStallTime configured) b a).1 =
      if (b.stallMonitorStartTime ≠ 0 ∧ b.stallMonitorFrameCount = a.statusDelay) ∧
          (858993459 < a.updateTimestampNs - b.stallMonitorStartTime ∨
            858993459 < a.timeNowNs - b.stallMonitorStartTime) then spsExtraCodeOutputStalled
      else 0 := by
  have hlimit : (c.withStallTime configured).stallMonitorErrorThreshold = 858993459 :=
    errorThreshold_fifth
  unfold checkStalled
  rw [hlimit]
  by_cases hsame : b.stallMonitorStartTime ≠ 0 ∧ b.stallMonitorFrameCount = a.statusDelay
  · rw [if_pos hsame]
    split_ifs with hlong hboth hboth
    · rfl
    · exact absurd ⟨hsame, hlong⟩ hboth
    · exact absurd hboth.2 hlong
    · rfl
  · rw [if_neg hsame, if_neg fun hboth => hsame hboth.1]

theorem limit_lt_iff {t u now : BitVec 64} (ht : t ≤ u) (hnow : t ≤ now) :
    (858993459 < u - t ∨ 858993459 < now - t) ↔ 858993459 < max u.toNat now.toNat - t.toNat := by
  have hu := BitVec.toNat_sub_of_le ht
  have hn := BitVec.toNat_sub_of_le hnow
  rw [BitVec.lt_def, BitVec.lt_def, hu, hn]
  change 858993459 < _ ∨ 858993459 < _ ↔ _
  omega

theorem precisionDelayAndStatus_ret (hdevice : r.backend.alsaHandle ≠ .null)
    (ht : a.updateTimestampNs ≠ 0) :
    (precisionDelayAndStatus c r.backend a).1.ret =
      if a.statusRet ≠ 0 then a.statusRet
      else if a.state.isActive then (checkStalled c r.backend a).1 else 0 := by
  unfold precisionDelayAndStatus
  rw [if_neg hdevice]
  split_ifs <;> rfl

/-- In a state in which the variables say what they are to say, the answer is right if the limits
agree. -/
theorem Monitors.detects {nanoseconds : ℚ} {call : StallCall} (h : Monitors r)
    (hreports : Reports r call) (hlimits : LimitsAgree nanoseconds r call) :
    Detects (c.withStallTime configured) nanoseconds r call := by
  intro a ha
  obtain ⟨hret, ht, hlate⟩ := hreports a ha
  rw [precisionDelayAndStatus_ret h.device ht]
  split_ifs with hfailed hactive
  · refine iff_of_false (fun heq => ?_) fun hall => hfailed hall.1
    rw [heq] at hret
    exact absurd hret (by decide)
  · rw [checkStalled_ret, h.firstIsLeast.stalledFor_iff]
    have hcode : ∀ p : Prop, [Decidable p] →
        ((if p then spsExtraCodeOutputStalled else 0) = spsExtraCodeOutputStalled ↔ p) := by
      intro p _
      split_ifs with hp
      · exact iff_of_true rfl hp
      · exact iff_of_false (by decide) hp
    rw [hcode, and_iff_right (not_not.1 hfailed), and_iff_right hactive]
    obtain ⟨hsame, hagree⟩ := hlimits a ha (not_not.1 hfailed) hactive
    have hfirst := hsame.symm.trans (h.tracks a.statusDelay)
    by_cases hunchanged : r.backend.stallMonitorStartTime ≠ 0 ∧
        r.backend.stallMonitorFrameCount = a.statusDelay
    · rw [if_pos hunchanged] at hfirst
      obtain ⟨hnow, hlong⟩ := hagree _ hfirst
      obtain ⟨queue, hobserved⟩ := exists_observed_of_mem (List.mem_of_getLast? hfirst)
      rw [and_iff_right hunchanged, limit_lt_iff (hlate _ queue hobserved) hnow, hlong, hfirst]
      constructor
      · exact fun hstalled => ⟨_, rfl, hstalled⟩
      · rintro ⟨t, ht, hstalled⟩
        exact Option.some.inj ht ▸ hstalled
    · rw [if_neg hunchanged] at hfirst
      rw [hfirst]
      exact iff_of_false (fun hlong => hunchanged hlong.1) fun ⟨t, hmem, _⟩ => nomatch hmem
  · refine iff_of_false (by decide) fun hall => hactive hall.2.1

theorem checkStalled_snd (b : Backend) (a : DelayAnswers) :
    (checkStalled c b a).2 =
      if b.stallMonitorStartTime ≠ 0 ∧ b.stallMonitorFrameCount = a.statusDelay then b
      else { b with
        stallMonitorStartTime := a.updateTimestampNs
        stallMonitorFrameCount := a.statusDelay } := by
  unfold checkStalled
  split_ifs <;> rfl

theorem precisionDelayAndStatus_snd (hdevice : r.backend.alsaHandle ≠ .null)
    (ht : a.updateTimestampNs ≠ 0) :
    (precisionDelayAndStatus c r.backend a).2 =
      if a.statusRet ≠ 0 then r.backend
      else if a.state.isActive then (checkStalled c r.backend a).2
      else { r.backend with stallMonitorStartTime := 0, stallMonitorFrameCount := 0 } := by
  unfold precisionDelayAndStatus
  rw [if_neg hdevice]
  split_ifs <;> rfl

theorem counted_observe (a : DelayAnswers) (history : List StallEvent) :
    counted (observe a history) = observe a (counted history) := by
  rw [observe, observe]
  split_ifs <;> rfl

theorem Monitors.observe (h : Monitors r) {call : StallCall} (hreports : Reports r call)
    (ha : queried call = some a) :
    Monitors ⟨(precisionDelayAndStatus c r.backend a).2, observe a r.history⟩ := by
  obtain ⟨_, ht, hlate⟩ := hreports a ha
  have hleast : FirstIsLeast (Alsa.observe a r.history) := by
    rw [Alsa.observe]
    split_ifs
    · exact h.firstIsLeast
    · exact h.firstIsLeast.observed hlate
    · exact fun _ _ hfirst => nomatch hfirst
  have htracks : Tracks (precisionDelayAndStatus c r.backend a).2.stallMonitorStartTime
      (precisionDelayAndStatus c r.backend a).2.stallMonitorFrameCount
      (counted (Alsa.observe a r.history)) := by
    rw [counted_observe, precisionDelayAndStatus_snd h.device ht, Alsa.observe]
    split_ifs with hfailed hactive
    · exact h.tracks
    · rw [checkStalled_snd]
      split_ifs with hsame
      · have htracks := h.tracks.observed_same hsame.1 a.updateTimestampNs
        rwa [hsame.2] at htracks ⊢
      · exact h.tracks.observed_other hsame ht
    · exact tracks_restarted _ _
  rw [precisionDelayAndStatus_snd h.device ht] at htracks ⊢
  refine ⟨?_, ?_, htracks, hleast⟩
  · split_ifs
    · exact h.device
    · rw [checkStalled_snd]
      split_ifs <;> exact h.device
    · exact h.device
  · split_ifs
    · exact h.precision
    · rw [checkStalled_snd]
      split_ifs <;> exact h.precision
    · exact h.precision

theorem writeFrames_monitor (b : Backend) (samples : ℕ) (p : PlayAnswers) :
    (writeFrames b samples p).2.alsaHandle = b.alsaHandle ∧
      (writeFrames b samples p).2.precision = b.precision ∧
      (writeFrames b samples p).2.stallMonitorStartTime = b.stallMonitorStartTime ∧
      (writeFrames b samples p).2.stallMonitorFrameCount =
        if p.written = samples then b.stallMonitorFrameCount + samples
        else b.stallMonitorFrameCount := by
  unfold writeFrames
  simp only
  split_ifs <;> exact ⟨rfl, rfl, rfl, rfl⟩

theorem handleUnfixableError_monitors {b b' : Backend} {history : List StallEvent}
    (h : Monitors ⟨b, history⟩) (herror : handleUnfixableError c b = some b') :
    Monitors ⟨b', history⟩ := by
  unfold handleUnfixableError at herror
  split_ifs at herror
  · exact Option.some.inj herror ▸ h
  · exact Option.some.inj herror ▸ ⟨h.device, h.precision, h.tracks, h.firstIsLeast⟩

theorem doPlay_monitors {b' : Backend} {samples : ℕ} {p : PlayAnswers} {ret : ℤ}
    (h : Monitors r) (hreports : Reports r (.play samples p)) (hsamples : samples ≠ 0)
    (hplay : doPlay c r.backend samples p = some (ret, b')) :
    Monitors ⟨b',
      if (precisionDelayAndStatus c r.backend p.before).1.ret = 0 then
        .wrote (max p.written 0) (p.written = samples) :: observe p.before r.history
      else observe p.before r.history⟩ := by
  have hquery : queried (.play samples p) = some p.before := if_neg hsamples
  have hobserve : Monitors ⟨(precisionDelayAndStatus c r.backend p.before).2,
      Alsa.observe p.before r.history⟩ := h.observe hreports hquery
  unfold doPlay delayAndStatus at hplay
  rw [if_neg hsamples, h.precision, if_pos rfl] at hplay
  rcases hstatus : precisionDelayAndStatus c r.backend p.before with ⟨status, b₁⟩
  rw [hstatus] at hobserve
  simp only [hstatus] at hplay hobserve ⊢
  have hwrite : Monitors
      ⟨(if status.ret = 0 then writeFrames b₁ samples p else (status.ret, b₁)).2,
        if status.ret = 0 then
          .wrote (max p.written 0) (p.written = samples) :: Alsa.observe p.before r.history
        else Alsa.observe p.before r.history⟩ := by
    split_ifs with hready
    · obtain ⟨hhandle, hprecision, hstart, hcount⟩ := writeFrames_monitor b₁ samples p
      have htracks := hobserve.tracks.wrote
        (if decide (p.written = samples) = true then max p.written 0 else 0)
        (p.written = samples)
      have hsum : (writeFrames b₁ samples p).2.stallMonitorFrameCount = b₁.stallMonitorFrameCount +
          (if decide (p.written = samples) = true then max p.written 0 else 0) := by
        rw [hcount]
        by_cases hall : p.written = samples
        · rw [if_pos hall, if_pos (decide_eq_true hall), hall,
            max_eq_left (Int.natCast_nonneg samples)]
        · rw [if_neg hall, if_neg (by rwa [decide_eq_true_eq]), add_zero]
      refine ⟨fun hnull => hobserve.device (hhandle.symm.trans hnull),
        hprecision.trans hobserve.precision, ?_, fun queue => hobserve.firstIsLeast _⟩
      rw [hstart, hsum]
      exact htracks
    · exact hobserve
  rcases hb₂ : (if status.ret = 0 then writeFrames b₁ samples p else (status.ret, b₁)) with
    ⟨ret₂, b₂⟩
  rw [hb₂] at hplay hwrite
  simp only at hplay hwrite
  split_ifs at hplay
  · obtain ⟨b₃, hb₃, heq⟩ := Option.map_eq_some_iff.1 hplay
    cases heq
    exact handleUnfixableError_monitors hwrite hb₃
  · cases hplay
    exact hwrite

theorem stallStep_monitors {r' : StallRun} {call : StallCall} (h : Monitors r)
    (hreports : Reports r call) (hstep : stallStep c r call = some r') : Monitors r' := by
  cases call with
  | delay a =>
      cases hstep
      exact h.observe hreports rfl
  | play samples p =>
      obtain ⟨⟨ret, b'⟩, hplay, rfl⟩ := Option.map_eq_some_iff.1 hstep
      by_cases hsamples : samples = 0
      · unfold doPlay at hplay
        rw [if_pos hsamples] at hplay
        cases hplay
        simp only [if_pos hsamples]
        exact h
      · simp only [if_neg hsamples]
        exact doPlay_monitors h hreports hsamples hplay
  | flush =>
      cases hstep
      unfold flush subFlush
      split_ifs <;> exact ⟨h.device, h.precision, h.tracks, h.firstIsLeast⟩
  | start =>
      cases hstep
      exact ⟨h.device, h.precision, tracks_restarted _ _, fun _ _ hfirst => nomatch hfirst⟩

end Calls

/-- In every run on an open device with precision timing, from when the monitor has been reset, a
stall is reported exactly if the queue has been the same for longer than the configured time,
provided that the limits agree. -/
theorem stall_detected (c : AlsaConfig) (configured : Option ℚ) (b : Backend)
    (calls : List StallCall) (hdevice : b.alsaHandle ≠ .null) (hprecision : b.precision = true)
    (hreset : b.stallMonitorStartTime = 0)
    (hcalls : Along (stallStep (c.withStallTime configured))
      (fun r call => Reports r call ∧
        LimitsAgree (10 ^ 9 * (stallSettings configured).alsaMaximumStallTime) r call)
      ⟨b, []⟩ calls) :
    Along (stallStep (c.withStallTime configured))
      (Detects (c.withStallTime configured)
        (10 ^ 9 * (stallSettings configured).alsaMaximumStallTime)) ⟨b, []⟩ calls := by
  have hinitial : Monitors ⟨b, []⟩ :=
    ⟨hdevice, hprecision, fun _ => (if_neg fun hstarted => hstarted.1 hreset).symm,
      fun _ _ hfirst => nomatch hfirst⟩
  exact along_of_step (fun _ _ _ h hcall hstep => stallStep_monitors h hcall.1 hstep)
    (fun _ _ h hcall => h.detects hcall.1 hcall.2) hinitial hcalls

def openDevice : Backend :=
  { Backend.initial "hw:0" with
    alsaHandle := .ready, alsaHandleStatus := 0, alsaBackendState := .connected, precision := true }

def runningAt (nanoseconds : BitVec 64) : DelayAnswers :=
  ⟨0, .running, nanoseconds, 1000, nanoseconds, 0, 0⟩

def usualStallConfig : AlsaConfig where
  setPeriodSizeRequest := false
  setBufferSizeRequest := false
  usePrecisionTiming := .yes
  outputRate := 44100
  bufferSizeThreshold := 1764
  hasCmdUnfixable := false
  stallMonitorErrorThreshold := 0

/-- The queue has been the same for 900 ms. -/
theorem stall_detected_late :
    Along (stallStep (usualStallConfig.withStallTime none))
      (Detects (usualStallConfig.withStallTime none)
        (10 ^ 9 * (stallSettings none).alsaMaximumStallTime))
      ⟨openDevice, []⟩ [.delay (runningAt 1000000000), .delay (runningAt 1900000000)] := by
  refine stall_detected usualStallConfig none openDevice _ (by decide) rfl rfl ?_
  intro r₁ h₁
  cases h₁
  refine ⟨⟨?_, ?_⟩, ?_⟩
  · rintro a ha
    cases ha
    exact ⟨le_rfl, by decide, fun _ _ hmem => absurd hmem List.not_mem_nil⟩
  · rintro a ha - -
    exact ⟨rfl, fun t ht => nomatch ht⟩
  · intro r₂ h₂
    cases h₂
    refine ⟨⟨?_, ?_⟩, trivial⟩
    · rintro a ha
      cases ha
      refine ⟨le_rfl, by decide, fun t queue hmem => ?_⟩
      obtain ⟨rfl, -⟩ := StallEvent.observed.inj (List.mem_singleton.1 hmem)
      decide
    · rintro a ha - -
      cases ha
      refine ⟨rfl, fun t ht => ?_⟩
      obtain rfl : 1000000000 = t := Option.some.inj ht
      exact ⟨by decide +kernel, iff_of_true (by decide +kernel) (by decide +kernel)⟩

/-- With the default of 200 ms a queue that is the same for 300 ms is not reported. -/
theorem not_detects_early :
    ¬Along (stallStep (usualStallConfig.withStallTime none))
      (Detects (usualStallConfig.withStallTime none)
        (10 ^ 9 * (stallSettings none).alsaMaximumStallTime))
      ⟨openDevice, []⟩ [.delay (runningAt 1000000000), .delay (runningAt 1300000000)] := by
  intro h
  have hsecond := ((h _ rfl).2 _ rfl).1 _ rfl
  have hstalled : StalledFor (10 ^ 9 * (stallSettings none).alsaMaximumStallTime)
      [.observed 1000000000 1000] (runningAt 1300000000) := by
    exact ⟨1000000000, List.mem_cons_self, .inl (by decide +kernel)⟩
  have hreported := hsecond.2 ⟨rfl, rfl, hstalled⟩
  exact absurd hreported (by decide +kernel)

end Alsa

end ShairportSync
