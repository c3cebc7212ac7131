import ShairportSync.Rtsp.Reaping

/-!
# The lock on the connections

What goes over the connections holds `conns_lock` until it has come to the end of the table, and
waits there for the threads that it joins. If nothing ends while it has the lock, and no thread
waits for the lock while the one that has it is to join it, what has the lock can always come to
its end (`Held`). So the listener can come to `cleanup_threads` again, and a connection that is
over is reaped there.
-/

namespace ShairportSync

namespace Rtsp

namespace Reaping

open Transition

section Held

variable {s t : State} {c : ConnId} {conn : Conn}

/-- A sweep of `cancel_all_RTSP_threads` by a conversation thread, which goes on and does not wait
for a thread that waits for it. -/
structure State.Cancels (s : State) (w : Sweep) (a : ConnId) : Prop where
  active : (s.conn a).stage = .active
  sweeper : ∃ category, w.sweeper = .cancelAllRTSPThreads category a
  found : w.phase = .joining ∨ w.phase = .freeing → ∃ d, s.slot w.index = some d ∧ d ≠ a
  spared : ∀ c, s.waiting c = true → ¬s.Joins w c

/-- Whatever has the lock can go on. -/
structure Held (s : State) : Prop where
  waiting : ∀ c, s.waiting c = true → (s.conn c).stage = .active
  born : ∀ c, s.Tracked c ∨ s.listener.pending = some c → (s.conn c).stage ≠ .unborn
  culling : s.listener = .culling → ∃ w, s.Culls w
  listener : ∀ w, s.sweep = some w → w.actor = none →
    s.listener = .culling ∨ s.listener = .leaving
  thread : ∀ w a, s.sweep = some w → w.actor = some a → s.Cancels w a

theorem held_start : Held start where
  waiting _ h := nomatch h
  born _ h := h.elim (fun ⟨_, h⟩ => nomatch h) fun h => nomatch h
  culling h := nomatch h
  listener _ h := nomatch h
  thread _ _ h := nomatch h

/-- A step that does not come to the table or to what waits for the lock. -/
theorem Held.of_quiet (h : Held s) (hsweep : t.sweep = s.sweep) (hconns : t.conns = s.conns)
    (hwaiting : t.waiting = s.waiting)
    (hactive : ∀ c, s.waiting c = true → (t.conn c).stage = .active)
    (hborn : ∀ c, t.Tracked c ∨ t.listener.pending = some c → (t.conn c).stage ≠ .unborn)
    (hculling : t.listener = .culling → ∃ w, t.Culls w)
    (hlistener : s.listener = .culling ∨ s.listener = .leaving →
      t.listener = .culling ∨ t.listener = .leaving)
    (hactor : ∀ w a, s.sweep = some w → w.actor = some a → (t.conn a).stage = .active)
    (hpicks : ∀ (sweeper : Sweeper) (c : ConnId), s.waiting c = true → s.Tracked c →
      sweeper.picks c (t.conn c) = true → sweeper.picks c (s.conn c) = true) : Held t := by
  have hslot : t.slot = s.slot := by
    funext i
    rw [State.slot, hconns, State.slot]
  refine ⟨fun c hc => hactive c (hwaiting ▸ hc), hborn, hculling, fun w hw hnone =>
    hlistener (h.listener w (hsweep ▸ hw) hnone), fun w a hw ha => ?_⟩
  rw [hsweep] at hw
  obtain ⟨-, hsweeper, hfound, hspared⟩ := h.thread w a hw ha
  refine ⟨hactor w a hw ha, hsweeper, hslot ▸ hfound, fun c hc hjoins => ?_⟩
  rw [hwaiting] at hc
  rw [State.Joins, State.Tracked, hslot] at hjoins
  refine hspared c hc (hjoins.imp_right fun htracked => ?_)
  exact ⟨htracked.1, hpicks _ c hc htracked.1 htracked.2⟩

/-- A change of a connection that does not wait for the lock, by its thread. -/
theorem Held.setConn (h : Held s) (hwaiting : s.waiting c = false)
    (hborn : conn.stage ≠ .unborn) (hactor : ∀ w, s.sweep = some w → w.actor = some c →
      conn.stage = .active)
    (hculling : s.listener = .culling → ∃ w, (s.setConn c conn).Culls w) :
    Held (s.setConn c conn) := by
  have hne : ∀ d, s.waiting d = true → d ≠ c := fun d hd hdc => by
    rw [hdc, hwaiting] at hd
    cases hd
  refine h.of_quiet rfl rfl rfl (fun d hd => ?_) (fun d hd => ?_) hculling id (fun w a hw ha => ?_)
    fun sweeper d hd _ hpick => ?_
  · rw [conn_setConn, if_neg (hne d hd)]
    exact h.waiting d hd
  · exact setConn_of (fun conn => conn.stage ≠ .unborn) (fun _ => hborn) (h.born d hd)
  · rw [conn_setConn]
    split
    · next hac => exact hactor w hw (hac ▸ ha)
    · exact (h.thread w a hw ha).active
  · rwa [conn_setConn, if_neg (hne d hd)] at hpick

theorem held_create (hinv : Inv s) (h : Held s) (hlistener : s.listener = .selecting) : Held
    { s.setConn s.rtspConnectionIndex .created with
      rtspConnectionIndex := s.rtspConnectionIndex + 1
      listener := .created s.rtspConnectionIndex } := by
  have hconn : ∀ d, (s.setConn s.rtspConnectionIndex .created).conn d =
      if d = s.rtspConnectionIndex then .created else s.conn d :=
    fun d => conn_setConn s s.rtspConnectionIndex d .created
  have hstage : ∀ d, (s.conn d).stage = .active →
      ((s.setConn s.rtspConnectionIndex .created).conn d).stage = .active := fun d hd =>
    setConn_of (fun conn => conn.stage = .active) (fun _ => rfl) hd
  refine h.of_quiet rfl rfl rfl (fun c hc => hstage c (h.waiting c hc)) (fun c hc => ?_)
    (fun hculling => nomatch hculling) (fun hother => ?_)
    (fun w a hw ha => hstage a (h.thread w a hw ha).active) fun sweeper c hc htracked hpick => ?_
  · change ((s.setConn s.rtspConnectionIndex .created).conn c).stage ≠ .unborn
    rw [hconn]
    split
    · exact nofun
    · next hne =>
      rcases hc with hc | hc
      · exact h.born c (.inl hc)
      · cases hc
        exact absurd rfl hne
  · rcases hother with hother | hother
    · exact nomatch hlistener.symm.trans hother
    · exact nomatch hlistener.symm.trans hother
  · obtain ⟨i, hi⟩ := htracked
    change sweeper.picks c ((s.setConn s.rtspConnectionIndex .created).conn c) = true at hpick
    rwa [hconn, if_neg (hinv.slot_lt i c hi).ne] at hpick

theorem held_setRunning (hinv : Inv s) (h : Held s) (hlistener : s.listener = .created c) :
    Held { s.setConn c { s.conn c with running := true } with listener := .marked c } := by
  have hpending : s.listener.pending = some c := by rw [hlistener]; rfl
  obtain ⟨-, hnot, -⟩ := hinv.pending c hpending
  have hstage : ∀ d, ((s.setConn c { s.conn c with running := true }).conn d).stage =
      (s.conn d).stage := fun d =>
    setConn_of (fun conn => conn.stage = (s.conn d).stage) (fun hd => hd ▸ rfl) rfl
  refine h.of_quiet rfl rfl rfl (fun d hd => (hstage d).trans (h.waiting d hd)) (fun d hd => ?_)
    (fun hculling => nomatch hculling) (fun hother => ?_)
    (fun w a hw ha => (hstage a).trans (h.thread w a hw ha).active)
    fun sweeper d _ htracked hpick => ?_
  · change ((s.setConn c { s.conn c with running := true }).conn d).stage ≠ .unborn
    rw [hstage]
    refine h.born d (hd.imp_right fun hd => ?_)
    cases hd
    exact hpending
  · rcases hother with hother | hother
    · exact nomatch hlistener.symm.trans hother
    · exact nomatch hlistener.symm.trans hother
  · change sweeper.picks d ((s.setConn c { s.conn c with running := true }).conn d) = true at hpick
    have hdc : d ≠ c := fun hdc => hnot (hdc ▸ htracked)
    rwa [conn_setConn, if_neg hdc] at hpick

theorem held_track (h : Held s) (hlistener : s.listener = .marked c) (hsweep : s.sweep = none) :
    Held { s with conns := trackThread c s.conns, listener := .selecting } := by
  obtain ⟨k, -, hslot⟩ := trackThread_slot c s.conns
  refine ⟨h.waiting, fun d hd => ?_, fun hculling => (nomatch hculling),
    fun w hw => (nomatch hsweep.symm.trans hw), fun w a hw => nomatch hsweep.symm.trans hw⟩
  rcases hd with ⟨i, hi⟩ | hd
  · change (trackThread c s.conns).getD i none = some d at hi
    rw [hslot] at hi
    split at hi
    · cases hi
      exact h.born c (.inr (by rw [hlistener]; rfl))
    · exact h.born d (.inl ⟨i, hi⟩)
  · cases hd

theorem held_ask (h : Held s) (hactive : (s.conn c).stage = .active)
    (hintime : InTime s (.ask c)) :
    Held { s with waiting := Function.update s.waiting c true } := by
  refine ⟨fun d hd => ?_, h.born, fun hculling => ?_, h.listener, fun w a hw ha => ?_⟩
  · by_cases hdc : d = c
    · exact hdc ▸ hactive
    · exact h.waiting d ((Function.update_of_ne hdc _ _).symm.trans hd)
  · obtain ⟨w, hculls⟩ := h.culling hculling
    exact ⟨w, hculls.sweep, hculls.listener, hculls.sweeper, hculls.actor, hculls.phase,
      hculls.found⟩
  · obtain ⟨hactor, hsweeper, hfound, hspared⟩ := h.thread w a hw ha
    refine ⟨hactor, hsweeper, hfound, fun d hd => ?_⟩
    by_cases hdc : d = c
    · rw [hdc]
      exact hintime w hw (ha.trans_ne (Option.some_ne_none a))
    · exact hspared d ((Function.update_of_ne hdc _ _).symm.trans hd)

theorem held_lock (h : Held s) (hsweep : s.sweep = none) {actor : Option ConnId} {sweeper : Sweeper}
    (hintime : InTime s (.lock actor sweeper)) (hstep : LockStep s actor sweeper t) : Held t := by
  cases hstep with
  | cull hlistener =>
      refine ⟨h.waiting, fun c hc => h.born c (hc.imp_right fun hc => (nomatch hc)), fun _ =>
        ⟨_, rfl, rfl, rfl, rfl, nofun, fun hne => absurd rfl hne⟩, fun _ _ _ => .inl rfl, ?_⟩
      rintro w a ⟨⟩ ha
      cases ha
  | leave hlistener =>
      refine ⟨h.waiting, h.born, fun hculling => (nomatch hlistener.symm.trans hculling),
        fun _ _ _ => .inr hlistener, ?_⟩
      rintro w a ⟨⟩ ha
      cases ha
  | @thread c category hwaiting =>
      have hother : ∀ d, Function.update s.waiting c false d = true → s.waiting d = true :=
        fun d hd => by
          by_cases hdc : d = c
          · rw [hdc, Function.update_self] at hd
            cases hd
          · exact (Function.update_of_ne hdc _ _).symm.trans hd
      refine ⟨fun d hd => h.waiting d (hother d hd), h.born, fun hculling => ?_, ?_, ?_⟩
      · obtain ⟨w, hculls⟩ := h.culling hculling
        exact nomatch hsweep.symm.trans hculls.sweep
      · rintro w ⟨⟩ hnone
        cases hnone
      · rintro w a ⟨⟩ ⟨⟩
        refine ⟨h.waiting c hwaiting, ⟨category, rfl⟩, fun hphase => ?_, fun d hd hjoins => ?_⟩
        · rcases hphase with hphase | hphase <;> cases hphase
        · rcases hjoins with ⟨hphase, -⟩ | ⟨htracked, hpick⟩
          · cases hphase
          · exact hintime d (hother d hd) htracked hpick

theorem sweepStep_goesOn {w : Sweep} (hstep : SweepStep s w t) :
    (∀ w', t.sweep = some w' → w'.actor = w.actor ∧ w'.sweeper = w.sweeper) ∧
      t.waiting = s.waiting ∧ ∀ i d, t.slot i = some d → s.slot i = some d := by
  cases hstep with
  | free =>
      refine ⟨by rintro w' ⟨⟩; exact ⟨rfl, rfl⟩, rfl, fun i d hd => ?_⟩
      change (s.conns.set w.index none).getD i none = some d at hd
      rw [getD_set_none] at hd
      split at hd
      · cases hd
      · exact hd
  | finish => exact ⟨nofun, rfl, fun _ _ hd => hd⟩
  | _ => exact ⟨by rintro w' ⟨⟩; exact ⟨rfl, rfl⟩, rfl, fun _ _ hd => hd⟩

theorem sweepStep_picks {w : Sweep} (hstep : SweepStep s w t) (sweeper : Sweeper) (d : ConnId) :
    sweeper.picks d (t.conn d) = sweeper.picks d (s.conn d) := by
  have hset : ∀ {c : ConnId} {conn : Conn}, conn.running = (s.conn c).running →
      conn.airplayStreamCategory = (s.conn c).airplayStreamCategory →
      sweeper.picks d ((s.setConn c conn).conn d) = sweeper.picks d (s.conn d) :=
    fun hrunning hcategory =>
      setConn_of (fun conn => sweeper.picks d conn = sweeper.picks d (s.conn d))
        (fun hd => by
          rw [hd]
          cases sweeper <;> simp only [Sweeper.picks, hrunning, hcategory]) rfl
  cases hstep with
  | cancel => refine hset ?_ ?_ <;> rfl
  | join => refine hset ?_ ?_ <;> rfl
  | free => refine hset ?_ ?_ <;> rfl
  | _ => rfl

/-- A sweep that waits for a thread, or is about to free it, has picked it. -/
theorem sweepStep_joining {w w' : Sweep} (hstep : SweepStep s w t) (hsweep : t.sweep = some w')
    (hphase : w'.phase = .joining ∨ w'.phase = .freeing) :
    w'.index = w.index ∧ t.slot = s.slot ∧
      (w.phase = .joining ∧ w'.phase = .freeing ∨
        ∃ c, s.slot w.index = some c ∧ w.sweeper.picks c (s.conn c) = true) := by
  cases hstep with
  | pick hlooking hslot hpicks =>
      cases hsweep
      exact ⟨rfl, rfl, .inr ⟨_, hslot, hpicks⟩⟩
  | join hjoining =>
      cases hsweep
      exact ⟨rfl, rfl, .inl ⟨hjoining, rfl⟩⟩
  | finish => cases hsweep
  | _ =>
      cases hsweep
      rcases hphase with hphase | hphase <;> cases hphase

theorem cancels_sweepStep {w w' : Sweep} {a : ConnId} (h : s.Cancels w a)
    (hstep : SweepStep s w t) (hsweep : t.sweep = some w') : t.Cancels w' a := by
  obtain ⟨hactive, ⟨category, hsweeper⟩, hfound, hspared⟩ := h
  obtain ⟨hsame, hwaiting, hslot⟩ := sweepStep_goesOn hstep
  have hsweeper' := (hsame w' hsweep).2
  refine ⟨(sweepStep_keeps hstep a).1.trans hactive, ⟨category, hsweeper'.trans hsweeper⟩,
    fun hphase => ?_, fun c hc hjoins => ?_⟩
  · obtain ⟨hindex, hsame, ⟨hjoining, -⟩ | ⟨d, hd, hpick⟩⟩ :=
      sweepStep_joining hstep hsweep hphase
    · rw [hindex, hsame]
      exact hfound (.inl hjoining)
    · rw [hindex, hsame]
      refine ⟨d, hd, fun hda => ?_⟩
      rw [hsweeper, hda, Sweeper.picks, decide_eq_false (not_not_intro rfl), Bool.and_false,
        Bool.false_and] at hpick
      cases hpick
  · rw [hwaiting] at hc
    refine hspared c hc ?_
    rcases hjoins with ⟨hphase, hi⟩ | ⟨⟨i, hi⟩, hpick⟩
    · obtain ⟨hindex, -, ⟨-, hfreeing⟩ | ⟨d, hd, hpick⟩⟩ :=
        sweepStep_joining hstep hsweep (.inl hphase)
      · exact absurd (hphase.symm.trans hfreeing) (by decide)
      · rw [hindex] at hi
        obtain rfl : d = c := Option.some.inj (hd.symm.trans (hslot _ _ hi))
        exact .inr ⟨⟨_, hd⟩, hpick⟩
    · rw [sweepStep_picks hstep, hsweeper'] at hpick
      exact .inr ⟨⟨i, hslot i c hi⟩, hpick⟩

theorem sweepStep_listener {w : Sweep} (hstep : SweepStep s w t) :
    (∃ w', t.sweep = some w') ∧ t.listener = s.listener ∨
      t.sweep = none ∧ t.listener = if s.listener = .culling then .selecting else s.listener := by
  cases hstep with
  | finish => exact .inr ⟨rfl, rfl⟩
  | _ => exact .inl ⟨⟨_, rfl⟩, rfl⟩

theorem held_sweepStep (h : Held s) {w : Sweep} (hsweep : s.sweep = some w)
    (hstep : SweepStep s w t) : Held t := by
  obtain ⟨hsame, hwaiting, hslot⟩ := sweepStep_goesOn hstep
  have hlistener := sweepStep_listener hstep
  refine ⟨fun c hc => ?_, fun c hc => ?_, fun hculling => ?_, fun w' hw' hnone => ?_,
    fun w' a hw' ha => ?_⟩
  · rw [(sweepStep_keeps hstep c).1]
    exact h.waiting c (hwaiting ▸ hc)
  · rw [(sweepStep_keeps hstep c).1]
    refine h.born c (hc.imp (fun ⟨i, hi⟩ => ⟨i, hslot i c hi⟩) fun hc => ?_)
    rcases hlistener with ⟨-, hlistener⟩ | ⟨-, hlistener⟩
    · exact hlistener ▸ hc
    · rw [hlistener] at hc
      split at hc
      · cases hc
      · exact hc
  · rcases hlistener with ⟨⟨w', hw'⟩, hlistener⟩ | ⟨-, hlistener⟩
    · obtain ⟨w₀, hculls⟩ := h.culling (hlistener ▸ hculling)
      obtain rfl : w₀ = w := Option.some.inj (hculls.sweep.symm.trans hsweep)
      exact ⟨w', culls_sweepStep hculls hstep w' hw'⟩
    · rw [hlistener] at hculling
      split at hculling
      · cases hculling
      · next hother => exact absurd hculling hother
  · rw [(hsame w' hw').1] at hnone
    rcases hlistener with ⟨-, hlistener⟩ | ⟨hend, -⟩
    · exact hlistener ▸ h.listener w hsweep hnone
    · exact nomatch hend.symm.trans hw'
  · exact cancels_sweepStep (h.thread w a hsweep ((hsame w' hw').1.symm.trans ha)) hstep hw'

theorem held_step (hinv : Inv s) (h : Held s) {l : Label} (hintime : InTime s l)
    (hstep : step s l = some t) : Held t := by
  have hculling : l ≠ .sweep → s.listener = .culling → ∃ w, t.Culls w := fun hl hculling => by
    obtain ⟨w, hculls⟩ := h.culling hculling
    exact ⟨w, culls_quiet hinv hculls hl hintime hstep⟩
  have hown : ∀ {c : ConnId}, (s.conn c).stage ≠ .active → s.waiting c = false := fun hstage => by
    by_contra hwaiting
    exact hstage (h.waiting _ (Bool.eq_true_of_not_eq_false hwaiting))
  cases l with
  | create =>
      have hlistener : s.listener = .selecting := by
        by_contra hother
        rw [step, if_neg hother] at hstep
        cases hstep
      obtain rfl := step_create hstep
      exact held_create hinv h hlistener
  | setRunning =>
      obtain ⟨c, hlistener, rfl⟩ := step_setRunning hstep
      exact held_setRunning hinv h hlistener
  | track =>
      obtain ⟨c, hlistener, hsweep, rfl⟩ := step_track hstep
      exact held_track h hlistener hsweep
  | setCategory c category =>
      obtain ⟨hactive, hwaiting, rfl⟩ := step_setCategory hstep
      exact h.setConn hwaiting (hactive.trans_ne (by decide)) (fun _ _ _ => hactive)
        (hculling Label.noConfusion)
  | ask c =>
      obtain ⟨hactive, -, rfl⟩ := step_ask hstep
      exact held_ask h hactive hintime
  | clearRunning c =>
      obtain ⟨hactive, hwaiting, rfl⟩ := step_clearRunning hstep
      exact h.setConn hwaiting ThreadStage.noConfusion
        (fun w hw hactor => absurd hactor (hintime w hw)) (hculling Label.noConfusion)
  | exit c =>
      obtain ⟨hcleaned, rfl⟩ := step_exit hstep
      have hother := hcleaned.trans_ne (by decide : ThreadStage.cleaned ≠ .active)
      exact h.setConn (hown hother) ThreadStage.noConfusion
        (fun w hw hactor => absurd (h.thread w c hw hactor).active hother)
        (hculling Label.noConfusion)
  | leave =>
      obtain rfl := step_leave hstep
      exact h.of_quiet rfl rfl rfl h.waiting
        (fun c hc => h.born c (hc.imp_right fun hc => absurd hc.symm (Option.some_ne_none c)))
        Listener.noConfusion (fun _ => .inr rfl)
        (fun w a hw ha => (h.thread w a hw ha).active) fun _ _ _ _ hpick => hpick
  | lock actor sweeper =>
      obtain ⟨hsweep, hlock⟩ := lock_cases hstep
      exact held_lock h hsweep hintime hlock
  | sweep =>
      obtain ⟨w, hsweep, hstep⟩ := step_sweep hstep
      exact held_sweepStep h hsweep hstep

/-! ## The end of a sweep -/

theorem run_held (hinv : Inv s) (h : Held s) {ls : List Label} (hrun : run step s ls = some t)
    (hintime : Along step InTime s ls) : Inv t ∧ Held t := by
  have hstep : ∀ s l t, (Inv s ∧ Held s) → InTime s l → step s l = some t → Inv t ∧ Held t :=
    fun s l t hs hintime hstep => ⟨inv_step hs.1 hstep, held_step hs.1 hs.2 hintime hstep⟩
  exact (throughout_of_step hstep ⟨hinv, h⟩ hintime).last hrun

theorem Held.culls (h : Held s) (hlistener : s.listener ≠ .leaving) {w : Sweep}
    (hsweep : s.sweep = some w) (hactor : w.actor = none) : s.Culls w := by
  obtain ⟨w₀, hculls⟩ := h.culling ((h.listener w hsweep hactor).resolve_right hlistener)
  obtain rfl : w₀ = w := Option.some.inj (hculls.sweep.symm.trans hsweep)
  exact hculls

theorem Held.found (h : Held s) (hlistener : s.listener ≠ .leaving) {w : Sweep}
    (hsweep : s.sweep = some w) (hphase : w.phase = .joining ∨ w.phase = .freeing) :
    ∃ c, s.slot w.index = some c := by
  cases hactor : w.actor with
  | none =>
      have hne : w.phase ≠ .looking := fun hlooking => by
        rcases hphase with hphase | hphase <;> exact nomatch hlooking.symm.trans hphase
      obtain ⟨c, hc, -⟩ := (h.culls hlistener hsweep hactor).found hne
      exact ⟨c, hc⟩
  | some a =>
      obtain ⟨c, hc, -⟩ := (h.thread w a hsweep hactor).found hphase
      exact ⟨c, hc⟩

/-- What has the lock can take its next action, if the thread that it joins has exited. -/
theorem sweep_enabled (h : Held s) (hlistener : s.listener ≠ .leaving) {w : Sweep}
    (hsweep : s.sweep = some w)
    (hexited : w.phase = .joining → ∀ c, s.slot w.index = some c → (s.conn c).stage = .exited) :
    ∃ t, step s .sweep = some t ∧ SweepStep s w t := by
  have hgoes : s.goesOn w = true := by
    rw [State.goesOn]
    cases hactor : w.actor with
    | none =>
        have hculls := h.culls hlistener hsweep hactor
        rw [hculls.sweeper]
        exact decide_eq_true hculls.listener
    | some a => exact decide_eq_true (h.thread w a hsweep hactor).active
  have hstep : step s .sweep = s.sweepStep w := by
    change s.sweep.bind _ = _
    rw [hsweep, Option.bind_some, if_pos hgoes]
  have hsome : ∃ t, s.sweepStep w = some t := by
    unfold State.sweepStep
    cases hphase : w.phase with
    | cancelling =>
        dsimp only
        split
        · split
          · split
            · exact ⟨_, rfl⟩
            · exact ⟨_, rfl⟩
          · exact ⟨_, rfl⟩
        · exact ⟨_, rfl⟩
    | looking =>
        dsimp only
        split
        · split
          · split
            · exact ⟨_, rfl⟩
            · exact ⟨_, rfl⟩
          · exact ⟨_, rfl⟩
        · exact ⟨_, rfl⟩
    | joining =>
        obtain ⟨c, hc⟩ := h.found hlistener hsweep (.inl hphase)
        dsimp only
        rw [hc, Option.bind_some, if_pos (hexited hphase c hc)]
        exact ⟨_, rfl⟩
    | freeing =>
        obtain ⟨c, hc⟩ := h.found hlistener hsweep (.inr hphase)
        dsimp only
        rw [hc]
        exact ⟨_, rfl⟩
  obtain ⟨t, ht⟩ := hsome
  exact ⟨t, hstep.trans ht, sweepStep_cases ht⟩

theorem joined_waiting (hinv : Inv s) (h : Held s) (hlistener : s.listener ≠ .leaving) {w : Sweep}
    (hsweep : s.sweep = some w) (hphase : w.phase = .joining) (hslot : s.slot w.index = some c) :
    s.waiting c = false := by
  by_contra hwaiting
  have hwaits := Bool.eq_true_of_not_eq_false hwaiting
  cases hactor : w.actor with
  | none =>
      obtain ⟨d, hd, hfalse⟩ :=
        (h.culls hlistener hsweep hactor).found (hphase.trans_ne (by decide))
      obtain rfl : d = c := Option.some.inj (hd.symm.trans hslot)
      have hactive := h.waiting d hwaits
      rcases hinv.ended d (.inl ⟨_, hd⟩) hfalse with hcleaned | hexited
      · exact nomatch hactive.symm.trans hcleaned
      · exact nomatch hactive.symm.trans hexited
  | some a => exact (h.thread w a hsweep hactor).spared c hwaits (.inl ⟨hphase, hslot⟩)

/-- A thread that is joined can come to its end. -/
theorem joined_exits (hinv : Inv s) (h : Held s) (hlistener : s.listener ≠ .leaving) {w : Sweep}
    (hsweep : s.sweep = some w) (hphase : w.phase = .joining) (hslot : s.slot w.index = some c) :
    ∃ ls t, run step s ls = some t ∧ Along step InTime s ls ∧ t.sweep = s.sweep ∧
      t.conns = s.conns ∧ t.listener = s.listener ∧ (t.conn c).stage = .exited := by
  have hactor : w.actor ≠ some c := fun hactor => by
    obtain ⟨d, hd, hne⟩ := (h.thread w c hsweep hactor).found (.inl hphase)
    exact hne (Option.some.inj (hd.symm.trans hslot))
  have hexit : ∀ {s : State}, (s.conn c).stage = .cleaned → step s (.exit c) =
      some (s.setConn c { s.conn c with stage := .exited }) := fun hcleaned => if_pos hcleaned
  have hself : ∀ (s : State) (conn : Conn), (s.setConn c conn).conn c = conn := fun s conn =>
    (conn_setConn s c c conn).trans (if_pos rfl)
  cases hstage : (s.conn c).stage with
  | unborn => exact absurd hstage (h.born c (.inl ⟨_, hslot⟩))
  | active =>
      have hclear : step s (.clearRunning c) =
          some (s.setConn c { s.conn c with stage := .cleaned, running := false }) :=
        if_pos ⟨hstage, joined_waiting hinv h hlistener hsweep hphase hslot⟩
      refine ⟨[.clearRunning c, .exit c], _, run_cons_eq_some_iff.mpr ⟨_, hclear,
        run_cons_eq_some_iff.mpr ⟨_, hexit (congrArg Conn.stage (hself s _)), rfl⟩⟩,
        fun _ _ => ⟨fun w' hw' => ?_, fun _ _ => ⟨trivial, trivial⟩⟩, rfl, rfl, rfl,
        congrArg Conn.stage (hself _ _)⟩
      obtain rfl : w = w' := Option.some.inj (hsweep.symm.trans hw')
      exact hactor
  | cleaned =>
      exact ⟨[.exit c], _, run_cons_eq_some_iff.mpr ⟨_, hexit hstage, rfl⟩,
        fun _ _ => ⟨trivial, trivial⟩, rfl, rfl, rfl, congrArg Conn.stage (hself _ _)⟩
  | exited => exact ⟨[], s, rfl, trivial, rfl, rfl, rfl, hstage⟩

/-- What has the lock can come a step nearer to its end. -/
theorem sweep_next (hinv : Inv s) (h : Held s) (hlistener : s.listener ≠ .leaving) {w : Sweep}
    (hsweep : s.sweep = some w) :
    ∃ ls t, run step s ls = some t ∧ Along step InTime s ls ∧ t.listener ≠ .leaving ∧
      ∀ w', t.sweep = some w' → t.left w' < s.left w := by
  obtain ⟨ls, t, hrun, hintime, hsame, hconns, hstays, hexited⟩ : ∃ ls t,
      run step s ls = some t ∧ Along step InTime s ls ∧ t.sweep = s.sweep ∧ t.conns = s.conns ∧
        t.listener = s.listener ∧
        (w.phase = .joining → ∀ c, t.slot w.index = some c → (t.conn c).stage = .exited) := by
    by_cases hphase : w.phase = .joining
    · obtain ⟨c, hc⟩ := h.found hlistener hsweep (.inl hphase)
      obtain ⟨ls, t, hrun, hintime, hsame, hconns, hstays, hexited⟩ :=
        joined_exits hinv h hlistener hsweep hphase hc
      refine ⟨ls, t, hrun, hintime, hsame, hconns, hstays, fun _ d hd => ?_⟩
      rw [State.slot, hconns] at hd
      obtain rfl : c = d := Option.some.inj (hc.symm.trans hd)
      exact hexited
    · exact ⟨[], s, rfl, trivial, rfl, rfl, rfl, fun hjoining => absurd hjoining hphase⟩
  have hleaving : t.listener ≠ .leaving := hstays ▸ hlistener
  obtain ⟨-, ht⟩ := run_held hinv h hrun hintime
  obtain ⟨u, hstep, hnext⟩ := sweep_enabled ht hleaving (hsame.trans hsweep) hexited
  have hleft : t.left w = s.left w := by rw [State.left, State.left, hconns]
  have hlast : Along step InTime t [.sweep] := fun _ _ => ⟨trivial, trivial⟩
  refine ⟨ls ++ [.sweep], u, ?_, hintime.append hrun hlast, ?_, hleft ▸ sweepStep_left hnext⟩
  · rw [run_append, hrun]
    exact run_cons_eq_some_iff.mpr ⟨u, hstep, rfl⟩
  · rcases sweepStep_listener hnext with ⟨-, hu⟩ | ⟨-, hu⟩
    · exact hu ▸ hleaving
    · rw [hu]
      split
      · exact Listener.noConfusion
      · exact hleaving

theorem sweep_end (hinv : Inv s) (h : Held s) (hlistener : s.listener ≠ .leaving) :
    ∃ ls t, run step s ls = some t ∧ Along step InTime s ls ∧ t.listener ≠ .leaving ∧
      t.sweep = none := by
  cases hsweep : s.sweep with
  | none => exact ⟨[], s, rfl, trivial, hlistener, hsweep⟩
  | some w =>
      induction hn : s.left w using Nat.strong_induction_on generalizing s w with
      | _ n ih =>
          obtain ⟨ls, t, hrun, hintime, hleaving, hnext⟩ := sweep_next hinv h hlistener hsweep
          obtain ⟨hinv', ht⟩ := run_held hinv h hrun hintime
          cases hsweep' : t.sweep with
          | none => exact ⟨ls, t, hrun, hintime, hleaving, hsweep'⟩
          | some w' =>
              obtain ⟨ms, u, hrun', hintime', hend⟩ :=
                ih (t.left w') (hn ▸ hnext w' hsweep') hinv' ht hleaving w' hsweep' rfl
              refine ⟨ls ++ ms, u, ?_, hintime.append hrun hintime', hend⟩
              rw [run_append, hrun]
              exact hrun'

theorem lock_cleanupThreads (hlistener : s.listener = .selecting) (hsweep : s.sweep = none) :
    step s (.lock none .cleanupThreads) = some { s with
      listener := .culling
      sweep := some ⟨none, .cleanupThreads, .looking, 0⟩ } := by
  change s.lock none .cleanupThreads = _
  rw [State.lock, hsweep, if_neg (by decide)]
  exact if_pos hlistener

theorem track_marked (hlistener : s.listener = .marked c) (hsweep : s.sweep = none) :
    step s .track = some { s with conns := trackThread c s.conns, listener := .selecting } := by
  rw [step, hlistener]
  change (if s.sweep.isSome = true then none else _) = _
  rw [hsweep]
  exact if_neg (by decide)

theorem cullable (hinv : Inv s) (h : Held s) (hlistener : s.listener ≠ .leaving) :
    s.Cullable := by
  obtain ⟨ls, t, hrun, hintime, hleaving, hnone⟩ := sweep_end hinv h hlistener
  obtain ⟨-, ht⟩ := run_held hinv h hrun hintime
  have hgoes : ∀ {ms : List Label} {u : State}, run step t ms = some u →
      u.listener = .selecting → u.sweep = none → s.Cullable := fun {ms u} hms hselecting hfree => by
    refine ⟨ls ++ ms, u, _, ?_, lock_cleanupThreads hselecting hfree⟩
    rw [run_append, hrun]
    exact hms
  cases hstate : t.listener with
  | selecting => exact hgoes (run_nil t) hstate hnone
  | culling =>
      obtain ⟨w, hculls⟩ := ht.culling hstate
      exact nomatch hnone.symm.trans hculls.sweep
  | created c =>
      obtain ⟨u, hset, hmarked, hfree⟩ : ∃ u, step t .setRunning = some u ∧
          u.listener = .marked c ∧ u.sweep = none := by
        rw [step, hstate]
        exact ⟨_, rfl, rfl, hnone⟩
      have hms : run step t [.setRunning, .track] =
          some { u with conns := trackThread c u.conns, listener := .selecting } :=
        run_cons_eq_some_iff.mpr ⟨u, hset,
          run_cons_eq_some_iff.mpr ⟨_, track_marked hmarked hfree, rfl⟩⟩
      exact hgoes hms rfl hfree
  | marked c =>
      have hms : run step t [.track] =
          some { t with conns := trackThread c t.conns, listener := .selecting } :=
        run_cons_eq_some_iff.mpr ⟨_, track_marked hstate hnone, rfl⟩
      exact hgoes hms rfl hnone
  | leaving => exact absurd hstate hleaving

/-! ## Reaping -/

theorem cleanup_reaps (htracked : s.Tracked c) (hrunning : (s.conn c).running = false)
    (hlock : step s (.lock none .cleanupThreads) = some t) : t.Reaps c := by
  obtain ⟨i, hi⟩ := htracked
  obtain ⟨-, hlock⟩ := @lock_cases s t none .cleanupThreads hlock
  cases hlock
  exact .inr ⟨_, i, ⟨rfl, rfl, rfl, rfl, by decide, fun hne => absurd rfl hne⟩, Nat.zero_le i, hi,
    hrunning⟩

theorem run_reaps (hinv : Inv s) (hreaps : s.Reaps c) {ls : List Label}
    (hrun : run step s ls = some t) (hintime : Along step InTime s ls) : t.Reaps c := by
  have hstep : ∀ s l t, (Inv s ∧ s.Reaps c) → InTime s l → step s l = some t → Inv t ∧ t.Reaps c :=
    fun s l t hs hintime hstep => ⟨inv_step hs.1 hstep, reaps_step hs.1 hs.2 hintime hstep⟩
  exact ((throughout_of_step hstep ⟨hinv, hreaps⟩ hintime).last hrun).2

theorem reaps_end (hinv : Inv s) (h : Held s) (hreaps : s.Reaps c) :
    ∃ ls t, run step s ls = some t ∧ (t.conn c).Reaped := by
  rcases hreaps with hreaped | ⟨w, i, hculls, hle, hslot, hrunning⟩
  · exact ⟨[], s, rfl, hreaped⟩
  · have hlistener : s.listener ≠ .leaving := hculls.listener.trans_ne (by decide)
    obtain ⟨ls, t, hrun, hintime, -, hnone⟩ := sweep_end hinv h hlistener
    rcases run_reaps hinv (.inr ⟨w, i, hculls, hle, hslot, hrunning⟩) hrun hintime with
      hreaped | ⟨w', -, hculls', -⟩
    · exact ⟨ls, t, hrun, hreaped⟩
    · exact nomatch hnone.symm.trans hculls'.sweep

theorem keeps_step (h : Inv s) {l : Label} (hkeeps : s.Keeps c) (hstep : step s l = some t) :
    t.Keeps c := by
  rcases hkeeps with hreaped | ⟨⟨i, hslot⟩, hrunning⟩
  · exact .inl (reaped_step h hstep hreaped)
  · by_cases hl : l = .sweep
    · rw [hl] at hstep
      obtain ⟨w, hsweep, hstep⟩ := step_sweep hstep
      have hfalse := (sweepStep_keeps hstep c).2.trans hrunning
      rcases keeps_sweepStep h hsweep hstep hslot with hreaped | hi
      · exact .inl hreaped
      · exact .inr ⟨⟨i, hi⟩, hfalse⟩
    · obtain ⟨hi, hfalse⟩ := tracked_step h hl hstep hslot hrunning
      exact .inr ⟨⟨i, hi⟩, hfalse⟩

theorem run_keeps (h : Inv s) (hkeeps : s.Keeps c) {ls : List Label}
    (hrun : run step s ls = some t) : t.Keeps c := by
  have hstep : ∀ s l t, (Inv s ∧ s.Keeps c) → step s l = some t → Inv t ∧ t.Keeps c :=
    fun s l t hs hstep => ⟨inv_step hs.1 hstep, keeps_step hs.1 hs.2 hstep⟩
  exact ((throughout_of_invariant hstep ⟨h, hkeeps⟩).last hrun).2

theorem finished_step (h : Inv s) {l : Label} (hstep : step s l = some t)
    (hover : (s.conn c).Finished) : (t.conn c).Finished := by
  have hborn : c ≠ s.rtspConnectionIndex := fun hc => by
    rw [h.unborn c hc.ge] at hover
    rcases hover with hover | hover <;> cases hover
  have hset : ∀ {d : ConnId} {conn : Conn}, (d = c → conn.Finished) →
      ((s.setConn d conn).conn c).Finished := fun hconn =>
    setConn_of Conn.Finished (fun hc => hconn hc.symm) hover
  cases l with
  | create =>
      obtain rfl := step_create hstep
      exact hset fun hc => absurd hc.symm hborn
  | setRunning =>
      obtain ⟨d, -, rfl⟩ := step_setRunning hstep
      exact hset fun hd => hd ▸ hover
  | track =>
      obtain ⟨d, -, -, rfl⟩ := step_track hstep
      exact hover
  | setCategory d category =>
      obtain ⟨-, -, rfl⟩ := step_setCategory hstep
      exact hset fun hd => hd ▸ hover
  | ask d =>
      obtain ⟨-, -, rfl⟩ := step_ask hstep
      exact hover
  | clearRunning d =>
      obtain ⟨-, -, rfl⟩ := step_clearRunning hstep
      exact hset fun _ => .inl rfl
  | exit d =>
      obtain ⟨-, rfl⟩ := step_exit hstep
      exact hset fun _ => .inr rfl
  | leave =>
      obtain rfl := step_leave hstep
      exact hover
  | lock actor sweeper =>
      obtain ⟨-, hlock⟩ := lock_cases hstep
      rw [(lockStep_conn hlock).1]
      exact hover
  | sweep =>
      obtain ⟨w, -, hstep⟩ := step_sweep hstep
      rw [Conn.Finished, (sweepStep_keeps hstep c).1]
      exact hover

theorem lost_step (h : Inv s) {w : Sweep} {a : ConnId} (hactor : w.actor = some a) {l : Label}
    (hsweep : s.sweep = some w) (hover : (s.conn a).Finished) (hstep : step s l = some t) :
    t.sweep = some w ∧ (t.conn a).Finished := by
  refine ⟨?_, finished_step h hstep hover⟩
  by_cases hl : l = .sweep
  · have hgoes : s.goesOn w = false := by
      rw [State.goesOn, hactor]
      refine decide_eq_false fun hactive => ?_
      rcases hover with hover | hover <;> exact nomatch hactive.symm.trans hover
    rw [hl, step, hsweep, Option.bind_some, hgoes, if_neg Bool.false_ne_true] at hstep
    cases hstep
  · exact (quiet_step hsweep hl hstep).1

end Held

theorem run_lockLost {ls ms : List Label} {s t : State} {w : Sweep} {a : ConnId}
    (hrun : run step start ls = some s) (hsweep : s.sweep = some w) (hactor : w.actor = some a)
    (hover : (s.conn a).Finished) (hrun' : run step s ms = some t) : t.sweep = some w := by
  have hstep : ∀ s l t, (Inv s ∧ s.sweep = some w ∧ (s.conn a).Finished) →
      step s l = some t → Inv t ∧ t.sweep = some w ∧ (t.conn a).Finished :=
    fun s l t hs hstep => ⟨inv_step hs.1 hstep, lost_step hs.1 hactor hs.2.1 hs.2.2 hstep⟩
  exact ((throughout_of_invariant hstep ⟨run_inv hrun, hsweep, hover⟩).last hrun').2.1

/-- In every run in which the listener sets `running` before the thread has cleared it and nothing
ends with the lock, or waits for it while it is joined, a connection that is over and tracked is
marked so, the listener can come to have the lock for `cleanup_threads` unless it is gone, and every
`cleanup_threads` reaps what is over. None is joined or freed twice, or freed before it is over. -/
theorem run_reaped (ls : List Label) (s : State) (hrun : run step start ls = some s)
    (hintime : Along step InTime start ls) :
    s.Sound ∧ (s.listener ≠ .leaving → s.Cullable) ∧
      ∀ c, (s.conn c).Finished → s.Tracked c →
        (∀ ms t, run step s ms = some t → t.Keeps c) ∧
          ∀ t, step s (.lock none .cleanupThreads) = some t →
            ∀ ms u, run step t ms = some u → Along step InTime t ms →
              ((u.conn c).Reaped ∨ u.Awaits c) ∧
                ∃ ns v, run step u ns = some v ∧ (v.conn c).Reaped := by
  have hinv := run_inv hrun
  have hheld := (run_held inv_start held_start hrun hintime).2
  have hcleared : s.Cleared :=
    (throughout_of_step (fun _ _ _ hs hin hstep => cleared_step hs hin hstep)
      (fun c _ => rfl) hintime).last hrun
  refine ⟨⟨fun c hover _ => hcleared c hover, hinv.joined, hinv.freed, hinv.exited⟩,
    cullable hinv hheld, fun c hover htracked => ⟨fun ms t hms =>
      run_keeps hinv (.inr ⟨htracked, hcleared c hover⟩) hms, fun t hlock ms u hms hintime' => ?_⟩⟩
  have ht := inv_step hinv hlock
  have hlast : InTime s (.lock none .cleanupThreads) := trivial
  have hreaps := run_reaps ht (cleanup_reaps htracked (hcleared c hover) hlock) hms hintime'
  obtain ⟨hu, hheld'⟩ := run_held ht (held_step hinv hheld hlast hlock) hms hintime'
  refine ⟨?_, reaps_end hu hheld' hreaps⟩
  rcases hreaps with hreaped | ⟨w, i, hculls, hle, hslot, -⟩
  · exact .inl hreaped
  · exact .inr ⟨w, i, hculls.sweep, hculls.sweeper, hle, hslot⟩

/-- A session that is over after it has been tracked. -/
theorem run_reaped_shortSession : ∃ s t,
    run step start [.create, .setRunning, .track, .clearRunning 1] = some s ∧
      step s (.lock none .cleanupThreads) = some t ∧ s.Sound ∧ s.Cullable ∧
      ∃ ls u, run step t ls = some u ∧ (u.conn 1).Reaped := by
  have hintime : Along step InTime start [.create, .setRunning, .track, .clearRunning 1] := by
    rintro _ ⟨⟩
    refine ⟨trivial, ?_⟩
    rintro _ ⟨⟩
    refine ⟨fun c hc => by cases hc; rfl, ?_⟩
    rintro _ ⟨⟩
    refine ⟨trivial, ?_⟩
    rintro _ ⟨⟩
    exact ⟨fun w hw => (nomatch hw), trivial⟩
  obtain ⟨hsound, hcullable, hreaps⟩ := run_reaped _ _ rfl hintime
  exact ⟨_, _, rfl, rfl, hsound, hcullable nofun,
    ((hreaps 1 (.inl rfl) ⟨0, rfl⟩).2 _ rfl [] _ rfl trivial).2⟩

/-- A session that is over before the listener sets `running`. The whole of `cleanup_threads` goes
by without joining it. -/
theorem run_notReaped : ∃ s t,
    run step start [.create, .clearRunning 1, .setRunning, .track] = some s ∧
      (s.conn 1).Finished ∧ s.Tracked 1 ∧ (s.conn 1).running = true ∧
      run step s [.exit 1, .lock none .cleanupThreads, .sweep, .sweep] = some t ∧
      t.sweep = none ∧ t.Tracked 1 ∧ (t.conn 1).joined = 0 :=
  ⟨_, _, rfl, .inl rfl, ⟨0, rfl⟩, rfl, rfl, rfl, ⟨0, rfl⟩, rfl⟩

end Reaping

end Rtsp

end ShairportSync
