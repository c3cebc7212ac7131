import ShairportSync.Rtsp.Sessions

/-!
# The play lock at the end of a connection

The clean-up of a conversation thread should leave `playing_conn` to others. In the build
without AirPlay 2 it asks whether the connection has the player; in the build with it, it
asks whether the connection is a PTP stream, which a classic session is not, nor one
whose last SETUP was of another category. As long as every connection that has the player
when it begins to leave is one that the clean-up releases it for, no connection that is
over, or freed, is in `playing_conn`.
-/

namespace ShairportSync

namespace Rtsp

open Concurrency Concurrency.Prog Transition

/-- A thread that has come to its end does nothing more, and it ends without the player. -/
def EndsWithoutPlayer (v w : View) : Prop :=
  v.own.stage ≠ .exited ∧ (w.own.stage = .exited → w.hasPlayer = false)

/-- The clean-up gives the player back, or there is nothing to give back. -/
def View.releases (cfg : Config) (v : View) : Prop :=
  cfg.airplay2 = false ∨ v.own.airplayStreamCategory = .ptpStream ∨ v.hasPlayer = false

/-- What must be so when a connection begins to leave, lest it keep the player. -/
def ReleasesPlayer (cfg : Config) (threads : Threads) : Label → Prop
  | .leave c => (threads.shared.view c).releases cfg
  | .cancelled c => (threads.shared.view c).releases cfg
  | _ => True

instance (cfg : Config) (v : View) : Decidable (v.releases cfg) :=
  inferInstanceAs (Decidable (_ = _ ∨ _ = _ ∨ _ = _))

instance (cfg : Config) (threads : Threads) : DecidablePred (ReleasesPlayer cfg threads)
  | .leave c => inferInstanceAs (Decidable ((threads.shared.view c).releases cfg))
  | .cancelled c => inferInstanceAs (Decidable ((threads.shared.view c).releases cfg))
  | .accept => isTrue trivial
  | .request _ _ => isTrue trivial
  | .act _ => isTrue trivial
  | .watchdog _ => isTrue trivial
  | .reap _ => isTrue trivial

section Programs

variable {cfg : Config} {c : ConnId} {v : View}

theorem endsWithoutPlayer_of_stage {v w : View} (hv : v.own.stage ≠ .exited)
    (hw : w.own.stage = v.own.stage) : EndsWithoutPlayer v w :=
  ⟨hv, fun hexited => absurd (hw.symm.trans hexited) hv⟩

theorem does_handleRequest_conversing {req : Request} (hv : v.own.stage = .conversing) :
    Does EndsWithoutPlayer c (handleRequest cfg c req) v fun _ _ => True := by
  have hexited : ∀ {w : View}, w.own.stage = .conversing → w.own.stage ≠ .exited := by
    intro w hw
    rw [hw]
    exact Stage.noConfusion
  refine (does_of_keeps (I := fun w => w.own.stage = .conversing) (keeps_handleRequest cfg c req)
    (fun s t hst hs => hst.stage.trans hs) hv fun s t hst hs => ?_).mono fun _ _ _ => trivial
  exact endsWithoutPlayer_of_stage (hexited hs) hst.stage

theorem endsWithoutPlayer_of_leaving {v w : View} (hv : v.own.stage = .leaving)
    (hw : w.own.stage = .leaving) : EndsWithoutPlayer v w := by
  refine endsWithoutPlayer_of_stage ?_ (hw.trans hv.symm)
  rw [hv]
  exact Stage.noConfusion

theorem does_releasePlayLock_leaving (hv : v.own.stage = .leaving) :
    Does EndsWithoutPlayer c (releasePlayLock c) v fun _ w =>
      w.own.stage = .leaving ∧ w.hasPlayer = false := by
  refine (does_releasePlayLock (endsWithoutPlayer_of_leaving hv hv)).mono ?_
  rintro _ _ rfl
  exact ⟨hv, rfl⟩

theorem does_teardownPhaseOne_leaving (hv : v.own.stage = .leaving) :
    Does EndsWithoutPlayer c (teardownPhaseOne c) v fun _ w =>
      w.own.stage = .leaving ∧ w.own.airplayStreamCategory = v.own.airplayStreamCategory ∧
        w.hasPlayer = v.hasPlayer := by
  have hone : (if v.own.playerThread then v.own.playerStop else v.own).stage = .leaving ∧
      (if v.own.playerThread then v.own.playerStop else v.own).airplayStreamCategory =
        v.own.airplayStreamCategory := by
    split_ifs
    · exact ⟨hv, rfl⟩
    · exact ⟨hv, rfl⟩
  have hdoes : Does EndsWithoutPlayer c (teardownPhaseOne c) v _ := does_modifyOwn
    (f := fun own => if own.playerThread then own.playerStop else own)
    (endsWithoutPlayer_of_leaving hv hone.1)
  refine hdoes.mono ?_
  rintro _ _ rfl
  exact ⟨hone.1, hone.2, rfl⟩

theorem does_teardownPhaseTwo_leaving (hv : v.own.stage = .leaving)
    (hptp : v.own.airplayStreamCategory = .ptpStream ∨ v.hasPlayer = false) :
    Does EndsWithoutPlayer c (teardownPhaseTwo c) v fun _ w =>
      w.own.stage = .leaving ∧ w.hasPlayer = false := by
  refine (does_readOwn (endsWithoutPlayer_of_leaving hv hv)).bind ?_
  rintro category w ⟨rfl, rfl⟩
  split_ifs with hcategory
  · exact does_releasePlayLock_leaving hv
  · exact does_pure ⟨hv, hptp.resolve_left hcategory⟩

theorem does_cleanupPlayer_leaving (hv : v.own.stage = .leaving) (hreleases : v.releases cfg) :
    Does EndsWithoutPlayer c (cleanupPlayer cfg c) v fun _ w =>
      w.own.stage = .leaving ∧ w.hasPlayer = false := by
  unfold cleanupPlayer
  split_ifs with hairplay2
  · refine (does_teardownPhaseOne_leaving hv).bind ?_
    rintro _ w ⟨hw, hcategory, hhas⟩
    refine does_teardownPhaseTwo_leaving hw ?_
    rw [hcategory, hhas]
    exact hreleases.resolve_left (Bool.not_eq_false _ ▸ hairplay2)
  · refine (does_havePlayLock (endsWithoutPlayer_of_leaving hv hv)).bind ?_
    rintro havePlayLock w ⟨rfl, rfl⟩
    split_ifs with hhas
    · refine (does_modifyOwn (endsWithoutPlayer_of_leaving hv hv)).bind fun _ w' hw' => ?_
      refine does_releasePlayLock_leaving ?_
      rw [hw']
      exact hv
    · exact does_pure ⟨hv, Bool.eq_false_iff.mpr hhas⟩

theorem does_conversationCleanup_leaving (hv : v.own.stage = .leaving)
    (hreleases : v.releases cfg) :
    Does EndsWithoutPlayer c (conversationCleanup cfg c) v fun _ _ => True := by
  refine (does_cleanupPlayer_leaving hv hreleases).bind fun _ w hw => ?_
  have hleaving : w.own.stage ≠ .exited := by
    rw [hw.1]
    exact Stage.noConfusion
  refine (does_stopRunning (endsWithoutPlayer_of_stage hleaving rfl)).bind fun _ w' hw' => ?_
  rw [hw']
  have hends : EndsWithoutPlayer w ⟨{ w.own with stage := .exited }, w.hasPlayer⟩ :=
    ⟨hleaving, fun _ => hw.2⟩
  exact (does_modifyOwn (f := fun own => { own with stage := .exited }) hends).mono
    fun _ _ _ => trivial

end Programs

/-! ## Runs -/

/-- A connection that is over is not `playing_conn`, and only such connections are freed. -/
structure LeavesPlayer (c : ConnId) (s : Shared) : Prop where
  exited : (s.conns c).own.stage = .exited → s.playingConn ≠ some c
  freed : (s.conns c).freed = true → (s.conns c).own.stage = .exited

theorem preserved_leavesPlayer (cfg : Config) :
    Preserved cfg EndsWithoutPlayer LeavesPlayer where
  own := by
    rintro c s t ⟨hframe, hstage, hends⟩ hs
    refine ⟨fun hexited => of_decide_eq_false (hends hexited), fun hfreed => ?_⟩
    rcases hframe.freed c hfreed with hfreed | hexited
    · exact absurd (hs.freed hfreed) hstage
    · exact absurd hexited hstage
  others := by
    intro c s t hst hs
    refine ⟨fun hexited hplaying => ?_, fun hfreed => ?_⟩
    · rw [hst.rely.own] at hexited
      exact hs.exited hexited (hst.rely.playingConn_iff.mp hplaying)
    · rw [hst.rely.own]
      exact (hst.freed hfreed).elim hs.freed id
  accept := by
    intro s
    constructor
    · rw [accept_conns_self]
      exact Stage.noConfusion
    · rw [accept_conns_self]
      exact fun hfreed => absurd hfreed Bool.false_ne_true
  startLeaving := by
    intro c s hconversing hs
    have hleaving : ((s.startLeaving c).view c).own.stage = .leaving := by
      rw [view_startLeaving]
      rfl
    refine ⟨fun hexited => ?_, fun hfreed => ?_⟩
    · exact Stage.noConfusion (hleaving.symm.trans hexited)
    · have hexited := ((frame_setOwn c s _).freed c hfreed).elim hs.freed id
      exact Stage.noConfusion (hconversing.symm.trans hexited)

/-- In every run of any number of connections, in which every connection that leaves while it
has the player is one that the clean-up of the build gives it back for, `playing_conn` is
never a connection that is over or has been freed. -/
theorem leavesPlayer_throughout (cfg : Config) (ls : List Label)
    (h : Along (step cfg) (ReleasesPlayer cfg) (start cfg) ls) :
    Throughout (step cfg) (fun threads => ∀ c,
      ((threads.shared.conns c).own.stage = .exited → threads.shared.playingConn ≠ some c) ∧
      ((threads.shared.conns c).freed = true → threads.shared.playingConn ≠ some c))
      (start cfg) ls := by
  have hsafe : Throughout (step cfg) (Safe EndsWithoutPlayer LeavesPlayer) (start cfg) ls := by
    refine throughout_of_step (fun threads l threads' hsafe hreleases hstep => ?_)
      (safe_start fun c => ⟨Stage.noConfusion, fun hfreed => absurd hfreed Bool.false_ne_true⟩) h
    refine hsafe.step (preserved_leavesPlayer cfg)
      (fun c req _ hconversing => does_handleRequest_conversing hconversing) ?_ hstep
    rintro c hl -
    have hview : (threads.shared.view c).releases cfg := by
      rcases hl with rfl | rfl
      · exact hreleases
      · exact hreleases
    exact does_conversationCleanup_leaving rfl hview
  refine hsafe.mono fun threads hthreads c => ?_
  have hc := hthreads.holds c
  exact ⟨hc.exited, fun hfreed => hc.exited (hc.freed hfreed)⟩

/-- An AirPlay 2 PTP session that leaves is freed without the player. -/
theorem leavesPlayer_of_ptp_session :
    Throughout (step ⟨true, true⟩) (fun threads => ∀ c,
      ((threads.shared.conns c).own.stage = .exited → threads.shared.playingConn ≠ some c) ∧
      ((threads.shared.conns c).freed = true → threads.shared.playingConn ≠ some c))
      (start ⟨true, true⟩)
      ([.accept, .request 1 (.setup ⟨none, none, 0⟩ ⟨none, some .ptp, true⟩)] ++
        List.replicate 9 (.act 1) ++ [.leave 1] ++ List.replicate 5 (.act 1) ++ [.reap 0]) :=
  leavesPlayer_throughout _ _ (by decide +kernel)

/-- A classic session in the build with AirPlay 2: the clean-up looks at the category of an
AirPlay 2 stream, and the listener frees the connection while it is `playing_conn`. -/
theorem playingConn_freed_after_classic_session :
    ¬ ∀ (cfg : Config) (ls : List Label), Throughout (step cfg) (fun threads => ∀ c,
      ((threads.shared.conns c).own.stage = .exited → threads.shared.playingConn ≠ some c) ∧
      ((threads.shared.conns c).freed = true → threads.shared.playingConn ≠ some c))
      (start cfg) ls := by
  intro h
  have hrun : (run (step ⟨true, true⟩) (start ⟨true, true⟩)
      ([.accept] ++ startPlaying 1 ++ [.leave 1] ++ List.replicate 4 (.act 1) ++ [.reap 0])).map
        (fun threads => ((threads.shared.conns 1).freed, threads.shared.playingConn)) =
      some (true, some 1) := by
    decide +kernel
  obtain ⟨threads, hrun, hthreads⟩ := Option.map_eq_some_iff.mp hrun
  obtain ⟨hfreed, hplaying⟩ := Prod.mk.inj hthreads
  exact ((h ⟨true, true⟩ _).last hrun 1).2 hfreed hplaying

end Rtsp

end ShairportSync
