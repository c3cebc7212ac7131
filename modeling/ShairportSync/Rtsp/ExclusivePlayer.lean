import ShairportSync.Rtsp.Sessions

/-!
# The exclusive player

A connection whose player thread runs should be the one in `playing_conn`. The handlers
that start a player look at the play lock first, except the AirPlay 2 SETUP of a stream,
and the handlers that give the lock back stop the player first, except the error paths
of ANNOUNCE and of the classic SETUP. As long as none of these exceptions happens, in
any interleaving, at most one player thread runs.
-/

namespace ShairportSync

namespace Rtsp

open Concurrency Concurrency.Prog Transition

/-- The connection's player thread does not run without the player. -/
def PlaysOnlyAsHolder (v : View) : Prop := v.own.playerThread = true → v.hasPlayer = true

/-- An action does not make the connection's player run without the player. -/
def KeepsPlayer (v w : View) : Prop := PlaysOnlyAsHolder v → PlaysOnlyAsHolder w

theorem keepsPlayer_refl (v : View) : KeepsPlayer v v := id

/-- What must be so when a request is taken, lest a player run without the player: a classic
session whose player runs is not sent an ANNOUNCE or a SETUP that fails, and a stream is
set up on a PTP session only while it has the player. -/
def KeepsHolder (cfg : Config) (threads : Threads) : Label → Prop
  | .request c (.announce content) =>
      (threads.shared.conns c).own.playerThread = true → content.acceptable = true
  | .request c (.setup headers items) =>
      if cfg.classic (threads.shared.conns c).own then
        (threads.shared.conns c).own.playerThread = true → headers.acceptable = true
      else
        (items.streams = some 96 ∨ items.streams = some 103) →
          (threads.shared.conns c).own.airplayStreamCategory = .ptpStream →
            threads.shared.playingConn = some c
  | _ => True

instance (cfg : Config) (threads : Threads) : DecidablePred (KeepsHolder cfg threads)
  | .request _ (.announce _) => inferInstanceAs (Decidable (_ = _ → _))
  | .request _ (.setup _ _) => inferInstanceAs (Decidable (ite _ (_ = _ → _) (_ → _ → _)))
  | .request _ .record => isTrue trivial
  | .request _ .flush => isTrue trivial
  | .request _ (.teardown _) => isTrue trivial
  | .accept => isTrue trivial
  | .act _ => isTrue trivial
  | .leave _ => isTrue trivial
  | .cancelled _ => isTrue trivial
  | .watchdog _ => isTrue trivial
  | .reap _ => isTrue trivial

/-! ## The handlers -/

section Handlers

variable {cfg : Config} {c : ConnId} {v : View}

theorem keepsPlayer_of_stopped {own : OwnFields} {hasPlayer : Bool}
    (h : own.playerThread = false) : KeepsPlayer v ⟨own, hasPlayer⟩ :=
  fun _ hplays => absurd (h.symm.trans hplays) Bool.false_ne_true

theorem keepsPlayer_of_hasPlayer {own : OwnFields} (h : v.hasPlayer = true) :
    KeepsPlayer v ⟨own, v.hasPlayer⟩ :=
  fun _ _ => h

theorem keepsPlayer_of_eq {own : OwnFields} (h : own.playerThread = v.own.playerThread) :
    KeepsPlayer v ⟨own, v.hasPlayer⟩ :=
  fun hv hplays => hv (h.symm.trans hplays)

theorem keepsPlayer_of_gain {v w w' : View} (hw : w.own = v.own) (hw' : w'.own = v.own)
    (hgain : w.hasPlayer = true → w'.hasPlayer = true) : KeepsPlayer w w' := by
  intro hplays hrun
  rw [hw', ← hw] at hrun
  exact hgain (hplays hrun)

theorem does_getPlayLock (allow : Bool) :
    Does KeepsPlayer c (getPlayLock (some c) allow) v fun _ w => w.own = v.own :=
  (does_of_gains (keeps_getPlayLock c allow) fun _ _ => keepsPlayer_of_gain).mono
    fun _ _ hw => hw.1

theorem does_cancelAllRTSPThreads (streamCategory : StreamCategory) :
    Does KeepsPlayer c (cancelAllRTSPThreads streamCategory c) v fun _ _ => True :=
  (does_of_gains (keeps_cancelAllRTSPThreads streamCategory c) fun _ _ =>
    keepsPlayer_of_gain).mono fun _ _ _ => trivial

theorem does_handleAnnounce {content : AnnounceContent}
    (hcontent : v.own.playerThread = true → content.acceptable = true) :
    Does KeepsPlayer c (handleAnnounce cfg c content) v fun _ _ => True := by
  refine (does_getPlayLock _).bind fun status w hw => ?_
  unfold answerAnnounce
  split_ifs
  · have hannounced := announced_announce cfg content w.own
    refine (does_updateOwn (keepsPlayer_of_eq hannounced.playerThread)).bind fun respcode w' => ?_
    rintro ⟨rfl, rfl⟩
    split_ifs with hfailed
    · have hstopped : (announce cfg content w.own).2.playerThread = false := by
        refine Bool.eq_false_iff.mpr fun hplays => hfailed.1 ?_
        rw [hannounced.playerThread, hw] at hplays
        rw [hannounced.respcode, if_pos (hcontent hplays)]
      exact (does_releasePlayLock (keepsPlayer_of_stopped hstopped)).bind
        fun _ _ _ => does_pure trivial
    · exact does_pure trivial
  · exact does_pure trivial

theorem does_handleSetup {headers : SetupHeaders}
    (hheaders : v.own.playerThread = true → headers.acceptable = true) :
    Does KeepsPlayer c (handleSetup c headers) v fun _ _ => True := by
  refine (does_havePlayLock (keepsPlayer_refl v)).bind fun havePlayLock w => ?_
  rintro ⟨rfl, rfl⟩
  split_ifs with hhas hacceptable
  · exact does_pure trivial
  · have hstopped : w.own.playerThread = false :=
      Bool.eq_false_iff.mpr fun hplays => hacceptable (hheaders hplays)
    exact (does_releasePlayLock (keepsPlayer_of_stopped hstopped)).bind
      fun _ _ _ => does_pure trivial
  · exact does_pure trivial

theorem does_handleRecord : Does KeepsPlayer c (handleRecord c) v fun _ _ => True := by
  refine (does_havePlayLock (keepsPlayer_refl v)).bind fun havePlayLock w => ?_
  rintro ⟨rfl, rfl⟩
  split_ifs with hhas
  · exact (does_modifyOwn (keepsPlayer_of_hasPlayer hhas)).bind
      fun _ _ _ => does_pure trivial
  · exact does_pure trivial

theorem does_handleFlush : Does KeepsPlayer c (handleFlush c) v fun _ _ => True := by
  refine (does_havePlayLock (keepsPlayer_refl v)).bind fun havePlayLock w _ => ?_
  split_ifs <;> exact does_pure trivial

theorem does_teardown :
    Does KeepsPlayer c (teardown c) v fun _ w => w.own.playerThread = false :=
  (does_modifyOwn (keepsPlayer_of_stopped rfl)).mono
    fun _ _ hw => congrArg (fun w => w.own.playerThread) hw

theorem does_releaseStopped (hstopped : v.own.playerThread = false) :
    Does KeepsPlayer c (releasePlayLock c) v fun _ _ => True :=
  (does_releasePlayLock (keepsPlayer_of_stopped hstopped)).mono
    fun _ _ _ => trivial

theorem does_handleTeardown : Does KeepsPlayer c (handleTeardown c) v fun _ _ => True := by
  refine (does_havePlayLock (keepsPlayer_refl v)).bind fun havePlayLock w => ?_
  rintro ⟨rfl, rfl⟩
  split_ifs
  · exact does_teardown.bind fun _ w hstopped => (does_releaseStopped hstopped).bind
      fun _ _ _ => does_pure trivial
  · exact does_pure trivial

theorem does_setCategory (category : StreamCategory) :
    Does KeepsPlayer c (modifyOwn c (OwnFields.setCategory category)) v fun _ _ => True :=
  (does_modifyOwn (keepsPlayer_of_eq rfl)).mono fun _ _ _ => trivial

theorem does_setupSession (items : SetupItems) :
    Does KeepsPlayer c (setupSession c items) v fun _ _ => True := by
  refine (does_setCategory _).bind fun _ w _ => ?_
  split
  · refine (does_setCategory _).bind fun _ _ _ => (does_getPlayLock true).bind fun _ _ _ => ?_
    split_ifs
    · exact (does_cancelAllRTSPThreads _).bind fun _ _ _ => does_pure trivial
    · exact does_pure trivial
  · exact (does_setCategory _).bind fun _ _ _ => does_pure trivial
  · exact (does_setCategory _).bind fun _ _ _ => (does_cancelAllRTSPThreads _).bind
      fun _ _ _ => does_pure trivial
  · exact does_pure trivial
  · exact does_pure trivial
  · exact does_pure trivial

/-- The SETUP of a stream starts the player without a look at the play lock. -/
theorem does_setupStream {type : ℕ}
    (hhas : type = 96 ∨ type = 103 → v.own.airplayStreamCategory = .ptpStream →
      v.hasPlayer = true) :
    Does KeepsPlayer c (setupStream c type) v fun _ _ => True := by
  refine (does_readOwn (keepsPlayer_refl v)).bind fun category w => ?_
  rintro ⟨rfl, rfl⟩
  split_ifs with hptp hrealtime hbuffered
  · have hplayer := hhas (Or.inl hrealtime) hptp
    exact (does_modifyOwn (keepsPlayer_of_hasPlayer hplayer)).bind
      fun _ _ _ => does_pure trivial
  · have hplayer := hhas (Or.inr hbuffered) hptp
    exact (does_modifyOwn (keepsPlayer_of_hasPlayer hplayer)).bind
      fun _ _ _ => does_pure trivial
  · exact does_pure trivial
  · exact does_pure trivial
  · exact does_pure trivial

theorem does_teardownPhaseOne :
    Does KeepsPlayer c (teardownPhaseOne c) v fun _ w => w.own.playerThread = false := by
  have hstopped :
      (if v.own.playerThread then v.own.playerStop else v.own).playerThread = false := by
    split_ifs with hplays
    · rfl
    · exact Bool.eq_false_iff.mpr hplays
  have hdoes : Does KeepsPlayer c (teardownPhaseOne c) v _ := does_modifyOwn
    (f := fun own => if own.playerThread then own.playerStop else own)
    (keepsPlayer_of_stopped hstopped)
  refine hdoes.mono ?_
  rintro _ _ rfl
  exact hstopped

theorem does_teardownPhaseTwo (hstopped : v.own.playerThread = false) :
    Does KeepsPlayer c (teardownPhaseTwo c) v fun _ _ => True := by
  refine (does_readOwn (keepsPlayer_refl v)).bind fun category w => ?_
  rintro ⟨rfl, rfl⟩
  split_ifs
  · exact does_releaseStopped hstopped
  · exact does_pure trivial

theorem does_handleTeardown2 (items : Option Bool) :
    Does KeepsPlayer c (handleTeardown2 c items) v fun _ _ => True := by
  rcases items with _ | _ | _
  · exact does_pure trivial
  · exact does_teardownPhaseOne.bind fun _ _ hstopped => (does_teardownPhaseTwo hstopped).bind
      fun _ _ _ => does_pure trivial
  · exact does_teardownPhaseOne.bind fun _ _ _ => does_pure trivial

theorem does_handleRequest {threads : Threads} {req : Request}
    (h : KeepsHolder cfg threads (.request c req)) :
    Does KeepsPlayer c (handleRequest cfg c req) (threads.shared.view c) fun _ _ => True := by
  refine (does_readOwn (keepsPlayer_refl _)).bind fun classic w => ?_
  rintro ⟨rfl, rfl⟩
  refine Does.bind (Q := fun _ _ => True) ?_ fun _ _ _ => does_pure trivial
  cases req with
  | announce content => exact does_handleAnnounce h
  | setup headers items =>
      dsimp only [selectHandler, KeepsHolder, Shared.view] at h ⊢
      split_ifs at h ⊢ with hclassic
      · exact does_handleSetup h
      · unfold handleSetup2
        split
        · exact does_setupSession items
        · rename_i type hstreams
          refine does_setupStream fun htype hptp => decide_eq_true (h ?_ hptp)
          rwa [hstreams, Option.some_inj, Option.some_inj]
  | record =>
      dsimp only [selectHandler]
      split_ifs
      · exact does_handleRecord
      · exact does_pure trivial
  | flush => exact does_handleFlush
  | teardown items =>
      dsimp only [selectHandler]
      split_ifs
      · exact does_handleTeardown
      · exact does_handleTeardown2 items

theorem does_conversationCleanup :
    Does KeepsPlayer c (conversationCleanup cfg c) v fun _ _ => True := by
  have hplayer : Does KeepsPlayer c (cleanupPlayer cfg c) v fun _ _ => True := by
    unfold cleanupPlayer
    split_ifs
    · exact does_teardownPhaseOne.bind fun _ _ hstopped => does_teardownPhaseTwo hstopped
    · refine (does_havePlayLock (keepsPlayer_refl v)).bind fun havePlayLock w _ => ?_
      split_ifs
      · exact does_teardown.bind fun _ w hstopped => does_releaseStopped hstopped
      · exact does_pure trivial
  refine hplayer.bind fun _ w _ => (does_stopRunning (keepsPlayer_refl w)).bind fun _ _ _ => ?_
  exact (does_modifyOwn (keepsPlayer_of_eq rfl)).mono fun _ _ _ => trivial

end Handlers

/-! ## Runs -/

/-- Every connection whose player thread runs is `playing_conn`, so there is at most one. -/
structure ExclusivePlayer (threads : Threads) : Prop where
  holder : ∀ c, (threads.shared.conns c).own.playerThread = true →
    threads.shared.playingConn = some c
  unique : ∀ c d, (threads.shared.conns c).own.playerThread = true →
    (threads.shared.conns d).own.playerThread = true → c = d

theorem exclusivePlayer_of_holder {threads : Threads}
    (h : ∀ c, PlaysOnlyAsHolder (threads.shared.view c)) : ExclusivePlayer threads := by
  have hholder : ∀ c, (threads.shared.conns c).own.playerThread = true →
      threads.shared.playingConn = some c :=
    fun c hplays => of_decide_eq_true (h c hplays)
  exact ⟨hholder, fun c d hc hd => Option.some.inj ((hholder c hc).symm.trans (hholder d hd))⟩

theorem preserved_playsOnlyAsHolder (cfg : Config) :
    Preserved cfg KeepsPlayer fun c s => PlaysOnlyAsHolder (s.view c) where
  own := fun _ _ _ hG hs => hG.2 hs
  others := fun _ _ _ hst hs => hst.rely.symm ▸ hs
  accept := by
    intro s hplays
    rw [Shared.view, accept_conns_self] at hplays
    exact absurd hplays Bool.false_ne_true
  startLeaving := by
    intro c s _ hs
    rw [view_startLeaving]
    exact hs

/-- In every run of any number of connections, in which no ANNOUNCE or SETUP that fails is sent
to a classic session that plays and no stream is set up on a PTP session without the player,
a player thread runs only for `playing_conn`. -/
theorem exclusive_player (cfg : Config) (ls : List Label)
    (h : Along (step cfg) (KeepsHolder cfg) (start cfg) ls) :
    Throughout (step cfg) ExclusivePlayer (start cfg) ls := by
  have hsafe : Throughout (step cfg)
      (Safe KeepsPlayer fun c s => PlaysOnlyAsHolder (s.view c)) (start cfg) ls := by
    refine throughout_of_step (fun threads l threads' hsafe hkeeps hstep => ?_)
      (safe_start fun c hplays => absurd hplays Bool.false_ne_true) h
    refine hsafe.step (preserved_playsOnlyAsHolder cfg) ?_
      (fun c _ _ => does_conversationCleanup) hstep
    rintro c req rfl -
    exact does_handleRequest hkeeps
  exact hsafe.mono fun threads hthreads => exclusivePlayer_of_holder hthreads.holds

theorem exclusive_player_of_two_sessions :
    Throughout (step ⟨false, true⟩) ExclusivePlayer (start ⟨false, true⟩)
      ([.accept] ++ startPlaying 1 ++ [.accept, .request 2 (.announce .plain)] ++
        List.replicate 3 (.act 2)) :=
  exclusive_player _ _ (by decide +kernel)

/-- A second ANNOUNCE of a connection that plays, with no format: `playing_conn` is given back,
and the player goes on. -/
theorem player_without_holder_after_announce :
    ¬ ∀ (cfg : Config) (ls : List Label),
      Throughout (step cfg) ExclusivePlayer (start cfg) ls := by
  intro h
  have hrun : (run (step ⟨false, true⟩) (start ⟨false, true⟩)
      ([.accept] ++ startPlaying 1 ++
        [.request 1 (.announce { AnnounceContent.plain with uncompressedCDAudio := false })] ++
        List.replicate 4 (.act 1))).map
          (fun threads => ((threads.shared.conns 1).own.playerThread,
            threads.shared.playingConn)) = some (true, none) := by
    decide +kernel
  obtain ⟨threads, hrun, hthreads⟩ := Option.map_eq_some_iff.mp hrun
  obtain ⟨hplays, hplaying⟩ := Prod.mk.inj hthreads
  have hholder := ((h ⟨false, true⟩ _).last hrun).holder 1 hplays
  rw [hplaying] at hholder
  exact absurd hholder.symm (Option.some_ne_none 1)

end Rtsp

end ShairportSync
