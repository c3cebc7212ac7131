import ShairportSync.Rtsp.Sessions

/-!
# The answer of `get_play_lock`

`get_play_lock` looks at `playing_conn`, and if it is to wait, it looks again and again
while other threads take and release the player. Its response should say whether the
connection has the player when it last looked. It does, unless the player is with another
connection that is not stopping and may not be interrupted: then the response stays 0.
-/

namespace ShairportSync

namespace Rtsp

open Concurrency Concurrency.Prog

/-- The player is with another connection that is not stopping, and sessions may not be
interrupted. -/
def Refused (c : ConnId) (allowSessionInterruption : Bool) (s : Shared) : Prop :=
  ∃ d, s.playingConn = some d ∧ d ≠ c ∧ (s.conns d).stop = false ∧
    allowSessionInterruption = false

/-- What a response of `get_play_lock` should say in the state in which it has last looked, and
what ANNOUNCE should then answer and do, whatever other threads do in between. -/
structure TellsTruth (c : ConnId) (status : ℤ) (s : Shared) : Prop where
  success : status = 0 ∨ status = 1 ↔ s.playingConn = some c
  failure : status = -1 ↔ s.playingConn ≠ some c
  configures : ∀ cfg content respcode t,
    Exec (Rely c) (answerAnnounce cfg c content status) s respcode t →
      (t.conns c).own ≠ (s.conns c).own → s.playingConn = some c
  accepts : ∀ cfg content respcode t,
    Exec (Rely c) (answerAnnounce cfg c content status) s respcode t →
      respcode = 200 → t.playingConn = some c
  refuses : ∀ cfg content respcode t,
    Exec (Rely c) (answerAnnounce cfg c content status) s respcode t →
      (respcode = 453 ↔ s.playingConn ≠ some c)

/-! ## What other threads do in between -/

section Interference

variable {cfg : Config} {c d : ConnId} {s t : Shared} {action : Shared → Option Shared}

theorem rely_of_handleRequest (hd : c ≠ d) {req : Request}
    (haction : Occurs action (handleRequest cfg d req)) (hst : action s = some t) : Rely c s t :=
  ((keeps_handleRequest cfg d req).of_occurs haction hst).rely hd

theorem rely_of_conversationCleanup (hd : c ≠ d)
    (haction : Occurs action (conversationCleanup cfg d)) (hst : action s = some t) : Rely c s t :=
  ((keeps_conversationCleanup cfg d).of_occurs haction hst).rely hd

end Interference

/-! ## The response -/

section Answer

variable {cfg : Config} {c : ConnId} {s t : Shared}

/-- While it waits, a connection without the player finds out whether it gets it. -/
theorem assures_waitForPlayer (hs : s.playingConn ≠ some c) (n : ℕ) :
    Assures (Rely c) (fun _ _ => True)
      (fun haveThePlayer t => haveThePlayer = true ↔ t.playingConn = some c)
      (waitForPlayer (some c) n) s := by
  induction n generalizing s with
  | zero =>
      refine assures_pure fun t hst => ⟨fun h => absurd h Bool.false_ne_true, fun h => ?_⟩
      exact absurd (hst.playingConn_iff.mp h) hs
  | succ n ih =>
      refine Assures.bind (rely_refl c) (Q := fun haveThePlayer t =>
        haveThePlayer = true ↔ t.playingConn = some c) ?_ fun haveThePlayer t ht => ?_
      · refine assures_modifyGet fun t hst => ⟨trivial, fun u htu => ?_⟩
        rw [htu.playingConn_iff]
        unfold takeIfFree
        cases hplaying : t.playingConn with
        | none => exact ⟨fun _ => rfl, fun _ => rfl⟩
        | some d =>
            refine ⟨fun h => absurd h Bool.false_ne_true, fun h => ?_⟩
            exact absurd (hst.playingConn_iff.mp h) hs
      · split_ifs with hhave
        · exact assures_pure fun u htu => by
            rw [htu.playingConn_iff]
            exact ⟨fun _ => ht.mp hhave, fun _ => rfl⟩
        · exact ih fun hplaying => hhave (ht.mpr hplaying)

/-- The first look finds the player for the connection, or waits for it, or gives up at once. -/
theorem firstLook_cases (c : ConnId) (allow : Bool) (s : Shared) :
    (¬ Refused c allow s ∧ (firstLook (some c) allow s).1 = ⟨true, false, false⟩ ∧
      (firstLook (some c) allow s).2.playingConn = some c) ∨
    (¬ Refused c allow s ∧
      (∃ interrupting, (firstLook (some c) allow s).1 = ⟨false, true, interrupting⟩) ∧
      (firstLook (some c) allow s).2.playingConn ≠ some c) ∨
    (Refused c allow s ∧ (firstLook (some c) allow s).1 = ⟨false, false, false⟩ ∧
      (firstLook (some c) allow s).2.playingConn ≠ some c) := by
  unfold firstLook
  cases hplaying : s.playingConn with
  | none =>
      refine Or.inl ⟨?_, rfl, rfl⟩
      rintro ⟨d, hd, -⟩
      exact absurd (hplaying.symm.trans hd).symm (Option.some_ne_none d)
  | some playing =>
      dsimp only
      have hrefused : Refused c allow s →
          playing ≠ c ∧ (s.conns playing).stop = false ∧ allow = false := by
        rintro ⟨d, hd, hrest⟩
        obtain rfl := Option.some.inj (hplaying.symm.trans hd)
        exact hrest
      split_ifs with hself hstop hallow
      · refine Or.inl ⟨fun h => (hrefused h).1 (Option.some.inj hself).symm, rfl, ?_⟩
        exact hplaying.trans hself.symm
      · refine Or.inr (Or.inl ⟨fun h => ?_, ⟨_, rfl⟩, fun h => hself (h.symm.trans hplaying)⟩)
        exact Bool.false_ne_true ((hrefused h).2.1.symm.trans hstop)
      · refine Or.inr (Or.inl ⟨fun h => ?_, ⟨_, rfl⟩, fun h => hself (h.symm.trans hplaying)⟩)
        exact Bool.false_ne_true ((hrefused h).2.2.symm.trans hallow)
      · refine Or.inr (Or.inr ⟨⟨playing, hplaying, fun h => hself (congrArg some h.symm), ?_, ?_⟩,
          rfl, fun h => hself (h.symm.trans hplaying)⟩)
        · exact Bool.eq_false_iff.mpr hstop
        · exact Bool.eq_false_iff.mpr hallow

/-- What `get_play_lock` returns, and whether the connection then has the player. -/
theorem getPlayLock_exec {allow : Bool} {status : ℤ}
    (h : Exec (Rely c) (getPlayLock (some c) allow) s status t) :
    (Refused c allow s ∧ status = 0 ∧ t.playingConn ≠ some c) ∨
      (¬ Refused c allow s ∧
        (((status = 0 ∨ status = 1) ∧ t.playingConn = some c) ∨
          (status = -1 ∧ t.playingConn ≠ some c))) := by
  obtain ⟨u, hu, h⟩ := exec_modifyGet_bind h
  rcases firstLook_cases c allow s with ⟨hrefused, hlook, hplaying⟩ |
    ⟨hrefused, ⟨interrupting, hlook⟩, hplaying⟩ | ⟨hrefused, hlook, hplaying⟩
  · rw [hlook] at h
    obtain ⟨rfl, rfl⟩ := exec_pure h
    exact Or.inr ⟨hrefused, Or.inl ⟨Or.inl rfl, hu.playingConn_iff.mpr hplaying⟩⟩
  · rw [hlook] at h
    refine Or.inr ⟨hrefused, ?_⟩
    have hwait : Assures (Rely c) (fun _ _ => True) (fun (status : ℤ) t =>
        ((status = 0 ∨ status = 1) ∧ t.playingConn = some c) ∨
          (status = -1 ∧ t.playingConn ≠ some c))
        (waitForPlayer (some c) waitPolls >>= fun haveThePlayer =>
          pure (playLockResponse ⟨false, true, interrupting⟩ haveThePlayer)) u := by
      have hu' : u.playingConn ≠ some c := fun h => hplaying (hu.playingConn_iff.mp h)
      refine (assures_waitForPlayer hu' waitPolls).bind (rely_refl c) fun haveThePlayer t ht => ?_
      refine assures_pure fun w htw => ?_
      cases haveThePlayer with
      | false =>
          exact Or.inr ⟨by cases interrupting <;> rfl,
            fun h => nomatch ht.mpr (htw.playingConn_iff.mp h)⟩
      | true =>
          exact Or.inl ⟨by cases interrupting <;> decide, htw.playingConn_iff.mpr (ht.mp rfl)⟩
    exact hwait.exec (rely_refl c) (rely_trans c) h
  · rw [hlook] at h
    obtain ⟨rfl, rfl⟩ := exec_pure h
    exact Or.inl ⟨hrefused, rfl, fun h => hplaying (hu.playingConn_iff.mp h)⟩

theorem answerAnnounce_exec {content : AnnounceContent} {status : ℤ} {respcode : ℕ}
    (hstatus : status ≠ -1) (h : Exec (Rely c) (answerAnnounce cfg c content status) s respcode t) :
    respcode ≠ 453 ∧ (respcode = 200 → s.playingConn = some c → t.playingConn = some c) := by
  unfold answerAnnounce at h
  rw [if_pos hstatus] at h
  obtain ⟨u, hu, h⟩ := exec_modifyGet_bind h
  have hrespcode := (announced_announce cfg content (s.conns c).own).respcode
  dsimp only at h
  rw [hrespcode] at h
  cases hacceptable : content.acceptable with
  | false =>
      rw [hacceptable] at h
      obtain ⟨w, -, h⟩ := exec_modifyGet_bind h
      obtain ⟨rfl, -⟩ := exec_pure h
      exact ⟨by decide, fun h => absurd h (by decide)⟩
  | true =>
      rw [hacceptable] at h
      obtain ⟨rfl, rfl⟩ := exec_pure h
      exact ⟨by decide, fun _ hplaying => hu.playingConn_iff.mpr hplaying⟩

theorem answerAnnounce_exec_refused {content : AnnounceContent} {respcode : ℕ}
    (h : Exec (Rely c) (answerAnnounce cfg c content (-1)) s respcode t) :
    respcode = 453 ∧ t = s :=
  exec_pure h

/-- `get_play_lock` tells the truth, and ANNOUNCE follows it, exactly if the player was not with
a connection that is not stopping and may not be interrupted. -/
theorem getPlayLock_tellsTruth_iff (c : ConnId) (allow : Bool) (s t : Shared) (status : ℤ)
    (h : Exec (Rely c) (getPlayLock (some c) allow) s status t) :
    TellsTruth c status t ↔ ¬ Refused c allow s := by
  rcases getPlayLock_exec h with ⟨hrefused, rfl, hplaying⟩ |
    ⟨hrefused, ⟨hstatus, hplaying⟩ | ⟨rfl, hplaying⟩⟩
  · exact iff_of_false (fun htruth => hplaying (htruth.success.mp (Or.inl rfl)))
      (not_not.mpr hrefused)
  · have hgoes : status ≠ -1 := by
      rcases hstatus with rfl | rfl
      · decide
      · decide
    refine iff_of_true ?_ hrefused
    exact
      { success := iff_of_true hstatus hplaying
        failure := iff_of_false hgoes (not_not.mpr hplaying)
        configures := fun _ _ _ _ _ _ => hplaying
        accepts := fun _ _ _ _ h hrespcode => (answerAnnounce_exec hgoes h).2 hrespcode hplaying
        refuses := fun _ _ _ _ h =>
          iff_of_false (answerAnnounce_exec hgoes h).1 (not_not.mpr hplaying) }
  · refine iff_of_true ?_ hrefused
    exact
      { success := iff_of_false (by decide) hplaying
        failure := iff_of_true rfl hplaying
        configures := fun _ _ _ _ h hown =>
          absurd (congrArg (fun s => (s.conns c).own) (answerAnnounce_exec_refused h).2) hown
        accepts := fun _ _ _ _ h hrespcode =>
          absurd ((answerAnnounce_exec_refused h).1.symm.trans hrespcode) (by decide)
        refuses := fun _ _ _ _ h => iff_of_true (answerAnnounce_exec_refused h).1 hplaying }

end Answer

/-- The state in which nothing has happened but that a connection has the player. -/
def heldBy (d : ConnId) : Shared := { (start ⟨false, false⟩).shared with playingConn := some d }

/-- An interrupted session lets the player go, and the connection that waits takes it. -/
theorem getPlayLock_tellsTruth_after_interruption :
    TellsTruth 2 1 { (heldBy 1).askToStop 1 with playingConn := some 2 } := by
  have hleaves : Rely 2 ((heldBy 1).askToStop 1)
      { (heldBy 1).askToStop 1 with playingConn := none } := by
    rfl
  refine (getPlayLock_tellsTruth_iff 2 true (heldBy 1) _ 1
    (.atomic rfl hleaves (.atomic rfl (rely_refl 2 _) (.done 1 _)))).mpr ?_
  rintro ⟨d, -, -, -, hallow⟩
  exact Bool.false_ne_true hallow.symm

/-- The player is with another session, which may not be interrupted: the response is 0. -/
theorem getPlayLock_zero_without_player :
    ¬ ∀ (c : ConnId) (allow : Bool) (s t : Shared) (status : ℤ),
      Exec (Rely c) (getPlayLock (some c) allow) s status t → TellsTruth c status t := by
  intro h
  have htruth := h 2 false (heldBy 1) (heldBy 1) 0 (.atomic rfl (rely_refl 2 _) (.done 0 _))
  exact absurd (htruth.success.mp (Or.inl rfl)) (by decide)

end Rtsp

end ShairportSync
