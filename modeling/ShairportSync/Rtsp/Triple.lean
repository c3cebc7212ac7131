import ShairportSync.Rtsp.Handlers

/-!
# Triples over the view of a connection

Other threads leave the view of a connection, so its own thread can be reasoned about as
if it ran alone, as long as only the view is talked about. `Does G c p v Q` says of a
program `p` of the connection `c` that, started with the view `v` under any
interference, each of its actions changes the view as `G` allows, and that it returns
with a value and a view that meet `Q`.
-/

namespace ShairportSync

namespace Rtsp

open Concurrency Concurrency.Prog

/-- What an action of a connection guarantees: it leaves the other connections, and changes the
connection's own view as it may. -/
def Guarantee (G : View → View → Prop) (c : ConnId) (s t : Shared) : Prop :=
  Frame c s t ∧ G (s.view c) (t.view c)

def Does {α : Type} (G : View → View → Prop) (c : ConnId) (p : Prog Shared α) (v : View)
    (Q : α → View → Prop) : Prop :=
  ∀ s : Shared, s.view c = v →
    Assures (Rely c) (fun s t => G (s.view c) (t.view c)) (fun a t => Q a (t.view c)) p s

section Rules

variable {G : View → View → Prop} {c : ConnId} {v : View} {α β : Type}

theorem does_pure {Q : α → View → Prop} {a : α} (h : Q a v) : Does G c (pure a) v Q := by
  rintro s rfl
  refine assures_pure fun t hst => ?_
  rw [hst]
  exact h

theorem Does.bind {p : Prog Shared α} {f : α → Prog Shared β} {Q : α → View → Prop}
    {Q' : β → View → Prop} (hp : Does G c p v Q)
    (hf : ∀ a w, Q a w → Does G c (f a) w Q') : Does G c (p >>= f) v Q' :=
  fun s hs => (hp s hs).bind (rely_refl c) fun a t hQ => hf a _ hQ t rfl

theorem Does.mono {p : Prog Shared α} {Q Q' : α → View → Prop} (h : ∀ a w, Q a w → Q' a w)
    (hp : Does G c p v Q) : Does G c p v Q' :=
  fun s hs => (hp s hs).mono fun a _ => h a _

theorem does_modifyGet {f : Shared → α × Shared} {Q : α → View → Prop}
    (h : ∀ s : Shared, s.view c = v → G v ((f s).2.view c) ∧ Q (f s).1 ((f s).2.view c)) :
    Does G c (modifyGet f) v Q := by
  rintro s rfl
  refine assures_modifyGet fun t hst => ?_
  obtain ⟨hG, hQ⟩ := h t hst
  refine ⟨?_, fun u htu => ?_⟩
  · rw [hst]
    exact hG
  · rw [htu]
    exact hQ

theorem does_updateOwn {f : OwnFields → α × OwnFields} (h : G v ⟨(f v.own).2, v.hasPlayer⟩) :
    Does G c (updateOwn c f) v fun a w => a = (f v.own).1 ∧ w = ⟨(f v.own).2, v.hasPlayer⟩ := by
  refine does_modifyGet ?_
  rintro s rfl
  rw [view_setOwn_self]
  exact ⟨h, rfl, rfl⟩

theorem does_modifyOwn {f : OwnFields → OwnFields} (h : G v ⟨f v.own, v.hasPlayer⟩) :
    Does G c (modifyOwn c f) v fun _ w => w = ⟨f v.own, v.hasPlayer⟩ :=
  (does_updateOwn h).mono fun _ _ hw => hw.2

theorem does_readOwn {f : OwnFields → α} (h : G v v) :
    Does G c (readOwn c f) v fun a w => a = f v.own ∧ w = v := by
  refine does_modifyGet ?_
  rintro s rfl
  exact ⟨h, rfl, rfl⟩

theorem does_havePlayLock (h : G v v) :
    Does G c (havePlayLock c) v fun a w => a = v.hasPlayer ∧ w = v := by
  refine does_modifyGet ?_
  rintro s rfl
  exact ⟨h, rfl, rfl⟩

theorem does_releasePlayLock (h : G v ⟨v.own, false⟩) :
    Does G c (releasePlayLock c) v fun _ w => w = ⟨v.own, false⟩ := by
  refine does_modifyGet ?_
  rintro s rfl
  have hview : (if s.playingConn = some c then { s with playingConn := none } else s).view c =
      ⟨(s.view c).own, false⟩ := by
    split_ifs with hhas
    · rfl
    · unfold Shared.view
      rw [decide_eq_false hhas]
  dsimp only
  rw [hview]
  exact ⟨h, rfl⟩

theorem does_stopRunning (h : G v v) :
    Does G c (modify fun s => s.stopRunning c) v fun _ w => w = v := by
  refine does_modifyGet ?_
  rintro s rfl
  have hview : (s.stopRunning c).view c = s.view c := view_setConn s c c rfl
  dsimp only
  rw [hview]
  exact ⟨h, rfl⟩

/-- A program whose actions are known to keep a condition on the view. -/
theorem does_of_keeps {P : Shared → Shared → Prop} {p : Prog Shared α} (hp : Keeps P p)
    {I : View → Prop} (hI : ∀ s t, P s t → I (s.view c) → I (t.view c)) (hv : I v)
    (hG : ∀ s t, P s t → I (s.view c) → G (s.view c) (t.view c)) :
    Does G c p v fun _ w => I w := by
  rintro s rfl
  have hassures := hp.assures (R := Rely c) (I := fun s => I (s.view c))
    (fun s t hst hs => by rwa [hst]) hI hv
  exact hassures.weaken fun s t hst => hG s t hst.1 hst.2

/-- A program that at most takes the player. -/
theorem does_of_gains {p : Prog Shared α} (hp : Keeps (Gains c) p)
    (hG : ∀ w w' : View, w.own = v.own → w'.own = v.own →
      (w.hasPlayer = true → w'.hasPlayer = true) → G w w') :
    Does G c p v fun _ w => w.own = v.own ∧ (v.hasPlayer = true → w.hasPlayer = true) := by
  have hkeeps : ∀ s t, Gains c s t → (s.view c).hasPlayer = true → (t.view c).hasPlayer = true :=
    fun s t hst hs => decide_eq_true (hst.keepsPlayer (of_decide_eq_true hs))
  refine does_of_keeps hp (fun s t hst hs => ?_) ⟨rfl, id⟩ fun s t hst hs => ?_
  · exact ⟨hst.own.trans hs.1, fun hv => hkeeps s t hst (hs.2 hv)⟩
  · exact hG _ _ hs.1 (hst.own.trans hs.1) (hkeeps s t hst)

/-- What a program does in a view it assures under the guarantee of its connection. -/
theorem Does.assures {p : Prog Shared α} {Q : α → View → Prop} {s : Shared}
    (hp : Does G c p (s.view c) Q) (hkeeps : Keeps (Frame c) p) :
    Assures (Rely c) (Guarantee G c) (fun a t => Q a (t.view c)) p s :=
  (hp s rfl).and_keeps hkeeps

end Rules

end Rtsp

end ShairportSync
