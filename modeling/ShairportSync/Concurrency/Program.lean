import Mathlib.Data.Nat.Notation
import Mathlib.Logic.Function.Basic

/-!
# Programs over a shared state

A program is a tree of atomic actions on a state that it shares with others. An action
may be blocked, and what comes after it depends on the state it found.

`Assures R G Q p s` is the judgement of rely and guarantee: started in `s`, if what the
others do between two actions of `p` is covered by the rely `R`, then every action of
`p` is covered by the guarantee `G`, and `Q` holds when it returns. `Keeps G p` is the
part of it that needs no reasoning about states: every action of `p` is covered by `G`
wherever it is taken. `Exec R p s a t` is one execution of `p` under interference `R`.
-/

namespace Concurrency

variable {σ α β : Type}

inductive Prog (σ α : Type) where
  | done (a : α)
  | atomic (act : σ → Option σ) (next : σ → Prog σ α)

namespace Prog

protected def bind : Prog σ α → (α → Prog σ β) → Prog σ β
  | done a, f => f a
  | atomic act next, f => atomic act fun s => (next s).bind f

instance : Monad (Prog σ) where
  pure := Prog.done
  bind := Prog.bind

/-- An action that never blocks and returns a value. -/
def modifyGet (f : σ → α × σ) : Prog σ α :=
  atomic (fun s => some (f s).2) fun s => done (f s).1

def modify (f : σ → σ) : Prog σ Unit := modifyGet fun s => ((), f s)

def read (f : σ → α) : Prog σ α := modifyGet fun s => (f s, s)

/-- An action that is blocked until a condition holds. -/
def await (ready : σ → Bool) (f : σ → σ) : Prog σ Unit :=
  atomic (fun s => if ready s then some (f s) else none) fun _ => done ()

def forBelow (body : ℕ → Prog σ Unit) : ℕ → Prog σ Unit
  | 0 => pure ()
  | n + 1 => do
      forBelow body n
      body n

def Occurs (act : σ → Option σ) : Prog σ α → Prop
  | done _ => False
  | atomic act' next => act = act' ∨ ∃ s, Occurs act (next s)

end Prog

open Prog

/-! ## Guarantees of the actions -/

section Keeps

variable {G : σ → σ → Prop}

def Keeps (G : σ → σ → Prop) : Prog σ α → Prop
  | .done _ => True
  | .atomic act next => (∀ s t, act s = some t → G s t) ∧ ∀ s, Keeps G (next s)

theorem Keeps.mono {G' : σ → σ → Prop} (hG : ∀ s t, G s t → G' s t) {p : Prog σ α}
    (hp : Keeps G p) : Keeps G' p := by
  induction p with
  | done a => exact trivial
  | atomic act next ih => exact ⟨fun s t ht => hG s t (hp.1 s t ht), fun s => ih s (hp.2 s)⟩

theorem keeps_pure (a : α) : Keeps G (pure a : Prog σ α) := trivial

theorem Keeps.bind {p : Prog σ α} {f : α → Prog σ β} (hp : Keeps G p)
    (hf : ∀ a, Keeps G (f a)) : Keeps G (p >>= f) := by
  induction p with
  | done a => exact hf a
  | atomic act next ih => exact ⟨hp.1, fun s => ih s (hp.2 s)⟩

theorem keeps_modifyGet {f : σ → α × σ} (h : ∀ s, G s (f s).2) : Keeps G (modifyGet f) :=
  ⟨fun s _ ht => Option.some.inj ht ▸ h s, fun _ => trivial⟩

theorem keeps_modify {f : σ → σ} (h : ∀ s, G s (f s)) : Keeps G (modify f) :=
  keeps_modifyGet h

theorem keeps_read (hG : ∀ s, G s s) (f : σ → α) : Keeps G (read f) :=
  keeps_modifyGet hG

theorem keeps_await {ready : σ → Bool} {f : σ → σ} (h : ∀ s, ready s = true → G s (f s)) :
    Keeps G (await ready f) := by
  refine ⟨fun s t ht => ?_, fun _ => trivial⟩
  dsimp only at ht
  split at ht
  · rename_i hready
    exact Option.some.inj ht ▸ h s hready
  · exact absurd ht.symm (Option.some_ne_none t)

theorem keeps_forBelow {body : ℕ → Prog σ Unit} (h : ∀ n, Keeps G (body n)) (n : ℕ) :
    Keeps G (forBelow body n) := by
  induction n with
  | zero => exact trivial
  | succ n ih => exact ih.bind fun _ => h n

theorem Keeps.of_occurs {act : σ → Option σ} {p : Prog σ α} (hp : Keeps G p)
    (hact : Occurs act p) {s t : σ} (hst : act s = some t) : G s t := by
  induction p with
  | done a => exact hact.elim
  | atomic act' next ih =>
      rcases hact with rfl | ⟨u, hu⟩
      · exact hp.1 s t hst
      · exact ih u (hp.2 u) hu

end Keeps

/-! ## Rely and guarantee -/

section Assures

variable {R G G' : σ → σ → Prop} {Q : α → σ → Prop} {Q' : β → σ → Prop} {s t : σ}

def Assures (R G : σ → σ → Prop) (Q : α → σ → Prop) : Prog σ α → σ → Prop
  | .done a, s => ∀ t, R s t → Q a t
  | .atomic act next, s =>
      ∀ t, R s t → ∀ u, act t = some u → G t u ∧ Assures R G Q (next t) u

theorem assures_pure {a : α} (h : ∀ t, R s t → Q a t) :
    Assures R G Q (pure a : Prog σ α) s := h

theorem Assures.bind (hrefl : ∀ s, R s s) {p : Prog σ α} {f : α → Prog σ β}
    (hp : Assures R G Q p s) (hf : ∀ a t, Q a t → Assures R G Q' (f a) t) :
    Assures R G Q' (p >>= f) s := by
  induction p generalizing s with
  | done a => exact hf a s (hp s (hrefl s))
  | atomic act next ih =>
      intro t hst u hu
      obtain ⟨hG, hnext⟩ := hp t hst u hu
      exact ⟨hG, ih t hnext⟩

theorem Assures.rely (htrans : ∀ s t u, R s t → R t u → R s u) {p : Prog σ α}
    (hp : Assures R G Q p s) (hst : R s t) : Assures R G Q p t := by
  cases p with
  | done a => exact fun u hu => hp u (htrans s t u hst hu)
  | atomic act next => exact fun u hu => hp u (htrans s t u hst hu)

theorem Assures.mono {Q' : α → σ → Prop} (hQ : ∀ a s, Q a s → Q' a s) {p : Prog σ α}
    (hp : Assures R G Q p s) : Assures R G Q' p s := by
  induction p generalizing s with
  | done a => exact fun t ht => hQ a t (hp t ht)
  | atomic act next ih =>
      intro t hst u hu
      exact ⟨(hp t hst u hu).1, ih t (hp t hst u hu).2⟩

theorem Assures.weaken (hG : ∀ s t, G s t → G' s t) {p : Prog σ α}
    (hp : Assures R G Q p s) : Assures R G' Q p s := by
  induction p generalizing s with
  | done a => exact hp
  | atomic act next ih =>
      intro t hst u hu
      exact ⟨hG t u (hp t hst u hu).1, ih t (hp t hst u hu).2⟩

theorem Assures.and_keeps {p : Prog σ α} (hp : Assures R G Q p s) (hkeeps : Keeps G' p) :
    Assures R (fun s t => G' s t ∧ G s t) Q p s := by
  induction p generalizing s with
  | done a => exact hp
  | atomic act next ih =>
      intro t hst u hu
      obtain ⟨hG, hnext⟩ := hp t hst u hu
      exact ⟨⟨hkeeps.1 t u hu, hG⟩, ih t hnext (hkeeps.2 t)⟩

theorem assures_modifyGet {f : σ → α × σ}
    (h : ∀ t, R s t → G t (f t).2 ∧ ∀ u, R (f t).2 u → Q (f t).1 u) :
    Assures R G Q (modifyGet f) s := by
  intro t hst u hu
  obtain rfl := Option.some.inj hu
  exact h t hst

/-- A program whose actions are all covered assures any condition that they and the others
preserve; it holds before each action as well. -/
theorem Keeps.assures {I : σ → Prop} (hR : ∀ s t, R s t → I s → I t)
    (hG : ∀ s t, G s t → I s → I t) {p : Prog σ α} (hp : Keeps G p) (hs : I s) :
    Assures R (fun s t => G s t ∧ I s) (fun _ => I) p s := by
  induction p generalizing s with
  | done a => exact fun t hst => hR s t hst hs
  | atomic act next ih =>
      intro t hst u hu
      have ht : I t := hR s t hst hs
      have hGtu := hp.1 t u hu
      exact ⟨⟨hGtu, ht⟩, ih t (hp.2 t) (hG t u hGtu ht)⟩

end Assures

/-! ## Executions under interference -/

inductive Exec (R : σ → σ → Prop) : Prog σ α → σ → α → σ → Prop where
  | done (a : α) (s : σ) : Exec R (.done a) s a s
  | atomic {act : σ → Option σ} {next : σ → Prog σ α} {s t u v : σ} {a : α}
      (hact : act s = some t) (hR : R t u) (hnext : Exec R (next s) u a v) :
      Exec R (.atomic act next) s a v

theorem Assures.exec {R G : σ → σ → Prop} {Q : α → σ → Prop} (hrefl : ∀ s, R s s)
    (htrans : ∀ s t u, R s t → R t u → R s u) {p : Prog σ α} {s t : σ} {a : α}
    (hp : Assures R G Q p s) (hexec : Exec R p s a t) : Q a t := by
  induction hexec with
  | done a s => exact hp s (hrefl s)
  | @atomic act next s t u v a hact hR hnext ih =>
      exact ih ((hp s (hrefl s) t hact).2.rely htrans hR)

theorem exec_pure {R : σ → σ → Prop} {a b : α} {s t : σ}
    (h : Exec R (pure a : Prog σ α) s b t) : b = a ∧ t = s := by
  cases h with
  | done => exact ⟨rfl, rfl⟩

theorem exec_modifyGet_bind {R : σ → σ → Prop} {f : σ → α × σ} {next : α → Prog σ β} {b : β}
    {s t : σ} (h : Exec R (modifyGet f >>= next) s b t) :
    ∃ u, R (f s).2 u ∧ Exec R (next (f s).1) u b t := by
  cases h with
  | atomic hact hR hnext =>
      obtain rfl := Option.some.inj hact
      exact ⟨_, hR, hnext⟩

/-! ## Pools of threads -/

/-- Threads on one shared state; a thread that has returned does nothing. -/
structure Pool (ι σ : Type) where
  shared : σ
  thread : ι → Prog σ Unit

namespace Pool

variable {ι : Type}

/-- Every thread assures its guarantee under its rely. -/
def Guarded (R G : ι → σ → σ → Prop) (pool : Pool ι σ) : Prop :=
  ∀ i, Assures (R i) (G i) (fun _ _ => True) (pool.thread i) pool.shared

/-- A change of the shared state that every thread relies on. -/
theorem Guarded.interfere {R G : ι → σ → σ → Prop} {pool : Pool ι σ}
    (htrans : ∀ i s t u, R i s t → R i t u → R i s u) (h : pool.Guarded R G) {t : σ}
    (ht : ∀ i, R i pool.shared t) : Guarded R G { pool with shared := t } :=
  fun i => (h i).rely (htrans i) (ht i)

variable [DecidableEq ι]

/-- Thread `i` takes its next action, if it has one that is not blocked. -/
def act (pool : Pool ι σ) (i : ι) : Option (Pool ι σ) :=
  match pool.thread i with
  | .done _ => none
  | .atomic act next =>
      (act pool.shared).map fun t =>
        { shared := t, thread := Function.update pool.thread i (next pool.shared) }

/-- Thread `i` is given a program, and the shared state is changed. -/
def assign (pool : Pool ι σ) (i : ι) (p : Prog σ Unit) (t : σ) : Pool ι σ where
  shared := t
  thread := Function.update pool.thread i p

variable {R G : ι → σ → σ → Prop} {pool pool' : Pool ι σ} {i : ι}

theorem Guarded.assign (htrans : ∀ i s t u, R i s t → R i t u → R i s u)
    (h : pool.Guarded R G) {p : Prog σ Unit} {t : σ}
    (hp : Assures (R i) (G i) (fun _ _ => True) p t) (ht : ∀ j, j ≠ i → R j pool.shared t) :
    Guarded R G (pool.assign i p t) := by
  intro j
  by_cases hj : j = i
  · subst hj
    dsimp only [Pool.assign]
    rw [Function.update_self]
    exact hp
  · dsimp only [Pool.assign]
    rw [Function.update_of_ne hj]
    exact (h j).rely (htrans j) (ht j hj)

/-- An action of one thread is covered by its guarantee, and the others rely on it. -/
theorem Guarded.act (hrefl : ∀ i s, R i s s)
    (htrans : ∀ i s t u, R i s t → R i t u → R i s u)
    (hrely : ∀ i j s t, j ≠ i → G i s t → R j s t) (h : pool.Guarded R G)
    (hact : pool.act i = some pool') :
    G i pool.shared pool'.shared ∧ pool'.Guarded R G := by
  unfold Pool.act at hact
  split at hact
  · exact absurd hact.symm (Option.some_ne_none pool')
  · rename_i act next hthread
    obtain ⟨t, ht, rfl⟩ := Option.map_eq_some_iff.mp hact
    have hi := h i
    rw [hthread] at hi
    obtain ⟨hG, hnext⟩ := hi pool.shared (hrefl i pool.shared) t ht
    exact ⟨hG, h.assign htrans hnext fun j hj => hrely i j _ _ hj hG⟩

end Pool

end Concurrency
