import Mathlib.Data.Option.Basic

/-!
# Runs of a labelled transition system

A system is a partial step function `step : σ → ℓ → Option σ`: `none` says that the
label is not enabled in the state. `run step s ls` takes the labels of `ls` one after
the other. `Along step P s ls` says that every step of that run is taken in a state and
with a label that satisfy `P`, and `Throughout step Q s ls` that every state it passes
through satisfies `Q`; they carry the conditions a run is assumed to meet.
`run_invariant` is the induction every safety proof uses.
-/

namespace Transition

variable {σ ℓ : Type*} {step : σ → ℓ → Option σ}

/-- The state after taking the labels in turn, if each of them is enabled. -/
def run (step : σ → ℓ → Option σ) : σ → List ℓ → Option σ
  | s, [] => some s
  | s, l :: ls => (step s l).bind fun t => run step t ls

/-- Every step of the run from `s` along the labels satisfies `P` where it is taken. -/
def Along (step : σ → ℓ → Option σ) (P : σ → ℓ → Prop) : σ → List ℓ → Prop
  | _, [] => True
  | s, l :: ls => ∀ t, step s l = some t → P s l ∧ Along step P t ls

instance decidableAlong (P : σ → ℓ → Prop) [∀ s l, Decidable (P s l)] :
    ∀ (s : σ) (ls : List ℓ), Decidable (Along step P s ls)
  | _, [] => isTrue trivial
  | s, l :: ls =>
      match h : step s l with
      | none => isTrue (by simp [Along, h])
      | some t =>
          have := decidableAlong P t ls
          decidable_of_iff (P s l ∧ Along step P t ls) (by simp [Along, h])

/-- Every state the run from `s` along the labels passes through satisfies `Q`, the first
and the last one included. -/
def Throughout (step : σ → ℓ → Option σ) (Q : σ → Prop) : σ → List ℓ → Prop
  | s, [] => Q s
  | s, l :: ls => Q s ∧ ∀ t, step s l = some t → Throughout step Q t ls

instance decidableThroughout (Q : σ → Prop) [DecidablePred Q] :
    ∀ (s : σ) (ls : List ℓ), Decidable (Throughout step Q s ls)
  | s, [] => inferInstanceAs (Decidable (Q s))
  | s, l :: ls =>
      match h : step s l with
      | none => decidable_of_iff (Q s) (by simp [Throughout, h])
      | some t =>
          have := decidableThroughout Q t ls
          decidable_of_iff (Q s ∧ Throughout step Q t ls) (by simp [Throughout, h])

theorem Throughout.mono {P Q : σ → Prop} (h : ∀ s, P s → Q s) :
    ∀ {s : σ} {ls : List ℓ}, Throughout step P s ls → Throughout step Q s ls
  | s, [], hP => h s hP
  | s, _ :: _, hP => ⟨h s hP.1, fun t ht => (hP.2 t ht).mono h⟩

theorem throughout_true (s : σ) (ls : List ℓ) : Throughout step (fun _ => True) s ls := by
  induction ls generalizing s with
  | nil => trivial
  | cons l ls ih => exact ⟨trivial, fun t _ => ih t⟩

theorem Throughout.head {Q : σ → Prop} {s : σ} {ls : List ℓ}
    (h : Throughout step Q s ls) : Q s := by
  cases ls with
  | nil => exact h
  | cons l ls => exact h.1

theorem Throughout.last {Q : σ → Prop} :
    ∀ {s t : σ} {ls : List ℓ}, Throughout step Q s ls → run step s ls = some t → Q t
  | _, _, [], hQ, hrun => Option.some.inj hrun ▸ hQ
  | _, _, _ :: _, hQ, hrun =>
      let ⟨u, hu, hrun⟩ := Option.bind_eq_some_iff.mp hrun
      (hQ.2 u hu).last hrun

@[simp] theorem run_nil (s : σ) : run step s [] = some s := rfl

theorem run_cons (s : σ) (l : ℓ) (ls : List ℓ) :
    run step s (l :: ls) = (step s l).bind fun t => run step t ls := rfl

theorem run_cons_eq_some_iff {s t : σ} {l : ℓ} {ls : List ℓ} :
    run step s (l :: ls) = some t ↔ ∃ u, step s l = some u ∧ run step u ls = some t := by
  rw [run_cons, Option.bind_eq_some_iff]

theorem run_append (s : σ) (ls ms : List ℓ) :
    run step s (ls ++ ms) = (run step s ls).bind fun t => run step t ms := by
  induction ls generalizing s with
  | nil => rfl
  | cons l ls ih =>
      rw [List.cons_append, run_cons, run_cons, Option.bind_assoc]
      exact Option.bind_congr fun t _ => ih t

theorem Along.mono {P Q : σ → ℓ → Prop} (h : ∀ s l, P s l → Q s l) :
    ∀ {s : σ} {ls : List ℓ}, Along step P s ls → Along step Q s ls
  | _, [], _ => trivial
  | s, l :: _, hP => fun t ht => ⟨h s l (hP t ht).1, (hP t ht).2.mono h⟩

/-- A run that is continued from where it leads to. -/
theorem Along.append {P : σ → ℓ → Prop} {ms : List ℓ} :
    ∀ {s t : σ} {ls : List ℓ}, Along step P s ls → run step s ls = some t → Along step P t ms →
      Along step P s (ls ++ ms)
  | _, _, [], _, hrun, hms => Option.some.inj hrun ▸ hms
  | _, _, _ :: _, hls, hrun, hms => fun u hu => by
      obtain ⟨v, hv, hrun⟩ := run_cons_eq_some_iff.mp hrun
      obtain rfl := Option.some.inj (hv.symm.trans hu)
      exact ⟨(hls v hu).1, (hls v hu).2.append hrun hms⟩

theorem Along.and {P Q : σ → ℓ → Prop} :
    ∀ {s : σ} {ls : List ℓ}, Along step P s ls → Along step Q s ls →
      Along step (fun s l => P s l ∧ Q s l) s ls
  | _, [], _, _ => trivial
  | _, _ :: _, hP, hQ => fun t ht =>
      ⟨⟨(hP t ht).1, (hQ t ht).1⟩, (hP t ht).2.and (hQ t ht).2⟩

/-- What every step that meets the condition preserves, between states that meet theirs,
holds after every run whose steps and states all do. -/
theorem run_invariant {P : σ → ℓ → Prop} {Q I : σ → Prop}
    (hstep : ∀ s l t, I s → Q s → P s l → step s l = some t → Q t → I t) :
    ∀ {s : σ} {ls : List ℓ} {t : σ}, I s → Throughout step Q s ls → Along step P s ls →
      run step s ls = some t → I t
  | s, [], t, hs, _, _, hrun => by
      rw [run_nil, Option.some.injEq] at hrun
      exact hrun ▸ hs
  | s, l :: ls, t, hs, hQ, hP, hrun => by
      obtain ⟨u, hu, hrun⟩ := run_cons_eq_some_iff.mp hrun
      have hQu := hQ.2 u hu
      exact run_invariant hstep (hstep s l u hs hQ.1 (hP u hu).1 hu hQu.head) hQu (hP u hu).2
        hrun

/-- What every step that meets the condition preserves holds in every state of every run
whose steps all meet it. -/
theorem throughout_of_step {P : σ → ℓ → Prop} {I : σ → Prop}
    (hstep : ∀ s l t, I s → P s l → step s l = some t → I t) :
    ∀ {s : σ} {ls : List ℓ}, I s → Along step P s ls → Throughout step I s ls
  | _, [], hs, _ => hs
  | s, l :: _, hs, hP =>
      ⟨hs, fun t ht => throughout_of_step hstep (hstep s l t hs (hP t ht).1 ht) (hP t ht).2⟩

/-- Where a condition on a step tells whether it preserves an invariant, the runs in which it holds
all the time are those whose steps all meet the condition. -/
theorem throughout_iff_along {P : σ → ℓ → Prop} {I : σ → Prop}
    (hstep : ∀ s l t, I s → step s l = some t → (I t ↔ P s l)) :
    ∀ {s : σ} {ls : List ℓ}, I s → (Throughout step I s ls ↔ Along step P s ls)
  | _, [], hs => iff_of_true hs trivial
  | s, l :: _, hs => by
      refine (and_iff_right hs).trans (forall₂_congr fun t ht => ?_)
      rw [← hstep s l t hs ht]
      exact ⟨fun hrest => ⟨hrest.head, (throughout_iff_along hstep hrest.head).1 hrest⟩,
        fun hrest => (throughout_iff_along hstep hrest.1).2 hrest.2⟩

/-- What every step preserves holds in every state of every run. -/
theorem throughout_of_invariant {I : σ → Prop} (hstep : ∀ s l t, I s → step s l = some t → I t) :
    ∀ {s : σ} {ls : List ℓ}, I s → Throughout step I s ls
  | _, [], hs => hs
  | s, l :: _, hs => ⟨hs, fun t ht => throughout_of_invariant hstep (hstep s l t hs ht)⟩

/-- Two conditions that agree wherever an invariant holds are met throughout the same runs. -/
theorem throughout_iff_of_invariant {P Q I : σ → Prop}
    (hstep : ∀ s l t, I s → step s l = some t → I t) (h : ∀ s, I s → (P s ↔ Q s)) :
    ∀ {s : σ} {ls : List ℓ}, I s → (Throughout step P s ls ↔ Throughout step Q s ls)
  | s, [], hs => h s hs
  | s, l :: _, hs =>
      and_congr (h s hs) (forall₂_congr fun t ht =>
        throughout_iff_of_invariant hstep h (hstep s l t hs ht))

/-- What an invariant implies of every step that meets the condition is so of every step of a run
whose steps all meet it. -/
theorem along_of_step {P Q : σ → ℓ → Prop} {I : σ → Prop}
    (hstep : ∀ s l t, I s → P s l → step s l = some t → I t) (h : ∀ s l, I s → P s l → Q s l) :
    ∀ {s : σ} {ls : List ℓ}, I s → Along step P s ls → Along step Q s ls
  | _, [], _, _ => trivial
  | s, l :: _, hs, hP => fun t ht =>
      ⟨h s l hs (hP t ht).1,
        along_of_step hstep h (hstep s l t hs (hP t ht).1 ht) (hP t ht).2⟩

/-- What a step that meets the condition preserves, and what it does. -/
theorem throughout_and_along_of_step {P Q : σ → ℓ → Prop} {I : σ → Prop}
    (hstep : ∀ s l t, I s → P s l → step s l = some t → I t ∧ Q s l) :
    ∀ {s : σ} {ls : List ℓ}, I s → Along step P s ls → Throughout step I s ls ∧ Along step Q s ls
  | _, [], hs, _ => ⟨hs, trivial⟩
  | s, l :: _, hs, hP => by
      have hnext := fun t ht => hstep s l t hs (hP t ht).1 ht
      have hrest := fun t ht => throughout_and_along_of_step hstep (hnext t ht).1 (hP t ht).2
      exact ⟨⟨hs, fun t ht => (hrest t ht).1⟩, fun t ht => ⟨(hnext t ht).2, (hrest t ht).2⟩⟩

/-- What every step is known to satisfy from the state it leads to. -/
theorem along_of_throughout {P : σ → ℓ → Prop} {Q : σ → Prop}
    (h : ∀ s l t, step s l = some t → Q t → P s l) :
    ∀ {s : σ} {ls : List ℓ}, Throughout step Q s ls → Along step P s ls
  | _, [], _ => trivial
  | s, l :: _, hQ => fun t ht =>
      ⟨h s l t ht (hQ.2 t ht).head, along_of_throughout h (hQ.2 t ht)⟩

/-- What holds along a run holds of its last step. -/
theorem Along.of_run {P : σ → ℓ → Prop} {l : ℓ} :
    ∀ {s t u : σ} {ls : List ℓ}, Along step P s (ls ++ [l]) → run step s ls = some t →
      step t l = some u → P t l
  | _, _, u, [], hP, hrun, hlast => by
      obtain rfl := Option.some.inj hrun
      exact (hP u hlast).1
  | _, _, _, _ :: _, hP, hrun, hlast => by
      obtain ⟨v, hv, hrun⟩ := run_cons_eq_some_iff.mp hrun
      exact (hP v hv).2.of_run hrun hlast

/-- What an invariant implies of every step is so of every step of every run. -/
theorem along_of_invariant {P : σ → ℓ → Prop} {I : σ → Prop}
    (hstep : ∀ s l t, I s → step s l = some t → I t) (h : ∀ s l, I s → P s l) :
    ∀ {s : σ} {ls : List ℓ}, I s → Along step P s ls
  | _, [], _ => trivial
  | s, l :: _, hs => fun t ht => ⟨h s l hs, along_of_invariant hstep h (hstep s l t hs ht)⟩

/-- Two conditions that agree wherever an invariant holds are met by the same runs. -/
theorem along_iff_of_invariant {P Q : σ → ℓ → Prop} {I : σ → Prop}
    (hstep : ∀ s l t, I s → step s l = some t → I t) (h : ∀ s l, I s → (P s l ↔ Q s l)) :
    ∀ {s : σ} {ls : List ℓ}, I s → (Along step P s ls ↔ Along step Q s ls)
  | _, [], _ => Iff.rfl
  | s, l :: _, hs =>
      forall₂_congr fun t ht =>
        and_congr (h s l hs) (along_iff_of_invariant hstep h (hstep s l t hs ht))

/-- Two conditions that agree wherever an invariant holds are met by the same runs, also where
only steps that meet the first one are known to preserve the invariant. -/
theorem along_iff_of_step {P Q : σ → ℓ → Prop} {I : σ → Prop}
    (hstep : ∀ s l t, I s → P s l → step s l = some t → I t)
    (h : ∀ s l, I s → (P s l ↔ Q s l)) :
    ∀ {s : σ} {ls : List ℓ}, I s → (Along step P s ls ↔ Along step Q s ls)
  | _, [], _ => Iff.rfl
  | s, l :: _, hs =>
      forall₂_congr fun t ht =>
        ⟨fun hP => ⟨(h s l hs).mp hP.1,
            (along_iff_of_step hstep h (hstep s l t hs hP.1 ht)).mp hP.2⟩,
          fun hQ => ⟨(h s l hs).mpr hQ.1,
            (along_iff_of_step hstep h (hstep s l t hs ((h s l hs).mpr hQ.1) ht)).mpr hQ.2⟩⟩

/-- What holds of the last state of a run and is not lost by going back holds of the first one. -/
theorem of_run {B : σ → Prop} (hback : ∀ s l t, step s l = some t → B t → B s) :
    ∀ {s t : σ} {ls : List ℓ}, run step s ls = some t → B t → B s
  | _, _, [], hrun, hB => by
      obtain rfl := Option.some.inj hrun
      exact hB
  | s, _, l :: _, hrun, hB => by
      obtain ⟨u, hu, hrun⟩ := run_cons_eq_some_iff.mp hrun
      exact hback s l u hu (of_run hback hrun hB)

/-- Where a condition on a step tells whether it preserves a property that no step restores, the
property is left by the runs from where it holds whose steps all meet the condition. The invariant
may depend on a bound that holds of the last state. -/
theorem run_iff_along {P : σ → ℓ → Prop} {I B D : σ → Prop}
    (hback : ∀ s l t, step s l = some t → B t → B s)
    (hstep : ∀ s l t, I s → B t → step s l = some t → I t ∧ (D t ↔ D s ∧ P s l)) :
    ∀ {s t : σ} {ls : List ℓ}, I s → B t → run step s ls = some t →
      (D t ↔ D s ∧ Along step P s ls)
  | _, _, [], _, _, hrun => by
      obtain rfl := Option.some.inj hrun
      exact (and_iff_left trivial).symm
  | s, t, l :: ls, hs, hB, hrun => by
      obtain ⟨u, hu, hrun⟩ := run_cons_eq_some_iff.mp hrun
      obtain ⟨hI, hD⟩ := hstep s l u hs (of_run hback hrun hB) hu
      rw [run_iff_along hback hstep hI hB hrun, hD, and_assoc]
      refine and_congr_right fun _ => ⟨fun h v hv => ?_, fun h => h u hu⟩
      obtain rfl := Option.some.inj (hu.symm.trans hv)
      exact h

/-- The step with a record of the steps before it -/
def recorded {η : Type*} (step : σ → ℓ → Option σ) (record : η → σ → ℓ → η) (s : σ × η) (l : ℓ) :
    Option (σ × η) :=
  (step s.1 l).map fun t => (t, record s.2 s.1 l)

/-- What a condition says that does not look at the record -/
theorem along_recorded_iff {η : Type*} {record : η → σ → ℓ → η} {P : σ → ℓ → Prop} :
    ∀ {s : σ} {h : η} {ls : List ℓ},
      Along (recorded step record) (fun s l => P s.1 l) (s, h) ls ↔ Along step P s ls
  | _, _, [] => Iff.rfl
  | s, h, l :: ls => by
      constructor
      · intro hP t ht
        obtain ⟨hl, hls⟩ := hP (t, record h s l) (congrArg (Option.map _) ht)
        exact ⟨hl, along_recorded_iff.mp hls⟩
      · intro hP s' hs'
        obtain ⟨t, ht, rfl⟩ := Option.map_eq_some_iff.mp hs'
        exact ⟨(hP t ht).1, along_recorded_iff.mpr (hP t ht).2⟩

end Transition
