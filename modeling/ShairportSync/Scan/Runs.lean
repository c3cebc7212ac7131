import Mathlib.Algebra.Order.Group.Nat
import Mathlib.Data.List.Basic

/-!
# Runs of marks

A scan goes over a list of entries, each of which is closed, marked or waiting. For each run,
that is for the entries between two closed ones, it reports a range: the position of the first mark
of the run, and how many marks there are. The ranges are disjoint and in increasing order. They
cover exactly the marks if and only if no run is broken, so that its marks stand side by side.
-/

namespace Scan

inductive Mark where
  | closed
  | marked
  | waiting
deriving DecidableEq

/-- The ranges that are reported from the position `pos` on, when the run so far has `count` marks,
the first of them at `start`. -/
def reports : ℕ → ℕ → ℕ → List Mark → List (ℕ × ℕ)
  | _, start, count, [] => if 0 < count then [(start, count)] else []
  | pos, start, count, .closed :: l =>
      (if 0 < count then [(start, count)] else []) ++ reports (pos + 1) 0 0 l
  | pos, start, count, .marked :: l =>
      reports (pos + 1) (if count = 0 then pos else start) (count + 1) l
  | pos, start, count, .waiting :: l => reports (pos + 1) start count l

/-- The position is in one of the ranges. -/
def Covered (ranges : List (ℕ × ℕ)) (p : ℕ) : Prop := ∃ r ∈ ranges, r.1 ≤ p ∧ p < r.1 + r.2

instance (ranges : List (ℕ × ℕ)) (p : ℕ) : Decidable (Covered ranges p) :=
  inferInstanceAs (Decidable (∃ r ∈ ranges, _))

/-- Between two marks with a waiting entry between them there is a closed one. -/
def Unbroken (l : List Mark) : Prop :=
  ∀ i j k : ℕ, i < j → j < k → l[i]? = some Mark.marked → l[j]? = some Mark.waiting →
    l[k]? = some Mark.marked → ∃ m : ℕ, i < m ∧ m < k ∧ l[m]? = some Mark.closed

/-- Before a mark that comes after a waiting entry there is a closed one. -/
def MarksFirst (l : List Mark) : Prop :=
  ∀ j k : ℕ, j < k → l[j]? = some Mark.waiting → l[k]? = some Mark.marked →
    ∃ m : ℕ, m < k ∧ l[m]? = some Mark.closed

/-- Before every mark there is a closed entry. -/
def ClosedFirst (l : List Mark) : Prop :=
  ∀ k : ℕ, l[k]? = some Mark.marked → ∃ m : ℕ, m < k ∧ l[m]? = some Mark.closed

section Cons

variable {x : Mark} {l : List Mark}

theorem exists_closed_cons_iff {k : ℕ} (hx : x ≠ .closed) :
    (∃ m : ℕ, m < k + 1 ∧ (x :: l)[m]? = some Mark.closed) ↔
      ∃ m : ℕ, m < k ∧ l[m]? = some Mark.closed := by
  constructor
  · rintro ⟨m, hm, hclosed⟩
    cases m with
    | zero => exact absurd (Option.some.inj hclosed) hx
    | succ m => exact ⟨m, Nat.lt_of_succ_lt_succ hm, hclosed⟩
  · rintro ⟨m, hm, hclosed⟩
    exact ⟨m + 1, Nat.succ_lt_succ hm, hclosed⟩

@[simp] theorem closedFirst_nil : ClosedFirst [] := fun _ hk => by simp at hk

@[simp] theorem closedFirst_closed : ClosedFirst (.closed :: l) := by
  intro k hk
  cases k with
  | zero => exact absurd (Option.some.inj hk) Mark.noConfusion
  | succ k => exact ⟨0, Nat.succ_pos k, rfl⟩

@[simp] theorem not_closedFirst_marked : ¬ ClosedFirst (.marked :: l) := by
  intro h
  obtain ⟨m, hm, -⟩ := h 0 rfl
  exact absurd hm (Nat.not_lt_zero m)

@[simp] theorem closedFirst_waiting : ClosedFirst (.waiting :: l) ↔ ClosedFirst l := by
  constructor
  · intro h k hk
    exact (exists_closed_cons_iff Mark.noConfusion).mp (h (k + 1) hk)
  · intro h k hk
    cases k with
    | zero => exact absurd (Option.some.inj hk) Mark.noConfusion
    | succ k => exact (exists_closed_cons_iff Mark.noConfusion).mpr (h k hk)

@[simp] theorem marksFirst_nil : MarksFirst [] := fun _ _ _ hj => by simp at hj

@[simp] theorem marksFirst_closed : MarksFirst (.closed :: l) :=
  fun _ k _ _ hk => closedFirst_closed k hk

@[simp] theorem marksFirst_marked : MarksFirst (.marked :: l) ↔ MarksFirst l := by
  constructor
  · intro h j k hjk hj hk
    exact (exists_closed_cons_iff Mark.noConfusion).mp
      (h (j + 1) (k + 1) (Nat.succ_lt_succ hjk) hj hk)
  · intro h j k hjk hj hk
    cases j with
    | zero => exact absurd (Option.some.inj hj) Mark.noConfusion
    | succ j =>
        cases k with
        | zero => exact absurd hjk (Nat.not_lt_zero _)
        | succ k =>
            exact (exists_closed_cons_iff Mark.noConfusion).mpr
              (h j k (Nat.lt_of_succ_lt_succ hjk) hj hk)

@[simp] theorem marksFirst_waiting : MarksFirst (.waiting :: l) ↔ ClosedFirst l := by
  constructor
  · intro h k hk
    exact (exists_closed_cons_iff Mark.noConfusion).mp (h 0 (k + 1) (Nat.succ_pos k) rfl hk)
  · intro h j k hjk _ hk
    cases k with
    | zero => exact absurd hjk (Nat.not_lt_zero _)
    | succ k => exact (exists_closed_cons_iff Mark.noConfusion).mpr (h k hk)

@[simp] theorem unbroken_nil : Unbroken [] := fun _ _ _ _ _ hi => by simp at hi

theorem Unbroken.tail (h : Unbroken (x :: l)) : Unbroken l := by
  intro i j k hij hjk hi hj hk
  obtain ⟨m, him, hmk, hclosed⟩ := h (i + 1) (j + 1) (k + 1) (Nat.succ_lt_succ hij)
    (Nat.succ_lt_succ hjk) hi hj hk
  cases m with
  | zero => exact absurd him (Nat.not_lt_zero _)
  | succ m => exact ⟨m, Nat.lt_of_succ_lt_succ him, Nat.lt_of_succ_lt_succ hmk, hclosed⟩

theorem Unbroken.cons (h : Unbroken l) (hx : x = .marked → MarksFirst l) : Unbroken (x :: l) := by
  intro i j k hij hjk hi hj hk
  cases j with
  | zero => exact absurd hij (Nat.not_lt_zero _)
  | succ j =>
      cases k with
      | zero => exact absurd hjk (Nat.not_lt_zero _)
      | succ k =>
          cases i with
          | zero =>
              obtain ⟨m, hmk, hclosed⟩ :=
                hx (Option.some.inj hi) j k (Nat.lt_of_succ_lt_succ hjk) hj hk
              exact ⟨m + 1, Nat.succ_pos m, Nat.succ_lt_succ hmk, hclosed⟩
          | succ i =>
              obtain ⟨m, him, hmk, hclosed⟩ := h i j k (Nat.lt_of_succ_lt_succ hij)
                (Nat.lt_of_succ_lt_succ hjk) hi hj hk
              exact ⟨m + 1, Nat.succ_lt_succ him, Nat.succ_lt_succ hmk, hclosed⟩

theorem unbroken_cons_of_ne (hx : x ≠ .marked) : Unbroken (x :: l) ↔ Unbroken l :=
  ⟨fun h => h.tail, fun h => h.cons fun hmarked => absurd hmarked hx⟩

@[simp] theorem unbroken_marked : Unbroken (.marked :: l) ↔ MarksFirst l ∧ Unbroken l := by
  constructor
  · refine fun h => ⟨fun j k hjk hj hk => ?_, h.tail⟩
    obtain ⟨m, hm, hmk, hclosed⟩ := h 0 (j + 1) (k + 1) (Nat.succ_pos j) (Nat.succ_lt_succ hjk)
      rfl hj hk
    cases m with
    | zero => exact absurd hm (Nat.lt_irrefl 0)
    | succ m => exact ⟨m, Nat.lt_of_succ_lt_succ hmk, hclosed⟩
  · rintro ⟨hfirst, h⟩
    exact h.cons fun _ => hfirst

end Cons

/-! ## The ranges -/

section Reports

variable {pos start count : ℕ} {l : List Mark}

theorem reports_of_count_zero (l : List Mark) (pos start start' : ℕ) :
    reports pos start 0 l = reports pos start' 0 l := by
  induction l generalizing pos with
  | nil => rfl
  | cons x l ih =>
      cases x with
      | closed => rfl
      | marked => rfl
      | waiting =>
          rw [reports, reports]
          exact ih (pos + 1)

/-- A range may be reported as soon as the run is ended by a closed entry or by the end. -/
theorem reports_cons (x : Mark) (l : List Mark) (pos start count : ℕ) :
    reports pos start count (x :: l) =
      let start' := if x = .marked ∧ count = 0 then pos else start
      let count' := if x = .marked then count + 1 else count
      if (x = .closed ∨ l = []) ∧ 0 < count' then (start', count') :: reports (pos + 1) 0 0 l
      else reports (pos + 1) start' count' l := by
  cases x with
  | closed =>
      rcases Nat.eq_zero_or_pos count with rfl | hcount
      · simpa [reports] using reports_of_count_zero l (pos + 1) 0 start
      · simp [reports, hcount]
  | marked =>
      cases l with
      | nil => simp [reports]
      | cons y l => simp [reports]
  | waiting =>
      cases l with
      | nil =>
          rcases Nat.eq_zero_or_pos count with rfl | hcount
          · simp [reports]
          · simp [reports, hcount]
      | cons y l => simp [reports]

/-- The ranges lie behind one another, after the start of the run so far. -/
theorem reports_ordered (l : List Mark) (pos start count : ℕ)
    (hrun : 0 < count → start + count ≤ pos) :
    (reports pos start count l).Pairwise (fun r r' => r.1 + r.2 ≤ r'.1) ∧
      ∀ r ∈ reports pos start count l,
        ((0 < count ∧ start ≤ r.1) ∨ pos ≤ r.1) ∧ 0 < r.2 ∧ r.1 + r.2 ≤ pos + l.length := by
  induction l generalizing pos start count with
  | nil =>
      rw [reports]
      split_ifs with hcount
      · refine ⟨List.pairwise_singleton _ _, fun r hr => ?_⟩
        rw [List.mem_singleton.mp hr]
        exact ⟨Or.inl ⟨hcount, le_rfl⟩, hcount, by simpa using hrun hcount⟩
      · exact ⟨List.Pairwise.nil, fun r hr => absurd hr List.not_mem_nil⟩
  | cons x l ih =>
      cases x with
      | closed =>
          obtain ⟨hordered, hbounds⟩ := ih (pos + 1) 0 0 fun h => absurd h (Nat.lt_irrefl 0)
          have hlater : ∀ r ∈ reports (pos + 1) 0 0 l,
              pos ≤ r.1 ∧ 0 < r.2 ∧ r.1 + r.2 ≤ pos + (Mark.closed :: l).length := by
            intro r hr
            obtain ⟨hstart, hpos, hend⟩ := hbounds r hr
            rw [List.length_cons]
            omega
          rw [reports]
          split_ifs with hcount
          · have hbefore := hrun hcount
            rw [List.singleton_append, List.pairwise_cons]
            refine ⟨⟨fun r hr => ?_, hordered⟩, fun r hr => ?_⟩
            · exact hbefore.trans (hlater r hr).1
            · rcases List.mem_cons.mp hr with rfl | hr
              · refine ⟨Or.inl ⟨hcount, le_rfl⟩, hcount, ?_⟩
                dsimp only
                omega
              · exact ⟨Or.inr (hlater r hr).1, (hlater r hr).2⟩
          · rw [List.nil_append]
            exact ⟨hordered, fun r hr => ⟨Or.inr (hlater r hr).1, (hlater r hr).2⟩⟩
      | marked =>
          rw [reports]
          obtain ⟨hordered, hbounds⟩ := ih (pos + 1) (if count = 0 then pos else start) (count + 1)
            (by split_ifs <;> omega)
          refine ⟨hordered, fun r hr => ?_⟩
          obtain ⟨hstart, hpos, hend⟩ := hbounds r hr
          rw [List.length_cons]
          split_ifs at hstart <;> omega
      | waiting =>
          rw [reports]
          obtain ⟨hordered, hbounds⟩ := ih (pos + 1) start count (by omega)
          refine ⟨hordered, fun r hr => ?_⟩
          obtain ⟨hstart, hpos, hend⟩ := hbounds r hr
          rw [List.length_cons]
          omega

theorem covered_run (l : List Mark) (pos : ℕ) {start count p : ℕ} (hcount : 0 < count)
    (hp : start ≤ p ∧ p < start + count) : Covered (reports pos start count l) p := by
  induction l generalizing pos count with
  | nil =>
      rw [reports, if_pos hcount]
      exact ⟨_, List.mem_singleton_self _, hp⟩
  | cons x l ih =>
      cases x with
      | closed =>
          rw [reports, if_pos hcount]
          exact ⟨_, List.mem_cons_self, hp⟩
      | marked =>
          rw [reports, if_neg hcount.ne']
          exact ih (pos + 1) (Nat.succ_pos count) ⟨hp.1, hp.2.trans (Nat.lt_succ_self _)⟩
      | waiting =>
          rw [reports]
          exact ih (pos + 1) hcount hp

/-- The ranges cover exactly the marks: those of the run so far and those to come. -/
def Exact (pos start count : ℕ) (l : List Mark) : Prop :=
  ∀ p : ℕ, Covered (reports pos start count l) p ↔
    (0 < count ∧ start ≤ p ∧ p < start + count) ∨ ∃ i : ℕ, p = pos + i ∧ l[i]? = some Mark.marked

theorem exists_marked_cons_iff {x : Mark} {p : ℕ} :
    (∃ i : ℕ, p = pos + i ∧ (x :: l)[i]? = some Mark.marked) ↔
      (p = pos ∧ x = .marked) ∨ ∃ i : ℕ, p = pos + 1 + i ∧ l[i]? = some Mark.marked := by
  constructor
  · rintro ⟨i, rfl, hi⟩
    cases i with
    | zero => exact Or.inl ⟨rfl, Option.some.inj hi⟩
    | succ i => exact Or.inr ⟨i, by omega, hi⟩
  · rintro (⟨rfl, rfl⟩ | ⟨i, rfl, hi⟩)
    · exact ⟨0, rfl, rfl⟩
    · exact ⟨i + 1, by omega, hi⟩

theorem exact_closed_iff (hrun : 0 < count → start + count ≤ pos) :
    Exact pos start count (.closed :: l) ↔ Exact (pos + 1) 0 0 l := by
  have hlater (p : ℕ) (hp : Covered (reports (pos + 1) 0 0 l) p) : pos < p := by
    obtain ⟨r, hr, hle, -⟩ := hp
    obtain ⟨hstart, -⟩ :=
      (reports_ordered l (pos + 1) 0 0 fun h => absurd h (Nat.lt_irrefl 0)).2 r hr
    omega
  have hcovered (p : ℕ) : Covered (reports pos start count (.closed :: l)) p ↔
      (0 < count ∧ start ≤ p ∧ p < start + count) ∨ Covered (reports (pos + 1) 0 0 l) p := by
    rw [reports, Covered, Covered]
    split_ifs with hcount
    · simp [hcount]
    · simp [hcount]
  refine forall_congr' fun p => ?_
  rw [hcovered, exists_marked_cons_iff]
  constructor
  · intro h
    refine ⟨fun hp => ?_, fun hp => ?_⟩
    · rcases h.mp (Or.inr hp) with ⟨hcount, -, hlt⟩ | ⟨-, hclosed⟩ | hmarked
      · have := hlater p hp
        have := hrun hcount
        omega
      · exact Mark.noConfusion hclosed
      · exact Or.inr hmarked
    · rcases hp with ⟨hzero, -⟩ | ⟨i, rfl, hi⟩
      · exact absurd hzero (Nat.lt_irrefl 0)
      · rcases h.mpr (Or.inr (Or.inr ⟨i, rfl, hi⟩)) with ⟨hcount, -, hlt⟩ | hp
        · have := hrun hcount
          omega
        · exact hp
  · intro h
    rw [h]
    constructor
    · rintro (hin | ⟨hzero, -⟩ | hmarked)
      · exact Or.inl hin
      · exact absurd hzero (Nat.lt_irrefl 0)
      · exact Or.inr (Or.inr hmarked)
    · rintro (hin | ⟨-, hclosed⟩ | hmarked)
      · exact Or.inl hin
      · exact Mark.noConfusion hclosed
      · exact Or.inr (Or.inr hmarked)

/-- A run with a gap in it must not go on; one without a gap must have its marks first. -/
theorem exact_iff (l : List Mark) (pos start count : ℕ) (hrun : 0 < count → start + count ≤ pos) :
    Exact pos start count l ↔
      Unbroken l ∧ (0 < count → start + count < pos → ClosedFirst l) ∧
        (0 < count → start + count = pos → MarksFirst l) := by
  induction l generalizing pos start count with
  | nil =>
      refine iff_of_true (fun p => ?_) (by simp)
      rw [reports, Covered]
      split_ifs with hcount
      · simp [hcount]
      · simp [hcount]
  | cons x l ih =>
      cases x with
      | closed =>
          rw [exact_closed_iff hrun, ih (pos + 1) 0 0 fun h => absurd h (Nat.lt_irrefl 0),
            unbroken_cons_of_ne Mark.noConfusion]
          simp
      | marked =>
          by_cases hloose : 0 < count ∧ start + count < pos
          · -- the range of the run would reach over the gap
            refine iff_of_false (fun h => ?_) fun h =>
              not_closedFirst_marked (h.2.1 hloose.1 hloose.2)
            have hcovered : Covered (reports pos start count (.marked :: l)) (start + count) := by
              rw [reports, if_neg hloose.1.ne']
              exact covered_run l (pos + 1) (Nat.succ_pos count) ⟨by omega, by omega⟩
            rcases (h _).mp hcovered with ⟨-, -, hlt⟩ | ⟨i, hi, -⟩ <;> omega
          · have hsame : Exact pos start count (.marked :: l) ↔
                Exact (pos + 1) (if count = 0 then pos else start) (count + 1) l := by
              refine forall_congr' fun p => ?_
              have hrunNext : (0 < count ∧ start ≤ p ∧ p < start + count) ∨ p = pos ↔
                  0 < count + 1 ∧ (if count = 0 then pos else start) ≤ p ∧
                    p < (if count = 0 then pos else start) + (count + 1) := by
                split_ifs with hcount <;> omega
              rw [reports, exists_marked_cons_iff, ← or_assoc, and_iff_left rfl, hrunNext]
            rw [hsame, ih _ _ _ (by split_ifs <;> omega), unbroken_marked, marksFirst_marked]
            constructor
            · rintro ⟨hunbroken, -, hfirst⟩
              have hmarks := hfirst (Nat.succ_pos count) (by split_ifs <;> omega)
              exact ⟨⟨hmarks, hunbroken⟩, fun hcount hlt => absurd ⟨hcount, hlt⟩ hloose,
                fun _ _ => hmarks⟩
            · rintro ⟨⟨hmarks, hunbroken⟩, -, -⟩
              refine ⟨hunbroken, fun _ hlt => ?_, fun _ _ => hmarks⟩
              split_ifs at hlt <;> omega
      | waiting =>
          have hsame : Exact pos start count (.waiting :: l) ↔ Exact (pos + 1) start count l := by
            refine forall_congr' fun p => ?_
            rw [reports, exists_marked_cons_iff]
            simp
          rw [hsame, ih _ _ _ (by omega), unbroken_cons_of_ne Mark.noConfusion]
          simp only [closedFirst_waiting, marksFirst_waiting]
          constructor
          · rintro ⟨hunbroken, hclosed, -⟩
            exact ⟨hunbroken, fun hcount _ => hclosed hcount (by omega),
              fun hcount _ => hclosed hcount (by omega)⟩
          · rintro ⟨hunbroken, hclosed, hmarks⟩
            refine ⟨hunbroken, fun hcount _ => ?_, fun hcount heq => ?_⟩
            · rcases (hrun hcount).lt_or_eq with hlt | heq
              · exact hclosed hcount hlt
              · exact hmarks hcount heq
            · have := hrun hcount
              omega

theorem covered_reports_iff (l : List Mark) :
    (∀ p : ℕ, Covered (reports 0 0 0 l) p ↔ l[p]? = some Mark.marked) ↔ Unbroken l := by
  have h := exact_iff l 0 0 0 fun h => absurd h (Nat.lt_irrefl 0)
  simpa [Exact] using h

end Reports

end Scan
