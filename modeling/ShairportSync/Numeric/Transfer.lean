import Mathlib.Algebra.Order.Field.Basic
import Mathlib.Tactic.Linarith

/-!
# Transfer functions made of lines

A transfer function that falls from zero is given by lines. Each leaves zero at its start and is at
its stop where the scale ends, and the function follows the lowest of the lines that have been left.
What a line gives is monotone, so the function is, however the lines cross.

A level that is divided between two mixers fills the range of the one before it uses the other. Both
parts are monotone and they make up the level.
-/

namespace Numeric

variable {K : Type*} [Field K]

/-! ## Lines -/

/-- The height of a line from zero at `start` to `stop` at `bottom`. -/
def lineAt (bottom start stop x : K) : K := stop * (x - start) / (bottom - start)

theorem lineAt_start (bottom start stop : K) : lineAt bottom start stop start = 0 := by
  rw [lineAt, sub_self, mul_zero, zero_div]

variable [LinearOrder K]

theorem lineAt_bottom [IsStrictOrderedRing K] {bottom start : K} (hstart : bottom < start)
    (stop : K) :
    lineAt bottom start stop bottom = stop :=
  mul_div_cancel_right₀ stop (sub_neg.2 hstart).ne

theorem lineAt_le [IsStrictOrderedRing K] {bottom start stop x y : K} (hstart : bottom < start)
    (hstop : stop ≤ 0) (hxy : x ≤ y) : lineAt bottom start stop x ≤ lineAt bottom start stop y := by
  refine div_le_div_of_nonpos_of_le (sub_neg.2 hstart).le ?_
  exact mul_le_mul_of_nonpos_left (sub_le_sub_right hxy start) hstop

/-! ## The lowest of several lines -/

/-- The level so far, or that of a line that has been left and is lower. -/
def lowerWith (bottom x level : K) (l : K × K) : K :=
  if x ≤ l.1 then
    if lineAt bottom l.1 l.2 x < level then lineAt bottom l.1 l.2 x else level
  else level

def transfer (bottom : K) (lines : List (K × K)) (x : K) : K :=
  lines.foldl (lowerWith bottom x) 0

theorem lowerWith_of_le {bottom x level : K} {l : K × K} (hx : x ≤ l.1) :
    lowerWith bottom x level l = min level (lineAt bottom l.1 l.2 x) := by
  rw [lowerWith, if_pos hx]
  split_ifs with h
  · exact (min_eq_right h.le).symm
  · exact (min_eq_left (not_lt.1 h)).symm

theorem lowerWith_of_lt {bottom x level : K} {l : K × K} (hx : l.1 < x) :
    lowerWith bottom x level l = level := if_neg (not_le.2 hx)

theorem lowerWith_le (bottom x level : K) (l : K × K) : lowerWith bottom x level l ≤ level := by
  rcases le_or_gt x l.1 with hx | hx
  · rw [lowerWith_of_le hx]
    exact min_le_left _ _
  · rw [lowerWith_of_lt hx]

theorem lowerWith_mono [IsStrictOrderedRing K] {bottom x y level level' : K} {l : K × K}
    (hstart : bottom < l.1) (hstop : l.2 ≤ 0) (hxy : x ≤ y) (hlevel : level ≤ level') :
    lowerWith bottom x level l ≤ lowerWith bottom y level' l := by
  rcases le_or_gt y l.1 with hy | hy
  · rw [lowerWith_of_le hy, lowerWith_of_le (hxy.trans hy)]
    exact min_le_min hlevel (lineAt_le hstart hstop hxy)
  · rw [lowerWith_of_lt hy]
    exact (lowerWith_le bottom x level l).trans hlevel

theorem foldl_lowerWith_mono [IsStrictOrderedRing K] {bottom x y : K} (hxy : x ≤ y)
    (lines : List (K × K)) (hlines : ∀ l ∈ lines, bottom < l.1 ∧ l.2 ≤ 0) {level level' : K}
    (hlevel : level ≤ level') :
    lines.foldl (lowerWith bottom x) level ≤ lines.foldl (lowerWith bottom y) level' := by
  induction lines generalizing level level' with
  | nil => exact hlevel
  | cons l lines ih =>
      obtain ⟨hstart, hstop⟩ := hlines l List.mem_cons_self
      exact ih (fun m hm => hlines m (List.mem_cons_of_mem l hm))
        (lowerWith_mono hstart hstop hxy hlevel)

theorem transfer_mono [IsStrictOrderedRing K] {bottom : K} {lines : List (K × K)}
    (hlines : ∀ l ∈ lines, bottom < l.1 ∧ l.2 ≤ 0) {x y : K} (hxy : x ≤ y) :
    transfer bottom lines x ≤ transfer bottom lines y :=
  foldl_lowerWith_mono hxy lines hlines le_rfl

theorem foldl_lowerWith_le (bottom x : K) (lines : List (K × K)) (level : K) :
    lines.foldl (lowerWith bottom x) level ≤ level := by
  induction lines generalizing level with
  | nil => exact le_rfl
  | cons l lines ih => exact (ih _).trans (lowerWith_le bottom x level l)

theorem transfer_nonpos (bottom : K) (lines : List (K × K)) (x : K) :
    transfer bottom lines x ≤ 0 := foldl_lowerWith_le bottom x lines 0

theorem foldl_lowerWith_le_lineAt (bottom : K) {x : K} {l : K × K} {lines : List (K × K)}
    (hl : l ∈ lines) (hx : x ≤ l.1) (level : K) :
    lines.foldl (lowerWith bottom x) level ≤ lineAt bottom l.1 l.2 x := by
  induction lines generalizing level with
  | nil => exact absurd hl List.not_mem_nil
  | cons m lines ih =>
      rcases List.mem_cons.1 hl with rfl | hl
      · refine (foldl_lowerWith_le bottom x lines _).trans ?_
        rw [lowerWith_of_le hx]
        exact min_le_right _ _
      · exact ih hl _

/-- A bound below the lines that have been left is one below the function. -/
theorem le_foldl_lowerWith {bottom x lowest level : K} {lines : List (K × K)}
    (hlevel : lowest ≤ level)
    (hlines : ∀ l ∈ lines, x ≤ l.1 → lowest ≤ lineAt bottom l.1 l.2 x) :
    lowest ≤ lines.foldl (lowerWith bottom x) level := by
  induction lines generalizing level with
  | nil => exact hlevel
  | cons l lines ih =>
      refine ih ?_ fun m hm => hlines m (List.mem_cons_of_mem l hm)
      rcases le_or_gt x l.1 with hx | hx
      · rw [lowerWith_of_le hx]
        exact le_min hlevel (hlines l List.mem_cons_self hx)
      · rwa [lowerWith_of_lt hx]

theorem transfer_eq_zero {bottom x : K} {lines : List (K × K)} (hlines : ∀ l ∈ lines, l.1 ≤ x) :
    transfer bottom lines x = 0 := by
  refine le_antisymm (transfer_nonpos bottom lines x) (le_foldl_lowerWith le_rfl fun l hl hx => ?_)
  rw [le_antisymm hx (hlines l hl), lineAt_start]

/-- At the bottom the function is at the lowest of the stops. -/
theorem transfer_bottom [IsStrictOrderedRing K] {bottom : K} {lines : List (K × K)}
    (hstart : ∀ l ∈ lines, bottom < l.1) {lowest : K × K} (hmem : lowest ∈ lines)
    (hle : ∀ l ∈ lines, lowest.2 ≤ l.2) (hnonpos : lowest.2 ≤ 0) :
    transfer bottom lines bottom = lowest.2 := by
  refine le_antisymm ?_ (le_foldl_lowerWith hnonpos fun l hl _ => ?_)
  · have hline := foldl_lowerWith_le_lineAt bottom hmem (hstart lowest hmem).le 0
    rwa [lineAt_bottom (hstart lowest hmem)] at hline
  · rw [lineAt_bottom (hstart l hl)]
    exact hle l hl

/-! ## A level divided between two mixers -/

def fillFirst (range level : K) : K × K :=
  if level < range then (level, 0) else (range, level - range)

theorem fillFirst_add (range level : K) :
    (fillFirst range level).1 + (fillFirst range level).2 = level := by
  unfold fillFirst
  split_ifs
  · exact add_zero level
  · exact add_sub_cancel range level

theorem fillFirst_fst (range level : K) : (fillFirst range level).1 = min level range := by
  unfold fillFirst
  split_ifs with h
  · exact (min_eq_left h.le).symm
  · exact (min_eq_right (not_lt.1 h)).symm

theorem fillFirst_snd [IsStrictOrderedRing K] (range level : K) :
    (fillFirst range level).2 = max 0 (level - range) := by
  unfold fillFirst
  split_ifs with h
  · exact (max_eq_left (sub_neg.2 h).le).symm
  · exact (max_eq_right (sub_nonneg.2 (not_lt.1 h))).symm

theorem fillFirst_mono [IsStrictOrderedRing K] (range : K) {level level' : K} (h : level ≤ level') :
    (fillFirst range level).1 ≤ (fillFirst range level').1 ∧
      (fillFirst range level).2 ≤ (fillFirst range level').2 := by
  rw [fillFirst_fst, fillFirst_fst, fillFirst_snd, fillFirst_snd]
  exact ⟨min_le_min_right range h, max_le_max_left 0 (sub_le_sub_right h range)⟩

/-- Neither part leaves its range, if the level is one for both. -/
theorem fillFirst_mem [IsStrictOrderedRing K] {range other level : K} (hrange : 0 ≤ range)
    (hother : 0 ≤ other) (hlevel : 0 ≤ level) (hsum : level ≤ range + other) :
    (0 ≤ (fillFirst range level).1 ∧ (fillFirst range level).1 ≤ range) ∧
      0 ≤ (fillFirst range level).2 ∧ (fillFirst range level).2 ≤ other := by
  rw [fillFirst_fst, fillFirst_snd]
  exact ⟨⟨le_min hlevel hrange, min_le_right _ _⟩, le_max_left _ _,
    max_le hother (sub_le_iff_le_add'.2 hsum)⟩

end Numeric
