import Mathlib.Algebra.BigOperators.Group.Finset.Piecewise
import Mathlib.Algebra.Order.BigOperators.Group.Finset
import Mathlib.Data.Fintype.Basic

/-!
# Shared objects and who holds them

A ledger says which objects have been allocated, how often each place holds each of them,
and which have been freed, in the order it happened. It is balanced if an allocated object
has been freed once when no place holds it, and not at all while some place does. A ledger
that starts balanced stays so when an object is created in a place, when a place that may
rely on an object takes another share of it, when shares move, and when a share is released
and the object is freed with its last share.
-/

namespace Resource

variable {ι ω : Type*} [Fintype ι] [DecidableEq ω]

structure Ledger (ι ω : Type*) where
  held : ι → List ω
  allocated : ω → Prop
  freed : List ω

namespace Ledger

/-- How many shares of the object are held, in all places together. -/
def holders (l : Ledger ι ω) (o : ω) : ℕ := ∑ i, (l.held i).count o

/-- An object is freed once nobody holds it, and only then. -/
structure Balanced (l : Ledger ι ω) : Prop where
  unallocated : ∀ o, ¬ l.allocated o → l.holders o = 0 ∧ l.freed.count o = 0
  allocated : ∀ o, l.allocated o → l.freed.count o = if l.holders o = 0 then 1 else 0

section Holders

variable {l l' : Ledger ι ω} {i j : ι} {o : ω}

theorem holders_of_place [DecidableEq ι] (l l' : Ledger ι ω)
    (h : ∀ k, k ≠ i → l'.held k = l.held k) (o : ω) :
    l'.holders o + (l.held i).count o = l.holders o + (l'.held i).count o := by
  have hrest : ∑ k ∈ Finset.univ \ {i}, (l'.held k).count o =
      ∑ k ∈ Finset.univ \ {i}, (l.held k).count o := by
    refine Finset.sum_congr rfl fun k hk => ?_
    rw [h k (by simpa using hk)]
  have hsplit (l : Ledger ι ω) : l.holders o =
      (l.held i).count o + ∑ k ∈ Finset.univ \ {i}, (l.held k).count o :=
    Finset.sum_eq_add_sum_sdiff_singleton_of_mem (Finset.mem_univ i) _
  rw [hsplit l, hsplit l', hrest]
  omega

/-- Two places hold something else. -/
theorem holders_of_two_places [DecidableEq ι] (l l' : Ledger ι ω) (hij : j ≠ i)
    (h : ∀ k, k ≠ i → k ≠ j → l'.held k = l.held k) (o : ω) :
    l'.holders o + (l.held i).count o + (l.held j).count o =
      l.holders o + (l'.held i).count o + (l'.held j).count o := by
  let middle : Ledger ι ω := { l with held := Function.update l.held i (l'.held i) }
  have hi : middle.held i = l'.held i := Function.update_self ..
  have hj : middle.held j = l.held j := Function.update_of_ne hij ..
  have hfirst := holders_of_place l middle (i := i)
    (fun k hk => Function.update_of_ne hk ..) o
  have hsecond := holders_of_place middle l' (i := j) (fun k hk => by
    by_cases hki : k = i
    · subst hki
      exact hi.symm
    · exact (h k hki hk).trans (Function.update_of_ne hki ..).symm) o
  rw [hi] at hfirst
  rw [hj] at hsecond
  omega

theorem count_le_holders (l : Ledger ι ω) (i : ι) (o : ω) : (l.held i).count o ≤ l.holders o :=
  Finset.single_le_sum (f := fun k => (l.held k).count o) (fun _ _ => Nat.zero_le _)
    (Finset.mem_univ i)

theorem holders_pos_of_mem (h : o ∈ l.held i) : 0 < l.holders o :=
  (List.count_pos_iff.mpr h).trans_le (l.count_le_holders i o)

theorem holders_of_gain {l l' : Ledger ι ω}
    (h : ∀ o', l'.holders o' = l.holders o' + [o].count o') :
    l'.holders o = l.holders o + 1 ∧ ∀ o', o' ≠ o → l'.holders o' = l.holders o' := by
  refine ⟨?_, fun o' ho' => ?_⟩
  · rw [h, List.count_singleton_self]
  · rw [h, List.count_eq_zero.mpr (by simpa using ho'), Nat.add_zero]

theorem holders_of_loss {l l' : Ledger ι ω}
    (h : ∀ o', l'.holders o' + [o].count o' = l.holders o') :
    l'.holders o + 1 = l.holders o ∧ ∀ o', o' ≠ o → l'.holders o' = l.holders o' := by
  obtain ⟨hone, hothers⟩ := holders_of_gain fun o' => (h o').symm
  exact ⟨hone.symm, fun o' ho' => (hothers o' ho').symm⟩

end Holders

namespace Balanced

variable {l l' : Ledger ι ω} {o : ω}

theorem live (hl : l.Balanced) (ho : 0 < l.holders o) : l.allocated o ∧ o ∉ l.freed := by
  have hallocated : l.allocated o := by
    by_contra hnot
    exact absurd (hl.unallocated o hnot).1 ho.ne'
  refine ⟨hallocated, List.count_eq_zero.mp ?_⟩
  rw [hl.allocated o hallocated, if_neg ho.ne']

/-- Only the number of holders matters. -/
theorem congr (hl : l.Balanced) (hallocated : l'.allocated = l.allocated)
    (hfreed : l'.freed = l.freed) (hholders : ∀ o, l'.holders o = l.holders o) : l'.Balanced where
  unallocated := fun o ho => by
    rw [hholders, hfreed]
    exact hl.unallocated o (hallocated ▸ ho)
  allocated := fun o ho => by
    rw [hholders, hfreed]
    exact hl.allocated o (hallocated ▸ ho)

/-- A new object has one holder. -/
theorem create (hl : l.Balanced) (ho : ¬ l.allocated o) (hfreed : l'.freed = l.freed)
    (hallocated : ∀ o', l'.allocated o' ↔ l.allocated o' ∨ o' = o) (hone : l'.holders o = 1)
    (hothers : ∀ o', o' ≠ o → l'.holders o' = l.holders o') : l'.Balanced where
  unallocated := fun o' ho' => by
    rw [hallocated, not_or] at ho'
    rw [hothers o' ho'.2, hfreed]
    exact hl.unallocated o' ho'.1
  allocated := fun o' ho' => by
    rw [hfreed]
    by_cases hsame : o' = o
    · subst hsame
      rw [hone, (hl.unallocated o' ho).2]
      rfl
    · rw [hothers o' hsame]
      exact hl.allocated o' (((hallocated o').mp ho').resolve_right hsame)

/-- An object that is held gets another holder. -/
theorem share (hl : l.Balanced) (ho : 0 < l.holders o) (hallocated : l'.allocated = l.allocated)
    (hfreed : l'.freed = l.freed) (hmore : l'.holders o = l.holders o + 1)
    (hothers : ∀ o', o' ≠ o → l'.holders o' = l.holders o') : l'.Balanced where
  unallocated := fun o' ho' => by
    have hsame : o' ≠ o := by
      rintro rfl
      exact ho' (hallocated ▸ (hl.live ho).1)
    rw [hothers o' hsame, hfreed]
    exact hl.unallocated o' (hallocated ▸ ho')
  allocated := fun o' ho' => by
    rw [hfreed]
    by_cases hsame : o' = o
    · subst hsame
      rw [hl.allocated o' (hallocated ▸ ho'), hmore, if_neg ho.ne', if_neg (Nat.succ_ne_zero _)]
    · rw [hothers o' hsame]
      exact hl.allocated o' (hallocated ▸ ho')

/-- A holder lets go of an object, and the last one frees it. -/
theorem release (hl : l.Balanced) (hallocated : l'.allocated = l.allocated)
    (hfreed : l'.freed = if l'.holders o = 0 then l.freed ++ [o] else l.freed)
    (hless : l'.holders o + 1 = l.holders o)
    (hothers : ∀ o', o' ≠ o → l'.holders o' = l.holders o') : l'.Balanced := by
  have hcount {o' : ω} (hsame : o' ≠ o) : l'.freed.count o' = l.freed.count o' := by
    rw [hfreed]
    split_ifs
    · have hnone : [o].count o' = 0 := List.count_eq_zero.mpr (by simpa using hsame)
      rw [List.count_append, hnone, Nat.add_zero]
    · rfl
  have hlive := hl.live (o := o) (by omega)
  refine ⟨fun o' ho' => ?_, fun o' ho' => ?_⟩
  · have hsame : o' ≠ o := by
      rintro rfl
      exact ho' (hallocated ▸ hlive.1)
    rw [hothers o' hsame, hcount hsame]
    exact hl.unallocated o' (hallocated ▸ ho')
  · by_cases hsame : o' = o
    · subst hsame
      rw [hfreed]
      split_ifs
      · rw [List.count_append, List.count_eq_zero.mpr hlive.2, List.count_singleton_self]
      · exact List.count_eq_zero.mpr hlive.2
    · rw [hcount hsame, hothers o' hsame]
      exact hl.allocated o' (hallocated ▸ ho')

end Balanced

end Ledger

end Resource
