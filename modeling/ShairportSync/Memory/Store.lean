import Mathlib.Algebra.Order.Ring.Int
import Mathlib.Data.List.GetD

/-!
# Storing bytes in memory

A memory has a value at every address, also before and behind the array that an address is counted
from. `store` puts a list of values at an address, and `Holds` says that the array begins with a
list of values. A write is inside the array if its first and its last address are.
-/

namespace Memory

variable {β : Type*}

def store (memory : Int → β) (p : Int) (values : List β) (i : Int) : β :=
  if p ≤ i then values.getD (i - p).toNat (memory i) else memory i

/-- The array begins with these values. -/
def Holds (memory : Int → β) (out : List β) : Prop :=
  ∀ (k : ℕ) (hk : k < out.length), memory k = out[k]

/-- A number of values is written from an address on. -/
structure Write where
  first : Int
  count : ℕ
deriving DecidableEq

def Write.Inside (size : ℕ) (w : Write) : Prop := 0 ≤ w.first ∧ w.first + w.count ≤ size

abbrev Read := Write

section Store

variable {memory : Int → β} {p i : Int} {out values : List β}

theorem store_of_lt (hi : i < p) : store memory p values i = memory i :=
  if_neg (not_le.mpr hi)

theorem store_add {k : ℕ} (hk : k < values.length) :
    store memory p values (p + k) = values[k] := by
  rw [store, if_pos (by omega), add_sub_cancel_left, Int.toNat_natCast,
    List.getD_eq_getElem _ _ hk]

theorem store_zero {k : ℕ} (hk : k < values.length) : store memory 0 values k = values[k] := by
  have hstored : store memory 0 values (0 + (k : ℕ)) = values[k] := store_add hk
  rwa [zero_add] at hstored

theorem holds_nil (memory : Int → β) : Holds memory [] := fun _ hk => absurd hk (Nat.not_lt_zero _)

theorem Holds.store (h : Holds memory out) (values : List β) :
    Holds (store memory out.length values) (out ++ values) := by
  intro k hk
  rcases Nat.lt_or_ge k out.length with hold | hnew
  · rw [store_of_lt (by omega), List.getElem_append_left hold]
    exact h k hold
  · obtain ⟨j, rfl⟩ := Nat.exists_eq_add_of_le hnew
    have hj : j < values.length := by
      rw [List.length_append] at hk
      omega
    rw [List.getElem_append_right hnew, Nat.cast_add, store_add hj]
    simp only [Nat.add_sub_cancel_left]

theorem Holds.store_one {x y : β} (h : Holds memory (out ++ x :: values)) :
    Holds (Memory.store memory out.length [y]) (out ++ y :: values) := by
  intro k hk
  have hsame : (out ++ x :: values).length = (out ++ y :: values).length := by
    simp only [List.length_append, List.length_cons]
  rcases lt_trichotomy k out.length with hlt | rfl | hgt
  · rw [store_of_lt (by omega), h k (by rw [hsame]; exact hk), List.getElem_append_left hlt,
      List.getElem_append_left hlt]
  · have hstored : Memory.store memory (out.length : Int) [y] (out.length + (0 : ℕ)) = y :=
      store_add (by simp)
    rw [Nat.cast_zero, add_zero] at hstored
    rw [hstored, List.getElem_append_right le_rfl]
    simp
  · have hbehind : ¬ ((k : Int) - out.length).toNat < [y].length := by
      simp only [List.length_singleton]
      omega
    rw [Memory.store, if_pos (by omega), List.getD_eq_default _ _ (not_lt.mp hbehind),
      h k (by rw [hsame]; exact hk), List.getElem_append_right hgt.le,
      List.getElem_append_right hgt.le]
    obtain ⟨j, hj⟩ := Nat.exists_eq_add_of_lt hgt
    simp only [hj, show out.length + j + 1 - out.length = j + 1 by omega, List.getElem_cons_succ]

theorem Holds.left (h : Holds memory (out ++ values)) : Holds memory out := by
  intro k hk
  rw [h k (by rw [List.length_append]; omega), List.getElem_append_left hk]

theorem Holds.read (h : Holds memory out) :
    ((List.range out.length).map fun k => memory (k : ℕ)) = out := by
  refine List.ext_getElem (by simp) fun k hk hk' => ?_
  rw [List.getElem_map, List.getElem_range]
  exact h k hk'

end Store

end Memory
