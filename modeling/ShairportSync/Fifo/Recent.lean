import Mathlib.Data.List.DropRight
import ShairportSync.Fifo.Window

/-!
# The last entries of a history

A circular array in which new entries are put behind the others, and the oldest one is given up when
there is no room, holds the entries that have come last, in their order. It is kept by the place of
the oldest entry, the place for the next one, and the number of the entries.
-/

namespace Fifo

variable {α : Type*} {cells : ℕ → α} {cap oldest newest number : ℕ} {history : List α}

/-- The window holds the last entries of the history. -/
structure Recent (cap : ℕ) (cells : ℕ → α) (oldest newest number : ℕ) (history : List α) :
    Prop where
  oldest_lt : oldest < cap
  newest_eq : newest = (oldest + number) % cap
  window_eq : window cells cap oldest number = history.rtake number

theorem recent_nil (cells : ℕ → α) (hcap : 0 < cap) : Recent cap cells 0 0 0 [] where
  oldest_lt := hcap
  newest_eq := (Nat.zero_mod cap).symm
  window_eq := rfl

theorem Recent.number_le (h : Recent cap cells oldest newest number history) :
    number ≤ history.length := by
  have hlength := congrArg List.length h.window_eq
  rw [length_window, List.rtake, List.length_drop] at hlength
  omega

theorem Recent.rtake_succ (h : Recent cap cells oldest newest (number + 1) history) :
    history.rtake (number + 1) = cells oldest :: history.rtake number := by
  have hle := h.number_le
  have hwindow := h.window_eq
  rw [window_succ, Nat.mod_eq_of_lt h.oldest_lt] at hwindow
  have hrest : history.rtake number = (history.rtake (number + 1)).drop 1 := by
    have hone : history.length - (number + 1) + 1 = history.length - number := by omega
    rw [List.rtake, List.rtake, List.drop_drop, hone]
  rw [hrest, ← hwindow]
  rfl

/-- Giving up the oldest entry. -/
theorem Recent.evict (h : Recent cap cells oldest newest (number + 1) history) :
    Recent cap cells ((oldest + 1) % cap) newest number history where
  oldest_lt := Nat.mod_lt _ ((Nat.zero_le oldest).trans_lt h.oldest_lt)
  newest_eq := by
    rw [h.newest_eq, Nat.mod_add_mod, Nat.add_right_comm, Nat.add_assoc]
  window_eq := by
    have hwindow := h.window_eq
    rw [window_succ, h.rtake_succ, Nat.mod_eq_of_lt h.oldest_lt] at hwindow
    exact (List.cons.inj hwindow).2

/-- Putting an entry behind the others, if there is room. -/
theorem Recent.push (h : Recent cap cells oldest newest number history) (hroom : number < cap)
    (x : α) :
    Recent cap (Function.update cells newest x) oldest ((newest + 1) % cap) (number + 1)
      (history ++ [x]) where
  oldest_lt := h.oldest_lt
  newest_eq := by
    rw [h.newest_eq, Nat.mod_add_mod, Nat.add_assoc]
  window_eq := by
    have hcap : 0 < cap := (Nat.zero_le number).trans_lt hroom
    have hnewest : newest < cap := by
      rw [h.newest_eq]
      exact Nat.mod_lt _ hcap
    have hwrite : Function.update cells newest x = write cells newest [x] := by
      funext i
      rcases Nat.lt_trichotomy i newest with hlt | rfl | hgt
      · rw [Function.update_of_ne hlt.ne, write_of_lt hlt]
      · have hself : write cells i [x] (i + 0) = [x][0] := write_add i Nat.zero_lt_one
        rw [Function.update_self]
        exact hself.symm
      · rw [Function.update_of_ne hgt.ne', write_of_le hgt]
    have hpos : newest % cap = (oldest + number) % cap := by rw [h.newest_eq, Nat.mod_mod]
    have happend : window (write cells newest [x]) cap oldest (number + [x].length) =
        window cells cap oldest number ++ [x] := window_write_append hcap hpos hnewest hroom
    rw [List.rtake_concat_succ, hwrite, ← h.window_eq]
    exact happend

end Fifo
