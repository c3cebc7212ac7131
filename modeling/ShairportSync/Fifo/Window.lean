import Mathlib.Data.List.GetD
import Mathlib.Data.Nat.Notation
import Mathlib.Tactic.Attr.Core

/-!
# A queue in a circular array

The contents of a queue in an array of `cap` cells are a window: `n` cells one after the
other from a start, wrapping round at the end of the array. The cells outside the window
may hold anything. What is written just behind the window leaves it as it is, as long as
it fits in what is free; moving the end of the window forward then appends what was
written, and moving the start forward drops what has been read.
-/

namespace Fifo

variable {α : Type*}

/-- The `n` cells from `start` on, wrapping round after `cap`. -/
def window (cells : ℕ → α) (cap start n : ℕ) : List α :=
  (List.range n).map fun i => cells ((start + i) % cap)

/-- The cells after the elements of `xs` have been written from `pos` on. -/
def write (cells : ℕ → α) (pos : ℕ) (xs : List α) : ℕ → α := fun i =>
  if pos ≤ i then xs.getD (i - pos) (cells i) else cells i

section Window

variable (cells : ℕ → α) (cap start : ℕ)

@[simp] theorem window_zero : window cells cap start 0 = [] := rfl

@[simp] theorem length_window (n : ℕ) : (window cells cap start n).length = n := by
  rw [window, List.length_map, List.length_range]

theorem window_add (m n : ℕ) :
    window cells cap start (m + n) =
      window cells cap start m ++ window cells cap (start + m) n := by
  rw [window, List.range_add, List.map_append, List.map_map]
  refine congrArg _ (List.map_congr_left fun i _ => ?_)
  rw [Function.comp_apply, Nat.add_assoc]

theorem window_one : window cells cap start 1 = [cells (start % cap)] := rfl

theorem window_mod (n : ℕ) : window cells cap (start % cap) n = window cells cap start n :=
  List.map_congr_left fun i _ => by rw [Nat.mod_add_mod]

theorem window_succ (n : ℕ) :
    window cells cap start (n + 1) =
      cells (start % cap) :: window cells cap ((start + 1) % cap) n := by
  rw [Nat.add_comm, window_add, window_mod]
  rfl

variable {cells cap start}

theorem window_of_fits {n : ℕ} (hfits : start + n ≤ cap) :
    window cells cap start n = (List.range n).map fun i => cells (start + i) := by
  refine List.map_congr_left fun i hi => ?_
  have hlt := List.mem_range.mp hi
  rw [Nat.mod_eq_of_lt (by omega)]

theorem window_congr {cells' : ℕ → α} {n : ℕ}
    (h : ∀ i < n, cells ((start + i) % cap) = cells' ((start + i) % cap)) :
    window cells cap start n = window cells' cap start n :=
  List.map_congr_left fun i hi => h i (List.mem_range.mp hi)

end Window

section Write

variable {cells : ℕ → α} {cap start pos n : ℕ} {xs : List α}

theorem write_of_lt {i : ℕ} (hi : i < pos) : write cells pos xs i = cells i :=
  if_neg (Nat.not_le.mpr hi)

theorem write_of_le {i : ℕ} (hi : pos + xs.length ≤ i) : write cells pos xs i = cells i := by
  rw [write, if_pos (by omega), List.getD_eq_default _ _ (by omega)]

theorem write_add (pos : ℕ) {i : ℕ} (hi : i < xs.length) :
    write cells pos xs (pos + i) = xs[i] := by
  rw [write, if_pos (Nat.le_add_right pos i), Nat.add_sub_cancel_left,
    List.getD_eq_getElem _ _ hi]

theorem window_write_self (hfits : pos + xs.length ≤ cap) :
    window (write cells pos xs) cap pos xs.length = xs := by
  refine List.ext_getElem (length_window _ _ _ _) fun i _ hi => ?_
  simp only [window, List.getElem_map, List.getElem_range]
  rw [Nat.mod_eq_of_lt (by omega), write_add pos hi]

theorem cell_outside {i k : ℕ} (hstart : start < cap) (hpos : pos = (start + n) % cap)
    (hfree : n + k ≤ cap) (hi : i < n) :
    (start + i) % cap < pos ∨ pos + k ≤ (start + i) % cap := by
  rcases Nat.lt_or_ge (start + i) cap with hi' | hi'
  · rw [Nat.mod_eq_of_lt hi']
    rcases Nat.lt_or_ge (start + n) cap with hn | hn
    · rw [Nat.mod_eq_of_lt hn] at hpos
      omega
    · rw [Nat.mod_eq_sub_mod hn, Nat.mod_eq_of_lt (by omega)] at hpos
      omega
  · rw [Nat.mod_eq_sub_mod hi', Nat.mod_eq_of_lt (by omega)]
    rw [Nat.mod_eq_sub_mod (by omega)] at hpos
    rcases Nat.lt_or_ge (start + n - cap) cap with hn | hn
    · rw [Nat.mod_eq_of_lt hn] at hpos
      omega
    · omega

/-- A write just behind the window, into cells that are free, leaves the window as it is. -/
theorem window_write (hstart : start < cap) (hpos : pos = (start + n) % cap)
    (hfree : n + xs.length ≤ cap) :
    window (write cells pos xs) cap start n = window cells cap start n :=
  window_congr fun _ hi => (cell_outside hstart hpos hfree hi).elim write_of_lt write_of_le

theorem write_nil (cells : ℕ → α) (pos : ℕ) : write cells pos [] = cells :=
  funext fun _ => ite_self _

theorem write_write (cells : ℕ → α) (start : ℕ) (left right : List α) :
    write (write cells start left) (start + left.length) right =
      write cells start (left ++ right) := by
  funext i
  by_cases hi : start ≤ i
  · obtain ⟨j, rfl⟩ := Nat.exists_eq_add_of_le hi
    by_cases hj : j < left.length
    · rw [write_of_lt (by omega), write_add start hj,
        write_add start (by rw [List.length_append]; omega), List.getElem_append_left hj]
    · by_cases hj' : j < left.length + right.length
      · have hsplit : start + j = start + left.length + (j - left.length) := by omega
        rw [write_add start (by rw [List.length_append]; omega),
          List.getElem_append_right (by omega), hsplit, write_add _ (by omega)]
      · rw [write_of_le (by omega), write_of_le (by omega),
          write_of_le (by rw [List.length_append]; omega)]
  · rw [write_of_lt (by omega), write_of_lt (by omega), write_of_lt (by omega)]

/-- Writes of equal length, one just behind the other, are one write of them all. -/
theorem write_flatMap {β : Type*} {result : ℕ → ℕ → α} {xs : List β} {f : β → List α} {c : ℕ}
    (hlength : ∀ x ∈ xs, (f x).length = c)
    (hstep : ∀ (n : ℕ) (hn : n < xs.length),
      result (n + 1) = write (result n) (n * c) (f xs[n])) :
    result xs.length = write (result 0) 0 (xs.flatMap f) := by
  have hfirst : ∀ n ≤ xs.length, ((xs.take n).flatMap f).length = n * c ∧
      result n = write (result 0) 0 ((xs.take n).flatMap f) := by
    intro n
    induction n with
    | zero => exact fun _ => ⟨by simp, by simp [write_nil]⟩
    | succ n ih =>
        intro hn
        obtain ⟨hlen, hresult⟩ := ih (by omega)
        rw [List.take_succ_eq_append_getElem hn, List.flatMap_append, List.flatMap_singleton]
        constructor
        · rw [List.length_append, hlen, hlength _ (List.getElem_mem hn), Nat.succ_mul]
        · have hwrite := write_write (result 0) 0 ((xs.take n).flatMap f) (f xs[n])
          rw [Nat.zero_add, hlen, ← hresult] at hwrite
          rw [hstep n hn, hwrite]
  have hall := (hfirst xs.length (Nat.le_refl _)).2
  rwa [List.take_length] at hall

theorem window_write_append (hcap : 0 < cap) (hpos : pos % cap = (start + n) % cap)
    (hfits : pos + xs.length ≤ cap) (hfree : n + xs.length ≤ cap) :
    window (write cells pos xs) cap start (n + xs.length) = window cells cap start n ++ xs := by
  by_cases hnil : xs = []
  · rw [hnil, write_nil, List.length_nil, Nat.add_zero, List.append_nil]
  · have hlength := List.length_pos_iff.mpr hnil
    rw [Nat.mod_eq_of_lt (by omega)] at hpos
    have hbehind : pos = (start % cap + n) % cap := by rw [Nat.mod_add_mod, hpos]
    rw [window_add, ← window_mod _ _ start, window_write (Nat.mod_lt start hcap) hbehind hfree,
      window_mod, ← window_mod _ _ (start + n), ← hpos, window_write_self hfits]

end Write

end Fifo
