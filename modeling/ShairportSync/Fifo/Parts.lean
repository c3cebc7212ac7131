import Mathlib.Algebra.Order.Ring.Nat
import ShairportSync.Fifo.Window

/-!
# The contiguous parts of a window

A ring that is kept in bytes is given out in at most two parts that do not wrap round. If its size
and its pointers are multiples of the size of a unit, the parts hold as many units as the whole, and
each of them begins where the one before it ends.
-/

namespace Fifo

/-- A contiguous part: where it starts, and how long it is. -/
structure Part where
  start : ℕ
  len : ℕ
deriving DecidableEq

/-- The parts of `n` bytes from `pos` on in a ring of `size` bytes. -/
def parts (size pos n : ℕ) : List Part :=
  [⟨pos % size, min n (size - pos % size)⟩, ⟨0, n - min n (size - pos % size)⟩]

def Part.units (unit : ℕ) (p : Part) : Part := ⟨p.start / unit, p.len / unit⟩

/-- The part begins at a position of a ring and does not wrap round, if there is anything in it. -/
def Part.At (cap pos : ℕ) (p : Part) : Prop :=
  p.len = 0 ∨ p.start = pos % cap ∧ p.start + p.len ≤ cap

/-- The parts are those of `n` cells from `pos` on, one behind the other. -/
def Layout (cap : ℕ) : ℕ → ℕ → List Part → Prop
  | _, n, [] => n = 0
  | pos, n, p :: ps => p.At cap pos ∧ p.len ≤ n ∧ Layout cap (pos + p.len) (n - p.len) ps

/-- The parts are those of cells from `pos` on that go no further than to `bound`. -/
def Free (cap bound pos : ℕ) (ps : List Part) : Prop := ∃ n, pos + n ≤ bound ∧ Layout cap pos n ps

def Part.read {α : Type*} (cells : ℕ → α) (p : Part) (n : ℕ) : List α :=
  (List.range n).map fun i => cells (p.start + i)

section Layout

variable {α : Type*} {cells : ℕ → α} {cap bound pos n : ℕ} {p : Part} {ps : List Part}

@[simp] theorem length_read (cells : ℕ → α) (p : Part) (n : ℕ) : (p.read cells n).length = n := by
  rw [Part.read, List.length_map, List.length_range]

theorem layout_nil_iff : Layout cap pos n [] ↔ n = 0 := Iff.rfl

theorem Part.At.read_eq (h : p.At cap pos) (hn : n ≤ p.len) :
    p.read cells n = window cells cap pos n := by
  rcases h with hnone | ⟨hstart, hfits⟩
  · obtain rfl : n = 0 := by omega
    rfl
  · rw [← window_mod, ← hstart, window_of_fits (by omega)]
    rfl

theorem Layout.tail (h : Layout cap pos n (p :: ps)) :
    Layout cap (pos + p.len) (n - p.len) ps := h.2.2

theorem Free.mono {bound' : ℕ} (h : Free cap bound pos ps) (hle : bound ≤ bound') :
    Free cap bound' pos ps :=
  h.imp fun _ hfree => ⟨hfree.1.trans hle, hfree.2⟩

theorem Free.tail (h : Free cap bound pos (p :: ps)) : Free cap bound (pos + p.len) ps := by
  obtain ⟨n, hbound, hpart, hle, hrest⟩ := h
  exact ⟨n - p.len, by omega, hrest⟩

theorem Free.head (h : Free cap bound pos (p :: ps)) : p.At cap pos ∧ pos + p.len ≤ bound := by
  obtain ⟨n, hbound, hpart, hle, -⟩ := h
  exact ⟨hpart, by omega⟩

theorem Part.At.cell_ne {start k i j : ℕ} (h : p.At cap pos) (hpos : pos = start + n)
    (hfree : n + k ≤ cap) (hk : k ≤ p.len) (hi : i < k) (hj : j < n) :
    p.start + i < cap ∧ (start + j) % cap ≠ p.start + i := by
  rcases h with hnone | ⟨hstart, hfits⟩
  · omega
  · have hbehind : p.start = (start % cap + n) % cap := by rw [Nat.mod_add_mod, ← hpos, hstart]
    have houtside := cell_outside (Nat.mod_lt _ (by omega)) hbehind hfree hj
    rw [Nat.mod_add_mod] at houtside
    omega

/-- What is written into a part behind the window is there, and leaves the window as it is. -/
theorem Part.At.window_write {start m : ℕ} {xs : List α} (h : p.At cap pos)
    (hpos : pos = start + n) (hfree : n + xs.length ≤ cap) (hxs : xs.length ≤ p.len)
    (hm : m ≤ n) :
    window (write cells p.start xs) cap start m = window cells cap start m ∧
      window (write cells p.start xs) cap pos xs.length = xs := by
  rcases Nat.eq_zero_or_pos xs.length with hnil | hlength
  · rw [List.length_eq_zero_iff] at hnil
    rw [hnil, write_nil]
    exact ⟨rfl, rfl⟩
  · rcases h with hnone | ⟨hstart, hfits⟩
    · omega
    · have hcap : 0 < cap := by omega
      have hbehind : p.start = (start % cap + n) % cap := by rw [Nat.mod_add_mod, ← hpos, hstart]
      refine ⟨window_congr fun j hj => ?_, ?_⟩
      · have houtside := cell_outside (Nat.mod_lt start hcap) hbehind hfree (hj.trans_le hm)
        rw [Nat.mod_add_mod] at houtside
        exact houtside.elim write_of_lt write_of_le
      · rw [← window_mod, ← hstart]
        exact window_write_self (by omega)

theorem add_sub_mod_self (hcap : 0 < cap) (pos : ℕ) : (pos + (cap - pos % cap)) % cap = 0 := by
  have hlt := Nat.mod_lt pos hcap
  have hdiv := Nat.div_add_mod pos cap
  have hround : pos + (cap - pos % cap) = cap * (pos / cap) + cap := by omega
  rw [hround, ← Nat.mul_succ, Nat.mul_mod_right]

theorem layout_parts (hn : n ≤ cap) : Layout cap pos n (parts cap pos n) := by
  rcases Nat.eq_zero_or_pos cap with rfl | hcap
  · obtain rfl : n = 0 := Nat.le_zero.1 hn
    exact ⟨.inl (Nat.zero_min _), Nat.min_le_left _ _, .inl rfl, Nat.zero_le _, rfl⟩
  · have hlt := Nat.mod_lt pos hcap
    refine ⟨.inr ⟨rfl, ?_⟩, Nat.min_le_left _ _, ?_, le_rfl, Nat.sub_self _⟩
    · change pos % cap + min n (cap - pos % cap) ≤ cap
      omega
    · rcases Nat.le_total n (cap - pos % cap) with hle | hle
      · refine .inl ?_
        change n - min n (cap - pos % cap) = 0
        omega
      · refine .inr ⟨?_, ?_⟩
        · change 0 = (pos + min n (cap - pos % cap)) % cap
          rw [Nat.min_eq_right hle, add_sub_mod_self hcap]
        · change 0 + (n - min n (cap - pos % cap)) ≤ cap
          omega

theorem min_mul_div {unit : ℕ} (hunit : 0 < unit) (n m : ℕ) :
    min n (unit * m) / unit = min (n / unit) m := by
  rcases Nat.le_total n (unit * m) with hle | hle
  · have hdiv : n / unit ≤ m := Nat.div_le_of_le_mul hle
    rw [Nat.min_eq_left hle, Nat.min_eq_left hdiv]
  · have hdiv : m ≤ n / unit := (Nat.le_div_iff_mul_le hunit).2 (Nat.mul_comm unit m ▸ hle)
    rw [Nat.min_eq_right hle, Nat.min_eq_right hdiv, Nat.mul_div_cancel_left m hunit]

theorem map_units_parts {unit : ℕ} (hunit : 0 < unit) (cap pos n : ℕ) :
    (parts (unit * cap) (unit * pos) n).map (Part.units unit) = parts cap pos (n / unit) := by
  have hroom : unit * cap - unit * (pos % cap) = unit * (cap - pos % cap) :=
    (Nat.mul_sub _ _ _).symm
  have hrest : (n - min n (unit * (cap - pos % cap))) / unit =
      n / unit - min (n / unit) (cap - pos % cap) := by
    rcases Nat.le_total n (unit * (cap - pos % cap)) with hle | hle
    · rw [Nat.min_eq_left hle, Nat.min_eq_left (Nat.div_le_of_le_mul hle), Nat.sub_self,
        Nat.zero_div, Nat.sub_self]
    · rw [← min_mul_div hunit, Nat.min_eq_right hle, Nat.mul_div_cancel_left _ hunit,
        Nat.sub_mul_div]
  simp only [parts, List.map_cons, List.map_nil, Part.units, Nat.mul_mod_mul_left, hroom, hrest,
    min_mul_div hunit, Nat.mul_div_cancel_left _ hunit, Nat.zero_div]

theorem layout_units_parts {unit size : ℕ} (hsize : unit ∣ size ∨ size < unit) (hpos : unit ∣ pos)
    (hn : n ≤ size) :
    Layout (size / unit) (pos / unit) (n / unit) ((parts size pos n).map (Part.units unit)) := by
  rcases Nat.eq_zero_or_pos unit with rfl | hunit
  · simp only [Nat.div_zero, parts, List.map_cons, List.map_nil, Part.units]
    exact ⟨.inl rfl, le_rfl, .inl rfl, le_rfl, rfl⟩
  · rcases hsize with ⟨cap, rfl⟩ | hless
    · obtain ⟨m, rfl⟩ := hpos
      rw [map_units_parts hunit, Nat.mul_div_cancel_left _ hunit, Nat.mul_div_cancel_left _ hunit]
      exact layout_parts (Nat.div_le_of_le_mul hn)
    · have hnone : ∀ m, m ≤ n → m / unit = 0 := fun m hm => Nat.div_eq_of_lt (by omega)
      have hfirst := hnone _ (Nat.min_le_left n (size - pos % size))
      have hrest := hnone _ (Nat.sub_le n (min n (size - pos % size)))
      refine ⟨.inl hfirst, hfirst.le.trans (Nat.zero_le _), .inl hrest,
        hrest.le.trans (Nat.zero_le _), ?_⟩
      change n / unit - min n (size - pos % size) / unit -
        (n - min n (size - pos % size)) / unit = 0
      rw [hnone n le_rfl, Nat.zero_sub, Nat.zero_sub]

end Layout

end Fifo
