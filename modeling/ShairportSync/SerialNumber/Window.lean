import Mathlib.Data.BitVec
import Mathlib.Tactic.Ring

/-!
# Serial numbers and windows

A serial number of width `w` is a `BitVec w` counted around the circle of `2 ^ w`
numbers. `distance r q` is the number of forward steps from `r` to `q`, and
`Between r t q` says that `q` lies in the window that starts at `r` and stops just
before `t`. A window is moved one number at a time, at its end
(`between_add_one_right`) or at its start (`between_add_one_left`).
-/

namespace SerialNumber

variable {w : ℕ}

/-- The number of forward steps from `r` to `q` around the circle. -/
def distance (r q : BitVec w) : ℕ := (q - r).toNat

/-- The number `q` lies in the window `[r, t)`. -/
def Between (r t q : BitVec w) : Prop := distance r q < distance r t

instance (r t q : BitVec w) : Decidable (Between r t q) :=
  inferInstanceAs (Decidable (_ < _))

theorem distance_lt (r q : BitVec w) : distance r q < 2 ^ w := (q - r).isLt

@[simp] theorem distance_self (r : BitVec w) : distance r r = 0 := by
  simp [distance]

theorem distance_injective {r p q : BitVec w} (h : distance r p = distance r q) :
    p = q := by
  have hsub : p - r = q - r := BitVec.eq_of_toNat_eq h
  rw [← BitVec.sub_add_cancel p r, hsub, BitVec.sub_add_cancel]

theorem distance_eq_zero_iff {r q : BitVec w} : distance r q = 0 ↔ q = r := by
  constructor
  · intro h
    exact distance_injective (r := r) (by rw [h, distance_self])
  · rintro rfl
    exact distance_self q

theorem distance_pos_iff {r q : BitVec w} : 0 < distance r q ↔ q ≠ r := by
  rw [Nat.pos_iff_ne_zero, ne_eq, distance_eq_zero_iff]

theorem toNat_eq_add_distance (r q : BitVec w) :
    q.toNat = (r.toNat + distance r q) % 2 ^ w := by
  have h : r + (q - r) = q := by ring
  calc q.toNat = (r + (q - r)).toNat := by rw [h]
    _ = (r.toNat + distance r q) % 2 ^ w := BitVec.toNat_add r (q - r)

theorem add_ofNat_distance (r q : BitVec w) : r + BitVec.ofNat w (distance r q) = q := by
  rw [distance, BitVec.ofNat_toNat, BitVec.setWidth_eq]
  ring

theorem distance_add_ofNat (r : BitVec w) {n : ℕ} (hn : n < 2 ^ w) :
    distance r (r + BitVec.ofNat w n) = n := by
  have hsub : r + BitVec.ofNat w n - r = BitVec.ofNat w n := by ring
  rw [distance, hsub, BitVec.toNat_ofNat, Nat.mod_eq_of_lt hn]

theorem distance_add {r t q : BitVec w} (h : distance r t + distance t q < 2 ^ w) :
    distance r q = distance r t + distance t q := by
  have hsub : q - r = (t - r) + (q - t) := by ring
  calc distance r q = ((t - r) + (q - t)).toNat := by rw [distance, hsub]
    _ = distance r t + distance t q := BitVec.toNat_add_of_lt h

theorem distance_add_of_le {r t q : BitVec w} (h : distance r t ≤ distance r q) :
    distance r t + distance t q = distance r q := by
  have hsub : q - t = (q - r) - (t - r) := by ring
  have hval : distance t q = distance r q - distance r t := by
    rw [distance, hsub, BitVec.toNat_sub_of_le (BitVec.le_def.mpr h), distance, distance]
  omega

theorem distance_add_swap {r q : BitVec w} (h : q ≠ r) : distance r q + distance q r = 2 ^ w := by
  have hneg : r - q = -(q - r) := by ring
  have hpos : 0 < (q - r).toNat := distance_pos_iff.mpr h
  have hlt := (q - r).isLt
  rw [distance, distance, hneg, BitVec.toNat_neg, Nat.mod_eq_of_lt (by omega)]
  omega

theorem distance_add_right (r q c : BitVec w) : distance (r + c) (q + c) = distance r q := by
  have h : q + c - (r + c) = q - r := by ring
  rw [distance, h, distance]

theorem toNat_one_of_lt {n : ℕ} (h : n + 1 < 2 ^ w) : (1#w).toNat = 1 := by
  have hw : w ≠ 0 := by
    rintro rfl
    simp at h
  simp [Nat.pos_of_ne_zero hw]

theorem distance_add_one_right {r t : BitVec w} (h : distance r t + 1 < 2 ^ w) :
    distance r (t + 1#w) = distance r t + 1 := by
  have hone := toNat_one_of_lt h
  have hsub : t + 1#w - r = (t - r) + 1#w := by ring
  rw [distance, hsub, BitVec.toNat_add_of_lt (by rw [hone]; exact h), hone, distance]

theorem distance_add_one_left {r t : BitVec w} (h : t ≠ r) :
    distance (r + 1#w) t + 1 = distance r t := by
  have hpos : 0 < distance r t := distance_pos_iff.mpr h
  have hone : (1#w).toNat = 1 :=
    toNat_one_of_lt (n := distance r t - 1) (by have := distance_lt r t; omega)
  have hle : 1#w ≤ t - r := by
    rw [BitVec.le_def, hone]
    exact hpos
  have hsub : t - (r + 1#w) = (t - r) - 1#w := by ring
  have hval : distance (r + 1#w) t = distance r t - 1 := by
    rw [distance, hsub, BitVec.toNat_sub_of_le hle, hone, distance]
  omega

theorem distance_add_one_self (r : BitVec w) : distance (r + 1#w) r + 1 = 2 ^ w := by
  have hneg : r - (r + 1#w) = -1#w := by ring
  rw [distance, hneg]
  rcases Nat.eq_zero_or_pos w with rfl | hw
  · simp
  · have hpow : 1 < 2 ^ w := Nat.one_lt_two_pow hw.ne'
    rw [BitVec.toNat_neg, toNat_one_of_lt (n := 0) (by omega), Nat.mod_eq_of_lt (by omega)]
    omega

theorem forall_lt_distance_iff {r t : BitVec w} {p : BitVec w → Prop} :
    (∀ i < distance r t, p (r + BitVec.ofNat w i)) ↔ ∀ q, Between r t q → p q := by
  constructor
  · intro h q hq
    have := h (distance r q) hq
    rwa [add_ofNat_distance] at this
  · intro h i hi
    have hi' : i < 2 ^ w := hi.trans (distance_lt r t)
    refine h _ ?_
    rwa [Between, distance_add_ofNat r hi']

instance (r t : BitVec w) (p : BitVec w → Prop) [DecidablePred p] :
    Decidable (∀ q, Between r t q → p q) :=
  decidable_of_iff _ forall_lt_distance_iff

theorem not_between_self (r q : BitVec w) : ¬ Between r r q := by
  simp [Between]

theorem between_left {r t : BitVec w} (h : t ≠ r) : Between r t r := by
  simpa [Between] using distance_pos_iff.mpr h

theorem between_sub_one {r t : BitVec w} (h : t ≠ r) : Between r t (t - 1#w) := by
  have hpos : 0 < distance r t := distance_pos_iff.mpr h
  have hone : (1#w).toNat = 1 :=
    toNat_one_of_lt (n := distance r t - 1) (by have := distance_lt r t; omega)
  have hle : 1#w ≤ t - r := by
    rw [BitVec.le_def, hone]
    exact hpos
  have hsub : t - 1#w - r = (t - r) - 1#w := by ring
  unfold Between
  rw [distance, hsub, BitVec.toNat_sub_of_le hle, hone]
  exact Nat.sub_lt hpos Nat.one_pos

theorem Between.ne {r t q : BitVec w} (h : Between r t q) : t ≠ r := by
  rintro rfl
  exact not_between_self _ _ h

theorem not_between_right (r t : BitVec w) : ¬ Between r t t := lt_irrefl _

theorem between_add_one_right {r t q : BitVec w} (h : distance r t + 1 < 2 ^ w) :
    Between r (t + 1#w) q ↔ q = t ∨ Between r t q := by
  rw [Between, distance_add_one_right h, Nat.lt_succ_iff_lt_or_eq, or_comm]
  exact or_congr_left ⟨distance_injective, fun h => by rw [h]⟩

theorem between_add_one_left {r t q : BitVec w} (h : t ≠ r) :
    Between (r + 1#w) t q ↔ Between r t q ∧ q ≠ r := by
  have ht := distance_add_one_left h
  by_cases hq : q = r
  · subst hq
    have hlast := distance_add_one_self q
    have hlt := distance_lt (q + 1#w) t
    simp only [Between, ne_eq, not_true_eq_false, and_false, iff_false, not_lt]
    omega
  · have hq' := distance_add_one_left hq
    simp only [Between, ne_eq, hq, not_false_eq_true, and_true]
    omega

theorem between_append {r t u q : BitVec w} (h : distance r t + distance t u < 2 ^ w) :
    Between r u q ↔ Between r t q ∨ Between t u q := by
  have hru := distance_add h
  constructor
  · intro hq
    rcases lt_or_ge (distance r q) (distance r t) with hlt | hge
    · exact Or.inl hlt
    · have hadd := distance_add_of_le hge
      exact Or.inr (by unfold Between at *; omega)
  · rintro (hq | hq)
    · unfold Between at *
      omega
    · have hadd : distance r q = distance r t + distance t q :=
        distance_add (by unfold Between at hq; omega)
      unfold Between at *
      omega

theorem Between.not_between_left {r t u q : BitVec w} (h : distance r t + distance t u < 2 ^ w)
    (hq : Between t u q) : ¬ Between r t q := by
  unfold Between at *
  have hadd : distance r q = distance r t + distance t q := distance_add (by omega)
  omega

end SerialNumber
