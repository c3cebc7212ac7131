import Mathlib.Algebra.Order.BigOperators.Group.List
import Mathlib.Algebra.Order.Ring.Abs
import Mathlib.Algebra.Order.Ring.Int
import Mathlib.Algebra.Order.Ring.Nat
import Mathlib.Data.BitVec
import Mathlib.Tactic.Linarith

/-!
# Arithmetic in words

A total that is kept in a word is the sum of what has been added to it and not been taken off again,
as far as a word can hold it. It is the sum itself, if this is small enough: for words without a
sign, if the largest of them, as many times as there are words, is a word, and for a total with a
sign, if the same is so of half a word. A product can be kept from overflowing by a comparison with
a quotient, and a difference stands for an integer that may be less than zero or too large.
-/

namespace Numeric

variable {w : ℕ}

/-! ## A running total -/

section Total

variable {α : Type*} {f : α → ℤ}

def wordSum (w : ℕ) (f : α → ℤ) (xs : List α) : BitVec w := BitVec.ofInt w (xs.map f).sum

theorem wordSum_cons (x : α) (xs : List α) :
    wordSum w f (x :: xs) = BitVec.ofInt w (f x) + wordSum w f xs := by
  rw [wordSum, List.map_cons, List.sum_cons, BitVec.ofInt_add]
  rfl

theorem wordSum_concat (xs : List α) (x : α) :
    wordSum w f (xs ++ [x]) = wordSum w f xs + BitVec.ofInt w (f x) := by
  rw [wordSum, List.map_append, List.sum_append, List.map_singleton, List.sum_singleton,
    BitVec.ofInt_add]
  rfl

theorem wordSum_cons_sub (g : α → BitVec w) (x : α) (xs : List α) :
    wordSum w (fun x => (g x).toInt) (x :: xs) - g x = wordSum w (fun x => (g x).toInt) xs := by
  rw [wordSum_cons, BitVec.ofInt_toInt, add_sub_cancel_left]

theorem wordSum_add (g : α → BitVec w) (xs : List α) (x : α) :
    wordSum w (fun x => (g x).toInt) xs + g x = wordSum w (fun x => (g x).toInt) (xs ++ [x]) := by
  rw [wordSum_concat, BitVec.ofInt_toInt]

theorem toInt_wordSum (f : α → ℤ) (xs : List α) :
    (wordSum w f xs).toInt = (xs.map f).sum.bmod (2 ^ w) :=
  BitVec.toInt_ofInt _

theorem toInt_wordSum_of_abs_le {xs : List α} {b : ℤ} (h : ∀ x ∈ xs, |f x| ≤ b)
    (hfits : 2 * (xs.length * b) < 2 ^ w) : (wordSum w f xs).toInt = (xs.map f).sum := by
  have hle : (xs.map f).sum ≤ xs.length * b := by
    have hsum := List.sum_le_card_nsmul (xs.map f) b fun z hz => by
      obtain ⟨x, hx, rfl⟩ := List.mem_map.1 hz
      exact (abs_le.1 (h x hx)).2
    rw [List.length_map, nsmul_eq_mul] at hsum
    exact hsum
  have hge : -(xs.length * b) ≤ (xs.map f).sum := by
    have hsum := List.card_nsmul_le_sum (xs.map f) (-b) fun z hz => by
      obtain ⟨x, hx, rfl⟩ := List.mem_map.1 hz
      exact (abs_le.1 (h x hx)).1
    rw [List.length_map, nsmul_eq_mul, mul_neg] at hsum
    exact hsum
  rw [toInt_wordSum]
  exact Int.bmod_eq_of_le_mul_two (by push_cast; omega) (by push_cast; omega)

end Total

/-! ## Words without a sign -/

theorem toNat_sum (xs : List (BitVec w)) :
    xs.sum.toNat = (xs.map BitVec.toNat).sum % 2 ^ w := by
  induction xs with
  | nil => rfl
  | cons x xs ih =>
      rw [List.sum_cons, List.map_cons, List.sum_cons, BitVec.toNat_add, ih, Nat.add_mod_mod]

theorem toNat_sum_of_le {xs : List (BitVec w)} {b : ℕ} (h : ∀ x ∈ xs, x.toNat ≤ b)
    (hfits : xs.length * b < 2 ^ w) : xs.sum.toNat = (xs.map BitVec.toNat).sum := by
  have hle := List.sum_le_card_nsmul (xs.map BitVec.toNat) b fun n hn => by
    obtain ⟨x, hx, rfl⟩ := List.mem_map.1 hn
    exact h x hx
  rw [List.length_map, nsmul_eq_mul, Nat.cast_id] at hle
  rw [toNat_sum, Nat.mod_eq_of_lt (hle.trans_lt hfits)]

/-! ## Products -/

theorem allOnes_div_lt_iff {w : ℕ} {factor : BitVec w} (hfactor : 0 < factor.toNat) (x : BitVec w) :
    BitVec.allOnes w / factor < x ↔ 2 ^ w ≤ x.toNat * factor.toNat := by
  have hpos := Nat.two_pow_pos w
  rw [BitVec.lt_def, BitVec.toNat_udiv, BitVec.toNat_allOnes, Nat.div_lt_iff_lt_mul hfactor]
  omega

/-! ## Words that stand for integers -/

theorem sub_eq_ofInt (x y : BitVec w) : x - y = BitVec.ofInt w (x.toNat - y.toNat) := by
  rw [← BitVec.toInt_inj, BitVec.toInt_ofInt, BitVec.toInt_sub, BitVec.toInt_eq_toNat_bmod,
    BitVec.toInt_eq_toNat_bmod, Int.bmod_sub_bmod, Int.sub_bmod_bmod]

/-- The word is that of an integer that differs from the number by less than the bound. Where the
word is read as one without or with a sign, and the number is in the range of such words and not too
near to the ends of it, this reading is the integer. -/
structure Approximates (word : BitVec w) (x bound : ℚ) : Prop where
  integer : ∃ d : ℤ, word = BitVec.ofInt w d ∧ |(d : ℚ) - x| < bound
  toNat : bound ≤ x → x ≤ 2 ^ w - bound → |(word.toNat : ℚ) - x| < bound
  toInt : -2 ^ (w - 1) + bound ≤ x → x ≤ 2 ^ (w - 1) - bound → |(word.toInt : ℚ) - x| < bound

theorem approximates_ofInt {d : ℤ} {x bound : ℚ} (hw : 0 < w) (h : |(d : ℚ) - x| < bound) :
    Approximates (BitVec.ofInt w d) x bound := by
  obtain ⟨hlow, hhigh⟩ := abs_lt.1 h
  refine ⟨⟨d, rfl, h⟩, fun hge hle => ?_, fun hge hle => ?_⟩
  · have hnonneg : 0 ≤ d := by
      have hcast : (0 : ℚ) ≤ d := by linarith
      exact_mod_cast hcast
    have hlt : d < 2 ^ w := by
      have hcast : (d : ℚ) < 2 ^ w := by linarith
      exact_mod_cast hcast
    have hword : ((BitVec.ofInt w d).toNat : ℤ) = d := by
      rw [BitVec.toNat_ofInt, Int.emod_eq_of_lt hnonneg (by exact_mod_cast hlt),
        Int.toNat_of_nonneg hnonneg]
    have hcast : ((BitVec.ofInt w d).toNat : ℚ) = d := by exact_mod_cast hword
    rwa [hcast]
  · have hge : -2 ^ (w - 1) ≤ d := by
      have hcast : -(2 : ℚ) ^ (w - 1) ≤ d := by linarith
      exact_mod_cast hcast
    have hlt : d < 2 ^ (w - 1) := by
      have hcast : (d : ℚ) < 2 ^ (w - 1) := by linarith
      exact_mod_cast hcast
    rwa [BitVec.toInt_ofInt_eq_self hw hge hlt]

end Numeric
