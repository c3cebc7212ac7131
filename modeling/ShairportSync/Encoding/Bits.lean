import Mathlib.Data.BitVec
import Mathlib.Data.List.GetD
import Mathlib.Tactic.Ring

/-!
# Bit strings in a memory

A number is written with a fixed number of bits, the highest first. A memory of bytes holds a bit
at every position, counted from the highest bit of the byte at zero on, in both directions. A bit
string is stored at a position if the memory holds its bits from there on.
-/

namespace Bits

/-! ## Numbers -/

/-- The lower `n` bits of `v`, the highest first. -/
def ofNat : ℕ → ℕ → List Bool
  | 0, _ => []
  | n + 1, v => v.testBit n :: ofNat n v

def toNat : List Bool → ℕ
  | [] => 0
  | bit :: bits => bit.toNat * 2 ^ bits.length + toNat bits

@[simp]
theorem ofNat_length (n v : ℕ) : (ofNat n v).length = n := by
  induction n with
  | zero => rfl
  | succ n ih => rw [ofNat, List.length_cons, ih]

theorem toNat_lt (bits : List Bool) : toNat bits < 2 ^ bits.length := by
  induction bits with
  | nil => exact Nat.one_pos
  | cons bit bits ih =>
      have hbit : bit.toNat ≤ 1 := Bool.toNat_le bit
      have hmul := Nat.mul_le_mul_right (2 ^ bits.length) hbit
      rw [toNat, List.length_cons, Nat.pow_succ]
      omega

theorem toNat_append (left right : List Bool) :
    toNat (left ++ right) = toNat left * 2 ^ right.length + toNat right := by
  induction left with
  | nil => simp [toNat]
  | cons bit left ih =>
      rw [List.cons_append, toNat, toNat, ih, List.length_append, Nat.pow_add, Nat.add_mul,
        Nat.mul_assoc, Nat.add_assoc]

theorem toNat_ofNat (n v : ℕ) : toNat (ofNat n v) = v % 2 ^ n := by
  induction n with
  | zero => rw [ofNat, toNat, Nat.pow_zero, Nat.mod_one]
  | succ n ih =>
      rw [ofNat, toNat, ofNat_length, ih, Nat.pow_succ, Nat.mod_mul, Nat.toNat_testBit]
      ring

theorem ofNat_add (m n v : ℕ) : ofNat (m + n) v = ofNat m (v / 2 ^ n) ++ ofNat n v := by
  induction m with
  | zero => rw [Nat.zero_add, ofNat, List.nil_append]
  | succ m ih => rw [Nat.succ_add, ofNat, ih, ofNat, List.cons_append, Nat.testBit_div_two_pow]

theorem toNat_ofNat_of_lt {n v : ℕ} (h : v < 2 ^ n) : toNat (ofNat n v) = v := by
  rw [toNat_ofNat, Nat.mod_eq_of_lt h]

/-! ## Memories -/

def bitAt (memory : ℤ → BitVec 8) (q : ℤ) : Bool :=
  (memory (q / 8)).toNat.testBit (7 - q % 8).toNat

/-- `n` bits from position `q` on -/
def window (memory : ℤ → BitVec 8) : ℤ → ℕ → List Bool
  | _, 0 => []
  | q, n + 1 => bitAt memory q :: window memory (q + 1) n

/-- The memory holds `bits` from position `q` on. -/
def Stored (memory : ℤ → BitVec 8) (q : ℤ) (bits : List Bool) : Prop :=
  window memory q bits.length = bits

@[simp]
theorem window_length (memory : ℤ → BitVec 8) (q : ℤ) (n : ℕ) :
    (window memory q n).length = n := by
  induction n generalizing q with
  | zero => rfl
  | succ n ih => rw [window, List.length_cons, ih]

theorem window_add (memory : ℤ → BitVec 8) (q : ℤ) (m n : ℕ) :
    window memory q (m + n) = window memory q m ++ window memory (q + m) n := by
  induction m generalizing q with
  | zero => simp [window]
  | succ m ih =>
      rw [Nat.succ_add, window, ih, window, List.cons_append]
      congr 3
      omega

theorem stored_append {memory : ℤ → BitVec 8} {q : ℤ} {left right : List Bool} :
    Stored memory q (left ++ right) ↔
      Stored memory q left ∧ Stored memory (q + left.length) right := by
  rw [Stored, List.length_append, window_add]
  constructor
  · intro h
    exact List.append_inj h (window_length _ _ _)
  · rintro ⟨hleft, hright⟩
    rw [hleft, hright]

theorem stored_cons {memory : ℤ → BitVec 8} {q : ℤ} {bit : Bool} {bits : List Bool} :
    Stored memory q (bit :: bits) ↔ bitAt memory q = bit ∧ Stored memory (q + 1) bits := by
  rw [Stored, List.length_cons, window, List.cons.injEq, Stored]

theorem Stored.toNat_window {memory : ℤ → BitVec 8} {q : ℤ} {n v : ℕ}
    (h : Stored memory q (ofNat n v)) (hv : v < 2 ^ n) : toNat (window memory q n) = v := by
  rw [Stored, ofNat_length] at h
  rw [h, toNat_ofNat_of_lt hv]

/-! ## Bytes -/

theorem bitAt_eq {memory : ℤ → BitVec 8} (byte : ℤ) {i : ℕ} (hi : i < 8) :
    bitAt memory (8 * byte + i) = (memory byte).toNat.testBit (7 - i) := by
  have hdiv : (8 * byte + i) / 8 = byte := by omega
  have hmod : ((7 : ℤ) - (8 * byte + i) % 8).toNat = 7 - i := by omega
  rw [bitAt, hdiv, hmod]

theorem window_byte_aux {memory : ℤ → BitVec 8} (byte : ℤ) {n : ℕ} (hn : n ≤ 8) :
    window memory (8 * byte + ((8 - n : ℕ) : ℤ)) n = ofNat n (memory byte).toNat := by
  induction n with
  | zero => rfl
  | succ n ih =>
      have hnext : 8 * byte + ((8 - (n + 1) : ℕ) : ℤ) + 1 = 8 * byte + ((8 - n : ℕ) : ℤ) := by
        omega
      have hbit : 7 - (8 - (n + 1)) = n := by omega
      rw [window, hnext, ih (by omega), bitAt_eq byte (by omega), hbit, ofNat]

theorem toNat_window_byte (memory : ℤ → BitVec 8) (byte : ℤ) :
    toNat (window memory (8 * byte) 8) = (memory byte).toNat := by
  have h := @window_byte_aux memory byte 8 (le_refl 8)
  rw [Nat.sub_self, Nat.cast_zero, add_zero] at h
  rw [h, toNat_ofNat_of_lt (memory byte).isLt]

theorem toNat_window_bytes (memory : ℤ → BitVec 8) (byte : ℤ) (n : ℕ) :
    toNat (window memory (8 * byte) (8 * (n + 1))) =
      (memory byte).toNat * 2 ^ (8 * n) + toNat (window memory (8 * (byte + 1)) (8 * n)) := by
  have hsplit : 8 * (n + 1) = 8 + 8 * n := by omega
  have hnext : 8 * byte + (8 : ℕ) = 8 * (byte + 1) := by omega
  rw [hsplit, window_add, toNat_append, window_length, toNat_window_byte, hnext]

theorem toNat_window_middle (memory : ℤ → BitVec 8) (q : ℤ) (before n after : ℕ) :
    toNat (window memory q (before + n + after)) * 2 ^ before % 2 ^ (before + n + after) /
      2 ^ (before + after) = toNat (window memory (q + before) n) := by
  have hlast := toNat_lt (window memory (q + before + n) after)
  have hmiddle := toNat_lt (window memory (q + before) n)
  rw [window_length] at hlast hmiddle
  have hsplit : toNat (window memory q (before + n + after)) =
      toNat (window memory q before) * 2 ^ (n + after) +
        (toNat (window memory (q + before) n) * 2 ^ after +
          toNat (window memory (q + before + n) after)) := by
    rw [Nat.add_assoc, window_add, toNat_append, window_length, window_add, toNat_append,
      window_length]
  have hlow : toNat (window memory (q + before) n) * 2 ^ after +
      toNat (window memory (q + before + n) after) < 2 ^ (n + after) := by
    rw [Nat.pow_add]
    calc _ < toNat (window memory (q + before) n) * 2 ^ after + 2 ^ after := by omega
      _ = (toNat (window memory (q + before) n) + 1) * 2 ^ after := by ring
      _ ≤ _ := Nat.mul_le_mul_right _ hmiddle
  rw [hsplit, Nat.add_assoc before n after, Nat.mul_comm _ (2 ^ before), Nat.pow_add 2 before,
    Nat.mul_mod_mul_left, Nat.mul_add_mod_self_right, Nat.mod_eq_of_lt hlow, Nat.pow_add 2 before,
    Nat.mul_div_mul_left _ _ (Nat.two_pow_pos before), Nat.mul_comm _ (2 ^ after),
    Nat.mul_add_div (Nat.two_pow_pos after), Nat.div_eq_of_lt hlast, Nat.add_zero]

/-! ## Packing -/

theorem testBit_toNat {bits : List Bool} {i : ℕ} (hi : i < bits.length) :
    (toNat bits).testBit (bits.length - 1 - i) = bits[i] := by
  induction bits generalizing i with
  | nil => exact absurd hi (Nat.not_lt_zero i)
  | cons bit bits ih =>
      rw [toNat, Nat.mul_comm, Nat.testBit_two_pow_mul_add _ (toNat_lt bits), List.length_cons]
      cases i with
      | zero =>
          rw [if_neg (by omega), Nat.add_sub_cancel, Nat.sub_zero, Nat.sub_self]
          cases bit <;> rfl
      | succ i =>
          rw [List.length_cons] at hi
          have hindex : bits.length + 1 - 1 - (i + 1) = bits.length - 1 - i := by omega
          rw [if_pos (by omega), hindex, ih (by omega), List.getElem_cons_succ]

def pack (bits : List Bool) (byte : ℤ) : BitVec 8 :=
  BitVec.ofNat 8 (toNat ((List.range 8).map fun i => bits.getD (8 * byte.toNat + i) false))

theorem bitAt_pack (bits : List Bool) (q : ℕ) : bitAt (pack bits) q = bits.getD q false := by
  have hlength (byte : ℕ) :
      ((List.range 8).map fun i => bits.getD (8 * byte + i) false).length = 8 := by simp
  have hq : (q : ℤ) = 8 * (q / 8 : ℕ) + (q % 8 : ℕ) := by omega
  have hlt := toNat_lt ((List.range 8).map fun i => bits.getD (8 * (q / 8) + i) false)
  rw [hlength] at hlt
  have hbit := @testBit_toNat ((List.range 8).map fun i => bits.getD (8 * (q / 8) + i) false)
    (q % 8) (by rw [hlength]; omega)
  rw [List.getElem_map, List.getElem_range, hlength] at hbit
  have hindex : 8 * (q / 8) + q % 8 = q := by omega
  conv_lhs => rw [hq]
  rw [bitAt_eq _ (by omega), pack, BitVec.toNat_ofNat, Int.toNat_natCast, Nat.mod_eq_of_lt hlt,
    hbit, hindex]

theorem window_pack (bits : List Bool) {q n : ℕ} (h : q + n ≤ bits.length) :
    window (pack bits) q n = (bits.drop q).take n := by
  induction n generalizing q with
  | zero => rw [window, List.take_zero]
  | succ n ih =>
      have hq : q < bits.length := by omega
      have hnext : ((q : ℤ) + 1) = (q + 1 : ℕ) := by omega
      rw [window, hnext, ih (by omega), bitAt_pack, List.getD_eq_getElem _ _ hq,
        List.drop_eq_getElem_cons hq, List.take_succ_cons]

theorem stored_pack (bits : List Bool) : Stored (pack bits) 0 bits := by
  have h := window_pack bits (q := 0) (n := bits.length) (by omega)
  rw [Nat.cast_zero, List.drop_zero, List.take_length] at h
  exact h

end Bits
