import Mathlib.Data.BitVec
import Mathlib.Data.List.Basic

/-!
# Base64

Three bytes are written as four characters of an alphabet of 64. A last group of one or two bytes
is filled up with padding. `decode` takes a text with padding at its end only, and with no bits set
that the padding leaves over.

A text that is encoded in pieces of whole groups is the encoding of the whole: `encode_append`.
-/

namespace Base64

def character (v : ℕ) : BitVec 8 :=
  BitVec.ofNat 8 <|
    if v < 26 then 65 + v
    else if v < 52 then 71 + v
    else if v < 62 then v - 4
    else if v = 62 then 43
    else 47

def pad : BitVec 8 := 61

/-- The value of a character of the alphabet. -/
def value (c : BitVec 8) : Option ℕ :=
  let n := c.toNat
  if 65 ≤ n ∧ n < 91 then some (n - 65)
  else if 97 ≤ n ∧ n < 123 then some (n - 71)
  else if 48 ≤ n ∧ n < 58 then some (n + 4)
  else if n = 43 then some 62
  else if n = 47 then some 63
  else none

/-! ## Groups -/

def encodeThree (a b c : BitVec 8) : List (BitVec 8) :=
  [character (a.toNat / 4), character (a.toNat % 4 * 16 + b.toNat / 16),
    character (b.toNat % 16 * 4 + c.toNat / 64), character (c.toNat % 64)]

def encodeTwo (a b : BitVec 8) : List (BitVec 8) :=
  [character (a.toNat / 4), character (a.toNat % 4 * 16 + b.toNat / 16),
    character (b.toNat % 16 * 4), pad]

def encodeOne (a : BitVec 8) : List (BitVec 8) :=
  [character (a.toNat / 4), character (a.toNat % 4 * 16), pad, pad]

def decodeThree (p q r s : BitVec 8) : Option (List (BitVec 8)) := do
  let x ← value p
  let y ← value q
  let z ← value r
  let w ← value s
  return [BitVec.ofNat 8 (x * 4 + y / 16), BitVec.ofNat 8 (y % 16 * 16 + z / 4),
    BitVec.ofNat 8 (z % 4 * 64 + w)]

def decodeTwo (p q r : BitVec 8) : Option (List (BitVec 8)) := do
  let x ← value p
  let y ← value q
  let z ← value r
  if z % 4 = 0 then
    return [BitVec.ofNat 8 (x * 4 + y / 16), BitVec.ofNat 8 (y % 16 * 16 + z / 4)]
  else none

def decodeOne (p q : BitVec 8) : Option (List (BitVec 8)) := do
  let x ← value p
  let y ← value q
  if y % 16 = 0 then return [BitVec.ofNat 8 (x * 4 + y / 16)] else none

def decodeLast (p q r s : BitVec 8) : Option (List (BitVec 8)) :=
  if s = pad then if r = pad then decodeOne p q else decodeTwo p q r
  else decodeThree p q r s

/-! ## Texts -/

def encode : List (BitVec 8) → List (BitVec 8)
  | [] => []
  | [a] => encodeOne a
  | [a, b] => encodeTwo a b
  | a :: b :: c :: bytes => encodeThree a b c ++ encode bytes

def decode : List (BitVec 8) → Option (List (BitVec 8))
  | [] => some []
  | [p, q, r, s] => decodeLast p q r s
  | p :: q :: r :: s :: text => do
      let bytes ← decodeThree p q r s
      let rest ← decode text
      return bytes ++ rest
  | _ => none

theorem value_character : ∀ {v : ℕ}, v < 64 → value (character v) = some v := by
  decide

theorem character_ne_pad : ∀ {v : ℕ}, v < 64 → character v ≠ pad := by
  decide

theorem decodeThree_encodeThree (a b c : BitVec 8) (text : List (BitVec 8)) :
    decode (encodeThree a b c ++ text) = (decode text).map fun bytes => a :: b :: c :: bytes := by
  have ha := a.isLt
  have hb := b.isLt
  have hc := c.isLt
  have hgroup : decodeThree (character (a.toNat / 4))
      (character (a.toNat % 4 * 16 + b.toNat / 16))
      (character (b.toNat % 16 * 4 + c.toNat / 64)) (character (c.toNat % 64)) =
      some [a, b, c] := by
    have h₁ : a.toNat / 4 * 4 + (a.toNat % 4 * 16 + b.toNat / 16) / 16 = a.toNat := by omega
    have h₂ : (a.toNat % 4 * 16 + b.toNat / 16) % 16 * 16 +
        (b.toNat % 16 * 4 + c.toNat / 64) / 4 = b.toNat := by omega
    have h₃ : (b.toNat % 16 * 4 + c.toNat / 64) % 4 * 64 + c.toNat % 64 = c.toNat := by omega
    rw [decodeThree, value_character (by omega), value_character (by omega),
      value_character (by omega), value_character (by omega)]
    simp only [Option.bind_eq_bind, Option.bind_some, h₁, h₂, h₃, BitVec.ofNat_toNat,
      BitVec.setWidth_eq]
    rfl
  cases text with
  | nil =>
      have hlast : character (c.toNat % 64) ≠ pad := character_ne_pad (by omega)
      rw [List.append_nil]
      exact (if_neg hlast).trans hgroup
  | cons x text =>
      rw [encodeThree]
      simp only [List.cons_append, List.nil_append]
      rw [decode, hgroup]
      · cases decode (x :: text) <;> rfl
      · exact List.cons_ne_nil x text

theorem decode_encodeTwo (a b : BitVec 8) : decode (encodeTwo a b) = some [a, b] := by
  have ha := a.isLt
  have hb := b.isLt
  have h₁ : a.toNat / 4 * 4 + (a.toNat % 4 * 16 + b.toNat / 16) / 16 = a.toNat := by omega
  have h₂ : (a.toNat % 4 * 16 + b.toNat / 16) % 16 * 16 + b.toNat % 16 = b.toNat := by omega
  rw [encodeTwo, decode, decodeLast, if_pos rfl, if_neg (character_ne_pad (by omega)), decodeTwo,
    value_character (by omega), value_character (by omega), value_character (by omega)]
  simp only [Option.bind_eq_bind, Option.bind_some, Nat.mul_mod_left, if_true,
    Nat.mul_div_cancel _ (show 0 < 4 by decide), h₁, h₂, BitVec.ofNat_toNat, BitVec.setWidth_eq]
  rfl

theorem decode_encodeOne (a : BitVec 8) : decode (encodeOne a) = some [a] := by
  have ha := a.isLt
  have h : a.toNat / 4 * 4 + a.toNat % 4 = a.toNat := by omega
  rw [encodeOne, decode, decodeLast, if_pos rfl, if_pos rfl, decodeOne,
    value_character (by omega), value_character (by omega)]
  simp only [Option.bind_eq_bind, Option.bind_some, Nat.mul_mod_left, if_true,
    Nat.mul_div_cancel _ (show 0 < 16 by decide), h, BitVec.ofNat_toNat, BitVec.setWidth_eq]
  rfl

theorem decode_encode (bytes : List (BitVec 8)) : decode (encode bytes) = some bytes := by
  induction bytes using encode.induct with
  | case1 => rfl
  | case2 a => exact decode_encodeOne a
  | case3 a b => exact decode_encodeTwo a b
  | case4 a b c bytes ih => rw [encode, decodeThree_encodeThree, ih, Option.map_some]

theorem length_encode (bytes : List (BitVec 8)) :
    (encode bytes).length = 4 * ((bytes.length + 2) / 3) := by
  induction bytes using encode.induct with
  | case1 => rfl
  | case2 a => simp [encode, encodeOne]
  | case3 a b => simp [encode, encodeTwo]
  | case4 a b c bytes ih =>
      rw [encode, List.length_append, ih]
      simp only [encodeThree, List.length_cons, List.length_nil]
      omega

theorem encode_append {bytes : List (BitVec 8)} (h : 3 ∣ bytes.length) (rest : List (BitVec 8)) :
    encode (bytes ++ rest) = encode bytes ++ encode rest := by
  induction bytes using encode.induct with
  | case1 => rfl
  | case2 a => exact absurd h (by simp)
  | case3 a b => exact absurd h (by simp)
  | case4 a b c bytes ih =>
      have hbytes : 3 ∣ bytes.length := by
        simp only [List.length_cons] at h
        omega
      simp only [List.cons_append]
      rw [encode, encode, ih hbytes, List.append_assoc]

theorem encode_take_append_drop {k : ℕ} (hk : 3 ∣ k) (bytes : List (BitVec 8)) :
    encode (bytes.take k) ++ encode (bytes.drop k) = encode bytes := by
  rcases Nat.lt_or_ge bytes.length k with hlt | hle
  · rw [List.take_of_length_le hlt.le, List.drop_of_length_le hlt.le, encode, List.append_nil]
  · rw [← encode_append (by rwa [List.length_take_of_le hle]), List.take_append_drop]

theorem exists_encode_eq_append (bytes : List (BitVec 8)) :
    ∃ text, encode bytes = text ++ List.replicate ((3 - bytes.length % 3) % 3) pad ∧
      ∀ c ∈ text, c ≠ pad := by
  induction bytes using encode.induct with
  | case1 => exact ⟨[], rfl, by simp⟩
  | case2 a =>
      have ha := a.isLt
      refine ⟨[character (a.toNat / 4), character (a.toNat % 4 * 16)], rfl, ?_⟩
      simp only [List.forall_mem_cons, List.not_mem_nil, false_implies, implies_true, and_true]
      exact ⟨character_ne_pad (by omega), character_ne_pad (by omega)⟩
  | case3 a b =>
      have ha := a.isLt
      have hb := b.isLt
      refine ⟨[character (a.toNat / 4), character (a.toNat % 4 * 16 + b.toNat / 16),
        character (b.toNat % 16 * 4)], rfl, ?_⟩
      simp only [List.forall_mem_cons, List.not_mem_nil, false_implies, implies_true, and_true]
      exact ⟨character_ne_pad (by omega), character_ne_pad (by omega), character_ne_pad (by omega)⟩
  | case4 a b c bytes ih =>
      have ha := a.isLt
      have hb := b.isLt
      have hc := c.isLt
      obtain ⟨text, heq, hpad⟩ := ih
      refine ⟨encodeThree a b c ++ text, ?_, ?_⟩
      · have hlength : (a :: b :: c :: bytes).length % 3 = bytes.length % 3 := by
          simp only [List.length_cons]
          omega
        rw [encode, heq, hlength, List.append_assoc]
      · intro d hd
        rcases List.mem_append.mp hd with hd | hd
        · simp only [encodeThree, List.mem_cons, List.not_mem_nil, or_false] at hd
          rcases hd with rfl | rfl | rfl | rfl <;> exact character_ne_pad (by omega)
        · exact hpad d hd

end Base64
