import ShairportSync.SerialNumber.Window
import Mathlib.Data.Nat.ModEq

/-!
# Rings indexed by serial numbers

A ring of `N` slots stores the entry of the number `q` in the slot `slot N q`, its
value modulo `N`. When `N` divides the number of serial numbers, a window of at most
`N` numbers meets each slot at most once (`slot_injective_on`), so the ring is a
faithful copy of a map from serial numbers to entries as long as only the numbers of
the window are looked up. `Agrees` is that relation; it is kept by writing an entry of
the window, by extending the window at its end and by advancing its start.
-/

namespace SerialNumber

variable {w : ℕ} {N : ℕ} [NeZero N] {P : Type*}

/-- The slot of a serial number in a ring of `N` slots. -/
def slot (N : ℕ) [NeZero N] (q : BitVec w) : Fin N :=
  ⟨q.toNat % N, Nat.mod_lt _ (Nat.pos_of_ne_zero (NeZero.ne N))⟩

theorem slot_injective_on (hN : N ∣ 2 ^ w) {r p q : BitVec w}
    (hp : distance r p < N) (hq : distance r q < N) (h : slot N p = slot N q) : p = q := by
  have hmod : p.toNat % N = q.toNat % N := congrArg Fin.val h
  rw [toNat_eq_add_distance r p, toNat_eq_add_distance r q, Nat.mod_mod_of_dvd _ hN,
    Nat.mod_mod_of_dvd _ hN] at hmod
  have hdist : distance r p ≡ distance r q [MOD N] :=
    Nat.ModEq.add_left_cancel' r.toNat hmod
  apply distance_injective (r := r)
  rwa [Nat.ModEq, Nat.mod_eq_of_lt hp, Nat.mod_eq_of_lt hq] at hdist

theorem slot_add_of_dvd (hN : N ∣ 2 ^ w) (q : BitVec w) {c : BitVec w} (hc : N ∣ c.toNat) :
    slot N (q + c) = slot N q := by
  apply Fin.ext
  obtain ⟨k, hk⟩ := hc
  calc (q + c).toNat % N = (q.toNat + c.toNat) % N := by
        rw [BitVec.toNat_add, Nat.mod_mod_of_dvd _ hN]
    _ = q.toNat % N := by rw [hk, Nat.add_mul_mod_self_left]

/-- The ring `f` and the map `m` hold the same entry for every number of `[r, t)`. -/
def Agrees (f : Fin N → P) (m : BitVec w → P) (r t : BitVec w) : Prop :=
  ∀ q, Between r t q → f (slot N q) = m q

theorem agrees_self (f : Fin N → P) (m : BitVec w → P) (r : BitVec w) : Agrees f m r r :=
  fun q hq => absurd hq (not_between_self r q)

/-- Writing the entry of a number of the window writes the map at that number. -/
theorem Agrees.update (hN : N ∣ 2 ^ w) {f : Fin N → P} {m : BitVec w → P}
    {r t q : BitVec w} (h : Agrees f m r t) (hlen : distance r t ≤ N)
    (hq : Between r t q) (x : P) :
    Agrees (Function.update f (slot N q) x) (Function.update m q x) r t := by
  intro p hp
  by_cases hpq : p = q
  · subst hpq
    simp
  · have hslot : slot N p ≠ slot N q := fun he =>
      hpq (slot_injective_on hN (lt_of_lt_of_le hp hlen) (lt_of_lt_of_le hq hlen) he)
    rw [Function.update_of_ne hslot, Function.update_of_ne hpq]
    exact h p hp

/-- Accepting the entry of the number at the end of a window with room for it. -/
theorem Agrees.push (hN : N ∣ 2 ^ w) {f : Fin N → P} {m : BitVec w → P}
    {r t : BitVec w} (h : Agrees f m r t) (hlen : distance r t < N)
    (hw : distance r t + 1 < 2 ^ w) (x : P) :
    Agrees (Function.update f (slot N t) x) (Function.update m t x) r (t + 1#w) := by
  intro p hp
  rcases (between_add_one_right hw).mp hp with rfl | hp
  · simp
  · have hpt : p ≠ t := by
      rintro rfl
      exact not_between_right r p hp
    have hslot : slot N p ≠ slot N t := fun he =>
      hpt (slot_injective_on hN (hp.trans hlen) hlen he)
    rw [Function.update_of_ne hslot, Function.update_of_ne hpt]
    exact h p hp

theorem Agrees.tail {f : Fin N → P} {m : BitVec w → P} {r t : BitVec w}
    (h : Agrees f m r t) (hne : t ≠ r) : Agrees f m (r + 1#w) t :=
  fun q hq => h q ((between_add_one_left hne).mp hq).1

theorem Agrees.congr_map {f : Fin N → P} {m m' : BitVec w → P} {r t : BitVec w}
    (h : Agrees f m r t) (hm : ∀ q, Between r t q → m' q = m q) : Agrees f m' r t :=
  fun q hq => (h q hq).trans (hm q hq).symm

end SerialNumber
