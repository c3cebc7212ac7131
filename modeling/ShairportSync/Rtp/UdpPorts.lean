import Mathlib.Data.List.Infix

/-!
# Suggesting UDP ports

`nextFreeUDPPort` goes through the configured range of ports. Behind the last one it goes on with
the fourth, because the first three can be suggested again by `resetFreeUDPPort`. A range of three
ports, the smallest that is accepted, has no fourth one, so the fourth call in a row leaves it.
-/

namespace ShairportSync

namespace Rtp

/-- Settings that are accepted, of a range that ends at a port. -/
structure UdpPortConfig where
  base : ℕ
  range : ℕ
  one_le_base : 1 ≤ base
  three_le_range : 3 ≤ range
  last_le : base + range - 1 ≤ 65535

inductive UdpPortCall where
  | next
  | reset
deriving DecidableEq

namespace UdpPortConfig

variable (c : UdpPortConfig)

def nextFreeUDPPort (udpPortIndex : BitVec 16) : BitVec 16 :=
  if udpPortIndex = 0 then BitVec.ofNat 16 c.base
  else if udpPortIndex.toNat = c.base + c.range - 1 then BitVec.ofNat 16 (c.base + 3)
  else udpPortIndex + 1

/-- The ports that calls return. `resetFreeUDPPort` returns none. -/
def ports (udpPortIndex : BitVec 16) : List UdpPortCall → List (BitVec 16)
  | [] => []
  | .reset :: calls => ports 0 calls
  | .next :: calls =>
      c.nextFreeUDPPort udpPortIndex :: ports (c.nextFreeUDPPort udpPortIndex) calls

def InRange (port : BitVec 16) : Prop := c.base ≤ port.toNat ∧ port.toNat ≤ c.base + c.range - 1

/-! ## One call -/

theorem nextFreeUDPPort_zero : (c.nextFreeUDPPort 0).toNat = c.base := by
  have hlast := c.last_le
  have hrange := c.three_le_range
  rw [nextFreeUDPPort, if_pos rfl, BitVec.toNat_ofNat, Nat.mod_eq_of_lt (by omega)]

theorem nextFreeUDPPort_of_lt {port : BitVec 16} (hlow : c.base ≤ port.toNat)
    (hlt : port.toNat < c.base + c.range - 1) :
    (c.nextFreeUDPPort port).toNat = port.toNat + 1 := by
  have hlast := c.last_le
  have hbase := c.one_le_base
  have hne : port ≠ 0 := fun h => by simp [h] at hlow; omega
  rw [nextFreeUDPPort, if_neg hne, if_neg (by omega), BitVec.toNat_add,
    Nat.mod_eq_of_lt (by simp; omega)]
  rfl

theorem nextFreeUDPPort_last {port : BitVec 16} (hport : port.toNat = c.base + c.range - 1) :
    c.nextFreeUDPPort port = BitVec.ofNat 16 (c.base + 3) := by
  have hbase := c.one_le_base
  have hrange := c.three_le_range
  have hne : port ≠ 0 := fun h => by simp [h] at hport; omega
  rw [nextFreeUDPPort, if_neg hne, if_pos hport]

/-! ## Ranges with a fourth port -/

theorem inRange_nextFreeUDPPort (hfour : 4 ≤ c.range) {port : BitVec 16}
    (h : port = 0 ∨ c.InRange port) : c.InRange (c.nextFreeUDPPort port) := by
  have hlast := c.last_le
  unfold InRange
  rcases h with rfl | ⟨hlow, hhigh⟩
  · rw [nextFreeUDPPort_zero]
    omega
  · rcases hhigh.lt_or_eq with hlt | heq
    · rw [c.nextFreeUDPPort_of_lt hlow hlt]
      omega
    · rw [c.nextFreeUDPPort_last heq, BitVec.toNat_ofNat, Nat.mod_eq_of_lt (by omega)]
      omega

theorem forall_ports_inRange (hfour : 4 ≤ c.range) (calls : List UdpPortCall) {port : BitVec 16}
    (h : port = 0 ∨ c.InRange port) : ∀ q ∈ c.ports port calls, c.InRange q := by
  induction calls generalizing port with
  | nil => exact fun q hq => absurd hq List.not_mem_nil
  | cons call calls ih =>
      cases call with
      | reset => exact ih (.inl rfl)
      | next =>
          have hnext := c.inRange_nextFreeUDPPort hfour h
          exact List.forall_mem_cons.2 ⟨hnext, ih (.inr hnext)⟩

/-! ## Ranges without one -/

theorem not_replicate_isPrefix {α : Type*} {x y : α} (hxy : x ≠ y) {m n : ℕ} (hnm : n < m)
    (l : List α) : ¬List.replicate m x <+: List.replicate n x ++ y :: l := by
  induction n generalizing m with
  | zero =>
      obtain ⟨k, rfl⟩ := Nat.exists_eq_succ_of_ne_zero hnm.ne'
      exact fun h => hxy (List.cons_prefix_cons.1 h).1
  | succ n ih =>
      obtain ⟨k, rfl⟩ := Nat.exists_eq_succ_of_ne_zero (Nat.ne_of_gt (Nat.zero_lt_of_lt hnm))
      exact fun h => ih (Nat.lt_of_succ_lt_succ hnm) (List.cons_prefix_cons.1 h).2

theorem replicate_isInfix_iff {α : Type*} {x y : α} (hxy : x ≠ y) {m n : ℕ} (hnm : n < m)
    (l : List α) :
    List.replicate m x <:+: List.replicate n x ++ y :: l ↔ List.replicate m x <:+: l := by
  induction n with
  | zero =>
      exact List.infix_cons_iff.trans (or_iff_right (not_replicate_isPrefix hxy hnm l))
  | succ n ih =>
      have hprefix := not_replicate_isPrefix hxy hnm l
      rw [List.replicate_succ, List.cons_append] at hprefix ⊢
      rw [List.infix_cons_iff, or_iff_right hprefix, ih (by omega)]

/-- `UDPPortIndex` after calls of `nextFreeUDPPort` that do not go behind the third port. -/
def indexAfter (n : ℕ) : BitVec 16 := if n = 0 then 0 else BitVec.ofNat 16 (c.base + n - 1)

theorem toNat_indexAfter {n : ℕ} (hpos : 0 < n) (hn : n ≤ 3) :
    (c.indexAfter n).toNat = c.base + n - 1 := by
  have hlast := c.last_le
  have hrange := c.three_le_range
  rw [indexAfter, if_neg hpos.ne', BitVec.toNat_ofNat, Nat.mod_eq_of_lt (by omega)]

theorem nextFreeUDPPort_indexAfter {n : ℕ} (hn : n < 3) :
    c.nextFreeUDPPort (c.indexAfter n) = c.indexAfter (n + 1) := by
  have hrange := c.three_le_range
  apply BitVec.eq_of_toNat_eq
  rw [c.toNat_indexAfter n.succ_pos hn]
  rcases n.eq_zero_or_pos with rfl | hpos
  · exact c.nextFreeUDPPort_zero
  · have hindex := c.toNat_indexAfter hpos hn.le
    rw [c.nextFreeUDPPort_of_lt (by omega) (by omega)]
    omega

theorem not_inRange_fourth (hthree : c.range = 3) :
    ¬c.InRange (c.nextFreeUDPPort (c.indexAfter 3)) := by
  have hlast := c.last_le
  have hindex := c.toNat_indexAfter (by decide : 0 < 3) le_rfl
  rw [c.nextFreeUDPPort_last (by omega), InRange, BitVec.toNat_ofNat]
  omega

/-- Calls of `nextFreeUDPPort` that were made before count for the first row. -/
theorem forall_ports_inRange_iff (hthree : c.range = 3) (calls : List UdpPortCall) {n : ℕ}
    (hn : n ≤ 3) :
    (∀ q ∈ c.ports (c.indexAfter n) calls, c.InRange q) ↔
      ¬List.replicate 4 UdpPortCall.next <:+: List.replicate n .next ++ calls := by
  induction calls generalizing n with
  | nil =>
      refine iff_of_true (fun q hq => absurd hq List.not_mem_nil) fun h => ?_
      have hlength := h.length_le
      rw [List.append_nil, List.length_replicate, List.length_replicate] at hlength
      omega
  | cons call calls ih =>
      cases call with
      | reset =>
          rw [replicate_isInfix_iff (by decide) (by omega)]
          exact ih (Nat.zero_le 3)
      | next =>
          have hshift : List.replicate n UdpPortCall.next ++ .next :: calls =
              List.replicate (n + 1) .next ++ calls := by
            rw [List.replicate_succ', List.append_assoc, List.singleton_append]
          rw [hshift, ports, List.forall_mem_cons]
          rcases hn.lt_or_eq with hlt | rfl
          · rw [c.nextFreeUDPPort_indexAfter hlt, ih hlt, InRange,
              c.toNat_indexAfter n.succ_pos hlt]
            exact and_iff_right (by omega)
          · exact iff_of_false (fun h => c.not_inRange_fourth hthree h.1)
              (not_not.2 (List.prefix_append _ _).isInfix)

/-- From the start on the ports that are returned are in the range exactly if there is a fourth port
in it, or if there are no four calls for a port without a reset between them. -/
theorem ports_inRange_iff (calls : List UdpPortCall) :
    (∀ port ∈ c.ports 0 calls, c.InRange port) ↔
      4 ≤ c.range ∨ ¬List.replicate 4 UdpPortCall.next <:+: calls := by
  rcases c.three_le_range.eq_or_lt with hthree | hfour
  · rw [or_iff_right (by omega)]
    exact c.forall_ports_inRange_iff hthree.symm calls (Nat.zero_le 3)
  · exact iff_of_true (c.forall_ports_inRange hfour calls (.inl rfl)) (.inl hfour)

end UdpPortConfig

def threePorts : UdpPortConfig := ⟨6001, 3, by decide, by decide, by decide⟩

theorem not_inRange_threePorts :
    threePorts.ports 0 [.next, .next, .next, .next] = [6001, 6002, 6003, 6004] ∧
      ¬∀ port ∈ threePorts.ports 0 [.next, .next, .next, .next], threePorts.InRange port := by
  refine ⟨by decide, fun h => ?_⟩
  have hfourth := (h 6004 (by decide)).2
  exact absurd hfourth (by decide)

end Rtp

end ShairportSync
