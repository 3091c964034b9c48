/-!
# Powers of two and of ten

The bases of the two number systems that numbers are converted between.
-/

namespace Pigeonhole

/-- Two to a power. -/
def twoPow (k : Nat) : Nat := Nat.pow 2 k

/-- Ten to a power. -/
def tenPow (k : Nat) : Nat := Nat.pow 10 k

theorem twoPow_pos (k : Nat) : 0 < twoPow k := Nat.pow_pos (Nat.succ_pos 1)

theorem tenPow_pos (k : Nat) : 0 < tenPow k := Nat.pow_pos (Nat.succ_pos 9)

theorem twoPow_add (j k : Nat) : twoPow (j + k) = twoPow j * twoPow k := Nat.pow_add 2 j k

theorem twoPow_le {j k : Nat} (h : j ≤ k) : twoPow j ≤ twoPow k :=
  Nat.pow_le_pow_right (Nat.succ_pos 1) h

theorem tenPow_succ (k : Nat) : tenPow (k + 1) = tenPow k * 10 := rfl

theorem twoPow_le_tenPow (k : Nat) : twoPow k ≤ tenPow k := Nat.pow_le_pow_left (by decide) k

end Pigeonhole
