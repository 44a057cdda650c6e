/-!
# Backoff

`backoff` is the delay before a key is tried again: it doubles with every failure up to a largest delay.
-/

namespace FleetAtlas

/-- The delay after a first failure, in milliseconds. -/
def firstDelay : Nat := 5

/-- The largest delay, in milliseconds. -/
def largestDelay : Nat := 1000000

/-- The milliseconds before the next try of a key that failed so many times before; beyond the cap on the exponent
the largest delay is reached anyway. -/
def backoff (failures : Nat) : Nat := min (firstDelay <<< min failures 18) largestDelay

/-- A delay doubles with every failure. -/
theorem backoff_eq (failures : Nat) : backoff failures = min (firstDelay <<< failures) largestDelay := by
  unfold backoff firstDelay largestDelay
  by_cases h : failures ≤ 18
  · rw [Nat.min_eq_left h]
  · have large : 1000000 ≤ 5 <<< failures := by
      rw [Nat.shiftLeft_eq]
      exact Nat.le_trans (by decide) (Nat.mul_le_mul_left 5 (Nat.pow_le_pow_right (by decide) (by omega : 18 ≤ failures)))
    have cap : min failures 18 = 18 := by omega
    rw [cap, Nat.min_eq_right large]
    decide

end FleetAtlas
