import Mathlib.Tactic

/-!
# Deadlines on a wrapping clock

A clock that counts modulo `2 * half` and a deadline are compared by the sign of their wrapped difference: the deadline counts as passed when the difference, taken in one lap, lies in its lower half. That is right while clock and deadline are less than half a lap apart, and `not_early_iff` says exactly when it can be wrong in one direction: when the deadline is seen passed although the time it allows has not gone by.
-/

namespace Clock

/-- The clock, read at `now`, shows the deadline as passed. -/
def Due (half now deadline : ℤ) : Prop := (now - deadline) % (2 * half) < half

variable {half now deadline : ℤ}

theorem due_congr {now' deadline' : ℤ} (h : now - deadline ≡ now' - deadline' [ZMOD 2 * half]) :
    Due half now deadline ↔ Due half now' deadline' := by
  rw [Due, Due, h]

/-- Within a lap of the deadline. -/
theorem due_iff (hlow : -(2 * half) ≤ now - deadline) (hhigh : now - deadline < 2 * half) :
    Due half now deadline ↔ now - deadline < -half ∨ 0 ≤ now - deadline ∧ now - deadline < half := by
  rw [Due]
  by_cases hneg : now - deadline < 0
  · rw [← Int.add_emod_right, Int.emod_eq_of_lt (by omega) (by omega)]
    omega
  · rw [Int.emod_eq_of_lt (by omega) hhigh]
    omega

/-- Within half a lap of the deadline the clock is right. -/
theorem due_iff_le (hlow : -half ≤ now - deadline) (hhigh : now - deadline < half) :
    Due half now deadline ↔ deadline ≤ now := by
  rw [due_iff (by omega) (by omega)]
  omega

/-- A deadline that allows `limit` from the time `start` on was set with a clock that lagged by `lag`. From `since` on it is not seen passed before its time exactly if its time is over by then, or the clock did not lag and the limit is within half a lap of the time gone by, or the lag takes the deadline half a lap behind. -/
theorem not_early_iff {start since lag limit : ℤ} (hsince : start ≤ since) (hlag : 0 ≤ lag) (hlap : lag < 2 * half)
    (hlimit : limit < 2 * half) :
    (∀ now, since ≤ now → Due half now (start - lag + limit) → start + limit ≤ now) ↔
      limit ≤ since - start ∨ lag = 0 ∧ limit ≤ half + (since - start) ∨ half + limit ≤ lag + (since - start) := by
  constructor
  · intro h
    by_contra hcontra
    rw [not_or, not_or, not_and_or, not_le, not_le, not_le] at hcontra
    obtain ⟨hopen, hzero, hbehind⟩ := hcontra
    by_cases hpos : lag = 0
    · -- the limit is more than half a lap: seen passed at once
      have := h since le_rfl ((due_iff (by omega) (by omega)).mpr (by omega))
      omega
    · -- seen passed at once, or when the clock shows the deadline
      by_cases hnow : since - (start - lag + limit) < 0
      · by_cases hfar : since - (start - lag + limit) < -half
        · have := h since le_rfl ((due_iff (by omega) (by omega)).mpr (by omega))
          omega
        · have := h (start - lag + limit) (by omega) ((due_iff (by omega) (by omega)).mpr (by omega))
          omega
      · have := h since le_rfl ((due_iff (by omega) (by omega)).mpr (by omega))
        omega
  · intro h now hnow hdue
    by_contra hearly
    rw [due_iff (by omega) (by omega)] at hdue
    omega

end Clock
