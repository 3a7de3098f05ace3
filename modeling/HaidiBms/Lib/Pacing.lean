import Mathlib.Tactic

/-!
# Turns taken at a pace

A list of turns is taken one after the other, each at the first of some times that is at least `limit` after the turn before it. `paced` is what is given out at each of the times. Whatever the times are, nothing is given out but the turns in their order, and if the times go on without bound all of them are.
-/

namespace Pacing

variable {α : Type} {limit last : ℕ}

/-- What is given out at each time: the next turn if the limit has gone by since `last`, else nothing. -/
def paced (limit : ℕ) : ℕ → List (List α) → List ℕ → List (List α)
  | _, _, [] => []
  | last, [], _ :: times => [] :: paced limit last [] times
  | last, turn :: turns, time :: times =>
    if last + limit ≤ time then turn :: paced limit time turns times
    else [] :: paced limit last (turn :: turns) times

theorem paced_early {turns : List (List α)} {time : ℕ} (times : List ℕ) (h : turns = [] ∨ time < last + limit) :
    paced limit last turns (time :: times) = [] :: paced limit last turns times := by
  cases turns with
  | nil => rfl
  | cons turn turns => exact if_neg (by simpa using h)

theorem paced_due {turns : List (List α)} {turn : List α} {time : ℕ} (times : List ℕ) (h : last + limit ≤ time) :
    paced limit last (turn :: turns) (time :: times) = turn :: paced limit time turns times := if_pos h

theorem paced_nil (times : List ℕ) : (paced limit last ([] : List (List α)) times).flatten = [] := by
  induction times with
  | nil => rfl
  | cons time times ih => exact ih

/-- Before the limit has gone by nothing is given out. -/
theorem paced_append_early {turns : List (List α)} {early : List ℕ} (times : List ℕ)
    (h : ∀ time ∈ early, time < last + limit) :
    (paced limit last turns (early ++ times)).flatten = (paced limit last turns times).flatten := by
  induction early with
  | nil => rfl
  | cons time early ih =>
      obtain ⟨htime, hearly⟩ := List.forall_mem_cons.mp h
      rw [List.cons_append, paced_early _ (Or.inr htime)]
      exact ih hearly

/-- Where the times go on without bound, every turn is taken. -/
theorem paced_all (turns : List (List α)) {times : ℕ → ℕ} (hmono : Monotone times)
    (hunbounded : ∀ bound, ∃ i, bound ≤ times i) :
    ∃ enough, ∀ n, enough ≤ n → (paced limit last turns ((List.range n).map times)).flatten = turns.flatten := by
  induction turns generalizing last times with
  | nil => exact ⟨0, fun n _ => paced_nil _⟩
  | cons turn turns ih =>
      have hdue := hunbounded (last + limit)
      -- the first of the times at which the limit has gone by
      obtain ⟨i, hdue, hearly⟩ : ∃ i, last + limit ≤ times i ∧ ∀ j < i, times j < last + limit :=
        ⟨Nat.find hdue, Nat.find_spec hdue, fun _ hj => not_le.mp (Nat.find_min hdue hj)⟩
      have hlater : ∀ bound, ∃ j, bound ≤ times (i + 1 + j) := by
        intro bound
        obtain ⟨j, hj⟩ := hunbounded bound
        exact ⟨j, hj.trans (hmono (by omega))⟩
      obtain ⟨enough, hall⟩ : ∃ enough, ∀ n, enough ≤ n →
          (paced limit (times i) turns ((List.range n).map fun j => times (i + 1 + j))).flatten = turns.flatten :=
        ih (fun a b hab => hmono (by omega)) hlater
      refine ⟨i + 1 + enough, fun n hn => ?_⟩
      obtain ⟨m, rfl⟩ := Nat.exists_eq_add_of_le (show i + 1 ≤ n by omega)
      rw [List.range_add, List.range_succ, List.map_append, List.map_append, List.map_singleton, List.append_assoc,
        paced_append_early _ (by simpa using hearly), List.singleton_append, paced_due _ hdue, List.flatten_cons,
        List.flatten_cons, List.map_map]
      exact congrArg (turn ++ ·) (hall m (by omega))

end Pacing
