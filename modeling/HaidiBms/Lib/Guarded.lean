import Mathlib.Tactic

/-!
# Computations that check themselves

A program whose faults C++ leaves undefined, written so that each shows: an access outside its array, a subtraction below zero, a shift by the width or more and a loop that does not end in the turns it is given all answer `none`. `Yields P x a` says that a computation passes every check and comes to `a`, of which `P` holds; it composes along sequences, folds and loops.
-/

namespace Guarded

variable {α β σ : Type} {n : ℕ}

def load (array : Vector α n) (i : ℕ) : Option α := if h : i < n then some (array.get ⟨i, h⟩) else none

def store (array : Vector α n) (i : ℕ) (a : α) : Option (Vector α n) := if h : i < n then some (array.set i a h) else none

def subtract (a b : ℕ) : Option ℕ := if b ≤ a then some (a - b) else none

def shiftLeft (value : UInt32) (amount : ℕ) : Option UInt32 :=
  if amount < 32 then some (value <<< UInt32.ofNat amount) else none

/-- A loop that is given a number of turns, the last of them for the test that ends it. -/
def whileLoop (test : σ → Option Bool) (body : σ → Option σ) : ℕ → σ → Option σ
  | 0, _ => none
  | turns + 1, s => do if ← test s then whileLoop test body turns (← body s) else some s

/-- Copies the first `count` items of a source to the front of an array. -/
def copy (source : ℕ → Option α) (count : ℕ) (array : Vector α n) : Option (Vector α n) :=
  (List.range count).foldlM (fun array i => do store array i (← source i)) array

theorem load_get (array : Vector α n) {i : ℕ} (h : i < n) : load array i = some array[i] := dif_pos h

theorem store_set (array : Vector α n) {i : ℕ} (h : i < n) (a : α) : store array i a = some (array.set i a h) := dif_pos h

theorem load_eq (array : Vector α n) {i : ℕ} (h : i < n) (default : α) : load array i = some (array.getD i default) := by
  rw [load_get array h, Vector.getD, Array.getD, dif_pos (h.trans_eq array.size_toArray.symm)]
  rfl

theorem store_eq (array : Vector α n) {i : ℕ} (h : i < n) (a : α) : store array i a = some (array.setIfInBounds i a) := by
  rw [store_set array h]
  congr 1
  ext j hj
  rw [Vector.getElem_set, Vector.getElem_setIfInBounds hj]

theorem subtract_eq {a b : ℕ} (h : b ≤ a) : subtract a b = some (a - b) := if_pos h

theorem shiftLeft_eq (value : UInt32) {amount : ℕ} (h : amount < 32) :
    shiftLeft value amount = some (value <<< UInt32.ofNat amount) := if_pos h

/-- The computation passes every check and comes to `a`, of which `P` holds. -/
def Yields (P : α → Prop) (x : Option α) (a : α) : Prop := x = some a ∧ P a

namespace Yields

variable {P : α → Prop} {Q : β → Prop} {x : Option α} {a : α}

theorem bind {f : α → Option β} {b : β} (h : Yields P x a) (hf : P a → Yields Q (f a) b) : Yields Q (x >>= f) b := by
  obtain ⟨rfl, ha⟩ := h
  exact hf ha

theorem map {f : α → β} (h : Yields P x a) (hf : P a → Q (f a)) : Yields Q (f <$> x) (f a) := by
  obtain ⟨rfl, ha⟩ := h
  exact ⟨rfl, hf ha⟩

/-- What every step keeps a fold keeps. -/
theorem foldlM {I : σ → Prop} {step : σ → α → Option σ} {f : σ → α → σ} {l : List α}
    (h : ∀ s, I s → ∀ a ∈ l, Yields I (step s a) (f s a)) {s : σ} (hs : I s) : Yields I (l.foldlM step s) (l.foldl f s) := by
  induction l generalizing s with
  | nil => exact ⟨rfl, hs⟩
  | cons a rest ih =>
      rw [List.foldlM_cons, List.foldl_cons]
      refine (h s hs a List.mem_cons_self).bind fun hnext => ?_
      exact ih (fun s hs a ha => h s hs a (List.mem_cons_of_mem _ ha)) hnext

end Yields

/-- A fold none of whose steps can fail. -/
theorem foldlM_eq {step : σ → α → Option σ} {f : σ → α → σ} {l : List α} (h : ∀ s, ∀ a ∈ l, step s a = some (f s a)) (s : σ) :
    l.foldlM step s = some (l.foldl f s) :=
  (Yields.foldlM (I := fun _ => True) (fun s _ a ha => ⟨h s a ha, trivial⟩) trivial).1

section

variable {test : σ → Option Bool} {body : σ → Option σ} {I : σ → Prop} {t : σ → Bool} {b : σ → σ} (measure : σ → ℕ)
  (htest : ∀ s, I s → test s = some (t s))
  (hbody : ∀ s, I s → t s = true → Yields (fun next => I next ∧ measure next < measure s) (body s) (b s))

include htest hbody

/-- A loop ends where a measure goes down with every turn, and then the test fails and the invariant holds. -/
theorem whileLoop_ends {turns : ℕ} {s : σ} (hs : I s) (hturns : measure s < turns) :
    ∃ last, whileLoop test body turns s = some last ∧ I last ∧ t last = false := by
  induction turns generalizing s with
  | zero => exact absurd hturns (Nat.not_lt_zero _)
  | succ turns ih =>
      cases ht : t s with
      | false =>
          refine ⟨s, ?_, hs, ht⟩
          rw [whileLoop, htest s hs, ht]
          rfl
      | true =>
          obtain ⟨hstep, hnext, hless⟩ := hbody s hs ht
          obtain ⟨last, hlast, hend⟩ := ih hnext (by omega)
          refine ⟨last, ?_, hend⟩
          rw [whileLoop, htest s hs, ht]
          exact (congrArg (· >>= whileLoop test body turns) hstep).trans hlast

theorem whileLoop_eq {turns : ℕ} {s c : σ} (hs : I s) (hturns : measure s < turns)
    (hend : ∀ last, I last → t last = false → last = c) : whileLoop test body turns s = some c := by
  obtain ⟨last, hlast, hI, ht⟩ := whileLoop_ends measure htest hbody hs hturns
  rw [hlast, hend last hI ht]

theorem whileLoop_bind {turns : ℕ} {s : σ} {f : σ → Option β} {c : β} (hs : I s) (hturns : measure s < turns)
    (hend : ∀ last, I last → t last = false → f last = some c) : (whileLoop test body turns s >>= f) = some c := by
  obtain ⟨last, hlast, hI, ht⟩ := whileLoop_ends measure htest hbody hs hturns
  rw [hlast]
  exact hend last hI ht

end

/-- What a copy leaves in an array of blanks. -/
theorem copy_replicate {source : ℕ → Option α} {f : ℕ → α} {count : ℕ} (blank : α) (hcount : count ≤ n)
    (h : ∀ i < count, source i = some (f i)) :
    copy source count (Vector.replicate n blank) = some (Vector.ofFn fun i => if i.val < count then f i.val else blank) := by
  have hcopy : ∀ array : Vector α n, copy source count array =
      some ((List.range count).foldl (fun array i => array.setIfInBounds i (f i)) array) := by
    refine foldlM_eq fun array i hi => ?_
    rw [List.mem_range] at hi
    rw [h i hi]
    exact store_eq array (hi.trans_le hcount) (f i)
  rw [hcopy]
  clear hcopy h
  congr 1
  induction count with
  | zero =>
      ext i hi
      rw [Vector.getElem_ofFn, if_neg (Nat.not_lt_zero _)]
      exact Vector.getElem_replicate hi
  | succ count ih =>
      rw [List.range_succ, List.foldl_append, ih (Nat.le_of_succ_le hcount), List.foldl_cons, List.foldl_nil]
      ext i hi
      rw [Vector.getElem_setIfInBounds hi, Vector.getElem_ofFn, Vector.getElem_ofFn]
      dsimp only
      by_cases hlast : count = i
      · rw [if_pos hlast, hlast, if_pos (Nat.lt_succ_self i)]
      · rw [if_neg hlast]
        exact if_congr (by omega) rfl rfl

end Guarded
