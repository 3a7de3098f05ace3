import Mathlib.Tactic
import Mathlib.Data.Nat.BitIndices
import Mathlib.Order.Bounds.Basic

/-!
# Bit masks as finite sets

A natural number read as the set of the positions of its one bits. Setting a bit inserts, testing one decides membership, subtracting one and masking takes the least element away, and shifting moves every element down.
-/

namespace BitMask

def members (mask : ℕ) : Finset ℕ := mask.bitIndices.toFinset

@[simp] theorem mem_members {mask i : ℕ} : i ∈ members mask ↔ mask.testBit i = true := by
  rw [members, List.mem_toFinset, Nat.mem_bitIndices]

@[simp] theorem members_zero : members 0 = ∅ := by
  rw [members, Nat.bitIndices_zero, List.toFinset_nil]

theorem members_nonempty {mask : ℕ} : (members mask).Nonempty ↔ mask ≠ 0 := by
  constructor
  · rintro ⟨i, hi⟩ rfl
    rw [members_zero] at hi
    exact absurd hi (Finset.notMem_empty i)
  · intro hmask
    obtain ⟨i, hi⟩ := Nat.exists_testBit_of_ne_zero hmask
    exact ⟨i, mem_members.mpr hi⟩

theorem members_subset_range {mask width : ℕ} (h : mask < 2 ^ width) : members mask ⊆ Finset.range width := by
  intro i hi
  rw [Finset.mem_range, ← not_le]
  intro hle
  rw [mem_members, Nat.testBit_lt_two_pow (h.trans_le (Nat.pow_le_pow_right Nat.two_pos hle))] at hi
  exact Bool.false_ne_true hi

theorem members_or_two_pow (mask i : ℕ) : members (mask ||| 2 ^ i) = insert i (members mask) := by
  ext j
  rw [mem_members, Nat.testBit_or, Nat.testBit_two_pow, Finset.mem_insert, mem_members, Bool.or_eq_true,
    decide_eq_true_eq, or_comm, eq_comm]

theorem and_two_pow_eq_zero {mask i : ℕ} : mask &&& 2 ^ i = 0 ↔ i ∉ members mask := by
  rw [mem_members, Bool.not_eq_true]
  constructor
  · intro hzero
    have := congrArg (Nat.testBit · i) hzero
    simpa [Nat.testBit_and, Nat.testBit_two_pow_self] using this
  · intro hbit
    refine Nat.eq_of_testBit_eq fun j => ?_
    rw [Nat.testBit_and, Nat.testBit_two_pow, Nat.zero_testBit]
    by_cases hj : i = j
    · rw [← hj, hbit, Bool.false_and]
    · rw [decide_eq_false hj, Bool.and_false]

theorem mem_members_shiftRight {mask i : ℕ} : i ∈ members (mask >>> 1) ↔ i + 1 ∈ members mask := by
  rw [mem_members, mem_members, Nat.testBit_shiftRight, Nat.add_comm]

/-- Shifting out a zero moves the least element down by one. -/
theorem isLeast_shiftRight {mask least : ℕ} (hzero : 0 ∉ members mask) (h : IsLeast (members mask : Set ℕ) least) :
    ∃ least', least = least' + 1 ∧ IsLeast (members (mask >>> 1) : Set ℕ) least' := by
  cases least with
  | zero => exact absurd h.1 hzero
  | succ least' =>
      refine ⟨least', rfl, mem_members_shiftRight.mpr h.1, fun i hi => ?_⟩
      exact Nat.le_of_succ_le_succ (h.2 (mem_members_shiftRight.mp hi))

theorem card_members (mask : ℕ) : (members mask).card = mask.bitIndices.length :=
  List.toFinset_card_of_nodup Nat.bitIndices_nodup

theorem odd_and_pred (half : ℕ) : (2 * half + 1) &&& (2 * half) = 2 * half := by
  refine Nat.eq_of_testBit_eq fun i => ?_
  cases i with
  | zero => simp
  | succ i =>
      rw [Nat.testBit_and, Nat.testBit_succ, Nat.testBit_succ, show (2 * half + 1) / 2 = half by omega,
        show 2 * half / 2 = half by omega, Bool.and_self]

theorem even_and_pred (half : ℕ) : (2 * (half + 1)) &&& (2 * half + 1) = 2 * ((half + 1) &&& half) := by
  refine Nat.eq_of_testBit_eq fun i => ?_
  cases i with
  | zero => simp
  | succ i =>
      rw [Nat.testBit_and, Nat.testBit_succ, Nat.testBit_succ, Nat.testBit_succ,
        show 2 * (half + 1) / 2 = half + 1 by omega, show (2 * half + 1) / 2 = half by omega,
        show 2 * ((half + 1) &&& half) / 2 = (half + 1) &&& half by omega, Nat.testBit_and]

/-- Masking with the predecessor takes one element away. -/
theorem card_members_and_pred {mask : ℕ} (hmask : mask ≠ 0) :
    (members (mask &&& (mask - 1))).card + 1 = (members mask).card := by
  -- By halves: an odd mask loses its lowest bit, an even one passes the question to its half.
  induction mask using Nat.strong_induction_on with
  | _ mask ih =>
      obtain ⟨half, rfl | rfl⟩ : ∃ half, mask = 2 * half + 1 ∨ mask = 2 * half := by
        rcases Nat.even_or_odd' mask with ⟨half, h | h⟩
        · exact ⟨half, Or.inr h⟩
        · exact ⟨half, Or.inl h⟩
      · rw [Nat.add_sub_cancel, odd_and_pred, card_members, card_members, Nat.bitIndices_two_mul_add_one,
          Nat.bitIndices_two_mul, List.length_cons]
      · obtain ⟨half, rfl⟩ := Nat.exists_eq_succ_of_ne_zero (n := half) (by omega)
        have hhalf := ih (half + 1) (by omega) (Nat.succ_ne_zero half)
        rw [card_members, card_members, Nat.add_sub_cancel] at hhalf
        rw [show 2 * half.succ - 1 = 2 * half + 1 by omega, Nat.succ_eq_add_one, even_and_pred, card_members,
          card_members, Nat.bitIndices_two_mul, Nat.bitIndices_two_mul, List.length_map, List.length_map]
        exact hhalf

end BitMask
