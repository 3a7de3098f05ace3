import Mathlib.Tactic

/-!
# Items dealt out in batches

Items come one at a time and are held until there are `n` of them, which are then handed on as a batch. `deal` tells what happens in which order: each item as it comes, and each batch right after the item that completes it. Where the items come in groups of `n` the batches are the groups; a group that comes in part shifts every batch after it.
-/

namespace Batches

variable {α : Type} {n : ℕ}

/-- The items as they come, each batch after its last item; the first batch starts with what is held. -/
def deal (n : ℕ) : List α → List α → List (α ⊕ List α)
  | _, [] => []
  | held, item :: rest =>
    if held.length + 1 = n then .inl item :: .inr (held ++ [item]) :: deal n [] rest
    else .inl item :: deal n (held ++ [item]) rest

theorem deal_cons (held rest : List α) (item : α) : ∃ later, deal n held (item :: rest) = .inl item :: later := by
  rw [deal]
  split_ifs <;> exact ⟨_, rfl⟩

/-- What is held when the items have come. -/
def left (n : ℕ) : List α → List α → List α
  | held, [] => held
  | held, item :: rest => if held.length + 1 = n then left n [] rest else left n (held ++ [item]) rest

theorem deal_append (held items more : List α) :
    deal n held (items ++ more) = deal n held items ++ deal n (left n held items) more := by
  induction items generalizing held with
  | nil => rfl
  | cons item rest ih =>
      rw [List.cons_append, deal, deal, left]
      split_ifs
      · rw [ih]
        rfl
      · rw [ih]
        rfl

theorem left_append (held items more : List α) : left n held (items ++ more) = left n (left n held items) more := by
  induction items generalizing held with
  | nil => rfl
  | cons item rest ih =>
      rw [List.cons_append, left, left]
      split_ifs
      · exact ih []
      · exact ih _

/-- What is held is less than a batch. -/
theorem length_left {held : List α} (items : List α) (h : held.length < n) : (left n held items).length < n := by
  induction items generalizing held with
  | nil => exact h
  | cons item rest ih =>
      rw [left]
      split_ifs with hfull
      · exact ih (Nat.zero_lt_of_lt h)
      · exact ih (by rw [List.length_append, List.length_singleton]; omega)

/-- Fewer items than make a batch. -/
theorem deal_short {held items : List α} (h : held.length + items.length < n) : deal n held items = items.map .inl := by
  induction items generalizing held with
  | nil => rfl
  | cons item rest ih =>
      rw [List.length_cons] at h
      rw [deal, if_neg (by omega), ih (by rw [List.length_append, List.length_singleton]; omega), List.map_cons]

/-- The items that complete a batch. -/
theorem deal_full {held items : List α} (rest : List α) (hitems : items ≠ []) (h : held.length + items.length = n) :
    deal n held (items ++ rest) = items.map .inl ++ .inr (held ++ items) :: deal n [] rest := by
  induction items generalizing held with
  | nil => exact absurd rfl hitems
  | cons item later ih =>
      rw [List.length_cons] at h
      rw [List.cons_append, deal]
      cases later with
      | nil => exact if_pos (by simpa using h)
      | cons next later =>
          rw [List.length_cons] at h
          rw [if_neg (by omega), ih (List.cons_ne_nil _ _) (by simp; omega), List.append_assoc]
          rfl

/-- Items that come in groups of `n` are dealt out group by group. -/
theorem deal_groups {groups : List (List α)} (h : ∀ group ∈ groups, group.length = n) (hpos : 0 < n) :
    deal n [] groups.flatten = groups.flatMap fun group => group.map .inl ++ [.inr group] := by
  induction groups with
  | nil => rfl
  | cons group rest ih =>
      obtain ⟨hgroup, hrest⟩ := List.forall_mem_cons.mp h
      have hne : group ≠ [] := List.ne_nil_of_length_pos (hgroup ▸ hpos)
      rw [List.flatten_cons, deal_full _ hne (by rw [List.length_nil, hgroup, Nat.zero_add]), ih hrest,
        List.flatMap_cons, List.append_assoc]
      rfl

end Batches
