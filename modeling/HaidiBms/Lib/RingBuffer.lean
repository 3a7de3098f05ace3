import Mathlib.Tactic

/-!
# A ring buffer and the list it holds

A fixed array of slots, a head and a count, as an embedded program keeps a queue. `contents` is the list the ring stands for; `push` appends to it, `pop` drops its first element and `clear` empties it, whatever the slots outside it hold.
-/

structure RingBuffer (α : Type) (capacity : ℕ+) where
  slots : Vector α capacity
  head : Fin capacity
  count : Nat
  count_le : count ≤ capacity

namespace RingBuffer

variable {α : Type} {capacity : ℕ+} (ring : RingBuffer α capacity)

/-- The slot `i` places behind the head. -/
def slot (i : Nat) : Fin capacity := ⟨(ring.head + i) % capacity, Nat.mod_lt _ capacity.pos⟩

def contents : List α := (List.range ring.count).map fun i => ring.slots.get (ring.slot i)

def front : α := ring.slots.get ring.head

def push (a : α) (room : ring.count < capacity) : RingBuffer α capacity :=
  { ring with
    slots := ring.slots.set (ring.slot ring.count) a (ring.slot ring.count).isLt
    count := ring.count + 1
    count_le := room }

def pop : RingBuffer α capacity :=
  { ring with
    head := ring.slot 1
    count := ring.count - 1
    count_le := (Nat.sub_le _ _).trans ring.count_le }

/-- Nothing held, and `a` in every slot. -/
def replicate (a : α) : RingBuffer α capacity := ⟨Vector.replicate capacity a, ⟨0, capacity.pos⟩, 0, Nat.zero_le _⟩

def clear : RingBuffer α capacity :=
  { ring with head := ⟨0, capacity.pos⟩, count := 0, count_le := Nat.zero_le _ }

@[simp] theorem length_contents : ring.contents.length = ring.count := by
  rw [contents, List.length_map, List.length_range]

@[simp] theorem contents_clear : ring.clear.contents = [] := rfl

@[simp] theorem count_push (a : α) (room : ring.count < capacity) : (ring.push a room).count = ring.count + 1 :=
  rfl

@[simp] theorem count_pop : ring.pop.count = ring.count - 1 := rfl

theorem contents_eq_nil : ring.contents = [] ↔ ring.count = 0 := by
  rw [← List.length_eq_zero_iff, length_contents]

/-- Slots less than a lap apart are different. -/
theorem slot_ne {i j : Nat} (hij : i < j) (hj : j < i + capacity) : ring.slot i ≠ ring.slot j := by
  intro h
  have hmod : (ring.head + i) % capacity = (ring.head + j) % capacity := congrArg Fin.val h
  have hdvd : (capacity : Nat) ∣ ring.head + j - (ring.head + i) := (Nat.modEq_iff_dvd' (by omega)).mp hmod
  have := Nat.le_of_dvd (by omega) hdvd
  omega

theorem get_set_ne (slots : Vector α capacity) (i j : Fin capacity) (a : α) (h : i ≠ j) :
    (slots.set i a i.isLt).get j = slots.get j := by
  change (slots.set i a i.isLt)[j.val] = slots[j.val]
  rw [Vector.getElem_set_ne _ _ (fun hval => h (Fin.ext hval))]

theorem get_set_self (slots : Vector α capacity) (i : Fin capacity) (a : α) :
    (slots.set i a i.isLt).get i = a := by
  change (slots.set i a i.isLt)[i.val] = a
  rw [Vector.getElem_set_self]

theorem contents_push (a : α) (room : ring.count < capacity) :
    (ring.push a room).contents = ring.contents ++ [a] := by
  rw [contents, count_push, List.range_succ, List.map_append, List.map_singleton]
  congr 1
  · refine List.map_congr_left fun i hi => ?_
    have hi' : i < ring.count := List.mem_range.mp hi
    exact get_set_ne _ _ _ _ (ring.slot_ne hi' (by omega)).symm
  · exact congrArg (fun x => [x]) (get_set_self ring.slots (ring.slot ring.count) a)

theorem slot_pop (i : Nat) : ring.pop.slot i = ring.slot (i + 1) := by
  apply Fin.ext
  change ((ring.head.val + 1) % (capacity : Nat) + i) % (capacity : Nat) = (ring.head.val + (i + 1)) % (capacity : Nat)
  rw [Nat.mod_add_mod, Nat.add_assoc, Nat.add_comm 1]

theorem contents_pop : ring.pop.contents = ring.contents.tail := by
  simp only [contents, slot_pop, count_pop]
  cases ring.count with
  | zero => rfl
  | succ n =>
      rw [List.range_succ_eq_map, List.map_cons, List.tail_cons, List.map_map]
      rfl

theorem contents_eq_cons (h : 0 < ring.count) : ring.contents = ring.front :: ring.contents.tail := by
  have hslot : ring.slot 0 = ring.head := Fin.ext (Nat.mod_eq_of_lt ring.head.isLt)
  rw [contents]
  obtain ⟨n, hn⟩ := Nat.exists_eq_succ_of_ne_zero h.ne'
  rw [hn, List.range_succ_eq_map, List.map_cons, List.tail_cons, hslot]
  rfl

theorem front_of_contents {a : α} {rest : List α} (h : ring.contents = a :: rest) : ring.front = a := by
  have hpos : 0 < ring.count := by
    rw [← length_contents, h]
    exact Nat.succ_pos _
  rw [contents_eq_cons _ hpos] at h
  exact (List.cons.inj h).1

/-- What is pushed behind something leaves the front as it is. -/
theorem front_push (a : α) (room : ring.count < capacity) (h : 0 < ring.count) :
    (ring.push a room).front = ring.front := by
  have hcontents : (ring.push a room).contents = ring.front :: (ring.contents.tail ++ [a]) := by
    rw [contents_push, contents_eq_cons ring h, List.tail_cons, List.cons_append]
  exact front_of_contents (ring.push a room) hcontents

end RingBuffer
