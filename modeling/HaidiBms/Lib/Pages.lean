import Mathlib.Tactic

/-!
# Messages in numbered pages

A message is cut into pages of one width, numbered from some base, and each page is written to the place its number gives it. Pages come in any order and any number of times, and the last one is padded. Memory is a function from addresses. Where an unbroken run of pages has been written, reading across it gives the message from the run's first page on.
-/

namespace Pages

variable {α : Type}

/-- How many pages of `width` a message of `length` takes. -/
def needed (length width : ℕ) : ℕ := (length + width - 1) / width

theorem length_le_needed {length width : ℕ} (hwidth : 0 < width) : length ≤ needed length width * width := by
  have := Nat.div_add_mod (length + width - 1) width
  have := Nat.mod_lt (length + width - 1) hwidth
  rw [needed, Nat.mul_comm]
  omega

theorem needed_pos {length width : ℕ} (hlength : 0 < length) (hwidth : 0 < width) : 0 < needed length width :=
  Nat.div_pos (by omega) hwidth

/-- The content shows the message's page, and anything past the message's end. -/
def Shows (message : List α) (width page : ℕ) (content : ℕ → α) : Prop :=
  ∀ i < width, ∀ h : page * width + i < message.length, content i = message[page * width + i]

instance [DecidableEq α] (message : List α) (width page : ℕ) (content : ℕ → α) :
    Decidable (Shows message width page content) :=
  inferInstanceAs (Decidable (∀ i < width, ∀ _ : page * width + i < message.length, _ = _))

/-- The page of a number is in its place. -/
def Filed (message : List α) (width base : ℕ) (memory : ℕ → α) (number : ℕ) : Prop :=
  Shows message width (number - base) fun i => memory (number * width + i)

/-- This page stands at the place of a number. -/
def PageAt (memory : ℕ → α) (width number : ℕ) (page : ℕ → α) : Prop := ∀ i < width, memory (number * width + i) = page i

def write (memory : ℕ → α) (offset width : ℕ) (content : ℕ → α) : ℕ → α :=
  fun address => if offset ≤ address ∧ address < offset + width then content (address - offset) else memory address

variable {message : List α} {width base number : ℕ} {memory content page : ℕ → α}

theorem write_zero (offset : ℕ) : write memory offset 0 content = memory := by
  funext address
  exact if_neg (by omega)

theorem write_succ (offset : ℕ) :
    write memory offset (width + 1) content = Function.update (write memory offset width content) (offset + width) (content width) := by
  funext address
  by_cases hlast : address = offset + width
  · rw [hlast, Function.update_self, write, if_pos (by omega), Nat.add_sub_cancel_left]
  · rw [Function.update_of_ne hlast, write, write]
    exact if_congr (by omega) rfl rfl

theorem write_page {i : ℕ} (hi : i < width) :
    write memory (number * width) width content (number * width + i) = content i := by
  rw [write, if_pos ⟨Nat.le_add_right _ _, Nat.add_lt_add_left hi _⟩, Nat.add_sub_cancel_left]

/-- Pages do not overlap. -/
theorem write_other_page {other i : ℕ} (hne : other ≠ number) (hi : i < width) :
    write memory (number * width) width content (other * width + i) = memory (other * width + i) := by
  have hapart : ¬ (number * width ≤ other * width + i ∧ other * width + i < number * width + width) := by
    rintro ⟨hlow, hhigh⟩
    rcases Nat.lt_or_gt_of_ne hne with hlt | hgt
    · have := Nat.mul_le_mul_right width (Nat.succ_le_of_lt hlt)
      rw [Nat.succ_mul] at this
      omega
    · have := Nat.mul_le_mul_right width (Nat.succ_le_of_lt hgt)
      rw [Nat.succ_mul] at this
      omega
  rw [write, if_neg hapart]

theorem pageAt_write : PageAt (write memory (number * width) width content) width number content :=
  fun _ hi => write_page hi

theorem PageAt.write {other : ℕ} (h : PageAt memory width other page) (hne : other ≠ number) :
    PageAt (Pages.write memory (number * width) width content) width other page :=
  fun i hi => (write_other_page hne hi).trans (h i hi)

theorem PageAt.filed (h : PageAt memory width number page) (hshows : Shows message width (number - base) page) :
    Filed message width base memory number :=
  fun i hi hlength => (h i hi).trans (hshows i hi hlength)

/-- Pages of one width, one behind the other. -/
theorem length_flatMap_pages {page : ℕ → List α} {run : ℕ} (h : ∀ j < run, (page j).length = width) :
    ((List.range run).flatMap page).length = run * width := by
  induction run with
  | zero => rw [List.range_zero, List.flatMap_nil, List.length_nil, Nat.zero_mul]
  | succ run ih =>
      rw [List.range_succ, List.flatMap_append, List.flatMap_singleton, List.length_append,
        ih fun j hj => h j (hj.trans (Nat.lt_succ_self run)), h run (Nat.lt_succ_self run), Nat.succ_mul]

theorem getElem?_flatMap_pages {page : ℕ → List α} {run address : ℕ} (h : ∀ j < run, (page j).length = width)
    (haddress : address < run * width) :
    ((List.range run).flatMap page)[address]? = (page (address / width))[address % width]? := by
  induction run with
  | zero => exact absurd haddress (by omega)
  | succ run ih =>
      have hbefore : ∀ j < run, (page j).length = width := fun j hj => h j (hj.trans (Nat.lt_succ_self run))
      have hlength := length_flatMap_pages hbefore
      rw [List.range_succ, List.flatMap_append, List.flatMap_singleton]
      by_cases hin : address < run * width
      · rw [List.getElem?_append_left (by rw [hlength]; exact hin), ih hbefore hin]
      · rw [Nat.succ_mul] at haddress
        have hrest : address - run * width < width := by omega
        have hsplit : address = address - run * width + width * run := by
          rw [Nat.mul_comm width]
          omega
        rw [List.getElem?_append_right (by rw [hlength]; omega), hlength, hsplit,
          Nat.add_mul_div_left _ _ (by omega), Nat.div_eq_of_lt hrest, Nat.zero_add, Nat.add_mul_mod_self_left,
          Nat.mod_eq_of_lt hrest, ← hsplit]

/-- Reading across a run of pages gives the message from the run's first page on. -/
theorem read_run {first run address : ℕ} (hbase : base ≤ first)
    (hrun : ∀ j < run, Filed message width base memory (first + j)) (haddress : address < run * width)
    (hlength : (first - base) * width + address < message.length) :
    memory (first * width + address) = message[(first - base) * width + address] := by
  have hwidth : 0 < width := Nat.pos_of_ne_zero fun hzero => by
    rw [hzero, Nat.mul_zero] at haddress
    exact absurd haddress (Nat.not_lt_zero _)
  have hsplit : address / width * width + address % width = address := by
    rw [Nat.mul_comm]
    exact Nat.div_add_mod address width
  have hpage : (first + address / width - base) * width + address % width = (first - base) * width + address := by
    rw [Nat.sub_add_comm hbase, Nat.add_mul, Nat.add_assoc, hsplit]
  have hread := hrun (address / width) (Nat.div_lt_of_lt_mul (by rwa [Nat.mul_comm])) (address % width)
    (Nat.mod_lt _ hwidth) (by rw [hpage]; exact hlength)
  dsimp only at hread
  rw [Nat.add_mul, Nat.add_assoc, hsplit] at hread
  rw [hread]
  congr 1

end Pages
