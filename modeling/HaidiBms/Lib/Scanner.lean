import Mathlib.Tactic
import Mathlib.Data.List.TakeWhile

/-!
# A resynchronising window scanner

A stream of symbols is cut into frames of one fixed size by a window that grows one symbol at a time. A window may be given up early, and a full one is either a frame or given up; a window that is given up loses its first symbol and slides forward to the next symbol that could start a frame, so a frame that began inside a bad one is not lost with it.

Nothing here knows what the symbols are. The format says which symbol may start a frame, how long a frame is, which short windows are already hopeless and which full ones are frames. Two facts carry the rest: every symbol is accounted for (`run_accounts`), and a frame that nothing accepted before it overlaps is always found (`run_finds`).
-/

namespace Scan

variable {α : Type}

/-- What the scanner knows of the frames it looks for. -/
structure Format (α : Type) where
  start : α → Bool
  size : Nat
  hopeless : List α → Bool
  valid : List α → Bool
  size_pos : 0 < size

/-- What became of one symbol: where it left the window, with what the window shed. -/
inductive Verdict (α : Type)
  | skipped (a : α)
  | kept
  | found (frame : List α)
  | rejected (early : Bool) (shed : List α)

namespace Verdict

/-- The symbols that left the window. -/
def symbols : Verdict α → List α
  | skipped a => [a]
  | kept => []
  | found frame => frame
  | rejected _ shed => shed

/-- The symbols that left the window outside a frame. -/
def junk : Verdict α → List α
  | skipped a => [a]
  | kept => []
  | found _ => []
  | rejected _ shed => shed

def frame? : Verdict α → Option (List α)
  | found frame => some frame
  | _ => none

def isRejected : Verdict α → Bool
  | rejected _ _ => true
  | _ => false

theorem frame?_eq_some {v : Verdict α} {frame : List α} (h : v.frame? = some frame) : v = .found frame := by
  cases v with
  | found other => exact congrArg found (Option.some.inj h)
  | _ => cases h

theorem of_frame?_some (v : Verdict α) {frame : List α} (h : v.frame? = some frame) :
    v.symbols = frame ∧ v.junk = [] := by
  rw [frame?_eq_some h]
  exact ⟨rfl, rfl⟩

theorem of_frame?_none (v : Verdict α) (h : v.frame? = none) : v.symbols = v.junk := by
  cases v with
  | found other => cases h
  | _ => rfl

end Verdict

namespace Format

variable (fmt : Format α)

/-- The window that is left once the first symbol is known bad. -/
def slide (window : List α) : List α := window.tail.dropWhile fun a => !fmt.start a

/-- What sliding drops: the first symbol and everything up to the next possible start. -/
def shed (window : List α) : List α :=
  window.take 1 ++ window.tail.takeWhile fun a => !fmt.start a

def reject (early : Bool) (window : List α) : List α × Verdict α :=
  (fmt.slide window, .rejected early (fmt.shed window))

def step (held : List α) (a : α) : List α × Verdict α :=
  if held = [] ∧ !fmt.start a then ([], .skipped a)
  else
    let window := held ++ [a]
    if fmt.hopeless window then fmt.reject true window
    else if window.length < fmt.size then (window, .kept)
    else if fmt.valid window then ([], .found window)
    else fmt.reject false window

def run (held : List α) : List α → List α × List (Verdict α)
  | [] => (held, [])
  | a :: rest =>
    let now := fmt.step held a
    let later := run now.1 rest
    (later.1, now.2 :: later.2)

def frames (verdicts : List (Verdict α)) : List (List α) := verdicts.filterMap Verdict.frame?

def junk (verdicts : List (Verdict α)) : List α := verdicts.flatMap Verdict.junk

/-- The symbols a window may hold between steps: short of a frame, and begun by a possible start. -/
def Held (held : List α) : Prop := held.length < fmt.size ∧ ∀ a, held.head? = some a → fmt.start a

@[simp] theorem run_nil (held : List α) : fmt.run held [] = (held, []) := rfl

theorem run_append (held xs ys : List α) :
    fmt.run held (xs ++ ys) =
      ((fmt.run (fmt.run held xs).1 ys).1, (fmt.run held xs).2 ++ (fmt.run (fmt.run held xs).1 ys).2) := by
  induction xs generalizing held with
  | nil => rfl
  | cons a rest ih => simp only [List.cons_append, run, ih]

theorem run_concat (held xs : List α) (a : α) :
    fmt.run held (xs ++ [a]) =
      ((fmt.step (fmt.run held xs).1 a).1, (fmt.run held xs).2 ++ [(fmt.step (fmt.run held xs).1 a).2]) := by
  rw [run_append]
  rfl

/-- The verdict on a symbol is the step taken there. -/
theorem exists_step_of_mem (held xs : List α) (v : Verdict α) (h : v ∈ (fmt.run held xs).2) :
    ∃ i, ∃ hi : i < xs.length, v = (fmt.step (fmt.run held (xs.take i)).1 xs[i]).2 := by
  induction xs using List.reverseRecOn with
  | nil => cases h
  | append_singleton xs a ih =>
      rw [run_concat, List.mem_append, List.mem_singleton] at h
      rcases h with h | h
      · obtain ⟨i, hi, hv⟩ := ih h
        refine ⟨i, by rw [List.length_append]; omega, ?_⟩
        rw [List.take_append_of_le_length hi.le, List.getElem_append_left hi]
        exact hv
      · refine ⟨xs.length, by simp, ?_⟩
        rw [List.take_left, List.getElem_concat_length rfl]
        exact h

theorem frames_cons (v : Verdict α) (vs : List (Verdict α)) :
    frames (v :: vs) = v.frame?.toList ++ frames vs := by
  rw [frames, List.filterMap_cons]
  cases v.frame? <;> rfl

@[simp] theorem frames_append (xs ys : List (Verdict α)) : frames (xs ++ ys) = frames xs ++ frames ys :=
  List.filterMap_append

@[simp] theorem junk_append (xs ys : List (Verdict α)) : junk (xs ++ ys) = junk xs ++ junk ys :=
  List.flatMap_append

/-! ### What one step does -/

theorem shed_append_slide (window : List α) : fmt.shed window ++ fmt.slide window = window := by
  rw [shed, slide, List.append_assoc, List.takeWhile_append_dropWhile]
  cases window <;> rfl

theorem slide_length_lt (window : List α) (h : window ≠ []) :
    (fmt.slide window).length < window.length := by
  have hle : (fmt.slide window).length ≤ window.tail.length := (List.dropWhile_sublist _).length_le
  have hpos : 0 < window.length := List.length_pos_iff.mpr h
  rw [List.length_tail] at hle
  omega

theorem start_of_head?_slide (window : List α) (a : α) (h : (fmt.slide window).head? = some a) :
    fmt.start a := by
  have := List.head?_dropWhile_not (fun a => !fmt.start a) window.tail
  rw [show List.dropWhile (fun a => !fmt.start a) window.tail = fmt.slide window from rfl, h] at this
  simpa using this

/-- The cases of a step, with the guard of each. -/
theorem step_cases (held : List α) (a : α) :
    (held = [] ∧ fmt.start a = false ∧ fmt.step held a = ([], .skipped a)) ∨
    ((held = [] → fmt.start a = true) ∧
      ((∃ early, fmt.step held a = fmt.reject early (held ++ [a]) ∧
          (early = true ∧ fmt.hopeless (held ++ [a]) = true ∨
            early = false ∧ fmt.size ≤ (held ++ [a]).length ∧ fmt.valid (held ++ [a]) = false)) ∨
        ((held ++ [a]).length < fmt.size ∧ fmt.hopeless (held ++ [a]) = false ∧
          fmt.step held a = (held ++ [a], .kept)) ∨
        (fmt.size ≤ (held ++ [a]).length ∧ fmt.hopeless (held ++ [a]) = false ∧
          fmt.valid (held ++ [a]) = true ∧ fmt.step held a = ([], .found (held ++ [a]))))) := by
  unfold step
  by_cases hskip : held = [] ∧ !fmt.start a
  · left
    rw [if_pos hskip]
    exact ⟨hskip.1, by simpa using hskip.2, rfl⟩
  · right
    rw [if_neg hskip]
    refine ⟨fun hnil => by simpa [hnil] using hskip, ?_⟩
    by_cases hhope : fmt.hopeless (held ++ [a]) = true
    · left
      exact ⟨true, by simp only [hhope, if_true], Or.inl ⟨rfl, hhope⟩⟩
    by_cases hlen : (held ++ [a]).length < fmt.size
    · right; left
      exact ⟨hlen, by simpa using hhope, by simp only [hhope, hlen, if_true]; rfl⟩
    by_cases hvalid : fmt.valid (held ++ [a]) = true
    · right; right
      exact ⟨by omega, by simpa using hhope, hvalid, by simp only [hhope, hlen, hvalid, if_true, if_false]; rfl⟩
    · left
      exact ⟨false, by simp only [hhope, hlen, hvalid, if_false]; rfl,
        Or.inr ⟨rfl, by omega, by simpa using hvalid⟩⟩

/-- No symbol is lost: what was held and the new symbol are what left the window and what it holds. -/
theorem step_accounts (held : List α) (a : α) :
    held ++ [a] = (fmt.step held a).2.symbols ++ (fmt.step held a).1 := by
  rcases fmt.step_cases held a with ⟨rfl, -, h⟩ | ⟨-, ⟨early, h, -⟩ | ⟨-, -, h⟩ | ⟨-, -, -, h⟩⟩ <;> rw [h]
  · rfl
  · exact (fmt.shed_append_slide _).symm
  · rfl
  · exact (List.append_nil _).symm

theorem held_nil : fmt.Held [] := ⟨fmt.size_pos, by simp⟩

theorem step_length_lt (held : List α) (a : α) (h : held.length < fmt.size) :
    (fmt.step held a).1.length < fmt.size := by
  rcases fmt.step_cases held a with ⟨-, -, hs⟩ | ⟨-, ⟨early, hs, -⟩ | ⟨hshort, -, hs⟩ | ⟨-, -, -, hs⟩⟩ <;> rw [hs]
  · exact fmt.size_pos
  · have := fmt.slide_length_lt (held ++ [a]) (by simp)
    rw [List.length_append, List.length_singleton] at this
    exact show (fmt.slide _).length < _ by omega
  · exact hshort
  · exact fmt.size_pos

theorem run_length_lt (held xs : List α) (h : held.length < fmt.size) :
    (fmt.run held xs).1.length < fmt.size := by
  induction xs generalizing held with
  | nil => exact h
  | cons a rest ih => exact ih _ (fmt.step_length_lt held a h)

theorem step_held (held : List α) (a : α) (h : fmt.Held held) : fmt.Held (fmt.step held a).1 := by
  refine ⟨fmt.step_length_lt held a h.1, fun b hb => ?_⟩
  rcases fmt.step_cases held a with ⟨-, -, hs⟩ | ⟨hfirst, ⟨early, hs, -⟩ | ⟨-, -, hs⟩ | ⟨-, -, -, hs⟩⟩ <;>
    rw [hs] at hb
  · cases hb
  · exact fmt.start_of_head?_slide _ b hb
  · cases held with
    | nil =>
        obtain rfl : a = b := by simpa using hb
        exact hfirst rfl
    | cons c rest => exact h.2 b (by simpa using hb)
  · cases hb

theorem run_held (held xs : List α) (h : fmt.Held held) : fmt.Held (fmt.run held xs).1 := by
  induction xs generalizing held with
  | nil => exact h
  | cons a rest ih => exact ih _ (fmt.step_held held a h)

/-- A frame has the format's size, passed its check and begins with a possible start. -/
theorem step_found (held : List α) (a : α) (frame : List α) (h : fmt.Held held)
    (hfound : (fmt.step held a).2 = .found frame) :
    frame = held ++ [a] ∧ frame.length = fmt.size ∧ fmt.valid frame = true ∧
      ∀ b, frame.head? = some b → fmt.start b := by
  rcases fmt.step_cases held a with ⟨-, -, hs⟩ | ⟨hfirst, ⟨early, hs, -⟩ | ⟨-, -, hs⟩ | ⟨hlen, -, hvalid, hs⟩⟩ <;>
    rw [hs] at hfound
  · cases hfound
  · cases hfound
  · cases hfound
  · obtain rfl : held ++ [a] = frame := by simpa using hfound
    have hshort := h.1
    rw [List.length_append, List.length_singleton] at hlen
    refine ⟨rfl, by rw [List.length_append, List.length_singleton]; omega, hvalid, fun b hb => ?_⟩
    cases held with
    | nil =>
        obtain rfl : a = b := by simpa using hb
        exact hfirst rfl
    | cons c rest => exact h.2 b (by simpa using hb)

/-! ### Every symbol is accounted for -/

/-- A step that gives up a window sheds exactly one possible start, and one that skips sheds none. -/
theorem step_starts (held : List α) (a : α) (h : fmt.Held held) :
    (fmt.step held a).2.junk.countP fmt.start = (fmt.step held a).2.isRejected.toNat := by
  rcases fmt.step_cases held a with ⟨-, hno, hs⟩ | ⟨hfirst, ⟨early, hs, -⟩ | ⟨-, -, hs⟩ | ⟨-, -, -, hs⟩⟩ <;> rw [hs]
  · simp [Verdict.junk, Verdict.isRejected, hno]
  · have hnone : ∀ xs : List α, (xs.takeWhile fun b => !fmt.start b).countP fmt.start = 0 := by
      intro xs
      rw [List.countP_eq_zero]
      intro b hb
      simpa using List.mem_takeWhile_imp hb
    change (fmt.shed (held ++ [a])).countP fmt.start = 1
    rw [shed, List.countP_append, hnone]
    cases held with
    | nil => simp [hfirst rfl]
    | cons c rest => simp [h.2 c rfl]
  · rfl
  · rfl

/-- The stream so far is junk and frames in turn, then what the window still holds. -/
theorem run_accounts (xs : List α) :
    ∃ (before : List (List α)) (last : List α),
      before.length = (frames (fmt.run [] xs).2).length ∧
      xs = (List.zipWith (· ++ ·) before (frames (fmt.run [] xs).2)).flatten ++ last ++ (fmt.run [] xs).1 ∧
      before.flatten ++ last = junk (fmt.run [] xs).2 := by
  induction xs using List.reverseRecOn with
  | nil => exact ⟨[], [], rfl, rfl, rfl⟩
  | append_singleton xs a ih =>
      obtain ⟨before, last, hlen, hxs, hjunk⟩ := ih
      have hstep := fmt.step_accounts (fmt.run [] xs).1 a
      rw [run_concat]
      generalize (fmt.step (fmt.run [] xs).1 a).2 = v at hstep ⊢
      -- a frame closes the current stretch of junk and opens an empty one; anything else extends it
      cases hv : v.frame? with
      | some frame =>
          obtain ⟨hsymbols, hnone⟩ := v.of_frame?_some hv
          refine ⟨before ++ [last], [], ?_, ?_, ?_⟩
          · simpa [frames, hv] using hlen
          · rw [frames_append, List.zipWith_append hlen, List.flatten_append]
            conv_lhs => rw [hxs, List.append_assoc, hstep, hsymbols]
            simp [frames, hv]
          · rw [junk_append, ← hjunk]
            simp [junk, hnone]
      | none =>
          refine ⟨before, last ++ v.junk, ?_, ?_, ?_⟩
          · simpa [frames, hv] using hlen
          · rw [frames_append]
            conv_lhs => rw [hxs, List.append_assoc, hstep, v.of_frame?_none hv]
            simp [frames, hv]
          · rw [← List.append_assoc, hjunk, junk_append]
            simp [junk]

/-- Every possible start that left the window outside a frame was one given-up window. -/
theorem run_starts (held xs : List α) (h : fmt.Held held) :
    (junk (fmt.run held xs).2).countP fmt.start = (fmt.run held xs).2.countP Verdict.isRejected := by
  induction xs generalizing held with
  | nil => rfl
  | cons a rest ih =>
      have hstep := fmt.step_starts held a h
      have hrest := ih (fmt.step held a).1 (fmt.step_held held a h)
      simp only [run, junk, List.flatMap_cons, List.countP_append, List.countP_cons] at hrest ⊢
      rw [hstep, hrest, Nat.add_comm]
      cases (fmt.step held a).2.isRejected <;> rfl

/-! ### A frame that nothing before it overlaps is found -/

/-- A frame the scanner accepts when it is read from an empty window. -/
structure Genuine (frame : List α) : Prop where
  length_eq : frame.length = fmt.size
  start : ∀ a, frame.head? = some a → fmt.start a
  not_hopeless : ∀ n, fmt.hopeless (frame.take n) = false
  valid : fmt.valid frame = true

theorem Genuine.start_take {frame : List α} (h : fmt.Genuine frame) (n : ℕ) :
    ∀ a, (frame.take (n + 1)).head? = some a → fmt.start a := by
  rw [List.head?_take, if_neg (Nat.succ_ne_zero n)]
  exact h.start

/-- Sliding never steps over a possible start: a suffix that begins with one survives it. -/
theorem slide_keeps (pre suffix : List α) (hpre : pre ≠ []) (hne : suffix ≠ [])
    (hs : ∀ a, suffix.head? = some a → fmt.start a) :
    ∃ pre', fmt.slide (pre ++ suffix) = pre' ++ suffix := by
  obtain ⟨c, more, rfl⟩ := List.exists_cons_of_ne_nil hpre
  obtain ⟨s, rest, rfl⟩ := List.exists_cons_of_ne_nil hne
  have hstart : fmt.start s = true := hs s rfl
  refine ⟨more.dropWhile fun a => !fmt.start a, ?_⟩
  rw [slide, List.cons_append, List.tail_cons, List.dropWhile_append]
  split_ifs with hall
  · rw [List.isEmpty_iff] at hall
    simp [hall, hstart]
  · rfl

/-- A frame on its way: while the window ends with the first symbols of a frame, the next symbol of that frame leaves it so, unless it completes an accepted window. -/
theorem step_tracks (pre part : List α) (a : α)
    (hs : ∀ b, (part ++ [a]).head? = some b → fmt.start b)
    (hhope : fmt.hopeless (part ++ [a]) = false) (hshort : (part ++ [a]).length < fmt.size)
    (hno : ∀ frame, (fmt.step (pre ++ part) a).2 ≠ .found frame) :
    ∃ pre', (fmt.step (pre ++ part) a).1 = pre' ++ (part ++ [a]) := by
  rcases fmt.step_cases (pre ++ part) a with
    ⟨hnil, hnot, -⟩ | ⟨-, ⟨early, hstep, hwhy⟩ | ⟨-, -, hstep⟩ | ⟨-, -, -, hstep⟩⟩
  · obtain ⟨rfl, rfl⟩ := List.append_eq_nil_iff.mp hnil
    rw [hs a rfl] at hnot
    cases hnot
  · -- the window given up is not the frame's own, so what it sheds comes before the frame
    have hpre : pre ≠ [] := by
      rintro rfl
      rw [List.nil_append] at hwhy
      rcases hwhy with ⟨-, h⟩ | ⟨-, h, -⟩
      · rw [hhope] at h
        cases h
      · omega
    obtain ⟨pre', hslide⟩ := fmt.slide_keeps pre (part ++ [a]) hpre (by simp) hs
    refine ⟨pre', ?_⟩
    rw [hstep, List.append_assoc]
    exact hslide
  · exact ⟨pre, by rw [hstep, List.append_assoc]⟩
  · exact absurd (congrArg Prod.snd hstep) (hno _)

/-- Reading part of a genuine frame leaves that part at the end of the window. -/
theorem run_tracks (held frame : List α) (hframe : fmt.Genuine frame) (n : Nat) (hn : n < fmt.size)
    (hno : ∀ v ∈ (fmt.run held (frame.take n)).2, ∀ other, v ≠ .found other) :
    ∃ pre, (fmt.run held (frame.take n)).1 = pre ++ frame.take n := by
  induction n with
  | zero => exact ⟨held, by simp⟩
  | succ n ih =>
      have hlt : n < frame.length := by
        rw [hframe.length_eq]
        omega
      rw [List.take_succ_eq_append_getElem hlt, run_concat] at hno ⊢
      obtain ⟨pre, hpre⟩ := ih (by omega) fun v hv => hno v (List.mem_append_left _ hv)
      rw [hpre] at hno ⊢
      have hwhole := List.take_succ_eq_append_getElem hlt
      refine fmt.step_tracks pre (frame.take n) frame[n] ?_ ?_ ?_ (hno _ (by simp)) <;> rw [← hwhole]
      · exact hframe.start_take fmt n
      · exact hframe.not_hopeless _
      · rw [List.length_take]
        omega

theorem step_keeps (part : List α) (a : α) (hs : ∀ b, (part ++ [a]).head? = some b → fmt.start b)
    (hhope : fmt.hopeless (part ++ [a]) = false) (hshort : (part ++ [a]).length < fmt.size) :
    fmt.step part a = (part ++ [a], .kept) := by
  rcases fmt.step_cases part a with
    ⟨rfl, hnot, -⟩ | ⟨-, ⟨early, -, hwhy⟩ | ⟨-, -, hstep⟩ | ⟨hlen, -, -, -⟩⟩
  · rw [hs a rfl] at hnot
    cases hnot
  · rcases hwhy with ⟨-, h⟩ | ⟨-, h, -⟩
    · rw [hhope] at h
      cases h
    · omega
  · exact hstep
  · omega

/-- A genuine frame read from an empty window is kept until its last symbol. -/
theorem run_keeps (frame : List α) (hframe : fmt.Genuine frame) (n : Nat) (hn : n < fmt.size) :
    fmt.run [] (frame.take n) = (frame.take n, List.replicate n .kept) := by
  induction n with
  | zero => rfl
  | succ n ih =>
      have hlt : n < frame.length := by
        rw [hframe.length_eq]
        omega
      have hwhole := List.take_succ_eq_append_getElem hlt
      have hstep : fmt.step (frame.take n) frame[n] = (frame.take n ++ [frame[n]], .kept) := by
        refine fmt.step_keeps _ _ ?_ ?_ ?_ <;> rw [← hwhole]
        · exact hframe.start_take fmt n
        · exact hframe.not_hopeless _
        · rw [List.length_take]
          omega
      rw [hwhole, run_concat, ih (by omega), hstep, List.replicate_succ']

/-- A genuine frame is found at its last symbol, whatever the window held before its first, unless a window accepted in between overlaps it. -/
theorem run_finds (held body : List α) (last : α) (h : held.length < fmt.size)
    (hframe : fmt.Genuine (body ++ [last]))
    (hno : ∀ v ∈ (fmt.run held body).2, ∀ other, v ≠ .found other) :
    fmt.step (fmt.run held body).1 last = ([], .found (body ++ [last])) := by
  have hsize := hframe.length_eq
  rw [List.length_append, List.length_singleton] at hsize
  have htake : (body ++ [last]).take body.length = body := List.take_left
  have htracks := fmt.run_tracks held (body ++ [last]) hframe body.length (by omega)
  rw [htake] at htracks
  obtain ⟨pre, hpre⟩ := htracks hno
  -- the window is short of a frame, so nothing stands before this one
  have hheld := fmt.run_length_lt held body h
  rw [hpre, List.length_append] at hheld
  obtain rfl : pre = [] := List.length_eq_zero_iff.mp (by omega)
  rw [hpre, List.nil_append]
  have hhope := hframe.not_hopeless (body ++ [last]).length
  rw [List.take_length] at hhope
  rcases fmt.step_cases body last with
    ⟨rfl, hnot, -⟩ | ⟨-, ⟨early, -, hwhy⟩ | ⟨hlen, -, -⟩ | ⟨-, -, -, hstep⟩⟩
  · rw [hframe.start last rfl] at hnot
    cases hnot
  · rcases hwhy with ⟨-, h⟩ | ⟨-, -, h⟩
    · rw [hhope] at h
      cases h
    · rw [hframe.valid] at h
      cases h
  · rw [List.length_append, List.length_singleton] at hlen
    omega
  · exact hstep

/-- The last symbol of a frame of which the window holds the others. -/
theorem step_last {part : List α} {a : α} (h : fmt.Genuine (part ++ [a])) : fmt.step part a = ([], .found (part ++ [a])) := by
  have hsize := h.length_eq
  rw [List.length_append, List.length_singleton] at hsize
  have hkept := fmt.run_keeps _ h part.length (by omega)
  rw [List.take_left] at hkept
  have hfinds := fmt.run_finds [] part a fmt.size_pos h fun v hv other => by
    rw [hkept] at hv
    rw [List.eq_of_mem_replicate hv]
    exact nofun
  rwa [hkept] at hfinds

/-- A symbol before the last. -/
theorem step_inner {part rest : List α} {a : α} (h : fmt.Genuine (part ++ a :: rest)) (hrest : rest ≠ []) :
    fmt.step part a = (part ++ [a], .kept) := by
  have hpart : (part ++ a :: rest).take (part.length + 1) = part ++ [a] := by
    rw [List.append_cons]
    exact List.take_left' (List.length_append)
  have hsize := h.length_eq
  have hpos := List.length_pos_iff.mpr hrest
  rw [List.length_append, List.length_cons] at hsize
  refine fmt.step_keeps part a ?_ ?_ ?_
  · rw [← hpart]
    exact h.start_take fmt part.length
  · rw [← hpart]
    exact h.not_hopeless _
  · rw [List.length_append, List.length_singleton]
    omega

/-! ### Frames with gaps between them -/

theorem run_cons (held : List α) (a : α) (rest : List α) :
    fmt.run held (a :: rest) =
      ((fmt.run (fmt.step held a).1 rest).1, (fmt.step held a).2 :: (fmt.run (fmt.step held a).1 rest).2) := rfl

/-- Symbols that start no frame pass an empty window by. -/
theorem run_gap (gap : List α) (h : ∀ a ∈ gap, fmt.start a = false) :
    fmt.run [] gap = ([], gap.map .skipped) := by
  induction gap with
  | nil => rfl
  | cons a rest ih =>
      have hskip : fmt.step [] a = ([], .skipped a) := by
        rw [step, if_pos ⟨rfl, by rw [h a List.mem_cons_self]; rfl⟩]
      rw [run_cons, hskip, ih fun b hb => h b (List.mem_cons_of_mem _ hb), List.map_cons]

/-- A genuine frame read from an empty window is found at its last symbol, and nothing else happens. -/
theorem run_genuine (frame : List α) (hframe : fmt.Genuine frame) :
    fmt.run [] frame = ([], List.replicate (fmt.size - 1) .kept ++ [.found frame]) := by
  have hne : frame ≠ [] := by
    apply List.ne_nil_of_length_pos
    rw [hframe.length_eq]
    exact fmt.size_pos
  have hbody := fmt.run_keeps frame hframe (fmt.size - 1) (Nat.sub_lt fmt.size_pos one_pos)
  rw [← hframe.length_eq, ← List.dropLast_eq_take] at hbody
  have hwhole := List.dropLast_append_getLast hne
  have hlast := fmt.run_finds [] frame.dropLast (frame.getLast hne) fmt.size_pos (hwhole.symm ▸ hframe) (by
    rw [hbody]
    intro v hv other
    rw [List.eq_of_mem_replicate hv]
    exact nofun)
  have hrun := fmt.run_concat [] frame.dropLast (frame.getLast hne)
  rwa [hlast, hbody, hwhole, hframe.length_eq] at hrun

theorem frames_gap (gap : List α) : frames (gap.map .skipped) = [] :=
  List.filterMap_eq_nil_iff.mpr (by
    intro v hv
    obtain ⟨a, -, rfl⟩ := List.mem_map.mp hv
    rfl)

theorem junk_gap (gap : List α) : junk (gap.map .skipped) = gap := by
  induction gap with
  | nil => rfl
  | cons a rest ih => exact congrArg (a :: ·) ih

theorem frames_kept (n : Nat) : frames (List.replicate n (.kept : Verdict α)) = [] := by
  induction n with
  | zero => rfl
  | succ n ih => exact ih

theorem junk_kept (n : Nat) : junk (List.replicate n (.kept : Verdict α)) = [] := by
  induction n with
  | zero => rfl
  | succ n ih => exact ih

/-- Genuine frames with gaps before, between and after them: each frame is found, each gap is shed whole, and no window is given up. -/
theorem run_spaced (spaced : List (List α × List α)) (last : List α)
    (hgaps : ∀ piece ∈ spaced, ∀ a ∈ piece.1, fmt.start a = false)
    (hframes : ∀ piece ∈ spaced, fmt.Genuine piece.2) (hlast : ∀ a ∈ last, fmt.start a = false) :
    let after := fmt.run [] (spaced.flatMap (fun piece => piece.1 ++ piece.2) ++ last)
    after.1 = [] ∧ frames after.2 = spaced.map Prod.snd ∧ junk after.2 = spaced.flatMap Prod.fst ++ last ∧
      ∀ v ∈ after.2, v.isRejected = false := by
  induction spaced with
  | nil =>
      simp only [List.flatMap_nil, List.nil_append, fmt.run_gap last hlast]
      refine ⟨trivial, frames_gap last, junk_gap last, fun v hv => ?_⟩
      obtain ⟨a, -, rfl⟩ := List.mem_map.mp hv
      rfl
  | cons piece rest ih =>
      obtain ⟨hheld, hfound, hshed, hnone⟩ := ih (fun q hq => hgaps q (List.mem_cons_of_mem _ hq))
        (fun q hq => hframes q (List.mem_cons_of_mem _ hq))
      have hgap := fmt.run_gap piece.1 (hgaps piece List.mem_cons_self)
      have hframe := fmt.run_genuine piece.2 (hframes piece List.mem_cons_self)
      rw [List.flatMap_cons, List.append_assoc, List.append_assoc]
      -- the stream after this frame is the one the hypothesis speaks of
      generalize rest.flatMap (fun piece => piece.1 ++ piece.2) ++ last = more at *
      rw [run_append, hgap, run_append, hframe]
      refine ⟨hheld, ?_, ?_, ?_⟩
      · rw [frames_append, frames_append, frames_append, frames_gap, frames_kept, hfound]
        rfl
      · rw [junk_append, junk_append, junk_append, junk_gap, junk_kept, hshed, List.flatMap_cons,
          List.append_assoc, List.append_assoc]
        rfl
      · intro v hv
        rcases List.mem_append.mp hv with hv | hv
        · obtain ⟨a, -, rfl⟩ := List.mem_map.mp hv
          rfl
        rcases List.mem_append.mp hv with hv | hv
        · rcases List.mem_append.mp hv with hv | hv
          · rw [List.eq_of_mem_replicate hv]
            rfl
          · rw [List.mem_singleton.mp hv]
            rfl
        · exact hnone v hv

end Format

end Scan
