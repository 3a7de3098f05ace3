import HaidiBms.Lib.Scanner

/-!
# Falling back into step

A scanner that has been fed noise holds the beginning of a candidate that is no frame. The next frame may complete that candidate instead of its own, and a frame with possible starts inside may leave another false candidate behind. A frame with none inside cannot: whatever the window held, it is empty once such a frame has been read, and what was lost is at most this one frame.
-/

namespace Scan.Format

variable {α : Type} (fmt : Format α)

/-- A frame that no other frame can begin inside. -/
structure Solid (frame : List α) : Prop extends fmt.Genuine frame where
  tail : ∀ a ∈ frame.tail, fmt.start a = false

/-- What is held is the end of what was held and what was read. -/
theorem run_suffix (held xs : List α) : (fmt.run held xs).1 <:+ held ++ xs := by
  induction xs generalizing held with
  | nil => rw [List.append_nil, run_nil]
  | cons a rest ih =>
      obtain ⟨before, hbefore⟩ := ih (fmt.step held a).1
      have hstep := fmt.step_accounts held a
      refine ⟨(fmt.step held a).2.symbols ++ before, ?_⟩
      rw [run_cons, List.append_assoc, hbefore, ← List.append_assoc, ← hstep, List.append_assoc]
      rfl

theorem frames_eq_nil {verdicts : List (Verdict α)} (h : ∀ v ∈ verdicts, ∀ frame, v ≠ .found frame) :
    frames verdicts = [] := by
  refine List.filterMap_eq_nil_iff.mpr fun v hv => ?_
  cases hframe : v.frame? with
  | none => rfl
  | some frame => exact absurd (Verdict.frame?_eq_some hframe) (h v hv frame)

/-- A run either accepts nothing, or there is a first symbol at which it accepts its window. -/
theorem run_first_found (held xs : List α) :
    (∀ v ∈ (fmt.run held xs).2, ∀ frame, v ≠ .found frame) ∨
      ∃ before a after, xs = before ++ a :: after ∧
        (∀ v ∈ (fmt.run held before).2, ∀ frame, v ≠ .found frame) ∧
        fmt.size ≤ ((fmt.run held before).1 ++ [a]).length ∧
        fmt.step (fmt.run held before).1 a = ([], .found ((fmt.run held before).1 ++ [a])) := by
  induction xs using List.reverseRecOn with
  | nil => exact Or.inl nofun
  | append_singleton xs a ih =>
      rcases ih with hnone | ⟨before, b, after, rfl, hnone, hfull, hfound⟩
      · rcases fmt.step_cases (fmt.run held xs).1 a with
          ⟨-, -, hs⟩ | ⟨-, ⟨early, hs, -⟩ | ⟨-, -, hs⟩ | ⟨hfull, -, -, hs⟩⟩
        case inr.inr.inr => exact Or.inr ⟨xs, a, [], rfl, hnone, hfull, hs⟩
        all_goals
          left
          intro v hv frame
          rw [run_concat, List.mem_append, List.mem_singleton] at hv
          rcases hv with hv | hv
          · exact hnone v hv frame
          · rw [hv, hs]
            exact nofun
      · exact Or.inr ⟨before, b, after ++ [a], by rw [List.append_assoc, List.cons_append], hnone, hfull, hfound⟩

/-- A solid frame empties the window whatever it held. It is found itself, unless what was held and its own beginning pass for a frame; then that one is found in its place, and nothing else. -/
theorem run_solid (held frame : List α) (hheld : held.length < fmt.size) (hframe : fmt.Solid frame) :
    (fmt.run held frame).1 = [] ∧
      (frames (fmt.run held frame).2 = [frame] ∨
        ∃ stale part rest, stale ≠ [] ∧ stale <:+ held ∧ part ≠ [] ∧ frame = part ++ rest ∧ rest ≠ [] ∧
          frames (fmt.run held frame).2 = [stale ++ part]) := by
  have hsize := hframe.length_eq
  obtain ⟨body, last, rfl⟩ : ∃ body last, frame = body ++ [last] := by
    have hne : frame ≠ [] := List.ne_nil_of_length_pos (hsize ▸ fmt.size_pos)
    exact ⟨_, _, (List.dropLast_append_getLast hne).symm⟩
  rcases fmt.run_first_found held body with hnone | ⟨before, a, after, rfl, hnone, hfull, hfound⟩
  · have hlast := fmt.run_finds held body last hheld hframe.toGenuine hnone
    rw [run_concat, hlast]
    refine ⟨rfl, Or.inl ?_⟩
    rw [frames_append, frames_eq_nil hnone]
    rfl
  · rw [List.length_append, List.length_append, List.length_cons, List.length_singleton] at hsize
    -- up to there the window ends with the frame's own beginning, so the rest of it is what was held
    obtain ⟨stale, hstale⟩ := fmt.run_tracks held (before ++ a :: after ++ [last]) hframe.toGenuine before.length
      (by omega) (by rwa [List.append_assoc, List.take_left])
    rw [List.append_assoc, List.take_left] at hstale
    have hsuffix : stale <:+ held := by
      obtain ⟨gone, hgone⟩ := fmt.run_suffix held before
      rw [hstale, ← List.append_assoc] at hgone
      exact ⟨gone, List.append_cancel_right hgone⟩
    have hgap : ∀ b ∈ after ++ [last], fmt.start b = false := by
      intro b hb
      refine hframe.tail b ?_
      cases before with
      | nil => exact hb
      | cons c rest =>
          simp only [List.cons_append, List.tail_cons, List.mem_append, List.mem_cons] at hb ⊢
          tauto
    have hwhole : before ++ a :: after ++ [last] = before ++ a :: (after ++ [last]) := by
      rw [List.append_assoc, List.cons_append]
    rw [hwhole, run_append, run_cons, hfound, fmt.run_gap _ hgap]
    refine ⟨rfl, Or.inr ⟨stale, before ++ [a], after ++ [last], ?_, hsuffix, by simp, by simp, by simp, ?_⟩⟩
    · -- with nothing stale in front the window would still be short of a frame
      rintro rfl
      rw [hstale, List.nil_append, List.length_append, List.length_singleton] at hfull
      omega
    · rw [frames_append, frames_cons, frames_eq_nil hnone, frames_gap, hstale, List.append_assoc]
      rfl

end Scan.Format
