import HaidiBms.Hosts.DumpAll
import HaidiBms.Session.Deadline

/-!
# A sweep of the dumping example ends

A session may wait for ever, as long as frames of the reply in flight keep coming. The program does not wait with it: its guard allows each probe half a minute. So whatever the port reads, and whatever state the program is in when a sweep starts, the sweep is over after a number of turns that only depends on the schedule.
-/

namespace Haidi

namespace DumpAll

open Clock

variable {capacity : ℕ+}

/-- The next turn waits for a probe, and so takes a while. -/
def pumps (s : DumpAll capacity) : Bool :=
  match s.phase with
  | .waiting _ _ => s.world.bms.busy || 0 < s.world.bms.pending
  | _ => false

/-- The clock shows the time, in milliseconds from any origin; it goes on in a turn that waits, and no turn takes long. -/
def Ticking (opt : Options) : DumpAll capacity → ℕ → List Turn → Prop
  | _, _, [] => True
  | s, time, t :: ts => ∃ now later, t.nowMs = .ofNat now ∧ t.laterMs = .ofNat later ∧ time ≤ now ∧ now ≤ later ∧
      later ≤ time + 2 ^ 30 ∧ (s.pumps = true → time < later) ∧ Ticking opt (turn opt s t) later ts

/-- The sweep is over. -/
def Phase.isOver : Phase → Bool
  | .issuing _ | .waiting _ _ => false
  | _ => true

/-- How many turns a probe can take. -/
def probeTurns : ℕ := probeGuardMs.toNat + 2

/-- How many turns the sweep can still take; a probe was issued at a time from which its guard is counted. -/
inductive Left (opt : Options) (time : ℕ) : Phase → ℕ → Prop
  | done {phase : Phase} (h : phase.isOver = true) : Left opt time phase 0
  | issuing (i : ℕ) : Left opt time (.issuing i) (((buildSchedule opt).length - i) * probeTurns + 1)
  | waiting (i issued : ℕ) (hi : i < (buildSchedule opt).length) (hnear : time ≤ issued + 2 ^ 30) :
      Left opt time (.waiting i (.ofNat issued + probeGuardMs))
        (((buildSchedule opt).length - (i + 1)) * probeTurns + 1 + (issued + probeGuardMs.toNat - time) + 1)

theorem Left.isOver {opt : Options} {time : ℕ} {phase : Phase} (h : Left opt time phase 0) : phase.isOver = true := by
  cases h with
  | done h => exact h

theorem probes_left {i length : ℕ} (hi : i < length) : (length - i) * probeTurns = (length - (i + 1)) * probeTurns + probeTurns := by
  rw [show length - i = length - (i + 1) + 1 by omega, Nat.succ_mul]

/-- The guard is seen passed in time. -/
theorem guard_passed {later issued : ℕ} (hpassed : issued + probeGuardMs.toNat ≤ later) (hnear : later ≤ issued + 2 ^ 30 + 2 ^ 30) :
    0 ≤ ((UInt32.ofNat later) - (UInt32.ofNat issued + probeGuardMs)).toInt32 := by
  have hguard : probeGuardMs.toNat = 30000 := rfl
  have hexpired : expired (.ofNat later) (.ofNat issued + probeGuardMs) = true := by
    rw [expired_true_time, due_iff_le (by change -(2 ^ 31) ≤ _; omega) (by change _ < (2 : ℤ) ^ 31; omega)]
    omega
  exact of_decide_eq_true hexpired

/-- A turn leaves less, unless the sweep is over. -/
theorem turn_left (opt : Options) {s : DumpAll capacity} {time n : ℕ} (h : Left opt time s.phase n) (hrunning : s.phase.isOver = false)
    {t : Turn} {now later : ℕ} (hnow : t.nowMs = .ofNat now) (hlater : t.laterMs = .ofNat later) (hsince : time ≤ now)
    (hafter : now ≤ later) (hnear : later ≤ time + 2 ^ 30) (hgoes : s.pumps = true → time < later) :
    ∃ n' < n, Left opt later (turn opt s t).phase n' := by
  have hturns : probeTurns = probeGuardMs.toNat + 2 := rfl
  have hguard : probeGuardMs.toNat = 30000 := rfl
  unfold pumps at hgoes
  unfold turn advance
  dsimp only
  generalize s.phase = phase at h hrunning hgoes
  cases h with
  | done h => exact absurd (h.symm.trans hrunning) nofun
  | issuing i =>
      dsimp only
      split_ifs with hmore hqueued
      · have hleft := probes_left hmore.1
        rw [hnow]
        exact ⟨_, by omega, .waiting i now hmore.1 (by omega)⟩
      · have hleft := probes_left hmore.1
        exact ⟨_, by omega, .issuing (i + 1)⟩
      · unfold sweepOver
        split_ifs <;> exact ⟨0, Nat.succ_pos _, .done rfl⟩
  | waiting i issued hi hstarted =>
      dsimp only
      split_ifs with hbusy hbroken hstop hpassed
      · exact ⟨0, Nat.succ_pos _, .done rfl⟩
      · exact ⟨_, by omega, .issuing (i + 1)⟩
      · exact ⟨_, by omega, .issuing (i + 1)⟩
      · have hlong := hgoes hbusy
        have hopen : later < issued + probeGuardMs.toNat := by
          by_contra hlate
          rw [hlater] at hpassed
          exact hpassed (guard_passed (not_lt.mp hlate) (by omega))
        exact ⟨_, by omega, .waiting i issued hi (by omega)⟩
      · exact ⟨_, by omega, .issuing (i + 1)⟩

/-- Whatever is received and in whatever state the program starts it, a sweep is over after so many turns for each of its probes. -/
theorem sweep_ends (opt : Options) (s : DumpAll capacity) (time : ℕ) (ts : List Turn) (hstart : s.phase = .issuing 0)
    (hclock : Ticking opt s time ts) (hlong : (buildSchedule opt).length * probeTurns + 1 ≤ ts.length) :
    ∃ k ≤ ts.length, (s.turns opt (ts.take k)).phase.isOver = true := by
  have hruns : ∀ n, Left opt time s.phase n → n ≤ ts.length → ∃ k ≤ ts.length, (s.turns opt (ts.take k)).phase.isOver = true := by
    clear hstart hlong
    induction ts generalizing s time with
    | nil =>
        intro n hleft hlong
        obtain rfl := Nat.le_zero.mp hlong
        exact ⟨0, le_rfl, hleft.isOver⟩
    | cons t rest ih =>
        intro n hleft hlong
        cases hover : s.phase.isOver with
        | true => exact ⟨0, Nat.zero_le _, hover⟩
        | false =>
            obtain ⟨now, later, hnow, hlater, hsince, hafter, hnear, hgoes, hrest⟩ := hclock
            obtain ⟨n', hless, hleft'⟩ := turn_left opt hleft hover hnow hlater hsince hafter hnear hgoes
            rw [List.length_cons] at hlong ⊢
            obtain ⟨k, hk, hdone⟩ := ih (turn opt s t) later hrest n' hleft' (by omega)
            exact ⟨k + 1, Nat.succ_le_succ hk, hdone⟩
  exact hruns _ (hstart ▸ Left.issuing 0) hlong

/-- A steady clock and a silent line. -/
def steady (time : ℕ) : ℕ → List Turn
  | 0 => []
  | n + 1 => ⟨.ofNat time, some [], .ofNat (time + 1), false⟩ :: steady (time + 1) n

theorem ticking_steady (opt : Options) (s : DumpAll capacity) (time n : ℕ) : Ticking opt s time (steady time n) := by
  induction n generalizing s time with
  | zero => trivial
  | succ n ih => exact ⟨time, time + 1, rfl, rfl, le_rfl, Nat.le_succ _, by omega, fun _ => Nat.lt_succ_self _, ih _ _⟩

theorem length_steady (time n : ℕ) : (steady time n).length = n := by
  induction n generalizing time with
  | zero => rfl
  | succ n ih => exact congrArg (· + 1) (ih (time + 1))

/-- The first sweep, of all there is to read. -/
theorem sweep_ends_silent :
    ∃ k ≤ (steady 0 1980133).length,
      (((@start 24 {} 0).turn {} ⟨0, some [], 0, false⟩).turns {} ((steady 0 1980133).take k)).phase.isOver = true :=
  sweep_ends {} _ 0 (steady 0 1980133) rfl (ticking_steady _ _ _ _)
    (by rw [length_steady]; decide +kernel)

end DumpAll

end Haidi
