import Mathlib.Tactic

/-!
# Logs, what they replay to and what they permit

A log is a list of entries, newest first, so the past of an entry is the list behind it. `replay` is the state a log amounts to, and `Everywhere P` says of every entry that its past permits it. A state invariant that every permitted entry keeps holds after every permitted log.
-/

namespace History

variable {α σ : Type}

def replay (apply : σ → α → σ) (init : σ) : List α → σ
  | [] => init
  | a :: past => apply (replay apply init past) a

def Everywhere (P : List α → α → Prop) : List α → Prop
  | [] => True
  | a :: past => P past a ∧ Everywhere P past

instance decidableEverywhere (P : List α → α → Prop) [∀ past a, Decidable (P past a)] :
    (log : List α) → Decidable (Everywhere P log)
  | [] => isTrue trivial
  | a :: past => @instDecidableAnd (P past a) (Everywhere P past) _ (decidableEverywhere P past)

variable {P Q : List α → α → Prop}

theorem Everywhere.mono {log : List α} (h : Everywhere P log) (hPQ : ∀ past a, P past a → Q past a) :
    Everywhere Q log := by
  induction log with
  | nil => trivial
  | cons a past ih => exact ⟨hPQ past a h.1, ih h.2⟩

theorem Everywhere.past {log past : List α} (h : Everywhere P log) (hpast : past <:+ log) :
    Everywhere P past := by
  obtain ⟨later, rfl⟩ := hpast
  induction later with
  | nil => exact h
  | cons a later ih => exact ih h.2

theorem Everywhere.at {later past : List α} {a : α} (h : Everywhere P (later ++ a :: past)) : P past a :=
  (h.past (List.suffix_append later (a :: past))).1

theorem everywhere_iff {log : List α} :
    Everywhere P log ↔ ∀ later a past, log = later ++ a :: past → P past a := by
  constructor
  · rintro h later a past rfl
    exact h.at
  · intro h
    induction log with
    | nil => trivial
    | cons a past ih => exact ⟨h [] a past rfl, ih fun later b rest hlog => h (a :: later) b rest (hlog ▸ rfl)⟩

end History
