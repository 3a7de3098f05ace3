import HaidiBms.Session.Rules

/-!
# The ledger of requests

What the session is for, without its queue, its timers or its buffers. A `Ledger` is read off the log alone: which accepted requests have not ended, in order, whether the oldest of them has the bus, how often it has been sent, how the others ended, and how far the dispatch of the latest event has got. `Permits` says which entry may come next: the bus serves one request at a time and in order, an outcome belongs to the request on the bus, and each event is told to its owner first.

The refinement shows that every run of the session writes a log the ledger permits.
-/

namespace Haidi

/-- How a request ended. -/
inductive Outcome
  | event (event : Event)
  | sentinel
  | reset
  deriving DecidableEq

/-- How far the dispatch of an event has got. -/
inductive Phase
  | quiet
  | raised (event : Event) (owner : Option Request)
  | running (handler : Handler) (event : Event)
  | toldOwner (event : Event)
  | toldAll
  deriving DecidableEq

/-- The request's handler comes first, at once; the session-wide one after it. -/
def Phase.Tells (phase : Phase) (handler : Handler) (event : Event) : Prop :=
  match phase, handler with
  | .raised current owner, .perRequest fn ctx =>
      current = event ∧ owner.bind Request.handler = some (.perRequest fn ctx)
  | .raised current owner, .sessionWide _ _ => current = event ∧ owner.bind Request.handler = none
  | .toldOwner current, .sessionWide _ _ => current = event
  | _, _ => False

/-- Once a handler has returned. -/
def Phase.after (handler : Handler) (event : Event) : Phase :=
  match handler with
  | .perRequest _ _ => .toldOwner event
  | .sessionWide _ _ => .toldAll

/-- Nothing is left to be told to the owner. -/
def Phase.MaySettle : Phase → Prop
  | .raised _ owner => owner.bind Request.handler = none
  | .toldOwner _ | .toldAll => True
  | .quiet | .running _ _ => False

structure Ledger where
  /-- How many requests have been accepted; the next is given this number. -/
  issued : Nat := 0
  /-- The accepted requests that have not ended, oldest first. -/
  live : List (Nat × Request) := []
  /-- The oldest of them has the bus. -/
  inFlight : Bool := false
  /-- How often it has been sent. -/
  copies : Nat := 0
  /-- The requests that have ended, latest first. -/
  ended : List (Nat × Outcome) := []
  phase : Phase := .quiet

namespace Ledger

/-- The request on the bus. -/
def owner (ledger : Ledger) : Option Request :=
  if ledger.inFlight then ledger.live.head?.map Prod.snd else none

/-- The oldest request ends. -/
def retire (ledger : Ledger) (outcome : Outcome) : Ledger :=
  match ledger.live with
  | [] => ledger
  | (number, _) :: rest =>
      { ledger with live := rest, inFlight := false, ended := (number, outcome) :: ledger.ended }

def next (ledger : Ledger) (obs : Obs) : Ledger :=
  match obs with
  | .answered req .queued =>
      { ledger with issued := ledger.issued + 1, live := ledger.live ++ [(ledger.issued, req)] }
  | .began => { ledger with inFlight := true, copies := 0 }
  | .sent _ _ _ => { ledger with copies := ledger.copies + 1 }
  | .raised event =>
      let after := if ledger.inFlight && event.isTerminal then ledger.retire (.event event) else ledger
      { after with phase := .raised event ledger.owner }
  | .invoked handler event => { ledger with phase := .running handler event }
  | .returned =>
      match ledger.phase with
      | .running handler event => { ledger with phase := .after handler event }
      | _ => ledger
  | .settled => { ledger with phase := .quiet }
  | .streamEnded => ledger.retire .sentinel
  | .reset =>
      { ledger with
        live := []
        inFlight := false
        ended := (ledger.live.map fun entry => (entry.1, Outcome.reset)).reverse ++ ledger.ended }
  | _ => ledger

end Ledger

namespace Ledger

theorem owner_eq_some {ledger : Ledger} {req : Request} (h : ledger.owner = some req) :
    ledger.inFlight = true ∧ ∃ number rest, ledger.live = (number, req) :: rest := by
  unfold owner at h
  split_ifs at h with hflight
  refine ⟨hflight, ?_⟩
  obtain ⟨⟨number, other⟩, hhead, rfl⟩ := Option.map_eq_some_iff.mp h
  exact ⟨number, ledger.live.tail, List.eq_cons_of_mem_head? hhead⟩

theorem owner_isSome {ledger : Ledger} (hflight : ledger.inFlight = true) (hlive : ledger.live ≠ []) :
    ∃ req, ledger.owner = some req := by
  obtain ⟨⟨number, req⟩, rest, hcons⟩ := List.exists_cons_of_ne_nil hlive
  exact ⟨req, by rw [owner, if_pos hflight, hcons]; rfl⟩

theorem retire_live (ledger : Ledger) (outcome : Outcome) : (ledger.retire outcome).live = ledger.live.tail := by
  unfold retire
  cases hlive : ledger.live with
  | nil => exact hlive
  | cons head rest => rfl

theorem retire_inFlight {ledger : Ledger} (outcome : Outcome) (hlive : ledger.live ≠ []) :
    (ledger.retire outcome).inFlight = false := by
  unfold retire
  cases h : ledger.live with
  | nil => exact absurd h hlive
  | cons head rest => rfl

theorem retire_phase (ledger : Ledger) (outcome : Outcome) : (ledger.retire outcome).phase = ledger.phase := by
  unfold retire
  cases ledger.live <;> rfl

/-- A refused request is not on the ledger. -/
theorem next_refused (ledger : Ledger) (req : Request) {status : QueueStatus} (h : status ≠ .queued) :
    ledger.next (.answered req status) = ledger := by
  cases status <;> first | exact absurd rfl h | rfl

theorem next_raised_open (ledger : Ledger) {event : Event} (h : event.isTerminal = false) :
    ledger.next (.raised event) = { ledger with phase := .raised event ledger.owner } := by
  rw [next, h, Bool.and_false]
  rfl

theorem next_raised_terminal {ledger : Ledger} {event : Event} (h : event.isTerminal = true)
    (hflight : ledger.inFlight = true) :
    ledger.next (.raised event) = { ledger.retire (.event event) with phase := .raised event ledger.owner } := by
  rw [next, h, hflight, Bool.and_true]
  rfl

theorem next_returned {ledger : Ledger} {handler : Handler} {event : Event}
    (h : ledger.phase = .running handler event) :
    ledger.next .returned = { ledger with phase := .after handler event } := by
  rw [next, h]

end Ledger

variable {capacity : ℕ+}

def ledger (log : List (Entry capacity)) : Ledger :=
  History.replay (fun ledger entry => ledger.next entry.obs) {} log

@[simp] theorem ledger_cons (entry : Entry capacity) (past : List (Entry capacity)) :
    ledger (entry :: past) = (ledger past).next entry.obs := rfl

/-- A TX handler is registered all along. -/
def Wired (log : List (Entry capacity)) : Prop := ∀ entry ∈ log, entry.bms.txFn ≠ none

instance (log : List (Entry capacity)) : Decidable (Wired log) :=
  inferInstanceAs (Decidable (∀ entry ∈ log, entry.bms.txFn ≠ none))

/-- What the ledger of the past allows to happen next. -/
def Ledger.Allows (ledger : Ledger) (host : HostAddress) (past : List (Entry capacity)) (entry : Entry capacity) : Prop :=
  match entry.obs with
  | .answered req _ => ∃ (method : Poll) (fn : Option Ptr) (ctx : Ptr), req = method.toRequest fn ctx
  | .began => ledger.inFlight = false ∧ ledger.live ≠ []
  | .sent _ _ frame =>
      (∃ req, ledger.owner = some req ∧ frame = encode host req.id req.data) ∧
        ledger.copies ≤ entry.bms.maxRetries.toNat
  | .raised event =>
      ledger.phase = .quiet ∧ entry.bms.owner = ledger.owner ∧
        (event.isTerminal = true → ∃ req, ledger.owner = some req ∧ event.id = req.id)
  | .streamEnded => EndsStream past entry.bms ∧ ∃ req, ledger.owner = some req ∧ req.id = .faultRecords
  | .invoked handler event => ledger.phase.Tells handler event
  | .returned => ∃ handler event, ledger.phase = .running handler event
  | .settled => ledger.phase.MaySettle
  | _ => True

structure Permits (host : HostAddress) (past : List (Entry capacity)) (entry : Entry capacity) : Prop where
  allows : (ledger past).Allows host past entry
  /-- A request that has not ended is in the queue, behind at most one that has. -/
  queued : ∃ gone : List Request, gone.length ≤ 1 ∧
    entry.bms.queue.contents = gone ++ (ledger past).live.map Prod.snd
  /-- A request given the bus is sent at once. -/
  prompt : Wired (entry :: past) → (ledger past).inFlight = true → (ledger past).copies = 0 →
    ∃ fn ctx frame, entry.obs = .sent fn ctx frame

end Haidi
