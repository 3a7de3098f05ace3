import HaidiBms.Session.Rules

/-!
# Whether an accepted request is ever left waiting on an idle session

Nothing is transmitted while an event is being dispatched, so what a handler queues has to be sent for afterwards. The paths that end a request do that in `complete`, and a fault-record stream whose handler reset the session does it in `handle_stream`. The paths that report a rejection and return do not: a request accepted while a rejection is dispatched on an idle session, or after a handler reset it, stays in the queue with nothing to start it. These are the only ways to strand one.
-/

namespace Haidi

variable {capacity : ℕ+}

/-- What the handlers of the latest event have done so far: whether the event was a rejection, whether the session is idle, and whether a request has been accepted and not dropped by a reset. -/
structure Aftermath where
  rejection : Bool := false
  idle : Bool := false
  waiting : Bool := false

def Aftermath.next (after : Aftermath) (entry : Entry capacity) : Aftermath :=
  match entry.obs with
  | .raised event => ⟨event.isRejection, entry.bms.state == .idle, false⟩
  | .answered _ .queued => { after with waiting := true }
  | .reset => { after with idle := true, waiting := false }
  | _ => after

def aftermath (log : List (Entry capacity)) : Aftermath := History.replay Aftermath.next {} log

/-- The handlers of a rejection leave no request of theirs behind on an idle session. -/
def LeavesNoneBehind (past : List (Entry capacity)) (entry : Entry capacity) : Prop :=
  entry.obs = .settled → (aftermath past).rejection = true →
    ¬ ((aftermath past).idle = true ∧ (aftermath past).waiting = true)

instance (past : List (Entry capacity)) (entry : Entry capacity) : Decidable (LeavesNoneBehind past entry) :=
  inferInstanceAs (Decidable (_ → _ → _))

/-- Between calls: no dispatch in progress, and idle only with nothing to do. -/
structure AtRest (w : World capacity) : Prop where
  dispatching : w.bms.dispatching = false
  busy : w.bms.state = .idle → w.bms.queue.count = 0

/-- While the handlers of an event run: the log tells an idle session and a waiting request. -/
structure Dispatching (event : Event) (w : World capacity) : Prop where
  dispatching : w.bms.dispatching = true
  rejection : (aftermath w.log).rejection = event.isRejection
  idle : w.bms.state = .idle → (aftermath w.log).idle = true
  waiting : w.bms.state = .idle → 0 < w.bms.queue.count → (aftermath w.log).waiting = true

theorem pump_atRest (w : World capacity) (h : w.bms.dispatching = false) : AtRest (pump w) :=
  ⟨(pump_dispatching w).trans h, pump_busy w⟩

theorem complete_atRest (w : World capacity) (h : w.bms.dispatching = false) : AtRest (complete w) := by
  rw [complete_eq]
  exact pump_atRest _ h

theorem perform_dispatching (event : Event) (w : World capacity) (reaction : Reaction)
    (h : Dispatching event w) : Dispatching event (reaction.perform w) := by
  cases reaction with
  | poll method fn ctx =>
      change Dispatching event (enqueue w (method.toRequest fn ctx)).1
      rcases enqueue_cases w (method.toRequest fn ctx) with ⟨status, hstatus, heq⟩ | ⟨room, -, -, heq⟩ <;> rw [heq]
      · have hsame : aftermath (w.note (.answered (method.toRequest fn ctx) status)).log = aftermath w.log := by
          cases status <;> first | exact absurd rfl hstatus | rfl
        exact ⟨h.dispatching, hsame ▸ h.rejection, hsame ▸ h.idle, hsame ▸ h.waiting⟩
      · rw [h.dispatching, if_pos rfl]
        exact ⟨h.dispatching, h.rejection, h.idle, fun _ _ => rfl⟩
  | reset => exact ⟨h.dispatching, h.rejection, fun _ => rfl, fun _ hcount => absurd hcount (Nat.lt_irrefl 0)⟩

variable (react : World capacity → Handler → Event → List Reaction)

theorem emit_dispatching (w : World capacity) (event : Event) (h : AtRest w) :
    ∃ w', Dispatching event w' ∧ emit (.polling react) w event = closed false w' := by
  rw [← h.dispatching]
  refine emit_rule (J := Dispatching event) _ w event ?_ (fun _ _ hw => ⟨hw.dispatching, hw.rejection, hw.idle, hw.waiting⟩)
    (fun w' c hw => perform_dispatching event w' c hw) fun _ hw => ⟨hw.dispatching, hw.rejection, hw.idle, hw.waiting⟩
  refine ⟨rfl, rfl, fun hidle => beq_iff_eq.mpr hidle, fun hidle hcount => ?_⟩
  exact absurd hcount (by rw [show (opened w event).bms.queue.count = 0 from h.busy hidle]; exact Nat.lt_irrefl 0)

theorem atRest_actions : BusActions (.polling react) LeavesNoneBehind (@AtRest capacity) where
  quiet := fun w bms hsame h => ⟨hsame.dispatching.trans h.dispatching, fun hidle => by
    rw [show bms.queue = w.bms.queue from hsame.queue]
    exact h.busy (hsame.state.symm.trans hidle)⟩
  mark := fun _ _ _ _ h => ⟨h.dispatching, h.busy⟩
  poll := by
    intro w method fn ctx _ h
    rcases enqueue_cases w (method.toRequest fn ctx) with ⟨status, -, heq⟩ | ⟨room, -, -, heq⟩ <;> rw [heq]
    · exact ⟨h.dispatching, h.busy⟩
    · rw [h.dispatching]
      exact pump_atRest _ h.dispatching
  reset := fun _ _ h => ⟨h.dispatching, fun _ => rfl⟩
  reject := by
    intro w event hevent hlog h
    obtain ⟨w', hw', hemit⟩ := emit_dispatching react w event h
    rw [hemit] at hlog ⊢
    refine ⟨rfl, fun hidle => Nat.eq_zero_of_not_pos fun hcount => ?_⟩
    exact hlog.1 rfl (hw'.rejection.trans hevent) ⟨hw'.idle hidle, hw'.waiting hidle hcount⟩
  deliver := by
    intro w id _ _ _ _ h
    have hdelivered : (deliverRecord (.polling react) w id).bms.dispatching = false := by
      rcases deliverRecord_cases (.polling react) w id with ⟨record, heq⟩ | heq <;> rw [heq]
      · obtain ⟨w', -, hemit⟩ := emit_dispatching react w _ h
        rw [hemit]
        rfl
      · exact h.dispatching
    rcases resume_cases (deliverRecord (.polling react) w id) with ⟨-, heq⟩ | ⟨hstate, heq⟩ <;> rw [heq]
    · exact pump_atRest _ hdelivered
    · exact ⟨hdelivered, fun hidle => absurd (hstate.symm.trans hidle) (by decide)⟩
  sentinel := fun w _ _ _ _ h => complete_atRest _ h.dispatching
  finish := by
    intro w event _ _ _ _ h
    obtain ⟨w', -, hemit⟩ := emit_dispatching react w event h
    rw [hemit]
    exact complete_atRest _ rfl
  retry := by
    intro w hstate _ _ h
    refine ⟨(transmit_same _).dispatching.trans h.dispatching, fun hidle => ?_⟩
    rw [(transmit_same _).state] at hidle
    exact absurd (hstate.symm.trans hidle) (by decide)

/-- Whatever is called, fed and ticked, and whatever the handlers poll and reset, a session with requests pending is busy, as long as the handlers of a rejection leave none of theirs behind on an idle session. -/
theorem run_busy_of_pending (hostAddress : HostAddress) (bmsAddress : UInt8) (calls : List Call)
    (h : History.Everywhere LeavesNoneBehind (run (.polling react) (World.new hostAddress bmsAddress) calls).log) :
    let w := run (.polling react) (World.new hostAddress bmsAddress) calls
    0 < w.bms.pending → w.bms.busy = true := by
  intro w hpending
  have hrule := (atRest_actions react).rule (polling_past react)
  have hrest : AtRest w := (hrule.run (World.new hostAddress bmsAddress) calls).2 h ⟨rfl, fun _ => rfl⟩
  refine bne_iff_ne.mpr fun hidle => ?_
  rw [HaidiBMS.pending, hrest.busy hidle] at hpending
  exact absurd hpending (Nat.lt_irrefl 0)

/-- A session waiting for a reply rejects a stray frame, and its handler's poll waits behind the request in flight. -/
theorem run_busy_of_pending_rejection :
    let react : World 24 → Handler → Event → List Reaction := fun _ _ _ => [.poll .rtc none 0]
    let w := run (.polling react) (World.new .comp bmsAddress)
      [.setTxHandler (some 1) 0, .setEventHandler (some 2) 0, .poll .statusInfo none 0,
        .feed (encode bmsAddress .batteryStatus (Vector.replicate 8 0)).toList]
    0 < w.bms.pending → w.bms.busy = true :=
  run_busy_of_pending (fun _ _ _ => [.poll .rtc none 0]) .comp bmsAddress
    [.setTxHandler (some 1) 0, .setEventHandler (some 2) 0, .poll .statusInfo none 0,
      .feed (encode bmsAddress .batteryStatus (Vector.replicate 8 0)).toList] (by decide)

/-- A late reply reaches an idle session, and the handler that is told of it polls: the poll is accepted and never sent. -/
theorem run_strands_request :
    let react : World 24 → Handler → Event → List Reaction := fun _ _ _ => [.poll .statusInfo none 0]
    let w := run (.polling react) (World.new .comp bmsAddress)
      [.setTxHandler (some 1) 0, .setEventHandler (some 2) 0,
        .feed (encode bmsAddress .batteryStatus (Vector.replicate 8 0)).toList]
    w.bms.pending = 1 ∧ w.bms.busy = false := by
  decide

end Haidi
