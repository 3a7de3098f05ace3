import HaidiBms.Session.Likeness

/-!
# What a session leaves behind for the next request

A session with nothing to do keeps stale bytes, counters and queue slots. Compared with a session just constructed and set up the same way, none of them ever shows: whatever is called from then on, and whatever the handlers make of it, the two send the same frames, raise the same events and give the same answers. Only the count of discarded bytes is carried on, until a reset.
-/

namespace Haidi

variable {capacity : ℕ+}

/-- A session just constructed that has been given another's addresses, handlers, timeouts, retry limit, counts and time. -/
def HaidiBMS.renewed (bms : HaidiBMS capacity) : HaidiBMS capacity :=
  { hostAddress := bms.hostAddress
    bmsAddress := bms.bmsAddress
    txFn := bms.txFn
    txCtx := bms.txCtx
    eventFn := bms.eventFn
    eventCtx := bms.eventCtx
    responseTimeoutMs := bms.responseTimeoutMs
    interframeTimeoutMs := bms.interframeTimeoutMs
    maxRetries := bms.maxRetries
    nowMs := bms.nowMs
    cachedCellCount := bms.cachedCellCount
    cachedTempCount := bms.cachedTempCount }

/-- Nothing is in flight, queued, half received or being dispatched. -/
structure Vacant (bms : HaidiBMS capacity) : Prop where
  state : bms.state = .idle
  queue : bms.queue.count = 0
  parser : bms.parser.len = 0
  dispatching : bms.dispatching = false

/-- What the session's own queries report. -/
structure SameReadings (a b : HaidiBMS capacity) : Prop where
  busy : a.busy = b.busy
  pending : a.pending = b.pending
  inFlight : a.inFlight = b.inFlight
  cachedCellCount : a.cachedCellCount = b.cachedCellCount
  cachedTempCount : a.cachedTempCount = b.cachedTempCount

theorem Alike.readings {whole : Prop} {a b : HaidiBMS capacity} (h : Alike whole a b) : SameReadings a b where
  busy := by rw [HaidiBMS.busy, HaidiBMS.busy, h.state]
  pending := h.count
  inFlight := by
    unfold HaidiBMS.inFlight
    rw [← h.state, ← h.count]
    split_ifs with hflight
    · rw [h.head_of_pending hflight.2]
    · rfl
  cachedCellCount := h.cachedCellCount
  cachedTempCount := h.cachedTempCount

theorem Vacant.alike {bms : HaidiBMS capacity} (h : Vacant bms) : Alike False bms bms.renewed where
  hostAddress := rfl
  bmsAddress := rfl
  txFn := rfl
  txCtx := rfl
  eventFn := rfl
  eventCtx := rfl
  responseTimeoutMs := rfl
  interframeTimeoutMs := rfl
  maxRetries := rfl
  held := (FrameParser.held_eq_nil _).mpr h.parser
  contents := (RingBuffer.contents_eq_nil _).mpr h.queue
  state := h.state
  nowMs := rfl
  dispatching := h.dispatching
  cachedCellCount := rfl
  cachedTempCount := rfl
  pending := fun hstate => absurd (h.state.symm.trans hstate) (by decide)
  exchange := fun hx => absurd (h.state.symm.trans (hx.resolve_left not_false)) (by decide)

/-- Handlers that choose what to poll and when to reset from all that has been observed. -/
def Env.observing (react : List Obs → Handler → Event → List Reaction) : Env capacity Reaction :=
  .polling fun w => react (w.log.map Entry.obs)

theorem observing_lockstep (react : List Obs → Handler → Event → List Reaction) {whole : Prop} {drift : UInt32} :
    Lockstep (.observing react : Env capacity Reaction) (Twins whole drift [] []) where
  react := by
    intro w v h
    obtain ⟨new, new', hnew, hnew', hsame, -⟩ := h.matched
    rw [List.append_nil] at hnew hnew'
    funext handler event
    change react (w.log.map Entry.obs) handler event = react (v.log.map Entry.obs) handler event
    rw [hnew, hnew', hsame]
  perform := by
    intro w v reaction h
    cases reaction with
    | poll method fn ctx => exact h.enqueue _
    | reset => exact h.reset

/-- A session with nothing to do goes on as one just constructed: whatever is called, and whatever the handlers poll and reset on what they see, the same is sent, raised, run and answered, and the queries report the same. The counts of discarded bytes differ by what there was at the start until the next reset, which is nothing after a reset. -/
theorem run_like_new (react : List Obs → Handler → Event → List Reaction) (bms : HaidiBMS capacity) (h : Vacant bms)
    (calls : List Call) :
    let used := run (.observing react) ⟨bms, []⟩ calls
    let fresh := run (.observing react) ⟨bms.renewed, []⟩ calls
    used.log.map Entry.obs = fresh.log.map Entry.obs ∧ SameReadings used.bms fresh.bms ∧
      used.bms.parser.discarded = fresh.bms.parser.discarded +
        (if .reset ∈ used.log.map Entry.obs then 0 else bms.parser.discarded) ∧
      ((∃ before, bms = (reset before).bms) → used.bms.parser.discarded = fresh.bms.parser.discarded) := by
  intro used fresh
  have hstart : Twins False bms.parser.discarded [] [] ⟨bms, []⟩ ⟨bms.renewed, []⟩ :=
    ⟨h.alike, [], [], rfl, rfl, rfl, (UInt32.zero_add _).symm⟩
  have htwins : Twins False bms.parser.discarded [] [] used fresh := hstart.run (observing_lockstep react) calls
  obtain ⟨new, new', hnew, hnew', hsame, hdiscarded⟩ := htwins.matched
  rw [List.append_nil] at hnew hnew'
  rw [← hnew] at hsame hdiscarded
  rw [← hnew'] at hsame
  refine ⟨hsame, htwins.alike.readings, hdiscarded, ?_⟩
  rintro ⟨before, rfl⟩
  rw [hdiscarded, show (reset before).bms.parser.discarded = 0 from rfl, ite_self, UInt32.add_zero]

/-- A session that has timed out on a request and been reset. -/
theorem run_like_new_reset :
    let before : World 24 := run (.observing fun _ _ _ => []) (World.new .comp bmsAddress)
      [.setTxHandler (some 1) 0, .setEventHandler (some 2) 0, .poll .rtc none 0, .tick 250, .tick 500, .reset]
    let calls : List Call := [.poll .statusInfo none 0, .tick 750]
    (run (.observing fun _ _ _ => []) ⟨before.bms, []⟩ calls).log.map Entry.obs =
      (run (.observing fun _ _ _ => []) ⟨before.bms.renewed, []⟩ calls).log.map Entry.obs := by
  intro before calls
  exact (run_like_new (fun _ _ _ => []) before.bms ⟨by decide, by decide, by decide, by decide⟩ calls).1

end Haidi
