import HaidiBms.Session.Refinement

/-!
# One outcome for each request

An accepted request leaves the queue for one reason: it was on the bus and its outcome was raised, or its stream's sentinel came, or the session was reset. Its handler hears of the events raised while it is on the bus, each once and before the session-wide handler, and of none after that.
-/

namespace Haidi

variable {capacity : ℕ+}

/-! ### Numbers -/

theorem retire_accounts (ledger : Ledger) (outcome : Outcome) :
    ((ledger.retire outcome).ended.map Prod.fst ++ (ledger.retire outcome).live.map Prod.fst).Perm
        (ledger.ended.map Prod.fst ++ ledger.live.map Prod.fst) ∧
      (ledger.retire outcome).issued = ledger.issued := by
  unfold Ledger.retire
  cases h : ledger.live with
  | nil =>
      refine ⟨?_, rfl⟩
      rw [h]
  | cons head rest => exact ⟨List.perm_middle.symm, rfl⟩

/-- Every accepted request either has not ended or has ended once. -/
theorem ledger_accounts (log : List (Entry capacity)) :
    ((ledger log).ended.map Prod.fst ++ (ledger log).live.map Prod.fst).Perm (List.range (ledger log).issued) := by
  induction log with
  | nil => exact List.Perm.refl _
  | cons entry past ih =>
      rw [ledger_cons]
      cases hobs : entry.obs with
      | answered req status =>
          cases status with
          | queued =>
              change ((ledger past).ended.map Prod.fst ++
                ((ledger past).live ++ [((ledger past).issued, req)]).map Prod.fst).Perm
                  (List.range ((ledger past).issued + 1))
              rw [List.map_append, ← List.append_assoc, List.range_succ]
              exact ih.append_right _
          | _ => exact ih
      | raised event =>
          have hretire := retire_accounts (ledger past) (.event event)
          unfold Ledger.next
          dsimp only
          split_ifs
          · rw [hretire.2]
            exact hretire.1.trans ih
          · exact ih
      | streamEnded =>
          have hretire := retire_accounts (ledger past) .sentinel
          change (((ledger past).retire .sentinel).ended.map Prod.fst ++ _).Perm
            (List.range ((ledger past).retire .sentinel).issued)
          rw [hretire.2]
          exact hretire.1.trans ih
      | reset =>
          refine List.Perm.trans ?_ ih
          change ((((ledger past).live.map fun live : Nat × Request => (live.1, Outcome.reset)).reverse ++
            (ledger past).ended).map Prod.fst ++ []).Perm _
          rw [List.append_nil, List.map_append, List.map_reverse, List.map_map]
          exact ((List.reverse_perm _).append_right _).trans List.perm_append_comm
      | returned =>
          unfold Ledger.next
          dsimp only
          split <;> exact ih
      | _ => exact ih

/-- The request given `number` is the one on the bus, and has not ended. -/
structure OnBus (past : List (Entry capacity)) (number : Nat) (req : Request) : Prop where
  inFlight : (ledger past).inFlight = true
  first : ∃ rest, (ledger past).live = (number, req) :: rest
  open_ : number ∉ (ledger past).ended.map Prod.fst

theorem onBus_of_owner {past : List (Entry capacity)} {req : Request} (h : (ledger past).owner = some req) :
    ∃ number, OnBus past number req := by
  obtain ⟨hflight, number, rest, hcons⟩ := Ledger.owner_eq_some h
  refine ⟨number, hflight, ⟨rest, hcons⟩, fun hended => ?_⟩
  have hnodup := (ledger_accounts past).nodup_iff.mpr List.nodup_range
  rw [hcons] at hnodup
  exact (List.nodup_append.mp hnodup).2.2 number hended number List.mem_cons_self rfl

/-! ### Dispatches -/

/-- The beginning or the end of a dispatch. -/
def Obs.isBracket : Obs → Bool
  | .raised _ | .settled => true
  | _ => false

/-- The handlers run so far, in order. -/
def handlersRun (log : List (Entry capacity)) : List Handler :=
  (log.filterMap fun entry => match entry.obs with
    | .invoked handler _ => some handler
    | _ => none).reverse

/-- The event being dispatched was raised after `before`, and these handlers have been run for it. -/
def DispatchOf (past : List (Entry capacity)) (event : Event) (before : List (Entry capacity))
    (handlers : List Handler) : Prop :=
  ∃ since bms, past = since ++ ⟨bms, .raised event⟩ :: before ∧
    (∀ entry ∈ since, entry.obs.isBracket = false) ∧ handlersRun since = handlers

/-- The handler of the request on the bus, if it has one. -/
def ownHandlers (past : List (Entry capacity)) : List Handler :=
  ((ledger past).owner.bind Request.handler).toList

/-- The handlers run by the time this one has been, when the owner's is run first and once. -/
def runUpTo (before : List (Entry capacity)) : Handler → List Handler
  | .perRequest _ _ => ownHandlers before
  | .sessionWide fn ctx => ownHandlers before ++ [.sessionWide fn ctx]

/-- What the phase of the ledger tells of the log. -/
def Story (log : List (Entry capacity)) : Phase → Prop
  | .quiet => True
  | .raised event owner => ∃ before, DispatchOf log event before [] ∧ owner = (ledger before).owner
  | .running handler event => ∃ before, DispatchOf log event before (runUpTo before handler)
  | .toldOwner event => ∃ before, DispatchOf log event before (ownHandlers before)
  | .toldAll => ∃ event before fn ctx, DispatchOf log event before (ownHandlers before ++ [.sessionWide fn ctx])

namespace DispatchOf

variable {past before : List (Entry capacity)} {event : Event} {handlers : List Handler}

theorem raised (bms : HaidiBMS capacity) (past : List (Entry capacity)) (event : Event) :
    DispatchOf (⟨bms, .raised event⟩ :: past) event past [] :=
  ⟨[], bms, rfl, fun _ h => absurd h List.not_mem_nil, rfl⟩

theorem cons (h : DispatchOf past event before handlers) (entry : Entry capacity)
    (hbracket : entry.obs.isBracket = false) (hquiet : entry.obs.isInvocation = false) :
    DispatchOf (entry :: past) event before handlers := by
  obtain ⟨since, bms, rfl, hsince, rfl⟩ := h
  refine ⟨entry :: since, bms, rfl, ?_, ?_⟩
  · intro other hother
    rcases List.mem_cons.mp hother with rfl | hmem
    · exact hbracket
    · exact hsince other hmem
  · unfold handlersRun
    rw [List.filterMap_cons]
    split
    · rfl
    · next handler hsome =>
        split at hsome
        · next hentry =>
            rw [hentry] at hquiet
            cases hquiet
        · cases hsome

theorem invoked (h : DispatchOf past event before handlers) (bms : HaidiBMS capacity) (handler : Handler) :
    DispatchOf (⟨bms, .invoked handler event⟩ :: past) event before (handlers ++ [handler]) := by
  obtain ⟨since, bms', rfl, hsince, rfl⟩ := h
  refine ⟨⟨bms, .invoked handler event⟩ :: since, bms', rfl, ?_, ?_⟩
  · intro other hother
    rcases List.mem_cons.mp hother with rfl | hmem
    · rfl
    · exact hsince other hmem
  · unfold handlersRun
    rw [List.filterMap_cons, List.reverse_cons]

end DispatchOf

theorem Story.cons {past : List (Entry capacity)} {phase : Phase} (h : Story past phase) (entry : Entry capacity)
    (hbracket : entry.obs.isBracket = false) (hquiet : entry.obs.isInvocation = false) : Story (entry :: past) phase := by
  cases phase with
  | quiet => trivial
  | raised event owner =>
      obtain ⟨before, hdispatch, howner⟩ := h
      exact ⟨before, hdispatch.cons entry hbracket hquiet, howner⟩
  | running handler event =>
      obtain ⟨before, hdispatch⟩ := h
      exact ⟨before, hdispatch.cons entry hbracket hquiet⟩
  | toldOwner event =>
      obtain ⟨before, hdispatch⟩ := h
      exact ⟨before, hdispatch.cons entry hbracket hquiet⟩
  | toldAll =>
      obtain ⟨event, before, fn, ctx, hdispatch⟩ := h
      exact ⟨event, before, fn, ctx, hdispatch.cons entry hbracket hquiet⟩

/-- A handler the phase may tell is the next of the dispatch. -/
theorem story_tells {past : List (Entry capacity)} {phase : Phase} (h : Story past phase) (handler : Handler)
    (event : Event) (htells : phase.Tells handler event) :
    ∃ before handlers, DispatchOf past event before handlers ∧ handlers ++ [handler] = runUpTo before handler := by
  cases phase with
  | raised current owner =>
      obtain ⟨before, hdispatch, rfl⟩ := h
      cases handler with
      | perRequest fn ctx =>
          obtain ⟨rfl, howner⟩ := htells
          exact ⟨before, [], hdispatch, by rw [runUpTo, ownHandlers, howner]; rfl⟩
      | sessionWide fn ctx =>
          obtain ⟨rfl, howner⟩ := htells
          exact ⟨before, [], hdispatch, by rw [runUpTo, ownHandlers, howner]; rfl⟩
  | toldOwner current =>
      obtain ⟨before, hdispatch⟩ := h
      cases handler with
      | perRequest fn ctx => cases htells
      | sessionWide fn ctx =>
          obtain rfl : current = event := htells
          exact ⟨before, _, hdispatch, rfl⟩
  | quiet => cases handler <;> cases htells
  | running other current => cases handler <;> cases htells
  | toldAll => cases handler <;> cases htells

theorem story {host : HostAddress} {log : List (Entry capacity)} (h : History.Everywhere (Permits host) log) :
    Story log (ledger log).phase := by
  induction log with
  | nil => trivial
  | cons entry past ih =>
      have hpast := ih h.2
      have hallows := h.1.allows
      obtain ⟨bms, obs⟩ := entry
      rw [ledger_cons]
      cases obs with
      | raised event =>
          have hphase : ((ledger past).next (.raised event)).phase = .raised event (ledger past).owner := by
            unfold Ledger.next
            rfl
          rw [hphase]
          exact ⟨past, .raised bms past event, rfl⟩
      | invoked handler event =>
          obtain ⟨before, handlers, hdispatch, hrun⟩ := story_tells hpast handler event hallows
          refine ⟨before, ?_⟩
          rw [← hrun]
          exact hdispatch.invoked bms handler
      | returned =>
          obtain ⟨handler, event, hphase⟩ := hallows
          rw [Ledger.next_returned hphase]
          rw [hphase] at hpast
          obtain ⟨before, hdispatch⟩ := hpast
          have hnext := hdispatch.cons ⟨bms, .returned⟩ rfl rfl
          cases handler with
          | perRequest fn ctx => exact ⟨before, hnext⟩
          | sessionWide fn ctx => exact ⟨event, before, fn, ctx, hnext⟩
      | settled => trivial
      | answered req status =>
          have hphase : ((ledger past).next (.answered req status)).phase = (ledger past).phase := by
            cases status <;> rfl
          rw [hphase]
          exact hpast.cons _ rfl rfl
      | streamEnded =>
          rw [show ((ledger past).next .streamEnded).phase = (ledger past).phase from Ledger.retire_phase _ _]
          exact hpast.cons _ rfl rfl
      | _ => exact hpast.cons _ rfl rfl

/-! ### What every log says -/

/-- What an entry says of the requests, given its past. -/
structure Orderly (past : List (Entry capacity)) (entry : Entry capacity) : Prop where
  /-- A request that has not ended is in the queue. -/
  queued : ∃ gone : List Request, gone.length ≤ 1 ∧
    entry.bms.queue.contents = gone ++ (ledger past).live.map Prod.snd
  /-- The session takes an event to belong to the request that is on the bus. -/
  owned : ∀ event, entry.obs = .raised event → entry.bms.owner = (ledger past).owner
  /-- An outcome is the outcome of a request on the bus that has not had one. -/
  outcome : ∀ event, entry.obs = .raised event → event.isTerminal = true →
    ∃ number req, OnBus past number req ∧ event.id = req.id
  /-- A stream ends with its sentinel, accepted while its request is on the bus. -/
  sentinel : entry.obs = .streamEnded →
    EndsStream past entry.bms ∧ ∃ number req, OnBus past number req ∧ req.id = .faultRecords
  /-- A request's handler is run first, for an event raised while the request was on the bus. -/
  perRequest : ∀ fn ctx event, entry.obs = .invoked (.perRequest fn ctx) event →
    ∃ before number req, DispatchOf past event before [] ∧ OnBus before number req ∧
      req.handler = some (.perRequest fn ctx)
  /-- The session-wide handler is run after the handler of the request that was on the bus, if there was one. -/
  sessionWide : ∀ fn ctx event, entry.obs = .invoked (.sessionWide fn ctx) event →
    ∃ before, DispatchOf past event before (ownHandlers before)
  /-- By the end of a dispatch the owner has been told. -/
  settled : entry.obs = .settled →
    ∃ event before handlers, DispatchOf past event before handlers ∧ ownHandlers before <+: handlers

theorem orderly_of_permits {host : HostAddress} {past : List (Entry capacity)} {entry : Entry capacity}
    (hpast : History.Everywhere (Permits host) past) (h : Permits host past entry) : Orderly past entry := by
  have hstory := story hpast
  have hallows := h.allows
  refine ⟨h.queued, ?_, ?_, ?_, ?_, ?_, ?_⟩
  · intro event hobs
    rw [Ledger.Allows, hobs] at hallows
    exact hallows.2.1
  · intro event hobs hterminal
    rw [Ledger.Allows, hobs] at hallows
    obtain ⟨req, howner, hid⟩ := hallows.2.2 hterminal
    obtain ⟨number, hbus⟩ := onBus_of_owner howner
    exact ⟨number, req, hbus, hid⟩
  · intro hobs
    rw [Ledger.Allows, hobs] at hallows
    obtain ⟨hend, req, howner, hid⟩ := hallows
    obtain ⟨number, hbus⟩ := onBus_of_owner howner
    exact ⟨hend, number, req, hbus, hid⟩
  · intro fn ctx event hobs
    rw [Ledger.Allows, hobs] at hallows
    obtain ⟨before, handlers, hdispatch, hrun⟩ := story_tells hstory _ event hallows
    rw [runUpTo, ownHandlers] at hrun
    cases hown : (ledger before).owner.bind Request.handler with
    | none =>
        rw [hown] at hrun
        exact absurd hrun (List.append_ne_nil_of_right_ne_nil _ (List.cons_ne_nil _ _))
    | some handler =>
        rw [hown, Option.toList_some] at hrun
        obtain ⟨rfl, hhandler⟩ := List.append_eq_singleton_iff.mp hrun |>.resolve_right fun hright => by
          cases hright.2
        obtain ⟨req, howner, hreq⟩ := Option.bind_eq_some_iff.mp hown
        obtain ⟨number, hbus⟩ := onBus_of_owner howner
        obtain rfl := (List.cons.inj hhandler).1
        exact ⟨before, number, req, hdispatch, hbus, hreq⟩
  · intro fn ctx event hobs
    rw [Ledger.Allows, hobs] at hallows
    obtain ⟨before, handlers, hdispatch, hrun⟩ := story_tells hstory _ event hallows
    rw [runUpTo] at hrun
    rw [List.append_cancel_right hrun] at hdispatch
    exact ⟨before, hdispatch⟩
  · intro hobs
    rw [Ledger.Allows, hobs] at hallows
    cases hphase : (ledger past).phase with
    | quiet =>
        rw [hphase] at hallows
        cases hallows
    | running handler event =>
        rw [hphase] at hallows
        cases hallows
    | raised event owner =>
        rw [hphase] at hallows hstory
        obtain ⟨before, hdispatch, rfl⟩ := hstory
        refine ⟨event, before, [], hdispatch, ?_⟩
        rw [ownHandlers, show (ledger before).owner.bind Request.handler = none from hallows]
        exact List.prefix_rfl
    | toldOwner event =>
        rw [hphase] at hstory
        obtain ⟨before, hdispatch⟩ := hstory
        exact ⟨event, before, _, hdispatch, List.prefix_rfl⟩
    | toldAll =>
        rw [hphase] at hstory
        obtain ⟨event, before, fn, ctx, hdispatch⟩ := hstory
        exact ⟨event, before, _, hdispatch, List.prefix_append _ _⟩

/-- Whatever is called, fed and ticked, and whatever the handlers poll and reset: between calls the queue holds the accepted requests that have not ended, each accepted request has ended at most once, and at every moment outcomes and handler calls go to the request on the bus. -/
theorem requests_end_once (react : World capacity → Handler → Event → List Reaction) (hostAddress : HostAddress)
    (bmsAddress : UInt8) (calls : List Call) :
    let w := run (.polling react) (World.new hostAddress bmsAddress) calls
    w.bms.queue.contents = (ledger w.log).live.map Prod.snd ∧
      ((ledger w.log).ended.map Prod.fst ++ (ledger w.log).live.map Prod.fst).Perm
        (List.range (ledger w.log).issued) ∧
      ∀ later entry past, w.log = later ++ entry :: past → Orderly past entry := by
  intro w
  have hrest := run_resting react hostAddress bmsAddress calls
  refine ⟨hrest.sync.contents, ledger_accounts w.log, fun later entry past hlog => ?_⟩
  have hlawful : History.Everywhere (Permits hostAddress) w.log := hrest.sync.lawful
  rw [hlog] at hlawful
  exact orderly_of_permits (hlawful.past (List.suffix_append _ _)).2 hlawful.at

end Haidi
