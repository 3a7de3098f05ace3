import HaidiBms.Session.ClientRuns

/-!
# Only differences of time matter

The clock is the caller's and may start anywhere. A client whose clock is set later by some amount, modulo its width, and whose deadline moves with it does the same from then on, if its ticks come later by the same amount; so a session that is ticked before it is asked anything shows the same whatever the clock started from, and a wrap in the middle of a run is as any other time.
-/

namespace Haidi

variable {capacity : ℕ+}

def Exchange.later (ms : UInt32) (x : Exchange) : Exchange := { x with deadlineMs := x.deadlineMs + ms }

@[simp] theorem Exchange.later_request (ms : UInt32) (x : Exchange) : (x.later ms).request = x.request := rfl

/-- The same call at a later time. -/
def Call.later (ms : UInt32) : Call → Call
  | .tick nowMs => .tick (nowMs + ms)
  | call => call

namespace Client

def later (ms : UInt32) (c : Client capacity) : Client capacity :=
  { c with nowMs := c.nowMs + ms, current := c.current.map (Exchange.later ms) }

variable (ms : UInt32) (c : Client capacity) (x : Exchange)
variable (react : List Obs → Handler → Event → List Reaction)

@[simp] theorem later_note (obs : Obs) : (c.later ms).note obs = (c.note obs).later ms := rfl

@[simp] theorem later_txFn : (c.later ms).txFn = c.txFn := rfl

@[simp] theorem later_waiting : (c.later ms).waiting = c.waiting := rfl

@[simp] theorem later_current : (c.later ms).current = c.current.map (Exchange.later ms) := rfl

@[simp] theorem later_pending : (c.later ms).pending = c.pending := by
  unfold pending later
  cases c.current <;> rfl

@[simp] theorem later_inFlight : (c.later ms).inFlight = c.inFlight := by
  unfold inFlight later
  cases c.current <;> rfl

/-- Whatever deadline the exchange had, it gets a new one. -/
@[simp] theorem later_send (deadlineMs : UInt32) : (c.later ms).send { x with deadlineMs } = (c.send x).later ms := by
  have hdeadline : c.nowMs + ms + c.responseTimeoutMs = c.nowMs + c.responseTimeoutMs + ms := by
    rw [UInt32.add_assoc, UInt32.add_comm ms, ← UInt32.add_assoc]
  unfold send
  rw [later_txFn]
  cases c.txFn <;> simp [later, note, Exchange.later, hdeadline]

@[simp] theorem later_start : (c.later ms).start = c.start.later ms := by
  unfold start
  rw [later_current, later_waiting]
  cases hx : c.current with
  | some x => rfl
  | none =>
      cases c.waiting with
      | nil => rfl
      | cons req rest =>
          have hsend := @later_send capacity ms { c with waiting := rest }
            { request := req, items := (c.itemsFor req).toNat, deadlineMs := 0 } 0
          rw [hx] at hsend
          exact hsend

@[simp] theorem later_finish : (c.later ms).finish = c.finish.later ms := later_start ms { c with current := none }

@[simp] theorem later_ask (dispatching : Bool) (req : Request) :
    (c.later ms).ask dispatching req = (c.ask dispatching req).later ms := by
  have hstart := @later_start capacity ms { c.note (.answered req .queued) with waiting := c.waiting ++ [req] }
  unfold ask
  rw [later_txFn, later_pending]
  cases dispatching <;> split_ifs <;> first | rfl | exact hstart

@[simp] theorem later_clear : (c.later ms).clear = c.clear.later ms := rfl

@[simp] theorem later_perform (reaction : Reaction) : (c.later ms).perform reaction = (c.perform reaction).later ms := by
  cases reaction with
  | poll method fn ctx => exact later_ask ms c true _
  | reset => exact later_clear ms c

@[simp] theorem later_invoke (handler : Option Handler) (event : Event) :
    (c.later ms).invoke react handler event = (c.invoke react handler event).later ms := by
  cases handler with
  | none => rfl
  | some handler =>
      change (react c.trace handler event).foldl perform ((c.note (.invoked handler event)).later ms) = _
      exact List.foldl_hom (later ms) fun c reaction => later_perform ms c reaction

@[simp] theorem later_dispatch (event : Event) : (c.later ms).dispatch react event = (c.dispatch react event).later ms := by
  have howner : ((c.later ms).current.bind fun x => x.request.handler) = c.current.bind fun x => x.request.handler := by
    rw [later_current]
    cases c.current <;> rfl
  unfold dispatch
  dsimp only
  rw [howner, later_note, later_invoke]
  exact later_invoke ms _ react _ event

@[simp] theorem later_await : (c.later ms).await (x.later ms) = (c.await x).later ms := by
  have hdeadline : c.nowMs + ms + c.interframeTimeoutMs = c.nowMs + c.interframeTimeoutMs + ms := by
    rw [UInt32.add_assoc, UInt32.add_comm ms, ← UInt32.add_assoc]
  simp [await, later, Exchange.later, hdeadline]

@[simp] theorem later_goOn : (c.later ms).goOn = c.goOn.later ms := by
  unfold goOn
  rw [later_current]
  cases c.current with
  | none => exact later_start ms c
  | some x => exact later_await ms c x

@[simp] theorem later_emptied : (c.later ms).emptied = c.emptied.later ms := by
  unfold emptied later
  cases c.current <;> rfl

/-- What a reply is reported as has nothing to do with when it was due. -/
@[simp] theorem report_later : (x.later ms).report = x.report := rfl

theorem later_hold :
    ({ c.later ms with current := some (x.later ms) } : Client capacity) = later ms { c with current := some x } := rfl

@[simp] theorem later_addPage : (c.later ms).addPage react (x.later ms) = (c.addPage react x).later ms := by
  unfold addPage
  rw [later_hold, report_later, later_dispatch, later_finish, later_await]
  exact (apply_ite (later ms) _ _ _).symm

@[simp] theorem later_addRecord : (c.later ms).addRecord react (x.later ms) = (c.addRecord react x).later ms := by
  unfold addRecord
  dsimp only
  rw [later_hold, later_dispatch, later_emptied, ← later_goOn, apply_ite (later ms)]
  rfl

/-- What is learned of the pack is learned at any time. -/
theorem later_learned (id : DataId) (data : DataBytes) :
    ({ c.later ms with toSetup := (c.later ms).learn id data, current := some (x.later ms) } : Client capacity) =
      later ms { c with toSetup := c.learn id data, current := some x } := by
  unfold Setup.learn
  split_ifs <;> rfl

@[simp] theorem later_hear (frame : MessageBytes) :
    (c.later ms).hear react (x.later ms) frame = (c.hear react x frame).later ms := by
  let heard : Exchange := { x with heard := frame :: x.heard }
  let filed : Exchange := { heard with record := heard.record ++ [dataOf frame] }
  have hanswered := later_learned ms c heard x.request.id (dataOf frame)
  have hfiled := later_addRecord ms c filed react
  have hpaged := later_addPage ms c heard react
  unfold hear
  dsimp only
  rw [Exchange.later_request]
  split_ifs
  · rw [← later_finish, ← later_dispatch, ← hanswered]
    rfl
  · exact later_finish ms c
  · exact hfiled
  · exact hpaged

@[simp] theorem later_receive (frame : MessageBytes) : (c.later ms).receive react frame = (c.receive react frame).later ms := by
  unfold receive
  dsimp only
  rw [later_current, later_dispatch, later_dispatch, later_dispatch]
  cases c.current with
  | none => rfl
  | some x =>
      dsimp only [Option.map_some]
      rw [Exchange.later_request, later_hear]
      split_ifs <;> first | rfl | contradiction

@[simp] theorem later_complain (error : ErrorCode) : (c.later ms).complain react error = (c.complain react error).later ms := by
  unfold complain
  dsimp only
  rw [later_current, later_dispatch]
  cases c.current <;> rfl

@[simp] theorem later_take (byte : UInt8) : (c.later ms).take react byte = (c.take react byte).later ms := by
  have htaken : ({ c.later ms with
      window := (wire.step (c.later ms).window byte).1
      discarded := (c.later ms).discarded + .ofNat (wire.step (c.later ms).window byte).2.junk.length } : Client capacity) =
    later ms { c with
      window := (wire.step c.window byte).1
      discarded := c.discarded + .ofNat (wire.step c.window byte).2.junk.length } := rfl
  unfold take
  dsimp only
  rw [htaken]
  have hverdict : (wire.step (c.later ms).window byte).2 = (wire.step c.window byte).2 := rfl
  rw [hverdict]
  cases (wire.step c.window byte).2 with
  | found symbols => exact later_receive ms _ react _
  | rejected early shed => cases early <;> exact later_complain ms _ react _
  | skipped _ => rfl
  | kept => rfl

/-- Whether a deadline has passed depends on how much later than it the time is. -/
theorem expired_later (nowMs deadlineMs : UInt32) : expired (nowMs + ms) (deadlineMs + ms) = expired nowMs deadlineMs := by
  have hdifference : nowMs + ms - (deadlineMs + ms) = nowMs - deadlineMs := by
    grind
  unfold expired
  rw [hdifference]

@[simp] theorem later_lapse : (c.later ms).lapse react (x.later ms) = (c.lapse react x).later ms := by
  have hresent := later_send ms c { x with retries := x.retries + 1 } (x.deadlineMs + ms)
  unfold lapse
  dsimp only
  rw [Exchange.later_request, report_later, later_dispatch, later_dispatch, later_dispatch, later_finish, later_finish,
    later_finish]
  split_ifs <;> first | rfl | exact hresent | contradiction

theorem later_tick (nowMs : UInt32) : (c.later ms).tick react (nowMs + ms) = (c.tick react nowMs).later ms := by
  have hticked : ({ c.later ms with nowMs := nowMs + ms } : Client capacity) = later ms { c with nowMs } := rfl
  unfold tick
  dsimp only
  rw [hticked]
  cases hx : c.current with
  | none => rw [later_current, hx]; rfl
  | some x =>
      rw [later_current, hx]
      dsimp only [Option.map_some]
      rw [← hx, later_lapse]
      have hdue := expired_later ms nowMs x.deadlineMs
      change (if expired (nowMs + ms) (x.deadlineMs + ms) = true then _ else _) = _
      rw [hdue]
      split_ifs <;> rfl

theorem later_call (call : Call) : (c.later ms).call react (call.later ms) = (c.call react call).later ms := by
  cases call with
  | poll method fn ctx => exact later_ask ms c false _
  | feed data => exact List.foldl_hom (later ms) fun c byte => later_take ms c react byte
  | tick nowMs => exact later_tick ms c react nowMs
  | _ => rfl

theorem later_run (calls : List Call) : (c.later ms).run react (calls.map (Call.later ms)) = (c.run react calls).later ms := by
  unfold run
  rw [List.foldl_map]
  exact List.foldl_hom (later ms) fun c call => later_call ms c react call

end Client

/-- The epoch of the clock does not show: two sessions that are ticked before anything else and see every later tick the same time apart, modulo the clock's width, make the same callbacks with the same bytes, raise the same events and give the same answers throughout, and a caller who asks either learns the same, whatever is called and whatever the handlers poll or reset on what they have been shown. -/
theorem run_any_epoch (react : List Obs → Handler → Event → List Reaction) (hostAddress : HostAddress)
    (bmsAddress : UInt8) (startMs ms : UInt32) (calls : List Call) :
    let w : World capacity := run (.seeing react) (World.new hostAddress bmsAddress) (.tick startMs :: calls)
    let w' : World capacity :=
      run (.seeing react) (World.new hostAddress bmsAddress) (.tick (startMs + ms) :: calls.map (Call.later ms))
    seen w'.log = seen w.log ∧ w'.bms.busy = w.bms.busy ∧ w'.bms.pending = w.bms.pending ∧
      w'.bms.inFlight = w.bms.inFlight ∧ w'.bms.cachedCellCount = w.bms.cachedCellCount ∧
      w'.bms.cachedTempCount = w.bms.cachedTempCount ∧ w'.bms.parser.discarded = w.bms.parser.discarded := by
  intro w w'
  let c : Client capacity := .run react (.new hostAddress bmsAddress) (.tick startMs :: calls)
  have hlater : Client.run react (.new hostAddress bmsAddress) (.tick (startMs + ms) :: calls.map (Call.later ms)) =
      c.later ms := Client.later_run ms ((@Client.new capacity hostAddress bmsAddress).tick react startMs) react calls
  obtain ⟨htrace, hsetup, hdiscarded, hbusy, hpending, hflight, -⟩ :=
    @run_refines capacity react hostAddress bmsAddress (.tick startMs :: calls)
  obtain ⟨htrace', hsetup', hdiscarded', hbusy', hpending', hflight', -⟩ :=
    @run_refines capacity react hostAddress bmsAddress (.tick (startMs + ms) :: calls.map (Call.later ms))
  rw [hlater] at htrace' hsetup' hdiscarded' hbusy' hpending' hflight'
  refine ⟨htrace'.trans htrace.symm, ?_, ?_, ?_, ?_, ?_, hdiscarded'.trans hdiscarded.symm⟩
  · rw [hbusy', hbusy, Client.later_current, Option.isSome_map]
  · rw [hpending', hpending, Client.later_pending]
  · rw [hflight', hflight, Client.later_inFlight]
  · exact (congrArg Setup.cachedCellCount hsetup').trans (congrArg Setup.cachedCellCount hsetup).symm
  · exact (congrArg Setup.cachedTempCount hsetup').trans (congrArg Setup.cachedTempCount hsetup).symm

end Haidi
