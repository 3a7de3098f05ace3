import HaidiBms.Session.Model
import HaidiBms.Lib.History

/-!
# What a call is made of

Every public call is a sequence of a few actions, each with what is known of the session where it is taken. `Rule env R` says that a relation between the worlds before and after holds of every action and composes; then it holds of every call. An invariant, a frame condition or a law of the log is proved once for each action and never again for a path through the code.
-/

namespace Haidi

/-- The events that end the request they belong to. -/
def Event.isTerminal (event : Event) : Bool :=
  match event.kind, event.error with
  | .response, _ => event.id != .faultRecords
  | .timeout, _ => true
  | .protocolError, .unknownDataId | .protocolError, .truncated | .protocolError, .writeRejected => true
  | .protocolError, _ => false

/-- The events that report something received and turned away. -/
def Event.isRejection (event : Event) : Bool :=
  match event.kind, event.error with
  | .protocolError, .checksum | .protocolError, .badLength | .protocolError, .badSourceAddress
  | .protocolError, .unexpectedDataId | .protocolError, .frameSequence => true
  | _, _ => false

/-- A handler is called. -/
def Obs.isInvocation : Obs → Bool
  | .invoked _ _ => true
  | _ => false

theorem Event.not_terminal_of_rejection {event : Event} (h : event.isRejection = true) :
    event.isTerminal = false := by
  rcases event with ⟨kind, id, error, retries, frames, payload⟩
  cases kind <;> cases error <;> first | rfl | cases h

theorem multi_of_streaming {id : DataId} (h : (multiframeInfo id).streaming = true) :
    id = .faultRecords ∧ (multiframeInfo id).multi = true := by
  unfold multiframeInfo at h ⊢
  split at h <;> first | exact absurd h (by decide) | exact ⟨rfl, rfl⟩

theorem multiframeInfo_faultRecords :
    (multiframeInfo .faultRecords).multi = true ∧ (multiframeInfo .faultRecords).streaming = true := ⟨rfl, rfl⟩

variable {capacity : ℕ+} {C : Type}

/-- The events that end the request in flight, as the session makes them. -/
inductive Ending (bms : HaidiBMS capacity) : Event → Prop
  /-- A MOSFET write is echoed. -/
  | acknowledged (data : DataBytes) :
      bms.head.id = .dischargeMosControl ∨ bms.head.id = .chargeMosControl →
      (bms.head.data[0] != 0) = (data[0] != 0) →
      Ending bms { id := bms.head.id, frames := 1, payload := .mosControlAck ⟨bms.head.data[0] != 0, data[0] != 0⟩ }
  | refused (data : DataBytes) :
      bms.head.id = .dischargeMosControl ∨ bms.head.id = .chargeMosControl →
      Ending bms
        { kind := .protocolError, id := bms.head.id, error := .writeRejected, frames := 1
          payload := .mosControlAck ⟨bms.head.data[0] != 0, data[0] != 0⟩ }
  | decoded (data : DataBytes) (payload : EventPayload) :
      (multiframeInfo bms.head.id).multi = false →
      ¬ (bms.head.id = .dischargeMosControl ∨ bms.head.id = .chargeMosControl) →
      decodeSingle bms.head.id data = some payload → Ending bms { id := bms.head.id, frames := 1, payload }
  | undecoded (data : DataBytes) :
      (multiframeInfo bms.head.id).multi = false →
      ¬ (bms.head.id = .dischargeMosControl ∨ bms.head.id = .chargeMosControl) →
      decodeSingle bms.head.id data = none →
      Ending bms { kind := .protocolError, id := bms.head.id, error := .unknownDataId, frames := 1 }
  /-- A paginated reply ends with what has come of it. -/
  | assembled (payload : EventPayload) :
      (multiframeInfo bms.head.id).multi = true → (multiframeInfo bms.head.id).streaming = false →
      decodeMulti bms.head.id (bms.assembly.toList.drop (payloadWindow bms bms.head.id).1)
        (payloadWindow bms bms.head.id).2 = some payload →
      Ending bms { id := bms.head.id, frames := bms.framesSeen, payload }
  | unassembled :
      (multiframeInfo bms.head.id).multi = true → (multiframeInfo bms.head.id).streaming = false →
      decodeMulti bms.head.id (bms.assembly.toList.drop (payloadWindow bms bms.head.id).1)
        (payloadWindow bms bms.head.id).2 = none →
      Ending bms { kind := .protocolError, id := bms.head.id, error := .unknownDataId, frames := bms.framesSeen }
  | truncated :
      (multiframeInfo bms.head.id).streaming = true →
      Ending bms { kind := .protocolError, id := bms.head.id, error := .truncated, frames := bms.framesSeen }
  /-- The retries are used up and no frame has come. -/
  | timeout :
      ¬ ((multiframeInfo bms.head.id).multi = true ∧ bms.framesSeen > 0) → ¬ bms.retries < bms.maxRetries →
      Ending bms { kind := .timeout, id := bms.head.id, retries := bms.retries }

theorem Ending.id_eq {bms : HaidiBMS capacity} {event : Event} (h : Ending bms event) : event.id = bms.head.id := by
  cases h <;> rfl

theorem Ending.isTerminal {bms : HaidiBMS capacity} {event : Event} (h : Ending bms event) :
    event.isTerminal = true := by
  cases h with
  | acknowledged _ hid => rcases hid with hid | hid <;> rw [Event.isTerminal, hid] <;> rfl
  | decoded _ _ hsingle =>
      refine bne_iff_ne.mpr fun hid => ?_
      rw [show bms.head.id = DataId.faultRecords from hid, multiframeInfo_faultRecords.1] at hsingle
      cases hsingle
  | assembled _ _ hstream =>
      refine bne_iff_ne.mpr fun hid => ?_
      rw [show bms.head.id = DataId.faultRecords from hid, multiframeInfo_faultRecords.2] at hstream
      cases hstream
  | refused | undecoded | unassembled | truncated | timeout => rfl

/-! ### What bookkeeping does -/

/-- A transaction starts with nothing received; only what is waited for depends on the request. -/
theorem beginAwaiting_eq (bms : HaidiBMS capacity) :
    ∃ expectedFrames expectedItems, beginAwaiting bms =
      { bms with
        assembly := Vector.replicate assemblyLen 0, seenMask := 0, framesSeen := 0, recordLen := 0, retries := 0,
        expectedFrames, expectedItems } := by
  unfold beginAwaiting
  dsimp only
  split_ifs <;> exact ⟨_, _, rfl⟩

/-- A reply can change nothing but the counts. -/
theorem noteCounts_eq (bms : HaidiBMS capacity) (id : DataId) (data : DataBytes) :
    ∃ cachedCellCount cachedTempCount, noteCounts bms id data = { bms with cachedCellCount, cachedTempCount } := by
  unfold noteCounts
  split_ifs <;> exact ⟨_, _, rfl⟩

/-- A frame of a paginated reply is filed under its counter and counted. -/
theorem collect_eq (bms : HaidiBMS capacity) (id : DataId) (data : DataBytes) :
    ∃ seenMask framesSeen, collect bms id data =
      { bms with
        assembly := fileFrame bms.assembly (data[0].toNat * (multiframeInfo id).bytesPerFrame.toNat)
          (multiframeInfo id).bytesPerFrame.toNat data
        seenMask, framesSeen } := by
  unfold collect
  dsimp only
  split_ifs <;> exact ⟨_, _, rfl⟩

/-- The bus, the queue and the dispatch are as they were. -/
structure SameBus (bms bms' : HaidiBMS capacity) : Prop where
  hostAddress : bms'.hostAddress = bms.hostAddress
  queue : bms'.queue = bms.queue
  state : bms'.state = bms.state
  retries : bms'.retries = bms.retries
  dispatching : bms'.dispatching = bms.dispatching

namespace SameBus

theorem refl (bms : HaidiBMS capacity) : SameBus bms bms := ⟨rfl, rfl, rfl, rfl, rfl⟩

theorem trans {a b c : HaidiBMS capacity} (hab : SameBus a b) (hbc : SameBus b c) : SameBus a c :=
  ⟨hbc.hostAddress.trans hab.hostAddress, hbc.queue.trans hab.queue, hbc.state.trans hab.state,
    hbc.retries.trans hab.retries, hbc.dispatching.trans hab.dispatching⟩

theorem head {bms bms' : HaidiBMS capacity} (h : SameBus bms bms') : bms'.head = bms.head :=
  congrArg RingBuffer.front h.queue

end SameBus

theorem noteCounts_same (bms : HaidiBMS capacity) (id : DataId) (data : DataBytes) :
    SameBus bms (noteCounts bms id data) := by
  obtain ⟨_, _, heq⟩ := noteCounts_eq bms id data
  rw [heq]
  constructor <;> rfl

theorem parser_noteCounts (bms : HaidiBMS capacity) (id : DataId) (data : DataBytes) :
    (noteCounts bms id data).parser = bms.parser := by
  obtain ⟨_, _, heq⟩ := noteCounts_eq bms id data
  rw [heq]

theorem collect_same (bms : HaidiBMS capacity) (id : DataId) (data : DataBytes) :
    SameBus bms (collect bms id data) := by
  obtain ⟨_, _, heq⟩ := collect_eq bms id data
  rw [heq]
  constructor <;> rfl

theorem parser_collect (bms : HaidiBMS capacity) (id : DataId) (data : DataBytes) :
    (collect bms id data).parser = bms.parser := by
  obtain ⟨_, _, heq⟩ := collect_eq bms id data
  rw [heq]

theorem bmsAddress_collect (bms : HaidiBMS capacity) (id : DataId) (data : DataBytes) :
    (collect bms id data).bmsAddress = bms.bmsAddress := by
  obtain ⟨_, _, heq⟩ := collect_eq bms id data
  rw [heq]

theorem fileStream_same (bms : HaidiBMS capacity) (data : DataBytes) : SameBus bms (fileStream bms data) :=
  ⟨rfl, rfl, rfl, rfl, rfl⟩

theorem beginAwaiting_same (bms : HaidiBMS capacity) : SameBus { bms with retries := 0 } (beginAwaiting bms) := by
  obtain ⟨_, _, heq⟩ := beginAwaiting_eq bms
  rw [heq]
  constructor <;> rfl

/-! ### Inversions -/

theorem transmit_unwired (w : World capacity) (h : w.bms.txFn = none) :
    transmit w = w.modify fun bms => { bms with deadlineMs := bms.nowMs + bms.responseTimeoutMs } := by
  unfold transmit
  rw [h]

theorem transmit_wired (w : World capacity) {fn : Ptr} (h : w.bms.txFn = some fn) :
    transmit w =
      (w.note (.sent fn w.bms.txCtx (encode w.bms.hostAddress w.bms.head.id w.bms.head.data))).modify fun bms =>
        { bms with deadlineMs := bms.nowMs + bms.responseTimeoutMs } := by
  unfold transmit
  rw [h]

/-- The frame is sent if there is a way to, and the deadline runs in any case. -/
theorem transmit_cases (w : World capacity) :
    (w.bms.txFn = none ∧
      transmit w = w.modify fun bms => { bms with deadlineMs := bms.nowMs + bms.responseTimeoutMs }) ∨
    ∃ fn, transmit w =
      (w.note (.sent fn w.bms.txCtx (encode w.bms.hostAddress w.bms.head.id w.bms.head.data))).modify fun bms =>
        { bms with deadlineMs := bms.nowMs + bms.responseTimeoutMs } := by
  cases htx : w.bms.txFn with
  | none => exact Or.inl ⟨rfl, transmit_unwired w htx⟩
  | some fn => exact Or.inr ⟨fn, transmit_wired w htx⟩

theorem transmit_same (w : World capacity) : SameBus w.bms (transmit w).bms := by
  rcases transmit_cases w with ⟨-, heq⟩ | ⟨fn, heq⟩ <;> rw [heq] <;> constructor <;> rfl

theorem transmit_log (w : World capacity) :
    (w.bms.txFn = none ∧ (transmit w).log = w.log) ∨
      ∃ fn, (transmit w).log =
        (w.note (.sent fn w.bms.txCtx (encode w.bms.hostAddress w.bms.head.id w.bms.head.data))).log := by
  rcases transmit_cases w with ⟨hnone, heq⟩ | ⟨fn, heq⟩ <;> rw [heq]
  · exact Or.inl ⟨hnone, rfl⟩
  · exact Or.inr ⟨fn, rfl⟩

/-- The session once its head request has the bus. -/
def began (w : World capacity) : World capacity :=
  (w.note .began).modify fun bms => beginAwaiting { bms with state := .awaiting }

theorem began_eq (w : World capacity) :
    ∃ expectedFrames expectedItems, (began w).bms =
      { w.bms with
        state := .awaiting, assembly := Vector.replicate assemblyLen 0, seenMask := 0, framesSeen := 0, recordLen := 0,
        retries := 0, expectedFrames, expectedItems } := beginAwaiting_eq { w.bms with state := .awaiting }

theorem began_same (w : World capacity) : SameBus { w.bms with state := .awaiting, retries := 0 } (began w).bms :=
  beginAwaiting_same { w.bms with state := .awaiting }

theorem began_txFn (w : World capacity) : (began w).bms.txFn = w.bms.txFn := by
  obtain ⟨_, _, heq⟩ := began_eq w
  rw [heq]

theorem pump_cases (w : World capacity) :
    (pump w = w ∧ (w.bms.state = .idle → w.bms.queue.count = 0)) ∨
      (w.bms.state = .idle ∧ 0 < w.bms.queue.count ∧ pump w = transmit (began w)) := by
  unfold pump
  split_ifs with h
  · exact Or.inl ⟨rfl, fun hidle => h.resolve_left (not_not.mpr hidle)⟩
  · rw [not_or, not_not] at h
    exact Or.inr ⟨h.1, Nat.pos_of_ne_zero h.2, rfl⟩

theorem pump_idle (w : World capacity) (hidle : w.bms.state = .idle) (hpending : 0 < w.bms.queue.count) :
    pump w = transmit (began w) := by
  rcases pump_cases w with ⟨-, hempty⟩ | ⟨-, -, heq⟩
  · exact absurd (hempty hidle) hpending.ne'
  · exact heq

theorem pump_dispatching (w : World capacity) : (pump w).bms.dispatching = w.bms.dispatching := by
  rcases pump_cases w with ⟨h, -⟩ | ⟨-, -, h⟩ <;> rw [h]
  exact (transmit_same _).dispatching.trans (began_same w).dispatching

/-- After a pump the session is idle only with an empty queue. -/
theorem pump_busy (w : World capacity) (h : (pump w).bms.state = .idle) : (pump w).bms.queue.count = 0 := by
  rcases pump_cases w with ⟨hsame, hempty⟩ | ⟨-, -, hpump⟩
  · rw [hsame] at h ⊢
    exact hempty h
  · rw [hpump, (transmit_same _).state, (began_same w).state] at h
    cases h

/-- The session with its finished request retired. -/
def retired (w : World capacity) : World capacity :=
  (w.note .completing).modify fun bms =>
    { bms with queue := if bms.state = .awaiting then bms.queue.pop else bms.queue, state := .idle }

theorem complete_eq (w : World capacity) : complete w = pump (retired w) := by
  unfold complete retired
  by_cases h : w.bms.state = .awaiting <;> simp [World.modify, World.note, h]

/-- The session once an accepted request is in its queue. -/
def accepted (w : World capacity) (req : Request) (room : w.bms.queue.count < capacity) : World capacity :=
  (w.note (.answered req .queued)).modify fun bms => { bms with queue := w.bms.queue.push req room }

/-- A request is refused and nothing but the answer changes, or it is accepted and the bus is offered it unless an event is being dispatched. -/
theorem enqueue_cases (w : World capacity) (req : Request) :
    (∃ status, status ≠ .queued ∧ enqueue w req = (w.note (.answered req status), status)) ∨
      ∃ room : w.bms.queue.count < capacity, w.bms.txFn ≠ none ∧ isKnownDataId req.id = true ∧
        enqueue w req = (if w.bms.dispatching then accepted w req room else pump (accepted w req room), .queued) := by
  unfold enqueue
  by_cases htx : w.bms.txFn = none
  · rw [if_pos htx]
    exact Or.inl ⟨.noTxHandler, by decide, rfl⟩
  rw [if_neg htx]
  by_cases hknown : (!isKnownDataId req.id) = true
  · rw [if_pos hknown]
    exact Or.inl ⟨.badRequest, by decide, rfl⟩
  rw [if_neg hknown]
  by_cases room : w.bms.queue.count < capacity
  · rw [dif_pos room]
    exact Or.inr ⟨room, htx, by simpa using hknown, rfl⟩
  · rw [dif_neg room]
    exact Or.inl ⟨.queueFull, by decide, rfl⟩

/-- The session once a tick has told it the time. -/
def ticked (w : World capacity) (nowMs : UInt32) : World capacity := w.modify fun bms => { bms with nowMs }

/-- What a tick does once it has found the deadline passed. -/
def lapse (env : Env capacity C) (w : World capacity) : World capacity :=
  if (multiframeInfo w.bms.head.id).multi ∧ !(multiframeInfo w.bms.head.id).streaming ∧ w.bms.framesSeen > 0 then
    finishMulti env w w.bms.head.id
  else if (multiframeInfo w.bms.head.id).streaming ∧ w.bms.framesSeen > 0 then
    complete (emit env w
      { kind := .protocolError, id := w.bms.head.id, error := .truncated, frames := w.bms.framesSeen })
  else if w.bms.retries < w.bms.maxRetries then
    transmit ((w.note .retrying).modify fun bms => { bms with retries := bms.retries + 1 })
  else complete (emit env w { kind := .timeout, id := w.bms.head.id, retries := w.bms.retries })

theorem tick_eq (env : Env capacity C) (w : World capacity) (nowMs : UInt32) :
    tick env w nowMs =
      if w.bms.state ≠ .awaiting ∨ !expired nowMs w.bms.deadlineMs then ticked w nowMs
      else lapse env ((ticked w nowMs).note .expired) := rfl

/-- The time is past the deadline of the request in flight. -/
def World.overdueAt (w : World capacity) (nowMs : UInt32) : Bool :=
  w.bms.state = .awaiting && expired nowMs w.bms.deadlineMs

theorem World.overdueAt_iff {w : World capacity} {nowMs : UInt32} :
    w.overdueAt nowMs = true ↔ w.bms.state = .awaiting ∧ expired nowMs w.bms.deadlineMs = true := by
  rw [World.overdueAt, Bool.and_eq_true, decide_eq_true_iff]

theorem tick_overdue (env : Env capacity C) (w : World capacity) (nowMs : UInt32) :
    tick env w nowMs = if w.overdueAt nowMs then lapse env ((ticked w nowMs).note .expired) else ticked w nowMs := by
  rw [tick_eq, World.overdueAt]
  by_cases hstate : w.bms.state = .awaiting <;> cases expired nowMs w.bms.deadlineMs <;> simp [hstate]

/-- The session as the first handler of an event finds it. -/
def opened (w : World capacity) (event : Event) : World capacity :=
  (w.note (.raised event)).modify fun bms => { bms with dispatching := true }

/-- The session once the last handler of an event has returned. -/
def closed (nested : Bool) (w : World capacity) : World capacity :=
  (if nested then w else w.modify fun bms => { bms with dispatching := false }).note .settled

theorem emit_eq (env : Env capacity C) (w : World capacity) (event : Event) :
    emit env w event =
      closed w.bms.dispatching
        (invokeSessionWide env (invokePerRequest env (opened w event) w.bms.owner event) event) := rfl

/-- What holds between the handlers of an event, given what holds inside one and is kept by the calls it makes. -/
theorem emit_rule {I J : World capacity → Prop} (env : Env capacity C) (w : World capacity) (event : Event)
    (hopened : I (opened w event)) (hinvoked : ∀ w handler, I w → J (w.note (.invoked handler event)))
    (hperform : ∀ w c, J w → J (env.perform w c)) (hreturned : ∀ w, J w → I (w.note .returned)) :
    ∃ w', I w' ∧ emit env w event = closed w.bms.dispatching w' := by
  have hcalls : ∀ (calls : List C) w, J w → J (calls.foldl env.perform w) := by
    intro calls
    induction calls with
    | nil => exact fun _ h => h
    | cons c rest ih => exact fun w h => ih _ (hperform w c h)
  have hinvoke : ∀ w handler, I w → I (invoke env w handler event) :=
    fun w handler h => hreturned _ (hcalls _ _ (hinvoked w handler h))
  refine ⟨_, ?_, emit_eq env w event⟩
  have hfirst : I (invokePerRequest env (opened w event) w.bms.owner event) := by
    unfold invokePerRequest
    split
    · exact hinvoke _ _ hopened
    · exact hopened
  unfold invokeSessionWide
  split
  · exact hinvoke _ _ hfirst
  · exact hfirst

/-- A record that decodes is dispatched, and the buffer is emptied in any case. -/
theorem deliverRecord_cases (env : Env capacity C) (w : World capacity) (id : DataId) :
    (∃ record, deliverRecord env w id =
      (emit env w { id, frames := faultFramesPerRecord, payload := .faultRecord record }).modify fun bms =>
        { bms with recordLen := 0 }) ∨
      deliverRecord env w id = w.modify fun bms => { bms with recordLen := 0 } := by
  unfold deliverRecord
  cases decodeFaultRecord w.bms.record.toList w.bms.recordLen with
  | none => exact Or.inr rfl
  | some record => exact Or.inl ⟨record, rfl⟩

theorem resume_cases (w : World capacity) :
    (w.bms.state = .idle ∧ resume w = pump (w.note .abandoned)) ∨
      (w.bms.state = .awaiting ∧ resume w = armInterframe w) := by
  unfold resume
  cases w.bms.state with
  | idle => exact Or.inl ⟨rfl, if_pos nofun⟩
  | awaiting => exact Or.inr ⟨rfl, if_neg (not_not.mpr rfl)⟩

theorem feedByte_silent (env : Env capacity C) (w : World capacity) {byte : UInt8}
    (h : (w.bms.parser.step byte).2 = none) :
    feedByte env w byte = w.modify fun bms => { bms with parser := (w.bms.parser.step byte).1 } := by
  unfold feedByte
  dsimp only
  rw [h]

theorem feedByte_signal (env : Env capacity C) (w : World capacity) {byte : UInt8} {signal : FrameSignal}
    (h : (w.bms.parser.step byte).2 = some signal) :
    feedByte env w byte =
      onSignal env (w.modify fun bms => { bms with parser := (w.bms.parser.step byte).1 }) signal := by
  unfold feedByte
  dsimp only
  rw [h]

/-! ### The log only grows -/

theorem transmit_past (w : World capacity) : w.log <:+ (transmit w).log := by
  rcases transmit_log w with ⟨-, hlog⟩ | ⟨fn, hlog⟩ <;> rw [hlog]
  exact List.suffix_cons _ _

theorem pump_past (w : World capacity) : w.log <:+ (pump w).log := by
  unfold pump
  split_ifs
  · exact List.suffix_rfl
  · refine List.IsSuffix.trans ?_ (transmit_past _)
    exact List.suffix_cons _ _

theorem complete_past (w : World capacity) : w.log <:+ (complete w).log := by
  rw [complete_eq]
  exact List.IsSuffix.trans (List.suffix_cons _ _) (pump_past (retired w))

theorem enqueue_past (w : World capacity) (req : Request) : w.log <:+ (enqueue w req).1.log := by
  rcases enqueue_cases w req with ⟨status, -, h⟩ | ⟨room, -, -, h⟩ <;> rw [h]
  · exact List.suffix_cons _ _
  · dsimp only
    split_ifs
    · exact List.suffix_cons _ _
    · exact (List.suffix_cons _ _).trans (pump_past (accepted w req room))

theorem closed_past (nested : Bool) (w : World capacity) : w.log <:+ (closed nested w).log := by
  cases nested <;> exact List.suffix_cons _ _

theorem raised_past (env : Env capacity C) (henv : ∀ w c, w.log <:+ (env.perform w c).log) (w : World capacity)
    (event : Event) : (w.note (.raised event)).log <:+ (emit env w event).log := by
  obtain ⟨w', hpast, hemit⟩ := emit_rule (I := fun w' => (w.note (.raised event)).log <:+ w'.log)
    (J := fun w' => (w.note (.raised event)).log <:+ w'.log) env w event List.suffix_rfl
    (fun _ _ h => h.trans (List.suffix_cons _ _)) (fun w' c h => h.trans (henv w' c))
    (fun _ h => h.trans (List.suffix_cons _ _))
  rw [hemit]
  exact hpast.trans (closed_past _ _)

theorem emit_past (env : Env capacity C) (henv : ∀ w c, w.log <:+ (env.perform w c).log) (w : World capacity)
    (event : Event) : w.log <:+ (emit env w event).log :=
  (List.suffix_cons _ _).trans (raised_past env henv w event)

theorem deliverRecord_past (env : Env capacity C) (henv : ∀ w c, w.log <:+ (env.perform w c).log)
    (w : World capacity) (id : DataId) : w.log <:+ (deliverRecord env w id).log := by
  rcases deliverRecord_cases env w id with ⟨record, heq⟩ | heq <;> rw [heq]
  · exact emit_past env henv w _
  · exact List.suffix_rfl

theorem resume_past (w : World capacity) : w.log <:+ (resume w).log := by
  rcases resume_cases w with ⟨-, heq⟩ | ⟨-, heq⟩ <;> rw [heq]
  · refine List.IsSuffix.trans ?_ (pump_past _)
    exact List.suffix_cons _ _
  · exact List.suffix_rfl

theorem polling_past (react : World capacity → Handler → Event → List Reaction) (w : World capacity) (reaction : Reaction) :
    w.log <:+ ((Env.polling react).perform w reaction).log := by
  cases reaction with
  | poll method fn ctx => exact enqueue_past w _
  | reset => exact List.suffix_cons _ _

/-! ### Actions -/

/-- The frame accepted last is the sentinel of a stream. -/
def EndsStream (past : List (Entry capacity)) (bms : HaidiBMS capacity) : Prop :=
  (∃ older, past = ⟨bms, .accepted⟩ :: older) ∧ getElem (dataOf bms.parser.buf) 0 byte0_lt = frameNoEnd

/-- A relation that every action of a call respects. -/
structure Rule (env : Env capacity C) (R : World capacity → World capacity → Prop) : Prop where
  refl : ∀ w, R w w
  trans : ∀ {a b c}, R a b → R b c → R a c
  poll : ∀ w (method : Poll) fn ctx, R w (enqueue w (method.toRequest fn ctx)).1
  reset : ∀ w, R w (reset w)
  setTxHandler : ∀ w fn ctx, R w (w.modify fun bms => { bms with txFn := fn, txCtx := ctx })
  setEventHandler : ∀ w fn ctx, R w (w.modify fun bms => { bms with eventFn := fn, eventCtx := ctx })
  setResponseTimeoutMs : ∀ w ms, R w (w.modify fun bms => { bms with responseTimeoutMs := ms })
  setInterframeTimeoutMs : ∀ w ms, R w (w.modify fun bms => { bms with interframeTimeoutMs := ms })
  setMaxRetries : ∀ w retries, R w (w.modify fun bms => { bms with maxRetries := retries })
  /-- The framer takes a byte. -/
  parse : ∀ w byte, R w (w.modify fun bms => { bms with parser := (bms.parser.step byte).1 })
  /-- Something received is turned away. -/
  reject : ∀ w event, event.isRejection = true → R w (emit env w event)
  /-- An accepted frame is read for the pack's size. -/
  counts : ∀ w id data, w.bms.state = .awaiting → R w (w.modify fun bms => noteCounts bms id data)
  single : ∀ w, w.bms.state = .awaiting → (multiframeInfo w.bms.head.id).multi = false → R w (w.note .accepted)
  collect : ∀ w id data, w.bms.state = .awaiting → id = w.bms.head.id → (multiframeInfo id).multi = true →
    (multiframeInfo id).streaming = false → ¬ data[0] > maxFrameIndex → data = dataOf w.bms.parser.buf →
      R w ((w.note .accepted).modify fun bms => collect bms id data)
  file : ∀ w data, w.bms.state = .awaiting → w.bms.head.id = .faultRecords → data[0] ≠ frameNoEnd →
    R w ((w.note .accepted).modify fun bms => fileStream bms data)
  /-- A record is complete. -/
  deliver : ∀ w id, w.bms.state = .awaiting → id = w.bms.head.id → id = .faultRecords →
    R w (resume (deliverRecord env w id))
  sentinel : ∀ w, w.bms.state = .awaiting → w.bms.head.id = .faultRecords →
    (dataOf w.bms.parser.buf)[0] = frameNoEnd → R w (complete ((w.note .accepted).note .streamEnded))
  arm : ∀ w, w.bms.state = .awaiting → R w (armInterframe w)
  /-- The request in flight gets its outcome. -/
  finish : ∀ w event, w.bms.state = .awaiting → Ending w.bms event → R w (complete (emit env w event))
  clock : ∀ w nowMs, R w (w.modify fun bms => { bms with nowMs })
  expire : ∀ w, w.bms.state = .awaiting → expired w.bms.nowMs w.bms.deadlineMs = true → R w (w.note .expired)
  retry : ∀ w, w.bms.state = .awaiting → w.bms.retries < w.bms.maxRetries →
    ¬ ((multiframeInfo w.bms.head.id).multi = true ∧ w.bms.framesSeen > 0) →
      R w (transmit ((w.note .retrying).modify fun bms => { bms with retries := bms.retries + 1 }))

/-! ### Turns -/

/-- The session once an accepted frame has been read for the pack's size. -/
def informed (w : World capacity) : World capacity :=
  (w.modify fun bms => noteCounts bms bms.head.id (dataOf bms.parser.buf)).note .accepted

/-- The session once a frame of a paginated reply is in. -/
def gathered (w : World capacity) : World capacity :=
  (w.note .accepted).modify fun bms => collect bms bms.head.id (dataOf bms.parser.buf)

theorem gathered_eq (w : World capacity) :
    ((w.note .accepted).modify fun bms => collect bms w.bms.head.id (dataOf w.bms.parser.buf)) = gathered w :=
  World.modify_congr rfl

theorem gathered_same (w : World capacity) : SameBus w.bms (gathered w).bms := collect_same _ _ _

/-- The session once a frame of a stream is in. -/
def streamed (w : World capacity) (data : DataBytes) : World capacity :=
  (w.note .accepted).modify fun bms => fileStream bms data

/-- As many frames as the session waits for have come. -/
def HaidiBMS.Full (bms : HaidiBMS capacity) : Prop := bms.expectedFrames ≠ 0 ∧ bms.framesSeen ≥ bms.expectedFrames

/-- A relation that every turn of receiving respects: what an accepted frame sets off is one turn, up to its outcome. -/
structure Receipts (env : Env capacity C) (R : World capacity → World capacity → Prop) : Prop where
  refl : ∀ w, R w w
  trans : ∀ {a b c}, R a b → R b c → R a c
  parse : ∀ w byte, R w (w.modify fun bms => { bms with parser := (bms.parser.step byte).1 })
  reject : ∀ w event, event.isRejection = true → R w (emit env w event)
  /-- A reply of one frame ends its request. -/
  answer : ∀ w event, w.bms.state = .awaiting → (multiframeInfo w.bms.head.id).multi = false →
    Ending (informed w).bms event → R w (complete (emit env (informed w) event))
  /-- A frame of a paginated reply leaves it unfinished. -/
  gather : ∀ w, w.bms.state = .awaiting → (multiframeInfo w.bms.head.id).multi = true →
    (multiframeInfo w.bms.head.id).streaming = false → ¬ (dataOf w.bms.parser.buf)[0] > maxFrameIndex →
      ¬ (gathered w).bms.Full → R w (armInterframe (gathered w))
  /-- It is the last that was waited for. -/
  conclude : ∀ w event, w.bms.state = .awaiting → (multiframeInfo w.bms.head.id).multi = true →
    (multiframeInfo w.bms.head.id).streaming = false → ¬ (dataOf w.bms.parser.buf)[0] > maxFrameIndex →
      (gathered w).bms.Full → Ending (gathered w).bms event → R w (complete (emit env (gathered w) event))
  /-- A frame of a stream leaves its record unfinished. -/
  file : ∀ w data, w.bms.state = .awaiting → w.bms.head.id = .faultRecords → data[0] ≠ frameNoEnd →
    R w (armInterframe (streamed w data))
  deliver : ∀ w data, w.bms.state = .awaiting → w.bms.head.id = .faultRecords → data[0] ≠ frameNoEnd →
    R w (resume (deliverRecord env (streamed w data) .faultRecords))
  sentinel : ∀ w, w.bms.state = .awaiting → w.bms.head.id = .faultRecords →
    (dataOf w.bms.parser.buf)[0] = frameNoEnd → R w (complete ((w.note .accepted).note .streamEnded))

/-- A relation that every turn of a call respects; a passed deadline sets off one turn too. -/
structure Turns (env : Env capacity C) (R : World capacity → World capacity → Prop) : Prop extends Receipts env R where
  poll : ∀ w (method : Poll) fn ctx, R w (enqueue w (method.toRequest fn ctx)).1
  reset : ∀ w, R w (reset w)
  setTxHandler : ∀ w fn ctx, R w (w.modify fun bms => { bms with txFn := fn, txCtx := ctx })
  setEventHandler : ∀ w fn ctx, R w (w.modify fun bms => { bms with eventFn := fn, eventCtx := ctx })
  setResponseTimeoutMs : ∀ w ms, R w (w.modify fun bms => { bms with responseTimeoutMs := ms })
  setInterframeTimeoutMs : ∀ w ms, R w (w.modify fun bms => { bms with interframeTimeoutMs := ms })
  setMaxRetries : ∀ w retries, R w (w.modify fun bms => { bms with maxRetries := retries })
  clock : ∀ w nowMs, R w (w.modify fun bms => { bms with nowMs })
  /-- The deadline ends the request. -/
  lapse : ∀ w event, w.bms.state = .awaiting → expired w.bms.nowMs w.bms.deadlineMs = true → Ending w.bms event →
    (event.kind = .response → w.bms.framesSeen > 0) → R w (complete (emit env (w.note .expired) event))
  retry : ∀ w, w.bms.state = .awaiting → expired w.bms.nowMs w.bms.deadlineMs = true →
    w.bms.retries < w.bms.maxRetries → ¬ ((multiframeInfo w.bms.head.id).multi = true ∧ w.bms.framesSeen > 0) →
      R w (transmit (((w.note .expired).note .retrying).modify fun bms => { bms with retries := bms.retries + 1 }))

/-- A reply of one frame always ends its request. -/
theorem handleSingle_ends (env : Env capacity C) (w : World capacity) (id : DataId) (data : DataBytes)
    (hid : id = w.bms.head.id) (hsingle : (multiframeInfo id).multi = false) :
    ∃ event, Ending w.bms event ∧ handleSingle env w id data = complete (emit env (w.note .accepted) event) := by
  subst hid
  unfold handleSingle
  dsimp only
  split_ifs with hmos hrefused
  · exact ⟨_, .refused data hmos, rfl⟩
  · exact ⟨_, .acknowledged data hmos (not_not.mp hrefused), rfl⟩
  · split
    · exact ⟨_, .undecoded data hsingle hmos ‹_›, rfl⟩
    · exact ⟨_, .decoded data _ hsingle hmos ‹_›, rfl⟩

theorem finishMulti_ends (env : Env capacity C) (w : World capacity) (id : DataId) (hid : id = w.bms.head.id)
    (hmulti : (multiframeInfo id).multi = true) (hstream : (multiframeInfo id).streaming = false) :
    ∃ event, Ending w.bms event ∧ finishMulti env w id = complete (emit env w event) := by
  subst hid
  unfold finishMulti
  dsimp only
  split
  · exact ⟨_, .assembled _ hmulti hstream ‹_›, rfl⟩
  · exact ⟨_, .unassembled hmulti hstream ‹_›, rfl⟩

/-- A paginated reply tells nothing of the pack's size. -/
theorem noteCounts_multi {id : DataId} (h : (multiframeInfo id).multi = true) (bms : HaidiBMS capacity)
    (data : DataBytes) : noteCounts bms id data = bms := by
  unfold noteCounts
  split_ifs with hstatus hcount
  · subst hstatus
    cases h
  · subst hcount
    cases h
  · rfl

/-- A turn is a few actions. -/
theorem Rule.turns {env : Env capacity C} {R : World capacity → World capacity → Prop} (rule : Rule env R) :
    Turns env R where
  refl := rule.refl
  trans := rule.trans
  poll := rule.poll
  reset := rule.reset
  setTxHandler := rule.setTxHandler
  setEventHandler := rule.setEventHandler
  setResponseTimeoutMs := rule.setResponseTimeoutMs
  setInterframeTimeoutMs := rule.setInterframeTimeoutMs
  setMaxRetries := rule.setMaxRetries
  parse := rule.parse
  clock := rule.clock
  reject := rule.reject
  answer := by
    intro w event hstate hsingle hevent
    have hsame := noteCounts_same w.bms w.bms.head.id (dataOf w.bms.parser.buf)
    have hcounts := rule.counts w w.bms.head.id (dataOf w.bms.parser.buf) hstate
    have hheard := rule.single (w.modify fun bms => noteCounts bms bms.head.id (dataOf bms.parser.buf))
      (hsame.state.trans hstate) (by rw [World.modify_bms, hsame.head]; exact hsingle)
    exact rule.trans hcounts (rule.trans hheard (rule.finish (informed w) event (hsame.state.trans hstate) hevent))
  gather := by
    intro w hstate hmulti hstream hrange _
    have hgathered := rule.collect w w.bms.head.id (dataOf w.bms.parser.buf) hstate rfl hmulti hstream hrange rfl
    rw [gathered_eq] at hgathered
    exact rule.trans hgathered (rule.arm (gathered w) ((collect_same _ _ _).state.trans hstate))
  conclude := by
    intro w event hstate hmulti hstream hrange _ hevent
    have hgathered := rule.collect w w.bms.head.id (dataOf w.bms.parser.buf) hstate rfl hmulti hstream hrange rfl
    rw [gathered_eq] at hgathered
    exact rule.trans hgathered (rule.finish (gathered w) event ((collect_same _ _ _).state.trans hstate) hevent)
  file := fun w data hstate hid hend =>
    rule.trans (rule.file w data hstate hid hend) (rule.arm (streamed w data) hstate)
  deliver := fun w data hstate hid hend =>
    rule.trans (rule.file w data hstate hid hend) (rule.deliver (streamed w data) _ hstate hid.symm rfl)
  sentinel := rule.sentinel
  lapse := fun w event hstate hdeadline hevent _ =>
    rule.trans (rule.expire w hstate hdeadline) (rule.finish (w.note .expired) event hstate hevent)
  retry := fun w hstate hdeadline hretries hnone =>
    rule.trans (rule.expire w hstate hdeadline) (rule.retry (w.note .expired) hstate hretries hnone)

namespace Receipts

variable {env : Env capacity C} {R : World capacity → World capacity → Prop} (receipts : Receipts env R)
include receipts

theorem handleMulti (w : World capacity) (hstate : w.bms.state = .awaiting)
    (hmulti : (multiframeInfo w.bms.head.id).multi = true)
    (hstream : (multiframeInfo w.bms.head.id).streaming = false) :
    R w (handleMulti env w w.bms.head.id (dataOf w.bms.parser.buf)) := by
  unfold Haidi.handleMulti
  dsimp only
  rw [gathered_eq]
  split_ifs with hrange hfull
  · exact receipts.reject _ _ rfl
  · have hhead := congrArg Request.id (collect_same w.bms w.bms.head.id (dataOf w.bms.parser.buf)).head
    obtain ⟨event, hevent, hends⟩ := finishMulti_ends env (gathered w) w.bms.head.id hhead.symm hmulti hstream
    rw [hends]
    exact receipts.conclude w event hstate hmulti hstream hrange hfull hevent
  · exact receipts.gather w hstate hmulti hstream hrange hfull

theorem handleStream (w : World capacity) (hstate : w.bms.state = .awaiting)
    (hid : w.bms.head.id = .faultRecords) : R w (handleStream env w .faultRecords (dataOf w.bms.parser.buf)) := by
  unfold Haidi.handleStream
  dsimp only
  split_ifs with hend hfull
  · exact receipts.sentinel w hstate hid hend
  · exact receipts.deliver w _ hstate hid hend
  · have hwaiting : (streamed w (dataOf w.bms.parser.buf)).bms.state = .awaiting := hstate
    change R w (resume (streamed w (dataOf w.bms.parser.buf)))
    rw [resume, if_neg (not_not.mpr hwaiting)]
    exact receipts.file w _ hstate hid hend

theorem onFrame (w : World capacity) (frame : MessageBytes) (hframe : frame = w.bms.parser.buf) :
    R w (onFrame env w frame) := by
  unfold Haidi.onFrame
  dsimp only
  split_ifs with hidle haddress hid hsingle hstream
  · exact receipts.reject _ _ rfl
  · exact receipts.reject _ _ rfl
  · exact receipts.reject _ _ rfl
  all_goals
    rw [not_not] at hidle haddress hid
    rw [hid, hframe] at *
  · have hsame := noteCounts_same w.bms w.bms.head.id (dataOf w.bms.parser.buf)
    have hinformed : (w.modify fun bms => noteCounts bms w.bms.head.id (dataOf w.bms.parser.buf)) =
        w.modify fun bms => noteCounts bms bms.head.id (dataOf bms.parser.buf) := World.modify_congr rfl
    rw [hinformed]
    obtain ⟨event, hevent, hends⟩ := handleSingle_ends env
      (w.modify fun bms => noteCounts bms bms.head.id (dataOf bms.parser.buf)) w.bms.head.id
      (dataOf w.bms.parser.buf) (congrArg Request.id hsame.head).symm (by simpa using hsingle)
    rw [hends]
    exact receipts.answer w event hidle (by simpa using hsingle) hevent
  all_goals
    have hmulti : (multiframeInfo w.bms.head.id).multi = true := by simpa using hsingle
    have hsame : (w.modify fun bms => noteCounts bms w.bms.head.id (dataOf w.bms.parser.buf)) = w :=
      World.modify_congr (g := id) (noteCounts_multi hmulti _ _)
    rw [hsame]
  · have hrecords := (multi_of_streaming hstream).1
    rw [hrecords]
    exact receipts.handleStream w hidle hrecords
  · exact receipts.handleMulti w hidle hmulti (by simpa using hstream)

theorem feedByte (w : World capacity) (byte : UInt8) : R w (feedByte env w byte) := by
  refine receipts.trans (receipts.parse w byte) ?_
  cases hsignal : (w.bms.parser.step byte).2 with
  | none =>
      rw [feedByte_silent env w hsignal]
      exact receipts.refl _
  | some signal =>
      rw [feedByte_signal env w hsignal]
      cases signal with
      | frame frame => exact receipts.onFrame _ frame (FrameParser.step_frame hsignal).symm
      | error error =>
          refine receipts.reject _ _ ?_
          cases error <;> rfl

theorem foldl {A : Type} (f : World capacity → A → World capacity) (h : ∀ w a, R w (f w a)) (w : World capacity)
    (l : List A) : R w (l.foldl f w) := by
  induction l generalizing w with
  | nil => exact receipts.refl w
  | cons a rest ih => exact receipts.trans (h w a) (ih _)

theorem feed (w : World capacity) (data : List UInt8) : R w (feed env w data) :=
  receipts.foldl _ receipts.feedByte w data

end Receipts

namespace Turns

variable {env : Env capacity C} {R : World capacity → World capacity → Prop} (turns : Turns env R)
include turns

theorem tick (w : World capacity) (nowMs : UInt32) : R w (tick env w nowMs) := by
  refine turns.trans (turns.clock w nowMs) ?_
  unfold Haidi.tick
  dsimp only
  split_ifs with hquiet hmulti hstream hretry
  · exact turns.refl _
  all_goals
    rw [not_or, not_not] at hquiet
    have hdeadline : expired nowMs w.bms.deadlineMs = true := by simpa using hquiet.2
  · obtain ⟨event, hevent, hends⟩ := finishMulti_ends env ((ticked w nowMs).note .expired) w.bms.head.id rfl hmulti.1
      ((Bool.not_eq_true' _).mp hmulti.2.1)
    have hlapsed := turns.lapse (ticked w nowMs) event hquiet.1 hdeadline hevent fun _ => hmulti.2.2
    rw [← hends] at hlapsed
    exact hlapsed
  · exact turns.lapse (ticked w nowMs) _ hquiet.1 hdeadline (.truncated hstream.1) nofun
  all_goals
    have hnone : ¬ ((multiframeInfo w.bms.head.id).multi = true ∧ w.bms.framesSeen > 0) := by
      rintro ⟨hpaged, hseen⟩
      cases hkind : (multiframeInfo w.bms.head.id).streaming with
      | true => exact hstream ⟨hkind, hseen⟩
      | false => exact hmulti ⟨hpaged, (Bool.not_eq_true' _).mpr hkind, hseen⟩
  · exact turns.retry (ticked w nowMs) hquiet.1 hdeadline hretry hnone
  · exact turns.lapse (ticked w nowMs) _ hquiet.1 hdeadline (.timeout hnone hretry) nofun

theorem call (w : World capacity) (c : Call) : R w (call env w c) := by
  cases c with
  | poll method fn ctx => exact turns.poll w method fn ctx
  | feed data => exact turns.feed w data
  | tick nowMs => exact turns.tick w nowMs
  | reset => exact turns.reset w
  | setTxHandler fn ctx => exact turns.setTxHandler w fn ctx
  | setEventHandler fn ctx => exact turns.setEventHandler w fn ctx
  | setResponseTimeoutMs ms => exact turns.setResponseTimeoutMs w ms
  | setInterframeTimeoutMs ms => exact turns.setInterframeTimeoutMs w ms
  | setMaxRetries retries => exact turns.setMaxRetries w retries

theorem run (w : World capacity) (calls : List Call) : R w (run env w calls) := turns.foldl _ turns.call w calls

end Turns

theorem Rule.run {env : Env capacity C} {R : World capacity → World capacity → Prop} (rule : Rule env R)
    (w : World capacity) (calls : List Call) : R w (run env w calls) := rule.turns.run w calls

/-- Where handlers call anything, a family of relations holds of a handler's call at every depth if it holds of a call whose handlers' calls it holds of. -/
theorem nested_turns {ι : Type} {R : ι → World capacity → World capacity → Prop}
    (react : World capacity → Handler → Event → List Call) (hrefl : ∀ i w, R i w w)
    (h : ∀ env : Env capacity Call, (∀ i w c, R i w (env.perform w c)) → ∀ i, Turns env (R i))
    (i : ι) (depth : Nat) : ∀ w c, R i w ((Env.nested react depth).perform w c) := by
  induction depth generalizing i with
  | zero => exact fun w _ => hrefl i w
  | succ depth ih => exact fun w c => (h (.nested react depth) ih i).call w c

theorem nested_rule {ι : Type} {R : ι → World capacity → World capacity → Prop}
    (react : World capacity → Handler → Event → List Call) (hrefl : ∀ i w, R i w w)
    (h : ∀ env : Env capacity Call, (∀ i w c, R i w (env.perform w c)) → ∀ i, Rule env (R i))
    (i : ι) (depth : Nat) : ∀ w c, R i w ((Env.nested react depth).perform w c) :=
  nested_turns react hrefl (fun env henv i => (h env henv i).turns) i depth

/-! ### Invariants of the bus -/

/-- One world is kept within an invariant on the way to another, where the log of the way there is as permitted. -/
def Kept (P : List (Entry capacity) → Entry capacity → Prop) (I : World capacity → Prop) (w w' : World capacity) :
    Prop :=
  History.Everywhere P w'.log → I w → I w'

/-- An invariant that only looks at the queue, the bus, the dispatch and the log needs a proof for these actions alone. -/
structure BusActions (env : Env capacity C) (P : List (Entry capacity) → Entry capacity → Prop)
    (I : World capacity → Prop) : Prop where
  quiet : ∀ w bms, SameBus w.bms bms → I w → I ⟨bms, w.log⟩
  mark : ∀ w obs, obs = .accepted ∨ obs = .expired → Kept P I w (w.note obs)
  poll : ∀ w (method : Poll) fn ctx, Kept P I w (enqueue w (method.toRequest fn ctx)).1
  reset : ∀ w, Kept P I w (reset w)
  reject : ∀ w event, event.isRejection = true → Kept P I w (emit env w event)
  deliver : ∀ w id, w.bms.state = .awaiting → id = w.bms.head.id → id = .faultRecords →
    Kept P I w (resume (deliverRecord env w id))
  sentinel : ∀ w, w.bms.state = .awaiting → w.bms.head.id = .faultRecords → EndsStream w.log w.bms →
    Kept P I w (complete (w.note .streamEnded))
  finish : ∀ w event, w.bms.state = .awaiting → event.id = w.bms.head.id → event.isTerminal = true →
    Kept P I w (complete (emit env w event))
  retry : ∀ w, w.bms.state = .awaiting → w.bms.retries < w.bms.maxRetries →
    Kept P I w (transmit ((w.note .retrying).modify fun bms => { bms with retries := bms.retries + 1 }))

/-- The way from one world to another, within the invariant. -/
def Within (P : List (Entry capacity) → Entry capacity → Prop) (I : World capacity → Prop)
    (w w' : World capacity) : Prop :=
  w.log <:+ w'.log ∧ Kept P I w w'

/-- What leaves the bus alone stays within the invariant; that `f` leaves it alone is by default read off its fields. -/
theorem BusActions.modify {env : Env capacity C} {P : List (Entry capacity) → Entry capacity → Prop}
    {I : World capacity → Prop} (h : BusActions env P I) (w : World capacity) (f : HaidiBMS capacity → HaidiBMS capacity)
    (hsame : SameBus w.bms (f w.bms) := by constructor <;> rfl) : Within P I w (w.modify f) :=
  ⟨List.suffix_rfl, fun _ hw => h.quiet w _ hsame hw⟩

theorem BusActions.rule {env : Env capacity C} {P : List (Entry capacity) → Entry capacity → Prop}
    {I : World capacity → Prop} (h : BusActions env P I) (henv : ∀ w c, w.log <:+ (env.perform w c).log) :
    Rule env (Within P I) := by
  have trans : ∀ {a b c}, Within P I a b → Within P I b c → Within P I a c :=
    fun hab hbc => ⟨hab.1.trans hbc.1, fun hP ha => hbc.2 hP (hab.2 (hP.past hbc.1) ha)⟩
  have mark : ∀ w obs, obs = .accepted ∨ obs = .expired → Within P I w (w.note obs) :=
    fun w obs hobs => ⟨List.suffix_cons _ _, h.mark w obs hobs⟩
  exact
    { refl := fun _ => ⟨List.suffix_rfl, fun _ hw => hw⟩
      trans := trans
      poll := fun w method fn ctx => ⟨enqueue_past w _, h.poll w method fn ctx⟩
      reset := fun w => ⟨List.suffix_cons _ _, h.reset w⟩
      setTxHandler := fun w _ _ => h.modify w _
      setEventHandler := fun w _ _ => h.modify w _
      setResponseTimeoutMs := fun w _ => h.modify w _
      setInterframeTimeoutMs := fun w _ => h.modify w _
      setMaxRetries := fun w _ => h.modify w _
      parse := fun w _ => h.modify w _
      reject := fun w event hevent => ⟨emit_past env henv w event, h.reject w event hevent⟩
      counts := fun w id data _ => h.modify w _ (noteCounts_same w.bms id data)
      single := fun w _ _ => mark w _ (Or.inl rfl)
      collect := fun w id data _ _ _ _ _ _ =>
        trans (mark w _ (Or.inl rfl)) (h.modify (w.note .accepted) _ (collect_same w.bms id data))
      file := fun w data _ _ _ =>
        trans (mark w _ (Or.inl rfl)) (h.modify (w.note .accepted) _ (fileStream_same w.bms data))
      deliver := fun w id hstate hid hid' =>
        ⟨(deliverRecord_past env henv w id).trans (resume_past _), h.deliver w id hstate hid hid'⟩
      sentinel := fun w hstate hid hend =>
        trans (mark w _ (Or.inl rfl))
          ⟨List.IsSuffix.trans (List.suffix_cons _ _) (complete_past ((w.note .accepted).note .streamEnded)),
            h.sentinel (w.note .accepted) hstate hid ⟨⟨w.log, rfl⟩, hend⟩⟩
      arm := fun w _ => h.modify w _
      finish := fun w event hstate hevent =>
        ⟨(emit_past env henv w event).trans (complete_past _), h.finish w event hstate hevent.id_eq hevent.isTerminal⟩
      clock := fun w _ => h.modify w _
      expire := fun w _ _ => mark w _ (Or.inr rfl)
      retry := fun w hstate hretries _ =>
        ⟨List.IsSuffix.trans (List.suffix_cons _ _) (transmit_past (World.modify (w.note .retrying) _)),
          h.retry w hstate hretries⟩ }

/-- Where handlers call anything, a family of invariants of the bus is kept at every depth if it is kept by a call whose handlers keep it. -/
theorem nested_within {ι : Type} {P : List (Entry capacity) → Entry capacity → Prop}
    {I : ι → World capacity → Prop} (react : World capacity → Handler → Event → List Call)
    (h : ∀ env : Env capacity Call, (∀ i w c, Within P (I i) w (env.perform w c)) → ∀ i, BusActions env P (I i))
    (i : ι) (depth : Nat) : ∀ w c, Within P (I i) w ((Env.nested react depth).perform w c) :=
  nested_rule react (fun _ _ => ⟨List.suffix_rfl, fun _ hw => hw⟩)
    (fun env henv i => (h env henv i).rule fun w c => (henv i w c).1) i depth

theorem nested_past (react : World capacity → Handler → Event → List Call) (depth : Nat) (w : World capacity)
    (c : Call) : w.log <:+ ((Env.nested react depth).perform w c).log := by
  have htrue : ∀ env : Env capacity Call, BusActions env (fun _ _ => True) fun _ => True := fun _ =>
    ⟨fun _ _ _ _ => trivial, fun _ _ _ _ _ => trivial, fun _ _ _ _ _ _ => trivial, fun _ _ _ => trivial,
      fun _ _ _ _ _ => trivial, fun _ _ _ _ _ _ _ => trivial, fun _ _ _ _ _ _ => trivial,
      fun _ _ _ _ _ _ _ => trivial, fun _ _ _ _ _ => trivial⟩
  exact (nested_within (ι := Unit) react (fun env _ _ => htrue env) () depth w c).1

end Haidi
