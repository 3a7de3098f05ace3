import HaidiBms.Checked.Reassembly
import HaidiBms.Session.Rules

/-!
# The session, checked

Every operation of a session whose handlers make requests and reset, with its queue checked too: the head is read only while something is queued, the ring is written at the computed slot, and nothing is taken from an empty count. A run passes every check and is the run of the session, and in every state it goes through the queue fits its ring, something is queued while a reply is awaited and only the first seventeen counters have been seen.
-/

namespace Haidi.Checked

open Guarded

variable {capacity : ℕ+}

/-! ### The queue -/

def head (bms : HaidiBMS capacity) : Option Request :=
  if 0 < bms.queue.count then load bms.queue.slots bms.queue.head else none

def push (queue : RingBuffer Request capacity) (req : Request) : Option (RingBuffer Request capacity) := do
  let slots ← store queue.slots ((queue.head + queue.count) % capacity) req
  if h : queue.count + 1 ≤ capacity then some { queue with slots, count := queue.count + 1, count_le := h } else none

def pop (queue : RingBuffer Request capacity) : Option (RingBuffer Request capacity) := do
  let count ← subtract queue.count 1
  if h : count ≤ capacity then some { queue with head := queue.slot 1, count, count_le := h } else none

/-! ### The transaction -/

def transmit (w : World capacity) : Option (World capacity) := do
  let req ← head w.bms
  let frame := encode w.bms.hostAddress req.id req.data
  let w := match w.bms.txFn with
    | some fn => w.note (.sent fn w.bms.txCtx frame)
    | none => w
  return w.modify fun bms => { bms with deadlineMs := bms.nowMs + bms.responseTimeoutMs }

def beginAwaiting (bms : HaidiBMS capacity) : Option (HaidiBMS capacity) := do
  let req ← head bms
  let bms := { bms with
    assembly := Vector.replicate assemblyLen 0
    seenMask := 0
    framesSeen := 0
    recordLen := 0
    retries := 0
    expectedFrames := (multiframeInfo req.id).frameCount
    expectedItems := 0 }
  if req.id = .cellVoltages then
    let items := if req.hint ≠ 0 then req.hint else bms.cachedCellCount
    return { bms with expectedItems := items, expectedFrames := cellVoltageFrames items }
  else if req.id = .cellTemperatures then
    let items := if req.hint ≠ 0 then req.hint else bms.cachedTempCount
    return { bms with expectedItems := items, expectedFrames := cellTemperatureFrames items }
  else return bms

def pump (w : World capacity) : Option (World capacity) :=
  if w.bms.state ≠ .idle ∨ w.bms.queue.count = 0 then some w
  else do
    let bms ← beginAwaiting { w.bms with state := .awaiting }
    transmit ((w.note .began).modify fun _ => bms)

def complete (w : World capacity) : Option (World capacity) := do
  let w := w.note .completing
  let w ← if w.bms.state = .awaiting then do
      let queue ← pop w.bms.queue
      some (w.modify fun bms => { bms with queue })
    else some w
  pump (w.modify fun bms => { bms with state := .idle })

def enqueue (w : World capacity) (req : Request) : Option (World capacity × QueueStatus) :=
  if w.bms.txFn = none then some (w.note (.answered req .noTxHandler), .noTxHandler)
  else if !isKnownDataId req.id then some (w.note (.answered req .badRequest), .badRequest)
  else if w.bms.queue.count < capacity then do
    let queue ← push w.bms.queue req
    let w := (w.note (.answered req .queued)).modify fun bms => { bms with queue }
    let w ← (if w.bms.dispatching then some w else pump w)
    return (w, .queued)
  else some (w.note (.answered req .queueFull), .queueFull)

/-! ### Dispatch -/

def perform (w : World capacity) : Reaction → Option (World capacity)
  | .poll method fn ctx => do return (← enqueue w (method.toRequest fn ctx)).1
  | .reset => some (reset w)

variable (react : World capacity → Handler → Event → List Reaction)

def invoke (w : World capacity) (handler : Handler) (event : Event) : Option (World capacity) := do
  let calls := react w handler event
  let w ← calls.foldlM perform (w.note (.invoked handler event))
  return w.note .returned

def owner (bms : HaidiBMS capacity) : Option (Option Request) :=
  if bms.state = .awaiting ∧ 0 < bms.queue.count then some <$> head bms else some none

def invokePerRequest (w : World capacity) (owner : Option Request) (event : Event) : Option (World capacity) :=
  match owner.bind Request.handler with
  | some handler => invoke react w handler event
  | none => some w

def invokeSessionWide (w : World capacity) (event : Event) : Option (World capacity) :=
  match w.bms.eventFn with
  | some fn => invoke react w (.sessionWide fn w.bms.eventCtx) event
  | none => some w

def emit (w : World capacity) (event : Event) : Option (World capacity) := do
  let w := w.note (.raised event)
  let perRequest ← owner w.bms
  let nested := w.bms.dispatching
  let w := w.modify fun bms => { bms with dispatching := true }
  let w ← invokePerRequest react w perRequest event
  let w ← invokeSessionWide react w event
  let w := if nested then w else w.modify fun bms => { bms with dispatching := false }
  return w.note .settled

/-! ### Receiving -/

def onFrameError (w : World capacity) (error : FrameError) : Option (World capacity) := do
  let id ← (if w.bms.state = .awaiting then Request.id <$> head w.bms else some .capacityVoltage)
  emit react w { kind := .protocolError, id, error := if error = .checksum then .checksum else .badLength }

def handleSingle (w : World capacity) (id : DataId) (data : DataBytes) : Option (World capacity) := do
  let w := w.note .accepted
  if id = .dischargeMosControl ∨ id = .chargeMosControl then
    let req ← head w.bms
    let requested := getElem req.data 0 byte0_lt != 0
    let reported := getElem data 0 byte0_lt != 0
    let payload := EventPayload.mosControlAck ⟨requested, reported⟩
    if requested ≠ reported then
      complete (← emit react w { kind := .protocolError, id, error := .writeRejected, frames := 1, payload })
    else complete (← emit react w { id, frames := 1, payload })
  else
    match decodeSingle id data with
    | none => complete (← emit react w { kind := .protocolError, id, error := .unknownDataId, frames := 1 })
    | some payload => complete (← emit react w { id, frames := 1, payload })

def finishMulti (w : World capacity) (id : DataId) : Option (World capacity) := do
  let window ← payloadWindow w.bms id
  let event : Event := { id, frames := w.bms.framesSeen }
  let decoded ← decodeMulti id w.bms.assembly window.1 window.2
  match decoded with
  | some payload => complete (← emit react w { event with payload })
  | none => complete (← emit react w { event with kind := .protocolError, error := .unknownDataId })

def handleMulti (w : World capacity) (id : DataId) (data : DataBytes) : Option (World capacity) :=
  if getElem data 0 byte0_lt > maxFrameIndex then emit react w { kind := .protocolError, id, error := .frameSequence }
  else do
    let bms ← collect w.bms id data
    let w := (w.note .accepted).modify fun _ => bms
    if w.bms.expectedFrames ≠ 0 ∧ w.bms.framesSeen ≥ w.bms.expectedFrames then finishMulti react w id
    else return armInterframe w

def deliverRecord (w : World capacity) (id : DataId) : Option (World capacity) := do
  let decoded ← decodeFaultRecord w.bms.record w.bms.recordLen
  let w ← (match decoded with
    | some record => emit react w { id, frames := faultFramesPerRecord, payload := .faultRecord record }
    | none => some w)
  return w.modify fun bms => { bms with recordLen := 0 }

def resume (w : World capacity) : Option (World capacity) :=
  if w.bms.state ≠ .awaiting then pump (w.note .abandoned) else some (armInterframe w)

def handleStream (w : World capacity) (id : DataId) (data : DataBytes) : Option (World capacity) := do
  let w := w.note .accepted
  if getElem data 0 byte0_lt = frameNoEnd then complete (w.note .streamEnded)
  else
    let bms ← fileStream w.bms data
    let w := w.modify fun _ => bms
    let w ← (if w.bms.recordLen ≥ faultBufferLen then deliverRecord react w id else some w)
    resume w

def onFrame (w : World capacity) (frame : MessageBytes) : Option (World capacity) :=
  let id : DataId := getElem frame msgDataIdIndex msgDataIdIndex_lt
  if w.bms.state ≠ .awaiting then emit react w { kind := .protocolError, id, error := .unexpectedDataId }
  else if getElem frame msgAddressIndex msgAddressIndex_lt ≠ w.bms.bmsAddress then
    emit react w { kind := .protocolError, id, error := .badSourceAddress }
  else do
    let req ← head w.bms
    if id ≠ req.id then emit react w { kind := .protocolError, id, error := .unexpectedDataId }
    else
      let data := dataOf frame
      let w := w.modify fun bms => noteCounts bms id data
      let info := multiframeInfo id
      if !info.multi then handleSingle react w id data
      else if info.streaming then handleStream react w id data
      else handleMulti react w id data

def onSignal (w : World capacity) : FrameSignal → Option (World capacity)
  | .frame frame => onFrame react w frame
  | .error error => onFrameError react w error

def feedByte (w : World capacity) (byte : UInt8) : Option (World capacity) := do
  let next ← step w.bms.parser byte
  let w := w.modify fun bms => { bms with parser := next.1 }
  match next.2 with
  | some signal => onSignal react w signal
  | none => some w

def feed (w : World capacity) (data : List UInt8) : Option (World capacity) := data.foldlM (feedByte react) w

/-! ### Time -/

/-- What `tick` does once it has found the deadline passed. -/
def lapse (w : World capacity) : Option (World capacity) := do
  let id := (← head w.bms).id
  let info := multiframeInfo id
  if info.multi ∧ !info.streaming ∧ w.bms.framesSeen > 0 then finishMulti react w id
  else if info.streaming ∧ w.bms.framesSeen > 0 then
    complete (← emit react w { kind := .protocolError, id, error := .truncated, frames := w.bms.framesSeen })
  else if w.bms.retries < w.bms.maxRetries then
    transmit ((w.note .retrying).modify fun bms => { bms with retries := bms.retries + 1 })
  else complete (← emit react w { kind := .timeout, id, retries := w.bms.retries })

def tick (w : World capacity) (nowMs : UInt32) : Option (World capacity) :=
  let w := w.modify fun bms => { bms with nowMs }
  if w.bms.state ≠ .awaiting ∨ !expired w.bms.nowMs w.bms.deadlineMs then some w
  else lapse react (w.note .expired)

/-! ### Calls and runs -/

def call (w : World capacity) : Call → Option (World capacity)
  | .poll method fn ctx => do return (← enqueue w (method.toRequest fn ctx)).1
  | .feed data => feed react w data
  | .tick nowMs => tick react w nowMs
  | .reset => some (reset w)
  | .setTxHandler fn ctx => some (w.modify fun bms => { bms with txFn := fn, txCtx := ctx })
  | .setEventHandler fn ctx => some (w.modify fun bms => { bms with eventFn := fn, eventCtx := ctx })
  | .setResponseTimeoutMs ms => some (w.modify fun bms => { bms with responseTimeoutMs := ms })
  | .setInterframeTimeoutMs ms => some (w.modify fun bms => { bms with interframeTimeoutMs := ms })
  | .setMaxRetries retries => some (w.modify fun bms => { bms with maxRetries := retries })

def run (w : World capacity) (calls : List Call) : Option (World capacity) := calls.foldlM (call react) w

/-! ### Every check passes -/

/-- The queue fits its ring, something is queued while a reply is awaited, and only counters of bounded replies have been seen. -/
structure Bounded (bms : HaidiBMS capacity) : Prop where
  held : bms.queue.count ≤ capacity
  pending : bms.state = .awaiting → 0 < bms.queue.count
  narrow : Narrow bms.seenMask

/-- The session is in bounds and was at every entry of its log. -/
structure Safe (w : World capacity) : Prop where
  now : Bounded w.bms
  past : ∀ entry ∈ w.log, Bounded entry.bms

theorem Safe.note {w : World capacity} (h : Safe w) (obs : Obs) : Safe (w.note obs) :=
  ⟨h.now, List.forall_mem_cons.mpr ⟨h.now, h.past⟩⟩

theorem Safe.modify {w : World capacity} (h : Safe w) {f : HaidiBMS capacity → HaidiBMS capacity} (hf : Bounded (f w.bms)) :
    Safe (w.modify f) := ⟨hf, h.past⟩

theorem Bounded.idle {bms : HaidiBMS capacity} (hstate : bms.state = .idle) (hseen : Narrow bms.seenMask) : Bounded bms :=
  ⟨bms.queue.count_le, fun h => absurd (hstate.symm.trans h) nofun, hseen⟩

theorem Bounded.same {bms bms' : HaidiBMS capacity} (h : Bounded bms) (hsame : SameBus bms bms')
    (hseen : Narrow bms'.seenMask) : Bounded bms' :=
  ⟨bms'.queue.count_le, fun hstate => hsame.queue ▸ h.pending (hsame.state.symm.trans hstate), hseen⟩

theorem head_eq {bms : HaidiBMS capacity} (h : 0 < bms.queue.count) : head bms = some bms.head :=
  (if_pos h).trans (load_get bms.queue.slots bms.queue.head.isLt)

theorem push_eq (queue : RingBuffer Request capacity) (req : Request) (room : queue.count < capacity) :
    push queue req = some (queue.push req room) := by
  have hslot : store queue.slots ((queue.head + queue.count) % capacity) req =
      some (queue.slots.set (queue.slot queue.count) req (queue.slot queue.count).isLt) :=
    store_set queue.slots (queue.slot queue.count).isLt req
  rw [push, hslot]
  exact dif_pos room

theorem pop_eq {queue : RingBuffer Request capacity} (h : 0 < queue.count) : pop queue = some queue.pop := by
  rw [pop, subtract_eq h]
  exact dif_pos queue.pop.count_le

section

variable {w : World capacity}

theorem transmit_yields (h : Safe w) (hcount : 0 < w.bms.queue.count) : Yields Safe (transmit w) (Haidi.transmit w) := by
  rw [transmit, head_eq hcount]
  refine ⟨rfl, ?_⟩
  unfold Haidi.transmit
  have hnow : Bounded w.bms := h.now
  cases w.bms.txFn with
  | none => exact h.modify ⟨hnow.held, hnow.pending, hnow.narrow⟩
  | some fn => exact (h.note _).modify ⟨hnow.held, hnow.pending, hnow.narrow⟩

theorem beginAwaiting_eq {bms : HaidiBMS capacity} (h : 0 < bms.queue.count) :
    beginAwaiting bms = some (Haidi.beginAwaiting bms) := by
  unfold beginAwaiting Haidi.beginAwaiting
  rw [head_eq h]
  change (if bms.head.id = .cellVoltages then _ else if bms.head.id = .cellTemperatures then _ else _) =
    some (if bms.head.id = .cellVoltages then _ else if bms.head.id = .cellTemperatures then _ else _)
  by_cases hvoltages : bms.head.id = .cellVoltages
  · rw [if_pos hvoltages, if_pos hvoltages]
    rfl
  rw [if_neg hvoltages, if_neg hvoltages]
  by_cases htemperatures : bms.head.id = .cellTemperatures
  · rw [if_pos htemperatures, if_pos htemperatures]
    rfl
  · rw [if_neg htemperatures, if_neg htemperatures]
    rfl

theorem beginAwaiting_seenMask (bms : HaidiBMS capacity) : (Haidi.beginAwaiting bms).seenMask = 0 := by
  unfold Haidi.beginAwaiting
  dsimp only
  split_ifs <;> rfl

theorem pump_yields (h : Safe w) : Yields Safe (pump w) (Haidi.pump w) := by
  unfold pump Haidi.pump
  split_ifs with hbusy
  · exact ⟨rfl, h⟩
  · rw [not_or] at hbusy
    have hcount : 0 < w.bms.queue.count := Nat.pos_of_ne_zero hbusy.2
    have hwaiting : 0 < (began w).bms.queue.count := by
      rw [(began_same w).queue]
      exact hcount
    have hseen : Narrow (began w).bms.seenMask := by
      change Narrow (Haidi.beginAwaiting _).seenMask
      rw [beginAwaiting_seenMask]
      exact narrow_zero
    have hbegan : Safe (began w) := ⟨⟨RingBuffer.count_le _, fun _ => hwaiting, hseen⟩, (h.note .began).past⟩
    have hbegin : beginAwaiting { w.bms with state := .awaiting } =
        some (Haidi.beginAwaiting { w.bms with state := .awaiting }) := beginAwaiting_eq hcount
    rw [hbegin]
    exact transmit_yields hbegan hwaiting

theorem complete_yields (h : Safe w) : Yields Safe (complete w) (Haidi.complete w) := by
  unfold complete Haidi.complete
  dsimp only
  by_cases hstate : (w.note .completing).bms.state = .awaiting
  · have hpop : pop (w.note .completing).bms.queue = some (w.note .completing).bms.queue.pop := pop_eq (h.now.pending hstate)
    rw [if_pos hstate, if_pos hstate, hpop]
    exact pump_yields (w := ((w.note .completing).modify fun bms => { bms with queue := bms.queue.pop }).modify fun bms =>
      { bms with state := .idle }) ⟨.idle rfl h.now.narrow, (h.note .completing).past⟩
  · rw [if_neg hstate, if_neg hstate]
    exact pump_yields (w := (w.note .completing).modify fun bms => { bms with state := .idle })
      ⟨.idle rfl h.now.narrow, (h.note .completing).past⟩

theorem reset_safe (h : Safe w) : Safe (reset w) := ⟨.idle rfl narrow_zero, (h.note .reset).past⟩

theorem enqueue_yields (h : Safe w) (req : Request) :
    Yields (fun answer => Safe answer.1) (enqueue w req) (Haidi.enqueue w req) := by
  unfold enqueue Haidi.enqueue
  by_cases htx : w.bms.txFn = none
  · rw [if_pos htx, if_pos htx]
    exact ⟨rfl, h.note _⟩
  rw [if_neg htx, if_neg htx]
  by_cases hknown : (!isKnownDataId req.id) = true
  · rw [if_pos hknown, if_pos hknown]
    exact ⟨rfl, h.note _⟩
  rw [if_neg hknown, if_neg hknown]
  by_cases room : w.bms.queue.count < capacity
  · rw [if_pos room, dif_pos room, push_eq w.bms.queue req room]
    have haccepted : Safe (accepted w req room) :=
      ⟨⟨RingBuffer.count_le _, fun _ => Nat.succ_pos _, h.now.narrow⟩, (h.note _).past⟩
    have hoffered : Yields Safe
        (if (accepted w req room).bms.dispatching then some (accepted w req room) else pump (accepted w req room))
        (if (accepted w req room).bms.dispatching then accepted w req room else Haidi.pump (accepted w req room)) := by
      split_ifs
      · exact ⟨rfl, haccepted⟩
      · exact pump_yields haccepted
    exact hoffered.bind fun hsafe => ⟨rfl, hsafe⟩
  · rw [if_neg room, dif_neg room]
    exact ⟨rfl, h.note _⟩

theorem perform_yields (h : Safe w) (c : Reaction) : Yields Safe (perform w c) (c.perform w) := by
  cases c with
  | poll method fn ctx => exact (enqueue_yields h (method.toRequest fn ctx)).bind fun hanswer => ⟨rfl, hanswer⟩
  | reset => exact ⟨rfl, reset_safe h⟩

theorem invoke_yields (h : Safe w) (handler : Handler) (event : Event) :
    Yields Safe (invoke react w handler event) (Haidi.invoke (.polling react) w handler event) :=
  (Yields.foldlM (fun _ hs c _ => perform_yields hs c) (h.note _)).bind fun hlast => ⟨rfl, hlast.note _⟩

theorem invokePerRequest_yields (h : Safe w) (owner : Option Request) (event : Event) :
    Yields Safe (invokePerRequest react w owner event) (Haidi.invokePerRequest (.polling react) w owner event) := by
  unfold invokePerRequest Haidi.invokePerRequest
  cases owner.bind Request.handler with
  | none => exact ⟨rfl, h⟩
  | some handler => exact invoke_yields react h handler event

theorem invokeSessionWide_yields (h : Safe w) (event : Event) :
    Yields Safe (invokeSessionWide react w event) (Haidi.invokeSessionWide (.polling react) w event) := by
  unfold invokeSessionWide Haidi.invokeSessionWide
  cases w.bms.eventFn with
  | none => exact ⟨rfl, h⟩
  | some fn => exact invoke_yields react h _ event

theorem owner_eq (bms : HaidiBMS capacity) : owner bms = some bms.owner := by
  unfold owner HaidiBMS.owner
  split_ifs with howned
  · rw [head_eq howned.2]
    rfl
  · rfl

theorem closed_safe (h : Safe w) (nested : Bool) : Safe (closed nested w) := by
  unfold closed
  split_ifs
  · exact h.note _
  · exact Safe.note (w := w.modify fun bms => { bms with dispatching := false })
      ⟨⟨RingBuffer.count_le _, h.now.pending, h.now.narrow⟩, h.past⟩ _

theorem emit_yields (h : Safe w) (event : Event) :
    Yields Safe (emit react w event) (Haidi.emit (.polling react) w event) := by
  have hopened : Safe (opened w event) := ⟨⟨RingBuffer.count_le _, h.now.pending, h.now.narrow⟩, (h.note _).past⟩
  rw [emit_eq, emit]
  dsimp only
  rw [owner_eq]
  refine (invokePerRequest_yields react hopened _ event).bind fun hfirst => ?_
  exact (invokeSessionWide_yields react hfirst event).bind fun hboth => ⟨rfl, closed_safe hboth _⟩

/-- An event and the end of the transaction. -/
theorem finish_yields (h : Safe w) (event : Event) :
    Yields Safe (emit react w event >>= complete) (Haidi.complete (Haidi.emit (.polling react) w event)) :=
  (emit_yields react h event).bind complete_yields

theorem onFrameError_yields (h : Safe w) (error : FrameError) :
    Yields Safe (onFrameError react w error) (Haidi.onFrameError (.polling react) w error) := by
  have hid : (if w.bms.state = .awaiting then Request.id <$> head w.bms else some .capacityVoltage) =
      some (if w.bms.state = .awaiting then w.bms.head.id else .capacityVoltage) := by
    split_ifs with hstate
    · rw [head_eq (h.now.pending hstate)]
      rfl
    · rfl
  unfold onFrameError Haidi.onFrameError
  rw [hid]
  exact emit_yields react h _

theorem handleSingle_yields (h : Safe w) (hstate : w.bms.state = .awaiting) (id : DataId) (data : DataBytes) :
    Yields Safe (handleSingle react w id data) (Haidi.handleSingle (.polling react) w id data) := by
  have hnoted := h.note .accepted
  have hhead : head (w.note .accepted).bms = some (w.note .accepted).bms.head := head_eq (h.now.pending hstate)
  unfold handleSingle Haidi.handleSingle
  dsimp only
  by_cases hmos : id = .dischargeMosControl ∨ id = .chargeMosControl
  · rw [if_pos hmos, if_pos hmos, hhead]
    dsimp only [Option.bind_eq_bind, Option.bind_some]
    split_ifs <;> exact finish_yields react hnoted _
  · rw [if_neg hmos, if_neg hmos]
    cases decodeSingle id data with
    | none => exact finish_yields react hnoted _
    | some payload => exact finish_yields react hnoted _

theorem finishMulti_yields (h : Safe w) (id : DataId) :
    Yields Safe (finishMulti react w id) (Haidi.finishMulti (.polling react) w id) := by
  unfold finishMulti Haidi.finishMulti
  rw [payloadWindow_eq h.now.narrow id]
  dsimp only [Option.bind_eq_bind, Option.bind_some]
  rw [decodeMulti_eq id w.bms.assembly (payloadWindow_le h.now.narrow id)]
  dsimp only [Option.bind_some]
  cases Haidi.decodeMulti id (w.bms.assembly.toList.drop (Haidi.payloadWindow w.bms id).1) (Haidi.payloadWindow w.bms id).2 with
  | none => exact finish_yields react h _
  | some payload => exact finish_yields react h _

theorem armInterframe_safe (h : Safe w) : Safe (armInterframe w) :=
  ⟨⟨RingBuffer.count_le _, h.now.pending, h.now.narrow⟩, h.past⟩

/-- The reply ends, or its next frame is waited for. -/
theorem conclude_yields (h : Safe w) (id : DataId) :
    Yields Safe
      (if w.bms.expectedFrames ≠ 0 ∧ w.bms.framesSeen ≥ w.bms.expectedFrames then finishMulti react w id
        else some (armInterframe w))
      (if w.bms.expectedFrames ≠ 0 ∧ w.bms.framesSeen ≥ w.bms.expectedFrames then Haidi.finishMulti (.polling react) w id
        else armInterframe w) := by
  split_ifs
  · exact finishMulti_yields react h id
  · exact ⟨rfl, armInterframe_safe h⟩

theorem handleMulti_yields (h : Safe w) (id : DataId) (data : DataBytes) :
    Yields Safe (handleMulti react w id data) (Haidi.handleMulti (.polling react) w id data) := by
  unfold handleMulti Haidi.handleMulti
  by_cases hrange : data[0] > maxFrameIndex
  · rw [if_pos hrange, if_pos hrange]
    exact emit_yields react h _
  · rw [if_neg hrange, if_neg hrange, collect_eq id data hrange]
    have hcollected : Safe ((w.note .accepted).modify fun bms => Haidi.collect bms id data) :=
      ⟨h.now.same (collect_same w.bms id data) (collect_narrow h.now.narrow id data hrange), (h.note _).past⟩
    exact conclude_yields react hcollected id

theorem deliverRecord_yields (h : Safe w) (id : DataId) :
    Yields Safe (deliverRecord react w id) (Haidi.deliverRecord (.polling react) w id) := by
  unfold deliverRecord Haidi.deliverRecord
  rw [decodeFaultRecord_eq]
  dsimp only [Option.bind_eq_bind, Option.bind_some]
  cases Haidi.decodeFaultRecord w.bms.record.toList w.bms.recordLen with
  | none => exact ⟨rfl, ⟨⟨RingBuffer.count_le _, h.now.pending, h.now.narrow⟩, h.past⟩⟩
  | some record =>
      exact (emit_yields react h _).bind fun hemitted =>
        ⟨rfl, ⟨⟨RingBuffer.count_le _, hemitted.now.pending, hemitted.now.narrow⟩, hemitted.past⟩⟩

theorem resume_yields (h : Safe w) : Yields Safe (resume w) (Haidi.resume w) := by
  unfold resume Haidi.resume
  split_ifs
  · exact pump_yields (h.note _)
  · exact ⟨rfl, armInterframe_safe h⟩

/-- A record that is full is delivered. -/
theorem deliverFull_yields (h : Safe w) (id : DataId) :
    Yields Safe (if w.bms.recordLen ≥ faultBufferLen then deliverRecord react w id else some w)
      (if w.bms.recordLen ≥ faultBufferLen then Haidi.deliverRecord (.polling react) w id else w) := by
  split_ifs
  · exact deliverRecord_yields react h id
  · exact ⟨rfl, h⟩

theorem handleStream_yields (h : Safe w) (id : DataId) (data : DataBytes) :
    Yields Safe (handleStream react w id data) (Haidi.handleStream (.polling react) w id data) := by
  unfold handleStream Haidi.handleStream
  dsimp only
  by_cases hend : data[0] = frameNoEnd
  · rw [if_pos hend, if_pos hend]
    exact complete_yields ((h.note _).note _)
  · rw [if_neg hend, if_neg hend, fileStream_eq]
    have hfiled : Safe ((w.note .accepted).modify fun _ => Haidi.fileStream (w.note .accepted).bms data) :=
      ⟨⟨RingBuffer.count_le _, h.now.pending, h.now.narrow⟩, (h.note _).past⟩
    have hworld : (w.note .accepted).modify (fun bms => Haidi.fileStream bms data) =
      (w.note .accepted).modify fun _ => Haidi.fileStream (w.note .accepted).bms data := rfl
    rw [hworld]
    dsimp only [Option.bind_eq_bind, Option.bind_some]
    generalize (w.note .accepted).modify (fun _ => Haidi.fileStream (w.note .accepted).bms data) = filed at hfiled ⊢
    exact (deliverFull_yields react hfiled id).bind resume_yields

theorem noteCounts_seenMask (bms : HaidiBMS capacity) (id : DataId) (data : DataBytes) :
    (noteCounts bms id data).seenMask = bms.seenMask := by
  obtain ⟨_, _, heq⟩ := noteCounts_eq bms id data
  rw [heq]

theorem onFrame_yields (h : Safe w) (frame : MessageBytes) :
    Yields Safe (onFrame react w frame) (Haidi.onFrame (.polling react) w frame) := by
  unfold onFrame Haidi.onFrame
  dsimp only
  by_cases hidle : w.bms.state ≠ .awaiting
  · rw [if_pos hidle, if_pos hidle]
    exact emit_yields react h _
  rw [if_neg hidle, if_neg hidle]
  rw [not_not] at hidle
  by_cases haddress : getElem frame msgAddressIndex msgAddressIndex_lt ≠ w.bms.bmsAddress
  · rw [if_pos haddress, if_pos haddress]
    exact emit_yields react h _
  rw [if_neg haddress, if_neg haddress, head_eq (h.now.pending hidle)]
  dsimp only [Option.bind_eq_bind, Option.bind_some]
  have hsame := noteCounts_same w.bms (getElem frame msgDataIdIndex msgDataIdIndex_lt) (dataOf frame)
  have hnoted : Safe (w.modify fun bms => noteCounts bms (getElem frame msgDataIdIndex msgDataIdIndex_lt) (dataOf frame)) :=
    h.modify (h.now.same hsame (by rw [noteCounts_seenMask]; exact h.now.narrow))
  split_ifs
  · exact emit_yields react h _
  · exact handleSingle_yields react hnoted (hsame.state.trans hidle) _ _
  · exact handleStream_yields react hnoted _ _
  · exact handleMulti_yields react hnoted _ _

theorem onSignal_yields (h : Safe w) (signal : FrameSignal) :
    Yields Safe (onSignal react w signal) (Haidi.onSignal (.polling react) w signal) := by
  cases signal with
  | frame frame => exact onFrame_yields react h frame
  | error error => exact onFrameError_yields react h error

theorem feedByte_yields (h : Safe w) (byte : UInt8) :
    Yields Safe (feedByte react w byte) (Haidi.feedByte (.polling react) w byte) := by
  have hstepped : Safe (w.modify fun bms => { bms with parser := (w.bms.parser.step byte).1 }) :=
    ⟨⟨RingBuffer.count_le _, h.now.pending, h.now.narrow⟩, h.past⟩
  unfold feedByte Haidi.feedByte
  rw [step_eq]
  dsimp only [Option.bind_eq_bind, Option.bind_some]
  cases (w.bms.parser.step byte).2 with
  | none => exact ⟨rfl, hstepped⟩
  | some signal => exact onSignal_yields react hstepped signal

theorem feed_yields (h : Safe w) (data : List UInt8) :
    Yields Safe (feed react w data) (Haidi.feed (.polling react) w data) :=
  Yields.foldlM (fun _ hs byte _ => feedByte_yields react hs byte) h

theorem lapse_yields (h : Safe w) (hstate : w.bms.state = .awaiting) :
    Yields Safe (lapse react w) (Haidi.lapse (.polling react) w) := by
  have hcount := h.now.pending hstate
  have hretrying : Safe ((w.note .retrying).modify fun bms => { bms with retries := bms.retries + 1 }) :=
    ⟨⟨RingBuffer.count_le _, h.now.pending, h.now.narrow⟩, (h.note _).past⟩
  unfold lapse Haidi.lapse
  rw [head_eq hcount]
  dsimp only [Option.bind_eq_bind, Option.bind_some]
  split_ifs
  · exact finishMulti_yields react h _
  · exact finish_yields react h _
  · exact transmit_yields hretrying hcount
  · exact finish_yields react h _

theorem tick_yields (h : Safe w) (nowMs : UInt32) :
    Yields Safe (tick react w nowMs) (Haidi.tick (.polling react) w nowMs) := by
  have hticked : Safe (ticked w nowMs) := ⟨⟨RingBuffer.count_le _, h.now.pending, h.now.narrow⟩, h.past⟩
  rw [tick_eq]
  change Yields Safe (if w.bms.state ≠ .awaiting ∨ !expired nowMs w.bms.deadlineMs then some (ticked w nowMs)
    else lapse react ((ticked w nowMs).note .expired)) _
  split_ifs with hcalm
  · exact ⟨rfl, hticked⟩
  · exact lapse_yields react (hticked.note .expired) (not_not.mp (not_or.mp hcalm).1)

theorem call_yields (h : Safe w) (c : Call) : Yields Safe (call react w c) (Haidi.call (.polling react) w c) := by
  cases c with
  | poll method fn ctx => exact (enqueue_yields h (method.toRequest fn ctx)).bind fun hanswer => ⟨rfl, hanswer⟩
  | feed data => exact feed_yields react h data
  | tick nowMs => exact tick_yields react h nowMs
  | reset => exact ⟨rfl, reset_safe h⟩
  | setTxHandler | setEventHandler | setResponseTimeoutMs | setInterframeTimeoutMs | setMaxRetries =>
      exact ⟨rfl, ⟨RingBuffer.count_le _, h.now.pending, h.now.narrow⟩, h.past⟩

theorem run_yields (h : Safe w) (calls : List Call) : Yields Safe (run react w calls) (Haidi.run (.polling react) w calls) :=
  Yields.foldlM (fun _ hs c _ => call_yields react hs c) h

end

theorem new_safe (hostAddress : HostAddress) (bmsAddress : UInt8) :
    Safe (World.new hostAddress bmsAddress : World capacity) :=
  ⟨.idle rfl narrow_zero, List.forall_mem_nil _⟩

end Haidi.Checked

namespace Haidi

variable {capacity : ℕ+}

/-- Whatever is fed, ticked and called and whatever the handlers poll and reset, every check of a run passes, and every state it goes through is in bounds. -/
theorem run_in_bounds (react : World capacity → Handler → Event → List Reaction) (hostAddress : HostAddress)
    (bmsAddress : UInt8) (calls : List Call) :
    let w := run (.polling react) (World.new hostAddress bmsAddress) calls
    Checked.run react (World.new hostAddress bmsAddress) calls = some w ∧ Checked.Bounded w.bms ∧
      ∀ entry ∈ w.log, Checked.Bounded entry.bms := by
  obtain ⟨hpasses, hsafe⟩ := Checked.run_yields react (Checked.new_safe hostAddress bmsAddress) calls
  exact ⟨hpasses, hsafe.now, hsafe.past⟩

end Haidi
