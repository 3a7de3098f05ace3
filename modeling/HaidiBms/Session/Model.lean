import HaidiBms.Session.State

/-!
# The session's operations

The functions of the source in its order, each a function of the world. Dispatch is synchronous: `emit` runs the handlers inside the call that raised the event, and what they call goes through `Env.perform`, so the same definitions serve a session whose handlers only poll and reset and one whose handlers call anything.
-/

namespace Haidi

/-! ### Helpers -/

/-- Whether the deadline has passed, the difference read as a signed number. -/
def expired (nowMs deadlineMs : UInt32) : Bool := 0 ≤ (nowMs - deadlineMs).toInt32

/-- The loop of `popcount32`. Each turn clears a bit, so thirty-two are enough. -/
def popcountLoop : Nat → UInt32 → UInt8 → UInt8
  | 0, _, bits => bits
  | turns + 1, value, bits =>
    if value ≠ 0 then popcountLoop turns (value &&& (value - 1)) (bits + 1) else bits

def popcount32 (value : UInt32) : UInt8 := popcountLoop 32 value 0

/-- The loop of `lowest_frame_no`. -/
def lowestLoop : Nat → UInt32 → UInt8 → UInt8
  | 0, _, index => index
  | turns + 1, mask, index =>
    if mask &&& 1 = 0 then lowestLoop turns (mask >>> 1) (index + 1) else index

def lowestFrameNo (mask : UInt32) : UInt8 := lowestLoop 32 mask 0

/-- The loop of `contiguous_frames`. -/
def contiguousLoop (mask : UInt32) (base : UInt8) : Nat → UInt8 → UInt8
  | 0, run => run
  | turns + 1, run =>
    if mask &&& (1 <<< UInt32.ofNat (base.toNat + run.toNat)) ≠ 0 then
      contiguousLoop mask base turns (run + 1)
    else run

def contiguousFrames (mask : UInt32) (base : UInt8) : UInt8 := contiguousLoop mask base 32 0

variable {capacity : ℕ+} {C : Type}

def reset (w : World capacity) : World capacity :=
  (w.note .reset).modify fun bms => { bms with
    parser := bms.parser.reset
    queue := bms.queue.clear
    state := .idle
    retries := 0
    seenMask := 0
    framesSeen := 0
    expectedFrames := 0
    expectedItems := 0
    recordLen := 0 }

/-! ### The transaction -/

def transmit (w : World capacity) : World capacity :=
  let frame := encode w.bms.hostAddress w.bms.head.id w.bms.head.data
  let w := match w.bms.txFn with
    | some fn => w.note (.sent fn w.bms.txCtx frame)
    | none => w
  w.modify fun bms => { bms with deadlineMs := bms.nowMs + bms.responseTimeoutMs }

def beginAwaiting (bms : HaidiBMS capacity) : HaidiBMS capacity :=
  let bms := { bms with
    assembly := Vector.replicate assemblyLen 0
    seenMask := 0
    framesSeen := 0
    recordLen := 0
    retries := 0
    expectedFrames := (multiframeInfo bms.head.id).frameCount
    expectedItems := 0 }
  if bms.head.id = .cellVoltages then
    let items := if bms.head.hint ≠ 0 then bms.head.hint else bms.cachedCellCount
    { bms with expectedItems := items, expectedFrames := cellVoltageFrames items }
  else if bms.head.id = .cellTemperatures then
    let items := if bms.head.hint ≠ 0 then bms.head.hint else bms.cachedTempCount
    { bms with expectedItems := items, expectedFrames := cellTemperatureFrames items }
  else bms

/-- Starts the next transaction if the bus is free. -/
def pump (w : World capacity) : World capacity :=
  if w.bms.state ≠ .idle ∨ w.bms.queue.count = 0 then w
  else transmit ((w.note .began).modify fun bms => beginAwaiting { bms with state := .awaiting })

/-- Retires the head request, unless a handler's reset already has, and starts the next. -/
def complete (w : World capacity) : World capacity :=
  let w := w.note .completing
  let w := if w.bms.state = .awaiting then w.modify fun bms => { bms with queue := bms.queue.pop } else w
  pump (w.modify fun bms => { bms with state := .idle })

/-! ### Queueing -/

def enqueue (w : World capacity) (req : Request) : World capacity × QueueStatus :=
  if w.bms.txFn = none then (w.note (.answered req .noTxHandler), .noTxHandler)
  else if !isKnownDataId req.id then (w.note (.answered req .badRequest), .badRequest)
  else if room : w.bms.queue.count < capacity then
    let w := (w.note (.answered req .queued)).modify fun bms => { bms with queue := w.bms.queue.push req room }
    (if w.bms.dispatching then w else pump w, .queued)
  else (w.note (.answered req .queueFull), .queueFull)

/-! ### Dispatch -/

def invoke (env : Env capacity C) (w : World capacity) (handler : Handler) (event : Event) : World capacity :=
  let calls := env.react w handler event
  (calls.foldl env.perform (w.note (.invoked handler event))).note .returned

def invokePerRequest (env : Env capacity C) (w : World capacity) (owner : Option Request) (event : Event) :
    World capacity :=
  match owner.bind Request.handler with
  | some handler => invoke env w handler event
  | none => w

def invokeSessionWide (env : Env capacity C) (w : World capacity) (event : Event) : World capacity :=
  match w.bms.eventFn with
  | some fn => invoke env w (.sessionWide fn w.bms.eventCtx) event
  | none => w

/-- The request in flight, which owns the event being raised. -/
def HaidiBMS.owner (bms : HaidiBMS capacity) : Option Request :=
  if bms.state = .awaiting ∧ 0 < bms.queue.count then some bms.head else none

def emit (env : Env capacity C) (w : World capacity) (event : Event) : World capacity :=
  let w := w.note (.raised event)
  let perRequest := w.bms.owner
  let nested := w.bms.dispatching
  let w := w.modify fun bms => { bms with dispatching := true }
  let w := invokePerRequest env w perRequest event
  let w := invokeSessionWide env w event
  let w := if nested then w else w.modify fun bms => { bms with dispatching := false }
  w.note .settled

/-! ### Receiving -/

def onFrameError (env : Env capacity C) (w : World capacity) (error : FrameError) : World capacity :=
  emit env w
    { kind := .protocolError
      id := if w.bms.state = .awaiting then w.bms.head.id else .capacityVoltage
      error := if error = .checksum then .checksum else .badLength }

def noteCounts (bms : HaidiBMS capacity) (id : DataId) (data : DataBytes) : HaidiBMS capacity :=
  if id = .statusInfo then
    { bms with cachedCellCount := getElem data 0 byte0_lt, cachedTempCount := getElem data 1 byte1_lt }
  else if id = .bmuCellTempCount then
    { bms with
      cachedCellCount := getElem data 1 byte1_lt + getElem data 2 byte2_lt + getElem data 3 byte3_lt
      cachedTempCount := getElem data 4 byte4_lt + getElem data 5 byte5_lt + getElem data 6 byte6_lt }
  else bms

def handleSingle (env : Env capacity C) (w : World capacity) (id : DataId) (data : DataBytes) : World capacity :=
  let w := w.note .accepted
  if id = .dischargeMosControl ∨ id = .chargeMosControl then
    let requested := getElem w.bms.head.data 0 byte0_lt != 0
    let reported := getElem data 0 byte0_lt != 0
    let payload := EventPayload.mosControlAck ⟨requested, reported⟩
    if requested ≠ reported then
      complete (emit env w { kind := .protocolError, id, error := .writeRejected, frames := 1, payload })
    else complete (emit env w { id, frames := 1, payload })
  else
    match decodeSingle id data with
    | none => complete (emit env w { kind := .protocolError, id, error := .unknownDataId, frames := 1 })
    | some payload => complete (emit env w { id, frames := 1, payload })

/-- How much of the reassembly buffer a paginated reply that ends now is taken to fill, and where it starts. -/
def payloadWindow (bms : HaidiBMS capacity) (id : DataId) : Nat × Nat :=
  let info := multiframeInfo id
  let base := if bms.seenMask ≠ 0 then lowestFrameNo bms.seenMask else info.frameBase
  let start := base.toNat * info.bytesPerFrame.toNat
  let run := if bms.seenMask ≠ 0 then contiguousFrames bms.seenMask base else 0
  let len := min (run.toNat * info.bytesPerFrame.toNat) (assemblyLen - start)
  let len := min len maxReassemblyLen
  let len := if info.totalBytes ≠ 0 ∧ len > info.totalBytes.toNat then info.totalBytes.toNat else len
  if bms.expectedItems ≠ 0 then
    let nominal := if id = .cellVoltages then bms.expectedItems.toNat * 2 else bms.expectedItems.toNat
    (start, min len nominal)
  else (start, len)

def finishMulti (env : Env capacity C) (w : World capacity) (id : DataId) : World capacity :=
  let window := payloadWindow w.bms id
  let event : Event := { id, frames := w.bms.framesSeen }
  match decodeMulti id (w.bms.assembly.toList.drop window.1) window.2 with
  | some payload => complete (emit env w { event with payload })
  | none => complete (emit env w { event with kind := .protocolError, error := .unknownDataId })

/-- Files a frame's payload under the frame's own counter. -/
def fileFrame (assembly : Vector UInt8 assemblyLen) (offset bytesPerFrame : Nat) (data : DataBytes) :
    Vector UInt8 assemblyLen :=
  (List.range bytesPerFrame).foldl (fun assembly i =>
    if offset + i < assemblyLen then assembly.setIfInBounds (offset + i) (data.getD (1 + i) 0) else assembly)
    assembly

/-- The bookkeeping of a counted frame: its bytes, and its counter if it is new. -/
def collect (bms : HaidiBMS capacity) (id : DataId) (data : DataBytes) : HaidiBMS capacity :=
  let info := multiframeInfo id
  let frameNo := getElem data 0 byte0_lt
  let offset := frameNo.toNat * info.bytesPerFrame.toNat
  let bit : UInt32 := 1 <<< UInt32.ofNat frameNo.toNat
  let bms := { bms with assembly := fileFrame bms.assembly offset info.bytesPerFrame.toNat data }
  if bms.seenMask &&& bit = 0 then
    { bms with seenMask := bms.seenMask ||| bit, framesSeen := popcount32 (bms.seenMask ||| bit) }
  else bms

def armInterframe (w : World capacity) : World capacity :=
  w.modify fun bms => { bms with deadlineMs := bms.nowMs + bms.interframeTimeoutMs }

def handleMulti (env : Env capacity C) (w : World capacity) (id : DataId) (data : DataBytes) : World capacity :=
  if getElem data 0 byte0_lt > maxFrameIndex then emit env w { kind := .protocolError, id, error := .frameSequence }
  else
    let w := (w.note .accepted).modify fun bms => collect bms id data
    if w.bms.expectedFrames ≠ 0 ∧ w.bms.framesSeen ≥ w.bms.expectedFrames then finishMulti env w id
    else armInterframe w

/-- Appends a frame's payload to the record being collected, up to the buffer's end. -/
def appendRecord (record : Vector UInt8 faultBufferLen) (recordLen : Nat) (data : DataBytes) :
    Vector UInt8 faultBufferLen × Nat :=
  (List.range' 1 (dataLen - 1)).foldl (fun filled i =>
    if filled.2 < faultBufferLen then (filled.1.setIfInBounds filled.2 (data.getD i 0), filled.2 + 1) else filled)
    (record, recordLen)

/-- The bookkeeping of a stream's frame. -/
def fileStream (bms : HaidiBMS capacity) (data : DataBytes) : HaidiBMS capacity :=
  let filled := appendRecord bms.record bms.recordLen data
  { bms with record := filled.1, recordLen := filled.2, framesSeen := bms.framesSeen + 1 }

/-- Dispatches a full record and empties the buffer. -/
def deliverRecord (env : Env capacity C) (w : World capacity) (id : DataId) : World capacity :=
  let w := match decodeFaultRecord w.bms.record.toList w.bms.recordLen with
    | some record => emit env w { id, frames := faultFramesPerRecord, payload := .faultRecord record }
    | none => w
  w.modify fun bms => { bms with recordLen := 0 }

/-- Waits for the stream's next frame, unless a handler has reset the session meanwhile. -/
def resume (w : World capacity) : World capacity :=
  if w.bms.state ≠ .awaiting then pump (w.note .abandoned) else armInterframe w

def handleStream (env : Env capacity C) (w : World capacity) (id : DataId) (data : DataBytes) : World capacity :=
  let w := w.note .accepted
  if getElem data 0 byte0_lt = frameNoEnd then complete (w.note .streamEnded)
  else
    let w := w.modify fun bms => fileStream bms data
    resume (if w.bms.recordLen ≥ faultBufferLen then deliverRecord env w id else w)

def onFrame (env : Env capacity C) (w : World capacity) (frame : MessageBytes) : World capacity :=
  let id : DataId := getElem frame msgDataIdIndex msgDataIdIndex_lt
  if w.bms.state ≠ .awaiting then emit env w { kind := .protocolError, id, error := .unexpectedDataId }
  else if getElem frame msgAddressIndex msgAddressIndex_lt ≠ w.bms.bmsAddress then
    emit env w { kind := .protocolError, id, error := .badSourceAddress }
  else if id ≠ w.bms.head.id then emit env w { kind := .protocolError, id, error := .unexpectedDataId }
  else
    let data := dataOf frame
    let w := w.modify fun bms => noteCounts bms id data
    let info := multiframeInfo id
    if !info.multi then handleSingle env w id data
    else if info.streaming then handleStream env w id data
    else handleMulti env w id data

/-- What the trampolines do with the framer's callback. -/
def onSignal (env : Env capacity C) (w : World capacity) : FrameSignal → World capacity
  | .frame frame => onFrame env w frame
  | .error error => onFrameError env w error

/-- One turn of the framer's loop, its callback made before the next byte is read. -/
def feedByte (env : Env capacity C) (w : World capacity) (byte : UInt8) : World capacity :=
  let next := w.bms.parser.step byte
  let w := w.modify fun bms => { bms with parser := next.1 }
  match next.2 with
  | some signal => onSignal env w signal
  | none => w

def feed (env : Env capacity C) (w : World capacity) (data : List UInt8) : World capacity :=
  data.foldl (feedByte env) w

/-! ### Time -/

def tick (env : Env capacity C) (w : World capacity) (nowMs : UInt32) : World capacity :=
  let w := w.modify fun bms => { bms with nowMs }
  if w.bms.state ≠ .awaiting ∨ !expired w.bms.nowMs w.bms.deadlineMs then w
  else
    let w := w.note .expired
    let id := w.bms.head.id
    let info := multiframeInfo id
    if info.multi ∧ !info.streaming ∧ w.bms.framesSeen > 0 then finishMulti env w id
    else if info.streaming ∧ w.bms.framesSeen > 0 then
      complete (emit env w { kind := .protocolError, id, error := .truncated, frames := w.bms.framesSeen })
    else if w.bms.retries < w.bms.maxRetries then
      transmit ((w.note .retrying).modify fun bms => { bms with retries := bms.retries + 1 })
    else complete (emit env w { kind := .timeout, id, retries := w.bms.retries })

/-! ### Calls and runs -/

/-- A public call on a session. -/
inductive Call
  | poll (method : Poll) (fn : Option Ptr) (ctx : Ptr)
  | feed (data : List UInt8)
  | tick (nowMs : UInt32)
  | reset
  | setTxHandler (fn : Option Ptr) (ctx : Ptr)
  | setEventHandler (fn : Option Ptr) (ctx : Ptr)
  | setResponseTimeoutMs (ms : UInt32)
  | setInterframeTimeoutMs (ms : UInt32)
  | setMaxRetries (retries : UInt8)

def call (env : Env capacity C) (w : World capacity) : Call → World capacity
  | .poll method fn ctx => (enqueue w (method.toRequest fn ctx)).1
  | .feed data => feed env w data
  | .tick nowMs => tick env w nowMs
  | .reset => reset w
  | .setTxHandler fn ctx => w.modify fun bms => { bms with txFn := fn, txCtx := ctx }
  | .setEventHandler fn ctx => w.modify fun bms => { bms with eventFn := fn, eventCtx := ctx }
  | .setResponseTimeoutMs ms => w.modify fun bms => { bms with responseTimeoutMs := ms }
  | .setInterframeTimeoutMs ms => w.modify fun bms => { bms with interframeTimeoutMs := ms }
  | .setMaxRetries retries => w.modify fun bms => { bms with maxRetries := retries }

def run (env : Env capacity C) (w : World capacity) (calls : List Call) : World capacity :=
  calls.foldl (call env) w

theorem run_append (env : Env capacity C) (w : World capacity) (xs ys : List Call) :
    run env w (xs ++ ys) = run env (run env w xs) ys := List.foldl_append

/-- A handler's call, where handlers only poll and reset. -/
inductive Reaction
  | poll (method : Poll) (fn : Option Ptr) (ctx : Ptr)
  | reset

def Reaction.perform (w : World capacity) : Reaction → World capacity
  | .poll method fn ctx => (enqueue w (method.toRequest fn ctx)).1
  | .reset => Haidi.reset w

/-- Handlers that only poll and reset. -/
def Env.polling (react : World capacity → Handler → Event → List Reaction) : Env capacity Reaction :=
  ⟨react, Reaction.perform⟩

/-- Handlers that make any call, to a nesting of `depth`. What a run does depends on the depth only until it is as large as the run's own nesting. -/
def Env.nested (react : World capacity → Handler → Event → List Call) : Nat → Env capacity Call
  | 0 => ⟨react, fun w _ => w⟩
  | depth + 1 => ⟨react, fun w c => call (nested react depth) w c⟩

/-- A session just constructed. -/
def World.new (hostAddress : HostAddress) (bmsAddress : UInt8) : World capacity :=
  ⟨{ hostAddress, bmsAddress }, []⟩

end Haidi
