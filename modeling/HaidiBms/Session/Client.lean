import HaidiBms.Session.Latest
import HaidiBms.Session.Stream

/-!
# What a session is for

The session of the source keeps a ring of slots, a reassembly buffer with a mask of counters, a record buffer, a fixed frame buffer and flags that guard its own reentrance. `Client` is what they are there to do, in the fewest terms: requests wait in a list, the one in flight is an exchange that remembers every frame it has accepted, and what the exchange comes to is read off that history when it ends. Nothing is overwritten, masked or copied.
-/

namespace Haidi

open Pages

/-! ### What the frames of a reply come to -/

/-- The lowest counter among some frames. -/
def lowest (frames : List MessageBytes) : ℕ := ((frames.map counterOf).min?).getD 0

/-- How many counters follow each other from `base` on. -/
def unbroken (frames : List MessageBytes) (base : ℕ) : ℕ :=
  (List.range 17).findIdx fun j => base + j ∉ frames.map counterOf

theorem isLeast_lowest {frames : List MessageBytes} (hany : frames ≠ []) : IsLeast (numbers frames : Set ℕ) (lowest frames) := by
  obtain ⟨least, hleast⟩ : ∃ least, (frames.map counterOf).min? = some least :=
    Option.isSome_iff_exists.mp (List.isSome_min?_of_ne_nil (by simpa using hany))
  rw [List.min?_eq_some_iff] at hleast
  have hlowest : lowest frames = least := by
    rw [lowest, List.min?_eq_some_iff.mpr hleast]
    rfl
  rw [hlowest]
  exact ⟨List.mem_toFinset.mpr hleast.1, fun counter hcounter => hleast.2 counter (List.mem_toFinset.mp hcounter)⟩

theorem stretch_lowest {frames : List MessageBytes} (hany : frames ≠ []) (hsmall : ∀ counter ∈ numbers frames, counter < 17) :
    Stretch (numbers frames) (lowest frames) (unbroken frames (lowest frames)) := by
  let missing : ℕ → Bool := fun j => lowest frames + j ∉ frames.map counterOf
  have hlength : (List.range 17).findIdx missing ≤ 17 := List.findIdx_le_length
  refine ⟨isLeast_lowest hany, fun j hj => ?_, fun hmem => ?_⟩
  · have hpresent := List.not_of_lt_findIdx (p := missing) hj
    rw [List.getElem_range, decide_eq_false_iff_not, not_not] at hpresent
    exact List.mem_toFinset.mpr hpresent
  · rcases Nat.lt_or_ge ((List.range 17).findIdx missing) 17 with hlt | hge
    · have hstop := @List.findIdx_getElem _ missing (List.range 17) (by simpa using hlt)
      rw [List.getElem_range, decide_eq_true_eq] at hstop
      exact hstop (List.mem_toFinset.mp hmem)
    · have hbound := hsmall _ hmem
      change lowest frames + (List.range 17).findIdx missing < 17 at hbound
      omega

/-- How many frames end a paginated reply at once; none does where that is zero. -/
def awaited (id : DataId) (items : ℕ) : ℕ :=
  if id = .cellVoltages then min 16 (needed items 3)
  else if id = .cellTemperatures then min 3 (needed items 7)
  else (multiframeInfo id).frameCount.toNat

/-- What a reply of one frame is reported as. -/
def answerTo (req : Request) (data : DataBytes) : Event :=
  if req.id = .dischargeMosControl ∨ req.id = .chargeMosControl then
    let requested := getElem req.data 0 byte0_lt != 0
    let reported := getElem data 0 byte0_lt != 0
    let payload := EventPayload.mosControlAck ⟨requested, reported⟩
    if requested ≠ reported then { kind := .protocolError, id := req.id, error := .writeRejected, frames := 1, payload }
    else { id := req.id, frames := 1, payload }
  else
    match decodeSingle req.id data with
    | none => { kind := .protocolError, id := req.id, error := .unknownDataId, frames := 1 }
    | some payload => { id := req.id, frames := 1, payload }

/-- A request in flight. -/
structure Exchange where
  request : Request
  /-- The number of cells or sensors to read, where it was known. -/
  items : ℕ
  /-- The frames accepted, newest first. -/
  heard : List MessageBytes := []
  /-- What has come of a stream's next record, the oldest first. -/
  record : List DataBytes := []
  retries : UInt8 := 0
  deadlineMs : UInt32

/-- What a paginated reply is reported as: the latest frame of each counter, from the lowest one to the first that is missing. -/
def Exchange.report (x : Exchange) : Event :=
  let bytes := (stretchBytes x.request.id x.heard (lowest x.heard) (unbroken x.heard (lowest x.heard))).take
    (payloadLimit x.request.id x.items)
  let event : Event := { id := x.request.id, frames := .ofNat (numbers x.heard).card }
  match decodeMulti x.request.id bytes bytes.length with
  | some payload => { event with payload }
  | none => { event with kind := .protocolError, error := .unknownDataId }

/-- The count of a stream's frames, as a byte. -/
def Exchange.count (x : Exchange) : UInt8 := .ofNat x.heard.length

/-! ### The client -/

/-- What is configured, what the time is and what is known of the pack. -/
structure Setup where
  hostAddress : HostAddress := .comp
  bmsAddress : UInt8 := Haidi.bmsAddress
  txFn : Option Ptr := none
  txCtx : Ptr := 0
  eventFn : Option Ptr := none
  eventCtx : Ptr := 0
  responseTimeoutMs : UInt32 := defaultResponseTimeoutMs
  interframeTimeoutMs : UInt32 := defaultInterframeTimeoutMs
  maxRetries : UInt8 := defaultMaxRetries
  nowMs : UInt32 := 0
  cachedCellCount : UInt8 := 0
  cachedTempCount : UInt8 := 0

/-- The number of cells or sensors a request is taken to read. -/
def Setup.itemsFor (setup : Setup) (req : Request) : UInt8 :=
  if req.id = .cellVoltages then if req.hint ≠ 0 then req.hint else setup.cachedCellCount
  else if req.id = .cellTemperatures then if req.hint ≠ 0 then req.hint else setup.cachedTempCount
  else 0

/-- What a reply tells of the pack. -/
def Setup.learn (setup : Setup) (id : DataId) (data : DataBytes) : Setup :=
  if id = .statusInfo then
    { setup with cachedCellCount := getElem data 0 byte0_lt, cachedTempCount := getElem data 1 byte1_lt }
  else if id = .bmuCellTempCount then
    { setup with
      cachedCellCount := getElem data 1 byte1_lt + getElem data 2 byte2_lt + getElem data 3 byte3_lt
      cachedTempCount := getElem data 4 byte4_lt + getElem data 5 byte5_lt + getElem data 6 byte6_lt }
  else setup

structure Client (capacity : ℕ+) extends Setup where
  /-- The bytes of a frame that is not complete. -/
  window : List UInt8 := []
  discarded : UInt32 := 0
  current : Option Exchange := none
  waiting : List Request := []
  /-- The callbacks made, the events raised and the requests answered, newest first. -/
  trace : List Obs := []

namespace Client

variable {capacity : ℕ+}

def note (c : Client capacity) (obs : Obs) : Client capacity := { c with trace := obs :: c.trace }

def pending (c : Client capacity) : ℕ := c.current.toList.length + c.waiting.length

def inFlight (c : Client capacity) : DataId :=
  match c.current with
  | some x => x.request.id
  | none => .none

/-- Sends an exchange's request, and waits for its answer from now on. -/
def send (c : Client capacity) (x : Exchange) : Client capacity :=
  let c := match c.txFn with
    | some fn => c.note (.sent fn c.txCtx (encode c.hostAddress x.request.id x.request.data))
    | none => c
  { c with current := some { x with deadlineMs := c.nowMs + c.responseTimeoutMs } }

/-- Sends the next request, unless one is in flight. -/
def start (c : Client capacity) : Client capacity :=
  match c.current, c.waiting with
  | none, req :: rest =>
    send { c with waiting := rest } { request := req, items := (c.itemsFor req).toNat, deadlineMs := 0 }
  | _, _ => c

/-- The exchange is over. -/
def finish (c : Client capacity) : Client capacity := start { c with current := none }

def ask (c : Client capacity) (dispatching : Bool) (req : Request) : Client capacity :=
  if c.txFn = none then c.note (.answered req .noTxHandler)
  else if !isKnownDataId req.id then c.note (.answered req .badRequest)
  else if c.pending < capacity then
    let c := { c.note (.answered req .queued) with waiting := c.waiting ++ [req] }
    if dispatching then c else start c
  else c.note (.answered req .queueFull)

def clear (c : Client capacity) : Client capacity :=
  { c with window := [], discarded := 0, current := none, waiting := [] }

variable (react : List Obs → Handler → Event → List Reaction)

/-- What a handler calls: requests it makes are not sent before the dispatch is over. -/
def perform (c : Client capacity) : Reaction → Client capacity
  | .poll method fn ctx => c.ask true (method.toRequest fn ctx)
  | .reset => c.clear

def invoke (c : Client capacity) (handler : Option Handler) (event : Event) : Client capacity :=
  match handler with
  | some handler => (react c.trace handler event).foldl perform (c.note (.invoked handler event))
  | none => c

/-- An event goes to the handler of the request in flight and to the session's. -/
def dispatch (c : Client capacity) (event : Event) : Client capacity :=
  let own := c.current.bind fun x => x.request.handler
  let c := invoke react (c.note (.raised event)) own event
  invoke react c (c.eventFn.map fun fn => .sessionWide fn c.eventCtx) event

/-- An exchange goes on: the next frame of its reply is waited for from now on. -/
def await (c : Client capacity) (x : Exchange) : Client capacity :=
  { c with current := some { x with deadlineMs := c.nowMs + c.interframeTimeoutMs } }

/-- A stream goes on, unless the exchange has been taken away meanwhile. -/
def goOn (c : Client capacity) : Client capacity :=
  match c.current with
  | some x => c.await x
  | none => start c

/-- The record of the exchange is done with. -/
def emptied (c : Client capacity) : Client capacity :=
  { c with current := c.current.map fun x => { x with record := [] } }

/-- A page is added to a paginated reply, which ends if it was the last. -/
def addPage (c : Client capacity) (x : Exchange) : Client capacity :=
  if awaited x.request.id x.items ≠ 0 ∧ awaited x.request.id x.items ≤ (numbers x.heard).card then
    finish (dispatch react { c with current := some x } x.report)
  else c.await x

/-- A frame is added to a stream's record, which is delivered once it is full. -/
def addRecord (c : Client capacity) (x : Exchange) : Client capacity :=
  let c := { c with current := some x }
  goOn (if x.record.length = 4 then emptied (dispatch react c (recordEvent x.record)) else c)

/-- A frame of the reply to the request in flight. -/
def hear (c : Client capacity) (x : Exchange) (frame : MessageBytes) : Client capacity :=
  let info := multiframeInfo x.request.id
  let data := dataOf frame
  let x := { x with heard := frame :: x.heard }
  if !info.multi then
    finish (dispatch react { c with toSetup := c.learn x.request.id data, current := some x } (answerTo x.request data))
  else if info.streaming then
    if getElem data 0 byte0_lt = frameNoEnd then finish c else c.addRecord react { x with record := x.record ++ [data] }
  else c.addPage react x

/-- A frame is taken for a reply, or turned away. -/
def receive (c : Client capacity) (frame : MessageBytes) : Client capacity :=
  let id : DataId := getElem frame msgDataIdIndex msgDataIdIndex_lt
  match c.current with
  | none => dispatch react c { kind := .protocolError, id, error := .unexpectedDataId }
  | some x =>
    if getElem frame msgAddressIndex msgAddressIndex_lt ≠ c.bmsAddress then
      dispatch react c { kind := .protocolError, id, error := .badSourceAddress }
    else if id ≠ x.request.id then dispatch react c { kind := .protocolError, id, error := .unexpectedDataId }
    else if (multiframeInfo id).paginated ∧ getElem (dataOf frame) 0 byte0_lt > maxFrameIndex then
      dispatch react c { kind := .protocolError, id, error := .frameSequence }
    else hear react c x frame

/-- A frame the scanner has found, as an array. -/
def frameOf (symbols : List UInt8) : MessageBytes := Vector.ofFn fun i => symbols.getD i 0

/-- A window that was no frame is reported under the command in flight. -/
def complain (c : Client capacity) (error : ErrorCode) : Client capacity :=
  let id := match c.current with
    | some x => x.request.id
    | none => .capacityVoltage
  dispatch react c { kind := .protocolError, id, error }

/-- A byte arrives. -/
def take (c : Client capacity) (byte : UInt8) : Client capacity :=
  let next := wire.step c.window byte
  let c := { c with window := next.1, discarded := c.discarded + .ofNat next.2.junk.length }
  match next.2 with
  | .found symbols => receive react c (frameOf symbols)
  | .rejected true _ => complain react c .badLength
  | .rejected false _ => complain react c .checksum
  | .skipped _ | .kept => c

/-- The deadline of an exchange has passed. -/
def lapse (c : Client capacity) (x : Exchange) : Client capacity :=
  let info := multiframeInfo x.request.id
  if info.paginated ∧ x.heard ≠ [] then finish (dispatch react c x.report)
  else if info.streaming ∧ x.count ≠ 0 then
    finish (dispatch react c { kind := .protocolError, id := x.request.id, error := .truncated, frames := x.count })
  else if x.retries < c.maxRetries then send c { x with retries := x.retries + 1 }
  else finish (dispatch react c { kind := .timeout, id := x.request.id, retries := x.retries })

def tick (c : Client capacity) (nowMs : UInt32) : Client capacity :=
  let c := { c with nowMs }
  match c.current with
  | some x => if expired nowMs x.deadlineMs then lapse react c x else c
  | none => c

def call (c : Client capacity) : Call → Client capacity
  | .poll method fn ctx => c.ask false (method.toRequest fn ctx)
  | .feed data => data.foldl (take react) c
  | .tick nowMs => tick react c nowMs
  | .reset => c.clear
  | .setTxHandler fn ctx => { c with txFn := fn, txCtx := ctx }
  | .setEventHandler fn ctx => { c with eventFn := fn, eventCtx := ctx }
  | .setResponseTimeoutMs ms => { c with responseTimeoutMs := ms }
  | .setInterframeTimeoutMs ms => { c with interframeTimeoutMs := ms }
  | .setMaxRetries retries => { c with maxRetries := retries }

def run (c : Client capacity) (calls : List Call) : Client capacity := calls.foldl (call react) c

def new (hostAddress : HostAddress) (bmsAddress : UInt8) : Client capacity := { hostAddress, bmsAddress }

end Client

end Haidi
