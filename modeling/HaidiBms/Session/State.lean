import HaidiBms.Decode
import HaidiBms.FrameParser.Model
import HaidiBms.Lib.RingBuffer

/-!
# The session's state, its requests and its calls

`HaidiBMS` is the class of the source, field for field; the request queue is a ring buffer. Callbacks and their contexts are addresses: the session copies and calls them and never looks inside.

A run is recorded as it happens. `World` is a session with the log of what it has done, newest first, each entry stamped with the session as it was when the entry was made.
-/

namespace Haidi

/-- The address of a callback or of a context. -/
abbrev Ptr := Nat

inductive QueueStatus
  | queued
  | queueFull
  | noTxHandler
  | badRequest
  deriving DecidableEq

inductive State
  | idle
  | awaiting
  deriving DecidableEq

structure Request where
  id : DataId := .capacityVoltage
  data : DataBytes := Vector.replicate dataLen 0
  hint : UInt8 := 0
  onEvent : Option Ptr := none
  onEventCtx : Ptr := 0
  deriving DecidableEq

/-- The named request methods, each with the arguments it takes besides its handler. -/
inductive Poll
  | capacityVoltage | bmuCellTempCount | totalChargeDischargeAh | batteryOperationMode
  | firmwareIndex | manufacturerName | batteryName | batterySerialNumber
  | batteryProductionDate | cellVoltageAlarm | totalVoltageAlarm | currentAlarm
  | temperatureAlarm | socAlarm | differenceAlarm | balancingParams | currentParams | rtc
  | softwareVersion | hardwareVersion | boardNumber | heatingTemperature
  | activeBalancingSwitch | activeBalancingParams | inverterParams | snSerialNumber
  | faultRecords
  | alarmThreshold (cls : AlarmClass) (level : AlarmLevel)
  | totalVoltageCurrentSoc | cellVoltageExtremes | cellTemperatureExtremes
  | chargeDischargeMosStatus | statusInfo | cellBalancingBits | faultStatus | balancingState
  | batteryStatus
  | cellVoltages (cellCount : UInt8)
  | cellTemperatures (tempCount : UInt8)
  | wakeupSource
  | setDischargeMos (on : Bool)
  | setChargeMos (on : Bool)
  deriving DecidableEq

def request (id : DataId) (fn : Option Ptr) (ctx : Ptr) : Request :=
  { id, onEvent := fn, onEventCtx := ctx }

def requestPaginated (id : DataId) (hint : UInt8) (fn : Option Ptr) (ctx : Ptr) : Request :=
  { id, hint, onEvent := fn, onEventCtx := ctx }

def requestMos (id : DataId) (on : Bool) (fn : Option Ptr) (ctx : Ptr) : Request :=
  { id, data := (Vector.replicate dataLen 0).set 0 (if on then 1 else 0) byte0_lt, onEvent := fn, onEventCtx := ctx }

/-- The request a method hands to the queue. -/
def Poll.toRequest (poll : Poll) (fn : Option Ptr) (ctx : Ptr) : Request :=
  match poll with
  | capacityVoltage => request .capacityVoltage fn ctx
  | bmuCellTempCount => request .bmuCellTempCount fn ctx
  | totalChargeDischargeAh => request .totalChargeDischargeAh fn ctx
  | batteryOperationMode => request .batteryOperationMode fn ctx
  | firmwareIndex => request .firmwareIndex fn ctx
  | manufacturerName => request .manufacturerName fn ctx
  | batteryName => request .batteryName fn ctx
  | batterySerialNumber => request .batterySerialNumber fn ctx
  | batteryProductionDate => request .batteryProductionDate fn ctx
  | cellVoltageAlarm => request .cellVoltageAlarm fn ctx
  | totalVoltageAlarm => request .totalVoltageAlarm fn ctx
  | currentAlarm => request .currentAlarm fn ctx
  | temperatureAlarm => request .temperatureAlarm fn ctx
  | socAlarm => request .socAlarm fn ctx
  | differenceAlarm => request .differenceAlarm fn ctx
  | balancingParams => request .balancingParams fn ctx
  | currentParams => request .currentParams fn ctx
  | rtc => request .rtc fn ctx
  | softwareVersion => request .softwareVersion fn ctx
  | hardwareVersion => request .hardwareVersion fn ctx
  | boardNumber => request .boardNumber fn ctx
  | heatingTemperature => request .heatingTemperature fn ctx
  | activeBalancingSwitch => request .activeBalancingSwitch fn ctx
  | activeBalancingParams => request .activeBalancingParams fn ctx
  | inverterParams => request .inverterParams fn ctx
  | snSerialNumber => request .snSerialNumber fn ctx
  | faultRecords => request .faultRecords fn ctx
  | alarmThreshold cls level =>
      let inRange := cls < alarmClassCount && level < alarmLevelCount
      request (if inRange then alarmThresholdId cls level else .none) fn ctx
  | totalVoltageCurrentSoc => request .totalVoltageCurrentSoc fn ctx
  | cellVoltageExtremes => request .cellVoltageExtremes fn ctx
  | cellTemperatureExtremes => request .cellTemperatureExtremes fn ctx
  | chargeDischargeMosStatus => request .chargeDischargeMosStatus fn ctx
  | statusInfo => request .statusInfo fn ctx
  | cellBalancingBits => request .cellBalancingBits fn ctx
  | faultStatus => request .faultStatus fn ctx
  | balancingState => request .balancingState fn ctx
  | batteryStatus => request .batteryStatus fn ctx
  | cellVoltages cellCount => requestPaginated .cellVoltages cellCount fn ctx
  | cellTemperatures tempCount => requestPaginated .cellTemperatures tempCount fn ctx
  | wakeupSource => request .wakeupSource fn ctx
  | setDischargeMos on => requestMos .dischargeMosControl on fn ctx
  | setChargeMos on => requestMos .chargeMosControl on fn ctx

/-! ### The session -/

/-- The highest frame counter a bounded reply may carry. -/
def maxFrameIndex : UInt8 := 16

abbrev assemblyLen : Nat := (16 + 1) * 7

def faultFramesPerRecord : UInt8 := 4

abbrev faultBufferLen : Nat := 4 * 7

def defaultResponseTimeoutMs : UInt32 := 250
def defaultInterframeTimeoutMs : UInt32 := 250
def defaultMaxRetries : UInt8 := 1

/-- A session whose queue holds `capacity` requests. -/
structure HaidiBMS (capacity : ℕ+) where
  hostAddress : HostAddress := .comp
  bmsAddress : UInt8 := Haidi.bmsAddress
  txFn : Option Ptr := none
  txCtx : Ptr := 0
  eventFn : Option Ptr := none
  eventCtx : Ptr := 0
  responseTimeoutMs : UInt32 := defaultResponseTimeoutMs
  interframeTimeoutMs : UInt32 := defaultInterframeTimeoutMs
  maxRetries : UInt8 := defaultMaxRetries
  parser : FrameParser := {}
  queue : RingBuffer Request capacity := .replicate {}
  state : State := .idle
  nowMs : UInt32 := 0
  deadlineMs : UInt32 := 0
  retries : UInt8 := 0
  dispatching : Bool := false
  assembly : Vector UInt8 assemblyLen := Vector.replicate assemblyLen 0
  seenMask : UInt32 := 0
  framesSeen : UInt8 := 0
  expectedFrames : UInt8 := 0
  expectedItems : UInt8 := 0
  record : Vector UInt8 faultBufferLen := Vector.replicate faultBufferLen 0
  recordLen : Nat := 0
  cachedCellCount : UInt8 := 0
  cachedTempCount : UInt8 := 0

namespace HaidiBMS

variable {capacity : ℕ+}

def head (bms : HaidiBMS capacity) : Request := bms.queue.front

def busy (bms : HaidiBMS capacity) : Bool := bms.state != .idle

def pending (bms : HaidiBMS capacity) : Nat := bms.queue.count

def inFlight (bms : HaidiBMS capacity) : DataId :=
  if bms.state = .awaiting ∧ 0 < bms.queue.count then bms.head.id else .none

end HaidiBMS

/-! ### The log -/

/-- The event handler being run. -/
inductive Handler
  | perRequest (fn ctx : Ptr)
  | sessionWide (fn ctx : Ptr)
  deriving DecidableEq

/-- A request's own handler. -/
def Request.handler (req : Request) : Option Handler := req.onEvent.map fun fn => .perRequest fn req.onEventCtx

/-- What a session does that the log records. The callbacks it makes are `sent`, `invoked` and `returned`; the others mark points of its own code. -/
inductive Obs
  /-- A request was accepted or refused. -/
  | answered (req : Request) (status : QueueStatus)
  /-- The head request is given the bus. -/
  | began
  /-- The TX handler was called. -/
  | sent (fn ctx : Ptr) (frame : MessageBytes)
  /-- A frame of the head request's reply was accepted. -/
  | accepted
  /-- A tick found the deadline passed. -/
  | expired
  /-- An unanswered request is about to be sent again. -/
  | retrying
  /-- An event is about to be dispatched. -/
  | raised (event : Event)
  | invoked (handler : Handler) (event : Event)
  | returned
  /-- The dispatch is over. -/
  | settled
  /-- The sentinel of a fault-record stream was accepted. -/
  | streamEnded
  /-- The transaction is about to be retired. -/
  | completing
  /-- A record's dispatch was found to have reset the session. -/
  | abandoned
  | reset
  deriving DecidableEq

structure Entry (capacity : ℕ+) where
  bms : HaidiBMS capacity
  obs : Obs

structure World (capacity : ℕ+) where
  bms : HaidiBMS capacity
  log : List (Entry capacity) := []

namespace World

variable {capacity : ℕ+}

def note (w : World capacity) (obs : Obs) : World capacity := { w with log := ⟨w.bms, obs⟩ :: w.log }

def modify (w : World capacity) (f : HaidiBMS capacity → HaidiBMS capacity) : World capacity :=
  { w with bms := f w.bms }

@[simp] theorem note_bms (w : World capacity) (obs : Obs) : (w.note obs).bms = w.bms := rfl

@[simp] theorem note_log (w : World capacity) (obs : Obs) : (w.note obs).log = ⟨w.bms, obs⟩ :: w.log := rfl

@[simp] theorem modify_bms (w : World capacity) (f : HaidiBMS capacity → HaidiBMS capacity) :
    (w.modify f).bms = f w.bms := rfl

@[simp] theorem modify_log (w : World capacity) (f : HaidiBMS capacity → HaidiBMS capacity) :
    (w.modify f).log = w.log := rfl

/-- Only what a change makes of the session at hand matters. -/
theorem modify_congr {w : World capacity} {f g : HaidiBMS capacity → HaidiBMS capacity} (h : f w.bms = g w.bms) :
    w.modify f = w.modify g := congrArg (World.mk · w.log) h

end World

/-- What the handlers do: the calls each makes when it is run, which may depend on all that has happened so far, and how a call made from a handler is carried out. -/
structure Env (capacity : ℕ+) (C : Type) where
  react : World capacity → Handler → Event → List C
  perform : World capacity → C → World capacity

end Haidi
