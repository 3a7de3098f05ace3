import HaidiBms.Events
import HaidiBms.Session.Alone

/-!
# The dumping example

`dump_all` asks a pack for everything there is to read, one command at a time in a fixed order, and prints each event under the label of the command it has printed last. Left out is what its lines look like, the option parser and the port. Its loops are one transition system, of which a turn goes from one reading of the stop flag, which a signal may set at any time, to the next; what the clock and the port read is the turn's.
-/

namespace Haidi

/-- The options that reach the session and the loops. -/
structure DumpAll.Options where
  hostAddress : HostAddress := .comp
  responseTimeoutMs : UInt32 := defaultResponseTimeoutMs
  interframeTimeoutMs : UInt32 := defaultInterframeTimeoutMs
  retries : UInt32 := defaultMaxRetries.toUInt32
  cellCount : UInt32 := 0
  tempCount : UInt32 := 0
  sweeps : UInt32 := 1
  intervalMs : UInt32 := 1000
  skipAlarmThresholds : Bool := false
  skipFaultRecords : Bool := false

/-- What is read in a turn: the clock, for a tick or a guard; the port, if it can be; the clock again, against the guard; and whether a signal has come. -/
structure DumpAll.Turn where
  nowMs : UInt32
  read : Option (List UInt8)
  laterMs : UInt32
  signal : Bool := false

/-- Where the program is: at the head of its loop over sweeps, of the loop over the probes of one, of the loop that waits for a probe, or of the pause between two sweeps; or it has ended. -/
inductive DumpAll.Phase
  | starting
  | issuing (i : ℕ)
  | waiting (i : ℕ) (guard : UInt32)
  | resting (waited : UInt32)
  | ended (ok : Bool)

structure DumpAll (capacity : ℕ+) where
  world : World capacity
  phase : DumpAll.Phase := .starting
  sweep : UInt32 := 1
  stop : Bool := false

namespace DumpAll

variable {capacity : ℕ+}

/-! ### The schedule -/

def identification : List DataId :=
  [.capacityVoltage, .bmuCellTempCount, .batteryOperationMode, .firmwareIndex, .manufacturerName, .batteryName,
    .batterySerialNumber, .snSerialNumber, .batteryProductionDate, .softwareVersion, .hardwareVersion, .boardNumber]

def liveTelemetry : List DataId :=
  [.totalVoltageCurrentSoc, .chargeDischargeMosStatus, .statusInfo, .batteryStatus, .totalChargeDischargeAh,
    .cellVoltageExtremes, .cellTemperatureExtremes, .cellVoltages, .cellTemperatures, .balancingState, .cellBalancingBits,
    .faultStatus, .wakeupSource, .rtc]

def configuration : List DataId :=
  [.cellVoltageAlarm, .totalVoltageAlarm, .currentAlarm, .temperatureAlarm, .socAlarm, .differenceAlarm, .balancingParams,
    .currentParams, .heatingTemperature, .activeBalancingSwitch, .activeBalancingParams, .inverterParams]

def alarmThresholds : List DataId :=
  (List.range alarmLevelCount.toNat).flatMap fun level =>
    (List.range alarmClassCount.toNat).map fun cls => alarmThresholdId (.ofNat cls) (.ofNat level)

def buildSchedule (opt : Options) : List DataId :=
  identification ++ liveTelemetry ++ configuration ++ (if !opt.skipAlarmThresholds then alarmThresholds else []) ++
    if !opt.skipFaultRecords then [.faultRecords] else []

/-- The room of the array that the schedule is built in. -/
def maxProbes : ℕ := 96

/-- The method that `issue` calls for a probe, if there is one. -/
def Options.method (opt : Options) (id : DataId) : Option Poll :=
  if isAlarmThresholdId id then some (.alarmThreshold (alarmClassOf id) (alarmLevelOf id))
  else
    match id with
    | .capacityVoltage => some .capacityVoltage
    | .bmuCellTempCount => some .bmuCellTempCount
    | .totalChargeDischargeAh => some .totalChargeDischargeAh
    | .batteryOperationMode => some .batteryOperationMode
    | .firmwareIndex => some .firmwareIndex
    | .manufacturerName => some .manufacturerName
    | .batteryName => some .batteryName
    | .batterySerialNumber => some .batterySerialNumber
    | .batteryProductionDate => some .batteryProductionDate
    | .cellVoltageAlarm => some .cellVoltageAlarm
    | .totalVoltageAlarm => some .totalVoltageAlarm
    | .currentAlarm => some .currentAlarm
    | .temperatureAlarm => some .temperatureAlarm
    | .socAlarm => some .socAlarm
    | .differenceAlarm => some .differenceAlarm
    | .balancingParams => some .balancingParams
    | .currentParams => some .currentParams
    | .rtc => some .rtc
    | .softwareVersion => some .softwareVersion
    | .hardwareVersion => some .hardwareVersion
    | .faultRecords => some .faultRecords
    | .boardNumber => some .boardNumber
    | .heatingTemperature => some .heatingTemperature
    | .activeBalancingSwitch => some .activeBalancingSwitch
    | .activeBalancingParams => some .activeBalancingParams
    | .inverterParams => some .inverterParams
    | .snSerialNumber => some .snSerialNumber
    | .totalVoltageCurrentSoc => some .totalVoltageCurrentSoc
    | .cellVoltageExtremes => some .cellVoltageExtremes
    | .cellTemperatureExtremes => some .cellTemperatureExtremes
    | .chargeDischargeMosStatus => some .chargeDischargeMosStatus
    | .statusInfo => some .statusInfo
    | .cellVoltages => some (.cellVoltages opt.cellCount.toUInt8)
    | .cellTemperatures => some (.cellTemperatures opt.tempCount.toUInt8)
    | .cellBalancingBits => some .cellBalancingBits
    | .faultStatus => some .faultStatus
    | .balancingState => some .balancingState
    | .batteryStatus => some .batteryStatus
    | .wakeupSource => some .wakeupSource
    | _ => none

/-! ### The events -/

/-- The accessors that `print_payload` tries, in its order. -/
def printers : List (Event → Option Member) :=
  [asCapacityVoltage, asBmuCellTempCount, asTotalChargeDischargeAh, asBatteryOperationMode, asFirmwareIndex, asText, asVersion,
    asBatteryProductionDate, asCellVoltageAlarm, asTotalVoltageAlarm, asCurrentAlarm, asTemperatureAlarm, asSocAlarm,
    asDifferenceAlarm, asBalancingParams, asCurrentParams, asRtc, asFaultRecord, asBoardNumber, asHeatingTemperature,
    asActiveBalancingSwitch, asActiveBalancingParams, asInverterParams, asCurrentAlarmThreshold, asTempAlarmThreshold,
    asAlarmThreshold, asTotalVoltageCurrentSoc, asCellVoltageExtremes, asCellTemperatureExtremes, asChargeDischargeMos,
    asStatusInfo, asCellVoltages, asCellTemperatures, asCellBalancingBits, asFaultStatus, asBalancingState, asBatteryStatus,
    asWakeupSource, asMosControlAck]

/-- The member that is printed, if any is. -/
def printPayload (event : Event) : Option Member := printers.findSome? fun accessor => accessor event

structure Tally where
  responses : ℕ := 0
  timeouts : ℕ := 0
  errors : ℕ := 0
  undecoded : ℕ := 0
  /-- The events seen for the probe that is running. -/
  thisProbe : ℕ := 0

def Tally.onEvent (tally : Tally) (event : Event) : Tally :=
  let tally := { tally with thisProbe := tally.thisProbe + 1 }
  match event.kind with
  | .response =>
      { tally with
        responses := tally.responses + 1
        undecoded := if (printPayload event).isNone then tally.undecoded + 1 else tally.undecoded }
  | .timeout => { tally with timeouts := tally.timeouts + 1 }
  | .protocolError => { tally with errors := tally.errors + 1 }

/-- What the handler has counted, which starts anew with each probe. -/
def Tally.of : List Obs → Tally
  | [] => {}
  | .answered _ _ :: past => { Tally.of past with thisProbe := 0 }
  | .invoked (.sessionWide _ _) event :: past => (Tally.of past).onEvent event
  | _ :: past => Tally.of past

theorem Tally.of_answered (req : Request) (status : QueueStatus) (past : List Obs) :
    Tally.of (.answered req status :: past) = { Tally.of past with thisProbe := 0 } := rfl

/-! ### The program -/

def onTx : Ptr := 1
def onEvent : Ptr := 2
def fd : Ptr := 3
def tally : Ptr := 4

/-- The handler only prints and counts. -/
abbrev env : Env capacity Reaction := .seeing listening

/-- `main` up to its loop. -/
def start (opt : Options) (startMs : UInt32) : DumpAll capacity where
  world := run env (World.new opt.hostAddress bmsAddress)
    [.setTxHandler (some onTx) fd, .setEventHandler (some onEvent) tally, .setResponseTimeoutMs opt.responseTimeoutMs,
      .setInterframeTimeoutMs opt.interframeTimeoutMs, .setMaxRetries opt.retries.toUInt8, .tick startMs]

def issue (w : World capacity) (id : DataId) (opt : Options) : World capacity × QueueStatus :=
  match opt.method id with
  | some method => enqueue w (method.toRequest none 0)
  | none => (w, .badRequest)

/-- Time passes and the port is read; false if it could not be. -/
def pump (w : World capacity) (t : Turn) : World capacity × Bool :=
  match t.read with
  | some data => (feed env (tick env w t.nowMs) data, true)
  | none => (tick env w t.nowMs, false)

def probeGuardMs : UInt32 := 30000

/-- `run_sweep` has returned to `main` with the port still there. -/
def sweepOver (opt : Options) (s : DumpAll capacity) : DumpAll capacity :=
  if s.stop || (opt.sweeps ≠ 0 && s.sweep = opt.sweeps) then { s with sweep := s.sweep + 1, phase := .starting }
  else { s with phase := .resting 0 }

/-- A turn, once the stop flag is what it is. -/
def advance (opt : Options) (s : DumpAll capacity) (t : Turn) : DumpAll capacity :=
  match s.phase with
  | .starting =>
      if !s.stop && (opt.sweeps = 0 || s.sweep ≤ opt.sweeps) then { s with phase := .issuing 0 }
      else { s with phase := .ended true }
  | .issuing i =>
      if h : i < (buildSchedule opt).length ∧ s.stop = false then
        let issued := issue s.world ((buildSchedule opt).get ⟨i, h.1⟩) opt
        { s with
          world := issued.1
          phase := if issued.2 = .queued then .waiting i (t.nowMs + probeGuardMs) else .issuing (i + 1) }
      else sweepOver opt s
  | .waiting i guard =>
      if s.world.bms.busy || 0 < s.world.bms.pending then
        let pumped := pump s.world t
        if !pumped.2 then { s with world := pumped.1, phase := .ended false }
        else if s.stop then { s with world := pumped.1, phase := .issuing (i + 1) }
        else if 0 ≤ (t.laterMs - guard).toInt32 then { s with world := reset pumped.1, phase := .issuing (i + 1) }
        else { s with world := pumped.1 }
      else { s with phase := .issuing (i + 1) }
  | .resting waited =>
      if waited < opt.intervalMs && !s.stop then
        let pumped := pump s.world t
        if pumped.2 then { s with world := pumped.1, phase := .resting (waited + 2) }
        else { s with world := pumped.1, sweep := s.sweep + 1, phase := .starting }
      else { s with sweep := s.sweep + 1, phase := .starting }
  | .ended _ => s

def turn (opt : Options) (s : DumpAll capacity) (t : Turn) : DumpAll capacity :=
  advance opt { s with stop := s.stop || t.signal } t

def turns (opt : Options) (s : DumpAll capacity) (ts : List Turn) : DumpAll capacity := ts.foldl (turn opt) s

/-! ### What is on the schedule -/

/-- Everything that is read, unless some is skipped. -/
def everything : List DataId := buildSchedule {}

theorem buildSchedule_sublist (opt : Options) : (buildSchedule opt).Sublist everything := by
  unfold everything buildSchedule
  refine List.Sublist.append (List.Sublist.append (List.Sublist.refl _) ?_) ?_
  · cases opt.skipAlarmThresholds
    · exact List.Sublist.refl _
    · exact List.nil_sublist _
  · cases opt.skipFaultRecords
    · exact List.Sublist.refl _
    · exact List.nil_sublist _

/-- The schedule fits the table it is built in. -/
theorem length_buildSchedule_le (opt : Options) : (buildSchedule opt).length ≤ maxProbes :=
  (buildSchedule_sublist opt).length_le.trans (by decide +kernel)

/-- It is all there is to read, and no write. -/
theorem mem_everything (id : DataId) :
    id ∈ everything ↔ isKnownDataId id = true ∧ id ≠ .dischargeMosControl ∧ id ≠ .chargeMosControl := by
  have hall : ∀ byte : Fin 256, UInt8.ofNat byte ∈ everything ↔ isKnownDataId (UInt8.ofNat byte) = true ∧
      UInt8.ofNat byte ≠ DataId.dischargeMosControl ∧ UInt8.ofNat byte ≠ DataId.chargeMosControl := by
    decide +kernel
  have := hall ⟨id.toNat, id.toNat_lt⟩
  rwa [UInt8.ofNat_toNat] at this

/-- What a method asks on the wire. -/
def question (method : Poll) : DataId × DataBytes := ((method.toRequest none 0).id, (method.toRequest none 0).data)

theorem method_everything (opt : Options) {id : DataId} (h : id ∈ everything) : ∃ method, opt.method id = some method ∧
    (method.toRequest none 0).id = id ∧ (method.toRequest none 0).data = Vector.replicate dataLen 0 := by
  have hsame : (opt.method id).map question = (Options.method {} id).map question := by
    unfold Options.method
    split_ifs
    · rfl
    · split <;> rfl
  have hall : ∀ id ∈ everything, (Options.method {} id).map question = some (id, Vector.replicate dataLen 0) := by
    decide +kernel
  obtain ⟨method, hmethod, hquestion⟩ := Option.map_eq_some_iff.mp (hsame.trans (hall id h))
  exact ⟨method, hmethod, Prod.mk.inj hquestion⟩

/-! ### What is printed -/

/-- A reply is printed as the member that its command is decoded into. -/
theorem printPayload_carried {event : Event} (hkind : event.kind = .response) : printPayload event = carried event.id := by
  have hall : ∀ byte : Fin 256, printPayload { id := UInt8.ofNat byte } = carried (UInt8.ofNat byte) := by
    decide +kernel
  have := hall ⟨event.id.toNat, event.id.toNat_lt⟩
  rw [UInt8.ofNat_toNat] at this
  -- Of a response the printers look at nothing but the command.
  have hbare : printPayload { kind := .response, id := event.id, error := event.error } = printPayload { id := event.id } := rfl
  change printPayload { kind := event.kind, id := event.id, error := event.error } = _
  rw [hkind, hbare, this]

theorem carried_known {id : DataId} (hknown : isKnownDataId id = true) : carried id ≠ none := by
  have hall : ∀ byte : Fin 256, isKnownDataId (UInt8.ofNat byte) = true → carried (UInt8.ofNat byte) ≠ none := by
    decide +kernel
  have := hall ⟨id.toNat, id.toNat_lt⟩
  rw [UInt8.ofNat_toNat] at this
  exact this hknown

/-- A sound reply was decoded for its command. -/
theorem carried_sound {event : Event} (h : event.Sound) (hkind : event.kind = .response) :
    carried event.id = some event.payload.member := by
  obtain ⟨reading, hmem, hreading⟩ := List.countP_pos_iff.mp ((h.unique hkind).symm ▸ Nat.one_pos)
  obtain ⟨accessor, haccessor, rfl⟩ := List.mem_map.mp hmem
  obtain ⟨level, hlevel, hmem⟩ : ∃ level ∈ ([0, 1, 2] : List AlarmLevel), accessor ∈ accessors level := by
    unfold accessors
    rw [List.mem_append, List.mem_append, List.mem_append] at haccessor
    rcases haccessor with ((hcommand | hzero) | hone) | htwo
    · exact ⟨0, by decide, List.mem_append_left _ (List.mem_append_left _ hcommand)⟩
    · exact ⟨0, by decide, List.mem_append_left _ (List.mem_append_right _ hzero)⟩
    · exact ⟨1, by decide, List.mem_append_left _ (List.mem_append_right _ hone)⟩
    · exact ⟨2, by decide, List.mem_append_left _ (List.mem_append_right _ htwo)⟩
  have hcommands : ∀ level ∈ ([0, 1, 2] : List AlarmLevel), ∀ accessor ∈ accessors level, ∀ id ∈ accessor.commands,
      carried id ≠ none := by
    decide +kernel
  obtain ⟨member, hmember⟩ := Option.isSome_iff_exists.mp hreading
  obtain ⟨member', hcarried⟩ := Option.ne_none_iff_exists'.mp
    (hcommands level hlevel accessor hmem event.id (h.documented level accessor hmem hreading).1)
  have hbare : accessor.get event = accessor.get { id := event.id } := by
    have hmap : (accessors level).map (fun accessor => accessor.get { kind := .response, id := event.id, error := event.error }) =
        (accessors level).map fun accessor => accessor.get { id := event.id } := rfl
    rw [get_bare event level accessor hmem, Event.bare, hkind]
    exact List.map_inj_left.mp hmap accessor hmem
  rcases (agrees hcarried).2 level hlevel accessor hmem with hnone | ⟨hsame, -⟩
  · rw [hbare, hnone] at hmember
    cases hmember
  · rw [hbare, hsame] at hmember
    rw [hcarried, hmember, h.active level accessor hmem member (hbare.trans (hsame.trans hmember))]

end DumpAll

end Haidi
