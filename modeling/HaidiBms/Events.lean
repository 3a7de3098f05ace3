import HaidiBms.Decode

/-!
# Events and their accessors

An event's payload is a union whose tag is left implicit. The code that builds an event writes one member of it; the accessors decide from the event's kind, Data ID and error whether to hand out the address of a member, and of which. Here an accessor answers the member it exposes, and `EventPayload.member` is the one that was written, so that the two can be compared. `carried` is the agreement between them: the member a reply to each command is decoded into.
-/

namespace Haidi

/-- The members of `EventPayload`. -/
inductive Member
  | capacityVoltage | bmuCellTempCount | totalChargeDischargeAh | batteryOperationMode | firmwareIndex | text
  | cellVoltageAlarm | totalVoltageAlarm | currentAlarm | temperatureAlarm | socAlarm | differenceAlarm
  | balancingParams | currentParams | rtc | version | faultRecord | boardNumber | heatingTemperature
  | activeBalancingSwitch | activeBalancingParams | inverterParams | alarmThreshold | currentAlarmThreshold
  | tempAlarmThreshold | totalVoltageCurrentSoc | cellVoltageExtremes | cellTemperatureExtremes
  | chargeDischargeMos | statusInfo | cellVoltages | cellTemperatures | cellBalancingBits | faultStatus
  | balancingState | batteryStatus | wakeupSource | mosControlAck
  deriving DecidableEq

/-- The member that was written last. -/
def EventPayload.member : EventPayload → Member
  | .capacityVoltage _ => .capacityVoltage
  | .bmuCellTempCount _ => .bmuCellTempCount
  | .totalChargeDischargeAh _ => .totalChargeDischargeAh
  | .batteryOperationMode _ => .batteryOperationMode
  | .firmwareIndex _ => .firmwareIndex
  | .text _ => .text
  | .cellVoltageAlarm _ => .cellVoltageAlarm
  | .totalVoltageAlarm _ => .totalVoltageAlarm
  | .currentAlarm _ => .currentAlarm
  | .temperatureAlarm _ => .temperatureAlarm
  | .socAlarm _ => .socAlarm
  | .differenceAlarm _ => .differenceAlarm
  | .balancingParams _ => .balancingParams
  | .currentParams _ => .currentParams
  | .rtc _ => .rtc
  | .version _ => .version
  | .faultRecord _ => .faultRecord
  | .boardNumber _ => .boardNumber
  | .heatingTemperature _ => .heatingTemperature
  | .activeBalancingSwitch _ => .activeBalancingSwitch
  | .activeBalancingParams _ => .activeBalancingParams
  | .inverterParams _ => .inverterParams
  | .alarmThreshold _ => .alarmThreshold
  | .currentAlarmThreshold _ => .currentAlarmThreshold
  | .tempAlarmThreshold _ => .tempAlarmThreshold
  | .totalVoltageCurrentSoc _ => .totalVoltageCurrentSoc
  | .cellVoltageExtremes _ => .cellVoltageExtremes
  | .cellTemperatureExtremes _ => .cellTemperatureExtremes
  | .chargeDischargeMos _ => .chargeDischargeMos
  | .statusInfo _ => .statusInfo
  | .cellVoltages _ => .cellVoltages
  | .cellTemperatures _ => .cellTemperatures
  | .cellBalancingBits _ => .cellBalancingBits
  | .faultStatus _ => .faultStatus
  | .balancingState _ => .balancingState
  | .batteryStatus _ => .batteryStatus
  | .wakeupSource _ => .wakeupSource
  | .mosControlAck _ => .mosControlAck

/-! ### Who may look -/

def isResponse (event : Event) : Bool := event.kind = .response

def respondsTo (event : Event) (id : DataId) : Bool := isResponse event && event.id = id

/-- A MOSFET write that was rejected still carries what was asked for and what was applied. -/
def carriesMosAck (event : Event) (id : DataId) : Bool :=
  event.id = id && (isResponse event || event.error = .writeRejected)

/-- The level is checked first, for one out of range computes another command's Data ID. -/
def respondsToThreshold (event : Event) (cls : AlarmClass) (lvl : AlarmLevel) : Bool :=
  lvl < alarmLevelCount && respondsTo event (alarmThresholdId cls lvl)

/-- The address of a member, or none. -/
def expose (member : Member) (shown : Bool) : Option Member := if shown then some member else none

/-! ### Per-command accessors -/

def asCapacityVoltage (event : Event) : Option Member := expose .capacityVoltage (respondsTo event .capacityVoltage)
def asBmuCellTempCount (event : Event) : Option Member := expose .bmuCellTempCount (respondsTo event .bmuCellTempCount)
def asTotalChargeDischargeAh (event : Event) : Option Member := expose .totalChargeDischargeAh (respondsTo event .totalChargeDischargeAh)
def asBatteryOperationMode (event : Event) : Option Member := expose .batteryOperationMode (respondsTo event .batteryOperationMode)
def asFirmwareIndex (event : Event) : Option Member := expose .firmwareIndex (respondsTo event .firmwareIndex)
def asManufacturerName (event : Event) : Option Member := expose .text (respondsTo event .manufacturerName)
def asBatteryName (event : Event) : Option Member := expose .text (respondsTo event .batteryName)
def asBatterySerialNumber (event : Event) : Option Member := expose .text (respondsTo event .batterySerialNumber)
def asBatteryProductionDate (event : Event) : Option Member := expose .rtc (respondsTo event .batteryProductionDate)
def asCellVoltageAlarm (event : Event) : Option Member := expose .cellVoltageAlarm (respondsTo event .cellVoltageAlarm)
def asTotalVoltageAlarm (event : Event) : Option Member := expose .totalVoltageAlarm (respondsTo event .totalVoltageAlarm)
def asCurrentAlarm (event : Event) : Option Member := expose .currentAlarm (respondsTo event .currentAlarm)
def asTemperatureAlarm (event : Event) : Option Member := expose .temperatureAlarm (respondsTo event .temperatureAlarm)
def asSocAlarm (event : Event) : Option Member := expose .socAlarm (respondsTo event .socAlarm)
def asDifferenceAlarm (event : Event) : Option Member := expose .differenceAlarm (respondsTo event .differenceAlarm)
def asBalancingParams (event : Event) : Option Member := expose .balancingParams (respondsTo event .balancingParams)
def asCurrentParams (event : Event) : Option Member := expose .currentParams (respondsTo event .currentParams)
def asRtc (event : Event) : Option Member := expose .rtc (respondsTo event .rtc)
def asSoftwareVersion (event : Event) : Option Member := expose .version (respondsTo event .softwareVersion)
def asHardwareVersion (event : Event) : Option Member := expose .version (respondsTo event .hardwareVersion)
def asFaultRecord (event : Event) : Option Member := expose .faultRecord (respondsTo event .faultRecords)
def asBoardNumber (event : Event) : Option Member := expose .boardNumber (respondsTo event .boardNumber)
def asHeatingTemperature (event : Event) : Option Member := expose .heatingTemperature (respondsTo event .heatingTemperature)
def asActiveBalancingSwitch (event : Event) : Option Member := expose .activeBalancingSwitch (respondsTo event .activeBalancingSwitch)
def asActiveBalancingParams (event : Event) : Option Member := expose .activeBalancingParams (respondsTo event .activeBalancingParams)
def asInverterParams (event : Event) : Option Member := expose .inverterParams (respondsTo event .inverterParams)
def asSnSerialNumber (event : Event) : Option Member := expose .text (respondsTo event .snSerialNumber)
def asTotalVoltageCurrentSoc (event : Event) : Option Member := expose .totalVoltageCurrentSoc (respondsTo event .totalVoltageCurrentSoc)
def asCellVoltageExtremes (event : Event) : Option Member := expose .cellVoltageExtremes (respondsTo event .cellVoltageExtremes)
def asCellTemperatureExtremes (event : Event) : Option Member := expose .cellTemperatureExtremes (respondsTo event .cellTemperatureExtremes)
def asChargeDischargeMos (event : Event) : Option Member := expose .chargeDischargeMos (respondsTo event .chargeDischargeMosStatus)
def asStatusInfo (event : Event) : Option Member := expose .statusInfo (respondsTo event .statusInfo)
def asCellVoltages (event : Event) : Option Member := expose .cellVoltages (respondsTo event .cellVoltages)
def asCellTemperatures (event : Event) : Option Member := expose .cellTemperatures (respondsTo event .cellTemperatures)
def asCellBalancingBits (event : Event) : Option Member := expose .cellBalancingBits (respondsTo event .cellBalancingBits)
def asFaultStatus (event : Event) : Option Member := expose .faultStatus (respondsTo event .faultStatus)
def asBalancingState (event : Event) : Option Member := expose .balancingState (respondsTo event .balancingState)
def asBatteryStatus (event : Event) : Option Member := expose .batteryStatus (respondsTo event .batteryStatus)
def asWakeupSource (event : Event) : Option Member := expose .wakeupSource (respondsTo event .wakeupSource)
def asDischargeMosControl (event : Event) : Option Member := expose .mosControlAck (carriesMosAck event .dischargeMosControl)
def asChargeMosControl (event : Event) : Option Member := expose .mosControlAck (carriesMosAck event .chargeMosControl)

def asCellOvervoltageThreshold (event : Event) (level : AlarmLevel) : Option Member :=
  expose .alarmThreshold (respondsToThreshold event .cellOvervoltage level)
def asCellUndervoltageThreshold (event : Event) (level : AlarmLevel) : Option Member :=
  expose .alarmThreshold (respondsToThreshold event .cellUndervoltage level)
def asOvercurrentThreshold (event : Event) (level : AlarmLevel) : Option Member :=
  expose .currentAlarmThreshold (respondsToThreshold event .current level)
def asHighTemperatureThreshold (event : Event) (level : AlarmLevel) : Option Member :=
  expose .tempAlarmThreshold (respondsToThreshold event .highTemperature level)
def asLowTemperatureThreshold (event : Event) (level : AlarmLevel) : Option Member :=
  expose .tempAlarmThreshold (respondsToThreshold event .lowTemperature level)
def asTotalOvervoltageThreshold (event : Event) (level : AlarmLevel) : Option Member :=
  expose .alarmThreshold (respondsToThreshold event .totalOvervoltage level)
def asTotalUndervoltageThreshold (event : Event) (level : AlarmLevel) : Option Member :=
  expose .alarmThreshold (respondsToThreshold event .totalUndervoltage level)
def asVoltageDifferenceThreshold (event : Event) (level : AlarmLevel) : Option Member :=
  expose .alarmThreshold (respondsToThreshold event .voltageDifference level)
def asTemperatureDifferenceThreshold (event : Event) (level : AlarmLevel) : Option Member :=
  expose .alarmThreshold (respondsToThreshold event .temperatureDifference level)

/-! ### Payload-shape accessors -/

def asText (event : Event) : Option Member :=
  if !isResponse event then none
  else
    match event.id with
    | .manufacturerName | .batteryName | .batterySerialNumber | .snSerialNumber => some .text
    | _ => none

def asVersion (event : Event) : Option Member :=
  if !isResponse event then none
  else
    match event.id with
    | .softwareVersion | .hardwareVersion => some .version
    | _ => none

def asAlarmThreshold (event : Event) : Option Member :=
  if !isResponse event || !isAlarmThresholdId event.id then none
  else
    match alarmClassOf event.id with
    | .current | .highTemperature | .lowTemperature => none
    | _ => some .alarmThreshold

def asCurrentAlarmThreshold (event : Event) : Option Member :=
  if !isResponse event || !isAlarmThresholdId event.id then none
  else if alarmClassOf event.id = .current then some .currentAlarmThreshold
  else none

def asTempAlarmThreshold (event : Event) : Option Member :=
  if !isResponse event || !isAlarmThresholdId event.id then none
  else
    match alarmClassOf event.id with
    | .highTemperature | .lowTemperature => some .tempAlarmThreshold
    | _ => none

def asMosControlAck (event : Event) : Option Member :=
  expose .mosControlAck (carriesMosAck event .dischargeMosControl || carriesMosAck event .chargeMosControl)

/-! ### What the accessors document -/

/-- An accessor with the commands its documentation names; one of a MOSFET write also answers when the write was rejected. -/
structure Accessor where
  get : Event → Option Member
  commands : List DataId
  rejected : Bool := false

def commandAccessors : List Accessor :=
  [ ⟨asCapacityVoltage, [0x50], false⟩,
    ⟨asBmuCellTempCount, [0x51], false⟩,
    ⟨asTotalChargeDischargeAh, [0x52], false⟩,
    ⟨asBatteryOperationMode, [0x53], false⟩,
    ⟨asFirmwareIndex, [0x54], false⟩,
    ⟨asManufacturerName, [0x55], false⟩,
    ⟨asBatteryName, [0x56], false⟩,
    ⟨asBatterySerialNumber, [0x57], false⟩,
    ⟨asBatteryProductionDate, [0x58], false⟩,
    ⟨asCellVoltageAlarm, [0x59], false⟩,
    ⟨asTotalVoltageAlarm, [0x5A], false⟩,
    ⟨asCurrentAlarm, [0x5B], false⟩,
    ⟨asTemperatureAlarm, [0x5C], false⟩,
    ⟨asSocAlarm, [0x5D], false⟩,
    ⟨asDifferenceAlarm, [0x5E], false⟩,
    ⟨asBalancingParams, [0x5F], false⟩,
    ⟨asCurrentParams, [0x60], false⟩,
    ⟨asRtc, [0x61], false⟩,
    ⟨asSoftwareVersion, [0x62], false⟩,
    ⟨asHardwareVersion, [0x63], false⟩,
    ⟨asFaultRecord, [0x64], false⟩,
    ⟨asBoardNumber, [0x65], false⟩,
    ⟨asHeatingTemperature, [0x66], false⟩,
    ⟨asActiveBalancingSwitch, [0x67], false⟩,
    ⟨asActiveBalancingParams, [0x68], false⟩,
    ⟨asInverterParams, [0x69], false⟩,
    ⟨asSnSerialNumber, [0x6A], false⟩,
    ⟨asTotalVoltageCurrentSoc, [0x90], false⟩,
    ⟨asCellVoltageExtremes, [0x91], false⟩,
    ⟨asCellTemperatureExtremes, [0x92], false⟩,
    ⟨asChargeDischargeMos, [0x93], false⟩,
    ⟨asStatusInfo, [0x94], false⟩,
    ⟨asCellVoltages, [0x95], false⟩,
    ⟨asCellTemperatures, [0x96], false⟩,
    ⟨asCellBalancingBits, [0x97], false⟩,
    ⟨asFaultStatus, [0x98], false⟩,
    ⟨asBalancingState, [0x99], false⟩,
    ⟨asBatteryStatus, [0x9A], false⟩,
    ⟨asWakeupSource, [0xD8], false⟩,
    ⟨asDischargeMosControl, [0xD9], true⟩,
    ⟨asChargeMosControl, [0xDA], true⟩ ]

/-- The command documented for a level, if it is one of the three. -/
def byLevel (first second third : DataId) (level : AlarmLevel) : List DataId :=
  if level = 0 then [first] else if level = 1 then [second] else if level = 2 then [third] else []

def thresholdAccessors (level : AlarmLevel) : List Accessor :=
  [ ⟨fun event => asCellOvervoltageThreshold event level, byLevel 0x70 0x79 0x82 level, false⟩,
    ⟨fun event => asCellUndervoltageThreshold event level, byLevel 0x71 0x7A 0x83 level, false⟩,
    ⟨fun event => asOvercurrentThreshold event level, byLevel 0x72 0x7B 0x84 level, false⟩,
    ⟨fun event => asHighTemperatureThreshold event level, byLevel 0x73 0x7C 0x85 level, false⟩,
    ⟨fun event => asLowTemperatureThreshold event level, byLevel 0x74 0x7D 0x86 level, false⟩,
    ⟨fun event => asTotalOvervoltageThreshold event level, byLevel 0x75 0x7E 0x87 level, false⟩,
    ⟨fun event => asTotalUndervoltageThreshold event level, byLevel 0x76 0x7F 0x88 level, false⟩,
    ⟨fun event => asVoltageDifferenceThreshold event level, byLevel 0x77 0x80 0x89 level, false⟩,
    ⟨fun event => asTemperatureDifferenceThreshold event level, byLevel 0x78 0x81 0x8A level, false⟩ ]

def shapeAccessors : List Accessor :=
  [ ⟨asText, [0x55, 0x56, 0x57, 0x6A], false⟩,
    ⟨asVersion, [0x62, 0x63], false⟩,
    ⟨asAlarmThreshold, [0x70, 0x71, 0x75, 0x76, 0x77, 0x78, 0x79, 0x7A, 0x7E, 0x7F, 0x80, 0x81, 0x82, 0x83, 0x87, 0x88, 0x89,
      0x8A], false⟩,
    ⟨asCurrentAlarmThreshold, [0x72, 0x7B, 0x84], false⟩,
    ⟨asTempAlarmThreshold, [0x73, 0x74, 0x7C, 0x7D, 0x85, 0x86], false⟩,
    ⟨asMosControlAck, [0xD9, 0xDA], true⟩ ]

def accessors (level : AlarmLevel) : List Accessor := commandAccessors ++ thresholdAccessors level ++ shapeAccessors

/-- What the per-command accessors answer, the threshold accessors once for each level. -/
def readings (event : Event) : List (Option Member) :=
  (commandAccessors ++ thresholdAccessors 0 ++ thresholdAccessors 1 ++ thresholdAccessors 2).map fun accessor =>
    accessor.get event

/-- The accessors and what the event carries agree. -/
structure Event.Sound (event : Event) : Prop where
  known : event.error ≠ .unknownDataId
  unique : event.kind = .response → (readings event).countP Option.isSome = 1
  documented : ∀ level, ∀ accessor ∈ accessors level, (accessor.get event).isSome = true →
    event.id ∈ accessor.commands ∧
      (event.kind = .response ∨
        accessor.rejected = true ∧ event.kind = .protocolError ∧ event.error = .writeRejected)
  active : ∀ level, ∀ accessor ∈ accessors level, ∀ member, accessor.get event = some member →
    member = event.payload.member

/-! ### The agreement -/

/-- The member a reply to a command is decoded into. -/
def carried (id : DataId) : Option Member :=
  if isAlarmThresholdId id then
    match alarmClassOf id with
    | .current => some .currentAlarmThreshold
    | .highTemperature | .lowTemperature => some .tempAlarmThreshold
    | _ => some .alarmThreshold
  else
    match id with
    | .capacityVoltage => some .capacityVoltage
    | .bmuCellTempCount => some .bmuCellTempCount
    | .totalChargeDischargeAh => some .totalChargeDischargeAh
    | .batteryOperationMode => some .batteryOperationMode
    | .firmwareIndex => some .firmwareIndex
    | .manufacturerName | .batteryName | .batterySerialNumber | .snSerialNumber => some .text
    | .batteryProductionDate | .rtc => some .rtc
    | .cellVoltageAlarm => some .cellVoltageAlarm
    | .totalVoltageAlarm => some .totalVoltageAlarm
    | .currentAlarm => some .currentAlarm
    | .temperatureAlarm => some .temperatureAlarm
    | .socAlarm => some .socAlarm
    | .differenceAlarm => some .differenceAlarm
    | .balancingParams => some .balancingParams
    | .currentParams => some .currentParams
    | .softwareVersion | .hardwareVersion => some .version
    | .faultRecords => some .faultRecord
    | .boardNumber => some .boardNumber
    | .heatingTemperature => some .heatingTemperature
    | .activeBalancingSwitch => some .activeBalancingSwitch
    | .activeBalancingParams => some .activeBalancingParams
    | .inverterParams => some .inverterParams
    | .totalVoltageCurrentSoc => some .totalVoltageCurrentSoc
    | .cellVoltageExtremes => some .cellVoltageExtremes
    | .cellTemperatureExtremes => some .cellTemperatureExtremes
    | .chargeDischargeMosStatus => some .chargeDischargeMos
    | .statusInfo => some .statusInfo
    | .cellVoltages => some .cellVoltages
    | .cellTemperatures => some .cellTemperatures
    | .cellBalancingBits => some .cellBalancingBits
    | .faultStatus => some .faultStatus
    | .balancingState => some .balancingState
    | .batteryStatus => some .batteryStatus
    | .wakeupSource => some .wakeupSource
    | .dischargeMosControl | .chargeMosControl => some .mosControlAck
    | _ => none

theorem decodeAlarmThreshold_member {id : DataId} (halarm : isAlarmThresholdId id = true) (data : DataBytes) :
    carried id = some (decodeAlarmThreshold id data).member := by
  unfold carried
  rw [if_pos halarm]
  split
  · next hcls => rw [decodeAlarmThreshold, hcls]; rfl
  · next hcls => rw [decodeAlarmThreshold, hcls]; rfl
  · next hcls => rw [decodeAlarmThreshold, hcls]; rfl
  · unfold decodeAlarmThreshold
    split <;> first | contradiction | rfl

theorem decodeSingle_member {id : DataId} {data : DataBytes} {payload : EventPayload}
    (h : decodeSingle id data = some payload) : carried id = some payload.member := by
  unfold decodeSingle at h
  by_cases halarm : isAlarmThresholdId id
  · rw [if_pos halarm] at h
    rw [← Option.some.inj h]
    exact decodeAlarmThreshold_member halarm data
  · unfold carried
    rw [if_neg halarm] at h ⊢
    split at h <;> cases h <;> rfl

/-- Whether a Data ID has a decoder does not depend on the data. -/
theorem decodeSingle_none {id : DataId} {data : DataBytes} (h : decodeSingle id data = none) (data' : DataBytes) :
    decodeSingle id data' = none := by
  unfold decodeSingle at h ⊢
  by_cases halarm : isAlarmThresholdId id
  · rw [if_pos halarm] at h
    cases h
  · rw [if_neg halarm] at h ⊢
    split at h <;> cases h
    rfl

/-- Every known Data ID has a decoder. -/
theorem decodeSingle_known {id : DataId} (hknown : isKnownDataId id = true) (hsingle : (multiframeInfo id).multi = false)
    (hmos : ¬ (id = .dischargeMosControl ∨ id = .chargeMosControl)) (data : DataBytes) : decodeSingle id data ≠ none := by
  have hall : ∀ byte : Fin 256, isKnownDataId (UInt8.ofNat byte) = true →
      (multiframeInfo (UInt8.ofNat byte)).multi = false →
      ¬ (UInt8.ofNat byte = DataId.dischargeMosControl ∨ UInt8.ofNat byte = DataId.chargeMosControl) →
      decodeSingle (UInt8.ofNat byte) (Vector.replicate dataLen 0) ≠ none := by
    decide +kernel
  have := hall ⟨id.toNat, id.toNat_lt⟩
  rw [UInt8.ofNat_toNat] at this
  exact fun h => this hknown hsingle hmos (decodeSingle_none h _)

theorem decodeMulti_member {id : DataId} {buf : List UInt8} {len : Nat} {payload : EventPayload}
    (h : decodeMulti id buf len = some payload) : carried id = some payload.member := by
  unfold decodeMulti at h
  split at h <;> cases h <;> rfl

/-- A reply to the command is read by one accessor, and every accessor that reads it finds the member it is decoded into. -/
def Agrees (id : DataId) (member : Member) : Prop :=
  (readings { id }).countP Option.isSome = 1 ∧
    ∀ level ∈ [0, 1, 2], ∀ accessor ∈ accessors level,
      accessor.get { id } = none ∨ accessor.get { id } = some member ∧ id ∈ accessor.commands

instance (id : DataId) (member : Member) : Decidable (Agrees id member) := inferInstanceAs (Decidable (_ ∧ _))

theorem agrees {id : DataId} {member : Member} (h : carried id = some member) : Agrees id member := by
  have hall : ∀ byte : Fin 256, ∀ member ∈ carried (UInt8.ofNat byte), Agrees (UInt8.ofNat byte) member := by
    decide +kernel
  have := hall ⟨id.toNat, id.toNat_lt⟩
  rw [UInt8.ofNat_toNat] at this
  exact this member h

/-- An alarm level out of range names no command. -/
theorem thresholdAccessors_of_level {level : AlarmLevel} (h : ¬ level < alarmLevelCount) (event : Event) :
    ∀ accessor ∈ thresholdAccessors level, accessor.get event = none := by
  have hnone : ∀ cls, respondsToThreshold event cls level = false := by
    intro cls
    rw [respondsToThreshold, decide_eq_false h, Bool.false_and]
  unfold thresholdAccessors
  simp only [List.forall_mem_cons]
  and_intros
  all_goals first | exact congrArg (expose _) (hnone _) | exact nofun

theorem level_cases (level : AlarmLevel) : level ∈ ([0, 1, 2] : List AlarmLevel) ∨ ¬ level < alarmLevelCount := by
  have hall : ∀ byte : Fin 256,
      UInt8.ofNat byte ∈ ([0, 1, 2] : List AlarmLevel) ∨ ¬ UInt8.ofNat byte < alarmLevelCount := by
    decide +kernel
  have := hall ⟨level.toNat, level.toNat_lt⟩
  rwa [UInt8.ofNat_toNat] at this

/-- A level out of range leaves the accessors that take none. -/
theorem accessors_of_level {level : AlarmLevel} (h : ¬ level < alarmLevelCount) {event : Event} {accessor : Accessor}
    (hmem : accessor ∈ accessors level) : accessor.get event = none ∨ accessor ∈ accessors 0 := by
  rw [accessors, List.mem_append, List.mem_append] at hmem
  rcases hmem with (hcommand | hthreshold) | hshape
  · exact Or.inr (List.mem_append_left _ (List.mem_append_left _ hcommand))
  · exact Or.inl (thresholdAccessors_of_level h event accessor hthreshold)
  · exact Or.inr (List.mem_append_right _ hshape)

/-- What an accessor looks at. -/
def Event.bare (event : Event) : Event := { kind := event.kind, id := event.id, error := event.error }

theorem get_bare (event : Event) (level : AlarmLevel) :
    ∀ accessor ∈ accessors level, accessor.get event = accessor.get event.bare := by
  have hmap : (accessors level).map (fun accessor => accessor.get event) =
      (accessors level).map fun accessor => accessor.get event.bare := rfl
  exact List.map_inj_left.mp hmap

/-- It is enough to look at the levels there are. -/
theorem Event.Sound.of {event : Event} (hknown : event.error ≠ .unknownDataId)
    (hunique : event.kind = .response → (readings event).countP Option.isSome = 1)
    (hget : ∀ level ∈ ([0, 1, 2] : List AlarmLevel), ∀ accessor ∈ accessors level, accessor.get event.bare = none ∨
      accessor.get event.bare = some event.payload.member ∧ event.id ∈ accessor.commands ∧
        (event.kind = .response ∨
          accessor.rejected = true ∧ event.kind = .protocolError ∧ event.error = .writeRejected)) : event.Sound := by
  have hall : ∀ level, ∀ accessor ∈ accessors level, accessor.get event = none ∨
      accessor.get event = some event.payload.member ∧ event.id ∈ accessor.commands ∧
        (event.kind = .response ∨
          accessor.rejected = true ∧ event.kind = .protocolError ∧ event.error = .writeRejected) := by
    intro level accessor hmem
    rw [get_bare event level accessor hmem]
    rcases level_cases level with hlevel | hlevel
    · exact hget level hlevel accessor hmem
    · rcases accessors_of_level hlevel hmem with hnone | hmem
      · exact Or.inl hnone
      · exact hget 0 List.mem_cons_self accessor hmem
  refine ⟨hknown, hunique, fun level accessor hmem hsome => ?_, fun level accessor hmem member hmember => ?_⟩
  · rcases hall level accessor hmem with hnone | ⟨-, hdocumented⟩
    · rw [hnone] at hsome
      cases hsome
    · exact hdocumented
  · rcases hall level accessor hmem with hnone | ⟨hactive, -⟩
    · rw [hnone] at hmember
      cases hmember
    · exact Option.some.inj (hmember.symm.trans hactive)

/-- A response is sound if its payload was decoded for its command. -/
theorem Event.Sound.response {event : Event} (hkind : event.kind = .response) (herror : event.error = .none)
    (hcarried : carried event.id = some event.payload.member) : event.Sound := by
  obtain ⟨hunique, hagrees⟩ := agrees hcarried
  have hbare : event.bare = { id := event.id } := by
    rw [Event.bare, hkind, herror]
  refine .of (by rw [herror]; decide) (fun _ => ?_) fun level hlevel accessor hmem => ?_
  · have hreadings : readings event = readings event.bare := rfl
    rw [hreadings, hbare]
    exact hunique
  · rw [hbare]
    exact (hagrees level hlevel accessor hmem).imp (fun h => h) fun h => ⟨h.1, h.2, Or.inl hkind⟩

/-- No accessor answers an event that is no response and no rejected write. -/
theorem accessors_silent {event : Event} (hkind : event.kind ≠ .response) (herror : event.error ≠ .writeRejected)
    (level : AlarmLevel) : ∀ accessor ∈ accessors level, accessor.get event = none := by
  have hresponse : isResponse event = false := decide_eq_false hkind
  have hresponds : ∀ id, respondsTo event id = false := by
    intro id
    rw [respondsTo, hresponse, Bool.false_and]
  have hthreshold : ∀ cls, respondsToThreshold event cls level = false := by
    intro cls
    rw [respondsToThreshold, hresponds, Bool.and_false]
  have hmos : ∀ id, carriesMosAck event id = false := by
    intro id
    rw [carriesMosAck, hresponse, decide_eq_false herror, Bool.or_false, Bool.and_false]
  intro accessor hmem
  rw [accessors, List.mem_append, List.mem_append] at hmem
  rcases hmem with (hmem | hmem) | hmem <;> revert accessor
  · unfold commandAccessors
    simp only [List.forall_mem_cons]
    and_intros
    all_goals first | exact congrArg (expose _) (hresponds _) | exact congrArg (expose _) (hmos _) | exact nofun
  · unfold thresholdAccessors
    simp only [List.forall_mem_cons]
    and_intros
    all_goals first | exact congrArg (expose _) (hthreshold _) | exact nofun
  · unfold shapeAccessors asText asVersion asAlarmThreshold asCurrentAlarmThreshold asTempAlarmThreshold asMosControlAck
    simp [hresponse, hmos, expose]

theorem Event.Sound.silent {event : Event} (hkind : event.kind ≠ .response) (herror : event.error ≠ .writeRejected)
    (hknown : event.error ≠ .unknownDataId) : event.Sound :=
  .of hknown (fun h => absurd h hkind) fun level _ accessor hmem =>
    Or.inl ((get_bare event level accessor hmem).symm.trans (accessors_silent hkind herror level accessor hmem))

/-- A rejected MOSFET write is read by the accessors of the write. -/
theorem Event.Sound.refused {id : DataId} (hid : id = .dischargeMosControl ∨ id = .chargeMosControl) (frames : UInt8)
    (ack : MosControlAck) :
    Event.Sound { kind := .protocolError, id, error := .writeRejected, frames, payload := .mosControlAck ack } := by
  have hget : ∀ level ∈ ([0, 1, 2] : List AlarmLevel), ∀ accessor ∈ accessors level,
      accessor.get { kind := .protocolError, id, error := .writeRejected } = none ∨
        accessor.get { kind := .protocolError, id, error := .writeRejected } = some .mosControlAck ∧
          id ∈ accessor.commands ∧ accessor.rejected = true := by
    rcases hid with rfl | rfl <;> decide +kernel
  refine .of (show ErrorCode.writeRejected ≠ .unknownDataId by decide) nofun fun level hlevel accessor hmem => ?_
  exact (hget level hlevel accessor hmem).imp (fun h => h) fun h => ⟨h.1, h.2.1, Or.inr ⟨h.2.2, rfl, rfl⟩⟩

end Haidi
