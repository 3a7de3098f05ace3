import HaidiBms.Protocol

/-!
# Decoded payloads

One structure per command family, field for field, and `EventPayload`, the union that holds one of them. The union is a sum here: its constructor records which member was written last, which the source leaves implicit in the event's kind and Data ID.
-/

namespace Haidi

abbrev maxCells : Nat := 48
abbrev maxTemperatures : Nat := 21
abbrev maxTextLen : Nat := 32
abbrev maxVersionLen : Nat := 14
abbrev firmwareIndexLen : Nat := 8
abbrev faultRecordLen : Nat := 27

/-- The longest payload any paginated reply decodes to: every cell of a 0x95 reply. -/
abbrev maxReassemblyLen : Nat := maxCells * 2

/-! ### Static configuration reads -/

structure CapacityVoltage where
  capacityMah : UInt32
  voltageMv : UInt32
  deriving DecidableEq

structure BmuCellTempCount where
  boardCount : UInt8
  cellCount : Vector UInt8 3
  tempCount : Vector UInt8 3
  reserved : UInt8
  deriving DecidableEq

structure TotalChargeDischargeAh where
  chargeAh : UInt32
  dischargeAh : UInt32
  deriving DecidableEq

structure BatteryOperationMode where
  batteryType : UInt8
  operationMode : UInt8
  year : UInt16
  month : UInt8
  day : UInt8
  autoSleepS : UInt16
  zeroDriftCurrentDa : UInt8
  deriving DecidableEq

structure FirmwareIndex where
  text : Vector UInt8 firmwareIndexLen
  deriving DecidableEq

/-- A reassembled text field; only the first `len` bytes of `text` were received. -/
structure TextPayload where
  len : UInt8
  text : Vector UInt8 maxTextLen
  deriving DecidableEq

/-- Bytes of text: `len`, clamped to the array. -/
def TextPayload.size (p : TextPayload) : Nat := if p.len.toNat < maxTextLen then p.len.toNat else maxTextLen

/-- The valid bytes. -/
def TextPayload.view (p : TextPayload) : List UInt8 := p.text.toList.take p.size

structure CellVoltageAlarm where
  overvoltageL1Mv : UInt16
  overvoltageL2Mv : UInt16
  undervoltageL1Mv : UInt16
  undervoltageL2Mv : UInt16
  deriving DecidableEq

structure TotalVoltageAlarm where
  overvoltageL1Dv : UInt16
  overvoltageL2Dv : UInt16
  undervoltageL1Dv : UInt16
  undervoltageL2Dv : UInt16
  deriving DecidableEq

/-- Charge before discharge, the opposite order to `CurrentAlarmThreshold`. -/
structure CurrentAlarm where
  chargeOvercurrentL1Da : Int16
  chargeOvercurrentL2Da : Int16
  dischargeOvercurrentL1Da : Int16
  dischargeOvercurrentL2Da : Int16
  deriving DecidableEq

structure TemperatureAlarm where
  chargeOverL1C : Int16
  chargeOverL2C : Int16
  chargeUnderL1C : Int16
  chargeUnderL2C : Int16
  dischargeOverL1C : Int16
  dischargeOverL2C : Int16
  dischargeUnderL1C : Int16
  dischargeUnderL2C : Int16
  deriving DecidableEq

structure SocAlarm where
  overL1Pm : UInt16
  overL2Pm : UInt16
  underL1Pm : UInt16
  underL2Pm : UInt16
  deriving DecidableEq

structure DifferenceAlarm where
  voltageDiffL1Mv : UInt16
  voltageDiffL2Mv : UInt16
  tempDiffL1C : UInt8
  tempDiffL2C : UInt8
  reserved : Vector UInt8 2
  deriving DecidableEq

structure BalancingParams where
  startVoltageMv : UInt16
  startDifferenceMv : UInt16
  reserved : Vector UInt8 4
  deriving DecidableEq

structure CurrentParams where
  alarmCurrentA : UInt16
  senseResistorUohm : UInt16
  reserved : Vector UInt8 4
  deriving DecidableEq

structure Rtc where
  year : UInt16
  month : UInt8
  day : UInt8
  hour : UInt8
  minute : UInt8
  second : UInt8
  reserved : Vector UInt8 2
  deriving DecidableEq

structure VersionPayload where
  len : UInt8
  text : Vector UInt8 maxVersionLen
  deriving DecidableEq

/-- Bytes of text: `len`, clamped to the array. -/
def VersionPayload.size (p : VersionPayload) : Nat := if p.len.toNat < maxVersionLen then p.len.toNat else maxVersionLen

/-- The valid bytes. -/
def VersionPayload.view (p : VersionPayload) : List UInt8 := p.text.toList.take p.size

structure FaultRecord where
  year : UInt16
  month : UInt8
  day : UInt8
  hour : UInt8
  minute : UInt8
  second : UInt8
  recordId : UInt8
  occurred : Bool
  totalVoltageDv : UInt16
  currentDa : Int16
  socPm : UInt16
  chargeMosOn : Bool
  dischargeMosOn : Bool
  highestCellMv : UInt16
  highestCellNumber : UInt8
  lowestCellMv : UInt16
  lowestCellNumber : UInt8
  highestTempC : Int16
  highestTempNumber : UInt8
  lowestTempC : Int16
  lowestTempNumber : UInt8
  faultCode : UInt8
  checksumOk : Bool
  deriving DecidableEq

structure BoardNumber where
  boardNumber : UInt8
  bmuCount : UInt8
  deriving DecidableEq

structure HeatingTemperature where
  heatingStartC : Int16
  fanStartC : Int16
  keyControlMos : UInt8
  deriving DecidableEq

structure ActiveBalancingSwitch where
  enabled : Bool
  deriving DecidableEq

structure ActiveBalancingParams where
  seriesCount : UInt8
  balancingCurrentDa : UInt16
  deriving DecidableEq

structure InverterParams where
  inverterType : UInt8
  commType : UInt8
  deriving DecidableEq

/-! ### Per-level alarm thresholds -/

structure AlarmThreshold where
  value : UInt16
  delayCs : UInt16
  recoveryValue : UInt16
  recoveryDelayCs : UInt16
  deriving DecidableEq

/-- Discharge before charge, the opposite order to `CurrentAlarm`. -/
structure CurrentAlarmThreshold where
  dischargeOvercurrentDa : Int16
  dischargeDelayCs : UInt16
  chargeOvercurrentDa : Int16
  chargeDelayCs : UInt16
  deriving DecidableEq

structure TempAlarmThreshold where
  chargeAlarmC : Int16
  chargeDelayDs : UInt8
  chargeRecoveryC : Int16
  chargeRecoveryDelayDs : UInt8
  dischargeAlarmC : Int16
  dischargeDelayDs : UInt8
  dischargeRecoveryC : Int16
  dischargeRecoveryDelayDs : UInt8
  deriving DecidableEq

/-! ### Live telemetry -/

structure TotalVoltageCurrentSoc where
  cumulativeVoltageDv : UInt16
  measuredVoltageDv : UInt16
  currentDa : Int16
  socPm : UInt16
  deriving DecidableEq

structure CellVoltageExtremes where
  highestMv : UInt16
  highestCellNumber : UInt8
  lowestMv : UInt16
  lowestCellNumber : UInt8
  reserved : Vector UInt8 2
  deriving DecidableEq

structure CellTemperatureExtremes where
  highestC : Int16
  highestCellNumber : UInt8
  lowestC : Int16
  lowestCellNumber : UInt8
  reserved : Vector UInt8 4
  deriving DecidableEq

structure ChargeDischargeMosStatus where
  state : UInt8
  chargeMosState : UInt8
  dischargeMosState : UInt8
  bmsLife : UInt8
  remainingCapacityMah : UInt32
  deriving DecidableEq

structure StatusInfo where
  seriesCount : UInt8
  tempSensorCount : UInt8
  chargerConnected : Bool
  loadConnected : Bool
  ioBits : UInt8
  cycleCount : UInt16
  onboardTempC : Int16
  deriving DecidableEq

/-- Per-cell voltages; only the first `count` are valid. -/
structure CellVoltages where
  count : UInt8
  mv : Vector UInt16 maxCells
  deriving DecidableEq

/-- Per-sensor temperatures; only the first `count` are valid. -/
structure CellTemperatures where
  count : UInt8
  celsius : Vector Int16 maxTemperatures
  deriving DecidableEq

structure CellBalancingBits where
  bits : DataBytes
  deriving DecidableEq

structure FaultStatus where
  bits : DataBytes
  deriving DecidableEq

structure BalancingState where
  enabled : Bool
  currentDa : Int16
  position : UInt8
  deriving DecidableEq

structure BatteryStatus where
  sohPm : UInt16
  deriving DecidableEq

/-! ### Control -/

structure WakeupSource where
  keySignal : Bool
  buttonSignal : Bool
  rs485Signal : Bool
  canSignal : Bool
  chargeDischargeCurrent : Bool
  deriving DecidableEq

/-- The state a MOSFET write asked for and the one the device echoed. -/
structure MosControlAck where
  requestedOn : Bool
  reportedOn : Bool
  deriving DecidableEq

/-! ### The union -/

inductive EventPayload
  | capacityVoltage (value : CapacityVoltage)
  | bmuCellTempCount (value : BmuCellTempCount)
  | totalChargeDischargeAh (value : TotalChargeDischargeAh)
  | batteryOperationMode (value : BatteryOperationMode)
  | firmwareIndex (value : FirmwareIndex)
  | text (value : TextPayload)
  | cellVoltageAlarm (value : CellVoltageAlarm)
  | totalVoltageAlarm (value : TotalVoltageAlarm)
  | currentAlarm (value : CurrentAlarm)
  | temperatureAlarm (value : TemperatureAlarm)
  | socAlarm (value : SocAlarm)
  | differenceAlarm (value : DifferenceAlarm)
  | balancingParams (value : BalancingParams)
  | currentParams (value : CurrentParams)
  | rtc (value : Rtc)
  | version (value : VersionPayload)
  | faultRecord (value : FaultRecord)
  | boardNumber (value : BoardNumber)
  | heatingTemperature (value : HeatingTemperature)
  | activeBalancingSwitch (value : ActiveBalancingSwitch)
  | activeBalancingParams (value : ActiveBalancingParams)
  | inverterParams (value : InverterParams)
  | alarmThreshold (value : AlarmThreshold)
  | currentAlarmThreshold (value : CurrentAlarmThreshold)
  | tempAlarmThreshold (value : TempAlarmThreshold)
  | totalVoltageCurrentSoc (value : TotalVoltageCurrentSoc)
  | cellVoltageExtremes (value : CellVoltageExtremes)
  | cellTemperatureExtremes (value : CellTemperatureExtremes)
  | chargeDischargeMos (value : ChargeDischargeMosStatus)
  | statusInfo (value : StatusInfo)
  | cellVoltages (value : CellVoltages)
  | cellTemperatures (value : CellTemperatures)
  | cellBalancingBits (value : CellBalancingBits)
  | faultStatus (value : FaultStatus)
  | balancingState (value : BalancingState)
  | batteryStatus (value : BatteryStatus)
  | wakeupSource (value : WakeupSource)
  | mosControlAck (value : MosControlAck)
  deriving DecidableEq

/-- Value-initialising the union activates its first member. -/
def EventPayload.zero : EventPayload := .capacityVoltage ⟨0, 0⟩

/-! ### Events -/

inductive EventKind
  | response
  | timeout
  | protocolError
  deriving DecidableEq

inductive ErrorCode
  | none
  | checksum
  | badSourceAddress
  | badLength
  | unexpectedDataId
  | unknownDataId
  | frameSequence
  | truncated
  | writeRejected
  deriving DecidableEq

/-- One outcome of one request, with the source's defaults. -/
structure Event where
  kind : EventKind := .response
  id : DataId := .capacityVoltage
  error : ErrorCode := .none
  retries : UInt8 := 0
  frames : UInt8 := 0
  payload : EventPayload := .zero
  deriving DecidableEq

end Haidi
