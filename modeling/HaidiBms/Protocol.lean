import Mathlib.Tactic

/-!
# Frame constants, Data IDs and the codec

Protocol V4.0 in its smallest terms: every frame is thirteen bytes in both directions, and the session, the framer and the decoders reach it only through the names of this file.

`DataId`, `HostAddress`, `AlarmClass` and `AlarmLevel` are enumerations over a byte in the source, and a received byte is cast into a `DataId` unchecked, so each is the byte itself here and the enumerators are its named values.
-/

namespace Haidi

abbrev msgMaxLen : Nat := 13
abbrev msgLastIndex : Nat := msgMaxLen - 1

abbrev msgStartIndex : Nat := 0
abbrev msgAddressIndex : Nat := 1
abbrev msgDataIdIndex : Nat := 2
abbrev msgLenIndex : Nat := 3

abbrev dataOffset : Nat := 4
abbrev dataLen : Nat := 8

def startFlag : UInt8 := 0xA5
def lengthFlag : UInt8 := 0x08
def bmsAddress : UInt8 := 0x01

/-- A complete frame. -/
abbrev MessageBytes := Vector UInt8 msgMaxLen

/-- The payload field, Byte0 to Byte7. -/
abbrev DataBytes := Vector UInt8 dataLen

abbrev HostAddress := UInt8

namespace HostAddress

def ble : HostAddress := 0x80
def gprs : HostAddress := 0x20
def comp : HostAddress := 0x40
def broadcast : HostAddress := 0xFF

end HostAddress

abbrev DataId := UInt8

namespace DataId

/-- Not a wire value: no command. -/
@[match_pattern] def none : DataId := 0x00

@[match_pattern] def capacityVoltage : DataId := 0x50
@[match_pattern] def bmuCellTempCount : DataId := 0x51
@[match_pattern] def totalChargeDischargeAh : DataId := 0x52
@[match_pattern] def batteryOperationMode : DataId := 0x53
@[match_pattern] def firmwareIndex : DataId := 0x54
@[match_pattern] def manufacturerName : DataId := 0x55
@[match_pattern] def batteryName : DataId := 0x56
@[match_pattern] def batterySerialNumber : DataId := 0x57
@[match_pattern] def batteryProductionDate : DataId := 0x58
@[match_pattern] def cellVoltageAlarm : DataId := 0x59
@[match_pattern] def totalVoltageAlarm : DataId := 0x5A
@[match_pattern] def currentAlarm : DataId := 0x5B
@[match_pattern] def temperatureAlarm : DataId := 0x5C
@[match_pattern] def socAlarm : DataId := 0x5D
@[match_pattern] def differenceAlarm : DataId := 0x5E
@[match_pattern] def balancingParams : DataId := 0x5F
@[match_pattern] def currentParams : DataId := 0x60
@[match_pattern] def rtc : DataId := 0x61
@[match_pattern] def softwareVersion : DataId := 0x62
@[match_pattern] def hardwareVersion : DataId := 0x63
@[match_pattern] def faultRecords : DataId := 0x64
@[match_pattern] def boardNumber : DataId := 0x65
@[match_pattern] def heatingTemperature : DataId := 0x66
@[match_pattern] def activeBalancingSwitch : DataId := 0x67
@[match_pattern] def activeBalancingParams : DataId := 0x68
@[match_pattern] def inverterParams : DataId := 0x69
@[match_pattern] def snSerialNumber : DataId := 0x6A

@[match_pattern] def alarmThresholdFirst : DataId := 0x70
@[match_pattern] def alarmThresholdLast : DataId := 0x8A

@[match_pattern] def totalVoltageCurrentSoc : DataId := 0x90
@[match_pattern] def cellVoltageExtremes : DataId := 0x91
@[match_pattern] def cellTemperatureExtremes : DataId := 0x92
@[match_pattern] def chargeDischargeMosStatus : DataId := 0x93
@[match_pattern] def statusInfo : DataId := 0x94
@[match_pattern] def cellVoltages : DataId := 0x95
@[match_pattern] def cellTemperatures : DataId := 0x96
@[match_pattern] def cellBalancingBits : DataId := 0x97
@[match_pattern] def faultStatus : DataId := 0x98
@[match_pattern] def balancingState : DataId := 0x99
@[match_pattern] def batteryStatus : DataId := 0x9A

@[match_pattern] def wakeupSource : DataId := 0xD8
@[match_pattern] def dischargeMosControl : DataId := 0xD9
@[match_pattern] def chargeMosControl : DataId := 0xDA

end DataId

/-! ### The alarm-threshold block -/

abbrev AlarmClass := UInt8

namespace AlarmClass

@[match_pattern] def cellOvervoltage : AlarmClass := 0
@[match_pattern] def cellUndervoltage : AlarmClass := 1
@[match_pattern] def current : AlarmClass := 2
@[match_pattern] def highTemperature : AlarmClass := 3
@[match_pattern] def lowTemperature : AlarmClass := 4
@[match_pattern] def totalOvervoltage : AlarmClass := 5
@[match_pattern] def totalUndervoltage : AlarmClass := 6
@[match_pattern] def voltageDifference : AlarmClass := 7
@[match_pattern] def temperatureDifference : AlarmClass := 8

end AlarmClass

abbrev AlarmLevel := UInt8

def alarmClassCount : UInt8 := 9
def alarmLevelCount : UInt8 := 3

def alarmThresholdId (cls : AlarmClass) (lvl : AlarmLevel) : DataId :=
  DataId.alarmThresholdFirst + lvl * alarmClassCount + cls

def isAlarmThresholdId (id : DataId) : Bool :=
  DataId.alarmThresholdFirst ≤ id && id ≤ DataId.alarmThresholdLast

def alarmClassOf (id : DataId) : AlarmClass :=
  (id - DataId.alarmThresholdFirst) % alarmClassCount

def alarmLevelOf (id : DataId) : AlarmLevel :=
  (id - DataId.alarmThresholdFirst) / alarmClassCount

/-! ### Positions

The positions the code names are inside the field they index; where a definition reads one it names the fact. -/

theorem msgStartIndex_lt : msgStartIndex < msgMaxLen := by decide
theorem msgAddressIndex_lt : msgAddressIndex < msgMaxLen := by decide
theorem msgDataIdIndex_lt : msgDataIdIndex < msgMaxLen := by decide
theorem msgLenIndex_lt : msgLenIndex < msgMaxLen := by decide
theorem msgLastIndex_lt : msgLastIndex < msgMaxLen := by decide
theorem dataOffset_lt : dataOffset < msgMaxLen := by decide

theorem byte0_lt : 0 < dataLen := by decide
theorem byte1_lt : 1 < dataLen := by decide
theorem byte2_lt : 2 < dataLen := by decide
theorem byte3_lt : 3 < dataLen := by decide
theorem byte4_lt : 4 < dataLen := by decide
theorem byte5_lt : 5 < dataLen := by decide
theorem byte6_lt : 6 < dataLen := by decide
theorem byte7_lt : 7 < dataLen := by decide

/-! ### The codec -/

/-- The low byte of the sum of every byte before the last. -/
def calcChksum (bytes : MessageBytes) : UInt8 :=
  (bytes.toList.take msgLastIndex).foldl (fun sum byte => sum + byte) 0

def encode (host : HostAddress) (id : DataId) (data : DataBytes) : MessageBytes :=
  let msg : MessageBytes := #v[startFlag, host, id, lengthFlag,
    getElem data 0 byte0_lt, getElem data 1 byte1_lt, getElem data 2 byte2_lt, getElem data 3 byte3_lt,
    getElem data 4 byte4_lt, getElem data 5 byte5_lt, getElem data 6 byte6_lt, getElem data 7 byte7_lt, 0]
  msg.set msgLastIndex (calcChksum msg) msgLastIndex_lt

def isKnownDataId (id : DataId) : Bool :=
  (0x50 ≤ id && id ≤ 0x6A) || (0x70 ≤ id && id ≤ 0x8A) ||
    (0x90 ≤ id && id ≤ 0x9A) || (0xD8 ≤ id && id ≤ 0xDA)

def dataOf (frame : MessageBytes) : DataBytes :=
  Vector.ofFn fun i => frame.get ⟨dataOffset + i.val, by
    have := i.isLt
    simp only [dataLen, dataOffset, msgMaxLen] at *
    omega⟩

def be16 (data : DataBytes) (off : Nat) (h : off + 1 < dataLen := by decide) : UInt16 :=
  (data[off].toUInt16 <<< 8) ||| data[off + 1].toUInt16

def be32 (data : DataBytes) (off : Nat) (h : off + 3 < dataLen := by decide) : UInt32 :=
  (data[off].toUInt32 <<< 24) ||| (data[off + 1].toUInt32 <<< 16) |||
    (data[off + 2].toUInt32 <<< 8) ||| data[off + 3].toUInt32

/-! ### Scalings -/

def currentOffset : Int := 30000
def temperatureOffset : Int := 40
def yearOffset : UInt16 := 2000

/-- The narrowing to sixteen bits is modulo `2 ^ 16`. -/
def toCurrentDa (raw : UInt16) : Int16 := Int16.ofInt (raw.toNat - currentOffset)

def toTemperatureC (raw : UInt8) : Int16 := Int16.ofInt (raw.toNat - temperatureOffset)

def toYear (raw : UInt8) : UInt16 := raw.toUInt16 + yearOffset

end Haidi
