import HaidiBms.Payloads

/-!
# Payload decoding and pagination metadata

The decoders carry no transaction state. A decoder that answers `false` in the source leaves its output untouched; here it answers `none`.
-/

namespace Haidi

/-- How a paginated reply is put back together; zero stands for a count or length that depends on the pack. -/
structure MultiFrameInfo where
  multi : Bool := false
  streaming : Bool := false
  frameBase : UInt8 := 0
  bytesPerFrame : UInt8 := 0
  frameCount : UInt8 := 0
  totalBytes : UInt8 := 0
  deriving DecidableEq

/-- The 0x64 end-of-stream sentinel. -/
def frameNoEnd : UInt8 := 0xFF

/-- Rounds `count` items up to whole frames of `perFrame` items each. -/
def framesFor (count perFrame maxFrames : UInt8) : UInt8 :=
  if count = 0 then 0
  else
    let frames := UInt8.ofNat ((count.toNat + perFrame.toNat - 1) / perFrame.toNat)
    if frames > maxFrames then maxFrames else frames

def cellVoltageFrames (cellCount : UInt8) : UInt8 := framesFor cellCount 3 16

def cellTemperatureFrames (tempCount : UInt8) : UInt8 := framesFor tempCount 7 3

def multiframeInfo (id : DataId) : MultiFrameInfo :=
  match id with
  | .manufacturerName => ⟨true, false, 1, 7, 3, 16⟩
  | .batteryName | .batterySerialNumber | .snSerialNumber => ⟨true, false, 1, 7, 5, 32⟩
  | .softwareVersion | .hardwareVersion => ⟨true, false, 0, 7, 2, 14⟩
  | .cellVoltages => ⟨true, false, 0, 6, 0, 0⟩
  | .cellTemperatures => ⟨true, false, 0, 7, 0, 0⟩
  | .faultRecords => ⟨true, true, 0, 7, 0, 0⟩
  | _ => {}

/-- No frame carries more than the seven bytes behind its counter, and none is counted from above one. -/
theorem multiframeInfo_le (id : DataId) :
    (multiframeInfo id).bytesPerFrame.toNat ≤ 7 ∧ (multiframeInfo id).frameBase.toNat ≤ 1 := by
  unfold multiframeInfo
  split <;> exact ⟨by decide, by decide⟩

/-! ### Single-frame decoders -/

def decodeAlarmThreshold (id : DataId) (data : DataBytes) : EventPayload :=
  match alarmClassOf id with
  | .current => .currentAlarmThreshold
      ⟨toCurrentDa (be16 data 0), be16 data 2, toCurrentDa (be16 data 4), be16 data 6⟩
  | .highTemperature | .lowTemperature => .tempAlarmThreshold
      ⟨toTemperatureC data[0], data[1], toTemperatureC data[2], data[3],
        toTemperatureC data[4], data[5], toTemperatureC data[6], data[7]⟩
  | _ => .alarmThreshold ⟨be16 data 0, be16 data 2, be16 data 4, be16 data 6⟩

def decodeSingle (id : DataId) (data : DataBytes) : Option EventPayload :=
  if isAlarmThresholdId id then some (decodeAlarmThreshold id data)
  else
    match id with
    | .capacityVoltage => some (.capacityVoltage ⟨be32 data 0, be32 data 4⟩)
    | .bmuCellTempCount => some (.bmuCellTempCount
        ⟨data[0], #v[data[1], data[2], data[3]], #v[data[4], data[5], data[6]], data[7]⟩)
    | .totalChargeDischargeAh => some (.totalChargeDischargeAh ⟨be32 data 0, be32 data 4⟩)
    | .batteryOperationMode => some (.batteryOperationMode
        ⟨data[0], data[1], toYear data[2], data[3], data[4], be16 data 5, data[7]⟩)
    | .firmwareIndex => some (.firmwareIndex ⟨data⟩)
    | .cellVoltageAlarm => some (.cellVoltageAlarm
        ⟨be16 data 0, be16 data 2, be16 data 4, be16 data 6⟩)
    | .totalVoltageAlarm => some (.totalVoltageAlarm
        ⟨be16 data 0, be16 data 2, be16 data 4, be16 data 6⟩)
    | .currentAlarm => some (.currentAlarm
        ⟨toCurrentDa (be16 data 0), toCurrentDa (be16 data 2),
          toCurrentDa (be16 data 4), toCurrentDa (be16 data 6)⟩)
    | .temperatureAlarm => some (.temperatureAlarm
        ⟨toTemperatureC data[0], toTemperatureC data[1], toTemperatureC data[2],
          toTemperatureC data[3], toTemperatureC data[4], toTemperatureC data[5],
          toTemperatureC data[6], toTemperatureC data[7]⟩)
    | .socAlarm => some (.socAlarm ⟨be16 data 0, be16 data 2, be16 data 4, be16 data 6⟩)
    | .differenceAlarm => some (.differenceAlarm
        ⟨be16 data 0, be16 data 2, data[4], data[5], #v[data[6], data[7]]⟩)
    | .balancingParams => some (.balancingParams
        ⟨be16 data 0, be16 data 2, #v[data[4], data[5], data[6], data[7]]⟩)
    | .currentParams => some (.currentParams
        ⟨be16 data 0, be16 data 2, #v[data[4], data[5], data[6], data[7]]⟩)
    | .batteryProductionDate | .rtc => some (.rtc
        ⟨toYear data[0], data[1], data[2], data[3], data[4], data[5], #v[data[6], data[7]]⟩)
    | .boardNumber => some (.boardNumber ⟨data[0], data[1]⟩)
    | .heatingTemperature => some (.heatingTemperature
        ⟨toTemperatureC data[0], toTemperatureC data[2], data[4]⟩)
    | .activeBalancingSwitch => some (.activeBalancingSwitch ⟨data[0] != 0⟩)
    | .activeBalancingParams => some (.activeBalancingParams ⟨data[0], be16 data 1⟩)
    | .inverterParams => some (.inverterParams ⟨data[0], data[1]⟩)
    | .totalVoltageCurrentSoc => some (.totalVoltageCurrentSoc
        ⟨be16 data 0, be16 data 2, toCurrentDa (be16 data 4), be16 data 6⟩)
    | .cellVoltageExtremes => some (.cellVoltageExtremes
        ⟨be16 data 0, data[2], be16 data 3, data[5], #v[data[6], data[7]]⟩)
    | .cellTemperatureExtremes => some (.cellTemperatureExtremes
        ⟨toTemperatureC data[0], data[1], toTemperatureC data[2], data[3],
          #v[data[4], data[5], data[6], data[7]]⟩)
    | .chargeDischargeMosStatus => some (.chargeDischargeMos
        ⟨data[0], data[1], data[2], data[3], be32 data 4⟩)
    | .statusInfo => some (.statusInfo
        ⟨data[0], data[1], data[2] != 0, data[3] != 0, data[4], be16 data 5,
          toTemperatureC data[7]⟩)
    | .cellBalancingBits => some (.cellBalancingBits ⟨data⟩)
    | .faultStatus => some (.faultStatus ⟨data⟩)
    | .balancingState => some (.balancingState
        ⟨data[0] != 0, toCurrentDa (be16 data 1), data[3]⟩)
    | .batteryStatus => some (.batteryStatus ⟨be16 data 0⟩)
    | .wakeupSource => some (.wakeupSource
        ⟨data[0] != 0, data[1] != 0, data[2] != 0, data[3] != 0, data[4] != 0⟩)
    | _ => none

/-! ### Paginated decoders

`buf` is what the source's pointer reaches, from the first payload byte to the end of the reassembly buffer. -/

/-- The byte at `i` of a buffer. -/
def byteAt (buf : List UInt8) (i : Nat) : UInt8 := buf.getD i 0

def rawBe16 (buf : List UInt8) (off : Nat) : UInt16 :=
  ((byteAt buf off).toUInt16 <<< 8) ||| (byteAt buf (off + 1)).toUInt16

def decodeMulti (id : DataId) (buf : List UInt8) (len : Nat) : Option EventPayload :=
  match id with
  | .manufacturerName | .batteryName | .batterySerialNumber | .snSerialNumber =>
      let n := if len > maxTextLen then maxTextLen else len
      some (.text ⟨UInt8.ofNat n, Vector.ofFn fun i => if i.val < n then byteAt buf i.val else 0⟩)
  | .softwareVersion | .hardwareVersion =>
      let n := if len > maxVersionLen then maxVersionLen else len
      some (.version
        ⟨UInt8.ofNat n, Vector.ofFn fun i => if i.val < n then byteAt buf i.val else 0⟩)
  | .cellVoltages =>
      let cells := if len / 2 > maxCells then maxCells else len / 2
      some (.cellVoltages ⟨UInt8.ofNat cells,
        Vector.ofFn fun i => if i.val < cells then rawBe16 buf (i.val * 2) else 0⟩)
  | .cellTemperatures =>
      let temps := if len > maxTemperatures then maxTemperatures else len
      some (.cellTemperatures ⟨UInt8.ofNat temps,
        Vector.ofFn fun i => if i.val < temps then toTemperatureC (byteAt buf i.val) else 0⟩)
  | _ => none

/-- The low byte of the sum of the first `n` bytes. -/
def sumBytes (buf : List UInt8) (n : Nat) : UInt8 :=
  (buf.take n).foldl (fun sum byte => sum + byte) 0

/-- One Table 1 fault record; the trailing sum is accepted over either range the document may mean. -/
def decodeFaultRecord (record : List UInt8) (len : Nat) : Option FaultRecord :=
  if len < faultRecordLen then none
  else some
    { year := toYear (byteAt record 0x00)
      month := byteAt record 0x01
      day := byteAt record 0x02
      hour := byteAt record 0x03
      minute := byteAt record 0x04
      second := byteAt record 0x05
      recordId := byteAt record 0x06
      occurred := byteAt record 0x07 != 0
      totalVoltageDv := rawBe16 record 0x08
      currentDa := toCurrentDa (rawBe16 record 0x0A)
      socPm := rawBe16 record 0x0C
      chargeMosOn := byteAt record 0x0E &&& 0x01 != 0
      dischargeMosOn := byteAt record 0x0E &&& 0x02 != 0
      highestCellMv := rawBe16 record 0x0F
      highestCellNumber := byteAt record 0x11
      lowestCellMv := rawBe16 record 0x12
      lowestCellNumber := byteAt record 0x14
      highestTempC := toTemperatureC (byteAt record 0x15)
      highestTempNumber := byteAt record 0x16
      lowestTempC := toTemperatureC (byteAt record 0x17)
      lowestTempNumber := byteAt record 0x18
      faultCode := byteAt record 0x19
      checksumOk := byteAt record 0x1A == sumBytes record 0x1A ||
        byteAt record 0x1A == sumBytes record 18 }

end Haidi
