import Mathlib.Data.Nat.Bitwise
import HaidiBms.Decode

/-!
# The fault record as documented

`Documents` says of each field of a record what Table 1 has in its place: plain arithmetic on the bytes, with offsets, scales and the two ranges the trailing sum may be taken over. The decoder gives the record that the bytes document.
-/

namespace Haidi

/-- The big-endian number at an offset. -/
def wordAt (byte : ℕ → UInt8) (offset : ℕ) : ℕ := (byte offset).toNat * 256 + (byte (offset + 1)).toNat

/-- The sum of the first bytes. -/
def sumTo (byte : ℕ → UInt8) (n : ℕ) : ℕ := ((List.range n).map fun i => (byte i).toNat).sum

structure Documents (byte : ℕ → UInt8) (record : FaultRecord) : Prop where
  year : record.year.toNat = 2000 + (byte 0x00).toNat
  month : record.month = byte 0x01
  day : record.day = byte 0x02
  hour : record.hour = byte 0x03
  minute : record.minute = byte 0x04
  second : record.second = byte 0x05
  recordId : record.recordId = byte 0x06
  occurred : record.occurred = true ↔ byte 0x07 ≠ 0
  totalVoltageDv : record.totalVoltageDv.toNat = wordAt byte 0x08
  /-- The current is told modulo `2 ^ 16`. -/
  currentDa : record.currentDa.toInt ≡ wordAt byte 0x0A - 30000 [ZMOD 2 ^ 16]
  socPm : record.socPm.toNat = wordAt byte 0x0C
  chargeMosOn : record.chargeMosOn = (byte 0x0E).toNat.testBit 0
  dischargeMosOn : record.dischargeMosOn = (byte 0x0E).toNat.testBit 1
  highestCellMv : record.highestCellMv.toNat = wordAt byte 0x0F
  highestCellNumber : record.highestCellNumber = byte 0x11
  lowestCellMv : record.lowestCellMv.toNat = wordAt byte 0x12
  lowestCellNumber : record.lowestCellNumber = byte 0x14
  highestTempC : record.highestTempC.toInt = (byte 0x15).toNat - 40
  highestTempNumber : record.highestTempNumber = byte 0x16
  lowestTempC : record.lowestTempC.toInt = (byte 0x17).toNat - 40
  lowestTempNumber : record.lowestTempNumber = byte 0x18
  faultCode : record.faultCode = byte 0x19
  checksumOk : record.checksumOk = true ↔
    (byte 0x1A).toNat ≡ sumTo byte 0x1A [MOD 256] ∨ (byte 0x1A).toNat ≡ sumTo byte 18 [MOD 256]

theorem rawBe16_toNat (buf : List UInt8) (off : Nat) :
    (rawBe16 buf off).toNat = (byteAt buf off).toNat * 256 + (byteAt buf (off + 1)).toNat := by
  have hhigh := (byteAt buf off).toNat_lt
  have hlow := (byteAt buf (off + 1)).toNat_lt
  have hshift : (byteAt buf off).toNat <<< 8 = (byteAt buf off).toNat * 256 := Nat.shiftLeft_eq _ 8
  rw [rawBe16, UInt16.toNat_or, UInt16.toNat_shiftLeft, UInt8.toNat_toUInt16, UInt8.toNat_toUInt16]
  change (byteAt buf off).toNat <<< 8 % 2 ^ 16 ||| _ = _
  rw [Nat.mod_eq_of_lt (by rw [hshift]; omega), ← Nat.shiftLeft_add_eq_or_of_lt (by simpa using hlow), hshift]

theorem toCurrentDa_mod (raw : UInt16) : (toCurrentDa raw).toInt ≡ raw.toNat - 30000 [ZMOD 2 ^ 16] := by
  rw [toCurrentDa, Int16.toInt_ofInt]
  exact Int.bmod_emod

theorem toTemperatureC_toInt (raw : UInt8) : (toTemperatureC raw).toInt = raw.toNat - 40 := by
  have := raw.toNat_lt
  exact Int16.toInt_ofInt_of_le (by change -32768 ≤ (raw.toNat : Int) - 40; omega)
    (by change (raw.toNat : Int) - 40 < 32768; omega)

theorem toYear_toNat (raw : UInt8) : (toYear raw).toNat = 2000 + raw.toNat := by
  have := raw.toNat_lt
  rw [toYear, UInt16.toNat_add, UInt8.toNat_toUInt16, Nat.add_comm]
  exact Nat.mod_eq_of_lt (by change 2000 + _ < 2 ^ 16; omega)

theorem foldl_sum_toNat (bytes : List UInt8) (start : UInt8) :
    (bytes.foldl (fun sum byte => sum + byte) start).toNat = (start.toNat + (bytes.map UInt8.toNat).sum) % 256 := by
  induction bytes generalizing start with
  | nil => exact (Nat.mod_eq_of_lt start.toNat_lt).symm
  | cons byte rest ih =>
      rw [List.foldl_cons, ih, UInt8.toNat_add, List.map_cons, List.sum_cons]
      omega

theorem sumBytes_toNat (buf : List UInt8) (n : Nat) (h : n ≤ buf.length) :
    (sumBytes buf n).toNat = sumTo (byteAt buf) n % 256 := by
  have hbytes : (buf.take n).map UInt8.toNat = (List.range n).map fun i => (byteAt buf i).toNat := by
    refine List.ext_getElem (by simpa using h) fun i hi hj => ?_
    have hlt : i < buf.length := by simp at hi; omega
    simp [byteAt, hlt]
  rw [sumBytes, foldl_sum_toNat, hbytes, sumTo]
  exact congrArg (· % 256) (Nat.zero_add _)

theorem and_bit_ne_zero (byte : UInt8) {bit : UInt8} {i : ℕ} (hbit : bit.toNat = 2 ^ i) :
    (byte &&& bit != 0) = byte.toNat.testBit i := by
  have hand : (byte &&& bit).toNat = (byte.toNat.testBit i).toNat * 2 ^ i := by
    rw [UInt8.toNat_and, hbit, Nat.and_two_pow]
  rw [Bool.eq_iff_iff, bne_iff_ne, ne_eq, ← UInt8.toNat_inj, hand]
  cases byte.toNat.testBit i <;> simp

/-- The trailing byte matches a sum. -/
theorem beq_sumBytes (byte : UInt8) (buf : List UInt8) (n : Nat) (h : n ≤ buf.length) :
    (byte == sumBytes buf n) = true ↔ byte.toNat ≡ sumTo (byteAt buf) n [MOD 256] := by
  rw [beq_iff_eq, ← UInt8.toNat_inj, sumBytes_toNat buf n h, Nat.ModEq, Nat.mod_eq_of_lt byte.toNat_lt]

/-- Whatever bytes fill the buffer, they are decoded to the record they document. -/
theorem decodeFaultRecord_documents (buf : List UInt8) (len : Nat) (hlen : faultRecordLen ≤ len)
    (hbuf : faultRecordLen ≤ buf.length) :
    ∃ record, decodeFaultRecord buf len = some record ∧ Documents (byteAt buf) record := by
  refine ⟨_, if_neg (Nat.not_lt.mpr hlen), ?_⟩
  exact
    { year := toYear_toNat _
      month := rfl
      day := rfl
      hour := rfl
      minute := rfl
      second := rfl
      recordId := rfl
      occurred := bne_iff_ne
      totalVoltageDv := rawBe16_toNat _ _
      currentDa := (toCurrentDa_mod _).trans (by rw [rawBe16_toNat]; rfl)
      socPm := rawBe16_toNat _ _
      chargeMosOn := and_bit_ne_zero _ rfl
      dischargeMosOn := and_bit_ne_zero _ rfl
      highestCellMv := rawBe16_toNat _ _
      highestCellNumber := rfl
      lowestCellMv := rawBe16_toNat _ _
      lowestCellNumber := rfl
      highestTempC := toTemperatureC_toInt _
      highestTempNumber := rfl
      lowestTempC := toTemperatureC_toInt _
      lowestTempNumber := rfl
      faultCode := rfl
      checksumOk := by
        rw [Bool.or_eq_true, beq_sumBytes _ _ _ ((by decide : 0x1A ≤ faultRecordLen).trans hbuf),
          beq_sumBytes _ _ _ ((by decide : 18 ≤ faultRecordLen).trans hbuf)] }

end Haidi
