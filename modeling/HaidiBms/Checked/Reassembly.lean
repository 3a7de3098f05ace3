import HaidiBms.Checked.Framer
import HaidiBms.Session.Counters

/-!
# Reassembly, checked

The bit tricks, the reassembly and record buffers, the window given to `decode_multi` and the decoders that read a buffer of the session, with every access, subtraction and shift checked and every loop given a bounded number of turns. They pass their checks while the counters of `seen_mask_` are among the first seventeen.
-/

namespace Haidi.Checked

open Guarded

/-! ### The bit tricks -/

def popcount32 (value : UInt32) : Option UInt8 := do
  let last ← whileLoop (fun s : UInt32 × UInt8 => some (s.1 != 0))
    (fun s => do return (s.1 &&& UInt32.ofNat (← subtract s.1.toNat 1), s.2 + 1)) 33 (value, 0)
  return last.2

def lowestFrameNo (mask : UInt32) : Option UInt8 := do
  let last ← whileLoop (fun s : UInt32 × UInt8 => some (s.1 &&& 1 == 0)) (fun s => some (s.1 >>> 1, s.2 + 1)) 33 (mask, 0)
  return last.2

def contiguousFrames (mask : UInt32) (base : UInt8) : Option UInt8 :=
  whileLoop (fun run : UInt8 => do return mask &&& (← shiftLeft 1 (base.toNat + run.toNat)) != 0)
    (fun run => some (run + 1)) 33 0

/-! ### The decoders -/

def rawBe16 {n : ℕ} (bytes : Vector UInt8 n) (off : ℕ) : Option UInt16 := do
  return ((← load bytes off).toUInt16 <<< 8) ||| (← load bytes (off + 1)).toUInt16

/-- The buffer is the reassembly buffer from `start` on. -/
def decodeMulti (id : DataId) (assembly : Vector UInt8 assemblyLen) (start len : ℕ) : Option (Option EventPayload) :=
  match id with
  | .manufacturerName | .batteryName | .batterySerialNumber | .snSerialNumber => do
      let n := if len > maxTextLen then maxTextLen else len
      let text ← copy (fun i => load assembly (start + i)) n (Vector.replicate maxTextLen 0)
      return some (.text ⟨UInt8.ofNat n, text⟩)
  | .softwareVersion | .hardwareVersion => do
      let n := if len > maxVersionLen then maxVersionLen else len
      let text ← copy (fun i => load assembly (start + i)) n (Vector.replicate maxVersionLen 0)
      return some (.version ⟨UInt8.ofNat n, text⟩)
  | .cellVoltages => do
      let cells := if len / 2 > maxCells then maxCells else len / 2
      let mv ← copy (fun i => rawBe16 assembly (start + i * 2)) cells (Vector.replicate maxCells 0)
      return some (.cellVoltages ⟨UInt8.ofNat cells, mv⟩)
  | .cellTemperatures => do
      let temps := if len > maxTemperatures then maxTemperatures else len
      let celsius ← copy (fun i => toTemperatureC <$> load assembly (start + i)) temps (Vector.replicate maxTemperatures 0)
      return some (.cellTemperatures ⟨UInt8.ofNat temps, celsius⟩)
  | _ => some none

def decodeFaultRecord (record : Vector UInt8 faultBufferLen) (len : ℕ) : Option (Option FaultRecord) :=
  if len < faultRecordLen then some none
  else do
    let sumAll ← sumFirst record 0x1A
    let sumDec ← sumFirst record 18
    return some
      { year := toYear (← load record 0x00)
        month := ← load record 0x01
        day := ← load record 0x02
        hour := ← load record 0x03
        minute := ← load record 0x04
        second := ← load record 0x05
        recordId := ← load record 0x06
        occurred := (← load record 0x07) != 0
        totalVoltageDv := ← rawBe16 record 0x08
        currentDa := toCurrentDa (← rawBe16 record 0x0A)
        socPm := ← rawBe16 record 0x0C
        chargeMosOn := (← load record 0x0E) &&& 0x01 != 0
        dischargeMosOn := (← load record 0x0E) &&& 0x02 != 0
        highestCellMv := ← rawBe16 record 0x0F
        highestCellNumber := ← load record 0x11
        lowestCellMv := ← rawBe16 record 0x12
        lowestCellNumber := ← load record 0x14
        highestTempC := toTemperatureC (← load record 0x15)
        highestTempNumber := ← load record 0x16
        lowestTempC := toTemperatureC (← load record 0x17)
        lowestTempNumber := ← load record 0x18
        faultCode := ← load record 0x19
        checksumOk := (← load record 0x1A) == sumAll || (← load record 0x1A) == sumDec }

/-! ### The buffers -/

def fileFrame (assembly : Vector UInt8 assemblyLen) (offset bytesPerFrame : ℕ) (data : DataBytes) :
    Option (Vector UInt8 assemblyLen) :=
  (List.range bytesPerFrame).foldlM (fun assembly i => do
    if offset + i < assemblyLen then store assembly (offset + i) (← load data (1 + i)) else return assembly) assembly

def appendRecord (record : Vector UInt8 faultBufferLen) (recordLen : ℕ) (data : DataBytes) :
    Option (Vector UInt8 faultBufferLen × ℕ) :=
  (List.range' 1 (dataLen - 1)).foldlM (fun filled i => do
    if filled.2 < faultBufferLen then return (← store filled.1 filled.2 (← load data i), filled.2 + 1)
    else return filled) (record, recordLen)

variable {capacity : ℕ+}

def payloadWindow (bms : HaidiBMS capacity) (id : DataId) : Option (ℕ × ℕ) := do
  let info := multiframeInfo id
  let base ← if bms.seenMask ≠ 0 then lowestFrameNo bms.seenMask else some info.frameBase
  let start := base.toNat * info.bytesPerFrame.toNat
  let run ← if bms.seenMask ≠ 0 then contiguousFrames bms.seenMask base else some 0
  let len := min (run.toNat * info.bytesPerFrame.toNat) (← subtract assemblyLen start)
  let len := min len maxReassemblyLen
  let len := if info.totalBytes ≠ 0 ∧ len > info.totalBytes.toNat then info.totalBytes.toNat else len
  if bms.expectedItems ≠ 0 then
    let nominal := if id = .cellVoltages then bms.expectedItems.toNat * 2 else bms.expectedItems.toNat
    return (start, min len nominal)
  else return (start, len)

def collect (bms : HaidiBMS capacity) (id : DataId) (data : DataBytes) : Option (HaidiBMS capacity) := do
  let info := multiframeInfo id
  let frameNo := getElem data 0 byte0_lt
  let assembly ← fileFrame bms.assembly (frameNo.toNat * info.bytesPerFrame.toNat) info.bytesPerFrame.toNat data
  let bit ← shiftLeft 1 frameNo.toNat
  let bms := { bms with assembly }
  if bms.seenMask &&& bit = 0 then
    let framesSeen ← popcount32 (bms.seenMask ||| bit)
    return { bms with seenMask := bms.seenMask ||| bit, framesSeen }
  else return bms

def fileStream (bms : HaidiBMS capacity) (data : DataBytes) : Option (HaidiBMS capacity) := do
  let filled ← appendRecord bms.record bms.recordLen data
  return { bms with record := filled.1, recordLen := filled.2, framesSeen := bms.framesSeen + 1 }

/-! ### Every check passes -/

/-- A counter that stays below a byte. -/
theorem toNat_succ {count : UInt8} (h : count.toNat < 255) : (count + 1).toNat = count.toNat + 1 := by
  rw [UInt8.toNat_add]
  exact Nat.mod_eq_of_lt (by change count.toNat + 1 < 256; omega)

theorem popcount32_eq (value : UInt32) : popcount32 value = some (Haidi.popcount32 value) := by
  have hcard := card_counters_le value
  refine whileLoop_bind (I := fun s => s.2.toNat + (counters s.1).card = (counters value).card) (t := fun s => s.1 != 0)
    (b := fun s => (s.1 &&& (s.1 - 1), s.2 + 1)) (fun s => (counters s.1).card) (fun _ _ => rfl) ?_ (Nat.zero_add _)
    (Nat.lt_succ_of_le hcard) ?_
  · rintro ⟨rest, bits⟩ hs hvalue
    dsimp only at hs hvalue ⊢
    rw [bne_iff_ne] at hvalue
    have hclear := card_counters_clear hvalue
    have hpos : 1 ≤ rest.toNat := Nat.one_le_iff_ne_zero.mpr (mt toNat_eq_zero.mp hvalue)
    have hle : (1 : UInt32) ≤ rest := UInt32.le_iff_toNat_le.mpr hpos
    have hpred : UInt32.ofNat (rest.toNat - 1) = rest - 1 := by
      rw [← UInt32.toNat_inj, UInt32.toNat_sub_of_le _ _ hle]
      exact UInt32.toNat_ofNat_of_lt' ((Nat.sub_le _ _).trans_lt rest.toNat_lt)
    rw [subtract_eq hpos, ← hpred]
    rw [← hpred] at hclear
    refine ⟨rfl, ?_, ?_⟩
    · dsimp only
      rw [toNat_succ (by omega)]
      omega
    · dsimp only
      omega
  · intro last hcount hzero
    rw [bne_eq_false_iff_eq] at hzero
    rw [hzero, counters_eq_empty.mpr rfl] at hcount
    exact congrArg some (UInt8.toNat_inj.mp (hcount.trans (popcount32_toNat value).symm))

theorem exists_isLeast {mask : UInt32} (h : mask ≠ 0) : ∃ least, IsLeast (counters mask : Set ℕ) least := by
  have hnonempty := counters_nonempty.mpr h
  exact ⟨_, Finset.isLeast_min' _ hnonempty⟩

theorem lowestFrameNo_eq {mask : UInt32} (h : mask ≠ 0) : lowestFrameNo mask = some (Haidi.lowestFrameNo mask) := by
  obtain ⟨least, hleast⟩ := exists_isLeast h
  have hlt : least < 32 := Finset.mem_range.mp (counters_subset mask hleast.1)
  refine whileLoop_bind
    (I := fun s => ∃ left, IsLeast (counters s.1 : Set ℕ) left ∧ s.2.toNat + left = least) (t := fun s => s.1 &&& 1 == 0)
    (b := fun s => (s.1 >>> 1, s.2 + 1)) (fun s => least - s.2.toNat) (fun _ _ => rfl) ?_ ⟨least, hleast, Nat.zero_add _⟩
    (by change least - 0 < 33; omega) ?_
  · rintro ⟨rest, index⟩ ⟨left, hleft, hsum⟩ hzero
    obtain ⟨left', rfl, hleft'⟩ := isLeast_shift (eq_of_beq hzero) hleft
    have hnext : (index + 1).toNat = index.toNat + 1 := toNat_succ (by dsimp only at hsum; omega)
    dsimp only at hsum ⊢
    exact ⟨rfl, ⟨left', hleft', by rw [hnext]; omega⟩, by rw [hnext]; omega⟩
  · rintro ⟨rest, index⟩ ⟨left, hleft, hsum⟩ hone
    have hzero : left ≤ 0 := hleft.2 (not_not.mp (mt and_one_eq_zero.mpr (ne_of_beq_false hone)))
    refine congrArg some (UInt8.toNat_inj.mp ?_)
    rw [lowestFrameNo_toNat hleast]
    dsimp only at hsum ⊢
    omega

theorem contiguousFrames_eq {mask : UInt32} {base : UInt8} {run : ℕ} (hrun : IsRun (counters mask) base.toNat run)
    (hlt : base.toNat + run < 32) : contiguousFrames mask base = some (Haidi.contiguousFrames mask base) := by
  refine whileLoop_eq (I := fun done : UInt8 => done.toNat ≤ run)
    (t := fun done => mask &&& 1 <<< UInt32.ofNat (base.toNat + done.toNat) != 0) (b := fun done => done + 1)
    (fun done => run - done.toNat) ?_ ?_ (show (0 : UInt8).toNat ≤ run from Nat.zero_le run)
    (show run - 0 < 33 by omega) ?_
  · intro done hdone
    rw [shiftLeft_eq 1 (by omega)]
    rfl
  · intro done hdone hbit
    have hmem := not_not.mp (mt (and_bit_eq_zero (by omega)).mpr (bne_iff_ne.mp hbit))
    have hne : done.toNat ≠ run := fun h => hrun.stop (h ▸ hmem)
    have hnext : (done + 1).toNat = done.toNat + 1 := toNat_succ (by omega)
    exact ⟨rfl, by rw [hnext]; omega, by rw [hnext]; omega⟩
  · intro done hdone hbit
    refine UInt8.toNat_inj.mp ?_
    rw [contiguousFrames_toNat hrun hlt]
    by_contra hne
    exact (and_bit_eq_zero (by omega)).mp (bne_eq_false_iff_eq.mp hbit) (hrun.mem _ (by omega))

-- With all thirty-two bits set the loop would shift by the width.
example : contiguousFrames 0xFFFFFFFF 0 = none := by decide +kernel

theorem load_drop {n start i : ℕ} (bytes : Vector UInt8 n) (h : start + i < n) :
    load bytes (start + i) = some (byteAt (bytes.toList.drop start) i) := by
  have hlt : start + i < bytes.toList.length := by
    rw [Vector.length_toList]
    exact h
  rw [load_get bytes h, byteAt, List.getD_eq_getElem?_getD, List.getElem?_drop, List.getElem?_eq_getElem hlt,
    Vector.getElem_toList, Option.getD_some]

theorem load_byte {n i : ℕ} (bytes : Vector UInt8 n) (h : i < n) : load bytes i = some (byteAt bytes.toList i) := by
  have := load_drop bytes (show 0 + i < n by omega)
  rwa [Nat.zero_add] at this

theorem rawBe16_drop {n start off : ℕ} (bytes : Vector UInt8 n) (h : start + off + 1 < n) :
    rawBe16 bytes (start + off) = some (Haidi.rawBe16 (bytes.toList.drop start) off) := by
  rw [rawBe16, load_drop bytes (Nat.lt_of_succ_lt h), Nat.add_assoc, load_drop bytes (Nat.add_assoc start off 1 ▸ h)]
  rfl

theorem rawBe16_eq {n off : ℕ} (bytes : Vector UInt8 n) (h : off + 1 < n) :
    rawBe16 bytes off = some (Haidi.rawBe16 bytes.toList off) := by
  have := rawBe16_drop bytes (show 0 + off + 1 < n by omega)
  rwa [Nat.zero_add] at this

/-- The characters copied to a text. -/
theorem copy_text (assembly : Vector UInt8 assemblyLen) {start len most : ℕ} (h : start + len ≤ assemblyLen) :
    copy (fun i => load assembly (start + i)) (if len > most then most else len) (Vector.replicate most 0) =
      some (Vector.ofFn fun i =>
        if i.val < (if len > most then most else len) then byteAt (assembly.toList.drop start) i.val else 0) :=
  copy_replicate 0 (by split_ifs <;> omega) fun i hi => load_drop assembly (by split_ifs at hi <;> omega)

theorem copy_cells (assembly : Vector UInt8 assemblyLen) {start len most : ℕ} (h : start + len ≤ assemblyLen) :
    copy (fun i => rawBe16 assembly (start + i * 2)) (if len / 2 > most then most else len / 2) (Vector.replicate most 0) =
      some (Vector.ofFn fun i => if i.val < (if len / 2 > most then most else len / 2) then
        Haidi.rawBe16 (assembly.toList.drop start) (i.val * 2) else 0) :=
  copy_replicate 0 (by split_ifs <;> omega) fun i hi => rawBe16_drop assembly (by split_ifs at hi <;> omega)

theorem copy_temps (assembly : Vector UInt8 assemblyLen) {start len most : ℕ} (h : start + len ≤ assemblyLen) :
    copy (fun i => toTemperatureC <$> load assembly (start + i)) (if len > most then most else len) (Vector.replicate most 0) =
      some (Vector.ofFn fun i => if i.val < (if len > most then most else len) then
        toTemperatureC (byteAt (assembly.toList.drop start) i.val) else 0) :=
  copy_replicate 0 (by split_ifs <;> omega) fun i hi =>
    congrArg (toTemperatureC <$> ·) (load_drop assembly (by split_ifs at hi <;> omega))

theorem decodeMulti_eq (id : DataId) (assembly : Vector UInt8 assemblyLen) {start len : ℕ} (h : start + len ≤ assemblyLen) :
    decodeMulti id assembly start len = some (Haidi.decodeMulti id (assembly.toList.drop start) len) := by
  unfold decodeMulti
  dsimp only
  rw [copy_text assembly h, copy_text assembly h, copy_cells assembly h, copy_temps assembly h]
  split
  case h_9 =>
    cases hdecoded : Haidi.decodeMulti id (assembly.toList.drop start) len with
    | none => rfl
    | some payload =>
        unfold Haidi.decodeMulti at hdecoded
        split at hdecoded <;> contradiction
  all_goals rfl

theorem decodeFaultRecord_eq (record : Vector UInt8 faultBufferLen) (len : ℕ) :
    decodeFaultRecord record len = some (Haidi.decodeFaultRecord record.toList len) := by
  unfold decodeFaultRecord Haidi.decodeFaultRecord
  split_ifs with hlen
  · rfl
  · rw [sumFirst_eq record (by decide : 0x1A ≤ faultBufferLen), sumFirst_eq record (by decide : 18 ≤ faultBufferLen)]
    simp (disch := decide) only [load_byte, rawBe16_eq]
    rfl

theorem fileFrame_eq (assembly : Vector UInt8 assemblyLen) (offset : ℕ) {bytesPerFrame : ℕ} (data : DataBytes)
    (h : bytesPerFrame < dataLen) :
    fileFrame assembly offset bytesPerFrame data = some (Haidi.fileFrame assembly offset bytesPerFrame data) := by
  refine foldlM_eq (fun assembly i hi => ?_) assembly
  have hlt : 1 + i < dataLen := by
    have := List.mem_range.mp hi
    omega
  split_ifs with hoffset
  · rw [load_eq data hlt 0]
    exact store_eq assembly hoffset _
  · rfl

theorem appendRecord_eq (record : Vector UInt8 faultBufferLen) (recordLen : ℕ) (data : DataBytes) :
    appendRecord record recordLen data = some (Haidi.appendRecord record recordLen data) := by
  refine foldlM_eq (fun filled i hi => ?_) (record, recordLen)
  have hlt : i < dataLen := by
    have := List.mem_range'_1.mp hi
    change 1 ≤ i ∧ i < 1 + (8 - 1) at this
    change i < 8
    omega
  split_ifs with hroom
  · rw [load_eq data hlt 0]
    exact congrArg (· >>= fun record => some (record, filled.2 + 1)) (store_eq filled.1 hroom _)
  · rfl

/-- Only the counters a bounded reply may carry have been seen. -/
def Narrow (mask : UInt32) : Prop := mask.toNat < 2 ^ (maxFrameIndex.toNat + 1)

theorem narrow_zero : Narrow 0 := Nat.two_pow_pos _

theorem Narrow.le {mask : UInt32} (h : Narrow mask) {counter : ℕ} (hmem : counter ∈ counters mask) : counter ≤ 16 :=
  Nat.le_of_lt_succ (Finset.mem_range.mp (BitMask.members_subset_range h hmem))

theorem Narrow.or_bit {mask : UInt32} (h : Narrow mask) {counter : ℕ} (hcounter : counter ≤ 16) :
    Narrow (mask ||| 1 <<< UInt32.ofNat counter) := by
  rw [Narrow, UInt32.toNat_or, toNat_bit (by omega)]
  exact Nat.or_lt_two_pow h (Nat.pow_lt_pow_right (by decide) (Nat.lt_succ_of_le hcounter))

section

variable {bms : HaidiBMS capacity}

/-- The counter a reply is taken to begin at. -/
theorem base_le (h : Narrow bms.seenMask) (id : DataId) :
    (if bms.seenMask ≠ 0 then Haidi.lowestFrameNo bms.seenMask else (multiframeInfo id).frameBase).toNat ≤ 16 := by
  split_ifs with hseen
  · obtain ⟨least, hleast⟩ := exists_isLeast hseen
    rw [lowestFrameNo_toNat hleast]
    exact h.le hleast.1
  · exact (multiframeInfo_le id).2.trans (by decide)

theorem start_le (h : Narrow bms.seenMask) (id : DataId) :
    (if bms.seenMask ≠ 0 then Haidi.lowestFrameNo bms.seenMask else (multiframeInfo id).frameBase).toNat *
      (multiframeInfo id).bytesPerFrame.toNat ≤ 16 * 7 :=
  Nat.mul_le_mul (base_le h id) (multiframeInfo_le id).1

/-- The window lies inside the reassembly buffer. -/
theorem payloadWindow_le (h : Narrow bms.seenMask) (id : DataId) :
    (Haidi.payloadWindow bms id).1 + (Haidi.payloadWindow bms id).2 ≤ assemblyLen := by
  have hstart := start_le h id
  unfold Haidi.payloadWindow
  dsimp only
  generalize (if bms.seenMask ≠ 0 then Haidi.lowestFrameNo bms.seenMask else (multiframeInfo id).frameBase).toNat *
    (multiframeInfo id).bytesPerFrame.toNat = start at hstart ⊢
  change _ ≤ 119
  split_ifs <;> dsimp only [assemblyLen] at * <;> omega

/-- The unbroken run of frames ends where no counter is left. -/
theorem contiguousFrames_narrow {mask : UInt32} (h : Narrow mask) (hseen : mask ≠ 0) :
    contiguousFrames mask (Haidi.lowestFrameNo mask) = some (Haidi.contiguousFrames mask (Haidi.lowestFrameNo mask)) := by
  obtain ⟨least, hleast⟩ := exists_isLeast hseen
  obtain ⟨run, hrun⟩ := exists_run (counters mask) least
  rw [← lowestFrameNo_toNat hleast] at hrun
  refine contiguousFrames_eq hrun ?_
  rw [lowestFrameNo_toNat hleast] at hrun ⊢
  cases run with
  | zero => exact absurd hleast.1 hrun.stop
  | succ run =>
      have := h.le (hrun.mem run (Nat.lt_succ_self run))
      omega

theorem payloadWindow_eq (h : Narrow bms.seenMask) (id : DataId) :
    payloadWindow bms id = some (Haidi.payloadWindow bms id) := by
  have hstart := start_le h id
  unfold payloadWindow Haidi.payloadWindow
  by_cases hseen : bms.seenMask ≠ 0
  · simp only [if_pos hseen] at hstart ⊢
    rw [lowestFrameNo_eq hseen]
    dsimp only [Option.bind_eq_bind, Option.bind_some]
    rw [contiguousFrames_narrow h hseen, subtract_eq (hstart.trans (by decide))]
    dsimp only [Option.bind_some]
    split_ifs <;> rfl
  · simp only [if_neg hseen] at hstart ⊢
    dsimp only [Option.bind_eq_bind, Option.bind_some]
    rw [subtract_eq (hstart.trans (by decide))]
    dsimp only [Option.bind_some]
    split_ifs <;> rfl

theorem counter_le {data : DataBytes} (h : ¬ data[0] > maxFrameIndex) : data[0].toNat ≤ 16 :=
  UInt8.le_iff_toNat_le.mp (UInt8.not_lt.mp h)

theorem collect_eq (id : DataId) (data : DataBytes) (hrange : ¬ data[0] > maxFrameIndex) :
    collect bms id data = some (Haidi.collect bms id data) := by
  have hcounter := counter_le hrange
  unfold collect Haidi.collect
  dsimp only
  rw [fileFrame_eq _ _ data (Nat.lt_succ_of_le (multiframeInfo_le id).1), shiftLeft_eq 1 (show data[0].toNat < 32 by omega)]
  dsimp only [Option.bind_eq_bind, Option.bind_some]
  rw [popcount32_eq]
  split_ifs <;> rfl

theorem collect_narrow (h : Narrow bms.seenMask) (id : DataId) (data : DataBytes) (hrange : ¬ data[0] > maxFrameIndex) :
    Narrow (Haidi.collect bms id data).seenMask := by
  unfold Haidi.collect
  dsimp only
  split_ifs
  · exact h.or_bit (counter_le hrange)
  · exact h

theorem fileStream_eq (data : DataBytes) : fileStream bms data = some (Haidi.fileStream bms data) := by
  rw [fileStream, appendRecord_eq]
  rfl

end

end Haidi.Checked
