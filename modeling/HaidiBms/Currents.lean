import HaidiBms.Records

/-!
# Currents and their bias

Every signed current on the wire is sixteen bits with a bias of 30000, and `toCurrentDa` puts the difference into sixteen signed bits. The wire reaches to 65535 and a signed word only to 32767, so the top 2768 wire values do not fit: they come out as discharges larger than any the wire can say. Below them the conversion is exact.
-/

namespace Haidi

/-- The signed currents of a payload, in the order of its fields. -/
def EventPayload.currents : EventPayload → List Int16
  | currentAlarm value =>
      [value.chargeOvercurrentL1Da, value.chargeOvercurrentL2Da,
        value.dischargeOvercurrentL1Da, value.dischargeOvercurrentL2Da]
  | currentAlarmThreshold value => [value.dischargeOvercurrentDa, value.chargeOvercurrentDa]
  | totalVoltageCurrentSoc value => [value.currentDa]
  | balancingState value => [value.currentDa]
  | faultRecord value => [value.currentDa]
  | _ => []

/-- Where a one-frame reply has them. -/
def currentOffsets (id : DataId) : List ℕ :=
  if id = 0x72 ∨ id = 0x7B ∨ id = 0x84 then [0, 4]
  else
    match id with
    | .currentAlarm => [0, 2, 4, 6]
    | .totalVoltageCurrentSoc => [4]
    | .balancingState => [1]
    | _ => []

/-- Where a fault record has its own. -/
def recordCurrentOffset : ℕ := 0x0A

/-- The wire values of a reply's currents. -/
def wireCurrents (id : DataId) (data : DataBytes) : List ℕ := (currentOffsets id).map (wordAt (byteAt data.toList))

/-- A wire value and the current some decoder makes of it. -/
inductive DecodesTo : ℕ → Int16 → Prop
  | reply {id : DataId} {data : DataBytes} {payload : EventPayload} {k wire : ℕ} {current : Int16}
      (hpayload : decodeSingle id data = some payload) (hwire : (wireCurrents id data)[k]? = some wire)
      (hcurrent : payload.currents[k]? = some current) : DecodesTo wire current
  | record {buf : List UInt8} {len : ℕ} {record : FaultRecord} (hrecord : decodeFaultRecord buf len = some record) :
      DecodesTo (wordAt (byteAt buf) recordCurrentOffset) record.currentDa

/-! ### One conversion -/

/-- The largest wire value that fits. -/
def maxWireCurrent : ℕ := 62767

theorem toInt_ofInt_eq_iff (n : ℤ) : (Int16.ofInt n).toInt = n ↔ -2 ^ 15 ≤ n ∧ n < 2 ^ 15 := by
  constructor
  · intro h
    have hle := Int16.le_toInt (Int16.ofInt n)
    have hlt := Int16.toInt_lt (Int16.ofInt n)
    rw [h] at hle hlt
    exact ⟨hle, hlt⟩
  · rintro ⟨hle, hlt⟩
    exact Int16.toInt_ofInt_of_le hle hlt

theorem toCurrentDa_eq_iff (raw : UInt16) :
    (toCurrentDa raw).toInt = raw.toNat - 30000 ↔ raw.toNat ≤ maxWireCurrent := by
  apply (toInt_ofInt_eq_iff _).trans
  have := raw.toNat_lt
  change -2 ^ 15 ≤ (raw.toNat : ℤ) - 30000 ∧ (raw.toNat : ℤ) - 30000 < 2 ^ 15 ↔ raw.toNat ≤ 62767
  omega

theorem toCurrentDa_wrapped {raw : UInt16} (h : maxWireCurrent < raw.toNat) :
    (toCurrentDa raw).toInt = raw.toNat - 30000 - 2 ^ 16 := by
  have hmod := toCurrentDa_mod raw
  have hraw := raw.toNat_lt
  have hle := Int16.le_toInt (toCurrentDa raw)
  have hlt := Int16.toInt_lt (toCurrentDa raw)
  change 62767 < raw.toNat at h
  rw [Int.ModEq] at hmod
  omega

theorem toCurrentDa_nonneg_iff (raw : UInt16) :
    (30000 ≤ raw.toNat → 0 ≤ (toCurrentDa raw).toInt) ↔ raw.toNat ≤ maxWireCurrent := by
  have hraw := raw.toNat_lt
  rcases Nat.lt_or_ge maxWireCurrent raw.toNat with h | h
  · have hwrapped := toCurrentDa_wrapped h
    change 62767 < raw.toNat at h
    change _ ↔ raw.toNat ≤ 62767
    omega
  · have hexact := (toCurrentDa_eq_iff raw).mpr h
    refine ⟨fun _ => h, fun _ => ?_⟩
    omega

/-- No smaller wire value reads as more than one that fits; zero reads as more than any that does not. -/
theorem toCurrentDa_mono_iff (raw : UInt16) :
    (∀ lower : UInt16, lower.toNat ≤ raw.toNat → (toCurrentDa lower).toInt ≤ (toCurrentDa raw).toInt) ↔
      raw.toNat ≤ maxWireCurrent := by
  constructor
  · intro hall
    by_contra h
    have hwrapped := toCurrentDa_wrapped (not_le.mp h)
    have hzero : (toCurrentDa 0).toInt = -30000 := by decide
    have := hall 0 (Nat.zero_le _)
    have := raw.toNat_lt
    omega
  · intro h lower hlower
    have hexact := (toCurrentDa_eq_iff raw).mpr h
    have hlow := (toCurrentDa_eq_iff lower).mpr (hlower.trans h)
    omega

/-! ### The decoders -/

theorem be16_eq_rawBe16 (data : DataBytes) (off : ℕ) (h : off + 1 < dataLen) :
    be16 data off h = rawBe16 data.toList off := by
  have hbyte : ∀ i (hi : i < dataLen), data[i] = byteAt data.toList i := by
    intro i hi
    simp [byteAt, List.getD_eq_getElem?_getD, hi]
  rw [be16, rawBe16, hbyte off (Nat.lt_of_succ_lt h), hbyte (off + 1) h]

theorem currentOffsets_alarm (id : DataId) (h : isAlarmThresholdId id = true) :
    currentOffsets id = if alarmClassOf id = AlarmClass.current then [0, 4] else [] := by
  have hall : ∀ n < 256, isAlarmThresholdId (UInt8.ofNat n) = true →
      currentOffsets (UInt8.ofNat n) = if alarmClassOf (UInt8.ofNat n) = AlarmClass.current then [0, 4] else [] := by
    decide +kernel
  have := hall id.toNat id.toNat_lt
  rw [UInt8.ofNat_toNat] at this
  exact this h

/-- The decoders read each current at its offset through the one conversion. -/
theorem decodeSingle_currents (id : DataId) (data : DataBytes) (payload : EventPayload)
    (h : decodeSingle id data = some payload) :
    payload.currents = (currentOffsets id).map fun off => toCurrentDa (rawBe16 data.toList off) := by
  unfold decodeSingle at h
  split at h
  case isTrue halarm =>
    obtain rfl := Option.some.inj h
    rw [currentOffsets_alarm id halarm]
    unfold decodeAlarmThreshold
    split
    case h_1 hclass =>
      rw [if_pos (show alarmClassOf id = AlarmClass.current from hclass)]
      simp only [EventPayload.currents, be16_eq_rawBe16]
      rfl
    case h_2 hclass =>
      rw [if_neg (show alarmClassOf id ≠ AlarmClass.current from hclass ▸ by decide)]
      rfl
    case h_3 hclass =>
      rw [if_neg (show alarmClassOf id ≠ AlarmClass.current from hclass ▸ by decide)]
      rfl
    case h_4 hclass _ _ =>
      rw [if_neg (show alarmClassOf id ≠ AlarmClass.current from hclass)]
      rfl
  case isFalse =>
    split at h
    all_goals
      cases h <;>
        (simp only [EventPayload.currents, be16_eq_rawBe16]
         rfl)

theorem rawBe16_word (buf : List UInt8) (off : ℕ) : (rawBe16 buf off).toNat = wordAt (byteAt buf) off :=
  rawBe16_toNat buf off

theorem DecodesTo.eq {wire : ℕ} {current : Int16} (h : DecodesTo wire current) :
    ∃ raw : UInt16, raw.toNat = wire ∧ current = toCurrentDa raw := by
  cases h with
  | @reply id data payload k wire current hpayload hwire hcurrent =>
      rw [wireCurrents, List.getElem?_map] at hwire
      rw [decodeSingle_currents id data payload hpayload, List.getElem?_map] at hcurrent
      obtain ⟨off, hoff, rfl⟩ := Option.map_eq_some_iff.mp hwire
      rw [hoff] at hcurrent
      exact ⟨rawBe16 data.toList off, rawBe16_word _ off, (Option.some.inj hcurrent).symm⟩
  | @record buf len record hrecord =>
      unfold decodeFaultRecord at hrecord
      split_ifs at hrecord
      obtain rfl := Option.some.inj hrecord
      exact ⟨rawBe16 buf recordCurrentOffset, rawBe16_word buf _, rfl⟩

theorem decodesTo_raw (raw : UInt16) : DecodesTo raw.toNat (toCurrentDa raw) := by
  have hraw := raw.toNat_lt
  let data : DataBytes := #v[0, 0, 0, 0, (raw >>> 8).toUInt8, raw.toUInt8, 0, 0]
  have hhigh : (raw >>> 8).toUInt8.toNat = raw.toNat / 256 := by
    rw [UInt16.toNat_toUInt8, UInt16.toNat_shiftRight]
    change raw.toNat >>> 8 % 2 ^ 8 = _
    rw [Nat.shiftRight_eq_div_pow]
    omega
  have hlow : raw.toUInt8.toNat = raw.toNat % 256 := UInt16.toNat_toUInt8 raw
  have hword : wordAt (byteAt data.toList) 4 = raw.toNat := by
    change (raw >>> 8).toUInt8.toNat * 256 + raw.toUInt8.toNat = raw.toNat
    rw [hhigh, hlow]
    omega
  have hread : rawBe16 data.toList 4 = raw := UInt16.toNat_inj.mp ((rawBe16_word _ 4).trans hword)
  have hcurrent : toCurrentDa (be16 data 4) = toCurrentDa raw :=
    congrArg toCurrentDa ((be16_eq_rawBe16 data 4 (by decide)).trans hread)
  exact @DecodesTo.reply .totalVoltageCurrentSoc data _ 0 _ _ rfl (congrArg some hword) (congrArg some hcurrent)

/-- Where currents are decoded without wrapping: for a reply, a record, and any one current of either. -/
theorem currents_exact_iff (id : DataId) (data : DataBytes) (buf : List UInt8) (len wire : ℕ) (current : Int16) :
    (∀ payload, decodeSingle id data = some payload →
      (payload.currents.map Int16.toInt = (wireCurrents id data).map (fun wire : ℕ => (wire : ℤ) - 30000) ↔
        ∀ wire ∈ wireCurrents id data, wire ≤ maxWireCurrent)) ∧
    (∀ record, decodeFaultRecord buf len = some record →
      (record.currentDa.toInt = wordAt (byteAt buf) recordCurrentOffset - 30000 ↔
        wordAt (byteAt buf) recordCurrentOffset ≤ maxWireCurrent)) ∧
    (DecodesTo wire current →
      ((∀ lower least, DecodesTo lower least → lower ≤ wire → least.toInt ≤ current.toInt) ↔ wire ≤ maxWireCurrent) ∧
        ((30000 ≤ wire → 0 ≤ current.toInt) ↔ wire ≤ maxWireCurrent)) := by
  refine ⟨?_, ?_, ?_⟩
  · intro payload hpayload
    rw [decodeSingle_currents id data payload hpayload, wireCurrents, List.map_map, List.map_map, List.map_inj_left,
      List.forall_mem_map]
    refine forall₂_congr fun off _ => ?_
    have hoff := toCurrentDa_eq_iff (rawBe16 data.toList off)
    rw [rawBe16_word] at hoff
    exact hoff
  · intro record hrecord
    obtain ⟨raw, hraw, hcurrent⟩ := (DecodesTo.record hrecord).eq
    rw [← hraw, hcurrent]
    exact toCurrentDa_eq_iff raw
  · intro h
    obtain ⟨raw, rfl, rfl⟩ := h.eq
    refine ⟨Iff.trans ?_ (toCurrentDa_mono_iff raw), toCurrentDa_nonneg_iff raw⟩
    constructor
    · exact fun hall lower hlower => hall _ _ (decodesTo_raw lower) hlower
    · intro hall lower least hleast hlower
      obtain ⟨low, rfl, rfl⟩ := hleast.eq
      exact hall low hlower

/-- The largest wire value of all, read as a discharge of 3000.1 A. -/
theorem current_wraps :
    let data : DataBytes := #v[0, 0, 0, 0, 0xFF, 0xFF, 0, 0]
    ∃ payload, decodeSingle .totalVoltageCurrentSoc data = some payload ∧
      payload.currents.map Int16.toInt = [-30001] ∧
      (wireCurrents .totalVoltageCurrentSoc data).map (fun wire : ℕ => (wire : ℤ) - 30000) = [35535] :=
  ⟨_, rfl, by decide, by decide⟩

/-- The largest wire value that fits, in a reply and in a record. -/
theorem currents_exact_iff_largest :
    let data : DataBytes := #v[1, 0xF5, 0x2F, 0, 0, 0, 0, 0]
    let buf : List UInt8 := [0, 0, 0, 0, 0, 0, 0, 0, 0, 0, 0xF5, 0x2F]
    ([(32767 : ℤ)] = (wireCurrents .balancingState data).map (fun wire : ℕ => (wire : ℤ) - 30000) ↔
        ∀ wire ∈ wireCurrents .balancingState data, wire ≤ maxWireCurrent) ∧
      ∃ record, decodeFaultRecord buf 27 = some record ∧
        (record.currentDa.toInt = wordAt (byteAt buf) recordCurrentOffset - 30000 ↔
          wordAt (byteAt buf) recordCurrentOffset ≤ maxWireCurrent) ∧
        ((30000 ≤ wordAt (byteAt buf) recordCurrentOffset → 0 ≤ record.currentDa.toInt) ↔
          wordAt (byteAt buf) recordCurrentOffset ≤ maxWireCurrent) :=
  ⟨(currents_exact_iff .balancingState #v[1, 0xF5, 0x2F, 0, 0, 0, 0, 0] [] 0 0 0).1 _ rfl, _, rfl,
    (currents_exact_iff 0 (Vector.replicate 8 0) _ 27 0 0).2.1 _ rfl,
    ((currents_exact_iff 0 (Vector.replicate 8 0) [] 0 _ _).2.2 (@DecodesTo.record _ 27 _ rfl)).2⟩

end Haidi
