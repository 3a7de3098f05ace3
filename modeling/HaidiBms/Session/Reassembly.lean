import HaidiBms.Records
import HaidiBms.Session.Counters
import HaidiBms.Session.Feeding
import HaidiBms.Lib.Pages

/-!
# Putting a paginated reply back together

A pack answers a paginated request with its payload cut into pages, one a frame, each under a counter. `PagedReply` is such an answer, whatever base it numbers from. `Collecting` says what the session holds of one after some of its frames have arrived, and `finishMulti_delivers` what it makes of them.
-/

namespace Haidi

open Pages

/-! ### What the pack sends -/

/-- How many bytes of payload a frame of the reply carries: seven, or three words. -/
def pageWidth (id : DataId) : Nat := if id = .cellVoltages then 6 else 7

/-- How many bytes a reported value takes. -/
def itemBytes (id : DataId) : Nat := if id = .cellVoltages then 2 else 1

/-- The most bytes a reply can be taken to carry: what the decoders take, the command's total if it has one, and the items if their number is known. -/
def payloadLimit (id : DataId) (items : Nat) : Nat :=
  let total := (multiframeInfo id).totalBytes.toNat
  min maxReassemblyLen
    (min (if total = 0 then maxReassemblyLen else total) (if items = 0 then maxReassemblyLen else items * itemBytes id))

/-- The payload lengths of the paginated commands. -/
def Nominal (id : DataId) (length : Nat) : Prop :=
  match id with
  | .manufacturerName => length = 16
  | .batteryName | .batterySerialNumber | .snSerialNumber => length = 32
  | .softwareVersion | .hardwareVersion => length = 14
  | .cellVoltages => 2 ∣ length ∧ 2 ≤ length ∧ length ≤ maxCells * 2
  | .cellTemperatures => 1 ≤ length ∧ length ≤ maxTemperatures
  | _ => False

/-- The value at position `i` of a payload: a character, a word or a temperature. -/
def valueAt (id : DataId) (payload : Nat → UInt8) (i : Nat) : Int :=
  match id with
  | .cellVoltages => (payload (i * 2)).toNat * 256 + (payload (i * 2 + 1)).toNat
  | .cellTemperatures => (payload i).toNat - 40
  | _ => (payload i).toNat

/-- How many values a frame carries. -/
def pageItems (id : DataId) : Nat := pageWidth id / itemBytes id

/-- The values an event reports for a paginated command. -/
def reported (id : DataId) (payload : EventPayload) : Option (List Int) :=
  match id, payload with
  | .manufacturerName, .text value | .batteryName, .text value | .batterySerialNumber, .text value
  | .snSerialNumber, .text value => some ((value.text.toList.take value.len.toNat).map fun c => (c.toNat : Int))
  | .softwareVersion, .version value | .hardwareVersion, .version value =>
      some ((value.text.toList.take value.len.toNat).map fun c => (c.toNat : Int))
  | .cellVoltages, .cellVoltages value =>
      some ((value.mv.toList.take value.count.toNat).map fun mv => (mv.toNat : Int))
  | .cellTemperatures, .cellTemperatures value =>
      some ((value.celsius.toList.take value.count.toNat).map Int16.toInt)
  | _, _ => none

/-- A pack's answer to a paginated command. -/
structure PagedReply where
  id : DataId
  payload : List UInt8
  /-- The counter of the first frame. -/
  base : Nat
  nominal : Nominal id payload.length
  fits : base + needed payload.length (pageWidth id) ≤ 17

namespace PagedReply

variable (reply : PagedReply)

/-- How many frames the pack sends. -/
def frames : Nat := needed reply.payload.length (pageWidth reply.id)

/-- How many values the payload carries. -/
def count : Nat := reply.payload.length / itemBytes reply.id

/-- The values the pack sent. -/
def values : List Int := (List.range reply.count).map (valueAt reply.id fun i => byteAt reply.payload i)

/-- The frame is one of the reply's: from the pack, under the command's Data ID, with the page its counter names; what stands past the payload's end is anything. -/
structure Sends (address : UInt8) (frame : MessageBytes) : Prop where
  address : frame[msgAddressIndex] = address
  id : frame[msgDataIdIndex] = reply.id
  first : reply.base ≤ (dataOf frame)[0].toNat
  last : (dataOf frame)[0].toNat < reply.base + reply.frames
  shows : Shows reply.payload (pageWidth reply.id) ((dataOf frame)[0].toNat - reply.base) fun i =>
    (dataOf frame).getD (1 + i) 0

/-- All the frames are there. -/
def Complete (arrived : Finset ℕ) : Prop := ∀ counter, reply.base ≤ counter → counter < reply.base + reply.frames →
  counter ∈ arrived

instance (arrived : Finset ℕ) : Decidable (reply.Complete arrived) :=
  inferInstanceAs (Decidable (∀ counter, reply.base ≤ counter → counter < reply.base + reply.frames → counter ∈ arrived))

/-- The session knows how many cells or sensors the pack has: the count was passed, or a reply has told it. -/
def KnownTo {capacity : ℕ+} (bms : HaidiBMS capacity) : Prop :=
  match reply.id with
  | .cellVoltages =>
      (if bms.head.hint ≠ 0 then bms.head.hint else bms.cachedCellCount).toNat * 2 = reply.payload.length
  | .cellTemperatures =>
      (if bms.head.hint ≠ 0 then bms.head.hint else bms.cachedTempCount).toNat = reply.payload.length
  | _ => True

end PagedReply

/-- The counters some frames came under. -/
def numbers (frames : List MessageBytes) : Finset ℕ := (frames.map fun frame => (getElem (dataOf frame) 0 byte0_lt).toNat).toFinset

theorem numbers_append (frames more : List MessageBytes) : numbers (frames ++ more) = numbers frames ∪ numbers more := by
  rw [numbers, List.map_append, List.toFinset_append, numbers, numbers]

theorem numbers_concat (frames : List MessageBytes) (frame : MessageBytes) :
    numbers (frames ++ [frame]) = insert (dataOf frame)[0].toNat (numbers frames) := by
  rw [numbers_append, Finset.union_comm]
  rfl

/-- The page a frame carries. -/
def pageOf (frame : MessageBytes) (i : Nat) : UInt8 := (dataOf frame).getD (1 + i) 0

/-- The first page that has arrived and how many follow each other from it. -/
structure Stretch (arrived : Finset ℕ) (first run : Nat) : Prop where
  least : IsLeast (arrived : Set ℕ) first
  unbroken : IsRun arrived first run

/-- What the pack put at a position: its value, or past the payload's end what it padded one of these frames with, which is then its last. -/
def PagedReply.Carries (reply : PagedReply) (frames : List MessageBytes) (position : Nat) (value : Int) : Prop :=
  if position < reply.count then reply.values[position]? = some value
  else ∃ frame ∈ frames, (getElem (dataOf frame) 0 byte0_lt).toNat + 1 = reply.base + reply.frames ∧
    value = valueAt reply.id (pageOf frame) (position - (reply.frames - 1) * pageItems reply.id)

/-- The event reports what has arrived: as many values as there are items at most, from the first of these frames on, up to the first frame that is missing. They are the pack's up to the payload's end, and then its padding. -/
structure PagedReply.Delivers (reply : PagedReply) (taken : List MessageBytes) (event : Event) : Prop where
  id : event.id = reply.id
  kind : event.kind = .response
  frames : event.frames.toNat = (numbers taken).card
  values : ∃ values first run, reported reply.id event.payload = some values ∧ Stretch (numbers taken) first run ∧
    values.length = min (run * pageItems reply.id) reply.count ∧
      ∀ i value, values[i]? = some value →
        reply.Carries taken ((first - reply.base) * pageItems reply.id + i) value

/-! ### The commands -/

/-- What the session's table says of a paginated command agrees with what the pack sends. -/
structure Tabled (id : DataId) (length : Nat) : Prop where
  paginated : (multiframeInfo id).paginated
  width : (multiframeInfo id).bytesPerFrame.toNat = pageWidth id
  total : id = .cellVoltages ∨ id = .cellTemperatures ∨ (multiframeInfo id).totalBytes.toNat = length
  sized : id = .cellVoltages ∨ id = .cellTemperatures → (multiframeInfo id).totalBytes = 0
  frames : id = .cellVoltages ∨ id = .cellTemperatures ∨
    (multiframeInfo id).frameCount.toNat = needed length (pageWidth id)
  pos : 0 < length
  le : length ≤ maxReassemblyLen
  whole : itemBytes id ∣ length

theorem Nominal.tabled {id : DataId} {length : Nat} (h : Nominal id length) : Tabled id length := by
  unfold Nominal at h
  split at h
  case h_7 =>
    obtain ⟨hword, hpos, hle⟩ := h
    exact ⟨by decide, by decide, Or.inl rfl, by decide, Or.inl rfl, by omega, hle, hword⟩
  case h_8 =>
    obtain ⟨hpos, hle⟩ := h
    exact ⟨by decide, by decide, Or.inr (Or.inl rfl), by decide, Or.inr (Or.inl rfl), by omega,
      hle.trans (by decide), one_dvd length⟩
  case h_9 => exact h.elim
  all_goals
    subst h
    constructor <;> decide

/-! ### The reassembly buffer -/

/-- The buffer by address. -/
def memory (assembly : Vector UInt8 assemblyLen) (address : Nat) : UInt8 := assembly.getD address 0

theorem memory_set (assembly : Vector UInt8 assemblyLen) {i : Nat} (hi : i < assemblyLen) (byte : UInt8) :
    memory (assembly.setIfInBounds i byte) = Function.update (memory assembly) i byte := by
  funext address
  by_cases haddress : address < assemblyLen
  · rw [Function.update_apply, memory, memory, Vector.getD, Vector.getD]
    simp [haddress, Array.getElem_setIfInBounds, eq_comm]
  · rw [Function.update_of_ne (by omega), memory, memory, Vector.getD, Vector.getD]
    simp [haddress]

/-- Filing a frame writes its page. -/
theorem memory_fileFrame (assembly : Vector UInt8 assemblyLen) (offset width : Nat) (data : DataBytes)
    (hfit : offset + width ≤ assemblyLen) :
    memory (fileFrame assembly offset width data) =
      write (memory assembly) offset width fun i => data.getD (1 + i) 0 := by
  unfold fileFrame
  induction width with
  | zero => rw [write_zero]; rfl
  | succ width ih =>
      rw [List.range_succ, List.foldl_append, List.foldl_cons, List.foldl_nil, if_pos (by omega),
        memory_set _ (by omega), ih (by omega), write_succ]

/-! ### A reply in the session -/

/-- How many frames the session waits for, and how many values it will report at most, are the pack's. -/
structure Expects {capacity : ℕ+} (reply : PagedReply) (bms : HaidiBMS capacity) : Prop where
  frames : bms.expectedFrames.toNat = reply.frames
  cells : reply.id = .cellVoltages → bms.expectedItems.toNat * 2 = reply.payload.length
  sensors : reply.id = .cellTemperatures → bms.expectedItems.toNat = reply.payload.length
  others : reply.id ≠ .cellVoltages → reply.id ≠ .cellTemperatures → bms.expectedItems = 0

/-- The request `req` is in flight, and these frames of its reply have come. -/
structure Collecting {capacity : ℕ+} (reply : PagedReply) (req : Request) (frames : List MessageBytes)
    (bms : HaidiBMS capacity) : Prop where
  state : bms.state = .awaiting
  pending : 0 < bms.queue.count
  head : bms.head = req
  id : req.id = reply.id
  expects : Expects reply bms
  seen : counters bms.seenMask = numbers frames
  counted : bms.framesSeen.toNat = (numbers frames).card
  within : ∀ counter ∈ numbers frames, reply.base ≤ counter ∧ counter < reply.base + reply.frames
  /-- The page of each counter is that of a frame that came under it. -/
  pages : ∀ counter ∈ numbers frames, ∃ frame ∈ frames, (dataOf frame)[0].toNat = counter ∧
    Shows reply.payload (pageWidth reply.id) (counter - reply.base) (pageOf frame) ∧
      PageAt (memory bms.assembly) (pageWidth reply.id) counter (pageOf frame)

variable {capacity : ℕ+} {C : Type} {reply : PagedReply} {req : Request} {frames : List MessageBytes}
  {arrived : Finset ℕ} {first run : Nat}

theorem PagedReply.frames_pos (reply : PagedReply) : 0 < reply.frames := by
  refine needed_pos reply.nominal.tabled.pos ?_
  unfold pageWidth
  split_ifs <;> decide

/-- The session waits for as many frames as the items need, up to the most there can be. -/
theorem framesFor_toNat (count perFrame maxFrames : UInt8) (hper : 1 < perFrame.toNat) :
    (framesFor count perFrame maxFrames).toNat = min maxFrames.toNat (needed count.toNat perFrame.toNat) := by
  have hcount := count.toNat_lt
  have hlt : needed count.toNat perFrame.toNat < 256 := by
    apply Nat.div_lt_of_lt_mul
    have := Nat.mul_le_mul_right 255 hper
    omega
  have hframes := UInt8.toNat_ofNat_of_lt' hlt
  unfold framesFor
  rw [needed] at hframes ⊢
  dsimp only
  split_ifs with hzero hover
  · have hnone : ((0 : UInt8).toNat + perFrame.toNat - 1) / perFrame.toNat = 0 :=
      Nat.div_eq_of_lt (by change 0 + perFrame.toNat - 1 < perFrame.toNat; omega)
    rw [hzero, hnone, Nat.min_zero]
    rfl
  · have := UInt8.lt_iff_toNat_lt.mp hover
    rw [hframes] at this
    omega
  · have := UInt8.le_iff_toNat_le.mp (UInt8.not_lt.mp hover)
    rw [hframes] at this ⊢
    omega

theorem beginAwaiting_cells (bms : HaidiBMS capacity) (h : bms.head.id = .cellVoltages) :
    let items := if bms.head.hint ≠ 0 then bms.head.hint else bms.cachedCellCount
    (beginAwaiting bms).expectedItems = items ∧ (beginAwaiting bms).expectedFrames = cellVoltageFrames items := by
  have heq : beginAwaiting bms = _ := if_pos h
  exact ⟨congrArg HaidiBMS.expectedItems heq, congrArg HaidiBMS.expectedFrames heq⟩

theorem beginAwaiting_sensors (bms : HaidiBMS capacity) (h : bms.head.id = .cellTemperatures) :
    let items := if bms.head.hint ≠ 0 then bms.head.hint else bms.cachedTempCount
    (beginAwaiting bms).expectedItems = items ∧ (beginAwaiting bms).expectedFrames = cellTemperatureFrames items := by
  have hcells : bms.head.id ≠ .cellVoltages := by
    rw [h]
    decide
  have heq : beginAwaiting bms = _ := (if_neg hcells).trans (if_pos h)
  exact ⟨congrArg HaidiBMS.expectedItems heq, congrArg HaidiBMS.expectedFrames heq⟩

theorem beginAwaiting_others (bms : HaidiBMS capacity) (hcells : bms.head.id ≠ .cellVoltages)
    (hsensors : bms.head.id ≠ .cellTemperatures) :
    (beginAwaiting bms).expectedItems = 0 ∧
      (beginAwaiting bms).expectedFrames = (multiframeInfo bms.head.id).frameCount := by
  have heq : beginAwaiting bms = _ := (if_neg hcells).trans (if_neg hsensors)
  exact ⟨congrArg HaidiBMS.expectedItems heq, congrArg HaidiBMS.expectedFrames heq⟩

/-- The session begins with the pack's number of frames and of values. -/
theorem expects_beginAwaiting (bms : HaidiBMS capacity) (hid : bms.head.id = reply.id) (hknown : reply.KnownTo bms) :
    Expects reply (beginAwaiting bms) := by
  have hnominal := reply.nominal
  unfold PagedReply.KnownTo at hknown
  by_cases hcells : reply.id = .cellVoltages
  · obtain ⟨hitems, hframes⟩ := beginAwaiting_cells bms (hid.trans hcells)
    rw [hcells] at hknown hnominal
    have hle : reply.payload.length ≤ 48 * 2 := hnominal.2.2
    refine ⟨?_, fun _ => by rw [hitems]; exact hknown, fun h => ?_, fun h => absurd hcells h⟩
    · -- three words a frame, or six bytes
      have hwords : ∀ words, needed words (3 : UInt8).toNat = needed (words * 2) 6 := by
        intro words
        change (words + 3 - 1) / 3 = (words * 2 + 6 - 1) / 6
        omega
      rw [hframes, PagedReply.frames, ← hknown, pageWidth, if_pos hcells, cellVoltageFrames,
        framesFor_toNat _ _ _ (by decide), hwords]
      apply min_eq_right
      rw [hknown]
      change (reply.payload.length + 6 - 1) / 6 ≤ 16
      omega
    · rw [hcells] at h
      cases h
  by_cases hsensors : reply.id = .cellTemperatures
  · obtain ⟨hitems, hframes⟩ := beginAwaiting_sensors bms (hid.trans hsensors)
    rw [hsensors] at hknown hnominal
    have hle : reply.payload.length ≤ 21 := hnominal.2
    refine ⟨?_, fun h => absurd h hcells, fun _ => by rw [hitems]; exact hknown, fun _ h => absurd hsensors h⟩
    rw [hframes, PagedReply.frames, ← hknown, pageWidth, if_neg hcells, cellTemperatureFrames,
      framesFor_toNat _ _ _ (by decide)]
    apply min_eq_right
    rw [hknown]
    change (reply.payload.length + 7 - 1) / 7 ≤ 3
    omega
  · obtain ⟨hitems, hframes⟩ := beginAwaiting_others bms (hid ▸ hcells) (hid ▸ hsensors)
    refine ⟨?_, fun h => absurd h hcells, fun h => absurd h hsensors, fun _ _ => hitems⟩
    rw [hframes, hid]
    exact (reply.nominal.tabled.frames.resolve_left hcells).resolve_left hsensors

/-! ### Frames arrive -/

theorem collect_assembly (bms : HaidiBMS capacity) (id : DataId) (data : DataBytes) :
    (collect bms id data).assembly =
        fileFrame bms.assembly (data[0].toNat * (multiframeInfo id).bytesPerFrame.toNat)
          (multiframeInfo id).bytesPerFrame.toNat data ∧
      (collect bms id data).expectedFrames = bms.expectedFrames ∧
      (collect bms id data).expectedItems = bms.expectedItems := by
  obtain ⟨_, _, heq⟩ := collect_eq bms id data
  rw [heq]
  exact ⟨rfl, rfl, rfl⟩

theorem pageWidth_le (id : DataId) : pageWidth id ≤ 7 := by
  unfold pageWidth
  split_ifs <;> decide

theorem PagedReply.Sends.le_max {address : UInt8} {frame : MessageBytes} (h : reply.Sends address frame) :
    (dataOf frame)[0].toNat ≤ 16 := by
  have := reply.fits
  have := h.last
  rw [PagedReply.frames] at this
  omega

theorem Collecting.complete_iff {bms : HaidiBMS capacity} (h : Collecting reply req frames bms) :
    reply.Complete (numbers frames) ↔ bms.expectedFrames ≠ 0 ∧ bms.framesSeen ≥ bms.expectedFrames := by
  have hsub : numbers frames ⊆ Finset.Ico reply.base (reply.base + reply.frames) := fun counter hcounter =>
    Finset.mem_Ico.mpr (h.within counter hcounter)
  have hcard : (Finset.Ico reply.base (reply.base + reply.frames)).card = reply.frames := by
    rw [Nat.card_Ico, Nat.add_sub_cancel_left]
  have hne : bms.expectedFrames ≠ 0 := by
    intro hzero
    have := h.expects.frames
    rw [hzero] at this
    exact absurd this.symm reply.frames_pos.ne'
  rw [and_iff_right hne, ge_iff_le, UInt8.le_iff_toNat_le, h.expects.frames, h.counted]
  constructor
  · intro hcomplete
    rw [← hcard]
    exact Finset.card_le_card fun counter hcounter =>
      hcomplete counter (Finset.mem_Ico.mp hcounter).1 (Finset.mem_Ico.mp hcounter).2
  · intro hall counter hlow hhigh
    rw [Finset.eq_of_subset_of_card_le hsub (hcard.trans_le hall)]
    exact Finset.mem_Ico.mpr ⟨hlow, hhigh⟩

/-- A frame of the reply is filed under its counter. -/
theorem Collecting.collect {bms : HaidiBMS capacity} (h : Collecting reply req frames bms) {address : UInt8}
    {frame : MessageBytes} (hsends : reply.Sends address frame) :
    Collecting reply req (frames ++ [frame]) (collect bms reply.id (dataOf frame)) := by
  have hsame := collect_same bms reply.id (dataOf frame)
  obtain ⟨hassembly, hframes, hitems⟩ := collect_assembly bms reply.id (dataOf frame)
  have hmax : ¬ (dataOf frame)[0] > maxFrameIndex := fun hgt =>
    absurd (UInt8.lt_iff_toNat_lt.mp hgt) (not_lt.mpr hsends.le_max)
  have hcounts := collect_counts bms reply.id (dataOf frame) hmax (h.counted.trans (by rw [h.seen]))
  rw [h.seen, ← numbers_concat] at hcounts
  have hfit : (dataOf frame)[0].toNat * pageWidth reply.id + pageWidth reply.id ≤ assemblyLen := by
    have := Nat.mul_le_mul (Nat.succ_le_succ hsends.le_max) (pageWidth_le reply.id)
    rwa [Nat.succ_mul] at this
  refine
    { state := hsame.state.trans h.state
      pending := by rw [hsame.queue]; exact h.pending
      head := hsame.head.trans h.head
      id := h.id
      expects := ⟨by rw [hframes]; exact h.expects.frames, by rw [hitems]; exact h.expects.cells,
        by rw [hitems]; exact h.expects.sensors, by rw [hitems]; exact h.expects.others⟩
      seen := hcounts.1
      counted := by rw [hcounts.2, hcounts.1]
      within := fun counter hcounter => ?_
      pages := fun counter hcounter => ?_ }
  all_goals rw [numbers_concat] at hcounter
  · rcases Finset.mem_insert.mp hcounter with rfl | hold
    · exact ⟨hsends.first, hsends.last⟩
    · exact h.within counter hold
  · rw [hassembly, reply.nominal.tabled.width, memory_fileFrame _ _ _ _ hfit]
    by_cases hnew : counter = (dataOf frame)[0].toNat
    · subst hnew
      exact ⟨frame, List.mem_concat_self, rfl, hsends.shows, pageAt_write⟩
    · obtain ⟨other, hother, hnumber, hshows, hpage⟩ := h.pages counter ((Finset.mem_insert.mp hcounter).resolve_left hnew)
      exact ⟨other, List.mem_append_left _ hother, hnumber, hshows, hpage.write hnew⟩

/-- What a session that collects a reply does with one of its frames. -/
theorem Collecting.arrive (env : Env capacity C) {w : World capacity} (h : Collecting reply req frames w.bms)
    {frame : MessageBytes} (hsends : reply.Sends w.bms.bmsAddress frame) :
    let w' := (w.note .accepted).modify fun bms => Haidi.collect bms reply.id (dataOf frame)
    (reply.Complete (numbers (frames ++ [frame])) → onFrame env w frame = finishMulti env w' reply.id) ∧
      (¬ reply.Complete (numbers (frames ++ [frame])) → onFrame env w frame = armInterframe w') := by
  intro w'
  have hpaged := reply.nominal.tabled.paginated
  have hmax : ¬ (dataOf frame)[0] > maxFrameIndex := fun hgt =>
    absurd (UInt8.lt_iff_toNat_lt.mp hgt) (not_lt.mpr hsends.le_max)
  have hmulti : onFrame env w frame = handleMulti env w reply.id (dataOf frame) := by
    have hid : frame[msgDataIdIndex] = w.bms.head.id := by rw [hsends.id, h.head, h.id]
    unfold onFrame
    dsimp only
    rw [if_neg (not_not.mpr h.state), if_neg (not_not.mpr hsends.address), if_neg (not_not.mpr hid), hsends.id]
    have hcounts : (w.modify fun bms => noteCounts bms reply.id (dataOf frame)) = w := by
      rw [World.modify, noteCounts_multi hpaged.1]
    rw [hcounts, if_neg (by rw [hpaged.1]; decide), if_neg (by rw [hpaged.2]; decide)]
  rw [hmulti, (h.collect hsends).complete_iff]
  unfold handleMulti
  dsimp only
  rw [if_neg hmax]
  exact ⟨fun hcomplete => if_pos hcomplete, fun hincomplete => if_neg hincomplete⟩

/-! ### What is made of them -/

theorem take_ofFn {α β : Type} {size n : Nat} (hn : n ≤ size) (f : Nat → α) (g : α → β) (v : Nat → β)
    (h : ∀ i < n, g (f i) = v i) :
    ((Vector.ofFn fun i : Fin size => f i.val).toList.take n).map g = (List.range n).map v := by
  refine List.ext_getElem (by simp [hn]) fun i hi hi' => ?_
  rw [List.length_map, List.length_range] at hi'
  simp [h i hi']

/-- The characters of a text of `n` bytes in a field of `size`. -/
theorem text_reported {size n : Nat} (hn : n ≤ size) (hsize : size < 256) (buf : List UInt8) :
    (((Vector.ofFn fun i : Fin size => if i.val < n then byteAt buf i.val else 0).toList.take
        (UInt8.ofNat n).toNat).map fun c => (c.toNat : Int)) =
      (List.range n).map fun i => ((byteAt buf i).toNat : Int) := by
  rw [UInt8.toNat_ofNat_of_lt' (lt_of_le_of_lt hn hsize)]
  refine take_ofFn hn (fun i => if i < n then byteAt buf i else 0) _ _ fun i hi => ?_
  rw [if_pos hi]

/-- A decoder reports the values of as much of the payload as it is given. -/
theorem decodeMulti_reported {id : DataId} {length len : Nat} (h : Nominal id length) (hlen : len ≤ length)
    (buf : List UInt8) :
    ∃ payload, decodeMulti id buf len = some payload ∧
      reported id payload = some ((List.range (len / itemBytes id)).map (valueAt id (byteAt buf))) := by
  unfold Nominal at h
  split at h
  case h_9 => exact h.elim
  case h_7 =>
    have hcells : len / 2 ≤ 48 := by
      have : length ≤ 48 * 2 := h.2.2
      omega
    refine ⟨_, rfl, congrArg some ?_⟩
    dsimp only
    rw [if_neg (not_lt.mpr hcells), UInt8.toNat_ofNat_of_lt' (lt_of_le_of_lt hcells (by decide))]
    refine take_ofFn hcells (fun i => if i < len / 2 then rawBe16 buf (i * 2) else 0) _ _ fun i hi => ?_
    rw [if_pos hi, rawBe16_toNat]
    exact Int.natCast_add _ _
  case h_8 =>
    have hsensors : len ≤ 21 := hlen.trans h.2
    refine ⟨_, rfl, congrArg some ?_⟩
    change _ = (List.range (len / 1)).map _
    dsimp only
    rw [if_neg (not_lt.mpr hsensors), UInt8.toNat_ofNat_of_lt' (lt_of_le_of_lt hsensors (by decide)), Nat.div_one]
    refine take_ofFn hsensors (fun i => if i < len then toTemperatureC (byteAt buf i) else 0) _ _ fun i hi => ?_
    rw [if_pos hi]
    exact toTemperatureC_toInt _
  all_goals
    subst h
    refine ⟨_, rfl, congrArg some ?_⟩
    change _ = (List.range (len / 1)).map _
    dsimp only
    rw [if_neg (not_lt.mpr (hlen.trans (by decide))), Nat.div_one]
    exact text_reported (hlen.trans (by decide)) (by decide) buf

theorem exists_stretch (h : arrived.Nonempty) : ∃ first run, Stretch arrived first run := by
  obtain ⟨run, hrun⟩ := exists_run arrived (arrived.min' h)
  exact ⟨arrived.min' h, run, arrived.isLeast_min' h, hrun⟩

theorem Stretch.le (h : Stretch arrived first run) {bound : Nat} (hbound : ∀ counter ∈ arrived, counter < bound) :
    first + run ≤ bound := by
  cases run with
  | zero => exact absurd h.least.1 h.unbroken.stop
  | succ run => exact hbound _ (h.unbroken.mem run (Nat.lt_succ_self run))

/-- What is taken for payload is the unbroken stretch, cut to the limit. -/
theorem payloadWindow_stretch {bms : HaidiBMS capacity} (id : DataId) (hstretch : Stretch (counters bms.seenMask) first run)
    (hend : first + run ≤ 17) :
    payloadWindow bms id =
      (first * (multiframeInfo id).bytesPerFrame.toNat,
        min (run * (multiframeInfo id).bytesPerFrame.toNat) (payloadLimit id bms.expectedItems.toNat)) := by
  have hmask : bms.seenMask ≠ 0 := counters_nonempty.mp ⟨first, hstretch.least.1⟩
  have hfirst : (lowestFrameNo bms.seenMask).toNat = first := lowestFrameNo_toNat hstretch.least
  have hrun : (contiguousFrames bms.seenMask (lowestFrameNo bms.seenMask)).toNat = run :=
    contiguousFrames_toNat (by rw [hfirst]; exact hstretch.unbroken) (by omega)
  have hroom : run * (multiframeInfo id).bytesPerFrame.toNat ≤
      assemblyLen - first * (multiframeInfo id).bytesPerFrame.toNat := by
    have := Nat.mul_le_mul hend (multiframeInfo_le id).1
    rw [Nat.add_mul] at this
    change _ ≤ 119 - _
    omega
  have hitems : bms.expectedItems = 0 ↔ bms.expectedItems.toNat = 0 := by
    rw [← UInt8.toNat_inj]
    rfl
  have htotal : (multiframeInfo id).totalBytes = 0 ↔ (multiframeInfo id).totalBytes.toNat = 0 := by
    rw [← UInt8.toNat_inj]
    rfl
  unfold payloadWindow payloadLimit itemBytes
  dsimp only
  rw [if_pos hmask, if_pos hmask, hfirst, hrun, min_eq_left hroom]
  simp only [ne_eq, hitems, htotal]
  have hcap : maxReassemblyLen = 96 := rfl
  split_ifs <;>
    (refine congrArg (Prod.mk _) ?_
     omega)

/-- The session cuts the reply where its payload ends. -/
theorem Expects.limit {bms : HaidiBMS capacity} (h : Expects reply bms) :
    payloadLimit reply.id bms.expectedItems.toNat = reply.payload.length := by
  have htabled := reply.nominal.tabled
  have hpos := htabled.pos
  have hle : reply.payload.length ≤ 96 := htabled.le
  have hcap : maxReassemblyLen = 96 := rfl
  unfold payloadLimit itemBytes
  dsimp only
  rw [hcap]
  by_cases hcells : reply.id = .cellVoltages
  · have hitems := h.cells hcells
    rw [htabled.sized (Or.inl hcells), UInt8.toNat_zero, if_pos rfl, if_pos hcells, if_neg (by omega), hitems]
    omega
  by_cases hsensors : reply.id = .cellTemperatures
  · have hitems := h.sensors hsensors
    rw [htabled.sized (Or.inr hsensors), UInt8.toNat_zero, if_pos rfl, if_neg hcells, if_neg (by omega), hitems]
    omega
  · have htotal := (htabled.total.resolve_left hcells).resolve_left hsensors
    rw [htotal, if_neg hpos.ne', h.others hcells hsensors, UInt8.toNat_zero, if_pos rfl]
    omega

theorem Collecting.payloadWindow {bms : HaidiBMS capacity} (h : Collecting reply req frames bms)
    (hstretch : Stretch (numbers frames) first run) :
    payloadWindow bms reply.id =
      (first * pageWidth reply.id, min (run * pageWidth reply.id) reply.payload.length) := by
  have hend : first + run ≤ 17 := (hstretch.le fun counter hcounter => (h.within counter hcounter).2).trans reply.fits
  rw [payloadWindow_stretch reply.id (h.seen ▸ hstretch) hend, reply.nominal.tabled.width, h.expects.limit]

theorem sizes (id : DataId) : itemBytes id = 2 ∧ pageWidth id = 6 ∧ pageItems id = 3 ∨
    itemBytes id = 1 ∧ pageWidth id = 7 ∧ pageItems id = 7 := by
  unfold pageItems itemBytes pageWidth
  split_ifs
  · exact Or.inl ⟨rfl, rfl, rfl⟩
  · exact Or.inr ⟨rfl, rfl, rfl⟩

/-- A value is made of its own bytes alone. -/
theorem valueAt_shift (id : DataId) {f g : Nat → UInt8} {i skipped : Nat}
    (h : ∀ address, i * itemBytes id ≤ address → address < (i + 1) * itemBytes id →
      f address = g (skipped * itemBytes id + address)) : valueAt id f i = valueAt id g (skipped + i) := by
  have hsingle : itemBytes id = 1 → f i = g (skipped + i) := by
    intro hbytes
    rw [hbytes] at h
    simpa using h i (by omega) (by omega)
  unfold valueAt
  split
  · have hhigh := h (i * 2) le_rfl (by change _ < (i + 1) * 2; omega)
    have hlow := h (i * 2 + 1) (by change i * 2 ≤ _; omega) (by change _ < (i + 1) * 2; omega)
    rw [hhigh, hlow, Nat.add_mul, Nat.add_assoc]
    rfl
  · rw [hsingle rfl]
  case h_3 hcells _ => rw [hsingle (if_neg hcells)]

theorem byteAt_drop (assembly : Vector UInt8 assemblyLen) (start address : Nat) :
    byteAt (assembly.toList.drop start) address = memory assembly (start + address) := by
  rw [byteAt, memory, List.getD_eq_getElem?_getD, List.getElem?_drop, Vector.getD, Array.getD_eq_getD_getElem?]
  simp

theorem pageItems_bytes (id : DataId) (pages : Nat) : pages * pageItems id * itemBytes id = pages * pageWidth id := by
  rcases sizes id with ⟨hbytes, hwidth, hitems⟩ | ⟨hbytes, hwidth, hitems⟩ <;> rw [hbytes, hwidth, hitems] <;> omega

/-- All the pages but the last are full. -/
theorem PagedReply.full_pages (reply : PagedReply) : (reply.frames - 1) * pageWidth reply.id < reply.payload.length := by
  have hpos := reply.nominal.tabled.pos
  rw [PagedReply.frames, needed]
  rcases sizes reply.id with ⟨-, hwidth, -⟩ | ⟨-, hwidth, -⟩ <;> rw [hwidth] <;> omega

namespace Collecting

variable {bms : HaidiBMS capacity} (h : Collecting reply req frames bms) (hstretch : Stretch (numbers frames) first run)
include h hstretch

/-- Up to the payload's end the buffer has the pack's values. -/
theorem value_inside {i : Nat} (hi : i < run * pageItems reply.id)
    (hinside : (first - reply.base) * pageItems reply.id + i < reply.count) :
    reply.values[(first - reply.base) * pageItems reply.id + i]? =
      some (valueAt reply.id (byteAt (bms.assembly.toList.drop (first * pageWidth reply.id))) i) := by
  have hbase := (h.within first hstretch.least.1).1
  rw [PagedReply.values, List.getElem?_map, List.getElem?_range hinside]
  refine congrArg some (valueAt_shift reply.id fun address hlow hhigh => ?_).symm
  have hread : address < run * pageWidth reply.id ∧
      (first - reply.base) * pageWidth reply.id + address < reply.payload.length := by
    rw [PagedReply.count] at hinside
    rcases sizes reply.id with ⟨hbytes, hwidth, hitems⟩ | ⟨hbytes, hwidth, hitems⟩
    all_goals
      rw [hbytes] at hinside hhigh
      rw [hitems] at hi hinside
      rw [hwidth]
      omega
  have hfiled : ∀ j < run, Filed reply.payload (pageWidth reply.id) reply.base (memory bms.assembly) (first + j) := by
    intro j hj
    obtain ⟨frame, -, -, hshows, hpage⟩ := h.pages _ (hstretch.unbroken.mem j hj)
    exact hpage.filed hshows
  rw [byteAt_drop, pageItems_bytes, read_run hbase hfiled hread.1 hread.2, byteAt, List.getD_eq_getElem?_getD,
    List.getElem?_eq_getElem hread.2, Option.getD_some]

/-- Past it, the padding of a last frame that has come. -/
theorem value_outside {i : Nat} (hi : i < run * pageItems reply.id)
    (houtside : reply.count ≤ (first - reply.base) * pageItems reply.id + i) :
    ∃ frame ∈ frames, (dataOf frame)[0].toNat + 1 = reply.base + reply.frames ∧
      valueAt reply.id (byteAt (bms.assembly.toList.drop (first * pageWidth reply.id))) i =
        valueAt reply.id (pageOf frame)
          ((first - reply.base) * pageItems reply.id + i - (reply.frames - 1) * pageItems reply.id) := by
  have hbase := (h.within first hstretch.least.1).1
  have hend : first + run ≤ reply.base + reply.frames := hstretch.le fun counter hcounter => (h.within counter hcounter).2
  have hfull := reply.full_pages
  have hwhole := reply.nominal.tabled.whole
  obtain ⟨skipped, hskipped⟩ : ∃ skipped, reply.base + reply.frames = first + skipped + 1 :=
    ⟨reply.base + reply.frames - first - 1, by have := (h.within first hstretch.least.1).2; omega⟩
  -- The position is on the last page, which comes `skipped` pages into the stretch.
  obtain ⟨k, hskip, hk, rfl, hposition⟩ : ∃ k, skipped < run ∧ k < pageItems reply.id ∧
      i = skipped * pageItems reply.id + k ∧
        (first - reply.base) * pageItems reply.id + i - (reply.frames - 1) * pageItems reply.id = k := by
    refine ⟨i - skipped * pageItems reply.id, ?_⟩
    rw [PagedReply.count] at houtside
    rcases sizes reply.id with ⟨hbytes, hwidth, hitems⟩ | ⟨hbytes, hwidth, hitems⟩
    all_goals
      rw [hbytes] at houtside hwhole
      rw [hwidth] at hfull
      rw [hitems] at hi houtside ⊢
      omega
  obtain ⟨frame, hframe, hnumber, -, hpage⟩ := h.pages _ (hstretch.unbroken.mem skipped hskip)
  refine ⟨frame, hframe, by rw [hnumber, hskipped], ?_⟩
  rw [hposition]
  refine (valueAt_shift reply.id fun address hlow hhigh => ?_).symm
  have hwithin : address < pageWidth reply.id := by
    rcases sizes reply.id with ⟨hbytes, hwidth, hitems⟩ | ⟨hbytes, hwidth, hitems⟩
    all_goals
      rw [hbytes] at hhigh
      rw [hitems] at hk
      rw [hwidth]
      omega
  rw [byteAt_drop, pageItems_bytes, ← Nat.add_assoc, ← Nat.add_mul]
  exact (hpage address hwithin).symm

end Collecting

/-- A reply that ends, complete or not, is delivered. -/
theorem Collecting.finishMulti (env : Env capacity C) {w : World capacity} (h : Collecting reply req frames w.bms)
    (hany : (numbers frames).Nonempty) :
    ∃ event, Haidi.finishMulti env w reply.id = complete (emit env w event) ∧ reply.Delivers frames event := by
  obtain ⟨first, run, hstretch⟩ := exists_stretch hany
  have hwindow := h.payloadWindow hstretch
  obtain ⟨payload, hpayload, hreported⟩ := decodeMulti_reported reply.nominal
    (min_le_right (run * pageWidth reply.id) reply.payload.length)
    (w.bms.assembly.toList.drop (first * pageWidth reply.id))
  have hlength : min (run * pageWidth reply.id) reply.payload.length / itemBytes reply.id =
      min (run * pageItems reply.id) reply.count := by
    have hwhole := reply.nominal.tabled.whole
    rw [PagedReply.count]
    rcases sizes reply.id with ⟨hbytes, hwidth, hitems⟩ | ⟨hbytes, hwidth, hitems⟩
    all_goals
      rw [hbytes] at hwhole ⊢
      rw [hwidth, hitems]
      omega
  rw [hlength] at hreported
  refine ⟨{ id := reply.id, frames := w.bms.framesSeen, payload }, ?_, rfl, rfl, h.counted, _, first, run, hreported,
    hstretch, by rw [List.length_map, List.length_range], fun i value hvalue => ?_⟩
  · unfold Haidi.finishMulti
    dsimp only
    rw [hwindow]
    dsimp only
    rw [hpayload]
  · rw [List.getElem?_map, Option.map_eq_some_iff] at hvalue
    obtain ⟨j, hj, rfl⟩ := hvalue
    obtain ⟨hi, rfl⟩ := List.getElem?_eq_some_iff.mp hj
    rw [List.length_range] at hi
    rw [List.getElem_range]
    have hrun := hi.trans_le (min_le_left _ _)
    unfold PagedReply.Carries
    split_ifs with hinside
    · exact h.value_inside hstretch hrun hinside
    · exact h.value_outside hstretch hrun (Nat.le_of_not_lt hinside)

end Haidi
