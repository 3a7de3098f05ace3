import HaidiBms.Session.Latest

/-!
# Reads sized by what the boards have

A read of the cells or the sensors that is passed no count goes by what the pack last told of its size. A 0x51 reply tells it board by board, and the session keeps the sum of the three in eight bits, so it knows the sum modulo 256. Every read that goes by a 0x51 reply ends and is cut as for the sum the session knows; where that makes no difference it is as for the sum itself.
-/

namespace Haidi

variable {capacity : ℕ+}

/-! ### Counting items -/

/-- What a pack has a number of, and a command that reads them all. -/
inductive Item
  | cell
  | sensor
  deriving DecidableEq

namespace Item

def id : Item → DataId
  | cell => .cellVoltages
  | sensor => .cellTemperatures

def perFrame : Item → ℕ
  | cell => 3
  | sensor => 7

def maxFrames : Item → ℕ
  | cell => 16
  | sensor => 3

/-- The most a reply can report. -/
def most : Item → ℕ
  | cell => maxCells
  | sensor => maxTemperatures

/-- How many the three boards of a 0x51 reply have together. -/
def boards (item : Item) (data : DataBytes) : ℕ :=
  match item with
  | cell => (getElem data 1 byte1_lt).toNat + (getElem data 2 byte2_lt).toNat + (getElem data 3 byte3_lt).toNat
  | sensor => (getElem data 4 byte4_lt).toNat + (getElem data 5 byte5_lt).toNat + (getElem data 6 byte6_lt).toNat

/-- How many frames carry so many, up to the most a reply can have. -/
def frames (item : Item) (count : ℕ) : ℕ := min item.maxFrames ((count + item.perFrame - 1) / item.perFrame)

/-- How many the session takes the pack to have. -/
def cached (bms : HaidiBMS capacity) : Item → UInt8
  | cell => bms.cachedCellCount
  | sensor => bms.cachedTempCount

/-- The number fits what the session keeps of it, or what is kept still fills the longest reply. -/
def Fits (item : Item) (count : ℕ) : Prop := count < 256 ∨ (item.maxFrames - 1) * item.perFrame < count % 256

instance (item : Item) (count : ℕ) : Decidable (item.Fits count) := inferInstanceAs (Decidable (_ ∨ _))

end Item

/-! ### What the log tells -/

/-- The last reply to have told the pack's size, where it told it board by board. -/
def boardCounts : List (Entry capacity) → Option DataBytes
  | [] => none
  | entry :: past =>
    match entry.obs with
    | .accepted =>
      if entry.bms.head.id = .bmuCellTempCount then some (dataOf entry.bms.parser.buf)
      else if entry.bms.head.id = .statusInfo then none
      else boardCounts past
    | _ => boardCounts past

/-- The boards the latest request goes by: it reads these items, is passed no count, and a 0x51 reply was the last to tell the pack's size when it was transmitted. -/
def sizedBy (item : Item) : List (Entry capacity) → Option DataBytes
  | [] => none
  | entry :: past =>
    match entry.obs with
    | .began => if entry.bms.head.id = item.id ∧ entry.bms.head.hint = 0 then boardCounts past else none
    | _ => sizedBy item past

/-- The newest entry. -/
def lastObs (log : List (Entry capacity)) : Option Obs := log.head?.map Entry.obs

/-- The response to a command that an entry raises. -/
def responseTo (id : DataId) (entry : Entry capacity) : Option Event :=
  match entry.obs with
  | .raised event => if event.kind = .response ∧ event.id = id then some event else none
  | _ => none

/-! ### What a read of a known size is -/

namespace Item

/-- All the frames of so many items have come. -/
def Arrived (item : Item) (count : ℕ) (past : List (Entry capacity)) : Prop :=
  0 < count ∧ item.frames count ≤ (numbers (acceptedFrames past)).card

/-- An event reports no more than so many, or whole frames where their number is zero. -/
def Reports (item : Item) (count : ℕ) (arrived : Finset ℕ) (event : Event) : Prop :=
  ∃ values, reported item.id event.payload = some values ∧ (0 < count → values.length ≤ min item.most count) ∧
    (count = 0 → ∃ first run, Stretch arrived first run ∧ values.length = min item.most (run * item.perFrame))

/-- An entry of the log while a read of so many is in flight. -/
structure Sizes (item : Item) (count : ℕ) (past : List (Entry capacity)) (entry : Entry capacity) : Prop where
  /-- An accepted frame ends the read exactly when it completes it. -/
  counted : lastObs past = some .accepted → ((responseTo item.id entry).isSome ↔ item.Arrived count past)
  /-- Nothing but an accepted frame or a passed deadline ends it. -/
  timed : (responseTo item.id entry).isSome → lastObs past = some .accepted ∨ lastObs past = some .expired
  trimmed : ∀ event, responseTo item.id entry = some event → item.Reports count (numbers (acceptedFrames past)) event

end Item

/-! ### The sum in eight bits -/

namespace Item

theorem frames_eq_zero {item : Item} {count : ℕ} : item.frames count = 0 ↔ count = 0 := by
  unfold frames
  cases item
  · change min 16 ((count + 3 - 1) / 3) = 0 ↔ _
    omega
  · change min 3 ((count + 7 - 1) / 7) = 0 ↔ _
    omega

/-- A count that is kept modulo 256 makes the same read of a reply of any length exactly when it fits. -/
theorem fits_iff (item : Item) (count : ℕ) :
    item.Fits count ↔
      ∀ arrived, (0 < count % 256 ∧ item.frames (count % 256) ≤ arrived ↔ 0 < count ∧ item.frames count ≤ arrived) := by
  unfold frames Fits
  cases item
  · change count < 256 ∨ 45 < count % 256 ↔
      ∀ arrived, (0 < count % 256 ∧ min 16 ((count % 256 + 3 - 1) / 3) ≤ arrived ↔
        0 < count ∧ min 16 ((count + 3 - 1) / 3) ≤ arrived)
    constructor
    · intro h arrived
      omega
    · intro h
      have := h 15
      have := h 16
      omega
  · change count < 256 ∨ 14 < count % 256 ↔
      ∀ arrived, (0 < count % 256 ∧ min 3 ((count % 256 + 7 - 1) / 7) ≤ arrived ↔
        0 < count ∧ min 3 ((count + 7 - 1) / 7) ≤ arrived)
    constructor
    · intro h arrived
      omega
    · intro h
      have := h 2
      have := h 3
      omega

theorem Reports.of_wrapped {item : Item} {count : ℕ} {arrived : Finset ℕ} {event : Event} (hfits : item.Fits count)
    (h : item.Reports (count % 256) arrived event) : item.Reports count arrived event := by
  obtain ⟨values, hvalues, hcut, hwhole⟩ := h
  refine ⟨values, hvalues, fun hpos => ?_, fun hzero => hwhole (by rw [hzero])⟩
  rcases hfits with hlt | hmany
  · rw [Nat.mod_eq_of_lt hlt] at hcut
    exact hcut hpos
  · have hmod := Nat.mod_le count 256
    exact (hcut (by omega)).trans (min_le_min_left _ hmod)

theorem Sizes.of_wrapped {item : Item} {count : ℕ} {past : List (Entry capacity)} {entry : Entry capacity}
    (hfits : item.Fits count) (h : item.Sizes (count % 256) past entry) : item.Sizes count past entry where
  counted := fun hlast => (h.counted hlast).trans ((item.fits_iff count).mp hfits _)
  timed := h.timed
  trimmed := fun event hevent => (h.trimmed event hevent).of_wrapped hfits

theorem cached_noteCounts (item : Item) (bms : HaidiBMS capacity) (data : DataBytes) :
    (item.cached (noteCounts bms .bmuCellTempCount data)).toNat = item.boards data % 256 := by
  cases item <;>
    (change (_ + _ + _ : UInt8).toNat = _
     rw [UInt8.toNat_add, UInt8.toNat_add]
     exact Nat.mod_add_mod _ _ _)

end Item

/-- What the session expects of a read that goes by so many. -/
structure Expecting (item : Item) (count : ℕ) (bms : HaidiBMS capacity) : Prop where
  id : bms.head.id = item.id
  items : bms.expectedItems.toNat = count
  frames : bms.expectedFrames.toNat = item.frames count

theorem expecting_beginAwaiting {item : Item} (bms : HaidiBMS capacity) (hid : bms.head.id = item.id)
    (hhint : bms.head.hint = 0) : Expecting item (item.cached bms).toNat (beginAwaiting bms) := by
  have hhead : (beginAwaiting bms).head.id = item.id := (congrArg Request.id (beginAwaiting_same bms).head).trans hid
  cases item with
  | cell =>
      obtain ⟨hitems, hframes⟩ := beginAwaiting_cells bms hid
      rw [if_neg (not_not.mpr hhint)] at hitems hframes
      refine ⟨hhead, congrArg UInt8.toNat hitems, ?_⟩
      rw [hframes]
      exact framesFor_toNat _ 3 16 (by decide)
  | sensor =>
      obtain ⟨hitems, hframes⟩ := beginAwaiting_sensors bms hid
      rw [if_neg (not_not.mpr hhint)] at hitems hframes
      refine ⟨hhead, congrArg UInt8.toNat hitems, ?_⟩
      rw [hframes]
      exact framesFor_toNat _ 7 3 (by decide)

/-! ### What a response reports -/

theorem decodeMulti_items {item : Item} {buf : List UInt8} {len : ℕ} {payload : EventPayload}
    (h : decodeMulti item.id buf len = some payload) :
    ∃ values, reported item.id payload = some values ∧ values.length = min item.most (len / itemBytes item.id) := by
  cases item with
  | cell =>
      obtain rfl := Option.some.inj h
      refine ⟨_, rfl, ?_⟩
      have hcells : (if len / 2 > maxCells then maxCells else len / 2) = min 48 (len / 2) := by
        change (if len / 2 > 48 then 48 else len / 2) = _
        split_ifs <;> omega
      have hcount : (UInt8.ofNat (min 48 (len / 2))).toNat = min 48 (len / 2) :=
        UInt8.toNat_ofNat_of_lt' (lt_of_le_of_lt (min_le_left _ _) (by decide))
      dsimp only
      rw [List.length_map, List.length_take, Vector.length_toList, hcells, hcount]
      change min (min 48 (len / 2)) 48 = min 48 (len / 2)
      omega
  | sensor =>
      obtain rfl := Option.some.inj h
      refine ⟨_, rfl, ?_⟩
      have htemps : (if len > maxTemperatures then maxTemperatures else len) = min 21 len := by
        change (if len > 21 then 21 else len) = _
        split_ifs <;> omega
      have hcount : (UInt8.ofNat (min 21 len)).toNat = min 21 len :=
        UInt8.toNat_ofNat_of_lt' (lt_of_le_of_lt (min_le_left _ _) (by decide))
      dsimp only
      rw [List.length_map, List.length_take, Vector.length_toList, htemps, hcount]
      change min (min 21 len) 21 = min 21 (len / 1)
      omega

theorem ReportsLatest.items {item : Item} {count : ℕ} {frames : List MessageBytes} {event : Event}
    (h : ReportsLatest item.id count frames event) : item.Reports count (numbers frames) event := by
  obtain ⟨base, run, hstretch, hpayload⟩ := h.payload
  obtain ⟨values, hvalues, hlength⟩ := decodeMulti_items hpayload
  rw [List.length_take, length_stretchBytes hstretch] at hlength
  refine ⟨values, hvalues, fun hpos => ?_, fun hzero => ⟨base, run, hstretch, ?_⟩⟩
  · rw [hlength]
    cases item with
    | cell =>
        change min 48 (min (min 96 (min 96 (if count = 0 then 96 else count * 2))) (run * 6) / 2) ≤ min 48 count
        split_ifs <;> omega
    | sensor =>
        change min 21 (min (min 96 (min 96 (if count = 0 then 96 else count * 1))) (run * 7) / 1) ≤ min 21 count
        split_ifs <;> omega
  · rw [hlength]
    cases item with
    | cell =>
        change min 48 (min (min 96 (min 96 (if count = 0 then 96 else count * 2))) (run * 6) / 2) = min 48 (run * 3)
        rw [if_pos hzero]
        omega
    | sensor =>
        change min 21 (min (min 96 (min 96 (if count = 0 then 96 else count * 1))) (run * 7) / 1) = min 21 (run * 7)
        rw [if_pos hzero]
        omega

/-! ### The session -/

/-- The newest entry is no frame that should have ended the read. -/
def Item.Waits (item : Item) (count : ℕ) (log : List (Entry capacity)) : Prop :=
  lastObs log = some .accepted → ¬ item.Arrived count log

/-- The session follows the reply in flight, knows the last sum it was told modulo 256, and reads by it. -/
structure Reading (w : World capacity) : Prop where
  following : Watched (fun (log : List (Entry capacity)) bms =>
    (multiframeInfo bms.head.id).paginated → Holds (knownItems log) (acceptedFrames log) bms) EndsLatest w
  cached : ∀ (item : Item) data, boardCounts w.log = some data → (item.cached w.bms).toNat = item.boards data % 256
  expecting : w.bms.state = .awaiting → ∀ item data, sizedBy item w.log = some data →
    Expecting item (item.boards data % 256) w.bms
  law : History.Everywhere (fun past entry => ∀ item data, sizedBy item past = some data →
    item.Sizes (item.boards data % 256) past entry) w.log

/-- Between turns no read is complete. -/
structure Sized (w : World capacity) : Prop extends Reading w where
  waits : ∀ item data, sizedBy item w.log = some data → item.Waits (item.boards data % 256) w.log

/-- The bus, the counts and what is expected of the reply are as they were. -/
structure SameSizing (bms bms' : HaidiBMS capacity) : Prop extends SameHolding bms bms' where
  expectedFrames : bms'.expectedFrames = bms.expectedFrames
  cachedCellCount : bms'.cachedCellCount = bms.cachedCellCount
  cachedTempCount : bms'.cachedTempCount = bms.cachedTempCount

theorem SameSizing.cached {bms bms' : HaidiBMS capacity} (h : SameSizing bms bms') (item : Item) :
    item.cached bms' = item.cached bms := by
  cases item
  · exact h.cachedCellCount
  · exact h.cachedTempCount

theorem Expecting.same {item : Item} {count : ℕ} {bms bms' : HaidiBMS capacity} (h : Expecting item count bms)
    (hsame : SameSizing bms bms') : Expecting item count bms' :=
  ⟨by rw [hsame.head]; exact h.id, by rw [hsame.expectedItems]; exact h.items,
    by rw [hsame.expectedFrames]; exact h.frames⟩

theorem boardCounts_note {w : World capacity} {obs : Obs} (h : obs ≠ .accepted) :
    boardCounts (w.note obs).log = boardCounts w.log := by
  cases obs <;> first | rfl | exact absurd rfl h

theorem sizedBy_note {w : World capacity} {obs : Obs} (h : obs ≠ .began) (item : Item) :
    sizedBy item (w.note obs).log = sizedBy item w.log := by
  cases obs <;> first | rfl | exact absurd rfl h

/-- An entry that raises no response has nothing to keep but what the session waits for. -/
theorem Item.Waits.sizes {item : Item} {count : ℕ} {log : List (Entry capacity)} {entry : Entry capacity}
    (h : item.Waits count log) (hsilent : responseTo item.id entry = none) : item.Sizes count log entry where
  counted := by
    intro hlast
    rw [hsilent]
    exact iff_of_false Bool.false_ne_true (h hlast)
  timed := by
    rw [hsilent]
    exact fun h => absurd h Bool.false_ne_true
  trimmed := by
    rw [hsilent]
    exact fun _ h => nomatch h

theorem Item.waits_of_ne {item : Item} {count : ℕ} {log : List (Entry capacity)} (h : lastObs log ≠ some .accepted) :
    item.Waits count log := fun hlast => absurd hlast h

theorem Reading.modify {w : World capacity} (h : Reading w) (f : HaidiBMS capacity → HaidiBMS capacity)
    (hsame : SameSizing w.bms (f w.bms)) : Reading (w.modify f) where
  following := h.following.modify latest_watch f hsame.toSameHolding
  cached := by
    intro item data hdata
    rw [World.modify_bms, hsame.cached]
    exact h.cached item data hdata
  expecting := fun hstate item data hdata =>
    (h.expecting (hsame.state.symm.trans hstate) item data hdata).same hsame
  law := h.law

/-- An entry beside the reply, if the reads permit it. -/
theorem Reading.note {w : World capacity} (h : Reading w) (obs : Obs) (haside : obs.isAside = true)
    (hpermitted : EndsLatest w.log ⟨w.bms, obs⟩)
    (hsizes : ∀ item data, sizedBy item w.log = some data → item.Sizes (item.boards data % 256) w.log ⟨w.bms, obs⟩) :
    Sized (w.note obs) where
  following := h.following.log latest_watch obs haside hpermitted
  cached := by
    rw [boardCounts_note (by rintro rfl; cases haside)]
    exact h.cached
  expecting := by
    intro hstate item
    rw [sizedBy_note (by rintro rfl; cases haside)]
    exact h.expecting hstate item
  law := ⟨hsizes, h.law⟩
  waits := fun item data _ => Item.waits_of_ne fun hlast => by
    cases Option.some.inj hlast
    cases haside

namespace Sized

variable {w : World capacity}

theorem modify (h : Sized w) (f : HaidiBMS capacity → HaidiBMS capacity)
    (hsame : SameSizing w.bms (f w.bms) := by exact ⟨by constructor <;> rfl, rfl, rfl, rfl⟩) : Sized (w.modify f) :=
  ⟨h.toReading.modify f hsame, h.waits⟩

/-- An entry that raises nothing. -/
theorem mark (h : Sized w) (obs : Obs) (haside : obs.isAside = true) (hroutine : obs.isRoutine = true) :
    Sized (w.note obs) :=
  h.toReading.note obs haside (latest_watch.permits _ _ hroutine) fun item data hdata =>
    (h.waits item data hdata).sizes (by cases obs <;> first | rfl | cases hroutine)

theorem invoke (h : Sized w) (handler : Handler) (event : Event) : Sized (w.note (.invoked handler event)) :=
  h.toReading.note _ rfl (latest_watch.invoke w handler event h.following) fun item data hdata =>
    (h.waits item data hdata).sizes rfl

theorem transmit (h : Sized w) : Sized (transmit w) := by
  rcases transmit_cases w with ⟨-, heq⟩ | ⟨fn, heq⟩ <;> rw [heq]
  · exact h.modify _
  · exact (h.mark _ rfl rfl).modify _

/-- A read that gets the bus goes by what was told last. -/
theorem began (h : Sized w) (hcount : 0 < w.bms.queue.count) : Sized (began w) where
  following := h.following.began latest_watch hcount
  cached := by
    intro item data hdata
    have hcached : item.cached (Haidi.began w).bms = item.cached w.bms := by
      obtain ⟨_, _, heq⟩ := began_eq w
      rw [heq]
      cases item <;> rfl
    rw [hcached]
    exact h.cached item data hdata
  expecting := by
    intro _ item data hdata
    change (if w.bms.head.id = item.id ∧ w.bms.head.hint = 0 then boardCounts w.log else none) = some data at hdata
    split_ifs at hdata with hread
    rw [← h.cached item data hdata]
    have hexpecting := expecting_beginAwaiting { w.bms with state := .awaiting } hread.1 hread.2
    cases item <;> exact hexpecting
  law := ⟨fun item data hdata => (h.waits item data hdata).sizes rfl, h.law⟩
  waits := fun _ _ _ => Item.waits_of_ne nofun

theorem pump (h : Sized w) : Sized (pump w) := by
  rcases pump_cases w with ⟨heq, -⟩ | ⟨-, hcount, heq⟩ <;> rw [heq]
  · exact h
  · exact (h.began hcount).transmit

theorem complete (h : Sized w) : Sized (complete w) := by
  rw [complete_eq]
  have hmarked := h.mark .completing rfl rfl
  refine pump ⟨⟨Watched.retired latest_watch h.following.known h.following.permitted, ?_, nofun, hmarked.law⟩, hmarked.waits⟩
  intro item data hdata
  rw [← hmarked.cached item data hdata]
  cases item <;> rfl

theorem enqueue (h : Sized w) (req : Request) : Sized (enqueue w req).1 := by
  rcases enqueue_cases w req with ⟨status, -, heq⟩ | ⟨room, -, hknown, heq⟩ <;> rw [heq]
  · exact h.mark _ rfl rfl
  · have hmarked := h.mark (.answered req .queued) rfl rfl
    have haccepted : Sized (accepted w req room) :=
      { following := h.following.accepted latest_watch req room hknown
        cached := by
          intro item data hdata
          rw [← hmarked.cached item data hdata]
          cases item <;> rfl
        expecting := by
          intro hstate item data hdata
          obtain ⟨hid, hitems, hframes⟩ := hmarked.expecting hstate item data hdata
          have hhead : (accepted w req room).bms.head = w.bms.head :=
            w.bms.queue.front_push req room (h.following.pending hstate)
          exact ⟨(congrArg Request.id hhead).trans hid, hitems, hframes⟩
        law := hmarked.law
        waits := hmarked.waits }
    dsimp only
    split_ifs
    · exact haccepted
    · exact haccepted.pump

variable {env : Env capacity Call}

/-- An event is dispatched, given what its first handler finds. -/
theorem emit_opened (henv : ∀ w c, Sized w → Sized (env.perform w c)) {event : Event} (h : Sized (opened w event)) :
    Sized (emit env w event) := by
  obtain ⟨w', hw', hemit⟩ := emit_rule env w event h (fun _ handler hw => hw.invoke handler event) henv
    fun _ hw => hw.mark _ rfl rfl
  rw [hemit]
  unfold closed
  split_ifs
  · exact hw'.mark _ rfl rfl
  · exact (hw'.modify _).mark _ rfl rfl

end Sized

theorem Reading.raise {w : World capacity} (h : Reading w) (event : Event)
    (hpermitted : EndsLatest w.log ⟨w.bms, .raised event⟩)
    (hsizes : ∀ item data, sizedBy item w.log = some data →
      item.Sizes (item.boards data % 256) w.log ⟨w.bms, .raised event⟩) : Sized (opened w event) :=
  (h.note (.raised event) rfl hpermitted hsizes).modify _

namespace Sized

variable {w : World capacity} {env : Env capacity Call}

/-- An event that responds to no read. -/
theorem emit (henv : ∀ w c, Sized w → Sized (env.perform w c)) (h : Sized w) (event : Event)
    (hother : ∀ item : Item, ¬ (event.kind = .response ∧ event.id = item.id))
    (hpermitted : EndsLatest w.log ⟨w.bms, .raised event⟩) : Sized (emit env w event) :=
  emit_opened henv (h.toReading.raise event hpermitted fun item data hdata =>
    (h.waits item data hdata).sizes (if_neg (hother item)))

theorem deliverRecord (henv : ∀ w c, Sized w → Sized (env.perform w c)) (h : Sized w) :
    Sized (deliverRecord env w .faultRecords) := by
  have hother : ∀ item : Item, DataId.faultRecords ≠ item.id := by
    intro item
    cases item <;> decide
  rcases deliverRecord_cases env w .faultRecords with ⟨record, heq⟩ | heq <;> rw [heq]
  · exact (h.emit henv _ (fun item hread => hother item hread.2) (latest_watch.deliver _ _ _)).modify _
  · exact h.modify _

theorem resume (h : Sized w) : Sized (resume w) := by
  rcases resume_cases w with ⟨-, heq⟩ | ⟨-, heq⟩ <;> rw [heq]
  · exact (h.mark .abandoned rfl rfl).pump
  · exact h.modify _

end Sized

/-! ### Frames of a reply -/

theorem Item.paginated (item : Item) : (multiframeInfo item.id).paginated := by
  cases item <;> decide

section Frames

variable {w : World capacity}

/-- A request that is no read goes by no counts. -/
theorem Reading.unsized (h : Reading w) (hstate : w.bms.state = .awaiting) (hid : ∀ item : Item, w.bms.head.id ≠ item.id)
    (item : Item) : sizedBy item w.log = none :=
  Option.eq_none_iff_forall_ne_some.mpr fun data hdata => hid item (h.expecting hstate item data hdata).id

theorem single_ne_item {id : DataId} (hsingle : (multiframeInfo id).multi = false) (item : Item) : id ≠ item.id := by
  rintro rfl
  exact absurd (hsingle.symm.trans item.paginated.1) Bool.false_ne_true

/-- A reply of one frame may tell the pack's size. -/
theorem Sized.informed (h : Sized w) (hstate : w.bms.state = .awaiting)
    (hsingle : (multiframeInfo w.bms.head.id).multi = false) : Reading (informed w) where
  following := by
    have hsame := noteCounts_same w.bms w.bms.head.id (dataOf w.bms.parser.buf)
    have hnoted := h.following.modify latest_watch (fun bms => noteCounts bms bms.head.id (dataOf bms.parser.buf)) (by
      obtain ⟨_, _, heq⟩ := noteCounts_eq w.bms w.bms.head.id (dataOf w.bms.parser.buf)
      rw [heq]
      constructor <;> rfl)
    exact hnoted.accept latest_watch _ (.refl _)
      (latest_watch.single (hnoted.told (hsame.state.trans hstate)) (by rw [World.modify_bms, hsame.head]; exact hsingle))
  cached := by
    intro item data hdata
    have hhead := (noteCounts_same w.bms w.bms.head.id (dataOf w.bms.parser.buf)).head
    have hparser := parser_noteCounts w.bms w.bms.head.id (dataOf w.bms.parser.buf)
    have hcached := h.cached item data
    change (if (noteCounts w.bms w.bms.head.id (dataOf w.bms.parser.buf)).head.id = .bmuCellTempCount then
        some (dataOf (noteCounts w.bms w.bms.head.id (dataOf w.bms.parser.buf)).parser.buf)
      else if (noteCounts w.bms w.bms.head.id (dataOf w.bms.parser.buf)).head.id = .statusInfo then none
      else boardCounts w.log) = some data at hdata
    change (item.cached (noteCounts w.bms w.bms.head.id (dataOf w.bms.parser.buf))).toNat = _
    rw [hhead, hparser] at hdata
    split_ifs at hdata with hboards hstatus
    · cases hdata
      rw [hboards]
      exact item.cached_noteCounts w.bms _
    · rw [noteCounts, if_neg hstatus, if_neg hboards]
      exact hcached hdata
  expecting := by
    intro _ item data hdata
    rw [show sizedBy item (Haidi.informed w).log = sizedBy item w.log from rfl,
      h.unsized hstate (single_ne_item hsingle)] at hdata
    cases hdata
  law := ⟨fun item data hdata => (h.waits item data hdata).sizes rfl, h.law⟩

theorem boardCounts_multi {bms : HaidiBMS capacity} (hmulti : (multiframeInfo bms.head.id).multi = true)
    (past : List (Entry capacity)) : boardCounts (⟨bms, .accepted⟩ :: past) = boardCounts past := by
  change (if bms.head.id = .bmuCellTempCount then some (dataOf bms.parser.buf)
    else if bms.head.id = .statusInfo then none else boardCounts past) = _
  split_ifs with hboards hstatus
  · rw [hboards] at hmulti
    cases hmulti
  · rw [hstatus] at hmulti
    cases hmulti
  · rfl

theorem Sized.gathered (h : Sized w) (hstate : w.bms.state = .awaiting)
    (hpaged : (multiframeInfo w.bms.head.id).paginated) (hrange : ¬ (dataOf w.bms.parser.buf)[0] > maxFrameIndex) :
    Reading (gathered w) where
  following := h.following.accept latest_watch _ (collect_same _ _ _)
    (latest_watch.collect _ (h.following.told hstate) hpaged hrange rfl)
  cached := by
    intro item data hdata
    have hdata := (boardCounts_multi hpaged.1 w.log).symm.trans hdata
    rw [← h.cached item data hdata]
    change (item.cached (collect w.bms w.bms.head.id (dataOf w.bms.parser.buf))).toNat = _
    obtain ⟨_, _, heq⟩ := collect_eq w.bms w.bms.head.id (dataOf w.bms.parser.buf)
    rw [heq]
    cases item <;> rfl
  expecting := by
    intro _ item data hdata
    obtain ⟨hid, hitems, hframes⟩ := h.expecting hstate item data hdata
    obtain ⟨-, hsameFrames, hsameItems⟩ := collect_assembly w.bms w.bms.head.id (dataOf w.bms.parser.buf)
    have hhead := congrArg Request.id (collect_same w.bms w.bms.head.id (dataOf w.bms.parser.buf)).head
    exact ⟨hhead.trans hid, (congrArg UInt8.toNat hsameItems).trans hitems, (congrArg UInt8.toNat hsameFrames).trans hframes⟩
  law := ⟨fun item data hdata => (h.waits item data hdata).sizes rfl, h.law⟩

/-- A frame of a stream belongs to no read. -/
theorem Sized.stream (h : Sized w) (hstate : w.bms.state = .awaiting) (hid : w.bms.head.id = .faultRecords)
    {bms : HaidiBMS capacity} (hsame : SameBus w.bms bms) (hcached : ∀ item, Item.cached bms item = Item.cached w.bms item) :
    Sized ⟨bms, ⟨w.bms, .accepted⟩ :: w.log⟩ := by
  have hnone : ∀ item, sizedBy item w.log = none := by
    refine h.unsized hstate fun item => ?_
    rw [hid]
    cases item <;> decide
  refine ⟨⟨h.following.accept latest_watch _ hsame fun hpaged => ?_, ?_, ?_, ?_⟩, ?_⟩
  · rw [hsame.head, hid] at hpaged
    exact absurd hpaged (by decide)
  · intro item reply hreply
    have hmulti : (multiframeInfo w.bms.head.id).multi = true := by
      rw [hid]
      rfl
    rw [hcached]
    exact h.cached item reply ((boardCounts_multi hmulti w.log).symm.trans hreply)
  · intro _ item reply hreply
    exact absurd ((hnone item).symm.trans hreply) nofun
  · exact ⟨fun item reply hreply => (h.waits item reply hreply).sizes rfl, h.law⟩
  · intro item reply hreply
    exact absurd ((hnone item).symm.trans hreply) nofun

theorem Sized.expire (h : Sized w) (hstate : w.bms.state = .awaiting) : Sized (w.note .expired) where
  following := ⟨fun _ => latest_watch.expired _ rfl (h.following.told hstate), h.following.pending, h.following.known,
    latest_watch.permits _ _ rfl, h.following.permitted⟩
  cached := h.cached
  expecting := h.expecting
  law := ⟨fun item data hdata => (h.waits item data hdata).sizes rfl, h.law⟩
  waits := fun _ _ _ => Item.waits_of_ne nofun

/-- What the session counts is what has arrived. -/
theorem Expecting.full_iff {item : Item} {count items : ℕ} {frames : List MessageBytes} (h : Expecting item count w.bms)
    (hholds : Holds items frames w.bms) : w.bms.Full ↔ 0 < count ∧ item.frames count ≤ (numbers frames).card := by
  have hzero : w.bms.expectedFrames ≠ 0 ↔ 0 < count := by
    rw [ne_eq, ← UInt8.toNat_inj, h.frames, UInt8.toNat_zero, Item.frames_eq_zero, ← ne_eq, Nat.pos_iff_ne_zero]
  rw [HaidiBMS.Full, hzero, ge_iff_le, UInt8.le_iff_toNat_le, h.frames, hholds.counted]

theorem Expecting.known_eq {item : Item} {count items : ℕ} {frames : List MessageBytes} (h : Expecting item count w.bms)
    (hholds : Holds items frames w.bms) : items = count := hholds.items.symm.trans h.items

end Frames

/-! ### Runs -/

section Runs

variable {w : World capacity} {env : Env capacity Call} (henv : ∀ w c, Sized w → Sized (env.perform w c))

/-- The newest frame is in what has arrived. -/
theorem acceptedFrames_gathered (w : World capacity) : acceptedFrames (gathered w).log ≠ [] := List.cons_ne_nil _ _

include henv

theorem sized_answer (h : Sized w) (hstate : w.bms.state = .awaiting)
    (hsingle : (multiframeInfo w.bms.head.id).multi = false) {event : Event} (hending : Ending (informed w).bms event) :
    Sized (complete (emit env (informed w) event)) := by
  have hsame := noteCounts_same w.bms w.bms.head.id (dataOf w.bms.parser.buf)
  have hinformed := h.informed hstate hsingle
  have hwaiting : (informed w).bms.state = .awaiting := hsame.state.trans hstate
  have hhead : (informed w).bms.head = w.bms.head := hsame.head
  refine (Sized.emit_opened henv (hinformed.raise event ?_ fun item data hdata => ?_)).complete
  · exact latest_watch.finish (hinformed.following.told hwaiting)
      (hinformed.following.head_known (hinformed.following.pending hwaiting)) hending
  · rw [hinformed.unsized hwaiting (single_ne_item (by rw [hhead]; exact hsingle))] at hdata
    cases hdata

omit henv in
/-- A frame that leaves the session waiting leaves the read incomplete. -/
theorem sized_gather (h : Sized w) (hstate : w.bms.state = .awaiting)
    (hpaged : (multiframeInfo w.bms.head.id).paginated) (hrange : ¬ (dataOf w.bms.parser.buf)[0] > maxFrameIndex)
    (hfull : ¬ (gathered w).bms.Full) : Sized (armInterframe (gathered w)) := by
  have hgathered := h.gathered hstate hpaged hrange
  have hwaiting := (gathered_same w).state.trans hstate
  have hhead := (gathered_same w).head
  have hholds := hgathered.following.told hwaiting (by rw [hhead]; exact hpaged)
  refine Sized.modify ⟨hgathered, fun item data hdata _ harrived => ?_⟩ _
  exact hfull (((hgathered.expecting hwaiting item data hdata).full_iff hholds).mpr harrived)

/-- The frame that completes a read ends it. -/
theorem sized_conclude (h : Sized w) (hstate : w.bms.state = .awaiting)
    (hpaged : (multiframeInfo w.bms.head.id).paginated) (hrange : ¬ (dataOf w.bms.parser.buf)[0] > maxFrameIndex)
    (hfull : (gathered w).bms.Full) {event : Event} (hending : Ending (gathered w).bms event) :
    Sized (complete (emit env (gathered w) event)) := by
  have hgathered := h.gathered hstate hpaged hrange
  have hwaiting := (gathered_same w).state.trans hstate
  have hhead := (gathered_same w).head
  rw [← hhead] at hpaged
  have hholds := hgathered.following.told hwaiting hpaged
  have hreports := hholds.reports hpaged (acceptedFrames_gathered w) hending
  refine (Sized.emit_opened henv (hgathered.raise event ?_ fun item data hdata => ?_)).complete
  · exact latest_watch.finish (hgathered.following.told hwaiting)
      (hgathered.following.head_known (hgathered.following.pending hwaiting)) hending
  · have hexpecting := hgathered.expecting hwaiting item data hdata
    have hresponse : responseTo item.id (⟨(gathered w).bms, .raised event⟩ : Entry capacity) = some event :=
      if_pos ⟨hreports.kind, hending.id_eq.trans hexpecting.id⟩
    rw [hexpecting.id, hexpecting.known_eq hholds] at hreports
    refine ⟨fun _ => ?_, fun _ => Or.inl rfl, fun other hother => ?_⟩
    · rw [hresponse]
      exact iff_of_true rfl ((hexpecting.full_iff hholds).mp hfull)
    · obtain rfl := Option.some.inj (hresponse.symm.trans hother)
      exact hreports.items

/-- The deadline ends a read with what has come of it. -/
theorem sized_lapse (h : Sized w) (hstate : w.bms.state = .awaiting) {event : Event} (hending : Ending w.bms event)
    (hseen : event.kind = .response → w.bms.framesSeen > 0) :
    Sized (complete (emit env (w.note .expired) event)) := by
  have hexpired := h.expire hstate
  refine (Sized.emit_opened henv (hexpired.raise event ?_ fun item data hdata => ?_)).complete
  · exact latest_watch.finish (hexpired.following.told hstate)
      (hexpired.following.head_known (h.following.pending hstate)) hending
  · have hexpecting := h.expecting hstate item data hdata
    have hpaged : (multiframeInfo w.bms.head.id).paginated := by
      rw [hexpecting.id]
      exact item.paginated
    have hholds := h.following.told hstate hpaged
    refine ⟨nofun, fun _ => Or.inr rfl, fun other hother => ?_⟩
    change (if event.kind = .response ∧ event.id = item.id then some event else none) = some other at hother
    split_ifs at hother with hresponse
    cases hother
    have hany : acceptedFrames w.log ≠ [] := by
      intro hnil
      have hpos := UInt8.lt_iff_toNat_lt.mp (hseen hresponse.1)
      rw [hholds.counted, hnil] at hpos
      exact absurd hpos (Nat.lt_irrefl 0)
    have hreports := hholds.reports hpaged hany hending
    rw [hexpecting.id, hexpecting.known_eq hholds] at hreports
    exact hreports.items

theorem sizing_turns : Turns env fun w w' => Sized w → Sized w' where
  refl := fun _ h => h
  trans := fun hab hbc h => hbc (hab h)
  poll := fun _ _ _ _ h => h.enqueue _
  reset := by
    intro w h
    have hmarked := h.mark .reset rfl rfl
    refine ⟨⟨h.following.reset latest_watch, fun item data hdata => ?_, nofun, hmarked.law⟩, hmarked.waits⟩
    rw [← hmarked.cached item data hdata]
    cases item <;> rfl
  setTxHandler := fun _ _ _ h => h.modify _
  setEventHandler := fun _ _ _ h => h.modify _
  setResponseTimeoutMs := fun _ _ h => h.modify _
  setInterframeTimeoutMs := fun _ _ h => h.modify _
  setMaxRetries := fun _ _ h => h.modify _
  parse := fun _ _ h => h.modify _
  clock := fun _ _ h => h.modify _
  reject := by
    rintro w ⟨kind, id, error, retries, frames, payload⟩ hevent h
    refine h.emit henv _ (fun item hread => ?_) (latest_watch.reject _ _ _ hevent)
    obtain rfl : kind = .response := hread.1
    cases error <;> cases hevent
  answer := fun _ _ hstate hsingle hending h => sized_answer henv h hstate hsingle hending
  gather := fun _ hstate hmulti hstream hrange hfull h => sized_gather h hstate ⟨hmulti, hstream⟩ hrange hfull
  conclude := fun _ _ hstate hmulti hstream hrange hfull hending h =>
    sized_conclude henv h hstate ⟨hmulti, hstream⟩ hrange hfull hending
  file := fun _ data hstate hid _ h =>
    (h.stream hstate hid (fileStream_same _ data) fun item => by cases item <;> rfl).modify _
  deliver := fun _ data hstate hid _ h =>
    ((h.stream hstate hid (fileStream_same _ data) fun item => by cases item <;> rfl).deliverRecord henv).resume
  sentinel := fun _ hstate hid _ h => ((h.stream hstate hid (.refl _) fun _ => rfl).mark .streamEnded rfl rfl).complete
  lapse := fun _ _ hstate _ hending hseen h => sized_lapse henv h hstate hending hseen
  retry := fun _ hstate _ _ _ h =>
    (((h.expire hstate).mark .retrying rfl rfl).modify _).transmit

end Runs

theorem sized_new (hostAddress : HostAddress) (bmsAddress : UInt8) :
    Sized (World.new hostAddress bmsAddress : World capacity) :=
  ⟨⟨.idle nofun trivial rfl, nofun, nofun, trivial⟩, nofun⟩

/-- Every read that goes by a 0x51 reply whose sum fits is as the boards' counts say, whatever is called and at whatever depth: the frame that makes up their number ends it and no frame before does, and it reports no more than they have. -/
theorem run_sizes_reads (react : World capacity → Handler → Event → List Call) (nesting : Nat)
    (hostAddress : HostAddress) (bmsAddress : UInt8) (calls : List Call) (item : Item) :
    let log := (run (.nested react nesting) (World.new hostAddress bmsAddress) calls).log
    History.Everywhere (fun past entry => ∀ data, sizedBy item past = some data → item.Fits (item.boards data) →
        item.Sizes (item.boards data) past entry) log ∧
      ∀ data, sizedBy item log = some data → item.Fits (item.boards data) → item.Waits (item.boards data) log := by
  intro log
  have hnested := nested_turns (ι := Unit) react (fun _ _ h => h) (fun env henv _ => sizing_turns (henv ())) ()
  have hsized := (sizing_turns (hnested nesting)).run _ calls (sized_new hostAddress bmsAddress)
  refine ⟨hsized.law.mono fun past entry hlaw data hdata hfits => ?_, fun data hdata hfits hlast harrived => ?_⟩
  · exact (hlaw item data hdata).of_wrapped hfits
  · exact hsized.waits item data hdata hlast (((item.fits_iff _).mp hfits _).mpr harrived)

/-- Where the latest request goes by what the boards have, their number fits. -/
def Item.FitsBoards (item : Item) (past : List (Entry capacity)) : Prop :=
  ∀ data ∈ sizedBy item past, item.Fits (item.boards data)

instance (item : Item) (past : List (Entry capacity)) : Decidable (item.FitsBoards past) :=
  @Option.decidableForallMem _ _ (fun data => inferInstanceAs (Decidable (item.Fits (item.boards data)))) (sizedBy item past)

theorem sizes_at {item : Item} {log : List (Entry capacity)} {waits : Prop}
    (hsizes : History.Everywhere (fun past entry => ∀ data, sizedBy item past = some data →
      item.Fits (item.boards data) → item.Sizes (item.boards data) past entry) log ∧ waits)
    (hfits : History.Everywhere (fun past _ => item.FitsBoards past) log)
    (later : List (Entry capacity)) (entry : Entry capacity) (past : List (Entry capacity))
    (hlog : log = later ++ entry :: past) (data : DataBytes) (hdata : sizedBy item past = some data) :
    item.Sizes (item.boards data) past entry :=
  History.everywhere_iff.mp hsizes.1 later entry past hlog data hdata
    (History.everywhere_iff.mp hfits later entry past hlog data hdata)

/-- Three boards of two cells, one and one, and the voltages of the four, the second frame first. -/
def smallPack : List Call :=
  [.setTxHandler (some 1) 0, .poll .bmuCellTempCount none 0,
    .feed (encode bmsAddress .bmuCellTempCount #v[3, 2, 1, 1, 0, 0, 0, 0]).toList, .poll (.cellVoltages 0) none 0,
    .feed (encode bmsAddress .cellVoltages #v[1, 0x0C, 0xE7, 0, 0, 0, 0, 0]).toList,
    .feed (encode bmsAddress .cellVoltages #v[0, 0x0C, 0xE4, 0x0C, 0xE5, 0x0C, 0xE6, 0]).toList]

/-- Its read goes by a count that fits, and is as the boards say. -/
theorem run_sizes_reads_smallPack :
    let log := (run (.nested (fun _ _ _ => []) 0) (World.new .comp bmsAddress : World 24) smallPack).log
    (∃ data, sizedBy .cell log = some data ∧ Item.cell.boards data = 4) ∧
      (log.filterMap (responseTo .cellVoltages)).length = 1 ∧
      ∀ later entry past, log = later ++ entry :: past → ∀ data, sizedBy .cell past = some data →
        Item.cell.Sizes (Item.cell.boards data) past entry := by
  refine ⟨⟨#v[3, 2, 1, 1, 0, 0, 0, 0], by decide +kernel, by decide⟩, by decide +kernel, ?_⟩
  apply sizes_at (run_sizes_reads (fun _ _ _ => []) 0 .comp bmsAddress smallPack .cell)
  decide +kernel

/-- What the log says of the end of a read, by the boards' own sum. -/
def Item.Counted (item : Item) (past : List (Entry capacity)) (entry : Entry capacity) : Prop :=
  ∀ data ∈ sizedBy item past, lastObs past = some .accepted →
    ((responseTo item.id entry).isSome ↔ item.Arrived (item.boards data) past)

instance (item : Item) (count : ℕ) (past : List (Entry capacity)) : Decidable (item.Arrived count past) :=
  inferInstanceAs (Decidable (_ ∧ _))

instance (item : Item) (past : List (Entry capacity)) (entry : Entry capacity) : Decidable (item.Counted past entry) :=
  @Option.decidableForallMem _ _ (fun _ => inferInstanceAs (Decidable (_ → _))) (sizedBy item past)

theorem not_sizes_of_not_counted {item : Item} {log : List (Entry capacity)}
    (h : ¬ History.Everywhere item.Counted log) :
    ¬ History.Everywhere (fun past entry => ∀ data, sizedBy item past = some data →
      item.Sizes (item.boards data) past entry) log :=
  fun hsizes => h (hsizes.mono fun _ _ hentry data hdata => (hentry data hdata).counted)

/-- Three boards of 100, 100 and 57 cells, which the session takes for one cell, and the first frame of their voltages. -/
def crowdedPack : List Call :=
  [.setTxHandler (some 1) 0, .poll .bmuCellTempCount none 0,
    .feed (encode bmsAddress .bmuCellTempCount #v[3, 100, 100, 57, 0, 0, 0, 0]).toList, .poll (.cellVoltages 0) none 0,
    .feed (encode bmsAddress .cellVoltages #v[0, 0x0C, 0xE4, 0x0C, 0xE4, 0x0C, 0xE4, 0]).toList]

/-- The first of sixteen frames ends the read. -/
theorem crowdedPack_cut_short :
    let log := (run (.nested (fun _ _ _ => []) 0) (World.new .comp bmsAddress : World 24) crowdedPack).log
    ¬ History.Everywhere (fun past entry => ∀ data, sizedBy .cell past = some data →
      Item.cell.Sizes (Item.cell.boards data) past entry) log := by
  apply not_sizes_of_not_counted
  decide +kernel

end Haidi
