import HaidiBms.Session.Reassembly
import HaidiBms.Session.Replies

/-!
# What any frames of a paginated reply amount to

Frames may come under any counters, in any order, and again with other contents. Each stands for its counter until another comes under it, so what a transfer has collected is told by the latest frame of each counter. When it ends, the unbroken run of counters from the lowest one is decoded, cut to what the command can carry, whatever the buffer held before.
-/

namespace Haidi

open Pages

variable {capacity : ℕ+}

/-- What was accepted of the reply to the latest request, newest first. The framer's buffer still holds a frame it has just handed over. -/
def acceptedFrames : List (Entry capacity) → List MessageBytes
  | [] => []
  | entry :: past =>
    match entry.obs with
    | .began => []
    | .accepted => entry.bms.parser.buf :: acceptedFrames past
    | _ => acceptedFrames past

/-- How many cells or sensors the pack is known to have, passed with the request or told by an earlier reply; zero where that is not known or not asked. -/
def HaidiBMS.itemCount (bms : HaidiBMS capacity) : UInt8 :=
  if bms.head.id = .cellVoltages then if bms.head.hint ≠ 0 then bms.head.hint else bms.cachedCellCount
  else if bms.head.id = .cellTemperatures then if bms.head.hint ≠ 0 then bms.head.hint else bms.cachedTempCount
  else 0

/-- The item count that was known when the latest request got the bus. -/
def knownItems : List (Entry capacity) → Nat
  | [] => 0
  | entry :: past =>
    match entry.obs with
    | .began => entry.bms.itemCount.toNat
    | _ => knownItems past

def counterOf (frame : MessageBytes) : Nat := (getElem (dataOf frame) 0 byte0_lt).toNat

/-- The latest of some frames, newest first, to have come under a counter. -/
def latest (frames : List MessageBytes) (counter : Nat) : Option MessageBytes :=
  frames.find? fun frame => counterOf frame = counter

/-- The payload bytes of a frame of a paginated reply. -/
def pageBytes (id : DataId) (frame : MessageBytes) : List UInt8 :=
  (List.range (multiframeInfo id).bytesPerFrame.toNat).map fun i => (dataOf frame).getD (1 + i) 0

/-- The payload bytes under `run` counters from `base` on, each those of its latest frame. -/
def stretchBytes (id : DataId) (frames : List MessageBytes) (base run : Nat) : List UInt8 :=
  (List.range run).flatMap fun j => ((latest frames (base + j)).map (pageBytes id)).getD []

/-- The event reports the latest frame of each counter in the unbroken run from the lowest one. -/
structure ReportsLatest (id : DataId) (items : Nat) (frames : List MessageBytes) (event : Event) : Prop where
  kind : event.kind = .response
  error : event.error = .none
  distinct : event.frames.toNat = (numbers frames).card
  payload : ∃ base run, Stretch (numbers frames) base run ∧
    let bytes := (stretchBytes id frames base run).take (payloadLimit id items)
    decodeMulti id bytes bytes.length = some event.payload

/-- A paginated request that ends with a frame accepted reports its latest frames. -/
def EndsLatest (past : List (Entry capacity)) (entry : Entry capacity) : Prop :=
  ∀ event, entry.obs = .raised event → event.isTerminal = true → (multiframeInfo event.id).paginated →
    acceptedFrames past ≠ [] → ReportsLatest event.id (knownItems past) (acceptedFrames past) event

/-! ### The decoders -/

theorem ofFn_congr {α : Type} {size n : Nat} {f g : Nat → α} (z : α) (h : ∀ i < n, f i = g i) :
    (Vector.ofFn fun i : Fin size => if i.val < n then f i.val else z) =
      Vector.ofFn fun i : Fin size => if i.val < n then g i.val else z := by
  congr 1
  funext i
  by_cases hi : i.val < n
  · rw [if_pos hi, if_pos hi, h _ hi]
  · rw [if_neg hi, if_neg hi]

/-- A decoder reads no further than it is told to. -/
theorem decodeMulti_congr (id : DataId) {buf buf' : List UInt8} {len : Nat}
    (h : ∀ i < len, byteAt buf i = byteAt buf' i) : decodeMulti id buf len = decodeMulti id buf' len := by
  have hbytes : ∀ {most : Nat}, ∀ i < (if len > most then most else len), byteAt buf i = byteAt buf' i :=
    fun i hi => h i (by split_ifs at hi <;> omega)
  have hwords : ∀ i < (if len / 2 > maxCells then maxCells else len / 2), rawBe16 buf (i * 2) = rawBe16 buf' (i * 2) := by
    intro i hi
    have : i * 2 + 1 < len := by split_ifs at hi <;> omega
    rw [rawBe16, rawBe16, h _ (by omega), h _ this]
  unfold decodeMulti
  split
  case h_7 =>
    dsimp only
    rw [ofFn_congr 0 hwords]
  case h_8 =>
    dsimp only
    rw [ofFn_congr 0 fun i hi => congrArg toTemperatureC (hbytes i hi)]
  case h_9 => rfl
  all_goals
    dsimp only
    rw [ofFn_congr 0 hbytes]

/-! ### The reply in the session -/

/-- The session holds the latest frame of each counter. -/
structure Holds (items : Nat) (frames : List MessageBytes) (bms : HaidiBMS capacity) : Prop where
  seen : counters bms.seenMask = numbers frames
  counted : bms.framesSeen.toNat = (numbers frames).card
  items : bms.expectedItems.toNat = items
  small : ∀ counter ∈ numbers frames, counter < 17
  filed : ∀ counter frame, latest frames counter = some frame →
    ∀ i < (multiframeInfo bms.head.id).bytesPerFrame.toNat,
      memory bms.assembly (counter * (multiframeInfo bms.head.id).bytesPerFrame.toNat + i) = (dataOf frame).getD (1 + i) 0

theorem numbers_cons (frame : MessageBytes) (frames : List MessageBytes) :
    numbers (frame :: frames) = insert (counterOf frame) (numbers frames) := List.toFinset_cons

theorem latest_cons (frame : MessageBytes) (frames : List MessageBytes) (counter : Nat) :
    latest (frame :: frames) counter = if counterOf frame = counter then some frame else latest frames counter := by
  rw [latest, List.find?_cons]
  by_cases h : counterOf frame = counter
  · rw [decide_eq_true h, if_pos h]
  · rw [decide_eq_false h, if_neg h]
    rfl

theorem latest_of_mem {frames : List MessageBytes} {counter : Nat} (h : counter ∈ numbers frames) :
    ∃ frame, latest frames counter = some frame := by
  obtain ⟨frame, hframe, hcounter⟩ := List.mem_map.mp (List.mem_toFinset.mp h)
  refine Option.isSome_iff_exists.mp (List.find?_isSome.mpr ⟨frame, hframe, ?_⟩)
  exact decide_eq_true hcounter

/-- Every counter of a stretch has a frame, and the frame is a page. -/
theorem length_page (id : DataId) {frames : List MessageBytes} {base run : ℕ} (h : Stretch (numbers frames) base run) :
    ∀ j < run, (((latest frames (base + j)).map (pageBytes id)).getD []).length = (multiframeInfo id).bytesPerFrame.toNat := by
  intro j hj
  obtain ⟨frame, hframe⟩ := latest_of_mem (h.unbroken.mem j hj)
  rw [hframe, Option.map_some, Option.getD_some, pageBytes, List.length_map, List.length_range]

theorem length_stretchBytes {id : DataId} {frames : List MessageBytes} {base run : ℕ}
    (h : Stretch (numbers frames) base run) :
    (stretchBytes id frames base run).length = run * (multiframeInfo id).bytesPerFrame.toNat :=
  Pages.length_flatMap_pages (length_page id h)

theorem beginAwaiting_fresh (bms : HaidiBMS capacity) :
    (beginAwaiting bms).seenMask = 0 ∧ (beginAwaiting bms).framesSeen = 0 ∧
      (beginAwaiting bms).expectedItems = bms.itemCount := by
  unfold beginAwaiting HaidiBMS.itemCount HaidiBMS.head
  dsimp only
  split_ifs <;> exact ⟨rfl, rfl, rfl⟩

theorem holds_began (w : World capacity) : Holds w.bms.itemCount.toNat [] (began w).bms := by
  obtain ⟨hmask, hseen, hitems⟩ := beginAwaiting_fresh { w.bms with state := .awaiting }
  exact
    { seen := counters_eq_empty.mpr hmask
      counted := congrArg UInt8.toNat hseen
      items := congrArg UInt8.toNat hitems
      small := fun _ hcounter => absurd hcounter (Finset.notMem_empty _)
      filed := fun _ _ hlatest => nomatch hlatest }

namespace Holds

variable {items : Nat} {frames : List MessageBytes} {bms bms' : HaidiBMS capacity}

theorem same (h : Holds items frames bms) (hsame : SameHolding bms bms') : Holds items frames bms' := by
  refine ⟨?_, ?_, ?_, h.small, ?_⟩
  · rw [hsame.seenMask]
    exact h.seen
  · rw [hsame.framesSeen]
    exact h.counted
  · rw [hsame.expectedItems]
    exact h.items
  · rw [hsame.head, hsame.assembly]
    exact h.filed

theorem collect (h : Holds items frames bms) (hrange : ¬ (dataOf bms.parser.buf)[0] > maxFrameIndex) :
    Holds items (bms.parser.buf :: frames) (collect bms bms.head.id (dataOf bms.parser.buf)) := by
  obtain ⟨hseen, hcount⟩ := collect_counts bms bms.head.id (dataOf bms.parser.buf) hrange (by rw [h.counted, h.seen])
  obtain ⟨hassembly, -, hitems⟩ := collect_assembly bms bms.head.id (dataOf bms.parser.buf)
  have hhead := (collect_same bms bms.head.id (dataOf bms.parser.buf)).head
  have hle : (dataOf bms.parser.buf)[0].toNat ≤ 16 := UInt8.le_iff_toNat_le.mp (UInt8.not_lt.mp hrange)
  have hnumbers := numbers_cons bms.parser.buf frames
  rw [h.seen] at hseen
  refine ⟨hseen.trans hnumbers.symm, hcount.trans (by rw [hseen, hnumbers]; rfl), by rw [hitems]; exact h.items, ?_, ?_⟩
  · rw [hnumbers]
    intro counter hcounter
    rcases Finset.mem_insert.mp hcounter with rfl | hcounter
    · exact Nat.lt_succ_of_le hle
    · exact h.small counter hcounter
  · have hfit : (dataOf bms.parser.buf)[0].toNat * (multiframeInfo bms.head.id).bytesPerFrame.toNat +
        (multiframeInfo bms.head.id).bytesPerFrame.toNat ≤ assemblyLen := by
      have := Nat.mul_le_mul (Nat.succ_le_succ hle) (multiframeInfo_le bms.head.id).1
      rwa [Nat.succ_mul] at this
    rw [hhead, hassembly, memory_fileFrame _ _ _ _ hfit]
    intro counter frame hlatest i hi
    rw [latest_cons] at hlatest
    split_ifs at hlatest with hcounter
    · cases hlatest
      rw [← hcounter]
      exact write_page hi
    · exact (write_other_page (Ne.symm hcounter) hi).trans (h.filed counter frame hlatest i hi)

/-- What is taken for payload is the unbroken stretch, cut to the limit. -/
theorem payloadWindow (h : Holds items frames bms) {base run : Nat} (hstretch : Stretch (numbers frames) base run) :
    payloadWindow bms bms.head.id =
      (base * (multiframeInfo bms.head.id).bytesPerFrame.toNat,
        min (run * (multiframeInfo bms.head.id).bytesPerFrame.toNat) (payloadLimit bms.head.id items)) := by
  rw [payloadWindow_stretch bms.head.id (h.seen.symm ▸ hstretch) (hstretch.le h.small), h.items]

/-- The bytes taken for payload are those of the latest frames. -/
theorem payload (h : Holds items frames bms) {base run : Nat} (hstretch : Stretch (numbers frames) base run) :
    let window := Haidi.payloadWindow bms bms.head.id
    let bytes := (stretchBytes bms.head.id frames base run).take (payloadLimit bms.head.id items)
    decodeMulti bms.head.id (bms.assembly.toList.drop window.1) window.2 =
      decodeMulti bms.head.id bytes bytes.length := by
  intro window bytes
  have hwidth := length_page bms.head.id hstretch
  have hlength : bytes.length = window.2 := by
    change (List.take _ _).length = (Haidi.payloadWindow bms bms.head.id).2
    rw [List.length_take, length_stretchBytes hstretch, h.payloadWindow hstretch, min_comm]
  rw [← hlength]
  refine decodeMulti_congr bms.head.id fun i hi => ?_
  have hrun : i < run * (multiframeInfo bms.head.id).bytesPerFrame.toNat ∧ i < payloadLimit bms.head.id items := by
    have hwindow := congrArg Prod.snd (h.payloadWindow hstretch)
    change window.2 = _ at hwindow
    rw [hlength, hwindow] at hi
    exact lt_min_iff.mp hi
  have hstart := congrArg Prod.fst (h.payloadWindow hstretch)
  have hfiled := h.filed
  change window.1 = _ at hstart
  generalize hw : (multiframeInfo bms.head.id).bytesPerFrame.toNat = width at hrun hwidth hstart hfiled
  have hpos : 0 < width := Nat.pos_of_ne_zero fun hzero => by
    rw [hzero, Nat.mul_zero] at hrun
    exact absurd hrun.1 (Nat.not_lt_zero _)
  have hquotient : i / width < run := Nat.div_lt_of_lt_mul (by rw [Nat.mul_comm]; exact hrun.1)
  obtain ⟨frame, hframe⟩ := latest_of_mem (hstretch.unbroken.mem (i / width) hquotient)
  have hmod := Nat.mod_lt i hpos
  have haddress : window.1 + i = (base + i / width) * width + i % width := by
    rw [hstart, Nat.add_mul, Nat.add_assoc, Nat.mul_comm (i / width), Nat.div_add_mod]
  have hread : byteAt bytes i = (dataOf frame).getD (1 + i % width) 0 := by
    rw [byteAt, List.getD_eq_getElem?_getD, List.getElem?_take_of_lt hrun.2, stretchBytes,
      getElem?_flatMap_pages hwidth hrun.1, hframe, Option.map_some, Option.getD_some, pageBytes, List.getElem?_map, hw,
      List.getElem?_range hmod]
    rfl
  rw [byteAt_drop, haddress, hfiled _ frame hframe _ hmod, hread]

/-- The request ends with a frame accepted. -/
theorem reports (h : Holds items frames bms) (hpaged : (multiframeInfo bms.head.id).paginated) (hany : frames ≠ [])
    {event : Event} (hending : Ending bms event) : ReportsLatest bms.head.id items frames event := by
  have hnonempty : (numbers frames).Nonempty := by
    obtain ⟨frame, rest, rfl⟩ := List.exists_cons_of_ne_nil hany
    exact ⟨counterOf frame, by rw [numbers_cons]; exact Finset.mem_insert_self _ _⟩
  have hmos : ¬ (bms.head.id = .dischargeMosControl ∨ bms.head.id = .chargeMosControl) := by
    rintro (hid | hid) <;> rw [hid] at hpaged <;> exact absurd hpaged (by decide)
  cases hending with
  | acknowledged _ hid => exact absurd hid hmos
  | refused _ hid => exact absurd hid hmos
  | decoded _ _ hsingle => exact absurd (hsingle.symm.trans hpaged.1) Bool.false_ne_true
  | undecoded _ hsingle => exact absurd (hsingle.symm.trans hpaged.1) Bool.false_ne_true
  | assembled payload _ _ hpayload =>
      obtain ⟨base, run, hstretch⟩ := exists_stretch hnonempty
      exact ⟨rfl, rfl, h.counted, base, run, hstretch, (h.payload hstretch).symm.trans hpayload⟩
  | unassembled _ _ hnone =>
      obtain ⟨payload, hpayload⟩ := decodeMulti_isSome hpaged (bms.assembly.toList.drop (Haidi.payloadWindow bms bms.head.id).1)
        (Haidi.payloadWindow bms bms.head.id).2
      rw [hnone] at hpayload
      cases hpayload
  | truncated hstream => exact absurd (hpaged.2.symm.trans hstream) Bool.false_ne_true
  | timeout hnone =>
      refine absurd ⟨hpaged.1, ?_⟩ hnone
      rw [gt_iff_lt, UInt8.lt_iff_toNat_lt, h.counted]
      exact Finset.card_pos.mpr hnonempty

end Holds

theorem latest_watch : Watch
    (fun (log : List (Entry capacity)) bms => (multiframeInfo bms.head.id).paginated → Holds (knownItems log) (acceptedFrames log) bms)
    EndsLatest where
  same := by
    intro past bms bms' h hsame hpaged
    rw [hsame.head] at hpaged
    exact (h hpaged).same hsame
  push := by
    intro past bms req room hcount h hpaged
    have hhead : HaidiBMS.head { bms with queue := bms.queue.push req room } = bms.head :=
      bms.queue.front_push req room hcount
    rw [hhead] at hpaged
    obtain ⟨hseen, hcounted, hitems, hsmall, hfiled⟩ := h hpaged
    refine ⟨hseen, hcounted, hitems, hsmall, ?_⟩
    rw [hhead]
    exact hfiled
  aside := by
    rintro past bms ⟨at', obs⟩ haside h
    cases obs <;> first | exact h | cases haside
  began := fun w _ _ => holds_began w
  single := fun _ hsingle hpaged => absurd (hsingle.symm.trans hpaged.1) Bool.false_ne_true
  collect := by
    rintro past bms _ h hpaged hrange rfl -
    exact (h hpaged).collect hrange
  file := by
    intro past bms data _ hid hpaged
    have hhead : (fileStream bms data).head.id = .faultRecords := hid
    rw [hhead] at hpaged
    exact absurd hpaged (by decide)
  expired := by
    rintro past bms ⟨at', obs⟩ rfl h
    exact h
  permits := by
    intro past entry hroutine event hobs
    rw [hobs] at hroutine
    cases hroutine
  invoke := fun _ _ _ _ _ hobs => nomatch hobs
  reject := by
    intro past bms event hrejection event' hobs hterminal
    cases hobs
    exact absurd ((Event.not_terminal_of_rejection hrejection).symm.trans hterminal) Bool.false_ne_true
  deliver := by
    intro past bms record event hobs hterminal
    cases hobs
    cases hterminal
  finish := by
    intro past bms event h _ hending event' hobs _ hpaged hany
    cases hobs
    rw [hending.id_eq] at hpaged ⊢
    exact (h hpaged).reports hpaged hany hending

/-- Whenever a paginated request ends with a frame of its reply accepted, whatever is called and at whatever depth: one response reports the number of distinct counters and decodes the latest frames of the unbroken run from the lowest counter, and nothing else. -/
theorem run_reports_latest (react : World capacity → Handler → Event → List Call) (nesting : Nat)
    (hostAddress : HostAddress) (bmsAddress : UInt8) (calls : List Call) :
    History.Everywhere EndsLatest (run (.nested react nesting) (World.new hostAddress bmsAddress) calls).log :=
  (latest_watch.run react nesting hostAddress bmsAddress calls).permitted

end Haidi
