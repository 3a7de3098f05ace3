import HaidiBms.Lib.Batches
import HaidiBms.Session.Delivery
import HaidiBms.Session.Noise

/-!
# A stream of records

The frames of a fault log are taken as they come: each adds seven bytes to the record being collected, and the one that fills it has it decoded and dispatched. Nothing is read from their counters but the sentinel's. So what a session makes of a stream is `Batches.deal` of the frames it hears, four at a time, however they are cut into chunks and whatever is turned away, asked or ticked in between.
-/

namespace Haidi

open Batches

variable {capacity : ℕ+}

/-- What of a run tells how a stream is taken: the frames accepted, the events raised that report no rejection, and the frames sent. -/
inductive Mark
  | accepted
  | raised (event : Event)
  | sent (frame : MessageBytes)
  deriving DecidableEq

def Obs.mark? : Obs → Option Mark
  | .accepted => some .accepted
  | .raised event => if event.isRejection then none else some (.raised event)
  | .sent _ _ frame => some (.sent frame)
  | _ => none

/-- The marks of a log, the oldest first. -/
def marks (log : List (Entry capacity)) : List Mark := (log.filterMap fun entry => entry.obs.mark?).reverse

theorem marks_cons (entry : Entry capacity) (past : List (Entry capacity)) :
    marks (entry :: past) = marks past ++ entry.obs.mark?.toList := by
  cases h : entry.obs.mark? <;> simp [marks, h]

/-- The bytes a frame adds to the record. -/
def recordBytes (data : DataBytes) : List UInt8 := data.toList.drop 1

/-- What a full record buffer is decoded to. -/
def recordOf (bytes : List UInt8) : FaultRecord := (decodeFaultRecord bytes faultBufferLen).get rfl

/-- The event for a record that has come in these frames. -/
def recordEvent (pages : List DataBytes) : Event :=
  { id := .faultRecords, frames := faultFramesPerRecord, payload := .faultRecord (recordOf (pages.flatMap recordBytes)) }

/-- The marks of a stream's frames and records. -/
def streamMark : DataBytes ⊕ List DataBytes → Mark
  | .inl _ => .accepted
  | .inr pages => .raised (recordEvent pages)

/-- A stream's frames are coming in for a request, and these have come of the next record. -/
structure Listening (address : UInt8) (req : Request) (held : List DataBytes) (bms : HaidiBMS capacity) : Prop where
  state : bms.state = .awaiting
  pending : 0 < bms.queue.count
  head : bms.head = req
  address : bms.bmsAddress = address
  recordLen : bms.recordLen = 7 * held.length
  room : held.length ≤ 4
  record : bms.record.toList.take (7 * held.length) = held.flatMap recordBytes

/-- What `Listening` looks at is as it was, and so is the framer. -/
structure SameStream (bms bms' : HaidiBMS capacity) : Prop where
  state : bms'.state = bms.state
  pending : 0 < bms.queue.count → 0 < bms'.queue.count
  head : 0 < bms.queue.count → bms'.head = bms.head
  address : bms'.bmsAddress = bms.bmsAddress
  recordLen : bms'.recordLen = bms.recordLen
  record : bms'.record = bms.record
  parser : bms'.parser = bms.parser

namespace SameStream

theorem refl (bms : HaidiBMS capacity) : SameStream bms bms := ⟨rfl, fun h => h, fun _ => rfl, rfl, rfl, rfl, rfl⟩

theorem trans {a b c : HaidiBMS capacity} (hab : SameStream a b) (hbc : SameStream b c) : SameStream a c :=
  ⟨hbc.state.trans hab.state, fun h => hbc.pending (hab.pending h),
    fun h => (hbc.head (hab.pending h)).trans (hab.head h), hbc.address.trans hab.address,
    hbc.recordLen.trans hab.recordLen, hbc.record.trans hab.record, hbc.parser.trans hab.parser⟩

end SameStream

variable {address : UInt8} {req : Request} {held : List DataBytes} {w : World capacity}

theorem Listening.same {bms bms' : HaidiBMS capacity} (h : Listening address req held bms) (hsame : SameStream bms bms') :
    Listening address req held bms' :=
  ⟨hsame.state.trans h.state, hsame.pending h.pending, (hsame.head h.pending).trans h.head,
    hsame.address.trans h.address, hsame.recordLen.trans h.recordLen, h.room, by rw [hsame.record]; exact h.record⟩

theorem Listening.parsed {bms : HaidiBMS capacity} (h : Listening address req held bms) (parser : FrameParser) :
    Listening address req held { bms with parser } :=
  ⟨h.state, h.pending, h.head, h.address, h.recordLen, h.room, h.record⟩

/-! ### Requests and events -/

variable (react : World capacity → Handler → Event → List Ask)

/-- A request made while another is in flight waits. -/
theorem enqueue_waits (w : World capacity) (req : Request) (hstate : w.bms.state = .awaiting) :
    SameStream w.bms (enqueue w req).1.bms ∧ marks (enqueue w req).1.log = marks w.log := by
  rcases enqueue_cases w req with ⟨status, -, heq⟩ | ⟨room, -, -, heq⟩ <;> rw [heq]
  · exact ⟨.refl _, (marks_cons _ _).trans (List.append_nil _)⟩
  · have hwaits : pump (accepted w req room) = accepted w req room :=
      if_pos (Or.inl (ne_of_eq_of_ne hstate (by decide)))
    dsimp only
    rw [hwaits, ite_self]
    exact ⟨⟨rfl, fun _ => Nat.succ_pos _, fun h => w.bms.queue.front_push req room h, rfl, rfl, rfl, rfl⟩,
      (marks_cons _ _).trans (List.append_nil _)⟩

/-- An event leaves the stream as it is. -/
theorem emit_asking (w : World capacity) (event : Event) (hstate : w.bms.state = .awaiting) :
    SameStream w.bms (emit (.asking react) w event).bms ∧
      marks (emit (.asking react) w event).log = marks w.log ++ (Obs.raised event).mark?.toList := by
  let Told : World capacity → Prop := fun w' =>
    SameStream w.bms w'.bms ∧ marks w'.log = marks w.log ++ (Obs.raised event).mark?.toList
  have hnote : ∀ (w' : World capacity) obs, Obs.mark? obs = none → Told w' → Told (w'.note obs) :=
    fun w' obs hobs h => ⟨h.1, (marks_cons _ _).trans (by rw [hobs, h.2]; exact List.append_nil _)⟩
  obtain ⟨w', hw', hemit⟩ := emit_rule (I := Told) (J := Told) (.asking react) w event
    ⟨⟨rfl, fun h => h, fun _ => rfl, rfl, rfl, rfl, rfl⟩, marks_cons _ _⟩ (fun w' handler h => hnote w' _ rfl h)
    (fun w' ask h => by
      obtain ⟨hsame, hmarks⟩ := enqueue_waits w' ask.request (h.1.state.trans hstate)
      exact ⟨h.1.trans hsame, hmarks.trans h.2⟩)
    (fun w' h => hnote w' _ rfl h)
  rw [hemit]
  cases w.bms.dispatching with
  | true => exact hnote _ _ rfl hw'
  | false =>
      refine hnote (w'.modify fun bms => { bms with dispatching := false }) _ rfl ⟨?_, hw'.2⟩
      exact hw'.1.trans ⟨rfl, fun h => h, fun _ => rfl, rfl, rfl, rfl, rfl⟩

/-! ### Frames -/

/-- A record with room for a frame takes its seven bytes. -/
theorem appendRecord_take (record : Vector UInt8 faultBufferLen) (recordLen : Nat) (data : DataBytes)
    (h : recordLen + 7 ≤ faultBufferLen) :
    (appendRecord record recordLen data).2 = recordLen + 7 ∧
      (appendRecord record recordLen data).1.toList.take (recordLen + 7) =
        record.toList.take recordLen ++ recordBytes data := by
  have hfill : ∀ (indices : List ℕ) (record : Vector UInt8 faultBufferLen) (recordLen : Nat),
      recordLen + indices.length ≤ faultBufferLen →
        let filled := indices.foldl (fun filled i => if filled.2 < faultBufferLen then
          (filled.1.setIfInBounds filled.2 (data.getD i 0), filled.2 + 1) else filled) (record, recordLen)
        filled.2 = recordLen + indices.length ∧ filled.1.toList.take (recordLen + indices.length) =
          record.toList.take recordLen ++ indices.map fun i => data.getD i 0 := by
    intro indices
    induction indices with
    | nil => exact fun record recordLen _ => ⟨rfl, (List.append_nil _).symm⟩
    | cons i rest ih =>
        intro record recordLen hroom
        rw [List.length_cons] at hroom
        obtain ⟨hlen, hbytes⟩ := ih (record.setIfInBounds recordLen (data.getD i 0)) (recordLen + 1) (by omega)
        rw [take_setIfInBounds _ _ (by omega), List.append_assoc] at hbytes
        rw [Nat.add_assoc, Nat.add_comm 1] at hlen hbytes
        simp only [List.foldl_cons, List.length_cons, List.map_cons]
        rw [if_pos (by omega)]
        exact ⟨hlen, hbytes⟩
  have hbytes : recordBytes data = (List.range' 1 (dataLen - 1)).map fun i => data.getD i 0 := by
    refine List.ext_getElem (by simp [recordBytes]) fun i hi hj => ?_
    have hlt : i + 1 < 8 := by
      simp only [recordBytes, List.length_drop, Vector.length_toList] at hi
      change i < 8 - 1 at hi
      omega
    simp [recordBytes, Vector.getD, Nat.add_comm 1 i, hlt]
  rw [hbytes]
  exact hfill (List.range' 1 (dataLen - 1)) record recordLen h

theorem Listening.fileStream {bms : HaidiBMS capacity} (h : Listening address req held bms) (hroom : held.length < 4)
    (data : DataBytes) :
    Listening address req (held ++ [data]) (fileStream bms data) ∧ (Haidi.fileStream bms data).parser = bms.parser := by
  have hfill : 7 * held.length + 7 = 7 * (held ++ [data]).length := by
    rw [List.length_append, List.length_singleton]
    omega
  obtain ⟨hlen, hbytes⟩ := appendRecord_take bms.record bms.recordLen data (by rw [h.recordLen]; change _ ≤ 4 * 7; omega)
  rw [h.recordLen, hfill] at hlen hbytes
  unfold Haidi.fileStream
  dsimp only
  refine ⟨⟨h.state, h.pending, h.head, h.address, ?_, by rw [List.length_append, List.length_singleton]; omega, ?_⟩, rfl⟩
  · rw [h.recordLen, hlen]
  · rw [h.recordLen, hbytes, h.record, List.flatMap_append, List.flatMap_singleton]

/-- A full record is decoded and dispatched, and the buffer emptied. -/
theorem deliverRecord_full (h : Listening address req held w.bms) (hfull : held.length = 4) :
    Listening address req [] (deliverRecord (.asking react) w .faultRecords).bms ∧
      (deliverRecord (.asking react) w .faultRecords).bms.parser = w.bms.parser ∧
      marks (deliverRecord (.asking react) w .faultRecords).log = marks w.log ++ [.raised (recordEvent held)] := by
  have hrecord : w.bms.record.toList = held.flatMap recordBytes := by
    rw [← h.record, hfull]
    exact (List.take_of_length_le (by simp)).symm
  have hdecoded : decodeFaultRecord w.bms.record.toList w.bms.recordLen = some (recordOf (held.flatMap recordBytes)) := by
    rw [hrecord, h.recordLen, hfull]
    rfl
  obtain ⟨hsame, hmarks⟩ := emit_asking react w (recordEvent held) h.state
  have hdeliver : deliverRecord (.asking react) w .faultRecords =
      (emit (.asking react) w (recordEvent held)).modify fun bms => { bms with recordLen := 0 } := by
    rw [deliverRecord, hdecoded]
    rfl
  have hheld := h.same hsame
  rw [hdeliver]
  exact ⟨⟨hheld.state, hheld.pending, hheld.head, hheld.address, rfl, Nat.zero_le _, rfl⟩, hsame.parser, hmarks⟩

theorem armInterframe_same (w : World capacity) : SameStream w.bms (armInterframe w).bms :=
  ⟨rfl, fun h => h, fun _ => rfl, rfl, rfl, rfl, rfl⟩

/-- What a frame leads to once it has been filed. -/
theorem Listening.filed {data : DataBytes} (h : Listening address req (held ++ [data]) w.bms) {past : List Mark}
    (hpast : marks w.log = past ++ [.accepted]) :
    let w' := resume (if w.bms.recordLen ≥ faultBufferLen then deliverRecord (.asking react) w .faultRecords else w)
    Listening address req (left 4 held [data]) w'.bms ∧ w'.bms.parser = w.bms.parser ∧
      marks w'.log = past ++ (deal 4 held [data]).map streamMark := by
  have hlength : (held ++ [data]).length = held.length + 1 := List.length_append
  have hlen := h.recordLen
  have hroom := h.room
  rw [hlength] at hlen hroom
  dsimp only
  rw [left, deal]
  by_cases hfull : held.length + 1 = 4
  · obtain ⟨hdelivered, hparser, hmarks⟩ := deliverRecord_full react h (hlength.trans hfull)
    have hready : w.bms.recordLen ≥ faultBufferLen := by
      rw [hlen, hfull]
    rw [if_pos hready, if_pos hfull, if_pos hfull, resume, if_neg (not_not.mpr hdelivered.state)]
    refine ⟨hdelivered.same (armInterframe_same _), hparser, hmarks.trans ?_⟩
    rw [hpast, List.append_assoc]
    rfl
  · have hshort : ¬ w.bms.recordLen ≥ faultBufferLen := by
      rw [hlen]
      change ¬ 7 * (held.length + 1) ≥ 4 * 7
      omega
    rw [if_neg hshort, if_neg hfull, if_neg hfull, resume, if_neg (not_not.mpr h.state)]
    exact ⟨h.same (armInterframe_same _), rfl, hpast⟩

/-- A frame of the stream is taken. -/
theorem Listening.handleStream (h : Listening address req held w.bms) (hroom : held.length < 4) {data : DataBytes}
    (hdata : data[0] ≠ frameNoEnd) :
    Listening address req (left 4 held [data]) (handleStream (.asking react) w .faultRecords data).bms ∧
      (Haidi.handleStream (.asking react) w .faultRecords data).bms.parser = w.bms.parser ∧
      marks (Haidi.handleStream (.asking react) w .faultRecords data).log =
        marks w.log ++ (deal 4 held [data]).map streamMark := by
  obtain ⟨hfiled, hparser⟩ := h.fileStream hroom data
  have hmarks : marks ((w.note .accepted).modify fun bms => Haidi.fileStream bms data).log = marks w.log ++ [.accepted] :=
    marks_cons _ _
  unfold Haidi.handleStream
  dsimp only
  rw [if_neg hdata]
  obtain ⟨hheld, hparser', hmarks'⟩ := Listening.filed react
    (w := (w.note .accepted).modify fun bms => Haidi.fileStream bms data) hfiled hmarks
  exact ⟨hheld, hparser'.trans hparser, hmarks'⟩

/-! ### What is heard -/

/-- A frame of the stream: from the pack's address, and for the fault log. -/
def IsPage (address : UInt8) (frame : MessageBytes) : Prop :=
  frame[msgAddressIndex] = address ∧ frame[msgDataIdIndex] = DataId.faultRecords

instance (address : UInt8) (frame : MessageBytes) : Decidable (IsPage address frame) :=
  inferInstanceAs (Decidable (_ ∧ _))

/-- The data of the stream's frames among those that come in. -/
def pages (address : UInt8) (frames : List MessageBytes) : List DataBytes :=
  (frames.filter fun frame => IsPage address frame).map dataOf

theorem pages_append (address : UInt8) (frames more : List MessageBytes) :
    pages address (frames ++ more) = pages address frames ++ pages address more := by
  rw [pages, List.filter_append, List.map_append, pages, pages]

/-- The way from one session to another through a stream's frames. -/
structure Takes (address : UInt8) (req : Request) (held data : List DataBytes) (w w' : World capacity) : Prop where
  listening : Listening address req (left 4 held data) w'.bms
  marks : marks w'.log = marks w.log ++ (deal 4 held data).map streamMark

namespace Takes

theorem refl (h : Listening address req held w.bms) : Takes address req held [] w w := ⟨h, (List.append_nil _).symm⟩

theorem trans {data more : List DataBytes} {a b c : World capacity} (hab : Takes address req held data a b)
    (hbc : Takes address req (left 4 held data) more b c) : Takes address req held (data ++ more) a c := by
  refine ⟨by rw [left_append]; exact hbc.listening, ?_⟩
  rw [hbc.marks, hab.marks, deal_append, List.map_append, List.append_assoc]

end Takes

/-- A frame of the stream gets to it. -/
theorem Listening.onFrame_page (h : Listening address req held w.bms) (hid : req.id = .faultRecords)
    {frame : MessageBytes} (hpage : IsPage address frame) :
    Haidi.onFrame (.asking react) w frame = Haidi.handleStream (.asking react) w .faultRecords (dataOf frame) := by
  have hhead : w.bms.head.id = .faultRecords := (congrArg Request.id h.head).trans hid
  have hkept : (w.modify fun bms => noteCounts bms .faultRecords (dataOf frame)) = w := by
    rw [World.modify, noteCounts_multi rfl]
  unfold Haidi.onFrame
  dsimp only
  rw [if_neg (not_not.mpr h.state), if_neg (not_not.mpr (hpage.1.trans h.address.symm)),
    if_neg (not_not.mpr (hpage.2.trans hhead.symm)), hpage.2, hkept]
  rfl

/-- A frame is taken, or turned away. -/
theorem Listening.onFrame (h : Listening address req held w.bms) (hid : req.id = .faultRecords) (hroom : held.length < 4)
    (frame : MessageBytes) (hdata : ∀ data ∈ pages address [frame], data[0] ≠ frameNoEnd) :
    Takes address req held (pages address [frame]) w (onFrame (.asking react) w frame) ∧
      (Haidi.onFrame (.asking react) w frame).bms.parser = w.bms.parser := by
  have hhead : w.bms.head.id = .faultRecords := (congrArg Request.id h.head).trans hid
  by_cases hpage : IsPage address frame
  · have hpages : pages address [frame] = [dataOf frame] := by
      rw [pages, List.filter_cons_of_pos (by simpa using hpage), List.filter_nil, List.map_singleton]
    rw [hpages] at hdata ⊢
    obtain ⟨hheld, hparser, hmarks⟩ := h.handleStream react hroom (hdata _ (List.mem_singleton_self _))
    rw [h.onFrame_page react hid hpage]
    exact ⟨⟨hheld, hmarks⟩, hparser⟩
  · have hpages : pages address [frame] = [] := by
      rw [pages, List.filter_cons_of_neg (by simpa using hpage), List.filter_nil, List.map_nil]
    obtain ⟨error, hrejected⟩ : ∃ error, rejection? w.bms frame = some error := by
      unfold rejection?
      rw [if_neg (not_not.mpr h.state)]
      by_cases haddress : frame[msgAddressIndex] ≠ w.bms.bmsAddress
      · exact ⟨_, if_pos haddress⟩
      · rw [if_neg haddress]
        rw [not_not, h.address] at haddress
        exact ⟨_, if_pos fun hsame => hpage ⟨haddress, hsame.trans hhead⟩⟩
    obtain ⟨hsame, hmarks⟩ := emit_asking react w (rejected frame error) h.state
    rw [hpages, onFrame_rejected _ w frame hrejected]
    refine ⟨⟨h.same hsame, hmarks.trans ?_⟩, hsame.parser⟩
    rw [Obs.mark?, if_pos (rejected_isRejection hrejected)]
    rfl

/-! ### Calls -/

/-- A call that brings no byte, neither resets the session nor finds the deadline passed. -/
theorem Listening.quiet (h : Listening address req held w.bms) {c : Call} (hreceived : c.received = [])
    (hcalm : Undisturbed (.asking react) w [c]) :
    Takes address req held [] w (call (.asking react) w c) ∧ (call (.asking react) w c).bms.parser = w.bms.parser := by
  have htakes : ∀ {w'}, SameStream w.bms w'.bms → marks w'.log = marks w.log →
      Takes address req held [] w w' ∧ w'.bms.parser = w.bms.parser := fun hsame hmarks =>
    ⟨⟨h.same hsame, hmarks.trans (List.append_nil _).symm⟩, hsame.parser⟩
  cases c with
  | poll method fn ctx =>
      obtain ⟨hsame, hmarks⟩ := enqueue_waits w (method.toRequest fn ctx) h.state
      exact htakes hsame hmarks
  | feed bytes =>
      cases hreceived
      exact htakes (.refl _) rfl
  | tick nowMs =>
      have hcall : call (.asking react) w (.tick nowMs) = ticked w nowMs :=
        if_pos (Or.inr ((Bool.not_eq_true' _).mpr hcalm.1))
      rw [hcall]
      exact htakes ⟨rfl, fun h => h, fun _ => rfl, rfl, rfl, rfl, rfl⟩ rfl
  | reset => exact hcalm.1.elim
  | setTxHandler | setEventHandler | setResponseTimeoutMs | setInterframeTimeoutMs | setMaxRetries =>
      exact htakes ⟨rfl, fun h => h, fun _ => rfl, rfl, rfl, rfl, rfl⟩ rfl

/-- The frames of the stream are taken until the sentinel. -/
theorem Takes.reception (w : World capacity) (hid : req.id = .faultRecords) (hroom : held.length < 4) :
    Reception (.asking react) (fun frames => ∀ data ∈ pages address frames, data[0] ≠ frameNoEnd)
      (fun frames w' => Takes address req held (pages address frames) w w') where
  earlier := by
    intro taken more hdata
    rw [pages_append] at hdata
    exact (List.forall_mem_append.mp hdata).1
  parsed := fun parser htakes => ⟨htakes.listening.parsed parser, htakes.marks⟩
  frame := by
    intro taken w' frame hdata htakes
    rw [pages_append] at hdata ⊢
    obtain ⟨hframe, hparser⟩ := htakes.listening.onFrame react hid (length_left _ hroom) frame
      (List.forall_mem_append.mp hdata).2
    exact ⟨htakes.trans hframe, hparser⟩
  quiet := by
    intro taken w' c hreceived hcalm htakes
    obtain ⟨hquiet, hparser⟩ := htakes.listening.quiet react hreceived hcalm
    have hboth := htakes.trans hquiet
    rw [List.append_nil] at hboth
    exact ⟨hboth, hparser⟩

theorem Listening.run (h : Listening address req held w.bms) (hid : req.id = .faultRecords) (hroom : held.length < 4)
    (calls : List Call) (hcalm : Undisturbed (.asking react) w calls) (frames : List MessageBytes)
    (hsignals : (w.bms.parser.feed (received calls)).2 = frames.map .frame)
    (hdata : ∀ data ∈ pages address frames, data[0] ≠ frameNoEnd) :
    Takes address req held (pages address frames) w (run (.asking react) w calls) ∧
      (Haidi.run (.asking react) w calls).bms.parser = (w.bms.parser.feed (received calls)).1 := by
  have hstart : Takes address req held (pages address []) w w := .refl h
  exact (Takes.reception react w hid hroom).run hstart calls hcalm frames hsignals hdata

/-! ### From the request to the sentinel -/

theorem transmit_stream (w : World capacity) : SameStream w.bms (transmit w).bms := by
  rcases transmit_cases w with ⟨-, heq⟩ | ⟨fn, heq⟩ <;> rw [heq] <;>
    exact ⟨rfl, fun h => h, fun _ => rfl, rfl, rfl, rfl, rfl⟩

/-- The request gets the bus, and nothing has come of a record. -/
theorem listening_pump (w : World capacity) (hidle : w.bms.state = .idle) (hpending : 0 < w.bms.queue.count) :
    Listening w.bms.bmsAddress w.bms.head [] (pump w).bms ∧ (pump w).bms.parser = w.bms.parser := by
  have hsame := began_same w
  have hfresh : (began w).bms.recordLen = 0 ∧ (began w).bms.bmsAddress = w.bms.bmsAddress ∧
      (began w).bms.parser = w.bms.parser := by
    obtain ⟨_, _, heq⟩ := began_eq w
    rw [heq]
    exact ⟨rfl, rfl, rfl⟩
  have hbegan : Listening w.bms.bmsAddress w.bms.head [] (began w).bms :=
    ⟨hsame.state, by rw [hsame.queue]; exact hpending, hsame.head, hfresh.2.1, hfresh.1, Nat.zero_le _, rfl⟩
  have hsent := transmit_stream (began w)
  rw [pump_idle w hidle hpending]
  exact ⟨hbegan.same hsent, hsent.parser.trans hfresh.2.2⟩

theorem transmit_marks (w : World capacity) :
    marks (transmit w).log = marks w.log ++
      if w.bms.txFn = none then [] else [.sent (encode w.bms.hostAddress w.bms.head.id w.bms.head.data)] := by
  unfold transmit
  cases w.bms.txFn with
  | none => exact (List.append_nil _).symm
  | some fn => exact marks_cons _ _

/-- What is sent when the request in flight is retired: the next one, if there is one and a way to send it. -/
def nextSent (bms : HaidiBMS capacity) : List Mark :=
  if bms.txFn = none then []
  else (bms.queue.contents.tail.head?.map fun req => Mark.sent (encode bms.hostAddress req.id req.data)).toList

/-- The request in flight is retired and the next one given the bus. -/
theorem complete_marks (w : World capacity) (hstate : w.bms.state = .awaiting) :
    marks (complete w).log = marks w.log ++ nextSent w.bms ∧
      (complete w).bms.queue.contents = w.bms.queue.contents.tail := by
  have hcontents : (retired w).bms.queue.contents = w.bms.queue.contents.tail := by
    change (ite _ _ _ : RingBuffer Request capacity).contents = _
    rw [World.note_bms, if_pos hstate, RingBuffer.contents_pop]
  have hretired : marks (retired w).log = marks w.log := (marks_cons _ _).trans (List.append_nil _)
  rw [complete_eq, nextSent]
  rcases pump_cases (retired w) with ⟨heq, hempty⟩ | ⟨-, hcount, heq⟩ <;> rw [heq]
  · have hnone : w.bms.queue.contents.tail = [] := by
      rw [← hcontents]
      exact (RingBuffer.contents_eq_nil _).mpr (hempty rfl)
    refine ⟨?_, hcontents⟩
    rw [hretired, hnone]
    split_ifs <;> exact (List.append_nil _).symm
  · have hsame := began_same (retired w)
    have hbegan : marks (began (retired w)).log = marks w.log := (marks_cons _ _).trans ((List.append_nil _).trans hretired)
    have hhead : w.bms.queue.contents.tail.head? = some (began (retired w)).bms.head := by
      rw [← hcontents, RingBuffer.contents_eq_cons _ hcount, hsame.head]
      rfl
    refine ⟨?_, ?_⟩
    · rw [transmit_marks, hbegan, began_txFn, hsame.hostAddress, hhead]
      rfl
    · rw [(transmit_same _).queue, hsame.queue]
      exact hcontents

/-- The byte that completes the sentinel ends the request and does nothing else. -/
theorem Listening.sentinel (h : Listening address req held w.bms) (hid : req.id = .faultRecords) {byte : UInt8}
    {frame : MessageBytes} (hbyte : (w.bms.parser.step byte).2 = some (.frame frame)) (hpage : IsPage address frame)
    (hend : (dataOf frame)[0] = frameNoEnd) :
    marks (Haidi.run (.asking react) w [.feed [byte]]).log = marks w.log ++ .accepted :: nextSent w.bms ∧
      (Haidi.run (.asking react) w [.feed [byte]]).bms.queue.contents = w.bms.queue.contents.tail := by
  have hparsed : Listening address req held (w.modify fun bms => { bms with parser := (w.bms.parser.step byte).1 }).bms :=
    h.parsed _
  have hrun : Haidi.run (.asking react) w [.feed [byte]] =
      complete (((w.modify fun bms => { bms with parser := (w.bms.parser.step byte).1 }).note .accepted).note
        .streamEnded) := by
    change feedByte (.asking react) w byte = _
    rw [feedByte, hbyte]
    refine (hparsed.onFrame_page react hid hpage).trans ?_
    rw [Haidi.handleStream, if_pos hend]
  obtain ⟨hmarks, hcontents⟩ := complete_marks (((w.modify fun bms =>
    { bms with parser := (w.bms.parser.step byte).1 }).note .accepted).note .streamEnded) h.state
  rw [hrun]
  refine ⟨hmarks.trans ?_, hcontents⟩
  change marks (_ :: _ :: w.log) ++ _ = _
  rw [marks_cons, marks_cons, List.append_assoc, List.append_assoc]
  rfl

/-- A pack's answer to the request about to get the bus: frames of which these are the stream's, in calls that neither reset the session nor find its deadline passed, and then the byte that completes the sentinel. -/
structure StreamAnswer (w : World capacity) (sent : List DataBytes) (calls : List Call) (frames : List MessageBytes)
    (byte : UInt8) (sentinel : MessageBytes) : Prop where
  calm : Undisturbed (.asking react) (pump w) calls
  signals : (w.bms.parser.feed (received calls)).2 = frames.map .frame
  heard : pages w.bms.bmsAddress frames = sent
  last : ((w.bms.parser.feed (received calls)).1.step byte).2 = some (.frame sentinel)
  sentinelPage : IsPage w.bms.bmsAddress sentinel
  sentinelCounter : (dataOf sentinel)[0] = frameNoEnd

theorem undisturbed_take {C : Type} (env : Env capacity C) {w : World capacity} {calls : List Call}
    (h : Undisturbed env w calls) (n : ℕ) : Undisturbed env w (calls.take n) := by
  induction calls generalizing w n with
  | nil =>
      rw [List.take_nil]
      trivial
  | cons c rest ih =>
      cases n with
      | zero => trivial
      | succ n => exact ⟨h.1, ih h.2 n⟩

/-- What a session makes of an answer. -/
theorem StreamAnswer.taken {w : World capacity} {sent : List DataBytes} {calls : List Call} {frames : List MessageBytes}
    {byte : UInt8} {sentinel : MessageBytes} (h : StreamAnswer react w sent calls frames byte sentinel)
    (hidle : w.bms.state = .idle) (hpending : 0 < w.bms.queue.count) (hid : w.bms.head.id = .faultRecords)
    (hsent : ∀ data ∈ sent, data[0] ≠ frameNoEnd) :
    let before := Haidi.run (.asking react) (pump w) calls
    let after := Haidi.run (.asking react) (pump w) (calls ++ [.feed [byte]])
    (∀ n, (Haidi.run (.asking react) (pump w) (calls.take n)).bms.owner = some w.bms.head) ∧
      marks before.log = marks (pump w).log ++ (deal 4 [] sent).map streamMark ∧
      marks after.log = marks before.log ++ .accepted :: nextSent before.bms ∧
      after.bms.queue.contents = before.bms.queue.contents.tail := by
  intro before after
  obtain ⟨hstart, hparser⟩ := listening_pump w hidle hpending
  have hframes := h.signals
  have hlast := h.last
  have hpages := h.heard
  rw [← hparser] at hframes hlast
  rw [← hpages] at hsent ⊢
  obtain ⟨htakes, hparser'⟩ := hstart.run react hid (Nat.zero_lt_succ 3) calls h.calm frames hframes hsent
  rw [← hparser'] at hlast
  obtain ⟨hmarks, hcontents⟩ := htakes.listening.sentinel react hid hlast h.sentinelPage h.sentinelCounter
  refine ⟨fun n => ?_, htakes.marks, ?_, ?_⟩
  · have hsplit : received calls = received (calls.take n) ++ received (calls.drop n) := by
      rw [received, received, received, ← List.flatMap_append, List.take_append_drop]
    rw [hsplit, FrameParser.feed_append] at hframes
    obtain ⟨now, later, rfl, hnow, -⟩ := List.map_eq_append_iff.mp hframes.symm
    rw [pages_append] at hsent
    obtain ⟨hfirst, -⟩ := hstart.run react hid (Nat.zero_lt_succ 3) (calls.take n) (undisturbed_take _ h.calm n) now
      hnow.symm (List.forall_mem_append.mp hsent).1
    have hlistening := hfirst.listening
    rw [HaidiBMS.owner, if_pos ⟨hlistening.state, hlistening.pending⟩, hlistening.head]
  · rw [← hmarks, ← run_append]
  · rw [← hcontents, ← run_append]

end Haidi
