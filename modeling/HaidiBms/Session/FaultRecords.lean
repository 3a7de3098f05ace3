import HaidiBms.Records
import HaidiBms.Session.Stream

/-!
# The fault log, whole and with losses

A pack answers a poll for its fault log with records of twenty-seven bytes and one of slack, four frames a record, and the sentinel. Where all of them arrive, each record is delivered on its fourth frame, field for field as documented. Where some are lost, records are still cut by the count of what arrives: `Aligned` says for which losses each record delivered is one the pack sent.
-/

namespace Haidi

open Batches

variable {capacity : ℕ+}

/-- A record as a pack sends it. -/
structure SentRecord where
  bytes : Vector UInt8 faultRecordLen
  slack : UInt8
  counters : Vector UInt8 4
  counters_ne : ∀ i : Fin 4, counters[i] ≠ frameNoEnd

namespace SentRecord

variable (record : SentRecord)

/-- What its four frames carry. -/
def content : List UInt8 := record.bytes.toList ++ [record.slack]

/-- The data of one of its frames. -/
def page (i : Fin 4) : DataBytes :=
  Vector.ofFn fun j => if j.val = 0 then record.counters[i] else record.content.getD (7 * i + (j - 1)) 0

def pages : List DataBytes := (List.finRange 4).map record.page

/-- The event that delivers it. -/
def response : Event :=
  { id := .faultRecords, frames := faultFramesPerRecord, payload := .faultRecord (recordOf record.content) }

theorem length_content : record.content.length = 28 := by simp [content]

theorem page_counter (i : Fin 4) : (record.page i)[0] = record.counters[i] := by simp [page]

theorem recordBytes_page (i : Fin 4) : recordBytes (record.page i) = (record.content.drop (7 * i)).take 7 := by
  have hlength := record.length_content
  have hi := i.isLt
  refine List.ext_getElem (by simp [recordBytes]; omega) fun j hj hj' => ?_
  have hlt : j < 7 := by
    simp only [recordBytes, List.length_drop, Vector.length_toList] at hj
    change j < 8 - 1 at hj
    omega
  have hin : 7 * i.val + j < record.content.length := by omega
  simp [recordBytes, page, hin]

/-- The frames of a record carry its content. -/
theorem pages_content : record.pages.flatMap recordBytes = record.content := by
  have hcut : ∀ n, record.content.drop n = (record.content.drop n).take 7 ++ record.content.drop (n + 7) := fun n => by
    rw [← List.drop_drop, List.take_append_drop]
  have hend : record.content.drop 28 = [] := List.drop_eq_nil_of_le record.length_content.le
  calc record.pages.flatMap recordBytes
    _ = (record.content.drop 0).take 7 ++ ((record.content.drop 7).take 7 ++ ((record.content.drop 14).take 7 ++
          ((record.content.drop 21).take 7 ++ []))) := by
        change recordBytes (record.page 0) ++ (recordBytes (record.page 1) ++ (recordBytes (record.page 2) ++
          (recordBytes (record.page 3) ++ []))) = _
        rw [recordBytes_page, recordBytes_page, recordBytes_page, recordBytes_page]
        rfl
    _ = record.content := by
        rw [← hend, ← hcut 21, ← hcut 14, ← hcut 7, ← hcut 0, List.drop_zero]

theorem recordEvent_pages : recordEvent record.pages = record.response := by
  rw [recordEvent, pages_content]
  rfl

theorem length_pages : record.pages.length = 4 := by rw [pages, List.length_map, List.length_finRange]

theorem pages_counter : ∀ data ∈ record.pages, data[0] ≠ frameNoEnd := by
  intro data hdata
  obtain ⟨i, -, rfl⟩ := List.mem_map.mp hdata
  rw [page_counter]
  exact record.counters_ne i

/-- The marks of a record that arrives whole. -/
def marks : List Mark := [.accepted, .accepted, .accepted, .accepted, .raised record.response]

theorem marks_eq : (record.pages.map Sum.inl ++ [Sum.inr record.pages]).map streamMark = record.marks := by
  rw [List.map_append, List.map_singleton, streamMark, recordEvent_pages]
  rfl

end SentRecord

theorem recordOf_documents {bytes : List UInt8} (h : faultRecordLen ≤ bytes.length) :
    Documents (byteAt bytes) (recordOf bytes) := by
  obtain ⟨record, hdecoded, hdocuments⟩ := decodeFaultRecord_documents bytes faultBufferLen (by decide) h
  have hrecord : recordOf bytes = record := Option.some.inj ((Option.some_get _).trans hdecoded)
  rw [hrecord]
  exact hdocuments

variable (react : World capacity → Handler → Event → List Ask)

/-- A fault log of which everything arrives is delivered exactly: each record on its fourth frame, with every field as documented, and nothing else but the reports of what is turned away; the request stays in flight until the sentinel, which ends it and has the next one sent. -/
theorem fault_log_delivered (w : World capacity) (hidle : w.bms.state = .idle) (hpending : 0 < w.bms.queue.count)
    (hid : w.bms.head.id = .faultRecords) (records : List SentRecord) {calls : List Call} {frames : List MessageBytes}
    {byte : UInt8} {sentinel : MessageBytes}
    (hanswer : StreamAnswer react w (records.flatMap SentRecord.pages) calls frames byte sentinel) :
    let before := run (.asking react) (pump w) calls
    let after := run (.asking react) (pump w) (calls ++ [.feed [byte]])
    (∀ n, (run (.asking react) (pump w) (calls.take n)).bms.owner = some w.bms.head) ∧
      (∃ values : List FaultRecord,
        List.Forall₂ (fun (record : SentRecord) value => Documents (byteAt record.content) value) records values ∧
        marks before.log = marks (pump w).log ++ values.flatMap fun value =>
          [.accepted, .accepted, .accepted, .accepted,
            .raised { id := .faultRecords, frames := 4, payload := .faultRecord value }]) ∧
      marks after.log = marks before.log ++ .accepted :: nextSent before.bms ∧
      after.bms.queue.contents = before.bms.queue.contents.tail := by
  intro before after
  have hcounters : ∀ data ∈ records.flatMap SentRecord.pages, data[0] ≠ frameNoEnd := by
    intro data hdata
    obtain ⟨record, -, hrecord⟩ := List.mem_flatMap.mp hdata
    exact record.pages_counter data hrecord
  have hdealt : (deal 4 [] (records.flatMap SentRecord.pages)).map streamMark = records.flatMap SentRecord.marks := by
    have hgroups : ∀ group ∈ records.map SentRecord.pages, group.length = 4 := by
      intro group hgroup
      obtain ⟨record, -, rfl⟩ := List.mem_map.mp hgroup
      exact record.length_pages
    rw [List.flatMap_def, deal_groups hgroups (by decide), List.flatMap_map, List.map_flatMap]
    exact congrArg (List.flatMap · records) (funext SentRecord.marks_eq)
  obtain ⟨hflight, hmarks, hlast, hcontents⟩ := hanswer.taken react hidle hpending hid hcounters
  refine ⟨hflight, ⟨records.map fun record => recordOf record.content, ?_, ?_⟩, hlast, hcontents⟩
  · refine List.forall₂_map_right_iff.mpr (List.forall₂_same.mpr fun record _ => recordOf_documents ?_)
    rw [record.length_content]
    decide
  · rw [hmarks, hdealt, List.flatMap_map]
    rfl

/-! ### A log of two records -/

/-- A record of one byte over and over. -/
def flatRecord (fill base : UInt8) (h : ∀ i : Fin 4, #v[base, base + 1, base + 2, base + 3][i] ≠ frameNoEnd) :
    SentRecord where
  bytes := Vector.replicate faultRecordLen fill
  slack := fill
  counters := #v[base, base + 1, base + 2, base + 3]
  counters_ne := h

def pageFrame (data : DataBytes) : MessageBytes := encode bmsAddress .faultRecords data

def sentinelFrame : MessageBytes := pageFrame #v[frameNoEnd, 0, 0, 0, 0, 0, 0, 0]

def logHost {capacity : ℕ+} : World capacity :=
  run (.asking fun _ _ _ => []) (World.new .comp bmsAddress) [.setTxHandler (some 1) 0]

theorem logHost_room {capacity : ℕ+} : (logHost : World capacity).bms.queue.count < capacity := PNat.pos capacity

theorem logHost_room_again {capacity : ℕ+} (h : 1 < (capacity : ℕ)) (req : Request) :
    (accepted (logHost : World capacity) req logHost_room).bms.queue.count < capacity := h

/-- A session whose fault log poll is about to get the bus, with another request behind it. -/
def logPolled {capacity : ℕ+} (h : 1 < (capacity : ℕ)) : World capacity :=
  accepted (accepted logHost (Poll.faultRecords.toRequest none 0) logHost_room) (Poll.rtc.toRequest none 0)
    (logHost_room_again h _)

theorem room_for_two : 1 < ((24 : ℕ+) : ℕ) := by decide

/-- A frame for another command arrives in between. -/
theorem fault_log_delivered_interleaved :
    let record := flatRecord 1 7 (by decide)
    let frames := (record.pages.map pageFrame).insertIdx 2 (encode bmsAddress .rtc (Vector.replicate 8 0))
    let calls : List Call := [.feed (frames.flatMap Vector.toList), .tick 100, .feed (sentinelFrame.toList.take 12)]
    (run (.asking fun _ _ _ => []) (pump (logPolled room_for_two)) (calls ++ [.feed [sentinelFrame[12]]])).bms.queue.contents =
      [Poll.rtc.toRequest none 0] := by
  intro record frames calls
  have hanswer : StreamAnswer (fun _ _ _ => []) (logPolled room_for_two) ([record].flatMap SentRecord.pages) calls frames
      sentinelFrame[12] sentinelFrame :=
    ⟨by decide +kernel, by decide +kernel, by decide +kernel, by decide +kernel, by decide +kernel, by decide +kernel⟩
  exact (fault_log_delivered (fun _ _ _ => []) (logPolled room_for_two) (by decide) (by decide) (by decide) [record] hanswer).2.2.2.trans
    (by decide +kernel)

/-! ### Losses -/

/-- A record on its way, and which of its frames arrive. -/
structure Transit where
  record : SentRecord
  kept : Finset (Fin 4)

namespace Transit

def received (transit : Transit) : List DataBytes :=
  ((List.finRange 4).filter fun i => i ∈ transit.kept).map transit.record.page

def Whole (transit : Transit) : Prop := transit.kept = Finset.univ

instance (transit : Transit) : Decidable transit.Whole := inferInstanceAs (Decidable (_ = _))

theorem received_whole {transit : Transit} (h : transit.Whole) : transit.received = transit.record.pages := by
  rw [received, SentRecord.pages, List.filter_eq_self.mpr fun i _ => by rw [h]; simp]

theorem received_eq_nil {transit : Transit} : transit.received = [] ↔ transit.kept = ∅ := by
  rw [received, List.map_eq_nil_iff, List.filter_eq_nil_iff, Finset.eq_empty_iff_forall_notMem]
  simp

end Transit

/-- Each record delivered is one of which no frame was lost, is delivered on the fourth of its frames, and is what they are decoded to. -/
def Unspliced (transits : List Transit) (told : List Mark) : Prop :=
  ∀ i event, told[i]? = some (.raised event) → ∃ before transit after,
    transits = before ++ transit :: after ∧ transit.Whole ∧
      (told.take i).count .accepted = (before.flatMap Transit.received).length + 4 ∧ event = transit.record.response

/-- Once a record has lost some of its frames but not all, fewer than four frames arrive, its own included. -/
def Aligned : List Transit → Prop
  | [] => True
  | transit :: rest =>
    if transit.kept = ∅ ∨ transit.Whole then Aligned rest
    else ((transit :: rest).flatMap Transit.received).length < 4

instance decidableAligned : (transits : List Transit) → Decidable (Aligned transits)
  | [] => isTrue trivial
  | transit :: rest =>
    have := decidableAligned rest
    inferInstanceAs (Decidable (if transit.kept = ∅ ∨ transit.Whole then Aligned rest
      else ((transit :: rest).flatMap Transit.received).length < 4))

variable {transit : Transit} {transits : List Transit} {told : List Mark}

/-- A record lost altogether changes nothing. -/
theorem unspliced_lost (h : transit.received = []) : Unspliced (transit :: transits) told ↔ Unspliced transits told := by
  have hlost : ¬ transit.Whole := by
    intro hwhole
    rw [Transit.Whole, Transit.received_eq_nil.mp h] at hwhole
    exact absurd hwhole (by decide)
  constructor
  · intro hall i event hevent
    obtain ⟨before, last, after, hsplit, hwhole, hcount, heq⟩ := hall i event hevent
    rcases List.cons_eq_append_iff.mp hsplit with ⟨rfl, hcons⟩ | ⟨before', rfl, hrest⟩
    · rw [← (List.cons.inj hcons).1] at hlost
      exact absurd hwhole hlost
    · rw [List.flatMap_cons, h, List.nil_append] at hcount
      exact ⟨before', last, after, hrest, hwhole, hcount, heq⟩
  · intro hall i event hevent
    obtain ⟨before, last, after, rfl, hwhole, hcount, heq⟩ := hall i event hevent
    refine ⟨transit :: before, last, after, rfl, hwhole, ?_, heq⟩
    rw [List.flatMap_cons, h, List.nil_append]
    exact hcount

theorem SentRecord.raised_marks (record : SentRecord) {i : ℕ} {event : Event}
    (h : (record.marks ++ told)[i]? = some (.raised event)) :
    i = 4 ∧ event = record.response ∨ ∃ j, i = 5 + j ∧ told[j]? = some (.raised event) := by
  by_cases hi : i < 5
  · left
    have hmark : record.marks[i]? = some (.raised event) := by
      rwa [List.getElem?_append_left (by exact hi)] at h
    rcases i with _ | _ | _ | _ | _ | i
    · cases hmark
    · cases hmark
    · cases hmark
    · cases hmark
    · exact ⟨rfl, (Mark.raised.inj (Option.some.inj hmark)).symm⟩
    · omega
  · right
    rw [List.getElem?_append_right (by exact not_lt.mp hi)] at h
    exact ⟨i - 5, by omega, h⟩

theorem SentRecord.count_marks (record : SentRecord) (j : ℕ) :
    ((record.marks ++ told).take (5 + j)).count .accepted = 4 + (told.take j).count .accepted := by
  rw [show 5 + j = record.marks.length + j from rfl, List.take_length_add_append, List.count_append]
  rfl

/-- A record that arrives whole, and what comes after it. -/
theorem unspliced_whole (hwhole : transit.Whole)
    (htold : ∀ i event, told[i]? = some (.raised event) → 0 < (told.take i).count .accepted) :
    Unspliced (transit :: transits) (transit.record.marks ++ told) ↔ Unspliced transits told := by
  have hlength : transit.received.length = 4 := by rw [Transit.received_whole hwhole, SentRecord.length_pages]
  constructor
  · intro hall i event hevent
    have hlater : (transit.record.marks ++ told)[5 + i]? = some (.raised event) := by
      rw [List.getElem?_append_right (Nat.le_add_right 5 i)]
      exact (congrArg (told[·]?) (Nat.add_sub_cancel_left 5 i)).trans hevent
    obtain ⟨before, last, after, hsplit, hlast, hcount, heq⟩ := hall _ event hlater
    rw [SentRecord.count_marks] at hcount
    have hsome := htold i event hevent
    rcases List.cons_eq_append_iff.mp hsplit with ⟨rfl, -⟩ | ⟨before', rfl, hrest⟩
    · rw [List.flatMap_nil, List.length_nil] at hcount
      omega
    · rw [List.flatMap_cons, List.length_append, hlength] at hcount
      exact ⟨before', last, after, hrest, hlast, by omega, heq⟩
  · intro hall i event hevent
    rcases transit.record.raised_marks hevent with ⟨rfl, rfl⟩ | ⟨j, rfl, hlater⟩
    · exact ⟨[], transit, transits, rfl, hwhole, rfl, rfl⟩
    · obtain ⟨before, last, after, rfl, hlast, hcount, heq⟩ := hall j event hlater
      refine ⟨transit :: before, last, after, rfl, hlast, ?_, heq⟩
      rw [SentRecord.count_marks, List.flatMap_cons, List.length_append, hlength]
      omega

/-- What a session tells of the frames that arrive. -/
def toldOf (transits : List Transit) : List Mark := (deal 4 [] (transits.flatMap Transit.received)).map streamMark

/-- A record is delivered after some frame. -/
theorem toldOf_raised {i : ℕ} {event : Event} (h : (toldOf transits)[i]? = some (.raised event)) :
    0 < ((toldOf transits).take i).count .accepted := by
  unfold toldOf at h ⊢
  cases hreceived : transits.flatMap Transit.received with
  | nil =>
      rw [hreceived] at h
      cases h
  | cons data rest =>
      obtain ⟨later, hlater⟩ := deal_cons (n := 4) [] rest data
      rw [hreceived, hlater] at h
      rw [hlater]
      cases i with
      | zero => cases h
      | succ i => exact List.count_pos_iff.mpr List.mem_cons_self

/-- A record that loses some of its frames but not all. -/
theorem unspliced_partial (hsome : transit.received ≠ []) (hlost : ¬ transit.Whole) :
    Unspliced (transit :: transits) (toldOf (transit :: transits)) ↔
      ((transit :: transits).flatMap Transit.received).length < 4 := by
  constructor
  · intro hall
    by_contra hmany
    rw [not_lt] at hmany
    -- the first four frames make a record, of which this one's are the first
    have hfirst : (((transit :: transits).flatMap Transit.received).take 4).length = 4 := List.length_take_of_le hmany
    have htold : toldOf (transit :: transits) =
        (((transit :: transits).flatMap Transit.received).take 4).map (fun _ => .accepted) ++
          .raised (recordEvent (((transit :: transits).flatMap Transit.received).take 4)) ::
            (deal 4 [] (((transit :: transits).flatMap Transit.received).drop 4)).map streamMark := by
      rw [toldOf, ← List.take_append_drop 4 ((transit :: transits).flatMap Transit.received),
        deal_full _ (List.ne_nil_of_length_pos (by rw [hfirst]; decide)) (by rw [hfirst]; rfl), List.map_append,
        List.map_map, List.take_append_drop]
      rfl
    obtain ⟨before, last, after, hsplit, hwhole, hcount, -⟩ := hall 4 _ (by
      rw [htold, List.getElem?_append_right (by rw [List.length_map, hfirst]), List.length_map, hfirst]
      rfl)
    rw [htold, List.take_left' (by rw [List.length_map, hfirst]), List.map_const', hfirst] at hcount
    have hnone : before.flatMap Transit.received = [] := by
      refine List.length_eq_zero_iff.mp ?_
      rw [List.count_replicate_self] at hcount
      omega
    rcases List.cons_eq_append_iff.mp hsplit with ⟨rfl, hcons⟩ | ⟨before', rfl, -⟩
    · rw [← (List.cons.inj hcons).1] at hlost
      exact hlost hwhole
    · rw [List.flatMap_cons] at hnone
      exact hsome (List.append_eq_nil_iff.mp hnone).1
  · intro hfew i event hevent
    rw [toldOf, deal_short (by rwa [List.length_nil, Nat.zero_add]), List.map_map] at hevent
    obtain ⟨data, -, hmark⟩ := List.mem_map.mp (List.mem_of_getElem? hevent)
    cases hmark

/-- For which losses no record is spliced. -/
theorem unspliced_iff_aligned (transits : List Transit) : Unspliced transits (toldOf transits) ↔ Aligned transits := by
  induction transits with
  | nil => exact ⟨fun _ => trivial, fun _ i event hevent => nomatch hevent⟩
  | cons transit rest ih =>
      rw [Aligned]
      by_cases hlost : transit.received = []
      · rw [if_pos (Or.inl (Transit.received_eq_nil.mp hlost)), ← ih, unspliced_lost hlost]
        rw [toldOf, List.flatMap_cons, hlost, List.nil_append]
        rfl
      by_cases hwhole : transit.Whole
      · have htold : toldOf (transit :: rest) = transit.record.marks ++ toldOf rest := by
          rw [toldOf, List.flatMap_cons, Transit.received_whole hwhole,
            deal_full _ (List.ne_nil_of_length_pos (by rw [SentRecord.length_pages]; decide))
              (by rw [SentRecord.length_pages]; rfl), ← SentRecord.marks_eq, toldOf, List.nil_append, List.append_cons,
            List.map_append]
        rw [if_pos (Or.inr hwhole), ← ih, htold]
        exact unspliced_whole hwhole fun _ _ => toldOf_raised
      · rw [if_neg (not_or.mpr ⟨fun hnone => hlost (Transit.received_eq_nil.mpr hnone), hwhole⟩)]
        exact unspliced_partial hlost hwhole

/-- What comes after without an event changes nothing. -/
theorem unspliced_append {tail : List Mark} (htail : ∀ event, .raised event ∉ tail) :
    Unspliced transits (told ++ tail) ↔ Unspliced transits told := by
  constructor
  · intro hall i event hevent
    have hi : i < told.length := (List.getElem?_eq_some_iff.mp hevent).1
    have := hall i event (by rwa [List.getElem?_append_left hi])
    rwa [List.take_append_of_le_length hi.le] at this
  · intro hall i event hevent
    by_cases hi : i < told.length
    · rw [List.getElem?_append_left hi] at hevent
      rw [List.take_append_of_le_length hi.le]
      exact hall i event hevent
    · rw [List.getElem?_append_right (not_lt.mp hi)] at hevent
      exact absurd (List.mem_of_getElem? hevent) (htail event)

theorem nextSent_silent (bms : HaidiBMS capacity) (event : Event) : .raised event ∉ Mark.accepted :: nextSent bms := by
  intro hmem
  have hnext := (List.mem_cons.mp hmem).resolve_left nofun
  unfold nextSent at hnext
  split_ifs at hnext
  · cases hnext
  · obtain ⟨req, -, hsent⟩ := Option.map_eq_some_iff.mp (Option.mem_toList.mp hnext)
    cases hsent

end Haidi