import HaidiBms.Session.Counters
import HaidiBms.Session.Rules

/-!
# Watching a reply over a run

What a session holds of the reply it is waiting for changes in a few places only: when the request gets the bus and when a frame of the reply is accepted. `Watch T P` asks for these steps and for what is raised; then `T` ties the session to its log whenever a request is in flight, `P` holds of every entry in view of its past, and nothing unknown is ever queued, in every run and at any depth of nesting.
-/

namespace Haidi

variable {capacity : ℕ+}

/-- An entry that leaves the number of replies as it is and is no deadline. -/
def Obs.isAside : Obs → Bool
  | .began | .accepted | .expired => false
  | _ => true

/-- An entry that neither raises an event nor calls a handler. -/
def Obs.isRoutine : Obs → Bool
  | .raised _ | .invoked _ _ => false
  | _ => true

/-- The request in flight and what is held of its reply are as they were. -/
structure SameHolding (bms bms' : HaidiBMS capacity) : Prop where
  queue : bms'.queue = bms.queue
  state : bms'.state = bms.state
  seenMask : bms'.seenMask = bms.seenMask
  framesSeen : bms'.framesSeen = bms.framesSeen
  assembly : bms'.assembly = bms.assembly
  expectedItems : bms'.expectedItems = bms.expectedItems

theorem SameHolding.head {bms bms' : HaidiBMS capacity} (h : SameHolding bms bms') : bms'.head = bms.head :=
  congrArg RingBuffer.front h.queue

/-- A session that is as `T` says of its log while a request is in flight, and whose log is as `P` permits. -/
structure Watched (T : List (Entry capacity) → HaidiBMS capacity → Prop)
    (P : List (Entry capacity) → Entry capacity → Prop) (w : World capacity) : Prop where
  told : w.bms.state = .awaiting → T w.log w.bms
  pending : w.bms.state = .awaiting → 0 < w.bms.queue.count
  known : ∀ req ∈ w.bms.queue.contents, isKnownDataId req.id = true
  permitted : History.Everywhere P w.log

/-- What has to be shown of the steps that matter, the rest of the session being as it may. -/
structure Watch (T : List (Entry capacity) → HaidiBMS capacity → Prop)
    (P : List (Entry capacity) → Entry capacity → Prop) : Prop where
  same : ∀ {past bms bms'}, T past bms → SameHolding bms bms' → T past bms'
  push : ∀ {past bms} req room, 0 < bms.queue.count → T past bms → T past { bms with queue := bms.queue.push req room }
  aside : ∀ {past bms} entry, entry.obs.isAside = true → T past bms → T (entry :: past) bms
  began : ∀ w : World capacity, 0 < w.bms.queue.count → T (⟨w.bms, .began⟩ :: w.log) (began w).bms
  single : ∀ {past bms}, T past bms → (multiframeInfo bms.head.id).multi = false → T (⟨bms, .accepted⟩ :: past) bms
  collect : ∀ {past bms} data, T past bms → (multiframeInfo bms.head.id).paginated → ¬ data[0] > maxFrameIndex →
    data = dataOf bms.parser.buf → T (⟨bms, .accepted⟩ :: past) (collect bms bms.head.id data)
  file : ∀ {past bms} data, T past bms → bms.head.id = .faultRecords →
    T (⟨bms, .accepted⟩ :: past) (fileStream bms data)
  expired : ∀ {past bms} entry, entry.obs = .expired → T past bms → T (entry :: past) bms
  permits : ∀ past entry, entry.obs.isRoutine = true → P past entry
  invoke : ∀ w handler event, Watched T P w → P w.log ⟨w.bms, .invoked handler event⟩
  reject : ∀ past bms event, event.isRejection = true → P past ⟨bms, .raised event⟩
  deliver : ∀ past bms record,
    P past ⟨bms, .raised { id := .faultRecords, frames := faultFramesPerRecord, payload := .faultRecord record }⟩
  finish : ∀ {past bms event}, T past bms → isKnownDataId bms.head.id = true → Ending bms event →
    P past ⟨bms, .raised event⟩

variable {T : List (Entry capacity) → HaidiBMS capacity → Prop} {P : List (Entry capacity) → Entry capacity → Prop}
  (watch : Watch T P) {w : World capacity}

namespace Watched

theorem head_known (h : Watched T P w) (hcount : 0 < w.bms.queue.count) : isKnownDataId w.bms.head.id = true := by
  refine h.known w.bms.head ?_
  rw [w.bms.queue.contents_eq_cons hcount]
  exact List.mem_cons_self

theorem idle (hknown : ∀ req ∈ w.bms.queue.contents, isKnownDataId req.id = true)
    (hpermitted : History.Everywhere P w.log) (hidle : w.bms.state = .idle) : Watched T P w :=
  ⟨fun hstate => absurd (hidle.symm.trans hstate) (by decide), fun hstate => absurd (hidle.symm.trans hstate) (by decide),
    hknown, hpermitted⟩

include watch

/-- What holds nothing of the reply may change; the proof that `f` changes no more is by default a reading of its fields. -/
theorem modify (h : Watched T P w) (f : HaidiBMS capacity → HaidiBMS capacity)
    (hsame : SameHolding w.bms (f w.bms) := by constructor <;> rfl) : Watched T P (w.modify f) where
  told := fun hstate => watch.same (h.told (hsame.state.symm.trans hstate)) hsame
  pending := by
    intro hstate
    rw [World.modify_bms, hsame.queue]
    exact h.pending (hsame.state.symm.trans hstate)
  known := by
    rw [World.modify_bms, hsame.queue]
    exact h.known
  permitted := h.permitted

/-- An entry beside the reply that its past permits. -/
theorem log (h : Watched T P w) (obs : Obs) (haside : obs.isAside = true) (hpermitted : P w.log ⟨w.bms, obs⟩) :
    Watched T P (w.note obs) :=
  ⟨fun hstate => watch.aside _ haside (h.told hstate), h.pending, h.known, hpermitted, h.permitted⟩

theorem note (h : Watched T P w) (obs : Obs) (haside : obs.isAside = true) (hroutine : obs.isRoutine = true) :
    Watched T P (w.note obs) := h.log watch obs haside (watch.permits _ _ hroutine)

theorem transmit (h : Watched T P w) : Watched T P (transmit w) := by
  rcases transmit_cases w with ⟨-, heq⟩ | ⟨fn, heq⟩ <;> rw [heq]
  · exact h.modify watch _
  · exact (h.note watch _ rfl rfl).modify watch _

theorem began (h : Watched T P w) (hcount : 0 < w.bms.queue.count) : Watched T P (began w) := by
  have hqueue : (Haidi.began w).bms.queue = w.bms.queue := (began_same w).queue
  refine ⟨fun _ => watch.began w hcount, ?_, ?_, watch.permits _ _ rfl, h.permitted⟩
  · rw [hqueue]
    exact fun _ => hcount
  · rw [hqueue]
    exact h.known

theorem pump (h : Watched T P w) : Watched T P (pump w) := by
  rcases pump_cases w with ⟨heq, -⟩ | ⟨-, hcount, heq⟩ <;> rw [heq]
  · exact h
  · exact (h.began watch hcount).transmit watch

/-- A transaction is retired, whatever has been told of it. -/
theorem retired (hknown : ∀ req ∈ w.bms.queue.contents, isKnownDataId req.id = true)
    (hpermitted : History.Everywhere P w.log) : Watched T P (retired w) := by
  refine .idle ?_ ⟨watch.permits _ _ rfl, hpermitted⟩ rfl
  intro req hreq
  refine hknown req ?_
  change req ∈ (if w.bms.state = .awaiting then w.bms.queue.pop else w.bms.queue).contents at hreq
  split_ifs at hreq
  · rw [RingBuffer.contents_pop] at hreq
    exact List.mem_of_mem_tail hreq
  · exact hreq

theorem complete (hknown : ∀ req ∈ w.bms.queue.contents, isKnownDataId req.id = true)
    (hpermitted : History.Everywhere P w.log) : Watched T P (complete w) := by
  rw [complete_eq]
  exact (retired watch hknown hpermitted).pump watch

theorem accepted (h : Watched T P w) (req : Request) (room : w.bms.queue.count < capacity)
    (hknown : isKnownDataId req.id = true) : Watched T P (accepted w req room) where
  told := fun hstate => watch.push req room (h.pending hstate) ((h.note watch (.answered req .queued) rfl rfl).told hstate)
  pending := fun _ => Nat.succ_pos _
  known := by
    intro other hother
    change other ∈ (w.bms.queue.push req room).contents at hother
    rw [RingBuffer.contents_push, List.mem_append, List.mem_singleton] at hother
    rcases hother with hother | rfl
    · exact h.known other hother
    · exact hknown
  permitted := (h.note watch (.answered req .queued) rfl rfl).permitted

theorem enqueue (h : Watched T P w) (req : Request) : Watched T P (enqueue w req).1 := by
  rcases enqueue_cases w req with ⟨status, -, heq⟩ | ⟨room, -, hknown, heq⟩ <;> rw [heq]
  · exact h.note watch _ rfl rfl
  · have haccepted := h.accepted watch req room hknown
    dsimp only
    split_ifs
    · exact haccepted
    · exact haccepted.pump watch

theorem reset (h : Watched T P w) : Watched T P (reset w) := by
  refine .idle ?_ (h.note watch .reset rfl rfl).permitted rfl
  change ∀ req ∈ w.bms.queue.clear.contents, _
  rw [RingBuffer.contents_clear]
  exact nofun

variable {env : Env capacity Call}

theorem emit (henv : ∀ w c, Watched T P w → Watched T P (env.perform w c)) (h : Watched T P w) (event : Event)
    (hevent : P w.log ⟨w.bms, .raised event⟩) : Watched T P (emit env w event) := by
  obtain ⟨w', hw', hemit⟩ := emit_rule env w event
    ((h.log watch (.raised event) rfl hevent).modify watch _)
    (fun w handler hw => hw.log watch _ rfl (watch.invoke w handler event hw)) henv fun _ hw => hw.note watch _ rfl rfl
  rw [hemit]
  unfold closed
  split_ifs
  · exact hw'.note watch _ rfl rfl
  · exact (hw'.modify watch _).note watch _ rfl rfl

theorem deliverRecord (henv : ∀ w c, Watched T P w → Watched T P (env.perform w c)) (h : Watched T P w) :
    Watched T P (deliverRecord env w .faultRecords) := by
  rcases deliverRecord_cases env w .faultRecords with ⟨record, heq⟩ | heq <;> rw [heq]
  · exact (h.emit watch henv _ (watch.deliver _ _ _)).modify watch _
  · exact h.modify watch _

theorem resume (h : Watched T P w) : Watched T P (resume w) := by
  rcases resume_cases w with ⟨-, heq⟩ | ⟨-, heq⟩ <;> rw [heq]
  · exact (h.note watch .abandoned rfl rfl).pump watch
  · exact h.modify watch _

/-- A frame of the reply is accepted. -/
theorem accept (h : Watched T P w) (bms : HaidiBMS capacity) (hsame : SameBus w.bms bms)
    (htold : T (⟨w.bms, .accepted⟩ :: w.log) bms) : Watched T P ⟨bms, ⟨w.bms, .accepted⟩ :: w.log⟩ where
  told := fun _ => htold
  pending := by
    intro hstate
    rw [hsame.queue]
    exact h.pending (hsame.state.symm.trans hstate)
  known := by
    rw [hsame.queue]
    exact h.known
  permitted := ⟨watch.permits _ _ rfl, h.permitted⟩

end Watched

namespace Watch

include watch

theorem rule (env : Env capacity Call) (henv : ∀ w c, Watched T P w → Watched T P (env.perform w c)) :
    Rule env fun w w' => Watched T P w → Watched T P w' where
  refl := fun _ h => h
  trans := fun hab hbc h => hbc (hab h)
  poll := fun _ _ _ _ h => h.enqueue watch _
  reset := fun _ h => h.reset watch
  setTxHandler := fun _ _ _ h => h.modify watch _
  setEventHandler := fun _ _ _ h => h.modify watch _
  setResponseTimeoutMs := fun _ _ h => h.modify watch _
  setInterframeTimeoutMs := fun _ _ h => h.modify watch _
  setMaxRetries := fun _ _ h => h.modify watch _
  parse := fun _ _ h => h.modify watch _
  reject := fun _ event hevent h => h.emit watch henv event (watch.reject _ _ event hevent)
  counts := by
    intro w id data _ h
    refine h.modify watch _ ?_
    obtain ⟨_, _, heq⟩ := noteCounts_eq w.bms id data
    rw [heq]
    constructor <;> rfl
  single := fun w hstate hsingle h => h.accept watch _ (.refl _) (watch.single (h.told hstate) hsingle)
  collect := by
    rintro w _ data hstate rfl hmulti hstream hrange hdata h
    exact h.accept watch _ (collect_same _ _ _) (watch.collect data (h.told hstate) ⟨hmulti, hstream⟩ hrange hdata)
  file := fun w data hstate hid _ h => h.accept watch _ (fileStream_same _ _) (watch.file data (h.told hstate) hid)
  deliver := by
    rintro w id - - rfl h
    exact (h.deliverRecord watch henv).resume watch
  sentinel := fun _ _ _ _ h =>
    Watched.complete watch h.known ⟨watch.permits _ _ rfl, watch.permits _ _ rfl, h.permitted⟩
  arm := fun _ _ h => h.modify watch _
  finish := fun w event hstate hevent h =>
    have hemit := h.emit watch henv event (watch.finish (h.told hstate) (h.head_known (h.pending hstate)) hevent)
    Watched.complete watch hemit.known hemit.permitted
  clock := fun _ _ h => h.modify watch _
  expire := fun _ hstate _ h =>
    ⟨fun _ => watch.expired _ rfl (h.told hstate), h.pending, h.known, watch.permits _ _ rfl, h.permitted⟩
  retry := fun _ _ _ _ h =>
    ((h.note watch .retrying rfl rfl).modify watch _).transmit watch

theorem run_from (react : World capacity → Handler → Event → List Call) (nesting : Nat) (h : Watched T P w)
    (calls : List Call) : Watched T P (Haidi.run (.nested react nesting) w calls) := by
  have hnested := nested_rule (ι := Unit) react (fun _ _ h => h) (fun env henv _ => watch.rule env (henv ())) ()
  exact (watch.rule _ (hnested nesting)).run _ calls h

theorem run (react : World capacity → Handler → Event → List Call) (nesting : Nat) (hostAddress : HostAddress)
    (bmsAddress : UInt8) (calls : List Call) :
    Watched T P (run (.nested react nesting) (World.new hostAddress bmsAddress) calls) :=
  watch.run_from react nesting (w := World.new hostAddress bmsAddress) (.idle nofun trivial rfl) calls

end Watch

end Haidi
