import HaidiBms.Session.Rules
import HaidiBms.FrameParser.Accounting

/-!
# Sessions that cannot be told apart

A session keeps more than it will ever look at again: queue slots that were popped, a reassembly buffer and a record buffer from an earlier reply, a deadline and counters of a request that has ended, parser bytes past its length. `Alike` says that two sessions agree in everything else. Whatever is done to one of them has the same effect when it is done to the other, and makes the same callbacks: each function of the session is proved to keep the two alike, in the order of the source.
-/

namespace Haidi

theorem Reports.functional {verdict : Scan.Verdict UInt8} {signal signal' : Option FrameSignal}
    (h : Reports verdict signal) (h' : Reports verdict signal') : signal = signal' := by
  cases h with
  | found frame =>
      exact (Reports.of_found h').symm
  | _ => cases h'; rfl

/-- A parser does with a byte what its unfinished candidate says. -/
theorem FrameParser.step_congr {p q : FrameParser} (h : p.held = q.held) (byte : UInt8) :
    (p.step byte).1.held = (q.step byte).1.held ∧ (p.step byte).2 = (q.step byte).2 ∧
      ∃ shed, (p.step byte).1.discarded = p.discarded + shed ∧ (q.step byte).1.discarded = q.discarded + shed := by
  obtain ⟨hheld, hshed, hreports⟩ := p.step_refines byte
  obtain ⟨hheld', hshed', hreports'⟩ := q.step_refines byte
  rw [h] at hheld hshed hreports
  exact ⟨hheld.trans hheld'.symm, hreports.functional hreports', _, hshed, hshed'⟩

variable {capacity : ℕ+} {C : Type}

/-- What is kept of an exchange is the same, the record buffer as far as it is filled. -/
structure SameExchange (a b : HaidiBMS capacity) : Prop where
  deadlineMs : a.deadlineMs = b.deadlineMs
  retries : a.retries = b.retries
  assembly : a.assembly = b.assembly
  seenMask : a.seenMask = b.seenMask
  framesSeen : a.framesSeen = b.framesSeen
  expectedFrames : a.expectedFrames = b.expectedFrames
  expectedItems : a.expectedItems = b.expectedItems
  recordLen : a.recordLen = b.recordLen
  record : a.record.toList.take a.recordLen = b.record.toList.take b.recordLen

/-- Two sessions agree in all that is looked at again; in what is kept of an exchange only while one is in progress, unless the `whole` of it is compared. -/
structure Alike (whole : Prop) (a b : HaidiBMS capacity) : Prop where
  hostAddress : a.hostAddress = b.hostAddress
  bmsAddress : a.bmsAddress = b.bmsAddress
  txFn : a.txFn = b.txFn
  txCtx : a.txCtx = b.txCtx
  eventFn : a.eventFn = b.eventFn
  eventCtx : a.eventCtx = b.eventCtx
  responseTimeoutMs : a.responseTimeoutMs = b.responseTimeoutMs
  interframeTimeoutMs : a.interframeTimeoutMs = b.interframeTimeoutMs
  maxRetries : a.maxRetries = b.maxRetries
  held : a.parser.held = b.parser.held
  contents : a.queue.contents = b.queue.contents
  state : a.state = b.state
  nowMs : a.nowMs = b.nowMs
  dispatching : a.dispatching = b.dispatching
  cachedCellCount : a.cachedCellCount = b.cachedCellCount
  cachedTempCount : a.cachedTempCount = b.cachedTempCount
  pending : a.state = .awaiting → 0 < a.queue.count
  exchange : whole ∨ a.state = .awaiting → SameExchange a b

namespace Alike

variable {whole : Prop} {a b : HaidiBMS capacity}

theorem count (h : Alike whole a b) : a.queue.count = b.queue.count := by
  rw [← RingBuffer.length_contents, ← RingBuffer.length_contents, h.contents]

theorem head_of_pending (h : Alike whole a b) (hcount : 0 < a.queue.count) : a.head = b.head := by
  have hcons := RingBuffer.contents_eq_cons a.queue hcount
  rw [h.contents] at hcons
  exact (RingBuffer.front_of_contents _ hcons).symm

theorem head (h : Alike whole a b) (hstate : a.state = .awaiting) : a.head = b.head :=
  h.head_of_pending (h.pending hstate)

theorem owner (h : Alike whole a b) : a.owner = b.owner := by
  unfold HaidiBMS.owner
  rw [← h.state, ← h.count]
  split_ifs with hcond
  · exact congrArg some (h.head_of_pending hcond.2)
  · rfl

theorem setDispatching (h : Alike whole a b) (dispatching : Bool) :
    Alike whole { a with dispatching } { b with dispatching } :=
  { h with dispatching := rfl, exchange := fun hx => { h.exchange hx with } }

theorem push (h : Alike whole a b) (req : Request) (rooma : a.queue.count < capacity) (roomb : b.queue.count < capacity) :
    Alike whole { a with queue := a.queue.push req rooma } { b with queue := b.queue.push req roomb } :=
  { h with
    contents := by simp only [RingBuffer.contents_push, h.contents]
    pending := fun _ => Nat.succ_pos _
    exchange := fun hx => { h.exchange hx with } }

theorem pop (h : Alike whole a b) :
    Alike whole { a with queue := a.queue.pop, state := .idle } { b with queue := b.queue.pop, state := .idle } :=
  { h with
    contents := by simp only [RingBuffer.contents_pop, h.contents]
    state := rfl
    pending := nofun
    exchange := fun hx => { h.exchange (hx.imp_right nofun) with } }

theorem idle (h : Alike whole a b) : Alike whole { a with state := .idle } { b with state := .idle } :=
  { h with
    state := rfl
    pending := nofun
    exchange := fun hx => { h.exchange (hx.imp_right nofun) with } }

theorem reset (h : Alike whole a b) :
    Alike whole
      { a with
        parser := a.parser.reset, queue := a.queue.clear, state := .idle, retries := 0, seenMask := 0
        framesSeen := 0, expectedFrames := 0, expectedItems := 0, recordLen := 0 }
      { b with
        parser := b.parser.reset, queue := b.queue.clear, state := .idle, retries := 0, seenMask := 0
        framesSeen := 0, expectedFrames := 0, expectedItems := 0, recordLen := 0 } :=
  { h with
    held := rfl
    contents := rfl
    state := rfl
    pending := nofun
    exchange := fun hx =>
      { h.exchange (hx.imp_right nofun) with
        retries := rfl, seenMask := rfl, framesSeen := rfl, expectedFrames := rfl, expectedItems := rfl, recordLen := rfl
        record := rfl } }

/-- Nothing that is left of an earlier exchange goes into the next. -/
theorem begin (h : Alike whole a b) (hcount : 0 < a.queue.count) (deadlineMs : UInt32) :
    Alike whole { beginAwaiting { a with state := .awaiting } with deadlineMs }
      { beginAwaiting { b with state := .awaiting } with deadlineMs } := by
  have hfront : a.queue.front = b.queue.front := h.head_of_pending hcount
  unfold beginAwaiting HaidiBMS.head
  dsimp only
  rw [← hfront, ← h.cachedCellCount, ← h.cachedTempCount]
  split_ifs
  all_goals exact
    { h with
      state := rfl
      cachedCellCount := rfl
      cachedTempCount := rfl
      pending := fun _ => hcount
      exchange := fun _ => ⟨rfl, rfl, rfl, rfl, rfl, rfl, rfl, rfl, rfl⟩ }

end Alike

/-- A buffer filled up to `i` takes one more byte. -/
theorem take_setIfInBounds {n i : Nat} (buf : Vector UInt8 n) (byte : UInt8) (h : i < n) :
    (buf.setIfInBounds i byte).toList.take (i + 1) = buf.toList.take i ++ [byte] := by
  have hlen : i < buf.toList.length := by simpa using h
  rw [Vector.toList_setIfInBounds, List.take_succ_eq_append_getElem (by simpa using hlen), List.getElem_set_self,
    List.take_set_of_le le_rfl]

/-- What is appended to two records that agree as far as they are filled leaves them so. -/
theorem appendRecord_congr {record record' : Vector UInt8 faultBufferLen} {recordLen : Nat} (data : DataBytes)
    (h : record.toList.take recordLen = record'.toList.take recordLen) :
    (appendRecord record recordLen data).2 = (appendRecord record' recordLen data).2 ∧
      (appendRecord record recordLen data).1.toList.take (appendRecord record recordLen data).2 =
        (appendRecord record' recordLen data).1.toList.take (appendRecord record' recordLen data).2 := by
  unfold appendRecord
  generalize List.range' 1 (dataLen - 1) = indices
  induction indices generalizing record record' recordLen with
  | nil => exact ⟨rfl, h⟩
  | cons i rest ih =>
      simp only [List.foldl_cons]
      split_ifs with hroom
      · refine ih ?_
        rw [take_setIfInBounds _ _ hroom, take_setIfInBounds _ _ hroom, h]
      · exact ih h

namespace Alike

variable {whole : Prop} {a b : HaidiBMS capacity}

theorem noteCounts (h : Alike whole a b) (id : DataId) (data : DataBytes) :
    Alike whole (noteCounts a id data) (noteCounts b id data) := by
  unfold Haidi.noteCounts
  split_ifs
  · exact { h with cachedCellCount := rfl, cachedTempCount := rfl, exchange := fun hx => { h.exchange hx with } }
  · exact { h with cachedCellCount := rfl, cachedTempCount := rfl, exchange := fun hx => { h.exchange hx with } }
  · exact h

theorem collect (h : Alike whole a b) (hstate : a.state = .awaiting) (id : DataId) (data : DataBytes) :
    Alike whole (collect a id data) (collect b id data) := by
  have hx := h.exchange (Or.inr hstate)
  unfold Haidi.collect
  dsimp only
  rw [hx.assembly, hx.seenMask]
  split_ifs
  · exact { h with exchange := fun _ => { hx with assembly := rfl, seenMask := rfl, framesSeen := rfl } }
  · exact { h with exchange := fun _ => { hx with assembly := rfl, seenMask := rfl } }

theorem payloadWindow (h : Alike whole a b) (hstate : a.state = .awaiting) (id : DataId) :
    payloadWindow a id = payloadWindow b id := by
  have hx := h.exchange (Or.inr hstate)
  unfold Haidi.payloadWindow
  rw [hx.seenMask, hx.expectedItems]

theorem fileStream (h : Alike whole a b) (hstate : a.state = .awaiting) (data : DataBytes) :
    Alike whole (fileStream a data) (fileStream b data) := by
  have hx := h.exchange (Or.inr hstate)
  have hrecord := hx.record
  rw [← hx.recordLen] at hrecord
  obtain ⟨hlen, hfilled⟩ := appendRecord_congr data hrecord
  rw [hx.recordLen] at hlen hfilled
  unfold Haidi.fileStream
  exact
    { h with
      exchange := fun _ =>
        { hx with
          framesSeen := congrArg (· + 1) hx.framesSeen
          recordLen := by simpa [hx.recordLen] using hlen
          record := by simpa [hx.recordLen] using hfilled } }

end Alike

/-- Beginning an exchange leaves the parser and the clock alone. -/
theorem began_clock (w : World capacity) :
    (began w).bms.parser = w.bms.parser ∧ (began w).bms.nowMs = w.bms.nowMs ∧
      (began w).bms.responseTimeoutMs = w.bms.responseTimeoutMs := by
  obtain ⟨_, _, heq⟩ := began_eq w
  rw [heq]
  exact ⟨rfl, rfl, rfl⟩

/-! ### The same callbacks -/

/-- Two runs have gone on from their pasts with the same observations. What their framers count as discarded differs by `drift` until a reset. -/
def Matched (drift : UInt32) (past past' : List (Entry capacity)) (w v : World capacity) : Prop :=
  ∃ new new', w.log = new ++ past ∧ v.log = new' ++ past' ∧ new.map Entry.obs = new'.map Entry.obs ∧
    w.bms.parser.discarded = v.bms.parser.discarded + if .reset ∈ new.map Entry.obs then 0 else drift

/-- Two runs have gone on alike. -/
structure Twins (whole : Prop) (drift : UInt32) (past past' : List (Entry capacity)) (w v : World capacity) :
    Prop where
  alike : Alike whole w.bms v.bms
  matched : Matched drift past past' w v

/-- Handlers that do the same in two runs that have gone on alike. -/
structure Lockstep (env : Env capacity C) (R : World capacity → World capacity → Prop) : Prop where
  react : ∀ w v, R w v → env.react w = env.react v
  perform : ∀ w v c, R w v → R (env.perform w c) (env.perform v c)

section

variable {whole : Prop} {drift : UInt32} {past past' : List (Entry capacity)} {w v : World capacity}

theorem Matched.note (h : Matched drift past past' w v) (obs : Obs) (hobs : obs ≠ .reset) :
    Matched drift past past' (w.note obs) (v.note obs) := by
  obtain ⟨new, new', hnew, hnew', hsame, hdrift⟩ := h
  refine ⟨⟨w.bms, obs⟩ :: new, ⟨v.bms, obs⟩ :: new', ?_, ?_, ?_, ?_⟩
  · simp [hnew]
  · simp [hnew']
  · simp [hsame]
  · simpa [hobs.symm] using hdrift

theorem Matched.modify (h : Matched drift past past' w v) (f g : HaidiBMS capacity → HaidiBMS capacity)
    (hf : (f w.bms).parser = w.bms.parser) (hg : (g v.bms).parser = v.bms.parser) :
    Matched drift past past' (w.modify f) (v.modify g) := by
  obtain ⟨new, new', hnew, hnew', hsame, hdrift⟩ := h
  exact ⟨new, new', hnew, hnew', hsame, by simpa [hf, hg] using hdrift⟩

namespace Twins

theorem note (h : Twins whole drift past past' w v) (obs : Obs) (hobs : obs ≠ .reset) :
    Twins whole drift past past' (w.note obs) (v.note obs) :=
  ⟨h.alike, h.matched.note obs hobs⟩

theorem modify (h : Twins whole drift past past' w v) (f g : HaidiBMS capacity → HaidiBMS capacity)
    (halike : Alike whole (f w.bms) (g v.bms)) (hf : (f w.bms).parser = w.bms.parser)
    (hg : (g v.bms).parser = v.bms.parser) : Twins whole drift past past' (w.modify f) (v.modify g) :=
  ⟨halike, h.matched.modify f g hf hg⟩

theorem reset (h : Twins whole drift past past' w v) : Twins whole drift past past' (reset w) (reset v) := by
  obtain ⟨new, new', hnew, hnew', hsame, -⟩ := h.matched
  refine ⟨h.alike.reset, ⟨w.bms, .reset⟩ :: new, ⟨v.bms, .reset⟩ :: new', ?_, ?_, ?_, ?_⟩
  · simp [Haidi.reset, hnew]
  · simp [Haidi.reset, hnew']
  · simp [hsame]
  · simp [Haidi.reset]

/-- The frame that goes out is the same; the deadline is set, and nothing is asked of it before. -/
theorem transmit (hmatched : Matched drift past past' w v) (hstate : w.bms.state = .awaiting)
    (halike : Alike whole { w.bms with deadlineMs := w.bms.nowMs + w.bms.responseTimeoutMs }
      { v.bms with deadlineMs := v.bms.nowMs + v.bms.responseTimeoutMs }) :
    Twins whole drift past past' (transmit w) (transmit v) := by
  have hhead : w.bms.head = v.bms.head := halike.head hstate
  unfold Haidi.transmit
  dsimp only
  rw [← show w.bms.txFn = v.bms.txFn from halike.txFn, ← show w.bms.txCtx = v.bms.txCtx from halike.txCtx,
    ← show w.bms.hostAddress = v.bms.hostAddress from halike.hostAddress, ← hhead]
  cases w.bms.txFn with
  | none => exact ⟨halike, hmatched.modify _ _ rfl rfl⟩
  | some fn => exact ⟨halike, (hmatched.note _ (by simp)).modify _ _ rfl rfl⟩

theorem pump (h : Twins whole drift past past' w v) : Twins whole drift past past' (pump w) (pump v) := by
  have hcond : (v.bms.state ≠ .idle ∨ v.bms.queue.count = 0) ↔ (w.bms.state ≠ .idle ∨ w.bms.queue.count = 0) := by
    rw [h.alike.state, h.alike.count]
  unfold Haidi.pump
  simp only [hcond]
  split_ifs with hnothing
  · exact h
  · rw [not_or, not_not] at hnothing
    obtain ⟨hparser, hnow, htimeout⟩ := began_clock w
    obtain ⟨hparser', hnow', htimeout'⟩ := began_clock v
    refine transmit ((h.matched.note .began (by simp)).modify _ _ hparser hparser') (began_same w).state ?_
    change Alike whole { (began w).bms with deadlineMs := (began w).bms.nowMs + (began w).bms.responseTimeoutMs }
      { (began v).bms with deadlineMs := (began v).bms.nowMs + (began v).bms.responseTimeoutMs }
    rw [hnow, hnow', htimeout, htimeout', h.alike.nowMs, h.alike.responseTimeoutMs]
    exact h.alike.begin (Nat.pos_of_ne_zero hnothing.2) _

theorem complete (h : Twins whole drift past past' w v) : Twins whole drift past past' (complete w) (complete v) := by
  rw [complete_eq, complete_eq]
  refine pump ((h.note .completing (by simp)).modify _ _ ?_ rfl rfl)
  rw [World.note_bms, World.note_bms, ← h.alike.state]
  split_ifs
  · exact h.alike.pop
  · exact h.alike.idle

theorem enqueue (h : Twins whole drift past past' w v) (req : Request) :
    Twins whole drift past past' (enqueue w req).1 (enqueue v req).1 := by
  unfold Haidi.enqueue
  rw [← h.alike.txFn]
  by_cases htx : w.bms.txFn = none
  · rw [if_pos htx, if_pos htx]
    exact h.note _ (by simp)
  rw [if_neg htx, if_neg htx]
  by_cases hknown : (!isKnownDataId req.id) = true
  · rw [if_pos hknown, if_pos hknown]
    exact h.note _ (by simp)
  rw [if_neg hknown, if_neg hknown]
  by_cases room : w.bms.queue.count < capacity
  · have room' : v.bms.queue.count < capacity := h.alike.count ▸ room
    have haccepted : Twins whole drift past past' (accepted w req room) (accepted v req room') :=
      (h.note (.answered req .queued) (by simp)).modify _ _ (h.alike.push req room room') rfl rfl
    rw [dif_pos room, dif_pos room']
    change Twins whole drift past past'
      (if (accepted w req room).bms.dispatching then accepted w req room else Haidi.pump (accepted w req room))
      (if (accepted v req room').bms.dispatching then accepted v req room' else Haidi.pump (accepted v req room'))
    rw [← haccepted.alike.dispatching]
    split_ifs
    · exact haccepted
    · exact haccepted.pump
  · rw [dif_neg room, dif_neg (h.alike.count ▸ room)]
    exact h.note _ (by simp)

section

variable {env : Env capacity C} (henv : Lockstep env (Twins whole drift past past'))
include henv

theorem invoke (h : Twins whole drift past past' w v) (handler : Handler) (event : Event) :
    Twins whole drift past past' (invoke env w handler event) (invoke env v handler event) := by
  have hcalls : ∀ (calls : List C) w v, Twins whole drift past past' w v →
      Twins whole drift past past' (calls.foldl env.perform w) (calls.foldl env.perform v) := by
    intro calls
    induction calls with
    | nil => exact fun _ _ h => h
    | cons c rest ih => exact fun w v h => ih _ _ (henv.perform w v c h)
  unfold Haidi.invoke
  rw [henv.react w v h]
  exact (hcalls _ _ _ (h.note _ (by simp))).note _ (by simp)

theorem emit (h : Twins whole drift past past' w v) (event : Event) :
    Twins whole drift past past' (emit env w event) (emit env v event) := by
  have hopened : Twins whole drift past past' (opened w event) (opened v event) :=
    (h.note (.raised event) (by simp)).modify _ _ (h.alike.setDispatching true) rfl rfl
  have hfirst : Twins whole drift past past' (invokePerRequest env (opened w event) w.bms.owner event)
      (invokePerRequest env (opened v event) v.bms.owner event) := by
    rw [← h.alike.owner]
    unfold invokePerRequest
    cases w.bms.owner.bind Request.handler with
    | none => exact hopened
    | some handler => exact hopened.invoke henv handler event
  rw [emit_eq, emit_eq, ← h.alike.dispatching]
  generalize invokePerRequest env (opened w event) w.bms.owner event = w' at hfirst
  generalize invokePerRequest env (opened v event) v.bms.owner event = v' at hfirst
  have hboth : Twins whole drift past past' (invokeSessionWide env w' event) (invokeSessionWide env v' event) := by
    unfold invokeSessionWide
    rw [← hfirst.alike.eventFn, ← hfirst.alike.eventCtx]
    cases w'.bms.eventFn with
    | none => exact hfirst
    | some fn => exact hfirst.invoke henv _ event
  generalize invokeSessionWide env w' event = w'' at hboth
  generalize invokeSessionWide env v' event = v'' at hboth
  unfold closed
  cases w.bms.dispatching with
  | true => exact hboth.note .settled (by simp)
  | false =>
      have hclosed : Twins whole drift past past' (w''.modify fun bms => { bms with dispatching := false })
          (v''.modify fun bms => { bms with dispatching := false }) :=
        hboth.modify _ _ (hboth.alike.setDispatching false) rfl rfl
      exact hclosed.note .settled (by simp)

theorem onFrameError (h : Twins whole drift past past' w v) (error : FrameError) :
    Twins whole drift past past' (onFrameError env w error) (onFrameError env v error) := by
  have hid : (if v.bms.state = .awaiting then v.bms.head.id else .capacityVoltage) =
      if w.bms.state = .awaiting then w.bms.head.id else .capacityVoltage := by
    rw [← h.alike.state]
    split_ifs with hstate
    · rw [h.alike.head hstate]
    · rfl
  unfold Haidi.onFrameError
  rw [hid]
  exact h.emit henv _

theorem finish (h : Twins whole drift past past' w v) (event : Event) :
    Twins whole drift past past' (Haidi.complete (Haidi.emit env w event)) (Haidi.complete (Haidi.emit env v event)) :=
  (h.emit henv event).complete

theorem handleSingle (h : Twins whole drift past past' w v) (hstate : w.bms.state = .awaiting) (id : DataId)
    (data : DataBytes) : Twins whole drift past past' (handleSingle env w id data) (handleSingle env v id data) := by
  have hnoted := h.note .accepted (by simp)
  unfold Haidi.handleSingle
  dsimp only
  rw [← show (w.note .accepted).bms.head = (v.note .accepted).bms.head from h.alike.head hstate]
  split_ifs
  · exact hnoted.finish henv _
  · exact hnoted.finish henv _
  · cases decodeSingle id data with
    | none => exact hnoted.finish henv _
    | some payload => exact hnoted.finish henv _

theorem finishMulti (h : Twins whole drift past past' w v) (hstate : w.bms.state = .awaiting) (id : DataId) :
    Twins whole drift past past' (finishMulti env w id) (finishMulti env v id) := by
  have hx := h.alike.exchange (Or.inr hstate)
  unfold Haidi.finishMulti
  dsimp only
  rw [← h.alike.payloadWindow hstate, ← hx.assembly, ← hx.framesSeen]
  cases decodeMulti id (w.bms.assembly.toList.drop (payloadWindow w.bms id).1) (payloadWindow w.bms id).2 with
  | none => exact h.finish henv _
  | some payload => exact h.finish henv _

omit henv in
theorem armInterframe (h : Twins whole drift past past' w v) (hstate : w.bms.state = .awaiting) :
    Twins whole drift past past' (armInterframe w) (armInterframe v) :=
  h.modify _ _
    { h.alike with
      exchange := fun _ =>
        { h.alike.exchange (Or.inr hstate) with
          deadlineMs := congrArg₂ (· + ·) h.alike.nowMs h.alike.interframeTimeoutMs } } rfl rfl

omit henv in
theorem collect (h : Twins whole drift past past' w v) (hstate : w.bms.state = .awaiting) (id : DataId)
    (data : DataBytes) :
    Twins whole drift past past' ((w.note .accepted).modify fun bms => collect bms id data)
      ((v.note .accepted).modify fun bms => Haidi.collect bms id data) :=
  (h.note .accepted (by simp)).modify _ _ (h.alike.collect hstate id data) (parser_collect _ _ _) (parser_collect _ _ _)

theorem handleMulti (h : Twins whole drift past past' w v) (hstate : w.bms.state = .awaiting) (id : DataId)
    (data : DataBytes) : Twins whole drift past past' (handleMulti env w id data) (handleMulti env v id data) := by
  have hcollected := h.collect hstate id data
  have hwaiting := (collect_same w.bms id data).state.trans hstate
  have hx := hcollected.alike.exchange (Or.inr hwaiting)
  unfold Haidi.handleMulti
  dsimp only
  rw [← hx.expectedFrames, ← hx.framesSeen]
  split_ifs
  · exact h.emit henv _
  · exact hcollected.finishMulti henv hwaiting id
  · exact hcollected.armInterframe hwaiting

theorem deliverRecord (h : Twins whole drift past past' w v) (hstate : w.bms.state = .awaiting)
    (hfull : faultBufferLen ≤ w.bms.recordLen) (id : DataId) :
    Twins whole drift past past' (deliverRecord env w id) (deliverRecord env v id) := by
  have hx := h.alike.exchange (Or.inr hstate)
  have hrecord : w.bms.record.toList = v.bms.record.toList := by
    have hsame := hx.record
    rwa [List.take_of_length_le (by simpa using hfull),
      List.take_of_length_le (by simpa [← hx.recordLen] using hfull)] at hsame
  have hemptied : ∀ {w v : World capacity}, Twins whole drift past past' w v →
      Twins whole drift past past' (w.modify fun bms => { bms with recordLen := 0 })
        (v.modify fun bms => { bms with recordLen := 0 }) := fun h =>
    h.modify _ _
      { h.alike with exchange := fun hx => { h.alike.exchange hx with recordLen := rfl, record := rfl } } rfl rfl
  unfold Haidi.deliverRecord
  rw [← hrecord, ← hx.recordLen]
  cases decodeFaultRecord w.bms.record.toList w.bms.recordLen with
  | none => exact hemptied h
  | some record => exact hemptied (h.emit henv _)

omit henv in
theorem resume (h : Twins whole drift past past' w v) : Twins whole drift past past' (resume w) (resume v) := by
  unfold Haidi.resume
  rw [← h.alike.state]
  split_ifs with hstate
  · exact (h.note .abandoned (by simp)).pump
  · exact h.armInterframe (not_not.mp hstate)

theorem handleStream (h : Twins whole drift past past' w v) (hstate : w.bms.state = .awaiting) (id : DataId)
    (data : DataBytes) : Twins whole drift past past' (handleStream env w id data) (handleStream env v id data) := by
  have hnoted := h.note .accepted (by simp)
  have hfiled : Twins whole drift past past' ((w.note .accepted).modify fun bms => fileStream bms data)
      ((v.note .accepted).modify fun bms => fileStream bms data) :=
    hnoted.modify _ _ (h.alike.fileStream hstate data) rfl rfl
  have hx := hfiled.alike.exchange (Or.inr hstate)
  unfold Haidi.handleStream
  dsimp only
  rw [← hx.recordLen]
  split_ifs with hend hfull
  · exact (hnoted.note .streamEnded (by simp)).complete
  · exact (hfiled.deliverRecord henv hstate hfull id).resume
  · exact hfiled.resume

theorem onFrame (h : Twins whole drift past past' w v) (frame : MessageBytes) :
    Twins whole drift past past' (onFrame env w frame) (onFrame env v frame) := by
  unfold Haidi.onFrame
  dsimp only
  rw [← h.alike.state, ← h.alike.bmsAddress]
  by_cases hidle : w.bms.state ≠ .awaiting
  · rw [if_pos hidle, if_pos hidle]
    exact h.emit henv _
  have hstate := not_not.mp hidle
  rw [if_neg hidle, if_neg hidle, ← h.alike.head hstate]
  have hcounted : Twins whole drift past past'
      (w.modify fun bms => noteCounts bms frame[msgDataIdIndex] (dataOf frame))
      (v.modify fun bms => noteCounts bms frame[msgDataIdIndex] (dataOf frame)) :=
    h.modify _ _ (h.alike.noteCounts _ _) (parser_noteCounts _ _ _) (parser_noteCounts _ _ _)
  have hwaiting := (noteCounts_same w.bms frame[msgDataIdIndex] (dataOf frame)).state.trans hstate
  split_ifs
  · exact h.emit henv _
  · exact h.emit henv _
  · exact hcounted.handleSingle henv hwaiting _ _
  · exact hcounted.handleStream henv hwaiting _ _
  · exact hcounted.handleMulti henv hwaiting _ _

theorem feedByte (h : Twins whole drift past past' w v) (byte : UInt8) :
    Twins whole drift past past' (feedByte env w byte) (feedByte env v byte) := by
  obtain ⟨hheld, hsignal, shed, hshed, hshed'⟩ := FrameParser.step_congr h.alike.held byte
  have hstepped : Twins whole drift past past'
      (w.modify fun bms => { bms with parser := (w.bms.parser.step byte).1 })
      (v.modify fun bms => { bms with parser := (v.bms.parser.step byte).1 }) := by
    obtain ⟨new, new', hnew, hnew', hsame, hdrift⟩ := h.matched
    refine ⟨{ h.alike with held := hheld, exchange := fun hx => { h.alike.exchange hx with } },
      new, new', hnew, hnew', hsame, ?_⟩
    rw [World.modify_bms, World.modify_bms, hshed, hshed', hdrift, UInt32.add_assoc, UInt32.add_comm _ shed,
      ← UInt32.add_assoc]
  unfold Haidi.feedByte
  dsimp only
  rw [← hsignal]
  cases (w.bms.parser.step byte).2 with
  | none => exact hstepped
  | some signal =>
      cases signal with
      | frame frame => exact hstepped.onFrame henv frame
      | error error => exact hstepped.onFrameError henv error

theorem feed (h : Twins whole drift past past' w v) (data : List UInt8) :
    Twins whole drift past past' (feed env w data) (feed env v data) := by
  induction data generalizing w v with
  | nil => exact h
  | cons byte rest ih => exact ih (h.feedByte henv byte)

theorem lapse (h : Twins whole drift past past' w v) (hstate : w.bms.state = .awaiting) :
    Twins whole drift past past' (lapse env w) (lapse env v) := by
  have hx := h.alike.exchange (Or.inr hstate)
  unfold Haidi.lapse
  rw [← hx.framesSeen, ← hx.retries, ← h.alike.maxRetries, ← h.alike.head hstate]
  split_ifs
  · exact h.finishMulti henv hstate _
  · exact h.finish henv _
  · refine transmit ((h.note .retrying (by simp)).matched.modify _ _ rfl rfl) hstate ?_
    exact
      { h.alike with
        exchange := fun _ =>
          { hx with
            deadlineMs := congrArg₂ (· + ·) h.alike.nowMs h.alike.responseTimeoutMs
            retries := congrArg (· + 1) hx.retries } }
  · exact h.finish henv _

theorem tick (h : Twins whole drift past past' w v) (nowMs : UInt32) :
    Twins whole drift past past' (tick env w nowMs) (tick env v nowMs) := by
  have hticked : Twins whole drift past past' (ticked w nowMs) (ticked v nowMs) :=
    h.modify _ _ { h.alike with nowMs := rfl, exchange := fun hx => { h.alike.exchange hx with } } rfl rfl
  rw [tick_eq, tick_eq, ← h.alike.state]
  by_cases hidle : w.bms.state ≠ .awaiting
  · rw [if_pos (Or.inl hidle), if_pos (Or.inl hidle)]
    exact hticked
  have hstate := not_not.mp hidle
  rw [← (h.alike.exchange (Or.inr hstate)).deadlineMs]
  split_ifs
  · exact hticked
  · exact (hticked.note .expired (by simp)).lapse henv hstate

theorem call (h : Twins whole drift past past' w v) (c : Call) :
    Twins whole drift past past' (call env w c) (call env v c) := by
  cases c with
  | poll method fn ctx => exact h.enqueue _
  | feed data => exact h.feed henv data
  | tick nowMs => exact h.tick henv nowMs
  | reset => exact h.reset
  | setTxHandler fn ctx =>
      refine ⟨?_, h.matched.modify _ _ rfl rfl⟩
      exact { h.alike with txFn := rfl, txCtx := rfl, exchange := fun hx => { h.alike.exchange hx with } }
  | setEventHandler fn ctx =>
      refine ⟨?_, h.matched.modify _ _ rfl rfl⟩
      exact { h.alike with eventFn := rfl, eventCtx := rfl, exchange := fun hx => { h.alike.exchange hx with } }
  | setResponseTimeoutMs ms =>
      refine ⟨?_, h.matched.modify _ _ rfl rfl⟩
      exact { h.alike with responseTimeoutMs := rfl, exchange := fun hx => { h.alike.exchange hx with } }
  | setInterframeTimeoutMs ms =>
      refine ⟨?_, h.matched.modify _ _ rfl rfl⟩
      exact { h.alike with interframeTimeoutMs := rfl, exchange := fun hx => { h.alike.exchange hx with } }
  | setMaxRetries retries =>
      refine ⟨?_, h.matched.modify _ _ rfl rfl⟩
      exact { h.alike with maxRetries := rfl, exchange := fun hx => { h.alike.exchange hx with } }

theorem run (h : Twins whole drift past past' w v) (calls : List Call) :
    Twins whole drift past past' (run env w calls) (run env v calls) := by
  induction calls generalizing w v with
  | nil => exact h
  | cons c rest ih => exact ih (h.call henv c)

end

end Twins

end

end Haidi
