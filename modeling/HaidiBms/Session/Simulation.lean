import HaidiBms.Session.Client

/-!
# The session is the client

What the client remembers of an exchange determines what the session has in its buffers: `Keeps` says how, for the mask and the reassembly buffer and for the record buffer. With it every function of the session does what the client's does, in the order of the source, and so a whole run makes the same callbacks, raises the same events and gives the same answers.
-/

namespace Haidi

open Pages

variable {capacity : ℕ+}

def HaidiBMS.setup (bms : HaidiBMS capacity) : Setup where
  hostAddress := bms.hostAddress
  bmsAddress := bms.bmsAddress
  txFn := bms.txFn
  txCtx := bms.txCtx
  eventFn := bms.eventFn
  eventCtx := bms.eventCtx
  responseTimeoutMs := bms.responseTimeoutMs
  interframeTimeoutMs := bms.interframeTimeoutMs
  maxRetries := bms.maxRetries
  nowMs := bms.nowMs
  cachedCellCount := bms.cachedCellCount
  cachedTempCount := bms.cachedTempCount

/-- The entries that show outside: callbacks, events and answers. -/
def Obs.isSeen : Obs → Bool
  | .answered _ _ | .sent _ _ _ | .raised _ | .invoked _ _ => true
  | _ => false

/-- What a run has shown, newest first. -/
def seen (log : List (Entry capacity)) : List Obs := (log.map Entry.obs).filter Obs.isSeen

/-- Handlers that choose what to poll and when to reset from what has been shown. -/
def Env.seeing (react : List Obs → Handler → Event → List Reaction) : Env capacity Reaction :=
  .polling fun w => react (seen w.log)

theorem seen_shown {obs : Obs} (w : World capacity) (h : obs.isSeen = true) : seen (w.note obs).log = obs :: seen w.log :=
  List.filter_cons_of_pos h

theorem seen_hidden {obs : Obs} (w : World capacity) (h : obs.isSeen = false) : seen (w.note obs).log = seen w.log :=
  List.filter_cons_of_neg (by rw [h]; exact Bool.false_ne_true)

/-! ### What the buffers hold -/

/-- The buffers hold what has been heard of the reply to a request. -/
structure Keeps (bms : HaidiBMS capacity) (req : Request) (items : ℕ) (heard : List MessageBytes)
    (record : List DataBytes) : Prop where
  paged : (multiframeInfo req.id).paginated → Holds items heard bms ∧ bms.expectedFrames.toNat = awaited req.id items
  streamed : req.id = .faultRecords → bms.framesSeen = .ofNat heard.length ∧ bms.recordLen = 7 * record.length ∧
    bms.record.toList.take (7 * record.length) = record.flatMap recordBytes

/-- The buffers and their counts are as they were. -/
structure SameBuffers (bms bms' : HaidiBMS capacity) : Prop where
  head : bms'.head = bms.head
  assembly : bms'.assembly = bms.assembly
  seenMask : bms'.seenMask = bms.seenMask
  framesSeen : bms'.framesSeen = bms.framesSeen
  expectedFrames : bms'.expectedFrames = bms.expectedFrames
  expectedItems : bms'.expectedItems = bms.expectedItems
  record : bms'.record = bms.record
  recordLen : bms'.recordLen = bms.recordLen

theorem Holds.buffers {items : ℕ} {heard : List MessageBytes} {bms bms' : HaidiBMS capacity} (h : Holds items heard bms)
    (hsame : SameBuffers bms bms') : Holds items heard bms' := by
  refine ⟨?_, ?_, ?_, h.small, ?_⟩
  · rw [hsame.seenMask]
    exact h.seen
  · rw [hsame.framesSeen]
    exact h.counted
  · rw [hsame.expectedItems]
    exact h.items
  · rw [hsame.head, hsame.assembly]
    exact h.filed

theorem Keeps.same {bms bms' : HaidiBMS capacity} {req : Request} {items : ℕ} {heard : List MessageBytes}
    {record : List DataBytes} (h : Keeps bms req items heard record)
    (hsame : SameBuffers bms bms') : Keeps bms' req items heard record := by
  constructor
  · intro hpaged
    rw [hsame.expectedFrames]
    exact ⟨(h.paged hpaged).1.buffers hsame, (h.paged hpaged).2⟩
  · intro hid
    rw [hsame.framesSeen, hsame.recordLen, hsame.record]
    exact h.streamed hid

/-- The session is in the exchange. -/
structure Follows (bms : HaidiBMS capacity) (x : Exchange) : Prop where
  retries : bms.retries = x.retries
  deadlineMs : bms.deadlineMs = x.deadlineMs
  keeps : Keeps bms x.request x.items x.heard x.record

/-- The session does for the client what it should; the flag says whether an event is being dispatched. -/
structure Sim (dispatching : Bool) (w : World capacity) (c : Client capacity) : Prop where
  setup : w.bms.setup = c.toSetup
  window : w.bms.parser.held = c.window
  discarded : w.bms.parser.discarded = c.discarded
  dispatching : w.bms.dispatching = dispatching
  contents : w.bms.queue.contents = (c.current.map Exchange.request).toList ++ c.waiting
  state : w.bms.state = if c.current.isSome then .awaiting else .idle
  follows : ∀ x, c.current = some x → Follows w.bms x
  trace : seen w.log = c.trace

namespace Sim

variable {dispatching : Bool} {w : World capacity} {c : Client capacity} {x : Exchange}

theorem mark (h : Sim dispatching w c) (obs : Obs) (hobs : obs.isSeen = false) :
    Sim dispatching (w.note obs) c :=
  { h with trace := (seen_hidden w hobs).trans h.trace }

theorem note (h : Sim dispatching w c) (obs : Obs) (hobs : obs.isSeen = true) :
    Sim dispatching (w.note obs) (c.note obs) :=
  { h with trace := (seen_shown w hobs).trans (congrArg _ h.trace) }

theorem count (h : Sim dispatching w c) : w.bms.queue.count = c.pending := by
  rw [← RingBuffer.length_contents, h.contents, List.length_append, Client.pending]
  cases c.current <;> rfl

theorem idle (h : Sim dispatching w c) (hnone : c.current = none) : w.bms.state = .idle := by
  rw [h.state, hnone]
  rfl

theorem awaiting (h : Sim dispatching w c) (hx : c.current = some x) : w.bms.state = .awaiting := by
  rw [h.state, hx]
  rfl

theorem contents_some (h : Sim dispatching w c) (hx : c.current = some x) :
    w.bms.queue.contents = x.request :: c.waiting := by
  rw [h.contents, hx]
  rfl

theorem head (h : Sim dispatching w c) (hx : c.current = some x) : w.bms.head = x.request :=
  RingBuffer.front_of_contents _ (h.contents_some hx)

theorem owner (h : Sim dispatching w c) : w.bms.owner = c.current.map Exchange.request := by
  unfold HaidiBMS.owner
  cases hx : c.current with
  | none =>
      rw [h.idle hx, if_neg]
      · rfl
      · exact fun hboth => nomatch hboth.1
  | some x =>
      have hpos : 0 < w.bms.queue.count := by
        rw [← RingBuffer.length_contents, h.contents_some hx]
        exact Nat.succ_pos _
      rw [if_pos ⟨h.awaiting hx, hpos⟩, h.head hx]
      rfl

/-! ### The transaction -/

theorem transmit (h : Sim dispatching w { c with current := some { x with deadlineMs := w.bms.deadlineMs } }) :
    Sim dispatching (transmit w) (c.send x) := by
  have hfn : w.bms.txFn = c.txFn := congrArg Setup.txFn h.setup
  have hctx : w.bms.txCtx = c.txCtx := congrArg Setup.txCtx h.setup
  have hhost : w.bms.hostAddress = c.hostAddress := congrArg Setup.hostAddress h.setup
  have hnow : w.bms.nowMs = c.nowMs := congrArg Setup.nowMs h.setup
  have hms : w.bms.responseTimeoutMs = c.responseTimeoutMs := congrArg Setup.responseTimeoutMs h.setup
  have hdeadline : ∀ y : Exchange, some { x with deadlineMs := c.nowMs + c.responseTimeoutMs } = some y →
      Follows { w.bms with deadlineMs := w.bms.nowMs + w.bms.responseTimeoutMs } y := by
    rintro y ⟨⟩
    obtain ⟨hretries, -, hkeeps⟩ := h.follows _ rfl
    exact ⟨hretries, by rw [hnow, hms], hkeeps.same (by constructor <;> rfl)⟩
  unfold Client.send
  cases htx : c.txFn with
  | none =>
      rw [transmit_unwired w (hfn.trans htx)]
      exact { h with follows := hdeadline }
  | some fn =>
      rw [transmit_wired w (hfn.trans htx), h.head rfl, hhost, hctx]
      have hsent := h.note (.sent fn c.txCtx (encode c.hostAddress x.request.id x.request.data)) rfl
      exact { hsent with follows := hdeadline }

/-- What a request has at the start: nothing heard, and as many items as are known. -/
theorem keeps_began (w : World capacity) : Keeps (began w).bms w.bms.head w.bms.itemCount.toNat [] [] := by
  constructor
  · intro _
    refine ⟨holds_began w, ?_⟩
    unfold awaited HaidiBMS.itemCount
    by_cases hcells : w.bms.head.id = .cellVoltages
    · have hframes := (beginAwaiting_cells { w.bms with state := .awaiting } hcells).2
      rw [if_pos hcells, if_pos hcells]
      exact (congrArg UInt8.toNat hframes).trans (framesFor_toNat _ 3 16 (by decide))
    by_cases hsensors : w.bms.head.id = .cellTemperatures
    · have hframes := (beginAwaiting_sensors { w.bms with state := .awaiting } hsensors).2
      rw [if_neg hcells, if_neg hcells, if_pos hsensors, if_pos hsensors]
      exact (congrArg UInt8.toNat hframes).trans (framesFor_toNat _ 7 3 (by decide))
    · have hframes := (beginAwaiting_others { w.bms with state := .awaiting } hcells hsensors).2
      rw [if_neg hcells, if_neg hsensors]
      exact congrArg UInt8.toNat hframes
  · intro _
    obtain ⟨_, _, heq⟩ := began_eq w
    rw [heq]
    exact ⟨rfl, rfl, rfl⟩

theorem began {req : Request} {rest : List Request} (h : Sim dispatching w c) (hnone : c.current = none)
    (hwaiting : c.waiting = req :: rest) :
    Sim dispatching (began w) { c with
      waiting := rest
      current := some { request := req, items := (c.itemsFor req).toNat, deadlineMs := (Haidi.began w).bms.deadlineMs } } := by
  have hcontents : w.bms.queue.contents = req :: rest := by
    rw [h.contents, hnone, hwaiting]
    rfl
  have hhead : w.bms.head = req := RingBuffer.front_of_contents _ hcontents
  have hitems : w.bms.itemCount = c.itemsFor req := by
    have hcells : w.bms.cachedCellCount = c.cachedCellCount := congrArg Setup.cachedCellCount h.setup
    have htemps : w.bms.cachedTempCount = c.cachedTempCount := congrArg Setup.cachedTempCount h.setup
    rw [HaidiBMS.itemCount, hhead, hcells, htemps, Setup.itemsFor]
  have hkeeps := keeps_began w
  rw [hhead, hitems] at hkeeps
  obtain ⟨_, _, heq⟩ := began_eq w
  have hqueue : (Haidi.began w).bms.queue = w.bms.queue := by rw [heq]
  have hstate : (Haidi.began w).bms.state = .awaiting := by rw [heq]
  have hretries : (Haidi.began w).bms.retries = 0 := by rw [heq]
  refine
    { setup := ?_
      window := ?_
      discarded := ?_
      dispatching := ?_
      contents := by rw [hqueue]; exact hcontents
      state := hstate
      follows := ?_
      trace := (h.mark .began rfl).trace }
  · rw [heq]
    exact h.setup
  · rw [heq]
    exact h.window
  · rw [heq]
    exact h.discarded
  · rw [heq]
    exact h.dispatching
  · rintro x ⟨⟩
    exact ⟨hretries, rfl, hkeeps⟩

/-- The session gives the bus to the request the client does. -/
theorem pump (h : Sim dispatching w c) : Sim dispatching (pump w) c.start := by
  have hcount := h.count
  rcases pump_cases w with ⟨heq, hempty⟩ | ⟨hidle, hpending, heq⟩ <;> rw [heq]
  · unfold Client.start
    split
    · next req rest hnone hwaiting =>
        have hzero := hempty (h.idle hnone)
        rw [hcount, Client.pending, hwaiting, List.length_cons] at hzero
        omega
    · exact h
  · have hnone : c.current = none := by
      cases hx : c.current with
      | none => rfl
      | some x => exact absurd (hidle.symm.trans (h.awaiting hx)) (by decide)
    cases hwaiting : c.waiting with
    | nil =>
        rw [hcount, Client.pending, hnone, hwaiting] at hpending
        exact absurd hpending (Nat.lt_irrefl 0)
    | cons req rest =>
        unfold Client.start
        rw [hnone, hwaiting]
        exact (h.began hnone hwaiting).transmit

theorem complete (h : Sim dispatching w c) : Sim dispatching (complete w) c.finish := by
  rw [complete_eq]
  refine Sim.pump (w := retired w) (c := { c with current := none }) ?_
  have hcompleting := h.mark .completing rfl
  have hcontents : (retired w).bms.queue.contents = c.waiting := by
    change (if w.bms.state = .awaiting then w.bms.queue.pop else w.bms.queue).contents = _
    cases hx : c.current with
    | none =>
        rw [h.idle hx, if_neg (by decide), h.contents, hx]
        rfl
    | some x =>
        rw [if_pos (h.awaiting hx), RingBuffer.contents_pop, h.contents_some hx]
        rfl
  exact
    { setup := h.setup
      window := h.window
      discarded := h.discarded
      dispatching := h.dispatching
      contents := hcontents
      state := rfl
      follows := nofun
      trace := hcompleting.trace }

/-! ### Requests -/

theorem accepted (h : Sim dispatching w c) (req : Request) (room : w.bms.queue.count < capacity) :
    Sim dispatching (accepted w req room) { c.note (.answered req .queued) with waiting := c.waiting ++ [req] } := by
  have hnote := h.note (.answered req .queued) rfl
  have hcontents : (w.bms.queue.push req room).contents = (c.current.map Exchange.request).toList ++ (c.waiting ++ [req]) := by
    rw [RingBuffer.contents_push, h.contents, List.append_assoc]
  refine { hnote with contents := hcontents, follows := fun x hx => ?_ }
  obtain ⟨hretries, hdeadline, hkeeps⟩ := h.follows x hx
  have hhead : (Haidi.accepted w req room).bms.head = w.bms.head := by
    refine w.bms.queue.front_push req room ?_
    rw [← RingBuffer.length_contents, h.contents_some hx]
    exact Nat.succ_pos _
  exact ⟨hretries, hdeadline, hkeeps.same ⟨hhead, rfl, rfl, rfl, rfl, rfl, rfl, rfl⟩⟩

theorem enqueue (h : Sim dispatching w c) (req : Request) :
    Sim dispatching (enqueue w req).1 (c.ask dispatching req) := by
  have hfn : w.bms.txFn = c.txFn := congrArg Setup.txFn h.setup
  unfold Haidi.enqueue Client.ask
  rw [hfn]
  by_cases htx : c.txFn = none
  · rw [if_pos htx, if_pos htx]
    exact h.note _ rfl
  rw [if_neg htx, if_neg htx]
  by_cases hknown : (!isKnownDataId req.id) = true
  · rw [if_pos hknown, if_pos hknown]
    exact h.note _ rfl
  rw [if_neg hknown, if_neg hknown]
  by_cases room : w.bms.queue.count < capacity
  · rw [dif_pos room, if_pos (h.count ▸ room)]
    have haccepted := h.accepted req room
    change Sim dispatching (if (Haidi.accepted w req room).bms.dispatching then Haidi.accepted w req room
      else Haidi.pump (Haidi.accepted w req room)) (if dispatching then _ else Client.start _)
    rw [haccepted.dispatching]
    split_ifs
    · exact haccepted
    · exact haccepted.pump
  · rw [dif_neg room, if_neg (h.count ▸ room)]
    exact h.note _ rfl

theorem reset (h : Sim dispatching w c) : Sim dispatching (reset w) c.clear where
  setup := h.setup
  window := rfl
  discarded := rfl
  dispatching := h.dispatching
  contents := rfl
  state := rfl
  follows := nofun
  trace := (h.mark .reset rfl).trace

/-! ### Dispatch -/

variable (react : List Obs → Handler → Event → List Reaction)

theorem perform (h : Sim true w c) (reaction : Reaction) :
    Sim true ((Env.seeing react).perform w reaction) (c.perform reaction) := by
  cases reaction with
  | poll method fn ctx => exact h.enqueue _
  | reset => exact h.reset

theorem invoke (h : Sim true w c) (handler : Handler) (event : Event) :
    Sim true (invoke (.seeing react) w handler event) (c.invoke react (some handler) event) := by
  have hcalls : (Env.seeing react).react w handler event = react c.trace handler event :=
    congrArg (fun trace => react trace handler event) h.trace
  have hperforms : ∀ (reactions : List Reaction) {w : World capacity} {c : Client capacity}, Sim true w c →
      Sim true (reactions.foldl (Env.seeing react).perform w) (reactions.foldl Client.perform c) := by
    intro reactions
    induction reactions with
    | nil => exact fun h => h
    | cons reaction rest ih => exact fun h => ih (h.perform react reaction)
  unfold Haidi.invoke Client.invoke
  dsimp only
  rw [hcalls]
  exact (hperforms _ (h.note (.invoked handler event) rfl)).mark .returned rfl

/-- An event goes to the same handlers, and they do the same. -/
theorem emit (h : Sim false w c) (event : Event) : Sim false (emit (.seeing react) w event) (c.dispatch react event) := by
  have hraised := h.note (.raised event) rfl
  have hopened : Sim true (opened w event) (c.note (.raised event)) :=
    { hraised with
      dispatching := rfl
      follows := fun x hx => ⟨(h.follows x hx).retries, (h.follows x hx).deadlineMs, (h.follows x hx).keeps.same (by constructor <;> rfl)⟩ }
  have hown : Sim true (invokePerRequest (.seeing react) (opened w event) w.bms.owner event)
      ((c.note (.raised event)).invoke react (c.current.bind fun x => x.request.handler) event) := by
    unfold invokePerRequest
    rw [h.owner]
    cases c.current with
    | none => exact hopened
    | some x =>
        rw [Option.map_some, Option.bind_some, Option.bind_some]
        cases x.request.handler with
        | none => exact hopened
        | some handler => exact hopened.invoke react handler event
  rw [emit_eq, h.dispatching]
  unfold Client.dispatch
  generalize invokePerRequest (.seeing react) (opened w event) w.bms.owner event = v at hown ⊢
  have hfn : v.bms.eventFn = _ := congrArg Setup.eventFn hown.setup
  have hctx : v.bms.eventCtx = _ := congrArg Setup.eventCtx hown.setup
  have hboth : Sim true (invokeSessionWide (.seeing react) v event) (Client.dispatch react c event) := by
    unfold invokeSessionWide Client.dispatch
    rw [hfn, hctx]
    dsimp only
    split
    · next fn hsome =>
        rw [hsome]
        exact hown.invoke react _ event
    · next hnone =>
        rw [hnone]
        exact hown
  refine Sim.mark ?_ .settled rfl
  exact
    { hboth with
      dispatching := rfl
      follows := fun x hx => ⟨(hboth.follows x hx).retries, (hboth.follows x hx).deadlineMs, (hboth.follows x hx).keeps.same (by constructor <;> rfl)⟩ }

/-! ### Replies of one frame -/

theorem complain (h : Sim false w c) (error : FrameError) :
    Sim false (onFrameError (.seeing react) w error)
      (c.complain react (if error = .checksum then .checksum else .badLength)) := by
  unfold Haidi.onFrameError Client.complain
  cases hx : c.current with
  | none =>
      rw [h.idle hx, if_neg (by decide)]
      exact h.emit react _
  | some x =>
      rw [h.awaiting hx, if_pos rfl, h.head hx]
      exact h.emit react _

theorem setup_noteCounts (bms : HaidiBMS capacity) (id : DataId) (data : DataBytes) :
    (noteCounts bms id data).setup = bms.setup.learn id data := by
  unfold noteCounts Setup.learn
  split_ifs <;> rfl

theorem handleSingle_answers {C : Type} (env : Env capacity C) (w : World capacity) (data : DataBytes) :
    handleSingle env w w.bms.head.id data = Haidi.complete (Haidi.emit env (w.note .accepted) (answerTo w.bms.head data)) := by
  unfold handleSingle answerTo
  dsimp only
  by_cases hmos : w.bms.head.id = .dischargeMosControl ∨ w.bms.head.id = .chargeMosControl
  · rw [if_pos hmos, if_pos hmos]
    by_cases hrefused : (w.bms.head.data[0] != 0) ≠ (data[0] != 0)
    · rw [if_pos hrefused]
      exact if_pos hrefused
    · rw [if_neg hrefused]
      exact if_neg hrefused
  · rw [if_neg hmos, if_neg hmos]
    cases decodeSingle w.bms.head.id data <;> rfl

theorem answer (h : Sim false w c) (hx : c.current = some x) (hsingle : (multiframeInfo x.request.id).multi = false)
    (frame : MessageBytes) :
    Sim false
      (handleSingle (.seeing react) (w.modify fun bms => noteCounts bms x.request.id (dataOf frame)) x.request.id
        (dataOf frame)) (c.hear react x frame) := by
  let v := w.modify fun bms => noteCounts bms x.request.id (dataOf frame)
  have hcontents := h.contents_some hx
  have hsame := noteCounts_same w.bms x.request.id (dataOf frame)
  have hhead : v.bms.head = x.request := hsame.head.trans (h.head hx)
  have hv : Sim false v { c with
      toSetup := c.learn x.request.id (dataOf frame), current := some { x with heard := frame :: x.heard } } :=
    { setup := (setup_noteCounts _ _ _).trans (congrArg (fun setup => Setup.learn setup x.request.id (dataOf frame)) h.setup)
      window := by
        change (noteCounts w.bms _ _).parser.held = _
        rw [parser_noteCounts]
        exact h.window
      discarded := by
        change (noteCounts w.bms _ _).parser.discarded = _
        rw [parser_noteCounts]
        exact h.discarded
      dispatching := hsame.dispatching.trans h.dispatching
      contents := (congrArg RingBuffer.contents hsame.queue).trans hcontents
      state := hsame.state.trans (h.awaiting hx)
      follows := by
        rintro y ⟨⟩
        obtain ⟨hretries, hdeadline, -⟩ := h.follows x hx
        have hdeadline' : v.bms.deadlineMs = w.bms.deadlineMs := by
          obtain ⟨_, _, heq⟩ := noteCounts_eq w.bms x.request.id (dataOf frame)
          change (noteCounts w.bms _ _).deadlineMs = _
          rw [heq]
        refine ⟨hsame.retries.trans hretries, hdeadline'.trans hdeadline, ?_, ?_⟩
        · exact fun hpaged => absurd (hsingle.symm.trans hpaged.1) Bool.false_ne_true
        · intro hid
          have hid : x.request.id = .faultRecords := hid
          rw [hid] at hsingle
          cases hsingle
      trace := h.trace }
  have hanswers := handleSingle_answers (.seeing react) v (dataOf frame)
  rw [hhead] at hanswers
  rw [hanswers]
  unfold Client.hear
  dsimp only
  rw [hsingle]
  exact ((hv.mark .accepted rfl).emit react (answerTo x.request (dataOf frame))).complete

/-! ### Paginated replies -/

/-- The reply that ends here is reported as the client has heard it. -/
theorem conclude (h : Sim false w c) (hx : c.current = some x) (hpaged : (multiframeInfo x.request.id).paginated)
    (hany : x.heard ≠ []) :
    Sim false (finishMulti (.seeing react) w x.request.id) (c.dispatch react x.report).finish := by
  obtain ⟨hholds, -⟩ := (h.follows x hx).keeps.paged hpaged
  have hpayload := hholds.payload (stretch_lowest hany hholds.small)
  rw [h.head hx] at hpayload
  have hframes : w.bms.framesSeen = .ofNat (numbers x.heard).card := by
    rw [← hholds.counted, UInt8.ofNat_toNat]
  unfold finishMulti Exchange.report
  dsimp only at hpayload ⊢
  rw [hpayload, hframes]
  generalize decodeMulti x.request.id _ _ = decoded
  cases decoded <;> exact (h.emit react _).complete

theorem await (h : Sim dispatching w { c with current := some x }) : Sim dispatching (armInterframe w) (c.await x) := by
  have hnow : w.bms.nowMs = c.nowMs := congrArg Setup.nowMs h.setup
  have hms : w.bms.interframeTimeoutMs = c.interframeTimeoutMs := congrArg Setup.interframeTimeoutMs h.setup
  refine { h with follows := ?_ }
  rintro y ⟨⟩
  obtain ⟨hretries, -, hkeeps⟩ := h.follows _ rfl
  refine ⟨hretries, ?_, hkeeps.same (by constructor <;> rfl)⟩
  change w.bms.nowMs + w.bms.interframeTimeoutMs = _
  rw [hnow, hms]

/-- A counted frame is filed as the client remembers it. -/
theorem gather (h : Sim false w c) (hx : c.current = some x) (hpaged : (multiframeInfo x.request.id).paginated)
    (hrange : ¬ (dataOf w.bms.parser.buf)[0] > maxFrameIndex) :
    Sim false ((w.note .accepted).modify fun bms => collect bms x.request.id (dataOf w.bms.parser.buf))
      { c with current := some { x with heard := w.bms.parser.buf :: x.heard } } := by
  obtain ⟨hretries, hdeadline, hkeeps⟩ := h.follows x hx
  obtain ⟨hholds, hawaited⟩ := hkeeps.paged hpaged
  have hcontents := h.contents_some hx
  have hcollect := hholds.collect hrange
  have hsame := collect_same w.bms x.request.id (dataOf w.bms.parser.buf)
  obtain ⟨-, hexpected, -⟩ := collect_assembly w.bms x.request.id (dataOf w.bms.parser.buf)
  rw [h.head hx] at hcollect
  have hdeadlineMs : (collect w.bms x.request.id (dataOf w.bms.parser.buf)).deadlineMs = w.bms.deadlineMs := by
    obtain ⟨_, _, heq⟩ := collect_eq w.bms x.request.id (dataOf w.bms.parser.buf)
    rw [heq]
  have hsetup : (collect w.bms x.request.id (dataOf w.bms.parser.buf)).setup = w.bms.setup := by
    obtain ⟨_, _, heq⟩ := collect_eq w.bms x.request.id (dataOf w.bms.parser.buf)
    rw [heq]
    rfl
  have hparser := parser_collect w.bms x.request.id (dataOf w.bms.parser.buf)
  exact
    { setup := hsetup.trans h.setup
      window := (congrArg FrameParser.held hparser).trans h.window
      discarded := (congrArg FrameParser.discarded hparser).trans h.discarded
      dispatching := hsame.dispatching.trans h.dispatching
      contents := (congrArg RingBuffer.contents hsame.queue).trans hcontents
      state := hsame.state.trans (h.awaiting hx)
      follows := by
        rintro y ⟨⟩
        refine ⟨hsame.retries.trans hretries, hdeadlineMs.trans hdeadline, ?_, ?_⟩
        · exact fun _ => ⟨hcollect, (congrArg UInt8.toNat hexpected).trans hawaited⟩
        · intro hid
          have hid : x.request.id = .faultRecords := hid
          rw [hid] at hpaged
          exact absurd hpaged (by decide)
      trace := (h.mark .accepted rfl).trace }

/-- A frame of a paginated reply, within its range of counters. -/
theorem handleMulti (h : Sim false w c) (hx : c.current = some x) (hpaged : (multiframeInfo x.request.id).paginated)
    (hrange : ¬ (dataOf w.bms.parser.buf)[0] > maxFrameIndex) :
    Sim false (handleMulti (.seeing react) w x.request.id (dataOf w.bms.parser.buf))
      (c.hear react x w.bms.parser.buf) := by
  have hgathered := h.gather hx hpaged hrange
  have hkeeps := (hgathered.follows _ rfl).keeps
  obtain ⟨hholds, hawaited⟩ := hkeeps.paged hpaged
  have hgathered_eq : (w.note .accepted).modify (fun bms => collect bms x.request.id (dataOf w.bms.parser.buf)) =
      gathered w := by
    rw [← h.head hx]
    exact gathered_eq w
  rw [hgathered_eq] at hgathered hholds hawaited
  have hfull : ((gathered w).bms.expectedFrames ≠ 0 ∧ (gathered w).bms.framesSeen ≥ (gathered w).bms.expectedFrames) ↔
      awaited x.request.id x.items ≠ 0 ∧
        awaited x.request.id x.items ≤ (numbers (w.bms.parser.buf :: x.heard)).card := by
    refine and_congr (not_congr ?_) ?_
    · rw [← UInt8.toNat_inj, hawaited]
      rfl
    · rw [ge_iff_le, UInt8.le_iff_toNat_le, hawaited, hholds.counted]
  have hhear : c.hear react x w.bms.parser.buf = c.addPage react { x with heard := w.bms.parser.buf :: x.heard } := by
    unfold Client.hear
    dsimp only
    rw [hpaged.1, hpaged.2]
    rfl
  rw [hhear]
  unfold Haidi.handleMulti Client.addPage
  dsimp only
  rw [if_neg hrange, hgathered_eq]
  by_cases hdone : (gathered w).bms.expectedFrames ≠ 0 ∧ (gathered w).bms.framesSeen ≥ (gathered w).bms.expectedFrames
  · have hconcluded := hgathered.conclude react rfl hpaged (List.cons_ne_nil _ _)
    rw [if_pos hdone, if_pos (hfull.mp hdone)]
    exact hconcluded
  · rw [if_neg hdone, if_neg (mt hfull.mpr hdone)]
    exact hgathered.await

/-! ### Streams -/

theorem streamed_buffers (w : World capacity) (data : DataBytes) :
    (streamed w data).bms.framesSeen = w.bms.framesSeen + 1 ∧
      (streamed w data).bms.recordLen = (appendRecord w.bms.record w.bms.recordLen data).2 ∧
      (streamed w data).bms.record = (appendRecord w.bms.record w.bms.recordLen data).1 := by
  rw [streamed, World.modify_bms, World.note_bms]
  unfold fileStream
  generalize appendRecord w.bms.record w.bms.recordLen data = filled
  exact ⟨rfl, rfl, rfl⟩

/-- A frame of a stream is filed behind what the client remembers of the record. -/
theorem file (h : Sim false w c) (hx : c.current = some x) (hid : x.request.id = .faultRecords) (hroom : x.record.length < 4)
    (frame : MessageBytes) :
    Sim false (streamed w (dataOf frame)) { c with
      current := some { x with heard := frame :: x.heard, record := x.record ++ [dataOf frame] } } := by
  obtain ⟨hretries, hdeadline, hkeeps⟩ := h.follows x hx
  obtain ⟨hseen, hlen, hbytes⟩ := hkeeps.streamed hid
  have hcontents := h.contents_some hx
  obtain ⟨hlen', hbytes'⟩ := appendRecord_take w.bms.record w.bms.recordLen (dataOf frame)
    (by rw [hlen]; change _ ≤ 4 * 7; omega)
  have hlonger : 7 * x.record.length + 7 = 7 * (x.record ++ [dataOf frame]).length := by
    rw [List.length_append, List.length_singleton, Nat.mul_succ]
  rw [hlen, hlonger] at hlen' hbytes'
  obtain ⟨hframes, hrecordLen, hrecord⟩ := streamed_buffers w (dataOf frame)
  exact
    { setup := h.setup
      window := h.window
      discarded := h.discarded
      dispatching := h.dispatching
      contents := hcontents
      state := h.awaiting hx
      follows := by
        rintro y ⟨⟩
        refine ⟨hretries, hdeadline, ?_, ?_⟩
        · intro hpaged
          have hpaged : (multiframeInfo x.request.id).paginated := hpaged
          rw [hid] at hpaged
          exact absurd hpaged (by decide)
        · intro _
          rw [hframes, hrecordLen, hrecord, hseen, hlen, hlen', hbytes', hbytes, List.flatMap_append, List.flatMap_singleton]
          exact ⟨(UInt8.ofNat_add _ _).symm, rfl, rfl⟩
      trace := (h.mark .accepted rfl).trace }

theorem empty (h : Sim false w c) : Sim false (w.modify fun bms => { bms with recordLen := 0 }) c.emptied where
  setup := h.setup
  window := h.window
  discarded := h.discarded
  dispatching := h.dispatching
  contents := by
    refine h.contents.trans (congrArg (· ++ c.waiting) ?_)
    unfold Client.emptied
    cases c.current <;> rfl
  state := by
    refine h.state.trans ?_
    unfold Client.emptied
    cases c.current <;> rfl
  follows := by
    intro y hy
    obtain ⟨x, hx, rfl⟩ := Option.map_eq_some_iff.mp hy
    obtain ⟨hretries, hdeadline, hkeeps⟩ := h.follows x hx
    refine ⟨hretries, hdeadline, fun hpaged => ⟨?_, (hkeeps.paged hpaged).2⟩, fun hid => ⟨(hkeeps.streamed hid).1, rfl, rfl⟩⟩
    exact (hkeeps.paged hpaged).1.same (by constructor <;> rfl)
  trace := h.trace

theorem deliver (h : Sim false w c) (hx : c.current = some x) (hid : x.request.id = .faultRecords)
    (hfull : x.record.length = 4) :
    Sim false (deliverRecord (.seeing react) w .faultRecords) (c.dispatch react (recordEvent x.record)).emptied := by
  obtain ⟨-, hlen, hbytes⟩ := (h.follows x hx).keeps.streamed hid
  rw [hfull] at hlen hbytes
  have hrecord : w.bms.record.toList = x.record.flatMap recordBytes := by
    rw [← hbytes]
    exact (List.take_of_length_le (by simp)).symm
  have hdecoded : decodeFaultRecord w.bms.record.toList w.bms.recordLen = some (recordOf (x.record.flatMap recordBytes)) := by
    rw [hrecord, hlen]
    rfl
  unfold deliverRecord
  rw [hdecoded]
  exact (h.emit react (recordEvent x.record)).empty

/-- The stream goes on, unless the session was reset while a record was delivered. -/
theorem resume (h : Sim false w c) : Sim false (resume w) c.goOn := by
  unfold Client.goOn
  cases hx : c.current with
  | none =>
      rw [Haidi.resume, if_pos (by rw [h.idle hx]; decide)]
      exact (h.mark .abandoned rfl).pump
  | some x =>
      rw [Haidi.resume, if_neg (not_not.mpr (h.awaiting hx))]
      refine Sim.await { h with contents := h.contents_some hx, state := h.awaiting hx, follows := ?_ }
      rintro y ⟨⟩
      exact h.follows x hx

theorem handleStream (h : Sim false w c) (hx : c.current = some x) (hid : x.request.id = .faultRecords)
    (hroom : x.record.length < 4) (frame : MessageBytes) :
    Sim false (handleStream (.seeing react) w .faultRecords (dataOf frame)) (c.hear react x frame) := by
  have hinfo : (multiframeInfo x.request.id).multi = true ∧ (multiframeInfo x.request.id).streaming = true := by
    rw [hid]
    exact multiframeInfo_faultRecords
  unfold Haidi.handleStream Client.hear
  dsimp only
  rw [hinfo.1, hinfo.2]
  by_cases hend : (dataOf frame)[0] = frameNoEnd
  · rw [if_pos hend]
    simp only [Bool.not_true, Bool.false_eq_true, if_false, if_true, if_pos hend]
    exact ((h.mark .accepted rfl).mark .streamEnded rfl).complete
  · rw [if_neg hend]
    simp only [Bool.not_true, Bool.false_eq_true, if_false, if_true, if_neg hend]
    have hfiled := h.file hx hid hroom frame
    have hlen := ((hfiled.follows _ rfl).keeps.streamed hid).2.1
    unfold Client.addRecord
    dsimp only at hlen ⊢
    change Sim false (Haidi.resume (if (streamed w (dataOf frame)).bms.recordLen ≥ faultBufferLen
      then deliverRecord (.seeing react) (streamed w (dataOf frame)) .faultRecords else streamed w (dataOf frame))) _
    by_cases hfull : (x.record ++ [dataOf frame]).length = 4
    · rw [if_pos (by rw [hlen, hfull]), if_pos hfull]
      exact (hfiled.deliver react rfl hid hfull).resume
    · have hshort : ¬ (streamed w (dataOf frame)).bms.recordLen ≥ faultBufferLen := by
        rw [hlen]
        rw [List.length_append, List.length_singleton] at hfull ⊢
        change ¬ 7 * (x.record.length + 1) ≥ 4 * 7
        omega
      rw [if_neg hshort, if_neg hfull]
      exact hfiled.resume

end Sim

end Haidi
