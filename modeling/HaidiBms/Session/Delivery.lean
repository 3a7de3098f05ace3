import HaidiBms.Session.Reassembly

/-!
# From the request to the response

A paginated request is given the bus, frames of its reply arrive in any order and any number of times, and the transfer ends with the frame that makes it complete or with the deadline. Until then nothing is raised, and what is raised then reports the payload: all of it when all frames have arrived, and what follows the lowest counter without a gap when some have not.
-/

namespace Haidi

open Pages

variable {capacity : ℕ+} {C : Type}

/-- The events raised, newest first. -/
def raised (log : List (Entry capacity)) : List Event :=
  log.filterMap fun entry => match entry.obs with
    | .raised event => some event
    | _ => none

/-- No call resets the session, and no tick finds the deadline passed. -/
def Undisturbed (env : Env capacity C) (w : World capacity) : List Call → Prop
  | [] => True
  | c :: rest =>
    (match c with
      | .reset => False
      | .tick nowMs => expired nowMs w.bms.deadlineMs = false
      | _ => True) ∧ Undisturbed env (call env w c) rest

instance decidableUndisturbed (env : Env capacity C) : (w : World capacity) → (calls : List Call) →
    Decidable (Undisturbed env w calls)
  | _, [] => isTrue trivial
  | w, c :: rest =>
    have := decidableUndisturbed env (call env w c) rest
    match c with
    | .reset => isFalse fun h => h.1
    | .tick nowMs => inferInstanceAs (Decidable (expired nowMs w.bms.deadlineMs = false ∧ _))
    | .poll _ _ _ | .feed _ | .setTxHandler _ _ | .setEventHandler _ _ | .setResponseTimeoutMs _
    | .setInterframeTimeoutMs _ | .setMaxRetries _ => inferInstanceAs (Decidable (True ∧ _))

/-! ### While frames come in -/

/-- What holds of a session while frames come in: `I` of those taken so far, through each frame that may follow them and each call that brings none. -/
structure Reception (env : Env capacity C) (Allowed : List MessageBytes → Prop)
    (I : List MessageBytes → World capacity → Prop) : Prop where
  earlier : ∀ {taken more : List MessageBytes}, Allowed (taken ++ more) → Allowed taken
  parsed : ∀ {taken : List MessageBytes} {w : World capacity} (parser : FrameParser), I taken w →
    I taken (w.modify fun bms => { bms with parser })
  frame : ∀ {taken : List MessageBytes} {w : World capacity} {frame : MessageBytes}, Allowed (taken ++ [frame]) →
    I taken w → I (taken ++ [frame]) (onFrame env w frame) ∧ (onFrame env w frame).bms.parser = w.bms.parser
  quiet : ∀ {taken : List MessageBytes} {w : World capacity} {c : Call}, c.received = [] → Undisturbed env w [c] →
    I taken w → I taken (call env w c) ∧ (call env w c).bms.parser = w.bms.parser

namespace Reception

variable {env : Env capacity C} {Allowed : List MessageBytes → Prop} {I : List MessageBytes → World capacity → Prop}
  {taken : List MessageBytes} {w : World capacity}

theorem feed (h : Reception env Allowed I) (hinv : I taken w) (data : List UInt8) (frames : List MessageBytes)
    (hsignals : (w.bms.parser.feed data).2 = frames.map .frame) (hallowed : Allowed (taken ++ frames)) :
    I (taken ++ frames) (feed env w data) ∧ (Haidi.feed env w data).bms.parser = (w.bms.parser.feed data).1 := by
  induction data generalizing w taken frames with
  | nil =>
      rw [List.map_eq_nil_iff.mp hsignals.symm, List.append_nil]
      exact ⟨hinv, rfl⟩
  | cons byte rest ih =>
      have hparsed := h.parsed (w.bms.parser.step byte).1 hinv
      change (w.bms.parser.step byte).2.toList ++ ((w.bms.parser.step byte).1.feed rest).2 = _ at hsignals
      change I _ (Haidi.feed env (feedByte env w byte) rest) ∧
        (Haidi.feed env (feedByte env w byte) rest).bms.parser = ((w.bms.parser.step byte).1.feed rest).1
      cases hsignal : (w.bms.parser.step byte).2 with
      | none =>
          rw [feedByte_silent env w hsignal]
          rw [hsignal] at hsignals
          exact ih hparsed frames hsignals hallowed
      | some signal =>
          rw [feedByte_signal env w hsignal]
          rw [hsignal] at hsignals
          obtain ⟨frame, later, rfl, rfl, hlater⟩ := List.map_eq_cons_iff.mp hsignals.symm
          rw [List.append_cons] at hallowed ⊢
          obtain ⟨hframe, hparser⟩ := h.frame (h.earlier hallowed) hparsed
          have hrest := ih hframe later (by rw [hparser]; exact hlater.symm) hallowed
          rw [hparser] at hrest
          exact hrest

theorem call (h : Reception env Allowed I) (hinv : I taken w) (c : Call) (hcalm : Undisturbed env w [c])
    (frames : List MessageBytes) (hsignals : (w.bms.parser.feed c.received).2 = frames.map .frame)
    (hallowed : Allowed (taken ++ frames)) :
    I (taken ++ frames) (call env w c) ∧ (Haidi.call env w c).bms.parser = (w.bms.parser.feed c.received).1 := by
  cases c with
  | feed data => exact h.feed hinv data frames hsignals hallowed
  | _ =>
      rw [List.map_eq_nil_iff.mp hsignals.symm, List.append_nil]
      exact h.quiet rfl hcalm hinv

theorem run (h : Reception env Allowed I) (hinv : I taken w) (calls : List Call) (hcalm : Undisturbed env w calls)
    (frames : List MessageBytes) (hsignals : (w.bms.parser.feed (received calls)).2 = frames.map .frame)
    (hallowed : Allowed (taken ++ frames)) :
    I (taken ++ frames) (run env w calls) ∧
      (Haidi.run env w calls).bms.parser = (w.bms.parser.feed (received calls)).1 := by
  induction calls generalizing w taken frames with
  | nil =>
      rw [List.map_eq_nil_iff.mp hsignals.symm, List.append_nil]
      exact ⟨hinv, rfl⟩
  | cons c rest ih =>
      rw [received, List.flatMap_cons, FrameParser.feed_append] at hsignals ⊢
      obtain ⟨now, later, rfl, hnow, hlater⟩ := List.map_eq_append_iff.mp hsignals.symm
      rw [← List.append_assoc] at hallowed ⊢
      obtain ⟨hcall, hparser⟩ := h.call hinv c ⟨hcalm.1, trivial⟩ now hnow.symm (h.earlier hallowed)
      have hrest := ih hcall hcalm.2 later (by rw [hparser]; exact hlater.symm) hallowed
      rw [hparser] at hrest
      exact hrest

end Reception

/-! ### Until the reply ends -/

/-- What `Collecting` looks at is as it was. -/
structure SameTransfer (bms bms' : HaidiBMS capacity) : Prop where
  state : bms'.state = bms.state
  queue : bms'.queue = bms.queue
  expectedFrames : bms'.expectedFrames = bms.expectedFrames
  expectedItems : bms'.expectedItems = bms.expectedItems
  seenMask : bms'.seenMask = bms.seenMask
  framesSeen : bms'.framesSeen = bms.framesSeen
  assembly : bms'.assembly = bms.assembly
  bmsAddress : bms'.bmsAddress = bms.bmsAddress

/-- The reply to the head request of `start` is coming in, and nothing has been raised since. -/
structure Underway (reply : PagedReply) (start : World capacity) (taken : List MessageBytes) (w : World capacity) : Prop where
  collecting : Collecting reply start.bms.head taken w.bms
  address : w.bms.bmsAddress = start.bms.bmsAddress
  raised : raised w.log = raised start.log

namespace Underway

variable {reply : PagedReply} {start w : World capacity} {taken : List MessageBytes}

theorem modify (h : Underway reply start taken w) (f : HaidiBMS capacity → HaidiBMS capacity)
    (hsame : SameTransfer w.bms (f w.bms) := by constructor <;> rfl) : Underway reply start taken (w.modify f) where
  collecting :=
    { state := hsame.state.trans h.collecting.state
      pending := by rw [World.modify_bms, hsame.queue]; exact h.collecting.pending
      head := (congrArg RingBuffer.front hsame.queue).trans h.collecting.head
      id := h.collecting.id
      expects := by
        refine ⟨?_, ?_, ?_, ?_⟩
        · rw [World.modify_bms, hsame.expectedFrames]
          exact h.collecting.expects.frames
        all_goals rw [World.modify_bms, hsame.expectedItems]
        · exact h.collecting.expects.cells
        · exact h.collecting.expects.sensors
        · exact h.collecting.expects.others
      seen := by rw [World.modify_bms, hsame.seenMask]; exact h.collecting.seen
      counted := by rw [World.modify_bms, hsame.framesSeen]; exact h.collecting.counted
      within := h.collecting.within
      pages := by rw [World.modify_bms, hsame.assembly]; exact h.collecting.pages }
  address := hsame.bmsAddress.trans h.address
  raised := h.raised

theorem enqueue (h : Underway reply start taken w) (req : Request) :
    Underway reply start taken (enqueue w req).1 ∧ (Haidi.enqueue w req).1.bms.parser = w.bms.parser := by
  rcases enqueue_cases w req with ⟨status, -, heq⟩ | ⟨room, -, -, heq⟩ <;> rw [heq]
  · exact ⟨⟨h.collecting, h.address, h.raised⟩, rfl⟩
  · have hstate : (accepted w req room).bms.state = .awaiting := h.collecting.state
    have hbusy : pump (accepted w req room) = accepted w req room := if_pos (Or.inl (by rw [hstate]; decide))
    have hfront := w.bms.queue.front_push req room h.collecting.pending
    dsimp only
    rw [hbusy, ite_self]
    have hc := h.collecting
    exact ⟨⟨⟨hc.state, Nat.succ_pos _, hfront.trans hc.head, hc.id,
      ⟨hc.expects.frames, hc.expects.cells, hc.expects.sensors, hc.expects.others⟩, hc.seen, hc.counted, hc.within,
      hc.pages⟩, h.address, h.raised⟩, rfl⟩

theorem onFrame (env : Env capacity C) (h : Underway reply start taken w) {frame : MessageBytes}
    (hsends : reply.Sends start.bms.bmsAddress frame)
    (hincomplete : ¬ reply.Complete (numbers (taken ++ [frame]))) :
    Underway reply start (taken ++ [frame]) (onFrame env w frame) ∧
      (Haidi.onFrame env w frame).bms.parser = w.bms.parser := by
  rw [← h.address] at hsends
  rw [(h.collecting.arrive env hsends).2 hincomplete]
  have hcollected : Underway reply start (taken ++ [frame])
      ((w.note .accepted).modify fun bms => collect bms reply.id (dataOf frame)) :=
    ⟨h.collecting.collect hsends, (bmsAddress_collect _ _ _).trans h.address, h.raised⟩
  exact ⟨hcollected.modify _, parser_collect _ _ _⟩

theorem quiet (env : Env capacity C) (h : Underway reply start taken w) {c : Call} (hreceived : c.received = [])
    (hcalm : Undisturbed env w [c]) :
    Underway reply start taken (call env w c) ∧ (call env w c).bms.parser = w.bms.parser := by
  cases c with
  | poll method fn ctx => exact h.enqueue _
  | feed data =>
      cases hreceived
      exact ⟨h, rfl⟩
  | tick nowMs =>
      have hcall : call env w (.tick nowMs) = w.modify fun bms => { bms with nowMs } :=
        if_pos (Or.inr ((Bool.not_eq_true' _).mpr hcalm.1))
      rw [hcall]
      exact ⟨h.modify _, rfl⟩
  | reset => exact hcalm.1.elim
  | _ =>
      dsimp only [call]
      exact ⟨h.modify _, rfl⟩

theorem reception (env : Env capacity C) (reply : PagedReply) (start : World capacity) :
    Reception env
      (fun frames => (∀ frame ∈ frames, reply.Sends start.bms.bmsAddress frame) ∧ ¬ reply.Complete (numbers frames))
      (Underway reply start) where
  earlier := by
    intro taken more ⟨hsends, hincomplete⟩
    rw [numbers_append] at hincomplete
    exact ⟨(List.forall_mem_append.mp hsends).1, fun hcomplete => hincomplete fun counter hlow hhigh =>
      Finset.mem_union_left _ (hcomplete counter hlow hhigh)⟩
  parsed := fun parser h => h.modify fun bms => { bms with parser }
  frame := fun hallowed h => h.onFrame env (hallowed.1 _ List.mem_concat_self) hallowed.2
  quiet := fun hreceived hcalm h => h.quiet env hreceived hcalm

theorem run (env : Env capacity C) (h : Underway reply start [] w) (calls : List Call)
    (hcalm : Undisturbed env w calls) (frames : List MessageBytes)
    (hsignals : (w.bms.parser.feed (received calls)).2 = frames.map .frame)
    (hsends : ∀ frame ∈ frames, reply.Sends start.bms.bmsAddress frame)
    (hincomplete : ¬ reply.Complete (numbers frames)) :
    Underway reply start frames (run env w calls) ∧
      (Haidi.run env w calls).bms.parser = (w.bms.parser.feed (received calls)).1 :=
  (reception env reply start).run h calls hcalm frames hsignals ⟨hsends, hincomplete⟩

end Underway

variable {reply : PagedReply} {taken : List MessageBytes}

/-- The request gets the bus, and nothing of its reply is there yet. -/
theorem underway_pump (w : World capacity) (hidle : w.bms.state = .idle) (hpending : 0 < w.bms.queue.count)
    (hid : w.bms.head.id = reply.id) (hknown : reply.KnownTo w.bms) :
    Underway reply w [] (pump w) ∧ (pump w).bms.parser = w.bms.parser := by
  have hsame := began_same w
  obtain ⟨_, _, heq⟩ := began_eq w
  have hmask : (began w).bms.seenMask = 0 := by rw [heq]
  have hframes : (began w).bms.framesSeen = 0 := by rw [heq]
  have haddress : (began w).bms.bmsAddress = w.bms.bmsAddress := by rw [heq]
  have hparser : (began w).bms.parser = w.bms.parser := by rw [heq]
  have hbegan : Underway reply w [] (began w) :=
    { collecting :=
        { state := hsame.state
          pending := by rw [hsame.queue]; exact hpending
          head := hsame.head
          id := hid
          expects := expects_beginAwaiting { w.bms with state := .awaiting } hid hknown
          seen := counters_eq_empty.mpr hmask
          counted := by rw [hframes]; rfl
          within := fun _ hcounter => absurd hcounter (Finset.notMem_empty _)
          pages := fun _ hcounter => absurd hcounter (Finset.notMem_empty _) }
      address := haddress
      raised := rfl }
  rw [pump_idle w hidle hpending]
  have htimed := hbegan.modify fun bms => { bms with deadlineMs := bms.nowMs + bms.responseTimeoutMs }
  rcases transmit_cases (began w) with ⟨-, hsent⟩ | ⟨fn, hsent⟩ <;> rw [hsent]
  · exact ⟨htimed, hparser⟩
  · exact ⟨⟨htimed.collecting, htimed.address, htimed.raised⟩, hparser⟩

/-! ### The end of the reply -/

/-- The request `start` gave the bus to has ended in `w` with one event, which is its own, and the only one raised since unless a handler's call raises another. -/
def EndsWith (env : Env capacity C) (start w : World capacity) (P : Event → Prop) : Prop :=
  ∃ last event, w = complete (emit env last event) ∧ last.bms.owner = some start.bms.head ∧
    raised last.log = raised start.log ∧
    ((∀ w c, raised (env.perform w c).log = raised w.log) → raised w.log = event :: raised start.log) ∧ P event

theorem raised_transmit (w : World capacity) : raised (transmit w).log = raised w.log := by
  rcases transmit_log w with ⟨-, hlog⟩ | ⟨fn, hlog⟩ <;> rw [hlog]
  rfl

theorem raised_complete (w : World capacity) : raised (complete w).log = raised w.log := by
  rw [complete_eq]
  rcases pump_cases (retired w) with ⟨heq, -⟩ | ⟨-, -, heq⟩ <;> rw [heq]
  · rfl
  · rw [raised_transmit]
    rfl

theorem raised_emit (env : Env capacity C) (henv : ∀ w c, raised (env.perform w c).log = raised w.log)
    (w : World capacity) (event : Event) : raised (emit env w event).log = event :: raised w.log := by
  obtain ⟨w', hw', hemit⟩ := emit_rule (I := fun w' => raised w'.log = event :: raised w.log)
    (J := fun w' => raised w'.log = event :: raised w.log) env w event rfl (fun _ _ h => h)
    (fun w' c h => (henv w' c).trans h) fun _ h => h
  rw [hemit]
  cases w.bms.dispatching <;> exact hw'

theorem Underway.finishMulti (env : Env capacity C) {start w : World capacity} (h : Underway reply start taken w)
    (hany : (numbers taken).Nonempty) : EndsWith env start (finishMulti env w reply.id) (reply.Delivers taken) := by
  obtain ⟨event, heq, hdelivers⟩ := h.collecting.finishMulti env hany
  refine ⟨w, event, heq, ?_, h.raised, fun henv => ?_, hdelivers⟩
  · rw [HaidiBMS.owner, if_pos ⟨h.collecting.state, h.collecting.pending⟩, h.collecting.head]
  · rw [heq, raised_complete, raised_emit env henv, h.raised]

/-- The frame that makes the reply complete ends it. -/
theorem Underway.last (env : Env capacity C) {start w : World capacity} (h : Underway reply start taken w)
    {byte : UInt8} {frame : MessageBytes} (hbyte : (w.bms.parser.step byte).2 = some (.frame frame))
    (hsends : reply.Sends start.bms.bmsAddress frame)
    (hcomplete : reply.Complete (numbers (taken ++ [frame]))) :
    EndsWith env start (Haidi.run env w [.feed [byte]]) (reply.Delivers (taken ++ [frame])) := by
  have hparsed : Underway reply start taken (w.modify fun bms => { bms with parser := (w.bms.parser.step byte).1 }) :=
    h.modify _
  rw [← hparsed.address] at hsends
  have hrun : Haidi.run env w [.feed [byte]] =
      Haidi.onFrame env (w.modify fun bms => { bms with parser := (w.bms.parser.step byte).1 }) frame :=
    feedByte_signal env w hbyte
  rw [hrun, (hparsed.collecting.arrive env hsends).1 hcomplete]
  have hcollected : Underway reply start (taken ++ [frame])
      ((World.note (w.modify fun bms => { bms with parser := (w.bms.parser.step byte).1 }) .accepted).modify
        fun bms => collect bms reply.id (dataOf frame)) := by
    exact ⟨hparsed.collecting.collect hsends, (bmsAddress_collect _ _ _).trans hparsed.address, hparsed.raised⟩
  exact hcollected.finishMulti env (by rw [numbers_concat]; exact Finset.insert_nonempty _ _)

/-- The deadline ends a reply that has begun. -/
theorem Underway.tick (env : Env capacity C) {start w : World capacity} (h : Underway reply start taken w)
    (hany : (numbers taken).Nonempty) {nowMs : UInt32} (hdeadline : expired nowMs w.bms.deadlineMs = true) :
    EndsWith env start (Haidi.run env w [.tick nowMs]) (reply.Delivers taken) := by
  have hpaged := reply.nominal.tabled.paginated
  have hid : w.bms.head.id = reply.id := by rw [h.collecting.head, h.collecting.id]
  have hseen : w.bms.framesSeen > 0 := by
    rw [gt_iff_lt, UInt8.lt_iff_toNat_lt, h.collecting.counted]
    exact Finset.card_pos.mpr hany
  have hlate : ¬ (w.bms.state ≠ .awaiting ∨ (!expired nowMs w.bms.deadlineMs) = true) := by
    simp [h.collecting.state, hdeadline]
  have hmulti : (multiframeInfo w.bms.head.id).multi = true ∧ (!(multiframeInfo w.bms.head.id).streaming) = true ∧
      w.bms.framesSeen > 0 := by
    rw [hid]
    exact ⟨hpaged.1, by rw [hpaged.2]; rfl, hseen⟩
  have hrun : Haidi.run env w [.tick nowMs] =
      Haidi.finishMulti env ((w.modify fun bms => { bms with nowMs }).note .expired) w.bms.head.id :=
    (if_neg hlate).trans (if_pos hmulti)
  rw [hrun, hid]
  have hclock := h.modify fun bms => { bms with nowMs }
  exact Underway.finishMulti env ⟨hclock.collecting, hclock.address, hclock.raised⟩ hany

/-! ### What is reported -/

namespace PagedReply

variable (reply : PagedReply)

/-- The event reports the values from the first one on, and stops where something is missing. -/
def ReportsPrefix (event : Event) : Prop := ∃ values, reported reply.id event.payload = some values ∧ values <+: reply.values

/-- The event reports all of the payload. -/
structure ReportsAll (event : Event) : Prop where
  id : event.id = reply.id
  kind : event.kind = .response
  frames : event.frames.toNat = reply.frames
  values : reported reply.id event.payload = some reply.values

theorem length_values : reply.values.length = reply.count := by
  rw [values, List.length_map, List.length_range]

end PagedReply

theorem numbers_within {address : UInt8} {frames : List MessageBytes}
    (hsends : ∀ frame ∈ frames, reply.Sends address frame) :
    ∀ counter ∈ numbers frames, reply.base ≤ counter ∧ counter < reply.base + reply.frames := by
  intro counter hcounter
  obtain ⟨frame, hframe, rfl⟩ := List.mem_map.mp (List.mem_toFinset.mp hcounter)
  exact ⟨(hsends frame hframe).first, (hsends frame hframe).last⟩

theorem PagedReply.Delivers.reportsPrefix {event : Event} (h : reply.Delivers taken event)
    (hbase : reply.base ∈ numbers taken) : reply.ReportsPrefix event := by
  obtain ⟨values, first, run, hreported, hstretch, hlength, hvalues⟩ := h.values
  have hfirst : first - reply.base = 0 := Nat.sub_eq_zero_of_le (hstretch.least.2 hbase)
  refine ⟨values, hreported, List.prefix_iff_getElem?.mpr fun i hi => ?_⟩
  have hcarries := hvalues i values[i] (List.getElem?_eq_getElem hi)
  rw [hfirst, Nat.zero_mul, Nat.zero_add, PagedReply.Carries,
    if_pos (hi.trans_le (hlength.trans_le (min_le_right _ _)))] at hcarries
  exact hcarries

theorem PagedReply.Delivers.reportsAll {event : Event} (h : reply.Delivers taken event)
    (hwithin : ∀ counter ∈ numbers taken, reply.base ≤ counter ∧ counter < reply.base + reply.frames)
    (hcomplete : reply.Complete (numbers taken)) : reply.ReportsAll event := by
  have hbase : reply.base ∈ numbers taken := hcomplete _ le_rfl (Nat.lt_add_of_pos_right reply.frames_pos)
  have harrived : numbers taken = Finset.Ico reply.base (reply.base + reply.frames) := by
    ext counter
    rw [Finset.mem_Ico]
    exact ⟨hwithin counter, fun hcounter => hcomplete counter hcounter.1 hcounter.2⟩
  refine ⟨h.id, h.kind, ?_, ?_⟩
  · rw [h.frames, harrived, Nat.card_Ico, Nat.add_sub_cancel_left]
  obtain ⟨values, hreported, hagree⟩ := h.reportsPrefix hbase
  rw [hreported]
  refine congrArg some (hagree.eq_of_length ?_)
  obtain ⟨values', first, run, hreported', hstretch, hlength, -⟩ := h.values
  obtain rfl : values = values' := Option.some.inj (hreported.symm.trans hreported')
  -- the run reaches past the last frame, so it holds the whole payload
  have hfirst : first = reply.base := le_antisymm (hstretch.least.2 hbase) (hwithin first hstretch.least.1).1
  have hrun : reply.frames ≤ run := by
    by_contra hshort
    exact hstretch.unbroken.stop (hcomplete _ (by omega) (by omega))
  have hlong : reply.payload.length ≤ needed reply.payload.length (pageWidth reply.id) * pageWidth reply.id := by
    refine length_le_needed ?_
    rcases sizes reply.id with ⟨-, hwidth, -⟩ | ⟨-, hwidth, -⟩ <;> rw [hwidth] <;> decide
  rw [hlength, reply.length_values]
  refine min_eq_right ?_
  rw [PagedReply.frames] at hrun
  have hwhole := reply.nominal.tabled.whole
  rw [PagedReply.count]
  rcases sizes reply.id with ⟨hbytes, hwidth, hitems⟩ | ⟨hbytes, hwidth, hitems⟩
  all_goals
    rw [hwidth] at hlong hrun
    rw [hbytes, hitems]
    omega

/-! ### Reassembly and loss -/

/-- A paginated request whose reply comes in whole, its frames in any order, any number of times and under any base that fits, ends at the frame that was missing last and not before, with one response that reports all of the payload. -/
theorem paginated_reply_reassembled (env : Env capacity C) (reply : PagedReply) (w : World capacity)
    (hidle : w.bms.state = .idle) (hpending : 0 < w.bms.queue.count) (hid : w.bms.head.id = reply.id)
    (hknown : reply.KnownTo w.bms) (calls : List Call) (hcalm : Undisturbed env (pump w) calls)
    (frames : List MessageBytes) (last : MessageBytes) (byte : UInt8)
    (hframes : (w.bms.parser.feed (received calls)).2 = frames.map .frame)
    (hlast : ((w.bms.parser.feed (received calls)).1.step byte).2 = some (.frame last))
    (hsends : ∀ frame ∈ last :: frames, reply.Sends w.bms.bmsAddress frame)
    (hbefore : ¬ reply.Complete (numbers frames)) (hcomplete : reply.Complete (numbers (last :: frames))) :
    raised (run env (pump w) calls).log = raised w.log ∧
      EndsWith env w (run env (pump w) (calls ++ [.feed [byte]])) reply.ReportsAll := by
  obtain ⟨hbegun, hparser⟩ := underway_pump w hidle hpending hid hknown
  rw [← hparser] at hframes hlast
  obtain ⟨hrun, hfed⟩ := hbegun.run env calls hcalm frames hframes
    (fun frame hframe => hsends frame (List.mem_cons_of_mem _ hframe)) hbefore
  rw [← hfed] at hlast
  have hnumbers : numbers (last :: frames) = numbers (frames ++ [last]) := List.toFinset_cons.trans (numbers_concat _ _).symm
  rw [hnumbers] at hcomplete
  refine ⟨hrun.raised, ?_⟩
  rw [run_append]
  obtain ⟨before, event, heq, howner, hraised, honly, hdelivers⟩ :=
    hrun.last env hlast (hsends last List.mem_cons_self) hcomplete
  refine ⟨before, event, heq, howner, hraised, honly, hdelivers.reportsAll ?_ hcomplete⟩
  rw [← hnumbers]
  exact numbers_within hsends

/-- A pack's answer to a version poll, in two frames. -/
def versionReply (base : Nat) (hbase : base ≤ 15) : PagedReply where
  id := .softwareVersion
  payload := [86, 49, 46, 48, 45, 83, 78, 48, 48, 48, 55, 45, 66, 49]
  base := base
  nominal := rfl
  fits := Nat.add_le_add_right hbase 2

def versionFrame (counter : UInt8) (page : Vector UInt8 7) : MessageBytes :=
  encode bmsAddress .softwareVersion (Vector.ofFn fun i => if i.val = 0 then counter else page.getD (i.val - 1) 0)

def versionHead (counter : UInt8) : MessageBytes := versionFrame counter #v[86, 49, 46, 48, 45, 83, 78]

def versionTail (counter : UInt8) : MessageBytes := versionFrame counter #v[48, 48, 48, 55, 45, 66, 49]

/-- A session whose version poll is about to get the bus. -/
def versionPolled : World 24 :=
  accepted (run (.polling fun _ _ _ => []) (World.new .comp bmsAddress) [.setTxHandler (some 1) 0])
    (Poll.softwareVersion.toRequest none 0) (by decide)

/-- Numbered from one, the second frame first. -/
theorem paginated_reply_reassembled_swapped :
    let env : Env 24 Reaction := .polling fun _ _ _ => []
    let calls : List Call := [.feed ((versionTail 2).toList ++ (versionHead 1).toList.take msgLastIndex)]
    raised (run env (pump versionPolled) calls).log = raised versionPolled.log ∧
      EndsWith env versionPolled (run env (pump versionPolled) (calls ++ [.feed [(versionHead 1)[msgLastIndex]]]))
        (versionReply 1 (by decide)).ReportsAll :=
  paginated_reply_reassembled (.polling fun _ _ _ => []) (versionReply 1 (by decide)) versionPolled (by decide)
    (by decide) (by decide) trivial _ (by decide) [versionTail 2] (versionHead 1) _ (by decide) (by decide)
    (List.forall_mem_cons.mpr ⟨⟨by decide, by decide, by decide, by decide, by decide⟩,
      List.forall_mem_singleton.mpr ⟨by decide, by decide, by decide, by decide, by decide⟩⟩)
    (by decide) (by decide)

/-- Whichever frames of a paginated reply arrive, in any order and any number of times, before the transfer is complete or its deadline passes: one response ends it, which reports what the pack put from the lowest of these frames on, up to the first that is missing: its values, and behind them the last frame's padding. While the first frame is among them, what is reported is a prefix of the values. -/
theorem loss_shortens_reply (env : Env capacity C) (reply : PagedReply) (w : World capacity)
    (hidle : w.bms.state = .idle) (hpending : 0 < w.bms.queue.count) (hid : w.bms.head.id = reply.id)
    (hknown : reply.KnownTo w.bms) (calls : List Call) (hcalm : Undisturbed env (pump w) calls)
    (frames : List MessageBytes) (hframes : (w.bms.parser.feed (received calls)).2 = frames.map .frame)
    (hsends : ∀ frame ∈ frames, reply.Sends w.bms.bmsAddress frame) (hbefore : ¬ reply.Complete (numbers frames)) :
    raised (run env (pump w) calls).log = raised w.log ∧
      (∀ nowMs, frames ≠ [] → expired nowMs (run env (pump w) calls).bms.deadlineMs = true →
        EndsWith env w (run env (pump w) (calls ++ [.tick nowMs])) fun event =>
          reply.Delivers frames event ∧ (reply.base ∈ numbers frames → reply.ReportsPrefix event)) ∧
      ∀ byte last, ((w.bms.parser.feed (received calls)).1.step byte).2 = some (.frame last) →
        reply.Sends w.bms.bmsAddress last → reply.Complete (numbers (frames ++ [last])) →
          EndsWith env w (run env (pump w) (calls ++ [.feed [byte]])) fun event =>
            reply.Delivers (frames ++ [last]) event ∧ reply.ReportsPrefix event := by
  obtain ⟨hbegun, hparser⟩ := underway_pump w hidle hpending hid hknown
  rw [← hparser] at hframes
  obtain ⟨hrun, hfed⟩ := hbegun.run env calls hcalm frames hframes hsends hbefore
  refine ⟨hrun.raised, fun nowMs hany hdeadline => ?_, fun byte last hlast hlastSends hcomplete => ?_⟩
  · have hsome : (numbers frames).Nonempty := by
      obtain ⟨frame, rest, rfl⟩ := List.exists_cons_of_ne_nil hany
      exact ⟨_, List.mem_toFinset.mpr List.mem_cons_self⟩
    rw [run_append]
    obtain ⟨before, event, heq, howner, hraised, honly, hdelivers⟩ := hrun.tick env hsome hdeadline
    exact ⟨before, event, heq, howner, hraised, honly, hdelivers, fun hbase => hdelivers.reportsPrefix hbase⟩
  · rw [← hparser, ← hfed] at hlast
    have hbase : reply.base ∈ numbers (frames ++ [last]) :=
      hcomplete _ le_rfl (Nat.lt_add_of_pos_right reply.frames_pos)
    rw [run_append]
    obtain ⟨before, event, heq, howner, hraised, honly, hdelivers⟩ := hrun.last env hlast hlastSends hcomplete
    exact ⟨before, event, heq, howner, hraised, honly, hdelivers, hdelivers.reportsPrefix hbase⟩

/-- The second frame is lost and the deadline passes. -/
theorem loss_shortens_reply_version :
    let env : Env 24 Reaction := .polling fun _ _ _ => []
    let calls : List Call := [.feed (versionHead 0).toList]
    EndsWith env versionPolled (run env (pump versionPolled) (calls ++ [.tick 250])) fun event =>
      (versionReply 0 (by decide)).Delivers [versionHead 0] event ∧
        (0 ∈ numbers [versionHead 0] → (versionReply 0 (by decide)).ReportsPrefix event) :=
  (loss_shortens_reply (.polling fun _ _ _ => []) (versionReply 0 (by decide)) versionPolled (by decide) (by decide)
    (by decide) trivial [.feed (versionHead 0).toList] (by decide) [versionHead 0] (by decide)
    (List.forall_mem_singleton.mpr ⟨by decide, by decide, by decide, by decide, by decide⟩) (by decide)).2.1
    250 (by decide) (by decide)

set_option maxRecDepth 1000 in
/-- The first frame is lost, and the characters of the second are reported in its place. -/
theorem loss_shifts_values :
    let reply := versionReply 0 (by decide)
    let env : Env 24 Reaction := .polling fun _ _ _ => []
    let w := run env (World.new .comp bmsAddress)
      [.setTxHandler (some 1) 0, .poll .softwareVersion none 0, .feed (versionTail 1).toList, .tick 250]
    reply.Sends bmsAddress (versionTail 1) ∧
      ∃ event, raised w.log = [event] ∧ event.kind = .response ∧ ¬ reply.ReportsPrefix event := by
  refine ⟨⟨by decide, by decide, by decide, by decide, by decide⟩,
    { id := .softwareVersion, frames := 1, payload := .version ⟨7, #v[48, 48, 48, 55, 45, 66, 49, 0, 0, 0, 0, 0, 0, 0]⟩ },
    by decide, rfl, ?_⟩
  have hvalues : reported .softwareVersion (.version ⟨7, #v[48, 48, 48, 55, 45, 66, 49, 0, 0, 0, 0, 0, 0, 0]⟩) =
      some [48, 48, 48, 55, 45, 66, 49] := by decide
  intro hreports
  obtain ⟨values, hreported, hagree⟩ := hreports
  rw [← Option.some.inj (hvalues.symm.trans hreported)] at hagree
  exact absurd hagree (by decide)

/-- Of four cells' voltages the first frame is lost: behind the one cell of the second, its padding is reported as two more. -/
example :
    (raised (run (.polling fun _ _ _ => []) (World.new .comp bmsAddress : World 24)
      [.setTxHandler (some 1) 0, .poll (.cellVoltages 4) none 0,
        .feed (encode bmsAddress .cellVoltages #v[1, 0x0D, 0x4B, 0xFF, 0xFF, 0xFF, 0xFF, 0]).toList, .tick 250]).log).map
      (fun event => reported .cellVoltages event.payload) = [some [3403, 65535, 65535]] := by
  decide +kernel

end Haidi
