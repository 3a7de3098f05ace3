import HaidiBms.Session.Simulation

/-!
# Runs of the client

Bytes, ticks and calls do to the session what they do to the client, so that whatever the handlers poll or reset on what they are shown, both show the same.
-/

namespace Haidi

variable {capacity : ℕ+}

/-- What stays of a session whose setup changes, beside its buffers. -/
structure SameProgress (bms bms' : HaidiBMS capacity) : Prop where
  parser : bms'.parser = bms.parser
  queue : bms'.queue = bms.queue
  state : bms'.state = bms.state
  dispatching : bms'.dispatching = bms.dispatching
  retries : bms'.retries = bms.retries
  deadlineMs : bms'.deadlineMs = bms.deadlineMs

namespace Sim

variable {dispatching : Bool} {w : World capacity} {c : Client capacity} {x : Exchange}
variable (react : List Obs → Handler → Event → List Reaction)

/-! ### Bytes and ticks -/

theorem receive (h : Sim false w c) (hroom : ∀ x, c.current = some x → x.record.length < 4) (frame : MessageBytes)
    (hframe : frame = w.bms.parser.buf) : Sim false (onFrame (.seeing react) w frame) (c.receive react frame) := by
  have haddress : w.bms.bmsAddress = c.bmsAddress := congrArg Setup.bmsAddress h.setup
  unfold Haidi.onFrame Client.receive
  dsimp only
  cases hx : c.current with
  | none =>
      rw [if_pos (by rw [h.idle hx]; decide)]
      exact h.emit react _
  | some x =>
      dsimp only
      rw [if_neg (not_not.mpr (h.awaiting hx)), haddress, h.head hx]
      by_cases hours : frame[msgAddressIndex] ≠ c.bmsAddress
      · rw [if_pos hours, if_pos hours]
        exact h.emit react _
      rw [if_neg hours, if_neg hours]
      by_cases hid : frame[msgDataIdIndex] ≠ x.request.id
      · rw [if_pos hid, if_pos hid]
        exact h.emit react _
      rw [if_neg hid, if_neg hid]
      rw [not_not] at hid
      rw [hid]
      cases hmulti : (multiframeInfo x.request.id).multi with
      | false =>
          rw [if_pos Bool.not_false, if_neg (fun hboth => Bool.false_ne_true (hmulti.symm.trans hboth.1.1))]
          exact h.answer react hx hmulti frame
      | true =>
          have hsame : (w.modify fun bms => noteCounts bms x.request.id (dataOf frame)) = w :=
            World.modify_congr (g := id) (noteCounts_multi hmulti _ _)
          rw [if_neg (by decide), hsame]
          cases hstream : (multiframeInfo x.request.id).streaming with
          | true =>
              have hrecords := (multi_of_streaming hstream).1
              rw [if_pos rfl, if_neg (fun hboth => Bool.false_ne_true (hboth.1.2.symm.trans hstream))]
              rw [hrecords]
              exact h.handleStream react hx hrecords (hroom x hx) frame
          | false =>
              have hpaged : (multiframeInfo x.request.id).paginated := ⟨hmulti, hstream⟩
              rw [if_neg (by decide)]
              by_cases hrange : (dataOf frame)[0] > maxFrameIndex
              · rw [if_pos ⟨hpaged, hrange⟩, Haidi.handleMulti, if_pos hrange]
                exact h.emit react _
              · rw [if_neg (fun hboth => hrange hboth.2)]
                subst hframe
                exact h.handleMulti react hx hpaged hrange

theorem frameOf_toList (frame : MessageBytes) : Client.frameOf frame.toList = frame := by
  apply Vector.ext
  intro i hi
  simp [Client.frameOf, List.getD_eq_getElem?_getD]

theorem take (h : Sim false w c) (hroom : ∀ x, c.current = some x → x.record.length < 4) (byte : UInt8) :
    Sim false (feedByte (.seeing react) w byte) (c.take react byte) := by
  obtain ⟨hheld, hdiscarded, hreports⟩ := w.bms.parser.step_refines byte
  rw [h.window] at hheld hdiscarded hreports
  rw [h.discarded] at hdiscarded
  have hparsed : Sim false (w.modify fun bms => { bms with parser := (w.bms.parser.step byte).1 }) { c with
      window := (wire.step c.window byte).1
      discarded := c.discarded + .ofNat (wire.step c.window byte).2.junk.length } :=
    { h with
      window := hheld
      discarded := hdiscarded
      follows := fun x hx => ⟨(h.follows x hx).retries, (h.follows x hx).deadlineMs, (h.follows x hx).keeps.same (by constructor <;> rfl)⟩ }
  unfold Client.take
  dsimp only
  generalize (wire.step c.window byte).2 = verdict at hreports hparsed ⊢
  cases hsignal : (w.bms.parser.step byte).2 with
  | none =>
      rw [hsignal] at hreports
      rw [feedByte_silent _ w hsignal]
      cases hreports <;> exact hparsed
  | some signal =>
      rw [hsignal] at hreports
      rw [feedByte_signal _ w hsignal]
      cases hreports with
      | found frame =>
          dsimp only
          rw [frameOf_toList]
          exact hparsed.receive react hroom frame (FrameParser.step_frame hsignal).symm
      | badLength shed => exact hparsed.complain react .badLength
      | checksum shed => exact hparsed.complain react .checksum

theorem retry (h : Sim false w c) (hx : c.current = some x) :
    Sim false (Haidi.transmit ((w.note .retrying).modify fun bms => { bms with retries := bms.retries + 1 }))
      (c.send { x with retries := x.retries + 1 }) := by
  obtain ⟨hretries, -, hkeeps⟩ := h.follows x hx
  have hcontents := h.contents_some hx
  have hstate := h.awaiting hx
  have hkeeps' : Keeps { w.bms with retries := w.bms.retries + 1 } x.request x.items x.heard x.record := hkeeps.same (by constructor <;> rfl)
  refine Sim.transmit
    { setup := h.setup
      window := h.window
      discarded := h.discarded
      dispatching := h.dispatching
      contents := hcontents
      state := hstate
      follows := ?_
      trace := (h.mark .retrying rfl).trace }
  rintro y ⟨⟩
  exact ⟨congrArg (· + 1) hretries, rfl, hkeeps'⟩

/-- What a passed deadline does. -/
theorem lapse (h : Sim false w c) (hx : c.current = some x) : Sim false (lapse (.seeing react) w) (c.lapse react x) := by
  obtain ⟨hretries, hdeadline, hkeeps⟩ := h.follows x hx
  have hmax : w.bms.maxRetries = c.maxRetries := congrArg Setup.maxRetries h.setup
  unfold Haidi.lapse Client.lapse
  dsimp only
  rw [h.head hx, hretries, hmax]
  have hpages : ((multiframeInfo x.request.id).multi = true ∧ (!(multiframeInfo x.request.id).streaming) = true ∧
      w.bms.framesSeen > 0) ↔ (multiframeInfo x.request.id).paginated ∧ x.heard ≠ [] := by
    rw [← and_assoc, Bool.not_eq_true', ← MultiFrameInfo.paginated]
    refine and_congr_right fun hpaged => ?_
    rw [gt_iff_lt, UInt8.lt_iff_toNat_lt, (hkeeps.paged hpaged).1.counted]
    change 0 < _ ↔ _
    rw [Finset.card_pos, numbers, List.toFinset_nonempty_iff, Ne, List.map_eq_nil_iff]
  have hframes : ((multiframeInfo x.request.id).streaming = true ∧ w.bms.framesSeen > 0) ↔
      (multiframeInfo x.request.id).streaming = true ∧ x.count ≠ 0 := by
    refine and_congr_right fun hstream => ?_
    rw [(hkeeps.streamed (multi_of_streaming hstream).1).1, Exchange.count, gt_iff_lt, UInt8.pos_iff_ne_zero]
  by_cases hreport : (multiframeInfo x.request.id).multi = true ∧ (!(multiframeInfo x.request.id).streaming) = true ∧
      w.bms.framesSeen > 0
  · rw [if_pos hreport, if_pos (hpages.mp hreport)]
    exact h.conclude react hx (hpages.mp hreport).1 (hpages.mp hreport).2
  rw [if_neg hreport, if_neg (mt hpages.mpr hreport)]
  by_cases htruncated : (multiframeInfo x.request.id).streaming = true ∧ w.bms.framesSeen > 0
  · rw [if_pos htruncated, if_pos (hframes.mp htruncated)]
    have hcount : w.bms.framesSeen = x.count := (hkeeps.streamed (multi_of_streaming htruncated.1).1).1
    rw [hcount]
    exact (h.emit react _).complete
  rw [if_neg htruncated, if_neg (mt hframes.mpr htruncated)]
  split_ifs
  · exact h.retry hx
  · exact (h.emit react _).complete

theorem setUp (h : Sim false w c) (change : HaidiBMS capacity → HaidiBMS capacity) (set : Setup → Setup)
    (hset : (change w.bms).setup = set w.bms.setup) (hbuffers : SameBuffers w.bms (change w.bms))
    (hexchange : SameProgress w.bms (change w.bms)) :
    Sim false (w.modify change) { c with toSetup := set c.toSetup } where
  setup := hset.trans (congrArg set h.setup)
  window := (congrArg FrameParser.held hexchange.parser).trans h.window
  discarded := (congrArg FrameParser.discarded hexchange.parser).trans h.discarded
  dispatching := hexchange.dispatching.trans h.dispatching
  contents := (congrArg RingBuffer.contents hexchange.queue).trans h.contents
  state := hexchange.state.trans h.state
  follows := by
    intro x hx
    obtain ⟨hretries, hdeadline, hkeeps⟩ := h.follows x hx
    exact ⟨hexchange.retries.trans hretries, hexchange.deadlineMs.trans hdeadline, hkeeps.same hbuffers⟩
  trace := h.trace

theorem tick (h : Sim false w c) (nowMs : UInt32) : Sim false (tick (.seeing react) w nowMs) (c.tick react nowMs) := by
  have hticked : Sim false (ticked w nowMs) { c with nowMs } := by
    refine h.setUp (fun bms => { bms with nowMs }) (fun setup => { setup with nowMs }) rfl ?_ ?_ <;> constructor <;> rfl
  rw [tick_eq]
  unfold Client.tick
  dsimp only
  cases hx : c.current with
  | none =>
      have hquiet : w.bms.state ≠ .awaiting := by
        rw [h.idle hx]
        decide
      rw [if_pos (Or.inl hquiet)]
      rw [hx] at hticked
      exact hticked
  | some x =>
      dsimp only
      rw [hx] at hticked
      rw [(h.follows x hx).deadlineMs]
      by_cases hdue : expired nowMs x.deadlineMs = true
      · have hlapses : ¬ (w.bms.state ≠ .awaiting ∨ (!expired nowMs x.deadlineMs) = true) := by
          rw [hdue]
          exact fun hquiet => hquiet.elim (fun hstate => hstate (h.awaiting hx)) nofun
        rw [if_neg hlapses, if_pos hdue]
        exact (hticked.mark .expired rfl).lapse react rfl
      · rw [if_pos (Or.inr (by simpa using hdue)), if_neg hdue]
        exact hticked

end Sim

/-! ### Calls and runs -/

namespace Client

/-- No record is left waiting to be delivered. -/
def Tidy (c : Client capacity) : Prop := ∀ x, c.current = some x → x.record.length < 4

variable {c : Client capacity} {x : Exchange} (react : List Obs → Handler → Event → List Reaction)

theorem tidy_send (hroom : x.record.length < 4) : (c.send x).Tidy := by
  rintro y ⟨⟩
  exact hroom

theorem Tidy.start (h : c.Tidy) : c.start.Tidy := by
  unfold Client.start
  split
  · exact tidy_send (Nat.zero_lt_succ 3)
  · exact h

theorem tidy_finish (c : Client capacity) : c.finish.Tidy := Tidy.start nofun

theorem tidy_of_current {c' : Client capacity} (h : c.Tidy) (hcurrent : c'.current = c.current ∨ c'.current = none) :
    c'.Tidy := by
  intro x hx
  rcases hcurrent with heq | hnone
  · exact h x (heq ▸ hx)
  · rw [hnone] at hx
    cases hx

theorem perform_current (reaction : Reaction) : (c.perform reaction).current = c.current ∨ (c.perform reaction).current = none := by
  cases reaction with
  | poll method fn ctx =>
      left
      change (c.ask true _).current = _
      unfold ask
      simp only [if_true]
      split_ifs <;> rfl
  | reset => exact Or.inr rfl

theorem invoke_current (handler : Option Handler) (event : Event) :
    (c.invoke react handler event).current = c.current ∨ (c.invoke react handler event).current = none := by
  have hperforms : ∀ (reactions : List Reaction) {d : Client capacity}, d.current = c.current ∨ d.current = none →
      (reactions.foldl perform d).current = c.current ∨ (reactions.foldl perform d).current = none := by
    intro reactions
    induction reactions with
    | nil => exact fun h => h
    | cons reaction rest ih =>
        intro d hd
        refine ih ?_
        rcases perform_current (c := d) reaction with heq | hnone
        · rw [heq]
          exact hd
        · exact Or.inr hnone
  cases handler with
  | none => exact Or.inl rfl
  | some handler => exact hperforms _ (Or.inl rfl)

/-- A dispatch leaves the exchange as it is, or a handler has reset the session. -/
theorem dispatch_current (event : Event) :
    (c.dispatch react event).current = c.current ∨ (c.dispatch react event).current = none := by
  unfold dispatch
  dsimp only
  generalize hown : (c.note (.raised event)).invoke react (c.current.bind fun x => x.request.handler) event = d
  have hd : d.current = c.current ∨ d.current = none := by
    rw [← hown]
    exact invoke_current (c := c.note (.raised event)) react _ event
  rcases invoke_current (c := d) react (d.eventFn.map fun fn => .sessionWide fn d.eventCtx) event with heq | hnone
  · rw [heq]
    exact hd
  · exact Or.inr hnone

theorem Tidy.dispatch (h : c.Tidy) (event : Event) : (c.dispatch react event).Tidy :=
  tidy_of_current h (dispatch_current react event)

theorem tidy_emptied (c : Client capacity) : c.emptied.Tidy := by
  intro x hx
  obtain ⟨y, -, rfl⟩ := Option.map_eq_some_iff.mp hx
  exact Nat.zero_lt_succ 3

theorem Tidy.goOn (h : c.Tidy) : c.goOn.Tidy := by
  unfold Client.goOn
  cases hx : c.current with
  | none => exact h.start
  | some x =>
      rintro y ⟨⟩
      exact h x hx

theorem tidy_addRecord (hroom : x.record.length ≤ 4) : (c.addRecord react x).Tidy := by
  unfold addRecord
  refine Tidy.goOn ?_
  by_cases hfull : x.record.length = 4
  · rw [if_pos hfull]
    exact tidy_emptied _
  · rw [if_neg hfull]
    rintro y ⟨⟩
    exact lt_of_le_of_ne hroom hfull

theorem Tidy.hear (h : c.Tidy) (hx : c.current = some x) (frame : MessageBytes) : (c.hear react x frame).Tidy := by
  have hroom := h x hx
  unfold Client.hear addPage
  dsimp only
  split_ifs
  · exact tidy_finish _
  · exact tidy_finish _
  · exact tidy_addRecord react (by rw [List.length_append]; exact hroom)
  · exact tidy_finish _
  · rintro y ⟨⟩
    exact hroom

theorem Tidy.take (h : c.Tidy) (byte : UInt8) : (c.take react byte).Tidy := by
  have htaken : @Tidy capacity { c with
      window := (wire.step c.window byte).1
      discarded := c.discarded + .ofNat (wire.step c.window byte).2.junk.length } := h
  unfold Client.take
  dsimp only
  split
  · unfold receive
    dsimp only
    split
    · exact htaken.dispatch react _
    · next x hx =>
        split_ifs
        · exact htaken.dispatch react _
        · exact htaken.dispatch react _
        · exact htaken.dispatch react _
        · exact htaken.hear react hx _
  · exact htaken.dispatch react _
  · exact htaken.dispatch react _
  · exact htaken
  · exact htaken

theorem Tidy.call (h : c.Tidy) (call : Call) : (c.call react call).Tidy := by
  cases call with
  | poll method fn ctx =>
      change (c.ask false _).Tidy
      unfold ask
      simp only [Bool.false_eq_true, if_false]
      split_ifs
      · exact h
      · exact h
      · exact Tidy.start h
      · exact h
  | feed data =>
      change (data.foldl (Client.take react) c).Tidy
      induction data generalizing c with
      | nil => exact h
      | cons byte rest ih => exact ih (h.take react byte)
  | tick nowMs =>
      change (c.tick react nowMs).Tidy
      unfold Client.tick lapse
      dsimp only
      split
      · next x hx =>
          split_ifs
          · exact tidy_finish _
          · exact tidy_finish _
          · exact tidy_send (h x hx)
          · exact tidy_finish _
          · exact h
      · exact h
  | reset => exact nofun
  | _ => exact h

theorem Tidy.run (h : c.Tidy) (calls : List Call) : (c.run react calls).Tidy := by
  induction calls generalizing c with
  | nil => exact h
  | cons call rest ih => exact ih (h.call react call)

end Client

variable (react : List Obs → Handler → Event → List Reaction) {w : World capacity} {c : Client capacity}

theorem Sim.feed (h : Sim false w c) (htidy : c.Tidy) (data : List UInt8) :
    Sim false (feed (.seeing react) w data) (data.foldl (Client.take react) c) := by
  induction data generalizing w c with
  | nil => exact h
  | cons byte rest ih => exact ih (h.take react htidy byte) (htidy.take react byte)

theorem Sim.call (h : Sim false w c) (htidy : c.Tidy) (call : Call) :
    Sim false (Haidi.call (.seeing react) w call) (c.call react call) := by
  cases call with
  | poll method fn ctx => exact h.enqueue _
  | feed data => exact h.feed react htidy data
  | tick nowMs => exact h.tick react nowMs
  | reset => exact h.reset
  | setTxHandler fn ctx =>
      refine h.setUp (fun bms => { bms with txFn := fn, txCtx := ctx }) (fun setup => { setup with txFn := fn, txCtx := ctx }) rfl ?_ ?_ <;> constructor <;> rfl
  | setEventHandler fn ctx =>
      refine h.setUp (fun bms => { bms with eventFn := fn, eventCtx := ctx }) (fun setup => { setup with eventFn := fn, eventCtx := ctx }) rfl ?_ ?_ <;> constructor <;> rfl
  | setResponseTimeoutMs ms =>
      refine h.setUp (fun bms => { bms with responseTimeoutMs := ms }) (fun setup => { setup with responseTimeoutMs := ms }) rfl ?_ ?_ <;> constructor <;> rfl
  | setInterframeTimeoutMs ms =>
      refine h.setUp (fun bms => { bms with interframeTimeoutMs := ms }) (fun setup => { setup with interframeTimeoutMs := ms }) rfl ?_ ?_ <;> constructor <;> rfl
  | setMaxRetries retries =>
      refine h.setUp (fun bms => { bms with maxRetries := retries }) (fun setup => { setup with maxRetries := retries }) rfl ?_ ?_ <;> constructor <;> rfl

theorem Sim.run (h : Sim false w c) (htidy : c.Tidy) (calls : List Call) :
    Sim false (run (.seeing react) w calls) (c.run react calls) := by
  induction calls generalizing w c with
  | nil => exact h
  | cons call rest ih => exact ih (h.call react htidy call) (htidy.call react call)

theorem sim_new (hostAddress : HostAddress) (bmsAddress : UInt8) :
    Sim false (@World.new capacity hostAddress bmsAddress) (.new hostAddress bmsAddress) where
  setup := rfl
  window := rfl
  discarded := rfl
  dispatching := rfl
  contents := rfl
  state := rfl
  follows := nofun
  trace := rfl

theorem Sim.busy (h : Sim false w c) : w.bms.busy = c.current.isSome := by
  unfold HaidiBMS.busy
  rw [h.state]
  cases c.current <;> rfl

theorem Sim.inFlight (h : Sim false w c) : w.bms.inFlight = c.inFlight := by
  unfold HaidiBMS.inFlight Client.inFlight
  cases hx : c.current with
  | none =>
      rw [h.idle hx, if_neg]
      exact fun hboth => nomatch hboth.1
  | some x =>
      have hpos : 0 < w.bms.queue.count := by
        rw [← RingBuffer.length_contents, h.contents_some hx]
        exact Nat.succ_pos _
      rw [if_pos ⟨h.awaiting hx, hpos⟩, h.head hx]

/-- The session refines the client: whatever calls are made, and whatever the handlers poll or reset on what they have been shown, both make the same callbacks with the same bytes, raise the same events and answer the same requests, in the same order; and they agree on everything a caller can ask in between. -/
theorem run_refines (hostAddress : HostAddress) (bmsAddress : UInt8) (calls : List Call) :
    let w : World capacity := run (.seeing react) (World.new hostAddress bmsAddress) calls
    let c : Client capacity := .run react (.new hostAddress bmsAddress) calls
    seen w.log = c.trace ∧ w.bms.setup = c.toSetup ∧ w.bms.parser.discarded = c.discarded ∧
      w.bms.busy = c.current.isSome ∧ w.bms.pending = c.pending ∧ w.bms.inFlight = c.inFlight ∧
      w.bms.queue.contents = (c.current.map Exchange.request).toList ++ c.waiting := by
  intro w c
  have h : Sim false w c := (sim_new hostAddress bmsAddress).run react nofun calls
  exact ⟨h.trace, h.setup, h.discarded, h.busy, h.count, h.inFlight, h.contents⟩

end Haidi
