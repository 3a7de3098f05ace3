import HaidiBms.Session.Pack

/-!
# A session and its pack understand each other

As long as no deadline passes and each answer is a whole one, what the session raises is what the answers come to, one request after the other in the order in which they were queued, and nothing is ever sent twice. What carries it is where the two stand between any two bytes: between two replies, or within one of which some messages have been heard and the window holds the first bytes of the next.
-/

namespace Haidi

open Batches

variable {capacity : ℕ+}

/-! ### What holds between two calls -/

namespace Client

variable {pack : Pack} {setup : Setup} {c : Client capacity} {x : Exchange} {heard rest : List DataBytes} {n : ℕ}

/-- What a stream has raised before its end; any other reply raises nothing till then. -/
def partly (req : Request) (messages : List DataBytes) : List Event :=
  if (multiframeInfo req.id).streaming then records messages else []

/-- Some messages of a reply have been heard and some are to come. -/
structure Hears (pack : Pack) (known : Setup) (x : Exchange) (heard rest : List DataBytes) : Prop where
  reply : pack.reply known x.request = heard ++ rest
  unfinished : rest ≠ []
  items : x.items = (known.itemsFor x.request).toNat
  remembered : x.heard = (heard.map (encode pack.address x.request.id)).reverse
  record : (multiframeInfo x.request.id).streaming = true → x.record = left 4 [] heard

/-- What was raised before its end belongs to what the reply comes to. -/
theorem Hears.partly_begins {known : Setup} (h : Hears pack known x heard rest) {items : ℕ} :
    partly x.request heard <+: outcome pack x.request items (heard ++ rest) := by
  unfold partly outcome
  split_ifs
  · refine records_grow ?_
    rw [List.dropLast_append_of_ne_nil h.unfinished]
    exact List.prefix_append _ _
  · exact List.nil_prefix
  · exact List.nil_prefix

theorem Hears.bytes_long {known : Setup} (h : Hears pack known x heard rest) :
    msgMaxLen ≤ (pack.bytes x.request.id rest).length := by
  obtain ⟨data, later, rfl⟩ := List.exists_cons_of_ne_nil h.unfinished
  change _ ≤ ((encode pack.address x.request.id data).toList ++ pack.bytes x.request.id later).length
  rw [List.length_append, Vector.length_toList]
  exact Nat.le_add_right _ _

/-- These requests are over, and nothing else was sent or set. -/
structure Done (pack : Pack) (setup : Setup) (done : List Request) (c : Client capacity) : Prop where
  known : c.toSetup = (setup.learned pack done).clocked c.nowMs
  accepted : told Obs.accepted? c.trace = done ++ c.requests
  sent : told Obs.sent? c.trace =
    (done ++ (c.current.map Exchange.request).toList).map fun req => encode setup.hostAddress req.id req.data

/-- After `n` bytes the client is between two replies, or within one. -/
inductive Talks (pack : Pack) (setup : Setup) (c : Client capacity) (n : ℕ) : Prop
  | idle (done : List Request) (h : Done pack setup done c) (current : c.current = none) (waiting : c.waiting = [])
      (window : c.window = []) (raised : told Obs.raised? c.trace = conversation pack setup done)
      (line : n = (pack.spoken c.trace).length)
  | within (done : List Request) (x : Exchange) (heard rest : List DataBytes) (h : Done pack setup done c)
      (current : c.current = some x) (hears : Hears pack (setup.learned pack done) x heard rest)
      (raised : told Obs.raised? c.trace = conversation pack setup done ++ partly x.request heard)
      (line : c.window ++ (pack.spoken c.trace).drop n = pack.bytes x.request.id rest)
      (heard_le : n ≤ (pack.spoken c.trace).length)
      (window : c.window.length < msgMaxLen)

theorem Talks.start {done : List Request} (hwired : setup.txFn ≠ none) (h : Done pack setup done c)
    (hcurrent : c.current = none) (hwindow : c.window = [])
    (hraised : told Obs.raised? c.trace = conversation pack setup done) (hline : n = (pack.spoken c.trace).length)
    (hfluent : Fluent pack setup (done ++ c.waiting)) : Talks pack setup c.start n := by
  have hsetup := h.known
  have hrequests : c.requests = c.waiting := by
    rw [requests, hcurrent]
    rfl
  obtain ⟨hhost, hbms, htx⟩ := learned_keeps pack setup done
  cases hwaiting : c.waiting with
  | nil =>
      have hstart : c.start = c := by
        unfold Client.start
        rw [hcurrent, hwaiting]
      rw [hstart]
      exact .idle done h hcurrent hwaiting hwindow hraised hline
  | cons req later =>
      rw [hwaiting] at hfluent
      have hwhole := (fluent_append hfluent).2.1
      obtain ⟨fn, hfn⟩ := Option.ne_none_iff_exists'.mp hwired
      have hcfn : c.txFn = some fn := by
        rw [congrArg Setup.txFn hsetup]
        exact htx.trans hfn
      have hchost : c.hostAddress = setup.hostAddress := by
        rw [congrArg Setup.hostAddress hsetup]
        exact hhost
      let x : Exchange := {
        request := req
        items := (c.itemsFor req).toNat
        deadlineMs := c.nowMs + c.responseTimeoutMs }
      let frame := encode c.hostAddress req.id req.data
      have hstart : c.start = { c with
          waiting := later, trace := .sent fn c.txCtx frame :: c.trace, current := some x } := by
        unfold Client.start
        rw [hcurrent, hwaiting]
        dsimp only
        unfold Client.send
        dsimp only
        rw [hcfn]
        rfl
      have hspoken : pack.spoken (.sent fn c.txCtx frame :: c.trace) =
          pack.spoken c.trace ++ pack.bytes req.id (pack.reply (setup.learned pack done) req) := by
        rw [← List.singleton_append, Pack.spoken_append]
        change _ ++ (pack.response frame ++ []) = _
        rw [List.append_nil]
        change _ ++ pack.bytes req.id (pack.answers (encode c.hostAddress req.id req.data)) = _
        rw [hchost, Pack.reply, hhost]
      rw [hstart]
      refine .within done x [] (pack.reply (setup.learned pack done) req) ⟨hsetup, ?_, ?_⟩ rfl ?_ ?_ ?_ ?_ ?_
      · change told Obs.accepted? (_ :: c.trace) = done ++ req :: later
        rw [told_cons, h.accepted, hrequests, hwaiting]
        exact List.append_nil _
      · change told Obs.sent? (_ :: c.trace) = (done ++ [req]).map _
        rw [told_cons, h.sent, hcurrent, List.map_append, List.map_append, Option.map_none, Option.toList_none, List.map_nil,
          List.append_nil]
        change _ ++ [encode c.hostAddress req.id req.data] = _
        rw [hchost]
        rfl
      · refine ⟨rfl, hwhole.ne_nil, ?_, rfl, fun _ => rfl⟩
        change (c.itemsFor req).toNat = _
        rw [hsetup]
        rfl
      · change told Obs.raised? (_ :: c.trace) = _
        rw [told_cons, hraised]
        change _ ++ [] = _ ++ if _ then records [] else []
        split_ifs <;> rfl
      · change c.window ++ (pack.spoken (_ :: c.trace)).drop n = _
        rw [hwindow, hspoken, hline, List.drop_left]
        rfl
      · change n ≤ (pack.spoken (_ :: c.trace)).length
        rw [hspoken, List.length_append]
        omega
      · change c.window.length < msgMaxLen
        rw [hwindow]
        decide

theorem dispatch_listening (c : Client capacity) (event : Event) :
    ∃ trace, c.dispatch listening event = { c with trace } ∧ told Obs.accepted? trace = told Obs.accepted? c.trace ∧
      told Obs.sent? trace = told Obs.sent? c.trace ∧ told Obs.raised? trace = told Obs.raised? c.trace ++ [event] := by
  have hinvoke : ∀ (d : Client capacity) (handler : Option Handler), d.invoke listening handler event =
      { d with trace := (handler.map fun handler => .invoked handler event).toList ++ d.trace } := by
    intro d handler
    cases handler <;> rfl
  have hshown : ∀ {α : Type} (what : Obs → Option α) (handler : Option Handler),
      (∀ handler, what (.invoked handler event) = none) →
      told what (handler.map fun handler => Obs.invoked handler event).toList = [] := by
    intro α what handler hnone
    cases handler with
    | none => rfl
    | some handler =>
        change told what [_] = []
        rw [told_cons, hnone]
        rfl
  unfold dispatch
  dsimp only
  rw [hinvoke (c.note (.raised event)), hinvoke]
  refine ⟨_, rfl, ?_, ?_, ?_⟩
  · rw [told_append, told_append, hshown _ _ fun _ => rfl, hshown _ _ fun _ => rfl, List.append_nil, List.append_nil]
    exact (told_cons _ _ _).trans (List.append_nil _)
  · rw [told_append, told_append, hshown _ _ fun _ => rfl, hshown _ _ fun _ => rfl, List.append_nil, List.append_nil]
    exact (told_cons _ _ _).trans (List.append_nil _)
  · rw [told_append, told_append, hshown _ _ fun _ => rfl, hshown _ _ fun _ => rfl, List.append_nil, List.append_nil]
    exact told_cons _ _ _

theorem spoken_congr (pack : Pack) {trace trace' : List Obs} (h : told Obs.sent? trace' = told Obs.sent? trace) :
    pack.spoken trace' = pack.spoken trace := by
  unfold Pack.spoken
  rw [h]

/-- Nothing was asked or sent meanwhile. -/
structure Beside (c c' : Client capacity) : Prop where
  waiting : c'.waiting = c.waiting
  window : c'.window = c.window
  accepted : told Obs.accepted? c'.trace = told Obs.accepted? c.trace
  sent : told Obs.sent? c'.trace = told Obs.sent? c.trace

/-- A message of the reply has come in full, and nothing behind it. -/
structure Arrives (pack : Pack) (setup : Setup) (done : List Request) (c : Client capacity) (n : ℕ) (x : Exchange)
    (heard rest : List DataBytes) (data : DataBytes) : Prop where
  before : Done pack setup done c
  current : c.current = some x
  hears : Hears pack (setup.learned pack done) x heard (data :: rest)
  window : c.window = []
  raised : told Obs.raised? c.trace = conversation pack setup done ++ partly x.request heard
  line : (pack.spoken c.trace).drop n = pack.bytes x.request.id rest
  heard_le : n ≤ (pack.spoken c.trace).length

section Arrives

variable {c' : Client capacity} {y : Exchange} {data : DataBytes} {done : List Request}

theorem Arrives.finish (h : Arrives pack setup done c n x heard [] data) (raised : List Event) (hwired : setup.txFn ≠ none)
    (hfluent : Fluent pack setup (told Obs.accepted? c.trace)) (hbeside : Beside c c')
    (hknown : c'.toSetup = ((setup.learned pack done).after pack x.request).clocked c'.nowMs)
    (hraised : told Obs.raised? c'.trace = told Obs.raised? c.trace ++ raised)
    (hcomes : partly x.request heard ++ raised =
      outcome pack x.request ((setup.learned pack done).itemsFor x.request).toNat (heard ++ [data])) :
    Talks pack setup c'.finish n := by
  have haccepted : told Obs.accepted? c.trace = done ++ [x.request] ++ c'.waiting := by
    rw [h.before.accepted, requests_some h.current, hbeside.waiting, List.append_assoc]
    rfl
  have hline : n = (pack.spoken c.trace).length := le_antisymm h.heard_le (List.drop_eq_nil_iff.mp h.line)
  refine @Talks.start capacity pack setup { c' with current := none } n (done ++ [x.request]) hwired ⟨?_, ?_, ?_⟩ rfl
    ?_ ?_ ?_ ?_
  · rw [learned_concat]
    exact hknown
  · exact hbeside.accepted.trans haccepted
  · refine hbeside.sent.trans ?_
    rw [h.before.sent, h.current, List.append_assoc]
    rfl
  · exact hbeside.window.trans h.window
  · refine hraised.trans ?_
    rw [conversation_append, conversation, conversation, List.append_nil, h.hears.reply, ← hcomes, h.raised, List.append_assoc]
  · rw [hline]
    exact congrArg List.length (spoken_congr pack hbeside.sent).symm
  · rw [← haccepted]
    exact hfluent

theorem Arrives.goOn (h : Arrives pack setup done c n x heard rest data) (hrest : rest ≠ []) (hbeside : Beside c c')
    (hknown : c'.toSetup = c.toSetup) (hy : c'.current = some y) (hrequest : y.request = x.request) (hitems : y.items = x.items)
    (hheard : y.heard = encode pack.address x.request.id data :: x.heard)
    (hrecord : (multiframeInfo x.request.id).streaming = true → y.record = left 4 [] (heard ++ [data]))
    (hraised : told Obs.raised? c'.trace = conversation pack setup done ++ partly x.request (heard ++ [data])) :
    Talks pack setup c' n := by
  have hspoken : pack.spoken c'.trace = pack.spoken c.trace := spoken_congr pack hbeside.sent
  have hdone : Done pack setup done c' := by
    refine ⟨?_, ?_, ?_⟩
    · rw [hknown]
      exact h.before.known
    · rw [hbeside.accepted, h.before.accepted, requests_some h.current, requests_some hy, hrequest, hbeside.waiting]
    · rw [hbeside.sent, h.before.sent, h.current, hy, Option.map_some, Option.map_some, hrequest]
  refine .within done y (heard ++ [data]) rest hdone hy ⟨?_, hrest, ?_, ?_, ?_⟩ ?_ ?_ ?_ ?_
  · rw [hrequest, h.hears.reply, List.append_assoc]
    rfl
  · rw [hitems, h.hears.items, hrequest]
  · rw [hheard, h.hears.remembered, hrequest, List.map_append, List.reverse_append]
    rfl
  · rw [hrequest]
    exact hrecord
  · rw [hrequest]
    exact hraised
  · rw [hbeside.window, h.window, hspoken, hrequest]
    exact h.line
  · rw [hspoken]
    exact h.heard_le
  · rw [hbeside.window, h.window]
    decide

end Arrives

theorem report_congr {x y : Exchange} (hrequest : x.request = y.request) (hitems : x.items = y.items)
    (hheard : x.heard = y.heard) : x.report = y.report := by
  unfold Exchange.report
  rw [hrequest, hitems, hheard]

theorem card_numbers (address : UInt8) (id : DataId) {messages : List DataBytes} (h : (messages.map counter).Nodup) :
    (numbers (messages.map (encode address id)).reverse).card = messages.length := by
  have hcounters : (messages.map (encode address id)).reverse.map
      (fun frame => (getElem (dataOf frame) 0 byte0_lt).toNat) = (messages.map counter).reverse := by
    rw [List.map_reverse, List.map_map]
    refine congrArg List.reverse (List.map_congr_left fun data _ => ?_)
    change (getElem (dataOf (encode address id data)) 0 byte0_lt).toNat = _
    rw [dataOf_encode]
    rfl
  rw [numbers, hcounters, List.toFinset_card_of_nodup (List.nodup_reverse.mpr h), List.length_reverse, List.length_map]

section Hear

variable {data : DataBytes} {done : List Request}

theorem Arrives.whole (h : Arrives pack setup done c n x heard rest data)
    (hfluent : Fluent pack setup (told Obs.accepted? c.trace)) :
    Whole x.request ((setup.learned pack done).itemsFor x.request).toNat (heard ++ data :: rest) := by
  rw [h.before.accepted, requests_some h.current] at hfluent
  rw [← h.hears.reply]
  exact (fluent_append hfluent).2.1

/-- The answer to a command of one frame, which may tell the counts. -/
theorem Arrives.answer (h : Arrives pack setup done c n x heard rest data) (hwired : setup.txFn ≠ none)
    (hfluent : Fluent pack setup (told Obs.accepted? c.trace)) (hmulti : (multiframeInfo x.request.id).multi = false) :
    Talks pack setup (c.hear listening x (encode pack.address x.request.id data)) n := by
  have hstream : (multiframeInfo x.request.id).streaming = false := by
    refine Bool.eq_false_iff.mpr fun hstream => ?_
    rw [(multi_of_streaming hstream).2] at hmulti
    cases hmulti
  have hone := (h.whole hfluent).single hmulti
  rw [List.length_append, List.length_cons] at hone
  obtain rfl : heard = [] := List.length_eq_zero_iff.mp (by omega)
  obtain rfl : rest = [] := List.length_eq_zero_iff.mp (by omega)
  have hlearn : c.toSetup.learn x.request.id data = ((setup.learned pack done).learn x.request.id data).clocked c.nowMs :=
    (congrArg (fun known => known.learn x.request.id data) h.before.known).trans (learn_keeps _ _ _ _).2.2.2
  obtain ⟨trace, hdispatch, haccepted, hsent, hraised⟩ := dispatch_listening
    { c with
      toSetup := c.learn x.request.id data
      current := some { x with heard := encode pack.address x.request.id data :: x.heard } } (answerTo x.request data)
  unfold Client.hear
  dsimp only
  rw [dataOf_encode, hmulti, if_pos (by decide), hdispatch]
  refine h.finish [answerTo x.request data] hwired hfluent ⟨rfl, rfl, haccepted, hsent⟩ ?_ hraised ?_
  · change c.toSetup.learn x.request.id data = (Setup.after _ _ _).clocked (c.toSetup.learn x.request.id data).nowMs
    rw [after_of_reply h.hears.reply, hlearn]
    rfl
  · rw [outcome, partly, if_neg (by rw [hstream]; decide), if_neg (by rw [hstream]; decide), if_neg (by rw [hmulti]; decide)]
    rfl

theorem Arrives.record (h : Arrives pack setup done c n x heard rest data) (hwired : setup.txFn ≠ none)
    (hfluent : Fluent pack setup (told Obs.accepted? c.trace)) (hstream : (multiframeInfo x.request.id).streaming = true) :
    Talks pack setup (c.hear listening x (encode pack.address x.request.id data)) n := by
  have hmulti := (multi_of_streaming hstream).2
  have hpartly : ∀ messages, partly x.request messages = records messages := fun _ => if_pos hstream
  obtain ⟨pages, last, hsplit, hlast, hpages⟩ := (h.whole hfluent).streamed hstream
  unfold Client.hear
  dsimp only
  rw [dataOf_encode, hmulti, hstream, if_neg (by decide), if_pos rfl]
  -- the sentinel is the last message, and only the last
  rcases List.eq_nil_or_concat rest with rfl | ⟨init, final, rfl⟩
  · obtain ⟨rfl, hsame⟩ := List.append_inj' hsplit rfl
    obtain rfl := (List.cons.inj hsame).1
    have hend : getElem data 0 byte0_lt = frameNoEnd := UInt8.toNat_inj.mp hlast
    rw [if_pos hend]
    refine h.finish [] hwired hfluent ⟨rfl, rfl, rfl, rfl⟩ ?_ (List.append_nil _).symm ?_
    · rw [after_multi hmulti]
      exact h.before.known
    · rw [hpartly, outcome, if_pos hstream, List.append_nil, List.dropLast_concat]
  · rw [List.concat_eq_append, ← List.cons_append, ← List.append_assoc] at hsplit
    obtain ⟨rfl, -⟩ := List.append_inj' hsplit rfl
    have hcounter : ¬ getElem data 0 byte0_lt = frameNoEnd := fun heq =>
      hpages data (List.mem_append_right _ List.mem_cons_self) (congrArg UInt8.toNat heq)
    have hrecord := h.hears.record hstream
    have hrest : init.concat final ≠ [] := by
      rw [List.concat_eq_append]
      exact List.append_ne_nil_of_right_ne_nil _ (List.cons_ne_nil _ _)
    rw [if_neg hcounter, addRecord]
    dsimp only
    split_ifs with hfull <;> rw [List.length_append, List.length_singleton, hrecord] at hfull
    · obtain ⟨trace, hdispatch, haccepted, hsent, hraised⟩ := dispatch_listening
        { c with
          current := some { x with heard := encode pack.address x.request.id data :: x.heard, record := x.record ++ [data] } }
        (recordEvent (x.record ++ [data]))
      rw [hdispatch]
      refine h.goOn hrest ⟨rfl, rfl, haccepted, hsent⟩ rfl rfl rfl rfl rfl (fun _ => ?_) ?_
      · rw [left_concat, if_pos hfull]
      · refine hraised.trans ?_
        change told Obs.raised? c.trace ++ _ = _
        rw [h.raised, hpartly, hpartly, records_concat, if_pos hfull, hrecord, List.append_assoc]
    · refine h.goOn hrest ⟨rfl, rfl, rfl, rfl⟩ rfl rfl rfl rfl rfl (fun _ => ?_) ?_
      · rw [left_concat, if_neg hfull, ← hrecord]
      · refine h.raised.trans ?_
        rw [hpartly, hpartly, records_concat, if_neg hfull, List.append_nil]

/-- A page of a paginated reply: the last that was awaited, or another. -/
theorem Arrives.page (h : Arrives pack setup done c n x heard rest data) (hwired : setup.txFn ≠ none)
    (hfluent : Fluent pack setup (told Obs.accepted? c.trace)) (hmulti : (multiframeInfo x.request.id).multi = true)
    (hstream : (multiframeInfo x.request.id).streaming = false) :
    Talks pack setup (c.hear listening x (encode pack.address x.request.id data)) n := by
  have hpartly : ∀ messages, partly x.request messages = [] := fun _ => if_neg (by rw [hstream]; decide)
  obtain ⟨-, hlength, hdistinct, -⟩ := (h.whole hfluent).paged ⟨hmulti, hstream⟩
  let y : Exchange := { x with heard := encode pack.address x.request.id data :: x.heard }
  have hmessages : y.heard = ((heard ++ [data]).map (encode pack.address x.request.id)).reverse := by
    rw [List.map_append, List.reverse_append, ← h.hears.remembered]
    rfl
  have hcard : (numbers y.heard).card = heard.length + 1 := by
    rw [List.append_cons, List.map_append] at hdistinct
    rw [hmessages, card_numbers _ _ (List.nodup_append.mp hdistinct).1, List.length_append, List.length_singleton]
  have hawaited : awaited x.request.id x.items = heard.length + (rest.length + 1) := by
    rw [h.hears.items, ← hlength, List.length_append, List.length_cons]
  have hhear : c.hear listening x (encode pack.address x.request.id data) = c.addPage listening y := by
    unfold Client.hear
    dsimp only
    rw [hmulti, hstream, if_neg (by decide), if_neg (by decide)]
  have hadd : c.addPage listening y =
      if awaited x.request.id x.items ≠ 0 ∧ awaited x.request.id x.items ≤ (numbers y.heard).card then
        Client.finish (Client.dispatch listening { c with current := some y } y.report)
      else c.await y := rfl
  rw [hhear, hadd, hawaited, hcard]
  cases rest with
  | nil =>
      obtain ⟨trace, hdispatch, haccepted, hsent, hraised⟩ := dispatch_listening { c with current := some y } y.report
      rw [if_pos ⟨Nat.succ_ne_zero _, le_rfl⟩, hdispatch]
      refine h.finish [y.report] hwired hfluent ⟨rfl, rfl, haccepted, hsent⟩ ?_ hraised ?_
      · rw [after_multi hmulti]
        exact h.before.known
      · rw [hpartly, outcome, if_neg (by rw [hstream]; decide), if_pos hmulti]
        exact congrArg (fun event => [event]) (report_congr rfl h.hears.items hmessages)
  | cons next later =>
      rw [if_neg (by rw [List.length_cons]; omega)]
      refine h.goOn (List.cons_ne_nil _ _) ⟨rfl, rfl, rfl, rfl⟩ rfl rfl rfl rfl rfl
        (fun htrue => absurd htrue (by rw [hstream]; decide)) ?_
      rw [hpartly]
      exact h.raised.trans (congrArg _ (hpartly heard))

theorem Arrives.talks (h : Arrives pack setup done c n x heard rest data) (hwired : setup.txFn ≠ none)
    (hfluent : Fluent pack setup (told Obs.accepted? c.trace)) :
    Talks pack setup (c.hear listening x (encode pack.address x.request.id data)) n := by
  cases hmulti : (multiframeInfo x.request.id).multi with
  | false => exact h.answer hwired hfluent hmulti
  | true =>
      cases hstream : (multiframeInfo x.request.id).streaming with
      | true => exact h.record hwired hfluent hstream
      | false => exact h.page hwired hfluent hmulti hstream

end Hear

theorem receive_current (react : List Obs → Handler → Event → List Reaction) (hx : c.current = some x) (frame : MessageBytes)
    (haddress : getElem frame msgAddressIndex msgAddressIndex_lt = c.bmsAddress)
    (hid : getElem frame msgDataIdIndex msgDataIdIndex_lt = x.request.id)
    (hcounter : (multiframeInfo x.request.id).paginated → getElem (dataOf frame) 0 byte0_lt ≤ maxFrameIndex) :
    c.receive react frame = c.hear react x frame := by
  unfold receive
  rw [hx]
  dsimp only
  rw [hid, if_neg (not_not.mpr haddress), if_neg (not_not.mpr rfl),
    if_neg fun hboth => absurd (hcounter hboth.1) (UInt8.not_le.mpr hboth.2)]

theorem take_last (react : List Obs → Handler → Event → List Reaction) (c : Client capacity) {frame : MessageBytes}
    {byte : UInt8} (hgenuine : wire.Genuine frame.toList) (hframe : frame.toList = c.window ++ [byte]) :
    c.take react byte = Client.receive react { c with window := [], discarded := c.discarded + .ofNat 0 } frame := by
  have hstep := wire.step_last (hframe ▸ hgenuine)
  unfold Client.take
  rw [hstep, ← hframe]
  dsimp only
  rw [Sim.frameOf_toList]
  rfl

theorem take_inner (react : List Obs → Handler → Event → List Reaction) (c : Client capacity) {frame : MessageBytes}
    {byte : UInt8} {later : List UInt8} (hgenuine : wire.Genuine frame.toList) (hframe : frame.toList = c.window ++ byte :: later)
    (hlater : later ≠ []) :
    c.take react byte = { c with window := c.window ++ [byte], discarded := c.discarded + .ofNat 0 } := by
  have hstep := wire.step_inner (hframe ▸ hgenuine) hlater
  unfold Client.take
  rw [hstep]
  rfl

/-- A byte of a reply comes off the line. -/
theorem Talks.take (hwired : setup.txFn ≠ none) (haddress : setup.bmsAddress = pack.address) (h : Talks pack setup c n)
    (hfluent : Fluent pack setup (told Obs.accepted? c.trace)) {byte : UInt8} {more : List UInt8}
    (hline : (pack.spoken c.trace).drop n = byte :: more) : Talks pack setup (c.take listening byte) (n + 1) := by
  have hless : n < (pack.spoken c.trace).length := by
    refine lt_of_not_ge fun hge => ?_
    rw [List.drop_eq_nil_of_le hge] at hline
    cases hline
  have hmore : (pack.spoken c.trace).drop (n + 1) = more := by
    rw [← List.drop_drop, hline]
    rfl
  cases h with
  | idle done h current waiting window raised line => exact absurd line (Nat.ne_of_lt hless)
  | within done x heard rest h hx hears hraised hbytes hle hwindow =>
      cases rest with
      | nil => exact absurd rfl hears.unfinished
      | cons data later =>
          let frame := encode pack.address x.request.id data
          have hgenuine : wire.Genuine frame.toList := Message.genuine ⟨pack.address, x.request.id, data⟩
          rw [hline] at hbytes
          change _ = frame.toList ++ pack.bytes x.request.id later at hbytes
          have hlength : frame.toList.length = msgMaxLen := hgenuine.length_eq
          -- what the window holds is the beginning of this frame, which the byte goes on with
          rcases List.append_eq_append_iff.mp hbytes with ⟨tail, hframe, hrest⟩ | ⟨tail, hover, -⟩
          · cases tail with
            | nil =>
                rw [List.append_nil] at hframe
                exact absurd hlength (hframe ▸ Nat.ne_of_lt hwindow)
            | cons b tail =>
                obtain ⟨rfl, hbehind⟩ := List.cons.inj hrest
                cases tail with
                | nil =>
                    obtain ⟨-, hbms, -⟩ := learned_keeps pack setup done
                    let cleared : Client capacity := { c with window := [], discarded := c.discarded + .ofNat 0 }
                    have harrives : Arrives pack setup done cleared (n + 1) x heard later data :=
                      ⟨⟨h.known, h.accepted, h.sent⟩, hx, hears, rfl, hraised, hmore.trans hbehind, hless⟩
                    have hreceive := @receive_current capacity cleared x listening hx frame
                      (haddress.symm.trans (hbms.symm.trans (congrArg Setup.bmsAddress h.known).symm)) rfl fun hpaged => by
                        rw [dataOf_encode, UInt8.le_iff_toNat_le]
                        exact ((harrives.whole hfluent).paged hpaged).2.2.2 data (List.mem_append_right _ List.mem_cons_self)
                    rw [take_last listening c hgenuine hframe, hreceive]
                    exact harrives.talks hwired hfluent
                | cons b tail =>
                    have hshort := congrArg List.length hframe
                    rw [hlength, List.length_append, List.length_cons, List.length_cons] at hshort
                    rw [take_inner listening c hgenuine hframe (List.cons_ne_nil b tail)]
                    refine .within done x heard (data :: later) ⟨h.known, h.accepted, h.sent⟩ hx hears hraised ?_ hless ?_
                    · change (c.window ++ [byte]) ++ _ = _
                      rw [hmore, List.append_assoc]
                      exact hbytes
                    · change (c.window ++ [byte]).length < msgMaxLen
                      rw [List.length_append, List.length_singleton]
                      omega
          · rw [hover, List.length_append] at hwindow
            omega

theorem Stays.accepted {c' : Client capacity} (h : Stays c c') : told Obs.accepted? c'.trace = told Obs.accepted? c.trace := by
  obtain ⟨stretch, htrace, hshown⟩ := h.trace
  have hnone : stretch.filterMap Obs.accepted? = [] := by
    refine List.filterMap_eq_nil_iff.mpr fun obs hobs => ?_
    have hshows := hshown obs hobs
    cases obs with
    | answered req status => exact hshows.elim
    | _ => rfl
  rw [htrace, told_append]
  unfold told
  rw [hnone]
  exact List.append_nil _

theorem Stays.past {c' : Client capacity} (h : Stays c c') : c.trace <:+ c'.trace := by
  obtain ⟨stretch, htrace, -⟩ := h.trace
  exact ⟨stretch, htrace.symm⟩

theorem Talks.feed (hwired : setup.txFn ≠ none) (haddress : setup.bmsAddress = pack.address) (h : Talks pack setup c n)
    (hfluent : Fluent pack setup (told Obs.accepted? c.trace)) {data : List UInt8}
    (hline : data <+: (pack.spoken c.trace).drop n) :
    Talks pack setup (data.foldl (Client.take listening) c) (n + data.length) := by
  induction data generalizing c n with
  | nil => exact h
  | cons byte rest ih =>
      obtain ⟨more, hmore⟩ := hline
      have hstays := (Works.take c byte).toStays
      have hnext := ih (h.take hwired haddress hfluent hmore.symm) (hstays.accepted ▸ hfluent) (by
        obtain ⟨stretch, htrace⟩ := hstays.past
        have hless : n + 1 ≤ (pack.spoken c.trace).length := by
          have := congrArg List.length hmore
          rw [List.length_drop, List.length_append, List.length_cons] at this
          omega
        rw [← htrace, Pack.spoken_append, List.drop_append_of_le_length hless, ← List.drop_drop, ← hmore]
        exact ⟨more ++ pack.spoken stretch, (List.append_assoc _ _ _).symm⟩)
      rw [List.length_cons, Nat.add_comm rest.length, ← Nat.add_assoc]
      exact hnext

theorem Talks.tick (h : Talks pack setup c n) {nowMs : UInt32} (hdue : c.due nowMs = false) :
    Talks pack setup (c.tick listening nowMs) n := by
  have htick : c.tick listening nowMs = { c with nowMs } := by
    unfold Client.tick
    dsimp only
    unfold due at hdue
    cases hx : c.current with
    | none => rfl
    | some x =>
        rw [hx, Option.any_some] at hdue
        exact if_neg (by rw [hdue]; decide)
  have hknown : ∀ {done : List Request}, Done pack setup done c → Done pack setup done ({ c with nowMs } : Client capacity) :=
    fun h => ⟨congrArg (fun known => known.clocked nowMs) h.known, h.accepted, h.sent⟩
  rw [htick]
  cases h with
  | idle done h current waiting window raised line => exact .idle done (hknown h) current waiting window raised line
  | within done x heard rest h current hears raised line hle window =>
      exact .within done x heard rest (hknown h) current hears raised line hle window

theorem Talks.refuse (h : Talks pack setup c n) {req : Request} {status : QueueStatus} (hstatus : status ≠ .queued) :
    Talks pack setup (c.note (.answered req status)) n := by
  have hsame : ∀ {α : Type} (what : Obs → Option α), what (.answered req status) = none →
      told what (.answered req status :: c.trace) = told what c.trace := by
    intro α what hnone
    rw [told_cons, hnone]
    exact List.append_nil _
  have haccepted : told Obs.accepted? (.answered req status :: c.trace) = told Obs.accepted? c.trace := by
    refine hsame _ ?_
    cases status with
    | queued => exact absurd rfl hstatus
    | _ => rfl
  have hsent := hsame Obs.sent? rfl
  have hspoken := spoken_congr pack hsent
  have hdone : ∀ {done : List Request}, Done pack setup done c → Done pack setup done (c.note (.answered req status)) :=
    fun h => ⟨h.known, haccepted.trans h.accepted, hsent.trans h.sent⟩
  cases h with
  | idle done h current waiting window raised line =>
      exact .idle done (hdone h) current waiting window ((hsame Obs.raised? rfl).trans raised)
        (line.trans (congrArg List.length hspoken).symm)
  | within done x heard rest h current hears raised line hle window =>
      refine .within done x heard rest (hdone h) current hears ((hsame Obs.raised? rfl).trans raised) ?_ ?_ window
      · exact (congrArg (fun bytes => c.window ++ bytes.drop n) hspoken).trans line
      · exact hle.trans (congrArg List.length hspoken).ge

theorem Talks.ask (hwired : setup.txFn ≠ none) (h : Talks pack setup c n) {req : Request}
    (hfluent : Fluent pack setup (told Obs.accepted? (c.ask false req).trace)) : Talks pack setup (c.ask false req) n := by
  let queued : Client capacity := { c.note (.answered req .queued) with waiting := c.waiting ++ [req] }
  have htold : ∀ {α : Type} (what : Obs → Option α),
      told what queued.trace = told what c.trace ++ (what (.answered req .queued)).toList := fun what => told_cons what _ _
  have haccepted : told Obs.accepted? queued.trace = told Obs.accepted? c.trace ++ [req] := htold _
  have hsent : told Obs.sent? queued.trace = told Obs.sent? c.trace := (htold _).trans (List.append_nil _)
  have hraised : told Obs.raised? queued.trace = told Obs.raised? c.trace := (htold _).trans (List.append_nil _)
  have hspoken := spoken_congr pack hsent
  have hdone : ∀ {done : List Request}, Done pack setup done c → Done pack setup done queued := by
    intro done h
    refine ⟨h.known, ?_, hsent.trans h.sent⟩
    rw [haccepted, h.accepted, List.append_assoc]
    exact congrArg _ (List.append_assoc _ _ _)
  unfold Client.ask at hfluent ⊢
  split_ifs at hfluent ⊢ with htx hunknown hroom hnever
  · exact h.refuse (by decide)
  · exact h.refuse (by decide)
  · cases hnever
  · change Talks pack setup queued.start n
    change Fluent pack setup (told Obs.accepted? queued.start.trace) at hfluent
    cases h with
    | idle done h current waiting window raised line =>
        refine Talks.start hwired (hdone h) current window (hraised.trans raised)
          (line.trans (congrArg List.length hspoken).symm) ?_
        have hstays := (Works.start queued).toStays.accepted
        rw [hstays, haccepted, h.accepted, requests, current, waiting] at hfluent
        change Fluent pack setup (done ++ (c.waiting ++ [req]))
        rw [waiting]
        rw [List.append_assoc] at hfluent
        exact hfluent
    | within done x heard rest h current hears raised line hle window =>
        have hstart : queued.start = queued := by
          unfold Client.start
          rw [show queued.current = some x from current]
        rw [hstart]
        refine .within done x heard rest (hdone h) current hears (hraised.trans raised) ?_ ?_ window
        · exact (congrArg (fun bytes => c.window ++ bytes.drop n) hspoken).trans line
        · exact hle.trans (congrArg List.length hspoken).ge
  · exact h.refuse (by decide)

theorem past_ask (c : Client capacity) (req : Request) : c.trace <:+ (c.ask false req).trace := by
  let queued : Client capacity := { c.note (.answered req .queued) with waiting := c.waiting ++ [req] }
  have hqueued : c.trace <:+ queued.trace := List.suffix_cons _ _
  unfold Client.ask
  split_ifs with htx hunknown hroom hnever
  · exact List.suffix_cons _ _
  · exact List.suffix_cons _ _
  · cases hnever
  · exact hqueued.trans (Works.start queued).toStays.past
  · exact List.suffix_cons _ _

theorem past_move (c : Client capacity) (line : List UInt8) (m : Move) : c.trace <:+ (c.call listening (m.call line)).trace := by
  cases m with
  | poll method fn ctx => exact past_ask c _
  | tick nowMs => exact (Works.tick c nowMs).1.toStays.past
  | deliver n => exact (Works.feed c _).toStays.past

/-- Whatever move is made. -/
theorem Talks.move (hwired : setup.txFn ≠ none) (haddress : setup.bmsAddress = pack.address) (h : Talks pack setup c n)
    (m : Move) (hlate : ∀ nowMs, m = .tick nowMs → c.due nowMs = false)
    (hfluent : Fluent pack setup (told Obs.accepted? (c.call listening (m.call ((pack.spoken c.trace).drop n))).trace)) :
    Talks pack setup (c.call listening (m.call ((pack.spoken c.trace).drop n))) (n + m.taken ((pack.spoken c.trace).drop n)) := by
  cases m with
  | poll method fn ctx => exact h.ask hwired hfluent
  | tick nowMs => exact h.tick (hlate nowMs rfl)
  | deliver k =>
      refine h.feed hwired haddress ?_ (List.take_prefix _ _)
      exact hfluent.earlier (told_past _ (past_move c _ (.deliver k)))

end Client

/-! ### The conversation -/

namespace Ends

variable {pack : Pack} {setup : Setup} {s : Ends capacity} {c : Client capacity}

theorem sim_move (pack : Pack) (h : Sim false s.world c) (htidy : c.Tidy) (m : Move) :
    Sim false (s.move pack m).world (c.call listening (m.call (s.line pack))) ∧
      (c.call listening (m.call (s.line pack))).Tidy :=
  ⟨h.call listening htidy _, htidy.call listening _⟩

theorem past_moves (pack : Pack) (h : Sim false s.world c) (htidy : c.Tidy) (ms : List Move) :
    seen s.world.log <:+ seen (s.moves pack ms).world.log := by
  induction ms generalizing s c with
  | nil => exact List.suffix_rfl
  | cons m rest ih =>
      obtain ⟨hnext, htidy'⟩ := sim_move pack h htidy m
      refine List.IsSuffix.trans ?_ (ih hnext htidy')
      rw [h.trace, hnext.trace]
      exact c.past_move _ m

theorem talks_moves (hwired : setup.txFn ≠ none) (haddress : setup.bmsAddress = pack.address) (h : Sim false s.world c)
    (htidy : c.Tidy) (htalks : Client.Talks pack setup c s.heard) (ms : List Move) (htime : s.inTime pack ms = true)
    (hfluent : Fluent pack setup (told Obs.accepted? (seen (s.moves pack ms).world.log))) :
    ∃ c', Sim false (s.moves pack ms).world c' ∧ Client.Talks pack setup c' (s.moves pack ms).heard := by
  induction ms generalizing s c with
  | nil => exact ⟨c, h, htalks⟩
  | cons m rest ih =>
      obtain ⟨hnow, hlater⟩ := Bool.and_eq_true_iff.mp htime
      obtain ⟨hnext, htidy'⟩ := sim_move pack h htidy m
      have hline : s.line pack = (pack.spoken c.trace).drop s.heard :=
        congrArg (fun trace => (pack.spoken trace).drop s.heard) h.trace
      refine ih hnext htidy' ?_ hlater hfluent
      have haccepted := hfluent.earlier (told_past Obs.accepted? (past_moves pack hnext htidy' rest))
      rw [hnext.trace] at haccepted
      change Client.Talks pack setup _ (s.heard + m.taken (s.line pack))
      rw [hline] at haccepted ⊢
      refine htalks.move hwired haddress m (fun nowMs hm => ?_) haccepted
      subst hm
      rw [← h.overdueAt]
      simpa [Move.late] using hnow

end Ends

/-- A state that a session can be in, idle and between two frames, with a TX handler and set to the pack's address. -/
structure Poised (pack : Pack) (bms : HaidiBMS capacity) : Prop where
  reached : ∃ react hostAddress bmsAddress calls,
    bms = (run (.seeing react) (World.new hostAddress bmsAddress) calls : World capacity).bms
  idle : bms.busy = false
  empty : bms.pending = 0
  aligned : bms.parser.len = 0
  wired : bms.txFn ≠ none
  address : bms.bmsAddress = pack.address

theorem Poised.talks {pack : Pack} {bms : HaidiBMS capacity} (h : Poised pack bms) :
    ∃ c : Client capacity, Sim false ⟨bms, []⟩ c ∧ c.Tidy ∧ Client.Talks pack bms.setup c 0 := by
  obtain ⟨react, hostAddress, bmsAddress, calls, hbms⟩ := h.reached
  have hsim := (@sim_new capacity hostAddress bmsAddress).run react nofun calls
  have htidy := @Client.Tidy.run capacity (.new hostAddress bmsAddress) react nofun calls
  generalize Client.run react (.new hostAddress bmsAddress) calls = c at hsim htidy
  generalize run (.seeing react) (World.new hostAddress bmsAddress) calls = w at hsim hbms
  subst hbms
  let fresh : Client capacity := { c with trace := [] }
  have hfresh : Sim false ⟨w.bms, []⟩ fresh := { hsim with trace := rfl }
  have hcurrent : c.current = none :=
    Option.isNone_iff_eq_none.mp (Option.isSome_eq_false_iff.mp (hsim.busy.symm.trans h.idle))
  have hwaiting : c.waiting = [] := by
    have hpending := hsim.count.symm.trans h.empty
    rw [Client.pending, hcurrent] at hpending
    exact List.length_eq_zero_iff.mp (by simpa using hpending)
  have hwindow : c.window = [] := hsim.window.symm.trans ((FrameParser.held_eq_nil _).mpr h.aligned)
  refine ⟨fresh, hfresh, htidy, .idle [] ⟨?_, ?_, ?_⟩ hcurrent hwaiting hwindow rfl rfl⟩
  · rw [hsim.setup]
    rfl
  · change [] = [] ++ Client.requests fresh
    rw [Client.requests, show fresh.current = none from hcurrent, show fresh.waiting = [] from hwaiting]
    rfl
  · rw [show fresh.current = none from hcurrent]
    rfl

/-- The session and the pack understand each other. From any state that is idle and between two frames, whatever the caller asks for and whenever, in whatever pieces the bytes come, and with every answer a whole one and no deadline passed: the events raised are those that the answers come to, in the order in which the requests were queued; the frames sent are those requests, each once; and once the line is silent all of them have been answered and the session is idle. -/
theorem session_converses (pack : Pack) (bms : HaidiBMS capacity) (hpoised : Poised pack bms) (ms : List Move)
    (htime : Ends.inTime pack ⟨⟨bms, []⟩, 0⟩ ms = true) :
    let after := Ends.moves pack ⟨⟨bms, []⟩, 0⟩ ms
    let trace := seen after.world.log
    let requests := told Obs.accepted? trace
    let frames := requests.map fun req => encode bms.hostAddress req.id req.data
    Fluent pack bms.setup requests →
      told Obs.raised? trace <+: conversation pack bms.setup requests ∧ told Obs.sent? trace <+: frames ∧
        (after.line pack = [] → after.world.bms.busy = false ∧ after.world.bms.pending = 0 ∧
          told Obs.raised? trace = conversation pack bms.setup requests ∧ told Obs.sent? trace = frames) := by
  intro after trace requests frames hfluent
  obtain ⟨c, hsim, htidy, htalks⟩ := hpoised.talks
  obtain ⟨c', hsim', htalks'⟩ :=
    Ends.talks_moves (s := ⟨⟨bms, []⟩, 0⟩) hpoised.wired hpoised.address hsim htidy htalks ms htime hfluent
  have htrace : trace = c'.trace := hsim'.trace
  have hline : after.line pack = (pack.spoken c'.trace).drop after.heard :=
    congrArg (fun trace => (pack.spoken trace).drop after.heard) htrace
  let sendings : List Request → List MessageBytes := List.map fun req => encode bms.hostAddress req.id req.data
  change told Obs.raised? trace <+: conversation pack bms.setup (told Obs.accepted? trace) ∧
    told Obs.sent? trace <+: sendings (told Obs.accepted? trace) ∧
      (after.line pack = [] → after.world.bms.busy = false ∧ after.world.bms.queue.count = 0 ∧
        told Obs.raised? trace = conversation pack bms.setup (told Obs.accepted? trace) ∧
          told Obs.sent? trace = sendings (told Obs.accepted? trace))
  rw [htrace, hsim'.busy, hsim'.count, hline]
  cases htalks' with
  | idle done h current waiting window raised line =>
      have haccepted : told Obs.accepted? c'.trace = done := by
        rw [h.accepted, Client.requests, current, waiting]
        exact List.append_nil _
      have hsent : told Obs.sent? c'.trace = sendings done := by
        rw [h.sent, current]
        exact congrArg sendings (List.append_nil _)
      rw [haccepted, raised, hsent, current, Client.pending, current, waiting]
      exact ⟨List.prefix_rfl, List.prefix_rfl, fun _ => ⟨rfl, rfl, rfl, rfl⟩⟩
  | within done x heard rest h current hears raised line heard_le window =>
      rw [h.accepted, Client.requests_some current]
      refine ⟨?_, ?_, fun hsilent => ?_⟩
      · rw [raised, conversation_append, conversation]
        refine (List.prefix_append_right_inj _).mpr (List.IsPrefix.trans ?_ (List.prefix_append _ _))
        rw [hears.reply]
        exact hears.partly_begins
      · rw [h.sent, current, List.append_cons]
        exact (List.prefix_append _ _).map _
      · -- a window is less than a frame, so something is on the line still
        rw [hsilent, List.append_nil] at line
        exact absurd (congrArg List.length line) (Nat.ne_of_lt (lt_of_lt_of_le window hears.bytes_long))

def firstPage : DataBytes := #v[1, 0x0D, 0x01, 0x0D, 0x02, 0x0D, 0x03, 0]

def secondPage : DataBytes := #v[2, 0x0D, 0x04, 0, 0, 0, 0, 0]

/-- A pack of four cells, which tells so and gives their voltages on two pages, the second first. -/
def fourCells : Pack where
  address := bmsAddress
  answers frame :=
    if getElem frame msgDataIdIndex msgDataIdIndex_lt = DataId.statusInfo then [#v[4, 2, 0, 0, 0, 0, 0, 0]]
    else [secondPage, firstPage]

def newlyWired : HaidiBMS 2 := (run (.seeing listening) (World.new .comp bmsAddress) [.setTxHandler (some 1) 0]).bms

/-- Both are asked for at once, and the bytes come in four pieces. -/
def askCells : List Move :=
  [.poll .statusInfo none 0, .poll (.cellVoltages 0) none 0, .deliver 7, .tick 10, .deliver 20, .deliver 9, .tick 100, .deliver 30]

theorem newlyWired_poised : Poised fourCells newlyWired :=
  ⟨⟨listening, .comp, bmsAddress, [.setTxHandler (some 1) 0], rfl⟩, rfl, rfl, rfl, nofun, rfl⟩

/-- The voltages are read by the count that the reply before them told. -/
theorem session_converses_fourCells :
    (Ends.moves fourCells ⟨⟨newlyWired, []⟩, 0⟩ askCells).world.bms.busy = false ∧
      told Obs.raised? (seen (Ends.moves fourCells ⟨⟨newlyWired, []⟩, 0⟩ askCells).world.log) =
        conversation fourCells newlyWired.setup
          [Poll.statusInfo.toRequest none 0, (Poll.cellVoltages 0).toRequest none 0] := by
  have hasked : told Obs.accepted? (seen (Ends.moves fourCells ⟨⟨newlyWired, []⟩, 0⟩ askCells).world.log) =
      [Poll.statusInfo.toRequest none 0, (Poll.cellVoltages 0).toRequest none 0] := by decide +kernel
  have hpages : fourCells.reply (newlyWired.setup.after fourCells (Poll.statusInfo.toRequest none 0))
      ((Poll.cellVoltages 0).toRequest none 0) = [secondPage, firstPage] := rfl
  have hfluent : Fluent fourCells newlyWired.setup
      [Poll.statusInfo.toRequest none 0, (Poll.cellVoltages 0).toRequest none 0] := by
    refine ⟨⟨fun _ => rfl, fun h => absurd h (by decide), fun h => absurd h (by decide)⟩,
      ⟨fun h => absurd h (by decide), fun _ => ?_, fun h => absurd h (by decide)⟩, trivial⟩
    rw [hpages]
    exact ⟨Nat.succ_pos _, rfl, by decide,
      List.forall_mem_cons.mpr ⟨by decide, List.forall_mem_cons.mpr ⟨by decide, List.forall_mem_nil _⟩⟩⟩
  have htime : Ends.inTime fourCells ⟨⟨newlyWired, []⟩, 0⟩ askCells = true := by decide +kernel
  have hsilent : (Ends.moves fourCells ⟨⟨newlyWired, []⟩, 0⟩ askCells).line fourCells = [] := by decide +kernel
  have hconverses := session_converses fourCells newlyWired newlyWired_poised askCells htime
  dsimp only at hconverses
  have hends := (hconverses ((congrArg (Fluent fourCells newlyWired.setup) hasked).mpr hfluent)).2.2 hsilent
  exact ⟨hends.1, hends.2.2.1.trans (congrArg (conversation fourCells newlyWired.setup) hasked)⟩

end Haidi
