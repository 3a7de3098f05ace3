import HaidiBms.Session.ClientRuns

/-!
# A session left alone works its queue off

Between the requests of its caller a session is only fed and ticked. Where its handlers call nothing either, it answers nothing, sends nothing but the requests it holds, and loses requests from the front of its queue only; and what it can still spend on them, `budget`, never grows and goes down with every tick that finds the deadline passed.
-/

namespace Haidi

variable {capacity : ℕ+}

/-- Handlers that only listen. -/
def listening : List Obs → Handler → Event → List Reaction := fun _ _ _ => []

namespace Client

/-- The request in flight and those behind it. -/
def requests (c : Client capacity) : List Request := (c.current.map Exchange.request).toList ++ c.waiting

/-- How often deadlines can still pass: as often as there are retries left, and once more. -/
def budget (c : Client capacity) : ℕ :=
  (c.current.map fun x => c.maxRetries.toNat - x.retries.toNat + 1).getD 0 + (c.maxRetries.toNat + 1) * c.waiting.length

theorem budget_some {c : Client capacity} {x : Exchange} (hx : c.current = some x) :
    c.budget = c.maxRetries.toNat - x.retries.toNat + 1 + (c.maxRetries.toNat + 1) * c.waiting.length := by
  rw [budget, hx]
  rfl

theorem budget_congr {c c' : Client capacity} (hmax : c'.maxRetries = c.maxRetries) (hwaiting : c'.waiting = c.waiting)
    (hretries : c'.current.map Exchange.retries = c.current.map Exchange.retries) : c'.budget = c.budget := by
  have hworth : ∀ d : Client capacity, d.current.map (fun x => d.maxRetries.toNat - x.retries.toNat + 1) =
      (d.current.map Exchange.retries).map fun retries => d.maxRetries.toNat - retries.toNat + 1 := by
    intro d
    rw [Option.map_map]
    rfl
  unfold budget
  rw [hworth, hworth, hretries, hmax, hwaiting]

/-- The time is past the deadline of a request in flight. -/
def due (c : Client capacity) (nowMs : UInt32) : Bool := c.current.any fun x => expired nowMs x.deadlineMs

/-- The event turns something away, or is of a request that is held. -/
def Concerns (c : Client capacity) (event : Event) : Prop := event.isRejection = true ∨ ∃ req ∈ c.requests, event.id = req.id

/-- What may show of a session that is left alone. -/
def Shows (c : Client capacity) : Obs → Prop
  | .sent fn ctx frame => c.txFn = some fn ∧ c.txCtx = ctx ∧ ∃ req ∈ c.requests, frame = encode c.hostAddress req.id req.data
  | .raised event | .invoked _ event => c.Concerns event
  | _ => False

/-- An event for a command was raised and shown to the session's handler. -/
def Told (c : Client capacity) (id : DataId) (stretch : List Obs) : Prop :=
  ∃ event, event.id = id ∧ .raised event ∈ stretch ∧
    ∀ fn, c.eventFn = some fn → .invoked (.sessionWide fn c.eventCtx) event ∈ stretch

theorem Told.append {c : Client capacity} {id : DataId} {stretch : List Obs} (h : c.Told id stretch) (later past : List Obs) :
    c.Told id (later ++ stretch ++ past) := by
  obtain ⟨event, hid, hraised, hinvoked⟩ := h
  have hmem : ∀ obs ∈ stretch, obs ∈ later ++ stretch ++ past := fun obs hobs =>
    List.mem_append_left _ (List.mem_append_right _ hobs)
  exact ⟨event, hid, hmem _ hraised, fun fn hfn => hmem _ (hinvoked fn hfn)⟩

/-- The second client is what has come of the first, left alone. -/
structure Stays (c c' : Client capacity) : Prop where
  txFn : c'.txFn = c.txFn
  txCtx : c'.txCtx = c.txCtx
  eventFn : c'.eventFn = c.eventFn
  eventCtx : c'.eventCtx = c.eventCtx
  hostAddress : c'.hostAddress = c.hostAddress
  maxRetries : c'.maxRetries = c.maxRetries
  requests : c'.requests <:+ c.requests
  budget : c'.budget ≤ c.budget
  trace : ∃ stretch, c'.trace = stretch ++ c.trace ∧ ∀ obs ∈ stretch, c.Shows obs

/-- Besides, the request that was first in line is there still, or an event has told what became of it; only a stream may end with none. -/
structure Works (c c' : Client capacity) : Prop extends Stays c c' where
  told : ∃ stretch, c'.trace = stretch ++ c.trace ∧ ∀ req rest, c.requests = req :: rest →
    c'.requests = c.requests ∨ req.id = .faultRecords ∨ c.Told req.id stretch

section Left

variable {a b c : Client capacity} {x : Exchange}

theorem requests_some (hx : c.current = some x) : c.requests = x.request :: c.waiting := by
  rw [requests, hx]
  rfl

theorem Stays.shows (h : Stays a b) {obs : Obs} (hobs : b.Shows obs) : a.Shows obs := by
  cases obs with
  | sent fn ctx frame =>
      obtain ⟨hfn, hctx, req, hreq, hframe⟩ := hobs
      refine ⟨h.txFn ▸ hfn, h.txCtx ▸ hctx, req, h.requests.subset hreq, ?_⟩
      rw [hframe, h.hostAddress]
  | raised event => exact hobs.imp_right fun ⟨req, hreq, hid⟩ => ⟨req, h.requests.subset hreq, hid⟩
  | invoked handler event => exact hobs.imp_right fun ⟨req, hreq, hid⟩ => ⟨req, h.requests.subset hreq, hid⟩
  | _ => exact hobs

theorem Stays.trans (hab : Stays a b) (hbc : Stays b c) : Stays a c := by
  refine ⟨hbc.txFn.trans hab.txFn, hbc.txCtx.trans hab.txCtx, hbc.eventFn.trans hab.eventFn, hbc.eventCtx.trans hab.eventCtx,
    hbc.hostAddress.trans hab.hostAddress, hbc.maxRetries.trans hab.maxRetries, hbc.requests.trans hab.requests,
    hbc.budget.trans hab.budget, ?_⟩
  obtain ⟨first, hfirst, hshown⟩ := hab.trace
  obtain ⟨second, hsecond, hshown'⟩ := hbc.trace
  refine ⟨second ++ first, by rw [hsecond, hfirst, List.append_assoc], fun obs hobs => ?_⟩
  rcases List.mem_append.mp hobs with hmem | hmem
  · exact hab.shows (hshown' obs hmem)
  · exact hshown obs hmem

namespace Works

theorem of_stays (h : Stays a b) (hsame : b.requests = a.requests) : Works a b := by
  obtain ⟨stretch, htrace, -⟩ := h.trace
  exact ⟨h, stretch, htrace, fun _ _ _ => Or.inl hsame⟩

/-- What the session does may show; its requests and their retries are as they were. -/
theorem of_same (htx : b.txFn = a.txFn) (hctx : b.txCtx = a.txCtx) (hevent : b.eventFn = a.eventFn)
    (hevctx : b.eventCtx = a.eventCtx) (hhost : b.hostAddress = a.hostAddress)
    (hmax : b.maxRetries = a.maxRetries) (hcurrent : b.current.map Exchange.request = a.current.map Exchange.request)
    (hretries : b.current.map Exchange.retries = a.current.map Exchange.retries) (hwaiting : b.waiting = a.waiting)
    (htrace : ∃ stretch, b.trace = stretch ++ a.trace ∧ ∀ obs ∈ stretch, a.Shows obs) : Works a b := by
  have hsame : b.requests = a.requests := by
    rw [Client.requests, hcurrent, hwaiting]
    rfl
  exact of_stays ⟨htx, hctx, hevent, hevctx, hhost, hmax, hsame ▸ List.suffix_rfl,
    (budget_congr hmax hwaiting hretries).le, htrace⟩ hsame

theorem silent {trace : List Obs} {P : Obs → Prop} : ∃ stretch, trace = stretch ++ trace ∧ ∀ obs ∈ stretch, P obs :=
  ⟨[], rfl, fun _ hobs => absurd hobs List.not_mem_nil⟩

theorem shown {trace : List Obs} {o : Obs} {P : Obs → Prop} (hshown : P o) :
    ∃ stretch, o :: trace = stretch ++ trace ∧ ∀ obs ∈ stretch, P obs := by
  refine ⟨[o], rfl, fun obs hobs => ?_⟩
  rw [List.mem_singleton.mp hobs]
  exact hshown

theorem refl (c : Client capacity) : Works c c := of_same rfl rfl rfl rfl rfl rfl rfl rfl rfl silent

theorem trans (hab : Works a b) (hbc : Works b c) : Works a c := by
  obtain ⟨first, hfirst, htold⟩ := hab.told
  obtain ⟨second, hsecond, htold'⟩ := hbc.told
  refine ⟨hab.toStays.trans hbc.toStays, second ++ first, by rw [hsecond, hfirst, List.append_assoc], fun req rest hhead => ?_⟩
  rcases htold req rest hhead with hsame | hstream | hfirst
  · rcases htold' req rest (hsame.trans hhead) with hsame' | hstream | ⟨event, hid, hraised, hinvoked⟩
    · exact Or.inl (hsame'.trans hsame)
    · exact Or.inr (Or.inl hstream)
    · rw [hab.eventFn, hab.eventCtx] at hinvoked
      exact Or.inr (Or.inr ⟨event, hid, List.mem_append_left _ hraised, fun fn hfn => List.mem_append_left _ (hinvoked fn hfn)⟩)
  · exact Or.inr (Or.inl hstream)
  · have happended := hfirst.append second []
    rw [List.append_nil] at happended
    exact Or.inr (Or.inr happended)

/-- An event and the handlers it is given to only show. -/
theorem dispatch {event : Event} (hevent : c.Concerns event) :
    Works c (c.dispatch listening event) ∧ (c.dispatch listening event).current = c.current ∧
      (c.dispatch listening event).waiting = c.waiting ∧
      ∃ stretch, (c.dispatch listening event).trace = stretch ++ c.trace ∧ c.Told event.id stretch := by
  have hinvoke : ∀ (d : Client capacity) (handler : Option Handler), d.Concerns event →
      Works d (d.invoke listening handler event) ∧ (d.invoke listening handler event).current = d.current ∧
        (d.invoke listening handler event).waiting = d.waiting ∧
        (d.invoke listening handler event).trace = handler.toList.map (Obs.invoked · event) ++ d.trace := by
    intro d handler hconcerns
    cases handler with
    | none => exact ⟨refl d, rfl, rfl, rfl⟩
    | some handler =>
        exact ⟨of_same rfl rfl rfl rfl rfl rfl rfl rfl rfl (shown (o := .invoked handler event) hconcerns), rfl, rfl, rfl⟩
  have hraised : Works c (c.note (.raised event)) :=
    of_same rfl rfl rfl rfl rfl rfl rfl rfl rfl (shown (o := .raised event) hevent)
  unfold Client.dispatch
  dsimp only
  obtain ⟨hown, hcurrent, hwaiting, htrace⟩ := hinvoke (c.note (.raised event)) (c.current.bind fun x => x.request.handler) hevent
  generalize (c.note (.raised event)).invoke listening (c.current.bind fun x => x.request.handler) event = d at hown hcurrent hwaiting htrace ⊢
  have hconcerns : d.Concerns event := by
    have hsame : d.requests = c.requests := by
      rw [Client.requests, hcurrent, hwaiting]
      rfl
    rw [Concerns, hsame]
    exact hevent
  obtain ⟨hwide, hcurrent', hwaiting', htrace'⟩ := hinvoke d (d.eventFn.map fun fn => .sessionWide fn d.eventCtx) hconcerns
  rw [hown.eventFn, hown.eventCtx] at hwide hcurrent' hwaiting' htrace' ⊢
  let own := (c.current.bind fun x => x.request.handler).toList.map (Obs.invoked · event)
  let wide := (c.eventFn.map fun fn => Handler.sessionWide fn c.eventCtx).toList.map (Obs.invoked · event)
  refine ⟨hraised.trans (hown.trans hwide), hcurrent'.trans hcurrent, hwaiting'.trans hwaiting,
    wide ++ own ++ [.raised event], ?_, event, rfl, ?_, fun fn hfn => ?_⟩
  · rw [List.append_assoc, List.append_assoc]
    exact htrace'.trans (congrArg (wide ++ ·) htrace)
  · exact List.mem_append_right _ (List.mem_singleton.mpr rfl)
  · refine List.mem_append_left _ (List.mem_append_left _ ?_)
    change _ ∈ (c.eventFn.map fun fn => Handler.sessionWide fn c.eventCtx).toList.map (Obs.invoked · event)
    rw [hfn]
    exact List.mem_cons_self

/-- The request in flight is sent, again or for the first time. -/
theorem send (c : Client capacity) (x : Exchange) : Works { c with current := some x } (c.send x) := by
  unfold Client.send
  cases htx : c.txFn with
  | none => exact of_same rfl rfl rfl rfl rfl rfl rfl rfl rfl silent
  | some fn =>
      refine of_same rfl rfl rfl rfl rfl rfl rfl rfl rfl (shown (o := .sent fn c.txCtx (encode c.hostAddress x.request.id x.request.data)) ?_)
      exact ⟨htx, rfl, x.request, List.mem_cons_self, rfl⟩

theorem requests_start (c : Client capacity) : c.start.requests = c.requests := by
  unfold Client.start Client.send
  split
  · next req rest hnone hwaiting =>
      cases c.txFn <;>
        · rw [Client.requests, Client.requests, hnone, hwaiting]
          rfl
  · rfl

/-- The next request is taken from those that wait, and nothing has been spent on it. -/
theorem start (c : Client capacity) : Works c c.start := by
  unfold Client.start
  split
  · next req rest hnone hwaiting =>
      let begun : Client capacity := { c with
        waiting := rest
        current := some { request := req, items := (c.itemsFor req).toNat, deadlineMs := 0 } }
      have hsame : begun.requests = c.requests := by
        rw [Client.requests, Client.requests, hnone, hwaiting]
        rfl
      have hbudget : begun.budget ≤ c.budget := by
        rw [Client.budget, Client.budget, hnone, hwaiting, List.length_cons]
        change c.maxRetries.toNat - 0 + 1 + (c.maxRetries.toNat + 1) * rest.length ≤
          0 + (c.maxRetries.toNat + 1) * (rest.length + 1)
        rw [Nat.mul_succ]
        omega
      have hbegun : Works c begun :=
        of_stays ⟨rfl, rfl, rfl, rfl, rfl, rfl, hsame ▸ List.suffix_rfl, hbudget, silent⟩ hsame
      exact hbegun.trans (@send capacity { c with waiting := rest } _)
  · exact refl c

/-- The request in flight is done with, and so is what could be spent on it. -/
theorem finish (hx : c.current = some x) : Stays c c.finish ∧ c.finish.budget < c.budget := by
  let dropped : Client capacity := { c with current := none }
  have hstart : Works dropped c.finish := start dropped
  have hbudget : dropped.budget < c.budget := by
    change 0 + (c.maxRetries.toNat + 1) * c.waiting.length < _
    rw [budget_some hx]
    omega
  have hdropped : Stays c dropped := ⟨rfl, rfl, rfl, rfl, rfl, rfl, List.suffix_append _ _, hbudget.le, silent⟩
  exact ⟨hdropped.trans hstart.toStays, lt_of_le_of_lt hstart.budget hbudget⟩

/-- An event that ends the request in flight. -/
theorem conclude (hx : c.current = some x) {event : Event} (hid : event.id = x.request.id) :
    Works c (c.dispatch listening event).finish ∧ (c.dispatch listening event).finish.budget < c.budget := by
  have hhead := requests_some hx
  have hconcerns : c.Concerns event := Or.inr ⟨x.request, hhead ▸ List.mem_cons_self, hid⟩
  obtain ⟨hdispatch, hcurrent, -, stretch, htrace, htold⟩ := dispatch hconcerns
  obtain ⟨hfinish, hless⟩ := finish (hcurrent.trans hx)
  obtain ⟨later, hlater, -⟩ := hfinish.trace
  refine ⟨⟨hdispatch.toStays.trans hfinish, later ++ stretch, by rw [hlater, htrace, List.append_assoc], ?_⟩,
    hless.trans_le hdispatch.budget⟩
  intro req rest hreq
  rw [hhead] at hreq
  obtain rfl := (List.cons.inj hreq).1
  have happended := htold.append later []
  rw [List.append_nil, hid] at happended
  exact Or.inr (Or.inr happended)

/-- The end of a stream is told by no event of its own. -/
theorem endStream (hx : c.current = some x) (hid : x.request.id = .faultRecords) : Works c c.finish := by
  obtain ⟨hfinish, -⟩ := finish hx
  obtain ⟨stretch, htrace, -⟩ := hfinish.trace
  refine ⟨hfinish, stretch, htrace, fun req rest hreq => ?_⟩
  rw [requests_some hx] at hreq
  rw [← (List.cons.inj hreq).1]
  exact Or.inr (Or.inl hid)

theorem clear (c : Client capacity) : Stays c c.clear :=
  ⟨rfl, rfl, rfl, rfl, rfl, rfl, List.nil_suffix, Nat.zero_le _, silent⟩

/-- The exchange remembers more, and may get another deadline. -/
theorem hold (hx : c.current = some x) {y : Exchange} (hrequest : y.request = x.request) (hretries : y.retries = x.retries) :
    Works c { c with current := some y } :=
  of_same rfl rfl rfl rfl rfl rfl (by rw [hx, Option.map_some, Option.map_some, hrequest])
    (by rw [hx, Option.map_some, Option.map_some, hretries]) rfl silent

theorem await (hx : c.current = some x) {y : Exchange} (hrequest : y.request = x.request) (hretries : y.retries = x.retries) :
    Works c (c.await y) := hold hx hrequest hretries

theorem goOn (c : Client capacity) : Works c c.goOn := by
  unfold Client.goOn
  cases hx : c.current with
  | none => exact start c
  | some x => exact await hx rfl rfl

theorem emptied (c : Client capacity) : Works c c.emptied := by
  refine of_same rfl rfl rfl rfl rfl rfl ?_ ?_ rfl silent <;>
    · unfold Client.emptied
      cases c.current <;> rfl

theorem learn_same (setup : Setup) (id : DataId) (data : DataBytes) :
    (setup.learn id data).txFn = setup.txFn ∧ (setup.learn id data).txCtx = setup.txCtx ∧
      (setup.learn id data).eventFn = setup.eventFn ∧ (setup.learn id data).eventCtx = setup.eventCtx ∧
      (setup.learn id data).hostAddress = setup.hostAddress ∧ (setup.learn id data).maxRetries = setup.maxRetries := by
  unfold Setup.learn
  split_ifs <;> exact ⟨rfl, rfl, rfl, rfl, rfl, rfl⟩

theorem answerTo_id (req : Request) (data : DataBytes) : (answerTo req data).id = req.id := by
  unfold answerTo
  dsimp only
  split_ifs
  · rfl
  · rfl
  · cases decodeSingle req.id data <;> rfl

theorem report_id (x : Exchange) : x.report.id = x.request.id := by
  unfold Exchange.report
  dsimp only
  split <;> rfl

theorem hear (hx : c.current = some x) (frame : MessageBytes) : Works c (c.hear listening x frame) := by
  have hheard : Works c { c with current := some { x with heard := frame :: x.heard } } := hold hx rfl rfl
  have hfiled : Works c
      { c with current := some { x with heard := frame :: x.heard, record := x.record ++ [dataOf frame] } } := hold hx rfl rfl
  have hlearned : Works c { c with
      toSetup := c.learn x.request.id (dataOf frame), current := some { x with heard := frame :: x.heard } } := by
    obtain ⟨htx, hctx, hevent, hevctx, hhost, hmax⟩ := learn_same c.toSetup x.request.id (dataOf frame)
    exact of_same htx hctx hevent hevctx hhost hmax (by rw [hx]; rfl) (by rw [hx]; rfl) rfl silent
  unfold Client.hear addRecord addPage
  dsimp only
  split_ifs with hsingle hstream hend hfull
  · exact hlearned.trans (conclude (x := { x with heard := frame :: x.heard }) rfl (answerTo_id _ _)).1
  · exact endStream hx (multi_of_streaming hstream).1
  · refine hfiled.trans ((dispatch (Or.inr ⟨x.request, List.mem_cons_self, ?_⟩)).1.trans ((emptied _).trans (goOn _)))
    exact (multi_of_streaming hstream).1.symm
  · exact hfiled.trans (goOn _)
  · exact hheard.trans (conclude rfl (report_id _)).1
  · exact await hx rfl rfl

theorem reject (c : Client capacity) {event : Event} (hrejection : event.isRejection = true) :
    Works c (c.dispatch listening event) := (dispatch (Or.inl hrejection)).1

theorem receive (c : Client capacity) (frame : MessageBytes) : Works c (c.receive listening frame) := by
  unfold Client.receive
  dsimp only
  split
  · exact reject c rfl
  · next x hx =>
      split_ifs
      · exact reject c rfl
      · exact reject c rfl
      · exact reject c rfl
      · exact hear hx frame

theorem take (c : Client capacity) (byte : UInt8) : Works c (c.take listening byte) := by
  have hparsed : Works c { c with
      window := (wire.step c.window byte).1
      discarded := c.discarded + .ofNat (wire.step c.window byte).2.junk.length } :=
    of_same rfl rfl rfl rfl rfl rfl rfl rfl rfl silent
  unfold Client.take
  dsimp only
  split
  · exact hparsed.trans (receive _ _)
  · exact hparsed.trans (reject _ rfl)
  · exact hparsed.trans (reject _ rfl)
  · exact hparsed
  · exact hparsed

theorem feed (c : Client capacity) (data : List UInt8) : Works c (data.foldl (Client.take listening) c) := by
  induction data generalizing c with
  | nil => exact refl c
  | cons byte rest ih => exact (take c byte).trans (ih _)

/-- The request in flight is sent once more. -/
theorem retry (hx : c.current = some x) (hretries : x.retries < c.maxRetries) :
    Works c (c.send { x with retries := x.retries + 1 }) ∧ (c.send { x with retries := x.retries + 1 }).budget < c.budget := by
  let again : Client capacity := { c with current := some { x with retries := x.retries + 1 } }
  have hless := UInt8.lt_iff_toNat_lt.mp hretries
  have hnext : (x.retries + 1).toNat = x.retries.toNat + 1 := by
    have := c.maxRetries.toNat_lt
    rw [UInt8.toNat_add, UInt8.toNat_one, Nat.mod_eq_of_lt (by omega)]
  have hbudget : again.budget < c.budget := by
    rw [budget_some hx, @budget_some _ again _ rfl, hnext]
    change c.maxRetries.toNat - (x.retries.toNat + 1) + 1 + (c.maxRetries.toNat + 1) * c.waiting.length < _
    omega
  have hsame : again.requests = c.requests := by
    rw [Client.requests, Client.requests, hx]
    rfl
  have hagain : Works c again :=
    of_stays ⟨rfl, rfl, rfl, rfl, rfl, rfl, hsame ▸ List.suffix_rfl, hbudget.le, silent⟩ hsame
  exact ⟨hagain.trans (send c _), lt_of_le_of_lt (send c _).budget hbudget⟩

theorem lapse (hx : c.current = some x) : Works c (c.lapse listening x) ∧ (c.lapse listening x).budget < c.budget := by
  unfold Client.lapse
  dsimp only
  split_ifs with hpages hframes hretries
  · exact conclude hx (report_id x)
  · exact conclude hx rfl
  · exact retry hx hretries
  · exact conclude hx rfl

/-- A tick that finds the deadline passed uses something up. -/
theorem tick (c : Client capacity) (nowMs : UInt32) : Works c (c.tick listening nowMs) ∧
    (c.due nowMs = true → (c.tick listening nowMs).budget < c.budget) := by
  let ticked : Client capacity := { c with nowMs }
  have hticked : Works c ticked := of_same rfl rfl rfl rfl rfl rfl rfl rfl rfl silent
  unfold Client.tick
  dsimp only
  split
  · next x hx =>
      have hdue : c.due nowMs = expired nowMs x.deadlineMs := by
        rw [due, hx, Option.any_some]
      rw [hdue]
      split_ifs with hpassed
      · obtain ⟨hlapse, hless⟩ := @lapse capacity ticked x hx
        exact ⟨hticked.trans hlapse, fun _ => hless.trans_le hticked.budget⟩
      · exact ⟨hticked, fun h => absurd h hpassed⟩
  · next hnone =>
      refine ⟨hticked, fun hdue => ?_⟩
      rw [due, hnone] at hdue
      cases hdue

end Works

end Left

theorem length_requests (c : Client capacity) : c.requests.length = c.pending := by
  rw [requests, List.length_append, pending]
  cases c.current <;> rfl

theorem budget_le (c : Client capacity) : c.budget ≤ (c.maxRetries.toNat + 1) * c.pending := by
  unfold budget pending
  rw [Nat.mul_add]
  refine Nat.add_le_add_right ?_ _
  cases c.current with
  | none => exact Nat.zero_le _
  | some x =>
      change c.maxRetries.toNat - x.retries.toNat + 1 ≤ (c.maxRetries.toNat + 1) * 1
      omega

theorem idle_of_budget {c : Client capacity} (h : c.budget = 0) : c.requests = [] := by
  unfold budget at h
  unfold requests
  cases hx : c.current with
  | none =>
      rw [hx] at h
      have hzero : (c.maxRetries.toNat + 1) * c.waiting.length = 0 := by simpa using h
      have hnone : c.waiting.length = 0 := (Nat.mul_eq_zero.mp hzero).resolve_left (Nat.succ_ne_zero _)
      rw [List.length_eq_zero_iff.mp hnone]
      rfl
  | some x =>
      rw [hx, Option.map_some, Option.getD_some] at h
      omega

/-! ### Callers that only ask what they may -/

/-- What a caller asks for, and how it has set the session up. -/
structure Manners where
  allowed : Request → Prop
  known : ∀ req, allowed req → isKnownDataId req.id = true
  hostAddress : HostAddress
  maxRetries : UInt8

/-- Every request was queued, every request held is one of the allowed ones, and nothing else was ever sent. -/
structure Serves (manners : Manners) (c : Client capacity) : Prop where
  wired : c.txFn ≠ none
  hostAddress : c.hostAddress = manners.hostAddress
  maxRetries : c.maxRetries = manners.maxRetries
  requests : ∀ req ∈ c.requests, manners.allowed req
  answered : ∀ req status, .answered req status ∈ c.trace → manners.allowed req ∧ status = .queued
  sent : ∀ fn ctx frame, .sent fn ctx frame ∈ c.trace →
    ∃ req, manners.allowed req ∧ frame = encode manners.hostAddress req.id req.data

namespace Serves

variable {manners : Manners} {c c' : Client capacity}

theorem stays (h : Serves manners c) (hstays : Stays c c') : Serves manners c' := by
  obtain ⟨stretch, htrace, hshown⟩ := hstays.trace
  refine ⟨hstays.txFn ▸ h.wired, hstays.hostAddress.trans h.hostAddress, hstays.maxRetries.trans h.maxRetries,
    fun req hreq => h.requests req (hstays.requests.subset hreq), ?_, ?_⟩
  · intro req status hmem
    rw [htrace, List.mem_append] at hmem
    exact hmem.elim (fun hnew => (hshown _ hnew).elim) (h.answered req status)
  · intro fn ctx frame hmem
    rw [htrace, List.mem_append] at hmem
    rcases hmem with hnew | hold
    · obtain ⟨-, -, req, hreq, hframe⟩ := hshown _ hnew
      exact ⟨req, h.requests req hreq, h.hostAddress ▸ hframe⟩
    · exact h.sent fn ctx frame hold

/-- A request for which there is room is queued. -/
theorem ask (h : Serves manners c) {req : Request} (hallowed : manners.allowed req) (hroom : c.pending < capacity) :
    Serves manners (c.ask false req) ∧ (c.ask false req).pending ≤ c.pending + 1 := by
  let queued : Client capacity := { c.note (.answered req .queued) with waiting := c.waiting ++ [req] }
  have hask : c.ask false req = queued.start := by
    unfold Client.ask
    rw [if_neg h.wired, if_neg (by rw [manners.known req hallowed]; decide), if_pos hroom]
    rfl
  have hrequests : queued.requests = c.requests ++ [req] := (List.append_assoc _ _ _).symm
  have hstart := Works.start queued
  have hqueued : Serves manners queued := by
    refine ⟨h.wired, h.hostAddress, h.maxRetries, fun other hother => ?_, fun other status hmem => ?_,
      fun fn ctx frame hmem => ?_⟩
    · rw [hrequests, List.mem_append, List.mem_singleton] at hother
      rcases hother with hother | rfl
      · exact h.requests other hother
      · exact hallowed
    · rcases List.mem_cons.mp hmem with heq | hold
      · cases heq
        exact ⟨hallowed, rfl⟩
      · exact h.answered other status hold
    · rcases List.mem_cons.mp hmem with heq | hold
      · cases heq
      · exact h.sent fn ctx frame hold
  rw [hask]
  refine ⟨hqueued.stays hstart.toStays, ?_⟩
  have hlength := hstart.requests.length_le
  rw [length_requests, hrequests, List.length_append, length_requests] at hlength
  exact hlength

/-- So are several, one after the other. -/
theorem asks (h : Serves manners c) (methods : List Poll) (fn : Option Ptr) (ctx : Ptr)
    (hallowed : ∀ method ∈ methods, manners.allowed (method.toRequest fn ctx)) (hroom : c.pending + methods.length ≤ capacity) :
    Serves manners (c.run listening (methods.map fun method => .poll method fn ctx)) ∧
      (c.run listening (methods.map fun method => .poll method fn ctx)).pending ≤ c.pending + methods.length := by
  induction methods generalizing c with
  | nil => exact ⟨h, le_rfl⟩
  | cons method rest ih =>
      rw [List.length_cons] at hroom ⊢
      obtain ⟨hserves, hpending⟩ := h.ask (hallowed method List.mem_cons_self) (by omega)
      obtain ⟨hserves', hpending'⟩ := ih hserves (fun other hother => hallowed other (List.mem_cons_of_mem _ hother)) (by omega)
      exact ⟨hserves', hpending'.trans (by omega)⟩

end Serves

theorem Works.served (c : Client capacity) (nowMs : UInt32) (data : List UInt8) :
    Works c (c.run listening [.tick nowMs, .feed data]) ∧
      (c.due nowMs = true → (c.run listening [.tick nowMs, .feed data]).budget < c.budget) := by
  obtain ⟨htick, hless⟩ := Works.tick c nowMs
  have hfeed := Works.feed (c.tick listening nowMs) data
  exact ⟨htick.trans hfeed, fun hdue => lt_of_le_of_lt hfeed.budget (hless hdue)⟩

theorem current_of_requests {c : Client capacity} (h : c.requests = []) : c.current = none := by
  unfold requests at h
  cases hx : c.current with
  | none => rfl
  | some x =>
      rw [hx] at h
      cases h

end Client

namespace Sim

variable {w : World capacity} {c : Client capacity}

theorem overdueAt (h : Sim false w c) (nowMs : UInt32) : w.overdueAt nowMs = c.due nowMs := by
  unfold World.overdueAt Client.due
  cases hx : c.current with
  | none =>
      rw [h.idle hx]
      rfl
  | some x =>
      rw [h.awaiting hx, (h.follows x hx).deadlineMs]
      rfl

end Sim

/-! ### What handlers are known by

Two environments whose handlers do the same when they are invoked give the same runs, though what their handlers call may not be of one type.
-/

section Handlers

variable {C C' : Type} {env : Env capacity C} {env' : Env capacity C'}

theorem emit_congr (h : invoke env = invoke env') : emit env = emit env' := by
  funext w event
  unfold emit invokePerRequest invokeSessionWide
  rw [h]

theorem onFrame_congr (h : invoke env = invoke env') : onFrame env = onFrame env' := by
  have hemit := emit_congr h
  have hsingle : handleSingle env = handleSingle env' := by
    funext w id data
    unfold handleSingle
    rw [hemit]
  have hmulti : handleMulti env = handleMulti env' := by
    funext w id data
    unfold handleMulti finishMulti
    rw [hemit]
  have hstream : handleStream env = handleStream env' := by
    funext w id data
    unfold handleStream deliverRecord
    rw [hemit]
  funext w frame
  unfold onFrame
  rw [hemit, hsingle, hmulti, hstream]

theorem call_congr (h : invoke env = invoke env') : call env = call env' := by
  have hemit := emit_congr h
  have hframe := onFrame_congr h
  have hbyte : feedByte env = feedByte env' := by
    funext w byte
    unfold feedByte onSignal onFrameError
    rw [hemit, hframe]
  have hlapse : lapse env = lapse env' := by
    funext w
    unfold lapse finishMulti
    rw [hemit]
  funext w c
  cases c with
  | feed data => exact congrArg (fun step => data.foldl step w) hbyte
  | tick nowMs =>
      change tick env w nowMs = tick env' w nowMs
      rw [tick_eq, tick_eq, hlapse]
  | _ => rfl

theorem run_congr (h : invoke env = invoke env') (w : World capacity) (calls : List Call) : run env w calls = run env' w calls := by
  unfold run
  rw [call_congr h]

/-- Handlers that only listen do so at any depth. -/
theorem run_listening (w : World capacity) (calls : List Call) :
    run (.seeing listening) w calls = run (.nested (fun _ _ _ => []) 0) w calls := by
  have hsame : invoke (.seeing listening) = invoke (@Env.nested capacity (fun _ _ _ => []) 0) := by
    funext w handler event
    rfl
  exact run_congr hsame w calls

end Handlers

end Haidi
