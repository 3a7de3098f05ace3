import HaidiBms.Lib.Clock
import HaidiBms.Lib.Pacing
import HaidiBms.Session.Deadline
import HaidiBms.Session.Passive

/-!
# A dead link

Nothing is ever received, and the handlers are passive. Then the session takes its turns at the pace of the response timeout: each request is sent, sent again as often as the limit allows, and given up, at which the next one is sent. `turns` is what is given out at each of them, and the ticks at which they are taken are those of `Pacing.paced`, whatever the ticks are and wherever the clock wraps.
-/

namespace Haidi

open Clock Pacing

variable {capacity : ℕ+}

/-- What sending a request gives out. -/
def Request.sending (hostAddress : HostAddress) (req : Request) : Output := .frame (encode hostAddress req.id req.data)

/-- What giving up on a request gives out. -/
def Request.givingUp (retries : UInt8) (req : Request) : Output := .event { kind := .timeout, id := req.id, retries }

/-- What is left to give out for the requests once the first of them is sent: what it is sent again for, and its outcome, at which the next one is sent. -/
def turns (hostAddress : HostAddress) (retries : UInt8) : List Request → List (List Output)
  | [] => []
  | req :: rest =>
    List.replicate retries.toNat [req.sending hostAddress] ++
      (req.givingUp retries :: (rest.head?.map (·.sending hostAddress)).toList) :: turns hostAddress retries rest

/-- What the session is set to, and that it can send and runs no handler. -/
structure Link (hostAddress : HostAddress) (limit : UInt32) (maxRetries : UInt8) (w : World capacity) : Prop where
  hostAddress : w.bms.hostAddress = hostAddress
  responseTimeoutMs : w.bms.responseTimeoutMs = limit
  maxRetries : w.bms.maxRetries = maxRetries
  wired : w.bms.txFn ≠ none
  quiet : w.bms.dispatching = false

/-- The session's first request was sent at the tick before last, and is not due by the latest. -/
structure Waiting (limit : UInt32) (last now : ℕ) (retries : UInt8) (w : World capacity) : Prop where
  state : w.bms.state = .awaiting
  deadlineMs : w.bms.deadlineMs = UInt32.ofNat last + limit
  retries : w.bms.retries = retries
  retries_le : w.bms.retries ≤ w.bms.maxRetries
  framesSeen : w.bms.framesSeen = 0
  last_le : last ≤ now
  lt_due : now < last + limit.toNat

/-- Where the session stands: what is left in its queue, when the first of it was sent last, and how often again. -/
structure Progress (hostAddress : HostAddress) (limit : UInt32) (maxRetries : UInt8) (last now : ℕ) (retries : UInt8)
    (queue : List Request) (w : World capacity) : Prop where
  link : Link hostAddress limit maxRetries w
  contents : w.bms.queue.contents = queue
  nowMs : w.bms.nowMs = UInt32.ofNat now
  idle : queue = [] → w.bms.state = .idle
  waiting : queue ≠ [] → Waiting limit last now retries w

variable {hostAddress : HostAddress} {limit : UInt32} {maxRetries retries : UInt8} {last now : ℕ} {queue : List Request}
  {w : World capacity}

theorem began_framesSeen (w : World capacity) : (began w).bms.framesSeen = 0 := by
  obtain ⟨_, _, heq⟩ := began_eq w
  rw [heq]

theorem began_maxRetries (w : World capacity) : (began w).bms.maxRetries = w.bms.maxRetries := by
  obtain ⟨_, _, heq⟩ := began_eq w
  rw [heq]

theorem link_began (h : Link hostAddress limit maxRetries w) : Link hostAddress limit maxRetries (began w) :=
  ⟨(began_same w).hostAddress.trans h.hostAddress, (began_sameClock w).responseTimeoutMs.trans h.responseTimeoutMs,
    (began_maxRetries w).trans h.maxRetries, (began_txFn w).trans_ne h.wired, (began_same w).dispatching.trans h.quiet⟩

theorem transmit_progress (h : Link hostAddress limit maxRetries w) {req : Request} {rest : List Request}
    (hqueue : w.bms.queue.contents = req :: rest) (hstate : w.bms.state = .awaiting) (hnow : w.bms.nowMs = UInt32.ofNat now)
    (hretries : w.bms.retries ≤ w.bms.maxRetries) (hframes : w.bms.framesSeen = 0) (hlimit : 0 < limit.toNat) :
    Progress hostAddress limit maxRetries now now w.bms.retries (req :: rest) (transmit w) ∧
      outputs (transmit w).log = outputs w.log ++ [req.sending hostAddress] := by
  obtain ⟨fn, hfn⟩ := Option.ne_none_iff_exists'.mp h.wired
  have hhead : w.bms.head = req := RingBuffer.front_of_contents _ hqueue
  rw [transmit_wired w hfn]
  constructor
  · refine ⟨⟨h.hostAddress, h.responseTimeoutMs, h.maxRetries, h.wired, h.quiet⟩, hqueue, hnow, nofun, fun _ => ?_⟩
    refine ⟨hstate, ?_, rfl, hretries, hframes, le_rfl, by omega⟩
    change w.bms.nowMs + w.bms.responseTimeoutMs = _
    rw [hnow, h.responseTimeoutMs]
  · change outputs (_ :: w.log) = _
    rw [outputs_cons, hhead, h.hostAddress]
    rfl

theorem pump_progress (h : Link hostAddress limit maxRetries w) (hqueue : w.bms.queue.contents = queue)
    (hstate : w.bms.state = .idle) (hnow : w.bms.nowMs = UInt32.ofNat now) (hlimit : 0 < limit.toNat) :
    Progress hostAddress limit maxRetries now now 0 queue (pump w) ∧
      outputs (pump w).log = outputs w.log ++ (queue.head?.map (·.sending hostAddress)).toList := by
  rcases pump_cases w with ⟨heq, hempty⟩ | ⟨-, hcount, heq⟩ <;> rw [heq]
  · obtain rfl : queue = [] := hqueue.symm.trans (w.bms.queue.contents_eq_nil.mpr (hempty hstate))
    exact ⟨⟨h, hqueue, hnow, fun _ => hstate, fun hne => absurd rfl hne⟩, (List.append_nil _).symm⟩
  · rw [w.bms.queue.contents_eq_cons hcount] at hqueue
    subst hqueue
    have hsame := began_same w
    have hlog : outputs (began w).log = outputs w.log := (outputs_cons _ _).trans (List.append_nil _)
    obtain ⟨hprogress, hout⟩ := transmit_progress (link_began h)
      ((congrArg RingBuffer.contents hsame.queue).trans (w.bms.queue.contents_eq_cons hcount)) hsame.state
      ((began_sameClock w).nowMs.trans hnow) (hsame.retries.trans_le UInt8.zero_le) (began_framesSeen w) hlimit
    rw [hsame.retries] at hprogress
    rw [hlog] at hout
    exact ⟨hprogress, hout⟩

/-! ### Ticks -/

/-- Within half a lap the deadline is seen passed at the right time. -/
theorem Waiting.expired_iff (h : Waiting limit last now retries w) (hlimit : limit.toNat < 2 ^ 31) {time : ℕ}
    (htime : now ≤ time) (hnear : time < now + 2 ^ 31) :
    expired (UInt32.ofNat time) w.bms.deadlineMs = true ↔ last + limit.toNat ≤ time := by
  have hlast := h.last_le
  have hdue := h.lt_due
  rw [h.deadlineMs, expired_true_time, due_iff_le (by change -(2 ^ 31) ≤ _; omega) (by change _ < (2 : ℤ) ^ 31; omega)]
  omega

theorem lapse_unheard (env : Env capacity Call) (h : w.bms.framesSeen = 0) :
    lapse env w =
      if w.bms.retries < w.bms.maxRetries then
        transmit ((w.note .retrying).modify fun bms => { bms with retries := bms.retries + 1 })
      else complete (emit env w { kind := .timeout, id := w.bms.head.id, retries := w.bms.retries }) := by
  unfold lapse
  rw [if_neg (fun hseen => by rw [h] at hseen; exact absurd hseen.2.2 (by decide)),
    if_neg (fun hseen => by rw [h] at hseen; exact absurd hseen.2 (by decide))]

/-- The turns of the request in flight, by how often it has been sent again. -/
theorem turns_again {req : Request} {rest : List Request} (h : retries < maxRetries) :
    (turns hostAddress maxRetries (req :: rest)).drop retries.toNat =
      [req.sending hostAddress] :: (turns hostAddress maxRetries (req :: rest)).drop (retries + 1).toNat := by
  have hlt : retries.toNat < maxRetries.toNat := UInt8.lt_iff_toNat_lt.mp h
  have hnext : (retries + 1).toNat = retries.toNat + 1 := by
    have := maxRetries.toNat_lt
    rw [UInt8.toNat_add]
    exact Nat.mod_eq_of_lt (by change _ + 1 < 256; omega)
  have hlength : retries.toNat < (turns hostAddress maxRetries (req :: rest)).length := by
    rw [turns, List.length_append, List.length_replicate]
    omega
  rw [List.drop_eq_getElem_cons hlength, hnext]
  refine congrArg (· :: _) ?_
  simp only [turns]
  rw [List.getElem_append_left (by rwa [List.length_replicate]), List.getElem_replicate]

theorem turns_over (req : Request) (rest : List Request) :
    (turns hostAddress maxRetries (req :: rest)).drop maxRetries.toNat =
      (req.givingUp maxRetries :: (rest.head?.map (·.sending hostAddress)).toList) ::
        turns hostAddress maxRetries rest := by
  rw [turns, List.drop_left' List.length_replicate]

theorem Progress.tick_early (h : Progress hostAddress limit maxRetries last now retries queue w)
    (hlimit : limit.toNat < 2 ^ 31) {time : ℕ} (htime : now ≤ time) (hnear : time < now + 2 ^ 31)
    (hearly : queue = [] ∨ time < last + limit.toNat) :
    Progress hostAddress limit maxRetries last time retries queue (tick .passive w (UInt32.ofNat time)) ∧
      outputs (tick .passive w (UInt32.ofNat time)).log = outputs w.log ++ [] := by
  have hcalm : w.bms.state ≠ .awaiting ∨ !expired (UInt32.ofNat time) w.bms.deadlineMs := by
    by_cases hqueue : queue = []
    · exact Or.inl (by rw [h.idle hqueue]; decide)
    · have hdue := (h.waiting hqueue).expired_iff hlimit htime hnear
      refine Or.inr ((Bool.not_eq_true' _).mpr (Bool.eq_false_iff.mpr fun hexpired => ?_))
      exact absurd (hdue.mp hexpired) (not_le.mpr (hearly.resolve_left hqueue))
  rw [tick_eq, if_pos hcalm]
  refine ⟨⟨⟨h.link.hostAddress, h.link.responseTimeoutMs, h.link.maxRetries, h.link.wired, h.link.quiet⟩, h.contents,
    rfl, h.idle, fun hqueue => ?_⟩, (List.append_nil _).symm⟩
  have hwaiting := h.waiting hqueue
  exact ⟨hwaiting.state, hwaiting.deadlineMs, hwaiting.retries, hwaiting.retries_le, hwaiting.framesSeen,
    hwaiting.last_le.trans htime, hearly.resolve_left hqueue⟩

theorem retry_progress (h : Link hostAddress limit maxRetries w) {req : Request} {rest : List Request}
    (hqueue : w.bms.queue.contents = req :: rest) (hstate : w.bms.state = .awaiting)
    (hnow : w.bms.nowMs = UInt32.ofNat now) (hretries : w.bms.retries < w.bms.maxRetries) (hframes : w.bms.framesSeen = 0)
    (hlimit : 0 < limit.toNat) :
    let w' := transmit ((w.note .retrying).modify fun bms => { bms with retries := bms.retries + 1 })
    Progress hostAddress limit maxRetries now now (w.bms.retries + 1) (req :: rest) w' ∧
      outputs w'.log = outputs w.log ++ [req.sending hostAddress] := by
  have hle : w.bms.retries + 1 ≤ w.bms.maxRetries := by
    have hlt : w.bms.retries.toNat < w.bms.maxRetries.toNat := UInt8.lt_iff_toNat_lt.mp hretries
    have := w.bms.maxRetries.toNat_lt
    rw [UInt8.le_iff_toNat_le, UInt8.toNat_add]
    change (_ + 1) % 256 ≤ _
    omega
  obtain ⟨hprogress, hout⟩ := transmit_progress
    (w := (w.note .retrying).modify fun bms => { bms with retries := bms.retries + 1 })
    ⟨h.hostAddress, h.responseTimeoutMs, h.maxRetries, h.wired, h.quiet⟩ hqueue hstate hnow hle hframes hlimit
  exact ⟨hprogress, hout.trans (congrArg (· ++ _) ((outputs_cons _ _).trans (List.append_nil _)))⟩

theorem complete_progress (h : Link hostAddress limit maxRetries w) {req : Request} {rest : List Request}
    (hqueue : w.bms.queue.contents = req :: rest) (hstate : w.bms.state = .awaiting)
    (hnow : w.bms.nowMs = UInt32.ofNat now) (hlimit : 0 < limit.toNat) :
    Progress hostAddress limit maxRetries now now 0 rest (complete w) ∧
      outputs (complete w).log = outputs w.log ++ (rest.head?.map (·.sending hostAddress)).toList := by
  have hcontents : (retired w).bms.queue.contents = rest := by
    change (ite _ _ _ : RingBuffer Request capacity).contents = rest
    rw [World.note_bms, if_pos hstate, RingBuffer.contents_pop, hqueue, List.tail_cons]
  rw [complete_eq]
  obtain ⟨hprogress, hout⟩ := pump_progress (w := retired w)
    ⟨h.hostAddress, h.responseTimeoutMs, h.maxRetries, h.wired, h.quiet⟩ hcontents rfl hnow hlimit
  exact ⟨hprogress, hout.trans (congrArg (· ++ _) ((outputs_cons _ _).trans (List.append_nil _)))⟩

theorem giveUp_progress (h : Link hostAddress limit maxRetries w) {req : Request} {rest : List Request}
    (hqueue : w.bms.queue.contents = req :: rest) (hstate : w.bms.state = .awaiting)
    (hnow : w.bms.nowMs = UInt32.ofNat now) (hretries : w.bms.retries = maxRetries) (hlimit : 0 < limit.toNat) :
    let w' := complete (emit .passive w { kind := .timeout, id := w.bms.head.id, retries := w.bms.retries })
    Progress hostAddress limit maxRetries now now 0 rest w' ∧
      outputs w'.log =
        outputs w.log ++ req.givingUp maxRetries :: (rest.head?.map (·.sending hostAddress)).toList := by
  have hhead : w.bms.head = req := RingBuffer.front_of_contents _ hqueue
  obtain ⟨hbms, hout⟩ := emit_passive w { kind := .timeout, id := w.bms.head.id, retries := w.bms.retries }
  rw [hhead, hretries] at hbms hout ⊢
  have hlink : Link hostAddress limit maxRetries
      (emit .passive w { kind := .timeout, id := req.id, retries := maxRetries }) := by
    constructor <;> rw [hbms]
    exacts [h.hostAddress, h.responseTimeoutMs, h.maxRetries, h.wired, h.quiet]
  rw [← hbms] at hqueue hstate hnow
  obtain ⟨hprogress, hcompleted⟩ := complete_progress hlink hqueue hstate hnow hlimit
  refine ⟨hprogress, hcompleted.trans ?_⟩
  rw [hout, List.append_assoc]
  rfl

theorem lapse_progress (h : Link hostAddress limit maxRetries w) {req : Request} {rest : List Request}
    (hqueue : w.bms.queue.contents = req :: rest) (hnow : w.bms.nowMs = UInt32.ofNat now) {before : ℕ}
    (hwaiting : Waiting limit last before retries w) (hlimit : 0 < limit.toNat) :
    ∃ turn retries' queue', (turns hostAddress maxRetries (req :: rest)).drop retries.toNat =
        turn :: (turns hostAddress maxRetries queue').drop retries'.toNat ∧
      Progress hostAddress limit maxRetries now now retries' queue' (lapse .passive w) ∧
        outputs (lapse .passive w).log = outputs w.log ++ turn := by
  have hretries := hwaiting.retries
  have hmax := h.maxRetries
  rw [lapse_unheard _ hwaiting.framesSeen]
  by_cases hagain : w.bms.retries < w.bms.maxRetries
  · rw [if_pos hagain, ← hretries]
    exact ⟨_, _, _, turns_again (hmax ▸ hagain),
      retry_progress h hqueue hwaiting.state hnow hagain hwaiting.framesSeen hlimit⟩
  · have hlast : retries = maxRetries := by
      rw [← hretries, ← hmax]
      exact UInt8.le_antisymm hwaiting.retries_le (UInt8.not_lt.mp hagain)
    rw [if_neg hagain, hlast]
    exact ⟨_, 0, rest, turns_over req rest,
      giveUp_progress h hqueue hwaiting.state hnow (hretries.trans hlast) hlimit⟩

theorem Progress.tick_due {req : Request} {rest : List Request}
    (h : Progress hostAddress limit maxRetries last now retries (req :: rest) w) (hpos : 0 < limit.toNat)
    (hlimit : limit.toNat < 2 ^ 31) {time : ℕ} (htime : now ≤ time) (hnear : time < now + 2 ^ 31)
    (hdue : last + limit.toNat ≤ time) :
    ∃ turn retries' queue', (turns hostAddress maxRetries (req :: rest)).drop retries.toNat =
        turn :: (turns hostAddress maxRetries queue').drop retries'.toNat ∧
      Progress hostAddress limit maxRetries time time retries' queue' (tick .passive w (UInt32.ofNat time)) ∧
        outputs (tick .passive w (UInt32.ofNat time)).log = outputs w.log ++ turn := by
  have hwaiting := h.waiting (List.cons_ne_nil _ _)
  have hexpired := (hwaiting.expired_iff hlimit htime hnear).mpr hdue
  have htick : tick .passive w (UInt32.ofNat time) = lapse .passive ((ticked w (UInt32.ofNat time)).note .expired) := by
    rw [tick_eq, if_neg]
    rw [hexpired, hwaiting.state]
    decide
  have hnoted : outputs ((ticked w (UInt32.ofNat time)).note .expired).log = outputs w.log :=
    (outputs_cons _ _).trans (List.append_nil _)
  rw [htick, ← hnoted]
  exact lapse_progress (w := (ticked w (UInt32.ofNat time)).note .expired)
    ⟨h.link.hostAddress, h.link.responseTimeoutMs, h.link.maxRetries, h.link.wired, h.link.quiet⟩ h.contents rfl
    ⟨hwaiting.state, hwaiting.deadlineMs, hwaiting.retries, hwaiting.retries_le, hwaiting.framesSeen, hwaiting.last_le,
      hwaiting.lt_due⟩ hpos

/-- Times that never decrease, from `since` on, each less than half a lap after the one before. -/
def Paced (since : ℕ) : List ℕ → Prop
  | [] => True
  | time :: times => since ≤ time ∧ time < since + 2 ^ 31 ∧ Paced time times

/-- Ticks take the turns at the pace of the timeout. -/
theorem Progress.emitted_ticks (h : Progress hostAddress limit maxRetries last now retries queue w)
    (hpos : 0 < limit.toNat) (hlimit : limit.toNat < 2 ^ 31) {times : List ℕ} (htimes : Paced now times) :
    emitted w (times.map fun time => .tick (UInt32.ofNat time)) =
      paced limit.toNat last ((turns hostAddress maxRetries queue).drop retries.toNat) times := by
  induction times generalizing last now retries queue w with
  | nil => rw [List.map_nil, emitted, paced]
  | cons time times ih =>
      obtain ⟨htime, hnear, hrest⟩ := htimes
      rw [List.map_cons]
      by_cases hearly : queue = [] ∨ time < last + limit.toNat
      · obtain ⟨hprogress, hout⟩ := h.tick_early hlimit htime hnear hearly
        rw [emitted_cons (c := .tick (UInt32.ofNat time)) _ hout, paced_early]
        · exact congrArg (_ :: ·) (ih hprogress hrest)
        · refine hearly.imp_left ?_
          rintro rfl
          exact List.drop_nil
      · rw [not_or, not_lt] at hearly
        obtain ⟨req, rest, rfl⟩ := List.exists_cons_of_ne_nil hearly.1
        obtain ⟨turn, retries', queue', hturns, hprogress, hout⟩ := h.tick_due hpos hlimit htime hnear hearly.2
        rw [emitted_cons (c := .tick (UInt32.ofNat time)) _ hout, hturns, paced_due _ hearly.2]
        exact congrArg (_ :: ·) (ih hprogress hrest)

theorem paced_range {ticks : ℕ → ℕ} (h : ∀ i, ticks i ≤ ticks (i + 1) ∧ ticks (i + 1) < ticks i + 2 ^ 31) (n : ℕ) :
    Paced (ticks 0) ((List.range n).map fun i => ticks (i + 1)) := by
  induction n generalizing ticks with
  | zero => trivial
  | succ n ih =>
      have hrest : Paced (ticks 1) ((List.range n).map fun i => ticks (i + 1 + 1)) := ih fun i => h (i + 1)
      rw [List.range_succ_eq_map, List.map_cons, List.map_map]
      exact ⟨(h 0).1, (h 0).2, hrest⟩

/-! ### Requests -/

/-- What making the requests gives out: the first of them is sent, and the others wait. -/
def opening (hostAddress : HostAddress) : List Request → List (List Output)
  | [] => []
  | req :: rest => [req.sending hostAddress] :: rest.map fun _ => []

theorem enqueue_accepted (h : Link hostAddress limit maxRetries w) {req : Request} (hknown : isKnownDataId req.id = true)
    (room : w.bms.queue.count < capacity) : (enqueue w req).1 = pump (accepted w req room) := by
  unfold enqueue
  rw [if_neg h.wired, if_neg (by rw [hknown]; decide), dif_pos room]
  exact if_neg (by rw [World.modify_bms, World.note_bms]; exact ne_true_of_eq_false h.quiet)

theorem Progress.ask_first (h : Progress hostAddress limit maxRetries last now retries [] w) (hpos : 0 < limit.toNat)
    {req : Request} (hknown : isKnownDataId req.id = true) :
    Progress hostAddress limit maxRetries now now 0 [req] (enqueue w req).1 ∧
      outputs (enqueue w req).1.log = outputs w.log ++ [req.sending hostAddress] := by
  have hcount : w.bms.queue.count = 0 := w.bms.queue.contents_eq_nil.mp h.contents
  have room : w.bms.queue.count < capacity := hcount ▸ capacity.pos
  rw [enqueue_accepted h.link hknown room]
  obtain ⟨hprogress, hout⟩ := pump_progress (w := accepted w req room)
    ⟨h.link.hostAddress, h.link.responseTimeoutMs, h.link.maxRetries, h.link.wired, h.link.quiet⟩
    ((w.bms.queue.contents_push req room).trans (congrArg (· ++ [req]) h.contents)) (h.idle rfl) h.nowMs hpos
  exact ⟨hprogress, hout.trans (congrArg (· ++ _) ((outputs_cons _ _).trans (List.append_nil _)))⟩

theorem Progress.ask_next (h : Progress hostAddress limit maxRetries last now retries queue w) (hqueue : queue ≠ [])
    {req : Request} (hknown : isKnownDataId req.id = true) (hroom : queue.length < capacity) :
    Progress hostAddress limit maxRetries last now retries (queue ++ [req]) (enqueue w req).1 ∧
      outputs (enqueue w req).1.log = outputs w.log ++ [] := by
  have hwaiting := h.waiting hqueue
  have room : w.bms.queue.count < capacity := by rwa [← w.bms.queue.length_contents, h.contents]
  have hbusy : pump (accepted w req room) = accepted w req room :=
    if_pos (Or.inl (ne_of_eq_of_ne hwaiting.state (by decide)))
  rw [enqueue_accepted h.link hknown room, hbusy]
  refine ⟨⟨⟨h.link.hostAddress, h.link.responseTimeoutMs, h.link.maxRetries, h.link.wired, h.link.quiet⟩,
    (w.bms.queue.contents_push req room).trans (congrArg (· ++ [req]) h.contents), h.nowMs, ?_, fun _ => ?_⟩,
    outputs_cons _ _⟩
  · intro hnil
    exact absurd hnil (List.append_ne_nil_of_right_ne_nil _ (List.cons_ne_nil _ _))
  · exact ⟨hwaiting.state, hwaiting.deadlineMs, hwaiting.retries, hwaiting.retries_le, hwaiting.framesSeen,
      hwaiting.last_le, hwaiting.lt_due⟩

theorem Progress.ask_all (h : Progress hostAddress limit maxRetries last now retries queue w) (hqueue : queue ≠ [])
    {asks : List Ask} (hknown : ∀ ask ∈ asks, isKnownDataId ask.request.id = true)
    (hroom : queue.length + asks.length ≤ capacity) :
    Progress hostAddress limit maxRetries last now retries (queue ++ asks.map Ask.request)
        (run .passive w (asks.map Ask.call)) ∧
      emitted w (asks.map Ask.call) = asks.map fun _ => [] := by
  induction asks generalizing w queue with
  | nil => exact ⟨by rwa [List.map_nil, List.append_nil], rfl⟩
  | cons ask asks ih =>
      rw [List.length_cons] at hroom
      obtain ⟨hask, hasks⟩ := List.forall_mem_cons.mp hknown
      obtain ⟨hprogress, hout⟩ := h.ask_next hqueue hask (by omega)
      obtain ⟨hend, hrest⟩ := ih hprogress (List.append_ne_nil_of_left_ne_nil hqueue _) hasks
        (by rw [List.length_append, List.length_singleton]; omega)
      refine ⟨?_, ?_⟩
      · rw [List.append_assoc] at hend
        exact hend
      · rw [List.map_cons, emitted_cons (c := ask.call) _ hout]
        exact congrArg (_ :: ·) hrest

/-- An idle, empty session that can send, with a timeout within half a lap. -/
structure Ready (bms : HaidiBMS capacity) : Prop where
  idle : bms.state = .idle
  empty : bms.queue.count = 0
  wired : bms.txFn ≠ none
  quiet : bms.dispatching = false
  limit_pos : 0 < bms.responseTimeoutMs.toNat
  limit_lt : bms.responseTimeoutMs.toNat < 2 ^ 31

theorem Ready.ask (h : Ready w.bms) (first : ℕ) {asks : List Ask} (hroom : asks.length ≤ capacity)
    (hknown : ∀ ask ∈ asks, isKnownDataId ask.request.id = true) :
    let calls := .tick (UInt32.ofNat first) :: asks.map Ask.call
    Progress w.bms.hostAddress w.bms.responseTimeoutMs w.bms.maxRetries first first 0 (asks.map Ask.request)
        (run .passive w calls) ∧
      emitted w calls = [] :: opening w.bms.hostAddress (asks.map Ask.request) := by
  have hidle : w.bms.state ≠ .awaiting ∨ !expired (UInt32.ofNat first) w.bms.deadlineMs :=
    Or.inl (by rw [h.idle]; decide)
  have htick : call .passive w (.tick (UInt32.ofNat first)) = ticked w (UInt32.ofNat first) :=
    (tick_eq _ _ _).trans (if_pos hidle)
  have hticked : Progress w.bms.hostAddress w.bms.responseTimeoutMs w.bms.maxRetries first first 0 []
      (ticked w (UInt32.ofNat first)) :=
    ⟨⟨rfl, rfl, rfl, h.wired, h.quiet⟩, w.bms.queue.contents_eq_nil.mpr h.empty, rfl, fun _ => h.idle,
      fun hne => absurd rfl hne⟩
  have hout : outputs (call .passive w (.tick (UInt32.ofNat first))).log = outputs w.log ++ [] := by
    rw [htick, List.append_nil]
    rfl
  dsimp only
  rw [emitted_cons _ hout, run, List.foldl_cons, htick]
  cases asks with
  | nil => exact ⟨hticked, rfl⟩
  | cons ask asks =>
      obtain ⟨hask, hasks⟩ := List.forall_mem_cons.mp hknown
      obtain ⟨hprogress, hsent⟩ := hticked.ask_first h.limit_pos hask
      rw [List.length_cons] at hroom
      obtain ⟨hend, hrest⟩ := hprogress.ask_all (List.cons_ne_nil _ _) hasks (by rw [List.length_singleton]; omega)
      refine ⟨hend, congrArg (_ :: ·) ?_⟩
      rw [List.map_cons, List.map_cons, emitted_cons (c := ask.call) _ hsent, opening, List.map_map]
      exact congrArg (_ :: ·) hrest

/-- All that is given out for the requests. -/
theorem turns_total (hostAddress : HostAddress) (maxRetries : UInt8) (requests : List Request) :
    (opening hostAddress requests).flatten ++ (turns hostAddress maxRetries requests).flatten =
      requests.flatMap fun req =>
        List.replicate (maxRetries.toNat + 1) (req.sending hostAddress) ++ [req.givingUp maxRetries] := by
  have hopening : ∀ requests, (opening hostAddress requests).flatten =
      (requests.head?.map (·.sending hostAddress)).toList := by
    rintro (_ | ⟨req, rest⟩)
    · rfl
    · simp [opening]
  rw [hopening]
  induction requests with
  | nil => rfl
  | cons req rest ih =>
      rw [List.flatMap_cons, ← ih, turns, List.flatten_append, List.flatten_replicate_singleton, List.flatten_cons,
        List.replicate_succ]
      simp

/-- A dead link drains the queue on an exact schedule: whatever the true times of the ticks are, the first request is sent when it is made, and each of the turns that are left is taken at the first tick at least the timeout after the one before. Once the ticks have gone on for long enough, each request has been sent as often as the limit allows and reported once. -/
theorem dead_link_drains (w : World capacity) (hready : Ready w.bms) {asks : List Ask} (hroom : asks.length ≤ capacity)
    (hknown : ∀ ask ∈ asks, isKnownDataId ask.request.id = true) {ticks : ℕ → ℕ}
    (hticks : ∀ i, ticks i ≤ ticks (i + 1) ∧ ticks (i + 1) < ticks i + 2 ^ 31) :
    let requests := asks.map Ask.request
    let later : ℕ → List ℕ := fun n => (List.range n).map fun i => ticks (i + 1)
    let given : ℕ → List (List Output) := fun n => emitted w
      (.tick (UInt32.ofNat (ticks 0)) :: asks.map Ask.call ++ (later n).map fun time => .tick (UInt32.ofNat time))
    (∀ n, given n = [] :: opening w.bms.hostAddress requests ++
      paced w.bms.responseTimeoutMs.toNat (ticks 0) (turns w.bms.hostAddress w.bms.maxRetries requests) (later n)) ∧
    ((∀ bound, ∃ i, bound ≤ ticks i) → ∃ enough, ∀ n, enough ≤ n → (given n).flatten =
      requests.flatMap fun req => List.replicate (w.bms.maxRetries.toNat + 1) (req.sending w.bms.hostAddress) ++
        [req.givingUp w.bms.maxRetries]) := by
  intro requests later given
  obtain ⟨hprogress, hopening⟩ := hready.ask (ticks 0) hroom hknown
  have hgiven : ∀ n, given n = [] :: opening w.bms.hostAddress requests ++
      paced w.bms.responseTimeoutMs.toNat (ticks 0) (turns w.bms.hostAddress w.bms.maxRetries requests) (later n) := by
    intro n
    rw [show given n = _ from emitted_append _ _ _, hopening]
    exact congrArg (_ ++ ·) (hprogress.emitted_ticks hready.limit_pos hready.limit_lt (paced_range hticks n))
  refine ⟨hgiven, fun hunbounded => ?_⟩
  have hmono : Monotone ticks := monotone_nat_of_le_succ fun i => (hticks i).1
  obtain ⟨enough, hall⟩ : ∃ enough, ∀ n, enough ≤ n →
      (paced w.bms.responseTimeoutMs.toNat (ticks 0) (turns w.bms.hostAddress w.bms.maxRetries requests)
        ((List.range n).map fun i => ticks (i + 1))).flatten =
          (turns w.bms.hostAddress w.bms.maxRetries requests).flatten := by
    refine paced_all _ (fun i j hij => hmono (Nat.succ_le_succ hij)) fun bound => ?_
    obtain ⟨i, hi⟩ := hunbounded bound
    exact ⟨i, hi.trans (hmono (Nat.le_succ i))⟩
  refine ⟨enough, fun n hn => ?_⟩
  rw [hgiven, List.flatten_append, List.flatten_cons, List.nil_append, hall n hn, turns_total]

/-- Two requests, and a clock that wraps while the first is in flight. -/
theorem dead_link_drains_wrapping :
    let w : World 24 := run .passive (World.new .comp bmsAddress) [.setTxHandler (some 1) 0]
    let asks : List Ask := [⟨.rtc, none, 0⟩, ⟨.boardNumber, none, 0⟩]
    let ticks : ℕ → ℕ := fun i => 0xFFFFFF00 + 100 * i
    ∃ enough, ∀ n, enough ≤ n → (emitted w (.tick (UInt32.ofNat (ticks 0)) :: asks.map Ask.call ++
        ((List.range n).map fun i => ticks (i + 1)).map fun time => .tick (UInt32.ofNat time))).flatten =
      (asks.map Ask.request).flatMap fun req => List.replicate 2 (req.sending .comp) ++ [req.givingUp 1] := by
  intro w asks ticks
  exact (dead_link_drains w ⟨by decide, by decide, by decide, by decide, by decide, by decide⟩ (by decide) (by decide)
    fun i => ⟨by dsimp only [ticks]; omega, by dsimp only [ticks]; omega⟩).2 fun bound => ⟨bound, by dsimp only [ticks]; omega⟩

end Haidi
