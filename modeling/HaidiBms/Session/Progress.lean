import HaidiBms.Session.BusOrder

/-!
# Nothing holds a session up

Frames, noise, resets and polls may come in any order, but a tick made while the deadline is passed always uses something up: it either spends one of the retries of the request in flight or ends that request. So the number of such ticks is bounded by what has been accepted, and a session that is given nothing more to do is through with its queue after as many of them as it can still spend. The argument is a potential, which every turn runs down or leaves, and every such tick runs down.
-/

namespace Haidi

variable {capacity : ℕ+} {C : Type}

/-- A tick made while the deadline is passed. -/
def Call.isOverdue (w : World capacity) : Call → Bool
  | .tick nowMs => w.overdueAt nowMs
  | _ => false

/-- How many calls of a run are such ticks. -/
def overdue (env : Env capacity C) : World capacity → List Call → ℕ
  | _, [] => 0
  | w, c :: rest => (c.isOverdue w).toNat + overdue env (call env w c) rest

/-- Every entry was made under a retry limit of at most `limit`. -/
def Limited (limit : ℕ) (log : List (Entry capacity)) : Prop := ∀ entry ∈ log, entry.bms.maxRetries.toNat ≤ limit

instance (limit : ℕ) (log : List (Entry capacity)) : Decidable (Limited limit log) :=
  inferInstanceAs (Decidable (∀ entry ∈ log, _))

/-- The retries spent on the request in flight. -/
def HaidiBMS.spent (bms : HaidiBMS capacity) : ℕ := if bms.state = .awaiting then bms.retries.toNat else 0

/-- The overdue ticks that the queue can still use up, less what the accepted requests were worth. -/
def potential (limit : ℕ) (w : World capacity) : ℤ :=
  (limit + 1) * (w.bms.pending - (acceptedRequests w.log).length) - w.bms.spent

/-- The potential less what the end of the request in flight is sure to use up. -/
def reserve (limit : ℕ) (w : World capacity) : ℤ :=
  potential limit w - if w.bms.state = .awaiting then 1 else 0

/-- The request in flight is in the queue, and within its retries. -/
structure Stocked (limit : ℕ) (bms : HaidiBMS capacity) : Prop where
  pending : bms.state = .awaiting → 0 < bms.queue.count
  retries : bms.state = .awaiting → bms.retries.toNat ≤ limit

variable {limit : ℕ} {w : World capacity}

namespace Stocked

theorem idle {bms : HaidiBMS capacity} (h : bms.state = .idle) : Stocked limit bms := by
  constructor <;> intro hstate <;> exact absurd (h.symm.trans hstate) (by decide)

theorem same {bms bms' : HaidiBMS capacity} (h : Stocked limit bms) (hsame : SameBus bms bms') :
    Stocked limit bms' := by
  constructor <;> intro hstate <;> rw [hsame.state] at hstate
  · rw [hsame.queue]
    exact h.pending hstate
  · rw [hsame.retries]
    exact h.retries hstate

/-- While a request is in flight it is worth at least one overdue tick. -/
theorem worth {bms : HaidiBMS capacity} (h : Stocked limit bms) (hstate : bms.state = .awaiting) :
    (bms.spent : ℤ) + 1 ≤ (limit + 1) * bms.pending := by
  have hpending : (1 : ℤ) ≤ bms.pending := by exact_mod_cast h.pending hstate
  have hspent : bms.spent ≤ limit := by
    rw [HaidiBMS.spent, if_pos hstate]
    exact h.retries hstate
  have hlimit : (bms.spent : ℤ) + 1 ≤ (limit + 1) * 1 := by
    rw [mul_one]
    exact_mod_cast Nat.succ_le_succ hspent
  exact hlimit.trans (mul_le_mul_of_nonneg_left hpending (by positivity))

theorem spent_le {bms : HaidiBMS capacity} (h : Stocked limit bms) : (bms.spent : ℤ) ≤ (limit + 1) * bms.pending := by
  by_cases hstate : bms.state = .awaiting
  · linarith [h.worth hstate]
  · rw [HaidiBMS.spent, if_neg hstate]
    positivity

end Stocked

theorem spent_same {bms bms' : HaidiBMS capacity} (h : SameBus bms bms') : bms'.spent = bms.spent := by
  rw [HaidiBMS.spent, HaidiBMS.spent, h.state, h.retries]

theorem spent_idle {bms : HaidiBMS capacity} (h : bms.state = .idle) : bms.spent = 0 := by
  rw [HaidiBMS.spent, h]
  rfl

theorem potential_same {bms : HaidiBMS capacity} (h : SameBus w.bms bms) :
    potential limit ⟨bms, w.log⟩ = potential limit w := by
  simp only [potential, HaidiBMS.pending, spent_same h, h.queue]

/-- Only an accepted request weighs in the log. -/
theorem potential_note (obs : Obs) (hanswered : (⟨w.bms, obs⟩ : Entry capacity).acceptedRequest? = none) :
    potential limit (w.note obs) = potential limit w := by
  have haccepted : acceptedRequests (w.note obs).log = acceptedRequests w.log := by
    rw [acceptedRequests, World.note_log, List.filterMap_cons_none hanswered, acceptedRequests]
  rw [potential, haccepted]
  rfl

/-- A request is worth what its acceptance brings. -/
theorem potential_accepted (req : Request) (room : w.bms.queue.count < capacity) :
    potential limit (accepted w req room) = potential limit w := by
  have haccepted : (acceptedRequests (accepted w req room).log).length = (acceptedRequests w.log).length + 1 := by
    have hcons : acceptedRequests (accepted w req room).log = acceptedRequests w.log ++ [req] := List.reverse_cons
    rw [hcons, List.length_append, List.length_singleton]
  have hpending : (accepted w req room).bms.pending = w.bms.pending + 1 := rfl
  have hspent : (accepted w req room).bms.spent = w.bms.spent := rfl
  rw [potential, haccepted, hpending, hspent, potential]
  push_cast
  ring

/-! ### The actions -/

theorem transmit_spends (h : Stocked limit w.bms) :
    Stocked limit (transmit w).bms ∧ potential limit (transmit w) = potential limit w := by
  refine ⟨h.same (transmit_same w), ?_⟩
  rcases transmit_cases w with ⟨-, heq⟩ | ⟨fn, heq⟩ <;> rw [heq]
  · exact potential_same (by constructor <;> rfl)
  · refine (potential_same (by constructor <;> rfl)).trans (potential_note _ rfl)

/-- A pump gives the next request the bus and spends nothing on it. -/
theorem pump_spends (h : Stocked limit w.bms) :
    Stocked limit (pump w).bms ∧ potential limit (pump w) = potential limit w := by
  rcases pump_cases w with ⟨heq, -⟩ | ⟨hidle, hcount, heq⟩ <;> rw [heq]
  · exact ⟨h, rfl⟩
  · have hsame := began_same w
    have hretries : (began w).bms.retries = 0 := hsame.retries
    have hstocked : Stocked limit (began w).bms := by
      constructor <;> intro _
      · rw [hsame.queue]
        exact hcount
      · rw [hretries]
        exact Nat.zero_le _
    have hspent : (began w).bms.spent = w.bms.spent := by
      rw [spent_idle hidle, HaidiBMS.spent, hretries]
      split_ifs <;> rfl
    have hbegan : potential limit (began w) = potential limit w := by
      have hnote : potential limit (w.note .began) = potential limit w := potential_note .began rfl
      rw [← hnote, potential, potential, hspent, HaidiBMS.pending, hsame.queue]
      rfl
    exact ⟨(transmit_spends hstocked).1, (transmit_spends hstocked).2.trans hbegan⟩

theorem enqueue_spends (h : Stocked limit w.bms) (req : Request) :
    Stocked limit (enqueue w req).1.bms ∧ potential limit (enqueue w req).1 = potential limit w := by
  rcases enqueue_cases w req with ⟨status, hstatus, heq⟩ | ⟨room, -, -, heq⟩ <;> rw [heq]
  · refine ⟨h, potential_note _ ?_⟩
    cases status <;> first | rfl | exact absurd rfl hstatus
  · have haccepted : Stocked limit (accepted w req room).bms := ⟨fun _ => Nat.succ_pos _, h.retries⟩
    dsimp only
    split_ifs
    · exact ⟨haccepted, potential_accepted req room⟩
    · exact ⟨(pump_spends haccepted).1, (pump_spends haccepted).2.trans (potential_accepted req room)⟩

/-- A reset drops what the queue could still use up. -/
theorem reset_spends (h : Stocked limit w.bms) :
    Stocked limit (reset w).bms ∧ potential limit (reset w) ≤ reserve limit w := by
  refine ⟨.idle rfl, ?_⟩
  have hreset : potential limit (reset w) = (limit + 1) * (0 - (acceptedRequests w.log).length) := by
    have haccepted : acceptedRequests (reset w).log = acceptedRequests w.log := rfl
    have hpending : (reset w).bms.pending = 0 := rfl
    have hspent : (reset w).bms.spent = 0 := rfl
    rw [potential, haccepted, hpending, hspent]
    simp
  rw [hreset, reserve, potential]
  by_cases hstate : w.bms.state = .awaiting
  · have hworth := h.worth hstate
    rw [if_pos hstate]
    linarith
  · have hspent : w.bms.spent = 0 := by
      rw [HaidiBMS.spent, if_neg hstate]
    have hqueue : (0 : ℤ) ≤ (limit + 1) * w.bms.pending := by positivity
    rw [if_neg hstate, hspent]
    push_cast
    linarith

theorem reserve_le : reserve limit w ≤ potential limit w := by
  rw [reserve]
  split_ifs <;> omega

theorem retired_pending :
    (retired w).bms.pending = if w.bms.state = .awaiting then w.bms.pending - 1 else w.bms.pending := by
  change (if w.bms.state = .awaiting then w.bms.queue.pop else w.bms.queue).count = _
  split_ifs <;> rfl

/-- Retiring a request uses up at least one overdue tick of what it was worth. -/
theorem complete_spends (h : Stocked limit w.bms) :
    Stocked limit (complete w).bms ∧ potential limit (complete w) ≤ reserve limit w := by
  have hretired : Stocked limit (retired w).bms := .idle rfl
  rw [complete_eq]
  refine ⟨(pump_spends hretired).1, ?_⟩
  rw [(pump_spends hretired).2]
  have hnote : potential limit (w.note .completing) = potential limit w := potential_note .completing rfl
  have hspent : (retired w).bms.spent = 0 := spent_idle rfl
  rw [potential, World.note_bms] at hnote
  rw [potential, hspent, reserve, ← hnote]
  have hlog : (retired w).log = (w.note .completing).log := rfl
  rw [hlog]
  by_cases hstate : w.bms.state = .awaiting
  · have hpending : ((retired w).bms.pending : ℤ) = w.bms.pending - 1 := by
      rw [retired_pending, if_pos hstate]
      exact Nat.cast_pred (h.pending hstate)
    have hretries : (w.bms.spent : ℤ) ≤ limit := by
      rw [HaidiBMS.spent, if_pos hstate]
      exact_mod_cast h.retries hstate
    rw [hpending, if_pos hstate]
    push_cast
    linarith
  · rw [retired_pending, if_neg hstate, if_neg hstate, HaidiBMS.spent, if_neg hstate, sub_zero]

/-! ### The turns -/

/-- The way from one world to another runs the potential down, or leaves it. -/
def RunsDown (limit : ℕ) (w w' : World capacity) : Prop :=
  w.log <:+ w'.log ∧
    (Limited limit w'.log → Stocked limit w.bms → Stocked limit w'.bms ∧ potential limit w' ≤ potential limit w)

theorem RunsDown.quiet (f : HaidiBMS capacity → HaidiBMS capacity)
    (hsame : SameBus w.bms (f w.bms) := by constructor <;> rfl) : RunsDown limit w (w.modify f) :=
  ⟨List.suffix_rfl, fun _ h => ⟨h.same hsame, (potential_same hsame).le⟩⟩

theorem RunsDown.trans {a b c : World capacity} (hab : RunsDown limit a b) (hbc : RunsDown limit b c) :
    RunsDown limit a c := by
  refine ⟨hab.1.trans hbc.1, fun hlimited h => ?_⟩
  obtain ⟨hb, hab'⟩ := hab.2 (fun entry hentry => hlimited entry (hbc.1.subset hentry)) h
  obtain ⟨hc, hbc'⟩ := hbc.2 hlimited hb
  exact ⟨hc, hbc'.trans hab'⟩

theorem RunsDown.note (obs : Obs) (hanswered : (⟨w.bms, obs⟩ : Entry capacity).acceptedRequest? = none) :
    RunsDown limit w (w.note obs) := ⟨List.suffix_cons _ _, fun _ h => ⟨h, (potential_note obs hanswered).le⟩⟩

variable (react : World capacity → Handler → Event → List Reaction)

/-- What holds inside a dispatch that began at `w`: no request has been given the bus, and what has been taken off the queue was taken by a reset. -/
structure Dispatched (limit : ℕ) (w v : World capacity) : Prop where
  dispatching : v.bms.dispatching = true
  stocked : Stocked limit v.bms
  state : v.bms.state = .awaiting → w.bms.state = .awaiting
  reserve : reserve limit v ≤ reserve limit w

theorem Dispatched.note {v : World capacity} (h : Dispatched limit w v) (obs : Obs)
    (hanswered : (⟨v.bms, obs⟩ : Entry capacity).acceptedRequest? = none) :
    Dispatched limit w (v.note obs) := by
  refine ⟨h.dispatching, h.stocked, h.state, le_of_eq_of_le ?_ h.reserve⟩
  rw [Haidi.reserve, potential_note obs hanswered]
  rfl

theorem Dispatched.perform {v : World capacity} (h : Dispatched limit w v) (reaction : Reaction) :
    Dispatched limit w ((Env.polling react).perform v reaction) := by
  cases reaction with
  | poll method fn ctx =>
      obtain ⟨hstocked, hpotential⟩ := enqueue_spends h.stocked (method.toRequest fn ctx)
      have hkept : (enqueue v (method.toRequest fn ctx)).1.bms.dispatching = v.bms.dispatching ∧
          (enqueue v (method.toRequest fn ctx)).1.bms.state = v.bms.state := by
        rcases enqueue_cases v (method.toRequest fn ctx) with ⟨status, -, heq⟩ | ⟨room, -, -, heq⟩ <;> rw [heq]
        · exact ⟨rfl, rfl⟩
        · rw [if_pos h.dispatching]
          exact ⟨rfl, rfl⟩
      refine ⟨hkept.1.trans h.dispatching, hstocked, fun hstate => h.state (hkept.2.symm.trans hstate), ?_⟩
      have hsame : Haidi.reserve limit (enqueue v (method.toRequest fn ctx)).1 = Haidi.reserve limit v := by
        rw [Haidi.reserve, Haidi.reserve, hkept.2, hpotential]
      exact hsame.trans_le h.reserve
  | reset =>
      obtain ⟨hstocked, hpotential⟩ := reset_spends h.stocked
      exact ⟨h.dispatching, hstocked, fun hstate => (nomatch hstate), reserve_le.trans (hpotential.trans h.reserve)⟩

/-- A dispatch uses nothing up but what its handlers reset. -/
theorem emit_spends (event : Event) (h : Stocked limit w.bms) :
    Stocked limit (emit (.polling react) w event).bms ∧
      ((emit (.polling react) w event).bms.state = .awaiting → w.bms.state = .awaiting) ∧
      reserve limit (emit (.polling react) w event) ≤ reserve limit w := by
  have hopened : Dispatched limit w (opened w event) := by
    refine ⟨rfl, ⟨h.pending, h.retries⟩, id, le_of_eq ?_⟩
    have hnote : potential limit (w.note (.raised event)) = potential limit w := potential_note _ rfl
    rw [reserve, reserve, ← hnote]
    rfl
  obtain ⟨v, hv, hemit⟩ := emit_rule (.polling react) w event hopened (fun _ _ hv => hv.note _ rfl)
    (fun _ reaction hv => hv.perform react reaction) (fun _ hv => hv.note .returned rfl)
  rw [hemit]
  have hsettled : potential limit (v.note .settled) = potential limit v := potential_note _ rfl
  rcases hv with ⟨-, hstocked, hstate, hreserve⟩
  rw [reserve, ← hsettled] at hreserve
  cases w.bms.dispatching with
  | true => exact ⟨hstocked, hstate, hreserve⟩
  | false => exact ⟨⟨hstocked.pending, hstocked.retries⟩, hstate, hreserve⟩

/-- A dispatch that ends nothing leaves the potential or runs it down. -/
theorem emit_runsDown (event : Event) : RunsDown limit w (emit (.polling react) w event) := by
  refine ⟨emit_past _ (polling_past react) w event, fun _ h => ?_⟩
  obtain ⟨hstocked, hstate, hreserve⟩ := emit_spends react event h
  refine ⟨hstocked, ?_⟩
  rw [reserve, reserve] at hreserve
  split_ifs at hreserve with hafter hbefore
  · omega
  · exact absurd (hstate hafter) hbefore
  · omega
  · omega

theorem complete_runsDown : RunsDown limit w (complete w) :=
  ⟨complete_past w, fun _ h => ⟨(complete_spends h).1, (complete_spends h).2.trans reserve_le⟩⟩

theorem pump_runsDown : RunsDown limit w (pump w) :=
  ⟨pump_past w, fun _ h => ⟨(pump_spends h).1, (pump_spends h).2.le⟩⟩

theorem deliver_runsDown (id : DataId) : RunsDown limit w (resume (deliverRecord (.polling react) w id)) := by
  have hdelivered : RunsDown limit w (deliverRecord (.polling react) w id) := by
    rcases deliverRecord_cases (.polling react) w id with ⟨record, heq⟩ | heq <;> rw [heq]
    · exact (emit_runsDown react _).trans (.quiet _)
    · exact .quiet _
  refine hdelivered.trans ?_
  rcases resume_cases (deliverRecord (.polling react) w id) with ⟨-, heq⟩ | ⟨-, heq⟩ <;> rw [heq]
  · exact (RunsDown.note .abandoned rfl).trans pump_runsDown
  · exact .quiet _

/-- A request that ends uses up what is left of it. -/
theorem finish_spends (event : Event) (h : Stocked limit w.bms) :
    Stocked limit (complete (emit (.polling react) w event)).bms ∧
      potential limit (complete (emit (.polling react) w event)) ≤ reserve limit w := by
  obtain ⟨hstocked, -, hreserve⟩ := emit_spends react event h
  exact ⟨(complete_spends hstocked).1, (complete_spends hstocked).2.trans hreserve⟩

/-- The session about to send its request once more. -/
def retried (w : World capacity) : World capacity :=
  (w.note .retrying).modify fun bms => { bms with retries := bms.retries + 1 }

theorem retried_spent (hstate : w.bms.state = .awaiting) (hretries : w.bms.retries < w.bms.maxRetries) :
    (retried w).bms.spent = w.bms.spent + 1 ∧ (retried w).bms.retries.toNat ≤ w.bms.maxRetries.toNat := by
  have hless := UInt8.lt_iff_toNat_lt.mp hretries
  have hnext : (w.bms.retries + 1).toNat = w.bms.retries.toNat + 1 := by
    have := w.bms.maxRetries.toNat_lt
    rw [UInt8.toNat_add, UInt8.toNat_one, Nat.mod_eq_of_lt (by omega)]
  have hstate' : (retried w).bms.state = .awaiting := hstate
  rw [HaidiBMS.spent, HaidiBMS.spent, if_pos hstate, if_pos hstate']
  exact ⟨hnext, hnext.trans_le hless⟩

/-- And a retry uses up one of those left. -/
theorem retry_spends (hstate : w.bms.state = .awaiting) (hretries : w.bms.retries < w.bms.maxRetries)
    (hlimited : Limited limit (transmit (retried w)).log) (h : Stocked limit w.bms) :
    Stocked limit (transmit (retried w)).bms ∧ potential limit (transmit (retried w)) + 1 ≤ potential limit w := by
  obtain ⟨hspent, hwithin⟩ := retried_spent hstate hretries
  have hmax : w.bms.maxRetries.toNat ≤ limit :=
    hlimited ⟨w.bms, .retrying⟩ ((transmit_past (retried w)).subset List.mem_cons_self)
  have hstocked : Stocked limit (retried w).bms := ⟨h.pending, fun _ => hwithin.trans hmax⟩
  refine ⟨(transmit_spends hstocked).1, le_of_eq ?_⟩
  have hnote : potential limit (w.note .retrying) = potential limit w := potential_note .retrying rfl
  have hpotential : potential limit (retried w) = potential limit (w.note .retrying) - 1 := by
    rw [potential, hspent, potential]
    push_cast
    change _ = _ - (w.bms.spent : ℤ) - 1
    rw [sub_sub]
    rfl
  rw [(transmit_spends hstocked).2, hpotential, hnote, sub_add_cancel]

theorem retry_runsDown (hstate : w.bms.state = .awaiting) (hretries : w.bms.retries < w.bms.maxRetries) :
    RunsDown limit w (transmit (retried w)) := by
  refine ⟨List.IsSuffix.trans (List.suffix_cons _ _) (transmit_past (retried w)), fun hlimited h => ?_⟩
  obtain ⟨hstocked, hspends⟩ := retry_spends hstate hretries hlimited h
  exact ⟨hstocked, (Int.le_add_of_nonneg_right Int.one_nonneg).trans hspends⟩

theorem runsDown_turns : Turns (.polling react) (@RunsDown capacity limit) where
  refl := fun _ => ⟨List.suffix_rfl, fun _ h => ⟨h, le_rfl⟩⟩
  trans := RunsDown.trans
  parse := fun _ _ => .quiet _
  reject := fun _ event _ => emit_runsDown react event
  answer := by
    intro w event _ _ _
    have hcounts : RunsDown limit w (w.modify fun bms => noteCounts bms bms.head.id (dataOf bms.parser.buf)) :=
      .quiet _ (noteCounts_same _ _ _)
    exact hcounts.trans ((RunsDown.note .accepted rfl).trans ((emit_runsDown react event).trans complete_runsDown))
  gather := by
    intro w _ _ _ _ _
    have hgathered : RunsDown limit w (gathered w) :=
      (RunsDown.note .accepted rfl).trans (.quiet _ (collect_same _ _ _))
    exact hgathered.trans (.quiet _)
  conclude := by
    intro w event _ _ _ _ _ _
    have hgathered : RunsDown limit w (gathered w) :=
      (RunsDown.note .accepted rfl).trans (.quiet _ (collect_same _ _ _))
    exact hgathered.trans ((emit_runsDown react event).trans complete_runsDown)
  file := fun w data _ _ _ =>
    (RunsDown.note .accepted rfl).trans ((RunsDown.quiet _ (fileStream_same _ data)).trans (.quiet _))
  deliver := fun w data _ _ _ =>
    (RunsDown.note .accepted rfl).trans
      ((RunsDown.quiet _ (fileStream_same _ data)).trans (deliver_runsDown react .faultRecords))
  sentinel := fun w _ _ _ =>
    (RunsDown.note .accepted rfl).trans ((RunsDown.note .streamEnded rfl).trans complete_runsDown)
  poll := fun w method fn ctx =>
    ⟨enqueue_past w _, fun _ h => ⟨(enqueue_spends h _).1, (enqueue_spends h _).2.le⟩⟩
  reset := fun w =>
    ⟨List.suffix_cons _ _, fun _ h => ⟨(reset_spends h).1, (reset_spends h).2.trans reserve_le⟩⟩
  setTxHandler := fun _ _ _ => .quiet _
  setEventHandler := fun _ _ _ => .quiet _
  setResponseTimeoutMs := fun _ _ => .quiet _
  setInterframeTimeoutMs := fun _ _ => .quiet _
  setMaxRetries := fun _ _ => .quiet _
  clock := fun _ _ => .quiet _
  lapse := fun _ event _ _ _ _ => (RunsDown.note .expired rfl).trans ((emit_runsDown react event).trans complete_runsDown)
  retry := fun w hstate _ hretries _ =>
    (RunsDown.note .expired rfl).trans (retry_runsDown (w := w.note .expired) hstate hretries)

/-! ### Whole runs -/

theorem run_stocked (hostAddress : HostAddress) (bmsAddress : UInt8) (calls : List Call)
    (hlimited : Limited limit (run (.polling react) (@World.new capacity hostAddress bmsAddress) calls).log) :
    Stocked limit (run (.polling react) (@World.new capacity hostAddress bmsAddress) calls).bms :=
  (((runsDown_turns react).run _ calls).2 hlimited (.idle rfl)).1

/-- What the deadline sets off ends the request in flight or spends one of its retries. -/
theorem lapse_spends (hstate : w.bms.state = .awaiting) (hlimited : Limited limit (lapse (.polling react) w).log)
    (h : Stocked limit w.bms) : potential limit (lapse (.polling react) w) + 1 ≤ potential limit w := by
  have hends : ∀ event, potential limit (complete (emit (.polling react) w event)) + 1 ≤ potential limit w := by
    intro event
    have hfinish := (finish_spends react event h).2
    rw [reserve, if_pos hstate] at hfinish
    exact Int.add_le_of_le_sub_right hfinish
  unfold lapse at hlimited ⊢
  split_ifs at hlimited ⊢ with _ _ hretries
  · unfold finishMulti
    dsimp only
    split <;> exact hends _
  · exact hends _
  · exact (retry_spends hstate hretries hlimited h).2
  · exact hends _

theorem tick_spends (nowMs : UInt32) (hlimited : Limited limit (tick (.polling react) w nowMs).log)
    (h : Stocked limit w.bms) :
    potential limit (tick (.polling react) w nowMs) + (w.overdueAt nowMs).toNat ≤ potential limit w := by
  have hticked : potential limit (ticked w nowMs) = potential limit w := potential_same (by constructor <;> rfl)
  rw [tick_overdue] at hlimited ⊢
  cases hdue : w.overdueAt nowMs with
  | false =>
      rw [if_neg Bool.false_ne_true, hticked]
      exact (add_zero _).le
  | true =>
      rw [hdue, if_pos rfl] at hlimited
      rw [if_pos rfl, ← hticked, ← potential_note (w := ticked w nowMs) .expired rfl]
      exact lapse_spends react (World.overdueAt_iff.mp hdue).1 hlimited ⟨h.pending, h.retries⟩

/-- No call adds to the potential, and an overdue tick takes something off it. -/
theorem call_spends (c : Call) (hlimited : Limited limit (call (.polling react) w c).log) (h : Stocked limit w.bms) :
    Stocked limit (call (.polling react) w c).bms ∧
      potential limit (call (.polling react) w c) + (c.isOverdue w).toNat ≤ potential limit w := by
  obtain ⟨hstocked, hpotential⟩ := ((@runsDown_turns _ limit react).call w c).2 hlimited h
  refine ⟨hstocked, ?_⟩
  cases c with
  | tick nowMs => exact tick_spends react nowMs hlimited h
  | _ => exact (add_zero _).trans_le hpotential

theorem run_spends (calls : List Call) (hlimited : Limited limit (run (.polling react) w calls).log)
    (h : Stocked limit w.bms) :
    potential limit (run (.polling react) w calls) + overdue (.polling react) w calls ≤ potential limit w := by
  induction calls generalizing w with
  | nil => exact (add_zero _).le
  | cons c rest ih =>
      have hrest := (@runsDown_turns _ limit react).run (call (.polling react) w c) rest
      obtain ⟨hstocked, hcall⟩ :=
        call_spends react c (fun entry hentry => hlimited entry (hrest.1.subset hentry)) h
      have hrun := ih hlimited hstocked
      change potential limit (run (.polling react) (call (.polling react) w c) rest) + _ ≤ _
      rw [overdue]
      push_cast
      linarith

/-- The potential's fall, with what has been accepted meanwhile. -/
theorem potential_stretch {w' : World capacity} {n : ℕ} {stretch : List (Entry capacity)} (hlog : w'.log = stretch ++ w.log)
    (h : potential limit w' + n ≤ potential limit w) :
    (n : ℤ) + (limit + 1) * w'.bms.pending - w'.bms.spent ≤
      (limit + 1) * (w.bms.pending + (acceptedRequests stretch).length) - w.bms.spent := by
  have haccepted : (acceptedRequests w'.log).length =
      (acceptedRequests stretch).length + (acceptedRequests w.log).length := by
    rw [hlog]
    simp only [acceptedRequests, List.length_reverse, List.filterMap_append, List.length_append]
  rw [potential, haccepted, potential] at h
  push_cast at h
  linarith

/-- Nothing holds a session up. Take any run, with handlers that poll and reset, and any way it goes on: whatever is fed, ticked, polled and reset meanwhile, the ticks made while the deadline is passed are at most one more than the retry limit for each request pending at the start or accepted since; and where nothing has been accepted and there have been that many, the session is idle and its queue empty. -/
theorem run_drains (hostAddress : HostAddress) (bmsAddress : UInt8) (calls more : List Call) (limit : ℕ) :
    let w : World capacity := run (.polling react) (World.new hostAddress bmsAddress) calls
    let w' := run (.polling react) w more
    Limited limit w'.log →
      ∃ stretch, w'.log = stretch ++ w.log ∧
        overdue (.polling react) w more ≤ (limit + 1) * (w.bms.pending + (acceptedRequests stretch).length) ∧
        (acceptedRequests stretch = [] → (limit + 1) * w.bms.pending ≤ overdue (.polling react) w more →
          w'.bms.busy = false ∧ w'.bms.pending = 0) := by
  intro w w' hlimited
  have hdown := (@runsDown_turns _ limit react).run w more
  obtain ⟨stretch, hstretch⟩ := hdown.1
  have hstocked := run_stocked react hostAddress bmsAddress calls fun entry hentry => hlimited entry (hdown.1.subset hentry)
  have hstocked' := (hdown.2 hlimited hstocked).1
  have hspend := potential_stretch hstretch.symm (run_spends react more hlimited hstocked)
  refine ⟨stretch, hstretch.symm, ?_, fun hnone hmany => ?_⟩
  · have hworth := hstocked'.spent_le
    zify
    linarith
  · rw [hnone, List.length_nil] at hspend
    zify at hmany
    have hidle : w'.bms.state ≠ .awaiting := by
      intro hstate
      have hworth := hstocked'.worth hstate
      push_cast at hspend
      linarith
    have hspent : w'.bms.spent = 0 := by
      rw [HaidiBMS.spent, if_neg hidle]
    constructor
    · change (w'.bms.state != .idle) = false
      cases hstate : w'.bms.state with
      | idle => rfl
      | awaiting => exact absurd hstate hidle
    · rw [hspent] at hspend
      push_cast at hspend
      have hnothing : ((limit : ℤ) + 1) * w'.bms.pending ≤ 0 := by linarith
      have hpos : (0 : ℤ) < limit + 1 := by positivity
      have := nonpos_of_mul_nonpos_right hnothing hpos
      omega

/-- Two requests and a limit of one retry: four overdue ticks end both, whatever is fed and ticked in between. -/
theorem run_drains_silent :
    let w : World 24 := run (.polling fun _ _ _ => []) (World.new .comp bmsAddress)
      [.setTxHandler (some 1) 0, .poll .rtc none 0, .poll (.cellVoltages 0) none 0]
    let w' := run (.polling fun _ _ _ => []) w [.tick 250, .tick 300, .feed [0xA5, 1], .tick 500, .tick 750, .tick 1000]
    w'.bms.busy = false ∧ w'.bms.pending = 0 := by
  intro w w'
  obtain ⟨stretch, hstretch, -, hdrained⟩ := @run_drains 24 (fun _ _ _ => []) .comp bmsAddress
    [.setTxHandler (some 1) 0, .poll .rtc none 0, .poll (.cellVoltages 0) none 0]
    [.tick 250, .tick 300, .feed [0xA5, 1], .tick 500, .tick 750, .tick 1000] 1 (by decide)
  have hlen : stretch = w'.log.take (w'.log.length - w.log.length) := by
    change w'.log = stretch ++ w.log at hstretch
    rw [hstretch, List.length_append, Nat.add_sub_cancel, List.take_left]
  rw [hlen] at hdrained
  exact hdrained (by decide) (by decide)

end Haidi
