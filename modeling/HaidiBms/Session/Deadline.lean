import HaidiBms.Lib.Clock
import HaidiBms.Session.Rules

/-!
# When the deadline is set

The deadline is set from the value of the latest tick, where the request in flight is sent or sent again and where a frame of its reply is accepted. Where handlers only poll and reset, nothing moves it in between, so the latest of these entries of the log tells what it is.
-/

namespace Haidi

open Clock

variable {capacity : ℕ+}

/-- Half a lap of the session's clock. -/
abbrev halfLap : ℤ := 2 ^ 31

/-- The comparison of the source is the clock's. -/
theorem expired_iff (nowMs deadlineMs : UInt32) :
    expired nowMs deadlineMs = true ↔ Due halfLap nowMs.toNat deadlineMs.toNat := by
  have hnow := nowMs.toNat_lt
  have hdeadline := deadlineMs.toNat_lt
  have hsub : ((nowMs - deadlineMs).toNat : ℤ) = ((nowMs.toNat : ℤ) - deadlineMs.toNat) % 2 ^ 32 := by
    rw [UInt32.toNat_sub]
    omega
  have hsigned : (nowMs - deadlineMs).toInt32.toInt = ((nowMs - deadlineMs).toNat : ℤ).bmod (2 ^ 32) :=
    BitVec.toInt_eq_toNat_bmod _
  rw [expired, decide_eq_true_iff, Int32.le_iff_toInt_le, hsigned, Int.bmod_def, hsub, Due]
  change (0 : ℤ) ≤ _ ↔ _ % (2 * 2 ^ 31) < 2 ^ 31
  omega

theorem expired_true_time (now tick : ℕ) (limit : UInt32) :
    expired (UInt32.ofNat now) (UInt32.ofNat tick + limit) = true ↔ Due halfLap now (tick + limit.toNat) := by
  rw [expired_iff]
  refine due_congr ?_
  rw [UInt32.toNat_add, UInt32.toNat_ofNat', UInt32.toNat_ofNat']
  change (_ - _) % (2 * 2 ^ 31) = (_ - _) % (2 * 2 ^ 31)
  omega

/-- How long the deadline runs that is set where the entry is made. -/
def Entry.limit (entry : Entry capacity) : Option UInt32 :=
  match entry.obs with
  | .began | .retrying => some entry.bms.responseTimeoutMs
  | .accepted => some entry.bms.interframeTimeoutMs
  | _ => none

/-- How long the deadline runs that was set last. -/
def lastLimit (log : List (Entry capacity)) : Option UInt32 := log.findSome? Entry.limit

theorem lastLimit_append (new past : List (Entry capacity)) :
    lastLimit (new ++ past) = (lastLimit new).or (lastLimit past) := List.findSome?_append

/-- The time and the timeouts are as they were. -/
structure SameClock (bms bms' : HaidiBMS capacity) : Prop where
  nowMs : bms'.nowMs = bms.nowMs
  responseTimeoutMs : bms'.responseTimeoutMs = bms.responseTimeoutMs
  interframeTimeoutMs : bms'.interframeTimeoutMs = bms.interframeTimeoutMs

theorem SameClock.trans {a b c : HaidiBMS capacity} (hab : SameClock a b) (hbc : SameClock b c) : SameClock a c :=
  ⟨hbc.nowMs.trans hab.nowMs, hbc.responseTimeoutMs.trans hab.responseTimeoutMs,
    hbc.interframeTimeoutMs.trans hab.interframeTimeoutMs⟩

/-- No deadline is set, and none that runs is touched. -/
structure LeavesDeadline (w w' : World capacity) : Prop where
  clock : SameClock w.bms w'.bms
  deadline : w'.bms.deadlineMs = w.bms.deadlineMs
  state : w'.bms.state = .awaiting → w.bms.state = .awaiting
  log : ∃ new, w'.log = new ++ w.log ∧ lastLimit new = none

/-- The deadline of whatever request is in flight afterwards has been set. -/
structure SetsDeadline (w w' : World capacity) : Prop where
  clock : SameClock w.bms w'.bms
  log : ∃ new, w'.log = new ++ w.log ∧ (w'.bms.state = .awaiting →
    ∃ limit, lastLimit new = some limit ∧ w'.bms.deadlineMs = w'.bms.nowMs + limit)

/-- The one or the other. -/
structure TendsDeadline (w w' : World capacity) : Prop where
  nowMs : w'.bms.nowMs = w.bms.nowMs
  log : ∃ new, w'.log = new ++ w.log ∧ (w'.bms.state = .awaiting →
    (∃ limit, lastLimit new = some limit ∧ w'.bms.deadlineMs = w'.bms.nowMs + limit) ∨
      lastLimit new = none ∧ w.bms.state = .awaiting ∧ w'.bms.deadlineMs = w.bms.deadlineMs)

namespace LeavesDeadline

variable {a b c w : World capacity}

theorem refl (w : World capacity) : LeavesDeadline w w :=
  ⟨⟨rfl, rfl, rfl⟩, rfl, fun h => h, [], rfl, rfl⟩

theorem trans (hab : LeavesDeadline a b) (hbc : LeavesDeadline b c) : LeavesDeadline a c := by
  obtain ⟨new, hnew, hnone⟩ := hab.log
  obtain ⟨new', hnew', hnone'⟩ := hbc.log
  refine ⟨hab.clock.trans hbc.clock, hbc.deadline.trans hab.deadline, fun h => hab.state (hbc.state h), new' ++ new, ?_, ?_⟩
  · rw [hnew', hnew, List.append_assoc]
  · rw [lastLimit_append, hnone', hnone]
    rfl

theorem note (w : World capacity) (obs : Obs) (hlimit : Entry.limit ⟨w.bms, obs⟩ = none) :
    LeavesDeadline w (w.note obs) := by
  refine ⟨⟨rfl, rfl, rfl⟩, rfl, fun h => h, [⟨w.bms, obs⟩], rfl, ?_⟩
  rw [lastLimit, List.findSome?_cons, hlimit]
  rfl

theorem modify (w : World capacity) (f : HaidiBMS capacity → HaidiBMS capacity) (hclock : SameClock w.bms (f w.bms))
    (hdeadline : (f w.bms).deadlineMs = w.bms.deadlineMs) (hstate : (f w.bms).state = .awaiting → w.bms.state = .awaiting) :
    LeavesDeadline w (w.modify f) := ⟨hclock, hdeadline, hstate, [], rfl, rfl⟩

/-- What comes before does not matter to a deadline that is set. -/
theorem sets (hab : LeavesDeadline a b) (hbc : SetsDeadline b c) : SetsDeadline a c := by
  obtain ⟨new, hnew, hnone⟩ := hab.log
  obtain ⟨new', hnew', hset⟩ := hbc.log
  refine ⟨hab.clock.trans hbc.clock, new' ++ new, by rw [hnew', hnew, List.append_assoc], fun hstate => ?_⟩
  obtain ⟨limit, hlimit, hdeadline⟩ := hset hstate
  exact ⟨limit, by rw [lastLimit_append, hlimit]; rfl, hdeadline⟩

theorem tends (h : LeavesDeadline a b) : TendsDeadline a b := by
  obtain ⟨new, hnew, hnone⟩ := h.log
  exact ⟨h.clock.nowMs, new, hnew, fun hstate => Or.inr ⟨hnone, h.state hstate, h.deadline⟩⟩

end LeavesDeadline

namespace SetsDeadline

variable {a b c w : World capacity}

theorem tends (h : SetsDeadline a b) : TendsDeadline a b := by
  obtain ⟨new, hnew, hset⟩ := h.log
  exact ⟨h.clock.nowMs, new, hnew, fun hstate => Or.inl (hset hstate)⟩

/-- An entry before it does not matter to a deadline that is set. -/
theorem noted (obs : Obs) (h : SetsDeadline (w.note obs) b) : SetsDeadline w b := by
  obtain ⟨new, hnew, hset⟩ := h.log
  refine ⟨h.clock, new ++ [⟨w.bms, obs⟩], by rw [hnew, World.note_log, List.append_assoc]; rfl, fun hstate => ?_⟩
  obtain ⟨limit, hlimit, hdeadline⟩ := hset hstate
  exact ⟨limit, by rw [lastLimit_append, hlimit]; rfl, hdeadline⟩

end SetsDeadline

theorem TendsDeadline.trans {a b c : World capacity} (hab : TendsDeadline a b) (hbc : TendsDeadline b c) :
    TendsDeadline a c := by
  obtain ⟨new, hnew, hset⟩ := hab.log
  obtain ⟨new', hnew', hset'⟩ := hbc.log
  refine ⟨hbc.nowMs.trans hab.nowMs, new' ++ new, by rw [hnew', hnew, List.append_assoc], fun hstate => ?_⟩
  rw [lastLimit_append]
  rcases hset' hstate with ⟨limit, hlimit, hdeadline⟩ | ⟨hnone, hbefore, hsame⟩
  · exact Or.inl ⟨limit, by rw [hlimit]; rfl, hdeadline⟩
  · rw [hnone, Option.none_or, hsame, hbc.nowMs]
    exact hset hbefore

/-! ### Dispatch -/

variable (react : World capacity → Handler → Event → List Reaction)

theorem perform_leaves (w : World capacity) (reaction : Reaction) (hdispatching : w.bms.dispatching = true) :
    LeavesDeadline w (reaction.perform w) ∧ (reaction.perform w).bms.dispatching = true := by
  cases reaction with
  | poll method fn ctx =>
      dsimp only [Reaction.perform]
      rcases enqueue_cases w (method.toRequest fn ctx) with ⟨status, -, heq⟩ | ⟨room, -, -, heq⟩ <;> rw [heq]
      · exact ⟨.note w _ rfl, hdispatching⟩
      · rw [if_pos hdispatching]
        exact ⟨⟨⟨rfl, rfl, rfl⟩, rfl, fun h => h, [⟨w.bms, .answered _ .queued⟩], rfl, rfl⟩, hdispatching⟩
  | reset =>
      refine ⟨⟨⟨rfl, rfl, rfl⟩, rfl, fun h => ?_, [⟨w.bms, .reset⟩], rfl, rfl⟩, hdispatching⟩
      cases h

theorem emit_leaves (w : World capacity) (event : Event) : LeavesDeadline w (emit (.polling react) w event) := by
  have hnote : ∀ (w' : World capacity) obs, Entry.limit ⟨w'.bms, obs⟩ = none →
      LeavesDeadline w w' ∧ w'.bms.dispatching = true →
        LeavesDeadline w (w'.note obs) ∧ (w'.note obs).bms.dispatching = true :=
    fun w' obs hlimit h => ⟨h.1.trans (.note w' obs hlimit), h.2⟩
  have hopened : LeavesDeadline w (opened w event) :=
    (LeavesDeadline.note w (.raised event) rfl).trans (.modify _ _ ⟨rfl, rfl, rfl⟩ rfl fun h => h)
  obtain ⟨w', hw', hemit⟩ := emit_rule (I := fun w' => LeavesDeadline w w' ∧ w'.bms.dispatching = true)
    (J := fun w' => LeavesDeadline w w' ∧ w'.bms.dispatching = true) (.polling react) w event ⟨hopened, rfl⟩
    (fun w' handler h => hnote w' _ rfl h)
    (fun w' reaction h => ⟨h.1.trans (perform_leaves w' reaction h.2).1, (perform_leaves w' reaction h.2).2⟩)
    (fun w' h => hnote w' _ rfl h)
  rw [hemit]
  refine hw'.1.trans ?_
  unfold closed
  split_ifs
  · exact .note w' _ rfl
  · exact (LeavesDeadline.modify w' _ ⟨rfl, rfl, rfl⟩ rfl fun h => h).trans (.note _ _ rfl)

/-! ### The transaction -/

theorem began_sameClock (w : World capacity) : SameClock w.bms (began w).bms := by
  obtain ⟨_, _, heq⟩ := began_eq w
  rw [heq]
  constructor <;> rfl

/-- What is sent runs the deadline the entry before it tells. -/
theorem transmit_sets {w : World capacity} {past : List (Entry capacity)} (entry : Entry capacity)
    (hlog : w.log = entry :: past) (hlimit : entry.limit = some w.bms.responseTimeoutMs) :
    SameClock w.bms (transmit w).bms ∧ ∃ new, (transmit w).log = new ++ past ∧
      lastLimit new = some w.bms.responseTimeoutMs ∧
        (transmit w).bms.deadlineMs = (transmit w).bms.nowMs + w.bms.responseTimeoutMs := by
  rcases transmit_cases w with ⟨-, heq⟩ | ⟨fn, heq⟩ <;> rw [heq]
  · refine ⟨⟨rfl, rfl, rfl⟩, [entry], hlog, ?_, rfl⟩
    rw [lastLimit, List.findSome?_cons, hlimit]
  · refine ⟨⟨rfl, rfl, rfl⟩, [⟨w.bms, .sent fn w.bms.txCtx _⟩, entry], congrArg _ hlog, ?_, rfl⟩
    rw [lastLimit, List.findSome?_cons]
    dsimp only [Entry.limit]
    rw [List.findSome?_cons, hlimit]

theorem pump_tends (w : World capacity) : TendsDeadline w (pump w) ∧ (w.bms.state = .idle → SetsDeadline w (pump w)) := by
  rcases pump_cases w with ⟨heq, -⟩ | ⟨-, -, heq⟩ <;> rw [heq]
  · refine ⟨(LeavesDeadline.refl w).tends, fun hidle => ⟨⟨rfl, rfl, rfl⟩, [], rfl, fun hstate => ?_⟩⟩
    exact absurd (hidle.symm.trans hstate) (by decide)
  · have hclock := began_sameClock w
    obtain ⟨hsent, new, hlog, hlimit, hdeadline⟩ := transmit_sets (w := began w)
      ⟨w.bms, .began⟩ rfl (congrArg some hclock.responseTimeoutMs.symm)
    have hsets : SetsDeadline w (transmit (began w)) :=
      ⟨hclock.trans hsent, new, hlog, fun _ => ⟨_, hlimit, hdeadline⟩⟩
    exact ⟨hsets.tends, fun _ => hsets⟩

theorem complete_sets (w : World capacity) : SetsDeadline w (complete w) := by
  rw [complete_eq]
  obtain ⟨hclock, hlog⟩ := (pump_tends (retired w)).2 rfl
  exact SetsDeadline.noted .completing ⟨⟨hclock.nowMs, hclock.responseTimeoutMs, hclock.interframeTimeoutMs⟩, hlog⟩

theorem enqueue_tends (w : World capacity) (req : Request) : TendsDeadline w (enqueue w req).1 := by
  rcases enqueue_cases w req with ⟨status, -, heq⟩ | ⟨room, -, -, heq⟩ <;> rw [heq]
  · exact (LeavesDeadline.note w (.answered req status) rfl).tends
  · have haccepted : LeavesDeadline w (accepted w req room) :=
      ⟨⟨rfl, rfl, rfl⟩, rfl, fun h => h, [⟨w.bms, .answered req .queued⟩], rfl, rfl⟩
    dsimp only
    split_ifs
    · exact haccepted.tends
    · exact haccepted.tends.trans (pump_tends _).1

/-! ### Receiving -/

theorem finish_sets (w : World capacity) (event : Event) : SetsDeadline w (complete (emit (.polling react) w event)) :=
  (emit_leaves react w event).sets (complete_sets _)

theorem finishMulti_sets (w : World capacity) (id : DataId) : SetsDeadline w (finishMulti (.polling react) w id) := by
  unfold finishMulti
  dsimp only
  split <;> exact finish_sets react w _

/-- A frame of the reply is accepted, and the next one awaited. -/
theorem armInterframe_sets {w w' : World capacity} (h : LeavesDeadline (w.note .accepted) w') :
    SetsDeadline w (armInterframe w') := by
  obtain ⟨new, hlog, hnone⟩ := h.log
  refine ⟨⟨h.clock.nowMs, h.clock.responseTimeoutMs, h.clock.interframeTimeoutMs⟩, new ++ [⟨w.bms, .accepted⟩], ?_, ?_⟩
  · change w'.log = _
    rw [hlog, World.note_log, List.append_assoc]
    rfl
  · intro _
    refine ⟨w.bms.interframeTimeoutMs, by rw [lastLimit_append, hnone]; rfl, ?_⟩
    change w'.bms.nowMs + w'.bms.interframeTimeoutMs = w'.bms.nowMs + _
    rw [h.clock.interframeTimeoutMs]
    rfl

theorem collect_clock (bms : HaidiBMS capacity) (id : DataId) (data : DataBytes) :
    SameClock bms (collect bms id data) ∧ (collect bms id data).deadlineMs = bms.deadlineMs := by
  obtain ⟨_, _, heq⟩ := collect_eq bms id data
  rw [heq]
  exact ⟨⟨rfl, rfl, rfl⟩, rfl⟩

theorem deliverRecord_leaves (w : World capacity) (id : DataId) :
    LeavesDeadline w (deliverRecord (.polling react) w id) := by
  rcases deliverRecord_cases (.polling react) w id with ⟨record, heq⟩ | heq <;> rw [heq]
  · exact (emit_leaves react w _).trans (.modify _ _ ⟨rfl, rfl, rfl⟩ rfl fun h => h)
  · exact .modify _ _ ⟨rfl, rfl, rfl⟩ rfl fun h => h

theorem resume_sets {w w' : World capacity} (h : LeavesDeadline (w.note .accepted) w') : SetsDeadline w (resume w') := by
  rcases resume_cases w' with ⟨hidle, heq⟩ | ⟨-, heq⟩ <;> rw [heq]
  · exact SetsDeadline.noted .accepted (h.sets (SetsDeadline.noted .abandoned ((pump_tends _).2 hidle)))
  · exact armInterframe_sets h

theorem noteCounts_clock (bms : HaidiBMS capacity) (id : DataId) (data : DataBytes) :
    SameClock bms (noteCounts bms id data) ∧ (noteCounts bms id data).deadlineMs = bms.deadlineMs := by
  obtain ⟨_, _, heq⟩ := noteCounts_eq bms id data
  rw [heq]
  exact ⟨⟨rfl, rfl, rfl⟩, rfl⟩

theorem gathered_leaves (w : World capacity) : LeavesDeadline (w.note .accepted) (gathered w) :=
  have ⟨hclock, hdeadline⟩ := collect_clock w.bms w.bms.head.id (dataOf w.bms.parser.buf)
  .modify _ _ hclock hdeadline fun h => (gathered_same w).state.symm.trans h

theorem streamed_leaves (w : World capacity) (data : DataBytes) : LeavesDeadline (w.note .accepted) (streamed w data) :=
  .modify _ _ ⟨rfl, rfl, rfl⟩ rfl fun h => h

theorem tends_receipts : Receipts (.polling react) (@TendsDeadline capacity) where
  refl := fun w => (LeavesDeadline.refl w).tends
  trans := .trans
  parse := fun w _ => (LeavesDeadline.modify w _ ⟨rfl, rfl, rfl⟩ rfl fun h => h).tends
  reject := fun w event _ => (emit_leaves react w event).tends
  answer := by
    intro w event _ _ _
    obtain ⟨hclock, hdeadline⟩ := noteCounts_clock w.bms w.bms.head.id (dataOf w.bms.parser.buf)
    have hcounts : LeavesDeadline w (w.modify fun bms => noteCounts bms bms.head.id (dataOf bms.parser.buf)) :=
      .modify _ _ hclock hdeadline fun h => (noteCounts_same _ _ _).state.symm.trans h
    exact (hcounts.sets (SetsDeadline.noted .accepted (finish_sets react (informed w) event))).tends
  gather := fun w _ _ _ _ _ => (armInterframe_sets (gathered_leaves w)).tends
  conclude := fun w event _ _ _ _ _ _ =>
    (SetsDeadline.noted .accepted ((gathered_leaves w).sets (finish_sets react (gathered w) event))).tends
  file := fun w data _ _ _ => (armInterframe_sets (streamed_leaves w data)).tends
  deliver := fun w data _ _ _ => (resume_sets ((streamed_leaves w data).trans (deliverRecord_leaves react _ _))).tends
  sentinel := fun _ _ _ _ =>
    (SetsDeadline.noted .accepted (SetsDeadline.noted .streamEnded (complete_sets _))).tends

/-! ### Calls -/

/-- A call that is no tick. -/
def Call.isTick : Call → Bool
  | .tick _ => true
  | _ => false

theorem call_tends (w : World capacity) (c : Call) (h : c.isTick = false) : TendsDeadline w (call (.polling react) w c) := by
  cases c with
  | poll method fn ctx => exact enqueue_tends w _
  | feed data => exact (tends_receipts react).feed w data
  | tick nowMs => cases h
  | reset => exact ⟨rfl, [⟨w.bms, .reset⟩], rfl, nofun⟩
  | setTxHandler | setEventHandler | setResponseTimeoutMs | setInterframeTimeoutMs | setMaxRetries =>
      exact ⟨rfl, [], rfl, fun hstate => Or.inr ⟨rfl, hstate, rfl⟩⟩

theorem lapse_sets (w : World capacity) : SetsDeadline w (lapse (.polling react) w) := by
  unfold lapse
  split_ifs
  · exact finishMulti_sets react w _
  · exact finish_sets react w _
  · obtain ⟨hclock, new, hlog, hlimit, hdeadline⟩ := transmit_sets
      (w := (w.note .retrying).modify fun bms => { bms with retries := bms.retries + 1 }) ⟨w.bms, .retrying⟩ rfl rfl
    exact ⟨⟨hclock.nowMs, hclock.responseTimeoutMs, hclock.interframeTimeoutMs⟩, new, hlog, fun _ => ⟨_, hlimit, hdeadline⟩⟩
  · exact finish_sets react w _

end Haidi
