import HaidiBms.Session.Rules

/-!
# Whether anything is sent while a handler is running

Handlers may call anything here, `feed` and `tick` included, so events are dispatched inside dispatches. A poll made from a handler never transmits. But a transaction that ends inside a handler's own call starts the next one, a record that finds its transaction reset does too, and a tick may send the request again, all without a look at whether a handler is running. Those three, with something to send, are the only ways the TX handler is run inside a callback.
-/

namespace Haidi

variable {capacity : ℕ+}

/-- How many handlers are running. -/
def depth : List (Entry capacity) → Nat
  | [] => 0
  | entry :: past =>
    match entry.obs with
    | .invoked _ _ => depth past + 1
    | .returned => depth past - 1
    | _ => depth past

/-- The TX handler is run. -/
def Obs.isSent : Obs → Bool
  | .sent _ _ _ => true
  | _ => false

/-- The TX handler is not run while an event handler is. -/
def SentOutside (past : List (Entry capacity)) (entry : Entry capacity) : Prop :=
  entry.obs.isSent = true → depth past = 0

instance (past : List (Entry capacity)) (entry : Entry capacity) : Decidable (SentOutside past entry) :=
  inferInstanceAs (Decidable (_ → _))

/-- Inside a handler nothing waits behind a transaction that ends, nothing waits where a transaction was reset, and nothing is retried. -/
def NothingToSend (past : List (Entry capacity)) (entry : Entry capacity) : Prop :=
  match entry.obs with
  | .completing => 0 < depth past →
      entry.bms.queue.count ≤ if entry.bms.state = .awaiting then 1 else 0
  | .abandoned => 0 < depth past → entry.bms.queue.count = 0
  | .retrying => depth past = 0
  | _ => True

instance (past : List (Entry capacity)) : (entry : Entry capacity) → Decidable (NothingToSend past entry)
  | ⟨_, .completing⟩ | ⟨_, .abandoned⟩ => inferInstanceAs (Decidable (_ → _))
  | ⟨_, .retrying⟩ => inferInstanceAs (Decidable (_ = _))
  | ⟨_, .answered _ _⟩ | ⟨_, .began⟩ | ⟨_, .sent _ _ _⟩ | ⟨_, .accepted⟩ | ⟨_, .expired⟩ | ⟨_, .raised _⟩
  | ⟨_, .invoked _ _⟩ | ⟨_, .returned⟩ | ⟨_, .settled⟩ | ⟨_, .streamEnded⟩ | ⟨_, .reset⟩ => isTrue trivial

/-- The two say the same of a log, the second as long as a TX handler is registered. -/
structure Silent (log : List (Entry capacity)) : Prop where
  sound : History.Everywhere NothingToSend log → History.Everywhere SentOutside log
  exact : (∀ entry ∈ log, entry.bms.txFn ≠ none) → History.Everywhere SentOutside log →
    History.Everywhere NothingToSend log

namespace Silent

variable {log : List (Entry capacity)}

/-- An entry that sends nothing and leaves nothing to send. -/
theorem cons (h : Silent log) (entry : Entry capacity) (hsent : entry.obs.isSent = false)
    (hnothing : NothingToSend log entry) : Silent (entry :: log) where
  sound := fun hlog => ⟨fun hobs => absurd (hsent.symm.trans hobs) Bool.false_ne_true, h.sound hlog.2⟩
  exact := fun hwired hlog => ⟨hnothing, h.exact (fun e he => hwired e (List.mem_cons_of_mem _ he)) hlog.2⟩

/-- A transmission outside every handler. -/
theorem send (h : Silent log) (bms : HaidiBMS capacity) (fn ctx : Ptr) (frame : MessageBytes)
    (hdepth : depth log = 0) : Silent (⟨bms, .sent fn ctx frame⟩ :: log) where
  sound := fun hlog => ⟨fun _ => hdepth, h.sound hlog.2⟩
  exact := fun hwired hlog => ⟨trivial, h.exact (fun e he => hwired e (List.mem_cons_of_mem _ he)) hlog.2⟩

end Silent

/-- An entry that starts and ends no handler. -/
def Obs.isSteady : Obs → Bool
  | .invoked _ _ | .returned => false
  | _ => true

theorem depth_steady {entry : Entry capacity} {past : List (Entry capacity)} (h : entry.obs.isSteady = true) :
    depth (entry :: past) = depth past := by
  obtain ⟨bms, obs⟩ := entry
  cases obs <;> first | rfl | cases h

/-- A log and how many handlers it leaves running. -/
structure Left (d : Nat) (log : List (Entry capacity)) : Prop where
  silent : Silent log
  depth_eq : depth log = d

theorem Left.cons {d : Nat} {log : List (Entry capacity)} (h : Left d log) (entry : Entry capacity)
    (hsteady : entry.obs.isSteady = true) (hsent : entry.obs.isSent = false)
    (hnothing : NothingToSend log entry) : Left d (entry :: log) :=
  ⟨h.silent.cons entry hsent hnothing, (depth_steady hsteady).trans h.depth_eq⟩

/-- The head request is about to be sent, which breaks the silence if a handler is running. -/
structure Due (d : Nat) (w : World capacity) : Prop where
  depth_eq : depth w.log = d
  outside : d = 0 → Silent w.log
  inside : d ≠ 0 → ¬ History.Everywhere NothingToSend w.log
  unwired : d ≠ 0 → w.bms.txFn = none → ¬ ∀ entry ∈ w.log, entry.bms.txFn ≠ none

theorem Left.due {d : Nat} {past : List (Entry capacity)} (h : Left d past) (w : World capacity)
    (entry : Entry capacity) (hlog : w.log = entry :: past) (htx : entry.bms.txFn = w.bms.txFn)
    (hsteady : entry.obs.isSteady = true) (hquiet : entry.obs.isSent = false)
    (hsome : NothingToSend past entry ↔ d = 0) : Due d w where
  depth_eq := by rw [hlog, depth_steady hsteady, h.depth_eq]
  outside := by
    intro hd
    rw [hlog]
    exact h.silent.cons entry hquiet (hsome.mpr hd)
  inside := by
    intro hd
    rw [hlog]
    exact fun hnothing => hd (hsome.mp hnothing.1)
  unwired := by
    intro _ hnone hwired
    exact hwired entry (hlog ▸ List.mem_cons_self) (htx.trans hnone)

theorem Due.began {d : Nat} {w : World capacity} (h : Due d w) : Due d (began w) where
  depth_eq := h.depth_eq
  outside := fun hd => (h.outside hd).cons _ rfl trivial
  inside := fun hd hnothing => h.inside hd hnothing.2
  unwired := by
    intro hd hnone hwired
    rw [began_txFn] at hnone
    exact h.unwired hd hnone fun entry hentry => hwired entry (List.mem_cons_of_mem _ hentry)

theorem Due.transmit {d : Nat} {w : World capacity} (h : Due d w) : Left d (transmit w).log := by
  rcases transmit_log w with ⟨hnone, hlog⟩ | ⟨fn, hlog⟩ <;> rw [hlog]
  · refine ⟨?_, h.depth_eq⟩
    by_cases hd : d = 0
    · exact h.outside hd
    · exact ⟨fun hnothing => absurd hnothing (h.inside hd), fun hwired => absurd hwired (h.unwired hd hnone)⟩
  · refine ⟨?_, (depth_steady rfl).trans h.depth_eq⟩
    by_cases hd : d = 0
    · exact (h.outside hd).send _ _ _ _ (h.depth_eq.trans hd)
    · exact ⟨fun hnothing => absurd hnothing.2 (h.inside hd),
        fun _ hsent => absurd (h.depth_eq.symm.trans (hsent.1 rfl)) hd⟩

/-- An entry after which the bus is offered: it leaves something to send exactly when the bus then takes it inside a handler. -/
theorem pump_left {d : Nat} {past : List (Entry capacity)} (h : Left d past) (w : World capacity)
    (entry : Entry capacity) (hlog : w.log = entry :: past) (htx : entry.bms.txFn = w.bms.txFn)
    (hsteady : entry.obs.isSteady = true) (hquiet : entry.obs.isSent = false)
    (hnone : (w.bms.state = .idle → w.bms.queue.count = 0) → NothingToSend past entry)
    (hsome : w.bms.state = .idle → 0 < w.bms.queue.count → (NothingToSend past entry ↔ d = 0)) :
    Left d (pump w).log := by
  rcases pump_cases w with ⟨heq, hempty⟩ | ⟨hidle, hcount, heq⟩ <;> rw [heq]
  · rw [hlog]
    exact h.cons entry hsteady hquiet (hnone hempty)
  · exact (h.due w entry hlog htx hsteady hquiet (hsome hidle hcount)).began.transmit

theorem complete_left {d : Nat} (w : World capacity) (h : Left d w.log) : Left d (complete w).log := by
  rw [complete_eq]
  have hcount : (retired w).bms.queue.count =
      w.bms.queue.count - if w.bms.state = .awaiting then 1 else 0 := by
    change (if w.bms.state = .awaiting then w.bms.queue.pop else w.bms.queue).count = _
    split_ifs <;> rfl
  refine pump_left h (retired w) ⟨w.bms, .completing⟩ rfl rfl rfl rfl ?_ ?_
  · intro hempty _
    have := hempty rfl
    rw [hcount] at this
    exact Nat.le_of_sub_eq_zero this
  · intro _ hsome
    rw [hcount] at hsome
    change (0 < depth w.log → w.bms.queue.count ≤ if w.bms.state = .awaiting then 1 else 0) ↔ d = 0
    rw [h.depth_eq]
    omega

/-- A world with `d` handlers running, whose dispatch flag is set if any is. -/
structure Inside (running : Nat × Bool) (w : World capacity) : Prop where
  left : Left running.1 w.log
  flag : w.bms.dispatching = running.2
  flagged : 0 < running.1 → running.2 = true

theorem enqueue_inside (running : Nat × Bool) (w : World capacity) (req : Request) (h : Inside running w) :
    Inside running (enqueue w req).1 := by
  rcases enqueue_cases w req with ⟨status, -, heq⟩ | ⟨room, -, -, heq⟩ <;> rw [heq]
  · exact ⟨h.left.cons _ rfl rfl trivial, h.flag, h.flagged⟩
  · cases hflag : w.bms.dispatching with
    | true =>
        rw [if_pos rfl]
        exact ⟨h.left.cons _ rfl rfl trivial, h.flag, h.flagged⟩
    | false =>
        have hzero : running.1 = 0 := Nat.eq_zero_of_not_pos fun hpos =>
          absurd (hflag.symm.trans (h.flag.trans (h.flagged hpos))) Bool.false_ne_true
        rw [if_neg Bool.false_ne_true]
        refine ⟨?_, (pump_dispatching _).trans h.flag, h.flagged⟩
        exact pump_left h.left (accepted w req room) _ rfl rfl rfl rfl
          (fun _ => trivial) fun _ _ => iff_of_true trivial hzero

theorem complete_inside (running : Nat × Bool) (w : World capacity) (h : Inside running w) :
    Inside running (complete w) := by
  refine ⟨complete_left w h.left, ?_, h.flagged⟩
  rw [complete_eq, pump_dispatching]
  exact h.flag

section

variable (env : Env capacity Call)

theorem emit_inside (henv : ∀ running w c, Within (fun _ _ => True) (Inside running) w (env.perform w c))
    (running : Nat × Bool) (w : World capacity) (event : Event) (h : Inside running w) :
    Inside running (emit env w event) := by
  have hall : ∀ log : List (Entry capacity), History.Everywhere (fun _ _ => True) log :=
    fun log => History.everywhere_iff.mpr fun _ _ _ _ => trivial
  obtain ⟨w', hw', hemit⟩ := emit_rule (I := Inside (running.1, true)) (J := Inside (running.1 + 1, true)) env w event
    ⟨h.left.cons _ rfl rfl trivial, rfl, fun _ => rfl⟩
    (fun w handler hw => ⟨⟨hw.left.silent.cons _ rfl trivial,
      congrArg (· + 1) hw.left.depth_eq⟩, hw.flag, fun _ => rfl⟩)
    (fun w c hw => (henv _ w c).2 (hall _) hw)
    (fun w hw => ⟨⟨hw.left.silent.cons _ rfl trivial,
      congrArg (· - 1) hw.left.depth_eq⟩, hw.flag, fun _ => rfl⟩)
  rw [hemit, h.flag]
  cases hnested : running.2 with
  | true => exact ⟨hw'.left.cons _ rfl rfl trivial, hw'.flag.trans hnested.symm, h.flagged⟩
  | false => exact ⟨hw'.left.cons _ rfl rfl trivial, hnested.symm, h.flagged⟩

theorem inside_actions (henv : ∀ running w c, Within (fun _ _ => True) (Inside running) w (env.perform w c))
    (running : Nat × Bool) : BusActions env (fun _ _ => True) (Inside running) where
  quiet := fun w bms hsame h => ⟨h.left, hsame.dispatching.trans h.flag, h.flagged⟩
  mark := by
    rintro w obs (rfl | rfl) - h <;>
      exact ⟨h.left.cons _ rfl rfl trivial, h.flag, h.flagged⟩
  poll := fun w _ _ _ _ h => enqueue_inside running w _ h
  reset := fun w _ h => ⟨h.left.cons _ rfl rfl trivial, h.flag, h.flagged⟩
  reject := fun w event _ _ h => emit_inside env henv running w event h
  deliver := by
    intro w id _ _ _ _ h
    have hdelivered : Inside running (deliverRecord env w id) := by
      rcases deliverRecord_cases env w id with ⟨record, heq⟩ | heq <;> rw [heq]
      · obtain ⟨hl, hf, hd⟩ := emit_inside env henv running w _ h
        exact ⟨hl, hf, hd⟩
      · exact ⟨h.left, h.flag, h.flagged⟩
    generalize deliverRecord env w id = w' at hdelivered
    rcases resume_cases w' with ⟨hidle, heq⟩ | ⟨-, heq⟩ <;> rw [heq]
    · refine ⟨?_, (pump_dispatching _).trans hdelivered.flag, h.flagged⟩
      refine pump_left hdelivered.left (w'.note .abandoned) _ rfl rfl rfl rfl ?_ ?_
      · exact fun hempty _ => hempty hidle
      · intro _ hcount
        change (0 < depth w'.log → w'.bms.queue.count = 0) ↔ running.1 = 0
        rw [hdelivered.left.depth_eq]
        have : 0 < w'.bms.queue.count := hcount
        omega
    · exact ⟨hdelivered.left, hdelivered.flag, hdelivered.flagged⟩
  sentinel := fun w _ _ _ _ h => complete_inside running _
    ⟨h.left.cons _ rfl rfl trivial, h.flag, h.flagged⟩
  finish := fun w event _ _ _ _ h => complete_inside running _ (emit_inside env henv running w event h)
  retry := by
    intro w _ _ _ h
    refine ⟨?_, (transmit_same _).dispatching.trans h.flag, h.flagged⟩
    refine Due.transmit (Left.due h.left _ ⟨w.bms, .retrying⟩ rfl rfl rfl rfl ?_)
    change depth w.log = 0 ↔ running.1 = 0
    rw [h.left.depth_eq]

end

/-- Whatever is called, at whatever depth: the TX handler is never run while an event handler is, if no step inside a handler leaves something to send; and with a TX handler registered all along, only then. -/
theorem run_sent_outside (react : World capacity → Handler → Event → List Call) (nesting : Nat)
    (hostAddress : HostAddress) (bmsAddress : UInt8) (calls : List Call) :
    let w := run (.nested react nesting) (World.new hostAddress bmsAddress) calls
    (History.Everywhere NothingToSend w.log → History.Everywhere SentOutside w.log) ∧
      ((∀ entry ∈ w.log, entry.bms.txFn ≠ none) → History.Everywhere SentOutside w.log →
        History.Everywhere NothingToSend w.log) := by
  have hnested := nested_within (I := @Inside capacity) react inside_actions
  have hrule := (inside_actions (.nested react nesting) (fun running => hnested running nesting) (0, false)).rule
    fun w c => (hnested (0, false) nesting w c).1
  have hrun := (hrule.run (World.new hostAddress bmsAddress) calls).2
    (History.everywhere_iff.mpr fun _ _ _ _ => trivial)
    ⟨⟨⟨fun _ => trivial, fun _ _ => trivial⟩, rfl⟩, rfl, fun h => absurd h (Nat.lt_irrefl 0)⟩
  exact ⟨hrun.left.silent.sound, hrun.left.silent.exact⟩

/-- The handler polls and hands the session a frame it did not ask for, and while that is reported it ticks. -/
def meddle (w : World 4) (_ : Handler) (_ : Event) : List Call :=
  if depth w.log = 0 then [.poll .rtc none 0, .feed (encode bmsAddress .statusInfo (Vector.replicate 8 0)).toList]
  else [.tick 100]

def meddled : List Call :=
  [.setTxHandler (some 1) 0, .setEventHandler (some 2) 0, .poll .batteryStatus none 0,
    .feed (encode bmsAddress .batteryStatus (Vector.replicate 8 0)).toList]

/-- The poll goes out once both handlers have returned. -/
theorem run_sent_outside_meddled :
    let w := run (.nested meddle 2) (World.new .comp bmsAddress) meddled
    History.Everywhere SentOutside w.log ∧ History.Everywhere NothingToSend w.log ∧
      (w.log.filter fun entry => entry.obs.isSent).length = 2 := by
  have houtside := (run_sent_outside meddle 2 .comp bmsAddress meddled).1 (by decide +kernel)
  exact ⟨houtside, (run_sent_outside meddle 2 .comp bmsAddress meddled).2 (by decide +kernel) houtside, by decide +kernel⟩

/-- A reply arrives, its handler polls and hands the session the same reply again: the poll goes out while the handler is still running. -/
theorem run_sends_inside :
    let reply := encode bmsAddress .statusInfo (Vector.replicate 8 0)
    let react : World 24 → Handler → Event → List Call := fun w _ _ =>
      if depth w.log = 0 then [.poll .rtc none 0, .feed reply.toList] else []
    let w := run (.nested react 2) (World.new .comp bmsAddress)
      [.setTxHandler (some 1) 0, .setEventHandler (some 2) 0, .poll .statusInfo none 0, .feed reply.toList]
    ¬ History.Everywhere SentOutside w.log := by
  decide

end Haidi
