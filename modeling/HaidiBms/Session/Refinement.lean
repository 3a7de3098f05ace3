import HaidiBms.Session.Ledger

/-!
# The session keeps the ledger

`Sync` relates a session to the ledger of its log: the queue holds the requests that have not ended, behind the one that has ended but is still to be retired while its outcome is dispatched. Every action keeps them in step and writes only what the ledger permits, when handlers poll and reset.
-/

namespace Haidi

variable {capacity : ℕ+}

/-- A session in step with the ledger of its log. `gone` is the request whose outcome is being dispatched, if it has not been retired yet. -/
structure Sync (host : HostAddress) (gone : List Request) (w : World capacity) : Prop where
  address : w.bms.hostAddress = host
  lawful : History.Everywhere (Permits host) w.log
  contents : w.bms.queue.contents = gone ++ (ledger w.log).live.map Prod.snd
  state : w.bms.state = .awaiting ↔ (ledger w.log).inFlight = true ∨ gone ≠ []
  gone_le : gone.length ≤ 1
  gone_idle : gone ≠ [] → (ledger w.log).inFlight = false
  live : (ledger w.log).inFlight = true → (ledger w.log).live ≠ []
  copies : (ledger w.log).inFlight = true → (ledger w.log).copies ≤ w.bms.retries.toNat + 1
  prompt : Wired w.log → (ledger w.log).inFlight = true → 0 < (ledger w.log).copies

namespace Sync

variable {host : HostAddress} {gone : List Request} {w : World capacity}

/-- The log and what the ledger sees of the session are as they were. -/
theorem same (h : Sync host gone w) (bms : HaidiBMS capacity) (hsame : SameBus w.bms bms) :
    Sync host gone ⟨bms, w.log⟩ where
  address := hsame.hostAddress.trans h.address
  lawful := h.lawful
  contents := (congrArg RingBuffer.contents hsame.queue).trans h.contents
  state := by
    rw [← h.state]
    exact iff_of_eq (congrArg (fun state => state = State.awaiting) hsame.state)
  gone_le := h.gone_le
  gone_idle := h.gone_idle
  live := h.live
  copies := by
    change _ → _ ≤ bms.retries.toNat + 1
    rw [hsame.retries]
    exact h.copies
  prompt := h.prompt

/-- What the ledger allows is permitted. -/
theorem permits (h : Sync host gone w) (obs : Obs) (hallows : (ledger w.log).Allows host w.log ⟨w.bms, obs⟩) :
    Permits host w.log ⟨w.bms, obs⟩ where
  allows := hallows
  queued := ⟨gone, h.gone_le, h.contents⟩
  prompt := by
    intro hwired hflight hcopies
    have := h.prompt (fun entry hentry => hwired entry (List.mem_cons_of_mem _ hentry)) hflight
    omega

/-- An entry that leaves the requests as they are. -/
theorem note (h : Sync host gone w) (obs : Obs) (hallows : (ledger w.log).Allows host w.log ⟨w.bms, obs⟩)
    (hlive : ((ledger w.log).next obs).live = (ledger w.log).live)
    (hflight : ((ledger w.log).next obs).inFlight = (ledger w.log).inFlight)
    (hcopies : ((ledger w.log).next obs).copies = (ledger w.log).copies) : Sync host gone (w.note obs) where
  address := h.address
  lawful := ⟨h.permits obs hallows, h.lawful⟩
  contents := by
    rw [World.note_log, ledger_cons, hlive]
    exact h.contents
  state := by
    rw [World.note_log, ledger_cons, hflight]
    exact h.state
  gone_le := h.gone_le
  gone_idle := by
    rw [World.note_log, ledger_cons, hflight]
    exact h.gone_idle
  live := by
    rw [World.note_log, ledger_cons, hflight, hlive]
    exact h.live
  copies := by
    rw [World.note_log, ledger_cons, hflight, hcopies]
    exact h.copies
  prompt := by
    rw [World.note_log, ledger_cons, hflight, hcopies]
    exact fun hwired => h.prompt fun entry hentry => hwired entry (List.mem_cons_of_mem _ hentry)

/-- A request of the public interface is refused. -/
theorem refused (h : Sync host gone w) {req : Request} {status : QueueStatus}
    (hreq : ∃ (method : Poll) (fn : Option Ptr) (ctx : Ptr), req = method.toRequest fn ctx) (hstatus : status ≠ .queued) :
    Sync host gone (w.note (.answered req status)) := by
  have hnext := Ledger.next_refused (ledger w.log) req hstatus
  exact h.note _ hreq (congrArg Ledger.live hnext) (congrArg Ledger.inFlight hnext) (congrArg Ledger.copies hnext)

theorem owner_eq (h : Sync host [] w) : w.bms.owner = (ledger w.log).owner := by
  unfold HaidiBMS.owner Ledger.owner
  have hstate : w.bms.state = .awaiting ↔ (ledger w.log).inFlight = true := by simpa using h.state
  have hcontents : w.bms.queue.contents = (ledger w.log).live.map Prod.snd := h.contents
  cases hflight : (ledger w.log).inFlight with
  | false =>
      rw [if_neg fun hboth => by simpa [hflight] using hstate.mp hboth.1]
      rfl
  | true =>
      obtain ⟨entry, rest, hlive⟩ := List.exists_cons_of_ne_nil (h.live hflight)
      rw [hlive] at hcontents ⊢
      have hcount : 0 < w.bms.queue.count := by
        rw [← RingBuffer.length_contents, hcontents]
        exact Nat.succ_pos _
      rw [if_pos ⟨hstate.mpr hflight, hcount⟩]
      exact congrArg some (w.bms.queue.front_of_contents hcontents)

/-- A request joins the queue. -/
theorem accept (h : Sync host gone w) (req : Request) (room : w.bms.queue.count < capacity)
    (hreq : ∃ (method : Poll) (fn : Option Ptr) (ctx : Ptr), req = method.toRequest fn ctx) :
    Sync host gone (accepted w req room) where
  address := h.address
  lawful := ⟨h.permits (.answered req .queued) hreq, h.lawful⟩
  contents := by
    change (w.bms.queue.push req room).contents = gone ++ (((ledger w.log).live ++ [(_, req)]).map Prod.snd)
    rw [RingBuffer.contents_push, h.contents, List.map_append, List.append_assoc]
    rfl
  state := h.state
  gone_le := h.gone_le
  gone_idle := h.gone_idle
  live := fun _ hnil => absurd hnil (List.append_ne_nil_of_right_ne_nil _ (List.cons_ne_nil _ _))
  copies := h.copies
  prompt := fun hwired => h.prompt fun entry hentry => hwired entry (List.mem_cons_of_mem _ hentry)

/-- The request on the bus ends, and is still to be retired. -/
theorem ends (h : Sync host [] w) (obs : Obs) (hallows : (ledger w.log).Allows host w.log ⟨w.bms, obs⟩) {req : Request}
    (howner : (ledger w.log).owner = some req)
    (hlive : ((ledger w.log).next obs).live = (ledger w.log).live.tail)
    (hflight : ((ledger w.log).next obs).inFlight = false) : Sync host [req] (w.note obs) where
  address := h.address
  lawful := ⟨h.permits obs hallows, h.lawful⟩
  contents := by
    obtain ⟨-, number, rest, hcons⟩ := Ledger.owner_eq_some howner
    have hcontents : w.bms.queue.contents = (ledger w.log).live.map Prod.snd := h.contents
    rw [World.note_log, ledger_cons, hlive, hcons]
    exact hcontents.trans (congrArg (List.map Prod.snd) hcons)
  state := by
    have hbusy : (ledger w.log).inFlight = true := (Ledger.owner_eq_some howner).1
    exact iff_of_true (h.state.mpr (Or.inl hbusy)) (Or.inr (List.cons_ne_nil _ _))
  gone_le := le_rfl
  gone_idle := fun _ => hflight
  live := fun hbusy => absurd (hflight.symm.trans hbusy) Bool.false_ne_true
  copies := fun hbusy => absurd (hflight.symm.trans hbusy) Bool.false_ne_true
  prompt := fun _ hbusy => absurd (hflight.symm.trans hbusy) Bool.false_ne_true

theorem setDispatching (h : Sync host gone w) (dispatching : Bool) :
    Sync host gone (w.modify fun bms => { bms with dispatching }) :=
  ⟨h.address, h.lawful, h.contents, h.state, h.gone_le, h.gone_idle, h.live, h.copies, h.prompt⟩

theorem reset (h : Sync host gone w) : Sync host [] (reset w) where
  address := h.address
  lawful := ⟨h.permits .reset trivial, h.lawful⟩
  contents := rfl
  state := by
    refine ⟨fun hstate => (by cases hstate), ?_⟩
    rintro (hflight | hgone)
    · cases hflight
    · exact absurd rfl hgone
  gone_le := Nat.zero_le _
  gone_idle := fun hnil => absurd rfl hnil
  live := fun hflight => by cases hflight
  copies := fun hflight => by cases hflight
  prompt := fun _ hflight => by cases hflight

end Sync

/-! ### Dispatch -/

/-- Between calls: nothing is being dispatched and every request that has ended is out of the queue. -/
structure Resting (host : HostAddress) (w : World capacity) : Prop where
  sync : Sync host [] w
  quiet : (ledger w.log).phase = .quiet
  dispatching : w.bms.dispatching = false

/-- During the dispatch of an event; `ended` if it is an outcome. -/
structure Telling (host : HostAddress) (ended : Bool) (phase : Phase) (w : World capacity) : Prop where
  sync : ∃ gone, Sync host gone w ∧ (ended = false → gone = [])
  phase : (ledger w.log).phase = phase
  dispatching : w.bms.dispatching = true
  idle : ended = true → (ledger w.log).inFlight = false

/-- Once the handlers of an event have returned. -/
structure Told (host : HostAddress) (ended : Bool) (w : World capacity) : Prop where
  sync : ∃ gone, Sync host gone w ∧ (ended = false → gone = [])
  quiet : (ledger w.log).phase = .quiet
  dispatching : w.bms.dispatching = false
  idle : ended = true → (ledger w.log).inFlight = false

section

variable {host : HostAddress} {ended : Bool}

theorem opened_telling (w : World capacity) (event : Event) (h : Resting host w)
    (hevent : event.isTerminal = true → w.bms.state = .awaiting ∧ event.id = w.bms.head.id) :
    Telling host event.isTerminal (.raised event w.bms.owner) (opened w event) := by
  have howner := h.sync.owner_eq
  cases hterminal : event.isTerminal with
  | false =>
      have hnext := Ledger.next_raised_open (ledger w.log) hterminal
      have hallows : (ledger w.log).Allows host w.log (⟨w.bms, .raised event⟩ : Entry capacity) :=
        ⟨h.quiet, howner, fun ht => absurd (hterminal.symm.trans ht) Bool.false_ne_true⟩
      refine ⟨⟨[], (h.sync.note _ hallows ?_ ?_ ?_).setDispatching true, fun _ => rfl⟩, ?_, rfl, fun ht => by cases ht⟩
      · rw [hnext]
      · rw [hnext]
      · rw [hnext]
      · change ((ledger w.log).next (.raised event)).phase = _
        rw [hnext, howner]
  | true =>
      obtain ⟨hstate, hid⟩ := hevent hterminal
      have hflight : (ledger w.log).inFlight = true := by simpa using h.sync.state.mp hstate
      obtain ⟨req, hreq⟩ := Ledger.owner_isSome hflight (h.sync.live hflight)
      have hnext := Ledger.next_raised_terminal hterminal hflight
      have hhead : event.id = req.id := by
        rw [← howner] at hreq
        unfold HaidiBMS.owner at hreq
        split_ifs at hreq
        rw [hid, ← Option.some.inj hreq]
      have hallows : (ledger w.log).Allows host w.log (⟨w.bms, .raised event⟩ : Entry capacity) :=
        ⟨h.quiet, howner, fun _ => ⟨req, hreq, hhead⟩⟩
      refine ⟨⟨[req], (h.sync.ends _ hallows hreq ?_ ?_).setDispatching true, fun hf => by cases hf⟩, ?_, rfl, fun _ => ?_⟩
      · rw [hnext]
        exact Ledger.retire_live _ _
      · rw [hnext]
        exact Ledger.retire_inFlight _ (h.sync.live hflight)
      · change ((ledger w.log).next (.raised event)).phase = _
        rw [hnext, howner]
      · change ((ledger w.log).next (.raised event)).inFlight = false
        rw [hnext]
        exact Ledger.retire_inFlight _ (h.sync.live hflight)

theorem perform_telling (phase : Phase) (w : World capacity) (reaction : Reaction) (h : Telling host ended phase w) :
    Telling host ended phase (reaction.perform w) := by
  obtain ⟨gone, hsync, hgone⟩ := h.sync
  cases reaction with
  | poll method fn ctx =>
      change Telling host ended phase (enqueue w (method.toRequest fn ctx)).1
      have hreq : ∃ (m : Poll) (f : Option Ptr) (c : Ptr), method.toRequest fn ctx = m.toRequest f c :=
        ⟨method, fn, ctx, rfl⟩
      rcases enqueue_cases w (method.toRequest fn ctx) with ⟨status, hstatus, heq⟩ | ⟨room, -, -, heq⟩ <;> rw [heq]
      · refine ⟨⟨gone, hsync.refused hreq hstatus, hgone⟩, ?_, h.dispatching, ?_⟩
        · rw [World.note_log, ledger_cons, Ledger.next_refused _ _ hstatus, h.phase]
        · rw [World.note_log, ledger_cons, Ledger.next_refused _ _ hstatus]
          exact h.idle
      · rw [h.dispatching, if_pos rfl]
        exact ⟨⟨gone, hsync.accept _ room hreq, hgone⟩, h.phase, h.dispatching, h.idle⟩
  | reset => exact ⟨⟨[], hsync.reset, fun _ => rfl⟩, h.phase, h.dispatching, fun _ => rfl⟩

variable (react : World capacity → Handler → Event → List Reaction)

theorem performs_telling (phase : Phase) (w : World capacity) (reactions : List Reaction)
    (h : Telling host ended phase w) : Telling host ended phase (reactions.foldl Reaction.perform w) := by
  induction reactions generalizing w with
  | nil => exact h
  | cons reaction rest ih => exact ih _ (perform_telling phase w reaction h)

/-- An entry of the dispatch itself. -/
theorem note_telling (phase : Phase) (w : World capacity) (obs : Obs) (after : Phase) (h : Telling host ended phase w)
    (hallows : (ledger w.log).Allows host w.log ⟨w.bms, obs⟩)
    (hnext : (ledger w.log).next obs = { ledger w.log with phase := after }) :
    Telling host ended after (w.note obs) := by
  obtain ⟨gone, hsync, hgone⟩ := h.sync
  refine ⟨⟨gone, hsync.note obs hallows ?_ ?_ ?_, hgone⟩, ?_, h.dispatching, ?_⟩
  · rw [hnext]
  · rw [hnext]
  · rw [hnext]
  · rw [World.note_log, ledger_cons, hnext]
  · rw [World.note_log, ledger_cons, hnext]
    exact h.idle

theorem invoke_telling (phase : Phase) (w : World capacity) (handler : Handler) (event : Event)
    (h : Telling host ended phase w) (htells : phase.Tells handler event) :
    Telling host ended (.after handler event) (invoke (.polling react) w handler event) := by
  have hrunning : Telling host ended (.running handler event) (w.note (.invoked handler event)) :=
    note_telling phase w _ _ h (by rw [← h.phase] at htells; exact htells) rfl
  have hdone := performs_telling _ _ (react w handler event) hrunning
  exact note_telling _ _ .returned _ hdone ⟨handler, event, hdone.phase⟩ (Ledger.next_returned hdone.phase)

theorem invokePerRequest_telling (w : World capacity) (owner : Option Request) (event : Event)
    (h : Telling host ended (.raised event owner) w) :
    ∃ phase, Telling host ended phase (invokePerRequest (.polling react) w owner event) ∧ phase.MaySettle ∧
      ∀ fn ctx, phase.Tells (.sessionWide fn ctx) event := by
  unfold invokePerRequest
  split
  · next handler howner =>
      have hown : ∃ fn ctx, handler = .perRequest fn ctx := by
        obtain ⟨req, -, hreq⟩ := Option.bind_eq_some_iff.mp howner
        obtain ⟨fn, -, rfl⟩ := Option.map_eq_some_iff.mp hreq
        exact ⟨fn, req.onEventCtx, rfl⟩
      obtain ⟨fn, ctx, rfl⟩ := hown
      exact ⟨_, invoke_telling react _ w _ event h ⟨rfl, howner⟩, trivial, fun _ _ => rfl⟩
  · next howner => exact ⟨_, h, howner, fun _ _ => ⟨rfl, howner⟩⟩

theorem invokeSessionWide_telling (phase : Phase) (w : World capacity) (event : Event) (h : Telling host ended phase w)
    (hsettle : phase.MaySettle) (htells : ∀ fn ctx, phase.Tells (.sessionWide fn ctx) event) :
    ∃ after, Telling host ended after (invokeSessionWide (.polling react) w event) ∧ after.MaySettle := by
  unfold invokeSessionWide
  split
  · exact ⟨_, invoke_telling react phase w _ event h (htells _ _), trivial⟩
  · exact ⟨phase, h, hsettle⟩

theorem closed_told (phase : Phase) (w : World capacity) (h : Telling host ended phase w) (hsettle : phase.MaySettle) :
    Told host ended (closed false w) := by
  obtain ⟨gone, hsync, hgone⟩ := h.sync
  refine ⟨⟨gone, (hsync.setDispatching false).note .settled ?_ rfl rfl rfl, hgone⟩, rfl, rfl, h.idle⟩
  change (ledger w.log).phase.MaySettle
  rw [h.phase]
  exact hsettle

/-- An event is dispatched in step with the ledger; an outcome only to the request it is the outcome of. -/
theorem emit_told (w : World capacity) (event : Event) (h : Resting host w)
    (hevent : event.isTerminal = true → w.bms.state = .awaiting ∧ event.id = w.bms.head.id) :
    Told host event.isTerminal (emit (.polling react) w event) := by
  have hopened := opened_telling w event h hevent
  obtain ⟨phase, hfirst, hsettle, htells⟩ := invokePerRequest_telling react _ _ event hopened
  obtain ⟨after, hboth, hdone⟩ := invokeSessionWide_telling react phase _ event hfirst hsettle htells
  rw [emit_eq, h.dispatching]
  exact closed_told after _ hboth hdone

end

/-! ### Transmission -/

/-- The head request on its way to the TX handler: everything is in step, but it may not have been sent yet. -/
structure Sending (host : HostAddress) (w : World capacity) : Prop where
  address : w.bms.hostAddress = host
  lawful : History.Everywhere (Permits host) w.log
  contents : w.bms.queue.contents = (ledger w.log).live.map Prod.snd
  state : w.bms.state = .awaiting
  flight : (ledger w.log).inFlight = true
  live : (ledger w.log).live ≠ []
  copies : (ledger w.log).copies ≤ w.bms.retries.toNat
  limit : (ledger w.log).copies ≤ w.bms.maxRetries.toNat
  /-- Only the lack of a TX handler keeps it from being sent. -/
  prompt : Wired w.log → (ledger w.log).copies = 0 → w.bms.txFn ≠ none

section

variable {host : HostAddress}

theorem transmit_sync (w : World capacity) (h : Sending host w) : Sync host [] (transmit w) := by
  have hsame := transmit_same w
  have hstate : (transmit w).bms.state = .awaiting := hsame.state.trans h.state
  have hcontents : (transmit w).bms.queue.contents = (ledger w.log).live.map Prod.snd :=
    (congrArg RingBuffer.contents hsame.queue).trans h.contents
  have hretries : (transmit w).bms.retries = w.bms.retries := hsame.retries
  rcases transmit_log w with ⟨hnone, hlog⟩ | ⟨fn, hlog⟩
  · refine ⟨hsame.hostAddress.trans h.address, ?_, ?_, ?_, Nat.zero_le _, fun hnil => absurd rfl hnil, ?_, ?_, ?_⟩ <;>
      rw [hlog]
    · exact h.lawful
    · exact hcontents
    · exact iff_of_true hstate (Or.inl h.flight)
    · exact fun _ => h.live
    · rw [hretries]
      exact fun _ => h.copies.trans (Nat.le_succ _)
    · exact fun hwired _ => Nat.pos_of_ne_zero fun hzero => h.prompt hwired hzero hnone
  · obtain ⟨req, howner⟩ := Ledger.owner_isSome h.flight h.live
    have hhead : w.bms.head = req := by
      obtain ⟨-, number, rest, hcons⟩ := Ledger.owner_eq_some howner
      exact w.bms.queue.front_of_contents (h.contents.trans (congrArg (List.map Prod.snd) hcons))
    have hpermits : Permits host w.log
        ⟨w.bms, .sent fn w.bms.txCtx (encode w.bms.hostAddress w.bms.head.id w.bms.head.data)⟩ :=
      { allows := ⟨⟨req, howner, by rw [h.address, hhead]⟩, h.limit⟩
        queued := ⟨[], Nat.zero_le _, h.contents⟩
        prompt := fun _ _ _ => ⟨_, _, _, rfl⟩ }
    refine ⟨hsame.hostAddress.trans h.address, ?_, ?_, ?_, Nat.zero_le _, fun hnil => absurd rfl hnil, ?_, ?_, ?_⟩ <;>
      rw [hlog]
    · exact ⟨hpermits, h.lawful⟩
    · exact hcontents
    · exact iff_of_true hstate (Or.inl h.flight)
    · exact fun _ => h.live
    · rw [hretries]
      exact fun _ => Nat.succ_le_succ h.copies
    · exact fun _ _ => Nat.succ_pos _

theorem transmit_phase (w : World capacity) : (ledger (transmit w).log).phase = (ledger w.log).phase := by
  rcases transmit_log w with ⟨-, hlog⟩ | ⟨fn, hlog⟩ <;> rw [hlog]
  rfl

theorem pump_resting (w : World capacity) (h : Resting host w) : Resting host (pump w) := by
  rcases pump_cases w with ⟨heq, -⟩ | ⟨hidle, hcount, heq⟩ <;> rw [heq]
  · exact h
  have hflight : (ledger w.log).inFlight = false := by
    rw [← Bool.not_eq_true]
    intro hbusy
    have := h.sync.state.mpr (Or.inl hbusy)
    rw [hidle] at this
    cases this
  have hcontents : w.bms.queue.contents = (ledger w.log).live.map Prod.snd := h.sync.contents
  have hlive : (ledger w.log).live ≠ [] := by
    intro hnil
    rw [hnil] at hcontents
    exact absurd ((RingBuffer.contents_eq_nil _).mp hcontents) hcount.ne'
  have hsame := began_same w
  have hpermits : Permits host w.log ⟨w.bms, .began⟩ :=
    { allows := ⟨hflight, hlive⟩
      queued := ⟨[], Nat.zero_le _, hcontents⟩
      prompt := fun _ hbusy => absurd (hflight.symm.trans hbusy) Bool.false_ne_true }
  have hsending : Sending host (began w) :=
    { address := hsame.hostAddress.trans h.sync.address
      lawful := ⟨hpermits, h.sync.lawful⟩
      contents := (congrArg RingBuffer.contents hsame.queue).trans hcontents
      state := hsame.state
      flight := rfl
      live := hlive
      copies := Nat.zero_le _
      limit := Nat.zero_le _
      prompt := by
        intro hwired _
        rw [began_txFn]
        exact hwired ⟨w.bms, .began⟩ List.mem_cons_self }
  refine ⟨transmit_sync _ hsending, ?_, ?_⟩
  · rw [transmit_phase]
    exact h.quiet
  · exact (transmit_same _).dispatching.trans (hsame.dispatching.trans h.dispatching)

/-- The request whose outcome has been dispatched is retired and the next is given the bus. -/
theorem complete_resting (w : World capacity) (h : Told host true w) : Resting host (complete w) := by
  rw [complete_eq]
  refine pump_resting _ ⟨?_, h.quiet, h.dispatching⟩
  obtain ⟨gone, hsync, -⟩ := h.sync
  have hflight := h.idle rfl
  have hstate : w.bms.state = .awaiting ↔ gone ≠ [] := by
    rw [hsync.state, hflight]
    simp
  refine ⟨hsync.address, ⟨hsync.permits .completing trivial, hsync.lawful⟩, ?_, ?_, Nat.zero_le _,
    fun hnil => absurd rfl hnil, fun hbusy => absurd (hflight.symm.trans hbusy) Bool.false_ne_true,
    fun hbusy => absurd (hflight.symm.trans hbusy) Bool.false_ne_true,
    fun _ hbusy => absurd (hflight.symm.trans hbusy) Bool.false_ne_true⟩
  · change (if w.bms.state = .awaiting then w.bms.queue.pop else w.bms.queue).contents =
      (ledger w.log).live.map Prod.snd
    by_cases hgone : gone = []
    · rw [if_neg (fun hbusy => hstate.mp hbusy hgone), hsync.contents, hgone]
      rfl
    · rw [if_pos (hstate.mpr hgone), RingBuffer.contents_pop, hsync.contents]
      obtain ⟨req, rfl⟩ := List.length_eq_one_iff.mp
        (le_antisymm hsync.gone_le (List.length_pos_iff.mpr hgone))
      rfl
  · refine iff_of_false (fun hbusy => by cases hbusy) ?_
    rintro (hbusy | hgone)
    · exact absurd (hflight.symm.trans hbusy) Bool.false_ne_true
    · exact absurd rfl hgone

variable (react : World capacity → Handler → Event → List Reaction)

theorem emit_resting (w : World capacity) (event : Event) (h : Resting host w) (hopen : event.isTerminal = false) :
    Resting host (emit (.polling react) w event) := by
  have htold := emit_told react w event h fun ht => absurd (hopen.symm.trans ht) Bool.false_ne_true
  obtain ⟨gone, hsync, hgone⟩ := htold.sync
  obtain rfl := hgone hopen
  exact ⟨hsync, htold.quiet, htold.dispatching⟩

theorem deliverRecord_resting (w : World capacity) (h : Resting host w) :
    Resting host (deliverRecord (.polling react) w .faultRecords) := by
  have hquiet : ∀ w : World capacity, Resting host w →
      Resting host (w.modify fun bms => { bms with recordLen := 0 }) := fun w hw =>
    ⟨hw.sync.same _ ⟨rfl, rfl, rfl, rfl, rfl⟩, hw.quiet, hw.dispatching⟩
  rcases deliverRecord_cases (.polling react) w .faultRecords with ⟨record, heq⟩ | heq <;> rw [heq]
  · exact hquiet _ (emit_resting react w _ h rfl)
  · exact hquiet _ h

theorem streamEnded_told (w : World capacity) (h : Resting host w) (hstate : w.bms.state = .awaiting)
    (hid : w.bms.head.id = .faultRecords) (hend : EndsStream w.log w.bms) : Told host true (w.note .streamEnded) := by
  have hflight : (ledger w.log).inFlight = true := by simpa using h.sync.state.mp hstate
  have hlive := h.sync.live hflight
  obtain ⟨req, howner⟩ := Ledger.owner_isSome hflight hlive
  have hhead : w.bms.head = req := by
    obtain ⟨-, number, rest, hcons⟩ := Ledger.owner_eq_some howner
    exact w.bms.queue.front_of_contents (h.sync.contents.trans (congrArg (List.map Prod.snd) hcons))
  have hends := h.sync.ends .streamEnded ⟨hend, req, howner, hhead ▸ hid⟩ howner (Ledger.retire_live _ _)
    (Ledger.retire_inFlight _ hlive)
  refine ⟨⟨[req], hends, fun hf => by cases hf⟩, ?_, h.dispatching, fun _ => Ledger.retire_inFlight _ hlive⟩
  exact (Ledger.retire_phase _ _).trans h.quiet

/-- A request that may be retried is still on its way. -/
theorem retrying_sending (w : World capacity) (h : Resting host w) (hstate : w.bms.state = .awaiting)
    (hretries : w.bms.retries < w.bms.maxRetries) :
    Sending host ((w.note .retrying).modify fun bms => { bms with retries := bms.retries + 1 }) := by
  have hflight : (ledger w.log).inFlight = true := by simpa using h.sync.state.mp hstate
  have hsync := h.sync.note .retrying trivial rfl rfl rfl
  have hcopies : (ledger w.log).copies ≤ w.bms.retries.toNat + 1 := h.sync.copies hflight
  have hlt : w.bms.retries.toNat < w.bms.maxRetries.toNat := UInt8.lt_iff_toNat_lt.mp hretries
  have hmax : w.bms.maxRetries.toNat < 256 := w.bms.maxRetries.toNat_lt
  have hnext : (w.bms.retries + 1).toNat = w.bms.retries.toNat + 1 := by
    rw [UInt8.toNat_add]
    exact Nat.mod_eq_of_lt (by change w.bms.retries.toNat + 1 < 256; omega)
  exact
    { address := h.sync.address
      lawful := hsync.lawful
      contents := h.sync.contents
      state := hstate
      flight := hflight
      live := h.sync.live hflight
      copies := hcopies.trans hnext.ge
      limit := hcopies.trans hlt
      prompt := fun hwired hzero => absurd hzero (hsync.prompt hwired hflight).ne' }

theorem resting_actions : BusActions (.polling react) (fun _ _ => True) (@Resting capacity host) where
  quiet := fun w bms hsame h =>
    ⟨h.sync.same bms hsame, h.quiet, hsame.dispatching.trans h.dispatching⟩
  mark := by
    rintro w obs (rfl | rfl) - h <;> exact ⟨h.sync.note _ trivial rfl rfl rfl, h.quiet, h.dispatching⟩
  poll := by
    intro w method fn ctx _ h
    have hreq : ∃ (m : Poll) (f : Option Ptr) (c : Ptr), method.toRequest fn ctx = m.toRequest f c :=
      ⟨method, fn, ctx, rfl⟩
    rcases enqueue_cases w (method.toRequest fn ctx) with ⟨status, hstatus, heq⟩ | ⟨room, -, -, heq⟩ <;> rw [heq]
    · refine ⟨h.sync.refused hreq hstatus, ?_, h.dispatching⟩
      rw [World.note_log, ledger_cons, Ledger.next_refused _ _ hstatus, h.quiet]
    · rw [h.dispatching]
      exact pump_resting _ ⟨h.sync.accept _ room hreq, h.quiet, h.dispatching⟩
  reset := fun w _ h => ⟨h.sync.reset, h.quiet, h.dispatching⟩
  reject := fun w event hevent _ h => emit_resting react w event h (Event.not_terminal_of_rejection hevent)
  deliver := by
    rintro w id - - rfl - h
    have hdelivered := deliverRecord_resting react w h
    rcases resume_cases (deliverRecord (.polling react) w .faultRecords) with ⟨-, heq⟩ | ⟨-, heq⟩ <;> rw [heq]
    · exact pump_resting _ ⟨hdelivered.sync.note .abandoned trivial rfl rfl rfl, hdelivered.quiet, hdelivered.dispatching⟩
    · exact ⟨hdelivered.sync.same _ ⟨rfl, rfl, rfl, rfl, rfl⟩, hdelivered.quiet, hdelivered.dispatching⟩
  sentinel := fun w hstate hid hend _ h => complete_resting _ (streamEnded_told w h hstate hid hend)
  finish := by
    intro w event hstate hid hterminal _ h
    have htold := emit_told react w event h fun _ => ⟨hstate, hid⟩
    rw [hterminal] at htold
    exact complete_resting _ htold
  retry := by
    intro w hstate hretries _ h
    refine ⟨transmit_sync _ (retrying_sending w h hstate hretries), ?_, ?_⟩
    · rw [transmit_phase]
      exact h.quiet
    · exact (transmit_same _).dispatching.trans h.dispatching

/-- Whatever is called, fed and ticked, and whatever the handlers poll and reset, the session is in step with the ledger of its log between calls. -/
theorem run_resting (hostAddress : HostAddress) (bmsAddress : UInt8) (calls : List Call) :
    Resting hostAddress (run (.polling react) (World.new hostAddress bmsAddress) calls) := by
  have hactions : BusActions (.polling react) (fun _ _ => True) (@Resting capacity hostAddress) := resting_actions react
  have hrule := hactions.rule (polling_past react)
  refine (hrule.run (World.new hostAddress bmsAddress) calls).2
    (History.everywhere_iff.mpr fun _ _ _ _ => trivial) ⟨?_, rfl, rfl⟩
  have hidle : (ledger ([] : List (Entry capacity))).inFlight ≠ true := Bool.false_ne_true
  refine ⟨rfl, trivial, rfl, ?_, Nat.zero_le _, fun h => absurd rfl h, fun h => absurd h hidle,
    fun h => absurd h hidle, fun _ h => absurd h hidle⟩
  refine iff_of_false (fun hstate => by cases hstate) ?_
  rintro (hflight | hgone)
  · exact hidle hflight
  · exact absurd rfl hgone

end

end Haidi
