import HaidiBms.Session.Deadline
import HaidiBms.Session.Passive

/-!
# Sessions in true time

Calls are made at true times, which never decrease, and a tick is passed the low 32 bits of the time at which it is made. The session knows no other time than the latest tick's: a deadline counts from there, and the clock may be behind by then. `Timed` runs a session with the true times beside it, and stamps what the log records with them. A tick that comes too early is one that sends a frame or raises an event before its time.
-/

namespace Haidi

open Clock

variable {capacity : ℕ+}

/-- When something is done, in true time. -/
structure Moment where
  time : ℕ
  /-- The time of the latest tick, zero before the first. -/
  tick : ℕ
  deriving DecidableEq

/-- How far the session's clock is behind, in one lap. -/
def Moment.lag (moment : Moment) : ℕ := (moment.time - moment.tick) % 2 ^ 32

/-- A session in true time, with its log in stamped entries. -/
structure Timed (capacity : ℕ+) where
  moment : Moment
  world : World capacity
  log : List (Moment × Entry capacity)

namespace Timed

def new (hostAddress : HostAddress) (bmsAddress : UInt8) : Timed capacity := ⟨⟨0, 0⟩, World.new hostAddress bmsAddress, []⟩

/-- A call at a true time. -/
def call (env : Env capacity Reaction) (s : Timed capacity) (at' : ℕ × Call) : Timed capacity :=
  let moment : Moment := ⟨at'.1, if at'.2.isTick then at'.1 else s.moment.tick⟩
  let world := Haidi.call env s.world at'.2
  let added := world.log.take (world.log.length - s.world.log.length)
  ⟨moment, world, added.map (fun entry => (moment, entry)) ++ s.log⟩

def run (env : Env capacity Reaction) (s : Timed capacity) (script : List (ℕ × Call)) : Timed capacity :=
  script.foldl (call env) s

end Timed

/-- A tick is passed the time at which it is made. -/
def Call.onTime (time : ℕ) : Call → Bool
  | .tick nowMs => nowMs == UInt32.ofNat time
  | _ => true

/-- Times never decrease, from `since` on, and every tick is passed its own. -/
def OnTime (since : ℕ) : List (ℕ × Call) → Prop
  | [] => True
  | (time, c) :: rest => since ≤ time ∧ c.onTime time = true ∧ OnTime time rest

instance decidableOnTime : (since : ℕ) → (script : List (ℕ × Call)) → Decidable (OnTime since script)
  | _, [] => isTrue trivial
  | since, (time, c) :: rest =>
    have := decidableOnTime time rest
    inferInstanceAs (Decidable (since ≤ time ∧ c.onTime time = true ∧ OnTime time rest))

/-- When the deadline was set last, and how long it runs. -/
def arming (log : List (Moment × Entry capacity)) : Option (Moment × UInt32) :=
  log.findSome? fun stamped => stamped.2.limit.map fun limit => (stamped.1, limit)

/-- Each deadline is set at a moment, and for a limit, as `P` says. -/
def EverySet (P : Moment → UInt32 → Prop) (log : List (Moment × Entry capacity)) : Prop :=
  ∀ stamped ∈ log, ∀ limit ∈ stamped.2.limit, P stamped.1 limit

instance (P : Moment → UInt32 → Prop) [∀ moment limit, Decidable (P moment limit)] (log : List (Moment × Entry capacity)) :
    Decidable (EverySet P log) :=
  have (stamped : Moment × Entry capacity) : Decidable (∀ limit ∈ stamped.2.limit, P stamped.1 limit) :=
    Option.decidableForallMem stamped.2.limit
  inferInstanceAs (Decidable (∀ stamped ∈ log, ∀ limit ∈ stamped.2.limit, P stamped.1 limit))

/-! ### What a tick gives out -/

/-- What has been sent and raised, the latest first, with the times. -/
def Timed.given (s : Timed capacity) : List (ℕ × Output) :=
  s.log.filterMap fun stamped => stamped.2.obs.output?.map fun out => (stamped.1.time, out)

/-- The call sends a frame or raises an event. -/
def Timed.Acts (env : Env capacity Reaction) (s : Timed capacity) (at' : ℕ × Call) : Prop := (s.call env at').given ≠ s.given

instance (env : Env capacity Reaction) (s : Timed capacity) (at' : ℕ × Call) : Decidable (s.Acts env at') :=
  inferInstanceAs (Decidable (_ ≠ _))

/-- A tick of the run sends a frame or raises an event only where `P` holds of the session before it and of its time. -/
def ActsWhere (env : Env capacity Reaction) (P : Timed capacity → ℕ → Prop) : Timed capacity → List (ℕ × Call) → Prop
  | _, [] => True
  | s, (time, c) :: rest =>
    (c.isTick = true → s.Acts env (time, c) → P s time) ∧ ActsWhere env P (s.call env (time, c)) rest

instance decidableActsWhere (env : Env capacity Reaction) (P : Timed capacity → ℕ → Prop) [∀ s time, Decidable (P s time)] :
    (s : Timed capacity) → (script : List (ℕ × Call)) → Decidable (ActsWhere env P s script)
  | _, [] => isTrue trivial
  | s, (time, c) :: rest =>
    have := decidableActsWhere env P (s.call env (time, c)) rest
    inferInstanceAs (Decidable ((c.isTick = true → s.Acts env (time, c) → P s time) ∧ _))

/-! ### The deadline in true time -/

theorem due_lag (now : ℤ) (moment : Moment) (limit : ℤ) (h : moment.tick ≤ moment.time) :
    Clock.Due halfLap now (moment.tick + limit) ↔ Clock.Due halfLap now (moment.time - moment.lag + limit) := by
  refine due_congr ?_
  rw [Moment.lag]
  change (_ - _) % (2 * 2 ^ 31) = (_ - _) % (2 * 2 ^ 31)
  omega

theorem arming_append (moment : Moment) (new : List (Entry capacity)) (past : List (Moment × Entry capacity)) :
    arming (new.map (fun entry => (moment, entry)) ++ past) =
      ((lastLimit new).map fun limit => (moment, limit)).or (arming past) := by
  induction new with
  | nil => rfl
  | cons entry rest ih =>
      rw [List.map_cons, List.cons_append, arming, lastLimit, List.findSome?_cons, List.findSome?_cons]
      cases entry.limit with
      | none => exact ih
      | some limit => rfl

/-- The running deadline was set at a moment, to run for a limit. -/
structure Running (log : List (Moment × Entry capacity)) (deadlineMs : UInt32) (since : Moment) (armed : Moment)
    (limit : UInt32) : Prop where
  arming : arming log = some (armed, limit)
  deadline : deadlineMs = UInt32.ofNat armed.tick + limit
  tick_le : armed.tick ≤ armed.time
  time_le : armed.time ≤ since.time
  tick_le_tick : armed.tick ≤ since.tick

/-- The session's clock is the latest tick's, and its deadline the one set last. -/
structure Timed.Kept (s : Timed capacity) : Prop where
  now : s.world.bms.nowMs = UInt32.ofNat s.moment.tick
  tick_le : s.moment.tick ≤ s.moment.time
  running : s.world.bms.state = .awaiting →
    ∃ armed limit, Running s.log s.world.bms.deadlineMs s.moment armed limit

theorem Timed.call_eq {env : Env capacity Reaction} {s : Timed capacity} {w : World capacity} {time : ℕ} {c : Call}
    (new : List (Entry capacity)) (hcall : Haidi.call env s.world c = w) (hlog : w.log = new ++ s.world.log) :
    s.call env (time, c) = ⟨⟨time, if c.isTick then time else s.moment.tick⟩, w,
      new.map (fun entry => ((⟨time, if c.isTick then time else s.moment.tick⟩ : Moment), entry)) ++ s.log⟩ := by
  have htake : w.log.take (w.log.length - s.world.log.length) = new := by
    rw [hlog, List.length_append, Nat.add_sub_cancel, List.take_left]
  rw [Timed.call]
  dsimp only
  rw [hcall, htake]

/-! ### Runs -/

variable (react : World capacity → Handler → Event → List Reaction)

theorem Timed.Kept.tends {s : Timed capacity} {w : World capacity} {new : List (Entry capacity)} {moment : Moment}
    (h : s.Kept) (hnowMs : w.bms.nowMs = s.world.bms.nowMs)
    (hset : w.bms.state = .awaiting →
      (∃ limit, lastLimit new = some limit ∧ w.bms.deadlineMs = w.bms.nowMs + limit) ∨
        lastLimit new = none ∧ s.world.bms.state = .awaiting ∧ w.bms.deadlineMs = s.world.bms.deadlineMs)
    (htime : s.moment.time ≤ moment.time) (htick : moment.tick = s.moment.tick) :
    Timed.Kept ⟨moment, w, new.map (fun entry => (moment, entry)) ++ s.log⟩ := by
  have htickTime : moment.tick ≤ moment.time := htick ▸ h.tick_le.trans htime
  have hnow : w.bms.nowMs = UInt32.ofNat moment.tick := by rw [hnowMs, h.now, htick]
  refine ⟨hnow, htickTime, fun hstate => ?_⟩
  rcases hset hstate with ⟨limit, hlimit, hdeadline⟩ | ⟨hnone, hbefore, hdeadline⟩
  · refine ⟨moment, limit, ?_, hdeadline.trans (by rw [hnow]), htickTime, le_rfl, le_rfl⟩
    rw [arming_append, hlimit]
    rfl
  · obtain ⟨armed, limit, hrunning⟩ := h.running hbefore
    refine ⟨armed, limit, ?_, hdeadline.trans hrunning.deadline, hrunning.tick_le, hrunning.time_le.trans htime,
      htick ▸ hrunning.tick_le_tick⟩
    rw [arming_append, hnone]
    exact hrunning.arming

theorem Timed.Kept.ticked {s : Timed capacity} {time : ℕ} (h : s.Kept) (htime : s.moment.time ≤ time) :
    Timed.Kept ⟨⟨time, time⟩, ticked s.world (UInt32.ofNat time), s.log⟩ := by
  refine ⟨rfl, le_rfl, fun hstate => ?_⟩
  obtain ⟨armed, limit, hrunning⟩ := h.running hstate
  exact ⟨armed, limit, hrunning.arming, hrunning.deadline, hrunning.tick_le, hrunning.time_le.trans htime,
    hrunning.tick_le_tick.trans (h.tick_le.trans htime)⟩

theorem Timed.Kept.expired {s : Timed capacity} (h : s.Kept) :
    Timed.Kept ⟨s.moment, s.world.note .expired, (s.moment, ⟨s.world.bms, .expired⟩) :: s.log⟩ := by
  refine ⟨h.now, h.tick_le, fun hstate => ?_⟩
  obtain ⟨armed, limit, hrunning⟩ := h.running hstate
  exact ⟨armed, limit, hrunning.arming, hrunning.deadline, hrunning.tick_le, hrunning.time_le, hrunning.tick_le_tick⟩

theorem Timed.Kept.tick {s : Timed capacity} {time : ℕ} (h : s.Kept) (htime : s.moment.time ≤ time) :
    (s.call (.polling react) (time, .tick (UInt32.ofNat time))).Kept := by
  have hticked := h.ticked htime
  have hcall : Haidi.call (.polling react) s.world (.tick (UInt32.ofNat time)) = _ :=
    tick_eq (.polling react) s.world (UInt32.ofNat time)
  split_ifs at hcall
  · rw [Timed.call_eq [] hcall rfl]
    exact hticked
  · have hexpired := hticked.expired
    obtain ⟨hclock, new, hnew, hset⟩ := lapse_sets react ((Haidi.ticked s.world (UInt32.ofNat time)).note .expired)
    rw [Timed.call_eq (new ++ [⟨(Haidi.ticked s.world (UInt32.ofNat time)).bms, .expired⟩]) hcall
      (by rw [hnew, List.append_assoc]; rfl), List.map_append, List.append_assoc]
    exact hexpired.tends hclock.nowMs (fun hstate => Or.inl (hset hstate)) le_rfl rfl

theorem Timed.Kept.call {s : Timed capacity} {time : ℕ} {c : Call} (h : s.Kept) (htime : s.moment.time ≤ time)
    (honTime : c.onTime time = true) : (s.call (.polling react) (time, c)).Kept := by
  by_cases hkind : c.isTick = true
  · cases c with
    | tick nowMs =>
        obtain rfl : nowMs = UInt32.ofNat time := eq_of_beq honTime
        exact h.tick react htime
    | _ => cases hkind
  · rw [Bool.not_eq_true] at hkind
    obtain ⟨hnowMs, new, hnew, hset⟩ := call_tends react s.world c hkind
    rw [Timed.call_eq new rfl hnew]
    exact h.tends hnowMs hset htime (if_neg (by rw [hkind]; exact Bool.false_ne_true))

theorem Timed.Kept.run {s : Timed capacity} {script : List (ℕ × Call)} (h : s.Kept)
    (hscript : OnTime s.moment.time script) : (s.run (.polling react) script).Kept := by
  induction script generalizing s with
  | nil => exact h
  | cons at' rest ih =>
      obtain ⟨htime, honTime, hrest⟩ := hscript
      exact ih (h.call react htime honTime) hrest

theorem Timed.kept_new (hostAddress : HostAddress) (bmsAddress : UInt8) :
    (Timed.new hostAddress bmsAddress : Timed capacity).Kept := ⟨rfl, le_rfl, nofun⟩

/-! ### What the deadline allows -/

/-- The deadline runs from the tick before it was set. -/
theorem Running.due {log : List (Moment × Entry capacity)} {deadlineMs : UInt32} {since armed : Moment} {limit : UInt32}
    (h : Running log deadlineMs since armed limit) (now : ℕ) :
    Haidi.expired (UInt32.ofNat now) deadlineMs = true ↔ Clock.Due halfLap now (armed.tick + limit.toNat) := by
  rw [h.deadline]
  exact expired_true_time now armed.tick limit

theorem Running.due_lag {log : List (Moment × Entry capacity)} {deadlineMs : UInt32} {since armed : Moment}
    {limit : UInt32} (h : Running log deadlineMs since armed limit) (now : ℕ) :
    Haidi.expired (UInt32.ofNat now) deadlineMs = true ↔ Clock.Due halfLap now (armed.time - armed.lag + limit.toNat) :=
  (h.due now).trans (Haidi.due_lag now armed limit.toNat h.tick_le)

theorem forall_later {since : ℕ} {P : ℤ → Prop} :
    (∀ now : ℕ, since ≤ now → P now) ↔ ∀ now : ℤ, since ≤ now → P now := by
  constructor
  · intro h now hnow
    obtain ⟨n, rfl⟩ := Int.eq_ofNat_of_zero_le (le_trans (Int.natCast_nonneg since) hnow)
    exact h n (by omega)
  · exact fun h now hnow => h now (by omega)

/-- When the deadline is not seen passed before the limit has gone by since it was set. -/
theorem Running.not_early_iff {log : List (Moment × Entry capacity)} {deadlineMs : UInt32} {since armed : Moment}
    {limit : UInt32} (h : Running log deadlineMs since armed limit) (hlimit : limit.toNat < 2 ^ 31) :
    (∀ now, since.time ≤ now → Haidi.expired (UInt32.ofNat now) deadlineMs = true → armed.time + limit.toNat ≤ now) ↔
      armed.time + limit.toNat ≤ since.time ∨ armed.lag = 0 ∨
        armed.time + 2 ^ 31 + limit.toNat ≤ armed.lag + since.time := by
  have htime := h.time_le
  have hlap : armed.lag < 2 ^ 32 := Nat.mod_lt _ (by decide)
  calc (∀ now, since.time ≤ now → Haidi.expired (UInt32.ofNat now) deadlineMs = true → armed.time + limit.toNat ≤ now)
    _ ↔ ∀ now : ℕ, since.time ≤ now → Clock.Due halfLap now (armed.time - armed.lag + limit.toNat) →
          (armed.time + limit.toNat : ℤ) ≤ now := by
        refine forall₂_congr fun now _ => imp_congr (h.due_lag now) ?_
        omega
    _ ↔ ∀ now : ℤ, since.time ≤ now → Clock.Due halfLap now (armed.time - armed.lag + limit.toNat) →
          (armed.time + limit.toNat : ℤ) ≤ now :=
        forall_later (P := fun now => Clock.Due halfLap now (armed.time - armed.lag + limit.toNat) → _ ≤ now)
    _ ↔ _ := Clock.not_early_iff (by omega) (by omega) (by change _ < 2 * 2 ^ 31; omega) (by change _ < 2 * 2 ^ 31; omega)
    _ ↔ _ := by
        change _ ∨ _ ∧ _ ≤ 2 ^ 31 + _ ∨ 2 ^ 31 + _ ≤ _ ↔ _
        omega

/-- When the deadline is not seen passed before the limit has gone by on the session's clock. -/
theorem Running.honoured_iff {log : List (Moment × Entry capacity)} {deadlineMs : UInt32} {since armed : Moment}
    {limit : UInt32} (h : Running log deadlineMs since armed limit) :
    (∀ now, since.time ≤ now → Haidi.expired (UInt32.ofNat now) deadlineMs = true → armed.tick + limit.toNat ≤ now) ↔
      limit.toNat ≤ 2 ^ 31 + (since.time - armed.tick) := by
  have htime := h.tick_le.trans h.time_le
  have hlimit := limit.toNat_lt
  calc (∀ now, since.time ≤ now → Haidi.expired (UInt32.ofNat now) deadlineMs = true → armed.tick + limit.toNat ≤ now)
    _ ↔ ∀ now : ℕ, since.time ≤ now → Clock.Due halfLap now (armed.tick - 0 + limit.toNat) →
          (armed.tick + limit.toNat : ℤ) ≤ now := by
        refine forall₂_congr fun now _ => imp_congr ?_ ?_
        · rw [sub_zero]
          exact h.due now
        · omega
    _ ↔ ∀ now : ℤ, since.time ≤ now → Clock.Due halfLap now (armed.tick - 0 + limit.toNat) →
          (armed.tick + limit.toNat : ℤ) ≤ now :=
        forall_later (P := fun now => Clock.Due halfLap now (armed.tick - 0 + limit.toNat) → _ ≤ now)
    _ ↔ _ := Clock.not_early_iff (by omega) le_rfl (by change _ < 2 * 2 ^ 31; omega) (by change _ < 2 * 2 ^ 31; omega)
    _ ↔ _ := by
        change _ ∨ _ ∧ _ ≤ 2 ^ 31 + _ ∨ 2 ^ 31 + _ ≤ _ ↔ _
        omega

theorem Running.armed_mem {log : List (Moment × Entry capacity)} {deadlineMs : UInt32} {since armed : Moment}
    {limit : UInt32} (h : Running log deadlineMs since armed limit) :
    ∃ entry, (armed, entry) ∈ log ∧ entry.limit = some limit := by
  obtain ⟨⟨moment, entry⟩, hmem, hentry⟩ := List.exists_of_findSome?_eq_some h.arming
  obtain ⟨_, hlimit, hstamped⟩ := Option.map_eq_some_iff.mp hentry
  obtain ⟨rfl, rfl⟩ := Prod.mk.inj hstamped
  exact ⟨entry, hmem, hlimit⟩

theorem Running.at_start {log : List (Moment × Entry capacity)} {deadlineMs : UInt32} {since armed : Moment}
    {limit : UInt32} (h : Running log deadlineMs since armed limit) : Running log deadlineMs armed armed limit :=
  ⟨h.arming, h.deadline, h.tick_le, le_rfl, le_rfl⟩

/-! ### When a tick acts -/

theorem Timed.acts_iff {env : Env capacity Reaction} {s : Timed capacity} {w : World capacity} {time : ℕ} {c : Call}
    (new : List (Entry capacity)) (hcall : Haidi.call env s.world c = w) (hlog : w.log = new ++ s.world.log) :
    s.Acts env (time, c) ↔ ∃ entry ∈ new, entry.obs.output? ≠ none := by
  rw [Timed.Acts, Timed.call_eq new hcall hlog, Timed.given, List.filterMap_append, Timed.given]
  refine (List.append_left_eq_self.not.trans ?_)
  rw [List.filterMap_eq_nil_iff]
  simp [Option.map_eq_none_iff]

theorem lapse_acts {w : World capacity} (htx : w.bms.txFn ≠ none) :
    ∃ entry past, entry :: past <:+ (lapse (.polling react) w).log ∧ w.log <:+ past ∧ entry.obs.output? ≠ none := by
  have hends : ∀ event, ∃ entry past, entry :: past <:+ (complete (emit (.polling react) w event)).log ∧ w.log <:+ past ∧
      entry.obs.output? ≠ none := fun event =>
    ⟨⟨w.bms, .raised event⟩, w.log, (raised_past _ (polling_past react) w event).trans (complete_past _), List.suffix_rfl, nofun⟩
  unfold lapse
  split_ifs
  · unfold finishMulti
    dsimp only
    split <;> exact hends _
  · exact hends _
  · obtain ⟨fn, hfn⟩ := Option.ne_none_iff_exists'.mp htx
    rw [transmit_wired ((w.note .retrying).modify fun bms => { bms with retries := bms.retries + 1 }) hfn]
    exact ⟨_, (w.note .retrying).log, List.suffix_rfl, List.suffix_cons _ _, nofun⟩
  · exact hends _

theorem Timed.expired_of_acts {s : Timed capacity} {time : ℕ} {nowMs : UInt32}
    (hacts : s.Acts (.polling react) (time, .tick nowMs)) :
    s.world.bms.state = .awaiting ∧ Haidi.expired nowMs s.world.bms.deadlineMs = true := by
  have hcall : Haidi.call (.polling react) s.world (.tick nowMs) = _ := tick_eq (.polling react) s.world nowMs
  split_ifs at hcall with hquiet
  · obtain ⟨entry, hmem, -⟩ := (Timed.acts_iff [] hcall rfl).mp hacts
    cases hmem
  · simpa using hquiet

theorem Timed.acts_of_expired {s : Timed capacity} {time : ℕ} {nowMs : UInt32} (htx : s.world.bms.txFn ≠ none)
    (hstate : s.world.bms.state = .awaiting) (hexpired : Haidi.expired nowMs s.world.bms.deadlineMs = true) :
    s.Acts (.polling react) (time, .tick nowMs) := by
  have hcall : Haidi.call (.polling react) s.world (.tick nowMs) = lapse (.polling react) ((ticked s.world nowMs).note .expired) :=
    (tick_eq (.polling react) s.world nowMs).trans (if_neg (by simp [hstate, hexpired]))
  obtain ⟨entry, past, hentry, hpast, hout⟩ := lapse_acts react (w := (ticked s.world nowMs).note .expired) htx
  obtain ⟨older, rfl⟩ := (List.suffix_cons _ s.world.log).trans hpast
  obtain ⟨newer, hlog⟩ := hentry
  refine (Timed.acts_iff (newer ++ entry :: older) hcall ?_).mpr ⟨entry, ?_, hout⟩
  · rw [← hlog, List.append_assoc]
    rfl
  · exact List.mem_append_right _ List.mem_cons_self

theorem Timed.log_run (env : Env capacity Reaction) (s : Timed capacity) (script : List (ℕ × Call)) :
    s.log <:+ (s.run env script).log := by
  induction script generalizing s with
  | nil => exact List.suffix_rfl
  | cons at' rest ih => exact (List.suffix_append _ _).trans (ih (s.call env at'))

/-- What holds of each tick that acts, where it follows from what holds of each deadline that is set. -/
theorem Timed.Kept.actsWhere {P : Timed capacity → ℕ → Prop} {Q : Moment → UInt32 → Prop} {s : Timed capacity}
    {script : List (ℕ × Call)} (h : s.Kept) (hscript : OnTime s.moment.time script)
    (hset : EverySet Q (s.run (.polling react) script).log)
    (hacts : ∀ s : Timed capacity, ∀ armed limit time, Running s.log s.world.bms.deadlineMs s.moment armed limit →
      Q armed limit → s.moment.time ≤ time → Haidi.expired (UInt32.ofNat time) s.world.bms.deadlineMs = true → P s time) :
    ActsWhere (.polling react) P s script := by
  induction script generalizing s with
  | nil => trivial
  | cons at' rest ih =>
      obtain ⟨time, c⟩ := at'
      obtain ⟨htime, honTime, hrest⟩ := hscript
      refine ⟨fun hkind hactive => ?_, ih (h.call react htime honTime) hrest hset⟩
      cases c with
      | tick nowMs =>
          obtain rfl : nowMs = UInt32.ofNat time := eq_of_beq honTime
          obtain ⟨hstate, hexpired⟩ := Timed.expired_of_acts react hactive
          obtain ⟨armed, limit, hrunning⟩ := h.running hstate
          obtain ⟨entry, hmem, hlimit⟩ := hrunning.armed_mem
          have hlogged := (Timed.log_run (.polling react) s ((time, .tick (UInt32.ofNat time)) :: rest)).subset hmem
          exact hacts s armed limit time hrunning (hset _ hlogged limit hlimit) htime hexpired
      | _ => cases hkind

/-- When no tick acts before `due`, told by when none finds the deadline passed before it. -/
theorem Timed.forall_acts_iff {s : Timed capacity} (due : ℕ) (htx : s.world.bms.txFn ≠ none)
    (hstate : s.world.bms.state = .awaiting) :
    (∀ now, s.moment.time ≤ now → s.Acts (.polling react) (now, .tick (UInt32.ofNat now)) → due ≤ now) ↔
      ∀ now, s.moment.time ≤ now → Haidi.expired (UInt32.ofNat now) s.world.bms.deadlineMs = true → due ≤ now :=
  forall₂_congr fun _ _ =>
    imp_congr_left ⟨fun hacts => (Timed.expired_of_acts react hacts).2, fun h => Timed.acts_of_expired react htx hstate h⟩

/-! ### True time -/

/-- The time that the running deadline allows has gone by since it was set. -/
def NotEarly (s : Timed capacity) (time : ℕ) : Prop := ∃ armed ∈ arming s.log, armed.1.time + armed.2.toNat ≤ time

instance (s : Timed capacity) (time : ℕ) : Decidable (NotEarly s time) :=
  inferInstanceAs (Decidable (∃ armed ∈ arming s.log, _))

/-- The clock is in step with the true time, or behind so far that the deadline, too, is half a lap behind. -/
def InStep (moment : Moment) (limit : UInt32) : Prop :=
  limit.toNat = 0 ∨ moment.lag = 0 ∨ 2 ^ 31 + limit.toNat ≤ moment.lag

instance (moment : Moment) (limit : UInt32) : Decidable (InStep moment limit) := inferInstanceAs (Decidable (_ ∨ _))

/-- Less than half a lap. -/
def Short (_ : Moment) (limit : UInt32) : Prop := limit.toNat < 2 ^ 31

instance (moment : Moment) (limit : UInt32) : Decidable (Short moment limit) := inferInstanceAs (Decidable (_ < _))

/-- A request is made before the first tick, on a clock that has run for a while. -/
def lateFirstTick : List (ℕ × Call) :=
  [(0, .setTxHandler (some 1) 0), (5000000, .poll .rtc none 0), (5000000, .tick 5000000)]

/-- The frame that asks for the time of day. -/
def rtcRequest : MessageBytes := encode .comp .rtc (Vector.replicate dataLen 0)

/-- The time that the running deadline allows has gone by since the tick before it was set. -/
def Honoured (s : Timed capacity) (time : ℕ) : Prop := ∃ armed ∈ arming s.log, armed.1.tick + armed.2.toNat ≤ time

instance (s : Timed capacity) (time : ℕ) : Decidable (Honoured s time) :=
  inferInstanceAs (Decidable (∃ armed ∈ arming s.log, _))

/-- At most half a lap. -/
def HalfLap (_ : Moment) (limit : UInt32) : Prop := limit.toNat ≤ 2 ^ 31

instance (moment : Moment) (limit : UInt32) : Decidable (HalfLap moment limit) := inferInstanceAs (Decidable (_ ≤ _))

/-- A session is told to wait as long as can be said. -/
def longestTimeout : List (ℕ × Call) :=
  [(0, .setTxHandler (some 1) 0), (0, .setResponseTimeoutMs 0xFFFFFFFF), (0, .tick 0), (0, .poll .rtc none 0), (0, .tick 0)]

end Haidi
