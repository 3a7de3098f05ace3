import HaidiBms.Session.Alone

/-!
# The polling example

`poll_loop` reads two identification commands at start-up, and from then on a sweep of seven commands whenever one is due and the session has nothing left to do. What it prints is left out, and so is the port: a turn of its loop is given what the clock and the port read. Here it is run against any clock and any bytes: no request of it is ever refused, and a due sweep is put off by fourteen passed deadlines at most.
-/

namespace Haidi

/-- A turn's clock reading and what was read from the port, if it could be read. -/
structure PollLoop.Turn where
  nowMs : UInt32
  read : Option (List UInt8)

structure PollLoop (capacity : ℕ+) where
  world : World capacity
  nextSweep : UInt32
  /-- The port could not be read, and the loop is over. -/
  broken : Bool := false

namespace PollLoop

variable {capacity : ℕ+}

/-! ### The program -/

def onTx : Ptr := 1
def onEvent : Ptr := 2
def onIdentified : Ptr := 3
def fd : Ptr := 4
def startup : Ptr := 5

/-- Both handlers of the program only print and note what they are given. -/
abbrev env : Env capacity Reaction := .seeing listening

/-- What is polled at start-up, each with the handler that notes it. -/
def identification : List Poll := [.capacityVoltage, .statusInfo]

def sweep : List Poll :=
  [.totalVoltageCurrentSoc, .cellVoltageExtremes, .cellTemperatureExtremes, .chargeDischargeMosStatus, .statusInfo,
    .faultStatus, .batteryStatus]

/-- `main` up to its loop: the clock is read twice. -/
def start (startMs sweepMs : UInt32) : PollLoop capacity where
  world := run env (World.new .comp bmsAddress)
    ([.setTxHandler (some onTx) fd, .setEventHandler (some onEvent) 0, .tick startMs] ++
      identification.map fun method => .poll method (some onIdentified) startup)
  nextSweep := sweepMs

/-- A sweep is due, and nothing is left of the last. -/
def ready (world : World capacity) (nextSweep nowMs : UInt32) : Bool :=
  0 ≤ (nowMs - nextSweep).toInt32 && !world.bms.busy && world.bms.pending == 0

/-- The session after a turn's tick and what it read. -/
def served (s : PollLoop capacity) (nowMs : UInt32) (data : List UInt8) : World capacity :=
  feed env (tick env s.world nowMs) data

/-- One turn of the loop. -/
def turn (intervalMs : UInt32) (s : PollLoop capacity) (t : Turn) : PollLoop capacity :=
  if s.broken then s
  else
    match t.read with
    | none => { s with world := tick env s.world t.nowMs, broken := true }
    | some data =>
        if ready (s.served t.nowMs data) s.nextSweep t.nowMs then
          { s with
            world := run env (s.served t.nowMs data) (sweep.map fun method => .poll method none 0)
            nextSweep := t.nowMs + intervalMs }
        else { s with world := s.served t.nowMs data }

def turns (intervalMs : UInt32) (s : PollLoop capacity) (ts : List Turn) : PollLoop capacity := ts.foldl (turn intervalMs) s

/-- The next turn finds the deadline of the request in flight passed. -/
def overdue (s : PollLoop capacity) (t : Turn) : Bool := !s.broken && s.world.overdueAt t.nowMs

/-- The next turn starts a sweep. -/
def sweeps (s : PollLoop capacity) (t : Turn) : Bool :=
  !s.broken && t.read.any fun data => ready (s.served t.nowMs data) s.nextSweep t.nowMs

/-- How many of the next turns do something. -/
def count (intervalMs : UInt32) (what : PollLoop capacity → Turn → Bool) : PollLoop capacity → List Turn → ℕ
  | _, [] => 0
  | s, t :: ts => (what s t).toNat + count intervalMs what (s.turn intervalMs t) ts

/-- Turns in which nothing is read. -/
def quiet (times : List UInt32) : List Turn := times.map fun nowMs => ⟨nowMs, some []⟩

/-! ### Nothing is refused -/

def Reads (req : Request) : Prop := ∃ method ∈ identification ++ sweep, ∃ fn ctx, req = method.toRequest fn ctx

/-- The program asks for the reads above and leaves the session's limits alone. -/
def manners : Client.Manners where
  allowed := Reads
  known := by
    rintro req ⟨method, hmethod, fn, ctx, rfl⟩
    have hall : ∀ method ∈ identification ++ sweep, isKnownDataId (method.toRequest none 0).id = true := by decide
    have hid : (method.toRequest fn ctx).id = (method.toRequest none 0).id := by
      cases method <;> rfl
    rw [hid]
    exact hall method hmethod
  hostAddress := .comp
  maxRetries := defaultMaxRetries

/-- The session is the client's, which holds a sweep at most. -/
structure Sound (world : World capacity) (c : Client capacity) : Prop where
  sim : Sim false world c
  tidy : c.Tidy
  serves : c.Serves manners
  pending : c.pending ≤ 7

namespace Sound

variable {world : World capacity} {c : Client capacity}

theorem served (h : Sound world c) (nowMs : UInt32) (data : List UInt8) :
    Sound (run env world [.tick nowMs, .feed data]) (c.run listening [.tick nowMs, .feed data]) := by
  have hworks := (Client.Works.served c nowMs data).1
  have hlength := hworks.requests.length_le
  rw [Client.length_requests, Client.length_requests] at hlength
  exact ⟨h.sim.run listening h.tidy _, h.tidy.run listening _, h.serves.stays hworks.toStays, hlength.trans h.pending⟩

theorem polls (h : Sound world c) (methods : List Poll) (fn : Option Ptr) (ctx : Ptr)
    (hreads : ∀ method ∈ methods, method ∈ identification ++ sweep) (hroom : c.pending + methods.length ≤ 7)
    (hcapacity : 7 ≤ (capacity : ℕ)) :
    Sound (run env world (methods.map fun method => .poll method fn ctx))
      (c.run listening (methods.map fun method => .poll method fn ctx)) := by
  obtain ⟨hserves, hpending⟩ := h.serves.asks methods fn ctx
    (fun method hmethod => ⟨method, hreads method hmethod, fn, ctx, rfl⟩) (hroom.trans hcapacity)
  exact ⟨h.sim.run listening h.tidy _, h.tidy.run listening _, hserves, hpending.trans hroom⟩

theorem ready_iff (h : Sound world c) (nextSweep nowMs : UInt32) :
    ready world nextSweep nowMs = true ↔ 0 ≤ (nowMs - nextSweep).toInt32 ∧ c.requests = [] := by
  unfold ready
  rw [Bool.and_eq_true, Bool.and_eq_true, decide_eq_true_eq, beq_iff_eq, Bool.not_eq_true', and_assoc, h.sim.busy]
  refine and_congr_right fun _ => ⟨fun hidle => ?_, fun hnone => ⟨?_, ?_⟩⟩
  · refine List.length_eq_zero_iff.mp ?_
    rw [Client.length_requests, ← h.sim.count]
    exact hidle.2
  · rw [Client.current_of_requests hnone]
    rfl
  · change world.bms.queue.count = 0
    rw [h.sim.count, ← Client.length_requests, hnone]
    rfl

end Sound

theorem Sound.budget_le {world : World capacity} {c : Client capacity} (h : Sound world c) : c.budget ≤ 14 := by
  have hbudget := c.budget_le
  rw [h.serves.maxRetries] at hbudget
  exact hbudget.trans (Nat.mul_le_mul_left 2 h.pending)

theorem start_sound (hcapacity : 7 ≤ (capacity : ℕ)) (startMs sweepMs : UInt32) :
    ∃ c, Sound (@start capacity startMs sweepMs).world c := by
  let setup : List Call := [.setTxHandler (some onTx) fd, .setEventHandler (some onEvent) 0, .tick startMs]
  let fresh : Client capacity := .new .comp bmsAddress
  have htidy : fresh.Tidy := nofun
  have hserves : (fresh.run listening setup).Serves manners :=
    ⟨Option.some_ne_none onTx, rfl, rfl, nofun, nofun, nofun⟩
  have hset : Sound (run env (World.new .comp bmsAddress) setup) (fresh.run listening setup) :=
    ⟨(sim_new .comp bmsAddress).run listening htidy setup, htidy.run listening setup, hserves, Nat.zero_le 7⟩
  have hpolled := hset.polls identification (some onIdentified) startup
    (fun method hmethod => List.mem_append_left _ hmethod) (by decide : 0 + 2 ≤ 7) hcapacity
  have hstart : (@start capacity startMs sweepMs).world = run env (run env (World.new .comp bmsAddress) setup)
      (identification.map fun method => .poll method (some onIdentified) startup) := List.foldl_append
  exact ⟨_, hstart ▸ hpolled⟩

/-- A turn keeps to what the session can take, and a passed deadline uses up something that only a sweep brings. -/
theorem turn_sound (hcapacity : 7 ≤ (capacity : ℕ)) (intervalMs : UInt32) {s : PollLoop capacity} {c : Client capacity}
    (h : Sound s.world c) (t : Turn) :
    ∃ c', Sound (s.turn intervalMs t).world c' ∧
      c'.budget + (s.overdue t).toNat ≤ c.budget + 14 * (s.sweeps t).toNat := by
  obtain ⟨nowMs, read⟩ := t
  unfold turn overdue sweeps
  cases hbroken : s.broken with
  | true => exact ⟨c, h, le_rfl⟩
  | false =>
      rw [if_neg Bool.false_ne_true, Bool.not_false, Bool.true_and, Bool.true_and, h.sim.overdueAt]
      -- A deadline that has passed is acted on, whatever was read.
      have hspent : ∀ data, (c.run listening [.tick nowMs, .feed data]).budget + (c.due nowMs).toNat ≤ c.budget := by
        intro data
        obtain ⟨hworks, hless⟩ := Client.Works.served c nowMs data
        cases hdue : c.due nowMs with
        | false => exact hworks.budget
        | true => exact hless hdue
      cases read with
      | none => exact ⟨_, h.served nowMs [], (hspent []).trans (Nat.le_add_right _ _)⟩
      | some data =>
          have hserved := h.served nowMs data
          dsimp only [Option.any_some]
          cases hready : ready (s.served nowMs data) s.nextSweep nowMs with
          | false => exact ⟨_, hserved, hspent data⟩
          | true =>
              have hnone : (c.run listening [.tick nowMs, .feed data]).requests = [] :=
                ((hserved.ready_iff s.nextSweep nowMs).mp hready).2
              have hpending : (c.run listening [.tick nowMs, .feed data]).pending = 0 := by
                rw [← Client.length_requests, hnone]
                rfl
              have hpolled := hserved.polls sweep none 0 (fun method hmethod => List.mem_append_right _ hmethod)
                (by rw [hpending]; decide) hcapacity
              refine ⟨_, hpolled, ?_⟩
              have hbudget := hpolled.budget_le
              have hbefore := hspent data
              rw [Bool.toNat_true]
              omega

theorem turns_sound (hcapacity : 7 ≤ (capacity : ℕ)) (intervalMs : UInt32) {s : PollLoop capacity} {c : Client capacity}
    (h : Sound s.world c) (ts : List Turn) :
    ∃ c', Sound (s.turns intervalMs ts).world c' ∧
      c'.budget + count intervalMs overdue s ts ≤ c.budget + 14 * count intervalMs sweeps s ts := by
  induction ts generalizing s c with
  | nil => exact ⟨c, h, le_rfl⟩
  | cons t rest ih =>
      obtain ⟨next, hnext, hspent⟩ := turn_sound hcapacity intervalMs h t
      obtain ⟨last, hlast, hspent'⟩ := ih hnext
      refine ⟨last, hlast, ?_⟩
      rw [count, count]
      omega

/-- No request of the program is ever refused or left to more than seven, and it puts nothing on the wire but the reads it means to make. -/
theorem never_refused (hcapacity : 7 ≤ (capacity : ℕ)) (startMs sweepMs intervalMs : UInt32) (ts : List Turn) :
    let world := ((@start capacity startMs sweepMs).turns intervalMs ts).world
    (∀ req status, .answered req status ∈ seen world.log → Reads req ∧ status = .queued) ∧
      (∀ fn ctx frame, .sent fn ctx frame ∈ seen world.log → ∃ req, Reads req ∧ frame = encode .comp req.id req.data) ∧
      world.bms.pending ≤ 7 := by
  intro world
  obtain ⟨_, hstart⟩ := start_sound hcapacity startMs sweepMs
  obtain ⟨c, hsound, -⟩ := turns_sound hcapacity intervalMs hstart ts
  have htrace : seen world.log = c.trace := hsound.sim.trace
  rw [htrace]
  refine ⟨hsound.serves.answered, hsound.serves.sent, ?_⟩
  change world.bms.queue.count ≤ 7
  rw [hsound.sim.count]
  exact hsound.pending

/-- No answer comes. -/
theorem never_refused_unanswered :
    ((@start 24 0 5).turns 1000 [⟨10, some []⟩, ⟨600, some []⟩, ⟨1200, some []⟩]).world.bms.pending ≤ 7 :=
  (never_refused (by decide) 0 5 1000 [⟨10, some []⟩, ⟨600, some []⟩, ⟨1200, some []⟩]).2.2

/-- The program cannot be kept from its sweeps: between two of them fourteen deadlines pass at most, and once they have, the next turn with a sweep due starts it. -/
theorem sweeps_again (hcapacity : 7 ≤ (capacity : ℕ)) (startMs sweepMs intervalMs : UInt32) (before after : List Turn) :
    let s := (@start capacity startMs sweepMs).turns intervalMs before
    count intervalMs overdue s after ≤ 14 * (1 + count intervalMs sweeps s after) ∧
      (count intervalMs overdue s after = 14 → count intervalMs sweeps s after = 0 → ∀ nowMs data,
        (s.turns intervalMs after).sweeps ⟨nowMs, some data⟩ =
          (!(s.turns intervalMs after).broken && decide (0 ≤ (nowMs - (s.turns intervalMs after).nextSweep).toInt32))) := by
  intro s
  obtain ⟨_, hstart⟩ := start_sound hcapacity startMs sweepMs
  obtain ⟨c, hsound, -⟩ := turns_sound hcapacity intervalMs hstart before
  obtain ⟨c', hsound', hspent⟩ := turns_sound hcapacity intervalMs hsound after
  have hbudget := hsound.budget_le
  change c'.budget + count intervalMs overdue s after ≤ _ + 14 * count intervalMs sweeps s after at hspent
  refine ⟨by omega, fun hcount hnone nowMs data => ?_⟩
  let s' := s.turns intervalMs after
  have hidle : c'.requests = [] := Client.idle_of_budget (by omega)
  have hserved := hsound'.served nowMs data
  have hstill : (c'.run listening [.tick nowMs, .feed data]).requests = [] := by
    have hsuffix := (Client.Works.served c' nowMs data).1.requests
    rw [hidle] at hsuffix
    exact List.suffix_nil.mp hsuffix
  have hready : ready (s'.served nowMs data) s'.nextSweep nowMs = decide (0 ≤ (nowMs - s'.nextSweep).toInt32) := by
    rw [Bool.eq_iff_iff, decide_eq_true_eq]
    exact (hserved.ready_iff s'.nextSweep nowMs).trans (and_iff_left hstill)
  exact congrArg _ hready

/-- No answer comes, a sweep has started at the fourth second, and the next is due a minute later. -/
theorem sweeps_again_unanswered :
    (((@start 24 0 5).turns 60000 (quiet [1000, 2000, 3000, 4000])).turns 60000
      (quiet ((List.range 14).map fun i => 5000 + 1000 * .ofNat i))).sweeps ⟨64000, some []⟩ = true := by
  let s : PollLoop 24 := (start 0 5).turns 60000 (quiet [1000, 2000, 3000, 4000])
  let after := quiet ((List.range 14).map fun i => 5000 + 1000 * .ofNat i)
  have hcount : count 60000 overdue s after = 14 := by decide +kernel
  have hnone : count 60000 sweeps s after = 0 := by decide +kernel
  have hagain := (sweeps_again (by decide) 0 5 60000 (quiet [1000, 2000, 3000, 4000]) after).2 hcount hnone 64000 []
  have hdue : (!(s.turns 60000 after).broken && decide (0 ≤ ((64000 : UInt32) - (s.turns 60000 after).nextSweep).toInt32)) = true := by
    decide +kernel
  exact hagain.trans hdue

end PollLoop

end Haidi
