import HaidiBms.Hosts.DumpAll
import HaidiBms.Session.Tags

/-!
# What the dumping example prints

Whatever the pack, the line and the signals do, the program asks for what is on its schedule and in its order, with one request pending at most; each line it prints belongs to the command whose label it has printed last.
-/

namespace Haidi

namespace DumpAll

variable {capacity : ℕ+}

/-! ### What shows -/

def asked? : Obs → Option Request
  | .answered req _ => some req
  | _ => none

/-- What has been asked for, newest first. -/
def asked (trace : List Obs) : List Request := trace.filterMap asked?

/-- The handler prints an event. -/
def isPrinted : Obs → Bool
  | .invoked (.sessionWide _ _) _ => true
  | _ => false

/-- An event is shown under the label of its own command, unless it turns something away. -/
def InItsPlace (past : List Obs) (obs : Obs) : Prop :=
  ∀ handler event, obs = .invoked handler event →
    event.isRejection = true ∨ ∃ req, (asked past).head? = some req ∧ event.id = req.id

section Shown

variable {c : Client capacity} {stretch : List Obs}

theorem asked_shown (hshown : ∀ obs ∈ stretch, c.Shows obs) (past : List Obs) : asked (stretch ++ past) = asked past := by
  have hnone : stretch.filterMap asked? = [] := by
    refine List.filterMap_eq_nil_iff.mpr fun obs hobs => ?_
    have := hshown obs hobs
    cases obs with
    | answered req status => exact this.elim
    | _ => rfl
  rw [asked, List.filterMap_append, hnone]
  rfl

theorem inItsPlace_shown {past : List Obs} (h : History.Everywhere InItsPlace past) (hlast : c.requests <:+ (asked past).head?.toList)
    (hshown : ∀ obs ∈ stretch, c.Shows obs) : History.Everywhere InItsPlace (stretch ++ past) := by
  induction stretch with
  | nil => exact h
  | cons obs rest ih =>
      have hrest : ∀ obs ∈ rest, c.Shows obs := fun obs hobs => hshown obs (List.mem_cons_of_mem _ hobs)
      rw [List.cons_append]
      refine ⟨?_, ih hrest⟩
      rintro handler event rfl
      have hconcerns : c.Concerns event := hshown _ List.mem_cons_self
      refine hconcerns.imp_right fun ⟨req, hreq, hid⟩ => ⟨req, ?_, hid⟩
      rw [asked_shown hrest]
      exact Option.mem_toList.mp (hlast.subset hreq)

/-- The handler counts an event more, and knows how to print it. -/
theorem onEvent_counts (tally : Tally) {event : Event} (hevent : event.isRejection = true ∨ isKnownDataId event.id = true) :
    (tally.onEvent event).undecoded = tally.undecoded ∧ (tally.onEvent event).thisProbe = tally.thisProbe + 1 := by
  unfold Tally.onEvent
  dsimp only
  cases hkind : event.kind with
  | response =>
      have hknown : isKnownDataId event.id = true := by
        rcases hevent with hrejection | hknown
        · rw [Event.isRejection, hkind] at hrejection
          cases hrejection
        · exact hknown
      rw [if_neg (by rw [Option.isNone_iff_eq_none, printPayload_carried hkind]; exact carried_known hknown)]
      exact ⟨rfl, rfl⟩
  | timeout => exact ⟨rfl, rfl⟩
  | protocolError => exact ⟨rfl, rfl⟩

theorem counts_shown (hknown : ∀ req ∈ c.requests, isKnownDataId req.id = true) (hshown : ∀ obs ∈ stretch, c.Shows obs)
    (past : List Obs) :
    (Tally.of (stretch ++ past)).undecoded = (Tally.of past).undecoded ∧
      (Tally.of (stretch ++ past)).thisProbe =
        (Tally.of past).thisProbe + stretch.countP isPrinted := by
  induction stretch with
  | nil => exact ⟨rfl, rfl⟩
  | cons obs rest ih =>
      obtain ⟨hundecoded, hprobe⟩ := ih fun obs hobs => hshown obs (List.mem_cons_of_mem _ hobs)
      have hobs := hshown obs List.mem_cons_self
      rw [List.cons_append]
      cases obs with
      | answered req status => exact hobs.elim
      | invoked handler event =>
          cases handler with
          | perRequest fn ctx => exact ⟨hundecoded, hprobe⟩
          | sessionWide fn ctx =>
              have hevent : event.isRejection = true ∨ isKnownDataId event.id = true :=
                hobs.imp_right fun ⟨req, hreq, hid⟩ => hid ▸ hknown req hreq
              obtain ⟨hsame, hmore⟩ := onEvent_counts (Tally.of (rest ++ past)) hevent
              refine ⟨hsame.trans hundecoded, hmore.trans ?_⟩
              rw [hprobe, List.countP_cons_of_pos rfl, Nat.add_assoc]
      | _ => exact ⟨hundecoded, hprobe⟩

end Shown

/-! ### The session between two probes and during one -/

/-- The program asks for what is on its schedule. -/
def manners (opt : Options) : Client.Manners where
  allowed := fun req => ∃ id ∈ buildSchedule opt, ∃ method, opt.method id = some method ∧ req = method.toRequest none 0
  known := by
    rintro req ⟨id, hid, method, hmethod, rfl⟩
    have hmem := (buildSchedule_sublist opt).subset hid
    obtain ⟨method', hmethod', hsame, -⟩ := method_everything opt hmem
    obtain rfl := Option.some.inj (hmethod.symm.trans hmethod')
    rw [hsame]
    exact ((mem_everything id).mp hmem).1
  hostAddress := opt.hostAddress
  maxRetries := opt.retries.toUInt8

/-- The session is the client's, which holds the request asked for last at most. -/
structure Held (opt : Options) (world : World capacity) (c : Client capacity) : Prop where
  sim : Sim false world c
  tidy : c.Tidy
  serves : c.Serves (manners opt)
  handler : c.eventFn = some onEvent
  last : c.requests <:+ (asked c.trace).head?.toList
  inPlace : History.Everywhere InItsPlace c.trace
  undecoded : (Tally.of c.trace).undecoded = 0

/-- A request that is done with was a stream, or something was printed about it. -/
def Heard (c : Client capacity) : Prop :=
  c.requests = [] →
    (asked c.trace).head?.map Request.id = some .faultRecords ∨ 0 < (Tally.of c.trace).thisProbe

namespace Held

variable {opt : Options} {world world' : World capacity} {c c' : Client capacity}

theorem known (h : Held opt world c) : ∀ req ∈ c.requests, isKnownDataId req.id = true := fun req hreq =>
  (manners opt).known req (h.serves.requests req hreq)

theorem stays (h : Held opt world c) (hsim : Sim false world' c') (htidy : c'.Tidy) (hstays : Client.Stays c c') :
    Held opt world' c' ∧ asked c'.trace = asked c.trace := by
  obtain ⟨stretch, htrace, hshown⟩ := hstays.trace
  have hasked : asked c'.trace = asked c.trace := by
    rw [htrace]
    exact asked_shown hshown _
  refine ⟨⟨hsim, htidy, h.serves.stays hstays, hstays.eventFn.trans h.handler, ?_, ?_, ?_⟩, hasked⟩
  · rw [hasked]
    exact hstays.requests.trans h.last
  · rw [htrace]
    exact inItsPlace_shown h.inPlace h.last hshown
  · rw [htrace]
    exact (counts_shown h.known hshown _).1.trans h.undecoded

theorem heard (h : Held opt world c) (hheard : Heard c) (hworks : Client.Works c c') : Heard c' := by
  intro hdone
  obtain ⟨stretch, htrace, hshown⟩ := hworks.trace
  obtain ⟨stretch', htrace', htold⟩ := hworks.told
  obtain rfl : stretch' = stretch := List.append_cancel_right (htrace'.symm.trans htrace)
  rw [htrace, asked_shown hshown, (counts_shown h.known hshown _).2]
  cases hrequests : c.requests with
  | nil => exact (hheard hrequests).imp_right fun hpos => Nat.lt_add_right _ hpos
  | cons req rest =>
      rcases htold req rest hrequests with hsame | hstream | ⟨event, -, -, hinvoked⟩
      · rw [hdone, hrequests] at hsame
        cases hsame
      · have hlast : (asked c.trace).head? = some req :=
          Option.mem_toList.mp (h.last.subset (hrequests ▸ List.mem_cons_self))
        rw [hlast]
        exact Or.inl (congrArg some hstream)
      · exact Or.inr (Nat.add_pos_right _ (List.countP_pos_iff.mpr ⟨_, hinvoked onEvent h.handler, rfl⟩))

theorem pump (h : Held opt world c) (t : Turn) :
    ∃ c', Held opt (pump world t).1 c' ∧ asked c'.trace = asked c.trace ∧ Client.Works c c' := by
  have hworks := (Client.Works.served c t.nowMs (t.read.getD [])).1
  have hsim := h.sim.run listening h.tidy [.tick t.nowMs, .feed (t.read.getD [])]
  have hpump : (DumpAll.pump world t).1 = run env world [.tick t.nowMs, .feed (t.read.getD [])] := by
    unfold DumpAll.pump
    cases t.read <;> rfl
  rw [hpump]
  obtain ⟨hheld, hasked⟩ := h.stays hsim (h.tidy.run listening _) hworks.toStays
  exact ⟨_, hheld, hasked, hworks⟩

theorem reset (h : Held opt world c) : Held opt (reset world) c.clear ∧ asked c.clear.trace = asked c.trace :=
  h.stays h.sim.reset nofun (Client.Works.clear c)

theorem ask (h : Held opt world c) (hidle : c.requests = []) {req : Request} (hallowed : (manners opt).allowed req) :
    (enqueue world req).2 = .queued ∧ Held opt (enqueue world req).1 (c.ask false req) ∧ (c.ask false req).requests = [req] ∧
      asked (c.ask false req).trace = req :: asked c.trace := by
  have hknown := (manners opt).known req hallowed
  have hpending : c.pending = 0 := by
    rw [← Client.length_requests, hidle]
    rfl
  have hroom : c.pending < capacity := hpending ▸ capacity.pos
  have hstatus : (enqueue world req).2 = .queued := by
    have hwired : world.bms.txFn ≠ none := fun hnone =>
      h.serves.wired ((congrArg Setup.txFn h.sim.setup).symm.trans hnone)
    unfold enqueue
    rw [if_neg hwired, if_neg (by rw [hknown]; decide), dif_pos (h.sim.count ▸ hroom)]
  let queued : Client capacity := { c.note (.answered req .queued) with waiting := c.waiting ++ [req] }
  have hask : c.ask false req = queued.start := by
    unfold Client.ask
    rw [if_neg h.serves.wired, if_neg (by rw [hknown]; decide), if_pos hroom]
    rfl
  have hrequests : queued.requests = [req] := by
    have happended : queued.requests = c.requests ++ [req] := (List.append_assoc _ _ _).symm
    rw [happended, hidle]
    rfl
  have hfresh : ∀ other ∈ queued.requests, isKnownDataId other.id = true := by
    rw [hrequests]
    rintro other hother
    rw [List.mem_singleton.mp hother]
    exact hknown
  have hplaced : History.Everywhere InItsPlace queued.trace := by
    change InItsPlace c.trace (.answered req .queued) ∧ History.Everywhere InItsPlace c.trace
    refine ⟨fun _ _ hobs => ?_, h.inPlace⟩
    cases hobs
  have hcounted : (Tally.of queued.trace).undecoded = 0 := by
    change (Tally.of (.answered req .queued :: c.trace)).undecoded = 0
    rw [Tally.of_answered]
    exact h.undecoded
  have hstart := Client.Works.start queued
  obtain ⟨stretch, htrace, hshown⟩ := hstart.trace
  have hasked : asked queued.start.trace = req :: asked c.trace := by
    rw [htrace, asked_shown hshown]
    rfl
  have hlast : queued.requests <:+ (asked queued.trace).head?.toList := hrequests ▸ List.suffix_rfl
  refine ⟨hstatus, ⟨h.sim.enqueue req, ?_, (h.serves.ask hallowed hroom).1, ?_, ?_, ?_, ?_⟩, ?_, ?_⟩ <;> rw [hask]
  · exact Client.Tidy.start (c := queued) h.tidy
  · exact hstart.eventFn.trans h.handler
  · rw [hasked, Client.Works.requests_start, hrequests]
    exact List.suffix_rfl
  · rw [htrace]
    exact inItsPlace_shown hplaced hlast hshown
  · rw [htrace]
    exact (counts_shown hfresh hshown _).1.trans hcounted
  · rw [Client.Works.requests_start, hrequests]
  · exact hasked

theorem issue (h : Held opt world c) (hidle : c.requests = []) {id : DataId} (hid : id ∈ buildSchedule opt) :
    (issue world id opt).2 = .queued ∧ ∃ c', Held opt (issue world id opt).1 c' ∧ c'.requests ≠ [] ∧
      (asked c'.trace).map Request.id = id :: (asked c.trace).map Request.id := by
  obtain ⟨method, hmethod, hsame, -⟩ := method_everything opt ((buildSchedule_sublist opt).subset hid)
  obtain ⟨hstatus, hheld, hrequests, hasked⟩ := h.ask hidle ⟨id, hid, method, hmethod, rfl⟩
  unfold DumpAll.issue
  rw [hmethod]
  refine ⟨hstatus, _, hheld, ?_, ?_⟩
  · rw [hrequests]
    exact List.cons_ne_nil _ _
  · rw [hasked, List.map_cons, hsame]

end Held

/-! ### Turns -/

/-- What is so of the number of probes issued in the running sweep. -/
def Phase.Issued (phase : Phase) (k : ℕ) : Prop :=
  match phase with
  | .starting | .resting _ => k = 0
  | .issuing i => k = i
  | .waiting i _ => k = i + 1
  | .ended _ => True

/-- The program goes on, and waits for no probe. -/
def Phase.isBetween : Phase → Bool
  | .starting | .issuing _ | .resting _ => true
  | _ => false

/-- What has been asked for is some sweeps of the schedule and the first probes of another. -/
def Swept (opt : Options) (requests : List Request) (issued : ℕ → Prop) : Prop :=
  ∃ sweeps k, (requests.map Request.id).reverse =
    (List.replicate sweeps (buildSchedule opt)).flatten ++ (buildSchedule opt).take k ∧ issued k

structure Sound (opt : Options) (s : DumpAll capacity) (c : Client capacity) : Prop extends Held opt s.world c where
  /-- Only a signal makes the program leave a probe that is not done with. -/
  idle : s.stop = false → s.phase.isBetween = true → c.requests = []
  swept : Swept opt (asked c.trace) fun k => s.stop = false → s.phase.Issued k
  probe : ∀ i guard, s.phase = .waiting i guard →
    (asked c.trace).head?.map Request.id = (buildSchedule opt)[i]? ∧ Heard c

namespace Swept

variable {opt : Options} {requests requests' : List Request} {issued issued' : ℕ → Prop}

theorem mono (h : Swept opt requests issued) (himp : ∀ k, issued k → issued' k) : Swept opt requests issued' := by
  obtain ⟨sweeps, k, hrequests, hissued⟩ := h
  exact ⟨sweeps, k, hrequests, himp k hissued⟩

theorem issue {i : ℕ} (h : Swept opt requests (· = i)) (hi : i < (buildSchedule opt).length)
    (hrequests : requests'.map Request.id = (buildSchedule opt).get ⟨i, hi⟩ :: requests.map Request.id) :
    Swept opt requests' (· = i + 1) := by
  obtain ⟨sweeps, k, hbefore, rfl⟩ := h
  refine ⟨sweeps, k + 1, ?_, rfl⟩
  rw [hrequests, List.reverse_cons, hbefore, List.append_assoc, List.take_succ_eq_append_getElem hi]
  rfl

theorem finish {i : ℕ} (h : Swept opt requests (· = i)) (hi : (buildSchedule opt).length ≤ i) : Swept opt requests (· = 0) := by
  obtain ⟨sweeps, k, hbefore, rfl⟩ := h
  refine ⟨sweeps + 1, 0, ?_, rfl⟩
  rw [hbefore, List.take_of_length_le hi, List.replicate_succ', List.flatten_append, List.flatten_singleton, List.take_zero,
    List.append_nil]

end Swept

namespace Sound

variable {opt : Options} {s : DumpAll capacity} {c : Client capacity}

theorem signalled (h : Sound opt s c) (signal : Bool) : Sound opt { s with stop := s.stop || signal } c := by
  have hstop : (s.stop || signal) = false → s.stop = false := fun hnone => (Bool.or_eq_false_iff.mp hnone).1
  exact ⟨h.toHeld, fun hnone => h.idle (hstop hnone), h.swept.mono fun k hk hnone => hk (hstop hnone), h.probe⟩

theorem sweepOver (h : Sound opt s c) (hbetween : s.phase.isBetween = true)
    (hend : s.stop = false → Swept opt (asked c.trace) (· = 0)) : Sound opt (sweepOver opt s) c := by
  have hswept : Swept opt (asked c.trace) fun k => s.stop = false → k = 0 := by
    cases hstop : s.stop with
    | false => exact (hend hstop).mono fun k hk _ => hk
    | true => exact h.swept.mono fun k _ hnone => nomatch hnone
  unfold DumpAll.sweepOver
  split_ifs
  · exact ⟨h.toHeld, fun hnone _ => h.idle hnone hbetween, hswept, nofun⟩
  · exact ⟨h.toHeld, fun hnone _ => h.idle hnone hbetween, hswept, nofun⟩

/-- A probe has nothing left to wait for. -/
theorem settled (h : Sound opt s c) (hsettled : (s.world.bms.busy || 0 < s.world.bms.pending) = false) : c.requests = [] := by
  rw [Bool.or_eq_false_iff, decide_eq_false_iff_not, Nat.pos_iff_ne_zero, not_not] at hsettled
  refine List.length_eq_zero_iff.mp ?_
  rw [Client.length_requests, ← h.sim.count]
  exact hsettled.2

theorem issuing (h : Sound opt s c) {i : ℕ} (hphase : s.phase = .issuing i) (hi : i < (buildSchedule opt).length)
    (hstop : s.stop = false) (guard : UInt32) :
    (issue s.world ((buildSchedule opt).get ⟨i, hi⟩) opt).2 = .queued ∧
      ∃ c', Sound opt
        { s with world := (issue s.world ((buildSchedule opt).get ⟨i, hi⟩) opt).1, phase := .waiting i guard } c' := by
  have hidle : c.requests = [] := h.idle hstop (by rw [hphase]; rfl)
  obtain ⟨hstatus, c', hheld, hnonempty, hasked⟩ := h.toHeld.issue hidle (List.get_mem (buildSchedule opt) ⟨i, hi⟩)
  have hswept : Swept opt (asked c'.trace) (· = i + 1) := by
    refine Swept.issue (h.swept.mono fun k hk => ?_) hi hasked
    have := hk hstop
    rw [hphase] at this
    exact this
  refine ⟨hstatus, c', hheld, nofun, hswept.mono fun k hk _ => hk, ?_⟩
  rintro j guard' ⟨⟩
  refine ⟨?_, fun hnone => absurd hnone hnonempty⟩
  rw [← List.head?_map, hasked, List.head?_cons, List.getElem?_eq_getElem hi]
  rfl

theorem waiting (h : Sound opt s c) {i : ℕ} {guard : UInt32} (hphase : s.phase = .waiting i guard) (t : Turn) :
    ∃ c', Held opt (pump s.world t).1 c' ∧ (Swept opt (asked c'.trace) fun k => s.stop = false → k = i + 1) ∧
      (asked c'.trace).head?.map Request.id = (buildSchedule opt)[i]? ∧ Heard c' := by
  obtain ⟨c', hheld, hasked, hworks⟩ := h.toHeld.pump t
  obtain ⟨hprobe, hheard⟩ := h.probe i guard hphase
  have hswept := h.swept
  rw [hphase, ← hasked] at hswept
  rw [← hasked] at hprobe
  exact ⟨c', hheld, hswept, hprobe, h.toHeld.heard hheard hworks⟩

theorem resting (h : Sound opt s c) {waited : UInt32} (hphase : s.phase = .resting waited) (t : Turn) :
    ∃ c', Held opt (pump s.world t).1 c' ∧ (Swept opt (asked c'.trace) fun k => s.stop = false → k = 0) ∧
      (s.stop = false → c'.requests = []) := by
  obtain ⟨c', hheld, hasked, hworks⟩ := h.toHeld.pump t
  have hswept := h.swept
  rw [hphase, ← hasked] at hswept
  refine ⟨c', hheld, hswept, fun hstop => ?_⟩
  have hidle : c.requests = [] := h.idle hstop (by rw [hphase]; rfl)
  exact List.suffix_nil.mp (hidle ▸ hworks.requests)

/-- One turn, by where the program is. -/
theorem advance (h : Sound opt s c) (t : Turn) : ∃ c', Sound opt (advance opt s t) c' := by
  unfold DumpAll.advance
  cases hphase : s.phase with
  | starting =>
      have hswept := h.swept
      rw [hphase] at hswept
      have hidle : s.stop = false → c.requests = [] := fun hstop => h.idle hstop (by rw [hphase]; rfl)
      dsimp only
      split_ifs
      · exact ⟨c, h.toHeld, fun hstop _ => hidle hstop, hswept, nofun⟩
      · exact ⟨c, h.toHeld, nofun, hswept.mono fun k _ _ => trivial, nofun⟩
  | issuing i =>
      have hswept := h.swept
      rw [hphase] at hswept
      dsimp only
      split_ifs with hmore hqueued
      · exact (h.issuing hphase hmore.1 hmore.2 _).2
      · exact absurd (h.issuing hphase hmore.1 hmore.2 0).1 hqueued
      · refine ⟨c, h.sweepOver (by rw [hphase]; rfl) fun hstop => ?_⟩
        exact Swept.finish (hswept.mono fun k hk => hk hstop) (not_lt.mp fun hlt => hmore ⟨hlt, hstop⟩)
  | waiting i guard =>
      dsimp only
      split_ifs with hbusy hbroken hstop hguard
      · obtain ⟨c', hheld, hswept, hprobe, hheard⟩ := h.waiting hphase t
        exact ⟨c', hheld, nofun, hswept.mono fun k _ _ => trivial, nofun⟩
      · obtain ⟨c', hheld, hswept, hprobe, hheard⟩ := h.waiting hphase t
        exact ⟨c', hheld, fun hgoing => absurd (hstop.symm.trans hgoing) nofun, hswept, nofun⟩
      · obtain ⟨c', hheld, hswept, hprobe, hheard⟩ := h.waiting hphase t
        obtain ⟨hreset, hasked⟩ := hheld.reset
        exact ⟨c'.clear, hreset, fun _ _ => rfl, hasked ▸ hswept, nofun⟩
      · obtain ⟨c', hheld, hswept, hprobe, hheard⟩ := h.waiting hphase t
        refine ⟨c', hheld, nofun, hswept, ?_⟩
        rintro j guard' ⟨⟩
        exact ⟨hprobe, hheard⟩
      · have hswept := h.swept
        rw [hphase] at hswept
        have hdone : c.requests = [] := h.settled (Bool.not_eq_true _ ▸ hbusy)
        exact ⟨c, h.toHeld, fun _ _ => hdone, hswept, nofun⟩
  | resting waited =>
      dsimp only
      split_ifs
      · obtain ⟨c', hheld, hswept, hidle⟩ := h.resting hphase t
        exact ⟨c', hheld, fun hstop _ => hidle hstop, hswept, nofun⟩
      · obtain ⟨c', hheld, hswept, hidle⟩ := h.resting hphase t
        exact ⟨c', hheld, fun hstop _ => hidle hstop, hswept, nofun⟩
      · have hswept := h.swept
        rw [hphase] at hswept
        have hidle : s.stop = false → c.requests = [] := fun hstop => h.idle hstop (by rw [hphase]; rfl)
        exact ⟨c, h.toHeld, fun hstop _ => hidle hstop, hswept, nofun⟩
  | ended ok => exact ⟨c, h⟩

theorem turns (h : Sound opt s c) (ts : List Turn) : ∃ c', Sound opt (turns opt s ts) c' := by
  induction ts generalizing s c with
  | nil => exact ⟨c, h⟩
  | cons t rest ih =>
      obtain ⟨c', hnext⟩ := (h.signalled t.signal).advance t
      exact ih hnext

end Sound

theorem start_sound (opt : Options) (startMs : UInt32) : ∃ c, Sound opt (@start capacity opt startMs) c := by
  let setup : List Call :=
    [.setTxHandler (some onTx) fd, .setEventHandler (some onEvent) tally, .setResponseTimeoutMs opt.responseTimeoutMs,
      .setInterframeTimeoutMs opt.interframeTimeoutMs, .setMaxRetries opt.retries.toUInt8, .tick startMs]
  let fresh : Client capacity := .new opt.hostAddress bmsAddress
  have htidy : fresh.Tidy := nofun
  have hserves : (fresh.run listening setup).Serves (manners opt) :=
    ⟨Option.some_ne_none onTx, rfl, rfl, nofun, nofun, nofun⟩
  have hheld : Held opt (start opt startMs).world (fresh.run listening setup) :=
    ⟨(sim_new opt.hostAddress bmsAddress).run listening htidy setup, htidy.run listening setup, hserves, rfl,
      List.suffix_rfl, trivial, rfl⟩
  exact ⟨_, hheld, fun _ _ => rfl, ⟨0, 0, rfl, fun _ => rfl⟩, nofun⟩

/-! ### The results -/

theorem sound (opt : Options) (startMs : UInt32) (ts : List Turn) :
    ∃ c, Sound opt ((@start capacity opt startMs).turns opt ts) c := by
  obtain ⟨c, h⟩ := @start_sound capacity opt startMs
  exact h.turns ts

/-- The program asks for what is on its schedule and in its order, sweep after sweep; no request is refused, one is pending at most, and nothing goes on the wire but reads that are on the schedule. -/
theorem asks_in_order (opt : Options) (startMs : UInt32) (ts : List Turn) :
    let world := ((@start capacity opt startMs).turns opt ts).world
    (∃ sweeps, ((asked (seen world.log)).map Request.id).reverse <+: (List.replicate sweeps (buildSchedule opt)).flatten) ∧
      (∀ req status, .answered req status ∈ seen world.log → status = .queued) ∧
      (∀ fn ctx frame, .sent fn ctx frame ∈ seen world.log →
        ∃ id ∈ buildSchedule opt, frame = encode opt.hostAddress id (Vector.replicate dataLen 0)) ∧
      world.bms.pending ≤ 1 := by
  intro world
  obtain ⟨c, h⟩ := @sound capacity opt startMs ts
  have htrace : seen world.log = c.trace := h.sim.trace
  rw [htrace]
  refine ⟨?_, fun req status hmem => (h.serves.answered req status hmem).2, fun fn ctx frame hmem => ?_, ?_⟩
  · obtain ⟨sweeps, k, hasked, -⟩ := h.swept
    refine ⟨sweeps + 1, ?_⟩
    rw [hasked, List.replicate_succ', List.flatten_append, List.flatten_singleton]
    exact List.prefix_append_right_inj _ |>.mpr (List.take_prefix k _)
  · obtain ⟨req, ⟨id, hid, method, hmethod, rfl⟩, hframe⟩ := h.serves.sent fn ctx frame hmem
    obtain ⟨method', hmethod', hsame, hdata⟩ := method_everything opt ((buildSchedule_sublist opt).subset hid)
    obtain rfl := Option.some.inj (hmethod.symm.trans hmethod')
    rw [hsame, hdata] at hframe
    exact ⟨id, hid, hframe⟩
  · change world.bms.queue.count ≤ 1
    rw [h.sim.count, ← Client.length_requests]
    refine h.last.length_le.trans ?_
    rw [Option.length_toList]
    split_ifs <;> omega

/-- Every line stands under the label of its own command, unless it reports something turned away; no reply is without a printer; and a probe that was waited for to its end without a line was a stream that held no record. -/
theorem prints_in_place (opt : Options) (startMs : UInt32) (ts : List Turn) :
    let s := (@start capacity opt startMs).turns opt ts
    History.Everywhere InItsPlace (seen s.world.log) ∧ (Tally.of (seen s.world.log)).undecoded = 0 ∧
      ∀ i guard, s.phase = .waiting i guard → (s.world.bms.busy || 0 < s.world.bms.pending) = false →
        (Tally.of (seen s.world.log)).thisProbe = 0 → (buildSchedule opt)[i]? = some .faultRecords := by
  intro s
  obtain ⟨c, h⟩ := @sound capacity opt startMs ts
  have htrace : seen s.world.log = c.trace := h.sim.trace
  rw [htrace]
  refine ⟨h.inPlace, h.undecoded, fun i guard hphase hsettled hnone => ?_⟩
  obtain ⟨hprobe, hheard⟩ := h.probe i guard hphase
  rcases hheard (h.settled hsettled) with hstream | hpos
  · exact hprobe.symm.trans hstream
  · exact absurd hnone hpos.ne'

theorem advance_run (opt : Options) (s : DumpAll capacity) (t : Turn) :
    ∃ calls, (advance opt s t).world = run env s.world calls := by
  have hissue : ∀ id, ∃ calls, (issue s.world id opt).1 = run env s.world calls := by
    intro id
    unfold issue
    cases opt.method id with
    | none => exact ⟨[], rfl⟩
    | some method => exact ⟨[.poll method none 0], rfl⟩
  have hpump : ∃ calls, (pump s.world t).1 = run env s.world calls := by
    unfold pump
    cases t.read with
    | none => exact ⟨[.tick t.nowMs], rfl⟩
    | some data => exact ⟨[.tick t.nowMs, .feed data], rfl⟩
  unfold advance
  cases s.phase with
  | starting =>
      dsimp only
      split_ifs <;> exact ⟨[], rfl⟩
  | issuing i =>
      dsimp only
      split_ifs
      · exact hissue _
      · exact hissue _
      · unfold sweepOver
        split_ifs <;> exact ⟨[], rfl⟩
  | waiting i guard =>
      dsimp only
      split_ifs
      · exact hpump
      · exact hpump
      · obtain ⟨calls, hcalls⟩ := hpump
        refine ⟨calls ++ [.reset], ?_⟩
        rw [run_append, ← hcalls]
        rfl
      · exact hpump
      · exact ⟨[], rfl⟩
  | resting waited =>
      dsimp only
      split_ifs
      · exact hpump
      · exact hpump
      · exact ⟨[], rfl⟩
  | ended ok => exact ⟨[], rfl⟩

theorem turns_run (opt : Options) (s : DumpAll capacity) (ts : List Turn) :
    ∃ calls, (s.turns opt ts).world = run env s.world calls := by
  induction ts generalizing s with
  | nil => exact ⟨[], rfl⟩
  | cons t rest ih =>
      obtain ⟨first, hfirst⟩ := advance_run opt { s with stop := s.stop || t.signal } t
      obtain ⟨later, hlater⟩ := ih (turn opt s t)
      refine ⟨first ++ later, hlater.trans ?_⟩
      rw [run_append]
      exact congrArg (run env · later) hfirst

/-- A reply that is raised is printed as the member that was decoded. -/
def PrintsDecoded (_ : List (Entry capacity)) (entry : Entry capacity) : Prop :=
  ∀ event, entry.obs = .raised event → event.kind = .response → printPayload event = some event.payload.member

/-- Of each reply the program prints the member of the payload that was decoded, and no other. -/
theorem prints_decoded (opt : Options) (startMs : UInt32) (ts : List Turn) :
    History.Everywhere PrintsDecoded ((@start capacity opt startMs).turns opt ts).world.log := by
  obtain ⟨calls, hcalls⟩ := turns_run opt (@start capacity opt startMs) ts
  have hworld : ((@start capacity opt startMs).turns opt ts).world =
      run (.nested (fun _ _ _ => []) 0) (World.new opt.hostAddress bmsAddress)
        ([.setTxHandler (some onTx) fd, .setEventHandler (some onEvent) tally, .setResponseTimeoutMs opt.responseTimeoutMs,
          .setInterframeTimeoutMs opt.interframeTimeoutMs, .setMaxRetries opt.retries.toUInt8, .tick startMs] ++ calls) := by
    rw [← run_listening, run_append]
    exact hcalls
  rw [hworld]
  refine (run_raises_sound _ 0 _ _ _).mono fun past entry hsound event hobs hkind => ?_
  rw [printPayload_carried hkind]
  exact carried_sound (hsound event hobs) hkind

end DumpAll

end Haidi
