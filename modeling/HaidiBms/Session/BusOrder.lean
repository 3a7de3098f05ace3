import HaidiBms.Session.Refinement

/-!
# The order of the bus

Between two resets the frames on the wire are the accepted requests, in order, each repeated as often as it was retried. The ledger's permission for each frame makes it so: a request is sent while it is the oldest that has not ended, and it is given the bus only after the one before it has ended.
-/

namespace Haidi

variable {capacity : ℕ+}

/-! ### What a stretch of the log accepts, sends and ends, oldest first -/

def Entry.acceptedRequest? (entry : Entry capacity) : Option Request :=
  match entry.obs with
  | .answered req .queued => some req
  | _ => none

def Entry.sentFrame? (entry : Entry capacity) : Option MessageBytes :=
  match entry.obs with
  | .sent _ _ frame => some frame
  | _ => none

/-- A request on the bus ends here. -/
def Entry.isEnding (entry : Entry capacity) : Bool :=
  match entry.obs with
  | .raised event => event.isTerminal
  | .streamEnded => true
  | _ => false

def acceptedRequests (log : List (Entry capacity)) : List Request := (log.filterMap Entry.acceptedRequest?).reverse

def sentFrames (log : List (Entry capacity)) : List MessageBytes := (log.filterMap Entry.sentFrame?).reverse

def endings (log : List (Entry capacity)) : Nat := log.countP Entry.isEnding

/-- A stretch of the log from construction or a reset on. -/
structure SinceReset (epoch earlier : List (Entry capacity)) : Prop where
  noReset : ∀ entry ∈ epoch, entry.obs ≠ .reset
  start : earlier = [] ∨ ∃ entry rest, earlier = entry :: rest ∧ entry.obs = .reset

/-- Each request in turn, as often as its number of copies says. -/
def serve (host : HostAddress) : List Request → List Nat → List MessageBytes
  | req :: reqs, n :: copies => List.replicate n (encode host req.id req.data) ++ serve host reqs copies
  | _, _ => []

variable {host : HostAddress}

@[simp] theorem serve_nil (reqs : List Request) : serve host reqs [] = [] := by
  cases reqs <;> rfl

theorem serve_accept (reqs : List Request) (copies : List Nat) (req : Request) (h : copies.length ≤ reqs.length) :
    serve host (reqs ++ [req]) copies = serve host reqs copies := by
  induction reqs generalizing copies with
  | nil =>
      rw [List.length_eq_zero_iff.mp (Nat.le_zero.mp h)]
      rfl
  | cons first rest ih =>
      cases copies with
      | nil => rfl
      | cons n more => exact congrArg _ (ih more (Nat.le_of_succ_le_succ h))

theorem serve_snoc (before : List Request) (req : Request) (after : List Request) (copies : List Nat) (n : Nat)
    (h : copies.length = before.length) :
    serve host (before ++ req :: after) (copies ++ [n]) =
      serve host (before ++ req :: after) copies ++ List.replicate n (encode host req.id req.data) := by
  induction before generalizing copies with
  | nil =>
      rw [List.length_eq_zero_iff.mp h, List.nil_append, List.nil_append, serve, serve_nil, serve_nil,
        List.append_nil, List.nil_append]
  | cons first rest ih =>
      cases copies with
      | nil => cases h
      | cons m more =>
          simp only [List.cons_append, serve, List.append_assoc]
          rw [ih more (Nat.succ_injective h)]

theorem mem_serve {reqs : List Request} {copies : List Nat} {frame : MessageBytes}
    (h : frame ∈ serve host reqs copies) : ∃ req ∈ reqs, frame = encode host req.id req.data := by
  induction reqs generalizing copies with
  | nil => cases h
  | cons req rest ih =>
      cases copies with
      | nil => cases h
      | cons n more =>
          rcases List.mem_append.mp h with hhere | hlater
          · exact ⟨req, List.mem_cons_self, List.eq_of_mem_replicate hhere⟩
          · obtain ⟨other, hother, heq⟩ := ih hlater
            exact ⟨other, List.mem_cons_of_mem _ hother, heq⟩

/-! ### The bus serves the ledger -/

/-- A stretch of the log served in order: the ended requests have had their copies, and the one on the bus what the ledger counts. -/
structure Served (host : HostAddress) (limit : Nat) (epoch earlier : List (Entry capacity)) : Prop where
  ended : endings epoch ≤ (acceptedRequests epoch).length
  live : (ledger (epoch ++ earlier)).live.map Prod.snd = (acceptedRequests epoch).drop (endings epoch)
  busy : (ledger (epoch ++ earlier)).inFlight = true → (ledger (epoch ++ earlier)).live ≠ []
  copies : (ledger (epoch ++ earlier)).inFlight = true → (ledger (epoch ++ earlier)).copies ≤ 1 + limit
  sent : ∃ done : List Nat, done.length = endings epoch ∧ (∀ n ∈ done, 1 ≤ n ∧ n ≤ 1 + limit) ∧
    sentFrames epoch = serve host (acceptedRequests epoch)
      (done ++ if (ledger (epoch ++ earlier)).inFlight then [(ledger (epoch ++ earlier)).copies] else [])

theorem served_nil (limit : Nat) (earlier : List (Entry capacity)) (h : SinceReset [] earlier) :
    Served host limit [] earlier := by
  have hledger : (ledger earlier).live = [] ∧ (ledger earlier).inFlight = false := by
    rcases h.start with rfl | ⟨entry, rest, rfl, hreset⟩
    · exact ⟨rfl, rfl⟩
    · rw [ledger_cons, hreset]
      exact ⟨rfl, rfl⟩
  refine ⟨Nat.zero_le _, ?_, ?_, ?_, [], rfl, fun n hn => absurd hn List.not_mem_nil, ?_⟩
  · exact (congrArg (List.map Prod.snd) hledger.1).trans rfl
  · exact fun hflight => absurd (hledger.2.symm.trans hflight) Bool.false_ne_true
  · exact fun hflight => absurd (hledger.2.symm.trans hflight) Bool.false_ne_true
  · change ([] : List MessageBytes) = serve host [] (if (ledger earlier).inFlight = true then _ else [])
    rw [hledger.2]
    rfl

/-- An entry that accepts, sends and ends nothing, and keeps the bus as it is. -/
theorem Served.skip {limit : Nat} {epoch earlier : List (Entry capacity)} (h : Served host limit epoch earlier)
    (entry : Entry capacity) (haccepted : entry.acceptedRequest? = none) (hsent : entry.sentFrame? = none)
    (hending : entry.isEnding = false)
    (hlive : ((ledger (epoch ++ earlier)).next entry.obs).live = (ledger (epoch ++ earlier)).live)
    (hflight : ((ledger (epoch ++ earlier)).next entry.obs).inFlight = (ledger (epoch ++ earlier)).inFlight)
    (hcopies : ((ledger (epoch ++ earlier)).next entry.obs).copies = (ledger (epoch ++ earlier)).copies) :
    Served host limit (entry :: epoch) earlier := by
  have ha : acceptedRequests (entry :: epoch) = acceptedRequests epoch := by
    rw [acceptedRequests, List.filterMap_cons_none haccepted, acceptedRequests]
  have hs : sentFrames (entry :: epoch) = sentFrames epoch := by
    rw [sentFrames, List.filterMap_cons_none hsent, sentFrames]
  have he : endings (entry :: epoch) = endings epoch := by
    rw [endings, List.countP_cons_of_neg (by rw [hending]; exact Bool.false_ne_true), endings]
  obtain ⟨hended, hl, hbusy, hc, hserve⟩ := h
  refine ⟨?_, ?_, ?_, ?_, ?_⟩ <;> simp only [List.cons_append, ledger_cons, ha, hs, he, hlive, hflight, hcopies]
  · exact hended
  · exact hl
  · exact hbusy
  · exact hc
  · exact hserve

theorem Served.accept {limit : Nat} {epoch earlier : List (Entry capacity)} (h : Served host limit epoch earlier)
    (bms : HaidiBMS capacity) (req : Request) :
    Served host limit (⟨bms, .answered req .queued⟩ :: epoch) earlier := by
  have ha : acceptedRequests ((⟨bms, .answered req .queued⟩ : Entry capacity) :: epoch) =
      acceptedRequests epoch ++ [req] := List.reverse_cons
  obtain ⟨hended, hl, hbusy, hc, done, hdone, hlimits, hserve⟩ := h
  refine ⟨?_, ?_, ?_, hc, done, hdone, hlimits, ?_⟩
  · rw [ha, List.length_append]
    exact hended.trans (Nat.le_add_right _ _)
  · rw [ha]
    change ((ledger (epoch ++ earlier)).live ++ [(_, req)]).map Prod.snd = _
    rw [List.map_append, hl]
    exact (List.drop_append_of_le_length hended).symm
  · exact fun _ => List.append_ne_nil_of_right_ne_nil _ (List.cons_ne_nil _ _)
  · rw [ha, serve_accept]
    · exact hserve
    · change (done ++ if (ledger (epoch ++ earlier)).inFlight = true then _ else []).length ≤ _
      rw [List.length_append, hdone]
      split_ifs with hflight
      · have hne := congrArg List.length hl
        rw [List.length_map, List.length_drop] at hne
        have := List.length_pos_iff.mpr (hbusy hflight)
        rw [List.length_singleton]
        omega
      · exact hended

theorem Served.begin {limit : Nat} {epoch earlier : List (Entry capacity)} (h : Served host limit epoch earlier)
    (bms : HaidiBMS capacity) (hidle : (ledger (epoch ++ earlier)).inFlight = false)
    (hlive : (ledger (epoch ++ earlier)).live ≠ []) : Served host limit (⟨bms, .began⟩ :: epoch) earlier := by
  obtain ⟨hended, hl, hbusy, hc, done, hdone, hlimits, hserve⟩ := h
  refine ⟨hended, hl, fun _ => hlive, fun _ => Nat.zero_le _, done, hdone, hlimits, ?_⟩
  rw [hidle] at hserve
  obtain ⟨req, rest, hcons⟩ := List.exists_cons_of_ne_nil (mt List.map_eq_nil_iff.mp hlive)
  have hsplit : acceptedRequests epoch =
      (acceptedRequests epoch).take (endings epoch) ++ req :: rest := by
    rw [← hcons, hl, List.take_append_drop]
  change sentFrames epoch = serve host (acceptedRequests epoch) (done ++ [0])
  rw [hserve, hsplit, serve_snoc _ req rest done 0 (by rw [hdone, List.length_take, min_eq_left hended])]
  exact (congrArg _ (List.append_nil _)).trans (List.append_nil _).symm

theorem Served.send {limit : Nat} {epoch earlier : List (Entry capacity)} (h : Served host limit epoch earlier)
    (bms : HaidiBMS capacity) (fn ctx : Ptr) (frame : MessageBytes)
    (hreq : ∃ req, (ledger (epoch ++ earlier)).owner = some req ∧ frame = encode host req.id req.data)
    (hlimit : (ledger (epoch ++ earlier)).copies ≤ limit) :
    Served host limit (⟨bms, .sent fn ctx frame⟩ :: epoch) earlier := by
  obtain ⟨req, howner, rfl⟩ := hreq
  obtain ⟨hflight, number, rest, hcons⟩ := Ledger.owner_eq_some howner
  obtain ⟨hended, hl, hbusy, hc, done, hdone, hlimits, hserve⟩ := h
  refine ⟨hended, hl, hbusy, fun _ => ?_, done, hdone, hlimits, ?_⟩
  · rw [Nat.add_comm 1]
    exact Nat.succ_le_succ hlimit
  · have hsplit : acceptedRequests epoch =
        (acceptedRequests epoch).take (endings epoch) ++ req :: rest.map Prod.snd := by
      rw [hcons] at hl
      rw [show req :: rest.map Prod.snd = (acceptedRequests epoch).drop (endings epoch) from hl,
        List.take_append_drop]
    have hlen : done.length = ((acceptedRequests epoch).take (endings epoch)).length := by
      rw [hdone, List.length_take, min_eq_left hended]
    have hsent : sentFrames ((⟨bms, .sent fn ctx (encode host req.id req.data)⟩ : Entry capacity) :: epoch) =
        sentFrames epoch ++ [encode host req.id req.data] := List.reverse_cons
    rw [hsent, hserve, hflight, if_pos rfl]
    change _ = serve host (acceptedRequests epoch) (done ++ if (ledger (epoch ++ earlier)).inFlight = true then
      [(ledger (epoch ++ earlier)).copies + 1] else [])
    rw [hflight, if_pos rfl, hsplit, serve_snoc _ req _ done _ hlen, serve_snoc _ req _ done _ hlen,
      List.replicate_succ', List.append_assoc]

/-- The request on the bus is among those accepted. -/
theorem Served.endings_lt {limit : Nat} {epoch earlier : List (Entry capacity)} (h : Served host limit epoch earlier)
    (hflight : (ledger (epoch ++ earlier)).inFlight = true) : endings epoch < (acceptedRequests epoch).length := by
  have hlength := congrArg List.length h.live
  rw [List.length_map, List.length_drop] at hlength
  have hlive := List.length_pos_iff.mpr (h.busy hflight)
  omega

/-- The request on the bus ends, and has been sent. -/
theorem Served.finish {limit : Nat} {epoch earlier : List (Entry capacity)} (h : Served host limit epoch earlier)
    (entry : Entry capacity) (hending : entry.isEnding = true)
    (hflight : (ledger (epoch ++ earlier)).inFlight = true) (hcopies : 0 < (ledger (epoch ++ earlier)).copies)
    (hlive : ((ledger (epoch ++ earlier)).next entry.obs).live = (ledger (epoch ++ earlier)).live.tail)
    (hidle : ((ledger (epoch ++ earlier)).next entry.obs).inFlight = false) :
    Served host limit (entry :: epoch) earlier := by
  have ha : acceptedRequests (entry :: epoch) = acceptedRequests epoch := by
    rw [acceptedRequests, List.filterMap_cons_none, acceptedRequests]
    obtain ⟨bms, obs⟩ := entry
    cases obs <;> first | rfl | cases hending
  have hs : sentFrames (entry :: epoch) = sentFrames epoch := by
    rw [sentFrames, List.filterMap_cons_none, sentFrames]
    obtain ⟨bms, obs⟩ := entry
    cases obs <;> first | rfl | cases hending
  have he : endings (entry :: epoch) = endings epoch + 1 := List.countP_cons_of_pos hending
  have hmore := h.endings_lt hflight
  obtain ⟨hended, hl, hbusy, hc, done, hdone, hlimits, hserve⟩ := h
  rw [hflight, if_pos rfl] at hserve
  refine ⟨?_, ?_, ?_, ?_, done ++ [(ledger (epoch ++ earlier)).copies], ?_, ?_, ?_⟩
  · rw [ha, he]
    exact hmore
  · rw [ha, he, List.cons_append, ledger_cons, hlive, List.map_tail, hl, List.tail_drop]
  · rw [List.cons_append, ledger_cons, hidle]
    exact fun hf => absurd hf Bool.false_ne_true
  · rw [List.cons_append, ledger_cons, hidle]
    exact fun hf => absurd hf Bool.false_ne_true
  · rw [List.length_append, hdone, he]
    rfl
  · exact List.forall_mem_append.mpr ⟨hlimits, List.forall_mem_singleton.mpr ⟨hcopies, hc hflight⟩⟩
  · rw [ha, hs, List.cons_append, ledger_cons, hidle, if_neg Bool.false_ne_true, List.append_nil]
    exact hserve

theorem served (limit : Nat) (epoch earlier : List (Entry capacity))
    (hlawful : History.Everywhere (Permits host) (epoch ++ earlier)) (hwired : Wired (epoch ++ earlier))
    (hepoch : SinceReset epoch earlier) (hlimit : ∀ entry ∈ epoch, entry.bms.maxRetries.toNat ≤ limit) :
    Served host limit epoch earlier := by
  induction epoch with
  | nil => exact served_nil limit earlier hepoch
  | cons entry epoch ih =>
      have hserved := ih hlawful.2 (fun e he => hwired e (List.mem_cons_of_mem _ he))
        ⟨fun e he => hepoch.noReset e (List.mem_cons_of_mem _ he), hepoch.start⟩
        fun e he => hlimit e (List.mem_cons_of_mem _ he)
      have hpermits : Permits host (epoch ++ earlier) entry := hlawful.1
      have hprompt := hpermits.prompt hwired
      have hallows := hpermits.allows
      have hmax := hlimit entry List.mem_cons_self
      have hreset := hepoch.noReset entry List.mem_cons_self
      obtain ⟨bms, obs⟩ := entry
      -- a request on the bus that nothing has been sent for can only be sent
      have hsent : (∀ fn ctx frame, obs ≠ .sent fn ctx frame) → (ledger (epoch ++ earlier)).inFlight = true →
          0 < (ledger (epoch ++ earlier)).copies := by
        intro hother hflight
        refine Nat.pos_of_ne_zero fun hzero => ?_
        obtain ⟨fn, ctx, frame, hobs⟩ := hprompt hflight hzero
        exact hother fn ctx frame hobs
      cases obs with
      | answered req status =>
          cases status with
          | queued => exact hserved.accept bms req
          | _ => exact hserved.skip _ rfl rfl rfl rfl rfl rfl
      | began => exact hserved.begin bms hallows.1 hallows.2
      | sent fn ctx frame => exact hserved.send bms fn ctx frame hallows.1 (hallows.2.trans hmax)
      | raised event =>
          cases hterminal : event.isTerminal with
          | false =>
              have hnext := Ledger.next_raised_open (ledger (epoch ++ earlier)) hterminal
              refine hserved.skip _ rfl rfl hterminal ?_ ?_ ?_ <;> rw [hnext]
          | true =>
              obtain ⟨req, howner, -⟩ := hallows.2.2 hterminal
              obtain ⟨hflight, number, rest, hcons⟩ := Ledger.owner_eq_some howner
              have hnext := Ledger.next_raised_terminal hterminal hflight
              refine hserved.finish _ hterminal hflight (hsent (fun _ _ _ h => by cases h) hflight) ?_ ?_ <;> rw [hnext]
              · exact Ledger.retire_live _ _
              · exact Ledger.retire_inFlight _ (hcons ▸ List.cons_ne_nil _ _)
      | streamEnded =>
          obtain ⟨-, req, howner, -⟩ := hallows
          obtain ⟨hflight, number, rest, hcons⟩ := Ledger.owner_eq_some howner
          exact hserved.finish _ rfl hflight (hsent (fun _ _ _ h => by cases h) hflight) (Ledger.retire_live _ _)
            (Ledger.retire_inFlight _ (hcons ▸ List.cons_ne_nil _ _))
      | reset => exact absurd rfl hreset
      | returned =>
          obtain ⟨handler, event, hphase⟩ := hallows
          have hnext := Ledger.next_returned hphase
          refine hserved.skip _ rfl rfl rfl ?_ ?_ ?_ <;> rw [hnext]
      | _ => exact hserved.skip _ rfl rfl rfl rfl rfl rfl

/-! ### MOSFET writes -/

theorem encode_id (host : HostAddress) (id : DataId) (data : DataBytes) :
    (encode host id data)[msgDataIdIndex] = id := by
  simp [encode]

theorem encode_first (host : HostAddress) (id : DataId) (data : DataBytes) :
    (encode host id data)[dataOffset] = data[0] := by
  simp [encode]

/-- A threshold in range is inside its block of Data IDs. -/
theorem alarmThresholdId_toNat {cls : AlarmClass} {level : AlarmLevel} (hcls : cls < alarmClassCount)
    (hlevel : level < alarmLevelCount) : (alarmThresholdId cls level).toNat = 0x70 + level.toNat * 9 + cls.toNat := by
  have hc : cls.toNat < 9 := UInt8.lt_iff_toNat_lt.mp hcls
  have hl : level.toNat < 3 := UInt8.lt_iff_toNat_lt.mp hlevel
  simp only [alarmThresholdId, UInt8.toNat_add, UInt8.toNat_mul]
  change ((0x70 + level.toNat * 9 % 256) % 256 + cls.toNat) % 256 = _
  omega

/-- Only the MOSFET methods ask for the Data IDs of the control writes. -/
theorem control_method (method : Poll) (fn : Option Ptr) (ctx : Ptr)
    (h : (method.toRequest fn ctx).id = .dischargeMosControl ∨ (method.toRequest fn ctx).id = .chargeMosControl) :
    ∃ on, method = .setDischargeMos on ∨ method = .setChargeMos on := by
  cases method with
  | setDischargeMos on => exact ⟨on, Or.inl rfl⟩
  | setChargeMos on => exact ⟨on, Or.inr rfl⟩
  | alarmThreshold cls level =>
      simp only [Poll.toRequest, request] at h
      by_cases hrange : (cls < alarmClassCount && level < alarmLevelCount) = true
      · simp only [hrange, if_true] at h
        rw [Bool.and_eq_true, decide_eq_true_eq, decide_eq_true_eq] at hrange
        have hid := alarmThresholdId_toNat hrange.1 hrange.2
        have hc : cls.toNat < 9 := UInt8.lt_iff_toNat_lt.mp hrange.1
        have hl : level.toNat < 3 := UInt8.lt_iff_toNat_lt.mp hrange.2
        rcases h with h | h <;> rw [h] at hid
        · change 0xD9 = _ at hid
          omega
        · change 0xDA = _ at hid
          omega
      · rw [if_neg hrange] at h
        exact absurd h (by decide)
  | _ =>
      simp only [Poll.toRequest, request, requestPaginated] at h
      exact absurd h (by decide)

/-- The state a control write carries. -/
def mosByte (on : Bool) : UInt8 := if on then 1 else 0

/-- Every write of a control frame to the wire is for an accepted call of its method, with the state of the call. -/
def WritesAccepted (epoch : List (Entry capacity)) (id : DataId) (method : Bool → Poll) : Prop :=
  ∀ frame ∈ sentFrames epoch, getElem frame msgDataIdIndex msgDataIdIndex_lt = id →
    ∃ on fn ctx, (method on).toRequest fn ctx ∈ acceptedRequests epoch ∧
      getElem frame dataOffset dataOffset_lt = mosByte on

theorem accepted_method {log past : List (Entry capacity)} (hlawful : History.Everywhere (Permits host) (log ++ past))
    {req : Request} (h : req ∈ acceptedRequests log) :
    ∃ (method : Poll) (fn : Option Ptr) (ctx : Ptr), req = method.toRequest fn ctx := by
  obtain ⟨entry, hentry, hreq⟩ := List.mem_filterMap.mp (List.mem_reverse.mp h)
  obtain ⟨later, earlier, rfl⟩ := List.append_of_mem hentry
  rw [List.append_assoc, List.cons_append] at hlawful
  have hallows := hlawful.at.allows
  unfold Entry.acceptedRequest? at hreq
  split at hreq
  · next other hobs =>
      obtain rfl : other = req := Option.some.inj hreq
      rw [Ledger.Allows, hobs] at hallows
      exact hallows
  · cases hreq

/-- A frame of a control write was asked for by one of the two methods, with its state. -/
theorem control_frame {log past : List (Entry capacity)} (hlawful : History.Everywhere (Permits host) (log ++ past))
    {copies : List Nat} {frame : MessageBytes} (hframe : frame ∈ serve host (acceptedRequests log) copies)
    (hid : frame[msgDataIdIndex] = DataId.dischargeMosControl ∨ frame[msgDataIdIndex] = DataId.chargeMosControl) :
    ∃ on fn ctx, ∃ method : Poll, (method = .setDischargeMos on ∨ method = .setChargeMos on) ∧
      method.toRequest fn ctx ∈ acceptedRequests log ∧ frame[msgDataIdIndex] = (method.toRequest fn ctx).id ∧
        frame[dataOffset] = mosByte on := by
  obtain ⟨req, hreq, rfl⟩ := mem_serve hframe
  obtain ⟨method, fn, ctx, rfl⟩ := accepted_method hlawful hreq
  rw [encode_id] at hid
  obtain ⟨on, hmethod⟩ := control_method method fn ctx hid
  refine ⟨on, fn, ctx, method, hmethod, hreq, encode_id _ _ _, ?_⟩
  rw [encode_first]
  rcases hmethod with rfl | rfl <;> cases on <;> rfl

/-! ### The whole run -/

/-- The frames of a stretch are its accepted requests in order, a prefix of them, each at least once and at most once more than the retry limit; and each after the first only once the one before it has ended. -/
def InOrder (host : HostAddress) (limit : Nat) (epoch : List (Entry capacity)) : Prop :=
  ∃ copies : List Nat, copies.length ≤ (acceptedRequests epoch).length ∧
    sentFrames epoch = serve host (acceptedRequests epoch) copies ∧ (∀ n ∈ copies, 1 ≤ n ∧ n ≤ 1 + limit) ∧
      copies.length ≤ endings epoch + 1

theorem Served.inOrder {limit : Nat} {epoch earlier : List (Entry capacity)} (h : Served host limit epoch earlier) :
    InOrder host limit epoch := by
  have hmore := h.endings_lt
  obtain ⟨hended, hl, hbusy, hc, done, hdone, hlimits, hserve⟩ := h
  by_cases hflight : (ledger (epoch ++ earlier)).inFlight = true
  · rw [if_pos hflight] at hserve
    have hmore := hmore hflight
    by_cases hzero : (ledger (epoch ++ earlier)).copies = 0
    · -- given the bus this moment, and not sent yet
      refine ⟨done, hdone.le.trans hended, ?_, hlimits, hdone.le.trans (Nat.le_succ _)⟩
      obtain ⟨req, hreq⟩ := List.exists_cons_of_ne_nil
        (List.ne_nil_of_length_pos (by rw [List.length_drop]; omega : 0 < ((acceptedRequests epoch).drop (endings epoch)).length))
      obtain ⟨rest, hcons⟩ := hreq
      have hsplit : acceptedRequests epoch = (acceptedRequests epoch).take (endings epoch) ++ req :: rest := by
        rw [← hcons, List.take_append_drop]
      rw [hzero, hsplit, serve_snoc _ req rest done 0 (by rw [hdone, List.length_take, min_eq_left hended])] at hserve
      rw [hserve, ← hsplit]
      exact List.append_nil _
    · refine ⟨done ++ [(ledger (epoch ++ earlier)).copies], ?_, hserve, ?_, ?_⟩
      · rw [List.length_append, hdone]
        exact hmore
      · exact List.forall_mem_append.mpr
          ⟨hlimits, List.forall_mem_singleton.mpr ⟨Nat.pos_of_ne_zero hzero, hc hflight⟩⟩
      · rw [List.length_append, hdone]
        exact le_rfl
  · rw [if_neg hflight, List.append_nil] at hserve
    exact ⟨done, hdone.le.trans hended, hserve, hlimits, hdone.le.trans (Nat.le_succ _)⟩

theorem Served.writes {limit : Nat} {epoch earlier : List (Entry capacity)} (h : Served host limit epoch earlier)
    (hlawful : History.Everywhere (Permits host) (epoch ++ earlier)) :
    WritesAccepted epoch .dischargeMosControl .setDischargeMos ∧ WritesAccepted epoch .chargeMosControl .setChargeMos := by
  obtain ⟨-, -, -, -, done, -, -, hserve⟩ := h
  constructor <;> intro frame hframe hid <;> rw [hserve] at hframe
  · obtain ⟨on, fn, ctx, method, rfl | rfl, hreq, hsame, hbyte⟩ := control_frame hlawful hframe (Or.inl hid)
    · exact ⟨on, fn, ctx, hreq, hbyte⟩
    · exact absurd (hid.symm.trans hsame : DataId.dischargeMosControl = DataId.chargeMosControl) (by decide)
  · obtain ⟨on, fn, ctx, method, rfl | rfl, hreq, hsame, hbyte⟩ := control_frame hlawful hframe (Or.inr hid)
    · exact absurd (hid.symm.trans hsame : DataId.chargeMosControl = DataId.dischargeMosControl) (by decide)
    · exact ⟨on, fn, ctx, hreq, hbyte⟩

/-- A refused call changes nothing, and a valid one is refused exactly when the queue is full. -/
def RefusesCleanly (w : World capacity) (req : Request) : Prop :=
  ((enqueue w req).2 ≠ .queued → (enqueue w req).1.bms = w.bms ∧
      (enqueue w req).1.log = ⟨w.bms, .answered req (enqueue w req).2⟩ :: w.log) ∧
    (w.bms.txFn ≠ none → isKnownDataId req.id = true →
      ((enqueue w req).2 = .queueFull ↔ w.bms.pending = capacity))

theorem refusesCleanly (w : World capacity) (req : Request) : RefusesCleanly w req := by
  constructor
  · intro hrefused
    rcases enqueue_cases w req with ⟨status, -, heq⟩ | ⟨room, -, -, heq⟩ <;> rw [heq] at hrefused ⊢
    · exact ⟨rfl, rfl⟩
    · exact absurd rfl hrefused
  · intro htx hknown
    have hle := w.bms.queue.count_le
    unfold enqueue HaidiBMS.pending
    rw [if_neg htx, hknown, if_neg (by decide)]
    by_cases room : w.bms.queue.count < capacity
    · rw [dif_pos room]
      exact iff_of_false (fun h => by cases h) (by omega)
    · rw [dif_neg room]
      exact iff_of_true rfl (by omega)

/-- Whatever is called, fed and ticked, and whatever the handlers poll and reset, with a TX handler registered all along: from each reset on the wire carries the accepted requests in order, one at a time; a control write goes out only for an accepted call with its state; and a call is refused without effect, a valid one exactly when the queue is full. -/
theorem run_bus_in_order (react : World capacity → Handler → Event → List Reaction) (hostAddress : HostAddress)
    (bmsAddress : UInt8) (calls : List Call)
    (hwired : Wired (run (.polling react) (World.new hostAddress bmsAddress) calls).log) :
    let w := run (.polling react) (World.new hostAddress bmsAddress) calls
    (∀ later epoch earlier, w.log = later ++ (epoch ++ earlier) → SinceReset epoch earlier →
        ∀ limit, (∀ entry ∈ epoch, entry.bms.maxRetries.toNat ≤ limit) →
          InOrder hostAddress limit epoch ∧
            WritesAccepted epoch .dischargeMosControl .setDischargeMos ∧
              WritesAccepted epoch .chargeMosControl .setChargeMos) ∧
      ∀ (v : World capacity) (method : Poll) (fn : Option Ptr) (ctx : Ptr),
        RefusesCleanly v (method.toRequest fn ctx) := by
  intro w
  have hlog : History.Everywhere (Permits hostAddress) w.log :=
    (run_resting react hostAddress bmsAddress calls).sync.lawful
  refine ⟨fun later epoch earlier heq hepoch limit hlimit => ?_, fun v method fn ctx => refusesCleanly v _⟩
  have hlawful : History.Everywhere (Permits hostAddress) (epoch ++ earlier) :=
    hlog.past (heq ▸ List.suffix_append _ _)
  have hwired' : Wired (epoch ++ earlier) := fun entry hentry =>
    hwired entry (by
      change entry ∈ w.log
      rw [heq]
      exact List.mem_append_right _ hentry)
  have hserved := served limit epoch earlier hlawful hwired' hepoch hlimit
  exact ⟨hserved.inOrder, hserved.writes hlawful⟩

/-- Two requests on a silent line: the first goes out twice, the write waits. -/
theorem run_bus_in_order_silent :
    let w : World 24 := run (.polling fun _ _ _ => []) (World.new .comp bmsAddress)
      [.setTxHandler (some 1) 0, .poll .rtc none 0, .poll (.setDischargeMos true) none 0, .tick 250]
    InOrder .comp 1 w.log ∧ WritesAccepted w.log .dischargeMosControl .setDischargeMos := by
  intro w
  have h := (@run_bus_in_order 24 (fun _ _ _ => []) .comp bmsAddress
    [.setTxHandler (some 1) 0, .poll .rtc none 0, .poll (.setDischargeMos true) none 0, .tick 250] (by decide)).1
    [] w.log [] (List.append_nil _).symm ⟨by decide, Or.inl rfl⟩ 1 (by decide)
  exact ⟨h.1, h.2.1⟩

end Haidi
