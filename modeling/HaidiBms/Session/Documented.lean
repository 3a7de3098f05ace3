import Mathlib.Data.UInt
import HaidiBms.Events
import HaidiBms.Session.ClientRuns

/-!
# Events that agree with their documentation

The header says of each field of an event when it is set and what it then means. Part of that can be told from the event alone: which outcomes carry an error code, retries, a count of frames or a payload, which commands an error can concern, how many frames an outcome can count, and what the decoded payloads promise their readers, namely that they claim no more than their arrays and the frames counted can hold and that what lies past their end is blank. The client raises events in nine places; here each is checked against that part. What compares an event with what came before it is left open: how often a timed-out request was sent again, which number of pages or of stream frames had arrived, and the Data ID that an error names.
-/

namespace Haidi

variable {capacity : ℕ+}

/-! ### The description -/

/-- Past its first entries an array is blank. -/
def Blank {α : Type} [Zero α] {n : ℕ} (entries : Vector α n) (count : ℕ) : Prop :=
  ∀ i (_ : i < n), count ≤ i → entries[i] = 0

/-- A decoded payload is within its command's length, its array and what the frames counted carry. -/
def EventPayload.Fits (id : DataId) (frames : ℕ) : EventPayload → Prop
  | .text p => p.view.length = p.len.toNat ∧ p.len.toNat ≤ (multiframeInfo id).totalBytes.toNat ∧
      p.len.toNat ≤ 7 * frames ∧ Blank p.text p.len.toNat
  | .version p => p.view.length = p.len.toNat ∧ p.len.toNat ≤ (multiframeInfo id).totalBytes.toNat ∧
      p.len.toNat ≤ 7 * frames ∧ Blank p.text p.len.toNat
  | .cellVoltages p => p.count.toNat ≤ maxCells ∧ p.count.toNat ≤ 3 * frames ∧ Blank p.mv p.count.toNat
  | .cellTemperatures p =>
      p.count.toNat ≤ maxTemperatures ∧ p.count.toNat ≤ 7 * frames ∧ Blank p.celsius p.count.toNat
  | _ => True

/-- The frames an event can count: one to seventeen for a paginated reply, four for a fault record, at least one where a stream stops short, one for any other reply and for a refused write, and none for a timeout or a rejected frame. -/
def Event.CountsFrames (event : Event) : Prop :=
  match event.kind, event.error with
  | .response, _ =>
      if (multiframeInfo event.id).paginated then 1 ≤ event.frames.toNat ∧ event.frames.toNat ≤ 17
      else event.frames = if event.id = .faultRecords then faultFramesPerRecord else 1
  | .protocolError, .writeRejected => event.frames = 1
  | .protocolError, .truncated => event.frames ≠ 0
  | _, _ => event.frames = 0

/-- What the header says that can be told from the event alone. -/
structure Event.Documented (event : Event) : Prop where
  error : event.error ≠ .none ↔ event.kind = .protocolError
  decoded : event.error ≠ .unknownDataId
  retries : event.kind ≠ .timeout → event.retries = 0
  frames : event.CountsFrames
  known : event.kind ≠ .protocolError → isKnownDataId event.id = true
  truncated : event.error = .truncated → event.id = .faultRecords
  sequence : event.error = .frameSequence → (multiframeInfo event.id).paginated
  writes : event.error = .writeRejected → event.id = .dischargeMosControl ∨ event.id = .chargeMosControl
  /-- A refused write carries both states, and they differ; a granted one carries one state twice. -/
  acknowledged : ∀ ack, event.payload = .mosControlAck ack →
    (event.error = .writeRejected ↔ ack.requestedOn ≠ ack.reportedOn)
  payload : event.kind = .response → event.payload.Fits event.id event.frames.toNat
  bare : event.kind ≠ .response → event.error ≠ .writeRejected → event.payload = .zero

/-! ### What is decoded -/

theorem blank_ofFn {α : Type} [Zero α] {n count : ℕ} {entry : Fin n → α} (h : ∀ i : Fin n, count ≤ i → entry i = 0) :
    Blank (Vector.ofFn entry) count := by
  intro i hi hcount
  rw [Vector.getElem_ofFn]
  exact h _ hcount

/-- A count that was cut to the size of an array, as a byte. -/
theorem toNat_capped {count cap : ℕ} (hcap : cap < 256) :
    (UInt8.ofNat (if count > cap then cap else count)).toNat = min count cap := by
  have hmin : (if count > cap then cap else count) = min count cap := by
    split_ifs <;> omega
  rw [hmin]
  exact UInt8.toNat_ofNat_of_lt' (lt_of_le_of_lt (min_le_right _ _) hcap)

section Decoded

variable {id : DataId} {buf : List UInt8} {frames : ℕ}

/-- A text that was cut to an array: its length, its view and what lies past its end. -/
theorem text_cut {cap : ℕ} (hcap : cap < 256) (buf : List UInt8) :
    let n := if buf.length > cap then cap else buf.length
    let text : Vector UInt8 cap := .ofFn fun i => if i.val < n then byteAt buf i.val else 0
    let len := (UInt8.ofNat n).toNat
    len = min buf.length cap ∧ (text.toList.take (if len < cap then len else cap)).length = len ∧ Blank text len := by
  intro n text len
  have hlen : len = min buf.length cap := toNat_capped hcap
  have hn : n = min buf.length cap := by
    change (if buf.length > cap then cap else buf.length) = _
    split_ifs <;> omega
  refine ⟨hlen, ?_, blank_ofFn fun i hi => if_neg (by omega)⟩
  rw [List.length_take, Vector.length_toList]
  split_ifs <;> omega

theorem text_fits (htotal : buf.length ≤ (multiframeInfo id).totalBytes.toNat) (hframes : buf.length ≤ frames * 7) :
    let n := if buf.length > maxTextLen then maxTextLen else buf.length
    (EventPayload.text ⟨.ofNat n, .ofFn fun i => if i.val < n then byteAt buf i.val else 0⟩).Fits id frames := by
  obtain ⟨hlen, hview, hblank⟩ := @text_cut maxTextLen (by decide) buf
  exact ⟨hview, by dsimp only; omega, by dsimp only; omega, hblank⟩

theorem version_fits (htotal : buf.length ≤ (multiframeInfo id).totalBytes.toNat) (hframes : buf.length ≤ frames * 7) :
    let n := if buf.length > maxVersionLen then maxVersionLen else buf.length
    (EventPayload.version ⟨.ofNat n, .ofFn fun i => if i.val < n then byteAt buf i.val else 0⟩).Fits id frames := by
  obtain ⟨hlen, hview, hblank⟩ := @text_cut maxVersionLen (by decide) buf
  exact ⟨hview, by dsimp only; omega, by dsimp only; omega, hblank⟩

theorem decodeMulti_fits {payload : EventPayload} (h : decodeMulti id buf buf.length = some payload)
    (htotal : (multiframeInfo id).totalBytes ≠ 0 → buf.length ≤ (multiframeInfo id).totalBytes.toNat)
    (hframes : buf.length ≤ frames * (multiframeInfo id).bytesPerFrame.toNat) : payload.Fits id frames := by
  unfold decodeMulti at h
  split at h
  case h_7 =>
    obtain rfl := Option.some.inj h
    have hcount := @toNat_capped (buf.length / 2) maxCells (by decide)
    have hframes : buf.length ≤ frames * 6 := hframes
    unfold EventPayload.Fits
    dsimp only
    rw [hcount]
    exact ⟨min_le_right _ _, by omega, blank_ofFn fun i hi => if_neg (by split_ifs <;> omega)⟩
  case h_8 =>
    obtain rfl := Option.some.inj h
    have hcount := @toNat_capped buf.length maxTemperatures (by decide)
    have hframes : buf.length ≤ frames * 7 := hframes
    unfold EventPayload.Fits
    dsimp only
    rw [hcount]
    exact ⟨min_le_right _ _, by omega, blank_ofFn fun i hi => if_neg (by split_ifs <;> omega)⟩
  case h_9 => cases h
  all_goals obtain rfl := Option.some.inj h
  case h_5 => exact version_fits (htotal (by decide)) hframes
  case h_6 => exact version_fits (htotal (by decide)) hframes
  all_goals exact text_fits (htotal (by decide)) hframes

end Decoded

/-! ### What is raised -/

theorem documented_rejection {id : DataId} {error : ErrorCode}
    (herror : error = .checksum ∨ error = .badLength ∨ error = .badSourceAddress ∨ error = .unexpectedDataId) :
    Event.Documented { kind := .protocolError, id, error } := by
  have hfailed : error ≠ .none := by
    rcases herror with rfl | rfl | rfl | rfl <;> decide
  refine ⟨⟨fun _ => rfl, fun _ => hfailed⟩, ?_, fun _ => rfl, ?_, nofun, ?_, ?_, ?_, nofun, nofun, fun _ _ => rfl⟩ <;>
    rcases herror with rfl | rfl | rfl | rfl <;> first | rfl | exact nofun

theorem documented_sequence {id : DataId} (hpaged : (multiframeInfo id).paginated) :
    Event.Documented { kind := .protocolError, id, error := .frameSequence } :=
  ⟨⟨fun _ => rfl, fun _ => nofun⟩, nofun, fun _ => rfl, rfl, nofun, nofun, fun _ => hpaged, nofun, nofun, nofun, fun _ _ => rfl⟩

theorem documented_truncated {frames : UInt8} (hframes : frames ≠ 0) :
    Event.Documented { kind := .protocolError, id := .faultRecords, error := .truncated, frames } :=
  ⟨⟨fun _ => rfl, fun _ => nofun⟩, nofun, fun _ => rfl, hframes, nofun, fun _ => rfl, nofun, nofun, nofun, nofun, fun _ _ => rfl⟩

theorem documented_timeout {id : DataId} {retries : UInt8} (hknown : isKnownDataId id = true) :
    Event.Documented { kind := .timeout, id, retries } :=
  ⟨⟨fun h => absurd rfl h, nofun⟩, nofun, fun h => absurd rfl h, rfl, fun _ => hknown, nofun, nofun, nofun, nofun, nofun,
    fun _ _ => rfl⟩

/-- A reply with a payload of its own that is no acknowledgement. -/
theorem documented_response {id : DataId} {frames : UInt8} {payload : EventPayload} (hknown : isKnownDataId id = true)
    (hframes : Event.CountsFrames { id, frames, payload }) (hpayload : payload.Fits id frames.toNat)
    (hack : payload.member ≠ .mosControlAck) : Event.Documented { id, frames, payload } := by
  refine ⟨⟨fun h => absurd rfl h, nofun⟩, nofun, fun _ => rfl, hframes, fun _ => hknown, nofun, nofun, nofun, ?_,
    fun _ => hpayload, fun h => absurd rfl h⟩
  rintro ack rfl
  exact absurd rfl hack

theorem documented_record (pages : List DataBytes) : (recordEvent pages).Documented :=
  documented_response rfl rfl trivial nofun

/-- The members whose readers are promised something: a length, or a pair of states. -/
def Member.isPromising : Member → Bool
  | .text | .version | .cellVoltages | .cellTemperatures | .mosControlAck => true
  | _ => false

theorem decodeSingle_plain {id : DataId} {data : DataBytes} {payload : EventPayload}
    (hsingle : (multiframeInfo id).multi = false)
    (hmos : ¬ (id = .dischargeMosControl ∨ id = .chargeMosControl)) (h : decodeSingle id data = some payload) :
    payload.member.isPromising = false := by
  have hall : ∀ byte : Fin 256, (multiframeInfo (UInt8.ofNat byte)).multi = false →
      ¬ (UInt8.ofNat byte = DataId.dischargeMosControl ∨ UInt8.ofNat byte = DataId.chargeMosControl) →
      ∀ member ∈ carried (UInt8.ofNat byte), member.isPromising = false := by
    decide +kernel
  have := hall ⟨id.toNat, id.toNat_lt⟩
  rw [UInt8.ofNat_toNat] at this
  exact this hsingle hmos _ (decodeSingle_member h)

theorem EventPayload.fits_of_plain {payload : EventPayload} (h : payload.member.isPromising = false) (id : DataId) (frames : ℕ) :
    payload.Fits id frames := by
  cases payload <;> first | exact trivial | cases h

theorem documented_answer {req : Request} (hknown : isKnownDataId req.id = true)
    (hsingle : (multiframeInfo req.id).multi = false) (data : DataBytes) : (answerTo req data).Documented := by
  have hpaged : ¬ (multiframeInfo req.id).paginated := fun h => Bool.false_ne_true (hsingle.symm.trans h.1)
  have hstream : req.id ≠ .faultRecords := by
    intro hid
    rw [hid] at hsingle
    cases hsingle
  have hcount : ∀ payload, Event.CountsFrames { id := req.id, frames := 1, payload } := by
    intro payload
    unfold Event.CountsFrames
    dsimp only
    rw [if_neg hpaged, if_neg hstream]
  unfold answerTo
  dsimp only
  by_cases hmos : req.id = .dischargeMosControl ∨ req.id = .chargeMosControl
  · rw [if_pos hmos]
    split_ifs with hstates
    · refine ⟨⟨fun _ => rfl, fun _ => nofun⟩, nofun, fun _ => rfl, rfl, nofun, nofun, nofun, fun _ => hmos, ?_, nofun,
        fun _ h => absurd rfl h⟩
      rintro ack ⟨⟩
      exact ⟨fun _ => hstates, fun _ => rfl⟩
    · refine ⟨⟨fun h => absurd rfl h, nofun⟩, nofun, fun _ => rfl, hcount _, fun _ => hknown, nofun, nofun, nofun, ?_,
        fun _ => trivial, fun h => absurd rfl h⟩
      rintro ack ⟨⟩
      exact ⟨nofun, fun h => absurd h hstates⟩
  · rw [if_neg hmos]
    cases hdecoded : decodeSingle req.id data with
    | none => exact absurd hdecoded (decodeSingle_known hknown hsingle hmos data)
    | some payload =>
        have hplain := decodeSingle_plain hsingle hmos hdecoded
        refine documented_response hknown (hcount payload) (payload.fits_of_plain hplain _ _) fun hack => ?_
        rw [hack] at hplain
        cases hplain

theorem decodeMulti_member_ne {id : DataId} {buf : List UInt8} {len : ℕ} {payload : EventPayload}
    (h : decodeMulti id buf len = some payload) : payload.member ≠ .mosControlAck := by
  unfold decodeMulti at h
  split at h <;> cases h <;> exact nofun

/-- No more counters follow each other than there are. -/
theorem Stretch.run_le_card {arrived : Finset ℕ} {first run : ℕ} (h : Stretch arrived first run) : run ≤ arrived.card := by
  have hinj : Function.Injective (first + ·) := add_right_injective first
  have hsubset : (Finset.range run).image (first + ·) ⊆ arrived := by
    rw [Finset.image_subset_iff]
    exact fun j hj => h.unbroken.mem j (Finset.mem_range.mp hj)
  have hcard := Finset.card_le_card hsubset
  rwa [Finset.card_image_of_injective _ hinj, Finset.card_range] at hcard

theorem Exchange.documented_report {x : Exchange} (hknown : isKnownDataId x.request.id = true)
    (hpaged : (multiframeInfo x.request.id).paginated) (hany : x.heard ≠ [])
    (hsmall : ∀ counter ∈ numbers x.heard, counter < 17) : x.report.Documented := by
  have hstretch := stretch_lowest hany hsmall
  have hcard : (numbers x.heard).card ≤ 17 := by
    have hsubset : numbers x.heard ⊆ Finset.range 17 := fun counter hcounter => Finset.mem_range.mpr (hsmall counter hcounter)
    simpa using Finset.card_le_card hsubset
  have hpos : 1 ≤ (numbers x.heard).card := Finset.card_pos.mpr ⟨_, hstretch.least.1⟩
  have hframes : (UInt8.ofNat (numbers x.heard).card).toNat = (numbers x.heard).card :=
    UInt8.toNat_ofNat_of_lt' (lt_of_le_of_lt hcard (by decide))
  unfold Exchange.report
  dsimp only
  generalize hbytes : (stretchBytes x.request.id x.heard (lowest x.heard) (unbroken x.heard (lowest x.heard))).take
    (payloadLimit x.request.id x.items) = bytes
  have hlength : bytes.length ≤ (numbers x.heard).card * (multiframeInfo x.request.id).bytesPerFrame.toNat := by
    rw [← hbytes, List.length_take, length_stretchBytes hstretch]
    exact (min_le_right _ _).trans (Nat.mul_le_mul_right _ hstretch.run_le_card)
  have htotal : (multiframeInfo x.request.id).totalBytes ≠ 0 →
      bytes.length ≤ (multiframeInfo x.request.id).totalBytes.toNat := by
    intro hnominal
    have hpositive : (multiframeInfo x.request.id).totalBytes.toNat ≠ 0 := fun hzero => hnominal (UInt8.toNat_inj.mp hzero)
    have hlimit : payloadLimit x.request.id x.items ≤ (multiframeInfo x.request.id).totalBytes.toNat := by
      unfold payloadLimit
      dsimp only
      rw [if_neg hpositive]
      exact (min_le_right _ _).trans (min_le_left _ _)
    rw [← hbytes, List.length_take]
    exact (min_le_left _ _).trans hlimit
  obtain ⟨payload, hpayload⟩ := decodeMulti_isSome hpaged bytes bytes.length
  rw [hpayload]
  refine documented_response hknown ?_ (decodeMulti_fits hpayload htotal (by rw [hframes]; exact hlength))
    (decodeMulti_member_ne hpayload)
  unfold Event.CountsFrames
  dsimp only
  rw [if_pos hpaged, hframes]
  exact ⟨hpos, hcard⟩

/-! ### Runs -/

/-- A request for a known command, and what has been heard for it. -/
structure Exchange.Proper (x : Exchange) : Prop where
  known : isKnownDataId x.request.id = true
  small : (multiframeInfo x.request.id).paginated → ∀ counter ∈ numbers x.heard, counter < 17

namespace Client

/-- Only known commands wait, and every event so far agrees with its documentation. -/
structure Proper (c : Client capacity) : Prop where
  current : ∀ x, c.current = some x → x.Proper
  waiting : ∀ req ∈ c.waiting, isKnownDataId req.id = true
  raised : ∀ event, .raised event ∈ c.trace → event.Documented

namespace Proper

variable {c : Client capacity} {x : Exchange} (react : List Obs → Handler → Event → List Reaction)

/-- An entry that is no event. -/
theorem note (h : c.Proper) (obs : Obs) (hobs : ∀ event, obs ≠ .raised event) : (c.note obs).Proper where
  current := h.current
  waiting := h.waiting
  raised := by
    intro event hevent
    rcases List.mem_cons.mp hevent with heq | hmem
    · exact absurd heq.symm (hobs event)
    · exact h.raised event hmem

theorem raise (h : c.Proper) {event : Event} (hevent : event.Documented) : (c.note (.raised event)).Proper where
  current := h.current
  waiting := h.waiting
  raised := by
    intro other hother
    rcases List.mem_cons.mp hother with heq | hmem
    · cases heq
      exact hevent
    · exact h.raised other hmem

theorem inFlight (h : c.Proper) (hx : x.Proper) : @Proper capacity { c with current := some x } where
  current := by
    rintro y ⟨⟩
    exact hx
  waiting := h.waiting
  raised := h.raised

theorem send (h : c.Proper) (hx : x.Proper) : (c.send x).Proper := by
  unfold Client.send
  cases c.txFn with
  | none => exact h.inFlight ⟨hx.known, hx.small⟩
  | some fn =>
      have hsent := h.note (.sent fn c.txCtx (encode c.hostAddress x.request.id x.request.data)) fun _ => nofun
      exact hsent.inFlight ⟨hx.known, hx.small⟩

theorem start (h : c.Proper) : c.start.Proper := by
  unfold Client.start
  split
  · next req rest hnone hwaiting =>
      have hrest : @Proper capacity { c with waiting := rest } :=
        ⟨h.current, fun other hother => h.waiting other (hwaiting ▸ List.mem_cons_of_mem _ hother), h.raised⟩
      refine hrest.send ⟨h.waiting req (hwaiting ▸ List.mem_cons_self), fun _ counter hcounter => ?_⟩
      cases hcounter
  · exact h

theorem finish (h : c.Proper) : c.finish.Proper := Proper.start ⟨nofun, h.waiting, h.raised⟩

theorem queued (h : c.Proper) {req : Request} (hknown : isKnownDataId req.id = true) :
    @Proper capacity { c.note (.answered req .queued) with waiting := c.waiting ++ [req] } where
  current := h.current
  waiting := by
    intro other hother
    rcases List.mem_append.mp hother with hmem | hmem
    · exact h.waiting other hmem
    · rw [List.mem_singleton.mp hmem]
      exact hknown
  raised := (h.note (.answered req .queued) fun _ => nofun).raised

theorem ask (h : c.Proper) (dispatching : Bool) (req : Request) : (c.ask dispatching req).Proper := by
  unfold Client.ask
  by_cases htx : c.txFn = none
  · rw [if_pos htx]
    exact h.note _ fun _ => nofun
  rw [if_neg htx]
  by_cases hunknown : (!isKnownDataId req.id) = true
  · rw [if_pos hunknown]
    exact h.note _ fun _ => nofun
  rw [if_neg hunknown]
  have hknown : isKnownDataId req.id = true := by simpa using hunknown
  have hqueued := h.queued hknown
  dsimp only
  split_ifs
  · exact hqueued
  · exact hqueued.start
  · exact h.note _ fun _ => nofun

theorem clear (h : c.Proper) : c.clear.Proper := ⟨nofun, nofun, h.raised⟩

theorem invoke (h : c.Proper) (handler : Option Handler) (event : Event) : (c.invoke react handler event).Proper := by
  have hperforms : ∀ (reactions : List Reaction) {d : Client capacity}, d.Proper → (reactions.foldl perform d).Proper := by
    intro reactions
    induction reactions with
    | nil => exact fun h => h
    | cons reaction rest ih =>
        intro d hd
        refine ih ?_
        cases reaction with
        | poll method fn ctx => exact hd.ask true _
        | reset => exact hd.clear
  cases handler with
  | none => exact h
  | some handler => exact hperforms _ (h.note _ fun _ => nofun)

theorem dispatch (h : c.Proper) {event : Event} (hevent : event.Documented) : (c.dispatch react event).Proper := by
  unfold Client.dispatch
  exact ((h.raise hevent).invoke react _ event).invoke react _ event

theorem goOn (h : c.Proper) : c.goOn.Proper := by
  unfold Client.goOn
  cases hx : c.current with
  | none => exact h.start
  | some x => exact h.inFlight ⟨(h.current x hx).known, (h.current x hx).small⟩

theorem emptied (h : c.Proper) : c.emptied.Proper where
  current := by
    intro y hy
    obtain ⟨x, hx, rfl⟩ := Option.map_eq_some_iff.mp hy
    exact ⟨(h.current x hx).known, (h.current x hx).small⟩
  waiting := h.waiting
  raised := h.raised

theorem hear (h : c.Proper) (hx : x.Proper) (frame : MessageBytes)
    (hrange : ¬ ((multiframeInfo x.request.id).paginated ∧ (dataOf frame)[0] > maxFrameIndex)) :
    (c.hear react x frame).Proper := by
  have hheard : Exchange.Proper { x with heard := frame :: x.heard } := by
    refine ⟨hx.known, fun hpaged counter hcounter => ?_⟩
    rw [numbers_cons, Finset.mem_insert] at hcounter
    rcases hcounter with rfl | hmem
    · have hle := UInt8.not_lt.mp fun hgt => hrange ⟨hpaged, hgt⟩
      exact Nat.lt_succ_of_le (UInt8.le_iff_toNat_le.mp hle)
    · exact hx.small hpaged counter hmem
  unfold Client.hear
  dsimp only
  cases hmulti : (multiframeInfo x.request.id).multi with
  | false =>
      have hlearned : @Proper capacity { c with toSetup := c.learn x.request.id (dataOf frame) } :=
        ⟨h.current, h.waiting, h.raised⟩
      exact ((hlearned.inFlight hheard).dispatch react (documented_answer hx.known hmulti _)).finish
  | true =>
      cases hstream : (multiframeInfo x.request.id).streaming with
      | true =>
          simp only [Bool.not_true, Bool.false_eq_true, if_false, if_true]
          split_ifs
          · exact h.finish
          · have hfiled := h.inFlight (x := { x with heard := frame :: x.heard, record := x.record ++ [dataOf frame] })
              ⟨hheard.known, hheard.small⟩
            unfold addRecord
            dsimp only
            split_ifs
            · exact ((hfiled.dispatch react (documented_record _)).emptied).goOn
            · exact hfiled.goOn
      | false =>
          simp only [Bool.not_true, Bool.false_eq_true, if_false]
          have hpaged : (multiframeInfo x.request.id).paginated := ⟨hmulti, hstream⟩
          unfold addPage
          split_ifs
          · exact ((h.inFlight hheard).dispatch react
              (Exchange.documented_report hheard.known hpaged (List.cons_ne_nil _ _) (hheard.small hpaged))).finish
          · exact h.inFlight ⟨hheard.known, hheard.small⟩

theorem receive (h : c.Proper) (frame : MessageBytes) : (c.receive react frame).Proper := by
  unfold Client.receive
  dsimp only
  split
  · exact h.dispatch react (documented_rejection (by decide))
  · next x hx =>
      split_ifs with hours hid hrange
      · exact h.dispatch react (documented_rejection (by decide))
      · exact h.dispatch react (documented_rejection (by decide))
      · exact h.dispatch react (documented_sequence hrange.1)
      · refine h.hear react (h.current x hx) frame ?_
        rw [not_not] at hid
        rwa [hid] at hrange

theorem take (h : c.Proper) (byte : UInt8) : (c.take react byte).Proper := by
  have htaken : @Proper capacity { c with
      window := (wire.step c.window byte).1
      discarded := c.discarded + .ofNat (wire.step c.window byte).2.junk.length } := ⟨h.current, h.waiting, h.raised⟩
  unfold Client.take
  dsimp only
  split
  · exact htaken.receive react _
  · exact htaken.dispatch react (documented_rejection (by decide))
  · exact htaken.dispatch react (documented_rejection (by decide))
  · exact htaken
  · exact htaken

theorem lapse (h : c.Proper) (hx : x.Proper) : (c.lapse react x).Proper := by
  unfold Client.lapse
  dsimp only
  split_ifs with hpages hframes
  · exact (h.dispatch react (Exchange.documented_report hx.known hpages.1 hpages.2 (hx.small hpages.1))).finish
  · have hid : x.request.id = .faultRecords := (multi_of_streaming hframes.1).1
    rw [hid]
    exact (h.dispatch react (documented_truncated hframes.2)).finish
  · exact h.send ⟨hx.known, hx.small⟩
  · exact (h.dispatch react (documented_timeout hx.known)).finish

theorem call (h : c.Proper) (call : Call) : (c.call react call).Proper := by
  cases call with
  | poll method fn ctx => exact h.ask false _
  | feed data =>
      change (data.foldl (Client.take react) c).Proper
      induction data generalizing c with
      | nil => exact h
      | cons byte rest ih => exact ih (h.take react byte)
  | tick nowMs =>
      have hticked : @Proper capacity { c with nowMs } := ⟨h.current, h.waiting, h.raised⟩
      change (c.tick react nowMs).Proper
      unfold Client.tick
      dsimp only
      split
      · next x hx =>
          split_ifs
          · exact hticked.lapse react (h.current x hx)
          · exact hticked
      · exact hticked
  | reset => exact h.clear
  | _ => exact ⟨h.current, h.waiting, h.raised⟩

theorem new (hostAddress : HostAddress) (bmsAddress : UInt8) : (@Client.new capacity hostAddress bmsAddress).Proper where
  current := by
    rintro x ⟨⟩
  waiting := by
    rintro req ⟨⟩
  raised := by
    rintro event ⟨⟩

theorem run (h : c.Proper) (calls : List Call) : (c.run react calls).Proper := by
  induction calls generalizing c with
  | nil => exact h
  | cons call rest ih => exact ih (h.call react call)

end Proper

end Client

/-- What is raised agrees with its documentation. -/
def RaisesDocumented (_ : List (Entry capacity)) (entry : Entry capacity) : Prop :=
  ∀ event, entry.obs = .raised event → event.Documented

/-- Whatever is called, and whatever the handlers poll or reset on what they have been shown, every event agrees with as much of its documentation as can be told from it. -/
theorem run_raises_documented (react : List Obs → Handler → Event → List Reaction) (hostAddress : HostAddress)
    (bmsAddress : UInt8) (calls : List Call) :
    History.Everywhere RaisesDocumented
      (run (.seeing react) (@World.new capacity hostAddress bmsAddress) calls).log := by
  have hsim := (@sim_new capacity hostAddress bmsAddress).run react nofun calls
  have hproper := (@Client.Proper.new capacity hostAddress bmsAddress).run react calls
  refine History.everywhere_iff.mpr fun later entry past hlog event hobs => hproper.raised event ?_
  rw [← hsim.trace]
  refine List.mem_filter.mpr ⟨List.mem_map.mpr ⟨entry, ?_, hobs⟩, rfl⟩
  rw [hlog]
  exact List.mem_append_right _ List.mem_cons_self

end Haidi
