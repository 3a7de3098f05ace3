import HaidiBms.Session.Likeness
import HaidiBms.Session.Passive

/-!
# Frames that are turned away

A frame that reaches the session while nothing is in flight, from another address, for another command, or with a counter no bounded reply has, is reported and otherwise ignored. Insert any number of them anywhere between the bytes of a run: what the run sends and raises stays the same at every step, and so does what it comes to.
-/

namespace Haidi

variable {capacity : ℕ+}

/-- Why a frame that arrives now is turned away, if it is. -/
def rejection? (bms : HaidiBMS capacity) (frame : MessageBytes) : Option ErrorCode :=
  if bms.state ≠ .awaiting then some .unexpectedDataId
  else if getElem frame msgAddressIndex msgAddressIndex_lt ≠ bms.bmsAddress then some .badSourceAddress
  else if getElem frame msgDataIdIndex msgDataIdIndex_lt ≠ bms.head.id then some .unexpectedDataId
  else if (multiframeInfo bms.head.id).multi ∧ !(multiframeInfo bms.head.id).streaming ∧
      getElem (dataOf frame) 0 byte0_lt > maxFrameIndex then some .frameSequence
  else none

/-- The report of a frame that is turned away. -/
def rejected (frame : MessageBytes) (error : ErrorCode) : Event :=
  { kind := .protocolError, id := getElem frame msgDataIdIndex msgDataIdIndex_lt, error }

theorem rejected_isRejection {bms : HaidiBMS capacity} {frame : MessageBytes} {error : ErrorCode}
    (h : rejection? bms frame = some error) : (rejected frame error).isRejection = true := by
  unfold rejection? at h
  split_ifs at h <;> cases h <;> rfl

theorem onFrame_rejected {C : Type} (env : Env capacity C) (w : World capacity) (frame : MessageBytes) {error : ErrorCode}
    (h : rejection? w.bms frame = some error) : onFrame env w frame = emit env w (rejected frame error) := by
  unfold rejection? at h
  unfold onFrame
  dsimp only
  by_cases hidle : w.bms.state ≠ .awaiting
  · rw [if_pos hidle] at h ⊢
    cases h
    rfl
  rw [if_neg hidle] at h ⊢
  by_cases haddress : frame[msgAddressIndex] ≠ w.bms.bmsAddress
  · rw [if_pos haddress] at h ⊢
    cases h
    rfl
  rw [if_neg haddress] at h ⊢
  by_cases hid : frame[msgDataIdIndex] ≠ w.bms.head.id
  · rw [if_pos hid] at h ⊢
    cases h
    rfl
  rw [if_neg hid] at h ⊢
  rw [not_not] at hid
  by_cases hsequence : (multiframeInfo w.bms.head.id).multi ∧ !(multiframeInfo w.bms.head.id).streaming ∧
      (dataOf frame)[0] > maxFrameIndex
  · rw [if_pos hsequence] at h
    cases h
    obtain ⟨hmulti, hstream, hrange⟩ := hsequence
    rw [← hid] at hmulti hstream
    have hkept : (w.modify fun bms => noteCounts bms frame[msgDataIdIndex] (dataOf frame)) = w := by
      rw [World.modify, noteCounts_multi hmulti]
    rw [hmulti, if_neg (by decide), if_neg (by simpa using hstream), hkept, handleMulti, if_pos hrange]
    rfl
  · rw [if_neg hsequence] at h
    cases h

/-- A frame that is turned away leaves the session as it was, but for the parser its bytes went through. -/
theorem feed_rejected (w : World capacity) (data : List UInt8) (frame : MessageBytes) {error : ErrorCode}
    (hframe : (w.bms.parser.feed data).2 = [.frame frame]) (h : rejection? w.bms frame = some error) :
    (feed .passive w data).bms = { w.bms with parser := (w.bms.parser.feed data).1 } ∧
      outputs (feed .passive w data).log = outputs w.log ++ [.event (rejected frame error)] := by
  induction data generalizing w with
  | nil => cases hframe
  | cons byte rest ih =>
      change (w.bms.parser.step byte).2.toList ++ ((w.bms.parser.step byte).1.feed rest).2 = _ at hframe
      cases hsignal : (w.bms.parser.step byte).2 with
      | none =>
          rw [hsignal] at hframe
          change (feed .passive (feedByte .passive w byte) rest).bms = _ ∧
            outputs (feed .passive (feedByte .passive w byte) rest).log = _
          rw [feedByte_silent .passive w hsignal]
          exact ih (w.modify fun bms => { bms with parser := (w.bms.parser.step byte).1 }) hframe h
      | some signal =>
          rw [hsignal] at hframe
          obtain ⟨rfl, hnone⟩ := List.cons.inj hframe
          have hbyte : feedByte .passive w byte =
              emit .passive (w.modify fun bms => { bms with parser := (w.bms.parser.step byte).1 })
                (rejected frame error) := by
            rw [feedByte_signal .passive w hsignal]
            exact onFrame_rejected .passive _ frame h
          obtain ⟨hbms, hlog⟩ :=
            emit_passive (w.modify fun bms => { bms with parser := (w.bms.parser.step byte).1 }) (rejected frame error)
          rw [← hbyte] at hbms hlog
          change (feed .passive (feedByte .passive w byte) rest).bms = _ ∧
            outputs (feed .passive (feedByte .passive w byte) rest).log = _
          rw [feed_silent _ _ rest (by rw [hbms]; exact hnone), World.modify_bms, World.modify_log, hlog, hbms]
          exact ⟨rfl, rfl⟩

/-! ### Runs with and without -/

/-- A call of a run, or the bytes of a frame that are put in between. Bytes put in the middle of a chunk come between two calls that feed its parts. -/
inductive Step
  | call (c : Call)
  | noise (frame : MessageBytes) (error : ErrorCode)

namespace Step

/-- The run without what was put in. -/
def quiet : List Step → List Call
  | [] => []
  | .call c :: rest => c :: quiet rest
  | .noise _ _ :: rest => quiet rest

/-- The run with what was put in. -/
def noisy : List Step → List Call
  | [] => []
  | .call c :: rest => c :: noisy rest
  | .noise frame _ :: rest => .feed frame.toList :: noisy rest

/-- The framer delivers each frame put in and is left with what it held, and the session turns the frame away with the error given. -/
def Rejected (w : World capacity) : List Step → Prop
  | [] => True
  | .call c :: rest => Rejected (Haidi.call .passive w c) rest
  | .noise frame error :: rest =>
      ((w.bms.parser.feed frame.toList).2 = [.frame frame] ∧
        (w.bms.parser.feed frame.toList).1.held = w.bms.parser.held ∧ rejection? w.bms frame = some error) ∧
      Rejected (Haidi.call .passive w (.feed frame.toList)) rest

instance decidableRejected : (w : World capacity) → (script : List Step) → Decidable (Rejected w script)
  | _, [] => isTrue trivial
  | w, .call c :: rest => decidableRejected (Haidi.call .passive w c) rest
  | w, .noise frame _ :: rest =>
      have := decidableRejected (Haidi.call .passive w (.feed frame.toList)) rest
      inferInstanceAs (Decidable ((_ ∧ _ ∧ _) ∧ _))

/-- The outputs of a run's calls, with a report for each frame that was put in. -/
def merge : List Step → List (List Output) → List (List Output)
  | .noise frame error :: rest, outs => [.event (rejected frame error)] :: merge rest outs
  | .call _ :: rest, out :: outs => out :: merge rest outs
  | _, _ => []

end Step

theorem passive_lockstep {whole : Prop} {drift : UInt32} {past past' : List (Entry capacity)} :
    Lockstep .passive (Twins whole drift past past') := ⟨fun _ _ _ => rfl, fun _ _ _ h => h⟩

/-- What a call gives out is told by what the session looks at. -/
theorem Alike.call_passive {whole : Prop} {w v : World capacity} (h : Alike whole w.bms v.bms) (c : Call) :
    Alike whole (call .passive w c).bms (call .passive v c).bms ∧
      (outputs (call .passive w c).log).drop (outputs w.log).length =
        (outputs (call .passive v c).log).drop (outputs v.log).length := by
  have hstart : Twins whole (w.bms.parser.discarded - v.bms.parser.discarded) w.log v.log w v :=
    ⟨h, [], [], rfl, rfl, rfl, ((UInt32.add_comm _ _).trans (UInt32.sub_add_cancel _ _)).symm⟩
  have htwins := hstart.call passive_lockstep c
  obtain ⟨new, new', hnew, hnew', hsame, -⟩ := htwins.matched
  refine ⟨htwins.alike, ?_⟩
  rw [hnew, hnew', outputs_append, outputs_append, List.drop_left, List.drop_left, outputs_congr hsame]

theorem Alike.run_noisy {w v : World capacity} (h : Alike True w.bms v.bms) (script : List Step)
    (hscript : Step.Rejected v script) :
    emitted v (Step.noisy script) = Step.merge script (emitted w (Step.quiet script)) ∧
      Alike True (run .passive w (Step.quiet script)).bms (run .passive v (Step.noisy script)).bms := by
  induction script generalizing w v with
  | nil => exact ⟨rfl, h⟩
  | cons step rest ih =>
      cases step with
      | call c =>
          obtain ⟨halike, hout⟩ := h.call_passive c
          obtain ⟨houts, hend⟩ := ih halike hscript
          exact ⟨congrArg₂ List.cons hout.symm houts, hend⟩
      | noise frame error =>
          obtain ⟨⟨hframe, hheld, hrejected⟩, hrest⟩ := hscript
          obtain ⟨hbms, hout⟩ := feed_rejected v frame.toList frame hframe hrejected
          have halike : Alike True w.bms (call .passive v (.feed frame.toList)).bms := by
            change Alike True w.bms (feed .passive v frame.toList).bms
            rw [hbms]
            exact { h with held := h.held.trans hheld.symm, exchange := fun hx => { h.exchange hx with } }
          obtain ⟨houts, hend⟩ := ih halike hrest
          refine ⟨congrArg₂ List.cons ?_ houts, hend⟩
          change (outputs (feed .passive v frame.toList).log).drop (outputs v.log).length = _
          rw [hout, List.drop_left]

/-- Whatever a run of a session with passive handlers does, frames that are turned away do not disturb it: put in anywhere and in any number, each is reported once, every call of the run gives out what it gives out without them, and the session ends with the same queue, timers, retries, reassembly and counts. -/
theorem run_undisturbed_by_noise (hostAddress : HostAddress) (bmsAddress : UInt8) (script : List Step)
    (h : Step.Rejected (World.new hostAddress bmsAddress : World capacity) script) :
    let w : World capacity := World.new hostAddress bmsAddress
    emitted w (Step.noisy script) = Step.merge script (emitted w (Step.quiet script)) ∧
      Alike True (run .passive w (Step.quiet script)).bms (run .passive w (Step.noisy script)).bms := by
  refine Alike.run_noisy ?_ script h
  exact ⟨rfl, rfl, rfl, rfl, rfl, rfl, rfl, rfl, rfl, rfl, rfl, rfl, rfl, rfl, rfl, rfl, nofun,
    fun _ => ⟨rfl, rfl, rfl, rfl, rfl, rfl, rfl, rfl, rfl⟩⟩

set_option maxRecDepth 4000 in
/-- A late reply before the poll, a frame from another address and one with a stray counter during the reply. -/
theorem run_undisturbed_by_noise_version :
    let frame : UInt8 → DataId → UInt8 → MessageBytes := fun address id counter =>
      encode address id ((Vector.replicate 8 0).set 0 counter)
    let script : List Step :=
      [.call (.setTxHandler (some 1) 0), .noise (frame bmsAddress .rtc 0) .unexpectedDataId,
        .call (.poll .softwareVersion none 0), .noise (frame 0x07 .softwareVersion 0) .badSourceAddress,
        .call (.feed (frame bmsAddress .softwareVersion 0).toList),
        .noise (frame bmsAddress .softwareVersion 0xFF) .frameSequence, .call (.tick 250)]
    let w : World 24 := World.new .comp bmsAddress
    emitted w (Step.noisy script) = Step.merge script (emitted w (Step.quiet script)) := by
  intro frame script w
  exact (run_undisturbed_by_noise .comp bmsAddress script (by decide)).1

end Haidi
