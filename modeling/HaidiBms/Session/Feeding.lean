import HaidiBms.Session.Rules
import HaidiBms.FrameParser.Accounting

/-!
# What the framer hands the session

Bytes that complete nothing only change the parser, and a byte that completes something makes one callback. So what a chunk does to a session is told by what the framer makes of it.
-/

namespace Haidi

variable {capacity : ℕ+} {C : Type}

/-- What a call brings in from the wire. -/
def Call.received : Call → List UInt8
  | .feed data => data
  | _ => []

/-- What a sequence of calls brings in from the wire. -/
def received (calls : List Call) : List UInt8 := calls.flatMap Call.received

theorem feed_silent (env : Env capacity C) (w : World capacity) (data : List UInt8)
    (h : (w.bms.parser.feed data).2 = []) :
    feed env w data = w.modify fun bms => { bms with parser := (w.bms.parser.feed data).1 } := by
  induction data generalizing w with
  | nil => rfl
  | cons byte rest ih =>
      obtain ⟨hbyte, hrest⟩ := List.append_eq_nil_iff.mp h
      change feed env (feedByte env w byte) rest = _
      rw [feedByte_silent env w (Option.toList_eq_nil_iff.mp hbyte), ih _ hrest]
      rfl

theorem feed_signal (env : Env capacity C) (w : World capacity) (data : List UInt8) (byte : UInt8)
    (signal : FrameSignal) (hdata : (w.bms.parser.feed data).2 = [])
    (hbyte : ((w.bms.parser.feed data).1.step byte).2 = some signal) :
    feed env w (data ++ [byte]) =
      onSignal env (w.modify fun bms => { bms with parser := ((w.bms.parser.feed data).1.step byte).1 }) signal := by
  rw [feed, List.foldl_append]
  change feedByte env (feed env w data) byte = _
  rw [feed_silent env w data hdata, feedByte]
  dsimp only [World.modify_bms]
  rw [hbyte]
  rfl

/-- A genuine frame that meets an empty parser reaches the session whole. -/
theorem feed_frame (env : Env capacity C) (w : World capacity) (hparser : w.bms.parser.held = [])
    (frame : MessageBytes) (hstart : frame[msgStartIndex] = startFlag) (hlen : frame[msgLenIndex] = lengthFlag)
    (hsum : frame[msgLastIndex] = calcChksum frame) :
    ∃ parser : FrameParser, parser.held = [] ∧
      feed env w frame.toList = onFrame env (w.modify fun bms => { bms with parser }) frame := by
  obtain ⟨hsilent, hheld, hsignal⟩ := w.bms.parser.feed_frame hparser frame hstart hlen hsum
  refine ⟨_, hheld, ?_⟩
  exact (congrArg (feed env w) (FrameParser.toList_eq_concat frame)).symm.trans (feed_signal env w _ _ _ hsilent hsignal)

theorem with_dispatching {bms : HaidiBMS capacity} {nested : Bool} (h : bms.dispatching = nested) :
    { bms with dispatching := nested } = bms := by
  subst h
  rfl

/-- Where nobody is listening an event only shows in the log. -/
theorem emit_unheard (env : Env capacity C) (w : World capacity) (event : Event)
    (howner : w.bms.owner.bind Request.handler = none) (hevent : w.bms.eventFn = none) :
    emit env w event = (w.note (.raised event)).note .settled := by
  have hsession : (opened w event).bms.eventFn = none := hevent
  rw [emit_eq, invokePerRequest, howner]
  dsimp only
  rw [invokeSessionWide, hsession]
  dsimp only
  cases hnested : w.bms.dispatching with
  | true =>
      have := with_dispatching hnested
      simp [closed, opened, World.note, World.modify, this]
  | false =>
      have := with_dispatching hnested
      simp [closed, opened, World.note, World.modify, this]

end Haidi
