import HaidiBms.Protocol

/-!
# The byte-stream framer

`FrameParser` of the source, one byte at a time. The body of the loop in `feed` is `step`: whichever callback a byte causes is the last thing its iteration does, so a step returns the callback to make and the caller makes it before the next byte. A parser never holds a complete frame between bytes, and carries the proof.
-/

namespace Haidi

inductive FrameError
  | badLength
  | checksum
  deriving DecidableEq

/-- A call the framer makes: the frame sink or the error callback. -/
inductive FrameSignal
  | frame (frame : MessageBytes)
  | error (error : FrameError)
  deriving DecidableEq

structure FrameParser where
  buf : MessageBytes := Vector.replicate msgMaxLen 0
  len : Nat := 0
  discarded : UInt32 := 0
  len_lt : len < msgMaxLen := by exact msgStartIndex_lt

namespace FrameParser

/-- The loop of `resync`: slide to the next start flag below `len`, counting each byte passed. The first argument bounds the number of turns. -/
def seek (buf : MessageBytes) (len : Nat) : Nat → Nat → UInt32 → Nat × UInt32
  | 0, next, discarded => (next, discarded)
  | turns + 1, next, discarded =>
    if next < len ∧ buf.getD next 0 ≠ startFlag then seek buf len turns (next + 1) (discarded + 1)
    else (next, discarded)

theorem le_seek (buf : MessageBytes) (len turns next : Nat) (discarded : UInt32) :
    next ≤ (seek buf len turns next discarded).1 := by
  induction turns generalizing next discarded with
  | zero => exact le_rfl
  | succ turns ih =>
      unfold seek
      split_ifs
      · exact (Nat.le_succ next).trans (ih _ _)
      · exact le_rfl

/-- The copy loop of `resync`, in place and in ascending order. -/
def compact (buf : MessageBytes) (next remaining : Nat) : MessageBytes :=
  (List.range remaining).foldl (fun buf i => buf.setIfInBounds i (buf.getD (next + i) 0)) buf

/-- Drops the first byte of a candidate of `len` bytes and moves the next start flag to the front. -/
def resync (buf : MessageBytes) (len : Nat) (discarded : UInt32) (h : len ≤ msgMaxLen) : FrameParser :=
  let found := seek buf len len 1 (discarded + 1)
  let remaining := len - found.1
  { buf := compact buf found.1 remaining
    len := remaining
    discarded := found.2
    len_lt := by
      have : 1 ≤ found.1 := le_seek buf len len 1 (discarded + 1)
      have : len ≤ 13 := h
      change len - found.1 < 13
      omega }

def step (p : FrameParser) (byte : UInt8) : FrameParser × Option FrameSignal :=
  if p.len = 0 ∧ byte ≠ startFlag then
    ({ p with discarded := p.discarded + 1 }, none)
  else
    let buf := p.buf.set p.len byte p.len_lt
    let len := p.len + 1
    if len = dataOffset ∧ getElem buf msgLenIndex msgLenIndex_lt ≠ lengthFlag then
      (resync buf len p.discarded p.len_lt, some (.error .badLength))
    else if h : len < msgMaxLen then
      ({ p with buf, len, len_lt := h }, none)
    else if getElem buf msgLastIndex msgLastIndex_lt = calcChksum buf then
      ({ p with buf, len := 0, len_lt := msgStartIndex_lt }, some (.frame buf))
    else
      (resync buf len p.discarded p.len_lt, some (.error .checksum))

/-- The whole of `feed`, the callbacks it makes in order. -/
def feed (p : FrameParser) : List UInt8 → FrameParser × List FrameSignal
  | [] => (p, [])
  | byte :: rest =>
    let now := p.step byte
    let later := feed now.1 rest
    (later.1, now.2.toList ++ later.2)

/-- A frame just handed over is still in the buffer. -/
theorem step_frame {p : FrameParser} {byte : UInt8} {frame : MessageBytes} (h : (p.step byte).2 = some (.frame frame)) :
    (p.step byte).1.buf = frame := by
  unfold step at h ⊢
  dsimp only at h ⊢
  split_ifs at h ⊢ <;> cases h
  rfl

def reset (p : FrameParser) : FrameParser :=
  { p with len := 0, discarded := 0, len_lt := msgStartIndex_lt }

/-- What the parser holds of an unfinished candidate. -/
def held (p : FrameParser) : List UInt8 := p.buf.toList.take p.len

theorem length_held (p : FrameParser) : p.held.length = p.len := by
  rw [held, List.length_take, Vector.length_toList, min_eq_left p.len_lt.le]

theorem held_eq_nil (p : FrameParser) : p.held = [] ↔ p.len = 0 := by
  rw [← length_held, List.length_eq_zero_iff]

@[simp] theorem held_reset (p : FrameParser) : p.reset.held = [] := rfl

@[simp] theorem discarded_reset (p : FrameParser) : p.reset.discarded = 0 := rfl

end FrameParser

/-- What the owner of a parser may do to it: feed it a chunk of bytes or reset it. -/
inductive ParserCall
  | feed (data : List UInt8)
  | reset

def ParserCall.apply (p : FrameParser) : ParserCall → FrameParser
  | .feed data => (p.feed data).1
  | .reset => p.reset

/-- A parser some sequence of calls leads to from construction. -/
def FrameParser.Reachable (p : FrameParser) : Prop :=
  ∃ calls : List ParserCall, p = calls.foldl ParserCall.apply {}

end Haidi
