import HaidiBms.FrameParser.Model
import HaidiBms.Lib.Guarded

/-!
# The framer, checked

The framer of the source with every access to its buffer and every subtraction checked. A step from any parser passes its checks and is the step of the framer.
-/

namespace Haidi.Checked

open Guarded

/-- The low byte of the sum of the first `count` bytes. -/
def sumFirst {n : ℕ} (bytes : Vector UInt8 n) (count : ℕ) : Option UInt8 :=
  (List.range count).foldlM (fun sum i => do return sum + (← load bytes i)) 0

def calcChksum (bytes : MessageBytes) : Option UInt8 := sumFirst bytes msgLastIndex

/-- The loop of `resync`. -/
def seek (buf : MessageBytes) (len next : ℕ) (discarded : UInt32) : Option (ℕ × UInt32) :=
  whileLoop (fun s => if s.1 < len then do return (← load buf s.1) != startFlag else some false)
    (fun s => some (s.1 + 1, s.2 + 1)) (len + 1) (next, discarded)

def compact (buf : MessageBytes) (next remaining : ℕ) : Option MessageBytes :=
  (List.range remaining).foldlM (fun buf i => do store buf i (← load buf (next + i))) buf

def resync (buf : MessageBytes) (len : ℕ) (discarded : UInt32) : Option FrameParser := do
  let found ← seek buf len 1 (discarded + 1)
  let remaining ← subtract len found.1
  let buf ← compact buf found.1 remaining
  if h : remaining < msgMaxLen then some { buf, len := remaining, discarded := found.2, len_lt := h } else none

def step (p : FrameParser) (byte : UInt8) : Option (FrameParser × Option FrameSignal) :=
  if p.len = 0 ∧ byte ≠ startFlag then
    some ({ p with discarded := p.discarded + 1 }, none)
  else do
    let buf ← store p.buf p.len byte
    let len := p.len + 1
    if len = dataOffset ∧ (← load buf msgLenIndex) ≠ lengthFlag then
      return (← resync buf len p.discarded, some (.error .badLength))
    else if h : len < msgMaxLen then
      return ({ p with buf, len, len_lt := h }, none)
    else if (← load buf msgLastIndex) = (← calcChksum buf) then
      return ({ p with buf, len := 0, len_lt := msgStartIndex_lt }, some (.frame buf))
    else
      return (← resync buf len p.discarded, some (.error .checksum))

/-! ### Every check passes -/

theorem sumFirst_eq {n : ℕ} (bytes : Vector UInt8 n) {count : ℕ} (h : count ≤ n) :
    sumFirst bytes count = some ((bytes.toList.take count).foldl (fun sum byte => sum + byte) 0) := by
  rw [sumFirst, foldlM_eq (f := fun sum i => sum + bytes.getD i 0)]
  · congr 1
    induction count with
    | zero => rfl
    | succ count ih =>
        have hlt : count < bytes.toList.length := by
          rw [Vector.length_toList]
          exact h
        rw [List.range_succ, List.foldl_append, ih (Nat.le_of_succ_le h), List.take_succ_eq_append_getElem hlt,
          List.foldl_append]
        simp [Vector.getD, Array.getD, Nat.lt_of_succ_le h]
  · intro sum i hi
    rw [load_eq bytes ((List.mem_range.mp hi).trans_le h) 0]
    rfl

theorem calcChksum_eq (bytes : MessageBytes) : calcChksum bytes = some (Haidi.calcChksum bytes) :=
  sumFirst_eq bytes (Nat.le_succ msgLastIndex)

theorem seek_turns (buf : MessageBytes) {len : ℕ} (h : len ≤ msgMaxLen) (turns next : ℕ) (discarded : UInt32)
    (hturns : len ≤ next + turns) :
    whileLoop (fun s => if s.1 < len then do return (← load buf s.1) != startFlag else some false)
      (fun s => some (s.1 + 1, s.2 + 1)) (turns + 1) (next, discarded) =
      some (FrameParser.seek buf len turns next discarded) := by
  induction turns generalizing next discarded with
  | zero => rw [whileLoop, if_neg (by dsimp only; omega)]; rfl
  | succ turns ih =>
      rw [whileLoop, FrameParser.seek]
      dsimp only
      by_cases hnext : next < len
      · rw [if_pos hnext, load_eq buf (hnext.trans_le h) 0]
        by_cases hstart : buf.getD next 0 = startFlag
        · rw [hstart, if_neg fun hseek => hseek.2 rfl]
          rfl
        · rw [if_pos ⟨hnext, hstart⟩, ← ih (next + 1) (discarded + 1) (by omega)]
          have htest : (buf.getD next 0 != startFlag) = true := bne_iff_ne.mpr hstart
          change (if (buf.getD next 0 != startFlag) = true then _ else _) = _
          rw [if_pos htest]
          rfl
      · rw [if_neg hnext, if_neg fun hseek => hnext hseek.1]
        rfl

theorem seek_le (buf : MessageBytes) {len : ℕ} (turns next : ℕ) (discarded : UInt32) (h : next ≤ len) :
    (FrameParser.seek buf len turns next discarded).1 ≤ len := by
  induction turns generalizing next discarded with
  | zero => exact h
  | succ turns ih =>
      rw [FrameParser.seek]
      split_ifs with hseek
      · exact ih _ _ hseek.1
      · exact h

theorem compact_eq (buf : MessageBytes) {next remaining : ℕ} (h : next + remaining ≤ msgMaxLen) :
    compact buf next remaining = some (FrameParser.compact buf next remaining) := by
  refine foldlM_eq (fun buf i hi => ?_) buf
  rw [List.mem_range] at hi
  rw [load_eq buf (show next + i < msgMaxLen by omega) 0]
  exact store_eq buf (by omega) _

theorem resync_eq (buf : MessageBytes) {len : ℕ} (discarded : UInt32) (h : len ≤ msgMaxLen) (hpos : 1 ≤ len) :
    resync buf len discarded = some (FrameParser.resync buf len discarded h) := by
  have hle : (FrameParser.seek buf len len 1 (discarded + 1)).1 ≤ len := seek_le buf len 1 (discarded + 1) hpos
  rw [resync, seek, seek_turns buf h len 1 (discarded + 1) (Nat.le_add_left len 1)]
  change (subtract len _ >>= _) = _
  rw [subtract_eq hle]
  change (compact buf _ _ >>= _) = _
  rw [compact_eq buf (show _ + (len - _) ≤ msgMaxLen by omega)]
  exact dif_pos (FrameParser.resync buf len discarded h).len_lt

theorem step_eq (p : FrameParser) (byte : UInt8) : step p byte = some (p.step byte) := by
  unfold step FrameParser.step
  by_cases hskip : p.len = 0 ∧ byte ≠ startFlag
  · rw [if_pos hskip, if_pos hskip]
  · rw [if_neg hskip, if_neg hskip, store_set p.buf p.len_lt byte]
    dsimp only [Option.bind_eq_bind, Option.bind_some]
    rw [load_get _ msgLenIndex_lt]
    dsimp only [Option.bind_some]
    split_ifs with hlength hroom hsum
    · rw [resync_eq _ p.discarded p.len_lt (Nat.succ_pos _)]
      rfl
    · rfl
    · rw [load_get _ msgLastIndex_lt, calcChksum_eq]
      exact if_pos hsum
    · rw [load_get _ msgLastIndex_lt, calcChksum_eq, resync_eq _ p.discarded p.len_lt (Nat.succ_pos _)]
      exact if_neg hsum

end Haidi.Checked
