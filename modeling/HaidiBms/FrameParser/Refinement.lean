import HaidiBms.FrameParser.Model
import HaidiBms.Lib.Scanner

/-!
# The framer is a window scanner

`FrameParser` keeps a fixed buffer, a length and a count, and slides by copying. What it does to the bytes it holds is `Scan.Format.step` at `wire`: the same window, the same verdict, and the count of discarded bytes moves by what the window shed outside a frame. Everything proved of the scanner is then true of the parser.
-/

namespace Haidi

/-- The frames of the wire: an `0xA5` first, an `0x08` in the length field, and the sum of the rest last. The length is looked at once, when the window is exactly four bytes long. -/
def wire : Scan.Format UInt8 where
  start := fun byte => byte == startFlag
  size := msgMaxLen
  hopeless := fun window => window.length == dataOffset && window.getD msgLenIndex 0 != lengthFlag
  valid := fun window =>
    window.getD msgLastIndex 0 == (window.take msgLastIndex).foldl (fun sum byte => sum + byte) 0
  size_pos := msgStartIndex_lt

/-- The callback a verdict is reported by. -/
inductive Reports : Scan.Verdict UInt8 → Option FrameSignal → Prop
  | skipped (byte : UInt8) : Reports (.skipped byte) none
  | kept : Reports .kept none
  | found (frame : MessageBytes) : Reports (.found frame.toList) (some (.frame frame))
  | badLength (shed : List UInt8) : Reports (.rejected true shed) (some (.error .badLength))
  | checksum (shed : List UInt8) : Reports (.rejected false shed) (some (.error .checksum))

namespace FrameParser

/-! ### The two loops of `resync` -/

theorem seek_eq (buf : MessageBytes) (len : Nat) (hlen : len ≤ msgMaxLen) (turns next : Nat)
    (discarded : UInt32) (hturns : len - next ≤ turns) :
    seek buf len turns next discarded =
      (next + (((buf.toList.take len).drop next).takeWhile fun byte => !(byte == startFlag)).length,
        discarded + UInt32.ofNat
          (((buf.toList.take len).drop next).takeWhile fun byte => !(byte == startFlag)).length) := by
  have hsize : (buf.toList.take len).length = len := by
    rw [List.length_take, Vector.length_toList, min_eq_left hlen]
  induction turns generalizing next discarded with
  | zero =>
      rw [List.drop_of_length_le (by omega)]
      simp [seek]
  | succ turns ih =>
      unfold seek
      by_cases hnext : next < len
      · have hin : next < (buf.toList.take len).length := hsize.symm ▸ hnext
        have hbyte : (buf.toList.take len)[next] = buf.getD next 0 := by
          rw [List.getElem_take, Vector.getElem_toList]
          simp [Vector.getD, show next < 13 from lt_of_lt_of_le hnext hlen]
        rw [List.drop_eq_getElem_cons (by omega), hbyte, List.takeWhile_cons]
        by_cases hflag : buf.getD next 0 = startFlag
        · simp [hflag]
        · rw [if_pos ⟨hnext, hflag⟩, ih (next + 1) (discarded + 1) (by omega), if_pos (by simpa using hflag),
            List.length_cons, Nat.add_assoc, Nat.add_comm 1, UInt32.ofNat_add, UInt32.add_assoc,
            UInt32.add_comm 1]
          rfl
      · rw [if_neg (fun h => hnext h.1), List.drop_of_length_le (by omega)]
        simp

theorem getD_eq_getElem (buf : MessageBytes) (i : Nat) (h : i < msgMaxLen) : buf.getD i 0 = buf[i] := by
  simp [Vector.getD, h]

/-- Copying forward in place moves the suffix at `next` to the front: the byte read has not been overwritten yet. -/
theorem getElem_compact (buf : MessageBytes) (next remaining : Nat) (hfit : next + remaining ≤ msgMaxLen)
    (j : Nat) (hj : j < msgMaxLen) :
    (compact buf next remaining)[j] = if h : j < remaining then buf[next + j] else buf[j] := by
  induction remaining generalizing j with
  | zero => simp [compact]
  | succ remaining ih =>
      have hprev := ih (by omega)
      have hsource : (compact buf next remaining).getD (next + remaining) 0 = buf[next + remaining] := by
        rw [getD_eq_getElem _ _ (by omega), hprev, dif_neg (by omega)]
      have hlast : compact buf next (remaining + 1) =
          (compact buf next remaining).setIfInBounds remaining buf[next + remaining] := by
        rw [← hsource]
        simp only [compact, List.range_succ, List.foldl_append, List.foldl_cons, List.foldl_nil]
      simp only [hlast, Vector.getElem_setIfInBounds]
      split_ifs with heq hlt hlt
      · subst heq
        rfl
      · omega
      · rw [hprev, dif_pos (by omega)]
      · rw [hprev, dif_neg (by omega)]

theorem take_toList_compact (buf : MessageBytes) (next remaining : Nat)
    (hfit : next + remaining ≤ msgMaxLen) :
    (compact buf next remaining).toList.take remaining = (buf.toList.drop next).take remaining := by
  apply List.ext_getElem
  · simp only [List.length_take, List.length_drop, Vector.length_toList]
    omega
  · intro i hi _
    rw [List.length_take] at hi
    rw [List.getElem_take, Vector.getElem_toList, getElem_compact _ _ _ hfit, dif_pos (by omega),
      List.getElem_take, List.getElem_drop, Vector.getElem_toList]

/-- `resync` is the scanner's slide, and it counts exactly what the slide sheds. -/
theorem resync_eq (buf : MessageBytes) (len : Nat) (discarded : UInt32) (h : len ≤ msgMaxLen)
    (hpos : 0 < len) :
    (resync buf len discarded h).held = wire.slide (buf.toList.take len) ∧
      (resync buf len discarded h).discarded =
        discarded + UInt32.ofNat (wire.shed (buf.toList.take len)).length := by
  let window := buf.toList.take len
  let passed := (window.drop 1).takeWhile fun byte => !(byte == startFlag)
  have hsize : window.length = len := by
    rw [List.length_take, Vector.length_toList, min_eq_left h]
  have hpassed : passed.length ≤ len - 1 := by
    have := (List.takeWhile_sublist (l := window.drop 1) fun byte => !(byte == startFlag)).length_le
    rwa [List.length_drop, hsize] at this
  have hseek : seek buf len len 1 (discarded + 1) =
      (1 + passed.length, discarded + 1 + UInt32.ofNat passed.length) :=
    seek_eq buf len h len 1 (discarded + 1) (by omega)
  constructor
  · change (compact buf (seek buf len len 1 (discarded + 1)).1
      (len - (seek buf len len 1 (discarded + 1)).1)).toList.take
        (len - (seek buf len len 1 (discarded + 1)).1) = _
    rw [hseek, take_toList_compact _ _ _ (by omega), ← List.drop_take]
    change window.drop (1 + passed.length) = window.tail.dropWhile _
    rw [← List.drop_one, ← List.drop_drop]
    have hsplit : passed ++ (window.drop 1).dropWhile (fun byte => !(byte == startFlag)) = window.drop 1 :=
      List.takeWhile_append_dropWhile
    conv_lhs => rw [← hsplit]
    exact List.drop_left
  · change (seek buf len len 1 (discarded + 1)).2 = _
    rw [hseek]
    change _ = discarded + UInt32.ofNat (window.take 1 ++ window.tail.takeWhile _).length
    rw [List.length_append, List.length_take, hsize, min_eq_left (by omega), UInt32.ofNat_add,
      ← UInt32.add_assoc, ← List.drop_one]
    rfl

/-! ### One byte -/

theorem toList_set_take (p : FrameParser) (byte : UInt8) :
    (p.buf.set p.len byte p.len_lt).toList.take (p.len + 1) = p.held ++ [byte] := by
  have hlen : p.len < p.buf.toList.length := by
    rw [Vector.length_toList]
    exact p.len_lt
  rw [Vector.toList_set, List.take_succ_eq_append_getElem (by simpa using hlen), List.getElem_set_self,
    List.take_set_of_le le_rfl, held]

/-- A parser's byte is a scanner's step: the same window held, the shed bytes counted, the verdict reported. -/
theorem step_refines (p : FrameParser) (byte : UInt8) :
    (p.step byte).1.held = (wire.step p.held byte).1 ∧
      (p.step byte).1.discarded = p.discarded + UInt32.ofNat (wire.step p.held byte).2.junk.length ∧
      Reports (wire.step p.held byte).2 (p.step byte).2 := by
  have hwindow := p.toList_set_take byte
  have hlen : (p.held ++ [byte]).length = p.len + 1 := by
    rw [List.length_append, length_held, List.length_singleton]
  have hskips : (p.held = [] ∧ (!wire.start byte) = true) ↔ p.len = 0 ∧ byte ≠ startFlag := by
    simp [wire, held_eq_nil]
  unfold step Scan.Format.step
  simp only [hskips]
  by_cases hskip : p.len = 0 ∧ byte ≠ startFlag
  · simp only [if_pos hskip]
    exact ⟨(held_eq_nil _).mpr hskip.1, rfl, .skipped byte⟩
  simp only [if_neg hskip]
  set buf := p.buf.set p.len byte p.len_lt with hbuf
  have hbyte : ∀ i (hi : i < p.len + 1) (hi' : i < msgMaxLen), (p.held ++ [byte]).getD i 0 = buf[i] := by
    intro i hi hi'
    rw [← hwindow, List.getD_eq_getElem?_getD, List.getElem?_take_of_lt hi]
    simp [hi']
  have hresync := resync_eq buf (p.len + 1) p.discarded p.len_lt (Nat.succ_pos _)
  rw [hwindow] at hresync
  have hhope : wire.hopeless (p.held ++ [byte]) = true ↔
      p.len + 1 = dataOffset ∧ buf[msgLenIndex] ≠ lengthFlag := by
    change ((p.held ++ [byte]).length == dataOffset && _) = true ↔ _
    rw [hlen, Bool.and_eq_true, beq_iff_eq, bne_iff_ne]
    refine and_congr_right fun h => ?_
    rw [hbyte msgLenIndex (by rw [h]; decide) (by decide)]
  by_cases hbad : p.len + 1 = dataOffset ∧ buf[msgLenIndex] ≠ lengthFlag
  · simp only [if_pos hbad, hhope.mpr hbad, if_true]
    exact ⟨hresync.1, hresync.2, .badLength _⟩
  simp only [if_neg hbad, (Bool.not_eq_true _).mp (mt hhope.mp hbad), Bool.false_eq_true, if_false, hlen]
  by_cases hshort : p.len + 1 < msgMaxLen
  · have hshort' : p.len + 1 < wire.size := hshort
    simp only [dif_pos hshort, if_pos hshort']
    exact ⟨hwindow, by simp [Scan.Verdict.junk], .kept⟩
  · have hshort' : ¬ p.len + 1 < wire.size := hshort
    have hfull : p.len + 1 = msgMaxLen := le_antisymm p.len_lt (not_lt.mp hshort)
    have hwhole : buf.toList = p.held ++ [byte] := by
      rw [← hwindow, hfull, List.take_of_length_le (by simp)]
    have hvalid : wire.valid (p.held ++ [byte]) = true ↔ buf[msgLastIndex] = calcChksum buf := by
      change ((p.held ++ [byte]).getD msgLastIndex 0 == _) = true ↔ _
      rw [hbyte msgLastIndex (by rw [hfull]; decide) (by decide), beq_iff_eq, calcChksum, hwhole]
    simp only [dif_neg hshort, if_neg hshort']
    by_cases hsum : buf[msgLastIndex] = calcChksum buf
    · simp only [if_pos hsum, hvalid.mpr hsum, if_true]
      refine ⟨rfl, by simp [Scan.Verdict.junk], ?_⟩
      rw [← hwhole]
      exact .found buf
    · simp only [if_neg hsum, (Bool.not_eq_true _).mp (mt hvalid.mp hsum), Bool.false_eq_true, if_false]
      exact ⟨hresync.1, hresync.2, .checksum _⟩

end FrameParser

end Haidi
