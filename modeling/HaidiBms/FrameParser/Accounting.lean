import HaidiBms.FrameParser.Refinement

/-!
# What the framer does with a stream

Two laws of the whole stream, both the scanner's, read at the parser: every byte fed ends up in an emitted frame, in the buffer, or among the discarded ones, with one error for each start flag discarded; and a genuine frame is emitted at its last byte whatever came before it.
-/

namespace Haidi

namespace FrameSignal

def frame? : FrameSignal → Option MessageBytes
  | frame f => some f
  | error _ => none

def isError : FrameSignal → Bool
  | frame _ => false
  | error _ => true

end FrameSignal

theorem Reports.frame?_eq {verdict : Scan.Verdict UInt8} {signal : Option FrameSignal}
    (h : Reports verdict signal) :
    (signal.toList.filterMap FrameSignal.frame?).map Vector.toList = verdict.frame?.toList := by
  cases h <;> rfl

theorem Reports.isError_eq {verdict : Scan.Verdict UInt8} {signal : Option FrameSignal}
    (h : Reports verdict signal) : signal.toList.countP FrameSignal.isError = verdict.isRejected.toNat := by
  cases h <;> rfl

theorem Reports.of_found {frame : MessageBytes} {signal : Option FrameSignal}
    (h : Reports (.found frame.toList) signal) : signal = some (.frame frame) := by
  generalize hverdict : Scan.Verdict.found frame.toList = verdict at h
  cases h with
  | found other =>
      rw [Scan.Verdict.found.injEq, Vector.toList_inj] at hverdict
      rw [hverdict]
  | _ => cases hverdict

theorem Reports.exists_frame {symbols : List UInt8} {signal : Option FrameSignal}
    (h : Reports (.found symbols) signal) : ∃ frame, signal = some (.frame frame) := by
  cases h
  exact ⟨_, rfl⟩

namespace FrameParser

/-! ### Streams and chunks -/

/-- One call of `feed` after another. -/
def feedChunks (p : FrameParser) : List (List UInt8) → FrameParser × List FrameSignal
  | [] => (p, [])
  | chunk :: rest =>
    let now := p.feed chunk
    let later := feedChunks now.1 rest
    (later.1, now.2 ++ later.2)

theorem feed_append (p : FrameParser) (xs ys : List UInt8) :
    p.feed (xs ++ ys) = (((p.feed xs).1.feed ys).1, (p.feed xs).2 ++ ((p.feed xs).1.feed ys).2) := by
  induction xs generalizing p with
  | nil => rfl
  | cons byte rest ih => simp only [List.cons_append, feed, ih, List.append_assoc]

/-- Chunking does not matter. -/
theorem feedChunks_eq (p : FrameParser) (chunks : List (List UInt8)) :
    p.feedChunks chunks = p.feed chunks.flatten := by
  induction chunks generalizing p with
  | nil => rfl
  | cons chunk rest ih => simp only [feedChunks, List.flatten_cons, feed_append, ih]

theorem feed_refines (p : FrameParser) (bytes : List UInt8) :
    (p.feed bytes).1.held = (wire.run p.held bytes).1 ∧
      (p.feed bytes).1.discarded =
        p.discarded + UInt32.ofNat (Scan.Format.junk (wire.run p.held bytes).2).length ∧
      ((p.feed bytes).2.filterMap FrameSignal.frame?).map Vector.toList =
        Scan.Format.frames (wire.run p.held bytes).2 ∧
      (p.feed bytes).2.countP FrameSignal.isError =
        (wire.run p.held bytes).2.countP Scan.Verdict.isRejected := by
  induction bytes generalizing p with
  | nil => exact ⟨rfl, by simp [feed, Scan.Format.junk], rfl, rfl⟩
  | cons byte rest ih =>
      obtain ⟨hheld, hdiscarded, hreports⟩ := p.step_refines byte
      obtain ⟨ihheld, ihdiscarded, ihframes, iherrors⟩ := ih (p.step byte).1
      rw [hheld] at ihheld ihdiscarded ihframes iherrors
      simp only [feed, Scan.Format.run]
      refine ⟨ihheld, ?_, ?_, ?_⟩
      · rw [ihdiscarded, hdiscarded, UInt32.add_assoc, ← UInt32.ofNat_add, ← List.length_append]
        rfl
      · rw [List.filterMap_append, List.map_append, hreports.frame?_eq, ihframes, Scan.Format.frames_cons]
      · rw [List.countP_append, hreports.isError_eq, iherrors, List.countP_cons, Nat.add_comm]
        cases (wire.step p.held byte).2.isRejected <;> rfl

/-- The framer accounts for every byte. What has been fed since construction or a reset is junk and emitted frames in turn and then the buffer, which is short of a frame and begins with a start flag; the discarded count is the junk's length modulo `2 ^ 32`, and each start flag in the junk was reported once. -/
theorem feedChunks_accounts (p : FrameParser) (chunks : List (List UInt8)) :
    let after := p.reset.feedChunks chunks
    let frames := (after.2.filterMap FrameSignal.frame?).map Vector.toList
    ∃ (before : List (List UInt8)) (last : List UInt8),
      before.length = frames.length ∧
      chunks.flatten = (List.zipWith (· ++ ·) before frames).flatten ++ last ++ after.1.held ∧
      after.1.held.length ≤ 12 ∧ after.1.held.length = after.1.len ∧
      (after.1.held = [] ∨ after.1.held.head? = some startFlag) ∧
      after.1.discarded.toNat = (before.flatten ++ last).length % 2 ^ 32 ∧
      after.2.countP FrameSignal.isError = (before.flatten ++ last).count startFlag := by
  simp only [feedChunks_eq]
  obtain ⟨hheld, hdiscarded, hframes, herrors⟩ := feed_refines p.reset chunks.flatten
  rw [held_reset] at hheld hdiscarded hframes herrors
  obtain ⟨before, last, hlen, hstream, hjunk⟩ := wire.run_accounts chunks.flatten
  obtain ⟨hshort, hstart⟩ := wire.run_held [] chunks.flatten wire.held_nil
  rw [← hheld] at hstream hshort hstart
  refine ⟨before, last, by rw [hframes, hlen], by rw [hframes]; exact hstream,
    Nat.le_of_lt_succ hshort, length_held _, ?_, ?_, ?_⟩
  · cases hhead : (p.reset.feed chunks.flatten).1.held.head? with
    | none => exact Or.inl (List.head?_eq_none_iff.mp hhead)
    | some byte => exact Or.inr (congrArg some (by simpa [wire] using hstart byte hhead))
  · rw [hdiscarded, hjunk]
    simp
  · rw [herrors, hjunk, ← wire.run_starts [] chunks.flatten wire.held_nil]
    rfl

/-! ### Genuine frames -/

/-- The callback made while the byte at `i` of a stream is processed. -/
def signalAt (p : FrameParser) (bytes : List UInt8) (i : Nat) : Option FrameSignal :=
  bytes[i]?.bind fun byte => ((p.feed (bytes.take i)).1.step byte).2

/-- A frame emitted at the byte `i` is the thirteen bytes ending there. -/
def Covers (i position : Nat) : Prop := position ≤ i ∧ i < position + msgMaxLen

theorem getD_toList (frame : MessageBytes) (i : Nat) (hi : i < msgMaxLen) :
    frame.toList.getD i 0 = frame[i] := by
  simp [List.getD_eq_getElem?_getD, hi]

theorem wire_genuine (frame : MessageBytes) (hstart : frame[msgStartIndex] = startFlag)
    (hlen : frame[msgLenIndex] = lengthFlag) (hsum : frame[msgLastIndex] = calcChksum frame) :
    wire.Genuine frame.toList where
  length_eq := Vector.length_toList
  start := by
    intro byte hbyte
    have hfirst := getD_toList frame 0 (by decide)
    rw [List.getD_eq_getElem?_getD, ← List.head?_eq_getElem?, hbyte] at hfirst
    change (byte == startFlag) = true
    rw [beq_iff_eq, ← hstart]
    exact hfirst
  not_hopeless := by
    intro n
    change ((frame.toList.take n).length == dataOffset && _) = false
    by_cases hn : (frame.toList.take n).length = dataOffset
    · have hfour : dataOffset ≤ n := by
        rw [← hn, List.length_take]
        exact min_le_left _ _
      have hbyte : (frame.toList.take n).getD msgLenIndex 0 = lengthFlag := by
        rw [← hlen, ← getD_toList frame msgLenIndex (by decide), List.getD_eq_getElem?_getD,
          List.getElem?_take_of_lt (lt_of_lt_of_le (by decide) hfour), List.getD_eq_getElem?_getD]
      rw [hbyte, bne_self_eq_false, Bool.and_false]
    · rw [beq_eq_false_iff_ne.mpr hn, Bool.false_and]
  valid := by
    change (frame.toList.getD msgLastIndex 0 == _) = true
    rw [beq_iff_eq, getD_toList frame msgLastIndex (by decide), hsum, calcChksum]

theorem toList_eq_concat (frame : MessageBytes) :
    frame.toList.take msgLastIndex ++ [frame[msgLastIndex]] = frame.toList := by
  have hlast : frame.toList[msgLastIndex]? = some frame[msgLastIndex] := by simp
  rw [← Option.toList_some, ← hlast, ← List.take_add_one, List.take_of_length_le (by simp)]

/-- A genuine frame read from an empty buffer causes one callback, at its last byte, and leaves the buffer empty. -/
theorem feed_frame (p : FrameParser) (hp : p.held = []) (frame : MessageBytes)
    (hstart : frame[msgStartIndex] = startFlag) (hlen : frame[msgLenIndex] = lengthFlag)
    (hsum : frame[msgLastIndex] = calcChksum frame) :
    (p.feed (frame.toList.take msgLastIndex)).2 = [] ∧
      ((p.feed (frame.toList.take msgLastIndex)).1.step frame[msgLastIndex]).1.held = [] ∧
      ((p.feed (frame.toList.take msgLastIndex)).1.step frame[msgLastIndex]).2 = some (.frame frame) := by
  have hgenuine := wire_genuine frame hstart hlen hsum
  have hbody := wire.run_keeps frame.toList hgenuine msgLastIndex (by decide)
  obtain ⟨hheld, -, hframes, herrors⟩ := p.feed_refines (frame.toList.take msgLastIndex)
  rw [hp, hbody] at hheld hframes herrors
  have hsilent : (p.feed (frame.toList.take msgLastIndex)).2 = [] := by
    refine List.eq_nil_iff_forall_not_mem.mpr fun signal hsignal => ?_
    cases signal with
    | frame other =>
        have hnone := List.map_eq_nil_iff.mp (hframes.trans rfl)
        exact absurd (List.filterMap_eq_nil_iff.mp hnone _ hsignal) (Option.some_ne_none other)
    | error error => exact List.countP_eq_zero.mp (herrors.trans rfl) _ hsignal rfl
  have hsplit := toList_eq_concat frame
  have hlast := wire.run_finds [] (frame.toList.take msgLastIndex) frame[msgLastIndex] (by decide) (hsplit ▸ hgenuine)
    (by
      rw [hbody]
      intro v hv other
      rw [List.eq_of_mem_replicate hv]
      exact nofun)
  rw [hbody, hsplit] at hlast
  obtain ⟨hheld', -, hreports⟩ := (p.feed (frame.toList.take msgLastIndex)).1.step_refines frame[msgLastIndex]
  rw [hheld, hlast] at hheld' hreports
  exact ⟨hsilent, hheld', hreports.of_found⟩

theorem signalAt_reports (p : FrameParser) (bytes : List UInt8) (i : Nat) (hi : i < bytes.length) :
    Reports (wire.step (wire.run p.held (bytes.take i)).1 bytes[i]).2 (p.signalAt bytes i) := by
  have hstep := ((p.feed (bytes.take i)).1.step_refines bytes[i]).2.2
  rw [(p.feed_refines (bytes.take i)).1] at hstep
  rw [signalAt, List.getElem?_eq_getElem hi]
  exact hstep

/-- A genuine frame survives surrounding corruption: from any parser state, thirteen consecutive bytes that form a valid frame are emitted as that frame while their last byte is processed, unless a frame emitted earlier covers their first. -/
theorem genuine_frame_survives (p : FrameParser) (bytes : List UInt8) (position : Nat) (frame : MessageBytes)
    (hframe : frame.toList = (bytes.drop position).take msgMaxLen)
    (hstart : frame[msgStartIndex] = startFlag) (hlen : frame[msgLenIndex] = lengthFlag)
    (hsum : frame[msgLastIndex] = calcChksum frame)
    (hclear : ∀ i other, i < position + msgLastIndex → p.signalAt bytes i = some (.frame other) →
      ¬ Covers i position) :
    p.signalAt bytes (position + msgLastIndex) = some (.frame frame) := by
  have hfit : position + msgMaxLen ≤ bytes.length := by
    have := congrArg List.length hframe
    rw [Vector.length_toList, List.length_take, List.length_drop] at this
    change 13 = min 13 (bytes.length - position) at this
    change position + 13 ≤ bytes.length
    omega
  let body := frame.toList.take msgLastIndex
  let last := frame[msgLastIndex]
  have hwhole : body ++ [last] = frame.toList := by
    have hlast : frame.toList.drop msgLastIndex = [last] := by
      rw [List.drop_eq_getElem_cons (by simp), Vector.getElem_toList, List.drop_of_length_le (by simp)]
    rw [← hlast, List.take_append_drop]
  have hbody : (bytes.drop position).take msgLastIndex = body := by
    change _ = frame.toList.take msgLastIndex
    rw [hframe, List.take_take]
    rfl
  have hlastByte : bytes[position + msgLastIndex]? = some last := by
    rw [← List.getElem?_drop, ← List.getElem?_take_of_lt (show msgLastIndex < msgMaxLen by decide), ← hframe]
    exact (List.getElem?_eq_getElem (by simp)).trans (congrArg some (Vector.getElem_toList _))
  obtain ⟨hlastIndex, hlastByte⟩ := List.getElem?_eq_some_iff.mp hlastByte
  -- the window before the frame is short of one, as every window between bytes is
  have hheld : (wire.run p.held (bytes.take position)).1.length < wire.size :=
    wire.run_length_lt p.held _ (by rw [length_held]; exact p.len_lt)
  have hgenuine : wire.Genuine (body ++ [last]) := by
    rw [hwhole]
    exact wire_genuine frame hstart hlen hsum
  have hfound := wire.run_finds _ body last hheld hgenuine ?_
  · have hreports := p.signalAt_reports bytes (position + msgLastIndex) hlastIndex
    rw [hlastByte, List.take_add, hbody, wire.run_append, hfound, hwhole] at hreports
    exact hreports.of_found
  · intro verdict hverdict other hother
    obtain ⟨i, hi, hat⟩ := wire.exists_step_of_mem _ _ _ hverdict
    have hi12 : i < msgLastIndex := lt_of_lt_of_le hi (List.length_take_le _ _)
    have hbyte : bytes[position + i] = body[i] := by
      simp only [← hbody, List.getElem_take, List.getElem_drop]
    have hbefore : (bytes.drop position).take i = body.take i := by
      rw [← hbody, List.take_take, min_eq_left hi12.le]
    have hreports := p.signalAt_reports bytes (position + i) (by omega)
    rw [hbyte, List.take_add, hbefore, wire.run_append, ← hat, hother] at hreports
    obtain ⟨emitted, hemitted⟩ := hreports.exists_frame
    exact hclear _ _ (by omega) hemitted
      ⟨Nat.le_add_right _ _, Nat.add_lt_add_left (hi12.trans (by decide)) position⟩

/-- A frame behind a lone start flag: the false candidate is given up at the frame's third byte. -/
theorem genuine_frame_survives_false_start :
    let frame := encode 0x40 0x90 (Vector.replicate 8 0)
    ({} : FrameParser).signalAt (startFlag :: frame.toList) 13 = some (.frame frame) :=
  genuine_frame_survives {} _ 1 (encode 0x40 0x90 (Vector.replicate 8 0)) (by decide) (by decide) (by decide)
    (by decide) fun i other hi hsignal => by
      have hnone : ∀ i < 13, (({} : FrameParser).signalAt
          (startFlag :: (encode 0x40 0x90 (Vector.replicate 8 0)).toList) i).bind FrameSignal.frame? = none := by
        decide
      have hframe := hnone i hi
      rw [hsignal] at hframe
      cases hframe

end FrameParser

end Haidi
