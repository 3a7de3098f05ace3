import HaidiBms.FrameParser.Accounting

/-!
# Whether an emitted frame is well formed

The first byte and the checksum of an emitted frame are always right. The length field is looked at only when the buffer grows to exactly four bytes, and a checksum failure can leave a later start flag at the front with four bytes or more behind it. The length field of such a candidate is never looked at, so it is emitted if its checksum happens to match. No other frame is malformed.
-/

namespace Haidi

/-- What the framer promises of the frames it emits. -/
def WellFormed (frame : MessageBytes) : Prop :=
  getElem frame msgStartIndex msgStartIndex_lt = startFlag ∧ getElem frame msgLenIndex msgLenIndex_lt = lengthFlag ∧
    getElem frame msgLastIndex msgLastIndex_lt = calcChksum frame

instance (frame : MessageBytes) : Decidable (WellFormed frame) := inferInstanceAs (Decidable (_ ∧ _ ∧ _))

/-- A candidate held with its length field already in, and wrong, that the bytes to come complete to a matching checksum. -/
def Unchecked (held rest : List UInt8) : Prop :=
  dataOffset ≤ held.length ∧ held.getD msgLenIndex 0 ≠ lengthFlag ∧
    msgMaxLen ≤ (held ++ rest).length ∧ wire.valid ((held ++ rest).take msgMaxLen) = true

/-- A full window with a wrong checksum, and an unchecked candidate at its next start flag. -/
def Uncovers (window rest : List UInt8) : Prop :=
  window.length = msgMaxLen ∧ wire.valid window = false ∧ Unchecked (wire.slide window) rest

/-- The length check is evaded: by the candidate the parser already holds, or by one that a checksum failure moves to the front. -/
def FrameParser.EvadesLengthCheck (p : FrameParser) (bytes : List UInt8) : Prop :=
  Unchecked p.held bytes ∨
    ∃ done byte rest, bytes = done ++ byte :: rest ∧ Uncovers ((p.feed done).1.held ++ [byte]) rest

namespace Unchecked

theorem not_of_short {held rest : List UInt8} (h : held.length < dataOffset) : ¬ Unchecked held rest :=
  fun hu => absurd hu.1 (by omega)

theorem snoc_iff {held rest : List UInt8} {byte : UInt8} (hhope : wire.hopeless (held ++ [byte]) = false) :
    Unchecked (held ++ [byte]) rest ↔ Unchecked held (byte :: rest) := by
  unfold Unchecked
  rw [List.append_cons held byte rest]
  rcases lt_trichotomy held.length msgLenIndex with hlt | heq | hgt
  · have hshort : held.length + 1 < dataOffset := Nat.succ_lt_succ hlt
    constructor
    · rintro ⟨h, -⟩
      rw [List.length_append, List.length_singleton] at h
      omega
    · rintro ⟨h, -⟩
      omega
  · have hfour : (held ++ [byte]).length = dataOffset := by
      rw [List.length_append, heq]
      rfl
    have hlength : (held ++ [byte]).getD msgLenIndex 0 = lengthFlag := by
      change ((held ++ [byte]).length == dataOffset && _) = false at hhope
      rw [hfour] at hhope
      simpa using hhope
    constructor
    · rintro ⟨-, h, -⟩
      exact absurd hlength h
    · rintro ⟨h, -⟩
      rw [heq] at h
      exact absurd h (by decide)
  · have hfour : dataOffset ≤ held.length := hgt
    have hsame : (held ++ [byte]).getD msgLenIndex 0 = held.getD msgLenIndex 0 := by
      rw [List.getD_eq_getElem?_getD, List.getElem?_append_left hgt, List.getD_eq_getElem?_getD]
    have hsum : (held ++ [byte]).length = held.length + [byte].length := List.length_append
    rw [hsame, hsum]
    have : dataOffset ≤ held.length + [byte].length := hfour.trans (Nat.le_add_right _ _)
    simp only [this, hfour, true_and]

end Unchecked

theorem unchecked_full {held rest : List UInt8} {byte : UInt8} (hfull : (held ++ [byte]).length = msgMaxLen) :
    Unchecked held (byte :: rest) ↔
      wire.valid (held ++ [byte]) = true ∧ (held ++ [byte]).getD msgLenIndex 0 ≠ lengthFlag := by
  have hlen : held.length = msgLastIndex := by
    rw [List.length_append, List.length_singleton] at hfull
    exact Nat.succ_injective hfull
  have hsame : (held ++ [byte]).getD msgLenIndex 0 = held.getD msgLenIndex 0 := by
    rw [List.getD_eq_getElem?_getD, List.getElem?_append_left (by rw [hlen]; decide), List.getD_eq_getElem?_getD]
  unfold Unchecked
  rw [hsame, List.append_cons held byte rest, ← hfull, List.take_left]
  have hlonger : (held ++ [byte]).length ≤ (held ++ [byte] ++ rest).length := (List.sublist_append_left _ _).length_le
  exact ⟨fun h => ⟨h.2.2.2, h.2.1⟩, fun h => ⟨by rw [hlen]; decide, h.2, hlonger, h.1⟩⟩

/-- One byte either emits a malformed frame at once or leaves the parser with an unchecked candidate exactly when it met one or moves one to the front. -/
theorem step_unchecked (held : List UInt8) (byte : UInt8) (rest : List UInt8) (h : held.length < wire.size) :
    (∃ frame ∈ (wire.step held byte).2.frame?, frame.getD msgLenIndex 0 ≠ lengthFlag) ∨
        Unchecked (wire.step held byte).1 rest ↔
      Unchecked held (byte :: rest) ∨ Uncovers (held ++ [byte]) rest := by
  unfold Uncovers
  have hle : (held ++ [byte]).length ≤ msgMaxLen := by
    rw [List.length_append]
    exact h
  rcases wire.step_cases held byte with
    ⟨rfl, -, hstep⟩ | ⟨-, ⟨early, hstep, hwhy⟩ | ⟨hshort, hhope, hstep⟩ | ⟨hlen, -, hvalid, hstep⟩⟩ <;> rw [hstep]
  · have : ¬ Unchecked [] (byte :: rest) := Unchecked.not_of_short (by decide)
    have : ¬ Unchecked [] rest := Unchecked.not_of_short (by decide)
    simp [Scan.Verdict.frame?, *]
  · rcases hwhy with ⟨rfl, hhope⟩ | ⟨rfl, hlen, hvalid⟩
    · -- given up at the fourth byte: what is left is too short to have evaded the check
      have hfour : held.length + 1 = dataOffset := by
        change ((held ++ [byte]).length == dataOffset && _) = true at hhope
        rw [Bool.and_eq_true, beq_iff_eq, List.length_append] at hhope
        exact hhope.1
      have hslide := wire.slide_length_lt (held ++ [byte]) (by simp)
      rw [List.length_append, List.length_singleton] at hslide
      have : ¬ Unchecked (wire.slide (held ++ [byte])) rest := Unchecked.not_of_short (by omega)
      have : ¬ Unchecked held (byte :: rest) := Unchecked.not_of_short (by omega)
      simp [Scan.Format.reject, Scan.Verdict.frame?, *]
    · have hfull : (held ++ [byte]).length = msgMaxLen := le_antisymm hle hlen
      have : ¬ Unchecked held (byte :: rest) := by
        rw [unchecked_full hfull, hvalid]
        simp
      simp [Scan.Format.reject, Scan.Verdict.frame?, *]
  · have : (held ++ [byte]).length ≠ msgMaxLen := hshort.ne
    simp [Scan.Verdict.frame?, ← Unchecked.snoc_iff hhope, -List.length_append, *]
  · have hfull : (held ++ [byte]).length = msgMaxLen := le_antisymm hle hlen
    have : ¬ Unchecked [] rest := Unchecked.not_of_short (by decide)
    simp [Scan.Verdict.frame?, unchecked_full hfull, *]

theorem exists_split_cons {α : Type} {a : α} {l : List α} {P : List α → α → List α → Prop} :
    (∃ done b rest, a :: l = done ++ b :: rest ∧ P done b rest) ↔
      P [] a l ∨ ∃ done b rest, l = done ++ b :: rest ∧ P (a :: done) b rest := by
  constructor
  · rintro ⟨_ | ⟨c, done⟩, b, rest, hl, h⟩
    · obtain ⟨rfl, rfl⟩ := List.cons.inj hl
      exact Or.inl h
    · obtain ⟨rfl, rfl⟩ := List.cons.inj hl
      exact Or.inr ⟨done, b, rest, rfl, h⟩
  · rintro (h | ⟨done, b, rest, rfl, h⟩)
    · exact ⟨[], a, l, rfl, h⟩
    · exact ⟨a :: done, b, rest, rfl, h⟩

/-- Exactly when a scan emits a frame with a wrong length field. -/
theorem emits_wrong_length_iff (held bytes : List UInt8) (h : held.length < wire.size) :
    (∃ frame ∈ Scan.Format.frames (wire.run held bytes).2, frame.getD msgLenIndex 0 ≠ lengthFlag) ↔
      Unchecked held bytes ∨
        ∃ done byte rest, bytes = done ++ byte :: rest ∧ Uncovers ((wire.run held done).1 ++ [byte]) rest := by
  induction bytes generalizing held with
  | nil =>
      constructor
      · rintro ⟨frame, hframe, -⟩
        cases hframe
      · rintro (⟨-, -, hlen, -⟩ | ⟨done, byte, rest, hnil, -⟩)
        · rw [List.append_nil] at hlen
          exact absurd h (not_lt.mpr hlen)
        · cases done <;> cases hnil
  | cons byte rest ih =>
      have hnext := ih (wire.step held byte).1 (wire.step_length_lt held byte h)
      rw [exists_split_cons (P := fun done byte rest => Uncovers ((wire.run held done).1 ++ [byte]) rest),
        ← or_assoc, Scan.Format.run_nil, ← step_unchecked held byte rest h, or_assoc]
      refine Iff.trans ?_ (or_congr_right hnext)
      simp only [Scan.Format.run, Scan.Format.frames_cons, List.mem_append, Option.mem_toList, or_and_right,
        exists_or, Option.mem_def]

namespace FrameParser

theorem held_of_reachable (p : FrameParser) (h : p.Reachable) : wire.Held p.held := by
  obtain ⟨calls, rfl⟩ := h
  induction calls using List.reverseRecOn with
  | nil => exact wire.held_nil
  | append_singleton calls call ih =>
      rw [List.foldl_append]
      cases call with
      | feed data =>
          change wire.Held (FrameParser.feed _ data).1.held
          rw [(feed_refines _ data).1]
          exact wire.run_held _ _ ih
      | reset => exact wire.held_nil

theorem mem_frames_iff (p : FrameParser) (bytes symbols : List UInt8) :
    symbols ∈ Scan.Format.frames (wire.run p.held bytes).2 ↔
      ∃ frame, FrameSignal.frame frame ∈ (p.feed bytes).2 ∧ frame.toList = symbols := by
  rw [← (p.feed_refines bytes).2.2.1, List.mem_map]
  refine exists_congr fun frame => and_congr_left fun _ => ?_
  rw [List.mem_filterMap]
  constructor
  · rintro ⟨signal, hsignal, hframe⟩
    cases signal with
    | frame other => rwa [← Option.some.inj hframe]
    | error e => cases hframe
  · exact fun h => ⟨_, h, rfl⟩

theorem emitted_ends (p : FrameParser) (h : p.Reachable) (bytes : List UInt8) (frame : MessageBytes)
    (hframe : FrameSignal.frame frame ∈ (p.feed bytes).2) :
    frame[msgStartIndex] = startFlag ∧ frame[msgLastIndex] = calcChksum frame := by
  obtain ⟨verdict, hverdict, hfound⟩ := List.mem_filterMap.mp ((p.mem_frames_iff bytes _).mpr ⟨frame, hframe, rfl⟩)
  obtain ⟨i, hi, hat⟩ := wire.exists_step_of_mem _ _ _ hverdict
  have hheld := wire.run_held p.held (bytes.take i) (p.held_of_reachable h)
  have hstep := hat.symm.trans (Scan.Verdict.frame?_eq_some hfound)
  obtain ⟨-, -, hvalid, hstart⟩ := wire.step_found _ bytes[i] frame.toList hheld hstep
  constructor
  · have hhead : frame.toList.head? = some frame[msgStartIndex] := by
      rw [List.head?_eq_getElem?]
      exact (List.getElem?_eq_getElem (by simp)).trans (congrArg some (Vector.getElem_toList _))
    exact beq_iff_eq.mp (hstart _ hhead)
  · change (frame.toList.getD msgLastIndex 0 == _) = true at hvalid
    rw [beq_iff_eq, getD_toList frame msgLastIndex (by decide)] at hvalid
    exact hvalid

/-- The framer emits only well-formed frames on exactly the streams in which no candidate evades the length check. -/
theorem feedChunks_wellFormed_iff (p : FrameParser) (h : p.Reachable) (chunks : List (List UInt8)) :
    (∀ frame, FrameSignal.frame frame ∈ (p.feedChunks chunks).2 → WellFormed frame) ↔
      ¬ p.EvadesLengthCheck chunks.flatten := by
  have hwrong := emits_wrong_length_iff p.held chunks.flatten (by rw [length_held]; exact p.len_lt)
  simp only [← fun done => (p.feed_refines done).1] at hwrong
  rw [EvadesLengthCheck, ← hwrong, feedChunks_eq]
  simp only [mem_frames_iff]
  constructor
  · rintro hall ⟨_, ⟨frame, hframe, rfl⟩, hlength⟩
    rw [getD_toList frame msgLenIndex (by decide)] at hlength
    exact hlength (hall frame hframe).2.1
  · intro hnone frame hframe
    obtain ⟨hstart, hsum⟩ := p.emitted_ends h chunks.flatten frame hframe
    refine ⟨hstart, by_contra fun hlength => hnone ⟨_, ⟨frame, hframe, rfl⟩, ?_⟩, hsum⟩
    rwa [getD_toList frame msgLenIndex (by decide)]

/-- A start flag inside a frame whose checksum fails: the nine bytes from it on are kept without a look at their length field, and four more complete them. -/
theorem feed_emits_wrong_length :
    let stream : List UInt8 := [0xA5, 0, 0, 0x08, 0xA5, 0, 0, 0, 0, 0, 0, 0, 0, 0, 0, 0, 0xA5]
    let frame : MessageBytes := #v[0xA5, 0, 0, 0, 0, 0, 0, 0, 0, 0, 0, 0, 0xA5]
    (({} : FrameParser).feedChunks [stream]).2 = [.error .checksum, .frame frame] ∧ ¬ WellFormed frame := by
  decide

/-- A parser in the middle of a candidate, some noise behind it. -/
def resumed : FrameParser := [ParserCall.feed [0x13, 0xA5, 0x01]].foldl ParserCall.apply {}

/-- Its candidate fails the checksum, and the one inside it, which has its length field, is completed. -/
theorem feedChunks_wellFormed_iff_resumed :
    let chunks : List (List UInt8) :=
      [[0x90, 0x08, 0, 0, 0xA5], [0x01, 0x90, 0x08, 0, 0, 0x11], [0, 0, 0, 0, 0, 0x4F]]
    (resumed.feedChunks chunks).2 = [.error .checksum, .frame #v[0xA5, 0x01, 0x90, 0x08, 0, 0, 0x11, 0, 0, 0, 0, 0, 0x4F]] ∧
      ((∀ frame, FrameSignal.frame frame ∈ (resumed.feedChunks chunks).2 → WellFormed frame) ↔
        ¬ resumed.EvadesLengthCheck chunks.flatten) :=
  ⟨by decide, feedChunks_wellFormed_iff resumed ⟨_, rfl⟩ _⟩

end FrameParser

end Haidi
