import HaidiBms.FrameParser.Accounting

/-!
# The framer undoes the encoder

What `encode` builds is a genuine frame, and genuine frames with gaps between them are all the scanner finds. So a stream of encoded messages comes out of the framer as those messages, wherever it is cut and whatever the bytes of the messages are, and the gaps are what it discards.
-/

namespace Haidi

/-- What one frame carries between two parties. -/
structure Message where
  host : HostAddress
  id : DataId
  data : DataBytes
  deriving DecidableEq

def Message.frame (m : Message) : MessageBytes := encode m.host m.id m.data

/-- A frame read field by field. -/
def Message.read (frame : MessageBytes) : Message where
  host := getElem frame msgAddressIndex msgAddressIndex_lt
  id := getElem frame msgDataIdIndex msgDataIdIndex_lt
  data := dataOf frame

/-- A message and the bytes of no frame that come before it. -/
structure Spaced where
  gap : List UInt8
  message : Message

/-- The bytes sent for a list of messages, with a last gap behind them. -/
def transmission (sent : List Spaced) (last : List UInt8) : List UInt8 :=
  sent.flatMap (fun s => s.gap ++ s.message.frame.toList) ++ last

def gaps (sent : List Spaced) (last : List UInt8) : List UInt8 := sent.flatMap Spaced.gap ++ last

/-! ### The encoder -/

theorem encode_start (host : HostAddress) (id : DataId) (data : DataBytes) :
    (encode host id data)[msgStartIndex] = startFlag := rfl

theorem encode_length (host : HostAddress) (id : DataId) (data : DataBytes) :
    (encode host id data)[msgLenIndex] = lengthFlag := rfl

/-- The checksum does not read the byte it is stored in. -/
theorem calcChksum_set_last (frame : MessageBytes) (byte : UInt8) :
    calcChksum (frame.set msgLastIndex byte msgLastIndex_lt) = calcChksum frame := by
  rw [calcChksum, calcChksum, Vector.toList_set, List.take_set_of_le le_rfl]

theorem encode_sum (host : HostAddress) (id : DataId) (data : DataBytes) :
    (encode host id data)[msgLastIndex] = calcChksum (encode host id data) := by
  rw [encode, calcChksum_set_last]
  exact Vector.getElem_set_self msgLastIndex_lt

theorem Message.genuine (m : Message) : wire.Genuine m.frame.toList :=
  FrameParser.wire_genuine m.frame (encode_start _ _ _) (encode_length _ _ _) (encode_sum _ _ _)

theorem dataOf_encode (host : HostAddress) (id : DataId) (data : DataBytes) : dataOf (encode host id data) = data := by
  apply Vector.ext
  intro i hi
  rw [dataOf, Vector.getElem_ofFn]
  rcases i with _ | _ | _ | _ | _ | _ | _ | _ | i
  case succ.succ.succ.succ.succ.succ.succ.succ => exact absurd hi (by simp [dataLen])
  all_goals rfl

theorem Message.read_frame (m : Message) : Message.read m.frame = m :=
  congrArg (Message.mk m.host m.id) (dataOf_encode m.host m.id m.data)

/-! ### The framer -/

/-- With no error among them, the signals are the frames. -/
theorem signals_eq_frames (signals : List FrameSignal) (frames : List MessageBytes)
    (hframes : (signals.filterMap FrameSignal.frame?).map Vector.toList = frames.map Vector.toList)
    (herrors : signals.countP FrameSignal.isError = 0) : signals = frames.map FrameSignal.frame := by
  have hall : ∀ signal ∈ signals, ∃ frame, signal = .frame frame := by
    intro signal hsignal
    cases signal with
    | frame frame => exact ⟨frame, rfl⟩
    | error error => exact absurd rfl (List.countP_eq_zero.mp herrors _ hsignal)
  have hinj : Function.Injective (List.map (Vector.toList (α := UInt8) (n := msgMaxLen))) :=
    List.map_injective_iff.mpr fun _ _ => Vector.toList_inj.mp
  rw [← hinj hframes]
  clear hframes herrors
  induction signals with
  | nil => rfl
  | cons signal rest ih =>
      obtain ⟨frame, rfl⟩ := hall signal List.mem_cons_self
      exact congrArg (FrameSignal.frame frame :: ·) (ih fun s hs => hall s (List.mem_cons_of_mem _ hs))

theorem start_eq_false {gap : List UInt8} (h : startFlag ∉ gap) : ∀ byte ∈ gap, wire.start byte = false :=
  fun _ hbyte => beq_eq_false_iff_ne.mpr (ne_of_mem_of_not_mem hbyte h)

/-- The scanner over a transmission: the frames are found, the gaps are shed, nothing is given up or kept. -/
theorem run_transmission (sent : List Spaced) (last : List UInt8) (hgaps : startFlag ∉ gaps sent last) :
    let after := wire.run [] (transmission sent last)
    after.1 = [] ∧
      Scan.Format.frames after.2 = (sent.map fun s => s.message.frame).map Vector.toList ∧
      Scan.Format.junk after.2 = gaps sent last ∧ after.2.countP Scan.Verdict.isRejected = 0 := by
  have hbefore : ∀ s ∈ sent, startFlag ∉ s.gap := fun s hs h =>
    hgaps (List.mem_append_left _ (List.mem_flatMap.mpr ⟨s, hs, h⟩))
  have hspaced := wire.run_spaced (sent.map fun s => (s.gap, s.message.frame.toList)) last
    (by
      intro piece hpiece
      obtain ⟨s, hs, rfl⟩ := List.mem_map.mp hpiece
      exact start_eq_false (hbefore s hs))
    (by
      intro piece hpiece
      obtain ⟨s, -, rfl⟩ := List.mem_map.mp hpiece
      exact s.message.genuine)
    (start_eq_false fun h => hgaps (List.mem_append_right _ h))
  rw [List.flatMap_map, List.flatMap_map, List.map_map] at hspaced
  obtain ⟨hheld, hfound, hshed, hnone⟩ := hspaced
  refine ⟨hheld, ?_, hshed, ?_⟩
  · rw [List.map_map]
    exact hfound
  · apply List.countP_eq_zero.mpr
    intro v hv
    rw [hnone v hv]
    exact Bool.false_ne_true

namespace FrameParser

/-- The framer undoes the encoder: fed encoded messages with gaps that hold no start flag, in whatever chunks, a parser with nothing in its buffer emits exactly their frames and reports no error, is left with nothing in its buffer and has discarded exactly the gaps; and the emitted frames read as the messages. -/
theorem feedChunks_transmission (p : FrameParser) (hempty : p.len = 0) (sent : List Spaced) (last : List UInt8)
    (hgaps : startFlag ∉ gaps sent last) (chunks : List (List UInt8))
    (hchunks : chunks.flatten = transmission sent last) :
    let after := p.feedChunks chunks
    after.2 = sent.map (fun s => FrameSignal.frame (encode s.message.host s.message.id s.message.data)) ∧
      after.1.len = 0 ∧
      after.1.discarded.toNat = (p.discarded.toNat + (gaps sent last).length) % 2 ^ 32 ∧
      (after.2.filterMap FrameSignal.frame?).map Message.read = sent.map Spaced.message := by
  obtain ⟨hheld, hfound, hshed, hnone⟩ := run_transmission sent last hgaps
  obtain ⟨hafter, hdiscarded, hframes, herrors⟩ := p.feed_refines (transmission sent last)
  rw [(held_eq_nil p).mpr hempty] at hafter hdiscarded hframes herrors
  have hsignals := signals_eq_frames _ _ (hframes.trans hfound) (herrors.trans hnone)
  rw [feedChunks_eq, hchunks]
  refine ⟨?_, (held_eq_nil _).mp (hafter.trans hheld), ?_, ?_⟩
  · rw [hsignals, List.map_map]
    rfl
  · rw [hdiscarded, hshed, UInt32.toNat_add, UInt32.toNat_ofNat', Nat.add_mod_mod]
  · rw [hsignals, List.filterMap_map]
    change (List.filterMap some _).map _ = _
    rw [List.filterMap_some, List.map_map]
    exact List.map_congr_left fun s _ => s.message.read_frame

/-- Fields full of start and length flags, cut in the middle of the second frame. -/
theorem feedChunks_transmission_flags :
    let first : Message := ⟨0xA5, 0x08, Vector.replicate 8 0xA5⟩
    let second : Message := ⟨HostAddress.comp, DataId.totalVoltageCurrentSoc, #v[0xA5, 0, 0, 0x08, 0xA5, 0, 0, 0x08]⟩
    let stream := transmission [⟨[0x08, 0], first⟩, ⟨[], second⟩] [0x08]
    let after := ({} : FrameParser).feedChunks [stream.take 20, stream.drop 20]
    after.2 = [.frame first.frame, .frame second.frame] ∧ after.1.len = 0 ∧ after.1.discarded.toNat = 3 % 2 ^ 32 ∧
      (after.2.filterMap FrameSignal.frame?).map Message.read = [first, second] :=
  feedChunks_transmission {} rfl [⟨[0x08, 0], 0xA5, 0x08, Vector.replicate 8 0xA5⟩,
      ⟨[], HostAddress.comp, DataId.totalVoltageCurrentSoc, #v[0xA5, 0, 0, 0x08, 0xA5, 0, 0, 0x08]⟩] [0x08]
    (by decide) _ (by rw [List.flatten_cons, List.flatten_singleton, List.take_append_drop])

end FrameParser

end Haidi
