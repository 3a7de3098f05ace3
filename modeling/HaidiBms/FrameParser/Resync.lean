import HaidiBms.FrameParser.RoundTrip
import HaidiBms.Lib.Resync

/-!
# How soon the framer is back in step

After noise the buffer holds a false candidate, and a stream of good frames could be cut wrongly for as long as their own bytes hold start flags. One frame without an inner start flag is enough to end it: that frame may be lost to the candidate, but the buffer is empty behind it and everything sent from there on comes out exactly.
-/

namespace Haidi

/-- A message whose frame holds no start flag but the first byte. -/
def Message.Solid (m : Message) : Prop := startFlag ∉ m.frame.toList.tail

instance (m : Message) : Decidable m.Solid := inferInstanceAs (Decidable (¬ _ ∈ m.frame.toList.tail))

theorem Message.Solid.frame {m : Message} (h : m.Solid) : wire.Solid m.frame.toList :=
  ⟨m.genuine, start_eq_false h⟩

namespace FrameParser

/-- A transmission fed to an empty parser, its signals and what it leaves. -/
theorem feed_transmission (p : FrameParser) (hempty : p.held = []) (sent : List Spaced) (last : List UInt8)
    (hgaps : startFlag ∉ gaps sent last) :
    (p.feed (transmission sent last)).2 = sent.map (fun s => .frame s.message.frame) ∧
      (p.feed (transmission sent last)).1.held = [] := by
  obtain ⟨hheld, hfound, -, hnone⟩ := run_transmission sent last hgaps
  obtain ⟨hafter, -, hframes, herrors⟩ := p.feed_refines (transmission sent last)
  rw [hempty] at hafter hframes herrors
  refine ⟨?_, hafter.trans hheld⟩
  rw [signals_eq_frames _ _ (hframes.trans hfound) (herrors.trans hnone), List.map_map]
  rfl

/-- One solid frame, from any parser state: the buffer is empty behind it, and the one frame that comes of it is itself or what the buffer held completed by its first bytes. -/
theorem feed_solid (p : FrameParser) (m : Message) (hsolid : m.Solid) :
    (p.feed m.frame.toList).1.held = [] ∧
      ∃ frame, (p.feed m.frame.toList).2.filterMap FrameSignal.frame? = [frame] ∧
        (frame = m.frame ∨
          ∃ stale part rest, stale ≠ [] ∧ stale <:+ p.held ∧ part ≠ [] ∧ rest ≠ [] ∧
            m.frame.toList = part ++ rest ∧ frame.toList = stale ++ part) := by
  obtain ⟨hheld, -, hframes, -⟩ := p.feed_refines m.frame.toList
  obtain ⟨hempty, hone⟩ := wire.run_solid p.held m.frame.toList (by rw [length_held]; exact p.len_lt) hsolid.frame
  refine ⟨hheld.trans hempty, ?_⟩
  rcases hone with hown | ⟨stale, part, rest, hstale, hsuffix, hpart, hsplit, hrest, hother⟩
  · rw [hown] at hframes
    obtain ⟨frame, hframe, hsame⟩ := List.map_eq_singleton_iff.mp hframes
    exact ⟨frame, hframe, Or.inl (Vector.toList_inj.mp hsame)⟩
  · rw [hother] at hframes
    obtain ⟨frame, hframe, hsame⟩ := List.map_eq_singleton_iff.mp hframes
    exact ⟨frame, hframe, Or.inr ⟨stale, part, rest, hstale, hsuffix, hpart, hrest, hsplit, hsame⟩⟩

/-- Noise costs at most one solid frame. Whatever the parser went through, from a solid frame on the stream comes out exactly, with no error and nothing left over; only that first frame may be replaced, by the bytes held before it completed with its own first ones. -/
theorem feedChunks_resynchronises (p : FrameParser) (first : Message) (hsolid : first.Solid) (sent : List Spaced)
    (last : List UInt8) (hgaps : startFlag ∉ gaps sent last) (chunks : List (List UInt8))
    (hchunks : chunks.flatten = first.frame.toList ++ transmission sent last) :
    let after := p.feedChunks chunks
    after.1.len = 0 ∧
      ∃ opening frame, after.2 = opening ++ sent.map (fun s => FrameSignal.frame s.message.frame) ∧
        opening.filterMap FrameSignal.frame? = [frame] ∧
        (frame = first.frame ∨
          ∃ stale part rest, stale ≠ [] ∧ stale <:+ p.held ∧ part ≠ [] ∧ rest ≠ [] ∧
            first.frame.toList = part ++ rest ∧ frame.toList = stale ++ part) := by
  obtain ⟨hempty, frame, hframe, hwhich⟩ := p.feed_solid first hsolid
  obtain ⟨hsignals, hheld⟩ := (p.feed first.frame.toList).1.feed_transmission hempty sent last hgaps
  rw [feedChunks_eq, hchunks, feed_append]
  exact ⟨(held_eq_nil _).mp hheld, _, frame, congrArg _ hsignals, hframe, hwhich⟩

/-- Behind a truncated frame: the message after the solid one is full of start flags and survives all the same. -/
theorem feedChunks_resynchronises_truncated :
    let p := (({} : FrameParser).feed [0xA5, 0x01, 0x90, 0x08, 0xA5]).1
    let first : Message := ⟨HostAddress.comp, DataId.totalVoltageCurrentSoc, Vector.replicate 8 0⟩
    let second : Message := ⟨0xA5, 0x08, Vector.replicate 8 0xA5⟩
    let after := p.feedChunks [first.frame.toList, 0x08 :: second.frame.toList]
    after.1.len = 0 ∧
      ∃ opening frame, after.2 = opening ++ [FrameSignal.frame second.frame] ∧
        opening.filterMap FrameSignal.frame? = [frame] ∧
        (frame = first.frame ∨
          ∃ stale part rest, stale ≠ [] ∧ stale <:+ p.held ∧ part ≠ [] ∧ rest ≠ [] ∧
            first.frame.toList = part ++ rest ∧ frame.toList = stale ++ part) :=
  feedChunks_resynchronises _ ⟨HostAddress.comp, DataId.totalVoltageCurrentSoc, Vector.replicate 8 0⟩ (by decide)
    [⟨[0x08], 0xA5, 0x08, Vector.replicate 8 0xA5⟩] [] (by decide) _ (by decide)

/-- The one loss there can be: twelve bytes left of a frame, which the start flag of the next completes. -/
example :
    let first : Message := ⟨HostAddress.comp, DataId.totalVoltageCurrentSoc, Vector.replicate 8 0⟩
    (({} : FrameParser).feed ([0xA5, 0, 0, 0x08, 0xF8, 0, 0, 0, 0, 0, 0, 0] ++ first.frame.toList)).2 =
      [.frame #v[0xA5, 0, 0, 0x08, 0xF8, 0, 0, 0, 0, 0, 0, 0, 0xA5]] := by
  decide

end FrameParser

end Haidi
