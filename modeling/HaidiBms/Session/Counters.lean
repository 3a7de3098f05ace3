import HaidiBms.Session.Model
import HaidiBms.Lib.BitMask

/-!
# The counters of a reply that have arrived

`seen_mask_` is a set of frame counters. The three bit tricks of the source are the size of the set, its least element and the length of the run that starts at a given element.
-/

namespace Haidi

open BitMask

/-- The counters of the frames seen so far. -/
def counters (mask : UInt32) : Finset ℕ := members mask.toNat

theorem counters_subset (mask : UInt32) : counters mask ⊆ Finset.range 32 :=
  members_subset_range mask.toNat_lt

theorem card_counters_le (mask : UInt32) : (counters mask).card ≤ 32 := by
  have := Finset.card_le_card (counters_subset mask)
  rwa [Finset.card_range] at this

theorem toNat_eq_zero {mask : UInt32} : mask.toNat = 0 ↔ mask = 0 := by
  rw [← UInt32.toNat_inj, UInt32.toNat_zero]

theorem counters_nonempty {mask : UInt32} : (counters mask).Nonempty ↔ mask ≠ 0 := by
  rw [counters, members_nonempty, Ne, Ne, toNat_eq_zero]

theorem counters_eq_empty {mask : UInt32} : counters mask = ∅ ↔ mask = 0 := by
  rw [← Finset.not_nonempty_iff_eq_empty, counters_nonempty, not_not]

/-- The mask of one counter. -/
theorem toNat_bit {frameNo : ℕ} (h : frameNo < 32) : ((1 : UInt32) <<< UInt32.ofNat frameNo).toNat = 2 ^ frameNo := by
  have hpow : 2 ^ frameNo < 2 ^ 32 := Nat.pow_lt_pow_right (by decide) h
  rw [UInt32.toNat_shiftLeft, UInt32.toNat_ofNat_of_lt' (h.trans (by decide)), Nat.mod_eq_of_lt h]
  change 1 <<< frameNo % 2 ^ 32 = _
  rw [Nat.one_shiftLeft, Nat.mod_eq_of_lt hpow]

theorem counters_or_bit (mask : UInt32) {frameNo : ℕ} (h : frameNo < 32) :
    counters (mask ||| 1 <<< UInt32.ofNat frameNo) = insert frameNo (counters mask) := by
  rw [counters, UInt32.toNat_or, toNat_bit h, members_or_two_pow, counters]

theorem and_bit_eq_zero {mask : UInt32} {frameNo : ℕ} (h : frameNo < 32) :
    mask &&& 1 <<< UInt32.ofNat frameNo = 0 ↔ frameNo ∉ counters mask := by
  rw [counters, ← and_two_pow_eq_zero, ← toNat_bit h, ← UInt32.toNat_and, toNat_eq_zero]

/-! ### The bit tricks -/

/-- Masking with the predecessor takes one counter away. -/
theorem card_counters_clear {value : UInt32} (hvalue : value ≠ 0) :
    (counters (value &&& (value - 1))).card + 1 = (counters value).card := by
  have hpos : 1 ≤ value := by
    rw [UInt32.le_iff_toNat_le]
    exact Nat.one_le_iff_ne_zero.mpr (mt toNat_eq_zero.mp hvalue)
  rw [counters, UInt32.toNat_and, UInt32.toNat_sub_of_le _ _ hpos]
  exact card_members_and_pred (mt toNat_eq_zero.mp hvalue)

theorem popcountLoop_toNat (turns : Nat) (value : UInt32) (bits : UInt8) (hturns : (counters value).card ≤ turns)
    (hbits : bits.toNat + (counters value).card < 256) :
    (popcountLoop turns value bits).toNat = bits.toNat + (counters value).card := by
  induction turns generalizing value bits with
  | zero => rw [Nat.le_zero.mp hturns]; rfl
  | succ turns ih =>
      unfold popcountLoop
      split_ifs with hvalue
      · -- Each turn clears the lowest bit.
        have hclear := card_counters_clear hvalue
        have hnext : (bits + 1).toNat = bits.toNat + 1 := by
          rw [UInt8.toNat_add]
          exact Nat.mod_eq_of_lt (by change bits.toNat + 1 < 256; omega)
        rw [ih _ _ (by omega) (by omega), hnext]
        omega
      · rw [not_not] at hvalue
        rw [hvalue, counters_eq_empty.mpr rfl]
        rfl

theorem popcount32_toNat (value : UInt32) : (popcount32 value).toNat = (counters value).card := by
  have hcard := card_counters_le value
  have := popcountLoop_toNat 32 value 0 hcard (by change 0 + _ < 256; omega)
  rw [popcount32, this]
  exact Nat.zero_add _

theorem and_one_eq_zero {mask : UInt32} : mask &&& 1 = 0 ↔ 0 ∉ counters mask :=
  @and_bit_eq_zero mask 0 (by decide)

/-- Shifting out a zero moves the least counter down by one. -/
theorem isLeast_shift {mask : UInt32} {least : Nat} (hzero : mask &&& 1 = 0) (h : IsLeast (counters mask : Set ℕ) least) :
    ∃ least', least = least' + 1 ∧ IsLeast (counters (mask >>> 1) : Set ℕ) least' := by
  have hshift : counters (mask >>> 1) = members (mask.toNat >>> 1) := by
    rw [counters, UInt32.toNat_shiftRight]
    rfl
  rw [hshift]
  exact isLeast_shiftRight (and_one_eq_zero.mp hzero) h

theorem lowestLoop_toNat (turns : Nat) (mask : UInt32) (index : UInt8) (least : Nat)
    (hleast : IsLeast (counters mask : Set ℕ) least) (hturns : least < turns) (hindex : index.toNat + least < 256) :
    (lowestLoop turns mask index).toNat = index.toNat + least := by
  induction turns generalizing mask index least with
  | zero => exact absurd hturns (Nat.not_lt_zero _)
  | succ turns ih =>
      unfold lowestLoop
      split_ifs with hzero
      · obtain ⟨least', rfl, hleast'⟩ := isLeast_shift hzero hleast
        have hnext : (index + 1).toNat = index.toNat + 1 := by
          rw [UInt8.toNat_add]
          exact Nat.mod_eq_of_lt (by change index.toNat + 1 < 256; omega)
        rw [ih _ _ least' hleast' (by omega) (by omega), hnext]
        omega
      · have : least ≤ 0 := hleast.2 (not_not.mp (mt and_one_eq_zero.mpr hzero))
        omega

theorem lowestFrameNo_toNat {mask : UInt32} {least : Nat} (h : IsLeast (counters mask : Set ℕ) least) :
    (lowestFrameNo mask).toNat = least := by
  have hlt : least < 32 := Finset.mem_range.mp (counters_subset mask h.1)
  have := lowestLoop_toNat 32 mask 0 least h hlt (by change 0 + _ < 256; omega)
  rw [lowestFrameNo, this]
  exact Nat.zero_add _

/-- The counters from `base` on that make an unbroken run. -/
structure IsRun (seen : Finset ℕ) (base run : Nat) : Prop where
  mem : ∀ j < run, base + j ∈ seen
  stop : base + run ∉ seen

theorem contiguousLoop_toNat (mask : UInt32) (base : UInt8) (run : Nat) (hrun : IsRun (counters mask) base.toNat run)
    (hlt : base.toNat + run < 32) (turns : Nat) (done : UInt8) (hdone : done.toNat ≤ run)
    (hturns : run < done.toNat + turns) : (contiguousLoop mask base turns done).toNat = run := by
  induction turns generalizing done with
  | zero => omega
  | succ turns ih =>
      unfold contiguousLoop
      split_ifs with hbit
      · have hmem := not_not.mp (mt (and_bit_eq_zero (by omega)).mpr hbit)
        have hne : done.toNat ≠ run := fun h => hrun.stop (h ▸ hmem)
        have hnext : (done + 1).toNat = done.toNat + 1 := by
          rw [UInt8.toNat_add]
          exact Nat.mod_eq_of_lt (by change done.toNat + 1 < 256; omega)
        exact ih _ (by omega) (by omega)
      · by_contra hne
        exact hbit (fun hzero => (and_bit_eq_zero (by omega)).mp hzero (hrun.mem _ (by omega)))

theorem contiguousFrames_toNat {mask : UInt32} {base : UInt8} {run : Nat}
    (hrun : IsRun (counters mask) base.toNat run) (hlt : base.toNat + run < 32) :
    (contiguousFrames mask base).toNat = run :=
  contiguousLoop_toNat mask base run hrun hlt 32 0 (Nat.zero_le _) (by change run < 0 + 32; omega)

theorem exists_run (seen : Finset ℕ) (base : Nat) : ∃ run, IsRun seen base run := by
  have hstop : ∃ run, base + run ∉ seen := by
    obtain ⟨bound, hbound⟩ := seen.bddAbove
    exact ⟨bound + 1, fun hmem => absurd (hbound hmem) (by omega)⟩
  exact ⟨Nat.find hstop, fun j hj => not_not.mp (Nat.find_min hstop hj), Nat.find_spec hstop⟩

/-! ### Counted frames -/

/-- A reply in frames with counters of their own, of which there are boundedly many. -/
def MultiFrameInfo.paginated (info : MultiFrameInfo) : Prop := info.multi = true ∧ info.streaming = false

instance (info : MultiFrameInfo) : Decidable info.paginated := inferInstanceAs (Decidable (_ ∧ _))

theorem decodeMulti_isSome {id : DataId} (h : (multiframeInfo id).paginated) (buf : List UInt8) (len : Nat) :
    ∃ payload, decodeMulti id buf len = some payload := by
  unfold MultiFrameInfo.paginated multiframeInfo at h
  split at h <;> first | exact absurd h (by decide) | exact ⟨_, rfl⟩

variable {capacity : ℕ+}

/-- A counted frame is in the set of counters, and the set is counted again when it grows. -/
theorem collect_counts (bms : HaidiBMS capacity) (id : DataId) (data : DataBytes) (hrange : ¬ data[0] > maxFrameIndex)
    (hseen : bms.framesSeen.toNat = (counters bms.seenMask).card) :
    counters (collect bms id data).seenMask = insert data[0].toNat (counters bms.seenMask) ∧
      (collect bms id data).framesSeen.toNat = (counters (collect bms id data).seenMask).card := by
  have hlt : data[0].toNat < 32 := by
    have : data[0].toNat ≤ 16 := UInt8.le_iff_toNat_le.mp (UInt8.not_lt.mp hrange)
    omega
  unfold collect
  dsimp only
  split_ifs with hnew
  · exact ⟨counters_or_bit _ hlt, popcount32_toNat _⟩
  · have hmem := not_not.mp (mt (and_bit_eq_zero hlt).mpr hnew)
    exact ⟨(Finset.insert_eq_of_mem hmem).symm, hseen⟩

end Haidi
