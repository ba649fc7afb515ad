import Salias.Channel.Tx
import Salias.Circular.Ranges

/-
The test of a writer against the leases of the readers compares byte ranges of one ring.
-/

namespace Salias.SharedHybridMpsc

open Circular

/-- The positions of a range are counted in 64 bits, and each takes the byte at its offset. -/
def TakesByte (capacity start length offset : Nat) : Prop :=
  ∃ index, index < length ∧ (start + index) % 2 ^ 64 % capacity = offset

variable {capacity start length offset : Nat}

/-- A position keeps its offset when it wraps around. -/
theorem takesByte_iff_reaches (single : isPowerOfTwo capacity = true) (bounded : capacity < 2 ^ 64) :
    TakesByte capacity start length offset ↔ Reaches capacity start length offset := by
  obtain ⟨exponent, rfl⟩ := isPowerOfTwo_iff single
  have small : exponent ≤ 64 := (Nat.pow_lt_pow_iff_right (by decide : 1 < 2)).mp bounded |>.le
  have wraps (position : Nat) : position % 2 ^ 64 % 2 ^ exponent = position % 2 ^ exponent :=
    Nat.mod_mod_of_dvd position (pow_dvd_pow 2 small)
  simp only [TakesByte, Reaches, wraps]

/-- The segments hold the offsets of their range. -/
theorem exists_segment_iff (single : isPowerOfTwo capacity = true) (bounded : capacity < 2 ^ 64)
    (fits : length ≤ capacity) :
    (∃ segment ∈ segments capacity start length, Within segment offset) ↔ TakesByte capacity start length offset := by
  rw [takesByte_iff_reaches single bounded, reaches_iff fits]
  obtain ⟨exponent, rfl⟩ := isPowerOfTwo_iff single
  have empty (interval : Nat × Nat) (none : interval.2 ≤ interval.1) : ¬ Within interval offset := by
    intro within
    exact absurd (within.1.trans_lt within.2) (by omega)
  simp only [segments, Nat.and_two_pow_sub_one_eq_mod, List.mem_cons, List.not_mem_nil, or_false, exists_eq_or_imp,
    exists_eq_left]
  split
  · rfl
  · rename_i whole
    have rest := empty (0, 0) le_rfl
    have none := empty (0, length - min length (2 ^ exponent - start % 2 ^ exponent)) (by dsimp only; omega)
    tauto

/-- A range that runs into the next lap of another one is found. -/
theorem overlaps_of_lap {firstStart firstLength secondStart secondLength : Nat} (single : isPowerOfTwo capacity = true)
    (bounded : capacity < 2 ^ 64) (firstFits : firstLength ≤ capacity) (secondFits : secondLength ≤ capacity)
    (some : 0 < secondLength) (behind : firstStart ≤ secondStart + capacity)
    (laps : secondStart + capacity < firstStart + firstLength) :
    ringRangesOverlap firstStart firstLength secondStart secondLength capacity = true := by
  have one : TakesByte capacity firstStart firstLength (secondStart % capacity) := by
    rw [takesByte_iff_reaches single bounded]
    exact ⟨secondStart + capacity - firstStart, by omega, by rw [Nat.add_sub_cancel' behind, Nat.add_mod_right]⟩
  have two : TakesByte capacity secondStart secondLength (secondStart % capacity) := by
    rw [takesByte_iff_reaches single bounded]
    exact ⟨0, some, rfl⟩
  obtain ⟨left, member, inLeft⟩ := (exists_segment_iff single bounded firstFits).mpr one
  obtain ⟨right, present, inRight⟩ := (exists_segment_iff single bounded secondFits).mpr two
  have meets := (exists_within_iff left right).mp ⟨_, inLeft, inRight⟩
  rw [ringRangesOverlap, if_neg (by omega)]
  simp only [List.any_eq_true, Bool.and_eq_true, decide_eq_true_eq]
  exact ⟨left, member, right, present, ⟨⟨meets.1, meets.2.1⟩, meets.2.2.1⟩, meets.2.2.2⟩

/-- The test holds exactly when the ranges share a byte of the ring. -/
theorem ringRangesOverlap_iff {firstStart firstLength secondStart secondLength : Nat}
    (single : isPowerOfTwo capacity = true) (bounded : capacity < 2 ^ 64) (firstFits : firstLength ≤ capacity)
    (secondFits : secondLength ≤ capacity) :
    ringRangesOverlap firstStart firstLength secondStart secondLength capacity = true ↔
      ∃ offset, TakesByte capacity firstStart firstLength offset ∧
        TakesByte capacity secondStart secondLength offset := by
  have meets : (∃ offset, TakesByte capacity firstStart firstLength offset ∧
        TakesByte capacity secondStart secondLength offset) ↔
      ∃ left ∈ segments capacity firstStart firstLength, ∃ right ∈ segments capacity secondStart secondLength,
        left.1 < left.2 ∧ right.1 < right.2 ∧ left.1 < right.2 ∧ right.1 < left.2 := by
    simp only [← exists_within_iff, ← exists_segment_iff single bounded firstFits,
      ← exists_segment_iff single bounded secondFits]
    constructor
    · rintro ⟨offset, ⟨left, first, inLeft⟩, ⟨right, second, inRight⟩⟩
      exact ⟨left, first, right, second, offset, inLeft, inRight⟩
    · rintro ⟨left, first, right, second, offset, inLeft, inRight⟩
      exact ⟨offset, ⟨left, first, inLeft⟩, ⟨right, second, inRight⟩⟩
  unfold ringRangesOverlap
  split
  · rename_i none
    have empty : firstLength = 0 ∨ secondLength = 0 := by omega
    simp only [Bool.false_eq_true, false_iff, not_exists, not_and]
    intro offset first second
    obtain ⟨index, below, -⟩ := first
    obtain ⟨other, under, -⟩ := second
    omega
  · rw [meets]
    simp [List.any_eq_true, and_assoc]

/-- A range that runs past the end of the ring meets one at its start. -/
theorem ringRangesOverlap_iff_wrapped :
    ∃ offset, TakesByte 16 (2 ^ 64 - 4) 8 offset ∧ TakesByte 16 2 4 offset :=
  (ringRangesOverlap_iff (by decide) (by decide) (by decide) (by decide)).mp (by decide)

end Salias.SharedHybridMpsc
