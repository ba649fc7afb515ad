import Mathlib.Data.Nat.ModEq
import Mathlib.Tactic.NormNum

/-
A range of at most one capacity covers one interval of offsets, or two when it runs past the end.
-/

namespace Circular

/-- An offset belongs to the range of a start position. -/
def Reaches (capacity start length offset : Nat) : Prop := ∃ index, index < length ∧ (start + index) % capacity = offset

/-- An offset lies in a half-open interval. -/
def Within (interval : Nat × Nat) (offset : Nat) : Prop := interval.1 ≤ offset ∧ offset < interval.2

/-- Two intervals meet when each begins before the other ends; an empty interval meets none. -/
theorem exists_within_iff (left right : Nat × Nat) :
    (∃ offset, Within left offset ∧ Within right offset) ↔
      left.1 < left.2 ∧ right.1 < right.2 ∧ left.1 < right.2 ∧ right.1 < left.2 := by
  constructor
  · rintro ⟨offset, ⟨above, below⟩, ⟨after, before⟩⟩
    omega
  · rintro ⟨some, other, first, second⟩
    refine ⟨max left.1 right.1, ⟨?_, ?_⟩, ⟨?_, ?_⟩⟩
    all_goals omega

/-- The parts of a range before and after the end of the memory. -/
theorem reaches_iff {capacity start length offset : Nat} (fits : length ≤ capacity) :
    Reaches capacity start length offset ↔
      Within (start % capacity, start % capacity + min length (capacity - start % capacity)) offset ∨
        Within (0, length - min length (capacity - start % capacity)) offset := by
  rcases Nat.eq_zero_or_pos capacity with empty | positive
  · subst empty
    have none : length = 0 := by omega
    subst none
    simp [Reaches, Within]
  have below := Nat.mod_lt start positive
  have reduce (index : Nat) : (start + index) % capacity = (start % capacity + index) % capacity := by
    rw [Nat.mod_add_mod]
  unfold Reaches Within
  generalize start % capacity = first at below reduce ⊢
  dsimp only
  constructor
  · rintro ⟨index, inside, rfl⟩
    rw [reduce]
    by_cases wraps : first + index < capacity
    · rw [Nat.mod_eq_of_lt wraps]
      left
      omega
    · rw [Nat.mod_eq_sub_mod (by omega), Nat.mod_eq_of_lt (by omega)]
      right
      omega
  · rintro (⟨above, under⟩ | ⟨-, under⟩)
    · refine ⟨offset - first, by omega, ?_⟩
      rw [reduce, show first + (offset - first) = offset by omega, Nat.mod_eq_of_lt (by omega)]
    · refine ⟨capacity - first + offset, by omega, ?_⟩
      rw [reduce, show first + (capacity - first + offset) = offset + capacity by omega, Nat.add_mod_right,
        Nat.mod_eq_of_lt (by omega)]

end Circular
