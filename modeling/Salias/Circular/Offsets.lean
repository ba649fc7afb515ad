import Mathlib.Data.List.Basic
import Mathlib.Algebra.BigOperators.Group.List.Basic
import Mathlib.Algebra.GroupWithZero.Nat
import Mathlib.Order.Monotone.Basic

/-
Items of different lengths lie one after another from position zero on. The offset of an index is the
position of its item.
-/

namespace Circular

variable {α : Type} (length : α → Nat)

def offset (items : List α) (index : Nat) : Nat := ((items.take index).map length).sum

@[simp] theorem offset_zero (items : List α) : offset length items 0 = 0 := by
  simp [offset]

theorem offset_succ (items : List α) {index : Nat} (below : index < items.length) :
    offset length items (index + 1) = offset length items index + length items[index] := by
  simp only [offset, List.take_add_one, List.getElem?_eq_getElem below, Option.toList_some, List.map_append,
    List.map_cons, List.map_nil, List.sum_append, List.sum_cons, List.sum_nil, Nat.add_zero]

/-- Later items do not move the earlier ones. -/
theorem offset_append {items : List α} (more : List α) {index : Nat} (within : index ≤ items.length) :
    offset length (items ++ more) index = offset length items index := by
  rw [offset, List.take_append_of_le_length within, offset]

/-- The offset past the end is the total length. -/
theorem offset_of_le {items : List α} {index : Nat} (beyond : items.length ≤ index) :
    offset length items index = (items.map length).sum := by
  rw [offset, List.take_of_length_le beyond]

theorem offset_mono (items : List α) {first second : Nat} (ordered : first ≤ second) :
    offset length items first ≤ offset length items second := by
  refine monotone_nat_of_le_succ (fun index => ?_) ordered
  rcases Nat.lt_or_ge index items.length with below | beyond
  · rw [offset_succ length items below]
    omega
  · rw [offset_of_le length beyond, offset_of_le length (show items.length ≤ index + 1 by omega)]

variable {length}

/-- Items of a least size take at least as much space. -/
theorem offset_add_le {size : Nat} (least : ∀ item, size ≤ length item) {items : List α} {first second : Nat}
    (ordered : first ≤ second) (within : second ≤ items.length) :
    offset length items first + size * (second - first) ≤ offset length items second := by
  induction second, ordered using Nat.le_induction with
  | base => simp
  | succ second ordered ih =>
      have step := offset_succ length items within
      have own := least items[second]
      have rest := ih (by omega)
      rw [Nat.succ_sub ordered, Nat.mul_succ]
      omega

section Positive

variable (positive : ∀ item, 0 < length item)

include positive

theorem offset_lt {items : List α} {first second : Nat} (ordered : first < second)
    (within : first < items.length) : offset length items first < offset length items second := by
  have next := offset_succ length items within
  have grows := positive items[first]
  have later := offset_mono length items (show first + 1 ≤ second from ordered)
  omega

theorem offset_le_iff {items : List α} {first second : Nat} (within : first ≤ items.length) :
    offset length items first ≤ offset length items second ↔ first ≤ second := by
  constructor
  · intro ordered
    by_contra late
    have := @offset_lt _ _ positive items second first (by omega) (by omega)
    omega
  · exact fun ordered => offset_mono length items ordered

theorem offset_lt_iff {items : List α} {first second : Nat} (within : second ≤ items.length) :
    offset length items first < offset length items second ↔ first < second := by
  rw [← not_le, ← not_le, offset_le_iff positive within]

theorem offset_injective {items : List α} {first second : Nat} (firstWithin : first ≤ items.length)
    (secondWithin : second ≤ items.length) (same : offset length items first = offset length items second) :
    first = second := by
  have forth := (offset_le_iff positive firstWithin).mp same.le
  have back := (offset_le_iff positive secondWithin).mp same.ge
  omega

end Positive

/-- Every position before the end lies in one item. -/
theorem exists_offset {items : List α} {position : Nat} (before : position < (items.map length).sum) :
    ∃ index, index < items.length ∧ offset length items index ≤ position ∧
      position < offset length items (index + 1) := by
  rw [← offset_of_le length (le_refl items.length)] at before
  have reach : ∀ bound, bound ≤ items.length → position < offset length items bound →
      ∃ index, index < items.length ∧ offset length items index ≤ position ∧
        position < offset length items (index + 1) := by
    intro bound
    induction bound with
    | zero => simp
    | succ bound ih =>
        intro within inside
        rcases Nat.lt_or_ge position (offset length items bound) with early | late
        · exact ih (by omega) early
        · exact ⟨bound, by omega, late, inside⟩
  exact reach items.length le_rfl before

end Circular
