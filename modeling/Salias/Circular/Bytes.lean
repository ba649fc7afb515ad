import Mathlib.Logic.Function.Basic
import Mathlib.Data.List.Basic
import Mathlib.Data.Nat.ModEq
import Mathlib.Tactic.Ring

/-
A circular memory holds one byte at each offset below its capacity. Positions grow without a bound and
are taken modulo the capacity.
-/

namespace Circular

abbrev Bytes := Nat → UInt8

/-- The bytes of a range, in the order of their positions. -/
def read (capacity : Nat) (bytes : Bytes) (position length : Nat) : List UInt8 :=
  (List.range length).map fun index => bytes ((position + index) % capacity)

/-- A write stores its data from the position on. -/
def write (capacity : Nat) (bytes : Bytes) (position : Nat) : List UInt8 → Bytes
  | [] => bytes
  | byte :: rest => write capacity (Function.update bytes (position % capacity) byte) (position + 1) rest

/-- No position of the first range shares its offset with a position of the second. -/
def Apart (capacity first firstLength second secondLength : Nat) : Prop :=
  ∀ i, i < firstLength → ∀ j, j < secondLength → (first + i) % capacity ≠ (second + j) % capacity

namespace Apart

variable {capacity first firstLength second secondLength : Nat}

theorem symm (apart : Apart capacity first firstLength second secondLength) :
    Apart capacity second secondLength first firstLength :=
  fun i below j other same => apart j other i below same.symm

/-- Parts of two ranges that are apart are apart. -/
theorem mono (apart : Apart capacity first firstLength second secondLength) {start length other size : Nat}
    (fromFirst : first ≤ start) (toFirst : start + length ≤ first + firstLength)
    (fromSecond : second ≤ other) (toSecond : other + size ≤ second + secondLength) :
    Apart capacity start length other size := by
  intro i below j under
  have distinct := apart (start - first + i) (by omega) (other - second + j) (by omega)
  have left : first + (start - first + i) = start + i := by omega
  have right : second + (other - second + j) = other + j := by omega
  rwa [left, right] at distinct

/-- Two successive ranges inside one window of the capacity are apart. -/
theorem of_window (ordered : first + firstLength ≤ second)
    (window : second + secondLength ≤ first + capacity) :
    Apart capacity first firstLength second secondLength := by
  intro i below j under same
  have multiple := (Nat.modEq_iff_dvd' (show first + i ≤ second + j by omega)).mp same
  have positive : 0 < second + j - (first + i) := by omega
  have bound := Nat.le_of_dvd positive multiple
  omega

end Apart

/-- Two positions inside one window of the capacity share their offset only when they are equal. -/
theorem eq_of_window {capacity first second : Nat} (ordered : first ≤ second) (window : second < first + capacity)
    (same : first % capacity = second % capacity) : first = second := by
  by_contra different
  have apart : Apart capacity first 1 second 1 := .of_window (by omega) (by omega)
  exact apart 0 Nat.one_pos 0 Nat.one_pos same

@[simp] theorem length_read (capacity : Nat) (bytes : Bytes) (position length : Nat) :
    (read capacity bytes position length).length = length := by
  simp [read]

/-- A read depends only on the offsets of its range. -/
theorem read_congr {capacity : Nat} {before after : Bytes} {position length : Nat}
    (same : ∀ index, index < length →
      after ((position + index) % capacity) = before ((position + index) % capacity)) :
    read capacity after position length = read capacity before position length := by
  apply List.map_congr_left
  intro index member
  exact same index (List.mem_range.mp member)

/-- An offset that no position of the write takes keeps its byte. -/
theorem write_other {capacity : Nat} (bytes : Bytes) (position offset : Nat) (data : List UInt8)
    (untouched : ∀ index, index < data.length → (position + index) % capacity ≠ offset) :
    write capacity bytes position data offset = bytes offset := by
  induction data generalizing bytes position with
  | nil => rfl
  | cons byte rest ih =>
      have later (index : Nat) (below : index < rest.length) : (position + 1 + index) % capacity ≠ offset := by
        have shifted : position + 1 + index = position + (index + 1) := by omega
        rw [shifted]
        exact untouched (index + 1) (by simpa using below)
      rw [write, ih _ _ later]
      have first := untouched 0 (by simp)
      exact Function.update_of_ne (fun same => first same.symm) _ _

/-- A write that fits in the capacity stores each byte at its own offset. -/
theorem write_at {capacity : Nat} (bytes : Bytes) (position : Nat) (data : List UInt8)
    (fits : data.length ≤ capacity) (index : Nat) (below : index < data.length) :
    write capacity bytes position data ((position + index) % capacity) = data[index] := by
  induction data generalizing bytes position index with
  | nil => exact absurd below (by simp)
  | cons byte rest ih =>
      have bounded : rest.length + 1 ≤ capacity := by simpa using fits
      cases index with
      | zero =>
          rw [write, write_other]
          · simp
          · intro other under same
            have window : Apart capacity position 1 (position + 1) rest.length :=
              .of_window le_rfl (by omega)
            exact window 0 (by omega) other under same.symm
      | succ index =>
          have shifted : position + (index + 1) = position + 1 + index := by omega
          rw [write, shifted, ih _ _ (by omega) index (by simpa using below)]
          rfl

/-- A range that is apart from a write reads the same bytes. -/
theorem read_write_apart {capacity : Nat} (bytes : Bytes) (position : Nat) (data : List UInt8)
    {start length : Nat} (apart : Apart capacity position data.length start length) :
    read capacity (write capacity bytes position data) start length = read capacity bytes start length :=
  read_congr fun index below => write_other bytes position _ data fun other under =>
    apart other under index below

/-- A range reads back what was written there. -/
theorem read_write_same {capacity : Nat} (bytes : Bytes) (position : Nat) (data : List UInt8)
    (fits : data.length ≤ capacity) :
    read capacity (write capacity bytes position data) position data.length = data := by
  apply List.ext_getElem (by simp)
  intro index below under
  have stored := write_at bytes position data fits index under
  simpa [read] using stored

/-- Positions with the same offset begin the same range. -/
theorem read_of_mod {capacity : Nat} (bytes : Bytes) {first second : Nat} (length : Nat)
    (same : first % capacity = second % capacity) :
    read capacity bytes first length = read capacity bytes second length := by
  apply List.map_congr_left
  intro index _
  exact congrArg bytes (Nat.ModEq.add_right index same)

theorem write_of_mod {capacity : Nat} (bytes : Bytes) {first second : Nat} (data : List UInt8)
    (same : first % capacity = second % capacity) :
    write capacity bytes first data = write capacity bytes second data := by
  induction data generalizing bytes first second with
  | nil => rfl
  | cons byte rest ih =>
      rw [write, write, same]
      apply ih
      exact Nat.ModEq.add_right 1 same

/-- A write inside a range replaces the bytes of its part. -/
theorem read_write_inside {capacity : Nat} (bytes : Bytes) (position : Nat) {length offset : Nat} {data : List UInt8}
    (inside : offset + data.length ≤ length) (fits : length ≤ capacity) :
    read capacity (write capacity bytes (position + offset) data) position length =
      (read capacity bytes position length).take offset ++ data ++
        (read capacity bytes position length).drop (offset + data.length) := by
  apply List.ext_getElem
  · simp
    omega
  intro index below under
  rw [length_read] at below
  have value (state : Bytes) (bound : index < (read capacity state position length).length) :
      (read capacity state position length)[index] = state ((position + index) % capacity) := by
    simp [read]
  rw [value]
  by_cases before : index < offset
  · rw [List.getElem_append_left (by simp; omega), List.getElem_append_left (by simp; omega), List.getElem_take, value]
    apply write_other
    intro other within
    have window : Apart capacity (position + index) 1 (position + offset) data.length :=
      .of_window (by omega) (by omega)
    exact fun same => window 0 Nat.one_pos other within same.symm
  · by_cases past : index < offset + data.length
    · have small : data.length ≤ capacity := by omega
      have stored := write_at bytes (position + offset) data small (index - offset) (by omega)
      rw [show position + offset + (index - offset) = position + index by omega] at stored
      have length_take : ((read capacity bytes position length).take offset).length = offset := by
        simp
        omega
      rw [stored, List.getElem_append_left (by simp; omega),
        List.getElem_append_right (show ((read capacity bytes position length).take offset).length ≤ index by omega)]
      simp only [length_take]
    · have length_take : ((read capacity bytes position length).take offset ++ data).length = offset + data.length := by
        simp
        omega
      have place : offset + data.length + (index - (offset + data.length)) = index := by omega
      rw [List.getElem_append_right (by rw [length_take]; omega)]
      simp only [List.getElem_drop, length_take, place, value]
      apply write_other
      intro other within
      have window : Apart capacity (position + offset) data.length (position + index) 1 :=
        .of_window (by omega) (by omega)
      exact window other within 0 Nat.one_pos

/-- The little-endian bytes of a word. -/
def encode : Nat → Nat → List UInt8
  | 0, _ => []
  | size + 1, value => UInt8.ofNat value :: encode size (value / 256)

/-- The word of little-endian bytes. -/
def decode : List UInt8 → Nat
  | [] => 0
  | byte :: rest => byte.toNat + 256 * decode rest

@[simp] theorem length_encode (size value : Nat) : (encode size value).length = size := by
  induction size generalizing value with
  | zero => rfl
  | succ size ih => simp [encode, ih]

theorem decode_encode (size value : Nat) (fits : value < 256 ^ size) : decode (encode size value) = value := by
  induction size generalizing value with
  | zero =>
      simp only [pow_zero, Nat.lt_one_iff] at fits
      simp [encode, decode, fits]
  | succ size ih =>
      have high : value / 256 < 256 ^ size := by
        rw [Nat.div_lt_iff_lt_mul (by norm_num), ← pow_succ]
        exact fits
      simp only [encode, decode, ih _ high, UInt8.toNat_ofNat']
      omega

/-- One word of eight bytes. -/
def loadWord (capacity : Nat) (bytes : Bytes) (position : Nat) : Nat :=
  decode (read capacity bytes position 8)

def storeWord (capacity : Nat) (bytes : Bytes) (position value : Nat) : Bytes :=
  write capacity bytes position (encode 8 value)

theorem loadWord_storeWord {capacity : Nat} (bytes : Bytes) (position value : Nat) (fits : 8 ≤ capacity)
    (small : value < 2 ^ 64) : loadWord capacity (storeWord capacity bytes position value) position = value := by
  have same := read_write_same bytes position (encode 8 value) (by simpa using fits)
  rw [length_encode] at same
  rw [loadWord, storeWord, same]
  exact decode_encode 8 value (by norm_num; exact small)

theorem decode_lt (data : List UInt8) : decode data < 256 ^ data.length := by
  induction data with
  | nil => simp [decode]
  | cons byte rest ih =>
      have low := byte.toNat_lt
      simp only [decode, List.length_cons, pow_succ]
      omega

theorem loadWord_lt (capacity : Nat) (bytes : Bytes) (position : Nat) :
    loadWord capacity bytes position < 2 ^ 64 := by
  have bound := decode_lt (read capacity bytes position 8)
  rw [length_read] at bound
  exact bound.trans_eq (by norm_num)

end Circular
