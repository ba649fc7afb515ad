import Salias.FastRing.Ring
import Salias.Circular.Bytes
import Mathlib.Tactic.Linarith

/-
The storage of the fast rings. The templates compute offsets and sizes in 64 bits; the rings of many producers nest
one smaller ring for each of them.
-/

namespace Salias.FastRing

open SharedHybridMpsc (isPowerOfTwo isPowerOfTwo_iff)

def kCacheLine : UInt64 := 128
def kIdentityOffset : UInt64 := 0
def kIdentityReadyOffset : UInt64 := 32
def kSlotSequenceOffset : UInt64 := 0
def kSlotPayloadOffset : UInt64 := 8

def alignUp (value alignment : UInt64) : UInt64 := (value + alignment - 1) &&& ~~~(alignment - 1)

def slotStride (payloadSize : UInt64) : UInt64 := alignUp (kSlotPayloadOffset + payloadSize) 64

namespace Spsc

def kConsumedOffset : UInt64 := kCacheLine
def kDataOffset : UInt64 := 2 * kCacheLine

def kStorageSize (payloadSize capacity : UInt64) : UInt64 := kDataOffset + slotStride payloadSize * capacity

def slotOffset (payloadSize capacity position : UInt64) : UInt64 :=
  kDataOffset + (position &&& (capacity - 1)) * slotStride payloadSize

end Spsc

namespace Spmc

def kCursorOffset : UInt64 := kCacheLine
def kDataOffset (consumers : UInt64) : UInt64 := kCursorOffset + consumers * kCacheLine

def kStorageSize (payloadSize capacity consumers : UInt64) : UInt64 :=
  kDataOffset consumers + slotStride payloadSize * capacity

def cursorOffset (consumer : UInt64) : UInt64 := kCursorOffset + consumer * kCacheLine

def slotOffset (payloadSize capacity consumers position : UInt64) : UInt64 :=
  kDataOffset consumers + (position &&& (capacity - 1)) * slotStride payloadSize

end Spmc

-- `FastMpscRing` and `FastMpmcRing` have the same layout of lanes.
namespace Lanes

def kLaneOffset : UInt64 := kCacheLine

def kStorageSize (laneStorageSize producers : UInt64) : UInt64 := kLaneOffset + producers * laneStorageSize

def laneOffset (laneStorageSize producer : UInt64) : UInt64 := kLaneOffset + producer * laneStorageSize

end Lanes

/-- The exact stride of a slot. -/
def strideSize (payloadSize : Nat) : Nat := (8 + payloadSize + 63) / 64 * 64

/-- The exact size of a ring without nested rings. -/
def ringSize (payloadSize capacity cursors : Nat) : Nat := 128 * (1 + cursors) + strideSize payloadSize * capacity

def Topology.cursors (topology : Topology) (consumers : Nat) : Nat := if topology.broadcast then consumers else 1

def Topology.storageSize (topology : Topology) (payloadSize capacity producers consumers : Nat) : Nat :=
  let lane := ringSize payloadSize capacity (topology.cursors consumers)
  if topology.manyLanes then 128 + producers * lane else lane

/-- Template arguments for which the storage size is a number of 64 bits. -/
structure Template where
  topology : Topology
  payloadSize : UInt64
  capacity : UInt64
  producers : UInt64
  consumers : UInt64
  payload : 0 < payloadSize
  slots : 2 ≤ capacity
  singleBit : isPowerOfTwo capacity.toNat = true
  someProducer : 0 < producers
  someConsumer : 0 < consumers
  small : topology.storageSize payloadSize.toNat capacity.toNat producers.toNat consumers.toNat < 2 ^ 64

/-- The words that identify a ring. -/
inductive IdentityWord where
  | magic
  | version
  | payloadSize
  | capacity
  | ready
  | count
  | consumerCount
  deriving DecidableEq

def IdentityWord.offset : IdentityWord → UInt64
  | .magic => kIdentityOffset
  | .version => kIdentityOffset + 8
  | .payloadSize => kIdentityOffset + 16
  | .capacity => kIdentityOffset + 24
  | .ready => kIdentityOffset + kIdentityReadyOffset
  | .count => kIdentityOffset + 40
  | .consumerCount => kIdentityOffset + 48

def IdentityWord.size : IdentityWord → Nat
  | .version => 4
  | _ => 8

/-- The ring that a topology nests for each producer. -/
def Topology.nested : Topology → Topology
  | .mpsc => .spsc
  | .mpmc => .spmc
  | topology => topology

def Topology.has : Topology → IdentityWord → Bool
  | topology, .count => topology != .spsc
  | topology, .consumerCount => topology == .mpmc
  | _, _ => true

/-- The parts of a ring without nested rings. -/
inductive RingPart where
  | identity (word : IdentityWord)
  | cursor (consumer : UInt64)
  | sequence (slot : UInt64)
  | payload (slot : UInt64)
  deriving DecidableEq

/-- A ring without nested rings is the lane of its only producer. -/
inductive Part where
  | outer (word : IdentityWord)
  | lane (producer : UInt64) (part : RingPart)
  deriving DecidableEq

structure Area where
  offset : Nat
  size : Nat

def Area.stop (area : Area) : Nat := area.offset + area.size

def Area.Apart (first second : Area) : Prop := first.stop ≤ second.offset ∨ second.stop ≤ first.offset

namespace Template

variable (template : Template)

def laneStorageSize : UInt64 :=
  if template.topology.broadcast then Spmc.kStorageSize template.payloadSize template.capacity template.consumers
  else Spsc.kStorageSize template.payloadSize template.capacity

def requiredStorageSize : UInt64 :=
  if template.topology.manyLanes then Lanes.kStorageSize template.laneStorageSize template.producers
  else template.laneStorageSize

def laneDataOffset : UInt64 :=
  if template.topology.broadcast then Spmc.kDataOffset template.consumers else Spsc.kDataOffset

def cursorOffset (consumer : UInt64) : UInt64 :=
  if template.topology.broadcast then Spmc.cursorOffset consumer else Spsc.kConsumedOffset

def slotOffset (position : UInt64) : UInt64 :=
  if template.topology.broadcast then
    Spmc.slotOffset template.payloadSize template.capacity template.consumers position
  else Spsc.slotOffset template.payloadSize template.capacity position

def laneOffset (producer : UInt64) : UInt64 :=
  if template.topology.manyLanes then Lanes.laneOffset template.laneStorageSize producer else 0

/-- The parts that a ring without nested rings has. -/
def RingPresent : RingPart → Prop
  | .identity word => template.topology.nested.has word = true
  | .cursor consumer => consumer.toNat < template.topology.cursors template.consumers.toNat
  | .sequence slot => slot < template.capacity
  | .payload slot => slot < template.capacity

def laneCount : Nat := if template.topology.manyLanes then template.producers.toNat else 1

def Present : Part → Prop
  | .outer word => template.topology.manyLanes = true ∧ template.topology.has word = true
  | .lane producer part => producer.toNat < template.laneCount ∧ template.RingPresent part

def ringArea : RingPart → Area
  | .identity word => ⟨word.offset.toNat, word.size⟩
  | .cursor consumer => ⟨(template.cursorOffset consumer).toNat, 8⟩
  | .sequence slot => ⟨(template.slotOffset slot + kSlotSequenceOffset).toNat, 8⟩
  | .payload slot => ⟨(template.slotOffset slot + kSlotPayloadOffset).toNat, template.payloadSize.toNat⟩

def area : Part → Area
  | .outer word => ⟨word.offset.toNat, word.size⟩
  | .lane producer part =>
      ⟨(template.laneOffset producer).toNat + (template.ringArea part).offset, (template.ringArea part).size⟩

end Template

/-- The words that are accessed atomically. -/
def RingPart.atomic : RingPart → Bool
  | .identity word => word == .ready
  | .cursor _ | .sequence _ => true
  | .payload _ => false

def Part.atomic : Part → Bool
  | .outer word => word == .ready
  | .lane _ part => part.atomic

section Arithmetic

/-- The mask clears the low bits. -/
theorem and_high_mask {value : Nat} (small : value < 2 ^ 64) : value &&& (2 ^ 64 - 64) = value / 64 * 64 := by
  have mask : 2 ^ 64 - 64 = (2 ^ 58 - 1) * 2 ^ 6 := by norm_num
  rw [mask, show value / 64 * 64 = value / 2 ^ 6 * 2 ^ 6 from rfl]
  refine Nat.eq_of_testBit_eq fun index => ?_
  rw [Nat.testBit_and, Nat.testBit_mul_two_pow, Nat.testBit_mul_two_pow, Nat.testBit_two_pow_sub_one,
    Nat.testBit_div_two_pow]
  by_cases low : 6 ≤ index
  · by_cases high : index < 64
    · simp [low, show index - 6 < 58 by omega]
    · have none : value.testBit index = false :=
        Nat.testBit_lt_two_pow (small.trans_le (Nat.pow_le_pow_right (by decide) (by omega)))
      simp [none, show index - 6 + 6 = index by omega]
  · simp [low]

theorem slotStride_toNat {payloadSize : UInt64} (small : 8 + payloadSize.toNat + 63 < 2 ^ 64) :
    (slotStride payloadSize).toNat = strideSize payloadSize.toNat := by
  have sum : (kSlotPayloadOffset + payloadSize + 64 - 1).toNat = 8 + payloadSize.toNat + 63 := by
    simp only [kSlotPayloadOffset, UInt64.toNat_sub, UInt64.toNat_add, UInt64.toNat_ofNat]
    omega
  have mask : (~~~((64 : UInt64) - 1)).toNat = 2 ^ 64 - 64 := by decide
  rw [slotStride, alignUp, UInt64.toNat_and, sum, mask, and_high_mask small, strideSize]

theorem strideSize_bounds (payloadSize : Nat) :
    8 + payloadSize ≤ strideSize payloadSize ∧ strideSize payloadSize ≤ payloadSize + 71 ∧
      64 ∣ strideSize payloadSize := by
  refine ⟨?_, ?_, Dvd.intro_left _ rfl⟩
  all_goals
    unfold strideSize
    omega

end Arithmetic

namespace Template

variable (template : Template)

/-- The exact numbers behind the offsets. -/
def cursorCount : Nat := template.topology.cursors template.consumers.toNat
def stride : Nat := strideSize template.payloadSize.toNat
def ring : Nat := ringSize template.payloadSize.toNat template.capacity.toNat template.cursorCount

theorem ring_eq : template.ring = 128 * (1 + template.cursorCount) + template.stride * template.capacity.toNat := rfl

theorem two_le_capacity : 2 ≤ template.capacity.toNat := UInt64.le_iff_toNat_le.mp template.slots

theorem producers_pos : 0 < template.producers.toNat := UInt64.lt_iff_toNat_lt.mp template.someProducer

theorem cursorCount_pos : 0 < template.cursorCount := by
  have some : 0 < template.consumers.toNat := UInt64.lt_iff_toNat_lt.mp template.someConsumer
  unfold cursorCount Topology.cursors
  split <;> omega

/-- A lane is a part of the storage. -/
theorem ring_small : template.ring < 2 ^ 64 ∧
    (template.topology.manyLanes = true → 128 + template.producers.toNat * template.ring < 2 ^ 64) := by
  have small : (if template.topology.manyLanes then 128 + template.producers.toNat * template.ring else template.ring) <
      2 ^ 64 := template.small
  have lanes : template.ring ≤ template.producers.toNat * template.ring :=
    Nat.le_mul_of_pos_left _ template.producers_pos
  cases many : template.topology.manyLanes with
  | true =>
      rw [many, if_pos rfl] at small
      exact ⟨by omega, fun _ => small⟩
  | false =>
      rw [many] at small
      exact ⟨by simpa using small, fun absent => by cases absent⟩

theorem stride_small : template.stride + 71 < 2 ^ 64 ∧ template.stride * template.capacity.toNat < 2 ^ 64 := by
  have small := template.ring_small.1
  rw [ring_eq] at small
  have two : template.stride * 2 ≤ template.stride * template.capacity.toNat :=
    Nat.mul_le_mul_left _ template.two_le_capacity
  omega

theorem slotStride_eq : (slotStride template.payloadSize).toNat = template.stride := by
  have bounds := (strideSize_bounds template.payloadSize.toNat).1
  have small := template.stride_small.1
  apply slotStride_toNat
  unfold stride at small
  omega

theorem laneDataOffset_eq : template.laneDataOffset.toNat = 128 * (1 + template.cursorCount) := by
  have small := template.ring_small.1
  rw [ring_eq] at small
  cases broadcast : template.topology.broadcast with
  | true =>
      simp only [cursorCount, Topology.cursors, broadcast, if_true] at small ⊢
      simp only [laneDataOffset, broadcast, if_true, Spmc.kDataOffset, Spmc.kCursorOffset, kCacheLine, UInt64.toNat_add,
        UInt64.toNat_mul, UInt64.toNat_ofNat]
      omega
  | false =>
      simp only [laneDataOffset, cursorCount, Topology.cursors, broadcast, Bool.false_eq_true, if_false]
      decide

theorem cursorOffset_eq {consumer : UInt64} (within : consumer.toNat < template.cursorCount) :
    (template.cursorOffset consumer).toNat = 128 * (1 + consumer.toNat) := by
  have small := template.ring_small.1
  rw [ring_eq] at small
  cases broadcast : template.topology.broadcast with
  | true =>
      simp only [cursorOffset, broadcast, if_true, Spmc.cursorOffset, Spmc.kCursorOffset, kCacheLine, UInt64.toNat_add,
        UInt64.toNat_mul, UInt64.toNat_ofNat]
      omega
  | false =>
      simp only [cursorCount, Topology.cursors, broadcast, Bool.false_eq_true, if_false, Nat.lt_one_iff] at within
      simp only [cursorOffset, broadcast, Bool.false_eq_true, if_false, within]
      decide

theorem laneStorageSize_eq : template.laneStorageSize.toNat = template.ring := by
  have start := template.laneDataOffset_eq
  have small := template.ring_small.1
  have slots := template.stride_small.2
  have split : template.laneStorageSize = template.laneDataOffset + slotStride template.payloadSize * template.capacity := by
    unfold laneStorageSize laneDataOffset
    split <;> rfl
  rw [split, UInt64.toNat_add, UInt64.toNat_mul, start, template.slotStride_eq, Nat.mod_eq_of_lt slots, ← ring_eq,
    Nat.mod_eq_of_lt small]

/-- A position takes the slot of its remainder. -/
theorem slotOffset_eq (position : UInt64) : (template.slotOffset position).toNat =
    128 * (1 + template.cursorCount) + position.toNat % template.capacity.toNat * template.stride := by
  have start := template.laneDataOffset_eq
  have small := template.ring_small.1
  have split : template.slotOffset position =
      template.laneDataOffset + (position &&& (template.capacity - 1)) * slotStride template.payloadSize := by
    unfold slotOffset laneDataOffset
    split <;> rfl
  have mask : (position &&& (template.capacity - 1)).toNat = position.toNat % template.capacity.toNat := by
    obtain ⟨exponent, power⟩ := isPowerOfTwo_iff template.singleBit
    have one : (1 : UInt64) ≤ template.capacity := UInt64.le_trans (by decide : (1 : UInt64) ≤ 2) template.slots
    rw [UInt64.toNat_and, UInt64.toNat_sub_of_le _ _ one, power]
    exact Nat.and_two_pow_sub_one_eq_mod _ _
  have below := Nat.mod_lt position.toNat (show 0 < template.capacity.toNat from by have := template.two_le_capacity; omega)
  have inside : position.toNat % template.capacity.toNat * template.stride ≤
      template.stride * template.capacity.toNat := by
    rw [Nat.mul_comm template.stride]
    exact Nat.mul_le_mul_right _ below.le
  rw [ring_eq] at small
  rw [split, UInt64.toNat_add, UInt64.toNat_mul, start, mask, template.slotStride_eq, Nat.mod_eq_of_lt (by omega),
    Nat.mod_eq_of_lt (by omega)]

theorem laneOffset_eq (many : template.topology.manyLanes = true) {producer : UInt64}
    (within : producer.toNat < template.producers.toNat) :
    (template.laneOffset producer).toNat = 128 + producer.toNat * template.ring := by
  have small := template.ring_small.2 many
  have inside : producer.toNat * template.ring ≤ template.producers.toNat * template.ring :=
    Nat.mul_le_mul_right _ within.le
  rw [laneOffset, many, if_pos rfl, Lanes.laneOffset, UInt64.toNat_add, UInt64.toNat_mul, template.laneStorageSize_eq,
    Nat.mod_eq_of_lt (show producer.toNat * template.ring < 2 ^ 64 by omega)]
  exact Nat.mod_eq_of_lt (show 128 + producer.toNat * template.ring < 2 ^ 64 by omega)

theorem requiredStorageSize_eq : template.requiredStorageSize.toNat =
    if template.topology.manyLanes then 128 + template.producers.toNat * template.ring else template.ring := by
  cases many : template.topology.manyLanes with
  | true =>
      have small := template.ring_small.2 many
      rw [requiredStorageSize, many, if_pos rfl, Lanes.kStorageSize, UInt64.toNat_add, UInt64.toNat_mul,
        template.laneStorageSize_eq,
        Nat.mod_eq_of_lt (show template.producers.toNat * template.ring < 2 ^ 64 by omega)]
      exact Nat.mod_eq_of_lt (show 128 + template.producers.toNat * template.ring < 2 ^ 64 by omega)
  | false =>
      rw [requiredStorageSize, many]
      exact template.laneStorageSize_eq

end Template

/-- Areas inside of apart areas are apart. -/
theorem Area.Apart.mono {first second inner other : Area} (apart : first.Apart second)
    (start : first.offset ≤ inner.offset) (stop : inner.stop ≤ first.stop) (otherStart : second.offset ≤ other.offset)
    (otherStop : other.stop ≤ second.stop) : inner.Apart other := by
  unfold Area.Apart at apart ⊢
  omega

theorem Area.Apart.symm {first second : Area} (apart : first.Apart second) : second.Apart first := Or.symm apart

theorem IdentityWord.stop_le (word : IdentityWord) : (⟨word.offset.toNat, word.size⟩ : Area).stop ≤ 56 := by
  cases word <;> decide

theorem IdentityWord.apart {first second : IdentityWord} (different : first ≠ second) :
    (⟨first.offset.toNat, first.size⟩ : Area).Apart ⟨second.offset.toNat, second.size⟩ := by
  revert different
  unfold Area.Apart
  cases first <;> cases second <;> decide

namespace Template

variable {template : Template}

/-- The area of a slot. -/
def slotArea (template : Template) (slot : UInt64) : Area :=
  ⟨128 * (1 + template.cursorCount) + slot.toNat * template.stride, template.stride⟩

theorem slotArea_stop_le {slot : UInt64} (within : slot < template.capacity) :
    (template.slotArea slot).stop ≤ template.ring := by
  have below : slot.toNat + 1 ≤ template.capacity.toNat := UInt64.lt_iff_toNat_lt.mp within
  have last := Nat.mul_le_mul_right template.stride below
  rw [ring_eq, Nat.mul_comm template.stride]
  simp only [slotArea, Area.stop]
  rw [Nat.succ_mul] at last
  omega

theorem slotArea_apart {first second : UInt64} (different : first ≠ second) :
    (template.slotArea first).Apart (template.slotArea second) := by
  have numbers : first.toNat ≠ second.toNat := fun same => different (UInt64.toNat_inj.mp same)
  have ordered {low high : Nat} (before : low < high) : low * template.stride + template.stride ≤ high * template.stride := by
    have step := Nat.mul_le_mul_right template.stride (show low + 1 ≤ high from before)
    rwa [Nat.succ_mul] at step
  unfold slotArea Area.Apart Area.stop
  rcases Nat.lt_or_gt_of_ne numbers with before | after
  · have := ordered before
    left
    dsimp only
    omega
  · have := ordered after
    right
    dsimp only
    omega

/-- The sequence word and the payload share a slot. -/
theorem slot_parts {slot : UInt64} (within : slot < template.capacity) :
    template.ringArea (.sequence slot) = ⟨(template.slotArea slot).offset, 8⟩ ∧
      template.ringArea (.payload slot) = ⟨(template.slotArea slot).offset + 8, template.payloadSize.toNat⟩ ∧
      8 + template.payloadSize.toNat ≤ (template.slotArea slot).size := by
  have inside := slotArea_stop_le within
  have small := template.ring_small.1
  have bounds := (strideSize_bounds template.payloadSize.toNat).1
  have position := template.slotOffset_eq slot
  rw [Nat.mod_eq_of_lt (UInt64.lt_iff_toNat_lt.mp within)] at position
  simp only [slotArea, Area.stop] at inside
  unfold stride at inside position
  refine ⟨?_, ?_, bounds⟩
  · simp only [ringArea, slotArea, kSlotSequenceOffset, stride, UInt64.toNat_add, position, UInt64.toNat_ofNat,
      Area.mk.injEq, and_true]
    omega
  · simp only [ringArea, slotArea, kSlotPayloadOffset, stride, UInt64.toNat_add, position, UInt64.toNat_ofNat,
      Area.mk.injEq, and_true]
    omega

/-- Each part lies in an area of its own kind. -/
def cell (template : Template) : RingPart → Area
  | .identity _ => ⟨0, 128⟩
  | .cursor consumer => ⟨128 * (1 + consumer.toNat), 128⟩
  | .sequence slot | .payload slot => template.slotArea slot

theorem inside_cell {part : RingPart} (present : template.RingPresent part) :
    (template.cell part).offset ≤ (template.ringArea part).offset ∧
      (template.ringArea part).stop ≤ (template.cell part).stop := by
  cases part with
  | identity word => exact ⟨Nat.zero_le _, word.stop_le.trans (show 56 ≤ 0 + 128 by decide)⟩
  | cursor consumer =>
      simp only [cell, ringArea, Area.stop, template.cursorOffset_eq present]
      omega
  | sequence slot =>
      obtain ⟨area, -, room⟩ := slot_parts present
      rw [area]
      simp only [cell, Area.stop]
      omega
  | payload slot =>
      obtain ⟨-, area, room⟩ := slot_parts present
      rw [area]
      simp only [cell, Area.stop]
      omega

theorem ringArea_stop_le {part : RingPart} (present : template.RingPresent part) :
    (template.ringArea part).stop ≤ template.ring := by
  refine (inside_cell present).2.trans ?_
  have whole := template.ring_eq
  have some := template.cursorCount_pos
  cases part with
  | identity word =>
      simp only [cell, Area.stop]
      omega
  | cursor consumer =>
      have within : consumer.toNat < template.cursorCount := present
      simp only [cell, Area.stop]
      omega
  | sequence slot => exact slotArea_stop_le present
  | payload slot => exact slotArea_stop_le present

/-- Two parts of a ring are apart: their cells are, or they share the identity or a slot. -/
theorem ringArea_apart {first second : RingPart} (one : template.RingPresent first)
    (two : template.RingPresent second) (different : first ≠ second) :
    (template.ringArea first).Apart (template.ringArea second) := by
  have cells (apart : (template.cell first).Apart (template.cell second)) :
      (template.ringArea first).Apart (template.ringArea second) :=
    apart.mono (inside_cell one).1 (inside_cell one).2 (inside_cell two).1 (inside_cell two).2
  have slots {slot other : UInt64} (unequal : slot ≠ other) : (template.slotArea slot).Apart (template.slotArea other) :=
    slotArea_apart unequal
  cases first with
  | identity word =>
      cases second with
      | identity other => exact IdentityWord.apart fun same => different (congrArg _ same)
      | cursor consumer =>
          apply cells
          left
          simp only [cell, Area.stop]
          omega
      | sequence slot | payload slot =>
          apply cells
          left
          simp only [cell, Area.stop, slotArea]
          omega
  | cursor consumer =>
      have within : consumer.toNat < template.cursorCount := one
      cases second with
      | identity word =>
          apply cells
          right
          simp only [cell, Area.stop]
          omega
      | cursor other =>
          have unequal : consumer.toNat ≠ other.toNat := fun same => different (congrArg _ (UInt64.toNat_inj.mp same))
          apply cells
          simp only [cell, Area.Apart, Area.stop]
          omega
      | sequence slot | payload slot =>
          apply cells
          left
          simp only [cell, Area.stop, slotArea]
          omega
  | sequence slot =>
      cases second with
      | identity word =>
          apply cells
          right
          simp only [cell, Area.stop, slotArea]
          omega
      | cursor consumer =>
          have within : consumer.toNat < template.cursorCount := two
          apply cells
          right
          simp only [cell, Area.stop, slotArea]
          omega
      | sequence other => exact cells (slots fun same => different (congrArg _ same))
      | payload other =>
          by_cases same : slot = other
          · subst same
            obtain ⟨sequence, payload, -⟩ := slot_parts one
            rw [sequence, payload]
            exact .inl le_rfl
          · exact cells (slots same)
  | payload slot =>
      cases second with
      | identity word =>
          apply cells
          right
          simp only [cell, Area.stop, slotArea]
          omega
      | cursor consumer =>
          have within : consumer.toNat < template.cursorCount := two
          apply cells
          right
          simp only [cell, Area.stop, slotArea]
          omega
      | sequence other =>
          by_cases same : slot = other
          · subst same
            obtain ⟨sequence, payload, -⟩ := slot_parts one
            rw [sequence, payload]
            exact .inr le_rfl
          · exact cells (slots same)
      | payload other => exact cells (slots fun same => different (congrArg _ same))

/-- The area of a lane. -/
def laneArea (template : Template) (producer : UInt64) : Area :=
  ⟨(template.laneOffset producer).toNat, template.ring⟩

theorem laneArea_stop_le {producer : UInt64} (within : producer.toNat < template.laneCount) :
    (template.laneArea producer).stop ≤ template.requiredStorageSize.toNat := by
  rw [requiredStorageSize_eq]
  cases many : template.topology.manyLanes with
  | true =>
      rw [laneCount, many, if_pos rfl] at within
      have last := Nat.mul_le_mul_right template.ring (show producer.toNat + 1 ≤ template.producers.toNat from within)
      rw [Nat.succ_mul] at last
      simp only [laneArea, Area.stop, laneOffset_eq _ many within, if_true]
      omega
  | false => simp [laneArea, Area.stop, laneOffset, many]

/-- A lane follows the outer identity and begins on a cache line. -/
theorem laneOffset_aligned {producer : UInt64} (within : producer.toNat < template.laneCount) :
    128 ∣ (template.laneOffset producer).toNat ∧
      (template.topology.manyLanes = true → 128 ≤ (template.laneOffset producer).toNat) := by
  cases many : template.topology.manyLanes with
  | true =>
      rw [laneCount, many, if_pos rfl] at within
      have even : 2 ∣ template.capacity.toNat := by
        obtain ⟨exponent, power⟩ := isPowerOfTwo_iff template.singleBit
        have two := template.two_le_capacity
        rw [power] at two ⊢
        cases exponent with
        | zero => exact absurd two (by decide)
        | succ exponent => exact Dvd.intro_left _ (Nat.pow_succ ..).symm
      have slots : 128 ∣ template.stride * template.capacity.toNat :=
        mul_dvd_mul (strideSize_bounds template.payloadSize.toNat).2.2 even
      have ring : 128 ∣ template.ring := by
        rw [ring_eq]
        exact Nat.dvd_add (dvd_mul_right _ _) slots
      rw [laneOffset_eq _ many within]
      exact ⟨Nat.dvd_add (dvd_refl _) (dvd_mul_of_dvd_right ring _), fun _ => Nat.le_add_right _ _⟩
  | false => simp [laneOffset, many]

theorem laneArea_apart {first second : UInt64} (one : first.toNat < template.laneCount)
    (two : second.toNat < template.laneCount) (different : first ≠ second) :
    (template.laneArea first).Apart (template.laneArea second) := by
  have numbers : first.toNat ≠ second.toNat := fun same => different (UInt64.toNat_inj.mp same)
  have many : template.topology.manyLanes = true := by
    by_contra single
    simp only [laneCount, single, if_false] at one two
    omega
  rw [laneCount, many, if_pos rfl] at one two
  have ordered {low high : Nat} (before : low < high) : low * template.ring + template.ring ≤ high * template.ring := by
    have step := Nat.mul_le_mul_right template.ring (show low + 1 ≤ high from before)
    rwa [Nat.succ_mul] at step
  simp only [laneArea, Area.Apart, Area.stop, laneOffset_eq _ many one, laneOffset_eq _ many two]
  rcases Nat.lt_or_gt_of_ne numbers with before | after
  · have := ordered before
    left
    omega
  · have := ordered after
    right
    omega

/-- A part of a lane lies inside the lane. -/
theorem inside_lane {producer : UInt64} {part : RingPart} (present : template.RingPresent part) :
    (template.laneArea producer).offset ≤ (template.area (.lane producer part)).offset ∧
      (template.area (.lane producer part)).stop ≤ (template.laneArea producer).stop := by
  have inside := ringArea_stop_le present
  simp only [laneArea, area, Area.stop] at inside ⊢
  omega

theorem area_stop_le {part : Part} (present : template.Present part) :
    (template.area part).stop ≤ template.requiredStorageSize.toNat := by
  cases part with
  | outer word =>
      refine word.stop_le.trans ?_
      rw [requiredStorageSize_eq, if_pos present.1]
      omega
  | lane producer part => exact (inside_lane present.2).2.trans (laneArea_stop_le present.1)

theorem area_apart {first second : Part} (one : template.Present first) (two : template.Present second)
    (different : first ≠ second) : (template.area first).Apart (template.area second) := by
  have outer (word : IdentityWord) (many : template.topology.manyLanes = true) {producer : UInt64} {part : RingPart}
      (present : template.Present (.lane producer part)) :
      (template.area (.outer word)).Apart (template.area (.lane producer part)) := by
    have begins := (laneOffset_aligned present.1).2 many
    have stops := word.stop_le
    left
    simp only [area, Area.stop] at stops ⊢
    omega
  cases first with
  | outer word =>
      cases second with
      | outer other => exact IdentityWord.apart fun same => different (congrArg _ same)
      | lane producer part => exact outer word one.1 two
  | lane producer part =>
      cases second with
      | outer word => exact (outer word two.1 one).symm
      | lane other part' =>
          by_cases same : producer = other
          · subst same
            have parts := ringArea_apart one.2 two.2 fun same => different (congrArg _ same)
            simp only [area, Area.Apart, Area.stop] at parts ⊢
            omega
          · exact (laneArea_apart one.1 two.1 same).mono (inside_lane one.2).1 (inside_lane one.2).2
              (inside_lane two.2).1 (inside_lane two.2).2

theorem ringArea_aligned {part : RingPart} (present : template.RingPresent part) (atomic : part.atomic = true) :
    8 ∣ (template.ringArea part).offset := by
  cases part with
  | identity word =>
      cases word <;> first | exact absurd atomic (by decide) | exact ⟨4, rfl⟩
  | cursor consumer =>
      simp only [ringArea, template.cursorOffset_eq present]
      omega
  | sequence slot =>
      rw [(slot_parts present).1]
      have wide : 8 ∣ template.stride := dvd_trans (by decide) (strideSize_bounds template.payloadSize.toNat).2.2
      exact Nat.dvd_add (dvd_mul_of_dvd_left (by decide) _) (dvd_mul_of_dvd_right wide _)
  | payload slot => cases atomic

theorem area_aligned {part : Part} (present : template.Present part) (atomic : part.atomic = true) :
    8 ∣ (template.area part).offset := by
  cases part with
  | outer word =>
      cases word <;> first | exact absurd atomic (by decide) | exact ⟨4, rfl⟩
  | lane producer part =>
      have lane : 8 ∣ (template.laneOffset producer).toNat :=
        dvd_trans (by decide) (laneOffset_aligned present.1).1
      exact Nat.dvd_add lane (ringArea_aligned present.2 atomic)

end Template

end Salias.FastRing
