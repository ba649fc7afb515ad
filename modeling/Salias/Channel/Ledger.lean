import Salias.Channel.Tx
import Salias.Circular.Offsets

/-
The claimed frames of a ring follow each other without a gap, and the counters of the producer describe them.
-/

namespace Salias.SharedHybridMpsc

open Salias.Frame

/-- What a producer has claimed and what it has announced to the subscribers. -/
structure Tally where
  producerPos : Nat
  messageSequence : Nat
  localSequence : Nat
  announcedPosition : Nat
  announcedSequence : Nat
  announcedMessages : Nat
  ringSequence : Nat
  frames : List ClaimedFrame

/-- The first byte of a claimed frame, counted from the first frame. -/
abbrev frameOffset (frames : List ClaimedFrame) (index : Nat) : Nat :=
  Circular.offset ClaimedFrame.length frames index

/-- The frames follow each other from position zero on. -/
def Chained (frames : List ClaimedFrame) : Prop :=
  ∀ index (below : index < frames.length), frames[index].start = frameOffset frames index

/-- A frame that a claim can make. -/
structure ClaimedFrame.Valid (capacity : Nat) (frame : ClaimedFrame) : Prop where
  payloadLen : frame.payloadLen < 2 ^ 32
  expiresAt : frame.expiresAt < 2 ^ 64
  length : frame.length ≤ capacity

/-- The private counters of a producer describe its claimed frames. -/
structure Tally.Exact (ordered : Bool) (capacity : Nat) (tally : Tally) : Prop where
  messages : tally.messageSequence = tally.frames.length
  position : tally.producerPos = frameOffset tally.frames tally.frames.length
  chained : Chained tally.frames
  valid : ∀ frame ∈ tally.frames, frame.Valid capacity
  counted : ordered = false → tally.localSequence = tally.frames.length ∧
    tally.ringSequence = tally.frames.length
  numbered : ordered = false → ∀ index (below : index < tally.frames.length),
    tally.frames[index].sequence = index

/-- The announced words agree with the private counters. -/
structure Tally.Settled (ordered : Bool) (tally : Tally) : Prop where
  position : tally.announcedPosition = tally.producerPos
  messages : tally.announcedMessages = tally.messageSequence
  sequence : ordered = false → tally.announcedSequence = tally.localSequence

section Allocate

variable {tail need count sequence payloadLen expiresAt : Nat} {hasExpiry : Bool}

@[simp] theorem length_claimedFrames :
    (claimedFrames tail need count sequence payloadLen hasExpiry expiresAt).length = count := by
  simp [claimedFrames]

theorem claimedFrames_succ : claimedFrames tail need (count + 1) sequence payloadLen hasExpiry expiresAt =
    claimedFrames tail need count sequence payloadLen hasExpiry expiresAt ++
      [⟨tail + need * count, payloadLen, hasExpiry, expiresAt, sequence + count⟩] := by
  simp [claimedFrames, List.range_succ]

theorem mem_claimedFrames {frame : ClaimedFrame} :
    frame ∈ claimedFrames tail need count sequence payloadLen hasExpiry expiresAt ↔
      ∃ index, index < count ∧
        frame = ⟨tail + need * index, payloadLen, hasExpiry, expiresAt, sequence + index⟩ := by
  simp [claimedFrames, eq_comm]

theorem frameOffset_snoc (frames : List ClaimedFrame) (frame : ClaimedFrame) :
    frameOffset (frames ++ [frame]) (frames.length + 1) = frameOffset frames frames.length + frame.length := by
  rw [frameOffset, Circular.offset_of_le _ (by simp), frameOffset, Circular.offset_of_le _ le_rfl]
  simp

theorem Chained.snoc {frames : List ClaimedFrame} (chained : Chained frames) {frame : ClaimedFrame}
    (start : frame.start = frameOffset frames frames.length) : Chained (frames ++ [frame]) := by
  intro index below
  have within : index ≤ frames.length := by
    rw [List.length_append, List.length_singleton] at below
    omega
  rw [frameOffset, Circular.offset_append _ _ within]
  by_cases last : index = frames.length
  · subst last
    simpa using start
  · rw [List.getElem_append_left (by omega)]
    exact chained index (by omega)

/-- A block of frames that starts at the tail extends the chain. -/
theorem Chained.claim {frames : List ClaimedFrame} (chained : Chained frames) (count sequence expiresAt : Nat)
    (start : tail = frameOffset frames frames.length) (size : need = frameLen payloadLen hasExpiry) :
    Chained (frames ++ claimedFrames tail need count sequence payloadLen hasExpiry expiresAt) ∧
      frameOffset (frames ++ claimedFrames tail need count sequence payloadLen hasExpiry expiresAt)
        (frames.length + count) = tail + need * count := by
  induction count with
  | zero => simpa [claimedFrames, start] using chained
  | succ count ih =>
      obtain ⟨chain, stop⟩ := ih
      rw [claimedFrames_succ, ← List.append_assoc]
      have length : (frames ++ claimedFrames tail need count sequence payloadLen hasExpiry expiresAt).length =
          frames.length + count := by simp
      refine ⟨chain.snoc (by rw [length, stop]), ?_⟩
      have next := frameOffset_snoc (frames ++ claimedFrames tail need count sequence payloadLen hasExpiry expiresAt)
        ⟨tail + need * count, payloadLen, hasExpiry, expiresAt, sequence + count⟩
      rw [length, stop] at next
      rw [← Nat.add_assoc, next, ClaimedFrame.length, size]
      ring

end Allocate

end Salias.SharedHybridMpsc
