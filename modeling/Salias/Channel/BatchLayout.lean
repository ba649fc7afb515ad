import Salias.Channel.CommitOrder
import Salias.Concurrent.Outcome

/-
The frames of a batch. The fill loop and the commit find each frame by the frame length of the claim, which the claim
holds in 32 bits.
-/

namespace Salias.SharedHybridMpsc

open Concurrent Salias.Frame

variable {n m : Nat} {K : Type}

/-- The position at which the commit stores a header, and behind which the fill loop copies a payload. -/
def BatchClaim.slot (batch : BatchClaim) (index : Nat) : Nat := batch.startPos + batch.frameLength * index

/-- The end of the header, the deadline and the payload of a frame. -/
def BatchClaim.slotStop (batch : BatchClaim) (index : Nat) : Nat :=
  batch.slot index + payloadOffset batch.hasExpiry + batch.payloadLen

/-- The frames of a batch fill the claimed region. -/
structure BatchClaim.Exact (setup : Setup n m K) (producer : Fin n) (payloadLen : Nat) (hasExpiry : Bool)
    (batch : BatchClaim) : Prop where
  payload : batch.payloadLen = payloadLen ∧ batch.hasExpiry = hasExpiry
  frameLength : batch.frameLength = frameLen payloadLen hasExpiry
  inside : ∀ index, index < batch.frameCount →
    batch.startPos ≤ batch.slot index ∧ batch.slotStop index ≤ batch.startPos + batch.regionLength
  distinct : ∀ first second, first < second → second < batch.frameCount → batch.slotStop first ≤ batch.slot second
  published : commitBatch setup producer batch =
    (Prog.forEach (commitRound setup producer batch) (List.range batch.frameCount)).bind fun _ =>
      publishContiguous producer batch.startPos (batch.startPos + batch.regionLength)

/-- What a granted batch looks like. -/
structure BatchClaim.Granted (payloadLen : Nat) (hasExpiry : Bool) (batch : BatchClaim) : Prop where
  payload : batch.payloadLen = payloadLen ∧ batch.hasExpiry = hasExpiry
  region : batch.regionLength = frameLen payloadLen hasExpiry * batch.frameCount
  frameLength : batch.frameLength = frameLen payloadLen hasExpiry % 2 ^ 32
  some : batch.frameCount ≠ 0

variable {setup : Setup n m K} {producer : Fin n} {payloadLen : Nat} {hasExpiry : Bool} {batch : BatchClaim}

/-- A header, a deadline and a payload fit in a frame. -/
theorem payloadOffset_add_le (payloadLen : Nat) (hasExpiry : Bool) :
    payloadOffset hasExpiry + payloadLen ≤ frameLen payloadLen hasExpiry := by
  have aligned := le_alignUp payloadLen
  rw [frameLen_eq]
  omega

theorem BatchClaim.Granted.exact (granted : batch.Granted payloadLen hasExpiry)
    (small : frameLen payloadLen hasExpiry < 2 ^ 32) : batch.Exact setup producer payloadLen hasExpiry := by
  obtain ⟨⟨rfl, rfl⟩, region, cut, some⟩ := granted
  have whole : batch.frameLength = frameLen batch.payloadLen batch.hasExpiry := cut.trans (Nat.mod_eq_of_lt small)
  have inside := payloadOffset_add_le batch.payloadLen batch.hasExpiry
  rw [← whole] at inside region
  have stops (index : Nat) : batch.slotStop index ≤ batch.startPos + batch.frameLength * (index + 1) := by
    rw [slotStop, slot, Nat.mul_succ]
    omega
  refine ⟨⟨rfl, rfl⟩, whole, ?_, ?_, ?_⟩
  · intro index below
    refine ⟨Nat.le_add_right _ _, (stops index).trans ?_⟩
    rw [region]
    exact Nat.add_le_add_left (Nat.mul_le_mul_left _ below) _
  · intro first second before _
    exact (stops first).trans (Nat.add_le_add_left (Nat.mul_le_mul_left _ before) _)
  · rw [commitBatch, if_neg some, region]
    rfl

/-- The frames of a granted batch are exact when their length is a number of 32 bits. -/
theorem BatchClaim.Granted.exact_iff (granted : batch.Granted payloadLen hasExpiry) :
    batch.Exact setup producer payloadLen hasExpiry ↔ frameLen payloadLen hasExpiry < 2 ^ 32 := by
  constructor
  · intro exact
    rw [← exact.frameLength, granted.frameLength]
    exact Nat.mod_lt _ (by norm_num)
  · exact granted.exact

section Claims

variable (setup : Setup n m K) (producer : Fin n) (payload maxFrames : UInt32) (expiresAt : UInt64) (expires : Bool)

theorem ends_claimBatchGuarded :
    Ends (fun result => ∀ batch, result = .ok batch → batch.Granted payload.toNat expires)
      (claimBatchGuarded setup producer payload maxFrames expiresAt expires) := by
  refine .bind fun tail => ?_
  refine (ends_batchRoom setup producer tail _ _).bind_of fun room granted => ?_
  cases room with
  | error error =>
      intro batch same
      cases same
  | ok fit =>
      refine .bind fun sequence => .bind fun _ => ?_
      intro batch same
      cases same
      exact ⟨⟨rfl, rfl⟩, rfl, rfl, granted fit rfl⟩

theorem ends_claimBatch :
    Ends (fun result => ∀ batch, result = .ok batch → batch.Granted payload.toNat expires)
      (claimBatch setup producer payload maxFrames expiresAt expires) := by
  have refused (error : FlowError) : Ends (fun result => ∀ batch, result = .ok batch → batch.Granted payload.toNat expires)
      (.ret (.error error) : Prog (State n m K) (Except FlowError BatchClaim)) := by
    intro batch same
    cases same
  unfold claimBatch
  split
  · exact refused _
  · refine .bind fun acquired => ?_
    split
    · have result : Ends (fun result => ∀ batch, result = .ok batch → batch.Granted payload.toNat expires)
          (if setup.capacity < frameLen payload.toNat expires then pure (.error FlowError.MessageTooLarge)
            else claimBatchGuarded setup producer payload maxFrames expiresAt expires :
              Prog (State n m K) (Except FlowError BatchClaim)) := by
        split
        · exact refused _
        · exact ends_claimBatchGuarded setup producer payload maxFrames expiresAt expires
      exact result.bind_of fun _ granted => .bind fun _ => granted
    · exact refused _

/-- A granted batch is exact precisely when its frame length is a number of 32 bits. -/
theorem granted_batch_exact_iff :
    Ends (fun result => ∀ batch, result = .ok batch →
        (batch.Exact setup producer payload.toNat expires ↔ frameLen payload.toNat expires < 2 ^ 32))
      (claimBatch setup producer payload maxFrames expiresAt expires) := by
  apply (ends_claimBatch setup producer payload maxFrames expiresAt expires).mono
  intro result granted batch same
  exact (granted batch same).exact_iff

end Claims

/-- The largest payload in a ring of 8 GiB gets frames of 8 bytes, and its commit publishes 8 bytes. -/
theorem large_batch_inexact :
    let claimed := (claimBatch largeSetup 0 4294967295 1 0 false).run initial.shared
    let committed := (commitBatch largeSetup 0 ⟨4294967304, 0, 8, 1, 4294967295, 0, false, 0⟩).run claimed.2
    claimed.1 = .ok ⟨4294967304, 0, 8, 1, 4294967295, 0, false, 0⟩ ∧
      (claimed.2.tx 0).producerPos = 4294967304 ∧ (committed.2.ring 0).visibleProducerPos = 8 ∧
      ¬ BatchClaim.Exact largeSetup 0 4294967295 false ⟨4294967304, 0, 8, 1, 4294967295, 0, false, 0⟩ := by
  refine ⟨by decide, by decide, by decide, fun exact => ?_⟩
  have length := exact.frameLength
  revert length
  decide

end Salias.SharedHybridMpsc
