import Salias.HybridMpsc.Resume

/-
An offer claims with the size of its payload taken modulo 2 ^ 32 and copies the whole payload.
-/

namespace Salias.HybridMpsc

open Salias.Frame
open SharedHybridMpsc (Claim Message FlowError hasCapacity)

variable {n m : Nat}

/-- A claim, a copy and a commit. The claim takes a size of 32 bits, the copy all bytes. -/
def offer (setup : Setup n m) (channel : Channel n m) (producer : Fin n) (payload : List UInt8) :
    Except FlowError Bool × Channel n m :=
  match claim setup channel producer (UInt32.ofNat payload.length) with
  | (.error error, channel) => (.error error, channel)
  | (.ok reservation, channel) =>
      let written := writePayload setup channel producer (reservation.startPos + kHeaderSize) payload
      (.ok true, commit setup written producer reservation)

/-- The ring has room for a frame, on the known position of the slowest consumer or on a fresh one. -/
def Channel.HasRoom (setup : Setup n m) (channel : Channel n m) (producer : Fin n) (payloadLen : UInt32) : Prop :=
  let ring := channel.ring producer
  let need := frameLen payloadLen.toNat false
  need ≤ setup.capacity ∧
    (hasCapacity setup.effectiveCapacity ring.producerPos ring.cachedConsumerPos need = true ∨
      hasCapacity setup.effectiveCapacity ring.producerPos (minimumConsumerPosition setup ring) need = true)

/-- The frame of a claim carries a payload: its header has the size, the bytes lie in the claimed region, and
every look of a receiver that covers the frame lends out the payload. -/
structure Carries (setup : Setup n m) (channel : Channel n m) (producer : Fin n) (reservation : Claim)
    (payload : List UInt8) : Prop where
  length : headerPayloadLen (Circular.loadWord setup.capacity (channel.ring producer).memory reservation.startPos) =
    payload.length
  region : payload.length ≤ reservation.payloadLen
  received : ∀ target visibleBound, sequenceLow target = sequenceLow reservation.sequence →
    reservation.startPos + frameLen payload.length false ≤ visibleBound →
    ∃ message, tryReadFromRing setup channel producer reservation.startPos target visibleBound = some message ∧
      channel.payload setup message = payload

/-- No byte of a ring is written, nothing is claimed and nothing is published. -/
structure Untouched (before after : Channel n m) : Prop where
  memory : ∀ producer, (after.ring producer).memory = (before.ring producer).memory
  producerPos : ∀ producer, (after.ring producer).producerPos = (before.ring producer).producerPos
  publishedPos : ∀ producer, (after.ring producer).publishedPos = (before.ring producer).publishedPos
  visible : ∀ producer, (after.ring producer).visibleProducerPos = (before.ring producer).visibleProducerPos
  pending : ∀ producer, (after.ring producer).pendingCommits = (before.ring producer).pendingCommits
  globalSeq : after.globalSeq = before.globalSeq
  log : after.log = before.log

/-- An offer that succeeds has sent its payload, and an offer that fails has done nothing. -/
structure Exact (setup : Setup n m) (channel : Channel n m) (producer : Fin n) (payload : List UInt8) : Prop where
  sent : (offer setup channel producer payload).1 = .ok true → ∃ reservation,
    (claim setup channel producer (UInt32.ofNat payload.length)).1 = .ok reservation ∧
      Carries setup (offer setup channel producer payload).2 producer reservation payload
  refused : ∀ error, (offer setup channel producer payload).1 = .error error →
    Untouched channel (offer setup channel producer payload).2

variable {setup : Setup n m} {channel : Channel n m} {producer : Fin n} {payload : List UInt8}

theorem toNat_ofNat_length (small : payload.length < 2 ^ 32) : (UInt32.ofNat payload.length).toNat = payload.length :=
  UInt32.toNat_ofNat_of_lt' small

section Claim

variable {payloadLen : UInt32} {reservation : Claim}

/-- A claim is granted when there is room, and takes the frame behind the tail. -/
theorem claim_granted (room : channel.HasRoom setup producer payloadLen) :
    ∃ reservation, (claim setup channel producer payloadLen).1 = .ok reservation ∧
      reservation.startPos = (channel.ring producer).producerPos ∧ reservation.payloadLen = payloadLen.toNat ∧
      reservation.word = metaForSequence reservation.sequence false := by
  obtain ⟨fits, free⟩ := room
  by_cases known : hasCapacity setup.effectiveCapacity (channel.ring producer).producerPos
      (channel.ring producer).cachedConsumerPos (frameLen payloadLen.toNat false) = true
  · simp only [claim, if_neg (Nat.not_lt.mpr fits), if_pos known]
    exact ⟨_, rfl, rfl, rfl, rfl⟩
  · have fresh := free.resolve_left known
    simp only [claim, if_neg (Nat.not_lt.mpr fits), if_neg known, if_pos fresh]
    exact ⟨_, rfl, rfl, rfl, rfl⟩

theorem claim_refused (full : ¬ channel.HasRoom setup producer payloadLen) :
    (∃ error, (claim setup channel producer payloadLen).1 = .error error) ∧
      ((claim setup channel producer payloadLen).2 = channel ∨
        (claim setup channel producer payloadLen).2 =
          channel.backPressured producer (minimumConsumerPosition setup (channel.ring producer))) := by
  by_cases large : setup.capacity < frameLen payloadLen.toNat false
  · simp only [claim, if_pos large]
    exact ⟨⟨_, rfl⟩, .inl trivial⟩
  · have shut (position : Bool) (either : position = true → channel.HasRoom setup producer payloadLen) :
        ¬ position = true := fun open_ => full (either open_)
    have known := shut _ fun known => ⟨Nat.not_lt.mp large, .inl known⟩
    have fresh := shut _ fun fresh => ⟨Nat.not_lt.mp large, .inr fresh⟩
    simp only [claim, if_neg large, if_neg known, if_neg fresh]
    exact ⟨⟨_, rfl⟩, .inr trivial⟩

end Claim

theorem untouched_backPressured (channel : Channel n m) (producer : Fin n) (minimum : Nat) :
    Untouched channel (channel.backPressured producer minimum) := by
  have same {α : Type} (field : ProducerRing m → α)
      (kept : ∀ ring : ProducerRing m, field {ring with
        cachedConsumerPos := minimum, backpressureCount := ring.backpressureCount + 1} = field ring) (other : Fin n) :
      field ((channel.backPressured producer minimum).ring other) = field (channel.ring other) := by
    by_cases equal : other = producer
    · subst equal
      simp only [Channel.backPressured, Channel.setRing, Function.update_self]
      exact kept _
    · simp only [Channel.backPressured, Channel.setRing, Function.update_of_ne equal]
  constructor
  · exact same ProducerRing.memory fun _ => rfl
  · exact same ProducerRing.producerPos fun _ => rfl
  · exact same ProducerRing.publishedPos fun _ => rfl
  · exact same ProducerRing.visibleProducerPos fun _ => rfl
  · exact same ProducerRing.pendingCommits fun _ => rfl
  · rfl
  · rfl

theorem Untouched.refl (channel : Channel n m) : Untouched channel channel :=
  ⟨fun _ => rfl, fun _ => rfl, fun _ => rfl, fun _ => rfl, fun _ => rfl, rfl, rfl⟩

/-- A refused claim ends the offer. -/
theorem exact_of_full (full : ¬ channel.HasRoom setup producer (UInt32.ofNat payload.length)) :
    Exact setup channel producer payload := by
  obtain ⟨⟨error, failed⟩, result⟩ := claim_refused full
  have ends : offer setup channel producer payload =
      (.error error, (claim setup channel producer (UInt32.ofNat payload.length)).2) := by
    unfold offer
    rcases found : claim setup channel producer (UInt32.ofNat payload.length) with ⟨_ | _, _⟩
    · rw [found] at failed
      obtain rfl := Except.error.inj failed
      rfl
    · rw [found] at failed
      cases failed
  constructor
  · intro success
    rw [ends] at success
    cases success
  · intro _ _
    rw [ends]
    rcases result with same | counted
    · rw [same]
      exact .refl channel
    · rw [counted]
      exact untouched_backPressured channel producer _

/-- The memory of a ring after a granted offer. -/
theorem memory_offer {reservation : Claim}
    (granted : (claim setup channel producer (UInt32.ofNat payload.length)).1 = .ok reservation) :
    (offer setup channel producer payload).1 = .ok true ∧
      ((offer setup channel producer payload).2.ring producer).memory =
        Circular.storeWord setup.capacity
          (Circular.write setup.capacity
            ((claim setup channel producer (UInt32.ofNat payload.length)).2.ring producer).memory
            (reservation.startPos + kHeaderSize) payload)
          reservation.startPos (packHeader reservation.payloadLen (reservation.word ||| FLAG_COMMITTED)) := by
  have memory (start stop : Nat) (ring : ProducerRing m) : (publishContiguous start stop ring).memory = ring.memory := by
    unfold publishContiguous
    split
    · rfl
    · split <;> rfl
  unfold offer
  rcases found : claim setup channel producer (UInt32.ofNat payload.length) with ⟨_ | _, claimed⟩
  · rw [found] at granted
    cases granted
  · rw [found] at granted
    obtain rfl := Except.ok.inj granted
    refine ⟨rfl, ?_⟩
    simp only [commit, writePayload, Channel.setRing, Function.update_self, memory, storeHeader]

/-- The header of a granted offer gives the size of 32 bits. -/
theorem header_offer {reservation : Claim} (small : reservation.payloadLen < 2 ^ 32)
    (word : reservation.word = metaForSequence reservation.sequence false)
    (granted : (claim setup channel producer (UInt32.ofNat payload.length)).1 = .ok reservation) :
    Circular.loadWord setup.capacity ((offer setup channel producer payload).2.ring producer).memory
      reservation.startPos = packHeader reservation.payloadLen (frameMeta reservation.sequence false) := by
  have committed : reservation.word ||| FLAG_COMMITTED = frameMeta reservation.sequence false := by
    have plain := claimMeta_committed reservation.sequence false
    simpa [word] using plain
  rw [(memory_offer granted).2, committed]
  exact Circular.loadWord_storeWord _ _ _ setup.eight_le_capacity (packHeader_lt small (frameMeta_lt _ _))

/-- A payload of less than 4 GiB lies in the claimed region. -/
theorem exact_of_small (small : payload.length < 2 ^ 32)
    (room : channel.HasRoom setup producer (UInt32.ofNat payload.length)) : Exact setup channel producer payload := by
  have size := toNat_ofNat_length small
  obtain ⟨reservation, granted, -, length, word⟩ := claim_granted room
  rw [size] at length
  have fits : frameLen payload.length false ≤ setup.capacity := by simpa only [size] using room.1
  have success := (memory_offer granted).1
  have header := header_offer (by omega) word granted
  have inside := payload_inside payload.length false
  simp only [payloadOffset, Bool.false_eq_true, if_false] at inside
  have copied : Circular.read setup.capacity ((offer setup channel producer payload).2.ring producer).memory
      (reservation.startPos + kHeaderSize) payload.length = payload := by
    rw [(memory_offer granted).2, Circular.storeWord, Circular.read_write_apart]
    · exact Circular.read_write_same _ _ _ (by omega)
    · rw [Circular.length_encode]
      exact .of_window le_rfl (by omega)
  constructor
  · intro _
    refine ⟨reservation, granted, ?_, length.ge, ?_⟩
    · rw [header, length]
      exact headerPayloadLen_packHeader small _
    · intro target visibleBound low covered
      have proper := frameLen_pos payload.length false
      refine ⟨⟨producer, reservation.startPos, reservation.startPos + frameLen payload.length false,
        frameMeta reservation.sequence false, target, reservation.startPos + kHeaderSize, payload.length, 0⟩, ?_, copied⟩
      unfold tryReadFromRing
      rw [if_neg (by omega)]
      simp only [header, length, headerPayloadLen_packHeader small, headerMeta_packHeader small,
        sequenceLowFromMeta_frameMeta]
      rw [if_neg (by simpa using low.symm), if_neg (by omega)]
  · intro error failed
    rw [success] at failed
    cases failed

/-- A larger payload is sent with a wrong size. -/
theorem not_exact_of_large (large : 2 ^ 32 ≤ payload.length)
    (room : channel.HasRoom setup producer (UInt32.ofNat payload.length)) :
    ¬ Exact setup channel producer payload := by
  intro exact
  obtain ⟨reservation, granted, -, length, -⟩ := claim_granted room
  obtain ⟨other, same, carries⟩ := exact.sent (memory_offer granted).1
  obtain rfl : reservation = other := Except.ok.inj (granted.symm.trans same)
  have region := carries.region
  have word := (UInt32.ofNat payload.length).toNat_lt
  omega

/-- An offer is exact precisely when its payload is smaller than 4 GiB or there is no room for the size that the
claim gets. -/
theorem offer_exact_iff (setup : Setup n m) (channel : Channel n m) (producer : Fin n) (payload : List UInt8) :
    Exact setup channel producer payload ↔
      payload.length < 2 ^ 32 ∨ ¬ channel.HasRoom setup producer (UInt32.ofNat payload.length) := by
  constructor
  · intro exact
    by_contra both
    push Not at both
    exact not_exact_of_large both.1 both.2 exact
  · intro either
    by_cases room : channel.HasRoom setup producer (UInt32.ofNat payload.length)
    · exact exact_of_small (either.resolve_right (not_not.mpr room)) room
    · exact exact_of_full room

/-- A payload of 4 GiB is sent as an empty message in a ring of one page. -/
theorem large_offer_inexact : let payload := List.replicate (2 ^ 32) (1 : UInt8)
    (offer smallSetup {} 0 payload).1 = .ok true ∧ ¬ Exact smallSetup {} 0 payload := by
  intro payload
  have length : payload.length = 2 ^ 32 := List.length_replicate
  have room : ({} : Channel 1 1).HasRoom smallSetup 0 (UInt32.ofNat payload.length) := by
    rw [length]
    refine ⟨by decide, .inl (by decide)⟩
  obtain ⟨reservation, granted, -⟩ := claim_granted room
  exact ⟨(memory_offer granted).1, not_exact_of_large length.ge room⟩

end Salias.HybridMpsc
