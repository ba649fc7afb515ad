import Salias.Circular.Bytes
import Mathlib.Data.Nat.Bitwise

/-
A frame is a header of eight bytes, an optional deadline of eight bytes, and the payload, which is padded
to the frame alignment. The header word holds the payload length and the metadata.
-/

namespace Salias.Frame

def kHeaderSize : Nat := 8
def kFrameAlign : Nat := 8
def kSequenceLowBits : Nat := 24
def kSequenceLowMask : Nat := 1 <<< kSequenceLowBits - 1

def FLAG_BEGIN : Nat := 1 <<< 0
def FLAG_END : Nat := 1 <<< 1
def FLAG_COMMITTED : Nat := 1 <<< 3
def FLAG_HAS_EXPIRY : Nat := 1 <<< 4

/-- The mask form `(n + 7) & ~7` of the source is this quotient. -/
def alignUp (n : Nat) : Nat := (n + (kFrameAlign - 1)) / kFrameAlign * kFrameAlign

def frameLen (payloadLen : Nat) (hasExpiry : Bool) : Nat :=
  kHeaderSize + (if hasExpiry then 8 else 0) + alignUp payloadLen

/-- The payload starts after the header and the optional deadline. -/
def payloadOffset (hasExpiry : Bool) : Nat := kHeaderSize + if hasExpiry then 8 else 0

def sequenceLow (sequence : Nat) : Nat := sequence &&& kSequenceLowMask

def sequenceLowFromMeta (word : Nat) : Nat := (word >>> 8) &&& kSequenceLowMask

/-- A flag is one bit of the metadata. -/
def hasFlag (word flag : Nat) : Bool := word &&& flag != 0

def encodeSequence (sequence word : Nat) : Nat := (sequenceLow sequence <<< 8) ||| (word &&& 0xFF)

def metaForSequence (sequence : Nat) (committed : Bool) : Nat :=
  encodeSequence sequence
    (if committed then FLAG_BEGIN ||| FLAG_END ||| FLAG_COMMITTED else FLAG_BEGIN ||| FLAG_END)

def packHeader (payloadLen word : Nat) : Nat := payloadLen ||| (word <<< 32)

def headerPayloadLen (header : Nat) : Nat := header % 2 ^ 32

def headerMeta (header : Nat) : Nat := header >>> 32

theorem frameLen_eq (payloadLen : Nat) (hasExpiry : Bool) :
    frameLen payloadLen hasExpiry = payloadOffset hasExpiry + alignUp payloadLen := by
  cases hasExpiry <;> rfl

theorem le_alignUp (n : Nat) : n ≤ alignUp n := by
  simp only [alignUp, kFrameAlign]
  omega

theorem alignUp_lt (n : Nat) : alignUp n < n + 8 := by
  simp only [alignUp, kFrameAlign]
  omega

theorem payloadOffset_cases (hasExpiry : Bool) : payloadOffset hasExpiry = 8 ∨ payloadOffset hasExpiry = 16 := by
  cases hasExpiry
  · exact .inl rfl
  · exact .inr rfl

/-- Every frame holds at least its header. -/
theorem frameLen_ge (payloadLen : Nat) (hasExpiry : Bool) : 8 ≤ frameLen payloadLen hasExpiry := by
  rw [frameLen_eq]
  rcases payloadOffset_cases hasExpiry with offset | offset <;> omega

theorem frameLen_pos (payloadLen : Nat) (hasExpiry : Bool) : 0 < frameLen payloadLen hasExpiry := by
  have := frameLen_ge payloadLen hasExpiry
  omega

/-- Frames keep the alignment of their positions. -/
theorem frameLen_mod (payloadLen : Nat) (hasExpiry : Bool) : frameLen payloadLen hasExpiry % 8 = 0 := by
  rw [frameLen_eq, alignUp, kFrameAlign]
  rcases payloadOffset_cases hasExpiry with offset | offset <;> omega

/-- The payload lies inside its frame. -/
theorem payload_inside (payloadLen : Nat) (hasExpiry : Bool) :
    payloadOffset hasExpiry + payloadLen ≤ frameLen payloadLen hasExpiry := by
  rw [frameLen_eq]
  have := le_alignUp payloadLen
  omega

theorem sequenceLow_eq (sequence : Nat) : sequenceLow sequence = sequence % 2 ^ 24 :=
  Nat.and_two_pow_sub_one_eq_mod sequence 24

theorem sequenceLow_lt (sequence : Nat) : sequenceLow sequence < 2 ^ 24 := by
  rw [sequenceLow_eq]
  exact Nat.mod_lt _ (by decide)

section Meta

variable {sequence flags : Nat}

/-- The metadata word is a sum of its two fields. -/
theorem encodeSequence_eq (sequence : Nat) (small : flags < 256) :
    encodeSequence sequence flags = sequenceLow sequence * 256 + flags := by
  have masked : flags &&& 0xFF = flags := by
    have mod : flags &&& 0xFF = flags % 2 ^ 8 := Nat.and_two_pow_sub_one_eq_mod flags 8
    omega
  rw [encodeSequence, masked, ← Nat.shiftLeft_add_eq_or_of_lt (i := 8) (b := flags) (by omega), Nat.shiftLeft_eq]

/-- The metadata of a frame is its low sequence and its flags. -/
def frameMeta (sequence : Nat) (hasExpiry : Bool) : Nat :=
  sequenceLow sequence * 256 + (11 + if hasExpiry then 16 else 0)

theorem metaForSequence_committed (sequence : Nat) (hasExpiry : Bool) :
    (metaForSequence sequence true ||| if hasExpiry then FLAG_HAS_EXPIRY else 0) =
      frameMeta sequence hasExpiry := by
  have base : metaForSequence sequence true = sequenceLow sequence * 256 + 11 :=
    encodeSequence_eq sequence (show 11 < 256 by decide)
  have split : ∀ low flag : Nat, flag < 256 → low * 256 + 11 ||| flag = low * 256 + (11 ||| flag) := by
    intro low flag small
    have both : 11 ||| flag < 2 ^ 8 := Nat.or_lt_two_pow (by decide) small
    rw [← Nat.shiftLeft_eq low 8, Nat.shiftLeft_add_eq_or_of_lt (by decide), Nat.or_assoc,
      ← Nat.shiftLeft_add_eq_or_of_lt both]
  rw [base, frameMeta]
  cases hasExpiry
  · simp
  · exact split _ 16 (by decide)

end Meta

theorem metaForSequence_lt (sequence : Nat) (committed : Bool) : metaForSequence sequence committed < 2 ^ 32 := by
  have low := sequenceLow_lt sequence
  cases committed
  · have value : metaForSequence sequence false = sequenceLow sequence * 256 + 3 :=
      encodeSequence_eq sequence (show 3 < 256 by decide)
    omega
  · have value : metaForSequence sequence true = sequenceLow sequence * 256 + 11 :=
      encodeSequence_eq sequence (show 11 < 256 by decide)
    omega

/-- The single path sets the flags of the claim one by one. -/
theorem claimMeta_committed (sequence : Nat) (hasExpiry : Bool) :
    (metaForSequence sequence false ||| if hasExpiry then FLAG_HAS_EXPIRY else 0) ||| FLAG_COMMITTED =
      frameMeta sequence hasExpiry := by
  rw [← metaForSequence_committed]
  have base : metaForSequence sequence true = metaForSequence sequence false ||| FLAG_COMMITTED := by
    simp only [metaForSequence, encodeSequence, Nat.or_assoc]
    rfl
  rw [base, Nat.or_assoc, Nat.or_assoc, Nat.or_comm FLAG_COMMITTED]

/-- The expiry flag of a claim is set before its commit. -/
theorem hasExpiry_of_committed (word : Nat) :
    hasFlag (word ||| FLAG_COMMITTED) FLAG_HAS_EXPIRY = hasFlag word FLAG_HAS_EXPIRY := by
  rw [hasFlag, Nat.and_or_distrib_right, hasFlag]
  simp [FLAG_COMMITTED, FLAG_HAS_EXPIRY]

theorem frameMeta_lt (sequence : Nat) (hasExpiry : Bool) : frameMeta sequence hasExpiry < 2 ^ 32 := by
  have low := sequenceLow_lt sequence
  rw [frameMeta]
  split <;> omega

@[simp] theorem sequenceLowFromMeta_frameMeta (sequence : Nat) (hasExpiry : Bool) :
    sequenceLowFromMeta (frameMeta sequence hasExpiry) = sequenceLow sequence := by
  have low := sequenceLow_lt sequence
  have mask : kSequenceLowMask = 2 ^ 24 - 1 := rfl
  rw [sequenceLowFromMeta, mask, Nat.and_two_pow_sub_one_eq_mod, Nat.shiftRight_eq_div_pow, frameMeta]
  split <;> omega

private theorem hasFlag_frameMeta (sequence : Nat) (hasExpiry : Bool) (index : Nat) (below : index < 8) :
    hasFlag (frameMeta sequence hasExpiry) (1 <<< index) =
      Nat.testBit (11 + if hasExpiry then 16 else 0) index := by
  have small : 11 + (if hasExpiry then 16 else 0) < 2 ^ 8 := by split <;> omega
  have shape : frameMeta sequence hasExpiry = 2 ^ 8 * sequenceLow sequence + (11 + if hasExpiry then 16 else 0) := by
    rw [frameMeta]
    omega
  rw [hasFlag, Nat.one_shiftLeft, shape, Nat.and_two_pow, Nat.testBit_two_pow_mul_add _ small, if_pos below]
  cases Nat.testBit (11 + if hasExpiry then 16 else 0) index <;> simp

@[simp] theorem hasExpiry_frameMeta (sequence : Nat) (hasExpiry : Bool) :
    hasFlag (frameMeta sequence hasExpiry) FLAG_HAS_EXPIRY = hasExpiry := by
  rw [FLAG_HAS_EXPIRY, hasFlag_frameMeta _ _ _ (by decide)]
  cases hasExpiry <;> rfl

@[simp] theorem committed_frameMeta (sequence : Nat) (hasExpiry : Bool) :
    hasFlag (frameMeta sequence hasExpiry) FLAG_COMMITTED = true := by
  rw [FLAG_COMMITTED, hasFlag_frameMeta _ _ _ (by decide)]
  cases hasExpiry <;> rfl

theorem packHeader_eq {payloadLen : Nat} (small : payloadLen < 2 ^ 32) (word : Nat) :
    packHeader payloadLen word = word * 2 ^ 32 + payloadLen := by
  rw [packHeader, Nat.or_comm, ← Nat.shiftLeft_add_eq_or_of_lt small, Nat.shiftLeft_eq]

theorem packHeader_lt {payloadLen word : Nat} (small : payloadLen < 2 ^ 32) (fits : word < 2 ^ 32) :
    packHeader payloadLen word < 2 ^ 64 := by
  rw [packHeader_eq small]
  omega

theorem headerPayloadLen_packHeader {payloadLen : Nat} (small : payloadLen < 2 ^ 32) (word : Nat) :
    headerPayloadLen (packHeader payloadLen word) = payloadLen := by
  rw [headerPayloadLen, packHeader_eq small]
  omega

theorem headerMeta_packHeader {payloadLen : Nat} (small : payloadLen < 2 ^ 32) (word : Nat) :
    headerMeta (packHeader payloadLen word) = word := by
  rw [headerMeta, packHeader_eq small, Nat.shiftRight_eq_div_pow]
  omega

end Salias.Frame
