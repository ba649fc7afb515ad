import Salias.Frame.Codec

/-
The constants of a channel are fixed when it is created. A setup holds only accepted constants.
-/

namespace Salias.SharedHybridMpsc

open Salias.Frame

inductive Mode where
  | FifoMpsc
  | FifoMpmc
  | OrderedMpsc
  | OrderedMpmc
  | LatestMpmc
  deriving DecidableEq

/-- The ordered modes share one sequence among all rings. -/
def Mode.ordered : Mode → Bool
  | .OrderedMpsc | .OrderedMpmc => true
  | _ => false

def Mode.fanout : Mode → Bool
  | .FifoMpmc | .OrderedMpmc | .LatestMpmc => true
  | _ => false

def Mode.dropOldest : Mode → Bool
  | .LatestMpmc => true
  | _ => false

inductive SubscriptionPolicy where
  | Reliable
  | DropOldest
  deriving DecidableEq

def kMax : Nat := 2 ^ 64 - 1
def kNoLease : Nat := kMax
def kMinPublicationWindow : Nat := 4096
def kMaxProducers : Nat := 16
def kMaxConsumers : Nat := 8

def isPowerOfTwo (value : Nat) : Bool := value != 0 && value &&& (value - 1) == 0

def isValidRingCapacity (pageSize capacity : Nat) : Bool :=
  capacity != 0 && isPowerOfTwo capacity && capacity ≤ kMax / 2 && 0 < pageSize && capacity % pageSize == 0

def isValidPublicationWindow (window capacity : Nat) : Bool :=
  window == 0 || (kMinPublicationWindow ≤ window && window ≤ capacity)

def isValidHighWatermarkPercent (percent : Nat) : Bool := 1 ≤ percent && percent ≤ 100

/-- Other rings may run ahead of the expected sequence by less than one period of the low bits. -/
def sequenceLowWindowFits (numProducers capacityPerProducer : Nat) : Bool :=
  if numProducers == 0 || capacityPerProducer == 0 then false
  else if numProducers == 1 then true
  else
    let framesPerRing := capacityPerProducer / kFrameAlign
    let period := 1 <<< kSequenceLowBits
    framesPerRing != 0 && numProducers - 1 < (period + framesPerRing - 1) / framesPerRing

structure Config where
  mode : Mode
  capacity : Nat
  numProducers : Nat
  numConsumers : Nat
  publicationWindow : Nat
  publicationWindowMessages : Nat
  highWatermarkPercent : Nat

def Config.sequenceDomains (config : Config) : Nat := if config.mode.ordered then config.numProducers else 1

/-- The conditions of `create_named_state` on the numbers of its configuration. -/
def createNamedStateAccepts (pageSize : Nat) (config : Config) : Bool :=
  isValidRingCapacity pageSize config.capacity && config.numProducers != 0 &&
  config.numProducers ≤ kMaxProducers && config.numConsumers != 0 &&
  config.numConsumers ≤ kMaxConsumers && (config.mode.fanout || config.numConsumers == 1) &&
  isValidPublicationWindow config.publicationWindow config.capacity &&
  (!config.mode.dropOldest || (isValidHighWatermarkPercent config.highWatermarkPercent &&
    config.publicationWindow == 0)) &&
  sequenceLowWindowFits config.sequenceDomains config.capacity

/-- The constants of a channel with `n` producers and `m` consumer slots, and the identity of the process
behind each subscriber. The number of producers is not bounded here. -/
structure Setup (n m : Nat) (K : Type) where
  mode : Mode
  capacity : Nat
  publicationWindow : Nat
  publicationWindowMessages : Nat
  highWatermarkPercent : Nat
  pageSize : Nat
  pid : K → UInt32
  processStart : K → Nat
  validCapacity : isValidRingCapacity pageSize capacity = true
  validPublicationWindow : isValidPublicationWindow publicationWindow capacity = true
  validWatermark : mode.dropOldest = true → isValidHighWatermarkPercent highWatermarkPercent = true
  lowWindowFits : sequenceLowWindowFits (if mode.ordered then n else 1) capacity = true
  pageAligned : kFrameAlign ∣ pageSize

namespace Setup

variable {n m : Nat} {K : Type} (setup : Setup n m K)

def effectiveCapacity : Nat :=
  if setup.publicationWindow = 0 then setup.capacity
  else if setup.publicationWindow < setup.capacity then setup.publicationWindow else setup.capacity

/-- `make_shared_control` computes the byte watermark without an overflow. -/
def retentionCapacity : Nat :=
  if setup.mode.dropOldest then
    max 1 (setup.capacity / 100 * setup.highWatermarkPercent +
      setup.capacity % 100 * setup.highWatermarkPercent / 100)
  else 0

end Setup

theorem isPowerOfTwo_iff {value : Nat} (holds : isPowerOfTwo value = true) : ∃ k, value = 2 ^ k := by
  simp only [isPowerOfTwo, Bool.and_eq_true, bne_iff_ne, ne_eq, beq_iff_eq] at holds
  obtain ⟨positive, clear⟩ := holds
  refine ⟨value.log2, ?_⟩
  have low : 2 ^ value.log2 ≤ value := Nat.log2_self_le positive
  have high : value < 2 ^ (value.log2 + 1) := Nat.lt_log2_self
  by_contra larger
  -- the predecessor of a value above the power keeps the top bit
  have top : ∀ other, 2 ^ value.log2 ≤ other → other < 2 ^ (value.log2 + 1) →
      other.testBit value.log2 = true := by
    intro other atLeast below
    rw [Nat.testBit_eq_decide_div_mod_eq]
    have quotient : other / 2 ^ value.log2 = 1 :=
      Nat.div_eq_of_lt_le (by omega) (by rw [pow_succ] at below; omega)
    simp [quotient]
  have bit : (value &&& (value - 1)).testBit value.log2 = true := by
    rw [Nat.testBit_and, top value low high, top (value - 1) (by omega) (by omega)]
    rfl
  rw [clear, Nat.zero_testBit] at bit
  exact absurd bit (by decide)

namespace Setup

variable {n m : Nat} {K : Type} (setup : Setup n m K)

private theorem valid_parts : setup.capacity ≠ 0 ∧ isPowerOfTwo setup.capacity = true ∧
    setup.capacity ≤ kMax / 2 ∧ 0 < setup.pageSize ∧ setup.capacity % setup.pageSize = 0 := by
  have valid := setup.validCapacity
  simp only [isValidRingCapacity, Bool.and_eq_true, bne_iff_ne, ne_eq, decide_eq_true_eq, beq_iff_eq] at valid
  obtain ⟨⟨⟨⟨nonzero, power⟩, bound⟩, page⟩, aligned⟩ := valid
  exact ⟨nonzero, power, bound, page, aligned⟩

theorem capacity_single : isPowerOfTwo setup.capacity = true := setup.valid_parts.2.1

theorem capacity_pow : ∃ k, setup.capacity = 2 ^ k := isPowerOfTwo_iff setup.capacity_single

theorem capacity_pos : 0 < setup.capacity := Nat.pos_of_ne_zero setup.valid_parts.1

theorem capacity_le : setup.capacity ≤ 2 ^ 63 := by
  have bound := setup.valid_parts.2.2.1
  simp only [kMax] at bound
  omega

theorem capacity_aligned : 8 ∣ setup.capacity := by
  have page : setup.pageSize ∣ setup.capacity := Nat.dvd_of_mod_eq_zero setup.valid_parts.2.2.2.2
  exact setup.pageAligned.trans page

theorem eight_le_capacity : 8 ≤ setup.capacity :=
  Nat.le_of_dvd setup.capacity_pos setup.capacity_aligned

theorem effectiveCapacity_le : setup.effectiveCapacity ≤ setup.capacity := by
  unfold effectiveCapacity
  split
  · exact le_rfl
  · split <;> omega

/-- The retained bytes fit in the ring. -/
theorem retentionCapacity_le : setup.retentionCapacity ≤ setup.capacity := by
  unfold retentionCapacity
  split
  · rename_i latest
    have percent := setup.validWatermark latest
    simp only [isValidHighWatermarkPercent, Bool.and_eq_true, decide_eq_true_eq] at percent
    have positive := setup.capacity_pos
    have whole : setup.capacity / 100 * setup.highWatermarkPercent ≤ setup.capacity / 100 * 100 :=
      Nat.mul_le_mul_left _ percent.2
    have part : setup.capacity % 100 * setup.highWatermarkPercent ≤ setup.capacity % 100 * 100 :=
      Nat.mul_le_mul_left _ percent.2
    have fraction : setup.capacity % 100 * setup.highWatermarkPercent / 100 ≤ setup.capacity % 100 := by
      omega
    have split := Nat.div_add_mod setup.capacity 100
    omega
  · exact Nat.zero_le _

end Setup

/-- Every accepted configuration gives a setup, whatever processes subscribe to it. -/
def Setup.ofConfig {K : Type} (pageSize : Nat) (config : Config) (pid : K → UInt32) (processStart : K → Nat)
    (accepted : createNamedStateAccepts pageSize config = true) (pageAligned : kFrameAlign ∣ pageSize) :
    Setup config.numProducers config.numConsumers K where
  mode := config.mode
  capacity := config.capacity
  publicationWindow := config.publicationWindow
  publicationWindowMessages := config.publicationWindowMessages
  highWatermarkPercent := config.highWatermarkPercent
  pageSize := pageSize
  pid := pid
  processStart := processStart
  validCapacity := by
    simp only [createNamedStateAccepts, Bool.and_eq_true] at accepted
    exact accepted.1.1.1.1.1.1.1.1
  validPublicationWindow := by
    simp only [createNamedStateAccepts, Bool.and_eq_true] at accepted
    exact accepted.1.1.2
  validWatermark := by
    simp only [createNamedStateAccepts, Bool.and_eq_true, Bool.or_eq_true, Bool.not_eq_true'] at accepted
    intro latest
    rcases accepted.1.2 with reliable | valid
    · exact absurd latest (by simp [reliable])
    · exact valid.1
  lowWindowFits := by
    simp only [createNamedStateAccepts, Bool.and_eq_true, Config.sequenceDomains] at accepted
    exact accepted.2
  pageAligned := pageAligned

/-- A channel with one ring of one page and one slot. -/
def smallSetup (mode : Mode) (messages : Nat) : Setup 1 1 Unit where
  mode := mode
  capacity := 4096
  publicationWindow := 0
  publicationWindowMessages := messages
  highWatermarkPercent := 50
  pageSize := 4096
  pid _ := 1
  processStart _ := 1
  validCapacity := by decide
  validPublicationWindow := by decide
  validWatermark _ := by decide
  lowWindowFits := by cases mode <;> decide
  pageAligned := by decide

end Salias.SharedHybridMpsc
