import Salias.Channel.Setup
import Salias.Concurrent.RelyGuarantee
import Salias.Registration.Token

/-
The shared words of a channel, the private members of its endpoints, and the history of its frames.
Positions and counters are natural numbers.
-/

namespace Salias.SharedHybridMpsc

open Concurrent Salias.Frame ConsumerRegistration

/-- A lease passes through these stages; only the last one protects its range. -/
inductive LeaseStage where
  | none
  | announced (start : Nat)
  | checked (start floor : Nat)
  | held (start since : Nat)
  deriving DecidableEq

/-- The words of one consumer in one ring. `leaseStage` is history. -/
structure ConsumerSharedState where
  position : Nat := 0
  sequence : Nat := 0
  messageSequence : Nat := 0
  generation : Nat := 0
  leaseStart : Nat := kNoLease
  leaseEnd : Nat := 0
  laggedMessages : Nat := 0
  skippedMessages : Nat := 0
  leaseStage : LeaseStage := .none

structure ConsumerSlot where
  state : Nat := 0
  pid : UInt32 := 0
  deliveryPolicy : SubscriptionPolicy := .Reliable
  processStart : Nat := 0

/-- A claimed frame, as its producer asked for it. -/
structure ClaimedFrame where
  start : Nat
  payloadLen : Nat
  hasExpiry : Bool
  expiresAt : Nat
  sequence : Nat
  deriving DecidableEq

def ClaimedFrame.length (frame : ClaimedFrame) : Nat := frameLen frame.payloadLen frame.hasExpiry

def ClaimedFrame.stop (frame : ClaimedFrame) : Nat := frame.start + frame.length

/-- The words of one ring. `frames`, `committed` and `writes` are history: the claimed frames in claim
order, the payload of each committed frame by its start, and the written ranges, the newest first. -/
structure ProducerRing (m : Nat) where
  visibleProducerPos : Nat := 0
  localSequence : Nat := 0
  reservationPosition : Nat := 0
  reservationSequence : Nat := 0
  reservationMessageSequence : Nat := 0
  claimActive : Bool := false
  retainedPosition : Nat := 0
  retentionIntent : Nat := kNoLease
  retainedMessageSequence : Nat := 0
  consumers : Fin m → ConsumerSharedState := fun _ => {}
  memory : Circular.Bytes := fun _ => 0
  frames : List ClaimedFrame := []
  committed : Nat → Option (List UInt8) := fun _ => none
  writes : List (Nat × Nat) := []

/-- A committed range that does not touch the published position yet. -/
structure CommitSpan where
  start : Nat
  stop : Nat
  deriving DecidableEq

structure Claim where
  startPos : Nat
  payloadLen : Nat
  word : Nat
  sequence : Nat
  expiresAt : Nat
  deriving DecidableEq

structure BatchClaim where
  regionLength : Nat
  startPos : Nat
  frameLength : Nat
  frameCount : Nat
  payloadLen : Nat
  baseSequence : Nat
  hasExpiry : Bool
  expiresAt : Nat
  deriving DecidableEq

inductive Claimed where
  | single (claim : Claim)
  | batch (claim : BatchClaim)
  deriving DecidableEq

def Claim.hasExpiry (claim : Claim) : Bool := hasFlag claim.word FLAG_HAS_EXPIRY

def Claimed.start : Claimed → Nat
  | .single claim => claim.startPos
  | .batch claim => claim.startPos

/-- The claimed bytes, headers included. -/
def Claimed.length : Claimed → Nat
  | .single claim => frameLen claim.payloadLen claim.hasExpiry
  | .batch claim => claim.regionLength

/-- The range that the producer hands out for writing. -/
def Claimed.span : Claimed → Nat × Nat
  | .single claim => (claim.startPos + payloadOffset claim.hasExpiry, claim.payloadLen)
  | .batch claim => (claim.startPos, claim.regionLength)

/-- A claim that is not committed yet. `floor` records the retained position that made room for it. -/
structure Reservation where
  claimed : Claimed
  floor : Nat
  deriving DecidableEq

/-- The members of a transmitter and of its ring object. `reservations` is history. -/
structure Tx where
  producerPos : Nat := 0
  publishedPos : Nat := 0
  cachedConsumerPos : Nat := 0
  cachedConsumerMessageSequence : Nat := 0
  localSequence : Nat := 0
  messageSequence : Nat := 0
  pendingCommits : List CommitSpan := []
  reservations : List Reservation := []

/-- A received message borrows its payload from the ring. -/
structure Message (n : Nat) where
  producerId : Fin n
  position : Nat
  nextPosition : Nat
  word : Nat
  sequence : Nat
  payloadPosition : Nat
  payloadLen : Nat
  expiresAt : Nat
  deriving DecidableEq

/-- A consumer passes a frame in one of two ways. -/
inductive Passage (n : Nat) where
  | delivered (message : Message n) (payload : List UInt8)
  | expired (message : Message n) (now : Nat)

/-- The members of a receiver. -/
structure Rx (n : Nat) where
  lastHitRing : Nat := 0
  readPositions : Fin n → Nat := fun _ => 0
  nextSequences : Fin n → Nat := fun _ => 0
  readMessageSequences : Fin n → Nat := fun _ => 0
  cachedVisiblePos : Fin n → Nat := fun _ => 0
  flushedPositions : Fin n → Nat := fun _ => 0
  activeLeases : Fin n → Bool := fun _ => false
  expiredMessages : Nat := 0
  expectedSequence : Nat := 0

/-- A subscriber and its history: its slot, the frames claimed before its registration, the frames it has
passed since, the messages it borrows, and what was visible when its last receive began. -/
structure Client (n m : Nat) where
  rx : Rx n := {}
  registration : Option (Fin m × Nat) := none
  registeredAt : Fin n → Nat := fun _ => 0
  passed : Fin n → List (Passage n) := fun _ => []
  held : List (Message n) := []
  visibleAtEntry : Fin n → Nat := fun _ => 0

structure State (n m : Nat) (K : Type) where
  ring : Fin n → ProducerRing m := fun _ => {}
  slot : Fin m → ConsumerSlot := fun _ => {}
  consumerSequences : Fin m → Nat := fun _ => 0
  globalSequence : Nat := 0
  registrationGate : Option K := none
  clock : Nat := 0
  alive : UInt32 → Nat → Bool := fun _ _ => true
  tx : Fin n → Tx := fun _ => {}
  client : K → Client n m := fun _ => {}

namespace State

variable {n m : Nat} {K : Type}

/-- A registered process lives when its id and start token still name a running process. -/
def isRegisteredProcessAlive (state : State n m K) (pid : UInt32) (start : Nat) : Bool :=
  pid != 0 && state.alive pid start

def setRing (state : State n m K) (producer : Fin n) (change : ProducerRing m → ProducerRing m) : State n m K :=
  {state with ring := Function.update state.ring producer (change (state.ring producer))}

def setCursor (state : State n m K) (producer : Fin n) (consumer : Fin m)
    (change : ConsumerSharedState → ConsumerSharedState) : State n m K :=
  state.setRing producer fun ring =>
    {ring with consumers := Function.update ring.consumers consumer (change (ring.consumers consumer))}

def setSlot (state : State n m K) (consumer : Fin m) (change : ConsumerSlot → ConsumerSlot) : State n m K :=
  {state with slot := Function.update state.slot consumer (change (state.slot consumer))}

def setTx (state : State n m K) (producer : Fin n) (change : Tx → Tx) : State n m K :=
  {state with tx := Function.update state.tx producer (change (state.tx producer))}

def setClient [DecidableEq K] (state : State n m K) (client : K) (change : Client n m → Client n m) :
    State n m K :=
  {state with client := Function.update state.client client (change (state.client client))}

def setRx [DecidableEq K] (state : State n m K) (client : K) (change : Rx n → Rx n) : State n m K :=
  state.setClient client fun current => {current with rx := change current.rx}

end State

/-- The producer writes bytes to its ring. -/
def ProducerRing.writeBytes {m : Nat} (capacity position : Nat) (data : List UInt8) (ring : ProducerRing m) :
    ProducerRing m :=
  {ring with
    memory := Circular.write capacity ring.memory position data
    writes := (position, data.length) :: ring.writes}

end Salias.SharedHybridMpsc
