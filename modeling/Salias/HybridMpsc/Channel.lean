import Salias.Channel.Contents

/-
The channel inside one process. Each producer owns a ring, every consumer reads all rings, and a call of an
endpoint is one step.
-/

namespace Salias.HybridMpsc

open Salias.Frame
open SharedHybridMpsc (CommitSpan Claim BatchClaim Claimed ClaimedFrame Message FlowError isValidRingCapacity
  sequenceLowWindowFits hasCapacity batchFit claimedFrames notePendingCommit consumePendingContiguous scanOrder)

inductive Order where
  | Fifo
  | Ordered
  deriving DecidableEq

def Order.ordered : Order → Bool
  | .Fifo => false
  | .Ordered => true

/-- The accepted constants of a channel. The window is not checked. -/
structure Setup (n m : Nat) where
  order : Order
  capacity : Nat
  publicationWindow : Nat
  pageSize : Nat
  producers : 0 < n
  consumers : 0 < m
  validCapacity : isValidRingCapacity pageSize capacity = true
  lowWindowFits : sequenceLowWindowFits (if order.ordered then n else 1) capacity = true
  pageAligned : kFrameAlign ∣ pageSize

def Setup.effectiveCapacity {n m : Nat} (setup : Setup n m) : Nat :=
  if setup.publicationWindow = 0 then setup.capacity
  else if setup.publicationWindow < setup.capacity then setup.publicationWindow else setup.capacity

/-- The ring of a producer. `claims` are the claims that are not committed yet, and `committed` is the payload
of each committed frame by its start; both are history. -/
structure ProducerRing (m : Nat) where
  memory : Circular.Bytes := fun _ => 0
  producerPos : Nat := 0
  cachedConsumerPos : Nat := 0
  publishedPos : Nat := 0
  pendingCommits : List CommitSpan := []
  visibleProducerPos : Nat := 0
  consumerPositions : Fin m → Nat := fun _ => 0
  totalWritten : Nat := 0
  backpressureCount : Nat := 0
  claims : List Claimed := []
  committed : Nat → Option (List UInt8) := fun _ => none

/-- The members of a receiver. A new receiver starts every ring at position zero. -/
structure Rx (n : Nat) where
  readPositions : Fin n → Nat := fun _ => 0
  nextSequences : Fin n → Nat := fun _ => 0
  cachedVisiblePos : Fin n → Nat := fun _ => 0
  flushedPositions : Fin n → Nat := fun _ => 0
  expectedSequence : Nat := 0
  lastHitRing : Nat := 0

/-- A consumer and its history: the message that it borrows from each ring, the frames that it has consumed
without a flush, and the frames that it has released. A frame is known by its ring and its position. -/
structure Consumer (n : Nat) where
  rx : Rx n := {}
  lent : Fin n → Option (Message n) := fun _ => none
  unflushed : List (Fin n × Nat) := []
  released : List (Fin n × Nat) := []

/-- `log` is the history of the claimed frames, in claim order. -/
structure Channel (n m : Nat) where
  globalSeq : Nat := 0
  ring : Fin n → ProducerRing m := fun _ => {}
  consumerSequences : Fin m → Nat := fun _ => 0
  consumer : Fin m → Consumer n := fun _ => {}
  log : List (Fin n × ClaimedFrame) := []

variable {n m : Nat}

namespace Channel

def setRing (channel : Channel n m) (producer : Fin n) (change : ProducerRing m → ProducerRing m) : Channel n m :=
  {channel with ring := Function.update channel.ring producer (change (channel.ring producer))}

def setConsumer (channel : Channel n m) (consumer : Fin m) (change : Consumer n → Consumer n) : Channel n m :=
  {channel with consumer := Function.update channel.consumer consumer (change (channel.consumer consumer))}

def setRx (channel : Channel n m) (consumer : Fin m) (change : Rx n → Rx n) : Channel n m :=
  channel.setConsumer consumer fun current => {current with rx := change current.rx}

/-- The progress of a consumer in one ring becomes visible to the producer. -/
def setPosition (channel : Channel n m) (producer : Fin n) (consumer : Fin m) (position : Nat) : Channel n m :=
  channel.setRing producer fun ring =>
    {ring with consumerPositions := Function.update ring.consumerPositions consumer position}

end Channel

section Transmitter

/-- The position of the slowest consumer. -/
def minimumConsumerPosition (setup : Setup n m) (ring : ProducerRing m) : Nat :=
  (List.finRange m).foldl (fun minimum consumer => min minimum (ring.consumerPositions consumer))
    (ring.consumerPositions ⟨0, setup.consumers⟩)

/-- The claimed frames take the next sequences of the channel or of their ring. -/
def Channel.allocate (setup : Setup n m) (channel : Channel n m) (producer : Fin n) (need count payloadLen : Nat)
    (claim : Nat → Claimed) : Channel n m :=
  let ring := channel.ring producer
  let sequence := if setup.order.ordered then channel.globalSeq else ring.totalWritten
  let allocated := channel.setRing producer fun ring =>
    {ring with
      producerPos := ring.producerPos + need * count
      totalWritten := ring.totalWritten + count
      claims := ring.claims ++ [claim sequence]}
  {allocated with
    globalSeq := if setup.order.ordered then channel.globalSeq + count else channel.globalSeq
    log := channel.log ++
      (claimedFrames ring.producerPos need count sequence payloadLen false 0).map fun frame => (producer, frame)}

/-- A claim that finds no room is counted. -/
def Channel.backPressured (channel : Channel n m) (producer : Fin n) (minimum : Nat) : Channel n m :=
  channel.setRing producer fun ring =>
    {ring with cachedConsumerPos := minimum, backpressureCount := ring.backpressureCount + 1}

def claim (setup : Setup n m) (channel : Channel n m) (producer : Fin n) (payloadLen : UInt32) :
    Except FlowError Claim × Channel n m :=
  let ring := channel.ring producer
  let need := frameLen payloadLen.toNat false
  let granted (channel : Channel n m) : Except FlowError Claim × Channel n m :=
    let reserve (sequence : Nat) : Claim :=
      ⟨ring.producerPos, payloadLen.toNat, metaForSequence sequence false, sequence, 0⟩
    let sequence := if setup.order.ordered then channel.globalSeq else ring.totalWritten
    (.ok (reserve sequence),
      channel.allocate setup producer need 1 payloadLen.toNat fun sequence => .single (reserve sequence))
  if setup.capacity < need then (.error .MessageTooLarge, channel)
  else if hasCapacity setup.effectiveCapacity ring.producerPos ring.cachedConsumerPos need then granted channel
  else
    let minimum := minimumConsumerPosition setup ring
    if hasCapacity setup.effectiveCapacity ring.producerPos minimum need then
      granted (channel.setRing producer fun ring => {ring with cachedConsumerPos := minimum})
    else (.error .BackPressured, channel.backPressured producer minimum)

/-- The frame length of a batch claim has 32 bits. -/
def claimBatch (setup : Setup n m) (channel : Channel n m) (producer : Fin n) (payloadLen maxFrames : UInt32) :
    Except FlowError BatchClaim × Channel n m :=
  let ring := channel.ring producer
  let per := frameLen payloadLen.toNat false
  let granted (channel : Channel n m) (fit : Nat) : Except FlowError BatchClaim × Channel n m :=
    let reserve (sequence : Nat) : BatchClaim :=
      ⟨per * fit, ring.producerPos, per % 2 ^ 32, fit, payloadLen.toNat, sequence, false, 0⟩
    let sequence := if setup.order.ordered then channel.globalSeq else ring.totalWritten
    (.ok (reserve sequence),
      channel.allocate setup producer per fit payloadLen.toNat fun sequence => .batch (reserve sequence))
  if maxFrames = 0 then (.error .MessageTooLarge, channel)
  else if setup.capacity < per then (.error .MessageTooLarge, channel)
  else
    let fit := batchFit setup.effectiveCapacity ring.producerPos ring.cachedConsumerPos per maxFrames.toNat
    if fit ≠ 0 then granted channel fit
    else
      let minimum := minimumConsumerPosition setup ring
      let fit := batchFit setup.effectiveCapacity ring.producerPos minimum per maxFrames.toNat
      if fit = 0 then (.error .BackPressured, channel.backPressured producer minimum)
      else granted (channel.setRing producer fun ring => {ring with cachedConsumerPos := minimum}) fit

/-- The producer fills a part of an open claim. -/
def writePayload (setup : Setup n m) (channel : Channel n m) (producer : Fin n) (position : Nat)
    (data : List UInt8) : Channel n m :=
  channel.setRing producer fun ring =>
    {ring with memory := Circular.write setup.capacity ring.memory position data}

/-- The history records the payload that lies in the memory behind the header. -/
def storeHeader (setup : Setup n m) (position payloadLen word : Nat) (ring : ProducerRing m) : ProducerRing m :=
  let memory := Circular.storeWord setup.capacity ring.memory position (packHeader payloadLen word)
  {ring with
    memory := memory
    committed := Function.update ring.committed position
      (some (Circular.read setup.capacity memory (position + kHeaderSize) payloadLen))}

def publishContiguous (start stop : Nat) (ring : ProducerRing m) : ProducerRing m :=
  let closed := {ring with claims := ring.claims.filter fun claimed => claimed.start != start}
  if start = ring.publishedPos then
    let consumed := consumePendingContiguous ring.pendingCommits stop
    {closed with
      pendingCommits := consumed.2
      publishedPos := consumed.1
      visibleProducerPos := consumed.1}
  else if ring.publishedPos < start then
    {closed with pendingCommits := notePendingCommit ring.pendingCommits start stop}
  else closed

def commit (setup : Setup n m) (channel : Channel n m) (producer : Fin n) (claim : Claim) : Channel n m :=
  channel.setRing producer fun ring =>
    publishContiguous claim.startPos (claim.startPos + frameLen claim.payloadLen false)
      (storeHeader setup claim.startPos claim.payloadLen (claim.word ||| FLAG_COMMITTED) ring)

def commitBatch (setup : Setup n m) (channel : Channel n m) (producer : Fin n) (batch : BatchClaim) : Channel n m :=
  if batch.frameCount = 0 then channel
  else
    channel.setRing producer fun ring =>
      publishContiguous batch.startPos (batch.startPos + batch.frameLength * batch.frameCount)
        ((List.range batch.frameCount).foldl (fun ring index =>
          storeHeader setup (batch.startPos + batch.frameLength * index) batch.payloadLen
            (metaForSequence (batch.baseSequence + index) true) ring) ring)

end Transmitter

section Receiver

def tryReadFromRing (setup : Setup n m) (channel : Channel n m) (producer : Fin n)
    (position target visibleBound : Nat) : Option (Message n) :=
  if visibleBound ≤ position then none
  else
    let header := Circular.loadWord setup.capacity (channel.ring producer).memory position
    let payloadLen := headerPayloadLen header
    let word := headerMeta header
    if sequenceLowFromMeta word ≠ sequenceLow target then none
    else
      let nextPosition := position + frameLen payloadLen false
      if setup.capacity < frameLen payloadLen false ∨ visibleBound < nextPosition then none
      else some ⟨producer, position, nextPosition, word, target, position + kHeaderSize, payloadLen, 0⟩

def Rx.target (setup : Setup n m) (rx : Rx n) (producer : Fin n) : Nat :=
  if setup.order.ordered then rx.expectedSequence else rx.nextSequences producer

/-- The visible position is read again when the receiver has reached the one that it knows. -/
def Rx.refresh (channel : Channel n m) (producer : Fin n) (rx : Rx n) : Rx n :=
  if rx.cachedVisiblePos producer ≤ rx.readPositions producer then
    {rx with cachedVisiblePos :=
      Function.update rx.cachedVisiblePos producer (channel.ring producer).visibleProducerPos}
  else rx

def Rx.hit (producer : Fin n) (rx : Rx n) : Rx n := {rx with lastHitRing := (producer.val + 1) % n}

/-- A receive looks at one ring after the other. -/
def receiveScan (setup : Setup n m) (channel : Channel n m) : List (Fin n) → Rx n → Option (Message n) × Rx n
  | [], rx => (none, rx)
  | producer :: rest, rx =>
      let rx := rx.refresh channel producer
      if rx.cachedVisiblePos producer ≤ rx.readPositions producer then receiveScan setup channel rest rx
      else
        match tryReadFromRing setup channel producer (rx.readPositions producer) (rx.target setup producer)
            (rx.cachedVisiblePos producer) with
        | some message => (some message, rx.hit producer)
        | none => receiveScan setup channel rest rx

def tryRecv (setup : Setup n m) (channel : Channel n m) (consumer : Fin m) : Option (Message n) × Channel n m :=
  let rx := (channel.consumer consumer).rx
  let (found, rx) := receiveScan setup channel (scanOrder n rx.lastHitRing) rx
  (found, channel.setConsumer consumer fun current =>
    {current with
      rx := rx
      lent := match found with
        | some message => Function.update current.lent message.producerId (some message)
        | none => current.lent})

/-- A message in its turn moves the receiver. -/
def Rx.inTurn (setup : Setup n m) (message : Message n) (rx : Rx n) : Bool :=
  !(setup.order.ordered && message.sequence != rx.expectedSequence)

def Rx.advance (setup : Setup n m) (message : Message n) (rx : Rx n) : Rx n :=
  let moved := {rx with
    readPositions := Function.update rx.readPositions message.producerId message.nextPosition}
  if setup.order.ordered then {moved with expectedSequence := rx.expectedSequence + 1}
  else {moved with nextSequences := Function.update rx.nextSequences message.producerId (message.sequence + 1)}

def Consumer.consume (setup : Setup n m) (message : Message n) (consumer : Consumer n) : Consumer n :=
  if consumer.rx.inTurn setup message then
    {consumer with
      rx := consumer.rx.advance setup message
      lent := Function.update consumer.lent message.producerId none
      unflushed := consumer.unflushed ++ [(message.producerId, message.position)]}
  else consumer

def consume (setup : Setup n m) (channel : Channel n m) (consumer : Fin m) (message : Message n) : Channel n m :=
  channel.setConsumer consumer fun current => current.consume setup message

/-- The batch in one ring of the unordered channel. -/
def fifoRun (setup : Setup n m) (channel : Channel n m) (producer : Fin n) (visibleBound : Nat) :
    Nat → Nat → Nat → List (Message n)
  | 0, _, _ => []
  | room + 1, position, sequence =>
      match tryReadFromRing setup channel producer position sequence visibleBound with
      | none => []
      | some message => message :: fifoRun setup channel producer visibleBound room message.nextPosition (sequence + 1)

def orderedRun (setup : Setup n m) (channel : Channel n m) (producer : Fin n) :
    Nat → Consumer n → List (Message n) × Consumer n
  | 0, consumer => ([], consumer)
  | room + 1, consumer =>
      match tryReadFromRing setup channel producer (consumer.rx.readPositions producer)
          consumer.rx.expectedSequence (consumer.rx.cachedVisiblePos producer) with
      | none => ([], consumer)
      | some message =>
          let (rest, last) := orderedRun setup channel producer room (consumer.consume setup message)
          (message :: rest, last)

/-- The messages of one ring, and the consumer behind them. The unordered path writes its cursor back once;
this is one consumption after the other. -/
def ringRun (setup : Setup n m) (channel : Channel n m) (producer : Fin n) (room : Nat) (consumer : Consumer n) :
    List (Message n) × Consumer n :=
  if setup.order.ordered then orderedRun setup channel producer room consumer
  else
    let messages := fifoRun setup channel producer (consumer.rx.cachedVisiblePos producer) room
      (consumer.rx.readPositions producer) (consumer.rx.nextSequences producer)
    (messages, messages.foldl (fun consumer message => consumer.consume setup message) consumer)

def runScan (setup : Setup n m) (channel : Channel n m) (room : Nat) :
    List (Fin n) → Consumer n → List (Message n) × Consumer n
  | [], consumer => ([], consumer)
  | producer :: rest, consumer =>
      let consumer := {consumer with rx := consumer.rx.refresh channel producer}
      if consumer.rx.cachedVisiblePos producer ≤ consumer.rx.readPositions producer then
        runScan setup channel room rest consumer
      else
        match ringRun setup channel producer room consumer with
        | ([], consumer) => runScan setup channel room rest consumer
        | (messages, consumer) => (messages, {consumer with rx := consumer.rx.hit producer})

def tryRecvRun (setup : Setup n m) (channel : Channel n m) (consumer : Fin m) (room : UInt32) :
    List (Message n) × Channel n m :=
  if room = 0 then ([], channel)
  else
    let current := channel.consumer consumer
    let (messages, current) := runScan setup channel room.toNat (scanOrder n current.rx.lastHitRing) current
    (messages, channel.setConsumer consumer fun _ => current)

/-- The subscriber gives a borrowed message back. -/
def release (setup : Setup n m) (channel : Channel n m) (consumer : Fin m) (message : Message n) : Channel n m :=
  if (channel.consumer consumer).rx.inTurn setup message then
    let moved := (channel.setPosition message.producerId consumer message.nextPosition).setConsumer consumer
      fun current =>
        let rx := current.rx.advance setup message
        {current with
          rx := {rx with
            flushedPositions := Function.update rx.flushedPositions message.producerId message.nextPosition}
          lent := Function.update current.lent message.producerId none
          released := current.released ++ [(message.producerId, message.position)]}
    if setup.order.ordered then
      {moved with consumerSequences :=
        Function.update moved.consumerSequences consumer (moved.consumer consumer).rx.expectedSequence}
    else moved
  else channel

def flushRing (consumer : Fin m) (channel : Channel n m) (producer : Fin n) : Channel n m :=
  let rx := (channel.consumer consumer).rx
  if rx.readPositions producer = rx.flushedPositions producer then channel
  else
    (channel.setPosition producer consumer (rx.readPositions producer)).setRx consumer fun rx =>
      {rx with flushedPositions := Function.update rx.flushedPositions producer (rx.readPositions producer)}

/-- All consumed frames count as released. -/
def flushProgress (setup : Setup n m) (channel : Channel n m) (consumer : Fin m) : Channel n m :=
  let flushed := ((List.finRange n).foldl (flushRing consumer) channel).setConsumer consumer fun current =>
    {current with released := current.released ++ current.unflushed, unflushed := []}
  if setup.order.ordered then
    {flushed with consumerSequences :=
      Function.update flushed.consumerSequences consumer (flushed.consumer consumer).rx.expectedSequence}
  else flushed

/-- The constructor of a receiver reads the expected sequence and no position. -/
def createRx (channel : Channel n m) (consumer : Fin m) : Channel n m :=
  channel.setRx consumer fun _ => {expectedSequence := channel.consumerSequences consumer}

end Receiver

end Salias.HybridMpsc
