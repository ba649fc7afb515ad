import Salias.Channel.PendingCommits

/-
The programs of a transmitter. Every atomic access of the source is one action; a change to the private
members of the transmitter joins the action before it.
-/

namespace Salias.SharedHybridMpsc

open Concurrent Salias.Frame ConsumerRegistration

inductive FlowError where
  | BackPressured
  | MessageTooLarge
  deriving DecidableEq

/-- A head beyond the tail wraps around to more than any capacity. -/
def hasCapacity (capacity tail head need : Nat) : Bool :=
  head ≤ tail && tail - head ≤ capacity && need ≤ capacity - (tail - head)

def batchFit (capacity tail head frameLength maxFrames : Nat) : Nat :=
  if frameLength = 0 ∨ maxFrames = 0 then 0
  else if tail < head ∨ capacity < tail - head then 0
  else min ((capacity - (tail - head)) / frameLength) maxFrames

/-- The parts of a range before and after the end of the ring. -/
def segments (capacity start length : Nat) : List (Nat × Nat) :=
  let offset := start &&& (capacity - 1)
  let first := min length (capacity - offset)
  [(offset, offset + first), if first < length then (0, length - first) else (0, 0)]

def ringRangesOverlap (firstStart firstLength secondStart secondLength capacity : Nat) : Bool :=
  if firstLength = 0 ∨ secondLength = 0 ∨ capacity < firstLength ∨ capacity < secondLength then false
  else
    (segments capacity firstStart firstLength).any fun left =>
      (segments capacity secondStart secondLength).any fun right =>
        left.1 < left.2 && right.1 < right.2 && left.1 < right.2 && right.1 < left.2

/-- The frames of one claim follow each other. -/
def claimedFrames (tail need count sequence payloadLen : Nat) (hasExpiry : Bool) (expiresAt : Nat) :
    List ClaimedFrame :=
  (List.range count).map fun index =>
    ⟨tail + need * index, payloadLen, hasExpiry, expiresAt, sequence + index⟩

/-- The window of messages leaves no room for another one. -/
def messagesFull (window messageSequence consumed : Nat) : Bool :=
  messageSequence < consumed || window ≤ messageSequence - consumed

section Programs

variable {n m : Nat} {K : Type}

/-- The guard is acquired when the registration gate is open. -/
def claimReservationGuard (producer : Fin n) : Prog (State n m K) Bool :=
  .modifyGet (fun state => state.registrationGate.isNone) fun state =>
    if state.registrationGate.isNone then
      state.setRing producer fun ring => {ring with claimActive := true}
    else state

def endClaimReservation (producer : Fin n) : Prog (State n m K) Unit :=
  .store fun state => state.setRing producer fun ring => {ring with claimActive := false}

def registrationState (consumer : Fin m) : Prog (State n m K) Nat :=
  .load fun state => (state.slot consumer).state

def cursorGeneration (producer : Fin n) (consumer : Fin m) : Prog (State n m K) Nat :=
  .load fun state => ((state.ring producer).consumers consumer).generation

def isProcessAlive (consumer : Fin m) : Prog (State n m K) Bool := do
  let pid ← .load fun state => (state.slot consumer).pid
  let start ← .load fun state => (state.slot consumer).processStart
  .load fun state => state.isRegisteredProcessAlive pid start

/-- One round of the scan skips a consumer, takes its position, or gives up with zero. -/
def minimumPositionRound (setup : Setup n m K) (producer : Fin n) (tail need minimum : Nat) (consumer : Fin m) :
    Prog (State n m K) (Nat ⊕ Nat) := do
  let state ← registrationState consumer
  if phase state ≠ kActive then
    pure (.inl minimum)
  else
    let current ← cursorGeneration producer consumer
    if generation state ≠ current then
      pure (.inr 0)
    else
      let position ← .load fun state => ((state.ring producer).consumers consumer).position
      let alive ← (if hasCapacity setup.effectiveCapacity tail position need then pure true
        else isProcessAlive consumer)
      let again ← registrationState consumer
      if again ≠ state then
        pure (.inr 0)
      else
        pure (.inl (if alive then min minimum position else minimum))

def minimumConsumerPosition (setup : Setup n m K) (producer : Fin n) (tail need : Nat) :
    Prog (State n m K) Nat := do
  let scanned ← .foldUntil (minimumPositionRound setup producer tail need) (List.finRange m) kMax
  match scanned with
  | .inl minimum => pure (if minimum = kMax then 0 else minimum)
  | .inr stopped => pure stopped

def minimumMessageRound (setup : Setup n m K) (producer : Fin n) (minimum : Option Nat) (consumer : Fin m) :
    Prog (State n m K) (Option Nat ⊕ Nat) := do
  let state ← registrationState consumer
  if phase state ≠ kActive then
    pure (.inl minimum)
  else
    let current ← cursorGeneration producer consumer
    if generation state ≠ current then
      pure (.inr 0)
    else
      let sequence ← .load fun state => ((state.ring producer).consumers consumer).messageSequence
      let messageSequence ← .load fun state => (state.tx producer).messageSequence
      let window := setup.publicationWindowMessages
      let blocked := messageSequence < sequence || (window != 0 && window ≤ messageSequence - sequence)
      let alive ← (if blocked then isProcessAlive consumer else pure true)
      let again ← registrationState consumer
      if again ≠ state then
        pure (.inr 0)
      else
        pure (.inl (if alive then some (min (minimum.getD kMax) sequence) else minimum))

def minimumConsumerMessageSequence (setup : Setup n m K) (producer : Fin n) : Prog (State n m K) Nat := do
  let scanned ← .foldUntil (minimumMessageRound setup producer) (List.finRange m) none
  match scanned with
  | .inl minimum => pure (minimum.getD 0)
  | .inr stopped => pure stopped

/-- A reliable consumer behind the new floor refuses it while its process lives. -/
def allowRetentionRound (producer : Fin n) (retained retainedMessages : Nat) (checkPosition checkMessages : Bool)
    (_ : Unit) (consumer : Fin m) : Prog (State n m K) (Unit ⊕ Bool) := do
  let state ← registrationState consumer
  let policy ← .load fun state => (state.slot consumer).deliveryPolicy
  if phase state ≠ kActive ∨ policy = .DropOldest then
    pure (.inl ())
  else
    let current ← cursorGeneration producer consumer
    if generation state ≠ current then
      pure (.inr false)
    else
      let behind ← (if checkPosition then
          .load fun state => decide (((state.ring producer).consumers consumer).position < retained)
        else pure false)
      let blocked ← (if behind then pure true
        else if checkMessages then
          .load fun state => decide (((state.ring producer).consumers consumer).messageSequence < retainedMessages)
        else pure false)
      let alive ← (if blocked then isProcessAlive consumer else pure true)
      let again ← registrationState consumer
      if again ≠ state ∨ (blocked && alive) then
        pure (.inr false)
      else
        pure (.inl ())

def reliableConsumersAllowRetention (producer : Fin n) (retained retainedMessages : Nat)
    (checkPosition checkMessages : Bool) : Prog (State n m K) Bool := do
  let scanned ← .foldUntil (allowRetentionRound producer retained retainedMessages checkPosition checkMessages)
    (List.finRange m) ()
  match scanned with
  | .inl _ => pure true
  | .inr stopped => pure stopped

/-- The claim would keep more bytes or more messages than the retention allows. -/
def overRetention (setup : Setup n m K) (projectedTail projectedMessages retained retainedMessages : Nat) : Bool :=
  setup.retentionCapacity < projectedTail - retained ||
    (setup.publicationWindowMessages != 0 &&
      setup.publicationWindowMessages < projectedMessages - retainedMessages)

/-- One round of the walk drops the oldest published frame. -/
def evictionRound (setup : Setup n m K) (producer : Fin n) (projectedTail projectedMessages published : Nat)
    (floor : Nat × Nat) : Prog (State n m K) ((Nat × Nat) ⊕ Option (Nat × Nat)) := do
  if overRetention setup projectedTail projectedMessages floor.1 floor.2 && floor.1 < published then
    let header ← .load fun state => Circular.loadWord setup.capacity (state.ring producer).memory floor.1
    let word := headerMeta header
    let oldest := frameLen (headerPayloadLen header) (hasFlag word FLAG_HAS_EXPIRY)
    if hasFlag word FLAG_COMMITTED = false ∨ setup.capacity < oldest ∨ published - floor.1 < oldest then
      pure (.inr none)
    else
      pure (.inl (floor.1 + oldest, floor.2 + 1))
  else
    pure (.inr (some floor))

/-- A live lease that the write would touch refuses it; a lease of a dead process is cleared. -/
def leaseRound (setup : Setup n m K) (producer : Fin n) (tail writeLength : Nat) (_ : Unit) (consumer : Fin m) :
    Prog (State n m K) (Unit ⊕ Bool) := do
  let leaseStart ← .load fun state => ((state.ring producer).consumers consumer).leaseStart
  if leaseStart = kNoLease then
    pure (.inl ())
  else
    let leaseEnd ← .load fun state => ((state.ring producer).consumers consumer).leaseEnd
    if leaseEnd < leaseStart ∨ setup.capacity < leaseEnd - leaseStart then
      pure (.inr false)
    else if ringRangesOverlap tail writeLength leaseStart (leaseEnd - leaseStart) setup.capacity = false then
      pure (.inl ())
    else
      let state ← registrationState consumer
      let current ← cursorGeneration producer consumer
      if phase state ≠ kActive ∨ generation state ≠ current then
        pure (.inr false)
      else
        let alive ← isProcessAlive consumer
        let again ← registrationState consumer
        if again ≠ state ∨ alive then
          pure (.inr false)
        else
          .store fun state => state.setCursor producer consumer fun cursor =>
            {cursor with leaseStart := kNoLease, leaseStage := .none}
          pure (.inl ())

def setRetentionIntent (producer : Fin n) (intent : Nat) : Prog (State n m K) Unit :=
  .store fun state => state.setRing producer fun ring => {ring with retentionIntent := intent}

/-- The announced write scans the leases, moves the floor, and withdraws its announcement. -/
def announceAndEvict (setup : Setup n m K) (producer : Fin n) (tail writeLength : Nat)
    (previous floor : Nat × Nat) : Prog (State n m K) Bool := do
  setRetentionIntent producer floor.1
  let scanned ← .foldUntil (leaseRound setup producer tail writeLength) (List.finRange m) ()
  match scanned with
  | .inr _ =>
      setRetentionIntent producer kNoLease
      pure false
  | .inl _ =>
      .when (floor.1 ≠ previous.1)
        (.store fun state => state.setRing producer fun ring => {ring with retainedPosition := floor.1})
      .when (floor.2 ≠ previous.2)
        (.store fun state => state.setRing producer fun ring => {ring with retainedMessageSequence := floor.2})
      setRetentionIntent producer kNoLease
      pure true

def prepareDropOldestWrite (setup : Setup n m K) (producer : Fin n) (tail writeLength writeCount : Nat) :
    Prog (State n m K) Bool := do
  let window := setup.publicationWindowMessages
  if setup.retentionCapacity = 0 ∨ setup.capacity < writeLength ∨ (window ≠ 0 ∧ window < writeCount) then
    pure false
  else
    let retained ← .load fun state => (state.ring producer).retainedPosition
    let retainedMessages ← .load fun state => (state.ring producer).retainedMessageSequence
    let tx ← .load fun state => state.tx producer
    if tx.publishedPos < retained ∨ tail < retained ∨ kMax - writeLength < tail ∨
        kMax - writeCount < tx.messageSequence ∨ tx.messageSequence < retainedMessages ∨
        setup.retentionCapacity < writeLength then
      pure false
    else
      let projectedTail := tail + writeLength
      let projectedMessages := tx.messageSequence + writeCount
      let walked ← .repeatUntil
        (evictionRound setup producer projectedTail projectedMessages tx.publishedPos)
        (tx.publishedPos - retained + 1) (retained, retainedMessages)
      match walked with
      | .inr (some floor) =>
          if overRetention setup projectedTail projectedMessages floor.1 floor.2 then
            pure false
          else
            let checkPosition := decide (retained < floor.1)
            let checkMessages := window != 0 && decide (retainedMessages < floor.2)
            let allowed ← (if checkPosition || checkMessages then
                reliableConsumersAllowRetention producer floor.1 floor.2 checkPosition checkMessages
              else pure true)
            if allowed then
              announceAndEvict setup producer tail writeLength (retained, retainedMessages) floor
            else
              pure false
      | _ => pure false

/-- The longest prefix of a batch that may be written lies between `low` and `high`. -/
def longestPrefixRound (setup : Setup n m K) (producer : Fin n) (tail per : Nat) (bounds : Nat × Nat) :
    Prog (State n m K) ((Nat × Nat) ⊕ Nat) := do
  if 1 < bounds.2 - bounds.1 then
    let middle := bounds.1 + (bounds.2 - bounds.1) / 2
    let prepared ← prepareDropOldestWrite setup producer tail (per * middle) middle
    if prepared then
      pure (.inl (middle, bounds.2))
    else
      pure (.inl (bounds.1, middle))
  else
    pure (.inr bounds.1)

/-- The number of frames of a batch that the retention grants. -/
def latestFit (setup : Setup n m K) (producer : Fin n) (tail per maxFrames : Nat) : Prog (State n m K) Nat := do
  let window := setup.publicationWindowMessages
  let fit := min maxFrames (setup.retentionCapacity / per)
  let fit := if window ≠ 0 then min fit window else fit
  let prepared ← prepareDropOldestWrite setup producer tail (per * fit) fit
  if prepared then
    pure fit
  else
    let searched ← .repeatUntil (longestPrefixRound setup producer tail per) (fit + 1) (0, fit)
    match searched with
    | .inl bounds => pure bounds.1
    | .inr found => pure found

def setCachedConsumerPos (producer : Fin n) (position : Nat) : Prog (State n m K) Unit :=
  .store fun state => state.setTx producer fun tx => {tx with cachedConsumerPos := position}

def setCachedConsumerMessageSequence (producer : Fin n) (sequence : Nat) : Prog (State n m K) Unit :=
  .store fun state => state.setTx producer fun tx => {tx with cachedConsumerMessageSequence := sequence}

/-- The bytes for one frame are free, on the cached position or on a fresh one. -/
def reserveBytes (setup : Setup n m K) (producer : Fin n) (tail need : Nat) : Prog (State n m K) Bool := do
  let cached ← .load fun state => (state.tx producer).cachedConsumerPos
  if hasCapacity setup.effectiveCapacity tail cached need then
    pure true
  else
    let minimum ← minimumConsumerPosition setup producer tail need
    setCachedConsumerPos producer minimum
    pure (hasCapacity setup.effectiveCapacity tail minimum need)

/-- The window of messages has room, on the cached count or on a fresh one. -/
def reserveMessage (setup : Setup n m K) (producer : Fin n) : Prog (State n m K) Bool := do
  let window := setup.publicationWindowMessages
  if window = 0 then
    pure true
  else
    let tx ← .load fun state => state.tx producer
    if messagesFull window tx.messageSequence tx.cachedConsumerMessageSequence then
      let minimum ← minimumConsumerMessageSequence setup producer
      setCachedConsumerMessageSequence producer minimum
      pure (!messagesFull window tx.messageSequence minimum)
    else
      pure true

/-- The number of frames of a batch that the free bytes hold. -/
def batchBytes (setup : Setup n m K) (producer : Fin n) (tail per maxFrames : Nat) : Prog (State n m K) Nat := do
  let cached ← .load fun state => (state.tx producer).cachedConsumerPos
  let fit := batchFit setup.effectiveCapacity tail cached per maxFrames
  if fit = 0 then
    let minimum ← minimumConsumerPosition setup producer tail per
    setCachedConsumerPos producer minimum
    pure (batchFit setup.effectiveCapacity tail minimum per maxFrames)
  else
    pure fit

def fitMessages (window messageSequence consumed fit : Nat) : Nat :=
  if messagesFull window messageSequence consumed then 0 else min fit (window - (messageSequence - consumed))

/-- The number of frames of a batch that the window of messages admits. -/
def batchMessages (setup : Setup n m K) (producer : Fin n) (fit : Nat) : Prog (State n m K) Nat := do
  let window := setup.publicationWindowMessages
  if window = 0 then
    pure fit
  else
    let tx ← .load fun state => state.tx producer
    let allowed := fitMessages window tx.messageSequence tx.cachedConsumerMessageSequence fit
    if allowed = 0 then
      let minimum ← minimumConsumerMessageSequence setup producer
      setCachedConsumerMessageSequence producer minimum
      pure (fitMessages window tx.messageSequence minimum fit)
    else
      pure allowed

/-- The next sequence of the domain that the mode uses. -/
def State.nextSequence (setup : Setup n m K) (producer : Fin n) (state : State n m K) : Nat :=
  if setup.mode.ordered then state.globalSequence else (state.tx producer).localSequence

/-- The claim takes its sequences and moves the private tail; its frames enter the history. -/
def State.allocate (setup : Setup n m K) (producer : Fin n) (tail need count payloadLen : Nat) (hasExpiry : Bool)
    (expiresAt : Nat) (claimed : Nat → Claimed) (state : State n m K) : State n m K :=
  let sequence := state.nextSequence setup producer
  let numbered := if setup.mode.ordered then {state with globalSequence := state.globalSequence + count}
    else (state.setRing producer fun ring => {ring with localSequence := sequence + count}).setTx producer
      fun tx => {tx with localSequence := sequence + count}
  (numbered.setRing producer fun ring =>
    {ring with frames := ring.frames ++ claimedFrames tail need count sequence payloadLen hasExpiry expiresAt}).setTx
      producer fun tx => {tx with
        producerPos := tail + need * count
        messageSequence := tx.messageSequence + count
        reservations := tx.reservations ++ [⟨claimed sequence, (state.ring producer).retainedPosition⟩]}

def publishReservation (producer : Fin n) (sequence : Nat) : Prog (State n m K) Unit := do
  .store fun state => state.setRing producer fun ring =>
    {ring with reservationPosition := (state.tx producer).producerPos}
  .store fun state => state.setRing producer fun ring => {ring with reservationSequence := sequence}
  .store fun state => state.setRing producer fun ring =>
    {ring with reservationMessageSequence := (state.tx producer).messageSequence}

def claimMeta (sequence : Nat) (hasExpiry : Bool) : Nat :=
  metaForSequence sequence false ||| if hasExpiry then FLAG_HAS_EXPIRY else 0

/-- The flow control of a single claim: evict in the latest mode, wait for the consumers in the others. -/
def claimRoom (setup : Setup n m K) (producer : Fin n) (tail need : Nat) :
    Prog (State n m K) (Except FlowError Unit) := do
  if setup.mode.dropOldest then
    if setup.retentionCapacity < need then
      pure (.error .MessageTooLarge)
    else
      let prepared ← prepareDropOldestWrite setup producer tail need 1
      pure (if prepared then .ok () else .error .BackPressured)
  else
    let bytes ← reserveBytes setup producer tail need
    if bytes then
      let message ← reserveMessage setup producer
      pure (if message then .ok () else .error .BackPressured)
    else
      pure (.error .BackPressured)

/-- The body of `claim` inside its guard. -/
def claimGuarded (setup : Setup n m K) (producer : Fin n) (payloadLen : UInt32) (expiresAt : UInt64)
    (hasExpiry : Bool) : Prog (State n m K) (Except FlowError Claim) := do
  let need := frameLen payloadLen.toNat hasExpiry
  let tail ← .load fun state => (state.tx producer).producerPos
  let room ← claimRoom setup producer tail need
  match room with
  | .error error => pure (.error error)
  | .ok () =>
      let claim sequence : Claim :=
        ⟨tail, payloadLen.toNat, claimMeta sequence hasExpiry, sequence, expiresAt.toNat⟩
      let sequence ← .modifyGet (State.nextSequence setup producer) (State.allocate setup producer tail need 1
        payloadLen.toNat hasExpiry expiresAt.toNat fun sequence => .single (claim sequence))
      publishReservation producer (sequence + 1)
      pure (.ok (claim sequence))

def claim (setup : Setup n m K) (producer : Fin n) (payloadLen : UInt32) (expiresAt : UInt64)
    (hasExpiry : Bool) : Prog (State n m K) (Except FlowError Claim) := do
  if m = 0 then
    pure (.error .MessageTooLarge)
  else
    let acquired ← claimReservationGuard producer
    if acquired then
      let result ← (if setup.capacity < frameLen payloadLen.toNat hasExpiry then
          pure (.error FlowError.MessageTooLarge)
        else claimGuarded setup producer payloadLen expiresAt hasExpiry)
      endClaimReservation producer
      pure result
    else
      pure (.error .BackPressured)

/-- The flow control of a batch: the number of frames that it may hold. -/
def batchRoom (setup : Setup n m K) (producer : Fin n) (tail per maxFrames : Nat) :
    Prog (State n m K) (Except FlowError Nat) := do
  if setup.mode.dropOldest then
    if setup.retentionCapacity < per then
      pure (.error .MessageTooLarge)
    else
      let fit ← latestFit setup producer tail per maxFrames
      pure (if fit = 0 then .error .BackPressured else .ok fit)
  else
    let fit ← batchBytes setup producer tail per maxFrames
    if fit = 0 then
      pure (.error .BackPressured)
    else
      let allowed ← batchMessages setup producer fit
      pure (if allowed = 0 then .error .BackPressured else .ok allowed)

/-- The body of `claim_batch` inside its guard. The frame length of the claim is cut to 32 bits. -/
def claimBatchGuarded (setup : Setup n m K) (producer : Fin n) (payloadLen maxFrames : UInt32)
    (expiresAt : UInt64) (hasExpiry : Bool) : Prog (State n m K) (Except FlowError BatchClaim) := do
  let per := frameLen payloadLen.toNat hasExpiry
  let tail ← .load fun state => (state.tx producer).producerPos
  let room ← batchRoom setup producer tail per maxFrames.toNat
  match room with
  | .error error => pure (.error error)
  | .ok fit =>
      let batch sequence : BatchClaim :=
        ⟨per * fit, tail, per % 2 ^ 32, fit, payloadLen.toNat, sequence, hasExpiry, expiresAt.toNat⟩
      let sequence ← .modifyGet (State.nextSequence setup producer) (State.allocate setup producer tail per fit
        payloadLen.toNat hasExpiry expiresAt.toNat fun sequence => .batch (batch sequence))
      publishReservation producer (sequence + fit)
      pure (.ok (batch sequence))

def claimBatch (setup : Setup n m K) (producer : Fin n) (payloadLen maxFrames : UInt32) (expiresAt : UInt64)
    (hasExpiry : Bool) : Prog (State n m K) (Except FlowError BatchClaim) := do
  if maxFrames = 0 ∨ m = 0 then
    pure (.error .MessageTooLarge)
  else
    let acquired ← claimReservationGuard producer
    if acquired then
      let result ← (if setup.capacity < frameLen payloadLen.toNat hasExpiry then
          pure (.error FlowError.MessageTooLarge)
        else claimBatchGuarded setup producer payloadLen maxFrames expiresAt hasExpiry)
      endClaimReservation producer
      pure result
    else
      pure (.error .BackPressured)

/-- The user writes payload bytes through the span of a claim. -/
def writePayload (setup : Setup n m K) (producer : Fin n) (claimed : Claimed) (offset : Nat) (data : List UInt8) :
    Prog (State n m K) Unit :=
  .store fun state =>
    if offset + data.length ≤ claimed.span.2 then
      state.setRing producer (.writeBytes setup.capacity (claimed.span.1 + offset) data)
    else state

def storeExpiry (setup : Setup n m K) (producer : Fin n) (position expiresAt : Nat) : Prog (State n m K) Unit :=
  .store fun state => state.setRing producer
    (.writeBytes setup.capacity (position + kHeaderSize) (Circular.encode 8 expiresAt))

/-- The header store commits the frame at `frameStart`: its payload enters the history. -/
def storeHeader (setup : Setup n m K) (producer : Fin n) (position payloadLen word frameStart : Nat)
    (hasExpiry : Bool) : Prog (State n m K) Unit :=
  .store fun state => state.setRing producer fun ring =>
    let written := ring.writeBytes setup.capacity position (Circular.encode 8 (packHeader payloadLen word))
    {written with
      committed := Function.update ring.committed frameStart
        (some (Circular.read setup.capacity written.memory (frameStart + payloadOffset hasExpiry) payloadLen))}

/-- A commit that touches the published position publishes the contiguous prefix; another one waits. The
reservation of the commit ends. -/
def publishContiguous (producer : Fin n) (start stop : Nat) : Prog (State n m K) Unit :=
  .store fun state =>
    let tx := state.tx producer
    let reservations := tx.reservations.filter fun reservation => reservation.claimed.start != start
    if start = tx.publishedPos then
      let consumed := consumePendingContiguous tx.pendingCommits stop
      (state.setRing producer fun ring => {ring with visibleProducerPos := consumed.1}).setTx producer fun tx =>
        {tx with publishedPos := consumed.1, pendingCommits := consumed.2, reservations := reservations}
    else if tx.publishedPos < start then
      state.setTx producer fun tx =>
        {tx with pendingCommits := notePendingCommit tx.pendingCommits start stop, reservations := reservations}
    else state

def commit (setup : Setup n m K) (producer : Fin n) (claim : Claim) : Prog (State n m K) Unit := do
  .when claim.hasExpiry (storeExpiry setup producer claim.startPos claim.expiresAt)
  storeHeader setup producer claim.startPos claim.payloadLen (claim.word ||| FLAG_COMMITTED) claim.startPos
    claim.hasExpiry
  publishContiguous producer claim.startPos (claim.startPos + frameLen claim.payloadLen claim.hasExpiry)

/-- One round stores the header of one frame at its distance under the cut frame length. -/
def commitRound (setup : Setup n m K) (producer : Fin n) (batch : BatchClaim) (index : Nat) :
    Prog (State n m K) Unit := do
  let position := batch.startPos + batch.frameLength * index
  let word := metaForSequence (batch.baseSequence + index) true ||| if batch.hasExpiry then FLAG_HAS_EXPIRY else 0
  .when batch.hasExpiry (storeExpiry setup producer position batch.expiresAt)
  storeHeader setup producer position batch.payloadLen word
    (batch.startPos + frameLen batch.payloadLen batch.hasExpiry * index) batch.hasExpiry

def commitBatch (setup : Setup n m K) (producer : Fin n) (batch : BatchClaim) : Prog (State n m K) Unit := do
  if batch.frameCount = 0 then
    pure ()
  else
    .forEach (commitRound setup producer batch) (List.range batch.frameCount)
    publishContiguous producer batch.startPos (batch.startPos + batch.frameLength * batch.frameCount)

/-- The constructor reads the shared positions back; claims and waiting spans of the old object are lost. -/
def createTx (setup : Setup n m K) (producer : Fin n) : Prog (State n m K) Unit := do
  let position ← .load fun state => (state.ring producer).reservationPosition
  let published ← .load fun state => (state.ring producer).visibleProducerPos
  .store fun state => state.setTx producer fun tx =>
    {tx with
      producerPos := position
      publishedPos := published
      cachedConsumerPos := 0
      cachedConsumerMessageSequence := 0
      messageSequence := (state.ring producer).reservationMessageSequence
      pendingCommits := []
      reservations := []}
  if setup.mode.dropOldest = false ∧ setup.publicationWindowMessages ≠ 0 then
    let minimum ← minimumConsumerMessageSequence setup producer
    setCachedConsumerMessageSequence producer minimum

end Programs
end Salias.SharedHybridMpsc
