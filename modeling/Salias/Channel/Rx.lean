import Salias.Channel.State
import Mathlib.Data.List.Rotate

/-
The programs of a receiver. A receiver belongs to one registration, that is, to a slot and a token. The
private members move with the atomic access before them. Each endless loop of the source is one label: a
pass of the loop is one program.
-/

namespace Salias.SharedHybridMpsc

open Concurrent Salias.Frame ConsumerRegistration

inductive ReceiveError where
  | BadConfig
  | BackPressured
  | Lagged
  deriving DecidableEq

/-- What one look at a ring finds. The deadline check may have read the clock; a failure without an error
ends the receive with nothing. -/
inductive Visit (n : Nat) where
  | nothing (now : Option Nat)
  | skipped (now : Option Nat)
  | found (message : Message n)
  | failed (error : Option ReceiveError)

/-- The rings in the order of a scan that starts after the last hit. -/
def scanOrder (n lastHit : Nat) : List (Fin n) := (List.finRange n).rotate lastHit

/-- The template parameter of the source is the optional fixed payload size. -/
def payloadLength (fixed : Option UInt32) (header : Nat) : Nat :=
  match fixed with
  | some size => size.toNat
  | none => headerPayloadLen header

section Programs

variable {n m : Nat} {K : Type} [DecidableEq K]

def hasConsumer (consumer : Fin m) (token : Nat) : Prog (State n m K) Bool :=
  .load fun state => decide (phase token = kActive ∧ (state.slot consumer).state = token)

def readRx (client : K) : Prog (State n m K) (Rx n) := .load fun state => (state.client client).rx

def updateRx (client : K) (change : Rx n → Rx n) : Prog (State n m K) Unit :=
  .store fun state => state.setRx client change

def loadHeader (setup : Setup n m K) (producer : Fin n) (position : Nat) : Prog (State n m K) Nat :=
  .load fun state => Circular.loadWord setup.capacity (state.ring producer).memory position

/-- The expiry word follows the header. -/
def loadExpiry (setup : Setup n m K) (producer : Fin n) (position : Nat) : Prog (State n m K) Nat :=
  .load fun state => Circular.loadWord setup.capacity (state.ring producer).memory (position + kHeaderSize)

def tryReadFromRing (setup : Setup n m K) (producer : Fin n) (position target visibleBound : Nat)
    (fixed : Option UInt32) : Prog (State n m K) (Option (Message n)) := do
  if visibleBound ≤ position then
    pure none
  else
    let header ← loadHeader setup producer position
    let payloadLen := payloadLength fixed header
    let word := headerMeta header
    if sequenceLowFromMeta word ≠ sequenceLow target then
      pure none
    else
      let hasExpiry := hasFlag word FLAG_HAS_EXPIRY
      let frameSize := frameLen payloadLen hasExpiry
      if setup.capacity < frameSize ∨ visibleBound < position + frameSize then
        pure none
      else
        let expiresAt ← (if hasExpiry then loadExpiry setup producer position else pure 0)
        pure (some ⟨producer, position, position + frameSize, word, target,
          position + payloadOffset hasExpiry, payloadLen, expiresAt⟩)

/-- The clock is read at most once in a receive. -/
def isExpired (message : Message n) (now : Option Nat) : Prog (State n m K) (Bool × Option Nat) := do
  if hasFlag message.word FLAG_HAS_EXPIRY then
    match now with
    | some reading => pure (decide (message.expiresAt ≤ reading), now)
    | none =>
        let reading ← .load fun state => state.clock
        pure (decide (message.expiresAt ≤ reading), some reading)
  else
    pure (false, now)

def hasPendingProgress (rx : Rx n) : Bool :=
  (List.finRange n).any fun producer => rx.readPositions producer != rx.flushedPositions producer

/-- The local cursor moves past a message. -/
def Rx.advance (setup : Setup n m K) (message : Message n) (rx : Rx n) : Rx n :=
  let moved := {rx with
    readPositions := Function.update rx.readPositions message.producerId message.nextPosition
    readMessageSequences := Function.update rx.readMessageSequences message.producerId
      (rx.readMessageSequences message.producerId + 1)}
  if setup.mode.ordered then {moved with expectedSequence := message.sequence + 1}
  else {moved with nextSequences := Function.update rx.nextSequences message.producerId (message.sequence + 1)}

/-- The history of a client records a passage. -/
def Client.pass (producer : Fin n) (passage : Passage n) (client : Client n m) : Client n m :=
  {client with passed := Function.update client.passed producer (client.passed producer ++ [passage])}

/-- The payload that a message lends out at this moment. -/
def State.payload (setup : Setup n m K) (state : State n m K) (message : Message n) : List UInt8 :=
  Circular.read setup.capacity (state.ring message.producerId).memory message.payloadPosition message.payloadLen

/-- The receiver hands a message out; the subscriber borrows its payload. -/
def Client.receive (message : Message n) (payload : List UInt8) (client : Client n m) : Client n m :=
  {client.pass message.producerId (.delivered message payload) with held := client.held ++ [message]}

def consume (setup : Setup n m K) (client : K) (consumer : Fin m) (token : Nat) (message : Message n) :
    Prog (State n m K) Unit := do
  let registered ← hasConsumer consumer token
  if registered then
    updateRx client (Rx.advance setup message)

/-- An expired frame is consumed and counted. -/
def consumeExpired (setup : Setup n m K) (client : K) (consumer : Fin m) (token : Nat) (message : Message n)
    (now : Option Nat) : Prog (State n m K) Unit := do
  let registered ← hasConsumer consumer token
  .store fun state => state.setClient client fun current =>
    let current := if registered then {current with rx := current.rx.advance setup message} else current
    {current.pass message.producerId (.expired message (now.getD 0)) with
      rx := {current.rx with expiredMessages := min kMax (current.rx.expiredMessages + 1)}}

def storeProgress (producer : Fin n) (consumer : Fin m) (change : ConsumerSharedState → ConsumerSharedState) :
    Prog (State n m K) Unit :=
  .store fun state => state.setCursor producer consumer change

def storeExpectedSequence (consumer : Fin m) (sequence : Nat) : Prog (State n m K) Unit :=
  .store fun state => {state with consumerSequences := Function.update state.consumerSequences consumer sequence}

def clearLatestLease (client : K) (consumer : Fin m) (token : Nat) (producer : Fin n) :
    Prog (State n m K) Unit := do
  let registered ← hasConsumer consumer token
  if registered then
    .store fun state =>
      (state.setCursor producer consumer fun cursor =>
        {cursor with leaseStart := kNoLease, leaseStage := .none}).setRx client fun rx =>
          {rx with activeLeases := Function.update rx.activeLeases producer false}

/-- The progress of one ring becomes visible to its producer. -/
def flushRing (setup : Setup n m K) (client : K) (consumer : Fin m) (token : Nat) (producer : Fin n) :
    Prog (State n m K) Unit := do
  let rx ← readRx client
  if rx.readPositions producer = rx.flushedPositions producer then
    pure ()
  else
    storeProgress producer consumer fun cursor => {cursor with position := rx.readPositions producer}
    storeProgress producer consumer fun cursor =>
      {cursor with messageSequence := rx.readMessageSequences producer}
    .when setup.mode.ordered (storeExpectedSequence consumer rx.expectedSequence)
    let sequence := if setup.mode.ordered then rx.expectedSequence else rx.nextSequences producer
    storeProgress producer consumer fun cursor => {cursor with sequence := sequence}
    updateRx client fun rx =>
      {rx with flushedPositions := Function.update rx.flushedPositions producer (rx.readPositions producer)}
    if setup.mode.dropOldest then
      clearLatestLease client consumer token producer

def flushProgress (setup : Setup n m K) (client : K) (consumer : Fin m) (token : Nat) :
    Prog (State n m K) Unit := do
  let registered ← hasConsumer consumer token
  if registered then
    .forEach (flushRing setup client consumer token) (List.finRange n)

/-- The subscriber gives a borrowed message back. -/
def release (setup : Setup n m K) (client : K) (consumer : Fin m) (token : Nat) (message : Message n) :
    Prog (State n m K) Unit := do
  let registered ← hasConsumer consumer token
  if registered then
    let producer := message.producerId
    .store fun state => state.setClient client fun current =>
      {current with
        held := current.held.filter fun other => other != message
        rx := {current.rx with
          readPositions := Function.update current.rx.readPositions producer message.nextPosition
          readMessageSequences := Function.update current.rx.readMessageSequences producer
            (current.rx.readMessageSequences producer + 1)}}
    storeProgress producer consumer fun cursor => {cursor with position := message.nextPosition}
    updateRx client fun rx =>
      {rx with flushedPositions := Function.update rx.flushedPositions producer message.nextPosition}
    let rx ← readRx client
    storeProgress producer consumer fun cursor =>
      {cursor with messageSequence := rx.readMessageSequences producer}
    updateRx client fun rx =>
      if setup.mode.ordered then {rx with expectedSequence := message.sequence + 1}
      else {rx with nextSequences := Function.update rx.nextSequences producer (message.sequence + 1)}
    .when setup.mode.ordered (storeExpectedSequence consumer (message.sequence + 1))
    storeProgress producer consumer fun cursor => {cursor with sequence := message.sequence + 1}
    if setup.mode.dropOldest then
      clearLatestLease client consumer token producer

/-- A batch ends: the subscriber gives all borrowed messages of the flushed rings back. -/
def flushBatch (setup : Setup n m K) (client : K) (consumer : Fin m) (token : Nat) : Prog (State n m K) Unit := do
  .store fun state => state.setClient client fun current =>
    {current with held := current.held.filter fun message =>
      current.rx.readPositions message.producerId == current.rx.flushedPositions message.producerId}
  flushProgress setup client consumer token

def publishFifoPrefixProgress (client : K) (consumer : Fin m) (producer : Fin n)
    (position sequence messageSequence : Nat) : Prog (State n m K) Unit := do
  storeProgress producer consumer fun cursor => {cursor with position := position}
  storeProgress producer consumer fun cursor => {cursor with sequence := sequence}
  storeProgress producer consumer fun cursor => {cursor with messageSequence := messageSequence}
  updateRx client fun rx => {rx with flushedPositions := Function.update rx.flushedPositions producer position}

/-- The cached bound of a ring is read again only at its end; the result tells whether a frame is visible. -/
def refreshVisible (client : K) (producer : Fin n) : Prog (State n m K) Bool := do
  let rx ← readRx client
  if rx.cachedVisiblePos producer ≤ rx.readPositions producer then
    let visible ← .modifyGet (fun state => (state.ring producer).visibleProducerPos) fun state =>
      state.setRx client fun rx => {rx with
        cachedVisiblePos := Function.update rx.cachedVisiblePos producer (state.ring producer).visibleProducerPos}
    pure (decide (rx.readPositions producer < visible))
  else
    pure true

/-- One look at a ring in a reliable mode. -/
def visitRing (setup : Setup n m K) (client : K) (consumer : Fin m) (token : Nat) (fixed : Option UInt32)
    (noPendingAtEntry : Bool) (now : Option Nat) (producer : Fin n) : Prog (State n m K) (Visit n) := do
  let readable ← refreshVisible client producer
  if readable then
    let rx ← readRx client
    let target := if setup.mode.ordered then rx.expectedSequence else rx.nextSequences producer
    let read ← tryReadFromRing setup producer (rx.readPositions producer) target (rx.cachedVisiblePos producer) fixed
    match read with
    | none => pure (.nothing now)
    | some message =>
        let (expired, now) ← isExpired message now
        if expired then
          consumeExpired setup client consumer token message now
          .when noPendingAtEntry (flushProgress setup client consumer token)
          pure (.skipped now)
        else
          .store fun state => state.setClient client fun current =>
            {current.receive message (state.payload setup message) with
              rx := {current.rx with lastHitRing := (producer.val + 1) % n}}
          pure (.found message)
  else
    pure (.nothing now)

/-- The scan stops at the first ring that has more than nothing. -/
def scanRound (visit : Option Nat → Fin n → Prog (State n m K) (Visit n)) (now : Option Nat) (producer : Fin n) :
    Prog (State n m K) (Option Nat ⊕ Visit n) := do
  let visited ← visit now producer
  match visited with
  | .nothing now => pure (.inl now)
  | stop => pure (.inr stop)

/-- The local variables of a receive that is under way. -/
structure Receiving where
  fixed : Option UInt32
  noPendingAtEntry : Bool
  reportLag : Bool
  now : Option Nat

inductive Received (n : Nat) where
  | again (receiving : Receiving)
  | nothing
  | message (message : Message n)
  | error (error : ReceiveError)

def consumerUsesDropOldest (consumer : Fin m) : Prog (State n m K) Bool :=
  .load fun state => decide ((state.slot consumer).deliveryPolicy = .DropOldest)

/-- The entry of `try_recv_payload`; what is visible now enters the history. -/
def beginReceive (client : K) (consumer : Fin m) (token : Nat) (fixed : Option UInt32) (reportLag : Bool) :
    Prog (State n m K) (Received n) := do
  let registered ← hasConsumer consumer token
  if registered then
    let noPending ← .modifyGet (fun state => !hasPendingProgress (state.client client).rx) fun state =>
      state.setClient client fun current =>
        {current with visibleAtEntry := fun producer => (state.ring producer).visibleProducerPos}
    pure (.again ⟨fixed, noPending, reportLag, none⟩)
  else
    pure .nothing

/-- The entry of `try_recv_checked_payload`. -/
def beginReceiveChecked (setup : Setup n m K) (client : K) (consumer : Fin m) (token : Nat)
    (fixed : Option UInt32) : Prog (State n m K) (Received n) := do
  let registered ← hasConsumer consumer token
  if registered then
    let reportLag ← (if setup.mode.dropOldest then consumerUsesDropOldest consumer else pure false)
    beginReceive client consumer token fixed reportLag
  else
    pure (.error .BadConfig)

/-- One pass of `try_recv_payload` in a reliable mode. -/
def receivePass (setup : Setup n m K) (client : K) (consumer : Fin m) (token : Nat) (receiving : Receiving) :
    Prog (State n m K) (Received n) := do
  let rx ← readRx client
  let scanned ← .foldUntil
    (scanRound (visitRing setup client consumer token receiving.fixed receiving.noPendingAtEntry))
    (scanOrder n rx.lastHitRing) receiving.now
  match scanned with
  | .inr (.found message) => pure (.message message)
  | .inr (.skipped now) => pure (.again {receiving with now := now})
  | .inr (.failed error) => pure (error.elim .nothing .error)
  | .inr (.nothing _) => pure .nothing
  | .inl _ =>
      let rx ← readRx client
      .when (receiving.noPendingAtEntry && hasPendingProgress rx) (flushProgress setup client consumer token)
      pure .nothing

/-- The local cursor of a batch receive, and the messages that it has collected. -/
structure Collecting (n : Nat) where
  position : Nat
  sequence : Nat
  advanced : Nat
  expiredPrefix : Nat
  now : Option Nat
  out : List (Message n)

/-- One round of the FIFO batch loop. The messages stay private until the end of the loop. -/
def collectFifoRound (setup : Setup n m K) (client : K) (consumer : Fin m) (producer : Fin n)
    (cap visibleBound initialMessages : Nat) (noPendingAtEntry : Bool) (collecting : Collecting n) :
    Prog (State n m K) (Collecting n ⊕ Collecting n) := do
  if collecting.out.length < cap then
    let read ← tryReadFromRing setup producer collecting.position collecting.sequence visibleBound none
    match read with
    | none => pure (.inr collecting)
    | some message =>
        let (expired, now) ← isExpired message collecting.now
        let moved := {collecting with
          position := message.nextPosition
          sequence := collecting.sequence + 1
          advanced := collecting.advanced + 1
          now := now}
        if expired then
          .store fun state => state.setClient client fun current =>
            {current.pass producer (.expired message (now.getD 0)) with
              rx := {current.rx with expiredMessages := min kMax (current.rx.expiredMessages + 1)}}
          pure (.inl {moved with
            expiredPrefix := if collecting.out.isEmpty then collecting.expiredPrefix + 1
              else collecting.expiredPrefix})
        else
          .when (collecting.out.isEmpty && 0 < collecting.expiredPrefix && noPendingAtEntry)
            (publishFifoPrefixProgress client consumer producer collecting.position collecting.sequence
              (initialMessages + collecting.expiredPrefix))
          .store fun state => state.setClient client fun current =>
            current.receive message (state.payload setup message)
          pure (.inl {moved with out := collecting.out ++ [message]})
  else
    pure (.inr collecting)

/-- The FIFO batch loop over one ring. -/
def collectFifo (setup : Setup n m K) (client : K) (consumer : Fin m) (producer : Fin n) (cap : Nat)
    (noPendingAtEntry : Bool) (now : Option Nat) : Prog (State n m K) (Option Nat × List (Message n)) := do
  let rx ← readRx client
  let bound := rx.cachedVisiblePos producer
  let entry : Collecting n := ⟨rx.readPositions producer, rx.nextSequences producer, 0, 0, now, []⟩
  let collected ← .repeatUntil (collectFifoRound setup client consumer producer cap bound
    (rx.readMessageSequences producer) noPendingAtEntry) (bound - entry.position + 1) entry
  let result := collected.elim id id
  .when (0 < result.advanced)
    (updateRx client fun rx => {rx with
      readPositions := Function.update rx.readPositions producer result.position
      nextSequences := Function.update rx.nextSequences producer result.sequence
      readMessageSequences := Function.update rx.readMessageSequences producer
        (rx.readMessageSequences producer + result.advanced)})
  pure (result.now, result.out)

/-- One round of the ordered batch loop moves the shared cursor frame by frame. -/
def collectOrderedRound (setup : Setup n m K) (client : K) (consumer : Fin m) (token : Nat) (producer : Fin n)
    (cap : Nat) (noPendingAtEntry : Bool) (carried : Option Nat × List (Message n)) :
    Prog (State n m K) ((Option Nat × List (Message n)) ⊕ (Option Nat × List (Message n))) := do
  if carried.2.length < cap then
    let rx ← readRx client
    let read ← tryReadFromRing setup producer (rx.readPositions producer) rx.expectedSequence
      (rx.cachedVisiblePos producer) none
    match read with
    | none => pure (.inr carried)
    | some message =>
        let (expired, now) ← isExpired message carried.1
        if expired then
          consumeExpired setup client consumer token message now
          .when (carried.2.isEmpty && noPendingAtEntry) (flushProgress setup client consumer token)
          pure (.inl (now, carried.2))
        else
          .store fun state => state.setClient client fun current =>
            current.receive message (state.payload setup message)
          consume setup client consumer token message
          pure (.inl (now, carried.2 ++ [message]))
  else
    pure (.inr carried)

/-- The ordered batch loop over one ring. -/
def collectOrdered (setup : Setup n m K) (client : K) (consumer : Fin m) (token : Nat) (producer : Fin n)
    (cap : Nat) (noPendingAtEntry : Bool) (now : Option Nat) :
    Prog (State n m K) (Option Nat × List (Message n)) := do
  let rx ← readRx client
  let collected ← .repeatUntil (collectOrderedRound setup client consumer token producer cap noPendingAtEntry)
    (rx.cachedVisiblePos producer - rx.readPositions producer + 1) (now, [])
  pure (collected.elim id id)

/-- The batch loop over one ring; the result holds the collected messages. -/
def collectRing (setup : Setup n m K) (client : K) (consumer : Fin m) (token : Nat) (cap : Nat)
    (noPendingAtEntry : Bool) (now : Option Nat) (producer : Fin n) :
    Prog (State n m K) (Option Nat ⊕ List (Message n)) := do
  let readable ← refreshVisible client producer
  if readable then
    let (now, out) ← (if setup.mode.ordered then
        collectOrdered setup client consumer token producer cap noPendingAtEntry now
      else
        collectFifo setup client consumer producer cap noPendingAtEntry now)
    if out.isEmpty then
      pure (.inl now)
    else
      updateRx client fun rx => {rx with lastHitRing := (producer.val + 1) % n}
      pure (.inr out)
  else
    pure (.inl now)

/-- `try_recv_run` in a reliable mode. -/
def tryRecvRun (setup : Setup n m K) (client : K) (consumer : Fin m) (token cap : Nat) :
    Prog (State n m K) (List (Message n)) := do
  let registered ← hasConsumer consumer token
  if cap = 0 ∨ !registered then
    pure []
  else
    let rx ← .modifyGet (fun state => (state.client client).rx) fun state =>
      state.setClient client fun current =>
        {current with visibleAtEntry := fun producer => (state.ring producer).visibleProducerPos}
    let noPending := !hasPendingProgress rx
    let scanned ← .foldUntil (collectRing setup client consumer token cap noPending)
      (scanOrder n rx.lastHitRing) none
    match scanned with
    | .inr out => pure out
    | .inl _ =>
        let rx ← readRx client
        .when (noPending && hasPendingProgress rx) (flushProgress setup client consumer token)
        pure []

end Programs
end Salias.SharedHybridMpsc
