import Salias.Channel.State

/-
A subscriber takes a slot inside the registration gate. The gate admits one live client, and the wait passes
a producer only outside its claim section.
-/

namespace Salias.SharedHybridMpsc

open Concurrent ConsumerRegistration

section Programs

variable {n m : Nat} {K : Type} [DecidableEq K]

/-- The gate is free, or the process of its owner has exited. -/
def State.gateFree (setup : Setup n m K) (state : State n m K) : Bool :=
  match state.registrationGate with
  | none => true
  | some owner => !state.isRegisteredProcessAlive (setup.pid owner) (setup.processStart owner)

def acquireRegistrationGate (setup : Setup n m K) (client : K) : Prog (State n m K) Bool :=
  .modifyGet (State.gateFree setup) fun state =>
    if state.gateFree setup then {state with registrationGate := some client} else state

def releaseRegistrationGate (client : K) : Prog (State n m K) Unit :=
  .store fun state => if state.registrationGate = some client then {state with registrationGate := none} else state

def storeSlot (consumer : Fin m) (change : ConsumerSlot → ConsumerSlot) : Prog (State n m K) Unit :=
  .store fun state => state.setSlot consumer change

def storeCursor (producer : Fin n) (consumer : Fin m) (change : ConsumerSharedState → ConsumerSharedState) :
    Prog (State n m K) Unit :=
  .store fun state => state.setCursor producer consumer change

/-- The state word of a slot moves from the expected token to the next one. -/
def exchangeState (consumer : Fin m) (expected next : Nat) : Prog (State n m K) Bool :=
  .modifyGet (fun state => decide ((state.slot consumer).state = expected)) fun state =>
    if (state.slot consumer).state = expected then
      state.setSlot consumer fun slot => {slot with state := next}
    else state

def clearCursor (consumer : Fin m) (generation : Nat) (producer : Fin n) : Prog (State n m K) Unit := do
  storeCursor producer consumer fun cursor => {cursor with position := 0}
  storeCursor producer consumer fun cursor => {cursor with sequence := 0}
  storeCursor producer consumer fun cursor => {cursor with messageSequence := 0}
  storeCursor producer consumer fun cursor => {cursor with generation := generation}
  storeCursor producer consumer fun cursor => {cursor with leaseStart := kNoLease, leaseStage := .none}
  storeCursor producer consumer fun cursor => {cursor with leaseEnd := 0}
  storeCursor producer consumer fun cursor => {cursor with laggedMessages := 0}
  storeCursor producer consumer fun cursor => {cursor with skippedMessages := 0}

def storeConsumerSequence (consumer : Fin m) (sequence : Nat) : Prog (State n m K) Unit :=
  .store fun state => {state with consumerSequences := Function.update state.consumerSequences consumer sequence}

def clearConsumerCursors (consumer : Fin m) (generation : Nat) : Prog (State n m K) Unit := do
  .forEach (clearCursor consumer generation) (List.finRange n)
  storeConsumerSequence consumer 0

/-- The words of a slot that no subscriber owns any more. -/
def resetSlot (consumer : Fin m) (generation : Nat) : Prog (State n m K) Unit := do
  clearConsumerCursors consumer generation
  storeSlot consumer fun slot => {slot with pid := 0}
  storeSlot consumer fun slot => {slot with deliveryPolicy := .Reliable}
  storeSlot consumer fun slot => {slot with processStart := 0}
  storeSlot consumer fun slot => {slot with state := makeToken generation 0 kFree}

/-- The cursor of the new subscriber starts at the reservation of the producer. -/
def snapshotCursor (setup : Setup n m K) (consumer : Fin m) (generation orderedSequence : Nat) (producer : Fin n) :
    Prog (State n m K) Unit := do
  storeCursor producer consumer fun cursor => {cursor with generation := generation}
  let position ← .load fun state => (state.ring producer).reservationPosition
  let sequence ← (if setup.mode.ordered then pure orderedSequence
    else .load fun state => (state.ring producer).reservationSequence)
  storeCursor producer consumer fun cursor => {cursor with position := position}
  storeCursor producer consumer fun cursor => {cursor with sequence := sequence}
  let messageSequence ← .load fun state => (state.ring producer).reservationMessageSequence
  storeCursor producer consumer fun cursor => {cursor with messageSequence := messageSequence}
  storeCursor producer consumer fun cursor => {cursor with leaseStart := kNoLease, leaseStage := .none}
  storeCursor producer consumer fun cursor => {cursor with leaseEnd := 0}
  storeCursor producer consumer fun cursor => {cursor with laggedMessages := 0}
  storeCursor producer consumer fun cursor => {cursor with skippedMessages := 0}

/-- The slot becomes active; the history of the client starts here. -/
def activateSlot (client : K) (consumer : Fin m) (active : Nat) : Prog (State n m K) Unit :=
  .store fun state =>
    (state.setSlot consumer fun slot => {slot with state := active}).setClient client fun _ =>
      {registration := some (consumer, active)
       registeredAt := fun producer => (state.ring producer).frames.length}

/-- The attempt fails when the state word has moved. -/
def initializeSlot (setup : Setup n m K) (client : K) (policy : SubscriptionPolicy) (consumer : Fin m)
    (observed : Nat) : Prog (State n m K) (Option (Fin m × Nat)) := do
  let next := (generation observed + 1) &&& kGenerationMask
  let exchanged ← exchangeState consumer observed (makeToken next (setup.pid client) kInitializing)
  if exchanged then
    storeSlot consumer fun slot => {slot with pid := setup.pid client}
    storeSlot consumer fun slot => {slot with deliveryPolicy := policy}
    storeSlot consumer fun slot => {slot with processStart := setup.processStart client}
    let orderedSequence ← (if setup.mode.ordered then .load fun state => state.globalSequence else pure 0)
    .forEach (snapshotCursor setup consumer next orderedSequence) (List.finRange n)
    .when setup.mode.ordered (storeConsumerSequence consumer orderedSequence)
    let active := makeToken next (setup.pid client) kActive
    activateSlot client consumer active
    pure (some (consumer, active))
  else
    pure none

/-- One round of the search takes a free slot, or first reclaims the slot of an exited process. -/
def acquireSlotRound (setup : Setup n m K) (client : K) (policy : SubscriptionPolicy) (_ : Unit)
    (consumer : Fin m) : Prog (State n m K) (Unit ⊕ (Fin m × Nat)) := do
  let observed ← .load fun state => (state.slot consumer).state
  if phase observed ≠ kFree then
    let ownerStart ← .load fun state => (state.slot consumer).processStart
    let alive ← .load fun state => state.isRegisteredProcessAlive (processId observed) ownerStart
    if alive then
      pure (.inl ())
    else
      let exchanged ← exchangeState consumer observed
        (makeToken (generation observed) (processId observed) kReclaiming)
      if exchanged then
        resetSlot consumer (generation observed)
        let observed ← .load fun state => (state.slot consumer).state
        let taken ← initializeSlot setup client policy consumer observed
        pure (match taken with | some registration => .inr registration | none => .inl ())
      else
        pure (.inl ())
  else
    let taken ← initializeSlot setup client policy consumer observed
    pure (match taken with | some registration => .inr registration | none => .inl ())

/-- The body of `acquire_consumer` inside the gate; it fails when no slot is free. -/
def acquireConsumer (setup : Setup n m K) (client : K) (policy : SubscriptionPolicy) :
    Prog (State n m K) (Option (Fin m × Nat)) := do
  let searched ← .foldUntil (acquireSlotRound setup client policy) (List.finRange m) ()
  match searched with
  | .inl _ => pure none
  | .inr registration => pure (some registration)

/-- The body of `release_consumer` inside the gate. -/
def releaseConsumer (client : K) (consumer : Fin m) (token : Nat) : Prog (State n m K) Unit := do
  let exchanged ← .modifyGet (fun state : State n m K => decide ((state.slot consumer).state = token)) fun state =>
    if (state.slot consumer).state = token then
      (state.setSlot consumer fun slot =>
        {slot with state := makeToken (generation token) (processId token) kReleasing}).setClient client fun _ => {}
    else state
  if exchanged then
    resetSlot consumer (generation token)

/-- One pass of the loop in `wait_for_claims`. -/
def claimEnded (producer : Fin n) : Prog (State n m K) Bool :=
  .load fun state => !(state.ring producer).claimActive

end Programs
end Salias.SharedHybridMpsc
