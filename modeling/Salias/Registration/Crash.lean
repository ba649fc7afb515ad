import Salias.Channel.Setup
import Salias.Concurrent.RelyGuarantee
import Salias.Registration.Token

/-
The registration words of a channel whose processes may exit after every atomic step: the gate with the start
token of its owner, the slots with their tickets, the cursors, and the claim flags.
-/

namespace Salias.CrashRecovery

open Concurrent ConsumerRegistration SharedHybridMpsc

/-- No two processes share an id, and `processOf` is the process table. -/
structure Setup (n : Nat) (P K : Type) where
  ordered : Bool
  pid : P → UInt32
  startToken : P → Nat
  processOf : UInt32 → Option P
  clientProcess : K → P
  producerProcess : Fin n → P
  unique : ∀ id process, processOf id = some process ↔ pid process = id
  positive : ∀ process, pid process ≠ 0

structure ConsumerSlot where
  state : Nat := 0
  pid : UInt32 := 0
  deliveryPolicy : SubscriptionPolicy := .Reliable
  processStart : Nat := 0

structure Cursor where
  position : Nat := 0
  sequence : Nat := 0
  messageSequence : Nat := 0
  generation : Nat := 0
  leaseStart : Nat := kNoLease
  leaseEnd : Nat := 0
  laggedMessages : Nat := 0
  skippedMessages : Nat := 0
  deriving DecidableEq

structure ProducerRing (m : Nat) where
  claimActive : Bool := false
  reservationPosition : Nat := 0
  reservationSequence : Nat := 0
  reservationMessageSequence : Nat := 0
  consumers : Fin m → Cursor := fun _ => {}

/-- A client takes the gate in two steps to register or to release, and in one step to activate the
notifications with its registration. -/
inductive Stage where
  | outside
  | preparing
  | holding
  | arming (token : Nat)
  deriving DecidableEq

/-- `stage` and `judged` are history: where each client is in the gate, and the gate word that it has found dead. -/
structure State (n m : Nat) (P K : Type) where
  alive : P → Bool := fun _ => true
  registrationGate : Nat := 0
  registrationGateProcessStart : Nat := 0
  slot : Fin m → ConsumerSlot := fun _ => {}
  ticket : Fin m → Nat := fun _ => 0
  ring : Fin n → ProducerRing m := fun _ => {}
  consumerSequences : Fin m → Nat := fun _ => 0
  globalSequence : Nat := 0
  notificationsActive : Bool := false
  stage : K → Stage := fun _ => .outside
  judged : K → Option Nat := fun _ => none

inductive Thread (n : Nat) (K : Type) where
  | client (id : K)
  | producer (id : Fin n)
  | environment
  deriving DecidableEq

section Words

variable {n m : Nat} {P K : Type}

namespace State

/-- The liveness check is exact. -/
def isRegisteredProcessAlive (setup : Setup n P K) (state : State n m P K) (id : UInt32) (start : Nat) : Bool :=
  match setup.processOf id with
  | none => false
  | some process => state.alive process && (start == 0 || start == setup.startToken process)

def setRing (state : State n m P K) (producer : Fin n) (change : ProducerRing m → ProducerRing m) : State n m P K :=
  {state with ring := Function.update state.ring producer (change (state.ring producer))}

def setCursor (state : State n m P K) (producer : Fin n) (consumer : Fin m) (change : Cursor → Cursor) :
    State n m P K :=
  state.setRing producer fun ring =>
    {ring with consumers := Function.update ring.consumers consumer (change (ring.consumers consumer))}

def setSlot (state : State n m P K) (consumer : Fin m) (change : ConsumerSlot → ConsumerSlot) : State n m P K :=
  {state with slot := Function.update state.slot consumer (change (state.slot consumer))}

def setTicket (state : State n m P K) (consumer : Fin m) (word : Nat) : State n m P K :=
  {state with ticket := Function.update state.ticket consumer word}

variable [DecidableEq K]

def setStage (state : State n m P K) (client : K) (stage : Stage) : State n m P K :=
  {state with stage := Function.update state.stage client stage}

def setJudged (state : State n m P K) (client : K) (word : Option Nat) : State n m P K :=
  {state with judged := Function.update state.judged client word}

end State

/-- The word that a client writes into the gate at each stage. -/
def gateWord (setup : Setup n P K) (client : K) : Stage → Nat
  | .outside => 0
  | .preparing => makeToken 0 (setup.pid (setup.clientProcess client)) kPreparing
  | .holding => makeToken 0 (setup.pid (setup.clientProcess client)) kActive
  | .arming token => makeToken (generation token) (processId token) kPreparing

end Words

section Gate

variable {n m : Nat} {P K : Type} [DecidableEq K]

/-- The exchange returns the observed word when it fails; a weak exchange may fail although the gate is clear. -/
def compareExchangeWeak (setup : Setup n P K) (client : K) (spurious : Bool) : Prog (State n m P K) (Option Nat) :=
  .modifyGet (fun state => if state.registrationGate = 0 ∧ ¬ spurious then none else some state.registrationGate)
    fun state =>
      if state.registrationGate = 0 ∧ ¬ spurious then
        {state with registrationGate := gateWord setup client .preparing}.setStage client .preparing
      else state

/-- The check of the owner of the gate; a dead one enters the history. -/
def checkOwner (setup : Setup n P K) (client : K) (expected ownerStart : Nat) : Prog (State n m P K) Bool :=
  .modifyGet (fun state => state.isRegisteredProcessAlive setup (processId expected) ownerStart) fun state =>
    if state.isRegisteredProcessAlive setup (processId expected) ownerStart then state
    else state.setJudged client (some expected)

/-- This exchange clears the gate of an owner that was found dead. -/
def clearDeadOwner (client : K) (expected : Nat) : Prog (State n m P K) Unit :=
  .store fun state =>
    (if state.registrationGate = expected then {state with registrationGate := 0} else state).setJudged client none

/-- One pass of the loop of `acquire_registration_gate`. -/
def acquireRegistrationGate (setup : Setup n P K) (client : K) (spurious : Bool) : Prog (State n m P K) Bool := do
  let observed ← compareExchangeWeak setup client spurious
  match observed with
  | none =>
      .store fun state =>
        {state with registrationGateProcessStart := setup.startToken (setup.clientProcess client)}
      .store fun state => {state with registrationGate := gateWord setup client .holding}.setStage client .holding
      pure true
  | some expected =>
      let ownerStart ← (if phase expected = kPreparing then pure 0
        else .load State.registrationGateProcessStart)
      let alive ← checkOwner setup client expected ownerStart
      if alive then
        pure false
      else
        clearDeadOwner client expected
        pure false

/-- The exchange of an own word for zero. -/
def State.giveBack (state : State n m P K) (client : K) (word : Nat) : State n m P K :=
  (if state.registrationGate = word then {state with registrationGate := 0} else state).setStage client .outside

def releaseRegistrationGate (setup : Setup n P K) (client : K) : Prog (State n m P K) Unit :=
  .store fun state => state.giveBack client (gateWord setup client .holding)

/-- One pass of the loop of `wait_for_claims`: the flag of a dead producer is cleared. -/
def claimEnded (setup : Setup n P K) (producer : Fin n) : Prog (State n m P K) Bool := do
  let active ← .load fun state => (state.ring producer).claimActive
  if !active then
    pure true
  else
    let alive ← .load fun state => state.isRegisteredProcessAlive setup (setup.pid (setup.producerProcess producer))
      (setup.startToken (setup.producerProcess producer))
    if alive then
      pure false
    else
      .store fun state => state.setRing producer fun ring => {ring with claimActive := false}
      pure false

end Gate

section Registration

variable {n m : Nat} {P K : Type}

def storeSlot (consumer : Fin m) (change : ConsumerSlot → ConsumerSlot) : Prog (State n m P K) Unit :=
  .store fun state => state.setSlot consumer change

def storeTicket (consumer : Fin m) (word : Nat) : Prog (State n m P K) Unit :=
  .store fun state => state.setTicket consumer word

def storeCursor (producer : Fin n) (consumer : Fin m) (change : Cursor → Cursor) : Prog (State n m P K) Unit :=
  .store fun state => state.setCursor producer consumer change

def storeConsumerSequence (consumer : Fin m) (sequence : Nat) : Prog (State n m P K) Unit :=
  .store fun state => {state with consumerSequences := Function.update state.consumerSequences consumer sequence}

/-- The state word of a slot moves from the expected token to the next one. -/
def exchangeState (consumer : Fin m) (expected next : Nat) : Prog (State n m P K) Bool :=
  .modifyGet (fun state => decide ((state.slot consumer).state = expected)) fun state =>
    if (state.slot consumer).state = expected then state.setSlot consumer fun slot => {slot with state := next}
    else state

def clearCursor (consumer : Fin m) (generation : Nat) (producer : Fin n) : Prog (State n m P K) Unit := do
  storeCursor producer consumer fun cursor => {cursor with position := 0}
  storeCursor producer consumer fun cursor => {cursor with sequence := 0}
  storeCursor producer consumer fun cursor => {cursor with messageSequence := 0}
  storeCursor producer consumer fun cursor => {cursor with generation := generation}
  storeCursor producer consumer fun cursor => {cursor with leaseStart := kNoLease}
  storeCursor producer consumer fun cursor => {cursor with leaseEnd := 0}
  storeCursor producer consumer fun cursor => {cursor with laggedMessages := 0}
  storeCursor producer consumer fun cursor => {cursor with skippedMessages := 0}

def clearConsumerCursors (consumer : Fin m) (generation : Nat) : Prog (State n m P K) Unit := do
  .forEach (clearCursor consumer generation) (List.finRange n)
  storeConsumerSequence consumer 0

/-- The words of a slot that no subscriber owns any more. -/
def resetSlot (consumer : Fin m) (generation : Nat) : Prog (State n m P K) Unit := do
  clearConsumerCursors consumer generation
  storeSlot consumer fun slot => {slot with pid := 0}
  storeSlot consumer fun slot => {slot with deliveryPolicy := .Reliable}
  storeSlot consumer fun slot => {slot with processStart := 0}
  storeSlot consumer fun slot => {slot with state := makeToken generation 0 kFree}

/-- The cursor of the new subscriber starts at the reservation of the producer. -/
def snapshotCursor (setup : Setup n P K) (consumer : Fin m) (generation orderedSequence : Nat) (producer : Fin n) :
    Prog (State n m P K) Unit := do
  storeCursor producer consumer fun cursor => {cursor with generation := generation}
  let position ← .load fun state => (state.ring producer).reservationPosition
  let sequence ← (if setup.ordered then pure orderedSequence
    else .load fun state => (state.ring producer).reservationSequence)
  storeCursor producer consumer fun cursor => {cursor with position := position}
  storeCursor producer consumer fun cursor => {cursor with sequence := sequence}
  let messageSequence ← .load fun state => (state.ring producer).reservationMessageSequence
  storeCursor producer consumer fun cursor => {cursor with messageSequence := messageSequence}
  storeCursor producer consumer fun cursor => {cursor with leaseStart := kNoLease}
  storeCursor producer consumer fun cursor => {cursor with leaseEnd := 0}
  storeCursor producer consumer fun cursor => {cursor with laggedMessages := 0}
  storeCursor producer consumer fun cursor => {cursor with skippedMessages := 0}

/-- The slot of an exited process becomes free again; the result is the word of a free slot. -/
def reclaimSlot (setup : Setup n P K) (consumer : Fin m) : Prog (State n m P K) (Option Nat) := do
  let observed ← .load fun state => (state.slot consumer).state
  if phase observed = kFree then
    pure (some observed)
  else
    let ownerStart ← .load fun state => (state.slot consumer).processStart
    let alive ← .load fun state => state.isRegisteredProcessAlive setup (processId observed) ownerStart
    if alive then
      pure none
    else
      let exchanged ← exchangeState consumer observed
        (makeToken (generation observed) (processId observed) kReclaiming)
      if exchanged then
        storeTicket consumer 0
        resetSlot consumer (generation observed)
        let observed ← .load fun state => (state.slot consumer).state
        pure (some observed)
      else
        pure none

/-- The registration in a free slot; it fails when the state word has moved. -/
def initializeSlot (setup : Setup n P K) (client : K) (policy : SubscriptionPolicy) (consumer : Fin m)
    (observed : Nat) : Prog (State n m P K) (Option (Fin m × Nat)) := do
  let process := setup.clientProcess client
  let next := (generation observed + 1) &&& kGenerationMask
  let exchanged ← exchangeState consumer observed (makeToken next (setup.pid process) kInitializing)
  if exchanged then
    storeSlot consumer fun slot => {slot with pid := setup.pid process}
    storeSlot consumer fun slot => {slot with deliveryPolicy := policy}
    storeSlot consumer fun slot => {slot with processStart := setup.startToken process}
    storeTicket consumer 0
    let orderedSequence ← (if setup.ordered then .load State.globalSequence else pure 0)
    .forEach (snapshotCursor setup consumer next orderedSequence) (List.finRange n)
    .when setup.ordered (storeConsumerSequence consumer orderedSequence)
    storeSlot consumer fun slot => {slot with state := makeToken next (setup.pid process) kActive}
    pure (some (consumer, makeToken next (setup.pid process) kActive))
  else
    pure none

/-- One slot of the search. -/
def acquireSlotRound (setup : Setup n P K) (client : K) (policy : SubscriptionPolicy) (_ : Unit) (consumer : Fin m) :
    Prog (State n m P K) (Unit ⊕ (Fin m × Nat)) := do
  let free ← reclaimSlot setup consumer
  match free with
  | none => pure (.inl ())
  | some observed =>
      let taken ← initializeSlot setup client policy consumer observed
      pure (match taken with | some registration => .inr registration | none => .inl ())

/-- The part of `acquire_consumer` behind the wait for the claims. -/
def acquireConsumer (setup : Setup n P K) (client : K) (policy : SubscriptionPolicy) :
    Prog (State n m P K) (Option (Fin m × Nat)) := do
  let searched ← .foldUntil (acquireSlotRound setup client policy) (List.finRange m) ()
  pure searched.getRight?

/-- The part of `release_consumer` behind the wait for the claims. -/
def releaseConsumer (consumer : Fin m) (token : Nat) : Prog (State n m P K) Unit := do
  let exchanged ← exchangeState consumer token (makeToken (generation token) (processId token) kReleasing)
  if exchanged then
    .store fun state => if state.ticket consumer = token then state.setTicket consumer 0 else state
    resetSlot consumer (generation token)
  else
    pure ()

end Registration

section Endpoints

variable {n m : Nat} {P K : Type} [DecidableEq K]

def hasConsumer (consumer : Fin m) (token : Nat) : Prog (State n m P K) Bool :=
  .load fun state => decide (phase token = kActive ∧ (state.slot consumer).state = token)

/-- The first active claim ends the check of the claims. -/
def claimRound (_ : Unit) (producer : Fin n) : Prog (State n m P K) (Unit ⊕ Unit) := do
  let busy ← .load fun state => (state.ring producer).claimActive
  pure (if busy then .inr () else .inl ())

/-- The sticky activation of the notifications, inside the gate and without waiting. -/
def tryActivate (setup : Setup n P K) (client : K) (token : Nat) : Prog (State n m P K) Bool := do
  let word := gateWord setup client (.arming token)
  let taken ← .modifyGet (fun state : State n m P K => decide (state.registrationGate = 0)) fun state =>
    if state.registrationGate = 0 then
      {state with registrationGate := word}.setStage client (.arming token)
    else state
  if !taken then
    pure false
  else
    let checked ← .foldUntil claimRound (List.finRange n) ()
    .when checked.isLeft (.store fun state => {state with notificationsActive := true})
    .store fun state => state.giveBack client word
    if checked.isLeft then
      .load State.notificationsActive
    else
      pure false

/-- `none` stands for an invalid endpoint, `some false` for a busy gate. -/
def tryArmWaitNotification (setup : Setup n P K) (client : K) (consumer : Fin m) (token : Nat) :
    Prog (State n m P K) (Option Bool) := do
  let registered ← hasConsumer consumer token
  if !registered || token == 0 then
    pure none
  else
    let wakes ← .load State.notificationsActive
    let ready ← (if wakes then pure true else tryActivate setup client token)
    if !ready then
      pure (some false)
    else
      let registered ← hasConsumer consumer token
      if !registered then
        pure none
      else
        let armed ← .modifyGet (fun state => decide (state.ticket consumer = 0 ∨ state.ticket consumer = token))
          fun state => if state.ticket consumer = 0 then state.setTicket consumer token else state
        if !armed then
          pure none
        else
          let registered ← hasConsumer consumer token
          if registered then
            pure (some true)
          else
            .store fun state => if state.ticket consumer = token then state.setTicket consumer 0 else state
            pure none

/-- A claim writes its reservation, and in the ordered mode the sequence of the channel, inside its flag. -/
def claim (setup : Setup n P K) (producer : Fin n) (position sequence messageSequence : Nat) :
    Prog (State n m P K) Unit := do
  let closed ← .load fun state => decide (state.registrationGate ≠ 0)
  if closed then
    pure ()
  else
    .store fun state => state.setRing producer fun ring => {ring with claimActive := true}
    let closed ← .load fun state => decide (state.registrationGate ≠ 0)
    .when (!closed) do
      .when setup.ordered (.store fun state => {state with globalSequence := state.globalSequence + 1})
      .store fun state => state.setRing producer fun ring => {ring with reservationPosition := position}
      .store fun state => state.setRing producer fun ring => {ring with reservationSequence := sequence}
      .store fun state => state.setRing producer fun ring => {ring with reservationMessageSequence := messageSequence}
    .store fun state => state.setRing producer fun ring => {ring with claimActive := false}

end Endpoints

/-- What a client does inside the gate. -/
inductive Task (m : Nat) where
  | acquire (policy : SubscriptionPolicy)
  | release (consumer : Fin m) (token : Nat)

/-- A client waits in an endless loop for the gate and then for each producer; a pass of a loop is one program. -/
inductive Label (n m : Nat) where
  | resting (registration : Option (Fin m × Nat))
  | contending (task : Task m)
  | waiting (task : Task m) (rest : List (Fin n))
  | producer
  | environment

inductive Request (n : Nat) (P : Type) where
  | acquire (policy : SubscriptionPolicy)
  | release
  | arm
  | proceed (spurious : Bool)
  | claim (position sequence messageSequence : Nat)
  | crash (process : P)

section System

variable {n m : Nat} {P K : Type} [DecidableEq K] [DecidableEq P]

def runTask (setup : Setup n P K) (client : K) : Task m → Prog (State n m P K) (Option (Fin m × Nat))
  | .acquire policy => acquireConsumer setup client policy
  | .release consumer token => do
      releaseConsumer consumer token
      pure none

/-- The pass of a client that has the gate. -/
def waitPass (setup : Setup n P K) (client : K) (task : Task m) :
    List (Fin n) → Prog (State n m P K) (Label n m)
  | producer :: rest => do
      let ended ← claimEnded setup producer
      pure (.waiting task (if ended then rest else producer :: rest))
  | [] => do
      let registration ← runTask setup client task
      releaseRegistrationGate setup client
      pure (.resting registration)

def startClient (setup : Setup n P K) (client : K) :
    Label n m → Request n P → Option (Prog (State n m P K) (Label n m))
  | .resting none, .acquire policy => some (pure (.contending (.acquire policy)))
  | .resting (some (consumer, token)), .release =>
      some (pure (if phase token = kActive then .contending (.release consumer token) else .resting none))
  | .resting (some (consumer, token)), .arm => some do
      let _ ← tryArmWaitNotification setup client consumer token
      pure (.resting (some (consumer, token)))
  | .contending task, .proceed spurious => some do
      let taken ← acquireRegistrationGate setup client spurious
      pure (if taken then .waiting task (List.finRange n) else .contending task)
  | .waiting task rest, .proceed _ => some (waitPass setup client task rest)
  | _, _ => none

def start (setup : Setup n P K) : Thread n K → Label n m → Request n P → Option (Prog (State n m P K) (Label n m))
  | .client client, label, request => startClient setup client label request
  | .producer producer, .producer, .claim position sequence messageSequence => some do
      claim setup producer position sequence messageSequence
      pure .producer
  | .environment, .environment, .crash process => some do
      .store fun state => {state with alive := Function.update state.alive process false}
      pure .environment
  | _, _, _ => none

def system (setup : Setup n P K) : System (State n m P K) (Thread n K) (Label n m) (Request n P) := ⟨start setup⟩

def initial : Config (State n m P K) (Thread n K) (Label n m) :=
  ⟨{}, fun
    | .client _ => .ret (.resting none)
    | .producer _ => .ret .producer
    | .environment => .ret .environment⟩

/-- An exited process never acts again. -/
def Lives (setup : Setup n P K) (state : State n m P K) : Thread n K → Prop
  | .client client => state.alive (setup.clientProcess client) = true
  | .producer producer => state.alive (setup.producerProcess producer) = true
  | .environment => True

instance (setup : Setup n P K) (state : State n m P K) (thread : Thread n K) : Decidable (Lives setup state thread) :=
  match thread with
  | .client client => inferInstanceAs (Decidable (state.alive (setup.clientProcess client) = true))
  | .producer producer => inferInstanceAs (Decidable (state.alive (setup.producerProcess producer) = true))
  | .environment => .isTrue trivial

end System

end Salias.CrashRecovery
