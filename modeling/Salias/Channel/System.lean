import Salias.Channel.Tx
import Salias.Channel.RxLatest
import Salias.Channel.Registration

/-
The whole channel as a system of threads: one transmitter for each ring, any number of subscribers, and an
environment that moves the clock and ends processes.
-/

namespace Salias.SharedHybridMpsc

open Concurrent ConsumerRegistration

inductive Thread (n : Nat) (K : Type) where
  | producer (id : Fin n)
  | client (id : K)
  | environment
  deriving DecidableEq

inductive TxResult where
  | ready
  | claimed (result : Except FlowError Claim)
  | batched (result : Except FlowError BatchClaim)

inductive RxResult (n : Nat) where
  | ready
  | received (message : Option (Message n))
  | failed (error : ReceiveError)
  | run (messages : List (Message n))
  | skipped (result : Except ReceiveError Nat)

/-- What a client does inside the registration gate. -/
inductive Task (m : Nat) where
  | subscribe (policy : SubscriptionPolicy)
  | unsubscribe (consumer : Fin m) (token : Nat)

inductive Label (n m : Nat) where
  | transmitter (last : TxResult)
  | unsubscribed
  | waiting (task : Task m) (remaining : List (Fin n))
  | receiver (consumer : Fin m) (token : Nat) (last : RxResult n)
  | receiving (consumer : Fin m) (token : Nat) (receiving : Receiving)
  | collecting (consumer : Fin m) (token cap : Nat) (now : Option Nat)
  | closing (consumer : Fin m) (token : Nat)
  | environment

inductive Request (n : Nat) where
  | claim (payloadLen : UInt32) (expiresAt : UInt64) (hasExpiry : Bool)
  | claimBatch (payloadLen maxFrames : UInt32) (expiresAt : UInt64) (hasExpiry : Bool)
  | write (claimed : Claimed) (offset : Nat) (data : List UInt8)
  | commit (claim : Claim)
  | commitBatch (batch : BatchClaim)
  | createTx
  | subscribe (policy : SubscriptionPolicy)
  | unsubscribe
  | proceed
  | tryRecv (fixed : Option UInt32)
  | tryRecvChecked (fixed : Option UInt32)
  | tryRecvRun (cap : Nat)
  | release (message : Message n)
  | consume (message : Message n)
  | flush
  | skipToLatest (producer : Fin n) (fixed : Option UInt32)
  | crash (pid : UInt32) (start : Nat)
  | tick (now : Nat)

section System

variable {n m : Nat} {K : Type} [DecidableEq K]

def loadCursor (client : K) (consumer : Fin m) (producer : Fin n) : Prog (State n m K) Unit := do
  let position ← .load fun state => ((state.ring producer).consumers consumer).position
  let sequence ← .load fun state => ((state.ring producer).consumers consumer).sequence
  let messageSequence ← .load fun state => ((state.ring producer).consumers consumer).messageSequence
  updateRx client fun rx => {rx with
    readPositions := Function.update rx.readPositions producer position
    flushedPositions := Function.update rx.flushedPositions producer position
    nextSequences := Function.update rx.nextSequences producer sequence
    readMessageSequences := Function.update rx.readMessageSequences producer messageSequence}

/-- The constructor of a receiver reads the shared progress of its slot. -/
def createRx (setup : Setup n m K) (client : K) (consumer : Fin m) (token : Nat) : Prog (State n m K) Unit := do
  let registered ← hasConsumer consumer token
  if registered then
    let expected ← (if setup.mode.ordered then .load fun state => state.consumerSequences consumer
      else pure 0)
    updateRx client fun rx => {rx with expectedSequence := expected}
    .forEach (loadCursor client consumer) (List.finRange n)

/-- The destructor of a receiver clears its leases. -/
def destroyRx (setup : Setup n m K) (client : K) (consumer : Fin m) (token : Nat) : Prog (State n m K) Unit := do
  if setup.mode.dropOldest then
    .forEach (fun producer => do
      let rx ← readRx client
      if rx.activeLeases producer then
        clearLatestLease client consumer token producer) (List.finRange n)

def runTask (setup : Setup n m K) (client : K) : Task m → Prog (State n m K) (Label n m)
  | .subscribe policy => do
      let taken ← acquireConsumer setup client policy
      releaseRegistrationGate client
      match taken with
      | none => pure .unsubscribed
      | some (consumer, token) =>
          createRx setup client consumer token
          pure (.receiver consumer token .ready)
  | .unsubscribe consumer token => do
      releaseConsumer client consumer token
      releaseRegistrationGate client
      pure .unsubscribed

/-- The label after a receive or a pass of it. -/
def Received.label (consumer : Fin m) (token : Nat) : Received n → Label n m
  | .again receiving => .receiving consumer token receiving
  | .nothing => .receiver consumer token (.received none)
  | .message found => .receiver consumer token (.received (some found))
  | .error reason => .receiver consumer token (.failed reason)

def RunReceived.label (consumer : Fin m) (token cap : Nat) : RunReceived n → Label n m
  | .again now => .collecting consumer token cap now
  | .messages found => .receiver consumer token (.run found)

def startTransmitter (setup : Setup n m K) (producer : Fin n) : Request n → Option (Prog (State n m K) (Label n m))
  | .claim payloadLen expiresAt hasExpiry => some do
      let result ← claim setup producer payloadLen expiresAt hasExpiry
      pure (.transmitter (.claimed result))
  | .claimBatch payloadLen maxFrames expiresAt hasExpiry => some do
      let result ← claimBatch setup producer payloadLen maxFrames expiresAt hasExpiry
      pure (.transmitter (.batched result))
  | .write claimed offset data => some do
      writePayload setup producer claimed offset data
      pure (.transmitter .ready)
  | .commit claim => some do
      commit setup producer claim
      pure (.transmitter .ready)
  | .commitBatch batch => some do
      commitBatch setup producer batch
      pure (.transmitter .ready)
  | .createTx => some do
      createTx setup producer
      pure (.transmitter .ready)
  | _ => none

def startReceiver (setup : Setup n m K) (client : K) (consumer : Fin m) (token : Nat) :
    Request n → Option (Prog (State n m K) (Label n m))
  | .tryRecv fixed => some do
      let received ← beginReceive client consumer token fixed false
      pure (received.label consumer token)
  | .tryRecvChecked fixed => some do
      let received ← beginReceiveChecked setup client consumer token fixed
      pure (received.label consumer token)
  | .tryRecvRun cap => some do
      if setup.mode.dropOldest then
        let registered ← hasConsumer consumer token
        pure (if cap = 0 ∨ !registered then .receiver consumer token (.run [])
          else .collecting consumer token cap none)
      else
        let out ← tryRecvRun setup client consumer token cap
        pure (.receiver consumer token (.run out))
  | .release message => some do
      release setup client consumer token message
      pure (.receiver consumer token .ready)
  | .consume message => some do
      consume setup client consumer token message
      pure (.receiver consumer token .ready)
  | .flush => some do
      flushBatch setup client consumer token
      pure (.receiver consumer token .ready)
  | .skipToLatest producer fixed => some do
      let result ← skipToLatest setup client consumer token producer fixed
      pure (.receiver consumer token (.skipped result))
  | .unsubscribe => some do
      destroyRx setup client consumer token
      pure (.closing consumer token)
  | _ => none

def startClient (setup : Setup n m K) (client : K) : Label n m → Request n → Option (Prog (State n m K) (Label n m))
  | .unsubscribed, .subscribe policy => some do
      let acquired ← acquireRegistrationGate setup client
      pure (if acquired then .waiting (.subscribe policy) (List.finRange n) else .unsubscribed)
  | .closing consumer token, .proceed => some do
      let acquired ← acquireRegistrationGate setup client
      pure (if acquired then .waiting (.unsubscribe consumer token) (List.finRange n)
        else .closing consumer token)
  | .waiting task (producer :: rest), .proceed => some do
      let ended ← claimEnded producer
      pure (.waiting task (if ended then rest else producer :: rest))
  | .waiting task [], .proceed => some (runTask setup client task)
  | .receiver consumer token _, request => startReceiver setup client consumer token request
  | .receiving consumer token receiving, .proceed => some do
      let received ← (if setup.mode.dropOldest then receiveLatestPass setup client consumer token receiving
        else receivePass setup client consumer token receiving)
      pure (received.label consumer token)
  | .collecting consumer token cap now, .proceed => some do
      let received ← runLatestPass setup client consumer token cap now
      pure (received.label consumer token cap)
  | _, _ => none

def startEnvironment : Request n → Option (Prog (State n m K) (Label n m))
  | .crash pid start => some do
      .store fun state => {state with
        alive := fun other token => state.alive other token && !(other == pid && token == start)}
      pure .environment
  | .tick now => some do
      .store fun state => {state with clock := max state.clock now}
      pure .environment
  | _ => none

def start (setup : Setup n m K) : Thread n K → Label n m → Request n → Option (Prog (State n m K) (Label n m))
  | .producer producer, .transmitter _, request => startTransmitter setup producer request
  | .client client, label, request => startClient setup client label request
  | .environment, .environment, request => startEnvironment request
  | _, _, _ => none

def system (setup : Setup n m K) :
    Concurrent.System (State n m K) (Thread n K) (Label n m) (Request n) := ⟨start setup⟩

def initial : Concurrent.Config (State n m K) (Thread n K) (Label n m) :=
  ⟨{}, fun
    | .producer _ => .ret (.transmitter .ready)
    | .client _ => .ret .unsubscribed
    | .environment => .ret .environment⟩

end System
end Salias.SharedHybridMpsc
