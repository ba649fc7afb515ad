import Salias.Concurrent.RelyGuarantee
import Salias.Concurrent.StoreBuffer
import Salias.Registration.Token

/-
A producer reserves ring space inside a claim section; a registrant closes the gate and waits for the
sections that are still open. Relaxed and release stores go through the store buffer of the producer.
-/

namespace Salias.ClaimHandshake

open Concurrent ConsumerRegistration

inductive ClaimFenceProtocol where
  | kSeqCst
  | kMembarrier
  deriving DecidableEq

/-- The words that one producer writes. -/
structure Words where
  claimActive : Nat := 0
  reservationPosition : Nat := 0
  reservationSequence : Nat := 0
  reservationMessageSequence : Nat := 0
  deriving DecidableEq

inductive Write where
  | claimActive (value : Nat)
  | reservationPosition (value : Nat)
  | reservationSequence (value : Nat)
  | reservationMessageSequence (value : Nat)
  deriving DecidableEq

def Words.apply (words : Words) : Write → Words
  | .claimActive value => {words with claimActive := value}
  | .reservationPosition value => {words with reservationPosition := value}
  | .reservationSequence value => {words with reservationSequence := value}
  | .reservationMessageSequence value => {words with reservationMessageSequence := value}

def Write.Reserves : Write → Prop
  | .claimActive _ => False
  | _ => True

/-- The three words of a reservation. -/
def Words.reservation (words : Words) : Nat × Nat × Nat :=
  (words.reservationPosition, words.reservationSequence, words.reservationMessageSequence)

/-- The producers are live processes; only a registered process may use the light path. -/
structure Setup (n : Nat) where
  protocol : ClaimFenceProtocol
  publisherRegistered : Fin n → Bool
  registrantPid : UInt32
  producerPid : Fin n → UInt32
  producerProcessStart : Fin n → Nat
  isRegisteredProcessAlive : UInt32 → Nat → Bool
  live : ∀ producer, isRegisteredProcessAlive (producerPid producer) (producerProcessStart producer) = true

/-- The transmitter chooses the light path once, when the protocol of the channel allows it. -/
def Setup.asymmetricClaimFence {n : Nat} (setup : Setup n) (producer : Fin n) : Bool :=
  setup.protocol = .kMembarrier && setup.publisherRegistered producer

/-- A producer is inside from the load that acquires the guard to the store that ends it. -/
inductive Stage where
  | outside
  | raised
  | inside
  deriving DecidableEq

/-- The gate lies in memory; `issued`, `stage`, `fenced` and `waited` record the history. -/
structure State (n : Nat) where
  registrationGate : Nat := 0
  words : Fin n → Buffered Words Write := fun _ => ⟨{}, []⟩
  issued : Fin n → Words := fun _ => {}
  stage : Fin n → Stage := fun _ => .outside
  fenced : Fin n → Bool := fun _ => false
  waited : Bool := false

inductive Thread (n : Nat) where
  | producer (id : Fin n)
  | registrant
  | memory (id : Fin n)
  deriving DecidableEq

inductive Label (n : Nat) where
  | outside
  | inside
  | idle
  | waiting (remaining : List (Fin n))
  | registered
  | memory

inductive Request where
  | claim
  | publishReservation (position sequence messageSequence : Nat)
  | finish
  | register (fenceSucceeds : Bool)
  | poll
  | clearGate
  | drain

section Programs

variable {n : Nat}

def State.setStage (state : State n) (producer : Fin n) (stage : Stage) : State n :=
  {state with stage := Function.update state.stage producer stage}

/-- A relaxed or release store enters the buffer. -/
def State.storeBuffered (state : State n) (producer : Fin n) (write : Write) : State n :=
  {state with
    words := Function.update state.words producer ((state.words producer).push write)
    issued := Function.update state.issued producer ((state.issued producer).apply write)}

/-- A sequentially consistent store also drains the buffer. -/
def State.storeSeqCst (state : State n) (producer : Fin n) (write : Write) : State n :=
  {state with
    words := Function.update state.words producer
      (((state.words producer).push write).drain Words.apply)
    issued := Function.update state.issued producer ((state.issued producer).apply write)}

def State.storeActive (state : State n) (asymmetric : Bool) (producer : Fin n) (value : Nat) : State n :=
  if asymmetric then state.storeBuffered producer (.claimActive value)
  else state.storeSeqCst producer (.claimActive value)

/-- The constructor of `ClaimReservationGuard`; the light fence emits no action. -/
def claimReservationGuard (setup : Setup n) (producer : Fin n) : Prog (State n) (Label n) := do
  let gate ← .load fun state => state.registrationGate
  if gate ≠ 0 then
    pure .outside
  else
    let asymmetric := setup.asymmetricClaimFence producer
    .store fun state => (state.storeActive asymmetric producer 1).setStage producer .raised
    let acquired ← .modifyGet (fun state => decide (state.registrationGate = 0)) fun state =>
      if state.registrationGate = 0 then state.setStage producer .inside else state
    if acquired then
      pure .inside
    else
      .store fun state => (state.storeActive asymmetric producer 0).setStage producer .outside
      pure .outside

/-- The destructor of an acquired guard. -/
def endClaimReservation (setup : Setup n) (producer : Fin n) : Prog (State n) (Label n) := do
  .store fun state =>
    (state.storeActive (setup.asymmetricClaimFence producer) producer 0).setStage producer .outside
  pure .outside

def publishReservation (producer : Fin n) (position sequence messageSequence : Nat) :
    Prog (State n) (Label n) := do
  .store fun state => state.storeBuffered producer (.reservationPosition position)
  .store fun state => state.storeBuffered producer (.reservationSequence sequence)
  .store fun state => state.storeBuffered producer (.reservationMessageSequence messageSequence)
  pure .inside

/-- The heavy fence drains the buffers of all producers, each at its own moment. -/
def heavyFence : List (Fin n) → Prog (State n) Unit
  | [] => pure ()
  | producer :: rest => do
      .store fun state => {state with
        words := Function.update state.words producer ((state.words producer).drain Words.apply)
        fenced := Function.update state.fenced producer true}
      heavyFence rest

def State.clearGate (state : State n) : State n :=
  {state with registrationGate := 0, fenced := fun _ => false, waited := false}

/-- The registrant owns the gate, writes its two tokens and enters the barrier. -/
def enterRegistrationBarrier (setup : Setup n) (fenceSucceeds : Bool) : Prog (State n) (Label n) := do
  .store fun state =>
    {state with registrationGate := makeToken 0 setup.registrantPid kPreparing}
  .store fun state => {state with registrationGate := makeToken 0 setup.registrantPid kActive}
  if setup.protocol ≠ .kMembarrier then
    pure (.waiting (List.finRange n))
  else if fenceSucceeds then
    heavyFence (List.finRange n)
    pure (.waiting (List.finRange n))
  else
    .store State.clearGate
    pure .idle

/-- One pass of the loop in `wait_for_claims` for the next producer. -/
def waitForClaims (setup : Setup n) : List (Fin n) → Prog (State n) (Label n)
  | [] => do
      .store fun state => {state with waited := true}
      pure .registered
  | producer :: rest => do
      let token ← .load fun state => (state.words producer).memory.claimActive
      if token = 0 then
        pure (.waiting rest)
      else if setup.isRegisteredProcessAlive (setup.producerPid producer)
          (setup.producerProcessStart producer) then
        pure (.waiting (producer :: rest))
      else
        .store fun state =>
          let current := state.words producer
          if current.memory.claimActive = token then
            {state with
              words := Function.update state.words producer
                ⟨current.memory.apply (.claimActive 0), current.buffer⟩}
          else state
        pure (.waiting (producer :: rest))

def clearRegistrationGate : Prog (State n) (Label n) := do
  .store State.clearGate
  pure .idle

/-- Memory may take the oldest buffered write at any moment. -/
def drainOldest (producer : Fin n) : Prog (State n) (Label n) := do
  .store fun state => {state with
    words := Function.update state.words producer ((state.words producer).pop Words.apply)}
  pure .memory

def start (setup : Setup n) : Thread n → Label n → Request → Option (Prog (State n) (Label n))
  | .producer producer, .outside, .claim => some (claimReservationGuard setup producer)
  | .producer producer, .inside, .publishReservation position sequence messageSequence =>
      some (publishReservation producer position sequence messageSequence)
  | .producer producer, .inside, .finish => some (endClaimReservation setup producer)
  | .registrant, .idle, .register fenceSucceeds => some (enterRegistrationBarrier setup fenceSucceeds)
  | .registrant, .waiting remaining, .poll => some (waitForClaims setup remaining)
  | .registrant, .registered, .clearGate => some clearRegistrationGate
  | .memory producer, .memory, .drain => some (drainOldest producer)
  | _, _, _ => none

def system (setup : Setup n) : System (State n) (Thread n) (Label n) Request := ⟨start setup⟩

def initial : Config (State n) (Thread n) (Label n) :=
  ⟨{}, fun
    | .producer _ => .ret .outside
    | .registrant => .ret .idle
    | .memory _ => .ret .memory⟩

end Programs
end Salias.ClaimHandshake
