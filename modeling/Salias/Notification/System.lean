import Salias.Notification.Wait

/-
The blocking receive, the registration of slots, and the system of producers, handles and registrars. A handle
may hold any token. Each endless loop of the source is one label: a pass of the loop is one program.
-/

namespace Salias.Notification

open Concurrent ConsumerRegistration

/-- The passes of a receive that only poll. -/
def kSpinAttempts : Nat := 64

section Receive

variable {n m : Nat} {K R : Type} [DecidableEq K] [DecidableEq R]

/-- The local variables of a pass of `recv_payload`. -/
structure Pass where
  spins : Nat
  armed : Bool
  notificationsActive : Bool
  expected : Nat

inductive Received (n : Nat) where
  | empty
  | message (producer : Fin n) (frame : Frame)

/-- What a pass leads to. -/
inductive Step (n : Nat) where
  | retry (spins : Nat)
  | scan (pass : Pass) (now : Option Nat)
  | park (pass : Pass)
  | sleep (pass : Pass)
  | done (received : Received n)

/-- The snapshot of the epoch; the number of epoch steps enters the history. -/
def snapshotEpoch (handle : K) : Prog (State n m K R) Nat :=
  .modifyGet State.epoch fun state =>
    state.setReceiver handle fun receiver => {receiver with seen := state.steps}

/-- A pass of the receive: the ticket is armed before the snapshot. -/
def beginPass (handle : K) (consumer : Fin m) (token spins : Nat) (fence : Bool) : Prog (State n m K R) (Step n) := do
  let wakes ← needsWake
  if spins < kSpinAttempts then
    let expected ← snapshotEpoch handle
    pure (.scan ⟨spins, false, wakes, expected⟩ none)
  else
    let armed ← tryArmWaitNotification handle consumer token fence
    match armed with
    | none => pure (.done .empty)
    | some armed =>
        let wakes ← needsWake
        let expected ← snapshotEpoch handle
        pure (.scan ⟨spins, armed, wakes, expected⟩ none)

/-- The destructor of a pass removes its ticket. -/
def ticketCleanup (handle : K) (consumer : Fin m) (token : Nat) (pass : Pass) : Prog (State n m K R) Unit :=
  .when pass.armed (clearWaitNotification handle consumer token)

def endPass (handle : K) (consumer : Fin m) (token : Nat) (pass : Pass) (next : Step n) :
    Prog (State n m K R) (Step n) := do
  ticketCleanup handle consumer token pass
  pure next

/-- A complete scan, and the check of the ticket before the wait. -/
def scanPass (setup : Setup) (handle : K) (consumer : Fin m) (token : Nat) (pass : Pass) (now : Option Nat) :
    Prog (State n m K R) (Step n) := do
  let visited ← scanRings setup handle now
  match visited with
  | .found producer frame => endPass handle consumer token pass (.done (.message producer frame))
  | .skipped now => pure (.scan pass now)
  | .nothing _ =>
      if pass.spins < kSpinAttempts then
        endPass handle consumer token pass (.retry (pass.spins + 1))
      else if !pass.notificationsActive then
        endPass handle consumer token pass (.retry pass.spins)
      else if pass.armed then
        let ticket ← waitTicketState handle consumer token
        match ticket with
        | .Invalid => endPass handle consumer token pass (.done .empty)
        | .Consumed => endPass handle consumer token pass (.retry pass.spins)
        | .Armed => pure (.park pass)
      else
        pure (.park pass)

/-- The futex puts the receiver to sleep only while the epoch is the expected one. -/
def futexWait (handle : K) (consumer : Fin m) (token : Nat) (pass : Pass) : Prog (State n m K R) (Step n) := do
  let sleeps ← .modifyGet (fun state => decide (state.epoch = pass.expected)) fun state =>
    if state.epoch = pass.expected then state.setAsleep handle (some pass.armed) else state
  if sleeps then
    pure (.sleep pass)
  else
    endPass handle consumer token pass (.retry pass.spins)

/-- A sleeper goes on after its wake. -/
def resume (handle : K) (consumer : Fin m) (token : Nat) (pass : Pass) : Prog (State n m K R) (Step n) := do
  let sleeps ← .load fun state => (state.asleep handle).isSome
  if sleeps then
    pure (.sleep pass)
  else
    endPass handle consumer token pass (.retry pass.spins)

end Receive

section Registration

variable {n m : Nat} {K R : Type} [DecidableEq K] [DecidableEq R]

/-- The end of a registration; its ticket is still to be removed. -/
def endRegistration (consumer : Fin m) (token word : Nat) : Prog (State n m K R) Bool :=
  .modifyGet (fun state => decide (state.slot consumer = token)) fun state =>
    if state.slot consumer = token then (state.setSlot consumer word).setVacating consumer (some token) else state

def storeSlot (consumer : Fin m) (word : Nat) : Prog (State n m K R) Unit :=
  .store fun state => state.setSlot consumer word

def resetTicket (consumer : Fin m) : Prog (State n m K R) Unit :=
  .store fun state => (state.setTicket consumer 0).setVacating consumer none

/-- A slot whose owner is dead becomes free again; the result is the word of a free slot. -/
def reclaimSlot (alive : Fin m → Bool) (consumer : Fin m) : Prog (State n m K R) (Option Nat) := do
  let observed ← .load fun state => state.slot consumer
  if phase observed = kFree then
    pure (some observed)
  else if alive consumer then
    pure none
  else
    let reclaimed ← endRegistration consumer observed
      (makeToken (generation observed) (processId observed) kReclaiming)
    if reclaimed then
      resetTicket consumer
      storeSlot consumer (makeToken (generation observed) 0 kFree)
      let observed ← .load fun state => state.slot consumer
      pure (some observed)
    else
      pure none

/-- One slot of the search; `alive` is the answer of the liveness check on the owner of each slot. -/
def acquireSlotRound (pid : UInt32) (alive : Fin m → Bool) (_ : Unit) (consumer : Fin m) :
    Prog (State n m K R) (Unit ⊕ (Fin m × Nat)) := do
  let free ← reclaimSlot alive consumer
  match free with
  | none => pure (.inl ())
  | some observed =>
      let next := (generation observed + 1) &&& kGenerationMask
      let taken ← .modifyGet (fun state => decide (state.slot consumer = observed)) fun state =>
        if state.slot consumer = observed then state.setSlot consumer (makeToken next pid kInitializing) else state
      if taken then
        resetTicket consumer
        storeSlot consumer (makeToken next pid kActive)
        pure (.inr (consumer, makeToken next pid kActive))
      else
        pure (.inl ())

def acquireConsumer (pid : UInt32) (alive : Fin m → Bool) : Prog (State n m K R) (Option (Fin m × Nat)) := do
  let found ← .foldUntil (acquireSlotRound pid alive) (List.finRange m) ()
  pure found.getRight?

def releaseConsumer (consumer : Fin m) (token : Nat) : Prog (State n m K R) Unit := do
  if phase token = kActive then
    let released ← endRegistration consumer token (makeToken (generation token) (processId token) kReleasing)
    if released then
      .store fun state => (state.removeTicket consumer token).setVacating consumer none
      storeSlot consumer (makeToken (generation token) 0 kFree)

end Registration

/-- What a registrar does inside the gate. -/
inductive Task (m : Nat) where
  | acquire (pid : UInt32) (alive : Fin m → Bool)
  | release (consumer : Fin m) (token : Nat)

/-- The history at the entry of a call. -/
structure Entry where
  word : Nat
  changes : Nat
  active : Bool
  deriving DecidableEq

inductive Label (n m : Nat) where
  | producer (claiming : Bool)
  | handle
  | armed (consumer : Fin m) (token : Nat) (entry : Entry) (result : Option Bool)
  | receive (consumer : Fin m) (token : Nat) (entry : Entry) (step : Step n)
  | outside
  | contending (task : Task m)
  | registered (result : Option (Fin m × Nat))

inductive Request (n m : Nat) where
  | publish (frames : List Frame)
  | enterClaim
  | leaveClaim
  | arm (consumer : Fin m) (token : Nat) (fence : Bool)
  | clear (consumer : Fin m) (token : Nat)
  | recv (consumer : Fin m) (token : Nat)
  | proceed (fence : Bool)
  | release
  | register (task : Task m)
  | tick (now : Nat)

section System

variable {n m : Nat} {K R : Type} [DecidableEq K] [DecidableEq R]

def startProducer (producer : Fin n) (claiming : Bool) : Request n m → Option (Prog (State n m K R) (Label n m))
  | .publish frames => some do
      publishContiguous producer frames
      pure (.producer claiming)
  | .enterClaim => if claiming then none else some do
      let entered ← enterClaim producer
      pure (.producer entered)
  | .leaveClaim => if claiming then some do
      leaveClaim producer
      pure (.producer false)
    else none
  | .tick now => some do
      .store fun state => {state with clock := max state.clock now}
      pure (.producer claiming)
  | _ => none

def nextPass (setup : Setup) (handle : K) (consumer : Fin m) (token : Nat) (fence : Bool) :
    Step n → Option (Prog (State n m K R) (Step n))
  | .retry spins => some (beginPass handle consumer token spins fence)
  | .scan pass now => some (scanPass setup handle consumer token pass now)
  | .park pass => some (futexWait handle consumer token pass)
  | .sleep pass => some (resume handle consumer token pass)
  | .done _ => none

def recordEntry (consumer : Fin m) : Prog (State n m K R) Entry :=
  .load fun state => ⟨state.slot consumer, state.changes consumer, state.active⟩

def armTicket (handle : K) (consumer : Fin m) (token : Nat) (fence : Bool) : Prog (State n m K R) (Label n m) := do
  let entry ← recordEntry consumer
  let result ← tryArmWaitNotification handle consumer token fence
  pure (.armed consumer token entry result)

/-- A handle starts a call when it is not inside a receive. -/
def startCall (handle : K) : Request n m → Option (Prog (State n m K R) (Label n m))
  | .arm consumer token fence => some (armTicket handle consumer token fence)
  | .clear consumer token => some do
      clearWaitNotification handle consumer token
      pure .handle
  | .recv consumer token => some do
      let entry ← recordEntry consumer
      pure (.receive consumer token entry (.retry 0))
  | _ => none

def startHandle (setup : Setup) (handle : K) :
    Label n m → Request n m → Option (Prog (State n m K R) (Label n m))
  | .handle, request => startCall handle request
  | .armed .., request => startCall handle request
  | .receive _ _ _ (.done (.message producer frame)), .release => some do
      .store fun state => state.setReceiver handle (Receiver.consume producer frame)
      pure .handle
  | .receive _ _ _ (.done _), request => startCall handle request
  | .receive consumer token entry step, .proceed fence =>
      (nextPass setup handle consumer token fence step).map fun pass => do
        let next ← pass
        pure (.receive consumer token entry next)
  | _, _ => none

def runTask : Task m → Prog (State n m K R) (Option (Fin m × Nat))
  | .acquire pid alive => acquireConsumer pid alive
  | .release consumer token => do
      releaseConsumer consumer token
      pure none

def startRegistrar (registrar : R) : Label n m → Request n m → Option (Prog (State n m K R) (Label n m))
  | .outside, .register task => some (pure (.contending task))
  | .registered _, .register task => some (pure (.contending task))
  | .contending task, .proceed _ => some do
      let taken ← tryTakeGate (.registrar registrar)
      if taken then
        let result ← runTask task
        releaseGate (.registrar registrar)
        pure (.registered result)
      else
        pure (.contending task)
  | _, _ => none

def start (setup : Setup) : Thread n K R → Label n m → Request n m → Option (Prog (State n m K R) (Label n m))
  | .producer producer, .producer claiming, request => startProducer producer claiming request
  | .handle handle, label, request => startHandle setup handle label request
  | .registrar registrar, label, request => startRegistrar registrar label request
  | _, _, _ => none

def system (setup : Setup) : System (State n m K R) (Thread n K R) (Label n m) (Request n m) := ⟨start setup⟩

/-- The slots may hold registrations from before. -/
def initial (slot : Fin m → Nat) : Config (State n m K R) (Thread n K R) (Label n m) :=
  ⟨{slot := slot}, fun
    | .producer _ => .ret (.producer false)
    | .handle _ => .ret .handle
    | .registrar _ => .ret .outside⟩

end System

end Salias.Notification
