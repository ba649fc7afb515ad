import Salias.Concurrent.RelyGuarantee
import Salias.Registration.Token
import Mathlib.Data.List.FinRange
import Mathlib.Data.List.Rotate

/-
The words through which producers wake blocked receivers: the sticky activation, the tickets, the epoch and
the futex on it. A ring is the list of its visible frames, and a receiver reads it by index.
-/

namespace Salias.Notification

open Concurrent ConsumerRegistration

inductive Thread (n : Nat) (K R : Type) where
  | producer (id : Fin n)
  | handle (id : K)
  | registrar (id : R)
  deriving DecidableEq

structure Frame where
  sequence : Nat
  expiresAt : Option Nat

/-- What a producer has done since it made a frame visible: it quits when nobody has activated the
notifications, else it passes the slots and takes tickets, whose owners it wakes in the end. -/
structure Notice (m : Nat) where
  quits : Bool := false
  passed : Fin m → Bool := fun _ => false
  taken : Fin m → Bool := fun _ => false
  bumped : Bool := false

/-- Where a receiver is in a pass with an armed ticket. -/
inductive Watch where
  | none
  | watching
  | checked
  deriving DecidableEq

/-- The members of a receiver. `watch`, `seen` and `scanned` are history: the stage of the current pass, the
number of epoch steps at its snapshot, and the rings that it has found without a deliverable frame. -/
structure Receiver (n : Nat) where
  readCounts : Fin n → Nat := fun _ => 0
  cachedVisible : Fin n → Nat := fun _ => 0
  expectedSequence : Nat := 0
  lastHitRing : Nat := 0
  watch : Watch := .none
  seen : Nat := 0
  scanned : Fin n → Bool := fun _ => false

/-- The shared words. `steps` counts the epoch increments; the epoch word holds its low 32 bits. History is
`notice`, what each producer has still to do for its visible frames; `changes`, how often a registration word
was written; `installing`, the ticket that a handle has installed and not yet validated; and `vacating`, the
token of an ended registration whose ticket is still to be removed. -/
structure State (n m : Nat) (K R : Type) where
  slot : Fin m → Nat := fun _ => 0
  ticket : Fin m → Nat := fun _ => 0
  active : Bool := false
  registrationGate : Option (Thread n K R) := none
  claimActive : Fin n → Bool := fun _ => false
  steps : Nat := 0
  visible : Fin n → List Frame := fun _ => []
  clock : Nat := 0
  asleep : K → Option Bool := fun _ => none
  receiver : K → Receiver n := fun _ => {}
  notice : Fin n → Option (Notice m) := fun _ => none
  changes : Fin m → Nat := fun _ => 0
  installing : K → Option (Fin m × Nat) := fun _ => none
  vacating : Fin m → Option Nat := fun _ => none

/-- The arguments of the model: the order of the channel. -/
structure Setup where
  ordered : Bool

section Words

variable {n m : Nat} {K R : Type}

namespace State

def epoch (state : State n m K R) : Nat := state.steps % 2 ^ 32

def setTicket (state : State n m K R) (consumer : Fin m) (word : Nat) : State n m K R :=
  {state with ticket := Function.update state.ticket consumer word}

/-- A write of a registration word. -/
def setSlot (state : State n m K R) (consumer : Fin m) (word : Nat) : State n m K R :=
  {state with
    slot := Function.update state.slot consumer word
    changes := Function.update state.changes consumer (state.changes consumer + 1)}

def setVacating (state : State n m K R) (consumer : Fin m) (token : Option Nat) : State n m K R :=
  {state with vacating := Function.update state.vacating consumer token}

def setNotice (state : State n m K R) (producer : Fin n) (change : Option (Notice m) → Option (Notice m)) :
    State n m K R :=
  {state with notice := Function.update state.notice producer (change (state.notice producer))}

variable [DecidableEq K]

def setInstalling (state : State n m K R) (handle : K) (ticket : Option (Fin m × Nat)) : State n m K R :=
  {state with installing := Function.update state.installing handle ticket}

def setReceiver (state : State n m K R) (handle : K) (change : Receiver n → Receiver n) : State n m K R :=
  {state with receiver := Function.update state.receiver handle (change (state.receiver handle))}

def setAsleep (state : State n m K R) (handle : K) (sleeps : Option Bool) : State n m K R :=
  {state with asleep := Function.update state.asleep handle sleeps}

end State

end Words

section Programs

variable {n m : Nat} {K R : Type} [DecidableEq K] [DecidableEq R]

def hasConsumer (consumer : Fin m) (token : Nat) : Prog (State n m K R) Bool :=
  .load fun state => decide (phase token = kActive ∧ state.slot consumer = token)

def needsWake : Prog (State n m K R) Bool := .load State.active

/-- One compare-exchange takes the gate when nobody holds it. -/
def tryTakeGate (thread : Thread n K R) : Prog (State n m K R) Bool :=
  .modifyGet (fun state => state.registrationGate.isNone) fun state =>
    if state.registrationGate.isNone then {state with registrationGate := some thread} else state

def releaseGate (thread : Thread n K R) : Prog (State n m K R) Unit :=
  .store fun state =>
    if state.registrationGate = some thread then {state with registrationGate := none} else state

/-- The first active claim ends the check of the claims. -/
def claimRound (_ : Unit) (producer : Fin n) : Prog (State n m K R) (Unit ⊕ Unit) := do
  let busy ← .load fun state => state.claimActive producer
  pure (if busy then .inr () else .inl ())

/-- `activate` is sticky. -/
def activate : Prog (State n m K R) Unit := do
  let current ← needsWake
  if current then
    pure ()
  else
    .store fun state => {state with active := true}

/-- The activation happens inside the gate, without waiting. The heavy fence may fail. -/
def tryActivate (handle : K) (fence : Bool) : Prog (State n m K R) Bool := do
  let taken ← tryTakeGate (.handle handle)
  if !taken then
    pure false
  else if !fence then
    releaseGate (.handle handle)
    pure false
  else
    let checked ← .foldUntil claimRound (List.finRange n) ()
    let claimsIdle := checked.isLeft
    .when claimsIdle activate
    releaseGate (.handle handle)
    if claimsIdle then
      needsWake
    else
      pure false

/-- The compare-exchange that installs a ticket; an own ticket counts as installed. -/
def installTicket (handle : K) (consumer : Fin m) (token : Nat) : Prog (State n m K R) Bool :=
  .modifyGet (fun state => decide (state.ticket consumer = 0 ∨ state.ticket consumer = token)) fun state =>
    if state.ticket consumer = 0 ∨ state.ticket consumer = token then
      (state.setTicket consumer token).setInstalling handle (some (consumer, token))
    else state

/-- The check of the token after the installation starts the watch of the rings. -/
def validateTicket (handle : K) (consumer : Fin m) (token : Nat) : Prog (State n m K R) Bool :=
  .modifyGet (fun state => decide (phase token = kActive ∧ state.slot consumer = token)) fun state =>
    if phase token = kActive ∧ state.slot consumer = token then
      (state.setInstalling handle none).setReceiver handle fun receiver =>
        {receiver with watch := .watching, scanned := fun _ => false}
    else state

/-- The compare-exchange that removes an own ticket. -/
def State.removeTicket (state : State n m K R) (consumer : Fin m) (token : Nat) : State n m K R :=
  if state.ticket consumer = token then state.setTicket consumer 0 else state

def cleanupTicket (handle : K) (consumer : Fin m) (token : Nat) : Prog (State n m K R) Unit :=
  .store fun state => (state.removeTicket consumer token).setInstalling handle none

/-- `none` stands for an invalid endpoint, `some false` for a busy gate. -/
def tryArmWaitNotification (handle : K) (consumer : Fin m) (token : Nat) (fence : Bool) :
    Prog (State n m K R) (Option Bool) := do
  let registered ← hasConsumer consumer token
  if !registered || token == 0 then
    pure none
  else
    let wakes ← needsWake
    let ready ← (if wakes then pure true else tryActivate handle fence)
    if !ready then
      pure (some false)
    else
      let registered ← hasConsumer consumer token
      if !registered then
        pure none
      else
        let armed ← installTicket handle consumer token
        if !armed then
          pure none
        else
          let registered ← validateTicket handle consumer token
          if registered then
            pure (some true)
          else
            cleanupTicket handle consumer token
            pure none

inductive WaitTicketState where
  | Invalid
  | Consumed
  | Armed
  deriving DecidableEq

/-- An armed ticket ends the watch. -/
def waitTicketState (handle : K) (consumer : Fin m) (token : Nat) : Prog (State n m K R) WaitTicketState := do
  let registered ← hasConsumer consumer token
  if !registered then
    pure .Invalid
  else
    let word ← .modifyGet (fun state => state.ticket consumer) fun state =>
      if state.ticket consumer = token then
        state.setReceiver handle fun receiver =>
          if receiver.watch = .watching then {receiver with watch := .checked} else receiver
      else state
    pure (if word = token then .Armed else if word = 0 then .Consumed else .Invalid)

/-- The end of the watch is history. -/
def clearWaitNotification (handle : K) (consumer : Fin m) (token : Nat) : Prog (State n m K R) Unit :=
  .store fun state => (state.removeTicket consumer token).setReceiver handle fun receiver =>
    {receiver with watch := .none}

/-- The next frame of a ring, when it is the one that the receiver waits for. -/
def State.next (setup : Setup) (state : State n m K R) (handle : K) (producer : Fin n) : Option Frame :=
  let receiver := state.receiver handle
  ((state.visible producer)[receiver.readCounts producer]?).filter fun frame =>
    !setup.ordered || frame.sequence == receiver.expectedSequence

/-- A ring without a deliverable frame enters the history. -/
def State.noteEmpty (setup : Setup) (state : State n m K R) (handle : K) (producer : Fin n) : State n m K R :=
  if (state.next setup handle producer).isNone then
    state.setReceiver handle fun receiver => {receiver with scanned := Function.update receiver.scanned producer true}
  else state

/-- The cached bound of a ring is read again only at its end. -/
def refreshVisible (setup : Setup) (handle : K) (producer : Fin n) : Prog (State n m K R) Bool := do
  let receiver ← .load fun state => state.receiver handle
  if receiver.cachedVisible producer ≤ receiver.readCounts producer then
    let visible ← .modifyGet (fun state => (state.visible producer).length) fun state =>
      (state.noteEmpty setup handle producer).setReceiver handle fun receiver => {receiver with
        cachedVisible := Function.update receiver.cachedVisible producer (state.visible producer).length}
    pure (decide (receiver.readCounts producer < visible))
  else
    pure true

/-- A frame moves the cursor; the scan starts over. -/
def Receiver.consume (producer : Fin n) (frame : Frame) (receiver : Receiver n) : Receiver n :=
  {receiver with
    readCounts := Function.update receiver.readCounts producer (receiver.readCounts producer + 1)
    expectedSequence := frame.sequence + 1
    scanned := fun _ => false}

/-- The clock is read at most once in a receive. -/
def isExpired (frame : Frame) (now : Option Nat) : Prog (State n m K R) (Bool × Option Nat) :=
  match frame.expiresAt with
  | none => pure (false, now)
  | some deadline =>
      match now with
      | some reading => pure (decide (deadline ≤ reading), now)
      | none => do
          let reading ← .load State.clock
          pure (decide (deadline ≤ reading), some reading)

inductive Visit (n : Nat) where
  | nothing (now : Option Nat)
  | skipped (now : Option Nat)
  | found (producer : Fin n) (frame : Frame)

def visitRing (setup : Setup) (handle : K) (now : Option Nat) (producer : Fin n) : Prog (State n m K R) (Visit n) := do
  let readable ← refreshVisible setup handle producer
  if readable then
    let next ← .modifyGet (fun state => state.next setup handle producer) fun state =>
      state.noteEmpty setup handle producer
    match next with
    | none => pure (.nothing now)
    | some frame =>
        let (expired, now) ← isExpired frame now
        if expired then
          .store fun state => state.setReceiver handle (Receiver.consume producer frame)
          pure (.skipped now)
        else
          .store fun state => state.setReceiver handle fun receiver =>
            {receiver with lastHitRing := (producer.val + 1) % n}
          pure (.found producer frame)
  else
    pure (.nothing now)

def scanRound (setup : Setup) (handle : K) (now : Option Nat) (producer : Fin n) :
    Prog (State n m K R) (Option Nat ⊕ Visit n) := do
  let visited ← visitRing setup handle now producer
  match visited with
  | .nothing now => pure (.inl now)
  | stop => pure (.inr stop)

/-- One scan of all rings. -/
def scanRings (setup : Setup) (handle : K) (now : Option Nat) : Prog (State n m K R) (Visit n) := do
  let receiver ← .load fun state => state.receiver handle
  let scanned ← .foldUntil (scanRound setup handle) ((List.finRange n).rotate receiver.lastHitRing) now
  match scanned with
  | .inl now => pure (.nothing now)
  | .inr visit => pure visit

/-- `wake` wakes every sleeper, armed or not. -/
def wakeAll (producer : Fin n) : Prog (State n m K R) Unit :=
  .store fun state => {state.setNotice producer (Option.map fun notice => {notice with taken := fun _ => false}) with
    asleep := fun _ => none}

def bumpEpoch (producer : Fin n) (consumed : Bool) : Prog (State n m K R) Unit :=
  .store fun state => {state.setNotice producer (Option.map fun notice =>
    if consumed then {notice with bumped := true} else notice) with
    steps := state.steps + 1}

/-- The producer is done with a slot. -/
def State.pass (state : State n m K R) (producer : Fin n) (consumer : Fin m) : State n m K R :=
  state.setNotice producer (Option.map fun notice =>
    {notice with passed := Function.update notice.passed consumer true})

/-- The ticket of a slot is taken only for its active registration. -/
def wakeRound (producer : Fin n) (consumed : Bool) (consumer : Fin m) : Prog (State n m K R) (Bool ⊕ Empty) := do
  let registration ← .modifyGet (fun state => state.slot consumer) fun state =>
    if phase (state.slot consumer) = kActive then state else state.pass producer consumer
  if phase registration ≠ kActive then
    pure (.inl consumed)
  else
    let observed ← .modifyGet (fun state => state.ticket consumer) fun state =>
      if state.ticket consumer = 0 ∨ state.ticket consumer ≠ registration then state.pass producer consumer
      else state
    if observed = 0 ∨ observed ≠ registration then
      pure (.inl consumed)
    else
      let taken ← .modifyGet (fun state => decide (state.ticket consumer = registration)) fun state =>
        if state.ticket consumer = registration then
          ((state.setTicket consumer 0).pass producer consumer).setNotice producer (Option.map fun notice =>
            {notice with taken := Function.update notice.taken consumer true})
        else state.pass producer consumer
      pure (.inl (consumed || taken))

/-- The epoch moves at once, and once more before the wake when a ticket was taken. -/
def wakeConsumer (producer : Fin n) : Prog (State n m K R) Unit := do
  let wakes ← .modifyGet State.active fun state =>
    if state.active then state
    else state.setNotice producer (Option.map fun notice => {notice with quits := true})
  if wakes then
    bumpEpoch producer false
    let scanned ← .foldUntil (wakeRound producer) (List.finRange m) false
    if scanned.elim id Empty.elim then
      bumpEpoch producer true
      wakeAll producer
  else
    pure ()

/-- A commit that extends the visible frames wakes the receivers; the notice lasts until it returns. -/
def publishContiguous (producer : Fin n) (frames : List Frame) : Prog (State n m K R) Unit := do
  if frames.isEmpty then
    pure ()
  else
    .store fun state => {state.setNotice producer (fun _ => some {}) with
      visible := Function.update state.visible producer (state.visible producer ++ frames)}
    wakeConsumer producer
    .store fun state => state.setNotice producer fun _ => none

/-- The entry of the critical section of a claim. -/
def enterClaim (producer : Fin n) : Prog (State n m K R) Bool := do
  let closed ← .load fun state => state.registrationGate.isSome
  if closed then
    pure false
  else
    .store fun state => {state with claimActive := Function.update state.claimActive producer true}
    let closed ← .load fun state => state.registrationGate.isSome
    if closed then
      .store fun state => {state with claimActive := Function.update state.claimActive producer false}
      pure false
    else
      pure true

def leaveClaim (producer : Fin n) : Prog (State n m K R) Unit :=
  .store fun state => {state with claimActive := Function.update state.claimActive producer false}

end Programs

end Salias.Notification
