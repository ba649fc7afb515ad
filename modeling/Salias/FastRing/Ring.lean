import Salias.Channel.Setup
import Salias.Concurrent.Program
import Mathlib.Data.List.FinRange

/-
The four fast rings. Every producer owns a lane of slots; a slot carries the sequence word that publishes it.
A consumer reads one lane or scans many, and publishes what it has consumed of each lane through its own cursor.
-/

namespace Salias.FastRing

open Concurrent SharedHybridMpsc

inductive FastRingError where
  | ClaimOutstanding
  | BackPressured
  | NoOutstandingClaim
  | ReadOutstanding
  | Empty
  | NoOutstandingRead
  deriving DecidableEq

/-- `FastSpscRing`, `FastSpmcRing`, `FastMpscRing` and `FastMpmcRing`. -/
inductive Topology where
  | spsc
  | spmc
  | mpsc
  | mpmc
  deriving DecidableEq

/-- The lanes of the broadcast rings have a cursor for every consumer. -/
def Topology.broadcast : Topology → Bool
  | .spmc | .mpmc => true
  | .spsc | .mpsc => false

/-- The consumers of these rings scan many lanes. -/
def Topology.manyLanes : Topology → Bool
  | .mpsc | .mpmc => true
  | .spsc | .spmc => false

/-- The template arguments of a ring with `p` producers and `c` consumers. -/
structure Setup (p c : Nat) where
  topology : Topology
  payloadSize : Nat
  capacity : Nat
  payload : 0 < payloadSize
  slots : 2 ≤ capacity
  singleBit : isPowerOfTwo capacity = true
  producers : 0 < p
  consumers : 0 < c
  oneLane : topology.manyLanes = false → p = 1
  oneConsumer : topology.broadcast = false → c = 1

structure Slot where
  sequence : Nat := 0
  payload : List UInt8 := []
  deriving DecidableEq

/-- The shared words of one lane. `committed` is history: the payloads in the order of their commits. -/
structure Lane (c : Nat) where
  slot : Nat → Slot := fun _ => {}
  consumed : Fin c → Nat := fun _ => 0
  committed : List (List UInt8) := []

structure Producer where
  published : Nat := 0
  cache : Nat := 0
  claimOutstanding : Bool := false

/-- A consumer of one lane uses neither the lane pointer nor the batch. -/
structure Consumer (p : Nat) where
  consumed : Fin p → Nat := fun _ => 0
  dirty : Fin p → Bool := fun _ => false
  activeLane : Option (Fin p) := none
  nextLane : Nat := 0
  remainingLaneBatch : Nat := 0

/-- The ring and the handles. `reads` is history: the position and the payload of every message that the
consumers of an index have read from a lane. -/
structure State (p c : Nat) where
  lane : Fin p → Lane c
  producer : Fin p → Producer := fun _ => {}
  consumer : Fin c → Consumer p := fun _ => {}
  reads : Fin c → Fin p → List (Nat × List UInt8) := fun _ _ => []

namespace State

variable {p c : Nat}

def setLane (state : State p c) (lane : Fin p) (change : Lane c → Lane c) : State p c :=
  {state with lane := Function.update state.lane lane (change (state.lane lane))}

def setProducer (state : State p c) (lane : Fin p) (change : Producer → Producer) : State p c :=
  {state with producer := Function.update state.producer lane (change (state.producer lane))}

def setConsumer (state : State p c) (consumer : Fin c) (change : Consumer p → Consumer p) : State p c :=
  {state with consumer := Function.update state.consumer consumer (change (state.consumer consumer))}

/-- The history of a read. -/
def note (state : State p c) (consumer : Fin c) (lane : Fin p) (read : Nat × List UInt8) : State p c :=
  {state with
    reads := Function.update state.reads consumer
      (Function.update (state.reads consumer) lane (state.reads consumer lane ++ [read]))}

end State

section Programs

variable {p c : Nat} (setup : Setup p c)

namespace Setup

def firstConsumer : Fin c := ⟨0, setup.consumers⟩
def firstLane : Fin p := ⟨0, setup.producers⟩

/-- The mask form `position & (Capacity - 1)` of the source. -/
def slotIndex (position : Nat) : Nat := position &&& (setup.capacity - 1)

def kLaneBatch : Nat := if setup.capacity < 64 then setup.capacity else 64

end Setup

/-- A cache beyond the published position wraps around to more than any capacity. -/
def ringFull (capacity published cache : Nat) : Bool := published < cache || capacity ≤ published - cache

def loadConsumed (lane : Fin p) (consumer : Fin c) : Prog (State p c) Nat :=
  .load fun state => (state.lane lane).consumed consumer

def slowestRound (lane : Fin p) (slowest : Nat) (consumer : Fin c) : Prog (State p c) (Nat ⊕ Empty) := do
  let consumed ← loadConsumed lane consumer
  pure (.inl (min slowest consumed))

def loadSlowest (lane : Fin p) : Prog (State p c) Nat := do
  let scanned ← .foldUntil (slowestRound lane) (List.finRange c) kMax
  pure (scanned.elim id Empty.elim)

/-- The progress that frees slots: the cursor of the only consumer, or the slowest cursor. -/
def refreshCache (lane : Fin p) : Prog (State p c) Nat :=
  if setup.topology.broadcast then loadSlowest lane else loadConsumed lane setup.firstConsumer

def setProducer (lane : Fin p) (change : Producer → Producer) : Prog (State p c) Unit :=
  .store fun state => state.setProducer lane change

/-- The claim hands out the payload of the slot at the published position. -/
def openClaim (lane : Fin p) : Prog (State p c) (Except FastRingError Unit) := do
  setProducer lane fun handle => {handle with claimOutstanding := true}
  pure (.ok ())

def tryClaim (lane : Fin p) : Prog (State p c) (Except FastRingError Unit) := do
  let handle ← .load fun state => state.producer lane
  if handle.claimOutstanding then
    pure (.error .ClaimOutstanding)
  else if ringFull setup.capacity handle.published handle.cache then
    let cache ← refreshCache setup lane
    setProducer lane fun handle => {handle with cache := cache}
    if ringFull setup.capacity handle.published cache then
      pure (.error .BackPressured)
    else
      openClaim lane
  else
    openClaim lane

/-- New bytes at an offset of a payload. -/
def splice (payload : List UInt8) (offset : Nat) (data : List UInt8) : List UInt8 :=
  payload.take offset ++ data ++ payload.drop (offset + data.length)

/-- The user writes payload bytes through the span of an open claim. -/
def writePayload (lane : Fin p) (offset : Nat) (data : List UInt8) : Prog (State p c) Unit :=
  .store fun state =>
    let handle := state.producer lane
    let index := setup.slotIndex handle.published
    if handle.claimOutstanding ∧ offset + data.length ≤ setup.payloadSize then
      state.setLane lane fun ring =>
        let slot := ring.slot index
        {ring with slot := Function.update ring.slot index {slot with payload := splice slot.payload offset data}}
    else state

/-- The sequence word publishes the slot. -/
def publishSlot (lane : Fin p) : Prog (State p c) Unit :=
  .store fun state =>
    let position := (state.producer lane).published
    let index := setup.slotIndex position
    (state.setLane lane fun ring =>
      {ring with
        slot := Function.update ring.slot index {ring.slot index with sequence := position + 1}
        committed := ring.committed ++ [(ring.slot index).payload]}).setProducer lane fun handle =>
      {handle with published := position + 1, claimOutstanding := false}

def commit (lane : Fin p) : Prog (State p c) (Except FastRingError Unit) := do
  let handle ← .load fun state => state.producer lane
  if handle.claimOutstanding then
    publishSlot setup lane
    pure (.ok ())
  else
    pure (.error .NoOutstandingClaim)

/-- The next message of a lane is there when its slot carries the next sequence. -/
def State.readable (consumer : Fin c) (lane : Fin p) (state : State p c) : Bool :=
  let position := (state.consumer consumer).consumed lane
  ((state.lane lane).slot (setup.slotIndex position)).sequence == position + 1

/-- The load of a sequence word; a readable slot becomes the outstanding read. -/
def readSlot (begins : Consumer p → Consumer p) (consumer : Fin c) (lane : Fin p) : Prog (State p c) Bool :=
  .modifyGet (State.readable setup consumer lane) fun state =>
    if state.readable setup consumer lane then
      let position := (state.consumer consumer).consumed lane
      (state.setConsumer consumer fun handle => {begins handle with activeLane := some lane}).note consumer lane
        (position, ((state.lane lane).slot (setup.slotIndex position)).payload)
    else state

/-- `try_read` of a consumer with one lane. -/
def tryReadLane (consumer : Fin c) : Prog (State p c) (Except FastRingError (Fin p)) := do
  let handle ← .load fun state => state.consumer consumer
  if handle.activeLane.isSome then
    pure (.error .ReadOutstanding)
  else
    let found ← readSlot setup id consumer setup.firstLane
    pure (if found then .ok setup.firstLane else .error .Empty)

/-- A consumer of many lanes starts a batch when the last one is used up. -/
def Consumer.entersBatch (handle : Consumer p) : Consumer p :=
  {handle with
    remainingLaneBatch := if handle.remainingLaneBatch = 0 then setup.kLaneBatch else handle.remainingLaneBatch}

def scannedLane (nextLane scan : Nat) : Fin p := ⟨(nextLane + scan) % p, Nat.mod_lt _ setup.producers⟩

def scanRound (consumer : Fin c) (nextLane : Nat) (_ : Unit) (scan : Nat) : Prog (State p c) (Unit ⊕ Fin p) := do
  let lane := scannedLane setup nextLane scan
  let found ← readSlot setup (Consumer.entersBatch setup) consumer lane
  pure (if found then .inr lane else .inl ())

/-- `try_read` of a consumer with many lanes scans them once from its lane pointer on. -/
def tryReadLanes (consumer : Fin c) : Prog (State p c) (Except FastRingError (Fin p)) := do
  let handle ← .load fun state => state.consumer consumer
  if handle.activeLane.isSome then
    pure (.error .ReadOutstanding)
  else
    let scanned ← .foldUntil (scanRound setup consumer handle.nextLane) (List.range p) ()
    pure (scanned.elim (fun _ => .error .Empty) .ok)

def publishConsumed (consumer : Fin c) (lane : Fin p) : Prog (State p c) Unit :=
  .store fun state =>
    let position := (state.consumer consumer).consumed lane
    (state.setLane lane fun ring =>
      {ring with consumed := Function.update ring.consumed consumer position}).setConsumer consumer fun handle =>
      {handle with dirty := Function.update handle.dirty lane false}

/-- The outstanding read ends. -/
def Consumer.released (lane : Fin p) (handle : Consumer p) : Consumer p :=
  {handle with
    consumed := Function.update handle.consumed lane (handle.consumed lane + 1)
    dirty := Function.update handle.dirty lane true
    activeLane := none}

/-- A consumer of many lanes leaves a lane after its batch. -/
def Consumer.releasedLane (lane : Fin p) (handle : Consumer p) : Consumer p :=
  let remaining := handle.remainingLaneBatch - 1
  {handle.released lane with
    remainingLaneBatch := remaining
    nextLane := if remaining = 0 then (lane.val + 1) % p else lane.val}

def releaseWith (ends : Fin p → Consumer p → Consumer p) (consumer : Fin c) (publish : Bool) :
    Prog (State p c) (Except FastRingError Unit) := do
  let handle ← .load fun state => state.consumer consumer
  match handle.activeLane with
  | none => pure (.error .NoOutstandingRead)
  | some lane =>
      Prog.store fun state => state.setConsumer consumer (ends lane)
      Prog.when publish (publishConsumed consumer lane)
      pure (.ok ())

/-- `flush_release` of a consumer with one lane. -/
def flushReleaseLane (consumer : Fin c) : Prog (State p c) (Except FastRingError Unit) := do
  let handle ← .load fun state => state.consumer consumer
  if handle.activeLane.isSome then
    pure (.error .ReadOutstanding)
  else
    publishConsumed consumer setup.firstLane
    pure (.ok ())

def flushRound (consumer : Fin c) (lane : Fin p) : Prog (State p c) Unit := do
  let handle ← .load fun state => state.consumer consumer
  .when (handle.dirty lane) (publishConsumed consumer lane)

/-- `flush_release` of a consumer with many lanes publishes the dirty ones. -/
def flushReleaseLanes (consumer : Fin c) : Prog (State p c) (Except FastRingError Unit) := do
  let handle ← .load fun state => state.consumer consumer
  if handle.activeLane.isSome then
    pure (.error .ReadOutstanding)
  else
    .forEach (flushRound consumer) (List.finRange p)
    pure (.ok ())

/-- The constructor of a consumer with one lane reads its cursor back; the one with many lanes starts at zero. -/
def recreated (state : State p c) (consumer : Fin c) : Consumer p :=
  if setup.topology.manyLanes then {} else {consumed := fun lane => (state.lane lane).consumed consumer}

def createConsumer (consumer : Fin c) : Prog (State p c) Unit :=
  .store fun state => state.setConsumer consumer fun _ => recreated setup state consumer

def tryRead (consumer : Fin c) : Prog (State p c) (Except FastRingError (Fin p)) :=
  if setup.topology.manyLanes then tryReadLanes setup consumer else tryReadLane setup consumer

def release (consumer : Fin c) (publish : Bool) : Prog (State p c) (Except FastRingError Unit) :=
  releaseWith (if setup.topology.manyLanes then Consumer.releasedLane else Consumer.released) consumer publish

def flushRelease (consumer : Fin c) : Prog (State p c) (Except FastRingError Unit) :=
  if setup.topology.manyLanes then flushReleaseLanes consumer else flushReleaseLane setup consumer

end Programs

inductive Thread (p c : Nat) where
  | producer (lane : Fin p)
  | consumer (index : Fin c)
  deriving DecidableEq

inductive Request where
  | tryClaim
  | write (offset : Nat) (data : List UInt8)
  | commit
  | tryRead
  | release (publish : Bool)
  | flushRelease
  | createConsumer
  deriving DecidableEq

/-- The result of the last call. -/
inductive Label (p : Nat) where
  | ready
  | returned (result : Except FastRingError Unit)
  | read (result : Except FastRingError (Fin p))

section System

variable {p c : Nat} (setup : Setup p c)

def start : Thread p c → Label p → Request → Option (Prog (State p c) (Label p))
  | .producer lane, _, .tryClaim => some ((tryClaim setup lane).bind fun result => .ret (.returned result))
  | .producer lane, _, .write offset data => some ((writePayload setup lane offset data).bind fun _ => .ret .ready)
  | .producer lane, _, .commit => some ((commit setup lane).bind fun result => .ret (.returned result))
  | .consumer consumer, _, .tryRead => some ((tryRead setup consumer).bind fun result => .ret (.read result))
  | .consumer consumer, _, .release publish =>
      some ((release setup consumer publish).bind fun result => .ret (.returned result))
  | .consumer consumer, _, .flushRelease =>
      some ((flushRelease setup consumer).bind fun result => .ret (.returned result))
  | .consumer consumer, _, .createConsumer => some ((createConsumer setup consumer).bind fun _ => .ret .ready)
  | _, _, _ => none

def system : System (State p c) (Thread p c) (Label p) Request := ⟨start setup⟩

/-- A new ring is zeroed, and every side has its handle. -/
def initial : Config (State p c) (Thread p c) (Label p) :=
  ⟨{lane := fun _ => {slot := fun _ => {payload := List.replicate setup.payloadSize 0}}}, fun _ => .ret .ready⟩

end System
end Salias.FastRing
