import Salias.FastRing.Ring
import Salias.Queue.Bounded

/-
The producer and the consumer of a flow share a ring of bytes and two positions. Each side keeps a copy of the
position of the other and reads the position itself only when the copy does not help.
-/

namespace Salias.Flow

open Concurrent Salias.Frame
open SharedHybridMpsc (isPowerOfTwo)

inductive FlowError where
  | BackPressured
  | MessageTooLarge
  deriving DecidableEq

/-- A ring whose mapping `MagicRing::create` accepts. -/
structure MagicRing where
  capacity : Nat
  singleBit : isPowerOfTwo capacity = true
  bounded : capacity < 2 ^ 64

/-- Contiguous addresses of the double mapping. -/
structure Span where
  offset : Nat := 0
  length : Nat := 0
  deriving DecidableEq

structure Claim where
  payload : Span
  startPos : UInt64
  payloadLen : UInt32
  word : Nat
  deriving DecidableEq

structure Message where
  payload : Span := {}
  position : UInt64 := 0
  nextPosition : UInt64 := 0
  word : Nat := 0
  deriving DecidableEq

/-- The shared words and the members of both sides. `draft`, `lent` and `history` are history: the bytes that the
span of the last claim should hold, the last polled message, and the observed calls. -/
structure State where
  memory : Circular.Bytes
  producerPos : UInt64
  consumerPos : UInt64
  cachedHead : UInt64 := 0
  localHead : UInt64
  flushedHead : UInt64
  cachedTail : UInt64 := 0
  draft : List UInt8 := []
  lent : Message := {}
  history : List (Queue.Action (List UInt8)) := []

variable (ring : MagicRing)

namespace MagicRing

def mask : UInt64 := UInt64.ofNat (ring.capacity - 1)

/-- The empty span answers a length that no lap of the ring holds. -/
def slice (position : UInt64) (length : Nat) : Span :=
  if ring.capacity < length then {} else ⟨(position &&& ring.mask).toNat, length⟩

/-- The number of trailing zero bits of a power of two. -/
def capShift : Nat := ring.capacity.log2

end MagicRing

namespace State

/-- The bytes that a span shows. -/
def bytes (state : State) (span : Span) : List UInt8 :=
  Circular.read ring.capacity state.memory span.offset span.length

def note (state : State) (action : Queue.Action (List UInt8)) : State :=
  {state with history := state.history ++ [action]}

end State

/-- The generation of a position counts the laps before it. -/
def standardMeta (startPos : UInt64) : Nat :=
  let generation :=
    if isPowerOfTwo ring.capacity then startPos.toNat >>> ring.capShift else startPos.toNat / ring.capacity
  ((generation &&& 0x00FFFFFF) <<< 8) ||| FLAG_BEGIN ||| FLAG_END ||| FLAG_COMMITTED

def hasCapacity (tail head : UInt64) (need : Nat) : Bool :=
  let used := (tail - head).toNat
  used ≤ ring.capacity && need ≤ ring.capacity - used

section Producer

/-- The claim leaves room for the header, which the commit writes. -/
def reserve (tail : UInt64) (payloadLen : UInt32) : Prog State (Except FlowError Claim) := do
  let claim := ⟨ring.slice (tail + 8) payloadLen.toNat, tail, payloadLen, standardMeta ring tail⟩
  Prog.store fun state => {state with draft := state.bytes ring claim.payload}
  pure (.ok claim)

/-- The load of the consumer position decides whether the claim is refused. -/
def refreshHead (tail : UInt64) (need : Nat) : Prog State UInt64 :=
  .modifyGet State.consumerPos fun state =>
    let fresh := {state with cachedHead := state.consumerPos}
    if hasCapacity ring tail state.consumerPos need then fresh else fresh.note (.refuse need)

def claim (payloadLen : UInt32) : Prog State (Except FlowError Claim) := do
  let need := frameLen payloadLen.toNat false
  if ring.capacity < need then
    pure (.error .MessageTooLarge)
  else
    let tail ← .load State.producerPos
    let cachedHead ← .load State.cachedHead
    if hasCapacity ring tail cachedHead need then
      reserve ring tail payloadLen
    else
      let head ← refreshHead ring tail need
      if hasCapacity ring tail head need then
        reserve ring tail payloadLen
      else
        pure (.error .BackPressured)

/-- The user writes payload bytes through the span of the claim. -/
def writePayload (claim : Claim) (offset : Nat) (data : List UInt8) : Prog State Unit :=
  .store fun state =>
    if offset + data.length ≤ claim.payload.length then
      {state with
        memory := Circular.write ring.capacity state.memory (claim.payload.offset + offset) data
        draft := FastRing.splice state.draft offset data}
    else state

def writeHeader (claim : Claim) : Prog State Unit :=
  .store fun state =>
    let header := packHeader claim.payloadLen.toNat claim.word
    {state with
      memory := Circular.storeWord ring.capacity state.memory (ring.slice claim.startPos kHeaderSize).offset header}

def publishTail (claim : Claim) : Prog State Unit :=
  .store fun state =>
    let next := claim.startPos + UInt64.ofNat (frameLen claim.payloadLen.toNat false)
    {state with producerPos := next}.note (.push state.draft)

def commit (claim : Claim) : Prog State Unit := do
  writeHeader ring claim
  publishTail claim

end Producer

section Consumer

/-- The message of a frame, as its header tells. -/
def State.message (state : State) (head : UInt64) : Message :=
  let header := Circular.loadWord ring.capacity state.memory (ring.slice head kHeaderSize).offset
  let len := headerPayloadLen header
  ⟨ring.slice (head + 8) len, head, head + UInt64.ofNat (frameLen len false), headerMeta header⟩

def readFrame (head : UInt64) : Prog State (Option Message) :=
  .modifyGet (fun state => some (state.message ring head)) fun state =>
    let message := state.message ring head
    {state with lent := message}.note (.front (state.bytes ring message.payload))

def refreshTail (head : UInt64) : Prog State UInt64 :=
  .modifyGet State.producerPos fun state =>
    let fresh := {state with cachedTail := state.producerPos}
    if head = state.producerPos then fresh.note .vacant else fresh

def poll : Prog State (Option Message) := do
  let head ← .load State.localHead
  let cachedTail ← .load State.cachedTail
  if cachedTail ≤ head then
    let tail ← refreshTail head
    if head = tail then
      pure none
    else
      readFrame ring head
  else
    readFrame ring head

/-- The store that lets the producer use the bytes again. -/
def publishHead (localHead : UInt64) : Prog State Unit :=
  .store fun state =>
    {state with consumerPos := localHead, flushedHead := localHead}.note (.pop (state.bytes ring state.lent.payload))

def flush : Prog State Unit := do
  let localHead ← .load State.localHead
  let flushedHead ← .load State.flushedHead
  .when (localHead ≠ flushedHead) (publishHead ring localHead)

def advance (newHead : UInt64) : Prog State Unit := do
  Prog.store fun state => {state with localHead := newHead}
  flush ring

end Consumer

inductive Thread where
  | producer
  | consumer
  deriving DecidableEq

inductive Request where
  | claim (payloadLen : UInt32)
  | write (offset : Nat) (data : List UInt8)
  | commit
  | poll
  | advance
  deriving DecidableEq

/-- What a side holds between its calls. -/
inductive Label where
  | ready
  | refused (error : FlowError)
  | claimed (claim : Claim)
  | empty
  | polled (message : Message)
  deriving DecidableEq

def claimLabel : Except FlowError Claim → Label
  | .error error => .refused error
  | .ok claim => .claimed claim

def pollLabel : Option Message → Label
  | none => .empty
  | some message => .polled message

/-- A claim is committed before the next claim, and a message that has been polled may be advanced past. -/
def start : Thread → Label → Request → Option (Prog State Label)
  | .producer, .claimed claim, .write offset data =>
      some ((writePayload ring claim offset data).bind fun _ => .ret (.claimed claim))
  | .producer, .claimed claim, .commit => some ((commit ring claim).bind fun _ => .ret .ready)
  | .producer, .claimed _, _ => none
  | .producer, _, .claim payloadLen => some ((claim ring payloadLen).bind fun result => .ret (claimLabel result))
  | .consumer, _, .poll => some ((poll ring).bind fun result => .ret (pollLabel result))
  | .consumer, .polled message, .advance => some ((advance ring message.nextPosition).bind fun _ => .ret .ready)
  | _, _, _ => none

def system : System State Thread Label Request := ⟨start ring⟩

/-- A producer and a consumer are new at an empty ring, which may hold any bytes and begin at any position. -/
def initial (memory : Circular.Bytes) (position : UInt64) : Config State Thread Label :=
  ⟨{memory, producerPos := position, consumerPos := position, localHead := position, flushedHead := position},
    fun _ => .ret .ready⟩

end Salias.Flow
