import Salias.Flow.Pair
import Salias.Concurrent.Outcome

/-
The flow is a bounded queue of payloads. The frames that the consumer has not advanced past stand unchanged between
its position and the position of the producer.
-/

namespace Salias.Flow

open Concurrent Salias.Frame
open SharedHybridMpsc (isPowerOfTwo isPowerOfTwo_iff)

/-- The bytes that a payload takes in the ring. -/
def frameSize (payload : List UInt8) : Nat := frameLen payload.length false

/-- The payloads that are committed and not advanced past. -/
abbrev State.waiting (state : State) : List (List UInt8) := Queue.waiting state.history

/-- A frame shows its payload, and its header gives the length and the metadata. -/
structure HoldsFrame (ring : MagicRing) (memory : Circular.Bytes) (position : UInt64) (payload : List UInt8) : Prop where
  small : payload.length < 2 ^ 32
  header : Circular.loadWord ring.capacity memory position.toNat =
    packHeader payload.length (standardMeta ring position)
  bytes : Circular.read ring.capacity memory (position.toNat + kHeaderSize) payload.length = payload

/-- The frames of the payloads stand one after the other. -/
def Stored (ring : MagicRing) (memory : Circular.Bytes) : UInt64 → List (List UInt8) → Prop
  | _, [] => True
  | position, payload :: rest => HoldsFrame ring memory position payload ∧
      Stored ring memory (position + UInt64.ofNat (frameSize payload)) rest

theorem frameSize_pos (payload : List UInt8) : 0 < frameSize payload := frameLen_pos payload.length false

variable {ring : MagicRing}

section Addresses

theorem MagicRing.capacity_pow (ring : MagicRing) : ∃ exponent, exponent < 64 ∧ ring.capacity = 2 ^ exponent := by
  obtain ⟨exponent, power⟩ := isPowerOfTwo_iff ring.singleBit
  have bounded := ring.bounded
  rw [power] at bounded
  exact ⟨exponent, (Nat.pow_lt_pow_iff_right (by decide)).mp bounded, power⟩

theorem MagicRing.capacity_dvd (ring : MagicRing) : ring.capacity ∣ 2 ^ 64 := by
  obtain ⟨exponent, below, power⟩ := ring.capacity_pow
  rw [power]
  exact Nat.pow_dvd_pow 2 below.le

/-- The mask takes a position modulo the capacity. -/
theorem slice_eq {length : Nat} (position : UInt64) (fits : length ≤ ring.capacity) :
    ring.slice position length = ⟨position.toNat % ring.capacity, length⟩ := by
  have bounded := ring.bounded
  obtain ⟨exponent, -, power⟩ := ring.capacity_pow
  rw [MagicRing.slice, if_neg (Nat.not_lt.mpr fits), MagicRing.mask, UInt64.toNat_and, UInt64.toNat_ofNat',
    Nat.mod_eq_of_lt (by omega), power, Nat.and_two_pow_sub_one_eq_mod]

/-- Positions that wrap around keep their offsets. -/
theorem offset_add (position : UInt64) (distance : Nat) :
    (position + UInt64.ofNat distance).toNat % ring.capacity = (position.toNat + distance) % ring.capacity := by
  rw [UInt64.toNat_add, UInt64.toNat_ofNat', Nat.add_mod_mod, Nat.mod_mod_of_dvd _ ring.capacity_dvd]

theorem read_slice {length : Nat} (state : State) (position : UInt64) (fits : length ≤ ring.capacity) :
    state.bytes ring (ring.slice position length) =
      Circular.read ring.capacity state.memory position.toNat length := by
  rw [State.bytes, slice_eq position fits]
  apply Circular.read_of_mod
  exact Nat.mod_mod _ _

/-- The payload of a frame begins behind its header. -/
theorem read_payload {length : Nat} (state : State) (position : UInt64) (fits : length ≤ ring.capacity) :
    state.bytes ring (ring.slice (position + 8) length) =
      Circular.read ring.capacity state.memory (position.toNat + kHeaderSize) length := by
  rw [read_slice state _ fits]
  apply Circular.read_of_mod
  exact offset_add position 8

end Addresses

section Frames

variable {memory : Circular.Bytes} {position : UInt64} {payload : List UInt8} {items : List (List UInt8)}

theorem standardMeta_lt (ring : MagicRing) (position : UInt64) : standardMeta ring position < 2 ^ 32 := by
  rw [standardMeta]
  generalize (if isPowerOfTwo ring.capacity = true then position.toNat >>> ring.capShift
    else position.toNat / ring.capacity) = generation
  have low : generation &&& 0x00FFFFFF < 2 ^ 24 := by
    rw [show (0x00FFFFFF : Nat) = 2 ^ 24 - 1 from rfl, Nat.and_two_pow_sub_one_eq_mod]
    exact Nat.mod_lt _ (by decide)
  have high : (generation &&& 0x00FFFFFF) <<< 8 < 2 ^ 32 := by
    rw [Nat.shiftLeft_eq]
    omega
  apply Nat.or_lt_two_pow
  · apply Nat.or_lt_two_pow
    · exact Nat.or_lt_two_pow high (by decide)
    · decide
  · decide

/-- A write outside of a frame keeps it. -/
theorem HoldsFrame.write (holds : HoldsFrame ring memory position payload) {start : Nat} {data : List UInt8}
    (apart : Circular.Apart ring.capacity start data.length position.toNat (frameSize payload)) :
    HoldsFrame ring (Circular.write ring.capacity memory start data) position payload := by
  have inside := payload_inside payload.length false
  have header : kHeaderSize = 8 := rfl
  rw [payloadOffset, if_neg (by decide)] at inside
  have covers : kHeaderSize + payload.length ≤ frameSize payload := inside
  constructor
  · exact holds.small
  · rw [← holds.header, Circular.loadWord, Circular.loadWord, Circular.read_write_apart]
    exact apart.mono le_rfl le_rfl le_rfl (by omega)
  · refine (Circular.read_write_apart memory start data ?_).trans holds.bytes
    exact apart.mono le_rfl le_rfl (by omega) (by omega)

/-- A write behind the frames stays inside the free part of the ring. -/
theorem Stored.write (stored : Stored ring memory position items) {start distance : Nat} {data : List UInt8}
    (place : start % ring.capacity = (position.toNat + distance) % ring.capacity)
    (behind : Queue.total frameSize items ≤ distance) (fits : distance + data.length ≤ ring.capacity) :
    Stored ring (Circular.write ring.capacity memory start data) position items := by
  induction items generalizing position distance with
  | nil => trivial
  | cons payload rest ih =>
      rw [Queue.total_cons] at behind
      obtain ⟨first, others⟩ := stored
      constructor
      · rw [Circular.write_of_mod memory data place]
        apply first.write
        apply Circular.Apart.symm
        exact .of_window (by omega) (by omega)
      · have shifted : position.toNat + distance =
            position.toNat + frameSize payload + (distance - frameSize payload) := by omega
        rw [shifted, ← Nat.ModEq.add_right _ (offset_add position (frameSize payload))] at place
        apply ih others place
        · omega
        · omega

theorem Stored.append (stored : Stored ring memory position items)
    (last : HoldsFrame ring memory (position + UInt64.ofNat (Queue.total frameSize items)) payload) :
    Stored ring memory position (items ++ [payload]) := by
  induction items generalizing position with
  | nil =>
      have same : position + UInt64.ofNat (Queue.total frameSize []) = position := by simp
      rw [same] at last
      exact ⟨last, trivial⟩
  | cons first rest ih =>
      apply And.intro stored.1
      apply ih stored.2
      rw [Queue.total_cons, UInt64.ofNat_add, ← UInt64.add_assoc] at last
      exact last

end Frames

section Positions

theorem toNat_sub_add {tail head : UInt64} {need : Nat} (fits : (tail - head).toNat + need < 2 ^ 64) :
    (tail + UInt64.ofNat need - head).toNat = (tail - head).toNat + need := by
  have first := tail.toNat_lt
  have second := head.toNat_lt
  simp only [UInt64.toNat_sub, UInt64.toNat_add, UInt64.toNat_ofNat'] at fits ⊢
  omega

theorem toNat_add_sub (position : UInt64) {distance : Nat} (small : distance < 2 ^ 64) :
    (position + UInt64.ofNat distance - position).toNat = distance := by
  have bound := position.toNat_lt
  simp only [UInt64.toNat_sub, UInt64.toNat_add, UInt64.toNat_ofNat']
  omega

theorem eq_zero_of_add {position : UInt64} {distance : Nat} (small : distance < 2 ^ 64)
    (same : position = position + UInt64.ofNat distance) : distance = 0 := by
  have width := toNat_add_sub position small
  rw [← same, UInt64.sub_self] at width
  exact width.symm

theorem hasCapacity_iff {tail head : UInt64} {need : Nat} :
    hasCapacity ring tail head need = true ↔ (tail - head).toNat + need ≤ ring.capacity := by
  simp only [hasCapacity, Bool.and_eq_true, decide_eq_true_eq]
  omega

end Positions

/-- Between the two positions stand the waiting payloads. The producer knows at least the bytes that they take, and
the consumer knows frames that are there. -/
structure Linked (ring : MagicRing) (state : State) : Prop where
  run : Queue.Run frameSize ring.capacity state.history state.waiting
  stored : Stored ring state.memory state.consumerPos state.waiting
  tail : state.producerPos = state.consumerPos + UInt64.ofNat (Queue.total frameSize state.waiting)
  known : Queue.total frameSize state.waiting ≤ (state.producerPos - state.cachedHead).toNat
  seen : state.cachedTail = 0 ∨ ∃ fresh rest, state.waiting = fresh ++ rest ∧
    state.cachedTail = state.consumerPos + UInt64.ofNat (Queue.total frameSize fresh)
  flushed : state.flushedHead = state.consumerPos

/-- The producer holds a claim behind the last frame, and its span shows the draft. -/
structure Held (ring : MagicRing) (claim : Claim) (state : State) : Prop where
  start : claim.startPos = state.producerPos
  payload : claim.payload = ring.slice (state.producerPos + 8) claim.payloadLen.toNat
  word : claim.word = standardMeta ring state.producerPos
  room : (state.producerPos - state.cachedHead).toNat + frameLen claim.payloadLen.toNat false ≤ ring.capacity
  copied : state.bytes ring claim.payload = state.draft

/-- The message of a payload at a position. -/
def messageOf (ring : MagicRing) (position : UInt64) (payload : List UInt8) : Message :=
  ⟨ring.slice (position + 8) payload.length, position, position + UInt64.ofNat (frameSize payload),
    standardMeta ring position⟩

/-- The consumer knows the frame of a payload at its position. -/
structure Sees (state : State) (payload : List UInt8) : Prop where
  fresh : ∃ fresh rest, state.waiting = payload :: (fresh ++ rest) ∧
    state.cachedTail = state.consumerPos + UInt64.ofNat (Queue.total frameSize (payload :: fresh))

/-- The consumer holds the message of the frame at its position. -/
def Lent (ring : MagicRing) (message : Message) (state : State) : Prop :=
  state.lent = message ∧ ∃ payload, Sees state payload ∧ message = messageOf ring state.consumerPos payload

/-- The producer leaves the words of the consumer and the waiting payloads. -/
structure ProducerStep (before after : State) : Prop where
  consumerPos : after.consumerPos = before.consumerPos
  localHead : after.localHead = before.localHead
  flushedHead : after.flushedHead = before.flushedHead
  cachedTail : after.cachedTail = before.cachedTail
  lent : after.lent = before.lent
  waiting : before.waiting <+: after.waiting

/-- The consumer leaves the words of the producer and the bytes. -/
structure ConsumerStep (before after : State) : Prop where
  memory : after.memory = before.memory
  producerPos : after.producerPos = before.producerPos
  cachedHead : after.cachedHead = before.cachedHead
  draft : after.draft = before.draft

variable (ring) in
/-- What a side knows between its calls. -/
def Rests : Thread → Label → State → Prop
  | .producer, .claimed claim, state => Held ring claim state
  | .producer, _, _ => True
  | .consumer, .polled message, state => state.localHead = state.consumerPos ∧ Lent ring message state
  | .consumer, _, state => state.localHead = state.consumerPos

def Changes : Thread → State → State → Prop
  | .producer => ProducerStep
  | .consumer => ConsumerStep

variable (ring) in
def discipline : Discipline State Thread Label where
  invariant := Linked ring
  may _ _ := True
  rely
    | .producer => ConsumerStep
    | .consumer => ProducerStep
  guarantee := Changes
  label := Rests ring

section Steps

variable {state : State} {claim : Claim}

/-- An observed call that the queue allows is a step of the queue. -/
theorem Linked.observe (linked : Linked ring state) (after : State) {action : Queue.Action (List UInt8)} {items : List (List UInt8)}
    (taken : Queue.Step frameSize ring.capacity state.waiting action items)
    (noted : after.history = state.history ++ [action]) :
    Queue.Run frameSize ring.capacity after.history after.waiting ∧ after.waiting = items := by
  have run := Queue.Run.step linked.run taken
  have same : after.waiting = items := by
    rw [← noted] at run
    exact run.waiting_eq
  rw [noted, same]
  exact ⟨run, rfl⟩

theorem Linked.total_lt (linked : Linked ring state) : Queue.total frameSize state.waiting < 2 ^ 64 :=
  linked.run.bounded.trans_lt ring.bounded

theorem Linked.used (linked : Linked ring state) :
    (state.producerPos - state.consumerPos).toNat = Queue.total frameSize state.waiting := by
  rw [linked.tail]
  exact toNat_add_sub _ linked.total_lt

section Producer

theorem ProducerStep.refl (state : State) : ProducerStep state state :=
  ⟨rfl, rfl, rfl, rfl, rfl, List.prefix_rfl⟩

theorem ProducerStep.trans {first second third : State} (one : ProducerStep first second)
    (two : ProducerStep second third) : ProducerStep first third :=
  ⟨two.consumerPos.trans one.consumerPos, two.localHead.trans one.localHead, two.flushedHead.trans one.flushedHead,
    two.cachedTail.trans one.cachedTail, two.lent.trans one.lent, one.waiting.trans two.waiting⟩

theorem Held.stable (held : Held ring claim state) {after : State} (step : ConsumerStep state after) : Held ring claim after := by
  obtain ⟨memory, producerPos, cachedHead, draft⟩ := step
  constructor
  · rw [producerPos]
    exact held.start
  · rw [producerPos]
    exact held.payload
  · rw [producerPos]
    exact held.word
  · rw [producerPos, cachedHead]
    exact held.room
  · rw [draft, State.bytes, memory]
    exact held.copied

/-- The payload of a claim lies inside its frame. -/
theorem Held.covers (held : Held ring claim state) :
    8 + claim.payloadLen.toNat ≤ frameLen claim.payloadLen.toNat false ∧
      frameLen claim.payloadLen.toNat false ≤ ring.capacity := by
  have inside := payload_inside claim.payloadLen.toNat false
  rw [payloadOffset, if_neg (by decide)] at inside
  have room := held.room
  constructor
  · exact inside
  · omega

theorem Held.span (held : Held ring claim state) :
    claim.payload = ⟨(state.producerPos + 8).toNat % ring.capacity, claim.payloadLen.toNat⟩ := by
  obtain ⟨inside, fits⟩ := held.covers
  rw [held.payload]
  apply slice_eq
  omega

theorem Held.length (held : Held ring claim state) : state.draft.length = claim.payloadLen.toNat := by
  rw [← held.copied, State.bytes, Circular.length_read, held.span]

/-- The span of the claim, by the positions of the ring. -/
theorem Held.read (held : Held ring claim state) :
    Circular.read ring.capacity state.memory (state.producerPos.toNat + kHeaderSize) claim.payloadLen.toNat =
      state.draft := by
  obtain ⟨inside, fits⟩ := held.covers
  rw [← held.copied, held.payload]
  apply Eq.symm
  apply read_payload
  omega

/-- Writes into the frame of the claim leave the waiting frames. -/
theorem Linked.write (linked : Linked ring state) (held : Held ring claim state) {start : Nat} (offset : Nat)
    {data : List UInt8} {draft : List UInt8}
    (place : start % ring.capacity = (state.producerPos.toNat + offset) % ring.capacity)
    (inside : offset + data.length ≤ frameLen claim.payloadLen.toNat false) :
    Linked ring {state with memory := Circular.write ring.capacity state.memory start data, draft := draft} := by
  refine ⟨linked.run, ?_, linked.tail, linked.known, linked.seen, linked.flushed⟩
  have known := linked.known
  have room := held.room
  have behind : start % ring.capacity =
      (state.consumerPos.toNat + (Queue.total frameSize state.waiting + offset)) % ring.capacity := by
    rw [place, linked.tail, ← Nat.add_assoc]
    exact Nat.ModEq.add_right offset (offset_add _ _)
  apply linked.stored.write behind
  · omega
  · omega

theorem held_reserve {payloadLen : UInt32}
    (room : hasCapacity ring state.producerPos state.cachedHead (frameLen payloadLen.toNat false) = true) :
    let claim : Claim := ⟨ring.slice (state.producerPos + 8) payloadLen.toNat, state.producerPos, payloadLen,
      standardMeta ring state.producerPos⟩
    Held ring claim {state with draft := state.bytes ring claim.payload} :=
  ⟨rfl, rfl, rfl, hasCapacity_iff.mp room, rfl⟩

/-- A refresh reads the exact number of used bytes, and a refused size does not fit beside them. -/
theorem Linked.refresh (linked : Linked ring state) (need : Nat) :
    let fresh : State := {state with cachedHead := state.consumerPos}
    let next := if hasCapacity ring state.producerPos state.consumerPos need then fresh else fresh.note (.refuse need)
    Linked ring next ∧ ProducerStep state next := by
  intro fresh next
  by_cases room : hasCapacity ring state.producerPos state.consumerPos need = true
  · have shape : next = fresh := if_pos room
    rw [shape]
    constructor
    · exact ⟨linked.run, linked.stored, linked.tail, linked.used.ge, linked.seen, linked.flushed⟩
    · exact ⟨rfl, rfl, rfl, rfl, rfl, List.prefix_rfl⟩
  · have shape : next = fresh.note (.refuse need) := if_neg room
    have full : ring.capacity < Queue.total frameSize state.waiting + need := by
      rw [hasCapacity_iff, linked.used] at room
      omega
    obtain ⟨run, same⟩ := linked.observe (fresh.note (.refuse need)) (.refuse full) rfl
    rw [shape]
    constructor
    · refine ⟨run, ?_, ?_, ?_, ?_, linked.flushed⟩
      all_goals rw [same]
      · exact linked.stored
      · exact linked.tail
      · exact linked.used.ge
      · exact linked.seen
    · refine ⟨rfl, rfl, rfl, rfl, rfl, ?_⟩
      exact ⟨[], by rw [same, List.append_nil]⟩

/-- The user replaces bytes of the draft. -/
theorem Held.writePayload (held : Held ring claim state) (linked : Linked ring state) {offset : Nat}
    {data : List UInt8} (inside : offset + data.length ≤ claim.payload.length) :
    let next : State := {state with
      memory := Circular.write ring.capacity state.memory (claim.payload.offset + offset) data
      draft := FastRing.splice state.draft offset data}
    Linked ring next ∧ Held ring claim next := by
  obtain ⟨covers, fits⟩ := held.covers
  have span := held.span
  have length : claim.payload.length = claim.payloadLen.toNat := by rw [span]
  constructor
  · apply linked.write held (8 + offset)
    · rw [span, ← Nat.add_assoc]
      apply Nat.ModEq.add_right
      exact (Nat.mod_mod _ _).trans (offset_add _ 8)
    · omega
  · refine ⟨held.start, held.payload, held.word, held.room, ?_⟩
    have copied := held.copied
    rw [State.bytes] at copied ⊢
    rw [FastRing.splice, ← copied]
    apply Circular.read_write_inside
    · exact inside
    · omega

/-- The header of the claim has been written. -/
def Sealed (ring : MagicRing) (claim : Claim) (state : State) : Prop :=
  Held ring claim state ∧ Circular.loadWord ring.capacity state.memory state.producerPos.toNat =
    packHeader claim.payloadLen.toNat (standardMeta ring state.producerPos)

theorem Held.writeHeader (held : Held ring claim state) (linked : Linked ring state) :
    let header := packHeader claim.payloadLen.toNat claim.word
    let next : State := {state with
      memory := Circular.storeWord ring.capacity state.memory (ring.slice claim.startPos kHeaderSize).offset header}
    Linked ring next ∧ Sealed ring claim next := by
  intro header next
  obtain ⟨covers, fits⟩ := held.covers
  have eight : kHeaderSize ≤ ring.capacity := by
    change 8 ≤ ring.capacity
    omega
  have place : (ring.slice claim.startPos kHeaderSize).offset % ring.capacity = state.producerPos.toNat % ring.capacity := by
    rw [slice_eq _ eight, held.start]
    exact Nat.mod_mod _ _
  have memory : next.memory = Circular.storeWord ring.capacity state.memory state.producerPos.toNat header :=
    Circular.write_of_mod _ _ place
  have small := claim.payloadLen.toNat_lt
  constructor
  · apply linked.write held 0 place
    rw [Circular.length_encode]
    omega
  constructor
  · refine ⟨held.start, held.payload, held.word, held.room, ?_⟩
    have copied := held.read
    have shown : next.bytes ring claim.payload = Circular.read ring.capacity next.memory
        (state.producerPos.toNat + kHeaderSize) claim.payloadLen.toNat := by
      rw [held.payload]
      apply read_payload
      omega
    rw [shown, memory, Circular.storeWord, Circular.read_write_apart]
    · exact copied
    · rw [Circular.length_encode]
      apply Circular.Apart.of_window
      · rfl
      · change state.producerPos.toNat + 8 + claim.payloadLen.toNat ≤ state.producerPos.toNat + ring.capacity
        omega
  · change Circular.loadWord ring.capacity next.memory state.producerPos.toNat = _
    rw [memory, Circular.loadWord_storeWord _ _ _ eight (packHeader_lt small _)]
    · rw [← held.word]
    · rw [held.word]
      exact standardMeta_lt ring _

/-- The published frame is the last one that waits. -/
theorem Linked.publishTail (linked : Linked ring state) (sealed_ : Sealed ring claim state) :
    let tail := claim.startPos + UInt64.ofNat (frameLen claim.payloadLen.toNat false)
    let next := ({state with producerPos := tail} : State).note (.push state.draft)
    Linked ring next ∧ ProducerStep state next := by
  obtain ⟨held, header⟩ := sealed_
  intro tail next
  have known := linked.known
  have room := held.room
  have bounded := ring.bounded
  have size : frameLen claim.payloadLen.toNat false = frameSize state.draft := by rw [frameSize, held.length]
  have moved : tail = state.producerPos + UInt64.ofNat (frameSize state.draft) := by rw [← size, ← held.start]
  have fits : Queue.total frameSize state.waiting + frameSize state.draft ≤ ring.capacity := by omega
  obtain ⟨run, same⟩ := linked.observe next (.push fits) rfl
  have frame : HoldsFrame ring state.memory state.producerPos state.draft := by
    constructor
    · rw [held.length]
      exact claim.payloadLen.toNat_lt
    · rw [held.length]
      exact header
    · rw [held.length]
      exact held.read
  constructor
  · refine ⟨run, ?_, ?_, ?_, ?_, linked.flushed⟩
    all_goals rw [same]
    · apply linked.stored.append
      rw [← linked.tail]
      exact frame
    · change tail = _
      rw [moved, linked.tail, Queue.total_append, UInt64.ofNat_add, ← UInt64.add_assoc]
      simp [next, State.note]
    · change _ ≤ (tail - state.cachedHead).toNat
      rw [moved, toNat_sub_add (by omega)]
      simp
      omega
    · rcases linked.seen with none | ⟨fresh, rest, split, cached⟩
      · exact .inl none
      · refine .inr ⟨fresh, rest ++ [state.draft], ?_, cached⟩
        rw [split, List.append_assoc]
  · refine ⟨rfl, rfl, rfl, rfl, rfl, ?_⟩
    rw [same]
    exact List.prefix_append _ _

end Producer

section Consumer

variable {payload : List UInt8} {message : Message}

theorem ConsumerStep.refl (state : State) : ConsumerStep state state := ⟨rfl, rfl, rfl, rfl⟩

theorem ConsumerStep.trans {first second third : State} (one : ConsumerStep first second)
    (two : ConsumerStep second third) : ConsumerStep first third :=
  ⟨two.memory.trans one.memory, two.producerPos.trans one.producerPos, two.cachedHead.trans one.cachedHead,
    two.draft.trans one.draft⟩

theorem Sees.stable (sees : Sees state payload) {after : State} (step : ProducerStep state after) :
    Sees after payload := by
  obtain ⟨fresh, rest, waits, cached⟩ := sees.fresh
  obtain ⟨more, extended⟩ := step.waiting
  refine ⟨fresh, rest ++ more, ?_, ?_⟩
  · rw [← extended, waits]
    simp
  · rw [step.cachedTail, step.consumerPos]
    exact cached

theorem Lent.stable (lent : Lent ring message state) {after : State} (step : ProducerStep state after) :
    Lent ring message after := by
  obtain ⟨noted, payload, sees, shape⟩ := lent
  refine ⟨step.lent.trans noted, payload, sees.stable step, ?_⟩
  rw [step.consumerPos]
  exact shape

/-- A frame at the consumer position holds its payload. -/
theorem Sees.frame (sees : Sees state payload) (linked : Linked ring state) :
    HoldsFrame ring state.memory state.consumerPos payload := by
  obtain ⟨fresh, rest, waits, -⟩ := sees.fresh
  have stored := linked.stored
  rw [waits] at stored
  exact stored.1

theorem Sees.fits (sees : Sees state payload) (linked : Linked ring state) :
    kHeaderSize + payload.length ≤ frameSize payload ∧ frameSize payload ≤ ring.capacity := by
  obtain ⟨fresh, rest, waits, -⟩ := sees.fresh
  have bounded := linked.run.bounded
  rw [waits, Queue.total_cons] at bounded
  constructor
  · exact payload_inside payload.length false
  · omega

/-- The span of the message shows the payload. -/
theorem Sees.shown (sees : Sees state payload) (linked : Linked ring state) :
    state.bytes ring (messageOf ring state.consumerPos payload).payload = payload := by
  obtain ⟨inside, fits⟩ := sees.fits linked
  refine (read_payload state state.consumerPos ?_).trans (sees.frame linked).bytes
  omega

/-- The header leads to the message of the payload. -/
theorem Sees.decoded (sees : Sees state payload) (linked : Linked ring state) :
    state.message ring state.consumerPos = messageOf ring state.consumerPos payload := by
  obtain ⟨inside, fits⟩ := sees.fits linked
  have frame := sees.frame linked
  have eight : kHeaderSize ≤ ring.capacity := by omega
  have header : Circular.loadWord ring.capacity state.memory (ring.slice state.consumerPos kHeaderSize).offset =
      packHeader payload.length (standardMeta ring state.consumerPos) := by
    rw [← frame.header, slice_eq _ eight, Circular.loadWord, Circular.loadWord]
    apply congrArg Circular.decode
    apply Circular.read_of_mod
    exact Nat.mod_mod _ _
  simp only [State.message, header, headerPayloadLen_packHeader frame.small, headerMeta_packHeader frame.small]
  rfl

/-- A position behind the known tail is the position of a frame. -/
theorem Linked.sees_of_lt (linked : Linked ring state) (before : state.consumerPos < state.cachedTail) :
    ∃ payload, Sees state payload := by
  rcases linked.seen with none | ⟨fresh, rest, waits, cached⟩
  · rw [none] at before
    exact absurd before UInt64.not_lt_zero
  · cases fresh with
    | nil =>
        have same : state.cachedTail = state.consumerPos := by simpa using cached
        rw [same] at before
        exact absurd before (UInt64.lt_irrefl _)
    | cons payload fresh => exact ⟨payload, ⟨fresh, rest, waits, cached⟩⟩

/-- A refresh finds the end of the queue or a frame. -/
theorem Linked.refreshTail (linked : Linked ring state) :
    let fresh : State := {state with cachedTail := state.producerPos}
    let next := if state.consumerPos = state.producerPos then fresh.note .vacant else fresh
    Linked ring next ∧ ConsumerStep state next ∧
      (state.consumerPos ≠ state.producerPos → ∃ payload, Sees next payload) := by
  intro fresh next
  have reached : fresh.cachedTail = fresh.consumerPos + UInt64.ofNat (Queue.total frameSize fresh.waiting) := linked.tail
  by_cases empty : state.consumerPos = state.producerPos
  · have shape : next = fresh.note .vacant := if_pos empty
    have none : state.waiting = [] := by
      apply Queue.eq_nil_of_total frameSize_pos
      apply eq_zero_of_add linked.total_lt
      exact empty.trans linked.tail
    have taken : Queue.Step frameSize ring.capacity state.waiting .vacant [] := by
      rw [none]
      exact .vacant
    obtain ⟨run, same⟩ := linked.observe (fresh.note .vacant) taken rfl
    rw [shape]
    rw [← none] at same
    refine ⟨⟨run, ?_, ?_, ?_, ?_, linked.flushed⟩, ⟨rfl, rfl, rfl, rfl⟩, fun other => absurd empty other⟩
    all_goals rw [same]
    · exact linked.stored
    · exact linked.tail
    · exact linked.known
    · exact .inr ⟨state.waiting, [], (List.append_nil _).symm, reached⟩
  · have shape : next = fresh := if_neg empty
    rw [shape]
    have knows : Linked ring fresh := ⟨linked.run, linked.stored, linked.tail, linked.known,
      .inr ⟨state.waiting, [], (List.append_nil _).symm, reached⟩, linked.flushed⟩
    refine ⟨knows, ⟨rfl, rfl, rfl, rfl⟩, fun _ => ?_⟩
    cases waits : state.waiting with
    | nil =>
        have same : state.producerPos = state.consumerPos := by
          have tail := linked.tail
          rw [waits] at tail
          simpa using tail
        exact absurd same.symm empty
    | cons payload rest =>
        refine ⟨payload, rest, [], ?_, ?_⟩
        · rw [List.append_nil]
          exact waits
        · rw [← waits]
          exact reached

/-- The observed payload is the next one of the queue. -/
theorem Linked.readFrame (linked : Linked ring state) (sees : Sees state payload)
    (decoded : state.message ring state.consumerPos = message) :
    let next := ({state with lent := message} : State).note (.front (state.bytes ring message.payload))
    Linked ring next ∧ ConsumerStep state next ∧ Lent ring message next := by
  intro next
  have shape : message = messageOf ring state.consumerPos payload := decoded.symm.trans (sees.decoded linked)
  obtain ⟨fresh, rest, waits, cached⟩ := sees.fresh
  have taken : Queue.Step frameSize ring.capacity state.waiting (.front (state.bytes ring message.payload))
      state.waiting := by
    rw [shape, sees.shown linked, waits]
    exact .front payload _
  obtain ⟨run, same⟩ := linked.observe next taken rfl
  refine ⟨⟨run, ?_, ?_, ?_, ?_, linked.flushed⟩, ⟨rfl, rfl, rfl, rfl⟩, rfl, payload, ⟨fresh, rest, ?_, cached⟩, shape⟩
  all_goals rw [same]
  · exact linked.stored
  · exact linked.tail
  · exact linked.known
  · exact linked.seen
  · exact waits

/-- The frame of the message leaves the queue. -/
theorem Linked.publishHead (linked : Linked ring state) (lent : Lent ring message state) :
    let next := ({state with consumerPos := message.nextPosition, flushedHead := message.nextPosition} : State).note
      (.pop (state.bytes ring state.lent.payload))
    Linked ring next ∧ ConsumerStep state next := by
  obtain ⟨noted, payload, sees, shape⟩ := lent
  intro next
  obtain ⟨fresh, rest, waits, cached⟩ := sees.fresh
  have taken : Queue.Step frameSize ring.capacity state.waiting (.pop (state.bytes ring state.lent.payload))
      (fresh ++ rest) := by
    rw [noted, shape, sees.shown linked, waits]
    exact .pop payload _
  obtain ⟨run, same⟩ := linked.observe next taken rfl
  have moved : next.consumerPos = state.consumerPos + UInt64.ofNat (frameSize payload) := by
    change message.nextPosition = _
    rw [shape]
    rfl
  refine ⟨⟨run, ?_, ?_, ?_, ?_, rfl⟩, rfl, rfl, rfl, rfl⟩
  all_goals rw [same]
  · rw [moved]
    have stored := linked.stored
    rw [waits] at stored
    exact stored.2
  · have tail := linked.tail
    rw [waits, Queue.total_cons, UInt64.ofNat_add, ← UInt64.add_assoc] at tail
    rw [moved]
    exact tail
  · have known := linked.known
    rw [waits, Queue.total_cons] at known
    change _ ≤ (state.producerPos - state.cachedHead).toNat
    omega
  · refine .inr ⟨fresh, rest, rfl, ?_⟩
    rw [Queue.total_cons, UInt64.ofNat_add, ← UInt64.add_assoc] at cached
    rw [moved]
    exact cached

end Consumer
end Steps

theorem lawful (thread : Thread) : ((discipline ring).contract thread).Lawful := by
  cases thread with
  | producer => exact ⟨ConsumerStep.refl, ConsumerStep.trans, ProducerStep.refl, fun _ _ => trivial⟩
  | consumer => exact ⟨ProducerStep.refl, ProducerStep.trans, ConsumerStep.refl, fun _ _ => trivial⟩

section Programs

variable {state : State}

/-- The claim has room behind the tail, on the position that the producer knows. -/
theorem reserve_safe {tail : UInt64} {payloadLen : UInt32} (place : state.producerPos = tail)
    (room : hasCapacity ring tail state.cachedHead (frameLen payloadLen.toNat false) = true) :
    Safe ((discipline ring).contract .producer) (fun result => Rests ring .producer (claimLabel result))
      (reserve ring tail payloadLen) state := by
  apply Safe.store_bind
  intro current between ready _
  have linked : Linked ring current := ready.keeps
  have same : current.producerPos = tail := between.producerPos.trans place
  subst same
  rw [← between.cachedHead] at room
  have held := held_reserve room
  refine ⟨⟨linked.run, linked.stored, linked.tail, linked.known, linked.seen, linked.flushed⟩,
    ⟨rfl, rfl, rfl, rfl, rfl, List.prefix_rfl⟩, ?_⟩
  intro later step _
  exact held.stable step

theorem claim_safe (payloadLen : UInt32) :
    Safe ((discipline ring).contract .producer) (fun result => Rests ring .producer (claimLabel result))
      (claim ring payloadLen) state := by
  unfold claim
  dsimp only
  split
  · exact fun _ _ _ => trivial
  apply Safe.load_bind (lawful _)
  intro first _ _
  apply Safe.load_bind (lawful _)
  intro second between _
  have place : second.producerPos = first.producerPos := between.producerPos
  split
  · rename_i room
    exact reserve_safe place room
  apply Safe.modifyGet_bind
  intro current step ready _
  have linked : Linked ring current := ready.keeps
  have same : first.producerPos = current.producerPos := (step.producerPos.trans place).symm
  obtain ⟨kept, guaranteed⟩ := linked.refresh (frameLen payloadLen.toNat false)
  rw [same]
  refine ⟨kept, guaranteed, ?_⟩
  by_cases room : hasCapacity ring current.producerPos current.consumerPos (frameLen payloadLen.toNat false) = true
  · rw [if_pos room, if_pos room]
    exact reserve_safe rfl room
  · rw [if_neg room]
    exact fun _ _ _ => trivial

theorem writePayload_safe {claim : Claim} (held : Held ring claim state) (offset : Nat) (data : List UInt8) :
    Safe ((discipline ring).contract .producer) (fun _ => Held ring claim) (writePayload ring claim offset data)
      state := by
  apply Safe.store_last
  intro current between ready _
  have linked : Linked ring current := ready.keeps
  have holds := held.stable between
  by_cases inside : offset + data.length ≤ claim.payload.length
  · obtain ⟨kept, still⟩ := holds.writePayload linked inside
    rw [if_pos inside]
    exact ⟨kept, ⟨rfl, rfl, rfl, rfl, rfl, List.prefix_rfl⟩, fun _ step _ => still.stable step⟩
  · rw [if_neg inside]
    exact ⟨linked, ProducerStep.refl _, fun _ step _ => holds.stable step⟩

theorem commit_safe {claim : Claim} (held : Held ring claim state) :
    Safe ((discipline ring).contract .producer) (fun _ _ => True) (commit ring claim) state := by
  apply Safe.store_bind
  intro current between ready _
  have linked : Linked ring current := ready.keeps
  obtain ⟨kept, still, header⟩ := (held.stable between).writeHeader linked
  refine ⟨kept, ⟨rfl, rfl, rfl, rfl, rfl, List.prefix_rfl⟩, ?_⟩
  apply Safe.store
  intro later step ready
  have linked : Linked ring later := ready.keeps
  have closed : Sealed ring claim later := by
    refine ⟨still.stable step, ?_⟩
    rw [step.memory, step.producerPos]
    exact header
  exact linked.publishTail closed

theorem readFrame_safe {payload : List UInt8} {head : UInt64} (rests : state.localHead = state.consumerPos)
    (place : state.consumerPos = head) (sees : Sees state payload) :
    Safe ((discipline ring).contract .consumer) (fun result => Rests ring .consumer (pollLabel result))
      (readFrame ring head) state := by
  apply Safe.modifyGet_last
  intro current between ready _
  have linked : Linked ring current := ready.keeps
  have same : current.consumerPos = head := between.consumerPos.trans place
  subst same
  dsimp only
  generalize decoded : current.message ring current.consumerPos = message
  obtain ⟨kept, step, lent⟩ := linked.readFrame (sees.stable between) decoded
  refine ⟨kept, step, ?_⟩
  have stays : current.localHead = current.consumerPos :=
    (between.localHead.trans rests).trans between.consumerPos.symm
  intro later further _
  exact ⟨further.localHead.trans (stays.trans further.consumerPos.symm), lent.stable further⟩

theorem poll_safe (rests : state.localHead = state.consumerPos) :
    Safe ((discipline ring).contract .consumer) (fun result => Rests ring .consumer (pollLabel result))
      (poll ring) state := by
  have stays {before after : State} (step : ProducerStep before after) (rests : before.localHead = before.consumerPos) :
      after.localHead = after.consumerPos := step.localHead.trans (rests.trans step.consumerPos.symm)
  apply Safe.load_bind (lawful _)
  intro first between _
  have restsFirst := stays between rests
  apply Safe.load_bind (lawful _)
  intro second between ready
  have linked : Linked ring second := ready.keeps
  have restsSecond := stays between restsFirst
  have head : first.localHead = second.consumerPos := restsFirst.trans between.consumerPos.symm
  rw [head]
  split
  · apply Safe.modifyGet_bind
    intro current step ready _
    have linked : Linked ring current := ready.keeps
    have restsCurrent := stays step restsSecond
    obtain ⟨kept, guaranteed, found⟩ := linked.refreshTail
    rw [← step.consumerPos]
    refine ⟨kept, guaranteed, ?_⟩
    by_cases empty : current.consumerPos = current.producerPos
    · rw [if_pos empty, if_pos empty]
      intro later further _
      exact stays further restsCurrent
    · obtain ⟨payload, sees⟩ := found empty
      rw [if_neg empty] at sees ⊢
      rw [if_neg empty]
      exact readFrame_safe restsCurrent rfl sees
  · rename_i known
    obtain ⟨payload, sees⟩ := linked.sees_of_lt (UInt64.not_le.mp known)
    exact readFrame_safe restsSecond rfl sees

theorem advance_safe {message : Message} (lent : Lent ring message state) :
    Safe ((discipline ring).contract .consumer) (fun _ current => current.localHead = current.consumerPos)
      (advance ring message.nextPosition) state := by
  apply Safe.store_bind
  intro current between ready _
  have linked : Linked ring current := ready.keeps
  have lent := lent.stable between
  refine ⟨⟨linked.run, linked.stored, linked.tail, linked.known, linked.seen, linked.flushed⟩, ⟨rfl, rfl, rfl, rfl⟩, ?_⟩
  generalize shape : ({current with localHead := message.nextPosition} : State) = moved
  have place : moved.localHead = message.nextPosition := by rw [← shape]
  have lent : Lent ring message moved := by
    subst shape
    obtain ⟨noted, payload, ⟨fresh⟩, decoded⟩ := lent
    exact ⟨noted, payload, ⟨fresh⟩, decoded⟩
  apply Safe.load_bind (lawful _)
  intro first between _
  have placeFirst : first.localHead = message.nextPosition := between.localHead.trans place
  have lent := lent.stable between
  apply Safe.load_bind (lawful _)
  intro second between ready
  have linked : Linked ring second := ready.keeps
  have placeSecond : second.localHead = message.nextPosition := between.localHead.trans placeFirst
  have lent := lent.stable between
  rw [placeFirst]
  unfold Prog.when
  split
  · apply Safe.store_last
    intro third between ready _
    have linked : Linked ring third := ready.keeps
    obtain ⟨kept, step⟩ := linked.publishHead (lent.stable between)
    refine ⟨kept, step, ?_⟩
    intro later further _
    rw [further.localHead, further.consumerPos]
    exact between.localHead.trans placeSecond
  · rename_i same
    intro later further _
    rw [further.localHead, further.consumerPos, placeSecond, ← linked.flushed]
    exact not_not.mp same

end Programs

theorem sound : (discipline ring).Sound (system ring) fun _ _ _ _ => True where
  lawful := lawful
  compatible {actor observer _ _} different _ _ step := by
    cases actor with
    | producer =>
        cases observer with
        | producer => exact absurd rfl different
        | consumer => exact step
    | consumer =>
        cases observer with
        | producer => exact step
        | consumer => exact absurd rfl different
  start {thread label request program state} begins _ ready _ holds := by
    have claims (payloadLen : UInt32) : Safe ((discipline ring).contract .producer) (Rests ring .producer)
        ((claim ring payloadLen).bind fun result => .ret (claimLabel result)) state := by
      apply Safe.bind (lawful _) (claim_safe payloadLen)
      intro result current _ rests later step _
      cases result with
      | error error => trivial
      | ok claim => exact rests.stable step
    have polls (rests : state.localHead = state.consumerPos) : Safe ((discipline ring).contract .consumer)
        (Rests ring .consumer) ((poll ring).bind fun result => .ret (pollLabel result)) state := by
      apply Safe.bind (lawful _) (poll_safe rests)
      intro result current _ rests later step _
      cases result with
      | none => exact step.localHead.trans (rests.trans step.consumerPos.symm)
      | some message => exact ⟨step.localHead.trans (rests.1.trans step.consumerPos.symm), rests.2.stable step⟩
    match thread, label, request, begins with
    | .producer, .claimed claim, .write offset data, begins =>
        obtain rfl := Option.some.inj begins
        apply Safe.bind (lawful _) (writePayload_safe holds offset data)
        exact fun _ _ _ held _ step _ => held.stable step
    | .producer, .claimed claim, .commit, begins =>
        obtain rfl := Option.some.inj begins
        apply Safe.bind (lawful _) (commit_safe holds)
        exact fun _ _ _ _ _ _ _ => trivial
    | .producer, .ready, .claim payloadLen, begins | .producer, .refused _, .claim payloadLen, begins
    | .producer, .empty, .claim payloadLen, begins | .producer, .polled _, .claim payloadLen, begins =>
        obtain rfl := Option.some.inj begins
        exact claims payloadLen
    | .consumer, .polled message, .poll, begins =>
        obtain rfl := Option.some.inj begins
        exact polls holds.1
    | .consumer, .ready, .poll, begins | .consumer, .refused _, .poll, begins
    | .consumer, .claimed _, .poll, begins | .consumer, .empty, .poll, begins =>
        obtain rfl := Option.some.inj begins
        exact polls holds
    | .consumer, .polled message, .advance, begins =>
        obtain rfl := Option.some.inj begins
        apply Safe.bind (lawful _) (advance_safe holds.2)
        exact fun _ _ _ rests later step _ => step.localHead.trans (rests.trans step.consumerPos.symm)

/-- A claim that finds no room has observed it in one of its actions. -/
theorem refused_trace {payloadLen : UInt32} {actions : List (State × State)}
    (trace : ((claim ring payloadLen).bind fun result => .ret (claimLabel result)).Trace actions
      (.refused .BackPressured)) :
    ∃ action ∈ actions, action.2.history = action.1.history ++ [.refuse (frameLen payloadLen.toNat false)] := by
  have granted (tail : UInt64) {actions : List (State × State)} :
      ¬ ((reserve ring tail payloadLen).bind fun result => .ret (claimLabel result)).Trace actions
        (.refused .BackPressured) := by
    intro trace
    cases trace with
    | act state rest => cases rest
  unfold claim at trace
  dsimp only at trace
  split at trace
  · cases trace
  cases trace with
  | act first trace =>
      cases trace with
      | act second trace =>
          simp only [Prog.ret_bind] at trace
          split at trace
          · exact absurd trace (granted _)
          cases trace with
          | act third trace =>
              by_cases room : hasCapacity ring first.producerPos third.consumerPos (frameLen payloadLen.toNat false) = true
              · simp only [Prog.ret_bind, if_pos room] at trace
                exact absurd trace (granted _)
              · refine ⟨_, List.mem_cons_of_mem _ (List.mem_cons_of_mem _ (List.mem_cons_self ..)), ?_⟩
                dsimp only
                rw [if_neg room]
                rfl

section Runs

variable {memory : Circular.Bytes} {position : UInt64} {config : Config State Thread Label}

theorem linked_initial (memory : Circular.Bytes) (position : UInt64) :
    Linked ring (initial memory position).shared :=
  ⟨.start, trivial, (UInt64.add_zero position).symm, Nat.zero_le _, .inl rfl, rfl⟩

theorem discipline_initial (memory : Circular.Bytes) (position : UInt64) :
    (discipline ring).Initial (initial memory position) := by
  refine ⟨linked_initial memory position, fun thread => ?_⟩
  cases thread with
  | producer => exact fun _ _ _ => trivial
  | consumer =>
      intro later step _
      exact step.localHead.trans step.consumerPos.symm

theorem knows (memory : Circular.Bytes) (position : UInt64) :
    (discipline ring).Knows (system ring) (fun _ _ _ _ => True) (fun _ _ => True) (initial memory position) := by
  refine ⟨fun {config event} _ => ?_, fun _ => trivial, fun _ _ _ => trivial, fun _ _ _ => trivial⟩
  cases event with
  | start thread request => exact fun _ _ => trivial
  | act thread => trivial

theorem linked_of_run (run : (system ring).Reachable (initial memory position) config) : Linked ring config.shared :=
  (sound.run (discipline_initial memory position) (knows memory position) run).1

/-- An action that ends in a linked state. -/
def Reaches (ring : MagicRing) (_ after : State) : Prop := Linked ring after

/-- The flow acts as a bounded queue. `answers` is about every claim that answers `BackPressured`: one of its actions
has begun in a state in which the frame did not fit beside the frames that were not advanced past. -/
structure ActsAsQueue (ring : MagicRing) (config : Config State Thread Label) : Prop where
  queue : Queue.Run frameSize ring.capacity config.shared.history config.shared.waiting
  order : Queue.pushed config.shared.history = Queue.popped config.shared.history ++ config.shared.waiting
  kept : Stored ring config.shared.memory config.shared.consumerPos config.shared.waiting
  shown : ∀ message, config.thread .consumer = .ret (.polled message) → ∃ payload rest,
    config.shared.waiting = payload :: rest ∧ config.shared.bytes ring message.payload = payload
  answers : ∀ payloadLen begun actions after,
    (system ring).step config (.start .producer (.claim payloadLen)) = some begun →
    (system ring).During (fun _ _ => True) .producer begun actions after →
    after.thread .producer = .ret (.refused .BackPressured) →
    ∃ action ∈ actions, ring.capacity < Queue.total frameSize action.1.waiting + frameLen payloadLen.toNat false

/-- A claim starts its program unless a claim is open. -/
theorem start_claim {label : Label} {payloadLen : UInt32} {program : Prog State Label}
    (begins : (system ring).start .producer label (.claim payloadLen) = some program) :
    program = (claim ring payloadLen).bind fun result => .ret (claimLabel result) := by
  cases label with
  | claimed claim => cases begins
  | _ => exact (Option.some.inj begins).symm

/-- In every interleaving of the claims and commits of the producer with the polls and advances of the consumer, the
polled payloads are the committed ones in their order, the bytes of a frame stay until the consumer advances past it,
and a claim is refused only when its frame does not fit. -/
theorem flow_refines_queue (run : (system ring).Reachable (initial memory position) config) :
    ActsAsQueue ring config := by
  have linked := linked_of_run run
  constructor
  · exact linked.run
  · exact linked.run.conserves
  · exact linked.stored
  · intro message holds
    have rests : Rests ring .consumer (.polled message) config.shared :=
      sound.label (discipline_initial memory position) (knows memory position) run trivial holds
    obtain ⟨-, -, payload, sees, rfl⟩ := rests
    obtain ⟨fresh, rest, waits, -⟩ := sees.fresh
    exact ⟨payload, fresh ++ rest, waits, sees.shown linked⟩
  · intro payloadLen begun actions after started performed ended
    obtain ⟨label, program, -, begins, -, runs⟩ := System.step_start started
    obtain rfl := start_claim begins
    have trace := performed.trace ended
    rw [runs] at trace
    obtain ⟨action, member, noted⟩ := refused_trace trace
    have observed : ∀ action ∈ actions, Reaches ring action.1 action.2 :=
      performed.actions_of (.step _ run trivial started) fun reached _ taken =>
        linked_of_run (.step _ reached trivial taken)
    have queue := (observed action member).run
    rw [noted] at queue
    have taken := queue.last
    refine ⟨action, member, ?_⟩
    change ring.capacity < Queue.total frameSize (Queue.waiting action.1.history) + _
    generalize Queue.waiting action.1.history = waits, action.2.waiting = next at taken ⊢
    cases taken with
    | refuse full => exact full

end Runs

def twoLines : MagicRing := ⟨16, by decide, by decide⟩

/-- A payload across the end of the positions and of the ring. -/
theorem flow_refines_queue_wrap : ∃ config,
    (system twoLines).Reachable (initial (fun _ => 0) (0 - 8)) config ∧
      config.shared.history = [.push [1, 2, 3], .refuse 16, .front [1, 2, 3]] ∧ ActsAsQueue twoLines config := by
  have called : (((system twoLines).calls (initial (fun _ => 0) (0 - 8)) [(.producer, .claim 3),
      (.producer, .write 0 [1, 2, 3]), (.producer, .commit), (.producer, .claim 8), (.consumer, .poll)]).map
        fun config => config.shared.history) = some [.push [1, 2, 3], .refuse 16, .front [1, 2, 3]] := by decide
  obtain ⟨config, final, noted⟩ := Option.map_eq_some_iff.mp called
  have run : (system twoLines).Reachable (initial (fun _ => 0) (0 - 8)) config :=
    System.Run.calls (fun _ _ _ => trivial) (fun _ _ _ => trivial) .refl final
  exact ⟨config, run, noted, flow_refines_queue run⟩

end Salias.Flow
