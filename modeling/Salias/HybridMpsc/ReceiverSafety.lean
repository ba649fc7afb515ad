import Salias.HybridMpsc.RingSafety

/-
Every run of calls keeps the consumers sound: a consumer borrows at its read positions, and no published position
moves backwards.
-/

namespace Salias.HybridMpsc

open Salias.Frame
open SharedHybridMpsc (Message scanOrder)

variable {n m : Nat} {setup : Setup n m} {channel : Channel n m} {positions : Fin n → Nat} {published : Nat}
  {current : Consumer n}

/-- A message that was read at a position. -/
theorem tryReadFromRing_some {producer : Fin n} {position target visibleBound : Nat} {message : Message n}
    (found : tryReadFromRing setup channel producer position target visibleBound = some message) :
    message.producerId = producer ∧ message.position = position ∧ message.position < message.nextPosition ∧
      message.sequence = target := by
  unfold tryReadFromRing at found
  split at found
  · cases found
  · simp only at found
    split at found
    · cases found
    · split at found
      · cases found
      · obtain rfl := Option.some.inj found
        exact ⟨rfl, rfl, Nat.lt_add_of_pos_right (frameLen_pos _ _), rfl⟩

/-- Two receivers with the same progress. -/
structure SameProgress (before after : Rx n) : Prop where
  readPositions : after.readPositions = before.readPositions
  nextSequences : after.nextSequences = before.nextSequences
  flushedPositions : after.flushedPositions = before.flushedPositions
  expectedSequence : after.expectedSequence = before.expectedSequence

theorem SameProgress.refl (rx : Rx n) : SameProgress rx rx := ⟨rfl, rfl, rfl, rfl⟩

theorem SameProgress.trans {first second third : Rx n} (one : SameProgress first second)
    (two : SameProgress second third) : SameProgress first third :=
  ⟨two.readPositions.trans one.readPositions, two.nextSequences.trans one.nextSequences,
    two.flushedPositions.trans one.flushedPositions, two.expectedSequence.trans one.expectedSequence⟩

theorem sameProgress_refresh (channel : Channel n m) (producer : Fin n) (rx : Rx n) :
    SameProgress rx (rx.refresh channel producer) := by
  unfold Rx.refresh
  split <;> exact ⟨rfl, rfl, rfl, rfl⟩

theorem sameProgress_hit (producer : Fin n) (rx : Rx n) : SameProgress rx (rx.hit producer) := ⟨rfl, rfl, rfl, rfl⟩

/-- A receive leaves the progress alone and finds a message at a read position. -/
theorem receiveScan_spec (setup : Setup n m) (channel : Channel n m) (rings : List (Fin n)) (rx : Rx n) :
    SameProgress rx (receiveScan setup channel rings rx).2 ∧
      ∀ message, (receiveScan setup channel rings rx).1 = some message →
        message.position = rx.readPositions message.producerId ∧ message.position < message.nextPosition := by
  induction rings generalizing rx with
  | nil => exact ⟨.refl rx, nofun⟩
  | cons producer rest ih =>
      have fresh := sameProgress_refresh channel producer rx
      obtain ⟨same, later⟩ := ih (rx.refresh channel producer)
      rw [fresh.readPositions] at later
      unfold receiveScan
      simp only
      split
      · exact ⟨fresh.trans same, later⟩
      · split
        · rename_i message found
          obtain ⟨rfl, position, proper, -⟩ := tryReadFromRing_some found
          refine ⟨fresh.trans (sameProgress_hit _ _), fun other equal => ?_⟩
          obtain rfl := Option.some.inj equal
          exact ⟨by rw [position, fresh.readPositions], proper⟩
        · exact ⟨fresh.trans same, later⟩

section Consumers

variable (safe : ConsumerSafe positions published current)

include safe

theorem ConsumerSafe.sameProgress {rx : Rx n} (same : SameProgress current.rx rx) :
    ConsumerSafe positions published {current with rx := rx} where
  flushed producer := by simp only [same.flushedPositions]; exact safe.flushed producer
  behind producer := by simp only [same.readPositions]; exact safe.behind producer
  lent producer message lent := by simp only [same.readPositions]; exact safe.lent producer message lent
  unflushed entry member := by simp only [same.readPositions]; exact safe.unflushed entry member
  released := safe.released
  expected := by simp only [same.readPositions, same.expectedSequence]; exact safe.expected
  published := safe.published

/-- A message is borrowed at its read position. -/
theorem ConsumerSafe.lend {message : Message n}
    (position : message.position = current.rx.readPositions message.producerId)
    (proper : message.position < message.nextPosition) :
    ConsumerSafe positions published
      {current with lent := Function.update current.lent message.producerId (some message)} :=
  ⟨safe.flushed, safe.behind, fun producer other lent => by
    by_cases same : producer = message.producerId
    · subst same
      simp only [Function.update_self] at lent
      obtain rfl := Option.some.inj lent
      exact ⟨rfl, position, proper⟩
    · simp only [Function.update_of_ne same] at lent
      exact safe.lent producer other lent, safe.unflushed, safe.released, safe.expected, safe.published⟩

omit safe in
theorem advance_readPositions (message : Message n) (rx : Rx n) : (rx.advance setup message).readPositions =
    Function.update rx.readPositions message.producerId message.nextPosition := by
  unfold Rx.advance
  split <;> rfl

omit safe in
theorem advance_flushedPositions (message : Message n) (rx : Rx n) :
    (rx.advance setup message).flushedPositions = rx.flushedPositions := by
  unfold Rx.advance
  split <;> rfl

omit safe in
/-- A position that moves past a message grows and is not zero. -/
theorem le_update {message : Message n} {reads : Fin n → Nat} (position : message.position = reads message.producerId)
    (proper : message.position < message.nextPosition) (producer : Fin n) :
    reads producer ≤ Function.update reads message.producerId message.nextPosition producer := by
  by_cases same : producer = message.producerId
  · subst same
    rw [Function.update_self]
    omega
  · rw [Function.update_of_ne same]

omit safe in
theorem update_ne_zero {message : Message n} {reads : Fin n → Nat} (proper : message.position < message.nextPosition)
    (zero : ∀ producer, Function.update reads message.producerId message.nextPosition producer = 0) : False := by
  have := zero message.producerId
  rw [Function.update_self] at this
  omega

theorem ConsumerSafe.consume {message : Message n}
    (position : message.position = current.rx.readPositions message.producerId)
    (proper : message.position < message.nextPosition) :
    ConsumerSafe positions published (current.consume setup message) := by
  unfold Consumer.consume
  split
  · refine ⟨fun producer => ?_, fun producer => ?_, fun producer other lent => ?_, fun entry member => ?_, safe.released,
      fun zero => ?_, safe.published⟩
    · simp only [advance_flushedPositions]
      exact safe.flushed producer
    · simp only [advance_readPositions]
      exact (safe.behind producer).trans (le_update position proper producer)
    · by_cases same : producer = message.producerId
      · simp [same] at lent
      · simp only [Function.update_of_ne same] at lent
        simp only [advance_readPositions, Function.update_of_ne same]
        exact safe.lent producer other lent
    · simp only [advance_readPositions]
      rcases List.mem_append.mp member with old | new
      · exact (safe.unflushed entry old).trans_le (le_update position proper entry.1)
      · rw [List.mem_singleton.mp new, Function.update_self]
        omega
    · simp only [advance_readPositions] at zero
      exact (update_ne_zero proper zero).elim
  · exact safe

theorem ConsumerSafe.release {message : Message n}
    (position : message.position = current.rx.readPositions message.producerId)
    (proper : message.position < message.nextPosition) (sequence : Nat) :
    ConsumerSafe (Function.update positions message.producerId message.nextPosition) sequence
      {current with
        rx := {current.rx.advance setup message with
          flushedPositions :=
            Function.update (current.rx.advance setup message).flushedPositions message.producerId message.nextPosition}
        lent := Function.update current.lent message.producerId none
        released := current.released ++ [(message.producerId, message.position)]} := by
  have grows (producer : Fin n) : positions producer ≤
      Function.update positions message.producerId message.nextPosition producer := by
    by_cases same : producer = message.producerId
    · have behind := safe.behind producer
      rw [same] at behind ⊢
      rw [Function.update_self]
      omega
    · rw [Function.update_of_ne same]
  refine ⟨fun producer => ?_, fun producer => ?_, fun producer other lent => ?_, fun entry member => ?_,
    fun entry member => ?_, fun zero => ?_, fun zero => ?_⟩
  · simp only [advance_flushedPositions]
    by_cases same : producer = message.producerId
    · rw [same, Function.update_self, Function.update_self]
    · rw [Function.update_of_ne same, Function.update_of_ne same]
      exact safe.flushed producer
  · simp only [advance_readPositions]
    by_cases same : producer = message.producerId
    · rw [same, Function.update_self, Function.update_self]
    · rw [Function.update_of_ne same, Function.update_of_ne same]
      exact safe.behind producer
  · by_cases same : producer = message.producerId
    · simp [same] at lent
    · simp only [Function.update_of_ne same] at lent
      simp only [advance_readPositions, Function.update_of_ne same]
      exact safe.lent producer other lent
  · simp only [advance_readPositions]
    exact (safe.unflushed entry member).trans_le (le_update position proper entry.1)
  · rcases List.mem_append.mp member with old | new
    · exact (safe.released entry old).trans_le (grows entry.1)
    · rw [List.mem_singleton.mp new, Function.update_self]
      omega
  · simp only [advance_readPositions] at zero
    exact (update_ne_zero proper zero).elim
  · exact (update_ne_zero proper zero).elim

end Consumers

section Runs

/-- Each message of an unordered batch starts where the one before it ended. -/
theorem fifoRun_safe (unordered : setup.order.ordered = false) (producer : Fin n) (visibleBound room : Nat)
    {position sequence : Nat} (safe : ConsumerSafe positions published current)
    (start : position = current.rx.readPositions producer) :
    ConsumerSafe positions published
      ((fifoRun setup channel producer visibleBound room position sequence).foldl
        (fun consumer message => consumer.consume setup message) current) := by
  induction room generalizing position sequence current with
  | zero => exact safe
  | succ room ih =>
      unfold fifoRun
      split
      · exact safe
      · rename_i message found
        obtain ⟨rfl, rfl, proper, -⟩ := tryReadFromRing_some found
        rw [List.foldl_cons]
        refine ih (safe.consume start proper) ?_
        have inTurn : current.rx.inTurn setup message = true := by simp [Rx.inTurn, unordered]
        rw [Consumer.consume, if_pos inTurn]
        simp only [advance_readPositions, Function.update_self]

theorem orderedRun_safe (producer : Fin n) (room : Nat) (safe : ConsumerSafe positions published current) :
    ConsumerSafe positions published (orderedRun setup channel producer room current).2 := by
  induction room generalizing current with
  | zero => exact safe
  | succ room ih =>
      unfold orderedRun
      split
      · exact safe
      · rename_i message found
        obtain ⟨rfl, position, proper, -⟩ := tryReadFromRing_some found
        exact ih (safe.consume position proper)

theorem ringRun_safe (setup : Setup n m) (channel : Channel n m) (producer : Fin n) (room : Nat) (safe : ConsumerSafe positions published current) :
    ConsumerSafe positions published (ringRun setup channel producer room current).2 := by
  unfold ringRun
  split
  · exact orderedRun_safe producer room safe
  · rename_i unordered
    exact fifoRun_safe (by simpa using unordered) producer _ room safe rfl

theorem runScan_safe (rings : List (Fin n)) (room : Nat) (safe : ConsumerSafe positions published current) :
    ConsumerSafe positions published (runScan setup channel room rings current).2 := by
  induction rings generalizing current with
  | nil => exact safe
  | cons producer rest ih =>
      have fresh := safe.sameProgress (sameProgress_refresh channel producer current.rx)
      have after := ringRun_safe setup channel producer room fresh
      unfold runScan
      simp only
      split
      · exact ih fresh
      · split
        · rename_i last empty
          rw [empty] at after
          exact ih after
        · rename_i messages last _ run
          rw [run] at after
          exact after.sameProgress (sameProgress_hit producer last.rx)

end Runs

/-- A call of a consumer changes its own words and moves its positions forward. -/
theorem Safe.of_consumer {after : Channel n m} (safe : Safe setup channel) (consumer : Fin m) {moved : Fin n → Nat}
    (log : after.log = channel.log) (globalSeq : after.globalSeq = channel.globalSeq)
    (rings : ∀ producer, after.ring producer = {channel.ring producer with
      consumerPositions := Function.update (channel.ring producer).consumerPositions consumer (moved producer)})
    (forward : ∀ producer, channel.positions consumer producer ≤ moved producer)
    (others : ∀ other, other ≠ consumer → after.consumer other = channel.consumer other ∧
      after.consumerSequences other = channel.consumerSequences other)
    (keeps : ConsumerSafe moved (after.consumerSequences consumer) (after.consumer consumer)) :
    Safe setup after ∧ Forward channel after := by
  have own : after.positions consumer = moved := by
    funext producer
    exact (congrArg (fun ring => ring.consumerPositions consumer) (rings producer)).trans (Function.update_self _ _ _)
  have same (other : Fin m) (different : other ≠ consumer) : after.positions other = channel.positions other := by
    funext producer
    exact (congrArg (fun ring => ring.consumerPositions other) (rings producer)).trans
      (Function.update_of_ne different _ _)
  have frames : after.frames = channel.frames := by
    funext producer
    rw [Channel.frames, log]
    rfl
  refine ⟨⟨fun producer => ?_, ?_, fun other => ?_⟩, fun other producer => ?_⟩
  · rw [frames, rings]
    exact (safe.rings producer).progress (forward producer)
  · rw [Numbered, globalSeq, frames]
    simp only [log]
    exact safe.numbered
  · by_cases equal : other = consumer
    · rw [equal, own]
      exact keeps
    · rw [same other equal, (others other equal).1, (others other equal).2]
      exact safe.consumers other
  · by_cases equal : other = consumer
    · rw [equal, own]
      exact forward producer
    · rw [same other equal]

/-- A call that publishes no progress. -/
theorem Safe.setConsumer (safe : Safe setup channel) (consumer : Fin m) {after : Consumer n}
    (keeps : ConsumerSafe (channel.positions consumer) (channel.consumerSequences consumer) after) :
    Safe setup (channel.setConsumer consumer fun _ => after) ∧
      Forward channel (channel.setConsumer consumer fun _ => after) := by
  refine safe.of_consumer consumer rfl rfl (fun producer => ?_) (fun producer => le_rfl)
    (fun other different => ⟨?_, rfl⟩) ?_
  · have eta := Function.update_eq_self consumer (channel.ring producer).consumerPositions
    simp only [Channel.positions, eta]
    rfl
  · exact Function.update_of_ne different _ _
  · simpa only [Channel.setConsumer, Function.update_self] using keeps

section Calls

variable (safe : Safe setup channel) (consumer : Fin m)

include safe

theorem tryRecv_safe : Safe setup (tryRecv setup channel consumer).2 ∧
    Forward channel (tryRecv setup channel consumer).2 := by
  obtain ⟨same, found⟩ := receiveScan_spec setup channel
    (scanOrder n (channel.consumer consumer).rx.lastHitRing) (channel.consumer consumer).rx
  have kept := (safe.consumers consumer).sameProgress same
  unfold tryRecv
  dsimp only
  generalize receiveScan setup channel (scanOrder n (channel.consumer consumer).rx.lastHitRing)
    (channel.consumer consumer).rx = scanned at same found kept ⊢
  obtain ⟨result, rx⟩ := scanned
  refine safe.setConsumer consumer ?_
  cases result with
  | none => exact kept
  | some message =>
      obtain ⟨position, proper⟩ := found message rfl
      rw [← same.readPositions] at position
      exact kept.lend position proper

theorem tryRecvRun_safe (room : UInt32) : Safe setup (tryRecvRun setup channel consumer room).2 ∧
    Forward channel (tryRecvRun setup channel consumer room).2 := by
  unfold tryRecvRun
  split
  · exact ⟨safe, .refl channel⟩
  · exact safe.setConsumer consumer (runScan_safe _ _ (safe.consumers consumer))

variable {message : Message n}

/-- A borrowed message starts at the read position. -/
theorem Safe.lent (lent : (channel.consumer consumer).lent message.producerId = some message) :
    message.position = (channel.consumer consumer).rx.readPositions message.producerId ∧
      message.position < message.nextPosition :=
  ((safe.consumers consumer).lent _ _ lent).2

theorem consume_safe (lent : (channel.consumer consumer).lent message.producerId = some message) :
    Safe setup (consume setup channel consumer message) ∧ Forward channel (consume setup channel consumer message) := by
  obtain ⟨position, proper⟩ := safe.lent consumer lent
  exact safe.setConsumer consumer ((safe.consumers consumer).consume position proper)

omit safe in
/-- One ring gets a position of the consumer, the others keep theirs. -/
theorem setPosition_ring (channel : Channel n m) (moved : Fin n) (position : Nat) (producer : Fin n) :
    (channel.setPosition moved consumer position).ring producer = {channel.ring producer with
      consumerPositions := Function.update (channel.ring producer).consumerPositions consumer
        (Function.update (channel.positions consumer) moved position producer)} := by
  by_cases same : producer = moved
  · subst same
    simp [Channel.setPosition, Channel.setRing]
  · have eta := Function.update_eq_self consumer (channel.ring producer).consumerPositions
    simp only [Channel.setPosition, Channel.setRing, Function.update_of_ne same, Channel.positions, eta]

theorem release_safe (lent : (channel.consumer consumer).lent message.producerId = some message) :
    Safe setup (release setup channel consumer message) ∧ Forward channel (release setup channel consumer message) := by
  obtain ⟨position, proper⟩ := safe.lent consumer lent
  have current := safe.consumers consumer
  have forward (producer : Fin n) : channel.positions consumer producer ≤
      Function.update (channel.positions consumer) message.producerId message.nextPosition producer := by
    by_cases same : producer = message.producerId
    · subst same
      have behind := current.behind message.producerId
      rw [Function.update_self]
      omega
    · rw [Function.update_of_ne same]
  unfold release
  split
  · split
    · refine safe.of_consumer consumer rfl rfl (setPosition_ring consumer channel _ _) forward
        (fun other different => ⟨?_, ?_⟩) ?_
      · exact Function.update_of_ne different _ _
      · exact Function.update_of_ne different _ _
      · simp only [Channel.setConsumer, Function.update_self]
        exact current.release position proper _
    · refine safe.of_consumer consumer rfl rfl (setPosition_ring consumer channel _ _) forward
        (fun other different => ⟨?_, rfl⟩) ?_
      · exact Function.update_of_ne different _ _
      · simp only [Channel.setConsumer, Function.update_self]
        exact current.release position proper _
  · exact ⟨safe, .refl channel⟩

/-- A flushed ring keeps the invariant and the progress of the consumer. -/
theorem flushRing_safe (producer : Fin n) : Safe setup (flushRing consumer channel producer) ∧
    Forward channel (flushRing consumer channel producer) := by
  have current := safe.consumers consumer
  have forward (other : Fin n) : channel.positions consumer other ≤ Function.update (channel.positions consumer)
      producer ((channel.consumer consumer).rx.readPositions producer) other := by
    by_cases same : other = producer
    · rw [same, Function.update_self]
      exact current.behind producer
    · rw [Function.update_of_ne same]
  have grows (zero : ∀ other, Function.update (channel.positions consumer) producer
      ((channel.consumer consumer).rx.readPositions producer) other = 0) (other : Fin n) :
      channel.positions consumer other = 0 := Nat.le_zero.mp ((forward other).trans_eq (zero other))
  unfold flushRing
  dsimp only
  split
  · exact ⟨safe, .refl channel⟩
  · refine safe.of_consumer consumer rfl rfl (setPosition_ring consumer channel _ _) forward
      (fun other different => ⟨?_, rfl⟩) ?_
    · exact Function.update_of_ne different _ _
    · simp only [Channel.setRx, Channel.setConsumer, Function.update_self]
      refine ⟨fun other => ?_, fun other => ?_, current.lent, current.unflushed, fun entry member => ?_, current.expected,
        fun zero => current.published (grows zero)⟩
      · by_cases same : other = producer
        · simp only [same, Function.update_self]
          rfl
        · simp only [Function.update_of_ne same]
          exact current.flushed other
      · by_cases same : other = producer
        · simp only [same, Function.update_self]
          exact le_rfl
        · simp only [Function.update_of_ne same]
          exact current.behind other
      · exact (current.released entry member).trans_le (forward entry.1)

omit safe in
theorem flushRing_consumer (channel : Channel n m) (consumer : Fin m) (producer : Fin n) :
    ∃ flushed, (flushRing consumer channel producer).consumer consumer = {channel.consumer consumer with
        rx := {(channel.consumer consumer).rx with flushedPositions := flushed}} ∧
      flushed producer = (channel.consumer consumer).rx.readPositions producer ∧
      ∀ other, (channel.consumer consumer).rx.flushedPositions other =
          (channel.consumer consumer).rx.readPositions other →
        flushed other = (channel.consumer consumer).rx.readPositions other := by
  unfold flushRing
  dsimp only
  split
  · rename_i same
    exact ⟨_, rfl, same.symm, fun _ => id⟩
  · refine ⟨Function.update (channel.consumer consumer).rx.flushedPositions producer
      ((channel.consumer consumer).rx.readPositions producer),
      by simp [Channel.setRx, Channel.setConsumer, Channel.setPosition, Channel.setRing], ?_, fun other same => ?_⟩
    · exact Function.update_self _ _ _
    · by_cases equal : other = producer
      · rw [equal, Function.update_self]
      · rw [Function.update_of_ne equal]
        exact same

/-- The flushed rings have published what the consumer has read. -/
theorem flushRings_safe (rings : List (Fin n)) : Safe setup (rings.foldl (flushRing consumer) channel) ∧
    Forward channel (rings.foldl (flushRing consumer) channel) ∧
    ∃ flushed, (rings.foldl (flushRing consumer) channel).consumer consumer = {channel.consumer consumer with
        rx := {(channel.consumer consumer).rx with flushedPositions := flushed}} ∧
      ∀ other, other ∈ rings ∨ (channel.consumer consumer).rx.flushedPositions other =
          (channel.consumer consumer).rx.readPositions other →
        flushed other = (channel.consumer consumer).rx.readPositions other := by
  induction rings generalizing channel with
  | nil => exact ⟨safe, .refl channel, _, rfl, fun other either => either.resolve_left (by simp)⟩
  | cons producer rest ih =>
      obtain ⟨kept, forward⟩ := flushRing_safe safe consumer producer
      obtain ⟨first, shape, own, others⟩ := flushRing_consumer channel consumer producer
      obtain ⟨safeRest, forwardRest, flushed, last, reached⟩ := ih kept
      rw [shape] at last reached
      refine ⟨safeRest, forward.trans forwardRest, flushed, last, fun other either => reached other ?_⟩
      rcases either with member | same
      · rcases List.mem_cons.mp member with rfl | later
        · exact .inr own
        · exact .inl later
      · exact .inr (others other same)

theorem flushProgress_safe : Safe setup (flushProgress setup channel consumer) ∧
    Forward channel (flushProgress setup channel consumer) := by
  obtain ⟨kept, forward, flushed, shape, reached⟩ := flushRings_safe safe consumer (List.finRange n)
  unfold flushProgress
  generalize (List.finRange n).foldl (flushRing consumer) channel = last at kept forward shape ⊢
  have current := kept.consumers consumer
  have whole (producer : Fin n) : last.positions consumer producer =
      (last.consumer consumer).rx.readPositions producer := by
    rw [← current.flushed producer, shape]
    exact reached producer (.inl (List.mem_finRange producer))
  have same (producer : Fin n) : last.ring producer = {last.ring producer with
      consumerPositions := Function.update (last.ring producer).consumerPositions consumer
        (last.positions consumer producer)} := by
    have eta := Function.update_eq_self consumer (last.ring producer).consumerPositions
    simp only [Channel.positions, eta]
  have flushes (sequences : Fin m → Nat) (others : ∀ other, other ≠ consumer → sequences other =
      last.consumerSequences other)
      (published : (∀ producer, last.positions consumer producer = 0) → sequences consumer = 0) :
      Safe setup {last.setConsumer consumer fun current =>
          {current with released := current.released ++ current.unflushed, unflushed := []} with
        consumerSequences := sequences} ∧
      Forward last {last.setConsumer consumer fun current =>
          {current with released := current.released ++ current.unflushed, unflushed := []} with
        consumerSequences := sequences} := by
    refine kept.of_consumer consumer rfl rfl same (fun _ => le_rfl)
      (fun other different => ⟨Function.update_of_ne different _ _, others other different⟩) ?_
    simp only [Channel.setConsumer, Function.update_self]
    refine ⟨current.flushed, current.behind, current.lent, fun _ member => absurd member List.not_mem_nil,
      fun entry member => ?_, current.expected, published⟩
    rcases List.mem_append.mp member with old | new
    · exact current.released entry old
    · rw [whole]
      exact current.unflushed entry new
  dsimp only
  split
  · obtain ⟨safeLast, forwardLast⟩ := flushes (Function.update last.consumerSequences consumer
      (last.consumer consumer).rx.expectedSequence) (fun other different => Function.update_of_ne different _ _)
      fun zero => by
        rw [Function.update_self]
        exact current.expected fun producer => (whole producer).symm.trans (zero producer)
    have expected : ((last.setConsumer consumer fun current =>
        {current with released := current.released ++ current.unflushed, unflushed := []}).consumer consumer
          ).rx.expectedSequence = (last.consumer consumer).rx.expectedSequence := by simp [Channel.setConsumer]
    rw [expected]
    exact ⟨safeLast, forward.trans forwardLast⟩
  · obtain ⟨safeLast, forwardLast⟩ := flushes last.consumerSequences (fun _ _ => rfl) current.published
    exact ⟨safeLast, forward.trans forwardLast⟩

/-- A receiver created before any progress agrees with the published positions. -/
theorem createRx_safe (rested : channel.Rested consumer) (unread : channel.Unread consumer) :
    Safe setup (createRx channel consumer) ∧ Forward channel (createRx channel consumer) := by
  have current := safe.consumers consumer
  have zero (producer : Fin n) : (channel.consumer consumer).rx.readPositions producer = 0 := by
    rw [rested.2, current.flushed]
    exact unread producer
  refine safe.setConsumer consumer ⟨fun producer => (unread producer).symm, fun producer => (unread producer).le,
    fun producer message lent => ?_, fun entry member => ?_, current.released, fun _ => current.published unread,
    current.published⟩
  · rw [rested.1] at lent
    cases lent
  · have := current.unflushed entry member
    rw [zero] at this
    exact absurd this (lt_irrefl 0)

end Calls

/-- Every admitted call keeps the channel sound and moves no published position backwards. -/
theorem Safe.call (safe : Safe setup channel) {event : Event n m} (legal : event.Legal channel)
    (admits : event.Admitted channel) :
    Safe setup (channel.call setup event) ∧ Forward channel (channel.call setup event) := by
  cases event with
  | claim producer payloadLen => exact claim_safe safe producer payloadLen
  | claimBatch producer payloadLen maxFrames => exact claimBatch_safe safe producer payloadLen maxFrames admits
  | write producer claimed position data => exact write_safe safe legal.1 legal.2.1 legal.2.2
  | commit producer reservation =>
      rw [Channel.call, commit_eq reservation ((safe.rings producer).formed _ legal).2]
      exact committed_safe safe legal
  | commitBatch producer batch =>
      obtain ⟨formed, plain⟩ := (safe.rings producer).formed _ legal
      rw [Channel.call, commitBatch_eq batch formed plain]
      exact committed_safe safe legal
  | tryRecv consumer => exact tryRecv_safe safe consumer
  | tryRecvRun consumer room => exact tryRecvRun_safe safe consumer room
  | consume consumer message => exact consume_safe safe consumer legal
  | release consumer message => exact release_safe safe consumer legal
  | flushProgress consumer => exact flushProgress_safe safe consumer
  | createRx consumer => exact createRx_safe safe consumer legal admits

theorem Safe.start (setup : Setup n m) : Safe setup ({} : Channel n m) where
  rings _ := .start setup
  numbered := by
    unfold Numbered
    split
    · exact ⟨rfl, nofun⟩
    · exact fun _ => nofun
  consumers _ := ⟨fun _ => rfl, fun _ => le_rfl, nofun, nofun, nofun, fun _ => rfl, fun _ => rfl⟩

/-- The invariant of a whole run. -/
theorem Safe.run {start channel : Channel n m} (safe : Safe setup start)
    (run : Run setup (fun channel event => event.Admitted channel) start channel) :
    Safe setup channel ∧ Forward start channel := by
  induction run with
  | refl => exact ⟨safe, .refl start⟩
  | tail event run legal admits ih =>
      obtain ⟨kept, forward⟩ := ih
      obtain ⟨after, further⟩ := kept.call legal admits
      exact ⟨after, forward.trans further⟩

end Salias.HybridMpsc
