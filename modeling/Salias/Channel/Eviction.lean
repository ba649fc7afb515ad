import Salias.Channel.Retention
import Salias.Channel.Overlap

/-
A producer of the latest mode drops its oldest frames before it claims new ones. An attempt that succeeds has moved the
floor, and every lease of an active slot leaves the new bytes to the tail.
-/

namespace Salias.SharedHybridMpsc

open Concurrent Salias.Frame ConsumerRegistration

variable {n m : Nat} {K : Type}

section Facts

variable {setup : Setup n m K} {producer : Fin n} {consumer : Fin m} {before after state : State n m K} {limit : Nat}

/-- The lease of a consumer leaves the bytes below a limit to the tail. -/
def Yields (setup : Setup n m K) (producer : Fin n) (limit : Nat) (consumer : Fin m) (state : State n m K) : Prop :=
  state.slotActive consumer → (state.cursor producer consumer).leaseStage.Spares setup.capacity limit

/-- What a producer and the others leave alone while the producer looks for room. -/
structure Passes (setup : Setup n m K) (producer : Fin n) (before after : State n m K) : Prop where
  same : SameRetention producer before after
  carries : ∀ consumer, Retention.Carries setup producer consumer before after

theorem Yields.passes (yields : Yields setup producer limit consumer before) (passes : Passes setup producer before after)
    (behind : limit ≤ (before.ring producer).barrier + setup.capacity) : Yields setup producer limit consumer after := by
  intro active
  rcases passes.carries consumer active with ⟨earlier, continues⟩ | spares
  · exact continues.spares (yields earlier)
  · exact spares limit behind

theorem Retention.Spared.passes (spared : Retention.Spared setup producer before after) : Passes setup producer before after :=
  ⟨.of_owned spared.owned spared.tx, spared.carries⟩

/-- A producer clears a lease or leaves it alone. -/
theorem TxStep.carries (step : TxStep producer before after) (consumer : Fin m) :
    Retention.Carries setup producer consumer before after := by
  intro active
  rcases step.cursor consumer with same | ⟨-, -, cleared⟩
  · refine .inl ⟨?_, .inl (by rw [same])⟩
    rw [State.slotActive, ← step.slot]
    exact active
  · rw [cleared]
    exact .inr fun _ _ => trivial

theorem TxStep.leased (step : TxStep producer before after) {tail : Nat} {ring : ProducerRing m}
    (leases : ∀ consumer, before.slotActive consumer →
      Leased setup.capacity tail ring (before.cursor producer consumer)) (consumer : Fin m)
    (active : after.slotActive consumer) : Leased setup.capacity tail ring (after.cursor producer consumer) := by
  rcases step.cursor consumer with same | ⟨-, -, cleared⟩
  · rw [same]
    exact leases consumer (by rw [State.slotActive, ← step.slot]; exact active)
  · rw [cleared]
    exact .none rfl rfl

/-- There is room at the tail for a number of bytes and of messages. -/
structure Granted (setup : Setup n m K) (producer : Fin n) (length count : Nat) (state : State n m K) : Prop where
  bytes : (state.tx producer).producerPos + length ≤ (state.ring producer).retainedPosition + setup.retentionCapacity
  messages : setup.publicationWindowMessages ≠ 0 → (state.tx producer).messageSequence + count ≤
    (state.ring producer).retainedMessageSequence + setup.publicationWindowMessages
  bounded : (state.tx producer).producerPos + length ≤ kMax
  yields : ∀ consumer, Yields setup producer ((state.tx producer).producerPos + length) consumer state

theorem Granted.passes {length count : Nat} (retains : Retains setup producer after) (passes : Passes setup producer before after)
    (granted : Granted setup producer length count before) : Granted setup producer length count after := by
  obtain ⟨same, carries⟩ := passes
  have capacity := setup.retentionCapacity_le
  have bytes := granted.bytes
  have barrier := retains.barrier
  rw [same.barrier, same.retainedPosition] at barrier
  refine ⟨?_, ?_, ?_, fun consumer => ?_⟩
  · rw [same.producerPos, same.retainedPosition]
    exact bytes
  · rw [same.messageSequence, same.retainedMessageSequence]
    exact granted.messages
  · rw [same.producerPos]
    exact granted.bounded
  · rw [same.producerPos]
    exact (granted.yields consumer).passes ⟨same, carries⟩ (by omega)

/-- The floor of a ring stands at a frame, and it may be announced. -/
theorem Retains.floors (retains : Retains setup producer state) {change : ProducerRing m → ProducerRing m}
    {intent position count : Nat} (changes : change (state.ring producer) = {state.ring producer with
      retentionIntent := intent
      retainedPosition := position
      retainedMessageSequence := count})
    (rises : (state.ring producer).retainedPosition ≤ position)
    (counts : (state.ring producer).retainedMessageSequence ≤ count)
    (floor : ∃ count, Published.Place producer position count state)
    (counted : intent = kNoLease → Published.Place producer position count state)
    (announced : intent ≠ kNoLease → position ≤ intent) (published : position ≤ (state.ring producer).visibleProducerPos) :
    Retains setup producer (state.setRing producer change) := by
  have frames : ((state.setRing producer change).ring producer).frames = (state.ring producer).frames := by simp [changes]
  have bytes := retains.bytes
  refine ⟨?_, ?_, ?_, ?_, ?_, fun window => ?_, retains.bounded, fun consumer active => ?_⟩
  · obtain ⟨count, place⟩ := floor
    exact ⟨count, by simpa [changes] using place.congr frames⟩
  · intro clear
    simpa [changes] using (counted (by simpa [changes] using clear)).congr frames
  · simpa [changes] using announced
  · simpa [changes] using published
  · simp only [State.setRing_ring, State.setRing_tx, changes]
    omega
  · have messages := retains.messages window
    simp only [State.setRing_ring, State.setRing_tx, changes]
    omega
  · have leased := retains.leases consumer active
    simp only [State.setRing_ring, State.setRing_tx, State.cursor, changes]
    exact leased.forward le_rfl rises rfl leased.spares

/-- A claim at the tail that there is room for. -/
theorem Retains.allocate (retains : Retains setup producer state) {tail need count payloadLen expiresAt : Nat}
    {hasExpiry : Bool} {claimed : Nat → Claimed} (start : (state.tx producer).producerPos = tail)
    (clear : (state.ring producer).retentionIntent = kNoLease)
    (granted : Granted setup producer (need * count) count state) :
    Retains setup producer (state.allocate setup producer tail need count payloadLen hasExpiry expiresAt claimed) := by
  subst start
  have place := retains.counted clear
  rw [State.allocate_eq]
  have grows (position number : Nat) (place : Published.Place producer position number state) (later : State n m K)
      (frames : (later.ring producer).frames = (state.ring producer).frames ++
        state.allocated setup producer (state.tx producer).producerPos need count payloadLen hasExpiry expiresAt) :
      Published.Place producer position number later :=
    place.grows (frames ▸ List.prefix_append _ _)
  refine ⟨⟨_, grows _ _ (by simpa using place) _ (by simp)⟩, fun _ => grows _ _ (by simpa using place) _ (by simp), ?_, ?_, ?_,
    fun window => ?_, ?_, fun consumer active => ?_⟩
  · simp [clear]
  · simpa using retains.published
  · simpa using granted.bytes
  · simpa using granted.messages window
  · simpa using granted.bounded
  · refine Leased.forward (show Leased setup.capacity (state.tx producer).producerPos (state.ring producer) _ from ?_)
      ?_ ?_ ?_ ?_
    · simpa [State.cursor] using retains.leases consumer active
    · simp
    · simp
    · simp
    · simpa [State.cursor] using granted.yields consumer active

end Facts

namespace Retention

variable [DecidableEq K] {setup : Setup n m K} {producer : Fin n} {state base : State n m K}

/-- A step that moves no word of the retention. -/
theorem quiet_acts {before after : State n m K} (ready : (txContract setup producer).Ready before)
    (action : (txContract setup producer).action before after) (same : SameRetention producer before after) :
    (txContract setup producer).invariant after ∧ (txContract setup producer).guarantee before after := by
  have step : TxStep producer before after := action.step
  refine tx_acts ready action same.retainedPosition.ge same.retainedMessageSequence.ge ?_
  exact (ready.keeps producer).same same fun consumer active =>
    same.leased (step.leased (ready.keeps producer).leases consumer active)

/-- A program that moves no word of the retention keeps every fact that passes. -/
theorem quiet_safe {α : Type} {holds : State n m K → Prop} {program : Prog (State n m K) α}
    (each : Each (SameRetention producer) program)
    (keeps : ∀ {before after}, Passes setup producer before after → holds before → holds after) (entry : holds state) :
    Safe (txContract setup producer) (fun _ => holds) program state :=
  Safe.of_each each
    (fun ready action same held =>
      have acted := quiet_acts ready action same
      ⟨acted.1, acted.2, keeps ⟨same, TxStep.carries action.step⟩ held⟩)
    (fun rely _ held => keeps (Spared.passes rely) held) entry

omit [DecidableEq K] in
theorem reads_same {α : Type} {program : Prog (State n m K) α} (reads : Reads program) :
    Each (SameRetention producer) program := reads.each (.refl producer)

section Scan

variable {limit writeLength : Nat} {consumer : Fin m} {rest : List (Fin m)}

theorem txLawful (setup : Setup n m K) (producer : Fin n) : (txContract setup producer).Lawful :=
  lawful setup (.producer producer)

omit [DecidableEq K] in
/-- A lease that a write does not touch leaves the written bytes to the tail. -/
theorem spares_of_apart {tail : Nat} {ring : ProducerRing m} {cursor : ConsumerSharedState}
    (leased : Leased setup.capacity tail ring cursor) (fits : writeLength ≤ setup.capacity)
    (short : cursor.leaseEnd - cursor.leaseStart ≤ setup.capacity)
    (apart : ringRangesOverlap tail writeLength cursor.leaseStart (cursor.leaseEnd - cursor.leaseStart)
      setup.capacity = false) : cursor.leaseStage.Spares setup.capacity (tail + writeLength) := by
  refine leased.spares.reach fun some behind => ?_
  have proper := (leased.proper some).1
  rw [← leased.start] at behind ⊢
  by_contra laps
  have meets := overlaps_of_lap setup.capacity_single (by have := setup.capacity_le; omega) fits short (by omega) behind
    (by omega)
  rw [apart] at meets
  cases meets

/-- The words of the retention are those of a state, and the consumers outside of a list yield the bytes below a limit. -/
def Scanned (setup : Setup n m K) (producer : Fin n) (base : State n m K) (limit : Nat) (rest : List (Fin m))
    (state : State n m K) : Prop :=
  SameRetention producer base state ∧ ∀ consumer, consumer ∉ rest → Yields setup producer limit consumer state

omit [DecidableEq K] in
theorem Scanned.passes {before after : State n m K} (behind : limit ≤ (base.ring producer).barrier + setup.capacity)
    (passes : Passes setup producer before after) (scanned : Scanned setup producer base limit rest before) :
    Scanned setup producer base limit rest after :=
  ⟨scanned.1.trans passes.same, fun consumer absent => (scanned.2 consumer absent).passes passes (by
    rw [scanned.1.barrier]
    exact behind)⟩

omit [DecidableEq K] in
theorem Scanned.next (scanned : Scanned setup producer base limit (consumer :: rest) state)
    (yields : Yields setup producer limit consumer state) : Scanned setup producer base limit rest state := by
  refine ⟨scanned.1, fun other absent => ?_⟩
  by_cases own : other = consumer
  · exact own ▸ yields
  · exact scanned.2 other (by simp [own, absent])

/-- One round of the scan: the lease of the consumer is out of the way, or the write is refused. -/
theorem leaseRound_safe (behind : (base.tx producer).producerPos + writeLength ≤ (base.ring producer).barrier + setup.capacity)
    (fits : writeLength ≤ setup.capacity)
    (entry : Scanned setup producer base ((base.tx producer).producerPos + writeLength) (consumer :: rest) state) :
    Safe (txContract setup producer) (fun result current => match result with
        | .inl _ => Scanned setup producer base ((base.tx producer).producerPos + writeLength) rest current
        | .inr _ => SameRetention producer base current)
      (leaseRound setup producer (base.tx producer).producerPos writeLength () consumer) state := by
  generalize limits : (base.tx producer).producerPos + writeLength = limit at behind entry ⊢
  have refuses {current : State n m K} (held : Scanned setup producer base limit (consumer :: rest) current) :
      Safe (txContract setup producer) (fun (result : Unit ⊕ Bool) current => match result with
        | .inl _ => Scanned setup producer base limit rest current
        | .inr _ => SameRetention producer base current) (.ret (.inr false)) current :=
    fun _ rely _ => held.1.trans (Spared.passes rely).same
  have passed {current : State n m K} (held : Scanned setup producer base limit rest current) :
      Safe (txContract setup producer) (fun (result : Unit ⊕ Bool) current => match result with
        | .inl _ => Scanned setup producer base limit rest current
        | .inr _ => SameRetention producer base current) (.ret (.inl ())) current :=
    fun _ rely _ => held.passes behind (Spared.passes rely)
  refine Safe.load_bind (txLawful setup producer) fun first rely ready => ?_
  have held := entry.passes behind (Spared.passes rely)
  have leased := (ready.keeps producer).leases consumer
  split
  · rename_i free
    refine passed (held.next fun active => ?_)
    rw [(leased active).none_of_free ((ready.keeps producer).visible_le (ready.knows.commits producer)) free]
    trivial
  rename_i taken
  -- until the end of the lease is read, another lease may take its place behind the barrier
  have seen : first.slotActive consumer → (first.cursor producer consumer).leaseStage.start =
      ((first.ring producer).consumers consumer).leaseStart ∨
      (first.cursor producer consumer).leaseStage.Spares setup.capacity limit :=
    fun active => .inl (leased active).start.symm
  generalize ((first.ring producer).consumers consumer).leaseStart = leaseStart at taken seen ⊢
  refine Safe.load_bind (txLawful setup producer) fun second rely ready => ?_
  have held' := held.passes behind (Spared.passes rely)
  have seen' : second.slotActive consumer → (second.cursor producer consumer).leaseStage.start = leaseStart ∨
      (second.cursor producer consumer).leaseStage.Spares setup.capacity limit := by
    intro active
    rcases rely.carries consumer active with ⟨earlier, continues⟩ | spares
    · exact (seen earlier).imp (fun same => continues.start_eq.trans same) continues.spares
    · exact .inr (spares limit (held.1.barrier ▸ behind))
  split
  · exact refuses held'
  rename_i proper
  split
  · rename_i apart
    refine passed (held'.next fun active => (seen' active).elim (fun same => ?_) id)
    have leased := (ready.keeps producer).leases consumer active
    have start : ((second.ring producer).consumers consumer).leaseStart = leaseStart := leased.start.trans same
    rw [← start] at apart proper
    rw [← limits, ← held'.1.producerPos]
    rw [← held'.1.producerPos] at apart
    exact spares_of_apart leased fits (by rw [not_or, not_lt, not_lt] at proper; exact proper.2) apart
  refine Safe.bind (txLawful setup producer) (quiet_safe (reads_same (.load _)) (Scanned.passes behind) held')
    fun word third _ held => ?_
  refine Safe.bind (txLawful setup producer) (quiet_safe (reads_same (.load _)) (Scanned.passes behind) held)
    fun current fourth _ held => ?_
  split
  · exact refuses held
  refine Safe.bind (txLawful setup producer) (quiet_safe (reads_same (reads_isProcessAlive consumer))
    (Scanned.passes behind) held) fun alive fifth _ held => ?_
  refine Safe.bind (txLawful setup producer) (quiet_safe (reads_same (.load _)) (Scanned.passes behind) held)
    fun again sixth _ held => ?_
  split
  · exact refuses held
  refine Safe.store_bind fun last rely ready action => ?_
  have held := held.passes behind (Spared.passes rely)
  have same : SameRetention producer last (last.setCursor producer consumer fun cursor =>
      {cursor with leaseStart := kNoLease, leaseStage := .none}) := .of_owned (by simp) rfl
  obtain ⟨kept, guaranteed⟩ := quiet_acts ready action same
  refine ⟨kept, guaranteed, passed ((held.passes behind ⟨same, TxStep.carries action.step⟩).next fun _ => ?_)⟩
  rw [State.setCursor_cursor]
  trivial

end Scan

section Walk

variable {floor : Nat × Nat}

/-- The walk has dropped whole frames only, all of them published. -/
structure Walked (producer : Fin n) (base : State n m K) (floor : Nat × Nat) : Prop where
  place : Published.Place producer floor.1 floor.2 base
  above : (base.ring producer).retainedPosition ≤ floor.1
  counts : (base.ring producer).retainedMessageSequence ≤ floor.2
  below : floor.1 ≤ (base.ring producer).visibleProducerPos

/-- One round of the walk drops one frame: the header of a retained frame holds its length. -/
theorem evictionRound_safe {projectedTail projectedMessages : Nat} (walked : Walked producer base floor)
    (entry : SameRetention producer base state) :
    Safe (txContract setup producer) (fun result current => match result with
        | .inl next => SameRetention producer base current ∧ Walked producer base next
        | .inr stop => SameRetention producer base current ∧ ∀ floor, stop = some floor → Walked producer base floor)
      (evictionRound setup producer projectedTail projectedMessages (base.ring producer).visibleProducerPos floor)
      state := by
  unfold evictionRound
  split
  · rename_i more
    simp only [Bool.and_eq_true, decide_eq_true_eq] at more
    refine Safe.load_bind (txLawful setup producer) fun current rely ready => ?_
    have same := entry.trans (Spared.passes rely).same
    have retains := ready.keeps producer
    have place : Published.Place producer floor.1 floor.2 current := walked.place.congr same.frames
    have seen := ready.knows.visible producer
    rw [same.visible] at seen
    obtain ⟨frame, published, start⟩ := ready.knows.next place seen more.2
    have resident : (current.tx producer).producerPos ≤ frame.start + setup.capacity := by
      have bytes := retains.bytes
      have capacity := setup.retentionCapacity_le
      have above := walked.above
      rw [same.retainedPosition] at bytes
      omega
    have small := ((ready.knows.membership.exact producer).valid frame published.member).payloadLen
    have length : frameLen (headerPayloadLen (Circular.loadWord setup.capacity (current.ring producer).memory floor.1))
        (hasFlag (headerMeta (Circular.loadWord setup.capacity (current.ring producer).memory floor.1))
          FLAG_HAS_EXPIRY) = frame.length := by
      rw [← start, (ready.knows.complete published resident).header, headerPayloadLen_packHeader small,
        headerMeta_packHeader small, hasExpiry_frameMeta]
      rfl
    dsimp only
    rw [length, ← start]
    split
    · exact fun _ rely _ => ⟨same.trans (Spared.passes rely).same, fun _ none => by cases none⟩
    · have stop : Published.Place producer frame.stop (floor.2 + 1) current := (ready.knows.bounds published.1).2
      have below := published.2
      rw [same.visible] at below
      have next : Walked producer base (frame.stop, floor.2 + 1) :=
        ⟨stop.congr same.frames.symm, by have := walked.above; have := frame.start_lt_stop; dsimp only; omega,
          by have := walked.counts; dsimp only; omega, below⟩
      exact fun _ rely _ => ⟨same.trans (Spared.passes rely).same, next⟩
  · exact fun _ rely _ => ⟨entry.trans (Spared.passes rely).same, fun _ stop => by cases stop; exact walked⟩

/-- The floor is announced, and beyond it there is room for a write at the tail; its words have reached another position. -/
structure Announced (setup : Setup n m K) (producer : Fin n) (floor kept : Nat × Nat) (tail length count : Nat)
    (state : State n m K) : Prop where
  intent : (state.ring producer).retentionIntent = floor.1
  marked : floor.1 ≠ kNoLease
  place : Published.Place producer floor.1 floor.2 state
  position : (state.ring producer).retainedPosition = kept.1
  counted : (state.ring producer).retainedMessageSequence = kept.2
  below : floor.1 ≤ (state.ring producer).visibleProducerPos
  stands : (state.tx producer).producerPos = tail
  bytes : tail + length ≤ floor.1 + setup.retentionCapacity
  messages : setup.publicationWindowMessages ≠ 0 →
    (state.tx producer).messageSequence + count ≤ floor.2 + setup.publicationWindowMessages
  bounded : tail + length ≤ kMax

/-- The leases have yielded the bytes of the write, so the words of the floor may follow. -/
structure Moves (setup : Setup n m K) (producer : Fin n) (floor kept : Nat × Nat) (tail length count : Nat)
    (state : State n m K) : Prop extends Announced setup producer floor kept tail length count state where
  yields : ∀ consumer, Yields setup producer (tail + length) consumer state

variable {kept : Nat × Nat} {tail length count : Nat} {before after : State n m K}

omit [DecidableEq K]

theorem Announced.behind (announced : Announced setup producer floor kept tail length count state) :
    tail + length ≤ (state.ring producer).barrier + setup.capacity := by
  have bytes := announced.bytes
  have capacity := setup.retentionCapacity_le
  rw [ProducerRing.barrier, announced.intent, if_neg announced.marked]
  omega

theorem Announced.same (announced : Announced setup producer floor kept tail length count before)
    (same : SameRetention producer before after) : Announced setup producer floor kept tail length count after := by
  refine ⟨?_, announced.marked, announced.place.congr same.frames, ?_, ?_, ?_, ?_, announced.bytes, ?_,
    announced.bounded⟩
  · rw [same.retentionIntent, announced.intent]
  · rw [same.retainedPosition, announced.position]
  · rw [same.retainedMessageSequence, announced.counted]
  · rw [same.visible]
    exact announced.below
  · rw [same.producerPos, announced.stands]
  · rw [same.messageSequence]
    exact announced.messages

theorem Moves.passes (passes : Passes setup producer before after)
    (moves : Moves setup producer floor kept tail length count before) :
    Moves setup producer floor kept tail length count after :=
  ⟨moves.toAnnounced.same passes.same, fun consumer => (moves.yields consumer).passes passes moves.behind⟩

variable [DecidableEq K]

/-- A store that may move one word of the floor up to the announced one. -/
theorem move_safe (next : Nat × Nat) {condition : Prop} [Decidable condition] {change : ProducerRing m → ProducerRing m}
    (moves : Moves setup producer floor kept tail length count state) (stays : ¬ condition → next = kept)
    (changes : ∀ ring : ProducerRing m, ring.retentionIntent = floor.1 → ring.retainedPosition = kept.1 →
      ring.retainedMessageSequence = kept.2 → change ring = {ring with
        retentionIntent := floor.1
        retainedPosition := next.1
        retainedMessageSequence := next.2})
    (place : next.1 = kept.1 ∨ next.1 = floor.1) (rises : kept.1 ≤ next.1) (counts : kept.2 ≤ next.2)
    (within : next.1 ≤ floor.1) :
    Safe (txContract setup producer) (fun _ => Moves setup producer floor next tail length count)
      (.when condition (.store fun state => state.setRing producer change)) state := by
  unfold Prog.when
  split
  · refine Safe.store_last fun current rely ready action => ?_
    have moves := moves.passes (Spared.passes rely)
    have retains := ready.keeps producer
    have changes := changes (current.ring producer) moves.intent moves.position moves.counted
    have floored : Retains setup producer (current.setRing producer change) := by
      refine retains.floors changes (by rw [moves.position]; exact rises) (by rw [moves.counted]; exact counts) ?_
        (fun none => absurd none moves.marked) (fun _ => within) (within.trans moves.below)
      rcases place with same | same
      · rw [same, ← moves.position]
        exact retains.floor
      · exact ⟨_, same ▸ moves.place⟩
    obtain ⟨kept', guaranteed⟩ := tx_acts ready action (by simp [changes, moves.position, rises])
      (by simp [changes, moves.counted, counts]) floored
    have moved : Moves setup producer floor next tail length count (current.setRing producer change) := by
      refine ⟨⟨by simp [changes], moves.marked, moves.place.congr (by simp [changes]), by simp [changes],
        by simp [changes], by simpa [changes] using moves.below, moves.stands, moves.bytes, moves.messages, moves.bounded⟩,
        fun consumer active => ?_⟩
      have yields := moves.yields consumer active
      simpa [State.cursor, changes] using yields
    exact ⟨kept', guaranteed, fun _ rely _ => moved.passes (Spared.passes rely)⟩
  · rename_i idle
    rw [stays idle]
    exact fun _ rely _ => moves.passes (Spared.passes rely)

/-- Between two attempts no floor is announced, and the tail stands. -/
structure Waiting (producer : Fin n) (tail : Nat) (state : State n m K) : Prop where
  clear : (state.ring producer).retentionIntent = kNoLease
  stands : (state.tx producer).producerPos = tail

omit [DecidableEq K] in
theorem Waiting.same {tail : Nat} (waiting : Waiting producer tail before) (same : SameRetention producer before after) :
    Waiting producer tail after :=
  ⟨same.retentionIntent.trans waiting.clear, same.producerPos.trans waiting.stands⟩

/-- An announcement of a floor, or its withdrawal. -/
theorem intent_acts {intent : Nat} (ready : (txContract setup producer).Ready state)
    (action : (txContract setup producer).action state
      (state.setRing producer fun ring => {ring with retentionIntent := intent}))
    (counted : intent = kNoLease → Published.Place producer (state.ring producer).retainedPosition
      (state.ring producer).retainedMessageSequence state)
    (announced : intent ≠ kNoLease → (state.ring producer).retainedPosition ≤ intent) :
    (txContract setup producer).invariant (state.setRing producer fun ring => {ring with retentionIntent := intent}) ∧
      (txContract setup producer).guarantee state
        (state.setRing producer fun ring => {ring with retentionIntent := intent}) := by
  have retains := ready.keeps producer
  exact tx_acts ready action (by simp) (by simp)
    (retains.floors rfl le_rfl le_rfl retains.floor counted announced retains.published)

/-- A refused write withdraws its announcement. -/
theorem withdraw_safe {tail length count : Nat} (announced : Announced setup producer floor kept tail length count base)
    (place : Published.Place producer kept.1 kept.2 base) (entry : SameRetention producer base state) :
    Safe (txContract setup producer) (fun prepared state => Waiting producer tail state ∧
        (prepared = true → Granted setup producer length count state)) (do
      setRetentionIntent producer kNoLease
      pure false) state := by
  refine Safe.store_bind fun current rely ready action => ?_
  have same := entry.trans (Spared.passes rely).same
  obtain ⟨kept, guaranteed⟩ := intent_acts ready action (fun _ => by
    rw [same.retainedPosition, same.retainedMessageSequence, announced.position, announced.counted]
    exact place.congr same.frames) fun none => absurd rfl none
  have waiting : Waiting producer tail (current.setRing producer fun ring => {ring with retentionIntent := kNoLease}) :=
    ⟨by simp, same.producerPos.trans announced.stands⟩
  exact ⟨kept, guaranteed, fun _ rely _ => ⟨waiting.same (Spared.passes rely).same, fun granted => by cases granted⟩⟩

/-- The words of the floor follow the announced one, and the announcement ends. -/
theorem follow_safe {tail length count : Nat} (moves : Moves setup producer floor kept tail length count state)
    (above : kept.1 ≤ floor.1) (counts : kept.2 ≤ floor.2) :
    Safe (txContract setup producer) (fun prepared state => Waiting producer tail state ∧
        (prepared = true → Granted setup producer length count state)) (do
      .when (floor.1 ≠ kept.1)
        (.store fun state => state.setRing producer fun ring => {ring with retainedPosition := floor.1})
      .when (floor.2 ≠ kept.2)
        (.store fun state => state.setRing producer fun ring => {ring with retainedMessageSequence := floor.2})
      setRetentionIntent producer kNoLease
      pure true) state := by
  refine Safe.bind (txLawful setup producer) (move_safe (floor.1, kept.2) moves
    (fun idle => Prod.ext (not_not.mp idle) rfl) (fun ring intent _ counted => by cases ring; simp_all) (.inr rfl) above
    le_rfl le_rfl) fun _ _ _ moves => ?_
  refine Safe.bind (txLawful setup producer) (move_safe floor moves (fun idle => Prod.ext rfl (not_not.mp idle))
    (fun ring intent position _ => by cases ring; simp_all) (.inr rfl) le_rfl counts le_rfl) fun _ _ _ moves => ?_
  refine Safe.store_bind fun last rely ready action => ?_
  have moves := moves.passes (Spared.passes rely)
  obtain ⟨kept, guaranteed⟩ := intent_acts ready action (fun _ => by
    rw [moves.position, moves.counted]
    exact moves.place) fun none => absurd rfl none
  have waiting : Waiting producer tail (last.setRing producer fun ring => {ring with retentionIntent := kNoLease}) :=
    ⟨by simp, moves.stands⟩
  have granted : Granted setup producer length count
      (last.setRing producer fun ring => {ring with retentionIntent := kNoLease}) := by
    refine ⟨?_, fun window => ?_, ?_, fun consumer active => ?_⟩
    · simpa [moves.position, moves.stands] using moves.bytes
    · simpa [moves.counted] using moves.messages window
    · simpa [moves.stands] using moves.bounded
    · have yields := moves.yields consumer active
      simpa [State.cursor, moves.stands] using yields
  exact ⟨kept, guaranteed, fun _ rely ready => ⟨waiting.same (Spared.passes rely).same, fun _ =>
    granted.passes (ready.keeps producer) (Spared.passes rely)⟩⟩

/-- What a walk from the words of a state has to show before its floor is announced. -/
structure Admits (setup : Setup n m K) (producer : Fin n) (base : State n m K) (floor : Nat × Nat) (tail length count : Nat) :
    Prop extends Walked producer base floor where
  clear : (base.ring producer).retentionIntent = kNoLease
  stands : (base.tx producer).producerPos = tail
  fits : length ≤ setup.capacity
  some : 0 < length
  bytes : tail + length ≤ floor.1 + setup.retentionCapacity
  messages : setup.publicationWindowMessages ≠ 0 →
    (base.tx producer).messageSequence + count ≤ floor.2 + setup.publicationWindowMessages
  bounded : tail + length ≤ kMax

/-- The announced write is refused, or there is room for it. -/
theorem announceAndEvict_safe {tail length count : Nat} (admits : Admits setup producer base floor tail length count)
    (entry : SameRetention producer base state) :
    Safe (txContract setup producer) (fun prepared state => Waiting producer tail state ∧
        (prepared = true → Granted setup producer length count state))
      (announceAndEvict setup producer tail length
        ((base.ring producer).retainedPosition, (base.ring producer).retainedMessageSequence) floor) state := by
  refine Safe.store_bind fun first rely ready action => ?_
  have same := entry.trans (Spared.passes rely).same
  have stands := same.producerPos.trans admits.stands
  have marked : floor.1 ≠ kNoLease := by
    have below := admits.below
    have commits := ready.knows.commits producer
    have visible := commits.visible
    have behind := commits.spans.behind
    have seen := same.visible
    have bounded := admits.bounded
    have some := admits.some
    rw [kNoLease]
    omega
  obtain ⟨kept, guaranteed⟩ := intent_acts ready action (fun none => absurd none marked) fun _ => by
    rw [same.retainedPosition]
    exact admits.above
  refine ⟨kept, guaranteed, ?_⟩
  have place : Published.Place producer (base.ring producer).retainedPosition (base.ring producer).retainedMessageSequence
      first := by
    have place := (ready.keeps producer).counted (same.retentionIntent.trans admits.clear)
    rwa [same.retainedPosition, same.retainedMessageSequence] at place
  have place : Published.Place producer (base.ring producer).retainedPosition (base.ring producer).retainedMessageSequence
      (first.setRing producer fun ring => {ring with retentionIntent := floor.1}) := place.congr (by simp)
  have announced : Announced setup producer floor
      ((base.ring producer).retainedPosition, (base.ring producer).retainedMessageSequence) tail length count
      (first.setRing producer fun ring => {ring with retentionIntent := floor.1}) := by
    refine ⟨by simp, marked, (admits.place.congr same.frames).congr (by simp), by simp [same.retainedPosition],
      by simp [same.retainedMessageSequence], ?_, stands, admits.bytes, fun window => ?_, admits.bounded⟩
    · simpa [same.visible] using admits.below
    · simpa [same.messageSequence] using admits.messages window
  generalize (first.setRing producer fun ring => {ring with retentionIntent := floor.1}) = second at announced place ⊢
  have limits := announced.behind
  rw [← announced.stands] at limits
  refine Safe.bind (txLawful setup producer) (Safe.foldUntil (txLawful setup producer)
    (I := fun rest _ state => Scanned setup producer second (tail + length) rest state)
    (S := fun _ state => SameRetention producer second state)
    (fun rely _ held => held.passes announced.behind (Spared.passes rely))
    (fun consumer rest carried current held => ?_)
    (fun rely _ held => held.trans (Spared.passes rely).same)
    ⟨.refl producer second, fun consumer absent => absurd (List.mem_finRange consumer) absent⟩) fun scanned third _ held => ?_
  · rw [← announced.stands] at held ⊢
    refine Safe.weaken (leaseRound_safe limits admits.fits held) fun result _ _ held => ?_
    cases result <;> exact held
  cases scanned with
  | inr refused => exact withdraw_safe announced place held
  | inl done =>
      have held : Scanned setup producer second (tail + length) [] third := held
      exact follow_safe ⟨announced.same held.1, fun consumer => held.2 consumer List.not_mem_nil⟩ admits.above admits.counts

/-- An attempt that succeeds leaves room at the tail; one that fails leaves the tail where it was. -/
theorem prepareDropOldestWrite_safe {tail writeLength writeCount : Nat} (positive : 0 < writeLength)
    (entry : Waiting producer tail state) :
    Safe (txContract setup producer) (fun prepared state => Waiting producer tail state ∧
        (prepared = true → Granted setup producer writeLength writeCount state))
      (prepareDropOldestWrite setup producer tail writeLength writeCount) state := by
  have refuses {current : State n m K} (waiting : Waiting producer tail current) :
      Safe (txContract setup producer) (fun prepared state => Waiting producer tail state ∧
        (prepared = true → Granted setup producer writeLength writeCount state)) (.ret false) current :=
    fun _ rely _ => ⟨waiting.same (Spared.passes rely).same, fun granted => by cases granted⟩
  unfold prepareDropOldestWrite
  dsimp only
  split
  · exact refuses entry
  rename_i possible
  refine Safe.load_bind (txLawful setup producer) fun first rely _ => ?_
  have waiting := entry.same (Spared.passes rely).same
  refine Safe.load_bind (txLawful setup producer) fun second relySecond _ => ?_
  refine Safe.load_bind (txLawful setup producer) fun base relyThird ready => ?_
  have waiting := waiting.same ((Spared.passes relySecond).same.trans (Spared.passes relyThird).same)
  have retained : (first.ring producer).retainedPosition = (base.ring producer).retainedPosition :=
    ((Spared.passes relySecond).same.trans (Spared.passes relyThird).same).retainedPosition.symm
  have counted : (second.ring producer).retainedMessageSequence = (base.ring producer).retainedMessageSequence :=
    (Spared.passes relyThird).same.retainedMessageSequence.symm
  rw [retained, counted]
  split
  · exact refuses waiting
  rename_i sane
  have published : (base.tx producer).publishedPos = (base.ring producer).visibleProducerPos :=
    (ready.knows.commits producer).visible.symm
  rw [published]
  have retains := ready.keeps producer
  have below := retains.published
  refine Safe.bind (txLawful setup producer) (Safe.repeatUntil (txLawful setup producer)
    (I := fun floor state => SameRetention producer base state ∧ Walked producer base floor)
    (S := fun stop state => SameRetention producer base state ∧ ∀ floor, stop = some floor → Walked producer base floor)
    (fun rely _ held => ⟨held.1.trans (Spared.passes rely).same, held.2⟩) (fun floor current held => ?_)
    (fun rely _ held => ⟨held.1.trans (Spared.passes rely).same, held.2⟩)
    ⟨.refl producer base, retains.counted waiting.clear, le_rfl, le_rfl, below⟩) fun walked current _ held => ?_
  · refine Safe.weaken (evictionRound_safe held.2 held.1) fun result _ _ held => ?_
    cases result <;> exact held
  rcases walked with next | stop
  · have same : SameRetention producer base current := held.1
    exact refuses (waiting.same same)
  obtain ⟨same, walked⟩ : SameRetention producer base current ∧ ∀ floor, stop = some floor → Walked producer base floor :=
    held
  cases stop with
  | none => exact refuses (waiting.same same)
  | some floor =>
  dsimp only
  split
  · exact refuses (waiting.same same)
  rename_i within
  refine Safe.bind (txLawful setup producer) (quiet_safe (reads_same ?_)
    (fun passes held => SameRetention.trans held passes.same) same) fun allowed last _ held => ?_
  · split
    · exact reads_reliableConsumersAllowRetention producer _ _ _ _
    · exact .ret _
  split
  · simp only [overRetention, Bool.or_eq_true, Bool.and_eq_true, bne_iff_ne, decide_eq_true_eq, not_or, not_and,
      not_lt] at within
    have large : setup.retentionCapacity ≤ kMax := by
      have retention := setup.retentionCapacity_le
      have capacity := setup.capacity_le
      rw [kMax]
      omega
    refine announceAndEvict_safe ⟨walked floor rfl, waiting.clear, waiting.stands, by omega, positive, by omega,
      fun window => ?_, by omega⟩ held
    have room := within.2 window
    omega
  · exact refuses (waiting.same held)

end Walk

end Retention

end Salias.SharedHybridMpsc
