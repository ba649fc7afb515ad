import Salias.Channel.Membership

/-
Most programs of a transmitter change nothing that the membership is about.
-/

namespace Salias.SharedHybridMpsc

open Concurrent Salias.Frame ConsumerRegistration

variable {n m : Nat} {K : Type}

/-- The two counters of back-pressure. -/
inductive Gauge where
  | bytes
  | messages
  deriving DecidableEq

namespace Gauge

/-- The counter of the producer. -/
def own : Gauge → Tx → Nat
  | bytes => Tx.producerPos
  | messages => Tx.messageSequence

/-- The minimum that the producer has cached. -/
def cached : Gauge → Tx → Nat
  | bytes => Tx.cachedConsumerPos
  | messages => Tx.cachedConsumerMessageSequence

/-- The counter that a consumer publishes. -/
def read : Gauge → ConsumerSharedState → Nat
  | bytes => ConsumerSharedState.position
  | messages => ConsumerSharedState.messageSequence

end Gauge

/-- A program that only reads. -/
def Reads {σ α : Type} (program : Prog σ α) : Prop := Each (fun before after => after = before) program

/-- An action of a transmitter outside of the tally, the claim flag and the words of the consumers. -/
structure TxKeeps (producer : Fin n) (before after : State n m K) : Prop where
  slot : after.slot = before.slot
  consumerSequences : after.consumerSequences = before.consumerSequences
  globalSequence : after.globalSequence = before.globalSequence
  gate : after.registrationGate = before.registrationGate
  clock : after.clock = before.clock
  alive : after.alive = before.alive
  client : after.client = before.client
  others : ∀ other, other ≠ producer → after.ring other = before.ring other ∧ after.tx other = before.tx other
  cursor : ∀ consumer, after.cursor producer consumer = before.cursor producer consumer
  tally : after.tally producer = before.tally producer
  claimActive : (after.ring producer).claimActive = (before.ring producer).claimActive

namespace TxKeeps

variable {producer : Fin n} {before after : State n m K}

theorem refl (producer : Fin n) (state : State n m K) : TxKeeps producer state state :=
  ⟨rfl, rfl, rfl, rfl, rfl, rfl, rfl, fun _ _ => ⟨rfl, rfl⟩, fun _ => rfl, rfl, rfl⟩

theorem step (keeps : TxKeeps producer before after) : TxStep producer before after where
  slot := keeps.slot
  consumerSequences := keeps.consumerSequences
  gate := keeps.gate
  clock := keeps.clock
  alive := keeps.alive
  client := keeps.client
  others := keeps.others
  cursor consumer := .inl (keeps.cursor consumer)
  opens closed opened := absurd ((keeps.claimActive.trans closed).symm.trans opened) (by decide)
  quiet _ := ⟨keeps.tally, keeps.globalSequence⟩
  grows := by
    have frames := congrArg Tally.frames keeps.tally
    simp only [State.tally] at frames
    rw [frames]

/-- The private members outside of the counters are free. -/
theorem of_setTx (state : State n m K) (change : Tx → Tx)
    (counters : (change (state.tx producer)).producerPos = (state.tx producer).producerPos ∧
      (change (state.tx producer)).messageSequence = (state.tx producer).messageSequence ∧
      (change (state.tx producer)).localSequence = (state.tx producer).localSequence) :
    TxKeeps producer state (state.setTx producer change) where
  slot := rfl
  consumerSequences := rfl
  globalSequence := rfl
  gate := rfl
  clock := rfl
  alive := rfl
  client := rfl
  others other different := ⟨rfl, by simp [different]⟩
  cursor _ := rfl
  tally := by simp [State.tally, counters]
  claimActive := rfl

/-- The words of a ring outside of the announcement, the claim flag and the consumers are free. -/
theorem of_setRing (state : State n m K) (change : ProducerRing m → ProducerRing m)
    (announced : (change (state.ring producer)).reservationPosition = (state.ring producer).reservationPosition ∧
      (change (state.ring producer)).reservationSequence = (state.ring producer).reservationSequence ∧
      (change (state.ring producer)).reservationMessageSequence =
        (state.ring producer).reservationMessageSequence ∧
      (change (state.ring producer)).localSequence = (state.ring producer).localSequence ∧
      (change (state.ring producer)).frames = (state.ring producer).frames)
    (claimActive : (change (state.ring producer)).claimActive = (state.ring producer).claimActive)
    (consumers : (change (state.ring producer)).consumers = (state.ring producer).consumers) :
    TxKeeps producer state (state.setRing producer change) where
  slot := rfl
  consumerSequences := rfl
  globalSequence := rfl
  gate := rfl
  clock := rfl
  alive := rfl
  client := rfl
  others other different := ⟨by simp [different], rfl⟩
  cursor consumer := by simp [State.cursor, consumers]
  tally := by simp [State.tally, announced]
  claimActive := by simp [claimActive]

theorem trans {middle : State n m K} (first : TxKeeps producer before middle)
    (second : TxKeeps producer middle after) : TxKeeps producer before after where
  slot := second.slot.trans first.slot
  consumerSequences := second.consumerSequences.trans first.consumerSequences
  globalSequence := second.globalSequence.trans first.globalSequence
  gate := second.gate.trans first.gate
  clock := second.clock.trans first.clock
  alive := second.alive.trans first.alive
  client := second.client.trans first.client
  others other different :=
    ⟨(second.others other different).1.trans (first.others other different).1,
      (second.others other different).2.trans (first.others other different).2⟩
  cursor consumer := (second.cursor consumer).trans (first.cursor consumer)
  tally := second.tally.trans first.tally
  claimActive := second.claimActive.trans first.claimActive

end TxKeeps

/-- A write or a commit also leaves the floor and the cached progress of the consumers alone. -/
structure TxCommits (producer : Fin n) (before after : State n m K) : Prop extends TxKeeps producer before after where
  cachedConsumerPos : (after.tx producer).cachedConsumerPos = (before.tx producer).cachedConsumerPos
  cachedConsumerMessageSequence :
    (after.tx producer).cachedConsumerMessageSequence = (before.tx producer).cachedConsumerMessageSequence
  floor : (after.ring producer).retainedPosition = (before.ring producer).retainedPosition ∧
    (after.ring producer).retainedMessageSequence = (before.ring producer).retainedMessageSequence ∧
    (after.ring producer).retentionIntent = (before.ring producer).retentionIntent

namespace TxCommits

variable {producer : Fin n} {before middle after : State n m K}

theorem refl (producer : Fin n) (state : State n m K) : TxCommits producer state state :=
  ⟨.refl producer state, rfl, rfl, rfl, rfl, rfl⟩

theorem trans (first : TxCommits producer before middle) (second : TxCommits producer middle after) :
    TxCommits producer before after where
  toTxKeeps := first.toTxKeeps.trans second.toTxKeeps
  cachedConsumerPos := second.cachedConsumerPos.trans first.cachedConsumerPos
  cachedConsumerMessageSequence := second.cachedConsumerMessageSequence.trans first.cachedConsumerMessageSequence
  floor := ⟨second.floor.1.trans first.floor.1, second.floor.2.1.trans first.floor.2.1,
    second.floor.2.2.trans first.floor.2.2⟩

/-- The bytes, the published position and the history of writes and commits are free. -/
theorem of_setRing (state : State n m K) (change : ProducerRing m → ProducerRing m)
    (same : ∃ visible memory committed writes, change (state.ring producer) = {state.ring producer with
      visibleProducerPos := visible, memory := memory, committed := committed, writes := writes}) :
    TxCommits producer state (state.setRing producer change) := by
  obtain ⟨visible, memory, committed, writes, same⟩ := same
  refine ⟨.of_setRing state change ?_ ?_ ?_, rfl, rfl, ?_⟩ <;> simp [same]

theorem of_setTx (state : State n m K) (change : Tx → Tx)
    (same : ∃ published pending reservations, change (state.tx producer) = {state.tx producer with
      publishedPos := published, pendingCommits := pending, reservations := reservations}) :
    TxCommits producer state (state.setTx producer change) := by
  obtain ⟨published, pending, reservations, same⟩ := same
  refine ⟨.of_setTx state change ?_, ?_, ?_, rfl, rfl, rfl⟩ <;> simp [same]

end TxCommits

/-- A scan of the consumers may replace one cached minimum. -/
structure TxCaches (gauge : Gauge) (producer : Fin n) (before after : State n m K) : Prop
    extends TxKeeps producer before after where
  cached : ∀ other : Gauge, other ≠ gauge → other.cached (after.tx producer) = other.cached (before.tx producer)

theorem TxCaches.refl (gauge : Gauge) (producer : Fin n) (state : State n m K) :
    TxCaches gauge producer state state := ⟨.refl producer state, fun _ _ => rfl⟩

theorem TxKeeps.own {producer : Fin n} {before after : State n m K} (keeps : TxKeeps producer before after)
    (gauge : Gauge) : gauge.own (after.tx producer) = gauge.own (before.tx producer) := by
  cases gauge with
  | bytes => exact congrArg Tally.producerPos keeps.tally
  | messages => exact congrArg Tally.messageSequence keeps.tally

namespace Reads

variable {σ α β γ : Type}

theorem load (read : σ → α) : Reads (Prog.load read) := Each.load (fun _ => rfl) read

theorem ret (value : α) : Reads (.ret value : Prog σ α) := trivial

theorem bind {program : Prog σ α} {rest : α → Prog σ β} (first : Reads program)
    (second : ∀ value, Reads (rest value)) : Reads (program.bind rest) := Each.bind first second

theorem each {change : σ → σ → Prop} {program : Prog σ α} (reads : Reads program)
    (refl : ∀ state, change state state) : Each change program :=
  Each.mono reads fun before _ same => same ▸ refl before

end Reads

section Scans

variable (setup : Setup n m K) (producer : Fin n)

theorem reads_isProcessAlive (consumer : Fin m) : Reads (isProcessAlive consumer : Prog (State n m K) Bool) := by
  refine .bind (.load _) fun pid => .bind (.load _) fun start => .load _

theorem reads_minimumPositionRound (tail need minimum : Nat) (consumer : Fin m) :
    Reads (minimumPositionRound setup producer tail need minimum consumer) := by
  refine .bind (.load _) fun state => ?_
  split
  · exact .ret _
  refine .bind (.load _) fun current => ?_
  split
  · exact .ret _
  refine .bind (.load _) fun position => .bind ?_ fun alive => .bind (.load _) fun again => ?_
  · split
    · exact .ret _
    · exact reads_isProcessAlive consumer
  · split <;> exact .ret _

theorem reads_minimumConsumerPosition (tail need : Nat) :
    Reads (minimumConsumerPosition setup producer tail need) := by
  refine .bind (Each.foldUntil (fun minimum consumer => reads_minimumPositionRound setup producer tail need
    minimum consumer) _ _) fun scanned => ?_
  split <;> exact .ret _

theorem reads_minimumMessageRound (minimum : Option Nat) (consumer : Fin m) :
    Reads (minimumMessageRound setup producer minimum consumer) := by
  refine .bind (.load _) fun state => ?_
  split
  · exact .ret _
  refine .bind (.load _) fun current => ?_
  split
  · exact .ret _
  refine .bind (.load _) fun sequence => .bind (.load _) fun messages => .bind ?_ fun alive =>
    .bind (.load _) fun again => ?_
  · split
    · exact reads_isProcessAlive consumer
    · exact .ret _
  · split <;> exact .ret _

theorem reads_minimumConsumerMessageSequence : Reads (minimumConsumerMessageSequence setup producer) := by
  refine .bind (Each.foldUntil (fun minimum consumer => reads_minimumMessageRound setup producer
    minimum consumer) _ _) fun scanned => ?_
  split <;> exact .ret _

theorem reads_allowRetentionRound (retained retainedMessages : Nat) (checkPosition checkMessages : Bool)
    (consumer : Fin m) : Reads (allowRetentionRound producer retained retainedMessages checkPosition checkMessages
      () consumer : Prog (State n m K) _) := by
  refine .bind (.load _) fun state => .bind (.load _) fun policy => ?_
  split
  · exact .ret _
  refine .bind (.load _) fun current => ?_
  split
  · exact .ret _
  refine .bind ?_ fun behind => .bind ?_ fun blocked => .bind ?_ fun alive => .bind (.load _) fun again => ?_
  · split
    · exact .load _
    · exact .ret _
  · split
    · exact .ret _
    · split
      · exact .load _
      · exact .ret _
  · split
    · exact reads_isProcessAlive consumer
    · exact .ret _
  · split <;> exact .ret _

theorem reads_reliableConsumersAllowRetention (retained retainedMessages : Nat)
    (checkPosition checkMessages : Bool) :
    Reads (reliableConsumersAllowRetention producer retained retainedMessages checkPosition checkMessages :
      Prog (State n m K) Bool) := by
  refine .bind (Each.foldUntil (fun _ consumer => reads_allowRetentionRound producer retained retainedMessages
    checkPosition checkMessages consumer) _ _) fun scanned => ?_
  split <;> exact .ret _

theorem reads_evictionRound (projectedTail projectedMessages published : Nat) (floor : Nat × Nat) :
    Reads (evictionRound setup producer projectedTail projectedMessages published floor) := by
  unfold evictionRound
  split
  · refine .bind (.load _) fun header => ?_
    dsimp only
    split <;> exact .ret _
  · exact .ret _

end Scans

section Keeps

variable (setup : Setup n m K) (producer : Fin n)

theorem keeps_setRetentionIntent (intent : Nat) :
    Each (TxKeeps producer) (setRetentionIntent producer intent : Prog (State n m K) Unit) :=
  .store fun state => .of_setRing state _ ⟨rfl, rfl, rfl, rfl, rfl⟩ rfl rfl

theorem caches_setCachedConsumerPos (position : Nat) :
    Each (TxCaches .bytes producer) (setCachedConsumerPos producer position : Prog (State n m K) Unit) :=
  .store fun state => ⟨.of_setTx state _ ⟨rfl, rfl, rfl⟩, fun other different => by
    cases other with
    | bytes => exact absurd rfl different
    | messages => simp [Gauge.cached]⟩

theorem caches_setCachedConsumerMessageSequence (sequence : Nat) : Each (TxCaches .messages producer)
    (setCachedConsumerMessageSequence producer sequence : Prog (State n m K) Unit) :=
  .store fun state => ⟨.of_setTx state _ ⟨rfl, rfl, rfl⟩, fun other different => by
    cases other with
    | bytes => simp [Gauge.cached]
    | messages => exact absurd rfl different⟩

theorem caches_reserveBytes (tail need : Nat) :
    Each (TxCaches .bytes producer) (reserveBytes setup producer tail need) := by
  refine .bind (.load (.refl .bytes producer) _) fun cached => ?_
  split
  · exact .ret _
  · exact .bind ((reads_minimumConsumerPosition setup producer tail need).each (.refl .bytes producer))
      fun minimum => .bind (caches_setCachedConsumerPos producer minimum) fun _ => .ret _

theorem caches_reserveMessage : Each (TxCaches .messages producer) (reserveMessage setup producer) := by
  unfold reserveMessage
  dsimp only
  split
  · exact .ret _
  refine .bind (.load (.refl .messages producer) _) fun tx => ?_
  split
  · exact .bind ((reads_minimumConsumerMessageSequence setup producer).each (.refl .messages producer))
      fun minimum => .bind (caches_setCachedConsumerMessageSequence producer minimum) fun _ => .ret _
  · exact .ret _

theorem caches_batchBytes (tail per maxFrames : Nat) :
    Each (TxCaches .bytes producer) (batchBytes setup producer tail per maxFrames) := by
  refine .bind (.load (.refl .bytes producer) _) fun cached => ?_
  dsimp only
  split
  · exact .bind ((reads_minimumConsumerPosition setup producer tail per).each (.refl .bytes producer))
      fun minimum => .bind (caches_setCachedConsumerPos producer minimum) fun _ => .ret _
  · exact .ret _

theorem caches_batchMessages (fit : Nat) :
    Each (TxCaches .messages producer) (batchMessages setup producer fit) := by
  unfold batchMessages
  dsimp only
  split
  · exact .ret _
  refine .bind (.load (.refl .messages producer) _) fun tx => ?_
  split
  · exact .bind ((reads_minimumConsumerMessageSequence setup producer).each (.refl .messages producer))
      fun minimum => .bind (caches_setCachedConsumerMessageSequence producer minimum) fun _ => .ret _
  · exact .ret _

/-- A scan is a special case of a program that leaves the counters alone. -/
theorem keeps_of_caches {gauge : Gauge} {α : Type} {program : Prog (State n m K) α}
    (each : Each (TxCaches gauge producer) program) : Each (TxKeeps producer) program :=
  each.mono fun _ _ caches => caches.toTxKeeps

theorem commits_storeExpiry (position expiresAt : Nat) :
    Each (TxCommits producer) (storeExpiry setup producer position expiresAt) :=
  .store fun state => .of_setRing state _ ⟨_, _, _, _, rfl⟩

theorem commits_storeHeader (position payloadLen word frameStart : Nat) (hasExpiry : Bool) :
    Each (TxCommits producer) (storeHeader setup producer position payloadLen word frameStart hasExpiry) :=
  .store fun state => .of_setRing state _ ⟨_, _, _, _, rfl⟩

theorem commits_writePayload (claimed : Claimed) (offset : Nat) (data : List UInt8) :
    Each (TxCommits producer) (writePayload setup producer claimed offset data) := by
  refine .store fun state => ?_
  split
  · exact .of_setRing state _ ⟨_, _, _, _, rfl⟩
  · exact .refl producer state

theorem commits_publishContiguous (start stop : Nat) :
    Each (TxCommits producer) (publishContiguous producer start stop : Prog (State n m K) Unit) := by
  refine .store fun state => ?_
  dsimp only
  split
  · exact (TxCommits.of_setRing state _ ⟨_, _, _, _, rfl⟩).trans (.of_setTx _ _ ⟨_, _, _, rfl⟩)
  split
  · exact .of_setTx state _ ⟨_, _, _, rfl⟩
  · exact .refl producer state

theorem commits_commit (claim : Claim) : Each (TxCommits producer) (commit setup producer claim) :=
  .bind (.when (commits_storeExpiry setup producer _ _)) fun _ =>
    .bind (commits_storeHeader setup producer _ _ _ _ _) fun _ => commits_publishContiguous producer _ _

theorem commits_commitRound (batch : BatchClaim) (index : Nat) :
    Each (TxCommits producer) (commitRound setup producer batch index) :=
  .bind (.when (commits_storeExpiry setup producer _ _)) fun _ => commits_storeHeader setup producer _ _ _ _ _

theorem commits_commitBatch (batch : BatchClaim) : Each (TxCommits producer) (commitBatch setup producer batch) := by
  unfold commitBatch
  split
  · exact .ret _
  · exact .bind (.forEach (fun index => commits_commitRound setup producer batch index) _) fun _ =>
      commits_publishContiguous producer _ _

/-- A commit is a special case of a program that leaves the counters alone. -/
theorem keeps_of_commits {α : Type} {program : Prog (State n m K) α} (each : Each (TxCommits producer) program) :
    Each (TxKeeps producer) program := each.mono fun _ _ commits => commits.toTxKeeps

end Keeps

/-- An action of a claim that looks for room: only the leases and the cached minima may change. -/
structure TxWaits (producer : Fin n) (before after : State n m K) : Prop where
  ring : after.ring producer = {before.ring producer with consumers := (after.ring producer).consumers}
  tx : after.tx producer = {before.tx producer with
    cachedConsumerPos := (after.tx producer).cachedConsumerPos
    cachedConsumerMessageSequence := (after.tx producer).cachedConsumerMessageSequence}
  globalSequence : after.globalSequence = before.globalSequence

section Waits

variable (setup : Setup n m K) (producer : Fin n)

theorem TxWaits.refl (state : State n m K) : TxWaits producer state state := ⟨rfl, rfl, rfl⟩

theorem waits_reads {α : Type} {program : Prog (State n m K) α} (reads : Reads program) :
    Each (TxWaits producer) program := reads.each (.refl producer)

theorem waits_setCachedConsumerPos (position : Nat) :
    Each (TxWaits producer) (setCachedConsumerPos producer position : Prog (State n m K) Unit) :=
  .store fun _ => ⟨rfl, by simp, rfl⟩

theorem waits_setCachedConsumerMessageSequence (sequence : Nat) :
    Each (TxWaits producer) (setCachedConsumerMessageSequence producer sequence : Prog (State n m K) Unit) :=
  .store fun _ => ⟨rfl, by simp, rfl⟩

theorem waits_reserveBytes (tail need : Nat) : Each (TxWaits producer) (reserveBytes setup producer tail need) := by
  refine .bind (waits_reads producer (.load _)) fun cached => ?_
  split
  · exact .ret _
  · exact .bind (waits_reads producer (reads_minimumConsumerPosition setup producer tail need)) fun minimum =>
      .bind (waits_setCachedConsumerPos producer minimum) fun _ => .ret _

theorem waits_reserveMessage : Each (TxWaits producer) (reserveMessage setup producer) := by
  unfold reserveMessage
  dsimp only
  split
  · exact .ret _
  refine .bind (waits_reads producer (.load _)) fun tx => ?_
  split
  · exact .bind (waits_reads producer (reads_minimumConsumerMessageSequence setup producer)) fun minimum =>
      .bind (waits_setCachedConsumerMessageSequence producer minimum) fun _ => .ret _
  · exact .ret _

theorem waits_batchBytes (tail per maxFrames : Nat) :
    Each (TxWaits producer) (batchBytes setup producer tail per maxFrames) := by
  refine .bind (waits_reads producer (.load _)) fun cached => ?_
  dsimp only
  split
  · exact .bind (waits_reads producer (reads_minimumConsumerPosition setup producer tail per)) fun minimum =>
      .bind (waits_setCachedConsumerPos producer minimum) fun _ => .ret _
  · exact .ret _

theorem waits_batchMessages (fit : Nat) : Each (TxWaits producer) (batchMessages setup producer fit) := by
  unfold batchMessages
  dsimp only
  split
  · exact .ret _
  refine .bind (waits_reads producer (.load _)) fun tx => ?_
  split
  · exact .bind (waits_reads producer (reads_minimumConsumerMessageSequence setup producer)) fun minimum =>
      .bind (waits_setCachedConsumerMessageSequence producer minimum) fun _ => .ret _
  · exact .ret _

theorem waits_leaseRound (tail writeLength : Nat) (consumer : Fin m) :
    Each (TxWaits producer) (leaseRound setup producer tail writeLength () consumer) := by
  refine .bind (waits_reads producer (.load _)) fun leaseStart => ?_
  split
  · exact .ret _
  refine .bind (waits_reads producer (.load _)) fun leaseEnd => ?_
  split
  · exact .ret _
  split
  · exact .ret _
  refine .bind (waits_reads producer (.load _)) fun state => .bind (waits_reads producer (.load _))
    fun current => ?_
  split
  · exact .ret _
  refine .bind (waits_reads producer (reads_isProcessAlive consumer)) fun alive =>
    .bind (waits_reads producer (.load _)) fun again => ?_
  split
  · exact .ret _
  · exact .bind (.store fun state => ⟨by simp [State.setCursor], rfl, rfl⟩) fun _ => .ret _

end Waits

/-- An action of a claim apart from its allocation: the claimed frames, the bytes and the published position stay. -/
structure TxPrepares (producer : Fin n) (before after : State n m K) : Prop where
  ring : after.ring producer = {before.ring producer with
    claimActive := (after.ring producer).claimActive
    retentionIntent := (after.ring producer).retentionIntent
    retainedPosition := (after.ring producer).retainedPosition
    retainedMessageSequence := (after.ring producer).retainedMessageSequence
    reservationPosition := (after.ring producer).reservationPosition
    reservationSequence := (after.ring producer).reservationSequence
    reservationMessageSequence := (after.ring producer).reservationMessageSequence
    consumers := (after.ring producer).consumers}
  tx : after.tx producer = {before.tx producer with
    cachedConsumerPos := (after.tx producer).cachedConsumerPos
    cachedConsumerMessageSequence := (after.tx producer).cachedConsumerMessageSequence}

section Prepares

variable (setup : Setup n m K) (producer : Fin n)

theorem TxPrepares.refl (state : State n m K) : TxPrepares producer state state := ⟨rfl, rfl⟩

theorem prepares_waits {α : Type} {program : Prog (State n m K) α} (waits : Each (TxWaits producer) program) :
    Each (TxPrepares producer) program :=
  waits.mono fun _ _ step => ⟨by rw [step.ring], step.tx⟩

theorem prepares_reads {α : Type} {program : Prog (State n m K) α} (reads : Reads program) :
    Each (TxPrepares producer) program := reads.each (.refl producer)

theorem prepares_claimReservationGuard :
    Each (TxPrepares producer) (claimReservationGuard producer : Prog (State n m K) Bool) := by
  refine .modifyGet (fun state => ?_) _
  split
  · exact ⟨by simp, rfl⟩
  · exact .refl producer state

theorem prepares_endClaimReservation :
    Each (TxPrepares producer) (endClaimReservation producer : Prog (State n m K) Unit) :=
  .store fun _ => ⟨by simp, rfl⟩

theorem prepares_publishReservation (sequence : Nat) :
    Each (TxPrepares producer) (publishReservation producer sequence : Prog (State n m K) Unit) :=
  .bind (.store fun _ => ⟨by simp, rfl⟩) fun _ => .bind (.store fun _ => ⟨by simp, rfl⟩) fun _ =>
    .store fun _ => ⟨by simp, rfl⟩

theorem prepares_setRetentionIntent (intent : Nat) :
    Each (TxPrepares producer) (setRetentionIntent producer intent : Prog (State n m K) Unit) :=
  .store fun _ => ⟨by simp, rfl⟩

theorem prepares_announceAndEvict (tail writeLength : Nat) (previous floor : Nat × Nat) :
    Each (TxPrepares producer) (announceAndEvict setup producer tail writeLength previous floor) := by
  refine .bind (prepares_setRetentionIntent producer _) fun _ => .bind (.foldUntil (fun _ consumer =>
    prepares_waits producer (waits_leaseRound setup producer tail writeLength consumer)) _ _) fun scanned => ?_
  cases scanned with
  | inr stopped => exact .bind (prepares_setRetentionIntent producer _) fun _ => .ret _
  | inl done =>
      exact .bind (.when (.store fun _ => ⟨by simp, rfl⟩)) fun _ =>
        .bind (.when (.store fun _ => ⟨by simp, rfl⟩)) fun _ =>
          .bind (prepares_setRetentionIntent producer _) fun _ => .ret _

theorem prepares_prepareDropOldestWrite (tail writeLength writeCount : Nat) :
    Each (TxPrepares producer) (prepareDropOldestWrite setup producer tail writeLength writeCount) := by
  unfold prepareDropOldestWrite
  dsimp only
  split
  · exact .ret _
  refine .bind (prepares_reads producer (.load _)) fun retained => .bind (prepares_reads producer (.load _))
    fun messages => .bind (prepares_reads producer (.load _)) fun tx => ?_
  split
  · exact .ret _
  refine .bind (prepares_reads producer (Each.repeatUntil (fun floor => reads_evictionRound setup producer _ _ _ floor)
    _ _)) fun walked => ?_
  split
  · split
    · exact .ret _
    refine .bind ?_ fun allowed => ?_
    · split
      · exact prepares_reads producer (reads_reliableConsumersAllowRetention producer _ _ _ _)
      · exact .ret _
    · split
      · exact prepares_announceAndEvict setup producer _ _ _ _
      · exact .ret _
  · exact .ret _

theorem prepares_latestFit (tail per maxFrames : Nat) :
    Each (TxPrepares producer) (latestFit setup producer tail per maxFrames) := by
  unfold latestFit
  dsimp only
  refine .bind (prepares_prepareDropOldestWrite setup producer _ _ _) fun prepared => ?_
  split
  · exact .ret _
  refine .bind (.repeatUntil (fun bounds => ?_) _ _) fun searched => ?_
  · unfold longestPrefixRound
    split
    · refine .bind (prepares_prepareDropOldestWrite setup producer _ _ _) fun prepared => ?_
      split <;> exact .ret _
    · exact .ret _
  · split <;> exact .ret _

theorem prepares_claimRoom (tail need : Nat) : Each (TxPrepares producer) (claimRoom setup producer tail need) := by
  unfold claimRoom
  split
  · split
    · exact .ret _
    · exact .bind (prepares_prepareDropOldestWrite setup producer _ _ _) fun prepared => .ret _
  · refine .bind (prepares_waits producer (waits_reserveBytes setup producer _ _)) fun bytes => ?_
    split
    · exact .bind (prepares_waits producer (waits_reserveMessage setup producer)) fun message => .ret _
    · exact .ret _

theorem prepares_batchRoom (tail per maxFrames : Nat) :
    Each (TxPrepares producer) (batchRoom setup producer tail per maxFrames) := by
  unfold batchRoom
  split
  · split
    · exact .ret _
    · exact .bind (prepares_latestFit setup producer _ _ _) fun fit => .ret _
  · refine .bind (prepares_waits producer (waits_batchBytes setup producer _ _ _)) fun bytes => ?_
    split
    · exact .ret _
    · exact .bind (prepares_waits producer (waits_batchMessages setup producer _)) fun allowed => .ret _

end Prepares
end Salias.SharedHybridMpsc
