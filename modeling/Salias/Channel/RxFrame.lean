import Salias.Channel.TxFrame

/-
Every program of a receiver stays inside its own client and its own slot.
-/

namespace Salias.SharedHybridMpsc

open Concurrent Salias.Frame ConsumerRegistration

variable {n m : Nat} {K : Type}

/-- An action of a receiver in its own slot. -/
structure RxKeeps (client : K) (consumer : Fin m) (before after : State n m K) : Prop where
  slot : after.slot = before.slot
  gate : after.registrationGate = before.registrationGate
  clock : after.clock = before.clock
  alive : after.alive = before.alive
  tx : after.tx = before.tx
  globalSequence : after.globalSequence = before.globalSequence
  owned : ∀ producer, (after.ring producer).owned = (before.ring producer).owned
  clients : ∀ other, other ≠ client → after.client other = before.client other
  registration : (after.client client).registration = (before.client client).registration
  registeredAt : (after.client client).registeredAt = (before.client client).registeredAt
  progress : ∀ other, other ≠ consumer → State.SameProgress before after other
  generation : ∀ producer, (after.cursor producer consumer).generation = (before.cursor producer consumer).generation

namespace RxKeeps

variable {client : K} {consumer : Fin m} {before middle after : State n m K}

theorem refl (client : K) (consumer : Fin m) (state : State n m K) : RxKeeps client consumer state state :=
  ⟨rfl, rfl, rfl, rfl, rfl, rfl, fun _ => rfl, fun _ _ => rfl, rfl, rfl, fun other _ => .refl state other, fun _ => rfl⟩

theorem trans (first : RxKeeps client consumer before middle) (second : RxKeeps client consumer middle after) :
    RxKeeps client consumer before after where
  slot := second.slot.trans first.slot
  gate := second.gate.trans first.gate
  clock := second.clock.trans first.clock
  alive := second.alive.trans first.alive
  tx := second.tx.trans first.tx
  globalSequence := second.globalSequence.trans first.globalSequence
  owned producer := (second.owned producer).trans (first.owned producer)
  clients other different := (second.clients other different).trans (first.clients other different)
  registration := second.registration.trans first.registration
  registeredAt := second.registeredAt.trans first.registeredAt
  progress other different := (first.progress other different).trans (second.progress other different)
  generation producer := (second.generation producer).trans (first.generation producer)

theorem of_setCursor (client : K) (consumer : Fin m) (state : State n m K) (producer : Fin n)
    (change : ConsumerSharedState → ConsumerSharedState)
    (generation : (change (state.cursor producer consumer)).generation =
      (state.cursor producer consumer).generation) :
    RxKeeps client consumer state (state.setCursor producer consumer change) where
  slot := rfl
  gate := rfl
  clock := rfl
  alive := rfl
  tx := rfl
  globalSequence := rfl
  owned other := state.setCursor_owned producer other consumer change
  clients _ _ := rfl
  registration := rfl
  registeredAt := rfl
  progress other different := ⟨fun _ => State.setCursor_cursor_of_ne _ _ _ _ _ _ (.inr different), rfl⟩
  generation other := by
    by_cases same : other = producer
    · subst same
      simpa using generation
    · rw [State.setCursor_cursor_of_ne _ _ _ _ _ _ (.inl same)]

variable [DecidableEq K]

theorem of_setClient (client : K) (consumer : Fin m) (state : State n m K) (change : Client n m → Client n m)
    (registration : (change (state.client client)).registration = (state.client client).registration)
    (registeredAt : (change (state.client client)).registeredAt = (state.client client).registeredAt) :
    RxKeeps client consumer state (state.setClient client change) where
  slot := rfl
  gate := rfl
  clock := rfl
  alive := rfl
  tx := rfl
  globalSequence := rfl
  owned _ := rfl
  clients other different := by simp [different]
  registration := by simpa using registration
  registeredAt := by simpa using registeredAt
  progress other _ := .refl state other
  generation _ := rfl

theorem of_setRx (client : K) (consumer : Fin m) (state : State n m K) (change : Rx n → Rx n) :
    RxKeeps client consumer state (state.setRx client change) :=
  .of_setClient client consumer state _ rfl rfl

end RxKeeps

section Reads

variable (setup : Setup n m K)

theorem reads_hasConsumer (consumer : Fin m) (token : Nat) :
    Reads (hasConsumer consumer token : Prog (State n m K) Bool) := .load _

theorem reads_readRx (client : K) : Reads (readRx client : Prog (State n m K) (Rx n)) := .load _

theorem reads_tryReadFromRing (producer : Fin n) (position target visibleBound : Nat) (fixed : Option UInt32) :
    Reads (tryReadFromRing setup producer position target visibleBound fixed) := by
  unfold tryReadFromRing
  split
  · exact .ret _
  refine .bind (.load _) fun header => ?_
  dsimp only
  split
  · exact .ret _
  split
  · exact .ret _
  refine .bind ?_ fun expiresAt => .ret _
  split
  · exact .load _
  · exact .ret _

theorem reads_isExpired (message : Message n) (now : Option Nat) :
    Reads (isExpired message now : Prog (State n m K) _) := by
  unfold isExpired
  split
  · split
    · exact .ret _
    · exact .bind (.load _) fun _ => .ret _
  · exact .ret _

theorem reads_consumerUsesDropOldest (consumer : Fin m) :
    Reads (consumerUsesDropOldest consumer : Prog (State n m K) Bool) := .load _

theorem reads_sequenceAtPosition (producer : Fin n) (position : Nat) :
    Reads (sequenceAtPosition setup producer position) :=
  .bind (.load _) fun _ => .bind (.load _) fun _ => .ret _

theorem reads_skipRound (producer : Fin n) (visible : Nat) (fixed : Option UInt32)
    (carried : Nat × Nat × Option (Message n)) : Reads (skipRound setup producer visible fixed carried) := by
  unfold skipRound
  split
  · refine .bind (reads_tryReadFromRing setup producer _ _ _ _) fun read => ?_
    split <;> exact .ret _
  · exact .ret _

end Reads

section Keeps

variable [DecidableEq K] (setup : Setup n m K) (client : K) (consumer : Fin m) (token : Nat)

omit [DecidableEq K] in
/-- A read-only program keeps everything. -/
theorem keeps_reads {α : Type} {program : Prog (State n m K) α} (reads : Reads program) :
    Each (RxKeeps client consumer) program := reads.each (.refl client consumer)

theorem keeps_updateRx (change : Rx n → Rx n) :
    Each (RxKeeps client consumer) (updateRx client change : Prog (State n m K) Unit) :=
  .store fun state => .of_setRx client consumer state change

omit [DecidableEq K] in
theorem keeps_storeProgress (producer : Fin n) (change : ConsumerSharedState → ConsumerSharedState)
    (generation : ∀ cursor, (change cursor).generation = cursor.generation) :
    Each (RxKeeps client consumer) (storeProgress producer consumer change : Prog (State n m K) Unit) :=
  .store fun state => .of_setCursor client consumer state producer change (generation _)

omit [DecidableEq K] in
theorem keeps_storeExpectedSequence (sequence : Nat) :
    Each (RxKeeps client consumer) (storeExpectedSequence consumer sequence : Prog (State n m K) Unit) :=
  .store fun _ => ⟨rfl, rfl, rfl, rfl, rfl, rfl, fun _ => rfl, fun _ _ => rfl, rfl, rfl,
    fun _ different => ⟨fun _ => rfl, Function.update_of_ne different _ _⟩, fun _ => rfl⟩

theorem keeps_consume (message : Message n) :
    Each (RxKeeps client consumer) (consume setup client consumer token message) := by
  refine .bind (keeps_reads client consumer (reads_hasConsumer consumer token)) fun registered => ?_
  split
  · exact keeps_updateRx client consumer _
  · exact .ret _

theorem keeps_consumeExpired (message : Message n) (now : Option Nat) :
    Each (RxKeeps client consumer) (consumeExpired setup client consumer token message now) := by
  refine .bind (keeps_reads client consumer (reads_hasConsumer consumer token)) fun registered =>
    .store fun state => .of_setClient client consumer state _ ?_ ?_ <;>
  · dsimp only [Client.pass]
    split <;> rfl

theorem keeps_clearLatestLease (producer : Fin n) : Each (RxKeeps client consumer)
    (clearLatestLease client consumer token producer : Prog (State n m K) Unit) := by
  refine .bind (keeps_reads client consumer (reads_hasConsumer consumer token)) fun registered => ?_
  split
  · exact .store fun state => (RxKeeps.of_setCursor client consumer state producer _ rfl).trans
      (.of_setRx client consumer _ _)
  · exact .ret _

theorem keeps_flushRing (producer : Fin n) :
    Each (RxKeeps client consumer) (flushRing setup client consumer token producer) := by
  refine .bind (keeps_reads client consumer (reads_readRx client)) fun rx => ?_
  split
  · exact .ret _
  refine .bind (keeps_storeProgress client consumer producer _ fun _ => rfl) fun _ =>
    .bind (keeps_storeProgress client consumer producer _ fun _ => rfl) fun _ =>
    .bind (.when (keeps_storeExpectedSequence client consumer _)) fun _ =>
    .bind (keeps_storeProgress client consumer producer _ fun _ => rfl) fun _ =>
    .bind (keeps_updateRx client consumer _) fun _ => ?_
  split
  · exact keeps_clearLatestLease client consumer token producer
  · exact .ret _

theorem keeps_flushProgress : Each (RxKeeps client consumer) (flushProgress setup client consumer token) := by
  refine .bind (keeps_reads client consumer (reads_hasConsumer consumer token)) fun registered => ?_
  split
  · exact .forEach (fun producer => keeps_flushRing setup client consumer token producer) _
  · exact .ret _

theorem keeps_release (message : Message n) :
    Each (RxKeeps client consumer) (release setup client consumer token message) := by
  refine .bind (keeps_reads client consumer (reads_hasConsumer consumer token)) fun registered => ?_
  split
  · refine .bind (.store fun state => .of_setClient client consumer state _ rfl rfl) fun _ =>
      .bind (keeps_storeProgress client consumer _ _ fun _ => rfl) fun _ =>
      .bind (keeps_updateRx client consumer _) fun _ =>
      .bind (keeps_reads client consumer (reads_readRx client)) fun rx =>
      .bind (keeps_storeProgress client consumer _ _ fun _ => rfl) fun _ =>
      .bind (keeps_updateRx client consumer _) fun _ =>
      .bind (.when (keeps_storeExpectedSequence client consumer _)) fun _ =>
      .bind (keeps_storeProgress client consumer _ _ fun _ => rfl) fun _ => ?_
    split
    · exact keeps_clearLatestLease client consumer token _
    · exact .ret _
  · exact .ret _

theorem keeps_flushBatch : Each (RxKeeps client consumer) (flushBatch setup client consumer token) :=
  .bind (.store fun state => .of_setClient client consumer state _ rfl rfl) fun _ =>
    keeps_flushProgress setup client consumer token

theorem keeps_publishFifoPrefixProgress (producer : Fin n) (position sequence messageSequence : Nat) :
    Each (RxKeeps client consumer) (publishFifoPrefixProgress client consumer producer position sequence
      messageSequence : Prog (State n m K) Unit) :=
  .bind (keeps_storeProgress client consumer producer _ fun _ => rfl) fun _ =>
    .bind (keeps_storeProgress client consumer producer _ fun _ => rfl) fun _ =>
    .bind (keeps_storeProgress client consumer producer _ fun _ => rfl) fun _ => keeps_updateRx client consumer _

theorem keeps_refreshVisible (producer : Fin n) : Each (RxKeeps client consumer)
    (refreshVisible client producer : Prog (State n m K) Bool) := by
  refine .bind (keeps_reads client consumer (reads_readRx client)) fun rx => ?_
  split
  · exact .bind (.modifyGet (fun state => .of_setRx client consumer state _) _) fun visible => .ret _
  · exact .ret _

theorem keeps_visitRing (fixed : Option UInt32) (noPendingAtEntry : Bool) (now : Option Nat) (producer : Fin n) :
    Each (RxKeeps client consumer)
      (visitRing setup client consumer token fixed noPendingAtEntry now producer) := by
  refine .bind (keeps_refreshVisible client consumer producer) fun readable => ?_
  split
  · refine .bind (keeps_reads client consumer (reads_readRx client)) fun rx =>
      .bind (keeps_reads client consumer (reads_tryReadFromRing setup producer _ _ _ _)) fun read => ?_
    split
    · exact .ret _
    refine .bind (keeps_reads client consumer (reads_isExpired _ _)) fun verdict => ?_
    obtain ⟨expired, now⟩ := verdict
    dsimp only
    split
    · exact .bind (keeps_consumeExpired setup client consumer token _ _) fun _ =>
        .bind (.when (keeps_flushProgress setup client consumer token)) fun _ => .ret _
    · exact .bind (.store fun state => .of_setClient client consumer state _ rfl rfl) fun _ => .ret _
  · exact .ret _

omit [DecidableEq K] in
theorem keeps_scanRound {visit : Option Nat → Fin n → Prog (State n m K) (Visit n)}
    (keeps : ∀ now producer, Each (RxKeeps client consumer) (visit now producer)) (now : Option Nat)
    (producer : Fin n) : Each (RxKeeps client consumer) (scanRound visit now producer) := by
  refine .bind (keeps now producer) fun visited => ?_
  split <;> exact .ret _

theorem keeps_beginReceive (fixed : Option UInt32) (reportLag : Bool) : Each (RxKeeps client consumer)
    (beginReceive client consumer token fixed reportLag : Prog (State n m K) (Received n)) := by
  refine .bind (keeps_reads client consumer (reads_hasConsumer consumer token)) fun registered => ?_
  split
  · exact .bind (.modifyGet (fun state => .of_setClient client consumer state _ rfl rfl) _) fun _ => .ret _
  · exact .ret _

theorem keeps_beginReceiveChecked (fixed : Option UInt32) :
    Each (RxKeeps client consumer) (beginReceiveChecked setup client consumer token fixed) := by
  refine .bind (keeps_reads client consumer (reads_hasConsumer consumer token)) fun registered => ?_
  split
  · refine .bind ?_ fun reportLag => keeps_beginReceive client consumer token fixed reportLag
    split
    · exact keeps_reads client consumer (reads_consumerUsesDropOldest consumer)
    · exact .ret _
  · exact .ret _

theorem keeps_receivePass (receiving : Receiving) :
    Each (RxKeeps client consumer) (receivePass setup client consumer token receiving) := by
  refine .bind (keeps_reads client consumer (reads_readRx client)) fun rx =>
    .bind (.foldUntil (keeps_scanRound client consumer fun now producer =>
      keeps_visitRing setup client consumer token _ _ now producer) _ _) fun scanned => ?_
  split
  · exact .ret _
  · exact .ret _
  · exact .ret _
  · exact .ret _
  · exact .bind (keeps_reads client consumer (reads_readRx client)) fun rx =>
      .bind (.when (keeps_flushProgress setup client consumer token)) fun _ => .ret _

theorem keeps_collectFifoRound (producer : Fin n) (cap visibleBound initialMessages : Nat)
    (noPendingAtEntry : Bool) (collecting : Collecting n) : Each (RxKeeps client consumer)
      (collectFifoRound setup client consumer producer cap visibleBound initialMessages noPendingAtEntry
        collecting) := by
  unfold collectFifoRound
  split
  · refine .bind (keeps_reads client consumer (reads_tryReadFromRing setup producer _ _ _ _)) fun read => ?_
    split
    · exact .ret _
    refine .bind (keeps_reads client consumer (reads_isExpired _ _)) fun verdict => ?_
    obtain ⟨expired, now⟩ := verdict
    dsimp only
    split
    · exact .bind (.store fun state => .of_setClient client consumer state _ rfl rfl) fun _ => .ret _
    · exact .bind (.when (keeps_publishFifoPrefixProgress client consumer producer _ _ _)) fun _ =>
        .bind (.store fun state => .of_setClient client consumer state _ rfl rfl) fun _ => .ret _
  · exact .ret _

theorem keeps_collectFifo (producer : Fin n) (cap : Nat) (noPendingAtEntry : Bool) (now : Option Nat) :
    Each (RxKeeps client consumer)
      (collectFifo setup client consumer producer cap noPendingAtEntry now) :=
  .bind (keeps_reads client consumer (reads_readRx client)) fun _ =>
    .bind (.repeatUntil (fun collecting =>
      keeps_collectFifoRound setup client consumer producer _ _ _ _ collecting) _ _) fun _ =>
    .bind (.when (keeps_updateRx client consumer _)) fun _ => .ret _

theorem keeps_collectOrderedRound (producer : Fin n) (cap : Nat) (noPendingAtEntry : Bool)
    (carried : Option Nat × List (Message n)) : Each (RxKeeps client consumer)
      (collectOrderedRound setup client consumer token producer cap noPendingAtEntry carried) := by
  unfold collectOrderedRound
  split
  · refine .bind (keeps_reads client consumer (reads_readRx client)) fun rx =>
      .bind (keeps_reads client consumer (reads_tryReadFromRing setup producer _ _ _ _)) fun read => ?_
    split
    · exact .ret _
    refine .bind (keeps_reads client consumer (reads_isExpired _ _)) fun verdict => ?_
    obtain ⟨expired, now⟩ := verdict
    dsimp only
    split
    · exact .bind (keeps_consumeExpired setup client consumer token _ _) fun _ =>
        .bind (.when (keeps_flushProgress setup client consumer token)) fun _ => .ret _
    · exact .bind (.store fun state => .of_setClient client consumer state _ rfl rfl) fun _ =>
        .bind (keeps_consume setup client consumer token _) fun _ => .ret _
  · exact .ret _

theorem keeps_collectOrdered (producer : Fin n) (cap : Nat) (noPendingAtEntry : Bool) (now : Option Nat) :
    Each (RxKeeps client consumer)
      (collectOrdered setup client consumer token producer cap noPendingAtEntry now) :=
  .bind (keeps_reads client consumer (reads_readRx client)) fun _ =>
    .bind (.repeatUntil (fun carried =>
      keeps_collectOrderedRound setup client consumer token producer _ _ carried) _ _) fun _ => .ret _

theorem keeps_collectRing (cap : Nat) (noPendingAtEntry : Bool) (now : Option Nat) (producer : Fin n) :
    Each (RxKeeps client consumer)
      (collectRing setup client consumer token cap noPendingAtEntry now producer) := by
  refine .bind (keeps_refreshVisible client consumer producer) fun readable => ?_
  split
  · refine .bind ?_ fun collected => ?_
    · split
      · exact keeps_collectOrdered setup client consumer token producer _ _ _
      · exact keeps_collectFifo setup client consumer producer _ _ _
    obtain ⟨now, out⟩ := collected
    dsimp only
    split
    · exact .ret _
    · exact .bind (keeps_updateRx client consumer _) fun _ => .ret _
  · exact .ret _

theorem keeps_tryRecvRun (cap : Nat) :
    Each (RxKeeps client consumer) (tryRecvRun setup client consumer token cap) := by
  refine .bind (keeps_reads client consumer (reads_hasConsumer consumer token)) fun registered => ?_
  split
  · exact .ret _
  refine .bind (.modifyGet (fun state => .of_setClient client consumer state _ rfl rfl) _) fun rx =>
    .bind (.foldUntil (fun now producer => keeps_collectRing setup client consumer token cap _ now producer) _ _)
      fun scanned => ?_
  split
  · exact .ret _
  · exact .bind (keeps_reads client consumer (reads_readRx client)) fun rx =>
      .bind (.when (keeps_flushProgress setup client consumer token)) fun _ => .ret _

section Latest

variable (producer : Fin n)

theorem keeps_beginLatestLease (start retainedSnapshot visibleBound : Nat) : Each (RxKeeps client consumer)
    (beginLatestLease client consumer token producer start retainedSnapshot visibleBound :
      Prog (State n m K) Bool) := by
  refine .bind (keeps_reads client consumer (reads_readRx client)) fun rx => ?_
  split
  · exact .ret _
  refine .bind (keeps_reads client consumer (.load _)) fun current => ?_
  split
  · exact .ret _
  refine .bind (keeps_storeProgress client consumer producer _ fun _ => rfl) fun _ =>
    .bind (.store fun state => (RxKeeps.of_setCursor client consumer state producer _ rfl).trans
      (.of_setRx client consumer _ _)) fun _ =>
    .bind (.modifyGet (fun state => ?_) _) fun intent => .bind (.modifyGet (fun state => ?_) _) fun floor => ?_
  · split
    · exact .of_setCursor client consumer state producer _ rfl
    · exact .refl client consumer state
  · split
    · exact .of_setCursor client consumer state producer _ rfl
    · exact .refl client consumer state
  split
  · exact .bind (keeps_clearLatestLease client consumer token producer) fun _ => .ret _
  · exact .ret _

theorem keeps_publishLatestProgress (position sequence : Nat) : Each (RxKeeps client consumer)
    (publishLatestProgress client consumer producer position sequence : Prog (State n m K) Unit) :=
  .bind (keeps_updateRx client consumer _) fun _ =>
    .bind (keeps_storeProgress client consumer producer _ fun _ => rfl) fun _ =>
    .bind (keeps_storeProgress client consumer producer _ fun _ => rfl) fun _ =>
    keeps_storeProgress client consumer producer _ fun _ => rfl

omit [DecidableEq K] in
theorem keeps_addLaggedMessages (amount : Nat) : Each (RxKeeps client consumer)
    (addLaggedMessages producer consumer amount : Prog (State n m K) Unit) := by
  unfold addLaggedMessages
  split
  · exact keeps_storeProgress client consumer producer _ fun _ => rfl
  · exact .ret _

omit [DecidableEq K] in
theorem keeps_addSkippedMessages (amount : Nat) : Each (RxKeeps client consumer)
    (addSkippedMessages producer consumer amount : Prog (State n m K) Unit) := by
  unfold addSkippedMessages
  split
  · exact keeps_storeProgress client consumer producer _ fun _ => rfl
  · exact .ret _

theorem keeps_openLatest :
    Each (RxKeeps client consumer) (openLatest setup client consumer token producer) := by
  refine .bind (keeps_reads client consumer (reads_readRx client)) fun rx => ?_
  split
  · exact .ret _
  refine .bind (keeps_reads client consumer (.load _)) fun retained =>
    .bind (keeps_reads client consumer (.load _)) fun visible => ?_
  split
  · exact .ret _
  refine .bind ?_ fun mayLag => ?_
  · split
    · exact keeps_reads client consumer (reads_consumerUsesDropOldest consumer)
    · exact .ret _
  split
  · exact .bind (keeps_clearLatestLease client consumer token producer) fun _ => .ret _
  dsimp only
  split
  · exact .ret _
  refine .bind (keeps_beginLatestLease client consumer token producer _ _ _) fun begun => ?_
  split
  · refine .bind ?_ fun sequence => ?_
    · split
      · exact keeps_reads client consumer (reads_sequenceAtPosition setup producer _)
      · exact .ret _
    split
    · exact .bind (keeps_clearLatestLease client consumer token producer) fun _ => .ret _
    · exact .ret _
  · exact .ret _

theorem keeps_visitLatest (fixed : Option UInt32) (reportLag : Bool) (now : Option Nat) :
    Each (RxKeeps client consumer)
      (visitLatest setup client consumer token fixed reportLag now producer) := by
  refine .bind (keeps_openLatest setup client consumer token producer) fun opening => ?_
  split
  · exact .ret _
  · exact .ret _
  · exact .ret _
  refine .bind (keeps_reads client consumer (reads_tryReadFromRing setup producer _ _ _ _)) fun read => ?_
  split
  · exact .bind (keeps_clearLatestLease client consumer token producer) fun _ => .ret _
  refine .bind (.when (.bind (keeps_addLaggedMessages client consumer producer _) fun _ =>
    keeps_publishLatestProgress client consumer producer _ _)) fun _ => ?_
  split
  · exact .bind (keeps_clearLatestLease client consumer token producer) fun _ => .ret _
  refine .bind (keeps_reads client consumer (reads_isExpired _ _)) fun verdict => ?_
  obtain ⟨expired, now⟩ := verdict
  dsimp only
  split
  · exact .bind (.store fun state => .of_setClient client consumer state _ rfl rfl) fun _ =>
      .bind (keeps_publishLatestProgress client consumer producer _ _) fun _ =>
      .bind (keeps_clearLatestLease client consumer token producer) fun _ =>
      .bind (keeps_updateRx client consumer _) fun _ => .ret _
  · exact .bind (keeps_storeProgress client consumer producer _ fun _ => rfl) fun _ =>
      .bind (.store fun state => .of_setClient client consumer state _ rfl rfl) fun _ => .ret _

theorem keeps_receiveLatestPass (receiving : Receiving) :
    Each (RxKeeps client consumer) (receiveLatestPass setup client consumer token receiving) := by
  refine .bind (keeps_reads client consumer (reads_readRx client)) fun rx =>
    .bind (.foldUntil (keeps_scanRound client consumer fun now producer =>
      keeps_visitLatest setup client consumer token producer _ _ now) _ _) fun scanned => ?_
  split <;> exact .ret _

theorem keeps_collectLatestRound (cap visible : Nat) (collecting : Collecting n) :
    Each (RxKeeps client consumer) (collectLatestRound setup client producer cap visible collecting) := by
  unfold collectLatestRound
  split
  · refine .bind (keeps_reads client consumer (reads_tryReadFromRing setup producer _ _ _ _)) fun read => ?_
    split
    · exact .ret _
    refine .bind (keeps_reads client consumer (reads_isExpired _ _)) fun verdict => ?_
    obtain ⟨expired, now⟩ := verdict
    dsimp only
    split
    · exact .bind (.store fun state => .of_setClient client consumer state _ rfl rfl) fun _ => .ret _
    · exact .bind (.store fun state => .of_setClient client consumer state _ rfl rfl) fun _ => .ret _
  · exact .ret _

theorem keeps_runLatestRound (cap : Nat) (now : Option Nat) :
    Each (RxKeeps client consumer) (runLatestRound setup client consumer token cap now producer) := by
  refine .bind (keeps_openLatest setup client consumer token producer) fun opening => ?_
  split
  · exact .ret _
  · exact .ret _
  · exact .ret _
  refine .bind (.repeatUntil (fun collecting =>
    keeps_collectLatestRound setup client consumer producer _ _ collecting) _ _) fun collected => ?_
  dsimp only
  refine .bind (.when (keeps_addLaggedMessages client consumer producer _)) fun _ => ?_
  split
  · refine .bind (.when (.bind (keeps_publishLatestProgress client consumer producer _ _) fun _ =>
      keeps_updateRx client consumer _)) fun _ =>
      .bind (keeps_clearLatestLease client consumer token producer) fun _ => ?_
    split
    · exact .bind (keeps_updateRx client consumer _) fun _ => .ret _
    · exact .ret _
  · exact .bind (keeps_updateRx client consumer _) fun _ =>
      .bind (keeps_storeProgress client consumer producer _ fun _ => rfl) fun _ =>
      .bind (keeps_updateRx client consumer _) fun _ => .ret _

theorem keeps_runLatestPass (cap : Nat) (now : Option Nat) :
    Each (RxKeeps client consumer) (runLatestPass setup client consumer token cap now) := by
  refine .bind (keeps_reads client consumer (reads_readRx client)) fun rx =>
    .bind (.foldUntil (fun now producer =>
      keeps_runLatestRound setup client consumer token producer cap now) _ _) fun scanned => ?_
  split <;> exact .ret _

theorem keeps_skipToLatest (fixed : Option UInt32) :
    Each (RxKeeps client consumer) (skipToLatest setup client consumer token producer fixed) := by
  refine .bind ?_ fun allowed => .bind (keeps_reads client consumer (reads_hasConsumer consumer token))
    fun registered => .bind (keeps_reads client consumer (reads_readRx client)) fun rx => ?_
  · split
    · exact keeps_reads client consumer (reads_consumerUsesDropOldest consumer)
    · exact .ret _
  split
  · exact .ret _
  split
  · exact .ret _
  refine .bind (keeps_reads client consumer (.load _)) fun retained =>
    .bind (keeps_reads client consumer (.load _)) fun visible => ?_
  dsimp only
  split
  · exact .ret _
  split
  · exact .ret _
  refine .bind (keeps_beginLatestLease client consumer token producer _ _ _) fun begun => ?_
  split
  · exact .ret _
  refine .bind ?_ fun first => ?_
  · split
    · exact keeps_reads client consumer (reads_sequenceAtPosition setup producer _)
    · exact .ret _
  split
  · exact .bind (keeps_clearLatestLease client consumer token producer) fun _ => .ret _
  refine .bind (keeps_reads client consumer (Each.repeatUntil
    (fun carried => reads_skipRound setup producer _ _ carried) _ _)) fun walked => ?_
  split
  · exact .bind (keeps_addLaggedMessages client consumer producer _) fun _ =>
      .bind (keeps_addSkippedMessages client consumer producer _) fun _ =>
      .bind (keeps_publishLatestProgress client consumer producer _ _) fun _ =>
      .bind (keeps_clearLatestLease client consumer token producer) fun _ => .ret _
  · exact .bind (keeps_clearLatestLease client consumer token producer) fun _ => .ret _

end Latest

theorem keeps_createRx : Each (RxKeeps client consumer) (createRx setup client consumer token) := by
  refine .bind (keeps_reads client consumer (reads_hasConsumer consumer token)) fun registered => ?_
  split
  · refine .bind ?_ fun expected => .bind (keeps_updateRx client consumer _) fun _ =>
      .forEach (fun producer => ?_) _
    · split
      · exact keeps_reads client consumer (.load _)
      · exact .ret _
    · exact .bind (keeps_reads client consumer (.load _)) fun _ =>
        .bind (keeps_reads client consumer (.load _)) fun _ =>
        .bind (keeps_reads client consumer (.load _)) fun _ => keeps_updateRx client consumer _
  · exact .ret _

theorem keeps_destroyRx : Each (RxKeeps client consumer) (destroyRx setup client consumer token) := by
  unfold destroyRx
  split
  · refine .forEach (fun producer => .bind (keeps_reads client consumer (reads_readRx client)) fun rx => ?_) _
    split
    · exact keeps_clearLatestLease client consumer token producer
    · exact .ret _
  · exact .ret _

end Keeps
end Salias.SharedHybridMpsc
