import Salias.Channel.EvictionSafety
import Salias.Channel.Resume

/-
Every program of a subscriber keeps the leases of its slot. A lease is announced first and held only after the intent
and the floor have been seen behind its start.
-/

namespace Salias.SharedHybridMpsc

open Concurrent Salias.Frame ConsumerRegistration

variable {n m : Nat} {K : Type}

theorem State.setRx_cursor [DecidableEq K] (state : State n m K) (client : K) (change : Rx n → Rx n) (producer : Fin n)
    (consumer : Fin m) : (state.setRx client change).cursor producer consumer = state.cursor producer consumer := rfl

namespace Retention

section Moves

variable {setup : Setup n m K} {producer : Fin n} {state : State n m K} {earlier later : ConsumerSharedState} {start : Nat}

theorem Grants.same (leased : Leased setup.capacity (state.tx producer).producerPos (state.ring producer) earlier)
    (same : SameLease earlier later) : Grants setup producer state earlier later :=
  ⟨leased.same same, .inl (.inl same.stage)⟩

theorem Grants.ends (start : later.leaseStart = kNoLease) (stage : later.leaseStage = .none) :
    Grants setup producer state earlier later :=
  ⟨.none start stage, .inr fun _ _ => by rw [stage]; trivial⟩

/-- The announcement of a lease spares every limit. -/
theorem Grants.announced (begins : later.leaseStart = start) (stage : later.leaseStage = .announced start)
    (proper : start < later.leaseEnd) (visible : later.leaseEnd ≤ (state.ring producer).visibleProducerPos) :
    Grants setup producer state earlier later := by
  refine ⟨⟨by rw [begins, stage]; rfl, fun _ => by rw [begins]; exact ⟨proper, visible⟩, fun _ _ checked => ?_,
    by rw [stage]; trivial, fun _ _ held => ?_, fun _ _ held => ?_⟩, .inr fun _ _ => by rw [stage]; trivial⟩
  · rw [stage] at checked
    cases checked
  · rw [stage] at held
    cases held
  · rw [stage] at held
    cases held

/-- The first check records the floor; it passes only behind the intent. -/
theorem Grants.checked (retains : Retains setup producer state)
    (allowed : intentAllows (state.ring producer).retentionIntent start = true) (begins : later.leaseStart = start)
    (stage : later.leaseStage = .checked start (state.ring producer).retainedPosition) (proper : start < later.leaseEnd)
    (visible : later.leaseEnd ≤ (state.ring producer).visibleProducerPos) : Grants setup producer state earlier later := by
  have capacity := setup.retentionCapacity_le
  have bytes := retains.bytes
  refine ⟨⟨by rw [begins, stage]; rfl, fun _ => by rw [begins]; exact ⟨proper, visible⟩, fun _ floor checked => ?_, ?_,
    fun _ _ held => ?_, fun _ _ held => ?_⟩, .inr fun limit behind => ?_⟩
  · rw [stage] at checked
    cases checked
    exact le_rfl
  · rw [stage]
    exact fun behind => by omega
  · rw [stage] at held
    cases held
  · rw [stage] at held
    cases held
  · rw [stage]
    intro floor
    have barrier : (state.ring producer).barrier ≤ start := by
      unfold ProducerRing.barrier
      split
      · exact floor
      · simpa [intentAllows, *] using allowed
    omega

/-- The second check finds the floor behind the start, so the lease is held. -/
theorem Grants.held (leased : Leased setup.capacity (state.tx producer).producerPos (state.ring producer) earlier)
    {floor : Nat} (checked : earlier.leaseStage = .checked start floor)
    (behind : (state.ring producer).retainedPosition ≤ start) (begins : later.leaseStart = earlier.leaseStart)
    (stops : later.leaseEnd = earlier.leaseEnd)
    (stage : later.leaseStage = .held start (state.ring producer).writes.length) :
    Grants setup producer state earlier later := by
  have floored := (leased.checked start floor checked).trans behind
  have spares := leased.spares
  rw [checked] at spares
  refine ⟨⟨?_, fun _ => ?_, fun _ _ checked => ?_, ?_, fun _ since held => ?_, fun _ _ held => ?_⟩,
    .inl (.inr ⟨start, floor, _, checked, floored, stage⟩)⟩
  · rw [begins, leased.start, checked, stage]
    rfl
  · rw [begins, stops]
    exact leased.proper (by rw [checked]; exact fun same => by cases same)
  · rw [stage] at checked
    cases checked
  · rw [stage]
    exact spares floored
  · rw [stage] at held
    cases held
    exact le_rfl
  · rw [stage] at held
    cases held
    rw [Nat.sub_self, List.take_zero]
    exact fun _ member => absurd member List.not_mem_nil

/-- A held lease may end earlier. -/
theorem Grants.narrows (leased : Leased setup.capacity (state.tx producer).producerPos (state.ring producer) earlier)
    {since stop : Nat} (held : earlier.leaseStage = .held start since) (proper : start < stop)
    (within : stop ≤ earlier.leaseEnd) : Grants setup producer state earlier {earlier with leaseEnd := stop} := by
  have some : earlier.leaseStage ≠ .none := by
    rw [held]
    exact fun same => by cases same
  have begins : earlier.leaseStart = start := by
    rw [leased.start, held]
    rfl
  refine ⟨⟨leased.start, fun _ => ⟨by dsimp only; omega, within.trans (leased.proper some).2⟩, leased.checked,
    leased.spares, leased.dated, fun first since held write member => ?_⟩, .inl (.inl rfl)⟩
  have apart := leased.intact first since held write member
  exact apart.mono le_rfl le_rfl le_rfl (by dsimp only; omega)

end Moves

variable [DecidableEq K] {setup : Setup n m K} {client : K} {consumer : Fin m} {token : Nat} {producer : Fin n}
  {state before after : State n m K} {α β : Type}

section Rules

/-- The slot of a living subscriber is active, and its cursors hold leases. -/
theorem own_leased (ready : (rxContract setup client).Ready state)
    (registered : (state.client client).registration = some (consumer, token)) (producer : Fin n) :
    Leased setup.capacity (state.tx producer).producerPos (state.ring producer) (state.cursor producer consumer) :=
  (ready.keeps producer).leases consumer (ready.knows.membership.registered client consumer token ready.may registered).1

/-- Only the cursors of the own slot are at stake. -/
theorem own_acts (ready : (rxContract setup client).Ready before) (action : (rxContract setup client).action before after)
    (registered : (before.client client).registration = some (consumer, token))
    (grants : ∀ producer, Grants setup producer before (before.cursor producer consumer) (after.cursor producer consumer)) :
    (rxContract setup client).invariant after ∧ (rxContract setup client).guarantee before after := by
  refine rx_acts ready action fun other word same => ?_
  obtain ⟨rfl, rfl⟩ := Prod.mk.inj (Option.some.inj (same.symm.trans registered))
  exact grants

/-- A step on the cursor of one ring. -/
theorem cursor_acts (ready : (rxContract setup client).Ready before) (action : (rxContract setup client).action before after)
    (registered : (before.client client).registration = some (consumer, token))
    (others : ∀ other, other ≠ producer → after.cursor other consumer = before.cursor other consumer)
    (grants : Grants setup producer before (before.cursor producer consumer) (after.cursor producer consumer)) :
    (rxContract setup client).invariant after ∧ (rxContract setup client).guarantee before after := by
  refine own_acts ready action registered fun other => ?_
  by_cases same : other = producer
  · exact same ▸ grants
  · rw [others other same]
    exact .same (own_leased ready registered other) (.refl _)

theorem owner (setup : Setup n m K) (client : K) : ClientContract client (rxContract setup client) where
  lawful := lawful setup (.client client)
  rely rely := rely.toRxRely
  aside ready action same := rx_acts ready action fun _ _ registered producer => by
    rw [same.cursor]
    exact .same (own_leased ready registered producer) (.refl _)
  unregistered ready action none := rx_acts ready action fun _ _ registered => by
    rw [none] at registered
    cases registered

/-- The leases of a slot stay, or they end. -/
def Eases (consumer : Fin m) (before after : State n m K) : Prop :=
  ∀ producer, SameLease (before.cursor producer consumer) (after.cursor producer consumer) ∨
    ((after.cursor producer consumer).leaseStart = kNoLease ∧ (after.cursor producer consumer).leaseStage = .none)

/-- The leases of a slot stay. -/
def SameLeases (consumer : Fin m) (before after : State n m K) : Prop :=
  ∀ producer, SameLease (before.cursor producer consumer) (after.cursor producer consumer)

/-- A program that keeps to its slot and only ends leases. -/
theorem eases_safe {program : Prog (State n m K) α} (keeps : Each (RxKeeps client consumer) program)
    (eases : Each (Eases consumer) program) (entry : Membership.Registered client consumer token state) :
    Safe (rxContract setup client) (fun _ => Membership.Registered client consumer token) program state := by
  refine Safe.of_each (keeps.and eases) (fun {before after} ready action changes registered => ?_)
    (fun rely _ registered => registered.stable rely.toRxRely) entry
  obtain ⟨kept, guaranteed⟩ := own_acts ready action registered fun producer => by
    rcases changes.2 producer with same | ⟨start, stage⟩
    · exact .same (own_leased ready registered producer) same
    · exact .ends start stage
  exact ⟨kept, guaranteed, changes.1.registration.trans registered⟩

/-- The subscriber holds a lease from a start to an end. -/
structure Holds (client : K) (consumer : Fin m) (token : Nat) (producer : Fin n) (start stop : Nat)
    (state : State n m K) : Prop where
  registered : Membership.Registered client consumer token state
  held : ∃ since, (state.cursor producer consumer).leaseStage = .held start since
  stop : (state.cursor producer consumer).leaseEnd = stop

omit [DecidableEq K] in
theorem Holds.congr {start stop : Nat} (holds : Holds client consumer token producer start stop before)
    (registered : Membership.Registered client consumer token after)
    (same : SameLease (before.cursor producer consumer) (after.cursor producer consumer)) :
    Holds client consumer token producer start stop after := by
  obtain ⟨since, held⟩ := holds.held
  exact ⟨registered, ⟨since, same.stage.trans held⟩, same.stop.trans holds.stop⟩

omit [DecidableEq K] in
theorem Holds.stable {start stop : Nat} (holds : Holds client consumer token producer start stop before)
    (rely : RxRely client before after) : Holds client consumer token producer start stop after :=
  holds.congr (holds.registered.stable rely) (by
    rw [(rely.registered consumer token holds.registered).2.1 producer]
    exact .refl _)

/-- A program that keeps to its slot and leaves the leases alone. -/
theorem holds_safe {start stop : Nat} {program : Prog (State n m K) α} (keeps : Each (RxKeeps client consumer) program)
    (same : Each (SameLeases consumer) program) (entry : Holds client consumer token producer start stop state) :
    Safe (rxContract setup client) (fun _ => Holds client consumer token producer start stop) program state := by
  refine Safe.of_each (keeps.and same) (fun {before after} ready action changes holds => ?_)
    (fun rely _ holds => holds.stable rely.toRxRely) entry
  obtain ⟨kept, guaranteed⟩ := own_acts ready action holds.registered fun producer =>
    .same (own_leased ready holds.registered producer) (changes.2 producer)
  exact ⟨kept, guaranteed, holds.congr (changes.1.registration.trans holds.registered) (changes.2 producer)⟩

theorem eases_bind {program : Prog (State n m K) α} {rest : α → Prog (State n m K) β} {P : β → State n m K → Prop}
    (keeps : Each (RxKeeps client consumer) program) (eases : Each (Eases consumer) program)
    (entry : Membership.Registered client consumer token state)
    (continues : ∀ value current, Membership.Registered client consumer token current →
      Safe (rxContract setup client) P (rest value) current) :
    Safe (rxContract setup client) P (program.bind rest) state :=
  Safe.bind (lawful setup (.client client)) (eases_safe keeps eases entry) fun value current _ => continues value current

theorem holds_bind {start stop : Nat} {program : Prog (State n m K) α} {rest : α → Prog (State n m K) β}
    {P : β → State n m K → Prop} (keeps : Each (RxKeeps client consumer) program)
    (same : Each (SameLeases consumer) program) (entry : Holds client consumer token producer start stop state)
    (continues : ∀ value current, Holds client consumer token producer start stop current →
      Safe (rxContract setup client) P (rest value) current) :
    Safe (rxContract setup client) P (program.bind rest) state :=
  Safe.bind (lawful setup (.client client)) (holds_safe keeps same entry) fun value current _ => continues value current

end Rules

section Words

variable (setup client consumer token)

omit [DecidableEq K] in
theorem same_reads {program : Prog (State n m K) α} (reads : Reads program) : Each (SameLeases consumer) program :=
  reads.each fun _ _ => .refl _

omit [DecidableEq K] in
theorem SameLeases.of_rings (same : SameRings before after) : SameLeases consumer before after := fun producer => by
  rw [same.cursor]
  exact .refl _

omit [DecidableEq K] in
theorem eases_same {program : Prog (State n m K) α} (each : Each (SameLeases consumer) program) :
    Each (Eases consumer) program := each.mono fun _ _ same producer => .inl (same producer)

omit [DecidableEq K] in
theorem eases_reads {program : Prog (State n m K) α} (reads : Reads program) : Each (Eases consumer) program :=
  eases_same consumer (same_reads consumer reads)

omit [DecidableEq K] in
theorem Eases.of_rings (same : SameRings before after) : Eases consumer before after :=
  fun producer => .inl (SameLeases.of_rings consumer same producer)

theorem same_updateRx (change : Rx n → Rx n) :
    Each (SameLeases consumer) (updateRx client change : Prog (State n m K) Unit) :=
  .store fun _ => .of_rings consumer rfl

omit [DecidableEq K] in
theorem same_storeProgress (producer : Fin n) (change : ConsumerSharedState → ConsumerSharedState)
    (same : ∀ cursor, SameLease cursor (change cursor)) :
    Each (SameLeases consumer) (storeProgress producer consumer change : Prog (State n m K) Unit) := by
  refine .store fun state other => ?_
  by_cases own : other = producer
  · subst own
    rw [State.setCursor_cursor]
    exact same _
  · rw [State.setCursor_cursor_of_ne _ _ _ _ _ _ (.inl own)]
    exact .refl _

theorem same_consume (message : Message n) : Each (SameLeases consumer) (consume setup client consumer token message) := by
  refine .bind (same_reads consumer (reads_hasConsumer consumer token)) fun registered => ?_
  split
  · exact same_updateRx client consumer _
  · exact .ret _

theorem same_beginReceive (fixed : Option UInt32) (reportLag : Bool) : Each (SameLeases consumer)
    (beginReceive client consumer token fixed reportLag : Prog (State n m K) (Received n)) := by
  refine .bind (same_reads consumer (reads_hasConsumer consumer token)) fun registered => ?_
  split
  · exact .bind (.modifyGet (fun _ => .of_rings consumer rfl) _) fun _ => .ret _
  · exact .ret _

theorem same_beginReceiveChecked (fixed : Option UInt32) : Each (SameLeases consumer)
    (beginReceiveChecked setup client consumer token fixed) := by
  refine .bind (same_reads consumer (reads_hasConsumer consumer token)) fun registered => ?_
  split
  · refine .bind ?_ fun reportLag => same_beginReceive client consumer token fixed reportLag
    split
    · exact same_reads consumer (reads_consumerUsesDropOldest consumer)
    · exact .ret _
  · exact .ret _

theorem same_createRx : Each (SameLeases consumer) (createRx setup client consumer token) := by
  refine .bind (same_reads consumer (reads_hasConsumer consumer token)) fun registered => ?_
  split
  · refine .bind ?_ fun expected => .bind (same_updateRx client consumer _) fun _ => .forEach (fun producer => ?_) _
    · split
      · exact same_reads consumer (.load _)
      · exact .ret _
    · exact .bind (same_reads consumer (.load _)) fun _ => .bind (same_reads consumer (.load _)) fun _ =>
        .bind (same_reads consumer (.load _)) fun _ => same_updateRx client consumer _
  · exact .ret _

theorem same_publishLatestProgress (producer : Fin n) (position sequence : Nat) : Each (SameLeases consumer)
    (publishLatestProgress client consumer producer position sequence : Prog (State n m K) Unit) :=
  .bind (same_updateRx client consumer _) fun _ =>
    .bind (same_storeProgress consumer producer _ fun _ => ⟨rfl, rfl, rfl⟩) fun _ =>
    .bind (same_storeProgress consumer producer _ fun _ => ⟨rfl, rfl, rfl⟩) fun _ =>
    same_storeProgress consumer producer _ fun _ => ⟨rfl, rfl, rfl⟩

omit [DecidableEq K] in
theorem same_addLaggedMessages (producer : Fin n) (amount : Nat) : Each (SameLeases consumer)
    (addLaggedMessages producer consumer amount : Prog (State n m K) Unit) := by
  unfold addLaggedMessages
  split
  · exact same_storeProgress consumer producer _ fun _ => ⟨rfl, rfl, rfl⟩
  · exact .ret _

omit [DecidableEq K] in
theorem same_addSkippedMessages (producer : Fin n) (amount : Nat) : Each (SameLeases consumer)
    (addSkippedMessages producer consumer amount : Prog (State n m K) Unit) := by
  unfold addSkippedMessages
  split
  · exact same_storeProgress consumer producer _ fun _ => ⟨rfl, rfl, rfl⟩
  · exact .ret _

theorem eases_clearLatestLease (producer : Fin n) : Each (Eases consumer)
    (clearLatestLease client consumer token producer : Prog (State n m K) Unit) := by
  refine .bind (eases_reads consumer (reads_hasConsumer consumer token)) fun registered => ?_
  split
  · refine .store fun state other => ?_
    rw [State.setRx_cursor]
    by_cases own : other = producer
    · subst own
      rw [State.setCursor_cursor]
      exact .inr ⟨rfl, rfl⟩
    · rw [State.setCursor_cursor_of_ne _ _ _ _ _ _ (.inl own)]
      exact .inl (.refl _)
  · exact .ret _

theorem eases_flushRing (producer : Fin n) : Each (Eases consumer) (flushRing setup client consumer token producer) := by
  refine .bind (eases_reads consumer (reads_readRx client)) fun rx => ?_
  split
  · exact .ret _
  refine .bind (eases_same consumer (same_storeProgress consumer producer _ fun _ => ⟨rfl, rfl, rfl⟩)) fun _ =>
    .bind (eases_same consumer (same_storeProgress consumer producer _ fun _ => ⟨rfl, rfl, rfl⟩)) fun _ =>
    .bind (.when (.store fun _ => .of_rings consumer rfl)) fun _ =>
    .bind (eases_same consumer (same_storeProgress consumer producer _ fun _ => ⟨rfl, rfl, rfl⟩)) fun _ =>
    .bind (eases_same consumer (same_updateRx client consumer _)) fun _ => ?_
  split
  · exact eases_clearLatestLease client consumer token producer
  · exact .ret _

theorem eases_flushBatch : Each (Eases consumer) (flushBatch setup client consumer token) := by
  refine .bind (.store fun _ => .of_rings consumer rfl) fun _ =>
    .bind (eases_reads consumer (reads_hasConsumer consumer token)) fun registered => ?_
  split
  · exact .forEach (fun producer => eases_flushRing setup client consumer token producer) _
  · exact .ret _

theorem eases_release (message : Message n) : Each (Eases consumer) (release setup client consumer token message) := by
  refine .bind (eases_reads consumer (reads_hasConsumer consumer token)) fun registered => ?_
  split
  · refine .bind (.store fun _ => .of_rings consumer rfl) fun _ =>
      .bind (eases_same consumer (same_storeProgress consumer _ _ fun _ => ⟨rfl, rfl, rfl⟩)) fun _ =>
      .bind (eases_same consumer (same_updateRx client consumer _)) fun _ =>
      .bind (eases_reads consumer (reads_readRx client)) fun rx =>
      .bind (eases_same consumer (same_storeProgress consumer _ _ fun _ => ⟨rfl, rfl, rfl⟩)) fun _ =>
      .bind (eases_same consumer (same_updateRx client consumer _)) fun _ =>
      .bind (.when (.store fun _ => .of_rings consumer rfl)) fun _ =>
      .bind (eases_same consumer (same_storeProgress consumer _ _ fun _ => ⟨rfl, rfl, rfl⟩)) fun _ => ?_
    split
    · exact eases_clearLatestLease client consumer token _
    · exact .ret _
  · exact .ret _

theorem eases_destroyRx : Each (Eases consumer) (destroyRx setup client consumer token) := by
  unfold destroyRx
  split
  · refine .forEach (fun producer => ?_) _
    refine .bind (eases_reads consumer (reads_readRx client)) fun rx => ?_
    split
    · exact eases_clearLatestLease client consumer token producer
    · exact .ret _
  · exact .ret _

end Words

section Binds

variable {rest : α → Prog (State n m K) β} {P : β → State n m K → Prop} {start stop : Nat}

/-- A read, and what follows. -/
theorem reads_bind {program : Prog (State n m K) α} (reads : Reads program)
    (entry : Membership.Registered client consumer token state)
    (continues : ∀ value current, Membership.Registered client consumer token current →
      Safe (rxContract setup client) P (rest value) current) :
    Safe (rxContract setup client) P (program.bind rest) state :=
  eases_bind (keeps_reads client consumer reads) (eases_reads consumer reads) entry continues

/-- A read under a lease. -/
theorem holds_reads_bind {program : Prog (State n m K) α} (reads : Reads program)
    (entry : Holds client consumer token producer start stop state)
    (continues : ∀ value current, Holds client consumer token producer start stop current →
      Safe (rxContract setup client) P (rest value) current) :
    Safe (rxContract setup client) P (program.bind rest) state :=
  holds_bind (keeps_reads client consumer reads) (same_reads consumer reads) entry continues

/-- The end of a lease, and what follows. -/
theorem clear_bind {rest : Unit → Prog (State n m K) β} (entry : Membership.Registered client consumer token state)
    (continues : ∀ value current, Membership.Registered client consumer token current →
      Safe (rxContract setup client) P (rest value) current) :
    Safe (rxContract setup client) P ((clearLatestLease client consumer token producer).bind rest) state :=
  eases_bind (keeps_clearLatestLease client consumer token producer) (eases_clearLatestLease client consumer token producer)
    entry continues

/-- A change of the own members, and what follows. -/
theorem updateRx_bind {change : Rx n → Rx n} {rest : Unit → Prog (State n m K) β}
    (entry : Membership.Registered client consumer token state)
    (continues : ∀ value current, Membership.Registered client consumer token current →
      Safe (rxContract setup client) P (rest value) current) :
    Safe (rxContract setup client) P ((updateRx client change).bind rest) state :=
  eases_bind (keeps_updateRx client consumer change) (eases_same consumer (same_updateRx client consumer change)) entry
    continues

end Binds

section Leases

variable {start snapshot visible : Nat}

/-- A subscriber prepares a lease that ends at a visible position of a ring. -/
structure Prepares (client : K) (consumer : Fin m) (token : Nat) (producer : Fin n) (visible : Nat)
    (fact : ConsumerSharedState → Prop) (state : State n m K) : Prop where
  registered : Membership.Registered client consumer token state
  bound : visible ≤ (state.ring producer).visibleProducerPos
  holds : fact (state.cursor producer consumer)

omit [DecidableEq K] in
theorem Prepares.stable {fact : ConsumerSharedState → Prop}
    (prepares : Prepares client consumer token producer visible fact before) (rely : Raised client before after) :
    Prepares client consumer token producer visible fact after := by
  refine ⟨prepares.registered.stable rely.toRxRely, prepares.bound.trans (rely.rises.visible producer), ?_⟩
  rw [(rely.registered consumer token prepares.registered).2.1 producer]
  exact prepares.holds

theorem prepares_reads {fact : ConsumerSharedState → Prop} {program : Prog (State n m K) α} (reads : Reads program)
    (entry : Prepares client consumer token producer visible fact state) :
    Safe (rxContract setup client) (fun _ => Prepares client consumer token producer visible fact) program state :=
  Safe.of_each reads
    (fun {before after} ready _ same held => by
      obtain rfl : after = before := same
      exact ⟨ready.keeps, (lawful setup (.client client)).idle _, held⟩)
    (fun rely _ held => held.stable rely) entry

/-- A step that rewrites the own cursor of the ring. -/
theorem prepares_acts {fact : ConsumerSharedState → Prop} (change : ConsumerSharedState → ConsumerSharedState)
    (later : ConsumerSharedState → Prop) (ready : (rxContract setup client).Ready before)
    (action : (rxContract setup client).action before after)
    (entry : Prepares client consumer token producer visible fact before)
    (rewrites : ∀ other, after.cursor other consumer = (before.setCursor producer consumer change).cursor other consumer)
    (registration : (after.client client).registration = (before.client client).registration)
    (grants : Grants setup producer before (before.cursor producer consumer) (change (before.cursor producer consumer)))
    (reached : later (change (before.cursor producer consumer))) :
    (rxContract setup client).invariant after ∧ (rxContract setup client).guarantee before after ∧
      Prepares client consumer token producer visible later after := by
  have own : after.cursor producer consumer = change (before.cursor producer consumer) := by
    rw [rewrites, State.setCursor_cursor]
  obtain ⟨kept, guaranteed⟩ := cursor_acts ready action entry.registered
    (fun other apart => by rw [rewrites, State.setCursor_cursor_of_ne _ _ _ _ _ _ (.inl apart)]) (by rw [own]; exact grants)
  exact ⟨kept, guaranteed, registration.trans entry.registered,
    entry.bound.trans (Guarded.rises guaranteed |>.visible producer), own ▸ reached⟩

/-- The check of the intent. -/
theorem checkIntent_acts (some : start < visible) (ready : (rxContract setup client).Ready before)
    (action : (rxContract setup client).action before after)
    (entry : Prepares client consumer token producer visible (fun cursor => cursor.leaseStart = start ∧
      cursor.leaseEnd = visible) before)
    (moved : after = if intentAllows (before.ring producer).retentionIntent start then
        before.setCursor producer consumer fun cursor =>
          {cursor with leaseStage := .checked start (before.ring producer).retainedPosition}
      else before) :
    (rxContract setup client).invariant after ∧ (rxContract setup client).guarantee before after ∧
      Prepares client consumer token producer visible (fun cursor =>
        intentAllows (before.ring producer).retentionIntent start = true →
          (∃ floor, cursor.leaseStage = .checked start floor) ∧ cursor.leaseEnd = visible) after := by
  obtain ⟨begins, stop⟩ := entry.holds
  split at moved
  · rename_i allowed
    subst moved
    exact prepares_acts (fun cursor => {cursor with leaseStage := .checked start (before.ring producer).retainedPosition})
      _ ready action entry (fun _ => rfl) rfl (.checked (ready.keeps producer) allowed begins rfl
        (some.trans_eq stop.symm) (stop.le.trans entry.bound)) fun _ => ⟨⟨_, rfl⟩, stop⟩
  · rename_i refused
    subst moved
    exact ⟨ready.keeps, (lawful setup (.client client)).idle _, entry.registered, entry.bound,
      fun allowed => absurd allowed refused⟩

/-- The check of the floor. -/
theorem checkFloor_acts {allowed : Bool} (floor : snapshot ≤ start) (ready : (rxContract setup client).Ready before)
    (action : (rxContract setup client).action before after)
    (entry : Prepares client consumer token producer visible (fun cursor => allowed = true →
      (∃ floor, cursor.leaseStage = .checked start floor) ∧ cursor.leaseEnd = visible) before)
    (moved : after = if (before.ring producer).retainedPosition = snapshot ∧ allowed = true then
        before.setCursor producer consumer fun cursor =>
          {cursor with leaseStage := .held start (before.ring producer).writes.length}
      else before) :
    (rxContract setup client).invariant after ∧ (rxContract setup client).guarantee before after ∧
      Prepares client consumer token producer visible (fun cursor =>
        (before.ring producer).retainedPosition = snapshot → allowed = true →
          (∃ since, cursor.leaseStage = .held start since) ∧ cursor.leaseEnd = visible) after := by
  split at moved
  · rename_i passed
    obtain ⟨same, allows⟩ := passed
    obtain ⟨⟨seen, checked⟩, stop⟩ := entry.holds allows
    subst moved
    exact prepares_acts (fun cursor => {cursor with leaseStage := .held start (before.ring producer).writes.length})
      _ ready action entry (fun _ => rfl) rfl (.held (own_leased ready entry.registered producer) checked
        (same.trans_le floor) rfl rfl rfl) fun _ _ => ⟨⟨_, rfl⟩, stop⟩
  · rename_i refused
    subst moved
    exact ⟨ready.keeps, (lawful setup (.client client)).idle _, entry.registered, entry.bound,
      fun same allows => absurd ⟨same, allows⟩ refused⟩

/-- The whole handshake: a lease that has begun is held. -/
theorem beginLatestLease_safe (entry : Membership.Registered client consumer token state) (some : start < visible)
    (floor : snapshot ≤ start) (bound : visible ≤ (state.ring producer).visibleProducerPos) :
    Safe (rxContract setup client) (fun begun current => Membership.Registered client consumer token current ∧
        (begun = true → Holds client consumer token producer start visible current))
      (beginLatestLease client consumer token producer start snapshot visible) state := by
  have law := lawful setup (.client client)
  have refuses {current : State n m K} (held : Membership.Registered client consumer token current) :
      Safe (rxContract setup client) (fun begun current => Membership.Registered client consumer token current ∧
        (begun = true → Holds client consumer token producer start visible current)) (.ret false) current :=
    fun _ rely _ => ⟨held.stable rely.toRxRely, fun same => by cases same⟩
  have entry : Prepares client consumer token producer visible (fun _ => True) state := ⟨entry, bound, trivial⟩
  refine Safe.load_bind law fun first rely _ => ?_
  have entry := entry.stable rely
  split
  · exact refuses entry.registered
  refine Safe.load_bind law fun second rely ready => ?_
  have entry := entry.stable rely
  split
  · exact refuses entry.registered
  rename_i free
  have free : (second.cursor producer consumer).leaseStart = kNoLease := not_not.mp free
  have none := (own_leased ready entry.registered producer).none_of_free
    ((ready.keeps producer).visible_le (ready.knows.commits producer)) free
  have entry : Prepares client consumer token producer visible (fun cursor => cursor.leaseStart = kNoLease ∧
      cursor.leaseStage = .none) second := ⟨entry.registered, entry.bound, free, none⟩
  refine Safe.store_bind fun third rely ready action => ?_
  have entry := entry.stable rely
  obtain ⟨kept, guaranteed, entry⟩ := prepares_acts _ (fun cursor => cursor.leaseEnd = visible) ready action entry
    (fun _ => rfl) rfl (.ends entry.holds.1 entry.holds.2) rfl
  refine ⟨kept, guaranteed, Safe.store_bind fun fourth rely ready action => ?_⟩
  have entry := entry.stable rely
  have stop := entry.holds
  obtain ⟨kept, guaranteed, entry⟩ := prepares_acts
    (fun cursor => {cursor with leaseStart := start, leaseStage := .announced start})
    (fun cursor => cursor.leaseStart = start ∧ cursor.leaseEnd = visible)
    ready action entry (fun _ => rfl) (by simp [State.setRx]) (.announced rfl rfl (some.trans_eq stop.symm) (stop.le.trans entry.bound)) ⟨rfl, stop⟩
  refine ⟨kept, guaranteed, Safe.modifyGet_bind fun fifth rely ready action => ?_⟩
  have entry := entry.stable rely
  obtain ⟨kept, guaranteed, entry⟩ := checkIntent_acts some ready action entry rfl
  refine ⟨kept, guaranteed, Safe.modifyGet_bind fun sixth rely ready action => ?_⟩
  have entry := entry.stable rely
  obtain ⟨kept, guaranteed, entry⟩ := checkFloor_acts floor ready action entry rfl
  refine ⟨kept, guaranteed, ?_⟩
  split
  · exact clear_bind entry.registered fun _ _ => refuses
  · rename_i passed
    simp only [not_or, not_not, Bool.not_eq_false] at passed
    refine fun last rely ready => ⟨entry.registered.stable rely.toRxRely, fun _ => ?_⟩
    obtain ⟨held, stop⟩ := (entry.stable rely).holds passed.1 passed.2
    exact ⟨entry.registered.stable rely.toRxRely, held, stop⟩

/-- The end of a held lease moves back to a position inside. -/
theorem narrowLease_safe {stop further : Nat} (entry : Holds client consumer token producer start stop state)
    (proper : start < further) (within : further ≤ stop) :
    Safe (rxContract setup client) (fun _ => Holds client consumer token producer start further)
      (narrowLease producer consumer further) state := by
  refine Safe.store_last fun current rely ready action => ?_
  have holds := entry.stable rely.toRxRely
  obtain ⟨since, held⟩ := holds.held
  have own : (current.setCursor producer consumer fun cursor => {cursor with leaseEnd := further}).cursor producer consumer =
      {current.cursor producer consumer with leaseEnd := further} := State.setCursor_cursor ..
  obtain ⟨kept, guaranteed⟩ := cursor_acts ready action holds.registered
    (fun other apart => State.setCursor_cursor_of_ne _ _ _ _ _ _ (.inl apart)) (by
      rw [own]
      exact .narrows (own_leased ready holds.registered producer) held proper (holds.stop ▸ within))
  have narrowed : Holds client consumer token producer start further
      (current.setCursor producer consumer fun cursor => {cursor with leaseEnd := further}) :=
    ⟨holds.registered, ⟨since, by rw [own]; exact held⟩, by rw [own]⟩
  exact ⟨kept, guaranteed, fun last rely _ => narrowed.stable rely.toRxRely⟩

/-- What a receiver has opened: a range under a held lease. -/
def Opened (client : K) (consumer : Fin m) (token : Nat) (producer : Fin n) (opening : Opening n) (state : State n m K) :
    Prop :=
  ∀ lagged start sequence gap visible, opening = .opened lagged start sequence gap visible →
    start < visible ∧ Holds client consumer token producer start visible state

theorem openLatest_safe (entry : Membership.Registered client consumer token state) :
    Safe (rxContract setup client) (fun opening current => Membership.Registered client consumer token current ∧
        Opened client consumer token producer opening current)
      (openLatest setup client consumer token producer) state := by
  have law := lawful setup (.client client)
  have refuses {opening : Opening n} {current : State n m K} (held : Membership.Registered client consumer token current)
      (plain : ∀ lagged start sequence gap visible, opening ≠ .opened lagged start sequence gap visible) :
      Safe (rxContract setup client) (fun opening current => Membership.Registered client consumer token current ∧
        Opened client consumer token producer opening current) (.ret opening) current :=
    fun _ rely _ => ⟨held.stable rely.toRxRely, fun _ _ _ _ _ same => absurd same (plain _ _ _ _ _)⟩
  refine Safe.load_bind law fun first rely _ => ?_
  have held := entry.stable rely.toRxRely
  split
  · exact refuses held fun _ _ _ _ _ same => by cases same
  refine Safe.load_bind law fun second rely _ => Safe.load_bind law fun third later _ => ?_
  have held := (held.stable rely.toRxRely).stable later.toRxRely
  have entry : Prepares client consumer token producer (third.ring producer).visibleProducerPos (fun _ => True) third :=
    ⟨held, le_rfl, trivial⟩
  split
  · exact refuses held fun _ _ _ _ _ same => by cases same
  have reads : Reads (if decide ((first.client client).rx.readPositions producer < (second.ring producer).retainedPosition) then
      consumerUsesDropOldest consumer else .ret true : Prog (State n m K) Bool) := by
    split
    · exact reads_consumerUsesDropOldest consumer
    · exact .ret _
  refine Safe.bind law (prepares_reads reads entry) fun mayLag current _ entry => ?_
  split
  · exact clear_bind entry.registered fun _ _ held => refuses held fun _ _ _ _ _ same => by cases same
  dsimp only
  split
  · exact refuses entry.registered fun _ _ _ _ _ same => by cases same
  rename_i beyond
  refine Safe.bind law (beginLatestLease_safe entry.registered (not_le.mp beyond) (le_max_right _ _) entry.bound)
    fun begun current _ held => ?_
  split
  · rename_i began
    have holds := held.2 began
    have reads : Reads (if decide ((first.client client).rx.readPositions producer <
        (second.ring producer).retainedPosition) then sequenceAtPosition setup producer (second.ring producer).retainedPosition
        else .ret ((first.client client).rx.nextSequences producer) : Prog (State n m K) Nat) := by
      split
      · exact reads_sequenceAtPosition setup producer _
      · exact .ret _
    refine holds_reads_bind reads holds fun sequence current holds => ?_
    split
    · exact clear_bind holds.registered fun _ _ held => refuses held fun _ _ _ _ _ same => by cases same
    · refine fun last rely _ => ⟨holds.registered.stable rely.toRxRely, fun _ _ _ _ _ same => ?_⟩
      cases same
      exact ⟨not_le.mp beyond, holds.stable rely.toRxRely⟩
  · exact refuses held.1 fun _ _ _ _ _ same => by cases same

end Leases

section Receive

theorem rests {value : α} (held : Membership.Registered client consumer token state) :
    Safe (rxContract setup client) (fun _ => Membership.Registered client consumer token) (.ret value) state :=
  fun _ rely _ => held.stable rely.toRxRely

/-- A look at a frame under a lease. -/
theorem look_bind {start stop position target : Nat} {fixed : Option UInt32}
    {rest : Option (Message n) → Prog (State n m K) β} {P : β → State n m K → Prop}
    (entry : Holds client consumer token producer start stop state)
    (continues : ∀ read current, Holds client consumer token producer start stop current →
      (∀ message, read.filter isCommitted = some message → position < message.nextPosition ∧ message.nextPosition ≤ stop) →
      Safe (rxContract setup client) P (rest read) current) :
    Safe (rxContract setup client) P ((tryReadFromRing setup producer position target stop fixed).bind rest) state := by
  have reads := reads_tryReadFromRing setup producer position target stop fixed
  refine Safe.bind (lawful setup (.client client)) ((holds_safe (keeps_reads client consumer reads)
    (same_reads consumer reads) entry).ends (ends_tryReadFromRing producer position target stop fixed))
    fun read current _ held => continues read current held.1 fun message found => ?_
  have looked := held.2 message (Option.filter_eq_some_iff.mp found).1
  exact ⟨looked.moves, looked.inside⟩

theorem visitLatest_safe (fixed : Option UInt32) (reportLag : Bool) (now : Option Nat)
    (entry : Membership.Registered client consumer token state) :
    Safe (rxContract setup client) (fun _ => Membership.Registered client consumer token)
      (visitLatest setup client consumer token fixed reportLag now producer) state := by
  refine Safe.bind (lawful setup (.client client)) (openLatest_safe entry) fun opening current _ held => ?_
  obtain ⟨held, opened⟩ := held
  cases opening with
  | nothing => exact rests held
  | refused => exact rests held
  | failed => exact rests held
  | opened lagged start sequence gap visible =>
      obtain ⟨some, holds⟩ := opened _ _ _ _ _ rfl
      refine look_bind holds fun read current holds looked => ?_
      split
      · exact clear_bind holds.registered fun _ _ held => rests held
      rename_i message found
      obtain ⟨moves, inside⟩ := looked message found
      refine holds_bind (.when (.bind (keeps_addLaggedMessages client consumer producer gap) fun _ =>
          keeps_publishLatestProgress client consumer producer start sequence))
        (.when (.bind (same_addLaggedMessages consumer producer gap) fun _ =>
          same_publishLatestProgress client consumer producer start sequence)) holds fun _ current holds => ?_
      split
      · exact clear_bind holds.registered fun _ _ held => rests held
      refine holds_reads_bind (reads_isExpired _ _) holds fun verdict current holds => ?_
      obtain ⟨expired, now⟩ := verdict
      dsimp only
      split
      · refine holds_bind (.store fun state => .of_setClient client consumer state _ rfl rfl)
          (.store fun _ => .of_rings consumer rfl) holds fun _ current holds => ?_
        refine holds_bind (keeps_publishLatestProgress client consumer producer _ _)
          (same_publishLatestProgress client consumer producer _ _) holds fun _ current holds => ?_
        refine clear_bind holds.registered fun _ current held => ?_
        exact updateRx_bind held fun _ _ held => rests held
      · refine Safe.bind (lawful setup (.client client)) (narrowLease_safe holds moves inside) fun _ current _ holds => ?_
        exact eases_bind (.store fun state => .of_setClient client consumer state _ rfl rfl)
          (.store fun _ => .of_rings consumer rfl) holds.registered fun _ _ held => rests held

/-- A scan of the rings. -/
theorem scan_safe {γ δ : Type} {round : γ → Fin n → Prog (State n m K) (γ ⊕ δ)} {order : List (Fin n)} {carried : γ}
    (each : ∀ carried producer {state : State n m K}, Membership.Registered client consumer token state →
      Safe (rxContract setup client) (fun _ => Membership.Registered client consumer token) (round carried producer) state)
    (entry : Membership.Registered client consumer token state) :
    Safe (rxContract setup client) (fun _ => Membership.Registered client consumer token)
      (.foldUntil round order carried) state := by
  refine Safe.weaken (Safe.foldUntil (lawful setup (.client client))
    (I := fun _ _ => Membership.Registered client consumer token) (S := fun _ => Membership.Registered client consumer token)
    (fun rely _ held => held.stable rely.toRxRely) (fun producer _ carried _ held => Safe.weaken (each carried producer held)
      fun result _ _ held => ?_) (fun rely _ held => held.stable rely.toRxRely) entry) fun result _ _ held => ?_
  · cases result <;> exact held
  · cases result <;> exact held

theorem receiveLatestPass_safe (receiving : Receiving) (entry : Membership.Registered client consumer token state) :
    Safe (rxContract setup client) (fun _ => Membership.Registered client consumer token)
      (receiveLatestPass setup client consumer token receiving) state := by
  have law := lawful setup (.client client)
  refine reads_bind (reads_readRx client) entry fun rx _ held => ?_
  refine Safe.bind law (scan_safe (fun now producer _ held => ?_) held) fun scanned _ _ held => ?_
  · refine Safe.bind law (visitLatest_safe _ _ now held) fun visited _ _ held => ?_
    split <;> exact rests held
  · split <;> exact rests held

/-- What a batch has collected lies under its lease. -/
structure Collects (client : K) (consumer : Fin m) (token : Nat) (producer : Fin n) (start stop : Nat)
    (collecting : Collecting n) (state : State n m K) : Prop where
  holds : Holds client consumer token producer start stop state
  inside : collecting.position ≤ stop
  beyond : start ≤ collecting.position
  moves : collecting.out ≠ [] → start < collecting.position

omit [DecidableEq K] in
theorem Collects.stable {start stop : Nat} {collecting : Collecting n}
    (collects : Collects client consumer token producer start stop collecting before) (rely : RxRely client before after) :
    Collects client consumer token producer start stop collecting after :=
  {collects with holds := collects.holds.stable rely}

theorem collectLatestRound_safe {start stop cap : Nat} {collecting : Collecting n}
    (entry : Collects client consumer token producer start stop collecting state) :
    Safe (rxContract setup client) (fun result => Collects client consumer token producer start stop (result.elim id id))
      (collectLatestRound setup client producer cap stop collecting) state := by
  have ends {result : Collecting n ⊕ Collecting n} {current : State n m K}
      (held : Collects client consumer token producer start stop (result.elim id id) current) : Safe (rxContract setup client)
        (fun result => Collects client consumer token producer start stop (result.elim id id)) (.ret result) current :=
    fun _ rely _ => held.stable rely.toRxRely
  unfold collectLatestRound
  split
  · refine look_bind entry.holds fun read current holds looked => ?_
    split
    · exact ends {entry with holds := holds}
    rename_i message found
    obtain ⟨moves, inside⟩ := looked message found
    have further : start < message.nextPosition := entry.beyond.trans_lt moves
    refine holds_reads_bind (reads_isExpired _ _) holds fun verdict current holds => ?_
    obtain ⟨expired, now⟩ := verdict
    dsimp only
    split
    · exact holds_bind (.store fun state => .of_setClient client consumer state _ rfl rfl)
        (.store fun _ => .of_rings consumer rfl) holds fun _ current holds => ends ⟨holds, inside, further.le, fun _ => further⟩
    · exact holds_bind (.store fun state => .of_setClient client consumer state _ rfl rfl)
        (.store fun _ => .of_rings consumer rfl) holds fun _ current holds => ends ⟨holds, inside, further.le, fun _ => further⟩
  · exact ends entry

theorem runLatestRound_safe (cap : Nat) (now : Option Nat) (entry : Membership.Registered client consumer token state) :
    Safe (rxContract setup client) (fun _ => Membership.Registered client consumer token)
      (runLatestRound setup client consumer token cap now producer) state := by
  have law := lawful setup (.client client)
  refine Safe.bind law (openLatest_safe entry) fun opening current _ held => ?_
  obtain ⟨held, opened⟩ := held
  cases opening with
  | nothing => exact rests held
  | refused => exact rests held
  | failed => exact rests held
  | opened lagged start sequence gap visible =>
      obtain ⟨some, holds⟩ := opened _ _ _ _ _ rfl
      have begun : Collects client consumer token producer start visible ⟨start, sequence, 0, 0, now, []⟩ current :=
        ⟨holds, some.le, le_rfl, fun none => absurd rfl none⟩
      refine Safe.bind law (Safe.repeatUntil law (I := Collects client consumer token producer start visible)
        (S := Collects client consumer token producer start visible) (fun rely _ held => held.stable rely.toRxRely)
        (fun collecting current held => Safe.weaken (collectLatestRound_safe held) fun result _ _ held => ?_)
        (fun rely _ held => held.stable rely.toRxRely) begun) fun collected current _ held => ?_
      · cases result <;> exact held
      have collects : Collects client consumer token producer start visible (collected.elim id id) current := by
        cases collected <;> exact held
      generalize collected.elim id id = result at collects ⊢
      dsimp only
      refine holds_bind (.when (keeps_addLaggedMessages client consumer producer gap))
        (.when (same_addLaggedMessages consumer producer gap)) collects.holds fun _ current holds => ?_
      split
      · refine eases_bind (.when (.bind (keeps_publishLatestProgress client consumer producer _ _) fun _ =>
            keeps_updateRx client consumer _))
          (.when (eases_same consumer (.bind (same_publishLatestProgress client consumer producer _ _) fun _ =>
            same_updateRx client consumer _))) holds.registered fun _ current held => clear_bind held fun _ _ held => ?_
        split
        · exact updateRx_bind held fun _ _ held => rests held
        · exact rests held
      · rename_i some
        have moves := collects.moves fun none => some (by rw [none]; rfl)
        refine holds_bind (keeps_updateRx client consumer _) (same_updateRx client consumer _) holds fun _ _ holds => ?_
        refine Safe.bind law (narrowLease_safe holds moves collects.inside) fun _ _ _ holds => ?_
        exact updateRx_bind holds.registered fun _ _ held => rests held

theorem runLatestPass_safe (cap : Nat) (now : Option Nat) (entry : Membership.Registered client consumer token state) :
    Safe (rxContract setup client) (fun _ => Membership.Registered client consumer token)
      (runLatestPass setup client consumer token cap now) state := by
  refine reads_bind (reads_readRx client) entry fun rx _ held => ?_
  refine Safe.bind (lawful setup (.client client)) (scan_safe (fun now producer _ held =>
    runLatestRound_safe cap now held) held) fun scanned _ _ held => ?_
  split <;> exact rests held

theorem skipToLatest_safe (fixed : Option UInt32) (entry : Membership.Registered client consumer token state) :
    Safe (rxContract setup client) (fun _ => Membership.Registered client consumer token)
      (skipToLatest setup client consumer token producer fixed) state := by
  have law := lawful setup (.client client)
  have allowed : Reads (if setup.mode.dropOldest then consumerUsesDropOldest consumer else .ret false : Prog (State n m K) Bool) := by
    split
    · exact reads_consumerUsesDropOldest consumer
    · exact .ret _
  refine reads_bind allowed entry fun allowed _ held => ?_
  refine reads_bind (reads_hasConsumer consumer token) held fun registered _ held => ?_
  refine reads_bind (reads_readRx client) held fun rx _ held => ?_
  split
  · exact rests held
  split
  · exact rests held
  refine Safe.load_bind law fun first rely _ => Safe.load_bind law fun second later _ => ?_
  have held := (held.stable rely.toRxRely).stable later.toRxRely
  dsimp only
  split
  · exact rests held
  split
  · exact rests held
  rename_i beyond
  refine Safe.bind law (beginLatestLease_safe held (not_le.mp beyond) (le_max_right _ _) le_rfl) fun begun _ _ held => ?_
  have held := held.1
  split
  · exact rests held
  have reads : Reads (if rx.readPositions producer < (first.ring producer).retainedPosition then
      sequenceAtPosition setup producer (first.ring producer).retainedPosition else .ret (rx.nextSequences producer) :
      Prog (State n m K) Nat) := by
    split
    · exact reads_sequenceAtPosition setup producer _
    · exact .ret _
  refine reads_bind reads held fun sequence _ held => ?_
  split
  · exact clear_bind held fun _ _ held => rests held
  have walks : Reads (Prog.repeatUntil (skipRound setup producer (second.ring producer).visibleProducerPos fixed)
      ((second.ring producer).visibleProducerPos - max (rx.readPositions producer) (first.ring producer).retainedPosition + 1)
      (max (rx.readPositions producer) (first.ring producer).retainedPosition, sequence, none)) :=
    Each.repeatUntil (fun carried => reads_skipRound setup producer _ _ carried) _ _
  refine reads_bind walks held fun walked _ held => ?_
  split
  · refine eases_bind (keeps_addLaggedMessages client consumer producer _)
      (eases_same consumer (same_addLaggedMessages consumer producer _)) held fun _ _ held => ?_
    refine eases_bind (keeps_addSkippedMessages client consumer producer _)
      (eases_same consumer (same_addSkippedMessages consumer producer _)) held fun _ _ held => ?_
    refine eases_bind (keeps_publishLatestProgress client consumer producer _ _)
      (eases_same consumer (same_publishLatestProgress client consumer producer _ _)) held fun _ _ held => ?_
    exact clear_bind held fun _ _ held => rests held
  · exact clear_bind held fun _ _ held => rests held

end Receive

section Client

/-- Every call of a registered receiver in the latest mode. -/
theorem receiver_safe (latest : setup.mode.dropOldest = true) {request : Request n} {program : Prog (State n m K) (Label n m)}
    (begins : startReceiver setup client consumer token request = some program)
    (entry : Membership.Registered client consumer token state) :
    Safe (rxContract setup client) (fun _ _ => True) program state := by
  have plain {α : Type} {call : Prog (State n m K) α} {last : α → Label n m} (keeps : Each (RxKeeps client consumer) call)
      (eases : Each (Eases consumer) call) :
      Safe (rxContract setup client) (fun _ _ => True) (call.bind fun value => .ret (last value)) state :=
    eases_bind keeps eases entry fun _ _ _ _ _ _ => trivial
  cases request with
  | tryRecv fixed =>
      cases begins
      exact plain (keeps_beginReceive client consumer token fixed false)
        (eases_same consumer (same_beginReceive client consumer token fixed false))
  | tryRecvChecked fixed =>
      cases begins
      exact plain (keeps_beginReceiveChecked setup client consumer token fixed)
        (eases_same consumer (same_beginReceiveChecked setup client consumer token fixed))
  | tryRecvRun cap =>
      cases begins
      simp only [latest, if_true]
      exact plain (keeps_reads client consumer (reads_hasConsumer consumer token))
        (eases_reads consumer (reads_hasConsumer consumer token))
  | release message =>
      cases begins
      exact plain (keeps_release setup client consumer token message) (eases_release setup client consumer token message)
  | consume message =>
      cases begins
      exact plain (keeps_consume setup client consumer token message)
        (eases_same consumer (same_consume setup client consumer token message))
  | flush =>
      cases begins
      exact plain (keeps_flushBatch setup client consumer token) (eases_flushBatch setup client consumer token)
  | skipToLatest producer fixed =>
      cases begins
      exact Safe.bind (lawful setup (.client client)) (skipToLatest_safe fixed entry) fun _ _ _ _ _ _ _ => trivial
  | unsubscribe =>
      cases begins
      exact plain (keeps_destroyRx setup client consumer token) (eases_destroyRx setup client consumer token)
  | _ => cases begins

/-- A task inside the gate. -/
theorem runTask_safe (task : Task m) (entry : AtLabel client (.waiting task []) state) :
    Safe (rxContract setup client) (fun _ _ => True) (runTask setup client task) state := by
  have law := lawful setup (.client client)
  obtain ⟨gated, passed⟩ := entry.waiting task [] rfl
  have registering : Registering client state := ⟨gated, fun producer => passed producer List.not_mem_nil⟩
  have borrow {α : Type} {P R : α → State n m K → Prop} {call : Prog (State n m K) α} {current : State n m K}
      (safe : Safe (rxContract setup client) P call current)
      (membership : Safe (Membership.rxContract setup client) R call current) :
      Safe (rxContract setup client) (fun value current => P value current ∧ R value current) call current :=
    safe.borrow membership (fun rely => rely.toRxRely) (fun ready => ⟨ready.knows.membership, trivial, ready.may⟩)
      fun _ => trivial
  cases task with
  | unsubscribe consumer token =>
      exact Safe.bind law (owner setup client).releaseConsumer_safe fun _ _ _ _ =>
        (owner setup client).aside_bind (ClientContract.aside_releaseRegistrationGate client) fun _ _ _ _ _ => trivial
  | subscribe policy =>
      have unregistered : (state.client client).registration = none := entry.registration
      refine Safe.bind law (borrow ((owner setup client).acquireConsumer_safe policy unregistered)
        (Membership.acquireConsumer_safe policy ⟨registering, unregistered⟩)) fun taken _ _ held => ?_
      obtain ⟨-, held⟩ := held
      cases taken with
      | none =>
          exact (owner setup client).aside_bind (ClientContract.aside_releaseRegistrationGate client) fun _ _ _ _ _ => trivial
      | some registration =>
          obtain ⟨consumer, token⟩ := registration
          refine Safe.bind law (borrow ((owner setup client).aside_safe
            (ClientContract.aside_releaseRegistrationGate client)) (Membership.releaseGate_begun held)) fun _ _ _ held => ?_
          exact eases_bind (keeps_createRx setup client consumer token)
            (eases_same consumer (same_createRx setup client consumer token)) held.2.registered fun _ _ _ _ _ _ => trivial

/-- Every call of a client in the latest mode keeps what the rings retain. -/
theorem client_safe (latest : setup.mode.dropOldest = true) {label : Label n m} {request : Request n}
    {program : Prog (State n m K) (Label n m)} (begins : startClient setup client label request = some program)
    (rests : AtLabel client label state) : Safe (rxContract setup client) (fun _ _ => True) program state := by
  have law := lawful setup (.client client)
  match label, request, begins with
  | .unsubscribed, .subscribe policy, begins =>
      cases begins
      exact (owner setup client).aside_bind (ClientContract.aside_acquireRegistrationGate client) fun _ _ _ _ _ => trivial
  | .closing consumer token, .proceed, begins =>
      cases begins
      exact (owner setup client).aside_bind (ClientContract.aside_acquireRegistrationGate client) fun _ _ _ _ _ => trivial
  | .waiting task (producer :: rest), .proceed, begins =>
      cases begins
      exact (owner setup client).aside_bind (ClientContract.aside_claimEnded producer) fun _ _ _ _ _ => trivial
  | .waiting task [], .proceed, begins =>
      cases begins
      exact runTask_safe task rests
  | .receiver consumer token last, request, begins => exact receiver_safe latest begins rests.registration
  | .receiving consumer token receiving, .proceed, begins =>
      cases begins
      simp only [latest, if_true]
      exact Safe.bind law (receiveLatestPass_safe receiving rests.registration) fun _ _ _ _ _ _ _ => trivial
  | .collecting consumer token cap now, .proceed, begins =>
      cases begins
      exact Safe.bind law (runLatestPass_safe cap now rests.registration) fun _ _ _ _ _ _ _ => trivial

end Client

end Retention

end Salias.SharedHybridMpsc
