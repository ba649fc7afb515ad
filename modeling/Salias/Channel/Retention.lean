import Salias.Channel.FrameOrder

/-
In the latest mode a producer drops its oldest frames up to a floor. A lease holds the tail back: the frames that a
receiver reads are not overwritten, even when the floor has passed them.
-/

namespace Salias.SharedHybridMpsc

open Concurrent Salias.Frame ConsumerRegistration

variable {n m : Nat} {K : Type}

namespace LeaseStage

/-- The first position under a lease. -/
def start : LeaseStage → Nat
  | .none => kNoLease
  | .announced start => start
  | .checked start _ => start
  | .held start _ => start

/-- The tail may move to a limit beside a lease. A lease that the floor had left behind at its check is never held. -/
def Spares (capacity limit : Nat) : LeaseStage → Prop
  | .checked start floor => floor ≤ start → limit ≤ start + capacity
  | .held start _ => limit ≤ start + capacity
  | _ => True

/-- A lease goes on when it stays as it is or passes its last check. -/
def Continues (before after : LeaseStage) : Prop :=
  after = before ∨ ∃ start floor since, before = .checked start floor ∧ floor ≤ start ∧ after = .held start since

variable {before middle after : LeaseStage} {capacity limit : Nat}

theorem Continues.trans (one : before.Continues middle) (two : middle.Continues after) : before.Continues after := by
  rcases two with rfl | ⟨start, floor, since, rfl, behind, rfl⟩
  · exact one
  · rcases one with same | ⟨_, _, _, _, _, held⟩
    · exact .inr ⟨start, floor, since, same.symm, behind, rfl⟩
    · cases held

theorem Continues.start_eq (continues : before.Continues after) : after.start = before.start := by
  rcases continues with rfl | ⟨start, floor, since, rfl, -, rfl⟩ <;> rfl

theorem Continues.spares (continues : before.Continues after) (spares : before.Spares capacity limit) :
    after.Spares capacity limit := by
  rcases continues with rfl | ⟨start, floor, since, rfl, behind, rfl⟩
  · exact spares
  · exact spares behind

theorem Spares.mono {less : Nat} (spares : after.Spares capacity limit) (lower : less ≤ limit) :
    after.Spares capacity less := by
  cases after with
  | none => trivial
  | announced start => trivial
  | checked start floor => exact fun behind => lower.trans (spares behind)
  | held start since => exact lower.trans spares

/-- A lease that a limit does not lap is not lapped by a further one that stays behind its start. -/
theorem Spares.reach {further : Nat} (spares : after.Spares capacity limit)
    (reach : after ≠ .none → limit ≤ after.start + capacity → further ≤ after.start + capacity) :
    after.Spares capacity further := by
  cases after with
  | none => trivial
  | announced start => trivial
  | checked start floor => exact fun behind => reach (fun same => by cases same) (spares behind)
  | held start since => exact reach (fun same => by cases same) spares

end LeaseStage

/-- The position below which no lease passes its checks. -/
def ProducerRing.barrier (ring : ProducerRing m) : Nat :=
  if ring.retentionIntent = kNoLease then ring.retainedPosition else ring.retentionIntent

/-- The words of a lease agree with its stage, its range is visible, and no byte of the range has been written since the
lease is held. A lease is held after some write and before the next one. -/
structure Leased (capacity tail : Nat) (ring : ProducerRing m) (cursor : ConsumerSharedState) : Prop where
  start : cursor.leaseStart = cursor.leaseStage.start
  proper : cursor.leaseStage ≠ .none →
    cursor.leaseStart < cursor.leaseEnd ∧ cursor.leaseEnd ≤ ring.visibleProducerPos
  checked : ∀ start floor, cursor.leaseStage = .checked start floor → floor ≤ ring.retainedPosition
  spares : cursor.leaseStage.Spares capacity tail
  dated : ∀ start since, cursor.leaseStage = .held start since → since ≤ ring.writes.length
  intact : ∀ start since, cursor.leaseStage = .held start since →
    ∀ write ∈ ring.writes.take (ring.writes.length - since),
      Circular.Apart capacity write.1 write.2 start (cursor.leaseEnd - start)

/-- What a ring retains: its floor is the start of a frame, the frames from the floor on fit in the retention, and the
leases of the active slots hold the tail back. -/
structure Retains (setup : Setup n m K) (producer : Fin n) (state : State n m K) : Prop where
  floor : ∃ count, Published.Place producer (state.ring producer).retainedPosition count state
  counted : (state.ring producer).retentionIntent = kNoLease →
    Published.Place producer (state.ring producer).retainedPosition (state.ring producer).retainedMessageSequence state
  announced : (state.ring producer).retentionIntent ≠ kNoLease →
    (state.ring producer).retainedPosition ≤ (state.ring producer).retentionIntent
  published : (state.ring producer).retainedPosition ≤ (state.ring producer).visibleProducerPos
  bytes : (state.tx producer).producerPos ≤ (state.ring producer).retainedPosition + setup.retentionCapacity
  messages : setup.publicationWindowMessages ≠ 0 → (state.tx producer).messageSequence ≤
    (state.ring producer).retainedMessageSequence + setup.publicationWindowMessages
  bounded : (state.tx producer).producerPos ≤ kMax
  leases : ∀ consumer, state.slotActive consumer →
    Leased setup.capacity (state.tx producer).producerPos (state.ring producer) (state.cursor producer consumer)

section Leases

variable {capacity tail : Nat} {ring later : ProducerRing m} {cursor moved : ConsumerSharedState}

/-- The lease words of two cursors are the same. -/
structure SameLease (before after : ConsumerSharedState) : Prop where
  start : after.leaseStart = before.leaseStart
  stop : after.leaseEnd = before.leaseEnd
  stage : after.leaseStage = before.leaseStage

theorem SameLease.refl (cursor : ConsumerSharedState) : SameLease cursor cursor := ⟨rfl, rfl, rfl⟩

theorem Leased.same (leased : Leased capacity tail ring cursor) (same : SameLease cursor moved) :
    Leased capacity tail ring moved := by
  obtain ⟨start, proper, checked, spares, dated, intact⟩ := leased
  refine ⟨?_, ?_, ?_, ?_, ?_, ?_⟩
  · rw [same.start, same.stage]
    exact start
  · rw [same.start, same.stop, same.stage]
    exact proper
  · rw [same.stage]
    exact checked
  · rw [same.stage]
    exact spares
  · rw [same.stage]
    exact dated
  · rw [same.stage, same.stop]
    exact intact

/-- A free lease word means that there is no lease. -/
theorem Leased.none_of_free (leased : Leased capacity tail ring cursor) (bounded : ring.visibleProducerPos ≤ kMax)
    (free : cursor.leaseStart = kNoLease) : cursor.leaseStage = .none := by
  by_contra some
  have proper := leased.proper some
  rw [free, kNoLease] at proper
  omega

/-- A cursor without a lease. -/
theorem Leased.none (start : cursor.leaseStart = kNoLease) (stage : cursor.leaseStage = .none) :
    Leased capacity tail ring cursor where
  start := by rw [start, stage]; rfl
  proper held := absurd stage held
  checked start floor checked := by rw [stage] at checked; cases checked
  spares := by rw [stage]; trivial
  dated start since held := by rw [stage] at held; cases held
  intact start since held := by rw [stage] at held; cases held

/-- The ring publishes more and moves its floor and its tail forward. -/
theorem Leased.forward (leased : Leased capacity tail ring cursor) {further : Nat}
    (visible : ring.visibleProducerPos ≤ later.visibleProducerPos)
    (floor : ring.retainedPosition ≤ later.retainedPosition) (writes : later.writes = ring.writes)
    (spares : cursor.leaseStage.Spares capacity further) : Leased capacity further later cursor where
  start := leased.start
  proper held := ⟨(leased.proper held).1, (leased.proper held).2.trans visible⟩
  checked start floor' checked := (leased.checked start floor' checked).trans floor
  spares := spares
  dated := by rw [writes]; exact leased.dated
  intact := by rw [writes]; exact leased.intact

/-- A write below the tail and beyond the visible position leaves every lease alone. -/
theorem Leased.write (leased : Leased capacity tail ring cursor) {position length : Nat}
    (visible : later.visibleProducerPos = ring.visibleProducerPos)
    (floor : later.retainedPosition = ring.retainedPosition) (writes : later.writes = (position, length) :: ring.writes)
    (beyond : ring.visibleProducerPos ≤ position) (below : position + length ≤ tail) :
    Leased capacity tail later cursor where
  start := leased.start
  proper := by rw [visible]; exact leased.proper
  checked := by rw [floor]; exact leased.checked
  spares := leased.spares
  dated start since held := by
    rw [writes, List.length_cons]
    exact (leased.dated start since held).trans (Nat.le_succ _)
  intact start since held write member := by
    have proper := leased.proper (by rw [held]; exact fun same => by cases same)
    have own : cursor.leaseStart = start := by rw [leased.start, held]; rfl
    have spares := leased.spares
    rw [held, LeaseStage.Spares] at spares
    rw [writes] at member
    have dated := leased.dated start since held
    rw [show ((position, length) :: ring.writes).length - since = ring.writes.length - since + 1 by
      rw [List.length_cons]; omega, List.take_succ_cons] at member
    rcases List.mem_cons.mp member with rfl | earlier
    · exact Circular.Apart.symm (.of_window (by omega) (by dsimp only; omega))
    · exact leased.intact start since held write earlier

end Leases

section Rings

variable {setup : Setup n m K} {producer : Fin n} {before after : State n m K}

/-- The words that a retention rests on, apart from the leases. -/
structure SameRetention (producer : Fin n) (before after : State n m K) : Prop where
  visible : (after.ring producer).visibleProducerPos = (before.ring producer).visibleProducerPos
  retainedPosition : (after.ring producer).retainedPosition = (before.ring producer).retainedPosition
  retainedMessageSequence :
    (after.ring producer).retainedMessageSequence = (before.ring producer).retainedMessageSequence
  retentionIntent : (after.ring producer).retentionIntent = (before.ring producer).retentionIntent
  frames : (after.ring producer).frames = (before.ring producer).frames
  writes : (after.ring producer).writes = (before.ring producer).writes
  producerPos : (after.tx producer).producerPos = (before.tx producer).producerPos
  messageSequence : (after.tx producer).messageSequence = (before.tx producer).messageSequence

theorem SameRetention.of_owned (owned : (after.ring producer).owned = (before.ring producer).owned)
    (tx : after.tx producer = before.tx producer) : SameRetention producer before after := by
  have words (read : ProducerRing m → Nat)
      (owns : ∀ ring : ProducerRing m, read ring.owned = read ring) :
      read (after.ring producer) = read (before.ring producer) := by
    rw [← owns, owned, owns]
  exact ⟨words (·.visibleProducerPos) fun _ => rfl, words (·.retainedPosition) fun _ => rfl,
    words (·.retainedMessageSequence) fun _ => rfl, words (·.retentionIntent) fun _ => rfl, owned_frames owned,
    show (after.ring producer).owned.writes = (before.ring producer).owned.writes from congrArg _ owned,
    by rw [tx], by rw [tx]⟩

theorem SameRetention.refl (producer : Fin n) (state : State n m K) : SameRetention producer state state :=
  ⟨rfl, rfl, rfl, rfl, rfl, rfl, rfl, rfl⟩

theorem SameRetention.trans {middle : State n m K} (one : SameRetention producer before middle)
    (two : SameRetention producer middle after) : SameRetention producer before after :=
  ⟨two.visible.trans one.visible, two.retainedPosition.trans one.retainedPosition,
    two.retainedMessageSequence.trans one.retainedMessageSequence, two.retentionIntent.trans one.retentionIntent,
    two.frames.trans one.frames, two.writes.trans one.writes, two.producerPos.trans one.producerPos,
    two.messageSequence.trans one.messageSequence⟩

theorem SameRetention.barrier (same : SameRetention producer before after) :
    (after.ring producer).barrier = (before.ring producer).barrier := by
  rw [ProducerRing.barrier, same.retentionIntent, same.retainedPosition, ProducerRing.barrier]

theorem SameRetention.leased (same : SameRetention producer before after) {cursor : ConsumerSharedState}
    (leased : Leased setup.capacity (before.tx producer).producerPos (before.ring producer) cursor) :
    Leased setup.capacity (after.tx producer).producerPos (after.ring producer) cursor := by
  rw [same.producerPos]
  exact leased.forward same.visible.ge same.retainedPosition.ge same.writes leased.spares

theorem Published.Place.congr {position count : Nat} (place : Published.Place producer position count before)
    (frames : (after.ring producer).frames = (before.ring producer).frames) :
    Published.Place producer position count after := place.grows (frames ▸ List.prefix_refl _)

/-- The retention depends on these words and on the leases. -/
theorem Retains.same (retains : Retains setup producer before) (same : SameRetention producer before after)
    (leases : ∀ consumer, after.slotActive consumer → Leased setup.capacity (after.tx producer).producerPos
      (after.ring producer) (after.cursor producer consumer)) : Retains setup producer after where
  floor := by
    obtain ⟨count, place⟩ := retains.floor
    exact ⟨count, same.retainedPosition ▸ place.congr same.frames⟩
  counted := by
    rw [same.retentionIntent, same.retainedPosition, same.retainedMessageSequence]
    exact fun clear => (retains.counted clear).congr same.frames
  announced := by
    rw [same.retentionIntent, same.retainedPosition]
    exact retains.announced
  published := by
    rw [same.retainedPosition, same.visible]
    exact retains.published
  bytes := by
    rw [same.producerPos, same.retainedPosition]
    exact retains.bytes
  messages := by
    rw [same.messageSequence, same.retainedMessageSequence]
    exact retains.messages
  bounded := by
    rw [same.producerPos]
    exact retains.bounded
  leases := leases

theorem Retains.barrier (retains : Retains setup producer before) :
    (before.ring producer).retainedPosition ≤ (before.ring producer).barrier := by
  unfold ProducerRing.barrier
  split
  · exact le_rfl
  · rename_i announced
    exact retains.announced announced

theorem Retains.visible_le (retains : Retains setup producer before) (commits : Commits producer before) :
    (before.ring producer).visibleProducerPos ≤ kMax := by
  rw [commits.visible]
  exact commits.spans.behind.trans retains.bounded

/-- The tail does not lap the claims that are still open. -/
theorem Retains.near (retains : Retains setup producer before) (commits : Commits producer before) :
    Near setup producer before := by
  intro reservation waits
  have inside := (commits.spans.inside _ (List.mem_map_of_mem waits)).1
  have bytes := retains.bytes
  have published := retains.published
  have capacity := setup.retentionCapacity_le
  rw [commits.visible] at published
  dsimp only at inside
  omega

end Rings

namespace Retention

/-- How the others move the lease of a consumer in a ring: it goes on, or a new one starts behind the barrier. -/
def Carries (setup : Setup n m K) (producer : Fin n) (consumer : Fin m) (before after : State n m K) : Prop :=
  after.slotActive consumer →
    (before.slotActive consumer ∧
      (before.cursor producer consumer).leaseStage.Continues (after.cursor producer consumer).leaseStage) ∨
    ∀ limit, limit ≤ (before.ring producer).barrier + setup.capacity →
      (after.cursor producer consumer).leaseStage.Spares setup.capacity limit

/-- The floors, their counts and the visible positions move forward. -/
structure Rises (before after : State n m K) : Prop where
  floor : ∀ producer, (before.ring producer).retainedPosition ≤ (after.ring producer).retainedPosition
  count : ∀ producer, (before.ring producer).retainedMessageSequence ≤ (after.ring producer).retainedMessageSequence
  visible : ∀ producer, (before.ring producer).visibleProducerPos ≤ (after.ring producer).visibleProducerPos

/-- What is known of a step. -/
structure Acted [DecidableEq K] (setup : Setup n m K) (thread : Thread n K) (before after : State n m K) : Prop where
  step : (Membership.discipline setup).guarantee thread before after
  membership : Membership setup after
  commits : ∀ producer, Commits producer after
  grows : Published.Grows before after

/-- A subscriber may move the lease of its slot in a ring. -/
structure Grants (setup : Setup n m K) (producer : Fin n) (state : State n m K) (earlier later : ConsumerSharedState) :
    Prop where
  leased : Leased setup.capacity (state.tx producer).producerPos (state.ring producer) later
  carries : earlier.leaseStage.Continues later.leaseStage ∨
    ∀ limit, limit ≤ (state.ring producer).barrier + setup.capacity → later.leaseStage.Spares setup.capacity limit

/-- What each thread leaves to a producer. -/
structure Spared (setup : Setup n m K) (producer : Fin n) (before after : State n m K) : Prop extends
    TxRely producer before after where
  carries : ∀ consumer, Carries setup producer consumer before after

/-- What each thread leaves to a subscriber. -/
structure Raised (client : K) (before after : State n m K) : Prop extends RxRely client before after where
  rises : Rises before after

/-- What a step does to the leases and the floors. -/
structure Guarded [DecidableEq K] (setup : Setup n m K) (thread : Thread n K) (before after : State n m K) : Prop where
  step : (Membership.discipline setup).guarantee thread before after
  rises : Rises before after
  carries : ∀ producer, thread ≠ .producer producer → ∀ consumer, Carries setup producer consumer before after
  near : ∀ producer, thread = .producer producer → Near setup producer before → Near setup producer after

section Discipline

variable {setup : Setup n m K} {producer : Fin n} {consumer : Fin m} {before middle after : State n m K}

theorem Rises.refl (state : State n m K) : Rises state state := ⟨fun _ => le_rfl, fun _ => le_rfl, fun _ => le_rfl⟩

theorem Rises.trans (one : Rises before middle) (two : Rises middle after) : Rises before after :=
  ⟨fun producer => (one.floor producer).trans (two.floor producer),
    fun producer => (one.count producer).trans (two.count producer),
    fun producer => (one.visible producer).trans (two.visible producer)⟩

theorem Rises.of_owned (owned : ∀ producer, (after.ring producer).owned = (before.ring producer).owned) :
    Rises before after := by
  have words (read : ProducerRing m → Nat) (owns : ∀ ring : ProducerRing m, read ring.owned = read ring)
      (producer : Fin n) : read (before.ring producer) ≤ read (after.ring producer) := by
    rw [← owns, ← owns (after.ring producer), owned]
  exact ⟨words (·.retainedPosition) fun _ => rfl, words (·.retainedMessageSequence) fun _ => rfl,
    words (·.visibleProducerPos) fun _ => rfl⟩

/-- An active slot with the same cursor carries its lease on. -/
theorem Carries.of_same (slot : after.slotActive consumer → before.slotActive consumer)
    (same : (after.cursor producer consumer).leaseStage = (before.cursor producer consumer).leaseStage) :
    Carries setup producer consumer before after := fun active => .inl ⟨slot active, .inl same⟩

theorem Carries.refl (setup : Setup n m K) (producer : Fin n) (consumer : Fin m) (state : State n m K) :
    Carries setup producer consumer state state := .of_same id rfl

theorem Carries.trans (barrier : (middle.ring producer).barrier = (before.ring producer).barrier)
    (one : Carries setup producer consumer before middle) (two : Carries setup producer consumer middle after) :
    Carries setup producer consumer before after := by
  intro active
  rcases two active with ⟨earlier, continues⟩ | checked
  · rcases one earlier with ⟨first, goes⟩ | checked
    · exact .inl ⟨first, goes.trans continues⟩
    · exact .inr fun limit behind => continues.spares (checked limit behind)
  · exact .inr (barrier ▸ checked)

theorem Spared.refl (setup : Setup n m K) (producer : Fin n) (state : State n m K) : Spared setup producer state state :=
  ⟨.refl producer state, fun consumer => .refl setup producer consumer state⟩

theorem Spared.trans (one : Spared setup producer before middle) (two : Spared setup producer middle after) :
    Spared setup producer before after :=
  ⟨one.toTxRely.trans two.toTxRely, fun consumer =>
    (one.carries consumer).trans (SameRetention.of_owned one.owned one.tx).barrier (two.carries consumer)⟩

theorem Raised.refl (client : K) (state : State n m K) : Raised client state state :=
  ⟨.refl client state, .refl state⟩

theorem Raised.trans {client : K} (one : Raised client before middle) (two : Raised client middle after) :
    Raised client before after := ⟨one.toRxRely.trans two.toRxRely, one.rises.trans two.rises⟩

variable [DecidableEq K]

def discipline (setup : Setup n m K) : Discipline (State n m K) (Thread n K) (Label n m) where
  invariant state := ∀ producer, Retains setup producer state
  known := Published.Framed setup
  action := Acted setup
  rests := (Membership.discipline setup).label
  may := (Membership.discipline setup).may
  rely
    | .producer producer => Spared setup producer
    | .client client => Raised client
    | .environment => fun _ _ => True
  guarantee := Guarded setup
  label
    | .producer producer => fun _ state => (state.ring producer).retentionIntent = kNoLease
    | _ => fun _ _ => True

abbrev txContract (setup : Setup n m K) (producer : Fin n) : Contract (State n m K) :=
  (discipline setup).contract (.producer producer)

abbrev rxContract (setup : Setup n m K) (client : K) : Contract (State n m K) :=
  (discipline setup).contract (.client client)

theorem Guarded.refl (setup : Setup n m K) (thread : Thread n K) (state : State n m K) :
    Guarded setup thread state state :=
  ⟨(Membership.lawful setup thread).idle state, .refl state,
    fun producer _ consumer => .refl setup producer consumer state, fun _ _ => id⟩

theorem lawful (setup : Setup n m K) (thread : Thread n K) : ((discipline setup).contract thread).Lawful where
  refl state := match thread with
    | .producer producer => Spared.refl setup producer state
    | .client client => Raised.refl client state
    | .environment => trivial
  trans {_ _ _} one two := match thread with
    | .producer _ => Spared.trans one two
    | .client _ => Raised.trans one two
    | .environment => trivial
  idle state := Guarded.refl setup thread state
  stays {_ _} step later := match thread with
    | .producer _ => trivial
    | .client _ => RxRely.lives step.toRxRely later
    | .environment => trivial

theorem compatible {actor observer : Thread n K} (different : actor ≠ observer)
    (ready : ((discipline setup).contract actor).Ready before)
    (later : ((discipline setup).contract observer).Ready after)
    (guaranteed : (discipline setup).guarantee actor before after) :
    (discipline setup).rely observer before after := by
  have leaves : (Membership.discipline setup).rely observer before after :=
    Membership.compatible different ⟨ready.knows.membership, trivial, ready.may⟩
      ⟨later.knows.membership, trivial, later.may⟩ guaranteed.step
  match observer, leaves with
  | .producer observer, leaves => exact ⟨leaves, guaranteed.carries observer different⟩
  | .client _, leaves => exact ⟨leaves, guaranteed.rises⟩
  | .environment, _ => trivial

section Acts

variable (ready : ((discipline setup).contract (.producer producer)).Ready before)
  (action : (discipline setup).action (.producer producer) before after)

include ready action

/-- A producer may act when it keeps what its own ring retains and its floor does not move back. -/
theorem tx_acts (floor : (before.ring producer).retainedPosition ≤ (after.ring producer).retainedPosition)
    (count : (before.ring producer).retainedMessageSequence ≤ (after.ring producer).retainedMessageSequence)
    (retains : Retains setup producer after) :
    (discipline setup).invariant after ∧ (discipline setup).guarantee (.producer producer) before after := by
  have step : TxStep producer before after := action.step
  have others {other : Fin n} (apart : other ≠ producer) : Retains setup other before → Retains setup other after := by
    intro kept
    obtain ⟨ring, tx⟩ := step.others other apart
    refine kept.same (.of_owned (by rw [ring]) tx) fun consumer active => ?_
    rw [tx, ring, State.cursor, ring]
    exact kept.leases consumer (by rw [State.slotActive, ← step.slot]; exact active)
  refine ⟨fun other => ?_, action.step, ⟨fun other => ?_, fun other => ?_, action.grows.visible⟩,
    fun other apart consumer => ?_, fun other own _ => ?_⟩
  · by_cases own : other = producer
    · exact own ▸ retains
    · exact others own (ready.keeps other)
  · by_cases own : other = producer
    · exact own ▸ floor
    · rw [(step.others other own).1]
  · by_cases own : other = producer
    · exact own ▸ count
    · rw [(step.others other own).1]
  · have apart : other ≠ producer := fun same => apart (by rw [same])
    refine .of_same (fun active => ?_) (by rw [State.cursor, (step.others other apart).1, State.cursor])
    rw [State.slotActive, ← step.slot]
    exact active
  · cases own
    exact retains.near (action.commits producer)

end Acts

/-- A subscriber may act when it keeps the leases of its own slot. -/
theorem rx_acts {client : K} (ready : ((discipline setup).contract (.client client)).Ready before)
    (action : (discipline setup).action (.client client) before after)
    (own : ∀ consumer token, (before.client client).registration = some (consumer, token) → ∀ producer,
      Grants setup producer before (before.cursor producer consumer) (after.cursor producer consumer)) :
    (discipline setup).invariant after ∧ (discipline setup).guarantee (.client client) before after := by
  have step : RxStep setup client before after := action.step
  have same (producer : Fin n) : SameRetention producer before after := .of_owned (step.owned producer) (by rw [step.tx])
  -- an active slot is an earlier one with the same words, the own one, or a new one
  have moves {consumer : Fin m} (active : after.slotActive consumer) (producer : Fin n) :
      Leased setup.capacity (before.tx producer).producerPos (before.ring producer) (after.cursor producer consumer) ∧
        ((before.slotActive consumer ∧
          (before.cursor producer consumer).leaseStage.Continues (after.cursor producer consumer).leaseStage) ∨
        ∀ limit, limit ≤ (before.ring producer).barrier + setup.capacity →
          (after.cursor producer consumer).leaseStage.Spares setup.capacity limit) := by
    rcases step.activates consumer active with slot | ⟨-, -, fresh⟩
    · have earlier : before.slotActive consumer := by rwa [State.slotActive, ← slot]
      rcases step.progress consumer with ⟨cursor, -⟩ | ⟨token, registered⟩ | ⟨-, inactive⟩
      · rw [cursor]
        exact ⟨(ready.keeps producer).leases consumer earlier, .inl ⟨earlier, .inl rfl⟩⟩
      · obtain ⟨leased, carries⟩ := own consumer token registered producer
        exact ⟨leased, carries.imp (fun continues => ⟨earlier, continues⟩) id⟩
      · exact absurd earlier inactive
    · rw [fresh.cursor]
      exact ⟨.none rfl rfl, .inr fun _ _ => trivial⟩
  refine ⟨fun producer => ?_, action.step, .of_owned step.owned, fun producer _ consumer active =>
    (moves active producer).2, fun _ own => by cases own⟩
  exact (ready.keeps producer).same (same producer) fun consumer active =>
    (same producer).leased (moves active producer).1

/-- The environment leaves the rings alone. -/
theorem environment_acts (ready : ((discipline setup).contract .environment).Ready before)
    (action : (discipline setup).action .environment before after) :
    (discipline setup).invariant after ∧ (discipline setup).guarantee .environment before after := by
  have step : EnvironmentStep before after := action.step
  have equal := step.same
  refine ⟨fun producer => ?_, action.step, ?_, fun producer _ consumer => ?_, fun _ own => by cases own⟩
  · refine (ready.keeps producer).same (.of_owned (by rw [equal]) (by rw [equal])) ?_
    rw [equal]
    exact (ready.keeps producer).leases
  · exact .of_owned fun producer => by rw [equal]
  · rw [equal]
    exact .of_same id rfl

end Discipline

end Retention

end Salias.SharedHybridMpsc
