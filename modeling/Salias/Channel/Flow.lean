import Salias.Channel.MembershipSafety

/-
Back-pressure in the reliable modes: no producer runs further ahead of a live consumer than its window. Bytes
and messages are counted alike.
-/

namespace Salias.SharedHybridMpsc

open Concurrent Salias.Frame ConsumerRegistration

namespace Gauge

variable {n m : Nat} {K : Type}

def limit (setup : Setup n m K) : Gauge → Nat
  | bytes => setup.effectiveCapacity
  | messages => setup.publicationWindowMessages

/-- A window of zero messages is no window. -/
def Applies (setup : Setup n m K) : Gauge → Prop
  | bytes => True
  | messages => setup.publicationWindowMessages ≠ 0

end Gauge

variable {n m : Nat} {K : Type}

/-- A slot is live when it is active and its process runs. -/
def State.slotLive (state : State n m K) (consumer : Fin m) : Prop :=
  state.slotActive consumer ∧ state.slotAlive consumer

/-- The bound between a producer and a consumer. A cached minimum beyond the counter of the producer says
only that the consumer has reached this counter. -/
structure Bounded (setup : Setup n m K) (gauge : Gauge) (tx : Tx) (cursor : ConsumerSharedState) : Prop where
  behind : gauge.read cursor ≤ gauge.own tx
  room : gauge.own tx ≤ gauge.read cursor + gauge.limit setup
  cached : min (gauge.cached tx) (gauge.own tx) ≤ gauge.read cursor

/-- The flow-control invariant. -/
def Flow (setup : Setup n m K) (state : State n m K) : Prop :=
  ∀ gauge : Gauge, gauge.Applies setup → ∀ producer consumer, state.slotLive consumer →
    Bounded setup gauge (state.tx producer) (state.cursor producer consumer)

/-- A consumer publishes its progress in order: it never moves back and never passes the producer. -/
def InOrder (before after : State n m K) : Prop :=
  ∀ (gauge : Gauge) producer consumer, before.slotActive consumer → after.slot consumer = before.slot consumer →
    gauge.read (after.cursor producer consumer) = gauge.read (before.cursor producer consumer) ∨
      (gauge.read (before.cursor producer consumer) ≤ gauge.read (after.cursor producer consumer) ∧
        gauge.read (after.cursor producer consumer) ≤ gauge.own (before.tx producer))

/-- A live slot stays and moves forward, or it has started at the counter of the producer. -/
def Advances (producer : Fin n) (before after : State n m K) : Prop :=
  ∀ (gauge : Gauge) consumer, after.slotLive consumer →
    (after.slot consumer = before.slot consumer ∧
      gauge.read (before.cursor producer consumer) ≤ gauge.read (after.cursor producer consumer)) ∨
    gauge.own (after.tx producer) ≤ gauge.read (after.cursor producer consumer)

structure FlowRely (producer : Fin n) (before after : State n m K) : Prop extends TxRely producer before after where
  advances : Advances producer before after

section Steps

variable {setup : Setup n m K} {before middle after : State n m K}

theorem State.slotLive.earlier {consumer : Fin m} (outlives : State.Outlives before after)
    (slot : after.slot consumer = before.slot consumer) (live : after.slotLive consumer) :
    before.slotLive consumer := by
  obtain ⟨active, alive⟩ := live
  rw [State.slotActive, slot] at active
  rw [State.slotAlive, slot] at alive
  exact ⟨active, outlives.registered alive⟩

theorem FlowRely.refl (producer : Fin n) (state : State n m K) : FlowRely producer state state :=
  ⟨.refl producer state, fun _ _ _ => .inl ⟨rfl, le_rfl⟩⟩

theorem FlowRely.trans {producer : Fin n} (first : FlowRely producer before middle)
    (second : FlowRely producer middle after) : FlowRely producer before after where
  toTxRely := first.toTxRely.trans second.toTxRely
  advances gauge consumer live := by
    rcases second.advances gauge consumer live with ⟨slot, forward⟩ | started
    · rcases first.advances gauge consumer (live.earlier second.outlives slot) with ⟨slot', forward'⟩ | started
      · exact .inl ⟨slot.trans slot', forward'.trans forward⟩
      · rw [← second.tx] at started
        exact .inr (started.trans forward)
    · exact .inr started

/-- A fresh slot has read what its producers have claimed. -/
theorem Fresh.read {client : K} {consumer : Fin m} (fresh : Fresh setup client after consumer) {producer : Fin n}
    (settled : (after.tally producer).Settled setup.mode.ordered) (gauge : Gauge) :
    gauge.read (after.cursor producer consumer) = gauge.own (after.tx producer) := by
  rw [fresh.cursor]
  cases gauge with
  | bytes => exact settled.position
  | messages => exact settled.messages

section Receive

variable [DecidableEq K] {client : K}

/-- After a step of a subscriber, a live slot was live before or is fresh. -/
theorem RxStep.live (step : RxStep setup client before after) (membership : Membership setup after)
    {consumer : Fin m} (live : after.slotLive consumer) :
    (after.slot consumer = before.slot consumer ∧ before.slotLive consumer) ∨
      ∀ (gauge : Gauge) producer, gauge.read (after.cursor producer consumer) = gauge.own (after.tx producer) := by
  rcases step.activates consumer live.1 with same | ⟨-, registering, fresh⟩
  · exact .inl ⟨same, live.earlier (.of_eq step.alive) same⟩
  · refine .inr fun gauge producer => fresh.read (membership.settled producer ?_) gauge
    exact (owned_claimActive (step.owned producer)).trans (registering.2 producer)

theorem RxStep.advances (step : RxStep setup client before after) (ordered : InOrder before after)
    (membership : Membership setup after) (producer : Fin n) : Advances producer before after := by
  intro gauge consumer live
  rcases step.live membership live with ⟨same, earlier⟩ | fresh
  · refine .inl ⟨same, ?_⟩
    rcases ordered gauge producer consumer earlier.1 same with equal | ⟨forward, -⟩
    · exact equal.ge
    · exact forward
  · exact .inr (fresh gauge producer).ge

/-- The progress of a subscriber keeps the bounds. -/
theorem Flow.receive (flow : Flow setup before) (step : RxStep setup client before after)
    (ordered : InOrder before after) (membership : Membership setup after) : Flow setup after := by
  intro gauge applies producer consumer live
  rcases step.live membership live with ⟨same, earlier⟩ | fresh
  · obtain ⟨behind, room, cached⟩ := flow gauge applies producer consumer earlier
    rw [step.tx]
    rcases ordered gauge producer consumer earlier.1 same with equal | ⟨forward, within⟩
    · rw [← equal] at behind room cached
      exact ⟨behind, room, cached⟩
    · exact ⟨within, room.trans (Nat.add_le_add_right forward _), cached.trans forward⟩
  · have reads := fresh gauge producer
    exact ⟨reads.le, by omega, by omega⟩

end Receive

section Transmit

variable {producer : Fin n}

theorem TxStep.read (step : TxStep producer before after) (gauge : Gauge) (other : Fin n) (consumer : Fin m) :
    gauge.read (after.cursor other consumer) = gauge.read (before.cursor other consumer) := by
  by_cases same : other = producer
  · subst same
    rcases step.cursor consumer with equal | ⟨-, -, cleared⟩
    · rw [equal]
    · rw [cleared]
      cases gauge <;> rfl
  · rw [State.cursor, (step.others other same).1, State.cursor]

theorem TxStep.slotLive (step : TxStep producer before after) {consumer : Fin m} :
    after.slotLive consumer ↔ before.slotLive consumer := by
  rw [State.slotLive, State.slotActive, State.slotAlive, step.slot, State.isRegisteredProcessAlive_congr step.alive]
  rfl

/-- A step of a transmitter keeps the bounds of the other rings. -/
theorem Flow.transmit (flow : Flow setup before) (step : TxStep producer before after)
    (bounded : ∀ gauge : Gauge, gauge.Applies setup → ∀ consumer, before.slotLive consumer →
      Bounded setup gauge (after.tx producer) (before.cursor producer consumer)) : Flow setup after := by
  intro gauge applies other consumer live
  have earlier := step.slotLive.mp live
  have kept : Bounded setup gauge (after.tx other) (before.cursor other consumer) := by
    by_cases same : other = producer
    · subst same
      exact bounded gauge applies consumer earlier
    · rw [(step.others other same).2]
      exact flow gauge applies other consumer earlier
  have reads := step.read gauge other consumer
  exact ⟨reads ▸ kept.behind, reads ▸ kept.room, reads ▸ kept.cached⟩

/-- A step that leaves the counters and the cached minima keeps the bounds. -/
theorem Flow.transmit_same (flow : Flow setup before) (step : TxStep producer before after)
    (own : ∀ gauge : Gauge, gauge.own (after.tx producer) = gauge.own (before.tx producer))
    (cached : ∀ gauge : Gauge, gauge.cached (after.tx producer) = gauge.cached (before.tx producer)) :
    Flow setup after :=
  flow.transmit step fun gauge applies consumer live => by
    obtain ⟨behind, room, minimum⟩ := flow gauge applies producer consumer live
    exact ⟨own gauge ▸ behind, own gauge ▸ room, by rw [own, cached]; exact minimum⟩

theorem TxCommits.flow (commits : TxCommits producer before after) (flow : Flow setup before) :
    Flow setup after := by
  refine flow.transmit_same commits.step commits.own fun gauge => ?_
  cases gauge with
  | bytes => exact commits.cachedConsumerPos
  | messages => exact commits.cachedConsumerMessageSequence

end Transmit

end Steps

namespace Flow

variable [DecidableEq K]

/-- What a thread may do, with the progress of the consumers in order. -/
def permitted (setup : Setup n m K) : Thread n K → State n m K → State n m K → Prop
  | .producer producer => TxStep producer
  | .client client => fun before after => RxStep setup client before after ∧ InOrder before after
  | .environment => EnvironmentStep

def discipline (setup : Setup n m K) : Discipline (State n m K) (Thread n K) (Label n m) where
  invariant := Flow setup
  known := Membership setup
  action thread before after := permitted setup thread before after ∧ Membership setup after
  rests := (Membership.discipline setup).label
  may := (Membership.discipline setup).may
  rely
    | .producer producer => FlowRely producer
    | .client _ => State.Outlives
    | .environment => fun _ _ => True
  guarantee := permitted setup
  label _ _ _ := True

theorem lawful (setup : Setup n m K) (thread : Thread n K) : ((discipline setup).contract thread).Lawful where
  refl state := match thread with
    | .producer producer => FlowRely.refl producer state
    | .client _ => State.Outlives.refl state
    | .environment => trivial
  trans {_ _ _} one two := match thread with
    | .producer _ => FlowRely.trans one two
    | .client _ => State.Outlives.trans one two
    | .environment => trivial
  idle state := match thread with
    | .producer producer => TxStep.refl producer state
    | .client client => ⟨RxStep.refl setup client state, fun _ _ _ _ _ => .inl rfl⟩
    | .environment => ⟨rfl, .refl state, le_rfl⟩
  stays {_ _} step later := match thread with
    | .producer _ => trivial
    | .client _ => State.Outlives.registered step later
    | .environment => trivial

theorem compatible {setup : Setup n m K} {actor observer : Thread n K} {before after : State n m K}
    (different : actor ≠ observer) (_ : ((discipline setup).contract actor).Ready before)
    (later : ((discipline setup).contract observer).Ready after)
    (guaranteed : (discipline setup).guarantee actor before after) :
    (discipline setup).rely observer before after := by
  match actor, observer with
  | .producer actor, .producer observer =>
      have apart : actor ≠ observer := by simpa using different
      refine ⟨Membership.txRely_of_tx apart guaranteed, fun gauge consumer _ => .inl ⟨?_, ?_⟩⟩
      · rw [guaranteed.slot]
      · exact (guaranteed.read gauge observer consumer).ge
  | .client actor, .producer observer =>
      exact ⟨Membership.txRely_of_rx guaranteed.1, guaranteed.1.advances guaranteed.2 later.knows observer⟩
  | .environment, .producer observer =>
      refine ⟨Membership.txRely_of_environment guaranteed, fun gauge consumer _ => .inl ⟨?_, ?_⟩⟩
      · rw [guaranteed.same]
      · rw [guaranteed.same]
        exact le_rfl
  | .producer actor, .client observer => exact .of_eq guaranteed.alive
  | .client actor, .client observer => exact .of_eq guaranteed.1.alive
  | .environment, .client observer => exact guaranteed.outlives
  | _, .environment => exact trivial

end Flow
end Salias.SharedHybridMpsc
