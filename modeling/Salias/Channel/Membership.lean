import Salias.Channel.System
import Salias.Channel.Updates
import Salias.Channel.Ledger

/-
Who may change what: the slots move only under the gate and outside of all claims, a slot belongs to one live
subscriber, and the counters of a producer describe its claimed frames.
-/

namespace Salias.SharedHybridMpsc

open Concurrent Salias.Frame ConsumerRegistration

section Relations

variable {n m : Nat} {K : Type}

namespace State

/-- The process of a client runs. -/
def lives (setup : Setup n m K) (state : State n m K) (client : K) : Prop :=
  state.isRegisteredProcessAlive (setup.pid client) (setup.processStart client) = true

/-- The registered process of a slot runs. -/
def slotAlive (state : State n m K) (consumer : Fin m) : Prop :=
  state.isRegisteredProcessAlive (state.slot consumer).pid (state.slot consumer).processStart = true

def slotActive (state : State n m K) (consumer : Fin m) : Prop :=
  phase (state.slot consumer).state = kActive

/-- No producer is inside a claim section. -/
def unclaimed (state : State n m K) : Prop := ∀ producer, (state.ring producer).claimActive = false

def tally (state : State n m K) (producer : Fin n) : Tally where
  producerPos := (state.tx producer).producerPos
  messageSequence := (state.tx producer).messageSequence
  localSequence := (state.tx producer).localSequence
  announcedPosition := (state.ring producer).reservationPosition
  announcedSequence := (state.ring producer).reservationSequence
  announcedMessages := (state.ring producer).reservationMessageSequence
  ringSequence := (state.ring producer).localSequence
  frames := (state.ring producer).frames

/-- The words of one slot in all rings. -/
def SameProgress (before after : State n m K) (consumer : Fin m) : Prop :=
  (∀ producer, after.cursor producer consumer = before.cursor producer consumer) ∧
    after.consumerSequences consumer = before.consumerSequences consumer

/-- A process that has exited never runs again. -/
def Outlives (before after : State n m K) : Prop :=
  ∀ pid start, after.alive pid start = true → before.alive pid start = true

end State

/-- In an ordered mode the sequences below the shared counter belong to one frame each. -/
structure Numbered (state : State n m K) : Prop where
  below : ∀ producer, ∀ frame ∈ (state.ring producer).frames, frame.sequence < state.globalSequence
  increasing : ∀ producer, (state.ring producer).frames.Pairwise fun first second =>
    first.sequence < second.sequence
  taken : ∀ sequence, sequence < state.globalSequence →
    ∃ producer, ∃ frame ∈ (state.ring producer).frames, frame.sequence = sequence
  apart : ∀ first second, ∀ left ∈ (state.ring first).frames, ∀ right ∈ (state.ring second).frames,
    left.sequence = right.sequence → first = second

/-- A client owns a slot when the words of the slot name its registration and its process. -/
structure Owns (setup : Setup n m K) (state : State n m K) (client : K) (consumer : Fin m) : Prop where
  registration : (state.client client).registration = some (consumer, (state.slot consumer).state)
  processId : processId (state.slot consumer).state = setup.pid client
  pid : (state.slot consumer).pid = setup.pid client
  processStart : (state.slot consumer).processStart = setup.processStart client

/-- The invariant of slots and counters. -/
structure Membership (setup : Setup n m K) (state : State n m K) : Prop where
  owner : ∀ consumer, state.slotActive consumer → ∃ client, Owns setup state client consumer
  registered : ∀ client consumer token, state.lives setup client →
    (state.client client).registration = some (consumer, token) →
      state.slotActive consumer ∧ Owns setup state client consumer ∧
        ∀ producer, (state.cursor producer consumer).generation = generation token
  exclusive : ∀ first second consumer one two, state.lives setup first → state.lives setup second →
    (state.client first).registration = some (consumer, one) →
      (state.client second).registration = some (consumer, two) → first = second
  exact : ∀ producer, (state.tally producer).Exact setup.mode.ordered setup.capacity
  settled : ∀ producer, (state.ring producer).claimActive = false →
    (state.tally producer).Settled setup.mode.ordered
  numbered : setup.mode.ordered = true → Numbered state

/-- What an action of a transmitter may do. -/
structure TxStep (producer : Fin n) (before after : State n m K) : Prop where
  slot : after.slot = before.slot
  consumerSequences : after.consumerSequences = before.consumerSequences
  gate : after.registrationGate = before.registrationGate
  clock : after.clock = before.clock
  alive : after.alive = before.alive
  client : after.client = before.client
  others : ∀ other, other ≠ producer → after.ring other = before.ring other ∧ after.tx other = before.tx other
  cursor : ∀ consumer, after.cursor producer consumer = before.cursor producer consumer ∨
    ((before.ring producer).claimActive = true ∧ ¬ before.slotAlive consumer ∧
      after.cursor producer consumer =
        {before.cursor producer consumer with leaseStart := kNoLease, leaseStage := .none})
  opens : (before.ring producer).claimActive = false → (after.ring producer).claimActive = true →
    before.registrationGate = none
  quiet : (before.ring producer).claimActive = false →
    after.tally producer = before.tally producer ∧ after.globalSequence = before.globalSequence
  grows : (before.ring producer).frames <+: (after.ring producer).frames

/-- A cursor that starts at what a producer has announced. -/
def announcedCursor (ordered : Bool) (generation globalSequence : Nat) (tally : Tally) : ConsumerSharedState where
  position := tally.announcedPosition
  sequence := if ordered then globalSequence else tally.announcedSequence
  messageSequence := tally.announcedMessages
  generation := generation

/-- A slot starts at what every producer has announced. -/
structure Fresh (setup : Setup n m K) (client : K) (state : State n m K) (consumer : Fin m) : Prop where
  owns : Owns setup state client consumer
  cursor : ∀ producer, state.cursor producer consumer = announcedCursor setup.mode.ordered
    (generation (state.slot consumer).state) state.globalSequence (state.tally producer)
  expected : setup.mode.ordered = true → state.consumerSequences consumer = state.globalSequence
  begun : state.client client = {
    registration := some (consumer, (state.slot consumer).state)
    registeredAt := fun producer => (state.ring producer).frames.length}

/-- The owner of the gate may rewrite the slots while no producer is inside a claim. -/
def Registering (client : K) (state : State n m K) : Prop :=
  state.registrationGate = some client ∧ state.unclaimed

/-- What an action of a subscriber may do. -/
structure RxStep [DecidableEq K] (setup : Setup n m K) (client : K) (before after : State n m K) : Prop where
  owned : ∀ producer, (after.ring producer).owned = (before.ring producer).owned
  tx : after.tx = before.tx
  globalSequence : after.globalSequence = before.globalSequence
  clock : after.clock = before.clock
  alive : after.alive = before.alive
  clients : ∀ other, other ≠ client → after.client other = before.client other
  gate : after.registrationGate = before.registrationGate ∨
    (before.gateFree setup = true ∧ after.registrationGate = some client) ∨
    (before.registrationGate = some client ∧ after.registrationGate = none)
  slot : ∀ consumer, after.slot consumer = before.slot consumer ∨
    (Registering client before ∧ (before.slotActive consumer → before.slotAlive consumer →
      ∃ token, (before.client client).registration = some (consumer, token)))
  progress : ∀ consumer, State.SameProgress before after consumer ∨
    (∃ token, (before.client client).registration = some (consumer, token)) ∨
    (Registering client before ∧ ¬ before.slotActive consumer)
  activates : ∀ consumer, after.slotActive consumer → after.slot consumer = before.slot consumer ∨
    (¬ before.slotActive consumer ∧ Registering client before ∧ Fresh setup client after consumer)

/-- What the environment may do. -/
structure EnvironmentStep (before after : State n m K) : Prop where
  same : after = {before with clock := after.clock, alive := after.alive}
  outlives : State.Outlives before after
  clock : before.clock ≤ after.clock

/-- What the others leave to a producer. -/
structure TxRely (producer : Fin n) (before after : State n m K) : Prop where
  tx : after.tx producer = before.tx producer
  owned : (after.ring producer).owned = (before.ring producer).owned
  outlives : State.Outlives before after
  slots : (before.ring producer).claimActive = true → after.slot = before.slot

/-- What the others leave to the owner of the gate. -/
structure GateRely (client : K) (before after : State n m K) : Prop where
  gate : after.registrationGate = some client
  slot : after.slot = before.slot
  claims : ∀ producer, (before.ring producer).claimActive = false →
    (after.ring producer).claimActive = false ∧ after.tally producer = before.tally producer
  frozen : before.unclaimed → after.globalSequence = before.globalSequence ∧
    ∀ consumer, ¬ before.slotActive consumer → State.SameProgress before after consumer

/-- What the others leave to a subscriber. -/
structure RxRely (client : K) (before after : State n m K) : Prop where
  same : after.client client = before.client client
  outlives : State.Outlives before after
  registered : ∀ consumer token, (before.client client).registration = some (consumer, token) →
    after.slot consumer = before.slot consumer ∧ State.SameProgress before after consumer
  gate : before.registrationGate = some client → GateRely client before after
  grows : ∀ producer, (before.ring producer).frames <+: (after.ring producer).frames
  clock : before.clock ≤ after.clock

end Relations

section Rely

variable {n m : Nat} {K : Type} {first second third before after : State n m K}

theorem State.Outlives.refl (state : State n m K) : State.Outlives state state := fun _ _ => id

theorem State.Outlives.trans (one : State.Outlives first second) (two : State.Outlives second third) :
    State.Outlives first third := fun pid start later => one pid start (two pid start later)

theorem State.Outlives.of_eq (same : after.alive = before.alive) : State.Outlives before after := by
  intro pid start
  rw [same]
  exact id

theorem State.Outlives.registered (outlives : State.Outlives before after) {pid : UInt32} {start : Nat}
    (later : after.isRegisteredProcessAlive pid start = true) :
    before.isRegisteredProcessAlive pid start = true := by
  simp only [State.isRegisteredProcessAlive, Bool.and_eq_true] at later ⊢
  exact ⟨later.1, outlives pid start later.2⟩

theorem State.SameProgress.refl (state : State n m K) (consumer : Fin m) :
    State.SameProgress state state consumer := ⟨fun _ => rfl, rfl⟩

theorem State.SameProgress.trans {consumer : Fin m} (one : State.SameProgress first second consumer)
    (two : State.SameProgress second third consumer) : State.SameProgress first third consumer :=
  ⟨fun producer => (two.1 producer).trans (one.1 producer), two.2.trans one.2⟩

theorem TxRely.refl (producer : Fin n) (state : State n m K) : TxRely producer state state :=
  ⟨rfl, rfl, .refl state, fun _ => rfl⟩

theorem owned_claimActive {left right : ProducerRing m} (same : left.owned = right.owned) :
    left.claimActive = right.claimActive :=
  show left.owned.claimActive = right.owned.claimActive from congrArg _ same

theorem owned_frames {left right : ProducerRing m} (same : left.owned = right.owned) : left.frames = right.frames :=
  show left.owned.frames = right.owned.frames from congrArg _ same

/-- The tally depends on the transmitter and on the words that only its producer writes. -/
theorem tally_congr {producer : Fin n} (tx : after.tx producer = before.tx producer)
    (owned : (after.ring producer).owned = (before.ring producer).owned) :
    after.tally producer = before.tally producer := by
  have position := congrArg ProducerRing.reservationPosition owned
  have sequence := congrArg ProducerRing.reservationSequence owned
  have messages := congrArg ProducerRing.reservationMessageSequence owned
  have ring := congrArg ProducerRing.localSequence owned
  have frames := congrArg ProducerRing.frames owned
  simp only [ProducerRing.owned] at position sequence messages ring frames
  simp only [State.tally, tx, position, sequence, messages, ring, frames]

theorem TxRely.trans {producer : Fin n} (one : TxRely producer first second)
    (two : TxRely producer second third) : TxRely producer first third where
  tx := two.tx.trans one.tx
  owned := two.owned.trans one.owned
  outlives := one.outlives.trans two.outlives
  slots claiming := (two.slots (owned_claimActive one.owned ▸ claiming)).trans (one.slots claiming)

theorem GateRely.refl {client : K} {state : State n m K} (owner : state.registrationGate = some client) :
    GateRely client state state :=
  ⟨owner, rfl, fun _ closed => ⟨closed, rfl⟩, fun _ => ⟨rfl, fun consumer _ => .refl state consumer⟩⟩

theorem GateRely.unclaimed {client : K} (rely : GateRely client before after) (unclaimed : before.unclaimed) :
    after.unclaimed := fun producer => (rely.claims producer (unclaimed producer)).1

theorem GateRely.trans {client : K} (one : GateRely client first second) (two : GateRely client second third) :
    GateRely client first third where
  gate := two.gate
  slot := two.slot.trans one.slot
  claims producer closed := by
    obtain ⟨still, same⟩ := one.claims producer closed
    obtain ⟨last, equal⟩ := two.claims producer still
    exact ⟨last, equal.trans same⟩
  frozen unclaimed := by
    obtain ⟨global, progress⟩ := one.frozen unclaimed
    obtain ⟨global', progress'⟩ := two.frozen (one.unclaimed unclaimed)
    refine ⟨global'.trans global, fun consumer inactive => (progress consumer inactive).trans ?_⟩
    refine progress' consumer ?_
    simpa only [State.slotActive, one.slot] using inactive

theorem RxRely.refl (client : K) (state : State n m K) : RxRely client state state :=
  ⟨rfl, .refl state, fun consumer _ _ => ⟨rfl, .refl state consumer⟩, GateRely.refl, fun _ => List.prefix_refl _, le_rfl⟩

theorem RxRely.trans {client : K} (one : RxRely client first second) (two : RxRely client second third) :
    RxRely client first third where
  same := two.same.trans one.same
  outlives := one.outlives.trans two.outlives
  registered consumer token registered := by
    obtain ⟨slot, progress⟩ := one.registered consumer token registered
    obtain ⟨slot', progress'⟩ := two.registered consumer token (by rw [one.same]; exact registered)
    exact ⟨slot'.trans slot, progress.trans progress'⟩
  gate owner := (one.gate owner).trans (two.gate (one.gate owner).gate)
  grows producer := (one.grows producer).trans (two.grows producer)
  clock := one.clock.trans two.clock

theorem TxStep.refl (producer : Fin n) (state : State n m K) : TxStep producer state state where
  slot := rfl
  consumerSequences := rfl
  gate := rfl
  clock := rfl
  alive := rfl
  client := rfl
  others _ _ := ⟨rfl, rfl⟩
  cursor _ := .inl rfl
  opens closed opened := absurd (closed.symm.trans opened) (by decide)
  quiet _ := ⟨rfl, rfl⟩
  grows := List.prefix_refl _

theorem RxStep.refl [DecidableEq K] (setup : Setup n m K) (client : K) (state : State n m K) :
    RxStep setup client state state where
  owned _ := rfl
  tx := rfl
  globalSequence := rfl
  clock := rfl
  alive := rfl
  clients _ _ := rfl
  gate := .inl rfl
  slot _ := .inl rfl
  progress consumer := .inl (.refl state consumer)
  activates _ _ := .inl rfl

theorem RxRely.lives {setup : Setup n m K} {client : K} (rely : RxRely client before after)
    (later : after.lives setup client) : before.lives setup client := rely.outlives.registered later

end Rely

/-- The registration that a label stands for. -/
def Label.registration {n m : Nat} : Label n m → Option (Fin m × Nat)
  | .waiting (.unsubscribe consumer token) _ => some (consumer, token)
  | .receiver consumer token _ => some (consumer, token)
  | .receiving consumer token _ => some (consumer, token)
  | .collecting consumer token _ _ => some (consumer, token)
  | .closing consumer token => some (consumer, token)
  | _ => none

/-- A waiting client owns the gate, and the producers that it has passed stay outside of their claims. -/
structure AtLabel {n m : Nat} {K : Type} (client : K) (label : Label n m) (state : State n m K) : Prop where
  registration : (state.client client).registration = label.registration
  waiting : ∀ task remaining, label = .waiting task remaining → state.registrationGate = some client ∧
    ∀ producer, producer ∉ remaining → (state.ring producer).claimActive = false

namespace Membership

variable {n m : Nat} {K : Type} [DecidableEq K]

def discipline (setup : Setup n m K) : Discipline (State n m K) (Thread n K) (Label n m) where
  invariant := Membership setup
  may
    | .client client => fun state => state.lives setup client
    | _ => fun _ => True
  rely
    | .producer producer => TxRely producer
    | .client client => RxRely client
    | .environment => fun _ _ => True
  guarantee
    | .producer producer => TxStep producer
    | .client client => RxStep setup client
    | .environment => EnvironmentStep
  label
    | .producer producer => fun _ state => (state.ring producer).claimActive = false
    | .client client => AtLabel client
    | .environment => fun _ _ => True

theorem lawful (setup : Setup n m K) (thread : Thread n K) : ((discipline setup).contract thread).Lawful where
  refl state := match thread with
    | .producer producer => TxRely.refl producer state
    | .client client => RxRely.refl client state
    | .environment => trivial
  trans {_ _ _} one two := match thread with
    | .producer _ => TxRely.trans one two
    | .client _ => RxRely.trans one two
    | .environment => trivial
  idle state := match thread with
    | .producer producer => TxStep.refl producer state
    | .client client => RxStep.refl setup client state
    | .environment => ⟨rfl, .refl state, le_rfl⟩
  stays {_ _} step later := match thread with
    | .producer _ => trivial
    | .client _ => RxRely.lives step later
    | .environment => trivial

section Compatible

variable {setup : Setup n m K} {before after : State n m K}

omit [DecidableEq K]

/-- The slot of a live client is live. -/
theorem slotAlive (membership : Membership setup before) {client : K} {consumer : Fin m} {token : Nat}
    (lives : before.lives setup client)
    (registered : (before.client client).registration = some (consumer, token)) :
    before.slotActive consumer ∧ before.slotAlive consumer := by
  obtain ⟨active, owns, -⟩ := membership.registered client consumer token lives registered
  refine ⟨active, ?_⟩
  rw [State.slotAlive, owns.pid, owns.processStart]
  exact lives

theorem txRely_of_tx {actor observer : Fin n} (different : actor ≠ observer) (step : TxStep actor before after) :
    TxRely observer before after where
  tx := (step.others observer different.symm).2
  owned := by rw [(step.others observer different.symm).1]
  outlives := .of_eq step.alive
  slots _ := step.slot

theorem txRely_of_environment {observer : Fin n} (step : EnvironmentStep before after) :
    TxRely observer before after where
  tx := by rw [step.same]
  owned := by rw [step.same]
  outlives := step.outlives
  slots _ := by rw [step.same]

theorem rxRely_of_environment {observer : K} (step : EnvironmentStep before after) :
    RxRely observer before after where
  same := by rw [step.same]
  outlives := step.outlives
  registered consumer _ _ := by
    rw [step.same]
    exact ⟨rfl, fun _ => rfl, rfl⟩
  gate owner := by
    rw [step.same]
    exact ⟨owner, rfl, fun _ closed => ⟨closed, rfl⟩, fun _ => ⟨rfl, fun _ _ => ⟨fun _ => rfl, rfl⟩⟩⟩
  grows _ := by rw [step.same]
  clock := step.clock

/-- A transmitter clears no lease of a live slot. -/
theorem sameProgress_of_tx {actor : Fin n} (step : TxStep actor before after) {consumer : Fin m}
    (kept : (before.ring actor).claimActive = true → before.slotAlive consumer) :
    State.SameProgress before after consumer := by
  refine ⟨fun producer => ?_, by rw [step.consumerSequences]⟩
  by_cases same : producer = actor
  · subst same
    rcases step.cursor consumer with equal | ⟨claiming, dead, -⟩
    · exact equal
    · exact absurd (kept claiming) dead
  · rw [State.cursor, (step.others producer same).1, State.cursor]

theorem rxRely_of_tx (membership : Membership setup before) {actor : Fin n} {observer : K}
    (lives : before.lives setup observer) (step : TxStep actor before after) : RxRely observer before after where
  same := by rw [step.client]
  outlives := .of_eq step.alive
  registered consumer token registered :=
    ⟨by rw [step.slot], sameProgress_of_tx step fun _ => (membership.slotAlive lives registered).2⟩
  gate owner := by
    have claims : ∀ producer, (before.ring producer).claimActive = false →
        (after.ring producer).claimActive = false ∧ after.tally producer = before.tally producer := by
      intro producer closed
      by_cases same : producer = actor
      · subst same
        refine ⟨?_, (step.quiet closed).1⟩
        by_contra opened
        have free := step.opens closed (by simpa using opened)
        exact absurd (free.symm.trans owner) (by simp)
      · obtain ⟨ring, tx⟩ := step.others producer same
        exact ⟨by rw [ring]; exact closed, tally_congr tx (by rw [ring])⟩
    refine ⟨step.gate.trans owner, step.slot, claims, fun unclaimed => ?_⟩
    refine ⟨(step.quiet (unclaimed actor)).2, fun consumer _ => sameProgress_of_tx step fun claiming => ?_⟩
    exact absurd (claiming.symm.trans (unclaimed actor)) (by decide)
  grows producer := by
    by_cases same : producer = actor
    · exact same ▸ step.grows
    · rw [(step.others producer same).1]
  clock := step.clock.ge

variable [DecidableEq K]

theorem txRely_of_rx {actor : K} {observer : Fin n} (step : RxStep setup actor before after) :
    TxRely observer before after where
  tx := by rw [step.tx]
  owned := step.owned observer
  outlives := .of_eq step.alive
  slots claiming := by
    funext consumer
    rcases step.slot consumer with same | ⟨⟨-, unclaimed⟩, -⟩
    · exact same
    · exact absurd (claiming.symm.trans (unclaimed observer)) (by decide)

theorem rxRely_of_rx (membership : Membership setup before) {actor observer : K} (different : actor ≠ observer)
    (actorLives : before.lives setup actor) (lives : before.lives setup observer)
    (step : RxStep setup actor before after) : RxRely observer before after where
  same := step.clients observer different.symm
  outlives := .of_eq step.alive
  registered consumer token registered := by
    obtain ⟨active, alive⟩ := membership.slotAlive lives registered
    have apart : ¬ ∃ other, (before.client actor).registration = some (consumer, other) :=
      fun ⟨other, same⟩ => different (membership.exclusive actor observer consumer other token actorLives lives
        same registered)
    refine ⟨(step.slot consumer).resolve_right fun ⟨_, own⟩ => apart (own active alive), ?_⟩
    refine (step.progress consumer).resolve_right fun changes => ?_
    rcases changes with own | ⟨-, inactive⟩
    · exact apart own
    · exact inactive active
  gate owner := by
    have kept : ¬ Registering actor before := fun registering =>
      different (Option.some_inj.mp (registering.1.symm.trans owner))
    refine ⟨?_, ?_, fun producer closed => ?_, fun unclaimed => ⟨step.globalSequence, fun consumer inactive => ?_⟩⟩
    · rcases step.gate with same | ⟨free, -⟩ | ⟨other, -⟩
      · exact same.trans owner
      · rw [State.gateFree, owner] at free
        exact absurd lives (by simpa [State.lives] using free)
      · exact absurd (Option.some_inj.mp (other.symm.trans owner)) different
    · funext consumer
      exact (step.slot consumer).resolve_right fun changed => kept changed.1
    · exact ⟨(owned_claimActive (step.owned producer)).trans closed, tally_congr (by rw [step.tx]) (step.owned producer)⟩
    · refine (step.progress consumer).resolve_right fun changes => ?_
      rcases changes with ⟨token, own⟩ | ⟨registering, -⟩
      · exact inactive (membership.slotAlive actorLives own).1
      · exact kept registering
  grows producer := by rw [owned_frames (step.owned producer)]
  clock := step.clock.ge

theorem compatible {actor observer : Thread n K} (different : actor ≠ observer)
    (ready : ((discipline setup).contract actor).Ready before)
    (later : ((discipline setup).contract observer).Ready after)
    (guaranteed : (discipline setup).guarantee actor before after) :
    (discipline setup).rely observer before after := by
  match actor, observer with
  | .producer actor, .producer observer => exact txRely_of_tx (by simpa using different) guaranteed
  | .client actor, .producer observer => exact txRely_of_rx guaranteed
  | .environment, .producer observer => exact txRely_of_environment guaranteed
  | .producer actor, .client observer =>
      have lives : before.lives setup observer :=
        (State.Outlives.of_eq guaranteed.alive).registered later.may
      exact rxRely_of_tx ready.keeps lives guaranteed
  | .client actor, .client observer =>
      have lives : before.lives setup observer :=
        (State.Outlives.of_eq guaranteed.alive).registered later.may
      exact rxRely_of_rx ready.keeps (by simpa using different) ready.may lives guaranteed
  | .environment, .client observer => exact rxRely_of_environment guaranteed
  | _, .environment => exact trivial

end Compatible

end Membership
end Salias.SharedHybridMpsc
