import Salias.Registration.CrashSafety

/-
The registration of a client that runs alone after crashes. What each program leaves behind is one change of the
words of one slot.
-/

namespace Salias.CrashRecovery

open Concurrent ConsumerRegistration SharedHybridMpsc

variable {n m : Nat} {P K : Type}

section Cursors

namespace State

/-- The cursors of one consumer in some of the rings. -/
def setCursors (state : State n m P K) (consumer : Fin m) (producers : List (Fin n)) (cursor : Fin n → Cursor) :
    State n m P K :=
  {state with ring := fun producer => if producer ∈ producers then
      {state.ring producer with
        consumers := Function.update (state.ring producer).consumers consumer (cursor producer)}
    else state.ring producer}

theorem setCursors_cons (state : State n m P K) (consumer : Fin m) (producer : Fin n) (rest : List (Fin n))
    (cursor : Fin n → Cursor) :
    (state.setCursor producer consumer fun _ => cursor producer).setCursors consumer rest cursor =
      state.setCursors consumer (producer :: rest) cursor := by
  simp only [setCursors, setCursor, setRing, State.mk.injEq, and_true, true_and]
  funext other
  by_cases same : other = producer
  · subst same
    simp
  · simp [same]

end State

variable {setup : Setup n P K} {consumer : Fin m}

theorem run_clearCursor (generation : Nat) (producer : Fin n) (state : State n m P K) :
    (clearCursor consumer generation producer).run state =
      ((), state.setCursor producer consumer fun _ => {generation := generation}) := by
  simp [clearCursor, storeCursor, Prog.run_bind, State.setCursor, State.setRing]

/-- The cursor of a new subscriber. -/
def snapshot (setup : Setup n P K) (generation orderedSequence : Nat) (ring : ProducerRing m) : Cursor where
  position := ring.reservationPosition
  sequence := if setup.ordered then orderedSequence else ring.reservationSequence
  messageSequence := ring.reservationMessageSequence
  generation := generation
  leaseStart := kNoLease
  leaseEnd := 0
  laggedMessages := 0
  skippedMessages := 0

theorem run_snapshotCursor (generation orderedSequence : Nat) (producer : Fin n) (state : State n m P K) :
    (snapshotCursor setup consumer generation orderedSequence producer).run state =
      ((), state.setCursor producer consumer fun _ =>
        snapshot setup generation orderedSequence (state.ring producer)) := by
  by_cases ordered : setup.ordered <;>
    simp [snapshotCursor, storeCursor, Prog.run_bind, State.setCursor, State.setRing, snapshot, ordered]

/-- A loop writes the cursors of all its rings. -/
theorem run_forEach_cursors (consumer : Fin m) {step : Fin n → Prog (State n m P K) Unit}
    (cursor : ProducerRing m → Cursor) (kept : ∀ ring consumers, cursor {ring with consumers := consumers} = cursor ring)
    (round : ∀ producer state, (step producer).run state =
      ((), state.setCursor producer consumer fun _ => cursor (state.ring producer)))
    (producers : List (Fin n)) (state : State n m P K) : (Prog.forEach step producers).run state =
      ((), state.setCursors consumer producers fun producer => cursor (state.ring producer)) := by
  induction producers generalizing state with
  | nil => simp [Prog.forEach, State.setCursors]
  | cons producer rest ih =>
      have same (other : Fin n) : cursor ((state.setCursor producer consumer fun _ =>
          cursor (state.ring producer)).ring other) = cursor (state.ring other) := by
        by_cases same : other = producer
        · subst same
          simp [State.setCursor, State.setRing, kept]
        · simp [State.setCursor, State.setRing, same]
      simp only [Prog.forEach, Prog.run_bind, round, ih, same]
      rw [State.setCursors_cons state consumer producer rest fun producer => cursor (state.ring producer)]

end Cursors

section Slots

namespace State

/-- A slot without a subscriber. -/
def reset (state : State n m P K) (consumer : Fin m) (generation : Nat) : State n m P K :=
  {state.setCursors consumer (List.finRange n) fun _ => {generation := generation} with
    consumerSequences := Function.update state.consumerSequences consumer 0}.setSlot consumer fun _ =>
      {state := makeToken generation 0 kFree}

/-- The slot of an exited process on its way to a free slot. -/
def reclaim (state : State n m P K) (consumer : Fin m) : State n m P K :=
  ((state.setSlot consumer fun slot => {slot with
      state := makeToken (generation slot.state) (processId slot.state) kReclaiming}).setTicket consumer 0).reset consumer
    (generation (state.slot consumer).state)

/-- A slot with a new subscriber. -/
def register (setup : Setup n P K) (client : K) (policy : SubscriptionPolicy) (state : State n m P K)
    (consumer : Fin m) (generation : Nat) : State n m P K :=
  {(state.setTicket consumer 0).setCursors consumer (List.finRange n) fun producer =>
      snapshot setup generation state.globalSequence (state.ring producer) with
    consumerSequences := if setup.ordered then
        Function.update state.consumerSequences consumer state.globalSequence
      else state.consumerSequences}.setSlot consumer fun _ =>
    { state := makeToken generation (setup.pid (setup.clientProcess client)) kActive
      pid := setup.pid (setup.clientProcess client)
      deliveryPolicy := policy
      processStart := setup.startToken (setup.clientProcess client) }

end State

variable {setup : Setup n P K} {client : K} {policy : SubscriptionPolicy} {consumer : Fin m} {state : State n m P K}

theorem setSlot_setSlot (state : State n m P K) (consumer : Fin m) (first second : ConsumerSlot → ConsumerSlot) :
    (state.setSlot consumer first).setSlot consumer second = state.setSlot consumer fun slot => second (first slot) := by
  simp [State.setSlot]

theorem run_resetSlot (generation : Nat) (state : State n m P K) :
    (resetSlot consumer generation).run state = ((), state.reset consumer generation) := by
  have cleared := run_forEach_cursors consumer (fun _ => {generation := generation})
    (fun _ _ => rfl) (run_clearCursor generation) (List.finRange n) state
  simp only [resetSlot, clearConsumerCursors, storeConsumerSequence, storeSlot, Prog.bind_eq, Prog.run_bind, cleared,
    Prog.run_store, setSlot_setSlot, State.reset]
  rfl

/-- The exchange that is not disturbed succeeds. -/
theorem run_exchangeState (next : Nat) (state : State n m P K) :
    (exchangeState consumer (state.slot consumer).state next).run state =
      (true, state.setSlot consumer fun slot => {slot with state := next}) := by
  simp [exchangeState]

theorem run_initializeSlot : (initializeSlot setup client policy consumer (state.slot consumer).state).run state =
    (some (consumer, makeToken (generation (state.slot consumer).state + 1 &&& kGenerationMask)
        (setup.pid (setup.clientProcess client)) kActive),
      state.register setup client policy consumer (generation (state.slot consumer).state + 1 &&& kGenerationMask)) := by
  have snapshots (generation orderedSequence : Nat) := run_forEach_cursors consumer
    (snapshot setup generation orderedSequence) (fun _ _ => rfl)
    (run_snapshotCursor generation orderedSequence) (List.finRange n)
  have unordered (off : setup.ordered = false) (generation orderedSequence : Nat) (ring : ProducerRing m) :
      snapshot setup generation orderedSequence ring = snapshot setup generation 0 ring := by
    simp [snapshot, off]
  cases ordered : setup.ordered
  · simp only [initializeSlot, Prog.bind_eq, Prog.run_bind, run_exchangeState, if_true, storeSlot, storeTicket, ordered,
      Prog.run_store, snapshots, Prog.run_when, Prog.pure_eq, Prog.run_ret, setSlot_setSlot, Bool.false_eq_true, if_false,
      State.register, unordered ordered _ state.globalSequence]
    simp only [State.setSlot, State.setTicket, State.setCursors, Function.update_self, Function.update_idem]
  · simp only [initializeSlot, Prog.bind_eq, Prog.run_bind, run_exchangeState, if_true, storeSlot, storeTicket, ordered,
      Prog.run_store, snapshots, Prog.run_when, Prog.pure_eq, Prog.run_ret, Prog.run_load, setSlot_setSlot,
      storeConsumerSequence, State.register]
    simp only [State.setSlot, State.setTicket, State.setCursors, Function.update_self, Function.update_idem]

/-- A free slot, or the slot of an exited process. -/
def Takeable (setup : Setup n P K) (state : State n m P K) (consumer : Fin m) : Prop :=
  phase (state.slot consumer).state = kFree ∨
    ∀ process ∈ setup.processOf (processId (state.slot consumer).state), state.alive process = false

/-- A slot that a live process owns. -/
def LiveOwner (setup : Setup n P K) (state : State n m P K) (consumer : Fin m) : Prop :=
  phase (state.slot consumer).state ≠ kFree ∧
    ∃ process ∈ setup.processOf (processId (state.slot consumer).state), state.alive process = true

theorem liveOwner_iff : LiveOwner setup state consumer ↔ ¬ Takeable setup state consumer := by
  simp [LiveOwner, Takeable]

/-- The words of a slot, with its ticket and its cursors. -/
structure SameSlot (before after : State n m P K) (consumer : Fin m) : Prop where
  slot : after.slot consumer = before.slot consumer
  ticket : after.ticket consumer = before.ticket consumer
  cursor : ∀ producer, (after.ring producer).consumers consumer = (before.ring producer).consumers consumer
  sequence : after.consumerSequences consumer = before.consumerSequences consumer

/-- Nothing but the claim flags changes in the rings, apart from the cursors. -/
structure SameRing (before after : ProducerRing m) : Prop where
  position : after.reservationPosition = before.reservationPosition
  sequence : after.reservationSequence = before.reservationSequence
  messageSequence : after.reservationMessageSequence = before.reservationMessageSequence

/-- The registration of a client in a slot, with the next generation of 29 bits. -/
structure Registers (setup : Setup n P K) (client : K) (policy : SubscriptionPolicy) (before after : State n m P K)
    (consumer : Fin m) (token : Nat) : Prop where
  word : token = makeToken ((generation (before.slot consumer).state + 1) % 2 ^ 29)
    (setup.pid (setup.clientProcess client)) kActive
  slot : after.slot consumer = ⟨token, setup.pid (setup.clientProcess client), policy,
    setup.startToken (setup.clientProcess client)⟩
  ticket : after.ticket consumer = 0
  cursor : ∀ producer, (after.ring producer).consumers consumer = snapshot setup
    ((generation (before.slot consumer).state + 1) % 2 ^ 29) before.globalSequence (before.ring producer)
  sequence : setup.ordered = true → after.consumerSequences consumer = before.globalSequence
  others : ∀ other, other ≠ consumer → SameSlot before after other

/-- What no registration changes. -/
structure SameChannel (before after : State n m P K) : Prop where
  alive : after.alive = before.alive
  globalSequence : after.globalSequence = before.globalSequence
  rings : ∀ producer, SameRing (before.ring producer) (after.ring producer)

theorem SameSlot.refl (state : State n m P K) (consumer : Fin m) : SameSlot state state consumer :=
  ⟨rfl, rfl, fun _ => rfl, rfl⟩

theorem SameSlot.trans {first second third : State n m P K} (earlier : SameSlot first second consumer)
    (later : SameSlot second third consumer) : SameSlot first third consumer :=
  ⟨later.slot.trans earlier.slot, later.ticket.trans earlier.ticket,
    fun producer => (later.cursor producer).trans (earlier.cursor producer), later.sequence.trans earlier.sequence⟩

theorem SameChannel.refl (state : State n m P K) : SameChannel state state := ⟨rfl, rfl, fun _ => ⟨rfl, rfl, rfl⟩⟩

theorem SameChannel.trans {first second third : State n m P K} (earlier : SameChannel first second)
    (later : SameChannel second third) : SameChannel first third :=
  ⟨later.alive.trans earlier.alive, later.globalSequence.trans earlier.globalSequence, fun producer =>
    ⟨(later.rings producer).position.trans (earlier.rings producer).position,
      (later.rings producer).sequence.trans (earlier.rings producer).sequence,
      (later.rings producer).messageSequence.trans (earlier.rings producer).messageSequence⟩⟩

theorem SameRing.snapshot {before after : ProducerRing m} (same : SameRing before after)
    (generation orderedSequence : Nat) :
    snapshot setup generation orderedSequence after = snapshot setup generation orderedSequence before := by
  simp [CrashRecovery.snapshot, same.position, same.sequence, same.messageSequence]

theorem SameChannel.setCursors (state : State n m P K) (consumer : Fin m) (producers : List (Fin n)) (cursor : Fin n → Cursor) :
    SameChannel state (state.setCursors consumer producers cursor) := by
  refine ⟨rfl, rfl, fun producer => ?_⟩
  simp only [State.setCursors]
  split <;> exact ⟨rfl, rfl, rfl⟩

/-- A step on the words of one slot leaves the other slots alone. -/
theorem sameSlot_setCursors {other : Fin m} (different : other ≠ consumer) (producers : List (Fin n))
    (cursor : Fin n → Cursor) (producer : Fin n) :
    ((state.setCursors consumer producers cursor).ring producer).consumers other =
      (state.ring producer).consumers other := by
  simp only [State.setCursors]
  split
  · exact Function.update_of_ne different ..
  · rfl

theorem reset_channel (state : State n m P K) (consumer : Fin m) (generation : Nat) : SameChannel state (state.reset consumer generation) := by
  obtain ⟨alive, sequence, rings⟩ := SameChannel.setCursors state consumer (List.finRange n)
    fun _ => {generation := generation}
  exact ⟨alive, sequence, rings⟩

theorem reset_other (state : State n m P K) {other : Fin m} (different : other ≠ consumer) (generation : Nat) :
    SameSlot state (state.reset consumer generation) other :=
  ⟨Function.update_of_ne different .., rfl, sameSlot_setCursors different _ _, Function.update_of_ne different ..⟩

theorem reclaim_channel : SameChannel state (state.reclaim consumer) :=
  ⟨rfl, rfl, (reset_channel state consumer _).rings⟩

theorem reclaim_other {other : Fin m} (different : other ≠ consumer) : SameSlot state (state.reclaim consumer) other := by
  have cleared := reset_other state different (generation (state.slot consumer).state)
  refine ⟨?_, Function.update_of_ne different .., cleared.cursor, cleared.sequence⟩
  simp [State.reclaim, State.reset, State.setSlot, State.setTicket, State.setCursors, different]

theorem reclaim_generation : generation ((state.reclaim consumer).slot consumer).state =
    generation (state.slot consumer).state := by
  have small := generation_lt (state.slot consumer).state
  have stored : ((state.reclaim consumer).slot consumer).state =
      makeToken (generation (state.slot consumer).state) 0 kFree := by
    simp [State.reclaim, State.reset, State.setSlot]
  rw [stored, generation_makeToken _ _ (by decide), Nat.mod_eq_of_lt small]

theorem register_channel (generation : Nat) :
    SameChannel state (state.register setup client policy consumer generation) := by
  obtain ⟨alive, sequence, rings⟩ := SameChannel.setCursors state consumer (List.finRange n)
    fun producer => snapshot setup generation state.globalSequence (state.ring producer)
  exact ⟨alive, sequence, rings⟩

theorem register_registers : Registers setup client policy state
    (state.register setup client policy consumer (generation (state.slot consumer).state + 1 &&& kGenerationMask)) consumer
    (makeToken (generation (state.slot consumer).state + 1 &&& kGenerationMask)
      (setup.pid (setup.clientProcess client)) kActive) := by
  rw [mask_eq_mod]
  refine ⟨rfl, Function.update_self .., Function.update_self .., fun producer => ?_, fun ordered => ?_,
    fun other different => ⟨Function.update_of_ne different .., Function.update_of_ne different ..,
      sameSlot_setCursors different _ _, ?_⟩⟩
  · simp [State.register, State.setSlot, State.setCursors, State.setTicket]
  · simp [State.register, State.setSlot, ordered]
  · simp only [State.register, State.setSlot]
    split
    · exact Function.update_of_ne different ..
    · rfl

/-- What happens before the registration may be left out. -/
theorem Registers.prior {before middle after : State n m P K} {token : Nat} (channel : SameChannel before middle)
    (same : generation (middle.slot consumer).state = generation (before.slot consumer).state)
    (others : ∀ other, other ≠ consumer → SameSlot before middle other)
    (registers : Registers setup client policy middle after consumer token) :
    Registers setup client policy before after consumer token where
  word := same ▸ registers.word
  slot := registers.slot
  ticket := registers.ticket
  cursor producer := by
    rw [registers.cursor producer, same, channel.globalSequence, (channel.rings producer).snapshot]
  sequence ordered := (registers.sequence ordered).trans channel.globalSequence
  others other different := (others other different).trans (registers.others other different)

theorem Registers.later {before middle after : State n m P K} {token : Nat}
    (registers : Registers setup client policy before middle consumer token)
    (slots : ∀ other, SameSlot middle after other) : Registers setup client policy before after consumer token where
  word := registers.word
  slot := (slots consumer).slot.trans registers.slot
  ticket := (slots consumer).ticket.trans registers.ticket
  cursor producer := ((slots consumer).cursor producer).trans (registers.cursor producer)
  sequence ordered := (slots consumer).sequence.trans (registers.sequence ordered)
  others other different := (registers.others other different).trans (slots other)

end Slots

section Search

variable {setup : Setup n P K} {client : K} {policy : SubscriptionPolicy} {consumer : Fin m} {state : State n m P K}

/-- The check of a slot tells whether its process lives. -/
theorem WellRecorded.alive_iff (well : WellRecorded setup (state.slot consumer)) :
    state.isRegisteredProcessAlive setup (processId (state.slot consumer).state) (state.slot consumer).processStart = true ↔
      ∃ process ∈ setup.processOf (processId (state.slot consumer).state), state.alive process = true := by
  cases found : setup.processOf (processId (state.slot consumer).state) with
  | none => simp [State.isRegisteredProcessAlive, found]
  | some process =>
      rcases well.recorded with none_ | ⟨owner, named, recorded⟩
      · simp [State.isRegisteredProcessAlive, found, none_]
      · have same : owner = process := by
          have owned := (setup.unique _ _).mpr named
          exact Option.some.inj (owned.symm.trans found)
        simp [State.isRegisteredProcessAlive, found, recorded, same]

theorem run_reclaimSlot_of_not_takeable (well : WellRecorded setup (state.slot consumer))
    (taken : ¬ Takeable setup state consumer) : (reclaimSlot setup consumer).run state = (none, state) := by
  simp only [Takeable, not_or, not_forall, Bool.not_eq_false] at taken
  obtain ⟨occupied, process, found, lives⟩ := taken
  have alive := well.alive_iff.mpr ⟨process, found, lives⟩
  simp [reclaimSlot, Prog.run_bind, occupied, alive]

theorem run_reclaimSlot_of_takeable (well : WellRecorded setup (state.slot consumer))
    (free : Takeable setup state consumer) : ∃ after,
      (reclaimSlot setup consumer).run state = (some (after.slot consumer).state, after) ∧ SameChannel state after ∧
        generation (after.slot consumer).state = generation (state.slot consumer).state ∧
        ∀ other, other ≠ consumer → SameSlot state after other := by
  by_cases already : phase (state.slot consumer).state = kFree
  · exact ⟨state, by simp [reclaimSlot, Prog.run_bind, already], .refl _, rfl, fun _ _ => .refl _ _⟩
  have dead : state.isRegisteredProcessAlive setup (processId (state.slot consumer).state)
      (state.slot consumer).processStart = false := by
    by_contra lives
    obtain ⟨process, found, lives⟩ := well.alive_iff.mp (by simpa using lives)
    exact absurd (free.resolve_left already process found) (by simp [lives])
  refine ⟨state.reclaim consumer, ?_, reclaim_channel, reclaim_generation, fun other different => reclaim_other different⟩
  simp [reclaimSlot, Prog.run_bind, already, dead, run_exchangeState, storeTicket, run_resetSlot, State.reclaim,
    State.setSlot]

theorem run_acquireSlotRound_of_not_takeable (client : K) (policy : SubscriptionPolicy)
    (well : WellRecorded setup (state.slot consumer))
    (taken : ¬ Takeable setup state consumer) :
    (acquireSlotRound setup client policy () consumer).run state = (.inl (), state) := by
  simp [acquireSlotRound, Prog.run_bind, run_reclaimSlot_of_not_takeable well taken]

theorem run_acquireSlotRound_of_takeable (client : K) (policy : SubscriptionPolicy)
    (well : WellRecorded setup (state.slot consumer))
    (free : Takeable setup state consumer) : ∃ after token,
      (acquireSlotRound setup client policy () consumer).run state = (.inr (consumer, token), after) ∧
        SameChannel state after ∧ Registers setup client policy state after consumer token := by
  obtain ⟨middle, reclaimed, channel, same, others⟩ := run_reclaimSlot_of_takeable well free
  refine ⟨_, _, ?_, channel.trans (register_channel _), register_registers.prior channel same others⟩
  · simp only [acquireSlotRound, Prog.bind_eq, Prog.run_bind, reclaimed, run_initializeSlot, Prog.pure_eq, Prog.run_ret]

/-- What a client that registers alone leaves behind. -/
structure Recovered (setup : Setup n P K) (client : K) (policy : SubscriptionPolicy) (before : State n m P K)
    (registration : Option (Fin m × Nat)) (after : State n m P K) : Prop where
  found : registration ≠ none ↔ ∃ consumer, Takeable setup before consumer
  acquired : ∀ consumer token, registration = some (consumer, token) →
    Takeable setup before consumer ∧ Registers setup client policy before after consumer token
  spared : ∀ consumer, LiveOwner setup before consumer → SameSlot before after consumer
  channel : SameChannel before after

/-- The search takes the first slot that can be taken. -/
theorem run_search (client : K) (policy : SubscriptionPolicy)
    (well : ∀ consumer, WellRecorded setup (state.slot consumer)) (consumers : List (Fin m)) :
    (∃ consumer ∈ consumers, Takeable setup state consumer ∧ ∃ after token,
      (Prog.foldUntil (acquireSlotRound setup client policy) consumers ()).run state = (.inr (consumer, token), after) ∧
        SameChannel state after ∧ Registers setup client policy state after consumer token) ∨
    ((∀ consumer ∈ consumers, ¬ Takeable setup state consumer) ∧
      (Prog.foldUntil (acquireSlotRound setup client policy) consumers ()).run state = (.inl (), state)) := by
  induction consumers with
  | nil => exact .inr ⟨nofun, rfl⟩
  | cons consumer rest ih =>
      by_cases free : Takeable setup state consumer
      · obtain ⟨after, token, taken, channel, registers⟩ :=
          run_acquireSlotRound_of_takeable client policy (well consumer) free
        refine .inl ⟨consumer, List.mem_cons_self .., free, after, token, ?_, channel, registers⟩
        simp [Prog.foldUntil, Prog.run_bind, taken]
      · have passed := run_acquireSlotRound_of_not_takeable client policy (well consumer) free
        have same : (Prog.foldUntil (acquireSlotRound setup client policy) (consumer :: rest) ()).run state =
            (Prog.foldUntil (acquireSlotRound setup client policy) rest ()).run state := by
          simp [Prog.foldUntil, Prog.run_bind, passed]
        rw [same]
        rcases ih with ⟨found, member, rest⟩ | ⟨none_, rest⟩
        · exact .inl ⟨found, List.mem_cons_of_mem _ member, rest⟩
        · exact .inr ⟨List.forall_mem_cons.mpr ⟨free, none_⟩, rest⟩

theorem run_acquireConsumer (well : ∀ consumer, WellRecorded setup (state.slot consumer)) :
    Recovered setup client policy state ((acquireConsumer setup client policy).run state).1
      ((acquireConsumer setup client policy).run state).2 := by
  rcases run_search client policy well (List.finRange m) with
    ⟨consumer, -, free, after, token, searched, channel, registers⟩ | ⟨taken, searched⟩
  · simp only [acquireConsumer, Prog.bind_eq, Prog.run_bind, searched, Prog.pure_eq, Prog.run_ret, Sum.getRight?]
    refine ⟨⟨fun _ => ⟨consumer, free⟩, fun _ => nofun⟩, ?_, fun other live => ?_, channel⟩
    · rintro _ _ ⟨⟩
      exact ⟨free, registers⟩
    · exact registers.others other fun same => liveOwner_iff.mp live (same ▸ free)
  · simp only [acquireConsumer, Prog.bind_eq, Prog.run_bind, searched, Prog.pure_eq, Prog.run_ret, Sum.getRight?]
    refine ⟨⟨fun some_ => absurd rfl some_, ?_⟩, nofun, fun _ _ => .refl _ _, .refl _⟩
    rintro ⟨consumer, free⟩
    exact absurd free (taken consumer (List.mem_finRange consumer))

end Search

section Frame

variable {setup : Setup n P K} {client : K} {state : State n m P K}

/-- The registration words and the reservations are as before. -/
structure Undisturbed (before after : State n m P K) : Prop where
  slots : ∀ consumer, SameSlot before after consumer
  channel : SameChannel before after

theorem Undisturbed.refl (state : State n m P K) : Undisturbed state state := ⟨.refl state, .refl state⟩

theorem Undisturbed.trans {first second third : State n m P K} (earlier : Undisturbed first second)
    (later : Undisturbed second third) : Undisturbed first third :=
  ⟨fun consumer => (earlier.slots consumer).trans (later.slots consumer), earlier.channel.trans later.channel⟩

theorem Undisturbed.takeable {before after : State n m P K} (same : Undisturbed before after) (consumer : Fin m) :
    Takeable setup after consumer ↔ Takeable setup before consumer := by
  rw [Takeable, Takeable, (same.slots consumer).slot, same.channel.alive]

theorem Recovered.framed {policy : SubscriptionPolicy} {before middle last after : State n m P K}
    {registration : Option (Fin m × Nat)} (recovered : Recovered setup client policy middle registration last)
    (earlier : Undisturbed before middle) (later : Undisturbed last after) :
    Recovered setup client policy before registration after where
  found := recovered.found.trans (exists_congr earlier.takeable)
  acquired consumer token taken := by
    obtain ⟨free, registers⟩ := recovered.acquired consumer token taken
    refine ⟨(earlier.takeable consumer).mp free, ?_⟩
    exact (registers.prior earlier.channel (by rw [(earlier.slots consumer).slot]) fun other _ => earlier.slots other).later
      later.slots
  spared consumer live := by
    rw [liveOwner_iff, ← earlier.takeable consumer, ← liveOwner_iff] at live
    exact ((earlier.slots consumer).trans (recovered.spared consumer live)).trans (later.slots consumer)
  channel := (earlier.channel.trans recovered.channel).trans later.channel

/-- No live process has an active claim. -/
def ClaimsEnded (setup : Setup n P K) (state : State n m P K) : Prop :=
  ∀ producer, (state.ring producer).claimActive = true → state.alive (setup.producerProcess producer) = false

theorem run_claimEnded_of_clear {producer : Fin n} (clear : (state.ring producer).claimActive = false) :
    (claimEnded setup producer).run state = (true, state) := by
  simp [claimEnded, Prog.run_bind, clear]

theorem run_claimEnded_of_dead {producer : Fin n} (active : (state.ring producer).claimActive = true)
    (dead : state.alive (setup.producerProcess producer) = false) : (claimEnded setup producer).run state =
      (false, state.setRing producer fun ring => {ring with claimActive := false}) := by
  have named := (setup.unique (setup.pid (setup.producerProcess producer)) _).mpr rfl
  simp [claimEnded, Prog.run_bind, active, State.isRegisteredProcessAlive, named, dead]

theorem setRing_undisturbed {producer : Fin n} {change : ProducerRing m → ProducerRing m}
    (cursors : (change (state.ring producer)).consumers = (state.ring producer).consumers)
    (same : SameRing (state.ring producer) (change (state.ring producer))) :
    Undisturbed state (state.setRing producer change) := by
  have rings (other : Fin n) : ((state.setRing producer change).ring other).consumers = (state.ring other).consumers ∧
      SameRing (state.ring other) ((state.setRing producer change).ring other) := by
    by_cases here : other = producer
    · subst here
      simp only [State.setRing, Function.update_self]
      exact ⟨cursors, same⟩
    · simp only [State.setRing, Function.update_of_ne here]
      exact ⟨trivial, rfl, rfl, rfl⟩
  exact ⟨fun consumer => ⟨rfl, rfl, fun other => congrFun (rings other).1 consumer, rfl⟩, rfl, rfl,
    fun other => (rings other).2⟩

/-- The gate names no live process. -/
def GateEnded (setup : Setup n P K) (state : State n m P K) : Prop :=
  ∀ process ∈ setup.processOf (processId state.registrationGate), state.alive process = false

theorem GateEnded.dead (ended : GateEnded setup state) (start : Nat) :
    state.isRegisteredProcessAlive setup (processId state.registrationGate) start = false := by
  cases found : setup.processOf (processId state.registrationGate) with
  | none => simp [State.isRegisteredProcessAlive, found]
  | some process => simp [State.isRegisteredProcessAlive, found, ended process found]

end Frame

section Alone

variable [DecidableEq K] {setup : Setup n P K} {client : K} {state : State n m P K}

/-- The passes of a client that runs alone; the request says whether the weak exchange of the pass fails spuriously. -/
def proceeds (client : K) (spurious : Nat → Bool) : Nat → List (Thread n K × Request n P)
  | 0 => []
  | passes + 1 => (.client client, .proceed (spurious 0)) :: proceeds client (fun pass => spurious (pass + 1)) passes

/-- The weak exchange does not fail spuriously for ever. -/
def Recurs (spurious : Nat → Bool) : Prop := ∀ pass, ∃ later, pass ≤ later ∧ spurious later = false

theorem Recurs.tail {spurious : Nat → Bool} (recurs : Recurs spurious) : Recurs fun pass => spurious (pass + 1) := by
  intro pass
  obtain ⟨later, after, succeeds⟩ := recurs (pass + 1)
  refine ⟨later - 1, by omega, ?_⟩
  have same : later - 1 + 1 = later := by omega
  dsimp only
  rw [same, succeeds]

/-- The pass that takes a clear gate. -/
theorem run_acquireRegistrationGate_of_clear (clear : state.registrationGate = 0) :
    (acquireRegistrationGate setup client false).run state = (true,
      {state with
        registrationGate := gateWord setup client .holding
        registrationGateProcessStart := setup.startToken (setup.clientProcess client)}.setStage client .holding) := by
  simp [acquireRegistrationGate, compareExchangeWeak, Prog.run_bind, clear, State.setStage]

/-- A pass that loses the exchange on a gate without a live owner clears the gate. -/
theorem run_acquireRegistrationGate_of_ended (spurious : Bool) (rests : Rests client .outside state)
    (lost : ¬ (state.registrationGate = 0 ∧ ¬ spurious = true)) (ended : GateEnded setup state) :
    (acquireRegistrationGate setup client spurious).run state = (false, {state with registrationGate := 0}) := by
  have observed : (compareExchangeWeak setup client spurious).run state = (some state.registrationGate, state) := by
    simp only [compareExchangeWeak, Prog.run_modifyGet, lost, if_false]
  have checked (start : Nat) : (checkOwner setup client state.registrationGate start).run state =
      (false, state.setJudged client (some state.registrationGate)) := by
    simp [checkOwner, ended.dead start]
  have unjudged : Function.update state.judged client none = state.judged := by
    rw [← rests.judged, Function.update_eq_self]
  have cleared : (clearDeadOwner client state.registrationGate).run
      (state.setJudged client (some state.registrationGate)) = ((), {state with registrationGate := 0}) := by
    simp [clearDeadOwner, State.setJudged, unjudged]
  simp only [acquireRegistrationGate, Prog.bind_eq, Prog.run_bind, observed]
  split <;> simp only [Prog.pure_eq, Prog.run_ret, Prog.run_load, checked, cleared, Prog.run_bind, Bool.false_eq_true, if_false]

variable [DecidableEq P]

/-- A client that runs alone reaches the goal after finitely many passes. -/
def Settles (setup : Setup n P K) (client : K) (goal : Label n m → State n m P K → Prop) (label : Label n m)
    (state : State n m P K) : Prop :=
  ∀ spurious, Recurs spurious → ∀ threads : Thread n K → Prog (State n m P K) (Label n m), ∃ passes final after,
    (system setup).calls ⟨state, Function.update threads (.client client) (.ret label)⟩
        (proceeds client spurious passes) =
      some ⟨after, Function.update threads (.client client) (.ret final)⟩ ∧ goal final after

variable {goal : Label n m → State n m P K → Prop} {label : Label n m}

theorem Settles.done (reached : goal label state) : Settles setup client goal label state :=
  fun _ _ _ => ⟨0, label, state, rfl, reached⟩

/-- One pass of the client. -/
theorem calls_proceeds {spurious : Nat → Bool} {program : Prog (State n m P K) (Label n m)}
    (state : State n m P K) (passes : Nat) (threads : Thread n K → Prog (State n m P K) (Label n m))
    (begins : startClient setup client label (.proceed (spurious 0)) = some program) :
    (system setup).calls ⟨state, Function.update threads (.client client) (.ret label)⟩
        (proceeds client spurious (passes + 1)) =
      (system setup).calls ⟨(program.run state).2, Function.update threads (.client client) (.ret (program.run state).1)⟩
        (proceeds client (fun pass => spurious (pass + 1)) passes) := by
  let config : Config (State n m P K) (Thread n K) (Label n m) :=
    ⟨state, Function.update threads (.client client) (.ret label)⟩
  have rests : config.thread (.client client) = .ret label := Function.update_self ..
  have begun : (system setup).start (.client client) label (.proceed (spurious 0)) = some program := begins
  have called := System.call_eq rests begun
  simp only [config, Function.update_idem] at called
  simp only [proceeds, System.calls, called, Option.bind_some]

theorem Settles.pass (continues : ∀ spurious, ∃ program, startClient setup client label (.proceed spurious) = some program ∧
    Settles setup client goal (program.run state).1 (program.run state).2) : Settles setup client goal label state := by
  intro spurious recurs threads
  obtain ⟨program, begins, rest⟩ := continues (spurious 0)
  obtain ⟨passes, final, after, called, reached⟩ := rest _ recurs.tail threads
  exact ⟨passes + 1, final, after, (calls_proceeds state passes threads begins).trans called, reached⟩

/-- A pass that fails spuriously and changes nothing may be repeated. -/
theorem Settles.spin {program : Bool → Prog (State n m P K) (Label n m)}
    (begins : ∀ spurious, startClient setup client label (.proceed spurious) = some (program spurious))
    (idle : (program true).run state = (label, state))
    (continues : Settles setup client goal ((program false).run state).1 ((program false).run state).2) :
    Settles setup client goal label state := by
  intro spurious recurs threads
  obtain ⟨first, -, succeeds⟩ := recurs 0
  induction first generalizing spurious with
  | zero =>
      obtain ⟨passes, final, after, called, reached⟩ := continues _ recurs.tail threads
      have begun := begins (spurious 0)
      rw [succeeds] at begun
      exact ⟨passes + 1, final, after, (calls_proceeds state passes threads (succeeds ▸ begun)).trans called, reached⟩
  | succ first ih =>
      obtain ⟨passes, final, after, called, reached⟩ := ih _ recurs.tail succeeds
      cases fails : spurious 0 with
      | true =>
          have passed := calls_proceeds state passes threads (begins (spurious 0))
          rw [fails, idle] at passed
          exact ⟨passes + 1, final, after, passed.trans called, reached⟩
      | false =>
          obtain ⟨passes, final, after, called, reached⟩ := continues _ recurs.tail threads
          have passed := calls_proceeds state passes threads (begins (spurious 0))
          rw [fails] at passed
          exact ⟨passes + 1, final, after, passed.trans called, reached⟩

/-- The goal of a client that registers. -/
def Acquired (setup : Setup n P K) (client : K) (policy : SubscriptionPolicy) (before : State n m P K)
    (label : Label n m) (after : State n m P K) : Prop :=
  ∃ registration, label = .resting registration ∧ Recovered setup client policy before registration after

variable {policy : SubscriptionPolicy} {before : State n m P K}

theorem settles_holding (well : ∀ consumer, WellRecorded setup (state.slot consumer)) (same : Undisturbed before state) :
    Settles setup client (Acquired setup client policy before) (.waiting (.acquire policy) []) state := by
  refine .pass fun _ => ⟨waitPass setup client (.acquire policy) [], rfl,
    .done ⟨((acquireConsumer setup client policy).run state).1, ?_, ?_⟩⟩
  · simp only [waitPass, runTask, Prog.bind_eq, Prog.run_bind, Prog.pure_eq, Prog.run_ret]
  · simp only [waitPass, runTask, releaseRegistrationGate, Prog.bind_eq, Prog.run_bind, Prog.run_store, Prog.pure_eq,
      Prog.run_ret]
    refine (run_acquireConsumer well).framed same ?_
    simp only [State.giveBack]
    split <;> exact ⟨fun _ => ⟨rfl, rfl, fun _ => rfl, rfl⟩, rfl, rfl, fun _ => ⟨rfl, rfl, rfl⟩⟩

theorem settles_waiting (rest : List (Fin n)) (well : ∀ consumer, WellRecorded setup (state.slot consumer))
    (claims : ClaimsEnded setup state) (same : Undisturbed before state) :
    Settles setup client (Acquired setup client policy before) (.waiting (.acquire policy) rest) state := by
  induction rest generalizing state with
  | nil => exact settles_holding well same
  | cons producer rest ih =>
      have clear {state : State n m P K} (well : ∀ consumer, WellRecorded setup (state.slot consumer))
          (claims : ClaimsEnded setup state) (same : Undisturbed before state)
          (clear : (state.ring producer).claimActive = false) : Settles setup client
            (Acquired setup client policy before) (.waiting (.acquire policy) (producer :: rest)) state := by
        refine .pass fun _ => ⟨waitPass setup client (.acquire policy) (producer :: rest), rfl, ?_⟩
        simp only [waitPass, Prog.bind_eq, Prog.run_bind, run_claimEnded_of_clear clear, Prog.pure_eq, Prog.run_ret, if_true]
        exact ih well claims same
      cases active : (state.ring producer).claimActive with
      | false => exact clear well claims same active
      | true =>
          refine .pass fun _ => ⟨waitPass setup client (.acquire policy) (producer :: rest), rfl, ?_⟩
          simp only [waitPass, Prog.bind_eq, Prog.run_bind, run_claimEnded_of_dead active (claims producer active),
            Prog.pure_eq, Prog.run_ret, Bool.false_eq_true, if_false]
          refine clear well (fun other flagged => ?_) (same.trans (setRing_undisturbed rfl ⟨rfl, rfl, rfl⟩)) ?_
          · by_cases here : other = producer
            · subst here
              simp [State.setRing] at flagged
            · simp only [State.setRing, Function.update_of_ne here] at flagged
              exact claims other flagged
          · simp [State.setRing]

theorem settles_clear (rests : Rests client .outside state) (clear : state.registrationGate = 0)
    (well : ∀ consumer, WellRecorded setup (state.slot consumer)) (claims : ClaimsEnded setup state)
    (same : Undisturbed before state) :
    Settles setup client (Acquired setup client policy before) (.contending (.acquire policy)) state := by
  have ended : GateEnded setup state := by
    intro process found
    have none_ : processId 0 = 0 := rfl
    rw [clear, none_, setup.processOf_zero] at found
    cases found
  refine .spin (fun _ => rfl) ?_ ?_
  · have idle := run_acquireRegistrationGate_of_ended true rests (by simp) ended
    have unchanged : {state with registrationGate := 0} = state := by rw [← clear]
    simp only [Prog.bind_eq, Prog.run_bind, idle, unchanged, Bool.false_eq_true, if_false, Prog.pure_eq, Prog.run_ret]
  · simp only [Prog.bind_eq, Prog.run_bind, run_acquireRegistrationGate_of_clear clear, if_true, Prog.pure_eq, Prog.run_ret]
    exact settles_waiting _ well claims (same.trans ⟨fun _ => ⟨rfl, rfl, fun _ => rfl, rfl⟩, rfl, rfl, fun _ => ⟨rfl, rfl, rfl⟩⟩)

theorem settles_contending (policy : SubscriptionPolicy) (rests : Rests client .outside state) (ended : GateEnded setup state)
    (well : ∀ consumer, WellRecorded setup (state.slot consumer)) (claims : ClaimsEnded setup state) :
    Settles setup client (Acquired setup client policy state) (.contending (.acquire policy)) state := by
  by_cases clear : state.registrationGate = 0
  · exact settles_clear rests clear well claims (.refl state)
  · refine .pass fun spurious => ⟨_, rfl, ?_⟩
    have cleared := run_acquireRegistrationGate_of_ended spurious rests (fun won => clear won.1) ended
    simp only [Prog.bind_eq, Prog.run_bind, cleared, Bool.false_eq_true, if_false, Prog.pure_eq, Prog.run_ret]
    exact settles_clear ⟨rests.stage, rests.judged⟩ rfl well claims
      ⟨fun _ => ⟨rfl, rfl, fun _ => rfl, rfl⟩, rfl, rfl, fun _ => ⟨rfl, rfl, rfl⟩⟩

/-- A client that registers alone ends, whatever the crashes have left behind. -/
def Recovers (setup : Setup n P K) (config : Config (State n m P K) (Thread n K) (Label n m)) : Prop :=
  ∀ client policy spurious, config.thread (.client client) = .ret (.resting none) →
    config.shared.alive (setup.clientProcess client) = true → GateEnded setup config.shared →
    ClaimsEnded setup config.shared → Recurs spurious →
    ∃ passes final registration, (system setup).calls config
        ((.client client, .acquire policy) :: proceeds client spurious passes) = some final ∧
      final.thread (.client client) = .ret (.resting registration) ∧
      Recovered setup client policy config.shared registration final.shared

/-- The registration recovers in every state of a run in which nobody clears the gate of a live owner. -/
theorem registration_recovers {config : Config (State n m P K) (Thread n K) (Label n m)}
    (run : (system setup).Run (Spares setup) initial config) : Recovers setup config := by
  intro client policy spurious resting lives gate claims recurs
  have kept := kept_of_run run
  have rests := outside_of_run run lives resting
  obtain ⟨passes, final, after, called, registration, rfl, recovered⟩ :=
    settles_contending policy rests gate kept.slots claims spurious recurs config.thread
  refine ⟨passes, ⟨after, Function.update config.thread (.client client) (.ret (.resting registration))⟩, registration, ?_,
    Function.update_self .., recovered⟩
  have begun : (system (m := m) setup).start (.client client) (.resting none) (.acquire policy) =
      some (pure (.contending (.acquire policy))) := rfl
  simp only [System.calls, System.call_eq resting begun, Option.bind_some, Prog.pure_eq, Prog.run_ret]
  exact called

end Alone

section Cases

/-- Four processes with one client each; the producer belongs to the last of them. -/
def fourProcesses : Setup 1 (Fin 4) (Fin 4) where
  ordered := false
  pid process := UInt32.ofNat (process.val + 1)
  startToken process := process.val + 10
  processOf id := (List.finRange 4).find? fun process => UInt32.ofNat (process.val + 1) == id
  clientProcess := id
  producerProcess _ := 3
  unique id process := by
    constructor
    · intro found
      simpa using List.find?_some found
    · rintro rfl
      revert process
      decide
  positive := by decide

abbrev Schedule := List (Event (Thread 1 (Fin 4)) (Request 1 (Fin 4)))

abbrev World := Config (State 1 1 (Fin 4) (Fin 4)) (Thread 1 (Fin 4)) (Label 1 1)

def acts (client : Fin 4) (count : Nat) : Schedule := List.replicate count (.act (.client client))

def proceed (client : Fin 4) (count : Nat) : Schedule := .start (.client client) (.proceed false) :: acts client count

/-- A client takes the gate and finds that the producer has no claim. -/
def enter (client : Fin 4) : Schedule :=
  .start (.client client) (.acquire .Reliable) :: proceed client 3 ++ proceed client 1

def crash (process : Fin 4) : Schedule := [.start .environment (.crash process), .act .environment]

/-- The answer of a client that rests. -/
def answer : Prog (State 1 1 (Fin 4) (Fin 4)) (Label 1 1) → Option (Option (Fin 1 × Nat))
  | .ret (.resting registration) => some registration
  | _ => none

theorem answer_eq_some {program : Prog (State 1 1 (Fin 4) (Fin 4)) (Label 1 1)} {registration : Option (Fin 1 × Nat)} :
    answer program = some registration ↔ program = .ret (.resting registration) := by
  unfold answer
  split <;> simp_all

/-- What a registration finds: the gate and the slot, and the flag of the producer and the processes that live. -/
def survey (config : World) : List Nat × List Bool :=
  ([config.shared.registrationGate, phase (config.shared.slot sole).state, (processId (config.shared.slot sole).state).toNat,
      (config.shared.slot sole).processStart],
    [(config.shared.ring sole).claimActive, config.shared.alive 0, config.shared.alive 1, config.shared.alive 2])

theorem claimsEnded_of_sole {config : World} (clear : (config.shared.ring sole).claimActive = false) :
    ClaimsEnded fourProcesses config.shared := by
  intro producer active
  rw [Subsingleton.elim producer sole, clear] at active
  cases active

/-- The second process exits in the gate while it initializes the slot. -/
def abandonedSlot : Schedule := enter 1 ++ proceed 1 4 ++ crash 1

theorem registration_recovers_abandonedSlot : ∃ config : World,
    (system fourProcesses).Run (Spares fourProcesses) initial config ∧
      phase (config.shared.slot sole).state = kInitializing ∧
      ∃ passes final token, (system fourProcesses).calls config
          ((.client 0, .acquire .Reliable) :: proceeds 0 (fun _ => false) passes) = some final ∧
        final.thread (.client 0) = .ret (.resting (some (sole, token))) ∧ (final.shared.slot sole).processStart = 10 := by
  have executed : ((system fourProcesses).execChecked (fun config event => decide (Spares fourProcesses config event)) initial
      abandonedSlot).map (fun config : World => (answer (config.thread (.client 0)), survey config)) =
        some (some none, [19, kInitializing, 2, 0], [false, true, false, true]) := by
    decide
  obtain ⟨config, final, facts⟩ := Option.map_eq_some_iff.mp executed
  simp only [survey, Prod.mk.injEq, List.cons.injEq] at facts
  obtain ⟨resting, ⟨gate, stage, named, -⟩, claims, lives, dead, -⟩ := facts
  have run : (system fourProcesses).Run (Spares fourProcesses) initial config :=
    System.run_of_execChecked (fun _ _ => of_decide_eq_true) abandonedSlot .refl final
  have exited (word : Nat) (id : processId word = 2) (process : Fin 4)
      (found : process ∈ fourProcesses.processOf (processId word)) : config.shared.alive process = false := by
    rw [id, show fourProcesses.processOf 2 = some 1 from by decide] at found
    exact Option.some.inj found ▸ dead
  obtain ⟨passes, after, registration, called, rests, recovered⟩ := registration_recovers run 0 .Reliable (fun _ => false)
    (answer_eq_some.mp resting) lives (exited _ (by rw [gate]; decide)) (claimsEnded_of_sole claims) fun pass => ⟨pass, le_rfl, rfl⟩
  have free : Takeable fourProcesses config.shared sole := .inr (exited _ (UInt32.toNat_inj.mp named))
  obtain ⟨⟨consumer, token⟩, rfl⟩ := Option.ne_none_iff_exists'.mp (recovered.found.mpr ⟨sole, free⟩)
  obtain rfl := Subsingleton.elim consumer sole
  exact ⟨config, run, stage, passes, after, token, called, rests, by rw [(recovered.acquired _ _ rfl).2.slot]; rfl⟩

/-- The last process exits with the slot. Two clients reclaim it at once: the gate of the first is cleared with the start token
of a third owner. The first client then writes its start token into the slot of the second, and exits. -/
def stolenSlot : Schedule :=
  enter 3 ++ proceed 3 19 ++ enter 0 ++
    .start (.client 1) (.acquire .Reliable) :: proceed 1 1 ++ proceed 0 4 ++
    .start (.client 2) (.acquire .Reliable) :: proceed 2 3 ++ acts 1 1 ++ proceed 2 1 ++ proceed 2 4 ++
    crash 3 ++ enter 0 ++ proceed 0 4 ++ acts 1 2 ++ proceed 1 3 ++ proceed 1 1 ++ proceed 1 4 ++
    acts 0 16 ++ acts 1 33 ++ acts 0 3 ++ crash 0

/-- The client of the third process registers alone: whether it rests, and the owner of the slot. -/
def aloneOutcome (config : World) (passes : Nat) : Option (Bool × UInt32) :=
  ((system fourProcesses).calls config ((.client 2, .acquire .Reliable) :: proceeds 2 (fun _ => false) passes)).map
    fun final => ((answer (final.thread (.client 2))).isSome, processId (final.shared.slot sole).state)

theorem aloneOutcome_add {config : World} {passes : Nat} (stuck : aloneOutcome config passes = none) (more : Nat) :
    aloneOutcome config (passes + more) = none := by
  have split (passes : Nat) : proceeds (n := 1) (P := Fin 4) (2 : Fin 4) (fun _ => false) (passes + more) =
      proceeds 2 (fun _ => false) passes ++ proceeds 2 (fun _ => false) more := by
    induction passes with
    | zero => simp [proceeds]
    | succ passes ih => rw [Nat.add_right_comm, proceeds, ih, proceeds, List.cons_append]
  simp only [aloneOutcome, Option.map_eq_none_iff] at stuck ⊢
  rw [split, ← List.cons_append, System.calls_append, stuck, Option.bind_none]

set_option maxRecDepth 16384 in
/-- The client of the third process takes the slot of the second, which lives. -/
theorem registration_takes_live_slot :
    ¬ ∀ config : World, (system fourProcesses).Run (Acts fourProcesses) initial config → Recovers fourProcesses config := by
  intro recovers
  have executed : ((system fourProcesses).execChecked (fun config event => decide (Acts fourProcesses config event)) initial
      stolenSlot).map (fun config : World => (answer (config.thread (.client 2)), survey config)) =
        some (some none, [0, kActive, 2, 10], [false, false, true, true]) := by
    decide
  obtain ⟨config, final, facts⟩ := Option.map_eq_some_iff.mp executed
  simp only [survey, Prod.mk.injEq, List.cons.injEq] at facts
  obtain ⟨resting, ⟨gate, stage, named, -⟩, claims, -, owner, lives, -⟩ := facts
  have run : (system fourProcesses).Run (Acts fourProcesses) initial config :=
    System.run_of_execChecked (fun _ _ => of_decide_eq_true) stolenSlot .refl final
  have ended : GateEnded fourProcesses config.shared := by
    rw [GateEnded, gate]
    exact fun process found => absurd found (by decide +revert)
  have owned : LiveOwner fourProcesses config.shared sole := by
    refine ⟨by rw [stage]; decide, 1, ?_, owner⟩
    rw [show processId (config.shared.slot sole).state = 2 from UInt32.toNat_inj.mp named]
    decide
  obtain ⟨passes, after, registration, called, rests, recovered⟩ := recovers config run 2 .Reliable (fun _ => false)
    (answer_eq_some.mp resting) lives ended (claimsEnded_of_sole claims) fun pass => ⟨pass, le_rfl, rfl⟩
  have kept : processId (after.shared.slot sole).state = 2 := by
    rw [(recovered.spared sole owned).slot]
    exact UInt32.toNat_inj.mp named
  have outcomes : ((system fourProcesses).execChecked (fun config event => decide (Acts fourProcesses config event)) initial
      stolenSlot).map (fun config => (List.range 5).map (aloneOutcome config)) =
        some [some (false, 2), some (false, 2), some (false, 2), some (true, 3), none] := by
    decide
  rw [final, Option.map_some, Option.some.injEq] at outcomes
  simp only [List.range_succ, List.range_zero, List.nil_append, List.cons_append, List.map_cons, List.map_nil, List.cons.injEq,
    and_true] at outcomes
  have found : aloneOutcome config passes = some (true, 2) := by
    rw [aloneOutcome, called, Option.map_some, kept, answer_eq_some.mpr rests, Option.isSome_some]
  by_cases few : passes < 4
  · interval_cases passes <;> simp_all
  · obtain ⟨more, rfl⟩ := Nat.exists_eq_add_of_le (Nat.le_of_not_lt few)
    rw [aloneOutcome_add outcomes.2.2.2.2] at found
    cases found

end Cases

end Salias.CrashRecovery
