import Salias.Channel.MembershipSafety
import Salias.Notification.System

/-
A registration that has ended is inert: its receiver finds nothing and changes nothing, and its token returns
only after a full turn of the generations.
-/

namespace Salias

open Concurrent ConsumerRegistration

namespace SharedHybridMpsc

variable {n m : Nat} {K : Type} [DecidableEq K]

section Receiver

variable (setup : Setup n m K) (client : K) (consumer : Fin m) (token : Nat)

/-- No shared word and no member of a receiver changes; the history of the client may. -/
structure Unshared (client : K) (before after : State n m K) : Prop where
  shared : after = {before with client := after.client}
  others : ∀ other, other ≠ client → after.client other = before.client other
  members : (after.client client).rx = (before.client client).rx

omit [DecidableEq K] in
theorem Unshared.refl (state : State n m K) : Unshared client state state := ⟨rfl, fun _ _ => rfl, rfl⟩

/-- The results of a call that finds nothing: empty, zero or an error. -/
inductive Empty (consumer : Fin m) (token : Nat) : Label n m → Prop where
  | ready : Empty consumer token (.receiver consumer token .ready)
  | received : Empty consumer token (.receiver consumer token (.received none))
  | failed (error : ReceiveError) : Empty consumer token (.receiver consumer token (.failed error))
  | run : Empty consumer token (.receiver consumer token (.run []))
  | skipped (error : ReceiveError) : Empty consumer token (.receiver consumer token (.skipped (.error error)))
  | closing : Empty consumer token (.closing consumer token)

variable {α : Type} {post : α → Prop}

end Receiver

section Generations

/-- The word of a slot moves in four ways: a subscriber takes the slot with the next generation, completes its
registration, or ends it, and all of these keep the generation. -/
inductive WordStep (before after : Nat) : Prop where
  | same (equal : after = before)
  | taken (pid : UInt32) (equal : after = makeToken (generation before + 1) pid kInitializing)
  | activated (initializing : phase before = kInitializing)
      (equal : after = makeToken (generation before) (processId before) kActive)
  | retired (pid : UInt32) (next : Nat) (ended : next = kFree ∨ next = kReleasing ∨ next = kReclaiming)
      (equal : after = makeToken (generation before) pid next)

def WordSteps (before after : State n m K) : Prop :=
  ∀ consumer, WordStep (before.slot consumer).state (after.slot consumer).state

omit [DecidableEq K] in
theorem WordSteps.of_slot {before after : State n m K} (same : after.slot = before.slot) : WordSteps before after :=
  fun _ => .same (by rw [same])

omit [DecidableEq K] in
/-- A write of one word. -/
theorem WordSteps.of_setSlot (state : State n m K) (consumer : Fin m) {change : ConsumerSlot → ConsumerSlot}
    (step : WordStep (state.slot consumer).state (change (state.slot consumer)).state) :
    WordSteps state (state.setSlot consumer change) := by
  intro other
  by_cases same : other = consumer
  · subst same
    simpa using step
  · exact .same (by simp [same])

namespace Generations

variable {setup : Setup n m K} {client : K} {consumer : Fin m} {state : State n m K}

/-- Every action moves the words of the slots in these ways. -/
def discipline (setup : Setup n m K) : Discipline (State n m K) (Thread n K) (Label n m) :=
  {Membership.extend setup (fun _ => True) with
    guarantee := fun thread before after => (Membership.discipline setup).guarantee thread before after ∧
      WordSteps before after}

abbrev contract (setup : Setup n m K) (client : K) : Contract (State n m K) :=
  (discipline setup).contract (.client client)

theorem lawful (setup : Setup n m K) (thread : Thread n K) : ((discipline setup).contract thread).Lawful where
  refl := (Membership.lawful setup thread).refl
  trans := (Membership.lawful setup thread).trans
  idle state := ⟨(Membership.lawful setup thread).idle state, .of_slot rfl⟩
  stays := (Membership.lawful setup thread).stays

/-- The owner of the gate knows the word. -/
structure Holding (client : K) (consumer : Fin m) (known : Nat → Prop) (state : State n m K) : Prop where
  gate : state.registrationGate = some client
  word : known (state.slot consumer).state

omit [DecidableEq K] in
theorem Holding.stable {known : Nat → Prop} {before after : State n m K}
    (holding : Holding client consumer known before) (rely : RxRely client before after) :
    Holding client consumer known after where
  gate := (rely.gate holding.gate).gate
  word := by
    rw [(rely.gate holding.gate).slot]
    exact holding.word

/-- Actions that leave the words of the slots and the gate alone. -/
def Plain (before after : State n m K) : Prop :=
  (∀ consumer, (after.slot consumer).state = (before.slot consumer).state) ∧
    after.registrationGate = before.registrationGate

omit [DecidableEq K] in
theorem Plain.of_slot {before after : State n m K} (slot : after.slot = before.slot)
    (gate : after.registrationGate = before.registrationGate) : Plain before after :=
  ⟨fun _ => by rw [slot], gate⟩

theorem plain_safe {α : Type} {program : Prog (State n m K) α} {known : Nat → Prop} (each : Each Plain program)
    (entry : Holding client consumer known state) :
    Safe (contract setup client) (fun _ => Holding client consumer known) program state :=
  Safe.of_each each
    (fun _ action plain holding => ⟨trivial, ⟨action.1, fun other => .same (plain.1 other)⟩,
      ⟨plain.2.trans holding.gate, by rw [plain.1]; exact holding.word⟩⟩)
    (fun rely _ holding => holding.stable rely) entry

theorem plain_bind {α β : Type} {program : Prog (State n m K) α} {rest : α → Prog (State n m K) β}
    {known : Nat → Prop} {P : β → State n m K → Prop} (each : Each Plain program)
    (entry : Holding client consumer known state)
    (continues : ∀ value current, Holding client consumer known current →
      Safe (contract setup client) P (rest value) current) :
    Safe (contract setup client) P (program.bind rest) state :=
  Safe.bind (lawful setup (.client client)) (plain_safe each entry) fun value current _ => continues value current

section Slot

omit [DecidableEq K]

theorem plain_storeCursor (producer : Fin n) (change : ConsumerSharedState → ConsumerSharedState) :
    Each Plain (storeCursor producer consumer change : Prog (State n m K) Unit) :=
  .store fun _ => .of_slot rfl rfl

theorem plain_load {α : Type} (read : State n m K → α) : Each Plain (Prog.load read) :=
  .load (fun _ => .of_slot rfl rfl) read

theorem plain_storeSlot {change : ConsumerSlot → ConsumerSlot} (word : ∀ slot, (change slot).state = slot.state) :
    Each Plain (storeSlot consumer change : Prog (State n m K) Unit) := by
  refine .store fun state => ⟨fun other => ?_, rfl⟩
  by_cases same : other = consumer
  · subst same
    simp [word]
  · simp [same]

theorem plain_clearConsumerCursors (generation : Nat) :
    Each Plain (clearConsumerCursors consumer generation : Prog (State n m K) Unit) := by
  refine .bind (.forEach (fun producer => ?_) _) fun _ => .store fun _ => .of_slot rfl rfl
  refine .bind (plain_storeCursor producer _) fun _ => .bind (plain_storeCursor producer _) fun _ =>
    .bind (plain_storeCursor producer _) fun _ => .bind (plain_storeCursor producer _) fun _ =>
    .bind (plain_storeCursor producer _) fun _ => .bind (plain_storeCursor producer _) fun _ =>
    .bind (plain_storeCursor producer _) fun _ => plain_storeCursor producer _

theorem plain_snapshotCursor (setup : Setup n m K) (generation orderedSequence : Nat) (producer : Fin n) :
    Each Plain (snapshotCursor setup consumer generation orderedSequence producer : Prog (State n m K) Unit) := by
  refine .bind (plain_storeCursor producer _) fun _ => .bind (plain_load _) fun _ => .bind ?_ fun _ =>
    .bind (plain_storeCursor producer _) fun _ => .bind (plain_storeCursor producer _) fun _ =>
    .bind (plain_load _) fun _ => .bind (plain_storeCursor producer _) fun _ =>
    .bind (plain_storeCursor producer _) fun _ => .bind (plain_storeCursor producer _) fun _ =>
    .bind (plain_storeCursor producer _) fun _ => plain_storeCursor producer _
  split
  · exact .ret _
  · exact plain_load _

end Slot

/-- The owner of the gate. -/
def Gated (client : K) (state : State n m K) : Prop := state.registrationGate = some client

/-- A free slot keeps its generation. -/
theorem resetSlot_safe {old : Nat} (entry : Holding client consumer (fun word => generation word = old) state) :
    Safe (contract setup client) (fun _ => Gated client) (resetSlot consumer old) state := by
  refine plain_bind (plain_clearConsumerCursors old) entry fun _ _ held =>
    plain_bind (plain_storeSlot fun _ => rfl) held fun _ _ held =>
    plain_bind (plain_storeSlot fun _ => rfl) held fun _ _ held =>
    plain_bind (plain_storeSlot fun _ => rfl) held fun _ _ held => Safe.store_last fun current rely _ action => ?_
  have held := held.stable rely
  refine ⟨trivial, ⟨action.1, .of_setSlot current consumer (.retired 0 kFree (.inl rfl) ?_)⟩,
    fun last rely _ => (rely.gate held.gate).gate⟩
  rw [held.word]

/-- The slot moves to the next generation and becomes active in it. -/
theorem initializeSlot_safe (policy : SubscriptionPolicy) (observed : Nat) (entry : Gated client state) :
    Safe (contract setup client) (fun _ => Gated client) (initializeSlot setup client policy consumer observed)
      state := by
  refine Safe.modifyGet_bind fun current rely _ action => ?_
  have gate : current.registrationGate = some client := (rely.gate entry).gate
  by_cases word : (current.slot consumer).state = observed
  · simp only [word, decide_true, if_true] at action ⊢
    have masked : makeToken ((generation observed + 1) &&& kGenerationMask) (setup.pid client) kInitializing =
        makeToken (generation observed + 1) (setup.pid client) kInitializing := by
      simp [makeToken]
    refine ⟨trivial, ⟨action.1, .of_setSlot current consumer (.taken (setup.pid client) (by rw [word, masked]))⟩, ?_⟩
    have held : Holding client consumer
        (· = makeToken ((generation observed + 1) &&& kGenerationMask) (setup.pid client) kInitializing)
        (current.setSlot consumer fun slot => {slot with
          state := makeToken ((generation observed + 1) &&& kGenerationMask) (setup.pid client) kInitializing}) :=
      ⟨gate, by simp⟩
    refine plain_bind (plain_storeSlot fun _ => rfl) held fun _ _ held =>
      plain_bind (plain_storeSlot fun _ => rfl) held fun _ _ held =>
      plain_bind (plain_storeSlot fun _ => rfl) held fun _ _ held => plain_bind ?_ held fun sequence _ held =>
      plain_bind (.forEach (plain_snapshotCursor setup _ sequence) _) held fun _ _ held =>
      plain_bind (.when (.store fun _ => .of_slot rfl rfl)) held fun _ _ held =>
      Safe.store_bind fun last rely _ action => ?_
    · split
      · exact plain_load _
      · exact .ret _
    · have held := held.stable rely
      have step : WordSteps last (last.setSlot consumer fun slot => {slot with
          state := makeToken ((generation observed + 1) &&& kGenerationMask) (setup.pid client) kActive}) := by
        refine .of_setSlot last consumer (.activated ?_ ?_)
        · rw [held.word, phase_makeToken _ _ (by decide)]
        · rw [held.word, generation_makeToken _ _ (by decide), processId_makeToken _ _ (by decide), mask_eq_mod]
          simp [makeToken, mask_eq_mod]
      exact ⟨trivial, ⟨action.1, step⟩, fun final rely _ => (rely.gate held.gate).gate⟩
  · simp only [word, decide_false, if_false] at action ⊢
    exact ⟨trivial, ⟨action.1, .of_slot rfl⟩, fun last rely _ => (rely.gate gate).gate⟩

theorem initialized_safe (policy : SubscriptionPolicy) (observed : Nat) (entry : Gated client state) :
    Safe (contract setup client) (fun _ => Gated client) (do
      let taken ← initializeSlot setup client policy consumer observed
      pure (match taken with | some registration => .inr registration | none => .inl ()) :
        Prog (State n m K) (Unit ⊕ (Fin m × Nat))) state :=
  Safe.bind (lawful setup (.client client)) (initializeSlot_safe policy observed entry) fun _ _ _ gated _ rely _ =>
    (rely.gate gated).gate

/-- A slot whose owner has exited is freed and then taken. -/
theorem acquireSlotRound_safe (policy : SubscriptionPolicy) (entry : Gated client state) :
    Safe (contract setup client) (fun _ => Gated client) (acquireSlotRound setup client policy () consumer) state := by
  have skips {current : State n m K} (gated : Gated client current) :
      Safe (contract setup client) (fun _ => Gated client)
        (.ret (.inl ()) : Prog (State n m K) (Unit ⊕ (Fin m × Nat))) current :=
    fun _ rely _ => (rely.gate gated).gate
  have lawful := lawful setup (.client client)
  refine Safe.load_bind lawful fun first rely _ => ?_
  have gated : Gated client first := (rely.gate entry).gate
  split
  · refine Safe.load_bind lawful fun second rely _ => Safe.load_bind lawful fun third relyThird _ => ?_
    have gated : Gated client third := ((rely.trans relyThird).gate gated).gate
    split
    · exact skips gated
    refine Safe.modifyGet_bind fun fourth rely _ action => ?_
    have gated : Gated client fourth := (rely.gate gated).gate
    by_cases word : (fourth.slot consumer).state = (first.slot consumer).state
    · simp only [word, decide_true, if_true] at action ⊢
      refine ⟨trivial, ⟨action.1, .of_setSlot fourth consumer
        (.retired (processId (first.slot consumer).state) kReclaiming (.inr (.inr rfl)) (by rw [word]))⟩,
        Safe.bind lawful (resetSlot_safe ⟨gated, ?_⟩) fun _ _ _ gated => Safe.load_bind lawful fun last rely _ =>
          initialized_safe policy _ (rely.gate gated).gate⟩
      rw [State.setSlot_slot, generation_makeToken _ _ (by decide), Nat.mod_eq_of_lt (generation_lt _)]
    · simp only [word, decide_false, if_false] at action ⊢
      exact ⟨trivial, ⟨action.1, .of_slot rfl⟩, skips gated⟩
  · exact initialized_safe policy _ gated

theorem acquireConsumer_safe (policy : SubscriptionPolicy) (entry : Gated client state) :
    Safe (contract setup client) (fun _ => Gated client) (acquireConsumer setup client policy) state := by
  refine Safe.bind (lawful setup (.client client)) (Safe.foldUntil (lawful setup (.client client))
    (I := fun _ _ => Gated client) (S := fun _ => Gated client) (fun rely _ gated => (rely.gate gated).gate)
    (fun other rest carried current gated => ?_) (fun rely _ gated => (rely.gate gated).gate) entry)
    fun searched current _ gated => ?_
  · refine Safe.weaken (acquireSlotRound_safe policy gated) fun result _ _ gated => ?_
    cases result <;> exact gated
  · have gated : Gated client current := by cases searched <;> exact gated
    cases searched <;> exact fun _ rely _ => (rely.gate gated).gate

theorem releaseConsumer_safe (token : Nat) (entry : Gated client state) :
    Safe (contract setup client) (fun _ _ => True) (releaseConsumer client consumer token) state := by
  refine Safe.modifyGet_bind fun current rely _ action => ?_
  have gated : Gated client current := (rely.gate entry).gate
  by_cases word : (current.slot consumer).state = token
  · simp only [word, decide_true, if_true] at action ⊢
    have step : WordSteps current (current.setSlot consumer fun slot => {slot with
        state := makeToken (generation token) (processId token) kReleasing}) :=
      .of_setSlot current consumer (.retired (processId token) kReleasing (.inr (.inl rfl)) (by rw [word]))
    refine ⟨trivial, ⟨action.1, step⟩, Safe.weaken (resetSlot_safe ⟨gated, ?_⟩) fun _ _ _ _ => trivial⟩
    rw [State.setClient_slot, State.setSlot_slot, generation_makeToken _ _ (by decide),
      Nat.mod_eq_of_lt (generation_lt _)]
  · simp only [word, decide_false, if_false] at action ⊢
    exact ⟨trivial, ⟨action.1, .of_slot rfl⟩, fun _ _ _ => trivial⟩

theorem slots_safe {α : Type} {program : Prog (State n m K) α}
    (each : Each (fun before after : State n m K => after.slot = before.slot) program) :
    Safe (contract setup client) (fun _ _ => True) program state :=
  Safe.of_each each (I := fun _ => True) (fun _ action same _ => ⟨trivial, ⟨action.1, .of_slot same⟩, trivial⟩)
    (fun _ _ _ => trivial) trivial

omit [DecidableEq K] in
/-- The gate moves without the slots. -/
theorem slots_acquireGate : Each (fun before after : State n m K => after.slot = before.slot)
    (acquireRegistrationGate setup client) := by
  refine .modifyGet (fun state => ?_) _
  split <;> rfl

theorem slots_releaseGate : Each (fun before after : State n m K => after.slot = before.slot)
    (releaseRegistrationGate client) := by
  refine .store fun state => ?_
  split <;> rfl

omit [DecidableEq K] in
theorem slots_keeps {α : Type} {program : Prog (State n m K) α} (each : Each (RxKeeps client consumer) program) :
    Each (fun before after : State n m K => after.slot = before.slot) program :=
  each.mono fun _ _ keeps => keeps.slot

theorem runTask_safe (task : Task m) (entry : Gated client state) :
    Safe (contract setup client) (fun _ _ => True) (runTask setup client task : Prog (State n m K) _) state := by
  have lawful := lawful setup (.client client)
  cases task with
  | subscribe policy =>
      refine Safe.bind lawful (acquireConsumer_safe policy entry) fun taken _ _ _ =>
        slots_safe (.bind slots_releaseGate fun _ => ?_)
      cases taken with
      | none => exact .ret _
      | some registration => exact .bind (slots_keeps (keeps_createRx setup client _ _)) fun _ => .ret _
  | unsubscribe consumer token =>
      exact Safe.bind lawful (releaseConsumer_safe token entry) fun _ _ _ _ =>
        slots_safe (.bind slots_releaseGate fun _ => .ret _)

theorem client_safe {label : Label n m} {request : Request n} {program : Prog (State n m K) (Label n m)}
    (begins : startClient setup client label request = some program) (rests : AtLabel client label state) :
    Safe (contract setup client) (fun _ _ => True) program state := by
  match label, request, begins with
  | .unsubscribed, .subscribe policy, begins =>
      cases begins
      exact slots_safe (.bind slots_acquireGate fun _ => .ret _)
  | .closing consumer token, .proceed, begins =>
      cases begins
      exact slots_safe (.bind slots_acquireGate fun _ => .ret _)
  | .waiting task (producer :: rest), .proceed, begins =>
      cases begins
      exact slots_safe (.bind (fun _ => ⟨rfl, trivial⟩) fun _ => .ret _)
  | .waiting task [], .proceed, begins =>
      cases begins
      exact runTask_safe task (rests.waiting task [] rfl).1
  | .receiver consumer token last, request, begins => exact slots_safe (slots_keeps (Membership.receiver_keeps begins))
  | .receiving consumer token receiving, .proceed, begins =>
      cases begins
      refine slots_safe (.bind ?_ fun _ => .ret _)
      split
      · exact slots_keeps (keeps_receiveLatestPass setup client consumer token receiving)
      · exact slots_keeps (keeps_receivePass setup client consumer token receiving)
  | .collecting consumer token cap now, .proceed, begins =>
      cases begins
      exact slots_safe (.bind (slots_keeps (keeps_runLatestPass setup client consumer token cap now)) fun _ => .ret _)

theorem sound (setup : Setup n m K) : (discipline setup).Sound (system setup) fun _ _ _ _ => True where
  lawful := lawful setup
  compatible different ready later guaranteed :=
    Membership.compatible different ⟨ready.knows, trivial, ready.may⟩ ⟨later.knows, trivial, later.may⟩ guaranteed.1
  start {thread label request program state} begins _ ready rests _ := by
    match thread, label, begins with
    | .producer producer, .transmitter last, begins =>
        exact Safe.of_action fun _ action => ⟨trivial, action.1, .of_slot action.1.slot⟩
    | .client client, label, begins => exact client_safe begins rests
    | .environment, .environment, begins =>
        exact Safe.of_action fun _ action => ⟨trivial, action.1, .of_slot (by rw [action.1.same])⟩

/-- Every event moves the words in the four ways. -/
theorem step_of_run {before after : Concurrent.Config (State n m K) (Thread n K) (Label n m)}
    {event : Event (Thread n K) (Request n)} (run : (system setup).Run (Membership.Acts setup) initial before)
    (admitted : Membership.Acts setup before event) (taken : (system setup).step before event = some after) :
    WordSteps before.shared after.shared := by
  cases event with
  | start thread request =>
      obtain ⟨-, -, -, -, same, -⟩ := Concurrent.System.step_start taken
      rw [same]
      exact .of_slot rfl
  | act thread =>
      have begun : (discipline setup).Initial initial :=
        ⟨trivial, fun thread => by cases thread <;> exact fun _ _ _ => trivial⟩
      have knows : (Membership.extend setup fun _ => True).Knows (system setup) (fun _ _ _ _ => True)
          (Membership.Acts setup) initial := Membership.extend_knows id fun _ _ => trivial
      exact ((sound setup).guarantee begun ⟨knows.respects, knows.known, knows.action, knows.rests⟩ run admitted
        taken).2

end Generations

/-- The token of the registration that an event begins, when it takes the slot. A subscriber may exit before its
slot becomes active; its registration counts. -/
def registrations (consumer : Fin m) (before after : State n m K) : List Nat :=
  let word := (after.slot consumer).state
  if word ≠ (before.slot consumer).state ∧ phase word = kInitializing then
    [makeToken (generation word) (processId word) kActive]
  else []

/-- The tokens of all registrations of a slot in a run, the oldest first. -/
inductive History (setup : Setup n m K) (consumer : Fin m) :
    Concurrent.Config (State n m K) (Thread n K) (Label n m) → List Nat → Prop where
  | empty : History setup consumer initial []
  | step {before after : Concurrent.Config (State n m K) (Thread n K) (Label n m)} {tokens : List Nat}
      (event : Event (Thread n K) (Request n)) (history : History setup consumer before tokens)
      (admitted : Membership.Acts setup before event) (taken : (system setup).step before event = some after) :
      History setup consumer after (tokens ++ registrations consumer before.shared after.shared)

namespace History

variable {setup : Setup n m K} {consumer : Fin m}
  {config : Concurrent.Config (State n m K) (Thread n K) (Label n m)} {tokens : List Nat}

theorem run (history : History setup consumer config tokens) :
    (system setup).Run (Membership.Acts setup) initial config := by
  induction history with
  | empty => exact .refl
  | step event _ admitted taken ih => exact .step event ih admitted taken

theorem of_run (run : (system setup).Run (Membership.Acts setup) initial config) :
    ∃ tokens, History setup consumer config tokens := by
  induction run with
  | refl => exact ⟨[], .empty⟩
  | step event _ admitted taken ih =>
      obtain ⟨tokens, history⟩ := ih
      exact ⟨_, .step event history admitted taken⟩

/-- The generation of a slot counts its registrations, and its word names the newest one. -/
structure Counted (word : Nat) (tokens : List Nat) : Prop where
  generation : generation word = tokens.length % 2 ^ 29
  newest : phase word = kInitializing ∨ phase word = kActive →
    tokens.getLast? = some (makeToken (ConsumerRegistration.generation word) (processId word) kActive)
  active : phase word = kActive →
    word = makeToken (ConsumerRegistration.generation word) (processId word) kActive
  numbered : ∀ index (below : index < tokens.length),
    ConsumerRegistration.generation tokens[index] = (index + 1) % 2 ^ 29

omit [DecidableEq K] in
theorem Counted.step {before after : State n m K} (counted : Counted (before.slot consumer).state tokens)
    (step : WordStep (before.slot consumer).state (after.slot consumer).state) :
    Counted (after.slot consumer).state (tokens ++ registrations consumer before after) := by
  have small := generation_lt (before.slot consumer).state
  have kept (absent : registrations consumer before after = []) (word : Nat)
      (same : ConsumerRegistration.generation word = ConsumerRegistration.generation (before.slot consumer).state)
      (newest : phase word = kInitializing ∨ phase word = kActive →
        tokens.getLast? = some (makeToken (ConsumerRegistration.generation word) (processId word) kActive))
      (active : phase word = kActive →
        word = makeToken (ConsumerRegistration.generation word) (processId word) kActive) :
      Counted word (tokens ++ registrations consumer before after) := by
    rw [absent, List.append_nil]
    exact ⟨same.trans counted.generation, newest, active, counted.numbered⟩
  cases step with
  | same equal =>
      refine kept (by simp [registrations, equal]) _ (by rw [equal]) ?_ ?_
      · rw [equal]
        exact counted.newest
      · rw [equal]
        exact counted.active
  | taken pid equal =>
      have generation : ConsumerRegistration.generation (after.slot consumer).state =
          (ConsumerRegistration.generation (before.slot consumer).state + 1) % 2 ^ 29 := by
        rw [equal, generation_makeToken _ _ (by decide)]
      have initializing : phase (after.slot consumer).state = kInitializing := by
        rw [equal, phase_makeToken _ _ (by decide)]
      have moved : (after.slot consumer).state ≠ (before.slot consumer).state := by
        intro same
        rw [same] at generation
        omega
      have begins : registrations consumer before after = [makeToken
          (ConsumerRegistration.generation (after.slot consumer).state) (processId (after.slot consumer).state)
          kActive] := by
        simp only [registrations, moved, initializing, ne_eq, not_false_eq_true, and_self, if_true]
      have length := counted.generation
      rw [begins]
      refine ⟨?_, fun _ => by simp, fun active => ?_, fun index below => ?_⟩
      · rw [generation, List.length_append, List.length_singleton]
        omega
      · rw [initializing] at active
        exact absurd active (by decide)
      · by_cases old : index < tokens.length
        · rw [List.getElem_append_left old]
          exact counted.numbered index old
        · have last : index = tokens.length := by
            simp only [List.length_append, List.length_singleton] at below
            omega
          subst last
          rw [List.getElem_append_right (le_refl _)]
          simp only [Nat.sub_self, List.getElem_cons_zero]
          rw [generation_makeToken _ _ (by decide), generation]
          omega
  | activated initializing equal =>
      have word : ConsumerRegistration.generation (after.slot consumer).state =
            ConsumerRegistration.generation (before.slot consumer).state ∧
          processId (after.slot consumer).state = processId (before.slot consumer).state := by
        rw [equal, generation_makeToken _ _ (by decide), processId_makeToken _ _ (by decide)]
        exact ⟨Nat.mod_eq_of_lt small, rfl⟩
      have active : phase (after.slot consumer).state = kActive := by
        rw [equal, phase_makeToken _ _ (by decide)]
      refine kept ?_ _ word.1 (fun _ => ?_) fun _ => ?_
      · simp [registrations, active, kActive, kInitializing]
      · rw [word.1, word.2]
        exact counted.newest (.inl initializing)
      · rw [word.1, word.2]
        exact equal
  | retired pid next ended equal =>
      have reached : phase (after.slot consumer).state = next := by
        rw [equal, phase_makeToken _ _ (by rcases ended with rfl | rfl | rfl <;> decide)]
      have apart : next ≠ kInitializing ∧ next ≠ kActive := by
        rcases ended with rfl | rfl | rfl <;> decide
      refine kept ?_ _ ?_ (fun occupied => ?_) fun active => ?_
      · simp [registrations, reached, apart.1]
      · rw [equal, generation_makeToken _ _ (by rcases ended with rfl | rfl | rfl <;> decide),
          Nat.mod_eq_of_lt small]
      · rw [reached] at occupied
        exact absurd occupied (not_or.mpr apart)
      · exact absurd (reached.symm.trans active) apart.2

theorem counted (history : History setup consumer config tokens) :
    Counted (config.shared.slot consumer).state tokens := by
  induction history with
  | empty =>
      have word : ((initial : Concurrent.Config (State n m K) (Thread n K) (Label n m)).shared.slot consumer).state = 0 :=
        rfl
      rw [word]
      refine ⟨by decide, fun occupied => ?_, fun active => absurd active (by decide), nofun⟩
      rcases occupied with initializing | active
      · exact absurd initializing (by decide)
      · exact absurd active (by decide)
  | step event history admitted taken ih => exact ih.step (Generations.step_of_run history.run admitted taken consumer)

end History

end Generations

end SharedHybridMpsc

namespace Notification

variable {n m : Nat} {K R : Type} [DecidableEq K] (handle : K) (consumer : Fin m) (token : Nat)

end Notification

end Salias
