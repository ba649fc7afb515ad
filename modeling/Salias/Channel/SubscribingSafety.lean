import Salias.Channel.Subscribing

/-
The steps of a registration: the gate, the search for a slot, the snapshot of all producers, the activation.
-/

namespace Salias.SharedHybridMpsc

open Concurrent Salias.Frame ConsumerRegistration

variable {n m : Nat} {K : Type}

/-- The words that a registration reads and writes. -/
structure SlotView (n m : Nat) where
  slot : ConsumerSlot
  cursor : Fin n → ConsumerSharedState
  expected : Nat
  tally : Fin n → Tally
  globalSequence : Nat

def SlotView.setCursor (view : SlotView n m) (producer : Fin n)
    (change : ConsumerSharedState → ConsumerSharedState) : SlotView n m :=
  {view with cursor := Function.update view.cursor producer (change (view.cursor producer))}

def State.view (state : State n m K) (consumer : Fin m) : SlotView n m where
  slot := state.slot consumer
  cursor := fun producer => state.cursor producer consumer
  expected := state.consumerSequences consumer
  tally := state.tally
  globalSequence := state.globalSequence

/-- The client owns the gate, no claim is under way, and the client has no slot yet. -/
structure Inside (client : K) (state : State n m K) : Prop where
  registering : Registering client state
  unregistered : (state.client client).registration = none

/-- The client rewrites a slot that nobody owns. -/
structure Rewriting (client : K) (consumer : Fin m) (holds : SlotView n m → Prop) (state : State n m K) : Prop where
  inside : Inside client state
  inactive : ¬ state.slotActive consumer
  holds : holds (state.view consumer)

section Stable

variable {client : K} {consumer : Fin m} {holds : SlotView n m → Prop} {before after : State n m K}

theorem Registering.stable (registering : Registering client before) (rely : RxRely client before after) :
    Registering client after :=
  ⟨(rely.gate registering.1).gate, (rely.gate registering.1).unclaimed registering.2⟩

theorem Inside.stable (inside : Inside client before) (rely : RxRely client before after) : Inside client after :=
  ⟨inside.registering.stable rely, by rw [rely.same]; exact inside.unregistered⟩

theorem Registering.slot (registering : Registering client before) (rely : RxRely client before after) :
    after.slot = before.slot := (rely.gate registering.1).slot

theorem Rewriting.view (rewriting : Rewriting client consumer holds before) (rely : RxRely client before after) :
    after.view consumer = before.view consumer := by
  have registering := rewriting.inside.registering
  have gate := rely.gate registering.1
  obtain ⟨global, progress⟩ := gate.frozen registering.2
  obtain ⟨cursor, expected⟩ := progress consumer rewriting.inactive
  have tally : after.tally = before.tally := by
    funext producer
    exact (gate.claims producer (registering.2 producer)).2
  simp only [State.view, gate.slot, cursor, expected, tally, global]

theorem Rewriting.stable (rewriting : Rewriting client consumer holds before) (rely : RxRely client before after) :
    Rewriting client consumer holds after where
  inside := rewriting.inside.stable rely
  inactive := by
    rw [State.slotActive, rewriting.inside.registering.slot rely]
    exact rewriting.inactive
  holds := rewriting.view rely ▸ rewriting.holds

theorem Rewriting.mono {wider : SlotView n m → Prop} (rewriting : Rewriting client consumer holds before)
    (implied : ∀ view, holds view → wider view) : Rewriting client consumer wider before :=
  ⟨rewriting.inside, rewriting.inactive, implied _ rewriting.holds⟩

theorem SlotKeeps.rewriting {later : SlotView n m → Prop} (keeps : SlotKeeps consumer before after)
    (rewriting : Rewriting client consumer holds before)
    (reached : holds (before.view consumer) → later (after.view consumer)) :
    Rewriting client consumer later after where
  inside := ⟨keeps.registering rewriting.inside.registering, by
    rw [keeps.client]
    exact rewriting.inside.unregistered⟩
  inactive := keeps.inactive rewriting.inactive
  holds := reached rewriting.holds

end Stable

namespace Membership

variable [DecidableEq K] {setup : Setup n m K} {client : K} {consumer : Fin m} {state : State n m K}

/-- The contract of a subscriber. -/
abbrev rxContract (setup : Setup n m K) (client : K) : Contract (State n m K) :=
  (discipline setup).contract (.client client)

theorem rxLawful (setup : Setup n m K) (client : K) : (rxContract setup client).Lawful :=
  lawful setup (.client client)

/-- The label of a subscriber between its calls. -/
def Registered (client : K) (consumer : Fin m) (token : Nat) (state : State n m K) : Prop :=
  (state.client client).registration = some (consumer, token)

omit [DecidableEq K] in
theorem Registered.stable {token : Nat} {before after : State n m K} (registered : Registered client consumer token before)
    (rely : RxRely client before after) : Registered client consumer token after := by
  rw [Registered, rely.same]
  exact registered

theorem rx_keeps_safe {α : Type} {token : Nat} {program : Prog (State n m K) α}
    (each : Each (RxKeeps client consumer) program) (entry : Registered client consumer token state) :
    Safe (rxContract setup client) (fun _ => Registered client consumer token) program state :=
  Safe.of_each each
    (fun ready _ keeps registered => ⟨keeps.membership ready.keeps, keeps.step registered,
      keeps.registration.trans registered⟩)
    (fun rely _ registered => registered.stable rely) entry

section Rewrite

variable {holds later : SlotView n m → Prop} {α : Type}

/-- One store to a slot without an owner. -/
theorem rewrite_store {update : State n m K → State n m K} {rest : Unit → Prog (State n m K) α}
    {P : α → State n m K → Prop} (entry : Rewriting client consumer holds state)
    (keeps : ∀ state, SlotKeeps consumer state (update state))
    (reached : ∀ state, holds (state.view consumer) → later ((update state).view consumer))
    (continues : ∀ state, Rewriting client consumer later state → Safe (rxContract setup client) P (rest ()) state) :
    Safe (rxContract setup client) P ((Prog.store update).bind rest) state := by
  refine Safe.store_bind fun current rely ready _ => ?_
  have held := entry.stable rely
  exact ⟨(keeps current).membership held.inactive ready.keeps,
    (keeps current).step held.inside.registering held.inactive,
    continues _ ((keeps current).rewriting held (reached current))⟩

/-- One load under the gate reads words that stay. -/
theorem rewrite_load {β : Type} {read : State n m K → β} {rest : β → Prog (State n m K) α}
    {P : α → State n m K → Prop} (entry : Rewriting client consumer holds state)
    (continues : ∀ current, Rewriting client consumer holds current →
      Safe (rxContract setup client) P (rest (read current)) current) :
    Safe (rxContract setup client) P ((Prog.load read).bind rest) state :=
  Safe.load_bind (rxLawful setup client) fun current rely _ => continues current (entry.stable rely)

theorem rewrite_safe {program : Prog (State n m K) α} (each : Each (SlotKeeps consumer) program)
    (entry : Rewriting client consumer (fun _ => True) state) :
    Safe (rxContract setup client) (fun _ => Rewriting client consumer fun _ => True) program state :=
  Safe.of_each each
    (fun ready _ keeps held => ⟨keeps.membership held.inactive ready.keeps,
      keeps.step held.inside.registering held.inactive, keeps.rewriting held fun _ => trivial⟩)
    (fun rely _ held => held.stable rely) entry

end Rewrite

section Snapshot

omit [DecidableEq K] in
theorem view_setCursor (state : State n m K) (producer : Fin n) (change : ConsumerSharedState → ConsumerSharedState) :
    (state.setCursor producer consumer change).view consumer = (state.view consumer).setCursor producer change := by
  have tally : (state.setCursor producer consumer change).tally = state.tally := by
    funext other
    exact tally_congr rfl (by simp)
  simp only [State.view, SlotView.setCursor, tally, SlotView.mk.injEq, true_and]
  refine ⟨rfl, ?_, rfl, rfl⟩
  funext other
  by_cases same : other = producer
  · subst same
    simp
  · rw [Function.update_of_ne same, State.setCursor_cursor_of_ne _ _ _ _ _ _ (.inl same)]

omit [DecidableEq K] in
theorem view_setSlot (state : State n m K) (change : ConsumerSlot → ConsumerSlot) :
    (state.setSlot consumer change).view consumer =
      {state.view consumer with slot := change (state.slot consumer)} := by
  simp only [State.view, State.setSlot_slot, SlotView.mk.injEq, true_and]
  exact ⟨rfl, rfl, rfl, rfl⟩

variable {α : Type} {P : α → State n m K → Prop} {view : SlotView n m}

theorem storeCursor_safe {producer : Fin n} {change : ConsumerSharedState → ConsumerSharedState}
    {rest : Unit → Prog (State n m K) α} (entry : Rewriting client consumer (· = view) state)
    (continues : ∀ state, Rewriting client consumer (· = view.setCursor producer change) state →
      Safe (rxContract setup client) P (rest ()) state) :
    Safe (rxContract setup client) P ((storeCursor producer consumer change).bind rest) state :=
  rewrite_store entry (fun state => .of_setCursor consumer state producer change)
    (fun state same => by rw [view_setCursor, same]) continues

theorem storeCursor_last {producer : Fin n} {change : ConsumerSharedState → ConsumerSharedState}
    (entry : Rewriting client consumer (· = view) state) : Safe (rxContract setup client)
      (fun _ => Rewriting client consumer (· = view.setCursor producer change))
      (storeCursor producer consumer change) state := by
  intro current rely ready _
  have held := entry.stable rely
  have keeps := SlotKeeps.of_setCursor consumer current producer change
  refine ⟨keeps.membership held.inactive ready.keeps, keeps.step held.inside.registering held.inactive, ?_⟩
  have reached : Rewriting client consumer (· = view.setCursor producer change)
      (current.setCursor producer consumer change) :=
    keeps.rewriting held fun same => by rw [view_setCursor, same]
  exact fun _ rely _ => reached.stable rely

theorem storeSlot_safe {change : ConsumerSlot → ConsumerSlot} {rest : Unit → Prog (State n m K) α}
    (inactive : ∀ slot, phase slot.state ≠ kActive → phase (change slot).state ≠ kActive)
    (entry : Rewriting client consumer (· = view) state)
    (continues : ∀ state, Rewriting client consumer (· = {view with slot := change view.slot}) state →
      Safe (rxContract setup client) P (rest ()) state) :
    Safe (rxContract setup client) P ((storeSlot consumer change).bind rest) state :=
  rewrite_store entry (fun state => .of_setSlot consumer state change (inactive _))
    (fun state same => by
      rw [view_setSlot, ← same]
      rfl) continues

/-- The snapshot of one producer is its announcement, whatever the cursor held before. -/
theorem snapshotCursor_safe (next orderedSequence : Nat) (producer : Fin n)
    (ordered : setup.mode.ordered = true → orderedSequence = view.globalSequence)
    (entry : Rewriting client consumer (· = view) state) :
    Safe (rxContract setup client)
      (fun _ => Rewriting client consumer (· = view.setCursor producer fun _ =>
        announcedCursor setup.mode.ordered next view.globalSequence (view.tally producer)))
      (snapshotCursor setup consumer next orderedSequence producer) state := by
  refine storeCursor_safe entry fun state held => rewrite_load held fun first held => ?_
  have position : (first.ring producer).reservationPosition = (view.tally producer).announcedPosition :=
    congrArg (fun view : SlotView n m => (view.tally producer).announcedPosition) held.holds
  rw [position]
  have tail (sequence : Nat) (word : sequence = if setup.mode.ordered then view.globalSequence
      else (view.tally producer).announcedSequence) (state : State n m K)
      (held : Rewriting client consumer (· = view.setCursor producer fun cursor =>
        {cursor with generation := next}) state) : Safe (rxContract setup client)
          (fun _ => Rewriting client consumer (· = view.setCursor producer fun _ =>
            announcedCursor setup.mode.ordered next view.globalSequence (view.tally producer))) (do
      storeCursor producer consumer fun cursor => {cursor with position := (view.tally producer).announcedPosition}
      storeCursor producer consumer fun cursor => {cursor with sequence := sequence}
      let messageSequence ← .load fun state => (state.ring producer).reservationMessageSequence
      storeCursor producer consumer fun cursor => {cursor with messageSequence := messageSequence}
      storeCursor producer consumer fun cursor => {cursor with leaseStart := kNoLease, leaseStage := .none}
      storeCursor producer consumer fun cursor => {cursor with leaseEnd := 0}
      storeCursor producer consumer fun cursor => {cursor with laggedMessages := 0}
      storeCursor producer consumer fun cursor => {cursor with skippedMessages := 0}) state := by
    refine storeCursor_safe held fun state held => storeCursor_safe held fun state held =>
      rewrite_load held fun second held => ?_
    have messages : (second.ring producer).reservationMessageSequence = (view.tally producer).announcedMessages :=
      congrArg (fun view : SlotView n m => (view.tally producer).announcedMessages) held.holds
    rw [messages]
    refine storeCursor_safe held fun state held => storeCursor_safe held fun state held =>
      storeCursor_safe held fun state held => storeCursor_safe held fun state held => ?_
    refine Safe.weaken (storeCursor_last held) fun _ current _ held =>
      ⟨held.inside, held.inactive, held.holds.trans ?_⟩
    simp [SlotView.setCursor, announcedCursor, word]
  split
  · rename_i isOrdered
    exact tail orderedSequence (by rw [if_pos isOrdered]; exact ordered isOrdered) first held
  · rename_i fifo
    refine rewrite_load held fun second held => tail _ ?_ second held
    rw [if_neg fifo]
    exact congrArg (fun view : SlotView n m => (view.tally producer).announcedSequence) held.holds

/-- The whole snapshot: every cursor of the slot starts at the announcement of its producer. -/
def Snapped (ordered : Bool) (next : Nat) (entry : SlotView n m) (remaining : List (Fin n))
    (view : SlotView n m) : Prop :=
  view.slot = entry.slot ∧ view.tally = entry.tally ∧ view.globalSequence = entry.globalSequence ∧
    ∀ producer, producer ∉ remaining →
      view.cursor producer = announcedCursor ordered next entry.globalSequence (entry.tally producer)

theorem snapshot_safe (next orderedSequence : Nat)
    (ordered : setup.mode.ordered = true → orderedSequence = view.globalSequence)
    (entry : Rewriting client consumer (· = view) state) :
    Safe (rxContract setup client)
      (fun _ => Rewriting client consumer (Snapped setup.mode.ordered next view []))
      (.forEach (snapshotCursor setup consumer next orderedSequence) (List.finRange n)) state := by
  refine Safe.forEach (rxLawful setup client)
    (I := fun remaining => Rewriting client consumer (Snapped setup.mode.ordered next view remaining))
    (fun rely _ held => held.stable rely) (fun producer rest current held => ?_) (entry.mono ?_)
  · obtain ⟨slot, tally, global, done⟩ := held.holds
    have entry : Rewriting client consumer (· = current.view consumer) current := ⟨held.inside, held.inactive, rfl⟩
    refine Safe.weaken (snapshotCursor_safe next orderedSequence producer
      (fun isOrdered => (ordered isOrdered).trans global.symm) entry) fun _ later _ held =>
        ⟨held.inside, held.inactive, ?_⟩
    rw [held.holds]
    refine ⟨slot, tally, global, fun other absent => ?_⟩
    by_cases same : other = producer
    · subst same
      simp [SlotView.setCursor, global, tally]
    · simp only [SlotView.setCursor, Function.update_of_ne same]
      exact done other (by simp [same, absent])
  · rintro - rfl
    exact ⟨rfl, rfl, rfl, fun producer absent => absurd (List.mem_finRange producer) absent⟩

end Snapshot

section Acquire

/-- The slot that is about to become active. -/
structure Prepared (setup : Setup n m K) (client : K) (next : Nat) (view : SlotView n m) : Prop where
  pid : view.slot.pid = setup.pid client
  processStart : view.slot.processStart = setup.processStart client
  cursor : ∀ producer, view.cursor producer =
    announcedCursor setup.mode.ordered next view.globalSequence (view.tally producer)
  expected : setup.mode.ordered = true → view.expected = view.globalSequence

omit [DecidableEq K] in
theorem generation_masked (generation : Nat) (pid : UInt32) :
    ConsumerRegistration.generation (makeToken (generation &&& kGenerationMask) pid kActive) =
      generation &&& kGenerationMask := by
  have masked : generation &&& kGenerationMask = generation % 2 ^ 29 :=
    Nat.and_two_pow_sub_one_eq_mod generation 29
  rw [generation_makeToken _ _ (by decide), masked]
  omega

/-- The state after the activation of a slot. -/
def activated (state : State n m K) (client : K) (consumer : Fin m) (active : Nat) : State n m K :=
  (state.setSlot consumer fun slot => {slot with state := active}).setClient client fun _ =>
    {registration := some (consumer, active)
     registeredAt := fun producer => (state.ring producer).frames.length}

theorem registered_activated (state : State n m K) (active : Nat) :
    Registered client consumer active (activated state client consumer active) := by
  simp [Registered, activated]

/-- A prepared slot becomes active in one step, and it is fresh after this step. -/
theorem activate_keeps {generation : Nat}
    (held : Rewriting client consumer (Prepared setup client (generation &&& kGenerationMask)) state)
    (membership : Membership setup state) :
    Membership setup (activated state client consumer
        (makeToken (generation &&& kGenerationMask) (setup.pid client) kActive)) ∧
      RxStep setup client state (activated state client consumer
        (makeToken (generation &&& kGenerationMask) (setup.pid client) kActive)) ∧
      Fresh setup client (activated state client consumer
        (makeToken (generation &&& kGenerationMask) (setup.pid client) kActive)) consumer := by
  set active := makeToken (generation &&& kGenerationMask) (setup.pid client) kActive with word
  have phaseActive : phase active = kActive := phase_makeToken _ _ (by decide)
  have process : processId active = setup.pid client := processId_makeToken _ _ (by decide)
  have sameSlot (other : Fin m) (different : other ≠ consumer) :
      (activated state client consumer active).slot other = state.slot other := by
    simp [activated, different]
  have newSlot : (activated state client consumer active).slot consumer =
      {state.slot consumer with state := active} := by
    simp [activated]
  have sameClient (other : K) (different : other ≠ client) :
      (activated state client consumer active).client other = state.client other := by
    simp [activated, different]
  have newClient : (activated state client consumer active).client client =
      {registration := some (consumer, active)
       registeredAt := fun producer => (state.ring producer).frames.length} := by
    simp [activated]
  have owns : Owns setup (activated state client consumer active) client consumer := by
    refine ⟨by rw [newClient, newSlot], ?_, ?_, ?_⟩
    · rw [newSlot]
      exact process
    · rw [newSlot]
      exact held.holds.pid
    · rw [newSlot]
      exact held.holds.processStart
  have cursors (producer : Fin n) (other : Fin m) :
      (activated state client consumer active).cursor producer other = state.cursor producer other := rfl
  have fresh : Fresh setup client (activated state client consumer active) consumer := by
    refine ⟨owns, fun producer => ?_, held.holds.expected, by rw [newClient, newSlot]; rfl⟩
    rw [newSlot, generation_masked]
    exact held.holds.cursor producer
  have unowned (other : K) (token : Nat) (lives : state.lives setup other) :
      (state.client other).registration ≠ some (consumer, token) :=
    fun registered => held.inactive (membership.registered other consumer token lives registered).1
  have earlier {other : K} {current : Fin m} {token : Nat}
      (registered : ((activated state client consumer active).client other).registration = some (current, token)) :
      (other = client ∧ current = consumer ∧ token = active) ∨
        (other ≠ client ∧ (state.client other).registration = some (current, token)) := by
    by_cases same : other = client
    · subst same
      rw [newClient] at registered
      simp only [Option.some.injEq, Prod.mk.injEq] at registered
      exact .inl ⟨rfl, registered.1.symm, registered.2.symm⟩
    · rw [sameClient other same] at registered
      exact .inr ⟨same, registered⟩
  refine ⟨⟨fun other isActive => ?_, fun other current token lives registered => ?_,
    fun first second current one two firstLives secondLives first_ second_ => ?_, membership.exact,
    membership.settled, fun ordered => (membership.numbered ordered).congr (fun _ => rfl) rfl⟩, ?_, fresh⟩
  · by_cases same : other = consumer
    · exact ⟨client, same ▸ owns⟩
    · rw [State.slotActive, sameSlot other same] at isActive
      obtain ⟨owner, owned⟩ := membership.owner other isActive
      have different : owner ≠ client := by
        rintro rfl
        exact absurd (held.inside.unregistered.symm.trans owned.registration) (by simp)
      exact ⟨owner, by rw [sameClient owner different, sameSlot other same]; exact owned.registration,
        by rw [sameSlot other same]; exact owned.processId, by rw [sameSlot other same]; exact owned.pid,
        by rw [sameSlot other same]; exact owned.processStart⟩
  · rcases earlier registered with ⟨rfl, rfl, rfl⟩ | ⟨different, registered⟩
    · refine ⟨by rw [State.slotActive, newSlot]; exact phaseActive, owns, fun producer => ?_⟩
      have start := congrArg ConsumerSharedState.generation (held.holds.cursor producer)
      rw [cursors, word, generation_masked]
      exact start
    · have apart : current ≠ consumer := fun same => unowned other token lives (same ▸ registered)
      obtain ⟨isActive, owned, generations⟩ := membership.registered other current token lives registered
      exact ⟨by rw [State.slotActive, sameSlot current apart]; exact isActive,
        ⟨by rw [sameClient other different, sameSlot current apart]; exact owned.registration,
          by rw [sameSlot current apart]; exact owned.processId, by rw [sameSlot current apart]; exact owned.pid,
          by rw [sameSlot current apart]; exact owned.processStart⟩, generations⟩
  · rcases earlier first_ with ⟨rfl, rfl, -⟩ | ⟨-, firstRegistered⟩ <;>
      rcases earlier second_ with ⟨rfl, same, -⟩ | ⟨-, secondRegistered⟩
    · rfl
    · exact absurd secondRegistered (unowned second two secondLives)
    · exact absurd (same ▸ firstRegistered) (unowned first one firstLives)
    · exact membership.exclusive first second current one two firstLives secondLives firstRegistered
        secondRegistered
  · refine ⟨fun _ => rfl, rfl, rfl, rfl, rfl, sameClient, .inl rfl, fun other => ?_,
      fun other => .inl ⟨fun _ => rfl, rfl⟩, fun other _ => ?_⟩
    · by_cases same : other = consumer
      · exact .inr ⟨held.inside.registering, fun isActive => absurd (same ▸ isActive) held.inactive⟩
      · exact .inl (sameSlot other same)
    · by_cases same : other = consumer
      · subst same
        exact .inr ⟨held.inactive, held.inside.registering, fresh⟩
      · exact .inl (sameSlot other same)

/-- A registration began between the claims, and its words have not moved since. -/
structure Begun (setup : Setup n m K) (client : K) (consumer : Fin m) (token : Nat) (state : State n m K) : Prop where
  registered : Registered client consumer token state
  start : ∃ first : State n m K, Fresh setup client first consumer ∧ Membership setup first ∧ first.unclaimed ∧
    state.client client = first.client client ∧ State.SameProgress first state consumer ∧
      ∀ producer, (first.ring producer).frames <+: (state.ring producer).frames

omit [DecidableEq K] in
theorem Begun.stable {token : Nat} {before after : State n m K} (begun : Begun setup client consumer token before)
    (rely : RxRely client before after) : Begun setup client consumer token after where
  registered := begun.registered.stable rely
  start := by
    obtain ⟨first, fresh, membership, unclaimed, same, progress, grows⟩ := begun.start
    exact ⟨first, fresh, membership, unclaimed, rely.same.trans same,
      progress.trans (rely.registered consumer token begun.registered).2,
      fun producer => (grows producer).trans (rely.grows producer)⟩

/-- The shared sequence stays while the client is inside the gate. -/
theorem orderedSequence_safe {view : SlotView n m} (entry : Rewriting client consumer (· = view) state) :
    Safe (rxContract setup client) (fun sequence state =>
      (setup.mode.ordered = true → sequence = view.globalSequence) ∧
        Rewriting client consumer (· = view) state)
      (if setup.mode.ordered = true then .load fun state => state.globalSequence else pure 0) state := by
  split
  · refine Safe.load (rxLawful setup client) fun current rely _ later relyLater _ => ?_
    have held := entry.stable rely
    exact ⟨fun _ => congrArg SlotView.globalSequence held.holds, held.stable relyLater⟩
  · rename_i fifo
    exact fun _ rely _ => ⟨fun ordered => absurd ordered fifo, entry.stable rely⟩

/-- The slot of an ordered mode also starts at the shared sequence. -/
theorem storeExpected_safe {holds : SlotView n m → Prop} (sequence : Nat)
    (insensitive : ∀ view expected, holds view → holds {view with expected := expected})
    (entry : Rewriting client consumer holds state) :
    Safe (rxContract setup client)
      (fun _ => Rewriting client consumer fun view => holds view ∧
        (setup.mode.ordered = true → view.expected = sequence))
      (.when setup.mode.ordered (storeConsumerSequence consumer sequence)) state := by
  unfold Prog.when
  split
  · intro current rely ready _
    have held := entry.stable rely
    have keeps := SlotKeeps.of_consumerSequences consumer current sequence
    refine ⟨keeps.membership held.inactive ready.keeps, keeps.step held.inside.registering held.inactive, ?_⟩
    have reached : Rewriting client consumer (fun view => holds view ∧
        (setup.mode.ordered = true → view.expected = sequence)) _ := keeps.rewriting held fun before => by
      refine ⟨?_, fun _ => by simp [State.view]⟩
      have same : State.view {current with
          consumerSequences := Function.update current.consumerSequences consumer sequence} consumer =
            {current.view consumer with expected := sequence} := by
        simp only [State.view, Function.update_self]
        rfl
      rw [same]
      exact insensitive _ _ before
    exact fun _ rely _ => reached.stable rely
  · rename_i fifo
    exact fun _ rely _ => (entry.stable rely).mono fun _ held => ⟨held, fun ordered => absurd ordered fifo⟩

/-- A slot without an owner becomes the slot of the client, or stays as it is. -/
theorem initializeSlot_safe (policy : SubscriptionPolicy) (observed : Nat)
    (entry : Rewriting client consumer (fun _ => True) state) :
    Safe (rxContract setup client) (fun result state => match result with
      | none => Inside client state
      | some (consumer, token) => Begun setup client consumer token state)
      (initializeSlot setup client policy consumer observed) state := by
  refine Safe.modifyGet_bind fun current rely ready _ => ?_
  have held := entry.stable rely
  by_cases moved : (current.slot consumer).state = observed
  · simp only [moved, decide_true, if_true]
    have keeps : SlotKeeps consumer current (current.setSlot consumer fun slot => {slot with
        state := makeToken ((generation observed + 1) &&& kGenerationMask) (setup.pid client) kInitializing}) :=
      .of_setSlot consumer current _ fun _ => by
        rw [phase_makeToken _ _ (by decide)]
        decide
    refine ⟨keeps.membership held.inactive ready.keeps, keeps.step held.inside.registering held.inactive, ?_⟩
    have held : Rewriting client consumer (fun _ => True) _ := keeps.rewriting held id
    have held : Rewriting client consumer (· = State.view _ consumer) _ := ⟨held.inside, held.inactive, rfl⟩
    refine storeSlot_safe (fun _ => id) held fun state held => storeSlot_safe (fun _ => id) held fun state held =>
      storeSlot_safe (fun _ => id) held fun state held => ?_
    have pid := congrArg (fun view : SlotView n m => view.slot.pid) held.holds
    have start := congrArg (fun view : SlotView n m => view.slot.processStart) held.holds
    have held : Rewriting client consumer (· = state.view consumer) state := ⟨held.inside, held.inactive, rfl⟩
    refine Safe.bind (rxLawful setup client) (orderedSequence_safe held) fun sequence state _ held => ?_
    obtain ⟨sequenceIs, held⟩ := held
    refine Safe.bind (rxLawful setup client) (snapshot_safe _ sequence sequenceIs held) fun _ state _ held => ?_
    refine Safe.bind (rxLawful setup client) (storeExpected_safe sequence (fun _ _ => id) held)
      fun _ state _ held => Safe.store_bind fun last rely ready _ => ?_
    have held := held.stable rely
    obtain ⟨⟨slot, tally, global, cursor⟩, expected⟩ := held.holds
    have prepared : Rewriting client consumer
        (Prepared setup client ((generation observed + 1) &&& kGenerationMask)) last := by
      refine ⟨held.inside, held.inactive, ?_, ?_, fun producer => ?_, fun ordered => ?_⟩
      · rw [slot]
        exact pid
      · rw [slot]
        exact start
      · rw [global, tally]
        exact cursor producer (by simp)
      · rw [expected ordered, global]
        exact sequenceIs ordered
    obtain ⟨kept, step, fresh⟩ := activate_keeps prepared ready.keeps
    refine ⟨kept, step, fun final rely _ => ?_⟩
    exact Begun.stable ⟨registered_activated last _, _, fresh, kept, prepared.inside.registering.2, rfl, .refl _ consumer,
      fun _ => List.prefix_refl _⟩ rely
  · simp only [moved, decide_false, if_false]
    exact ⟨ready.keeps, .refl setup client current, fun _ rely _ => held.inside.stable rely⟩

omit [DecidableEq K] in
theorem slotKeeps_resetSlot (generation : Nat) :
    Each (SlotKeeps consumer) (resetSlot consumer generation : Prog (State n m K) Unit) := by
  refine .bind (.bind (.forEach (fun producer => ?_) _) fun _ =>
    .store fun state => .of_consumerSequences consumer state _) fun _ =>
    .bind (.store fun state => .of_setSlot consumer state _ id) fun _ =>
    .bind (.store fun state => .of_setSlot consumer state _ id) fun _ =>
    .bind (.store fun state => .of_setSlot consumer state _ id) fun _ =>
    .store fun state => .of_setSlot consumer state _ fun _ => ?_
  · have stores (change : ConsumerSharedState → ConsumerSharedState) :
        Each (SlotKeeps consumer) (storeCursor producer consumer change : Prog (State n m K) Unit) :=
      .store fun state => .of_setCursor consumer state producer change
    exact .bind (stores _) fun _ => .bind (stores _) fun _ => .bind (stores _) fun _ => .bind (stores _) fun _ =>
      .bind (stores _) fun _ => .bind (stores _) fun _ => .bind (stores _) fun _ => stores _
  · rw [phase_makeToken _ _ (by decide)]
    decide

/-- The exchange of a dead owner's word. The slot is frozen, so the verdict is about this owner. -/
theorem reclaim_keeps {observed : Nat} (inside : Inside client state) (membership : Membership setup state)
    (dead : state.isRegisteredProcessAlive (processId observed) (state.slot consumer).processStart = false)
    (word : (state.slot consumer).state = observed) :
    Membership setup (state.setSlot consumer fun slot => {slot with
        state := makeToken (generation observed) (processId observed) kReclaiming}) ∧
      RxStep setup client state (state.setSlot consumer fun slot => {slot with
        state := makeToken (generation observed) (processId observed) kReclaiming}) ∧
      Rewriting client consumer (fun _ => True) (state.setSlot consumer fun slot => {slot with
        state := makeToken (generation observed) (processId observed) kReclaiming}) := by
  have inactive : ¬ (state.setSlot consumer fun slot => {slot with
      state := makeToken (generation observed) (processId observed) kReclaiming}).slotActive consumer := by
    rw [State.slotActive, State.setSlot_slot, phase_makeToken _ _ (by decide)]
    decide
  have others (other : Fin m) (different : other ≠ consumer) : (state.setSlot consumer fun slot => {slot with
      state := makeToken (generation observed) (processId observed) kReclaiming}).slot other = state.slot other := by
    simp [different]
  have ended : state.slotActive consumer → ¬ state.slotAlive consumer := by
    intro active alive
    obtain ⟨owner, owns⟩ := membership.owner consumer active
    rw [State.slotAlive, owns.pid, ← owns.processId, word] at alive
    exact absurd (alive.symm.trans dead) (by decide)
  refine ⟨?_, ?_, ⟨⟨inside.registering.1, inside.registering.2⟩, inside.unregistered⟩, inactive, trivial⟩
  · refine membership.rewriteSlot rfl rfl rfl (fun _ => rfl) (fun _ => .inl rfl) others
      (fun _ _ => .refl state _) inactive (fun other token lives registered => ?_) fun _ _ _ _ => rfl
    obtain ⟨active, alive⟩ := membership.slotAlive lives registered
    exact ended active alive
  · refine ⟨fun _ => rfl, rfl, rfl, rfl, rfl, fun _ _ => rfl, .inl rfl, fun other => ?_,
      fun other => .inl (.refl state other), fun other active => ?_⟩
    · by_cases same : other = consumer
      · exact .inr ⟨inside.registering, fun active alive => absurd (same ▸ alive) (ended (same ▸ active))⟩
      · exact .inl (others other same)
    · by_cases same : other = consumer
      · exact absurd (same ▸ active) inactive
      · exact .inl (others other same)

/-- The result of the search inside the gate. -/
def Searched (setup : Setup n m K) (client : K) : Unit ⊕ (Fin m × Nat) → State n m K → Prop
  | .inl _ => Inside client
  | .inr registration => Begun setup client registration.1 registration.2

omit [DecidableEq K] in
theorem Searched.stable {result : Unit ⊕ (Fin m × Nat)} {before after : State n m K}
    (searched : Searched setup client result before) (rely : RxRely client before after) :
    Searched setup client result after :=
  match result with
  | .inl _ => Inside.stable searched rely
  | .inr _ => Begun.stable searched rely

theorem searched_initialize (policy : SubscriptionPolicy) (observed : Nat)
    (entry : Rewriting client consumer (fun _ => True) state) :
    Safe (rxContract setup client) (Searched setup client) (do
      let taken ← initializeSlot setup client policy consumer observed
      pure (match taken with | some registration => .inr registration | none => .inl ())) state := by
  refine Safe.bind (rxLawful setup client) (initializeSlot_safe policy observed entry) fun taken _ _ held => ?_
  cases taken with
  | none => exact fun _ rely _ => Inside.stable held rely
  | some registration => exact fun _ rely _ => Begun.stable held rely

/-- One round takes a free slot or the slot of an exited process. -/
theorem acquireSlotRound_safe (policy : SubscriptionPolicy) (entry : Inside client state) :
    Safe (rxContract setup client) (Searched setup client) (acquireSlotRound setup client policy () consumer) state := by
  have skips {current : State n m K} (inside : Inside client current) :
      Safe (rxContract setup client) (Searched setup client) (.ret (.inl ())) current :=
    fun _ rely _ => Inside.stable inside rely
  refine Safe.load_bind (rxLawful setup client) fun first rely _ => ?_
  have inside := entry.stable rely
  split
  · refine Safe.load_bind (rxLawful setup client) fun second relySecond _ => ?_
    have slotSecond := inside.registering.slot relySecond
    have inside := inside.stable relySecond
    refine Safe.load_bind (rxLawful setup client) fun third relyThird _ => ?_
    have slotThird := inside.registering.slot relyThird
    have inside := inside.stable relyThird
    split
    · exact skips inside
    rename_i verdict
    refine Safe.modifyGet_bind fun fourth relyFourth ready _ => ?_
    have slotFourth := inside.registering.slot relyFourth
    have inside := inside.stable relyFourth
    have word : (fourth.slot consumer).state = (first.slot consumer).state := by
      rw [slotFourth, slotThird, slotSecond]
    have dead : fourth.isRegisteredProcessAlive (processId (first.slot consumer).state)
        (fourth.slot consumer).processStart = false := by
      by_contra alive
      have earlier := relyFourth.outlives.registered (by simpa using alive)
      rw [slotFourth, slotThird] at earlier
      exact verdict earlier
    simp only [word, decide_true, if_true]
    obtain ⟨kept, step, held⟩ := reclaim_keeps inside ready.keeps dead word
    refine ⟨kept, step, Safe.bind (rxLawful setup client) (rewrite_safe (slotKeeps_resetSlot _) held)
      fun _ _ _ held => rewrite_load held fun _ held => searched_initialize policy _ held⟩
  · rename_i free
    refine searched_initialize policy _ ⟨inside, ?_, trivial⟩
    rw [State.slotActive]
    simp only [ne_eq, not_not] at free
    rw [free]
    decide

theorem acquireConsumer_safe (policy : SubscriptionPolicy) (entry : Inside client state) :
    Safe (rxContract setup client) (fun result state => match result with
      | none => Inside client state
      | some (consumer, token) => Begun setup client consumer token state)
      (acquireConsumer setup client policy) state := by
  refine Safe.bind (rxLawful setup client) (Safe.foldUntil (rxLawful setup client)
    (I := fun _ _ => Inside client) (S := fun registration => Begun setup client registration.1 registration.2)
    (fun rely _ inside => inside.stable rely) (fun other rest carried current inside => ?_)
    (fun rely _ registered => registered.stable rely) entry) fun searched _ _ held => ?_
  · refine Safe.weaken (acquireSlotRound_safe policy inside) fun result _ _ held => ?_
    cases result <;> exact held
  · cases searched with
    | inl _ => exact fun _ rely _ => Inside.stable held rely
    | inr registration => exact fun _ rely _ => Begun.stable held rely

end Acquire

section Tasks

/-- The gate is taken from nobody or from a dead owner. -/
theorem acquireGate_keeps (client : K) (membership : Membership setup state) (free : state.gateFree setup = true) :
    Membership setup {state with registrationGate := some client} ∧
      RxStep setup client state {state with registrationGate := some client} :=
  ⟨membership.congr rfl rfl rfl rfl (fun _ => rfl) (fun _ => rfl) fun _ _ _ => rfl,
    ⟨fun _ => rfl, rfl, rfl, rfl, rfl, fun _ _ => rfl, .inr (.inl ⟨free, rfl⟩), fun _ => .inl rfl,
      fun _ => .inl ⟨fun _ => rfl, rfl⟩, fun _ _ => .inl rfl⟩⟩

/-- A fact that does not depend on the gate survives its release. -/
theorem releaseGate_safe {holds : State n m K → Prop}
    (stable : ∀ {before after}, RxRely client before after → holds before → holds after)
    (gate : ∀ current : State n m K, holds current → holds {current with registrationGate := none}) (entry : holds state) :
    Safe (rxContract setup client) (fun _ => holds) (releaseRegistrationGate client) state := by
  intro current rely ready _
  have held := stable rely entry
  dsimp only
  split
  · rename_i owner
    exact ⟨ready.keeps.congr rfl rfl rfl rfl (fun _ => rfl) (fun _ => rfl) fun _ _ _ => rfl,
      ⟨fun _ => rfl, rfl, rfl, rfl, rfl, fun _ _ => rfl, .inr (.inr ⟨owner, rfl⟩), fun _ => .inl rfl,
        fun _ => .inl ⟨fun _ => rfl, rfl⟩, fun _ _ => .inl rfl⟩, fun last rely _ => stable rely (gate current held)⟩
  · exact ⟨ready.keeps, .refl setup client current, fun last rely _ => stable rely held⟩

/-- A client that is not registered gives the gate back. -/
theorem releaseGate_unregistered (entry : (state.client client).registration = none) :
    Safe (rxContract setup client) (fun _ state => (state.client client).registration = none)
      (releaseRegistrationGate client) state := by
  refine releaseGate_safe (fun rely held => ?_) (fun _ => id) entry
  exact (congrArg Client.registration rely.same).trans held

/-- A registration that has begun stays when the gate opens. -/
theorem releaseGate_begun {token : Nat} (entry : Begun setup client consumer token state) :
    Safe (rxContract setup client) (fun _ => Begun setup client consumer token) (releaseRegistrationGate client) state :=
  releaseGate_safe (fun rely held => held.stable rely) (fun _ held => ⟨held.registered, held.start⟩) entry

/-- The release makes the slot inactive and ends the registration in one step. -/
theorem releaseConsumer_safe {token : Nat} (registering : Registering client state)
    (entry : Registered client consumer token state) :
    Safe (rxContract setup client) (fun _ state => (state.client client).registration = none)
      (releaseConsumer client consumer token) state := by
  refine Safe.modifyGet_bind fun current rely ready _ => ?_
  have registering := registering.stable rely
  have registered := entry.stable rely
  obtain ⟨active, owns, -⟩ := ready.keeps.registered client consumer token ready.may registered
  have word : (current.slot consumer).state = token := by
    have := owns.registration.symm.trans registered
    simpa using this
  simp only [word, decide_true, if_true]
  have inactive : ¬ ((current.setSlot consumer fun slot => {slot with
      state := makeToken (generation token) (processId token) kReleasing}).setClient client fun _ => {}).slotActive
        consumer := by
    rw [State.slotActive, State.setClient_slot, State.setSlot_slot, phase_makeToken _ _ (by decide)]
    decide
  have others (other : Fin m) (different : other ≠ consumer) : ((current.setSlot consumer fun slot => {slot with
      state := makeToken (generation token) (processId token) kReleasing}).setClient client fun _ => {}).slot other =
        current.slot other := by
    simp [different]
  have clients (other : K) (different : other ≠ client) : ((current.setSlot consumer fun slot => {slot with
      state := makeToken (generation token) (processId token) kReleasing}).setClient client fun _ => {}).client other =
        current.client other := by
    simp [different]
  refine ⟨?_, ⟨fun _ => rfl, rfl, rfl, rfl, rfl, clients, .inl rfl, fun other => ?_, fun other =>
    .inl (.refl current other), fun other isActive => ?_⟩, ?_⟩
  · refine ready.keeps.rewriteSlot rfl rfl rfl (fun _ => rfl) (fun other => ?_) others (fun _ _ => .refl current _)
      inactive (fun other given lives later => ?_) fun other slot different owned => ?_
    · by_cases same : other = client
      · subst same
        exact .inr (by simp)
      · exact .inl (by rw [clients other same])
    · by_cases same : other = client
      · subst same
        simp at later
      · rw [clients other same] at later
        exact same (ready.keeps.exclusive other client consumer given token lives ready.may later registered)
    · by_cases same : other = client
      · subst same
        have := owned.registration.symm.trans registered
        simp only [Option.some.injEq, Prod.mk.injEq] at this
        exact absurd this.1 different
      · rw [clients other same]
  · by_cases same : other = consumer
    · exact .inr ⟨registering, fun _ _ => ⟨token, same ▸ registered⟩⟩
    · exact .inl (others other same)
  · by_cases same : other = consumer
    · exact absurd (same ▸ isActive) inactive
    · exact .inl (others other same)
  · have free : ((((current.setSlot consumer fun slot => {slot with
        state := makeToken (generation token) (processId token) kReleasing}).setClient client fun _ => {})).client
          client).registration = none := by simp
    refine Safe.weaken (rewrite_safe (slotKeeps_resetSlot _) ⟨⟨⟨registering.1, registering.2⟩, free⟩, inactive,
      trivial⟩) fun _ _ _ held => held.inside.unregistered

end Tasks

end Membership
end Salias.SharedHybridMpsc
