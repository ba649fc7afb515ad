import Salias.Notification.System

/-
The ticket of a slot belongs to its active registration. A stale ticket stays only while the arm call that has
installed it is under way, or while a registrar still removes it.
-/

namespace Salias.Notification

open Concurrent ConsumerRegistration

variable {n m : Nat} {K R : Type}

/-- The ticket of a slot carries the token of its active registration. -/
def State.Matches (state : State n m K R) (consumer : Fin m) : Prop :=
  phase (state.slot consumer) = kActive ∧ state.ticket consumer = state.slot consumer

/-- Under `fresh` a ticket is installed only for a live registration, and under `disarmed` a registration ends
only without a ticket. -/
structure Tickets (fresh disarmed : Prop) (state : State n m K R) : Prop where
  owned : ∀ consumer, state.ticket consumer ≠ 0 → state.Matches consumer ∨
    state.vacating consumer = some (state.ticket consumer) ∨
    ∃ handle, state.installing handle = some (consumer, state.ticket consumer)
  exact : fresh → ∀ consumer, state.ticket consumer ≠ 0 → state.Matches consumer ∨
    (state.vacating consumer = some (state.ticket consumer) ∧ ¬ disarmed)
  leaving : ∀ consumer, state.vacating consumer ≠ none → phase (state.slot consumer) ≠ kActive
  quiet : (∀ registrar, state.registrationGate ≠ some (.registrar registrar)) → ∀ consumer,
    state.vacating consumer = none

/-- Every new ticket carries the token of the active registration of its slot. -/
def InstallsLive (before after : State n m K R) : Prop :=
  ∀ consumer, after.ticket consumer ≠ before.ticket consumer →
    after.ticket consumer = 0 ∨ after.ticket consumer = before.slot consumer

/-- No registration ends while its ticket is armed. -/
def EndsDisarmed (before after : State n m K R) : Prop :=
  ∀ consumer, phase (before.slot consumer) = kActive → after.slot consumer ≠ before.slot consumer →
    before.ticket consumer ≠ before.slot consumer

/-- A registration word stays as long as its count of writes stays. -/
structure Counts (before after : State n m K R) : Prop where
  changes : ∀ consumer, before.changes consumer ≤ after.changes consumer
  slot : ∀ consumer, after.changes consumer = before.changes consumer → after.slot consumer = before.slot consumer

theorem Counts.trans {first second third : State n m K R} (earlier : Counts first second)
    (later : Counts second third) : Counts first third where
  changes consumer := (earlier.changes consumer).trans (later.changes consumer)
  slot consumer same := by
    have one := earlier.changes consumer
    have two := later.changes consumer
    rw [later.slot consumer (by omega), earlier.slot consumer (by omega)]

theorem Counts.of_same {before after : State n m K R} (changes : after.changes = before.changes)
    (slot : after.slot = before.slot) : Counts before after :=
  ⟨fun consumer => by rw [changes], fun consumer _ => by rw [slot]⟩

/-- What the call has seen at its entry still bounds the state. -/
structure Since (consumer : Fin m) (entry : Entry) (state : State n m K R) : Prop where
  changes : entry.changes ≤ state.changes consumer
  slot : state.changes consumer = entry.changes → state.slot consumer = entry.word
  active : entry.active = true → state.active = true

/-- The token has been the active one since the entry, and the notifications were active there. -/
structure Steady (fresh : Prop) (consumer : Fin m) (token : Nat) (entry : Entry) (state : State n m K R) : Prop where
  isFresh : fresh
  phase : phase token = kActive
  word : entry.word = token
  active : entry.active = true
  changes : state.changes consumer = entry.changes

/-- Between the steps of a call its handle installs nothing, and the answer to a steady token is the right one. -/
structure Answers (fresh : Prop) (handle : K) (consumer : Fin m) (token : Nat) (entry : Entry) (right : Prop)
    (state : State n m K R) : Prop where
  idle : state.installing handle = none
  since : Since consumer entry state
  accepts : Steady fresh consumer token entry state → right

section Contracts

/-- What the other threads leave alone. -/
def rely : Thread n K R → State n m K R → State n m K R → Prop
  | .producer _, _, _ => True
  | .handle handle, before, after => after.installing handle = before.installing handle ∧ Counts before after ∧
      (before.active = true → after.active = true)
  | .registrar registrar, before, after =>
      (before.registrationGate = some (.registrar registrar) ↔ after.registrationGate = some (.registrar registrar)) ∧
      (before.registrationGate = some (.registrar registrar) → after.slot = before.slot ∧
        after.vacating = before.vacating)

/-- What a thread leaves alone. -/
structure Guarantee (thread : Thread n K R) (before after : State n m K R) : Prop where
  installing : ∀ handle, thread ≠ .handle handle → after.installing handle = before.installing handle
  counts : Counts before after
  active : before.active = true → after.active = true
  gate : ∀ other, thread ≠ other → (before.registrationGate = some other ↔ after.registrationGate = some other)
  slots : ∀ registrar, thread ≠ .registrar registrar → before.registrationGate = some (.registrar registrar) →
    after.slot = before.slot ∧ after.vacating = before.vacating

def discipline (fresh disarmed : Prop) : Discipline (State n m K R) (Thread n K R) (Label n m) where
  invariant := Tickets fresh disarmed
  action thread before after := match thread with
    | .producer _ => True
    | .handle _ => fresh → InstallsLive before after
    | .registrar _ => disarmed → EndsDisarmed before after
  may _ _ := True
  rely := rely
  guarantee := Guarantee
  label thread label state := match thread, label with
    | .handle handle, .armed consumer token entry result =>
        Answers fresh handle consumer token entry (result = some true) state
    | .handle handle, .receive consumer token entry next =>
        Answers fresh handle consumer token entry (next ≠ .done .empty) state
    | .handle handle, _ => state.installing handle = none
    | _, _ => True

variable {fresh disarmed : Prop}

theorem Guarantee.refl (thread : Thread n K R) (state : State n m K R) : Guarantee thread state state :=
  ⟨fun _ _ => rfl, .of_same rfl rfl, id, fun _ _ => Iff.rfl, fun _ _ _ => ⟨rfl, rfl⟩⟩

theorem lawful (thread : Thread n K R) :
    ((discipline fresh disarmed).contract (σ := State n m K R) thread).Lawful where
  refl state := by
    match thread with
    | .producer _ => trivial
    | .handle handle => exact ⟨rfl, .of_same rfl rfl, id⟩
    | .registrar registrar => exact ⟨Iff.rfl, fun _ => ⟨rfl, rfl⟩⟩
  trans {first second third} earlier later := by
    match thread, earlier, later with
    | .producer _, _, _ => trivial
    | .handle handle, earlier, later =>
        exact ⟨later.1.trans earlier.1, earlier.2.1.trans later.2.1, later.2.2 ∘ earlier.2.2⟩
    | .registrar registrar, earlier, later =>
        refine ⟨earlier.1.trans later.1, fun mine => ?_⟩
        have early := earlier.2 mine
        have late := later.2 (earlier.1.mp mine)
        exact ⟨late.1.trans early.1, late.2.trans early.2⟩
  idle state := .refl thread state
  stays _ _ := trivial

theorem compatible {actor observer : Thread n K R} {before after : State n m K R} (different : actor ≠ observer)
    (step : Guarantee actor before after) : rely observer before after := by
  match observer with
  | .producer _ => trivial
  | .handle handle => exact ⟨step.installing handle different, step.counts, step.active⟩
  | .registrar registrar => exact ⟨step.gate _ different, step.slots registrar different⟩

end Contracts

section Programs

/-- A step that may take or give back the gate and may remove tickets, and leaves the registrations alone. -/
structure Leaves (thread : Thread n K R) (before after : State n m K R) : Prop where
  slot : after.slot = before.slot
  changes : after.changes = before.changes
  vacating : after.vacating = before.vacating
  installing : after.installing = before.installing
  ticket : ∀ consumer, after.ticket consumer = before.ticket consumer ∨ after.ticket consumer = 0
  active : before.active = true → after.active = true
  gate : after.registrationGate = before.registrationGate ∨
    (before.registrationGate = none ∧ after.registrationGate = some thread) ∨
    (before.registrationGate = some thread ∧ after.registrationGate = none)

namespace Leaves

variable {thread : Thread n K R} {before after : State n m K R} {fresh disarmed : Prop}

theorem refl (thread : Thread n K R) (state : State n m K R) : Leaves thread state state :=
  ⟨rfl, rfl, rfl, rfl, fun _ => .inl rfl, id, .inl rfl⟩

theorem of_same (slot : after.slot = before.slot) (changes : after.changes = before.changes)
    (vacating : after.vacating = before.vacating) (installing : after.installing = before.installing)
    (ticket : after.ticket = before.ticket) (active : after.active = before.active)
    (gate : after.registrationGate = before.registrationGate) : Leaves thread before after :=
  ⟨slot, changes, vacating, installing, fun _ => .inl (by rw [ticket]), fun holds => active.trans holds, .inl gate⟩

theorem ite {condition : Prop} [Decidable condition] (leaves : condition → Leaves thread before after) :
    Leaves thread before (if condition then after else before) := by
  split
  · exact leaves ‹_›
  · exact .refl thread before

theorem guarantee (leaves : Leaves thread before after) : Guarantee thread before after where
  installing handle _ := by rw [leaves.installing]
  counts := .of_same leaves.changes leaves.slot
  active := leaves.active
  gate other different := by
    rcases leaves.gate with same | ⟨free, taken⟩ | ⟨held, given⟩
    · rw [same]
    · simp [free, taken, different]
    · simp [held, given, different]
  slots registrar _ _ := ⟨leaves.slot, leaves.vacating⟩

/-- A removed ticket needs no owner. -/
theorem tickets (leaves : Leaves thread before after) (tickets : Tickets fresh disarmed before)
    (outside : ∀ registrar, thread ≠ .registrar registrar) : Tickets fresh disarmed after := by
  have still (consumer : Fin m) (some_ : after.ticket consumer ≠ 0) : after.ticket consumer = before.ticket consumer :=
    (leaves.ticket consumer).resolve_right some_
  have matched (consumer : Fin m) (some_ : after.ticket consumer ≠ 0) (matched : before.Matches consumer) :
      after.Matches consumer := by
    rw [State.Matches, leaves.slot, still consumer some_]
    exact matched
  refine ⟨fun consumer some_ => ?_, fun isFresh consumer some_ => ?_, fun consumer leaving => ?_, fun quiet consumer => ?_⟩
  · have ticket := still consumer some_
    rw [ticket, leaves.vacating, leaves.installing]
    exact (tickets.owned consumer (ticket ▸ some_)).imp_left (matched consumer some_)
  · have ticket := still consumer some_
    rw [ticket, leaves.vacating]
    exact (tickets.exact isFresh consumer (ticket ▸ some_)).imp_left (matched consumer some_)
  · rw [leaves.vacating] at leaving
    rw [leaves.slot]
    exact tickets.leaving consumer leaving
  · rw [leaves.vacating]
    refine tickets.quiet (fun registrar held => ?_) consumer
    rcases leaves.gate with same | ⟨free, _⟩ | ⟨mine, _⟩
    · exact quiet registrar (same ▸ held)
    · rw [free] at held
      cases held
    · rw [mine] at held
      exact outside registrar (Option.some.inj held)

end Leaves

section Each

variable {thread : Thread n K R} {handle : K} {producer : Fin n} {consumer : Fin m}

theorem leaves_load {α : Type} (read : State n m K R → α) : Each (Leaves thread) (Prog.load read) :=
  .load (.refl thread) read

theorem leaves_removeTicket (state : State n m K R) (consumer : Fin m) (token : Nat) :
    Leaves thread state (state.removeTicket consumer token) := by
  refine .ite fun _ => ⟨rfl, rfl, rfl, rfl, fun other => ?_, id, .inl rfl⟩
  by_cases same : other = consumer
  · subst same
    exact .inr (Function.update_self ..)
  · exact .inl (Function.update_of_ne same ..)

theorem removeTicket_gate (state : State n m K R) (consumer : Fin m) (token : Nat) :
    (state.removeTicket consumer token).registrationGate = state.registrationGate := by
  unfold State.removeTicket
  split <;> rfl

theorem removeTicket_active (state : State n m K R) (consumer : Fin m) (token : Nat) :
    (state.removeTicket consumer token).active = state.active := by
  unfold State.removeTicket
  split <;> rfl

theorem leaves_tryTakeGate : Each (Leaves thread) (tryTakeGate (m := m) thread) :=
  .modifyGet (fun _ => .ite fun free => ⟨rfl, rfl, rfl, rfl, fun _ => .inl rfl, id,
    .inr (.inl ⟨Option.isNone_iff_eq_none.mp free, rfl⟩)⟩) _

theorem leaves_claimRound : Each (Leaves thread) (claimRound (m := m) () producer) :=
  .bind (leaves_load _) fun _ => .ret _

theorem leaves_activate : Each (Leaves thread) (activate : Prog (State n m K R) Unit) := by
  refine .bind (leaves_load _) fun current => ?_
  split
  · exact .ret _
  · exact .store fun _ => ⟨rfl, rfl, rfl, rfl, fun _ => .inl rfl, fun _ => rfl, .inl rfl⟩

theorem leaves_isExpired (frame : Frame) (now : Option Nat) : Each (Leaves (m := m) thread) (isExpired frame now) := by
  unfold isExpired
  split
  · exact .ret _
  · split
    · exact .ret _
    · exact .bind (leaves_load _) fun _ => .ret _

theorem leaves_pass (state : State n m K R) : Leaves thread state (state.pass producer consumer) :=
  .of_same rfl rfl rfl rfl rfl rfl rfl

theorem leaves_wakeRound (consumed : Bool) : Each (Leaves (K := K) (R := R) thread) (wakeRound producer consumed consumer) := by
  refine .bind (.modifyGet (fun state => ?_) _) fun registration => ?_
  · split
    · exact .refl thread state
    · exact leaves_pass state
  · split
    · exact .ret _
    · refine .bind (.modifyGet (fun state => .ite fun _ => leaves_pass state) _) fun observed => ?_
      split
      · exact .ret _
      · refine .bind (.modifyGet (fun state => ?_) _) fun _ => .ret _
        split
        · refine ⟨rfl, rfl, rfl, rfl, fun other => ?_, id, .inl rfl⟩
          by_cases same : other = consumer
          · subst same
            exact .inr (Function.update_self ..)
          · exact .inl (Function.update_of_ne same ..)
        · exact leaves_pass state

theorem leaves_wakeConsumer : Each (Leaves (m := m) (K := K) (R := R) thread) (wakeConsumer producer) := by
  refine .bind (.modifyGet (fun state => ?_) _) fun wakes => ?_
  · split
    · exact .refl thread state
    · exact .of_same rfl rfl rfl rfl rfl rfl rfl
  · split
    · refine .bind (.store fun state => .of_same rfl rfl rfl rfl rfl rfl rfl) fun _ => ?_
      refine .bind (.foldUntil (fun consumed consumer => leaves_wakeRound consumed) _ _) fun scanned => ?_
      split
      · exact .bind (.store fun state => .of_same rfl rfl rfl rfl rfl rfl rfl) fun _ =>
          .store fun state => .of_same rfl rfl rfl rfl rfl rfl rfl
      · exact .ret _
    · exact .ret _

theorem leaves_publishContiguous (frames : List Frame) :
    Each (Leaves (m := m) (K := K) (R := R) thread) (publishContiguous producer frames) := by
  unfold publishContiguous
  split
  · exact .ret _
  · exact .bind (.store fun state => .of_same rfl rfl rfl rfl rfl rfl rfl) fun _ => .bind leaves_wakeConsumer fun _ =>
      .store fun state => .of_same rfl rfl rfl rfl rfl rfl rfl

theorem leaves_startProducer {claiming : Bool} {request : Request n m} {program : Prog (State n m K R) (Label n m)}
    (begins : startProducer producer claiming request = some program) : Each (Leaves thread) program := by
  unfold startProducer at begins
  split at begins
  · obtain rfl := Option.some.inj begins
    exact .bind (leaves_publishContiguous _) fun _ => .ret _
  · split at begins
    · cases begins
    · obtain rfl := Option.some.inj begins
      refine .bind (.bind (leaves_load _) fun closed => ?_) fun _ => .ret _
      split
      · exact .ret _
      · refine .bind (.store fun state => .of_same rfl rfl rfl rfl rfl rfl rfl) fun _ => .bind (leaves_load _) fun closed => ?_
        split
        · exact .bind (.store fun state => .of_same rfl rfl rfl rfl rfl rfl rfl) fun _ => .ret _
        · exact .ret _
  · split at begins
    · obtain rfl := Option.some.inj begins
      exact .bind (.store fun state => .of_same rfl rfl rfl rfl rfl rfl rfl) fun _ => .ret _
    · cases begins
  · obtain rfl := Option.some.inj begins
    exact .bind (.store fun state => .of_same rfl rfl rfl rfl rfl rfl rfl) fun _ => .ret _
  · cases begins

section Receivers

variable [DecidableEq K]

theorem leaves_waitTicketState (token : Nat) : Each (Leaves thread) (waitTicketState handle consumer token) := by
  refine .bind (leaves_load _) fun registered => ?_
  split
  · exact .ret _
  · exact .bind (.modifyGet (fun _ => .ite fun _ => .of_same rfl rfl rfl rfl rfl rfl rfl) _) fun _ => .ret _

theorem leaves_clearWaitNotification (token : Nat) :
    Each (Leaves thread) (clearWaitNotification handle consumer token) :=
  .store fun state => by
    have removed : Leaves thread state (state.removeTicket consumer token) := leaves_removeTicket state consumer token
    exact ⟨removed.slot, removed.changes, removed.vacating, removed.installing, removed.ticket, removed.active,
      removed.gate⟩

/-- The scan changes only the members of the receiver. -/
theorem leaves_setReceiver (state : State n m K R) (change : Receiver n → Receiver n) :
    Leaves thread state (state.setReceiver handle change) := .of_same rfl rfl rfl rfl rfl rfl rfl

theorem leaves_refreshVisible (setup : Setup) : Each (Leaves (m := m) thread) (refreshVisible setup handle producer) := by
  refine .bind (leaves_load _) fun receiver => ?_
  split
  · refine .bind (.modifyGet (fun state => ?_) _) fun _ => .ret _
    unfold State.noteEmpty
    split <;> exact .of_same rfl rfl rfl rfl rfl rfl rfl
  · exact .ret _

theorem leaves_visitRing (setup : Setup) (now : Option Nat) :
    Each (Leaves (m := m) thread) (visitRing setup handle now producer) := by
  refine .bind (leaves_refreshVisible setup) fun readable => ?_
  split
  · refine .bind (.modifyGet (fun state => .ite fun _ => leaves_setReceiver state _) _) fun next => ?_
    split
    · exact .ret _
    · refine .bind (leaves_isExpired _ _) fun ⟨expired, now⟩ => ?_
      dsimp only
      split
      · refine .bind (.store fun state => ?_) fun _ => .ret _
        exact leaves_setReceiver state _
      · refine .bind (.store fun state => ?_) fun _ => .ret _
        exact leaves_setReceiver state _
  · exact .ret _

theorem leaves_scanRings (setup : Setup) (now : Option Nat) :
    Each (Leaves (m := m) thread) (scanRings setup handle now) := by
  refine .bind (leaves_load _) fun receiver => .bind (.foldUntil (fun now producer => ?_) _ _) fun scanned => ?_
  · refine .bind (leaves_visitRing setup now) fun visited => ?_
    split <;> exact .ret _
  · split <;> exact .ret _

theorem leaves_snapshotEpoch : Each (Leaves (m := m) thread) (snapshotEpoch handle) :=
  .modifyGet (fun state => leaves_setReceiver state _) _

theorem leaves_endPass (token : Nat) (pass : Pass) (next : Step n) :
    Each (Leaves thread) (endPass handle consumer token pass next) :=
  .bind (.when (leaves_clearWaitNotification token)) fun _ => .ret _

theorem leaves_scanPass (setup : Setup) (token : Nat) (pass : Pass) (now : Option Nat) :
    Each (Leaves thread) (scanPass setup handle consumer token pass now) := by
  refine .bind (leaves_scanRings setup now) fun visited => ?_
  split
  · exact leaves_endPass token pass _
  · exact .ret _
  · split
    · exact leaves_endPass token pass _
    · split
      · exact leaves_endPass token pass _
      · split
        · refine .bind (leaves_waitTicketState token) fun ticket => ?_
          split
          · exact leaves_endPass token pass _
          · exact leaves_endPass token pass _
          · exact .ret _
        · exact .ret _

theorem leaves_futexWait (token : Nat) (pass : Pass) :
    Each (Leaves thread) (futexWait (n := n) handle consumer token pass) := by
  refine .bind (.modifyGet (fun state => .ite fun _ => .of_same rfl rfl rfl rfl rfl rfl rfl) _) fun sleeps => ?_
  split
  · exact .ret _
  · exact leaves_endPass token pass _

theorem leaves_resume (token : Nat) (pass : Pass) :
    Each (Leaves thread) (resume (n := n) handle consumer token pass) := by
  refine .bind (leaves_load _) fun sleeps => ?_
  split
  · exact .ret _
  · exact leaves_endPass token pass _

variable [DecidableEq R]

theorem leaves_releaseGate : Each (Leaves thread) (releaseGate (m := m) thread) :=
  .store fun _ => .ite fun held => ⟨rfl, rfl, rfl, rfl, fun _ => .inl rfl, id, .inr (.inr ⟨held, rfl⟩)⟩

theorem leaves_tryActivate (fence : Bool) : Each (Leaves (n := n) (m := m) (R := R) (.handle handle)) (tryActivate handle fence) := by
  refine .bind leaves_tryTakeGate fun taken => ?_
  split
  · exact .ret _
  · split
    · exact .bind leaves_releaseGate fun _ => .ret _
    · refine .bind (.foldUntil (fun _ _ => leaves_claimRound) _ _) fun checked => ?_
      refine .bind (.when leaves_activate) fun _ => .bind ?_ fun _ => ?_
      · exact leaves_releaseGate
      · split
        · exact leaves_load _
        · exact .ret _

end Receivers

end Each

end Programs

end Salias.Notification
