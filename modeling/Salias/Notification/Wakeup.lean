import Salias.Notification.System

/-
No wakeup is lost while the epoch word does not run around between the snapshot of a receiver and its wait. Each
subscriber receives through the handle of its own slot, and nobody registers.
-/

namespace Salias.Notification

open Concurrent ConsumerRegistration

variable {n m : Nat} {R : Type}

/-- A producer that still has to pass a slot. -/
def Notice.Pending (notice : Notice m) (consumer : Fin m) : Prop :=
  notice.quits = false ∧ notice.passed consumer = false

/-- A producer that has taken a ticket and not yet woken its owner. -/
def State.Taken (state : State n m (Fin m) R) (consumer : Fin m) : Prop :=
  ∃ producer notice, state.notice producer = some notice ∧ notice.taken consumer = true

/-- A producer that has taken a ticket and not yet moved the epoch again. -/
def State.Unbumped (state : State n m (Fin m) R) (consumer : Fin m) : Prop :=
  ∃ producer notice, state.notice producer = some notice ∧ notice.taken consumer = true ∧ notice.bumped = false

/-- While a receiver watches the rings with an armed ticket, every frame that becomes visible behind its scan has
a producer that still has to pass the slot. After the check of the ticket, a producer that takes it moves the
epoch and wakes the sleepers. -/
structure Watched (setup : Setup) (state : State n m (Fin m) R) (consumer : Fin m) : Prop where
  seen : (state.receiver consumer).seen ≤ state.steps
  active : (state.receiver consumer).watch ≠ .none → state.active = true ∧ phase (state.slot consumer) = kActive
  covered : (state.receiver consumer).watch ≠ .none → state.ticket consumer = state.slot consumer → ∀ producer,
    (state.receiver consumer).scanned producer = true → state.next setup consumer producer ≠ none →
    ∃ notice, state.notice producer = some notice ∧ notice.Pending consumer
  complete : (state.receiver consumer).watch = .checked → ∀ producer, (state.receiver consumer).scanned producer = true
  moved : (state.receiver consumer).watch = .checked → state.ticket consumer ≠ state.slot consumer →
    (state.receiver consumer).seen < state.steps ∨ state.Unbumped consumer
  sleeping : state.asleep consumer = some true → (state.receiver consumer).watch = .checked
  woken : state.asleep consumer = some true → state.ticket consumer ≠ state.slot consumer → state.Taken consumer

/-- No receiver that sleeps with an armed ticket has a deliverable frame unless a producer still notifies. -/
theorem Watched.notified {setup : Setup} {state : State n m (Fin m) R} {consumer : Fin m}
    (watched : Watched setup state consumer) (sleeps : state.asleep consumer = some true) {producer : Fin n}
    (deliverable : state.next setup consumer producer ≠ none) : ∃ producer, state.notice producer ≠ none := by
  have checked := watched.sleeping sleeps
  by_cases armed : state.ticket consumer = state.slot consumer
  · obtain ⟨notice, pending, -⟩ := watched.covered (by simp [checked]) armed producer
      (watched.complete checked producer) deliverable
    exact ⟨producer, by simp [pending]⟩
  · obtain ⟨other, notice, taken, -⟩ := watched.woken sleeps armed
    exact ⟨other, by simp [taken]⟩

section Contracts

/-- What the steps of one side leave alone at a receiver. -/
structure Aside (before after : State n m (Fin m) R) (consumer : Fin m) : Prop where
  receiver : after.receiver consumer = before.receiver consumer
  ticket : after.ticket consumer = before.ticket consumer ∨ after.ticket consumer = 0
  asleep : after.asleep consumer = before.asleep consumer ∨ after.asleep consumer = none
  active : before.active = true → after.active = true

/-- A step of a receiver. -/
structure Receives (consumer : Fin m) (before after : State n m (Fin m) R) : Prop where
  slot : after.slot = before.slot
  steps : after.steps = before.steps
  notice : after.notice = before.notice
  visible : after.visible = before.visible
  active : before.active = true → after.active = true
  receiver : ∀ other, other ≠ consumer → after.receiver other = before.receiver other
  ticket : ∀ other, other ≠ consumer → after.ticket other = before.ticket other
  asleep : ∀ other, other ≠ consumer → after.asleep other = before.asleep other

/-- A step of a producer. -/
structure Notifies (producer : Fin n) (before after : State n m (Fin m) R) : Prop where
  aside : ∀ consumer, Aside before after consumer
  notice : ∀ other, other ≠ producer → after.notice other = before.notice other

def wakeRely : Thread n (Fin m) R → State n m (Fin m) R → State n m (Fin m) R → Prop
  | .producer producer, before, after => after.notice producer = before.notice producer
  | .handle consumer, before, after => Aside before after consumer
  | .registrar _, _, _ => True

def wakeGuarantee : Thread n (Fin m) R → State n m (Fin m) R → State n m (Fin m) R → Prop
  | .producer producer, before, after => Notifies producer before after
  | .handle consumer, before, after => Receives consumer before after
  | .registrar _, before, after => after = before

/-- A receiver between two passes. -/
structure Idle (consumer : Fin m) (state : State n m (Fin m) R) : Prop where
  watch : (state.receiver consumer).watch = .none
  awake : state.asleep consumer = none

/-- A receiver inside a pass. -/
structure Passing (consumer : Fin m) (pass : Pass) (watch : Watch) (state : State n m (Fin m) R) : Prop where
  watch : (state.receiver consumer).watch = if pass.armed then watch else .none
  expected : pass.expected = (state.receiver consumer).seen % 2 ^ 32

/-- What holds of a receiver before each pass. -/
def AtStep (consumer : Fin m) (state : State n m (Fin m) R) : Step n → Prop
  | .retry _ => Idle consumer state
  | .scan pass _ => Passing consumer pass .watching state ∧ state.asleep consumer = none
  | .park pass => Passing consumer pass .checked state ∧ state.asleep consumer = none
  | .sleep pass => Passing consumer pass .checked state ∧
      (state.asleep consumer = some pass.armed ∨ state.asleep consumer = none)
  | .done _ => Idle consumer state

/-- An armed receiver goes to sleep before the epoch has run around since its snapshot. -/
def SleepsInTime (before after : State n m (Fin m) R) : Prop :=
  ∀ consumer, after.asleep consumer = some true → before.asleep consumer = some true ∨
    before.steps < (before.receiver consumer).seen + 2 ^ 32

def wakeDiscipline (setup : Setup) (slot : Fin m → Nat) :
    Discipline (State n m (Fin m) R) (Thread n (Fin m) R) (Label n m) where
  invariant state := state.slot = slot ∧ ∀ consumer, Watched setup state consumer
  action _ := SleepsInTime
  may _ _ := True
  rely := wakeRely
  guarantee := wakeGuarantee
  label thread label state := match thread, label with
    | .producer producer, _ => state.notice producer = none
    | .handle consumer, .receive seat token _ next => seat = consumer ∧ token = slot consumer ∧ AtStep consumer state next
    | .handle consumer, _ => Idle consumer state
    | .registrar _, _ => True

theorem Aside.refl (state : State n m (Fin m) R) (consumer : Fin m) : Aside state state consumer :=
  ⟨rfl, .inl rfl, .inl rfl, id⟩

theorem Aside.trans {first second third : State n m (Fin m) R} {consumer : Fin m} (earlier : Aside first second consumer)
    (later : Aside second third consumer) : Aside first third consumer where
  receiver := later.receiver.trans earlier.receiver
  ticket := later.ticket.elim (fun same => same ▸ earlier.ticket) .inr
  asleep := later.asleep.elim (fun same => same ▸ earlier.asleep) .inr
  active := later.active ∘ earlier.active

theorem Receives.refl (consumer : Fin m) (state : State n m (Fin m) R) : Receives consumer state state :=
  ⟨rfl, rfl, rfl, rfl, id, fun _ _ => rfl, fun _ _ => rfl, fun _ _ => rfl⟩

theorem Receives.aside {consumer other : Fin m} {before after : State n m (Fin m) R} (receives : Receives consumer before after)
    (different : other ≠ consumer) : Aside before after other :=
  ⟨receives.receiver other different, .inl (receives.ticket other different), .inl (receives.asleep other different),
    receives.active⟩

theorem wakeLawful (setup : Setup) (slot : Fin m → Nat) (thread : Thread n (Fin m) R) :
    ((wakeDiscipline setup slot).contract thread).Lawful where
  refl state := by
    match thread with
    | .producer _ => exact rfl
    | .handle consumer => exact .refl state consumer
    | .registrar _ => trivial
  trans {first second third} earlier later := by
    match thread, earlier, later with
    | .producer _, earlier, later => exact Eq.trans later earlier
    | .handle _, earlier, later => exact Aside.trans earlier later
    | .registrar _, _, _ => trivial
  idle state := by
    match thread with
    | .producer _ => exact ⟨fun consumer => .refl state consumer, fun _ _ => rfl⟩
    | .handle consumer => exact .refl consumer state
    | .registrar _ => exact rfl
  stays _ _ := trivial

theorem wakeCompatible {actor observer : Thread n (Fin m) R} {before after : State n m (Fin m) R}
    (different : actor ≠ observer) (step : wakeGuarantee actor before after) : wakeRely observer before after := by
  match observer, actor, step with
  | .registrar _, _, _ => trivial
  | .producer producer, .producer other, step => exact Notifies.notice step _ fun same => different (same ▸ rfl)
  | .producer _, .handle _, step => exact congrFun (Receives.notice step) _
  | .producer _, .registrar _, step =>
      obtain rfl : after = before := step
      exact rfl
  | .handle consumer, .producer _, step => exact Notifies.aside step consumer
  | .handle consumer, .handle other, step => exact Receives.aside step fun same => different (same ▸ rfl)
  | .handle consumer, .registrar _, step =>
      obtain rfl : after = before := step
      exact .refl after consumer

end Contracts

section Receivers

variable {setup : Setup} {slot : Fin m → Nat} {consumer : Fin m} {state before after : State n m (Fin m) R}

abbrev receiverContract (setup : Setup) (slot : Fin m → Nat) (consumer : Fin m) : Contract (State n m (Fin m) R) :=
  (wakeDiscipline setup slot).contract (.handle consumer)

theorem next_congr {producer : Fin n} (visible : after.visible producer = before.visible producer)
    (readCounts : (after.receiver consumer).readCounts producer = (before.receiver consumer).readCounts producer)
    (expected : (after.receiver consumer).expectedSequence = (before.receiver consumer).expectedSequence) :
    after.next setup consumer producer = before.next setup consumer producer := by
  simp only [State.next, visible, readCounts, expected]

/-- A step of another receiver. -/
theorem Watched.other (watched : Watched setup before consumer) (slot : after.slot = before.slot)
    (steps : after.steps = before.steps) (notice : after.notice = before.notice) (visible : after.visible = before.visible)
    (active : before.active = true → after.active = true) (receiver : after.receiver consumer = before.receiver consumer)
    (ticket : after.ticket consumer = before.ticket consumer) (asleep : after.asleep consumer = before.asleep consumer) :
    Watched setup after consumer where
  seen := by
    rw [receiver, steps]
    exact watched.seen
  active := by
    rw [receiver, slot]
    exact fun watches => (watched.active watches).imp_left active
  covered := by
    rw [receiver, ticket, slot]
    intro watches armed producer scanned deliverable
    rw [next_congr (congrFun visible producer) (by rw [receiver]) (by rw [receiver])] at deliverable
    rw [notice]
    exact watched.covered watches armed producer scanned deliverable
  complete := by
    rw [receiver]
    exact watched.complete
  moved := by
    rw [receiver, ticket, slot, steps, State.Unbumped, notice]
    exact watched.moved
  sleeping := by
    rw [receiver, asleep]
    exact watched.sleeping
  woken := by
    rw [asleep, ticket, slot, State.Taken, notice]
    exact watched.woken

/-- A receiver outside its passes watches nothing. -/
theorem Watched.idle (seen : (state.receiver consumer).seen ≤ state.steps) (idle : Idle consumer state) :
    Watched setup state consumer where
  seen := seen
  active watches := absurd idle.watch watches
  covered watches := absurd idle.watch watches
  complete checked := by simp [idle.watch] at checked
  moved checked := by simp [idle.watch] at checked
  sleeping sleeps := by simp [idle.awake] at sleeps
  woken sleeps := by simp [idle.awake] at sleeps

/-- A receiver that scans has not yet checked its ticket. -/
theorem Watched.scanning (seen : (state.receiver consumer).seen ≤ state.steps)
    (active : (state.receiver consumer).watch ≠ .none → state.active = true ∧ phase (state.slot consumer) = kActive)
    (covered : (state.receiver consumer).watch ≠ .none → state.ticket consumer = state.slot consumer → ∀ producer,
      (state.receiver consumer).scanned producer = true → state.next setup consumer producer ≠ none →
      ∃ notice, state.notice producer = some notice ∧ notice.Pending consumer)
    (unchecked : (state.receiver consumer).watch ≠ .checked) (awake : state.asleep consumer = none) :
    Watched setup state consumer where
  seen := seen
  active := active
  covered := covered
  complete checked := absurd checked unchecked
  moved checked := absurd checked unchecked
  sleeping sleeps := by simp [awake] at sleeps
  woken sleeps := by simp [awake] at sleeps

/-- The own step of a receiver keeps the invariant when it keeps what is said of the receiver. -/
theorem Receives.keeps (receives : Receives consumer before after)
    (invariant : (wakeDiscipline (R := R) setup slot).invariant before) (own : Watched setup after consumer) :
    (wakeDiscipline (R := R) setup slot).invariant after := by
  refine ⟨receives.slot.trans invariant.1, fun other => ?_⟩
  by_cases same : other = consumer
  · exact same ▸ own
  · exact (invariant.2 other).other receives.slot receives.steps receives.notice receives.visible receives.active
      (receives.receiver other same) (receives.ticket other same) (receives.asleep other same)

/-- A step that no receiver notices. -/
structure Still (before after : State n m (Fin m) R) : Prop where
  slot : after.slot = before.slot
  steps : after.steps = before.steps
  notice : after.notice = before.notice
  visible : after.visible = before.visible
  receiver : after.receiver = before.receiver
  ticket : after.ticket = before.ticket
  asleep : after.asleep = before.asleep
  active : before.active = true → after.active = true

theorem Still.refl (state : State n m (Fin m) R) : Still state state := ⟨rfl, rfl, rfl, rfl, rfl, rfl, rfl, id⟩

theorem Still.ite {condition : Prop} [Decidable condition] (still : condition → Still before after) :
    Still before (if condition then after else before) := by
  split
  · exact still ‹_›
  · exact .refl before

theorem Still.receives (still : Still before after) : Receives consumer before after :=
  ⟨still.slot, still.steps, still.notice, still.visible, still.active, fun _ _ => by rw [still.receiver],
    fun _ _ => by rw [still.ticket], fun _ _ => by rw [still.asleep]⟩

theorem Still.watched (still : Still before after) (watched : Watched setup before consumer) :
    Watched setup after consumer :=
  watched.other still.slot still.steps still.notice still.visible still.active (by rw [still.receiver])
    (by rw [still.ticket]) (by rw [still.asleep])

theorem Still.aside (still : Still before after) : Aside before after consumer :=
  ⟨by rw [still.receiver], .inl (by rw [still.ticket]), .inl (by rw [still.asleep]), still.active⟩

theorem still_load {α : Type} (read : State n m (Fin m) R → α) : Each Still (Prog.load read) := .load .refl read

/-- A program that no receiver notices keeps every fact that the others keep. -/
theorem still_safe {α : Type} {holds : State n m (Fin m) R → Prop} {program : Prog (State n m (Fin m) R) α}
    (each : Each Still program) (stable : ∀ {before after}, Aside before after consumer → holds before → holds after)
    (entry : holds state) : Safe (receiverContract setup slot consumer) (fun _ => holds) program state :=
  Safe.of_each each
    (fun ready _ still held => ⟨still.receives.keeps ready.keeps (still.watched (ready.keeps.2 consumer)),
      still.receives, stable still.aside held⟩)
    (fun rely _ held => stable rely held) entry

theorem still_tryTakeGate {thread : Thread n (Fin m) R} : Each Still (tryTakeGate thread) :=
  .modifyGet (fun _ => .ite fun _ => ⟨rfl, rfl, rfl, rfl, rfl, rfl, rfl, id⟩) _

theorem still_claimRound {producer : Fin n} : Each (Still (m := m) (R := R)) (claimRound () producer) :=
  .bind (still_load _) fun _ => .ret _

theorem still_activate : Each (Still (n := n) (m := m) (R := R)) activate := by
  refine .bind (still_load _) fun current => ?_
  split
  · exact .ret _
  · exact .store fun _ => ⟨rfl, rfl, rfl, rfl, rfl, rfl, rfl, fun _ => rfl⟩

theorem Idle.stable (idle : Idle consumer before) (aside : Aside before after consumer) : Idle consumer after where
  watch := by
    rw [aside.receiver]
    exact idle.watch
  awake := aside.asleep.elim (fun same => same.trans idle.awake) id

theorem Passing.stable {pass : Pass} {watch : Watch} (passing : Passing consumer pass watch before)
    (aside : Aside before after consumer) : Passing consumer pass watch after := by
  refine ⟨?_, ?_⟩
  · rw [aside.receiver]
    exact passing.watch
  · rw [aside.receiver]
    exact passing.expected

theorem Aside.awake (aside : Aside before after consumer) (awake : before.asleep consumer = none) :
    after.asleep consumer = none := aside.asleep.elim (fun same => same.trans awake) id

theorem AtStep.stable {next : Step n}
    (steps : AtStep consumer before next) (aside : Aside before after consumer) : AtStep consumer after next := by
  cases next with
  | retry spins => exact Idle.stable steps aside
  | scan pass now => exact ⟨steps.1.stable aside, aside.awake steps.2⟩
  | park pass => exact ⟨steps.1.stable aside, aside.awake steps.2⟩
  | sleep pass => exact ⟨steps.1.stable aside, aside.asleep.elim (fun same => same ▸ steps.2) .inr⟩
  | done received => exact Idle.stable steps aside

/-- A receiver after the call that arms its ticket. -/
structure ArmedAs (consumer : Fin m) (armed : Bool) (state : State n m (Fin m) R) : Prop where
  watch : (state.receiver consumer).watch = if armed then .watching else .none
  awake : state.asleep consumer = none

theorem ArmedAs.stable {armed : Bool} (as : ArmedAs consumer armed before) (aside : Aside before after consumer) :
    ArmedAs consumer armed after := by
  refine ⟨?_, aside.awake as.awake⟩
  rw [aside.receiver]
  exact as.watch

theorem Idle.armedAs (idle : Idle consumer state) : ArmedAs consumer false state := ⟨idle.watch, idle.awake⟩

theorem armed_ret {result : Option Bool} (as : ArmedAs consumer (result.getD false) state) :
    Safe (receiverContract (R := R) setup slot consumer) (fun result => ArmedAs consumer (result.getD false)) (.ret result)
      state := fun _ between _ => as.stable between

/-- A step on the own ticket of a receiver that watches nothing. -/
theorem ticket_keeps (invariant : (wakeDiscipline (R := R) setup slot).invariant before) (idle : Idle consumer before)
    (receiver : after.receiver = before.receiver) (slot_ : after.slot = before.slot) (steps : after.steps = before.steps)
    (notice : after.notice = before.notice) (visible : after.visible = before.visible)
    (active : after.active = before.active) (asleep : after.asleep = before.asleep)
    (ticket : ∀ other, other ≠ consumer → after.ticket other = before.ticket other) :
    (wakeDiscipline (R := R) setup slot).invariant after ∧ Receives consumer before after ∧ Idle consumer after := by
  have receives : Receives consumer before after := ⟨slot_, steps, notice, visible, fun was => active.trans was,
    fun _ _ => by rw [receiver], ticket, fun _ _ => by rw [asleep]⟩
  have idle : Idle consumer after := ⟨by rw [receiver]; exact idle.watch, by rw [asleep]; exact idle.awake⟩
  refine ⟨receives.keeps invariant (.idle ?_ idle), receives, idle⟩
  rw [receiver, steps]
  exact (invariant.2 consumer).seen

theorem installTicket_keeps (token : Nat) (invariant : (wakeDiscipline (R := R) setup slot).invariant state)
    (idle : Idle consumer state) :
    (wakeDiscipline (R := R) setup slot).invariant
        ((state.setTicket consumer token).setInstalling consumer (some (consumer, token))) ∧
      Receives consumer state ((state.setTicket consumer token).setInstalling consumer (some (consumer, token))) ∧
      Idle consumer ((state.setTicket consumer token).setInstalling consumer (some (consumer, token))) :=
  ticket_keeps invariant idle rfl rfl rfl rfl rfl rfl rfl fun _ different => Function.update_of_ne different ..

theorem removeTicket_keeps (token : Nat) (invariant : (wakeDiscipline (R := R) setup slot).invariant state)
    (idle : Idle consumer state) {installing : Option (Fin m × Nat)} :
    (wakeDiscipline (R := R) setup slot).invariant ((state.removeTicket consumer token).setInstalling consumer installing) ∧
      Receives consumer state ((state.removeTicket consumer token).setInstalling consumer installing) ∧
      Idle consumer ((state.removeTicket consumer token).setInstalling consumer installing) := by
  unfold State.removeTicket
  split
  · exact ticket_keeps invariant idle rfl rfl rfl rfl rfl rfl rfl fun other different => Function.update_of_ne different ..
  · exact ticket_keeps invariant idle rfl rfl rfl rfl rfl rfl rfl fun _ _ => rfl

theorem validate_watches {token : Nat} (invariant : (wakeDiscipline (R := R) setup slot).invariant state)
    (idle : Idle consumer state) (active : state.active = true) (live : phase token = kActive)
    (current : state.slot consumer = token) {after : State n m (Fin m) R}
    (watches : after = (state.setInstalling consumer none).setReceiver consumer fun receiver =>
      {receiver with watch := .watching, scanned := fun _ => false}) :
    (wakeDiscipline (R := R) setup slot).invariant after ∧ Receives consumer state after ∧ ArmedAs consumer true after := by
  have receives : Receives consumer state after := by
    subst watches
    exact ⟨rfl, rfl, rfl, rfl, id, fun _ different => Function.update_of_ne different .., fun _ _ => rfl, fun _ _ => rfl⟩
  have own : after.receiver consumer =
      {state.receiver consumer with watch := .watching, scanned := fun _ => false} := by
    subst watches
    exact Function.update_self ..
  have awake : after.asleep consumer = none := by
    subst watches
    exact idle.awake
  refine ⟨receives.keeps invariant (.scanning ?_ (fun _ => ⟨receives.active active, ?_⟩) ?_ ?_ awake), receives,
    ⟨by rw [own]; rfl, awake⟩⟩
  · rw [own, receives.steps]
    exact (invariant.2 consumer).seen
  · rw [receives.slot, current, live]
  · rw [own]
    intro _ _ producer scanned
    cases scanned
  · rw [own]
    exact nofun

/-- The own step of a receiver on its members. -/
theorem receives_setReceiver (consumer : Fin m) (state : State n m (Fin m) R) (change : Receiver n → Receiver n) :
    Receives consumer state (state.setReceiver consumer change) :=
  ⟨rfl, rfl, rfl, rfl, id, fun _ different => Function.update_of_ne different .., fun _ _ => rfl, fun _ _ => rfl⟩

theorem setReceiver_own (consumer : Fin m) (state : State n m (Fin m) R) (change : Receiver n → Receiver n) :
    (state.setReceiver consumer change).receiver consumer = change (state.receiver consumer) := Function.update_self ..

/-- A step of a receiver on its members that moves no cursor. -/
structure Observes (setup : Setup) (consumer : Fin m) (before after : State n m (Fin m) R) : Prop where
  receives : Receives consumer before after
  ticket : after.ticket consumer = before.ticket consumer
  asleep : after.asleep consumer = before.asleep consumer
  watch : (after.receiver consumer).watch = (before.receiver consumer).watch
  readCounts : (after.receiver consumer).readCounts = (before.receiver consumer).readCounts
  expected : (after.receiver consumer).expectedSequence = (before.receiver consumer).expectedSequence
  scanned : ∀ producer, (after.receiver consumer).scanned producer = true →
    (before.receiver consumer).scanned producer = true ∨ before.next setup consumer producer = none

theorem Observes.next (observes : Observes setup consumer before after) (producer : Fin n) :
    after.next setup consumer producer = before.next setup consumer producer :=
  next_congr (congrFun observes.receives.visible producer) (congrFun observes.readCounts producer) observes.expected

theorem Observes.trans {third : State n m (Fin m) R} (earlier : Observes setup consumer before after)
    (later : Observes setup consumer after third) (receives : Receives consumer before third) :
    Observes setup consumer before third where
  receives := receives
  ticket := later.ticket.trans earlier.ticket
  asleep := later.asleep.trans earlier.asleep
  watch := later.watch.trans earlier.watch
  readCounts := later.readCounts.trans earlier.readCounts
  expected := later.expected.trans earlier.expected
  scanned producer found := (later.scanned producer found).elim (earlier.scanned producer) fun none_ =>
    .inr (earlier.next producer ▸ none_)

theorem Observes.keeps (observes : Observes setup consumer before after)
    (invariant : (wakeDiscipline (R := R) setup slot).invariant before)
    (unchecked : (before.receiver consumer).watch ≠ .checked) (awake : before.asleep consumer = none)
    (seen : (after.receiver consumer).seen ≤ before.steps) : (wakeDiscipline (R := R) setup slot).invariant after := by
  refine observes.receives.keeps invariant (.scanning ?_ ?_ ?_ ?_ (observes.asleep.trans awake))
  · rw [observes.receives.steps]
    exact seen
  · rw [observes.watch, observes.receives.slot]
    exact fun watches => ((invariant.2 consumer).active watches).imp_left observes.receives.active
  · rw [observes.watch, observes.ticket, observes.receives.slot, observes.receives.notice]
    intro watches armed producer found deliverable
    rw [observes.next] at deliverable
    exact (invariant.2 consumer).covered watches armed producer
      ((observes.scanned producer found).resolve_right deliverable) deliverable
  · rw [observes.watch]
    exact unchecked

theorem observes_setReceiver {change : Receiver n → Receiver n}
    (watch : (change (state.receiver consumer)).watch = (state.receiver consumer).watch)
    (readCounts : (change (state.receiver consumer)).readCounts = (state.receiver consumer).readCounts)
    (expected : (change (state.receiver consumer)).expectedSequence = (state.receiver consumer).expectedSequence)
    (scanned : ∀ producer, (change (state.receiver consumer)).scanned producer = true →
      (state.receiver consumer).scanned producer = true ∨ state.next setup consumer producer = none) :
    Observes setup consumer state (state.setReceiver consumer change) := by
  have own := setReceiver_own consumer state change
  exact ⟨receives_setReceiver consumer state change, rfl, rfl, by rw [own, watch], by rw [own, readCounts],
    by rw [own, expected], by rw [own]; exact scanned⟩

theorem observes_noteEmpty (setup : Setup) (consumer : Fin m) (state : State n m (Fin m) R) (producer : Fin n) :
    Observes setup consumer state (state.noteEmpty setup consumer producer) := by
  unfold State.noteEmpty
  split
  · rename_i empty
    refine observes_setReceiver rfl rfl rfl fun other found => ?_
    by_cases same : other = producer
    · exact .inr (same ▸ Option.isNone_iff_eq_none.mp empty)
    · exact .inl (by simpa [same] using found)
  · exact ⟨.refl consumer state, rfl, rfl, rfl, rfl, rfl, fun _ found => .inl found⟩

theorem noteEmpty_seen (state : State n m (Fin m) R) (producer : Fin n) :
    ((state.noteEmpty setup consumer producer).receiver consumer).seen = (state.receiver consumer).seen := by
  unfold State.noteEmpty
  split
  · rw [setReceiver_own]
  · rfl

/-- What a scan has found stays found, and a ring without a deliverable frame is found. -/
theorem noteEmpty_scanned (state : State n m (Fin m) R) (producer other : Fin n)
    (found : (state.receiver consumer).scanned other = true ∨
      (other = producer ∧ state.next setup consumer producer = none)) :
    ((state.noteEmpty setup consumer producer).receiver consumer).scanned other = true := by
  unfold State.noteEmpty
  split
  · rw [setReceiver_own]
    by_cases same : other = producer
    · simp [same]
    · simpa [same] using found
  · rename_i some_
    rw [Option.isNone_iff_eq_none] at some_
    exact found.resolve_right fun here => some_ here.2

theorem snapshotEpoch_watches {armed : Bool} (as : ArmedAs consumer armed state) :
    Safe (receiverContract (R := R) setup slot consumer) (fun expected current => ArmedAs consumer armed current ∧
      expected = (current.receiver consumer).seen % 2 ^ 32) (snapshotEpoch consumer) state := by
  refine Safe.modifyGet_last fun first between ready _ => ?_
  have as := as.stable between
  have own := setReceiver_own consumer first fun receiver => {receiver with seen := first.steps}
  have unchecked : (first.receiver consumer).watch ≠ .checked := by
    rw [as.watch]
    split <;> simp
  have observes : Observes setup consumer first
      (first.setReceiver consumer fun receiver => {receiver with seen := first.steps}) :=
    observes_setReceiver rfl rfl rfl fun producer scanned => .inl scanned
  have kept := observes.keeps ready.keeps unchecked as.awake (by rw [own])
  have armed : ArmedAs consumer armed (first.setReceiver consumer fun receiver => {receiver with seen := first.steps}) :=
    ⟨by rw [own]; exact as.watch, as.awake⟩
  refine ⟨kept, observes.receives, fun later between _ => ⟨armed.stable between, ?_⟩⟩
  rw [between.receiver, own]
  rfl

theorem clear_idles {token : Nat} (invariant : (wakeDiscipline (R := R) setup slot).invariant state)
    (awake : state.asleep consumer = none) {after : State n m (Fin m) R}
    (clears : after = (state.removeTicket consumer token).setReceiver consumer fun receiver =>
      {receiver with watch := .none}) :
    (wakeDiscipline (R := R) setup slot).invariant after ∧ Receives consumer state after ∧ Idle consumer after := by
  have own : after.receiver consumer = {state.receiver consumer with watch := .none} := by
    subst clears
    unfold State.removeTicket
    split <;> exact Function.update_self ..
  have receives : Receives consumer state after := by
    subst clears
    unfold State.removeTicket
    split
    · exact ⟨rfl, rfl, rfl, rfl, id, fun _ different => Function.update_of_ne different ..,
        fun _ different => Function.update_of_ne different .., fun _ _ => rfl⟩
    · exact receives_setReceiver consumer state _
  have idle : Idle consumer after := by
    refine ⟨by rw [own], ?_⟩
    subst clears
    unfold State.removeTicket
    split <;> exact awake
  refine ⟨receives.keeps invariant (.idle ?_ idle), receives, idle⟩
  rw [own, receives.steps]
  exact (invariant.2 consumer).seen

/-- The destructor of a pass ends the watch. -/
theorem endPass_idles {token : Nat} {pass : Pass} {watch : Watch} {next : Step n}
    (passing : Passing consumer pass watch state) (awake : state.asleep consumer = none)
    (rests : ∀ current : State n m (Fin m) R, Idle consumer current → AtStep consumer current next) :
    Safe (receiverContract (R := R) setup slot consumer) (fun next current => AtStep consumer current next)
      (endPass consumer consumer token pass next) state := by
  have watches := passing.watch
  unfold endPass ticketCleanup Prog.when
  split
  · refine Safe.store_bind fun first between ready _ => ?_
    obtain ⟨kept, receives, idle⟩ := clear_idles ready.keeps (between.awake awake) rfl
    exact ⟨kept, receives, fun later between _ => rests later (idle.stable between)⟩
  · rename_i unarmed
    rw [if_neg unarmed] at watches
    exact fun later between _ => rests later (Idle.stable ⟨watches, awake⟩ between)

/-- A scan of the rings: those that are not left to visit are found without a deliverable frame. -/
structure Scans (consumer : Fin m) (pass : Pass) (rest : List (Fin n)) (state : State n m (Fin m) R) : Prop where
  passing : Passing consumer pass .watching state
  awake : state.asleep consumer = none
  found : ∀ producer, producer ∈ rest ∨ (state.receiver consumer).scanned producer = true

section Scans

variable {pass : Pass} {rest : List (Fin n)} {producer : Fin n}

theorem Passing.unchecked (passing : Passing consumer pass .watching state) :
    (state.receiver consumer).watch ≠ .checked := by
  rw [passing.watch]
  split <;> simp

theorem Scans.stable (scans : Scans consumer pass rest before) (aside : Aside before after consumer) :
    Scans consumer pass rest after := by
  refine ⟨scans.passing.stable aside, aside.awake scans.awake, ?_⟩
  rw [aside.receiver]
  exact scans.found

/-- An observation of a ring in a scan. -/
theorem Scans.observe (scans : Scans consumer pass (producer :: rest) before)
    (observes : Observes setup consumer before after)
    (invariant : (wakeDiscipline (R := R) setup slot).invariant before)
    (seen : (after.receiver consumer).seen = (before.receiver consumer).seen)
    (scanned : ∀ other, (before.receiver consumer).scanned other = true → (after.receiver consumer).scanned other = true) :
    (wakeDiscipline (R := R) setup slot).invariant after ∧ Receives consumer before after ∧
      Scans consumer pass (producer :: rest) after := by
  refine ⟨observes.keeps invariant scans.passing.unchecked scans.awake ?_, observes.receives,
    ⟨?_, ?_⟩, observes.asleep.trans scans.awake, fun other => (scans.found other).imp_right (scanned other)⟩
  · rw [seen]
    exact (invariant.2 consumer).seen
  · rw [observes.watch]
    exact scans.passing.watch
  · rw [seen]
    exact scans.passing.expected

/-- A ring that is found without a deliverable frame is visited. -/
theorem Scans.visited (scans : Scans consumer pass (producer :: rest) state)
    (found : (state.receiver consumer).scanned producer = true) : Scans consumer pass rest state := by
  refine ⟨scans.passing, scans.awake, fun other => ?_⟩
  rcases scans.found other with waits | found
  · rcases List.mem_cons.mp waits with rfl | waits
    · exact .inr found
    · exact .inl waits
  · exact .inr found

theorem refreshVisible_scans (scans : Scans consumer pass (producer :: rest) state) :
    Safe (receiverContract (R := R) setup slot consumer)
      (fun readable current => Scans consumer pass (if readable then producer :: rest else rest) current)
      (refreshVisible setup consumer producer) state := by
  have law := wakeLawful (n := n) (R := R) setup slot (.handle consumer)
  refine Safe.load_bind law fun first between _ => ?_
  have scans := scans.stable between
  split
  swap
  · exact fun _ between _ => scans.stable between
  refine Safe.modifyGet_bind fun second between ready _ => ?_
  have same := between.receiver
  have scans := scans.stable between
  have noted := observes_noteEmpty setup consumer second producer
  have cached : Observes setup consumer (second.noteEmpty setup consumer producer)
      ((second.noteEmpty setup consumer producer).setReceiver consumer fun receiver => {receiver with
        cachedVisible := Function.update receiver.cachedVisible producer (second.visible producer).length}) :=
    observes_setReceiver rfl rfl rfl fun _ found => .inl found
  have receives : Receives consumer second ((second.noteEmpty setup consumer producer).setReceiver consumer
      fun receiver => {receiver with
        cachedVisible := Function.update receiver.cachedVisible producer (second.visible producer).length}) :=
    ⟨noted.receives.slot, noted.receives.steps, noted.receives.notice, noted.receives.visible, noted.receives.active,
      fun other different => (Function.update_of_ne different ..).trans (noted.receives.receiver other different),
      noted.receives.ticket, noted.receives.asleep⟩
  have own := setReceiver_own consumer (second.noteEmpty setup consumer producer) fun receiver =>
    {receiver with cachedVisible := Function.update receiver.cachedVisible producer (second.visible producer).length}
  obtain ⟨kept, receives, later⟩ := scans.observe (noted.trans cached receives) ready.keeps
    (by rw [own]; exact noteEmpty_seen second producer)
    (fun other found => by rw [own]; exact noteEmpty_scanned second producer other (.inl found))
  refine ⟨kept, receives, fun third between _ => ?_⟩
  dsimp only
  split
  · exact later.stable between
  · rename_i unreadable
    refine (later.visited ?_).stable between
    rw [own]
    refine noteEmpty_scanned second producer producer (.inr ⟨rfl, ?_⟩)
    rw [decide_eq_true_eq, Nat.not_lt, ← same] at unreadable
    simp [State.next, List.getElem?_eq_none unreadable]

theorem still_isExpired (frame : Frame) (now : Option Nat) :
    Each (Still (n := n) (m := m) (R := R)) (isExpired frame now) := by
  unfold isExpired
  split
  · exact .ret _
  · split
    · exact .ret _
    · exact .bind (still_load _) fun _ => .ret _

/-- What a visit or a scan leaves behind. -/
def Visited (consumer : Fin m) (pass : Pass) (rest : List (Fin n)) (state : State n m (Fin m) R) : Visit n → Prop
  | .nothing _ => Scans consumer pass rest state
  | _ => Passing consumer pass .watching state ∧ state.asleep consumer = none

theorem Visited.stable {visit : Visit n} (visited : Visited consumer pass rest before visit)
    (aside : Aside before after consumer) : Visited consumer pass rest after visit := by
  cases visit with
  | nothing now => exact Scans.stable visited aside
  | skipped now => exact ⟨visited.1.stable aside, aside.awake visited.2⟩
  | found producer frame => exact ⟨visited.1.stable aside, aside.awake visited.2⟩

/-- A frame moves the cursor of a receiver that has not checked its ticket. -/
theorem consume_keeps {frame : Frame} (invariant : (wakeDiscipline (R := R) setup slot).invariant state)
    (unchecked : (state.receiver consumer).watch ≠ .checked) (awake : state.asleep consumer = none) :
    (wakeDiscipline (R := R) setup slot).invariant (state.setReceiver consumer (Receiver.consume producer frame)) := by
  have own := setReceiver_own consumer state (Receiver.consume producer frame)
  refine (receives_setReceiver consumer state _).keeps invariant (.scanning ?_ ?_ ?_ ?_ awake)
  · rw [own]
    exact (invariant.2 consumer).seen
  · rw [own]
    exact (invariant.2 consumer).active
  · rw [own]
    intro _ _ other found
    cases found
  · rw [own]
    exact unchecked

theorem Idle.consume {frame : Frame} (idle : Idle consumer state) :
    Idle consumer (state.setReceiver consumer (Receiver.consume producer frame)) := by
  refine ⟨?_, idle.awake⟩
  rw [setReceiver_own]
  exact idle.watch

theorem visitRing_scans {now : Option Nat} (scans : Scans consumer pass (producer :: rest) state) :
    Safe (receiverContract (R := R) setup slot consumer)
      (fun visit current => Visited consumer pass rest current visit) (visitRing setup consumer now producer) state := by
  have law := wakeLawful (n := n) (R := R) setup slot (.handle consumer)
  refine Safe.bind law (refreshVisible_scans scans) fun readable first _ scans => ?_
  cases readable with
  | false => exact fun _ between _ => Scans.stable scans between
  | true =>
      refine Safe.modifyGet_bind fun second between ready _ => ?_
      have scans : Scans consumer pass (producer :: rest) second := Scans.stable scans between
      obtain ⟨kept, receives, later⟩ := scans.observe (observes_noteEmpty setup consumer second producer) ready.keeps
        (noteEmpty_seen second producer) (fun other found => noteEmpty_scanned second producer other (.inl found))
      refine ⟨kept, receives, ?_⟩
      cases next : second.next setup consumer producer with
      | none =>
          have visited := later.visited (noteEmpty_scanned second producer producer (.inr ⟨rfl, next⟩))
          exact fun _ between _ => visited.stable between
      | some frame =>
          refine Safe.bind law (still_safe (still_isExpired frame now) (fun aside scans => Scans.stable scans aside) later)
            fun ⟨expired, now⟩ third _ scans => ?_
          dsimp only
          split
          · refine Safe.store_bind fun fourth between ready _ => ?_
            have scans := scans.stable between
            have own := setReceiver_own consumer fourth (Receiver.consume producer frame)
            have passing : Passing consumer pass .watching
                (fourth.setReceiver consumer (Receiver.consume producer frame)) :=
              ⟨by rw [own]; exact scans.passing.watch, by rw [own]; exact scans.passing.expected⟩
            exact ⟨consume_keeps ready.keeps scans.passing.unchecked scans.awake, receives_setReceiver consumer fourth _,
              fun _ between _ => ⟨passing.stable between, between.awake scans.awake⟩⟩
          · refine Safe.store_bind fun fourth between ready _ => ?_
            have scans := scans.stable between
            have own := setReceiver_own consumer fourth fun receiver =>
              {receiver with lastHitRing := (producer.val + 1) % n}
            have observes : Observes setup consumer fourth (fourth.setReceiver consumer fun receiver =>
                {receiver with lastHitRing := (producer.val + 1) % n}) :=
              observes_setReceiver rfl rfl rfl fun _ found => .inl found
            obtain ⟨kept, receives, hit⟩ := scans.observe observes ready.keeps (by rw [own])
              (fun _ found => by rw [own]; exact found)
            exact ⟨kept, receives, fun _ between _ => ⟨hit.passing.stable between, between.awake hit.awake⟩⟩

/-- A scan that ends without a frame has found every ring without a deliverable one. -/
theorem scanRings_scans {now : Option Nat} (passing : Passing consumer pass .watching state)
    (awake : state.asleep consumer = none) : Safe (receiverContract (R := R) setup slot consumer)
      (fun visit current => Visited consumer pass [] current visit) (scanRings setup consumer now) state := by
  have law := wakeLawful (n := n) (R := R) setup slot (.handle consumer)
  refine Safe.load_bind law fun first between _ => ?_
  have entry : Scans consumer pass ((List.finRange n).rotate (first.receiver consumer).lastHitRing) first :=
    ⟨passing.stable between, between.awake awake, fun producer => .inl (by simp [List.mem_rotate])⟩
  refine Safe.bind law (Safe.foldUntil law (I := fun rest _ current => Scans consumer pass rest current)
    (S := fun visit current => Visited consumer pass [] current visit)
    (fun between _ scans => scans.stable between) (fun producer rest now second scans => ?_)
    (fun between _ visited => Visited.stable visited between) entry) fun scanned second _ held => ?_
  · refine Safe.bind law (visitRing_scans scans) fun visit third _ visited => ?_
    cases visit with
    | nothing now => exact fun _ between _ => Scans.stable visited between
    | skipped now => exact fun _ between _ => Visited.stable visited between
    | found producer frame => exact fun _ between _ => Visited.stable visited between
  · cases scanned with
    | inl now => exact fun _ between _ => Scans.stable held between
    | inr visit => exact fun _ between _ => Visited.stable held between

end Scans

/-- An armed ticket after a complete scan ends the watch. -/
theorem check_keeps {pass : Pass} (invariant : (wakeDiscipline (R := R) setup slot).invariant state)
    (scans : Scans consumer pass [] state) (armed : pass.armed = true)
    (ticket : state.ticket consumer = slot consumer) {after : State n m (Fin m) R}
    (checks : after = state.setReceiver consumer fun receiver =>
      if receiver.watch = .watching then {receiver with watch := .checked} else receiver) :
    (wakeDiscipline (R := R) setup slot).invariant after ∧ Receives consumer state after ∧
      Passing consumer pass .checked after ∧ after.asleep consumer = none := by
  have watching : (state.receiver consumer).watch = .watching := by
    rw [scans.passing.watch, if_pos armed]
  have own : after.receiver consumer = {state.receiver consumer with watch := .checked} := by
    subst checks
    rw [setReceiver_own, if_pos watching]
  have receives : Receives consumer state after := checks ▸ receives_setReceiver consumer state _
  have same : after.ticket = state.ticket := checks ▸ rfl
  have awake : after.asleep consumer = none := checks ▸ scans.awake
  have armedTicket : after.ticket consumer = after.slot consumer := by
    rw [same, receives.slot, ticket, invariant.1]
  have before := invariant.2 consumer
  refine ⟨receives.keeps invariant ?_, receives, ⟨by rw [own, if_pos armed], by rw [own]; exact scans.passing.expected⟩,
    awake⟩
  refine ⟨?_, fun _ => ?_, fun _ _ producer found deliverable => ?_, fun _ producer => ?_, fun _ disarmed =>
    absurd armedTicket disarmed, fun sleeps => ?_, fun sleeps => ?_⟩
  · rw [own, receives.steps]
    exact before.seen
  · rw [receives.slot]
    exact (before.active (by simp [watching])).imp_left receives.active
  · rw [own] at found
    have same : after.next setup consumer producer = state.next setup consumer producer :=
      next_congr (congrFun receives.visible producer) (by rw [own]) (by rw [own])
    rw [same] at deliverable
    rw [receives.notice]
    exact before.covered (by simp [watching]) (ticket.trans (congrFun invariant.1 consumer).symm) producer found deliverable
  · rw [own]
    exact (scans.found producer).resolve_left (by simp)
  · rw [awake] at sleeps
    cases sleeps
  · rw [awake] at sleeps
    cases sleeps

theorem waitTicketState_checks {pass : Pass} (scans : Scans consumer pass [] state) (armed : pass.armed = true) :
    Safe (receiverContract (R := R) setup slot consumer)
      (fun ticket current => Passing consumer pass (if ticket = .Armed then .checked else .watching) current ∧
        current.asleep consumer = none) (waitTicketState consumer consumer (slot consumer)) state := by
  have law := wakeLawful (n := n) (R := R) setup slot (.handle consumer)
  refine Safe.load_bind law fun first between _ => ?_
  have scans := scans.stable between
  split
  · exact fun _ between _ => ⟨scans.passing.stable between, between.awake scans.awake⟩
  refine Safe.modifyGet_bind fun second between ready _ => ?_
  have scans := scans.stable between
  by_cases ticket : second.ticket consumer = slot consumer
  · simp only [ticket, if_true]
    obtain ⟨kept, receives, passing, awake⟩ := check_keeps ready.keeps scans armed ticket rfl
    exact ⟨kept, receives, fun _ between _ => ⟨passing.stable between, between.awake awake⟩⟩
  · simp only [ticket, if_false]
    refine ⟨ready.keeps, .refl _ _, fun _ between _ => ⟨?_, between.awake scans.awake⟩⟩
    have unarmed : (if second.ticket consumer = 0 then WaitTicketState.Consumed else .Invalid) ≠ .Armed := by
      split <;> simp
    rw [if_neg unarmed]
    exact scans.passing.stable between

theorem scanPass_steps {pass : Pass} {now : Option Nat} (passing : Passing consumer pass .watching state)
    (awake : state.asleep consumer = none) : Safe (receiverContract (R := R) setup slot consumer)
      (fun next current => AtStep consumer current next) (scanPass setup consumer consumer (slot consumer) pass now)
      state := by
  have law := wakeLawful (n := n) (R := R) setup slot (.handle consumer)
  refine Safe.bind law (scanRings_scans passing awake) fun visit first _ visited => ?_
  cases visit with
  | found producer frame => exact endPass_idles visited.1 visited.2 fun _ idle => idle
  | skipped now => exact fun _ between _ => ⟨visited.1.stable between, between.awake visited.2⟩
  | nothing now =>
      have scans : Scans consumer pass [] first := visited
      dsimp only
      split
      · exact endPass_idles scans.passing scans.awake fun _ idle => idle
      split
      · exact endPass_idles scans.passing scans.awake fun _ idle => idle
      split
      · rename_i armed
        refine Safe.bind law (waitTicketState_checks scans armed) fun ticket second _ held => ?_
        cases ticket with
        | Invalid => exact endPass_idles held.1 held.2 fun _ idle => idle
        | Consumed => exact endPass_idles held.1 held.2 fun _ idle => idle
        | Armed => exact fun _ between _ => ⟨held.1.stable between, between.awake held.2⟩
      · rename_i unarmed
        have watch := scans.passing.watch
        rw [if_neg unarmed] at watch
        have parked : Passing consumer pass .checked first := ⟨by rw [if_neg unarmed]; exact watch, scans.passing.expected⟩
        exact fun _ between _ => ⟨parked.stable between, between.awake scans.awake⟩

/-- The epoch that the wait finds unchanged has not moved. -/
theorem sleep_keeps {pass : Pass} (invariant : (wakeDiscipline (R := R) setup slot).invariant state)
    (passing : Passing consumer pass .checked state) (awake : state.asleep consumer = none)
    (expected : state.epoch = pass.expected) (inTime : SleepsInTime state (state.setAsleep consumer (some pass.armed))) :
    (wakeDiscipline (R := R) setup slot).invariant (state.setAsleep consumer (some pass.armed)) ∧
      Receives consumer state (state.setAsleep consumer (some pass.armed)) := by
  have receives : Receives consumer state (state.setAsleep consumer (some pass.armed)) :=
    ⟨rfl, rfl, rfl, rfl, id, fun _ _ => rfl, fun _ _ => rfl, fun _ different => Function.update_of_ne different ..⟩
  have before := invariant.2 consumer
  have own : (state.setAsleep consumer (some pass.armed)).asleep consumer = some pass.armed := Function.update_self ..
  have checked (sleeps : (state.setAsleep consumer (some pass.armed)).asleep consumer = some true) :
      (state.receiver consumer).watch = .checked := by
    rw [own, Option.some.injEq] at sleeps
    rw [passing.watch, if_pos sleeps]
  refine ⟨receives.keeps invariant ⟨before.seen, before.active, before.covered, before.complete, before.moved, checked,
    fun sleeps disarmed => ?_⟩, receives⟩
  have near := (inTime consumer sleeps).resolve_left (by simp [awake])
  have seen := before.seen
  rcases before.moved (checked sleeps) disarmed with moved | ⟨producer, notice, mine, taken, -⟩
  · have same := passing.expected ▸ expected
    unfold State.epoch at same
    omega
  · exact ⟨producer, notice, mine, taken⟩

theorem futexWait_steps {pass : Pass} {token : Nat} (passing : Passing consumer pass .checked state)
    (awake : state.asleep consumer = none) : Safe (receiverContract (R := R) setup slot consumer)
      (fun next current => AtStep (n := n) consumer current next) (futexWait consumer consumer token pass) state := by
  refine Safe.modifyGet_bind fun first between ready action => ?_
  have passing := passing.stable between
  have awake := between.awake awake
  by_cases expected : first.epoch = pass.expected
  · simp only [expected, if_true, decide_true] at action ⊢
    obtain ⟨kept, receives⟩ := sleep_keeps ready.keeps passing awake expected action
    refine ⟨kept, receives, fun later between _ => ⟨?_, ?_⟩⟩
    · have asleep : Passing consumer pass .checked (first.setAsleep consumer (some pass.armed)) :=
        ⟨passing.watch, passing.expected⟩
      exact asleep.stable between
    · refine between.asleep.imp_left fun same => same.trans ?_
      exact Function.update_self ..
  · simp only [expected, if_false, decide_false, Bool.false_eq_true]
    exact ⟨ready.keeps, .refl _ _, endPass_idles passing awake fun _ idle => idle⟩

theorem resume_steps {pass : Pass} {token : Nat} (passing : Passing consumer pass .checked state)
    (sleeps : state.asleep consumer = some pass.armed ∨ state.asleep consumer = none) :
    Safe (receiverContract (R := R) setup slot consumer)
      (fun next current => AtStep (n := n) consumer current next) (resume consumer consumer token pass) state := by
  have law := wakeLawful (n := n) (R := R) setup slot (.handle consumer)
  have still {before after : State n m (Fin m) R} (aside : Aside before after consumer)
      (sleeps : before.asleep consumer = some pass.armed ∨ before.asleep consumer = none) :
      after.asleep consumer = some pass.armed ∨ after.asleep consumer = none :=
    aside.asleep.elim (fun same => same ▸ sleeps) .inr
  refine Safe.load_bind law fun first between _ => ?_
  have passing := passing.stable between
  split
  · exact fun _ later _ => ⟨passing.stable later, still later (still between sleeps)⟩
  · rename_i awake
    exact endPass_idles passing (by simpa using awake) fun _ idle => idle

variable [DecidableEq R]

theorem still_releaseGate {thread : Thread n (Fin m) R} : Each Still (releaseGate thread) :=
  .store fun _ => .ite fun _ => ⟨rfl, rfl, rfl, rfl, rfl, rfl, rfl, id⟩

theorem tryActivate_wakes {fence : Bool} (idle : Idle consumer state) :
    Safe (receiverContract setup slot consumer) (fun ready current => Idle consumer current ∧
      (ready = true → current.active = true)) (tryActivate (n := n) (R := R) consumer fence) state := by
  have law := wakeLawful (n := n) (R := R) setup slot (.handle consumer)
  have stable {before after : State n m (Fin m) R} (aside : Aside before after consumer) (idle : Idle consumer before) :=
    idle.stable aside
  refine Safe.bind law (still_safe still_tryTakeGate stable idle) fun taken _ _ idle => ?_
  split
  · exact fun _ between _ => ⟨idle.stable between, by simp⟩
  split
  · exact Safe.bind law (still_safe still_releaseGate stable idle) fun _ _ _ idle _ between _ =>
      ⟨idle.stable between, by simp⟩
  refine Safe.bind law (still_safe (.foldUntil (fun _ _ => still_claimRound) _ _) stable idle) fun checked _ _ idle => ?_
  refine Safe.bind law (still_safe (.when still_activate) stable idle) fun _ _ _ idle => ?_
  refine Safe.bind law (still_safe still_releaseGate stable idle) fun _ _ _ idle => ?_
  split
  · exact Safe.load law fun _ between _ _ later _ => ⟨(idle.stable between).stable later, later.active⟩
  · exact fun _ between _ => ⟨idle.stable between, by simp⟩

theorem tryArm_watches {token : Nat} {fence : Bool} (idle : Idle consumer state) :
    Safe (receiverContract setup slot consumer) (fun result => ArmedAs consumer (result.getD false))
      (tryArmWaitNotification (n := n) (R := R) consumer consumer token fence) state := by
  have law := wakeLawful (n := n) (R := R) setup slot (.handle consumer)
  -- The call after the activation.
  have registered {state : State n m (Fin m) R} (idle : Idle consumer state) (active : state.active = true) :
      Safe (receiverContract setup slot consumer) (fun result => ArmedAs consumer (result.getD false))
        ((hasConsumer consumer token).bind fun registered => if !registered then pure none else
          (installTicket consumer consumer token).bind fun armed => if !armed then pure none else
            (validateTicket consumer consumer token).bind fun registered => if registered then pure (some true) else
              (cleanupTicket consumer consumer token).bind fun _ => pure none) state := by
    refine Safe.load_bind law fun first between _ => ?_
    have idle := idle.stable between
    have active := between.active active
    split
    · exact armed_ret idle.armedAs
    refine Safe.modifyGet_bind fun second between ready _ => ?_
    have idle := idle.stable between
    have active := between.active active
    by_cases free : second.ticket consumer = 0 ∨ second.ticket consumer = token
    swap
    · simp only [free, if_false, decide_false, Bool.not_false, if_true]
      exact ⟨ready.keeps, .refl _ _, armed_ret idle.armedAs⟩
    simp only [free, if_true, decide_true, Bool.not_true, Bool.false_eq_true, if_false]
    obtain ⟨kept, receives, idle⟩ := installTicket_keeps token ready.keeps idle
    refine ⟨kept, receives, Safe.modifyGet_bind fun third between ready _ => ?_⟩
    have idle := idle.stable between
    have active := between.active (receives.active active)
    by_cases live : phase token = kActive ∧ third.slot consumer = token
    · simp only [live, and_self, if_true, decide_true]
      obtain ⟨kept, receives, armed⟩ := validate_watches ready.keeps idle active live.1 live.2 rfl
      exact ⟨kept, receives, armed_ret armed⟩
    · simp only [live, if_false, decide_false, Bool.false_eq_true]
      refine ⟨ready.keeps, .refl _ _, Safe.store_bind fun fourth between ready _ => ?_⟩
      obtain ⟨kept, receives, idle⟩ := removeTicket_keeps token ready.keeps (idle.stable between)
      exact ⟨kept, receives, armed_ret idle.armedAs⟩
  refine Safe.load_bind law fun first between _ => ?_
  have idle := idle.stable between
  split
  · exact armed_ret idle.armedAs
  refine Safe.load_bind law fun second between _ => ?_
  have idle := idle.stable between
  cases active : second.active with
  | true => exact registered idle active
  | false =>
      refine Safe.bind law (tryActivate_wakes idle) fun ready third _ held => ?_
      cases ready with
      | true => exact registered held.1 (held.2 rfl)
      | false => exact armed_ret held.1.armedAs

theorem beginPass_steps {token spins : Nat} {fence : Bool} (idle : Idle consumer state) :
    Safe (receiverContract setup slot consumer) (fun next current => AtStep consumer current next)
      (beginPass (n := n) (R := R) consumer consumer token spins fence) state := by
  have law := wakeLawful (n := n) (R := R) setup slot (.handle consumer)
  have scan {armed wakes : Bool} {expected : Nat} {first : State n m (Fin m) R} (as : ArmedAs consumer armed first)
      (same : expected = (first.receiver consumer).seen % 2 ^ 32) :
      Safe (receiverContract setup slot consumer) (fun next current => AtStep consumer current next)
        (.ret (.scan ⟨spins, armed, wakes, expected⟩ none)) first := by
    have passing : Passing consumer ⟨spins, armed, wakes, expected⟩ .watching first := ⟨as.watch, same⟩
    exact fun _ between _ => ⟨passing.stable between, between.awake as.awake⟩
  refine Safe.load_bind law fun first between _ => ?_
  have idle := idle.stable between
  split
  · exact Safe.bind law (snapshotEpoch_watches idle.armedAs) fun expected _ _ held => scan held.1 held.2
  refine Safe.bind law (tryArm_watches idle) fun result second _ as => ?_
  cases result with
  | none =>
      have idle : Idle consumer second := ⟨as.watch, as.awake⟩
      exact fun _ between _ => idle.stable between
  | some armed =>
      refine Safe.load_bind law fun third between _ => ?_
      exact Safe.bind law (snapshotEpoch_watches (as.stable between)) fun expected _ _ held => scan held.1 held.2

theorem nextPass_steps {next : Step n} {fence : Bool} {program : Prog (State n m (Fin m) R) (Step n)}
    (rests : AtStep consumer state next)
    (begins : nextPass setup consumer consumer (slot consumer) fence next = some program) :
    Safe (receiverContract setup slot consumer) (fun next current => AtStep consumer current next) program state := by
  cases next with
  | retry spins => exact Option.some.inj begins ▸ beginPass_steps rests
  | scan pass now => exact Option.some.inj begins ▸ scanPass_steps rests.1 rests.2
  | park pass => exact Option.some.inj begins ▸ futexWait_steps rests.1 rests.2
  | sleep pass => exact Option.some.inj begins ▸ resume_steps rests.1 rests.2
  | done received => cases begins

end Receivers

end Salias.Notification
