import Salias.Notification.Tickets

/-
Every program of the handles and of the registrars keeps the tickets. A stale ticket that an arm call installs
after the end of its registration is the only one that disturbs a live arm call.
-/

namespace Salias.Notification

open Concurrent ConsumerRegistration

variable {n m : Nat} {K R : Type}

section Handles

variable {fresh disarmed : Prop} {handle : K} {consumer : Fin m} {token : Nat} {state : State n m K R}

abbrev handleContract (fresh disarmed : Prop) (handle : K) : Contract (State n m K R) :=
  (discipline fresh disarmed).contract (.handle handle)

theorem handleLawful (fresh disarmed : Prop) (handle : K) :
    (handleContract (n := n) (m := m) (R := R) fresh disarmed handle).Lawful :=
  lawful (.handle handle)

/-- A program that leaves the registrations alone keeps every stable fact that it does not touch. -/
theorem leaves_safe {thread : Thread n K R} (outside : ∀ registrar, thread ≠ .registrar registrar) {α : Type}
    {holds : State n m K R → Prop} {program : Prog (State n m K R) α} (each : Each (Leaves thread) program)
    (keeps : ∀ {before after}, Leaves thread before after → holds before → holds after)
    (stable : ∀ {before after}, rely thread before after → holds before → holds after) (entry : holds state) :
    Safe ((discipline fresh disarmed).contract thread) (fun _ => holds) program state :=
  Safe.of_each each
    (fun ready _ leaves held => ⟨leaves.tickets ready.keeps outside, leaves.guarantee, keeps leaves held⟩)
    (fun rely _ held => stable rely held) entry

variable {entry : Entry} {before after : State n m K R}

theorem Since.stable (since : Since consumer entry before) (rely : rely (.handle handle) before after) :
    Since consumer entry after where
  changes := since.changes.trans (rely.2.1.changes consumer)
  slot same := by
    have earlier := since.changes
    have later := rely.2.1.changes consumer
    rw [rely.2.1.slot consumer (by omega), since.slot (by omega)]
  active was := rely.2.2 (since.active was)

theorem Since.keeps (since : Since consumer entry before) {thread : Thread n K R} (leaves : Leaves thread before after) :
    Since consumer entry after where
  changes := leaves.changes ▸ since.changes
  slot := by
    rw [leaves.changes, leaves.slot]
    exact since.slot
  active was := leaves.active (since.active was)

/-- A token that is still the active one has been it before. -/
theorem Steady.earlier (steady : Steady fresh consumer token entry after) (since : Since consumer entry before)
    (rely : rely (.handle handle) before after) : Steady fresh consumer token entry before where
  isFresh := steady.isFresh
  phase := steady.phase
  word := steady.word
  active := steady.active
  changes := by
    have earlier := since.changes
    have later := rely.2.1.changes consumer
    have now := steady.changes
    omega

theorem Steady.slot (steady : Steady fresh consumer token entry state) (since : Since consumer entry state) :
    state.slot consumer = token := (since.slot steady.changes).trans steady.word

/-- The slot of a steady token has no other ticket. -/
theorem Tickets.free (tickets : Tickets fresh disarmed state) (steady : Steady fresh consumer token entry state)
    (since : Since consumer entry state) : state.ticket consumer = 0 ∨ state.ticket consumer = token := by
  by_cases empty : state.ticket consumer = 0
  · exact .inl empty
  · have slot := steady.slot since
    rcases tickets.exact steady.isFresh consumer empty with owned | ⟨leaves, -⟩
    · exact .inr (owned.2.trans slot)
    · exact absurd (slot ▸ steady.phase) (tickets.leaving consumer (by simp [leaves]))

section Answers

variable {right : Prop}

theorem Answers.stable (answers : Answers fresh handle consumer token entry right before)
    (rely : rely (.handle handle) before after) : Answers fresh handle consumer token entry right after where
  idle := rely.1.trans answers.idle
  since := answers.since.stable rely
  accepts steady := answers.accepts (steady.earlier answers.since rely)

theorem Answers.keeps (answers : Answers fresh handle consumer token entry right before)
    (leaves : Leaves (.handle handle) before after) : Answers fresh handle consumer token entry right after where
  idle := (congrFun leaves.installing handle).trans answers.idle
  since := answers.since.keeps leaves
  accepts steady := answers.accepts ⟨steady.isFresh, steady.phase, steady.word, steady.active,
    (congrFun leaves.changes consumer).symm.trans steady.changes⟩

theorem Answers.start (token : Nat) (idle : state.installing handle = none) (since : Since consumer entry state) :
    Answers fresh handle consumer token entry True state := ⟨idle, since, fun _ => trivial⟩

theorem Answers.weaken (answers : Answers fresh handle consumer token entry right state) {weaker : Prop}
    (implied : right → weaker) : Answers fresh handle consumer token entry weaker state :=
  ⟨answers.idle, answers.since, implied ∘ answers.accepts⟩

theorem answers_ret {α : Type} {value : α} {right : α → Prop}
    (answers : Answers fresh handle consumer token entry (right value) state) :
    Safe (handleContract (n := n) (R := R) fresh disarmed handle)
      (fun value => Answers fresh handle consumer token entry (right value)) (.ret value) state :=
  fun _ rely _ => answers.stable rely

theorem answers_leaves {α : Type} {program : Prog (State n m K R) α} (each : Each (Leaves (.handle handle)) program)
    (answers : Answers fresh handle consumer token entry right state) :
    Safe (handleContract fresh disarmed handle) (fun _ => Answers fresh handle consumer token entry right) program state :=
  leaves_safe (fun _ same => by cases same) each (fun leaves held => held.keeps leaves)
    (fun between held => held.stable between) answers

end Answers

/-- A step of a handle on the ticket of one slot. -/
theorem Tickets.step (tickets : Tickets fresh disarmed before) (slot : after.slot = before.slot)
    (vacating : after.vacating = before.vacating) (gate : after.registrationGate = before.registrationGate)
    (others : ∀ other, other ≠ handle → after.installing other = before.installing other)
    (owned : ∀ consumer, after.ticket consumer ≠ 0 → after.Matches consumer ∨
      after.installing handle = some (consumer, after.ticket consumer) ∨
      (after.ticket consumer = before.ticket consumer ∧
        before.installing handle ≠ some (consumer, before.ticket consumer)))
    (exact_ : fresh → ∀ consumer, after.ticket consumer ≠ 0 → after.ticket consumer = before.ticket consumer ∨
      after.Matches consumer) : Tickets fresh disarmed after := by
  have matched (consumer : Fin m) (same : after.ticket consumer = before.ticket consumer)
      (matched : before.Matches consumer) : after.Matches consumer := by
    rw [State.Matches, slot, same]
    exact matched
  refine ⟨fun consumer some_ => ?_, fun isFresh consumer some_ => ?_, ?_, ?_⟩
  · rcases owned consumer some_ with owned | installs | ⟨same, other⟩
    · exact .inl owned
    · exact .inr (.inr ⟨handle, installs⟩)
    · rcases tickets.owned consumer (same ▸ some_) with owned | leaves | ⟨installer, installs⟩
      · exact .inl (matched consumer same owned)
      · exact .inr (.inl (by rw [vacating, same, leaves]))
      · have different : installer ≠ handle := fun equal => other (equal ▸ installs)
        exact .inr (.inr ⟨installer, by rw [others installer different, same, installs]⟩)
  · rcases exact_ isFresh consumer some_ with same | owned
    · rw [vacating, same]
      exact (tickets.exact isFresh consumer (same ▸ some_)).imp_left (matched consumer same)
    · exact .inl owned
  · rw [vacating, slot]
    exact tickets.leaving
  · rw [vacating, gate]
    exact tickets.quiet

theorem Guarantee.step (others : ∀ other, other ≠ handle → after.installing other = before.installing other)
    (slot : after.slot = before.slot) (vacating : after.vacating = before.vacating)
    (changes : after.changes = before.changes) (active : after.active = before.active)
    (gate : after.registrationGate = before.registrationGate) : Guarantee (.handle handle) before after where
  installing other different := others other fun same => different (same ▸ rfl)
  counts := .of_same changes slot
  active was := active.trans was
  gate _ _ := by rw [gate]
  slots _ _ _ := ⟨slot, vacating⟩

variable [DecidableEq K]

/-- The installed ticket is removed again. -/
theorem cleanup_keeps (tickets : Tickets fresh disarmed state)
    (installed : state.installing handle = some (consumer, token)) :
    Tickets fresh disarmed ((state.removeTicket consumer token).setInstalling handle none) ∧
      Guarantee (.handle handle) state ((state.removeTicket consumer token).setInstalling handle none) := by
  have removed : Leaves (.handle handle) state (state.removeTicket consumer token) :=
    leaves_removeTicket state consumer token
  have others (other : K) (different : other ≠ handle) :
      ((state.removeTicket consumer token).setInstalling handle none).installing other = state.installing other :=
    (Function.update_of_ne different ..).trans (congrFun removed.installing other)
  have gate := removeTicket_gate state consumer token
  have active := removeTicket_active state consumer token
  refine ⟨tickets.step removed.slot removed.vacating gate others (fun other some_ => ?_) fun _ other some_ => ?_,
    .step others removed.slot removed.vacating removed.changes active gate⟩
  · have same : (state.removeTicket consumer token).ticket other = state.ticket other :=
      (removed.ticket other).resolve_right some_
    refine .inr (.inr ⟨same, fun installs => ?_⟩)
    rw [installed, Option.some.injEq, Prod.mk.injEq] at installs
    obtain ⟨rfl, carries⟩ := installs
    refine some_ ?_
    simp [State.removeTicket, State.setInstalling, State.setTicket, carries]
  · exact .inl ((removed.ticket other).resolve_right some_)

theorem install_keeps (tickets : Tickets fresh disarmed state) (idle : state.installing handle = none)
    (active : phase token = kActive) (free : state.ticket consumer = 0 ∨ state.ticket consumer = token)
    (live : fresh → InstallsLive state ((state.setTicket consumer token).setInstalling handle (some (consumer, token)))) :
    Tickets fresh disarmed ((state.setTicket consumer token).setInstalling handle (some (consumer, token))) ∧
      Guarantee (.handle handle) state
        ((state.setTicket consumer token).setInstalling handle (some (consumer, token))) := by
  have others (other : K) (different : other ≠ handle) :
      ((state.setTicket consumer token).setInstalling handle (some (consumer, token))).installing other =
        state.installing other := Function.update_of_ne different ..
  have here : ((state.setTicket consumer token).setInstalling handle (some (consumer, token))).ticket consumer = token :=
    Function.update_self ..
  have there (other : Fin m) (different : other ≠ consumer) :
      ((state.setTicket consumer token).setInstalling handle (some (consumer, token))).ticket other =
        state.ticket other := Function.update_of_ne different ..
  refine ⟨tickets.step rfl rfl rfl others (fun other some_ => ?_) fun isFresh other some_ => ?_,
    .step others rfl rfl rfl rfl rfl⟩
  · by_cases same : other = consumer
    · subst same
      rw [here]
      exact .inr (.inl (Function.update_self ..))
    · exact .inr (.inr ⟨there other same, by simp [idle]⟩)
  · by_cases same : other = consumer
    · subst same
      rcases free with empty | own
      · refine .inr ?_
        rcases live isFresh other (by rw [here, empty]; exact here ▸ some_) with cleared | slot
        · exact absurd cleared some_
        · have slot : token = state.slot other := here ▸ slot
          exact ⟨slot ▸ active, here.trans slot⟩
      · exact .inl (here.trans own.symm)
    · exact .inl (there other same)

/-- The validation finds the token active. -/
theorem validate_keeps (tickets : Tickets fresh disarmed state)
    (installed : state.installing handle = some (consumer, token)) (active : phase token = kActive)
    (slot : state.slot consumer = token) {change : Receiver n → Receiver n} :
    Tickets fresh disarmed ((state.setInstalling handle none).setReceiver handle change) ∧
      Guarantee (.handle handle) state ((state.setInstalling handle none).setReceiver handle change) := by
  have others (other : K) (different : other ≠ handle) :
      ((state.setInstalling handle none).setReceiver handle change).installing other = state.installing other :=
    Function.update_of_ne different ..
  refine ⟨tickets.step rfl rfl rfl others (fun other some_ => ?_) fun _ _ _ => .inl rfl,
    .step others rfl rfl rfl rfl rfl⟩
  by_cases own : state.installing handle = some (other, state.ticket other)
  · rw [installed, Option.some.injEq, Prod.mk.injEq] at own
    obtain ⟨rfl, carries⟩ := own
    refine .inl ⟨?_, carries.symm.trans slot.symm⟩
    show phase (state.slot consumer) = kActive
    rw [slot, active]
  · exact .inr (.inr ⟨rfl, own⟩)

/-- The call after the first check: its ticket is installed and validated. -/
theorem installed_safe (idle : state.installing handle = none) (since : Since consumer entry state)
    (active : phase token = kActive) :
    Safe (handleContract (n := n) (R := R) fresh disarmed handle)
      (fun result => Answers fresh handle consumer token entry (result = some true))
      ((installTicket handle consumer token).bind fun armed => if !armed then pure none else
        (validateTicket handle consumer token).bind fun registered => if registered then pure (some true) else
          (cleanupTicket handle consumer token).bind fun _ => pure none) state := by
  refine Safe.modifyGet_bind fun first between ready action => ?_
  have idle : first.installing handle = none := between.1.trans idle
  have since := since.stable between
  by_cases free : first.ticket consumer = 0 ∨ first.ticket consumer = token
  · simp only [free, if_true, decide_true, Bool.not_true, Bool.false_eq_true, if_false] at action ⊢
    obtain ⟨kept, guaranteed⟩ := install_keeps ready.keeps idle active free action
    refine ⟨kept, guaranteed, Safe.modifyGet_bind fun second between ready _ => ?_⟩
    have armed : Since consumer entry ((first.setTicket consumer token).setInstalling handle
        (some (consumer, token))) := ⟨since.changes, since.slot, since.active⟩
    have since := armed.stable between
    have installed : second.installing handle = some (consumer, token) :=
      between.1.trans (Function.update_self ..)
    by_cases live : phase token = kActive ∧ second.slot consumer = token
    · simp only [live, and_self, if_true, decide_true]
      obtain ⟨kept, guaranteed⟩ := validate_keeps ready.keeps installed live.1 live.2
      exact ⟨kept, guaranteed, answers_ret ⟨Function.update_self .., ⟨since.changes, since.slot, since.active⟩,
        fun _ => rfl⟩⟩
    · simp only [live, if_false, decide_false, Bool.false_eq_true]
      refine ⟨ready.keeps, .refl _ _, Safe.store_bind fun third between ready _ => ?_⟩
      have dead (steady : Steady fresh consumer token entry third) : False :=
        live ⟨active, (steady.earlier since between).slot since⟩
      have since := since.stable between
      obtain ⟨kept, guaranteed⟩ := cleanup_keeps ready.keeps (between.1.trans installed)
      have removed : Leaves (.handle handle) third (third.removeTicket consumer token) :=
        leaves_removeTicket third consumer token
      have later := since.keeps removed
      refine ⟨kept, guaranteed, answers_ret ⟨Function.update_self .., ⟨later.changes, later.slot, later.active⟩,
        fun steady => (dead ⟨steady.isFresh, steady.phase, steady.word, steady.active, ?_⟩).elim⟩⟩
      exact (congrFun removed.changes consumer).symm.trans steady.changes
  · simp only [free, if_false, decide_false, Bool.not_false, if_true]
    exact ⟨ready.keeps, .refl _ _, answers_ret ⟨idle, since, fun steady =>
      absurd (ready.keeps.free steady since) free⟩⟩

/-- The call after the activation. -/
theorem registered_safe (idle : state.installing handle = none) (since : Since consumer entry state) :
    Safe (handleContract (n := n) (R := R) fresh disarmed handle)
      (fun result => Answers fresh handle consumer token entry (result = some true))
      ((hasConsumer consumer token).bind fun registered => if !registered then pure none else
        (installTicket handle consumer token).bind fun armed => if !armed then pure none else
          (validateTicket handle consumer token).bind fun registered => if registered then pure (some true) else
            (cleanupTicket handle consumer token).bind fun _ => pure none) state := by
  refine Safe.load_bind (handleLawful fresh disarmed handle) fun first between _ => ?_
  have idle : first.installing handle = none := between.1.trans idle
  have since := since.stable between
  by_cases live : phase token = kActive ∧ first.slot consumer = token
  · simp only [live, and_self, decide_true, Bool.not_true, Bool.false_eq_true, if_false]
    exact installed_safe idle since live.1
  · simp only [live, decide_false, Bool.not_false, if_true]
    exact answers_ret ⟨idle, since, fun steady => absurd ⟨steady.phase, steady.slot since⟩ live⟩

variable [DecidableEq R]

theorem tryArmWaitNotification_safe {fence : Bool} (idle : state.installing handle = none)
    (since : Since consumer entry state) :
    Safe (handleContract (n := n) (R := R) fresh disarmed handle)
      (fun result => Answers fresh handle consumer token entry (result = some true))
      (tryArmWaitNotification handle consumer token fence) state := by
  have law := handleLawful (n := n) (m := m) (R := R) fresh disarmed handle
  refine Safe.load_bind law fun first between _ => ?_
  have idle : first.installing handle = none := between.1.trans idle
  have since := since.stable between
  by_cases live : phase token = kActive ∧ first.slot consumer = token
  swap
  · simp only [live, decide_false, Bool.not_false, Bool.true_or, if_true]
    exact answers_ret ⟨idle, since, fun steady => absurd ⟨steady.phase, steady.slot since⟩ live⟩
  have positive : (token == 0) = false := by
    rw [beq_eq_false_iff_ne]
    rintro rfl
    exact absurd live.1 (by decide)
  simp only [live, and_self, decide_true, Bool.not_true, positive, Bool.or_self, Bool.false_eq_true, if_false]
  refine Safe.load_bind law fun second between _ => ?_
  have idle : second.installing handle = none := between.1.trans idle
  have since := since.stable between
  cases active : second.active with
  | true => exact registered_safe idle since
  | false =>
      have dead : ¬ Steady fresh consumer token entry second := fun steady => by
        simp [since.active steady.active] at active
      have activated : Safe (handleContract fresh disarmed handle) (fun _ => Answers fresh handle consumer token entry False)
          (tryActivate (n := n) (m := m) (R := R) handle fence) second :=
        answers_leaves (leaves_tryActivate fence) ⟨idle, since, dead⟩
      refine Safe.bind law activated fun ready third _ held => ?_
      cases ready with
      | true => exact registered_safe held.idle held.since
      | false => exact answers_ret (held.weaken False.elim)

end Handles

section Registrars

variable {fresh disarmed : Prop} {registrar : R} {consumer : Fin m} {token word : Nat} {state before after : State n m K R}

abbrev registrarContract (fresh disarmed : Prop) (registrar : R) : Contract (State n m K R) :=
  (discipline fresh disarmed).contract (.registrar registrar)

theorem registrarLawful (fresh disarmed : Prop) (registrar : R) :
    (registrarContract (n := n) (m := m) (K := K) fresh disarmed registrar).Lawful :=
  lawful (.registrar registrar)

/-- The registrar holds the gate, and no ticket is being removed. -/
structure Holding (registrar : R) (state : State n m K R) : Prop where
  gate : state.registrationGate = some (.registrar registrar)
  settled : ∀ consumer, state.vacating consumer = none

/-- The registrar holds the gate and has rewritten a slot, whose ticket may still be there. -/
structure Leaving (registrar : R) (consumer : Fin m) (token word : Nat) (state : State n m K R) : Prop where
  gate : state.registrationGate = some (.registrar registrar)
  slot : state.slot consumer = word
  vacating : state.vacating consumer = some token
  others : ∀ other, other ≠ consumer → state.vacating other = none

/-- The registrar holds the gate and a slot that is not active. -/
structure Rewriting (registrar : R) (consumer : Fin m) (word : Nat) (state : State n m K R) : Prop
    extends Holding registrar state where
  slot : state.slot consumer = word

theorem Holding.stable (holding : Holding registrar before) (rely : rely (.registrar registrar) before after) :
    Holding registrar after :=
  ⟨rely.1.mp holding.gate, by rw [(rely.2 holding.gate).2]; exact holding.settled⟩

theorem Rewriting.stable (rewriting : Rewriting registrar consumer word before)
    (rely : rely (.registrar registrar) before after) : Rewriting registrar consumer word after :=
  ⟨rewriting.toHolding.stable rely, by rw [(rely.2 rewriting.gate).1]; exact rewriting.slot⟩

theorem Leaving.stable (leaving : Leaving registrar consumer token word before)
    (rely : rely (.registrar registrar) before after) : Leaving registrar consumer token word after := by
  have same := rely.2 leaving.gate
  refine ⟨rely.1.mp leaving.gate, ?_, ?_, ?_⟩
  · rw [same.1]
    exact leaving.slot
  · rw [same.2]
    exact leaving.vacating
  · rw [same.2]
    exact leaving.others

/-- A step of the owner of the gate on the words of the slots. -/
theorem Guarantee.own (held : before.registrationGate = some (.registrar registrar))
    (gate : after.registrationGate = before.registrationGate) (installing : after.installing = before.installing)
    (counts : Counts before after) (active : after.active = before.active) :
    Guarantee (.registrar registrar) before after where
  installing _ _ := by rw [installing]
  counts := counts
  active was := active.trans was
  gate _ _ := by rw [gate]
  slots other different mine := by
    rw [held] at mine
    exact absurd (Option.some.inj mine) different

theorem Counts.setSlot (state : State n m K R) (consumer : Fin m) (word : Nat) :
    Counts state (state.setSlot consumer word) where
  changes other := by
    by_cases same : other = consumer
    · subst same
      simp [State.setSlot]
    · simp [State.setSlot, same]
  slot other same := by
    by_cases here : other = consumer
    · subst here
      simp [State.setSlot] at same
    · simp [State.setSlot, here]

/-- A write of a slot that is not active, by the owner of the gate. -/
theorem setSlot_keeps (tickets : Tickets fresh disarmed state) (rewriting : Rewriting registrar consumer word state)
    (inactive : phase word ≠ kActive) (next : Nat) :
    Tickets fresh disarmed (state.setSlot consumer next) ∧
      Guarantee (.registrar registrar) state (state.setSlot consumer next) := by
  have there (other : Fin m) (different : other ≠ consumer) :
      (state.setSlot consumer next).slot other = state.slot other := Function.update_of_ne different ..
  have matched (other : Fin m) (owned : state.Matches other) : (state.setSlot consumer next).Matches other := by
    have different : other ≠ consumer := by
      rintro rfl
      exact inactive (rewriting.slot ▸ owned.1)
    rw [State.Matches, there other different]
    exact owned
  refine ⟨⟨fun other some_ => ?_, fun isFresh other some_ => ?_, fun other leaving => ?_, fun quiet => ?_⟩,
    .own rewriting.gate rfl rfl (.setSlot state consumer next) rfl⟩
  · exact (tickets.owned other some_).imp_left (matched other)
  · exact (tickets.exact isFresh other some_).imp_left (matched other)
  · exact absurd (rewriting.settled other) leaving
  · exact absurd rewriting.gate (quiet registrar)

/-- The end of a registration. -/
theorem endRegistration_keeps (tickets : Tickets fresh disarmed state) (holding : Holding registrar state)
    (slot : state.slot consumer = token) (inactive : phase word ≠ kActive)
    (ends : disarmed → EndsDisarmed state ((state.setSlot consumer word).setVacating consumer (some token))) :
    Tickets fresh disarmed ((state.setSlot consumer word).setVacating consumer (some token)) ∧
      Guarantee (.registrar registrar) state ((state.setSlot consumer word).setVacating consumer (some token)) := by
  have there (other : Fin m) (different : other ≠ consumer) :
      ((state.setSlot consumer word).setVacating consumer (some token)).slot other = state.slot other :=
    Function.update_of_ne different ..
  have here : ((state.setSlot consumer word).setVacating consumer (some token)).slot consumer = word :=
    Function.update_self ..
  have counts := Counts.setSlot state consumer word
  -- A matching ticket of the slot is the one that is still to be removed.
  have owned (other : Fin m) (matched : state.Matches other) :
      ((state.setSlot consumer word).setVacating consumer (some token)).Matches other ∨
        (other = consumer ∧ state.ticket consumer = token ∧ phase token = kActive) := by
    by_cases same : other = consumer
    · subst same
      exact .inr ⟨rfl, matched.2.trans slot, slot ▸ matched.1⟩
    · refine .inl ?_
      rw [State.Matches, there other same]
      exact matched
  refine ⟨⟨fun other some_ => ?_, fun isFresh other some_ => ?_, fun other leaving => ?_, fun quiet => ?_⟩,
    .own holding.gate rfl rfl ⟨counts.changes, counts.slot⟩ rfl⟩
  · rcases tickets.owned other some_ with matched | leaving | installs
    · rcases owned other matched with matched | ⟨rfl, carries, -⟩
      · exact .inl matched
      · exact .inr (.inl ((Function.update_self ..).trans (congrArg some carries.symm)))
    · exact absurd (holding.settled other) (by simp [leaving])
    · exact .inr (.inr installs)
  · rcases tickets.exact isFresh other some_ with matched | leaving
    · rcases owned other matched with matched | ⟨rfl, carries, active⟩
      · exact .inl matched
      · refine .inr ⟨(Function.update_self ..).trans (congrArg some carries.symm), fun isDisarmed => ?_⟩
        refine ends isDisarmed other (slot.symm ▸ active) ?_ (carries.trans slot.symm)
        rw [here, slot]
        exact fun same => inactive (same ▸ active)
    · exact absurd (holding.settled other) (by simp [leaving.1])
  · by_cases same : other = consumer
    · subst same
      rw [here]
      exact inactive
    · refine absurd ?_ leaving
      exact (Function.update_of_ne same ..).trans (holding.settled other)
  · exact absurd holding.gate (quiet registrar)

/-- The registrar holds the gate and has rewritten a slot; no other ticket is being removed. -/
structure Opened (registrar : R) (consumer : Fin m) (word : Nat) (state : State n m K R) : Prop where
  gate : state.registrationGate = some (.registrar registrar)
  slot : state.slot consumer = word
  others : ∀ other, other ≠ consumer → state.vacating other = none

/-- The removal of the ticket of a rewritten slot. -/
theorem clearTicket_keeps (tickets : Tickets fresh disarmed state) (opened : Opened registrar consumer word state)
    (ticket : after.ticket consumer = 0 ∨
      (after.ticket consumer = state.ticket consumer ∧ state.vacating consumer ≠ some (state.ticket consumer)))
    (others : ∀ other, other ≠ consumer → after.ticket other = state.ticket other)
    (vacating : after.vacating = Function.update state.vacating consumer none) (slot : after.slot = state.slot)
    (changes : after.changes = state.changes) (installing : after.installing = state.installing)
    (active : after.active = state.active) (gate : after.registrationGate = state.registrationGate) :
    Tickets fresh disarmed after ∧ Guarantee (.registrar registrar) state after ∧
      Rewriting registrar consumer word after := by
  have settled (other : Fin m) : after.vacating other = none := by
    rw [vacating]
    by_cases same : other = consumer
    · subst same
      exact Function.update_self ..
    · exact (Function.update_of_ne same ..).trans (opened.others other same)
  have matched (other : Fin m) (same : after.ticket other = state.ticket other) (owned : state.Matches other) :
      after.Matches other := by
    rw [State.Matches, slot, same]
    exact owned
  -- The ticket that stays is no ticket of an ended registration.
  have stays (other : Fin m) (some_ : after.ticket other ≠ 0) : after.ticket other = state.ticket other ∧
      state.vacating other ≠ some (state.ticket other) := by
    by_cases same : other = consumer
    · subst same
      exact ticket.resolve_left some_
    · exact ⟨others other same, by simp [opened.others other same]⟩
  refine ⟨⟨fun other some_ => ?_, fun isFresh other some_ => ?_, fun other leaving => absurd (settled other) leaving,
    fun quiet => absurd (gate.trans opened.gate) (quiet registrar)⟩,
    .own opened.gate gate installing (.of_same changes slot) active, ⟨gate.trans opened.gate, settled⟩, ?_⟩
  · obtain ⟨same, left⟩ := stays other some_
    rcases tickets.owned other (same ▸ some_) with owned | leaves | installs
    · exact .inl (matched other same owned)
    · exact absurd leaves left
    · rw [installing, same]
      exact .inr (.inr installs)
  · obtain ⟨same, left⟩ := stays other some_
    rcases tickets.exact isFresh other (same ▸ some_) with owned | leaves
    · exact .inl (matched other same owned)
    · exact absurd leaves.1 left
  · rw [slot]
    exact opened.slot

theorem Leaving.opened (leaving : Leaving registrar consumer token word state) : Opened registrar consumer word state :=
  ⟨leaving.gate, leaving.slot, leaving.others⟩

theorem Rewriting.opened (rewriting : Rewriting registrar consumer word state) : Opened registrar consumer word state :=
  ⟨rewriting.gate, rewriting.slot, fun other _ => rewriting.settled other⟩

theorem Opened.stable (opened : Opened registrar consumer word before) (rely : rely (.registrar registrar) before after) :
    Opened registrar consumer word after := by
  have same := rely.2 opened.gate
  refine ⟨rely.1.mp opened.gate, ?_, ?_⟩
  · rw [same.1]
    exact opened.slot
  · rw [same.2]
    exact opened.others

variable {α : Type} {P : α → State n m K R → Prop}

theorem storeSlot_safe {next : Nat} {rest : Unit → Prog (State n m K R) α}
    (rewriting : Rewriting registrar consumer word state) (inactive : phase word ≠ kActive)
    (continues : ∀ state, Rewriting registrar consumer next state →
      Safe (registrarContract fresh disarmed registrar) P (rest ()) state) :
    Safe (registrarContract fresh disarmed registrar) P ((storeSlot consumer next).bind rest) state := by
  refine Safe.store_bind fun current between ready _ => ?_
  have rewriting := rewriting.stable between
  obtain ⟨kept, guaranteed⟩ := setSlot_keeps ready.keeps rewriting inactive next
  exact ⟨kept, guaranteed, continues _ ⟨⟨rewriting.gate, rewriting.settled⟩, Function.update_self ..⟩⟩

theorem endRegistration_safe {rest : Bool → Prog (State n m K R) α} (holding : Holding registrar state)
    (inactive : phase word ≠ kActive)
    (ended : ∀ state, Leaving registrar consumer token word state →
      Safe (registrarContract fresh disarmed registrar) P (rest true) state)
    (other : ∀ state, Holding registrar state → Safe (registrarContract fresh disarmed registrar) P (rest false) state) :
    Safe (registrarContract fresh disarmed registrar) P ((endRegistration consumer token word).bind rest) state := by
  refine Safe.modifyGet_bind fun current between ready action => ?_
  have holding := holding.stable between
  by_cases slot : current.slot consumer = token
  · simp only [slot, if_true, decide_true] at action ⊢
    obtain ⟨kept, guaranteed⟩ := endRegistration_keeps ready.keeps holding slot inactive action
    exact ⟨kept, guaranteed, ended _ ⟨holding.gate, Function.update_self .., Function.update_self ..,
      fun other different => (Function.update_of_ne different ..).trans (holding.settled other)⟩⟩
  · simp only [slot, if_false, decide_false]
    exact ⟨ready.keeps, .refl _ _, other _ holding⟩

theorem resetTicket_safe {rest : Unit → Prog (State n m K R) α} (opened : Opened registrar consumer word state)
    (continues : ∀ state, Rewriting registrar consumer word state →
      Safe (registrarContract fresh disarmed registrar) P (rest ()) state) :
    Safe (registrarContract fresh disarmed registrar) P ((resetTicket consumer).bind rest) state := by
  refine Safe.store_bind fun current between ready _ => ?_
  have cleared : ((current.setTicket consumer 0).setVacating consumer none).ticket consumer = 0 :=
    Function.update_self ..
  obtain ⟨kept, guaranteed, rewriting⟩ := clearTicket_keeps ready.keeps (opened.stable between) (.inl cleared)
    (fun other different => Function.update_of_ne different ..) rfl rfl rfl rfl rfl rfl
  exact ⟨kept, guaranteed, continues _ rewriting⟩

theorem phase_makeToken_ne {generation : Nat} {pid : UInt32} {own : Nat} (small : own < 8) (inactive : own ≠ kActive) :
    phase (makeToken generation pid own) ≠ kActive := by
  rw [phase_makeToken _ _ small]
  exact inactive

/-- A dead owner loses its slot; the slot that is offered is not active. -/
theorem reclaimSlot_safe {alive : Fin m → Bool} (holding : Holding registrar state) :
    Safe (registrarContract fresh disarmed registrar)
      (fun free current => Holding registrar current ∧ ∀ observed, free = some observed → phase observed = kFree)
      (reclaimSlot alive consumer) state := by
  have law := registrarLawful (n := n) (m := m) (K := K) fresh disarmed registrar
  refine Safe.load_bind law fun first between _ => ?_
  have holding := holding.stable between
  split
  · rename_i free
    exact Safe.ret fun later between _ => ⟨holding.stable between, fun observed same => Option.some.inj same ▸ free⟩
  split
  · exact Safe.ret fun later between _ => ⟨holding.stable between, nofun⟩
  refine endRegistration_safe holding (phase_makeToken_ne (by decide) (by decide)) (fun second leaving => ?_)
    fun second holding => Safe.ret fun later between _ => ⟨holding.stable between, nofun⟩
  refine resetTicket_safe leaving.opened fun third rewriting => ?_
  refine storeSlot_safe rewriting (phase_makeToken_ne (by decide) (by decide)) fun fourth rewriting => ?_
  refine Safe.load_bind law fun fifth between _ => ?_
  have rewriting := rewriting.stable between
  refine Safe.ret fun later between _ => ⟨rewriting.toHolding.stable between, fun observed same => ?_⟩
  rw [← Option.some.inj same, rewriting.slot, phase_makeToken _ _ (by decide)]

theorem acquireSlotRound_safe {pid : UInt32} {alive : Fin m → Bool} (holding : Holding registrar state) :
    Safe (registrarContract fresh disarmed registrar) (fun _ => Holding registrar)
      (acquireSlotRound pid alive () consumer) state := by
  have law := registrarLawful (n := n) (m := m) (K := K) fresh disarmed registrar
  refine Safe.bind law (reclaimSlot_safe holding) fun free second _ held => ?_
  obtain ⟨holding, inactive⟩ := held
  cases free with
  | none => exact Safe.ret fun later between _ => holding.stable between
  | some observed =>
      have inactive := inactive observed rfl
      refine Safe.modifyGet_bind fun third between ready _ => ?_
      have holding := holding.stable between
      by_cases slot : third.slot consumer = observed
      · simp only [slot, if_true, decide_true]
        obtain ⟨kept, guaranteed⟩ := setSlot_keeps ready.keeps ⟨holding, slot⟩ (by rw [inactive]; decide)
          (makeToken ((generation observed + 1) &&& kGenerationMask) pid kInitializing)
        refine ⟨kept, guaranteed, ?_⟩
        have rewriting : Rewriting registrar consumer
            (makeToken ((generation observed + 1) &&& kGenerationMask) pid kInitializing)
            (third.setSlot consumer (makeToken ((generation observed + 1) &&& kGenerationMask) pid kInitializing)) :=
          ⟨⟨holding.gate, holding.settled⟩, Function.update_self ..⟩
        refine resetTicket_safe rewriting.opened fun fourth rewriting => ?_
        refine storeSlot_safe rewriting (phase_makeToken_ne (by decide) (by decide)) fun fifth rewriting => ?_
        exact Safe.ret fun later between _ => rewriting.toHolding.stable between
      · simp only [slot, if_false, decide_false]
        exact ⟨ready.keeps, .refl _ _, Safe.ret fun later between _ => holding.stable between⟩

theorem acquireConsumer_safe {pid : UInt32} {alive : Fin m → Bool} (holding : Holding registrar state) :
    Safe (registrarContract fresh disarmed registrar) (fun _ => Holding registrar) (acquireConsumer pid alive) state := by
  have law := registrarLawful (n := n) (m := m) (K := K) fresh disarmed registrar
  refine Safe.bind (M := fun _ => Holding registrar) law (Safe.weaken (Safe.foldUntil law
    (I := fun _ _ => Holding registrar) (S := fun _ => Holding registrar) (fun between _ held => held.stable between)
    (fun consumer rest _ current held => ?_) (fun between _ held => held.stable between) holding) ?_)
    fun _ _ _ held => Safe.ret fun later between _ => held.stable between
  · refine Safe.weaken (acquireSlotRound_safe held) fun result _ _ held => ?_
    cases result <;> exact held
  · intro result _ _ held
    cases result <;> exact held

theorem releaseConsumer_safe (holding : Holding registrar state) :
    Safe (registrarContract fresh disarmed registrar) (fun _ => Holding registrar) (releaseConsumer consumer token)
      state := by
  unfold releaseConsumer
  split
  · refine endRegistration_safe holding (phase_makeToken_ne (by decide) (by decide)) (fun second leaving => ?_)
      fun second holding => Safe.ret fun later between _ => holding.stable between
    refine Safe.store_bind fun third between ready _ => ?_
    have leaving := leaving.stable between
    have ticket : ((third.removeTicket consumer token).setVacating consumer none).ticket consumer = 0 ∨
        (((third.removeTicket consumer token).setVacating consumer none).ticket consumer = third.ticket consumer ∧
          third.vacating consumer ≠ some (third.ticket consumer)) := by
      by_cases own : third.ticket consumer = token
      · exact .inl (by simp [State.removeTicket, State.setVacating, State.setTicket, own])
      · refine .inr ⟨by simp [State.removeTicket, State.setVacating, own], ?_⟩
        rw [leaving.vacating]
        exact fun same => own (Option.some.inj same).symm
    have removed : Leaves (.registrar registrar) third (third.removeTicket consumer token) :=
      leaves_removeTicket third consumer token
    have others (other : Fin m) (different : other ≠ consumer) :
        (third.removeTicket consumer token).ticket other = third.ticket other := by
      unfold State.removeTicket
      split
      · exact Function.update_of_ne different ..
      · rfl
    obtain ⟨kept, guaranteed, rewriting⟩ := clearTicket_keeps ready.keeps leaving.opened ticket others
      (congrArg (fun vacating : Fin m → Option Nat => Function.update vacating consumer none) removed.vacating)
      removed.slot removed.changes removed.installing
      (removeTicket_active third consumer token) (removeTicket_gate third consumer token)
    refine ⟨kept, guaranteed, ?_⟩
    have stored : Safe (registrarContract fresh disarmed registrar) (fun _ => Holding registrar)
        ((storeSlot consumer (makeToken (generation token) 0 kFree)).bind .ret) _ :=
      storeSlot_safe rewriting (phase_makeToken_ne (by decide) (by decide)) fun fourth rewriting =>
        Safe.ret fun later between _ => rewriting.toHolding.stable between
    exact stored
  · exact Safe.ret fun later between _ => holding.stable between

theorem runTask_safe (task : Task m) (holding : Holding registrar state) :
    Safe (registrarContract fresh disarmed registrar) (fun _ => Holding registrar) (runTask task) state := by
  cases task with
  | acquire pid alive => exact acquireConsumer_safe holding
  | release consumer token =>
      exact Safe.bind (registrarLawful fresh disarmed registrar) (releaseConsumer_safe holding) fun _ _ _ held =>
        Safe.ret fun later between _ => held.stable between

/-- Nobody else removes a ticket when the gate is taken. -/
theorem tryTakeGate_safe : Safe (registrarContract (n := n) (m := m) (K := K) fresh disarmed registrar)
    (fun taken current => taken = true → Holding registrar current) (tryTakeGate (.registrar registrar)) state := by
  refine Safe.modifyGet_last fun current between ready _ => ?_
  by_cases free : current.registrationGate = none
  · simp only [free, Option.isNone_none, if_true]
    have settled := ready.keeps.quiet fun other held => by simp [free] at held
    have taken : Holding registrar {current with registrationGate := some (.registrar registrar)} := ⟨rfl, settled⟩
    refine ⟨⟨ready.keeps.owned, ready.keeps.exact, ready.keeps.leaving, fun _ => settled⟩, ?_,
      Safe.ret fun later between _ _ => taken.stable between⟩
    exact ⟨fun _ _ => rfl, .of_same rfl rfl, id, fun other different => by simp [free, different], fun _ _ _ => ⟨rfl, rfl⟩⟩
  · simp only [Option.isNone_eq_false_iff.mpr (Option.isSome_iff_ne_none.mpr free), Bool.false_eq_true, if_false]
    exact ⟨ready.keeps, .refl _ _, Safe.ret fun _ _ _ taken => by cases taken⟩

variable [DecidableEq K] [DecidableEq R]

theorem releaseGate_safe (holding : Holding registrar state) :
    Safe (registrarContract fresh disarmed registrar) (fun _ _ => True) (releaseGate (n := n) (K := K) (.registrar registrar))
      state := by
  refine Safe.store fun current between ready => ?_
  have holding := holding.stable between
  simp only [holding.gate, if_true]
  refine ⟨⟨ready.keeps.owned, ready.keeps.exact, ready.keeps.leaving, fun _ => holding.settled⟩, ?_⟩
  exact ⟨fun _ _ => rfl, .of_same rfl rfl, id, fun other different => by simp [holding.gate, different],
    fun _ _ _ => ⟨rfl, rfl⟩⟩

theorem startRegistrar_safe {label : Label n m} {request : Request n m} {program : Prog (State n m K R) (Label n m)}
    (begins : startRegistrar registrar label request = some program) :
    Safe (registrarContract fresh disarmed registrar) (fun _ _ => True) program state := by
  have law := registrarLawful (n := n) (m := m) (K := K) fresh disarmed registrar
  unfold startRegistrar at begins
  split at begins
  · obtain rfl := Option.some.inj begins
    exact fun _ _ _ => trivial
  · obtain rfl := Option.some.inj begins
    exact fun _ _ _ => trivial
  · obtain rfl := Option.some.inj begins
    refine Safe.bind law tryTakeGate_safe fun taken second _ held => ?_
    cases taken with
    | true => exact Safe.bind law (runTask_safe _ (held rfl)) fun result third _ holding =>
        Safe.bind law (releaseGate_safe holding) fun _ _ _ _ => fun _ _ _ => trivial
    | false => exact fun _ _ _ => trivial
  · cases begins

end Registrars

section Calls

variable {fresh disarmed : Prop} {handle : K} {consumer : Fin m} {token : Nat} {entry : Entry} {state : State n m K R}

theorem idle_safe {α : Type} {program : Prog (State n m K R) α} (each : Each (Leaves (.handle handle)) program)
    (idle : state.installing handle = none) :
    Safe (handleContract fresh disarmed handle) (fun _ later => later.installing handle = none) program state :=
  leaves_safe (fun _ same => by cases same) each (fun leaves held => (congrFun leaves.installing handle).trans held)
    (fun between held => between.1.trans held) idle

theorem label_idle {label : Label n m}
    (rests : (discipline fresh disarmed).label (.handle handle) label state) :
    state.installing handle = none := by
  cases label with
  | armed consumer token entry result => exact Answers.idle rests
  | receive consumer token entry next => exact Answers.idle rests
  | _ => exact rests

theorem recordEntry_safe {α : Type} {P : α → State n m K R → Prop} {rest : Entry → Prog (State n m K R) α}
    (idle : state.installing handle = none)
    (continues : ∀ entry state, state.installing handle = none → Since consumer entry state →
      Safe (handleContract (n := n) (R := R) fresh disarmed handle) P (rest entry) state) :
    Safe (handleContract fresh disarmed handle) P ((recordEntry consumer).bind rest) state :=
  Safe.load_bind (handleLawful fresh disarmed handle) fun _ between _ =>
    continues _ _ (between.1.trans idle) ⟨le_rfl, fun _ => rfl, id⟩

/-- A receive whose token stays active never gives up. -/
abbrev Proceeds (fresh : Prop) (handle : K) (consumer : Fin m) (token : Nat) (entry : Entry) (next : Step n)
    (state : State n m K R) : Prop :=
  Answers fresh handle consumer token entry (next ≠ .done .empty) state

variable [DecidableEq K]

theorem endPass_safe {pass : Pass} {next : Step n} (proceeds : Proceeds fresh handle consumer token entry next state) :
    Safe (handleContract (n := n) (R := R) fresh disarmed handle) (Proceeds fresh handle consumer token entry)
      (endPass handle consumer token pass next) state :=
  Safe.bind (handleLawful fresh disarmed handle) (answers_leaves (.when (leaves_clearWaitNotification token)) proceeds)
    fun _ _ _ held => answers_ret held

/-- The ticket of a steady token is never invalid. -/
theorem waitTicketState_safe (idle : state.installing handle = none) (since : Since consumer entry state) :
    Safe (handleContract (n := n) (R := R) fresh disarmed handle)
      (fun ticket => Answers fresh handle consumer token entry (ticket ≠ .Invalid))
      (waitTicketState handle consumer token) state := by
  have law := handleLawful (n := n) (m := m) (R := R) fresh disarmed handle
  refine Safe.load_bind law fun first between _ => ?_
  have idle : first.installing handle = none := between.1.trans idle
  have since := since.stable between
  by_cases live : phase token = kActive ∧ first.slot consumer = token
  swap
  · simp only [live, decide_false, Bool.not_false, if_true]
    exact answers_ret ⟨idle, since, fun steady => absurd ⟨steady.phase, steady.slot since⟩ live⟩
  simp only [live, and_self, decide_true, Bool.not_true, Bool.false_eq_true, if_false]
  refine Safe.modifyGet_bind fun second between ready _ => ?_
  have idle : second.installing handle = none := between.1.trans idle
  have since := since.stable between
  have changed : Leaves (.handle handle) second (if second.ticket consumer = token then
      second.setReceiver handle fun receiver =>
        if receiver.watch = .watching then {receiver with watch := .checked} else receiver
      else second) := .ite fun _ => leaves_setReceiver second _
  refine ⟨changed.tickets ready.keeps (fun _ same => by cases same), changed.guarantee, answers_ret ?_⟩
  refine Answers.keeps ⟨idle, since, fun steady => ?_⟩ changed
  rcases ready.keeps.free steady since with empty | own
  · split <;> simp
  · simp [own]

theorem scanPass_safe {setup : Setup} {pass : Pass} {now : Option Nat} (idle : state.installing handle = none)
    (since : Since consumer entry state) : Safe (handleContract (n := n) (R := R) fresh disarmed handle)
      (Proceeds fresh handle consumer token entry) (scanPass setup handle consumer token pass now) state := by
  have law := handleLawful (n := n) (m := m) (R := R) fresh disarmed handle
  refine Safe.bind law (answers_leaves (leaves_scanRings setup now) (.start token idle since))
    fun visited second _ held => ?_
  split
  · exact endPass_safe (held.weaken fun _ => by simp)
  · exact answers_ret (held.weaken fun _ => by simp)
  · split
    · exact endPass_safe (held.weaken fun _ => by simp)
    · split
      · exact endPass_safe (held.weaken fun _ => by simp)
      · split
        · refine Safe.bind law (waitTicketState_safe held.idle held.since) fun ticket third _ held => ?_
          cases ticket with
          | Invalid => exact endPass_safe (held.weaken fun valid => absurd rfl valid)
          | Consumed => exact endPass_safe (held.weaken fun _ => by simp)
          | Armed => exact answers_ret (held.weaken fun _ => by simp)
        · exact answers_ret (held.weaken fun _ => by simp)

theorem futexWait_safe {pass : Pass} (idle : state.installing handle = none) (since : Since consumer entry state) :
    Safe (handleContract (n := n) (R := R) fresh disarmed handle) (Proceeds fresh handle consumer token entry)
      (futexWait handle consumer token pass) state := by
  have law := handleLawful (n := n) (m := m) (R := R) fresh disarmed handle
  refine Safe.bind law (answers_leaves (.modifyGet (fun _ => .ite fun _ => ?_) _) (.start token idle since))
    fun sleeps _ _ held => ?_
  · split
    · exact answers_ret (held.weaken fun _ => by simp)
    · exact endPass_safe (held.weaken fun _ => by simp)
  · exact .of_same rfl rfl rfl rfl rfl rfl rfl

theorem resume_safe {pass : Pass} (idle : state.installing handle = none) (since : Since consumer entry state) :
    Safe (handleContract (n := n) (R := R) fresh disarmed handle) (Proceeds fresh handle consumer token entry)
      (resume handle consumer token pass) state := by
  have law := handleLawful (n := n) (m := m) (R := R) fresh disarmed handle
  refine Safe.bind law (answers_leaves (leaves_load _) (.start token idle since)) fun sleeps _ _ held => ?_
  split
  · exact answers_ret (held.weaken fun _ => by simp)
  · exact endPass_safe (held.weaken fun _ => by simp)

variable [DecidableEq R]

theorem beginPass_safe {spins : Nat} {fence : Bool} (idle : state.installing handle = none)
    (since : Since consumer entry state) : Safe (handleContract (n := n) (R := R) fresh disarmed handle)
      (Proceeds fresh handle consumer token entry) (beginPass handle consumer token spins fence) state := by
  have law := handleLawful (n := n) (m := m) (R := R) fresh disarmed handle
  refine Safe.load_bind law fun first between _ => ?_
  have idle : first.installing handle = none := between.1.trans idle
  have since := since.stable between
  split
  · refine Safe.bind law (answers_leaves leaves_snapshotEpoch (.start token idle since)) fun _ _ _ held => ?_
    exact answers_ret (held.weaken fun _ => by simp)
  · refine Safe.bind law (tryArmWaitNotification_safe idle since) fun armed second _ held => ?_
    cases armed with
    | none => exact answers_ret (held.weaken (by simp))
    | some armed =>
        refine Safe.load_bind law fun third between _ => ?_
        have held := held.stable between
        refine Safe.bind law (answers_leaves leaves_snapshotEpoch (.start token held.idle held.since))
          fun _ _ _ held => ?_
        exact answers_ret (held.weaken fun _ => by simp)

variable {setup : Setup} {request : Request n m} {program : Prog (State n m K R) (Label n m)}

theorem startCall_safe (idle : state.installing handle = none) (begins : startCall handle request = some program) :
    Safe (handleContract fresh disarmed handle) ((discipline fresh disarmed).label (.handle handle)) program state := by
  have law := handleLawful (n := n) (m := m) (R := R) fresh disarmed handle
  unfold startCall at begins
  split at begins
  · obtain rfl := Option.some.inj begins
    refine recordEntry_safe idle fun entry second idle since => ?_
    exact Safe.bind law (tryArmWaitNotification_safe idle since) fun result third _ held =>
      fun later between _ => held.stable between
  · obtain rfl := Option.some.inj begins
    exact Safe.bind law (idle_safe (leaves_clearWaitNotification _) idle) fun _ _ _ held later between _ =>
      between.1.trans held
  · obtain rfl := Option.some.inj begins
    rename_i consumer token
    refine recordEntry_safe idle fun entry second idle since => ?_
    exact fun later between _ => ((Answers.start token idle since).weaken fun _ => by simp).stable between
  · cases begins

theorem nextPass_safe {pass : Prog (State n m K R) (Step n)} {next : Step n} {fence : Bool}
    (idle : state.installing handle = none) (since : Since consumer entry state)
    (begins : nextPass setup handle consumer token fence next = some pass) :
    Safe (handleContract fresh disarmed handle) (Proceeds fresh handle consumer token entry) pass state := by
  cases next with
  | retry spins => exact Option.some.inj begins ▸ beginPass_safe idle since
  | scan pass now => exact Option.some.inj begins ▸ scanPass_safe idle since
  | park pass => exact Option.some.inj begins ▸ futexWait_safe idle since
  | sleep pass => exact Option.some.inj begins ▸ resume_safe idle since
  | done received => cases begins

theorem startHandle_safe {label : Label n m} (rests : (discipline fresh disarmed).label (.handle handle) label state)
    (begins : startHandle setup handle label request = some program) :
    Safe (handleContract fresh disarmed handle) ((discipline fresh disarmed).label (.handle handle)) program state := by
  have law := handleLawful (n := n) (m := m) (R := R) fresh disarmed handle
  unfold startHandle at begins
  split at begins
  · exact startCall_safe rests begins
  · exact startCall_safe rests.idle begins
  · obtain rfl := Option.some.inj begins
    exact Safe.bind law (idle_safe (.store fun state => leaves_setReceiver state _) rests.idle)
      fun _ _ _ held later between _ => between.1.trans held
  · exact startCall_safe rests.idle begins
  · rw [Option.map_eq_some_iff] at begins
    obtain ⟨pass, begins, rfl⟩ := begins
    exact Safe.bind law (nextPass_safe rests.idle rests.since begins) fun next _ _ held later between _ =>
      held.stable between
  · cases begins

/-- The contracts hold at every start of a call. -/
theorem sound (fresh disarmed : Prop) :
    (discipline (n := n) (m := m) (K := K) (R := R) fresh disarmed).Sound (system setup) fun _ _ _ _ => True where
  lawful := lawful
  compatible different _ _ step := compatible different step
  start {thread label request program state} begins _ _ _ rests := by
    match thread, label with
    | .producer producer, label =>
        have each : Each (Leaves (.producer producer)) program := by
          cases label with
          | producer claiming => exact leaves_startProducer begins
          | _ => cases begins
        have kept : Safe ((discipline fresh disarmed).contract (.producer producer)) (fun _ _ => True) program state :=
          leaves_safe (fun _ same => by cases same) each (fun _ _ => trivial) (fun _ _ => trivial) trivial
        refine kept.weaken fun _ _ _ _ => ?_
        cases label <;> trivial
    | .handle handle, label => exact startHandle_safe rests begins
    | .registrar registrar, label => exact (startRegistrar_safe begins).weaken fun _ _ _ _ => trivial

end Calls

section Runs

theorem tickets_initial (fresh disarmed : Prop) (slot : Fin m → Nat) :
    (discipline (n := n) (K := K) (R := R) fresh disarmed).Initial (initial slot) where
  left := ⟨fun _ some_ => absurd rfl some_, fun _ _ some_ => absurd rfl some_, fun _ leaving => absurd rfl leaving,
    fun _ _ => rfl⟩
  right thread := by
    match thread with
    | .producer _ => exact fun _ _ _ => trivial
    | .handle _ => exact fun _ between _ => between.1
    | .registrar _ => exact fun _ _ _ => trivial

variable {setup : Setup} {slot : Fin m → Nat} [DecidableEq K] [DecidableEq R]
  {config : Config (State n m K R) (Thread n K R) (Label n m)}

/-- A run in which every step obeys the restrictions. -/
theorem tickets_of_run (fresh disarmed : Prop)
    {admits : Config (State n m K R) (Thread n K R) (Label n m) → Event (Thread n K R) (Request n m) → Prop}
    (obeys : ∀ {before after thread}, admits before (.act thread) → (system setup).step before (.act thread) = some after →
      (fresh → InstallsLive before.shared after.shared) ∧ (disarmed → EndsDisarmed before.shared after.shared))
    (run : (system setup).Run admits (initial slot) config) : (discipline fresh disarmed).Initial config ∧
      ∀ {thread label}, config.thread thread = .ret label → (discipline fresh disarmed).label thread label config.shared := by
  have knows : (discipline fresh disarmed).Knows (system setup) (fun _ _ _ _ => True) admits (initial slot) := {
    respects := fun {config event} _ => by
      cases event with
      | start thread request => exact fun _ _ => trivial
      | act thread => exact trivial
    known := fun _ => trivial
    action := fun {before after thread} _ admitted taken => by
      cases thread with
      | producer _ => trivial
      | handle _ => exact (obeys admitted taken).1
      | registrar _ => exact (obeys admitted taken).2
    rests := fun _ _ _ => trivial }
  have begun := tickets_initial (n := n) (K := K) (R := R) fresh disarmed slot
  exact ⟨(sound fresh disarmed).run begun knows run, fun rests =>
    (sound fresh disarmed).label begun knows run trivial rests⟩

/-- A ticket that is not the active one is removed before the call or the registrar that has left it is done. -/
theorem ticket_of_reachable (reached : (system setup).Reachable (initial slot) config)
    (resting : ∀ handle, ∃ label, config.thread (.handle handle) = .ret label) (consumer : Fin m) :
    config.shared.ticket consumer = 0 ∨ config.shared.Matches consumer ∨
      ((∃ registrar, config.shared.registrationGate = some (.registrar registrar)) ∧
        phase (config.shared.slot consumer) ≠ kActive) := by
  obtain ⟨⟨tickets, -⟩, labels⟩ := tickets_of_run False False (fun _ _ => ⟨False.elim, False.elim⟩) reached
  by_cases empty : config.shared.ticket consumer = 0
  · exact .inl empty
  rcases tickets.owned consumer empty with owned | leaving | ⟨handle, installs⟩
  · exact .inr (.inl owned)
  · refine .inr (.inr ⟨?_, tickets.leaving consumer (by simp [leaving])⟩)
    by_contra open_
    simp [tickets.quiet (fun registrar held => open_ ⟨registrar, held⟩) consumer] at leaving
  · obtain ⟨label, rests⟩ := resting handle
    have idle : config.shared.installing handle = none := label_idle (labels rests)
    simp [idle] at installs

/-- A handle installs only the token of a live registration, and no registration ends while its ticket is armed. -/
def Undisturbed (setup : Setup) (before : Config (State n m K R) (Thread n K R) (Label n m)) :
    Event (Thread n K R) (Request n m) → Prop
  | .start _ _ => True
  | .act thread => ∀ after, (system setup).step before (.act thread) = some after →
      InstallsLive before.shared after.shared ∧ EndsDisarmed before.shared after.shared

/-- The call of a live subscriber succeeds, and every ticket is the active one. -/
theorem live_calls_succeed (run : (system setup).Run (Undisturbed setup) (initial slot) config) :
    (∀ handle consumer token entry, phase token = kActive → entry.word = token → entry.active = true →
      config.shared.changes consumer = entry.changes →
      (∀ result, config.thread (.handle handle) = .ret (.armed consumer token entry result) → result = some true) ∧
        config.thread (.handle handle) ≠ .ret (.receive consumer token entry (.done .empty))) ∧
    ∀ consumer, config.shared.ticket consumer = 0 ∨ config.shared.Matches consumer := by
  obtain ⟨⟨tickets, -⟩, labels⟩ := tickets_of_run True True (fun admitted taken => ⟨fun _ => (admitted _ taken).1, fun _ => (admitted _ taken).2⟩) run
  refine ⟨fun handle consumer token entry active word wakes changes => ⟨fun result rests => ?_, fun rests => ?_⟩,
    fun consumer => ?_⟩
  · exact (labels rests).accepts ⟨trivial, active, word, wakes, changes⟩
  · exact (labels rests).accepts ⟨trivial, active, word, wakes, changes⟩ rfl
  · by_cases empty : config.shared.ticket consumer = 0
    · exact .inl empty
    · exact .inr ((tickets.exact trivial consumer empty).resolve_right fun leaving => leaving.2 trivial)

instance (before after : State n m K R) : Decidable (InstallsLive before after) :=
  inferInstanceAs (Decidable (∀ consumer, after.ticket consumer ≠ before.ticket consumer →
    after.ticket consumer = 0 ∨ after.ticket consumer = before.slot consumer))

instance (before after : State n m K R) : Decidable (EndsDisarmed before after) :=
  inferInstanceAs (Decidable (∀ consumer, phase (before.slot consumer) = kActive →
    after.slot consumer ≠ before.slot consumer → before.ticket consumer ≠ before.slot consumer))

def undisturbed (setup : Setup) (before : Config (State n m K R) (Thread n K R) (Label n m)) :
    Event (Thread n K R) (Request n m) → Bool
  | .start _ _ => true
  | .act thread => ((system setup).step before (.act thread)).all fun after =>
      decide (InstallsLive before.shared after.shared ∧ EndsDisarmed before.shared after.shared)

theorem undisturbed_passes (before : Config (State n m K R) (Thread n K R) (Label n m))
    (event : Event (Thread n K R) (Request n m)) (passes : undisturbed setup before event = true) :
    Undisturbed setup before event := by
  cases event with
  | start thread request => trivial
  | act thread => exact fun after taken => of_decide_eq_true (by simpa [undisturbed, taken] using passes)

end Runs

/-- A handle that a process has kept from an earlier registration of the slot, and the handle of the next one. -/
inductive Endpoint where
  | inherited
  | current
  deriving DecidableEq

def firstToken : Nat := makeToken 1 7 kActive

def secondToken : Nat := makeToken 2 7 kActive

def acts (thread : Thread 1 Endpoint Unit) (count : Nat) : List (Event (Thread 1 Endpoint Unit) (Request 1 1)) :=
  List.replicate count (.act thread)

/-- The notifications are activated, and the registration ends without a ticket. -/
def activeRegistration : List (Event (Thread 1 Endpoint Unit) (Request 1 1)) :=
  .start (.handle .inherited) (.arm sole firstToken true) :: acts (.handle .inherited) 12 ++
    .start (.handle .inherited) (.clear sole firstToken) :: acts (.handle .inherited) 1

/-- The slot is released and registered again. -/
def nextRegistration : List (Event (Thread 1 Endpoint Unit) (Request 1 1)) :=
  .start (.registrar ()) (.register (.release sole firstToken)) :: .start (.registrar ()) (.proceed true) ::
    acts (.registrar ()) 5 ++ .start (.registrar ()) (.register (.acquire 7 fun _ => true)) ::
    .start (.registrar ()) (.proceed true) :: acts (.registrar ()) 6

/-- The handle of the next registration arms its ticket. -/
def currentCall : List (Event (Thread 1 Endpoint Unit) (Request 1 1)) :=
  .start (.handle .current) (.arm sole secondToken true) :: acts (.handle .current) 6

/-- The answer of an arm call. -/
def answer : Prog (State 1 1 Endpoint Unit) (Label 1 1) → Option (Nat × Entry × Option Bool)
  | .ret (.armed _ token entry result) => some (token, entry, result)
  | _ => none

theorem of_answer {program : Prog (State 1 1 Endpoint Unit) (Label 1 1)} {token : Nat} {entry : Entry}
    {result : Option Bool} (answers : answer program = some (token, entry, result)) :
    program = .ret (.armed sole token entry result) := by
  unfold answer at answers
  split at answers
  · rename_i consumer _ _ _
    obtain rfl := Subsingleton.elim consumer sole
    simp only [Option.some.injEq, Prod.mk.injEq] at answers
    obtain ⟨rfl, rfl, rfl⟩ := answers
    rfl
  · cases answers

theorem live_calls_succeed_nextRegistration :
    ∃ (config : Config (State 1 1 Endpoint Unit) (Thread 1 Endpoint Unit) (Label 1 1)) (result : Option Bool),
      (system ⟨false⟩).Run (Undisturbed ⟨false⟩) (initial fun _ => firstToken) config ∧
        config.thread (.handle .current) = .ret (.armed sole secondToken ⟨secondToken, 4, true⟩ result) ∧
        result = some true ∧ (config.shared.ticket sole = 0 ∨ config.shared.Matches sole) := by
  have executed : ((system ⟨false⟩).execChecked (undisturbed ⟨false⟩) (initial fun _ => firstToken)
      (activeRegistration ++ nextRegistration ++ currentCall)).map (fun config =>
        (config.shared.changes sole, answer (config.thread (.handle .current)))) =
      some (4, some (secondToken, ⟨secondToken, 4, true⟩, some true)) := by
    decide
  obtain ⟨config, final, facts⟩ := Option.map_eq_some_iff.mp executed
  simp only [Prod.mk.injEq] at facts
  have run := System.run_of_execChecked undisturbed_passes _ .refl final
  have rests := of_answer facts.2
  obtain ⟨answers, tickets⟩ := live_calls_succeed run
  exact ⟨config, some true, run, rests,
    (answers .current sole secondToken ⟨secondToken, 4, true⟩ (by decide) rfl rfl facts.1).1 _ rests, tickets sole⟩

/-- The old handle stands before the installation of its ticket while the slot is registered again. -/
def staleInstallation : List (Event (Thread 1 Endpoint Unit) (Request 1 1)) :=
  activeRegistration ++ .start (.handle .inherited) (.arm sole firstToken true) :: acts (.handle .inherited) 4 ++
    nextRegistration ++ acts (.handle .inherited) 1

/-- The stale ticket refuses the call of the live handle. -/
theorem stale_ticket_refuses :
    ∃ config : Config (State 1 1 Endpoint Unit) (Thread 1 Endpoint Unit) (Label 1 1),
      (system ⟨false⟩).Reachable (initial fun _ => firstToken) config ∧ phase secondToken = kActive ∧
        config.shared.changes sole = 4 ∧
        config.thread (.handle .current) = .ret (.armed sole secondToken ⟨secondToken, 4, true⟩ none) := by
  have executed : ((system ⟨false⟩).exec (initial fun _ => firstToken) (staleInstallation ++ currentCall.dropLast)).map
      (fun config => (config.shared.changes sole, answer (config.thread (.handle .current)))) =
      some (4, some (secondToken, ⟨secondToken, 4, true⟩, none)) := by
    decide
  obtain ⟨config, final, facts⟩ := Option.map_eq_some_iff.mp executed
  simp only [Prod.mk.injEq] at facts
  exact ⟨config, System.reachable_of_exec _ .refl final, by decide, facts.1, of_answer facts.2⟩

end Salias.Notification
