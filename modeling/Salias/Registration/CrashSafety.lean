import Salias.Registration.Crash

/-
A slot records the start token of its own process, or none. The gate excludes the clients of live processes as
long as nobody clears the gate of a live owner.
-/

namespace Salias.CrashRecovery

open Concurrent ConsumerRegistration SharedHybridMpsc

variable {n m : Nat} {P K : Type}

/-- The start token of a slot belongs to the process of its state word. -/
def Recorded (setup : Setup n P K) (slot : ConsumerSlot) : Prop :=
  slot.processStart = 0 ∨
    ∃ process, setup.pid process = processId slot.state ∧ slot.processStart = setup.startToken process

/-- A free slot names no process. -/
structure WellRecorded (setup : Setup n P K) (slot : ConsumerSlot) : Prop where
  recorded : Recorded setup slot
  free : phase slot.state = kFree → slot.processStart = 0

/-- A client of a live process that is past its first exchange on the gate. -/
def Within (setup : Setup n P K) (state : State n m P K) (client : K) : Prop :=
  state.alive (setup.clientProcess client) = true ∧ state.stage client ≠ .outside

structure Kept (setup : Setup n P K) (state : State n m P K) : Prop where
  owned : ∀ client, Within setup state client → state.registrationGate = gateWord setup client (state.stage client)
  unique : ∀ first second, Within setup state first → Within setup state second → first = second
  named : ∀ client token, state.stage client = .arming token → processId token = setup.pid (setup.clientProcess client)
  slots : ∀ consumer, WellRecorded setup (state.slot consumer)

/-- A client is about to clear the gate that it has found dead, although the gate names a live process. -/
def TakesLiveGate (setup : Setup n P K) (state : State n m P K) (client : K) : Prop :=
  ∃ word ∈ state.judged client, state.registrationGate = word ∧
    ∃ process ∈ setup.processOf (processId word), state.alive process = true

instance [DecidableEq K] [DecidableEq P] (setup : Setup n P K) (state : State n m P K) (client : K) :
    Decidable (TakesLiveGate setup state client) := by
  unfold TakesLiveGate
  infer_instance

section Contracts

variable {setup : Setup n P K}

def rely (setup : Setup n P K) : Thread n K → State n m P K → State n m P K → Prop
  | .client client, before, after => (∀ process, after.alive process = true → before.alive process = true) ∧
      after.stage client = before.stage client ∧ after.judged client = before.judged client ∧
      (after.alive (setup.clientProcess client) = true → before.stage client = .holding → after.slot = before.slot)
  | _, before, after => ∀ process, after.alive process = true → before.alive process = true

structure Guarantee (thread : Thread n K) (before after : State n m P K) : Prop where
  alive : ∀ process, after.alive process = true → before.alive process = true
  client : ∀ client, thread ≠ .client client →
    after.stage client = before.stage client ∧ after.judged client = before.judged client
  slots : after.slot = before.slot ∨ ∃ client, thread = .client client ∧ before.stage client = .holding

/-- A client at rest between two passes. -/
structure Rests (client : K) (stage : Stage) (state : State n m P K) : Prop where
  stage : state.stage client = stage
  judged : state.judged client = none

/-- A registration carries the id of its own process. -/
def Own (setup : Setup n P K) (client : K) (registration : Option (Fin m × Nat)) : Prop :=
  ∀ consumer token, registration = some (consumer, token) →
    processId token = setup.pid (setup.clientProcess client)

def discipline [DecidableEq P] (setup : Setup n P K) : Discipline (State n m P K) (Thread n K) (Label n m) where
  invariant := Kept setup
  action thread before _ := ∀ client, thread = .client client → ¬ TakesLiveGate setup before client
  may thread state := Lives setup state thread
  rely := rely setup
  guarantee := Guarantee
  label thread label state := match thread, label with
    | .client client, .resting registration => Rests client .outside state ∧ Own setup client registration
    | .client client, .contending _ => Rests client .outside state
    | .client client, .waiting _ _ => Rests client .holding state
    | _, _ => True

theorem Guarantee.refl (thread : Thread n K) (state : State n m P K) : Guarantee thread state state :=
  ⟨fun _ => id, fun _ _ => ⟨rfl, rfl⟩, .inl rfl⟩

theorem lawful [DecidableEq P] (setup : Setup n P K) (thread : Thread n K) :
    ((discipline (m := m) setup).contract thread).Lawful where
  refl state := by
    match thread with
    | .client client => exact ⟨fun _ => id, rfl, rfl, fun _ _ => rfl⟩
    | .producer _ => exact fun _ => id
    | .environment => exact fun _ => id
  trans {first second third} earlier later := by
    match thread, earlier, later with
    | .client client, earlier, later =>
        refine ⟨fun process lives => earlier.1 process (later.1 process lives), later.2.1.trans earlier.2.1,
          later.2.2.1.trans earlier.2.2.1, fun lives holds => ?_⟩
        rw [later.2.2.2 lives (earlier.2.1.trans holds), earlier.2.2.2 (later.1 _ lives) holds]
    | .producer _, earlier, later => exact fun process lives => earlier process (later process lives)
    | .environment, earlier, later => exact fun process lives => earlier process (later process lives)
  idle state := .refl thread state
  stays {before after} between lives := by
    match thread, between, lives with
    | .client client, between, lives => exact between.1 _ lives
    | .producer producer, between, lives => exact between _ lives
    | .environment, _, _ => trivial

theorem compatible [DecidableEq P] {actor observer : Thread n K} {before after : State n m P K}
    (different : actor ≠ observer) (ready : ((discipline setup).contract actor).Ready before)
    (step : Guarantee actor before after) : rely setup observer before after := by
  match observer with
  | .producer _ => exact step.alive
  | .environment => exact step.alive
  | .client client =>
      have own := step.client client different
      refine ⟨step.alive, own.1, own.2, fun lives holds => ?_⟩
      rcases step.slots with same | ⟨other, rfl, holding⟩
      · exact same
      · have one : Within setup before other := ⟨ready.may, by simp [holding]⟩
        have two : Within setup before client := ⟨step.alive _ lives, by simp [holds]⟩
        exact absurd (congrArg Thread.client (ready.keeps.unique _ _ one two)) different

end Contracts

section Plain

/-- A step that leaves the gate and the slots alone. -/
structure Plain (before after : State n m P K) : Prop where
  alive : after.alive = before.alive
  gate : after.registrationGate = before.registrationGate
  slot : after.slot = before.slot
  stage : after.stage = before.stage
  judged : after.judged = before.judged

variable {setup : Setup n P K} {before after : State n m P K}

theorem Plain.refl (state : State n m P K) : Plain state state := ⟨rfl, rfl, rfl, rfl, rfl⟩

theorem Plain.ite {condition : Prop} [Decidable condition] (plain : condition → Plain before after) :
    Plain before (if condition then after else before) := by
  split
  · exact plain ‹_›
  · exact .refl before

theorem Plain.kept (plain : Plain before after) (kept : Kept setup before) : Kept setup after where
  owned client within_ := by
    rw [plain.gate, plain.stage]
    rw [Within, plain.alive, plain.stage] at within_
    exact kept.owned client within_
  unique := by
    simp only [Within, plain.alive, plain.stage]
    exact kept.unique
  named := by
    rw [plain.stage]
    exact kept.named
  slots := by
    rw [plain.slot]
    exact kept.slots

theorem Plain.guarantee (plain : Plain before after) (thread : Thread n K) : Guarantee thread before after where
  alive process lives := by rwa [plain.alive] at lives
  client client _ := by rw [plain.stage, plain.judged]; exact ⟨rfl, rfl⟩
  slots := .inl plain.slot

theorem plain_load {α : Type} (read : State n m P K → α) : Each Plain (Prog.load read) := .load .refl read

theorem plain_setRing (state : State n m P K) (producer : Fin n) (change : ProducerRing m → ProducerRing m) :
    Plain state (state.setRing producer change) := ⟨rfl, rfl, rfl, rfl, rfl⟩

theorem plain_storeCursor {producer : Fin n} {consumer : Fin m} {change : Cursor → Cursor} :
    Each (Plain (P := P) (K := K)) (storeCursor producer consumer change) :=
  .store fun state => plain_setRing state producer _

theorem plain_storeTicket {consumer : Fin m} {word : Nat} : Each (Plain (n := n) (P := P) (K := K)) (storeTicket consumer word) :=
  .store fun _ => ⟨rfl, rfl, rfl, rfl, rfl⟩

theorem plain_storeConsumerSequence {consumer : Fin m} {sequence : Nat} :
    Each (Plain (n := n) (P := P) (K := K)) (storeConsumerSequence consumer sequence) :=
  .store fun _ => ⟨rfl, rfl, rfl, rfl, rfl⟩

theorem plain_clearCursor {consumer : Fin m} {generation : Nat} {producer : Fin n} :
    Each (Plain (P := P) (K := K)) (clearCursor consumer generation producer) :=
  .bind plain_storeCursor fun _ => .bind plain_storeCursor fun _ => .bind plain_storeCursor fun _ =>
    .bind plain_storeCursor fun _ => .bind plain_storeCursor fun _ => .bind plain_storeCursor fun _ =>
    .bind plain_storeCursor fun _ => plain_storeCursor

theorem plain_clearConsumerCursors {consumer : Fin m} {generation : Nat} :
    Each (Plain (n := n) (P := P) (K := K)) (clearConsumerCursors consumer generation) :=
  .bind (.forEach (fun _ => plain_clearCursor) _) fun _ => plain_storeConsumerSequence

theorem plain_snapshotCursor {consumer : Fin m} {generation orderedSequence : Nat} {producer : Fin n} :
    Each Plain (snapshotCursor setup consumer generation orderedSequence producer) := by
  refine .bind plain_storeCursor fun _ => .bind (plain_load _) fun position => .bind ?_ fun sequence => ?_
  · split
    · exact .ret _
    · exact plain_load _
  · exact .bind plain_storeCursor fun _ => .bind plain_storeCursor fun _ => .bind (plain_load _) fun _ =>
      .bind plain_storeCursor fun _ => .bind plain_storeCursor fun _ => .bind plain_storeCursor fun _ =>
      .bind plain_storeCursor fun _ => plain_storeCursor

theorem plain_claim {producer : Fin n} {position sequence messageSequence : Nat} :
    Each (Plain (m := m)) (claim setup producer position sequence messageSequence) := by
  refine .bind (plain_load _) fun closed => ?_
  split
  · exact .ret _
  · refine .bind (.store fun state => plain_setRing state producer _) fun _ => .bind (plain_load _) fun closed => ?_
    refine .bind (.when (.bind (.when (.store fun _ => ⟨rfl, rfl, rfl, rfl, rfl⟩)) fun _ => ?_)) fun _ =>
      .store fun state => plain_setRing state producer _
    exact .bind (.store fun state => plain_setRing state producer _) fun _ =>
      .bind (.store fun state => plain_setRing state producer _) fun _ => .store fun state => plain_setRing state producer _

variable [DecidableEq P]

/-- A plain program keeps every fact that the other threads keep. -/
theorem plain_safe {α : Type} {thread : Thread n K} {holds : State n m P K → Prop} {program : Prog (State n m P K) α}
    {state : State n m P K} (each : Each Plain program)
    (keeps : ∀ {before after}, Plain before after → holds before → holds after)
    (stable : ∀ {before after}, rely setup thread before after → Lives setup after thread → holds before → holds after)
    (entry : holds state) : Safe ((discipline setup).contract thread) (fun _ => holds) program state :=
  Safe.of_each each
    (fun ready _ plain held => ⟨plain.kept ready.keeps, plain.guarantee thread, keeps plain held⟩)
    (fun between ready held => stable between ready.may held) entry

end Plain

section Gate

variable {setup : Setup n P K} {client : K} {state before after : State n m P K}

abbrev clientContract [DecidableEq P] (setup : Setup n P K) (client : K) : Contract (State n m P K) :=
  (discipline setup).contract (.client client)

theorem Rests.stable {stage : Stage} (rests : Rests client stage before) (between : rely setup (.client client) before after) :
    Rests client stage after := ⟨between.2.1.trans rests.stage, between.2.2.1.trans rests.judged⟩

theorem Rests.keeps {stage : Stage} (rests : Rests client stage before) (plain : Plain before after) :
    Rests client stage after :=
  ⟨(congrFun plain.stage client).trans rests.stage, (congrFun plain.judged client).trans rests.judged⟩

/-- The word of a client inside the gate names its process. -/
theorem Kept.names (kept : Kept setup state) (within_ : Within setup state client) :
    setup.processOf (processId state.registrationGate) = some (setup.clientProcess client) := by
  rw [setup.unique, kept.owned client within_]
  have past := within_.2
  cases stage : state.stage client with
  | outside => exact absurd stage past
  | preparing => exact (processId_makeToken _ _ (by decide)).symm
  | holding => exact (processId_makeToken _ _ (by decide)).symm
  | arming token => exact (kept.named client token stage).symm.trans (processId_makeToken _ _ (by decide)).symm

theorem Setup.processOf_zero (setup : Setup n P K) : setup.processOf 0 = none := by
  cases found : setup.processOf 0 with
  | none => rfl
  | some process => exact absurd ((setup.unique _ _).mp found) (setup.positive process)

/-- Nobody is inside a gate that names no live process. -/
theorem Kept.nobody (kept : Kept setup state)
    (unnamed : ∀ process, setup.processOf (processId state.registrationGate) = some process → state.alive process ≠ true)
    (client : K) : ¬ Within setup state client :=
  fun within_ => unnamed _ (kept.names within_) within_.1

theorem Kept.nobody_of_clear (kept : Kept setup state) (clear : state.registrationGate = 0) (client : K) :
    ¬ Within setup state client := by
  refine kept.nobody (fun process found => ?_) client
  rw [clear] at found
  have none_ : processId 0 = 0 := rfl
  rw [none_, setup.processOf_zero] at found
  cases found

/-- The gate may be cleared when nobody is inside. -/
theorem Kept.clear (kept : Kept setup state) (nobody : ∀ client, ¬ Within setup state client)
    (alive : after.alive = state.alive) (stage : after.stage = state.stage) (slot : after.slot = state.slot) :
    Kept setup after := by
  have same (client : K) : ¬ Within setup after client := by
    rw [Within, alive, stage]
    exact nobody client
  exact ⟨fun client within_ => absurd within_ (same client), fun first _ within_ => absurd within_ (same first),
    stage ▸ kept.named, slot ▸ kept.slots⟩

/-- The own step of a client on the gate. -/
theorem Guarantee.gate (alive : after.alive = before.alive) (slot : after.slot = before.slot)
    (stage : ∀ other, other ≠ client → after.stage other = before.stage other)
    (judged : ∀ other, other ≠ client → after.judged other = before.judged other) :
    Guarantee (.client client) before after where
  alive process lives := by rwa [alive] at lives
  client other different := ⟨stage other fun same => different (same ▸ rfl), judged other fun same => different (same ▸ rfl)⟩
  slots := .inl slot

variable [DecidableEq K]

theorem setStage_stage (state : State n m P K) (client : K) (stage : Stage) :
    (state.setStage client stage).stage client = stage := Function.update_self ..

theorem setStage_other (state : State n m P K) (stage : Stage) {other : K} (different : other ≠ client) :
    (state.setStage client stage).stage other = state.stage other := Function.update_of_ne different ..

/-- A client changes its stage when nobody else is inside. -/
theorem Kept.advance (kept : Kept setup state) (alone : ∀ other, other ≠ client → ¬ Within setup state other)
    {stage : Stage} {gate gateStart : Nat}
    (owned : stage ≠ .outside → gate = gateWord setup client stage)
    (named : ∀ token, stage = .arming token → processId token = setup.pid (setup.clientProcess client)) :
    Kept setup ({state with
      registrationGate := gate
      registrationGateProcessStart := gateStart}.setStage client stage) := by
  have only_ (other : K) (within_ : Within setup ({state with
      registrationGate := gate
      registrationGateProcessStart := gateStart}.setStage client stage) other) : other = client := by
    by_contra different
    refine alone other different ⟨within_.1, ?_⟩
    have past := within_.2
    rwa [setStage_other _ _ different] at past
  refine ⟨fun other within_ => ?_, fun first second one two => (only_ first one).trans (only_ second two).symm,
    fun other token arms => ?_, kept.slots⟩
  · obtain rfl := only_ other within_
    have past := within_.2
    rw [setStage_stage] at past ⊢
    exact owned past
  · by_cases same : other = client
    · subst same
      rw [setStage_stage] at arms
      exact named token arms
    · rw [setStage_other _ _ same] at arms
      exact kept.named other token arms

theorem giveBack_keeps {stage : Stage} (kept : Kept setup state) (lives : state.alive (setup.clientProcess client) = true)
    (rests : Rests client stage state) (past : stage ≠ .outside) :
    Kept setup (state.giveBack client (gateWord setup client stage)) ∧
      Guarantee (.client client) state (state.giveBack client (gateWord setup client stage)) ∧
      Rests client .outside (state.giveBack client (gateWord setup client stage)) := by
  have within_ : Within setup state client := ⟨lives, by rw [rests.stage]; exact past⟩
  have gate : state.registrationGate = gateWord setup client stage := rests.stage ▸ kept.owned client within_
  have alone (other : K) (different : other ≠ client) : ¬ Within setup state other :=
    fun present => different (kept.unique _ _ present within_)
  have cleared : state.giveBack client (gateWord setup client stage) = {state with
      registrationGate := 0
      registrationGateProcessStart := state.registrationGateProcessStart}.setStage client .outside := by
    simp [State.giveBack, gate]
  rw [cleared]
  exact ⟨kept.advance alone (fun inside => absurd rfl inside) nofun,
    .gate rfl rfl (fun _ different => setStage_other _ _ different) (fun _ _ => rfl),
    ⟨setStage_stage _ _ _, rests.judged⟩⟩

/-- The first exchange on a clear gate. -/
theorem enter_keeps (stage : Stage) (kept : Kept setup state) (rests : Rests client .outside state)
    (clear : state.registrationGate = 0)
    (named : ∀ token, stage = .arming token → processId token = setup.pid (setup.clientProcess client)) :
    Kept setup ({state with registrationGate := gateWord setup client stage}.setStage client stage) ∧
      Guarantee (.client client) state
        ({state with registrationGate := gateWord setup client stage}.setStage client stage) ∧
      Rests client stage ({state with registrationGate := gateWord setup client stage}.setStage client stage) :=
  ⟨kept.advance (fun other _ => kept.nobody_of_clear clear other) (fun _ => rfl) named,
    .gate rfl rfl (fun _ different => setStage_other _ _ different) (fun _ _ => rfl),
    ⟨setStage_stage _ _ _, rests.judged⟩⟩

variable [DecidableEq P]

/-- The verdict on the owner may be wrong; the history says what the next exchange expects. -/
theorem checkOwner_safe {expected ownerStart : Nat} (rests : Rests client .outside state) :
    Safe (clientContract setup client) (fun taken => Rests client (if taken then .holding else .outside))
      ((checkOwner (m := m) setup client expected ownerStart).bind fun alive => if alive then pure false else
        (clearDeadOwner client expected).bind fun _ => pure false) state := by
  refine Safe.modifyGet_bind fun first between ready _ => ?_
  have rests := rests.stable between
  cases alive : first.isRegisteredProcessAlive setup (processId expected) ownerStart with
  | true => exact ⟨ready.keeps, .refl _ _, fun _ between _ => rests.stable between⟩
  | false =>
      have kept : Kept setup (first.setJudged client (some expected)) :=
        ⟨ready.keeps.owned, ready.keeps.unique, ready.keeps.named, ready.keeps.slots⟩
      refine ⟨kept, .gate rfl rfl (fun _ _ => rfl) (fun _ different => Function.update_of_ne different ..), ?_⟩
      refine Safe.store_bind fun second between ready action => ?_
      have outside : second.stage client = .outside := between.2.1.trans rests.stage
      have judged : second.judged client = some expected := between.2.2.1.trans (Function.update_self ..)
      have cleared : Rests client .outside ((if second.registrationGate = expected then
          {second with registrationGate := 0} else second).setJudged client none) := by
        refine ⟨?_, Function.update_self ..⟩
        split <;> exact outside
      refine ⟨?_, ?_, fun _ between _ => cleared.stable between⟩
      · split
        · rename_i same
          have nobody := ready.keeps.nobody fun process found lives =>
            action client rfl ⟨expected, judged, same, process, same ▸ found, lives⟩
          exact ready.keeps.clear nobody rfl rfl rfl
        · exact ⟨ready.keeps.owned, ready.keeps.unique, ready.keeps.named, ready.keeps.slots⟩
      · split <;> exact .gate rfl rfl (fun _ _ => rfl) (fun _ different => Function.update_of_ne different ..)

theorem acquireRegistrationGate_safe {spurious : Bool} (rests : Rests client .outside state) :
    Safe (clientContract setup client) (fun taken => Rests client (if taken then .holding else .outside))
      (acquireRegistrationGate (m := m) setup client spurious) state := by
  have law := lawful (m := m) setup (.client client)
  refine Safe.modifyGet_bind fun first between ready _ => ?_
  have rests := rests.stable between
  by_cases won : first.registrationGate = 0 ∧ ¬ spurious = true
  · simp only [won]
    obtain ⟨kept, guaranteed, rests⟩ := enter_keeps .preparing ready.keeps rests won.1 nofun
    refine ⟨kept, guaranteed, Safe.store_bind fun second between ready _ => ?_⟩
    have rests := rests.stable between
    have started : Rests client .preparing
        {second with registrationGateProcessStart := setup.startToken (setup.clientProcess client)} :=
      ⟨rests.stage, rests.judged⟩
    refine ⟨⟨ready.keeps.owned, ready.keeps.unique, ready.keeps.named, ready.keeps.slots⟩,
      .gate rfl rfl (fun _ _ => rfl) (fun _ _ => rfl), Safe.store_bind fun third between ready _ => ?_⟩
    have rests := started.stable between
    have within_ : Within setup third client := ⟨ready.may, by rw [rests.stage]; nofun⟩
    refine ⟨ready.keeps.advance (fun other different present => different (ready.keeps.unique _ _ present within_))
      (fun _ => rfl) nofun, .gate rfl rfl (fun _ different => setStage_other _ _ different) (fun _ _ => rfl), ?_⟩
    have held : Rests client .holding ({third with registrationGate := gateWord setup client .holding}.setStage client
        .holding) := ⟨setStage_stage _ _ _, rests.judged⟩
    exact fun _ between _ => held.stable between
  · simp only [won, if_false]
    refine ⟨ready.keeps, .refl _ _, ?_⟩
    by_cases early : phase first.registrationGate = kPreparing
    · simp only [early, if_true]
      exact checkOwner_safe rests
    · simp only [early, if_false]
      exact Safe.load_bind law fun second between _ => checkOwner_safe (rests.stable between)

end Gate

section Slots

variable {setup : Setup n P K} {client : K} {consumer : Fin m} {state before after : State n m P K}

/-- A client that holds the gate knows the words of a slot. -/
structure At (client : K) (consumer : Fin m) (slot : ConsumerSlot) (state : State n m P K) : Prop
    extends Rests client .holding state where
  slot : state.slot consumer = slot

theorem At.stable {slot : ConsumerSlot} (at_ : At client consumer slot before)
    (between : rely setup (.client client) before after) (lives : Lives setup after (.client client)) :
    At client consumer slot after :=
  ⟨at_.toRests.stable between, (congrFun (between.2.2.2 lives at_.stage) consumer).trans at_.slot⟩

theorem At.keeps {slot : ConsumerSlot} (at_ : At client consumer slot before) (plain : Plain before after) :
    At client consumer slot after := ⟨at_.toRests.keeps plain, (congrFun plain.slot consumer).trans at_.slot⟩

/-- The holder of the gate writes a slot. -/
theorem setSlot_keeps (consumer : Fin m) (change : ConsumerSlot → ConsumerSlot) (kept : Kept setup state) (rests : Rests client .holding state)
    (well : WellRecorded setup (change (state.slot consumer))) :
    Kept setup (state.setSlot consumer change) ∧ Guarantee (.client client) state (state.setSlot consumer change) ∧
      At client consumer (change (state.slot consumer)) (state.setSlot consumer change) := by
  refine ⟨⟨kept.owned, kept.unique, kept.named, fun other => ?_⟩, ⟨fun _ => id, fun _ _ => ⟨rfl, rfl⟩,
    .inr ⟨client, rfl, rests.stage⟩⟩, ⟨⟨rests.stage, rests.judged⟩, Function.update_self ..⟩⟩
  by_cases same : other = consumer
  · subst same
    simpa [State.setSlot] using well
  · simpa [State.setSlot, same] using kept.slots other

/-- A new phase of the same process. -/
theorem WellRecorded.rephase {slot : ConsumerSlot} (well : WellRecorded setup slot) {generation : Nat} {own : Nat}
    (small : own < 8) (occupied : own ≠ kFree) : WellRecorded setup
      {slot with state := makeToken generation (processId slot.state) own} := by
  refine ⟨?_, fun free => ?_⟩
  · rcases well.recorded with none_ | recorded
    · exact .inl none_
    · refine .inr ?_
      simpa [processId_makeToken _ _ small] using recorded
  · rw [phase_makeToken _ _ small] at free
    exact absurd free occupied

theorem WellRecorded.fresh {slot : ConsumerSlot} (none_ : slot.processStart = 0) : WellRecorded setup slot :=
  ⟨.inl none_, fun _ => none_⟩

variable [DecidableEq P] {α : Type} {Q : α → State n m P K → Prop}

theorem storeSlot_safe {slot : ConsumerSlot} {change : ConsumerSlot → ConsumerSlot}
    {rest : Unit → Prog (State n m P K) α} (at_ : At client consumer slot state)
    (well : WellRecorded setup (change slot))
    (continues : ∀ state, At client consumer (change slot) state → Safe (clientContract setup client) Q (rest ()) state) :
    Safe (clientContract setup client) Q ((storeSlot consumer change).bind rest) state := by
  refine Safe.store_bind fun current between ready _ => ?_
  have at_ := at_.stable between ready.may
  obtain ⟨kept, guaranteed, stored⟩ := setSlot_keeps consumer change ready.keeps at_.toRests
    (at_.slot ▸ well)
  exact ⟨kept, guaranteed, continues _ (at_.slot ▸ stored)⟩

/-- A store that ends a program. -/
theorem storeSlot_last {slot : ConsumerSlot} {change : ConsumerSlot → ConsumerSlot} (at_ : At client consumer slot state)
    (well : WellRecorded setup (change slot)) :
    Safe (clientContract setup client) (fun _ => At client consumer (change slot)) (storeSlot consumer change) state := by
  have stored : Safe (clientContract setup client) (fun _ => At client consumer (change slot))
      ((storeSlot consumer change).bind .ret) state :=
    storeSlot_safe at_ well fun _ stored => fun _ between ready => stored.stable between ready.may
  exact stored

theorem plain_at {slot : ConsumerSlot} {program : Prog (State n m P K) α} (each : Each Plain program)
    (at_ : At client consumer slot state) :
    Safe (clientContract setup client) (fun _ => At client consumer slot) program state :=
  plain_safe each (fun plain held => held.keeps plain) (fun between lives held => held.stable between lives) at_

theorem plain_rests {stage : Stage} {program : Prog (State n m P K) α} (each : Each Plain program)
    (rests : Rests client stage state) : Safe (clientContract setup client) (fun _ => Rests client stage) program state :=
  plain_safe each (fun plain held => held.keeps plain) (fun between _ held => held.stable between) rests

theorem exchangeState_safe {expected next : Nat} {rest : Bool → Prog (State n m P K) α}
    (rests : Rests client .holding state)
    (well : ∀ slot, WellRecorded setup slot → slot.state = expected → WellRecorded setup {slot with state := next})
    (moved : ∀ slot state, WellRecorded setup slot → slot.state = expected → At client consumer {slot with state := next} state →
      Safe (clientContract setup client) Q (rest true) state)
    (other : ∀ state, Rests client .holding state → Safe (clientContract setup client) Q (rest false) state) :
    Safe (clientContract setup client) Q ((exchangeState consumer expected next).bind rest) state := by
  refine Safe.modifyGet_bind fun current between ready _ => ?_
  have rests := rests.stable between
  have before := ready.keeps.slots consumer
  by_cases same : (current.slot consumer).state = expected
  · simp only [same, if_true, decide_true]
    obtain ⟨kept, guaranteed, stored⟩ := setSlot_keeps consumer
      (fun slot => {slot with state := next}) ready.keeps rests (well _ before same)
    exact ⟨kept, guaranteed, moved _ _ before same stored⟩
  · simp only [same, if_false, decide_false]
    exact ⟨ready.keeps, .refl _ _, other _ rests⟩

theorem resetSlot_safe {slot : ConsumerSlot} {generation : Nat} (at_ : At client consumer slot state)
    (well : WellRecorded setup slot) (occupied : phase slot.state ≠ kFree) :
    Safe (clientContract setup client)
      (fun _ => At client consumer ⟨makeToken generation 0 kFree, 0, .Reliable, 0⟩) (resetSlot consumer generation) state := by
  have law := lawful (m := m) setup (.client client)
  refine Safe.bind law (plain_at plain_clearConsumerCursors at_) fun _ first _ at_ => ?_
  refine storeSlot_safe at_ ⟨well.recorded, fun free => absurd free occupied⟩ fun second at_ => ?_
  refine storeSlot_safe at_ ⟨well.recorded, fun free => absurd free occupied⟩ fun third at_ => ?_
  refine storeSlot_safe at_ (.fresh rfl) fun fourth at_ => ?_
  exact storeSlot_last at_ (.fresh rfl)

/-- The slot that the reclamation offers is free. -/
theorem reclaimSlot_safe (rests : Rests client .holding state) :
    Safe (clientContract setup client) (fun free current => Rests client .holding current ∧
      ∀ observed, free = some observed → phase observed = kFree) (reclaimSlot setup consumer) state := by
  have law := lawful (m := m) setup (.client client)
  refine Safe.load_bind law fun first between _ => ?_
  have rests := rests.stable between
  split
  · rename_i free
    exact fun _ between _ => ⟨rests.stable between, fun observed same => Option.some.inj same ▸ free⟩
  refine Safe.load_bind law fun second between _ => ?_
  have rests := rests.stable between
  refine Safe.load_bind law fun third between _ => ?_
  have rests := rests.stable between
  split
  · exact fun _ between _ => ⟨rests.stable between, nofun⟩
  refine exchangeState_safe rests (fun slot well same => same ▸ well.rephase (by decide) (by decide))
    (fun slot fourth well same at_ => ?_) fun fourth rests => fun _ between _ => ⟨rests.stable between, nofun⟩
  refine Safe.bind law (plain_at plain_storeTicket at_) fun _ fifth _ at_ => ?_
  have occupied : phase (makeToken (generation (first.slot consumer).state) (processId (first.slot consumer).state)
      kReclaiming) ≠ kFree := by
    rw [phase_makeToken _ _ (by decide)]
    decide
  refine Safe.bind law (resetSlot_safe at_ (same ▸ well.rephase (by decide) (by decide)) occupied)
    fun _ sixth _ at_ => ?_
  refine Safe.load_bind law fun seventh between ready => ?_
  have at_ := at_.stable between ready.may
  refine fun _ between _ => ⟨at_.toRests.stable between, fun observed same => ?_⟩
  rw [← Option.some.inj same, at_.slot]
  exact phase_makeToken _ _ (by decide)

theorem initializeSlot_safe {policy : SubscriptionPolicy} {observed : Nat} (rests : Rests client .holding state)
    (free : phase observed = kFree) :
    Safe (clientContract setup client) (fun registration current => Rests client .holding current ∧
      Own setup client registration) (initializeSlot setup client policy consumer observed) state := by
  have law := lawful (m := m) setup (.client client)
  refine exchangeState_safe rests (fun slot well same => .fresh (well.free (same ▸ free)))
    (fun slot first well same at_ => ?_) fun first rests => fun _ between _ => ⟨rests.stable between, nofun⟩
  have none_ := well.free (same ▸ free)
  refine storeSlot_safe at_ (.fresh none_) fun second at_ => ?_
  refine storeSlot_safe at_ (.fresh none_) fun third at_ => ?_
  have started (own : Nat) (small : own < 8) (occupied : own ≠ kFree) : WellRecorded setup
      ⟨makeToken ((generation observed + 1) &&& kGenerationMask) (setup.pid (setup.clientProcess client)) own,
        setup.pid (setup.clientProcess client), policy, setup.startToken (setup.clientProcess client)⟩ := by
    refine ⟨.inr ⟨setup.clientProcess client, (processId_makeToken _ _ small).symm, rfl⟩, fun free => ?_⟩
    rw [phase_makeToken _ _ small] at free
    exact absurd free occupied
  refine storeSlot_safe at_ (started kInitializing (by decide) (by decide)) fun fourth at_ => ?_
  refine Safe.bind law (plain_at plain_storeTicket at_) fun _ fifth _ at_ => ?_
  have sequenced : Each (Plain (n := n) (m := m) (P := P) (K := K))
      (if setup.ordered then Prog.load State.globalSequence else pure 0) := by
    split
    · exact plain_load _
    · exact .ret _
  refine Safe.bind law (plain_at sequenced at_) fun orderedSequence sixth _ at_ => ?_
  refine Safe.bind law (plain_at (.forEach (fun _ => plain_snapshotCursor) _) at_) fun _ seventh _ at_ => ?_
  refine Safe.bind law (plain_at (.when plain_storeConsumerSequence) at_) fun _ eighth _ at_ => ?_
  refine storeSlot_safe at_ (started kActive (by decide) (by decide)) fun ninth at_ => ?_
  refine fun _ between _ => ⟨at_.toRests.stable between, fun other token same => ?_⟩
  simp only [Option.some.injEq, Prod.mk.injEq] at same
  rw [← same.2, processId_makeToken _ _ (by decide)]

theorem acquireSlotRound_safe {policy : SubscriptionPolicy} (rests : Rests client .holding state) :
    Safe (clientContract setup client)
      (fun result current => match result with
        | .inl _ => Rests client .holding current
        | .inr registration => Rests client .holding current ∧ Own setup client (some registration))
      (acquireSlotRound setup client policy () consumer) state := by
  have law := lawful (m := m) setup (.client client)
  refine Safe.bind law (reclaimSlot_safe rests) fun free first _ held => ?_
  cases free with
  | none => exact fun _ between _ => held.1.stable between
  | some observed =>
      refine Safe.bind law (initializeSlot_safe held.1 (held.2 observed rfl)) fun taken second _ held => ?_
      cases taken with
      | none => exact fun _ between _ => held.1.stable between
      | some registration => exact fun _ between _ => ⟨held.1.stable between, held.2⟩

theorem acquireConsumer_safe {policy : SubscriptionPolicy} (rests : Rests client .holding state) :
    Safe (clientContract setup client) (fun registration current => Rests client .holding current ∧
      Own setup client registration) (acquireConsumer (m := m) setup client policy) state := by
  have law := lawful (m := m) setup (.client client)
  refine Safe.bind law (Safe.foldUntil law (I := fun _ _ => Rests client .holding)
    (S := fun registration current => Rests client .holding current ∧ Own setup client (some registration))
    (fun between _ held => held.stable between) (fun consumer rest _ current held => ?_)
    (fun between _ held => ⟨held.1.stable between, held.2⟩) rests) fun searched first _ held => ?_
  · refine (acquireSlotRound_safe held).weaken fun result _ _ held => ?_
    cases result <;> exact held
  cases searched with
  | inl _ => exact fun _ between _ => ⟨Rests.stable held between, nofun⟩
  | inr registration => exact fun _ between _ => ⟨held.1.stable between, held.2⟩

theorem releaseConsumer_safe {token : Nat} (rests : Rests client .holding state) :
    Safe (clientContract setup client) (fun _ => Rests client .holding) (releaseConsumer consumer token) state := by
  have law := lawful (m := m) setup (.client client)
  refine exchangeState_safe rests (fun slot well same => same ▸ well.rephase (by decide) (by decide))
    (fun slot first well same at_ => ?_) fun first rests => fun _ between _ => rests.stable between
  have removed : Each (Plain (n := n) (m := m) (P := P) (K := K)) (Prog.store fun state =>
      if state.ticket consumer = token then state.setTicket consumer 0 else state) :=
    .store fun _ => .ite fun _ => ⟨rfl, rfl, rfl, rfl, rfl⟩
  refine Safe.bind law (plain_at removed at_) fun _ second _ at_ => ?_
  have occupied : phase (makeToken (generation token) (processId token) kReleasing) ≠ kFree := by
    rw [phase_makeToken _ _ (by decide)]
    decide
  exact (resetSlot_safe at_ (same ▸ well.rephase (by decide) (by decide)) occupied).weaken
    fun _ _ _ at_ => at_.toRests

end Slots

section Passes

variable {setup : Setup n P K} {client : K} {state : State n m P K}

theorem plain_claimEnded {producer : Fin n} : Each (Plain (m := m)) (claimEnded setup producer) := by
  refine .bind (plain_load _) fun active => ?_
  split
  · exact .ret _
  · refine .bind (plain_load _) fun alive => ?_
    split
    · exact .ret _
    · exact .bind (.store fun state => plain_setRing state producer _) fun _ => .ret _

theorem plain_hasConsumer {consumer : Fin m} {token : Nat} :
    Each (Plain (n := n) (P := P) (K := K)) (hasConsumer consumer token) := plain_load _

theorem plain_claimRound {producer : Fin n} : Each (Plain (m := m) (P := P) (K := K)) (claimRound () producer) :=
  .bind (plain_load _) fun _ => .ret _

variable [DecidableEq P]

/-- An exit of a process takes clients and producers out of the run. -/
theorem crash_keeps (process : P) (kept : Kept setup state) :
    Kept setup {state with alive := Function.update state.alive process false} ∧
      Guarantee .environment state {state with alive := Function.update state.alive process false} := by
  have shrinks (other : P) (lives : Function.update state.alive process false other = true) :
      state.alive other = true := by
    by_cases same : other = process
    · subst same
      simp at lives
    · rwa [Function.update_of_ne same] at lives
  have inside (client : K) (within_ : Within setup {state with alive := Function.update state.alive process false} client) :
      Within setup state client := ⟨shrinks _ within_.1, within_.2⟩
  exact ⟨⟨fun client within_ => kept.owned client (inside client within_),
    fun first second one two => kept.unique first second (inside first one) (inside second two), kept.named, kept.slots⟩,
    shrinks, fun _ _ => ⟨rfl, rfl⟩, .inl rfl⟩

theorem begun (setup : Setup n P K) : (discipline (m := m) setup).Initial initial := by
  refine ⟨⟨fun _ within_ => absurd rfl within_.2, fun _ _ within_ => absurd rfl within_.2, nofun,
    fun _ => .fresh rfl⟩, fun thread => ?_⟩
  match thread with
  | .client client => exact fun _ between _ => ⟨⟨between.2.1, between.2.2.1⟩, nofun⟩
  | .producer _ => exact fun _ _ _ => trivial
  | .environment => exact fun _ _ _ => trivial

theorem runTask_safe {task : Task m} (rests : Rests client .holding state) :
    Safe (clientContract setup client) (fun registration current => Rests client .holding current ∧
      Own setup client registration) (runTask setup client task) state := by
  have law := lawful (m := m) setup (.client client)
  cases task with
  | acquire policy => exact acquireConsumer_safe rests
  | release consumer token =>
      refine Safe.bind law (releaseConsumer_safe rests) fun _ current _ rests => ?_
      exact fun _ between _ => ⟨Rests.stable rests between, nofun⟩

variable [DecidableEq K]

theorem waitPass_safe {task : Task m} {rest : List (Fin n)} (rests : Rests client .holding state) :
    Safe (clientContract setup client) ((discipline setup).label (.client client)) (waitPass setup client task rest)
      state := by
  have law := lawful (m := m) setup (.client client)
  cases rest with
  | cons producer rest =>
      refine Safe.bind law (plain_rests plain_claimEnded rests) fun _ current _ rests => ?_
      exact fun _ between _ => Rests.stable rests between
  | nil =>
      refine Safe.bind law (runTask_safe rests) fun registration first _ held => ?_
      refine Safe.store_bind fun second between ready _ => ?_
      obtain ⟨kept, guaranteed, rests⟩ := giveBack_keeps ready.keeps ready.may (held.1.stable between) nofun
      exact ⟨kept, guaranteed, fun _ between _ => ⟨rests.stable between, held.2⟩⟩

theorem tryActivate_safe {token : Nat} (rests : Rests client .outside state)
    (own : processId token = setup.pid (setup.clientProcess client)) :
    Safe (clientContract setup client) (fun _ => Rests client .outside) (tryActivate (m := m) setup client token) state := by
  have law := lawful (m := m) setup (.client client)
  refine Safe.modifyGet_bind fun first between ready _ => ?_
  have rests := rests.stable between
  by_cases clear : first.registrationGate = 0
  · simp only [clear, if_true]
    obtain ⟨kept, guaranteed, rests⟩ := enter_keeps (.arming token) ready.keeps rests clear
      (fun _ same => by cases same; exact own)
    refine ⟨kept, guaranteed, ?_⟩
    have activated (fits : Prop) [Decidable fits] : Each (Plain (n := n) (m := m) (P := P) (K := K))
        (Prog.when fits (.store fun state => {state with notificationsActive := true})) :=
      .when (.store fun _ => ⟨rfl, rfl, rfl, rfl, rfl⟩)
    refine Safe.bind law (plain_rests (.foldUntil (fun _ _ => plain_claimRound) _ _) rests) fun checked second _ rests => ?_
    refine Safe.bind law (plain_rests (activated _) rests) fun _ third _ rests => ?_
    refine Safe.store_bind fun fourth between ready _ => ?_
    obtain ⟨kept, guaranteed, rests⟩ := giveBack_keeps ready.keeps ready.may (Rests.stable rests between) nofun
    refine ⟨kept, guaranteed, ?_⟩
    split
    · exact plain_rests (plain_load _) rests
    · exact fun _ between _ => rests.stable between
  · simp only [clear, if_false]
    exact ⟨ready.keeps, .refl _ _, fun _ between _ => rests.stable between⟩

theorem tryArmWaitNotification_safe {consumer : Fin m} {token : Nat} (rests : Rests client .outside state)
    (own : processId token = setup.pid (setup.clientProcess client)) :
    Safe (clientContract setup client) (fun _ => Rests client .outside)
      (tryArmWaitNotification setup client consumer token) state := by
  have law := lawful (m := m) setup (.client client)
  refine Safe.bind law (plain_rests plain_hasConsumer rests) fun registered first _ rests => ?_
  split
  · exact fun _ between _ => Rests.stable rests between
  refine Safe.load_bind law fun second between _ => ?_
  have rests := Rests.stable rests between
  have activates : Safe (clientContract setup client) (fun _ => Rests client .outside)
      (if second.notificationsActive then pure true else tryActivate setup client token) second := by
    split
    · exact fun _ between _ => rests.stable between
    · exact tryActivate_safe rests own
  refine Safe.bind law activates fun ready third _ rests => ?_
  split
  · exact fun _ between _ => Rests.stable rests between
  refine plain_rests (.bind plain_hasConsumer fun registered => ?_) rests
  split
  · exact .ret _
  refine .bind (.modifyGet (fun _ => .ite fun _ => ⟨rfl, rfl, rfl, rfl, rfl⟩) _) fun armed => ?_
  split
  · exact .ret _
  refine .bind plain_hasConsumer fun registered => ?_
  split
  · exact .ret _
  · exact .bind (.store fun _ => .ite fun _ => ⟨rfl, rfl, rfl, rfl, rfl⟩) fun _ => .ret _

theorem startClient_safe {label : Label n m} {request : Request n P} {program : Prog (State n m P K) (Label n m)}
    (begins : startClient setup client label request = some program)
    (holds : (discipline setup).label (.client client) label state) :
    Safe (clientContract setup client) ((discipline setup).label (.client client)) program state := by
  have law := lawful (m := m) setup (.client client)
  match label, request, begins, holds with
  | .resting none, .acquire policy, rfl, holds => exact fun _ between _ => holds.1.stable between
  | .resting (some (consumer, token)), .release, rfl, holds =>
      refine fun _ between _ => ?_
      split
      · exact holds.1.stable between
      · exact ⟨holds.1.stable between, nofun⟩
  | .resting (some (consumer, token)), .arm, rfl, holds =>
      refine Safe.bind law (tryArmWaitNotification_safe holds.1 (holds.2 _ _ rfl)) fun _ current _ rests => ?_
      exact fun _ between _ => ⟨Rests.stable rests between, holds.2⟩
  | .contending task, .proceed spurious, rfl, holds =>
      refine Safe.bind law (acquireRegistrationGate_safe holds) fun taken current _ rests => ?_
      refine fun _ between _ => ?_
      cases taken <;> exact Rests.stable rests between
  | .waiting task rest, .proceed _, rfl, holds => exact waitPass_safe holds

theorem sound (setup : Setup n P K) :
    (discipline setup).Sound (system (m := m) setup) (fun _ _ _ _ => True) where
  lawful := lawful setup
  compatible different ready _ step := compatible different ready step
  start {thread label request program state} begins _ _ _ holds := by
    match thread, label, request, begins, holds with
    | .client client, label, request, begins, holds => exact startClient_safe begins holds
    | .producer producer, .producer, .claim position sequence messageSequence, rfl, _ =>
        have ended : Safe ((discipline setup).contract (.producer producer)) (fun _ _ => True)
            ((claim setup producer position sequence messageSequence).bind fun _ => .ret (.producer : Label n m)) state :=
          plain_safe (.bind plain_claim fun _ => .ret _) (fun _ _ => trivial) (fun _ _ _ => trivial) trivial
        exact ended.weaken fun _ _ _ _ => trivial
    | .environment, .environment, .crash process, rfl, _ =>
        refine Safe.store_bind fun current _ ready _ => ?_
        obtain ⟨kept, guaranteed⟩ := crash_keeps process ready.keeps
        exact ⟨kept, guaranteed, fun _ _ _ => trivial⟩

/-- In these runs exited processes never act. -/
def Acts (setup : Setup n P K) (config : Config (State n m P K) (Thread n K) (Label n m))
    (event : Event (Thread n K) (Request n P)) : Prop :=
  ∀ thread, event = .act thread → Lives setup config.shared thread

/-- In these runs, besides, nobody clears the gate of a live owner. -/
def Spares (setup : Setup n P K) (config : Config (State n m P K) (Thread n K) (Label n m))
    (event : Event (Thread n K) (Request n P)) : Prop :=
  Acts setup config event ∧ ∀ client, event = .act (.client client) → ¬ TakesLiveGate setup config.shared client

instance (setup : Setup n P K) (config : Config (State n m P K) (Thread n K) (Label n m))
    (event : Event (Thread n K) (Request n P)) : Decidable (Acts setup config event) :=
  match event with
  | .start .. => .isTrue nofun
  | .act thread => decidable_of_iff (Lives setup config.shared thread) (by simp [Acts])

instance (setup : Setup n P K) (config : Config (State n m P K) (Thread n K) (Label n m))
    (event : Event (Thread n K) (Request n P)) : Decidable (Spares setup config event) :=
  match event with
  | .act (.client client) => decidable_of_iff (Acts setup config (.act (.client client)) ∧
      ¬ TakesLiveGate setup config.shared client) (by simp [Spares])
  | .act (.producer producer) => decidable_of_iff (Acts setup config (.act (.producer producer))) (by simp [Spares])
  | .act .environment => decidable_of_iff (Acts setup config (.act .environment)) (by simp [Spares])
  | .start thread request => decidable_of_iff (Acts setup config (.start thread request)) (by simp [Spares])

theorem knows (setup : Setup n P K) : (discipline (m := m) setup).Knows (system setup) (fun _ _ _ _ => True)
    (Spares setup) initial where
  respects {_ event} admitted := by
    cases event with
    | start thread request => exact fun _ _ => trivial
    | act thread => exact admitted.1 thread rfl
  known _ := trivial
  action _ admitted _ client same := admitted.2 client (same ▸ rfl)
  rests _ _ _ := trivial

/-- The gate and the slots are sound in every state of these runs. -/
theorem kept_of_run {config : Config (State n m P K) (Thread n K) (Label n m)}
    (run : (system setup).Run (Spares setup) initial config) : Kept setup config.shared :=
  ((sound setup).run (begun setup) (knows setup) run).1

/-- A client of a live process that rests without a registration is outside of the gate. -/
theorem outside_of_run {config : Config (State n m P K) (Thread n K) (Label n m)}
    (run : (system setup).Run (Spares setup) initial config) {client : K}
    (lives : config.shared.alive (setup.clientProcess client) = true) {registration : Option (Fin m × Nat)}
    (rests : config.thread (.client client) = .ret (.resting registration)) : Rests client .outside config.shared := by
  have may : (discipline (m := m) setup).may (.client client) config.shared := lives
  exact ((sound setup).label (begun setup) (knows setup) run may rests).1

end Passes

end Salias.CrashRecovery
