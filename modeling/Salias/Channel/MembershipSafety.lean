import Salias.Channel.SubscribingSafety
import Salias.Concurrent.Outcome

/-
Every run of the channel keeps the membership, and every action stays inside the rights of its thread.
-/

namespace Salias.SharedHybridMpsc

open Concurrent Salias.Frame ConsumerRegistration

variable {n m : Nat} {K : Type} [DecidableEq K] {setup : Setup n m K}

namespace Membership

section Labels

variable {client : K} {state : State n m K}

omit [DecidableEq K] in
theorem atLabel_stable {label : Label n m} {before after : State n m K} (holds : AtLabel client label before)
    (rely : RxRely client before after) : AtLabel client label after where
  registration := by
    rw [rely.same]
    exact holds.registration
  waiting task remaining same := by
    obtain ⟨owner, passed⟩ := holds.waiting task remaining same
    exact ⟨(rely.gate owner).gate, fun producer absent => ((rely.gate owner).claims producer (passed producer absent)).1⟩

/-- A label outside of the gate asks for the registration only. -/
theorem rests {label : Label n m} (plain : ∀ task remaining, label ≠ .waiting task remaining)
    (holds : (state.client client).registration = label.registration) :
    Safe (rxContract setup client) (AtLabel client) (.ret label) state :=
  fun _ rely _ => atLabel_stable ⟨holds, fun task remaining same => absurd same (plain task remaining)⟩ rely

/-- A program of a receiver ends at a label of the same registration. -/
theorem receiver_done {consumer : Fin m} {token : Nat} {α : Type} {program : Prog (State n m K) α}
    {label : α → Label n m} (each : Each (RxKeeps client consumer) program)
    (kept : ∀ value, (label value).registration = some (consumer, token))
    (plain : ∀ value task remaining, label value ≠ .waiting task remaining)
    (entry : Registered client consumer token state) :
    Safe (rxContract setup client) (AtLabel client) (program.bind fun value => .ret (label value)) state :=
  Safe.bind (rxLawful setup client) (rx_keeps_safe each entry) fun value _ _ registered =>
    rests (plain value) (Eq.trans registered (kept value).symm)

/-- A client that asks for the gate waits, or stays at its label. -/
theorem gate_safe {label : Label n m} (task : Task m)
    (same : (Label.waiting task (List.finRange n) : Label n m).registration = label.registration)
    (entry : AtLabel client label state) :
    Safe (rxContract setup client) (AtLabel client) (do
      let acquired ← acquireRegistrationGate setup client
      pure (if acquired then .waiting task (List.finRange n) else label)) state := by
  refine Safe.modifyGet_bind fun current rely ready _ => ?_
  have held := atLabel_stable entry rely
  by_cases free : current.gateFree setup = true
  · simp only [free, if_true]
    obtain ⟨kept, step⟩ := acquireGate_keeps client ready.keeps free
    have waits : AtLabel client (.waiting task (List.finRange n)) {current with registrationGate := some client} := by
      refine ⟨held.registration.trans same.symm, fun _ remaining equal => ?_⟩
      cases equal
      exact ⟨rfl, fun producer absent => absurd (List.mem_finRange producer) absent⟩
    exact ⟨kept, step, fun last rely _ => atLabel_stable waits rely⟩
  · simp only [free]
    exact ⟨ready.keeps, .refl setup client current, fun last rely _ => atLabel_stable held rely⟩

omit [DecidableEq K] in
theorem waiting_registration (task : Task m) (first second : List (Fin n)) :
    (Label.waiting task first : Label n m).registration = (Label.waiting task second : Label n m).registration := by
  cases task <;> rfl

theorem wait_safe (task : Task m) (producer : Fin n) (rest : List (Fin n))
    (entry : AtLabel client (.waiting task (producer :: rest)) state) :
    Safe (rxContract setup client) (AtLabel client) (do
      let ended ← claimEnded producer
      pure (.waiting task (if ended then rest else producer :: rest))) state := by
  refine Safe.load_bind (rxLawful setup client) fun current rely _ => ?_
  have held := atLabel_stable entry rely
  obtain ⟨owner, passed⟩ := held.waiting task (producer :: rest) rfl
  refine fun last rely _ => atLabel_stable ⟨held.registration.trans (waiting_registration task _ _),
    fun _ remaining same => ?_⟩ rely
  cases same
  refine ⟨owner, fun other absent => ?_⟩
  split at absent
  · rename_i ended
    by_cases same : other = producer
    · subst same
      simpa using ended
    · exact passed other (by simp [same, absent])
  · exact passed other absent

theorem runTask_safe (task : Task m) (entry : AtLabel client (.waiting task []) state) :
    Safe (rxContract setup client) (AtLabel client) (runTask setup client task : Prog (State n m K) _) state := by
  obtain ⟨owner, passed⟩ := entry.waiting task [] rfl
  have registering : Registering client state := ⟨owner, fun producer => passed producer (by simp)⟩
  cases task with
  | subscribe policy =>
      refine Safe.bind (rxLawful setup client) (acquireConsumer_safe policy ⟨registering, entry.registration⟩)
        fun taken current _ held => ?_
      cases taken with
      | none =>
          exact Safe.bind (rxLawful setup client) (releaseGate_unregistered held.unregistered) fun _ _ _ free =>
            rests nofun free
      | some registration =>
          refine Safe.bind (rxLawful setup client) (releaseGate_begun held) fun _ _ _ begun => ?_
          exact receiver_done (keeps_createRx setup client _ _) (fun _ => rfl) (fun _ _ _ => nofun) begun.registered
  | unsubscribe consumer token =>
      exact Safe.bind (rxLawful setup client) (releaseConsumer_safe registering entry.registration)
        fun _ _ _ free => Safe.bind (rxLawful setup client) (releaseGate_unregistered free) fun _ _ _ free =>
          rests nofun free

theorem received_registration (consumer : Fin m) (token : Nat) (received : Received n) :
    (received.label consumer token).registration = some (consumer, token) ∧
      ∀ task remaining, received.label consumer token ≠ .waiting task remaining := by
  cases received <;> exact ⟨rfl, nofun⟩

theorem runReceived_registration (consumer : Fin m) (token cap : Nat) (received : RunReceived n) :
    (received.label consumer token cap).registration = some (consumer, token) ∧
      ∀ task remaining, received.label consumer token cap ≠ .waiting task remaining := by
  cases received <;> exact ⟨rfl, nofun⟩

/-- A receiver stays inside its slot. -/
theorem receiver_keeps {consumer : Fin m} {token : Nat} {request : Request n}
    {program : Prog (State n m K) (Label n m)}
    (begins : startReceiver setup client consumer token request = some program) :
    Each (RxKeeps client consumer) program := by
  cases request with
  | tryRecv fixed =>
      cases begins
      exact .bind (keeps_beginReceive client consumer token fixed false) fun _ => .ret _
  | tryRecvChecked fixed =>
      cases begins
      exact .bind (keeps_beginReceiveChecked setup client consumer token fixed) fun _ => .ret _
  | tryRecvRun cap =>
      cases begins
      split
      · exact .bind (keeps_reads client consumer (reads_hasConsumer consumer token)) fun _ => .ret _
      · exact .bind (keeps_tryRecvRun setup client consumer token cap) fun _ => .ret _
  | release message =>
      cases begins
      exact .bind (keeps_release setup client consumer token message) fun _ => .ret _
  | consume message =>
      cases begins
      exact .bind (keeps_consume setup client consumer token message) fun _ => .ret _
  | flush =>
      cases begins
      exact .bind (keeps_flushBatch setup client consumer token) fun _ => .ret _
  | skipToLatest producer fixed =>
      cases begins
      exact .bind (keeps_skipToLatest setup client consumer token producer fixed) fun _ => .ret _
  | unsubscribe =>
      cases begins
      exact .bind (keeps_destroyRx setup client consumer token) fun _ => .ret _
  | _ => cases begins

/-- A receiver ends at a label of the same registration. -/
theorem receiver_ends {consumer : Fin m} {token : Nat} {request : Request n}
    {program : Prog (State n m K) (Label n m)}
    (begins : startReceiver setup client consumer token request = some program) :
    Ends (fun label : Label n m => label.registration = some (consumer, token) ∧
      ∀ task remaining, label ≠ .waiting task remaining) program := by
  cases request with
  | tryRecv fixed =>
      cases begins
      exact .bind fun received => received_registration consumer token received
  | tryRecvChecked fixed =>
      cases begins
      exact .bind fun received => received_registration consumer token received
  | tryRecvRun cap =>
      cases begins
      split
      · refine .bind fun _ => ?_
        split <;> exact ⟨rfl, nofun⟩
      · exact .bind fun _ => ⟨rfl, nofun⟩
  | release message =>
      cases begins
      exact .bind fun _ => ⟨rfl, nofun⟩
  | consume message =>
      cases begins
      exact .bind fun _ => ⟨rfl, nofun⟩
  | flush =>
      cases begins
      exact .bind fun _ => ⟨rfl, nofun⟩
  | skipToLatest producer fixed =>
      cases begins
      exact .bind fun _ => ⟨rfl, nofun⟩
  | unsubscribe =>
      cases begins
      exact .bind fun _ => ⟨rfl, nofun⟩
  | _ => cases begins

theorem receiver_safe {consumer : Fin m} {token : Nat} {request : Request n}
    {program : Prog (State n m K) (Label n m)}
    (begins : startReceiver setup client consumer token request = some program)
    (entry : Registered client consumer token state) :
    Safe (rxContract setup client) (AtLabel client) program state :=
  Safe.weaken ((rx_keeps_safe (receiver_keeps begins) entry).ends (receiver_ends begins))
    fun _ _ _ ⟨registered, same, plain⟩ =>
      ⟨Eq.trans registered same.symm, fun task remaining equal => absurd equal (plain task remaining)⟩

theorem client_safe {label : Label n m} {request : Request n} {program : Prog (State n m K) (Label n m)}
    (begins : startClient setup client label request = some program) (entry : AtLabel client label state) :
    Safe (rxContract setup client) (AtLabel client) program state := by
  match label, request, begins with
  | .unsubscribed, .subscribe policy, begins =>
      cases begins
      exact gate_safe (.subscribe policy) rfl entry
  | .closing consumer token, .proceed, begins =>
      cases begins
      exact gate_safe (.unsubscribe consumer token) rfl entry
  | .waiting task (producer :: rest), .proceed, begins =>
      cases begins
      exact wait_safe task producer rest entry
  | .waiting task [], .proceed, begins =>
      cases begins
      exact runTask_safe task entry
  | .receiver consumer token last, request, begins => exact receiver_safe begins entry.registration
  | .receiving consumer token receiving, .proceed, begins =>
      cases begins
      refine receiver_done ?_ (fun value => (received_registration consumer token value).1)
        (fun value => (received_registration consumer token value).2) entry.registration
      split
      · exact keeps_receiveLatestPass setup client consumer token receiving
      · exact keeps_receivePass setup client consumer token receiving
  | .collecting consumer token cap now, .proceed, begins =>
      cases begins
      exact receiver_done (keeps_runLatestPass setup client consumer token cap now)
        (fun value => (runReceived_registration consumer token cap value).1)
        (fun value => (runReceived_registration consumer token cap value).2) entry.registration

end Labels

omit [DecidableEq K] in
/-- The exit of a process and the passage of time keep the membership. -/
theorem environment_keeps {before after : State n m K} (membership : Membership setup before)
    (step : EnvironmentStep before after) : Membership setup after := by
  have lives (client : K) (later : after.lives setup client) : before.lives setup client :=
    step.outlives.registered later
  rw [step.same] at lives ⊢
  refine ⟨fun consumer active => ?_, fun client consumer token later registered => ?_,
    fun first second consumer one two firstLives secondLives =>
      membership.exclusive first second consumer one two (lives first firstLives) (lives second secondLives),
    membership.exact, membership.settled, fun ordered => (membership.numbered ordered).congr (fun _ => rfl) rfl⟩
  · obtain ⟨owner, owns⟩ := membership.owner consumer active
    exact ⟨owner, owns.registration, owns.processId, owns.pid, owns.processStart⟩
  · obtain ⟨active, owns, generations⟩ :=
      membership.registered client consumer token (lives client later) registered
    exact ⟨active, ⟨owns.registration, owns.processId, owns.pid, owns.processStart⟩, generations⟩

theorem environment_safe {request : Request n} {program : Prog (State n m K) (Label n m)} {state : State n m K}
    (begins : startEnvironment request = some program) :
    Safe ((discipline setup).contract .environment) ((discipline setup).label .environment) program state := by
  have acts {update : State n m K → State n m K} (step : ∀ state, EnvironmentStep state (update state)) :
      Safe ((discipline setup).contract .environment) ((discipline setup).label .environment)
        ((Prog.store update).bind fun _ => .ret .environment) state :=
    Safe.store_bind fun current _ ready _ =>
      ⟨environment_keeps ready.keeps (step current), step current, fun _ _ _ => trivial⟩
  cases request with
  | crash pid start =>
      cases begins
      refine acts fun state => ⟨rfl, fun other token => ?_, le_rfl⟩
      simp only [Bool.and_eq_true]
      exact And.left
  | tick now =>
      cases begins
      exact acts fun state => ⟨rfl, .refl state, le_max_left _ _⟩
  | _ => cases begins

theorem sound (setup : Setup n m K) : (discipline setup).Sound (system setup) fun _ _ _ _ => True where
  lawful := lawful setup
  compatible := compatible
  start {thread label request program state} begins _ _ _ holds := by
    match thread, label, begins with
    | .producer producer, .transmitter last, begins => exact transmitter_safe begins holds
    | .client client, label, begins => exact client_safe begins holds
    | .environment, .environment, begins => exact environment_safe begins

omit [DecidableEq K] in
/-- The empty channel has no frames and no owners. -/
theorem initial_keeps (setup : Setup n m K) : Membership setup ({} : State n m K) where
  owner _ active := absurd (show phase 0 = kActive from active) (by decide)
  registered client consumer token _ registered := by simp at registered
  exclusive _ _ _ _ _ _ _ registered := by simp at registered
  exact producer := ⟨rfl, rfl, nofun, nofun, fun _ => ⟨rfl, rfl⟩, nofun⟩
  settled producer _ := ⟨rfl, rfl, fun _ => rfl⟩
  numbered _ := ⟨nofun, fun _ => .nil, nofun, nofun⟩

theorem begun (setup : Setup n m K) : (discipline setup).Initial initial := by
  refine ⟨initial_keeps setup, fun thread => ?_⟩
  cases thread with
  | producer producer => exact fun current rely _ => owned_claimActive rely.owned
  | client client => exact rests nofun rfl
  | environment => exact fun _ _ _ => trivial

/-- A process that has exited takes no step. -/
def Acts (setup : Setup n m K) (config : Concurrent.Config (State n m K) (Thread n K) (Label n m)) :
    Event (Thread n K) (Request n) → Prop
  | .act (.client client) => config.shared.lives setup client
  | _ => True

variable {admits : Concurrent.Config (State n m K) (Thread n K) (Label n m) → Event (Thread n K) (Request n) → Prop}

/-- Every run of living processes respects the discipline. -/
theorem knows (acts : ∀ {config event}, admits config event → Acts setup config event) :
    (discipline setup).Knows (system setup) (fun _ _ _ _ => True) admits initial where
  respects {config event} admitted := by
    match event, acts admitted with
    | .start _ _, _ => exact fun _ _ => trivial
    | .act (.producer _), _ => exact trivial
    | .act (.client _), lives => exact lives
    | .act .environment, _ => exact trivial
  known _ := trivial
  action _ _ _ := trivial
  rests _ _ _ := trivial

/-- Every state of a run keeps the membership. -/
theorem of_run (acts : ∀ {config event}, admits config event → Acts setup config event)
    {config : Concurrent.Config (State n m K) (Thread n K) (Label n m)}
    (run : (system setup).Run admits initial config) : Membership setup config.shared :=
  ((sound setup).run (begun setup) (knows acts) run).1

/-- Every action of a run stays inside the rights of its thread. -/
theorem step_of_run (acts : ∀ {config event}, admits config event → Acts setup config event)
    {before after : Concurrent.Config (State n m K) (Thread n K) (Label n m)} {thread : Thread n K}
    (run : (system setup).Run admits initial before) (admitted : admits before (.act thread))
    (taken : (system setup).step before (.act thread) = some after) :
    (discipline setup).guarantee thread before.shared after.shared :=
  (sound setup).guarantee (begun setup) (knows acts) run admitted taken

/-- Every resting thread of a run is at its label. -/
theorem label_of_run (acts : ∀ {config event}, admits config event → Acts setup config event)
    {config : Concurrent.Config (State n m K) (Thread n K) (Label n m)} {thread : Thread n K} {label : Label n m}
    (run : (system setup).Run admits initial config) (may : (discipline setup).may thread config.shared)
    (rests : config.thread thread = .ret label) : (discipline setup).label thread label config.shared :=
  (sound setup).label (begun setup) (knows acts) run may rests

/-- The steps of the other threads leave a producer its rights. -/
theorem txRely_of_run (acts : ∀ {config event}, admits config event → Acts setup config event)
    {before after : Concurrent.Config (State n m K) (Thread n K) (Label n m)} {producer : Fin n}
    {event : Event (Thread n K) (Request n)} (run : (system setup).Run admits initial before)
    (apart : event.thread ≠ .producer producer) (admitted : admits before event)
    (taken : (system setup).step before event = some after) : TxRely producer before.shared after.shared := by
  cases event with
  | start thread request =>
      obtain ⟨-, -, -, -, same, -⟩ := Concurrent.System.step_start taken
      rw [same]
      exact .refl producer _
  | act thread =>
      have knows : (discipline setup).Knows (system setup) (fun _ _ _ _ => True) admits initial := knows acts
      have ready : ((discipline setup).contract thread).Ready before.shared :=
        ⟨of_run acts run, trivial, knows.respects admitted⟩
      have later : ((discipline setup).contract (.producer producer)).Ready after.shared :=
        ⟨of_run acts (.step _ run admitted taken), trivial, trivial⟩
      have leaves : (discipline setup).rely (.producer producer) before.shared after.shared :=
        compatible apart ready later (step_of_run acts run admitted taken)
      exact leaves

section Extend

/-- Another invariant rests on the membership: every action stays inside the rights of its thread. -/
def extend (setup : Setup n m K) (invariant : State n m K → Prop) :
    Discipline (State n m K) (Thread n K) (Label n m) where
  invariant := invariant
  known := Membership setup
  action thread before after := (discipline setup).guarantee thread before after ∧ Membership setup after
  rests := (discipline setup).label
  may := (discipline setup).may
  rely := (discipline setup).rely
  guarantee := (discipline setup).guarantee
  label _ _ _ := True

variable {invariant : State n m K → Prop}

theorem extend_lawful (thread : Thread n K) : ((extend setup invariant).contract thread).Lawful where
  refl := (lawful setup thread).refl
  trans := (lawful setup thread).trans
  idle := (lawful setup thread).idle
  stays := (lawful setup thread).stays

theorem extend_compatible {actor observer : Thread n K} {before after : State n m K} (different : actor ≠ observer)
    (ready : ((extend setup invariant).contract actor).Ready before)
    (later : ((extend setup invariant).contract observer).Ready after)
    (guaranteed : (extend setup invariant).guarantee actor before after) :
    (extend setup invariant).rely observer before after :=
  compatible different ⟨ready.knows, trivial, ready.may⟩ ⟨later.knows, trivial, later.may⟩ guaranteed

theorem extend_knows {mayStart : State n m K → Thread n K → Label n m → Request n → Prop}
    (acts : ∀ {config event}, admits config event → Acts setup config event)
    (starts : ∀ {config thread request label}, admits config (.start thread request) →
      config.thread thread = .ret label → mayStart config.shared thread label request) :
    (extend setup invariant).Knows (system setup) mayStart admits initial where
  respects {config event} admitted := by
    match event, admitted with
    | .start _ _, admitted => exact fun _ shape => starts admitted shape
    | .act thread, admitted =>
        have knows : (discipline setup).Knows (system setup) (fun _ _ _ _ => True) admits initial := knows acts
        exact knows.respects admitted
  known run := of_run acts run
  action run admitted taken :=
    ⟨step_of_run acts run admitted taken, of_run acts (.step _ run admitted taken)⟩
  rests run may rests := label_of_run acts run may rests

/-- The same with further knowledge of the states and of the actions. -/
def layer (setup : Setup n m K) (known : State n m K → Prop) (action : Thread n K → State n m K → State n m K → Prop)
    (invariant : State n m K → Prop) : Discipline (State n m K) (Thread n K) (Label n m) :=
  {extend setup invariant with
    known := fun state => Membership setup state ∧ known state
    action := fun thread before after => ((discipline setup).guarantee thread before after ∧ Membership setup after) ∧
      action thread before after}

variable {known : State n m K → Prop} {action : Thread n K → State n m K → State n m K → Prop}

theorem layer_lawful (thread : Thread n K) : ((layer setup known action invariant).contract thread).Lawful where
  refl := (lawful setup thread).refl
  trans := (lawful setup thread).trans
  idle := (lawful setup thread).idle
  stays := (lawful setup thread).stays

theorem layer_compatible {actor observer : Thread n K} {before after : State n m K} (different : actor ≠ observer)
    (ready : ((layer setup known action invariant).contract actor).Ready before)
    (later : ((layer setup known action invariant).contract observer).Ready after)
    (guaranteed : (layer setup known action invariant).guarantee actor before after) :
    (layer setup known action invariant).rely observer before after :=
  compatible different ⟨ready.knows.1, trivial, ready.may⟩ ⟨later.knows.1, trivial, later.may⟩ guaranteed

theorem layer_knows {mayStart : State n m K → Thread n K → Label n m → Request n → Prop}
    (acts : ∀ {config event}, admits config event → Acts setup config event)
    (starts : ∀ {config thread request label}, admits config (.start thread request) →
      config.thread thread = .ret label → mayStart config.shared thread label request)
    (knows : ∀ {config}, (system setup).Run admits initial config → known config.shared)
    (moves : ∀ {before after thread}, (system setup).Run admits initial before → admits before (.act thread) →
      (system setup).step before (.act thread) = some after → action thread before.shared after.shared) :
    (layer setup known action invariant).Knows (system setup) mayStart admits initial where
  respects {config event} admitted := by
    match event, admitted with
    | .start _ _, admitted => exact fun _ shape => starts admitted shape
    | .act thread, admitted =>
        have knows : (discipline setup).Knows (system setup) (fun _ _ _ _ => True) admits initial :=
          Membership.knows acts
        exact knows.respects admitted
  known run := ⟨of_run acts run, knows run⟩
  action run admitted taken :=
    ⟨⟨step_of_run acts run admitted taken, of_run acts (.step _ run admitted taken)⟩, moves run admitted taken⟩
  rests run may rests := label_of_run acts run may rests

end Extend

end Membership
end Salias.SharedHybridMpsc
