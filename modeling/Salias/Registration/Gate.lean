import Salias.Concurrent.RelyGuarantee
import Salias.Registration.Token

/-
The registration gate is one shared word with a second word for the start token of its owner.
-/

namespace Salias.RegistrationGate

open Concurrent ConsumerRegistration

/-- The live processes have distinct ids and start tokens, and the liveness check is exact. -/
structure Processes (T : Type) where
  pid : T → UInt32
  startToken : T → Nat
  isRegisteredProcessAlive : UInt32 → Nat → Bool
  pidInjective : Function.Injective pid
  startInjective : Function.Injective startToken
  exact : ∀ id start, isRegisteredProcessAlive id start = true ↔
    ∃ process, pid process = id ∧ (start = 0 ∨ start = startToken process)

/-- A process holds the gate from the return of the acquisition to the release of its guard. -/
inductive Stage where
  | outside
  | preparing
  | holding
  deriving DecidableEq

/-- The control block holds two words; `stage` and `judged` record the history of each process. -/
structure State (T : Type) where
  registrationGate : Nat := 0
  registrationGateProcessStart : Nat := 0
  stage : T → Stage := fun _ => .outside
  judged : T → Option Nat := fun _ => none

inductive Label where
  | outside
  | contending
  | inside (token : Nat)
  deriving DecidableEq

/-- A weak compare-exchange may fail although the gate is clear. -/
inductive Request where
  | acquire (spurious : Bool)
  | release
  deriving DecidableEq

variable {T : Type}

def preparing (processes : Processes T) (process : T) : Nat :=
  makeToken 0 (processes.pid process) kPreparing

def active (processes : Processes T) (process : T) : Nat :=
  makeToken 0 (processes.pid process) kActive

/-- The gate word names every process that is past its first exchange. -/
def Owned (processes : Processes T) (state : State T) : Prop :=
  ∀ process, (state.stage process = .preparing → state.registrationGate = preparing processes process) ∧
    (state.stage process = .holding → state.registrationGate = active processes process)

theorem preparing_ne_zero (processes : Processes T) (process : T) : preparing processes process ≠ 0 :=
  makeToken_ne_zero _ _ (by decide) (by decide)

theorem active_ne_zero (processes : Processes T) (process : T) : active processes process ≠ 0 :=
  makeToken_ne_zero _ _ (by decide) (by decide)

theorem processId_preparing (processes : Processes T) (process : T) :
    processId (preparing processes process) = processes.pid process :=
  processId_makeToken _ _ (by decide)

theorem processId_active (processes : Processes T) (process : T) :
    processId (active processes process) = processes.pid process :=
  processId_makeToken _ _ (by decide)

/-- The owner of the gate is unique. -/
theorem Owned.unique {processes : Processes T} {state : State T} (owned : Owned processes state)
    {first second : T} (one : state.stage first ≠ .outside) (two : state.stage second ≠ .outside) :
    first = second := by
  have owner (process : T) (past : state.stage process ≠ .outside) :
      processId state.registrationGate = processes.pid process := by
    cases stage : state.stage process with
    | outside => exact absurd stage past
    | preparing => rw [(owned process).1 stage, processId_preparing]
    | holding => rw [(owned process).2 stage, processId_active]
  exact processes.pidInjective ((owner first one).symm.trans (owner second two))

/-- A clear gate has no owner. -/
theorem Owned.outside_of_clear {processes : Processes T} {state : State T} (owned : Owned processes state)
    (clear : state.registrationGate = 0) (process : T) : state.stage process = .outside := by
  cases stage : state.stage process with
  | outside => rfl
  | preparing => exact absurd ((owned process).1 stage ▸ clear) (preparing_ne_zero processes process)
  | holding => exact absurd ((owned process).2 stage ▸ clear) (active_ne_zero processes process)

/-- The owner may change its stage when it writes the matching word. -/
theorem Owned.advance {processes : Processes T} {state after : State T} (process : T)
    (owned : Owned processes state) (owner : state.stage process ≠ .outside)
    (others : ∀ other, other ≠ process → after.stage other = state.stage other)
    (named : (after.stage process = .preparing → after.registrationGate = preparing processes process) ∧
      (after.stage process = .holding → after.registrationGate = active processes process)) :
    Owned processes after := by
  intro other
  by_cases same : other = process
  · exact same ▸ named
  · have absent : state.stage other = .outside := by
      by_contra present
      exact same (owned.unique present owner)
    simp [others other same, absent]

/-- A take-over is due when the gate holds again the token that a contender has judged dead. -/
def TakeoverDue (state : State T) (process : T) : Prop :=
  ∃ expected, state.judged process = some expected ∧ expected ≠ 0 ∧ state.registrationGate = expected

def initial : Config (State T) T Label := ⟨{}, fun _ => .ret .outside⟩

/-- Only its own steps move a process between the stages. -/
def discipline (processes : Processes T) : Discipline (State T) T Label where
  invariant := Owned processes
  action process before _ := ¬ TakeoverDue before process
  may _ _ := True
  rely process before after :=
    after.stage process = before.stage process ∧ after.judged process = before.judged process
  guarantee process before after := ∀ other, other ≠ process →
    after.stage other = before.stage other ∧ after.judged other = before.judged other
  label process
    | .outside, state => state.stage process = .outside ∧ state.judged process = none
    | .contending, state => state.stage process = .outside ∧ state.judged process = none
    | .inside token, state => token = active processes process ∧ state.stage process = .holding ∧
        state.judged process = none

theorem lawful (processes : Processes T) (process : T) :
    ((discipline processes).contract process).Lawful where
  refl _ := ⟨rfl, rfl⟩
  trans first second := ⟨second.1.trans first.1, second.2.trans first.2⟩
  idle _ _ _ := ⟨rfl, rfl⟩
  stays _ may := may

theorem begun (processes : Processes T) : (discipline processes).Initial initial :=
  ⟨fun _ => ⟨nofun, nofun⟩, fun _ _ step _ => step⟩

variable [DecidableEq T]

def State.setStage (state : State T) (process : T) (stage : Stage) : State T :=
  {state with stage := Function.update state.stage process stage}

def State.setJudged (state : State T) (process : T) (token : Option Nat) : State T :=
  {state with judged := Function.update state.judged process token}

/-- The exchange returns the observed word when it fails. -/
def compareExchangeWeak (processes : Processes T) (process : T) (spurious : Bool) :
    Prog (State T) (Option Nat) :=
  .modifyGet
    (fun state => if state.registrationGate = 0 ∧ ¬ spurious then none else some state.registrationGate)
    fun state =>
      if state.registrationGate = 0 ∧ ¬ spurious then
        {state with registrationGate := preparing processes process}.setStage process .preparing
      else state

/-- This exchange clears the gate of an owner that was judged dead. -/
def clearDeadOwner (process : T) (expected : Nat) : Prog (State T) Unit :=
  .store fun state =>
    (if state.registrationGate = expected then {state with registrationGate := 0} else state).setJudged
      process none

/-- One pass through the loop of `acquire_registration_gate`. -/
def acquireRegistrationGate (processes : Processes T) (process : T) (spurious : Bool) :
    Prog (State T) Label := do
  match ← compareExchangeWeak processes process spurious with
  | none =>
      .store fun state => {state with registrationGateProcessStart := processes.startToken process}
      .store fun state =>
        {state with registrationGate := active processes process}.setStage process .holding
      pure (.inside (active processes process))
  | some expected =>
      let ownerStart ← if phase expected = kPreparing then pure 0
        else .load fun state => state.registrationGateProcessStart
      if processes.isRegisteredProcessAlive (processId expected) ownerStart then
        pure .contending
      else
        .store fun state => state.setJudged process (some expected)
        clearDeadOwner process expected
        pure .contending

/-- The destructor of the guard exchanges its own token for zero. -/
def releaseRegistrationGate (process : T) (token : Nat) : Prog (State T) Label := do
  .store fun state =>
    (if state.registrationGate = token then {state with registrationGate := 0} else state).setStage
      process .outside
  pure .outside

def start (processes : Processes T) (process : T) : Label → Request → Option (Prog (State T) Label)
  | .outside, .acquire spurious => some (acquireRegistrationGate processes process spurious)
  | .contending, .acquire spurious => some (acquireRegistrationGate processes process spurious)
  | .inside token, .release => some (releaseRegistrationGate process token)
  | _, _ => none

def system (processes : Processes T) : System (State T) T Label Request := ⟨start processes⟩

/-- At most one process holds the gate. -/
def Exclusive (state : State T) : Prop :=
  ∀ first second, state.stage first = .holding → state.stage second = .holding → first = second

/-- The acquisition of a clear gate makes the process its owner. -/
theorem Owned.acquire {processes : Processes T} {state : State T} (owned : Owned processes state)
    (clear : state.registrationGate = 0) (process : T) :
    Owned processes
      ({state with registrationGate := preparing processes process}.setStage process .preparing) := by
  intro other
  by_cases same : other = process
  · subst same
    simp [State.setStage]
  · simp [State.setStage, Function.update_of_ne same, owned.outside_of_clear clear other]

theorem acquire_safe (processes : Processes T) (process : T) (spurious : Bool) {state : State T}
    (outside : state.stage process = .outside) (unjudged : state.judged process = none) :
    Safe ((discipline processes).contract process) ((discipline processes).label process)
      (acquireRegistrationGate processes process spurious) state := by
  unfold acquireRegistrationGate compareExchangeWeak
  simp only [Prog.bind_eq, Prog.pure_eq]
  apply Safe.modifyGet_bind
  rintro current ⟨stage, judged⟩ ⟨owned, -, -⟩ -
  rw [outside] at stage
  rw [unjudged] at judged
  by_cases won : current.registrationGate = 0 ∧ ¬ spurious = true
  · rw [if_pos won, if_pos won]
    refine ⟨owned.acquire won.1 process, fun other different => by simp [State.setStage, different], ?_⟩
    apply Safe.store_bind
    rintro first ⟨preparingStage, judgedFirst⟩ ⟨ownedFirst, -, -⟩ -
    have owner : first.stage process = .preparing := by simpa [State.setStage] using preparingStage
    refine ⟨ownedFirst.advance process (by simp [owner]) (fun _ _ => rfl) (ownedFirst process),
      fun _ _ => ⟨rfl, rfl⟩, ?_⟩
    apply Safe.store_bind
    rintro second ⟨stillPreparing, judgedSecond⟩ ⟨ownedSecond, -, -⟩ -
    have owner : second.stage process = .preparing := stillPreparing.trans owner
    refine ⟨ownedSecond.advance process (by simp [owner])
      (fun other different => by simp [State.setStage, different]) (by simp [State.setStage]),
      fun other different => by simp [State.setStage, different], ?_⟩
    rintro last ⟨held, judgedLast⟩ -
    refine ⟨rfl, by simpa [State.setStage] using held, ?_⟩
    rw [judgedLast]
    change second.judged process = none
    rw [judgedSecond]
    change first.judged process = none
    rw [judgedFirst]
    exact judged
  · rw [if_neg won, if_neg won]
    refine ⟨owned, fun _ _ => ⟨rfl, rfl⟩, ?_⟩
    -- The liveness verdict may be wrong; the judged token records what the next exchange expects.
    have verdict (ownerStart : Nat) {later : State T} (outside : later.stage process = .outside)
        (unjudged : later.judged process = none) :
        Safe ((discipline processes).contract process) ((discipline processes).label process)
          (if processes.isRegisteredProcessAlive (processId current.registrationGate) ownerStart = true then
            .ret .contending
          else
            (Prog.store fun state => state.setJudged process (some current.registrationGate)).bind fun _ =>
              (clearDeadOwner process current.registrationGate).bind fun _ => .ret .contending) later := by
      split
      · rintro last ⟨stageLast, judgedLast⟩ -
        exact ⟨stageLast.trans outside, judgedLast.trans unjudged⟩
      · apply Safe.store_bind
        rintro first ⟨stageFirst, -⟩ ⟨ownedFirst, -, -⟩ -
        refine ⟨ownedFirst, fun other different => by simp [State.setJudged, different], ?_⟩
        apply Safe.store_bind
        rintro second ⟨stageSecond, judgedSecond⟩ ⟨ownedSecond, -, -⟩ idle
        have announced : second.judged process = some current.registrationGate := by
          simpa [State.setJudged] using judgedSecond
        have unchanged : (if second.registrationGate = current.registrationGate
            then {second with registrationGate := 0} else second) = second := by
          split
          · rename_i again
            by_cases zero : current.registrationGate = 0
            · cases second
              simp_all
            · exact absurd ⟨_, announced, zero, again⟩ idle
          · rfl
        rw [unchanged]
        refine ⟨ownedSecond, fun other different => by simp [State.setJudged, different], ?_⟩
        rintro last ⟨stageLast, judgedLast⟩ -
        refine ⟨?_, by simpa [State.setJudged] using judgedLast⟩
        rw [stageLast]
        change second.stage process = .outside
        rw [stageSecond]
        change first.stage process = .outside
        rw [stageFirst, outside]
    dsimp only
    by_cases early : phase current.registrationGate = kPreparing
    · rw [if_pos early]
      exact verdict 0 stage judged
    · rw [if_neg early]
      apply Safe.load_bind (lawful processes process)
      rintro later ⟨stageLater, judgedLater⟩ -
      exact verdict _ (stageLater.trans stage) (judgedLater.trans judged)

theorem release_safe (processes : Processes T) (process : T) {state : State T}
    (holding : state.stage process = .holding) (unjudged : state.judged process = none) :
    Safe ((discipline processes).contract process) ((discipline processes).label process)
      (releaseRegistrationGate process (active processes process)) state := by
  apply Safe.store_bind
  rintro current ⟨stage, judged⟩ ⟨owned, -, -⟩ -
  have owner : current.stage process = .holding := stage.trans holding
  refine ⟨owned.advance process (by simp [owner])
    (fun other different => by split <;> simp [State.setStage, different]) (by simp [State.setStage]),
    fun other different => by split <;> simp [State.setStage, different], ?_⟩
  rintro last ⟨stageLast, judgedLast⟩ -
  refine ⟨by simpa [State.setStage] using stageLast, ?_⟩
  rw [judgedLast]
  have kept : current.judged process = none := judged.trans unjudged
  split <;> exact kept

theorem sound (processes : Processes T) :
    (discipline processes).Sound (system processes) fun _ _ _ _ => True where
  lawful := lawful processes
  compatible different _ _ kept := kept _ different.symm
  start := by
    intro process label request program state begins _ _ _ holds
    match label, request, begins with
    | .outside, .acquire spurious, begins =>
        cases begins
        exact acquire_safe processes process spurious holds.1 holds.2
    | .contending, .acquire spurious, begins =>
        cases begins
        exact acquire_safe processes process spurious holds.1 holds.2
    | .inside token, .release, begins =>
        cases begins
        obtain ⟨rfl, holding, unjudged⟩ := holds
        exact release_safe processes process holding unjudged

/-- A run in which no due take-over is carried out. -/
def RunWithoutTakeover (processes : Processes T) : Config (State T) T Label → Prop :=
  (system processes).Run
    (fun config event => ∀ process, event = .act process → ¬ TakeoverDue config.shared process) initial

theorem knows (processes : Processes T) : (discipline processes).Knows (system processes)
    (fun _ _ _ _ => True)
    (fun config event => ∀ process, event = .act process → ¬ TakeoverDue config.shared process) initial where
  respects {_ event} _ := by cases event <;> simp [Discipline.Admits, discipline]
  known _ := trivial
  action _ admitted _ := admitted _ rfl
  rests _ _ _ := trivial

/-- The gate excludes all but one process in every run that carries out no due take-over. -/
theorem exclusive_of_no_takeover (processes : Processes T) {config : Config (State T) T Label}
    (run : RunWithoutTakeover processes config) : Exclusive config.shared := by
  have owned := ((sound processes).run (begun processes) (knows processes) run).1
  intro first second one two
  exact owned.unique (by simp [one]) (by simp [two])

def threeProcesses : Processes (Fin 3) where
  pid process := UInt32.ofNat (process.val + 1)
  startToken process := process.val + 10
  isRegisteredProcessAlive id start := (List.finRange 3).any fun process =>
    UInt32.ofNat (process.val + 1) == id && (start == 0 || start == process.val + 10)
  pidInjective := by decide
  startInjective := by decide
  exact id start := by simp

/-- The first process loses the gate between the two reads of the second and takes it again before
the exchange of the second. -/
def takeoverSchedule : List (Event (Fin 3) Request) :=
  [.start 0 (.acquire false), .act 0, .act 0, .act 0,
    .start 1 (.acquire false), .act 1,
    .start 0 .release, .act 0,
    .start 2 (.acquire false), .act 2, .act 2,
    .act 1,
    .act 2, .start 2 .release, .act 2,
    .start 0 (.acquire false), .act 0, .act 0, .act 0,
    .act 1, .act 1,
    .start 1 (.acquire false), .act 1, .act 1, .act 1]

/-- A live owner loses the gate to a contender that read the start token of another owner. -/
theorem takeover_of_live_owner :
    ¬ ∀ config, (system threeProcesses).Reachable initial config → Exclusive config.shared := by
  intro exclusive
  have stages : ((system threeProcesses).exec initial takeoverSchedule).map
      (fun config => (config.shared.stage 0, config.shared.stage 1)) = some (.holding, .holding) := by
    rfl
  obtain ⟨final, executed, both⟩ := Option.map_eq_some_iff.mp stages
  have reached := System.reachable_of_exec takeoverSchedule .refl executed
  have first : final.shared.stage 0 = .holding := congrArg Prod.fst both
  have second : final.shared.stage 1 = .holding := congrArg Prod.snd both
  exact absurd (exclusive final reached 0 1 first second) (by decide)

/-- One process acquires the gate. -/
theorem exclusive_of_no_takeover_single : ∃ config,
    RunWithoutTakeover threeProcesses config ∧ config.shared.stage 0 = .holding ∧
      Exclusive config.shared := by
  have unjudged (state : State (Fin 3)) (judged : state.judged = fun _ => none) (process : Fin 3) :
      ∀ other, (Event.act process : Event (Fin 3) Request) = .act other → ¬ TakeoverDue state other := by
    rintro other - ⟨expected, announced, -⟩
    simp [judged] at announced
  have run : RunWithoutTakeover threeProcesses _ :=
    .step (.act 0) (.step (.act 0) (.step (.act 0) (.step (.start 0 (.acquire false)) .refl
      nofun rfl) (unjudged _ rfl 0) rfl) (unjudged _ rfl 0) rfl) (unjudged _ rfl 0) rfl
  exact ⟨_, run, rfl, exclusive_of_no_takeover threeProcesses run⟩

end Salias.RegistrationGate
