import Mathlib.Logic.Function.Basic
import Mathlib.Data.List.Basic

namespace Concurrent

/-- A program reads and writes a shared state through atomic actions. -/
inductive Prog (σ α : Type) where
  | ret (value : α)
  | act (update : σ → σ) (next : σ → Prog σ α)

namespace Prog

variable {σ α β γ : Type}

def bind : Prog σ α → (α → Prog σ β) → Prog σ β
  | .ret value, rest => rest value
  | .act update next, rest => .act update fun state => (next state).bind rest

instance : Monad (Prog σ) where
  pure := ret
  bind := bind

/-- One atomic load. -/
def load (read : σ → α) : Prog σ α := .act id fun state => .ret (read state)

/-- One atomic store. -/
def store (update : σ → σ) : Prog σ Unit := .act update fun _ => .ret ()

/-- One atomic read-modify-write returns a value of the state before the write. -/
def modifyGet (read : σ → α) (update : σ → σ) : Prog σ α := .act update fun state => .ret (read state)

/-- A program that runs only under a condition. -/
def when (condition : Prop) [Decidable condition] (program : Prog σ Unit) : Prog σ Unit :=
  if condition then program else .ret ()

@[simp] theorem pure_eq (value : α) : (pure value : Prog σ α) = .ret value := rfl

@[simp] theorem bind_eq (program : Prog σ α) (rest : α → Prog σ β) :
    (program >>= rest) = program.bind rest := rfl

@[simp] theorem ret_bind (value : α) (rest : α → Prog σ β) :
    (Prog.ret value).bind rest = rest value := rfl

@[simp] theorem act_bind (update : σ → σ) (next : σ → Prog σ α) (rest : α → Prog σ β) :
    (Prog.act update next).bind rest = .act update fun state => (next state).bind rest := rfl

theorem bind_assoc (program : Prog σ α) (first : α → Prog σ β) (second : β → Prog σ γ) :
    (program.bind first).bind second = program.bind fun value => (first value).bind second := by
  induction program with
  | ret value => rfl
  | act update next ih => simp only [act_bind, ih]

/-- A thread that runs alone reaches the end of its program. -/
def run : Prog σ α → σ → α × σ
  | .ret value, state => (value, state)
  | .act update next, state => (next state).run (update state)

@[simp] theorem run_ret (value : α) (state : σ) : (Prog.ret value).run state = (value, state) := rfl

theorem run_bind (program : Prog σ α) (rest : α → Prog σ β) (state : σ) :
    (program.bind rest).run state = (rest (program.run state).1).run (program.run state).2 := by
  induction program generalizing state with
  | ret value => rfl
  | act update next ih => simp only [act_bind, run, ih]

@[simp] theorem run_load (read : σ → α) (state : σ) : (load read).run state = (read state, state) := rfl

@[simp] theorem run_store (update : σ → σ) (state : σ) : (store update).run state = ((), update state) :=
  rfl

@[simp] theorem run_modifyGet (read : σ → α) (update : σ → σ) (state : σ) :
    (modifyGet read update).run state = (read state, update state) := rfl

@[simp] theorem run_when (condition : Prop) [Decidable condition] (program : Prog σ Unit) (state : σ) :
    (Prog.when condition program).run state = ((), if condition then (program.run state).2 else state) := by
  unfold Prog.when
  split <;> rfl

/-- The value of a program that has ended. -/
def value : Prog σ α → Option α
  | .ret value => some value
  | .act .. => none

theorem of_value {program : Prog σ α} {value : α} (ended : program.value = some value) : program = .ret value := by
  cases program with
  | ret other => exact congrArg ret (Option.some_inj.mp ended)
  | act update next => cases ended

/-- A loop over a list stops at the first result. -/
def foldUntil (step : β → γ → Prog σ (β ⊕ α)) : List γ → β → Prog σ (β ⊕ α)
  | [], carried => .ret (.inl carried)
  | item :: rest, carried => (step carried item).bind fun
      | .inl next => foldUntil step rest next
      | .inr result => .ret (.inr result)

/-- A loop with a bound stops at the first result or at the bound. -/
def repeatUntil (step : β → Prog σ (β ⊕ α)) : Nat → β → Prog σ (β ⊕ α)
  | 0, carried => .ret (.inl carried)
  | bound + 1, carried => (step carried).bind fun
      | .inl next => repeatUntil step bound next
      | .inr result => .ret (.inr result)

/-- A loop over a list without a result. -/
def forEach (step : γ → Prog σ Unit) : List γ → Prog σ Unit
  | [] => .ret ()
  | item :: rest => (step item).bind fun _ => forEach step rest

end Prog

/-- Every thread rests at a label between its calls; a label and a request select the next program. -/
structure System (σ T L Op : Type) where
  start : T → L → Op → Option (Prog σ L)

structure Config (σ T L : Type) where
  shared : σ
  thread : T → Prog σ L

inductive Event (T Op : Type) where
  | start (thread : T) (request : Op)
  | act (thread : T)

namespace System

variable {σ T L Op : Type} [DecidableEq T]

/-- A start event is silent; an act event performs exactly one atomic action. -/
def step (system : System σ T L Op) (config : Config σ T L) : Event T Op → Option (Config σ T L)
  | .start thread request =>
      match config.thread thread with
      | .ret label => (system.start thread label request).map fun program =>
          ⟨config.shared, Function.update config.thread thread program⟩
      | .act .. => none
  | .act thread =>
      match config.thread thread with
      | .ret _ => none
      | .act update next =>
          some ⟨update config.shared, Function.update config.thread thread (next config.shared)⟩

/-- A run takes only the events that the condition admits in the state before them. -/
inductive Run (system : System σ T L Op) (admits : Config σ T L → Event T Op → Prop)
    (initial : Config σ T L) : Config σ T L → Prop where
  | refl : Run system admits initial initial
  | step {before after : Config σ T L} (event : Event T Op) (run : Run system admits initial before)
      (admitted : admits before event) (taken : system.step before event = some after) :
      Run system admits initial after

/-- Every interleaving of every sequence of requests is admitted. -/
def Reachable (system : System σ T L Op) : Config σ T L → Config σ T L → Prop :=
  Run system fun _ _ => True

theorem Run.weaken {system : System σ T L Op} {admits wider : Config σ T L → Event T Op → Prop}
    {initial config : Config σ T L} (implied : ∀ before event, admits before event → wider before event)
    (run : Run system admits initial config) : Run system wider initial config := by
  induction run with
  | refl => exact .refl
  | step event _ admitted taken ih => exact .step event ih (implied _ _ admitted) taken

theorem Run.trans {system : System σ T L Op} {admits : Config σ T L → Event T Op → Prop}
    {initial middle final : Config σ T L} (first : Run system admits initial middle)
    (second : Run system admits middle final) : Run system admits initial final := by
  induction second with
  | refl => exact first
  | step event _ admitted taken ih => exact .step event ih admitted taken

/-- A schedule is a list of events. -/
def exec (system : System σ T L Op) (config : Config σ T L) : List (Event T Op) → Option (Config σ T L)
  | [] => some config
  | event :: rest => (system.step config event).bind fun next => system.exec next rest

theorem reachable_of_exec {system : System σ T L Op} {initial config final : Config σ T L}
    (schedule : List (Event T Op)) (reached : system.Reachable initial config)
    (executed : system.exec config schedule = some final) : system.Reachable initial final := by
  induction schedule generalizing config with
  | nil =>
      simp only [exec, Option.some.injEq] at executed
      exact executed ▸ reached
  | cons event rest ih =>
      simp only [exec, Option.bind_eq_some_iff] at executed
      obtain ⟨next, taken, continued⟩ := executed
      exact ih (.step event reached trivial taken) continued

/-- The thread runs alone to the end of its program. -/
def finished (config : Config σ T L) (thread : T) : Config σ T L :=
  ⟨((config.thread thread).run config.shared).2,
    Function.update config.thread thread (.ret ((config.thread thread).run config.shared).1)⟩

theorem Run.finish {system : System σ T L Op} {admits : Config σ T L → Event T Op → Prop} (thread : T)
    (acts : ∀ config, admits config (.act thread)) {initial config : Config σ T L}
    (run : Run system admits initial config) : Run system admits initial (finished config thread) := by
  generalize shape : config.thread thread = program
  induction program generalizing config with
  | ret label =>
      have same : finished config thread = config := by
        simp only [finished, shape, Prog.run_ret]
        rw [← shape, Function.update_eq_self]
      rw [same]
      exact run
  | act update next ih =>
      have taken : system.step config (.act thread) = some ⟨update config.shared,
          Function.update config.thread thread (next config.shared)⟩ := by
        simp [System.step, shape]
      have rest := ih config.shared (.step (.act thread) run (acts config) taken) (Function.update_self ..)
      have same : finished ⟨update config.shared, Function.update config.thread thread (next config.shared)⟩ thread =
          finished config thread := by
        simp only [finished, shape, Function.update_self, Function.update_idem, Prog.run]
      exact same ▸ rest

/-- A thread may run alone to the end of its program. -/
theorem reachable_run {system : System σ T L Op} {initial config : Config σ T L} (thread : T)
    (reached : system.Reachable initial config) : ∃ final, system.Reachable initial final ∧
      final.shared = ((config.thread thread).run config.shared).2 ∧
      final.thread thread = .ret ((config.thread thread).run config.shared).1 ∧
      ∀ other, other ≠ thread → final.thread other = config.thread other :=
  ⟨finished config thread, Run.finish thread (fun _ => trivial) reached, rfl, Function.update_self ..,
    fun _ different => Function.update_of_ne different ..⟩

/-- A thread starts a call and runs alone to its end. -/
def call (system : System σ T L Op) (config : Config σ T L) (thread : T) (request : Op) : Option (Config σ T L) :=
  (system.step config (.start thread request)).map fun next => finished next thread

theorem call_eq {system : System σ T L Op} {config : Config σ T L} {thread : T} {label : L} {request : Op}
    {program : Prog σ L} (rests : config.thread thread = .ret label)
    (begins : system.start thread label request = some program) :
    system.call config thread request = some ⟨(program.run config.shared).2,
      Function.update config.thread thread (.ret (program.run config.shared).1)⟩ := by
  simp [call, System.step, rests, begins, finished]

def calls (system : System σ T L Op) (config : Config σ T L) : List (T × Op) → Option (Config σ T L)
  | [] => some config
  | (thread, request) :: rest => (system.call config thread request).bind fun next => system.calls next rest

theorem calls_append {system : System σ T L Op} {config : Config σ T L} (first second : List (T × Op)) :
    system.calls config (first ++ second) = (system.calls config first).bind fun next => system.calls next second := by
  induction first generalizing config with
  | nil => rfl
  | cons request rest ih => simp only [List.cons_append, calls, Option.bind_assoc, ih]

theorem Run.calls {system : System σ T L Op} {admits : Config σ T L → Event T Op → Prop}
    {requests : List (T × Op)} (acts : ∀ config request, request ∈ requests → admits config (.act request.1))
    (starts : ∀ config request, request ∈ requests → admits config (.start request.1 request.2))
    {initial config final : Config σ T L} (run : Run system admits initial config)
    (called : system.calls config requests = some final) : Run system admits initial final := by
  induction requests generalizing config with
  | nil =>
      simp only [System.calls, Option.some.injEq] at called
      exact called ▸ run
  | cons request rest ih =>
      simp only [System.calls, System.call, Option.bind_eq_some_iff, Option.map_eq_some_iff] at called
      obtain ⟨next, ⟨started, taken, rfl⟩, continued⟩ := called
      have admitted := starts config request (List.mem_cons_self ..)
      have finishes := Run.finish request.1 (fun config => acts config request (List.mem_cons_self ..))
        (.step _ run admitted taken)
      exact ih (fun config other found => acts config other (List.mem_cons_of_mem _ found))
        (fun config other found => starts config other (List.mem_cons_of_mem _ found)) finishes continued

/-- A schedule whose events all pass a check in the state before them. -/
def execChecked (system : System σ T L Op) (check : Config σ T L → Event T Op → Bool) (config : Config σ T L) :
    List (Event T Op) → Option (Config σ T L)
  | [] => some config
  | event :: rest =>
      if check config event then (system.step config event).bind fun next => system.execChecked check next rest
      else none

theorem execChecked_append (system : System σ T L Op) (check : Config σ T L → Event T Op → Bool)
    (config : Config σ T L) (first second : List (Event T Op)) :
    system.execChecked check config (first ++ second) =
      (system.execChecked check config first).bind fun middle => system.execChecked check middle second := by
  induction first generalizing config with
  | nil => rfl
  | cons event rest ih =>
      simp only [List.cons_append, execChecked]
      split
      · rw [Option.bind_assoc]
        exact congrArg _ (funext ih)
      · rfl

theorem run_of_execChecked {system : System σ T L Op} {check : Config σ T L → Event T Op → Bool}
    {admits : Config σ T L → Event T Op → Prop} (passes : ∀ config event, check config event = true → admits config event)
    {initial config final : Config σ T L} (schedule : List (Event T Op)) (run : Run system admits initial config)
    (executed : system.execChecked check config schedule = some final) : Run system admits initial final := by
  induction schedule generalizing config with
  | nil =>
      simp only [execChecked, Option.some.injEq] at executed
      exact executed ▸ run
  | cons event rest ih =>
      rw [execChecked] at executed
      split at executed
      · rename_i passed
        simp only [Option.bind_eq_some_iff] at executed
        obtain ⟨next, taken, continued⟩ := executed
        exact ih (.step event run (passes _ _ passed) taken) continued
      · cases executed

end System

/-- The member of a family of one. -/
def sole : Fin 1 := ⟨0, Nat.one_pos⟩

end Concurrent
