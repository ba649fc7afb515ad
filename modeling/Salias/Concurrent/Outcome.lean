import Salias.Concurrent.RelyGuarantee

/-
The actions of one call among the steps of the other threads, and the calls that fail without a trace.
-/

namespace Concurrent

/-- The state before and after each action of a program that others may interrupt anywhere. -/
inductive Prog.Trace {σ α : Type} : Prog σ α → List (σ × σ) → α → Prop where
  | ret (value : α) : Trace (.ret value) [] value
  | act {update : σ → σ} {next : σ → Prog σ α} {actions : List (σ × σ)} {value : α} (state : σ)
      (rest : Trace (next state) actions value) : Trace (.act update next) ((state, update state) :: actions) value

/-- After an action outside of the relation the program fails no more. -/
def Clean {σ α : Type} (change : σ → σ → Prop) (failed : α → Prop) : Prog σ α → Prop
  | .ret _ => True
  | .act update next => ∀ state, (change state (update state) ∨ Ends (fun value => ¬ failed value) (next state)) ∧
      Clean change failed (next state)

/-- From states with a fact every action stays inside the relation, and every result satisfies its assertion. -/
def Within {σ α : Type} (holds : σ → Prop) (change : σ → σ → Prop) (post : α → Prop) : Prog σ α → Prop
  | .ret value => post value
  | .act update next => ∀ state, holds state → change state (update state) ∧ Within holds change post (next state)

section Ends

variable {σ α β : Type} {holds : β → Prop}

/-- A program continues with the results of its first part. -/
theorem Ends.bind_of {M : α → Prop} {program : Prog σ α} {rest : α → Prog σ β} (first : Ends M program)
    (continues : ∀ value, M value → Ends holds (rest value)) : Ends holds (program.bind rest) := by
  induction program with
  | ret value => exact continues value first
  | act update next ih => exact fun state => ih state (first state)

theorem Ends.mono {wider : β → Prop} {program : Prog σ β} (ends : Ends holds program)
    (implied : ∀ value, holds value → wider value) : Ends wider program := by
  induction program with
  | ret value => exact implied value ends
  | act update next ih => exact fun state => ih state (ends state)

theorem Ends.trace {program : Prog σ β} (ends : Ends holds program) {actions : List (σ × σ)} {value : β}
    (trace : program.Trace actions value) : holds value := by
  induction trace with
  | ret value => exact ends
  | act state rest ih => exact ih (ends state)

end Ends

namespace Clean

variable {σ α β γ : Type} {change : σ → σ → Prop} {failed : β → Prop}

theorem ret (value : β) : Clean change failed (.ret value : Prog σ β) := trivial

theorem of_each {program : Prog σ β} (each : Each change program) : Clean change failed program := by
  induction program with
  | ret value => trivial
  | act update next ih => exact fun state => ⟨.inl (each state).1, ih state (each state).2⟩

/-- A program that cannot fail may change everything. -/
theorem of_ends {program : Prog σ β} (ends : Ends (fun value => ¬ failed value) program) :
    Clean change failed program := by
  induction program with
  | ret value => trivial
  | act update next ih => exact fun state => ⟨.inr (ends state), ih state (ends state)⟩

/-- Only a failure of the first part lets the whole program fail. -/
theorem bind {R : α → Prop} {program : Prog σ α} {rest : α → Prog σ β}
    (first : Clean change R program) (fails : ∀ value, R value → Clean change failed (rest value))
    (succeeds : ∀ value, ¬ R value → Ends (fun value => ¬ failed value) (rest value)) :
    Clean change failed (program.bind rest) := by
  induction program with
  | ret value =>
      by_cases failure : R value
      · exact fails value failure
      · exact of_ends (succeeds value failure)
  | act update next ih =>
      refine fun state => ⟨?_, ih state (first state).2⟩
      exact (first state).1.imp_right fun ends => ends.bind_of succeeds

/-- Every action of a failed call stays inside the relation. -/
theorem trace {program : Prog σ β} (clean : Clean change failed program) {actions : List (σ × σ)} {value : β}
    (trace : program.Trace actions value) (failure : failed value) :
    ∀ action ∈ actions, change action.1 action.2 := by
  induction trace with
  | ret value => nofun
  | @act update next actions value state rest ih =>
      intro action member
      rcases List.mem_cons.mp member with rfl | later
      · exact (clean state).1.resolve_right fun ends => ends.trace rest failure
      · exact ih (clean state).2 failure action later

end Clean

namespace Within

variable {σ α β γ : Type} {holds : σ → Prop} {change : σ → σ → Prop} {post : β → Prop}

theorem bind {M : α → Prop} {program : Prog σ α} {rest : α → Prog σ β} (first : Within holds change M program)
    (continues : ∀ value, M value → Within holds change post (rest value)) :
    Within holds change post (program.bind rest) := by
  induction program with
  | ret value => exact continues value first
  | act update next ih => exact fun state held => ⟨(first state held).1, ih state (first state held).2⟩

theorem load_bind (refl : ∀ state, change state state) {read : σ → α} {rest : α → Prog σ β}
    (continues : ∀ state, holds state → Within holds change post (rest (read state))) :
    Within holds change post ((Prog.load read).bind rest) :=
  fun state held => ⟨refl state, continues state held⟩

theorem forEach {step : γ → Prog σ Unit} (round : ∀ item, Within holds change (fun _ => True) (step item))
    (items : List γ) : Within holds change (fun _ => True) (Prog.forEach step items) := by
  induction items with
  | nil => trivial
  | cons item rest ih => exact bind (round item) fun _ _ => ih

/-- A call whose actions all start in states with the fact. -/
theorem trace {program : Prog σ β} (within : Within holds change post program) {actions : List (σ × σ)} {value : β}
    (trace : program.Trace actions value) (held : ∀ action ∈ actions, holds action.1) :
    (∀ action ∈ actions, change action.1 action.2) ∧ post value := by
  induction trace with
  | ret value => exact ⟨nofun, within⟩
  | @act update next actions value state rest ih =>
      obtain ⟨step, continues⟩ := within state (held _ (List.mem_cons_self ..))
      obtain ⟨steps, reached⟩ := ih continues fun action later => held action (List.mem_cons_of_mem _ later)
      refine ⟨fun action member => ?_, reached⟩
      rcases List.mem_cons.mp member with rfl | later
      · exact step
      · exact steps action later

end Within

def Event.thread {T Op : Type} : Event T Op → T
  | .start thread _ => thread
  | .act thread => thread

namespace System

variable {σ T L Op : Type} [DecidableEq T]

/-- A thread performs its actions while the other threads take steps of their own. The list holds the state
before and after each of its actions. -/
inductive During (system : System σ T L Op) (admits : Config σ T L → Event T Op → Prop) (thread : T) :
    Config σ T L → List (σ × σ) → Config σ T L → Prop where
  | refl (config : Config σ T L) : During system admits thread config [] config
  | own {before middle after : Config σ T L} {actions : List (σ × σ)} (admitted : admits before (.act thread))
      (taken : system.step before (.act thread) = some middle)
      (rest : During system admits thread middle actions after) :
      During system admits thread before ((before.shared, middle.shared) :: actions) after
  | other {before middle after : Config σ T L} {actions : List (σ × σ)} (event : Event T Op)
      (apart : event.thread ≠ thread) (admitted : admits before event) (taken : system.step before event = some middle)
      (rest : During system admits thread middle actions after) : During system admits thread before actions after

variable {system : System σ T L Op} {admits : Config σ T L → Event T Op → Prop} {thread : T}

/-- A call starts from a label and changes nothing else. -/
theorem step_start {before after : Config σ T L} {request : Op}
    (taken : system.step before (.start thread request) = some after) : ∃ label program,
      before.thread thread = .ret label ∧ system.start thread label request = some program ∧
      after.shared = before.shared ∧ after.thread thread = program := by
  cases shape : before.thread thread with
  | act update next => simp [step, shape] at taken
  | ret label =>
      simp only [step, shape, Option.map_eq_some_iff] at taken
      obtain ⟨program, begins, rfl⟩ := taken
      exact ⟨label, program, rfl, begins, rfl, Function.update_self ..⟩

theorem step_thread_of_ne {before after : Config σ T L} {event : Event T Op} (apart : event.thread ≠ thread)
    (taken : system.step before event = some after) : after.thread thread = before.thread thread := by
  cases event with
  | start actor request =>
      cases shape : before.thread actor with
      | act update next => simp [step, shape] at taken
      | ret label =>
          simp only [step, shape, Option.map_eq_some_iff] at taken
          obtain ⟨program, -, rfl⟩ := taken
          exact Function.update_of_ne (Ne.symm apart) ..
  | act actor =>
      cases shape : before.thread actor with
      | ret label => simp [step, shape] at taken
      | act update next =>
          simp only [step, shape, Option.some.injEq] at taken
          subst taken
          exact Function.update_of_ne (Ne.symm apart) ..

/-- What the thread has done is a trace of its program. -/
theorem During.trace {before after : Config σ T L} {actions : List (σ × σ)} {label : L}
    (during : During system admits thread before actions after) (ended : after.thread thread = .ret label) :
    (before.thread thread).Trace actions label := by
  induction during with
  | refl config =>
      rw [ended]
      exact .ret label
  | @own before middle after actions admitted taken rest ih =>
      cases shape : before.thread thread with
      | ret label => simp [step, shape] at taken
      | act update next =>
          simp only [step, shape, Option.some.injEq] at taken
          subst taken
          have later := ih ended
          simp only [Function.update_self] at later
          exact .act before.shared later
  | other event apart admitted taken rest ih =>
      rw [← step_thread_of_ne apart taken]
      exact ih ended

/-- The state before and after each action and each step of the others satisfy a transitive relation. -/
theorem During.relates {change : σ → σ → Prop} (refl : ∀ state, change state state)
    (trans : ∀ {first second third}, change first second → change second third → change first third)
    {initial before after : Config σ T L} {actions : List (σ × σ)} (run : Run system admits initial before)
    (during : During system admits thread before actions after)
    (own : ∀ action ∈ actions, change action.1 action.2)
    (others : ∀ {config next : Config σ T L} {event : Event T Op}, Run system admits initial config →
      event.thread ≠ thread → admits config event → system.step config event = some next →
      change config.shared next.shared) : change before.shared after.shared := by
  induction during with
  | refl config => exact refl _
  | own admitted taken rest ih =>
      exact trans (own _ (List.mem_cons_self ..))
        (ih (.step _ run admitted taken) fun action later => own action (List.mem_cons_of_mem _ later))
  | other event apart admitted taken rest ih =>
      exact trans (others run apart admitted taken) (ih (.step _ run admitted taken) own)

theorem During.run {initial before after : Config σ T L} {actions : List (σ × σ)}
    (run : Run system admits initial before) (during : During system admits thread before actions after) :
    Run system admits initial after := by
  induction during with
  | refl config => exact run
  | own admitted taken rest ih => exact ih (.step _ run admitted taken)
  | other event apart admitted taken rest ih => exact ih (.step _ run admitted taken)

/-- A relation of every action of the thread in the runs holds of each action of the call. -/
theorem During.actions_of {change : σ → σ → Prop} {initial before after : Config σ T L} {actions : List (σ × σ)}
    (run : Run system admits initial before) (during : During system admits thread before actions after)
    (acts : ∀ {config next : Config σ T L}, Run system admits initial config → admits config (.act thread) →
      system.step config (.act thread) = some next → change config.shared next.shared) :
    ∀ action ∈ actions, change action.1 action.2 := by
  induction during with
  | refl config => nofun
  | own admitted taken rest ih =>
      intro action member
      rcases List.mem_cons.mp member with rfl | later
      · exact acts run admitted taken
      · exact ih (.step _ run admitted taken) action later
  | other event apart admitted taken rest ih => exact ih (.step _ run admitted taken)

/-- A call that runs alone is the shortest case. -/
theorem During.finish (acts : ∀ config, admits config (.act thread)) (config : Config σ T L) :
    ∃ actions, During system admits thread config actions (finished config thread) := by
  generalize shape : config.thread thread = program
  induction program generalizing config with
  | ret label =>
      have same : finished config thread = config := by
        simp only [finished, shape, Prog.run_ret]
        rw [← shape, Function.update_eq_self]
      rw [same]
      exact ⟨[], .refl config⟩
  | act update next ih =>
      have taken : system.step config (.act thread) = some ⟨update config.shared,
          Function.update config.thread thread (next config.shared)⟩ := by
        simp [System.step, shape]
      obtain ⟨actions, rest⟩ := ih config.shared ⟨update config.shared,
        Function.update config.thread thread (next config.shared)⟩ (Function.update_self ..)
      have same : finished ⟨update config.shared, Function.update config.thread thread (next config.shared)⟩ thread =
          finished config thread := by
        simp only [finished, shape, Function.update_self, Function.update_idem, Prog.run]
      exact ⟨_, .own (acts config) taken (same ▸ rest)⟩

end System
end Concurrent
