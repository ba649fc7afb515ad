import Salias.Concurrent.Program

namespace Concurrent

/-- One thread of a shared system keeps the invariant and its guarantee while the others keep its rely.
What is known of every reachable state and of every action of the thread may be used but need not be kept. -/
structure Contract (σ : Type) where
  invariant : σ → Prop
  known : σ → Prop
  action : σ → σ → Prop
  may : σ → Prop
  rely : σ → σ → Prop
  guarantee : σ → σ → Prop

/-- A state in which the thread may act. -/
structure Contract.Ready {σ : Type} (contract : Contract σ) (state : σ) : Prop where
  keeps : contract.invariant state
  knows : contract.known state
  may : contract.may state

/-- The remaining program is safe from every state that the other threads can produce before each action. -/
def Safe {σ α : Type} (contract : Contract σ) (post : α → σ → Prop) : Prog σ α → σ → Prop
  | .ret value, state => ∀ current, contract.rely state current → contract.Ready current → post value current
  | .act update next, state => ∀ current, contract.rely state current → contract.Ready current →
      contract.action current (update current) →
      contract.invariant (update current) ∧ contract.guarantee current (update current) ∧
        Safe contract post (next current) (update current)

/-- Interference composes, a thread may always pause, and a thread that may not act never acts again. -/
structure Contract.Lawful {σ : Type} (contract : Contract σ) : Prop where
  refl : ∀ state, contract.rely state state
  trans : ∀ {first second third}, contract.rely first second → contract.rely second third →
    contract.rely first third
  idle : ∀ state, contract.guarantee state state
  stays : ∀ {before after}, contract.rely before after → contract.may after → contract.may before

/-- Every action of the program changes every state by the relation. -/
def Each {σ α : Type} (change : σ → σ → Prop) : Prog σ α → Prop
  | .ret _ => True
  | .act update next => ∀ state, change state (update state) ∧ Each change (next state)

namespace Each

variable {σ α β γ : Type} {change : σ → σ → Prop}

theorem ret (value : α) : Each change (.ret value) := trivial

theorem bind {program : Prog σ α} {rest : α → Prog σ β} (first : Each change program)
    (second : ∀ value, Each change (rest value)) : Each change (program.bind rest) := by
  induction program with
  | ret value => exact second value
  | act update next ih => exact fun state => ⟨(first state).1, ih state (first state).2⟩

theorem load (refl : ∀ state, change state state) (read : σ → α) : Each change (Prog.load read) :=
  fun state => ⟨refl state, trivial⟩

theorem store {update : σ → σ} (changes : ∀ state, change state (update state)) :
    Each change (Prog.store update) := fun state => ⟨changes state, trivial⟩

theorem modifyGet {update : σ → σ} (changes : ∀ state, change state (update state)) (read : σ → α) :
    Each change (Prog.modifyGet read update) := fun state => ⟨changes state, trivial⟩

theorem when {condition : Prop} [Decidable condition] {program : Prog σ Unit} (each : Each change program) :
    Each change (Prog.when condition program) := by
  unfold Prog.when
  split
  · exact each
  · trivial

theorem foldUntil {step : β → γ → Prog σ (β ⊕ α)} (round : ∀ carried item, Each change (step carried item))
    (items : List γ) (carried : β) : Each change (Prog.foldUntil step items carried) := by
  induction items generalizing carried with
  | nil => trivial
  | cons item rest ih =>
      refine bind (round carried item) fun result => ?_
      cases result with
      | inl next => exact ih next
      | inr stop => trivial

theorem repeatUntil {step : β → Prog σ (β ⊕ α)} (round : ∀ carried, Each change (step carried)) (bound : Nat)
    (carried : β) : Each change (Prog.repeatUntil step bound carried) := by
  induction bound generalizing carried with
  | zero => trivial
  | succ bound ih =>
      refine bind (round carried) fun result => ?_
      cases result with
      | inl next => exact ih next
      | inr stop => trivial

theorem forEach {step : γ → Prog σ Unit} (round : ∀ item, Each change (step item)) (items : List γ) :
    Each change (Prog.forEach step items) := by
  induction items with
  | nil => trivial
  | cons item rest ih => exact bind (round item) fun _ => ih

theorem mono {wider : σ → σ → Prop} {program : Prog σ α} (each : Each change program)
    (implied : ∀ before after, change before after → wider before after) : Each wider program := by
  induction program with
  | ret value => trivial
  | act update next ih => exact fun state => ⟨implied _ _ (each state).1, ih state (each state).2⟩

theorem and {other : σ → σ → Prop} {program : Prog σ α} (one : Each change program) (two : Each other program) :
    Each (fun before after => change before after ∧ other before after) program := by
  induction program with
  | ret value => trivial
  | act update next ih => exact fun state => ⟨⟨(one state).1, (two state).1⟩, ih state (one state).2 (two state).2⟩

end Each

/-- Every result of the program satisfies the fact, whatever the program reads. -/
def Ends {σ α : Type} (holds : α → Prop) : Prog σ α → Prop
  | .ret value => holds value
  | .act _ next => ∀ state, Ends holds (next state)

namespace Ends

variable {σ α β : Type} {holds : β → Prop}

theorem bind {program : Prog σ α} {rest : α → Prog σ β} (continues : ∀ value, Ends holds (rest value)) :
    Ends holds (program.bind rest) := by
  induction program with
  | ret value => exact continues value
  | act update next ih => exact fun state => ih state

theorem load {read : σ → β} (holds_read : ∀ state, holds (read state)) : Ends holds (Prog.load read) :=
  fun state => holds_read state

end Ends

/-- A fact that neither the thread nor the others can undo. -/
structure Lasting {σ : Type} (contract : Contract σ) (fact : σ → Prop) : Prop where
  rely : ∀ {before after}, contract.rely before after → contract.Ready after → fact before → fact after
  action : ∀ {before after}, contract.Ready before → contract.action before after → fact before → fact after

namespace Lasting

variable {σ ι : Type} {contract : Contract σ}

theorem trivial : Lasting contract fun _ => True := ⟨fun _ _ => id, fun _ _ => id⟩

theorem and {first second : σ → Prop} (one : Lasting contract first) (two : Lasting contract second) :
    Lasting contract fun state => first state ∧ second state :=
  ⟨fun rely ready held => ⟨one.rely rely ready held.1, two.rely rely ready held.2⟩,
    fun ready action held => ⟨one.action ready action held.1, two.action ready action held.2⟩⟩

theorem all {fact : ι → σ → Prop} (each : ∀ index, Lasting contract (fact index)) :
    Lasting contract fun state => ∀ index, fact index state :=
  ⟨fun rely ready held index => (each index).rely rely ready (held index),
    fun ready action held index => (each index).action ready action (held index)⟩

end Lasting

namespace Safe

variable {σ α β : Type} {contract : Contract σ} {P : α → σ → Prop}

/-- A thread that may not act is safe. -/
theorem of_not_may (lawful : contract.Lawful) {program : Prog σ α} {state : σ} (ended : ¬ contract.may state) :
    Safe contract P program state := by
  cases program with
  | ret value => exact fun current between ready => absurd (lawful.stays between ready.may) ended
  | act update next => exact fun current between ready => absurd (lawful.stays between ready.may) ended

theorem interfere (lawful : contract.Lawful) {program : Prog σ α} {state current : σ}
    (safe : Safe contract P program state) (step : contract.rely state current) :
    Safe contract P program current := by
  cases program with
  | ret value => exact fun later between => safe later (lawful.trans step between)
  | act update next => exact fun later between => safe later (lawful.trans step between)

/-- A fact may be established after the interference that precedes the program. -/
theorem settle {program : Prog σ α} {state : σ} (lawful : contract.Lawful)
    (safe : ∀ current, contract.rely state current → contract.Ready current → Safe contract P program current) :
    Safe contract P program state := by
  cases program with
  | ret value => exact fun current step ready => safe current step ready current (lawful.refl _) ready
  | act update next => exact fun current step ready => safe current step ready current (lawful.refl _) ready

theorem weaken {W : α → σ → Prop} {program : Prog σ α} {state : σ}
    (safe : Safe contract P program state)
    (implied : ∀ value current, contract.Ready current → P value current → W value current) :
    Safe contract W program state := by
  induction program generalizing state with
  | ret value => exact fun current step ready => implied _ _ ready (safe current step ready)
  | act update next ih =>
      intro current step ready after
      obtain ⟨kept, guaranteed, rest⟩ := safe current step ready after
      exact ⟨kept, guaranteed, ih current rest⟩

/-- Two assertions about one program hold together. -/
theorem and {Q : α → σ → Prop} {program : Prog σ α} {state : σ} (first : Safe contract P program state)
    (second : Safe contract Q program state) :
    Safe contract (fun value current => P value current ∧ Q value current) program state := by
  induction program generalizing state with
  | ret value => exact fun current step ready => ⟨first current step ready, second current step ready⟩
  | act update next ih =>
      intro current step ready after
      obtain ⟨kept, guaranteed, one⟩ := first current step ready after
      obtain ⟨-, -, two⟩ := second current step ready after
      exact ⟨kept, guaranteed, ih current one two⟩

theorem bind (lawful : contract.Lawful) {M : α → σ → Prop} {R : β → σ → Prop}
    {program : Prog σ α} {rest : α → Prog σ β} {state : σ} (safe : Safe contract M program state)
    (continues : ∀ value current, contract.Ready current → M value current →
      Safe contract R (rest value) current) :
    Safe contract R (program.bind rest) state := by
  induction program generalizing state with
  | ret value =>
      exact settle lawful fun current step ready => continues value current ready (safe current step ready)
  | act update next ih =>
      intro current step ready after
      obtain ⟨kept, guaranteed, next⟩ := safe current step ready after
      exact ⟨kept, guaranteed, ih current next⟩

/-- A returned value satisfies its assertion when the assertion is stable. -/
theorem ret {value : α} {state : σ}
    (holds : ∀ current, contract.rely state current → contract.Ready current → P value current) :
    Safe contract P (.ret value) state := holds

/-- A load changes nothing, so only its result matters. -/
theorem load (lawful : contract.Lawful) {read : σ → α} {state : σ}
    (holds : ∀ current, contract.rely state current → contract.Ready current →
      ∀ later, contract.rely current later → contract.Ready later → P (read current) later) :
    Safe contract P (Prog.load read) state := by
  intro current step ready _
  exact ⟨ready.keeps, lawful.idle current, fun later between => holds current step ready later between⟩

/-- The same rule for a load at the head of a longer program. -/
theorem load_bind (lawful : contract.Lawful) {read : σ → β} {rest : β → Prog σ α} {state : σ}
    (continues : ∀ current, contract.rely state current → contract.Ready current →
      Safe contract P (rest (read current)) current) :
    Safe contract P ((Prog.load read).bind rest) state := by
  intro current step ready _
  exact ⟨ready.keeps, lawful.idle current, continues current step ready⟩

/-- A store whose result nobody uses. -/
theorem store {update : σ → σ} {state : σ} (keeps : ∀ current, contract.rely state current → contract.Ready current →
    contract.invariant (update current) ∧ contract.guarantee current (update current)) :
    Safe contract (fun _ _ => True) (Prog.store update) state :=
  fun current between ready _ =>
    ⟨(keeps current between ready).1, (keeps current between ready).2, fun _ _ _ => trivial⟩

/-- A store needs the invariant and the guarantee of its new state. -/
theorem store_bind {update : σ → σ} {rest : Unit → Prog σ α} {state : σ}
    (continues : ∀ current, contract.rely state current → contract.Ready current →
      contract.action current (update current) →
      contract.invariant (update current) ∧ contract.guarantee current (update current) ∧
        Safe contract P (rest ()) (update current)) :
    Safe contract P ((Prog.store update).bind rest) state := continues

/-- The same rules for a write that ends a program. -/
theorem store_last {update : σ → σ} {P : Unit → σ → Prop} {state : σ}
    (continues : ∀ current, contract.rely state current → contract.Ready current →
      contract.action current (update current) →
      contract.invariant (update current) ∧ contract.guarantee current (update current) ∧
        Safe contract P (.ret ()) (update current)) : Safe contract P (Prog.store update) state := continues

theorem modifyGet_last {update : σ → σ} {read : σ → α} {state : σ}
    (continues : ∀ current, contract.rely state current → contract.Ready current →
      contract.action current (update current) →
      contract.invariant (update current) ∧ contract.guarantee current (update current) ∧
        Safe contract P (.ret (read current)) (update current)) :
    Safe contract P (Prog.modifyGet read update) state := continues

theorem modifyGet_bind {update : σ → σ} {read : σ → β} {rest : β → Prog σ α} {state : σ}
    (continues : ∀ current, contract.rely state current → contract.Ready current →
      contract.action current (update current) →
      contract.invariant (update current) ∧ contract.guarantee current (update current) ∧
        Safe contract P (rest (read current)) (update current)) :
    Safe contract P ((Prog.modifyGet read update).bind rest) state := continues

/-- A program is safe when every one of its changes keeps the contract and a stable fact. -/
theorem of_each {change : σ → σ → Prop} {I : σ → Prop} {program : Prog σ α}
    {state : σ} (each : Each change program)
    (keeps : ∀ {before after}, contract.Ready before → contract.action before after → change before after →
      I before → contract.invariant after ∧ contract.guarantee before after ∧ I after)
    (stable : ∀ {before after}, contract.rely before after → contract.Ready after → I before → I after)
    (entry : I state) : Safe contract (fun _ => I) program state := by
  induction program generalizing state with
  | ret value => exact fun current between ready => stable between ready entry
  | act update next ih =>
      intro current between ready action
      obtain ⟨kept, guaranteed, held⟩ := keeps ready action (each current).1 (stable between ready entry)
      exact ⟨kept, guaranteed, ih current (each current).2 held⟩

/-- What every result satisfies holds beside the assertion. -/
theorem ends {holds : α → Prop} {program : Prog σ α} {state : σ} (safe : Safe contract P program state)
    (ends : Ends holds program) : Safe contract (fun value current => P value current ∧ holds value) program state := by
  induction program generalizing state with
  | ret value => exact fun current between ready => ⟨safe current between ready, ends⟩
  | act update next ih =>
      intro current between ready action
      obtain ⟨kept, guaranteed, rest⟩ := safe current between ready action
      exact ⟨kept, guaranteed, ih current rest (ends current)⟩

/-- A program is safe when every permitted action keeps the invariant and the guarantee. -/
theorem of_action {program : Prog σ α} {state : σ}
    (keeps : ∀ {before after}, contract.Ready before → contract.action before after →
      contract.invariant after ∧ contract.guarantee before after) :
    Safe contract (fun _ _ => True) program state := by
  induction program generalizing state with
  | ret value => exact fun _ _ _ => trivial
  | act update next ih =>
      intro current _ ready action
      obtain ⟨kept, guaranteed⟩ := keeps ready action
      exact ⟨kept, guaranteed, ih _⟩

/-- A stable fact that no change of the program touches holds beside its assertion. -/
theorem frame {change : σ → σ → Prop} {I : σ → Prop} {program : Prog σ α} {state : σ}
    (safe : Safe contract P program state) (each : Each change program)
    (keeps : ∀ {before after}, change before after → I before → I after)
    (stable : ∀ {before after}, contract.rely before after → contract.Ready after → I before → I after)
    (entry : I state) : Safe contract (fun value current => P value current ∧ I current) program state := by
  induction program generalizing state with
  | ret value => exact fun current between ready => ⟨safe current between ready, stable between ready entry⟩
  | act update next ih =>
      intro current between ready action
      obtain ⟨kept, guaranteed, rest⟩ := safe current between ready action
      exact ⟨kept, guaranteed, ih current rest (each current).2 (keeps (each current).1 (stable between ready entry))⟩

/-- A stable fact that no guaranteed change of the program undoes holds beside its assertion. -/
theorem beside {change : σ → σ → Prop} {I : σ → Prop} {program : Prog σ α} {state : σ}
    (safe : Safe contract P program state) (each : Each change program)
    (keeps : ∀ {before after}, contract.Ready before → contract.action before after → contract.guarantee before after →
      change before after → I before → I after)
    (stable : ∀ {before after}, contract.rely before after → contract.Ready after → I before → I after)
    (entry : I state) : Safe contract (fun value current => P value current ∧ I current) program state := by
  induction program generalizing state with
  | ret value => exact fun current between ready => ⟨safe current between ready, stable between ready entry⟩
  | act update next ih =>
      intro current between ready action
      obtain ⟨kept, guaranteed, rest⟩ := safe current between ready action
      exact ⟨kept, guaranteed, ih current rest (each current).2
        (keeps ready action guaranteed (each current).1 (stable between ready entry))⟩

/-- A lasting fact holds beside the assertion. -/
theorem lasting {fact : σ → Prop} {program : Prog σ α} {state : σ} (safe : Safe contract P program state)
    (lasts : Lasting contract fact) (entry : fact state) :
    Safe contract (fun value current => P value current ∧ fact current) program state := by
  induction program generalizing state with
  | ret value => exact fun current between ready => ⟨safe current between ready, lasts.rely between ready entry⟩
  | act update next ih =>
      intro current between ready action
      obtain ⟨kept, guaranteed, rest⟩ := safe current between ready action
      exact ⟨kept, guaranteed, ih current rest (lasts.action ready action (lasts.rely between ready entry))⟩

/-- A program is safe under a contract that asks less of the others and grants every permitted action. -/
theorem transfer {other : Contract σ} {program : Prog σ α} {state : σ} (safe : Safe contract P program state)
    (rely : ∀ {before after}, other.rely before after → contract.rely before after)
    (ready : ∀ {state}, other.Ready state → contract.Ready state)
    (acts : ∀ {before after}, other.Ready before → other.action before after → contract.action before after ∧
      other.invariant after ∧ other.guarantee before after) : Safe other P program state := by
  induction program generalizing state with
  | ret value => exact fun current between holds => safe current (rely between) (ready holds)
  | act update next ih =>
      intro current between holds action
      obtain ⟨permitted, kept, guaranteed⟩ := acts holds action
      obtain ⟨-, -, rest⟩ := safe current (rely between) (ready holds) permitted
      exact ⟨kept, guaranteed, ih current rest⟩

/-- What another contract shows of the results holds as well when it asks less of the others. -/
theorem borrow {other : Contract σ} {Q : α → σ → Prop} {program : Prog σ α} {state : σ}
    (safe : Safe contract P program state) (lender : Safe other Q program state)
    (rely : ∀ {before after}, contract.rely before after → other.rely before after)
    (ready : ∀ {state}, contract.Ready state → other.Ready state)
    (acts : ∀ {before after}, contract.action before after → other.action before after) :
    Safe contract (fun value current => P value current ∧ Q value current) program state := by
  induction program generalizing state with
  | ret value => exact fun current between holds => ⟨safe current between holds, lender current (rely between) (ready holds)⟩
  | act update next ih =>
      intro current between holds action
      obtain ⟨kept, guaranteed, rest⟩ := safe current between holds action
      obtain ⟨-, -, lent⟩ := lender current (rely between) (ready holds) (acts action)
      exact ⟨kept, guaranteed, ih current rest lent⟩

/-- A program is safe under a contract whose invariant and guarantee follow from its own. -/
theorem narrow {other : Contract σ} {program : Prog σ α} {state : σ} (safe : Safe contract P program state)
    (rely : ∀ {before after}, other.rely before after → contract.rely before after)
    (ready : ∀ {state}, other.Ready state → contract.Ready state)
    (acts : ∀ {before after}, other.Ready before → other.action before after → contract.action before after)
    (keeps : ∀ {before after}, other.Ready before → contract.invariant after → contract.guarantee before after →
      other.invariant after ∧ other.guarantee before after) : Safe other P program state := by
  induction program generalizing state with
  | ret value => exact fun current between holds => safe current (rely between) (ready holds)
  | act update next ih =>
      intro current between holds action
      obtain ⟨kept, guaranteed, rest⟩ := safe current (rely between) (ready holds) (acts holds action)
      obtain ⟨invariant, promise⟩ := keeps holds kept guaranteed
      exact ⟨invariant, promise, ih current rest⟩

/-- A fact about the carried value that each round keeps holds after the whole loop. -/
theorem foldUntil {γ δ : Type} (lawful : contract.Lawful) {step : β → γ → Prog σ (β ⊕ δ)}
    {I : List γ → β → σ → Prop} {S : δ → σ → Prop}
    (stable : ∀ {rest carried before after}, contract.rely before after → contract.Ready after →
      I rest carried before → I rest carried after)
    (round : ∀ item rest carried state, I (item :: rest) carried state →
      Safe contract (fun result current => match result with
        | .inl next => I rest next current
        | .inr stop => S stop current) (step carried item) state)
    (stays : ∀ {stop before after}, contract.rely before after → contract.Ready after →
      S stop before → S stop after)
    {items : List γ} {carried : β} {state : σ} (entry : I items carried state) :
    Safe contract (fun result current => match result with
      | .inl next => I [] next current
      | .inr stop => S stop current) (Prog.foldUntil step items carried) state := by
  induction items generalizing carried state with
  | nil => exact fun current between ready => stable between ready entry
  | cons item rest ih =>
      refine Safe.bind lawful (round item rest carried state entry) fun result current _ reached => ?_
      cases result with
      | inl next => exact ih reached
      | inr stop => exact fun later between ready => stays between ready reached

/-- The same rule for a loop with a bound. -/
theorem repeatUntil {δ : Type} (lawful : contract.Lawful) {step : β → Prog σ (β ⊕ δ)}
    {I : β → σ → Prop} {S : δ → σ → Prop}
    (stable : ∀ {carried before after}, contract.rely before after → contract.Ready after →
      I carried before → I carried after)
    (round : ∀ carried state, I carried state →
      Safe contract (fun result current => match result with
        | .inl next => I next current
        | .inr stop => S stop current) (step carried) state)
    (stays : ∀ {stop before after}, contract.rely before after → contract.Ready after →
      S stop before → S stop after)
    {bound : Nat} {carried : β} {state : σ} (entry : I carried state) :
    Safe contract (fun result current => match result with
      | .inl next => I next current
      | .inr stop => S stop current) (Prog.repeatUntil step bound carried) state := by
  induction bound generalizing carried state with
  | zero => exact fun current between ready => stable between ready entry
  | succ bound ih =>
      refine Safe.bind lawful (round carried state entry) fun result current _ reached => ?_
      cases result with
      | inl next => exact ih reached
      | inr stop => exact fun later between ready => stays between ready reached

/-- A fact about the remaining items that each round keeps holds after the whole loop. -/
theorem forEach {γ : Type} (lawful : contract.Lawful) {step : γ → Prog σ Unit} {I : List γ → σ → Prop}
    (stable : ∀ {rest before after}, contract.rely before after → contract.Ready after →
      I rest before → I rest after)
    (round : ∀ item rest state, I (item :: rest) state →
      Safe contract (fun _ current => I rest current) (step item) state)
    {items : List γ} {state : σ} (entry : I items state) :
    Safe contract (fun _ current => I [] current) (Prog.forEach step items) state := by
  induction items generalizing state with
  | nil => exact fun current between ready => stable between ready entry
  | cons item rest ih =>
      exact Safe.bind lawful (round item rest state entry) fun _ current _ reached => ih reached

end Safe

/-- The contracts of all threads share one invariant, and the labels carry the assertions between calls.
What is known of the states, of the actions and of the resting threads comes from an earlier proof. -/
structure Discipline (σ T L : Type) where
  invariant : σ → Prop
  known : σ → Prop := fun _ => True
  action : T → σ → σ → Prop := fun _ _ _ => True
  rests : T → L → σ → Prop := fun _ _ _ => True
  may : T → σ → Prop
  rely : T → σ → σ → Prop
  guarantee : T → σ → σ → Prop
  label : T → L → σ → Prop

namespace Discipline

variable {σ T L Op : Type}

def contract (discipline : Discipline σ T L) (thread : T) : Contract σ where
  invariant := discipline.invariant
  known := discipline.known
  action := discipline.action thread
  may := discipline.may thread
  rely := discipline.rely thread
  guarantee := discipline.guarantee thread

/-- A step respects the discipline when its action or its request is admitted in the state before it. -/
def Admits (discipline : Discipline σ T L) (mayStart : σ → T → L → Op → Prop) (config : Config σ T L) :
    Event T Op → Prop
  | .act thread => discipline.may thread config.shared
  | .start thread request => ∀ label, config.thread thread = .ret label →
      mayStart config.shared thread label request

/-- The guarantee of each thread lies in the rely of every other thread that may act. -/
structure Sound (discipline : Discipline σ T L) (system : System σ T L Op)
    (mayStart : σ → T → L → Op → Prop) : Prop where
  lawful : ∀ thread, (discipline.contract thread).Lawful
  compatible : ∀ {actor observer before after}, actor ≠ observer → (discipline.contract actor).Ready before →
    (discipline.contract observer).Ready after → discipline.guarantee actor before after →
    discipline.rely observer before after
  start : ∀ {thread label request program state}, system.start thread label request = some program →
    mayStart state thread label request → (discipline.contract thread).Ready state →
    discipline.rests thread label state → discipline.label thread label state →
    Safe (discipline.contract thread) (discipline.label thread) program state

variable [DecidableEq T] {discipline : Discipline σ T L} {system : System σ T L Op}
  {mayStart : σ → T → L → Op → Prop} {admits : Config σ T L → Event T Op → Prop} {initial : Config σ T L}

/-- The initial threads are safe. -/
def Initial (discipline : Discipline σ T L) (initial : Config σ T L) : Prop :=
  discipline.invariant initial.shared ∧
    ∀ thread, Safe (discipline.contract thread) (discipline.label thread) (initial.thread thread)
      initial.shared

/-- The admitted runs respect the discipline, and an earlier proof has shown what is known of them. -/
structure Knows (discipline : Discipline σ T L) (system : System σ T L Op) (mayStart : σ → T → L → Op → Prop)
    (admits : Config σ T L → Event T Op → Prop) (initial : Config σ T L) : Prop where
  respects : ∀ {config event}, admits config event → discipline.Admits mayStart config event
  known : ∀ {config}, system.Run admits initial config → discipline.known config.shared
  action : ∀ {before after thread}, system.Run admits initial before → admits before (.act thread) →
    system.step before (.act thread) = some after → discipline.action thread before.shared after.shared
  rests : ∀ {config thread label}, system.Run admits initial config → discipline.may thread config.shared →
    config.thread thread = .ret label → discipline.rests thread label config.shared

private theorem safe_update {config : Config σ T L} (sound : discipline.Sound system mayStart)
    (safe : ∀ thread, Safe (discipline.contract thread) (discipline.label thread) (config.thread thread)
      config.shared) {actor : T} {shared : σ} {program : Prog σ L} (keeps : discipline.invariant shared)
    (knows : discipline.known shared)
    (acted : Safe (discipline.contract actor) (discipline.label actor) program shared)
    (interfered : ∀ observer, actor ≠ observer → (discipline.contract observer).Ready shared →
      discipline.rely observer config.shared shared) (thread : T) :
    Safe (discipline.contract thread) (discipline.label thread)
      (Function.update config.thread actor program thread) shared := by
  by_cases same : thread = actor
  · subst same
    simpa using acted
  · rw [Function.update_of_ne same]
    by_cases may : discipline.may thread shared
    · exact (safe thread).interfere (sound.lawful thread)
        (interfered thread (fun eq => same eq.symm) ⟨keeps, knows, may⟩)
    · exact Safe.of_not_may (sound.lawful thread) may

/-- Every state of every admitted run satisfies the invariant, and every thread stays safe. -/
theorem Sound.run (sound : discipline.Sound system mayStart) (begun : discipline.Initial initial)
    (knows : discipline.Knows system mayStart admits initial) {config : Config σ T L}
    (run : system.Run admits initial config) : discipline.Initial config := by
  induction run with
  | refl => exact begun
  | @step before after event run admitted taken ih =>
      obtain ⟨keeps, safe⟩ := ih
      have knowsBefore := knows.known run
      have knowsAfter := knows.known (.step event run admitted taken)
      have respected := knows.respects admitted
      cases event with
      | start thread request =>
          cases shape : before.thread thread with
          | act update next => simp [System.step, shape] at taken
          | ret label =>
              simp only [System.step, shape, Option.map_eq_some_iff] at taken
              obtain ⟨program, begins, rfl⟩ := taken
              refine ⟨keeps, safe_update sound safe keeps knowsBefore ?_ fun observer _ _ =>
                (sound.lawful observer).refl _⟩
              by_cases may : discipline.may thread before.shared
              · have ready : (discipline.contract thread).Ready before.shared := ⟨keeps, knowsBefore, may⟩
                have rests := safe thread
                rw [shape] at rests
                have holds := rests before.shared ((sound.lawful thread).refl _) ready
                have rested := knows.rests run may shape
                exact sound.start begins (respected label shape) ready rested holds
              · exact Safe.of_not_may (sound.lawful thread) may
      | act thread =>
          cases shape : before.thread thread with
          | ret label => simp [System.step, shape] at taken
          | act update next =>
              have knowsAction := knows.action run admitted taken
              simp only [System.step, shape, Option.some.injEq] at taken
              subst taken
              have acts := safe thread
              rw [shape] at acts
              obtain ⟨kept, guaranteed, rest⟩ := acts before.shared ((sound.lawful thread).refl _)
                ⟨keeps, knowsBefore, respected⟩ knowsAction
              exact ⟨kept, safe_update sound safe kept knowsAfter rest fun observer different ready =>
                sound.compatible different ⟨keeps, knowsBefore, respected⟩ ready guaranteed⟩

/-- Every action of an admitted run keeps the guarantee of its thread. -/
theorem Sound.guarantee (sound : discipline.Sound system mayStart) (begun : discipline.Initial initial)
    (knows : discipline.Knows system mayStart admits initial) {before after : Config σ T L}
    (run : system.Run admits initial before) {thread : T} (admitted : admits before (.act thread))
    (taken : system.step before (.act thread : Event T Op) = some after) :
    discipline.guarantee thread before.shared after.shared := by
  obtain ⟨keeps, safe⟩ := sound.run begun knows run
  have knowsAction := knows.action run admitted taken
  cases shape : before.thread thread with
  | ret label => simp [System.step, shape] at taken
  | act update next =>
      simp only [System.step, shape, Option.some.injEq] at taken
      subst taken
      have acts := safe thread
      rw [shape] at acts
      exact (acts before.shared ((sound.lawful thread).refl _) ⟨keeps, knows.known run, knows.respects admitted⟩
        knowsAction).2.1

/-- The assertion at the label of a resting thread holds. -/
theorem Sound.label (sound : discipline.Sound system mayStart) (begun : discipline.Initial initial)
    (knows : discipline.Knows system mayStart admits initial) {config : Config σ T L}
    (run : system.Run admits initial config) {thread : T} {label : L}
    (may : discipline.may thread config.shared) (rests : config.thread thread = .ret label) :
    discipline.label thread label config.shared := by
  obtain ⟨keeps, safe⟩ := sound.run begun knows run
  have resting := safe thread
  rw [rests] at resting
  exact resting config.shared ((sound.lawful thread).refl _) ⟨keeps, knows.known run, may⟩

/-- The guarantees of a discipline may narrow the runs: where each event of a run is admitted once its thread has kept
its guarantee, the wider condition admits no other events. -/
theorem Sound.narrow (sound : discipline.Sound system mayStart) (begun : discipline.Initial initial)
    (knows : discipline.Knows system mayStart admits initial) {wider : Config σ T L → Event T Op → Prop}
    (respects : ∀ {config event}, wider config event → discipline.Admits mayStart config event)
    (action : ∀ {before after thread}, system.Run admits initial before → wider before (.act thread) →
      system.step before (.act thread) = some after → discipline.action thread before.shared after.shared)
    (narrows : ∀ {before after event}, system.Run admits initial before → wider before event →
      system.step before event = some after →
      (∀ thread, event = .act thread → discipline.guarantee thread before.shared after.shared) → admits before event)
    {before after : Config σ T L} {event : Event T Op} (run : system.Run admits initial before)
    (admitted : wider before event) (taken : system.step before event = some after) : admits before event := by
  refine narrows run admitted taken fun thread same => ?_
  subst same
  obtain ⟨keeps, safe⟩ := sound.run begun knows run
  have knowsAction := action run admitted taken
  cases shape : before.thread thread with
  | ret label => simp [System.step, shape] at taken
  | act update next =>
      simp only [System.step, shape, Option.some.injEq] at taken
      subst taken
      have acts := safe thread
      rw [shape] at acts
      exact (acts before.shared ((sound.lawful thread).refl _) ⟨keeps, knows.known run, respects admitted⟩
        knowsAction).2.1

end Discipline

namespace System

variable {σ T L Op : Type} [DecidableEq T] {system : System σ T L Op} {admits : Config σ T L → Event T Op → Prop}
  {initial : Config σ T L} {change : T → σ → σ → Prop}

/-- A relation of every program that starts in a run is a relation of every action of the run. -/
theorem Run.each (begun : ∀ thread, Each (change thread) (initial.thread thread))
    (starts : ∀ {config thread label request program}, admits config (.start thread request) →
      config.thread thread = .ret label → system.start thread label request = some program →
      Each (change thread) program)
    {config : Config σ T L} (run : system.Run admits initial config) (thread : T) :
    Each (change thread) (config.thread thread) := by
  induction run with
  | refl => exact begun thread
  | @step before after event _ admitted taken ih =>
      cases event with
      | start actor request =>
          cases shape : before.thread actor with
          | act update next => simp [System.step, shape] at taken
          | ret label =>
              simp only [System.step, shape, Option.map_eq_some_iff] at taken
              obtain ⟨program, begins, rfl⟩ := taken
              by_cases same : thread = actor
              · subst same
                simpa using starts admitted shape begins
              · simpa [same] using ih
      | act actor =>
          cases shape : before.thread actor with
          | ret label => simp [System.step, shape] at taken
          | act update next =>
              simp only [System.step, shape, Option.some.injEq] at taken
              subst taken
              by_cases same : thread = actor
              · subst same
                rw [shape] at ih
                simpa using (ih before.shared).2
              · simpa [same] using ih

theorem step_each {before after : Config σ T L} {thread : T} (each : Each (change thread) (before.thread thread))
    (taken : system.step before (.act thread) = some after) : change thread before.shared after.shared := by
  cases shape : before.thread thread with
  | ret label => simp [System.step, shape] at taken
  | act update next =>
      simp only [System.step, shape, Option.some.injEq] at taken
      subst taken
      rw [shape] at each
      exact (each before.shared).1

end System
end Concurrent
