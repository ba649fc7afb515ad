import Mathlib.Data.List.Basic
import Mathlib.Algebra.BigOperators.Group.List.Basic
import Mathlib.Algebra.GroupWithZero.Nat

/-
A bounded queue holds items of different sizes. It takes an item only when all sizes together fit.
-/

namespace Queue

/-- What the users of a queue observe. -/
inductive Action (α : Type) where
  | push (item : α)
  | refuse (size : Nat)
  | front (item : α)
  | vacant
  | pop (item : α)
  deriving DecidableEq

variable {α : Type}

def Action.pushed : Action α → Option α
  | .push item => some item
  | _ => none

def Action.popped : Action α → Option α
  | .pop item => some item
  | _ => none

/-- The items that have entered and left the queue, in their order. -/
def pushed (history : List (Action α)) : List α := history.filterMap Action.pushed
def popped (history : List (Action α)) : List α := history.filterMap Action.popped

theorem pushed_append (history : List (Action α)) (action : Action α) :
    pushed (history ++ [action]) = pushed history ++ action.pushed.toList := by
  cases shape : action.pushed with
  | none => simp [pushed, shape]
  | some item => simp [pushed, shape]

theorem popped_append (history : List (Action α)) (action : Action α) :
    popped (history ++ [action]) = popped history ++ action.popped.toList := by
  cases shape : action.popped with
  | none => simp [popped, shape]
  | some item => simp [popped, shape]

/-- The items that have entered and not left. -/
def waiting (history : List (Action α)) : List α := (pushed history).drop (popped history).length

variable (size : α → Nat) (capacity : Nat)

def total (items : List α) : Nat := (items.map size).sum

/-- A refused size does not fit beside the items of the queue. -/
inductive Step : List α → Action α → List α → Prop where
  | push {items : List α} {item : α} (fits : total size items + size item ≤ capacity) :
      Step items (.push item) (items ++ [item])
  | refuse {items : List α} {need : Nat} (full : capacity < total size items + need) : Step items (.refuse need) items
  | front (item : α) (rest : List α) : Step (item :: rest) (.front item) (item :: rest)
  | vacant : Step [] .vacant []
  | pop (item : α) (rest : List α) : Step (item :: rest) (.pop item) rest

/-- The histories of an initially empty queue. -/
inductive Run : List (Action α) → List α → Prop where
  | start : Run [] []
  | step {history : List (Action α)} {items next : List α} {action : Action α} (run : Run history items)
      (taken : Step size capacity items action next) : Run (history ++ [action]) next

section Total

variable {size}

@[simp] theorem total_nil : total size [] = 0 := rfl

@[simp] theorem total_cons (item : α) (rest : List α) : total size (item :: rest) = size item + total size rest := rfl

@[simp] theorem total_append (items more : List α) : total size (items ++ more) = total size items + total size more := by
  simp [total]

theorem eq_nil_of_total (positive : ∀ item, 0 < size item) {items : List α} (empty : total size items = 0) :
    items = [] := by
  cases items with
  | nil => rfl
  | cons item rest =>
      have := positive item
      rw [total_cons] at empty
      omega

end Total

namespace Run

variable {size capacity} {history : List (Action α)} {items : List α}

/-- Every item that enters leaves in its turn or waits. -/
theorem conserves (run : Run size capacity history items) : pushed history = popped history ++ items := by
  induction run with
  | start => rfl
  | @step history items next action run taken ih =>
      rw [pushed_append, popped_append, ih]
      cases taken with
      | push fits => simp [Action.pushed, Action.popped]
      | refuse full => simp [Action.pushed, Action.popped]
      | front item rest => simp [Action.pushed, Action.popped]
      | vacant => simp [Action.pushed, Action.popped]
      | pop item rest => simp [Action.pushed, Action.popped]

theorem waiting_eq (run : Run size capacity history items) : waiting history = items := by
  rw [waiting, run.conserves, List.drop_left]

theorem bounded (run : Run size capacity history items) : total size items ≤ capacity := by
  induction run with
  | start => exact Nat.zero_le _
  | step run taken ih =>
      cases taken with
      | push fits => simpa using fits
      | refuse full => exact ih
      | front item rest => exact ih
      | vacant => exact ih
      | pop item rest =>
          rw [total_cons] at ih
          omega

/-- The last action of a history is a step of the queue. -/
theorem last {action : Action α} (run : Run size capacity (history ++ [action]) items) :
    Step size capacity (waiting history) action items := by
  generalize shape : history ++ [action] = whole at run
  cases run with
  | start => simp at shape
  | @step former before next other run taken =>
      obtain ⟨same, single⟩ := List.append_inj' shape rfl
      obtain rfl := List.singleton_inj.mp single
      rw [same, run.waiting_eq]
      exact taken

end Run
end Queue
