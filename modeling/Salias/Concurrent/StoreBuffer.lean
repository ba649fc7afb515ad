import Mathlib.Data.List.Basic

namespace Concurrent

/-- A store buffer holds the issued writes that memory does not show yet, oldest first. -/
structure Buffered (M W : Type) where
  memory : M
  buffer : List W

namespace Buffered

variable {M W : Type} (apply : M → W → M)

/-- The owner sees its own writes. -/
def view (words : Buffered M W) : M := words.buffer.foldl apply words.memory

def push (words : Buffered M W) (write : W) : Buffered M W :=
  {words with buffer := words.buffer ++ [write]}

/-- Memory takes the oldest write. -/
def pop (words : Buffered M W) : Buffered M W :=
  match words.buffer with
  | [] => words
  | write :: rest => ⟨apply words.memory write, rest⟩

/-- A full fence empties the buffer. -/
def drain (words : Buffered M W) : Buffered M W := ⟨words.view apply, []⟩

@[simp] theorem view_push (words : Buffered M W) (write : W) :
    (words.push write).view apply = apply (words.view apply) write := by
  simp [view, push]

@[simp] theorem view_pop (words : Buffered M W) : (words.pop apply).view apply = words.view apply := by
  cases words with
  | mk memory buffer => cases buffer <;> rfl

@[simp] theorem view_drain (words : Buffered M W) : (words.drain apply).view apply = words.view apply := rfl

@[simp] theorem memory_drain (words : Buffered M W) : (words.drain apply).memory = words.view apply := rfl

@[simp] theorem buffer_drain (words : Buffered M W) : (words.drain apply).buffer = [] := rfl

@[simp] theorem buffer_push (words : Buffered M W) (write : W) :
    (words.push write).buffer = words.buffer ++ [write] := rfl

@[simp] theorem memory_push (words : Buffered M W) (write : W) :
    (words.push write).memory = words.memory := rfl

/-- A field that no buffered write changes is visible in memory. -/
theorem view_eq_memory {A : Type} (field : M → A) (words : Buffered M W)
    (kept : ∀ write ∈ words.buffer, ∀ memory, field (apply memory write) = field memory) :
    field (words.view apply) = field words.memory := by
  obtain ⟨memory, buffer⟩ := words
  induction buffer generalizing memory with
  | nil => rfl
  | cons write rest ih =>
      have later := ih (apply memory write) fun other member => kept other (List.mem_cons_of_mem _ member)
      exact later.trans (kept write List.mem_cons_self memory)

end Buffered
end Concurrent
