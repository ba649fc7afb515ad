import Salias.Channel.State
import Mathlib.Data.List.TakeWhile

/-
A commit that does not touch the published position waits in a sorted list of spans.
-/

namespace Salias.SharedHybridMpsc

/-- The new span takes over a right neighbour that it touches. -/
def joinRight (start stop : Nat) : List CommitSpan → List CommitSpan
  | next :: rest => if next.start = stop then ⟨start, next.stop⟩ :: rest else ⟨start, stop⟩ :: next :: rest
  | [] => [⟨start, stop⟩]

/-- `before` holds the spans with a smaller start, and its last span may touch the new one. -/
def notePendingCommit (pending : List CommitSpan) (start stop : Nat) : List CommitSpan :=
  if stop ≤ start then pending
  else
    let before := pending.takeWhile fun span => span.start < start
    let after := pending.dropWhile fun span => span.start < start
    match after with
    | next :: rest =>
        if next.start = start then before ++ ⟨start, max next.stop stop⟩ :: rest
        else noteBetween before after
    | [] => noteBetween before after
where
  noteBetween (before after : List CommitSpan) : List CommitSpan :=
    match before.getLast? with
    | some last =>
        if last.stop = start then before.dropLast ++ joinRight last.start stop after
        else before ++ joinRight start stop after
    | none => joinRight start stop after

/-- The published position swallows the spans that touch it. -/
def consumePendingContiguous : List CommitSpan → Nat → Nat × List CommitSpan
  | [], stop => (stop, [])
  | span :: rest, stop =>
      if span.start = stop then consumePendingContiguous rest span.stop else (stop, span :: rest)

/-- Some span contains the position. -/
def Covers (pending : List CommitSpan) (position : Nat) : Prop :=
  ∃ span ∈ pending, span.start ≤ position ∧ position < span.stop

/-- The spans are not empty, do not touch, and are sorted. -/
def Sorted (pending : List CommitSpan) : Prop :=
  pending.Pairwise (fun left right => left.stop < right.start) ∧ ∀ span ∈ pending, span.start < span.stop

@[simp] theorem not_covers_nil (position : Nat) : ¬ Covers [] position := by
  simp [Covers]

theorem covers_cons (span : CommitSpan) (rest : List CommitSpan) (position : Nat) :
    Covers (span :: rest) position ↔ (span.start ≤ position ∧ position < span.stop) ∨ Covers rest position := by
  simp [Covers]

theorem covers_append (before after : List CommitSpan) (position : Nat) :
    Covers (before ++ after) position ↔ Covers before position ∨ Covers after position := by
  simp only [Covers, List.mem_append]
  constructor
  · rintro ⟨span, left | right, inside⟩
    · exact .inl ⟨span, left, inside⟩
    · exact .inr ⟨span, right, inside⟩
  · rintro (⟨span, member, inside⟩ | ⟨span, member, inside⟩)
    · exact ⟨span, .inl member, inside⟩
    · exact ⟨span, .inr member, inside⟩

theorem sorted_append {before after : List CommitSpan} :
    Sorted (before ++ after) ↔ Sorted before ∧ Sorted after ∧
      ∀ left ∈ before, ∀ right ∈ after, left.stop < right.start := by
  simp only [Sorted, List.pairwise_append, List.mem_append]
  constructor
  · rintro ⟨⟨left, right, between⟩, proper⟩
    exact ⟨⟨left, fun span member => proper span (.inl member)⟩,
      ⟨right, fun span member => proper span (.inr member)⟩, between⟩
  · rintro ⟨⟨left, properLeft⟩, ⟨right, properRight⟩, between⟩
    exact ⟨⟨left, right, between⟩, fun span member => member.elim (properLeft span) (properRight span)⟩

theorem sorted_cons {span : CommitSpan} {rest : List CommitSpan} :
    Sorted (span :: rest) ↔ span.start < span.stop ∧ (∀ right ∈ rest, span.stop < right.start) ∧ Sorted rest := by
  simp only [Sorted, List.pairwise_cons, List.mem_cons, forall_eq_or_imp]
  tauto

section Join

variable {start stop : Nat} {before after : List CommitSpan}

theorem covers_joinRight (sorted : Sorted after) (proper : start < stop)
    (right : ∀ span ∈ after, stop ≤ span.start) (position : Nat) :
    Covers (joinRight start stop after) position ↔ (start ≤ position ∧ position < stop) ∨ Covers after position := by
  cases after with
  | nil => simp [joinRight, covers_cons]
  | cons next rest =>
      have beyond := right next (by simp)
      have whole := (sorted_cons.mp sorted).1
      by_cases touches : next.start = stop
      · have cut : (start ≤ position ∧ position < next.stop) ↔
            (start ≤ position ∧ position < stop) ∨ (next.start ≤ position ∧ position < next.stop) := by
          omega
        simp only [joinRight, if_pos touches, covers_cons, cut]
        tauto
      · simp only [joinRight, if_neg touches, covers_cons]

theorem sorted_joinRight (sorted : Sorted after) (proper : start < stop)
    (right : ∀ span ∈ after, stop ≤ span.start) : Sorted (joinRight start stop after) := by
  cases after with
  | nil => exact sorted_cons.mpr ⟨proper, by simp, sorted⟩
  | cons next rest =>
      obtain ⟨whole, later, tail⟩ := sorted_cons.mp sorted
      by_cases touches : next.start = stop
      · rw [joinRight, if_pos touches]
        exact sorted_cons.mpr ⟨by simp only; omega, later, tail⟩
      · rw [joinRight, if_neg touches]
        refine sorted_cons.mpr ⟨proper, fun span member => ?_, sorted⟩
        have first := right next (by simp)
        rcases List.mem_cons.mp member with rfl | old
        · simp only at touches ⊢
          omega
        · have := later span old
          simp only
          omega

theorem start_le_of_mem_joinRight (right : ∀ span ∈ after, stop ≤ span.start) (proper : start < stop)
    {span : CommitSpan} (member : span ∈ joinRight start stop after) : start ≤ span.start := by
  cases after with
  | nil =>
      simp only [joinRight, List.mem_singleton] at member
      simp [member]
  | cons next rest =>
      by_cases touches : next.start = stop
      · rw [joinRight, if_pos touches] at member
        rcases List.mem_cons.mp member with rfl | old
        · exact le_rfl
        · have := right span (List.mem_cons_of_mem _ old)
          omega
      · rw [joinRight, if_neg touches] at member
        rcases List.mem_cons.mp member with rfl | old
        · exact le_rfl
        · have := right span old
          omega

end Join

section Note

variable {pending : List CommitSpan} {start stop : Nat}

/-- A committed range that overlaps no waiting span joins the spans. -/
theorem notePendingCommit_spec (sorted : Sorted pending) (proper : start < stop)
    (apart : ∀ span ∈ pending, span.stop ≤ start ∨ stop ≤ span.start) :
    Sorted (notePendingCommit pending start stop) ∧
      (∀ position, Covers (notePendingCommit pending start stop) position ↔
        Covers pending position ∨ (start ≤ position ∧ position < stop)) ∧
      ∀ bound, bound < start → (∀ span ∈ pending, bound < span.start) →
        ∀ span ∈ notePendingCommit pending start stop, bound < span.start := by
  let below := fun span : CommitSpan => decide (span.start < start)
  obtain ⟨before, after, splits, left, right⟩ : ∃ before after, pending = before ++ after ∧
      (∀ span ∈ before, span.start < start) ∧
      pending.takeWhile below = before ∧ pending.dropWhile below = after := by
    refine ⟨pending.takeWhile below, pending.dropWhile below, (List.takeWhile_append_dropWhile).symm, ?_, rfl, rfl⟩
    intro span member
    simpa [below] using List.mem_takeWhile_imp member
  obtain ⟨taken, dropped⟩ := right
  have parts := splits ▸ sorted
  obtain ⟨sortedBefore, sortedAfter, between⟩ := sorted_append.mp parts
  have leftStops : ∀ span ∈ before, span.stop ≤ start := by
    intro span member
    rcases apart span (by simp [splits, member]) with stops | starts
    · exact stops
    · have := left span member
      omega
  have rightStarts : ∀ span ∈ after, stop ≤ span.start := by
    intro span member
    -- the head of the dropped part starts late, and the others start later
    have headLate : ∀ next rest, after = next :: rest → start ≤ next.start := by
      intro next rest shape
      have kept := List.head?_dropWhile_not below pending
      rw [dropped, shape] at kept
      simpa [below] using kept
    have late : start ≤ span.start := by
      cases shape : after with
      | nil => simp [shape] at member
      | cons next rest =>
          have first := headLate next rest shape
          rw [shape] at member sortedAfter
          obtain ⟨whole, later, -⟩ := sorted_cons.mp sortedAfter
          rcases List.mem_cons.mp member with rfl | old
          · exact first
          · have := later span old
            omega
    rcases apart span (by simp [splits, member]) with stops | starts
    · have := (sortedAfter.2 span member)
      omega
    · exact starts
  have value : notePendingCommit pending start stop = notePendingCommit.noteBetween start stop before after := by
    have notEmpty : ¬ stop ≤ start := by omega
    simp only [notePendingCommit, if_neg notEmpty]
    change (match pending.dropWhile below with
      | next :: rest => if next.start = start then
          pending.takeWhile below ++ (⟨start, max next.stop stop⟩ : CommitSpan) :: rest
          else notePendingCommit.noteBetween start stop (pending.takeWhile below) (pending.dropWhile below)
      | [] => notePendingCommit.noteBetween start stop (pending.takeWhile below) (pending.dropWhile below)) = _
    rw [taken, dropped]
    cases after with
    | nil => rfl
    | cons next rest =>
        have := rightStarts next (by simp)
        simp only
        rw [if_neg (by omega)]
  rw [value, splits]
  have plain (untouched : ∀ span ∈ before, span.stop < start) : Sorted (before ++ joinRight start stop after) ∧
      (∀ position, Covers (before ++ joinRight start stop after) position ↔
        Covers (before ++ after) position ∨ (start ≤ position ∧ position < stop)) ∧
      ∀ bound, bound < start → (∀ span ∈ before ++ after, bound < span.start) →
        ∀ span ∈ before ++ joinRight start stop after, bound < span.start := by
    refine ⟨sorted_append.mpr ⟨sortedBefore, sorted_joinRight sortedAfter proper rightStarts, ?_⟩, ?_, ?_⟩
    · intro span member other joined
      exact (untouched span member).trans_le (start_le_of_mem_joinRight rightStarts proper joined)
    · intro position
      rw [covers_append, covers_append, covers_joinRight sortedAfter proper rightStarts]
      tauto
    · intro bound low above span member
      rcases List.mem_append.mp member with old | joined
      · exact above span (by simp [old])
      · have := start_le_of_mem_joinRight rightStarts proper joined
        omega
  unfold notePendingCommit.noteBetween
  cases ends : before.getLast? with
  | none =>
      have empty : before = [] := List.getLast?_eq_none_iff.mp ends
      simpa [empty] using plain (by simp [empty])
  | some last =>
      simp only
      split
      · rename_i touches
        obtain ⟨early, shape⟩ := List.getLast?_eq_some_iff.mp ends
        have init : before.dropLast = early := by simp [shape]
        rw [init]
        rw [shape] at sortedBefore left between ⊢
        obtain ⟨sortedEarly, sortedLast, earlyLast⟩ := sorted_append.mp sortedBefore
        have lastProper := (sorted_cons.mp sortedLast).1
        have longer : last.start < stop := by
          have := left last (by simp)
          omega
        refine ⟨sorted_append.mpr ⟨sortedEarly, sorted_joinRight sortedAfter longer rightStarts, ?_⟩, ?_, ?_⟩
        · intro span member other joined
          have := earlyLast span member last (by simp)
          have := start_le_of_mem_joinRight rightStarts longer joined
          omega
        · intro position
          rw [covers_append, covers_append, covers_append, covers_joinRight sortedAfter longer rightStarts,
            covers_cons]
          have none := not_covers_nil position
          have cut : (last.start ≤ position ∧ position < stop) ↔
              (last.start ≤ position ∧ position < last.stop) ∨ (start ≤ position ∧ position < stop) := by
            omega
          rw [cut]
          tauto
        · intro bound low above span member
          rcases List.mem_append.mp member with old | joined
          · exact above span (by simp [old])
          · have := start_le_of_mem_joinRight rightStarts longer joined
            have := above last (by simp)
            omega
      · rename_i apartLast
        refine plain fun span member => lt_of_le_of_ne (leftStops span member) fun touches => ?_
        obtain ⟨early, shape⟩ := List.getLast?_eq_some_iff.mp ends
        rw [shape] at sortedBefore member left
        obtain ⟨-, -, earlyLast⟩ := sorted_append.mp sortedBefore
        rcases List.mem_append.mp member with old | final
        · have := earlyLast span old last (by simp)
          have := left last (by simp)
          omega
        · exact apartLast (List.mem_singleton.mp final ▸ touches)

/-- The published position moves over the waiting spans that it reaches. -/
theorem consumePendingContiguous_spec (sorted : Sorted pending) (late : ∀ span ∈ pending, stop ≤ span.start) :
    stop ≤ (consumePendingContiguous pending stop).1 ∧ Sorted (consumePendingContiguous pending stop).2 ∧
      (∀ span ∈ (consumePendingContiguous pending stop).2,
        (consumePendingContiguous pending stop).1 < span.start) ∧
      ∀ position, stop ≤ position → (Covers pending position ↔
        position < (consumePendingContiguous pending stop).1 ∨
          Covers (consumePendingContiguous pending stop).2 position) := by
  induction pending generalizing stop with
  | nil => exact ⟨le_rfl, sorted, by simp [consumePendingContiguous], by simp [consumePendingContiguous]⟩
  | cons span rest ih =>
      obtain ⟨proper, later, tail⟩ := sorted_cons.mp sorted
      by_cases touches : span.start = stop
      · simp only [consumePendingContiguous, if_pos touches]
        obtain ⟨grows, sortedRest, beyond, covers⟩ := ih tail fun other member => (later other member).le
        refine ⟨by omega, sortedRest, beyond, fun position above => ?_⟩
        rw [covers_cons]
        by_cases inside : position < span.stop
        · have reached : position < (consumePendingContiguous rest span.stop).1 := by omega
          simp [reached, inside, touches, above]
        · rw [covers position (by omega)]
          simp [inside]
      · simp only [consumePendingContiguous, if_neg touches]
        refine ⟨le_rfl, sorted, ?_, fun position above => by simp [not_lt.mpr above]⟩
        intro other member
        rcases List.mem_cons.mp member with rfl | old
        · have := late other (by simp)
          omega
        · have := later other old
          have := late span (by simp)
          omega

end Note
end Salias.SharedHybridMpsc
