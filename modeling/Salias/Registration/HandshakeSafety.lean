import Salias.Registration.Handshake

namespace Salias.ClaimHandshake

open Concurrent ConsumerRegistration

/-- The producer is outside, and memory shows all its reservation writes. -/
def Settled (words : Buffered Words Write) (stage : Stage) : Prop :=
  stage ≠ .inside ∧ ∀ write ∈ words.buffer, ¬ write.Reserves

/-- Pending reservation writes come before every pending write of the flag, and memory shows the flag
until they are drained. -/
def Orderly (words : Buffered Words Write) (stage : Stage) : Prop :=
  ∃ front back, words.buffer = front ++ back ∧ (∀ write ∈ front, write.Reserves) ∧
    (∀ write ∈ back, ¬ write.Reserves) ∧
    (front ≠ [] ∨ stage = .inside → words.memory.claimActive = 1) ∧ (stage = .inside → back = [])

/-- The facts about one producer that every step keeps. -/
structure Kept (asymmetric fenced : Bool) (gate : Nat) (words : Buffered Words Write) (issued : Words)
    (stage : Stage) : Prop where
  viewed : words.view Words.apply = issued
  active : issued.claimActive = if stage = .outside then 0 else 1
  drained : asymmetric = false →
    (∀ write ∈ words.buffer, write.Reserves) ∧ (stage ≠ .inside → words.buffer = [])
  orderly : gate ≠ 0 → fenced = true → Orderly words stage

theorem apply_claimActive_of_reserves {write : Write} (reserves : write.Reserves) (words : Words) :
    (words.apply write).claimActive = words.claimActive := by
  cases write with
  | claimActive value => exact absurd reserves id
  | reservationPosition value => rfl
  | reservationSequence value => rfl
  | reservationMessageSequence value => rfl

theorem apply_reservation_of_not_reserves {write : Write} (flag : ¬ write.Reserves) (words : Words) :
    (words.apply write).reservation = words.reservation := by
  cases write with
  | claimActive value => rfl
  | reservationPosition value => exact absurd trivial flag
  | reservationSequence value => exact absurd trivial flag
  | reservationMessageSequence value => exact absurd trivial flag

/-- A settled producer has no reservation that memory does not show. -/
theorem Settled.visible {words : Buffered Words Write} {stage : Stage} (settled : Settled words stage) :
    words.memory.reservation = (words.view Words.apply).reservation :=
  (Buffered.view_eq_memory _ Words.reservation words fun write member memory =>
    apply_reservation_of_not_reserves (settled.2 write member) memory).symm

/-- A registrant that reads a clear flag finds the producer settled. -/
theorem Orderly.settled {words : Buffered Words Write} {stage : Stage} (orderly : Orderly words stage)
    (clear : words.memory.claimActive = 0) : Settled words stage := by
  obtain ⟨front, back, split, -, flags, shown, -⟩ := orderly
  have unshown : ¬ (front ≠ [] ∨ stage = .inside) := by
    intro pending
    have := shown pending
    omega
  push Not at unshown
  refine ⟨unshown.2, fun write member => flags write ?_⟩
  simpa [split, unshown.1] using member

section Steps

variable {asymmetric fenced : Bool} {gate : Nat} {words : Buffered Words Write} {issued : Words}
  {stage : Stage}

/-- The sequentially consistent path is orderly without a fence. -/
theorem Kept.orderly_of_seqCst (kept : Kept false fenced gate words issued stage) : Orderly words stage := by
  obtain ⟨reserves, empty⟩ := kept.drained rfl
  refine ⟨words.buffer, [], by simp, reserves, by simp, fun pending => ?_, fun _ => rfl⟩
  have inside : stage = .inside := by
    by_contra outside
    exact pending.elim (fun filled => filled (empty outside)) outside
  have flag := Buffered.view_eq_memory Words.apply Words.claimActive words fun write member memory =>
    apply_claimActive_of_reserves (reserves write member) memory
  rw [← flag, kept.viewed, kept.active, if_neg (by simp [inside])]

/-- A pending write of the flag keeps the order when the producer is not inside. -/
theorem Orderly.push_flag {next : Stage} (orderly : Orderly words stage) (value : Nat)
    (outside : next ≠ .inside) : Orderly (words.push (.claimActive value)) next := by
  obtain ⟨front, back, split, reserves, flags, shown, -⟩ := orderly
  refine ⟨front, back ++ [.claimActive value], by simp [split], reserves, ?_, ?_, fun inside =>
    absurd inside outside⟩
  · intro write member
    rcases List.mem_append.mp member with old | new
    · exact flags write old
    · simp only [List.mem_singleton] at new
      simp [new, Write.Reserves]
  · rintro (filled | inside)
    · exact shown (.inl filled)
    · exact absurd inside outside

/-- A drained buffer is orderly when the flag tells the stage. -/
theorem Orderly.drain {memory : Words} (shown : stage = .inside → memory.claimActive = 1) :
    Orderly ⟨memory, []⟩ stage :=
  ⟨[], [], rfl, by simp, by simp, by simpa using shown, fun _ => rfl⟩

/-- Either path of a flag store keeps the facts when it leads outside the claim section. -/
theorem Kept.storeActive {next : Stage} {value : Nat} (kept : Kept asymmetric fenced gate words issued stage)
    (told : value = if next = .outside then 0 else 1) (outside : next ≠ .inside) :
    Kept asymmetric fenced gate
      (if asymmetric then words.push (.claimActive value)
        else (words.push (.claimActive value)).drain Words.apply)
      (issued.apply (.claimActive value)) next := by
  cases asymmetric with
  | false =>
      refine ⟨by simp [kept.viewed], by simpa [Words.apply] using told, by simp, fun _ _ => ?_⟩
      exact Orderly.drain fun inside => absurd inside outside
  | true =>
      refine ⟨by simp [kept.viewed], by simpa [Words.apply] using told, nofun, fun closed passed => ?_⟩
      exact (kept.orderly closed passed).push_flag value outside

/-- The guard is acquired only while the gate is clear. -/
theorem Kept.enter (kept : Kept asymmetric fenced 0 words issued .raised) :
    Kept asymmetric fenced 0 words issued .inside :=
  ⟨kept.viewed, by simpa using kept.active, fun seqCst => ⟨(kept.drained seqCst).1, by simp⟩,
    fun closed => absurd rfl closed⟩

/-- A reservation is written only inside the claim section. -/
theorem Kept.reserve {write : Write} (kept : Kept asymmetric fenced gate words issued .inside)
    (reserves : write.Reserves) :
    Kept asymmetric fenced gate (words.push write) (issued.apply write) .inside := by
  refine ⟨by simp [kept.viewed], ?_, fun seqCst => ⟨?_, by simp⟩, fun closed passed => ?_⟩
  · rw [apply_claimActive_of_reserves reserves, kept.active]
  · intro other member
    rcases List.mem_append.mp member with old | new
    · exact (kept.drained seqCst).1 other old
    · simp only [List.mem_singleton] at new
      exact new ▸ reserves
  · obtain ⟨front, back, split, fronts, -, shown, empty⟩ := kept.orderly closed passed
    refine ⟨front ++ [write], [], by simp [split, empty rfl], ?_, by simp, fun _ => shown (.inr rfl),
      fun _ => rfl⟩
    intro other member
    rcases List.mem_append.mp member with old | new
    · exact fronts other old
    · simp only [List.mem_singleton] at new
      exact new ▸ reserves

/-- Memory may take one write without a change to any fact. -/
theorem Kept.pop (kept : Kept asymmetric fenced gate words issued stage) :
    Kept asymmetric fenced gate (words.pop Words.apply) issued stage := by
  refine ⟨by simp [kept.viewed], kept.active, fun seqCst => ?_, fun closed passed => ?_⟩
  · obtain ⟨reserves, empty⟩ := kept.drained seqCst
    obtain ⟨memory, buffer⟩ := words
    cases buffer with
    | nil => exact ⟨reserves, empty⟩
    | cons write rest =>
        exact ⟨fun other member => reserves other (List.mem_cons_of_mem _ member),
          fun outside => absurd (empty outside) (by simp)⟩
  · obtain ⟨front, back, split, fronts, flags, shown, empty⟩ := kept.orderly closed passed
    obtain ⟨memory, buffer⟩ := words
    subst split
    cases front with
    | cons write rest =>
        refine ⟨rest, back, rfl, fun other member => fronts other (List.mem_cons_of_mem _ member), flags,
          fun _ => ?_, empty⟩
        exact (apply_claimActive_of_reserves (fronts write List.mem_cons_self) memory).trans
          (shown (.inl (by simp)))
    | nil =>
        cases back with
        | nil => exact ⟨[], [], rfl, by simp, by simp, shown, empty⟩
        | cons write rest =>
            have outside : stage ≠ .inside := fun inside => absurd (empty inside) (by simp)
            exact ⟨[], rest, rfl, by simp, fun other member => flags other (List.mem_cons_of_mem _ member),
              by simp [outside], fun inside => absurd inside outside⟩

/-- The heavy fence makes the producer orderly. -/
theorem Kept.fence (kept : Kept asymmetric fenced gate words issued stage) :
    Kept asymmetric true gate (words.drain Words.apply) issued stage :=
  ⟨by simp [kept.viewed], kept.active, fun _ => by simp, fun _ _ => Orderly.drain fun inside => by
    rw [kept.viewed, kept.active, if_neg (by simp [inside])]⟩

/-- A gate that opens, or closes before any fence, asks nothing of the producer. -/
theorem Kept.regate (kept : Kept asymmetric fenced gate words issued stage) (other : Nat) :
    Kept asymmetric false other words issued stage :=
  ⟨kept.viewed, kept.active, kept.drained, fun _ unfenced => absurd unfenced (by simp)⟩

theorem Settled.pop (settled : Settled words stage) : Settled (words.pop Words.apply) stage := by
  obtain ⟨memory, buffer⟩ := words
  cases buffer with
  | nil => exact settled
  | cons write rest => exact ⟨settled.1, fun other member => settled.2 other (List.mem_cons_of_mem _ member)⟩

theorem Settled.drain (settled : Settled words stage) : Settled (words.drain Words.apply) stage :=
  ⟨settled.1, by simp⟩

theorem Settled.storeActive {next : Stage} {value : Nat} (settled : Settled words stage)
    (outside : next ≠ .inside) :
    Settled (if asymmetric then words.push (.claimActive value)
      else (words.push (.claimActive value)).drain Words.apply) next := by
  cases asymmetric with
  | false => exact ⟨outside, by simp⟩
  | true =>
      refine ⟨outside, fun write member => ?_⟩
      rcases List.mem_append.mp member with old | new
      · exact settled.2 write old
      · simp only [List.mem_singleton] at new
        simp [new, Write.Reserves]

end Steps

section Protocol

variable {n : Nat}

/-- The facts about all producers, and what the registrant has waited for. -/
structure Invariant (setup : Setup n) (state : State n) : Prop where
  kept : ∀ producer, Kept (setup.asymmetricClaimFence producer) (state.fenced producer)
    state.registrationGate (state.words producer) (state.issued producer) (state.stage producer)
  quiet : state.waited = true → state.registrationGate ≠ 0 ∧
    ∀ producer, Settled (state.words producer) (state.stage producer)

/-- While the gate is closed, a settled producer stays settled. -/
def StaysSettled (before after : State n) : Prop :=
  before.registrationGate ≠ 0 → ∀ producer, Settled (before.words producer) (before.stage producer) →
    Settled (after.words producer) (after.stage producer)

/-- Only the registrant writes the gate and what it has fenced and waited for. -/
def SameGate (before after : State n) : Prop :=
  after.registrationGate = before.registrationGate ∧ after.fenced = before.fenced ∧
    after.waited = before.waited

def discipline (setup : Setup n) : Discipline (State n) (Thread n) (Label n) where
  invariant := Invariant setup
  may _ _ := True
  rely
    | .producer producer, before, after => after.stage producer = before.stage producer
    | .registrant, before, after => SameGate before after ∧ StaysSettled before after
    | .memory _, _, _ => True
  guarantee actor before after :=
    (∀ producer, actor ≠ .producer producer → after.stage producer = before.stage producer) ∧
      (actor ≠ .registrant → SameGate before after ∧ StaysSettled before after)
  label
    | .producer producer, .outside, state => state.stage producer = .outside
    | .producer producer, .inside, state => state.stage producer = .inside
    | .registrant, .idle, state => state.registrationGate = 0 ∧ (∀ producer, state.fenced producer = false)
    | .registrant, .waiting remaining, state => state.registrationGate ≠ 0 ∧
        (∀ producer, setup.asymmetricClaimFence producer = true → state.fenced producer = true) ∧
        ∀ producer, producer ∉ remaining → Settled (state.words producer) (state.stage producer)
    | .registrant, .registered, state => state.registrationGate ≠ 0
    | .memory _, .memory, _ => True
    | _, _, _ => False

theorem lawful (setup : Setup n) (actor : Thread n) : ((discipline setup).contract actor).Lawful where
  refl state := by
    cases actor with
    | producer producer => exact rfl
    | registrant => exact ⟨⟨rfl, rfl, rfl⟩, fun _ _ settled => settled⟩
    | memory producer => exact trivial
  trans {first second third} one two := by
    cases actor with
    | producer producer => exact Eq.trans two one
    | registrant =>
        obtain ⟨⟨gate, fenced, waited⟩, settles⟩ := one
        obtain ⟨⟨gate', fenced', waited'⟩, settles'⟩ := two
        refine ⟨⟨gate'.trans gate, fenced'.trans fenced, waited'.trans waited⟩, fun closed producer settled => ?_⟩
        exact settles' (gate ▸ closed) producer (settles closed producer settled)
    | memory producer => exact trivial
  idle state := ⟨fun _ _ => rfl, fun _ => ⟨⟨rfl, rfl, rfl⟩, fun _ _ settled => settled⟩⟩
  stays _ may := may

/-- A change to one producer that keeps its facts keeps the invariant. -/
theorem Invariant.update {setup : Setup n} {state after : State n} (producer : Fin n)
    (invariant : Invariant setup state) (same : SameGate state after)
    (others : ∀ other, other ≠ producer → after.words other = state.words other ∧
      after.issued other = state.issued other ∧ after.stage other = state.stage other)
    (kept : Kept (setup.asymmetricClaimFence producer) (state.fenced producer) state.registrationGate
      (after.words producer) (after.issued producer) (after.stage producer))
    (settles : state.registrationGate ≠ 0 → Settled (state.words producer) (state.stage producer) →
      Settled (after.words producer) (after.stage producer)) :
    Invariant setup after ∧ StaysSettled state after := by
  obtain ⟨gate, fenced, waited⟩ := same
  have stays : StaysSettled state after := by
    intro closed other settled
    by_cases eq : other = producer
    · subst eq
      exact settles closed settled
    · obtain ⟨words, -, stage⟩ := others other eq
      rwa [words, stage]
  refine ⟨⟨fun other => ?_, fun quiet => ?_⟩, stays⟩
  · by_cases eq : other = producer
    · subst eq
      rw [gate, fenced]
      exact kept
    · obtain ⟨words, issued, stage⟩ := others other eq
      rw [gate, fenced, words, issued, stage]
      exact invariant.kept other
  · obtain ⟨closed, settled⟩ := invariant.quiet (waited ▸ quiet)
    exact ⟨gate ▸ closed, fun other => stays closed other (settled other)⟩

/-- A step of one producer keeps the invariant and its guarantee. -/
theorem producer_step {setup : Setup n} {state after : State n} (producer : Fin n)
    (invariant : Invariant setup state) (same : SameGate state after)
    (others : ∀ other, other ≠ producer → after.words other = state.words other ∧
      after.issued other = state.issued other ∧ after.stage other = state.stage other)
    (kept : Kept (setup.asymmetricClaimFence producer) (state.fenced producer) state.registrationGate
      (after.words producer) (after.issued producer) (after.stage producer))
    (settles : state.registrationGate ≠ 0 → Settled (state.words producer) (state.stage producer) →
      Settled (after.words producer) (after.stage producer)) :
    Invariant setup after ∧ (discipline setup).guarantee (.producer producer) state after := by
  obtain ⟨next, stays⟩ := invariant.update producer same others kept settles
  exact ⟨next, fun other different => (others other fun eq => different (eq ▸ rfl)).2.2, fun _ => ⟨same, stays⟩⟩

theorem storeActive_words (state : State n) (asymmetric : Bool) (producer : Fin n) (value : Nat) :
    (state.storeActive asymmetric producer value).words = Function.update state.words producer
      (if asymmetric then (state.words producer).push (.claimActive value)
        else ((state.words producer).push (.claimActive value)).drain Words.apply) := by
  cases asymmetric <;> rfl

theorem storeActive_issued (state : State n) (asymmetric : Bool) (producer : Fin n) (value : Nat) :
    (state.storeActive asymmetric producer value).issued = Function.update state.issued producer
      ((state.issued producer).apply (.claimActive value)) := by
  cases asymmetric <;> rfl

theorem storeActive_sameGate (state : State n) (asymmetric : Bool) (producer : Fin n) (value : Nat)
    (stage : Stage) : SameGate state ((state.storeActive asymmetric producer value).setStage producer stage) := by
  cases asymmetric <;> exact ⟨rfl, rfl, rfl⟩

theorem storeActive_stage (state : State n) (asymmetric : Bool) (producer : Fin n) (value : Nat) :
    (state.storeActive asymmetric producer value).stage = state.stage := by
  cases asymmetric <;> rfl

/-- A flag store that leads outside the claim section is a safe step. -/
theorem storeActive_step {setup : Setup n} {state : State n} (producer : Fin n)
    (invariant : Invariant setup state) (value : Nat) (next : Stage)
    (told : value = if next = .outside then 0 else 1) (outside : next ≠ .inside) :
    let after := (state.storeActive (setup.asymmetricClaimFence producer) producer value).setStage producer next
    Invariant setup after ∧ (discipline setup).guarantee (.producer producer) state after := by
  intro after
  apply producer_step producer invariant (storeActive_sameGate _ _ _ _ _)
  · intro other different
    simp [State.setStage, storeActive_words, storeActive_issued, storeActive_stage, different]
  · have kept := (invariant.kept producer).storeActive told outside
    simpa [after, State.setStage, storeActive_words, storeActive_issued] using kept
  · intro _ settled
    have stays : Settled (if setup.asymmetricClaimFence producer then
        (state.words producer).push (.claimActive value)
      else ((state.words producer).push (.claimActive value)).drain Words.apply) next :=
      settled.storeActive outside
    simpa [after, State.setStage, storeActive_words] using stays

theorem claim_safe (setup : Setup n) (producer : Fin n) {state : State n}
    (outside : state.stage producer = .outside) :
    Safe ((discipline setup).contract (.producer producer)) ((discipline setup).label (.producer producer))
      (claimReservationGuard setup producer) state := by
  apply Safe.load_bind (lawful setup _)
  rintro first stageFirst -
  have outside : first.stage producer = .outside := Eq.trans stageFirst outside
  split
  · rintro last stageLast -
    exact Eq.trans stageLast outside
  · apply Safe.store_bind
    rintro second - ⟨invariant, -, -⟩ -
    obtain ⟨next, guaranteed⟩ := storeActive_step producer invariant 1 .raised (by simp) (by simp)
    refine ⟨next, guaranteed, ?_⟩
    apply Safe.modifyGet_bind
    rintro third stageThird ⟨invariant, -, -⟩ -
    have raised : third.stage producer = .raised := by
      simpa [discipline, Discipline.contract, State.setStage] using stageThird
    by_cases opened : third.registrationGate = 0
    · rw [if_pos opened]
      obtain ⟨next, guaranteed⟩ : Invariant setup (third.setStage producer .inside) ∧
          (discipline setup).guarantee (.producer producer) third (third.setStage producer .inside) := by
        have same : SameGate third (third.setStage producer .inside) := ⟨rfl, rfl, rfl⟩
        apply producer_step producer invariant same
        · intro other different
          simp [State.setStage, different]
        · have kept := invariant.kept producer
          rw [raised, opened] at kept
          rw [opened]
          simpa [State.setStage] using kept.enter
        · exact fun closed => absurd opened closed
      refine ⟨next, guaranteed, ?_⟩
      simp only [opened, decide_true, if_true]
      rintro last stageLast -
      simpa [discipline, Discipline.contract, State.setStage] using stageLast
    · rw [if_neg opened]
      refine ⟨invariant, (lawful setup (.producer producer)).idle third, ?_⟩
      simp only [opened, decide_false, Bool.false_eq_true, if_false]
      apply Safe.store_bind
      rintro fourth - ⟨invariant, -, -⟩ -
      obtain ⟨next, guaranteed⟩ := storeActive_step producer invariant 0 .outside (by simp) (by simp)
      refine ⟨next, guaranteed, ?_⟩
      rintro last stageLast -
      simpa [discipline, Discipline.contract, State.setStage] using stageLast

theorem finish_safe (setup : Setup n) (producer : Fin n) {state : State n} :
    Safe ((discipline setup).contract (.producer producer)) ((discipline setup).label (.producer producer))
      (endClaimReservation setup producer) state := by
  apply Safe.store_bind
  rintro current - ⟨invariant, -, -⟩ -
  obtain ⟨next, guaranteed⟩ := storeActive_step producer invariant 0 .outside (by simp) (by simp)
  refine ⟨next, guaranteed, ?_⟩
  rintro last stageLast -
  simpa [discipline, Discipline.contract, State.setStage] using stageLast

/-- A reservation write is a safe step inside the claim section. -/
theorem storeBuffered_safe {setup : Setup n} {producer : Fin n} {write : Write} (reserves : write.Reserves)
    {rest : Unit → Prog (State n) (Label n)} {state : State n} (inside : state.stage producer = .inside)
    (continues : ∀ current : State n, current.stage producer = .inside →
      Safe ((discipline setup).contract (.producer producer)) ((discipline setup).label (.producer producer))
        (rest ()) current) :
    Safe ((discipline setup).contract (.producer producer)) ((discipline setup).label (.producer producer))
      ((Prog.store fun state => state.storeBuffered producer write).bind rest) state := by
  apply Safe.store_bind
  rintro current stage ⟨invariant, -, -⟩ -
  have inside : current.stage producer = .inside := Eq.trans stage inside
  obtain ⟨next, guaranteed⟩ : Invariant setup (current.storeBuffered producer write) ∧
      (discipline setup).guarantee (.producer producer) current (current.storeBuffered producer write) := by
    have same : SameGate current (current.storeBuffered producer write) := ⟨rfl, rfl, rfl⟩
    apply producer_step producer invariant same
    · intro other different
      simp [State.storeBuffered, different]
    · have kept := invariant.kept producer
      rw [inside] at kept
      simpa [State.storeBuffered, inside] using kept.reserve reserves
    · exact fun _ settled => absurd inside settled.1
  exact ⟨next, guaranteed, continues _ inside⟩

theorem publish_safe (setup : Setup n) (producer : Fin n) (position sequence messageSequence : Nat)
    {state : State n} (inside : state.stage producer = .inside) :
    Safe ((discipline setup).contract (.producer producer)) ((discipline setup).label (.producer producer))
      (publishReservation producer position sequence messageSequence) state := by
  apply storeBuffered_safe (by trivial) inside
  intro first inside
  apply storeBuffered_safe (by trivial) inside
  intro second inside
  apply storeBuffered_safe (by trivial) inside
  intro third inside last stageLast _
  exact Eq.trans stageLast inside

theorem drain_safe (setup : Setup n) (producer : Fin n) {state : State n} :
    Safe ((discipline setup).contract (.memory producer)) ((discipline setup).label (.memory producer))
      (drainOldest producer) state := by
  apply Safe.store_bind
  rintro current - ⟨invariant, -, -⟩ -
  have same : SameGate current {current with
      words := Function.update current.words producer ((current.words producer).pop Words.apply)} :=
    ⟨rfl, rfl, rfl⟩
  obtain ⟨next, stays⟩ := invariant.update producer same
    (fun other different => by simp [different])
    (by simpa using (invariant.kept producer).pop)
    (fun _ settled => by simpa using settled.pop)
  exact ⟨next, ⟨fun _ _ => rfl, fun _ => ⟨same, stays⟩⟩, fun _ _ _ => trivial⟩

/-- The gate is closed and the fence has reached these producers. -/
def FencedExcept (remaining : List (Fin n)) (state : State n) : Prop :=
  state.registrationGate ≠ 0 ∧ state.waited = false ∧
    ∀ producer, producer ∉ remaining → state.fenced producer = true

theorem FencedExcept.interfere {remaining : List (Fin n)} {before after : State n}
    (fenced : FencedExcept remaining before) (same : SameGate before after) :
    FencedExcept remaining after := by
  obtain ⟨gate, flags, waited⟩ := same
  exact ⟨gate ▸ fenced.1, waited.trans fenced.2.1, fun producer reached => by
    rw [flags]
    exact fenced.2.2 producer reached⟩

/-- The heavy fence reaches every producer of its list. -/
theorem heavyFence_safe (setup : Setup n) (remaining : List (Fin n)) {state : State n}
    (fenced : FencedExcept remaining state) :
    Safe ((discipline setup).contract .registrant) (fun _ => FencedExcept []) (heavyFence remaining) state := by
  induction remaining generalizing state with
  | nil => exact fun last step _ => fenced.interfere step.1
  | cons producer rest ih =>
      apply Safe.store_bind
      rintro current step ⟨invariant, -, -⟩ -
      have fenced := fenced.interfere step.1
      refine ⟨⟨fun other => ?_, fun quiet => ?_⟩, ⟨fun _ _ => rfl, fun absurdly => absurd rfl absurdly⟩, ?_⟩
      · by_cases same : other = producer
        · subst same
          simpa using (invariant.kept other).fence
        · simpa [same] using invariant.kept other
      · exact absurd quiet (by simp [fenced.2.1])
      · apply ih
        refine ⟨fenced.1, fenced.2.1, fun other absent => ?_⟩
        by_cases same : other = producer
        · subst same
          simp
        · simpa [same] using fenced.2.2 other (by simp [same, absent])

/-- The registrant opens the gate. -/
theorem clearGate_step {setup : Setup n} {state : State n} (invariant : Invariant setup state) :
    Invariant setup state.clearGate ∧ (discipline setup).guarantee .registrant state state.clearGate :=
  ⟨⟨fun producer => (invariant.kept producer).regate 0, nofun⟩, fun _ _ => rfl, fun other => absurd rfl other⟩

theorem clearGate_safe (setup : Setup n) {state : State n} :
    Safe ((discipline setup).contract .registrant) ((discipline setup).label .registrant)
      ((Prog.store State.clearGate).bind fun _ => .ret .idle) state := by
  apply Safe.store_bind
  rintro current - ⟨invariant, -, -⟩ -
  obtain ⟨next, guaranteed⟩ := clearGate_step invariant
  refine ⟨next, guaranteed, ?_⟩
  rintro last ⟨⟨gate, fenced, -⟩, -⟩ -
  exact ⟨gate, fun producer => by rw [fenced]; rfl⟩

/-- The gate closes before any producer is fenced. -/
theorem closeGate_step {setup : Setup n} {state : State n} (invariant : Invariant setup state)
    (unfenced : ∀ producer, state.fenced producer = false) (unwaited : state.waited = false) (gate : Nat) :
    Invariant setup {state with registrationGate := gate} ∧
      (discipline setup).guarantee .registrant state {state with registrationGate := gate} := by
  refine ⟨⟨fun producer => ?_, fun quiet => ?_⟩, fun _ _ => rfl, fun other => absurd rfl other⟩
  · have kept := (invariant.kept producer).regate gate
    simpa [unfenced producer] using kept
  · exact absurd quiet (by simp [unwaited])

theorem register_safe (setup : Setup n) (fenceSucceeds : Bool) {state : State n}
    (opened : state.registrationGate = 0) (unfenced : ∀ producer, state.fenced producer = false) :
    Safe ((discipline setup).contract .registrant) ((discipline setup).label .registrant)
      (enterRegistrationBarrier setup fenceSucceeds) state := by
  apply Safe.store_bind
  rintro first ⟨⟨gateFirst, fencedFirst, -⟩, -⟩ ⟨invariant, -, -⟩ -
  have opened : first.registrationGate = 0 := gateFirst.trans opened
  have unfenced (producer : Fin n) : first.fenced producer = false := by rw [fencedFirst]; exact unfenced producer
  have unwaited : first.waited = false := by
    by_contra quiet
    exact (invariant.quiet (by simpa using quiet)).1 opened
  obtain ⟨next, guaranteed⟩ := closeGate_step invariant unfenced unwaited
    (makeToken 0 setup.registrantPid kPreparing)
  refine ⟨next, guaranteed, ?_⟩
  apply Safe.store_bind
  rintro second ⟨⟨-, fencedSecond, waitedSecond⟩, -⟩ ⟨invariant, -, -⟩ -
  have unfenced (producer : Fin n) : second.fenced producer = false := by rw [fencedSecond]; exact unfenced producer
  have unwaited : second.waited = false := waitedSecond.trans unwaited
  obtain ⟨next, guaranteed⟩ := closeGate_step invariant unfenced unwaited
    (makeToken 0 setup.registrantPid kActive)
  refine ⟨next, guaranteed, ?_⟩
  have closed : makeToken 0 setup.registrantPid kActive ≠ 0 :=
    makeToken_ne_zero _ _ (by decide) (by decide)
  split
  · rename_i seqCst
    rintro last ⟨⟨gate, -, -⟩, -⟩ -
    refine ⟨gate ▸ closed, fun producer light => ?_, fun producer absent => ?_⟩
    · simp [Setup.asymmetricClaimFence, seqCst] at light
    · exact absurd (List.mem_finRange producer) absent
  · split
    · have fenced : FencedExcept (List.finRange n)
          {second with registrationGate := makeToken 0 setup.registrantPid kActive} :=
        ⟨closed, unwaited, fun producer absent => absurd (List.mem_finRange producer) absent⟩
      simp only [Prog.bind_eq]
      apply Safe.bind (lawful setup _) (heavyFence_safe setup _ fenced)
      rintro - current - fenced last step -
      have fenced := fenced.interfere step.1
      exact ⟨fenced.1, fun producer _ => fenced.2.2 producer (by simp), fun producer absent =>
        absurd (List.mem_finRange producer) absent⟩
    · exact clearGate_safe setup

/-- Every orderly producer has been fenced or uses the sequentially consistent path. -/
theorem Invariant.orderly {setup : Setup n} {state : State n} (invariant : Invariant setup state)
    (closed : state.registrationGate ≠ 0) (producer : Fin n)
    (fenced : setup.asymmetricClaimFence producer = true → state.fenced producer = true) :
    Orderly (state.words producer) (state.stage producer) := by
  have kept := invariant.kept producer
  cases path : setup.asymmetricClaimFence producer with
  | true => exact kept.orderly closed (fenced path)
  | false =>
      rw [path] at kept
      exact kept.orderly_of_seqCst

theorem wait_safe (setup : Setup n) (remaining : List (Fin n)) {state : State n}
    (holds : (discipline setup).label .registrant (.waiting remaining) state) :
    Safe ((discipline setup).contract .registrant) ((discipline setup).label .registrant)
      (waitForClaims setup remaining) state := by
  have stable {remaining : List (Fin n)} {before after : State n}
      (holds : (discipline setup).label .registrant (.waiting remaining) before)
      (step : ((discipline setup).contract .registrant).rely before after) :
      (discipline setup).label .registrant (.waiting remaining) after := by
    obtain ⟨closed, fenced, settled⟩ := holds
    obtain ⟨⟨gate, flags, -⟩, stays⟩ := step
    exact ⟨gate ▸ closed, fun producer light => by rw [flags]; exact fenced producer light,
      fun producer absent => stays closed producer (settled producer absent)⟩
  cases remaining with
  | nil =>
      apply Safe.store_bind
      rintro current step ⟨invariant, -, -⟩ -
      obtain ⟨closed, -, settled⟩ := stable holds step
      refine ⟨⟨invariant.kept, fun _ => ⟨closed, fun producer => settled producer (by simp)⟩⟩,
        ⟨fun _ _ => rfl, fun other => absurd rfl other⟩, ?_⟩
      rintro last ⟨⟨gate, -, -⟩, -⟩ -
      exact fun opened => closed (gate.symm.trans opened)
  | cons producer rest =>
      apply Safe.load_bind (lawful setup _)
      rintro current step ⟨invariant, -, -⟩
      have holds := stable holds step
      obtain ⟨closed, fenced, settled⟩ := holds
      split
      · rename_i clear
        rintro last step -
        refine stable ⟨closed, fenced, fun other absent => ?_⟩ step
        by_cases same : other = producer
        · subst same
          exact (invariant.orderly closed other (fenced other)).settled clear
        · exact settled other (by simp [same, absent])
      · rw [if_pos (setup.live producer)]
        rintro last step -
        exact stable ⟨closed, fenced, settled⟩ step

theorem sound (setup : Setup n) : (discipline setup).Sound (system setup) fun _ _ _ _ => True where
  lawful := lawful setup
  compatible {actor observer _ _} different _ _ guaranteed := by
    cases observer with
    | producer producer => exact guaranteed.1 producer different
    | registrant => exact guaranteed.2 different
    | memory producer => exact trivial
  start {actor label request program state} begins _ _ _ holds := by
    match actor, label, request, begins with
    | .producer producer, .outside, .claim, begins =>
        cases begins
        exact claim_safe setup producer holds
    | .producer producer, .inside, .publishReservation _ _ _, begins =>
        cases begins
        exact publish_safe setup producer _ _ _ holds
    | .producer producer, .inside, .finish, begins =>
        cases begins
        exact finish_safe setup producer
    | .registrant, .idle, .register fenceSucceeds, begins =>
        cases begins
        exact register_safe setup fenceSucceeds holds.1 holds.2
    | .registrant, .waiting remaining, .poll, begins =>
        cases begins
        exact wait_safe setup remaining holds
    | .registrant, .registered, .clearGate, begins =>
        cases begins
        exact clearGate_safe setup
    | .memory producer, .memory, .drain, begins =>
        cases begins
        exact drain_safe setup producer

theorem begun (setup : Setup n) : (discipline setup).Initial initial := by
  have empty (producer : Fin n) : (initial.shared.words producer).buffer = [] := rfl
  refine ⟨⟨fun producer => ⟨rfl, rfl, fun _ => ⟨by simp [empty], fun _ => rfl⟩, nofun⟩, nofun⟩, fun actor => ?_⟩
  cases actor with
  | producer producer => exact fun last stage _ => Eq.trans stage rfl
  | registrant => exact fun last step _ => ⟨step.1.1, fun producer => by rw [step.1.2.1]; rfl⟩
  | memory producer => exact fun _ _ _ => trivial

/-- Every run respects the discipline. -/
theorem knows (setup : Setup n) : (discipline setup).Knows (system setup) (fun _ _ _ _ => True)
    (fun _ _ => True) initial where
  respects {_ event} _ := by cases event <;> simp [Discipline.Admits, discipline]
  known _ := trivial
  action _ _ _ := trivial
  rests _ _ _ := trivial

/-- From the end of the wait until the gate opens, no producer holds a guard and every reservation that was
written before is visible in memory. -/
theorem quiet_until_clear (setup : Setup n) (config : Config (State n) (Thread n) (Label n))
    (reached : (system setup).Reachable initial config) (waited : config.shared.waited = true)
    (producer : Fin n) :
    config.shared.stage producer ≠ .inside ∧
      (config.shared.words producer).memory.reservation = (config.shared.issued producer).reservation := by
  obtain ⟨invariant, -⟩ := (sound setup).run (begun setup) (knows setup) reached
  have settled := (invariant.quiet waited).2 producer
  exact ⟨settled.1, settled.visible.trans (congrArg _ (invariant.kept producer).viewed)⟩

/-- One producer uses the light path. -/
def oneProducer : Setup 1 where
  protocol := .kMembarrier
  publisherRegistered _ := true
  registrantPid := 7
  producerPid _ := 5
  producerProcessStart _ := 11
  isRegisteredProcessAlive pid start := pid == 5 && start == 11
  live _ := rfl

/-- The producer leaves its claim section with all writes in its buffer, and the fence drains them. -/
def registrationSchedule : List (Event (Thread 1) Request) :=
  [.start (.producer sole) .claim, .act (.producer sole), .act (.producer sole), .act (.producer sole),
    .start (.producer sole) (.publishReservation 64 1 1), .act (.producer sole), .act (.producer sole), .act (.producer sole),
    .start (.producer sole) .finish, .act (.producer sole),
    .start .registrant (.register true), .act .registrant, .act .registrant, .act .registrant,
    .start .registrant .poll, .act .registrant, .start .registrant .poll, .act .registrant]

/-- The registrant of this schedule sees the reservation of the producer. -/
theorem quiet_until_clear_registration : ∃ config, (system oneProducer).Reachable initial config ∧
    (config.shared.words 0).memory.reservation = (64, 1, 1) ∧
    config.shared.stage 0 ≠ .inside ∧
      (config.shared.words 0).memory.reservation = (config.shared.issued 0).reservation := by
  have ends : ((system oneProducer).exec initial registrationSchedule).map
      (fun config => (config.shared.waited, (config.shared.words 0).memory.reservation)) =
        some (true, (64, 1, 1)) := by
    rfl
  obtain ⟨final, executed, facts⟩ := Option.map_eq_some_iff.mp ends
  have reached := System.reachable_of_exec registrationSchedule .refl executed
  exact ⟨final, reached, congrArg Prod.snd facts,
    quiet_until_clear oneProducer final reached (congrArg Prod.fst facts) 0⟩

end Protocol
end Salias.ClaimHandshake
