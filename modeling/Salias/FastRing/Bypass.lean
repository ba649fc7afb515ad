import Salias.FastRing.Delivery
import Mathlib.Algebra.BigOperators.Group.Finset.Basic
import Mathlib.Algebra.BigOperators.Fin
import Mathlib.Algebra.Order.BigOperators.Group.Finset

/-
How often a consumer of many lanes passes a lane that has a message. The lane pointer and the rest of the batch
bound the messages that the other lanes still get.
-/

namespace Salias.FastRing.Bypass

open Concurrent FastRing

variable {p c : Nat}

/-- The lanes that a scan meets before it comes to a lane. -/
def distance (lanes start target : Nat) : Nat :=
  if start ≤ target then target - start else target + lanes - start

section Distance

variable {lanes start target scan : Nat}

theorem distance_lt (from_ : start < lanes) (below : target < lanes) : distance lanes start target < lanes := by
  unfold distance
  split <;> omega

/-- The positions of a scan. -/
theorem scan_mod (from_ : start < lanes) (within : scan < lanes) :
    (start + scan) % lanes = if start + scan < lanes then start + scan else start + scan - lanes := by
  split
  · exact Nat.mod_eq_of_lt ‹_›
  · rw [Nat.mod_eq_sub_mod (by omega), Nat.mod_eq_of_lt (by omega)]

theorem distance_scan (from_ : start < lanes) (below : target < lanes) (near : scan ≤ distance lanes start target) :
    distance lanes ((start + scan) % lanes) target = distance lanes start target - scan := by
  have within : scan < lanes := near.trans_lt (distance_lt from_ below)
  rw [scan_mod from_ within]
  unfold distance at near ⊢
  split at near
  · split
    · split <;> omega
    · omega
  · split
    · split <;> omega
    · split <;> omega

theorem scan_distance (from_ : start < lanes) (below : target < lanes) :
    (start + distance lanes start target) % lanes = target := by
  rw [scan_mod from_ (distance_lt from_ below)]
  unfold distance
  split
  · split <;> omega
  · split <;> omega

theorem distance_eq_zero (from_ : start < lanes) (zero : distance lanes start target = 0) : start = target := by
  unfold distance at zero
  split at zero <;> omega

end Distance

/-- The reads that a consumer has made in each lane. -/
abbrev Reads (p : Nat) := Fin p → List (Nat × List UInt8)

/-- What the handle of a consumer and its reads keep, when a scan takes the first lane that is readable while it
passes, a release ends the outstanding read, and a publication cleans a lane. -/
structure Pace (setup : Setup p c) (consumer : Fin c) (known : State p c → Prop) (renews : Prop)
    (holds : Consumer p → Reads p → Prop) : Prop where
  begins : ∀ handle reads scan read, scan < p → holds handle reads → handle.activeLane = none →
    (∀ earlier, earlier < scan → ∃ state, known state ∧ state.consumer consumer = handle ∧
      state.readable setup consumer (scannedLane setup handle.nextLane earlier) = false) →
    holds {handle.entersBatch setup with activeLane := some (scannedLane setup handle.nextLane scan)}
      (Function.update reads (scannedLane setup handle.nextLane scan)
        (reads (scannedLane setup handle.nextLane scan) ++ [read]))
  ends : ∀ handle reads lane, holds handle reads → handle.activeLane = some lane →
    holds (handle.releasedLane lane) reads
  cleans : ∀ handle reads dirty, holds handle reads → holds {handle with dirty := dirty} reads
  renewed : renews → ∀ handle reads, holds handle reads → holds {} reads

section Discipline

variable {setup : Setup p c} {consumer : Fin c} {known : State p c → Prop} {renews : Prop}
  {holds : Consumer p → Reads p → Prop}

/-- The handle and the reads of the consumer. -/
def SameSide (consumer : Fin c) (before after : State p c) : Prop :=
  after.consumer consumer = before.consumer consumer ∧ after.reads consumer = before.reads consumer

def rely (consumer : Fin c) (thread : Thread p c) (before after : State p c) : Prop :=
  thread = .consumer consumer → SameSide consumer before after

def guarantee (consumer : Fin c) (thread : Thread p c) (before after : State p c) : Prop :=
  thread ≠ .consumer consumer → SameSide consumer before after

def discipline (consumer : Fin c) (known : State p c → Prop) (holds : Consumer p → Reads p → Prop) :
    Discipline (State p c) (Thread p c) (Label p) where
  invariant state := holds (state.consumer consumer) (state.reads consumer)
  known := known
  may _ _ := True
  rely := rely consumer
  guarantee := guarantee consumer
  label _ _ _ := True

theorem SameSide.refl (consumer : Fin c) (state : State p c) : SameSide consumer state state := ⟨rfl, rfl⟩

theorem SameSide.trans {first second third : State p c} (one : SameSide consumer first second)
    (two : SameSide consumer second third) : SameSide consumer first third :=
  ⟨two.1.trans one.1, two.2.trans one.2⟩

theorem lawful (consumer : Fin c) (known : State p c → Prop) (holds : Consumer p → Reads p → Prop)
    (thread : Thread p c) : ((discipline consumer known holds).contract thread).Lawful where
  refl state _ := .refl consumer state
  trans earlier later own := (earlier own).trans (later own)
  idle state _ := .refl consumer state
  stays _ _ := trivial

/-- The calls of the other sides. -/
theorem other_safe {α : Type} {thread : Thread p c} {program : Prog (State p c) α} (each : Each (SameSide consumer) program) {state : State p c} :
    Safe ((discipline consumer known holds).contract thread) (fun _ _ => True) program state :=
  Safe.of_each (I := fun _ => True) each (fun {before after} ready _ change _ => by
    refine ⟨?_, fun _ => change, trivial⟩
    change holds (after.consumer consumer) (after.reads consumer)
    rw [change.1, change.2]
    exact ready.keeps) (fun _ _ _ => trivial) trivial

section Others

theorem each_load {α : Type} (consumer : Fin c) (read : State p c → α) : Each (SameSide consumer) (Prog.load read) :=
  .load (SameSide.refl consumer) read

theorem each_setProducer (consumer : Fin c) (lane : Fin p) (change : Producer → Producer) :
    Each (SameSide consumer) (setProducer lane change) := .store fun _ => ⟨rfl, rfl⟩

theorem each_tryClaim (setup : Setup p c) (consumer : Fin c) (lane : Fin p) :
    Each (SameSide consumer) (tryClaim setup lane) := by
  have opens : Each (SameSide consumer) (openClaim lane) := .bind (each_setProducer consumer lane _) fun _ => .ret _
  have refreshes : Each (SameSide consumer) (refreshCache setup lane) := by
    unfold refreshCache
    split
    · refine .bind (.foldUntil (fun slowest other => ?_) _ _) fun _ => .ret _
      exact .bind (each_load consumer _) fun _ => .ret _
    · exact each_load consumer _
  refine .bind (each_load consumer _) fun handle => ?_
  split
  · exact .ret _
  · split
    · refine .bind refreshes fun cache => .bind (each_setProducer consumer lane _) fun _ => ?_
      split
      · exact .ret _
      · exact opens
    · exact opens

theorem each_commit (setup : Setup p c) (consumer : Fin c) (lane : Fin p) :
    Each (SameSide consumer) (commit setup lane) := by
  refine .bind (each_load consumer _) fun handle => ?_
  split
  · exact .bind (.store fun _ => ⟨rfl, rfl⟩) fun _ => .ret _
  · exact .ret _

theorem each_writePayload (setup : Setup p c) (consumer : Fin c) (lane : Fin p) (offset : Nat) (data : List UInt8) :
    Each (SameSide consumer) (writePayload setup lane offset data) := by
  refine .store fun state => ?_
  dsimp only
  split
  · exact ⟨rfl, rfl⟩
  · exact ⟨rfl, rfl⟩

variable {other : Fin c} (different : other ≠ consumer)

include different

theorem each_readSlot (begins : Consumer p → Consumer p) (lane : Fin p) :
    Each (SameSide consumer) (readSlot setup begins other lane) := by
  refine .modifyGet (fun state => ?_) _
  dsimp only
  split
  · exact ⟨Function.update_of_ne different.symm _ _, Function.update_of_ne different.symm _ _⟩
  · exact .refl consumer state

theorem each_tryRead (setup : Setup p c) : Each (SameSide consumer) (tryRead setup other) := by
  unfold tryRead
  split
  · refine .bind (each_load consumer _) fun handle => ?_
    split
    · exact .ret _
    · refine .bind (.foldUntil (fun _ scan => ?_) _ _) fun _ => .ret _
      exact .bind (each_readSlot different _ _) fun _ => .ret _
  · refine .bind (each_load consumer _) fun handle => ?_
    split
    · exact .ret _
    · exact .bind (each_readSlot different _ _) fun _ => .ret _

theorem each_publishConsumed (lane : Fin p) : Each (SameSide consumer) (publishConsumed other lane) :=
  .store fun _ => ⟨Function.update_of_ne different.symm _ _, rfl⟩

theorem each_release (setup : Setup p c) (publish : Bool) :
    Each (SameSide consumer) (release setup other publish) := by
  refine .bind (each_load consumer _) fun handle => ?_
  split
  · exact .ret _
  · refine .bind (.store fun _ => ⟨Function.update_of_ne different.symm _ _, rfl⟩) fun _ => ?_
    exact .bind (.when (each_publishConsumed different _)) fun _ => .ret _

theorem each_flushRelease (setup : Setup p c) : Each (SameSide consumer) (flushRelease setup other) := by
  unfold flushRelease
  split
  · refine .bind (each_load consumer _) fun handle => ?_
    split
    · exact .ret _
    · refine .bind (.forEach (fun lane => ?_) _) fun _ => .ret _
      exact .bind (each_load consumer _) fun _ => .when (each_publishConsumed different lane)
  · refine .bind (each_load consumer _) fun handle => ?_
    split
    · exact .ret _
    · exact .bind (each_publishConsumed different _) fun _ => .ret _

theorem each_createConsumer (setup : Setup p c) : Each (SameSide consumer) (createConsumer setup other) :=
  .store fun _ => ⟨Function.update_of_ne different.symm _ _, rfl⟩

end Others

section Own

variable (pace : Pace setup consumer known renews holds) {state : State p c}

/-- The contract of the consumer itself. -/
abbrev own (consumer : Fin c) (known : State p c → Prop) (holds : Consumer p → Reads p → Prop) :
    Contract (State p c) := (discipline consumer known holds).contract (.consumer consumer)

include pace

/-- The lanes that a scan has passed were not readable when it passed them. -/
def Passed (setup : Setup p c) (consumer : Fin c) (known : State p c → Prop) (handle : Consumer p)
    (remaining : List Nat) (state : State p c) : Prop :=
  state.consumer consumer = handle ∧ ∃ scan, remaining = (List.range p).drop scan ∧
    ∀ earlier, earlier < scan → ∃ former, known former ∧ former.consumer consumer = handle ∧
      former.readable setup consumer (scannedLane setup handle.nextLane earlier) = false

omit pace in
theorem Passed.stable {handle : Consumer p} {remaining : List Nat} {later : State p c}
    (passed : Passed setup consumer known handle remaining state) (between : rely consumer (.consumer consumer) state later) :
    Passed setup consumer known handle remaining later :=
  ⟨(between rfl).1.trans passed.1, passed.2⟩

theorem scanRound_safe {handle : Consumer p} (idle : handle.activeLane = none) {scan : Nat} {rest : List Nat}
    (passed : Passed setup consumer known handle (scan :: rest) state) :
    Safe (own consumer known holds) (fun result later => match result with
      | .inl _ => Passed setup consumer known handle rest later
      | .inr _ => True) (scanRound setup consumer handle.nextLane () scan) state := by
  obtain ⟨handles, index, suffix, silent⟩ := passed
  have below : index < p := by
    by_contra beyond
    rw [List.drop_eq_nil_of_le (by simpa using beyond)] at suffix
    cases suffix
  rw [List.drop_eq_getElem_cons (by simpa using below), List.getElem_range] at suffix
  obtain ⟨rfl, rfl⟩ := List.cons.inj suffix
  refine Safe.modifyGet_bind fun current between ready _ => ?_
  have same : current.consumer consumer = handle := (between rfl).1.trans handles
  by_cases readable : current.readable setup consumer (scannedLane setup handle.nextLane scan) = true
  · simp only [readable, if_true]
    refine ⟨?_, fun never => absurd rfl never, fun _ _ _ => trivial⟩
    have keeps := ready.keeps
    change holds (current.consumer consumer) (current.reads consumer) at keeps
    rw [same] at keeps
    have begun := pace.begins handle (current.reads consumer) scan
      (handle.consumed (scannedLane setup handle.nextLane scan),
        ((current.lane (scannedLane setup handle.nextLane scan)).slot (setup.slotIndex
          (handle.consumed (scannedLane setup handle.nextLane scan)))).payload) below keeps idle silent
    simpa [discipline, Discipline.contract, State.note, State.setConsumer, same] using begun
  · have quiet : current.readable setup consumer (scannedLane setup handle.nextLane scan) = false := by
      simpa using readable
    simp only [quiet, Bool.false_eq_true, if_false]
    refine ⟨ready.keeps, fun never => absurd rfl never, fun later further _ => ?_⟩
    refine ⟨(further rfl).1.trans same, scan + 1, rfl, fun earlier before => ?_⟩
    rcases Nat.lt_succ_iff_lt_or_eq.mp before with older | rfl
    · exact silent earlier older
    · exact ⟨current, ready.knows, same, quiet⟩

theorem tryRead_safe (many : setup.topology.manyLanes = true) :
    Safe (own consumer known holds) (fun _ _ => True) (tryRead setup consumer) state := by
  have law := lawful consumer known holds (.consumer consumer)
  unfold tryRead
  rw [if_pos many]
  refine Safe.load_bind law fun current between _ => ?_
  split
  · exact fun _ _ _ => trivial
  · rename_i nothing
    have idle : (current.consumer consumer).activeLane = none := by simpa using nothing
    refine Safe.bind law (Safe.foldUntil law
      (I := fun rest _ later => Passed setup consumer known (current.consumer consumer) rest later)
      (S := fun _ _ => True) (fun further _ passed => passed.stable further)
      (fun scan rest _ later passed => (scanRound_safe pace idle passed).weaken fun result _ _ reached => ?_)
      (fun _ _ _ => trivial) ⟨rfl, 0, rfl, fun _ before => absurd before (Nat.not_lt_zero _)⟩) fun _ _ _ _ => ?_
    · cases result with
      | inl _ => exact reached
      | inr _ => trivial
    · exact fun _ _ _ => trivial

theorem publishConsumed_safe (lane : Fin p) :
    Safe (own consumer known holds) (fun _ _ => True) (publishConsumed consumer lane) state := by
  refine Safe.store fun current _ ready => ⟨?_, fun never => absurd rfl never⟩
  have cleaned := pace.cleans _ _ (Function.update (current.consumer consumer).dirty lane false) ready.keeps
  simpa [discipline, Discipline.contract, State.setLane, State.setConsumer] using cleaned

theorem release_safe (many : setup.topology.manyLanes = true) {publish : Bool} :
    Safe (own consumer known holds) (fun _ _ => True) (release setup consumer publish) state := by
  have law := lawful consumer known holds (.consumer consumer)
  refine Safe.load_bind law fun current between _ => ?_
  cases active : (current.consumer consumer).activeLane with
  | none => exact fun _ _ _ => trivial
  | some lane =>
      refine Safe.store_bind fun second further ready _ => ⟨?_, fun never => absurd rfl never, ?_⟩
      · have still : (second.consumer consumer).activeLane = some lane := by
          rw [(further rfl).1]
          exact active
        have ended := pace.ends _ _ lane ready.keeps still
        simpa [discipline, Discipline.contract, State.setConsumer, many] using ended
      · refine Safe.bind (M := fun _ _ => True) law ?_ fun _ _ _ _ => fun _ _ _ => trivial
        unfold Prog.when
        split
        · exact publishConsumed_safe pace lane
        · exact fun _ _ _ => trivial

theorem flushRelease_safe (many : setup.topology.manyLanes = true) :
    Safe (own consumer known holds) (fun _ _ => True) (flushRelease setup consumer) state := by
  have law := lawful consumer known holds (.consumer consumer)
  unfold flushRelease
  rw [if_pos many]
  refine Safe.load_bind law fun current between _ => ?_
  split
  · exact fun _ _ _ => trivial
  · refine Safe.bind law (Safe.forEach law (I := fun _ _ => True) (fun _ _ _ => trivial) (fun lane _ _ _ => ?_)
      trivial) fun _ _ _ _ => fun _ _ _ => trivial
    refine Safe.load_bind law fun second _ _ => ?_
    unfold Prog.when
    split
    · exact publishConsumed_safe pace lane
    · exact fun _ _ _ => trivial

theorem createConsumer_safe (many : setup.topology.manyLanes = true) (renewal : renews) :
    Safe (own consumer known holds) (fun _ _ => True) (createConsumer setup consumer) state := by
  refine Safe.store fun current _ ready => ⟨?_, fun never => absurd rfl never⟩
  have fresh := pace.renewed renewal _ _ ready.keeps
  simpa [discipline, Discipline.contract, State.setConsumer, recreated, many] using fresh

end Own

/-- A handle is made anew only where the facts allow it. -/
def MayStart (consumer : Fin c) (renews : Prop) (_ : State p c) (thread : Thread p c) (_ : Label p)
    (request : Request) : Prop :=
  thread = .consumer consumer → request = .createConsumer → renews

theorem sound (pace : Pace setup consumer known renews holds) (many : setup.topology.manyLanes = true) :
    (discipline consumer known holds).Sound (system setup) (MayStart consumer renews) where
  lawful := lawful consumer known holds
  compatible {actor observer before after} different _ _ step := by
    rintro rfl
    exact step different
  start {thread label request program state} begins may _ _ _ := by
    have returned {thread : Thread p c} {α : Type} {program : Prog (State p c) α} {answer : α → Label p}
        (safe : Safe ((discipline consumer known holds).contract thread) (fun _ _ => True) program state) :
        Safe ((discipline consumer known holds).contract thread) (fun _ _ => True)
          (program.bind fun result => .ret (answer result)) state :=
      Safe.bind (lawful consumer known holds thread) safe fun _ _ _ _ => fun _ _ _ => trivial
    match thread, label, request, begins with
    | .producer lane, _, .tryClaim, begins =>
        obtain rfl := Option.some.inj begins
        exact returned (other_safe (each_tryClaim setup consumer lane))
    | .producer lane, _, .write offset data, begins =>
        obtain rfl := Option.some.inj begins
        exact returned (other_safe (each_writePayload setup consumer lane offset data))
    | .producer lane, _, .commit, begins =>
        obtain rfl := Option.some.inj begins
        exact returned (other_safe (each_commit setup consumer lane))
    | .consumer index, _, .tryRead, begins =>
        obtain rfl := Option.some.inj begins
        by_cases mine : index = consumer
        · subst mine
          exact returned (tryRead_safe pace many)
        · exact returned (other_safe (each_tryRead mine setup))
    | .consumer index, _, .release publish, begins =>
        obtain rfl := Option.some.inj begins
        by_cases mine : index = consumer
        · subst mine
          exact returned (release_safe pace many)
        · exact returned (other_safe (each_release mine setup publish))
    | .consumer index, _, .flushRelease, begins =>
        obtain rfl := Option.some.inj begins
        by_cases mine : index = consumer
        · subst mine
          exact returned (flushRelease_safe pace many)
        · exact returned (other_safe (each_flushRelease mine setup))
    | .consumer index, _, .createConsumer, begins =>
        obtain rfl := Option.some.inj begins
        by_cases mine : index = consumer
        · subst mine
          exact returned (createConsumer_safe pace many (may rfl rfl))
        · exact returned (other_safe (each_createConsumer mine setup))

end Discipline

variable {setup : Setup p c}

theorem kLaneBatch_eq (setup : Setup p c) : setup.kLaneBatch = min setup.capacity 64 := by
  unfold Setup.kLaneBatch
  split
  · omega
  · omega

theorem kLaneBatch_pos (setup : Setup p c) : 0 < setup.kLaneBatch := by
  have slots := setup.slots
  rw [kLaneBatch_eq]
  omega

/-- The members of a handle stay in their ranges, and an outstanding read belongs to a batch. -/
structure Formed (setup : Setup p c) (handle : Consumer p) : Prop where
  next : handle.nextLane < p
  batch : handle.remainingLaneBatch ≤ setup.kLaneBatch
  reading : handle.activeLane ≠ none → 0 < handle.remainingLaneBatch

theorem Formed.enters {handle : Consumer p} (formed : Formed setup handle) (lane : Fin p) :
    Formed setup {handle.entersBatch setup with activeLane := some lane} := by
  have positive := kLaneBatch_pos setup
  have batch := formed.batch
  refine ⟨formed.next, ?_, fun _ => ?_⟩
  · simp only [Consumer.entersBatch]
    split <;> omega
  · simp only [Consumer.entersBatch]
    split <;> omega

theorem Formed.releases {handle : Consumer p} (formed : Formed setup handle) (lane : Fin p) :
    Formed setup (handle.releasedLane lane) := by
  have batch := formed.batch
  refine ⟨?_, ?_, fun reading => absurd rfl reading⟩
  · simp only [Consumer.releasedLane]
    split
    · exact Nat.mod_lt _ setup.producers
    · exact lane.isLt
  · simp only [Consumer.releasedLane]
    omega

theorem formed_pace (setup : Setup p c) (consumer : Fin c) :
    Pace setup consumer (fun _ => True) True fun handle _ => Formed setup handle where
  begins _ _ _ _ _ formed _ _ := formed.enters _
  ends _ _ lane formed _ := formed.releases lane
  cleans _ _ _ formed := ⟨formed.next, formed.batch, formed.reading⟩
  renewed _ _ _ _ := ⟨setup.producers, Nat.zero_le _, fun reading => absurd rfl reading⟩

/-- The messages that the other lanes may still get before the next one of a lane. -/
def allowance (setup : Setup p c) (target : Fin p) (handle : Consumer p) : Nat :=
  match handle.activeLane with
  | some lane =>
      if lane = target then (p - 1) * setup.kLaneBatch
      else (distance p lane target - 1) * setup.kLaneBatch + handle.remainingLaneBatch
  | none =>
      let lanes := distance p handle.nextLane target
      if lanes = 0 then 0
      else if handle.remainingLaneBatch = 0 then lanes * setup.kLaneBatch
      else (lanes - 1) * setup.kLaneBatch + handle.remainingLaneBatch

/-- The messages of the other lanes that the consumer has released. -/
def passed (target : Fin p) (handle : Consumer p) : Nat := ∑ lane ∈ Finset.univ.erase target, handle.consumed lane

/-- One batch and the batches of the lanes between do not exceed those of all lanes. -/
theorem batches_le {lanes number batch rest : Nat} (some : number ≠ 0) (below : number < lanes) (fits : rest ≤ batch) :
    (number - 1) * batch + rest ≤ (lanes - 1) * batch := by
  have step : (number - 1) * batch + batch = number * batch := by
    obtain ⟨less, rfl⟩ := Nat.exists_eq_succ_of_ne_zero some
    rw [Nat.succ_sub_one, Nat.succ_mul]
  have whole : number * batch ≤ (lanes - 1) * batch := Nat.mul_le_mul_right _ (by omega)
  omega

theorem allowance_le {handle : Consumer p} (formed : Formed setup handle) (target : Fin p) :
    allowance setup target handle ≤ (p - 1) * setup.kLaneBatch := by
  unfold allowance
  cases active : handle.activeLane with
  | some lane =>
      dsimp only
      split
      · exact le_rfl
      · rename_i other
        have away : distance p lane target ≠ 0 := fun zero => other (Fin.ext (distance_eq_zero lane.isLt zero))
        exact batches_le away (distance_lt lane.isLt target.isLt) formed.batch
  | none =>
      have near := distance_lt formed.next target.isLt
      dsimp only
      split
      · exact Nat.zero_le _
      · rename_i away
        split
        · exact Nat.mul_le_mul_right _ (by omega)
        · exact batches_le away near formed.batch

/-- A read of another lane on the way uses the allowance. -/
theorem allowance_enters {handle : Consumer p} (idle : handle.activeLane = none) (formed : Formed setup handle)
    {target : Fin p} {scan : Nat} (before : scan < distance p handle.nextLane target) :
    scannedLane setup handle.nextLane scan ≠ target ∧
      allowance setup target {handle.entersBatch setup with
        activeLane := some (scannedLane setup handle.nextLane scan)} ≤ allowance setup target handle := by
  have near := distance_scan formed.next target.isLt before.le
  have other : scannedLane setup handle.nextLane scan ≠ target := by
    intro same
    have value : (handle.nextLane + scan) % p = target := congrArg Fin.val same
    have zero : distance p target target = 0 := by simp [distance]
    rw [value, zero] at near
    omega
  refine ⟨other, ?_⟩
  have lanes : distance p (scannedLane setup handle.nextLane scan) target =
      distance p handle.nextLane target - scan := near
  simp only [allowance, idle, if_neg other, lanes, Consumer.entersBatch, if_neg (show
    distance p handle.nextLane target ≠ 0 by omega)]
  generalize distance p handle.nextLane target = number at before ⊢
  have fewer : (number - scan - 1) * setup.kLaneBatch ≤ (number - 1) * setup.kLaneBatch :=
    Nat.mul_le_mul_right _ (by omega)
  by_cases fresh : handle.remainingLaneBatch = 0
  · rw [if_pos fresh, if_pos fresh]
    have step : (number - 1) * setup.kLaneBatch + setup.kLaneBatch = number * setup.kLaneBatch := by
      obtain ⟨less, rfl⟩ := Nat.exists_eq_succ_of_ne_zero (show number ≠ 0 by omega)
      rw [Nat.succ_sub_one, Nat.succ_mul]
    omega
  · rw [if_neg fresh, if_neg fresh]
    omega

/-- A release of another lane pays one of the allowance. -/
theorem allowance_releases {handle : Consumer p} (formed : Formed setup handle) {lane target : Fin p}
    (active : handle.activeLane = some lane) (other : lane ≠ target) :
    allowance setup target (handle.releasedLane lane) + 1 ≤ allowance setup target handle := by
  have positive := formed.reading (by simp [active])
  have away : distance p lane target ≠ 0 := fun zero => other (Fin.ext (distance_eq_zero lane.isLt zero))
  have near := distance_scan lane.isLt target.isLt (show 1 ≤ distance p lane target by omega)
  have idle : (handle.releasedLane lane).activeLane = none := rfl
  by_cases last : handle.remainingLaneBatch - 1 = 0
  · have next : (handle.releasedLane lane).nextLane = (lane.val + 1) % p := by simp [Consumer.releasedLane, last]
    have rest : (handle.releasedLane lane).remainingLaneBatch = 0 := last
    simp only [allowance, active, idle, if_neg other, next, rest, near]
    split
    · omega
    · simp only [if_true]
      omega
  · have next : (handle.releasedLane lane).nextLane = lane.val := by simp [Consumer.releasedLane, last]
    have rest : (handle.releasedLane lane).remainingLaneBatch = handle.remainingLaneBatch - 1 := rfl
    simp only [allowance, active, idle, if_neg other, next, rest, if_neg away, if_neg last]
    omega

theorem passed_releases (handle : Consumer p) (lane target : Fin p) :
    passed target (handle.releasedLane lane) = passed target handle + if lane = target then 0 else 1 := by
  have consumed : (handle.releasedLane lane).consumed =
      Function.update handle.consumed lane (handle.consumed lane + 1) := rfl
  simp only [passed, consumed]
  by_cases same : lane = target
  · rw [if_pos same, Nat.add_zero]
    refine Finset.sum_congr rfl fun other member => ?_
    have different : other ≠ lane := same ▸ Finset.ne_of_mem_erase member
    rw [Function.update_of_ne different]
  · rw [if_neg same]
    have member : lane ∈ Finset.univ.erase target := Finset.mem_erase.mpr ⟨same, Finset.mem_univ lane⟩
    rw [Finset.sum_update_of_mem member, ← Finset.add_sum_erase _ _ member, Finset.sdiff_singleton_eq_erase]
    omega

/-- A message of the lane has been read, or the released messages and the allowance stay in the bound. -/
structure Within (setup : Setup p c) (target : Fin p) (count bound : Nat) (handle : Consumer p) (reads : Reads p) :
    Prop where
  formed : Formed setup handle
  least : count ≤ (reads target).length
  either : count < (reads target).length ∨ passed target handle + allowance setup target handle ≤ bound

/-- As long as the lane is readable, the consumer keeps to the bound. -/
theorem within_pace (setup : Setup p c) (consumer : Fin c) (target : Fin p) (count bound : Nat) :
    Pace setup consumer (fun state => state.readable setup consumer target = true) False
      (Within setup target count bound) where
  begins handle reads scan read below within idle silent := by
    have formed := within.formed
    -- the scan does not pass the lane
    have near : scan ≤ distance p handle.nextLane target := by
      by_contra beyond
      obtain ⟨state, readable, -, quiet⟩ := silent _ (not_le.mp beyond)
      have same : scannedLane setup handle.nextLane (distance p handle.nextLane target) = target :=
        Fin.ext (scan_distance formed.next target.isLt)
      rw [same, readable] at quiet
      cases quiet
    by_cases mine : target = scannedLane setup handle.nextLane scan
    · have more : count < (Function.update reads (scannedLane setup handle.nextLane scan)
          (reads (scannedLane setup handle.nextLane scan) ++ [read]) target).length := by
        rw [← mine, Function.update_self, List.length_append]
        exact Nat.lt_succ_of_le within.least
      exact ⟨formed.enters _, more.le, .inl more⟩
    · have before : scan < distance p handle.nextLane target := by
        refine near.lt_of_ne fun last => mine (Fin.ext ?_)
        rw [last]
        exact (scan_distance formed.next target.isLt).symm
      obtain ⟨-, less⟩ := allowance_enters idle formed before
      refine ⟨formed.enters _, ?_, ?_⟩
      · rw [Function.update_of_ne mine]
        exact within.least
      · rw [Function.update_of_ne mine]
        exact within.either.imp_right fun bounded => (Nat.add_le_add_left less _).trans bounded
  ends handle reads lane within active := by
    have formed := within.formed
    refine ⟨formed.releases lane, within.least, within.either.imp_right fun bounded => ?_⟩
    rw [passed_releases]
    by_cases same : lane = target
    · have whole : allowance setup target handle = (p - 1) * setup.kLaneBatch := by
        simp only [allowance, active, if_pos same]
      have most := allowance_le (formed.releases lane) target
      rw [if_pos same]
      omega
    · have paid := allowance_releases formed active same
      rw [if_neg same]
      omega
  cleans handle reads dirty within :=
    ⟨⟨within.formed.next, within.formed.batch, within.formed.reading⟩, within.least, within.either⟩
  renewed never := never.elim

section Runs

variable {consumer : Fin c} {config final : Config (State p c) (Thread p c) (Label p)} {lane : Fin p}

/-- After the event the lane offers a message to the consumer, whose handle is not made anew. -/
def Offering (setup : Setup p c) (consumer : Fin c) (lane : Fin p) (config : Config (State p c) (Thread p c) (Label p))
    (event : Event (Thread p c) Request) : Prop :=
  (∀ after, (system setup).step config event = some after → after.shared.readable setup consumer lane = true) ∧
    event ≠ .start (.consumer consumer) .createConsumer

variable (consumer) in
/-- In every reachable state the handles are formed, and all sides are safe. -/
theorem formed_of_reachable (many : setup.topology.manyLanes = true)
    (reached : (system setup).Reachable (initial setup) config) :
    (discipline consumer (fun _ => True) fun handle _ => Formed setup handle).Initial config := by
  have begun : (discipline consumer (fun _ => True) fun handle _ => Formed setup handle).Initial (initial setup) :=
    ⟨⟨setup.producers, Nat.zero_le _, fun reading => absurd rfl reading⟩, fun _ _ _ _ => trivial⟩
  refine (sound (formed_pace setup consumer) many).run begun ?_ reached
  refine ⟨fun {config event} _ => ?_, fun _ => trivial, fun _ _ _ => trivial, fun _ _ _ => trivial⟩
  cases event with
  | start thread request => exact fun _ _ _ _ => trivial
  | act thread => trivial

/-- While a lane offers a message and none of its messages is read, a consumer between two calls reads and releases
at most one batch of every other lane. -/
theorem bounded_bypass (many : setup.topology.manyLanes = true)
    (reached : (system setup).Reachable (initial setup) config) {label : Label p}
    (rests : config.thread (.consumer consumer) = .ret label)
    (offers : config.shared.readable setup consumer lane = true)
    (run : (system setup).Run (Offering setup consumer lane) config final)
    (unread : final.shared.reads consumer lane = config.shared.reads consumer lane) :
    passed lane (final.shared.consumer consumer) ≤
      passed lane (config.shared.consumer consumer) + (p - 1) * min setup.capacity 64 := by
  obtain ⟨formed, safe⟩ := formed_of_reachable consumer many reached
  have pace := within_pace setup consumer lane (config.shared.reads consumer lane).length
    (passed lane (config.shared.consumer consumer) + (p - 1) * setup.kLaneBatch)
  have begun : (discipline consumer (fun state => state.readable setup consumer lane = true) (Within setup lane
      (config.shared.reads consumer lane).length
      (passed lane (config.shared.consumer consumer) + (p - 1) * setup.kLaneBatch))).Initial config := by
    refine ⟨⟨formed, le_rfl, .inr (Nat.add_le_add_left (allowance_le formed lane) _)⟩, fun thread => ?_⟩
    by_cases own : thread = .consumer consumer
    · rw [own, rests]
      exact fun _ _ _ => trivial
    · refine (safe thread).narrow (fun between => between) (fun ready => ⟨ready.keeps.formed, trivial, trivial⟩)
        (fun _ _ => trivial) fun {before after} ready _ promise => ⟨?_, promise⟩
      have same := promise own
      change Within setup lane _ _ (after.consumer consumer) (after.reads consumer)
      rw [same.1, same.2]
      exact ready.keeps
  have known {config_ : Config (State p c) (Thread p c) (Label p)}
      (run : (system setup).Run (Offering setup consumer lane) config config_) :
      config_.shared.readable setup consumer lane = true := by
    cases run with
    | refl => exact offers
    | step event _ admitted taken => exact admitted.1 _ taken
  have kept := ((sound pace many).run begun ⟨fun {before event} admitted => ?_, known, fun _ _ _ => trivial,
    fun _ _ _ => trivial⟩ run).1
  · rw [← kLaneBatch_eq]
    rcases kept.either with more | bounded
    · rw [unread] at more
      exact absurd more (lt_irrefl _)
    · exact (Nat.le_add_right _ _).trans bounded
  · cases event with
    | start thread request =>
        intro label _ own renewal
        subst own renewal
        exact admitted.2 rfl
    | act thread => trivial

end Runs

section Schedules

/-- Two lanes of two slots and one consumer. -/
def twoLanes : Setup 2 1 where
  topology := .mpsc
  payloadSize := 1
  capacity := 2
  payload := Nat.one_pos
  slots := (smallRing .mpsc).slots
  singleBit := (smallRing .mpsc).singleBit
  producers := Nat.two_pos
  consumers := Nat.one_pos
  oneLane := nofun
  oneConsumer _ := rfl

def offeringAfter (config : Config (State 2 1) (Thread 2 1) (Label 2)) (event : Event (Thread 2 1) Request) : Bool :=
  (((system twoLanes).step config event).all fun after => after.shared.readable twoLanes sole 1) &&
    match event with
    | .start _ .createConsumer => false
    | _ => true

theorem offeringAfter_passes (config : Config (State 2 1) (Thread 2 1) (Label 2)) (event : Event (Thread 2 1) Request)
    (passes : offeringAfter config event = true) : Offering twoLanes 0 1 config event := by
  obtain ⟨kept, other⟩ := Bool.and_eq_true_iff.mp passes
  refine ⟨fun after taken => ?_, ?_⟩
  · rw [taken] at kept
    exact kept
  · rintro rfl
    cases other

/-- The consumer reads both messages of the first lane before that of the second. -/
def hotLane : List (Event (Thread 2 1) Request) :=
  (List.replicate 2 [.start (.consumer sole) .tryRead, .act (.consumer sole), .act (.consumer sole),
    .start (.consumer sole) (.release true), .act (.consumer sole), .act (.consumer sole), .act (.consumer sole)]).flatten

theorem bounded_bypass_hotLane : ∃ config final : Config (State 2 1) (Thread 2 1) (Label 2),
    passed 1 (config.shared.consumer 0) = 0 ∧ passed 1 (final.shared.consumer 0) = 2 ∧
      passed 1 (final.shared.consumer 0) ≤ passed 1 (config.shared.consumer 0) + (2 - 1) * min twoLanes.capacity 64 := by
  have executed : (((system twoLanes).calls (initial twoLanes) [(.producer 0, .tryClaim), (.producer 0, .commit),
      (.producer 0, .tryClaim), (.producer 0, .commit), (.producer 1, .tryClaim), (.producer 1, .commit)]).bind
      fun config => ((system twoLanes).execChecked offeringAfter config hotLane).map fun final =>
        (config, final)).any (fun found => found.1.shared.readable twoLanes 0 1 &&
          ((found.1.thread (.consumer 0)).value.isSome && (decide (passed 1 (found.1.shared.consumer 0) = 0) &&
          (decide (passed 1 (found.2.shared.consumer 0) = 2) &&
          decide (found.2.shared.reads 0 1 = found.1.shared.reads 0 1))))) = true := by
    decide
  obtain ⟨⟨config, final⟩, found, facts⟩ := (Option.any_eq_true _ _).mp executed
  simp only [Bool.and_eq_true, decide_eq_true_eq] at facts
  obtain ⟨offers, rests, before, after, unread⟩ := facts
  obtain ⟨start, called, finished⟩ := Option.bind_eq_some_iff.mp found
  obtain ⟨last, taken, same⟩ := Option.map_eq_some_iff.mp finished
  obtain ⟨rfl, rfl⟩ := Prod.mk.inj same
  obtain ⟨label, ended⟩ := Option.isSome_iff_exists.mp rests
  have reached : (system twoLanes).Reachable (initial twoLanes) start :=
    System.Run.calls (fun _ _ _ => trivial) (fun _ _ _ => trivial) .refl called
  have run := System.run_of_execChecked offeringAfter_passes hotLane .refl taken
  exact ⟨start, last, before, after, bounded_bypass rfl reached (Prog.of_value ended) offers run unread⟩

end Schedules

end Salias.FastRing.Bypass
