import Salias.Channel.Delivery
import Salias.Channel.LeaseSafety

/-
Every run of a channel of the latest mode keeps what its rings retain: the producers never overwrite the frames from the
floor on or the range of a held lease.
-/

namespace Salias.SharedHybridMpsc

open Concurrent Salias.Frame ConsumerRegistration

variable {n m : Nat} {K : Type} [DecidableEq K]

namespace Retention

variable {setup : Setup n m K} {before after config : Concurrent.Config (State n m K) (Thread n K) (Label n m)}
  {event : Event (Thread n K) (Request n)}

/-- The producers commit their open claims once, in batches of small frames, and write inside them. -/
def MayStart (state : State n m K) (thread : Thread n K) (_ : Label n m) (request : Request n) : Prop :=
  ∀ producer, (CommitOrder.CommitsOnce producer state thread request ∧ CommitOrder.SmallBatch producer thread request) ∧
    Contents.WritesInside producer state thread request

theorem sound (latest : setup.mode.dropOldest = true) : (discipline setup).Sound (system setup) MayStart where
  lawful := lawful setup
  compatible := compatible
  start {thread label request program state} begins may ready rests held := by
    match thread, label, begins with
    | .producer producer, .transmitter last, begins =>
        exact transmitter_safe latest begins ready.knows (may producer).1.1 (may producer).1.2 (may producer).2 rests held
    | .client client, label, begins => exact client_safe latest begins rests
    | .environment, label, begins => exact Safe.of_action environment_acts

theorem begun (setup : Setup n m K) : (discipline setup).Initial initial := by
  refine ⟨fun producer => ?_, fun thread => ?_⟩
  · have place : Published.Place producer 0 0 (initial : Concurrent.Config (State n m K) (Thread n K) (Label n m)).shared :=
      ⟨le_rfl, rfl⟩
    exact ⟨⟨0, place⟩, fun _ => place, fun none => absurd rfl none, le_rfl, Nat.zero_le _, fun _ => Nat.zero_le _,
      Nat.zero_le _, fun consumer _ => .none rfl rfl⟩
  · cases thread with
    | producer producer => exact fun _ rely _ => (SameRetention.of_owned rely.owned rely.tx).retentionIntent
    | client client => exact fun _ _ _ => trivial
    | environment => exact fun _ _ _ => trivial

/-- The processes live. The producers commit their open claims once, in batches of small frames, and write inside them. -/
structure Steady (setup : Setup n m K) (config : Concurrent.Config (State n m K) (Thread n K) (Label n m))
    (event : Event (Thread n K) (Request n)) : Prop where
  acts : Membership.Acts setup config event
  commits : ∀ producer, CommitOrder.Admitted setup producer config event ∧ CommitOrder.Small producer event
  inside : ∀ producer thread request, event = .start thread request →
    Contents.WritesInside producer config.shared thread request

/-- A steady step after which no tail has lapped an open claim. -/
structure Spacious (setup : Setup n m K) (config : Concurrent.Config (State n m K) (Thread n K) (Label n m))
    (event : Event (Thread n K) (Request n)) : Prop extends Steady setup config event where
  near : ∀ producer after, event = .act (.producer producer) → (system setup).step config event = some after →
    Near setup producer after.shared

theorem Spacious.contents (spacious : Spacious setup config event) (producer : Fin n) :
    Contents.Admitted setup producer config event :=
  ⟨spacious.commits producer, spacious.inside producer, spacious.near producer⟩

theorem Steady.respects (steady : Steady setup config event) : (discipline setup).Admits MayStart config event := by
  match event, steady with
  | .act (.client _), steady => exact steady.acts
  | .act (.producer _), _ => trivial
  | .act .environment, _ => trivial
  | .start thread request, steady =>
      exact fun _ _ producer => ⟨⟨(steady.commits producer).1.2 _ _ rfl, (steady.commits producer).2 _ _ rfl⟩,
        steady.inside producer _ _ rfl⟩

theorem framed (run : (system setup).Run (Spacious setup) initial config) : Published.Framed setup config.shared :=
  ⟨Membership.of_run (fun admitted => admitted.acts) run,
    fun producer => CommitOrder.of_run (run.weaken fun _ _ admitted => admitted.commits producer),
    fun producer => Contents.of_run (run.weaken fun _ _ admitted => admitted.contents producer)⟩

theorem acted (run : (system setup).Run (Spacious setup) initial before) {thread : Thread n K}
    (admitted : Steady setup before (.act thread)) (taken : (system setup).step before (.act thread) = some after) :
    Acted setup thread before.shared after.shared := by
  have steady : (system setup).Run (Steady setup) initial before := run.weaken fun _ _ admitted => admitted.toSteady
  have later : (system setup).Run (Steady setup) initial after := .step _ steady admitted taken
  exact ⟨Membership.step_of_run Steady.acts steady admitted taken, Membership.of_run Steady.acts later,
    fun producer => CommitOrder.of_run (later.weaken fun _ _ admitted => admitted.commits producer),
    Delivery.grows_of_commits Steady.acts (fun producer _ _ admitted => admitted.commits producer) steady admitted taken⟩

theorem knows (setup : Setup n m K) :
    (discipline setup).Knows (system setup) MayStart (Spacious setup) initial where
  respects admitted := admitted.respects
  known run := framed run
  action run admitted taken := acted run admitted.toSteady taken
  rests run may rests := Membership.label_of_run (fun admitted => admitted.acts) run may rests

section Runs

variable (latest : setup.mode.dropOldest = true)

include latest

/-- In a steady run no tail laps an open claim. -/
theorem spacious_step (run : (system setup).Run (Spacious setup) initial before) (admitted : Steady setup before event)
    (taken : (system setup).step before event = some after) : Spacious setup before event :=
  (sound latest).narrow (begun setup) (knows setup) Steady.respects (fun run admitted taken => acted run admitted taken)
    (fun {before after event} run admitted taken guaranteed => ⟨admitted, fun producer other same step => by
      subst same
      obtain rfl : after = other := Option.some_inj.mp (taken.symm.trans step)
      have keeps := ((sound latest).run (begun setup) (knows setup) run).1 producer
      exact (guaranteed (.producer producer) rfl).near producer rfl (keeps.near ((framed run).commits producer))⟩)
    run admitted taken

theorem spacious_run (run : (system setup).Run (Steady setup) initial config) :
    (system setup).Run (Spacious setup) initial config := by
  induction run with
  | refl => exact .refl
  | step event _ admitted taken ih => exact .step event ih (spacious_step latest ih admitted taken) taken

/-- Every state of a steady run retains. -/
theorem of_run (run : (system setup).Run (Steady setup) initial config) (producer : Fin n) :
    Retains setup producer config.shared :=
  ((sound latest).run (begun setup) (knows setup) (spacious_run latest run)).1 producer

theorem framed_of_run (run : (system setup).Run (Steady setup) initial config) : Published.Framed setup config.shared :=
  framed (spacious_run latest run)

/-- Every step of a steady run keeps the guarantee of its thread. -/
theorem guarded_of_step (run : (system setup).Run (Steady setup) initial before) {thread : Thread n K}
    (admitted : Steady setup before (.act thread)) (taken : (system setup).step before (.act thread) = some after) :
    Guarded setup thread before.shared after.shared :=
  have spacious := spacious_run latest run
  (sound latest).guarantee (begun setup) (knows setup) spacious (spacious_step latest spacious admitted taken) taken

end Runs

end Retention

section Runs

variable {setup : Setup n m K} {before after config : Concurrent.Config (State n m K) (Thread n K) (Label n m)}

/-- A ring of the latest mode retains a window: the floor is the start of a frame, it lies behind the published position,
the tail stays within the retention, and every published frame from the floor on can be read. -/
theorem retained_frames_stay (latest : setup.mode.dropOldest = true)
    (run : (system setup).Run (Retention.Steady setup) initial config) (producer : Fin n) :
    let ring := config.shared.ring producer
    let tx := config.shared.tx producer
    (ring.retainedPosition ≤ ring.visibleProducerPos ∧ ring.visibleProducerPos ≤ tx.producerPos ∧
        tx.producerPos ≤ ring.retainedPosition + setup.retentionCapacity) ∧
      (setup.publicationWindowMessages ≠ 0 →
        ring.frames.length ≤ ring.retainedMessageSequence + setup.publicationWindowMessages) ∧
      (∃ count, count ≤ ring.frames.length ∧ ring.retainedPosition = frameOffset ring.frames count ∧
        (ring.retentionIntent = kNoLease → ring.retainedMessageSequence = count)) ∧
      ∀ frame ∈ ring.frames, ring.retainedPosition ≤ frame.start → frame.stop ≤ ring.visibleProducerPos →
        Complete setup ring frame := by
  intro ring tx
  have retains := Retention.of_run latest run producer
  have framed := Retention.framed_of_run latest run
  have behind : ring.visibleProducerPos ≤ tx.producerPos :=
    (framed.commits producer).visible.trans_le (framed.commits producer).spans.behind
  refine ⟨⟨retains.published, behind, retains.bytes⟩, fun window => ?_, ?_, fun frame present retained published => ?_⟩
  · have counted := (framed.membership.exact producer).messages
    exact counted ▸ retains.messages window
  · by_cases clear : ring.retentionIntent = kNoLease
    · have place := retains.counted clear
      exact ⟨_, place.within, place.offset, fun _ => rfl⟩
    · obtain ⟨count, place⟩ := retains.floor
      exact ⟨count, place.within, place.offset, fun same => absurd same clear⟩
  · obtain ⟨index, found⟩ := List.getElem?_of_mem present
    exact framed.complete ⟨found, published⟩ (retains.bytes.trans (Nat.add_le_add retained setup.retentionCapacity_le))

end Runs

section Runs

theorem Retention.Steady.of_prudent {setup : Setup n m K} {size : Option UInt32}
    {config : Concurrent.Config (State n m K) (Thread n K) (Label n m)} {event : Event (Thread n K) (Request n)}
    (prudent : Delivery.Prudent setup size config event) : Retention.Steady setup config event :=
  ⟨prudent.acts, fun producer => (prudent.commits producer).1, fun producer => (prudent.commits producer).2.1⟩

/-- A subscriber borrows a message of a ring of one page, and the next claim drops its frame. -/
def droppingOldest : List (Event (Thread 1 Unit) (Request 1)) :=
  let call (thread : Thread 1 Unit) (request : Request 1) (count : Nat) : List (Event (Thread 1 Unit) (Request 1)) :=
    .start thread request :: List.replicate count (.act thread)
  call (.client ()) (.subscribe .DropOldest) 1 ++ call (.client ()) .proceed 1 ++ call (.client ()) .proceed 24 ++
    call (.producer sole) (.claim 1400 0 false) 13 ++ call (.producer sole) (.commit ⟨0, 1400, 3, 0, 0⟩) 2 ++
    call (.client ()) (.tryRecv none) 2 ++ call (.client ()) .proceed 13 ++
    call (.producer sole) (.claim 1400 0 false) 19

theorem droppingOldest_run : ∃ before after : Concurrent.Config (State 1 1 Unit) (Thread 1 Unit) (Label 1 1),
    (system (smallSetup .LatestMpmc 0)).Run (Retention.Steady (smallSetup .LatestMpmc 0)) initial before ∧
      (system (smallSetup .LatestMpmc 0)).Run (Retention.Steady (smallSetup .LatestMpmc 0)) before after ∧
      (before.shared.ring 0).retainedPosition = 0 ∧ (after.shared.ring 0).retainedPosition = 1408 ∧
      (after.shared.tx 0).producerPos = 2816 ∧ after.shared.slotActive 0 ∧
      (after.shared.cursor 0 0).leaseStage = .held 0 1 ∧ (after.shared.cursor 0 0).leaseEnd = 1408 := by
  have executed : ((system (smallSetup .LatestMpmc 0)).execChecked (prudently (smallSetup .LatestMpmc 0)) initial
      (droppingOldest.take 63)).map (fun before => (before.shared.ring 0).retainedPosition) = some 0 := by
    decide +kernel
  have whole : ((system (smallSetup .LatestMpmc 0)).execChecked (prudently (smallSetup .LatestMpmc 0)) initial
      droppingOldest).map (fun after => ((after.shared.ring 0).retainedPosition, (after.shared.tx 0).producerPos,
        phase (after.shared.slot 0).state, (after.shared.cursor 0 0).leaseStage,
        (after.shared.cursor 0 0).leaseEnd)) = some (1408, 2816, kActive, .held 0 1, 1408) := by
    decide +kernel
  obtain ⟨before, middle, floor⟩ := Option.map_eq_some_iff.mp executed
  obtain ⟨after, final, facts⟩ := Option.map_eq_some_iff.mp whole
  simp only [Prod.mk.injEq] at facts
  obtain ⟨later, reached, active, held, stop⟩ := facts
  rw [← List.take_append_drop 63 droppingOldest, Concurrent.System.execChecked_append, middle, Option.bind_some] at final
  have steady (config event) (passes : prudently (smallSetup .LatestMpmc 0) config event = true) :
      Retention.Steady (smallSetup .LatestMpmc 0) config event :=
    .of_prudent (prudent_of_prudently (smallSetup .LatestMpmc 0) rfl rfl config event passes)
  exact ⟨before, after, Concurrent.System.run_of_execChecked steady _ .refl middle,
    Concurrent.System.run_of_execChecked steady _ .refl final, floor, later, reached, active, held, stop⟩

theorem retained_frames_stay_droppingOldest :
    ∃ config : Concurrent.Config (State 1 1 Unit) (Thread 1 Unit) (Label 1 1),
    (system (smallSetup .LatestMpmc 0)).Run (Retention.Steady (smallSetup .LatestMpmc 0)) initial config ∧
      (config.shared.ring 0).retainedPosition = 1408 ∧ (config.shared.tx 0).producerPos = 2816 ∧
      (config.shared.tx 0).producerPos ≤
        (config.shared.ring 0).retainedPosition + (smallSetup .LatestMpmc 0).retentionCapacity := by
  obtain ⟨before, after, run, later, -, floor, reached, -⟩ := droppingOldest_run
  exact ⟨after, run.trans later, floor, reached, (retained_frames_stay rfl (run.trans later) 0).1.2.2⟩

end Runs

end Salias.SharedHybridMpsc
