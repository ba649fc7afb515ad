import Salias.Channel.CommitOrder

/-
The published position of a ring only grows, and what a commit has recorded below it stays. The claims of a channel
with a fixed payload size have this size.
-/

namespace Salias.SharedHybridMpsc

open Concurrent Salias.Frame ConsumerRegistration

variable {n m : Nat} {K : Type}

/-- A frame has the fixed payload size of its channel, when there is one. -/
def ClaimedFrame.Fits (size : Option UInt32) (frame : ClaimedFrame) : Prop :=
  ∀ bytes, size = some bytes → frame.payloadLen = bytes.toNat

/-- A producer moves its published position forward only, and its new frames have the fixed size. Only a producer that
seals a frame records a payload. -/
structure Emerges (size : Option UInt32) (seals : Prop) (producer : Fin n) (before after : State n m K) : Prop where
  visible : Sorted (before.tx producer).pendingCommits →
    (after.ring producer).visibleProducerPos = (before.ring producer).visibleProducerPos ∨
      (before.tx producer).publishedPos ≤ (after.ring producer).visibleProducerPos
  frames : ∀ frame ∈ (after.ring producer).frames, frame ∈ (before.ring producer).frames ∨ frame.Fits size
  committed : ¬ seals → (after.ring producer).committed = (before.ring producer).committed

theorem le_consumePendingContiguous {pending : List CommitSpan} (proper : ∀ span ∈ pending, span.start < span.stop)
    (stop : Nat) : stop ≤ (consumePendingContiguous pending stop).1 := by
  induction pending generalizing stop with
  | nil => exact le_rfl
  | cons span rest ih =>
      rw [consumePendingContiguous]
      split
      · rename_i touches
        have own := proper span List.mem_cons_self
        have later := ih (fun other member => proper other (List.mem_cons_of_mem _ member)) span.stop
        omega
      · exact le_rfl

section Each

variable {setup : Setup n m K} {producer : Fin n} {size : Option UInt32} {seals : Prop}

theorem Emerges.of_same {before after : State n m K}
    (visible : (after.ring producer).visibleProducerPos = (before.ring producer).visibleProducerPos)
    (frames : (after.ring producer).frames = (before.ring producer).frames)
    (committed : ¬ seals → (after.ring producer).committed = (before.ring producer).committed) :
    Emerges size seals producer before after :=
  ⟨fun _ => .inl visible, fun _ member => .inl (frames ▸ member), committed⟩

theorem emerges_prepares {α : Type} {program : Prog (State n m K) α} (prepares : Each (TxPrepares producer) program) :
    Each (Emerges size seals producer) program :=
  prepares.mono fun _ _ step => .of_same (by rw [step.ring]) (by rw [step.ring]) fun _ => by rw [step.ring]

theorem emerges_reads {α : Type} {program : Prog (State n m K) α} (reads : Reads program) :
    Each (Emerges size seals producer) program := emerges_prepares (prepares_reads producer reads)

theorem emerges_allocate {tail need count payloadLen expiresAt : Nat} {hasExpiry : Bool} {claimed : Nat → Claimed}
    (fits : ∀ bytes, size = some bytes → payloadLen = bytes.toNat) :
    Each (Emerges size seals producer) (Prog.modifyGet (State.nextSequence setup producer)
      (State.allocate setup producer tail need count payloadLen hasExpiry expiresAt claimed)) := by
  refine .modifyGet (fun state => ⟨fun _ => .inl ?_, fun frame member => ?_, fun _ => ?_⟩) _
  · rw [State.allocate_eq]
    simp
  · rw [allocate_frames, if_pos rfl] at member
    refine (List.mem_append.mp member).imp_right fun new => ?_
    obtain ⟨index, -, rfl⟩ := mem_claimedFrames.mp new
    exact fits
  · rw [State.allocate_eq]
    simp

theorem emerges_claimGuarded {payloadLen : UInt32} (fits : ∀ bytes, size = some bytes → payloadLen = bytes)
    (expiresAt : UInt64) (hasExpiry : Bool) :
    Each (Emerges size seals producer) (claimGuarded setup producer payloadLen expiresAt hasExpiry) := by
  refine .bind (emerges_reads (.load _)) fun tail => .bind (emerges_prepares (prepares_claimRoom setup producer _ _))
    fun room => ?_
  cases room with
  | error error => exact .ret _
  | ok _ =>
      exact .bind (emerges_allocate fun bytes same => congrArg UInt32.toNat (fits bytes same)) fun sequence =>
        .bind (emerges_prepares (prepares_publishReservation producer _)) fun _ => .ret _

theorem emerges_claimBatchGuarded {payloadLen : UInt32} (fits : ∀ bytes, size = some bytes → payloadLen = bytes)
    (maxFrames : UInt32) (expiresAt : UInt64) (hasExpiry : Bool) :
    Each (Emerges size seals producer) (claimBatchGuarded setup producer payloadLen maxFrames expiresAt hasExpiry) := by
  refine .bind (emerges_reads (.load _)) fun tail => .bind (emerges_prepares (prepares_batchRoom setup producer _ _ _))
    fun room => ?_
  cases room with
  | error error => exact .ret _
  | ok _ =>
      exact .bind (emerges_allocate fun bytes same => congrArg UInt32.toNat (fits bytes same)) fun sequence =>
        .bind (emerges_prepares (prepares_publishReservation producer _)) fun _ => .ret _

/-- A claim runs its body between the guard and its end. -/
theorem emerges_guarded {α : Type} {body : Prog (State n m K) (Except FlowError α)} (refused : Prop) [Decidable refused]
    (each : Each (Emerges size seals producer) body) :
    Each (Emerges size seals producer) (do
      let acquired ← claimReservationGuard producer
      if acquired then
        let result ← (if refused then pure (.error FlowError.MessageTooLarge) else body)
        endClaimReservation producer
        pure result
      else
        pure (.error .BackPressured)) := by
  refine .bind (emerges_prepares (prepares_claimReservationGuard producer)) fun acquired => ?_
  split
  · refine .bind ?_ fun result => .bind (emerges_prepares (prepares_endClaimReservation producer)) fun _ => .ret _
    split
    · exact .ret _
    · exact each
  · exact .ret _

theorem emerges_claim {payloadLen : UInt32} (fits : ∀ bytes, size = some bytes → payloadLen = bytes)
    (expiresAt : UInt64) (hasExpiry : Bool) :
    Each (Emerges size seals producer) (claim setup producer payloadLen expiresAt hasExpiry) := by
  unfold claim
  split
  · exact .ret _
  · exact emerges_guarded _ (emerges_claimGuarded fits expiresAt hasExpiry)

theorem emerges_claimBatch {payloadLen : UInt32} (fits : ∀ bytes, size = some bytes → payloadLen = bytes)
    (maxFrames : UInt32) (expiresAt : UInt64) (hasExpiry : Bool) :
    Each (Emerges size seals producer) (claimBatch setup producer payloadLen maxFrames expiresAt hasExpiry) := by
  unfold claimBatch
  split
  · exact .ret _
  · exact emerges_guarded _ (emerges_claimBatchGuarded fits maxFrames expiresAt hasExpiry)

theorem emerges_writePayload (claimed : Claimed) (offset : Nat) (data : List UInt8) :
    Each (Emerges size seals producer) (writePayload setup producer claimed offset data) := by
  refine .store fun state => ?_
  split
  · exact .of_same (by simp [ProducerRing.writeBytes]) (by simp [ProducerRing.writeBytes])
      fun _ => by simp [ProducerRing.writeBytes]
  · exact .of_same rfl rfl fun _ => rfl

theorem emerges_storeExpiry (position expiresAt : Nat) :
    Each (Emerges size seals producer) (storeExpiry setup producer position expiresAt) :=
  .store fun state => .of_same (by simp [ProducerRing.writeBytes]) (by simp [ProducerRing.writeBytes])
    fun _ => by simp [ProducerRing.writeBytes]

theorem emerges_storeHeader (position payloadLen word frameStart : Nat) (hasExpiry : Bool) :
    Each (Emerges size True producer) (storeHeader setup producer position payloadLen word frameStart hasExpiry) :=
  .store fun state => .of_same (by simp [ProducerRing.writeBytes]) (by simp [ProducerRing.writeBytes]) (absurd trivial)

/-- A commit publishes from the published position on. -/
theorem emerges_publishContiguous {start stop : Nat} (proper : start ≤ stop) :
    Each (Emerges size seals producer) (publishContiguous producer start stop : Prog (State n m K) Unit) := by
  refine .store fun state => ?_
  dsimp only
  split
  · rename_i first
    refine ⟨fun sorted => .inr ?_, fun frame member => .inl (by simpa using member), fun _ => by simp⟩
    have reached := le_consumePendingContiguous sorted.2 stop
    simp only [State.setTx_ring, State.setRing_ring]
    omega
  · split
    · exact .of_same rfl rfl fun _ => rfl
    · exact .of_same rfl rfl fun _ => rfl

theorem emerges_commit (claim : Claim) : Each (Emerges size True producer) (commit setup producer claim) :=
  .bind (.when (emerges_storeExpiry _ _)) fun _ => .bind (emerges_storeHeader _ _ _ _ _) fun _ =>
    emerges_publishContiguous (Nat.le_add_right _ _)

theorem emerges_commitBatch (batch : BatchClaim) : Each (Emerges size True producer) (commitBatch setup producer batch) := by
  unfold commitBatch
  split
  · exact .ret _
  · exact .bind (.forEach (fun index => .bind (.when (emerges_storeExpiry _ _)) fun _ => emerges_storeHeader _ _ _ _ _) _)
      fun _ => emerges_publishContiguous (Nat.le_add_right _ _)

theorem emerges_createTx : Each (Emerges size seals producer) (createTx setup producer) := by
  refine .bind (emerges_reads (.load _)) fun position => .bind (emerges_reads (.load _)) fun published =>
    .bind (.store fun state => .of_same rfl rfl fun _ => rfl) fun _ => ?_
  split
  · exact .bind (emerges_reads (reads_minimumConsumerMessageSequence setup producer)) fun minimum =>
      emerges_prepares (prepares_waits producer (waits_setCachedConsumerMessageSequence producer minimum))
  · exact .ret _

end Each

/-- The claims of a channel have its fixed payload size, when there is one. -/
def ClaimsFit (size : Option UInt32) : Request n → Prop
  | .claim payloadLen _ _ => ∀ bytes, size = some bytes → payloadLen = bytes
  | .claimBatch payloadLen _ _ _ => ∀ bytes, size = some bytes → payloadLen = bytes
  | _ => True

/-- What each thread does to the published positions. -/
def emergence (size : Option UInt32) : Thread n K → State n m K → State n m K → Prop
  | .producer producer => Emerges size True producer
  | _ => fun _ _ => True

section Runs

variable [DecidableEq K] {setup : Setup n m K} {size : Option UInt32}
  {admits : Concurrent.Config (State n m K) (Thread n K) (Label n m) → Event (Thread n K) (Request n) → Prop}

omit [DecidableEq K] in
theorem emerges_startTransmitter {producer : Fin n} {request : Request n} {program : Prog (State n m K) (Label n m)}
    (fits : ClaimsFit size request) (begins : startTransmitter setup producer request = some program) :
    Each (Emerges size True producer) program := by
  cases request with
  | claim payloadLen expiresAt hasExpiry =>
      cases begins
      exact .bind (emerges_claim fits expiresAt hasExpiry) fun _ => .ret _
  | claimBatch payloadLen maxFrames expiresAt hasExpiry =>
      cases begins
      exact .bind (emerges_claimBatch fits maxFrames expiresAt hasExpiry) fun _ => .ret _
  | write claimed offset data =>
      cases begins
      exact .bind (emerges_writePayload claimed offset data) fun _ => .ret _
  | commit claim =>
      cases begins
      exact .bind (emerges_commit claim) fun _ => .ret _
  | commitBatch batch =>
      cases begins
      exact .bind (emerges_commitBatch batch) fun _ => .ret _
  | createTx =>
      cases begins
      exact .bind emerges_createTx fun _ => .ret _
  | _ => cases begins

/-- Every action of a run keeps its relation. -/
theorem emerges_of_run (fits : ∀ {config producer request}, admits config (.start (.producer producer) request) →
      ClaimsFit size request) {config : Concurrent.Config (State n m K) (Thread n K) (Label n m)}
    (run : (system setup).Run admits initial config) (thread : Thread n K) :
    Each (emergence size thread) (config.thread thread) := by
  have anything {program : Prog (State n m K) (Label n m)} : Each (fun _ _ => True) program := by
    induction program with
    | ret value => trivial
    | act update next ih => exact fun state => ⟨trivial, ih state⟩
  refine run.each (fun thread => ?_) (fun {config thread label request program} admitted _ begins => ?_) thread
  · cases thread <;> exact .ret _
  · match thread, label, begins with
    | .producer producer, .transmitter last, begins => exact emerges_startTransmitter (fits admitted) begins
    | .client client, label, begins => exact anything
    | .environment, .environment, begins => exact anything

/-- The words that one step of a run leaves to each ring. -/
theorem step_frames (acts : ∀ {config event}, admits config event → Membership.Acts setup config event)
    (fits : ∀ {config producer request}, admits config (.start (.producer producer) request) → ClaimsFit size request)
    {before after : Concurrent.Config (State n m K) (Thread n K) (Label n m)} {event : Event (Thread n K) (Request n)}
    (run : (system setup).Run admits initial before) (admitted : admits before event)
    (taken : (system setup).step before event = some after) (producer : Fin n) :
    Emerges size True producer before.shared after.shared := by
  by_cases own : event = .act (.producer producer)
  · subst own
    exact Concurrent.System.step_each (emerges_of_run fits run (.producer producer)) taken
  · have same : (after.shared.ring producer).owned = (before.shared.ring producer).owned := by
      by_cases apart : event.thread = .producer producer
      · cases event with
        | start thread request =>
            obtain ⟨-, -, -, -, same, -⟩ := Concurrent.System.step_start taken
            rw [same]
        | act thread =>
            cases apart
            exact absurd rfl own
      · exact (Membership.txRely_of_run acts run apart admitted taken).owned
    refine .of_same ?_ (owned_frames same) (absurd trivial)
    have visible := congrArg ProducerRing.visibleProducerPos same
    exact visible

/-- A published position never moves back. -/
theorem visible_le (acts : ∀ {config event}, admits config event → Membership.Acts setup config event)
    {before after : Concurrent.Config (State n m K) (Thread n K) (Label n m)} {event : Event (Thread n K) (Request n)}
    {producer : Fin n} (run : (system setup).Run admits initial before) (admitted : admits before event)
    (taken : (system setup).step before event = some after) (commits : Commits producer before.shared) :
    (before.shared.ring producer).visibleProducerPos ≤ (after.shared.ring producer).visibleProducerPos := by
  have fits {config producer} {request : Request n} (_ : admits config (.start (.producer producer) request)) :
      ClaimsFit none request := by
    cases request <;> first | trivial | exact fun _ same => by cases same
  rcases (step_frames acts fits run admitted taken producer).visible commits.spans.sorted with same | later
  · exact same.ge
  · rw [commits.visible]
    exact later

/-- All claimed frames have the fixed size. -/
theorem fits_of_run (acts : ∀ {config event}, admits config event → Membership.Acts setup config event)
    (fits : ∀ {config producer request}, admits config (.start (.producer producer) request) → ClaimsFit size request)
    {config : Concurrent.Config (State n m K) (Thread n K) (Label n m)} (run : (system setup).Run admits initial config)
    (producer : Fin n) : ∀ frame ∈ (config.shared.ring producer).frames, frame.Fits size := by
  induction run with
  | refl => exact fun frame member => absurd member List.not_mem_nil
  | step event run admitted taken ih =>
      intro frame member
      rcases (step_frames acts fits run admitted taken producer).frames frame member with old | new
      · exact ih frame old
      · exact new

end Runs

/-- The payloads that are recorded below the published position stay. -/
def Settles (producer : Fin n) (before after : State n m K) : Prop :=
  ∀ position, position < (before.ring producer).visibleProducerPos →
    (after.ring producer).committed position = (before.ring producer).committed position

namespace Settling

variable [DecidableEq K] {setup : Setup n m K} {producer : Fin n} {state : State n m K}

/-- The commits of a producer are known; its actions settle the published payloads. -/
def discipline (setup : Setup n m K) (producer : Fin n) : Discipline (State n m K) (Thread n K) (Label n m) :=
  {Membership.layer setup (Commits producer) (fun _ _ _ => True) fun _ => True with
    guarantee := fun thread before after => (Membership.discipline setup).guarantee thread before after ∧
      (thread = .producer producer → Settles producer before after)}

abbrev txContract (setup : Setup n m K) (producer : Fin n) : Contract (State n m K) :=
  (discipline setup producer).contract (.producer producer)

theorem lawful (setup : Setup n m K) (producer : Fin n) (thread : Thread n K) :
    ((discipline setup producer).contract thread).Lawful where
  refl := (Membership.lawful setup thread).refl
  trans := (Membership.lawful setup thread).trans
  idle state := ⟨(Membership.lawful setup thread).idle state, fun _ _ _ => rfl⟩
  stays := (Membership.lawful setup thread).stays

/-- A program that records nothing keeps a stable fact about the open claims. -/
theorem plain_safe {α : Type} {holds : State n m K → Prop} {program : Prog (State n m K) α}
    (each : Each (fun before after => Unmoved producer before after ∧
      (after.ring producer).committed = (before.ring producer).committed) program)
    (keeps : ∀ {before after}, Unmoved producer before after → holds before → holds after) (entry : holds state) :
    Safe (txContract setup producer) (fun _ => holds) program state :=
  Safe.of_each each
    (fun _ action plain held => ⟨trivial, ⟨action.1.1, fun _ _ _ => by rw [plain.2]⟩, keeps plain.1 held⟩)
    (fun rely _ held => keeps (TxRely.unmoved rely) held) entry

theorem silent_safe {α : Type} (size : Option UInt32) {program : Prog (State n m K) α}
    (each : Each (Emerges size False producer) program) :
    Safe (txContract setup producer) (fun _ _ => True) program state :=
  Safe.of_each (I := fun _ => True) each
    (fun _ action emerges _ => ⟨trivial, ⟨action.1.1, fun _ _ _ => by rw [emerges.committed id]⟩, trivial⟩)
    (fun _ _ _ => trivial) trivial

omit [DecidableEq K] in
theorem plain_storeExpiry (position expiresAt : Nat) : Each (fun before after => Unmoved producer before after ∧
      (after.ring producer).committed = (before.ring producer).committed)
    (storeExpiry setup producer position expiresAt) :=
  .store fun state => ⟨.of_setRing state _ rfl, by simp [ProducerRing.writeBytes]⟩

/-- A header store records the payload of a frame of an open claim. -/
theorem storeHeader_safe {reservation : Reservation} (held : CommitOrder.Open producer reservation state)
    {position payloadLen word frameStart : Nat} {hasExpiry : Bool} (inside : reservation.claimed.start ≤ frameStart) :
    Safe (txContract setup producer) (fun _ => CommitOrder.Open producer reservation)
      (storeHeader setup producer position payloadLen word frameStart hasExpiry) state := by
  refine Safe.store_last fun current rely ready action => ?_
  have held := held.keeps (TxRely.unmoved rely)
  refine ⟨trivial, ⟨action.1.1, fun _ other below => ?_⟩, fun last rely _ =>
    CommitOrder.Open.keeps (TxRely.unmoved rely) held⟩
  have commits : Commits producer current := ready.knows.2
  have published : (current.tx producer).publishedPos ≤ reservation.claimed.start :=
    (commits.spans.inside _ (List.mem_map_of_mem held)).1
  rw [commits.visible] at below
  have apart : other ≠ frameStart := by omega
  simp [apart]

theorem commit_safe {claim : Claim} {floor : Nat} (held : CommitOrder.Open producer ⟨.single claim, floor⟩ state) :
    Safe (txContract setup producer) (fun _ _ => True) (commit setup producer claim) state := by
  refine Safe.bind (lawful setup producer (.producer producer)) (plain_safe (.when (plain_storeExpiry _ _)) CommitOrder.Open.keeps held)
    fun _ _ _ held => ?_
  refine Safe.bind (lawful setup producer (.producer producer)) (storeHeader_safe held le_rfl) fun _ _ _ _ => ?_
  exact silent_safe none (emerges_publishContiguous (Nat.le_add_right _ _))

theorem commitBatch_safe {batch : BatchClaim} {floor : Nat}
    (held : CommitOrder.Open producer ⟨.batch batch, floor⟩ state) :
    Safe (txContract setup producer) (fun _ _ => True) (commitBatch setup producer batch) state := by
  unfold commitBatch
  split
  · exact fun _ _ _ => trivial
  refine Safe.bind (lawful setup producer (.producer producer)) (Safe.forEach (lawful setup producer (.producer producer))
    (I := fun _ => CommitOrder.Open producer ⟨.batch batch, floor⟩)
    (fun rely _ held => held.keeps (TxRely.unmoved rely)) (fun index _ current held => ?_) held)
    fun _ _ _ _ => ?_
  · exact Safe.bind (lawful setup producer (.producer producer)) (plain_safe (.when (plain_storeExpiry _ _)) CommitOrder.Open.keeps held)
      fun _ _ _ held => storeHeader_safe held (Nat.le_add_right _ _)
  · exact silent_safe none (emerges_publishContiguous (Nat.le_add_right _ _))

theorem transmitter_safe {request : Request n} {program : Prog (State n m K) (Label n m)}
    (begins : startTransmitter setup producer request = some program)
    (once : CommitOrder.CommitsOnce producer state (.producer producer : Thread n K) request) :
    Safe (txContract setup producer) (fun _ _ => True) program state := by
  have done {α : Type} {program : Prog (State n m K) α} {label : α → Label n m}
      (safe : Safe (txContract setup producer) (fun _ _ => True) program state) :
      Safe (txContract setup producer) (fun _ _ => True) (program.bind fun value => .ret (label value)) state :=
    Safe.bind (lawful setup producer (.producer producer)) safe fun _ _ _ _ => fun _ _ _ => trivial
  have anySize {payloadLen : UInt32} (bytes : UInt32) (same : (none : Option UInt32) = some bytes) :
      payloadLen = bytes := by cases same
  cases request with
  | claim payloadLen expiresAt hasExpiry =>
      cases begins
      exact done (silent_safe none (emerges_claim anySize expiresAt hasExpiry))
  | claimBatch payloadLen maxFrames expiresAt hasExpiry =>
      cases begins
      exact done (silent_safe none (emerges_claimBatch anySize maxFrames expiresAt hasExpiry))
  | write claimed offset data =>
      cases begins
      exact done (silent_safe none (emerges_writePayload claimed offset data))
  | commit claim =>
      cases begins
      obtain ⟨floor, held⟩ := once rfl
      exact done (commit_safe held)
  | commitBatch batch =>
      cases begins
      obtain ⟨floor, held⟩ := once rfl
      exact done (commitBatch_safe held)
  | createTx =>
      cases begins
      exact done (silent_safe none emerges_createTx)
  | _ => cases begins

theorem sound (setup : Setup n m K) (producer : Fin n) :
    (discipline setup producer).Sound (system setup) fun state thread _ request =>
      CommitOrder.CommitsOnce producer state thread request where
  lawful := lawful setup producer
  compatible different ready later guaranteed :=
    Membership.compatible different ⟨ready.knows.1, trivial, ready.may⟩ ⟨later.knows.1, trivial, later.may⟩ guaranteed.1
  start {thread label request program state} begins once _ _ _ := by
    by_cases own : thread = .producer producer
    · subst own
      match label, begins with
      | .transmitter last, begins => exact transmitter_safe begins once
    · exact Safe.of_action fun _ action => ⟨trivial, action.1.1, fun same => absurd same own⟩

/-- No step changes what is recorded below a published position. -/
theorem of_step {before after : Concurrent.Config (State n m K) (Thread n K) (Label n m)}
    {event : Event (Thread n K) (Request n)}
    {admits : Concurrent.Config (State n m K) (Thread n K) (Label n m) → Event (Thread n K) (Request n) → Prop}
    (admitted : ∀ {config event}, admits config event →
      CommitOrder.Admitted setup producer config event ∧ CommitOrder.Small producer event)
    (run : (system setup).Run admits initial before) (admits_event : admits before event)
    (taken : (system setup).step before event = some after) : Settles producer before.shared after.shared := by
  have acts {config : Concurrent.Config (State n m K) (Thread n K) (Label n m)}
      {event : Event (Thread n K) (Request n)} (passes : admits config event) : Membership.Acts setup config event :=
    (admitted passes).1.1
  by_cases own : event = .act (.producer producer)
  · subst own
    have knows : (discipline setup producer).Knows (system setup)
        (fun state thread _ request => CommitOrder.CommitsOnce producer state thread request) admits initial := by
      have knows : (Membership.layer setup (Commits producer) (fun _ _ _ => True) fun _ => True).Knows (system setup)
          (fun state thread _ request => CommitOrder.CommitsOnce producer state thread request) admits initial :=
        Membership.layer_knows acts (fun passes _ => (admitted passes).1.2 _ _ rfl)
          (fun run => CommitOrder.of_run (run.weaken fun _ _ passes => admitted passes)) fun _ _ _ => trivial
      exact ⟨knows.respects, knows.known, knows.action, knows.rests⟩
    have begun : (discipline setup producer).Initial initial := by
      refine ⟨trivial, fun thread => ?_⟩
      cases thread <;> exact fun _ _ _ => trivial
    exact ((sound setup producer).guarantee begun knows run admits_event taken).2 rfl
  · have same : (after.shared.ring producer).owned = (before.shared.ring producer).owned := by
      by_cases apart : event.thread = .producer producer
      · cases event with
        | start thread request =>
            obtain ⟨-, -, -, -, same, -⟩ := Concurrent.System.step_start taken
            rw [same]
        | act thread =>
            cases apart
            exact absurd rfl own
      · exact (Membership.txRely_of_run acts run apart admits_event taken).owned
    intro position _
    exact congrFun (show (after.shared.ring producer).owned.committed = (before.shared.ring producer).owned.committed from
      congrArg _ same) position

end Settling

end Salias.SharedHybridMpsc
