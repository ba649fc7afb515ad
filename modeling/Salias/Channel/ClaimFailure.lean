import Salias.Channel.MembershipSafety
import Salias.Concurrent.Outcome

/-
A claim that is refused leaves no trace: it takes no sequence, moves no position and writes no byte.
-/

namespace Salias.SharedHybridMpsc

open Concurrent Salias.Frame ConsumerRegistration

variable {n m : Nat} {K : Type}

/-- The words of a ring and of its transmitter that a refused claim may not touch: all but the claim flag, the
announced intent, the leases and the cached minima. -/
structure Untouched (producer : Fin n) (before after : State n m K) : Prop where
  ring : after.ring producer = {before.ring producer with
    claimActive := (after.ring producer).claimActive
    retentionIntent := (after.ring producer).retentionIntent
    consumers := (after.ring producer).consumers}
  tx : after.tx producer = {before.tx producer with
    cachedConsumerPos := (after.tx producer).cachedConsumerPos
    cachedConsumerMessageSequence := (after.tx producer).cachedConsumerMessageSequence}

/-- An action of a claim before it takes its sequences. -/
structure Refuses (producer : Fin n) (before after : State n m K) : Prop extends Untouched producer before after where
  globalSequence : after.globalSequence = before.globalSequence

section Relations

variable {producer : Fin n} {before middle after : State n m K}

theorem Refuses.of_setRing (state : State n m K) (change : ProducerRing m → ProducerRing m)
    (same : ∃ active intent consumers, change (state.ring producer) = {state.ring producer with
      claimActive := active, retentionIntent := intent, consumers := consumers}) :
    Refuses producer state (state.setRing producer change) := by
  obtain ⟨active, intent, consumers, same⟩ := same
  exact ⟨⟨by simp [same], rfl⟩, rfl⟩

theorem Untouched.refl (producer : Fin n) (state : State n m K) : Untouched producer state state := ⟨rfl, rfl⟩

theorem Untouched.trans (first : Untouched producer before middle) (second : Untouched producer middle after) :
    Untouched producer before after where
  ring := by
    rw [second.ring, first.ring]
  tx := by
    rw [second.tx, first.tx]

/-- The other threads touch only the words of the consumers. -/
theorem Untouched.of_rely (rely : TxRely producer before after) : Untouched producer before after where
  ring := by
    have same := rely.owned
    simp only [ProducerRing.owned] at same
    cases shape : after.ring producer
    cases old : before.ring producer
    simp only [shape, old, ProducerRing.mk.injEq, true_and] at same ⊢
    simp [same]
  tx := by rw [rely.tx]

end Relations

section Programs

variable (setup : Setup n m K) (producer : Fin n)

end Programs

/-- A producer outside of its claims announces no intent. -/
def Withdrawn (producer : Fin n) (state : State n m K) : Prop :=
  (state.ring producer).claimActive = false → (state.ring producer).retentionIntent = kNoLease

/-- A claim that announces no intent. -/
structure Claiming (producer : Fin n) (state : State n m K) : Prop where
  active : (state.ring producer).claimActive = true
  intent : (state.ring producer).retentionIntent = kNoLease

/-- An action that leaves the claim flag and the intent alone. -/
structure Silent (producer : Fin n) (before after : State n m K) : Prop where
  active : (after.ring producer).claimActive = (before.ring producer).claimActive
  intent : (after.ring producer).retentionIntent = (before.ring producer).retentionIntent

section Silent

variable {producer : Fin n} {before after : State n m K}

theorem Silent.refl (state : State n m K) : Silent producer state state := ⟨rfl, rfl⟩

theorem Silent.of_setRing (state : State n m K) (change : ProducerRing m → ProducerRing m)
    (active : (change (state.ring producer)).claimActive = (state.ring producer).claimActive)
    (intent : (change (state.ring producer)).retentionIntent = (state.ring producer).retentionIntent) :
    Silent producer state (state.setRing producer change) :=
  ⟨by simp [active], by simp [intent]⟩

theorem Silent.of_rely (rely : TxRely producer before after) : Silent producer before after :=
  ⟨owned_claimActive rely.owned, show (after.ring producer).owned.retentionIntent =
    (before.ring producer).owned.retentionIntent from congrArg _ rely.owned⟩

theorem Silent.withdrawn (silent : Silent producer before after) (held : Withdrawn producer before) :
    Withdrawn producer after := fun closed => silent.intent.trans (held (silent.active.symm.trans closed))

theorem Silent.claiming (silent : Silent producer before after) (held : Claiming producer before) :
    Claiming producer after := ⟨silent.active.trans held.active, silent.intent.trans held.intent⟩

theorem silent_waits {α : Type} {program : Prog (State n m K) α} (waits : Each (TxWaits producer) program) :
    Each (Silent producer) program :=
  waits.mono fun _ _ step => ⟨by rw [step.ring], by rw [step.ring]⟩

theorem silent_reads {α : Type} {program : Prog (State n m K) α} (reads : Reads program) :
    Each (Silent producer) program := silent_waits (waits_reads producer reads)

theorem silent_commits {α : Type} {program : Prog (State n m K) α} (commits : Each (TxCommits producer) program) :
    Each (Silent producer) program := commits.mono fun _ _ step => ⟨step.claimActive, step.floor.2.2⟩

end Silent

namespace ClaimFailure

variable [DecidableEq K] {setup : Setup n m K} {producer : Fin n} {state : State n m K}

abbrev txContract (setup : Setup n m K) (producer : Fin n) : Contract (State n m K) :=
  (Membership.extend setup (Withdrawn producer)).contract (.producer producer)

theorem txLawful (setup : Setup n m K) (producer : Fin n) : (txContract setup producer).Lawful :=
  Membership.extend_lawful (.producer producer)

/-- A silent program keeps a claim without an intent. -/
theorem silent_safe {α : Type} {program : Prog (State n m K) α} (each : Each (Silent producer) program)
    (entry : Claiming producer state) : Safe (txContract setup producer) (fun _ => Claiming producer) program state :=
  Safe.of_each each (fun ready action silent held => ⟨silent.withdrawn ready.keeps, action.1, silent.claiming held⟩)
    (fun rely _ held => (Silent.of_rely rely).claiming held) entry

theorem silent_safe_any {α : Type} {program : Prog (State n m K) α} (each : Each (Silent producer) program) :
    Safe (txContract setup producer) (fun _ _ => True) program state :=
  Safe.of_each each (fun ready action silent _ => ⟨silent.withdrawn ready.keeps, action.1, trivial⟩)
    (fun _ _ _ => trivial) trivial

theorem announceAndEvict_safe (tail writeLength : Nat) (previous floor : Nat × Nat) (entry : Claiming producer state) :
    Safe (txContract setup producer) (fun _ => Claiming producer)
      (announceAndEvict setup producer tail writeLength previous floor) state := by
  -- inside the announcement only the claim flag is known
  let active (state : State n m K) : Prop := (state.ring producer).claimActive = true
  have keeps {α : Type} {program : Prog (State n m K) α} {state : State n m K} (each : Each (Silent producer) program)
      (held : active state) : Safe (txContract setup producer) (fun _ => active) program state :=
    Safe.of_each each (fun ready action silent held =>
      ⟨silent.withdrawn ready.keeps, action.1, silent.active.trans held⟩)
      (fun rely _ held => (Silent.of_rely rely).active.trans held) held
  have withdraws (state : State n m K) (result : Bool) (held : active state) :
      Safe (txContract setup producer) (fun _ => Claiming producer)
        ((setRetentionIntent producer kNoLease).bind fun _ => .ret result) state := by
    refine Safe.store_bind fun current rely ready action => ?_
    have held := (Silent.of_rely rely).active.trans held
    have claiming : Claiming producer (current.setRing producer fun ring => {ring with retentionIntent := kNoLease}) :=
      ⟨by simpa using held, by simp⟩
    exact ⟨fun _ => claiming.intent, action.1, fun last rely _ => (Silent.of_rely rely).claiming claiming⟩
  refine Safe.store_bind fun current rely ready action => ?_
  have held := (Silent.of_rely rely).active.trans entry.active
  have announced : active (current.setRing producer fun ring => {ring with retentionIntent := floor.1}) := by
    simpa [active] using held
  refine ⟨fun closed => absurd (closed.symm.trans announced) (by decide), action.1, ?_⟩
  refine Safe.bind (txLawful setup producer) (keeps (.foldUntil (fun _ consumer =>
    silent_waits (waits_leaseRound setup producer tail writeLength consumer)) _ _) announced) fun scanned _ _ held => ?_
  cases scanned with
  | inr stopped => exact withdraws _ false held
  | inl done =>
      refine Safe.bind (txLawful setup producer) (keeps (.when (.store fun state => .of_setRing state _ rfl rfl)) held)
        fun _ _ _ held => ?_
      refine Safe.bind (txLawful setup producer) (keeps (.when (.store fun state => .of_setRing state _ rfl rfl)) held)
        fun _ _ _ held => ?_
      exact withdraws _ true held

theorem prepareDropOldestWrite_safe (tail writeLength writeCount : Nat) (entry : Claiming producer state) :
    Safe (txContract setup producer) (fun _ => Claiming producer)
      (prepareDropOldestWrite setup producer tail writeLength writeCount) state := by
  have ends {value : Bool} {state : State n m K} (held : Claiming producer state) :
      Safe (txContract setup producer) (fun _ => Claiming producer) (.ret value) state :=
    fun _ rely _ => (Silent.of_rely rely).claiming held
  unfold prepareDropOldestWrite
  dsimp only
  split
  · exact ends entry
  refine Safe.bind (txLawful setup producer) (silent_safe (silent_reads (.load _)) entry) fun retained _ _ held => ?_
  refine Safe.bind (txLawful setup producer) (silent_safe (silent_reads (.load _)) held) fun messages _ _ held => ?_
  refine Safe.bind (txLawful setup producer) (silent_safe (silent_reads (.load _)) held) fun tx _ _ held => ?_
  split
  · exact ends held
  refine Safe.bind (txLawful setup producer) (silent_safe (silent_reads (Each.repeatUntil (fun floor =>
    reads_evictionRound setup producer _ _ _ floor) _ _)) held) fun walked _ _ held => ?_
  split
  · split
    · exact ends held
    refine Safe.bind (txLawful setup producer) (silent_safe ?_ held) fun allowed _ _ held => ?_
    · split
      · exact silent_reads (reads_reliableConsumersAllowRetention producer _ _ _ _)
      · exact .ret _
    · split
      · exact announceAndEvict_safe _ _ _ _ held
      · exact ends held
  · exact ends held

theorem latestFit_safe (tail per maxFrames : Nat) (entry : Claiming producer state) :
    Safe (txContract setup producer) (fun _ => Claiming producer) (latestFit setup producer tail per maxFrames)
      state := by
  have stable {before after : State n m K} (rely : TxRely producer before after) (held : Claiming producer before) :
      Claiming producer after := (Silent.of_rely rely).claiming held
  unfold latestFit
  dsimp only
  refine Safe.bind (txLawful setup producer) (prepareDropOldestWrite_safe _ _ _ entry) fun prepared _ _ held => ?_
  split
  · exact fun _ rely _ => stable rely held
  refine Safe.bind (M := fun _ => Claiming producer) (txLawful setup producer) ?_ fun searched _ _ held => ?_
  · refine .weaken (Safe.repeatUntil (I := fun _ => Claiming producer) (S := fun _ => Claiming producer)
      (txLawful setup producer) (fun rely _ held => stable rely held) (fun bounds current held => ?_)
      (fun rely _ held => stable rely held) held) fun result _ _ held => by cases result <;> exact held
    unfold longestPrefixRound
    split
    · refine Safe.bind (txLawful setup producer) (prepareDropOldestWrite_safe _ _ _ held) fun prepared _ _ held => ?_
      split <;> exact fun _ rely _ => stable rely held
    · exact fun _ rely _ => stable rely held
  · cases searched <;> exact fun _ rely _ => stable rely held

theorem claimRoom_safe (tail need : Nat) (entry : Claiming producer state) :
    Safe (txContract setup producer) (fun _ => Claiming producer) (claimRoom setup producer tail need) state := by
  unfold claimRoom
  split
  · split
    · exact fun _ rely _ => (Silent.of_rely rely).claiming entry
    · exact Safe.bind (txLawful setup producer) (prepareDropOldestWrite_safe _ _ _ entry) fun _ _ _ held =>
        fun _ rely _ => (Silent.of_rely rely).claiming held
  · refine silent_safe (.bind (silent_waits (waits_reserveBytes setup producer _ _)) fun bytes => ?_) entry
    split
    · exact .bind (silent_waits (waits_reserveMessage setup producer)) fun _ => .ret _
    · exact .ret _

theorem batchRoom_safe (tail per maxFrames : Nat) (entry : Claiming producer state) :
    Safe (txContract setup producer) (fun _ => Claiming producer) (batchRoom setup producer tail per maxFrames)
      state := by
  unfold batchRoom
  split
  · split
    · exact fun _ rely _ => (Silent.of_rely rely).claiming entry
    · exact Safe.bind (txLawful setup producer) (latestFit_safe _ _ _ entry) fun _ _ _ held =>
        fun _ rely _ => (Silent.of_rely rely).claiming held
  · refine silent_safe (.bind (silent_waits (waits_batchBytes setup producer _ _ _)) fun bytes => ?_) entry
    split
    · exact .ret _
    · exact .bind (silent_waits (waits_batchMessages setup producer _)) fun _ => .ret _

omit [DecidableEq K] in
theorem silent_allocate (tail need count payloadLen : Nat) (hasExpiry : Bool) (expiresAt : Nat)
    (claimed : Nat → Claimed) : Silent producer state
      (state.allocate setup producer tail need count payloadLen hasExpiry expiresAt claimed) := by
  rw [State.allocate_eq]
  exact ⟨by simp, by simp⟩

omit [DecidableEq K] in
theorem silent_publishReservation (sequence : Nat) :
    Each (Silent producer) (publishReservation producer sequence : Prog (State n m K) Unit) :=
  .bind (.store fun state => .of_setRing state _ rfl rfl) fun _ =>
    .bind (.store fun state => .of_setRing state _ rfl rfl) fun _ => .store fun state => .of_setRing state _ rfl rfl

theorem claimGuarded_safe (payloadLen : UInt32) (expiresAt : UInt64) (hasExpiry : Bool)
    (entry : Claiming producer state) : Safe (txContract setup producer) (fun _ => Claiming producer)
      (claimGuarded setup producer payloadLen expiresAt hasExpiry) state := by
  refine Safe.bind (txLawful setup producer) (silent_safe (silent_reads (.load _)) entry) fun tail _ _ held => ?_
  refine Safe.bind (txLawful setup producer) (claimRoom_safe _ _ held) fun room _ _ held => ?_
  cases room with
  | error error => exact fun _ rely _ => (Silent.of_rely rely).claiming held
  | ok done =>
      exact silent_safe (.bind (.modifyGet (fun state => silent_allocate ..) _) fun sequence =>
        .bind (silent_publishReservation _) fun _ => .ret _) held

theorem claimBatchGuarded_safe (payloadLen maxFrames : UInt32) (expiresAt : UInt64) (hasExpiry : Bool)
    (entry : Claiming producer state) : Safe (txContract setup producer) (fun _ => Claiming producer)
      (claimBatchGuarded setup producer payloadLen maxFrames expiresAt hasExpiry) state := by
  refine Safe.bind (txLawful setup producer) (silent_safe (silent_reads (.load _)) entry) fun tail _ _ held => ?_
  refine Safe.bind (txLawful setup producer) (batchRoom_safe _ _ _ held) fun room _ _ held => ?_
  cases room with
  | error error => exact fun _ rely _ => (Silent.of_rely rely).claiming held
  | ok fit =>
      exact silent_safe (.bind (.modifyGet (fun state => silent_allocate ..) _) fun sequence =>
        .bind (silent_publishReservation _) fun _ => .ret _) held

/-- A claim leaves its section without an intent. -/
theorem guarded_safe {α : Type} {program : Prog (State n m K) α} {refused : α}
    (outside : (state.ring producer).claimActive = false)
    (body : ∀ state, Claiming producer state →
      Safe (txContract setup producer) (fun _ => Claiming producer) program state) :
    Safe (txContract setup producer) (fun _ _ => True) (do
      let acquired ← claimReservationGuard producer
      if acquired then
        let result ← program
        endClaimReservation producer
        pure result
      else
        pure refused) state := by
  refine Safe.modifyGet_bind fun current rely ready action => ?_
  have intent := ready.keeps ((Silent.of_rely rely).active.trans outside)
  cases gate : current.registrationGate.isNone with
  | false =>
      exact ⟨ready.keeps, .refl producer current, fun _ _ _ => trivial⟩
  | true =>
      simp only [gate, if_true] at action ⊢
      have claiming : Claiming producer
          (current.setRing producer fun ring => {ring with claimActive := true}) := ⟨by simp, by simpa using intent⟩
      refine ⟨fun _ => claiming.intent, action.1, Safe.bind (txLawful setup producer) (body _ claiming)
        fun result _ _ held => ?_⟩
      refine Safe.store_bind fun last rely ready action => ⟨fun _ => ?_, action.1, fun _ _ _ => trivial⟩
      simpa using ((Silent.of_rely rely).claiming held).intent

theorem transmitter_safe {request : Request n} {program : Prog (State n m K) (Label n m)}
    (begins : startTransmitter setup producer request = some program)
    (outside : (state.ring producer).claimActive = false) :
    Safe (txContract setup producer) (fun _ _ => True) program state := by
  have done {α : Type} {program : Prog (State n m K) α} {label : α → Label n m}
      (safe : Safe (txContract setup producer) (fun _ _ => True) program state) :
      Safe (txContract setup producer) (fun _ _ => True) (program.bind fun value => .ret (label value)) state :=
    Safe.bind (txLawful setup producer) safe fun _ _ _ _ => fun _ _ _ => trivial
  have ends {α : Type} {value : α} {state : State n m K} (held : Claiming producer state) :
      Safe (txContract setup producer) (fun _ => Claiming producer) (.ret value) state :=
    fun _ rely _ => (Silent.of_rely rely).claiming held
  cases request with
  | claim payloadLen expiresAt hasExpiry =>
      cases begins
      refine done ?_
      unfold claim
      split
      · exact fun _ _ _ => trivial
      refine guarded_safe outside fun current held => ?_
      split
      · exact ends held
      · exact claimGuarded_safe _ _ _ held
  | claimBatch payloadLen maxFrames expiresAt hasExpiry =>
      cases begins
      refine done ?_
      unfold claimBatch
      split
      · exact fun _ _ _ => trivial
      refine guarded_safe outside fun current held => ?_
      split
      · exact ends held
      · exact claimBatchGuarded_safe _ _ _ _ held
  | write claimed offset data =>
      cases begins
      exact done (silent_safe_any (silent_commits (commits_writePayload setup producer claimed offset data)))
  | commit claim =>
      cases begins
      exact done (silent_safe_any (silent_commits (commits_commit setup producer claim)))
  | commitBatch batch =>
      cases begins
      exact done (silent_safe_any (silent_commits (commits_commitBatch setup producer batch)))
  | createTx =>
      cases begins
      refine done (silent_safe_any (.bind (silent_reads (.load _)) fun _ => .bind (silent_reads (.load _)) fun _ =>
        .bind (.store fun state => ⟨rfl, rfl⟩) fun _ => ?_))
      split
      · exact .bind (silent_reads (reads_minimumConsumerMessageSequence setup producer)) fun minimum =>
          silent_waits (waits_setCachedConsumerMessageSequence producer minimum)
      · exact .ret _
  | _ => cases begins

/-- The other threads leave the claim flag and the intent of the producer alone. -/
theorem other_safe {thread : Thread n K} (other : thread ≠ .producer producer) {α : Type}
    {program : Prog (State n m K) α} :
    Safe ((Membership.extend setup (Withdrawn producer)).contract thread) (fun _ _ => True) program state :=
  Safe.of_action fun {before after} ready action => by
    have rely : TxRely producer before after :=
      Membership.compatible other ⟨ready.knows, trivial, ready.may⟩ ⟨action.2, trivial, trivial⟩ action.1
    exact ⟨(Silent.of_rely rely).withdrawn ready.keeps, action.1⟩

theorem sound (setup : Setup n m K) (producer : Fin n) :
    (Membership.extend setup (Withdrawn producer)).Sound (system setup) fun _ _ _ _ => True where
  lawful := Membership.extend_lawful
  compatible := Membership.extend_compatible
  start {thread label request program state} begins _ ready rests _ := by
    by_cases own : thread = .producer producer
    · subst own
      match label, begins with
      | .transmitter last, begins => exact transmitter_safe begins rests
    · exact other_safe own

theorem begun (setup : Setup n m K) (producer : Fin n) :
    (Membership.extend setup (Withdrawn producer)).Initial initial := by
  refine ⟨fun _ => rfl, fun thread => ?_⟩
  cases thread <;> exact fun _ _ _ => trivial

theorem of_run {config : Concurrent.Config (State n m K) (Thread n K) (Label n m)}
    (run : (system setup).Run (Membership.Acts setup) initial config) : Withdrawn producer config.shared :=
  ((sound setup producer).run (begun setup producer)
    (Membership.extend_knows (fun acts => acts) fun _ _ => trivial) run).1

end ClaimFailure

/-- The call has answered with an error. -/
def TxResult.refused : TxResult → Prop
  | .claimed (.error _) => True
  | .batched (.error _) => True
  | _ => False

end Salias.SharedHybridMpsc
