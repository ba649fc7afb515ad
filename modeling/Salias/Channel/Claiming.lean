import Salias.Channel.TxFrame

/-
Every program of a transmitter keeps the membership. The slots are frozen inside a claim section, so a scan
reads the words of one registration.
-/

namespace Salias.SharedHybridMpsc

open Concurrent Salias.Frame ConsumerRegistration

variable {n m : Nat} {K : Type}

namespace State

variable (setup : Setup n m K) (producer : Fin n) (tail need count payloadLen : Nat) (hasExpiry : Bool)
  (expiresAt : Nat) (claimed : Nat → Claimed) (state : State n m K)

/-- The frames that an allocation adds. -/
def allocated : List ClaimedFrame :=
  claimedFrames tail need count (state.nextSequence setup producer) payloadLen hasExpiry expiresAt

theorem allocate_eq : state.allocate setup producer tail need count payloadLen hasExpiry expiresAt claimed =
    (({state with globalSequence := if setup.mode.ordered then state.globalSequence + count
        else state.globalSequence}.setRing producer fun ring => {ring with
          localSequence := if setup.mode.ordered then ring.localSequence
            else (state.tx producer).localSequence + count
          frames := ring.frames ++ state.allocated setup producer tail need count payloadLen hasExpiry expiresAt}).setTx
      producer fun tx => {tx with
        producerPos := tail + need * count
        messageSequence := tx.messageSequence + count
        localSequence := if setup.mode.ordered then tx.localSequence else tx.localSequence + count
        reservations := tx.reservations ++
          [({claimed := claimed (state.nextSequence setup producer)
             floor := (state.ring producer).retainedPosition} : Reservation)]}) := by
  unfold allocate allocated
  cases ordered : setup.mode.ordered <;>
    simp [setRing, setTx, nextSequence, ordered, Function.update_idem]

theorem tally_allocate :
    (state.allocate setup producer tail need count payloadLen hasExpiry expiresAt claimed).tally producer =
      {state.tally producer with
        producerPos := tail + need * count
        messageSequence := (state.tx producer).messageSequence + count
        localSequence := if setup.mode.ordered then (state.tx producer).localSequence
          else (state.tx producer).localSequence + count
        ringSequence := if setup.mode.ordered then (state.ring producer).localSequence
          else (state.tx producer).localSequence + count
        frames := (state.ring producer).frames ++
          state.allocated setup producer tail need count payloadLen hasExpiry expiresAt} := by
  rw [allocate_eq]
  simp [tally, setTx, setRing]

end State

section Exact

variable {setup : Setup n m K} {producer : Fin n} {tail need count payloadLen : Nat} {hasExpiry : Bool}
  {expiresAt : Nat} {claimed : Nat → Claimed} {state : State n m K}

/-- The counters stay exact when a block of frames is claimed at the tail. -/
theorem exact_allocate (exact : (state.tally producer).Exact setup.mode.ordered setup.capacity)
    (start : tail = (state.tx producer).producerPos) (size : need = frameLen payloadLen hasExpiry)
    (fits : need ≤ setup.capacity) (payload : payloadLen < 2 ^ 32) (deadline : expiresAt < 2 ^ 64) :
    ((state.allocate setup producer tail need count payloadLen hasExpiry expiresAt claimed).tally
      producer).Exact setup.mode.ordered setup.capacity := by
  have tailIs : tail = frameOffset (state.ring producer).frames (state.ring producer).frames.length :=
    start.trans exact.position
  have chain := exact.chained.claim count (state.nextSequence setup producer) expiresAt tailIs size
  rw [State.tally_allocate]
  refine ⟨?_, ?_, chain.1, ?_, ?_, ?_⟩
  · have messages := exact.messages
    simp only [State.tally] at messages
    simp [State.allocated, messages]
  · simpa [State.allocated, State.tally] using chain.2.symm
  · intro frame member
    rcases List.mem_append.mp member with old | new
    · exact exact.valid frame old
    · obtain ⟨index, -, rfl⟩ := mem_claimedFrames.mp new
      exact ⟨payload, deadline, by rw [ClaimedFrame.length, ← size]; exact fits⟩
  · intro fifo
    have counted := (exact.counted fifo).1
    simp only [State.tally] at counted
    simp [fifo, State.allocated, counted]
  · intro fifo index below
    have counted := (exact.counted fifo).1
    simp only [State.tally] at counted
    dsimp only at below ⊢
    by_cases old : index < (state.ring producer).frames.length
    · rw [List.getElem_append_left old]
      exact exact.numbered fifo index old
    · rw [List.getElem_append_right (by omega)]
      simp only [State.allocated, claimedFrames, State.nextSequence, fifo, List.getElem_map, List.getElem_range]
      simp only [Bool.false_eq_true, if_false, counted]
      omega

theorem allocate_frames (other : Fin n) :
    ((state.allocate setup producer tail need count payloadLen hasExpiry expiresAt claimed).ring other).frames =
      if other = producer then (state.ring producer).frames ++
        state.allocated setup producer tail need count payloadLen hasExpiry expiresAt
      else (state.ring other).frames := by
  rw [State.allocate_eq]
  by_cases same : other = producer
  · subst same
    simp [State.setRing]
  · simp [State.setRing, same]

/-- The new frames take the next sequences of the shared counter. -/
theorem numbered_allocate (ordered : setup.mode.ordered = true) (numbered : Numbered state) :
    Numbered (state.allocate setup producer tail need count payloadLen hasExpiry expiresAt claimed) := by
  have counter : (state.allocate setup producer tail need count payloadLen hasExpiry expiresAt
      claimed).globalSequence = state.globalSequence + count := by
    rw [State.allocate_eq]
    simp [ordered]
  have new {frame : ClaimedFrame}
      (member : frame ∈ state.allocated setup producer tail need count payloadLen hasExpiry expiresAt) :
      state.globalSequence ≤ frame.sequence ∧ frame.sequence < state.globalSequence + count := by
    obtain ⟨index, below, rfl⟩ := mem_claimedFrames.mp member
    simp [State.nextSequence, ordered, below]
  have either {other : Fin n} {frame : ClaimedFrame}
      (member : frame ∈ ((state.allocate setup producer tail need count payloadLen hasExpiry expiresAt
        claimed).ring other).frames) : frame ∈ (state.ring other).frames ∨ (other = producer ∧
        frame ∈ state.allocated setup producer tail need count payloadLen hasExpiry expiresAt) := by
    rw [allocate_frames] at member
    split at member
    · rename_i same
      subst same
      exact (List.mem_append.mp member).imp_right fun late => ⟨rfl, late⟩
    · exact .inl member
  refine ⟨fun other frame member => ?_, fun other => ?_, fun sequence below => ?_, ?_⟩
  · rw [counter]
    rcases either member with old | ⟨-, late⟩
    · exact (numbered.below other frame old).trans_le (Nat.le_add_right _ _)
    · exact (new late).2
  · rw [allocate_frames]
    split
    · refine List.pairwise_append.mpr ⟨numbered.increasing producer, ?_, fun old member late fresh =>
        (numbered.below producer old member).trans_le (new fresh).1⟩
      rw [State.allocated, claimedFrames, List.pairwise_map]
      exact List.pairwise_lt_range.imp fun less => Nat.add_lt_add_left less _
    · exact numbered.increasing other
  · rw [counter] at below
    by_cases old : sequence < state.globalSequence
    · obtain ⟨other, frame, member, same⟩ := numbered.taken sequence old
      refine ⟨other, frame, ?_, same⟩
      rw [allocate_frames]
      split
      · rename_i equal
        exact List.mem_append_left _ (equal ▸ member)
      · exact member
    · refine ⟨producer, ⟨tail + need * (sequence - state.globalSequence), payloadLen, hasExpiry, expiresAt,
        sequence⟩, ?_, rfl⟩
      rw [allocate_frames, if_pos rfl]
      refine List.mem_append_right _ (mem_claimedFrames.mpr ⟨sequence - state.globalSequence, by omega, ?_⟩)
      simp only [State.nextSequence, ordered, if_true, ClaimedFrame.mk.injEq, true_and]
      omega
  · intro first second left leftMember right rightMember same
    rcases either leftMember with oldLeft | ⟨ofLeft, newLeft⟩ <;>
      rcases either rightMember with oldRight | ⟨ofRight, newRight⟩
    · exact numbered.apart first second left oldLeft right oldRight same
    · have := numbered.below first left oldLeft
      have := (new newRight).1
      omega
    · have := numbered.below second right oldRight
      have := (new newLeft).1
      omega
    · exact ofLeft.trans ofRight.symm

end Exact

section Transmit

variable {setup : Setup n m K} {producer : Fin n} {before after : State n m K}

theorem lives_congr (same : after.alive = before.alive) (client : K) :
    after.lives setup client ↔ before.lives setup client := by
  rw [State.lives, State.isRegisteredProcessAlive_congr same, State.lives]

/-- A step of a transmitter keeps the membership when it keeps its own counters. -/
theorem Membership.transmit (membership : Membership setup before) (step : TxStep producer before after)
    (exact : (after.tally producer).Exact setup.mode.ordered setup.capacity)
    (settled : (after.ring producer).claimActive = false → (after.tally producer).Settled setup.mode.ordered)
    (numbered : setup.mode.ordered = true → Numbered after) : Membership setup after where
  owner consumer active := by
    rw [State.slotActive, step.slot] at active
    obtain ⟨client, registration, word, pid, start⟩ := membership.owner consumer active
    exact ⟨client, by rw [step.client, step.slot]; exact registration, by rw [step.slot]; exact word,
      by rw [step.slot]; exact pid, by rw [step.slot]; exact start⟩
  registered client consumer token lives registered := by
    rw [lives_congr step.alive] at lives
    rw [step.client] at registered
    obtain ⟨active, ⟨registration, word, pid, start⟩, generations⟩ :=
      membership.registered client consumer token lives registered
    refine ⟨by rw [State.slotActive, step.slot]; exact active, ⟨by rw [step.client, step.slot]; exact registration,
      by rw [step.slot]; exact word, by rw [step.slot]; exact pid, by rw [step.slot]; exact start⟩, fun other => ?_⟩
    rw [← generations other]
    by_cases same : other = producer
    · subst same
      rcases step.cursor consumer with equal | ⟨-, -, cleared⟩
      · rw [equal]
      · rw [cleared]
    · rw [State.cursor, (step.others other same).1, State.cursor]
  exclusive first second consumer one two firstLives secondLives := by
    rw [step.client]
    exact membership.exclusive first second consumer one two ((lives_congr step.alive _).mp firstLives)
      ((lives_congr step.alive _).mp secondLives)
  exact other := by
    by_cases same : other = producer
    · exact same ▸ exact
    · obtain ⟨ring, tx⟩ := step.others other same
      rw [tally_congr tx (by rw [ring])]
      exact membership.exact other
  settled other closed := by
    by_cases same : other = producer
    · subst same
      exact settled closed
    · obtain ⟨ring, tx⟩ := step.others other same
      rw [tally_congr tx (by rw [ring])]
      exact membership.settled other (by rw [← ring]; exact closed)
  numbered := numbered

theorem Numbered.congr (numbered : Numbered before)
    (frames : ∀ producer, (after.ring producer).frames = (before.ring producer).frames)
    (counter : after.globalSequence = before.globalSequence) : Numbered after where
  below producer := by
    rw [frames, counter]
    exact numbered.below producer
  increasing producer := by
    rw [frames]
    exact numbered.increasing producer
  taken := by
    rw [counter]
    simp only [frames]
    exact numbered.taken
  apart := by
    simp only [frames]
    exact numbered.apart

theorem TxStep.frames_of_ne (step : TxStep producer before after) {other : Fin n} (different : other ≠ producer) :
    (after.ring other).frames = (before.ring other).frames := by
  rw [(step.others other different).1]

/-- A step that leaves the frames and the counters keeps the membership. -/
theorem Membership.transmit_tally (membership : Membership setup before) (step : TxStep producer before after)
    (tally : after.tally producer = before.tally producer)
    (counter : after.globalSequence = before.globalSequence)
    (settled : (after.ring producer).claimActive = false → (before.tally producer).Settled setup.mode.ordered) :
    Membership setup after := by
  refine membership.transmit step (tally ▸ membership.exact producer) (fun closed => tally ▸ settled closed)
    fun ordered => (membership.numbered ordered).congr (fun other => ?_) counter
  by_cases same : other = producer
  · subst same
    exact congrArg Tally.frames tally
  · exact step.frames_of_ne same

theorem TxKeeps.membership (keeps : TxKeeps producer before after) (membership : Membership setup before) :
    Membership setup after :=
  membership.transmit_tally keeps.step keeps.tally keeps.globalSequence fun closed =>
    membership.settled producer (keeps.claimActive.symm.trans closed)

end Transmit

namespace Membership

section Tally

variable {setup : Setup n m K} {producer : Fin n}

/-- A fact about the tally and the claim flag of a producer. -/
def OfTally (producer : Fin n) (holds : State n m K → Prop) : Prop :=
  ∀ before after : State n m K, after.tally producer = before.tally producer →
    (after.ring producer).claimActive = (before.ring producer).claimActive → holds before → holds after

theorem OfTally.stable {holds : State n m K → Prop} (of : OfTally producer holds) {before after : State n m K}
    (rely : TxRely producer before after) (held : holds before) : holds after :=
  of before after (tally_congr rely.tx rely.owned) (owned_claimActive rely.owned) held

/-- The producer is inside a claim section and has announced everything, with its tail where it was. -/
structure Claiming (setup : Setup n m K) (producer : Fin n) (tail : Nat) (state : State n m K) : Prop where
  claiming : (state.ring producer).claimActive = true
  settled : (state.tally producer).Settled setup.mode.ordered
  tail : (state.tx producer).producerPos = tail

theorem Claiming.ofTally (setup : Setup n m K) (producer : Fin n) (tail : Nat) :
    OfTally producer (Claiming setup producer tail) := by
  intro before after tally claimActive held
  exact ⟨claimActive.trans held.claiming, tally ▸ held.settled, (congrArg Tally.producerPos tally).trans held.tail⟩

/-- A lease of a dead slot may be cleared inside a claim section. -/
theorem clearLease_step {state : State n m K} {consumer : Fin m}
    (claiming : (state.ring producer).claimActive = true) (dead : ¬ state.slotAlive consumer) :
    TxStep producer state (state.setCursor producer consumer fun cursor =>
      {cursor with leaseStart := kNoLease, leaseStage := .none}) where
  slot := rfl
  consumerSequences := rfl
  gate := rfl
  clock := rfl
  alive := rfl
  client := rfl
  others other different := ⟨by simp [State.setCursor, different], rfl⟩
  cursor other := by
    by_cases same : other = consumer
    · subst same
      exact .inr ⟨claiming, dead, by simp⟩
    · exact .inl (State.setCursor_cursor_of_ne _ _ _ _ _ _ (.inr same))
  opens closed := absurd (closed.symm.trans claiming) (by decide)
  quiet closed := absurd (closed.symm.trans claiming) (by decide)
  grows := by simp [State.setCursor]

/-- Inside a claim section a producer may change its own words, but for those of the consumers. -/
theorem claiming_step {before after : State n m K} (claiming : (before.ring producer).claimActive = true)
    (same : after = {before with
      ring := after.ring, tx := after.tx, globalSequence := after.globalSequence})
    (others : ∀ other, other ≠ producer → after.ring other = before.ring other ∧ after.tx other = before.tx other)
    (consumers : (after.ring producer).consumers = (before.ring producer).consumers)
    (grows : (before.ring producer).frames <+: (after.ring producer).frames) : TxStep producer before after where
  slot := by rw [same]
  consumerSequences := by rw [same]
  gate := by rw [same]
  clock := by rw [same]
  alive := by rw [same]
  client := by rw [same]
  others := others
  cursor consumer := .inl (by rw [State.cursor, consumers, State.cursor])
  opens closed := absurd (closed.symm.trans claiming) (by decide)
  quiet closed := absurd (closed.symm.trans claiming) (by decide)
  grows := grows

/-- The claim flag may be set while the registration gate is open. -/
theorem flag_step (producer : Fin n) (state : State n m K) (value : Bool)
    (opens : (state.ring producer).claimActive = false → value = true → state.registrationGate = none) :
    TxStep producer state (state.setRing producer fun ring => {ring with claimActive := value}) where
  slot := rfl
  consumerSequences := rfl
  gate := rfl
  clock := rfl
  alive := rfl
  client := rfl
  others other different := ⟨by simp [different], rfl⟩
  cursor consumer := .inl (by simp [State.cursor])
  opens closed opened := opens closed (by simpa using opened)
  quiet _ := ⟨by simp [State.tally], rfl⟩
  grows := by simp

theorem allocate_step (setup : Setup n m K) {state : State n m K} (claiming : (state.ring producer).claimActive = true)
    (tail need count payloadLen : Nat) (hasExpiry : Bool) (expiresAt : Nat) (claimed : Nat → Claimed) :
    TxStep producer state
      (state.allocate setup producer tail need count payloadLen hasExpiry expiresAt claimed) := by
  refine claiming_step claiming ?_ (fun other different => ?_) ?_ ?_
  · rw [State.allocate_eq]
    rfl
  · rw [State.allocate_eq]
    simp [State.setRing, State.setTx, different]
  · rw [State.allocate_eq]
    simp [State.setRing]
  · rw [allocate_frames, if_pos rfl]
    exact List.prefix_append _ _

theorem announce_step {state : State n m K} (claiming : (state.ring producer).claimActive = true)
    (change : ProducerRing m → ProducerRing m)
    (consumers : (change (state.ring producer)).consumers = (state.ring producer).consumers)
    (frames : (change (state.ring producer)).frames = (state.ring producer).frames) :
    TxStep producer state (state.setRing producer change) := by
  refine claiming_step claiming rfl (fun other different => ⟨by simp [different], rfl⟩) ?_ ?_
  · simpa using consumers
  · simp [frames]

/-- The announcement changes nothing that the counters describe. -/
theorem exact_announce {ordered : Bool} {capacity : Nat} {tally other : Tally}
    (exact : tally.Exact ordered capacity)
    (same : other = {tally with
      announcedPosition := other.announcedPosition
      announcedSequence := other.announcedSequence
      announcedMessages := other.announcedMessages}) : other.Exact ordered capacity := by
  rw [same]
  exact ⟨exact.messages, exact.position, exact.chained, exact.valid, exact.counted, exact.numbered⟩

end Tally

variable [DecidableEq K] {setup : Setup n m K} {producer : Fin n} {α : Type}

/-- The contract of a transmitter. -/
abbrev txContract (setup : Setup n m K) (producer : Fin n) : Contract (State n m K) :=
  (discipline setup).contract (.producer producer)

theorem txLawful (setup : Setup n m K) (producer : Fin n) : (txContract setup producer).Lawful :=
  lawful setup (.producer producer)

/-- A program that leaves the counters alone keeps every fact about them. -/
theorem keeps_safe {holds : State n m K → Prop} {program : Prog (State n m K) α}
    (each : Each (TxKeeps producer) program) (of : OfTally producer holds) {state : State n m K}
    (entry : holds state) : Safe (txContract setup producer) (fun _ => holds) program state :=
  Safe.of_each each
    (fun ready _ keeps held => ⟨keeps.membership ready.keeps, keeps.step, of _ _ keeps.tally keeps.claimActive held⟩)
    (fun rely _ held => of.stable rely held) entry

section Section

variable {holds : State n m K → Prop} {state : State n m K}

/-- The scan of the leases clears only a lease whose process it has found dead. -/
theorem leaseRound_safe (tail writeLength : Nat) (consumer : Fin m) (of : OfTally producer holds)
    (claiming : ∀ state, holds state → (state.ring producer).claimActive = true) (entry : holds state) :
    Safe (txContract setup producer) (fun _ => holds) (leaseRound setup producer tail writeLength () consumer)
      state := by
  have rests {result : Unit ⊕ Bool} {current : State n m K} (held : holds current) :
      Safe (txContract setup producer) (fun _ => holds) (.ret result) current :=
    fun _ rely _ => of.stable rely held
  unfold leaseRound
  refine Safe.load_bind (txLawful setup producer) fun first rely _ => ?_
  have held := of.stable rely entry
  split
  · exact rests held
  refine Safe.load_bind (txLawful setup producer) fun second rely _ => ?_
  have held := of.stable rely held
  split
  · exact rests held
  split
  · exact rests held
  refine Safe.load_bind (txLawful setup producer) fun third rely _ => ?_
  have held := of.stable rely held
  refine Safe.load_bind (txLawful setup producer) fun fourth rely _ => ?_
  have held := of.stable rely held
  split
  · exact rests held
  -- the slot is frozen, so the three loads judge one registration
  refine Safe.load_bind (txLawful setup producer) fun fifth rely _ => ?_
  have held := of.stable rely held
  refine Safe.load_bind (txLawful setup producer) fun sixth relySixth _ => ?_
  have slotSixth := relySixth.slots (claiming _ held)
  have held := of.stable relySixth held
  refine Safe.load_bind (txLawful setup producer) fun seventh relySeventh _ => ?_
  have slotSeventh := relySeventh.slots (claiming _ held)
  have held := of.stable relySeventh held
  refine Safe.load_bind (txLawful setup producer) fun eighth relyEighth _ => ?_
  have slotEighth := relyEighth.slots (claiming _ held)
  have held := of.stable relyEighth held
  split
  · exact rests held
  · rename_i verdict
    refine Safe.store_bind fun last rely ready _ => ?_
    have slotLast := rely.slots (claiming _ held)
    have held := of.stable rely held
    have dead : ¬ last.slotAlive consumer := by
      intro alive
      have earlier := relyEighth.outlives.registered (rely.outlives.registered alive)
      rw [slotLast, slotEighth, slotSeventh] at earlier
      exact verdict (.inr (by simpa [slotSixth] using earlier))
    have step := clearLease_step (claiming _ held) dead
    have tally : (last.setCursor producer consumer fun cursor =>
        {cursor with leaseStart := kNoLease, leaseStage := .none}).tally producer = last.tally producer :=
      tally_congr rfl (by simp)
    have active : ((last.setCursor producer consumer fun cursor =>
        {cursor with leaseStart := kNoLease, leaseStage := .none}).ring producer).claimActive =
          (last.ring producer).claimActive := owned_claimActive (by simp)
    refine ⟨ready.keeps.transmit_tally step tally rfl fun closed => ?_, step,
      rests (of last _ tally active held)⟩
    exact absurd (closed.symm.trans (active.trans (claiming _ held))) (by decide)

variable (of : OfTally producer holds)
  (claiming : ∀ state, holds state → (state.ring producer).claimActive = true)

include of claiming

theorem announceAndEvict_safe (tail writeLength : Nat) (previous floor : Nat × Nat) (entry : holds state) :
    Safe (txContract setup producer) (fun _ => holds)
      (announceAndEvict setup producer tail writeLength previous floor) state := by
  refine Safe.bind (txLawful setup producer) (keeps_safe (keeps_setRetentionIntent producer _) of entry)
    fun _ _ _ held => ?_
  refine Safe.bind (M := fun _ => holds) (txLawful setup producer) ?_ fun scanned _ _ held => ?_
  · refine Safe.weaken (Safe.foldUntil (txLawful setup producer) (I := fun _ _ => holds)
      (S := fun _ => holds) (fun rely _ => of.stable rely) ?_ (fun rely _ => of.stable rely) held) ?_
    · intro consumer rest carried current held
      refine Safe.weaken (leaseRound_safe tail writeLength consumer of claiming held) fun result _ _ held => ?_
      cases result <;> exact held
    · intro result _ _ held
      cases result <;> exact held
  have clear (current : State n m K) (held : holds current) (result : Bool) :
      Safe (txContract setup producer) (fun _ => holds)
        ((setRetentionIntent producer kNoLease).bind fun _ => .ret result) current :=
    keeps_safe (.bind (keeps_setRetentionIntent producer _) fun _ => .ret _) of held
  cases scanned with
  | inr stopped => exact clear _ held _
  | inl done =>
      refine keeps_safe (.bind (.when (.store fun state => ?_)) fun _ => .bind (.when (.store fun state => ?_))
        fun _ => .bind (keeps_setRetentionIntent producer _) fun _ => .ret _) of held
      · exact .of_setRing state _ ⟨rfl, rfl, rfl, rfl, rfl⟩ rfl rfl
      · exact .of_setRing state _ ⟨rfl, rfl, rfl, rfl, rfl⟩ rfl rfl

theorem prepareDropOldestWrite_safe (tail writeLength writeCount : Nat) (entry : holds state) :
    Safe (txContract setup producer) (fun _ => holds)
      (prepareDropOldestWrite setup producer tail writeLength writeCount) state := by
  have rests {result : Bool} {current : State n m K} (held : holds current) :
      Safe (txContract setup producer) (fun _ => holds) (.ret result) current :=
    fun _ rely _ => of.stable rely held
  have reads {β : Type} {program : Prog (State n m K) β} {current : State n m K} (reads : Reads program)
      (held : holds current) : Safe (txContract setup producer) (fun _ => holds) program current :=
    keeps_safe (reads.each (.refl producer)) of held
  unfold prepareDropOldestWrite
  dsimp only
  split
  · exact rests entry
  refine Safe.bind (txLawful setup producer) (reads (.load _) entry) fun retained _ _ held => ?_
  refine Safe.bind (txLawful setup producer) (reads (.load _) held) fun messages _ _ held => ?_
  refine Safe.bind (txLawful setup producer) (reads (.load _) held) fun tx _ _ held => ?_
  split
  · exact rests held
  refine Safe.bind (txLawful setup producer) (reads (Each.repeatUntil
    (fun floor => reads_evictionRound setup producer _ _ _ floor) _ _) held) fun walked _ _ held => ?_
  split
  · split
    · exact rests held
    refine Safe.bind (M := fun _ => holds) (txLawful setup producer) ?_ fun allowed _ _ held => ?_
    · split
      · exact reads (reads_reliableConsumersAllowRetention producer _ _ _ _) held
      · exact rests held
    split
    · exact announceAndEvict_safe of claiming _ _ _ _ held
    · exact rests held
  · exact rests held

theorem latestFit_safe (tail per maxFrames : Nat) (entry : holds state) :
    Safe (txContract setup producer) (fun _ => holds) (latestFit setup producer tail per maxFrames) state := by
  have rests {β : Type} {result : β} {current : State n m K} (held : holds current) :
      Safe (txContract setup producer) (fun _ => holds) (.ret result) current :=
    fun _ rely _ => of.stable rely held
  unfold latestFit
  dsimp only
  refine Safe.bind (txLawful setup producer) (prepareDropOldestWrite_safe of claiming _ _ _ entry)
    fun prepared _ _ held => ?_
  split
  · exact rests held
  refine Safe.bind (M := fun _ => holds) (txLawful setup producer) ?_ fun searched _ _ held => ?_
  · refine Safe.weaken (Safe.repeatUntil (txLawful setup producer) (I := fun _ => holds)
      (S := fun _ => holds) (fun rely _ => of.stable rely) ?_ (fun rely _ => of.stable rely) held) ?_
    · intro bounds current held
      refine Safe.weaken (P := fun _ => holds) ?_ fun result _ _ held => by cases result <;> exact held
      unfold longestPrefixRound
      split
      · refine Safe.bind (txLawful setup producer) (prepareDropOldestWrite_safe of claiming _ _ _ held)
          fun prepared _ _ held => ?_
        split <;> exact rests held
      · exact rests held
    · intro result _ _ held
      cases result <;> exact held
  · split <;> exact rests held

theorem claimRoom_safe (tail need : Nat) (entry : holds state) :
    Safe (txContract setup producer) (fun _ => holds) (claimRoom setup producer tail need) state := by
  have rests {result : Except FlowError Unit} {current : State n m K} (held : holds current) :
      Safe (txContract setup producer) (fun _ => holds) (.ret result) current :=
    fun _ rely _ => of.stable rely held
  unfold claimRoom
  split
  · split
    · exact rests entry
    exact Safe.bind (txLawful setup producer) (prepareDropOldestWrite_safe of claiming _ _ _ entry)
      fun prepared _ _ held => rests held
  · refine Safe.bind (txLawful setup producer) (keeps_safe (keeps_of_caches producer (caches_reserveBytes setup producer _ _)) of entry)
      fun bytes _ _ held => ?_
    split
    · exact Safe.bind (txLawful setup producer) (keeps_safe (keeps_of_caches producer (caches_reserveMessage setup producer)) of held)
        fun message _ _ held => rests held
    · exact rests held

theorem batchRoom_safe (tail per maxFrames : Nat) (entry : holds state) :
    Safe (txContract setup producer) (fun _ => holds) (batchRoom setup producer tail per maxFrames) state := by
  have rests {result : Except FlowError Nat} {current : State n m K} (held : holds current) :
      Safe (txContract setup producer) (fun _ => holds) (.ret result) current :=
    fun _ rely _ => of.stable rely held
  unfold batchRoom
  split
  · split
    · exact rests entry
    exact Safe.bind (txLawful setup producer) (latestFit_safe of claiming _ _ _ entry)
      fun fit _ _ held => rests held
  · refine Safe.bind (txLawful setup producer) (keeps_safe (keeps_of_caches producer (caches_batchBytes setup producer _ _ _)) of entry)
      fun bytes _ _ held => ?_
    split
    · exact rests held
    · exact Safe.bind (txLawful setup producer) (keeps_safe (keeps_of_caches producer (caches_batchMessages setup producer _)) of held)
        fun message _ _ held => rests held

end Section

section Programs

variable {state : State n m K}

/-- The producer is inside a claim section and has announced everything. -/
def Announced (setup : Setup n m K) (producer : Fin n) (state : State n m K) : Prop :=
  (state.ring producer).claimActive = true ∧ (state.tally producer).Settled setup.mode.ordered

omit [DecidableEq K] in
theorem Announced.ofTally (setup : Setup n m K) (producer : Fin n) : OfTally producer (Announced setup producer) :=
  fun _ _ tally claimActive held => ⟨claimActive.trans held.1, tally ▸ held.2⟩

omit [DecidableEq K] in
/-- One store of the announcement. -/
theorem announce_keeps (change : ProducerRing m → ProducerRing m) (membership : Membership setup state)
    (claiming : (state.ring producer).claimActive = true)
    (words : (change (state.ring producer)).consumers = (state.ring producer).consumers ∧
      (change (state.ring producer)).frames = (state.ring producer).frames ∧
      (change (state.ring producer)).claimActive = (state.ring producer).claimActive ∧
      (change (state.ring producer)).localSequence = (state.ring producer).localSequence) :
    Membership setup (state.setRing producer change) ∧ TxStep producer state (state.setRing producer change) := by
  obtain ⟨consumers, frames, claimActive, ring⟩ := words
  have step := announce_step claiming change consumers frames
  refine ⟨membership.transmit step ?_ ?_ ?_, step⟩
  · exact exact_announce (membership.exact producer) (by simp [State.tally, frames, ring])
  · simp [claimActive, claiming]
  · refine fun ordered => (membership.numbered ordered).congr (fun other => ?_) rfl
    by_cases same : other = producer
    · subst same
      simp [frames]
    · simp [same]

/-- The announcement follows the private counters, which nobody else changes. -/
theorem publishReservation_safe (sequence : Nat) (claiming : (state.ring producer).claimActive = true)
    (counted : setup.mode.ordered = false → (state.tally producer).localSequence = sequence) :
    Safe (txContract setup producer) (fun _ => Announced setup producer) (publishReservation producer sequence)
      state := by
  have of (holds : Tally → Prop) : OfTally producer fun state : State n m K =>
      (state.ring producer).claimActive = true ∧ holds (state.tally producer) :=
    fun _ _ tally claimActive held => ⟨claimActive.trans held.1, tally ▸ held.2⟩
  refine Safe.store_bind fun first rely ready _ => ?_
  have held := (of fun tally => setup.mode.ordered = false → tally.localSequence = sequence).stable rely
    ⟨claiming, counted⟩
  obtain ⟨kept, step⟩ := announce_keeps
    (fun ring => {ring with reservationPosition := (first.tx producer).producerPos}) ready.keeps held.1
    ⟨rfl, rfl, rfl, rfl⟩
  refine ⟨kept, step, Safe.store_bind fun second rely ready _ => ?_⟩
  have held := (of fun tally => (setup.mode.ordered = false → tally.localSequence = sequence) ∧
    tally.announcedPosition = tally.producerPos).stable rely ⟨by simpa using held.1, by simpa [State.tally] using held.2⟩
  obtain ⟨kept, step⟩ := announce_keeps (fun ring => {ring with reservationSequence := sequence}) ready.keeps held.1
    ⟨rfl, rfl, rfl, rfl⟩
  refine ⟨kept, step, fun third rely ready _ => ?_⟩
  have held := (of fun tally => (setup.mode.ordered = false → tally.announcedSequence = tally.localSequence) ∧
    tally.announcedPosition = tally.producerPos).stable rely
      ⟨by simpa using held.1, fun fifo => by simpa [State.tally] using (held.2.1 fifo).symm,
        by simpa [State.tally] using held.2.2⟩
  obtain ⟨kept, step⟩ := announce_keeps
    (fun ring => {ring with reservationMessageSequence := (third.tx producer).messageSequence}) ready.keeps held.1
    ⟨rfl, rfl, rfl, rfl⟩
  refine ⟨kept, step, fun last rely _ => (Announced.ofTally setup producer).stable rely ⟨by simpa using held.1, ?_⟩⟩
  exact ⟨by simpa [State.tally] using held.2.2, by simp [State.tally],
    fun fifo => by simpa [State.tally] using held.2.1 fifo⟩

omit [DecidableEq K] in
/-- A block of frames enters the history with its sequences. -/
theorem allocate_keeps {tail need payloadLen expiresAt : Nat} {hasExpiry : Bool} (count : Nat) (claimed : Nat → Claimed)
    (membership : Membership setup state) (held : Claiming setup producer tail state)
    (size : need = frameLen payloadLen hasExpiry) (fits : need ≤ setup.capacity) (payload : payloadLen < 2 ^ 32)
    (deadline : expiresAt < 2 ^ 64) :
    Membership setup (state.allocate setup producer tail need count payloadLen hasExpiry expiresAt claimed) ∧
      TxStep producer state
        (state.allocate setup producer tail need count payloadLen hasExpiry expiresAt claimed) ∧
      ((state.allocate setup producer tail need count payloadLen hasExpiry expiresAt claimed).ring
        producer).claimActive = true ∧
      (setup.mode.ordered = false → ((state.allocate setup producer tail need count payloadLen hasExpiry expiresAt
        claimed).tally producer).localSequence = state.nextSequence setup producer + count) := by
  have step := allocate_step setup held.claiming tail need count payloadLen hasExpiry expiresAt claimed
  have active : ((state.allocate setup producer tail need count payloadLen hasExpiry expiresAt claimed).ring
      producer).claimActive = true := by
    rw [State.allocate_eq]
    simpa [State.setRing] using held.claiming
  refine ⟨membership.transmit step ?_ (fun closed => absurd (closed.symm.trans active) (by decide))
    fun ordered => numbered_allocate ordered (membership.numbered ordered), step, active, fun fifo => ?_⟩
  · exact exact_allocate (membership.exact producer) held.tail.symm size fits payload deadline
  · rw [State.tally_allocate]
    simp [fifo, State.nextSequence]

theorem claimGuarded_safe (payloadLen : UInt32) (expiresAt : UInt64) (hasExpiry : Bool)
    (fits : frameLen payloadLen.toNat hasExpiry ≤ setup.capacity) (entry : Announced setup producer state) :
    Safe (txContract setup producer) (fun _ => Announced setup producer)
      (claimGuarded setup producer payloadLen expiresAt hasExpiry) state := by
  refine Safe.load_bind (txLawful setup producer) fun first rely _ => ?_
  have held : Claiming setup producer (first.tx producer).producerPos first := by
    have announced := (Announced.ofTally setup producer).stable rely entry
    exact ⟨announced.1, announced.2, rfl⟩
  refine Safe.bind (txLawful setup producer) (claimRoom_safe (Claiming.ofTally setup producer _)
    (fun _ claiming => claiming.claiming) _ _ held) fun room current ready held => ?_
  cases room with
  | error error =>
      exact fun _ rely _ => (Announced.ofTally setup producer).stable rely ⟨held.claiming, held.settled⟩
  | ok done =>
      refine Safe.modifyGet_bind fun second rely ready _ => ?_
      have held := (Claiming.ofTally setup producer _).stable rely held
      obtain ⟨kept, step, active, counted⟩ := allocate_keeps 1 (fun sequence => .single
        ⟨(first.tx producer).producerPos, payloadLen.toNat, claimMeta sequence hasExpiry, sequence,
          expiresAt.toNat⟩) ready.keeps held rfl fits payloadLen.toNat_lt expiresAt.toNat_lt
      exact ⟨kept, step, Safe.bind (txLawful setup producer) (publishReservation_safe _ active counted)
        fun _ _ _ held => fun _ rely _ => (Announced.ofTally setup producer).stable rely held⟩

theorem claimBatchGuarded_safe (payloadLen maxFrames : UInt32) (expiresAt : UInt64) (hasExpiry : Bool)
    (fits : frameLen payloadLen.toNat hasExpiry ≤ setup.capacity) (entry : Announced setup producer state) :
    Safe (txContract setup producer) (fun _ => Announced setup producer)
      (claimBatchGuarded setup producer payloadLen maxFrames expiresAt hasExpiry) state := by
  refine Safe.load_bind (txLawful setup producer) fun first rely _ => ?_
  have held : Claiming setup producer (first.tx producer).producerPos first := by
    have announced := (Announced.ofTally setup producer).stable rely entry
    exact ⟨announced.1, announced.2, rfl⟩
  refine Safe.bind (txLawful setup producer) (batchRoom_safe (Claiming.ofTally setup producer _)
    (fun _ claiming => claiming.claiming) _ _ _ held) fun room current ready held => ?_
  cases room with
  | error error =>
      exact fun _ rely _ => (Announced.ofTally setup producer).stable rely ⟨held.claiming, held.settled⟩
  | ok fit =>
      refine Safe.modifyGet_bind fun second rely ready _ => ?_
      have held := (Claiming.ofTally setup producer _).stable rely held
      obtain ⟨kept, step, active, counted⟩ := allocate_keeps fit (fun sequence => .batch
        ⟨frameLen payloadLen.toNat hasExpiry * fit, (first.tx producer).producerPos,
          frameLen payloadLen.toNat hasExpiry % 2 ^ 32, fit, payloadLen.toNat, sequence, hasExpiry,
          expiresAt.toNat⟩) ready.keeps held rfl fits payloadLen.toNat_lt expiresAt.toNat_lt
      exact ⟨kept, step, Safe.bind (txLawful setup producer) (publishReservation_safe _ active counted)
        fun _ _ _ held => fun _ rely _ => (Announced.ofTally setup producer).stable rely held⟩

/-- The label of a resting transmitter. -/
abbrev Outside (producer : Fin n) (state : State n m K) : Prop := (state.ring producer).claimActive = false

omit [DecidableEq K] in
theorem Outside.ofTally (producer : Fin n) : OfTally producer (Outside producer : State n m K → Prop) :=
  fun _ _ _ claimActive held => claimActive.trans held

/-- The guard opens and closes around the body of a claim. -/
theorem guarded_safe {program : Prog (State n m K) α}
    (body : ∀ state, Announced setup producer state →
      Safe (txContract setup producer) (fun _ => Announced setup producer) program state)
    {refused : α} (entry : Outside producer state) :
    Safe (txContract setup producer) (fun _ => Outside producer) (do
      let acquired ← claimReservationGuard producer
      if acquired then
        let result ← program
        endClaimReservation producer
        pure result
      else
        pure refused) state := by
  refine Safe.modifyGet_bind fun current rely ready _ => ?_
  have outside := (Outside.ofTally producer).stable rely entry
  cases gate : current.registrationGate with
  | some owner =>
      simp only [Option.isNone_some, Bool.false_eq_true, if_false]
      exact ⟨ready.keeps, .refl producer current, fun _ rely _ => (Outside.ofTally producer).stable rely outside⟩
  | none =>
      simp only [Option.isNone_none, if_true]
      have settled := ready.keeps.settled producer outside
      have step := flag_step producer current true fun _ _ => gate
      have tally : (current.setRing producer fun ring => {ring with claimActive := true}).tally producer =
          current.tally producer := by simp [State.tally]
      refine ⟨ready.keeps.transmit_tally step tally rfl fun _ => settled, step,
        Safe.bind (txLawful setup producer) (body _ ⟨by simp, tally ▸ settled⟩) fun result last ready held =>
          Safe.store_bind fun final rely ready _ => ?_⟩
      obtain ⟨-, settled⟩ := (Announced.ofTally setup producer).stable rely held
      have step := flag_step producer final false fun _ closed => absurd closed (by decide)
      have tally : (final.setRing producer fun ring => {ring with claimActive := false}).tally producer =
          final.tally producer := by simp [State.tally]
      exact ⟨ready.keeps.transmit_tally step tally rfl fun _ => settled, step,
        fun _ rely _ => (Outside.ofTally producer).stable rely (by simp [Outside])⟩

theorem claim_safe (payloadLen : UInt32) (expiresAt : UInt64) (hasExpiry : Bool) (entry : Outside producer state) :
    Safe (txContract setup producer) (fun _ => Outside producer)
      (claim setup producer payloadLen expiresAt hasExpiry) state := by
  unfold claim
  split
  · exact fun _ rely _ => (Outside.ofTally producer).stable rely entry
  refine guarded_safe (fun current announced => ?_) entry
  split
  · exact fun _ rely _ => (Announced.ofTally setup producer).stable rely announced
  · exact claimGuarded_safe _ _ _ (by omega) announced

theorem claimBatch_safe (payloadLen maxFrames : UInt32) (expiresAt : UInt64) (hasExpiry : Bool)
    (entry : Outside producer state) :
    Safe (txContract setup producer) (fun _ => Outside producer)
      (claimBatch setup producer payloadLen maxFrames expiresAt hasExpiry) state := by
  unfold claimBatch
  split
  · exact fun _ rely _ => (Outside.ofTally producer).stable rely entry
  refine guarded_safe (fun current announced => ?_) entry
  split
  · exact fun _ rely _ => (Announced.ofTally setup producer).stable rely announced
  · exact claimBatchGuarded_safe _ _ _ _ (by omega) announced

/-- A new transmitter finds its counters in the announcement of the old one. -/
theorem createTx_safe (entry : Outside producer state) :
    Safe (txContract setup producer) (fun _ => Outside producer) (createTx setup producer) state := by
  refine Safe.load_bind (txLawful setup producer) fun first rely ready => ?_
  have outside := (Outside.ofTally producer).stable rely entry
  have announced := (ready.keeps.settled producer outside).position
  refine Safe.load_bind (txLawful setup producer) fun second rely ready => ?_
  have outside := (Outside.ofTally producer).stable rely outside
  have tail := congrArg Tally.producerPos (tally_congr rely.tx rely.owned)
  refine Safe.store_bind fun third rely ready _ => ?_
  have outside := (Outside.ofTally producer).stable rely outside
  have tail := (congrArg Tally.producerPos (tally_congr rely.tx rely.owned)).trans tail
  have messages := (ready.keeps.settled producer outside).messages
  simp only [State.tally] at announced tail messages
  have keeps : TxKeeps producer third (third.setTx producer fun tx => {tx with
      producerPos := (first.ring producer).reservationPosition
      publishedPos := (second.ring producer).visibleProducerPos
      cachedConsumerPos := 0
      cachedConsumerMessageSequence := 0
      messageSequence := (third.ring producer).reservationMessageSequence
      pendingCommits := []
      reservations := []}) := .of_setTx third _ ⟨announced.trans tail.symm, messages, rfl⟩
  refine ⟨keeps.membership ready.keeps, keeps.step, ?_⟩
  have outside := Outside.ofTally producer _ _ keeps.tally keeps.claimActive outside
  split
  · exact keeps_safe (.bind ((reads_minimumConsumerMessageSequence setup producer).each (.refl producer))
      fun minimum => keeps_of_caches producer (caches_setCachedConsumerMessageSequence producer minimum)) (Outside.ofTally producer) outside
  · exact fun _ rely _ => (Outside.ofTally producer).stable rely outside

/-- Every request to a transmitter keeps the membership. -/
theorem transmitter_safe {request : Request n} {program : Prog (State n m K) (Label n m)}
    (begins : startTransmitter setup producer request = some program) (entry : Outside producer state) :
    Safe (txContract setup producer) (fun _ => Outside producer) program state := by
  have done {α : Type} {program : Prog (State n m K) α} {label : α → Label n m}
      (safe : Safe (txContract setup producer) (fun _ => Outside producer) program state) :
      Safe (txContract setup producer) (fun _ => Outside producer) (program.bind fun value => .ret (label value))
        state :=
    Safe.bind (txLawful setup producer) safe fun _ _ _ held => fun _ rely _ =>
      (Outside.ofTally producer).stable rely held
  cases request with
  | claim payloadLen expiresAt hasExpiry =>
      cases begins
      exact done (claim_safe payloadLen expiresAt hasExpiry entry)
  | claimBatch payloadLen maxFrames expiresAt hasExpiry =>
      cases begins
      exact done (claimBatch_safe payloadLen maxFrames expiresAt hasExpiry entry)
  | write claimed offset data =>
      cases begins
      exact done (keeps_safe (keeps_of_commits producer (commits_writePayload setup producer claimed offset data)) (Outside.ofTally producer) entry)
  | commit claim =>
      cases begins
      exact done (keeps_safe (keeps_of_commits producer (commits_commit setup producer claim)) (Outside.ofTally producer) entry)
  | commitBatch batch =>
      cases begins
      exact done (keeps_safe (keeps_of_commits producer (commits_commitBatch setup producer batch)) (Outside.ofTally producer) entry)
  | createTx =>
      cases begins
      exact done (createTx_safe entry)
  | _ => cases begins

end Programs

end Membership
end Salias.SharedHybridMpsc
