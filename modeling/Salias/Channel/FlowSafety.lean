import Salias.Channel.Flow

/-
The scans of a transmitter find a lower bound of the progress of all live consumers, although the consumers
move and slots change hands during the scan.
-/

namespace Salias.SharedHybridMpsc

open Concurrent Salias.Frame ConsumerRegistration

variable {n m : Nat} {K : Type}

section Facts

variable {gauge : Gauge} {producer : Fin n} {before after : State n m K}

/-- A fact about a live slot holds, or the slot has started at the counter of the producer. -/
def Tracks (gauge : Gauge) (producer : Fin n) (consumer : Fin m) (fact : ConsumerSlot → Nat → Prop)
    (state : State n m K) : Prop :=
  state.slotLive consumer → fact (state.slot consumer) (gauge.read (state.cursor producer consumer)) ∨
    gauge.own (state.tx producer) ≤ gauge.read (state.cursor producer consumer)

/-- A fact that survives progress. -/
def Forward (fact : ConsumerSlot → Nat → Prop) : Prop :=
  ∀ slot first second, first ≤ second → fact slot first → fact slot second

theorem Tracks.stable {consumer : Fin m} {fact : ConsumerSlot → Nat → Prop} (forward : Forward fact)
    (tracks : Tracks gauge producer consumer fact before) (rely : FlowRely producer before after) :
    Tracks gauge producer consumer fact after := by
  intro live
  rcases rely.advances gauge consumer live with ⟨slot, moved⟩ | started
  · rcases tracks (live.earlier rely.outlives slot) with held | started
    · exact .inl (slot ▸ forward _ _ _ moved held)
    · rw [← rely.tx] at started
      exact .inr (started.trans moved)
  · exact .inr started

theorem Tracks.mono {consumer : Fin m} {fact wider : ConsumerSlot → Nat → Prop}
    (tracks : Tracks gauge producer consumer fact before) (implied : ∀ slot read, fact slot read → wider slot read) :
    Tracks gauge producer consumer wider before :=
  fun live => (tracks live).imp_left (implied _ _)

/-- The scanned consumers have read up to the minimum or up to the counter of the producer. -/
def Scanned (gauge : Gauge) (producer : Fin n) (remaining : List (Fin m)) (minimum : Nat)
    (state : State n m K) : Prop :=
  ∀ consumer, consumer ∉ remaining → state.slotLive consumer →
    min minimum (gauge.own (state.tx producer)) ≤ gauge.read (state.cursor producer consumer)

theorem Scanned.stable {remaining : List (Fin m)} {minimum : Nat}
    (scanned : Scanned gauge producer remaining minimum before) (rely : FlowRely producer before after) :
    Scanned gauge producer remaining minimum after := by
  intro consumer absent live
  rw [rely.tx]
  rcases rely.advances gauge consumer live with ⟨slot, moved⟩ | started
  · exact (scanned consumer absent (live.earlier rely.outlives slot)).trans moved
  · rw [rely.tx] at started
    exact (min_le_right _ _).trans started

/-- One more consumer is scanned. -/
theorem Scanned.next {rest : List (Fin m)} {consumer : Fin m} {minimum value : Nat}
    (scanned : Scanned gauge producer (consumer :: rest) minimum before)
    (tracks : Tracks gauge producer consumer (fun _ read => value ≤ read) before) (lower : value ≤ minimum) :
    Scanned gauge producer rest value before := by
  intro other absent live
  by_cases same : other = consumer
  · subst same
    rcases tracks live with reached | started
    · exact (min_le_left _ _).trans reached
    · exact (min_le_right _ _).trans started
  · have earlier := scanned other (by simp [same, absent]) live
    omega

theorem Scanned.skip {rest : List (Fin m)} {consumer : Fin m} {minimum : Nat}
    (scanned : Scanned gauge producer (consumer :: rest) minimum before)
    (tracks : Tracks gauge producer consumer (fun _ _ => False) before) :
    Scanned gauge producer rest minimum before :=
  scanned.next (tracks.mono fun _ _ impossible => impossible.elim) le_rfl

end Facts

namespace Flow

variable [DecidableEq K] {setup : Setup n m K} {producer : Fin n} {gauge : Gauge} {consumer : Fin m}
  {state : State n m K}

abbrev txContract (setup : Setup n m K) (producer : Fin n) : Contract (State n m K) :=
  (discipline setup).contract (.producer producer)

theorem txLawful (setup : Setup n m K) (producer : Fin n) : (txContract setup producer).Lawful :=
  lawful setup (.producer producer)

section Scan

/-- A read-only program keeps every stable fact. -/
theorem reads_safe {α : Type} {holds : State n m K → Prop} {program : Prog (State n m K) α} (reads : Reads program)
    (stable : ∀ {before after}, FlowRely producer before after → holds before → holds after)
    (entry : holds state) : Safe (txContract setup producer) (fun _ => holds) program state :=
  Safe.of_each reads
    (fun ready _ same held => by
      rw [same]
      exact ⟨ready.keeps, .refl producer _, held⟩)
    (fun rely _ held => stable rely held) entry

/-- A dead verdict is about a slot that has no owner any more. -/
theorem isProcessAlive_safe {fact : ConsumerSlot → Nat → Prop} (forward : Forward fact)
    (entry : Tracks gauge producer consumer fact state) :
    Safe (txContract setup producer) (fun alive state => Tracks gauge producer consumer fact state ∧
      (alive = false → Tracks gauge producer consumer (fun _ _ => False) state)) (isProcessAlive consumer) state := by
  refine Safe.load_bind (txLawful setup producer) fun first rely _ => ?_
  have tracks := entry.stable forward rely
  have pid : Tracks gauge producer consumer (fun slot _ => slot.pid = (first.slot consumer).pid) first :=
    fun _ => .inl rfl
  refine Safe.load_bind (txLawful setup producer) fun second rely _ => ?_
  have tracks := tracks.stable forward rely
  have pid := pid.stable (fun _ _ _ _ => id) rely
  have word : Tracks gauge producer consumer (fun slot _ => slot.pid = (first.slot consumer).pid ∧
      slot.processStart = (second.slot consumer).processStart) second :=
    fun live => (pid live).imp_left fun same => ⟨same, rfl⟩
  refine Safe.load (txLawful setup producer) fun third rely _ last relyLast _ => ?_
  have tracks := (tracks.stable forward rely).stable forward relyLast
  refine ⟨tracks, fun dead live => .inr ?_⟩
  rcases (word.stable (fun _ _ _ _ => id) rely).stable (fun _ _ _ _ => id) relyLast live with
    ⟨samePid, sameStart⟩ | started
  · have alive := relyLast.outlives.registered live.2
    rw [samePid, sameStart] at alive
    exact absurd (alive.symm.trans dead) (by decide)
  · exact started

/-- The liveness check is skipped for a consumer that does not block. -/
theorem alive_safe {fact : ConsumerSlot → Nat → Prop} (forward : Forward fact)
    {program : Prog (State n m K) Bool} (checks : program = .ret true ∨ program = isProcessAlive consumer)
    (entry : Tracks gauge producer consumer fact state) :
    Safe (txContract setup producer) (fun alive state => Tracks gauge producer consumer fact state ∧
      (alive = false → Tracks gauge producer consumer (fun _ _ => False) state)) program state := by
  rcases checks with rfl | rfl
  · exact fun _ rely _ => ⟨entry.stable forward rely, nofun⟩
  · exact isProcessAlive_safe forward entry

/-- A round extends the bound by one consumer, or the scan gives up with zero. -/
def RoundEnds {β : Type} (gauge : Gauge) (producer : Fin n) (rest : List (Fin m)) (bound : β → Nat) :
    β ⊕ Nat → State n m K → Prop
  | .inl next, state => Scanned gauge producer rest (bound next) state
  | .inr stopped, _ => stopped = 0

/-- The end of a round: the value counts only when the slot word has not moved and the owner lives. -/
theorem settle_safe {β : Type} {rest : List (Fin m)} {minimum value token : Nat}
    {program : Prog (State n m K) Bool} (next : Bool → β) (bound : β → Nat)
    (checks : program = .ret true ∨ program = isProcessAlive consumer)
    (taken : bound (next true) = min minimum value) (kept : bound (next false) = minimum)
    (scanned : Scanned gauge producer (consumer :: rest) minimum state)
    (tracks : Tracks gauge producer consumer (fun _ read => value ≤ read) state) :
    Safe (txContract setup producer) (RoundEnds gauge producer rest bound) (do
      let alive ← program
      let again ← registrationState consumer
      if again ≠ token then
        pure (.inr 0)
      else
        pure (.inl (next alive))) state := by
  have forward : Forward fun _ read => value ≤ read := fun _ _ _ moved reached => reached.trans moved
  refine Safe.bind (M := fun alive state => Scanned gauge producer (consumer :: rest) minimum state ∧
    Tracks gauge producer consumer (fun _ read => value ≤ read) state ∧
    (alive = false → Tracks gauge producer consumer (fun _ _ => False) state)) (txLawful setup producer) ?_
    fun alive middle _ held => ?_
  · have reads : Reads program := by
      rcases checks with rfl | rfl
      · exact .ret _
      · exact reads_isProcessAlive consumer
    exact Safe.and (reads_safe reads (fun rely held => held.stable rely) scanned) (alive_safe forward checks tracks)
  · obtain ⟨scanned, tracks, dead⟩ := held
    have final : Scanned gauge producer rest (bound (next alive)) middle := by
      cases alive with
      | true =>
          rw [taken]
          refine Scanned.next ?_ (tracks.mono fun _ _ reached => (min_le_right _ _).trans reached) (le_refl _)
          exact fun other absent live => le_trans (by omega) (scanned other absent live)
      | false =>
          rw [kept]
          exact scanned.skip (dead rfl)
    refine Safe.load_bind (txLawful setup producer) fun last rely _ => ?_
    have final := final.stable rely
    split
    · exact fun _ _ _ => rfl
    · exact fun _ rely _ => final.stable rely

theorem minimumPositionRound_safe (tail need minimum : Nat) (rest : List (Fin m))
    (scanned : Scanned .bytes producer (consumer :: rest) minimum state) :
    Safe (txContract setup producer) (RoundEnds .bytes producer rest id)
      (minimumPositionRound setup producer tail need minimum consumer) state := by
  refine Safe.load_bind (txLawful setup producer) fun first rely _ => ?_
  have scanned := scanned.stable rely
  split
  · rename_i inactive
    have gone : Tracks .bytes producer consumer (fun _ _ => False) first := fun live => absurd live.1 inactive
    exact fun _ rely _ => (scanned.skip gone).stable rely
  refine Safe.load_bind (txLawful setup producer) fun second rely _ => ?_
  have scanned := scanned.stable rely
  split
  · exact fun _ _ _ => rfl
  refine Safe.load_bind (txLawful setup producer) fun third rely _ => ?_
  refine settle_safe (fun alive => if alive then min minimum _ else minimum) id ?_ rfl rfl (scanned.stable rely)
    fun _ => .inl le_rfl
  split
  · exact .inl rfl
  · exact .inr rfl

theorem minimumMessageRound_safe (minimum : Option Nat) (rest : List (Fin m))
    (scanned : Scanned .messages producer (consumer :: rest) (minimum.getD kMax) state) :
    Safe (txContract setup producer) (RoundEnds .messages producer rest fun minimum => minimum.getD kMax)
      (minimumMessageRound setup producer minimum consumer) state := by
  refine Safe.load_bind (txLawful setup producer) fun first rely _ => ?_
  have scanned := scanned.stable rely
  split
  · rename_i inactive
    have gone : Tracks .messages producer consumer (fun _ _ => False) first := fun live => absurd live.1 inactive
    exact fun _ rely _ => (scanned.skip gone).stable rely
  refine Safe.load_bind (txLawful setup producer) fun second rely _ => ?_
  have scanned := scanned.stable rely
  split
  · exact fun _ _ _ => rfl
  refine Safe.load_bind (txLawful setup producer) fun third rely _ => ?_
  have scanned := scanned.stable rely
  have tracks : Tracks .messages producer consumer
      (fun _ read => (third.cursor producer consumer).messageSequence ≤ read) third := fun _ => .inl le_rfl
  refine Safe.load_bind (txLawful setup producer) fun fourth rely _ => ?_
  have tracks := tracks.stable (fun _ _ _ moved reached => reached.trans moved) rely
  refine settle_safe (fun alive => if alive then some (min (minimum.getD kMax) _) else minimum) _ ?_ rfl rfl
    (scanned.stable rely) tracks
  split
  · exact .inr rfl
  · exact .inl rfl

/-- The scan of the positions ends with a lower bound. -/
theorem minimumConsumerPosition_safe (tail need : Nat) :
    Safe (txContract setup producer) (fun minimum => Scanned .bytes producer [] minimum)
      (minimumConsumerPosition setup producer tail need) state := by
  have zero (state : State n m K) : Scanned .bytes producer [] 0 state := fun _ _ _ => by simp
  refine Safe.bind (txLawful setup producer) (Safe.foldUntil (txLawful setup producer)
    (I := fun remaining minimum => Scanned .bytes producer remaining minimum) (S := fun stopped _ => stopped = 0)
    (fun rely _ scanned => scanned.stable rely) (fun consumer rest minimum current scanned => ?_)
    (fun _ _ stopped => stopped) (fun consumer absent => absurd (List.mem_finRange consumer) absent))
    fun result current _ held => ?_
  · refine Safe.weaken (minimumPositionRound_safe tail need minimum rest scanned) fun result _ _ ends => ?_
    cases result <;> exact ends
  · cases result with
    | inl minimum =>
        intro last rely _
        by_cases none : minimum = kMax
        · rw [if_pos none]
          exact zero last
        · rw [if_neg none]
          exact Scanned.stable held rely
    | inr stopped =>
        intro last _ _
        rw [show stopped = 0 from held]
        exact zero last

theorem minimumConsumerMessageSequence_safe :
    Safe (txContract setup producer) (fun minimum => Scanned .messages producer [] minimum)
      (minimumConsumerMessageSequence setup producer) state := by
  have zero (state : State n m K) : Scanned .messages producer [] 0 state := fun _ _ _ => by simp
  refine Safe.bind (txLawful setup producer) (Safe.foldUntil (txLawful setup producer)
    (I := fun remaining minimum => Scanned .messages producer remaining (minimum.getD kMax))
    (S := fun stopped _ => stopped = 0) (fun rely _ scanned => scanned.stable rely)
    (fun consumer rest minimum current scanned => ?_) (fun _ _ stopped => stopped)
    (fun consumer absent => absurd (List.mem_finRange consumer) absent)) fun result current _ held => ?_
  · refine Safe.weaken (minimumMessageRound_safe minimum rest scanned) fun result _ _ ends => ?_
    cases result <;> exact ends
  · cases result with
    | inl minimum =>
        intro last rely _
        cases minimum with
        | none => exact zero last
        | some minimum => exact Scanned.stable held rely
    | inr stopped =>
        intro last _ _
        rw [show stopped = 0 from held]
        exact zero last

end Scan

section Cache

/-- The cached minimum of one counter. -/
def setCached : Gauge → Fin n → Nat → Prog (State n m K) Unit
  | .bytes => setCachedConsumerPos
  | .messages => setCachedConsumerMessageSequence

omit [DecidableEq K] in
theorem caches_setCached (gauge : Gauge) (minimum : Nat) :
    Each (TxCaches gauge producer) (setCached gauge producer minimum : Prog (State n m K) Unit) := by
  cases gauge with
  | bytes => exact caches_setCachedConsumerPos producer minimum
  | messages => exact caches_setCachedConsumerMessageSequence producer minimum

/-- Every live consumer has room for the producer up to a stop, and the cached minimum is behind the producer. -/
structure Room (setup : Setup n m K) (gauge : Gauge) (producer : Fin n) (stop : Nat) (state : State n m K) : Prop where
  cached : gauge.cached (state.tx producer) ≤ gauge.own (state.tx producer)
  limit : stop ≤ gauge.own (state.tx producer) + gauge.limit setup
  room : ∀ consumer, state.slotLive consumer →
    stop ≤ gauge.read (state.cursor producer consumer) + gauge.limit setup

omit [DecidableEq K] in
theorem Room.stable {stop : Nat} {before after : State n m K} (room : Room setup gauge producer stop before)
    (rely : FlowRely producer before after) : Room setup gauge producer stop after where
  cached := by rw [rely.tx]; exact room.cached
  limit := by rw [rely.tx]; exact room.limit
  room consumer live := by
    have limit := room.limit
    rcases rely.advances gauge consumer live with ⟨slot, moved⟩ | started
    · have earlier := room.room consumer (live.earlier rely.outlives slot)
      omega
    · rw [rely.tx] at started
      omega

omit [DecidableEq K] in
/-- The bound on the cached minimum makes room. -/
theorem room_of_flow {stop : Nat} (flow : Flow setup state) (applies : gauge.Applies setup)
    (cached : gauge.cached (state.tx producer) ≤ gauge.own (state.tx producer))
    (stops : stop ≤ gauge.cached (state.tx producer) + gauge.limit setup) :
    Room setup gauge producer stop state := by
  refine ⟨cached, by omega, fun consumer live => ?_⟩
  have minimum := (flow gauge applies producer consumer live).cached
  omega

omit [DecidableEq K] in
/-- A scan result may replace the cached minimum. -/
theorem cache_keeps {before after : State n m K} {minimum : Nat} (flow : Flow setup before)
    (caches : TxCaches gauge producer before after) (cached : gauge.cached (after.tx producer) = minimum)
    (scanned : Scanned gauge producer [] minimum before) : Flow setup after := by
  refine flow.transmit caches.step fun other applies consumer live => ?_
  obtain ⟨behind, room, earlier⟩ := flow other applies producer consumer live
  refine ⟨caches.own other ▸ behind, caches.own other ▸ room, ?_⟩
  by_cases same : other = gauge
  · subst same
    rw [cached, caches.own]
    exact scanned consumer (by simp) live
  · rw [caches.cached other same, caches.own]
    exact earlier

omit [DecidableEq K] in
theorem cached_stable {minimum : Nat} {before after : State n m K} (rely : FlowRely producer before after)
    (cached : gauge.cached (before.tx producer) = minimum) : gauge.cached (after.tx producer) = minimum := by
  rw [rely.tx]
  exact cached

theorem setCached_safe {minimum : Nat} (scanned : Scanned gauge producer [] minimum state) :
    Safe (txContract setup producer) (fun _ state => gauge.cached (state.tx producer) = minimum)
      (setCached gauge producer minimum) state := by
  have stored {update : State n m K → State n m K}
      (caches : ∀ state, TxCaches gauge producer state (update state))
      (cached : ∀ state, gauge.cached ((update state).tx producer) = minimum) :
      Safe (txContract setup producer) (fun _ state => gauge.cached (state.tx producer) = minimum)
        (.store update) state := by
    intro current rely ready action
    exact ⟨cache_keeps ready.keeps (caches current) (cached current) (scanned.stable rely), action.1,
      fun last rely _ => cached_stable rely (cached current)⟩
  cases gauge with
  | bytes =>
      exact stored (fun state => (caches_setCachedConsumerPos producer minimum state).1) (by simp [Gauge.cached])
  | messages =>
      exact stored (fun state => (caches_setCachedConsumerMessageSequence producer minimum state).1)
        (by simp [Gauge.cached])

/-- The counters of the producer stay where they are. -/
def Stands (producer : Fin n) (own : Gauge → Nat) (state : State n m K) : Prop :=
  ∀ gauge : Gauge, gauge.own (state.tx producer) = own gauge

omit [DecidableEq K] in
theorem Stands.stable {own : Gauge → Nat} {before after : State n m K} (stands : Stands producer own before)
    (rely : FlowRely producer before after) : Stands producer own after := by
  intro gauge
  rw [rely.tx]
  exact stands gauge

omit [DecidableEq K] in
theorem Stands.keeps {own : Gauge → Nat} {before after : State n m K} (stands : Stands producer own before)
    (keeps : TxKeeps producer before after) : Stands producer own after :=
  fun gauge => (keeps.own gauge).trans (stands gauge)

/-- The counters stand during every scan. -/
theorem stands_safe {α : Type} {P : α → State n m K → Prop} {own : Gauge → Nat}
    {program : Prog (State n m K) α} (safe : Safe (txContract setup producer) P program state)
    (each : Each (TxKeeps producer) program) (stands : Stands producer own state) :
    Safe (txContract setup producer) (fun value state => P value state ∧ Stands producer own state) program state :=
  safe.frame each (fun keeps stands => stands.keeps keeps) (fun rely _ stands => stands.stable rely) stands

/-- A scan and the store of its result leave a cached minimum behind that the checks may use. -/
theorem refresh_safe (gauge : Gauge) {α : Type} {P : α → State n m K → Prop} {own : Gauge → Nat}
    {scan : Prog (State n m K) Nat} {rest : Nat → α} (reads : Reads scan)
    (scanned : Safe (txContract setup producer) (fun minimum => Scanned gauge producer [] minimum) scan state)
    (stands : Stands producer own state)
    (reached : ∀ minimum state, Flow setup state → Stands producer own state →
      gauge.cached (state.tx producer) = minimum → P (rest minimum) state) :
    Safe (txContract setup producer) P (do
        let minimum ← scan
        setCached gauge producer minimum
        pure (rest minimum)) state := by
  refine Safe.bind (txLawful setup producer)
    (stands_safe scanned (reads.each (.refl producer)) stands) fun minimum _ _ held => ?_
  refine Safe.bind (txLawful setup producer) (stands_safe (setCached_safe held.1)
    (keeps_of_caches producer (caches_setCached gauge minimum)) held.2) fun _ _ _ held => ?_
  exact fun last rely ready => reached minimum last ready.keeps (held.2.stable rely) (cached_stable rely held.1)

end Cache

section Room

variable {own : Gauge → Nat}

omit [DecidableEq K] in
theorem hasCapacity_iff {capacity tail head need : Nat} (fits : hasCapacity capacity tail head need = true) :
    head ≤ tail ∧ tail + need ≤ head + capacity := by
  simp only [hasCapacity, Bool.and_eq_true, decide_eq_true_eq] at fits
  omega

theorem reserveBytes_safe (need : Nat) (stands : Stands producer own state) :
    Safe (txContract setup producer)
      (fun fits state => fits = true → Room setup .bytes producer (own .bytes + need) state)
      (reserveBytes setup producer (own .bytes) need) state := by
  have room {minimum : Nat} {state : State n m K} (flow : Flow setup state) (stands : Stands producer own state)
      (cached : Gauge.bytes.cached (state.tx producer) = minimum)
      (fits : hasCapacity setup.effectiveCapacity (own .bytes) minimum need = true) :
      Room setup .bytes producer (own .bytes + need) state := by
    obtain ⟨behind, stops⟩ := hasCapacity_iff fits
    exact room_of_flow flow trivial (by rw [cached, stands]; exact behind) (by rw [cached]; exact stops)
  refine Safe.load_bind (txLawful setup producer) fun first rely ready => ?_
  have stands := stands.stable rely
  split
  · rename_i fits
    exact fun last rely _ _ => (room ready.keeps stands rfl fits).stable rely
  · exact refresh_safe .bytes (reads_minimumConsumerPosition setup producer _ _)
      (minimumConsumerPosition_safe _ _) stands fun minimum state flow stands cached fits =>
        room flow stands cached fits

theorem messagesFull_iff {window messageSequence consumed : Nat}
    (room : messagesFull window messageSequence consumed = false) :
    consumed ≤ messageSequence ∧ messageSequence + 1 ≤ consumed + window := by
  simp only [messagesFull, Bool.or_eq_false_iff, decide_eq_false_iff_not] at room
  omega

theorem reserveMessage_safe (stands : Stands producer own state) :
    Safe (txContract setup producer) (fun fits state => fits = true → Gauge.messages.Applies setup →
      Room setup .messages producer (own .messages + 1) state) (reserveMessage setup producer) state := by
  have room {minimum : Nat} {state : State n m K} (flow : Flow setup state) (stands : Stands producer own state)
      (cached : Gauge.messages.cached (state.tx producer) = minimum)
      (fits : messagesFull setup.publicationWindowMessages (own .messages) minimum = false)
      (applies : Gauge.messages.Applies setup) : Room setup .messages producer (own .messages + 1) state := by
    obtain ⟨behind, stops⟩ := messagesFull_iff fits
    exact room_of_flow flow applies (by rw [cached, stands]; exact behind) (by rw [cached]; exact stops)
  unfold reserveMessage
  dsimp only
  split
  · rename_i none
    exact fun _ _ _ _ applies => absurd none applies
  refine Safe.load_bind (txLawful setup producer) fun first rely ready => ?_
  have stands := stands.stable rely
  have counted : (first.tx producer).messageSequence = own .messages := stands .messages
  rw [counted]
  split
  · exact refresh_safe .messages (reads_minimumConsumerMessageSequence setup producer)
      minimumConsumerMessageSequence_safe stands fun minimum state flow stands cached fits =>
        room flow stands cached (by simpa using fits)
  · rename_i fits
    have fits := Bool.not_eq_true _ ▸ fits
    exact fun last rely _ _ applies => (room ready.keeps stands rfl fits applies).stable rely

/-- A batch that fits ends inside the room. -/
theorem batchFit_le {capacity tail head per maxFrames : Nat} (fits : batchFit capacity tail head per maxFrames ≠ 0) :
    head ≤ tail ∧ tail + per * batchFit capacity tail head per maxFrames ≤ head + capacity := by
  unfold batchFit at fits ⊢
  split at fits
  · exact absurd rfl fits
  split at fits
  · exact absurd rfl fits
  rename_i nonzero inside
  rw [if_neg nonzero, if_neg inside]
  have count : min ((capacity - (tail - head)) / per) maxFrames ≤ (capacity - (tail - head)) / per := min_le_left _ _
  have whole := (Nat.mul_le_mul_left per count).trans (Nat.mul_div_le _ _)
  omega

theorem batchBytes_safe (per maxFrames : Nat) (stands : Stands producer own state) :
    Safe (txContract setup producer)
      (fun fit state => fit ≠ 0 → Room setup .bytes producer (own .bytes + per * fit) state)
      (batchBytes setup producer (own .bytes) per maxFrames) state := by
  have room {minimum : Nat} {state : State n m K} (flow : Flow setup state) (stands : Stands producer own state)
      (cached : Gauge.bytes.cached (state.tx producer) = minimum)
      (fits : batchFit setup.effectiveCapacity (own .bytes) minimum per maxFrames ≠ 0) :
      Room setup .bytes producer
        (own .bytes + per * batchFit setup.effectiveCapacity (own .bytes) minimum per maxFrames) state := by
    obtain ⟨behind, stops⟩ := batchFit_le fits
    exact room_of_flow flow trivial (by rw [cached, stands]; exact behind) (by rw [cached]; exact stops)
  refine Safe.load_bind (txLawful setup producer) fun first rely ready => ?_
  have stands := stands.stable rely
  dsimp only
  split
  · exact refresh_safe .bytes (reads_minimumConsumerPosition setup producer _ _)
      (minimumConsumerPosition_safe _ _) stands fun minimum state flow stands cached fits =>
        room flow stands cached fits
  · exact fun last rely _ fits => (room ready.keeps stands rfl fits).stable rely

theorem fitMessages_le {window messageSequence consumed fit : Nat}
    (fits : fitMessages window messageSequence consumed fit ≠ 0) :
    consumed ≤ messageSequence ∧
      messageSequence + fitMessages window messageSequence consumed fit ≤ consumed + window := by
  unfold fitMessages at fits ⊢
  split at fits
  · exact absurd rfl fits
  · rename_i room
    rw [if_neg room]
    have := messagesFull_iff (Bool.not_eq_true _ ▸ room)
    omega

theorem fitMessages_le_fit (window messageSequence consumed fit : Nat) :
    fitMessages window messageSequence consumed fit ≤ fit := by
  unfold fitMessages
  split
  · exact Nat.zero_le _
  · exact min_le_left _ _

theorem batchMessages_safe (fit : Nat) (stands : Stands producer own state) :
    Safe (txContract setup producer) (fun allowed state => allowed ≤ fit ∧ (allowed ≠ 0 →
      Gauge.messages.Applies setup → Room setup .messages producer (own .messages + allowed) state))
      (batchMessages setup producer fit) state := by
  have room {minimum : Nat} {state : State n m K} (flow : Flow setup state) (stands : Stands producer own state)
      (cached : Gauge.messages.cached (state.tx producer) = minimum)
      (fits : fitMessages setup.publicationWindowMessages (own .messages) minimum fit ≠ 0)
      (applies : Gauge.messages.Applies setup) : Room setup .messages producer
        (own .messages + fitMessages setup.publicationWindowMessages (own .messages) minimum fit) state := by
    obtain ⟨behind, stops⟩ := fitMessages_le fits
    exact room_of_flow flow applies (by rw [cached, stands]; exact behind) (by rw [cached]; exact stops)
  unfold batchMessages
  dsimp only
  split
  · rename_i none
    exact fun _ _ _ => ⟨le_rfl, fun _ applies => absurd none applies⟩
  refine Safe.load_bind (txLawful setup producer) fun first rely ready => ?_
  have stands := stands.stable rely
  have counted : (first.tx producer).messageSequence = own .messages := stands .messages
  rw [counted]
  split
  · exact refresh_safe .messages (reads_minimumConsumerMessageSequence setup producer)
      minimumConsumerMessageSequence_safe stands fun minimum state flow stands cached =>
        ⟨fitMessages_le_fit _ _ _ _, room flow stands cached⟩
  · exact fun last rely _ => ⟨fitMessages_le_fit _ _ _ _, fun fits applies =>
      (room ready.keeps stands rfl fits applies).stable rely⟩

omit [DecidableEq K] in
/-- The other cached minimum may be replaced. -/
theorem Room.keeps {other : Gauge} {stop : Nat} {before after : State n m K}
    (room : Room setup gauge producer stop before) (different : gauge ≠ other)
    (caches : TxCaches other producer before after) : Room setup gauge producer stop after where
  cached := by rw [caches.cached gauge different, caches.own]; exact room.cached
  limit := by rw [caches.own]; exact room.limit
  room consumer live := by
    rw [caches.cursor]
    exact room.room consumer (caches.step.slotLive.mp live)

omit [DecidableEq K] in
theorem Room.lower {stop lower : Nat} (room : Room setup gauge producer stop state) (less : lower ≤ stop) :
    Room setup gauge producer lower state :=
  ⟨room.cached, less.trans room.limit, fun consumer live => less.trans (room.room consumer live)⟩

/-- A claim of some bytes and messages has room. -/
structure Rooms (setup : Setup n m K) (producer : Fin n) (own amount : Gauge → Nat) (state : State n m K) : Prop where
  stands : Stands producer own state
  room : ∀ gauge : Gauge, gauge.Applies setup → Room setup gauge producer (own gauge + amount gauge) state

omit [DecidableEq K] in
theorem Rooms.stable {amount : Gauge → Nat} {before after : State n m K} (rooms : Rooms setup producer own amount before)
    (rely : FlowRely producer before after) : Rooms setup producer own amount after :=
  ⟨rooms.stands.stable rely, fun gauge applies => (rooms.room gauge applies).stable rely⟩

/-- What a claim of `count` frames takes. -/
def taken (per count : Nat) : Gauge → Nat
  | .bytes => per * count
  | .messages => count

variable (reliable : setup.mode.dropOldest = false)

include reliable

theorem claimRoom_safe (need : Nat) (stands : Stands producer own state) :
    Safe (txContract setup producer)
      (fun room state => room = .ok () → Rooms setup producer own (taken need 1) state)
      (claimRoom setup producer (own .bytes) need) state := by
  unfold claimRoom
  rw [if_neg (by simp [reliable])]
  refine Safe.bind (txLawful setup producer) (stands_safe (reserveBytes_safe need stands)
    (keeps_of_caches producer (caches_reserveBytes setup producer _ _)) stands) fun bytes middle ready held => ?_
  obtain ⟨bytesRoom, stands⟩ := held
  split
  · rename_i fits
    have bytesRoom := bytesRoom fits
    refine Safe.bind (txLawful setup producer) ((stands_safe (reserveMessage_safe stands)
      (keeps_of_caches producer (caches_reserveMessage setup producer)) stands).frame
        (caches_reserveMessage setup producer) (fun caches room => room.keeps (by decide) caches)
        (fun rely _ room => Room.stable room rely) bytesRoom) fun message last _ held => ?_
    obtain ⟨⟨messageRoom, stands⟩, bytesRoom⟩ := held
    intro final rely _ allowed
    have fits : message = true := by
      by_contra refused
      simp [refused] at allowed
    refine Rooms.stable ⟨stands, fun gauge applies => ?_⟩ rely
    cases gauge with
    | bytes => simpa [taken] using bytesRoom
    | messages => exact messageRoom fits applies
  · exact fun _ _ _ => nofun

theorem batchRoom_safe (per maxFrames : Nat) (stands : Stands producer own state) :
    Safe (txContract setup producer)
      (fun room state => ∀ fit, room = .ok fit → Rooms setup producer own (taken per fit) state)
      (batchRoom setup producer (own .bytes) per maxFrames) state := by
  unfold batchRoom
  rw [if_neg (by simp [reliable])]
  refine Safe.bind (txLawful setup producer) (stands_safe (batchBytes_safe per maxFrames stands)
    (keeps_of_caches producer (caches_batchBytes setup producer _ _ _)) stands) fun fit middle ready held => ?_
  obtain ⟨bytesRoom, stands⟩ := held
  split
  · exact fun _ _ _ _ => nofun
  · rename_i fits
    have bytesRoom := bytesRoom fits
    refine Safe.bind (txLawful setup producer) ((stands_safe (batchMessages_safe fit stands)
      (keeps_of_caches producer (caches_batchMessages setup producer _)) stands).frame
        (caches_batchMessages setup producer _) (fun caches room => room.keeps (by decide) caches)
        (fun rely _ room => Room.stable room rely) bytesRoom) fun allowed last _ held => ?_
    obtain ⟨⟨⟨below, messageRoom⟩, stands⟩, bytesRoom⟩ := held
    intro final rely _ count granted
    split at granted
    · cases granted
    · rename_i some
      cases granted
      refine Rooms.stable ⟨stands, fun gauge applies => ?_⟩ rely
      cases gauge with
      | bytes => exact bytesRoom.lower (Nat.add_le_add_left (Nat.mul_le_mul_left per below) _)
      | messages => exact messageRoom some applies

end Room

section Programs

/-- An action that leaves the counters of the producer and the cached minima alone. -/
def Idles (producer : Fin n) (before after : State n m K) : Prop :=
  ∀ gauge : Gauge, gauge.own (after.tx producer) = gauge.own (before.tx producer) ∧
    gauge.cached (after.tx producer) = gauge.cached (before.tx producer)

omit [DecidableEq K] in
theorem idles_of_tx {before after : State n m K} (same : after.tx producer = before.tx producer) :
    Idles producer before after := by
  intro gauge
  rw [same]
  exact ⟨rfl, rfl⟩

theorem idles_safe {α : Type} {program : Prog (State n m K) α} (each : Each (Idles producer) program) :
    Safe (txContract setup producer) (fun _ _ => True) program state :=
  Safe.of_each (I := fun _ => True) each
    (fun ready action idles _ => ⟨ready.keeps.transmit_same action.1 (fun gauge => (idles gauge).1)
      (fun gauge => (idles gauge).2), action.1, trivial⟩) (fun _ _ _ => trivial) trivial

omit [DecidableEq K] in
theorem idles_publishReservation (producer : Fin n) (sequence : Nat) :
    Each (Idles producer) (publishReservation producer sequence : Prog (State n m K) Unit) :=
  .bind (.store fun _ => idles_of_tx rfl) fun _ => .bind (.store fun _ => idles_of_tx rfl) fun _ =>
    .store fun _ => idles_of_tx rfl

omit [DecidableEq K] in
theorem idles_of_commits {α : Type} {program : Prog (State n m K) α} (each : Each (TxCommits producer) program) :
    Each (Idles producer) program :=
  each.mono fun _ _ commits gauge => ⟨commits.own gauge, by
    cases gauge with
    | bytes => exact commits.cachedConsumerPos
    | messages => exact commits.cachedConsumerMessageSequence⟩

omit [DecidableEq K] in
/-- A claim takes what it has room for. -/
theorem allocate_keeps {own : Gauge → Nat} {need count payloadLen expiresAt : Nat} {hasExpiry : Bool}
    {claimed : Nat → Claimed} (flow : Flow setup state) (rooms : Rooms setup producer own (taken need count) state)
    (step : TxStep producer state
      (state.allocate setup producer (own .bytes) need count payloadLen hasExpiry expiresAt claimed)) :
    Flow setup (state.allocate setup producer (own .bytes) need count payloadLen hasExpiry expiresAt claimed) := by
  refine flow.transmit step fun gauge applies consumer live => ?_
  obtain ⟨behind, -, earlier⟩ := flow gauge applies producer consumer live
  have room := rooms.room gauge applies
  have cached := room.cached
  have stops := room.room consumer live
  have stands := rooms.stands gauge
  have moved : gauge.own ((state.allocate setup producer (own .bytes) need count payloadLen hasExpiry expiresAt
      claimed).tx producer) = own gauge + taken need count gauge := by
    rw [State.allocate_eq, ← stands]
    cases gauge with
    | bytes => simp [Gauge.own, taken, ← rooms.stands .bytes]
    | messages => simp [Gauge.own, taken]
  have same : gauge.cached ((state.allocate setup producer (own .bytes) need count payloadLen hasExpiry expiresAt
      claimed).tx producer) = gauge.cached (state.tx producer) := by
    rw [State.allocate_eq]
    cases gauge <;> simp [Gauge.cached]
  refine ⟨?_, ?_, ?_⟩ <;> omega

variable (reliable : setup.mode.dropOldest = false)

include reliable in
theorem claimGuarded_safe (payloadLen : UInt32) (expiresAt : UInt64) (hasExpiry : Bool) :
    Safe (txContract setup producer) (fun _ _ => True) (claimGuarded setup producer payloadLen expiresAt hasExpiry)
      state := by
  refine Safe.load_bind (txLawful setup producer) fun first _ _ => ?_
  have stands : Stands producer (fun gauge => gauge.own (first.tx producer)) first := fun _ => rfl
  refine Safe.bind (txLawful setup producer) (claimRoom_safe reliable _ stands) fun room current _ held => ?_
  cases room with
  | error error => exact fun _ _ _ => trivial
  | ok done =>
      refine Safe.modifyGet_bind fun second rely ready action => ?_
      exact ⟨allocate_keeps ready.keeps ((held rfl).stable rely) action.1, action.1,
        idles_safe (.bind (idles_publishReservation producer _) fun _ => .ret _)⟩

include reliable in
theorem claimBatchGuarded_safe (payloadLen maxFrames : UInt32) (expiresAt : UInt64) (hasExpiry : Bool) :
    Safe (txContract setup producer) (fun _ _ => True)
      (claimBatchGuarded setup producer payloadLen maxFrames expiresAt hasExpiry) state := by
  refine Safe.load_bind (txLawful setup producer) fun first _ _ => ?_
  have stands : Stands producer (fun gauge => gauge.own (first.tx producer)) first := fun _ => rfl
  refine Safe.bind (txLawful setup producer) (batchRoom_safe reliable _ _ stands) fun room current _ held => ?_
  cases room with
  | error error => exact fun _ _ _ => trivial
  | ok fit =>
      refine Safe.modifyGet_bind fun second rely ready action => ?_
      exact ⟨allocate_keeps ready.keeps ((held fit rfl).stable rely) action.1, action.1,
        idles_safe (.bind (idles_publishReservation producer _) fun _ => .ret _)⟩

/-- The guard changes no counter. -/
theorem guarded_safe {α : Type} {program : Prog (State n m K) α}
    (body : ∀ state, Safe (txContract setup producer) (fun _ _ => True) program state) {refused : α} :
    Safe (txContract setup producer) (fun _ _ => True) (do
      let acquired ← claimReservationGuard producer
      if acquired then
        let result ← program
        endClaimReservation producer
        pure result
      else
        pure refused) state := by
  have guard : Each (Idles producer) (claimReservationGuard producer : Prog (State n m K) Bool) := by
    refine .modifyGet (fun state => ?_) _
    split
    · exact idles_of_tx rfl
    · exact idles_of_tx rfl
  refine Safe.bind (txLawful setup producer) (idles_safe guard) fun acquired _ _ _ => ?_
  split
  · exact Safe.bind (txLawful setup producer) (body _) fun result _ _ _ =>
      idles_safe (.bind (.store fun _ => idles_of_tx rfl) fun _ => .ret _)
  · exact fun _ _ _ => trivial

include reliable in
theorem claim_safe (payloadLen : UInt32) (expiresAt : UInt64) (hasExpiry : Bool) :
    Safe (txContract setup producer) (fun _ _ => True) (claim setup producer payloadLen expiresAt hasExpiry)
      state := by
  unfold claim
  split
  · exact fun _ _ _ => trivial
  refine guarded_safe fun current => ?_
  split
  · exact fun _ _ _ => trivial
  · exact claimGuarded_safe reliable _ _ _

include reliable in
theorem claimBatch_safe (payloadLen maxFrames : UInt32) (expiresAt : UInt64) (hasExpiry : Bool) :
    Safe (txContract setup producer) (fun _ _ => True)
      (claimBatch setup producer payloadLen maxFrames expiresAt hasExpiry) state := by
  unfold claimBatch
  split
  · exact fun _ _ _ => trivial
  refine guarded_safe fun current => ?_
  split
  · exact fun _ _ _ => trivial
  · exact claimBatchGuarded_safe reliable _ _ _ _

/-- A new transmitter starts with cached minima of zero. -/
theorem createTx_safe (outside : (state.ring producer).claimActive = false) :
    Safe (txContract setup producer) (fun _ _ => True) (createTx setup producer) state := by
  refine Safe.load_bind (txLawful setup producer) fun first relyFirst _ => ?_
  refine Safe.load_bind (txLawful setup producer) fun second relySecond _ => ?_
  refine Safe.store_bind fun third relyThird ready action => ?_
  have outside : (third.ring producer).claimActive = false :=
    (owned_claimActive ((relyFirst.trans relySecond).trans relyThird).owned).trans outside
  have tally := (action.1.quiet outside).1
  refine ⟨ready.keeps.transmit action.1 fun gauge applies consumer live => ?_, action.1, ?_⟩
  · obtain ⟨behind, room, -⟩ := ready.keeps gauge applies producer consumer live
    have own : gauge.own ((third.setTx producer fun tx => {tx with
        producerPos := (first.ring producer).reservationPosition
        publishedPos := (second.ring producer).visibleProducerPos
        cachedConsumerPos := 0
        cachedConsumerMessageSequence := 0
        messageSequence := (third.ring producer).reservationMessageSequence
        pendingCommits := []
        reservations := []}).tx producer) = gauge.own (third.tx producer) := by
      cases gauge with
      | bytes => exact congrArg Tally.producerPos tally
      | messages => exact congrArg Tally.messageSequence tally
    refine ⟨own ▸ behind, own ▸ room, ?_⟩
    cases gauge <;> simp [Gauge.cached]
  · split
    · exact Safe.bind (txLawful setup producer) minimumConsumerMessageSequence_safe fun minimum _ _ scanned =>
        Safe.weaken (setCached_safe scanned) fun _ _ _ _ => trivial
    · exact fun _ _ _ => trivial

include reliable in
/-- Every request to a transmitter keeps the flow control. -/
theorem transmitter_safe {request : Request n} {program : Prog (State n m K) (Label n m)}
    (begins : startTransmitter setup producer request = some program)
    (outside : (state.ring producer).claimActive = false) :
    Safe (txContract setup producer) (fun _ _ => True) program state := by
  have done {α : Type} {program : Prog (State n m K) α} {label : α → Label n m}
      (safe : Safe (txContract setup producer) (fun _ _ => True) program state) :
      Safe (txContract setup producer) (fun _ _ => True) (program.bind fun value => .ret (label value)) state :=
    Safe.bind (txLawful setup producer) safe fun _ _ _ _ => fun _ _ _ => trivial
  cases request with
  | claim payloadLen expiresAt hasExpiry =>
      cases begins
      exact done (claim_safe reliable payloadLen expiresAt hasExpiry)
  | claimBatch payloadLen maxFrames expiresAt hasExpiry =>
      cases begins
      exact done (claimBatch_safe reliable payloadLen maxFrames expiresAt hasExpiry)
  | write claimed offset data =>
      cases begins
      exact done (idles_safe (idles_of_commits (commits_writePayload setup producer claimed offset data)))
  | commit claim =>
      cases begins
      exact done (idles_safe (idles_of_commits (commits_commit setup producer claim)))
  | commitBatch batch =>
      cases begins
      exact done (idles_safe (idles_of_commits (commits_commitBatch setup producer batch)))
  | createTx =>
      cases begins
      exact done (createTx_safe outside)
  | _ => cases begins

omit [DecidableEq K] in
theorem environment_keeps {before after : State n m K} (flow : Flow setup before)
    (step : EnvironmentStep before after) : Flow setup after := by
  intro gauge applies producer consumer live
  have earlier : before.slotLive consumer := live.earlier step.outlives (by rw [step.same])
  rw [step.same]
  exact flow gauge applies producer consumer earlier

theorem sound (reliable : setup.mode.dropOldest = false) :
    (discipline setup).Sound (system setup) fun _ _ _ _ => True where
  lawful := lawful setup
  compatible := compatible
  start {thread label request program state} begins _ _ rests _ := by
    match thread, label, begins with
    | .producer producer, .transmitter last, begins => exact transmitter_safe reliable begins rests
    | .client client, label, begins =>
        exact Safe.of_action fun ready action => ⟨ready.keeps.receive action.1.1 action.1.2 action.2, action.1⟩
    | .environment, .environment, begins =>
        exact Safe.of_action fun ready action => ⟨environment_keeps ready.keeps action.1, action.1⟩

/-- A process that has exited takes no step, and the subscribers publish their progress in order. -/
def Admitted (setup : Setup n m K) (config : Concurrent.Config (State n m K) (Thread n K) (Label n m))
    (event : Event (Thread n K) (Request n)) : Prop :=
  Membership.Acts setup config event ∧ ∀ client after, event = .act (.client client) →
    (system setup).step config event = some after → InOrder config.shared after.shared

theorem begun (setup : Setup n m K) : (discipline setup).Initial initial := by
  refine ⟨fun _ _ _ consumer live => absurd (show phase 0 = kActive from live.1) (by decide), fun thread => ?_⟩
  cases thread <;> exact fun _ _ _ => trivial

theorem knows (setup : Setup n m K) :
    (discipline setup).Knows (system setup) (fun _ _ _ _ => True) (Admitted setup) initial where
  respects admitted := by
    have knows : (Membership.discipline setup).Knows (system setup) (fun _ _ _ _ => True) (Admitted setup) initial :=
      Membership.knows And.left
    exact knows.respects admitted
  known run := Membership.of_run And.left run
  action {before after thread} run admitted taken := by
    have step := Membership.step_of_run And.left run admitted taken
    refine ⟨?_, Membership.of_run And.left (.step _ run admitted taken)⟩
    match thread, admitted, taken, step with
    | .producer producer, _, _, step => exact step
    | .client client, admitted, taken, step => exact ⟨step, admitted.2 client after rfl taken⟩
    | .environment, _, _, step => exact step
  rests run may rests := Membership.label_of_run And.left run may rests

/-- Every state of a run of a reliable channel keeps the flow control. -/
theorem of_run (reliable : setup.mode.dropOldest = false)
    {config : Concurrent.Config (State n m K) (Thread n K) (Label n m)}
    (run : (system setup).Run (Admitted setup) initial config) : Flow setup config.shared :=
  ((sound reliable).run (begun setup) (knows setup) run).1

end Programs

end Flow

/-- In a reliable mode no producer is ahead of a live consumer by more than its windows. -/
theorem tail_within_window [DecidableEq K] {setup : Setup n m K} (reliable : setup.mode.dropOldest = false)
    {config : Concurrent.Config (State n m K) (Thread n K) (Label n m)}
    (run : (system setup).Run (Flow.Admitted setup) initial config) (producer : Fin n) (consumer : Fin m)
    (active : config.shared.slotActive consumer) (alive : config.shared.slotAlive consumer) :
    let tx := config.shared.tx producer
    let cursor := config.shared.cursor producer consumer
    cursor.position ≤ tx.producerPos ∧ tx.producerPos - cursor.position ≤ setup.capacity ∧
      (setup.publicationWindow ≠ 0 → tx.producerPos - cursor.position ≤ setup.publicationWindow) ∧
      (setup.publicationWindowMessages ≠ 0 → cursor.messageSequence ≤ tx.messageSequence ∧
        tx.messageSequence - cursor.messageSequence ≤ setup.publicationWindowMessages) := by
  have flow := Flow.of_run reliable run
  have bytes := flow .bytes trivial producer consumer ⟨active, alive⟩
  have behind : (config.shared.cursor producer consumer).position ≤ (config.shared.tx producer).producerPos :=
    bytes.behind
  have room : (config.shared.tx producer).producerPos ≤
      (config.shared.cursor producer consumer).position + setup.effectiveCapacity := bytes.room
  have capacity := setup.effectiveCapacity_le
  refine ⟨behind, by omega, fun window => ?_, fun window => ?_⟩
  · have effective : setup.effectiveCapacity ≤ setup.publicationWindow := by
      unfold Setup.effectiveCapacity
      split
      · omega
      · split <;> omega
    omega
  · have messages := flow .messages window producer consumer ⟨active, alive⟩
    have behind : (config.shared.cursor producer consumer).messageSequence ≤
        (config.shared.tx producer).messageSequence := messages.behind
    have room : (config.shared.tx producer).messageSequence ≤
        (config.shared.cursor producer consumer).messageSequence + setup.publicationWindowMessages := messages.room
    omega

/-- No slot is active before a step. -/
def nobodyActive (config : Concurrent.Config (State 1 1 Unit) (Thread 1 Unit) (Label 1 1))
    (_ : Event (Thread 1 Unit) (Request 1)) : Bool :=
  phase (config.shared.slot sole).state != kActive && config.shared.isRegisteredProcessAlive 1 1

theorem admitted_of_nobodyActive (mode : Mode)
    (config : Concurrent.Config (State 1 1 Unit) (Thread 1 Unit) (Label 1 1))
    (event : Event (Thread 1 Unit) (Request 1)) (passes : nobodyActive config event = true) :
    Flow.Admitted (smallSetup mode 1) config event := by
  simp only [nobodyActive, Bool.and_eq_true, bne_iff_ne, ne_eq] at passes
  refine ⟨?_, fun _ _ _ _ _ _ consumer active => absurd ?_ passes.1⟩
  · match event with
    | .start _ _ => trivial
    | .act (.producer _) => trivial
    | .act (.client _) => exact passes.2
    | .act .environment => trivial
  · rw [← Subsingleton.elim consumer sole]
    exact active

/-- A subscriber registers after one claim. -/
def registration : List (Event (Thread 1 Unit) (Request 1)) :=
  [.start (.producer sole) (.claim 8 0 false)] ++ List.replicate 9 (.act (.producer sole)) ++
    [.start (.client ()) (.subscribe .Reliable), .act (.client ()), .start (.client ()) .proceed, .act (.client ()),
      .start (.client ()) .proceed] ++ List.replicate 17 (.act (.client ()))

theorem tail_within_window_registration :
    ∃ config, (system (smallSetup .FifoMpsc 1)).Run (Flow.Admitted (smallSetup .FifoMpsc 1)) initial config ∧
      (config.shared.tx 0).producerPos = 16 ∧
      (config.shared.tx 0).producerPos - (config.shared.cursor 0 0).position ≤ 4096 := by
  have executed : ((system (smallSetup .FifoMpsc 1)).execChecked nobodyActive initial registration).map (fun config =>
      (phase (config.shared.slot 0).state, config.shared.isRegisteredProcessAlive (config.shared.slot 0).pid
        (config.shared.slot 0).processStart, (config.shared.tx 0).producerPos)) = some (kActive, true, 16) := by
    decide
  obtain ⟨config, final, facts⟩ := Option.map_eq_some_iff.mp executed
  simp only [Prod.mk.injEq] at facts
  have run := Concurrent.System.run_of_execChecked (admitted_of_nobodyActive .FifoMpsc) registration .refl final
  exact ⟨config, run, facts.2.2, (tail_within_window rfl run 0 0 facts.1 facts.2.1).2.1⟩

end Salias.SharedHybridMpsc
