import Salias.Channel.Receiving

/-
The private cursor of a receiver and its shared words agree after every call of a reliable receiver, whatever
the receiver knows about places in the rings.
-/

namespace Salias.SharedHybridMpsc

open Concurrent Salias.Frame ConsumerRegistration

variable {n m : Nat} {K : Type}

/-- The counters by which a receiver knows the next frame of each ring. -/
structure Turns (n : Nat) where
  counts : Fin n → Nat
  sequences : Fin n → Nat
  expected : Nat

def Turns.target (setup : Setup n m K) (turns : Turns n) (producer : Fin n) : Nat :=
  if setup.mode.ordered then turns.expected else turns.sequences producer

/-- The counters move past a message. -/
def Turns.advance (setup : Setup n m K) (message : Message n) (turns : Turns n) : Turns n :=
  let moved := {turns with counts := Function.update turns.counts message.producerId (turns.counts message.producerId + 1)}
  if setup.mode.ordered then {moved with expected := message.sequence + 1}
  else {moved with sequences := Function.update turns.sequences message.producerId (message.sequence + 1)}

def Rx.turns (rx : Rx n) : Turns n := ⟨rx.readMessageSequences, rx.nextSequences, rx.expectedSequence⟩

/-- The number of frames that a subscriber has behind it: those of before its registration and those it has passed. -/
def Client.told (client : Client n m) (producer : Fin n) : Nat :=
  client.registeredAt producer + (client.passed producer).length

/-- Facts about the rings: a frame may start at a position with a number of frames before it, a ring has been
visible up to a position, a message shows the frame with a number, a passage passes the frame with a number, counters
point to the next frames, and a fixed payload size may be asked for. A strict receiver never moves back. -/
structure Landmarks (n m : Nat) (K : Type) where
  place : State n m K → Fin n → Nat → Nat → Prop
  seen : State n m K → Fin n → Nat → Prop
  shows : State n m K → Message n → Nat → Prop
  tells : State n m K → Fin n → Nat → Passage n → Prop
  aligned : State n m K → Turns n → Prop
  sized : Option UInt32 → Prop
  strict : Prop

/-- A message leads from a place to the next one. -/
structure Landmarks.Turn (setup : Setup n m K) (marks : Landmarks n m K) (message : Message n) (turns : Turns n)
    (state : State n m K) : Prop where
  reaches : marks.place state message.producerId message.nextPosition (turns.counts message.producerId + 1)
  aligned : marks.aligned state (turns.advance setup message)

/-- The passages of a client pass the frames since its registration. -/
def Told (marks : Landmarks n m K) (client : Client n m) (state : State n m K) : Prop :=
  ∀ producer index passage, (client.passed producer)[index]? = some passage →
    marks.tells state producer (client.registeredAt producer + index) passage

/-- The deadline of a message has passed at a reading of the clock. -/
structure Overdue (message : Message n) (reading : Nat) : Prop where
  expires : hasFlag message.word FLAG_HAS_EXPIRY = true
  passed : message.expiresAt ≤ reading

/-- The message that a look makes of the header in one state and of the deadline in another. -/
def Message.parse (setup : Setup n m K) (first second : State n m K) (producer : Fin n) (position target : Nat)
    (fixed : Option UInt32) : Message n :=
  let header := Circular.loadWord setup.capacity (first.ring producer).memory position
  let word := headerMeta header
  let hasExpiry := hasFlag word FLAG_HAS_EXPIRY
  let payloadLen := payloadLength fixed header
  let expiresAt := if hasExpiry then
      Circular.loadWord setup.capacity (second.ring producer).memory (position + kHeaderSize) else 0
  ⟨producer, position, position + frameLen payloadLen hasExpiry, word, target, position + payloadOffset hasExpiry,
    payloadLen, expiresAt⟩

/-- A receiver that reads from a place finds the next frame, and it may publish the place. -/
structure LandmarkContract [DecidableEq K] (setup : Setup n m K) (client : K) (consumer : Fin m) (token : Nat)
    (contract : Contract (State n m K)) (moves : State n m K → State n m K → Prop) (marks : Landmarks n m K) : Prop
    extends ReceiverContract setup client contract moves where
  place : ∀ producer position count, Lasting contract fun state => marks.place state producer position count
  seen : ∀ producer bound, Lasting contract fun state => marks.seen state producer bound
  shows : ∀ message count, Lasting contract fun state => marks.shows state message count
  tells : ∀ producer count passage, Lasting contract fun state => marks.tells state producer count passage
  aligned : ∀ turns, Lasting contract fun state => marks.aligned state turns
  clock : ∀ reading, Lasting contract fun state => reading ≤ state.clock
  visible : ∀ {state}, contract.Ready state → ∀ producer,
    marks.seen state producer (state.ring producer).visibleProducerPos
  found : ∀ {first second producer bound fixed} (positions : Fin n → Nat) (turns : Turns n), contract.Ready first →
    contract.rely first second → contract.Ready second →
    (first.client client).registration = some (consumer, token) →
    (∀ other, (first.cursor other consumer).position ≤ positions other) →
    (∀ other, marks.place first other (positions other) (turns.counts other)) → marks.aligned first turns →
    marks.seen first producer bound → marks.sized fixed →
    let message := Message.parse setup first second producer (positions producer) (turns.target setup producer) fixed
    sequenceLowFromMeta message.word = sequenceLow message.sequence → message.nextPosition ≤ bound →
      marks.shows second message (turns.counts producer)
  turn : ∀ {state message turns}, contract.Ready state → marks.shows state message (turns.counts message.producerId) →
    marks.aligned state turns → (marks.strict → message.sequence = turns.target setup message.producerId) →
    marks.Turn setup message turns state
  delivers : ∀ {state message count index}, contract.Ready state →
    (state.client client).registration = some (consumer, token) →
    (state.cursor message.producerId consumer).position ≤ message.position → marks.shows state message count →
    (marks.strict → index = count) →
      marks.tells state message.producerId index (.delivered message (state.payload setup message))
  expires : ∀ {state message count index reading}, contract.Ready state → marks.shows state message count →
    Overdue message reading → reading ≤ state.clock → (marks.strict → index = count) →
      marks.tells state message.producerId index (.expired message reading)
  publishes : ∀ {producer position count} (before : ConsumerSharedState),
    (marks.strict → before.position ≤ position) → Publishes contract moves client consumer token (fun state =>
      marks.place state producer before.position before.messageSequence ∧ marks.place state producer position count)
      producer before position count

/-- Between two calls the shared words of a receiver are those of its private cursor, unless it has progress
that it has not published yet. -/
structure Synced (setup : Setup n m K) (view : RxView n m) : Prop where
  flushed : ∀ producer, view.rx.flushedPositions producer = (view.cursor producer).position
  behind : ∀ producer, view.rx.flushedPositions producer ≤ view.rx.readPositions producer
  counts : ∀ producer, view.rx.readPositions producer = view.rx.flushedPositions producer →
    (view.cursor producer).messageSequence = view.rx.readMessageSequences producer
  sequences : setup.mode.ordered = false → ∀ producer,
    view.rx.readPositions producer = view.rx.flushedPositions producer →
      (view.cursor producer).sequence = view.rx.nextSequences producer
  expected : setup.mode.ordered = true →
    (∀ producer, view.rx.readPositions producer = view.rx.flushedPositions producer) →
      view.expected = view.rx.expectedSequence

/-- What a receiver knows of its places and of the messages that it has lent out. -/
structure Facts (marks : Landmarks n m K) (view : RxView n m) (state : State n m K) : Prop where
  seen : ∀ producer, marks.seen state producer (view.rx.cachedVisiblePos producer)
  read : ∀ producer, marks.place state producer (view.rx.readPositions producer)
    (view.rx.readMessageSequences producer)
  shared : ∀ producer, marks.place state producer (view.cursor producer).position
    (view.cursor producer).messageSequence
  aligned : marks.aligned state view.rx.turns
  lent : ∀ message ∈ view.client.held, ∃ count, marks.shows state message count
  told : Told marks view.client state

section Views

variable {setup : Setup n m K} {marks : Landmarks n m K} {view later : RxView n m} {state : State n m K}

/-- Changes of the history, of the scan and of the counters of expired messages. -/
structure RxView.Quiet (before after : RxView n m) : Prop where
  readPositions : after.rx.readPositions = before.rx.readPositions
  nextSequences : after.rx.nextSequences = before.rx.nextSequences
  readMessageSequences : after.rx.readMessageSequences = before.rx.readMessageSequences
  flushedPositions : after.rx.flushedPositions = before.rx.flushedPositions
  expectedSequence : after.rx.expectedSequence = before.rx.expectedSequence
  cursor : after.cursor = before.cursor
  expected : after.expected = before.expected

theorem RxView.Quiet.synced (quiet : view.Quiet later) (synced : Synced setup view) : Synced setup later where
  flushed producer := by rw [quiet.flushedPositions, quiet.cursor]; exact synced.flushed producer
  behind producer := by rw [quiet.flushedPositions, quiet.readPositions]; exact synced.behind producer
  counts producer := by
    rw [quiet.flushedPositions, quiet.readPositions, quiet.cursor, quiet.readMessageSequences]
    exact synced.counts producer
  sequences fifo producer := by
    rw [quiet.flushedPositions, quiet.readPositions, quiet.cursor, quiet.nextSequences]
    exact synced.sequences fifo producer
  expected ordered := by
    rw [quiet.flushedPositions, quiet.readPositions, quiet.expected, quiet.expectedSequence]
    exact synced.expected ordered

theorem RxView.Quiet.turns (quiet : view.Quiet later) : later.rx.turns = view.rx.turns := by
  rw [Rx.turns, quiet.readMessageSequences, quiet.nextSequences, quiet.expectedSequence, Rx.turns]

theorem RxView.Quiet.facts (quiet : view.Quiet later) (facts : Facts marks view state)
    (seen : ∀ producer, marks.seen state producer (later.rx.cachedVisiblePos producer))
    (lent : ∀ message ∈ later.client.held, ∃ count, marks.shows state message count)
    (told : Told marks later.client state) : Facts marks later state where
  seen := seen
  read producer := by rw [quiet.readPositions, quiet.readMessageSequences]; exact facts.read producer
  shared producer := by rw [quiet.cursor]; exact facts.shared producer
  aligned := by rw [quiet.turns]; exact facts.aligned
  lent := lent
  told := told

theorem Synced.flushRing (synced : Synced setup view) (producer : Fin n) :
    Synced setup (view.flushRing setup producer) := by
  by_cases flushed : view.rx.readPositions producer = view.rx.flushedPositions producer
  · rw [show view.flushRing setup producer = view from if_pos flushed]
    exact synced
  rw [show view.flushRing setup producer = _ from if_neg flushed]
  refine ⟨fun other => ?_, fun other => ?_, fun other same => ?_, fun fifo other same => ?_, fun ordered same => ?_⟩
  · by_cases own : other = producer
    · subst own
      simp
    · simpa [own] using synced.flushed other
  · by_cases own : other = producer
    · subst own
      simp
    · simpa [own] using synced.behind other
  · by_cases own : other = producer
    · subst own
      simp
    · simp only [RxView.setRx_rx, RxView.setExpected_rx, RxView.setCursor_rx, Function.update_of_ne own] at same
      simpa [own] using synced.counts other same
  · by_cases own : other = producer
    · subst own
      simp [fifo]
    · simp only [RxView.setRx_rx, RxView.setExpected_rx, RxView.setCursor_rx, Function.update_of_ne own] at same
      simpa [own] using synced.sequences fifo other same
  · simp [ordered]

/-- A flush of all rings keeps the words in agreement. -/
theorem Synced.flush (synced : Synced setup view) (producers : List (Fin n)) :
    Synced setup (producers.foldl (RxView.flushRing setup) view) := by
  induction producers generalizing view with
  | nil => exact synced
  | cons producer rest ih => exact ih (synced.flushRing producer)

theorem Facts.flushRing (facts : Facts marks view state) (producer : Fin n) :
    Facts marks (view.flushRing setup producer) state := by
  by_cases flushed : view.rx.readPositions producer = view.rx.flushedPositions producer
  · rw [show view.flushRing setup producer = view from if_pos flushed]
    exact facts
  rw [show view.flushRing setup producer = _ from if_neg flushed]
  refine ⟨facts.seen, facts.read, fun other => ?_, facts.aligned, facts.lent, facts.told⟩
  by_cases own : other = producer
  · subst own
    simpa using facts.read other
  · simpa [own] using facts.shared other

theorem Facts.flush (facts : Facts marks view state) (producers : List (Fin n)) :
    Facts marks (producers.foldl (RxView.flushRing setup) view) state := by
  induction producers generalizing view with
  | nil => exact facts
  | cons producer rest ih => exact ih (facts.flushRing producer)

/-- The private cursor moves past a message; the ring now has unpublished progress. -/
theorem Synced.advance (synced : Synced setup view) {message : Message n}
    (moves : view.rx.readPositions message.producerId < message.nextPosition) :
    Synced setup (view.setRx (Rx.advance setup message)) := by
  have behind := synced.behind message.producerId
  have apart (other : Fin n) (same : Function.update view.rx.readPositions message.producerId message.nextPosition other =
      view.rx.flushedPositions other) : other ≠ message.producerId := by
    rintro rfl
    rw [Function.update_self] at same
    omega
  have parts : (Rx.advance setup message view.rx).readPositions =
        Function.update view.rx.readPositions message.producerId message.nextPosition ∧
      (Rx.advance setup message view.rx).flushedPositions = view.rx.flushedPositions ∧
      (Rx.advance setup message view.rx).readMessageSequences = Function.update view.rx.readMessageSequences
        message.producerId (view.rx.readMessageSequences message.producerId + 1) := by
    unfold Rx.advance
    dsimp only
    split <;> exact ⟨rfl, rfl, rfl⟩
  obtain ⟨read, flushed, counts⟩ := parts
  refine ⟨fun other => ?_, fun other => ?_, fun other same => ?_, fun fifo other same => ?_, fun ordered same => ?_⟩
  · simpa [flushed] using synced.flushed other
  · rw [RxView.setRx_rx, flushed, read]
    by_cases own : other = message.producerId
    · subst own
      simp only [Function.update_self]
      omega
    · simpa [own] using synced.behind other
  · rw [RxView.setRx_rx, read, flushed] at same
    have own := apart other same
    rw [Function.update_of_ne own] at same
    rw [RxView.setRx_rx, RxView.setRx_cursor, counts, Function.update_of_ne own]
    exact synced.counts other same
  · rw [RxView.setRx_rx, read, flushed] at same
    have own := apart other same
    rw [Function.update_of_ne own] at same
    simp only [RxView.setRx_rx, RxView.setRx_cursor, Rx.advance, fifo, Bool.false_eq_true, if_false,
      Function.update_of_ne own]
    exact synced.sequences fifo other same
  · have own := same message.producerId
    rw [RxView.setRx_rx, read, flushed] at own
    exact absurd rfl (apart _ own)

/-- The members after a message. -/
theorem Rx.advance_members (setup : Setup n m K) (message : Message n) (rx : Rx n) :
    (Rx.advance setup message rx).readPositions =
        Function.update rx.readPositions message.producerId message.nextPosition ∧
      (Rx.advance setup message rx).readMessageSequences = Function.update rx.readMessageSequences message.producerId
        (rx.readMessageSequences message.producerId + 1) ∧
      (Rx.advance setup message rx).lastHitRing = rx.lastHitRing ∧
      (Rx.advance setup message rx).flushedPositions = rx.flushedPositions ∧
      (Rx.advance setup message rx).cachedVisiblePos = rx.cachedVisiblePos := by
  unfold Rx.advance
  dsimp only
  split <;> exact ⟨rfl, rfl, rfl, rfl, rfl⟩

theorem Turns.advance_counts (setup : Setup n m K) (message : Message n) (turns : Turns n) :
    (turns.advance setup message).counts =
      Function.update turns.counts message.producerId (turns.counts message.producerId + 1) := by
  unfold Turns.advance
  dsimp only
  split <;> rfl

theorem Rx.advance_turns (setup : Setup n m K) (message : Message n) (rx : Rx n) :
    (Rx.advance setup message rx).turns = rx.turns.advance setup message := by
  unfold Rx.advance Turns.advance Rx.turns
  dsimp only
  split <;> rfl

theorem Facts.advance (facts : Facts marks view state) {message : Message n}
    (turn : marks.Turn setup message view.rx.turns state) :
    Facts marks (view.setRx (Rx.advance setup message)) state := by
  obtain ⟨read, counts, -, -, cached⟩ := Rx.advance_members setup message view.rx
  refine ⟨fun other => ?_, fun other => ?_, facts.shared, ?_, facts.lent, facts.told⟩
  · rw [RxView.setRx_rx, cached]
    exact facts.seen other
  · rw [RxView.setRx_rx, read, counts]
    by_cases own : other = message.producerId
    · subst own
      simpa [Rx.turns] using turn.reaches
    · simpa [own] using facts.read other
  · rw [RxView.setRx_rx, Rx.advance_turns]
    exact turn.aligned

/-- The release of a message publishes its end. -/
theorem Synced.release (synced : Synced setup view) (message : Message n) :
    Synced setup (view.release setup message) := by
  have parts : (view.release setup message).rx.readPositions =
        Function.update view.rx.readPositions message.producerId message.nextPosition ∧
      (view.release setup message).rx.flushedPositions =
        Function.update view.rx.flushedPositions message.producerId message.nextPosition ∧
      (view.release setup message).rx.readMessageSequences = Function.update view.rx.readMessageSequences
        message.producerId (view.rx.readMessageSequences message.producerId + 1) := by
    cases ordered : setup.mode.ordered <;> simp [RxView.release, Rx.release, Rx.advance, ordered]
  obtain ⟨read, flushed, counts⟩ := parts
  have cursor (other : Fin n) : (view.release setup message).cursor other = if other = message.producerId then
      {view.cursor other with
        position := message.nextPosition
        messageSequence := view.rx.readMessageSequences message.producerId + 1
        sequence := message.sequence + 1}
      else view.cursor other := by
    by_cases own : other = message.producerId
    · subst own
      simp [RxView.release]
    · simp [RxView.release, own]
  refine ⟨fun other => ?_, fun other => ?_, fun other same => ?_, fun fifo other same => ?_, fun ordered _ => ?_⟩
  · rw [flushed, cursor]
    by_cases own : other = message.producerId
    · subst own
      simp
    · simpa [own] using synced.flushed other
  · rw [flushed, read]
    by_cases own : other = message.producerId
    · subst own
      simp
    · simpa [own] using synced.behind other
  · rw [cursor, counts]
    by_cases own : other = message.producerId
    · subst own
      simp
    · rw [read, flushed, Function.update_of_ne own, Function.update_of_ne own] at same
      simpa [own] using synced.counts other same
  · rw [cursor]
    by_cases own : other = message.producerId
    · subst own
      simp [RxView.release, Rx.release, Rx.advance, fifo]
    · rw [read, flushed, Function.update_of_ne own, Function.update_of_ne own] at same
      have sequence := synced.sequences fifo other same
      simpa [own, RxView.release, Rx.release, Rx.advance, fifo] using sequence
  · simp [RxView.release, Rx.release, Rx.advance, ordered]

theorem Facts.release (facts : Facts marks view state) {message : Message n}
    (turn : marks.Turn setup message view.rx.turns state) : Facts marks (view.release setup message) state := by
  have moved := facts.advance turn
  refine ⟨moved.seen, moved.read, fun other => ?_, moved.aligned, moved.lent, moved.told⟩
  by_cases own : other = message.producerId
  · subst own
    simpa [RxView.release, Rx.turns] using turn.reaches
  · simpa [RxView.release, own] using facts.shared other

/-- A returned message is lent no more. -/
theorem Facts.returns (facts : Facts marks view state) (message : Message n) :
    Facts marks (view.returns message) state :=
  ⟨facts.seen, facts.read, facts.shared, facts.aligned, fun other held => facts.lent other (List.mem_of_mem_filter held),
    facts.told⟩

end Views

/-- The receiver is registered with exactly these own words, and their places are known. -/
structure At (marks : Landmarks n m K) (client : K) (consumer : Fin m) (token : Nat) (view : RxView n m)
    (state : State n m K) : Prop where
  receives : Receives client consumer token (· = view) state
  facts : Facts marks view state

/-- The words of a receiver between its calls, with a further fact about them. -/
def Follows (setup : Setup n m K) (marks : Landmarks n m K) (client : K) (consumer : Fin m) (token : Nat)
    (further : RxView n m → Prop) (state : State n m K) : Prop :=
  ∃ view, At marks client consumer token view state ∧ Synced setup view ∧ further view

/-- The next frame that a receiver expects from a ring. -/
def Rx.target (setup : Setup n m K) (rx : Rx n) (producer : Fin n) : Nat :=
  if setup.mode.ordered then rx.expectedSequence else rx.nextSequences producer

/-- The message is the next one of its ring. -/
def NextUp (setup : Setup n m K) (message : Message n) (view : RxView n m) : Prop :=
  message.position = view.rx.readPositions message.producerId ∧
    message.sequence = view.rx.target setup message.producerId

section Programs

variable [DecidableEq K] {setup : Setup n m K} {client : K} {consumer : Fin m} {token : Nat}
  {contract : Contract (State n m K)} {marks : Landmarks n m K} {view : RxView n m} {state : State n m K}
  {α β : Type} {further : RxView n m → Prop}

/-- What a look at a ring finds lies where the receiver has looked. -/
structure Looked (producer : Fin n) (start target bound : Nat) (message : Message n) : Prop where
  producerId : message.producerId = producer
  position : message.position = start
  sequence : message.sequence = target
  moves : start < message.nextPosition
  inside : message.nextPosition ≤ bound

omit [DecidableEq K] in
theorem ends_tryReadFromRing (producer : Fin n) (position target bound : Nat) (fixed : Option UInt32) :
    Ends (fun read => ∀ message, read = some message → Looked producer position target bound message)
      (tryReadFromRing setup producer position target bound fixed) := by
  unfold tryReadFromRing
  split
  · exact nofun
  refine .bind fun header => ?_
  dsimp only
  split
  · exact nofun
  split
  · exact nofun
  rename_i inside
  refine .bind fun expiresAt message found => ?_
  cases found
  have positive := frameLen_pos (payloadLength fixed header) (hasFlag (headerMeta header) FLAG_HAS_EXPIRY)
  exact ⟨rfl, rfl, rfl, by dsimp only; omega, by dsimp only; omega⟩

omit [DecidableEq K] in
/-- A look reads the header in one state and the deadline in a later one. -/
theorem tryReadFromRing_safe {producer : Fin n} {position target bound : Nat} {fixed : Option UInt32}
    {Q : Message n → State n m K → Prop} (law : contract.Lawful)
    (stable : ∀ {message before after}, contract.rely before after → contract.Ready after → Q message before →
      Q message after)
    (reads : ∀ first second, contract.rely state first → contract.Ready first → contract.rely first second →
      contract.Ready second → position < bound →
      let message := Message.parse setup first second producer position target fixed
      sequenceLowFromMeta message.word = sequenceLow message.sequence → message.nextPosition ≤ bound → Q message second) :
    Safe contract (fun read current => ∀ message, read = some message → Q message current)
      (tryReadFromRing setup producer position target bound fixed) state := by
  have fails {current : State n m K} :
      Safe contract (fun read current => ∀ message, read = some message → Q message current) (.ret none) current :=
    fun _ _ _ message found => by cases found
  unfold tryReadFromRing
  split
  · exact fails
  rename_i before
  refine Safe.load_bind law fun first rely ready => ?_
  dsimp only
  split
  · exact fails
  rename_i low
  split
  · exact fails
  rename_i inside
  have ends {second : State n m K} (between : contract.rely first second) (later : contract.Ready second) :
      Safe contract (fun read current => ∀ message, read = some message → Q message current)
        (.ret (some (Message.parse setup first second producer position target fixed))) second := by
    intro last rely' ready' message found
    cases found
    exact stable rely' ready' (reads first second rely ready between later (not_le.mp before) (not_not.mp low)
      (by dsimp only [Message.parse]; omega))
  by_cases expires : hasFlag (headerMeta (Circular.loadWord setup.capacity (first.ring producer).memory position))
      FLAG_HAS_EXPIRY = true
  · simp only [expires, if_true]
    refine Safe.load_bind law fun second between later => ?_
    have ends := ends between later
    simp only [Message.parse, expires, if_true] at ends
    exact ends
  · simp only [expires, Bool.false_eq_true, if_false]
    refine fun second between later => ?_
    have ends := ends between later
    simp only [Message.parse, expires, Bool.false_eq_true, if_false] at ends
    exact ends second (law.refl second) later

/-- The verdict of the deadline check rests on the reading that it returns. -/
def Judged (message : Message n) (verdict : Bool × Option Nat) : Prop :=
  verdict.1 = true ↔ ∃ reading, verdict.2 = some reading ∧ Overdue message reading

omit [DecidableEq K] in
theorem ends_isExpired (message : Message n) (now : Option Nat) :
    Ends (Judged message) (isExpired message now : Prog (State n m K) (Bool × Option Nat)) := by
  have judges (expires : hasFlag message.word FLAG_HAS_EXPIRY = true) (reading : Nat) :
      Judged message (decide (message.expiresAt ≤ reading), some reading) := by
    simp only [Judged, decide_eq_true_eq, Option.some.injEq]
    exact ⟨fun passed => ⟨reading, rfl, expires, passed⟩, fun ⟨_, same, overdue⟩ => same ▸ overdue.passed⟩
  unfold isExpired
  split
  · rename_i expires
    split
    · exact judges expires _
    · exact .bind fun reading => judges expires reading
  · rename_i plain
    exact ⟨nofun, fun ⟨_, _, overdue⟩ => absurd overdue.expires plain⟩

/-- A reading of the clock lies in the past. -/
def Clocked (now : Option Nat) (state : State n m K) : Prop := ∀ reading, now = some reading → reading ≤ state.clock

/-- The reading that a look leaves behind. -/
def Visit.now : Visit n → Option Nat
  | .nothing now => now
  | .skipped now => now
  | _ => none

/-- A passage enters the history of a ring. -/
structure RxView.Passes (producer : Fin n) (passage : Passage n) (before after : RxView n m) : Prop where
  passed : after.client.passed =
    Function.update before.client.passed producer (before.client.passed producer ++ [passage])
  registeredAt : after.client.registeredAt = before.client.registeredAt

/-- The place of a receiver, its scan and its history stay. -/
structure RxView.Keeps (before after : RxView n m) : Prop where
  readPositions : after.rx.readPositions = before.rx.readPositions
  readMessageSequences : after.rx.readMessageSequences = before.rx.readMessageSequences
  lastHitRing : after.rx.lastHitRing = before.rx.lastHitRing
  passed : after.client.passed = before.client.passed
  held : after.client.held = before.client.held
  registeredAt : after.client.registeredAt = before.client.registeredAt

/-- An expired message is passed. -/
structure RxView.Skips (message : Message n) (reading : Nat) (before after : RxView n m) : Prop
    extends RxView.Passes message.producerId (.expired message reading) before after where
  readPositions : after.rx.readPositions =
    Function.update before.rx.readPositions message.producerId message.nextPosition
  readMessageSequences : after.rx.readMessageSequences = Function.update before.rx.readMessageSequences
    message.producerId (before.rx.readMessageSequences message.producerId + 1)
  lastHitRing : after.rx.lastHitRing = before.rx.lastHitRing
  held : after.client.held = before.client.held

/-- A message is handed out. -/
structure RxView.Delivers (message : Message n) (payload : List UInt8) (before after : RxView n m) : Prop
    extends RxView.Passes message.producerId (.delivered message payload) before after where
  readPositions : after.rx.readPositions = before.rx.readPositions
  readMessageSequences : after.rx.readMessageSequences = before.rx.readMessageSequences
  lastHitRing : after.rx.lastHitRing = (message.producerId.val + 1) % n
  held : after.client.held = before.client.held ++ [message]

/-- The messages that the receiver lends lie beyond its shared words. -/
def RxView.Pinned (view : RxView n m) : Prop :=
  ∀ message ∈ view.client.held, (view.cursor message.producerId).position ≤ message.position

/-- Each frame before the read positions has been passed once. -/
def RxView.InStep (view : RxView n m) : Prop :=
  ∀ producer, view.client.told producer = view.rx.readMessageSequences producer

/-- The receiver is in step, and it lends exactly these messages, which its shared words have not passed. -/
structure RxView.Lends (view : RxView n m) (out : List (Message n)) : Prop where
  told : view.InStep
  held : view.client.held = out
  pinned : ∀ message ∈ out, (view.cursor message.producerId).position ≤ message.position

section Views

omit [DecidableEq K]

variable {first second third : RxView n m}

theorem RxView.Keeps.refl (view : RxView n m) : view.Keeps view := ⟨rfl, rfl, rfl, rfl, rfl, rfl⟩

theorem RxView.Keeps.trans (one : first.Keeps second) (two : second.Keeps third) : first.Keeps third :=
  ⟨two.readPositions.trans one.readPositions, two.readMessageSequences.trans one.readMessageSequences,
    two.lastHitRing.trans one.lastHitRing, two.passed.trans one.passed, two.held.trans one.held,
    two.registeredAt.trans one.registeredAt⟩

theorem RxView.Passes.told {producer : Fin n} {passage : Passage n} (passes : first.Passes producer passage second) :
    second.client.told = Function.update first.client.told producer (first.client.told producer + 1) := by
  funext other
  rw [Client.told, passes.passed, passes.registeredAt]
  by_cases own : other = producer
  · subst own
    simp [Client.told, Nat.add_assoc]
  · simp [Client.told, own]

/-- A further passage of the next frame. -/
theorem RxView.Passes.tells {producer : Fin n} {passage : Passage n} (told : Told marks first.client state)
    (tells : marks.tells state producer (first.client.told producer) passage)
    (passes : first.Passes producer passage second) :
    Told marks second.client state := by
  intro other index found same
  rw [passes.passed] at same
  rw [passes.registeredAt]
  by_cases own : other = producer
  · subst own
    rw [Function.update_self, List.getElem?_append] at same
    split at same
    · exact told other index found same
    · rename_i beyond
      obtain ⟨last, rfl⟩ := List.getElem?_eq_some_iff.mp same
      have exactly : index = (first.client.passed other).length := by
        simp only [List.length_singleton] at last
        omega
      subst exactly
      simpa [Client.told] using tells
  · rw [Function.update_of_ne own] at same
    exact told other index found same

theorem RxView.Keeps.inStep (keeps : first.Keeps second) (told : first.InStep) : second.InStep := by
  intro producer
  rw [Client.told, keeps.passed, keeps.registeredAt, keeps.readMessageSequences]
  exact told producer

/-- A receiver that passes a frame and counts it stays in step. -/
theorem RxView.InStep.passes {producer : Fin n} {passage : Passage n} (told : first.InStep)
    (passes : first.Passes producer passage second) (counts : second.rx.readMessageSequences =
      Function.update first.rx.readMessageSequences producer (first.rx.readMessageSequences producer + 1)) :
    second.InStep := by
  intro other
  rw [passes.told, counts]
  by_cases own : other = producer
  · subst own
    simpa using told other
  · simpa [own] using told other

/-- Scan data may change. -/
theorem RxView.Lends.quiet {out : List (Message n)} (lends : first.Lends out) (quiet : first.Quiet second)
    (told : second.client.told = first.client.told) (held : second.client.held = first.client.held) : second.Lends out := by
  refine ⟨fun producer => ?_, held.trans lends.held, fun message member => ?_⟩
  · rw [told, quiet.readMessageSequences]
    exact lends.told producer
  · rw [quiet.cursor]
    exact lends.pinned message member

theorem RxView.Lends.keeps (lends : first.Lends []) (keeps : first.Keeps second) : second.Lends [] :=
  ⟨keeps.inStep lends.told, keeps.held.trans lends.held, nofun⟩

/-- An expired frame lies beyond the messages that are lent. -/
theorem RxView.Lends.skips {out : List (Message n)} {message : Message n} {reading : Nat} (lends : first.Lends out)
    (skips : first.Skips message reading second) (cursor : second.cursor = first.cursor) : second.Lends out :=
  ⟨lends.told.passes skips.toPasses skips.readMessageSequences, skips.held.trans lends.held,
    cursor ▸ lends.pinned⟩

theorem RxView.Quiet.refl (view : RxView n m) : view.Quiet view := ⟨rfl, rfl, rfl, rfl, rfl, rfl, rfl⟩

theorem RxView.quiet_returns (view : RxView n m) (message : Message n) : view.Quiet (view.returns message) :=
  ⟨rfl, rfl, rfl, rfl, rfl, rfl, rfl⟩

theorem RxView.Keeps.skips {message : Message n} {reading : Nat} (keeps : first.Keeps second)
    (skips : second.Skips message reading third) : first.Skips message reading third where
  readPositions := by rw [skips.readPositions, keeps.readPositions]
  readMessageSequences := by rw [skips.readMessageSequences, keeps.readMessageSequences]
  lastHitRing := skips.lastHitRing.trans keeps.lastHitRing
  passed := by rw [skips.passed, keeps.passed]
  held := skips.held.trans keeps.held
  registeredAt := skips.registeredAt.trans keeps.registeredAt

theorem RxView.Skips.keeps {message : Message n} {reading : Nat} (skips : first.Skips message reading second)
    (keeps : second.Keeps third) : first.Skips message reading third where
  readPositions := keeps.readPositions.trans skips.readPositions
  readMessageSequences := keeps.readMessageSequences.trans skips.readMessageSequences
  lastHitRing := keeps.lastHitRing.trans skips.lastHitRing
  passed := keeps.passed.trans skips.passed
  held := keeps.held.trans skips.held
  registeredAt := keeps.registeredAt.trans skips.registeredAt

theorem RxView.Keeps.delivers {message : Message n} {payload : List UInt8} (keeps : first.Keeps second)
    (delivers : second.Delivers message payload third) : first.Delivers message payload third where
  readPositions := delivers.readPositions.trans keeps.readPositions
  readMessageSequences := delivers.readMessageSequences.trans keeps.readMessageSequences
  lastHitRing := delivers.lastHitRing
  passed := by rw [delivers.passed, keeps.passed]
  held := by rw [delivers.held, keeps.held]
  registeredAt := delivers.registeredAt.trans keeps.registeredAt

theorem RxView.keeps_flushRing (view : RxView n m) (producer : Fin n) : view.Keeps (view.flushRing setup producer) := by
  unfold RxView.flushRing
  dsimp only
  split
  · exact .refl view
  · exact ⟨rfl, rfl, rfl, rfl, rfl, rfl⟩

/-- A ring without progress keeps its shared words. -/
theorem RxView.flush_cursor (producers : List (Fin n)) (view : RxView n m) {other : Fin n}
    (even : view.rx.readPositions other = view.rx.flushedPositions other) :
    (producers.foldl (RxView.flushRing setup) view).cursor other = view.cursor other := by
  induction producers generalizing view with
  | nil => rfl
  | cons producer rest ih =>
      have step : (view.flushRing setup producer).cursor other = view.cursor other ∧
          (view.flushRing setup producer).rx.readPositions other =
            (view.flushRing setup producer).rx.flushedPositions other := by
        unfold RxView.flushRing
        dsimp only
        split
        · exact ⟨rfl, even⟩
        · rename_i progress
          have apart : other ≠ producer := fun same => progress (same ▸ even)
          simpa [apart] using even
      exact (ih _ step.2).trans step.1

theorem RxView.keeps_flush (producers : List (Fin n)) (view : RxView n m) :
    view.Keeps (producers.foldl (RxView.flushRing setup) view) := by
  induction producers generalizing view with
  | nil => exact .refl view
  | cons producer rest ih => exact (view.keeps_flushRing producer).trans (ih _)

end Views

/-- What a look at a ring does to the own words. -/
def Visited (marks : Landmarks n m K) (producer : Fin n) (before after : RxView n m) (state : State n m K) :
    Visit n → Prop
  | .nothing _ => before.Keeps after
  | .skipped now => ∃ message reading, now = some reading ∧ Overdue message reading ∧ message.producerId = producer ∧
      marks.shows state message (before.rx.readMessageSequences producer) ∧ before.Skips message reading after
  | .found message => message.producerId = producer ∧
      marks.shows state message (before.rx.readMessageSequences producer) ∧
        ∃ payload, before.Delivers message payload after
  | .failed _ => False

/-- The assertion at the end of a look. A message that it hands out is the next one of its ring. -/
structure VisitEnds (setup : Setup n m K) (marks : Landmarks n m K) (client : K) (consumer : Fin m) (token : Nat)
    (producer : Fin n) (before : RxView n m) (visit : Visit n) (state : State n m K) : Prop where
  reached : ∃ after, At marks client consumer token after state ∧ Synced setup after ∧
    Visited marks producer before after state visit ∧ ∀ message, visit = .found message → NextUp setup message after
  clocked : Clocked visit.now state

/-- What a pass of a receive does to the own words. -/
def Received.Effect (marks : Landmarks n m K) (before after : RxView n m) (state : State n m K) : Received n → Prop
  | .again receiving => ∃ message reading, receiving.now = some reading ∧ Overdue message reading ∧
      marks.shows state message (before.rx.readMessageSequences message.producerId) ∧ before.Skips message reading after
  | .nothing => before.Keeps after
  | .message found => marks.shows state found (before.rx.readMessageSequences found.producerId) ∧
      ∃ payload, before.Delivers found payload after
  | .error _ => False

/-- The results of a receive, with a further fact about the own words. -/
structure ReceiveEnds (setup : Setup n m K) (marks : Landmarks n m K) (client : K) (consumer : Fin m) (token : Nat)
    (further : RxView n m → State n m K → Prop) (received : Received n) (state : State n m K) : Prop where
  reached : ∃ after, At marks client consumer token after state ∧ Synced setup after ∧ further after state ∧
    ∀ message, received = .message message → NextUp setup message after
  again : ∀ receiving, received = .again receiving → marks.sized receiving.fixed ∧ Clocked receiving.now state

/-- The place of the FIFO batch loop. -/
def Collecting.positions (producer : Fin n) (entry : RxView n m) (collecting : Collecting n) : Fin n → Nat :=
  Function.update entry.rx.readPositions producer collecting.position

def Collecting.turns (producer : Fin n) (entry : RxView n m) (collecting : Collecting n) : Turns n where
  counts := Function.update entry.rx.readMessageSequences producer
    (entry.rx.readMessageSequences producer + collecting.advanced)
  sequences := Function.update entry.rx.nextSequences producer collecting.sequence
  expected := entry.rx.expectedSequence

/-- The loop has passed each frame before its place once, and it lends what it has collected. -/
structure Collecting.Lends (producer : Fin n) (entry : RxView n m) (collecting : Collecting n) (view : RxView n m) :
    Prop where
  told : ∀ other, view.client.told other = (collecting.turns producer entry).counts other
  held : view.client.held = collecting.out
  pinned : ∀ message ∈ collecting.out, (view.cursor message.producerId).position ≤ message.position

omit [DecidableEq K] in
theorem Collecting.Lends.count {producer : Fin n} {entry : RxView n m} {collecting : Collecting n}
    (lends : collecting.Lends producer entry view) :
    view.client.told producer = entry.rx.readMessageSequences producer + collecting.advanced := by
  simpa [Collecting.turns] using lends.told producer

omit [DecidableEq K] in
/-- One more passage in the ring of the loop. -/
theorem Collecting.Lends.passes {producer : Fin n} {entry later : RxView n m} {collecting next : Collecting n}
    {passage : Passage n} (lends : collecting.Lends producer entry view) (passes : view.Passes producer passage later)
    (advanced : next.advanced = collecting.advanced + 1) (other : Fin n) :
    later.client.told other = (next.turns producer entry).counts other := by
  have told := lends.told other
  rw [passes.told]
  by_cases same : other = producer
  · subst same
    simp only [Collecting.turns, Function.update_self, advanced] at told ⊢
    omega
  · simpa [Collecting.turns, same] using told

omit [DecidableEq K] in
/-- The place of the loop after one more frame. -/
theorem Collecting.turns_next (fifo : setup.mode.ordered = false) {message : Message n} {entry : RxView n m}
    {collecting later : Collecting n} (sequence : message.sequence = collecting.sequence)
    (advanced : later.advanced = collecting.advanced + 1) (moved : later.sequence = collecting.sequence + 1) :
    later.turns message.producerId entry = (collecting.turns message.producerId entry).advance setup message := by
  simp only [Turns.advance, fifo, Bool.false_eq_true, if_false, Collecting.turns, Function.update_self,
    Function.update_idem, advanced, moved, sequence, Nat.add_assoc]

namespace LandmarkContract

variable {moves : State n m K → State n m K → Prop}
  (receiver : LandmarkContract setup client consumer token contract moves marks)

include receiver

theorem turns (message : Message n) (turns : Turns n) : Lasting contract (marks.Turn setup message turns) :=
  ⟨fun rely ready held => ⟨(receiver.place _ _ _).rely rely ready held.reaches,
      (receiver.aligned _).rely rely ready held.aligned⟩,
    fun ready action held => ⟨(receiver.place _ _ _).action ready action held.reaches,
      (receiver.aligned _).action ready action held.aligned⟩⟩

theorem toldLasts (client : Client n m) : Lasting contract (Told marks client) :=
  ⟨fun rely ready held producer index passage same =>
      (receiver.tells _ _ _).rely rely ready (held producer index passage same),
    fun ready action held producer index passage same =>
      (receiver.tells _ _ _).action ready action (held producer index passage same)⟩

theorem clocked (now : Option Nat) : Lasting contract (Clocked now) :=
  ⟨fun rely ready held reading same => (receiver.clock reading).rely rely ready (held reading same),
    fun ready action held reading same => (receiver.clock reading).action ready action (held reading same)⟩

theorem facts (view : RxView n m) : Lasting contract (Facts marks view) :=
  ⟨fun rely ready held => ⟨fun _ => (receiver.seen _ _).rely rely ready (held.seen _),
      fun _ => (receiver.place _ _ _).rely rely ready (held.read _),
      fun _ => (receiver.place _ _ _).rely rely ready (held.shared _),
      (receiver.aligned _).rely rely ready held.aligned,
      fun message lent => (held.lent message lent).imp fun _ => (receiver.shows _ _).rely rely ready,
      (receiver.toldLasts _).rely rely ready held.told⟩,
    fun ready action held => ⟨fun _ => (receiver.seen _ _).action ready action (held.seen _),
      fun _ => (receiver.place _ _ _).action ready action (held.read _),
      fun _ => (receiver.place _ _ _).action ready action (held.shared _),
      (receiver.aligned _).action ready action held.aligned,
      fun message lent => (held.lent message lent).imp fun _ => (receiver.shows _ _).action ready action,
      (receiver.toldLasts _).action ready action held.told⟩⟩

theorem stable {before after : State n m K} (entry : At marks client consumer token view before)
    (rely : contract.rely before after) (ready : contract.Ready after) :
    At marks client consumer token view after :=
  ⟨entry.receives.stable (receiver.rely rely), (receiver.facts view).rely rely ready entry.facts⟩

/-- A program with an exact effect on the own words. -/
theorem move {later : RxView n m} {program : Prog (State n m K) α} (entry : At marks client consumer token view state)
    (safe : Safe contract (fun _ => Receives client consumer token (· = later)) program state)
    (facts : ∀ current, Facts marks view current → Facts marks later current) :
    Safe contract (fun _ => At marks client consumer token later) program state :=
  Safe.weaken (safe.lasting (receiver.facts view) entry.facts) fun _ _ _ held => ⟨held.1, facts _ held.2⟩

theorem reads {program : Prog (State n m K) α} (reads : Reads program)
    (entry : At marks client consumer token view state) :
    Safe contract (fun _ => At marks client consumer token view) program state :=
  receiver.move entry (receiver.toReceiverContract.reads reads entry.receives) fun _ => id

/-- One write of history or scan data, with a lasting fact at hand. -/
theorem setClient {read : State n m K → α} {change : State n m K → Client n m → Client n m} {fact : State n m K → Prop}
    (relates : α → RxView n m → Prop) (lasts : Lasting contract fact) (entry : At marks client consumer token view state)
    (known : fact state) (registration : ∀ state current, (change state current).registration = current.registration)
    (effect : ∀ current, contract.Ready current → At marks client consumer token view current → fact current →
      view.Quiet (view.setClient (change current)) ∧ relates (read current) (view.setClient (change current)) ∧
        (∀ producer, marks.seen current producer ((view.setClient (change current)).rx.cachedVisiblePos producer)) ∧
        (∀ message ∈ (view.setClient (change current)).client.held, ∃ count, marks.shows current message count) ∧
        Told marks (view.setClient (change current)).client current) :
    Safe contract (fun value current => (∃ later, At marks client consumer token later current ∧ view.Quiet later ∧
        relates value later) ∧ fact current)
      (Prog.modifyGet read fun state => state.setClient client (change state)) state := by
  refine Safe.modifyGet_last fun current rely ready action => ?_
  have held := receiver.stable entry rely ready
  have known := lasts.rely rely ready known
  obtain ⟨kept, guaranteed⟩ := receiver.keeps ready action (receiver.still fun _ _ _ => rfl)
  obtain ⟨quiet, related, seen, lent, told⟩ := effect current ready held known
  have facts := (receiver.facts view).action ready action held.facts
  have same : (current.setClient client (change current)).rxView client consumer = view.setClient (change current) := by
    rw [State.rxView_setClient, held.receives.holds]
  have moved : At marks client consumer token (view.setClient (change current))
      (current.setClient client (change current)) := by
    refine ⟨⟨?_, same⟩, quiet.facts facts (fun producer => (receiver.seen producer _).action ready action (seen producer))
      (fun message member => (lent message member).imp fun _ => (receiver.shows message _).action ready action)
      ((receiver.toldLasts _).action ready action told)⟩
    rw [State.setClient_client, registration]
    exact held.receives.registered
  have known := lasts.action ready action known
  exact ⟨kept, guaranteed, fun last rely ready => ⟨⟨_, receiver.stable moved rely ready, quiet, related⟩,
    lasts.rely rely ready known⟩⟩

/-- The scan starts at another ring. -/
theorem hits (ring : Nat) (entry : At marks client consumer token view state) :
    Safe contract (fun _ current => ∃ later, At marks client consumer token later current ∧ view.Quiet later ∧
        later.client.told = view.client.told ∧ later.client.held = view.client.held)
      (updateRx client fun rx => {rx with lastHitRing := ring}) state := by
  show Safe contract _ (Prog.modifyGet (fun _ => ()) fun state => state.setClient client fun current =>
    {current with rx := {current.rx with lastHitRing := ring}}) state
  refine Safe.weaken (receiver.setClient (fun _ later => later.client.told = view.client.told ∧
    later.client.held = view.client.held) .trivial entry trivial (fun _ _ => rfl) fun current _ entry _ => ?_)
    fun _ _ _ held => held.1
  exact ⟨⟨rfl, rfl, rfl, rfl, rfl, rfl, rfl⟩, ⟨rfl, rfl⟩, entry.facts.seen, entry.facts.lent, entry.facts.told⟩

theorem bind {P : α → State n m K → Prop} {Q : β → State n m K → Prop} {program : Prog (State n m K) α}
    {rest : α → Prog (State n m K) β} (safe : Safe contract P program state)
    (continues : ∀ value current, P value current → Safe contract Q (rest value) current) :
    Safe contract Q (program.bind rest) state :=
  Safe.bind receiver.lawful safe fun value current _ => continues value current

theorem readRx_bind {P : α → State n m K → Prop} {rest : Rx n → Prog (State n m K) α}
    (entry : At marks client consumer token view state)
    (continues : ∀ current, contract.rely state current → contract.Ready current →
      At marks client consumer token view current → Safe contract P (rest view.rx) current) :
    Safe contract P ((readRx client).bind rest) state := by
  refine Safe.load_bind receiver.lawful fun current rely ready => ?_
  have held := receiver.stable entry rely ready
  have same : (current.client client).rx = view.rx := by
    rw [← held.receives.holds]
    rfl
  rw [same]
  exact continues current rely ready held

theorem hasConsumer_bind {P : α → State n m K → Prop} {rest : Bool → Prog (State n m K) α}
    (entry : At marks client consumer token view state)
    (continues : ∀ current, At marks client consumer token view current → Safe contract P (rest true) current) :
    Safe contract P ((hasConsumer consumer token).bind rest) state := by
  refine Safe.load_bind receiver.lawful fun current rely ready => ?_
  have held := receiver.stable entry rely ready
  rw [decide_eq_true (receiver.valid ready held.receives.registered)]
  exact continues current held

/-- The look at the read position, or further on, finds the next frame. -/
theorem look (producer : Fin n) {bound : Nat} {fixed : Option UInt32} (positions : Fin n → Nat) (turns : Turns n)
    (entry : At marks client consumer token view state)
    (behind : ∀ other, (view.cursor other).position ≤ positions other)
    (places : ∀ other, marks.place state other (positions other) (turns.counts other))
    (aligned : marks.aligned state turns) (seen : marks.seen state producer bound) (sized : marks.sized fixed) :
    Safe contract (fun read current => At marks client consumer token view current ∧
        ∀ message, read = some message →
          Looked producer (positions producer) (turns.target setup producer) bound message ∧
          marks.shows current message (turns.counts producer))
      (tryReadFromRing setup producer (positions producer) (turns.target setup producer) bound fixed) state := by
  have shows : Safe contract (fun read current => ∀ message, read = some message →
      marks.shows current message (turns.counts producer))
      (tryReadFromRing setup producer (positions producer) (turns.target setup producer) bound fixed) state := by
    refine tryReadFromRing_safe receiver.lawful (fun rely ready held => (receiver.shows _ _).rely rely ready held)
      fun first second rely readyFirst between ready _ low inside => ?_
    have entry := receiver.stable entry rely readyFirst
    have places := (Lasting.all fun other => receiver.place other _ _).rely rely readyFirst places
    have aligned := (receiver.aligned turns).rely rely readyFirst aligned
    have seen := (receiver.seen producer bound).rely rely readyFirst seen
    have cursor (other : Fin n) : (first.cursor other consumer).position = (view.cursor other).position :=
      congrArg (fun view : RxView n m => (view.cursor other).position) entry.receives.holds
    exact receiver.found positions turns readyFirst between ready entry.receives.registered
      (fun other => (cursor other).trans_le (behind other)) places aligned seen sized low inside
  have kept := receiver.reads (reads_tryReadFromRing setup producer (positions producer) (turns.target setup producer)
    bound fixed) entry
  exact Safe.weaken ((kept.and shows).ends (ends_tryReadFromRing producer _ _ bound fixed))
    fun _ _ _ held => ⟨held.1.1, fun message found => ⟨held.2 message found, held.1.2 message found⟩⟩

/-- The look of a receiver at its own place. -/
theorem lookNext (producer : Fin n) {fixed : Option UInt32} (entry : At marks client consumer token view state)
    (synced : Synced setup view) (sized : marks.sized fixed) :
    Safe contract (fun read current => At marks client consumer token view current ∧
        ∀ message, read = some message →
          Looked producer (view.rx.readPositions producer) (view.rx.target setup producer)
            (view.rx.cachedVisiblePos producer) message ∧
          marks.shows current message (view.rx.readMessageSequences producer))
      (tryReadFromRing setup producer (view.rx.readPositions producer) (view.rx.target setup producer)
        (view.rx.cachedVisiblePos producer) fixed) state :=
  receiver.look producer view.rx.readPositions view.rx.turns entry
    (fun other => synced.flushed other ▸ synced.behind other) entry.facts.read entry.facts.aligned
    (entry.facts.seen producer) sized

/-- The cached bound of a ring is read again at its end. -/
theorem refreshVisible (producer : Fin n) (entry : At marks client consumer token view state) :
    Safe contract (fun readable current => ∃ later, At marks client consumer token later current ∧ view.Quiet later ∧
        view.Keeps later ∧ (readable = true → later.rx.readPositions producer < later.rx.cachedVisiblePos producer))
      (refreshVisible client producer) state := by
  refine receiver.readRx_bind entry fun current _ _ entry => ?_
  split
  · refine receiver.bind (receiver.setClient (fun visible later => view.Keeps later ∧
      later.rx.cachedVisiblePos producer = visible) .trivial entry trivial (fun _ _ => rfl)
      fun current ready entry _ => ⟨⟨rfl, rfl, rfl, rfl, rfl, rfl, rfl⟩, ⟨⟨rfl, rfl, rfl, rfl, rfl, rfl⟩, by simp [RxView.setClient, RxView.rx]⟩,
        fun other => ?_, entry.facts.lent, entry.facts.told⟩) fun visible current held => ?_
    · by_cases same : other = producer
      · subst same
        simpa [RxView.setClient, RxView.rx] using receiver.visible ready other
      · simpa [RxView.setClient, RxView.rx, same] using entry.facts.seen other
    · obtain ⟨⟨later, entry, quiet, keeps, cached⟩, -⟩ := held
      refine fun last rely ready => ⟨later, receiver.stable entry rely ready, quiet, keeps, fun readable => ?_⟩
      rw [quiet.readPositions, cached]
      exact of_decide_eq_true readable
  · rename_i ahead
    exact fun last rely ready => ⟨view, receiver.stable entry rely ready, .refl view, .refl view, fun _ => by omega⟩

/-- The deadline check rests on a past reading of the clock. -/
theorem isExpired (message : Message n) {now : Option Nat} (entry : At marks client consumer token view state)
    (clocked : Clocked now state) :
    Safe contract (fun verdict current => (At marks client consumer token view current ∧ Clocked verdict.2 current) ∧
        Judged message verdict) (isExpired message now) state := by
  refine Safe.ends ?_ (ends_isExpired message now)
  have done {current : State n m K} {verdict : Bool × Option Nat} (entry : At marks client consumer token view current)
      (clocked : Clocked verdict.2 current) :
      Safe contract (fun verdict current => At marks client consumer token view current ∧ Clocked verdict.2 current)
        (.ret verdict) current :=
    fun _ rely ready => ⟨receiver.stable entry rely ready, (receiver.clocked _).rely rely ready clocked⟩
  unfold SharedHybridMpsc.isExpired
  split
  · split
    · exact done entry clocked
    · refine Safe.load_bind receiver.lawful fun current rely ready => done (receiver.stable entry rely ready) ?_
      rintro reading same
      cases same
      exact le_rfl
  · exact done entry clocked

/-- A program ends with words that agree. -/
theorem done {P : α → State n m K → Prop} {value : α} (entry : At marks client consumer token view state)
    (ends : ∀ current, At marks client consumer token view current → P value current) :
    Safe contract P (.ret value) state :=
  fun _ rely ready => ends _ (receiver.stable entry rely ready)

theorem follows_stable {before after : State n m K} (entry : Follows setup marks client consumer token further before)
    (rely : contract.rely before after) (ready : contract.Ready after) :
    Follows setup marks client consumer token further after := by
  obtain ⟨view, entry, rest⟩ := entry
  exact ⟨view, receiver.stable entry rely ready, rest⟩

theorem visited_stable {producer : Fin n} {before after : RxView n m} {visit : Visit n} {first second : State n m K}
    (visited : Visited marks producer before after first visit) (rely : contract.rely first second)
    (ready : contract.Ready second) : Visited marks producer before after second visit := by
  cases visit with
  | nothing now => exact visited
  | skipped now =>
      obtain ⟨message, reading, same, overdue, own, shows, skips⟩ := visited
      exact ⟨message, reading, same, overdue, own, (receiver.shows _ _).rely rely ready shows, skips⟩
  | found message => exact ⟨visited.1, (receiver.shows _ _).rely rely ready visited.2.1, visited.2.2⟩
  | failed error => exact visited

theorem visitEnds_stable {producer : Fin n} {before : RxView n m} {visit : Visit n} {first second : State n m K}
    (ends : VisitEnds setup marks client consumer token producer before visit first) (rely : contract.rely first second)
    (ready : contract.Ready second) : VisitEnds setup marks client consumer token producer before visit second := by
  obtain ⟨⟨after, known, synced, visited, next⟩, clocked⟩ := ends
  exact ⟨⟨after, receiver.stable known rely ready, synced, receiver.visited_stable visited rely ready, next⟩,
    (receiver.clocked _).rely rely ready clocked⟩

theorem consume (message : Message n) (entry : At marks client consumer token view state)
    (shows : marks.shows state message (view.rx.readMessageSequences message.producerId))
    (next : marks.strict → message.sequence = view.rx.target setup message.producerId) :
    Safe contract (fun _ => At marks client consumer token (view.setRx (Rx.advance setup message)))
      (consume setup client consumer token message) state := by
  refine Safe.settle receiver.lawful fun current rely ready => ?_
  have entry := receiver.stable entry rely ready
  have turn : marks.Turn setup message view.rx.turns _ := receiver.turn ready ((receiver.shows _ _).rely rely ready shows)
    entry.facts.aligned next
  have safe := receiver.toReceiverContract.consume message entry.receives
  refine Safe.weaken ((safe.lasting (receiver.facts view) entry.facts).lasting (receiver.turns _ _) turn)
    fun _ current _ held => ?_
  exact ⟨held.1.1, held.1.2.advance held.2⟩

/-- The expired message is passed. -/
theorem consumeExpired (message : Message n) {reading : Nat} (entry : At marks client consumer token view state)
    (shows : marks.shows state message (view.rx.readMessageSequences message.producerId))
    (next : marks.strict → message.sequence = view.rx.target setup message.producerId)
    (inStep : marks.strict → view.InStep) (overdue : Overdue message reading) (past : reading ≤ state.clock) :
    Safe contract (fun _ current => ∃ later, At marks client consumer token later current ∧
        (view.setRx (Rx.advance setup message)).Quiet later ∧ view.Skips message reading later)
      (consumeExpired setup client consumer token message (some reading)) state := by
  refine Safe.settle receiver.lawful fun current rely ready => ?_
  have entry := receiver.stable entry rely ready
  have shows := (receiver.shows _ _).rely rely ready shows
  have turn : marks.Turn setup message view.rx.turns _ := receiver.turn ready shows entry.facts.aligned next
  have tells : marks.tells current message.producerId (view.client.told message.producerId) (.expired message reading) :=
    receiver.expires ready shows overdue ((receiver.clock reading).rely rely ready past) fun strict =>
      inStep strict message.producerId
  have safe := receiver.toReceiverContract.consumeExpired message (some reading) entry.receives
  refine Safe.weaken (((safe.lasting (receiver.facts view) entry.facts).lasting (receiver.turns _ _) turn).lasting
    (receiver.tells _ _ _) tells) fun _ current _ held => ?_
  obtain ⟨⟨⟨receives, facts⟩, turn⟩, tells⟩ := held
  have quiet : (view.setRx (Rx.advance setup message)).Quiet (view.setClient fun current =>
      {({current with rx := current.rx.advance setup message} : Client n m).pass message.producerId
          (.expired message reading) with
        rx := {current.rx.advance setup message with
          expiredMessages := min kMax ((current.rx.advance setup message).expiredMessages + 1)}}) :=
    ⟨rfl, rfl, rfl, rfl, rfl, rfl, rfl⟩
  have advanced : Facts marks (view.setRx (Rx.advance setup message)) current := facts.advance turn
  obtain ⟨read, counts, hit, -⟩ := Rx.advance_members setup message view.client.rx
  have passes : view.Passes message.producerId (.expired message reading) (view.setClient fun current =>
      {({current with rx := current.rx.advance setup message} : Client n m).pass message.producerId
          (.expired message reading) with
        rx := {current.rx.advance setup message with
          expiredMessages := min kMax ((current.rx.advance setup message).expiredMessages + 1)}}) := ⟨rfl, rfl⟩
  exact ⟨_, ⟨receives, quiet.facts advanced advanced.seen advanced.lent (RxView.Passes.tells facts.told tells passes)⟩, quiet,
    ⟨passes, read, counts, hit, rfl⟩⟩

/-- A message is lent out. -/
theorem receive (message : Message n) (hit : Nat → Nat) {count : Nat}
    (entry : At marks client consumer token view state) (shows : marks.shows state message count)
    (behind : (view.cursor message.producerId).position ≤ message.position)
    (index : marks.strict → view.client.told message.producerId = count) :
    Safe contract (fun _ current => (∃ later, At marks client consumer token later current ∧ view.Quiet later ∧
        ∃ payload, view.Passes message.producerId (.delivered message payload) later ∧
          later.client.held = view.client.held ++ [message] ∧ later.rx.lastHitRing = hit view.rx.lastHitRing) ∧
        marks.shows current message count)
      (.store fun state => state.setClient client fun current =>
        {current.receive message (state.payload setup message) with
          rx := {current.rx with lastHitRing := hit current.rx.lastHitRing}}) state := by
  refine receiver.setClient (fun _ later => ∃ payload, view.Passes message.producerId (.delivered message payload) later ∧
      later.client.held = view.client.held ++ [message] ∧ later.rx.lastHitRing = hit view.rx.lastHitRing)
    (receiver.shows message count) entry shows (fun _ _ => rfl) fun current ready entry shows => ?_
  have cursor : (current.cursor message.producerId consumer).position = (view.cursor message.producerId).position :=
    congrArg (fun view : RxView n m => (view.cursor message.producerId).position) entry.receives.holds
  have tells := receiver.delivers ready entry.receives.registered (cursor.trans_le behind) shows index
  refine ⟨⟨rfl, rfl, rfl, rfl, rfl, rfl, rfl⟩, ⟨_, ⟨rfl, rfl⟩, rfl, rfl⟩, entry.facts.seen, fun other lent => ?_,
    RxView.Passes.tells entry.facts.told tells ⟨rfl, rfl⟩⟩
  rcases List.mem_append.mp lent with old | new
  · exact entry.facts.lent other old
  · rw [List.mem_singleton.mp new]
    exact ⟨count, shows⟩

/-- An expired frame of a batch is counted. -/
theorem expire (message : Message n) {count reading : Nat} (entry : At marks client consumer token view state)
    (shows : marks.shows state message count) (overdue : Overdue message reading) (past : reading ≤ state.clock)
    (index : marks.strict → view.client.told message.producerId = count) :
    Safe contract (fun _ current => (∃ later, At marks client consumer token later current ∧ view.Quiet later ∧
        view.Passes message.producerId (.expired message reading) later ∧ later.client.held = view.client.held) ∧
        marks.shows current message count ∧ reading ≤ current.clock)
      (.store fun state => state.setClient client fun current =>
        {current.pass message.producerId (.expired message reading) with
          rx := {current.rx with expiredMessages := min kMax (current.rx.expiredMessages + 1)}}) state := by
  refine receiver.setClient (fun _ later => view.Passes message.producerId (.expired message reading) later ∧
      later.client.held = view.client.held) ((receiver.shows message _).and (receiver.clock reading)) entry
    ⟨shows, past⟩ (fun _ _ => rfl) fun current ready entry facts => ?_
  exact ⟨⟨rfl, rfl, rfl, rfl, rfl, rfl, rfl⟩, ⟨⟨rfl, rfl⟩, rfl⟩, entry.facts.seen, entry.facts.lent,
    RxView.Passes.tells entry.facts.told (receiver.expires ready facts.1 overdue facts.2 index) ⟨rfl, rfl⟩⟩

section Reliable

variable (reliable : setup.mode.dropOldest = false)

include reliable

theorem flushRing (producer : Fin n) (entry : At marks client consumer token view state) (synced : Synced setup view) :
    Safe contract (fun _ => At marks client consumer token (view.flushRing setup producer))
      (flushRing setup client consumer token producer) state :=
  receiver.move entry (receiver.toReceiverContract.flushRing reliable producer
      ((receiver.place producer _ _).and (receiver.place producer _ _))
      (receiver.publishes _ (fun _ => synced.flushed producer ▸ synced.behind producer)) entry.receives
      ⟨entry.facts.shared producer, entry.facts.read producer⟩) fun _ facts => facts.flushRing producer

theorem flushProgress (entry : At marks client consumer token view state) (synced : Synced setup view) :
    Safe contract (fun _ => At marks client consumer token ((List.finRange n).foldl (RxView.flushRing setup) view))
      (flushProgress setup client consumer token) state := by
  refine receiver.hasConsumer_bind entry fun current entry => ?_
  have flushes (producers : List (Fin n)) {view : RxView n m} {current : State n m K}
      (entry : At marks client consumer token view current) (synced : Synced setup view) :
      Safe contract (fun _ => At marks client consumer token (producers.foldl (RxView.flushRing setup) view))
        (.forEach (SharedHybridMpsc.flushRing setup client consumer token) producers) current := by
    induction producers generalizing view current with
    | nil => exact receiver.done entry fun _ entry => entry
    | cons producer rest ih =>
        exact receiver.bind (receiver.flushRing reliable producer entry synced) fun _ _ entry =>
          ih entry (synced.flushRing producer)
  exact flushes _ entry synced

/-- A flush under a condition. -/
theorem whenFlush (condition : Bool) (entry : At marks client consumer token view state)
    (synced : Synced setup view) :
    Safe contract (fun _ => Follows setup marks client consumer token fun later => view.Keeps later)
      (.when condition (SharedHybridMpsc.flushProgress setup client consumer token)) state := by
  unfold Prog.when
  split
  · exact Safe.weaken (receiver.flushProgress reliable entry synced) fun _ _ _ held =>
      ⟨_, held, synced.flush (List.finRange n), view.keeps_flush _⟩
  · exact receiver.done entry fun _ entry => ⟨view, entry, synced, .refl view⟩

/-- A look at a ring. -/
theorem visitRing {fixed : Option UInt32} (sized : marks.sized fixed) (noPending : Bool) {now : Option Nat}
    (producer : Fin n) (entry : At marks client consumer token view state) (synced : Synced setup view)
    (inStep : marks.strict → view.InStep) (clocked : Clocked now state) :
    Safe contract (VisitEnds setup marks client consumer token producer view)
      (visitRing setup client consumer token fixed noPending now producer) state := by
  have nothing {later : RxView n m} {now : Option Nat} {current : State n m K}
      (entry : At marks client consumer token later current) (synced : Synced setup later) (keeps : view.Keeps later)
      (clocked : Clocked now current) :
      Safe contract (VisitEnds setup marks client consumer token producer view) (.ret (.nothing now)) current :=
    fun _ rely ready => ⟨⟨later, receiver.stable entry rely ready, synced, keeps, fun _ same => by cases same⟩,
      (receiver.clocked now).rely rely ready clocked⟩
  refine receiver.bind ((receiver.refreshVisible producer entry).lasting (receiver.clocked now) clocked)
    fun readable current held => ?_
  obtain ⟨⟨later, entry, quiet, keeps, -⟩, clocked⟩ := held
  have synced := quiet.synced synced
  have inStep : marks.strict → later.InStep := fun strict => keeps.inStep (inStep strict)
  split
  · refine receiver.readRx_bind entry fun current rely ready entry => ?_
    have clocked := (receiver.clocked now).rely rely ready clocked
    refine receiver.bind ((receiver.lookNext _ entry synced sized).lasting (receiver.clocked now) clocked)
      fun read current held => ?_
    obtain ⟨⟨entry, looked⟩, clocked⟩ := held
    cases read with
    | none => exact nothing entry synced keeps clocked
    | some message =>
    obtain ⟨looked, shows⟩ := looked message rfl
    have own := looked.producerId
    subst own
    refine receiver.bind ((receiver.isExpired message entry clocked).lasting (receiver.shows _ _) shows)
      fun verdict current held => ?_
    obtain ⟨⟨⟨entry, clocked⟩, judged⟩, shows⟩ := held
    obtain ⟨expired, now⟩ := verdict
    dsimp only at clocked ⊢
    split
    · rename_i late
      obtain ⟨reading, same, overdue⟩ := judged.mp late
      dsimp only at same
      subst same
      refine receiver.bind (((receiver.consumeExpired message entry shows (fun _ => looked.sequence) inStep overdue
        (clocked reading rfl)).lasting (receiver.clocked _) clocked).lasting (receiver.shows _ _) shows)
        fun _ current held => ?_
      obtain ⟨⟨⟨skipped, entry, moved, skips⟩, clocked⟩, shows⟩ := held
      refine receiver.bind (((receiver.whenFlush reliable noPending entry
        (moved.synced (synced.advance looked.moves))).lasting (receiver.clocked _) clocked).lasting
        (receiver.shows _ _) shows) fun _ current held => ?_
      obtain ⟨⟨⟨after, entry, synced, flushed⟩, clocked⟩, shows⟩ := held
      refine fun _ rely ready => receiver.visitEnds_stable ⟨⟨after, entry, synced, ⟨message, reading, rfl, overdue, rfl,
        ?_, keeps.skips (skips.keeps flushed)⟩, fun _ same => by cases same⟩, clocked⟩ rely ready
      rw [← keeps.readMessageSequences]
      exact shows
    · have behind : (later.cursor message.producerId).position ≤ message.position := by
        rw [looked.position]
        exact synced.flushed _ ▸ synced.behind _
      refine receiver.bind (receiver.receive message (fun _ => (message.producerId.val + 1) % n) entry shows behind
        fun strict => inStep strict _) fun _ current held => ?_
      · obtain ⟨⟨after, entry, quiet, payload, passes, held, hit⟩, shows⟩ := held
        have delivers : later.Delivers message payload after :=
          ⟨passes, quiet.readPositions, quiet.readMessageSequences, hit, held⟩
        refine fun _ rely ready => receiver.visitEnds_stable ⟨⟨after, entry, quiet.synced synced, ⟨rfl, ?_, payload,
          keeps.delivers delivers⟩, fun other found => ?_⟩, fun _ same => by cases same⟩ rely ready
        · rw [← keeps.readMessageSequences]
          exact shows
        · cases found
          refine ⟨?_, ?_⟩
          · rw [quiet.readPositions]
            exact looked.position
          · rw [Rx.target, quiet.expectedSequence, quiet.nextSequences]
            exact looked.sequence
  · exact nothing entry synced keeps clocked

omit reliable in
/-- The end of a pass of a receive. -/
theorem received_done {before after : RxView n m} {received : Received n} (entry : At marks client consumer token after state)
    (synced : Synced setup after) (effect : received.Effect marks before after state)
    (next : ∀ message, received = .message message → NextUp setup message after)
    (again : ∀ receiving, received = .again receiving → marks.sized receiving.fixed ∧ Clocked receiving.now state) :
    Safe contract (fun received => ReceiveEnds setup marks client consumer token
      (fun after state => received.Effect marks before after state) received) (.ret received) state := by
  intro last rely ready
  refine ⟨⟨after, receiver.stable entry rely ready, synced, ?_, next⟩, fun receiving same =>
    ⟨(again receiving same).1, (receiver.clocked _).rely rely ready (again receiving same).2⟩⟩
  cases received with
  | again receiving =>
      obtain ⟨message, reading, same, overdue, shows, skips⟩ := effect
      exact ⟨message, reading, same, overdue, (receiver.shows _ _).rely rely ready shows, skips⟩
  | nothing => exact effect
  | message found => exact ⟨(receiver.shows _ _).rely rely ready effect.1, effect.2⟩
  | error reason => exact effect

theorem receivePass {receiving : Receiving} (sized : marks.sized receiving.fixed)
    (entry : At marks client consumer token view state) (synced : Synced setup view)
    (inStep : marks.strict → view.InStep) (clocked : Clocked receiving.now state) :
    Safe contract (fun received => ReceiveEnds setup marks client consumer token
      (fun after state => received.Effect marks view after state) received)
      (receivePass setup client consumer token receiving) state := by
  refine receiver.readRx_bind entry fun current rely ready entry => ?_
  have clocked := (receiver.clocked _).rely rely ready clocked
  refine receiver.bind (Safe.foldUntil receiver.lawful
    (I := fun _ now current => Clocked now current ∧
      ∃ later, At marks client consumer token later current ∧ Synced setup later ∧ view.Keeps later)
    (S := fun visit current => (∃ producer later, VisitEnds setup marks client consumer token producer later visit current ∧
      view.Keeps later) ∧ ∀ now, visit ≠ .nothing now)
    (fun rely ready ⟨clocked, later, entry, rest⟩ => ⟨(receiver.clocked _).rely rely ready clocked, later,
      receiver.stable entry rely ready, rest⟩)
    (fun producer rest now current ⟨clocked, later, entry, synced, keeps⟩ => receiver.bind
      (receiver.visitRing reliable sized receiving.noPendingAtEntry producer entry synced
        (fun strict => keeps.inStep (inStep strict)) clocked)
      fun visit current held => ?_)
    (fun rely ready ⟨⟨producer, later, ends, keeps⟩, stops⟩ =>
      ⟨⟨producer, later, receiver.visitEnds_stable ends rely ready, keeps⟩, stops⟩)
    ⟨clocked, view, entry, synced, .refl view⟩) fun scanned current held => ?_
  · cases visit with
    | nothing now =>
        obtain ⟨⟨after, entry, synced, kept, -⟩, clocked⟩ := held
        exact fun _ rely ready => ⟨(receiver.clocked _).rely rely ready clocked, after, receiver.stable entry rely ready,
          synced, keeps.trans kept⟩
    | skipped now => exact fun _ rely ready => ⟨⟨producer, later, receiver.visitEnds_stable held rely ready, keeps⟩, nofun⟩
    | found message => exact fun _ rely ready => ⟨⟨producer, later, receiver.visitEnds_stable held rely ready, keeps⟩, nofun⟩
    | failed error => exact held.reached.elim fun _ ⟨_, _, impossible, _⟩ => impossible.elim
  · cases scanned with
    | inl now =>
        obtain ⟨-, later, entry, synced, keeps⟩ := held
        refine receiver.readRx_bind entry fun current _ _ entry =>
          receiver.bind (receiver.whenFlush reliable _ entry synced) fun _ current held => ?_
        obtain ⟨after, entry, synced, flushed⟩ := held
        exact receiver.received_done entry synced (keeps.trans flushed) nofun nofun
    | inr visit =>
        obtain ⟨⟨producer, later, ⟨⟨after, entry, synced, visited, next⟩, clocked⟩, keeps⟩, stops⟩ := held
        cases visit with
        | nothing now => exact absurd rfl (stops now)
        | skipped now =>
            obtain ⟨message, reading, same, overdue, rfl, shows, skips⟩ := visited
            rw [keeps.readMessageSequences] at shows
            refine receiver.received_done entry synced ⟨message, reading, same, overdue, shows, keeps.skips skips⟩ nofun
              fun other again => ?_
            cases again
            exact ⟨sized, clocked⟩
        | found message =>
            obtain ⟨rfl, shows, payload, delivers⟩ := visited
            rw [keeps.readMessageSequences] at shows
            refine receiver.received_done entry synced ⟨shows, payload, keeps.delivers delivers⟩ (fun other same => ?_) nofun
            cases same
            exact next message rfl
        | failed error => exact visited.elim

omit reliable in
theorem beginReceive {fixed : Option UInt32} (sized : marks.sized fixed) (reportLag : Bool)
    (entry : At marks client consumer token view state) (synced : Synced setup view) :
    Safe contract (fun received => ReceiveEnds setup marks client consumer token
        (fun after _ => view.Keeps after ∧ ∀ message, received ≠ .message message) received)
      (beginReceive client consumer token fixed reportLag) state := by
  refine receiver.hasConsumer_bind entry fun current entry => ?_
  rw [if_pos rfl]
  refine receiver.bind (receiver.setClient (fun _ later => view.Keeps later) .trivial entry trivial
    (fun _ _ => rfl) fun current _ entry _ => ⟨⟨rfl, rfl, rfl, rfl, rfl, rfl, rfl⟩, ⟨rfl, rfl, rfl, rfl, rfl, rfl⟩,
      entry.facts.seen, entry.facts.lent, entry.facts.told⟩) fun noPending current held => ?_
  obtain ⟨⟨later, entry, quiet, keeps⟩, -⟩ := held
  refine receiver.done entry fun _ entry => ⟨⟨later, entry, quiet.synced synced, ⟨keeps, nofun⟩, nofun⟩,
    fun receiving again => ?_⟩
  cases again
  exact ⟨sized, nofun⟩

theorem beginReceiveChecked {fixed : Option UInt32} (sized : marks.sized fixed)
    (entry : At marks client consumer token view state) (synced : Synced setup view) :
    Safe contract (fun received => ReceiveEnds setup marks client consumer token
        (fun after _ => view.Keeps after ∧ ∀ message, received ≠ .message message) received)
      (beginReceiveChecked setup client consumer token fixed) state := by
  refine receiver.hasConsumer_bind entry fun current entry => ?_
  simp only [if_true, reliable, Bool.false_eq_true, if_false]
  exact receiver.beginReceive sized false entry synced

/-- A batch flushes only while it has lent nothing. -/
theorem whenFlushLends {condition : Bool} (out : List (Message n)) (empty : condition = true → out = [])
    (entry : At marks client consumer token view state) (synced : Synced setup view)
    (lends : marks.strict → view.Lends out) :
    Safe contract (fun _ => Follows setup marks client consumer token fun later => marks.strict → later.Lends out)
      (.when condition (SharedHybridMpsc.flushProgress setup client consumer token)) state := by
  unfold Prog.when
  split
  · rename_i flushes
    cases empty flushes
    exact Safe.weaken (receiver.flushProgress reliable entry synced) fun _ _ _ held =>
      ⟨_, held, synced.flush (List.finRange n), fun strict => (lends strict).keeps (view.keeps_flush _)⟩
  · exact receiver.done entry fun _ entry => ⟨view, entry, synced, lends⟩

/-- A batch that has read the clock at most once lends these messages. -/
def Gathers (setup : Setup n m K) (marks : Landmarks n m K) (client : K) (consumer : Fin m) (token : Nat)
    (carried : Option Nat × List (Message n)) (state : State n m K) : Prop :=
  Follows setup marks client consumer token (fun view => marks.strict → view.Lends carried.2) state ∧
    Clocked carried.1 state

omit reliable in
theorem gathers_stable (carried : Option Nat × List (Message n)) {before after : State n m K}
    (held : Gathers setup marks client consumer token carried before) (rely : contract.rely before after)
    (ready : contract.Ready after) : Gathers setup marks client consumer token carried after :=
  ⟨receiver.follows_stable held.1 rely ready, (receiver.clocked _).rely rely ready held.2⟩

/-- One round of the ordered batch loop moves the cursor by one frame. -/
theorem collectOrderedRound (ordered : setup.mode.ordered = true) (sized : marks.sized none) (producer : Fin n)
    (cap : Nat) (noPending : Bool) (carried : Option Nat × List (Message n))
    (entry : Gathers setup marks client consumer token carried state) :
    Safe contract (fun result => Gathers setup marks client consumer token (result.elim id id))
      (collectOrderedRound setup client consumer token producer cap noPending carried) state := by
  have stops {current : State n m K} (held : Gathers setup marks client consumer token carried current) :
      Safe contract (fun result => Gathers setup marks client consumer token (result.elim id id))
        (.ret (.inr carried) : Prog (State n m K) ((Option Nat × List (Message n)) ⊕ (Option Nat × List (Message n))))
        current :=
    fun _ rely ready => receiver.gathers_stable _ held rely ready
  obtain ⟨⟨view, entry, synced, lends⟩, clocked⟩ := entry
  unfold SharedHybridMpsc.collectOrderedRound
  split
  · refine receiver.readRx_bind entry fun current rely ready entry => ?_
    have clocked := (receiver.clocked _).rely rely ready clocked
    have looks := receiver.lookNext producer entry synced sized
    simp only [Rx.target, ordered, if_true] at looks
    refine receiver.bind (looks.lasting (receiver.clocked _) clocked) fun read current held => ?_
    obtain ⟨⟨entry, looked⟩, clocked⟩ := held
    cases read with
    | none => exact stops ⟨⟨view, entry, synced, lends⟩, clocked⟩
    | some message =>
    obtain ⟨looked, shows⟩ := looked message rfl
    have own := looked.producerId
    subst own
    have next : message.sequence = view.rx.target setup message.producerId := by
      rw [Rx.target, if_pos ordered]
      exact looked.sequence
    refine receiver.bind ((receiver.isExpired message entry clocked).lasting (receiver.shows _ _) shows)
      fun verdict current held => ?_
    obtain ⟨⟨⟨entry, clocked⟩, judged⟩, shows⟩ := held
    obtain ⟨expired, now⟩ := verdict
    dsimp only at clocked ⊢
    split
    · rename_i late
      obtain ⟨reading, same, overdue⟩ := judged.mp late
      dsimp only at same
      subst same
      refine receiver.bind ((receiver.consumeExpired message entry shows (fun _ => next)
        (fun strict => (lends strict).told) overdue (clocked reading rfl)).lasting (receiver.clocked _) clocked)
        fun _ current held => ?_
      obtain ⟨⟨later, entry, quiet, skips⟩, clocked⟩ := held
      refine receiver.bind ((receiver.whenFlushLends reliable carried.2 (fun flushes => ?_) entry
        (quiet.synced (synced.advance looked.moves)) fun strict => (lends strict).skips skips quiet.cursor).lasting
        (receiver.clocked _) clocked) fun _ current held => ?_
      · simp only [Bool.and_eq_true, List.isEmpty_iff] at flushes
        exact flushes.1
      · exact fun _ rely ready => receiver.gathers_stable (some reading, carried.2) held rely ready
    · have behind : (view.cursor message.producerId).position ≤ message.position := by
        rw [looked.position]
        exact synced.flushed _ ▸ synced.behind _
      refine receiver.bind ((receiver.receive message id entry shows behind fun strict => (lends strict).told _).lasting
        (receiver.clocked _) clocked) fun _ current held => ?_
      obtain ⟨⟨⟨later, entry, quiet, payload, passes, held, -⟩, shows⟩, clocked⟩ := held
      rw [← quiet.readMessageSequences] at shows
      have moves : later.rx.readPositions message.producerId < message.nextPosition := by
        rw [quiet.readPositions]
        exact looked.moves
      have next : message.sequence = later.rx.target setup message.producerId := by
        rw [next, Rx.target, Rx.target, quiet.expectedSequence, quiet.nextSequences]
      refine receiver.bind ((receiver.consume message entry shows fun _ => next).lasting (receiver.clocked _) clocked)
        fun _ current known => ?_
      refine fun _ rely ready => receiver.gathers_stable (now, carried.2 ++ [message])
        ⟨⟨_, known.1, (quiet.synced synced).advance moves, fun strict => ⟨?_, ?_, fun other member => ?_⟩⟩, known.2⟩
        rely ready
      · have counts := (Rx.advance_members setup message later.rx).2.1
        have moved : view.Passes message.producerId (.delivered message payload)
            (later.setRx (Rx.advance setup message)) := ⟨passes.passed, passes.registeredAt⟩
        refine (lends strict).told.passes moved ?_
        rw [RxView.setRx_rx, counts, quiet.readMessageSequences]
      · exact held.trans (congrArg (· ++ [message]) (lends strict).held)
      · rw [RxView.setRx_cursor, quiet.cursor]
        rcases List.mem_append.mp member with old | new
        · exact (lends strict).pinned other old
        · rw [List.mem_singleton.mp new]
          exact behind
  · exact stops ⟨⟨view, entry, synced, lends⟩, clocked⟩

theorem collectOrdered (ordered : setup.mode.ordered = true) (sized : marks.sized none) (producer : Fin n) (cap : Nat)
    (noPending : Bool) (now : Option Nat) (entry : Gathers setup marks client consumer token (now, []) state) :
    Safe contract (Gathers setup marks client consumer token)
      (collectOrdered setup client consumer token producer cap noPending now) state := by
  obtain ⟨⟨view, entry, synced, lends⟩, clocked⟩ := entry
  refine receiver.readRx_bind entry fun current rely ready entry => ?_
  have clocked := (receiver.clocked _).rely rely ready clocked
  refine receiver.bind (Safe.repeatUntil receiver.lawful
    (I := Gathers setup marks client consumer token) (S := Gathers setup marks client consumer token)
    (fun rely ready held => receiver.gathers_stable _ held rely ready)
    (fun carried current held => Safe.weaken
      (receiver.collectOrderedRound reliable ordered sized producer cap noPending carried held) fun result _ _ held => ?_)
    (fun rely ready held => receiver.gathers_stable _ held rely ready) ⟨⟨view, entry, synced, lends⟩, clocked⟩)
    fun collected current held => ?_
  · cases result <;> exact held
  · have held : Gathers setup marks client consumer token (collected.elim id id) current := by
      cases collected <;> exact held
    exact fun _ rely ready => receiver.gathers_stable _ held rely ready

end Reliable

section Fifo

/-- Inside the FIFO batch loop the members keep the cursor of the entry, and the shared words of the ring have not
passed the local position. -/
structure Lags (producer : Fin n) (entry : RxView n m) (position : Nat) (view : RxView n m) : Prop where
  readPositions : view.rx.readPositions = entry.rx.readPositions
  nextSequences : view.rx.nextSequences = entry.rx.nextSequences
  readMessageSequences : view.rx.readMessageSequences = entry.rx.readMessageSequences
  expectedSequence : view.rx.expectedSequence = entry.rx.expectedSequence
  others : ∀ other, other ≠ producer → view.rx.flushedPositions other = entry.rx.flushedPositions other ∧
    view.cursor other = entry.cursor other
  flushed : view.rx.flushedPositions producer = (view.cursor producer).position
  behind : (view.cursor producer).position ≤ position

/-- A prefix of expired frames may already be published, but not the last frame. -/
structure Collects (producer : Fin n) (entry : RxView n m) (collecting : Collecting n) (view : RxView n m) : Prop
    extends Lags producer entry collecting.position view where
  unmoved : collecting.advanced = 0 → collecting.position = entry.rx.readPositions producer ∧ entry.Quiet view
  moved : 0 < collecting.advanced → (view.cursor producer).position < collecting.position
  expiredPrefix : collecting.out = [] → collecting.advanced = collecting.expiredPrefix

/-- The assertion of the loop. -/
structure Collected (marks : Landmarks n m K) (client : K) (consumer : Fin m) (token : Nat) (producer : Fin n)
    (bound : Nat) (entry : RxView n m) (collecting : Collecting n) (state : State n m K) : Prop where
  known : ∃ view, At marks client consumer token view state ∧ Collects producer entry collecting view ∧
    (marks.strict → collecting.Lends producer entry view)
  places : ∀ other, marks.place state other (collecting.positions producer entry other)
    ((collecting.turns producer entry).counts other)
  aligned : marks.aligned state (collecting.turns producer entry)
  seen : marks.seen state producer bound
  clocked : Clocked collecting.now state

variable {producer : Fin n} {entry : RxView n m} {collecting : Collecting n} {bound : Nat}

omit receiver [DecidableEq K] in
theorem Lags.quiet {position : Nat} {later : RxView n m} (lags : Lags producer entry position view)
    (quiet : view.Quiet later) : Lags producer entry position later where
  readPositions := quiet.readPositions.trans lags.readPositions
  nextSequences := quiet.nextSequences.trans lags.nextSequences
  readMessageSequences := quiet.readMessageSequences.trans lags.readMessageSequences
  expectedSequence := quiet.expectedSequence.trans lags.expectedSequence
  others other apart := by
    rw [quiet.flushedPositions, quiet.cursor]
    exact lags.others other apart
  flushed := by
    rw [quiet.flushedPositions, quiet.cursor]
    exact lags.flushed
  behind := by
    rw [quiet.cursor]
    exact lags.behind

omit receiver [DecidableEq K] in
/-- One more frame. -/
theorem Lags.next {later : Collecting n} (lags : Lags producer entry collecting.position view)
    (further : collecting.position < later.position) (advanced : 0 < later.advanced)
    (expiredPrefix : later.out = [] → later.advanced = later.expiredPrefix) : Collects producer entry later view where
  toLags := {lags with behind := lags.behind.trans further.le}
  unmoved none := absurd none (by omega)
  moved _ := lags.behind.trans_lt further
  expiredPrefix := expiredPrefix

theorem collected_stable {before after : State n m K}
    (held : Collected marks client consumer token producer bound entry collecting before)
    (rely : contract.rely before after) (ready : contract.Ready after) :
    Collected marks client consumer token producer bound entry collecting after := by
  obtain ⟨⟨view, known, collects⟩, places, aligned, seen, clocked⟩ := held
  exact ⟨⟨view, receiver.stable known rely ready, collects⟩,
    (Lasting.all fun _ => receiver.place _ _ _).rely rely ready places, (receiver.aligned _).rely rely ready aligned,
    (receiver.seen _ _).rely rely ready seen, (receiver.clocked _).rely rely ready clocked⟩

theorem publishFifoPrefixProgress {position count sequence : Nat} (known : At marks client consumer token view state)
    (lags : Lags producer entry position view) (place : marks.place state producer position count) :
    Safe contract (fun _ current => ∃ later, At marks client consumer token later current ∧
        Lags producer entry position later ∧ later.client.told = view.client.told ∧
        later.client.held = view.client.held)
      (publishFifoPrefixProgress client consumer producer position sequence count) state := by
  have safe := receiver.toReceiverContract.publishFifoPrefixProgress producer position sequence count
    ((receiver.place producer _ _).and (receiver.place producer _ _)) (receiver.publishes _ fun _ => lags.behind)
    known.receives ⟨known.facts.shared producer, place⟩
  refine Safe.weaken ((safe.lasting (receiver.facts view) known.facts).lasting (receiver.place _ _ _) place)
    fun _ current _ held => ?_
  obtain ⟨⟨receives, facts⟩, place⟩ := held
  refine ⟨_, ⟨receives, facts.seen, facts.read, fun other => ?_, facts.aligned, facts.lent, facts.told⟩,
    ⟨lags.readPositions, lags.nextSequences, lags.readMessageSequences, lags.expectedSequence, fun other apart => ?_,
      by simp, by simp⟩,
    rfl, rfl⟩
  · by_cases same : other = producer
    · subst same
      simpa using place
    · simpa [same] using facts.shared other
  · simpa [apart] using lags.others other apart

/-- What the loop knows of the state apart from the own words. -/
theorem loopLasts (collecting : Collecting n) (producer : Fin n) (entry : RxView n m) (bound : Nat) :
    Lasting contract fun state => (∀ other, marks.place state other (collecting.positions producer entry other)
        ((collecting.turns producer entry).counts other)) ∧ marks.aligned state (collecting.turns producer entry) ∧
      marks.seen state producer bound :=
  (Lasting.all fun _ => receiver.place _ _ _).and ((receiver.aligned _).and (receiver.seen _ _))

theorem collectFifoRound (fifo : setup.mode.ordered = false) (sized : marks.sized none) (cap : Nat) (noPending : Bool)
    (synced : Synced setup entry) (held : Collected marks client consumer token producer bound entry collecting state) :
    Safe contract (fun result => Collected marks client consumer token producer bound entry (result.elim id id))
      (collectFifoRound setup client consumer producer cap bound (entry.rx.readMessageSequences producer) noPending
        collecting) state := by
  have stops {current : State n m K}
      (held : Collected marks client consumer token producer bound entry collecting current) :
      Safe contract (fun result => Collected marks client consumer token producer bound entry (result.elim id id))
        (.ret (.inr collecting) : Prog (State n m K) (Collecting n ⊕ Collecting n)) current :=
    fun _ rely ready => receiver.collected_stable held rely ready
  obtain ⟨⟨view, known, collects, lends⟩, places, aligned, seen, clocked⟩ := held
  unfold SharedHybridMpsc.collectFifoRound
  split
  · have behind (other : Fin n) : (view.cursor other).position ≤ collecting.positions producer entry other := by
      by_cases own : other = producer
      · subst own
        simpa [Collecting.positions] using collects.behind
      · rw [(collects.others other own).2]
        simpa [Collecting.positions, own] using synced.flushed other ▸ synced.behind other
    have looks := receiver.look producer _ _ known behind places aligned seen sized
    simp only [Collecting.positions, Collecting.turns, Turns.target, fifo, Bool.false_eq_true, if_false,
      Function.update_self] at looks
    refine receiver.bind ((looks.lasting (receiver.loopLasts collecting producer entry bound)
      ⟨places, aligned, seen⟩).lasting (receiver.clocked _) clocked) fun read current held => ?_
    obtain ⟨⟨⟨known, looked⟩, places, aligned, seen⟩, clocked⟩ := held
    cases read with
    | none => exact stops ⟨⟨view, known, collects, lends⟩, places, aligned, seen, clocked⟩
    | some message =>
    obtain ⟨looked, shows⟩ := looked message rfl
    have further : collecting.position < message.nextPosition := looked.moves
    have own := looked.producerId
    subst own
    refine receiver.bind (((receiver.isExpired message known clocked).lasting
      (receiver.loopLasts collecting message.producerId entry bound) ⟨places, aligned, seen⟩).lasting
      (receiver.shows _ _) shows) fun verdict current held => ?_
    obtain ⟨⟨⟨⟨known, clocked⟩, judged⟩, loop⟩, shows⟩ := held
    obtain ⟨expired, now⟩ := verdict
    dsimp only at clocked ⊢
    have passes {later : RxView n m} {next : Collecting n} {current : State n m K}
        (known : At marks client consumer token later current)
        (lags : Lags message.producerId entry collecting.position later)
        (loop : (∀ other, marks.place current other (collecting.positions message.producerId entry other)
          ((collecting.turns message.producerId entry).counts other)) ∧
          marks.aligned current (collecting.turns message.producerId entry) ∧
          marks.seen current message.producerId bound)
        (shows : marks.shows current message (entry.rx.readMessageSequences message.producerId + collecting.advanced))
        (clocked : Clocked next.now current) (position : next.position = message.nextPosition)
        (advanced : next.advanced = collecting.advanced + 1) (sequence : next.sequence = collecting.sequence + 1)
        (expiredPrefix : next.out = [] → next.advanced = next.expiredPrefix)
        (lends : marks.strict → next.Lends message.producerId entry later) :
        Safe contract (fun result => Collected marks client consumer token message.producerId bound entry
          (result.elim id id)) (.ret (.inl next) : Prog (State n m K) (Collecting n ⊕ Collecting n)) current := by
      have collects : Collects message.producerId entry next later :=
        lags.next (by rw [position]; exact further) (by omega) expiredPrefix
      have turns : next.turns message.producerId entry = _ :=
        Collecting.turns_next fifo looked.sequence advanced sequence
      refine fun last rely ready => ?_
      obtain ⟨places, aligned, seen⟩ :=
        (receiver.loopLasts collecting message.producerId entry bound).rely rely ready loop
      have shows : marks.shows last message ((collecting.turns message.producerId entry).counts message.producerId) := by
        simpa [Collecting.turns] using (receiver.shows _ _).rely rely ready shows
      have turn := receiver.turn ready shows aligned fun _ => by
        simpa [Turns.target, Collecting.turns, fifo] using looked.sequence
      refine ⟨⟨later, receiver.stable known rely ready, collects, lends⟩, fun other => ?_, turns ▸ turn.aligned, seen,
        (receiver.clocked _).rely rely ready clocked⟩
      have reaches := turn.reaches
      have places := places other
      by_cases same : other = message.producerId
      · subst same
        simpa [Collecting.positions, Collecting.turns, position, advanced, Nat.add_assoc] using reaches
      · simpa [Collecting.positions, Collecting.turns, same] using places
    split
    · rename_i late
      obtain ⟨reading, same, overdue⟩ := judged.mp late
      dsimp only at same
      subst same
      refine receiver.bind (((receiver.expire message known shows overdue (clocked reading rfl)
        fun strict => (lends strict).count).lasting
        (receiver.loopLasts collecting message.producerId entry bound) loop).lasting (receiver.clocked _) clocked)
        fun _ current held => ?_
      obtain ⟨⟨⟨⟨later, known, quiet, passed, held⟩, shows, -⟩, loop⟩, clocked⟩ := held
      refine passes known (collects.toLags.quiet quiet) loop shows clocked rfl rfl rfl (fun none => ?_)
        fun strict => ⟨(lends strict).passes passed rfl, held.trans (lends strict).held, ?_⟩
      · have prefixed := collects.expiredPrefix none
        dsimp only at none ⊢
        rw [none, List.isEmpty_nil, if_pos rfl, prefixed]
      · rw [quiet.cursor]
        exact (lends strict).pinned
    · refine receiver.bind (P := fun _ current => (∃ later, At marks client consumer token later current ∧
        Lags message.producerId entry collecting.position later ∧ (marks.strict → collecting.Lends message.producerId
          entry later)) ∧ (((∀ other, marks.place current other (collecting.positions message.producerId entry other)
          ((collecting.turns message.producerId entry).counts other)) ∧
          marks.aligned current (collecting.turns message.producerId entry) ∧
          marks.seen current message.producerId bound) ∧ marks.shows current message
            (entry.rx.readMessageSequences message.producerId + collecting.advanced)) ∧ Clocked now current) ?_
        fun _ current held => ?_
      · refine Safe.lasting ?_ (((receiver.loopLasts collecting message.producerId entry bound).and
          (receiver.shows _ _)).and (receiver.clocked _)) ⟨⟨loop, shows⟩, clocked⟩
        unfold Prog.when
        split
        · rename_i condition
          simp only [Bool.and_eq_true, List.isEmpty_iff] at condition
          have none := condition.1.1
          have place := loop.1 message.producerId
          simp only [Collecting.positions, Collecting.turns, Function.update_self] at place
          rw [← collects.expiredPrefix none]
          refine Safe.weaken (receiver.publishFifoPrefixProgress known collects.toLags place) fun _ _ _ held => ?_
          obtain ⟨later, known, lags, told, held⟩ := held
          refine ⟨later, known, lags, fun strict => ⟨fun other => ?_, held.trans (lends strict).held, fun other lent => ?_⟩⟩
          · rw [told]
            exact (lends strict).told other
          · rw [none] at lent
            exact absurd lent List.not_mem_nil
        · exact fun _ rely ready => ⟨view, receiver.stable known rely ready, collects.toLags, lends⟩
      · obtain ⟨⟨later, known, lags, lends⟩, ⟨loop, shows⟩, clocked⟩ := held
        have behind : (later.cursor message.producerId).position ≤ message.position :=
          looked.position ▸ lags.behind
        refine receiver.bind (((receiver.receive message id known shows behind fun strict => (lends strict).count).lasting
          (receiver.loopLasts collecting message.producerId entry bound) loop).lasting (receiver.clocked _) clocked)
          fun _ current held => ?_
        obtain ⟨⟨⟨⟨last, known, quiet, payload, passed, held, -⟩, shows⟩, loop⟩, clocked⟩ := held
        refine passes known (lags.quiet quiet) loop shows clocked rfl rfl rfl (fun none => absurd none (by simp))
          fun strict => ⟨(lends strict).passes passed rfl, ?_, fun other member => ?_⟩
        · rw [held, (lends strict).held]
        · rw [quiet.cursor]
          rcases List.mem_append.mp member with old | new
          · exact (lends strict).pinned other old
          · rw [List.mem_singleton.mp new]
            exact behind
  · exact stops ⟨⟨view, known, collects, lends⟩, places, aligned, seen, clocked⟩

/-- The private cursor takes over the local variables of the loop. -/
theorem collectFifo (fifo : setup.mode.ordered = false) (sized : marks.sized none) (producer : Fin n) (cap : Nat)
    (noPending : Bool) (now : Option Nat) (held : Gathers setup marks client consumer token (now, []) state) :
    Safe contract (Gathers setup marks client consumer token)
      (collectFifo setup client consumer producer cap noPending now) state := by
  obtain ⟨⟨entry, known, synced, lends⟩, clocked⟩ := held
  refine receiver.readRx_bind known fun current rely ready known => ?_
  have clocked := (receiver.clocked _).rely rely ready clocked
  have behind : (entry.cursor producer).position ≤ entry.rx.readPositions producer :=
    synced.flushed producer ▸ synced.behind producer
  have lags : Lags producer entry (entry.rx.readPositions producer) entry :=
    ⟨rfl, rfl, rfl, rfl, fun _ _ => ⟨rfl, rfl⟩, synced.flushed producer, behind⟩
  have begun : Collected marks client consumer token producer (entry.rx.cachedVisiblePos producer) entry
      ⟨entry.rx.readPositions producer, entry.rx.nextSequences producer, 0, 0, now, []⟩ current := by
    refine ⟨⟨entry, known, ⟨lags, fun _ => ⟨rfl, .refl entry⟩, nofun, fun _ => rfl⟩, fun strict => ⟨fun other => ?_,
      (lends strict).held, nofun⟩⟩, fun other => ?_, ?_, known.facts.seen producer, clocked⟩
    · simpa [Collecting.turns] using (lends strict).told other
    · simpa [Collecting.positions, Collecting.turns] using known.facts.read other
    · simpa [Collecting.turns, Rx.turns] using known.facts.aligned
  refine receiver.bind (P := fun collected => Collected marks client consumer token producer
      (entry.rx.cachedVisiblePos producer) entry (collected.elim id id))
    (Safe.weaken (Safe.repeatUntil receiver.lawful
      (I := Collected marks client consumer token producer (entry.rx.cachedVisiblePos producer) entry)
      (S := Collected marks client consumer token producer (entry.rx.cachedVisiblePos producer) entry)
      (fun rely ready held => receiver.collected_stable held rely ready)
      (fun collecting current held => Safe.weaken (receiver.collectFifoRound fifo sized cap noPending synced held)
        fun result _ _ held => ?_)
      (fun rely ready held => receiver.collected_stable held rely ready) begun)
      fun result _ _ held => ?_) fun collected current held => ?_
  · cases result <;> exact held
  · cases result <;> exact held
  · obtain ⟨⟨view, known, collects, lends⟩, places, aligned, seen, clocked⟩ := held
    dsimp only
    generalize collected.elim id id = result at collects lends places aligned clocked ⊢
    have ends {later : RxView n m} {current : State n m K} (known : At marks client consumer token later current)
        (synced : Synced setup later) (lends : marks.strict → later.Lends result.out)
        (clocked : Clocked result.now current) :
        Safe contract (Gathers setup marks client consumer token)
          (.ret (result.now, result.out) : Prog (State n m K) (Option Nat × List (Message n))) current :=
      fun _ rely ready => receiver.gathers_stable (result.now, result.out)
        ⟨⟨later, known, synced, lends⟩, clocked⟩ rely ready
    rcases Nat.eq_zero_or_pos result.advanced with none | some
    · rw [none]
      refine ends known ((collects.unmoved none).2.synced synced) (fun strict => ⟨fun other => ?_, (lends strict).held,
        (lends strict).pinned⟩) clocked
      rw [(lends strict).told other, collects.readMessageSequences]
      simp [Collecting.turns, none]
    · simp only [Prog.when, some, if_true]
      have safe := receiver.toReceiverContract.updateRx (fun rx => {rx with
        readPositions := Function.update rx.readPositions producer result.position
        nextSequences := Function.update rx.nextSequences producer result.sequence
        readMessageSequences := Function.update rx.readMessageSequences producer
          (rx.readMessageSequences producer + result.advanced)}) known.receives
      refine receiver.bind (((safe.lasting (receiver.facts view) known.facts).lasting
        (receiver.loopLasts result producer entry _) ⟨places, aligned, seen⟩).lasting (receiver.clocked _) clocked)
        fun _ current held => ?_
      obtain ⟨⟨⟨receives, facts⟩, places, aligned, -⟩, clocked⟩ := held
      refine ends ⟨receives, facts.seen, fun other => ?_, facts.shared, ?_, facts.lent, facts.told⟩
        ⟨fun other => ?_, fun other => ?_, fun other same => ?_, fun _ other same => ?_,
          fun ordered => absurd (fifo.symm.trans ordered) (by decide)⟩
        (fun strict => ⟨fun other => ?_, (lends strict).held, (lends strict).pinned⟩) clocked
      · have place := places other
        rw [RxView.setRx_rx]
        dsimp only
        rw [collects.readPositions, collects.readMessageSequences]
        exact place
      · rw [RxView.setRx_rx, Rx.turns]
        dsimp only
        rw [collects.nextSequences, collects.readMessageSequences, collects.expectedSequence]
        exact aligned
      · by_cases own : other = producer
        · subst own
          exact collects.flushed
        · obtain ⟨flushed, cursor⟩ := collects.others other own
          rw [RxView.setRx_rx, RxView.setRx_cursor, flushed, cursor]
          exact synced.flushed other
      · by_cases own : other = producer
        · subst own
          simp only [RxView.setRx_rx, Function.update_self]
          rw [collects.flushed]
          exact (collects.moved some).le
        · simp only [RxView.setRx_rx, Function.update_of_ne own]
          rw [collects.readPositions, (collects.others other own).1]
          exact synced.behind other
      · have moved := collects.moved some
        by_cases own : other = producer
        · subst own
          simp only [RxView.setRx_rx, Function.update_self] at same
          rw [same, collects.flushed] at moved
          exact absurd moved (lt_irrefl _)
        · obtain ⟨flushed, cursor⟩ := collects.others other own
          simp only [RxView.setRx_rx, RxView.setRx_cursor, Function.update_of_ne own] at same ⊢
          rw [collects.readPositions, flushed] at same
          rw [cursor, collects.readMessageSequences]
          exact synced.counts other same
      · have moved := collects.moved some
        by_cases own : other = producer
        · subst own
          simp only [RxView.setRx_rx, Function.update_self] at same
          rw [same, collects.flushed] at moved
          exact absurd moved (lt_irrefl _)
        · obtain ⟨flushed, cursor⟩ := collects.others other own
          simp only [RxView.setRx_rx, RxView.setRx_cursor, Function.update_of_ne own] at same ⊢
          rw [collects.readPositions, flushed] at same
          rw [cursor, collects.nextSequences]
          exact synced.sequences fifo other same
      · rw [RxView.setRx_rx]
        dsimp only
        rw [collects.readMessageSequences]
        exact (lends strict).told other

end Fifo

section Calls

variable (reliable : setup.mode.dropOldest = false)

include reliable

theorem collectRing (sized : marks.sized none) (cap : Nat) (noPending : Bool) (now : Option Nat) (producer : Fin n)
    (held : Gathers setup marks client consumer token (now, []) state) :
    Safe contract (fun result current => result.elim
        (fun now => Gathers setup marks client consumer token (now, []) current)
        fun out => Follows setup marks client consumer token (fun view => marks.strict → view.Lends out) current)
      (collectRing setup client consumer token cap noPending now producer) state := by
  obtain ⟨⟨view, known, synced, lends⟩, clocked⟩ := held
  refine receiver.bind ((receiver.refreshVisible producer known).lasting (receiver.clocked now) clocked)
    fun readable current held => ?_
  obtain ⟨⟨view, known, quiet, keeps, -⟩, clocked⟩ := held
  have held : Gathers setup marks client consumer token (now, []) current :=
    ⟨⟨view, known, quiet.synced synced, fun strict => (lends strict).keeps keeps⟩, clocked⟩
  split
  · refine receiver.bind (P := Gathers setup marks client consumer token) ?_ fun collected current held => ?_
    · split
      · rename_i ordered
        exact receiver.collectOrdered reliable ordered sized producer cap noPending now held
      · rename_i fifo
        exact receiver.collectFifo (by simpa using fifo) sized producer cap noPending now held
    · obtain ⟨now, out⟩ := collected
      dsimp only
      split
      · rename_i none
        cases List.isEmpty_iff.mp none
        exact fun _ rely ready => receiver.gathers_stable _ held rely ready
      · obtain ⟨⟨view, known, synced, lends⟩, -⟩ := held
        refine receiver.bind (receiver.hits ((producer.val + 1) % n) known) fun _ current held => ?_
        obtain ⟨later, known, quiet, told, held⟩ := held
        exact receiver.done known fun _ known => ⟨later, known, quiet.synced synced, fun strict =>
          (lends strict).quiet quiet told held⟩
  · exact fun _ rely ready => receiver.gathers_stable _ held rely ready

theorem tryRecvRun (sized : marks.sized none) (cap : Nat)
    (held : Follows setup marks client consumer token (fun view => marks.strict → view.Lends []) state) :
    Safe contract (fun out => Follows setup marks client consumer token fun view => marks.strict → view.Lends out)
      (tryRecvRun setup client consumer token cap) state := by
  obtain ⟨view, known, synced, lends⟩ := held
  refine receiver.hasConsumer_bind known fun current known => ?_
  split
  · exact receiver.done known fun _ known => ⟨view, known, synced, lends⟩
  refine receiver.bind (receiver.setClient (fun _ later => later.client.told = view.client.told ∧
    later.client.held = view.client.held) .trivial known trivial (fun _ _ => rfl) fun current _ known _ =>
      ⟨⟨rfl, rfl, rfl, rfl, rfl, rfl, rfl⟩, ⟨rfl, rfl⟩, known.facts.seen, known.facts.lent, known.facts.told⟩)
    fun rx current held => ?_
  obtain ⟨⟨later, known, quiet, told, held⟩, -⟩ := held
  have begun : Gathers setup marks client consumer token (none, []) current :=
    ⟨⟨later, known, quiet.synced synced, fun strict => (lends strict).quiet quiet told held⟩, fun _ same => by cases same⟩
  refine receiver.bind (P := fun scanned current => scanned.elim
      (fun now => Gathers setup marks client consumer token (now, []) current)
      fun out => Follows setup marks client consumer token (fun view => marks.strict → view.Lends out) current)
    (Safe.weaken (Safe.foldUntil receiver.lawful
      (I := fun _ now => Gathers setup marks client consumer token (now, []))
      (S := fun out => Follows setup marks client consumer token fun view => marks.strict → view.Lends out)
      (fun rely ready held => receiver.gathers_stable _ held rely ready)
      (fun producer rest now current held => Safe.weaken (receiver.collectRing reliable sized cap _ now producer held)
        fun result _ _ held => ?_)
      (fun rely ready held => receiver.follows_stable held rely ready) begun)
      fun result _ _ held => ?_) fun scanned current held => ?_
  · cases result <;> exact held
  · cases result <;> exact held
  · cases scanned with
    | inr out => exact fun _ rely ready => receiver.follows_stable held rely ready
    | inl now =>
        obtain ⟨⟨view, known, synced, lends⟩, -⟩ := held
        refine receiver.readRx_bind known fun current _ _ known =>
          receiver.bind (receiver.whenFlushLends reliable _ (fun _ => rfl) known synced lends) fun _ current held => ?_
        exact fun _ rely ready => receiver.follows_stable held rely ready

/-- A released message shows the next frame of its ring. -/
theorem release {message : Message n} (known : At marks client consumer token view state)
    (shows : marks.shows state message (view.rx.readMessageSequences message.producerId))
    (next : marks.strict → message.sequence = view.rx.target setup message.producerId)
    (forward : marks.strict → (view.cursor message.producerId).position ≤ message.nextPosition) :
    Safe contract (fun _ => At marks client consumer token ((view.release setup message).returns message))
      (release setup client consumer token message) state := by
  refine Safe.settle receiver.lawful fun current rely ready => ?_
  have known := receiver.stable known rely ready
  have turn : marks.Turn setup message view.rx.turns _ := receiver.turn ready ((receiver.shows _ _).rely rely ready shows)
    known.facts.aligned next
  have safe := receiver.toReceiverContract.release reliable message
    ((receiver.place message.producerId _ _).and (receiver.place message.producerId _ _))
    (receiver.publishes _ forward) known.receives ⟨known.facts.shared message.producerId, turn.reaches⟩
  refine Safe.weaken ((safe.lasting (receiver.facts view) known.facts).lasting (receiver.turns _ _) turn)
    fun _ current _ held => ?_
  obtain ⟨⟨receives, facts⟩, turn⟩ := held
  exact ⟨receives, (facts.release turn).returns message⟩

/-- The flushed rings lend nothing any more. -/
theorem flushBatch (held : Follows setup marks client consumer token
      (fun view => marks.strict → view.InStep ∧ view.Pinned) state) :
    Safe contract (fun _ => Follows setup marks client consumer token fun view => marks.strict →
      view.InStep ∧ view.Pinned) (flushBatch setup client consumer token) state := by
  obtain ⟨view, known, synced, tidy⟩ := held
  refine receiver.bind (receiver.setClient (fun _ later => later.client.told = view.client.told ∧
    later.client.held = view.client.held.filter fun message =>
      view.rx.readPositions message.producerId == view.rx.flushedPositions message.producerId) .trivial known trivial
    (fun _ _ => rfl) fun current _ known _ => ⟨⟨rfl, rfl, rfl, rfl, rfl, rfl, rfl⟩, ⟨rfl, rfl⟩, known.facts.seen,
      fun message lent => known.facts.lent message (List.mem_of_mem_filter lent), known.facts.told⟩)
    fun _ current held => ?_
  obtain ⟨⟨later, known, quiet, told, held⟩, -⟩ := held
  refine Safe.weaken (receiver.flushProgress reliable known (quiet.synced synced)) fun _ _ _ known =>
    ⟨_, known, (quiet.synced synced).flush _, fun strict => ⟨(later.keeps_flush _).inStep fun producer => ?_,
      fun message lent => ?_⟩⟩
  · rw [told, quiet.readMessageSequences]
    exact (tidy strict).1 producer
  · rw [(later.keeps_flush _).held, held] at lent
    obtain ⟨member, even⟩ := List.mem_filter.mp lent
    have even : later.rx.readPositions message.producerId = later.rx.flushedPositions message.producerId := by
      rw [quiet.readPositions, quiet.flushedPositions]
      exact eq_of_beq even
    rw [later.flush_cursor _ even, quiet.cursor]
    exact (tidy strict).2 message member

end Calls

end LandmarkContract

end Programs

end Salias.SharedHybridMpsc
