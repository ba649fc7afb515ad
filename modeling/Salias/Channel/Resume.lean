import Salias.Channel.Tracking

/-
A receiver that is built afresh from the shared words of its registration goes on where the old one stopped.
-/

namespace Salias.SharedHybridMpsc

open Concurrent Salias.Frame ConsumerRegistration

variable {n m : Nat} {K : Type}

/-- A ring's cursor enters the members. -/
def Rx.load (producer : Fin n) (cursor : ConsumerSharedState) (rx : Rx n) : Rx n :=
  {rx with
    readPositions := Function.update rx.readPositions producer cursor.position
    flushedPositions := Function.update rx.flushedPositions producer cursor.position
    nextSequences := Function.update rx.nextSequences producer cursor.sequence
    readMessageSequences := Function.update rx.readMessageSequences producer cursor.messageSequence}

def RxView.load (view : RxView n m) (producer : Fin n) : RxView n m :=
  view.setRx (Rx.load producer (view.cursor producer))

/-- What the constructor makes of the own words. -/
def RxView.created (setup : Setup n m K) (view : RxView n m) : RxView n m :=
  (List.finRange n).foldl RxView.load (view.setRx fun rx =>
    {rx with expectedSequence := if setup.mode.ordered then view.expected else 0})

section Views

variable {setup : Setup n m K} {view : RxView n m}

theorem RxView.loads_shared (producers : List (Fin n)) (view : RxView n m) :
    (producers.foldl RxView.load view).cursor = view.cursor ∧
      (producers.foldl RxView.load view).expected = view.expected ∧
      (producers.foldl RxView.load view).rx.expectedSequence = view.rx.expectedSequence := by
  induction producers generalizing view with
  | nil => exact ⟨rfl, rfl, rfl⟩
  | cons producer rest ih => exact ih (view.load producer)

/-- The members of a loaded ring are those of its cursor. -/
structure RxView.Loaded (view : RxView n m) (producer : Fin n) : Prop where
  readPositions : view.rx.readPositions producer = (view.cursor producer).position
  flushedPositions : view.rx.flushedPositions producer = (view.cursor producer).position
  nextSequences : view.rx.nextSequences producer = (view.cursor producer).sequence
  readMessageSequences : view.rx.readMessageSequences producer = (view.cursor producer).messageSequence

theorem RxView.loaded_load (view : RxView n m) {producer : Fin n} (other : Fin n)
    (loaded : other = producer ∨ view.Loaded other) : (view.load producer).Loaded other := by
  by_cases same : other = producer
  · subst same
    constructor <;> simp [RxView.load, Rx.load]
  · obtain ⟨read, flushed, next, counts⟩ := loaded.resolve_left same
    constructor <;> simpa [RxView.load, Rx.load, same]

theorem RxView.loaded_loads (producers : List (Fin n)) (view : RxView n m) (producer : Fin n)
    (loaded : producer ∈ producers ∨ view.Loaded producer) :
    (producers.foldl RxView.load view).Loaded producer := by
  induction producers generalizing view with
  | nil => exact loaded.resolve_left List.not_mem_nil
  | cons first rest ih =>
      refine ih (view.load first) ?_
      rcases loaded with found | loaded
      · rcases List.mem_cons.mp found with same | found
        · exact .inr (view.loaded_load producer (.inl same))
        · exact .inl found
      · exact .inr (view.loaded_load producer (.inr loaded))

theorem RxView.created_shared (setup : Setup n m K) (view : RxView n m) :
    (view.created setup).cursor = view.cursor ∧ (view.created setup).expected = view.expected ∧
      (view.created setup).rx.expectedSequence = if setup.mode.ordered then view.expected else 0 :=
  RxView.loads_shared _ _

theorem RxView.created_loaded (setup : Setup n m K) (view : RxView n m) (producer : Fin n) :
    (view.created setup).Loaded producer :=
  RxView.loaded_loads _ _ _ (.inl (List.mem_finRange producer))

theorem RxView.loads_kept (producers : List (Fin n)) (view : RxView n m) :
    (producers.foldl RxView.load view).rx.cachedVisiblePos = view.rx.cachedVisiblePos ∧
      (producers.foldl RxView.load view).client.held = view.client.held ∧
      (producers.foldl RxView.load view).client.passed = view.client.passed ∧
      (producers.foldl RxView.load view).client.registeredAt = view.client.registeredAt := by
  induction producers generalizing view with
  | nil => exact ⟨rfl, rfl, rfl, rfl⟩
  | cons producer rest ih => exact ih (view.load producer)

theorem RxView.created_kept (setup : Setup n m K) (view : RxView n m) :
    (view.created setup).rx.cachedVisiblePos = view.rx.cachedVisiblePos ∧
      (view.created setup).client.held = view.client.held ∧
      (view.created setup).client.passed = view.client.passed ∧
      (view.created setup).client.registeredAt = view.client.registeredAt :=
  RxView.loads_kept _ _

/-- The counters that the shared words of a registration hold. -/
def State.begunTurns (setup : Setup n m K) (state : State n m K) (consumer : Fin m) : Turns n where
  counts producer := (state.cursor producer consumer).messageSequence
  sequences producer := (state.cursor producer consumer).sequence
  expected := if setup.mode.ordered then state.consumerSequences consumer else 0

theorem RxView.created_turns (setup : Setup n m K) (state : State n m K) (client : K) (consumer : Fin m) :
    ((state.rxView client consumer).created setup).rx.turns = state.begunTurns setup consumer := by
  obtain ⟨cursor, -, expected⟩ := (state.rxView client consumer).created_shared setup
  have loaded := (state.rxView client consumer).created_loaded setup
  have counts : ((state.rxView client consumer).created setup).rx.readMessageSequences =
      fun producer => (state.cursor producer consumer).messageSequence := by
    funext producer
    rw [(loaded producer).readMessageSequences, cursor]
    rfl
  have sequences : ((state.rxView client consumer).created setup).rx.nextSequences =
      fun producer => (state.cursor producer consumer).sequence := by
    funext producer
    rw [(loaded producer).nextSequences, cursor]
    rfl
  rw [Rx.turns, counts, sequences, expected]
  rfl

/-- A new receiver stands at the places of its cursors. -/
theorem RxView.created_facts {marks : Landmarks n m K} {state : State n m K} {client : K} {consumer : Fin m}
    (cached : (state.client client).rx.cachedVisiblePos = fun _ => 0) (held : (state.client client).held = [])
    (passed : (state.client client).passed = fun _ => []) (seen : ∀ producer, marks.seen state producer 0)
    (starts : ∀ producer, marks.place state producer (state.cursor producer consumer).position
      (state.cursor producer consumer).messageSequence)
    (aligned : marks.aligned state (state.begunTurns setup consumer)) :
    Facts marks ((state.rxView client consumer).created setup) state := by
  obtain ⟨bounds, lent, passages, -⟩ := (state.rxView client consumer).created_kept setup
  have loaded := (state.rxView client consumer).created_loaded setup
  have cursor (producer : Fin n) : ((state.rxView client consumer).created setup).cursor producer =
      state.cursor producer consumer :=
    congrFun ((state.rxView client consumer).created_shared setup).1 producer
  refine ⟨fun producer => ?_, fun producer => ?_, fun producer => ?_, ?_, ?_, fun producer index passage found => ?_⟩
  · have bound : ((state.rxView client consumer).created setup).rx.cachedVisiblePos producer = 0 :=
      (congrFun bounds producer).trans (congrFun cached producer)
    rw [bound]
    exact seen producer
  · rw [(loaded producer).readPositions, (loaded producer).readMessageSequences, cursor]
    exact starts producer
  · rw [cursor]
    exact starts producer
  · rw [RxView.created_turns]
    exact aligned
  · have none : ((state.rxView client consumer).created setup).client.held = [] := lent.trans held
    rw [none]
    exact nofun
  · have none : ((state.rxView client consumer).created setup).client.passed producer = [] :=
      (congrFun passages producer).trans (congrFun passed producer)
    rw [none] at found
    exact absurd found (by simp)

/-- A receiver starts in agreement with its shared words. -/
theorem RxView.created_synced (setup : Setup n m K) (view : RxView n m) : Synced setup (view.created setup) where
  flushed producer := (view.created_loaded setup producer).flushedPositions
  behind producer := by
    have loaded := view.created_loaded setup producer
    rw [loaded.flushedPositions, loaded.readPositions]
  counts producer _ := (view.created_loaded setup producer).readMessageSequences.symm
  sequences _ producer _ := (view.created_loaded setup producer).nextSequences.symm
  expected ordered _ := by
    obtain ⟨-, expected, sequence⟩ := view.created_shared setup
    rw [expected, sequence, if_pos ordered]

/-- Two receivers stand at the same place: they read on at the same positions with the same counters. -/
structure Rx.SamePlace (setup : Setup n m K) (left right : Rx n) : Prop where
  readPositions : ∀ producer, left.readPositions producer = right.readPositions producer
  flushedPositions : ∀ producer, left.flushedPositions producer = right.flushedPositions producer
  readMessageSequences : ∀ producer, left.readMessageSequences producer = right.readMessageSequences producer
  nextSequences : setup.mode.ordered = false → ∀ producer, left.nextSequences producer = right.nextSequences producer
  expectedSequence : setup.mode.ordered = true → left.expectedSequence = right.expectedSequence

theorem Rx.SamePlace.target {left right : Rx n} (same : left.SamePlace setup right) (producer : Fin n) :
    left.target setup producer = right.target setup producer := by
  unfold Rx.target
  split
  · exact same.expectedSequence ‹_›
  · rename_i fifo
    exact same.nextSequences (by simpa using fifo) producer

/-- The shared words hold the whole place of a receiver that has published its progress. -/
theorem Synced.created (synced : Synced setup view)
    (published : ∀ producer, view.rx.readPositions producer = view.rx.flushedPositions producer) :
    ((view.setClient fun client => {client with rx := {}}).created setup).rx.SamePlace setup view.rx := by
  let blank := view.setClient fun client => {client with rx := {}}
  obtain ⟨cursor, expected, sequence⟩ := blank.created_shared setup
  have loaded := blank.created_loaded setup
  have same (producer : Fin n) : (blank.created setup).cursor producer = view.cursor producer := congrFun cursor producer
  refine ⟨fun producer => ?_, fun producer => ?_, fun producer => ?_, fun fifo producer => ?_, fun ordered => ?_⟩
  · rw [(loaded producer).readPositions, same, published, synced.flushed]
  · rw [(loaded producer).flushedPositions, same, synced.flushed]
  · rw [(loaded producer).readMessageSequences, same]
    exact synced.counts producer (published producer)
  · rw [(loaded producer).nextSequences, same]
    exact synced.sequences fifo producer (published producer)
  · rw [sequence, if_pos ordered]
    exact synced.expected ordered published

end Views

section Programs

variable [DecidableEq K] {setup : Setup n m K} {client : K} {consumer : Fin m} {token : Nat}
  {contract : Contract (State n m K)} {moves : State n m K → State n m K → Prop} {view : RxView n m} {state : State n m K}

namespace ReceiverContract

variable (receiver : ReceiverContract setup client contract moves)

include receiver

theorem loadCursor (producer : Fin n) (entry : Receives client consumer token (· = view) state) :
    Safe contract (fun _ => Receives client consumer token (· = view.load producer))
      (loadCursor client consumer producer) state := by
  refine Safe.load_bind receiver.lawful fun first rely _ => ?_
  have entry := entry.stable (receiver.rely rely)
  have position : first.cursor producer consumer = view.cursor producer :=
    congrArg (fun view : RxView n m => view.cursor producer) entry.holds
  refine Safe.load_bind receiver.lawful fun second rely _ => ?_
  have entry := entry.stable (receiver.rely rely)
  have sequence : second.cursor producer consumer = view.cursor producer :=
    congrArg (fun view : RxView n m => view.cursor producer) entry.holds
  refine Safe.load_bind receiver.lawful fun third rely _ => ?_
  have entry := entry.stable (receiver.rely rely)
  have count : third.cursor producer consumer = view.cursor producer :=
    congrArg (fun view : RxView n m => view.cursor producer) entry.holds
  rw [State.cursor] at position sequence count
  rw [position, sequence, count]
  exact receiver.updateRx _ entry

/-- The constructor of a registered receiver. -/
theorem createRx (entry : Receives client consumer token (· = view) state) :
    Safe contract (fun _ => Receives client consumer token (· = view.created setup))
      (createRx setup client consumer token) state := by
  have loads (producers : List (Fin n)) {view : RxView n m} {current : State n m K}
      (held : Receives client consumer token (· = view) current) :
      Safe contract (fun _ => Receives client consumer token (· = producers.foldl RxView.load view))
        (.forEach (SharedHybridMpsc.loadCursor client consumer) producers) current := by
    induction producers generalizing view current with
    | nil => exact receiver.ret held
    | cons producer rest ih => exact receiver.bind (receiver.loadCursor producer held) fun _ _ held => ih held
  refine receiver.hasConsumer_bind entry fun current held => ?_
  rw [if_pos rfl]
  cases ordered : setup.mode.ordered with
  | true =>
      refine Safe.load_bind receiver.lawful fun last rely _ => ?_
      have held := held.stable (receiver.rely rely)
      have expected : last.consumerSequences consumer = view.expected := congrArg RxView.expected held.holds
      rw [expected]
      refine receiver.bind (receiver.updateRx _ held) fun _ _ held => ?_
      rw [RxView.created, ordered]
      exact loads _ held
  | false =>
      simp only [Bool.false_eq_true, if_false, Prog.pure_eq, Prog.bind_eq, Prog.ret_bind]
      refine receiver.bind (receiver.updateRx _ held) fun _ _ held => ?_
      rw [RxView.created, ordered]
      exact loads _ held

end ReceiverContract

/-- The constructor that runs alone. -/
theorem createRx_run (valid : phase token = kActive ∧ (state.slot consumer).state = token) :
    ((createRx setup client consumer token).run state).2.rxView client consumer =
      (state.rxView client consumer).created setup := by
  have loaded (producer : Fin n) (state : State n m K) :
      ((loadCursor client consumer producer).run state).2.rxView client consumer =
        (state.rxView client consumer).load producer := by
    simp only [loadCursor, Prog.bind_eq, Prog.run_bind, Prog.run_load, updateRx, Prog.run_store, State.rxView_setRx]
    rfl
  have loads (producers : List (Fin n)) (state : State n m K) :
      ((Prog.forEach (loadCursor client consumer) producers).run state).2.rxView client consumer =
        producers.foldl RxView.load (state.rxView client consumer) := by
    induction producers generalizing state with
    | nil => rfl
    | cons producer rest ih => rw [Prog.forEach, Prog.run_bind, ih, loaded, List.foldl_cons]
  simp only [createRx, hasConsumer, Prog.bind_eq, Prog.run_bind, Prog.run_load, valid, and_self, decide_true, if_true]
  rw [loads, updateRx, Prog.run_store, State.rxView_setRx, RxView.created]
  cases setup.mode.ordered <;> rfl

/-- The message of the last single receive. -/
def RxResult.pending : RxResult n → Option (Message n)
  | .received found => found
  | _ => none

/-- The messages that the last call has handed out. -/
def RxResult.messages : RxResult n → List (Message n)
  | .received found => found.toList
  | .run messages => messages
  | _ => []

/-- The words of a receiver after a call. -/
structure Rests (setup : Setup n m K) (marks : Landmarks n m K) (last : RxResult n) (view : RxView n m) : Prop where
  next : ∀ message, last = .received (some message) → NextUp setup message view
  told : marks.strict → last.pending = none → view.InStep
  lent : marks.strict → ∀ message, last.pending = some message →
    view.client.held = [message] ∧ (view.setRx (Rx.advance setup message)).InStep
  lends : marks.strict → ∀ message ∈ last.messages, message ∈ view.client.held
  pinned : marks.strict → view.Pinned

/-- What holds while a client rests at a label. A reliable client never collects in passes. -/
def FollowsLabel (setup : Setup n m K) (marks : Landmarks n m K) (client : K) : Label n m → State n m K → Prop
  | .receiver consumer token last => Follows setup marks client consumer token (Rests setup marks last)
  | .receiving consumer token receiving => fun state =>
      Follows setup marks client consumer token (fun view => marks.strict → view.Lends []) state ∧
        marks.sized receiving.fixed ∧ Clocked receiving.now state
  | .collecting .. => fun _ => False
  | _ => fun _ => True

/-- The requests that keep to the landmarks: a released or consumed message shows the next frame of its ring. A strict
subscriber ends the loans of one call before it receives again. -/
def KeepsPlace (marks : Landmarks n m K) (client : K) (state : State n m K) (last : RxResult n) : Request n → Prop
  | .tryRecv fixed => marks.sized fixed ∧ (marks.strict → last.pending = none ∧ (state.client client).held = [])
  | .tryRecvChecked fixed => marks.sized fixed ∧ (marks.strict → last.pending = none ∧ (state.client client).held = [])
  | .tryRecvRun _ => marks.sized none ∧ (marks.strict → last.pending = none ∧ (state.client client).held = [])
  | .release message => marks.shows state message ((state.client client).rx.readMessageSequences message.producerId) ∧
      (marks.strict → last.pending = some message ∧
        (state.client client).rx.readPositions message.producerId ≤ message.nextPosition)
  | .consume message => marks.shows state message ((state.client client).rx.readMessageSequences message.producerId) ∧
      (state.client client).rx.readPositions message.producerId < message.nextPosition ∧
      (marks.strict → last.pending = some message)
  | .flush => marks.strict → last.pending = none
  | .skipToLatest .. => marks.strict → last.pending = none
  | _ => True

theorem RxResult.eq_of_pending {last : RxResult n} {message : Message n} (pending : last.pending = some message) :
    last = .received (some message) := by
  cases last with
  | received found => exact congrArg _ pending
  | _ => cases pending

section Results

omit [DecidableEq K]

variable {marks : Landmarks n m K} {last : RxResult n} {before after : RxView n m}

theorem RxView.Lends.pinnedAll {out : List (Message n)} (lends : view.Lends out) : view.Pinned := by
  intro message member
  rw [lends.held] at member
  exact lends.pinned message member

/-- A call without a single message leaves the receiver in step. -/
theorem Rests.of_plain (plain : last.pending = none)
    (tidy : marks.strict → (view.InStep ∧ view.Pinned) ∧ ∀ message ∈ last.messages, message ∈ view.client.held) :
    Rests setup marks last view where
  next message same := by
    subst same
    cases plain
  told strict _ := (tidy strict).1.1
  lent _ message same := by
    rw [plain] at same
    cases same
  lends strict := (tidy strict).2
  pinned strict := (tidy strict).1.2

/-- The own words after a pass of a single receive. -/
def Received.Leaves (setup : Setup n m K) (received : Received n) (view : RxView n m) : Prop :=
  match received with
  | .message found => view.client.held = [found] ∧ (view.setRx (Rx.advance setup found)).InStep
  | _ => view.Lends []

/-- The entry of a receive hands nothing out. -/
theorem RxView.Keeps.leaves {received : Received n} (keeps : before.Keeps after) (lends : before.Lends [])
    (plain : ∀ message, received ≠ .message message) : received.Leaves setup after := by
  cases received with
  | message found => exact absurd rfl (plain found)
  | _ => exact lends.keeps keeps

theorem Received.Effect.leaves {received : Received n} (effect : received.Effect marks before after state)
    (lends : before.Lends []) : received.Leaves setup after := by
  cases received with
  | again receiving =>
      obtain ⟨message, reading, -, -, -, skips⟩ := effect
      exact ⟨lends.told.passes skips.toPasses skips.readMessageSequences, skips.held.trans lends.held, nofun⟩
  | nothing => exact lends.keeps effect
  | message found =>
      obtain ⟨-, payload, delivers⟩ := effect
      have passes : before.Passes found.producerId (.delivered found payload) (after.setRx (Rx.advance setup found)) :=
        ⟨delivers.passed, delivers.registeredAt⟩
      refine ⟨by rw [delivers.held, lends.held, List.nil_append], lends.told.passes passes ?_⟩
      rw [RxView.setRx_rx, (Rx.advance_members setup found after.rx).2.1, delivers.readMessageSequences]
  | error reason => exact effect.elim

end Results

namespace LandmarkContract

variable {marks : Landmarks n m K} (receiver : LandmarkContract setup client consumer token contract moves marks)

omit [DecidableEq K] in
theorem follows_mono {further wider : RxView n m → Prop} (held : Follows setup marks client consumer token further state)
    (implied : ∀ view, further view → wider view) : Follows setup marks client consumer token wider state := by
  obtain ⟨view, known, synced, rest⟩ := held
  exact ⟨view, known, synced, implied view rest⟩

include receiver

/-- A call that hands out no single message. -/
theorem ends_plain {program : Prog (State n m K) α} {last : α → RxResult n} (plain : ∀ value, (last value).pending = none)
    (safe : Safe contract (fun value => Follows setup marks client consumer token fun view => marks.strict →
      (view.InStep ∧ view.Pinned) ∧ ∀ message ∈ (last value).messages, message ∈ view.client.held) program state) :
    Safe contract (FollowsLabel setup marks client)
      (program.bind fun value => .ret (.receiver consumer token (last value))) state :=
  receiver.bind safe fun value _ held _ rely ready =>
    follows_mono (receiver.follows_stable held rely ready) fun _ tidy => .of_plain (plain value) tidy

/-- A pass of a single receive. -/
theorem ends_received {further : Received n → RxView n m → State n m K → Prop} {program : Prog (State n m K) (Received n)}
    (safe : Safe contract (fun received => ReceiveEnds setup marks client consumer token (further received) received)
      program state)
    (leaves : ∀ received view state, further received view state → marks.strict → received.Leaves setup view) :
    Safe contract (FollowsLabel setup marks client)
      (program.bind fun received => .ret (received.label consumer token)) state := by
  refine receiver.bind safe fun received current held last rely ready => ?_
  obtain ⟨⟨after, known, synced, further, next⟩, again⟩ := held
  have leaves := leaves received after current further
  have known := receiver.stable known rely ready
  have plain {last : RxResult n} (none : last.messages = []) (lends : marks.strict → after.Lends [])
      (strict : marks.strict) : (after.InStep ∧ after.Pinned) ∧ ∀ message ∈ last.messages, message ∈ after.client.held :=
    ⟨⟨(lends strict).told, (lends strict).pinnedAll⟩, none ▸ nofun⟩
  cases received with
  | again receiving =>
      obtain ⟨sized, clocked⟩ := again receiving rfl
      exact ⟨⟨after, known, synced, leaves⟩, sized, (receiver.clocked _).rely rely ready clocked⟩
  | nothing => exact ⟨after, known, synced, .of_plain rfl (plain rfl leaves)⟩
  | message found =>
      have next := next found rfl
      refine ⟨after, known, synced, ⟨fun message same => ?_, fun _ none => ?_, fun strict message same => ?_,
        fun strict message member => ?_, fun strict message member => ?_⟩⟩
      · cases same
        exact next
      · cases none
      · cases same
        exact leaves strict
      · rw [(leaves strict).1]
        exact member
      · rw [(leaves strict).1] at member
        rw [List.mem_singleton.mp member, next.1]
        exact synced.flushed _ ▸ synced.behind _
  | error reason => exact ⟨after, known, synced, .of_plain rfl (plain rfl leaves)⟩

variable (reliable : setup.mode.dropOldest = false)

include reliable

/-- Every call of a registered receiver keeps its words in agreement. -/
theorem started {request : Request n} {program : Prog (State n m K) (Label n m)} {last : RxResult n}
    (begins : startReceiver setup client consumer token request = some program)
    (keeps : KeepsPlace marks client state last request)
    (held : Follows setup marks client consumer token (Rests setup marks last) state) :
    Safe contract (FollowsLabel setup marks client) program state := by
  obtain ⟨view, known, synced, rests⟩ := held
  have same : state.client client = view.client := congrArg RxView.client known.receives.holds
  have lends (empty : marks.strict → last.pending = none ∧ (state.client client).held = []) (strict : marks.strict) :
      view.Lends [] := by
    obtain ⟨none, held⟩ := empty strict
    exact ⟨rests.told strict none, same ▸ held, nofun⟩
  have tidy (empty : marks.strict → last.pending = none) (strict : marks.strict) : view.InStep ∧ view.Pinned :=
    ⟨rests.told strict (empty strict), rests.pinned strict⟩
  have plain {view : RxView n m} (tidy : marks.strict → view.InStep ∧ view.Pinned) (strict : marks.strict) :
      (view.InStep ∧ view.Pinned) ∧ ∀ message ∈ (.ready : RxResult n).messages, message ∈ view.client.held :=
    ⟨tidy strict, nofun⟩
  cases request with
  | tryRecv fixed =>
      cases begins
      exact receiver.ends_received (receiver.beginReceive keeps.1 false known synced) fun _ _ _ held strict =>
        held.1.leaves (lends keeps.2 strict) held.2
  | tryRecvChecked fixed =>
      cases begins
      exact receiver.ends_received (receiver.beginReceiveChecked reliable keeps.1 known synced) fun _ _ _ held strict =>
        held.1.leaves (lends keeps.2 strict) held.2
  | tryRecvRun cap =>
      cases begins
      simp only [reliable, Bool.false_eq_true, if_false]
      refine receiver.ends_plain (fun _ => rfl) (Safe.weaken (receiver.tryRecvRun reliable keeps.1 cap
        ⟨view, known, synced, lends keeps.2⟩) fun out _ _ held => follows_mono held fun view lends strict =>
          ⟨⟨(lends strict).told, (lends strict).pinnedAll⟩, fun message member => ?_⟩)
      rw [(lends strict).held]
      exact member
  | release message =>
      cases begins
      obtain ⟨shows, strictly⟩ := keeps
      rw [same] at shows strictly
      have next (strict : marks.strict) : message.sequence = view.rx.target setup message.producerId :=
        (rests.next message (RxResult.eq_of_pending (strictly strict).1)).2
      have behind : (view.cursor message.producerId).position ≤ view.rx.readPositions message.producerId :=
        synced.flushed message.producerId ▸ synced.behind message.producerId
      refine receiver.ends_plain (fun _ => rfl) (Safe.weaken (receiver.release reliable known shows next
        fun strict => behind.trans (strictly strict).2) fun _ _ _ known => ⟨_, known,
          (RxView.quiet_returns _ message).synced (synced.release message), plain fun strict => ?_⟩)
      obtain ⟨held, told⟩ := rests.lent strict message (strictly strict).1
      have none : ((view.release setup message).returns message).client.held = [] := by
        show view.client.held.filter _ = []
        rw [held]
        simp
      exact ⟨told, fun other member => absurd (none ▸ member) List.not_mem_nil⟩
  | consume message =>
      cases begins
      obtain ⟨shows, further, strictly⟩ := keeps
      rw [same] at shows further
      have next (strict : marks.strict) : message.sequence = view.rx.target setup message.producerId :=
        (rests.next message (RxResult.eq_of_pending (strictly strict))).2
      refine receiver.ends_plain (fun _ => rfl) (Safe.weaken (receiver.consume message known shows next)
        fun _ _ _ known => ⟨_, known, synced.advance further, plain fun strict => ?_⟩)
      exact ⟨(rests.lent strict message (strictly strict)).2, rests.pinned strict⟩
  | flush =>
      cases begins
      exact receiver.ends_plain (fun _ => rfl) (Safe.weaken (receiver.flushBatch reliable
        ⟨view, known, synced, tidy keeps⟩) fun _ _ _ held => follows_mono held fun view => plain)
  | skipToLatest producer fixed =>
      cases begins
      refine receiver.ends_plain (fun _ => rfl) (Safe.weaken (P := fun _ => At marks client consumer token view) ?_
        fun _ _ _ known => ⟨view, known, synced, plain (tidy keeps)⟩)
      simp only [skipToLatest, reliable, Bool.false_eq_true, if_false, Prog.pure_eq, Prog.bind_eq, Prog.ret_bind,
        Bool.not_false, Bool.true_or, if_true]
      exact receiver.reads (.bind (reads_hasConsumer _ _) fun _ => .bind (reads_readRx client) fun _ => .ret _) known
  | unsubscribe =>
      cases begins
      simp only [destroyRx, reliable, Bool.false_eq_true, if_false]
      exact fun _ _ _ => trivial
  | _ => cases begins

end LandmarkContract

namespace ClientContract

omit [DecidableEq K] in
theorem aside_acquireRegistrationGate (client : K) :
    Each SameRings (acquireRegistrationGate setup client : Prog (State n m K) Bool) := by
  refine .modifyGet (fun state => ?_) _
  split <;> rfl

theorem aside_releaseRegistrationGate (client : K) :
    Each SameRings (releaseRegistrationGate client : Prog (State n m K) Unit) := by
  refine .store fun state => ?_
  split <;> rfl

omit [DecidableEq K] in
theorem aside_claimEnded (producer : Fin n) : Each SameRings (claimEnded producer : Prog (State n m K) Bool) :=
  fun _ => ⟨rfl, trivial⟩

/-- An action that leaves the histories of the clients alone. -/
def SameClients (before after : State n m K) : Prop := after.client = before.client

section Each

omit [DecidableEq K]

theorem same_exchangeState (expected next : Nat) :
    Each SameClients (exchangeState consumer expected next : Prog (State n m K) Bool) := by
  refine .modifyGet (fun state => ?_) _
  split <;> rfl

theorem same_storeSlot (change : ConsumerSlot → ConsumerSlot) :
    Each SameClients (storeSlot consumer change : Prog (State n m K) Unit) := .store fun _ => rfl

theorem same_storeCursor (producer : Fin n) (change : ConsumerSharedState → ConsumerSharedState) :
    Each SameClients (storeCursor producer consumer change : Prog (State n m K) Unit) := .store fun _ => rfl

theorem same_load {α : Type} (read : State n m K → α) : Each SameClients (Prog.load read) :=
  fun _ => ⟨rfl, trivial⟩

theorem same_snapshotCursor (generation orderedSequence : Nat) (producer : Fin n) :
    Each SameClients (snapshotCursor setup consumer generation orderedSequence producer) := by
  refine .bind (same_storeCursor _ _) fun _ => .bind (same_load _) fun _ => ?_
  split
  all_goals
    exact .bind (by first | exact same_load _ | exact .ret _) fun _ => .bind (same_storeCursor _ _) fun _ =>
      .bind (same_storeCursor _ _) fun _ => .bind (same_load _) fun _ => .bind (same_storeCursor _ _) fun _ =>
      .bind (same_storeCursor _ _) fun _ => .bind (same_storeCursor _ _) fun _ =>
      .bind (same_storeCursor _ _) fun _ => same_storeCursor _ _

end Each

variable (owner : ClientContract client contract)

include owner

omit [DecidableEq K] in
/-- A client without a slot may rewrite the slots. -/
theorem same_bind {α β : Type} {program : Prog (State n m K) α} {rest : α → Prog (State n m K) β}
    {P : β → State n m K → Prop} (each : Each SameClients program) (entry : (state.client client).registration = none)
    (continues : ∀ value current, (current.client client).registration = none → Safe contract P (rest value) current) :
    Safe contract P (program.bind rest) state :=
  Safe.bind owner.lawful (owner.unregistered_safe (each.mono fun _ _ same => by rw [same]) entry)
    fun value current _ => continues value current

theorem initializeSlot_safe (policy : SubscriptionPolicy) (observed : Nat)
    (entry : (state.client client).registration = none) :
    Safe contract (fun taken state => taken = none → (state.client client).registration = none)
      (initializeSlot setup client policy consumer observed) state := by
  refine owner.same_bind (same_exchangeState _ _) entry fun exchanged _ entry => ?_
  split
  · refine owner.same_bind (same_storeSlot _) entry fun _ _ entry => owner.same_bind (same_storeSlot _) entry
      fun _ _ entry => owner.same_bind (same_storeSlot _) entry fun _ _ entry => owner.same_bind ?_ entry
      fun sequence _ entry => owner.same_bind (.forEach (fun producer => same_snapshotCursor _ _ producer) _) entry
      fun _ _ entry => owner.same_bind (.when (.store fun _ => rfl)) entry fun _ _ entry =>
      Safe.bind owner.lawful (owner.aside_safe (.store fun _ => rfl)) fun _ _ _ _ => fun _ _ _ same => by
        cases same
    split
    · exact same_load _
    · exact .ret _
  · exact fun _ rely _ _ => by rw [(owner.rely rely).same]; exact entry

/-- What follows depends on whether the client has a slot now. -/
theorem initialized_bind {α : Type} {P : α → State n m K → Prop} {rest : Option (Fin m × Nat) → Prog (State n m K) α}
    (policy : SubscriptionPolicy) (observed : Nat) (entry : (state.client client).registration = none)
    (taken : ∀ registration current, Safe contract P (rest (some registration)) current)
    (missed : ∀ current, (current.client client).registration = none → Safe contract P (rest none) current) :
    Safe contract P ((initializeSlot setup client policy consumer observed).bind rest) state := by
  refine Safe.bind owner.lawful (owner.initializeSlot_safe policy observed entry) fun result current _ held => ?_
  cases result with
  | none => exact missed current (held rfl)
  | some registration => exact taken registration current

/-- One round of the search leaves the client without a slot, or it ends the search. -/
theorem acquireSlotRound_safe (policy : SubscriptionPolicy) (entry : (state.client client).registration = none) :
    Safe contract (fun result state => result = .inl () → (state.client client).registration = none)
      (acquireSlotRound setup client policy () consumer) state := by
  have skips {current : State n m K} (entry : (current.client client).registration = none) :
      Safe contract (fun (result : Unit ⊕ (Fin m × Nat)) state => result = .inl () →
        (state.client client).registration = none) (.ret (.inl ())) current :=
    fun _ rely _ _ => by rw [(owner.rely rely).same]; exact entry
  refine owner.same_bind (same_load _) entry fun observed _ entry => ?_
  split
  · refine owner.same_bind (same_load _) entry fun _ _ entry => owner.same_bind (same_load _) entry
      fun alive _ entry => ?_
    split
    · exact skips entry
    refine owner.same_bind (same_exchangeState _ _) entry fun exchanged _ entry => ?_
    split
    · exact owner.same_bind ((Membership.slotKeeps_resetSlot _).mono fun _ _ keeps => keeps.client) entry
        fun _ _ entry => owner.same_bind (same_load _) entry fun observed _ entry =>
          owner.initialized_bind policy observed entry (fun _ _ _ _ _ same => by cases same) fun _ => skips
    · exact skips entry
  · exact owner.initialized_bind policy observed entry (fun _ _ _ _ _ same => by cases same) fun _ => skips

theorem acquireConsumer_safe (policy : SubscriptionPolicy) (entry : (state.client client).registration = none) :
    Safe contract (fun _ _ => True) (acquireConsumer setup client policy) state := by
  refine Safe.bind owner.lawful (M := fun _ _ => True) (Safe.weaken (Safe.foldUntil owner.lawful
    (I := fun _ _ state => (state.client client).registration = none) (S := fun _ _ => True)
    (fun rely _ entry => by rw [(owner.rely rely).same]; exact entry) (fun consumer _ _ _ entry => ?_)
    (fun _ _ _ => trivial) entry) fun _ _ _ _ => trivial) fun searched _ _ _ => ?_
  · refine Safe.weaken (owner.acquireSlotRound_safe policy entry) fun result _ _ held => ?_
    cases result with
    | inl _ => exact held rfl
    | inr _ => trivial
  · cases searched <;> exact fun _ _ _ => trivial

/-- The release of a slot ends the registration in its first step. -/
theorem releaseConsumer_safe : Safe contract (fun _ _ => True) (releaseConsumer client consumer token) state := by
  refine Safe.modifyGet_bind fun current rely ready action => ?_
  obtain ⟨kept, guaranteed⟩ := owner.aside ready action (by split <;> rfl)
  refine ⟨kept, guaranteed, ?_⟩
  split
  · rename_i owned
    simp only [decide_eq_true_eq] at owned
    refine Safe.weaken (owner.unregistered_safe ((Membership.slotKeeps_resetSlot _).mono fun _ _ keeps => by
      rw [keeps.client]) ?_) fun _ _ _ _ => trivial
    simp [owned]
  · exact fun _ _ _ => trivial

end ClientContract

/-- A new registration starts at a place. -/
structure Lands (setup : Setup n m K) (client : K) (contract : Contract (State n m K)) (marks : Landmarks n m K) : Prop where
  seen : ∀ {state}, contract.Ready state → ∀ producer, marks.seen state producer 0
  begun : ∀ {state consumer token}, contract.Ready state → Membership.Begun setup client consumer token state →
    (∀ producer, marks.place state producer (state.cursor producer consumer).position
      (state.cursor producer consumer).messageSequence) ∧
    marks.aligned state (state.begunTurns setup consumer) ∧
    (marks.strict → ∀ producer, (state.client client).registeredAt producer =
      (state.cursor producer consumer).messageSequence)

section Clients

variable {marks : Landmarks n m K}
  (receivers : ∀ consumer token, LandmarkContract setup client consumer token contract moves marks)

include receivers

/-- A task inside the gate ends at a label of its client. -/
theorem runTask_follows (receiver : ReceiverContract setup client contract moves) (lands : Lands setup client contract marks)
    (task : Task m) (entry : AtLabel client (.waiting task []) state) :
    Safe contract (FollowsLabel setup marks client) (runTask setup client task) state := by
  obtain ⟨owner, passed⟩ := entry.waiting task [] rfl
  have registering : Registering client state := ⟨owner, fun producer => passed producer List.not_mem_nil⟩
  have gate {current : State n m K} : Safe contract (fun _ _ => True) (releaseRegistrationGate client) current :=
    receiver.clientContract.aside_safe (ClientContract.aside_releaseRegistrationGate client)
  cases task with
  | unsubscribe consumer token =>
      exact Safe.bind receiver.lawful receiver.clientContract.releaseConsumer_safe fun _ _ _ _ =>
        Safe.bind receiver.lawful gate fun _ _ _ _ => fun _ _ _ => trivial
  | subscribe policy =>
      have unregistered : (state.client client).registration = none := entry.registration
      refine Safe.bind receiver.lawful (receiver.borrow (receiver.clientContract.acquireConsumer_safe policy unregistered)
        (Membership.acquireConsumer_safe policy ⟨registering, unregistered⟩)) fun taken _ _ held => ?_
      obtain ⟨-, held⟩ := held
      cases taken with
      | none => exact Safe.bind receiver.lawful gate fun _ _ _ _ => fun _ _ _ => trivial
      | some registration =>
      obtain ⟨consumer, token⟩ := registration
      refine Safe.bind receiver.lawful (receiver.borrow gate (Membership.releaseGate_begun held))
        fun _ current ready held => ?_
      obtain ⟨-, begun⟩ := held
      have registered : Receives client consumer token (· = current.rxView client consumer) current :=
        ⟨begun.registered, rfl⟩
      obtain ⟨starts, aligned, numbers⟩ := lands.begun ready begun
      obtain ⟨first, fresh, -, -, same, -⟩ := begun.start
      have blank := same.trans fresh.begun
      have facts : Facts marks ((current.rxView client consumer).created setup) current :=
        RxView.created_facts (by rw [blank]) (by rw [blank]) (by rw [blank]) (fun producer => lands.seen ready producer)
          starts aligned
      refine Safe.bind receiver.lawful ((receiver.createRx registered).lasting ((receivers consumer token).facts _) facts)
        fun _ _ _ held => fun _ rely ready => ?_
      refine ⟨_, (receivers consumer token).stable ⟨held.1, held.2⟩ rely ready, RxView.created_synced setup _,
        .of_plain rfl fun strict => ⟨⟨fun producer => ?_, fun message member => ?_⟩, nofun⟩⟩
      · obtain ⟨-, -, passed, registeredAt⟩ := (current.rxView client consumer).created_kept setup
        have counts := congrArg Turns.counts (RxView.created_turns setup current client consumer)
        have empty : (current.rxView client consumer).client.passed producer = [] := by
          show (current.client client).passed producer = []
          rw [blank]
        rw [Client.told, passed, registeredAt, empty, List.length_nil, Nat.add_zero]
        exact (numbers strict producer).trans (congrFun counts producer).symm
      · have empty : ((current.rxView client consumer).created setup).client.held = [] := by
          rw [((current.rxView client consumer).created_kept setup).2.1]
          show (current.client client).held = []
          rw [blank]
        rw [empty] at member
        exact absurd member List.not_mem_nil

/-- Every call of a client keeps to its label. -/
theorem client_started (receiver : ReceiverContract setup client contract moves) (lands : Lands setup client contract marks)
    (reliable : setup.mode.dropOldest = false) {label : Label n m} {request : Request n} {program : Prog (State n m K) (Label n m)}
    (begins : startClient setup client label request = some program)
    (keeps : ∀ consumer token last, label = .receiver consumer token last → KeepsPlace marks client state last request)
    (rests : AtLabel client label state) (held : FollowsLabel setup marks client label state) :
    Safe contract (FollowsLabel setup marks client) program state := by
  match label, request, begins with
  | .unsubscribed, .subscribe policy, begins =>
      cases begins
      refine receiver.clientContract.aside_bind (ClientContract.aside_acquireRegistrationGate client) fun acquired _ _ _ _ => ?_
      cases acquired <;> trivial
  | .closing consumer token, .proceed, begins =>
      cases begins
      refine receiver.clientContract.aside_bind (ClientContract.aside_acquireRegistrationGate client) fun acquired _ _ _ _ => ?_
      cases acquired <;> trivial
  | .waiting task (producer :: rest), .proceed, begins =>
      cases begins
      exact receiver.clientContract.aside_bind (ClientContract.aside_claimEnded producer) fun ended _ _ _ _ => trivial
  | .waiting task [], .proceed, begins =>
      cases begins
      exact runTask_follows receivers receiver lands task rests
  | .receiver consumer token last, request, begins =>
      exact (receivers consumer token).started reliable begins (keeps consumer token last rfl) held
  | .receiving consumer token receiving, .proceed, begins =>
      cases begins
      simp only [reliable, Bool.false_eq_true, if_false]
      obtain ⟨⟨view, known, synced, lends⟩, sized, clocked⟩ := held
      exact (receivers consumer token).ends_received ((receivers consumer token).receivePass reliable sized known synced
        (fun strict => (lends strict).told) clocked) fun _ _ _ effect strict => effect.leaves (lends strict)
  | .collecting consumer token cap now, .proceed, begins => exact absurd held id

end Clients

end Programs

section Runs

variable [DecidableEq K]

/-- Landmarks that tell nothing. -/
def anywhere : Landmarks n m K where
  place _ _ _ _ := True
  seen _ _ _ := True
  shows _ _ _ := True
  tells _ _ _ _ := True
  aligned _ _ := True
  sized _ := True
  strict := False

/-- The membership, with the agreement of the words at the labels of the clients. -/
def resuming (setup : Setup n m K) : Discipline (State n m K) (Thread n K) (Label n m) :=
  {Membership.extend setup fun _ => True with
    label
      | .client client => FollowsLabel setup anywhere client
      | _ => fun _ _ => True}

variable {setup : Setup n m K} {client : K} {state : State n m K}

theorem resuming_receiver (client : K) : ReceiverContract setup client ((resuming setup).contract (.client client))
    fun _ _ => True where
  lawful :=
    have lawful : ((Membership.extend setup fun _ => True).contract (.client client)).Lawful :=
      Membership.extend_lawful (.client client)
    ⟨lawful.refl, lawful.trans, lawful.idle, lawful.stays⟩
  rely := id
  ready ready := ⟨ready.knows, trivial, ready.may⟩
  keeps _ action _ := ⟨trivial, action.1⟩
  still _ := trivial
  unregistered _ := trivial

theorem resuming_landmarks (client : K) (consumer : Fin m) (token : Nat) :
    LandmarkContract setup client consumer token ((resuming setup).contract (.client client)) (fun _ _ => True)
      anywhere where
  toReceiverContract := resuming_receiver client
  place _ _ _ := .trivial
  seen _ _ := .trivial
  shows _ _ := .trivial
  tells _ _ _ := .trivial
  aligned _ := .trivial
  clock _ := ⟨fun rely _ below => below.trans rely.clock, fun _ action below => by rw [action.1.clock]; exact below⟩
  visible _ _ := trivial
  found _ _ _ _ _ _ _ _ _ _ _ _ _ := trivial
  turn _ _ _ _ := ⟨trivial, trivial⟩
  delivers _ _ _ _ _ := trivial
  expires _ _ _ _ _ := trivial
  publishes _ _ _ _ _ _ := ⟨fun _ => trivial, fun _ => trivial⟩

theorem resuming_lands (client : K) : Lands setup client ((resuming setup).contract (.client client)) anywhere where
  seen _ _ := trivial
  begun _ _ := ⟨fun _ => trivial, trivial, False.elim⟩

/-- The runs of living processes in which a consumed message ends beyond the read position of its ring. -/
def ConsumesForward (setup : Setup n m K) (config : Concurrent.Config (State n m K) (Thread n K) (Label n m)) :
    Event (Thread n K) (Request n) → Prop
  | .start (.client client) (.consume message) =>
      (config.shared.client client).rx.readPositions message.producerId < message.nextPosition
  | .act (.client client) => config.shared.lives setup client
  | _ => True

omit [DecidableEq K] in
theorem ConsumesForward.acts {config : Concurrent.Config (State n m K) (Thread n K) (Label n m)}
    {event : Event (Thread n K) (Request n)} (admitted : ConsumesForward setup config event) :
    Membership.Acts setup config event := by
  match event, admitted with
  | .act (.client _), admitted => exact admitted
  | .act (.producer _), _ => trivial
  | .act .environment, _ => trivial
  | .start _ _, _ => trivial

/-- The same condition for the start of a call. -/
def MayConsume (state : State n m K) : Thread n K → Label n m → Request n → Prop
  | .client client, _, .consume message =>
      (state.client client).rx.readPositions message.producerId < message.nextPosition
  | _, _, _ => True

theorem resuming_sound (reliable : setup.mode.dropOldest = false) :
    (resuming setup).Sound (system setup) MayConsume where
  lawful thread :=
    have lawful : ((Membership.extend setup fun _ => True).contract thread).Lawful := Membership.extend_lawful thread
    ⟨lawful.refl, lawful.trans, lawful.idle, lawful.stays⟩
  compatible different ready later guaranteed :=
    Membership.compatible different ⟨ready.knows, trivial, ready.may⟩ ⟨later.knows, trivial, later.may⟩ guaranteed
  start {thread label request program state} begins may _ rests held := by
    match thread, label, begins with
    | .producer producer, label, begins => exact Safe.of_action fun _ action => ⟨trivial, action.1⟩
    | .environment, label, begins => exact Safe.of_action fun _ action => ⟨trivial, action.1⟩
    | .client client, label, begins =>
        refine client_started (resuming_landmarks client) (resuming_receiver client) (resuming_lands client) reliable
          begins (fun consumer token last same => ?_) rests held
        cases request with
        | tryRecv fixed => exact ⟨trivial, False.elim⟩
        | tryRecvChecked fixed => exact ⟨trivial, False.elim⟩
        | tryRecvRun cap => exact ⟨trivial, False.elim⟩
        | consume message => exact ⟨trivial, may, False.elim⟩
        | release message => exact ⟨trivial, False.elim⟩
        | flush => exact False.elim
        | skipToLatest producer fixed => exact False.elim
        | _ => trivial

theorem resuming_of_run (reliable : setup.mode.dropOldest = false)
    {config : Concurrent.Config (State n m K) (Thread n K) (Label n m)}
    (run : (system setup).Run (ConsumesForward setup) initial config) {client : K} {consumer : Fin m} {token : Nat}
    {last : RxResult n} (rests : config.thread (.client client) = .ret (.receiver consumer token last))
    (lives : config.shared.lives setup client) : Follows setup anywhere client consumer token
      (fun view => ∀ message, last = .received (some message) → NextUp setup message view) config.shared := by
  have begun : (resuming setup).Initial initial := by
    refine ⟨trivial, fun thread => ?_⟩
    cases thread <;> exact fun _ _ _ => trivial
  have knows : (resuming setup).Knows (system setup) MayConsume (ConsumesForward setup) initial := by
    have knows : (Membership.extend setup fun _ => True).Knows (system setup) MayConsume (ConsumesForward setup) initial :=
      Membership.extend_knows ConsumesForward.acts fun {config thread request label} admitted _ => by
        cases thread with
        | client client =>
            cases request with
            | consume message => exact admitted
            | _ => trivial
        | _ => trivial
    exact ⟨knows.respects, knows.known, knows.action, knows.rests⟩
  have may : (resuming setup).may (.client client) config.shared := lives
  have label : (resuming setup).label (.client client) (.receiver consumer token last) config.shared :=
    (resuming_sound reliable).label begun knows run may rests
  have label : FollowsLabel setup anywhere client (.receiver consumer token last) config.shared := label
  exact LandmarkContract.follows_mono label fun _ rests => rests.next

/-- The next message of a ring that a receiver finds below a bound. -/
def State.look (setup : Setup n m K) (state : State n m K) (rx : Rx n) (producer : Fin n) (bound : Nat)
    (fixed : Option UInt32) : Option (Message n) :=
  ((tryReadFromRing setup producer (rx.readPositions producer) (rx.target setup producer) bound fixed).run state).1

end Runs

/-- The constructor of a receiver finds in the shared words the place of the old receiver of the same registration,
once its progress is published; a message that a single receive hands out lies at the place of its receiver. -/
theorem recreated_receiver_resumes [DecidableEq K] {setup : Setup n m K} (reliable : setup.mode.dropOldest = false)
    {config : Concurrent.Config (State n m K) (Thread n K) (Label n m)}
    (run : (system setup).Run (ConsumesForward setup) initial config) {client : K} {consumer : Fin m} {token : Nat}
    {last : RxResult n} (rests : config.thread (.client client) = .ret (.receiver consumer token last))
    (lives : config.shared.lives setup client) :
    let old := (config.shared.client client).rx
    let recreated := ((createRx setup client consumer token).run (config.shared.setRx client fun _ => {})).2
    let new := (recreated.client client).rx
    (hasPendingProgress old = false →
      new.SamePlace setup old ∧
        (∀ producer, recreated.cursor producer consumer = config.shared.cursor producer consumer) ∧
        ∀ later : State n m K, ∀ producer bound fixed,
          later.look setup new producer bound fixed = later.look setup old producer bound fixed) ∧
      ∀ message, last = .received (some message) → message.position = old.readPositions message.producerId ∧
        message.sequence = old.target setup message.producerId := by
  intro old recreated new
  have tracks := resuming_of_run reliable run rests lives
  obtain ⟨view, ⟨⟨registered, same⟩, -⟩, synced, next⟩ := tracks
  subst same
  refine ⟨fun published => ?_, next⟩
  have membership : Membership setup config.shared := Membership.of_run ConsumesForward.acts run
  obtain ⟨active, owns, -⟩ := membership.registered client consumer token lives registered
  have word : (config.shared.slot consumer).state = token := by
    have := owns.registration.symm.trans registered
    simpa using this
  have view : recreated.rxView client consumer = ((config.shared.rxView client consumer).setClient fun client =>
      {client with rx := {}}).created setup := by
    have built : ((createRx setup client consumer token).run (config.shared.setRx client fun _ => {})).2.rxView client
        consumer = ((config.shared.setRx client fun _ => {}).rxView client consumer).created setup :=
      createRx_run ⟨word ▸ active, word⟩
    rw [State.rxView_setRx] at built
    exact built
  have even (producer : Fin n) : old.readPositions producer = old.flushedPositions producer := by
    simp only [hasPendingProgress, List.any_eq_false, bne_iff_ne, ne_eq, not_not] at published
    exact published producer (List.mem_finRange producer)
  have place : new.SamePlace setup old := by
    have created := synced.created even
    rw [← view] at created
    exact created
  refine ⟨place, fun producer => ?_, fun later producer bound fixed => ?_⟩
  · have cursor := congrArg (fun view : RxView n m => view.cursor producer) view
    rw [(RxView.created_shared setup _).1] at cursor
    exact cursor
  · rw [State.look, State.look, place.readPositions producer, place.target producer]

section Runs

/-- The process lives, and nothing is consumed. -/
def livesForward (config : Concurrent.Config (State 1 1 Unit) (Thread 1 Unit) (Label 1 1)) :
    Event (Thread 1 Unit) (Request 1) → Bool
  | .start _ (.consume _) => false
  | _ => config.shared.isRegisteredProcessAlive 1 1

/-- A subscriber registers after one claim. -/
def lateSubscriber : List (Event (Thread 1 Unit) (Request 1)) :=
  let call (thread : Thread 1 Unit) (request : Request 1) (count : Nat) : List (Event (Thread 1 Unit) (Request 1)) :=
    .start thread request :: List.replicate count (.act thread)
  call (.producer sole) (.claim 8 0 false) 8 ++ call (.client ()) (.subscribe .Reliable) 1 ++
    call (.client ()) .proceed 1 ++ call (.client ()) .proceed 24

/-- The label of a registered receiver that has returned. -/
def readyRegistration : Option (Label 1 1) → Option (Fin 1 × Nat)
  | some (.receiver consumer token .ready) => some (consumer, token)
  | _ => none

theorem recreated_receiver_resumes_lateSubscriber : ∃ config, (system (smallSetup .FifoMpsc 0)).Run
      (ConsumesForward (smallSetup .FifoMpsc 0)) initial config ∧
    let recreated := ((createRx (smallSetup .FifoMpsc 0) () 0 34359738379).run
      (config.shared.setRx () fun _ => {})).2
    (recreated.client ()).rx.readPositions 0 = 16 := by
  have executed : ((system (smallSetup .FifoMpsc 0)).execChecked livesForward initial lateSubscriber).map (fun config =>
      (readyRegistration (config.thread (.client ())).value, config.shared.isRegisteredProcessAlive 1 1,
        hasPendingProgress (config.shared.client ()).rx, (config.shared.client ()).rx.readPositions 0)) =
      some (some (0, 34359738379), true, false, 16) := by
    decide
  obtain ⟨config, final, facts⟩ := Option.map_eq_some_iff.mp executed
  simp only [Prod.mk.injEq] at facts
  obtain ⟨rests, lives, published, position⟩ := facts
  have passes (config : Concurrent.Config (State 1 1 Unit) (Thread 1 Unit) (Label 1 1)) (event)
      (passed : livesForward config event = true) : ConsumesForward (smallSetup .FifoMpsc 0) config event := by
    match event, passed with
    | .act (.client ()), passed => exact passed
    | .act (.producer _), _ => trivial
    | .act .environment, _ => trivial
    | .start thread request, passed =>
        cases request with
        | consume message => cases passed
        | _ => cases thread <;> trivial
  have run := Concurrent.System.run_of_execChecked passes lateSubscriber .refl final
  have label : config.thread (.client ()) = .ret (.receiver 0 34359738379 .ready) := by
    refine Prog.of_value ?_
    generalize (config.thread (.client ())).value = value at rests
    unfold readyRegistration at rests
    split at rests
    · cases rests
      rfl
    · cases rests
  refine ⟨config, run, ?_⟩
  have place := ((recreated_receiver_resumes rfl run label lives).1 published).1
  exact (place.readPositions 0).trans position

end Runs

end Salias.SharedHybridMpsc
