import Salias.Channel.FrameOrder

/-
A subscriber of a reliable channel passes the frames of each ring once, in order and unchanged, whatever the producers
and the other subscribers do.
-/

namespace Salias.SharedHybridMpsc

open Concurrent Salias.Frame ConsumerRegistration

variable {n m : Nat} {K : Type}

/-- An unregistered client moves no counter of an active slot. -/
theorem InOrder.of_unregistered [DecidableEq K] {setup : Setup n m K} {client : K} {before after : State n m K}
    (step : RxStep setup client before after) (unregistered : (before.client client).registration = none) :
    InOrder before after := by
  intro gauge producer consumer active _
  rcases step.progress consumer with same | ⟨token, own⟩ | ⟨-, inactive⟩
  · exact .inl (congrArg gauge.read (same.1 producer))
  · exact absurd (unregistered.symm.trans own) (by simp)
  · exact absurd active inactive

namespace Delivery

/-- The boundaries and the contents of the published frames. -/
def marks (setup : Setup n m K) (size : Option UInt32) : Landmarks n m K where
  place state producer position count := Published.Place producer position count state
  seen state producer bound := Published.Seen producer bound state
  shows state message count := Published.Shows message count state
  tells state producer index passage := Published.Tells producer index passage state
  aligned state turns := Published.Aligned setup turns state
  sized fixed := ∀ bytes, fixed = some bytes → size = some bytes
  strict := True

variable [DecidableEq K]

/-- The subscribers publish their progress in order while the rings grow. -/
def discipline (setup : Setup n m K) (size : Option UInt32) : Discipline (State n m K) (Thread n K) (Label n m) where
  invariant _ := True
  known := Published.Known setup size
  action thread before after :=
    (Membership.discipline setup).guarantee thread before after ∧ Published.Grows before after
  rests := (Membership.discipline setup).label
  may := (Membership.discipline setup).may
  rely
    | .client client => fun before after => RxRely client before after ∧ Published.Grows before after
    | _ => fun _ _ => True
  guarantee thread before after :=
    ((Membership.discipline setup).guarantee thread before after ∧ Published.Grows before after) ∧
      ∀ client, thread = .client client → InOrder before after
  label
    | .client client => FollowsLabel setup (marks setup size) client
    | _ => fun _ _ => True

section Contract

variable {setup : Setup n m K} {size : Option UInt32} {client : K} {consumer : Fin m} {token : Nat}

abbrev rxContract (setup : Setup n m K) (size : Option UInt32) (client : K) : Contract (State n m K) :=
  (discipline setup size).contract (.client client)

theorem lawful (setup : Setup n m K) (size : Option UInt32) (thread : Thread n K) :
    ((discipline setup size).contract thread).Lawful where
  refl state := match thread with
    | .producer _ => trivial
    | .client client => ⟨RxRely.refl client state, .refl state⟩
    | .environment => trivial
  trans {_ _ _} one two := match thread with
    | .producer _ => trivial
    | .client _ => ⟨one.1.trans two.1, one.2.trans two.2⟩
    | .environment => trivial
  idle state := ⟨⟨(Membership.lawful setup thread).idle state, .refl state⟩, fun _ _ _ _ _ _ _ => .inl rfl⟩
  stays {_ _} step later := match thread with
    | .producer _ => trivial
    | .client _ => RxRely.lives step.1 later
    | .environment => trivial

theorem compatible {actor observer : Thread n K} {before after : State n m K} (different : actor ≠ observer)
    (ready : ((discipline setup size).contract actor).Ready before)
    (later : ((discipline setup size).contract observer).Ready after)
    (guaranteed : (discipline setup size).guarantee actor before after) :
    (discipline setup size).rely observer before after := by
  match observer with
  | .client client =>
      have leaves : (Membership.discipline setup).rely (.client client) before after :=
        Membership.compatible different ⟨ready.knows.membership, trivial, ready.may⟩
          ⟨later.knows.membership, trivial, later.may⟩ guaranteed.1.1
      exact ⟨leaves, guaranteed.1.2⟩
  | .producer _ => trivial
  | .environment => trivial

/-- The moves that a subscriber may make. -/
def Moves (client : K) (before after : State n m K) : Prop :=
  (before.client client).registration = none ∨ InOrder before after

theorem receiver (setup : Setup n m K) (size : Option UInt32) (client : K) :
    ReceiverContract setup client (rxContract setup size client) (Moves client) where
  lawful := lawful setup size (.client client)
  rely rely := rely.1
  ready ready := ⟨ready.knows.membership, trivial, ready.may⟩
  keeps _ action moves := ⟨trivial, action, fun _ _ =>
    moves.elim (InOrder.of_unregistered action.1) id⟩
  still same := .inr fun gauge producer consumer _ _ => .inl (same gauge producer consumer)
  unregistered none := .inl none

/-- A fact that grows with the rings lasts. -/
theorem lasting {fact : State n m K → Prop}
    (grows : ∀ {before after}, Published.Grows before after → fact before → fact after) :
    Lasting (rxContract setup size client) fact :=
  ⟨fun rely _ held => grows rely.2 held, fun _ action held => grows action.2 held⟩

/-- The slot of a receiver is live. -/
theorem live {state : State n m K} (ready : (rxContract setup size client).Ready state)
    (registered : (state.client client).registration = some (consumer, token)) : state.slotLive consumer :=
  Membership.slotAlive ready.knows.membership ready.may registered

/-- The progress between two places is in order. -/
theorem publishes {producer : Fin n} {position count : Nat} (before : ConsumerSharedState)
    (forward : before.position ≤ position) :
    Publishes (rxContract setup size client) (Moves client) client consumer token (fun state =>
      Published.Place producer before.position before.messageSequence state ∧
        Published.Place producer position count state) producer before position count := by
  intro current ready registered places
  obtain ⟨⟨within, old⟩, ⟨inside, new⟩⟩ := places
  have exact := ready.knows.membership.exact producer
  have tail : (current.tx producer).producerPos = frameOffset (current.ring producer).frames
    (current.ring producer).frames.length := exact.position
  have messages : (current.tx producer).messageSequence = (current.ring producer).frames.length := exact.messages
  have reached : position ≤ (current.tx producer).producerPos := by
    rw [tail, new]
    exact Circular.offset_mono _ _ inside
  have counted : before.messageSequence ≤ count := by
    rw [old, new] at forward
    exact (Circular.offset_le_iff ClaimedFrame.length_pos within).mp forward
  refine ⟨fun same => .inr fun gauge other slot _ _ => ?_, fun same => .inr fun gauge other slot _ _ => ?_⟩
  · by_cases own : other = producer ∧ slot = consumer
    · obtain ⟨rfl, rfl⟩ := own
      cases gauge with
      | bytes => exact .inr ⟨by simpa [Gauge.read, same] using forward, by simpa [Gauge.read, Gauge.own] using reached⟩
      | messages => exact .inl (by simp [Gauge.read])
    · rw [State.setCursor_cursor_of_ne _ _ _ _ _ _ (by tauto)]
      exact .inl rfl
  · by_cases own : other = producer ∧ slot = consumer
    · obtain ⟨rfl, rfl⟩ := own
      cases gauge with
      | bytes => exact .inl (by simp [Gauge.read])
      | messages =>
          refine .inr ⟨by simpa [Gauge.read, same] using counted, ?_⟩
          simpa [Gauge.read, Gauge.own, messages] using inside
    · rw [State.setCursor_cursor_of_ne _ _ _ _ _ _ (by tauto)]
      exact .inl rfl

/-- A receiver that keeps to the frame boundaries. -/
theorem landmarks (setup : Setup n m K) (size : Option UInt32) (client : K) (consumer : Fin m) (token : Nat) :
    LandmarkContract setup client consumer token (rxContract setup size client) (Moves client) (marks setup size) where
  toReceiverContract := receiver setup size client
  place producer _ _ := lasting fun grows place => place.grows (grows.frames producer)
  seen _ _ := lasting fun grows seen => seen.grows grows
  shows _ _ := lasting fun grows shows => shows.grows grows
  tells _ _ _ := lasting fun grows tells => tells.grows grows
  aligned _ := lasting fun grows aligned => aligned.grows grows.frames
  clock _ := lasting fun grows past => past.trans grows.clock
  visible ready producer := ready.knows.visible producer
  found {first second producer bound fixed} positions turns ready rely later registered behind places aligned seen sized := by
    intro message low inside
    have registered' : (second.client client).registration = some (consumer, token) := by
      rw [rely.1.same]
      exact registered
    have proper := frameLen_pos message.payloadLen (hasFlag message.word FLAG_HAS_EXPIRY)
    have before : positions producer < bound := (Nat.lt_add_of_pos_right proper).trans_le inside
    exact ready.knows.found later.knows (fun published => published.grows rely.2) (live ready registered)
      (live later registered') (rely.1.registered consumer token registered).2.1 behind places aligned seen sized low before
  turn ready shows aligned next := by
    obtain ⟨reaches, moved⟩ := ready.knows.turn shows aligned (next trivial)
    exact ⟨reaches, moved⟩
  delivers {state message count index} ready registered behind shows same := by
    obtain ⟨frame, published, shown⟩ := shows
    have complete := ready.knows.complete (live ready registered) published (shown.position ▸ behind)
    refine ⟨frame, same trivial ▸ published, shown, ?_⟩
    rw [complete.payload, State.payload, shown.payloadPosition, shown.payloadLen]
  expires ready shows overdue past same := by
    obtain ⟨frame, published, shown⟩ := shows
    have expires : frame.hasExpiry = true := shown.hasExpiry ▸ overdue.expires
    exact ⟨frame, same trivial ▸ published, shown, expires, shown.expiresAt expires ▸ overdue.passed, past⟩
  publishes before forward := publishes before (forward trivial)

theorem lands (setup : Setup n m K) (size : Option UInt32) (client : K) :
    Lands setup client (rxContract setup size client) (marks setup size) where
  seen _ _ := ⟨0, ⟨Nat.zero_le _, (Circular.offset_zero _ _).symm⟩, Nat.zero_le _⟩
  begun _ begun :=
    have starts := Published.begun begun
    ⟨starts.1, starts.2.1, fun _ => starts.2.2⟩

end Contract

/-- A subscriber gives a received message back before it receives again, and it asks for the payload size of the
channel. -/
def Tidy (size : Option UInt32) (client : Client n m) (last : RxResult n) : Request n → Prop
  | .tryRecv fixed => (∀ bytes, fixed = some bytes → size = some bytes) ∧ last.pending = none ∧ client.held = []
  | .tryRecvChecked fixed => (∀ bytes, fixed = some bytes → size = some bytes) ∧ last.pending = none ∧ client.held = []
  | .tryRecvRun _ => last.pending = none ∧ client.held = []
  | .release message => last.pending = some message
  | .consume message => last.pending = some message
  | .flush => last.pending = none
  | .skipToLatest .. => last.pending = none
  | _ => True

/-- The same condition for the start of a call. -/
def MayStart (size : Option UInt32) (state : State n m K) : Thread n K → Label n m → Request n → Prop
  | .client client, .receiver _ _ last, request => Tidy size (state.client client) last request
  | _, _, _ => True

section Runs

variable {setup : Setup n m K} {size : Option UInt32} {client : K} {consumer : Fin m} {token : Nat} {state : State n m K}

omit [DecidableEq K] in
/-- The message of the last receive shows the next frame. -/
theorem pending_shows {last : RxResult n} {message : Message n} (known : Published.Known setup size state)
    (held : FollowsLabel setup (marks setup size) client (.receiver consumer token last) state)
    (pending : last.pending = some message) :
    (marks setup size).shows state message ((state.client client).rx.readMessageSequences message.producerId) ∧
      (state.client client).rx.readPositions message.producerId < message.nextPosition := by
  obtain ⟨view, entry, synced, rests⟩ := held
  obtain rfl : state.rxView client consumer = view := entry.receives.holds
  have next := rests.next message (RxResult.eq_of_pending pending)
  obtain ⟨lent, -⟩ := rests.lent trivial message pending
  obtain ⟨count, frame, published, shown⟩ := entry.facts.lent message (by rw [lent]; exact List.mem_singleton_self _)
  have place : Published.Place message.producerId frame.start _ state :=
    shown.position ▸ next.1 ▸ entry.facts.read message.producerId
  have same := known.count_eq published.1 place
  refine ⟨⟨frame, ?_, shown⟩, ?_⟩
  · have counted : (state.client client).rx.readMessageSequences message.producerId = count := same
    rw [counted]
    exact published
  · have read : message.position = (state.client client).rx.readPositions message.producerId := next.1
    rw [← read, shown.position, shown.nextPosition]
    exact frame.start_lt_stop

theorem sound (reliable : setup.mode.dropOldest = false) :
    (discipline setup size).Sound (system setup) (MayStart size) where
  lawful := lawful setup size
  compatible := compatible
  start {thread label request program state} begins may ready rests held := by
    match thread, label, begins with
    | .producer producer, label, begins =>
        exact Safe.of_action fun _ action => ⟨trivial, action, fun _ same => by cases same⟩
    | .environment, label, begins =>
        exact Safe.of_action fun _ action => ⟨trivial, action, fun _ same => by cases same⟩
    | .client client, label, begins =>
        refine client_started (landmarks setup size client) (receiver setup size client) (lands setup size client) reliable
          begins (fun consumer token last same => ?_) rests held
        subst same
        have tidy : Tidy size (state.client client) last request := may
        cases request with
        | tryRecv fixed => exact ⟨tidy.1, fun _ => tidy.2⟩
        | tryRecvChecked fixed => exact ⟨tidy.1, fun _ => tidy.2⟩
        | tryRecvRun cap => exact ⟨fun _ same => (by cases same), fun _ => tidy⟩
        | release message =>
            obtain ⟨shows, forward⟩ := pending_shows ready.knows held tidy
            exact ⟨shows, fun _ => ⟨tidy, forward.le⟩⟩
        | consume message =>
            obtain ⟨shows, forward⟩ := pending_shows ready.knows held tidy
            exact ⟨shows, forward, fun _ => tidy⟩
        | flush => exact fun _ => tidy
        | skipToLatest producer fixed => exact fun _ => tidy
        | _ => trivial

/-- The processes live. The producers commit their open claims once each, in batches of small frames, write inside
them and do not lap them. Claims have the payload size of the channel, and the subscribers are tidy. -/
structure Prudent (setup : Setup n m K) (size : Option UInt32)
    (config : Concurrent.Config (State n m K) (Thread n K) (Label n m)) (event : Event (Thread n K) (Request n)) :
    Prop where
  acts : Membership.Acts setup config event
  commits : ∀ producer, Contents.Admitted setup producer config event
  fits : ∀ producer request, event = .start (.producer producer) request → ClaimsFit size request
  tidy : ∀ client request, event = .start (.client client) request → ∀ consumer token last,
    config.thread (.client client) = .ret (.receiver consumer token last) →
      Tidy size (config.shared.client client) last request

variable {before after config : Concurrent.Config (State n m K) (Thread n K) (Label n m)}
  {event : Event (Thread n K) (Request n)}
  {admits : Concurrent.Config (State n m K) (Thread n K) (Label n m) → Event (Thread n K) (Request n) → Prop}

/-- Every step lets the rings grow when the producers commit their claims once. -/
theorem grows_of_commits (acts : ∀ {config event}, admits config event → Membership.Acts setup config event)
    (order : ∀ producer {config event}, admits config event →
      CommitOrder.Admitted setup producer config event ∧ CommitOrder.Small producer event)
    (run : (system setup).Run admits initial before) (admitted : admits before event)
    (taken : (system setup).step before event = some after) : Published.Grows before.shared after.shared := by
  have commits (producer : Fin n) : Commits producer before.shared :=
    CommitOrder.of_run (run.weaken fun _ _ passes => order producer passes)
  have visible (producer : Fin n) := visible_le acts run admitted taken (commits producer)
  have settled (producer : Fin n) := Settling.of_step (order producer) run admitted taken
  cases event with
  | start thread request =>
      obtain ⟨-, -, -, -, same, -⟩ := Concurrent.System.step_start taken
      rw [same]
      exact .refl before.shared
  | act thread =>
      have step := Membership.step_of_run acts run admitted taken
      refine ⟨fun producer => ?_, visible, settled, ?_⟩
      · match thread, step with
        | .producer actor, step =>
            by_cases own : producer = actor
            · exact own ▸ step.grows
            · rw [(step.others producer own).1]
        | .client client, step => rw [owned_frames (step.owned producer)]
        | .environment, step => rw [step.same]
      · match thread, step with
        | .producer actor, step => exact step.clock.ge
        | .client client, step => exact step.clock.ge
        | .environment, step => exact step.clock

/-- Every step of a prudent run lets the rings grow. -/
theorem grows_of_step (run : (system setup).Run (Prudent setup size) initial before)
    (admitted : Prudent setup size before event) (taken : (system setup).step before event = some after) :
    Published.Grows before.shared after.shared :=
  grows_of_commits Prudent.acts (fun producer _ _ passes => (passes.commits producer).1) run admitted taken

theorem begun (setup : Setup n m K) (size : Option UInt32) : (discipline setup size).Initial initial := by
  refine ⟨trivial, fun thread => ?_⟩
  cases thread <;> exact fun _ _ _ => trivial

theorem respects {config : Concurrent.Config (State n m K) (Thread n K) (Label n m)}
    {event : Event (Thread n K) (Request n)} (admitted : Prudent setup size config event) :
    (discipline setup size).Admits (MayStart size) config event := by
  match event, admitted.acts with
  | .act (.producer _), _ => exact trivial
  | .act (.client _), lives => exact lives
  | .act .environment, _ => exact trivial
  | .start thread request, _ =>
      intro label rests
      match thread, label with
      | .client client, .receiver consumer token last => exact admitted.tidy client request rfl consumer token last rests
      | .producer _, _ => exact trivial
      | .environment, _ => exact trivial
      | .client _, .transmitter _ => exact trivial
      | .client _, .unsubscribed => exact trivial
      | .client _, .waiting _ _ => exact trivial
      | .client _, .receiving _ _ _ => exact trivial
      | .client _, .collecting _ _ _ _ => exact trivial
      | .client _, .closing _ _ => exact trivial
      | .client _, .environment => exact trivial

theorem knows (reliable : setup.mode.dropOldest = false) : (discipline setup size).Knows (system setup) (MayStart size)
    (fun config event => Prudent setup size config event ∧ Flow.Admitted setup config event) initial where
  respects admitted := respects admitted.1
  known run := by
    have prudent := run.weaken fun _ _ admitted => admitted.1
    exact ⟨⟨Membership.of_run Prudent.acts prudent,
        fun producer => CommitOrder.of_run (prudent.weaken fun _ _ admitted => (admitted.commits producer).1),
        fun producer => Contents.of_run (prudent.weaken fun _ _ admitted => admitted.commits producer)⟩,
      Flow.of_run reliable (run.weaken fun _ _ admitted => admitted.2),
      fun producer => fits_of_run Prudent.acts (fun admitted => admitted.fits _ _ rfl) prudent producer⟩
  action run admitted taken :=
    have prudent := run.weaken fun _ _ admitted => admitted.1
    ⟨Membership.step_of_run Prudent.acts prudent admitted.1 taken, grows_of_step prudent admitted.1 taken⟩
  rests run may rests :=
    Membership.label_of_run Prudent.acts (run.weaken fun _ _ admitted => admitted.1) may rests

section Narrow

variable (reliable : setup.mode.dropOldest = false)

include reliable

/-- In a prudent run the subscribers publish their progress in order. -/
theorem ordered_step (run : (system setup).Run
      (fun config event => Prudent setup size config event ∧ Flow.Admitted setup config event) initial before)
    (admitted : Prudent setup size before event) (taken : (system setup).step before event = some after) :
    Prudent setup size before event ∧ Flow.Admitted setup before event :=
  (sound reliable).narrow (begun setup size) (knows reliable) respects
    (fun run admitted taken =>
      have prudent := run.weaken fun _ _ admitted => admitted.1
      ⟨Membership.step_of_run Prudent.acts prudent admitted taken, grows_of_step prudent admitted taken⟩)
    (fun {before after event} _ admitted taken guaranteed => ⟨admitted, admitted.acts, fun client other same step => by
      subst same
      obtain rfl : after = other := Option.some_inj.mp (taken.symm.trans step)
      exact (guaranteed (.client client) rfl).2 client rfl⟩) run admitted taken

theorem ordered_run (run : (system setup).Run (Prudent setup size) initial config) : (system setup).Run
    (fun config event => Prudent setup size config event ∧ Flow.Admitted setup config event) initial config := by
  induction run with
  | refl => exact .refl
  | step event _ admitted taken ih => exact .step event ih (ordered_step reliable ih admitted taken) taken

theorem known_of_run (run : (system setup).Run (Prudent setup size) initial config) : Published.Known setup size config.shared :=
  (knows reliable).known (ordered_run reliable run)

/-- A living subscriber keeps to its label. -/
theorem label_of_run (run : (system setup).Run (Prudent setup size) initial config) {label : Label n m}
    (lives : config.shared.lives setup client) (rests : config.thread (.client client) = .ret label) :
    FollowsLabel setup (marks setup size) client label config.shared :=
  have may : (discipline setup size).may (.client client) config.shared := lives
  (sound reliable).label (begun setup size) (knows reliable) (ordered_run reliable run) may rests

end Narrow

end Runs

end Delivery

/-- The position that a subscriber has reached in a ring: a message of its last receive counts as passed. -/
def Client.reached (client : Client n m) (last : RxResult n) : Fin n → Nat :=
  last.pending.elim client.rx.readPositions fun message =>
    Function.update client.rx.readPositions message.producerId message.nextPosition

/-- The next sequence of the channel for a subscriber of an ordered mode. -/
def Client.frontier (client : Client n m) (last : RxResult n) : Nat :=
  last.pending.elim client.rx.expectedSequence fun message => message.sequence + 1

section Histories

variable [DecidableEq K] {setup : Setup n m K} {size : Option UInt32}
  {config : Concurrent.Config (State n m K) (Thread n K) (Label n m)} {client : K} {consumer : Fin m} {token : Nat}
  {last : RxResult n} {state : State n m K}

omit [DecidableEq K] in
/-- The frames behind a resting subscriber end at its position, and the counters of its next receive point there. -/
theorem Delivery.behind (known : Published.Known setup size state)
    (held : FollowsLabel setup (Delivery.marks setup size) client (.receiver consumer token last) state) :
    ∃ turns : Turns n, turns.counts = (state.client client).told ∧ Published.Aligned setup turns state ∧
      (setup.mode.ordered = true → turns.expected = (state.client client).frontier last) ∧
      ∀ producer, Published.Place producer ((state.client client).reached last producer) (turns.counts producer) state := by
  have shown (message : Message n) (pending : last.pending = some message) :=
    (Delivery.pending_shows known held pending).1
  obtain ⟨view, entry, synced, rests⟩ := held
  obtain rfl : state.rxView client consumer = view := entry.receives.holds
  cases pending : last.pending with
  | none =>
      have told : (state.client client).told = (state.client client).rx.readMessageSequences :=
        funext (rests.told trivial pending)
      refine ⟨(state.client client).rx.turns, told.symm, entry.facts.aligned, fun _ => ?_, fun producer => ?_⟩
      · simp [Client.frontier, pending, Rx.turns]
      · have place : Published.Place producer ((state.client client).rx.readPositions producer)
          ((state.client client).rx.readMessageSequences producer) state := entry.facts.read producer
        simpa [Client.reached, pending, Rx.turns] using place
  | some message =>
      have shows : Published.Shows message ((state.client client).rx.turns.counts message.producerId) state :=
        shown message pending
      have next := rests.next message (RxResult.eq_of_pending pending)
      have told : (state.client client).told = _ := funext (rests.lent trivial message pending).2
      obtain ⟨reaches, aligned⟩ := known.turn shows entry.facts.aligned next.2
      refine ⟨(state.client client).rx.turns.advance setup message, ?_, aligned, fun ordered => ?_, fun producer => ?_⟩
      · rw [told, RxView.setRx_rx, ← Rx.advance_turns]
        rfl
      · simp [Client.frontier, pending, Turns.advance, ordered]
      · rw [Turns.advance_counts]
        by_cases own : producer = message.producerId
        · subst own
          simpa [Client.reached, pending] using reaches
        · have place : Published.Place producer ((state.client client).rx.readPositions producer)
            ((state.client client).rx.readMessageSequences producer) state := entry.facts.read producer
          simpa [Client.reached, pending, own, Rx.turns] using place

omit [DecidableEq K] in
theorem Delivery.told (held : FollowsLabel setup (Delivery.marks setup size) client (.receiver consumer token last) state)
    {producer : Fin n} {index : Nat} {passage : Passage n}
    (found : ((state.client client).passed producer)[index]? = some passage) :
    Published.Tells producer ((state.client client).registeredAt producer + index) passage state := by
  obtain ⟨view, entry, -, -⟩ := held
  obtain rfl : state.rxView client consumer = view := entry.receives.holds
  exact entry.facts.told producer index passage found

end Histories

section Runs

/-- The requests of a tidy subscriber of a schedule. -/
def asksTidily (client : Client 1 1) (last : RxResult 1) : Request 1 → Bool
  | .tryRecv none => last.pending.isNone && client.held.isEmpty
  | .release message => last.pending == some message
  | _ => false

/-- The events of a schedule with one ring that a prudent run admits. -/
def prudently (setup : Setup 1 1 Unit) (config : Concurrent.Config (State 1 1 Unit) (Thread 1 Unit) (Label 1 1)) :
    Event (Thread 1 Unit) (Request 1) → Bool
  | .start (.producer _) request => (match request with
      | .claim _ _ _ => true
      | .write claimed _ _ => (config.shared.tx sole).reservations.any fun reservation => reservation.claimed == claimed
      | .commit claim => (config.shared.tx sole).reservations.contains ⟨.single claim, 0⟩
      | _ => false)
  | .start (.client _) request => (match (config.thread (.client ())).value with
      | some (.receiver _ _ last) => asksTidily (config.shared.client ()) last request
      | _ => true)
  | .start .environment _ => true
  | .act (.producer producer) => ((system setup).step config (.act (.producer producer))).all fun after =>
      (after.shared.tx sole).reservations.all fun reservation =>
        (after.shared.tx sole).producerPos ≤ reservation.claimed.start + setup.capacity
  | .act (.client _) => config.shared.isRegisteredProcessAlive 1 1
  | .act .environment => true

theorem prudent_of_prudently (setup : Setup 1 1 Unit) (pid : setup.pid () = 1) (start : setup.processStart () = 1)
    (config : Concurrent.Config (State 1 1 Unit) (Thread 1 Unit) (Label 1 1))
    (event : Event (Thread 1 Unit) (Request 1)) (passes : prudently setup config event = true) :
    Delivery.Prudent setup none config event := by
  have acts : Membership.Acts setup config event := by
    match event with
    | .start _ _ => trivial
    | .act (.producer _) => trivial
    | .act (.client ()) =>
        rw [Membership.Acts, State.lives, pid, start]
        exact passes
    | .act .environment => trivial
  refine ⟨acts, fun producer => ⟨⟨⟨acts, ?_⟩, ?_⟩, ?_, ?_⟩, ?_, ?_⟩
  · rintro thread request rfl
    rw [Subsingleton.elim producer sole]
    cases thread with
    | producer other =>
        cases request with
        | commit claim => exact fun _ => ⟨0, List.contains_iff_mem.mp passes⟩
        | commitBatch batch => cases passes
        | createTx => cases passes
        | _ => trivial
    | client other => trivial
    | environment => trivial
  · rintro thread request rfl
    cases thread with
    | producer other =>
        cases request with
        | commitBatch batch => cases passes
        | _ => trivial
    | client other => trivial
    | environment => trivial
  · rintro thread request rfl
    rw [Subsingleton.elim producer sole]
    cases thread with
    | producer other =>
        cases request with
        | write claimed offset data =>
            intro _
            obtain ⟨reservation, member, same⟩ := List.any_eq_true.mp passes
            exact ⟨reservation, member, by simpa using same⟩
        | _ => trivial
    | client other => trivial
    | environment => trivial
  · rintro after rfl taken
    obtain rfl := Subsingleton.elim producer sole
    simp only [prudently] at passes
    rw [taken] at passes
    simpa [Near] using passes
  · rintro other request rfl
    cases request with
    | claim payloadLen expiresAt hasExpiry => exact fun _ same => by cases same
    | claimBatch payloadLen maxFrames expiresAt hasExpiry => exact fun _ same => by cases same
    | _ => trivial
  · rintro client request rfl consumer token last rests
    have value : (config.thread (.client ())).value = some (.receiver consumer token last) := by rw [rests]; rfl
    simp only [prudently, value] at passes
    cases request with
    | tryRecv fixed =>
        cases fixed with
        | none =>
            simp only [asksTidily, Bool.and_eq_true, Option.isNone_iff_eq_none, List.isEmpty_iff] at passes
            exact ⟨fun _ same => (by cases same), passes⟩
        | some bytes => cases passes
    | release message => exact beq_iff_eq.mp passes
    | _ => trivial

end Runs

end Salias.SharedHybridMpsc
