import Salias.Channel.RetentionSafety

/-
A subscriber of the latest mode is lent what the producers have committed: it looks at a ring only under a lease, so no
frame is overwritten while it is read.
-/

namespace Salias.SharedHybridMpsc

open Concurrent Salias.Frame ConsumerRegistration

variable {n m : Nat} {K : Type}

/-- The same passage under another sequence. -/
def Passage.resequence (sequence : Nat) : Passage n → Passage n
  | .delivered message payload => .delivered {message with sequence := sequence} payload
  | .expired message now => .expired {message with sequence := sequence} now

namespace Borrowing

/-- A message shows a published frame. A receiver extends the sequence from the low bits of the header. -/
def Shown (message : Message n) (state : State n m K) : Prop :=
  ∃ count sequence, Published.Shows {message with sequence := sequence} count state

/-- A passage tells a published frame with its committed payload, or after its deadline. -/
def Genuine (producer : Fin n) (passage : Passage n) (state : State n m K) : Prop :=
  ∃ index sequence, Published.Tells producer index (passage.resequence sequence) state

/-- A position is the end of some frames. -/
def Placed (producer : Fin n) (position : Nat) (state : State n m K) : Prop :=
  ∃ count, Published.Place producer position count state

/-- A subscriber reads from frame boundaries, and what it has been lent is genuine. -/
structure Stands (client : K) (state : State n m K) : Prop where
  read : ∀ producer, Placed producer ((state.client client).rx.readPositions producer) state
  held : ∀ message ∈ (state.client client).held, Shown message state
  told : ∀ producer, ∀ passage ∈ (state.client client).passed producer, Genuine producer passage state

/-- An action moves the members of a subscriber to some goals only and adds nothing to its history. -/
structure Moves (client : K) (goal : Fin n → Nat → Prop) (before after : State n m K) : Prop where
  read : ∀ producer, (after.client client).rx.readPositions producer = (before.client client).rx.readPositions producer ∨
    goal producer ((after.client client).rx.readPositions producer)
  held : ∀ message ∈ (after.client client).held, message ∈ (before.client client).held
  told : ∀ producer, ∀ passage ∈ (after.client client).passed producer,
    passage ∈ (before.client client).passed producer

/-- What earlier proofs know of every state. -/
structure Known (setup : Setup n m K) (size : Option UInt32) (state : State n m K) : Prop extends
    Published.Framed setup state where
  retains : ∀ producer, Retains setup producer state
  fits : ∀ producer, ∀ frame ∈ (state.ring producer).frames, frame.Fits size

section Growth

variable {client : K} {producer : Fin n} {position : Nat} {message : Message n} {passage : Passage n}
  {goal : Fin n → Nat → Prop} {before after state : State n m K}

theorem Shown.grows (shown : Shown message before) (grows : Published.Grows before after) : Shown message after := by
  obtain ⟨count, sequence, shows⟩ := shown
  exact ⟨count, sequence, shows.grows grows⟩

theorem Genuine.grows (genuine : Genuine producer passage before) (grows : Published.Grows before after) :
    Genuine producer passage after := by
  obtain ⟨index, sequence, tells⟩ := genuine
  exact ⟨index, sequence, tells.grows grows⟩

theorem Placed.grows (placed : Placed producer position before) (grows : Published.Grows before after) :
    Placed producer position after := by
  obtain ⟨count, place⟩ := placed
  exact ⟨count, place.grows (grows.frames producer)⟩

theorem placed_zero (producer : Fin n) (state : State n m K) : Placed producer 0 state :=
  ⟨0, Nat.zero_le _, (Circular.offset_zero _ _).symm⟩

/-- A message ends at a frame boundary. -/
theorem Shown.placed {setup : Setup n m K} (known : Published.Framed setup state) (shown : Shown message state) :
    Placed message.producerId message.nextPosition state := by
  obtain ⟨count, sequence, frame, published, shows⟩ := shown
  have place := (known.bounds published.1).2
  rw [← shows.nextPosition] at place
  exact ⟨_, place⟩

/-- The history of a subscriber stays genuine when only genuine passages enter it. -/
theorem Stands.change (stands : Stands client before) (grows : Published.Grows before after)
    (read : ∀ producer, (after.client client).rx.readPositions producer = (before.client client).rx.readPositions producer ∨
      Placed producer ((after.client client).rx.readPositions producer) before)
    (held : ∀ message ∈ (after.client client).held, message ∈ (before.client client).held ∨ Shown message before)
    (told : ∀ producer, ∀ passage ∈ (after.client client).passed producer,
      passage ∈ (before.client client).passed producer ∨ Genuine producer passage before) : Stands client after where
  read producer := by
    rcases read producer with same | placed
    · rw [same]
      exact (stands.read producer).grows grows
    · exact placed.grows grows
  held message member := ((held message member).elim (stands.held message) id).grows grows
  told producer passage member := ((told producer passage member).elim (stands.told producer passage) id).grows grows

theorem Stands.of_same (stands : Stands client before) (grows : Published.Grows before after)
    (same : after.client client = before.client client) : Stands client after :=
  stands.change grows (fun _ => .inl (by rw [same])) (fun _ member => .inl (same ▸ member))
    fun _ _ member => .inl (same ▸ member)

theorem Moves.of_same (same : after.client client = before.client client) : Moves client goal before after :=
  ⟨fun _ => .inl (by rw [same]), fun _ member => same ▸ member, fun _ _ member => same ▸ member⟩

theorem Moves.stands (moves : Moves client goal before after) (stands : Stands client before)
    (grows : Published.Grows before after) (places : ∀ producer position, goal producer position →
      Placed producer position before) : Stands client after :=
  stands.change grows (fun producer => (moves.read producer).imp_right (places producer _))
    (fun message member => .inl (moves.held message member)) fun producer passage member =>
      .inl (moves.told producer passage member)

end Growth

variable [DecidableEq K] {setup : Setup n m K} {size : Option UInt32} {client : K} {consumer : Fin m} {token : Nat}
  {producer : Fin n} {state before after : State n m K} {α β : Type}

/-- A receive in progress asks for the payload size of the channel and has read the clock at most once. -/
def Asking (size : Option UInt32) : Label n m → State n m K → Prop
  | .receiving _ _ receiving => fun state =>
      (∀ bytes, receiving.fixed = some bytes → size = some bytes) ∧ Clocked receiving.now state
  | .collecting _ _ _ now => Clocked now
  | _ => fun _ => True

/-- The subscribers stand while the rings retain. -/
def discipline (setup : Setup n m K) (size : Option UInt32) : Discipline (State n m K) (Thread n K) (Label n m) where
  invariant state := ∀ client, Stands client state
  known := Known setup size
  action thread before after := Retention.Guarded setup thread before after ∧ Retention.Acted setup thread before after
  rests := (Membership.discipline setup).label
  may := (Membership.discipline setup).may
  rely
    | .client client => fun before after => Retention.Raised client before after ∧ Published.Grows before after
    | _ => fun _ _ => True
  guarantee thread before after := Retention.Guarded setup thread before after ∧ Published.Grows before after
  label
    | .client _ => Asking size
    | _ => fun _ _ => True

abbrev rxContract (setup : Setup n m K) (size : Option UInt32) (client : K) : Contract (State n m K) :=
  (discipline setup size).contract (.client client)

section Discipline

theorem lawful (setup : Setup n m K) (size : Option UInt32) (thread : Thread n K) :
    ((discipline setup size).contract thread).Lawful where
  refl state := match thread with
    | .producer _ => trivial
    | .client client => ⟨.refl client state, .refl state⟩
    | .environment => trivial
  trans {_ _ _} one two := match thread with
    | .producer _ => trivial
    | .client _ => ⟨one.1.trans two.1, one.2.trans two.2⟩
    | .environment => trivial
  idle state := ⟨.refl setup thread state, .refl state⟩
  stays {_ _} step later := match thread with
    | .producer _ => trivial
    | .client _ => RxRely.lives step.1.toRxRely later
    | .environment => trivial

/-- The states of this discipline are states of the retention. -/
theorem retaining {thread : Thread n K} (ready : ((discipline setup size).contract thread).Ready state) :
    ((Retention.discipline setup).contract thread).Ready state :=
  ⟨ready.knows.retains, ready.knows.toFramed, ready.may⟩

theorem compatible {actor observer : Thread n K} (different : actor ≠ observer)
    (ready : ((discipline setup size).contract actor).Ready before)
    (later : ((discipline setup size).contract observer).Ready after)
    (guaranteed : (discipline setup size).guarantee actor before after) :
    (discipline setup size).rely observer before after := by
  match observer with
  | .client client =>
      have leaves : (Retention.discipline setup).rely (.client client) before after :=
        Retention.compatible different (retaining ready) (retaining later) guaranteed.1
      exact ⟨leaves, guaranteed.2⟩
  | .producer _ => trivial
  | .environment => trivial

/-- A thread may act when it leaves the subscribers standing. -/
theorem stands_acts {thread : Thread n K} (ready : ((discipline setup size).contract thread).Ready before)
    (action : (discipline setup size).action thread before after)
    (others : ∀ client, thread ≠ .client client → after.client client = before.client client)
    (own : ∀ client, thread = .client client → Stands client after) :
    (discipline setup size).invariant after ∧ (discipline setup size).guarantee thread before after := by
  refine ⟨fun client => ?_, action.1, action.2.grows⟩
  by_cases same : thread = .client client
  · exact own client same
  · exact (ready.keeps client).of_same action.2.grows (others client same)

theorem own_acts (ready : (rxContract setup size client).Ready before)
    (action : (rxContract setup size client).action before after) (own : Stands client after) :
    (rxContract setup size client).invariant after ∧ (rxContract setup size client).guarantee before after := by
  have step : RxStep setup client before after := action.1.step
  refine stands_acts ready action (fun other apart => step.clients other fun same => apart (by rw [same])) ?_
  intro other same
  cases same
  exact own

/-- The producers and the environment lend nothing. -/
theorem others_act {thread : Thread n K} (apart : ∀ client, thread ≠ .client client)
    (ready : ((discipline setup size).contract thread).Ready before)
    (action : (discipline setup size).action thread before after) :
    (discipline setup size).invariant after ∧ (discipline setup size).guarantee thread before after := by
  refine stands_acts ready action (fun other _ => ?_) fun client same => absurd same (apart client)
  match thread, action.1.step with
  | .producer _, step => rw [step.client]
  | .client client, _ => exact absurd rfl (apart client)
  | .environment, step => rw [step.same]

/-- What the growth of the rings keeps lasts. -/
theorem lasting {fact : State n m K → Prop}
    (grows : ∀ {before after}, Published.Grows before after → fact before → fact after) :
    Lasting (rxContract setup size client) fact :=
  ⟨fun rely _ held => grows rely.2 held, fun _ action held => grows action.2.grows held⟩

theorem clocked (now : Option Nat) : Lasting (rxContract setup size client) (Clocked now) :=
  lasting fun grows held reading same => (held reading same).trans grows.clock

/-- A receive in progress stays as it is. -/
theorem asking (label : Label n m) : Lasting (rxContract setup size client) (Asking size label) :=
  lasting fun grows held => by
    cases label with
    | receiving consumer token receiving => exact ⟨held.1, fun reading same => (held.2 reading same).trans grows.clock⟩
    | collecting consumer token cap now => exact fun reading same => (held reading same).trans grows.clock
    | _ => trivial

theorem placed (setup : Setup n m K) (size : Option UInt32) (client : K) (producer : Fin n) (position : Nat) :
    Lasting (rxContract setup size client) (Placed producer position) :=
  lasting fun grows held => held.grows grows

theorem seen (producer : Fin n) (bound : Nat) : Lasting (rxContract setup size client) (Published.Seen producer bound) :=
  lasting fun grows held => held.grows grows

theorem shown (setup : Setup n m K) (size : Option UInt32) (client : K) (message : Message n) :
    Lasting (rxContract setup size client) (Shown message) :=
  lasting fun grows held => held.grows grows

end Discipline

section Rules

variable {P : β → State n m K → Prop} {Q : α → State n m K → Prop} {fact : State n m K → Prop}
  {goal : Fin n → Nat → Prop} {program : Prog (State n m K) α} {rest : α → Prog (State n m K) β}

/-- What the retention proves of a program holds as well. -/
theorem lend {R : α → State n m K → Prop} (safe : Safe (rxContract setup size client) R program state)
    (lender : Safe (Retention.rxContract setup client) Q program state) :
    Safe (rxContract setup size client) (fun value current => R value current ∧ Q value current) program state :=
  safe.borrow lender (fun rely => rely.1) retaining fun action => action.2

/-- A program that moves to frame boundaries keeps a lasting fact. -/
theorem moves_safe (moves : Each (Moves client goal) program) (lasts : Lasting (rxContract setup size client) fact)
    (places : ∀ {current}, (rxContract setup size client).Ready current → fact current → ∀ producer position,
      goal producer position → Placed producer position current) (known : fact state) :
    Safe (rxContract setup size client) (fun _ => fact) program state :=
  Safe.of_each moves
    (fun ready action moved held => by
      have stands := moved.stands (ready.keeps client) action.2.grows (places ready held)
      obtain ⟨kept, guaranteed⟩ := own_acts ready action stands
      exact ⟨kept, guaranteed, lasts.action ready action held⟩)
    (fun rely ready held => lasts.rely rely ready held) known

/-- A program that leaves the members and the history alone. -/
theorem still_safe (still : Each (Moves client fun _ _ => False) program)
    (lasts : Lasting (rxContract setup size client) fact) (known : fact state) :
    Safe (rxContract setup size client) (fun _ => fact) program state :=
  moves_safe still lasts (fun _ _ _ _ none => False.elim none) known

/-- A step of a longer program, with what the retention proves of it. -/
theorem moves_bind (moves : Each (Moves client goal) program) (lasts : Lasting (rxContract setup size client) fact)
    (places : ∀ {current}, (rxContract setup size client).Ready current → fact current → ∀ producer position,
      goal producer position → Placed producer position current) (known : fact state)
    (lender : Safe (Retention.rxContract setup client) Q program state)
    (continues : ∀ value current, fact current → Q value current →
      Safe (rxContract setup size client) P (rest value) current) :
    Safe (rxContract setup size client) P (program.bind rest) state :=
  Safe.bind (lawful setup size (.client client)) (lend (moves_safe moves lasts places known) lender)
    fun value current _ held => continues value current held.1 held.2

/-- A step that leaves the members and the history alone. -/
theorem still_bind (still : Each (Moves client fun _ _ => False) program)
    (lasts : Lasting (rxContract setup size client) fact) (known : fact state)
    (lender : Safe (Retention.rxContract setup client) Q program state)
    (continues : ∀ value current, fact current → Q value current →
      Safe (rxContract setup size client) P (rest value) current) :
    Safe (rxContract setup size client) P (program.bind rest) state :=
  Safe.bind (lawful setup size (.client client)) (lend (still_safe still lasts known) lender)
    fun value current _ held => continues value current held.1 held.2

/-- A read of a registered subscriber. -/
theorem entered_bind (reads : Reads program) (lasts : Lasting (rxContract setup size client) fact) (known : fact state)
    (entry : Membership.Registered client consumer token state)
    (continues : ∀ value current, fact current → Membership.Registered client consumer token current →
      Safe (rxContract setup size client) P (rest value) current) :
    Safe (rxContract setup size client) P (program.bind rest) state := by
  have lender : Safe (Retention.rxContract setup client) (fun _ => Membership.Registered client consumer token) program
      state :=
    Retention.eases_safe (keeps_reads client consumer reads) (Retention.eases_reads consumer reads) entry
  exact still_bind (reads.each fun _ => .of_same rfl) lasts known lender continues

end Rules

section Moves

variable {goal : Fin n → Nat → Prop}

omit [DecidableEq K] in
theorem Moves.of_members (change : Rx n → Rx n)
    (same : after.client client = {before.client client with rx := change (before.client client).rx})
    (read : ∀ rx producer, (change rx).readPositions producer = rx.readPositions producer ∨
      goal producer ((change rx).readPositions producer)) : Moves client goal before after where
  read producer := by
    rw [same]
    exact read _ producer
  held message member := by
    rw [same] at member
    exact member
  told producer passage member := by
    rw [same] at member
    exact member

omit [DecidableEq K] in
theorem moves_reads {program : Prog (State n m K) α} (reads : Reads program) : Each (Moves client goal) program :=
  reads.each fun _ => .of_same rfl

theorem moves_updateRx (change : Rx n → Rx n) (read : ∀ rx producer,
      (change rx).readPositions producer = rx.readPositions producer ∨
      goal producer ((change rx).readPositions producer)) :
    Each (Moves client goal) (updateRx client change : Prog (State n m K) Unit) :=
  .store fun _ => .of_members change (by simp [State.setRx]) read

omit [DecidableEq K] in
theorem moves_storeProgress (producer : Fin n) (change : ConsumerSharedState → ConsumerSharedState) :
    Each (Moves client goal) (storeProgress producer consumer change : Prog (State n m K) Unit) :=
  .store fun _ => .of_same rfl

/-- A member moves to one position. -/
theorem moved_update (positions : Fin n → Nat) (producer other : Fin n) (position : Nat) :
    Function.update positions producer position other = positions other ∨
      (other = producer ∧ Function.update positions producer position other = position) := by
  by_cases own : other = producer
  · subst own
    exact .inr ⟨rfl, Function.update_self ..⟩
  · exact .inl (Function.update_of_ne own ..)

/-- The goal of one position in one ring. -/
def Goal (producer : Fin n) (position : Nat) (other : Fin n) (reached : Nat) : Prop :=
  other = producer ∧ reached = position

omit [DecidableEq K] in
theorem Goal.placed {position reached : Nat} {other : Fin n} (goal : Goal producer position other reached)
    (placed : Placed producer position state) : Placed other reached state := by
  obtain ⟨rfl, rfl⟩ := goal
  exact placed

theorem moves_clearLatestLease (producer : Fin n) : Each (Moves client goal)
    (clearLatestLease client consumer token producer : Prog (State n m K) Unit) := by
  refine .bind (moves_reads (reads_hasConsumer consumer token)) fun registered => ?_
  split
  · exact .store fun _ => .of_members (fun rx =>
      {rx with activeLeases := Function.update rx.activeLeases producer false}) (by simp [State.setRx]) fun _ _ => .inl rfl
  · exact .ret _

theorem moves_flushRing (producer : Fin n) : Each (Moves client goal) (flushRing setup client consumer token producer) := by
  refine .bind (moves_reads (reads_readRx client)) fun rx => ?_
  split
  · exact .ret _
  refine .bind (moves_storeProgress producer _) fun _ => .bind (moves_storeProgress producer _) fun _ =>
    .bind (.when (.store fun _ => .of_same rfl)) fun _ => .bind (moves_storeProgress producer _) fun _ =>
    .bind (moves_updateRx _ fun _ _ => .inl rfl) fun _ => ?_
  split
  · exact moves_clearLatestLease producer
  · exact .ret _

theorem moves_flushBatch : Each (Moves client goal) (flushBatch setup client consumer token) := by
  refine .bind (.store fun state => ⟨fun _ => .inl (by simp), fun message member => ?_, fun _ _ member => ?_⟩) fun _ =>
    .bind (moves_reads (reads_hasConsumer consumer token)) fun registered => ?_
  · simp only [State.setClient_client, List.mem_filter] at member
    exact member.1
  · simpa using member
  · split
    · exact .forEach (fun producer => moves_flushRing producer) _
    · exact .ret _

omit [DecidableEq K] in
theorem moves_advance (message : Message n) (rx : Rx n) (producer : Fin n) :
    (rx.advance setup message).readPositions producer = rx.readPositions producer ∨
      Goal message.producerId message.nextPosition producer ((rx.advance setup message).readPositions producer) := by
  have moved : (rx.advance setup message).readPositions =
      Function.update rx.readPositions message.producerId message.nextPosition := by
    unfold Rx.advance
    cases setup.mode.ordered <;> rfl
  rw [moved]
  exact moved_update _ _ _ _

theorem moves_consume (message : Message n) : Each (Moves client (Goal message.producerId message.nextPosition))
    (consume setup client consumer token message) := by
  refine .bind (moves_reads (reads_hasConsumer consumer token)) fun registered => ?_
  split
  · exact moves_updateRx _ fun rx producer => moves_advance message rx producer
  · exact .ret _

/-- The release of a message moves to its end. -/
theorem moves_release (message : Message n) : Each (Moves client (Goal message.producerId message.nextPosition))
    (release setup client consumer token message) := by
  refine .bind (moves_reads (reads_hasConsumer consumer token)) fun registered => ?_
  split
  · refine .bind (.store fun state => ⟨fun producer => ?_, fun other member => ?_, fun _ _ member => ?_⟩) fun _ =>
      .bind (moves_storeProgress _ _) fun _ => .bind (moves_updateRx _ fun _ _ => .inl rfl) fun _ =>
      .bind (moves_reads (reads_readRx client)) fun rx => .bind (moves_storeProgress _ _) fun _ =>
      .bind (moves_updateRx _ fun rx _ => .inl ?_) fun _ => .bind (.when (.store fun _ => .of_same rfl)) fun _ =>
      .bind (moves_storeProgress _ _) fun _ => ?_
    · rw [State.setClient_client]
      exact moved_update _ _ _ _
    · simp only [State.setClient_client, List.mem_filter] at member
      exact member.1
    · simpa using member
    · cases setup.mode.ordered <;> rfl
    · split
      · exact moves_clearLatestLease _
      · exact .ret _
  · exact .ret _

theorem moves_destroyRx : Each (Moves client goal) (destroyRx setup client consumer token) := by
  unfold destroyRx
  split
  · refine .forEach (fun producer => .bind (moves_reads (reads_readRx client)) fun rx => ?_) _
    split
    · exact moves_clearLatestLease producer
    · exact .ret _
  · exact .ret _

theorem moves_beginReceive (fixed : Option UInt32) (reportLag : Bool) : Each (Moves client goal)
    (beginReceive client consumer token fixed reportLag : Prog (State n m K) (Received n)) := by
  refine .bind (moves_reads (reads_hasConsumer consumer token)) fun registered => ?_
  split
  · exact .bind (.modifyGet (fun state => ⟨fun _ => .inl (by simp), fun _ member => by simpa using member,
      fun _ _ member => by simpa using member⟩) _) fun _ => .ret _
  · exact .ret _

theorem moves_beginReceiveChecked (fixed : Option UInt32) :
    Each (Moves client goal) (beginReceiveChecked setup client consumer token fixed) := by
  refine .bind (moves_reads (reads_hasConsumer consumer token)) fun registered => ?_
  split
  · refine .bind ?_ fun reportLag => moves_beginReceive fixed reportLag
    split
    · exact moves_reads (reads_consumerUsesDropOldest consumer)
    · exact .ret _
  · exact .ret _

theorem moves_publishLatestProgress (producer : Fin n) (position sequence : Nat) :
    Each (Moves client (Goal producer position))
      (publishLatestProgress client consumer producer position sequence : Prog (State n m K) Unit) :=
  .bind (moves_updateRx _ fun _ _ => moved_update _ _ _ _) fun _ => .bind (moves_storeProgress producer _) fun _ =>
    .bind (moves_storeProgress producer _) fun _ => moves_storeProgress producer _

omit [DecidableEq K] in
theorem moves_addLaggedMessages (producer : Fin n) (amount : Nat) : Each (Moves client goal)
    (addLaggedMessages producer consumer amount : Prog (State n m K) Unit) := by
  unfold addLaggedMessages
  split
  · exact moves_storeProgress producer _
  · exact .ret _

omit [DecidableEq K] in
theorem moves_addSkippedMessages (producer : Fin n) (amount : Nat) : Each (Moves client goal)
    (addSkippedMessages producer consumer amount : Prog (State n m K) Unit) := by
  unfold addSkippedMessages
  split
  · exact moves_storeProgress producer _
  · exact .ret _

theorem moves_beginLatestLease (producer : Fin n) (start snapshot visible : Nat) : Each (Moves client goal)
    (beginLatestLease client consumer token producer start snapshot visible : Prog (State n m K) Bool) := by
  refine .bind (moves_reads (reads_readRx client)) fun rx => ?_
  split
  · exact .ret _
  refine .bind (moves_reads (.load _)) fun current => ?_
  split
  · exact .ret _
  refine .bind (moves_storeProgress producer _) fun _ => .bind (.store fun _ => .of_members (fun rx =>
      {rx with activeLeases := Function.update rx.activeLeases producer true}) (by simp [State.setRx]) fun _ _ => .inl rfl)
    fun _ => .bind (.modifyGet (fun state => ?_) _) fun intent => .bind (.modifyGet (fun state => ?_) _) fun floor => ?_
  · split <;> exact .of_same rfl
  · split <;> exact .of_same rfl
  · split
    · exact .bind (moves_clearLatestLease producer) fun _ => .ret _
    · exact .ret _

omit [DecidableEq K] in
/-- The client inside the gate. -/
theorem moves_same {program : Prog (State n m K) α} (each : Each ClientContract.SameClients program) :
    Each (Moves client goal) program := each.mono fun _ _ same => .of_same (congrFun same client)

omit [DecidableEq K] in
/-- A fresh history starts at the begin of every ring. -/
theorem Moves.of_fresh (rx : (after.client client).rx = {}) (held : (after.client client).held = [])
    (passed : (after.client client).passed = fun _ => []) : Moves client (fun _ position => position = 0) before after where
  read producer := .inr (by rw [rx])
  held message member := by
    rw [held] at member
    exact absurd member List.not_mem_nil
  told producer passage member := by
    rw [passed] at member
    exact absurd member List.not_mem_nil

omit [DecidableEq K] in
theorem moves_resetSlot (generation : Nat) :
    Each (Moves client goal) (resetSlot consumer generation : Prog (State n m K) Unit) :=
  (Membership.slotKeeps_resetSlot generation).mono fun _ _ keeps => .of_same (congrFun keeps.client client)

theorem moves_initializeSlot (policy : SubscriptionPolicy) (observed : Nat) :
    Each (Moves client fun _ position => position = 0) (initializeSlot setup client policy consumer observed) := by
  refine .bind (moves_same (ClientContract.same_exchangeState _ _)) fun exchanged => ?_
  split
  · refine .bind (moves_same (ClientContract.same_storeSlot _)) fun _ =>
      .bind (moves_same (ClientContract.same_storeSlot _)) fun _ =>
      .bind (moves_same (ClientContract.same_storeSlot _)) fun _ => .bind ?_ fun sequence =>
      .bind (.forEach (fun producer => moves_same (ClientContract.same_snapshotCursor _ _ producer)) _) fun _ =>
      .bind (.when (.store fun _ => .of_same rfl)) fun _ =>
      .bind (.store fun _ => .of_fresh (by simp) (by simp) (by simp)) fun _ => .ret _
    split
    · exact moves_same (ClientContract.same_load _)
    · exact .ret _
  · exact .ret _

theorem moves_acquireConsumer (policy : SubscriptionPolicy) :
    Each (Moves client fun _ position => position = 0) (acquireConsumer setup client policy) := by
  refine .bind (.foldUntil (fun _ consumer => ?_) _ _) fun searched => by cases searched <;> exact .ret _
  refine .bind (moves_same (ClientContract.same_load _)) fun observed => ?_
  split
  · refine .bind (moves_same (ClientContract.same_load _)) fun ownerStart =>
      .bind (moves_same (ClientContract.same_load _)) fun alive => ?_
    split
    · exact .ret _
    refine .bind (moves_same (ClientContract.same_exchangeState _ _)) fun exchanged => ?_
    split
    · exact .bind (moves_resetSlot _) fun _ => .bind (moves_same (ClientContract.same_load _)) fun observed =>
        .bind (moves_initializeSlot policy observed) fun _ => .ret _
    · exact .ret _
  · exact .bind (moves_initializeSlot policy observed) fun _ => .ret _

theorem moves_releaseConsumer : Each (Moves client fun _ position => position = 0)
    (releaseConsumer client consumer token : Prog (State n m K) Unit) := by
  refine .bind (.modifyGet (fun state => ?_) _) fun exchanged => ?_
  · split
    · exact .of_fresh (by simp) (by simp) (by simp)
    · exact .of_same rfl
  · split
    · exact moves_resetSlot _
    · exact .ret _

omit [DecidableEq K] in
theorem moves_acquireGate : Each (Moves client goal) (acquireRegistrationGate setup client) := by
  refine .modifyGet (fun state => ?_) _
  split <;> exact .of_same rfl

theorem moves_releaseGate : Each (Moves client goal) (releaseRegistrationGate client : Prog (State n m K) Unit) := by
  refine .store fun state => ?_
  split <;> exact .of_same rfl

end Moves

section Look

variable {start stop position target : Nat} {fixed : Option UInt32} {message : Message n}

omit [DecidableEq K] in
/-- A held lease protects the published frames from its start on. -/
theorem Known.complete (known : Known setup size state) (active : state.slotActive consumer) {since : Nat}
    (held : (state.cursor producer consumer).leaseStage = .held start since) {count : Nat} {frame : ClaimedFrame}
    (published : Published.Frame producer count frame state) (beyond : start ≤ frame.start) :
    Complete setup (state.ring producer) frame := by
  have spares := ((known.retains producer).leases consumer active).spares
  rw [held, LeaseStage.Spares] at spares
  exact known.toFramed.complete published (spares.trans (Nat.add_le_add_right beyond _))

omit [DecidableEq K] in
/-- A shown message reads as its committed payload while a lease is held. -/
theorem Known.committed (known : Known setup size state) (active : state.slotActive consumer) {since : Nat}
    (held : (state.cursor message.producerId consumer).leaseStage = .held start since) (shown : Shown message state)
    (beyond : start ≤ message.position) :
    (state.ring message.producerId).committed message.position = some (state.payload setup message) := by
  obtain ⟨count, sequence, frame, published, shows⟩ := shown
  have position : message.position = frame.start := shows.position
  have complete := known.complete active held published (position ▸ beyond)
  have place : message.payloadPosition = frame.start + payloadOffset frame.hasExpiry := shows.payloadPosition
  have length : message.payloadLen = frame.payloadLen := shows.payloadLen
  rw [position, State.payload, place, length]
  exact complete.payload

/-- The own lease belongs to an active slot. -/
theorem holds_active (ready : (rxContract setup size client).Ready state)
    (holds : Retention.Holds client consumer token producer start stop state) : state.slotActive consumer :=
  (ready.knows.membership.registered client consumer token ready.may holds.registered).1

theorem complete_of_holds (ready : (rxContract setup size client).Ready state)
    (holds : Retention.Holds client consumer token producer start stop state) {count : Nat} {frame : ClaimedFrame}
    (published : Published.Frame producer count frame state) (beyond : start ≤ frame.start) :
    Complete setup (state.ring producer) frame := by
  obtain ⟨since, held⟩ := holds.held
  exact ready.knows.complete (holds_active ready holds) held published beyond

/-- A look under a lease shows the frame that starts there. -/
theorem shown_parse {first second : State n m K} (ready : (rxContract setup size client).Ready first)
    (rely : (rxContract setup size client).rely first second) (later : (rxContract setup size client).Ready second)
    (holds : Retention.Holds client consumer token producer start stop first) (beyond : start ≤ position)
    (placed : Placed producer position first) (seen : Published.Seen producer stop first) (before : position < stop)
    (sized : ∀ bytes, fixed = some bytes → size = some bytes) :
    Shown (Message.parse setup first second producer position target fixed) second := by
  obtain ⟨count, place⟩ := placed
  obtain ⟨frame, published, rfl⟩ := ready.knows.next place seen before
  have one := complete_of_holds ready holds published beyond
  have two := complete_of_holds later (holds.stable rely.1.toRxRely) (published.grows rely.2) beyond
  have small := ((ready.knows.membership.exact producer).valid frame published.member).payloadLen
  have fits : frame.Fits fixed := fun bytes same =>
    ready.knows.fits producer frame published.member bytes (sized bytes same)
  have shows : frame.ShownBy (Message.parse setup first second producer frame.start frame.sequence fixed) :=
    Published.shownBy_parse one two small fits rfl
  exact ⟨count, frame.sequence, frame, published.grows rely.2, shows⟩

/-- Every look under a lease shows a published frame. -/
theorem look_safe (holds : Retention.Holds client consumer token producer start stop state) (beyond : start ≤ position)
    (placed : Placed producer position state) (seen : Published.Seen producer stop state)
    (sized : ∀ bytes, fixed = some bytes → size = some bytes) :
    Safe (rxContract setup size client) (fun read current => ∀ message, read = some message → Shown message current)
      (tryReadFromRing setup producer position target stop fixed) state :=
  tryReadFromRing_safe (lawful setup size (.client client)) (fun rely _ shown => shown.grows rely.2)
    fun _ _ rely ready between later before _ _ => shown_parse ready between later (holds.stable rely.1.toRxRely) beyond
      (placed.grows rely.2) (seen.grows rely.2) before sized

variable {P : β → State n m K → Prop} {fact : State n m K → Prop} {now : Option Nat}

/-- A step after which nothing but the lasting fact matters. -/
theorem kept_bind {program : Prog (State n m K) α} {rest : α → Prog (State n m K) β}
    (moves : Each (Moves client fun _ _ => False) program) (lasts : Lasting (rxContract setup size client) fact)
    (known : fact state) (continues : ∀ value current, fact current →
      Safe (rxContract setup size client) P (rest value) current) :
    Safe (rxContract setup size client) P (program.bind rest) state :=
  Safe.bind (lawful setup size (.client client)) (still_safe moves lasts known)
    fun value current _ known => continues value current known

/-- A read under a lease. -/
theorem reads_bind {program : Prog (State n m K) α} {rest : α → Prog (State n m K) β} (reads : Reads program)
    (lasts : Lasting (rxContract setup size client) fact) (known : fact state)
    (holds : Retention.Holds client consumer token producer start stop state)
    (continues : ∀ value current, fact current → Retention.Holds client consumer token producer start stop current →
      Safe (rxContract setup size client) P (rest value) current) :
    Safe (rxContract setup size client) P (program.bind rest) state :=
  still_bind (moves_reads reads) lasts known
    (Retention.holds_safe (keeps_reads client consumer reads) (Retention.same_reads consumer reads) holds) continues

/-- A look under a lease, and what follows. -/
theorem look_bind {rest : Option (Message n) → Prog (State n m K) β}
    (lasts : Lasting (rxContract setup size client) fact) (known : fact state)
    (holds : Retention.Holds client consumer token producer start stop state) (beyond : start ≤ position)
    (placed : Placed producer position state) (seen : Published.Seen producer stop state)
    (sized : ∀ bytes, fixed = some bytes → size = some bytes)
    (continues : ∀ read current, fact current → Retention.Holds client consumer token producer start stop current →
      (∀ message, read.filter isCommitted = some message →
        Looked producer position target stop message ∧ Shown message current) →
      Safe (rxContract setup size client) P (rest read) current) :
    Safe (rxContract setup size client) P ((tryReadFromRing setup producer position target stop fixed).bind rest) state := by
  have reads := reads_tryReadFromRing setup producer position target stop fixed
  have kept := lend (still_safe (moves_reads reads) lasts known)
    (Retention.holds_safe (keeps_reads client consumer reads) (Retention.same_reads consumer reads) holds)
  refine Safe.bind (lawful setup size (.client client)) ((kept.and (look_safe holds beyond placed seen sized)).ends
    (ends_tryReadFromRing producer position target stop fixed)) fun read current _ held => ?_
  obtain ⟨⟨⟨known, holds⟩, shows⟩, looked⟩ := held
  refine continues read current known holds fun message found => ?_
  have found := (Option.filter_eq_some_iff.mp found).1
  exact ⟨looked message found, shows message found⟩

/-- The deadline check rests on a past reading of the clock. -/
theorem judge_bind {rest : Bool × Option Nat → Prog (State n m K) β}
    (lasts : Lasting (rxContract setup size client) fact) (known : fact state) (past : Clocked now state)
    (holds : Retention.Holds client consumer token producer start stop state)
    (continues : ∀ verdict current, fact current → Clocked verdict.2 current → Judged message verdict →
      Retention.Holds client consumer token producer start stop current →
      Safe (rxContract setup size client) P (rest verdict) current) :
    Safe (rxContract setup size client) P ((isExpired message now).bind rest) state := by
  have reads : Reads (isExpired message now : Prog (State n m K) (Bool × Option Nat)) := reads_isExpired message now
  have kept := lend (still_safe (moves_reads reads) lasts known)
    (Retention.holds_safe (keeps_reads client consumer reads) (Retention.same_reads consumer reads) holds)
  have dated : Safe (rxContract setup size client) (fun verdict => Clocked verdict.2)
      (isExpired message now : Prog (State n m K) (Bool × Option Nat)) state := by
    unfold isExpired
    split
    · split
      · exact fun _ rely ready => (clocked _).rely rely ready past
      · refine Safe.load_bind (lawful setup size (.client client)) fun current _ _ last rely ready =>
          (clocked _).rely rely ready ?_
        rintro reading same
        cases same
        exact le_rfl
    · exact fun _ rely ready => (clocked _).rely rely ready past
  refine Safe.bind (lawful setup size (.client client)) ((kept.and dated).ends (ends_isExpired message now))
    fun verdict current _ held => ?_
  obtain ⟨⟨⟨known, holds⟩, past⟩, judged⟩ := held
  exact continues verdict current known past judged holds

/-- A shown message carries the committed payload while the lease is held. -/
theorem genuine_delivered (ready : (rxContract setup size client).Ready state)
    (holds : Retention.Holds client consumer token message.producerId start stop state) (shown : Shown message state)
    (beyond : start ≤ message.position) :
    Genuine message.producerId (.delivered message (state.payload setup message)) state := by
  obtain ⟨since, held⟩ := holds.held
  have committed := ready.knows.committed (holds_active ready holds) held shown beyond
  obtain ⟨count, sequence, frame, published, shows⟩ := shown
  rw [show message.position = frame.start from shows.position] at committed
  exact ⟨count, sequence, frame, published, shows, committed⟩

omit [DecidableEq K] in
theorem genuine_expired {reading : Nat} (shown : Shown message state) (overdue : Overdue message reading)
    (past : reading ≤ state.clock) : Genuine message.producerId (.expired message reading) state := by
  obtain ⟨count, sequence, frame, published, shows⟩ := shown
  have expires : frame.hasExpiry = true := shows.hasExpiry.symm.trans overdue.expires
  have deadline : message.expiresAt = frame.expiresAt := shows.expiresAt expires
  exact ⟨count, sequence, frame, published, shows, expires, deadline ▸ overdue.passed, past⟩

/-- One passage enters the history under a lease. -/
theorem tells_bind (message : Message n) (tells : State n m K → Passage n)
    {update : State n m K → Client n m → Client n m} {rest : Unit → Prog (State n m K) β}
    (lasts : Lasting (rxContract setup size client) fact) (known : fact state)
    (holds : Retention.Holds client consumer token producer start stop state)
    (registration : ∀ current own, (update current own).registration = own.registration)
    (read : ∀ current own, (update current own).rx.readPositions = own.rx.readPositions)
    (held : ∀ current own, ∀ other ∈ (update current own).held, other ∈ own.held ∨ other = message)
    (passed : ∀ current own, (update current own).passed =
      Function.update own.passed producer (own.passed producer ++ [tells current]))
    (shown : ∀ {current}, fact current → Shown message current)
    (genuine : ∀ {current}, (rxContract setup size client).Ready current → fact current →
      Retention.Holds client consumer token producer start stop current → Genuine producer (tells current) current)
    (continues : ∀ value current, fact current → Retention.Holds client consumer token producer start stop current →
      Safe (rxContract setup size client) P (rest value) current) :
    Safe (rxContract setup size client) P
      ((Prog.store fun current => current.setClient client (update current)).bind rest) state := by
  refine Safe.store_bind fun current rely ready action => ?_
  have known := lasts.rely rely ready known
  have holds := holds.stable rely.1.toRxRely
  have stands : Stands client (current.setClient client (update current)) := by
    refine (ready.keeps client).change action.2.grows (fun other => .inl ?_) (fun other member => ?_)
      fun other passage member => ?_
    · rw [State.setClient_client, read]
    · rw [State.setClient_client] at member
      rcases held _ _ other member with earlier | same
      · exact .inl earlier
      · exact .inr (same ▸ shown known)
    · rw [State.setClient_client, passed] at member
      by_cases own : other = producer
      · subst own
        rw [Function.update_self, List.mem_append, List.mem_singleton] at member
        rcases member with earlier | same
        · exact .inl earlier
        · exact .inr (same ▸ genuine ready known holds)
      · rw [Function.update_of_ne own] at member
        exact .inl member
  obtain ⟨kept, guaranteed⟩ := own_acts ready action stands
  refine ⟨kept, guaranteed, continues () _ (lasts.action ready action known) (holds.congr ?_ (.refl _))⟩
  show ((current.setClient client (update current)).client client).registration = some (consumer, token)
  rw [State.setClient_client, registration]
  exact holds.registered

/-- An expired message is passed. -/
theorem expire_bind {moment : Nat} {rest : Unit → Prog (State n m K) β} (overdue : Overdue message moment)
    (lasts : Lasting (rxContract setup size client) fact) (known : fact state)
    (holds : Retention.Holds client consumer token message.producerId start stop state)
    (shown : ∀ {current}, fact current → Shown message current) (past : ∀ {current}, fact current → moment ≤ current.clock)
    (continues : ∀ value current, fact current →
      Retention.Holds client consumer token message.producerId start stop current →
      Safe (rxContract setup size client) P (rest value) current) :
    Safe (rxContract setup size client) P ((Prog.store fun current => current.setClient client fun own =>
      {own.pass message.producerId (.expired message moment) with
        rx := {own.rx with expiredMessages := min kMax (own.rx.expiredMessages + 1)}}).bind rest) state :=
  tells_bind message (fun _ => .expired message moment) lasts known holds (fun _ _ => rfl) (fun _ _ => rfl)
    (fun _ _ _ member => .inl member) (fun _ _ => rfl) shown
    (fun _ known _ => genuine_expired (shown known) overdue (past known)) continues

/-- A message is lent out. -/
theorem deliver_bind (change : Rx n → Rx n) {rest : Unit → Prog (State n m K) β}
    (still : ∀ rx, (change rx).readPositions = rx.readPositions) (lasts : Lasting (rxContract setup size client) fact)
    (known : fact state) (holds : Retention.Holds client consumer token message.producerId start stop state)
    (beyond : start ≤ message.position) (shown : ∀ {current}, fact current → Shown message current)
    (continues : ∀ value current, fact current →
      Retention.Holds client consumer token message.producerId start stop current →
      Safe (rxContract setup size client) P (rest value) current) :
    Safe (rxContract setup size client) P ((Prog.store fun current => current.setClient client fun own =>
      {own.receive message (current.payload setup message) with rx := change own.rx}).bind rest) state := by
  refine tells_bind message (fun state => .delivered message (state.payload setup message)) lasts known holds
    (fun _ _ => rfl) (fun _ own => still own.rx) (fun _ _ other member => ?_) (fun _ _ => rfl) shown
    (fun ready known holds => genuine_delivered ready holds (shown known) beyond) continues
  exact (List.mem_append.mp member).imp_right fun own => List.mem_singleton.mp own

end Look

end Borrowing

end Salias.SharedHybridMpsc
