import Salias.Channel.Borrowing

/-
Every call of a subscriber of the latest mode leaves it standing, so in every state of a run what it has been handed is
what the producers have committed.
-/

namespace Salias.SharedHybridMpsc

open Concurrent Salias.Frame ConsumerRegistration

variable {n m : Nat} {K : Type}

/-- The reading of the clock that the next pass starts with. -/
def RunReceived.now : RunReceived n → Option Nat
  | .again now => now
  | .messages _ => none

namespace Borrowing

variable [DecidableEq K] {setup : Setup n m K} {size : Option UInt32} {client : K} {consumer : Fin m} {token : Nat}
  {producer : Fin n} {state before after : State n m K} {α β : Type}

section Receive

variable {fixed : Option UInt32} {now : Option Nat}

omit [DecidableEq K] in
/-- A position with its bound in a ring. -/
theorem placed_max {one two : Nat} (first : Placed producer one state) (second : Placed producer two state) :
    Placed producer (max one two) state := by
  rcases max_choice one two with same | same
  · rw [same]
    exact first
  · rw [same]
    exact second

/-- A receiver opens a ring from a frame boundary up to a published position. -/
theorem openLatest_placed : Safe (rxContract setup size client) (fun opening current =>
      ∀ lagged start sequence gap visible, opening = .opened lagged start sequence gap visible →
        Placed producer start current ∧ Published.Seen producer visible current)
    (openLatest setup client consumer token producer) state := by
  have law := lawful setup size (.client client)
  have refuses {opening : Opening n} {current : State n m K}
      (plain : ∀ lagged start sequence gap visible, opening ≠ .opened lagged start sequence gap visible) :
      Safe (rxContract setup size client) (fun opening current =>
        ∀ lagged start sequence gap visible, opening = .opened lagged start sequence gap visible →
          Placed producer start current ∧ Published.Seen producer visible current) (.ret opening) current :=
    fun _ _ _ _ _ _ _ _ same => absurd same (plain _ _ _ _ _)
  refine Safe.load_bind law fun first _ ready => ?_
  have read := (ready.keeps client).read producer
  split
  · exact refuses fun _ _ _ _ _ same => by cases same
  refine Safe.load_bind law fun second rely ready => Safe.load_bind law fun third later next => ?_
  have floor : Placed producer (second.ring producer).retainedPosition second := (ready.knows.retains producer).floor
  have known : Placed producer (max ((first.client client).rx.readPositions producer)
      (second.ring producer).retainedPosition) third ∧
      Published.Seen producer (third.ring producer).visibleProducerPos third :=
    ⟨(placed_max (read.grows rely.2) floor).grows later.2, next.knows.visible producer⟩
  have lasts := (placed setup size client producer
    (max ((first.client client).rx.readPositions producer) (second.ring producer).retainedPosition)).and
      (seen producer (third.ring producer).visibleProducerPos)
  split
  · exact refuses fun _ _ _ _ _ same => by cases same
  have reads : Reads (if decide ((first.client client).rx.readPositions producer < (second.ring producer).retainedPosition) then
      consumerUsesDropOldest consumer else .ret true : Prog (State n m K) Bool) := by
    split
    · exact reads_consumerUsesDropOldest consumer
    · exact .ret _
  refine kept_bind (moves_reads reads) lasts known fun mayLag current known => ?_
  split
  · exact kept_bind (moves_clearLatestLease producer) lasts known fun _ _ _ => refuses fun _ _ _ _ _ same => by cases same
  dsimp only
  split
  · exact refuses fun _ _ _ _ _ same => by cases same
  refine kept_bind (moves_beginLatestLease producer _ _ _) lasts known fun begun current known => ?_
  split
  · have reads : Reads (if decide ((first.client client).rx.readPositions producer <
        (second.ring producer).retainedPosition) then sequenceAtPosition setup producer (second.ring producer).retainedPosition
        else .ret ((first.client client).rx.nextSequences producer) : Prog (State n m K) Nat) := by
      split
      · exact reads_sequenceAtPosition setup producer _
      · exact .ret _
    refine kept_bind (moves_reads reads) lasts known fun sequence current known => ?_
    split
    · exact kept_bind (moves_clearLatestLease producer) lasts known fun _ _ _ => refuses fun _ _ _ _ _ same => by cases same
    · intro last rely ready _ _ _ _ _ same
      cases same
      exact lasts.rely rely ready known
  · exact refuses fun _ _ _ _ _ same => by cases same

/-- An opened ring is held from its start on. -/
theorem openLatest_bind {P : β → State n m K → Prop} {rest : Opening n → Prog (State n m K) β}
    (entry : Membership.Registered client consumer token state) (past : Clocked now state)
    (closed : ∀ opening current,
      (∀ lagged start sequence gap visible, opening ≠ .opened lagged start sequence gap visible) →
      Clocked now current → Safe (rxContract setup size client) P (rest opening) current)
    (opened : ∀ lagged start sequence gap visible current, Clocked now current → Placed producer start current →
      Published.Seen producer visible current → start < visible →
      Retention.Holds client consumer token producer start visible current →
      Safe (rxContract setup size client) P (rest (.opened lagged start sequence gap visible)) current) :
    Safe (rxContract setup size client) P ((openLatest setup client consumer token producer).bind rest) state := by
  refine Safe.bind (lawful setup size (.client client)) ((lend openLatest_placed (Retention.openLatest_safe entry)).lasting
    (clocked now) past) fun opening current _ held => ?_
  obtain ⟨⟨places, -, lease⟩, past⟩ := held
  cases opening with
  | nothing => exact closed _ _ (fun _ _ _ _ _ same => by cases same) past
  | refused => exact closed _ _ (fun _ _ _ _ _ same => by cases same) past
  | failed => exact closed _ _ (fun _ _ _ _ _ same => by cases same) past
  | opened lagged start sequence gap visible =>
      obtain ⟨placed, seen⟩ := places _ _ _ _ _ rfl
      obtain ⟨some, holds⟩ := lease _ _ _ _ _ rfl
      exact opened lagged start sequence gap visible current past placed seen some holds

/-- One look of a receive tells only what is genuine. -/
theorem visitLatest_safe (sized : ∀ bytes, fixed = some bytes → size = some bytes) (reportLag : Bool)
    (entry : Membership.Registered client consumer token state) (past : Clocked now state) :
    Safe (rxContract setup size client) (fun visit => Clocked visit.now)
      (visitLatest setup client consumer token fixed reportLag now producer) state := by
  have law := lawful setup size (.client client)
  have ends {visit : Visit n} {current : State n m K} (past : Clocked visit.now current) :
      Safe (rxContract setup size client) (fun visit => Clocked visit.now) (.ret visit) current :=
    fun _ rely ready => (clocked _).rely rely ready past
  have fails {error : Option ReceiveError} {current : State n m K} : Clocked (Visit.failed error : Visit n).now current :=
    fun _ same => by cases same
  refine openLatest_bind entry past (fun opening current plain past => ?_)
    fun lagged start sequence gap visible current past begins bound proper holds => ?_
  · cases opening with
    | nothing => exact ends past
    | refused => exact ends fails
    | failed => exact ends fails
    | opened lagged start sequence gap visible => exact absurd rfl (plain _ _ _ _ _)
  have lasts := (clocked now).and (placed setup size client producer start)
  refine look_bind lasts ⟨past, begins⟩ holds le_rfl begins bound sized fun read current known holds looked => ?_
  split
  · refine kept_bind (moves_clearLatestLease producer) lasts known fun _ _ known => ?_
    split
    · exact ends fails
    · exact ends known.1
  rename_i message found
  obtain ⟨look, shows⟩ := looked message found
  obtain rfl := look.producerId
  have lasts := lasts.and (shown setup size client message)
  refine moves_bind (.when (.bind (moves_addLaggedMessages _ gap) fun _ =>
      moves_publishLatestProgress _ start sequence)) lasts (fun _ known _ _ goal => goal.placed known.1.2) ⟨known, shows⟩
    (Retention.holds_safe (.when (.bind (keeps_addLaggedMessages client consumer _ gap) fun _ =>
        keeps_publishLatestProgress client consumer _ start sequence))
      (.when (.bind (Retention.same_addLaggedMessages consumer _ gap) fun _ =>
        Retention.same_publishLatestProgress client consumer _ start sequence)) holds) fun _ current known holds => ?_
  split
  · exact kept_bind (moves_clearLatestLease _) lasts known fun _ _ _ => ends fails
  refine judge_bind lasts known known.1.1 holds fun verdict current known past judged holds => ?_
  obtain ⟨expired, reading⟩ := verdict
  dsimp only at judged past ⊢
  split
  · rename_i late
    obtain ⟨moment, rfl, overdue⟩ := judged.mp late
    have lasts := lasts.and (clocked (some moment))
    refine expire_bind overdue lasts ⟨known, past⟩ holds (fun known => known.1.2) (fun known => known.2 _ rfl)
      fun _ current known holds => ?_
    refine moves_bind (moves_publishLatestProgress _ _ _) lasts
      (fun ready known _ _ goal => goal.placed (known.1.2.placed ready.knows.toFramed)) known
      (Retention.holds_safe (keeps_publishLatestProgress client consumer _ _ _)
        (Retention.same_publishLatestProgress client consumer _ _ _) holds) fun _ current known _ => ?_
    refine kept_bind (moves_clearLatestLease _) lasts known fun _ _ known => ?_
    exact kept_bind (moves_updateRx _ fun _ _ => .inl rfl) lasts known fun _ _ known => ends known.2
  · refine still_bind (moves_storeProgress _ _) lasts known (Retention.narrowLease_safe holds look.moves look.inside)
      fun _ current known holds => ?_
    refine deliver_bind (fun rx => {rx with
        cachedVisiblePos := Function.update rx.cachedVisiblePos message.producerId visible
        lastHitRing := (message.producerId.val + 1) % n}) (fun _ => rfl) lasts known holds look.position.ge
      (fun known => known.2) fun _ current _ _ => ends ?_
    exact fun _ same => by cases same

/-- A scan of the rings carries a reading of the clock. -/
theorem scan_safe {δ : Type} {round : Option Nat → Fin n → Prog (State n m K) (Option Nat ⊕ δ)}
    {order : List (Fin n)} (later : δ → Option Nat)
    (each : ∀ now producer {state : State n m K}, Clocked now state → Membership.Registered client consumer token state →
      Safe (rxContract setup size client) (fun result current => Clocked (result.elim id later) current ∧
        Membership.Registered client consumer token current) (round now producer) state)
    (past : Clocked now state) (entry : Membership.Registered client consumer token state) :
    Safe (rxContract setup size client) (fun result => Clocked (result.elim id later)) (.foldUntil round order now)
      state := by
  refine Safe.weaken (Safe.foldUntil (lawful setup size (.client client))
    (I := fun _ now state => Clocked now state ∧ Membership.Registered client consumer token state)
    (S := fun stop => Clocked (later stop))
    (fun rely ready held => ⟨(clocked _).rely rely ready held.1, held.2.stable rely.1.toRxRely⟩)
    (fun producer _ now _ held => Safe.weaken (each now producer held.1 held.2) fun result _ _ held => ?_)
    (fun rely ready held => (clocked _).rely rely ready held) ⟨past, entry⟩) fun result _ _ held => ?_
  · cases result with
    | inl now => exact held
    | inr stop => exact held.1
  · cases result with
    | inl now => exact held.1
    | inr stop => exact held

/-- One pass of a receive. -/
theorem receiveLatestPass_safe {receiving : Receiving}
    (asking : (∀ bytes, receiving.fixed = some bytes → size = some bytes) ∧ Clocked receiving.now state)
    (entry : Membership.Registered client consumer token state) :
    Safe (rxContract setup size client) (fun received => Asking size (received.label consumer token : Label n m))
      (receiveLatestPass setup client consumer token receiving) state := by
  have law := lawful setup size (.client client)
  obtain ⟨sized, past⟩ := asking
  have nothing {received : Received n} {current : State n m K} (plain : ∀ receiving, received ≠ .again receiving) :
      Safe (rxContract setup size client) (fun received => Asking size (received.label consumer token : Label n m))
        (.ret received) current := by
    intro last rely ready
    cases received with
    | again receiving => exact absurd rfl (plain receiving)
    | nothing => trivial
    | message found => trivial
    | error reason => trivial
  refine entered_bind (reads_readRx client) (clocked receiving.now) past entry fun rx current past held => ?_
  refine Safe.bind law (scan_safe Visit.now (fun now producer {_} past held => ?_) past held) fun scanned _ _ held => ?_
  · refine Safe.bind law (lend (visitLatest_safe sized _ held past) (Retention.visitLatest_safe _ _ now held))
      fun visited _ _ held => ?_
    split <;> exact fun _ rely ready => ⟨(clocked _).rely rely ready held.1, held.2.stable rely.1.toRxRely⟩
  · split
    · exact nothing fun _ same => by cases same
    · exact fun _ rely ready => ⟨sized, (clocked _).rely rely ready held⟩
    · rename_i error
      cases error <;> exact nothing fun _ same => by cases same
    · exact nothing fun _ same => by cases same
    · exact nothing fun _ same => by cases same

/-- What a batch has collected ends at a frame boundary. -/
structure Gathers (client : K) (consumer : Fin m) (token : Nat) (producer : Fin n) (start stop : Nat)
    (collecting : Collecting n) (state : State n m K) : Prop where
  collects : Retention.Collects client consumer token producer start stop collecting state
  placed : Placed producer collecting.position state
  seen : Published.Seen producer stop state
  past : Clocked collecting.now state

theorem Gathers.stable {start stop : Nat} {collecting : Collecting n}
    (gathers : Gathers client consumer token producer start stop collecting before)
    (rely : (rxContract setup size client).rely before after) (ready : (rxContract setup size client).Ready after) :
    Gathers client consumer token producer start stop collecting after :=
  ⟨gathers.collects.stable rely.1.toRxRely, gathers.placed.grows rely.2, gathers.seen.grows rely.2,
    (clocked _).rely rely ready gathers.past⟩

theorem collectLatestRound_safe {start stop cap : Nat} {collecting : Collecting n}
    (entry : Gathers client consumer token producer start stop collecting state) :
    Safe (rxContract setup size client) (fun result => Gathers client consumer token producer start stop (result.elim id id))
      (collectLatestRound setup client producer cap stop collecting) state := by
  have ends {result : Collecting n ⊕ Collecting n} {current : State n m K}
      (held : Placed producer (result.elim id id).position current ∧ Clocked (result.elim id id).now current) :
      Safe (rxContract setup size client) (fun result current =>
        Placed producer (result.elim id id).position current ∧ Clocked (result.elim id id).now current)
        (.ret result) current :=
    fun _ rely ready => ⟨held.1.grows rely.2, (clocked _).rely rely ready held.2⟩
  have tracked : Safe (rxContract setup size client) (fun result current =>
      Placed producer (result.elim id id).position current ∧ Clocked (result.elim id id).now current)
      (collectLatestRound setup client producer cap stop collecting) state := by
    unfold collectLatestRound
    split
    · have lasts := (placed setup size client producer collecting.position).and
        (clocked collecting.now)
      refine look_bind lasts ⟨entry.placed, entry.past⟩ entry.collects.holds entry.collects.beyond entry.placed entry.seen
        (fun _ same => by cases same) fun read current known holds looked => ?_
      split
      · exact ends known
      rename_i message found
      obtain ⟨look, shows⟩ := looked message found
      obtain rfl := look.producerId
      refine judge_bind (shown setup size client message) shows known.2 holds fun verdict current shows past judged holds => ?_
      obtain ⟨expired, reading⟩ := verdict
      dsimp only at judged past ⊢
      have lasts := (shown setup size client message).and (clocked reading)
      have moved {out : List (Message n)} {current : State n m K} (known : Shown message current ∧ Clocked reading current) :
          Safe (rxContract setup size client) (fun result current =>
            Placed message.producerId (result.elim id id).position current ∧ Clocked (result.elim id id).now current)
            (.ret (.inl {collecting with
              position := message.nextPosition
              sequence := collecting.sequence + 1
              advanced := collecting.advanced + 1
              now := reading
              out := out} : Collecting n ⊕ Collecting n)) current :=
        fun _ rely ready => ⟨(known.1.grows rely.2).placed ready.knows.toFramed, (clocked _).rely rely ready known.2⟩
      split
      · rename_i late
        obtain ⟨moment, rfl, overdue⟩ := judged.mp late
        exact expire_bind overdue lasts ⟨shows, past⟩ holds (fun known => known.1) (fun known => known.2 _ rfl)
          fun _ current known _ => moved known
      · exact deliver_bind id (fun _ => rfl) lasts ⟨shows, past⟩ holds (entry.collects.beyond.trans look.position.ge)
          (fun known => known.1) fun _ current known _ => moved known
    · exact ends ⟨entry.placed, entry.past⟩
  refine Safe.weaken ((lend tracked (Retention.collectLatestRound_safe entry.collects)).lasting (seen producer stop)
    entry.seen) fun result current _ held => ?_
  obtain ⟨⟨⟨placed, past⟩, collects⟩, seen⟩ := held
  exact ⟨collects, placed, seen, past⟩

/-- One look of a batch receive. -/
theorem runLatestRound_safe (cap : Nat) (entry : Membership.Registered client consumer token state)
    (past : Clocked now state) :
    Safe (rxContract setup size client) (fun result => Clocked (result.elim id RunReceived.now))
      (runLatestRound setup client consumer token cap now producer) state := by
  have law := lawful setup size (.client client)
  have ends {result : Option Nat ⊕ RunReceived n} {current : State n m K}
      (past : Clocked (result.elim id RunReceived.now) current) :
      Safe (rxContract setup size client) (fun result => Clocked (result.elim id RunReceived.now)) (.ret result) current :=
    fun _ rely ready => (clocked _).rely rely ready past
  refine openLatest_bind entry past (fun opening current plain past => ?_)
    fun lagged start sequence gap visible current past begins bound proper holds => ?_
  · cases opening with
    | nothing => exact ends past
    | refused => exact ends past
    | failed => exact ends past
    | opened lagged start sequence gap visible => exact absurd rfl (plain _ _ _ _ _)
  have begun : Gathers client consumer token producer start visible ⟨start, sequence, 0, 0, now, []⟩ current :=
    ⟨⟨holds, proper.le, le_rfl, fun none => absurd rfl none⟩, begins, bound, past⟩
  refine Safe.bind law (Safe.repeatUntil law (I := Gathers client consumer token producer start visible)
    (S := Gathers client consumer token producer start visible) (fun rely ready held => held.stable rely ready)
    (fun collecting current held => Safe.weaken (collectLatestRound_safe held) fun result _ _ held => ?_)
    (fun rely ready held => held.stable rely ready) begun) fun collected current _ held => ?_
  · cases result <;> exact held
  have gathers : Gathers client consumer token producer start visible (collected.elim id id) current := by
    cases collected <;> exact held
  generalize collected.elim id id = result at gathers ⊢
  dsimp only
  have lasts := (placed setup size client producer result.position).and
    (clocked result.now)
  have places {current : State n m K} (_ : (rxContract setup size client).Ready current)
      (known : Placed producer result.position current ∧ Clocked result.now current) (other : Fin n) (position : Nat)
      (goal : Goal producer result.position other position) : Placed other position current := goal.placed known.1
  refine kept_bind (.when (moves_addLaggedMessages producer gap)) lasts ⟨gathers.placed, gathers.past⟩
    fun _ current known => ?_
  split
  · refine Safe.bind law (moves_safe (.when (.bind (moves_publishLatestProgress producer _ _) fun _ =>
      moves_updateRx _ fun _ _ => .inl rfl)) lasts places known) fun _ current _ known => ?_
    refine kept_bind (moves_clearLatestLease producer) lasts known fun _ current known => ?_
    split
    · exact kept_bind (moves_updateRx _ fun _ _ => .inl rfl) lasts known fun _ _ known => ends known.2
    · exact ends known.2
  · refine Safe.bind law (moves_safe (moves_updateRx _ fun _ _ => moved_update _ _ _ _) lasts places known)
      fun _ current _ known => ?_
    refine kept_bind (moves_storeProgress producer _) lasts known fun _ current known => ?_
    exact kept_bind (moves_updateRx _ fun _ _ => .inl rfl) lasts known fun _ _ _ => ends fun _ same => by cases same

theorem runLatestPass_safe (cap : Nat) (entry : Membership.Registered client consumer token state)
    (past : Clocked now state) :
    Safe (rxContract setup size client) (fun received => Asking size (received.label consumer token cap : Label n m))
      (runLatestPass setup client consumer token cap now) state := by
  refine entered_bind (reads_readRx client) (clocked now) past entry fun rx current past held => ?_
  refine Safe.bind (lawful setup size (.client client)) (scan_safe RunReceived.now
    (fun now producer {_} past held => lend (runLatestRound_safe cap held past) (Retention.runLatestRound_safe cap now held))
    past held) fun scanned _ _ held => ?_
  split
  · exact fun _ _ _ => trivial
  · rename_i received
    cases received with
    | again now => exact fun _ rely ready => (clocked now).rely rely ready held
    | messages out => exact fun _ _ _ => trivial

/-- The last frame of a walk starts at a frame boundary. -/
def Reaches (producer : Fin n) (last : Option (Message n)) (state : State n m K) : Prop :=
  ∀ message, last = some message → Placed producer message.position state

omit [DecidableEq K] in
theorem Reaches.grows {last : Option (Message n)} (reaches : Reaches producer last before)
    (grows : Published.Grows before after) : Reaches producer last after :=
  fun message same => (reaches message same).grows grows

/-- The walk to the last visible frame goes from boundary to boundary. -/
structure Walks (client : K) (consumer : Fin m) (token : Nat) (producer : Fin n) (start stop : Nat)
    (carried : Nat × Nat × Option (Message n)) (state : State n m K) : Prop where
  holds : Retention.Holds client consumer token producer start stop state
  beyond : start ≤ carried.1
  placed : Placed producer carried.1 state
  seen : Published.Seen producer stop state
  last : Reaches producer carried.2.2 state

theorem Walks.stable {start stop : Nat} {carried : Nat × Nat × Option (Message n)}
    (walks : Walks client consumer token producer start stop carried before)
    (rely : (rxContract setup size client).rely before after) :
    Walks client consumer token producer start stop carried after :=
  ⟨walks.holds.stable rely.1.toRxRely, walks.beyond, walks.placed.grows rely.2, walks.seen.grows rely.2,
    walks.last.grows rely.2⟩

theorem skipRound_safe {start stop : Nat} {carried : Nat × Nat × Option (Message n)}
    (sized : ∀ bytes, fixed = some bytes → size = some bytes)
    (entry : Walks client consumer token producer start stop carried state) :
    Safe (rxContract setup size client) (fun result current => match result with
        | .inl next => Walks client consumer token producer start stop next current
        | .inr last => Reaches producer last current)
      (skipRound setup producer stop fixed carried) state := by
  have lasts := (placed setup size client producer carried.1).and (seen producer stop)
  unfold skipRound
  split
  · refine look_bind lasts ⟨entry.placed, entry.seen⟩ entry.holds entry.beyond entry.placed entry.seen sized
      fun read current known holds looked => ?_
    split
    · exact fun _ _ _ message same => by cases same
    rename_i message found
    obtain ⟨look, shows⟩ := looked message found
    obtain rfl := look.producerId
    intro last rely ready
    refine ⟨holds.stable rely.1.toRxRely, entry.beyond.trans look.moves.le,
      (shows.grows rely.2).placed ready.knows.toFramed, known.2.grows rely.2, fun other same => ?_⟩
    cases same
    rw [look.position]
    exact known.1.grows rely.2
  · exact fun _ rely _ => entry.last.grows rely.2

/-- The skip leaves the cursor at the last visible frame. -/
theorem skipToLatest_safe (sized : ∀ bytes, fixed = some bytes → size = some bytes)
    (entry : Membership.Registered client consumer token state) :
    Safe (rxContract setup size client) (fun _ _ => True) (skipToLatest setup client consumer token producer fixed)
      state := by
  have law := lawful setup size (.client client)
  have ends {result : Except ReceiveError Nat} {current : State n m K} :
      Safe (rxContract setup size client) (fun _ _ => True) (.ret result) current := fun _ _ _ => trivial
  have allowed : Reads (if setup.mode.dropOldest then consumerUsesDropOldest consumer else .ret false :
      Prog (State n m K) Bool) := by
    split
    · exact reads_consumerUsesDropOldest consumer
    · exact .ret _
  refine entered_bind allowed .trivial trivial entry fun allowed _ _ held => ?_
  refine entered_bind (reads_hasConsumer consumer token) .trivial trivial held fun active _ _ held => ?_
  refine Safe.load_bind law fun first rely ready => ?_
  have held := held.stable rely.1.toRxRely
  have read := (ready.keeps client).read producer
  split
  · exact ends
  split
  · exact ends
  refine Safe.load_bind law fun second rely ready => Safe.load_bind law fun third later next => ?_
  have held := (held.stable rely.1.toRxRely).stable later.1.toRxRely
  have floor : Placed producer (second.ring producer).retainedPosition second := (ready.knows.retains producer).floor
  dsimp only
  split
  · exact ends
  split
  · exact ends
  rename_i beyond
  have known : Placed producer (max ((first.client client).rx.readPositions producer)
      (second.ring producer).retainedPosition) third ∧
      Published.Seen producer (third.ring producer).visibleProducerPos third :=
    ⟨(placed_max (read.grows rely.2) floor).grows later.2, next.knows.visible producer⟩
  have lasts := (placed setup size client producer
    (max ((first.client client).rx.readPositions producer) (second.ring producer).retainedPosition)).and
      (seen producer (third.ring producer).visibleProducerPos)
  refine still_bind (moves_beginLatestLease producer _ _ _) lasts known
    (Retention.beginLatestLease_safe held (not_le.mp beyond) (le_max_right _ _) le_rfl) fun begun _ known held => ?_
  split
  · exact ends
  rename_i began
  have holds := held.2 (by simpa using began)
  have reads : Reads (if (first.client client).rx.readPositions producer < (second.ring producer).retainedPosition then
      sequenceAtPosition setup producer (second.ring producer).retainedPosition
      else .ret ((first.client client).rx.nextSequences producer) : Prog (State n m K) Nat) := by
    split
    · exact reads_sequenceAtPosition setup producer _
    · exact .ret _
  refine reads_bind reads lasts known holds fun sequence current known holds => ?_
  split
  · exact kept_bind (moves_clearLatestLease producer) .trivial trivial fun _ _ _ => ends
  have begun : Walks client consumer token producer (max ((first.client client).rx.readPositions producer)
      (second.ring producer).retainedPosition) (third.ring producer).visibleProducerPos
      (max ((first.client client).rx.readPositions producer) (second.ring producer).retainedPosition, sequence, none)
      current := ⟨holds, le_rfl, known.1, known.2, fun _ same => by cases same⟩
  refine Safe.bind law (Safe.repeatUntil law (I := Walks client consumer token producer _ _)
    (S := Reaches producer) (fun rely _ held => held.stable rely)
    (fun _ _ held => Safe.weaken (skipRound_safe sized held) fun result _ _ held => ?_)
    (fun rely _ held => held.grows rely.2) begun) fun walked current _ held => ?_
  · cases result <;> exact held
  split
  · rename_i last
    have lasts := placed setup size client producer last.position
    have known : Placed producer last.position current := held last rfl
    refine kept_bind (moves_addLaggedMessages producer _) lasts known fun _ _ known => ?_
    refine kept_bind (moves_addSkippedMessages producer _) lasts known fun _ _ known => ?_
    refine Safe.bind law (moves_safe (moves_publishLatestProgress producer _ _) lasts
      (fun _ known _ _ goal => goal.placed known) known) fun _ _ _ _ => ?_
    exact kept_bind (moves_clearLatestLease producer) .trivial trivial fun _ _ _ => ends
  · exact kept_bind (moves_clearLatestLease producer) .trivial trivial fun _ _ _ => ends

end Receive

section Client

/-- What a subscriber may ask for: it gives back what it has borrowed, and it asks for the payload size of the channel. -/
def Asks (size : Option UInt32) (client : Client n m) : Request n → Prop
  | .tryRecv fixed => ∀ bytes, fixed = some bytes → size = some bytes
  | .tryRecvChecked fixed => ∀ bytes, fixed = some bytes → size = some bytes
  | .skipToLatest _ fixed => ∀ bytes, fixed = some bytes → size = some bytes
  | .release message => message ∈ client.held
  | .consume message => message ∈ client.held
  | _ => True

/-- A new receive has not read the clock. -/
def Begins (fixed : Option UInt32) (received : Received n) : Prop :=
  ∀ receiving, received = .again receiving → receiving.fixed = fixed ∧ receiving.now = none

theorem ends_beginReceive (fixed : Option UInt32) (reportLag : Bool) : Ends (Begins fixed)
    (beginReceive client consumer token fixed reportLag : Prog (State n m K) (Received n)) := by
  refine .bind fun registered => ?_
  split
  · refine .bind fun noPending receiving same => ?_
    cases same
    exact ⟨rfl, rfl⟩
  · exact fun _ same => by cases same

theorem ends_beginReceiveChecked (fixed : Option UInt32) :
    Ends (Begins fixed) (beginReceiveChecked setup client consumer token fixed) := by
  refine .bind fun registered => ?_
  split
  · exact .bind fun reportLag => ends_beginReceive fixed reportLag
  · exact fun _ same => by cases same

theorem begin_safe {fixed : Option UInt32} {call : Prog (State n m K) (Received n)}
    (sized : ∀ bytes, fixed = some bytes → size = some bytes) (still : Each (Moves client fun _ _ => False) call)
    (ends : Ends (Begins fixed) call) :
    Safe (rxContract setup size client) (Asking size) (call.bind fun received =>
      .ret (received.label consumer token)) state := by
  refine Safe.bind (lawful setup size (.client client)) ((still_safe still .trivial trivial).ends ends)
    fun received _ _ held last _ _ => ?_
  cases received with
  | again receiving =>
      obtain ⟨same, none⟩ := held.2 receiving rfl
      exact ⟨by rw [same]; exact sized, by rw [none]; exact fun _ same => by cases same⟩
  | nothing => trivial
  | message found => trivial
  | error reason => trivial

/-- A call that leaves no receive in progress. -/
theorem call_safe {goal : Fin n → Nat → Prop} {call : Prog (State n m K) α} {last : α → Label n m}
    {fact : State n m K → Prop} (moves : Each (Moves client goal) call)
    (lasts : Lasting (rxContract setup size client) fact)
    (places : ∀ {current}, (rxContract setup size client).Ready current → fact current → ∀ producer position,
      goal producer position → Placed producer position current) (known : fact state)
    (plain : ∀ value (current : State n m K), Asking size (last value) current) :
    Safe (rxContract setup size client) (Asking size) (call.bind fun value => .ret (last value)) state :=
  Safe.bind (lawful setup size (.client client)) (moves_safe moves lasts places known)
    fun value _ _ _ last _ _ => plain value last

/-- A call that also leaves the members and the history alone. -/
theorem still_call {call : Prog (State n m K) α} {last : α → Label n m}
    (still : Each (Moves client fun _ _ => False) call)
    (plain : ∀ value (current : State n m K), Asking size (last value) current) :
    Safe (rxContract setup size client) (Asking size) (call.bind fun value => .ret (last value)) state :=
  call_safe still .trivial (fun _ _ _ _ none => False.elim none) trivial plain

/-- Every call of a registered receiver. -/
theorem receiver_safe (latest : setup.mode.dropOldest = true) {request : Request n}
    {program : Prog (State n m K) (Label n m)}
    (begins : startReceiver setup client consumer token request = some program)
    (ready : (rxContract setup size client).Ready state) (asks : Asks size (state.client client) request)
    (entry : Membership.Registered client consumer token state) :
    Safe (rxContract setup size client) (Asking size) program state := by
  have gives (message : Message n) (held : message ∈ (state.client client).held) {call : Prog (State n m K) Unit}
      (moves : Each (Moves client (Goal message.producerId message.nextPosition)) call) :
      Safe (rxContract setup size client) (Asking size)
        (call.bind fun _ => .ret (.receiver consumer token .ready)) state :=
    call_safe moves (shown setup size client message)
      (fun ready known _ _ goal => goal.placed (known.placed ready.knows.toFramed)) ((ready.keeps client).held message held) fun _ _ => trivial
  cases request with
  | tryRecv fixed =>
      cases begins
      exact begin_safe asks (moves_beginReceive fixed false) (ends_beginReceive fixed false)
  | tryRecvChecked fixed =>
      cases begins
      exact begin_safe asks (moves_beginReceiveChecked fixed) (ends_beginReceiveChecked fixed)
  | tryRecvRun cap =>
      cases begins
      simp only [latest, if_true]
      refine still_call (moves_reads (reads_hasConsumer consumer token)) fun registered current => ?_
      split
      · trivial
      · exact fun _ same => by cases same
  | release message =>
      cases begins
      exact gives message asks (moves_release message)
  | consume message =>
      cases begins
      exact gives message asks (moves_consume message)
  | flush =>
      cases begins
      exact still_call moves_flushBatch fun _ _ => trivial
  | skipToLatest producer fixed =>
      cases begins
      exact Safe.bind (lawful setup size (.client client)) (skipToLatest_safe asks entry) fun _ _ _ _ _ _ _ => trivial
  | unsubscribe =>
      cases begins
      exact still_call moves_destroyRx fun _ _ => trivial
  | _ => cases begins

/-- The cursors of a new subscriber are frame boundaries. -/
structure Starts (client : K) (consumer : Fin m) (token : Nat) (state : State n m K) : Prop where
  registered : Membership.Registered client consumer token state
  placed : ∀ producer, Placed producer (state.cursor producer consumer).position state

theorem Starts.stable (starts : Starts client consumer token before)
    (rely : (rxContract setup size client).rely before after) : Starts client consumer token after := by
  refine ⟨starts.registered.stable rely.1.toRxRely, fun producer => ?_⟩
  rw [(rely.1.registered consumer token starts.registered).2.1 producer]
  exact (starts.placed producer).grows rely.2

theorem starts_reads {program : Prog (State n m K) α} (reads : Reads program) (entry : Starts client consumer token state) :
    Safe (rxContract setup size client) (fun _ => Starts client consumer token) program state :=
  Safe.of_each reads
    (fun {before after} ready _ same held => by
      obtain rfl : after = before := same
      exact ⟨ready.keeps, (lawful setup size (.client client)).idle _, held⟩)
    (fun rely _ held => held.stable rely) entry

theorem starts_updateRx (goal : Fin n → Nat → Prop) (change : Rx n → Rx n)
    (read : ∀ rx producer, (change rx).readPositions producer = rx.readPositions producer ∨
      goal producer ((change rx).readPositions producer))
    (places : ∀ producer position, goal producer position → Placed producer position state)
    (entry : Starts client consumer token state) :
    Safe (rxContract setup size client) (fun _ => Starts client consumer token) (updateRx client change) state := by
  refine Safe.store_last fun current rely ready action => ?_
  have entry := entry.stable rely
  have moves : Moves client goal current (current.setRx client change) := .of_members change (by simp [State.setRx]) read
  have stands := moves.stands (ready.keeps client) action.2.grows fun producer position reached =>
    (places producer position reached).grows rely.2
  obtain ⟨kept, guaranteed⟩ := own_acts ready action stands
  have reached : Starts client consumer token (current.setRx client change) := by
    refine ⟨?_, fun producer => ?_⟩
    · show ((current.setRx client change).client client).registration = some (consumer, token)
      rw [State.setRx, State.setClient_client]
      exact entry.registered
    · rw [State.setRx_cursor]
      exact (entry.placed producer).grows action.2.grows
  exact ⟨kept, guaranteed, fun last rely _ => reached.stable rely⟩

theorem loadCursor_safe (entry : Starts client consumer token state) :
    Safe (rxContract setup size client) (fun _ => Starts client consumer token) (loadCursor client consumer producer)
      state := by
  have law := lawful setup size (.client client)
  refine Safe.load_bind law fun first rely _ => ?_
  have entry := entry.stable rely
  have placed := entry.placed producer
  refine Safe.load_bind law fun second rely _ => Safe.load_bind law fun third later _ => ?_
  exact starts_updateRx (Goal producer (first.cursor producer consumer).position) _
    (fun _ _ => moved_update _ _ _ _) (fun _ _ goal => goal.placed ((placed.grows rely.2).grows later.2))
    ((entry.stable rely).stable later)

theorem createRx_safe (entry : Starts client consumer token state) :
    Safe (rxContract setup size client) (fun _ _ => True) (createRx setup client consumer token) state := by
  have law := lawful setup size (.client client)
  refine Safe.bind law (starts_reads (reads_hasConsumer consumer token) entry) fun registered _ _ entry => ?_
  split
  · refine Safe.bind law (starts_reads ?_ entry) fun expected _ _ entry => Safe.bind law (starts_updateRx
      (fun _ _ => False) _ (fun _ _ => .inl rfl) (fun _ _ none => False.elim none) entry) fun _ _ _ entry => ?_
    · split
      · exact .load _
      · exact .ret _
    · exact Safe.weaken (Safe.forEach law (I := fun _ => Starts client consumer token) (fun rely _ held => held.stable rely)
        (fun _ _ _ held => loadCursor_safe held) entry) fun _ _ _ _ => trivial
  · exact fun _ _ _ => trivial

/-- A task inside the gate. -/
theorem runTask_safe (task : Task m) (entry : AtLabel client (.waiting task []) state) :
    Safe (rxContract setup size client) (Asking size) (runTask setup client task) state := by
  have law := lawful setup size (.client client)
  obtain ⟨gated, passed⟩ := entry.waiting task [] rfl
  have registering : Registering client state := ⟨gated, fun producer => passed producer List.not_mem_nil⟩
  have borrow {α' : Type} {P R : α' → State n m K → Prop} {call : Prog (State n m K) α'} {current : State n m K}
      (safe : Safe (rxContract setup size client) P call current)
      (membership : Safe (Membership.rxContract setup client) R call current) :
      Safe (rxContract setup size client) (fun value current => P value current ∧ R value current) call current :=
    safe.borrow membership (fun rely => rely.1.toRxRely) (fun ready => ⟨ready.knows.membership, trivial, ready.may⟩)
      fun _ => trivial
  have fresh {current : State n m K} (_ : (rxContract setup size client).Ready current) (_ : True) (producer : Fin n)
      (position : Nat) (zero : position = 0) : Placed producer position current := zero ▸ placed_zero producer current
  have leaves {current : State n m K} : Safe (rxContract setup size client) (Asking size)
      ((releaseRegistrationGate client).bind fun _ => .ret .unsubscribed) current :=
    still_call moves_releaseGate fun _ _ => trivial
  cases task with
  | unsubscribe consumer token =>
      exact Safe.bind law (moves_safe moves_releaseConsumer .trivial fresh trivial) fun _ _ _ _ => leaves
  | subscribe policy =>
      have unregistered : (state.client client).registration = none := entry.registration
      refine Safe.bind law (borrow (moves_safe (moves_acquireConsumer policy) .trivial fresh trivial)
        (Membership.acquireConsumer_safe policy ⟨registering, unregistered⟩)) fun taken _ _ held => ?_
      obtain ⟨-, held⟩ := held
      cases taken with
      | none => exact leaves
      | some registration =>
          obtain ⟨consumer, token⟩ := registration
          refine Safe.bind law (borrow (still_safe moves_releaseGate .trivial trivial) (Membership.releaseGate_begun held))
            fun _ current _ held => ?_
          have starts : Starts client consumer token current :=
            ⟨held.2.registered, fun producer => ⟨_, (Published.begun held.2).1 producer⟩⟩
          exact Safe.bind law (createRx_safe starts) fun _ _ _ _ _ _ _ => trivial

/-- Every call of a subscriber leaves it standing. -/
theorem client_safe (latest : setup.mode.dropOldest = true) {label : Label n m} {request : Request n}
    {program : Prog (State n m K) (Label n m)} (begins : startClient setup client label request = some program)
    (ready : (rxContract setup size client).Ready state)
    (asks : ∀ consumer token last, label = .receiver consumer token last → Asks size (state.client client) request)
    (rests : AtLabel client label state) (progress : Asking size label state) :
    Safe (rxContract setup size client) (Asking size) program state := by
  have law := lawful setup size (.client client)
  match label, request, begins with
  | .unsubscribed, .subscribe policy, begins =>
      cases begins
      exact still_call moves_acquireGate fun acquired _ => by cases acquired <;> trivial
  | .closing consumer token, .proceed, begins =>
      cases begins
      exact still_call moves_acquireGate fun acquired _ => by cases acquired <;> trivial
  | .waiting task (producer :: rest), .proceed, begins =>
      cases begins
      exact still_call (moves_same fun _ => ⟨rfl, trivial⟩) fun _ _ => trivial
  | .waiting task [], .proceed, begins =>
      cases begins
      exact runTask_safe task rests
  | .receiver consumer token last, request, begins =>
      exact receiver_safe latest begins ready (asks consumer token last rfl) rests.registration
  | .receiving consumer token receiving, .proceed, begins =>
      cases begins
      simp only [latest, if_true]
      exact Safe.bind law (receiveLatestPass_safe progress rests.registration) fun _ _ _ held _ rely ready =>
        (asking _).rely rely ready held
  | .collecting consumer token cap now, .proceed, begins =>
      cases begins
      exact Safe.bind law (runLatestPass_safe cap rests.registration progress) fun _ _ _ held _ rely ready =>
        (asking _).rely rely ready held

end Client

section Runs

/-- The same condition for the start of a call. -/
def MayStart (size : Option UInt32) (state : State n m K) : Thread n K → Label n m → Request n → Prop
  | .client client, .receiver _ _ _, request => Asks size (state.client client) request
  | _, _, _ => True

theorem sound (latest : setup.mode.dropOldest = true) : (discipline setup size).Sound (system setup) (MayStart size) where
  lawful := lawful setup size
  compatible := compatible
  start {thread label request program state} begins may ready rests held := by
    match thread, label, begins with
    | .producer producer, label, begins => exact Safe.of_action (others_act fun _ same => by cases same)
    | .environment, label, begins => exact Safe.of_action (others_act fun _ same => by cases same)
    | .client client, label, begins =>
        refine client_safe latest begins ready (fun consumer token last same => ?_) rests held
        subst same
        exact may

theorem begun (setup : Setup n m K) (size : Option UInt32) : (discipline setup size).Initial initial := by
  refine ⟨fun client => ⟨fun producer => placed_zero producer _, fun _ member => absurd member List.not_mem_nil,
    fun _ _ member => absurd member List.not_mem_nil⟩, fun thread => ?_⟩
  cases thread <;> exact fun _ _ _ => trivial

/-- A steady step whose claims have the payload size of the channel, and whose subscribers give back only what they have
borrowed. -/
structure Fair (setup : Setup n m K) (size : Option UInt32)
    (config : Concurrent.Config (State n m K) (Thread n K) (Label n m)) (event : Event (Thread n K) (Request n)) :
    Prop extends Retention.Steady setup config event where
  fits : ∀ producer request, event = .start (.producer producer) request → ClaimsFit size request
  asks : ∀ client request, event = .start (.client client) request → ∀ consumer token last,
    config.thread (.client client) = .ret (.receiver consumer token last) →
      Asks size (config.shared.client client) request

variable {config : Concurrent.Config (State n m K) (Thread n K) (Label n m)} {event : Event (Thread n K) (Request n)}

theorem Fair.respects (fair : Fair setup size config event) :
    (discipline setup size).Admits (MayStart size) config event := by
  match event, fair with
  | .act (.client _), fair => exact fair.acts
  | .act (.producer _), _ => trivial
  | .act .environment, _ => trivial
  | .start (.client client) request, fair =>
      intro label same
      cases label with
      | receiver consumer token last => exact fair.asks client request rfl consumer token last same
      | _ => trivial
  | .start (.producer _) _, _ => exact fun _ _ => trivial
  | .start .environment _, _ => exact fun _ _ => trivial

variable (latest : setup.mode.dropOldest = true)

include latest

theorem known_of_run (run : (system setup).Run (Fair setup size) initial config) : Known setup size config.shared where
  toFramed := Retention.framed_of_run latest (run.weaken fun _ _ fair => fair.toSteady)
  retains := Retention.of_run latest (run.weaken fun _ _ fair => fair.toSteady)
  fits := fits_of_run (fun fair => fair.acts) (fun fair => fair.fits _ _ rfl) run

theorem knows : (discipline setup size).Knows (system setup) (MayStart size) (Fair setup size) initial where
  respects fair := fair.respects
  known run := known_of_run latest run
  action run fair taken :=
    have steady := run.weaken fun _ _ fair => fair.toSteady
    ⟨Retention.guarded_of_step latest steady fair.toSteady taken,
      Retention.acted (Retention.spacious_run latest steady) fair.toSteady taken⟩
  rests run may rests := Membership.label_of_run (fun fair => fair.acts) run may rests

/-- Every subscriber stands in every state of a fair run. -/
theorem of_run (run : (system setup).Run (Fair setup size) initial config) (client : K) : Stands client config.shared :=
  ((sound latest).run (begun setup size) (knows latest) run).1 client

end Runs

end Borrowing

section Runs

variable [DecidableEq K] {setup : Setup n m K} {size : Option UInt32}
  {config : Concurrent.Config (State n m K) (Thread n K) (Label n m)}

end Runs

section Runs

end Runs

end Salias.SharedHybridMpsc
