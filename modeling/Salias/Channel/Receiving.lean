import Salias.Channel.MembershipSafety

/-
A registered receiver owns its members and the shared words of its slot: only its own actions move them.
-/

namespace Salias.SharedHybridMpsc

open Concurrent Salias.Frame ConsumerRegistration

variable {n m : Nat} {K : Type}

/-- The words that belong to one receiver. -/
structure RxView (n m : Nat) where
  client : Client n m
  cursor : Fin n → ConsumerSharedState
  expected : Nat

namespace RxView

variable (view : RxView n m)

def rx : Rx n := view.client.rx

def setClient (change : Client n m → Client n m) : RxView n m := {view with client := change view.client}

def setRx (change : Rx n → Rx n) : RxView n m :=
  view.setClient fun client => {client with rx := change client.rx}

def setCursor (producer : Fin n) (change : ConsumerSharedState → ConsumerSharedState) : RxView n m :=
  {view with cursor := Function.update view.cursor producer (change (view.cursor producer))}

def setExpected (sequence : Nat) : RxView n m := {view with expected := sequence}

@[simp] theorem setRx_rx (change : Rx n → Rx n) : (view.setRx change).rx = change view.rx := rfl
@[simp] theorem setRx_cursor (change : Rx n → Rx n) : (view.setRx change).cursor = view.cursor := rfl
@[simp] theorem setRx_expected (change : Rx n → Rx n) : (view.setRx change).expected = view.expected := rfl

variable (producer : Fin n) (change : ConsumerSharedState → ConsumerSharedState)

@[simp] theorem setCursor_rx : (view.setCursor producer change).rx = view.rx := rfl
@[simp] theorem setCursor_expected : (view.setCursor producer change).expected = view.expected := rfl

@[simp] theorem setCursor_cursor : (view.setCursor producer change).cursor producer = change (view.cursor producer) := by
  simp [setCursor]

@[simp] theorem setCursor_cursor_of_ne {other : Fin n} (apart : other ≠ producer) :
    (view.setCursor producer change).cursor other = view.cursor other := by
  simp [setCursor, apart]

@[simp] theorem setExpected_rx (sequence : Nat) : (view.setExpected sequence).rx = view.rx := rfl
@[simp] theorem setExpected_cursor (sequence : Nat) : (view.setExpected sequence).cursor = view.cursor := rfl
@[simp] theorem setExpected_expected (sequence : Nat) : (view.setExpected sequence).expected = sequence := rfl

end RxView

def State.rxView (state : State n m K) (client : K) (consumer : Fin m) : RxView n m where
  client := state.client client
  cursor producer := state.cursor producer consumer
  expected := state.consumerSequences consumer

section View

variable (state : State n m K) (client : K) (consumer : Fin m)

theorem State.rxView_setCursor (producer : Fin n) (change : ConsumerSharedState → ConsumerSharedState) :
    (state.setCursor producer consumer change).rxView client consumer =
      (state.rxView client consumer).setCursor producer change := by
  simp only [State.rxView, RxView.setCursor, State.setCursor_client, State.setCursor_consumerSequences,
    RxView.mk.injEq, true_and, and_true]
  funext other
  by_cases same : other = producer
  · subst same
    simp
  · rw [Function.update_of_ne same, State.setCursor_cursor_of_ne _ _ _ _ _ _ (.inl same)]

theorem State.rxView_setExpected (sequence : Nat) :
    State.rxView {state with consumerSequences := Function.update state.consumerSequences consumer sequence} client
      consumer = (state.rxView client consumer).setExpected sequence := by
  simp only [State.rxView, RxView.setExpected, Function.update_self, RxView.mk.injEq, true_and, and_true]
  rfl

variable [DecidableEq K]

theorem State.rxView_setClient (change : Client n m → Client n m) :
    (state.setClient client change).rxView client consumer =
      (state.rxView client consumer).setClient change := by
  simp only [State.rxView, RxView.setClient, State.setClient_client, State.setClient_consumerSequences,
    RxView.mk.injEq, true_and, and_true]
  rfl

theorem State.rxView_setRx (change : Rx n → Rx n) :
    (state.setRx client change).rxView client consumer = (state.rxView client consumer).setRx change :=
  state.rxView_setClient client consumer _

end View

/-- The receiver is registered, and its own words satisfy a fact. -/
structure Receives (client : K) (consumer : Fin m) (token : Nat) (holds : RxView n m → Prop) (state : State n m K) :
    Prop where
  registered : (state.client client).registration = some (consumer, token)
  holds : holds (state.rxView client consumer)

section Receives

variable {client : K} {consumer : Fin m} {token : Nat} {holds wider : RxView n m → Prop} {before after : State n m K}

theorem RxRely.rxView (rely : RxRely client before after)
    (registered : (before.client client).registration = some (consumer, token)) :
    after.rxView client consumer = before.rxView client consumer := by
  obtain ⟨-, cursor, expected⟩ := rely.registered consumer token registered
  simp only [State.rxView, rely.same, cursor, expected]

theorem Receives.stable (receives : Receives client consumer token holds before) (rely : RxRely client before after) :
    Receives client consumer token holds after :=
  ⟨by rw [rely.same]; exact receives.registered, rely.rxView receives.registered ▸ receives.holds⟩

theorem Receives.mono (receives : Receives client consumer token holds before)
    (implied : ∀ view, holds view → wider view) : Receives client consumer token wider before :=
  ⟨receives.registered, implied _ receives.holds⟩

end Receives

/-- The counters of all consumers stay. -/
def SameReads (before after : State n m K) : Prop :=
  ∀ (gauge : Gauge) producer consumer,
    gauge.read (after.cursor producer consumer) = gauge.read (before.cursor producer consumer)

/-- An action beside the rings. -/
def SameRings (before after : State n m K) : Prop := after.ring = before.ring

theorem SameRings.cursor {before after : State n m K} (same : SameRings before after) (producer : Fin n) (consumer : Fin m) :
    after.cursor producer consumer = before.cursor producer consumer := by
  unfold State.cursor
  rw [same]

/-- A contract under which a client enters and leaves: what it does beside the rings or without a slot is granted. -/
structure ClientContract (client : K) (contract : Contract (State n m K)) : Prop where
  lawful : contract.Lawful
  rely : ∀ {before after}, contract.rely before after → RxRely client before after
  aside : ∀ {before after}, contract.Ready before → contract.action before after → SameRings before after →
    contract.invariant after ∧ contract.guarantee before after
  unregistered : ∀ {before after}, contract.Ready before → contract.action before after →
    (before.client client).registration = none → contract.invariant after ∧ contract.guarantee before after

namespace ClientContract

variable {client : K} {contract : Contract (State n m K)} {state : State n m K} {α β : Type}
  (owner : ClientContract client contract)

include owner

/-- A program that leaves the rings alone. -/
theorem aside_safe {program : Prog (State n m K) α} (each : Each SameRings program) :
    Safe contract (fun _ _ => True) program state :=
  Safe.of_each (I := fun _ => True) each
    (fun ready action same _ => by
      obtain ⟨kept, guaranteed⟩ := owner.aside ready action same
      exact ⟨kept, guaranteed, trivial⟩) (fun _ _ _ => trivial) trivial

theorem aside_bind {program : Prog (State n m K) α} {rest : α → Prog (State n m K) β} {P : β → State n m K → Prop}
    (each : Each SameRings program) (continues : ∀ value current, Safe contract P (rest value) current) :
    Safe contract P (program.bind rest) state :=
  Safe.bind owner.lawful (owner.aside_safe each) fun value current _ _ => continues value current

/-- A program that keeps the registration of a client without one. -/
theorem unregistered_safe {program : Prog (State n m K) α} (each : Each (fun before after : State n m K =>
      (after.client client).registration = (before.client client).registration) program)
    (entry : (state.client client).registration = none) :
    Safe contract (fun _ state => (state.client client).registration = none) program state :=
  Safe.of_each each
    (fun ready action same held => by
      obtain ⟨kept, guaranteed⟩ := owner.unregistered ready action held
      exact ⟨kept, guaranteed, same.trans held⟩)
    (fun rely _ held => by rw [(owner.rely rely).same]; exact held) entry

end ClientContract

/-- A contract under which a receiver runs: its own words are its own, and every permitted action that moves the
published progress in an admitted way is granted. -/
structure ReceiverContract [DecidableEq K] (setup : Setup n m K) (client : K) (contract : Contract (State n m K))
    (moves : State n m K → State n m K → Prop) : Prop where
  lawful : contract.Lawful
  rely : ∀ {before after}, contract.rely before after → RxRely client before after
  ready : ∀ {state}, contract.Ready state → (Membership.rxContract setup client).Ready state
  keeps : ∀ {before after}, contract.Ready before → contract.action before after → moves before after →
    contract.invariant after ∧ contract.guarantee before after
  still : ∀ {before after}, SameReads before after → moves before after
  unregistered : ∀ {before after : State n m K}, (before.client client).registration = none → moves before after

section Rules

variable [DecidableEq K] {setup : Setup n m K} {client : K} {contract : Contract (State n m K)}
  {moves : State n m K → State n m K → Prop} {consumer : Fin m} {token : Nat} {holds Q : RxView n m → Prop}
  {state : State n m K} {α β : Type}

/-- The receiver may publish a position and a count of messages in one ring over the words of before. -/
def Publishes (contract : Contract (State n m K)) (moves : State n m K → State n m K → Prop) (client : K)
    (consumer : Fin m) (token : Nat) (fact : State n m K → Prop) (producer : Fin n) (before : ConsumerSharedState)
    (position messageSequence : Nat) : Prop :=
  ∀ current, contract.Ready current → (current.client client).registration = some (consumer, token) → fact current →
    ((current.cursor producer consumer).position = before.position →
      moves current (current.setCursor producer consumer fun cursor => {cursor with position := position})) ∧
    ((current.cursor producer consumer).messageSequence = before.messageSequence →
      moves current (current.setCursor producer consumer fun cursor => {cursor with messageSequence := messageSequence}))

namespace ReceiverContract

variable (receiver : ReceiverContract setup client contract moves)

include receiver

theorem clientContract : ClientContract client contract where
  lawful := receiver.lawful
  rely := receiver.rely
  aside ready action same := receiver.keeps ready action (receiver.still fun _ _ _ => by rw [same.cursor])
  unregistered ready action none := receiver.keeps ready action (receiver.unregistered none)

/-- What the membership proves of a program holds under the contract. -/
theorem borrow {P R : α → State n m K → Prop} {program : Prog (State n m K) α} (safe : Safe contract P program state)
    (membership : Safe (Membership.rxContract setup client) R program state) :
    Safe contract (fun value current => P value current ∧ R value current) program state :=
  safe.borrow membership receiver.rely receiver.ready fun _ => trivial

/-- One store to the own words. -/
theorem store {update : State n m K → State n m K} (entry : Receives client consumer token holds state)
    (registration : ∀ state, ((update state).client client).registration = (state.client client).registration)
    (moved : ∀ current, contract.Ready current → Receives client consumer token holds current →
      moves current (update current))
    (reached : ∀ current, contract.Ready current → Receives client consumer token holds current →
      Q ((update current).rxView client consumer)) :
    Safe contract (fun _ => Receives client consumer token Q) (Prog.store update) state := by
  refine Safe.store_last fun current rely ready action => ?_
  have held := entry.stable (receiver.rely rely)
  obtain ⟨kept, guaranteed⟩ := receiver.keeps ready action (moved current ready held)
  have moved : Receives client consumer token Q (update current) :=
    ⟨(registration current).trans held.registered, reached current ready held⟩
  exact ⟨kept, guaranteed, fun last rely _ => moved.stable (receiver.rely rely)⟩

/-- A program that only reads leaves the own words alone. -/
theorem reads {program : Prog (State n m K) α} (reads : Reads program)
    (entry : Receives client consumer token holds state) :
    Safe contract (fun _ => Receives client consumer token holds) program state :=
  Safe.of_each reads
    (fun ready action same held => by
      obtain ⟨kept, guaranteed⟩ := receiver.keeps ready action (receiver.still fun _ _ _ => by rw [same])
      exact ⟨kept, guaranteed, by rw [same]; exact held⟩)
    (fun rely _ held => held.stable (receiver.rely rely)) entry

theorem bind {Q : α → RxView n m → Prop} {P : β → State n m K → Prop} {program : Prog (State n m K) α}
    {rest : α → Prog (State n m K) β}
    (safe : Safe contract (fun value => Receives client consumer token (Q value)) program state)
    (continues : ∀ value current, Receives client consumer token (Q value) current →
      Safe contract P (rest value) current) : Safe contract P (program.bind rest) state :=
  Safe.bind receiver.lawful safe fun value current _ => continues value current

theorem ret {value : α} {P : α → RxView n m → Prop} (entry : Receives client consumer token (P value) state) :
    Safe contract (fun value => Receives client consumer token (P value)) (.ret value) state :=
  fun _ rely _ => entry.stable (receiver.rely rely)

/-- The token of a living receiver is valid. -/
theorem valid (ready : contract.Ready state) (registered : (state.client client).registration = some (consumer, token)) :
    phase token = kActive ∧ (state.slot consumer).state = token := by
  obtain ⟨active, owns, -⟩ :=
    (receiver.ready ready).keeps.registered client consumer token (receiver.ready ready).may registered
  have word : (state.slot consumer).state = token := by
    have := owns.registration.symm.trans registered
    simpa using this
  exact ⟨word ▸ active, word⟩

theorem hasConsumer_bind {P : α → State n m K → Prop} {rest : Bool → Prog (State n m K) α}
    (entry : Receives client consumer token holds state)
    (continues : ∀ current, Receives client consumer token holds current → Safe contract P (rest true) current) :
    Safe contract P ((hasConsumer consumer token).bind rest) state := by
  refine Safe.load_bind receiver.lawful fun current rely ready => ?_
  have held := entry.stable (receiver.rely rely)
  rw [decide_eq_true (receiver.valid ready held.registered)]
  exact continues current held

/-- The members are read from the own words. -/
theorem readRx_bind {P : α → State n m K → Prop} {rest : Rx n → Prog (State n m K) α}
    (entry : Receives client consumer token holds state)
    (continues : ∀ view current, holds view → Receives client consumer token (· = view) current →
      Safe contract P (rest view.rx) current) : Safe contract P ((readRx client).bind rest) state := by
  refine Safe.load_bind receiver.lawful fun current rely _ => ?_
  have held := entry.stable (receiver.rely rely)
  exact continues (current.rxView client consumer) current held.holds ⟨held.registered, rfl⟩

end ReceiverContract

end Rules

section Progress

/-- The progress of one ring, published. -/
def RxView.flushRing (setup : Setup n m K) (view : RxView n m) (producer : Fin n) : RxView n m :=
  let rx := view.rx
  if rx.readPositions producer = rx.flushedPositions producer then view
  else
    ((view.setCursor producer fun cursor => {cursor with
        position := rx.readPositions producer
        messageSequence := rx.readMessageSequences producer
        sequence := if setup.mode.ordered then rx.expectedSequence else rx.nextSequences producer}).setExpected
      (if setup.mode.ordered then rx.expectedSequence else view.expected)).setRx fun rx =>
        {rx with flushedPositions := Function.update rx.flushedPositions producer (rx.readPositions producer)}

/-- The members after the release of a message. -/
def Rx.release (setup : Setup n m K) (message : Message n) (rx : Rx n) : Rx n :=
  let moved := rx.advance setup message
  {moved with flushedPositions := Function.update rx.flushedPositions message.producerId message.nextPosition}

/-- The progress of one ring after the release of a message. -/
def RxView.release (setup : Setup n m K) (message : Message n) (view : RxView n m) : RxView n m :=
  let count := view.rx.readMessageSequences message.producerId + 1
  ((view.setCursor message.producerId fun cursor => {cursor with
      position := message.nextPosition
      messageSequence := count
      sequence := message.sequence + 1}).setExpected
    (if setup.mode.ordered then message.sequence + 1 else view.expected)).setRx (Rx.release setup message)

/-- The loan of a message ends. -/
def RxView.returns (message : Message n) (view : RxView n m) : RxView n m :=
  view.setClient fun client => {client with held := client.held.filter fun other => other != message}

variable [DecidableEq K] {setup : Setup n m K} {client : K} {contract : Contract (State n m K)}
  {moves : State n m K → State n m K → Prop} {consumer : Fin m} {token : Nat} {view : RxView n m} {state : State n m K}
  {fact : State n m K → Prop}

namespace ReceiverContract

variable (receiver : ReceiverContract setup client contract moves)

include receiver

theorem updateRx (change : Rx n → Rx n) (entry : Receives client consumer token (· = view) state) :
    Safe contract (fun _ => Receives client consumer token (· = view.setRx change)) (updateRx client change) state :=
  receiver.store entry (fun state => by simp [State.setRx]) (fun _ _ _ => receiver.still fun _ _ _ => rfl)
    fun current _ held => by rw [State.rxView_setRx, held.holds]

/-- One store to a cursor; a further fact lasts. -/
theorem storeProgress (producer : Fin n) (change : ConsumerSharedState → ConsumerSharedState)
    (lasts : Lasting contract fact)
    (moved : ∀ current, contract.Ready current → Receives client consumer token (· = view) current → fact current →
      moves current (current.setCursor producer consumer change))
    (entry : Receives client consumer token (· = view) state) (known : fact state) :
    Safe contract (fun _ current => Receives client consumer token (· = view.setCursor producer change) current ∧
        fact current)
      (storeProgress producer consumer change) state := by
  refine Safe.store_last fun current rely ready action => ?_
  have held := entry.stable (receiver.rely rely)
  have known := lasts.rely rely ready known
  obtain ⟨kept, guaranteed⟩ := receiver.keeps ready action (moved current ready held known)
  have reached : Receives client consumer token (· = view.setCursor producer change)
      (current.setCursor producer consumer change) :=
    ⟨held.registered, by rw [State.rxView_setCursor, held.holds]⟩
  exact ⟨kept, guaranteed, fun last rely later =>
    ⟨reached.stable (receiver.rely rely), lasts.rely rely later (lasts.action ready action known)⟩⟩

/-- The words that no producer reads may move freely. -/
theorem storeSequence (producer : Fin n) (sequence : Nat) (lasts : Lasting contract fact)
    (entry : Receives client consumer token (· = view) state) (known : fact state) :
    Safe contract (fun _ current => Receives client consumer token
        (· = view.setCursor producer fun cursor => {cursor with sequence := sequence}) current ∧ fact current)
      (SharedHybridMpsc.storeProgress producer consumer fun cursor => {cursor with sequence := sequence}) state := by
  refine receiver.storeProgress producer _ lasts (fun current _ _ _ => receiver.still fun gauge other reader => ?_) entry
    known
  by_cases same : other = producer ∧ reader = consumer
  · obtain ⟨rfl, rfl⟩ := same
    rw [State.setCursor_cursor]
    cases gauge <;> rfl
  · rw [State.setCursor_cursor_of_ne _ _ _ _ _ _ (by tauto)]

theorem storeExpectedSequence (sequence : Nat) (entry : Receives client consumer token (· = view) state) :
    Safe contract (fun _ => Receives client consumer token (· = view.setExpected sequence))
      (storeExpectedSequence consumer sequence) state :=
  receiver.store entry (fun _ => rfl) (fun _ _ _ => receiver.still fun _ _ _ => rfl)
    fun current _ held => by rw [State.rxView_setExpected, held.holds]

/-- A store of the ordered modes. -/
theorem whenOrdered (sequence : Nat) (entry : Receives client consumer token (· = view) state) :
    Safe contract (fun _ => Receives client consumer token
        (· = view.setExpected (if setup.mode.ordered then sequence else view.expected)))
      (.when setup.mode.ordered (SharedHybridMpsc.storeExpectedSequence consumer sequence)) state := by
  unfold Prog.when
  split
  · exact receiver.storeExpectedSequence sequence entry
  · exact receiver.ret entry

theorem consume (message : Message n) (entry : Receives client consumer token (· = view) state) :
    Safe contract (fun _ => Receives client consumer token (· = view.setRx (Rx.advance setup message)))
      (consume setup client consumer token message) state :=
  receiver.hasConsumer_bind entry fun _ held => receiver.updateRx _ held

/-- The members and the history of a client after an expired frame. -/
theorem consumeExpired (message : Message n) (now : Option Nat)
    (entry : Receives client consumer token (· = view) state) :
    Safe contract (fun _ => Receives client consumer token (· = view.setClient fun current =>
        {({current with rx := current.rx.advance setup message} : Client n m).pass message.producerId
            (.expired message (now.getD 0)) with
          rx := {current.rx.advance setup message with
            expiredMessages := min kMax ((current.rx.advance setup message).expiredMessages + 1)}}))
      (consumeExpired setup client consumer token message now) state := by
  refine receiver.hasConsumer_bind entry fun current held => ?_
  refine receiver.store held (fun state => by simp [Client.pass]) (fun _ _ _ => receiver.still fun _ _ _ => rfl)
    fun current _ held => ?_
  rw [State.rxView_setClient, held.holds]
  rfl

/-- The progress of one ring up to a position, with its counters. -/
theorem publishFifoPrefixProgress (producer : Fin n) (position sequence messageSequence : Nat)
    (lasts : Lasting contract fact)
    (publishes : Publishes contract moves client consumer token fact producer (view.cursor producer) position
      messageSequence)
    (entry : Receives client consumer token (· = view) state) (known : fact state) :
    Safe contract (fun _ => Receives client consumer token (· = (view.setCursor producer fun cursor => {cursor with
        position := position
        sequence := sequence
        messageSequence := messageSequence}).setRx fun rx =>
          {rx with flushedPositions := Function.update rx.flushedPositions producer position}))
      (publishFifoPrefixProgress client consumer producer position sequence messageSequence) state := by
  refine Safe.bind receiver.lawful (receiver.storeProgress producer _ lasts (fun current ready held known =>
    (publishes current ready held.registered known).1 (by rw [← held.holds]; rfl)) entry known) fun _ _ _ held => ?_
  refine Safe.bind receiver.lawful (receiver.storeSequence producer sequence lasts held.1 held.2) fun _ _ _ held => ?_
  refine Safe.bind receiver.lawful (receiver.storeProgress producer _ lasts (fun current ready held known =>
    (publishes current ready held.registered known).2 ?_) held.1 held.2) fun _ _ _ held => ?_
  · have same := congrArg (fun view : RxView n m => (view.cursor producer).messageSequence) held.holds
    refine same.trans ?_
    simp
  · refine Safe.weaken (receiver.updateRx _ held.1) fun _ _ _ held => Receives.mono held fun _ same => Eq.trans same ?_
    simp [RxView.setCursor, RxView.setRx, RxView.setClient]

variable (reliable : setup.mode.dropOldest = false)

include reliable

theorem flushRing (producer : Fin n) (lasts : Lasting contract fact)
    (publishes : Publishes contract moves client consumer token fact producer (view.cursor producer)
      (view.rx.readPositions producer) (view.rx.readMessageSequences producer))
    (entry : Receives client consumer token (· = view) state) (known : fact state) :
    Safe contract (fun _ => Receives client consumer token (· = view.flushRing setup producer))
      (flushRing setup client consumer token producer) state := by
  refine Safe.load_bind receiver.lawful fun current rely ready => ?_
  have held := entry.stable (receiver.rely rely)
  have known := lasts.rely rely ready known
  have same : (current.client client).rx = view.rx := by
    rw [← held.holds]
    rfl
  rw [same]
  by_cases flushed : view.rx.readPositions producer = view.rx.flushedPositions producer
  · rw [if_pos flushed, show view.flushRing setup producer = view from if_pos flushed]
    exact receiver.ret held
  rw [if_neg flushed, show view.flushRing setup producer = _ from if_neg flushed]
  refine Safe.bind receiver.lawful (receiver.storeProgress producer _ lasts (fun current ready held known =>
    (publishes current ready held.registered known).1 (by rw [← held.holds]; rfl)) held known) fun _ _ _ held => ?_
  refine Safe.bind receiver.lawful (receiver.storeProgress producer _ lasts (fun current ready held known =>
    (publishes current ready held.registered known).2 ?_) held.1 held.2) fun _ _ _ held => ?_
  · have same := congrArg (fun view : RxView n m => (view.cursor producer).messageSequence) held.holds
    refine same.trans ?_
    simp
  refine receiver.bind (receiver.whenOrdered _ held.1) fun _ _ held => ?_
  refine Safe.bind receiver.lawful (receiver.storeSequence producer _ .trivial held trivial) fun _ _ _ held => ?_
  refine receiver.bind (receiver.updateRx _ held.1) fun _ _ held => ?_
  simp only [reliable, Bool.false_eq_true, if_false]
  refine receiver.ret (Receives.mono held fun _ same => Eq.trans same ?_)
  cases setup.mode.ordered <;>
    simp [RxView.setCursor, RxView.setExpected, RxView.setRx, RxView.setClient, RxView.rx]

/-- The release also ends the loan of the message. -/
theorem release (message : Message n) (lasts : Lasting contract fact)
    (publishes : Publishes contract moves client consumer token fact message.producerId (view.cursor message.producerId)
      message.nextPosition (view.rx.readMessageSequences message.producerId + 1))
    (entry : Receives client consumer token (· = view) state) (known : fact state) :
    Safe contract (fun _ => Receives client consumer token (· = (view.release setup message).returns message))
      (release setup client consumer token message) state := by
  let returned : RxView n m := view.setClient fun client => {client with
    held := client.held.filter fun other => other != message
    rx := {client.rx with
      readPositions := Function.update client.rx.readPositions message.producerId message.nextPosition
      readMessageSequences := Function.update client.rx.readMessageSequences message.producerId
        (client.rx.readMessageSequences message.producerId + 1)}}
  refine Safe.load_bind receiver.lawful fun current rely ready => ?_
  have held := entry.stable (receiver.rely rely)
  have known := lasts.rely rely ready known
  rw [decide_eq_true (receiver.valid ready held.registered), if_pos rfl]
  refine Safe.bind receiver.lawful (Safe.lasting (P := fun _ => Receives client consumer token (· = returned))
    (receiver.store held (fun state => by simp) (fun _ _ _ => receiver.still fun _ _ _ => rfl) fun current _ held => by
      rw [State.rxView_setClient, held.holds]) lasts known) fun _ _ _ held => ?_
  refine Safe.bind receiver.lawful (receiver.storeProgress message.producerId _ lasts
    (fun current ready held known => (publishes current ready held.registered known).1 ?_) held.1 held.2) fun _ _ _ held => ?_
  · exact congrArg (fun view : RxView n m => (view.cursor message.producerId).position) held.holds
  refine Safe.bind receiver.lawful ((receiver.updateRx _ held.1).lasting lasts held.2) fun _ _ _ held => ?_
  refine Safe.load_bind receiver.lawful fun current rely ready => ?_
  have own := held.1.stable (receiver.rely rely)
  have known := lasts.rely rely ready held.2
  have counted : (current.client client).rx.readMessageSequences message.producerId =
      view.rx.readMessageSequences message.producerId + 1 := by
    have same := congrArg (fun view : RxView n m => view.rx.readMessageSequences message.producerId) own.holds
    exact same.trans (Function.update_self _ _ _)
  rw [counted]
  refine Safe.bind receiver.lawful (receiver.storeProgress message.producerId _ lasts
    (fun current ready held known => (publishes current ready held.registered known).2 ?_)
    own known) fun _ _ _ held => ?_
  · have same := congrArg (fun view : RxView n m => (view.cursor message.producerId).messageSequence) held.holds
    refine same.trans ?_
    simp [returned, RxView.setClient]
  refine receiver.bind (receiver.updateRx _ held.1) fun _ _ held => ?_
  refine receiver.bind (receiver.whenOrdered _ held) fun _ _ held => ?_
  refine Safe.bind receiver.lawful (receiver.storeSequence message.producerId _ .trivial held trivial)
    fun _ _ _ held => ?_
  simp only [reliable, Bool.false_eq_true, if_false]
  refine receiver.ret (Receives.mono held.1 fun _ same => Eq.trans same ?_)
  cases ordered : setup.mode.ordered <;>
    simp [returned, RxView.returns, RxView.release, Rx.release, Rx.advance, RxView.setCursor, RxView.setExpected,
      RxView.setRx, RxView.setClient, RxView.rx, ordered]

end ReceiverContract

end Progress

end Salias.SharedHybridMpsc
