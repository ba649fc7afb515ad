import Salias.Channel.Rx

/-
The programs of a receiver in the latest mode. A lease protects the range that a receiver reads.
-/

namespace Salias.SharedHybridMpsc

open Concurrent Salias.Frame ConsumerRegistration

/-- The low bits of a header extend the sequence next to be claimed. -/
def reconstructSequence (nextSequence word : Nat) : Nat :=
  let modulus := 1 <<< kSequenceLowBits
  let sequence := nextSequence / modulus * modulus ||| sequenceLowFromMeta word
  if nextSequence ≤ sequence ∧ modulus ≤ sequence then sequence - modulus else sequence

section Programs

variable {n m : Nat} {K : Type} [DecidableEq K]

def sequenceAtPosition (setup : Setup n m K) (producer : Fin n) (position : Nat) : Prog (State n m K) Nat := do
  let header ← loadHeader setup producer position
  let nextSequence ← .load fun state => (state.ring producer).localSequence
  pure (reconstructSequence nextSequence (headerMeta header))

/-- The announcement of the intent does not reach beyond the start. -/
def intentAllows (intent start : Nat) : Bool := intent = kNoLease || intent ≤ start

/-- The lease is announced before the intent and the floor are read. The stages of the lease are history. -/
def beginLatestLease (client : K) (consumer : Fin m) (token : Nat) (producer : Fin n)
    (start retainedSnapshot visibleBound : Nat) : Prog (State n m K) Bool := do
  let rx ← readRx client
  if rx.activeLeases producer then
    pure false
  else
    let current ← .load fun state => ((state.ring producer).consumers consumer).leaseStart
    if current ≠ kNoLease then
      pure false
    else
      storeProgress producer consumer fun cursor => {cursor with leaseEnd := visibleBound}
      .store fun state =>
        (state.setCursor producer consumer fun cursor =>
          {cursor with leaseStart := start, leaseStage := .announced start}).setRx client fun rx =>
            {rx with activeLeases := Function.update rx.activeLeases producer true}
      let intent ← .modifyGet (fun state => (state.ring producer).retentionIntent) fun state =>
        if intentAllows (state.ring producer).retentionIntent start then
          state.setCursor producer consumer fun cursor =>
            {cursor with leaseStage := .checked start (state.ring producer).retainedPosition}
        else state
      let floor ← .modifyGet (fun state => (state.ring producer).retainedPosition) fun state =>
        if (state.ring producer).retainedPosition = retainedSnapshot ∧ intentAllows intent start then
          state.setCursor producer consumer fun cursor =>
            {cursor with leaseStage := .held start (state.ring producer).writes.length}
        else state
      if floor ≠ retainedSnapshot ∨ intentAllows intent start = false then
        clearLatestLease client consumer token producer
        pure false
      else
        pure true

def publishLatestProgress (client : K) (consumer : Fin m) (producer : Fin n) (position sequence : Nat) :
    Prog (State n m K) Unit := do
  updateRx client fun rx => {rx with
    readPositions := Function.update rx.readPositions producer position
    nextSequences := Function.update rx.nextSequences producer sequence
    readMessageSequences := Function.update rx.readMessageSequences producer sequence
    flushedPositions := Function.update rx.flushedPositions producer position}
  storeProgress producer consumer fun cursor => {cursor with position := position}
  storeProgress producer consumer fun cursor => {cursor with sequence := sequence}
  storeProgress producer consumer fun cursor => {cursor with messageSequence := sequence}

def addLaggedMessages (producer : Fin n) (consumer : Fin m) (amount : Nat) : Prog (State n m K) Unit := do
  if amount ≠ 0 then
    storeProgress producer consumer fun cursor => {cursor with laggedMessages := cursor.laggedMessages + amount}

def addSkippedMessages (producer : Fin n) (consumer : Fin m) (amount : Nat) : Prog (State n m K) Unit := do
  if amount ≠ 0 then
    storeProgress producer consumer fun cursor => {cursor with skippedMessages := cursor.skippedMessages + amount}

/-- The end of a lease moves back to the borrowed range. -/
def narrowLease (producer : Fin n) (consumer : Fin m) (stop : Nat) : Prog (State n m K) Unit :=
  storeProgress producer consumer fun cursor => {cursor with leaseEnd := stop}

def isCommitted (message : Message n) : Bool := hasFlag message.word FLAG_COMMITTED

/-- What a receiver has found before it reads frames under a lease. -/
inductive Opening (n : Nat) where
  | nothing
  | refused
  | failed
  | opened (lagged : Bool) (start sequence gap visible : Nat)

/-- A receiver compares its cursor with the floor and takes a lease on the visible rest of the ring. -/
def openLatest (setup : Setup n m K) (client : K) (consumer : Fin m) (token : Nat) (producer : Fin n) :
    Prog (State n m K) (Opening n) := do
  let rx ← readRx client
  if rx.activeLeases producer then
    pure .nothing
  else
    let retained ← .load fun state => (state.ring producer).retainedPosition
    let visible ← .load fun state => (state.ring producer).visibleProducerPos
    if visible < retained then
      pure .nothing
    else
      let lagged := decide (rx.readPositions producer < retained)
      let mayLag ← (if lagged then consumerUsesDropOldest consumer else pure true)
      if !mayLag then
        clearLatestLease client consumer token producer
        pure .refused
      else
        let start := max (rx.readPositions producer) retained
        if visible ≤ start then
          pure .nothing
        else
          let begun ← beginLatestLease client consumer token producer start retained visible
          if begun then
            let sequence ← (if lagged then sequenceAtPosition setup producer retained
              else pure (rx.nextSequences producer))
            if sequence < rx.nextSequences producer then
              clearLatestLease client consumer token producer
              pure .failed
            else
              let gap := if lagged then sequence - rx.nextSequences producer else 0
              pure (.opened lagged start sequence gap visible)
          else
            pure .nothing

/-- One look at a ring in the latest mode. -/
def visitLatest (setup : Setup n m K) (client : K) (consumer : Fin m) (token : Nat) (fixed : Option UInt32)
    (reportLag : Bool) (now : Option Nat) (producer : Fin n) : Prog (State n m K) (Visit n) := do
  let opening ← openLatest setup client consumer token producer
  match opening with
  | .nothing => pure (.nothing now)
  | .refused => pure (.failed (if reportLag then some .BadConfig else none))
  | .failed => pure (.failed (if reportLag then some .BadConfig else none))
  | .opened lagged start sequence gap visible =>
      let read ← tryReadFromRing setup producer start sequence visible fixed
      match read.filter isCommitted with
      | none =>
          clearLatestLease client consumer token producer
          pure (if reportLag then .failed (some .BadConfig) else .nothing now)
      | some message =>
          .when lagged (do
            addLaggedMessages producer consumer gap
            publishLatestProgress client consumer producer start sequence)
          if lagged && reportLag then
            clearLatestLease client consumer token producer
            pure (.failed (some .Lagged))
          else
            let (expired, now) ← isExpired message now
            if expired then
              .store fun state => state.setClient client fun current =>
                {current.pass producer (.expired message (now.getD 0)) with
                  rx := {current.rx with expiredMessages := min kMax (current.rx.expiredMessages + 1)}}
              publishLatestProgress client consumer producer message.nextPosition (sequence + 1)
              clearLatestLease client consumer token producer
              updateRx client fun rx =>
                {rx with cachedVisiblePos := Function.update rx.cachedVisiblePos producer visible}
              pure (.skipped now)
            else
              narrowLease producer consumer message.nextPosition
              .store fun state => state.setClient client fun current =>
                {current.receive message (state.payload setup message) with
                  rx := {current.rx with
                    cachedVisiblePos := Function.update current.rx.cachedVisiblePos producer visible
                    lastHitRing := (producer.val + 1) % n}}
              pure (.found message)

/-- One pass of `try_recv_latest`. -/
def receiveLatestPass (setup : Setup n m K) (client : K) (consumer : Fin m) (token : Nat) (receiving : Receiving) :
    Prog (State n m K) (Received n) := do
  let rx ← readRx client
  let scanned ← .foldUntil
    (scanRound (visitLatest setup client consumer token receiving.fixed receiving.reportLag))
    (scanOrder n rx.lastHitRing) receiving.now
  match scanned with
  | .inr (.found message) => pure (.message message)
  | .inr (.skipped now) => pure (.again {receiving with now := now})
  | .inr (.failed error) => pure (error.elim .nothing .error)
  | .inr (.nothing _) => pure .nothing
  | .inl _ => pure .nothing

/-- One round of the batch loop under a lease. -/
def collectLatestRound (setup : Setup n m K) (client : K) (producer : Fin n) (cap visible : Nat)
    (collecting : Collecting n) : Prog (State n m K) (Collecting n ⊕ Collecting n) := do
  if collecting.out.length < cap then
    let read ← tryReadFromRing setup producer collecting.position collecting.sequence visible none
    match read.filter isCommitted with
    | none => pure (.inr collecting)
    | some message =>
        let (expired, now) ← isExpired message collecting.now
        let moved := {collecting with
          position := message.nextPosition
          sequence := collecting.sequence + 1
          advanced := collecting.advanced + 1
          now := now}
        if expired then
          .store fun state => state.setClient client fun current =>
            {current.pass producer (.expired message (now.getD 0)) with
              rx := {current.rx with expiredMessages := min kMax (current.rx.expiredMessages + 1)}}
          pure (.inl moved)
        else
          .store fun state => state.setClient client fun current =>
            current.receive message (state.payload setup message)
          pure (.inl {moved with out := collecting.out ++ [message]})
  else
    pure (.inr collecting)

inductive RunReceived (n : Nat) where
  | again (now : Option Nat)
  | messages (out : List (Message n))

/-- One look of the batch receive at a ring in the latest mode. -/
def runLatestRound (setup : Setup n m K) (client : K) (consumer : Fin m) (token cap : Nat) (now : Option Nat)
    (producer : Fin n) : Prog (State n m K) (Option Nat ⊕ RunReceived n) := do
  let opening ← openLatest setup client consumer token producer
  match opening with
  | .nothing => pure (.inl now)
  | .refused => pure (.inl now)
  | .failed => pure (.inl now)
  | .opened lagged start sequence gap visible =>
      let collected ← .repeatUntil (collectLatestRound setup client producer cap visible) (visible - start + 1)
        ⟨start, sequence, 0, 0, now, []⟩
      let result := collected.elim id id
      .when lagged (addLaggedMessages producer consumer gap)
      if result.out.isEmpty then
        let skipped := decide (result.position ≠ start)
        .when skipped (do
          publishLatestProgress client consumer producer result.position result.sequence
          updateRx client fun rx =>
            {rx with cachedVisiblePos := Function.update rx.cachedVisiblePos producer visible})
        clearLatestLease client consumer token producer
        if skipped then
          updateRx client fun rx => {rx with lastHitRing := (producer.val + 1) % n}
          pure (.inr (.again result.now))
        else
          pure (.inl result.now)
      else
        updateRx client fun rx => {rx with
          readPositions := Function.update rx.readPositions producer result.position
          nextSequences := Function.update rx.nextSequences producer result.sequence
          readMessageSequences := Function.update rx.readMessageSequences producer result.sequence}
        narrowLease producer consumer result.position
        updateRx client fun rx => {rx with
          cachedVisiblePos := Function.update rx.cachedVisiblePos producer visible
          lastHitRing := (producer.val + 1) % n}
        pure (.inr (.messages result.out))

/-- One pass of `try_recv_run_latest`. -/
def runLatestPass (setup : Setup n m K) (client : K) (consumer : Fin m) (token cap : Nat) (now : Option Nat) :
    Prog (State n m K) (RunReceived n) := do
  let rx ← readRx client
  let scanned ← .foldUntil (runLatestRound setup client consumer token cap) (scanOrder n rx.lastHitRing) now
  match scanned with
  | .inl _ => pure (.messages [])
  | .inr result => pure result

/-- One round of the walk to the last visible frame carries the position, the sequence and the last frame. -/
def skipRound (setup : Setup n m K) (producer : Fin n) (visible : Nat) (fixed : Option UInt32)
    (carried : Nat × Nat × Option (Message n)) :
    Prog (State n m K) ((Nat × Nat × Option (Message n)) ⊕ Option (Message n)) := do
  if carried.1 < visible then
    let read ← tryReadFromRing setup producer carried.1 carried.2.1 visible fixed
    match read.filter isCommitted with
    | none => pure (.inr none)
    | some message => pure (.inl (message.nextPosition, carried.2.1 + 1, some message))
  else
    pure (.inr carried.2.2)

/-- `skip_to_latest_payload` leaves the last visible frame unread. -/
def skipToLatest (setup : Setup n m K) (client : K) (consumer : Fin m) (token : Nat) (producer : Fin n)
    (fixed : Option UInt32) : Prog (State n m K) (Except ReceiveError Nat) := do
  let allowed ← (if setup.mode.dropOldest then consumerUsesDropOldest consumer else pure false)
  let registered ← hasConsumer consumer token
  let rx ← readRx client
  if !allowed || !registered then
    pure (.error .BadConfig)
  else if rx.activeLeases producer then
    pure (.error .BackPressured)
  else
    let retained ← .load fun state => (state.ring producer).retainedPosition
    let visible ← .load fun state => (state.ring producer).visibleProducerPos
    let start := max (rx.readPositions producer) retained
    if visible < retained then
      pure (.error .BackPressured)
    else if visible ≤ start then
      pure (.ok 0)
    else
      let begun ← beginLatestLease client consumer token producer start retained visible
      if !begun then
        pure (.error .BackPressured)
      else
        let previous := rx.nextSequences producer
        let first ← (if rx.readPositions producer < retained then sequenceAtPosition setup producer retained
          else pure previous)
        if first < previous then
          clearLatestLease client consumer token producer
          pure (.error .BadConfig)
        else
          let walked ← .repeatUntil (skipRound setup producer visible fixed) (visible - start + 1)
            (start, first, none)
          match walked with
          | .inr (some last) =>
              addLaggedMessages producer consumer (first - previous)
              addSkippedMessages producer consumer (last.sequence - first)
              publishLatestProgress client consumer producer last.position last.sequence
              clearLatestLease client consumer token producer
              pure (.ok (last.sequence - previous))
          | _ =>
              clearLatestLease client consumer token producer
              pure (.error .BadConfig)

end Programs
end Salias.SharedHybridMpsc
