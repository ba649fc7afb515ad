import Salias.FixedChannel.Publisher

/-
A subscriber receives one message after the other, or polls several and publishes its progress once. On a ring that
stands still both ways come to the same.
-/

namespace Salias.FixedChannel

open Concurrent FastRing SharedHybridMpsc

variable {p c : Nat} (setup : Setup p c)

/-- The payload of the outstanding read. -/
def copyPayload (consumer : Fin c) (lane : Fin p) : Prog (FastRing.State p c) (List UInt8) :=
  .load fun state => ((state.lane lane).slot (setup.slotIndex ((state.consumer consumer).consumed lane))).payload

def tryRecvCopy (consumer : Fin c) : Prog (FastRing.State p c) (Except Error (Option (List UInt8))) := do
  let read ← tryRead setup consumer
  match read with
  | .error .Empty => pure (.ok none)
  | .error error => pure (.error (mapFixedRingError error))
  | .ok lane =>
      let value ← copyPayload setup consumer lane
      let released ← release setup consumer true
      match released with
      | .error error => pure (.error (mapFixedRingError error))
      | .ok () => pure (.ok (some value))

/-- The values that the handler gets. -/
def pollLoop (consumer : Fin c) : Nat → Prog (FastRing.State p c) (List (List UInt8))
  | 0 => pure []
  | room + 1 => do
      let read ← tryRead setup consumer
      match read with
      | .error _ => pure []
      | .ok lane =>
          let value ← copyPayload setup consumer lane
          let released ← release setup consumer false
          match released with
          | .error _ => pure []
          | .ok () =>
              let rest ← pollLoop consumer room
              pure (value :: rest)

/-- The handler gets one value for each received message. -/
def poll (consumer : Fin c) (maxMessages : UInt32) : Prog (FastRing.State p c) (List (List UInt8)) := do
  let received ← pollLoop setup consumer maxMessages.toNat
  .when (0 < received.length) ((flushRelease setup consumer).bind fun _ => .ret ())
  pure received

/-- Successive calls of `tryRecvCopy` up to the first one without a message. -/
def recvUpTo (consumer : Fin c) : Nat → Prog (FastRing.State p c) (List (List UInt8))
  | 0 => pure []
  | room + 1 => do
      let received ← tryRecvCopy setup consumer
      match received with
      | .ok (some value) =>
          let rest ← recvUpTo consumer room
          pure (value :: rest)
      | _ => pure []

section Alone

variable {setup} {consumer : Fin c}

/-- The lane that a read finds. -/
def found (setup : Setup p c) (consumer : Fin c) (state : FastRing.State p c) : Option (Fin p) :=
  if setup.topology.manyLanes then
    ((List.range p).map (scannedLane setup (state.consumer consumer).nextLane)).find? fun lane =>
      state.readable setup consumer lane
  else if state.readable setup consumer setup.firstLane then some setup.firstLane
  else none

/-- The first read after a batch starts a new one. -/
def begins (setup : Setup p c) : Consumer p → Consumer p :=
  if setup.topology.manyLanes then Consumer.entersBatch setup else id

def ends (setup : Setup p c) : Fin p → Consumer p → Consumer p :=
  if setup.topology.manyLanes then Consumer.releasedLane else Consumer.released

/-- The payload that a lane offers next. -/
def offered (setup : Setup p c) (consumer : Fin c) (lane : Fin p) (state : FastRing.State p c) : List UInt8 :=
  ((state.lane lane).slot (setup.slotIndex ((state.consumer consumer).consumed lane))).payload

/-- The state with an outstanding read. -/
def begun (setup : Setup p c) (consumer : Fin c) (lane : Fin p) (state : FastRing.State p c) : FastRing.State p c :=
  (state.setConsumer consumer fun handle => {begins setup handle with activeLane := some lane}).note consumer lane
    ((state.consumer consumer).consumed lane, offered setup consumer lane state)

/-- A message has been read and released, and the progress is not published. -/
def taken (setup : Setup p c) (consumer : Fin c) (lane : Fin p) (state : FastRing.State p c) : FastRing.State p c :=
  (begun setup consumer lane state).setConsumer consumer (ends setup lane)

/-- The cursor of the consumer reaches its place in the lane. -/
def advanced (consumer : Fin c) (position : Nat) (ring : Lane c) : Lane c :=
  {ring with consumed := Function.update ring.consumed consumer position}

/-- The progress of one lane is published. -/
def published (consumer : Fin c) (lane : Fin p) (state : FastRing.State p c) : FastRing.State p c :=
  (state.setLane lane (advanced consumer ((state.consumer consumer).consumed lane))).setConsumer consumer fun handle =>
    {handle with dirty := Function.update handle.dirty lane false}

/-- The progress of the dirty lanes of a list is published. -/
def publishedIn (consumer : Fin c) (lanes : List (Fin p)) (state : FastRing.State p c) : FastRing.State p c :=
  let handle := state.consumer consumer
  let reached lane :=
    if handle.dirty lane && lanes.contains lane then advanced consumer (handle.consumed lane) (state.lane lane)
    else state.lane lane
  let cleaned := {handle with dirty := fun lane => handle.dirty lane && !lanes.contains lane}
  {state with lane := reached, consumer := Function.update state.consumer consumer cleaned}

/-- The consumer borrows nothing and has published its progress. -/
structure Settled (state : FastRing.State p c) (consumer : Fin c) : Prop where
  idle : (state.consumer consumer).activeLane = none
  clean : ∀ lane, (state.consumer consumer).dirty lane = false

theorem run_readSlot (change : Consumer p → Consumer p) (lane : Fin p) (state : FastRing.State p c) :
    (readSlot setup change consumer lane).run state =
      if state.readable setup consumer lane then
        (true, (state.setConsumer consumer fun handle => {change handle with activeLane := some lane}).note consumer
          lane ((state.consumer consumer).consumed lane, offered setup consumer lane state))
      else (false, state) := by
  simp only [readSlot, Prog.run_modifyGet, offered]
  by_cases readable : state.readable setup consumer lane = true
  · simp [readable]
  · simp [readable]

/-- A scan takes the first readable lane. -/
theorem run_scan (nextLane : Nat) (scans : List Nat) (state : FastRing.State p c) :
    (Prog.foldUntil (scanRound setup consumer nextLane) scans ()).run state =
      match (scans.map (scannedLane setup nextLane)).find? fun lane => state.readable setup consumer lane with
      | none => (.inl (), state)
      | some lane =>
          (.inr lane, (state.setConsumer consumer fun handle =>
            {handle.entersBatch setup with activeLane := some lane}).note consumer lane
              ((state.consumer consumer).consumed lane, offered setup consumer lane state)) := by
  induction scans with
  | nil => rfl
  | cons scan rest ih =>
      simp only [Prog.foldUntil, scanRound, Prog.bind_eq, Prog.run_bind, Prog.pure_eq, Prog.run_ret, run_readSlot,
        List.map_cons, List.find?_cons]
      by_cases readable : state.readable setup consumer (scannedLane setup nextLane scan) = true
      · simp [readable]
      · simp [readable, ih]

theorem run_tryRead {state : FastRing.State p c} (idle : (state.consumer consumer).activeLane = none) :
    (tryRead setup consumer).run state =
      match found setup consumer state with
      | none => (.error .Empty, state)
      | some lane => (.ok lane, begun setup consumer lane state) := by
  unfold tryRead found begun begins
  by_cases many : setup.topology.manyLanes = true
  · simp only [if_pos many, tryReadLanes, Prog.bind_eq, Prog.run_bind, Prog.run_load, idle, Option.isSome_none,
      Bool.false_eq_true, if_false, run_scan, Prog.pure_eq, Prog.run_ret]
    cases ((List.range p).map (scannedLane setup (state.consumer consumer).nextLane)).find? fun lane =>
      state.readable setup consumer lane with
    | none => rfl
    | some lane => rfl
  · simp only [if_neg many, tryReadLane, Prog.bind_eq, Prog.run_bind, Prog.run_load, idle, Option.isSome_none,
      Bool.false_eq_true, if_false, run_readSlot, Prog.pure_eq, Prog.run_ret]
    by_cases readable : state.readable setup consumer setup.firstLane = true
    · simp [readable]
    · simp [readable]

theorem run_publishConsumed (lane : Fin p) (state : FastRing.State p c) :
    (publishConsumed consumer lane).run state = ((), published consumer lane state) := rfl

/-- The release of the outstanding read. -/
theorem run_release (lane : Fin p) (publish : Bool) (state : FastRing.State p c) :
    (release setup consumer publish).run (begun setup consumer lane state) =
      (.ok (), if publish then published consumer lane (taken setup consumer lane state)
        else taken setup consumer lane state) := by
  have active : ((begun setup consumer lane state).consumer consumer).activeLane = some lane := by
    simp [begun, FastRing.State.note, FastRing.State.setConsumer]
  simp only [release, releaseWith, Prog.bind_eq, Prog.run_bind, Prog.run_load, active, Prog.run_store, Prog.run_when,
    run_publishConsumed, Prog.pure_eq, Prog.run_ret]
  cases publish with
  | false => rfl
  | true => rfl

/-- Two states of a ring. -/
theorem state_ext {first second : FastRing.State p c} (lane : ∀ lane, first.lane lane = second.lane lane)
    (producer : first.producer = second.producer) (consumer : ∀ index, first.consumer index = second.consumer index)
    (reads : first.reads = second.reads) : first = second := by
  cases first
  cases second
  simp only [FastRing.State.mk.injEq]
  exact ⟨funext lane, producer, funext consumer, reads⟩

theorem run_flushRound (lane : Fin p) (state : FastRing.State p c) :
    (flushRound consumer lane).run state = ((), publishedIn consumer [lane] state) := by
  change (Prog.when ((state.consumer consumer).dirty lane = true) (publishConsumed consumer lane)).run state = _
  rw [Prog.run_when, run_publishConsumed]
  congr 1
  by_cases dirty : (state.consumer consumer).dirty lane = true
  · rw [if_pos dirty]
    apply state_ext
    · intro other
      by_cases same : other = lane
      · simp [published, publishedIn, FastRing.State.setLane, FastRing.State.setConsumer, same, dirty]
      · simp [published, publishedIn, FastRing.State.setLane, FastRing.State.setConsumer, same]
    · rfl
    · intro index
      by_cases own : index = consumer
      · subst own
        simp only [published, publishedIn, FastRing.State.setLane, FastRing.State.setConsumer, Function.update_self]
        congr 1
        funext other
        by_cases same : other = lane
        · simp [same]
        · simp [same]
      · simp [published, publishedIn, FastRing.State.setLane, FastRing.State.setConsumer, own]
    · rfl
  · rw [if_neg dirty]
    have kept : (fun other => (state.consumer consumer).dirty other && !([lane].contains other)) =
        (state.consumer consumer).dirty := by
      funext other
      by_cases same : other = lane
      · simp [same, dirty]
      · simp [same]
    apply state_ext
    · intro other
      by_cases same : other = lane
      · simp [publishedIn, same, dirty]
      · simp [publishedIn, same]
    · rfl
    · intro index
      simp only [publishedIn, kept, Function.update_eq_self]
    · rfl

theorem publishedIn_nil (consumer : Fin c) (state : FastRing.State p c) : publishedIn consumer [] state = state := by
  apply state_ext
  · intro lane
    simp [publishedIn]
  · rfl
  · intro index
    simp [publishedIn]
  · rfl

theorem publishedIn_cons (consumer : Fin c) (lane : Fin p) (rest : List (Fin p)) (state : FastRing.State p c) :
    publishedIn consumer rest (publishedIn consumer [lane] state) = publishedIn consumer (lane :: rest) state := by
  apply state_ext
  · intro other
    by_cases same : other = lane
    · simp [publishedIn, same]
    · simp [publishedIn, same]
  · rfl
  · intro index
    by_cases own : index = consumer
    · subst own
      simp only [publishedIn, Function.update_self]
      congr 1
      funext other
      by_cases same : other = lane
      · simp [same]
      · simp [same]
    · simp [publishedIn, own]
  · rfl

theorem run_flushRounds (lanes : List (Fin p)) (state : FastRing.State p c) :
    (Prog.forEach (flushRound consumer) lanes).run state = ((), publishedIn consumer lanes state) := by
  induction lanes generalizing state with
  | nil => rw [publishedIn_nil]; rfl
  | cons lane rest ih =>
      simp only [Prog.forEach, Prog.run_bind, run_flushRound]
      rw [ih, publishedIn_cons]

/-- All progress of the consumer is published. -/
abbrev flushed (consumer : Fin c) (state : FastRing.State p c) : FastRing.State p c :=
  publishedIn consumer (List.finRange p) state

theorem flushed_settled {state : FastRing.State p c} (settled : Settled state consumer) :
    flushed consumer state = state := by
  apply state_ext
  · intro lane
    simp [publishedIn, settled.clean]
  · rfl
  · intro index
    have clean : (fun lane => (state.consumer consumer).dirty lane && !(List.finRange p).contains lane) =
        (state.consumer consumer).dirty := by
      funext lane
      simp [settled.clean]
    simp only [publishedIn, clean, Function.update_eq_self]
  · rfl

theorem mem_of_oneLane (one : setup.topology.manyLanes = false) (lane : Fin p) : lane = setup.firstLane := by
  have single := setup.oneLane one
  apply Fin.ext
  have below := lane.isLt
  have first := setup.firstLane.isLt
  omega

/-- A flush publishes the progress of the dirty lanes. -/
theorem run_flushRelease {state : FastRing.State p c} (idle : (state.consumer consumer).activeLane = none) {lane : Fin p}
    (dirty : (state.consumer consumer).dirty lane = true) :
    ((flushRelease setup consumer).run state).2 = flushed consumer state := by
  unfold flushRelease
  by_cases many : setup.topology.manyLanes = true
  · simp only [if_pos many, flushReleaseLanes, Prog.bind_eq, Prog.run_bind, Prog.run_load, idle, Option.isSome_none,
      Bool.false_eq_true, if_false, run_flushRounds, Prog.pure_eq, Prog.run_ret]
  · have one : setup.topology.manyLanes = false := by simpa using many
    obtain rfl := mem_of_oneLane one lane
    have single : (flushRound consumer setup.firstLane).run state =
        ((), publishedIn consumer [setup.firstLane] state) := run_flushRound setup.firstLane state
    have all : publishedIn consumer [setup.firstLane] state = flushed consumer state := by
      have same (other : Fin p) : [setup.firstLane].contains other = (List.finRange p).contains other := by
        simp [mem_of_oneLane one other]
      simp only [publishedIn, same]
    simp only [if_neg many, flushReleaseLane, Prog.bind_eq, Prog.run_bind, Prog.run_load, idle, Option.isSome_none,
      Bool.false_eq_true, if_false, Prog.pure_eq, Prog.run_ret]
    change (Prog.when ((state.consumer consumer).dirty setup.firstLane = true)
      (publishConsumed consumer setup.firstLane)).run state = _ at single
    rw [Prog.run_when, if_pos dirty] at single
    rw [← all]
    exact congrArg Prod.snd single

section Simulation

variable (setup consumer) (lane : Fin p) (state : FastRing.State p c)

theorem flushed_lane : (flushed consumer state).lane lane =
    if (state.consumer consumer).dirty lane = true then
      advanced consumer ((state.consumer consumer).consumed lane) (state.lane lane)
    else state.lane lane := by
  simp [publishedIn]

theorem flushed_slot : ((flushed consumer state).lane lane).slot = (state.lane lane).slot := by
  rw [flushed_lane]
  split
  · rfl
  · rfl

theorem flushed_handle : (flushed consumer state).consumer consumer =
    {state.consumer consumer with dirty := fun _ => false} := by
  simp [publishedIn]

theorem found_flushed : found setup consumer (flushed consumer state) = found setup consumer state := by
  have readable (lane : Fin p) : (flushed consumer state).readable setup consumer lane =
      state.readable setup consumer lane := by
    simp only [FastRing.State.readable, flushed_handle, flushed_slot]
  simp only [found, readable, flushed_handle]

theorem offered_flushed : offered setup consumer lane (flushed consumer state) = offered setup consumer lane state := by
  simp only [offered, flushed_handle, flushed_slot]

/-- The handle of the consumer after one message. -/
def next (setup : Setup p c) (lane : Fin p) (handle : Consumer p) : Consumer p :=
  ends setup lane {begins setup handle with activeLane := some lane}

theorem next_fields (handle : Consumer p) : (next setup lane handle).activeLane = none ∧
    (next setup lane handle).dirty = Function.update handle.dirty lane true ∧
    (next setup lane handle).consumed = Function.update handle.consumed lane (handle.consumed lane + 1) := by
  unfold next ends begins
  split
  · exact ⟨rfl, rfl, rfl⟩
  · exact ⟨rfl, rfl, rfl⟩

theorem next_dirty (handle : Consumer p) (dirty : Fin p → Bool) :
    next setup lane {handle with dirty := dirty} =
      {next setup lane handle with dirty := Function.update dirty lane true} := by
  unfold next ends begins
  split
  · rfl
  · rfl

theorem taken_handle : (taken setup consumer lane state).consumer consumer =
    next setup lane (state.consumer consumer) := by
  simp [taken, begun, next, FastRing.State.note, FastRing.State.setConsumer]

theorem taken_other {index : Fin c} (other : index ≠ consumer) :
    (taken setup consumer lane state).consumer index = state.consumer index := by
  simp [taken, begun, FastRing.State.note, FastRing.State.setConsumer, other]

theorem taken_lane : (taken setup consumer lane state).lane = state.lane := rfl

theorem taken_reads : (taken setup consumer lane state).reads = Function.update state.reads consumer
    (Function.update (state.reads consumer) lane (state.reads consumer lane ++
      [((state.consumer consumer).consumed lane, offered setup consumer lane state)])) := rfl

/-- The published progress after a message is the message after the published progress. -/
theorem taken_flushed : published consumer lane (taken setup consumer lane (flushed consumer state)) =
    flushed consumer (taken setup consumer lane state) := by
  obtain ⟨-, dirty, consumed⟩ := next_fields setup lane (state.consumer consumer)
  have handle : (taken setup consumer lane (flushed consumer state)).consumer consumer =
      {next setup lane (state.consumer consumer) with dirty := Function.update (fun _ => false) lane true} := by
    rw [taken_handle, flushed_handle, next_dirty]
  apply state_ext
  · intro other
    rw [flushed_lane, taken_handle, dirty, consumed, taken_lane]
    simp only [published, FastRing.State.setConsumer, FastRing.State.setLane, handle, consumed, taken_lane]
    by_cases same : other = lane
    · subst same
      simp only [Function.update_self, if_true, flushed_lane]
      split
      · simp only [advanced, Function.update_idem]
      · rfl
    · simp only [Function.update_of_ne same, flushed_lane]
  · rfl
  · intro index
    by_cases own : index = consumer
    · subst own
      rw [flushed_handle, taken_handle]
      simp only [published, FastRing.State.setConsumer, FastRing.State.setLane, handle, Function.update_self,
        Function.update_idem, Function.update_eq_self]
    · have kept : (flushed consumer state).consumer index = state.consumer index := by
        simp [publishedIn, own]
      have moved : (flushed consumer (taken setup consumer lane state)).consumer index = state.consumer index := by
        simp [publishedIn, own, taken_other]
      rw [moved]
      simp [published, FastRing.State.setConsumer, FastRing.State.setLane, own, taken_other, kept]
  · change (taken setup consumer lane (flushed consumer state)).reads = (taken setup consumer lane state).reads
    rw [taken_reads, taken_reads, flushed_handle, offered_flushed]
    rfl

end Simulation

/-- One round of a poll. -/
theorem run_pollLoop_succ {state : FastRing.State p c} (idle : (state.consumer consumer).activeLane = none)
    (room : Nat) : (pollLoop setup consumer (room + 1)).run state =
      match found setup consumer state with
      | none => ([], state)
      | some lane =>
          let rest := (pollLoop setup consumer room).run (taken setup consumer lane state)
          (offered setup consumer lane state :: rest.1, rest.2) := by
  simp only [pollLoop, Prog.bind_eq, Prog.run_bind, run_tryRead idle]
  cases found setup consumer state with
  | none => rfl
  | some lane =>
      have copied : offered setup consumer lane (begun setup consumer lane state) = offered setup consumer lane state := by
        have place : (begins setup (state.consumer consumer)).consumed = (state.consumer consumer).consumed := by
          unfold begins
          split
          · rfl
          · rfl
        simp [offered, begun, FastRing.State.note, FastRing.State.setConsumer, place]
      simp only [copyPayload, Prog.run_bind, Prog.run_load, run_release, Bool.false_eq_true, if_false, Prog.pure_eq,
        Prog.run_ret]
      rw [← copied]
      rfl

/-- One receive publishes its progress. -/
theorem run_recvUpTo_succ {state : FastRing.State p c} (idle : (state.consumer consumer).activeLane = none)
    (room : Nat) : (recvUpTo setup consumer (room + 1)).run state =
      match found setup consumer state with
      | none => ([], state)
      | some lane =>
          let rest := (recvUpTo setup consumer room).run (published consumer lane (taken setup consumer lane state))
          (offered setup consumer lane state :: rest.1, rest.2) := by
  simp only [recvUpTo, tryRecvCopy, Prog.bind_eq, Prog.run_bind, run_tryRead idle]
  cases found setup consumer state with
  | none => rfl
  | some lane =>
      have copied : offered setup consumer lane (begun setup consumer lane state) = offered setup consumer lane state := by
        have place : (begins setup (state.consumer consumer)).consumed = (state.consumer consumer).consumed := by
          unfold begins
          split
          · rfl
          · rfl
        simp [offered, begun, FastRing.State.note, FastRing.State.setConsumer, place]
      simp only [copyPayload, Prog.run_bind, Prog.run_load, run_release, if_true, Prog.pure_eq, Prog.run_ret]
      rw [← copied]
      rfl

variable (setup) in
/-- The receives stay one flush ahead of the poll. -/
theorem pollLoop_recvUpTo (room : Nat) {state : FastRing.State p c}
    (idle : (state.consumer consumer).activeLane = none) :
    let polled := (pollLoop setup consumer room).run state
    (recvUpTo setup consumer room).run (flushed consumer state) = (polled.1, flushed consumer polled.2) ∧
      (polled.2.consumer consumer).activeLane = none ∧ (polled.1 = [] → polled.2 = state) ∧
      ((polled.1 ≠ [] ∨ ∃ lane, (state.consumer consumer).dirty lane = true) →
        ∃ lane, (polled.2.consumer consumer).dirty lane = true) := by
  induction room generalizing state with
  | zero => exact ⟨rfl, idle, fun _ => rfl, fun either => either.resolve_left (fun some => some rfl)⟩
  | succ room ih =>
      have rests : ((flushed consumer state).consumer consumer).activeLane = none := by
        rw [flushed_handle]
        exact idle
      rw [run_pollLoop_succ idle, run_recvUpTo_succ rests, found_flushed]
      cases found setup consumer state with
      | none => exact ⟨rfl, idle, fun _ => rfl, fun either => either.resolve_left (fun some => some rfl)⟩
      | some lane =>
          have handle := taken_handle setup consumer lane state
          obtain ⟨closed, dirty, -⟩ := next_fields setup lane (state.consumer consumer)
          have free : ((taken setup consumer lane state).consumer consumer).activeLane = none := by
            rw [handle]
            exact closed
          obtain ⟨same, still, -, marked⟩ := ih free
          dsimp only
          rw [taken_flushed, same, offered_flushed]
          refine ⟨rfl, still, fun none => (List.cons_ne_nil _ _ none).elim, fun _ => marked (.inr ⟨lane, ?_⟩)⟩
          rw [handle, dirty, Function.update_self]

/-- A poll of a settled consumer is as many receives. -/
theorem poll_settled {state : FastRing.State p c} (settled : Settled state consumer) (maxMessages : UInt32) :
    (poll setup consumer maxMessages).run state = (recvUpTo setup consumer maxMessages.toNat).run state := by
  obtain ⟨same, idle, unmoved, marked⟩ := pollLoop_recvUpTo setup maxMessages.toNat settled.idle
  rw [flushed_settled settled] at same
  rw [same]
  simp only [poll, Prog.bind_eq, Prog.run_bind, Prog.run_when, Prog.pure_eq, Prog.run_ret]
  congr 1
  generalize (pollLoop setup consumer maxMessages.toNat).run state = polled at idle unmoved marked ⊢
  by_cases none : polled.1 = []
  · rw [none, unmoved none, flushed_settled settled]
    rfl
  · obtain ⟨lane, dirty⟩ := marked (.inl none)
    rw [if_pos (List.length_pos_iff.mpr none), run_flushRelease idle dirty]

end Alone

/-- The calls of the endpoints of one channel. -/
inductive Request where
  | tryClaim
  | write (offset : Nat) (data : List UInt8)
  | commit
  | tryRecvCopy
  | poll (maxMessages : UInt32)
  | subscriber
  deriving DecidableEq

def start : Thread p c → Unit → Request → Option (Prog (FastRing.State p c) Unit)
  | .producer lane, _, .tryClaim => some ((FastRing.tryClaim setup lane).bind fun _ => .ret ())
  | .producer lane, _, .write offset data => some (writePayload setup lane offset data)
  | .producer lane, _, .commit => some ((FastRing.commit setup lane).bind fun _ => .ret ())
  | .consumer consumer, _, .tryRecvCopy => some ((tryRecvCopy setup consumer).bind fun _ => .ret ())
  | .consumer consumer, _, .poll maxMessages => some ((poll setup consumer maxMessages).bind fun _ => .ret ())
  | .consumer consumer, _, .subscriber => some (createConsumer setup consumer)
  | _, _, _ => none

/-- A send is a claim, a write and a commit. -/
def system : System (FastRing.State p c) (Thread p c) Unit Request := ⟨start setup⟩

def traffic : Config (FastRing.State p c) (Thread p c) Unit := ⟨(FastRing.initial setup).shared, fun _ => .ret ()⟩

section Traffic

/-- Only a consumer changes its handle. -/
def rely : Thread p c → FastRing.State p c → FastRing.State p c → Prop
  | .producer _, _, _ => True
  | .consumer consumer, before, after => after.consumer consumer = before.consumer consumer

def guarantee : Thread p c → FastRing.State p c → FastRing.State p c → Prop
  | .producer _, before, after => after.consumer = before.consumer
  | .consumer consumer, before, after => ∀ other, other ≠ consumer → after.consumer other = before.consumer other

def discipline : Discipline (FastRing.State p c) (Thread p c) Unit where
  invariant _ := True
  may _ _ := True
  rely := rely
  guarantee := guarantee
  label thread _ state := ∀ consumer, thread = .consumer consumer → Settled state consumer

theorem lawful (thread : Thread p c) : ((discipline (p := p) (c := c)).contract thread).Lawful where
  refl state := by
    cases thread with
    | producer lane => trivial
    | consumer consumer => rfl
  trans {first second third} earlier later := by
    cases thread with
    | producer lane => trivial
    | consumer consumer => exact later.trans earlier
  idle state := by
    cases thread with
    | producer lane => rfl
    | consumer consumer => exact fun _ _ => rfl
  stays _ _ := trivial

variable {setup} {consumer : Fin c} {state : FastRing.State p c} {handle : Consumer p}

abbrev consumerContract (p : Nat) {c : Nat} (consumer : Fin c) : Contract (FastRing.State p c) :=
  discipline.contract (.consumer consumer)

/-- A change of the own handle. -/
theorem guarantee_setConsumer (change : Consumer p → Consumer p) :
    guarantee (.consumer consumer) state (state.setConsumer consumer change) :=
  fun _ other => Function.update_of_ne other _ _

theorem guarantee_published (lane : Fin p) : guarantee (.consumer consumer) state (published consumer lane state) :=
  fun _ other => Function.update_of_ne other _ _

/-- A read finds nothing and leaves the handle, or it opens. -/
def Opened (consumer : Fin c) (handle : Consumer p) (opened : Bool) (state : FastRing.State p c) : Prop :=
  if opened then (state.consumer consumer).activeLane ≠ none ∧ (state.consumer consumer).dirty = handle.dirty
  else state.consumer consumer = handle

theorem Opened.stable {opened : Bool} {later : FastRing.State p c} (holds : Opened consumer handle opened state)
    (between : rely (.consumer consumer) state later) : Opened consumer handle opened later := by
  unfold Opened at holds ⊢
  rw [show later.consumer consumer = state.consumer consumer from between]
  exact holds

theorem readSlot_safe (change : Consumer p → Consumer p) (dirty : ∀ handle, (change handle).dirty = handle.dirty)
    (lane : Fin p) (own : state.consumer consumer = handle) :
    Safe (consumerContract p consumer) (fun found later => Opened consumer handle found later)
      (readSlot setup change consumer lane) state := by
  refine Safe.modifyGet_last fun current between _ _ => ?_
  have same : current.consumer consumer = handle := Eq.trans between own
  by_cases readable : current.readable setup consumer lane = true
  · simp only [readable, if_true]
    refine ⟨trivial, fun other different => ?_, fun later further _ => Opened.stable ?_ further⟩
    · exact Function.update_of_ne different _ _
    · simp [Opened, FastRing.State.note, FastRing.State.setConsumer, dirty, same]
  · have silent : current.readable setup consumer lane = false := by simpa using readable
    simp only [silent, Bool.false_eq_true, if_false]
    exact ⟨trivial, fun _ _ => rfl, fun later further _ => Opened.stable (by simpa [Opened] using same) further⟩

theorem tryRead_safe (idle : handle.activeLane = none) (own : state.consumer consumer = handle) :
    Safe (consumerContract p consumer) (fun result later => Opened consumer handle result.isOk later)
      (tryRead setup consumer) state := by
  have law := lawful (p := p) (c := c) (.consumer consumer)
  unfold tryRead
  split
  · refine Safe.load_bind law fun current between _ => ?_
    have same : current.consumer consumer = handle := Eq.trans between own
    rw [same, idle]
    refine Safe.bind law (Safe.foldUntil law (I := fun _ _ later => Opened consumer handle false later)
      (S := fun _ later => Opened consumer handle true later)
      (fun further _ holds => holds.stable further) (fun scan rest _ later holds => ?_)
      (fun further _ holds => holds.stable further) (by simpa [Opened] using same)) fun result later _ holds => ?_
    · refine Safe.bind law (readSlot_safe (Consumer.entersBatch setup) (fun _ => rfl) _ holds)
        fun found last _ reached => ?_
      cases found with
      | false => exact fun final further _ => reached.stable further
      | true => exact fun final further _ => reached.stable further
    · cases result with
      | inl _ => exact fun final further _ => Opened.stable holds further
      | inr _ => exact fun final further _ => Opened.stable holds further
  · refine Safe.load_bind law fun current between _ => ?_
    have same : current.consumer consumer = handle := Eq.trans between own
    rw [same, idle]
    refine Safe.bind law (readSlot_safe id (fun _ => rfl) _ same) fun found last _ reached => ?_
    cases found with
    | false => exact fun final further _ => reached.stable further
    | true => exact fun final further _ => reached.stable further

/-- A release ends the outstanding read. When it publishes, it leaves no lane dirty that was clean before. -/
theorem release_safe {publish : Bool} :
    Safe (consumerContract p consumer) (fun result later => result = .ok () →
        (later.consumer consumer).activeLane = none ∧
          (publish = true → (∀ lane, (state.consumer consumer).dirty lane = false) →
            ∀ lane, (later.consumer consumer).dirty lane = false)) (release setup consumer publish) state := by
  have law := lawful (p := p) (c := c) (.consumer consumer)
  refine Safe.load_bind law fun current between _ => ?_
  cases active : (current.consumer consumer).activeLane with
  | none => exact fun _ _ _ failed => by cases failed
  | some lane =>
      refine Safe.store_bind fun second further _ _ => ⟨trivial, guarantee_setConsumer _, ?_⟩
      have own : second.consumer consumer = state.consumer consumer := Eq.trans further between
      have closed (lane : Fin p) (handle : Consumer p) :
          ((if setup.topology.manyLanes then Consumer.releasedLane else Consumer.released) lane handle).activeLane = none ∧
          ((if setup.topology.manyLanes then Consumer.releasedLane else Consumer.released) lane handle).dirty =
            Function.update handle.dirty lane true := by
        split
        · exact ⟨rfl, rfl⟩
        · exact ⟨rfl, rfl⟩
      obtain ⟨idle, marked⟩ := closed lane (second.consumer consumer)
      cases publish with
      | false =>
          intro later still _ _
          rw [show later.consumer consumer = _ from still]
          simp only [FastRing.State.setConsumer, Function.update_self]
          exact ⟨idle, fun never => by cases never⟩
      | true =>
          refine Safe.store_bind fun third last _ _ => ⟨trivial, guarantee_published lane, ?_⟩
          intro later still _ _
          have handle : third.consumer consumer = _ := last
          have final : later.consumer consumer = _ := still
          simp only [FastRing.State.setConsumer, Function.update_self] at handle
          rw [final]
          simp only [FastRing.State.setConsumer, FastRing.State.setLane, Function.update_self, handle]
          refine ⟨idle, fun _ clean other => ?_⟩
          rw [marked, own]
          by_cases same : other = lane
          · rw [same, Function.update_self]
          · rw [Function.update_of_ne same, Function.update_of_ne same]
            exact clean other

/-- An outstanding read can be released. -/
theorem releases {publish : Bool} (active : (state.consumer consumer).activeLane ≠ none) :
    Safe (consumerContract p consumer) (fun result _ => result = .ok ()) (release setup consumer publish) state := by
  have law := lawful (p := p) (c := c) (.consumer consumer)
  refine Safe.load_bind law fun current between _ => ?_
  have same : current.consumer consumer = state.consumer consumer := between
  rw [same]
  cases found : (state.consumer consumer).activeLane with
  | none => exact absurd found active
  | some lane =>
      refine Safe.store_bind fun second _ _ _ => ⟨trivial, guarantee_setConsumer _, ?_⟩
      cases publish with
      | false => exact fun _ _ _ => rfl
      | true => exact Safe.store_bind fun third _ _ _ => ⟨trivial, guarantee_published lane, fun _ _ _ => rfl⟩

theorem Settled.stable {later : FastRing.State p c} (settled : Settled state consumer)
    (between : rely (.consumer consumer) state later) : Settled later consumer := by
  have same : later.consumer consumer = state.consumer consumer := between
  exact ⟨by rw [same]; exact settled.idle, by rw [same]; exact settled.clean⟩

theorem tryRecvCopy_safe (settled : Settled state consumer) :
    Safe (consumerContract p consumer) (fun _ later => Settled later consumer) (tryRecvCopy setup consumer) state := by
  have law := lawful (p := p) (c := c) (.consumer consumer)
  refine Safe.bind law (tryRead_safe settled.idle rfl) fun read opened _ reached => ?_
  cases read with
  | error error =>
      have same : opened.consumer consumer = state.consumer consumer := reached
      have rests : Settled opened consumer := settled.stable same
      cases error with
      | Empty => exact fun later further _ => rests.stable further
      | _ => exact fun later further _ => rests.stable further
  | ok lane =>
      obtain ⟨active, dirty⟩ : (opened.consumer consumer).activeLane ≠ none ∧
          (opened.consumer consumer).dirty = (state.consumer consumer).dirty := reached
      refine Safe.load_bind law fun copied between _ => ?_
      have same : copied.consumer consumer = opened.consumer consumer := between
      have clean (lane : Fin p) : (copied.consumer consumer).dirty lane = false := by
        rw [same, dirty]
        exact settled.clean lane
      refine Safe.bind law (release_safe.and (releases (same ▸ active))) fun result later _ ended => ?_
      obtain ⟨facts, done⟩ := ended
      obtain rfl := done
      obtain ⟨idle, kept⟩ := facts rfl
      have rests : Settled later consumer := ⟨idle, kept rfl clean⟩
      exact fun last further _ => rests.stable further

theorem flushRelease_safe (idle : (state.consumer consumer).activeLane = none) :
    Safe (consumerContract p consumer) (fun _ later => Settled later consumer) (flushRelease setup consumer) state := by
  have law := lawful (p := p) (c := c) (.consumer consumer)
  unfold flushRelease
  split
  · refine Safe.load_bind law fun current between _ => ?_
    have same : current.consumer consumer = state.consumer consumer := between
    rw [same, idle]
    refine Safe.bind law (Safe.forEach law (I := fun rest later => (later.consumer consumer).activeLane = none ∧
      ∀ lane, lane ∉ rest → (later.consumer consumer).dirty lane = false) (fun further _ holds => ?_)
      (fun lane rest later holds => ?_) ⟨same ▸ idle, fun lane absent => absurd (List.mem_finRange lane) absent⟩)
      fun _ later _ holds => ?_
    · have own : _ = _ := further
      rw [own]
      exact holds
    · obtain ⟨rests, clean⟩ := holds
      refine Safe.load_bind law fun second further _ => ?_
      have again : second.consumer consumer = later.consumer consumer := further
      by_cases dirty : (second.consumer consumer).dirty lane = true
      · rw [Prog.when, if_pos dirty]
        refine Safe.store_last fun third last _ _ => ⟨trivial, guarantee_published lane, fun final still _ => ?_⟩
        have own : third.consumer consumer = later.consumer consumer := Eq.trans last again
        have reached : final.consumer consumer = _ := still
        change (final.consumer consumer).activeLane = none ∧
          ∀ other, other ∉ rest → (final.consumer consumer).dirty other = false
        rw [reached]
        simp only [FastRing.State.setConsumer, FastRing.State.setLane, Function.update_self, own]
        refine ⟨rests, fun other absent => ?_⟩
        by_cases equal : other = lane
        · rw [equal, Function.update_self]
        · rw [Function.update_of_ne equal]
          exact clean other (by simp [equal, absent])
      · rw [Prog.when, if_neg dirty]
        intro final still _
        have own : final.consumer consumer = later.consumer consumer := Eq.trans still again
        change (final.consumer consumer).activeLane = none ∧
          ∀ other, other ∉ rest → (final.consumer consumer).dirty other = false
        rw [own]
        refine ⟨rests, fun other absent => ?_⟩
        by_cases equal : other = lane
        · rw [equal, ← again]
          simpa using dirty
        · exact clean other (by simp [equal, absent])
    · have settled : Settled later consumer := ⟨holds.1, fun lane => holds.2 lane (List.not_mem_nil)⟩
      exact fun last further _ => settled.stable further
  · rename_i one
    refine Safe.load_bind law fun current between _ => ?_
    have same : current.consumer consumer = state.consumer consumer := between
    rw [same, idle]
    refine Safe.store_bind fun second further _ _ => ⟨trivial, guarantee_published _, fun final still _ => ?_⟩
    have own : second.consumer consumer = state.consumer consumer := Eq.trans further same
    have reached : final.consumer consumer = _ := still
    constructor
    · rw [reached]
      simp only [FastRing.State.setConsumer, FastRing.State.setLane, Function.update_self, own, idle]
    · intro lane
      rw [reached, mem_of_oneLane (by simpa using one) lane]
      simp only [FastRing.State.setConsumer, FastRing.State.setLane, Function.update_self]

/-- A poll that receives nothing leaves the handle. -/
theorem pollLoop_safe (room : Nat) (idle : (state.consumer consumer).activeLane = none) :
    Safe (consumerContract p consumer) (fun values later => (later.consumer consumer).activeLane = none ∧
      (values = [] → later.consumer consumer = state.consumer consumer)) (pollLoop setup consumer room) state := by
  have law := lawful (p := p) (c := c) (.consumer consumer)
  have rested {first later : FastRing.State p c} (same : first.consumer consumer = state.consumer consumer)
      (further : rely (.consumer consumer) first later) : (later.consumer consumer).activeLane = none ∧
        (([] : List (List UInt8)) = [] → later.consumer consumer = state.consumer consumer) := by
    have own : later.consumer consumer = state.consumer consumer := Eq.trans further same
    exact ⟨own ▸ idle, fun _ => own⟩
  induction room generalizing state with
  | zero => exact fun later further _ => rested rfl further
  | succ room ih =>
      refine Safe.bind law (tryRead_safe idle rfl) fun read opened _ reached => ?_
      cases read with
      | error error =>
          have same : opened.consumer consumer = state.consumer consumer := reached
          exact fun later further _ => rested same further
      | ok lane =>
          obtain ⟨active, -⟩ : (opened.consumer consumer).activeLane ≠ none ∧
              (opened.consumer consumer).dirty = (state.consumer consumer).dirty := reached
          refine Safe.load_bind law fun copied between _ => ?_
          have same : copied.consumer consumer = opened.consumer consumer := between
          refine Safe.bind law (release_safe.and (releases (same ▸ active))) fun result later _ ended => ?_
          obtain ⟨facts, done⟩ := ended
          obtain rfl := done
          have closed := (facts rfl).1
          refine Safe.bind law (ih closed fun own further => ?_) fun rest last _ holds => ?_
          · have equal := Eq.trans further own
            exact ⟨equal ▸ closed, fun _ => equal⟩
          · intro final still _
            have own : final.consumer consumer = last.consumer consumer := still
            exact ⟨own ▸ holds.1, fun none => (List.cons_ne_nil _ _ none).elim⟩

theorem poll_safe (settled : Settled state consumer) (maxMessages : UInt32) :
    Safe (consumerContract p consumer) (fun _ later => Settled later consumer) (poll setup consumer maxMessages)
      state := by
  have law := lawful (p := p) (c := c) (.consumer consumer)
  refine Safe.bind law (pollLoop_safe maxMessages.toNat settled.idle) fun values later _ holds => ?_
  refine Safe.bind (M := fun _ last => Settled last consumer) law ?_ fun _ last _ rests => ?_
  · unfold Prog.when
    split
    · refine Safe.bind law (flushRelease_safe holds.1) fun _ flushed _ rests => ?_
      exact fun last further _ => rests.stable further
    · rename_i none
      have empty : values = [] := List.length_eq_zero_iff.mp (by omega)
      have rests : Settled later consumer := settled.stable (holds.2 empty)
      exact fun last further _ => rests.stable further
  · exact fun final further _ => rests.stable further

theorem createConsumer_safe : Safe (consumerContract p consumer) (fun _ later => Settled later consumer)
    (createConsumer setup consumer) state := by
  refine Safe.store_last fun current _ _ _ => ⟨trivial, guarantee_setConsumer _, fun later still _ => ?_⟩
  have own : later.consumer consumer = recreated setup current consumer :=
    Eq.trans still (Function.update_self _ _ _)
  constructor
  · rw [own]
    unfold recreated
    split
    · rfl
    · rfl
  · intro lane
    rw [own]
    unfold recreated
    split
    · rfl
    · rfl

/-- The calls of a producer leave every consumer. -/
def SameConsumers (before after : FastRing.State p c) : Prop := after.consumer = before.consumer

theorem SameConsumers.load {α : Type} (read : FastRing.State p c → α) : Each SameConsumers (Prog.load read) :=
  .load (fun state => show SameConsumers state state from rfl) read

theorem producer_safe {α : Type} {lane : Fin p} {program : Prog (FastRing.State p c) α}
    (each : Each SameConsumers program) :
    Safe ((discipline (p := p) (c := c)).contract (.producer lane)) (fun _ _ => True) program state :=
  Safe.of_each (I := fun _ => True) each (fun _ _ change _ => ⟨trivial, change, trivial⟩) (fun _ _ _ => trivial) trivial

theorem each_tryClaim (setup : Setup p c) (lane : Fin p) : Each SameConsumers (FastRing.tryClaim setup lane) := by
  have opens : Each (SameConsumers (p := p) (c := c)) (openClaim lane) :=
    .bind (.store fun _ => Eq.refl _) fun _ => .ret _
  have refreshes : Each SameConsumers (refreshCache setup lane) := by
    unfold refreshCache
    split
    · refine .bind (.foldUntil (fun slowest consumer => ?_) _ _) fun _ => .ret _
      exact .bind (SameConsumers.load _) fun _ => .ret _
    · exact SameConsumers.load _
  refine .bind (SameConsumers.load _) fun handle => ?_
  split
  · exact .ret _
  · split
    · refine .bind refreshes fun cache => .bind (.store fun _ => Eq.refl _) fun _ => ?_
      split
      · exact .ret _
      · exact opens
    · exact opens

theorem each_commit (setup : Setup p c) (lane : Fin p) : Each SameConsumers (FastRing.commit setup lane) := by
  refine .bind (SameConsumers.load _) fun handle => ?_
  split
  · exact .bind (.store fun _ => Eq.refl _) fun _ => .ret _
  · exact .ret _

theorem each_writePayload (setup : Setup p c) (lane : Fin p) (offset : Nat) (data : List UInt8) :
    Each SameConsumers (writePayload setup lane offset data) := by
  refine .store fun state => ?_
  dsimp only
  split
  · exact Eq.refl _
  · exact Eq.refl _

theorem sound (setup : Setup p c) : (discipline (p := p) (c := c)).Sound (system setup) fun _ _ _ _ => True where
  lawful := lawful
  compatible {actor observer before after} different _ _ step := by
    cases observer with
    | producer lane => trivial
    | consumer consumer =>
        cases actor with
        | producer lane => exact congrFun step consumer
        | consumer other => exact step consumer fun same => different (same ▸ rfl)
  start {thread label request program state} begins _ _ _ holds := by
    have produced {program : Prog (FastRing.State p c) Unit} {lane : Fin p}
        (each : Each SameConsumers program) :
        Safe ((discipline (p := p) (c := c)).contract (.producer lane)) ((discipline).label (.producer lane)) program
          state :=
      (producer_safe each).weaken fun _ _ _ _ _ never => by cases never
    have consumed {consumer : Fin c} {program : Prog (FastRing.State p c) Unit}
        (safe : Safe (consumerContract p consumer) (fun _ later => Settled later consumer) program state) :
        Safe (consumerContract p consumer) ((discipline).label (.consumer consumer)) program state :=
      safe.weaken fun _ _ _ settled other same => by
        cases same
        exact settled
    match thread, label, request, begins with
    | .producer lane, _, .tryClaim, begins =>
        obtain rfl := Option.some.inj begins
        exact produced (.bind (each_tryClaim setup lane) fun _ => .ret _)
    | .producer lane, _, .write offset data, begins =>
        obtain rfl := Option.some.inj begins
        exact produced (each_writePayload setup lane offset data)
    | .producer lane, _, .commit, begins =>
        obtain rfl := Option.some.inj begins
        exact produced (.bind (each_commit setup lane) fun _ => .ret _)
    | .consumer consumer, _, .tryRecvCopy, begins =>
        obtain rfl := Option.some.inj begins
        exact consumed (Safe.bind (lawful _) (tryRecvCopy_safe (holds consumer rfl)) fun _ _ _ settled =>
          fun later further _ => settled.stable further)
    | .consumer consumer, _, .poll maxMessages, begins =>
        obtain rfl := Option.some.inj begins
        exact consumed (Safe.bind (lawful _) (poll_safe (holds consumer rfl) maxMessages) fun _ _ _ settled =>
          fun later further _ => settled.stable further)
    | .consumer consumer, _, .subscriber, begins =>
        obtain rfl := Option.some.inj begins
        exact consumed createConsumer_safe

/-- Between its calls a subscriber borrows nothing and has published its progress. -/
theorem settled_of_reachable {config : Config (FastRing.State p c) (Thread p c) Unit}
    (run : (system setup).Reachable (traffic setup) config) (rests : config.thread (.consumer consumer) = .ret ()) :
    Settled config.shared consumer := by
  have begun : (discipline (p := p) (c := c)).Initial (traffic setup) := by
    refine ⟨trivial, fun thread later between _ consumer same => ?_⟩
    subst same
    exact Settled.stable ⟨rfl, fun _ => rfl⟩ between
  have knows : (discipline (p := p) (c := c)).Knows (system setup) (fun _ _ _ _ => True) (fun _ _ => True)
      (traffic setup) := by
    refine ⟨fun {config event} _ => ?_, fun _ => trivial, fun _ _ _ => trivial, fun _ _ _ => trivial⟩
    cases event with
    | start thread request => exact fun _ _ => trivial
    | act thread => trivial
  exact (sound setup).label begun knows run trivial rests consumer rfl

end Traffic

/-- On a ring that stands still a poll hands out what as many receives return, and leaves the same state: the
progress in every lane, the lane pointer, the rest of the batch and the cursors. -/
theorem poll_eq_recvUpTo {setup : Setup p c} {config : Config (FastRing.State p c) (Thread p c) Unit}
    (run : (system setup).Reachable (traffic setup) config) {consumer : Fin c}
    (rests : config.thread (.consumer consumer) = .ret ()) (maxMessages : UInt32) :
    (poll setup consumer maxMessages).run config.shared =
      (recvUpTo setup consumer maxMessages.toNat).run config.shared :=
  poll_settled (settled_of_reachable run rests) maxMessages

theorem poll_eq_recvUpTo_message : ∃ config : Config (FastRing.State 1 1) (Thread 1 1) Unit,
    (system (smallRing .mpmc)).Reachable (traffic (smallRing .mpmc)) config ∧
      ((poll (smallRing .mpmc) 0 2).run config.shared).1 = [[7]] ∧
      (poll (smallRing .mpmc) 0 2).run config.shared = (recvUpTo (smallRing .mpmc) 0 2).run config.shared := by
  have called : (((system (smallRing .mpmc)).calls (traffic (smallRing .mpmc)) [(.producer 0, .tryClaim),
      (.producer 0, .write 0 [7]), (.producer 0, .commit)]).map fun config =>
        (((poll (smallRing .mpmc) 0 2).run config.shared).1, (config.thread (.consumer 0)).value)) =
      some ([[7]], some ()) := by decide
  obtain ⟨config, final, facts⟩ := Option.map_eq_some_iff.mp called
  obtain ⟨received, ended⟩ := Prod.mk.inj facts
  have run : (system (smallRing .mpmc)).Reachable (traffic (smallRing .mpmc)) config :=
    System.Run.calls (fun _ _ _ => trivial) (fun _ _ _ => trivial) .refl final
  exact ⟨config, run, received, poll_eq_recvUpTo run (Prog.of_value ended) 2⟩

end Salias.FixedChannel
