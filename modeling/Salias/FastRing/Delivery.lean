import Salias.FastRing.Ring
import Salias.Circular.Bytes
import Salias.Concurrent.RelyGuarantee

/-
The slots of a lane hold the last committed payloads. No producer comes around to a slot that a consumer may
still read, because its cache never runs ahead of a cursor.
-/

namespace Salias.FastRing

open Concurrent SharedHybridMpsc

variable {p c : Nat}

namespace Setup

variable (setup : Setup p c)

theorem slotIndex_eq (position : Nat) : setup.slotIndex position = position % setup.capacity := by
  obtain ⟨exponent, power⟩ := isPowerOfTwo_iff setup.singleBit
  rw [slotIndex, power, Nat.and_two_pow_sub_one_eq_mod]

/-- Two positions less than one lap apart have different slots. -/
theorem slotIndex_ne {first second : Nat} (before : first < second) (window : second < first + setup.capacity) :
    setup.slotIndex first ≠ setup.slotIndex second := by
  intro same
  rw [slotIndex_eq, slotIndex_eq] at same
  exact before.ne (Circular.eq_of_window before.le window same)

theorem slotIndex_lap (position : Nat) : setup.slotIndex (position + setup.capacity) = setup.slotIndex position := by
  rw [slotIndex_eq, slotIndex_eq, Nat.add_mod_right]

end Setup

section Lanes

/-- The producer of a lane has room for its claim, and each slot holds the last payload committed there. -/
structure Published (setup : Setup p c) (ring : Lane c) (handle : Producer) : Prop where
  length : ring.committed.length = handle.published
  cached : ∀ consumer, handle.cache ≤ ring.consumed consumer
  room : ∀ consumer, handle.published ≤ ring.consumed consumer + setup.capacity
  claimed : handle.claimOutstanding = true → handle.published < handle.cache + setup.capacity
  sequence : ∀ position, position < handle.published → handle.published ≤ position + setup.capacity →
    (ring.slot (setup.slotIndex position)).sequence = position + 1
  unused : ∀ position, handle.published ≤ position → position < setup.capacity →
    (ring.slot (setup.slotIndex position)).sequence = 0
  payload : ∀ position, position < handle.published → handle.published ≤ position + setup.capacity →
    (handle.claimOutstanding = true → handle.published < position + setup.capacity) →
    ring.committed[position]? = some (ring.slot (setup.slotIndex position)).payload

namespace Published

variable {setup : Setup p c} {ring : Lane c} {handle : Producer}

theorem claim (published : Published setup ring handle)
    (room : handle.published < handle.cache + setup.capacity) :
    Published setup ring {handle with claimOutstanding := true} :=
  {published with
    claimed := fun _ => room
    payload := fun position before _ under =>
      published.payload position before (under rfl).le fun _ => under rfl}

/-- A refreshed cache is a lower bound of the cursors. -/
theorem refresh (published : Published setup ring handle) (idle : handle.claimOutstanding = false) {cache : Nat}
    (bound : ∀ consumer, cache ≤ ring.consumed consumer) : Published setup ring {handle with cache := cache} :=
  {published with
    cached := bound
    claimed := fun claimed => absurd claimed (by simp [idle])}

/-- A write into the claimed slot touches no payload that a consumer may read. -/
theorem write (published : Published setup ring handle) (claimed : handle.claimOutstanding = true)
    (payload : List UInt8) :
    let index := setup.slotIndex handle.published
    Published setup {ring with slot := Function.update ring.slot index {ring.slot index with payload := payload}}
      handle := by
  intro index
  have sequences : ∀ other, (Function.update ring.slot index {ring.slot index with payload := payload} other).sequence =
      (ring.slot other).sequence := by
    intro other
    by_cases same : other = index
    · rw [same, Function.update_self]
    · rw [Function.update_of_ne same]
  exact {published with
    sequence := fun position before within => (sequences _).trans (published.sequence position before within)
    unused := fun position beyond below => (sequences _).trans (published.unused position beyond below)
    payload := fun position before within under => by
      have apart := setup.slotIndex_ne before (under claimed)
      simpa only [index, Function.update_of_ne apart] using published.payload position before within under}

/-- The commit publishes the claimed slot. -/
theorem publish (published : Published setup ring handle) (claimed : handle.claimOutstanding = true) :
    let index := setup.slotIndex handle.published
    Published setup
      {ring with
        slot := Function.update ring.slot index {ring.slot index with sequence := handle.published + 1}
        committed := ring.committed ++ [(ring.slot index).payload]}
      {handle with published := handle.published + 1, claimOutstanding := false} := by
  intro index
  have room := published.claimed claimed
  refine ⟨by simp [published.length], published.cached, fun consumer => ?_, nofun, ?_, ?_, ?_⟩
  · have cached := published.cached consumer
    show handle.published + 1 ≤ ring.consumed consumer + setup.capacity
    omega
  · intro position before within
    have upper : position < handle.published + 1 := before
    have lower : handle.published + 1 ≤ position + setup.capacity := within
    rcases Nat.lt_succ_iff_lt_or_eq.mp upper with older | rfl
    · have apart := setup.slotIndex_ne older (by omega)
      simpa only [index, Function.update_of_ne apart] using published.sequence position older (by omega)
    · simp only [index, Function.update_self]
  · intro position beyond below
    have upper : handle.published + 1 ≤ position := beyond
    have apart := setup.slotIndex_ne (show handle.published < position from upper) (by omega)
    simpa only [index, Function.update_of_ne apart.symm] using published.unused position (by omega) below
  · intro position before within _
    have upper : position < handle.published + 1 := before
    have lower : handle.published + 1 ≤ position + setup.capacity := within
    rcases Nat.lt_succ_iff_lt_or_eq.mp upper with older | rfl
    · have apart := setup.slotIndex_ne older (by omega)
      have inside : position < ring.committed.length := published.length ▸ older
      simpa only [index, Function.update_of_ne apart, List.getElem?_append_left inside] using
        published.payload position older (by omega) fun _ => by omega
    · simp [index, ← published.length]

/-- The cursors only grow. -/
theorem advance (published : Published setup ring handle) {consumed : Fin c → Nat}
    (grows : ∀ consumer, ring.consumed consumer ≤ consumed consumer) :
    Published setup {ring with consumed := consumed} handle :=
  {published with
    cached := fun consumer => (published.cached consumer).trans (grows consumer)
    room := fun consumer => (published.room consumer).trans (Nat.add_le_add_right (grows consumer) _)}

/-- A slot carries the next sequence exactly when its message has been committed. -/
theorem readable_iff (published : Published setup ring handle) {position : Nat} (behind : position ≤ handle.published)
    (within : handle.published ≤ position + setup.capacity) :
    (ring.slot (setup.slotIndex position)).sequence = position + 1 ↔ position < handle.published := by
  constructor
  · intro carries
    by_contra late
    have last : position = handle.published := by omega
    rcases Nat.lt_or_ge position setup.capacity with fresh | lapped
    · have unused := published.unused position last.ge fresh
      omega
    · have slots := setup.slots
      have shifted : position - setup.capacity + setup.capacity = position := by omega
      have older := published.sequence (position - setup.capacity) (by omega) (by omega)
      rw [← setup.slotIndex_lap, shifted] at older
      omega
  · exact fun before => published.sequence position before within

/-- No claimed slot is one that a consumer may still read. -/
theorem slotIndex_ne (published : Published setup ring handle) (claimed : handle.claimOutstanding = true)
    {consumer : Fin c} {position : Nat} (held : ring.consumed consumer ≤ position)
    (before : position < handle.published) : setup.slotIndex position ≠ setup.slotIndex handle.published := by
  have room := published.claimed claimed
  have cached := published.cached consumer
  exact setup.slotIndex_ne before (by omega)

end Published

/-- The consumers of an index have read the first payloads of a lane, each once and in order. -/
structure Delivered (committed : List (List UInt8)) (cursor consumed count : Nat) (reads : List (Nat × List UInt8)) :
    Prop where
  behind : cursor ≤ consumed
  length : reads.length = count
  inOrder : ∀ (k : Nat) (read : Nat × List UInt8), reads[k]? = some read →
    read.1 = k ∧ committed[k]? = some read.2

namespace Delivered

variable {committed : List (List UInt8)} {cursor consumed count : Nat} {reads : List (Nat × List UInt8)}

theorem le_length (delivered : Delivered committed cursor consumed count reads) : count ≤ committed.length := by
  rw [← delivered.length]
  rcases Nat.eq_zero_or_pos reads.length with empty | some
  · omega
  · have inside : reads.length - 1 < reads.length := by omega
    obtain ⟨_, last⟩ := delivered.inOrder _ _ (List.getElem?_eq_getElem inside)
    have := (List.getElem?_eq_some_iff.mp last).1
    omega

theorem commit (delivered : Delivered committed cursor consumed count reads) {more : List (List UInt8)}
    (grows : committed <+: more) : Delivered more cursor consumed count reads :=
  {delivered with
    inOrder := fun k read found => by
      obtain ⟨rest, rfl⟩ := grows
      obtain ⟨position, stored⟩ := delivered.inOrder k read found
      refine ⟨position, ?_⟩
      rw [List.getElem?_append_left (List.getElem?_eq_some_iff.mp stored).1, stored]}

theorem read (delivered : Delivered committed cursor consumed count reads) {payload : List UInt8}
    (stored : committed[count]? = some payload) :
    Delivered committed cursor consumed (count + 1) (reads ++ [(count, payload)]) where
  behind := delivered.behind
  length := by simp [delivered.length]
  inOrder k read found := by
    rcases Nat.lt_or_ge k reads.length with older | newer
    · rw [List.getElem?_append_left older] at found
      exact delivered.inOrder k read found
    · have last := (List.getElem?_eq_some_iff.mp found).1
      have position : k = reads.length := by
        simp only [List.length_append, List.length_singleton] at last
        omega
      subst position
      simp only [List.getElem?_concat_length, Option.some.injEq] at found
      subst found
      exact ⟨delivered.length.symm, delivered.length ▸ stored⟩

end Delivered

end Lanes

/-- The messages of a lane that the consumers of an index have read. -/
def State.readCount (state : State p c) (consumer : Fin c) (lane : Fin p) : Nat :=
  (state.consumer consumer).consumed lane + if (state.consumer consumer).activeLane = some lane then 1 else 0

/-- A consumer still uses the slot of its outstanding read and those that it has not yet given back. -/
def State.Held (state : State p c) (consumer : Fin c) (lane : Fin p) (position : Nat) : Prop :=
  (state.lane lane).consumed consumer ≤ position ∧ position < state.readCount consumer lane

/-- The invariant of a ring. -/
structure Delivery (setup : Setup p c) (state : State p c) : Prop where
  published : ∀ lane, Published setup (state.lane lane) (state.producer lane)
  delivered : ∀ consumer lane, Delivered (state.lane lane).committed ((state.lane lane).consumed consumer)
    ((state.consumer consumer).consumed lane) (state.readCount consumer lane) (state.reads consumer lane)

/-- No cursor moves backwards, and no slot that a consumer still uses is rewritten. -/
structure Keeps (setup : Setup p c) (before after : State p c) : Prop where
  cursors : ∀ lane consumer, (before.lane lane).consumed consumer ≤ (after.lane lane).consumed consumer
  held : ∀ consumer lane position, before.Held consumer lane position →
    (after.lane lane).slot (setup.slotIndex position) = (before.lane lane).slot (setup.slotIndex position)

theorem Keeps.of_same {setup : Setup p c} {before after : State p c} (same : after.lane = before.lane) :
    Keeps setup before after :=
  ⟨fun _ _ => by rw [same], fun _ _ _ _ => by rw [same]⟩

section Contracts

variable (setup : Setup p c)

/-- What the other threads leave alone. -/
def rely : Thread p c → State p c → State p c → Prop
  | .producer lane, before, after => after.producer lane = before.producer lane ∧
      ∀ consumer, (before.lane lane).consumed consumer ≤ (after.lane lane).consumed consumer
  | .consumer consumer, before, after => after.consumer consumer = before.consumer consumer ∧
      ∀ lane, (after.lane lane).consumed consumer = (before.lane lane).consumed consumer

/-- What a thread leaves alone. -/
def guarantee : Thread p c → State p c → State p c → Prop
  | .producer lane, before, after => Keeps setup before after ∧
      (∀ other, other ≠ lane → after.producer other = before.producer other) ∧
      after.consumer = before.consumer ∧ ∀ other, (after.lane other).consumed = (before.lane other).consumed
  | .consumer consumer, before, after => Keeps setup before after ∧ after.producer = before.producer ∧
      ∀ other, other ≠ consumer → after.consumer other = before.consumer other ∧
        ∀ lane, (after.lane lane).consumed other = (before.lane lane).consumed other

def discipline : Discipline (State p c) (Thread p c) (Label p) where
  invariant := Delivery setup
  may _ _ := True
  rely := rely
  guarantee := guarantee setup
  label _ _ _ := True

theorem lawful (thread : Thread p c) : ((discipline setup).contract thread).Lawful where
  refl state := by cases thread <;> simp [Discipline.contract, discipline, rely]
  trans {first second third} earlier later := by
    cases thread with
    | producer lane => exact ⟨later.1.trans earlier.1, fun consumer => (earlier.2 consumer).trans (later.2 consumer)⟩
    | consumer consumer => exact ⟨later.1.trans earlier.1, fun lane => (later.2 lane).trans (earlier.2 lane)⟩
  idle state := by
    cases thread with
    | producer lane => exact ⟨.of_same rfl, fun _ _ => rfl, rfl, fun _ => rfl⟩
    | consumer consumer => exact ⟨.of_same rfl, rfl, fun _ _ => ⟨rfl, fun _ => rfl⟩⟩
  stays _ _ := trivial

theorem compatible {actor observer : Thread p c} {before after : State p c} (different : actor ≠ observer)
    (step : guarantee setup actor before after) : rely observer before after := by
  match actor, observer with
  | .producer lane, .producer other =>
      exact ⟨step.2.1 other fun same => different (same ▸ rfl), step.1.cursors other⟩
  | .producer lane, .consumer consumer =>
      exact ⟨congrFun step.2.2.1 consumer, fun other => congrFun (step.2.2.2 other) consumer⟩
  | .consumer consumer, .producer lane => exact ⟨congrFun step.2.1 lane, step.1.cursors lane⟩
  | .consumer consumer, .consumer other => exact step.2.2 other fun same => different (same ▸ rfl)

end Contracts

section Steps

variable {setup : Setup p c} {before after : State p c}

/-- A producer changes only its own lane and handle, and no slot that a consumer still uses. -/
theorem Delivery.produce (delivery : Delivery setup before) {lane : Fin p}
    (others : ∀ other, other ≠ lane → after.lane other = before.lane other ∧
      after.producer other = before.producer other)
    (consumers : after.consumer = before.consumer) (reads : after.reads = before.reads)
    (published : Published setup (after.lane lane) (after.producer lane))
    (cursors : (after.lane lane).consumed = (before.lane lane).consumed)
    (grows : (before.lane lane).committed <+: (after.lane lane).committed)
    (held : ∀ consumer position, before.Held consumer lane position →
      (after.lane lane).slot (setup.slotIndex position) = (before.lane lane).slot (setup.slotIndex position)) :
    Delivery setup after ∧ guarantee setup (.producer lane) before after := by
  have allCursors : ∀ other, (after.lane other).consumed = (before.lane other).consumed := by
    intro other
    by_cases same : other = lane
    · exact same ▸ cursors
    · rw [(others other same).1]
  refine ⟨⟨fun other => ?_, fun consumer other => ?_⟩, ⟨fun other consumer => ?_, fun consumer other => ?_⟩,
    fun other different => (others other different).2, consumers, allCursors⟩
  · by_cases same : other = lane
    · exact same ▸ published
    · rw [(others other same).1, (others other same).2]
      exact delivery.published other
  · have older := delivery.delivered consumer other
    rw [State.readCount, allCursors, consumers, reads]
    by_cases same : other = lane
    · subst same
      exact older.commit grows
    · rw [(others other same).1]
      exact older
  · rw [allCursors]
  · by_cases same : other = lane
    · exact same ▸ held consumer
    · rw [(others other same).1]
      exact fun _ _ => rfl

/-- A consumer changes only its own handle and its own cursors, and it keeps its place in every lane. -/
theorem Delivery.consume (delivery : Delivery setup before) {consumer : Fin c}
    (producers : after.producer = before.producer)
    (lanes : ∀ lane, after.lane lane = {before.lane lane with consumed := (after.lane lane).consumed})
    (others : ∀ other, other ≠ consumer → after.consumer other = before.consumer other ∧
      after.reads other = before.reads other ∧
      ∀ lane, (after.lane lane).consumed other = (before.lane lane).consumed other)
    (cursors : ∀ lane, (before.lane lane).consumed consumer ≤ (after.lane lane).consumed consumer)
    (delivered : ∀ lane, Delivered (before.lane lane).committed ((after.lane lane).consumed consumer)
      ((after.consumer consumer).consumed lane) (after.readCount consumer lane) (after.reads consumer lane)) :
    Delivery setup after ∧ guarantee setup (.consumer consumer) before after := by
  have grows : ∀ lane other, (before.lane lane).consumed other ≤ (after.lane lane).consumed other := by
    intro lane other
    by_cases same : other = consumer
    · exact same ▸ cursors lane
    · rw [(others other same).2.2 lane]
  refine ⟨⟨fun lane => ?_, fun other lane => ?_⟩, ⟨grows, fun _ lane _ _ => by rw [lanes lane]⟩, producers,
    fun other different => ⟨(others other different).1, (others other different).2.2⟩⟩
  · rw [lanes lane, producers]
    exact (delivery.published lane).advance (grows lane)
  · have committed : (after.lane lane).committed = (before.lane lane).committed := by rw [lanes lane]
    rw [committed]
    by_cases same : other = consumer
    · exact same ▸ delivered lane
    · obtain ⟨handle, reads, cursors⟩ := others other same
      rw [State.readCount, handle, reads, cursors lane]
      exact delivery.delivered other lane

end Steps

section Producers

variable {setup : Setup p c} {lane : Fin p} {state : State p c}

abbrev producerContract (setup : Setup p c) (lane : Fin p) : Contract (State p c) :=
  (discipline setup).contract (.producer lane)

theorem producerLawful (setup : Setup p c) (lane : Fin p) : (producerContract setup lane).Lawful :=
  lawful setup (.producer lane)

/-- A change of the handle alone. -/
theorem Delivery.setProducer (delivery : Delivery setup state) (change : Producer → Producer)
    (published : Published setup (state.lane lane) (change (state.producer lane))) :
    Delivery setup (state.setProducer lane change) ∧
      guarantee setup (.producer lane) state (state.setProducer lane change) := by
  refine delivery.produce (fun other different => ⟨rfl, Function.update_of_ne different ..⟩) rfl rfl ?_ rfl
    (List.prefix_refl _) fun _ _ _ => rfl
  simpa [State.setProducer] using published

/-- The claimed slot is none that a consumer still uses. -/
theorem Delivery.held_ne (delivery : Delivery setup state) (claimed : (state.producer lane).claimOutstanding = true)
    {consumer : Fin c} {position : Nat} (held : state.Held consumer lane position) :
    setup.slotIndex position ≠ setup.slotIndex (state.producer lane).published := by
  have published := delivery.published lane
  have count := (delivery.delivered consumer lane).le_length
  rw [published.length] at count
  exact published.slotIndex_ne claimed held.1 (held.2.trans_le count)

/-- A write into the slot of the claim, followed by a change of the handle. -/
theorem Delivery.writeSlot (delivery : Delivery setup state) (claimed : (state.producer lane).claimOutstanding = true)
    {slot : Slot} {ring : Lane c} {handle : Producer} (published : Published setup ring handle)
    (slots : ring.slot =
      Function.update (state.lane lane).slot (setup.slotIndex (state.producer lane).published) slot)
    (cursors : ring.consumed = (state.lane lane).consumed) (grows : (state.lane lane).committed <+: ring.committed)
    {after : State p c}
    (changed : after = (state.setLane lane fun _ => ring).setProducer lane fun _ => handle) :
    Delivery setup after ∧ guarantee setup (.producer lane) state after := by
  have lanes : after.lane lane = ring := by simp [changed, State.setLane, State.setProducer]
  have handles : after.producer lane = handle := by simp [changed, State.setLane, State.setProducer]
  refine delivery.produce (fun other different => ?_) ?_ ?_ (by rwa [lanes, handles]) (by rw [lanes, cursors])
    (by rwa [lanes]) fun consumer position held => ?_
  · simp [changed, State.setLane, State.setProducer, different]
  · simp [changed, State.setLane, State.setProducer]
  · simp [changed, State.setLane, State.setProducer]
  · rw [lanes, slots, Function.update_of_ne (delivery.held_ne claimed held)]

/-- The minimum is a lower bound of the cursors that have been scanned. -/
structure Slowest (lane : Fin p) (handle : Producer) (remaining : List (Fin c)) (slowest : Nat)
    (state : State p c) : Prop where
  handle : state.producer lane = handle
  bound : ∀ consumer, consumer ∉ remaining → slowest ≤ (state.lane lane).consumed consumer

theorem Slowest.stable {handle : Producer} {remaining : List (Fin c)} {slowest : Nat} {before after : State p c}
    (scanned : Slowest lane handle remaining slowest before) (rely : rely (.producer lane) before after) :
    Slowest lane handle remaining slowest after :=
  ⟨rely.1.trans scanned.handle, fun consumer absent => (scanned.bound consumer absent).trans (rely.2 consumer)⟩

theorem slowestRound_safe {handle : Producer} {consumer : Fin c} {rest : List (Fin c)} {slowest : Nat}
    (scanned : Slowest lane handle (consumer :: rest) slowest state) :
    Safe (producerContract setup lane) (fun result current => match result with
      | .inl next => Slowest lane handle rest next current
      | .inr stop => stop.elim) (slowestRound lane slowest consumer) state := by
  refine Safe.load_bind (producerLawful setup lane) fun current between _ => ?_
  refine Safe.ret fun later further _ => ⟨further.1.trans (scanned.stable between).handle, fun other absent => ?_⟩
  by_cases same : other = consumer
  · subst same
    exact (min_le_right _ _).trans (further.2 other)
  · have earlier := ((scanned.stable between).stable further).bound other (by simp [same, absent])
    exact (min_le_left _ _).trans earlier

/-- The refreshed cache is a lower bound of all cursors. -/
theorem refreshCache_safe {handle : Producer} (current : state.producer lane = handle) :
    Safe (producerContract setup lane) (Slowest lane handle []) (refreshCache setup lane) state := by
  unfold refreshCache
  split
  · have nobody : Slowest lane handle (List.finRange c) kMax state :=
      ⟨current, fun consumer absent => absurd (List.mem_finRange consumer) absent⟩
    refine Safe.bind (producerLawful setup lane) (Safe.foldUntil (producerLawful setup lane)
      (I := Slowest lane handle) (S := fun stop _ => stop.elim) (fun rely _ scanned => scanned.stable rely)
      (fun _ _ _ _ scanned => slowestRound_safe scanned) (fun {stop} _ _ _ => stop.elim) nobody)
      fun result current _ scanned => ?_
    cases result with
    | inl slowest => exact Safe.ret fun later further _ => scanned.stable further
    | inr stop => exact stop.elim
  · rename_i single
    refine Safe.load (producerLawful setup lane) fun first between _ later further _ =>
      ⟨further.1.trans (between.1.trans current), fun consumer _ => ?_⟩
    have only : consumer = setup.firstConsumer := by
      have one := setup.oneConsumer (by simpa using single)
      subst one
      exact Subsingleton.elim _ _
    exact only ▸ further.2 _

theorem ringFull_false {capacity published cache : Nat} (room : ringFull capacity published cache = false) :
    published < cache + capacity := by
  simp only [ringFull, Bool.or_eq_false_iff, decide_eq_false_iff_not] at room
  omega

theorem openClaim_safe {handle : Producer} (current : state.producer lane = handle)
    (room : handle.published < handle.cache + setup.capacity) :
    Safe (producerContract setup lane) (fun _ _ => True) (openClaim lane) state := by
  refine Safe.store_bind fun later between ready _ => ?_
  have same : later.producer lane = handle := between.1.trans current
  obtain ⟨kept, guaranteed⟩ := ready.keeps.setProducer
    (fun handle => {handle with claimOutstanding := true}) ((ready.keeps.published lane).claim (same ▸ room))
  exact ⟨kept, guaranteed, Safe.ret fun _ _ _ => trivial⟩

theorem tryClaim_safe : Safe (producerContract setup lane) (fun _ _ => True) (tryClaim setup lane) state := by
  refine Safe.load_bind (producerLawful setup lane) fun first _ _ => ?_
  split
  · exact Safe.ret fun _ _ _ => trivial
  rename_i idle
  split
  · refine Safe.bind (producerLawful setup lane) (refreshCache_safe rfl) fun cache second _ scanned => ?_
    refine Safe.store_bind fun current between ready _ => ?_
    have bound := scanned.stable between
    have refreshed : Published setup (current.lane lane) {current.producer lane with cache := cache} := by
      have published := ready.keeps.published lane
      rw [bound.handle] at published ⊢
      exact published.refresh (by simpa using idle) fun consumer => bound.bound consumer (by simp)
    obtain ⟨kept, guaranteed⟩ := ready.keeps.setProducer (fun handle => {handle with cache := cache}) refreshed
    refine ⟨kept, guaranteed, ?_⟩
    split
    · exact Safe.ret fun _ _ _ => trivial
    · rename_i room
      have handle : (current.setProducer lane fun handle => {handle with cache := cache}).producer lane =
          {first.producer lane with cache := cache} := by
        simp [State.setProducer, bound.handle]
      exact openClaim_safe handle (ringFull_false (by simpa using room))
  · rename_i room
    exact openClaim_safe rfl (ringFull_false (by simpa using room))

theorem writePayload_safe {offset : Nat} {data : List UInt8} :
    Safe (producerContract setup lane) (fun _ _ => True) (writePayload setup lane offset data) state := by
  refine Safe.store fun current _ ready => ?_
  dsimp only
  split
  · rename_i fits
    refine ready.keeps.writeSlot fits.1 ((ready.keeps.published lane).write fits.1
      (splice ((current.lane lane).slot (setup.slotIndex (current.producer lane).published)).payload offset data))
      rfl rfl (List.prefix_refl _) ?_
    simp [State.setLane, State.setProducer]
  · exact ⟨ready.keeps, (producerLawful setup lane).idle current⟩

theorem commit_safe : Safe (producerContract setup lane) (fun _ _ => True) (commit setup lane) state := by
  refine Safe.load_bind (producerLawful setup lane) fun first _ _ => ?_
  split
  · rename_i claimed
    refine Safe.bind (M := fun _ _ => True) (producerLawful setup lane) (Safe.store fun current between ready => ?_)
      fun _ _ _ _ => Safe.ret fun _ _ _ => trivial
    have outstanding : (current.producer lane).claimOutstanding = true := by rwa [between.1]
    refine ready.keeps.writeSlot outstanding ((ready.keeps.published lane).publish outstanding) rfl rfl
      (List.prefix_append _ _) ?_
    simp [State.setLane, State.setProducer]
  · exact Safe.ret fun _ _ _ => trivial

end Producers

section Consumers

variable {setup : Setup p c} {consumer : Fin c} {lane : Fin p} {state : State p c}

abbrev consumerContract (setup : Setup p c) (consumer : Fin c) : Contract (State p c) :=
  (discipline setup).contract (.consumer consumer)

theorem consumerLawful (setup : Setup p c) (consumer : Fin c) : (consumerContract setup consumer).Lawful :=
  lawful setup (.consumer consumer)

/-- A change of the handle and of the history of its reads. -/
theorem Delivery.setConsumer (delivery : Delivery setup state) {after : State p c} (lanes : after.lane = state.lane)
    (producers : after.producer = state.producer)
    (others : ∀ other, other ≠ consumer → after.consumer other = state.consumer other ∧
      after.reads other = state.reads other)
    (delivered : ∀ lane, Delivered (state.lane lane).committed ((state.lane lane).consumed consumer)
      ((after.consumer consumer).consumed lane) (after.readCount consumer lane) (after.reads consumer lane)) :
    Delivery setup after ∧ guarantee setup (.consumer consumer) state after := by
  refine delivery.consume producers (fun lane => by rw [lanes]) (fun other different => ?_) (fun lane => by rw [lanes])
    fun lane => by rw [lanes]; exact delivered lane
  exact ⟨(others other different).1, (others other different).2, fun lane => by rw [lanes]⟩

theorem State.readable_iff (delivery : Delivery setup state) (idle : (state.consumer consumer).activeLane = none) :
    state.readable setup consumer lane = true ↔
      (state.consumer consumer).consumed lane < (state.lane lane).committed.length := by
  have published := delivery.published lane
  have delivered := delivery.delivered consumer lane
  have count := delivered.le_length
  have room := published.room consumer
  have behind := delivered.behind
  simp only [State.readCount, idle, reduceCtorEq, if_false, Nat.add_zero, published.length] at count
  rw [State.readable, beq_iff_eq, published.readable_iff count (by omega), published.length]

/-- The slot of a readable message holds its payload. -/
theorem Delivery.payload (delivery : Delivery setup state)
    {position : Nat} (cursor : (state.lane lane).consumed consumer ≤ position)
    (before : position < (state.lane lane).committed.length) :
    (state.lane lane).committed[position]? =
      some ((state.lane lane).slot (setup.slotIndex position)).payload := by
  have published := delivery.published lane
  have room := published.room consumer
  have cached := published.cached consumer
  rw [published.length] at before
  exact published.payload position before (by omega) fun claimed => by
    have := published.claimed claimed
    omega

/-- The message of a readable slot becomes the outstanding read. -/
theorem Delivery.beginRead (delivery : Delivery setup state) {begins : Consumer p → Consumer p}
    (place : ∀ handle, (begins handle).consumed = handle.consumed)
    (idle : (state.consumer consumer).activeLane = none) (readable : state.readable setup consumer lane = true) :
    let position := (state.consumer consumer).consumed lane
    let after := (state.setConsumer consumer fun handle => {begins handle with activeLane := some lane}).note consumer
      lane (position, ((state.lane lane).slot (setup.slotIndex position)).payload)
    Delivery setup after ∧ guarantee setup (.consumer consumer) state after := by
  intro position after
  have before := (State.readable_iff delivery idle).mp readable
  refine delivery.setConsumer rfl rfl (fun other different => ?_) fun other => ?_
  · exact ⟨Function.update_of_ne different .., Function.update_of_ne different ..⟩
  · have delivered := delivery.delivered consumer other
    by_cases same : other = lane
    · subst same
      have stored := delivery.payload delivered.behind before
      simp only [State.readCount, idle, reduceCtorEq, if_false, Nat.add_zero] at delivered
      simpa [after, State.readCount, State.setConsumer, State.note, place] using delivered.read stored
    · simp only [State.readCount, idle, reduceCtorEq, if_false, Nat.add_zero] at delivered
      simpa [after, State.readCount, State.setConsumer, State.note, place, same, Ne.symm same] using delivered

theorem readSlot_safe {begins : Consumer p → Consumer p} (place : ∀ handle, (begins handle).consumed = handle.consumed)
    (idle : (state.consumer consumer).activeLane = none) :
    Safe (consumerContract setup consumer)
      (fun found current => found = false → (current.consumer consumer).activeLane = none)
      (readSlot setup begins consumer lane) state := by
  intro current between ready _
  have idle : (current.consumer consumer).activeLane = none := between.1 ▸ idle
  dsimp only
  by_cases readable : current.readable setup consumer lane = true
  · simp only [readable, if_true]
    obtain ⟨kept, guaranteed⟩ := ready.keeps.beginRead place idle readable
    exact ⟨kept, guaranteed, fun _ _ _ => nofun⟩
  · simp only [readable, Bool.false_eq_true, if_false]
    exact ⟨ready.keeps, (consumerLawful setup consumer).idle current, fun later further _ _ => further.1 ▸ idle⟩

theorem tryRead_safe : Safe (consumerContract setup consumer) (fun _ _ => True) (tryRead setup consumer) state := by
  have law := consumerLawful setup consumer
  unfold tryRead
  split
  · refine Safe.load_bind law fun first _ _ => ?_
    split
    · exact Safe.ret fun _ _ _ => trivial
    · rename_i idle
      refine Safe.bind (M := fun _ _ => True) law ?_ fun _ _ _ _ => Safe.ret fun _ _ _ => trivial
      refine Safe.weaken (Safe.foldUntil law (I := fun _ _ state => (state.consumer consumer).activeLane = none)
        (S := fun _ _ => True) (fun between _ idle => between.1 ▸ idle) (fun scan rest _ current idle => ?_)
        (fun _ _ _ => trivial) (by simpa using idle)) fun _ _ _ _ => trivial
      refine Safe.bind law (readSlot_safe (fun _ => rfl) idle) fun found later _ missed => ?_
      split
      · exact Safe.ret fun _ _ _ => trivial
      · rename_i absent
        exact Safe.ret fun after between _ => between.1 ▸ missed (by simpa using absent)
  · refine Safe.load_bind law fun first _ _ => ?_
    split
    · exact Safe.ret fun _ _ _ => trivial
    · rename_i idle
      exact Safe.bind law (readSlot_safe (fun _ => rfl) (by simpa using idle)) fun _ _ _ _ => Safe.ret fun _ _ _ => trivial

/-- The released message counts as consumed instead of outstanding. -/
theorem Delivery.endRead (delivery : Delivery setup state) {ends : Fin p → Consumer p → Consumer p}
    (steps : ∀ lane handle, (ends lane handle).consumed = Function.update handle.consumed lane (handle.consumed lane + 1))
    (closes : ∀ lane handle, (ends lane handle).activeLane = none)
    (active : (state.consumer consumer).activeLane = some lane) :
    Delivery setup (state.setConsumer consumer (ends lane)) ∧
      guarantee setup (.consumer consumer) state (state.setConsumer consumer (ends lane)) := by
  refine delivery.setConsumer rfl rfl (fun other different => ⟨Function.update_of_ne different .., rfl⟩) fun other => ?_
  have delivered := delivery.delivered consumer other
  have behind := delivered.behind
  by_cases same : other = lane
  · subst same
    simp only [State.readCount, active, if_true] at delivered
    simpa [State.readCount, State.setConsumer, steps, closes] using
      {delivered with behind := behind.trans (Nat.le_succ _)}
  · simp only [State.readCount, active, Option.some.injEq, Ne.symm same, if_false] at delivered
    simpa [State.readCount, State.setConsumer, steps, closes, same] using delivered

/-- The published cursor reaches the place of the handle. -/
theorem publishConsumed_safe : Safe (consumerContract setup consumer) (fun _ _ => True)
    (publishConsumed consumer lane) state := by
  refine Safe.store fun current _ ready => ?_
  have placed := ready.keeps.delivered consumer
  refine ready.keeps.consume rfl (fun other => ?_) (fun other different => ?_) (fun other => ?_) fun other => ?_
  · by_cases same : other = lane
    · simp [State.setLane, State.setConsumer, same]
    · simp [State.setLane, State.setConsumer, same]
  · refine ⟨Function.update_of_ne different .., rfl, fun other => ?_⟩
    by_cases same : other = lane
    · simp [State.setLane, State.setConsumer, same, different]
    · simp [State.setLane, State.setConsumer, same]
  · by_cases same : other = lane
    · subst same
      simpa [State.setLane, State.setConsumer] using (placed other).behind
    · simp [State.setLane, State.setConsumer, same]
  · have delivered := placed other
    by_cases same : other = lane
    · subst same
      simpa [State.readCount, State.setLane, State.setConsumer] using {delivered with behind := le_rfl}
    · simpa [State.readCount, State.setLane, State.setConsumer, same] using delivered

theorem release_safe {publish : Bool} :
    Safe (consumerContract setup consumer) (fun _ _ => True) (release setup consumer publish) state := by
  have law := consumerLawful setup consumer
  refine Safe.load_bind law fun first _ _ => ?_
  split
  · exact Safe.ret fun _ _ _ => trivial
  · rename_i lane active
    refine Safe.bind (M := fun _ _ => True) law (Safe.store fun current between ready => ?_) fun _ _ _ _ => ?_
    · refine ready.keeps.endRead (fun other handle => ?_) (fun other handle => ?_) (between.1 ▸ active)
      · split <;> rfl
      · split <;> rfl
    · refine Safe.bind (M := fun _ _ => True) law ?_ fun _ _ _ _ => Safe.ret fun _ _ _ => trivial
      unfold Prog.when
      split
      · exact publishConsumed_safe
      · exact Safe.ret fun _ _ _ => trivial

theorem flushRelease_safe :
    Safe (consumerContract setup consumer) (fun _ _ => True) (flushRelease setup consumer) state := by
  have law := consumerLawful setup consumer
  unfold flushRelease
  split
  · refine Safe.load_bind law fun first _ _ => ?_
    split
    · exact Safe.ret fun _ _ _ => trivial
    · refine Safe.bind law (Safe.forEach law (I := fun _ _ => True) (fun _ _ _ => trivial)
        (fun lane rest current _ => ?_) trivial) fun _ _ _ _ => Safe.ret fun _ _ _ => trivial
      refine Safe.load_bind law fun later _ _ => ?_
      unfold Prog.when
      split
      · exact publishConsumed_safe
      · exact Safe.ret fun _ _ _ => trivial
  · refine Safe.load_bind law fun first _ _ => ?_
    split
    · exact Safe.ret fun _ _ _ => trivial
    · exact Safe.bind law publishConsumed_safe fun _ _ _ _ => Safe.ret fun _ _ _ => trivial

/-- The last handle of an index has no outstanding read and has given back every slot. -/
structure State.Flushed (state : State p c) (consumer : Fin c) : Prop where
  idle : (state.consumer consumer).activeLane = none
  published : ∀ lane, (state.lane lane).consumed consumer = (state.consumer consumer).consumed lane

/-- A new handle finds its place: it reads its cursor back, or nothing has been given back yet. -/
def State.Recovers (setup : Setup p c) (state : State p c) (consumer : Fin c) : Prop :=
  setup.topology.manyLanes = true → ∀ lane, (state.lane lane).consumed consumer = 0

/-- A new handle stands where the last one has stood exactly under this condition. -/
theorem recreated_iff : (∀ lane, (recreated setup state consumer).consumed lane = (state.lane lane).consumed consumer) ↔
    state.Recovers setup consumer := by
  unfold recreated State.Recovers
  split
  · rename_i many
    simp [many, eq_comm]
  · rename_i one
    simp [one]

theorem createConsumer_safe (flushed : state.Flushed consumer) (recovers : state.Recovers setup consumer) :
    Safe (consumerContract setup consumer) (fun _ _ => True) (createConsumer setup consumer) state := by
  refine Safe.store fun current between ready => ?_
  have place : ∀ lane, (recreated setup current consumer).consumed lane = (current.consumer consumer).consumed lane := by
    have still : current.Recovers setup consumer := fun many lane => (between.2 lane).trans (recovers many lane)
    intro lane
    rw [recreated_iff.mpr still lane, between.2 lane, between.1, flushed.published lane]
  have idle : (recreated setup current consumer).activeLane = none := by
    unfold recreated
    split <;> rfl
  have shape : (current.setConsumer consumer fun _ => recreated setup current consumer).consumer consumer =
      recreated setup current consumer := Function.update_self ..
  refine Delivery.setConsumer ready.keeps rfl rfl
    (fun other different => ⟨Function.update_of_ne different .., rfl⟩) fun lane => ?_
  have delivered := ready.keeps.delivered consumer lane
  have before : (current.consumer consumer).activeLane = none := between.1 ▸ flushed.idle
  simp only [State.readCount, before, reduceCtorEq, if_false, Nat.add_zero] at delivered
  rw [State.readCount, shape, place, idle]
  simpa [State.setConsumer] using delivered

end Consumers

section Runs

variable {setup : Setup p c}

/-- A consumer handle is made again only when its index is flushed and the new handle finds its place. -/
def MayStart (setup : Setup p c) (state : State p c) (thread : Thread p c) (_ : Label p) (request : Request) : Prop :=
  ∀ consumer, thread = .consumer consumer → request = .createConsumer →
    state.Flushed consumer ∧ state.Recovers setup consumer

theorem sound (setup : Setup p c) : (discipline setup).Sound (system setup) (MayStart setup) where
  lawful := lawful setup
  compatible different _ _ step := compatible setup different step
  start {thread label request program state} begins may _ _ _ := by
    have law := lawful setup thread
    match thread, label, request, begins with
    | .producer lane, _, .tryClaim, begins =>
        obtain rfl := Option.some.inj begins
        exact Safe.bind law tryClaim_safe fun _ _ _ _ => Safe.ret fun _ _ _ => trivial
    | .producer lane, _, .write offset data, begins =>
        obtain rfl := Option.some.inj begins
        exact Safe.bind law writePayload_safe fun _ _ _ _ => Safe.ret fun _ _ _ => trivial
    | .producer lane, _, .commit, begins =>
        obtain rfl := Option.some.inj begins
        exact Safe.bind law commit_safe fun _ _ _ _ => Safe.ret fun _ _ _ => trivial
    | .consumer consumer, _, .tryRead, begins =>
        obtain rfl := Option.some.inj begins
        exact Safe.bind law tryRead_safe fun _ _ _ _ => Safe.ret fun _ _ _ => trivial
    | .consumer consumer, _, .release publish, begins =>
        obtain rfl := Option.some.inj begins
        exact Safe.bind law release_safe fun _ _ _ _ => Safe.ret fun _ _ _ => trivial
    | .consumer consumer, _, .flushRelease, begins =>
        obtain rfl := Option.some.inj begins
        exact Safe.bind law flushRelease_safe fun _ _ _ _ => Safe.ret fun _ _ _ => trivial
    | .consumer consumer, _, .createConsumer, begins =>
        obtain rfl := Option.some.inj begins
        obtain ⟨flushed, recovers⟩ := may consumer rfl rfl
        exact Safe.bind law (createConsumer_safe flushed recovers) fun _ _ _ _ => Safe.ret fun _ _ _ => trivial

theorem begun (setup : Setup p c) : (discipline setup).Initial (initial setup) := by
  refine ⟨⟨fun lane => ?_, fun consumer lane => ⟨le_rfl, rfl, nofun⟩⟩, fun _ _ _ _ => trivial⟩
  exact ⟨rfl, fun _ => le_rfl, fun _ => Nat.zero_le _, nofun, nofun, fun _ _ _ => rfl, nofun⟩

theorem knows {admits : Config (State p c) (Thread p c) (Label p) → Event (Thread p c) Request → Prop}
    (respects : ∀ {config thread request}, admits config (.start thread request) → ∀ label,
      MayStart setup config.shared thread label request) :
    (discipline setup).Knows (system setup) (MayStart setup) admits (initial setup) where
  respects {config event} admitted := by
    cases event with
    | start thread request => exact fun label _ => respects admitted label
    | act thread => trivial
  known _ := trivial
  action _ _ _ := trivial
  rests _ _ _ := trivial

/-- The consumers of every index read the committed payloads of every lane, each once and in order. -/
structure Delivers (setup : Setup p c) (state : State p c) : Prop where
  /-- The k-th message is the k-th payload. -/
  inOrder : ∀ consumer lane (k : Nat) (read : Nat × List UInt8), (state.reads consumer lane)[k]? = some read →
    read.1 = k ∧ (state.lane lane).committed[k]? = some read.2
  /-- A consumer without an outstanding read finds the next message as soon as it is committed. -/
  next : ∀ consumer lane, (state.consumer consumer).activeLane = none →
    (state.readable setup consumer lane = true ↔
      (state.reads consumer lane).length < (state.lane lane).committed.length)
  /-- The slots that a consumer still uses hold their payloads. -/
  intact : ∀ consumer lane position, state.Held consumer lane position →
    (state.lane lane).committed[position]? = some ((state.lane lane).slot (setup.slotIndex position)).payload
  bounded : ∀ consumer lane, (state.lane lane).committed.length ≤ (state.lane lane).consumed consumer + setup.capacity

theorem Delivery.delivers {state : State p c} (delivery : Delivery setup state) : Delivers setup state where
  inOrder consumer lane := (delivery.delivered consumer lane).inOrder
  next consumer lane idle := by
    have length := (delivery.delivered consumer lane).length
    simp only [State.readCount, idle, reduceCtorEq, if_false, Nat.add_zero] at length
    rw [State.readable_iff delivery idle, length]
  intact consumer lane position held :=
    delivery.payload held.1 (held.2.trans_le (delivery.delivered consumer lane).le_length)
  bounded consumer lane := by
    rw [(delivery.published lane).length]
    exact (delivery.published lane).room consumer

variable {config : Config (State p c) (Thread p c) (Label p)}

/-- Every state of an admitted run delivers, and every step from it keeps the cursors and the slots in use. -/
theorem delivers_of_run {admits : Config (State p c) (Thread p c) (Label p) → Event (Thread p c) Request → Prop}
    (respects : ∀ {config thread request}, admits config (.start thread request) → ∀ label,
      MayStart setup config.shared thread label request)
    (acts : ∀ config thread, admits config (.act thread))
    (run : (system setup).Run admits (initial setup) config) :
    Delivers setup config.shared ∧ ∀ event after, (system setup).step config event = some after →
      Keeps setup config.shared after.shared := by
  have knows : (discipline setup).Knows (system setup) (MayStart setup) admits (initial setup) := knows respects
  refine ⟨((sound setup).run (begun setup) knows run).1.delivers, fun event after taken => ?_⟩
  cases event with
  | start thread request =>
      refine .of_same ?_
      simp only [System.step] at taken
      split at taken
      · obtain ⟨program, _, rfl⟩ := Option.map_eq_some_iff.mp taken
        rfl
      · cases taken
  | act thread =>
      have guaranteed := (sound setup).guarantee (begun setup) knows run (acts config thread) taken
      cases thread with
      | producer lane => exact guaranteed.1
      | consumer consumer => exact guaranteed.1

/-- Every side keeps the handle that it was given before the traffic. -/
def KeepsHandles (_ : Config (State p c) (Thread p c) (Label p)) (event : Event (Thread p c) Request) : Prop :=
  ∀ consumer, event ≠ .start (.consumer consumer) .createConsumer

/-- A ring whose handles stay delivers exactly the committed streams. -/
theorem committed_streams (run : (system setup).Run KeepsHandles (initial setup) config) :
    Delivers setup config.shared ∧ ∀ event after, (system setup).step config event = some after →
      Keeps setup config.shared after.shared :=
  delivers_of_run (fun admitted _ consumer same creates => absurd (same ▸ creates ▸ rfl) (admitted consumer))
    (fun _ _ _ => nofun) run

/-- A ring with one producer, one consumer and two slots of one byte. -/
def smallRing (topology : Topology) : Setup 1 1 where
  topology := topology
  payloadSize := 1
  capacity := 2
  payload := Nat.one_pos
  slots := le_rfl
  singleBit := by decide
  producers := Nat.one_pos
  consumers := Nat.one_pos
  oneLane _ := rfl
  oneConsumer _ := rfl

/-- Every event passes but the creation of a consumer handle. -/
def keepsHandles (_ : Config (State 1 1) (Thread 1 1) (Label 1)) : Event (Thread 1 1) Request → Bool
  | .start _ .createConsumer => false
  | _ => true

theorem keepsHandles_passes (config : Config (State 1 1) (Thread 1 1) (Label 1)) (event : Event (Thread 1 1) Request)
    (passes : keepsHandles config event = true) : KeepsHandles config event := by
  rintro consumer rfl
  cases passes

/-- One message is committed, read and given back. -/
def firstMessage : List (Event (Thread 1 1) Request) :=
  [.start (.producer sole) .tryClaim, .act (.producer sole), .act (.producer sole), .start (.producer sole) (.write 0 [7]),
    .act (.producer sole), .start (.producer sole) .commit, .act (.producer sole), .act (.producer sole),
    .start (.consumer sole) .tryRead, .act (.consumer sole), .act (.consumer sole), .start (.consumer sole) (.release true),
    .act (.consumer sole), .act (.consumer sole), .act (.consumer sole)]

theorem committed_streams_firstMessage :
    ∃ config, (system (smallRing .mpmc)).Run KeepsHandles (initial (smallRing .mpmc)) config ∧
      config.shared.reads 0 0 = [(0, [7])] ∧ Delivers (smallRing .mpmc) config.shared := by
  have executed : ((system (smallRing .mpmc)).execChecked keepsHandles (initial (smallRing .mpmc)) firstMessage).map
      (fun config => config.shared.reads 0 0) = some [(0, [7])] := by
    decide
  obtain ⟨config, final, reads⟩ := Option.map_eq_some_iff.mp executed
  have run := System.run_of_execChecked keepsHandles_passes firstMessage .refl final
  exact ⟨config, run, reads, (committed_streams run).1⟩

/-- A consumer handle is made again only when the last one of its index is flushed. -/
def Recreates (config : Config (State p c) (Thread p c) (Label p)) (event : Event (Thread p c) Request) : Prop :=
  ∀ consumer, event = .start (.consumer consumer) .createConsumer → config.shared.Flushed consumer

/-- Every new handle finds its place. -/
def Recovering (setup : Setup p c) (config : Config (State p c) (Thread p c) (Label p))
    (event : Event (Thread p c) Request) : Prop :=
  Recreates config event ∧
    ∀ consumer, event = .start (.consumer consumer) .createConsumer → config.shared.Recovers setup consumer

/-- New handles deliver exactly what has not been released. -/
theorem recreated_streams (run : (system setup).Run (Recovering setup) (initial setup) config) :
    Delivers setup config.shared ∧ ∀ event after, (system setup).step config event = some after →
      Keeps setup config.shared after.shared :=
  delivers_of_run (fun admitted _ consumer same creates =>
      ⟨admitted.1 consumer (same ▸ creates ▸ rfl), admitted.2 consumer (same ▸ creates ▸ rfl)⟩)
    (fun _ _ => ⟨fun _ => nofun, fun _ => nofun⟩) run

/-- A handle without an outstanding read whose cursors are all published is flushed. -/
def flushedHandles (config : Config (State 1 1) (Thread 1 1) (Label 1)) : Event (Thread 1 1) Request → Bool
  | .start _ .createConsumer => (config.shared.consumer sole).activeLane.isNone &&
      (config.shared.lane sole).consumed sole == (config.shared.consumer sole).consumed sole
  | _ => true

theorem flushedHandles_passes (config : Config (State 1 1) (Thread 1 1) (Label 1))
    (event : Event (Thread 1 1) Request) (passes : flushedHandles config event = true) : Recreates config event := by
  rintro consumer rfl
  simp only [flushedHandles, Bool.and_eq_true, Option.isNone_iff_eq_none, beq_iff_eq] at passes
  obtain rfl := Subsingleton.elim consumer sole
  exact ⟨passes.1, fun lane => Subsingleton.elim sole lane ▸ passes.2⟩

/-- A new handle reads once more after the first message. -/
def secondHandle : List (Event (Thread 1 1) Request) :=
  firstMessage ++ [.start (.consumer sole) .createConsumer, .act (.consumer sole), .start (.consumer sole) .tryRead,
    .act (.consumer sole), .act (.consumer sole)]

theorem recreated_streams_secondHandle :
    ∃ config, (system (smallRing .spsc)).Run (Recovering (smallRing .spsc)) (initial (smallRing .spsc)) config ∧
      config.shared.reads 0 0 = [(0, [7])] ∧ Delivers (smallRing .spsc) config.shared := by
  have executed : ((system (smallRing .spsc)).execChecked flushedHandles (initial (smallRing .spsc)) secondHandle).map
      (fun config => config.shared.reads 0 0) = some [(0, [7])] := by
    decide
  obtain ⟨config, final, reads⟩ := Option.map_eq_some_iff.mp executed
  have run := System.run_of_execChecked (fun config event passes =>
    (⟨flushedHandles_passes config event passes, fun _ _ => nofun⟩ : Recovering (smallRing .spsc) config event))
    secondHandle .refl final
  exact ⟨config, run, reads, (recreated_streams run).1⟩

/-- The second handle of a ring with many lanes reads the first message again. -/
theorem first_message_read_twice :
    ∃ config, (system (smallRing .mpsc)).Run Recreates (initial (smallRing .mpsc)) config ∧
      config.shared.reads 0 0 = [(0, [7]), (0, [7])] ∧ (config.shared.lane 0).committed = [[7]] ∧
      ¬ Delivers (smallRing .mpsc) config.shared := by
  have executed : ((system (smallRing .mpsc)).execChecked flushedHandles (initial (smallRing .mpsc)) secondHandle).map
      (fun config => (config.shared.reads 0 0, (config.shared.lane 0).committed)) =
        some ([(0, [7]), (0, [7])], [[7]]) := by
    decide
  obtain ⟨config, final, facts⟩ := Option.map_eq_some_iff.mp executed
  simp only [Prod.mk.injEq] at facts
  have run := System.run_of_execChecked flushedHandles_passes secondHandle .refl final
  refine ⟨config, run, facts.1, facts.2, fun delivers => ?_⟩
  have again := delivers.inOrder 0 0 1 (0, [7]) (by simp [facts.1])
  exact absurd again.1 (by decide)

end Runs

end Salias.FastRing
