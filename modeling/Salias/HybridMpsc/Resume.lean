import Salias.HybridMpsc.ReceiverSafety
import Mathlib.Algebra.BigOperators.Fin

/-
A receiver that is created anew while its consumer has published no progress delivers the committed messages.
The constructor takes no position from the channel, so after any progress it starts at the wrong place.
-/

namespace Salias.HybridMpsc

open Salias.Frame
open SharedHybridMpsc (ClaimedFrame Message Chained CommitPrefix frameOffset scanOrder sequenceLowWindowFits)

/-- A log splits into the items of each owner. -/
def ofOwner {n : Nat} {α : Type} (log : List (Fin n × α)) (owner : Fin n) : List α :=
  log.filterMap fun entry => if entry.1 = owner then some entry.2 else none

section Owners

variable {n : Nat} {α : Type} {log : List (Fin n × α)} {owner : Fin n} {item : α}

theorem ofOwner_cons (entry : Fin n × α) (rest : List (Fin n × α)) :
    ofOwner (entry :: rest) owner = if entry.1 = owner then entry.2 :: ofOwner rest owner else ofOwner rest owner := by
  by_cases same : entry.1 = owner <;> simp [ofOwner, same]

/-- An entry of the log is the next item of its owner. -/
theorem getElem?_ofOwner {index : Nat} (found : log[index]? = some (owner, item)) :
    (ofOwner log owner)[(ofOwner (log.take index) owner).length]? = some item := by
  induction log generalizing index with
  | nil => simp at found
  | cons entry rest ih =>
      cases index with
      | zero =>
          obtain rfl : entry = (owner, item) := by simpa using found
          simp [ofOwner]
      | succ index =>
          have later := ih (by simpa using found)
          rw [ofOwner_cons, List.take_succ_cons, ofOwner_cons]
          by_cases same : entry.1 = owner
          · simpa [same] using later
          · simpa [same] using later

theorem exists_of_getElem?_ofOwner {index : Nat} (found : (ofOwner log owner)[index]? = some item) :
    ∃ place, log[place]? = some (owner, item) ∧ (ofOwner (log.take place) owner).length = index := by
  induction log generalizing index with
  | nil => simp [ofOwner] at found
  | cons entry rest ih =>
      rw [ofOwner_cons] at found
      by_cases same : entry.1 = owner
      · rw [if_pos same] at found
        cases index with
        | zero =>
            refine ⟨0, ?_, by simp [ofOwner]⟩
            obtain rfl : entry.2 = item := by simpa using found
            simp [← same]
        | succ index =>
            obtain ⟨place, there, count⟩ := ih (by simpa using found)
            exact ⟨place + 1, by simpa using there, by simp [ofOwner_cons, same, count]⟩
      · rw [if_neg same] at found
        obtain ⟨place, there, count⟩ := ih found
        exact ⟨place + 1, by simpa using there, by simp [ofOwner_cons, same, count]⟩

/-- Every entry has one owner. -/
theorem sum_length_ofOwner (log : List (Fin n × α)) : ∑ owner, (ofOwner log owner).length = log.length := by
  induction log with
  | nil => simp [ofOwner]
  | cons entry rest ih =>
      have step (owner : Fin n) : (ofOwner (entry :: rest) owner).length =
          (ofOwner rest owner).length + if entry.1 = owner then 1 else 0 := by
        rw [ofOwner_cons]
        split <;> simp
      simp [step, Finset.sum_add_distrib, ih]

theorem length_ofOwner_take_le (log : List (Fin n × α)) (index : Nat) (owner : Fin n) :
    (ofOwner (log.take index) owner).length ≤ (ofOwner log owner).length :=
  ((List.take_sublist index log).filterMap _).length_le

theorem length_ofOwner_take_succ {index : Nat} (found : log[index]? = some (owner, item)) (other : Fin n) :
    (ofOwner (log.take (index + 1)) other).length =
      (ofOwner (log.take index) other).length + if other = owner then 1 else 0 := by
  rw [List.take_add_one, found]
  simp only [Option.toList_some, ofOwner, List.filterMap_append, List.length_append]
  by_cases same : owner = other
  · simp [same]
  · simp [same, Ne.symm same]

/-- The entries of the log before two places differ by the items of the other owners. -/
theorem place_le {first second : Nat} (within : second ≤ log.length) (ordered : first ≤ log.length)
    (same : (ofOwner (log.take first) owner).length = (ofOwner (log.take second) owner).length) :
    second ≤ first + ∑ other ∈ Finset.univ.erase owner, (ofOwner log other).length := by
  have total (index : Nat) (bound : index ≤ log.length) : index = (ofOwner (log.take index) owner).length +
      ∑ other ∈ Finset.univ.erase owner, (ofOwner (log.take index) other).length := by
    rw [Finset.add_sum_erase _ (fun other => (ofOwner (log.take index) other).length) (Finset.mem_univ owner),
      sum_length_ofOwner, List.length_take, min_eq_left bound]
  have others : ∑ other ∈ Finset.univ.erase owner, (ofOwner (log.take second) other).length ≤
      ∑ other ∈ Finset.univ.erase owner, (ofOwner log other).length :=
    Finset.sum_le_sum fun other _ => length_ofOwner_take_le log second other
  have low := total first ordered
  have high := total second within
  omega

end Owners

variable {n m : Nat} {setup : Setup n m} {base channel : Channel n m} {producer : Fin n}

theorem frames_eq (channel : Channel n m) (producer : Fin n) :
    channel.frames producer = ofOwner channel.log producer := rfl

section Prefix

variable {frames : List ClaimedFrame} {ring : ProducerRing m}

/-- The published frames are the committed prefix of the ring. -/
theorem RingSafe.committed_chain (safe : RingSafe setup frames ring) (room : ring.producerPos ≤ setup.capacity) :
    ∃ count, count ≤ frames.length ∧ ring.visibleProducerPos = frameOffset frames count ∧
      (∀ index (below : index < frames.length), index < count → Intact setup ring frames[index]) ∧
      ∀ below : count < frames.length, ring.committed frames[count].start = none := by
  obtain ⟨count, within, position, next⟩ : ∃ count, count ≤ frames.length ∧
      ring.publishedPos = frameOffset frames count ∧
      ∀ below : count < frames.length, ring.committed frames[count].start = none := by
    rcases safe.commits.ends with whole | ⟨span, member, start⟩
    · exact ⟨frames.length, le_rfl, whole.trans safe.position, fun below => absurd below (lt_irrefl _)⟩
    · obtain ⟨claimed, open_, rfl⟩ := List.mem_map.mp member
      obtain ⟨formed, -⟩ := safe.formed claimed open_
      obtain ⟨frame, inside, first, -⟩ := formed.covers claimed.start le_rfl formed.proper
      have begins : frame.start = claimed.start := le_antisymm first (formed.inside inside).1
      obtain ⟨known, uncommitted⟩ := safe.backed claimed open_ frame inside
      obtain ⟨index, below, rfl⟩ := List.mem_iff_getElem.mp known
      exact ⟨index, below.le, by rw [← safe.chained index below, begins]; exact start.symm, fun _ => uncommitted⟩
  refine ⟨count, within, safe.visible.trans position, fun index below early => ?_, next⟩
  refine safe.intact room _ (List.getElem_mem below) fun claimed open_ => .inl ?_
  have above := (safe.commits.inside _ (List.mem_map_of_mem open_)).1
  rw [safe.chained.stop below]
  exact (Circular.offset_mono _ _ early).trans (position.ge.trans above)

theorem RingSafe.length_le (safe : RingSafe setup frames ring) (room : ring.producerPos ≤ setup.capacity) :
    frames.length ≤ setup.capacity / kFrameAlign := by
  have each (count : Nat) (within : count ≤ frames.length) : 8 * count ≤ frameOffset frames count := by
    induction count with
    | zero => exact Nat.zero_le _
    | succ count ih =>
        have size := frameLen_ge frames[count].payloadLen frames[count].hasExpiry
        have before := ih (by omega)
        rw [frameOffset, Circular.offset_succ _ _ (by omega)]
        rw [frameOffset] at before
        rw [ClaimedFrame.length]
        omega
  have bound := each frames.length le_rfl
  rw [← safe.position] at bound
  rw [kFrameAlign]
  omega

end Prefix

/-- The rings of the other producers hold less than one period of the low sequence bits. -/
theorem Setup.period (setup : Setup n m) (ordered : setup.order.ordered = true) :
    (n - 1) * (setup.capacity / kFrameAlign) < 2 ^ 24 := by
  have fits := setup.lowWindowFits
  rw [if_pos ordered] at fits
  unfold sequenceLowWindowFits at fits
  split at fits
  · cases fits
  · split at fits
    · rename_i single
      have one : n = 1 := by simpa using single
      simp [one]
    · simp only [kSequenceLowBits, Bool.and_eq_true, bne_iff_ne, ne_eq] at fits
      obtain ⟨positive, few⟩ := fits
      have whole := Nat.mul_le_of_le_div _ _ _ (Nat.succ_le_of_lt (of_decide_eq_true few))
      have period : (1 : Nat) <<< 24 = 2 ^ 24 := rfl
      generalize setup.capacity / kFrameAlign = frames at positive whole ⊢
      rw [Nat.succ_mul, period] at whole
      have some : frames ≠ 0 := positive
      omega

/-- The message of a committed frame. -/
def frameMessage (producer : Fin n) (frame : ClaimedFrame) : Message n :=
  ⟨producer, frame.start, frame.stop, frameMeta frame.sequence false, frame.sequence, frame.start + kHeaderSize,
    frame.payloadLen, 0⟩

/-- The payload that a message lends out at this moment. -/
def Channel.payload (setup : Setup n m) (channel : Channel n m) (message : Message n) : List UInt8 :=
  Circular.read setup.capacity (channel.ring message.producerId).memory message.payloadPosition message.payloadLen

def Channel.isCommitted (channel : Channel n m) (entry : Fin n × ClaimedFrame) : Bool :=
  ((channel.ring entry.1).committed entry.2.start).isSome

/-- The committed messages of a log in claim order, up to the first frame without a commit, that the consumer has
not released. -/
def Channel.due (channel : Channel n m) (consumer : Fin m) (log : List (Fin n × ClaimedFrame)) :
    List (Message n × List UInt8) :=
  ((log.takeWhile channel.isCommitted).filter fun entry =>
    (entry.1, entry.2.start) ∉ (channel.consumer consumer).released).map fun entry =>
      (frameMessage entry.1 entry.2, ((channel.ring entry.1).committed entry.2.start).getD [])

/-- The delivered messages are the due ones, once each: in one order for the ordered channel, ring by ring for the
other one. -/
def Exactly (setup : Setup n m) (channel : Channel n m) (consumer : Fin m)
    (delivered : List (Message n × List UInt8)) : Prop :=
  if setup.order.ordered then delivered = channel.due consumer channel.log
  else ∀ producer, (delivered.filter fun item => item.1.producerId = producer) =
    channel.due consumer (channel.log.filter fun entry => entry.1 = producer)

/-- The consumer receives and releases until it finds nothing. -/
def drain (setup : Setup n m) (consumer : Fin m) : Nat → Channel n m → List (Message n × List UInt8) × Channel n m
  | 0, channel => ([], channel)
  | fuel + 1, channel =>
      match tryRecv setup channel consumer with
      | (none, channel) => ([], channel)
      | (some message, channel) =>
          let (rest, last) := drain setup consumer fuel (release setup channel consumer message)
          ((message, channel.payload setup message) :: rest, last)

/-- A receiver created now delivers the due messages and nothing after them, and no release of it moves a position
backwards. The claimed frames bound the number of receives. -/
structure Resumes (setup : Setup n m) (channel : Channel n m) (consumer : Fin m) : Prop where
  delivered : Exactly setup channel consumer
    (drain setup consumer (channel.log.length + 1) (createRx channel consumer)).1
  ended : (tryRecv setup (drain setup consumer (channel.log.length + 1) (createRx channel consumer)).2 consumer).1 = none
  forward : ∀ receives, Forward channel (drain setup consumer receives (createRx channel consumer)).2

/-- What a receiver that has taken some frames of each ring looks for. -/
structure Wanted (base : Channel n m) (taken : Fin n → Nat) (target : Nat) (producer : Fin n) (frame : ClaimedFrame) :
    Prop where
  next : (base.frames producer)[taken producer]? = some frame
  visible : frame.stop ≤ (base.ring producer).visibleProducerPos
  sequence : frame.sequence = target

/-- The receiver has taken some frames of each ring, in the channel as it was when the receiver was created. -/
structure Reading (setup : Setup n m) (base channel : Channel n m) (consumer : Fin m) (taken : Fin n → Nat) : Prop where
  safe : Safe setup channel
  log : channel.log = base.log
  memory : ∀ producer, (channel.ring producer).memory = (base.ring producer).memory
  visible : ∀ producer, (channel.ring producer).visibleProducerPos = (base.ring producer).visibleProducerPos
  read : ∀ producer, (channel.consumer consumer).rx.readPositions producer =
    frameOffset (base.frames producer) (taken producer)
  cached : ∀ producer, (channel.consumer consumer).rx.cachedVisiblePos producer = 0 ∨
    (channel.consumer consumer).rx.cachedVisiblePos producer = (base.ring producer).visibleProducerPos
  reached : ∀ producer, taken producer ≤ (base.frames producer).length ∧
    frameOffset (base.frames producer) (taken producer) ≤ (base.ring producer).visibleProducerPos
  target : if setup.order.ordered then ∃ passed, (channel.consumer consumer).rx.expectedSequence = passed ∧
      passed ≤ (base.log.takeWhile base.isCommitted).length ∧
      ∀ producer, taken producer = (ofOwner (base.log.take passed) producer).length
    else ∀ producer, (channel.consumer consumer).rx.nextSequences producer = taken producer

/-- A ring without a wrap shows its committed frames. -/
structure Unwrapped (setup : Setup n m) (base : Channel n m) : Prop where
  safe : Safe setup base
  room : ∀ producer, (base.ring producer).producerPos ≤ setup.capacity

theorem Unwrapped.of_unread (safe : Safe setup base) {consumer : Fin m} (unread : base.Unread consumer) :
    Unwrapped setup base where
  safe := safe
  room producer := by
    have room := (safe.rings producer).room consumer
    rw [unread producer] at room
    omega

section Look

variable {target position : Nat} {frame : ClaimedFrame}

/-- A look at a committed frame finds its message when the low bits of the sequences agree. -/
theorem Unwrapped.look (unwrapped : Unwrapped setup base) (memory : (channel.ring producer).memory =
    (base.ring producer).memory) (known : frame ∈ base.frames producer)
    (visible : frame.stop ≤ (base.ring producer).visibleProducerPos) :
    tryReadFromRing setup channel producer frame.start target (base.ring producer).visibleProducerPos =
      if sequenceLow frame.sequence = sequenceLow target then some {frameMessage producer frame with sequence := target}
      else none := by
  have safe := unwrapped.safe.rings producer
  have intact : Intact setup (base.ring producer) frame := by
    refine safe.intact (unwrapped.room producer) frame known fun claimed open_ => .inl ?_
    have above := (safe.commits.inside _ (List.mem_map_of_mem open_)).1
    rw [safe.visible] at visible
    exact visible.trans above
  obtain ⟨valid, plain⟩ := safe.valid frame known
  have proper := frame.start_lt_stop
  have length : frame.stop = frame.start + frameLen frame.payloadLen false := by
    rw [ClaimedFrame.stop, ClaimedFrame.length, plain]
  have fits : ¬ setup.capacity < frameLen frame.payloadLen false := by
    have size := valid.length
    rw [ClaimedFrame.length, plain] at size
    omega
  have header : Circular.loadWord setup.capacity (channel.ring producer).memory frame.start =
      packHeader frame.payloadLen (frameMeta frame.sequence false) := by
    rw [memory]
    exact intact.header
  unfold tryReadFromRing
  rw [if_neg (by omega)]
  simp only [header, headerPayloadLen_packHeader valid.payloadLen, headerMeta_packHeader valid.payloadLen,
    sequenceLowFromMeta_frameMeta]
  by_cases same : sequenceLow frame.sequence = sequenceLow target
  · have inside : ¬ (setup.capacity < frameLen frame.payloadLen false ∨ (base.ring producer).visibleProducerPos <
        frame.start + frameLen frame.payloadLen false) := by omega
    rw [if_neg (by simpa using same), if_neg inside, if_pos same, frameMessage, length]
  · rw [if_pos same, if_neg same]

end Look

section Scan

variable {consumer : Fin m} {taken : Fin n → Nat} (reading : Reading setup base channel consumer taken)
  (unwrapped : Unwrapped setup base)

include reading unwrapped

/-- The low bits name the sequence of the next frame of a ring. -/
theorem Reading.unambiguous {frame : ClaimedFrame} (next : (base.frames producer)[taken producer]? = some frame)
    (low : sequenceLow frame.sequence = sequenceLow ((channel.consumer consumer).rx.target setup producer)) :
    frame.sequence = (channel.consumer consumer).rx.target setup producer := by
  have target := reading.target
  have numbered := unwrapped.safe.numbered
  unfold Numbered at numbered
  unfold Rx.target at low ⊢
  by_cases ordered : setup.order.ordered = true
  · rw [if_pos ordered] at target numbered low ⊢
    obtain ⟨passed, expected, within, counts⟩ := target
    rw [expected] at low ⊢
    obtain ⟨place, found, count⟩ := exists_of_getElem?_ofOwner next
    obtain ⟨below, entry⟩ := List.getElem?_eq_some_iff.mp found
    have sequence : frame.sequence = place := by
      have number := numbered.2 place below
      rwa [entry] at number
    have bound : passed ≤ base.log.length := within.trans (List.takeWhile_sublist _).length_le
    -- the frames before the place are the taken ones, so the place is not passed
    have later : passed ≤ place := by
      by_contra early
      have grows := length_ofOwner_take_succ found producer
      rw [if_pos rfl] at grows
      have more : (ofOwner (base.log.take (place + 1)) producer).length ≤
          (ofOwner (base.log.take passed) producer).length := by
        have nested := length_ofOwner_take_le (base.log.take passed) (place + 1) producer
        rwa [List.take_take, min_eq_left (by omega)] at nested
      rw [← counts producer, grows, count] at more
      omega
    have near := place_le below.le bound ((counts producer).symm.trans count.symm)
    have others : ∑ other ∈ Finset.univ.erase producer, (ofOwner base.log other).length ≤
        (n - 1) * (setup.capacity / kFrameAlign) := by
      have each := Finset.sum_le_card_nsmul (Finset.univ.erase producer)
        (fun other => (ofOwner base.log other).length) (setup.capacity / kFrameAlign) fun other _ =>
          (unwrapped.safe.rings other).length_le (unwrapped.room other)
      simpa [Finset.card_erase_of_mem] using each
    have period := setup.period ordered
    rw [sequence, sequenceLow_eq, sequenceLow_eq] at low
    omega
  · rw [if_neg ordered] at target numbered ⊢
    obtain ⟨below, entry⟩ := List.getElem?_eq_some_iff.mp next
    rw [target producer, ← entry]
    exact numbered producer _ below

/-- The next frame of a ring starts at the read position. -/
theorem Reading.next_start {frame : ClaimedFrame} (next : (base.frames producer)[taken producer]? = some frame) :
    frame.start = (channel.consumer consumer).rx.readPositions producer ∧ frame ∈ base.frames producer ∧
      frame.stop = frameOffset (base.frames producer) (taken producer + 1) := by
  obtain ⟨below, entry⟩ := List.getElem?_eq_some_iff.mp next
  have chained := (unwrapped.safe.rings producer).chained
  rw [reading.read, ← entry, chained.stop below]
  exact ⟨chained _ below, List.getElem_mem below, rfl⟩

/-- Below the visible position lies a next frame. -/
theorem Reading.exists_next (more : (channel.consumer consumer).rx.readPositions producer <
    (base.ring producer).visibleProducerPos) : ∃ frame, (base.frames producer)[taken producer]? = some frame ∧
      frame.stop ≤ (base.ring producer).visibleProducerPos := by
  obtain ⟨count, within, visible, -, -⟩ := (unwrapped.safe.rings producer).committed_chain (unwrapped.room producer)
  rw [reading.read, visible] at more
  have below : taken producer < count := by
    by_contra late
    have ordered : frameOffset (base.frames producer) count ≤ frameOffset (base.frames producer) (taken producer) :=
      Circular.offset_mono _ _ (not_lt.mp late)
    omega
  refine ⟨(base.frames producer)[taken producer], List.getElem?_eq_getElem (by omega), ?_⟩
  rw [(unwrapped.safe.rings producer).chained.stop (by omega), visible]
  exact Circular.offset_mono _ _ below

theorem Reading.scan (rings : List (Fin n)) {rx : Rx n} (same : SameProgress (channel.consumer consumer).rx rx)
    (cached : ∀ producer, rx.cachedVisiblePos producer = 0 ∨
      rx.cachedVisiblePos producer = (base.ring producer).visibleProducerPos) :
    (∀ producer, (receiveScan setup channel rings rx).2.cachedVisiblePos producer = 0 ∨
      (receiveScan setup channel rings rx).2.cachedVisiblePos producer = (base.ring producer).visibleProducerPos) ∧
    match (receiveScan setup channel rings rx).1 with
    | none => ∀ producer ∈ rings, ∀ frame,
        ¬ Wanted base taken ((channel.consumer consumer).rx.target setup producer) producer frame
    | some message => ∃ producer frame,
        Wanted base taken ((channel.consumer consumer).rx.target setup producer) producer frame ∧
          message = frameMessage producer frame := by
  induction rings generalizing rx with
  | nil => exact ⟨cached, nofun⟩
  | cons producer rest ih =>
      have fresh := same.trans (sameProgress_refresh channel producer rx)
      have bounds : ∀ other, (rx.refresh channel producer).cachedVisiblePos other = 0 ∨
          (rx.refresh channel producer).cachedVisiblePos other = (base.ring other).visibleProducerPos := by
        intro other
        unfold Rx.refresh
        split
        · by_cases equal : other = producer
          · subst equal
            exact .inr (by simp [reading.visible])
          · simpa only [Function.update_of_ne equal] using cached other
        · exact cached other
      have bound : (rx.refresh channel producer).cachedVisiblePos producer =
          (base.ring producer).visibleProducerPos := by
        unfold Rx.refresh
        split
        · simp [reading.visible]
        · rename_i ahead
          rcases cached producer with zero | whole
          · omega
          · exact whole
      have target : (rx.refresh channel producer).target setup producer =
          (channel.consumer consumer).rx.target setup producer := by
        rw [Rx.target, fresh.expectedSequence, fresh.nextSequences, Rx.target]
      obtain ⟨keeps, later⟩ := ih fresh bounds
      -- a ring without the wanted frame is skipped
      have skip (unwanted : ∀ frame,
          ¬ Wanted base taken ((channel.consumer consumer).rx.target setup producer) producer frame) :
          match (receiveScan setup channel rest (rx.refresh channel producer)).1 with
          | none => ∀ other ∈ producer :: rest, ∀ frame,
              ¬ Wanted base taken ((channel.consumer consumer).rx.target setup other) other frame
          | some message => ∃ producer frame,
              Wanted base taken ((channel.consumer consumer).rx.target setup producer) producer frame ∧
                message = frameMessage producer frame := by
        revert later
        cases (receiveScan setup channel rest (rx.refresh channel producer)).1 with
        | none =>
            intro later other member
            rcases List.mem_cons.mp member with rfl | listed
            · exact unwanted
            · exact later other listed
        | some message => exact id
      unfold receiveScan
      simp only [bound, fresh.readPositions, target]
      by_cases behind : (base.ring producer).visibleProducerPos ≤ (channel.consumer consumer).rx.readPositions producer
      · simp only [if_pos behind]
        refine ⟨keeps, skip fun frame wanted => ?_⟩
        have start := (reading.next_start unwrapped wanted.next).1
        have proper := frame.start_lt_stop
        have visible := wanted.visible
        omega
      · obtain ⟨frame, next, visible⟩ := reading.exists_next unwrapped (not_le.mp behind)
        obtain ⟨start, known, -⟩ := reading.next_start unwrapped next
        rw [← start] at behind
        simp only [← start, if_neg behind, unwrapped.look (reading.memory producer) known visible]
        by_cases low : sequenceLow frame.sequence =
            sequenceLow ((channel.consumer consumer).rx.target setup producer)
        · have sequence := reading.unambiguous unwrapped next low
          simp only [if_pos low]
          refine ⟨bounds, producer, frame, ⟨next, visible, sequence⟩, ?_⟩
          rw [frameMessage, sequence]
        · simp only [if_neg low]
          refine ⟨keeps, skip fun other wanted => low ?_⟩
          obtain rfl : frame = other := Option.some.inj (next.symm.trans wanted.next)
          rw [wanted.sequence]

/-- A next frame is visible when it is committed. -/
theorem Reading.visible_iff {frame : ClaimedFrame} (next : (base.frames producer)[taken producer]? = some frame) :
    frame.stop ≤ (base.ring producer).visibleProducerPos ↔ base.isCommitted (producer, frame) = true := by
  obtain ⟨count, within, visible, intact, last⟩ :=
    (unwrapped.safe.rings producer).committed_chain (unwrapped.room producer)
  obtain ⟨below, entry⟩ := List.getElem?_eq_some_iff.mp next
  obtain ⟨-, known, stop⟩ := reading.next_start unwrapped next
  have reached := (reading.reached producer).2
  rw [visible] at reached
  have early : taken producer ≤ count := by
    by_contra late
    have ordered : frameOffset (base.frames producer) count < frameOffset (base.frames producer) (taken producer) :=
      Circular.offset_lt (fun frame => frame.length_pos) (not_le.mp late) (by omega)
    exact absurd reached (not_le.mpr ordered)
  have order : frame.stop ≤ (base.ring producer).visibleProducerPos ↔ taken producer < count := by
    rw [stop, visible]
    exact Circular.offset_le_iff (fun frame => frame.length_pos) below
  rw [order, Channel.isCommitted]
  constructor
  · intro before
    have payload := (intact _ below before).payload
    rw [entry] at payload
    simp [payload]
  · intro committed
    by_contra late
    have same : taken producer = count := by omega
    subst same
    have none := last below
    rw [entry] at none
    simp [none] at committed

end Scan

section Items

variable {α : Type} {keep : α → Bool} {items : List α} {index : Nat} {item : α}

/-- The next kept item leads the rest of the kept prefix. -/
theorem drop_takeWhile (within : index ≤ (items.takeWhile keep).length) (found : items[index]? = some item)
    (holds : keep item = true) :
    (items.takeWhile keep).drop index = item :: (items.takeWhile keep).drop (index + 1) := by
  induction items generalizing index with
  | nil => simp at found
  | cons first rest ih =>
      cases index with
      | zero =>
          obtain rfl : first = item := by simpa using found
          simp [holds]
      | succ index =>
          by_cases head : keep first = true
          · rw [List.takeWhile_cons, if_pos head] at within ⊢
            exact ih (by simpa using within) (by simpa using found)
          · rw [List.takeWhile_cons, if_neg head] at within
            simp at within

theorem drop_takeWhile_nil (fails : ∀ item, items[index]? = some item → keep item = false) :
    (items.takeWhile keep).drop index = [] := by
  rw [List.drop_eq_nil_iff]
  by_contra short
  have below := not_le.mp short
  have same := (List.takeWhile_prefix keep (l := items)).getElem below
  have holds := List.mem_takeWhile_imp (List.getElem_mem below)
  have bound := (List.takeWhile_prefix keep (l := items)).length_le
  have fail := fails _ (List.getElem?_eq_getElem (by omega))
  rw [← same, holds] at fail
  cases fail

end Items

/-- The owner's entries of the log carry its items. -/
theorem getElem?_filter {n : Nat} {α : Type} (log : List (Fin n × α)) (owner : Fin n) (index : Nat) (item : α) :
    (log.filter fun entry => entry.1 = owner)[index]? = some (owner, item) ↔
      (ofOwner log owner)[index]? = some item := by
  have shape : ofOwner log owner = (log.filter fun entry => entry.1 = owner).map Prod.snd := by
    induction log with
    | nil => rfl
    | cons entry rest ih =>
        rw [ofOwner_cons, ih]
        by_cases same : entry.1 = owner <;> simp [same]
  rw [shape, List.getElem?_map]
  constructor
  · intro found
    simp [found]
  · intro found
    obtain ⟨⟨other, value⟩, there, rfl⟩ := Option.map_eq_some_iff.mp found
    have member := List.mem_filter.mp (List.mem_of_getElem? there)
    obtain rfl : other = owner := by simpa using member.2
    exact there

/-- The message of an entry of the log with its committed payload. -/
def Channel.item (base : Channel n m) (entry : Fin n × ClaimedFrame) : Message n × List UInt8 :=
  (frameMessage entry.1 entry.2, ((base.ring entry.1).committed entry.2.start).getD [])

/-- The messages that a receiver delivers when it has taken some frames of each ring. -/
def Remaining (setup : Setup n m) (base : Channel n m) (taken : Fin n → Nat)
    (delivered : List (Message n × List UInt8)) : Prop :=
  if setup.order.ordered then
    delivered = ((base.log.takeWhile base.isCommitted).drop (∑ producer, taken producer)).map base.item
  else ∀ producer, (delivered.filter fun item => item.1.producerId = producer) =
    (((base.log.filter fun entry => entry.1 = producer).takeWhile base.isCommitted).drop (taken producer)).map base.item

section Drain

variable {consumer : Fin m} {taken : Fin n → Nat} {frame : ClaimedFrame}

/-- In the ordered channel the receiver expects the sequence behind the taken frames. -/
theorem Reading.passed (reading : Reading setup base channel consumer taken) (ordered : setup.order.ordered = true) :
    (channel.consumer consumer).rx.expectedSequence = ∑ producer, taken producer ∧
      ∑ producer, taken producer ≤ (base.log.takeWhile base.isCommitted).length ∧
      ∀ producer, taken producer = (ofOwner (base.log.take (∑ producer, taken producer)) producer).length := by
  have target := reading.target
  rw [if_pos ordered] at target
  obtain ⟨passed, expected, within, counts⟩ := target
  have bound : passed ≤ base.log.length := within.trans (List.takeWhile_sublist _).length_le
  have total : ∑ producer, taken producer = passed := by
    simp only [counts]
    rw [sum_length_ofOwner, List.length_take, min_eq_left bound]
  rw [total]
  exact ⟨expected, within, counts⟩

/-- The wanted frame of the ordered channel is the next entry of the log. -/
theorem Reading.entry (reading : Reading setup base channel consumer taken) (unwrapped : Unwrapped setup base)
    (ordered : setup.order.ordered = true)
    (wanted : Wanted base taken ((channel.consumer consumer).rx.target setup producer) producer frame) :
    base.log[∑ producer, taken producer]? = some (producer, frame) := by
  obtain ⟨expected, -, -⟩ := reading.passed ordered
  obtain ⟨place, found, -⟩ := exists_of_getElem?_ofOwner wanted.next
  obtain ⟨below, entry⟩ := List.getElem?_eq_some_iff.mp found
  have numbered := unwrapped.safe.numbered
  rw [Numbered, if_pos ordered] at numbered
  have number := numbered.2 place below
  have sequence := wanted.sequence
  rw [Rx.target, if_pos ordered, expected] at sequence
  rw [entry] at number
  rw [← sequence, number]
  exact found

/-- The taken frames of a ring are committed. -/
theorem Reading.taken_le (reading : Reading setup base channel consumer taken) (unwrapped : Unwrapped setup base)
    (producer : Fin n) :
    taken producer ≤ ((base.log.filter fun entry => entry.1 = producer).takeWhile base.isCommitted).length := by
  obtain ⟨count, within, visible, intact, -⟩ :=
    (unwrapped.safe.rings producer).committed_chain (unwrapped.room producer)
  obtain ⟨some_, reached⟩ := reading.reached producer
  rw [visible] at reached
  have early : taken producer ≤ count :=
    (Circular.offset_le_iff (fun frame => frame.length_pos) some_).mp reached
  by_contra short
  have below : ((base.log.filter fun entry => entry.1 = producer).takeWhile base.isCommitted).length <
      (base.frames producer).length := by omega
  have found := (getElem?_filter base.log producer _ _).mpr (List.getElem?_eq_getElem below)
  have more := drop_takeWhile le_rfl found (by
    rw [Channel.isCommitted, (intact _ below (by omega)).payload]
    rfl)
  rw [List.drop_length] at more
  cases more

/-- A receive keeps what has been taken and hands out a wanted frame, if there is one. -/
theorem Reading.receive (reading : Reading setup base channel consumer taken) (unwrapped : Unwrapped setup base) :
    Reading setup base (tryRecv setup channel consumer).2 consumer taken ∧
      (∀ producer, ((tryRecv setup channel consumer).2.consumer consumer).rx.target setup producer =
        (channel.consumer consumer).rx.target setup producer) ∧
      match (tryRecv setup channel consumer).1 with
      | none => ∀ producer frame,
          ¬ Wanted base taken ((channel.consumer consumer).rx.target setup producer) producer frame
      | some message => (∃ producer frame,
          Wanted base taken ((channel.consumer consumer).rx.target setup producer) producer frame ∧
            message = frameMessage producer frame) ∧
          ((tryRecv setup channel consumer).2.consumer consumer).lent message.producerId = some message := by
  have progress := (receiveScan_spec setup channel
    (scanOrder n (channel.consumer consumer).rx.lastHitRing) (channel.consumer consumer).rx).1
  obtain ⟨cached, found⟩ := reading.scan unwrapped (scanOrder n (channel.consumer consumer).rx.lastHitRing)
    (.refl (channel.consumer consumer).rx) reading.cached
  have shape : ((tryRecv setup channel consumer).2.consumer consumer).rx =
      (receiveScan setup channel (scanOrder n (channel.consumer consumer).rx.lastHitRing)
        (channel.consumer consumer).rx).2 := by
    simp [tryRecv, Channel.setConsumer]
  refine ⟨⟨(tryRecv_safe reading.safe consumer).1, reading.log, reading.memory, reading.visible, fun producer => ?_,
    fun producer => ?_, reading.reached, ?_⟩, fun producer => ?_, ?_⟩
  · rw [shape, progress.readPositions]
    exact reading.read producer
  · rw [shape]
    exact cached producer
  · rw [shape, progress.expectedSequence, progress.nextSequences]
    exact reading.target
  · rw [shape, Rx.target, progress.expectedSequence, progress.nextSequences, Rx.target]
  · have first : (tryRecv setup channel consumer).1 =
        (receiveScan setup channel (scanOrder n (channel.consumer consumer).rx.lastHitRing)
          (channel.consumer consumer).rx).1 := rfl
    cases result : (tryRecv setup channel consumer).1 with
    | none =>
        rw [← first, result] at found
        exact fun producer => found producer (List.mem_rotate.mpr (List.mem_finRange producer))
    | some message =>
        have scanned := first.symm.trans result
        rw [scanned] at found
        refine ⟨found, ?_⟩
        simp [tryRecv, Channel.setConsumer, scanned]

/-- The release of a message in its turn moves the receiver and nothing else of a ring but the position. -/
theorem release_inTurn {message : Message n} (inTurn : (channel.consumer consumer).rx.inTurn setup message = true) :
    (release setup channel consumer message).log = channel.log ∧
      (∀ other, ((release setup channel consumer message).ring other).memory = (channel.ring other).memory ∧
        ((release setup channel consumer message).ring other).visibleProducerPos =
          (channel.ring other).visibleProducerPos) ∧
      ∃ flushed, ((release setup channel consumer message).consumer consumer).rx =
        {(channel.consumer consumer).rx.advance setup message with flushedPositions := flushed} := by
  have memory (other : Fin n) : ((channel.setPosition message.producerId consumer message.nextPosition).ring
      other).memory = (channel.ring other).memory := by
    rw [setPosition_ring]
  have visible (other : Fin n) : ((channel.setPosition message.producerId consumer message.nextPosition).ring
      other).visibleProducerPos = (channel.ring other).visibleProducerPos := by
    rw [setPosition_ring]
  unfold release
  rw [if_pos inTurn]
  dsimp only
  split
  · exact ⟨rfl, fun other => ⟨memory other, visible other⟩, _,
      by simp [Channel.setConsumer, Channel.setPosition, Channel.setRing]; rfl⟩
  · exact ⟨rfl, fun other => ⟨memory other, visible other⟩, _,
      by simp [Channel.setConsumer, Channel.setPosition, Channel.setRing]; rfl⟩

/-- The release of a wanted frame takes it. -/
theorem Reading.release (reading : Reading setup base channel consumer taken) (unwrapped : Unwrapped setup base)
    (wanted : Wanted base taken ((channel.consumer consumer).rx.target setup producer) producer frame)
    (lent : (channel.consumer consumer).lent producer = some (frameMessage producer frame)) :
    Reading setup base (release setup channel consumer (frameMessage producer frame)) consumer
      (Function.update taken producer (taken producer + 1)) := by
  obtain ⟨start, known, stop⟩ := reading.next_start unwrapped wanted.next
  obtain ⟨below, -⟩ := List.getElem?_eq_some_iff.mp wanted.next
  have sequence := wanted.sequence
  have inTurn : (channel.consumer consumer).rx.inTurn setup (frameMessage producer frame) = true := by
    unfold Rx.inTurn
    by_cases ordered : setup.order.ordered = true
    · rw [Rx.target, if_pos ordered] at sequence
      simp [frameMessage, sequence]
    · simp [ordered]
  obtain ⟨log, rings, flushed, moved⟩ := release_inTurn inTurn
  refine ⟨(release_safe reading.safe consumer lent).1, log.trans reading.log,
    fun other => (rings other).1.trans (reading.memory other), fun other => (rings other).2.trans (reading.visible other),
    fun other => ?_, fun other => ?_, fun other => ?_, ?_⟩
  · rw [moved, advance_readPositions]
    by_cases same : other = producer
    · subst same
      simp only [frameMessage, Function.update_self]
      exact stop
    · simp only [frameMessage, Function.update_of_ne same]
      exact reading.read other
  · rw [moved]
    have cached : ((channel.consumer consumer).rx.advance setup (frameMessage producer frame)).cachedVisiblePos =
        (channel.consumer consumer).rx.cachedVisiblePos := by
      unfold Rx.advance
      split <;> rfl
    rw [cached]
    exact reading.cached other
  · by_cases same : other = producer
    · subst same
      rw [Function.update_self, ← stop]
      exact ⟨below, wanted.visible⟩
    · rw [Function.update_of_ne same]
      exact reading.reached other
  · by_cases ordered : setup.order.ordered = true
    · obtain ⟨expected, within, counts⟩ := reading.passed ordered
      have entry := reading.entry unwrapped ordered wanted
      have committed := (reading.visible_iff unwrapped wanted.next).mp wanted.visible
      rw [if_pos ordered, moved]
      refine ⟨∑ producer, taken producer + 1, ?_, ?_, fun other => ?_⟩
      · simp only [Rx.advance, if_pos ordered, expected]
      · have more := congrArg List.length (drop_takeWhile within entry committed)
        simp only [List.length_drop, List.length_cons] at more
        omega
      · rw [length_ofOwner_take_succ entry other]
        by_cases same : other = producer
        · subst same
          rw [Function.update_self, if_pos rfl, ← counts other]
        · rw [Function.update_of_ne same, if_neg same, Nat.add_zero]
          exact counts other
    · have target := reading.target
      rw [if_neg ordered] at target ⊢
      rw [Rx.target, if_neg ordered, target] at sequence
      intro other
      rw [moved]
      simp only [Rx.advance, if_neg ordered, frameMessage, sequence]
      by_cases same : other = producer
      · rw [same, Function.update_self, Function.update_self]
      · rw [Function.update_of_ne same, Function.update_of_ne same]
        exact target other

theorem sum_update_succ (taken : Fin n → Nat) (producer : Fin n) :
    ∑ other, Function.update taken producer (taken producer + 1) other = ∑ other, taken other + 1 := by
  rw [← Finset.add_sum_erase _ _ (Finset.mem_univ producer), ← Finset.add_sum_erase Finset.univ taken
    (Finset.mem_univ producer), Function.update_self]
  have others : ∑ other ∈ Finset.univ.erase producer, Function.update taken producer (taken producer + 1) other =
      ∑ other ∈ Finset.univ.erase producer, taken other :=
    Finset.sum_congr rfl fun other member => Function.update_of_ne (Finset.ne_of_mem_erase member) _ _
  omega

/-- Nothing remains when nothing is wanted. -/
theorem Reading.remaining_nil (reading : Reading setup base channel consumer taken) (unwrapped : Unwrapped setup base)
    (none : ∀ producer frame,
      ¬ Wanted base taken ((channel.consumer consumer).rx.target setup producer) producer frame) :
    Remaining setup base taken [] := by
  unfold Remaining
  by_cases ordered : setup.order.ordered = true
  · obtain ⟨expected, within, counts⟩ := reading.passed ordered
    rw [if_pos ordered, drop_takeWhile_nil]
    · rfl
    · rintro ⟨producer, frame⟩ found
      by_contra committed
      have next := getElem?_ofOwner found
      rw [← counts producer] at next
      obtain ⟨below, entry⟩ := List.getElem?_eq_some_iff.mp found
      have numbered := unwrapped.safe.numbered
      rw [Numbered, if_pos ordered] at numbered
      have number := numbered.2 _ below
      rw [entry] at number
      refine none producer frame ⟨next, (reading.visible_iff unwrapped next).mpr (by simpa using committed), ?_⟩
      rw [Rx.target, if_pos ordered, expected]
      exact number
  · rw [if_neg ordered]
    intro producer
    rw [drop_takeWhile_nil]
    · rfl
    · rintro ⟨owner, frame⟩ found
      have member := List.mem_filter.mp (List.mem_of_getElem? found)
      obtain rfl : owner = producer := by simpa using member.2
      by_contra committed
      have next := (getElem?_filter base.log owner _ _).mp found
      obtain ⟨below, entry⟩ := List.getElem?_eq_some_iff.mp next
      have numbered := unwrapped.safe.numbered
      have target := reading.target
      rw [Numbered, if_neg ordered] at numbered
      rw [if_neg ordered] at target
      have number := numbered owner _ below
      refine none owner frame ⟨next, (reading.visible_iff unwrapped next).mpr (by simpa using committed), ?_⟩
      rw [Rx.target, if_neg ordered, target, ← number]
      exact congrArg ClaimedFrame.sequence entry.symm

/-- A wanted frame leads what remains. -/
theorem Reading.remaining_cons (reading : Reading setup base channel consumer taken) (unwrapped : Unwrapped setup base)
    (wanted : Wanted base taken ((channel.consumer consumer).rx.target setup producer) producer frame)
    {rest : List (Message n × List UInt8)}
    (remaining : Remaining setup base (Function.update taken producer (taken producer + 1)) rest) :
    Remaining setup base taken (base.item (producer, frame) :: rest) := by
  have committed := (reading.visible_iff unwrapped wanted.next).mp wanted.visible
  unfold Remaining at remaining ⊢
  by_cases ordered : setup.order.ordered = true
  · rw [if_pos ordered] at remaining ⊢
    rw [sum_update_succ] at remaining
    rw [drop_takeWhile (reading.passed ordered).2.1 (reading.entry unwrapped ordered wanted) committed, List.map_cons,
      remaining]
  · rw [if_neg ordered] at remaining ⊢
    intro other
    by_cases same : other = producer
    · subst same
      have found := (getElem?_filter base.log other _ _).mpr wanted.next
      rw [drop_takeWhile (reading.taken_le unwrapped other) found committed, List.map_cons, List.filter_cons,
        if_pos (by simp [Channel.item, frameMessage]), remaining other, Function.update_self]
    · rw [List.filter_cons, if_neg (by simp [Channel.item, frameMessage, Ne.symm same]), remaining other,
        Function.update_of_ne same]

/-- A wanted frame lends out its committed payload. -/
theorem Reading.payload (reading : Reading setup base channel consumer taken) (unwrapped : Unwrapped setup base)
    (wanted : Wanted base taken ((channel.consumer consumer).rx.target setup producer) producer frame) :
    (frameMessage producer frame, channel.payload setup (frameMessage producer frame)) =
      base.item (producer, frame) := by
  obtain ⟨-, known, -⟩ := reading.next_start unwrapped wanted.next
  have safe := unwrapped.safe.rings producer
  have intact : Intact setup (base.ring producer) frame := by
    refine safe.intact (unwrapped.room producer) frame known fun claimed open_ => .inl ?_
    have above := (safe.commits.inside _ (List.mem_map_of_mem open_)).1
    exact (wanted.visible.trans safe.visible.le).trans above
  simp [Channel.item, Channel.payload, frameMessage, reading.memory, intact.payload]

/-- Receives and releases move no position backwards. -/
theorem drain_forward (safe : Safe setup channel) (receives : Nat) :
    Forward channel (drain setup consumer receives channel).2 := by
  induction receives generalizing channel with
  | zero => exact .refl channel
  | succ receives ih =>
      obtain ⟨kept, forward⟩ := tryRecv_safe safe consumer
      have lends (message : Message n) (found : (tryRecv setup channel consumer).1 = some message) :
          ((tryRecv setup channel consumer).2.consumer consumer).lent message.producerId = some message := by
        have scanned : (receiveScan setup channel (scanOrder n (channel.consumer consumer).rx.lastHitRing)
            (channel.consumer consumer).rx).1 = some message := found
        simp [tryRecv, Channel.setConsumer, scanned]
      unfold drain
      generalize tryRecv setup channel consumer = result at kept forward lends ⊢
      obtain ⟨first, next⟩ := result
      cases first with
      | none => exact forward
      | some message =>
          obtain ⟨released, further⟩ := release_safe kept consumer (lends message rfl)
          exact (forward.trans further).trans (ih released)

theorem drain_reading (unwrapped : Unwrapped setup base) (fuel : Nat)
    (reading : Reading setup base channel consumer taken)
    (enough : base.log.length < fuel + ∑ producer, taken producer) :
    Remaining setup base taken (drain setup consumer fuel channel).1 ∧
      (tryRecv setup (drain setup consumer fuel channel).2 consumer).1 = none := by
  induction fuel generalizing channel taken with
  | zero =>
      have bound : ∑ producer, taken producer ≤ ∑ producer, (ofOwner base.log producer).length :=
        Finset.sum_le_sum fun producer _ => (reading.reached producer).1
      rw [sum_length_ofOwner] at bound
      omega
  | succ fuel ih =>
      obtain ⟨received, targets, found⟩ := reading.receive unwrapped
      unfold drain
      generalize tryRecv setup channel consumer = result at received targets found ⊢
      obtain ⟨first, next⟩ := result
      cases first with
      | none =>
          refine ⟨reading.remaining_nil unwrapped found, ?_⟩
          obtain ⟨-, -, again⟩ := received.receive unwrapped
          cases result : (tryRecv setup next consumer).1 with
          | none => rfl
          | some message =>
              rw [result] at again
              obtain ⟨⟨producer, frame, wanted, -⟩, -⟩ := again
              rw [targets producer] at wanted
              exact (found producer frame wanted).elim
      | some message =>
          obtain ⟨⟨producer, frame, wanted, rfl⟩, lent⟩ := found
          have wanted' := wanted
          rw [← targets producer] at wanted'
          have released := received.release unwrapped wanted' lent
          obtain ⟨remaining, ended⟩ := ih released (by rw [sum_update_succ]; omega)
          refine ⟨?_, ended⟩
          simp only
          rw [received.payload unwrapped wanted']
          exact reading.remaining_cons unwrapped wanted remaining

end Drain

/-- A new receiver has taken nothing. -/
theorem Reading.created (safe : Safe setup base) {consumer : Fin m} (rested : base.Rested consumer)
    (unread : base.Unread consumer) : Reading setup base (createRx base consumer) consumer fun _ => 0 := by
  have rx : ((createRx base consumer).consumer consumer).rx =
      {expectedSequence := base.consumerSequences consumer} := by
    simp [createRx, Channel.setRx, Channel.setConsumer]
  have published : base.consumerSequences consumer = 0 := (safe.consumers consumer).published unread
  refine ⟨(createRx_safe safe consumer rested unread).1, rfl, fun _ => rfl, fun _ => rfl, fun producer => ?_,
    fun producer => .inl ?_, fun producer => ⟨Nat.zero_le _, ?_⟩, ?_⟩
  · rw [rx, frameOffset, Circular.offset_zero]
  · rw [rx]
  · rw [frameOffset, Circular.offset_zero]
    exact Nat.zero_le _
  · rw [rx, published]
    split
    · exact ⟨0, rfl, Nat.zero_le _, fun producer => rfl⟩
    · exact fun producer => rfl

/-- In every run in which receivers are created anew before any progress, no published position moves backwards, and
a receiver created anew before any progress delivers exactly the committed messages. -/
theorem new_receiver_resumes (setup : Setup n m) {channel : Channel n m}
    (run : Run setup (fun channel event => event.Admitted channel) {} channel) :
    (∀ later, Run setup (fun channel event => event.Admitted channel) channel later → Forward channel later) ∧
      ∀ consumer, channel.Rested consumer → channel.Unread consumer → Resumes setup channel consumer := by
  have safe := (Safe.run (.start setup) run).1
  refine ⟨fun later more => (safe.run more).2, fun consumer rested unread => ?_⟩
  have unwrapped := Unwrapped.of_unread safe unread
  have created := Reading.created safe rested unread
  obtain ⟨fresh, forward⟩ := createRx_safe safe consumer rested unread
  obtain ⟨remaining, ended⟩ := drain_reading unwrapped (channel.log.length + 1) created (by simp)
  refine ⟨?_, ended, fun receives => forward.trans (drain_forward fresh receives)⟩
  -- nothing was released before
  have released : (channel.consumer consumer).released = [] := by
    refine List.eq_nil_iff_forall_not_mem.mpr fun entry member => ?_
    have moved := (safe.consumers consumer).released entry member
    rw [Channel.positions, unread entry.1] at moved
    exact lt_irrefl 0 moved
  have due (log : List (Fin n × ClaimedFrame)) : channel.due consumer log =
      (log.takeWhile channel.isCommitted).map channel.item := by
    simp [Channel.due, released, Channel.item]
  unfold Exactly
  unfold Remaining at remaining
  simp only [due]
  simpa using remaining

section Schedules

instance (channel : Channel n m) (consumer : Fin m) : Decidable (channel.Rested consumer) :=
  inferInstanceAs (Decidable (_ ∧ _))

instance (channel : Channel n m) (consumer : Fin m) : Decidable (channel.Unread consumer) :=
  inferInstanceAs (Decidable (∀ _, _))

instance (channel : Channel n m) : (event : Event n m) → Decidable (event.Legal channel)
  | .claim _ _ | .claimBatch _ _ _ | .tryRecv _ | .tryRecvRun _ _ | .flushProgress _ => isTrue trivial
  | .write _ _ _ _ => inferInstanceAs (Decidable (_ ∧ _ ∧ _))
  | .commit _ _ | .commitBatch _ _ => inferInstanceAs (Decidable (_ ∈ _))
  | .consume _ _ | .release _ _ => inferInstanceAs (Decidable (_ = _))
  | .createRx consumer => inferInstanceAs (Decidable (channel.Rested consumer))

instance (channel : Channel n m) : (event : Event n m) → Decidable (event.Admitted channel)
  | .claim _ _ | .write _ _ _ _ | .commit _ _ | .commitBatch _ _ | .tryRecv _ | .tryRecvRun _ _ | .consume _ _
  | .release _ _ | .flushProgress _ => isTrue trivial
  | .claimBatch _ _ _ => inferInstanceAs (Decidable (_ < _))
  | .createRx consumer => inferInstanceAs (Decidable (channel.Unread consumer))

/-- The calls of a list, checked one after the other. -/
def callAll (setup : Setup n m) (admitted : Channel n m → Event n m → Bool) :
    List (Event n m) → Channel n m → Option (Channel n m)
  | [], channel => some channel
  | event :: rest, channel =>
      if event.Legal channel ∧ admitted channel event = true then
        callAll setup admitted rest (channel.call setup event)
      else none

theorem run_of_callAll {admitted : Channel n m → Event n m → Bool} {events : List (Event n m)}
    {start middle last : Channel n m} {holds : Channel n m → Event n m → Prop}
    (sound : ∀ channel event, admitted channel event = true → holds channel event)
    (run : Run setup holds start middle) (calls : callAll setup admitted events middle = some last) :
    Run setup holds start last := by
  induction events generalizing middle with
  | nil =>
      obtain rfl := Option.some.inj calls
      exact run
  | cons event rest ih =>
      unfold callAll at calls
      split at calls
      · rename_i legal
        exact ih (.tail event run legal.1 (sound _ _ legal.2)) calls
      · cases calls

theorem page_valid : SharedHybridMpsc.isValidRingCapacity 4096 4096 = true := by decide

theorem page_lowWindowFits : sequenceLowWindowFits (if Order.Fifo.ordered then 1 else 1) 4096 = true := by decide

theorem page_aligned : kFrameAlign ∣ 4096 := by decide

/-- One ring of one page, and one consumer. -/
def smallSetup : Setup 1 1 where
  order := .Fifo
  capacity := 4096
  publicationWindow := 0
  pageSize := 4096
  producers := Nat.one_pos
  consumers := Nat.one_pos
  validCapacity := page_valid
  lowWindowFits := page_lowWindowFits
  pageAligned := page_aligned

/-- The producer publishes one empty message after the other. -/
def publish (sequence : Nat) : List (Event 1 1) :=
  [.claim 0 0, .commit 0 ⟨8 * sequence, 0, metaForSequence sequence false, sequence, 0⟩]

def receiveAndRelease (sequence : Nat) : List (Event 1 1) :=
  [.tryRecv 0, .release 0 ⟨0, 8 * sequence, 8 * sequence + 8, frameMeta sequence false, sequence, 8 * sequence + 8,
    0, 0⟩]

theorem new_receiver_resumes_unread : ∃ channel, channel.log.length = 2 ∧ Resumes smallSetup channel 0 := by
  have calls : ((callAll smallSetup (fun channel event => decide (event.Admitted channel)) (publish 0 ++ publish 1)
      {}).any fun channel => decide (channel.Rested 0 ∧ channel.Unread 0 ∧ channel.log.length = 2)) = true := by decide
  obtain ⟨channel, found, facts⟩ := (Option.any_eq_true _ _).mp calls
  obtain ⟨rested, unread, length⟩ := of_decide_eq_true facts
  have run := run_of_callAll (fun _ _ => of_decide_eq_true) (.refl {}) found
  exact ⟨channel, length, (new_receiver_resumes smallSetup run).2 0 rested unread⟩

/-- After two releases a new receiver delivers both messages again, and its first release moves the published
position from 16 back to 8. -/
theorem new_receiver_starts_over : ∃ channel, Run smallSetup (fun _ _ => True) {} channel ∧
    channel.Rested 0 ∧ ¬ Resumes smallSetup channel 0 ∧
    (drain smallSetup 0 3 (createRx channel 0)).1.map (fun item => item.1.sequence) = [0, 1] ∧
    channel.positions 0 0 = 16 ∧ (drain smallSetup 0 1 (createRx channel 0)).2.positions 0 0 = 8 := by
  have calls : ((callAll smallSetup (fun _ _ => true) (publish 0 ++ receiveAndRelease 0 ++ publish 1 ++
      receiveAndRelease 1) {}).any fun channel => decide (channel.Rested 0 ∧
        (drain smallSetup 0 3 (createRx channel 0)).1.map (fun item => item.1.sequence) = [0, 1] ∧
        channel.positions 0 0 = 16 ∧ (drain smallSetup 0 1 (createRx channel 0)).2.positions 0 0 = 8)) = true := by
    decide
  obtain ⟨channel, found, facts⟩ := (Option.any_eq_true _ _).mp calls
  obtain ⟨rested, again, before, after⟩ := of_decide_eq_true facts
  refine ⟨channel, run_of_callAll (fun _ _ _ => trivial) (.refl {}) found, rested, fun resumes => ?_, again, before,
    after⟩
  have forward := resumes.forward 1 0 0
  omega

end Schedules

end Salias.HybridMpsc
