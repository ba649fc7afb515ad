import Salias.HybridMpsc.Channel

/-
Every run of calls keeps the rings sound: the frames follow each other, the waiting spans cover the commits beyond
the published position, and a ring that has not wrapped holds every committed frame.
-/

namespace Salias.HybridMpsc

open Salias.Frame
open SharedHybridMpsc (CommitSpan Claim BatchClaim Claimed ClaimedFrame Message FlowError Chained CommitPrefix
  claimedFrames hasCapacity batchFit frameOffset frameOffset_snoc mem_claimedFrames length_claimedFrames claimMeta
  hasExpiry_claimMeta)

variable {n m : Nat}

/-- The claimed frames of one ring. -/
def Channel.frames (channel : Channel n m) (producer : Fin n) : List ClaimedFrame :=
  channel.log.filterMap fun entry => if entry.1 = producer then some entry.2 else none

/-- The calls of the endpoints. -/
inductive Event (n m : Nat) where
  | claim (producer : Fin n) (payloadLen : UInt32)
  | claimBatch (producer : Fin n) (payloadLen maxFrames : UInt32)
  | write (producer : Fin n) (claimed : Claimed) (position : Nat) (data : List UInt8)
  | commit (producer : Fin n) (claim : Claim)
  | commitBatch (producer : Fin n) (batch : BatchClaim)
  | tryRecv (consumer : Fin m)
  | tryRecvRun (consumer : Fin m) (room : UInt32)
  | consume (consumer : Fin m) (message : Message n)
  | release (consumer : Fin m) (message : Message n)
  | flushProgress (consumer : Fin m)
  | createRx (consumer : Fin m)

def Channel.call (setup : Setup n m) (channel : Channel n m) : Event n m → Channel n m
  | .claim producer payloadLen => (claim setup channel producer payloadLen).2
  | .claimBatch producer payloadLen maxFrames => (claimBatch setup channel producer payloadLen maxFrames).2
  | .write producer _ position data => writePayload setup channel producer position data
  | .commit producer reservation => commit setup channel producer reservation
  | .commitBatch producer batch => commitBatch setup channel producer batch
  | .tryRecv consumer => (tryRecv setup channel consumer).2
  | .tryRecvRun consumer room => (tryRecvRun setup channel consumer room).2
  | .consume consumer message => consume setup channel consumer message
  | .release consumer message => release setup channel consumer message
  | .flushProgress consumer => flushProgress setup channel consumer
  | .createRx consumer => createRx channel consumer

/-- The consumer borrows no message, and its progress is flushed. -/
def Channel.Rested (channel : Channel n m) (consumer : Fin m) : Prop :=
  (∀ producer, (channel.consumer consumer).lent producer = none) ∧
    ∀ producer, (channel.consumer consumer).rx.readPositions producer =
      (channel.consumer consumer).rx.flushedPositions producer

/-- A producer writes into its open claims and commits them, a consumer gives back what it borrows, and a receiver
is created anew when its predecessor is done. -/
def Event.Legal (channel : Channel n m) : Event n m → Prop
  | .write producer claimed position data => claimed ∈ (channel.ring producer).claims ∧
      claimed.span.1 ≤ position ∧ position + data.length ≤ claimed.span.1 + claimed.span.2
  | .commit producer reservation => .single reservation ∈ (channel.ring producer).claims
  | .commitBatch producer batch => .batch batch ∈ (channel.ring producer).claims
  | .consume consumer message => (channel.consumer consumer).lent message.producerId = some message
  | .release consumer message => (channel.consumer consumer).lent message.producerId = some message
  | .createRx consumer => channel.Rested consumer
  | _ => True

/-- The consumer has published no progress. -/
def Channel.Unread (channel : Channel n m) (consumer : Fin m) : Prop :=
  ∀ producer, (channel.ring producer).consumerPositions consumer = 0

/-- A receiver is created anew before any progress, and the frames of a batch are smaller than 4 GiB. -/
def Event.Admitted (channel : Channel n m) : Event n m → Prop
  | .createRx consumer => channel.Unread consumer
  | .claimBatch _ payloadLen _ => frameLen payloadLen.toNat false < 2 ^ 32
  | _ => True

/-- The calls of a run, the first one first. -/
inductive Run (setup : Setup n m) (admitted : Channel n m → Event n m → Prop) :
    Channel n m → Channel n m → Prop where
  | refl (channel : Channel n m) : Run setup admitted channel channel
  | tail {start channel : Channel n m} (event : Event n m) (run : Run setup admitted start channel)
      (legal : event.Legal channel) (admits : admitted channel event) :
      Run setup admitted start (channel.call setup event)

section Frames

variable {setup : Setup n m} {channel : Channel n m} {producer other : Fin n}

theorem frames_append (log : List (Fin n × ClaimedFrame)) (frames : List ClaimedFrame) (producer other : Fin n) :
    (log ++ frames.map fun frame => (producer, frame)).filterMap
        (fun entry => if entry.1 = other then some entry.2 else none) =
      log.filterMap (fun entry => if entry.1 = other then some entry.2 else none) ++
        if producer = other then frames else [] := by
  rw [List.filterMap_append, List.filterMap_map]
  congr 1
  by_cases same : producer = other
  · simp [same]
  · simp [same]

theorem mem_frames {frame : ClaimedFrame} : frame ∈ channel.frames producer ↔ (producer, frame) ∈ channel.log := by
  simp only [Channel.frames, List.mem_filterMap]
  constructor
  · rintro ⟨⟨owner, entry⟩, member, found⟩
    split at found
    · rename_i same
      obtain rfl : owner = producer := same
      obtain rfl := Option.some.inj found
      exact member
    · cases found
  · exact fun member => ⟨_, member, by simp⟩

end Frames

/-- A committed frame lies in the memory, and the history knows its payload. -/
structure Intact (setup : Setup n m) (ring : ProducerRing m) (frame : ClaimedFrame) : Prop where
  header : Circular.loadWord setup.capacity ring.memory frame.start =
    packHeader frame.payloadLen (frameMeta frame.sequence false)
  payload : ring.committed frame.start =
    some (Circular.read setup.capacity ring.memory (frame.start + kHeaderSize) frame.payloadLen)

/-- The bytes of the open claims. -/
def ProducerRing.openClaims (ring : ProducerRing m) : List CommitSpan :=
  ring.claims.map fun claimed => ⟨claimed.start, claimed.stop⟩

/-- The frames of a claim fit in its header words. -/
def PlainClaim : Claimed → Prop
  | .single claim => claim.word = metaForSequence claim.sequence false
  | .batch batch => batch.hasExpiry = false ∧ frameLen batch.payloadLen false < 2 ^ 32

/-- The invariant of a ring. The memory is described as long as the ring has not wrapped. -/
structure RingSafe (setup : Setup n m) (frames : List ClaimedFrame) (ring : ProducerRing m) : Prop where
  chained : Chained frames
  position : ring.producerPos = frameOffset frames frames.length
  written : ring.totalWritten = frames.length
  valid : ∀ frame ∈ frames, frame.Valid setup.capacity ∧ frame.hasExpiry = false
  visible : ring.visibleProducerPos = ring.publishedPos
  commits : CommitPrefix ring.publishedPos ring.producerPos ring.pendingCommits ring.openClaims
  formed : ∀ claimed ∈ ring.claims, claimed.Formed ∧ PlainClaim claimed
  backed : ∀ claimed ∈ ring.claims, ∀ frame ∈ claimed.frames, frame ∈ frames ∧ ring.committed frame.start = none
  beyond : ∀ position, ring.producerPos ≤ position → ring.committed position = none
  intact : ring.producerPos ≤ setup.capacity → ∀ frame ∈ frames,
    (∀ claimed ∈ ring.claims, frame.Clear claimed) → Intact setup ring frame
  cached : ∀ consumer, ring.cachedConsumerPos ≤ ring.consumerPositions consumer
  room : ∀ consumer, ring.producerPos ≤ ring.consumerPositions consumer + setup.capacity

section Memory

variable {setup : Setup n m} {frames stored : List ClaimedFrame} {ring : ProducerRing m} {frame other : ClaimedFrame}

theorem Setup.eight_le_capacity (setup : Setup n m) : 8 ≤ setup.capacity := by
  have valid := setup.validCapacity
  simp only [SharedHybridMpsc.isValidRingCapacity, Bool.and_eq_true, bne_iff_ne, ne_eq, decide_eq_true_eq,
    beq_iff_eq] at valid
  have divides : 8 ∣ setup.capacity := setup.pageAligned.trans (Nat.dvd_of_mod_eq_zero valid.2)
  exact Nat.le_of_dvd (Nat.pos_of_ne_zero valid.1.1.1.1) divides

/-- The header of one frame leaves the frames that lie apart. -/
theorem Intact.storeHeader (intact : Intact setup ring frame) (plain : frame.hasExpiry = false)
    (apart : frame.stop ≤ other.start ∨ other.stop ≤ frame.start) (below : frame.stop ≤ setup.capacity)
    (within : other.stop ≤ setup.capacity) (word : Nat) :
    Intact setup (storeHeader setup other.start other.payloadLen word ring) frame := by
  have header := frameLen_ge other.payloadLen other.hasExpiry
  have own := frameLen_ge frame.payloadLen false
  have inside := payload_inside frame.payloadLen false
  have length : frame.stop = frame.start + frameLen frame.payloadLen false := by
    rw [ClaimedFrame.stop, ClaimedFrame.length, plain]
  have size : other.stop = other.start + frameLen other.payloadLen other.hasExpiry := rfl
  have ranges : Circular.Apart setup.capacity other.start 8 frame.start (frameLen frame.payloadLen false) := by
    rcases apart with before | after
    · exact (Circular.Apart.of_window (by omega) (by omega)).symm
    · exact .of_window (by omega) (by omega)
  have same (position length : Nat) (above : frame.start ≤ position) (under : position + length ≤ frame.stop) :
      Circular.read setup.capacity (Circular.write setup.capacity ring.memory other.start
        (Circular.encode 8 (packHeader other.payloadLen word))) position length =
        Circular.read setup.capacity ring.memory position length := by
    refine Circular.read_write_apart _ _ _ ?_
    rw [Circular.length_encode]
    exact ranges.mono le_rfl le_rfl above (by omega)
  have different : frame.start ≠ other.start := by
    rcases apart with before | after
    · have := frame.start_lt_stop
      omega
    · have := other.start_lt_stop
      omega
  simp only [payloadOffset, Bool.false_eq_true, if_false] at inside
  constructor
  · rw [HybridMpsc.storeHeader, Circular.loadWord, Circular.storeWord, same _ _ le_rfl (by omega)]
    exact intact.header
  · simp only [HybridMpsc.storeHeader, Circular.storeWord, Function.update_of_ne different]
    rw [same _ _ (by omega) (by omega)]
    exact intact.payload

/-- A committed header completes its frame. -/
theorem intact_storeHeader (valid : frame.Valid setup.capacity) :
    Intact setup (storeHeader setup frame.start frame.payloadLen (frameMeta frame.sequence false) ring) frame := by
  constructor
  · exact Circular.loadWord_storeWord _ _ _ setup.eight_le_capacity
      (packHeader_lt valid.payloadLen (frameMeta_lt _ _))
  · simp [storeHeader]

/-- The headers of several frames. -/
def storeHeaders (setup : Setup n m) (stored : List ClaimedFrame) (ring : ProducerRing m) : ProducerRing m :=
  stored.foldl (fun ring frame =>
    storeHeader setup frame.start frame.payloadLen (frameMeta frame.sequence false) ring) ring

theorem storeHeaders_intact (chained : Chained frames)
    (valid : ∀ frame ∈ frames, frame.Valid setup.capacity ∧ frame.hasExpiry = false)
    (room : frameOffset frames frames.length ≤ setup.capacity) (known : ∀ frame ∈ stored, frame ∈ frames)
    (member : frame ∈ frames) (either : frame ∈ stored ∨ Intact setup ring frame) :
    Intact setup (storeHeaders setup stored ring) frame := by
  induction stored generalizing ring with
  | nil => exact either.resolve_left (by simp)
  | cons first rest ih =>
      have present := known first (by simp)
      refine ih (fun other later => known other (by simp [later])) ?_
      rcases chained.apart member present with rfl | apart
      · exact .inr (intact_storeHeader (valid frame member).1)
      · rcases either with listed | intact
        · rcases List.mem_cons.mp listed with rfl | later
          · exact .inr (intact_storeHeader (valid frame member).1)
          · exact .inl later
        · exact .inr (intact.storeHeader (valid frame member).2 apart ((chained.stop_le member).trans room)
            ((chained.stop_le present).trans room) _)

/-- The headers of several frames change the memory and the history of these frames alone. -/
theorem storeHeaders_same (setup : Setup n m) (stored : List ClaimedFrame) (ring : ProducerRing m) :
    ∃ memory committed, storeHeaders setup stored ring = {ring with memory := memory, committed := committed} ∧
      ∀ position, (∀ frame ∈ stored, frame.start ≠ position) → committed position = ring.committed position := by
  induction stored generalizing ring with
  | nil => exact ⟨ring.memory, ring.committed, rfl, fun _ _ => rfl⟩
  | cons first rest ih =>
      obtain ⟨memory, committed, shape, kept⟩ := ih (storeHeader setup first.start first.payloadLen
        (frameMeta first.sequence false) ring)
      refine ⟨memory, committed, shape, fun position apart => ?_⟩
      rw [kept position fun frame later => apart frame (by simp [later])]
      exact Function.update_of_ne (apart first (by simp)).symm _ _

end Memory

section Rings

variable {setup : Setup n m} {frames : List ClaimedFrame} {ring : ProducerRing m}

theorem RingSafe.start (setup : Setup n m) : RingSafe setup [] ({} : ProducerRing m) where
  chained _ := nofun
  position := rfl
  written := rfl
  valid := nofun
  visible := rfl
  commits := .empty 0
  formed := nofun
  backed := nofun
  beyond _ _ := rfl
  intact _ := nofun
  cached _ := le_rfl
  room _ := Nat.zero_le _

/-- A claim takes the bytes behind the tail. -/
theorem RingSafe.allocate (safe : RingSafe setup frames ring) {need count payloadLen sequence : Nat}
    {claimed : Claimed} (size : need = frameLen payloadLen false) (some : count ≠ 0) (small : payloadLen < 2 ^ 32)
    (fits : need ≤ setup.capacity) (formed : claimed.Formed) (plain : PlainClaim claimed)
    (start : claimed.start = ring.producerPos) (length : claimed.length = need * count)
    (claims : claimed.frames = claimedFrames ring.producerPos need count sequence payloadLen false 0)
    (room : ∀ consumer, ring.producerPos + need * count ≤ ring.consumerPositions consumer + setup.capacity) :
    RingSafe setup (frames ++ claimedFrames ring.producerPos need count sequence payloadLen false 0)
      {ring with
        producerPos := ring.producerPos + need * count
        totalWritten := ring.totalWritten + count
        claims := ring.claims ++ [claimed]} := by
  have positive : 0 < need * count := Nat.mul_pos (size ▸ frameLen_pos _ _) (Nat.pos_of_ne_zero some)
  obtain ⟨chained, stop⟩ := safe.chained.claim count sequence 0 safe.position size
  have fresh : ∀ frame ∈ claimedFrames ring.producerPos need count sequence payloadLen false 0,
      ring.producerPos ≤ frame.start := by
    intro frame member
    obtain ⟨index, -, rfl⟩ := mem_claimedFrames.mp member
    exact Nat.le_add_right _ _
  have stops : claimed.stop = ring.producerPos + need * count := by rw [Claimed.stop, start, length]
  refine ⟨chained, ?_, ?_, fun frame member => ?_, safe.visible, ?_, ?_, ?_, ?_, ?_, safe.cached, room⟩
  · rw [List.length_append, length_claimedFrames, stop]
  · rw [List.length_append, length_claimedFrames, safe.written]
  · rcases List.mem_append.mp member with old | new
    · exact safe.valid frame old
    · obtain ⟨index, -, rfl⟩ := mem_claimedFrames.mp new
      exact ⟨⟨small, by norm_num, size ▸ fits⟩, rfl⟩
  · have spans := safe.commits.claim (Nat.lt_add_of_pos_right positive)
    rw [ProducerRing.openClaims] at spans
    simpa [ProducerRing.openClaims, start, stops] using spans
  · intro other member
    rcases List.mem_append.mp member with old | new
    · exact safe.formed other old
    · exact List.mem_singleton.mp new ▸ ⟨formed, plain⟩
  · intro other member frame inside
    rcases List.mem_append.mp member with old | new
    · obtain ⟨known, uncommitted⟩ := safe.backed other old frame inside
      exact ⟨List.mem_append_left _ known, uncommitted⟩
    · rw [List.mem_singleton.mp new, claims] at inside
      exact ⟨List.mem_append_right _ inside, safe.beyond _ (fresh frame inside)⟩
  · exact fun position past => safe.beyond position (by simp only at past; omega)
  · intro within frame member clear
    simp only at within
    rcases List.mem_append.mp member with old | new
    · have kept := safe.intact (by omega) frame old fun other open_ => clear other (List.mem_append_left _ open_)
      exact ⟨kept.header, kept.payload⟩
    · -- a new frame belongs to the open claim
      have outside := clear claimed (by simp)
      have inside := formed.inside (claims ▸ new)
      have proper := frame.start_lt_stop
      rcases outside with before | after <;> omega

/-- The slowest consumer holds the cached position. -/
theorem RingSafe.cache (safe : RingSafe setup frames ring) {minimum count : Nat}
    (least : ∀ consumer, minimum ≤ ring.consumerPositions consumer) :
    RingSafe setup frames {ring with cachedConsumerPos := minimum, backpressureCount := count} :=
  ⟨safe.chained, safe.position, safe.written, safe.valid, safe.visible, safe.commits, safe.formed, safe.backed,
    safe.beyond, fun within frame member clear =>
      let kept := safe.intact within frame member clear
      ⟨kept.header, kept.payload⟩, least, safe.room⟩

/-- A consumer that moves forward gives room. -/
theorem RingSafe.progress (safe : RingSafe setup frames ring) {consumer : Fin m} {position : Nat}
    (forward : ring.consumerPositions consumer ≤ position) :
    RingSafe setup frames
      {ring with consumerPositions := Function.update ring.consumerPositions consumer position} := by
  have grows : ∀ other, ring.consumerPositions other ≤
      Function.update ring.consumerPositions consumer position other := by
    intro other
    by_cases same : other = consumer
    · subst same
      simpa using forward
    · simp [Function.update_of_ne same]
  exact ⟨safe.chained, safe.position, safe.written, safe.valid, safe.visible, safe.commits, safe.formed, safe.backed,
    safe.beyond, fun within frame member clear =>
      let kept := safe.intact within frame member clear
      ⟨kept.header, kept.payload⟩,
    fun other => (safe.cached other).trans (grows other),
    fun other => (safe.room other).trans (Nat.add_le_add_right (grows other) _)⟩

/-- A write into an open claim leaves the committed frames. -/
theorem RingSafe.write (safe : RingSafe setup frames ring) {claimed : Claimed} (member : claimed ∈ ring.claims)
    {position : Nat} {data : List UInt8} (above : claimed.start ≤ position)
    (below : position + data.length ≤ claimed.stop) :
    RingSafe setup frames {ring with memory := Circular.write setup.capacity ring.memory position data} := by
  refine ⟨safe.chained, safe.position, safe.written, safe.valid, safe.visible, safe.commits, safe.formed, safe.backed,
    safe.beyond, fun within frame known clear => ?_, safe.cached, safe.room⟩
  have kept := safe.intact within frame known clear
  have outside := clear claimed member
  have tail := (safe.commits.inside _ (List.mem_map_of_mem member)).2.2
  have stop := safe.chained.stop_le known
  rw [← safe.position] at stop
  simp only at within tail
  have header := frameLen_ge frame.payloadLen false
  have inside := payload_inside frame.payloadLen false
  simp only [payloadOffset, Bool.false_eq_true, if_false] at inside
  have length : frame.stop = frame.start + frameLen frame.payloadLen false := by
    rw [ClaimedFrame.stop, ClaimedFrame.length, (safe.valid frame known).2]
  have same (start size : Nat) (from_ : frame.start ≤ start) (under : start + size ≤ frame.stop) :
      Circular.read setup.capacity (Circular.write setup.capacity ring.memory position data) start size =
        Circular.read setup.capacity ring.memory start size := by
    refine Circular.read_write_apart _ _ _ ?_
    rcases outside with before | after
    · exact (Circular.Apart.of_window (by omega) (by omega)).symm
    · exact .of_window (by omega) (by omega)
  constructor
  · simp only [Circular.loadWord]
    rw [same _ _ le_rfl (by omega)]
    exact kept.header
  · simp only
    rw [same _ _ (by omega) (by omega)]
    exact kept.payload

/-- The commit of an open claim. -/
theorem RingSafe.commit (safe : RingSafe setup frames ring) {claimed : Claimed} (member : claimed ∈ ring.claims) :
    RingSafe setup frames
      (publishContiguous claimed.start claimed.stop (storeHeaders setup claimed.frames ring)) := by
  obtain ⟨memory, committed, shape, kept⟩ := storeHeaders_same setup claimed.frames ring
  obtain ⟨formed, -⟩ := safe.formed claimed member
  have span : (⟨claimed.start, claimed.stop⟩ : CommitSpan) ∈ ring.openClaims := List.mem_map_of_mem member
  have closed : ((ring.claims.filter fun other => other.start != claimed.start).map fun other =>
      (⟨other.start, other.stop⟩ : CommitSpan)) = CommitPrefix.without ring.openClaims claimed.start := by
    simp [CommitPrefix.without, ProducerRing.openClaims, List.filter_map, Function.comp_def]
  -- an open claim that stays open lies apart
  have distinct : ∀ other ∈ ring.claims, other.start ≠ claimed.start →
      other.stop ≤ claimed.start ∨ claimed.stop ≤ other.start := by
    intro other present different
    rcases safe.commits.apart (List.mem_map_of_mem present) span with equal | apart
    · exact absurd (congrArg CommitSpan.start equal) different
    · exact apart
  have untouched : ∀ other ∈ ring.claims, other.start ≠ claimed.start → ∀ frame ∈ other.frames,
      committed frame.start = ring.committed frame.start := by
    intro other present different frame inside
    refine kept _ fun own stored same => ?_
    have bounds := formed.inside stored
    have others := (safe.formed other present).1.inside inside
    have proper := own.start_lt_stop
    have whole := frame.start_lt_stop
    rcases distinct other present different with before | after <;> omega
  have within := (safe.commits.inside _ span).2.2
  simp only at within
  have base (published visible : Nat) (pending : List CommitSpan) (same : visible = published)
      (commits : CommitPrefix published ring.producerPos pending
        (CommitPrefix.without ring.openClaims claimed.start)) :
      RingSafe setup frames
        {ring with
          memory := memory
          committed := committed
          claims := ring.claims.filter fun other => other.start != claimed.start
          pendingCommits := pending
          publishedPos := published
          visibleProducerPos := visible} := by
    refine ⟨safe.chained, safe.position, safe.written, safe.valid, same, ?_, fun other present => ?_,
      fun other present frame inside => ?_, fun position past => ?_, fun room frame known clear => ?_, safe.cached,
      safe.room⟩
    · rw [ProducerRing.openClaims, closed]
      exact commits
    · exact safe.formed other (List.mem_of_mem_filter present)
    · obtain ⟨present, different⟩ := List.mem_filter.mp present
      obtain ⟨known, uncommitted⟩ := safe.backed other present frame inside
      exact ⟨known, (untouched other present (by simpa using different) frame inside).trans uncommitted⟩
    · refine (kept _ fun own stored same => ?_).trans (safe.beyond position past)
      have bounds := formed.inside stored
      have proper := own.start_lt_stop
      simp only at past
      omega
    · simp only at room
      have either : frame ∈ claimed.frames ∨ Intact setup ring frame := by
        by_cases clears : frame.Clear claimed
        · refine .inr (safe.intact room frame known fun other present => ?_)
          by_cases same : other.start = claimed.start
          · have equal := safe.commits.eq_of_start span (List.mem_map_of_mem present) same
            have stop : other.stop = claimed.stop := congrArg CommitSpan.stop equal
            rw [ClaimedFrame.Clear, same, stop]
            exact clears
          · exact clear other (List.mem_filter.mpr ⟨present, by simpa using same⟩)
        · exact .inl (formed.mem_frames safe.chained (fun own stored => (safe.backed claimed member own stored).1)
            known clears)
      have intact := storeHeaders_intact safe.chained safe.valid (safe.position ▸ room)
        (fun own stored => (safe.backed claimed member own stored).1) known either
      rw [shape] at intact
      exact ⟨intact.header, intact.payload⟩
  rw [shape]
  unfold publishContiguous
  by_cases first : claimed.start = ring.publishedPos
  · rw [if_pos first]
    exact base _ _ _ rfl (safe.commits.commit span first)
  · have above := (safe.commits.inside _ span).1
    have later : ring.publishedPos < claimed.start := lt_of_le_of_ne above (Ne.symm first)
    rw [if_neg first, if_pos later]
    exact base _ _ _ safe.visible (safe.commits.defer span later)

end Rings

/-- The frames of the ordered channel carry the next sequences of the channel, the others those of their ring. -/
def Numbered (setup : Setup n m) (channel : Channel n m) : Prop :=
  if setup.order.ordered then
    channel.globalSeq = channel.log.length ∧
      ∀ index (below : index < channel.log.length), channel.log[index].2.sequence = index
  else ∀ producer index (below : index < (channel.frames producer).length),
    (channel.frames producer)[index].sequence = index

/-- The invariant of a consumer, with its published positions and its published sequence. -/
structure ConsumerSafe (positions : Fin n → Nat) (published : Nat) (consumer : Consumer n) : Prop where
  flushed : ∀ producer, consumer.rx.flushedPositions producer = positions producer
  behind : ∀ producer, positions producer ≤ consumer.rx.readPositions producer
  lent : ∀ producer message, consumer.lent producer = some message → message.producerId = producer ∧
    message.position = consumer.rx.readPositions producer ∧ message.position < message.nextPosition
  unflushed : ∀ entry ∈ consumer.unflushed, 0 < consumer.rx.readPositions entry.1
  released : ∀ entry ∈ consumer.released, 0 < positions entry.1
  expected : (∀ producer, consumer.rx.readPositions producer = 0) → consumer.rx.expectedSequence = 0
  published : (∀ producer, positions producer = 0) → published = 0

/-- The positions that a consumer has published. -/
def Channel.positions (channel : Channel n m) (consumer : Fin m) (producer : Fin n) : Nat :=
  (channel.ring producer).consumerPositions consumer

structure Safe (setup : Setup n m) (channel : Channel n m) : Prop where
  rings : ∀ producer, RingSafe setup (channel.frames producer) (channel.ring producer)
  numbered : Numbered setup channel
  consumers : ∀ consumer, ConsumerSafe (channel.positions consumer) (channel.consumerSequences consumer)
    (channel.consumer consumer)

/-- No published position moves backwards. -/
def Forward (before after : Channel n m) : Prop :=
  ∀ consumer producer, before.positions consumer producer ≤ after.positions consumer producer

section Transmit

variable {setup : Setup n m} {channel : Channel n m} {producer : Fin n}

theorem Setup.effectiveCapacity_le (setup : Setup n m) : setup.effectiveCapacity ≤ setup.capacity := by
  unfold Setup.effectiveCapacity
  split
  · exact le_rfl
  · split <;> omega

theorem foldl_min_le {α : Type} (position : α → Nat) (items : List α) (start : Nat) :
    items.foldl (fun minimum item => min minimum (position item)) start ≤ start ∧
      ∀ item ∈ items, items.foldl (fun minimum item => min minimum (position item)) start ≤ position item := by
  induction items generalizing start with
  | nil => exact ⟨le_rfl, nofun⟩
  | cons first rest ih =>
      obtain ⟨low, each⟩ := ih (min start (position first))
      refine ⟨low.trans (min_le_left _ _), fun item member => ?_⟩
      rcases List.mem_cons.mp member with rfl | later
      · exact low.trans (min_le_right _ _)
      · exact each item later

theorem minimumConsumerPosition_le (setup : Setup n m) (ring : ProducerRing m) (consumer : Fin m) :
    minimumConsumerPosition setup ring ≤ ring.consumerPositions consumer :=
  (foldl_min_le ring.consumerPositions _ _).2 consumer (List.mem_finRange consumer)

/-- A change of one ring that keeps its frames and the published positions. -/
theorem Safe.setRing (safe : Safe setup channel) {change : ProducerRing m → ProducerRing m}
    (keeps : RingSafe setup (channel.frames producer) (change (channel.ring producer)))
    (positions : (change (channel.ring producer)).consumerPositions = (channel.ring producer).consumerPositions) :
    Safe setup (channel.setRing producer change) ∧ Forward channel (channel.setRing producer change) := by
  have same : (channel.setRing producer change).positions = channel.positions := by
    funext consumer other
    by_cases equal : other = producer
    · subst equal
      simp [Channel.positions, Channel.setRing, positions]
    · simp [Channel.positions, Channel.setRing, Function.update_of_ne equal]
  refine ⟨⟨fun other => ?_, safe.numbered, fun consumer => ?_⟩, fun consumer other => (congrFun₂ same consumer other).ge⟩
  · change RingSafe setup (channel.frames other) _
    by_cases equal : other = producer
    · subst equal
      simpa only [Channel.setRing, Function.update_self] using keeps
    · simpa only [Channel.setRing, Function.update_of_ne equal] using safe.rings other
  · rw [same]
    exact safe.consumers consumer

/-- What a call that claims frames does when it is granted. -/
structure Granted (setup : Setup n m) (channel : Channel n m) (producer : Fin n) (payloadLen : Nat)
    (after : Channel n m) (cached count : Nat) (claim : Nat → Claimed) : Prop where
  least : ∀ consumer, cached ≤ channel.positions consumer producer
  some : count ≠ 0
  fits : frameLen payloadLen false ≤ setup.capacity
  room : (channel.ring producer).producerPos + frameLen payloadLen false * count ≤ cached + setup.capacity
  formed : ∀ sequence, (claim sequence).Formed ∧ PlainClaim (claim sequence)
  start : ∀ sequence, (claim sequence).start = (channel.ring producer).producerPos
  length : ∀ sequence, (claim sequence).length = frameLen payloadLen false * count
  frames : ∀ sequence, (claim sequence).frames = claimedFrames (channel.ring producer).producerPos
    (frameLen payloadLen false) count sequence payloadLen false 0
  result : after = (channel.setRing producer fun ring => {ring with cachedConsumerPos := cached}).allocate setup
    producer (frameLen payloadLen false) count payloadLen claim

theorem setRing_cached (channel : Channel n m) (producer : Fin n) :
    (channel.setRing producer fun ring => {ring with cachedConsumerPos := (channel.ring producer).cachedConsumerPos}) =
      channel := by
  simp [Channel.setRing, Function.update_eq_self]

theorem hasCapacity_le {capacity tail head need : Nat} (room : hasCapacity capacity tail head need = true) :
    tail + need ≤ head + capacity := by
  simp only [hasCapacity, Bool.and_eq_true, decide_eq_true_eq] at room
  omega

theorem batchFit_le {capacity tail head need maxFrames : Nat}
    (some : batchFit capacity tail head need maxFrames ≠ 0) :
    tail + need * batchFit capacity tail head need maxFrames ≤ head + capacity := by
  unfold batchFit at some ⊢
  split at some
  · exact absurd rfl some
  · rename_i proper
    split at some
    · exact absurd rfl some
    · rename_i inside
      rw [if_neg proper, if_neg inside]
      have whole := Nat.mul_div_le (capacity - (tail - head)) need
      have part : need * min ((capacity - (tail - head)) / need) maxFrames ≤
          need * ((capacity - (tail - head)) / need) := Nat.mul_le_mul_left _ (min_le_left _ _)
      omega

/-- A claim changes nothing, counts a failure, or takes the bytes behind the tail. -/
theorem claim_cases (safe : Safe setup channel) (producer : Fin n) (payloadLen : UInt32) :
    (claim setup channel producer payloadLen).2 = channel ∨
      (claim setup channel producer payloadLen).2 =
        channel.backPressured producer (minimumConsumerPosition setup (channel.ring producer)) ∨
      ∃ cached claimed, Granted setup channel producer payloadLen.toNat
        (claim setup channel producer payloadLen).2 cached 1 claimed := by
  have window := setup.effectiveCapacity_le
  have granted (cached : Nat) (least : ∀ consumer, cached ≤ channel.positions consumer producer)
      (fits : frameLen payloadLen.toNat false ≤ setup.capacity)
      (room : hasCapacity setup.effectiveCapacity (channel.ring producer).producerPos cached
        (frameLen payloadLen.toNat false) = true)
      (after : Channel n m) (result : after = (channel.setRing producer fun ring =>
        {ring with cachedConsumerPos := cached}).allocate setup producer (frameLen payloadLen.toNat false) 1
          payloadLen.toNat fun sequence => .single ⟨(channel.ring producer).producerPos, payloadLen.toNat,
            metaForSequence sequence false, sequence, 0⟩) :
      ∃ cached claimed, Granted setup channel producer payloadLen.toNat after cached 1 claimed := by
    have enough := hasCapacity_le room
    have plain (sequence : Nat) : (⟨(channel.ring producer).producerPos, payloadLen.toNat,
        metaForSequence sequence false, sequence, 0⟩ : Claim).hasExpiry = false := by
      have flag := hasExpiry_claimMeta sequence false
      simpa [claimMeta, Claim.hasExpiry] using flag
    refine ⟨cached, fun sequence => .single _, least, one_ne_zero, fits, by omega, fun sequence => ⟨?_, ?_⟩,
      fun _ => ?_, fun sequence => ?_, fun sequence => ?_, result⟩
    · simp [Claimed.Formed, plain, claimMeta]
    · rfl
    · rfl
    · rw [Claimed.length, plain, Nat.mul_one]
    · simp [Claimed.frames, plain, claimedFrames]
  by_cases large : setup.capacity < frameLen payloadLen.toNat false
  · simp [claim, if_pos large]
  · by_cases known : hasCapacity setup.effectiveCapacity (channel.ring producer).producerPos
        (channel.ring producer).cachedConsumerPos (frameLen payloadLen.toNat false) = true
    · refine .inr (.inr (granted _ (safe.rings producer).cached (by omega) known _ ?_))
      rw [setRing_cached]
      simp only [claim, if_neg large, if_pos known]
    · by_cases room : hasCapacity setup.effectiveCapacity (channel.ring producer).producerPos
          (minimumConsumerPosition setup (channel.ring producer)) (frameLen payloadLen.toNat false) = true
      · refine .inr (.inr (granted _ (minimumConsumerPosition_le setup _) (by omega) room _ ?_))
        simp only [claim, if_neg large, if_neg known, if_pos room]
      · refine .inr (.inl ?_)
        simp only [claim, if_neg large, if_neg known, if_neg room]

theorem claimBatch_cases (safe : Safe setup channel) (producer : Fin n) (payloadLen maxFrames : UInt32)
    (small : frameLen payloadLen.toNat false < 2 ^ 32) :
    (claimBatch setup channel producer payloadLen maxFrames).2 = channel ∨
      (claimBatch setup channel producer payloadLen maxFrames).2 =
        channel.backPressured producer (minimumConsumerPosition setup (channel.ring producer)) ∨
      ∃ cached count claimed, Granted setup channel producer payloadLen.toNat
        (claimBatch setup channel producer payloadLen maxFrames).2 cached count claimed := by
  have window := setup.effectiveCapacity_le
  have granted (cached : Nat) (least : ∀ consumer, cached ≤ channel.positions consumer producer)
      (fits : frameLen payloadLen.toNat false ≤ setup.capacity) (count : Nat) (some : count ≠ 0)
      (room : (channel.ring producer).producerPos + frameLen payloadLen.toNat false * count ≤
        cached + setup.effectiveCapacity)
      (after : Channel n m) (result : after = (channel.setRing producer fun ring =>
        {ring with cachedConsumerPos := cached}).allocate setup producer (frameLen payloadLen.toNat false) count
          payloadLen.toNat fun sequence => .batch ⟨frameLen payloadLen.toNat false * count,
            (channel.ring producer).producerPos, frameLen payloadLen.toNat false % 2 ^ 32, count, payloadLen.toNat,
            sequence, false, 0⟩) :
      ∃ cached count claimed, Granted setup channel producer payloadLen.toNat after cached count claimed := by
    have enough : (channel.ring producer).producerPos + frameLen payloadLen.toNat false * count ≤
        cached + setup.capacity := room.trans (Nat.add_le_add_left window _)
    refine ⟨cached, count, fun sequence => .batch ⟨frameLen payloadLen.toNat false * count,
      (channel.ring producer).producerPos, frameLen payloadLen.toNat false % 2 ^ 32, count, payloadLen.toNat,
      sequence, false, 0⟩, least, some, fits, enough, fun _ => ⟨?_, ?_⟩, fun _ => ?_, fun _ => ?_, fun _ => ?_, result⟩
    · exact ⟨rfl, rfl, some⟩
    · exact ⟨rfl, small⟩
    · rfl
    · rfl
    · rfl
  by_cases none : maxFrames = 0
  · simp [claimBatch, if_pos none]
  by_cases large : setup.capacity < frameLen payloadLen.toNat false
  · simp [claimBatch, if_pos large]
  by_cases known : batchFit setup.effectiveCapacity (channel.ring producer).producerPos
      (channel.ring producer).cachedConsumerPos (frameLen payloadLen.toNat false) maxFrames.toNat = 0
  · by_cases full : batchFit setup.effectiveCapacity (channel.ring producer).producerPos
        (minimumConsumerPosition setup (channel.ring producer)) (frameLen payloadLen.toNat false) maxFrames.toNat = 0
    · refine .inr (.inl ?_)
      simp only [claimBatch, if_neg none, if_neg large, known, ne_eq, not_true_eq_false, if_false, if_pos full]
    · refine .inr (.inr (granted _ (minimumConsumerPosition_le setup _) (by omega) _ full (batchFit_le full) _ ?_))
      simp only [claimBatch, if_neg none, if_neg large, known, ne_eq, not_true_eq_false, if_false, if_neg full]
  · refine .inr (.inr (granted _ (safe.rings producer).cached (by omega) _ known (batchFit_le known) _ ?_))
    rw [setRing_cached]
    simp only [claimBatch, if_neg none, if_neg large, ne_eq, known, not_false_eq_true, if_true]

/-- The sequences of the frames that a claim adds. -/
theorem sequence_claimedFrames {tail need count sequence payloadLen : Nat} {index : Nat}
    (below : index < (claimedFrames tail need count sequence payloadLen false 0).length) :
    ((claimedFrames tail need count sequence payloadLen false 0)[index]).sequence = sequence + index := by
  simp [claimedFrames]

theorem Granted.safe {payloadLen cached count : Nat} {after : Channel n m} {claimed : Nat → Claimed}
    (safe : Safe setup channel) (small : payloadLen < 2 ^ 32)
    (granted : Granted setup channel producer payloadLen after cached count claimed) :
    Safe setup after ∧ Forward channel after := by
  obtain ⟨least, some, fits, room, formed, start, length, claims, rfl⟩ := granted
  have ring := safe.rings producer
  have same : ((channel.setRing producer fun ring => {ring with cachedConsumerPos := cached}).allocate setup producer
      (frameLen payloadLen false) count payloadLen claimed).positions = channel.positions := by
    funext consumer other
    by_cases equal : other = producer
    · subst equal
      simp [Channel.positions, Channel.allocate, Channel.setRing]
    · simp [Channel.positions, Channel.allocate, Channel.setRing, Function.update_of_ne equal]
  have frames (other : Fin n) : ((channel.setRing producer fun ring => {ring with cachedConsumerPos := cached}).allocate
      setup producer (frameLen payloadLen false) count payloadLen claimed).frames other = channel.frames other ++
        if producer = other then claimedFrames (channel.ring producer).producerPos (frameLen payloadLen false) count
          (if setup.order.ordered then channel.globalSeq else (channel.ring producer).totalWritten) payloadLen false 0
        else [] := by
    simp only [Channel.frames, Channel.allocate, Channel.setRing, Function.update_self]
    exact frames_append _ _ _ _
  refine ⟨⟨fun other => ?_, ?_, fun consumer => ?_⟩, fun consumer other => (congrFun₂ same consumer other).ge⟩
  · rw [frames]
    by_cases equal : producer = other
    · subst equal
      have known : RingSafe setup (channel.frames producer)
          {channel.ring producer with cachedConsumerPos := cached} := ring.cache least
      have next := known.allocate rfl some small fits
        (formed (if setup.order.ordered then channel.globalSeq else (channel.ring producer).totalWritten)).1
        (formed _).2 (start _) (length _) (claims _) fun consumer =>
          room.trans (Nat.add_le_add_right (least consumer) _)
      simpa only [if_true, Channel.allocate, Channel.setRing, Function.update_self] using next
    · simpa only [if_neg equal, List.append_nil, Channel.allocate, Channel.setRing,
        Function.update_of_ne (Ne.symm equal)] using safe.rings other
  · have numbered := safe.numbered
    unfold Numbered at numbered ⊢
    by_cases ordered : setup.order.ordered = true
    · rw [if_pos ordered] at numbered ⊢
      obtain ⟨total, each⟩ := numbered
      have log : ((channel.setRing producer fun ring => {ring with cachedConsumerPos := cached}).allocate setup producer
          (frameLen payloadLen false) count payloadLen claimed).log = channel.log ++ (claimedFrames
            (channel.ring producer).producerPos (frameLen payloadLen false) count channel.globalSeq payloadLen false
            0).map fun frame => (producer, frame) := by
        simp [Channel.allocate, Channel.setRing, ordered]
      refine ⟨?_, fun index below => ?_⟩
      · rw [log]
        simp [Channel.allocate, ordered, Channel.setRing, total]
      · simp only [log] at below ⊢
        by_cases old : index < channel.log.length
        · rw [List.getElem_append_left old]
          exact each index old
        · rw [List.getElem_append_right (by omega), List.getElem_map, sequence_claimedFrames]
          omega
    · rw [if_neg ordered] at numbered ⊢
      intro other index below
      simp only [frames, if_neg ordered] at below ⊢
      by_cases old : index < (channel.frames other).length
      · rw [List.getElem_append_left old]
        exact numbered other index old
      · by_cases equal : producer = other
        · subst equal
          simp only [if_true]
          rw [List.getElem_append_right (by omega), sequence_claimedFrames, ring.written]
          omega
        · simp only [if_neg equal, List.append_nil] at below
          exact absurd below old
  · rw [same]
    exact safe.consumers consumer

theorem backPressured_safe (safe : Safe setup channel) (producer : Fin n) :
    Safe setup (channel.backPressured producer (minimumConsumerPosition setup (channel.ring producer))) ∧
      Forward channel (channel.backPressured producer (minimumConsumerPosition setup (channel.ring producer))) :=
  safe.setRing ((safe.rings producer).cache (minimumConsumerPosition_le setup _)) rfl

theorem Forward.refl (channel : Channel n m) : Forward channel channel := fun _ _ => le_rfl

theorem Forward.trans {first second third : Channel n m} (one : Forward first second) (two : Forward second third) :
    Forward first third :=
  fun consumer producer => (one consumer producer).trans (two consumer producer)

theorem claim_safe (safe : Safe setup channel) (producer : Fin n) (payloadLen : UInt32) :
    Safe setup (claim setup channel producer payloadLen).2 ∧
      Forward channel (claim setup channel producer payloadLen).2 := by
  rcases claim_cases safe producer payloadLen with same | full | ⟨cached, claimed, granted⟩
  · rw [same]
    exact ⟨safe, .refl channel⟩
  · rw [full]
    exact backPressured_safe safe producer
  · exact granted.safe safe payloadLen.toNat_lt

theorem claimBatch_safe (safe : Safe setup channel) (producer : Fin n) (payloadLen maxFrames : UInt32)
    (small : frameLen payloadLen.toNat false < 2 ^ 32) :
    Safe setup (claimBatch setup channel producer payloadLen maxFrames).2 ∧
      Forward channel (claimBatch setup channel producer payloadLen maxFrames).2 := by
  rcases claimBatch_cases safe producer payloadLen maxFrames small with
    same | full | ⟨cached, count, claimed, granted⟩
  · rw [same]
    exact ⟨safe, .refl channel⟩
  · rw [full]
    exact backPressured_safe safe producer
  · exact granted.safe safe payloadLen.toNat_lt

/-- A part of the span of a claim lies in the claim. -/
theorem span_inside (claimed : Claimed) : claimed.start ≤ claimed.span.1 ∧
    claimed.span.1 + claimed.span.2 ≤ claimed.stop := by
  cases claimed with
  | single claim =>
      have inside := payload_inside claim.payloadLen claim.hasExpiry
      simp only [Claimed.start, Claimed.span, Claimed.stop, Claimed.length]
      omega
  | batch claim => exact ⟨le_rfl, le_rfl⟩

theorem write_safe (safe : Safe setup channel) {claimed : Claimed} (member : claimed ∈ (channel.ring producer).claims)
    {position : Nat} {data : List UInt8} (above : claimed.span.1 ≤ position)
    (below : position + data.length ≤ claimed.span.1 + claimed.span.2) :
    Safe setup (writePayload setup channel producer position data) ∧
      Forward channel (writePayload setup channel producer position data) := by
  obtain ⟨start, stop⟩ := span_inside claimed
  exact safe.setRing ((safe.rings producer).write member (by omega) (by omega)) rfl

theorem publishContiguous_positions (start stop : Nat) (ring : ProducerRing m) :
    (publishContiguous start stop ring).consumerPositions = ring.consumerPositions := by
  unfold publishContiguous
  split
  · rfl
  · split <;> rfl

/-- A commit stores the headers of its frames and publishes its bytes. -/
theorem commit_eq (reservation : Claim) (plain : PlainClaim (.single reservation)) :
    commit setup channel producer reservation = channel.setRing producer fun ring =>
      publishContiguous (Claimed.single reservation).start (Claimed.single reservation).stop
        (storeHeaders setup (Claimed.single reservation).frames ring) := by
  have word : reservation.word = claimMeta reservation.sequence false := by
    rw [claimMeta]
    exact plain.trans (Nat.or_zero _).symm
  have flag : reservation.hasExpiry = false := by rw [Claim.hasExpiry, word, hasExpiry_claimMeta]
  have header : reservation.word ||| FLAG_COMMITTED = frameMeta reservation.sequence false := by
    rw [word, claimMeta, claimMeta_committed]
  simp only [commit, storeHeaders, Claimed.frames, Claimed.start, Claimed.stop, Claimed.length, flag, header,
    List.foldl_cons, List.foldl_nil]

theorem commitBatch_eq (batch : BatchClaim) (formed : (Claimed.batch batch).Formed)
    (plain : PlainClaim (.batch batch)) : commitBatch setup channel producer batch =
      channel.setRing producer fun ring =>
        publishContiguous (Claimed.batch batch).start (Claimed.batch batch).stop
          (storeHeaders setup (Claimed.batch batch).frames ring) := by
  obtain ⟨region, cut, some⟩ := formed
  obtain ⟨flag, small⟩ := plain
  rw [flag] at region cut
  have whole : batch.frameLength = frameLen batch.payloadLen false := by omega
  have word (sequence : Nat) : metaForSequence sequence true = frameMeta sequence false := by
    simpa using metaForSequence_committed sequence false
  simp only [commitBatch, if_neg some, storeHeaders, Claimed.frames, claimedFrames, List.foldl_map, Claimed.start,
    Claimed.stop, Claimed.length, region, flag, whole, word]

theorem committed_safe (safe : Safe setup channel) {claimed : Claimed}
    (member : claimed ∈ (channel.ring producer).claims) :
    Safe setup (channel.setRing producer fun ring =>
        publishContiguous claimed.start claimed.stop (storeHeaders setup claimed.frames ring)) ∧
      Forward channel (channel.setRing producer fun ring =>
        publishContiguous claimed.start claimed.stop (storeHeaders setup claimed.frames ring)) := by
  refine safe.setRing ((safe.rings producer).commit member) ?_
  obtain ⟨memory, committed, shape, -⟩ := storeHeaders_same setup claimed.frames (channel.ring producer)
  rw [publishContiguous_positions, shape]

end Transmit

end Salias.HybridMpsc
