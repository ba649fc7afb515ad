import Salias.Channel.CommitOrder

/-
The memory of a ring holds every committed frame that the tail has not lapped. A producer writes into its open
claims only.
-/

namespace Salias.SharedHybridMpsc

open Concurrent Salias.Frame ConsumerRegistration

variable {n m : Nat} {K : Type}

/-- The header, the deadline and the payload of a committed frame lie in the memory of its ring. -/
structure Complete (setup : Setup n m K) (ring : ProducerRing m) (frame : ClaimedFrame) : Prop where
  header : Circular.loadWord setup.capacity ring.memory frame.start =
    packHeader frame.payloadLen (frameMeta frame.sequence frame.hasExpiry)
  expiry : frame.hasExpiry = true →
    Circular.loadWord setup.capacity ring.memory (frame.start + kHeaderSize) = frame.expiresAt
  payload : ring.committed frame.start = some (Circular.read setup.capacity ring.memory
    (frame.start + payloadOffset frame.hasExpiry) frame.payloadLen)

/-- The frames of a claim. -/
def Claimed.frames : Claimed → List ClaimedFrame
  | .single claim => [⟨claim.startPos, claim.payloadLen, claim.hasExpiry, claim.expiresAt, claim.sequence⟩]
  | .batch claim => claimedFrames claim.startPos (frameLen claim.payloadLen claim.hasExpiry) claim.frameCount
      claim.baseSequence claim.payloadLen claim.hasExpiry claim.expiresAt

def Claimed.stop (claimed : Claimed) : Nat := claimed.start + claimed.length

/-- The metadata of a single claim and the size of a batch are those of their frames. -/
def Claimed.Formed : Claimed → Prop
  | .single claim => claim.word = claimMeta claim.sequence claim.hasExpiry
  | .batch claim => (Claimed.batch claim).Sized

/-- A frame lies outside of a claim. -/
def ClaimedFrame.Clear (frame : ClaimedFrame) (claimed : Claimed) : Prop :=
  frame.stop ≤ claimed.start ∨ claimed.stop ≤ frame.start

section Chains

variable {frames : List ClaimedFrame} {claimed : Claimed} {frame other : ClaimedFrame}

theorem Chained.stop (chained : Chained frames) {index : Nat} (below : index < frames.length) :
    frames[index].stop = frameOffset frames (index + 1) := by
  rw [ClaimedFrame.stop, chained index below, frameOffset, frameOffset, Circular.offset_succ _ _ below]

/-- Two frames are equal or lie apart. -/
theorem Chained.apart (chained : Chained frames) (member : frame ∈ frames) (present : other ∈ frames) :
    frame = other ∨ frame.stop ≤ other.start ∨ other.stop ≤ frame.start := by
  obtain ⟨first, firstBelow, rfl⟩ := List.mem_iff_getElem.mp member
  obtain ⟨second, secondBelow, rfl⟩ := List.mem_iff_getElem.mp present
  rw [chained.stop, chained.stop, chained first firstBelow, chained second secondBelow]
  rcases Nat.lt_trichotomy first second with before | same | after
  · exact .inr (.inl (Circular.offset_mono _ _ before))
  · subst same
    exact .inl rfl
  · exact .inr (.inr (Circular.offset_mono _ _ after))

theorem Chained.stop_le (chained : Chained frames) (member : frame ∈ frames) :
    frame.stop ≤ frameOffset frames frames.length := by
  obtain ⟨index, below, rfl⟩ := List.mem_iff_getElem.mp member
  rw [chained.stop]
  exact Circular.offset_mono _ _ below

theorem ClaimedFrame.length_pos (frame : ClaimedFrame) : 0 < frame.length := frameLen_pos _ _

theorem ClaimedFrame.start_lt_stop (frame : ClaimedFrame) : frame.start < frame.stop :=
  Nat.lt_add_of_pos_right frame.length_pos

/-- The frames of a claim lie inside it. -/
theorem Claimed.Formed.inside (formed : claimed.Formed) (member : frame ∈ claimed.frames) :
    claimed.start ≤ frame.start ∧ frame.stop ≤ claimed.stop := by
  cases claimed with
  | single claim =>
      rw [List.mem_singleton.mp member]
      exact ⟨le_rfl, le_rfl⟩
  | batch claim =>
      obtain ⟨index, below, rfl⟩ := mem_claimedFrames.mp member
      obtain ⟨region, -, -⟩ := formed
      refine ⟨Nat.le_add_right _ _, ?_⟩
      have last : frameLen claim.payloadLen claim.hasExpiry * (index + 1) ≤
          frameLen claim.payloadLen claim.hasExpiry * claim.frameCount := Nat.mul_le_mul_left _ below
      simp only [ClaimedFrame.stop, ClaimedFrame.length, Claimed.stop, Claimed.start, Claimed.length, region]
      rw [Nat.mul_succ] at last
      omega

/-- The frames of a claim cover it. -/
theorem Claimed.Formed.covers (formed : claimed.Formed) (position : Nat) (above : claimed.start ≤ position)
    (below : position < claimed.stop) : ∃ frame ∈ claimed.frames, frame.start ≤ position ∧ position < frame.stop := by
  cases claimed with
  | single claim => exact ⟨_, List.mem_singleton_self _, above, below⟩
  | batch claim =>
      obtain ⟨region, -, -⟩ := formed
      simp only [Claimed.stop, Claimed.start, Claimed.length, region] at above below
      have positive := frameLen_pos claim.payloadLen claim.hasExpiry
      generalize size : frameLen claim.payloadLen claim.hasExpiry = need at positive below
      have index : (position - claim.startPos) / need < claim.frameCount :=
        Nat.div_lt_of_lt_mul (by omega)
      have split := Nat.div_add_mod (position - claim.startPos) need
      have rest := Nat.mod_lt (position - claim.startPos) positive
      refine ⟨_, mem_claimedFrames.mpr ⟨_, index, rfl⟩, ?_, ?_⟩
      · simp only [size]
        omega
      · simp only [ClaimedFrame.stop, ClaimedFrame.length, size]
        omega

theorem Claimed.Formed.proper (formed : claimed.Formed) : claimed.start < claimed.stop := by
  have positive : 0 < claimed.length := by
    cases claimed with
    | single claim => exact frameLen_pos _ _
    | batch claim =>
        obtain ⟨region, -, some⟩ := formed
        rw [Claimed.length, region]
        exact Nat.mul_pos (frameLen_pos _ _) (Nat.pos_of_ne_zero some)
  exact Nat.lt_add_of_pos_right positive

/-- A frame that touches a claim belongs to it. -/
theorem Claimed.Formed.mem_frames (formed : claimed.Formed) (chained : Chained frames)
    (backed : ∀ frame ∈ claimed.frames, frame ∈ frames) (member : frame ∈ frames) (touches : ¬ frame.Clear claimed) :
    frame ∈ claimed.frames := by
  simp only [ClaimedFrame.Clear, not_or, not_le] at touches
  have proper := frame.start_lt_stop
  have whole := formed.proper
  obtain ⟨other, present, start, stop⟩ := formed.covers (max frame.start claimed.start) (by omega) (by omega)
  rcases chained.apart member (backed other present) with same | before | after
  · exact same ▸ present
  · omega
  · omega

end Chains

/-- The claimed frames of a ring in its memory. The tail stays within one capacity of every open claim. -/
structure Contents (setup : Setup n m K) (producer : Fin n) (state : State n m K) : Prop where
  backed : ∀ reservation ∈ (state.tx producer).reservations, ∀ frame ∈ reservation.claimed.frames,
    frame ∈ (state.ring producer).frames
  formed : ∀ reservation ∈ (state.tx producer).reservations, reservation.claimed.Formed
  near : ∀ reservation ∈ (state.tx producer).reservations,
    (state.tx producer).producerPos ≤ reservation.claimed.start + setup.capacity
  complete : ∀ frame ∈ (state.ring producer).frames,
    (state.tx producer).producerPos ≤ frame.start + setup.capacity →
    (∀ reservation ∈ (state.tx producer).reservations, frame.Clear reservation.claimed) →
      Complete setup (state.ring producer) frame

section Memory

variable {setup : Setup n m K} {ring : ProducerRing m} {frame : ClaimedFrame}

/-- A frame depends on its own bytes. -/
theorem Complete.congr (complete : Complete setup ring frame) {later : ProducerRing m}
    (memory : ∀ position length, frame.start ≤ position → position + length ≤ frame.stop →
      Circular.read setup.capacity later.memory position length =
        Circular.read setup.capacity ring.memory position length)
    (committed : later.committed frame.start = ring.committed frame.start) : Complete setup later frame := by
  have inside := payload_inside frame.payloadLen frame.hasExpiry
  have header := frameLen_ge frame.payloadLen frame.hasExpiry
  refine ⟨?_, fun expires => ?_, ?_⟩
  · rw [Circular.loadWord, memory _ _ le_rfl (Nat.add_le_add_left header _)]
    exact complete.header
  · have room : kHeaderSize + 8 ≤ frame.length := by
      rw [ClaimedFrame.length, frameLen_eq, expires]
      exact Nat.le_add_right _ _
    rw [Circular.loadWord, memory _ _ (Nat.le_add_right _ _) (by rw [ClaimedFrame.stop]; omega)]
    exact complete.expiry expires
  · rw [committed, memory _ _ (Nat.le_add_right _ _) (by rw [ClaimedFrame.stop, ClaimedFrame.length]; omega)]
    exact complete.payload

/-- A write that shares no byte with a frame. -/
theorem Complete.write (complete : Complete setup ring frame) {position : Nat} {data : List UInt8}
    {later : ProducerRing m}
    (apart : Circular.Apart setup.capacity position data.length frame.start frame.length)
    (memory : later.memory = Circular.write setup.capacity ring.memory position data)
    (committed : later.committed frame.start = ring.committed frame.start) : Complete setup later frame :=
  complete.congr (fun start length above below => by
    rw [memory]
    refine Circular.read_write_apart _ _ _ (apart.mono le_rfl le_rfl above ?_)
    exact below) committed

/-- A header that follows its deadline completes a frame. -/
theorem Complete.of_header {later : ProducerRing m} (fits : frame.Valid setup.capacity)
    (expiry : frame.hasExpiry = true →
      Circular.loadWord setup.capacity ring.memory (frame.start + kHeaderSize) = frame.expiresAt)
    (memory : later.memory = Circular.write setup.capacity ring.memory frame.start
      (Circular.encode 8 (packHeader frame.payloadLen (frameMeta frame.sequence frame.hasExpiry))))
    (committed : later.committed frame.start = some (Circular.read setup.capacity later.memory
      (frame.start + payloadOffset frame.hasExpiry) frame.payloadLen)) : Complete setup later frame where
  header := by
    rw [memory]
    exact Circular.loadWord_storeWord _ _ _ setup.eight_le_capacity (packHeader_lt fits.payloadLen (frameMeta_lt _ _))
  expiry expires := by
    have room : 16 ≤ frame.length := by
      rw [ClaimedFrame.length, frameLen_eq, expires]
      exact Nat.le_add_right _ _
    have length := fits.length
    rw [memory, Circular.loadWord, Circular.read_write_apart, ← Circular.loadWord]
    · exact expiry expires
    · rw [Circular.length_encode]
      exact .of_window le_rfl (by rw [kHeaderSize]; omega)
  payload := committed

end Memory

section Updates

variable {setup : Setup n m K} {producer : Fin n} {state after : State n m K} {claimed : Claimed}

/-- The words that the contents depend on. -/
structure SameContents (producer : Fin n) (before after : State n m K) : Prop where
  frames : (after.ring producer).frames = (before.ring producer).frames
  memory : (after.ring producer).memory = (before.ring producer).memory
  committed : (after.ring producer).committed = (before.ring producer).committed
  producerPos : (after.tx producer).producerPos = (before.tx producer).producerPos
  reservations : (after.tx producer).reservations = (before.tx producer).reservations

theorem SameContents.refl (producer : Fin n) (state : State n m K) : SameContents producer state state :=
  ⟨rfl, rfl, rfl, rfl, rfl⟩

theorem SameContents.complete (same : SameContents producer state after) {frame : ClaimedFrame}
    (complete : Complete setup (state.ring producer) frame) : Complete setup (after.ring producer) frame :=
  complete.congr (fun _ _ _ _ => by rw [same.memory]) (by rw [same.committed])

theorem SameContents.contents (same : SameContents producer state after) (contents : Contents setup producer state) :
    Contents setup producer after where
  backed := by rw [same.reservations, same.frames]; exact contents.backed
  formed := by rw [same.reservations]; exact contents.formed
  near := by rw [same.reservations, same.producerPos]; exact contents.near
  complete := by
    rw [same.reservations, same.frames, same.producerPos]
    exact fun frame member resident clear => same.complete (contents.complete frame member resident clear)

theorem TxRely.sameContents {before after : State n m K} (rely : TxRely producer before after) :
    SameContents producer before after where
  frames := owned_frames rely.owned
  memory := show (after.ring producer).owned.memory = (before.ring producer).owned.memory from congrArg _ rely.owned
  committed := show (after.ring producer).owned.committed = (before.ring producer).owned.committed from
    congrArg _ rely.owned
  producerPos := by rw [rely.tx]
  reservations := by rw [rely.tx]

/-- The frames of a producer are chained up to its tail. -/
structure Lined (producer : Fin n) (state : State n m K) : Prop where
  chained : Chained (state.ring producer).frames
  tail : (state.tx producer).producerPos = frameOffset (state.ring producer).frames (state.ring producer).frames.length

theorem Membership.lined (membership : Membership setup state) (producer : Fin n) : Lined producer state :=
  ⟨(membership.exact producer).chained, (membership.exact producer).position⟩

theorem Lined.stop_le (lined : Lined producer state) {frame : ClaimedFrame}
    (member : frame ∈ (state.ring producer).frames) : frame.stop ≤ (state.tx producer).producerPos := by
  rw [lined.tail]
  exact lined.chained.stop_le member

/-- An open claim of a producer. -/
def OpenClaim (producer : Fin n) (claimed : Claimed) (state : State n m K) : Prop :=
  ∃ reservation ∈ (state.tx producer).reservations, reservation.claimed = claimed

theorem Contents.stop_le (contents : Contents setup producer state) (lined : Lined producer state)
    (opened : OpenClaim producer claimed state) : claimed.stop ≤ (state.tx producer).producerPos := by
  obtain ⟨reservation, member, rfl⟩ := opened
  have formed := contents.formed reservation member
  have proper := formed.proper
  obtain ⟨frame, present, -, below⟩ :=
    formed.covers (reservation.claimed.stop - 1) (by omega) (by omega)
  have inside := lined.stop_le (contents.backed reservation member frame present)
  omega

/-- A frame outside of an open claim shares no byte with it. -/
theorem Contents.apart (contents : Contents setup producer state) (lined : Lined producer state)
    (opened : OpenClaim producer claimed state) {frame : ClaimedFrame}
    (member : frame ∈ (state.ring producer).frames)
    (resident : (state.tx producer).producerPos ≤ frame.start + setup.capacity) (clear : frame.Clear claimed) :
    Circular.Apart setup.capacity claimed.start claimed.length frame.start frame.length := by
  have within := contents.stop_le lined opened
  have inside := lined.stop_le member
  obtain ⟨reservation, present, rfl⟩ := opened
  have near := contents.near reservation present
  rw [Claimed.stop] at within
  rw [ClaimedFrame.stop] at inside
  rcases clear with before | after
  · exact Circular.Apart.symm (.of_window before (within.trans resident))
  · exact .of_window after (inside.trans near)

/-- A write inside an open claim. -/
theorem Contents.write (contents : Contents setup producer state) (lined : Lined producer state)
    (opened : OpenClaim producer claimed state) (position : Nat) (data : List UInt8)
    (change : ProducerRing m → ProducerRing m) (above : claimed.start ≤ position)
    (below : position + data.length ≤ claimed.stop)
    (frames : (change (state.ring producer)).frames = (state.ring producer).frames)
    (memory : (change (state.ring producer)).memory =
      Circular.write setup.capacity (state.ring producer).memory position data)
    (committed : ∀ start, start < claimed.start ∨ claimed.stop ≤ start →
      (change (state.ring producer)).committed start = (state.ring producer).committed start) :
    Contents setup producer (state.setRing producer change) where
  backed reservation member frame present := by
    rw [State.setRing_ring, frames]
    exact contents.backed reservation member frame present
  formed := contents.formed
  near := contents.near
  complete frame member resident clear := by
    rw [State.setRing_ring, frames] at member
    rw [State.setRing_ring]
    have apart := contents.apart lined opened member resident (by
      obtain ⟨reservation, present, rfl⟩ := opened
      exact clear reservation present)
    refine (contents.complete frame member resident clear).write (apart.mono above below le_rfl le_rfl) memory
      (committed _ ?_)
    obtain ⟨reservation, present, rfl⟩ := opened
    have proper := frame.start_lt_stop
    rcases clear reservation present with before | after
    · exact .inl (by omega)
    · exact .inr after

/-- A claim at the tail adds frames that it does not complete. -/
theorem Contents.allocate {tail need count payloadLen expiresAt : Nat} {hasExpiry : Bool} {claim : Nat → Claimed}
    (contents : Contents setup producer state)
    (formed : (claim (state.nextSequence setup producer)).Formed)
    (frames : (claim (state.nextSequence setup producer)).frames =
      state.allocated setup producer tail need count payloadLen hasExpiry expiresAt)
    (forward : (state.tx producer).producerPos ≤ tail + need * count)
    (near : ∀ reservation ∈ ((state.allocate setup producer tail need count payloadLen hasExpiry expiresAt claim).tx
      producer).reservations, tail + need * count ≤ reservation.claimed.start + setup.capacity) :
    Contents setup producer (state.allocate setup producer tail need count payloadLen hasExpiry expiresAt claim) := by
  rw [State.allocate_eq] at near ⊢
  refine ⟨fun reservation member frame present => ?_, fun reservation member => ?_, fun reservation member => ?_,
    fun frame member resident clear => ?_⟩
  · have either : reservation ∈ (state.tx producer).reservations ∨ reservation =
        {claimed := claim (state.nextSequence setup producer), floor := (state.ring producer).retainedPosition} := by
      simpa using member
    rcases either with old | rfl
    · simpa using .inl (contents.backed reservation old frame present)
    · simpa using .inr (frames ▸ present)
  · have either : reservation ∈ (state.tx producer).reservations ∨ reservation =
        {claimed := claim (state.nextSequence setup producer), floor := (state.ring producer).retainedPosition} := by
      simpa using member
    rcases either with old | rfl
    · exact contents.formed reservation old
    · exact formed
  · simpa using near reservation member
  · have either : frame ∈ (state.ring producer).frames ∨
        frame ∈ state.allocated setup producer tail need count payloadLen hasExpiry expiresAt := by
      simpa using member
    have resident : tail + need * count ≤ frame.start + setup.capacity := by simpa using resident
    rcases either with old | new
    · refine (contents.complete frame old (forward.trans resident) fun reservation present =>
        clear reservation (by simp [present])).congr (fun _ _ _ _ => by simp) (by simp)
    · rw [← frames] at new
      have outside := clear ⟨claim (state.nextSequence setup producer), (state.ring producer).retainedPosition⟩ (by simp)
      have inside := formed.inside new
      have proper := frame.start_lt_stop
      rcases outside with before | after
      · dsimp only at before
        omega
      · dsimp only at after
        omega

/-- The commit of a complete claim. -/
theorem Contents.close (contents : Contents setup producer state) (commits : Commits producer state)
    (lined : Lined producer state) (opened : OpenClaim producer claimed state)
    (complete : ∀ frame ∈ claimed.frames, Complete setup (state.ring producer) frame)
    (frames : (after.ring producer).frames = (state.ring producer).frames)
    (memory : (after.ring producer).memory = (state.ring producer).memory)
    (committed : (after.ring producer).committed = (state.ring producer).committed)
    (producerPos : (after.tx producer).producerPos = (state.tx producer).producerPos)
    (reservations : (after.tx producer).reservations =
      (state.tx producer).reservations.filter fun reservation => reservation.claimed.start != claimed.start) :
    Contents setup producer after := by
  have kept {reservation : Reservation} (member : reservation ∈ (after.tx producer).reservations) :
      reservation ∈ (state.tx producer).reservations := by
    rw [reservations] at member
    exact List.mem_of_mem_filter member
  have congr {frame : ClaimedFrame} (complete : Complete setup (state.ring producer) frame) :
      Complete setup (after.ring producer) frame :=
    complete.congr (fun _ _ _ _ => by rw [memory]) (by rw [committed])
  refine ⟨fun reservation member => ?_, fun reservation member => contents.formed _ (kept member),
    fun reservation member => ?_, fun frame member resident clear => ?_⟩
  · rw [frames]
    exact contents.backed reservation (kept member)
  · rw [producerPos]
    exact contents.near reservation (kept member)
  · rw [frames] at member
    rw [producerPos] at resident
    obtain ⟨own, present, rfl⟩ := opened
    by_cases outside : frame.Clear own.claimed
    · refine congr (contents.complete frame member resident fun reservation other => ?_)
      by_cases same : reservation.claimed.start = own.claimed.start
      · have equal := commits.spans.eq_of_start (List.mem_map_of_mem present) (List.mem_map_of_mem other) same
        simp only [CommitSpan.mk.injEq] at equal
        have stop : reservation.claimed.stop = own.claimed.stop := equal.2
        rw [ClaimedFrame.Clear, same, stop]
        exact outside
      · exact clear reservation (by rw [reservations]; simp [other, same])
    · exact congr (complete frame ((contents.formed own present).mem_frames lined.chained
        (contents.backed own present) member outside))

end Updates

end Salias.SharedHybridMpsc
