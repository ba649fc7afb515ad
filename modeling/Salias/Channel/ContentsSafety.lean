import Salias.Channel.Contents

/-
Every run keeps the contents of a ring when its claims are committed once, the writes stay inside open claims, no
batch has frames of 4 GiB, and the tail stays within one capacity of every open claim.
-/

namespace Salias.SharedHybridMpsc

open Concurrent Salias.Frame ConsumerRegistration

variable {n m : Nat} {K : Type}

/-- The tail has not lapped an open claim. -/
def Near (setup : Setup n m K) (producer : Fin n) (state : State n m K) : Prop :=
  ∀ reservation ∈ (state.tx producer).reservations,
    (state.tx producer).producerPos ≤ reservation.claimed.start + setup.capacity

/-- A claim under commit stays open, and the frames that its commit has reached are complete. -/
structure Committing (setup : Setup n m K) (producer : Fin n) (reservation : Reservation) (reached : ClaimedFrame → Prop)
    (state : State n m K) : Prop where
  opened : reservation ∈ (state.tx producer).reservations
  inside : ∀ frame, reached frame → frame ∈ reservation.claimed.frames
  complete : ∀ frame, reached frame → Complete setup (state.ring producer) frame

/-- The stores that complete one frame. -/
def storeFrame (setup : Setup n m K) (producer : Fin n) (frame : ClaimedFrame) : Prog (State n m K) Unit := do
  .when frame.hasExpiry (storeExpiry setup producer frame.start frame.expiresAt)
  storeHeader setup producer frame.start frame.payloadLen (frameMeta frame.sequence frame.hasExpiry) frame.start
    frame.hasExpiry

/-- The frame of a batch at an index. -/
def BatchClaim.frame (batch : BatchClaim) (index : Nat) : ClaimedFrame :=
  ⟨batch.startPos + frameLen batch.payloadLen batch.hasExpiry * index, batch.payloadLen, batch.hasExpiry,
    batch.expiresAt, batch.baseSequence + index⟩

theorem BatchClaim.mem_frames {batch : BatchClaim} {frame : ClaimedFrame} :
    frame ∈ (Claimed.batch batch).frames ↔ ∃ index, index < batch.frameCount ∧ frame = batch.frame index :=
  mem_claimedFrames

theorem commitRound_eq (setup : Setup n m K) (producer : Fin n) {batch : BatchClaim} (sized : (Claimed.batch batch).Sized)
    (small : frameLen batch.payloadLen batch.hasExpiry < 2 ^ 32) (index : Nat) :
    commitRound setup producer batch index = storeFrame setup producer (batch.frame index) := by
  obtain ⟨-, cut, -⟩ := sized
  rw [Nat.mod_eq_of_lt small] at cut
  rw [commitRound, storeFrame, BatchClaim.frame, cut]
  dsimp only
  rw [metaForSequence_committed]

theorem commit_eq (setup : Setup n m K) (producer : Fin n) {claim : Claim} (formed : (Claimed.single claim).Formed) :
    commit setup producer claim = (storeFrame setup producer
      ⟨claim.startPos, claim.payloadLen, claim.hasExpiry, claim.expiresAt, claim.sequence⟩).bind fun _ =>
        publishContiguous producer claim.startPos (claim.startPos + frameLen claim.payloadLen claim.hasExpiry) := by
  have word : claim.word ||| FLAG_COMMITTED = frameMeta claim.sequence claim.hasExpiry := by
    have formed : claim.word = claimMeta claim.sequence claim.hasExpiry := formed
    rw [formed, claimMeta, claimMeta_committed]
  rw [commit, storeFrame, word]
  exact (Prog.bind_assoc ..).symm

section Frames

variable {setup : Setup n m K} {producer : Fin n} {state after : State n m K} {claimed : Claimed}
  {reservation : Reservation} {reached : ClaimedFrame → Prop} {frame other : ClaimedFrame}

theorem Committing.same (held : Committing setup producer reservation reached state)
    (same : SameContents producer state after) : Committing setup producer reservation reached after :=
  ⟨by rw [same.reservations]; exact held.opened, held.inside, fun frame done => same.complete (held.complete frame done)⟩

theorem Committing.mono {fewer : ClaimedFrame → Prop} (held : Committing setup producer reservation reached state)
    (implied : ∀ frame, fewer frame → reached frame) : Committing setup producer reservation fewer state :=
  ⟨held.opened, fun frame done => held.inside frame (implied frame done), fun frame done =>
    held.complete frame (implied frame done)⟩

/-- Two frames of an open claim share no byte. -/
theorem Contents.apart_frames (contents : Contents setup producer state) (lined : Lined producer state)
    (opened : OpenClaim producer claimed state) (member : frame ∈ claimed.frames) (present : other ∈ claimed.frames)
    (different : other ≠ frame) :
    Circular.Apart setup.capacity frame.start frame.length other.start other.length := by
  obtain ⟨reservation, found, rfl⟩ := opened
  have near := contents.near reservation found
  have first := (contents.formed reservation found).inside member
  have second := (contents.formed reservation found).inside present
  have within := contents.stop_le lined ⟨reservation, found, rfl⟩
  rcases lined.chained.apart (contents.backed reservation found frame member)
    (contents.backed reservation found other present) with same | before | after
  · exact absurd same.symm different
  · refine .of_window before ?_
    have stop : other.start + other.length ≤ reservation.claimed.stop := second.2
    omega
  · refine Circular.Apart.symm (.of_window after ?_)
    have stop : frame.start + frame.length ≤ reservation.claimed.stop := first.2
    omega

/-- A write inside one frame of an open claim. -/
theorem Committing.write (held : Committing setup producer reservation reached state)
    (contents : Contents setup producer state) (lined : Lined producer state)
    (member : frame ∈ reservation.claimed.frames) (position : Nat) (data : List UInt8)
    (change : ProducerRing m → ProducerRing m) (above : frame.start ≤ position)
    (below : position + data.length ≤ frame.stop)
    (frames : (change (state.ring producer)).frames = (state.ring producer).frames)
    (memory : (change (state.ring producer)).memory =
      Circular.write setup.capacity (state.ring producer).memory position data)
    (committed : ∀ start, start ≠ frame.start →
      (change (state.ring producer)).committed start = (state.ring producer).committed start) :
    Contents setup producer (state.setRing producer change) ∧
      Committing setup producer reservation (fun other => reached other ∧ other ≠ frame)
        (state.setRing producer change) := by
  have inside := (contents.formed reservation held.opened).inside member
  refine ⟨contents.write lined ⟨reservation, held.opened, rfl⟩ position data change (inside.1.trans above)
    (below.trans inside.2) frames memory fun start outside => committed start fun same => ?_, held.opened, fun other done => held.inside other done.1,
    fun other done => ?_⟩
  · have proper := frame.start_lt_stop
    omega
  · have apart := contents.apart_frames lined ⟨reservation, held.opened, rfl⟩ member (held.inside other done.1) done.2
    rw [State.setRing_ring]
    refine (held.complete other done.1).write (apart.mono above below le_rfl le_rfl) memory (committed _ fun same => ?_)
    exact apart 0 frame.length_pos 0 other.length_pos (by rw [same])

end Frames

section Safety

variable [DecidableEq K]

namespace Contents

variable {setup : Setup n m K} {producer : Fin n} {state : State n m K}

def discipline (setup : Setup n m K) (producer : Fin n) : Discipline (State n m K) (Thread n K) (Label n m) :=
  Membership.layer setup (Commits producer) (fun thread _ after => thread = .producer producer → Near setup producer after)
    (Contents setup producer)

abbrev txContract (setup : Setup n m K) (producer : Fin n) : Contract (State n m K) :=
  (discipline setup producer).contract (.producer producer)

theorem txLawful (setup : Setup n m K) (producer : Fin n) : (txContract setup producer).Lawful :=
  Membership.layer_lawful (.producer producer)

/-- A program that leaves the contents alone keeps every fact about them. -/
theorem same_safe {α : Type} {holds : State n m K → Prop} {program : Prog (State n m K) α}
    (each : Each (SameContents producer) program)
    (keeps : ∀ {before after}, SameContents producer before after → holds before → holds after) (entry : holds state) :
    Safe (txContract setup producer) (fun _ => holds) program state :=
  Safe.of_each each
    (fun ready action same held => ⟨same.contents ready.keeps, action.1.1, keeps same held⟩)
    (fun rely _ held => keeps (TxRely.sameContents rely) held) entry

theorem same_safe_any {α : Type} {program : Prog (State n m K) α} (each : Each (SameContents producer) program) :
    Safe (txContract setup producer) (fun _ _ => True) program state :=
  same_safe each (fun _ _ => trivial) trivial

omit [DecidableEq K] in
theorem same_prepares {α : Type} {program : Prog (State n m K) α} (prepares : Each (TxPrepares producer) program) :
    Each (SameContents producer) program :=
  prepares.mono fun _ _ step => ⟨by rw [step.ring], by rw [step.ring], by rw [step.ring], by rw [step.tx], by rw [step.tx]⟩

theorem prepares_safe {α : Type} {program : Prog (State n m K) α} (prepares : Each (TxPrepares producer) program) :
    Safe (txContract setup producer) (fun _ _ => True) program state := same_safe_any (same_prepares prepares)

section Commit

variable {reservation : Reservation} {reached : ClaimedFrame → Prop} {frame : ClaimedFrame}

/-- The deadline and the header of one frame. -/
theorem storeFrame_safe (held : Committing setup producer reservation reached state)
    (member : frame ∈ reservation.claimed.frames) :
    Safe (txContract setup producer)
      (fun _ => Committing setup producer reservation fun other => reached other ∨ other = frame)
      (storeFrame setup producer frame) state := by
  have whole := frameLen_eq frame.payloadLen frame.hasExpiry
  refine Safe.bind (txLawful setup producer) (M := fun _ state =>
    Committing setup producer reservation (fun other => reached other ∧ other ≠ frame) state ∧
      (frame.hasExpiry = true → Circular.loadWord setup.capacity (state.ring producer).memory
        (frame.start + kHeaderSize) = frame.expiresAt)) ?_ fun _ current _ middle => ?_
  · unfold Prog.when
    split
    · rename_i expires
      refine Safe.store_last fun current rely ready action => ?_
      have held := held.same (TxRely.sameContents rely)
      have lined := ready.knows.1.lined producer
      have valid := (ready.knows.1.exact producer).valid frame
        (ready.keeps.backed reservation held.opened frame member)
      have length : 16 ≤ frame.length := by
        rw [ClaimedFrame.length, whole, expires]
        exact Nat.le_add_right _ _
      obtain ⟨contents, rest⟩ := held.write ready.keeps lined member (frame.start + kHeaderSize)
        (Circular.encode 8 frame.expiresAt)
        (.writeBytes setup.capacity (frame.start + kHeaderSize) (Circular.encode 8 frame.expiresAt))
        (Nat.le_add_right _ _) (by rw [Circular.length_encode, ClaimedFrame.stop, kHeaderSize]; omega) rfl rfl
        (fun _ _ => rfl)
      refine ⟨contents, action.1.1, fun last rely _ => ?_⟩
      have same := TxRely.sameContents rely
      refine ⟨rest.same same, fun _ => ?_⟩
      rw [same.memory, State.setRing_ring]
      exact Circular.loadWord_storeWord _ _ _ setup.eight_le_capacity valid.expiresAt
    · rename_i plain
      exact fun current rely _ => ⟨(held.same (TxRely.sameContents rely)).mono fun _ => And.left,
        fun expires => absurd expires plain⟩
  · obtain ⟨held, expiry⟩ := middle
    refine Safe.store_last fun later rely ready action => ?_
    have same := TxRely.sameContents rely
    have held := held.same same
    rw [← same.memory] at expiry
    have lined := ready.knows.1.lined producer
    have valid := (ready.knows.1.exact producer).valid frame
      (ready.keeps.backed reservation held.opened frame member)
    have header := frameLen_ge frame.payloadLen frame.hasExpiry
    obtain ⟨contents, rest⟩ := held.write ready.keeps lined member frame.start
      (Circular.encode 8 (packHeader frame.payloadLen (frameMeta frame.sequence frame.hasExpiry)))
      (fun ring =>
        let written := ring.writeBytes setup.capacity frame.start
          (Circular.encode 8 (packHeader frame.payloadLen (frameMeta frame.sequence frame.hasExpiry)))
        {written with
          committed := Function.update ring.committed frame.start (some (Circular.read setup.capacity written.memory
            (frame.start + payloadOffset frame.hasExpiry) frame.payloadLen))})
      le_rfl (by rw [Circular.length_encode, ClaimedFrame.stop]; exact Nat.add_le_add_left header _) rfl rfl
      (fun start different => Function.update_of_ne different _ _)
    refine ⟨contents, action.1.1, fun last rely _ => ?_⟩
    refine Committing.same ⟨rest.opened, fun other done => ?_, fun other done => ?_⟩ (TxRely.sameContents rely)
    · rcases done with done | rfl
      · by_cases own : other = frame
        · exact own ▸ member
        · exact rest.inside other ⟨⟨done, own⟩, own⟩
      · exact member
    · by_cases own : other = frame
      · subst own
        rw [State.setRing_ring]
        exact .of_header valid expiry rfl (Function.update_self ..)
      · exact rest.complete other ⟨⟨done.resolve_right own, own⟩, own⟩

/-- The commit of a claim whose frames are complete. -/
theorem publishContiguous_safe {start stop : Nat}
    (held : Committing setup producer reservation (· ∈ reservation.claimed.frames) state)
    (starts : start = reservation.claimed.start) :
    Safe (txContract setup producer) (fun _ _ => True) (publishContiguous producer start stop) state := by
  subst starts
  refine Safe.store_last fun current rely ready action => ⟨?_, action.1.1, fun _ _ _ => trivial⟩
  have held := held.same (TxRely.sameContents rely)
  have commits : Commits producer current := ready.knows.2
  have above := (commits.spans.inside _ (List.mem_map_of_mem held.opened)).1
  have lined := ready.knows.1.lined producer
  have opened : OpenClaim producer reservation.claimed current := ⟨reservation, held.opened, rfl⟩
  by_cases first : reservation.claimed.start = (current.tx producer).publishedPos
  · simp only [if_pos first]
    exact Contents.close ready.keeps commits lined opened held.complete (by simp) (by simp) (by simp) (by simp) (by simp)
  · have later : (current.tx producer).publishedPos < reservation.claimed.start := by
      dsimp only at above
      omega
    simp only [if_neg first, if_pos later]
    exact Contents.close ready.keeps commits lined opened held.complete rfl rfl rfl (by simp) (by simp)

theorem commit_safe {claim : Claim} {floor : Nat}
    (opened : (⟨.single claim, floor⟩ : Reservation) ∈ (state.tx producer).reservations)
    (formed : (Claimed.single claim).Formed) :
    Safe (txContract setup producer) (fun _ _ => True) (commit setup producer claim) state := by
  rw [commit_eq setup producer formed]
  have held : Committing setup producer ⟨.single claim, floor⟩ (fun _ => False) state :=
    ⟨opened, fun _ => False.elim, fun _ => False.elim⟩
  refine Safe.bind (txLawful setup producer) (storeFrame_safe held (List.mem_singleton_self _)) fun _ _ _ held => ?_
  exact publishContiguous_safe (held.mono fun frame member => .inr (List.mem_singleton.mp member)) rfl

theorem commitBatch_safe {batch : BatchClaim} {floor : Nat}
    (opened : (⟨.batch batch, floor⟩ : Reservation) ∈ (state.tx producer).reservations)
    (sized : (Claimed.batch batch).Sized) (small : frameLen batch.payloadLen batch.hasExpiry < 2 ^ 32) :
    Safe (txContract setup producer) (fun _ _ => True) (commitBatch setup producer batch) state := by
  unfold commitBatch
  rw [if_neg sized.2.2]
  let reached (remaining : List Nat) (frame : ClaimedFrame) : Prop :=
    ∃ index, index < batch.frameCount ∧ index ∉ remaining ∧ frame = batch.frame index
  refine Safe.bind (txLawful setup producer) (Safe.forEach (txLawful setup producer)
    (I := fun remaining state => (∀ index ∈ remaining, index < batch.frameCount) ∧
      Committing setup producer ⟨.batch batch, floor⟩ (reached remaining) state)
    (fun rely _ held => ⟨held.1, held.2.same (TxRely.sameContents rely)⟩) (fun index rest current held => ?_)
    ⟨fun index member => List.mem_range.mp member, opened, fun frame done => ?_, fun frame done => ?_⟩)
    fun _ _ _ held => publishContiguous_safe (held.2.mono fun frame member => ?_) rfl
  · obtain ⟨within, held⟩ := held
    have below := within index List.mem_cons_self
    rw [commitRound_eq setup producer sized small]
    refine Safe.weaken (storeFrame_safe held (BatchClaim.mem_frames.mpr ⟨index, below, rfl⟩)) fun _ _ _ held =>
      ⟨fun other member => within other (List.mem_cons_of_mem _ member), held.mono fun frame done => ?_⟩
    obtain ⟨other, bound, absent, rfl⟩ := done
    by_cases same : other = index
    · exact .inr (same ▸ rfl)
    · exact .inl ⟨other, bound, by simp [same, absent], rfl⟩
  · obtain ⟨index, below, absent, -⟩ := done
    exact absurd (List.mem_range.mpr below) absent
  · obtain ⟨index, below, absent, -⟩ := done
    exact absurd (List.mem_range.mpr below) absent
  · obtain ⟨index, below, rfl⟩ := BatchClaim.mem_frames.mp member
    exact ⟨index, below, List.not_mem_nil, rfl⟩

end Commit

section Claim

/-- An allocation whose frames are those of its claim. -/
theorem allocate_safe {tail need count payloadLen expiresAt : Nat} {hasExpiry : Bool} {claim : Nat → Claimed}
    (held : (state.tx producer).producerPos = tail) (formed : ∀ sequence, (claim sequence).Formed)
    (frames : ∀ sequence, (claim sequence).frames =
      claimedFrames tail need count sequence payloadLen hasExpiry expiresAt) {α : Type}
    {rest : Nat → Prog (State n m K) α} (each : ∀ sequence, Each (TxPrepares producer) (rest sequence)) :
    Safe (txContract setup producer) (fun _ _ => True) ((Prog.modifyGet (State.nextSequence setup producer)
      (State.allocate setup producer tail need count payloadLen hasExpiry expiresAt claim)).bind rest) state := by
  refine Safe.modifyGet_bind fun current rely ready action => ⟨?_, action.1.1, prepares_safe (each _)⟩
  have tail := (TxRely.sameContents rely).producerPos.trans held
  have near := action.2 rfl
  refine Contents.allocate ready.keeps (formed _) (frames _) (by rw [tail]; exact Nat.le_add_right _ _) ?_
  intro reservation member
  have near := near reservation member
  rw [State.allocate_eq] at near
  simpa using near

theorem claimGuarded_safe (payloadLen : UInt32) (expiresAt : UInt64) (hasExpiry : Bool) :
    Safe (txContract setup producer) (fun _ _ => True) (claimGuarded setup producer payloadLen expiresAt hasExpiry)
      state := by
  refine Safe.load_bind (txLawful setup producer) fun first _ _ => ?_
  refine Safe.bind (txLawful setup producer) (same_safe (same_prepares (prepares_claimRoom setup producer _ _))
    (fun same held => same.producerPos.trans held)
    (show (first.tx producer).producerPos = (first.tx producer).producerPos from rfl)) fun room _ _ held => ?_
  cases room with
  | error error => exact fun _ _ _ => trivial
  | ok done =>
      refine allocate_safe held (fun sequence => ?_) (fun sequence => ?_)
        fun sequence => .bind (prepares_publishReservation producer _) fun _ => .ret _
      · exact congrArg (claimMeta sequence) (hasExpiry_claimMeta sequence hasExpiry).symm
      · simp [Claimed.frames, Claim.hasExpiry, hasExpiry_claimMeta, claimedFrames]

theorem claimBatchGuarded_safe (payloadLen maxFrames : UInt32) (expiresAt : UInt64) (hasExpiry : Bool) :
    Safe (txContract setup producer) (fun _ _ => True)
      (claimBatchGuarded setup producer payloadLen maxFrames expiresAt hasExpiry) state := by
  refine Safe.load_bind (txLawful setup producer) fun first _ _ => ?_
  refine Safe.bind (txLawful setup producer) ((same_safe (same_prepares (prepares_batchRoom setup producer _ _ _))
    (fun same held => same.producerPos.trans held)
    (show (first.tx producer).producerPos = (first.tx producer).producerPos from rfl)).ends
      (ends_batchRoom setup producer _ _ _)) fun room _ _ held => ?_
  cases room with
  | error error => exact fun _ _ _ => trivial
  | ok fit =>
      refine allocate_safe held.1 (fun sequence => ?_) (fun _ => rfl)
        fun sequence => .bind (prepares_publishReservation producer _) fun _ => .ret _
      exact ⟨rfl, rfl, held.2 fit rfl⟩

theorem guarded_safe {α : Type} {program : Prog (State n m K) α}
    (body : ∀ state, Safe (txContract setup producer) (fun _ _ => True) program state) {refused : α} :
    Safe (txContract setup producer) (fun _ _ => True) (do
      let acquired ← claimReservationGuard producer
      if acquired then
        let result ← program
        endClaimReservation producer
        pure result
      else
        pure refused) state := by
  refine Safe.bind (txLawful setup producer) (prepares_safe (prepares_claimReservationGuard producer))
    fun acquired _ _ _ => ?_
  split
  · exact Safe.bind (txLawful setup producer) (body _) fun result _ _ _ =>
      prepares_safe (.bind (prepares_endClaimReservation producer) fun _ => .ret _)
  · exact fun _ _ _ => trivial

theorem claim_safe (payloadLen : UInt32) (expiresAt : UInt64) (hasExpiry : Bool) :
    Safe (txContract setup producer) (fun _ _ => True) (claim setup producer payloadLen expiresAt hasExpiry)
      state := by
  unfold claim
  split
  · exact fun _ _ _ => trivial
  refine guarded_safe fun current => ?_
  split
  · exact fun _ _ _ => trivial
  · exact claimGuarded_safe _ _ _

theorem claimBatch_safe (payloadLen maxFrames : UInt32) (expiresAt : UInt64) (hasExpiry : Bool) :
    Safe (txContract setup producer) (fun _ _ => True)
      (claimBatch setup producer payloadLen maxFrames expiresAt hasExpiry) state := by
  unfold claimBatch
  split
  · exact fun _ _ _ => trivial
  refine guarded_safe fun current => ?_
  split
  · exact fun _ _ _ => trivial
  · exact claimBatchGuarded_safe _ _ _ _

end Claim

/-- The user writes inside the span of an open claim. -/
theorem writePayload_safe {claimed : Claimed} {offset : Nat} {data : List UInt8}
    (opened : OpenClaim producer claimed state) :
    Safe (txContract setup producer) (fun _ _ => True) (writePayload setup producer claimed offset data) state := by
  refine Safe.store_last fun current rely ready action => ⟨?_, action.1.1, fun _ _ _ => trivial⟩
  have opened : OpenClaim producer claimed current := by
    rw [OpenClaim, (TxRely.sameContents rely).reservations]
    exact opened
  split
  · rename_i fits
    obtain ⟨reservation, member, rfl⟩ := opened
    have formed := (show Contents setup producer current from ready.keeps).formed reservation member
    refine Contents.write ready.keeps (ready.knows.1.lined producer) ⟨reservation, member, rfl⟩
      (reservation.claimed.span.1 + offset) data _ ?_ ?_ rfl rfl fun _ _ => rfl
    · cases reservation.claimed with
      | single claim => exact (Nat.le_add_right _ _).trans (Nat.le_add_right _ _)
      | batch batch => exact Nat.le_add_right _ _
    · cases shape : reservation.claimed with
      | single claim =>
          rw [shape] at fits
          have inside := payload_inside claim.payloadLen claim.hasExpiry
          simp only [Claimed.span, Claimed.stop, Claimed.start, Claimed.length] at fits ⊢
          omega
      | batch batch =>
          rw [shape] at fits
          simp only [Claimed.span, Claimed.stop, Claimed.start, Claimed.length] at fits ⊢
          omega
  · exact ready.keeps

/-- A transmitter that replaces one without open claims goes on at the same tail. -/
theorem createTx_safe (outside : (state.ring producer).claimActive = false)
    (committed : (state.tx producer).reservations = []) :
    Safe (txContract setup producer) (fun _ _ => True) (createTx setup producer) state := by
  refine Safe.load_bind (txLawful setup producer) fun first relyFirst ready => ?_
  have outside := (owned_claimActive relyFirst.owned).trans outside
  have announced : (first.ring producer).reservationPosition = (first.tx producer).producerPos :=
    (ready.knows.1.settled producer outside).position
  refine Safe.load_bind (txLawful setup producer) fun second relySecond ready => ?_
  refine Safe.store_bind fun third relyThird ready action => ⟨?_, action.1.1, ?_⟩
  · have later := relySecond.trans relyThird
    have same : (third.tx producer).producerPos = (first.ring producer).reservationPosition := by
      rw [announced, later.tx]
    have none : (third.tx producer).reservations = [] := by
      rw [later.tx, relyFirst.tx, committed]
    refine SameContents.contents ⟨?_, ?_, ?_, ?_, ?_⟩ ready.keeps
    · rfl
    · rfl
    · rfl
    · simp [same]
    · simp [none]
  · split
    · exact prepares_safe (.bind (prepares_reads producer (reads_minimumConsumerMessageSequence setup producer))
        fun minimum => prepares_waits producer (waits_setCachedConsumerMessageSequence producer minimum))
    · exact fun _ _ _ => trivial

/-- The writes of a producer stay inside its open claims. -/
def WritesInside (producer : Fin n) (state : State n m K) : Thread n K → Request n → Prop
  | .producer other, .write claimed _ _ => other = producer → OpenClaim producer claimed state
  | _, _ => True

theorem transmitter_safe {request : Request n} {program : Prog (State n m K) (Label n m)}
    (begins : startTransmitter setup producer request = some program) (contents : Contents setup producer state)
    (commits : Commits producer state)
    (once : CommitOrder.CommitsOnce producer state (.producer producer : Thread n K) request)
    (small : CommitOrder.SmallBatch producer (.producer producer : Thread n K) request)
    (inside : WritesInside producer state (.producer producer : Thread n K) request)
    (outside : (state.ring producer).claimActive = false) :
    Safe (txContract setup producer) (fun _ _ => True) program state := by
  have done {α : Type} {program : Prog (State n m K) α} {label : α → Label n m}
      (safe : Safe (txContract setup producer) (fun _ _ => True) program state) :
      Safe (txContract setup producer) (fun _ _ => True) (program.bind fun value => .ret (label value)) state :=
    Safe.bind (txLawful setup producer) safe fun _ _ _ _ => fun _ _ _ => trivial
  cases request with
  | claim payloadLen expiresAt hasExpiry =>
      cases begins
      exact done (claim_safe payloadLen expiresAt hasExpiry)
  | claimBatch payloadLen maxFrames expiresAt hasExpiry =>
      cases begins
      exact done (claimBatch_safe payloadLen maxFrames expiresAt hasExpiry)
  | write claimed offset data =>
      cases begins
      exact done (writePayload_safe (inside rfl))
  | commit claim =>
      cases begins
      obtain ⟨floor, opened⟩ := once rfl
      exact done (commit_safe opened (contents.formed _ opened))
  | commitBatch batch =>
      cases begins
      obtain ⟨floor, opened⟩ := once rfl
      exact done (commitBatch_safe opened (commits.sized _ opened) (small rfl))
  | createTx =>
      cases begins
      exact done (createTx_safe outside (once rfl))
  | _ => cases begins

/-- The other threads leave the contents of the ring alone. -/
theorem other_safe {thread : Thread n K} (other : thread ≠ .producer producer) {α : Type}
    {program : Prog (State n m K) α} :
    Safe ((discipline setup producer).contract thread) (fun _ _ => True) program state :=
  Safe.of_action fun {before after} ready action => by
    have rely := Membership.compatible other ⟨ready.knows.1, trivial, ready.may⟩ ⟨action.1.2, trivial, trivial⟩
      action.1.1
    have rely : TxRely producer before after := rely
    exact ⟨rely.sameContents.contents ready.keeps, action.1.1⟩

theorem sound (setup : Setup n m K) (producer : Fin n) :
    (discipline setup producer).Sound (system setup) fun state thread _ request =>
      (CommitOrder.CommitsOnce producer state thread request ∧ CommitOrder.SmallBatch producer thread request) ∧
        WritesInside producer state thread request where
  lawful := Membership.layer_lawful
  compatible := Membership.layer_compatible
  start {thread label request program state} begins admitted ready rests _ := by
    by_cases own : thread = .producer producer
    · subst own
      match label, begins with
      | .transmitter last, begins =>
          exact transmitter_safe begins ready.keeps ready.knows.2 admitted.1.1 admitted.1.2 admitted.2 rests
    · exact other_safe own

theorem begun (setup : Setup n m K) (producer : Fin n) : (discipline setup producer).Initial initial := by
  refine ⟨⟨nofun, nofun, nofun, nofun⟩, fun thread => ?_⟩
  cases thread <;> exact fun _ _ _ => trivial

/-- The claims of the producer are committed at most once and in batches of small frames, its writes stay inside open
claims, and its tail does not lap an open claim. -/
def Admitted (setup : Setup n m K) (producer : Fin n)
    (config : Concurrent.Config (State n m K) (Thread n K) (Label n m)) (event : Event (Thread n K) (Request n)) :
    Prop :=
  (CommitOrder.Admitted setup producer config event ∧ CommitOrder.Small producer event) ∧
    (∀ thread request, event = .start thread request → WritesInside producer config.shared thread request) ∧
      ∀ after, event = .act (.producer producer) → (system setup).step config event = some after →
        Near setup producer after.shared

theorem of_run {config : Concurrent.Config (State n m K) (Thread n K) (Label n m)}
    (run : (system setup).Run (Admitted setup producer) initial config) : Contents setup producer config.shared :=
  ((sound setup producer).run (begun setup producer)
    (Membership.layer_knows (fun admitted => admitted.1.1.1)
      (fun admitted _ => ⟨⟨admitted.1.1.2 _ _ rfl, admitted.1.2 _ _ rfl⟩, admitted.2.1 _ _ rfl⟩)
      (fun run => CommitOrder.of_run (run.weaken fun _ _ admitted => admitted.1))
      (fun _ admitted taken own => admitted.2.2 _ (congrArg Event.act own) taken)) run).1

end Contents

end Safety

end Salias.SharedHybridMpsc
