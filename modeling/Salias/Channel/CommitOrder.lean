import Salias.Channel.MembershipSafety

/-
Commits come in any order. The published position is the end of the committed prefix, and the waiting spans
cover the committed bytes beyond it.
-/

namespace Salias.SharedHybridMpsc

open Concurrent Salias.Frame ConsumerRegistration

/-- Between the published position and the tail, the waiting spans cover what no open claim covers. -/
structure CommitPrefix (published tail : Nat) (pending claims : List CommitSpan) : Prop where
  sorted : Sorted pending
  late : ∀ span ∈ pending, published < span.start
  ordered : claims.Pairwise fun left right => left.stop ≤ right.start
  inside : ∀ span ∈ claims, published ≤ span.start ∧ span.start < span.stop ∧ span.stop ≤ tail
  behind : published ≤ tail
  covers : ∀ position, Covers pending position ↔
    published ≤ position ∧ position < tail ∧ ¬ Covers claims position

namespace CommitPrefix

variable {published tail : Nat} {pending claims : List CommitSpan} {span : CommitSpan}

/-- Every byte is published when no claim is open. -/
theorem empty (tail : Nat) : CommitPrefix tail tail [] [] :=
  ⟨⟨.nil, nofun⟩, nofun, .nil, nofun, le_rfl, fun position => by simp⟩

/-- The published position is the tail or the start of an open claim. -/
theorem ends (commits : CommitPrefix published tail pending claims) :
    published = tail ∨ ∃ span ∈ claims, span.start = published := by
  by_cases whole : published = tail
  · exact .inl whole
  · have behind := commits.behind
    have uncovered : ¬ Covers pending published := by
      rintro ⟨span, member, start, -⟩
      exact absurd (commits.late span member) (by omega)
    have claimed : Covers claims published := by
      by_contra free
      exact uncovered ((commits.covers published).mpr ⟨le_rfl, by omega, free⟩)
    obtain ⟨span, member, start, -⟩ := claimed
    exact .inr ⟨span, member, le_antisymm start (commits.inside span member).1⟩

/-- A claim opens at the tail. -/
theorem claim (commits : CommitPrefix published tail pending claims) {stop : Nat} (proper : tail < stop) :
    CommitPrefix published stop pending (claims ++ [⟨tail, stop⟩]) where
  sorted := commits.sorted
  late := commits.late
  ordered := by
    refine List.pairwise_append.mpr ⟨commits.ordered, List.pairwise_singleton _ _, fun left member right last => ?_⟩
    rw [List.mem_singleton.mp last]
    exact (commits.inside left member).2.2
  inside span member := by
    have behind := commits.behind
    rcases List.mem_append.mp member with old | new
    · obtain ⟨start, whole, stops⟩ := commits.inside span old
      omega
    · rw [List.mem_singleton.mp new]
      exact ⟨behind, proper, le_rfl⟩
  behind := by
    have behind := commits.behind
    omega
  covers position := by
    have behind := commits.behind
    have none := not_covers_nil position
    rw [commits.covers, covers_append, covers_cons]
    simp only [none, or_false]
    constructor
    · rintro ⟨above, below, free⟩
      exact ⟨above, by omega, by rintro (claimed | ⟨start, -⟩) <;> [exact free claimed; omega]⟩
    · rintro ⟨above, below, free⟩
      refine ⟨above, ?_, fun claimed => free (.inl claimed)⟩
      by_contra outside
      exact free (.inr ⟨by omega, below⟩)

/-- Two claims are equal or lie apart. -/
theorem apart (commits : CommitPrefix published tail pending claims) {other : CommitSpan} (member : span ∈ claims)
    (present : other ∈ claims) : span = other ∨ span.stop ≤ other.start ∨ other.stop ≤ span.start :=
  List.Pairwise.forall_of_forall_of_flip
    (R := fun left right => left = right ∨ left.stop ≤ right.start ∨ right.stop ≤ left.start)
    (fun _ _ => .inl rfl) (commits.ordered.imp fun before => .inr (.inl before))
    (commits.ordered.imp fun before => .inr (.inr before)) member present

/-- A claim is known by its start. -/
theorem eq_of_start (commits : CommitPrefix published tail pending claims) {other : CommitSpan}
    (member : span ∈ claims) (present : other ∈ claims) (same : other.start = span.start) : other = span := by
  have proper := (commits.inside span member).2.1
  have otherProper := (commits.inside other present).2.1
  rcases commits.apart member present with equal | before | after
  · exact equal.symm
  · omega
  · omega

/-- The claims without one. -/
abbrev without (claims : List CommitSpan) (start : Nat) : List CommitSpan :=
  claims.filter fun other => other.start != start

theorem mem_without {start : Nat} {other : CommitSpan} :
    other ∈ without claims start ↔ other ∈ claims ∧ other.start ≠ start := by
  simp

theorem covers_without (commits : CommitPrefix published tail pending claims) (member : span ∈ claims)
    (position : Nat) : Covers (without claims span.start) position ↔
      Covers claims position ∧ ¬ (span.start ≤ position ∧ position < span.stop) := by
  constructor
  · rintro ⟨other, present, inside⟩
    obtain ⟨present, different⟩ := mem_without.mp present
    refine ⟨⟨other, present, inside⟩, fun both => ?_⟩
    rcases commits.apart member present with equal | before | after
    · exact different (equal ▸ rfl)
    · omega
    · omega
  · rintro ⟨⟨other, present, inside⟩, outside⟩
    refine ⟨other, mem_without.mpr ⟨present, fun same => outside ?_⟩, inside⟩
    exact commits.eq_of_start member present same ▸ inside

/-- A waiting span lies apart from an open claim. -/
theorem pending_apart (commits : CommitPrefix published tail pending claims) (member : span ∈ claims)
    {other : CommitSpan} (waits : other ∈ pending) : other.stop ≤ span.start ∨ span.stop ≤ other.start := by
  by_contra overlap
  have proper := (commits.inside span member).2.1
  have otherProper := commits.sorted.2 other waits
  -- the later one of the two starts is in both spans
  have both : Covers pending (max other.start span.start) := ⟨other, waits, by omega, by omega⟩
  exact ((commits.covers _).mp both).2.2 ⟨span, member, by omega, by omega⟩

/-- A commit at the published position publishes the prefix that it completes. -/
theorem commit (commits : CommitPrefix published tail pending claims) (member : span ∈ claims)
    (first : span.start = published) :
    CommitPrefix (consumePendingContiguous pending span.stop).1 tail
      (consumePendingContiguous pending span.stop).2 (without claims span.start) := by
  obtain ⟨-, proper, within⟩ := commits.inside span member
  have late : ∀ other ∈ pending, span.stop ≤ other.start := by
    intro other waits
    have := commits.late other waits
    have := commits.sorted.2 other waits
    rcases commits.pending_apart member waits with before | after
    · omega
    · exact after
  obtain ⟨grows, sorted, beyond, reached⟩ := consumePendingContiguous_spec commits.sorted late
  generalize consumePendingContiguous pending span.stop = consumed at grows sorted beyond reached ⊢
  -- every byte between the old and the new published position is committed
  have passed (position : Nat) (above : span.stop ≤ position) (below : position < consumed.1) :
      position < tail ∧ ¬ Covers claims position :=
    ((commits.covers position).mp ((reached position above).mpr (.inl below))).2
  refine ⟨sorted, beyond, commits.ordered.filter _, fun other present => ?_, ?_, fun position => ?_⟩
  · obtain ⟨present, different⟩ := mem_without.mp present
    obtain ⟨start, whole, stops⟩ := commits.inside other present
    refine ⟨?_, whole, stops⟩
    by_contra early
    have above : span.stop ≤ other.start := by
      rcases commits.apart member present with equal | before | after
      · exact absurd (equal ▸ rfl) different
      · exact before
      · omega
    exact (passed other.start above (by omega)).2 ⟨other, present, le_rfl, whole⟩
  · by_contra passes
    have := (passed tail within (by omega)).1
    omega
  · rw [commits.covers_without member]
    constructor
    · intro covered
      have beyondSpan : consumed.1 ≤ position := by
        obtain ⟨other, waits, start, -⟩ := covered
        have := beyond other waits
        omega
      obtain ⟨-, below, free⟩ := (commits.covers position).mp ((reached position (by omega)).mpr (.inr covered))
      exact ⟨beyondSpan, below, fun claimed => free claimed.1⟩
    · rintro ⟨above, below, free⟩
      have claimed : ¬ Covers claims position := fun claimed => free ⟨claimed, by omega⟩
      have covered := (commits.covers position).mpr ⟨by omega, below, claimed⟩
      exact ((reached position (by omega)).mp covered).resolve_left (by omega)

/-- A commit beyond the published position waits. -/
theorem defer (commits : CommitPrefix published tail pending claims) (member : span ∈ claims)
    (later : published < span.start) :
    CommitPrefix published tail (notePendingCommit pending span.start span.stop) (without claims span.start) := by
  obtain ⟨-, proper, within⟩ := commits.inside span member
  obtain ⟨sorted, noted, late⟩ := notePendingCommit_spec commits.sorted proper fun other waits =>
    commits.pending_apart member waits
  refine ⟨sorted, late published later commits.late, commits.ordered.filter _,
    fun other present => commits.inside other (mem_without.mp present).1, commits.behind, fun position => ?_⟩
  rw [noted, commits.covers, commits.covers_without member]
  have own : span.start ≤ position ∧ position < span.stop → Covers claims position :=
    fun inside => ⟨span, member, inside⟩
  constructor
  · rintro (⟨above, below, free⟩ | inside)
    · exact ⟨above, below, fun claimed => free claimed.1⟩
    · exact ⟨by omega, by omega, fun claimed => claimed.2 inside⟩
  · rintro ⟨above, below, free⟩
    by_cases inside : span.start ≤ position ∧ position < span.stop
    · exact .inr inside
    · exact .inl ⟨above, below, fun claimed => free ⟨claimed, inside⟩⟩

end CommitPrefix

/-- The bytes of the claims that are not committed yet. -/
def Tx.openClaims (tx : Tx) : List CommitSpan :=
  tx.reservations.map fun reservation =>
    ⟨reservation.claimed.start, reservation.claimed.start + reservation.claimed.length⟩

/-- A batch has the size of its frames, and its frame length is cut to 32 bits. -/
def Claimed.Sized : Claimed → Prop
  | .single _ => True
  | .batch claim => claim.regionLength = frameLen claim.payloadLen claim.hasExpiry * claim.frameCount ∧
      claim.frameLength = frameLen claim.payloadLen claim.hasExpiry % 2 ^ 32 ∧ claim.frameCount ≠ 0

variable {n m : Nat} {K : Type}

/-- The commits of a producer. -/
structure Commits (producer : Fin n) (state : State n m K) : Prop where
  visible : (state.ring producer).visibleProducerPos = (state.tx producer).publishedPos
  spans : CommitPrefix (state.tx producer).publishedPos (state.tx producer).producerPos
    (state.tx producer).pendingCommits (state.tx producer).openClaims
  sized : ∀ reservation ∈ (state.tx producer).reservations, reservation.claimed.Sized

/-- An action that leaves the claims and the commits of a producer alone. -/
structure Unmoved (producer : Fin n) (before after : State n m K) : Prop where
  visible : (after.ring producer).visibleProducerPos = (before.ring producer).visibleProducerPos
  producerPos : (after.tx producer).producerPos = (before.tx producer).producerPos
  publishedPos : (after.tx producer).publishedPos = (before.tx producer).publishedPos
  pendingCommits : (after.tx producer).pendingCommits = (before.tx producer).pendingCommits
  reservations : (after.tx producer).reservations = (before.tx producer).reservations

section Unmoved

variable {producer : Fin n} {before after : State n m K}

theorem Unmoved.refl (producer : Fin n) (state : State n m K) : Unmoved producer state state :=
  ⟨rfl, rfl, rfl, rfl, rfl⟩

theorem Unmoved.of_setRing (state : State n m K) (change : ProducerRing m → ProducerRing m)
    (same : (change (state.ring producer)).visibleProducerPos = (state.ring producer).visibleProducerPos) :
    Unmoved producer state (state.setRing producer change) :=
  ⟨by simp [same], rfl, rfl, rfl, rfl⟩

theorem Unmoved.commits (unmoved : Unmoved producer before after) (commits : Commits producer before) :
    Commits producer after where
  visible := by rw [unmoved.visible, unmoved.publishedPos]; exact commits.visible
  spans := by
    rw [unmoved.publishedPos, unmoved.producerPos, unmoved.pendingCommits, Tx.openClaims, unmoved.reservations]
    exact commits.spans
  sized := by rw [unmoved.reservations]; exact commits.sized

theorem TxRely.unmoved (rely : TxRely producer before after) : Unmoved producer before after where
  visible := show (after.ring producer).owned.visibleProducerPos = (before.ring producer).owned.visibleProducerPos from
    congrArg _ rely.owned
  producerPos := by rw [rely.tx]
  publishedPos := by rw [rely.tx]
  pendingCommits := by rw [rely.tx]
  reservations := by rw [rely.tx]

end Unmoved

section Each

variable (setup : Setup n m K) (producer : Fin n)

theorem unmoved_reads {α : Type} {program : Prog (State n m K) α} (reads : Reads program) :
    Each (Unmoved producer) program := reads.each (.refl producer)

/-- A claim that looks for room leaves the claims and commits alone. -/
theorem unmoved_prepares {α : Type} {program : Prog (State n m K) α} (prepares : Each (TxPrepares producer) program) :
    Each (Unmoved producer) program :=
  prepares.mono fun _ _ step => ⟨by rw [step.ring], by rw [step.tx], by rw [step.tx], by rw [step.tx], by rw [step.tx]⟩

/-- A batch that is granted holds a frame. -/
theorem ends_batchRoom (tail per maxFrames : Nat) :
    Ends (fun room => ∀ fit, room = .ok fit → fit ≠ 0) (batchRoom setup producer tail per maxFrames) := by
  have granted (fit : Nat) : Ends (fun room => ∀ fit, room = .ok fit → fit ≠ 0)
      (.ret (if fit = 0 then .error FlowError.BackPressured else .ok fit) :
        Prog (State n m K) (Except FlowError Nat)) := by
    intro other same
    split at same
    · cases same
    · cases same
      assumption
  unfold batchRoom
  split
  · split
    · exact fun _ => nofun
    · exact .bind fun fit => granted fit
  · refine .bind fun bytes => ?_
    split
    · exact fun _ => nofun
    · exact .bind fun allowed => granted allowed

theorem unmoved_storeExpiry (position expiresAt : Nat) :
    Each (Unmoved producer) (storeExpiry setup producer position expiresAt) :=
  .store fun state => .of_setRing state _ rfl

theorem unmoved_storeHeader (position payloadLen word frameStart : Nat) (hasExpiry : Bool) :
    Each (Unmoved producer) (storeHeader setup producer position payloadLen word frameStart hasExpiry) :=
  .store fun state => .of_setRing state _ rfl

theorem unmoved_commitRound (batch : BatchClaim) (index : Nat) :
    Each (Unmoved producer) (commitRound setup producer batch index) :=
  .bind (.when (unmoved_storeExpiry setup producer _ _)) fun _ => unmoved_storeHeader setup producer _ _ _ _ _

theorem unmoved_writePayload (claimed : Claimed) (offset : Nat) (data : List UInt8) :
    Each (Unmoved producer) (writePayload setup producer claimed offset data) := by
  refine .store fun state => ?_
  split
  · exact .of_setRing state _ rfl
  · exact .refl producer state

end Each

section Steps

variable {producer : Fin n} {state : State n m K}

theorem hasExpiry_claimMeta (sequence : Nat) (hasExpiry : Bool) :
    hasFlag (claimMeta sequence hasExpiry) FLAG_HAS_EXPIRY = hasExpiry := by
  rw [← hasExpiry_of_committed, claimMeta, claimMeta_committed, hasExpiry_frameMeta]

/-- A claim at the tail opens. -/
theorem Commits.allocate {setup : Setup n m K} {tail need count payloadLen expiresAt : Nat} {hasExpiry : Bool}
    {claimed : Nat → Claimed} (commits : Commits producer state) (start : tail = (state.tx producer).producerPos)
    (claims : ∀ sequence, (claimed sequence).start = tail ∧ (claimed sequence).length = need * count ∧
      (claimed sequence).Sized) (positive : 0 < need * count) :
    Commits producer (state.allocate setup producer tail need count payloadLen hasExpiry expiresAt claimed) := by
  obtain ⟨starts, length, sized⟩ := claims (state.nextSequence setup producer)
  rw [State.allocate_eq]
  refine ⟨by simpa using commits.visible, ?_, fun reservation member => ?_⟩
  · have spans := commits.spans.claim (Nat.lt_add_of_pos_right positive)
    rw [← start] at spans
    simpa [Tx.openClaims, starts, length] using spans
  · have either : reservation ∈ (state.tx producer).reservations ∨ reservation =
        {claimed := claimed (state.nextSequence setup producer), floor := (state.ring producer).retainedPosition} := by
      simpa using member
    rcases either with old | rfl
    · exact commits.sized reservation old
    · exact sized

theorem openClaims_filter (reservations : List Reservation) (start : Nat) :
    (reservations.filter fun reservation => reservation.claimed.start != start).map
        (fun reservation => (⟨reservation.claimed.start, reservation.claimed.start + reservation.claimed.length⟩ :
          CommitSpan)) =
      CommitPrefix.without (reservations.map fun reservation =>
        ⟨reservation.claimed.start, reservation.claimed.start + reservation.claimed.length⟩) start := by
  simp [CommitPrefix.without, List.filter_map, Function.comp_def]

end Steps

namespace CommitOrder

variable [DecidableEq K] {setup : Setup n m K} {producer : Fin n} {state : State n m K}

abbrev txContract (setup : Setup n m K) (producer : Fin n) : Contract (State n m K) :=
  (Membership.extend setup (Commits producer)).contract (.producer producer)

theorem txLawful (setup : Setup n m K) (producer : Fin n) : (txContract setup producer).Lawful :=
  Membership.extend_lawful (.producer producer)

/-- A program that leaves the claims and commits alone keeps every fact about them. -/
theorem unmoved_safe {α : Type} {holds : State n m K → Prop} {program : Prog (State n m K) α}
    (each : Each (Unmoved producer) program)
    (keeps : ∀ {before after}, Unmoved producer before after → holds before → holds after) (entry : holds state) :
    Safe (txContract setup producer) (fun _ => holds) program state :=
  Safe.of_each each
    (fun ready action unmoved held => ⟨unmoved.commits ready.keeps, action.1, keeps unmoved held⟩)
    (fun rely _ held => keeps (TxRely.unmoved rely) held) entry

theorem unmoved_safe_any {α : Type} {program : Prog (State n m K) α} (each : Each (Unmoved producer) program) :
    Safe (txContract setup producer) (fun _ _ => True) program state :=
  unmoved_safe each (fun _ _ => trivial) trivial

/-- A reservation stays open until its commit. -/
def Open (producer : Fin n) (reservation : Reservation) (state : State n m K) : Prop :=
  reservation ∈ (state.tx producer).reservations

omit [DecidableEq K] in
theorem Open.keeps {reservation : Reservation} {before after : State n m K} (unmoved : Unmoved producer before after)
    (held : Open producer reservation before) : Open producer reservation after := by
  rw [Open, unmoved.reservations]
  exact held

/-- The commit of an open claim publishes its bytes or lets them wait. -/
theorem publishContiguous_safe {reservation : Reservation} {start stop : Nat}
    (held : Open producer reservation state) (starts : start = reservation.claimed.start)
    (stops : stop = start + reservation.claimed.length) :
    Safe (txContract setup producer) (fun _ _ => True) (publishContiguous producer start stop) state := by
  intro current rely ready action
  have held := held.keeps (TxRely.unmoved rely)
  refine ⟨?_, action.1, fun _ _ _ => trivial⟩
  have commits : Commits producer current := ready.keeps
  have span : (⟨start, stop⟩ : CommitSpan) ∈ (current.tx producer).openClaims :=
    List.mem_map.mpr ⟨reservation, held, by rw [stops, starts]⟩
  have closed := openClaims_filter (current.tx producer).reservations start
  have sized : ∀ other ∈ (current.tx producer).reservations.filter fun other => other.claimed.start != start,
      other.claimed.Sized := fun other member => commits.sized other (List.mem_of_mem_filter member)
  by_cases first : start = (current.tx producer).publishedPos
  · have spans := commits.spans.commit span first
    rw [Tx.openClaims, ← closed] at spans
    simp only [if_pos first]
    exact ⟨by simp, by simpa [Tx.openClaims] using spans, by simpa using sized⟩
  · have above := (commits.spans.inside _ span).1
    have later : (current.tx producer).publishedPos < start := by
      simp only at above
      omega
    have spans := commits.spans.defer span later
    rw [Tx.openClaims, ← closed] at spans
    simp only [if_neg first, if_pos later]
    exact ⟨by simpa using commits.visible, by simpa [Tx.openClaims] using spans, by simpa using sized⟩

theorem commit_safe {claim : Claim} {floor : Nat} (held : Open producer ⟨.single claim, floor⟩ state) :
    Safe (txContract setup producer) (fun _ _ => True) (commit setup producer claim) state := by
  refine Safe.bind (txLawful setup producer) (unmoved_safe (.when (unmoved_storeExpiry setup producer _ _))
    Open.keeps held) fun _ _ _ held => ?_
  refine Safe.bind (txLawful setup producer) (unmoved_safe (unmoved_storeHeader setup producer _ _ _ _ _)
    Open.keeps held) fun _ _ _ held => ?_
  exact publishContiguous_safe held rfl rfl

/-- A batch whose frame length fits in 32 bits is committed as a whole. -/
theorem commitBatch_safe {batch : BatchClaim} {floor : Nat} (held : Open producer ⟨.batch batch, floor⟩ state)
    (sized : (Claimed.batch batch).Sized) (small : frameLen batch.payloadLen batch.hasExpiry < 2 ^ 32) :
    Safe (txContract setup producer) (fun _ _ => True) (commitBatch setup producer batch) state := by
  obtain ⟨region, cut, some⟩ := sized
  unfold commitBatch
  rw [if_neg some]
  refine Safe.bind (txLawful setup producer) (unmoved_safe (.forEach (fun index =>
    unmoved_commitRound setup producer batch index) _) Open.keeps held) fun _ _ _ held => ?_
  refine publishContiguous_safe held rfl ?_
  rw [cut, Nat.mod_eq_of_lt small, Claimed.length, region]

/-- The tail of the producer stays where it is. -/
def Tail (producer : Fin n) (tail : Nat) (state : State n m K) : Prop := (state.tx producer).producerPos = tail

omit [DecidableEq K] in
theorem Tail.keeps {tail : Nat} {before after : State n m K} (unmoved : Unmoved producer before after)
    (held : Tail producer tail before) : Tail producer tail after :=
  unmoved.producerPos.trans held

theorem claimGuarded_safe (payloadLen : UInt32) (expiresAt : UInt64) (hasExpiry : Bool) :
    Safe (txContract setup producer) (fun _ _ => True) (claimGuarded setup producer payloadLen expiresAt hasExpiry)
      state := by
  refine Safe.load_bind (txLawful setup producer) fun first _ _ => ?_
  refine Safe.bind (txLawful setup producer) (unmoved_safe (unmoved_prepares producer (prepares_claimRoom setup producer _ _)) Tail.keeps
    (show Tail producer (first.tx producer).producerPos first from rfl)) fun room _ _ held => ?_
  cases room with
  | error error => exact fun _ _ _ => trivial
  | ok done =>
      refine Safe.modifyGet_bind fun second rely ready action => ⟨?_, action.1,
        unmoved_safe_any (unmoved_prepares producer (.bind (prepares_publishReservation producer _) fun _ => .ret _))⟩
      have tail := held.keeps (TxRely.unmoved rely)
      refine Commits.allocate ready.keeps tail.symm (fun sequence => ⟨rfl, ?_, trivial⟩) ?_
      · rw [Claimed.length, Claim.hasExpiry, hasExpiry_claimMeta, Nat.mul_one]
      · rw [Nat.mul_one]
        exact frameLen_pos _ _

theorem claimBatchGuarded_safe (payloadLen maxFrames : UInt32) (expiresAt : UInt64) (hasExpiry : Bool) :
    Safe (txContract setup producer) (fun _ _ => True)
      (claimBatchGuarded setup producer payloadLen maxFrames expiresAt hasExpiry) state := by
  refine Safe.load_bind (txLawful setup producer) fun first _ _ => ?_
  refine Safe.bind (txLawful setup producer) ((unmoved_safe (unmoved_prepares producer (prepares_batchRoom setup producer _ _ _)) Tail.keeps
    (show Tail producer (first.tx producer).producerPos first from rfl)).ends
      (ends_batchRoom setup producer _ _ _)) fun room _ _ held => ?_
  cases room with
  | error error => exact fun _ _ _ => trivial
  | ok fit =>
      refine Safe.modifyGet_bind fun second rely ready action => ⟨?_, action.1,
        unmoved_safe_any (unmoved_prepares producer (.bind (prepares_publishReservation producer _) fun _ => .ret _))⟩
      have tail := held.1.keeps (TxRely.unmoved rely)
      have some := held.2 fit rfl
      exact Commits.allocate ready.keeps tail.symm (fun sequence => ⟨rfl, rfl, rfl, rfl, some⟩)
        (Nat.mul_pos (frameLen_pos _ _) (Nat.pos_of_ne_zero some))

/-- The guard leaves the claims and commits alone. -/
theorem guarded_safe {α : Type} {program : Prog (State n m K) α}
    (body : ∀ state, Safe (txContract setup producer) (fun _ _ => True) program state) {refused : α} :
    Safe (txContract setup producer) (fun _ _ => True) (do
      let acquired ← claimReservationGuard producer
      if acquired then
        let result ← program
        endClaimReservation producer
        pure result
      else
        pure refused) state := by
  refine Safe.bind (txLawful setup producer) (unmoved_safe_any (unmoved_prepares producer
    (prepares_claimReservationGuard producer))) fun acquired _ _ _ => ?_
  split
  · exact Safe.bind (txLawful setup producer) (body _) fun result _ _ _ =>
      unmoved_safe_any (unmoved_prepares producer (.bind (prepares_endClaimReservation producer) fun _ => .ret _))
  · exact fun _ _ _ => trivial

theorem claim_safe (payloadLen : UInt32) (expiresAt : UInt64) (hasExpiry : Bool) :
    Safe (txContract setup producer) (fun _ _ => True) (claim setup producer payloadLen expiresAt hasExpiry)
      state := by
  unfold claim
  split
  · exact fun _ _ _ => trivial
  refine guarded_safe fun current => ?_
  split
  · exact fun _ _ _ => trivial
  · exact claimGuarded_safe _ _ _

theorem claimBatch_safe (payloadLen maxFrames : UInt32) (expiresAt : UInt64) (hasExpiry : Bool) :
    Safe (txContract setup producer) (fun _ _ => True)
      (claimBatch setup producer payloadLen maxFrames expiresAt hasExpiry) state := by
  unfold claimBatch
  split
  · exact fun _ _ _ => trivial
  refine guarded_safe fun current => ?_
  split
  · exact fun _ _ _ => trivial
  · exact claimBatchGuarded_safe _ _ _ _

/-- A transmitter that replaces one without open claims publishes from the tail on. -/
theorem createTx_safe (outside : (state.ring producer).claimActive = false)
    (committed : (state.tx producer).reservations = []) :
    Safe (txContract setup producer) (fun _ _ => True) (createTx setup producer) state := by
  refine Safe.load_bind (txLawful setup producer) fun first relyFirst ready => ?_
  have outside := (owned_claimActive relyFirst.owned).trans outside
  have announced : (first.ring producer).reservationPosition = (first.tx producer).producerPos :=
    (ready.knows.settled producer outside).position
  refine Safe.load_bind (txLawful setup producer) fun second relySecond ready => ?_
  refine Safe.store_bind fun third relyThird ready action => ⟨?_, action.1, ?_⟩
  · have commits : Commits producer third := ready.keeps
    have unmoved := (relySecond.trans relyThird).unmoved
    have none : (third.tx producer).openClaims = [] := by
      rw [Tx.openClaims, ((relyFirst.trans relySecond).trans relyThird).unmoved.reservations, committed, List.map_nil]
    have published : (third.tx producer).publishedPos = (third.tx producer).producerPos := by
      rcases commits.spans.ends with whole | ⟨span, member, -⟩
      · exact whole
      · rw [none] at member
        exact absurd member List.not_mem_nil
    have visible : (second.ring producer).visibleProducerPos = (third.tx producer).producerPos := by
      rw [← relyThird.unmoved.visible, commits.visible, published]
    refine ⟨?_, ?_, by simp⟩
    · simp only [State.setTx_ring, State.setTx_tx]
      rw [visible, ← published, commits.visible]
    · simp only [State.setTx_tx, Tx.openClaims, List.map_nil]
      rw [visible, announced, ← unmoved.producerPos]
      exact .empty _
  · split
    · exact unmoved_safe_any (.bind (unmoved_reads producer (reads_minimumConsumerMessageSequence setup producer))
        fun minimum => unmoved_prepares producer (prepares_waits producer
          (waits_setCachedConsumerMessageSequence producer minimum)))
    · exact fun _ _ _ => trivial

/-- Every claim of the producer is committed at most once, and a new transmitter replaces one without open
claims. -/
def CommitsOnce (producer : Fin n) (state : State n m K) : Thread n K → Request n → Prop
  | .producer other, .commit claim => other = producer →
      ∃ floor, (⟨.single claim, floor⟩ : Reservation) ∈ (state.tx producer).reservations
  | .producer other, .commitBatch batch => other = producer →
      ∃ floor, (⟨.batch batch, floor⟩ : Reservation) ∈ (state.tx producer).reservations
  | .producer other, .createTx => other = producer → (state.tx producer).reservations = []
  | _, _ => True

/-- The frames of a committed batch are shorter than 4 GiB. -/
def SmallBatch (producer : Fin n) : Thread n K → Request n → Prop
  | .producer other, .commitBatch batch => other = producer → frameLen batch.payloadLen batch.hasExpiry < 2 ^ 32
  | _, _ => True

theorem transmitter_safe {request : Request n} {program : Prog (State n m K) (Label n m)}
    (begins : startTransmitter setup producer request = some program) (commits : Commits producer state)
    (once : CommitsOnce producer state (.producer producer : Thread n K) request)
    (small : SmallBatch producer (.producer producer : Thread n K) request)
    (outside : (state.ring producer).claimActive = false) :
    Safe (txContract setup producer) (fun _ _ => True) program state := by
  have done {α : Type} {program : Prog (State n m K) α} {label : α → Label n m}
      (safe : Safe (txContract setup producer) (fun _ _ => True) program state) :
      Safe (txContract setup producer) (fun _ _ => True) (program.bind fun value => .ret (label value)) state :=
    Safe.bind (txLawful setup producer) safe fun _ _ _ _ => fun _ _ _ => trivial
  cases request with
  | claim payloadLen expiresAt hasExpiry =>
      cases begins
      exact done (claim_safe payloadLen expiresAt hasExpiry)
  | claimBatch payloadLen maxFrames expiresAt hasExpiry =>
      cases begins
      exact done (claimBatch_safe payloadLen maxFrames expiresAt hasExpiry)
  | write claimed offset data =>
      cases begins
      exact done (unmoved_safe_any (unmoved_writePayload setup producer claimed offset data))
  | commit claim =>
      cases begins
      obtain ⟨floor, held⟩ := once rfl
      exact done (commit_safe held)
  | commitBatch batch =>
      cases begins
      obtain ⟨floor, held⟩ := once rfl
      exact done (commitBatch_safe held (commits.sized _ held) (small rfl))
  | createTx =>
      cases begins
      exact done (createTx_safe outside (once rfl))
  | _ => cases begins

/-- The other threads leave the claims and commits of the producer alone. -/
theorem other_safe {thread : Thread n K} (other : thread ≠ .producer producer) {α : Type}
    {program : Prog (State n m K) α} :
    Safe ((Membership.extend setup (Commits producer)).contract thread) (fun _ _ => True) program state :=
  Safe.of_action fun {before after} ready action => by
    have rely := Membership.compatible other ⟨ready.knows, trivial, ready.may⟩ ⟨action.2, trivial, trivial⟩ action.1
    have rely : TxRely producer before after := rely
    exact ⟨rely.unmoved.commits ready.keeps, action.1⟩

theorem sound (setup : Setup n m K) (producer : Fin n) :
    (Membership.extend setup (Commits producer)).Sound (system setup) fun state thread _ request =>
      CommitsOnce producer state thread request ∧ SmallBatch producer thread request where
  lawful := Membership.extend_lawful
  compatible := Membership.extend_compatible
  start {thread label request program state} begins admitted ready rests _ := by
    by_cases own : thread = .producer producer
    · subst own
      match label, begins with
      | .transmitter last, begins => exact transmitter_safe begins ready.keeps admitted.1 admitted.2 rests
    · exact other_safe own

theorem begun (setup : Setup n m K) (producer : Fin n) :
    (Membership.extend setup (Commits producer)).Initial initial := by
  refine ⟨⟨rfl, .empty 0, nofun⟩, fun thread => ?_⟩
  cases thread <;> exact fun _ _ _ => trivial

/-- A process that has exited takes no step, and the claims of the producer are committed at most once. -/
def Admitted (setup : Setup n m K) (producer : Fin n)
    (config : Concurrent.Config (State n m K) (Thread n K) (Label n m)) (event : Event (Thread n K) (Request n)) :
    Prop :=
  Membership.Acts setup config event ∧
    ∀ thread request, event = .start thread request → CommitsOnce producer config.shared thread request

/-- No batch with a frame of 4 GiB or more is committed. -/
def Small (producer : Fin n) (event : Event (Thread n K) (Request n)) : Prop :=
  ∀ thread request, event = .start thread request → SmallBatch producer thread request

theorem of_run {config : Concurrent.Config (State n m K) (Thread n K) (Label n m)}
    (run : (system setup).Run (fun config event => Admitted setup producer config event ∧ Small producer event)
      initial config) : Commits producer config.shared :=
  ((sound setup producer).run (begun setup producer)
    (Membership.extend_knows (fun admitted => admitted.1.1) fun admitted _ =>
      ⟨admitted.1.2 _ _ rfl, admitted.2 _ _ rfl⟩) run).1

end CommitOrder

/-- The published position is the end of the longest prefix of the claimed bytes whose claims are all
committed, and the waiting spans cover the committed bytes beyond it. -/
structure PublishesPrefix (tx : Tx) (published : Nat) : Prop where
  claimed : published ≤ tx.producerPos
  committed : ∀ reservation ∈ tx.reservations, published ≤ reservation.claimed.start
  longest : published = tx.producerPos ∨ ∃ reservation ∈ tx.reservations, reservation.claimed.start = published
  sorted : Sorted tx.pendingCommits
  covers : ∀ position, Covers tx.pendingCommits position ↔ published ≤ position ∧ position < tx.producerPos ∧
    ∀ reservation ∈ tx.reservations, ¬ (reservation.claimed.start ≤ position ∧
      position < reservation.claimed.start + reservation.claimed.length)

/-- Whatever the order of the commits, they publish the committed prefix. -/
theorem publishes_prefix [DecidableEq K] {setup : Setup n m K} {producer : Fin n}
    {config : Concurrent.Config (State n m K) (Thread n K) (Label n m)}
    (run : (system setup).Run
      (fun config event => CommitOrder.Admitted setup producer config event ∧ CommitOrder.Small producer event)
      initial config) :
    PublishesPrefix (config.shared.tx producer) (config.shared.ring producer).visibleProducerPos := by
  obtain ⟨visible, spans, -⟩ := CommitOrder.of_run run
  have open_ (reservation : Reservation) (member : reservation ∈ (config.shared.tx producer).reservations) :
      (⟨reservation.claimed.start, reservation.claimed.start + reservation.claimed.length⟩ : CommitSpan) ∈
        (config.shared.tx producer).openClaims := List.mem_map.mpr ⟨reservation, member, rfl⟩
  rw [visible]
  refine ⟨spans.behind, fun reservation member => (spans.inside _ (open_ reservation member)).1, ?_, spans.sorted,
    fun position => ?_⟩
  · refine spans.ends.imp_right fun ⟨span, member, start⟩ => ?_
    obtain ⟨reservation, waits, rfl⟩ := List.mem_map.mp member
    exact ⟨reservation, waits, start⟩
  · rw [spans.covers]
    simp [Covers, Tx.openClaims]

section Runs

/-- The commits of a schedule answer open claims. -/
def answersClaims (config : Concurrent.Config (State 1 1 Unit) (Thread 1 Unit) (Label 1 1)) :
    Event (Thread 1 Unit) (Request 1) → Bool
  | .start _ (.commit claim) => (config.shared.tx sole).reservations.contains ⟨.single claim, 0⟩
  | .start _ (.commitBatch batch) => (config.shared.tx sole).reservations.contains ⟨.batch batch, 0⟩
  | .start _ .createTx => false
  | _ => config.shared.isRegisteredProcessAlive 1 1

theorem admitted_of_answersClaims (setup : Setup 1 1 Unit) (pid : setup.pid () = 1) (start : setup.processStart () = 1)
    (config : Concurrent.Config (State 1 1 Unit) (Thread 1 Unit) (Label 1 1))
    (event : Event (Thread 1 Unit) (Request 1)) (passes : answersClaims config event = true) :
    CommitOrder.Admitted setup 0 config event := by
  constructor
  · match event with
    | .start _ _ => trivial
    | .act (.producer _) => trivial
    | .act (.client ()) =>
        rw [Membership.Acts, State.lives, pid, start]
        exact passes
    | .act .environment => trivial
  · rintro thread request rfl
    cases thread with
    | producer other =>
        cases request with
        | commit claim => exact fun _ => ⟨0, List.contains_iff_mem.mp passes⟩
        | commitBatch batch => exact fun _ => ⟨0, List.contains_iff_mem.mp passes⟩
        | createTx => cases passes
        | _ => trivial
    | client other => trivial
    | environment => trivial

/-- No batch of the schedule has frames of 4 GiB. -/
def answersSmall (config : Concurrent.Config (State 1 1 Unit) (Thread 1 Unit) (Label 1 1))
    (event : Event (Thread 1 Unit) (Request 1)) : Bool :=
  answersClaims config event && match event with
    | .start _ (.commitBatch _) => false
    | _ => true

theorem small_of_answersSmall (config : Concurrent.Config (State 1 1 Unit) (Thread 1 Unit) (Label 1 1))
    (event : Event (Thread 1 Unit) (Request 1)) (passes : answersSmall config event = true) :
    CommitOrder.Small 0 event := by
  rintro thread request rfl
  cases thread with
  | producer other =>
      cases request with
      | commitBatch batch => simp [answersSmall] at passes
      | _ => trivial
  | client other => trivial
  | environment => trivial

/-- Two claims, and the commit of the second one. -/
def secondFirst : List (Event (Thread 1 Unit) (Request 1)) :=
  let claim := [.start (.producer sole) (.claim 8 0 false)] ++ List.replicate 8 (.act (.producer sole))
  claim ++ claim ++ [.start (.producer sole) (.commit ⟨16, 8, 259, 1, 0⟩), .act (.producer sole), .act (.producer sole)]

theorem publishes_prefix_secondFirst : ∃ config, (system (smallSetup .FifoMpsc 0)).Run (fun config event =>
      CommitOrder.Admitted (smallSetup .FifoMpsc 0) 0 config event ∧ CommitOrder.Small 0 event) initial config ∧
    (config.shared.tx 0).pendingCommits = [⟨16, 32⟩] ∧
    PublishesPrefix (config.shared.tx 0) (config.shared.ring 0).visibleProducerPos := by
  have executed : ((system (smallSetup .FifoMpsc 0)).execChecked answersSmall initial secondFirst).map
      (fun config => (config.shared.tx 0).pendingCommits) = some [⟨16, 32⟩] := by
    decide
  obtain ⟨config, final, pending⟩ := Option.map_eq_some_iff.mp executed
  have passes (config event) (passed : answersSmall config event = true) :
      CommitOrder.Admitted (smallSetup .FifoMpsc 0) 0 config event ∧ CommitOrder.Small 0 event :=
    ⟨admitted_of_answersClaims _ rfl rfl config event (Bool.and_eq_true_iff.mp passed).1,
      small_of_answersSmall config event passed⟩
  have run := Concurrent.System.run_of_execChecked passes secondFirst .refl final
  exact ⟨config, run, pending, publishes_prefix run⟩

/-- A ring of 8 GiB. -/
def largeSetup : Setup 1 1 Unit := {smallSetup .FifoMpsc 0 with
  capacity := 2 ^ 33
  validCapacity := by decide
  lowWindowFits := by decide}

/-- A batch of one frame of `2 ^ 32 + 8` bytes. -/
def largeBatch : List (Event (Thread 1 Unit) (Request 1)) :=
  [.start (.producer sole) (.claimBatch 4294967295 1 0 false)] ++ List.replicate 8 (.act (.producer sole)) ++
    [.start (.producer sole) (.commitBatch ⟨4294967304, 0, 8, 1, 4294967295, 0, false, 0⟩), .act (.producer sole),
      .act (.producer sole)]

/-- The commit of the large batch publishes eight bytes. -/
theorem large_batch_hidden : ∃ config,
    (system largeSetup).Run (CommitOrder.Admitted largeSetup 0) initial config ∧
      (config.shared.tx 0).reservations = [] ∧ (config.shared.tx 0).producerPos = 2 ^ 32 + 8 ∧
      (config.shared.ring 0).visibleProducerPos = 8 ∧
      ¬ PublishesPrefix (config.shared.tx 0) (config.shared.ring 0).visibleProducerPos := by
  have executed : ((system largeSetup).execChecked answersClaims initial largeBatch).map (fun config =>
      ((config.shared.tx 0).reservations, (config.shared.tx 0).producerPos,
        (config.shared.ring 0).visibleProducerPos)) = some ([], 2 ^ 32 + 8, 8) := by
    decide
  obtain ⟨config, final, facts⟩ := Option.map_eq_some_iff.mp executed
  simp only [Prod.mk.injEq] at facts
  obtain ⟨closed, tail, visible⟩ := facts
  have run := Concurrent.System.run_of_execChecked
    (admitted_of_answersClaims largeSetup rfl rfl) largeBatch .refl final
  refine ⟨config, run, closed, tail, visible, fun prefix_ => ?_⟩
  rcases prefix_.longest with whole | ⟨reservation, member, -⟩
  · rw [visible, tail] at whole
    exact absurd whole (by decide)
  · rw [closed] at member
    exact absurd member List.not_mem_nil

end Runs
end Salias.SharedHybridMpsc
