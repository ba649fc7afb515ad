import Salias.Channel.Eviction

/-
Every program of a producer keeps what its ring retains.
-/

namespace Salias.SharedHybridMpsc

open Concurrent Salias.Frame ConsumerRegistration

variable {n m : Nat} {K : Type} [DecidableEq K]

namespace Retention

variable {setup : Setup n m K} {producer : Fin n} {state : State n m K} {tail : Nat}

section Room

variable {per low : Nat} {bounds : Nat × Nat}

omit [DecidableEq K] in
/-- Room that a producer has stays while it prepares another write. -/
theorem Granted.prepares {length count : Nat} {before after : State n m K} (retains : Retains setup producer before)
    (granted : Granted setup producer length count before) (step : TxStep producer before after)
    (rises : Rises before after) (prepares : TxPrepares producer before after) :
    Granted setup producer length count after := by
  have tail : (after.tx producer).producerPos = (before.tx producer).producerPos := by rw [prepares.tx]
  have messages : (after.tx producer).messageSequence = (before.tx producer).messageSequence := by rw [prepares.tx]
  have floor := rises.floor producer
  have counts := rises.count producer
  have bytes := granted.bytes
  have barrier := retains.barrier
  have capacity := setup.retentionCapacity_le
  refine ⟨by omega, fun window => ?_, ?_, fun consumer active => ?_⟩
  · have room := granted.messages window
    omega
  · rw [tail]
    exact granted.bounded
  · rw [tail]
    have carries : Carries setup producer consumer before after := step.carries consumer
    rcases carries active with ⟨earlier, continues⟩ | spares
    · exact continues.spares (granted.yields consumer earlier)
    · exact spares _ (by omega)

/-- The result of a search for room: the tail stands, and a result that is not zero is granted. -/
structure Fits (setup : Setup n m K) (producer : Fin n) (tail per fit : Nat) (state : State n m K) : Prop where
  waiting : Waiting producer tail state
  granted : fit ≠ 0 → Granted setup producer (per * fit) fit state

omit [DecidableEq K] in
theorem Fits.passes {fit : Nat} {before after : State n m K} (retains : Retains setup producer after)
    (passes : Passes setup producer before after) (fits : Fits setup producer tail per fit before) :
    Fits setup producer tail per fit after :=
  ⟨fits.waiting.same passes.same, fun some => (fits.granted some).passes retains passes⟩

/-- One round of the binary search: the lower bound stays granted. -/
theorem longestPrefixRound_safe (positive : 0 < per) (entry : Fits setup producer tail per bounds.1 state) :
    Safe (txContract setup producer) (fun result current => match result with
        | .inl next => Fits setup producer tail per next.1 current
        | .inr stop => Fits setup producer tail per stop current)
      (longestPrefixRound setup producer tail per bounds) state := by
  unfold longestPrefixRound
  split
  · rename_i wide
    have some : 0 < per * (bounds.1 + (bounds.2 - bounds.1) / 2) := Nat.mul_pos positive (by omega)
    refine Safe.bind (txLawful setup producer) (Safe.beside (prepareDropOldestWrite_safe some entry.waiting)
      (prepares_prepareDropOldestWrite setup producer _ _ _)
      (I := fun state => bounds.1 ≠ 0 → Granted setup producer (per * bounds.1) bounds.1 state)
      (fun ready action guaranteed prepares held some =>
        Granted.prepares (ready.keeps producer) (held some) action.step guaranteed.rises prepares)
      (fun rely ready held some => (held some).passes (ready.keeps producer) (Spared.passes rely)) entry.granted)
      fun prepared current _ held => ?_
    obtain ⟨⟨waiting, granted⟩, lower⟩ := held
    cases prepared with
    | true => exact fun _ rely ready => Fits.passes (ready.keeps producer) (Spared.passes rely) ⟨waiting, fun _ => granted rfl⟩
    | false => exact fun _ rely ready => Fits.passes (ready.keeps producer) (Spared.passes rely) ⟨waiting, lower⟩
  · exact fun _ rely ready => entry.passes (ready.keeps producer) (Spared.passes rely)

theorem latestFit_safe {maxFrames : Nat} (positive : 0 < per) (one : per ≤ setup.retentionCapacity) (some : maxFrames ≠ 0)
    (entry : Waiting producer tail state) :
    Safe (txContract setup producer) (fun fit => Fits setup producer tail per fit)
      (latestFit setup producer tail per maxFrames) state := by
  unfold latestFit
  dsimp only
  have whole : 0 < min maxFrames (setup.retentionCapacity / per) :=
    Nat.lt_min.mpr ⟨Nat.pos_of_ne_zero some, Nat.div_pos one positive⟩
  generalize min maxFrames (setup.retentionCapacity / per) = most at whole ⊢
  have first : 0 < (if setup.publicationWindowMessages ≠ 0 then min most setup.publicationWindowMessages else most) := by
    split
    · rename_i window
      exact Nat.lt_min.mpr ⟨whole, Nat.pos_of_ne_zero window⟩
    · exact whole
  generalize (if setup.publicationWindowMessages ≠ 0 then min most setup.publicationWindowMessages else most) = fit at first ⊢
  refine Safe.bind (txLawful setup producer) (prepareDropOldestWrite_safe (Nat.mul_pos positive first) entry)
    fun prepared current _ held => ?_
  obtain ⟨waiting, granted⟩ := held
  split
  · rename_i done
    exact fun _ rely ready => Fits.passes (ready.keeps producer) (Spared.passes rely) ⟨waiting, fun _ => granted done⟩
  refine Safe.bind (txLawful setup producer) (Safe.repeatUntil (txLawful setup producer)
    (I := fun bounds => Fits setup producer tail per bounds.1) (S := fun stop => Fits setup producer tail per stop)
    (fun rely ready held => held.passes (ready.keeps producer) (Spared.passes rely)) (fun bounds current held => ?_)
    (fun rely ready held => held.passes (ready.keeps producer) (Spared.passes rely))
    ⟨waiting, fun none => absurd rfl none⟩) fun searched last _ held => ?_
  · refine Safe.weaken (longestPrefixRound_safe positive held) fun result _ _ held => ?_
    cases result <;> exact held
  · cases searched with
    | inl bounds =>
        have held : Fits setup producer tail per bounds.1 last := held
        exact fun _ rely ready => held.passes (ready.keeps producer) (Spared.passes rely)
    | inr found =>
        have held : Fits setup producer tail per found last := held
        exact fun _ rely ready => held.passes (ready.keeps producer) (Spared.passes rely)

/-- A single claim goes on when there is room for its frame. -/
theorem claimRoom_safe {need : Nat} (latest : setup.mode.dropOldest = true) (positive : 0 < need)
    (entry : Waiting producer tail state) :
    Safe (txContract setup producer) (fun room current => Waiting producer tail current ∧
        (room = .ok () → Granted setup producer need 1 current)) (claimRoom setup producer tail need) state := by
  unfold claimRoom
  rw [if_pos latest]
  split
  · exact fun _ rely _ => ⟨entry.same (Spared.passes rely).same, fun granted => by cases granted⟩
  refine Safe.bind (txLawful setup producer) (prepareDropOldestWrite_safe positive entry) fun prepared current _ held => ?_
  refine fun _ rely ready => ⟨held.1.same (Spared.passes rely).same, fun granted => ?_⟩
  cases prepared with
  | true => exact (held.2 rfl).passes (ready.keeps producer) (Spared.passes rely)
  | false => cases granted

/-- A batch goes on with as many frames as there is room for. -/
theorem batchRoom_safe {maxFrames : Nat} (latest : setup.mode.dropOldest = true) (positive : 0 < per)
    (some : maxFrames ≠ 0) (entry : Waiting producer tail state) :
    Safe (txContract setup producer) (fun room current => Waiting producer tail current ∧
        ∀ fit, room = .ok fit → Granted setup producer (per * fit) fit current)
      (batchRoom setup producer tail per maxFrames) state := by
  unfold batchRoom
  rw [if_pos latest]
  split
  · exact fun _ rely _ => ⟨entry.same (Spared.passes rely).same, fun _ granted => by cases granted⟩
  rename_i one
  refine Safe.bind (txLawful setup producer) (latestFit_safe positive (by omega) some entry) fun fit current _ held => ?_
  refine fun _ rely ready => ⟨held.waiting.same (Spared.passes rely).same, fun granted same => ?_⟩
  split at same
  · cases same
  · rename_i more
    cases same
    exact (held.granted more).passes (ready.keeps producer) (Spared.passes rely)

end Room

section Claim

/-- No floor is announced. -/
def Clear (producer : Fin n) (state : State n m K) : Prop := (state.ring producer).retentionIntent = kNoLease

omit [DecidableEq K] in
theorem Clear.same {before after : State n m K} (clear : Clear producer before) (same : SameRetention producer before after) :
    Clear producer after := same.retentionIntent.trans clear

/-- A program that moves no word of the retention ends without an announcement. -/
theorem clear_safe {α : Type} {program : Prog (State n m K) α} (each : Each (SameRetention producer) program)
    (clear : Clear producer state) :
    Safe (txContract setup producer) (fun _ => Clear producer) program state :=
  quiet_safe each (fun passes held => Clear.same held passes.same) clear

theorem clear_ret {α : Type} {value : α} (clear : Clear producer state) :
    Safe (txContract setup producer) (fun _ => Clear producer) (.ret value) state :=
  fun _ rely _ => clear.same (Spared.passes rely).same

omit [DecidableEq K] in
theorem same_publishReservation (sequence : Nat) :
    Each (SameRetention producer) (publishReservation producer sequence : Prog (State n m K) Unit) := by
  have words (change : State n m K → ProducerRing m → ProducerRing m)
      (same : ∀ state ring, (change state ring).visibleProducerPos = ring.visibleProducerPos ∧
        (change state ring).retainedPosition = ring.retainedPosition ∧
        (change state ring).retainedMessageSequence = ring.retainedMessageSequence ∧
        (change state ring).retentionIntent = ring.retentionIntent ∧ (change state ring).frames = ring.frames ∧
        (change state ring).writes = ring.writes) :
      Each (SameRetention producer) (Prog.store fun state : State n m K => state.setRing producer (change state)) := by
    refine .store fun state => ⟨?_, ?_, ?_, ?_, ?_, ?_, rfl, rfl⟩ <;> simp [same]
  exact .bind (words _ fun _ _ => ⟨rfl, rfl, rfl, rfl, rfl, rfl⟩) fun _ =>
    .bind (words _ fun _ _ => ⟨rfl, rfl, rfl, rfl, rfl, rfl⟩) fun _ =>
    words _ fun _ _ => ⟨rfl, rfl, rfl, rfl, rfl, rfl⟩

/-- The claim takes its frames at the tail, and it ends outside of the announcement. -/
theorem allocate_safe {need count payloadLen expiresAt : Nat} {hasExpiry : Bool} {claim : Nat → Claimed} {α : Type}
    {rest : Nat → Prog (State n m K) α} (waiting : Waiting producer tail state)
    (granted : Granted setup producer (need * count) count state)
    (each : ∀ sequence, Each (SameRetention producer) (rest sequence)) :
    Safe (txContract setup producer) (fun _ => Clear producer) ((Prog.modifyGet (State.nextSequence setup producer)
      (State.allocate setup producer tail need count payloadLen hasExpiry expiresAt claim)).bind rest) state := by
  refine Safe.modifyGet_bind fun current rely ready action => ?_
  have waiting := waiting.same (Spared.passes rely).same
  have granted := granted.passes (ready.keeps producer) (Spared.passes rely)
  have retains : Retains setup producer (current.allocate setup producer tail need count payloadLen hasExpiry expiresAt
      claim) := (ready.keeps producer).allocate waiting.stands waiting.clear granted
  have words := current.allocate_eq setup producer tail need count payloadLen hasExpiry expiresAt claim
  obtain ⟨kept, guaranteed⟩ := tx_acts ready action (by simp [words]) (by simp [words]) retains
  exact ⟨kept, guaranteed, clear_safe (each _) (by simp [Clear, words, waiting.clear])⟩

theorem claimGuarded_safe (latest : setup.mode.dropOldest = true) (payloadLen : UInt32) (expiresAt : UInt64)
    (hasExpiry : Bool) (clear : Clear producer state) :
    Safe (txContract setup producer) (fun _ => Clear producer)
      (claimGuarded setup producer payloadLen expiresAt hasExpiry) state := by
  refine Safe.load_bind (txLawful setup producer) fun first rely _ => ?_
  refine Safe.bind (txLawful setup producer) (claimRoom_safe latest (frameLen_pos _ _)
    ⟨clear.same (Spared.passes rely).same, rfl⟩) fun room current _ held => ?_
  cases room with
  | error error => exact clear_ret held.1.clear
  | ok done =>
      refine allocate_safe held.1 ?_ fun sequence => .bind (same_publishReservation _) fun _ => .ret _
      rw [Nat.mul_one]
      exact held.2 rfl

theorem claimBatchGuarded_safe (latest : setup.mode.dropOldest = true) {payloadLen maxFrames : UInt32}
    (some : maxFrames ≠ 0) (expiresAt : UInt64) (hasExpiry : Bool) (clear : Clear producer state) :
    Safe (txContract setup producer) (fun _ => Clear producer)
      (claimBatchGuarded setup producer payloadLen maxFrames expiresAt hasExpiry) state := by
  refine Safe.load_bind (txLawful setup producer) fun first rely _ => ?_
  have some : maxFrames.toNat ≠ 0 := fun none => some (UInt32.toNat_inj.mp none)
  refine Safe.bind (txLawful setup producer) (batchRoom_safe latest (frameLen_pos _ _) some
    ⟨clear.same (Spared.passes rely).same, rfl⟩) fun room current _ held => ?_
  cases room with
  | error error => exact clear_ret held.1.clear
  | ok fit =>
      exact allocate_safe held.1 (held.2 fit rfl) fun sequence => .bind (same_publishReservation _) fun _ => .ret _

theorem guarded_safe {α : Type} {program : Prog (State n m K) α} (clear : Clear producer state)
    (body : ∀ state, Clear producer state → Safe (txContract setup producer) (fun _ => Clear producer) program state)
    {refused : α} : Safe (txContract setup producer) (fun _ => Clear producer) (do
      let acquired ← claimReservationGuard producer
      if acquired then
        let result ← program
        endClaimReservation producer
        pure result
      else
        pure refused) state := by
  have enters : Each (SameRetention producer) (claimReservationGuard producer : Prog (State n m K) Bool) := by
    refine .modifyGet (fun state => ?_) _
    split
    · refine ⟨?_, ?_, ?_, ?_, ?_, ?_, rfl, rfl⟩ <;> simp
    · exact .refl producer state
  have leaves : Each (SameRetention producer) (endClaimReservation producer : Prog (State n m K) Unit) := by
    refine .store fun state => ⟨?_, ?_, ?_, ?_, ?_, ?_, rfl, rfl⟩ <;> simp
  refine Safe.bind (txLawful setup producer) (clear_safe enters clear) fun acquired _ _ clear => ?_
  split
  · exact Safe.bind (txLawful setup producer) (body _ clear) fun result _ _ clear =>
      clear_safe (.bind leaves fun _ => .ret _) clear
  · exact clear_ret clear

theorem claim_safe (latest : setup.mode.dropOldest = true) (payloadLen : UInt32) (expiresAt : UInt64)
    (hasExpiry : Bool) (clear : Clear producer state) :
    Safe (txContract setup producer) (fun _ => Clear producer) (claim setup producer payloadLen expiresAt hasExpiry)
      state := by
  unfold claim
  split
  · exact clear_ret clear
  refine guarded_safe clear fun current clear => ?_
  split
  · exact clear_ret clear
  · exact claimGuarded_safe latest _ _ _ clear

theorem claimBatch_safe (latest : setup.mode.dropOldest = true) (payloadLen maxFrames : UInt32) (expiresAt : UInt64)
    (hasExpiry : Bool) (clear : Clear producer state) :
    Safe (txContract setup producer) (fun _ => Clear producer)
      (claimBatch setup producer payloadLen maxFrames expiresAt hasExpiry) state := by
  unfold claimBatch
  split
  · exact clear_ret clear
  rename_i some
  refine guarded_safe clear fun current clear => ?_
  split
  · exact clear_ret clear
  · exact claimBatchGuarded_safe latest (fun none => some (.inl none)) _ _ clear

end Claim

section Commit

variable {claimed : Claimed}

omit [DecidableEq K] in
/-- A write between the published position and the tail. -/
theorem retains_write (retains : Retains setup producer state) {change : ProducerRing m → ProducerRing m}
    {position length : Nat} (changes : ∃ memory committed, change (state.ring producer) = {state.ring producer with
      memory := memory
      committed := committed
      writes := (position, length) :: (state.ring producer).writes})
    (beyond : (state.ring producer).visibleProducerPos ≤ position)
    (below : position + length ≤ (state.tx producer).producerPos) :
    Retains setup producer (state.setRing producer change) := by
  obtain ⟨memory, committed, changes⟩ := changes
  have frames : ((state.setRing producer change).ring producer).frames = (state.ring producer).frames := by simp [changes]
  refine ⟨?_, fun clear => ?_, ?_, ?_, ?_, ?_, retains.bounded, fun consumer active => ?_⟩
  · obtain ⟨count, place⟩ := retains.floor
    exact ⟨count, by simpa [changes] using place.congr frames⟩
  · have place := retains.counted (by simpa [changes] using clear)
    simpa [changes] using place.congr frames
  · simpa [changes] using retains.announced
  · simpa [changes] using retains.published
  · simpa [changes] using retains.bytes
  · simpa [changes] using retains.messages
  · have leased := retains.leases consumer active
    simp only [State.setRing_ring, State.setRing_tx, State.cursor, changes]
    exact leased.write rfl rfl rfl beyond below

/-- The claim is open, and no floor is announced. -/
structure Filling (producer : Fin n) (claimed : Claimed) (state : State n m K) : Prop where
  opened : OpenClaim producer claimed state
  clear : Clear producer state

theorem Filling.rely {before after : State n m K} (filling : Filling producer claimed before)
    (rely : (txContract setup producer).rely before after) : Filling producer claimed after := by
  refine ⟨?_, filling.clear.same (Spared.passes rely).same⟩
  have tx : after.tx producer = before.tx producer := rely.tx
  rw [OpenClaim, tx]
  exact filling.opened

/-- A write inside an open claim. -/
theorem write_acts {change : ProducerRing m → ProducerRing m} {position length : Nat}
    (ready : (txContract setup producer).Ready state)
    (action : (txContract setup producer).action state (state.setRing producer change))
    (filling : Filling producer claimed state) (changes : ∃ memory committed, change (state.ring producer) =
      {state.ring producer with
        memory := memory
        committed := committed
        writes := (position, length) :: (state.ring producer).writes})
    (above : claimed.start ≤ position) (below : position + length ≤ claimed.stop) :
    ((txContract setup producer).invariant (state.setRing producer change) ∧
      (txContract setup producer).guarantee state (state.setRing producer change)) ∧
      Filling producer claimed (state.setRing producer change) := by
  obtain ⟨reservation, member, rfl⟩ := filling.opened
  have commits := ready.knows.commits producer
  have inside := commits.spans.inside _ (List.mem_map_of_mem member)
  have visible := commits.visible
  have stop : reservation.claimed.stop ≤ (state.tx producer).producerPos := inside.2.2
  have retains := retains_write (ready.keeps producer) changes (by rw [visible]; exact inside.1.trans above) (below.trans stop)
  obtain ⟨memory, committed, changes⟩ := changes
  refine ⟨tx_acts ready action (by simp [changes]) (by simp [changes]) retains, ⟨reservation, member, rfl⟩, ?_⟩
  simpa [Clear, changes] using filling.clear

/-- The stores of one frame of an open claim. -/
theorem storeFrame_safe {frame : ClaimedFrame} (filling : Filling producer claimed state) (member : frame ∈ claimed.frames) :
    Safe (txContract setup producer) (fun _ => Filling producer claimed) (storeFrame setup producer frame) state := by
  have whole := frameLen_eq frame.payloadLen frame.hasExpiry
  have header := frameLen_ge frame.payloadLen frame.hasExpiry
  have inside {current : State n m K} (ready : (txContract setup producer).Ready current)
      (filling : Filling producer claimed current) : claimed.start ≤ frame.start ∧ frame.stop ≤ claimed.stop := by
    obtain ⟨reservation, opened, rfl⟩ := filling.opened
    exact ((ready.knows.contents producer).formed reservation opened).inside member
  refine Safe.bind (txLawful setup producer) (M := fun _ => Filling producer claimed) ?_ fun _ current _ filling => ?_
  · unfold Prog.when
    split
    · rename_i expires
      refine Safe.store_last fun current rely ready action => ?_
      have filling := filling.rely rely
      have within := inside ready filling
      have room : 16 ≤ frame.length := by
        rw [ClaimedFrame.length, whole, expires]
        exact Nat.le_add_right _ _
      obtain ⟨⟨kept, guaranteed⟩, later⟩ := write_acts ready action filling ⟨_, _, rfl⟩
        (within.1.trans (Nat.le_add_right _ _)) (by
          rw [Circular.length_encode, kHeaderSize]
          have stop : frame.start + frame.length ≤ claimed.stop := within.2
          omega)
      exact ⟨kept, guaranteed, fun _ rely _ => later.rely rely⟩
    · exact fun _ rely _ => filling.rely rely
  · refine Safe.store_last fun current rely ready action => ?_
    have filling := filling.rely rely
    have within := inside ready filling
    obtain ⟨⟨kept, guaranteed⟩, later⟩ := write_acts ready action filling ⟨_, _, rfl⟩ within.1 (by
      rw [Circular.length_encode]
      exact (Nat.add_le_add_left header _).trans within.2)
    exact ⟨kept, guaranteed, fun _ rely _ => later.rely rely⟩

omit [DecidableEq K] in
/-- A ring publishes more of its frames. -/
theorem retains_visible (retains : Retains setup producer state) {visible : Nat}
    (forward : (state.ring producer).visibleProducerPos ≤ visible) :
    Retains setup producer (state.setRing producer fun ring => {ring with visibleProducerPos := visible}) := by
  have frames : ((state.setRing producer fun ring => {ring with visibleProducerPos := visible}).ring producer).frames =
      (state.ring producer).frames := by simp
  refine ⟨?_, fun clear => ?_, ?_, ?_, ?_, ?_, retains.bounded, fun consumer active => ?_⟩
  · obtain ⟨count, place⟩ := retains.floor
    exact ⟨count, by simpa using place.congr frames⟩
  · have place := retains.counted (by simpa using clear)
    simpa using place.congr frames
  · simpa using retains.announced
  · simpa using retains.published.trans forward
  · simpa using retains.bytes
  · simpa using retains.messages
  · have leased := retains.leases consumer active
    simp only [State.setRing_ring, State.setRing_tx, State.cursor]
    exact leased.forward forward le_rfl rfl leased.spares

/-- A commit may publish more of the ring. -/
theorem publishContiguous_safe {start stop : Nat} (clear : Clear producer state) :
    Safe (txContract setup producer) (fun _ => Clear producer)
      (publishContiguous producer start stop : Prog (State n m K) Unit) state := by
  refine Safe.store_last fun current rely ready action => ?_
  have clear := clear.same (Spared.passes rely).same
  by_cases first : start = (current.tx producer).publishedPos
  · simp only [if_pos first] at action ⊢
    have visible := action.grows.visible producer
    have retains := ready.keeps producer
    have moved := retains_visible retains (by simpa using visible)
    obtain ⟨kept, guaranteed⟩ := tx_acts ready action (by simp) (by simp)
      (moved.same ⟨rfl, rfl, rfl, rfl, rfl, rfl, by simp, by simp⟩ fun consumer active => by
        simpa [State.cursor] using moved.leases consumer active)
    exact ⟨kept, guaranteed, clear_ret (by simpa [Clear] using clear)⟩
  have quiet {after : State n m K} (action : (txContract setup producer).action current after)
      (same : SameRetention producer current after) : (txContract setup producer).invariant after ∧
        (txContract setup producer).guarantee current after ∧
        Safe (txContract setup producer) (fun _ => Clear producer) (.ret ()) after := by
    obtain ⟨kept, guaranteed⟩ := quiet_acts ready action same
    exact ⟨kept, guaranteed, clear_ret (clear.same same)⟩
  by_cases later : (current.tx producer).publishedPos < start
  · simp only [if_neg first, if_pos later] at action ⊢
    exact quiet action ⟨rfl, rfl, rfl, rfl, rfl, rfl, by simp, by simp⟩
  · simp only [if_neg first, if_neg later] at action ⊢
    exact quiet action (.refl producer current)

theorem commit_safe {claim : Claim} (formed : (Claimed.single claim).Formed)
    (filling : Filling producer (.single claim) state) :
    Safe (txContract setup producer) (fun _ => Clear producer) (commit setup producer claim) state := by
  rw [commit_eq setup producer formed]
  exact Safe.bind (txLawful setup producer) (storeFrame_safe filling (List.mem_singleton_self _)) fun _ _ _ filling =>
    publishContiguous_safe filling.clear

theorem commitBatch_safe {batch : BatchClaim} (sized : (Claimed.batch batch).Sized)
    (small : frameLen batch.payloadLen batch.hasExpiry < 2 ^ 32) (filling : Filling producer (.batch batch) state) :
    Safe (txContract setup producer) (fun _ => Clear producer) (commitBatch setup producer batch) state := by
  unfold commitBatch
  rw [if_neg sized.2.2]
  refine Safe.bind (txLawful setup producer) (Safe.forEach (txLawful setup producer)
    (I := fun remaining state => (∀ index ∈ remaining, index < batch.frameCount) ∧ Filling producer (.batch batch) state)
    (fun rely _ held => ⟨held.1, held.2.rely rely⟩) (fun index rest current held => ?_)
    ⟨fun index member => List.mem_range.mp member, filling⟩) fun _ _ _ held => publishContiguous_safe held.2.clear
  rw [commitRound_eq setup producer sized small]
  refine Safe.weaken (storeFrame_safe held.2 (BatchClaim.mem_frames.mpr ⟨index, held.1 index List.mem_cons_self, rfl⟩))
    fun _ _ _ filling => ⟨fun other member => held.1 other (List.mem_cons_of_mem _ member), filling⟩

/-- The user writes inside the span of an open claim. -/
theorem writePayload_safe {offset : Nat} {data : List UInt8} (filling : Filling producer claimed state) :
    Safe (txContract setup producer) (fun _ => Clear producer) (writePayload setup producer claimed offset data) state := by
  refine Safe.store_last fun current rely ready action => ?_
  have filling := filling.rely rely
  split
  · rename_i fits
    simp only [if_pos fits] at action
    have within : claimed.start ≤ claimed.span.1 ∧ claimed.span.1 + claimed.span.2 ≤ claimed.stop := by
      cases claimed with
      | single claim =>
          have inside := payload_inside claim.payloadLen claim.hasExpiry
          simp only [Claimed.span, Claimed.stop, Claimed.start, Claimed.length]
          omega
      | batch batch => exact ⟨le_rfl, le_rfl⟩
    obtain ⟨⟨kept, guaranteed⟩, later⟩ := write_acts ready action filling ⟨_, _, rfl⟩ (by omega) (by omega)
    exact ⟨kept, guaranteed, clear_ret later.clear⟩
  · rename_i outside
    simp only [if_neg outside] at action
    obtain ⟨kept, guaranteed⟩ := quiet_acts ready action (.refl producer current)
    exact ⟨kept, guaranteed, clear_ret filling.clear⟩

/-- A transmitter that replaces one outside of a claim goes on at the same tail. -/
theorem createTx_safe (outside : (state.ring producer).claimActive = false) (clear : Clear producer state) :
    Safe (txContract setup producer) (fun _ => Clear producer) (createTx setup producer) state := by
  refine Safe.load_bind (txLawful setup producer) fun first relyFirst ready => ?_
  have outside := (owned_claimActive relyFirst.owned).trans outside
  have announced : (first.ring producer).reservationPosition = (first.tx producer).producerPos :=
    (ready.knows.membership.settled producer outside).position
  refine Safe.load_bind (txLawful setup producer) fun second relySecond ready => ?_
  refine Safe.store_bind fun third relyThird ready action => ?_
  have later := relySecond.toTxRely.trans relyThird.toTxRely
  have outside := (owned_claimActive later.owned).trans outside
  have counted : (third.ring producer).reservationMessageSequence = (third.tx producer).messageSequence :=
    (ready.knows.membership.settled producer outside).messages
  have position : (first.ring producer).reservationPosition = (third.tx producer).producerPos := by
    rw [announced, later.tx]
  obtain ⟨kept, guaranteed⟩ := quiet_acts ready action
    ⟨rfl, rfl, rfl, rfl, rfl, rfl, by simp [position], by simp [counted]⟩
  have clear : Clear producer third := ((clear.same (Spared.passes relyFirst).same).same (Spared.passes relySecond).same).same
    (Spared.passes relyThird).same
  refine ⟨kept, guaranteed, ?_⟩
  split
  · refine clear_safe (.bind (reads_same (reads_minimumConsumerMessageSequence setup producer)) fun minimum => ?_) clear
    exact .store fun state => ⟨rfl, rfl, rfl, rfl, rfl, rfl, by simp, by simp⟩
  · exact clear_ret clear

end Commit

/-- Every call of a transmitter that commits its open claims and writes inside them. -/
theorem transmitter_safe (latest : setup.mode.dropOldest = true) {request : Request n}
    {program : Prog (State n m K) (Label n m)} (begins : startTransmitter setup producer request = some program)
    (known : Published.Framed setup state) (once : CommitOrder.CommitsOnce producer state (.producer producer : Thread n K) request)
    (small : CommitOrder.SmallBatch producer (.producer producer : Thread n K) request)
    (inside : Contents.WritesInside producer state (.producer producer : Thread n K) request)
    (outside : (state.ring producer).claimActive = false) (clear : Clear producer state) :
    Safe (txContract setup producer) (fun _ => Clear producer) program state := by
  have done {α : Type} {program : Prog (State n m K) α} {label : α → Label n m}
      (safe : Safe (txContract setup producer) (fun _ => Clear producer) program state) :
      Safe (txContract setup producer) (fun _ => Clear producer) (program.bind fun value => .ret (label value)) state :=
    Safe.bind (txLawful setup producer) safe fun _ _ _ clear => clear_ret clear
  cases request with
  | claim payloadLen expiresAt hasExpiry =>
      cases begins
      exact done (claim_safe latest payloadLen expiresAt hasExpiry clear)
  | claimBatch payloadLen maxFrames expiresAt hasExpiry =>
      cases begins
      exact done (claimBatch_safe latest payloadLen maxFrames expiresAt hasExpiry clear)
  | write claimed offset data =>
      cases begins
      exact done (writePayload_safe ⟨inside rfl, clear⟩)
  | commit claim =>
      cases begins
      obtain ⟨floor, opened⟩ := once rfl
      exact done (commit_safe ((known.contents producer).formed _ opened) ⟨⟨_, opened, rfl⟩, clear⟩)
  | commitBatch batch =>
      cases begins
      obtain ⟨floor, opened⟩ := once rfl
      exact done (commitBatch_safe ((known.commits producer).sized _ opened) (small rfl) ⟨⟨_, opened, rfl⟩, clear⟩)
  | createTx =>
      cases begins
      exact done (createTx_safe outside clear)
  | _ => cases begins

end Retention

end Salias.SharedHybridMpsc
