import Salias.Channel.Resume
import Salias.Channel.Visible
import Salias.Channel.ContentsSafety
import Salias.Channel.FlowSafety
import Mathlib.Data.Finset.Prod
import Mathlib.Data.Finset.Card
import Mathlib.Data.Fintype.Basic
import Mathlib.Data.Fintype.Card
import Mathlib.Order.Interval.Finset.Nat

/-
A receiver that has read up to a frame boundary finds the next claimed frame of its ring. In an ordered mode the low
bits of a header decide whether this frame is the next one of the whole channel.
-/

namespace Salias.SharedHybridMpsc

open Concurrent Salias.Frame ConsumerRegistration

variable {n m : Nat} {K : Type}

/-- A message carries the fields of a claimed frame. -/
structure ClaimedFrame.ShownBy (frame : ClaimedFrame) (message : Message n) : Prop where
  position : message.position = frame.start
  nextPosition : message.nextPosition = frame.stop
  sequence : message.sequence = frame.sequence
  payloadPosition : message.payloadPosition = frame.start + payloadOffset frame.hasExpiry
  payloadLen : message.payloadLen = frame.payloadLen
  hasExpiry : hasFlag message.word FLAG_HAS_EXPIRY = frame.hasExpiry
  expiresAt : frame.hasExpiry = true → message.expiresAt = frame.expiresAt

/-- A frame is passed with its committed payload, or after its deadline. -/
def ClaimedFrame.PassedBy (frame : ClaimedFrame) (ring : ProducerRing m) (clock : Nat) : Passage n → Prop
  | .delivered message payload => frame.ShownBy message ∧ ring.committed frame.start = some payload
  | .expired message now => frame.ShownBy message ∧ frame.hasExpiry = true ∧ frame.expiresAt ≤ now ∧ now ≤ clock

namespace Published

/-- The claimed frame with a number is published. -/
def Frame (producer : Fin n) (index : Nat) (frame : ClaimedFrame) (state : State n m K) : Prop :=
  (state.ring producer).frames[index]? = some frame ∧ frame.stop ≤ (state.ring producer).visibleProducerPos

/-- A position is the end of a number of frames. -/
structure Place (producer : Fin n) (position count : Nat) (state : State n m K) : Prop where
  within : count ≤ (state.ring producer).frames.length
  offset : position = frameOffset (state.ring producer).frames count

/-- The counters of a receiver point to the next frames. In an ordered mode the frames before them are those below the
expected sequence. -/
structure Aligned (setup : Setup n m K) (turns : Turns n) (state : State n m K) : Prop where
  counted : setup.mode.ordered = false → ∀ producer, turns.sequences producer = turns.counts producer
  below : setup.mode.ordered = true → ∀ producer index, index < turns.counts producer →
    ∃ frame, (state.ring producer).frames[index]? = some frame ∧ frame.sequence < turns.expected
  taken : setup.mode.ordered = true → ∀ sequence, sequence < turns.expected →
    ∃ producer index frame, index < turns.counts producer ∧
      (state.ring producer).frames[index]? = some frame ∧ frame.sequence = sequence

section Window

/-- The other rings together hold fewer frames than one period of the low bits. -/
theorem lowWindow_lt (setup : Setup n m K) (ordered : setup.mode.ordered = true) :
    (n - 1) * (setup.capacity / kFrameAlign) < 2 ^ kSequenceLowBits := by
  have fits := setup.lowWindowFits
  simp only [ordered, if_true, sequenceLowWindowFits] at fits
  split at fits
  · cases fits
  split at fits
  · rename_i single
    have alone : n - 1 = 0 := by
      have one := beq_iff_eq.mp single
      omega
    rw [alone, Nat.zero_mul]
    decide
  simp only [Bool.and_eq_true, bne_iff_ne, ne_eq, decide_eq_true_eq] at fits
  obtain ⟨some, fewer⟩ := fits
  generalize setup.capacity / kFrameAlign = frames at some fewer ⊢
  -- the quotient rounds up, so one ring fewer stays below the period
  have rounded : (n - 1 + 1) * frames ≤ 1 <<< kSequenceLowBits + frames - 1 :=
    (Nat.le_div_iff_mul_le (Nat.pos_of_ne_zero some)).mp fewer
  rw [Nat.add_mul, Nat.one_mul, Nat.one_shiftLeft] at rounded
  omega

/-- Numbers that belong to one of a few places each, in one of the other rings, are few. -/
theorem length_le_of_places (producer : Fin n) {first last width : Nat} (place : Nat → Fin n × Nat)
    (apart : ∀ sequence, first ≤ sequence → sequence < last → (place sequence).1 ≠ producer ∧ (place sequence).2 < width)
    (injective : ∀ left right, first ≤ left → left < last → first ≤ right → right < last →
      place left = place right → left = right) : last - first ≤ (n - 1) * width := by
  have image : (Finset.Ico first last).card ≤ ((Finset.univ.erase producer) ×ˢ Finset.range width).card := by
    refine Finset.card_le_card_of_injOn place (fun sequence member => ?_) fun left inLeft right inRight same => ?_
    · obtain ⟨above, below⟩ := Finset.mem_Ico.mp member
      obtain ⟨other, within⟩ := apart sequence above below
      exact Finset.mem_product.mpr ⟨Finset.mem_erase.mpr ⟨other, Finset.mem_univ _⟩, Finset.mem_range.mpr within⟩
    · obtain ⟨above, below⟩ := Finset.mem_Ico.mp inLeft
      obtain ⟨above', below'⟩ := Finset.mem_Ico.mp inRight
      exact injective left right above below above' below' same
  rw [Nat.card_Ico, Finset.card_product, Finset.card_erase_of_mem (Finset.mem_univ _), Finset.card_univ,
    Fintype.card_fin, Finset.card_range] at image
  exact image

variable {setup : Setup n m K} {state : State n m K} {turns : Turns n}

/-- Later frames of a ring have larger sequences. -/
theorem numbered_lt (numbered : Numbered state) {producer : Fin n} {first second : Nat} {left right : ClaimedFrame}
    (one : (state.ring producer).frames[first]? = some left) (two : (state.ring producer).frames[second]? = some right)
    (ordered : first < second) : left.sequence < right.sequence := by
  obtain ⟨firstBelow, rfl⟩ := List.getElem?_eq_some_iff.mp one
  obtain ⟨secondBelow, rfl⟩ := List.getElem?_eq_some_iff.mp two
  exact List.pairwise_iff_getElem.mp (numbered.increasing producer) first second firstBelow secondBelow ordered

/-- A sequence at or above the expected one belongs to a frame that is not counted yet. -/
theorem Aligned.uncounted (aligned : Aligned setup turns state) (ordered : setup.mode.ordered = true)
    {producer : Fin n} {index : Nat} {frame : ClaimedFrame} (found : (state.ring producer).frames[index]? = some frame)
    (above : turns.expected ≤ frame.sequence) : turns.counts producer ≤ index := by
  by_contra earlier
  obtain ⟨other, same, below⟩ := aligned.below ordered producer index (by omega)
  rw [found] at same
  cases same
  omega

/-- The next frame of a ring is not below the expected sequence. -/
theorem Aligned.expected_le (aligned : Aligned setup turns state) (ordered : setup.mode.ordered = true)
    (numbered : Numbered state) {producer : Fin n} {frame : ClaimedFrame}
    (next : (state.ring producer).frames[turns.counts producer]? = some frame) : turns.expected ≤ frame.sequence := by
  by_contra below
  obtain ⟨owner, index, other, counted, found, same⟩ := aligned.taken ordered frame.sequence (by omega)
  have own : owner = producer := numbered.apart owner producer other (List.mem_of_getElem? found) frame
    (List.mem_of_getElem? next) same
  subst own
  have less := numbered_lt numbered found next counted
  omega

/-- The low bits tell the next frame of the channel from all frames that a ring may show instead. -/
theorem Aligned.sequence_eq (aligned : Aligned setup turns state) (ordered : setup.mode.ordered = true)
    (numbered : Numbered state) {producer : Fin n} {frame : ClaimedFrame}
    (next : (state.ring producer).frames[turns.counts producer]? = some frame)
    (room : ∀ other, (state.ring other).frames.length ≤ turns.counts other + setup.capacity / kFrameAlign)
    (low : sequenceLow frame.sequence = sequenceLow turns.expected) : frame.sequence = turns.expected := by
  have above := aligned.expected_le ordered numbered next
  by_contra later
  -- each sequence between the two belongs to an uncounted frame of another ring
  have owned (sequence : Nat) : ∃ place : Fin n × Nat, turns.expected ≤ sequence → sequence < frame.sequence →
      ∃ other, (state.ring place.1).frames[turns.counts place.1 + place.2]? = some other ∧ other.sequence = sequence := by
    by_cases between : turns.expected ≤ sequence ∧ sequence < frame.sequence
    · have claimed := numbered.below producer frame (List.mem_of_getElem? next)
      obtain ⟨owner, other, member, same⟩ := numbered.taken sequence (by omega)
      obtain ⟨index, found⟩ := List.getElem?_of_mem member
      have uncounted := aligned.uncounted ordered found (by omega)
      exact ⟨(owner, index - turns.counts owner), fun _ _ => ⟨other, by rw [Nat.add_sub_cancel' uncounted]; exact found, same⟩⟩
    · exact ⟨(producer, 0), fun first last => absurd ⟨first, last⟩ between⟩
  choose place holds using owned
  have few : frame.sequence - turns.expected ≤ (n - 1) * (setup.capacity / kFrameAlign) :=
    length_le_of_places producer place (fun sequence first last => ?_) fun left right first last first' last' same => ?_
  · have window := lowWindow_lt setup ordered
    rw [sequenceLow_eq, sequenceLow_eq] at low
    rw [kSequenceLowBits] at window
    omega
  · obtain ⟨other, found, same⟩ := holds sequence first last
    obtain ⟨below, -⟩ := List.getElem?_eq_some_iff.mp found
    refine ⟨fun own => ?_, by have := room (place sequence).1; omega⟩
    rw [own] at found
    rcases Nat.eq_zero_or_pos (place sequence).2 with zero | positive
    · rw [zero, Nat.add_zero, next] at found
      cases found
      omega
    · have less := numbered_lt numbered next found (by omega)
      omega
  · obtain ⟨one, found, rfl⟩ := holds left first last
    obtain ⟨two, found', rfl⟩ := holds right first' last'
    rw [same, found'] at found
    cases found
    rfl

end Window

section Knowledge

/-- What earlier proofs know of every state of a channel. -/
structure Framed (setup : Setup n m K) (state : State n m K) : Prop where
  membership : Membership setup state
  commits : ∀ producer, Commits producer state
  contents : ∀ producer, Contents setup producer state

/-- What they know of every state of a reliable channel. -/
structure Known (setup : Setup n m K) (size : Option UInt32) (state : State n m K) : Prop extends
    Framed setup state where
  flow : Flow setup state
  fits : ∀ producer, ∀ frame ∈ (state.ring producer).frames, frame.Fits size

/-- A ring has been visible up to a position, which is the end of a frame. -/
def Seen (producer : Fin n) (bound : Nat) (state : State n m K) : Prop :=
  ∃ count, Place producer bound count state ∧ bound ≤ (state.ring producer).visibleProducerPos

variable {setup : Setup n m K} {size : Option UInt32} {state : State n m K} {producer : Fin n} {consumer : Fin m}
  {position count bound : Nat} {frame : ClaimedFrame}

theorem Frame.member (published : Frame producer count frame state) : frame ∈ (state.ring producer).frames :=
  List.mem_of_getElem? published.1

theorem Framed.chained (known : Framed setup state) (producer : Fin n) : Chained (state.ring producer).frames :=
  (known.membership.exact producer).chained

/-- The frame with a number lies between the places around it. -/
theorem Framed.bounds (known : Framed setup state) (found : (state.ring producer).frames[count]? = some frame) :
    Place producer frame.start count state ∧ Place producer frame.stop (count + 1) state := by
  obtain ⟨below, rfl⟩ := List.getElem?_eq_some_iff.mp found
  exact ⟨⟨below.le, known.chained producer count below⟩, below, (known.chained producer).stop below⟩

/-- A place is the start of one frame only. -/
theorem Framed.count_eq (known : Framed setup state) (found : (state.ring producer).frames[count]? = some frame)
    {other : Nat} (place : Place producer frame.start other state) : other = count := by
  obtain ⟨start, -⟩ := known.bounds found
  exact Circular.offset_injective ClaimedFrame.length_pos place.within start.within (place.offset.symm.trans start.offset)

/-- A published position ends a frame. -/
theorem Framed.visible (known : Framed setup state) (producer : Fin n) :
    Seen producer (state.ring producer).visibleProducerPos state := by
  have commits := known.commits producer
  rw [Seen, commits.visible]
  rcases commits.spans.ends with whole | ⟨span, member, start⟩
  · exact ⟨_, ⟨le_rfl, whole.trans (known.membership.exact producer).position⟩, le_rfl⟩
  · obtain ⟨reservation, waits, rfl⟩ := List.mem_map.mp member
    have formed := (known.contents producer).formed reservation waits
    obtain ⟨frame, present, above, -⟩ := formed.covers reservation.claimed.start le_rfl formed.proper
    have inside := (formed.inside present).1
    obtain ⟨index, found⟩ := List.getElem?_of_mem ((known.contents producer).backed reservation waits frame present)
    refine ⟨index, ?_, le_rfl⟩
    rw [← start, show reservation.claimed.start = frame.start by omega]
    exact (known.bounds found).1

/-- Before a seen position there is one more frame. -/
theorem Framed.next (known : Framed setup state) (place : Place producer position count state)
    (seen : Seen producer bound state) (before : position < bound) :
    ∃ frame, Frame producer count frame state ∧ frame.start = position := by
  obtain ⟨last, ⟨within, rfl⟩, visible⟩ := seen
  obtain ⟨inside, rfl⟩ := place
  have less : count < last := (Circular.offset_lt_iff ClaimedFrame.length_pos within).mp before
  have below : count < (state.ring producer).frames.length := by omega
  have stop := (known.chained producer).stop below
  have later : frameOffset (state.ring producer).frames (count + 1) ≤ frameOffset (state.ring producer).frames last :=
    Circular.offset_mono _ _ less
  exact ⟨_, ⟨List.getElem?_eq_getElem below, by omega⟩, known.chained producer count below⟩

/-- The memory holds a published frame that the tail has not lapped. -/
theorem Framed.complete (known : Framed setup state) (published : Frame producer count frame state)
    (resident : (state.tx producer).producerPos ≤ frame.start + setup.capacity) :
    Complete setup (state.ring producer) frame := by
  refine (known.contents producer).complete frame published.member resident fun reservation waits => .inl ?_
  have commits := known.commits producer
  have inside := (commits.spans.inside _ (List.mem_map_of_mem waits)).1
  have visible := published.2
  rw [commits.visible] at visible
  exact visible.trans inside

/-- The memory holds a published frame that a live consumer has not passed. -/
theorem Known.complete (known : Known setup size state) (live : state.slotLive consumer)
    (published : Frame producer count frame state) (behind : (state.cursor producer consumer).position ≤ frame.start) :
    Complete setup (state.ring producer) frame := by
  have room : (state.tx producer).producerPos ≤ (state.cursor producer consumer).position + setup.effectiveCapacity :=
    (known.flow .bytes trivial producer consumer live).room
  have capacity := setup.effectiveCapacity_le
  exact known.toFramed.complete published (by omega)

/-- A live consumer leaves less than one capacity of frames behind. -/
theorem Known.room (known : Known setup size state) (live : state.slotLive consumer)
    (place : Place producer position count state) (behind : (state.cursor producer consumer).position ≤ position) :
    (state.ring producer).frames.length ≤ count + setup.capacity / kFrameAlign := by
  have room : (state.tx producer).producerPos ≤ (state.cursor producer consumer).position + setup.effectiveCapacity :=
    (known.flow .bytes trivial producer consumer live).room
  have capacity := setup.effectiveCapacity_le
  have tail : (state.tx producer).producerPos = frameOffset (state.ring producer).frames (state.ring producer).frames.length :=
    (known.membership.exact producer).position
  have least (frame : ClaimedFrame) : 8 ≤ frame.length := frameLen_ge _ _
  have frames : frameOffset (state.ring producer).frames count + 8 * ((state.ring producer).frames.length - count) ≤
      frameOffset (state.ring producer).frames (state.ring producer).frames.length :=
    Circular.offset_add_le least place.within le_rfl
  have start := place.offset
  rw [kFrameAlign]
  omega

end Knowledge

section Looking

variable {setup : Setup n m K} {size fixed : Option UInt32} {first second state : State n m K} {producer : Fin n}
  {consumer : Fin m} {target count : Nat} {frame : ClaimedFrame} {message : Message n} {turns : Turns n}

/-- A message shows the published frame with a number. -/
def Shows (message : Message n) (count : Nat) (state : State n m K) : Prop :=
  ∃ frame, Frame message.producerId count frame state ∧ frame.ShownBy message

/-- A look reads the metadata of a complete frame. -/
theorem word_parse (complete : Complete setup (first.ring producer) frame) (small : frame.payloadLen < 2 ^ 32) :
    (Message.parse setup first second producer frame.start target fixed).word =
      frameMeta frame.sequence frame.hasExpiry := by
  show headerMeta (Circular.loadWord _ _ _) = _
  rw [complete.header, headerMeta_packHeader small]

/-- A look at a complete frame shows it, once the sequence is right. -/
theorem shownBy_parse (one : Complete setup (first.ring producer) frame) (two : Complete setup (second.ring producer) frame)
    (small : frame.payloadLen < 2 ^ 32) (fits : frame.Fits fixed) (right : frame.sequence = target) :
    frame.ShownBy (Message.parse setup first second producer frame.start target fixed) := by
  subst right
  have word := headerMeta_packHeader small
  have length (word : Nat) : payloadLength fixed (packHeader frame.payloadLen word) = frame.payloadLen := by
    cases fixed with
    | none => exact headerPayloadLen_packHeader small _
    | some bytes => exact (fits bytes rfl).symm
  constructor
  case expiresAt =>
    intro expires
    simp [Message.parse, one.header, word, expires, two.expiry expires]
  all_goals simp [Message.parse, one.header, word, length, ClaimedFrame.stop, ClaimedFrame.length]

/-- The receiver that has read up to a frame boundary of each ring finds the next frame. -/
theorem Known.found (known : Known setup size first) (later : Known setup size second)
    (keeps : ∀ {producer index frame}, Frame producer index frame first → Frame producer index frame second)
    (live : first.slotLive consumer) (lives : second.slotLive consumer)
    (cursor : ∀ producer, second.cursor producer consumer = first.cursor producer consumer) {bound : Nat}
    {positions : Fin n → Nat} (behind : ∀ other, (first.cursor other consumer).position ≤ positions other)
    (places : ∀ other, Place other (positions other) (turns.counts other) first) (aligned : Aligned setup turns first)
    (seen : Seen producer bound first) (sized : ∀ bytes, fixed = some bytes → size = some bytes)
    (low : sequenceLowFromMeta (Message.parse setup first second producer (positions producer)
      (turns.target setup producer) fixed).word = sequenceLow (turns.target setup producer))
    (before : positions producer < bound) :
    Shows (Message.parse setup first second producer (positions producer) (turns.target setup producer) fixed)
      (turns.counts producer) second := by
  obtain ⟨frame, published, start⟩ := known.next (places producer) seen before
  have passed := behind producer
  have exact := known.membership.exact producer
  have complete := known.complete live published (start ▸ passed)
  have complete' := later.complete lives (keeps published) (by rw [cursor, start]; exact passed)
  have small := (exact.valid frame published.member).payloadLen
  have fits : frame.Fits fixed := fun bytes same => known.fits producer frame published.member bytes (sized bytes same)
  have right : frame.sequence = turns.target setup producer := by
    rw [← start, word_parse complete small, sequenceLowFromMeta_frameMeta] at low
    by_cases ordered : setup.mode.ordered = true
    · rw [Turns.target, if_pos ordered] at low ⊢
      exact aligned.sequence_eq ordered (known.membership.numbered ordered) published.1
        (fun other => known.room live (places other) (behind other)) low
    · have fifo : setup.mode.ordered = false := by simpa using ordered
      rw [Turns.target, if_neg ordered, aligned.counted fifo]
      obtain ⟨below, rfl⟩ := List.getElem?_eq_some_iff.mp published.1
      exact exact.numbered fifo _ below
  rw [← start]
  exact ⟨frame, keeps published, shownBy_parse complete complete' small fits right⟩

/-- The counters move past the next frame. -/
theorem Known.turn (known : Known setup size state) (shows : Shows message (turns.counts message.producerId) state)
    (aligned : Aligned setup turns state) (next : message.sequence = turns.target setup message.producerId) :
    Place message.producerId message.nextPosition (turns.counts message.producerId + 1) state ∧
      Aligned setup (turns.advance setup message) state := by
  obtain ⟨frame, published, shown⟩ := shows
  refine ⟨shown.nextPosition ▸ (known.bounds published.1).2, fun fifo producer => ?_, fun ordered producer index below => ?_,
    fun ordered sequence below => ?_⟩
  · simp only [Turns.target, fifo, Bool.false_eq_true, if_false] at next
    simp only [Turns.advance, fifo, Bool.false_eq_true, if_false]
    by_cases own : producer = message.producerId
    · subst own
      simp [next, aligned.counted fifo]
    · simpa [own] using aligned.counted fifo producer
  · simp only [Turns.target, ordered, if_true] at next
    simp only [Turns.advance, ordered, if_true] at below ⊢
    have within : index < turns.counts producer ∨ producer = message.producerId ∧ index = turns.counts producer := by
      by_cases own : producer = message.producerId
      · subst own
        simp only [Function.update_self] at below
        omega
      · exact .inl (by simpa [own] using below)
    rcases within with earlier | ⟨rfl, rfl⟩
    · obtain ⟨other, found, less⟩ := aligned.below ordered producer index earlier
      exact ⟨other, found, by omega⟩
    · exact ⟨frame, published.1, by rw [← shown.sequence]; omega⟩
  · simp only [Turns.target, ordered, if_true] at next
    simp only [Turns.advance, ordered, if_true] at below ⊢
    by_cases last : sequence = message.sequence
    · exact ⟨message.producerId, _, frame, by simp, published.1, by rw [← shown.sequence, last]⟩
    · obtain ⟨producer, index, other, counted, found, same⟩ := aligned.taken ordered sequence (by omega)
      refine ⟨producer, index, other, ?_, found, same⟩
      by_cases own : producer = message.producerId
      · subst own
        simp only [Function.update_self]
        omega
      · simpa [own] using counted

end Looking

section Growth

variable {setup : Setup n m K} {before after first state : State n m K} {producer : Fin n} {position count : Nat}
  {frame : ClaimedFrame} {message : Message n} {turns : Turns n}

/-- A passage passes the published frame with a number. -/
def Tells (producer : Fin n) (index : Nat) (passage : Passage n) (state : State n m K) : Prop :=
  ∃ frame, Frame producer index frame state ∧ frame.PassedBy (state.ring producer) state.clock passage

/-- The rings publish more frames and keep the published ones. -/
structure Grows (before after : State n m K) : Prop where
  frames : ∀ producer, (before.ring producer).frames <+: (after.ring producer).frames
  visible : ∀ producer, (before.ring producer).visibleProducerPos ≤ (after.ring producer).visibleProducerPos
  settled : ∀ producer, Settles producer before after
  clock : before.clock ≤ after.clock

theorem Grows.refl (state : State n m K) : Grows state state :=
  ⟨fun _ => List.prefix_refl _, fun _ => le_rfl, fun _ _ _ => rfl, le_rfl⟩

theorem Grows.trans {middle : State n m K} (one : Grows before middle) (two : Grows middle after) : Grows before after where
  frames producer := (one.frames producer).trans (two.frames producer)
  visible producer := (one.visible producer).trans (two.visible producer)
  settled producer position below :=
    (two.settled producer position (below.trans_le (one.visible producer))).trans (one.settled producer position below)
  clock := one.clock.trans two.clock

theorem getElem?_grows (grows : (before.ring producer).frames <+: (after.ring producer).frames) {index : Nat}
    (found : (before.ring producer).frames[index]? = some frame) : (after.ring producer).frames[index]? = some frame := by
  obtain ⟨below, rfl⟩ := List.getElem?_eq_some_iff.mp found
  rw [List.prefix_iff_getElem?] at grows
  exact grows index below

theorem Frame.grows (published : Frame producer count frame before) (grows : Grows before after) :
    Frame producer count frame after :=
  ⟨getElem?_grows (grows.frames producer) published.1, published.2.trans (grows.visible producer)⟩

theorem Place.grows (place : Place producer position count before)
    (grows : (before.ring producer).frames <+: (after.ring producer).frames) : Place producer position count after := by
  obtain ⟨within, offset⟩ := place
  refine ⟨within.trans grows.length_le, ?_⟩
  obtain ⟨more, same⟩ := grows
  rw [← same]
  exact offset.trans (Circular.offset_append _ more within).symm

theorem Aligned.grows (aligned : Aligned setup turns before)
    (grows : ∀ producer, (before.ring producer).frames <+: (after.ring producer).frames) : Aligned setup turns after where
  counted := aligned.counted
  below ordered producer index below := by
    obtain ⟨frame, found, less⟩ := aligned.below ordered producer index below
    exact ⟨frame, getElem?_grows (grows producer) found, less⟩
  taken ordered sequence below := by
    obtain ⟨producer, index, frame, counted, found, same⟩ := aligned.taken ordered sequence below
    exact ⟨producer, index, frame, counted, getElem?_grows (grows producer) found, same⟩

theorem Seen.grows {bound : Nat} (seen : Seen producer bound before) (grows : Grows before after) :
    Seen producer bound after := by
  obtain ⟨count, place, visible⟩ := seen
  exact ⟨count, place.grows (grows.frames producer), visible.trans (grows.visible producer)⟩

theorem Shows.grows (shows : Shows message count before) (grows : Grows before after) : Shows message count after := by
  obtain ⟨frame, published, shown⟩ := shows
  exact ⟨frame, published.grows grows, shown⟩

/-- The payloads of published frames and past readings of the clock stay. -/
theorem Tells.grows {passage : Passage n} (tells : Tells producer count passage before) (grows : Grows before after) :
    Tells producer count passage after := by
  obtain ⟨frame, published, passed⟩ := tells
  refine ⟨frame, published.grows grows, ?_⟩
  cases passage with
  | delivered message payload =>
      have proper := frame.start_lt_stop
      have below := published.2
      exact ⟨passed.1, (grows.settled producer frame.start (by omega)).trans passed.2⟩
  | expired message now => exact ⟨passed.1, passed.2.1, passed.2.2.1, passed.2.2.2.trans grows.clock⟩

/-- A fresh slot starts at the ends of all claimed frames. -/
theorem place_fresh {client : K} {consumer : Fin m} (fresh : Fresh setup client first consumer)
    (membership : Membership setup first) (unclaimed : first.unclaimed) (producer : Fin n) :
    Place producer (first.cursor producer consumer).position (first.cursor producer consumer).messageSequence first ∧
      (first.cursor producer consumer).messageSequence = (first.ring producer).frames.length := by
  have exact := membership.exact producer
  have settled := membership.settled producer (unclaimed producer)
  have messages : (first.cursor producer consumer).messageSequence = (first.ring producer).frames.length := by
    rw [fresh.cursor]
    exact settled.messages.trans exact.messages
  refine ⟨⟨messages.le, ?_⟩, messages⟩
  rw [messages, fresh.cursor]
  exact settled.position.trans exact.position

theorem aligned_fresh {client : K} {consumer : Fin m} (fresh : Fresh setup client first consumer)
    (membership : Membership setup first) (unclaimed : first.unclaimed) :
    Aligned setup (first.begunTurns setup consumer) first where
  counted fifo producer := by
    have exact := membership.exact producer
    have settled := membership.settled producer (unclaimed producer)
    show (first.cursor producer consumer).sequence = (first.cursor producer consumer).messageSequence
    rw [(place_fresh fresh membership unclaimed producer).2, fresh.cursor]
    simp only [announcedCursor, fifo, Bool.false_eq_true, if_false]
    exact (settled.sequence fifo).trans (exact.counted fifo).1
  below ordered producer index below := by
    have whole := (place_fresh fresh membership unclaimed producer).2
    have within : index < (first.ring producer).frames.length := whole ▸ below
    refine ⟨_, List.getElem?_eq_getElem within, ?_⟩
    simp only [State.begunTurns, ordered, if_true, fresh.expected ordered]
    exact (membership.numbered ordered).below producer _ (List.getElem_mem within)
  taken ordered sequence below := by
    simp only [State.begunTurns, ordered, if_true, fresh.expected ordered] at below
    obtain ⟨producer, frame, member, same⟩ := (membership.numbered ordered).taken sequence below
    obtain ⟨index, within, rfl⟩ := List.mem_iff_getElem.mp member
    have whole := (place_fresh fresh membership unclaimed producer).2
    exact ⟨producer, index, _, show index < (first.cursor producer consumer).messageSequence from whole ▸ within,
      List.getElem?_eq_getElem within, same⟩

/-- A new registration starts at the ends of the frames of before. -/
theorem begun {client : K} {consumer : Fin m} {token : Nat}
    (begun : Membership.Begun setup client consumer token state) :
    (∀ producer, Place producer (state.cursor producer consumer).position
        (state.cursor producer consumer).messageSequence state) ∧
      Aligned setup (state.begunTurns setup consumer) state ∧
      ∀ producer, (state.client client).registeredAt producer = (state.cursor producer consumer).messageSequence := by
  obtain ⟨first, fresh, membership, unclaimed, same, ⟨cursor, expected⟩, grows⟩ := begun.start
  have turns : state.begunTurns setup consumer = first.begunTurns setup consumer := by
    simp only [State.begunTurns, cursor, expected]
  refine ⟨fun producer => ?_, turns ▸ (aligned_fresh fresh membership unclaimed).grows grows, fun producer => ?_⟩
  · rw [cursor]
    exact (place_fresh fresh membership unclaimed producer).1.grows (grows producer)
  · rw [same, cursor, (place_fresh fresh membership unclaimed producer).2, fresh.begun]

end Growth

end Published

end Salias.SharedHybridMpsc
