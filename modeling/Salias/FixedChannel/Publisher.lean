import Salias.FastRing.Delivery

/-
The publishers of fixed channels. A claim is an object of the user, and the producer of the ring knows only that
one of them is outstanding.
-/

namespace Salias.FixedChannel

open Concurrent FastRing

/-- The errors of a fixed endpoint. -/
inductive Error where
  | BackPressured
  | BadConfig
  deriving DecidableEq

def mapFixedRingError : FastRingError → Error
  | .BackPressured => .BackPressured
  | .Empty | .ClaimOutstanding | .ReadOutstanding | .NoOutstandingClaim | .NoOutstandingRead => .BadConfig

/-- A slot of a lane by its position, and the channel of the lane. -/
structure Reservation (K : Type) (p : Nat) where
  channel : K
  lane : Fin p
  position : Nat
  deriving DecidableEq

/-- The pointers of a claim are null when it has been moved from, and its span is empty when it has been committed.
`reserved` is history: the slot that the claim has reserved. -/
structure FixedPublishClaim (K : Type) (p : Nat) where
  owner : Option K := none
  producer : Option (K × Fin p) := none
  payload : Option Nat := none
  reserved : Option (Reservation K p) := none

/-- A published slot and, when a claim was committed, what that claim had reserved. -/
structure Publication (K : Type) (p : Nat) where
  slot : Reservation K p
  claim : Option (Reservation K p)
  deriving DecidableEq

/-- Several channels and the claim variables of their users. `granted` and `published` are history. -/
structure State (K : Type) (p c : Nat) where
  ring : K → FastRing.State p c
  claim : Nat → FixedPublishClaim K p := fun _ => {}
  granted : List (Reservation K p) := []
  published : List (Publication K p) := []

variable {K : Type} [DecidableEq K] {p c : Nat} (setup : Setup p c)

def State.setRing (state : State K p c) (channel : K) (ring : FastRing.State p c) : State K p c :=
  {state with ring := Function.update state.ring channel ring}

/-- The slot that the next claim of a publisher reserves. -/
def State.next (state : State K p c) (channel : K) (lane : Fin p) : Reservation K p :=
  ⟨channel, lane, ((state.ring channel).producer lane).published⟩

/-- A payload has the size of a slot. -/
def tryPush (lane : Fin p) (payload : Vector UInt8 setup.payloadSize) :
    Prog (FastRing.State p c) (Except FastRingError Unit) := do
  let claimed ← tryClaim setup lane
  match claimed with
  | .error error => pure (.error error)
  | .ok () =>
      writePayload setup lane 0 payload.toList
      FastRing.commit setup lane

section Endpoints

variable (state : State K p c) (channel : K) (lane : Fin p)

def send (value : Vector UInt8 setup.payloadSize) : Except Error Unit × State K p c :=
  match (tryPush setup lane value).run (state.ring channel) with
  | (.error error, ring) => (.error (mapFixedRingError error), state.setRing channel ring)
  | (.ok (), ring) =>
      (.ok (), {state.setRing channel ring with
        published := state.published ++ [⟨state.next channel lane, none⟩]})

/-- The claim is stored in a variable. -/
def tryClaim (target : Nat) : Except Error Unit × State K p c :=
  match (FastRing.tryClaim setup lane).run (state.ring channel) with
  | (.error error, ring) => (.error (mapFixedRingError error), state.setRing channel ring)
  | (.ok (), ring) =>
      let slot := state.next channel lane
      (.ok (), {state.setRing channel ring with
        claim := Function.update state.claim target
          ⟨some channel, some (channel, lane), some slot.position, some slot⟩
        granted := state.granted ++ [slot]})

/-- The commit compares the pointers of the claim and not its span. -/
def commit (source : Nat) : Except Error Unit × State K p c :=
  let claim := state.claim source
  if claim.owner ≠ some channel ∨ claim.producer ≠ some (channel, lane) then (.error .BadConfig, state)
  else
    match (FastRing.commit setup lane).run (state.ring channel) with
    | (.error error, ring) => (.error (mapFixedRingError error), state.setRing channel ring)
    | (.ok (), ring) =>
        (.ok (), {state.setRing channel ring with
          claim := Function.update state.claim source {claim with payload := none}
          published := state.published ++ [⟨state.next channel lane, claim.reserved⟩]})

end Endpoints

/-- A moved claim leaves null pointers behind. Its span is copied. -/
def State.move (state : State K p c) (source target : Nat) : State K p c :=
  if source = target then state
  else
    let moved := state.claim source
    let left := {moved with owner := none, producer := none, reserved := none}
    {state with claim := Function.update (Function.update state.claim source left) target moved}

/-- The calls on the publishers, and the moves of claims between variables. -/
inductive Call (K : Type) {p c : Nat} (setup : Setup p c) where
  | send (channel : K) (lane : Fin p) (value : Vector UInt8 setup.payloadSize)
  | tryClaim (channel : K) (lane : Fin p) (target : Nat)
  | commit (channel : K) (lane : Fin p) (source : Nat)
  | move (source target : Nat)

variable {setup}

def State.call (state : State K p c) : Call K setup → State K p c
  | .send channel lane value => (send setup state channel lane value).2
  | .tryClaim channel lane target => (tryClaim setup state channel lane target).2
  | .commit channel lane source => (commit setup state channel lane source).2
  | .move source target => state.move source target

variable (K setup) in
/-- New channels without claims. -/
def initial : State K p c := ⟨fun _ => (FastRing.initial setup).shared, fun _ => {}, [], []⟩

/-- Between two calls the consumers move their cursors and the users write payloads: everything may change but the
handles of the producers. -/
inductive Run (setup : Setup p c) (admits : State K p c → Call K setup → Prop) : State K p c → Prop where
  | start : Run setup admits (initial K setup)
  | call {state : State K p c} (run : Run setup admits state) (call : Call K setup) (admitted : admits state call) :
      Run setup admits (state.call call)
  | others {state : State K p c} (run : Run setup admits state) (ring : K → FastRing.State p c)
      (handles : ∀ channel, (ring channel).producer = (state.ring channel).producer) :
      Run setup admits {state with ring := ring}

/-- Every claim reserves a slot of its own and publishes at most one message, in that slot. -/
structure SpentOnce (state : State K p c) : Prop where
  granted : state.granted.Nodup
  once : (state.published.filterMap Publication.claim).Nodup
  own : ∀ publication ∈ state.published, ∀ reserved, publication.claim = some reserved → reserved = publication.slot
  guarded : ∀ publication ∈ state.published, publication.slot ∈ state.granted →
    publication.claim = some publication.slot

/-- The claim has been committed. -/
def FixedPublishClaim.Committed (claim : FixedPublishClaim K p) : Prop :=
  claim.producer ≠ none ∧ claim.payload = none

/-- After the call every claim is still spent at most once, and the commit of a claim that has been committed before
fails and leaves every ring unchanged. -/
structure Honours (state : State K p c) (call : Call K setup) : Prop where
  once : SpentOnce (state.call call)
  refused : ∀ channel lane source, call = .commit channel lane source → (state.claim source).Committed →
    (∃ error, (commit setup state channel lane source).1 = .error error) ∧
      (commit setup state channel lane source).2.ring = state.ring

/-- A publisher gets a committed claim of its own back only when it has no outstanding claim. -/
def Call.Sound (state : State K p c) : Call K setup → Prop
  | .commit channel lane source =>
      (state.claim source).owner = some channel → (state.claim source).producer = some (channel, lane) →
        (state.claim source).payload = none → ((state.ring channel).producer lane).claimOutstanding = false
  | _ => True

section Rings

variable {ring : FastRing.State p c} {lane : Fin p}

theorem run_loadSlowest (lane : Fin p) (ring : FastRing.State p c) : ((loadSlowest lane).run ring).2 = ring := by
  have scan (consumers : List (Fin c)) (slowest : Nat) :
      ((Prog.foldUntil (slowestRound lane) consumers slowest).run ring).2 = ring := by
    induction consumers generalizing slowest with
    | nil => rfl
    | cons consumer rest ih =>
        simp only [Prog.foldUntil, slowestRound, loadConsumed, Prog.bind_eq, Prog.run_bind, Prog.run_load, Prog.pure_eq,
          Prog.run_ret]
        exact ih _
  simp only [loadSlowest, Prog.bind_eq, Prog.run_bind, Prog.pure_eq, Prog.run_ret]
  exact scan _ _

theorem run_refreshCache (setup : Setup p c) (lane : Fin p) (ring : FastRing.State p c) :
    ((refreshCache setup lane).run ring).2 = ring := by
  unfold refreshCache
  split
  · exact run_loadSlowest lane ring
  · rfl

/-- A claim opens when none is outstanding, or it is refused and the handle keeps its place. -/
theorem run_tryClaim (setup : Setup p c) (lane : Fin p) (ring : FastRing.State p c) :
    let result := (FastRing.tryClaim setup lane).run ring
    ((∃ error, result.1 = .error error) ∧ ∃ cache, result.2.producer =
        Function.update ring.producer lane {ring.producer lane with cache := cache}) ∨
      (result.1 = .ok () ∧ (ring.producer lane).claimOutstanding = false ∧ ∃ cache, result.2.producer =
        Function.update ring.producer lane {ring.producer lane with cache := cache, claimOutstanding := true}) := by
  intro result
  have same : ring.producer = Function.update ring.producer lane {ring.producer lane with
      cache := (ring.producer lane).cache} := (Function.update_eq_self lane ring.producer).symm
  by_cases outstanding : (ring.producer lane).claimOutstanding = true
  · have ends : result = (.error .ClaimOutstanding, ring) := by
      simp [result, FastRing.tryClaim, Prog.run_bind, outstanding]
    exact .inl ⟨⟨_, congrArg Prod.fst ends⟩, _, by rw [ends]; exact same⟩
  · have idle : (ring.producer lane).claimOutstanding = false := by simpa using outstanding
    by_cases full : ringFull setup.capacity (ring.producer lane).published (ring.producer lane).cache = true
    · by_cases still : ringFull setup.capacity (ring.producer lane).published
          ((refreshCache setup lane).run ring).1 = true
      · refine .inl ⟨⟨.BackPressured, ?_⟩, ((refreshCache setup lane).run ring).1, ?_⟩
        · simp [result, FastRing.tryClaim, Prog.run_bind, run_refreshCache, FastRing.setProducer, full, still, idle]
        · simp [result, FastRing.tryClaim, Prog.run_bind, run_refreshCache, FastRing.setProducer, full, still, idle,
            FastRing.State.setProducer]
      · refine .inr ⟨?_, idle, ((refreshCache setup lane).run ring).1, ?_⟩
        · simp [result, FastRing.tryClaim, Prog.run_bind, run_refreshCache, FastRing.setProducer, full, still, idle,
            openClaim]
        · simp [result, FastRing.tryClaim, Prog.run_bind, run_refreshCache, FastRing.setProducer, full, still, idle,
            openClaim, FastRing.State.setProducer]
    · refine .inr ⟨?_, idle, (ring.producer lane).cache, ?_⟩
      · simp [result, FastRing.tryClaim, Prog.run_bind, full, idle, openClaim, FastRing.setProducer]
      · simp [result, FastRing.tryClaim, Prog.run_bind, full, idle, openClaim, FastRing.setProducer,
          FastRing.State.setProducer]

variable (setup) in
/-- The commit publishes the outstanding slot. -/
theorem run_commit (outstanding : (ring.producer lane).claimOutstanding = true) :
    ((FastRing.commit setup lane).run ring).1 = .ok () ∧
      ((FastRing.commit setup lane).run ring).2.producer = Function.update ring.producer lane
        {ring.producer lane with published := (ring.producer lane).published + 1, claimOutstanding := false} := by
  simp [FastRing.commit, Prog.run_bind, outstanding, publishSlot, FastRing.State.setLane, FastRing.State.setProducer]

variable (setup) in
theorem run_commit_idle (idle : (ring.producer lane).claimOutstanding = false) :
    (FastRing.commit setup lane).run ring = (.error .NoOutstandingClaim, ring) := by
  simp [FastRing.commit, Prog.run_bind, idle]

variable (ring lane) in
/-- A push publishes a slot of its own when no claim is outstanding. -/
theorem run_tryPush (payload : Vector UInt8 setup.payloadSize) :
    let result := (tryPush setup lane payload).run ring
    ((∃ error, result.1 = .error error) ∧ ∃ cache, result.2.producer =
        Function.update ring.producer lane {ring.producer lane with cache := cache}) ∨
      (result.1 = .ok () ∧ (ring.producer lane).claimOutstanding = false ∧ ∃ cache, result.2.producer =
        Function.update ring.producer lane
          {ring.producer lane with published := (ring.producer lane).published + 1, cache := cache}) := by
  intro result
  have claims := run_tryClaim setup lane ring
  rcases claimed : (FastRing.tryClaim setup lane).run ring with ⟨answer, opened⟩
  rw [claimed] at claims
  rcases claims with ⟨⟨error, failed⟩, handle⟩ | ⟨granted, idle, cache, handle⟩
  · obtain rfl : answer = .error error := failed
    have ends : result = (.error error, opened) := by
      simp only [result, tryPush, Prog.bind_eq, Prog.run_bind, claimed, Prog.pure_eq, Prog.run_ret]
    rw [ends]
    exact .inl ⟨⟨error, rfl⟩, handle⟩
  · obtain rfl : answer = .ok () := granted
    have written : ((writePayload setup lane 0 payload.toList).run opened).2.producer = opened.producer := by
      simp only [writePayload, Prog.run_store]
      split
      · rfl
      · rfl
    have outstanding :
        (((writePayload setup lane 0 payload.toList).run opened).2.producer lane).claimOutstanding = true := by
      rw [written, handle, Function.update_self]
    obtain ⟨success, final⟩ := run_commit setup outstanding
    have ends : result = (FastRing.commit setup lane).run ((writePayload setup lane 0 payload.toList).run opened).2 := by
      simp only [result, tryPush, Prog.bind_eq, Prog.run_bind, claimed]
    refine .inr ⟨ends ▸ success, idle, cache, ?_⟩
    rw [ends, final, written, handle]
    simp [Function.update_idem, idle]

end Rings

/-- The handle of a publisher. -/
def State.handle (state : State K p c) (channel : K) (lane : Fin p) : Producer := (state.ring channel).producer lane

/-- What the handles know about the claims. A claim that is not committed reserves the next slot of its publisher,
and no other claim does. -/
structure Owned (state : State K p c) : Prop where
  spent : SpentOnce state
  reserved : ∀ source channel lane, (state.claim source).producer = some (channel, lane) →
    ∃ position, (state.claim source).reserved = some ⟨channel, lane, position⟩ ∧
      ((state.claim source).payload ≠ none → position = (state.handle channel lane).published ∧
        (state.handle channel lane).claimOutstanding = true)
  sole : ∀ first second, (state.claim first).producer ≠ none → (state.claim first).payload ≠ none →
    (state.claim second).payload ≠ none → (state.claim first).producer = (state.claim second).producer → first = second
  opened : ∀ slot ∈ state.granted, slot.position < (state.handle slot.channel slot.lane).published ∨
    slot.position = (state.handle slot.channel slot.lane).published ∧
      (state.handle slot.channel slot.lane).claimOutstanding = true
  behind : ∀ publication ∈ state.published,
    publication.slot.position < (state.handle publication.slot.channel publication.slot.lane).published

section Steps

variable {state : State K p c} {channel : K} {lane : Fin p}

/-- A call of a publisher changes its own handle alone. -/
theorem handle_setRing {ring : FastRing.State p c} {handle : Producer}
    (own : ring.producer = Function.update (state.ring channel).producer lane handle) (other : K) (index : Fin p) :
    (state.setRing channel ring).handle other index =
      if other = channel ∧ index = lane then handle else state.handle other index := by
  by_cases same : other = channel
  · subst same
    by_cases equal : index = lane
    · simp [State.handle, State.setRing, own, equal]
    · simp [State.handle, State.setRing, own, equal]
  · simp [State.handle, State.setRing, same]

omit [DecidableEq K] in
/-- The slots of a publisher without an outstanding claim are behind it. -/
theorem Owned.idle (owned : Owned state) (idle : (state.handle channel lane).claimOutstanding = false) :
    state.next channel lane ∉ state.granted ∧
      ∀ source, (state.claim source).producer = some (channel, lane) → (state.claim source).payload = none := by
  constructor
  · intro member
    rcases owned.opened _ member with before | ⟨-, outstanding⟩
    · exact lt_irrefl _ before
    · change (state.handle channel lane).claimOutstanding = true at outstanding
      simp [idle] at outstanding
  · intro source held
    by_contra live
    obtain ⟨position, -, next⟩ := owned.reserved source channel lane held
    have outstanding := (next live).2
    simp [idle] at outstanding

omit [DecidableEq K] in
/-- The claims look only at the places of the handles and at their outstanding claims. -/
theorem Owned.of_handles (owned : Owned state) {ring : K → FastRing.State p c}
    (places : ∀ channel lane, ((ring channel).producer lane).published = (state.handle channel lane).published ∧
      ((ring channel).producer lane).claimOutstanding = (state.handle channel lane).claimOutstanding) :
    Owned {state with ring := ring} where
  spent := ⟨owned.spent.granted, owned.spent.once, owned.spent.own, owned.spent.guarded⟩
  reserved source channel lane held := by
    simp only [State.handle, (places channel lane).1, (places channel lane).2]
    exact owned.reserved source channel lane held
  sole := owned.sole
  opened slot member := by
    simp only [State.handle, (places slot.channel slot.lane).1, (places slot.channel slot.lane).2]
    exact owned.opened slot member
  behind publication member := by
    simp only [State.handle, (places publication.slot.channel publication.slot.lane).1]
    exact owned.behind publication member

/-- A refused call moves at most the cache of its handle. -/
theorem Owned.refused (owned : Owned state) {ring : FastRing.State p c} {cache : Nat}
    (own : ring.producer = Function.update (state.ring channel).producer lane
      {(state.ring channel).producer lane with cache := cache}) : Owned (state.setRing channel ring) := by
  refine owned.of_handles fun other index => ?_
  have handle := handle_setRing own other index
  simp only [State.handle, State.setRing] at handle ⊢
  rw [handle]
  split
  · rename_i same
    obtain ⟨rfl, rfl⟩ := same
    exact ⟨rfl, rfl⟩
  · exact ⟨rfl, rfl⟩

/-- A claim reserves the next slot. -/
theorem Owned.claim (owned : Owned state) (target : Nat) {ring : FastRing.State p c} {cache : Nat}
    (idle : (state.handle channel lane).claimOutstanding = false)
    (own : ring.producer = Function.update (state.ring channel).producer lane
      {(state.ring channel).producer lane with cache := cache, claimOutstanding := true}) :
    Owned {state.setRing channel ring with
      claim := Function.update state.claim target ⟨some channel, some (channel, lane),
        some (state.next channel lane).position, some (state.next channel lane)⟩
      granted := state.granted ++ [state.next channel lane]} := by
  obtain ⟨fresh, unclaimed⟩ := owned.idle idle
  have handle := handle_setRing own
  have same (other : K) (index : Fin p) :
      ((state.setRing channel ring).handle other index).published = (state.handle other index).published := by
    rw [handle]
    split
    · rename_i equal
      obtain ⟨rfl, rfl⟩ := equal
      rfl
    · rfl
  have keeps (other : K) (index : Fin p) (outstanding : (state.handle other index).claimOutstanding = true) :
      ((state.setRing channel ring).handle other index).claimOutstanding = true := by
    rw [handle]
    split
    · rfl
    · exact outstanding
  have last : ((state.setRing channel ring).handle channel lane).claimOutstanding = true := by
    rw [handle, if_pos ⟨rfl, rfl⟩]
  refine ⟨⟨?_, owned.spent.once, owned.spent.own, fun publication member slot => ?_⟩, fun source other index held => ?_,
    fun first second held live alive equal => ?_, fun slot member => ?_, fun publication member => ?_⟩
  · exact List.nodup_append.mpr ⟨owned.spent.granted, List.nodup_singleton _, fun old present new single => by
      rw [List.mem_singleton.mp single]
      rintro rfl
      exact fresh present⟩
  · rcases List.mem_append.mp slot with old | new
    · exact owned.spent.guarded publication member old
    · have behind := owned.behind publication member
      rw [List.mem_singleton.mp new] at behind
      exact absurd behind (lt_irrefl _)
  · by_cases mine : source = target
    · subst mine
      simp only [Function.update_self, Option.some.injEq, Prod.mk.injEq] at held
      obtain ⟨rfl, rfl⟩ := held
      simp only [Function.update_self]
      exact ⟨_, rfl, fun _ => ⟨(same channel lane).symm, last⟩⟩
    · simp only [Function.update_of_ne mine] at held ⊢
      obtain ⟨position, reserved, next⟩ := owned.reserved source other index held
      refine ⟨position, reserved, fun live => ?_⟩
      obtain ⟨place, outstanding⟩ := next live
      exact ⟨place.trans (same other index).symm, keeps other index outstanding⟩
  · -- no other claim of the publisher is left
    have alone (source : Nat) (other : source ≠ target) (mine : (state.claim source).producer = some (channel, lane))
        (live : (state.claim source).payload ≠ none) : False := live (unclaimed source mine)
    by_cases one : first = target
    · by_cases two : second = target
      · exact one.trans two.symm
      · subst one
        simp only [Function.update_self, Function.update_of_ne two] at alive equal
        exact (alone second two equal.symm alive).elim
    · by_cases two : second = target
      · subst two
        simp only [Function.update_self, Function.update_of_ne one] at live equal
        exact (alone first one equal live).elim
      · simp only [Function.update_of_ne one, Function.update_of_ne two] at held live alive equal
        exact owned.sole first second held live alive equal
  · rcases List.mem_append.mp member with old | new
    · rcases owned.opened slot old with before | ⟨place, outstanding⟩
      · exact .inl (before.trans_eq (same _ _).symm)
      · exact .inr ⟨place.trans (same _ _).symm, keeps _ _ outstanding⟩
    · rw [List.mem_singleton.mp new]
      exact .inr ⟨(same channel lane).symm, last⟩
  · exact (owned.behind publication member).trans_eq (same _ _).symm

/-- The publisher moves past the slot that it publishes. The claims of the publisher are all committed then. -/
theorem Owned.publish (owned : Owned state) {ring : FastRing.State p c} {claims : Nat → FixedPublishClaim K p}
    {claim : Option (Reservation K p)} {handle : Producer}
    (own : ring.producer = Function.update (state.ring channel).producer lane handle)
    (moved : handle.published = (state.handle channel lane).published + 1)
    (mine : ∀ reserved, claim = some reserved → reserved = state.next channel lane)
    (guarded : state.next channel lane ∈ state.granted → claim = some (state.next channel lane))
    (kept : ∀ source, claims source = state.claim source ∨ claims source = {state.claim source with payload := none})
    (spent : ∀ source, (claims source).producer = some (channel, lane) → (claims source).payload = none) :
    Owned {state.setRing channel ring with
      claim := claims
      published := state.published ++ [⟨state.next channel lane, claim⟩]} := by
  have handles := handle_setRing own
  have grows (other : K) (index : Fin p) : (state.handle other index).published ≤
      ((state.setRing channel ring).handle other index).published := by
    rw [handles]
    split
    · rename_i equal
      obtain ⟨rfl, rfl⟩ := equal
      omega
    · exact le_rfl
  have past : (state.handle channel lane).published <
      ((state.setRing channel ring).handle channel lane).published := by
    rw [handles, if_pos ⟨rfl, rfl⟩]
    omega
  have before (reserved : Reservation K p) (old : reserved ∈ state.published.filterMap Publication.claim) :
      reserved ≠ state.next channel lane := by
    rintro rfl
    obtain ⟨publication, member, found⟩ := List.mem_filterMap.mp old
    have behind := owned.behind publication member
    rw [← owned.spent.own publication member _ found] at behind
    exact lt_irrefl _ behind
  have fields (source : Nat) : (claims source).producer = (state.claim source).producer ∧
      (claims source).reserved = (state.claim source).reserved ∧
      ((claims source).payload ≠ none → (state.claim source).payload ≠ none) := by
    rcases kept source with same | cleared
    · rw [same]
      exact ⟨rfl, rfl, id⟩
    · rw [cleared]
      exact ⟨rfl, rfl, fun live => absurd rfl live⟩
  refine ⟨⟨owned.spent.granted, ?_, fun publication member reserved found => ?_, fun publication member slot => ?_⟩,
    fun source other index held => ?_, fun first second held live alive equal => ?_, fun slot member => ?_,
    fun publication member => ?_⟩
  · rw [List.filterMap_append]
    refine List.nodup_append.mpr ⟨owned.spent.once, ?_, fun old present new single => ?_⟩
    · cases claim <;> simp
    · obtain ⟨publication, member, found⟩ := List.mem_filterMap.mp single
      rw [List.mem_singleton.mp member] at found
      rw [mine new found]
      exact before old present
  · rcases List.mem_append.mp member with old | new
    · exact owned.spent.own publication old reserved found
    · obtain rfl := List.mem_singleton.mp new
      exact mine reserved found
  · rcases List.mem_append.mp member with old | new
    · exact owned.spent.guarded publication old slot
    · obtain rfl := List.mem_singleton.mp new
      exact guarded slot
  · obtain ⟨producer, reservation, live⟩ := fields source
    have formerly : (state.claim source).producer = some (other, index) := producer.symm.trans held
    obtain ⟨position, reserved, next⟩ := owned.reserved source other index formerly
    refine ⟨position, reservation.trans reserved, fun alive => ?_⟩
    obtain ⟨place, outstanding⟩ := next (live alive)
    have different : ¬ (other = channel ∧ index = lane) := by
      rintro ⟨rfl, rfl⟩
      exact alive (spent source held)
    have same : (state.setRing channel ring).handle other index = state.handle other index := by
      rw [handles, if_neg different]
    change position = ((state.setRing channel ring).handle other index).published ∧
      ((state.setRing channel ring).handle other index).claimOutstanding = true
    rw [same]
    exact ⟨place, outstanding⟩
  · obtain ⟨one, -, former⟩ := fields first
    obtain ⟨two, -, latter⟩ := fields second
    change (claims first).producer ≠ none at held
    change (claims first).producer = (claims second).producer at equal
    rw [one] at held equal
    rw [two] at equal
    exact owned.sole first second held (former live) (latter alive) equal
  · by_cases same : slot.channel = channel ∧ slot.lane = lane
    · obtain ⟨first, second⟩ := same
      have place : slot.position ≤ (state.handle slot.channel slot.lane).published := by
        rcases owned.opened slot member with below | ⟨at_, -⟩
        · exact below.le
        · exact at_.le
      rw [first, second] at place ⊢
      exact .inl (place.trans_lt past)
    · change slot.position < ((state.setRing channel ring).handle slot.channel slot.lane).published ∨ slot.position =
        ((state.setRing channel ring).handle slot.channel slot.lane).published ∧
          ((state.setRing channel ring).handle slot.channel slot.lane).claimOutstanding = true
      rw [handles, if_neg same]
      exact owned.opened slot member
  · rcases List.mem_append.mp member with old | new
    · exact (owned.behind publication old).trans_le (grows _ _)
    · rw [List.mem_singleton.mp new]
      exact past

omit [DecidableEq K] in
/-- A moved claim is the same claim in another variable. -/
theorem Owned.move (owned : Owned state) (source target : Nat) : Owned (state.move source target) := by
  unfold State.move
  by_cases same : source = target
  · rw [if_pos same]
    exact owned
  rw [if_neg same]
  dsimp only
  generalize shape : Function.update (Function.update state.claim source
    {state.claim source with owner := none, producer := none, reserved := none}) target (state.claim source) = claims
  -- a claim that still has a producer is an old one
  have old (index : Nat) (held : (claims index).producer ≠ none) : ∃ former, claims index = state.claim former ∧
      (index = target ↔ former = source) ∧ (index ≠ target → former = index) := by
    subst shape
    by_cases one : index = target
    · subst one
      exact ⟨source, Function.update_self _ _ _, by simp, by simp⟩
    · by_cases two : index = source
      · subst two
        simp [Function.update_of_ne one] at held
      · refine ⟨index, ?_, by simp [one, two], fun _ => rfl⟩
        rw [Function.update_of_ne one, Function.update_of_ne two]
  refine ⟨⟨owned.spent.granted, owned.spent.once, owned.spent.own, owned.spent.guarded⟩,
    fun index channel lane held => ?_, fun first second held live alive equal => ?_, owned.opened, owned.behind⟩
  · change (claims index).producer = _ at held
    obtain ⟨former, is, -⟩ := old index (by simp [held])
    change ∃ position, (claims index).reserved = _ ∧ ((claims index).payload ≠ none → _)
    rw [is] at held ⊢
    exact owned.reserved former channel lane held
  · change (claims first).producer ≠ none at held
    change (claims first).payload ≠ none at live
    change (claims second).payload ≠ none at alive
    change (claims first).producer = (claims second).producer at equal
    obtain ⟨one, isOne, atOne, restOne⟩ := old first held
    obtain ⟨two, isTwo, atTwo, restTwo⟩ := old second (equal ▸ held)
    rw [isOne] at held live equal
    rw [isTwo] at alive equal
    have formers := owned.sole one two held live alive equal
    by_cases target_ : first = target
    · exact target_.trans (atTwo.mpr (formers ▸ atOne.mp target_)).symm
    · have away : second ≠ target := fun equal => target_ (atOne.mpr (formers ▸ atTwo.mp equal))
      rw [← restOne target_, ← restTwo away, formers]

theorem Owned.send (owned : Owned state) (value : Vector UInt8 setup.payloadSize) :
    Owned (send setup state channel lane value).2 := by
  have pushes := run_tryPush (state.ring channel) lane value
  unfold FixedChannel.send
  rcases result : (tryPush setup lane value).run (state.ring channel) with ⟨answer, ring⟩
  rw [result] at pushes
  rcases pushes with ⟨⟨error, failed⟩, cache, handle⟩ | ⟨success, idle, cache, handle⟩
  · obtain rfl : answer = .error error := failed
    exact owned.refused handle
  · obtain rfl : answer = .ok () := success
    obtain ⟨fresh, unclaimed⟩ := owned.idle idle
    exact owned.publish handle rfl nofun (fun member => absurd member fresh) (fun _ => .inl rfl) unclaimed

theorem Owned.tryClaim (owned : Owned state) (target : Nat) :
    Owned (tryClaim setup state channel lane target).2 := by
  have claims := run_tryClaim setup lane (state.ring channel)
  unfold FixedChannel.tryClaim
  rcases result : (FastRing.tryClaim setup lane).run (state.ring channel) with ⟨answer, ring⟩
  rw [result] at claims
  rcases claims with ⟨⟨error, failed⟩, cache, handle⟩ | ⟨success, idle, cache, handle⟩
  · obtain rfl : answer = .error error := failed
    exact owned.refused handle
  · obtain rfl : answer = .ok () := success
    exact owned.claim target idle handle

/-- The pointers of the claim are those of the publisher. -/
def State.Matches (state : State K p c) (channel : K) (lane : Fin p) (source : Nat) : Prop :=
  (state.claim source).owner = some channel ∧ (state.claim source).producer = some (channel, lane)

theorem commit_foreign {source : Nat} (foreign : ¬ state.Matches channel lane source) :
    commit setup state channel lane source = (.error .BadConfig, state) := by
  have either : (state.claim source).owner ≠ some channel ∨ (state.claim source).producer ≠ some (channel, lane) := by
    by_contra both
    push Not at both
    exact foreign both
  simp only [FixedChannel.commit, if_pos either]

theorem commit_idle {source : Nat} (own : state.Matches channel lane source)
    (idle : (state.handle channel lane).claimOutstanding = false) :
    commit setup state channel lane source = (.error .BadConfig, state) := by
  have same : state.setRing channel (state.ring channel) = state := by simp [State.setRing]
  have neither : ¬ ((state.claim source).owner ≠ some channel ∨
      (state.claim source).producer ≠ some (channel, lane)) := by simp [own.1, own.2]
  simp only [FixedChannel.commit, if_neg neither, run_commit_idle setup idle, same, mapFixedRingError]

variable (setup) in
/-- The commit of any claim of the publisher publishes the slot of its outstanding claim. -/
theorem commit_outstanding {source : Nat} (own : state.Matches channel lane source)
    (outstanding : (state.handle channel lane).claimOutstanding = true) :
    ∃ ring, ring.producer = Function.update (state.ring channel).producer lane
        {state.handle channel lane with
          published := (state.handle channel lane).published + 1, claimOutstanding := false} ∧
      commit setup state channel lane source = (.ok (), {state.setRing channel ring with
        claim := Function.update state.claim source {state.claim source with payload := none}
        published := state.published ++ [⟨state.next channel lane, (state.claim source).reserved⟩]}) := by
  obtain ⟨success, handle⟩ := run_commit setup outstanding
  have neither : ¬ ((state.claim source).owner ≠ some channel ∨
      (state.claim source).producer ≠ some (channel, lane)) := by simp [own.1, own.2]
  refine ⟨_, handle, ?_⟩
  rcases result : (FastRing.commit setup lane).run (state.ring channel) with ⟨answer, ring⟩
  rw [result] at success
  obtain rfl : answer = .ok () := success
  simp only [FixedChannel.commit, if_neg neither, result]

/-- A commit that passes a claim of the publisher that is not committed publishes the slot of this claim. -/
theorem Owned.commit (owned : Owned state) {source : Nat}
    (sound : (Call.commit channel lane source : Call K setup).Sound state) :
    Owned (commit setup state channel lane source).2 := by
  by_cases own : state.Matches channel lane source
  · by_cases outstanding : (state.handle channel lane).claimOutstanding = true
    · obtain ⟨ring, handle, ends⟩ := commit_outstanding setup own outstanding
      have live : (state.claim source).payload ≠ none := by
        intro spent
        have idle := sound own.1 own.2 spent
        change (state.handle channel lane).claimOutstanding = false at idle
        simp [idle] at outstanding
      obtain ⟨position, reserved, next⟩ := owned.reserved source channel lane own.2
      have slot : (state.claim source).reserved = some (state.next channel lane) := by
        rw [reserved, (next live).1]
        rfl
      rw [ends]
      refine owned.publish handle rfl (fun other found => ?_) (fun _ => slot) (fun index => ?_) fun index held => ?_
      · exact (Option.some.inj (slot.symm.trans found)).symm
      · by_cases same : index = source
        · subst same
          exact .inr (Function.update_self _ _ _)
        · exact .inl (Function.update_of_ne same _ _)
      · by_cases same : index = source
        · subst same
          simp
        · rw [Function.update_of_ne same] at held ⊢
          by_contra alive
          exact same (owned.sole index source (by simp [held]) alive live (held.trans own.2.symm))
    · rw [commit_idle own (by simpa using outstanding)]
      exact owned
  · rw [commit_foreign own]
    exact owned

/-- Every sound call keeps the invariant. -/
theorem Owned.call (owned : Owned state) {call : Call K setup} (sound : call.Sound state) :
    Owned (state.call call) := by
  cases call with
  | send channel lane value => exact owned.send value
  | tryClaim channel lane target => exact owned.tryClaim target
  | commit channel lane source => exact owned.commit sound
  | move source target => exact owned.move source target

omit [DecidableEq K] in
theorem owned_initial : Owned (initial K setup) where
  spent := ⟨List.nodup_nil, List.nodup_nil, nofun, nofun⟩
  reserved _ _ _ held := by cases held
  sole _ _ held := absurd rfl held
  opened := nofun
  behind := nofun

theorem Owned.run (run : Run setup (fun state call => call.Sound state) state) : Owned state := by
  induction run with
  | start => exact owned_initial
  | call run call admitted ih => exact ih.call admitted
  | others run ring handles ih =>
      refine ih.of_handles fun channel lane => ?_
      rw [handles]
      exact ⟨rfl, rfl⟩

end Steps

variable {state : State K p c}

/-- The commit of a committed claim succeeds exactly when the publisher has another outstanding claim. -/
theorem Owned.honours_iff (owned : Owned state) (call : Call K setup) : Honours state call ↔ call.Sound state := by
  constructor
  · intro honours
    cases call with
    | commit channel lane source =>
        intro owner producer spent
        have held : (state.claim source).producer ≠ none := by simp [producer]
        obtain ⟨⟨error, failed⟩, -⟩ := honours.refused channel lane source rfl ⟨held, spent⟩
        by_contra busy
        have outstanding : (state.handle channel lane).claimOutstanding = true := by simpa [State.handle] using busy
        obtain ⟨ring, -, ends⟩ := commit_outstanding setup ⟨owner, producer⟩ outstanding
        rw [ends] at failed
        cases failed
    | _ => trivial
  · intro sound
    refine ⟨(owned.call sound).spent, ?_⟩
    rintro channel lane source rfl ⟨held, spent⟩
    by_cases own : state.Matches channel lane source
    · rw [commit_idle own (sound own.1 own.2 spent)]
      exact ⟨⟨_, rfl⟩, rfl⟩
    · rw [commit_foreign own]
      exact ⟨⟨_, rfl⟩, rfl⟩

/-- As long as no publisher gets a committed claim of its own back while it has an outstanding claim, every claim is
spent at most once; and a call keeps to this exactly under that condition. -/
theorem claims_spent_once (run : Run setup (fun state call => call.Sound state) state) :
    SpentOnce state ∧ ∀ call : Call K setup, Honours state call ↔ call.Sound state :=
  ⟨(Owned.run run).spent, fun call => (Owned.run run).honours_iff call⟩

section Schedules

/-- A claim that has been committed is refused. -/
theorem claims_spent_once_again : ∃ state : State Unit 1 1,
    Run (smallRing .spsc) (fun state call => call.Sound state) state ∧ state.published.length = 1 ∧
      (state.claim 0).Committed ∧ Honours state (.commit () 0 0 : Call Unit (smallRing .spsc)) := by
  have begun : Run (smallRing .spsc) (fun state call => call.Sound state) (initial Unit (smallRing .spsc)) := .start
  have opened := begun.call (.tryClaim () 0 0) trivial
  have committed := Run.call opened (.commit () 0 0) (by intro _ _; decide)
  refine ⟨_, committed, by decide, ⟨by decide, by decide⟩, ?_⟩
  exact ((claims_spent_once committed).2 _).mpr (by intro _ _ _; decide)

/-- The first claim is committed twice, the second time while another claim is outstanding. It publishes the slot of
the other claim. -/
theorem committed_claim_publishes_again : ∃ state : State Unit 1 1,
    Run (smallRing .spsc) (fun state call => call.Sound state) state ∧ (state.claim 0).Committed ∧
      (commit (smallRing .spsc) state () 0 0).1 = .ok () ∧
      ¬ Honours state (.commit () 0 0 : Call Unit (smallRing .spsc)) ∧
      (commit (smallRing .spsc) state () 0 0).2.published =
        [⟨⟨(), 0, 0⟩, some ⟨(), 0, 0⟩⟩, ⟨⟨(), 0, 1⟩, some ⟨(), 0, 0⟩⟩] := by
  have begun : Run (smallRing .spsc) (fun state call => call.Sound state) (initial Unit (smallRing .spsc)) := .start
  have opened := begun.call (.tryClaim () 0 0) trivial
  have committed := Run.call opened (.commit () 0 0) (by intro _ _; decide)
  have other := Run.call committed (.tryClaim () 0 1) trivial
  refine ⟨_, other, ⟨by decide, by decide⟩, by decide, fun honours => ?_, by decide⟩
  obtain ⟨⟨error, failed⟩, -⟩ := honours.refused () 0 0 rfl ⟨by decide, by decide⟩
  revert failed
  cases error <;> decide

end Schedules

end Salias.FixedChannel
