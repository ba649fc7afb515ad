import Salias.Channel.Setup
import Salias.Concurrent.RelyGuarantee
import Mathlib.Data.List.Nodup

/-
Publishers take their rings from a shared counter of 32 bits. A call that finds no ring left advances the
counter too.
-/

namespace Salias.ProducerId

open Concurrent SharedHybridMpsc

def kInvalidEndpoint : UInt32 := 0xFFFFFFFF

/-- The processes that share a channel with `n` producer rings. -/
structure Setup (n : Nat) (K : Type) where
  pid : K → UInt32
  processStart : K → Nat
  nonempty : n ≠ 0
  bounded : n ≤ kMaxProducers

structure Publisher where
  producerId : UInt32
  valid : Bool
  deriving DecidableEq

/-- The owner words of a producer ring. -/
structure ProducerOwner where
  producerPid : UInt32 := 0
  producerProcessStart : Nat := 0

/-- The shared words. `calls` and `publishers` are history: the calls with the counter values that they took,
and the publishers that every process has been handed. -/
structure State (n : Nat) (K : Type) where
  nextProducer : UInt32 := 0
  producers : Fin n → ProducerOwner := fun _ => {}
  calls : List (K × UInt32) := []
  publishers : K → List Publisher := fun _ => []

/-- The endpoint of a process without a ring is invalid. -/
def publisherEndpoint (producerId : UInt32) : Publisher := ⟨producerId, producerId != kInvalidEndpoint⟩

/-- The publisher that a call hands out for the counter value that it took. -/
def publisherOf (n : Nat) (taken : UInt32) : Publisher :=
  publisherEndpoint (if taken.toNat < n then taken else kInvalidEndpoint)

section Programs

variable {n : Nat} {K : Type} [DecidableEq K]

def State.hand (state : State n K) (process : K) (publisher : Publisher) : State n K :=
  {state with publishers :=
    Function.update state.publishers process (state.publishers process ++ [publisher])}

def State.setProducer (state : State n K) (producer : Fin n) (change : ProducerOwner → ProducerOwner) :
    State n K :=
  {state with producers := Function.update state.producers producer (change (state.producers producer))}

/-- The `fetch_add` is the last action of a call that finds no ring. -/
def fetchAddProducer (process : K) : Prog (State n K) UInt32 :=
  .modifyGet State.nextProducer fun state =>
    let called := {state with
      nextProducer := state.nextProducer + 1
      calls := state.calls ++ [(process, state.nextProducer)]}
    if state.nextProducer.toNat < n then called else called.hand process (publisherOf n state.nextProducer)

def acquireProducerId (setup : Setup n K) (process : K) : Prog (State n K) (Option UInt32) := do
  let producerId ← fetchAddProducer process
  if below : producerId.toNat < n then
    .store fun state => state.setProducer ⟨producerId.toNat, below⟩ fun owner =>
      {owner with producerPid := setup.pid process}
    .store fun state => (state.setProducer ⟨producerId.toNat, below⟩ fun owner =>
      {owner with producerProcessStart := setup.processStart process}).hand process (publisherOf n producerId)
    pure (some producerId)
  else
    pure none

/-- `Channel::publisher`. -/
def publisher (setup : Setup n K) (process : K) : Prog (State n K) Publisher := do
  let producerId ← acquireProducerId setup process
  pure (publisherEndpoint (producerId.getD kInvalidEndpoint))

/-- Every process may call `publisher` any number of times; it rests with its latest publisher. -/
def system (setup : Setup n K) : System (State n K) K (Option Publisher) Unit :=
  ⟨fun process _ _ => some ((publisher setup process).bind fun handed => .ret (some handed))⟩

def initial : Config (State n K) K (Option Publisher) := ⟨{}, fun _ => .ret none⟩

end Programs

/-- The rings of the valid publishers. -/
def rings (publishers : List Publisher) : List UInt32 :=
  (publishers.filter Publisher.valid).map Publisher.producerId

/-- No two valid publishers have one ring. -/
def Unique {K : Type} (publishers : K → List Publisher) : Prop :=
  (∀ process, (rings (publishers process)).Nodup) ∧
    ∀ first second, first ≠ second → List.Disjoint (rings (publishers first)) (rings (publishers second))

section Owners

variable {K α : Type} [DecidableEq K]

/-- The items of one owner in a list of owned items. -/
def ownedBy (owner : K) (items : List (K × α)) : List α :=
  (items.filter fun item => item.1 = owner).map Prod.snd

@[simp] theorem ownedBy_nil (owner : K) : ownedBy owner ([] : List (K × α)) = [] := rfl

theorem ownedBy_cons (owner : K) (item : K × α) (rest : List (K × α)) :
    ownedBy owner (item :: rest) = if item.1 = owner then item.2 :: ownedBy owner rest else ownedBy owner rest := by
  unfold ownedBy
  by_cases same : item.1 = owner <;> simp [same]

theorem ownedBy_append (owner : K) (items : List (K × α)) (item : K × α) :
    ownedBy owner (items ++ [item]) =
      if item.1 = owner then ownedBy owner items ++ [item.2] else ownedBy owner items := by
  unfold ownedBy
  by_cases same : item.1 = owner <;> simp [same]

theorem mem_ownedBy {owner : K} {items : List (K × α)} {value : α} :
    value ∈ ownedBy owner items ↔ (owner, value) ∈ items := by
  simp [ownedBy]

theorem ownedBy_filter (owner : K) (keep : α → Bool) (items : List (K × α)) :
    ownedBy owner (items.filter fun item => keep item.2) = (ownedBy owner items).filter keep := by
  simp only [ownedBy, List.filter_map, List.filter_filter, Function.comp_def, Bool.and_comm]

/-- Items are distinct when they are distinct for each owner and between owners. -/
theorem nodup_iff_ownedBy (items : List (K × α)) : (items.map Prod.snd).Nodup ↔
    (∀ owner, (ownedBy owner items).Nodup) ∧
      ∀ first second, first ≠ second → List.Disjoint (ownedBy first items) (ownedBy second items) := by
  constructor
  · intro distinct
    refine ⟨fun owner => distinct.sublist (List.filter_sublist.map Prod.snd), fun first second different => ?_⟩
    intro value left right
    have same := List.inj_on_of_nodup_map distinct (mem_ownedBy.mp left) (mem_ownedBy.mp right) rfl
    exact different (congrArg Prod.fst same)
  · intro ⟨each, between⟩
    induction items with
    | nil => simp
    | cons item rest ih =>
        have later {owner : K} {value : α} (member : value ∈ ownedBy owner rest) :
            value ∈ ownedBy owner (item :: rest) := by
          rw [mem_ownedBy] at member ⊢
          exact List.mem_cons_of_mem _ member
        rw [List.map_cons, List.nodup_cons]
        constructor
        · intro member
          obtain ⟨⟨owner, value⟩, present, same⟩ := List.mem_map.mp member
          dsimp only at same
          have owned : item.2 ∈ ownedBy owner rest := mem_ownedBy.mpr (same ▸ present)
          by_cases equal : item.1 = owner
          · have distinct := each owner
            rw [ownedBy_cons, if_pos equal, List.nodup_cons] at distinct
            exact distinct.1 owned
          · refine between item.1 owner equal ?_ (later owned)
            rw [ownedBy_cons, if_pos rfl]
            exact List.mem_cons_self
        · refine ih (fun owner => ?_) fun first second different value left right =>
            between first second different (later left) (later right)
          refine (each owner).sublist ?_
          rw [ownedBy_cons]
          split
          · exact List.sublist_cons_self _ _
          · exact List.Sublist.refl _

end Owners

section Invariant

variable {n : Nat} {K : Type} [DecidableEq K]

/-- The publishers that a process gets for the counter values that it has taken. -/
def earned (state : State n K) (process : K) : List Publisher :=
  (ownedBy process state.calls).map (publisherOf n)

/-- The calls take the counter values in turn, and the values wrap around. -/
structure Counted (state : State n K) : Prop where
  next : state.nextProducer = UInt32.ofNat state.calls.length
  turns : state.calls.map Prod.snd = (List.range state.calls.length).map UInt32.ofNat
  handed : ∀ process, state.publishers process <+: earned state process

/-- The calls and publishers of one process stay. -/
structure Keeps (process : K) (before after : State n K) : Prop where
  taken : ownedBy process after.calls = ownedBy process before.calls
  publishers : after.publishers process = before.publishers process

/-- A process at rest has been handed a publisher for every call. -/
structure Rested (process : K) (last : Option Publisher) (state : State n K) : Prop where
  handed : state.publishers process = earned state process
  last : (state.publishers process).getLast? = last

def discipline (n : Nat) (K : Type) [DecidableEq K] : Discipline (State n K) K (Option Publisher) where
  invariant := Counted
  may _ _ := True
  rely := Keeps
  guarantee process before after := ∀ other, other ≠ process → Keeps other before after
  label := Rested

section Facts

variable {process : K} {before middle after : State n K}

theorem Keeps.refl (process : K) (state : State n K) : Keeps process state state := ⟨rfl, rfl⟩

theorem Keeps.trans (first : Keeps process before middle) (second : Keeps process middle after) :
    Keeps process before after :=
  ⟨second.taken.trans first.taken, second.publishers.trans first.publishers⟩

theorem Keeps.earned (keeps : Keeps process before after) : earned after process = earned before process := by
  rw [ProducerId.earned, keeps.taken, ProducerId.earned]

theorem Rested.stable {last : Option Publisher} (rested : Rested process last before)
    (keeps : Keeps process before after) : Rested process last after :=
  ⟨by rw [keeps.publishers, keeps.earned]; exact rested.handed, by rw [keeps.publishers]; exact rested.last⟩

@[simp] theorem hand_calls (state : State n K) (publisher : Publisher) :
    (state.hand process publisher).calls = state.calls := rfl

@[simp] theorem hand_publishers (state : State n K) (publisher : Publisher) :
    (state.hand process publisher).publishers process = state.publishers process ++ [publisher] := by
  simp [State.hand]

theorem hand_keeps (state : State n K) (publisher : Publisher) {other : K} (different : other ≠ process) :
    Keeps other state (state.hand process publisher) :=
  ⟨rfl, by simp [State.hand, different]⟩

theorem setProducer_keeps (state : State n K) (producer : Fin n) (change : ProducerOwner → ProducerOwner)
    (process : K) : Keeps process state (state.setProducer producer change) := ⟨rfl, rfl⟩

theorem Counted.setProducer (counted : Counted before) (producer : Fin n)
    (change : ProducerOwner → ProducerOwner) : Counted (before.setProducer producer change) :=
  ⟨counted.next, counted.turns, counted.handed⟩

/-- The state after the `fetch_add`, before a publisher is handed out. -/
def State.called (state : State n K) (process : K) : State n K :=
  {state with nextProducer := state.nextProducer + 1, calls := state.calls ++ [(process, state.nextProducer)]}

theorem called_earned (state : State n K) (process : K) :
    earned (state.called process) process = earned state process ++ [publisherOf n state.nextProducer] := by
  simp [earned, State.called, ownedBy_append]

theorem called_keeps (state : State n K) {other : K} (different : other ≠ process) :
    Keeps other state (state.called process) :=
  ⟨by simp [State.called, ownedBy_append, different.symm], rfl⟩

/-- A call in flight has taken one value that its process has no publisher for. -/
def Calling (process : K) (taken : UInt32) (state : State n K) : Prop :=
  earned state process = state.publishers process ++ [publisherOf n taken]

theorem Calling.stable {taken : UInt32} (calling : Calling process taken before)
    (keeps : Keeps process before after) : Calling process taken after := by
  rw [Calling, keeps.earned, keeps.publishers]
  exact calling

theorem Counted.called (counted : Counted before) (process : K) : Counted (before.called process) where
  next := by simp [State.called, counted.next]
  turns := by
    simp only [State.called, List.map_append, List.length_append, List.length_singleton, List.range_succ,
      counted.turns, counted.next, List.map_cons, List.map_nil]
  handed other := by
    by_cases same : other = process
    · subst same
      rw [called_earned]
      exact (counted.handed other).trans (List.prefix_append _ _)
    · rw [(called_keeps before same).earned]
      exact counted.handed other

/-- A hand-out follows the calls of the process. -/
theorem Counted.hand {taken : UInt32} (counted : Counted before) (calling : Calling process taken before) :
    Counted (before.hand process (publisherOf n taken)) where
  next := counted.next
  turns := counted.turns
  handed other := by
    by_cases same : other = process
    · subst same
      rw [hand_publishers]
      exact (show earned before other = _ from calling) ▸ List.prefix_refl _
    · have keeps := hand_keeps before (publisherOf n taken) same
      rw [keeps.earned, keeps.publishers]
      exact counted.handed other

theorem Calling.hand {taken : UInt32} (calling : Calling process taken before) :
    Rested process (some (publisherOf n taken)) (before.hand process (publisherOf n taken)) :=
  ⟨by rw [hand_publishers]; exact Eq.symm calling, by simp⟩

end Facts

end Invariant

section Safety

variable {n : Nat} {K : Type} [DecidableEq K] {setup : Setup n K}

theorem lawful (n : Nat) (process : K) : ((discipline n K).contract process).Lawful where
  refl := Keeps.refl process
  trans := Keeps.trans
  idle state other _ := .refl other state
  stays _ may := may

/-- A call hands out the publisher for the value that it has taken. -/
theorem acquireProducerId_safe (process : K) {last : Option Publisher} {state : State n K}
    (rested : Rested process last state) :
    Safe ((discipline n K).contract process)
      (fun producerId => Rested process (some (publisherEndpoint (producerId.getD kInvalidEndpoint))))
      (acquireProducerId setup process) state := by
  refine Safe.modifyGet_bind fun current keeps ready _ => ?_
  have rested := rested.stable keeps
  have calling : Calling process current.nextProducer (current.called process) := by
    rw [Calling, called_earned, ← rested.handed]
    rfl
  have counted : Counted (current.called process) := ready.keeps.called process
  by_cases below : current.nextProducer.toNat < n
  · have handed : publisherOf n current.nextProducer = publisherEndpoint current.nextProducer := by
      rw [publisherOf, if_pos below]
    simp only [if_pos below, dif_pos below]
    refine ⟨counted, fun other different => called_keeps current different, ?_⟩
    refine Safe.store_bind fun second keeps ready _ => ?_
    have calling := calling.stable (keeps.trans (setProducer_keeps second ⟨_, below⟩
      (fun owner => {owner with producerPid := setup.pid process}) process))
    refine ⟨ready.keeps.setProducer _ _, fun other _ => setProducer_keeps second _ _ other, ?_⟩
    refine Safe.store_bind fun third keeps ready _ => ?_
    have calling := calling.stable (keeps.trans (setProducer_keeps third ⟨_, below⟩
      (fun owner => {owner with producerProcessStart := setup.processStart process}) process))
    refine ⟨(ready.keeps.setProducer _ _).hand calling, fun other different => ?_, fun final keeps _ => ?_⟩
    · exact (setProducer_keeps third _ _ other).trans (hand_keeps _ _ different)
    · have rested := calling.hand.stable keeps
      rwa [handed] at rested
  · have handed : publisherOf n current.nextProducer = publisherEndpoint kInvalidEndpoint := by
      rw [publisherOf, if_neg below]
    simp only [if_neg below, dif_neg below]
    refine ⟨counted.hand calling, fun other different => ?_, fun final keeps _ => ?_⟩
    · exact (called_keeps current different).trans (hand_keeps _ _ different)
    · have rested := calling.hand.stable keeps
      rwa [handed] at rested

theorem sound (setup : Setup n K) : (discipline n K).Sound (system setup) fun _ _ _ _ => True where
  lawful := lawful n
  compatible different _ _ guaranteed := guaranteed _ different.symm
  start {process label request program state} begins _ _ _ rested := by
    cases begins
    refine Safe.bind (M := fun handed => Rested process (some handed)) (lawful n process) ?_
      fun handed current _ rested => fun _ keeps _ => rested.stable keeps
    exact Safe.bind (lawful n process) (acquireProducerId_safe process rested) fun producerId current _ rested =>
      fun _ keeps _ => rested.stable keeps

theorem begun (n : Nat) (K : Type) [DecidableEq K] : (discipline n K).Initial (initial : Config (State n K) K _) := by
  refine ⟨⟨rfl, rfl, fun _ => List.prefix_refl _⟩, fun process current keeps _ => ?_⟩
  have rested : Rested process none ({} : State n K) := ⟨rfl, rfl⟩
  exact rested.stable keeps

theorem knows (setup : Setup n K) : (discipline n K).Knows (system setup) (fun _ _ _ _ => True)
    (fun _ _ => True) initial where
  respects {config event} _ := by
    cases event with
    | act process => trivial
    | start process request => exact fun _ _ => trivial
  known _ := trivial
  action _ _ _ := trivial
  rests _ _ _ := trivial

theorem counted_of_reachable {config : Config (State n K) K (Option Publisher)}
    (reached : (system setup).Reachable initial config) : Counted config.shared :=
  ((sound setup).run (begun n K) (knows setup) reached).1

theorem rested_of_reachable {config : Config (State n K) K (Option Publisher)}
    (reached : (system setup).Reachable initial config) {process : K} {last : Option Publisher}
    (rests : config.thread process = .ret last) : Rested process last config.shared :=
  (sound setup).label (begun n K) (knows setup) reached trivial rests

end Safety

section Unique

variable {n : Nat} {K : Type} [DecidableEq K]

/-- A counter value below the number of rings names a ring. -/
def takesRing (n : Nat) (taken : UInt32) : Bool := decide (taken.toNat < n)

theorem rings_map_publisherOf (bounded : n ≤ kMaxProducers) (taken : List UInt32) :
    rings (taken.map (publisherOf n)) = taken.filter (takesRing n) := by
  induction taken with
  | nil => rfl
  | cons value rest ih =>
      rw [rings] at ih ⊢
      by_cases below : value.toNat < n
      · have valid : value ≠ kInvalidEndpoint := by
          rintro rfl
          exact absurd (below.trans_le bounded) (by decide)
        have handed : publisherOf n value = ⟨value, true⟩ := by
          simp [publisherOf, publisherEndpoint, below, valid]
        simp [takesRing, handed, below, ih]
      · have handed : publisherOf n value = ⟨kInvalidEndpoint, false⟩ := by
          simp [publisherOf, publisherEndpoint, below]
        simp [takesRing, handed, below, ih]

/-- The counter values that name a ring, in the order of the calls. -/
def ringsTaken (state : State n K) : List UInt32 := (state.calls.map Prod.snd).filter (takesRing n)

/-- The earned publishers are unique exactly when the rings that the calls have taken are distinct. -/
theorem unique_earned_iff (bounded : n ≤ kMaxProducers) (state : State n K) :
    Unique (earned state) ↔ (ringsTaken state).Nodup := by
  have owned (process : K) : rings (earned state process) =
      ownedBy process (state.calls.filter fun call => takesRing n call.2) := by
    rw [earned, rings_map_publisherOf bounded, ownedBy_filter]
  have taken : ringsTaken state = (state.calls.filter fun call => takesRing n call.2).map Prod.snd := by
    simp only [ringsTaken, List.filter_map, Function.comp_def]
  rw [taken, nodup_iff_ownedBy, Unique]
  simp only [owned]

omit [DecidableEq K] in
theorem Unique.shorten {publishers earned : K → List Publisher} (unique : Unique earned)
    (handed : ∀ process, publishers process <+: earned process) : Unique publishers := by
  have sub (process : K) : (rings (publishers process)).Sublist (rings (earned process)) :=
    ((handed process).sublist.filter _).map _
  refine ⟨fun process => (unique.1 process).sublist (sub process), fun first second different value left right => ?_⟩
  exact unique.2 first second different ((sub first).subset left) ((sub second).subset right)

/-- The counter values repeat only after `2 ^ 32` calls. -/
theorem ringsTaken_nodup_iff (nonempty : n ≠ 0) {state : State n K} (counted : Counted state) :
    (ringsTaken state).Nodup ↔ state.calls.length ≤ 2 ^ 32 := by
  rw [ringsTaken, counted.turns]
  constructor
  · intro distinct
    by_contra many
    obtain ⟨more, length⟩ := Nat.exists_eq_add_of_lt (Nat.lt_of_not_le many)
    rw [length, Nat.add_assoc, List.range_add, List.map_append, List.filter_append, List.nodup_append'] at distinct
    have zero : takesRing n 0 = true := by
      simpa [takesRing] using Nat.pos_of_ne_zero nonempty
    -- the calls with the numbers 0 and 2 ^ 32 both take the value 0
    have first : (0 : UInt32) ∈ ((List.range (2 ^ 32)).map UInt32.ofNat).filter (takesRing n) :=
      List.mem_filter.mpr ⟨List.mem_map.mpr ⟨0, List.mem_range.mpr (by decide), rfl⟩, zero⟩
    have again : (0 : UInt32) ∈ (((List.range (more + 1)).map (2 ^ 32 + ·)).map UInt32.ofNat).filter
        (takesRing n) := by
      refine List.mem_filter.mpr ⟨List.mem_map.mpr ⟨2 ^ 32, List.mem_map.mpr ⟨0, ?_, rfl⟩, by decide⟩, zero⟩
      exact List.mem_range.mpr (Nat.succ_pos more)
    exact distinct.2.2 first again
  · intro few
    refine List.Nodup.filter _ (List.Nodup.map_on (fun first left second right same => ?_) List.nodup_range)
    have values := congrArg UInt32.toNat same
    simp only [List.mem_range] at left right
    rwa [UInt32.toNat_ofNat', UInt32.toNat_ofNat', Nat.mod_eq_of_lt (left.trans_le few),
      Nat.mod_eq_of_lt (right.trans_le few)] at values

/-- Up to `2 ^ 32` calls no two valid publishers have one ring; after more calls, once all of them have
returned, two of them do. -/
theorem unique_iff_calls (setup : Setup n K) {config : Config (State n K) K (Option Publisher)}
    (reached : (system setup).Reachable initial config) :
    (config.shared.calls.length ≤ 2 ^ 32 → Unique config.shared.publishers) ∧
      ((∀ process, ∃ last, config.thread process = .ret last) →
        (Unique config.shared.publishers ↔ config.shared.calls.length ≤ 2 ^ 32)) := by
  have counted := counted_of_reachable reached
  have few : config.shared.calls.length ≤ 2 ^ 32 → Unique config.shared.publishers := by
    intro few
    have distinct := (ringsTaken_nodup_iff setup.nonempty counted).mpr few
    exact ((unique_earned_iff setup.bounded _).mpr distinct).shorten counted.handed
  refine ⟨few, fun rest => ⟨fun unique => ?_, few⟩⟩
  have returned : config.shared.publishers = earned config.shared := by
    funext process
    obtain ⟨last, rests⟩ := rest process
    exact (rested_of_reachable reached rests).handed
  rw [returned] at unique
  exact (ringsTaken_nodup_iff setup.nonempty counted).mp ((unique_earned_iff setup.bounded _).mp unique)

end Unique

section Wrap

/-- One process and one ring. -/
def oneRing : Setup 1 Unit := ⟨fun _ => 1, fun _ => 1, by decide, by decide⟩

theorem publisher_calls {n : Nat} {K : Type} [DecidableEq K] (setup : Setup n K) (process : K) (state : State n K) :
    ((publisher setup process).run state).2.calls.length = state.calls.length + 1 := by
  by_cases below : state.nextProducer.toNat < n
  · simp [publisher, acquireProducerId, fetchAddProducer, Prog.run_bind, below, State.hand, State.setProducer]
  · simp [publisher, acquireProducerId, fetchAddProducer, Prog.run_bind, below, State.hand]

/-- Any number of calls may return one after the other. -/
theorem reachable_calls (count : Nat) : ∃ config, (system oneRing).Reachable initial config ∧
    config.shared.calls.length = count ∧ ∃ last, config.thread () = .ret last := by
  induction count with
  | zero => exact ⟨initial, .refl, rfl, none, rfl⟩
  | succ count ih =>
      obtain ⟨config, reached, counted, last, rests⟩ := ih
      have taken : (system oneRing).step config (.start () ()) = some ⟨config.shared, Function.update config.thread ()
          ((publisher oneRing ()).bind fun handed => .ret (some handed))⟩ := by
        simp [System.step, rests, system]
      obtain ⟨final, ended, shared, rests, -⟩ :=
        System.reachable_run () (.step (.start () ()) reached trivial taken)
      refine ⟨final, ended, ?_, _, rests⟩
      rw [shared]
      simp [Prog.run_bind, publisher_calls, counted]

/-- The call after `2 ^ 32` others gets the ring of the first one. -/
theorem ring_handed_twice :
    ∃ config, (system oneRing).Reachable initial config ∧ ¬ Unique config.shared.publishers := by
  obtain ⟨config, reached, counted, rests⟩ := reachable_calls (2 ^ 32 + 1)
  have counts := counted_of_reachable reached
  obtain ⟨last, rests⟩ := rests
  have returned : config.shared.publishers = earned config.shared := by
    funext process
    have rested : Rested process last config.shared := rested_of_reachable reached rests
    exact rested.handed
  refine ⟨config, reached, fun unique => ?_⟩
  rw [returned, unique_earned_iff oneRing.bounded, ringsTaken_nodup_iff oneRing.nonempty counts, counted] at unique
  exact absurd unique (by decide)

theorem unique_iff_calls_twice : ∃ config, (system oneRing).Reachable initial config ∧
    config.shared.calls.length = 2 ∧ Unique config.shared.publishers := by
  obtain ⟨config, reached, counted, -⟩ := reachable_calls 2
  exact ⟨config, reached, counted, (unique_iff_calls oneRing reached).1 (by rw [counted]; decide)⟩

end Wrap

end Salias.ProducerId
