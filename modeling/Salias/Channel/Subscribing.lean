import Salias.Channel.Claiming
import Salias.Channel.RxFrame

/-
Every program of a subscriber keeps the membership. The owner of the gate rewrites only slots without a live
owner, and a new subscriber starts at the announcement of every producer.
-/

namespace Salias.SharedHybridMpsc

open Concurrent Salias.Frame ConsumerRegistration

variable {n m : Nat} {K : Type}

section Receive

variable {setup : Setup n m K} {client : K} {consumer : Fin m} {token : Nat} {before after : State n m K}

/-- A program of a receiver stays inside the slot of its registration. -/
theorem RxKeeps.step [DecidableEq K] (keeps : RxKeeps client consumer before after)
    (registered : (before.client client).registration = some (consumer, token)) :
    RxStep setup client before after where
  owned := keeps.owned
  tx := keeps.tx
  globalSequence := keeps.globalSequence
  clock := keeps.clock
  alive := keeps.alive
  clients := keeps.clients
  gate := .inl keeps.gate
  slot other := .inl (by rw [keeps.slot])
  progress other := by
    by_cases same : other = consumer
    · subst same
      exact .inr (.inl ⟨token, registered⟩)
    · exact .inl (keeps.progress other same)
  activates other _ := .inl (by rw [keeps.slot])

/-- The membership reads the slots, the registrations, the counters and the generations. -/
theorem Membership.congr (membership : Membership setup before) (slot : after.slot = before.slot)
    (alive : after.alive = before.alive) (tx : after.tx = before.tx)
    (globalSequence : after.globalSequence = before.globalSequence)
    (owned : ∀ producer, (after.ring producer).owned = (before.ring producer).owned)
    (registration : ∀ client, (after.client client).registration = (before.client client).registration)
    (generation : ∀ producer consumer, before.slotActive consumer →
      (after.cursor producer consumer).generation = (before.cursor producer consumer).generation) :
    Membership setup after where
  owner consumer active := by
    rw [State.slotActive, slot] at active
    obtain ⟨client, registered, word, pid, start⟩ := membership.owner consumer active
    exact ⟨client, by rw [registration, slot]; exact registered, by rw [slot]; exact word, by rw [slot]; exact pid,
      by rw [slot]; exact start⟩
  registered client consumer token lives registered := by
    rw [lives_congr alive] at lives
    rw [registration] at registered
    obtain ⟨active, ⟨registered, word, pid, start⟩, generations⟩ :=
      membership.registered client consumer token lives registered
    exact ⟨by rw [State.slotActive, slot]; exact active, ⟨by rw [registration, slot]; exact registered,
      by rw [slot]; exact word, by rw [slot]; exact pid, by rw [slot]; exact start⟩,
      fun producer => (generation producer consumer active).trans (generations producer)⟩
  exclusive first second consumer one two firstLives secondLives := by
    rw [registration, registration]
    exact membership.exclusive first second consumer one two ((lives_congr alive _).mp firstLives)
      ((lives_congr alive _).mp secondLives)
  exact producer := by
    rw [tally_congr (by rw [tx]) (owned producer)]
    exact membership.exact producer
  settled producer closed := by
    rw [tally_congr (by rw [tx]) (owned producer)]
    exact membership.settled producer ((owned_claimActive (owned producer)).symm.trans closed)
  numbered ordered := (membership.numbered ordered).congr
    (fun producer => owned_frames (owned producer)) globalSequence

theorem RxKeeps.membership (keeps : RxKeeps client consumer before after) (membership : Membership setup before) :
    Membership setup after := by
  refine membership.congr keeps.slot keeps.alive keeps.tx keeps.globalSequence keeps.owned (fun other => ?_)
    fun producer other _ => ?_
  · by_cases same : other = client
    · exact same ▸ keeps.registration
    · rw [keeps.clients other same]
  · by_cases same : other = consumer
    · exact same ▸ keeps.generation producer
    · rw [(keeps.progress other same).1 producer]

end Receive

/-- An action that rewrites a slot without an owner. -/
structure SlotKeeps (consumer : Fin m) (before after : State n m K) : Prop where
  gate : after.registrationGate = before.registrationGate
  clock : after.clock = before.clock
  alive : after.alive = before.alive
  tx : after.tx = before.tx
  globalSequence : after.globalSequence = before.globalSequence
  owned : ∀ producer, (after.ring producer).owned = (before.ring producer).owned
  client : after.client = before.client
  slots : ∀ other, other ≠ consumer → after.slot other = before.slot other
  inactive : ¬ before.slotActive consumer → ¬ after.slotActive consumer
  progress : ∀ other, other ≠ consumer → State.SameProgress before after other

namespace SlotKeeps

variable {consumer : Fin m} {before after : State n m K}

theorem refl (consumer : Fin m) (state : State n m K) : SlotKeeps consumer state state :=
  ⟨rfl, rfl, rfl, rfl, rfl, fun _ => rfl, rfl, fun _ _ => rfl, id, fun other _ => .refl state other⟩

theorem of_setSlot (consumer : Fin m) (state : State n m K) (change : ConsumerSlot → ConsumerSlot)
    (inactive : ¬ state.slotActive consumer → phase (change (state.slot consumer)).state ≠ kActive) :
    SlotKeeps consumer state (state.setSlot consumer change) where
  gate := rfl
  clock := rfl
  alive := rfl
  tx := rfl
  globalSequence := rfl
  owned _ := rfl
  client := rfl
  slots other different := by simp [different]
  inactive free := by simpa [State.slotActive] using inactive free
  progress _ _ := .refl state _

theorem of_setCursor (consumer : Fin m) (state : State n m K) (producer : Fin n)
    (change : ConsumerSharedState → ConsumerSharedState) :
    SlotKeeps consumer state (state.setCursor producer consumer change) where
  gate := rfl
  clock := rfl
  alive := rfl
  tx := rfl
  globalSequence := rfl
  owned other := state.setCursor_owned producer other consumer change
  client := rfl
  slots _ _ := rfl
  inactive := id
  progress _ different := ⟨fun _ => State.setCursor_cursor_of_ne _ _ _ _ _ _ (.inr different), rfl⟩

theorem of_consumerSequences (consumer : Fin m) (state : State n m K) (sequence : Nat) :
    SlotKeeps consumer state
      {state with consumerSequences := Function.update state.consumerSequences consumer sequence} :=
  ⟨rfl, rfl, rfl, rfl, rfl, fun _ => rfl, rfl, fun _ _ => rfl, id,
    fun _ different => ⟨fun _ => rfl, Function.update_of_ne different _ _⟩⟩

variable {setup : Setup n m K} {client : K}

theorem step [DecidableEq K] (keeps : SlotKeeps consumer before after) (registering : Registering client before)
    (free : ¬ before.slotActive consumer) : RxStep setup client before after where
  owned := keeps.owned
  tx := keeps.tx
  globalSequence := keeps.globalSequence
  clock := keeps.clock
  alive := keeps.alive
  clients other _ := by rw [keeps.client]
  gate := .inl keeps.gate
  slot other := by
    by_cases same : other = consumer
    · exact .inr ⟨registering, fun active => absurd (same ▸ active) free⟩
    · exact .inl (keeps.slots other same)
  progress other := by
    by_cases same : other = consumer
    · exact .inr (.inr ⟨registering, same ▸ free⟩)
    · exact .inl (keeps.progress other same)
  activates other active := by
    by_cases same : other = consumer
    · exact absurd (same ▸ active) (keeps.inactive free)
    · exact .inl (keeps.slots other same)

theorem registering (keeps : SlotKeeps consumer before after) (registering : Registering client before) :
    Registering client after :=
  ⟨keeps.gate.trans registering.1, fun producer =>
    (owned_claimActive (keeps.owned producer)).trans (registering.2 producer)⟩

end SlotKeeps

/-- A slot may lose its activity when no live client owns it. -/
theorem Membership.rewriteSlot {setup : Setup n m K} {before after : State n m K} {consumer : Fin m}
    (membership : Membership setup before) (alive : after.alive = before.alive) (tx : after.tx = before.tx)
    (globalSequence : after.globalSequence = before.globalSequence)
    (owned : ∀ producer, (after.ring producer).owned = (before.ring producer).owned)
    (client : ∀ other, (after.client other).registration = (before.client other).registration ∨
      (after.client other).registration = none)
    (slots : ∀ other, other ≠ consumer → after.slot other = before.slot other)
    (progress : ∀ other, other ≠ consumer → State.SameProgress before after other)
    (inactive : ¬ after.slotActive consumer)
    (unowned : ∀ other token, before.lives setup other →
      (after.client other).registration ≠ some (consumer, token))
    (kept : ∀ other current, current ≠ consumer → Owns setup before other current →
      (after.client other).registration = (before.client other).registration) : Membership setup after where
  owner other active := by
    have different : other ≠ consumer := fun same => inactive (same ▸ active)
    rw [State.slotActive, slots other different] at active
    obtain ⟨owner, owns⟩ := membership.owner other active
    have registration := kept owner other different owns
    exact ⟨owner, by rw [registration, slots other different]; exact owns.registration,
      by rw [slots other different]; exact owns.processId, by rw [slots other different]; exact owns.pid,
      by rw [slots other different]; exact owns.processStart⟩
  registered other current token lives registered := by
    rw [lives_congr alive] at lives
    have different : current ≠ consumer := fun same => unowned other token lives (same ▸ registered)
    have earlier : (before.client other).registration = some (current, token) := by
      rcases client other with same | none
      · exact same ▸ registered
      · exact absurd (none.symm.trans registered) (by simp)
    obtain ⟨active, owns, generations⟩ := membership.registered other current token lives earlier
    have word : token = (before.slot current).state := by
      have := owns.registration.symm.trans earlier
      simpa using this.symm
    refine ⟨by rw [State.slotActive, slots current different]; exact active,
      ⟨by rw [registered, slots current different, word], by rw [slots current different]; exact owns.processId,
        by rw [slots current different]; exact owns.pid, by rw [slots current different]; exact owns.processStart⟩,
      fun producer => ?_⟩
    rw [(progress current different).1 producer]
    exact generations producer
  exclusive first second current one two firstLives secondLives firstRegistered secondRegistered := by
    refine membership.exclusive first second current one two ((lives_congr alive _).mp firstLives)
      ((lives_congr alive _).mp secondLives) ?_ ?_
    · rcases client first with same | none
      · exact same ▸ firstRegistered
      · exact absurd (none.symm.trans firstRegistered) (by simp)
    · rcases client second with same | none
      · exact same ▸ secondRegistered
      · exact absurd (none.symm.trans secondRegistered) (by simp)
  exact producer := by
    rw [tally_congr (by rw [tx]) (owned producer)]
    exact membership.exact producer
  settled producer closed := by
    rw [tally_congr (by rw [tx]) (owned producer)]
    exact membership.settled producer ((owned_claimActive (owned producer)).symm.trans closed)
  numbered ordered := (membership.numbered ordered).congr
    (fun producer => owned_frames (owned producer)) globalSequence

theorem SlotKeeps.membership {setup : Setup n m K} {before after : State n m K} {consumer : Fin m}
    (keeps : SlotKeeps consumer before after) (free : ¬ before.slotActive consumer)
    (membership : Membership setup before) : Membership setup after := by
  refine membership.rewriteSlot keeps.alive keeps.tx keeps.globalSequence keeps.owned
    (fun other => .inl (by rw [keeps.client])) keeps.slots keeps.progress (keeps.inactive free)
    (fun other token lives registered => ?_) fun other current _ _ => by rw [keeps.client]
  rw [keeps.client] at registered
  exact free (membership.registered other consumer token lives registered).1

end Salias.SharedHybridMpsc
