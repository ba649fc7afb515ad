import Salias.Channel.State

/-
What an update of one component of the state leaves unchanged.
-/

namespace Salias.SharedHybridMpsc

open Concurrent ConsumerRegistration

/-- The words of a ring that only its producer writes, and the history of the ring. -/
def ProducerRing.owned {m : Nat} (ring : ProducerRing m) : ProducerRing m :=
  {ring with consumers := fun _ => {}}

namespace State

variable {n m : Nat} {K : Type} (state : State n m K)

section Ring

variable (producer other : Fin n) (change : ProducerRing m → ProducerRing m)

@[simp] theorem setRing_ring : (state.setRing producer change).ring producer = change (state.ring producer) := by
  simp [setRing]

@[simp] theorem setRing_ring_of_ne (different : other ≠ producer) :
    (state.setRing producer change).ring other = state.ring other := by
  simp [setRing, different]

@[simp] theorem setRing_slot : (state.setRing producer change).slot = state.slot := rfl
@[simp] theorem setRing_consumerSequences :
    (state.setRing producer change).consumerSequences = state.consumerSequences := rfl
@[simp] theorem setRing_globalSequence :
    (state.setRing producer change).globalSequence = state.globalSequence := rfl
@[simp] theorem setRing_registrationGate :
    (state.setRing producer change).registrationGate = state.registrationGate := rfl
@[simp] theorem setRing_clock : (state.setRing producer change).clock = state.clock := rfl
@[simp] theorem setRing_alive : (state.setRing producer change).alive = state.alive := rfl
@[simp] theorem setRing_tx : (state.setRing producer change).tx = state.tx := rfl
@[simp] theorem setRing_client : (state.setRing producer change).client = state.client := rfl

end Ring

section Cursor

variable (producer other : Fin n) (consumer : Fin m) (change : ConsumerSharedState → ConsumerSharedState)

/-- The words of a consumer in a ring. -/
def cursor (state : State n m K) (producer : Fin n) (consumer : Fin m) : ConsumerSharedState :=
  (state.ring producer).consumers consumer

@[simp] theorem setCursor_cursor :
    (state.setCursor producer consumer change).cursor producer consumer =
      change (state.cursor producer consumer) := by
  simp [setCursor, cursor]

theorem setCursor_cursor_of_ne (current : Fin m) (different : other ≠ producer ∨ current ≠ consumer) :
    (state.setCursor producer consumer change).cursor other current = state.cursor other current := by
  by_cases same : other = producer
  · subst same
    have apart : current ≠ consumer := by simpa using different
    simp [setCursor, cursor, apart]
  · simp [setCursor, cursor, same]

@[simp] theorem setCursor_owned :
    ((state.setCursor producer consumer change).ring other).owned = (state.ring other).owned := by
  by_cases same : other = producer
  · subst same
    simp [setCursor, ProducerRing.owned]
  · simp [setCursor, same]

@[simp] theorem setCursor_slot : (state.setCursor producer consumer change).slot = state.slot := rfl
@[simp] theorem setCursor_consumerSequences :
    (state.setCursor producer consumer change).consumerSequences = state.consumerSequences := rfl
@[simp] theorem setCursor_globalSequence :
    (state.setCursor producer consumer change).globalSequence = state.globalSequence := rfl
@[simp] theorem setCursor_registrationGate :
    (state.setCursor producer consumer change).registrationGate = state.registrationGate := rfl
@[simp] theorem setCursor_clock : (state.setCursor producer consumer change).clock = state.clock := rfl
@[simp] theorem setCursor_alive : (state.setCursor producer consumer change).alive = state.alive := rfl
@[simp] theorem setCursor_tx : (state.setCursor producer consumer change).tx = state.tx := rfl
@[simp] theorem setCursor_client : (state.setCursor producer consumer change).client = state.client := rfl

end Cursor

section Tx

variable (producer other : Fin n) (change : Tx → Tx)

@[simp] theorem setTx_tx : (state.setTx producer change).tx producer = change (state.tx producer) := by
  simp [setTx]

@[simp] theorem setTx_tx_of_ne (different : other ≠ producer) :
    (state.setTx producer change).tx other = state.tx other := by
  simp [setTx, different]

@[simp] theorem setTx_ring : (state.setTx producer change).ring = state.ring := rfl
@[simp] theorem setTx_slot : (state.setTx producer change).slot = state.slot := rfl
@[simp] theorem setTx_consumerSequences :
    (state.setTx producer change).consumerSequences = state.consumerSequences := rfl
@[simp] theorem setTx_globalSequence : (state.setTx producer change).globalSequence = state.globalSequence := rfl
@[simp] theorem setTx_registrationGate :
    (state.setTx producer change).registrationGate = state.registrationGate := rfl
@[simp] theorem setTx_clock : (state.setTx producer change).clock = state.clock := rfl
@[simp] theorem setTx_alive : (state.setTx producer change).alive = state.alive := rfl
@[simp] theorem setTx_client : (state.setTx producer change).client = state.client := rfl

end Tx

section Slot

variable (consumer other : Fin m) (change : ConsumerSlot → ConsumerSlot)

@[simp] theorem setSlot_slot : (state.setSlot consumer change).slot consumer = change (state.slot consumer) := by
  simp [setSlot]

@[simp] theorem setSlot_slot_of_ne (different : other ≠ consumer) :
    (state.setSlot consumer change).slot other = state.slot other := by
  simp [setSlot, different]

@[simp] theorem setSlot_ring : (state.setSlot consumer change).ring = state.ring := rfl
@[simp] theorem setSlot_consumerSequences :
    (state.setSlot consumer change).consumerSequences = state.consumerSequences := rfl
@[simp] theorem setSlot_globalSequence :
    (state.setSlot consumer change).globalSequence = state.globalSequence := rfl
@[simp] theorem setSlot_registrationGate :
    (state.setSlot consumer change).registrationGate = state.registrationGate := rfl
@[simp] theorem setSlot_clock : (state.setSlot consumer change).clock = state.clock := rfl
@[simp] theorem setSlot_alive : (state.setSlot consumer change).alive = state.alive := rfl
@[simp] theorem setSlot_tx : (state.setSlot consumer change).tx = state.tx := rfl
@[simp] theorem setSlot_client : (state.setSlot consumer change).client = state.client := rfl

end Slot

section Client

variable [DecidableEq K] (client other : K) (change : Client n m → Client n m)

@[simp] theorem setClient_client :
    (state.setClient client change).client client = change (state.client client) := by
  simp [setClient]

@[simp] theorem setClient_client_of_ne (different : other ≠ client) :
    (state.setClient client change).client other = state.client other := by
  simp [setClient, different]

@[simp] theorem setClient_ring : (state.setClient client change).ring = state.ring := rfl
@[simp] theorem setClient_slot : (state.setClient client change).slot = state.slot := rfl
@[simp] theorem setClient_consumerSequences :
    (state.setClient client change).consumerSequences = state.consumerSequences := rfl
@[simp] theorem setClient_globalSequence :
    (state.setClient client change).globalSequence = state.globalSequence := rfl
@[simp] theorem setClient_registrationGate :
    (state.setClient client change).registrationGate = state.registrationGate := rfl
@[simp] theorem setClient_clock : (state.setClient client change).clock = state.clock := rfl
@[simp] theorem setClient_alive : (state.setClient client change).alive = state.alive := rfl
@[simp] theorem setClient_tx : (state.setClient client change).tx = state.tx := rfl

end Client

/-- Liveness depends on the processes alone. -/
theorem isRegisteredProcessAlive_congr {before after : State n m K} (same : after.alive = before.alive) :
    after.isRegisteredProcessAlive = before.isRegisteredProcessAlive := by
  funext pid start
  simp [isRegisteredProcessAlive, same]

end State
end Salias.SharedHybridMpsc
