import Mathlib.Tactic

/-
The registration word packs a generation, a process id and a phase.
Every 64-bit word is a natural number.
-/

namespace Salias.ConsumerRegistration

def kPhaseMask : Nat := 0x7
def kFree : Nat := 0
def kPreparing : Nat := 1
def kInitializing : Nat := 2
def kActive : Nat := 3
def kReleasing : Nat := 4
def kReclaiming : Nat := 5
def kReliablePolicy : Nat := 0
def kDropOldestPolicy : Nat := 1
def kPidShift : Nat := 3
def kGenerationShift : Nat := 35
def kGenerationMask : Nat := 1 <<< 29 - 1

def makeToken (generation : Nat) (pid : UInt32) (phase : Nat) : Nat :=
  ((generation &&& kGenerationMask) <<< kGenerationShift) ||| (pid.toNat <<< kPidShift) ||| phase

def generation (token : Nat) : Nat := (token >>> kGenerationShift) &&& kGenerationMask

def processId (token : Nat) : UInt32 := UInt32.ofNat (token >>> kPidShift)

def phase (token : Nat) : Nat := token &&& kPhaseMask

theorem mask_eq_mod (word : Nat) : word &&& kGenerationMask = word % 2 ^ 29 := Nat.and_two_pow_sub_one_eq_mod word 29

theorem generation_lt (token : Nat) : generation token < 2 ^ 29 := by
  rw [generation, mask_eq_mod]
  exact Nat.mod_lt _ (by norm_num)

/-- The three fields of a token occupy disjoint bits. -/
theorem makeToken_eq (generation : Nat) (pid : UInt32) {phase : Nat} (small : phase < 8) :
    makeToken generation pid phase = (generation % 2 ^ 29 * 2 ^ 32 + pid.toNat) * 2 ^ 3 + phase := by
  have pidSmall : pid.toNat < 2 ^ 32 := pid.toNat_lt
  have upper : (generation % 2 ^ 29) <<< 35 ||| pid.toNat <<< 3 =
      (generation % 2 ^ 29 * 2 ^ 32 + pid.toNat) <<< 3 := by
    rw [← Nat.shiftLeft_add_eq_or_of_lt (b := pid.toNat <<< 3) (i := 35)]
    · simp only [Nat.shiftLeft_eq]
      ring
    · rw [Nat.shiftLeft_eq]
      omega
  rw [makeToken, mask_eq_mod, kGenerationShift, kPidShift, upper,
    ← Nat.shiftLeft_add_eq_or_of_lt (b := phase) (i := 3) (by omega), Nat.shiftLeft_eq]

@[simp] theorem phase_makeToken (generation : Nat) (pid : UInt32) {phase : Nat} (small : phase < 8) :
    ConsumerRegistration.phase (makeToken generation pid phase) = phase := by
  rw [ConsumerRegistration.phase, makeToken_eq _ _ small]
  have := Nat.and_two_pow_sub_one_eq_mod ((generation % 2 ^ 29 * 2 ^ 32 + pid.toNat) * 2 ^ 3 + phase) 3
  simp only [kPhaseMask]
  norm_num at this ⊢
  omega

@[simp] theorem processId_makeToken (generation : Nat) (pid : UInt32) {phase : Nat} (small : phase < 8) :
    processId (makeToken generation pid phase) = pid := by
  have pidSmall : pid.toNat < 2 ^ 32 := pid.toNat_lt
  apply UInt32.toNat_inj.mp
  rw [processId, makeToken_eq _ _ small, kPidShift, Nat.shiftRight_eq_div_pow, UInt32.toNat_ofNat']
  omega

@[simp] theorem generation_makeToken (generation : Nat) (pid : UInt32) {phase : Nat} (small : phase < 8) :
    ConsumerRegistration.generation (makeToken generation pid phase) = generation % 2 ^ 29 := by
  have pidSmall : pid.toNat < 2 ^ 32 := pid.toNat_lt
  rw [ConsumerRegistration.generation, mask_eq_mod, makeToken_eq _ _ small, kGenerationShift,
    Nat.shiftRight_eq_div_pow]
  omega

/-- A token of a nonzero phase is nonzero. -/
theorem makeToken_ne_zero (generation : Nat) (pid : UInt32) {phase : Nat} (small : phase < 8)
    (positive : 0 < phase) : makeToken generation pid phase ≠ 0 := by
  rw [makeToken_eq _ _ small]
  omega

/-- Tokens of one phase and generation separate the processes. -/
theorem makeToken_pid_injective (generation : Nat) {first second : UInt32} {phase : Nat} (small : phase < 8)
    (same : makeToken generation first phase = makeToken generation second phase) : first = second := by
  have := congrArg processId same
  rwa [processId_makeToken _ _ small, processId_makeToken _ _ small] at this

end Salias.ConsumerRegistration
