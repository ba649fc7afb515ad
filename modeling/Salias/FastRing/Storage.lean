import Salias.FastRing.Layout

/-
The creation of a fast ring in a span of bytes. A ring of many producers clears its lanes and creates one ring in each.
-/

namespace Salias.FastRing

/-- The bytes of the address space. -/
abbrev Memory := Circular.Bytes

def kAddresses : Nat := 2 ^ 64

def loadAt (memory : Memory) (address : Nat) : Nat := Circular.loadWord kAddresses memory address

def storeAt (size address value : Nat) (memory : Memory) : Memory :=
  Circular.write kAddresses memory address (Circular.encode size value)

/-- `std::memset` with zero. -/
def clearAt (address size : Nat) (memory : Memory) : Memory :=
  Circular.write kAddresses memory address (List.replicate size 0)

/-- The reasons for which `create` refuses its storage. -/
inductive StorageError where
  | StorageTooSmall
  | UnalignedStorage
  | AlreadyInitialized
  deriving DecidableEq

def Topology.kMagic : Topology → Nat
  | .spsc => 0x5341465350534332
  | .spmc => 0x53414653504D4332
  | .mpsc => 0x5341464D50534331
  | .mpmc => 0x5341464D504D4331

def Topology.kVersion : Topology → Nat
  | .spsc | .spmc => 2
  | .mpsc | .mpmc => 1

def readyAddress (base : Nat) : Nat := base + IdentityWord.ready.offset.toNat

/-- The checks of `create`. -/
def refused (required base size : Nat) (memory : Memory) : Option StorageError :=
  if size < required then some .StorageTooSmall
  else if base % kCacheLine.toNat ≠ 0 then some .UnalignedStorage
  else if loadAt memory (readyAddress base) = 1 then some .AlreadyInitialized
  else none

/-- The words that `create` stores before the ring is ready. -/
def Template.identity (template : Template) (topology : Topology) : List (IdentityWord × Nat) :=
  [(.magic, topology.kMagic), (.version, topology.kVersion), (.payloadSize, template.payloadSize.toNat),
    (.capacity, template.capacity.toNat)] ++
  match topology with
  | .spsc => []
  | .spmc => [(.count, template.consumers.toNat)]
  | .mpsc => [(.count, template.producers.toNat)]
  | .mpmc => [(.count, template.producers.toNat), (.consumerCount, template.consumers.toNat)]

def storeIdentity (base : Nat) (words : List (IdentityWord × Nat)) (memory : Memory) : Memory :=
  words.foldl (fun memory entry => storeAt entry.1.size (base + entry.1.offset.toNat) entry.2 memory) memory

/-- `create` of a ring without nested rings. -/
def createRing (template : Template) (base size : Nat) (memory : Memory) : Except StorageError Unit × Memory :=
  match refused template.laneStorageSize.toNat base size memory with
  | some error => (.error error, memory)
  | none =>
      let cleared := clearAt base template.laneStorageSize.toNat memory
      let identified := storeIdentity base (template.identity template.topology.nested) cleared
      (.ok (), storeAt 8 (readyAddress base) 1 identified)

def createLanes (template : Template) : List Nat → Memory → Except StorageError Unit × Memory
  | [], memory => (.ok (), memory)
  | base :: rest, memory =>
      match createRing template base template.laneStorageSize.toNat memory with
      | (.error error, memory) => (.error error, memory)
      | (.ok (), memory) => createLanes template rest memory

/-- The addresses of the lanes. -/
def Template.laneBases (template : Template) (base : Nat) : List Nat :=
  (List.range template.producers.toNat).map fun producer => base + (template.laneOffset (UInt64.ofNat producer)).toNat

/-- `create` of a ring of many producers. -/
def createMany (template : Template) (base size : Nat) (memory : Memory) : Except StorageError Unit × Memory :=
  match refused template.requiredStorageSize.toNat base size memory with
  | some error => (.error error, memory)
  | none =>
      let cleared := (template.laneBases base).foldl
        (fun memory lane => clearAt lane template.laneDataOffset.toNat memory)
        (clearAt base Lanes.kLaneOffset.toNat memory)
      let identified := storeIdentity base (template.identity template.topology) cleared
      match createLanes template (template.laneBases base) identified with
      | (.error error, memory) => (.error error, memory)
      | (.ok (), memory) => (.ok (), storeAt 8 (readyAddress base) 1 memory)

def create (template : Template) (base size : Nat) (memory : Memory) : Except StorageError Unit × Memory :=
  if template.topology.manyLanes then createMany template base size memory else createRing template base size memory

section Writes

/-- Only bytes of a range have changed. -/
def WritesInside (start stop : Nat) (before after : Memory) : Prop :=
  ∀ address, address < kAddresses → address < start ∨ stop ≤ address → after address = before address

variable {start stop : Nat} {before middle after memory : Memory}

theorem WritesInside.refl (start stop : Nat) (memory : Memory) : WritesInside start stop memory memory :=
  fun _ _ _ => rfl

theorem WritesInside.trans (first : WritesInside start stop before middle)
    (second : WritesInside start stop middle after) : WritesInside start stop before after := by
  intro address bounded outside
  exact (second address bounded outside).trans (first address bounded outside)

theorem WritesInside.mono {low high : Nat} (writes : WritesInside start stop before after) (above : low ≤ start)
    (below : stop ≤ high) : WritesInside low high before after := by
  intro address bounded outside
  exact writes address bounded (by omega)

theorem writesInside_write (memory : Memory) (address : Nat) (data : List UInt8)
    (fits : address + data.length ≤ kAddresses) :
    WritesInside address (address + data.length) memory (Circular.write kAddresses memory address data) := by
  intro other bounded outside
  refine Circular.write_other memory address other data fun index below same => ?_
  rw [Nat.mod_eq_of_lt (by omega)] at same
  omega

theorem writesInside_storeAt (size address value : Nat) (memory : Memory) (fits : address + size ≤ kAddresses) :
    WritesInside address (address + size) memory (storeAt size address value memory) := by
  have writes := writesInside_write memory address (Circular.encode size value)
  rw [Circular.length_encode] at writes
  exact writes fits

theorem writesInside_clearAt {size address : Nat} (memory : Memory) (fits : address + size ≤ kAddresses) :
    WritesInside address (address + size) memory (clearAt address size memory) := by
  have writes := writesInside_write memory address (List.replicate size 0)
  rw [List.length_replicate] at writes
  exact writes fits

/-- A word outside of the range keeps its value. -/
theorem WritesInside.loadAt (writes : WritesInside start stop before after) {address : Nat}
    (fits : address + 8 ≤ kAddresses) (outside : address + 8 ≤ start ∨ stop ≤ address) :
    loadAt after address = loadAt before address := by
  unfold FastRing.loadAt Circular.loadWord
  rw [Circular.read_congr]
  intro index below
  rw [Nat.mod_eq_of_lt (by omega)]
  exact writes _ (by omega) (by omega)

/-- A cleared word is zero. -/
theorem loadAt_clearAt {size address word : Nat} (memory : Memory) (fits : address + size ≤ kAddresses)
    (above : address ≤ word) (below : word + 8 ≤ address + size) : loadAt (clearAt address size memory) word = 0 := by
  have zeros : Circular.read kAddresses (clearAt address size memory) word 8 = List.replicate 8 0 := by
    apply List.ext_getElem (by simp)
    intro index inside _
    have within : word - address + index < (List.replicate size (0 : UInt8)).length := by
      rw [Circular.length_read] at inside
      rw [List.length_replicate]
      omega
    have room : (List.replicate size (0 : UInt8)).length ≤ kAddresses := by
      rw [List.length_replicate]
      omega
    have stored := Circular.write_at memory address (List.replicate size 0) room (word - address + index) within
    rw [show address + (word - address + index) = word + index by omega, List.getElem_replicate] at stored
    simp only [Circular.read, List.getElem_map, List.getElem_range, List.getElem_replicate, clearAt]
    exact stored
  rw [loadAt, Circular.loadWord, zeros]
  decide

theorem writesInside_storeIdentity (base : Nat) (words : List (IdentityWord × Nat)) (memory : Memory)
    (fits : base + 56 ≤ kAddresses) : WritesInside base (base + 56) memory (storeIdentity base words memory) := by
  induction words generalizing memory with
  | nil => exact .refl _ _ _
  | cons entry rest ih =>
      have stops : entry.1.offset.toNat + entry.1.size ≤ 56 := entry.1.stop_le
      have stored := writesInside_storeAt entry.1.size (base + entry.1.offset.toNat) entry.2 memory (by omega)
      exact (stored.mono (Nat.le_add_right _ _) (by omega)).trans (ih _)

end Writes

section Create

variable {template : Template} {base : Nat}

/-- A ring is created inside its own storage. -/
theorem writesInside_createRing (size : Nat) (memory : Memory) (fits : base + template.ring ≤ kAddresses) :
    WritesInside base (base + template.ring) memory (createRing template base size memory).2 := by
  have room : 256 ≤ template.ring := by
    have some := template.cursorCount_pos
    rw [template.ring_eq]
    omega
  have ready : readyAddress base = base + 32 := rfl
  unfold createRing
  split
  · exact .refl _ _ _
  · rw [template.laneStorageSize_eq]
    have identified := writesInside_storeIdentity base (template.identity template.topology.nested)
      (clearAt base template.ring memory) (by omega)
    have last := writesInside_storeAt 8 (readyAddress base) 1
      (storeIdentity base (template.identity template.topology.nested) (clearAt base template.ring memory)) (by omega)
    exact ((writesInside_clearAt memory fits).trans (identified.mono le_rfl (by omega))).trans
      (last.mono (by omega) (by omega))

/-- The lanes can be created as long as none of them is marked ready. -/
theorem createLanes_ok (bases : List Nat) (memory : Memory)
    (fits : ∀ lane ∈ bases, lane + template.ring ≤ kAddresses) (aligned : ∀ lane ∈ bases, 128 ∣ lane)
    (apart : bases.Pairwise fun first second => first + template.ring ≤ second)
    (fresh : ∀ lane ∈ bases, loadAt memory (readyAddress lane) = 0) : (createLanes template bases memory).1 = .ok () := by
  have room : 256 ≤ template.ring := by
    have some := template.cursorCount_pos
    rw [template.ring_eq]
    omega
  induction bases generalizing memory with
  | nil => rfl
  | cons lane rest ih =>
      have accepted : refused template.laneStorageSize.toNat lane template.laneStorageSize.toNat memory = none := by
        have whole : lane % kCacheLine.toNat = 0 := Nat.mod_eq_zero_of_dvd (aligned lane List.mem_cons_self)
        rw [refused, if_neg (lt_irrefl _), if_neg (not_not.mpr whole), fresh lane List.mem_cons_self]
        rfl
      have writes := writesInside_createRing template.laneStorageSize.toNat memory (fits lane List.mem_cons_self)
      have created : (createRing template lane template.laneStorageSize.toNat memory).1 = .ok () := by
        simp only [createRing, accepted]
      obtain ⟨first, others⟩ := List.pairwise_cons.mp apart
      unfold createLanes
      generalize createRing template lane template.laneStorageSize.toNat memory = result at created writes
      obtain ⟨outcome, next⟩ := result
      dsimp only at created writes
      subst created
      apply ih next (fun other member => fits other (List.mem_cons_of_mem _ member))
        (fun other member => aligned other (List.mem_cons_of_mem _ member)) others
      intro other member
      have later := first other member
      have inside := fits other (List.mem_cons_of_mem _ member)
      have ready : readyAddress other = other + 32 := rfl
      rw [writes.loadAt (by omega) (by omega)]
      exact fresh other (List.mem_cons_of_mem _ member)

/-- A cleared lane is not marked ready, whatever is cleared after it. -/
theorem loadAt_clearLanes (bases : List Nat) (size : Nat) (memory : Memory) (room : 40 ≤ size)
    (fits : ∀ lane ∈ bases, lane + size ≤ kAddresses)
    (apart : bases.Pairwise fun first second => first + size ≤ second) {lane : Nat} (member : lane ∈ bases) :
    loadAt (bases.foldl (fun memory lane => clearAt lane size memory) memory) (readyAddress lane) = 0 := by
  have ready : readyAddress lane = lane + 32 := rfl
  have keeps (rest : List Nat) (memory : Memory) (fits : ∀ other ∈ rest, other + size ≤ kAddresses)
      (within : lane + size ≤ kAddresses) (later : ∀ other ∈ rest, lane + size ≤ other) :
      loadAt (rest.foldl (fun memory lane => clearAt lane size memory) memory) (readyAddress lane) =
        loadAt memory (readyAddress lane) := by
    induction rest generalizing memory with
    | nil => rfl
    | cons other rest ih =>
        have begins := later other List.mem_cons_self
        rw [List.foldl_cons, ih _ (fun other member => fits other (List.mem_cons_of_mem _ member))
          fun other member => later other (List.mem_cons_of_mem _ member)]
        exact (writesInside_clearAt memory (fits other List.mem_cons_self)).loadAt (by omega) (by omega)
  induction bases generalizing memory with
  | nil => cases member
  | cons first rest ih =>
      obtain ⟨before, others⟩ := List.pairwise_cons.mp apart
      have within := fits first List.mem_cons_self
      rcases List.mem_cons.mp member with same | member
      · subst same
        rw [List.foldl_cons, keeps rest _ (fun other member => fits other (List.mem_cons_of_mem _ member)) within before]
        exact loadAt_clearAt memory within (by omega) (by omega)
      · exact ih _ (fun other member => fits other (List.mem_cons_of_mem _ member)) others member

/-- The lanes follow each other inside the storage. -/
theorem Template.laneBases_spec (many : template.topology.manyLanes = true) (aligned : 128 ∣ base) :
    (∀ lane ∈ template.laneBases base, base + 128 ≤ lane ∧ 128 ∣ lane ∧
      lane + template.ring ≤ base + template.requiredStorageSize.toNat) ∧
      (template.laneBases base).Pairwise fun first second => first + template.ring ≤ second := by
  have small := template.producers.toNat_lt
  have index {producer : Nat} (below : producer < template.producers.toNat) :
      (UInt64.ofNat producer).toNat = producer := by
    rw [UInt64.toNat_ofNat']
    exact Nat.mod_eq_of_lt (by omega)
  constructor
  · intro lane member
    obtain ⟨producer, below, rfl⟩ := List.mem_map.mp member
    rw [List.mem_range] at below
    have within : (UInt64.ofNat producer).toNat < template.laneCount := by
      rw [index below, laneCount, many, if_pos rfl]
      exact below
    obtain ⟨line, start⟩ := laneOffset_aligned within
    have stops := laneArea_stop_le within
    simp only [laneArea, Area.stop] at stops
    exact ⟨Nat.add_le_add_left (start many) _, Nat.dvd_add aligned line, by omega⟩
  · rw [laneBases, List.pairwise_map]
    refine List.pairwise_lt_range.imp_of_mem fun {first second} one two before => ?_
    rw [List.mem_range] at one two
    have low := template.laneOffset_eq many (index one |>.trans_lt one)
    have high := template.laneOffset_eq many (index two |>.trans_lt two)
    have step := Nat.mul_le_mul_right template.ring (show first + 1 ≤ second from before)
    rw [Nat.succ_mul] at step
    rw [low, high, index one, index two]
    omega

/-- The creation of a ring succeeds once it has accepted its storage. -/
theorem create_ok {size : Nat} {memory : Memory} (span : base + size ≤ kAddresses)
    (accepted : refused template.requiredStorageSize.toNat base size memory = none) :
    (create template base size memory).1 = .ok () := by
  cases many : template.topology.manyLanes with
  | false =>
      have whole : template.requiredStorageSize = template.laneStorageSize := by
        simp [Template.requiredStorageSize, many]
      rw [whole] at accepted
      simp [create, many, createRing, accepted]
  | true =>
      have parts : ¬ size < template.requiredStorageSize.toNat ∧ base % 128 = 0 := by
        unfold refused at accepted
        split at accepted
        · cases accepted
        · split at accepted
          · cases accepted
          · rename_i enough whole
            exact ⟨enough, not_not.mp whole⟩
      obtain ⟨enough, whole⟩ := parts
      obtain ⟨lanes, apart⟩ := Template.laneBases_spec many (Nat.dvd_of_mod_eq_zero whole)
      have data := template.laneDataOffset_eq
      have some := template.cursorCount_pos
      have split := template.ring_eq
      have required := template.requiredStorageSize_eq
      rw [many, if_pos rfl] at required
      have fits (lane : Nat) (member : lane ∈ template.laneBases base) : lane + template.ring ≤ kAddresses := by
        have := (lanes lane member).2.2
        omega
      have nested : (createLanes template (template.laneBases base) (storeIdentity base
          (template.identity template.topology) ((template.laneBases base).foldl
            (fun memory lane => clearAt lane template.laneDataOffset.toNat memory)
            (clearAt base Lanes.kLaneOffset.toNat memory)))).1 = .ok () := by
        apply createLanes_ok _ _ fits (fun lane member => (lanes lane member).2.1) apart
        intro lane member
        have begins := (lanes lane member).1
        have inside := fits lane member
        have ready : readyAddress lane = lane + 32 := rfl
        rw [(writesInside_storeIdentity base _ _ (by omega)).loadAt (by omega) (by omega)]
        apply loadAt_clearLanes _ _ _ (by omega) (fun other member => ?_) (apart.imp fun before => ?_) member
        · have := fits other member
          omega
        · omega
      simp only [create, many, if_true, createMany, accepted]
      generalize createLanes template (template.laneBases base) _ = result at nested ⊢
      obtain ⟨outcome, last⟩ := result
      dsimp only at nested
      subst nested
      rfl

end Create

/-- The parts of a ring share no byte and lie inside its storage, its atomic words are aligned, its lanes begin on
cache lines one after another, and the nested rings can be created. -/
theorem layout_sound (template : Template) :
    (∀ first second, template.Present first → template.Present second → first ≠ second →
      (template.area first).Apart (template.area second)) ∧
    (∀ part, template.Present part → (template.area part).stop ≤ template.requiredStorageSize.toNat) ∧
    (∀ part, template.Present part → part.atomic = true → 8 ∣ (template.area part).offset) ∧
    (∀ producer, producer.toNat < template.laneCount → 128 ∣ (template.laneArea producer).offset ∧
      (template.laneArea producer).stop ≤ template.requiredStorageSize.toNat ∧
      (∀ word, template.Present (.outer word) → (template.area (.outer word)).Apart (template.laneArea producer)) ∧
      ∀ other, other.toNat < template.laneCount → producer ≠ other →
        (template.laneArea producer).Apart (template.laneArea other)) ∧
    (∀ base size memory, base + size ≤ kAddresses →
      refused template.requiredStorageSize.toNat base size memory = none →
        (create template base size memory).1 = .ok ()) := by
  refine ⟨fun _ _ one two different => Template.area_apart one two different, fun _ present => Template.area_stop_le present,
    fun _ present atomic => Template.area_aligned present atomic, fun producer within => ?_,
    fun _ _ _ span accepted => create_ok span accepted⟩
  obtain ⟨aligned, begins⟩ := Template.laneOffset_aligned within
  refine ⟨aligned, Template.laneArea_stop_le within, fun word present => ?_, fun other two different =>
    Template.laneArea_apart within two different⟩
  left
  have start := begins present.1
  exact word.stop_le.trans (le_trans (by decide) start)

/-- Two producers with 4 slots each for messages of 24 bytes, and three consumers. -/
def smallTemplate : Template where
  topology := .mpmc
  payloadSize := 24
  capacity := 4
  producers := 2
  consumers := 3
  payload := by decide
  slots := by decide
  singleBit := by decide
  someProducer := by decide
  someConsumer := by decide
  small := by decide

theorem layout_sound_small :
    (smallTemplate.area (.lane 0 (.payload 3))).Apart (smallTemplate.area (.lane 1 (.identity .magic))) :=
  (layout_sound smallTemplate).1 _ _ ⟨by decide, show (3 : UInt64) < 4 by decide⟩
    ⟨by decide, show Topology.spmc.has .magic = true by decide⟩ (by decide)

end Salias.FastRing
