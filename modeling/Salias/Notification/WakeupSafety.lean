import Salias.Notification.Wakeup

/-
The producers keep what the receivers rely on, so no run loses a wakeup in which the epoch word does not run
around between a snapshot and a wait.
-/

namespace Salias.Notification

open Concurrent ConsumerRegistration

variable {n m : Nat} {R : Type}

section Producers

variable {setup : Setup} {slot : Fin m → Nat} {producer : Fin n} {consumer : Fin m}
  {state before after : State n m (Fin m) R}

abbrev producerContract (setup : Setup) (slot : Fin m → Nat) (producer : Fin n) : Contract (State n m (Fin m) R) :=
  (wakeDiscipline setup slot).contract (.producer producer)

/-- What a step of a producer has to keep: its notice stays pending at every armed ticket that it has not yet
passed, a taken ticket is noted, and the notice of a taken ticket stays until the epoch has moved and the sleepers
are awake. -/
structure Renotes (producer : Fin n) (before after : State n m (Fin m) R) : Prop where
  notifies : Notifies producer before after
  slot : after.slot = before.slot
  steps : before.steps ≤ after.steps
  visible : ∀ other, other ≠ producer → after.visible other = before.visible other
  fresh : after.visible producer = before.visible producer ∨
    ∃ notice, after.notice producer = some notice ∧ ∀ consumer, notice.Pending consumer
  ticket : ∀ consumer, after.ticket consumer = before.ticket consumer ∨ (after.ticket consumer = 0 ∧
    ∃ notice, after.notice producer = some notice ∧ notice.taken consumer = true ∧ notice.bumped = false)
  pending : ∀ consumer notice, before.active = true → phase (before.slot consumer) = kActive →
    before.ticket consumer = before.slot consumer → after.ticket consumer = before.ticket consumer →
    before.notice producer = some notice → notice.Pending consumer →
    ∃ later, after.notice producer = some later ∧ later.Pending consumer
  unbumped : ∀ consumer notice, before.notice producer = some notice → notice.taken consumer = true →
    notice.bumped = false → before.steps < after.steps ∨
      ∃ later, after.notice producer = some later ∧ later.taken consumer = true ∧ later.bumped = false
  taken : ∀ consumer notice, before.notice producer = some notice → notice.taken consumer = true →
    after.asleep consumer ≠ none → ∃ later, after.notice producer = some later ∧ later.taken consumer = true

theorem Renotes.taken_keeps (renotes : Renotes producer before after) (asleep : after.asleep consumer ≠ none)
    (taken : before.Taken consumer) : after.Taken consumer := by
  obtain ⟨other, notice, noted, taken⟩ := taken
  by_cases same : other = producer
  · subst same
    obtain ⟨later, noted, taken⟩ := renotes.taken consumer notice noted taken asleep
    exact ⟨other, later, noted, taken⟩
  · exact ⟨other, notice, (renotes.notifies.notice other same).trans noted, taken⟩

theorem Renotes.unbumped_keeps (renotes : Renotes producer before after) (unbumped : before.Unbumped consumer) :
    before.steps < after.steps ∨ after.Unbumped consumer := by
  obtain ⟨other, notice, noted, taken, early⟩ := unbumped
  by_cases same : other = producer
  · subst same
    exact (renotes.unbumped consumer notice noted taken early).imp_right fun ⟨later, noted, taken, early⟩ =>
      ⟨other, later, noted, taken, early⟩
  · exact .inr ⟨other, notice, (renotes.notifies.notice other same).trans noted, taken, early⟩

/-- A frame that is deliverable after the step was so before it, or its producer has just begun to notify. -/
theorem Renotes.covered_keeps (renotes : Renotes producer before after) (watched : Watched setup before consumer)
    (watches : (before.receiver consumer).watch ≠ .none) (armed : after.ticket consumer = after.slot consumer)
    {other : Fin n} (scanned : (before.receiver consumer).scanned other = true)
    (deliverable : after.next setup consumer other ≠ none) :
    ∃ notice, after.notice other = some notice ∧ notice.Pending consumer := by
  obtain ⟨wakes, live⟩ := watched.active watches
  have same : after.ticket consumer = before.ticket consumer := by
    refine (renotes.ticket consumer).resolve_right fun taken => ?_
    rw [taken.1, renotes.slot] at armed
    rw [← armed] at live
    exact absurd live (by decide)
  have earlier : before.ticket consumer = before.slot consumer := by
    rw [← same, armed, renotes.slot]
  have receiver := (renotes.notifies.aside consumer).receiver
  have kept (visible : after.visible other = before.visible other) :
      ∃ notice, before.notice other = some notice ∧ notice.Pending consumer := by
    rw [next_congr visible (by rw [receiver]) (by rw [receiver])] at deliverable
    exact watched.covered watches earlier other scanned deliverable
  by_cases mine : other = producer
  · subst mine
    rcases renotes.fresh with visible | ⟨notice, noted, pending⟩
    · obtain ⟨notice, noted, pending⟩ := kept visible
      exact renotes.pending consumer notice wakes live earlier same noted pending
    · exact ⟨notice, noted, pending consumer⟩
  · obtain ⟨notice, noted, pending⟩ := kept (renotes.visible other mine)
    exact ⟨notice, (renotes.notifies.notice other mine).trans noted, pending⟩

theorem Renotes.watched (renotes : Renotes producer before after) (watched : Watched setup before consumer) :
    Watched setup after consumer := by
  have aside := renotes.notifies.aside consumer
  have asleep (sleeps : after.asleep consumer = some true) : before.asleep consumer = some true :=
    aside.asleep.elim (fun same => same ▸ sleeps) fun awake => by simp [awake] at sleeps
  refine ⟨?_, ?_, ?_, ?_, ?_, fun sleeps => ?_, fun sleeps disarmed => ?_⟩
  · rw [aside.receiver]
    exact watched.seen.trans renotes.steps
  · rw [aside.receiver, renotes.slot]
    exact fun watches => (watched.active watches).imp_left aside.active
  · rw [aside.receiver]
    exact fun watches armed other scanned deliverable => renotes.covered_keeps watched watches armed scanned deliverable
  · rw [aside.receiver]
    exact watched.complete
  · rw [aside.receiver]
    intro checked disarmed
    have seen := watched.seen
    have steps := renotes.steps
    rcases renotes.ticket consumer with same | ⟨-, notice, noted, taken, early⟩
    · rw [same, renotes.slot] at disarmed
      rcases watched.moved checked disarmed with moved | unbumped
      · exact .inl (moved.trans_le steps)
      · exact (renotes.unbumped_keeps unbumped).imp_left fun moves => seen.trans_lt moves
    · exact .inr ⟨producer, notice, noted, taken, early⟩
  · rw [aside.receiver]
    exact watched.sleeping (asleep sleeps)
  · rcases renotes.ticket consumer with same | ⟨-, notice, noted, taken, -⟩
    · rw [same, renotes.slot] at disarmed
      exact renotes.taken_keeps (by simp [sleeps]) (watched.woken (asleep sleeps) disarmed)
    · exact ⟨producer, notice, noted, taken⟩

theorem Renotes.keeps (renotes : Renotes producer before after)
    (invariant : (wakeDiscipline (R := R) setup slot).invariant before) :
    (wakeDiscipline (R := R) setup slot).invariant after :=
  ⟨renotes.slot.trans invariant.1, fun consumer => renotes.watched (invariant.2 consumer)⟩

/-- A step that rewrites only the notice, and maybe moves the epoch or wakes the sleepers. -/
theorem Renotes.note {notice : Notice m} {change : Option (Notice m)} (mine : before.notice producer = some notice)
    (noted : after.notice = Function.update before.notice producer change) (slot : after.slot = before.slot)
    (steps : before.steps ≤ after.steps) (visible : after.visible = before.visible) (ticket : after.ticket = before.ticket)
    (receiver : after.receiver = before.receiver) (active : after.active = before.active)
    (asleep : ∀ consumer, after.asleep consumer = before.asleep consumer ∨ after.asleep consumer = none)
    (pending : ∀ consumer, before.active = true → phase (before.slot consumer) = kActive →
      before.ticket consumer = before.slot consumer → notice.Pending consumer →
      ∃ later, change = some later ∧ later.Pending consumer)
    (unbumped : ∀ consumer, notice.taken consumer = true → notice.bumped = false → before.steps < after.steps ∨
      ∃ later, change = some later ∧ later.taken consumer = true ∧ later.bumped = false)
    (taken : ∀ consumer, notice.taken consumer = true → after.asleep consumer ≠ none →
      ∃ later, change = some later ∧ later.taken consumer = true) : Renotes producer before after := by
  have own : after.notice producer = change := by
    rw [noted]
    exact Function.update_self ..
  have unique {other : Notice m} (same : before.notice producer = some other) : notice = other :=
    Option.some.inj (mine.symm.trans same)
  exact {
    notifies := ⟨fun consumer => ⟨by rw [receiver], .inl (by rw [ticket]), asleep consumer, fun was => active.trans was⟩,
      fun other different => by rw [noted]; exact Function.update_of_ne different ..⟩
    slot := slot
    steps := steps
    visible := fun _ _ => by rw [visible]
    fresh := .inl (by rw [visible])
    ticket := fun _ => .inl (by rw [ticket])
    pending := fun consumer other wakes live armed _ same waits => by
      rw [own]
      exact pending consumer wakes live armed (unique same ▸ waits)
    unbumped := fun consumer other same takes early => by
      rw [own]
      exact unbumped consumer (unique same ▸ takes) (unique same ▸ early)
    taken := fun consumer other same takes sleeps => by
      rw [own]
      exact taken consumer (unique same ▸ takes) sleeps }

/-- The slots that the producer has not yet passed are left, and it knows whether it has taken a ticket. -/
structure Rounds (producer : Fin n) (rest : List (Fin m)) (consumed : Bool) (notice : Notice m)
    (state : State n m (Fin m) R) : Prop where
  mine : state.notice producer = some notice
  early : notice.bumped = false
  passed : ∀ consumer, consumer ∈ rest ∨ notice.passed consumer = true
  taken : consumed = false → ∀ consumer, notice.taken consumer = false

/-- The notice may end. -/
structure Settled (producer : Fin n) (notice : Notice m) (state : State n m (Fin m) R) : Prop where
  mine : state.notice producer = some notice
  past : notice.quits = true ∨ ∀ consumer, notice.passed consumer = true
  taken : ∀ consumer, notice.taken consumer = false

section Rounds

variable {rest : List (Fin m)} {consumed : Bool} {notice : Notice m}

theorem Rounds.stable (rounds : Rounds producer rest consumed notice before)
    (same : after.notice producer = before.notice producer) : Rounds producer rest consumed notice after :=
  ⟨same.trans rounds.mine, rounds.early, rounds.passed, rounds.taken⟩

theorem Settled.stable (settled : Settled producer notice before)
    (same : after.notice producer = before.notice producer) : Settled producer notice after :=
  ⟨same.trans settled.mine, settled.past, settled.taken⟩

theorem Notice.not_pending (notice : Notice m) (passed : notice.passed consumer = true) : ¬ notice.Pending consumer :=
  fun pending => by simp [pending.2] at passed

theorem pass_notice (mine : state.notice producer = some notice) : (state.pass producer consumer).notice producer =
    some {notice with passed := Function.update notice.passed consumer true} := by
  simp [State.pass, State.setNotice, mine]

/-- A producer passes a slot that has no matching ticket. -/
theorem renotes_pass (consumer : Fin m) (mine : state.notice producer = some notice)
    (unarmed : phase (state.slot consumer) = kActive → state.ticket consumer ≠ state.slot consumer) :
    Renotes producer state (state.pass producer consumer) := by
  refine .note mine rfl rfl le_rfl rfl rfl rfl rfl (fun _ => .inl rfl) (fun other _ live armed pending => ?_)
    (fun other taken early => ?_) fun other taken _ => ?_
  · rw [mine]
    refine ⟨_, rfl, pending.1, ?_⟩
    have different : other ≠ consumer := fun same => unarmed (same ▸ live) (same ▸ armed)
    simpa [different] using pending.2
  · rw [mine]
    exact .inr ⟨_, rfl, taken, early⟩
  · rw [mine]
    exact ⟨_, rfl, taken⟩

/-- A slot that is passed is no longer left. -/
theorem Rounds.pass (rounds : Rounds producer (consumer :: rest) consumed notice state) :
    Rounds producer rest consumed {notice with passed := Function.update notice.passed consumer true}
      (state.pass producer consumer) := by
  refine ⟨pass_notice rounds.mine, rounds.early, fun other => ?_, rounds.taken⟩
  by_cases same : other = consumer
  · exact .inr (by simp [same])
  · exact (rounds.passed other).imp (fun waits => (List.mem_cons.mp waits).resolve_left same) fun passed => by
      simpa [same] using passed

/-- The producer takes the ticket of an active slot. -/
theorem take_keeps (rounds : Rounds producer (consumer :: rest) consumed notice state)
    (live : phase (state.slot consumer) = kActive) (armed : state.ticket consumer = state.slot consumer)
    {after : State n m (Fin m) R} (takes : after = ((state.setTicket consumer 0).pass producer consumer).setNotice producer
      (Option.map fun notice => {notice with taken := Function.update notice.taken consumer true})) :
    Renotes producer state after ∧ Rounds producer rest true
      {notice with
        passed := Function.update notice.passed consumer true
        taken := Function.update notice.taken consumer true} after := by
  have own : after.notice producer = some {notice with
      passed := Function.update notice.passed consumer true
      taken := Function.update notice.taken consumer true} := by
    subst takes
    simp [State.pass, State.setNotice, State.setTicket, rounds.mine]
  have here : after.ticket consumer = 0 := by
    subst takes
    exact Function.update_self ..
  have there (other : Fin m) (different : other ≠ consumer) : after.ticket other = state.ticket other := by
    subst takes
    exact Function.update_of_ne different ..
  have others (other : Fin n) (different : other ≠ producer) : after.notice other = state.notice other := by
    subst takes
    simp [State.pass, State.setNotice, State.setTicket, different]
  have unique {other : Notice m} (same : state.notice producer = some other) : notice = other :=
    Option.some.inj (rounds.mine.symm.trans same)
  have still (other : Fin m) (taken : notice.taken other = true) :
      Function.update notice.taken consumer true other = true := by
    by_cases same : other = consumer
    · simp [same]
    · simpa [same] using taken
  refine ⟨⟨⟨fun other => ?_, others⟩, ?_, ?_, ?_, ?_, fun other => ?_, fun other earlier _ _ _ same mine pending => ?_,
    fun other earlier mine taken early => ?_, fun other earlier mine taken _ => ?_⟩, own, rounds.early, fun other => ?_,
    nofun⟩
  · by_cases same : other = consumer
    · exact ⟨by subst takes; rfl, .inr (same ▸ here), .inl (by subst takes; rfl), fun was => by subst takes; exact was⟩
    · exact ⟨by subst takes; rfl, .inl (there other same), .inl (by subst takes; rfl),
        fun was => by subst takes; exact was⟩
  · subst takes
    rfl
  · subst takes
    exact le_rfl
  · subst takes
    exact fun _ _ => rfl
  · subst takes
    exact .inl rfl
  · by_cases same : other = consumer
    · exact .inr ⟨same ▸ here, _, own, by simp [same], rounds.early⟩
    · exact .inl (there other same)
  · refine ⟨_, own, (unique mine ▸ pending).1, ?_⟩
    have different : other ≠ consumer := by
      rintro rfl
      rw [here, armed] at same
      rw [← same] at live
      exact absurd live (by decide)
    simpa [different] using (unique mine ▸ pending).2
  · exact .inr ⟨_, own, still other (unique mine ▸ taken), rounds.early⟩
  · exact ⟨_, own, still other (unique mine ▸ taken)⟩
  · by_cases same : other = consumer
    · exact .inr (by simp [same])
    · exact (rounds.passed other).imp (fun waits => (List.mem_cons.mp waits).resolve_left same) fun passed => by
        simpa [same] using passed

theorem wakeRound_passes (rounds : Rounds producer (consumer :: rest) consumed notice state) :
    Safe (producerContract (R := R) setup slot producer)
      (fun result current => ∃ consumed notice, result = .inl consumed ∧ Rounds producer rest consumed notice current)
      (wakeRound producer consumed consumer) state := by
  have passes {current : State n m (Fin m) R} (rounds : Rounds producer (consumer :: rest) consumed notice current) :
      Safe (producerContract (R := R) setup slot producer)
        (fun result current => ∃ consumed notice, result = .inl consumed ∧ Rounds producer rest consumed notice current)
        (.ret (.inl consumed : Bool ⊕ Empty)) (current.pass producer consumer) :=
    fun _ between _ => ⟨_, _, rfl, rounds.pass.stable between⟩
  refine Safe.modifyGet_bind fun first between ready _ => ?_
  have rounds := rounds.stable between
  by_cases live : phase (first.slot consumer) = kActive
  swap
  · simp only [live, if_false, ne_eq, not_false_eq_true, if_true]
    have renotes := renotes_pass consumer rounds.mine fun is => absurd is live
    exact ⟨renotes.keeps ready.keeps, renotes.notifies, passes rounds⟩
  simp only [live, if_true, ne_eq, not_true, if_false]
  refine ⟨ready.keeps, (wakeLawful setup slot (.producer producer)).idle first, ?_⟩
  have registration := congrFun ready.keeps.1 consumer
  rw [registration] at live ⊢
  refine Safe.modifyGet_bind fun second between ready _ => ?_
  have rounds := rounds.stable between
  have current := congrFun ready.keeps.1 consumer
  by_cases other : second.ticket consumer = 0 ∨ second.ticket consumer ≠ slot consumer
  · have renotes := renotes_pass consumer rounds.mine fun is armed => by
      rw [armed] at other
      rcases other with none_ | different
      · rw [none_] at is
        exact absurd is (by decide)
      · exact different current
    simp only [other, if_true]
    exact ⟨renotes.keeps ready.keeps, renotes.notifies, passes rounds⟩
  simp only [other, if_false]
  refine ⟨ready.keeps, (wakeLawful setup slot (.producer producer)).idle second, ?_⟩
  refine Safe.modifyGet_bind fun third between ready _ => ?_
  have rounds := rounds.stable between
  have current := congrFun ready.keeps.1 consumer
  by_cases armed : third.ticket consumer = slot consumer
  · obtain ⟨renotes, taken⟩ := take_keeps rounds (current ▸ live) (armed.trans current.symm) rfl
    simp only [armed, if_true, decide_true, Bool.or_true]
    exact ⟨renotes.keeps ready.keeps, renotes.notifies, fun _ between _ => ⟨_, _, rfl, taken.stable between⟩⟩
  · simp only [armed, if_false, decide_false, Bool.or_false]
    have renotes := renotes_pass consumer rounds.mine fun _ same => armed (same.trans current)
    exact ⟨renotes.keeps ready.keeps, renotes.notifies, passes rounds⟩

/-- The second step of the epoch covers the tickets that were taken. -/
theorem renotes_bump (mine : state.notice producer = some notice) (moves : Bool) :
    Renotes producer state {state.setNotice producer (Option.map fun notice =>
      if moves then {notice with bumped := true} else notice) with steps := state.steps + 1} := by
  refine .note mine rfl rfl (Nat.le_succ _) rfl rfl rfl rfl (fun _ => .inl rfl) (fun other _ _ _ pending => ?_)
    (fun _ _ _ => .inl (Nat.lt_succ_self _)) fun other taken _ => ?_
  · rw [mine]
    exact ⟨_, rfl, by cases moves <;> exact pending⟩
  · rw [mine]
    exact ⟨_, rfl, by cases moves <;> exact taken⟩

theorem bump_notice (mine : state.notice producer = some notice) (moves : Bool) :
    ({state.setNotice producer (Option.map fun notice =>
      if moves then {notice with bumped := true} else notice) with steps := state.steps + 1} :
        State n m (Fin m) R).notice producer = some (if moves then {notice with bumped := true} else notice) := by
  simp [State.setNotice, mine]

theorem wakeConsumer_settles (mine : state.notice producer = some {}) :
    Safe (producerContract (R := R) setup slot producer) (fun _ current => ∃ notice, Settled producer notice current)
      (wakeConsumer producer) state := by
  have law := wakeLawful (n := n) (R := R) setup slot (.producer producer)
  refine Safe.modifyGet_bind fun first between ready _ => ?_
  have mine : first.notice producer = some {} := Eq.trans between mine
  cases active : first.active with
  | false =>
      have renotes : Renotes producer first
          (first.setNotice producer (Option.map fun notice => {notice with quits := true})) := by
        refine .note mine rfl rfl le_rfl rfl rfl rfl rfl (fun _ => .inl rfl) (fun _ wakes => ?_) nofun nofun
        simp [active] at wakes
      have settled : Settled producer {quits := true}
          (first.setNotice producer (Option.map fun notice => {notice with quits := true})) :=
        ⟨by simp [State.setNotice, mine], .inl rfl, fun _ => rfl⟩
      exact ⟨renotes.keeps ready.keeps, renotes.notifies, fun _ between _ => ⟨_, settled.stable between⟩⟩
  | true =>
      refine ⟨ready.keeps, law.idle first, Safe.store_bind fun second between ready _ => ?_⟩
      have mine : second.notice producer = some {} := Eq.trans between mine
      have renotes := renotes_bump mine false
      refine ⟨renotes.keeps ready.keeps, renotes.notifies, ?_⟩
      have entry : ∃ notice, Rounds producer (List.finRange m) false notice {second.setNotice producer (Option.map fun notice =>
          if false then {notice with bumped := true} else notice) with steps := second.steps + 1} :=
        ⟨_, bump_notice mine false, rfl, fun consumer => .inl (List.mem_finRange consumer), fun _ _ => rfl⟩
      refine Safe.bind law (Safe.foldUntil law
        (I := fun rest consumed current => ∃ notice, Rounds producer rest consumed notice current)
        (S := fun _ _ => False) (fun between _ ⟨_, rounds⟩ => ⟨_, rounds.stable between⟩)
        (fun consumer rest consumed current ⟨_, rounds⟩ => ?_) (fun _ _ => id) entry) fun scanned third _ held => ?_
      · refine Safe.weaken (wakeRound_passes rounds) fun result _ _ ⟨_, _, same, rounds⟩ => ?_
        subst same
        exact ⟨_, rounds⟩
      cases scanned with
      | inr stop => exact stop.elim
      | inl consumed =>
          obtain ⟨notice, rounds⟩ := held
          cases consumed with
          | false =>
              have settled : Settled producer notice third :=
                ⟨rounds.mine, .inr fun consumer => (rounds.passed consumer).resolve_left (by simp), rounds.taken rfl⟩
              exact fun _ between _ => ⟨_, settled.stable between⟩
          | true =>
              refine Safe.store_bind fun fourth between ready _ => ?_
              have rounds := rounds.stable between
              have renotes := renotes_bump rounds.mine true
              refine ⟨renotes.keeps ready.keeps, renotes.notifies, Safe.store_last
                fun fifth between ready _ => ?_⟩
              have mine : fifth.notice producer = some {notice with bumped := true} :=
                Eq.trans between (bump_notice rounds.mine true)
              have renotes : Renotes producer fifth {fifth.setNotice producer (Option.map fun notice =>
                  {notice with taken := fun _ => false}) with asleep := fun _ => none} := by
                refine .note mine rfl rfl le_rfl rfl rfl rfl rfl (fun _ => .inr rfl) (fun _ _ _ _ pending => ?_)
                  (fun _ _ early => by cases early) fun _ _ sleeps => absurd rfl sleeps
                rw [mine]
                exact ⟨_, rfl, pending⟩
              have settled : Settled producer {notice with bumped := true, taken := fun _ => false}
                  {fifth.setNotice producer (Option.map fun notice =>
                    {notice with taken := fun _ => false}) with asleep := fun _ => none} :=
                ⟨by simp [State.setNotice, mine], .inr fun consumer => (rounds.passed consumer).resolve_left (by simp),
                  fun _ => rfl⟩
              exact ⟨renotes.keeps ready.keeps, renotes.notifies, fun _ between _ => ⟨_, settled.stable between⟩⟩

end Rounds

/-- A visible frame begins a notice. -/
theorem renotes_publish (mine : state.notice producer = none) (frames : List Frame) :
    Renotes producer state {state.setNotice producer (fun _ => some {}) with
      visible := Function.update state.visible producer (state.visible producer ++ frames)} where
  notifies := ⟨fun _ => ⟨rfl, .inl rfl, .inl rfl, id⟩, fun _ different => Function.update_of_ne different ..⟩
  slot := rfl
  steps := le_rfl
  visible _ different := Function.update_of_ne different ..
  fresh := .inr ⟨{}, Function.update_self .., fun _ => ⟨rfl, rfl⟩⟩
  ticket _ := .inl rfl
  pending _ _ _ _ _ _ same := by simp [mine] at same
  unbumped _ _ same := by simp [mine] at same
  taken _ _ same := by simp [mine] at same

/-- A settled notice leaves nothing behind. -/
theorem renotes_settled {notice : Notice m} (settled : Settled producer notice state) :
    Renotes producer state (state.setNotice producer fun _ => none) := by
  refine .note settled.mine rfl rfl le_rfl rfl rfl rfl rfl (fun _ => .inl rfl) (fun consumer _ _ _ pending => ?_)
    (fun consumer taken => ?_) fun consumer taken => ?_
  · rcases settled.past with quits | passed
    · rw [pending.1] at quits
      cases quits
    · exact absurd pending (notice.not_pending (passed consumer))
  · rw [settled.taken consumer] at taken
    cases taken
  · rw [settled.taken consumer] at taken
    cases taken

theorem publishContiguous_notifies {frames : List Frame} (mine : state.notice producer = none) :
    Safe (producerContract (R := R) setup slot producer) (fun _ current => current.notice producer = none)
      (publishContiguous producer frames) state := by
  have law := wakeLawful (n := n) (R := R) setup slot (.producer producer)
  unfold publishContiguous
  split
  · exact fun _ between _ => Eq.trans between mine
  refine Safe.store_bind fun first between ready _ => ?_
  have renotes := renotes_publish (Eq.trans between mine) frames
  refine ⟨renotes.keeps ready.keeps, renotes.notifies, ?_⟩
  refine Safe.bind law (wakeConsumer_settles (Function.update_self ..)) fun _ second _ ⟨notice, settled⟩ => ?_
  refine Safe.store_last fun third between ready _ => ?_
  have renotes := renotes_settled (settled.stable between)
  exact ⟨renotes.keeps ready.keeps, renotes.notifies, fun _ between _ => Eq.trans between (Function.update_self ..)⟩

/-- A step of a producer that no receiver notices. -/
theorem Still.renotes (producer : Fin n) (still : Still before after) : Renotes producer before after where
  notifies := ⟨fun _ => still.aside, fun _ _ => by rw [still.notice]⟩
  slot := still.slot
  steps := still.steps.ge
  visible _ _ := by rw [still.visible]
  fresh := .inl (by rw [still.visible])
  ticket _ := .inl (by rw [still.ticket])
  pending _ notice _ _ _ _ same pending := ⟨notice, still.notice ▸ same, pending⟩
  unbumped _ notice same taken early := .inr ⟨notice, still.notice ▸ same, taken, early⟩
  taken _ notice same taken _ := ⟨notice, still.notice ▸ same, taken⟩

theorem quiet_safe {α : Type} {program : Prog (State n m (Fin m) R) α} (each : Each Still program)
    (mine : state.notice producer = none) :
    Safe (producerContract setup slot producer) (fun _ current => current.notice producer = none) program state :=
  Safe.of_each each
    (fun ready _ still held => ⟨(still.renotes producer).keeps ready.keeps, (still.renotes producer).notifies,
      by rw [still.notice]; exact held⟩)
    (fun rely _ held => Eq.trans rely held) mine

theorem still_enterClaim : Each (Still (m := m) (R := R)) (enterClaim producer) := by
  refine .bind (still_load _) fun closed => ?_
  split
  · exact .ret _
  · refine .bind (.store fun _ => ⟨rfl, rfl, rfl, rfl, rfl, rfl, rfl, id⟩) fun _ => .bind (still_load _) fun closed => ?_
    split
    · exact .bind (.store fun _ => ⟨rfl, rfl, rfl, rfl, rfl, rfl, rfl, id⟩) fun _ => .ret _
    · exact .ret _

theorem startProducer_notifies {claiming : Bool} {request : Request n m}
    {program : Prog (State n m (Fin m) R) (Label n m)} (mine : state.notice producer = none)
    (begins : startProducer producer claiming request = some program) :
    Safe (producerContract setup slot producer) (fun _ current => current.notice producer = none) program state := by
  have law := wakeLawful (n := n) (R := R) setup slot (.producer producer)
  unfold startProducer at begins
  split at begins
  · obtain rfl := Option.some.inj begins
    exact Safe.bind law (publishContiguous_notifies mine) fun _ _ _ held => fun _ between _ => Eq.trans between held
  · split at begins
    · cases begins
    · obtain rfl := Option.some.inj begins
      exact quiet_safe (.bind still_enterClaim fun _ => .ret _) mine
  · split at begins
    · obtain rfl := Option.some.inj begins
      exact quiet_safe (.bind (.store fun _ => ⟨rfl, rfl, rfl, rfl, rfl, rfl, rfl, id⟩) fun _ => .ret _) mine
    · cases begins
  · obtain rfl := Option.some.inj begins
    exact quiet_safe (.bind (.store fun _ => ⟨rfl, rfl, rfl, rfl, rfl, rfl, rfl, id⟩) fun _ => .ret _) mine
  · cases begins

end Producers

section Runs

theorem wake_initial {setup : Setup} {slot : Fin m → Nat} :
    (wakeDiscipline (n := n) (R := R) setup slot).Initial (initial slot) where
  left := ⟨rfl, fun _ => .idle le_rfl ⟨rfl, rfl⟩⟩
  right thread := by
    match thread with
    | .producer _ => exact fun _ between _ => between
    | .handle _ => exact fun _ between _ => Idle.stable ⟨rfl, rfl⟩ between
    | .registrar _ => exact fun _ _ _ => trivial

variable {setup : Setup} {slot : Fin m → Nat} [DecidableEq R]
  {config : Config (State n m (Fin m) R) (Thread n (Fin m) R) (Label n m)}

/-- Each subscriber receives through the handle of its own slot, and nobody registers. -/
def MayReceive (slot : Fin m → Nat) : Thread n (Fin m) R → Request n m → Prop
  | .handle consumer, .recv seat token => seat = consumer ∧ token = slot consumer
  | .handle _, .arm .. => False
  | .handle _, .clear .. => False
  | .registrar _, _ => False
  | _, _ => True

/-- The runs of receivers and producers. -/
def Subscribed (slot : Fin m → Nat) (_ : Config (State n m (Fin m) R) (Thread n (Fin m) R) (Label n m)) :
    Event (Thread n (Fin m) R) (Request n m) → Prop
  | .start thread request => MayReceive slot thread request
  | .act _ => True

/-- No receiver that has armed its ticket goes to sleep after the epoch has run around since its snapshot. -/
def Receiving (setup : Setup) (slot : Fin m → Nat) (before : Config (State n m (Fin m) R) (Thread n (Fin m) R) (Label n m)) :
    Event (Thread n (Fin m) R) (Request n m) → Prop
  | .start thread request => MayReceive slot thread request
  | .act thread => ∀ after, (system setup).step before (.act thread) = some after →
      SleepsInTime before.shared after.shared

theorem startHandle_steps {consumer : Fin m} {label : Label n m} {request : Request n m} {state : State n m (Fin m) R}
    {program : Prog (State n m (Fin m) R) (Label n m)} (may : MayReceive (R := R) slot (.handle consumer) request)
    (rests : (wakeDiscipline (R := R) setup slot).label (.handle consumer) label state)
    (begins : startHandle setup consumer label request = some program) :
    Safe (receiverContract setup slot consumer) ((wakeDiscipline setup slot).label (.handle consumer)) program state := by
  have law := wakeLawful (n := n) (R := R) setup slot (.handle consumer)
  have call (idle : Idle consumer state) (begins : startCall consumer request = some program) :
      Safe (receiverContract setup slot consumer) ((wakeDiscipline setup slot).label (.handle consumer)) program state := by
    unfold startCall at begins
    split at begins
    · exact may.elim
    · exact may.elim
    · obtain rfl := Option.some.inj begins
      obtain ⟨rfl, rfl⟩ := may
      exact Safe.load_bind law fun first between _ => fun _ later _ => ⟨rfl, rfl, (idle.stable between).stable later⟩
    · cases begins
  unfold startHandle at begins
  split at begins
  · exact call rests begins
  · exact call rests begins
  · obtain rfl := Option.some.inj begins
    have idle : Idle consumer state := rests.2.2
    refine Safe.store_bind fun first between ready _ => ?_
    have idle := idle.stable between
    exact ⟨consume_keeps ready.keeps (by simp [idle.watch]) idle.awake, receives_setReceiver consumer first _,
      fun _ between _ => Idle.stable idle.consume between⟩
  · exact call rests.2.2 begins
  · rw [Option.map_eq_some_iff] at begins
    obtain ⟨pass, begins, rfl⟩ := begins
    obtain ⟨rfl, rfl, steps⟩ := rests
    exact Safe.bind law (nextPass_steps steps begins) fun next _ _ steps => fun _ between _ =>
      ⟨rfl, rfl, steps.stable between⟩
  · cases begins

theorem wake_sound : (wakeDiscipline (n := n) (R := R) setup slot).Sound (system setup) fun _ thread _ request =>
    MayReceive slot thread request where
  lawful := wakeLawful setup slot
  compatible different _ _ step := wakeCompatible different step
  start {thread label request program state} begins may _ _ rests := by
    match thread, label with
    | .producer producer, .producer claiming =>
        exact (startProducer_notifies rests begins).weaken fun _ _ _ held => held
    | .handle consumer, label => exact startHandle_steps may rests begins
    | .registrar registrar, label => exact may.elim

theorem wake_knows : (wakeDiscipline (n := n) (R := R) setup slot).Knows (system setup)
    (fun _ thread _ request => MayReceive slot thread request) (Receiving setup slot) (initial slot) where
  respects {config event} admitted := by
    cases event with
    | start thread request => exact fun _ _ => admitted
    | act thread => exact trivial
  known _ := trivial
  action _ admitted taken := admitted _ taken
  rests _ _ _ := trivial

/-- A receiver that sleeps with an armed ticket while a frame is deliverable to it will be notified: a producer
has made a frame visible and has not yet woken the receivers. -/
theorem wakeup_pending (run : (system setup).Run (Receiving setup slot) (initial slot) config) {consumer : Fin m}
    (sleeps : config.shared.asleep consumer = some true) {producer : Fin n} {frame : Frame}
    (deliverable : config.shared.next setup consumer producer = some frame) :
    ∃ notifier, config.shared.notice notifier ≠ none ∧ ∀ label, config.thread (.producer notifier) ≠ .ret label := by
  have knows : (wakeDiscipline (n := n) (R := R) setup slot).Knows (system setup)
      (fun _ thread _ request => MayReceive slot thread request) (Receiving setup slot) (initial slot) := wake_knows
  have some_ : config.shared.next setup consumer producer ≠ none := by simp [deliverable]
  obtain ⟨invariant, -⟩ := wake_sound.run wake_initial knows run
  obtain ⟨notifier, notifies⟩ := (invariant.2 consumer).notified sleeps some_
  refine ⟨notifier, notifies, fun label rests => notifies ?_⟩
  exact wake_sound.label wake_initial knows run trivial rests

end Runs

section Example

def registered : Nat := makeToken 1 7 kActive

abbrev OneReceiver := Config (State 1 1 (Fin 1) Unit) (Thread 1 (Fin 1) Unit) (Label 1 1)

/-- The subscriber polls, arms its ticket, scans and stands before its wait. -/
def parks : List (Thread 1 (Fin 1) Unit × Request 1 1) :=
  (.handle sole, .recv sole registered) :: List.replicate 130 (.handle sole, .proceed true)

def publication : Thread 1 (Fin 1) Unit × Request 1 1 := (.producer sole, .publish [⟨0, none⟩])

def parkedPass : Prog (State 1 1 (Fin 1) Unit) (Label 1 1) → Option (Nat × Bool × Nat)
  | .ret (.receive _ token _ (.park pass)) => some (token, pass.armed, pass.expected)
  | _ => none

def resting : Prog (State 1 1 (Fin 1) Unit) (Label 1 1) → Option Bool
  | .ret (.producer claiming) => some claiming
  | _ => none

theorem of_resting {program : Prog (State 1 1 (Fin 1) Unit) (Label 1 1)} {claiming : Bool}
    (rests : resting program = some claiming) : program = .ret (.producer claiming) := by
  unfold resting at rests
  split at rests
  · rw [Option.some.inj rests]
  · cases rests

/-- The subscriber stands before its wait with a consumed ticket and a visible frame. -/
structure Parked (count : Nat) (config : OneReceiver) : Prop where
  run : (system ⟨false⟩).Run (Subscribed fun _ => registered) (initial fun _ => registered) config
  waits : parkedPass (config.thread (.handle sole)) = some (registered, true, 0)
  rests : config.thread (.producer sole) = .ret (.producer false)
  steps : config.shared.steps = count
  ticket : config.shared.ticket sole = 0
  slot : config.shared.slot sole = registered
  active : config.shared.active = true
  visible : config.shared.visible sole ≠ []
  readCounts : (config.shared.receiver sole).readCounts sole = 0
  notice : config.shared.notice sole = none

theorem subscribed_calls {requests : List (Thread 1 (Fin 1) Unit × Request 1 1)}
    (may : ∀ request, request ∈ requests → MayReceive (fun _ => registered) request.1 request.2) {config final : OneReceiver}
    (run : (system ⟨false⟩).Run (Subscribed fun _ => registered) (initial fun _ => registered) config)
    (called : (system ⟨false⟩).calls config requests = some final) :
    (system ⟨false⟩).Run (Subscribed fun _ => registered) (initial fun _ => registered) final :=
  System.Run.calls (fun _ _ _ => trivial) (fun _ request found => may request found) run called

theorem parks_may (request : Thread 1 (Fin 1) Unit × Request 1 1) (found : request ∈ parks) :
    MayReceive (fun _ => registered) request.1 request.2 := by
  rcases List.mem_cons.mp found with rfl | found
  · exact ⟨rfl, rfl⟩
  · rw [List.eq_of_mem_replicate found]
    trivial

set_option maxRecDepth 4096 in
/-- The first publication takes the ticket of the subscriber. -/
theorem parked_first : ∃ config, Parked 2 config := by
  have executed : ((system ⟨false⟩).calls (initial fun _ => registered) (parks ++ [publication])).map (fun config =>
      (parkedPass (config.thread (.handle sole)), resting (config.thread (.producer sole)), config.shared.steps,
        config.shared.ticket sole)) = some (some (registered, true, 0), some false, 2, 0) := by
    decide
  have kept : ((system ⟨false⟩).calls (initial fun _ => registered) (parks ++ [publication])).map (fun config =>
      (config.shared.slot sole, config.shared.active, (config.shared.visible sole).length,
        (config.shared.receiver sole).readCounts sole, (config.shared.notice sole).isNone)) =
      some (registered, true, 1, 0, true) := by
    decide
  obtain ⟨config, called, facts⟩ := Option.map_eq_some_iff.mp executed
  rw [called] at kept
  simp only [Option.map_some, Option.some.injEq, Prod.mk.injEq] at facts kept
  refine ⟨config, subscribed_calls (fun request found => ?_) .refl called, facts.1, of_resting facts.2.1, facts.2.2.1,
    facts.2.2.2, kept.1, kept.2.1, fun empty => by simp [empty] at kept, kept.2.2.2.1,
    Option.isNone_iff_eq_none.mp kept.2.2.2.2⟩
  rcases List.mem_append.mp found with found | found
  · exact parks_may request found
  · rw [List.mem_singleton.mp found]
    trivial

/-- Without a ticket a publication moves the epoch by one. -/
theorem publish_run {state : State 1 1 (Fin 1) Unit} (frame : Frame) (ticket : state.ticket sole = 0)
    (slot : state.slot sole = registered) (active : state.active = true) (notice : state.notice sole = none) :
    ((publishContiguous sole [frame] : Prog (State 1 1 (Fin 1) Unit) Unit).run state).2 =
      {state with
        steps := state.steps + 1
        visible := Function.update state.visible sole (state.visible sole ++ [frame])} := by
  have live : phase registered = kActive := by decide
  have slots : List.finRange 1 = [sole] := rfl
  simpa [publishContiguous, wakeConsumer, Prog.run_bind, slots, Prog.foldUntil, wakeRound, bumpEpoch, active, live,
    State.setNotice, slot, ticket, State.pass] using notice.symm

theorem Parked.publish {count : Nat} {config : OneReceiver} (parked : Parked count config) :
    ∃ later, Parked (count + 1) later := by
  have taken : (system ⟨false⟩).step config (.start (.producer sole) (.publish [⟨0, none⟩])) =
      some ⟨config.shared, Function.update config.thread (.producer sole) ((publishContiguous sole [⟨0, none⟩]).bind
        fun _ => .ret (.producer false))⟩ := by
    simp [System.step, parked.rests, system, start, startProducer]
  have run := System.Run.finish (.producer sole) (fun _ => trivial)
    (.step _ parked.run (by trivial) taken)
  have shared := publish_run ⟨0, none⟩ parked.ticket parked.slot parked.active parked.notice
  refine ⟨_, run, ?_, ?_, ?_, ?_, ?_, ?_, ?_, ?_, ?_⟩
  · simpa [System.finished] using parked.waits
  · simp [System.finished, Prog.run_bind]
  all_goals simp only [System.finished, Function.update_self, Prog.run_bind, shared, Prog.run_ret]
  · rw [parked.steps]
  · exact parked.ticket
  · exact parked.slot
  · exact parked.active
  · simp
  · exact parked.readCounts
  · exact parked.notice

theorem exists_parked (count : Nat) : ∃ config, Parked (count + 2) config := by
  induction count with
  | zero => exact parked_first
  | succ count ih =>
      obtain ⟨config, parked⟩ := ih
      exact parked.publish

/-- After a whole turn of the epoch word the subscriber goes to sleep on its old snapshot, and nobody wakes it. -/
theorem wakeup_lost : ∃ config : OneReceiver,
    (system ⟨false⟩).Run (Subscribed fun _ => registered) (initial fun _ => registered) config ∧
      config.shared.asleep sole = some true ∧ (∃ frame, config.shared.next ⟨false⟩ sole sole = some frame) ∧
      config.shared.notice sole = none ∧ config.thread (.producer sole) = .ret (.producer false) := by
  obtain ⟨config, parked⟩ := exists_parked (2 ^ 32 - 2)
  have steps : config.shared.steps = 2 ^ 32 := parked.steps.trans (by norm_num)
  obtain ⟨seat, entry, pass, rests, armed, expected⟩ : ∃ seat entry pass, config.thread (.handle sole) =
      .ret (.receive seat registered entry (.park pass)) ∧ pass.armed = true ∧ pass.expected = 0 := by
    have waits := parked.waits
    unfold parkedPass at waits
    split at waits
    · rename_i seat _ entry pass rests
      simp only [Option.some.injEq, Prod.mk.injEq] at waits
      exact ⟨seat, entry, pass, waits.1 ▸ rests, waits.2.1, waits.2.2⟩
    · cases waits
  have taken : (system ⟨false⟩).step config (.start (.handle sole) (.proceed true)) =
      some ⟨config.shared, Function.update config.thread (.handle sole) ((futexWait sole seat registered pass).bind
        fun next => .ret (.receive seat registered entry next))⟩ := by
    simp [System.step, rests, system, start, startHandle, nextPass]
  have run := System.Run.finish (.handle sole) (fun _ => trivial) (.step _ parked.run (by trivial) taken)
  have same : config.shared.epoch = pass.expected := by
    rw [State.epoch, steps, expected, Nat.mod_self]
  refine ⟨_, run, ?_, ?_, ?_, ?_⟩
  · simp [System.finished, futexWait, Prog.run_bind, same, armed, State.setAsleep]
  · obtain ⟨frame, rest, frames⟩ := List.exists_cons_of_ne_nil parked.visible
    refine ⟨frame, ?_⟩
    simp [System.finished, futexWait, Prog.run_bind, same, State.setAsleep, State.next, parked.readCounts, frames]
  · simpa [System.finished, futexWait, Prog.run_bind, same, State.setAsleep] using parked.notice
  · simpa [System.finished] using parked.rests

/-- One pass of the receive. -/
def turn (acts : Nat) : List (Event (Thread 1 (Fin 1) Unit) (Request 1 1)) :=
  .start (.handle sole) (.proceed true) :: List.replicate acts (.act (.handle sole))

/-- The subscriber goes to sleep, and a producer makes a frame visible. -/
def sleepSchedule : List (Event (Thread 1 (Fin 1) Unit) (Request 1 1)) :=
  .start (.handle sole) (.recv sole registered) :: .act (.handle sole) ::
    (List.replicate 64 (turn 2 ++ turn 3)).flatten ++ turn 14 ++ turn 5 ++ turn 1 ++
    [.start (.producer sole) (.publish [⟨0, none⟩]), .act (.producer sole)]

def receivesInTime (config : OneReceiver) : Event (Thread 1 (Fin 1) Unit) (Request 1 1) → Bool
  | .start (.handle _) (.recv _ token) => token == registered
  | .start (.handle _) (.arm ..) => false
  | .start (.handle _) (.clear ..) => false
  | .start (.registrar _) _ => false
  | .start _ _ => true
  | .act _ => decide (config.shared.steps < 2 ^ 32)

theorem receivesInTime_passes (config : OneReceiver) (event : Event (Thread 1 (Fin 1) Unit) (Request 1 1))
    (passes : receivesInTime config event = true) : Receiving ⟨false⟩ (fun _ => registered) config event := by
  cases event with
  | act thread => exact fun _ _ _ _ => .inr ((of_decide_eq_true passes).trans_le (Nat.le_add_left ..))
  | start thread request =>
      cases thread with
      | producer producer => trivial
      | registrar registrar => cases passes
      | handle consumer =>
          cases request with
          | recv seat token => exact ⟨Subsingleton.elim _ _, eq_of_beq passes⟩
          | arm seat token fence => cases passes
          | clear seat token => cases passes
          | _ => trivial

set_option maxRecDepth 16384 in
theorem wakeup_pending_sleeps : ∃ config : OneReceiver,
    (system ⟨false⟩).Run (Receiving ⟨false⟩ fun _ => registered) (initial fun _ => registered) config ∧
      config.shared.asleep sole = some true ∧ ∃ notifier, config.shared.notice notifier ≠ none ∧
        ∀ label, config.thread (.producer notifier) ≠ .ret label := by
  have executed : ((system ⟨false⟩).execChecked receivesInTime (initial fun _ => registered) sleepSchedule).map (fun config =>
      (config.shared.asleep sole, (config.shared.visible sole).length, (config.shared.receiver sole).readCounts sole)) =
      some (some true, 1, 0) := by
    decide
  obtain ⟨config, final, facts⟩ := Option.map_eq_some_iff.mp executed
  simp only [Prod.mk.injEq] at facts
  have run := System.run_of_execChecked receivesInTime_passes sleepSchedule .refl final
  obtain ⟨frame, frames⟩ := List.length_eq_one_iff.mp facts.2.1
  have deliverable : config.shared.next ⟨false⟩ sole sole = some frame := by
    simp [State.next, frames, facts.2.2]
  exact ⟨config, run, facts.1, wakeup_pending run facts.1 deliverable⟩

end Example

end Salias.Notification
