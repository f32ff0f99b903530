import DetSim.Soundness.SchedulerCoverage

/-! # Completeness reports of the breadth-first search

The expansion records are kept across searches, so their meaning is an invariant of whole sessions:
an expanded state is covered, and each of its successors is discovered or expanded. When every
discovered state is expanded, the expanded states are closed under transitions. The invariant needs
`state_set` as it was: a command that clears `state_set` alone breaks it.
-/

namespace DetSim.Scheduler

open TransitionSystem

/-! ## One expansion -/

/-- The transition was executed and committed a discovered state that is not violating. -/
structure Visited (system : TransitionSystem) (session : Session) (transition : Transition) : Prop where
  executed : transition ∈ session.executed
  sound : system.propertyFailed (system.target transition) = false
  discovered : system.target transition ∈ session.stateSet

variable {system : TransitionSystem}

theorem Visited.mono {before after : Session} {transition : Transition}
    (visited : Visited system before transition) (explores : before.Explores after) :
    Visited system after transition :=
  ⟨explores.executed visited.executed, visited.sound, explores.stateSet visited.discovered⟩

theorem BfsRun.visit_session (run : BfsRun) (target : HashType) :
    (run.visit target).session = run.session.discover target := by
  unfold BfsRun.visit
  dsimp only
  split <;> rfl

/-- A return from the middle of an expansion reports a violation and keeps what was found. -/
structure Stopped (before : Session) (stopped : BfsEnd × Session) : Prop where
  violation : stopped.1 = .violation
  explores : before.Explores stopped.2

theorem Stopped.of_explores {first middle : Session} {stopped : BfsEnd × Session}
    (stop : Stopped middle stopped) (explores : first.Explores middle) : Stopped first stopped :=
  ⟨stop.violation, explores.trans stop.explores⟩

section Expansion

variable {source : HashType} {actor : ActorAction} {preset cardinality : ℤ} {choices : List ℕ}
  {run next : BfsRun} {stopped : BfsEnd × Session}

theorem bfsTransition_ok {answer : BfsRun × ℤ × List ℕ}
    (success : bfsTransition system source actor preset cardinality choices run = .ok answer) :
    ∃ choice, searchActorChoice system .bfs 0 source actor preset cardinality choices =
        .ok (choice, answer.2) ∧
      run.session.Explores answer.1.session ∧ Visited system answer.1.session ⟨source, actor, choice⟩ := by
  unfold bfsTransition at success
  split at success
  · contradiction
  · next choice found others selected =>
    dsimp only at success
    split at success
    · contradiction
    · next sound =>
      cases success
      refine ⟨choice, selected, ?_, ?_⟩
      · rw [BfsRun.visit_session]
        exact (Session.execute_explores _ _ _).trans (Session.discover_explores _ _)
      · rw [BfsRun.visit_session]
        exact ⟨List.mem_cons_self .., by simpa [target] using sound, Finset.mem_insert_self _ _⟩

theorem bfsTransition_error {answer : ℕ × ℤ × List ℕ}
    (offered : searchActorChoice system .bfs 0 source actor preset cardinality choices = .ok answer)
    (failure : bfsTransition system source actor preset cardinality choices run = .error stopped) :
    Stopped run.session stopped := by
  unfold bfsTransition at failure
  rw [offered] at failure
  dsimp only at failure
  split at failure
  · cases failure
    exact ⟨rfl, Session.execute_explores _ _ _⟩
  · contradiction

theorem bfsChoices_ok (later : 0 ≤ cardinality)
    (success : bfsChoices system source actor cardinality choices run = .ok next) :
    run.session.Explores next.session ∧
      ∀ choice ∈ choices, Visited system next.session ⟨source, actor, choice⟩ := by
  induction choices generalizing run with
  | nil => cases success; exact ⟨.refl _, by simp⟩
  | cons preset choices ih =>
    simp only [bfsChoices] at success
    split at success
    · contradiction
    · next executed =>
      obtain ⟨choice, selected, explores, visited⟩ := bfsTransition_ok executed
      obtain ⟨same, _, _⟩ := searchActorChoice_replay selected later
      obtain rfl : choice = preset := Int.ofNat_inj.mp same
      obtain ⟨rest, others⟩ := ih success
      refine ⟨explores.trans rest, fun other member => ?_⟩
      rcases List.mem_cons.mp member with rfl | member
      · exact visited.mono rest
      · exact others other member

theorem bfsChoices_error (offered : ∀ choice ∈ choices, choice < system.nChoose source actor)
    (failure : bfsChoices system source actor (system.nChoose source actor) choices run =
      .error stopped) :
    Stopped run.session stopped := by
  induction choices generalizing run with
  | nil => contradiction
  | cons preset choices ih =>
    simp only [bfsChoices] at failure
    split at failure
    · next stop =>
      cases failure
      exact bfsTransition_error
        (searchActorChoice_later (offered preset (List.mem_cons_self ..)) (by decide)) stop
    · next executed =>
      obtain ⟨_, _, explores, _⟩ := bfsTransition_ok executed
      exact (ih (fun choice member => offered choice (List.mem_cons_of_mem _ member)) failure).of_explores explores

/-- The loop over the choices of an actor executes every outcome of its syscall. -/
theorem bfsActor_ok (success : bfsActor system source actor run = .ok next) :
    run.session.Explores next.session ∧
      ∀ choice < max 1 (system.nChoose source actor),
        Visited system next.session ⟨source, actor, choice⟩ := by
  unfold bfsActor at success
  split at success
  · contradiction
  · next middle found others executed =>
    obtain ⟨choice, selected, explores, visited⟩ := bfsTransition_ok executed
    obtain ⟨_, cardinality, alternatives⟩ := searchActorChoice_discover selected le_rfl (by decide)
    obtain ⟨rest, replayed⟩ := bfsChoices_ok (by dsimp only at cardinality; omega) success
    refine ⟨explores.trans rest, fun other bound => ?_⟩
    by_cases taken : other = choice
    · subst taken
      exact visited.mono rest
    · apply replayed
      rcases Nat.eq_zero_or_pos (system.nChoose source actor) with none | some
      · omega
      · exact (alternatives other).mpr (.inl ⟨by omega, taken⟩)

theorem bfsActor_error (failure : bfsActor system source actor run = .error stopped) :
    Stopped run.session stopped := by
  unfold bfsActor at failure
  split at failure
  · next stop =>
    cases failure
    obtain ⟨_, offered⟩ : ∃ answer, searchActorChoice system .bfs 0 source actor 0 (-1) [] = .ok answer :=
      searchActorChoice_first (by decide) (fun some => by omega) (fun _ => le_rfl)
    exact bfsTransition_error offered stop
  · next found others executed =>
    obtain ⟨_, selected, explores, _⟩ := bfsTransition_ok executed
    obtain ⟨_, rfl, alternatives⟩ := searchActorChoice_discover selected le_rfl (by decide)
    refine (bfsChoices_error (fun choice member => ?_) failure).of_explores explores
    exact ((alternatives choice).mp member).elim (·.1) (by simp)

theorem bfsActors_ok {actors : List ActorAction}
    (success : bfsActors system source actors run = .ok next) :
    run.session.Explores next.session ∧
      ∀ actor ∈ actors, ∀ choice < max 1 (system.nChoose source actor),
        Visited system next.session ⟨source, actor, choice⟩ := by
  induction actors generalizing run with
  | nil => cases success; exact ⟨.refl _, by simp⟩
  | cons actor actors ih =>
    simp only [bfsActors] at success
    split at success
    · contradiction
    · next explored =>
      obtain ⟨explores, visited⟩ := bfsActor_ok explored
      obtain ⟨rest, others⟩ := ih success
      refine ⟨explores.trans rest, fun other member choice bound => ?_⟩
      rcases List.mem_cons.mp member with rfl | member
      · exact (visited choice bound).mono rest
      · exact others other member choice bound

theorem bfsActors_error {actors : List ActorAction}
    (failure : bfsActors system source actors run = .error stopped) :
    Stopped run.session stopped := by
  induction actors generalizing run with
  | nil => contradiction
  | cons actor actors ih =>
    simp only [bfsActors] at failure
    split at failure
    · next stop => cases failure; exact bfsActor_error stop
    · next explored => exact (ih failure).of_explores (bfsActor_ok explored).1

end Expansion

/-! ## The expansion records -/

def Session.Expanded (session : Session) (hash : HashType) : Prop :=
  session.expandedBudget hash = kExpandedUnbounded

theorem Session.recordExpanded_cases (session : Session) (hash : HashType) (remaining : ℤ) :
    session.recordExpanded hash remaining = session ∨
      session.recordExpanded hash remaining = { session with
        expandedRemaining := Function.update session.expandedRemaining hash (some remaining) } := by
  unfold Session.recordExpanded
  split
  · exact .inr rfl
  · split
    · exact .inr rfl
    · exact .inl rfl

/-- A record is only ever added for the state that was expanded, and never withdrawn. -/
theorem Session.expanded_recordExpanded (session : Session) (hash other : HashType) :
    (session.Expanded other → (session.recordExpanded hash kExpandedUnbounded).Expanded other) ∧
      ((session.recordExpanded hash kExpandedUnbounded).Expanded other →
        other = hash ∨ session.Expanded other) := by
  rcases session.recordExpanded_cases hash kExpandedUnbounded with same | updated
  · rw [same]
    exact ⟨id, .inr⟩
  · rw [updated]
    by_cases same : other = hash
    · simp [same, Session.Expanded, Session.expandedBudget]
    · simp [same, Session.Expanded, Session.expandedBudget]

theorem Session.recordExpanded_keeps (session : Session) (hash : HashType) (remaining : ℤ) :
    (session.recordExpanded hash remaining).stateSet = session.stateSet ∧
      (session.recordExpanded hash remaining).executed = session.executed := by
  rcases session.recordExpanded_cases hash remaining with same | updated
  · rw [same]
    exact ⟨rfl, rfl⟩
  · rw [updated]
    exact ⟨rfl, rfl⟩

/-- What an expansion record means, across all searches of a session. -/
structure Tracked (system : TransitionSystem) (session : Session) : Prop where
  covered : ∀ hash, session.Expanded hash → system.Covered session.executed hash
  closed : ∀ transition, system.IsTransition transition → session.Expanded transition.source →
    system.target transition ∈ session.stateSet ∨ session.Expanded (system.target transition)

theorem Tracked.of_no_record {session : Session} (empty : ∀ hash, session.expandedRemaining hash = none) :
    Tracked system session := by
  have unexpanded : ∀ hash, ¬ session.Expanded hash := by
    intro hash
    simp [Session.Expanded, Session.expandedBudget, empty, kExpandedUnbounded]
  exact ⟨fun hash expanded => (unexpanded hash expanded).elim,
    fun _ _ expanded => (unexpanded _ expanded).elim⟩

theorem Tracked.grow {before after : Session} (tracked : Tracked system before)
    (grows : before.Grows after) : Tracked system after where
  covered hash expanded := by
    rw [Session.Expanded, grows.expandedBudget] at expanded
    exact (tracked.covered hash expanded).mono grows.executed
  closed transition member expanded := by
    rw [Session.Expanded, grows.expandedBudget] at expanded ⊢
    exact (tracked.closed transition member expanded).imp_left (grows.stateSet ·)

/-- Recording a state all of whose transitions were visited. -/
theorem Tracked.recordExpanded {session : Session} {source : HashType} (tracked : Tracked system session)
    (sound : system.propertyFailed source = false)
    (visited : ∀ transition, system.IsTransition transition → transition.source = source →
      Visited system session transition) :
    Tracked system (session.recordExpanded source kExpandedUnbounded) := by
  obtain ⟨sameSet, sameLog⟩ := session.recordExpanded_keeps source kExpandedUnbounded
  constructor
  · intro hash expanded
    rw [sameLog]
    rcases (session.expanded_recordExpanded source hash).2 expanded with rfl | expanded
    · exact ⟨sound, fun transition member same =>
        ⟨(visited transition member same).executed, (visited transition member same).sound⟩⟩
    · exact tracked.covered hash expanded
  · intro transition member expanded
    rw [sameSet]
    rcases (session.expanded_recordExpanded source _).2 expanded with same | expanded
    · exact .inl (visited transition member same).discovered
    · exact (tracked.closed transition member expanded).imp_right
        (session.expanded_recordExpanded source _).1

/-- When nothing discovered is left unexpanded, the closure of a discovered state is covered. -/
theorem Tracked.closureCovered {session : Session} (tracked : Tracked system session)
    (finished : session.allDiscoveredFullyExpanded = true) {root : HashType}
    (discovered : root ∈ session.stateSet) : system.ClosureCovered session.executed root := by
  have expanded : ∀ hash ∈ session.stateSet, session.Expanded hash := by
    simpa [Session.allDiscoveredFullyExpanded, Session.Expanded] using finished
  refine closureCovered_of_closed {hash | session.Expanded hash} tracked.covered ?_
    (expanded root discovered)
  intro transition member source
  exact (tracked.closed transition member source).elim (expanded _) id

/-! ## Whole searches -/

/-- A completed expansion of a sound state keeps the invariant with its record. -/
theorem Tracked.expand {source : HashType} {run next : BfsRun}
    (success : bfsActors system source (system.enabledActorActions source) run = .ok next)
    (tracked : Tracked system run.session) (sound : system.propertyFailed source = false) :
    Tracked system (next.session.recordExpanded source kExpandedUnbounded) := by
  obtain ⟨explores, visited⟩ := bfsActors_ok success
  apply (tracked.grow explores.toGrows).recordExpanded sound
  rintro ⟨source, actor, choice⟩ ⟨enabled, bound⟩ rfl
  exact visited actor enabled choice bound

theorem bfsLoop_tracked (interrupt : Option ℕ) (run : BfsRun) (tracked : Tracked system run.session)
    {root : HashType} (discovered : root ∈ run.session.stateSet) :
    Tracked system (bfsLoop system interrupt run).2 ∧
      ((bfsLoop system interrupt run).1 = .complete →
        system.ClosureCovered (bfsLoop system interrupt run).2.executed root) := by
  fun_induction bfsLoop system interrupt run with
  | case1 interrupt run empty finished =>
    exact ⟨⟨tracked.covered, tracked.closed⟩, fun _ => tracked.closureCovered finished discovered⟩
  | case2 => exact ⟨tracked, by simp⟩
  | case3 _ _ _ _ _ _ ih => exact ih tracked discovered
  | case4 => exact ⟨tracked, by simp⟩
  | case5 _ _ _ _ _ _ _ stopped failure =>
    have stop := bfsActors_error failure
    exact ⟨tracked.grow stop.explores.toGrows, by simp [stop.violation]⟩
  | case6 => exact ⟨.of_no_record fun _ => rfl, by simp⟩
  | case7 interrupt run source queue popped unexpanded sound next expanded session running ih =>
    apply ih
    · exact Tracked.expand expanded tracked (by simpa using sound)
    · rw [(next.session.recordExpanded_keeps source kExpandedUnbounded).1]
      exact (bfsActors_ok expanded).1.stateSet discovered

theorem execBfs_tracked (interrupt : Option ℕ) {session : Session} (tracked : Tracked system session) :
    Tracked system (execBfs system interrupt session).2 ∧
      ((execBfs system interrupt session).1 = .complete →
        system.ClosureCovered (execBfs system interrupt session).2.executed session.running) := by
  apply bfsLoop_tracked
  · exact tracked.grow (session.discover_explores session.running).toGrows
  · exact Finset.mem_insert_self _ _

theorem randWalk_explores (system : TransitionSystem) (steps : ℕ) (randoms : ℕ → ℕ × ℕ) (source : HashType)
    (session : Session) :
    (∀ after, randWalk system steps randoms source session = .ok after → session.Explores after) ∧
      ∀ after, randWalk system steps randoms source session = .error after → session.Explores after := by
  induction steps generalizing randoms source session with
  | zero => exact ⟨fun after same => by cases same; exact .refl _, fun _ failure => by cases failure⟩
  | succ steps ih =>
    simp only [randWalk]
    split
    · exact ⟨fun after same => by cases same; exact .refl _, fun _ failure => by cases failure⟩
    · next actor _ =>
      generalize (handleAutoChoice .rand (randoms 0).2 (system.nChoose source actor) 0).toNat = choice
      have explores := (session.execute_explores ⟨source, actor, choice⟩
        (system.successor source actor choice)).trans
          (Session.discover_explores _ (system.successor source actor choice))
      split
      · exact ⟨fun _ success => (by cases success), fun after same => by cases same; exact explores⟩
      · obtain ⟨success, failure⟩ := ih (fun step => randoms (step + 1))
          (system.successor source actor choice) _
        exact ⟨fun after same => explores.trans (success after same),
          fun after same => explores.trans (failure after same)⟩

/-- A successor of an expanded state is expanded too. -/
def ExpansionClosed (system : TransitionSystem) (session : Session) : Prop :=
  ∀ transition, system.IsTransition transition → session.Expanded transition.source →
    session.Expanded (system.target transition)

theorem ExpansionClosed.grow {before after : Session} (closed : ExpansionClosed system before)
    (grows : before.Grows after) : ExpansionClosed system after := by
  intro transition member expanded
  rw [Session.Expanded, grows.expandedBudget] at expanded ⊢
  exact closed transition member expanded

/-- An interrupted random search forgets the discovered states, so it keeps the invariant only when
the expanded states need none of them. -/
theorem randLoop_tracked (depth : ℤ) (start : HashType) (walks : List (ℕ → ℕ × ℕ)) {session : Session}
    (tracked : Tracked system session)
    (closed : (randLoop system depth start walks session).1 = .interrupted →
      ExpansionClosed system session) :
    Tracked system (randLoop system depth start walks session).2 := by
  induction walks generalizing session with
  | nil =>
    have closed := closed rfl
    exact ⟨tracked.covered, fun transition member expanded => .inr (closed transition member expanded)⟩
  | cons randoms walks ih =>
    obtain ⟨success, failure⟩ := randWalk_explores system depth.toNat randoms start session
    simp only [randLoop] at closed ⊢
    split
    · next after stopped => exact tracked.grow (failure after stopped).toGrows
    · next after walked =>
      have grows := (success after walked).toGrows
      rw [walked] at closed
      exact ih (tracked.grow grows) fun interrupted => (closed interrupted).grow grows

end DetSim.Scheduler
