import DetSim.Model.Scheduler
import Mathlib.Logic.Relation

/-! # What a search has covered

A state is covered when it is not violating and each of its transitions was executed and committed a
state that is not violating. The searches differ in the tables from which they conclude this about a
whole reachable closure; here are the notions they share, and what a search can do to a session
whatever its end.
-/

namespace DetSim.Scheduler

namespace TransitionSystem

variable (system : TransitionSystem)

/-- The transitions of a system: an enabled actor action with one of the outcomes of its syscall. -/
def IsTransition (transition : Transition) : Prop :=
  transition.actor ∈ system.enabledActorActions transition.source ∧
    transition.choice < max 1 (system.nChoose transition.source transition.actor)

instance : DecidablePred system.IsTransition :=
  fun _ => inferInstanceAs (Decidable (_ ∧ _))

def Step (source target : HashType) : Prop :=
  ∃ transition, system.IsTransition transition ∧ transition.source = source ∧
    system.target transition = target

def Reachable : HashType → HashType → Prop := Relation.ReflTransGen system.Step

/-- The states reached from `source` in exactly the given number of transitions. -/
inductive ReachableIn : ℕ → HashType → HashType → Prop
  | refl (hash : HashType) : ReachableIn 0 hash hash
  | head {length : ℕ} {source middle target : HashType} (step : system.Step source middle)
      (path : ReachableIn length middle target) : ReachableIn (length + 1) source target

/-- The state is fine, and so is every transition out of it; all of them are in the log. -/
structure Covered (executed : List Transition) (hash : HashType) : Prop where
  sound : system.propertyFailed hash = false
  transitions : ∀ transition, system.IsTransition transition → transition.source = hash →
    transition ∈ executed ∧ system.propertyFailed (system.target transition) = false

/-- The whole reachable closure of a state is covered. -/
def ClosureCovered (executed : List Transition) (root : HashType) : Prop :=
  ∀ hash, system.Reachable root hash → system.Covered executed hash

variable {system}

theorem Covered.mono {shorter longer : List Transition} {hash : HashType}
    (covered : system.Covered shorter hash) (subset : shorter ⊆ longer) :
    system.Covered longer hash where
  sound := covered.sound
  transitions transition member same :=
    ⟨subset (covered.transitions transition member same).1,
      (covered.transitions transition member same).2⟩

theorem ClosureCovered.mono {shorter longer : List Transition} {root : HashType}
    (covered : system.ClosureCovered shorter root) (subset : shorter ⊆ longer) :
    system.ClosureCovered longer root :=
  fun hash reachable => (covered hash reachable).mono subset

/-- A covered state whose successors have covered closures has one itself. -/
theorem Covered.closure {executed : List Transition} {root : HashType}
    (covered : system.Covered executed root)
    (successors : ∀ transition, system.IsTransition transition → transition.source = root →
      system.ClosureCovered executed (system.target transition)) :
    system.ClosureCovered executed root := by
  intro hash reachable
  rcases Relation.ReflTransGen.cases_head reachable with rfl | ⟨middle, step, rest⟩
  · exact covered
  · obtain ⟨transition, member, source, rfl⟩ := step
    exact successors transition member source hash rest

/-- A set of covered states that no transition leaves contains the closure of each member. -/
theorem closureCovered_of_closed {executed : List Transition} (states : Set HashType)
    (covered : ∀ hash ∈ states, system.Covered executed hash)
    (closed : ∀ transition, system.IsTransition transition → transition.source ∈ states →
      system.target transition ∈ states)
    {root : HashType} (member : root ∈ states) : system.ClosureCovered executed root := by
  intro hash reachable
  suffices inside : hash ∈ states from covered hash inside
  induction reachable with
  | refl => exact member
  | tail _ step ih =>
    obtain ⟨transition, enabled, rfl, rfl⟩ := step
    exact closed transition enabled ih

theorem ReachableIn.reachable {length : ℕ} {source target : HashType}
    (path : system.ReachableIn length source target) : system.Reachable source target := by
  induction path with
  | refl => exact .refl
  | head step _ ih => exact .head step ih

theorem ReachableIn.snoc {length : ℕ} {source middle target : HashType}
    (path : system.ReachableIn length source middle) (last : system.Step middle target) :
    system.ReachableIn (length + 1) source target := by
  induction path with
  | refl => exact .head last (.refl _)
  | head step _ ih => exact .head step (ih last)

theorem no_transition_of_disabled {transition : Transition}
    (disabled : system.enabledActorActions transition.source = []) :
    ¬ system.IsTransition transition := by
  intro member
  simpa [disabled] using member.1

end TransitionSystem

/-! ## Choices -/

section Choices

variable {system : TransitionSystem} {mode : Mode} {random : ℕ} {source : HashType}
  {actor : ActorAction} {preset cardinality : ℤ} {remaining : List ℕ} {answer : ℕ × ℤ × List ℕ}

theorem handleAutoChoice_of_preset {nChoose : ℕ} (given : 0 ≤ preset) (presets : mode ≠ .rand) :
    handleAutoChoice mode random nChoose preset = preset := by
  unfold handleAutoChoice
  split
  · rfl
  · cases mode with
    | bfs => rfl
    | dfs => exact if_neg (by omega)
    | rand => contradiction

theorem handleAutoChoice_valid (random : ℕ) {nChoose : ℕ} (some : nChoose ≠ 0) (bound : preset < nChoose)
    (settled : mode = .bfs → 0 ≤ preset) :
    0 ≤ handleAutoChoice mode random nChoose preset ∧
      handleAutoChoice mode random nChoose preset < nChoose := by
  have drawn := Nat.mod_lt random (Nat.pos_of_ne_zero some)
  unfold handleAutoChoice
  rw [if_neg some]
  cases mode with
  | bfs => exact ⟨settled rfl, bound⟩
  | dfs =>
    dsimp only
    split
    · omega
    · omega
  | rand =>
    dsimp only
    omega

/-- The first execution of an actor action finds its alternatives. -/
theorem searchActorChoice_first (first : cardinality < 0)
    (bound : system.nChoose source actor ≠ 0 → preset < system.nChoose source actor)
    (settled : mode = .bfs → 0 ≤ preset) :
    ∃ answer, searchActorChoice system mode random source actor preset cardinality remaining =
      .ok answer := by
  unfold searchActorChoice
  dsimp only
  rw [if_neg, if_pos first]
  · exact ⟨_, rfl⟩
  · rintro ⟨some, invalid⟩
    have valid := handleAutoChoice_valid random some (bound some) settled
    omega

/-- An alternative that was found before is executed as preset. -/
theorem searchActorChoice_later {choice : ℕ} (bound : choice < system.nChoose source actor)
    (presets : mode ≠ .rand) :
    searchActorChoice system mode random source actor choice (system.nChoose source actor) remaining =
      .ok (choice, (system.nChoose source actor : ℤ), remaining) := by
  unfold searchActorChoice
  dsimp only
  rw [handleAutoChoice_of_preset (Int.natCast_nonneg choice) presets, if_neg (by omega),
    if_neg (by omega), if_neg (by omega), Int.toNat_natCast]

/-- The first execution of an actor action takes one outcome and lists the others. -/
theorem searchActorChoice_discover
    (success : searchActorChoice system mode random source actor preset cardinality remaining = .ok answer)
    (nonpositive : preset ≤ 0) (first : cardinality < 0) :
    answer.1 < max 1 (system.nChoose source actor) ∧
      answer.2.1 = system.nChoose source actor ∧
      (∀ choice, choice ∈ answer.2.2 ↔
        (choice < system.nChoose source actor ∧ choice ≠ answer.1) ∨ choice ∈ remaining) := by
  unfold searchActorChoice at success
  dsimp only at success
  generalize selection :
    handleAutoChoice mode random (system.nChoose source actor) preset = selected at success
  rw [if_pos first] at success
  split at success
  · contradiction
  · next valid =>
    cases success
    rcases Nat.eq_zero_or_pos (system.nChoose source actor) with none | some
    · have unchanged : selected = preset := by simpa [handleAutoChoice, none] using selection.symm
      refine ⟨by simp only [none]; omega, rfl, fun choice => by simp [none]⟩
    · push Not at valid
      obtain ⟨nonnegative, bound⟩ := valid (by omega)
      refine ⟨by omega, rfl, fun choice => ?_⟩
      have same : (choice : ℤ) ≠ selected ↔ choice ≠ selected.toNat := by omega
      simp [same]

/-- A later execution takes the preset outcome and adds no alternative. -/
theorem searchActorChoice_replay
    (success : searchActorChoice system mode random source actor preset cardinality remaining = .ok answer)
    (later : 0 ≤ cardinality) :
    (answer.1 : ℤ) = preset ∧ answer.1 < system.nChoose source actor ∧ answer.2 = (cardinality, remaining) := by
  unfold searchActorChoice at success
  dsimp only at success
  split at success
  · contradiction
  · next valid =>
    rw [if_neg (by omega)] at success
    split at success
    · contradiction
    · next agreed =>
      cases success
      push Not at valid agreed
      obtain ⟨_, some, same⟩ := agreed
      obtain ⟨nonnegative, bound⟩ := valid some
      refine ⟨by rw [Int.toNat_of_nonneg nonnegative, same], by omega, rfl⟩

end Choices

/-! ## Growing sessions -/

/-- A search only adds discovered states and executed transitions. The expansion records stay as they
are; only a completed expansion of the breadth-first search adds one. -/
structure Session.Grows (before after : Session) : Prop where
  stateSet : before.stateSet ⊆ after.stateSet
  executed : before.executed ⊆ after.executed
  expandedRemaining : after.expandedRemaining = before.expandedRemaining

namespace Session

theorem Grows.refl (session : Session) : session.Grows session :=
  ⟨subset_rfl, List.Subset.refl _, rfl⟩

theorem Grows.trans {first middle last : Session} (left : first.Grows middle)
    (right : middle.Grows last) : first.Grows last where
  stateSet := left.stateSet.trans right.stateSet
  executed := List.Subset.trans left.executed right.executed
  expandedRemaining := right.expandedRemaining.trans left.expandedRemaining

theorem Grows.expandedBudget {before after : Session} (grows : before.Grows after) (hash : HashType) :
    after.expandedBudget hash = before.expandedBudget hash := by
  simp [Session.expandedBudget, grows.expandedRemaining]

/-- Only the depth-first search writes the memo tables before it ends. -/
structure Explores (before after : Session) : Prop extends before.Grows after where
  fullyCovered : after.fullyCovered = before.fullyCovered
  dfsCoverage : after.dfsCoverage = before.dfsCoverage

theorem Explores.refl (session : Session) : session.Explores session :=
  ⟨.refl session, rfl, rfl⟩

theorem Explores.trans {first middle last : Session} (left : first.Explores middle)
    (right : middle.Explores last) : first.Explores last where
  toGrows := left.toGrows.trans right.toGrows
  fullyCovered := right.fullyCovered.trans left.fullyCovered
  dfsCoverage := right.dfsCoverage.trans left.dfsCoverage

theorem discover_explores (session : Session) (hash : HashType) :
    session.Explores (session.discover hash) :=
  ⟨⟨Finset.subset_insert _ _, List.Subset.refl _, rfl⟩, rfl, rfl⟩

theorem execute_explores (session : Session) (transition : Transition) (target : HashType) :
    session.Explores (session.execute transition target) :=
  ⟨⟨subset_rfl, List.subset_cons_self _ _, rfl⟩, rfl, rfl⟩

end Session

end DetSim.Scheduler
