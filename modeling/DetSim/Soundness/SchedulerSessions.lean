import DetSim.Soundness.SchedulerBfs
import DetSim.Soundness.SchedulerDfs

/-! # Sessions of several searches

The tables survive a command whatever its end, so each search relies on what all earlier ones left.
The expansion records and the memo tables stay sound along every sequence of commands, with one
exception: a random search that ends by an interrupt forgets the discovered states and keeps the
expansion records that refer to them.
-/

namespace DetSim.Scheduler

open TransitionSystem

variable {system : TransitionSystem}

/-! ## The depth-first search as a command -/

/-- An iteration only adds to the session, also when it stops the search. -/
def Adds (before : Session) : Except (DfsEnd × DfsRun) DfsRun → Prop
  | .error stopped => before.Grows stopped.2.session
  | .ok next => before.Grows next.session

theorem Adds.of_grows {first middle : Session} {result : Except (DfsEnd × DfsRun) DfsRun}
    (adds : Adds middle result) (grows : first.Grows middle) : Adds first result := by
  cases result with
  | error stopped => exact grows.trans adds
  | ok next => exact grows.trans adds

section Adds

variable (system : TransitionSystem) (random : ℕ) (frame : DfsFrame) (rest : List DfsFrame) (run : DfsRun)

theorem finishFrame_grows (result : SearchCoverage) (publish : Bool) :
    run.session.Grows (run.finishFrame frame rest result publish).session := by
  cases publish with
  | true => exact ⟨subset_rfl, List.Subset.refl _, rfl⟩
  | false => exact .refl _

theorem dfsChoose_adds (actor : ActorAction) (preset : ℤ) :
    Adds run.session (dfsChoose system random frame actor preset rest run) := by
  unfold dfsChoose
  split
  · exact .refl _
  · dsimp only
    split
    · exact (run.session.execute_explores _ _).toGrows
    · exact (run.session.execute_explores _ _).toGrows

theorem dfsNextActor_adds : Adds run.session (dfsNextActor system random frame rest run) := by
  unfold dfsNextActor
  split
  · exact finishFrame_grows frame rest run frame.coverage true
  · exact dfsChoose_adds system random _ rest run _ _

theorem dfsEnter_adds : Adds run.session (dfsEnter system random frame rest run) := by
  unfold dfsEnter
  dsimp only
  refine Adds.of_grows ?_ (run.session.discover_explores frame.ssHash).toGrows
  split
  · exact finishFrame_grows frame rest { run with session := _ } _ _
  · split
    · exact finishFrame_grows frame rest { run with session := _ } _ _
    · split
      · exact Session.Grows.refl _
      · split
        · exact finishFrame_grows frame rest { run with session := _ } _ _
        · split
          · exact finishFrame_grows frame rest { run with session := _ } _ _
          · exact dfsNextActor_adds system random _ rest { run with session := _ }

theorem dfsIterate_adds : Adds run.session (dfsIterate system random frame rest run) := by
  unfold dfsIterate
  split
  · exact dfsEnter_adds system random frame rest run
  · exact dfsNextActor_adds system random frame rest run
  · split
    · exact .refl _
    · split
      · exact dfsChoose_adds system random _ rest run _ _
      · split
        · exact .refl _
        · exact dfsChoose_adds system random _ rest run _ _
  · exact .refl _

end Adds

theorem dfsLoop_grows (system : TransitionSystem) (randoms : List ℕ) (run : DfsRun) :
    run.session.Grows (dfsLoop system randoms run).2.session := by
  fun_induction dfsLoop system randoms run with
  | case1 => exact .refl _
  | case2 => exact .refl _
  | case3 run frame rest random randoms frames stopped iteration =>
    have adds := dfsIterate_adds system random frame rest run
    rwa [iteration] at adds
  | case4 run frame rest random randoms frames next iteration ih =>
    have adds := dfsIterate_adds system random frame rest run
    rw [iteration] at adds
    exact adds.trans ih

/-! ## The tables along a session -/

/-- Expansion records and memo tables say what they are read for. -/
structure Sound (system : TransitionSystem) (session : Session) : Prop where
  tracked : Tracked system session
  memoised : Memoised system session

theorem Sound.initial (start : HashType) : Sound system { running := start } :=
  ⟨.of_no_record fun _ => rfl, by simp, by simp⟩

theorem Memoised.recordExpanded {session : Session} (memoised : Memoised system session)
    (hash : HashType) (remaining : ℤ) : Memoised system (session.recordExpanded hash remaining) := by
  rcases session.recordExpanded_cases hash remaining with same | updated
  · rwa [same]
  · rw [updated]
    exact ⟨memoised.fullyCovered, memoised.dfsCoverage⟩

/-- A complete search adds only states with a covered closure to `fully_covered`. -/
theorem bfsLoop_memoised (interrupt : Option ℕ) (run : BfsRun) (sound : Sound system run.session) :
    Memoised system (bfsLoop system interrupt run).2 := by
  fun_induction bfsLoop system interrupt run with
  | case1 interrupt run empty finished =>
    refine ⟨fun hash member => ?_, sound.memoised.dfsCoverage⟩
    rcases Finset.mem_union.mp member with member | member
    · exact sound.memoised.fullyCovered hash member
    · exact sound.tracked.closureCovered finished member
  | case2 => exact sound.memoised
  | case3 _ _ _ _ _ _ ih => exact ih sound
  | case4 => exact sound.memoised
  | case5 _ _ _ _ _ _ _ stopped failure =>
    exact sound.memoised.explore (bfsActors_error failure).explores
  | case6 => exact ⟨by simp [Session.clearSearchBookkeeping], by simp [Session.clearSearchBookkeeping]⟩
  | case7 interrupt run source queue popped unexpanded failed next expanded session running ih =>
    refine ih ⟨Tracked.expand expanded sound.tracked (by simpa using failed), ?_⟩
    exact (sound.memoised.explore (bfsActors_ok expanded).1).recordExpanded source kExpandedUnbounded

theorem randLoop_memoised (depth : ℤ) (start : HashType) (walks : List (ℕ → ℕ × ℕ)) {session : Session}
    (memoised : Memoised system session) :
    Memoised system (randLoop system depth start walks session).2 := by
  induction walks generalizing session with
  | nil => exact ⟨memoised.fullyCovered, memoised.dfsCoverage⟩
  | cons randoms walks ih =>
    obtain ⟨success, failure⟩ := randWalk_explores system depth.toNat randoms start session
    simp only [randLoop]
    split
    · next after stopped => exact memoised.explore (failure after stopped)
    · next after walked => exact ih (memoised.explore (success after walked))

/-- An interrupted random search must find the expanded states closed under transitions. -/
def Command.Guarded (system : TransitionSystem) (session : Session) : Command → Prop
  | .rand depth walks => (execRand system depth walks session).1 = .interrupted →
      ExpansionClosed system session
  | _ => True

theorem Sound.step {session : Session} (sound : Sound system session) (command : Command)
    (guarded : command.Guarded system session) : Sound system (command.step system session) := by
  cases command with
  | bfs interrupt =>
    refine ⟨(execBfs_tracked interrupt sound.tracked).1, bfsLoop_memoised interrupt _ ?_⟩
    have explores := session.discover_explores session.running
    exact ⟨sound.tracked.grow explores.toGrows, sound.memoised.explore explores⟩
  | dfs depth randoms =>
    have searching := doDfsIterative_searching session.running depth sound.memoised
    exact ⟨sound.tracked.grow (dfsLoop_grows system randoms { session := session, stack := _ }),
      (dfsLoop_searching randoms searching).1⟩
  | rand depth walks =>
    exact ⟨randLoop_tracked depth session.running walks sound.tracked guarded,
      randLoop_memoised depth session.running walks sound.memoised⟩
  | load hash =>
    exact ⟨⟨sound.tracked.covered, sound.tracked.closed⟩,
      ⟨sound.memoised.fullyCovered, sound.memoised.dfsCoverage⟩⟩

/-- Every command of the sequence is guarded where it is issued. -/
def GuardedRun (system : TransitionSystem) : List Command → Session → Prop
  | [], _ => True
  | command :: commands, session =>
    command.Guarded system session ∧ GuardedRun system commands (command.step system session)

theorem Sound.run {commands : List Command} {session : Session} (sound : Sound system session)
    (guarded : GuardedRun system commands session) :
    Sound system (runCommands system commands session) := by
  induction commands generalizing session with
  | nil => exact sound
  | cons command commands ih => exact ih (sound.step command guarded.1) guarded.2

/-! ## What the searches report -/

/-- A breadth-first search that reports a complete exploration has one, in every session whose
interrupted random searches found the expanded states closed. -/
theorem execBfs_complete_covers (system : TransitionSystem) (start : HashType) (commands : List Command)
    (guarded : GuardedRun system commands { running := start }) (interrupt : Option ℕ)
    (complete : (execBfs system interrupt (runCommands system commands { running := start })).1 =
      .complete) :
    system.ClosureCovered
      (execBfs system interrupt (runCommands system commands { running := start })).2.executed
      (runCommands system commands { running := start }).running :=
  (execBfs_tracked interrupt (Sound.run (.initial start) guarded).tracked).2 complete

/-- Two states that lead to each other, the first with a choice to stay. -/
def ring : TransitionSystem where
  propertyFailed _ := false
  enabledActorActions hash := if hash = 1 ∨ hash = 2 then [⟨0, 0, .normal⟩] else []
  nChoose hash _ := if hash = 1 then 2 else 0
  successor hash _ choice := if hash = 1 ∧ choice = 0 then 2 else 1
  disabled_of_failed := by simp

/-- A complete search, and a random one that is interrupted after a walk. -/
def searchThenWalk : List Command :=
  [.bfs none, .load 1, .rand 1 [fun _ => (0, 0)], .load 1]

theorem execBfs_complete_covers_ring :
    GuardedRun ring searchThenWalk { running := 1 } ∧
      ring.ClosureCovered
        (execBfs ring none (runCommands ring searchThenWalk { running := 1 })).2.executed
        (runCommands ring searchThenWalk { running := 1 }).running := by
  have guarded : GuardedRun ring searchThenWalk { running := 1 } := by
    refine ⟨trivial, trivial, fun _ => ?_, trivial, trivial⟩
    rintro ⟨source, actor, choice⟩ _ _
    have target : ring.target ⟨source, actor, choice⟩ = 2 ∨ ring.target ⟨source, actor, choice⟩ = 1 := by
      simp only [TransitionSystem.target, ring]
      split <;> simp
    unfold Session.Expanded
    rcases target with same | same
    · rw [same]
      decide +kernel
    · rw [same]
      decide +kernel
  exact ⟨guarded, execBfs_complete_covers ring 1 searchThenWalk guarded none (by decide +kernel)⟩

/-- Three states in a row, of which the last is violating. -/
def chain : TransitionSystem where
  propertyFailed hash := hash = 3
  enabledActorActions hash := if hash = 1 ∨ hash = 2 then [⟨0, 0, .normal⟩] else []
  nChoose _ _ := 0
  successor hash _ _ := hash + 1
  disabled_of_failed := by
    intro hash failed
    obtain rfl : hash = 3 := by simpa using failed
    decide

/-- The first search expands the first state and stops at the violation behind the second. The
interrupted walk forgets the second state, and the next search skips the first as expanded. -/
theorem execBfs_complete_misses_violation :
    (execBfs chain none (runCommands chain searchThenWalk { running := 1 })).1 = .complete ∧
      ¬ chain.ClosureCovered
        (execBfs chain none (runCommands chain searchThenWalk { running := 1 })).2.executed
        (runCommands chain searchThenWalk { running := 1 }).running := by
  refine ⟨by decide +kernel, fun covered => ?_⟩
  have step : chain.Step 1 2 := ⟨⟨1, ⟨0, 0, .normal⟩, 0⟩, by decide, rfl, rfl⟩
  have second := covered 2 (.single step)
  have violating := (second.transitions ⟨2, ⟨0, 0, .normal⟩, 0⟩ (by decide) rfl).2
  exact absurd violating (by decide)

/-- No violation within `depth` transitions of `root`, neither in a state nor on a transition. -/
structure SoundWithin (system : TransitionSystem) (root : HashType) (depth : ℤ) : Prop where
  states : ∀ (length : ℕ) (hash : HashType), (length : ℤ) ≤ depth → system.ReachableIn length root hash →
    system.propertyFailed hash = false
  transitions : ∀ (length : ℕ) (transition : Transition), (length : ℤ) < depth →
    system.ReachableIn length root transition.source → system.IsTransition transition →
    system.propertyFailed (system.target transition) = false

/-- No violation in the reachable closure of `root`. -/
structure SoundClosure (system : TransitionSystem) (root : HashType) : Prop where
  states : ∀ hash, system.Reachable root hash → system.propertyFailed hash = false
  transitions : ∀ transition, system.Reachable root transition.source →
    system.IsTransition transition → system.propertyFailed (system.target transition) = false

theorem Answered.soundWithin {executed : List Transition} {depth : ℤ} {result : SearchCoverage}
    {root : HashType} (answered : Answered system executed depth result root) :
    SoundWithin system root depth where
  states length hash within path := answered.bounded within path
  transitions length transition within path member := by
    have bound : ((length + 1 : ℕ) : ℤ) ≤ depth := by omega
    exact answered.bounded bound (path.snoc ⟨transition, member, rfl, rfl⟩)

theorem soundClosure_of_closureCovered {executed : List Transition} {root : HashType}
    (covered : system.ClosureCovered executed root) : SoundClosure system root where
  states hash reachable := (covered hash reachable).sound
  transitions transition reachable member :=
    ((covered _ reachable).transitions transition member rfl).2

def Command.DepthFirst : Command → Prop
  | .dfs _ _ => True
  | .load _ => True
  | _ => False

theorem GuardedRun.of_depthFirst (system : TransitionSystem) {commands : List Command}
    (depthFirst : ∀ command ∈ commands, command.DepthFirst) (session : Session) :
    GuardedRun system commands session := by
  induction commands generalizing session with
  | nil => trivial
  | cons command commands ih =>
    refine ⟨?_, ih (fun other member => depthFirst other (List.mem_cons_of_mem _ member)) _⟩
    have first := depthFirst command (List.mem_cons_self ..)
    cases command with
    | rand => exact first.elim
    | bfs => trivial
    | dfs => trivial
    | load => trivial

/-- A depth-first search that returns 0 found no violation within its depth, and none at all when it
met no cut. Whatever its end, `fully_covered` holds only states with a covered closure. -/
theorem doDfsIterative_sound (system : TransitionSystem) (start : HashType) (commands : List Command)
    (depthFirst : ∀ command ∈ commands, command.DepthFirst) (root : HashType) (depth : ℤ)
    (randoms : List ℕ) (result : DfsEnd × DfsRun)
    (returned : doDfsIterative system randoms root depth
      (runCommands system commands { running := start }) = result) :
    (result.1 = .finished → SoundWithin system root depth ∧
      (result.2.depthLimitReached = false → SoundClosure system root)) ∧
    ∀ hash ∈ result.2.session.fullyCovered,
      system.ClosureCovered result.2.session.executed hash := by
  subst returned
  have sound := Sound.run (.initial start) (GuardedRun.of_depthFirst system depthFirst _)
  obtain ⟨memoised, answer, _⟩ :=
    dfsLoop_searching randoms (doDfsIterative_searching root depth sound.memoised)
  refine ⟨fun finished => ⟨(answer finished).soundWithin, fun uncut => ?_⟩, memoised.fullyCovered⟩
  exact soundClosure_of_closureCovered ((answer finished).whole uncut)

/-- A state with the choice to reach a terminal state directly or through another one. -/
def detour : TransitionSystem where
  propertyFailed _ := false
  enabledActorActions hash := if hash = 1 ∨ hash = 2 then [⟨0, 0, .normal⟩] else []
  nChoose hash _ := if hash = 1 then 2 else 0
  successor hash _ choice := if hash = 1 ∧ choice = 0 then 2 else 3
  disabled_of_failed := by simp

/-- The earlier search is interrupted after the terminal state was covered; the later one, at another
depth, answers it from the table. -/
theorem doDfsIterative_sound_detour :
    (doDfsIterative detour (List.replicate 9 0) 1 4
      (runCommands detour [.dfs 2 [0, 1, 1], .load 1] { running := 1 })).1 = .finished ∧
    SoundWithin detour 1 4 ∧ SoundClosure detour 1 := by
  have finished : (doDfsIterative detour (List.replicate 9 0) 1 4
      (runCommands detour [.dfs 2 [0, 1, 1], .load 1] { running := 1 })).1 = .finished := by
    decide +kernel
  have report := doDfsIterative_sound detour 1 [.dfs 2 [0, 1, 1], .load 1]
    (by simp [Command.DepthFirst]) 1 4 (List.replicate 9 0) _ rfl
  obtain ⟨within, whole⟩ := report.1 finished
  exact ⟨finished, within, whole (by decide +kernel)⟩

end DetSim.Scheduler
