import DetSim.Soundness.SchedulerCoverage

/-! # The memoised depth-first search

A frame is a bounded query: is every state within `depth` transitions of its state fine? Its answer
also says whether a depth cut was met below; without one the answer holds for the whole closure. The
tables hold answers of finished queries only. A suspended frame knows the answers of all its executed
transitions but the last, which the frame above is still computing. Cycles need no care: a state met
again is a new query at a smaller depth, and a cut in it taints every frame below it on the stack.
-/

namespace DetSim.Scheduler

open TransitionSystem

variable {actor : ActorAction} {hash : HashType} {executed : List Transition} {result : SearchCoverage}
  {depth preset : ℤ} {system : TransitionSystem}

/-! ## Answers -/

/-- The answer to the bounded query at a state. -/
structure Answered (system : TransitionSystem) (executed : List Transition) (depth : ℤ)
    (result : SearchCoverage) (hash : HashType) : Prop where
  sound : system.propertyFailed hash = false
  bounded : ∀ {length : ℕ} {target : HashType}, (length : ℤ) ≤ depth →
    system.ReachableIn length hash target → system.propertyFailed target = false
  whole : result.depthCut = false → system.ClosureCovered executed hash

theorem Answered.mono {shorter longer : List Transition} (answered : Answered system shorter depth result hash)
    (subset : shorter ⊆ longer) : Answered system longer depth result hash :=
  ⟨answered.sound, answered.bounded, fun uncut => (answered.whole uncut).mono subset⟩

theorem Answered.weaken {weaker : SearchCoverage} (answered : Answered system executed depth result hash)
    (taints : weaker.depthCut = false → result.depthCut = false) :
    Answered system executed depth weaker hash :=
  ⟨answered.sound, answered.bounded, fun uncut => answered.whole (taints uncut)⟩

/-- A covered closure answers the query at any depth. -/
theorem Answered.of_closureCovered (covered : system.ClosureCovered executed hash) :
    Answered system executed depth result hash where
  sound := (covered hash .refl).sound
  bounded _ path := (covered _ path.reachable).sound
  whole _ := covered

theorem closureCovered_of_terminal
    (sound : system.propertyFailed hash = false) (terminal : system.enabledActorActions hash = []) :
    system.ClosureCovered executed hash := by
  have stuck : ∀ transition, system.IsTransition transition → transition.source ≠ hash := by
    rintro transition member rfl
    exact no_transition_of_disabled terminal member
  exact Covered.closure ⟨sound, fun transition member same => (stuck transition member same).elim⟩
    fun transition member same => (stuck transition member same).elim

theorem Answered.of_depthCut
    (sound : system.propertyFailed hash = false) (cut : depth ≤ 0) :
    Answered system executed depth ⟨true⟩ hash where
  sound := sound
  bounded := by
    intro length target within path
    obtain rfl : length = 0 := by omega
    cases path
    exact sound
  whole := by simp

/-- All transitions executed, and their targets answered at one level less. -/
theorem Answered.of_successors (sound : system.propertyFailed hash = false)
    (successors : ∀ transition, system.IsTransition transition → transition.source = hash →
      transition ∈ executed ∧ Answered system executed (depth - 1) result (system.target transition)) :
    Answered system executed depth result hash where
  sound := sound
  bounded := by
    intro length target within path
    cases path with
    | refl => exact sound
    | head step rest =>
      obtain ⟨transition, member, source, rfl⟩ := step
      exact (successors transition member source).2.bounded (by omega) rest
  whole := by
    intro uncut
    apply Covered.closure
    · exact ⟨sound, fun transition member source =>
        ⟨(successors transition member source).1, (successors transition member source).2.sound⟩⟩
    · intro transition member source
      exact (successors transition member source).2.whole uncut

/-! ## Tables -/

/-- The two memo tables hold answers of finished queries. -/
structure Memoised (system : TransitionSystem) (session : Session) : Prop where
  fullyCovered : ∀ hash ∈ session.fullyCovered, system.ClosureCovered session.executed hash
  dfsCoverage : ∀ hash depth result, session.dfsCoverage hash depth = some result →
    Answered system session.executed depth result hash

theorem Memoised.explore {before after : Session} (memoised : Memoised system before)
    (explores : before.Explores after) : Memoised system after where
  fullyCovered hash member := by
    rw [explores.fullyCovered] at member
    exact (memoised.fullyCovered hash member).mono explores.executed
  dfsCoverage hash depth result read := by
    rw [explores.dfsCoverage] at read
    exact (memoised.dfsCoverage hash depth result read).mono explores.executed

theorem Memoised.publish {session : Session} {frame : DfsFrame}
    (memoised : Memoised system session)
    (answered : Answered system session.executed frame.depth result frame.ssHash) :
    Memoised system (session.publish frame result) where
  fullyCovered hash member := by
    cases cut : result.depthCut with
    | true => exact memoised.fullyCovered hash (by simpa [Session.publish, cut] using member)
    | false =>
      have member : hash = frame.ssHash ∨ hash ∈ session.fullyCovered := by
        simpa [Session.publish, cut] using member
      rcases member with rfl | member
      · exact answered.whole cut
      · exact memoised.fullyCovered hash member
  dfsCoverage hash depth found read := by
    by_cases same : hash = frame.ssHash ∧ depth = frame.depth
    · obtain ⟨rfl, rfl⟩ := same
      obtain rfl : result = found := by simpa [Session.publish] using read
      exact answered
    · refine memoised.dfsCoverage hash depth found ?_
      rw [← read]
      by_cases sameHash : hash = frame.ssHash
      · subst sameHash
        have otherDepth : depth ≠ frame.depth := fun sameDepth => same ⟨rfl, sameDepth⟩
        simp [Session.publish, otherDepth]
      · simp [Session.publish, sameHash]

/-! ## Frames -/

/-- The outcomes a frame has not executed yet, by the position of their actor. -/
def DfsFrame.Pending (frame : DfsFrame) (position choice : ℕ) : Prop :=
  frame.actorPos < position ∨
    position = frame.actorPos ∧ (frame.state = .nextActor ∨ choice ∈ frame.choices)

/-- A frame in the middle of its enumeration. Every outcome is pending, or executed with its target
answered; `awaited` is the target whose answer is still being computed above the frame. -/
structure Enumerates (system : TransitionSystem) (executed : List Transition) (frame : DfsFrame)
    (awaited : Option HashType) (pending : ℕ → ℕ → Prop) : Prop where
  sound : system.propertyFailed frame.ssHash = false
  actors : frame.actors = system.enabledActorActions frame.ssHash
  accounted : ∀ position actor choice, frame.actors[position]? = some actor →
    choice < max 1 (system.nChoose frame.ssHash actor) → pending position choice ∨
      (⟨frame.ssHash, actor, choice⟩ ∈ executed ∧
        (awaited = some (system.successor frame.ssHash actor choice) ∨
          Answered system executed (frame.depth - 1) frame.coverage
            (system.successor frame.ssHash actor choice)))

/-- The alternatives kept by a frame are outcomes of its current actor. -/
structure Chooses (system : TransitionSystem) (frame : DfsFrame) (actor : ActorAction) : Prop where
  read : frame.actors[frame.actorPos]? = some actor
  cardinality : frame.cardinality = system.nChoose frame.ssHash actor
  offered : ∀ choice ∈ frame.choices, choice < system.nChoose frame.ssHash actor

/-- A stored frame is entered later, or enumerates; a frame in state 2 or 3 has a current actor. -/
structure Stored (system : TransitionSystem) (executed : List Transition) (frame : DfsFrame)
    (awaited : Option HashType) : Prop where
  enumerates : frame.state ≠ .enter → Enumerates system executed frame awaited frame.Pending
  chooses : frame.state = .choose ∨ frame.state = .resume → ∃ actor, Chooses system frame actor
  chosen : frame.state = .choose → frame.choices ≠ []

/-- The suspended frames under a query for `child`, down to the query at the root. -/
inductive Awaits (system : TransitionSystem) (executed : List Transition) (root : HashType) (depth : ℤ) :
    List DfsFrame → HashType → ℤ → Prop
  | bottom : Awaits system executed root depth [] root depth
  | above {parent : DfsFrame} {rest : List DfsFrame} {child : HashType}
      (entered : parent.state ≠ .enter) (stored : Stored system executed parent (some child))
      (below : Awaits system executed root depth rest parent.ssHash parent.depth) :
      Awaits system executed root depth (parent :: rest) child (parent.depth - 1)

section Mono

variable {shorter longer : List Transition} {frame : DfsFrame} {awaited : Option HashType}

theorem Enumerates.mono {pending : ℕ → ℕ → Prop}
    (enumerates : Enumerates system shorter frame awaited pending) (subset : shorter ⊆ longer) :
    Enumerates system longer frame awaited pending where
  sound := enumerates.sound
  actors := enumerates.actors
  accounted position actor choice read bound :=
    (enumerates.accounted position actor choice read bound).imp_right fun ⟨executed, answer⟩ =>
      ⟨subset executed, answer.imp_right (·.mono subset)⟩

theorem Stored.mono (stored : Stored system shorter frame awaited) (subset : shorter ⊆ longer) :
    Stored system longer frame awaited :=
  ⟨fun entered => (stored.enumerates entered).mono subset, stored.chooses, stored.chosen⟩

theorem Awaits.mono {root child : HashType} {childDepth : ℤ} {rest : List DfsFrame}
    (awaits : Awaits system shorter root depth rest child childDepth) (subset : shorter ⊆ longer) :
    Awaits system longer root depth rest child childDepth := by
  induction awaits with
  | bottom => exact .bottom
  | above entered stored _ ih => exact .above entered (stored.mono subset) ih

end Mono

/-- The answer of a finished child is merged into the frame that awaited it. -/
theorem Stored.merge {parent : DfsFrame} {child : HashType} (stored : Stored system executed parent (some child))
    (answered : Answered system executed (parent.depth - 1) result child) :
    Stored system executed { parent with coverage := parent.coverage.merge result } none where
  enumerates entered :=
    { sound := (stored.enumerates entered).sound
      actors := (stored.enumerates entered).actors
      accounted := by
        intro position actor choice read bound
        refine ((stored.enumerates entered).accounted position actor choice read bound).imp_right ?_
        rintro ⟨member, answer⟩
        refine ⟨member, .inr ?_⟩
        rcases answer with same | answer
        · obtain rfl := Option.some.inj same
          exact answered.weaken fun uncut => (Bool.or_eq_false_iff.mp uncut).2
        · exact answer.weaken fun uncut => (Bool.or_eq_false_iff.mp uncut).1 }
  chooses turn := by
    obtain ⟨actor, read, cardinality, offered⟩ := stored.chooses turn
    exact ⟨actor, read, cardinality, offered⟩
  chosen := stored.chosen

/-- A frame past its last actor has the answer to its query. -/
theorem Enumerates.answered {frame : DfsFrame}
    (enumerates : Enumerates system executed frame none frame.Pending)
    (past : frame.actors[frame.actorPos]? = none) :
    Answered system executed frame.depth frame.coverage frame.ssHash := by
  apply Answered.of_successors enumerates.sound
  rintro ⟨source, actor, choice⟩ ⟨enabled, bound⟩ rfl
  rw [← enumerates.actors] at enabled
  obtain ⟨position, read⟩ := List.mem_iff_getElem?.mp enabled
  rcases enumerates.accounted position actor choice read bound with pending | ⟨member, answer⟩
  · have inside : position < frame.actors.length := (List.getElem?_eq_some_iff.mp read).1
    have outside : frame.actors.length ≤ frame.actorPos := List.getElem?_eq_none_iff.mp past
    have ahead : frame.actorPos ≤ position := by
      rcases pending with ahead | ⟨rfl, _⟩
      · exact ahead.le
      · exact le_rfl
    omega
  · exact ⟨member, answer.resolve_left (by simp)⟩

/-! ## One iteration -/

/-- The invariant of the loop for the query `(root, depth)`. -/
def StackFits (system : TransitionSystem) (executed : List Transition) (root : HashType) (depth : ℤ)
    (limit : Bool) : List DfsFrame → Prop
  | [] => Answered system executed depth ⟨limit⟩ root
  | frame :: rest => Stored system executed frame none ∧
      Awaits system executed root depth rest frame.ssHash frame.depth

structure Searching (system : TransitionSystem) (root : HashType) (depth : ℤ) (run : DfsRun) : Prop where
  memoised : Memoised system run.session
  stack : StackFits system run.session.executed root depth run.depthLimitReached run.stack

/-- What an iteration may come to: a violation with sound tables, or the next state of the search. -/
def Progresses (system : TransitionSystem) (root : HashType) (depth : ℤ) :
    Except (DfsEnd × DfsRun) DfsRun → Prop
  | .error stopped => stopped.1 = .violation ∧ Memoised system stopped.2.session
  | .ok next => Searching system root depth next

section Iteration

variable {root : HashType} {depth : ℤ} {frame : DfsFrame} {rest : List DfsFrame} {run : DfsRun}

/-- Popping an answered frame, published or not, leaves the search at the frame below. -/
theorem Searching.finishFrame (publish : Bool)
    (memoised : Memoised system run.session)
    (awaits : Awaits system run.session.executed root depth rest frame.ssHash frame.depth)
    (answered : Answered system run.session.executed frame.depth result frame.ssHash) :
    Searching system root depth (run.finishFrame frame rest result publish) := by
  have log : (run.finishFrame frame rest result publish).session.executed = run.session.executed := by
    cases publish <;> rfl
  constructor
  · cases publish with
    | true => exact memoised.publish answered
    | false => exact memoised
  · rw [log]
    generalize entry : frame.ssHash = hash at awaits answered
    generalize level : frame.depth = childDepth at awaits answered
    cases awaits with
    | bottom =>
      exact answered.weaken fun uncut => (Bool.or_eq_false_iff.mp uncut).2
    | above entered stored below => exact ⟨stored.merge answered, below⟩

/-- The two ways in which a frame takes an outcome of its current actor. -/
inductive Turn (system : TransitionSystem) (frame : DfsFrame) (actor : ActorAction) : ℤ → Prop
  | first (undiscovered : frame.cardinality < 0) (empty : frame.choices = []) :
      Turn system frame actor (-1)
  | later {choice : ℕ} (discovered : frame.cardinality = system.nChoose frame.ssHash actor)
      (preset : choice < system.nChoose frame.ssHash actor)
      (offered : ∀ other ∈ frame.choices, other < system.nChoose frame.ssHash actor) :
      Turn system frame actor choice

theorem Turn.answer (turn : Turn system frame actor preset)
    (random : ℕ) :
    ∃ choice choices, searchActorChoice system .dfs random frame.ssHash actor preset
        frame.cardinality frame.choices =
          .ok (choice, (system.nChoose frame.ssHash actor : ℤ), choices) ∧
      (∀ other ∈ choices, other < system.nChoose frame.ssHash actor) ∧
      ∀ other < max 1 (system.nChoose frame.ssHash actor),
        frame.cardinality < 0 ∨ (other : ℤ) = preset ∨ other ∈ frame.choices →
          other = choice ∨ other ∈ choices := by
  cases turn with
  | first undiscovered empty =>
    obtain ⟨⟨choice, found, choices⟩, success⟩ : ∃ answer, searchActorChoice system .dfs random
        frame.ssHash actor (-1) frame.cardinality frame.choices = .ok answer :=
      searchActorChoice_first undiscovered (fun _ => by omega) (by simp)
    obtain ⟨taken, rfl, alternatives⟩ := searchActorChoice_discover success (by decide) undiscovered
    simp only [empty, List.not_mem_nil, or_false] at alternatives taken
    refine ⟨choice, choices, success, fun other member => ((alternatives other).mp member).1, ?_⟩
    intro other bound _
    by_cases same : other = choice
    · exact .inl same
    · exact .inr ((alternatives other).mpr ⟨by omega, same⟩)
  | @later choice discovered preset offered =>
    rw [discovered]
    refine ⟨choice, frame.choices, searchActorChoice_later preset (by decide), offered, ?_⟩
    rintro other - (negative | same | member)
    · omega
    · exact .inl (Int.ofNat_inj.mp same)
    · exact .inr member

theorem DfsFrame.suspended_query (frame : DfsFrame) (cardinality : ℤ) (choices : List ℕ) :
    (frame.suspended cardinality choices).ssHash = frame.ssHash ∧
      (frame.suspended cardinality choices).depth = frame.depth ∧
      (frame.suspended cardinality choices).state ≠ .enter := by
  unfold DfsFrame.suspended
  dsimp only
  split
  · exact ⟨rfl, rfl, by simp [DfsFrame.advanceActor]⟩
  · exact ⟨rfl, rfl, by simp⟩

theorem Enumerates.suspend {choice : ℕ}
    {choices : List ℕ} (read : frame.actors[frame.actorPos]? = some actor)
    (enumerates : Enumerates system executed frame none fun position other =>
      frame.actorPos < position ∨ position = frame.actorPos ∧
        (frame.cardinality < 0 ∨ (other : ℤ) = preset ∨ other ∈ frame.choices))
    (offered : ∀ other ∈ choices, other < system.nChoose frame.ssHash actor)
    (split : ∀ other < max 1 (system.nChoose frame.ssHash actor),
      frame.cardinality < 0 ∨ (other : ℤ) = preset ∨ other ∈ frame.choices →
        other = choice ∨ other ∈ choices) :
    Stored system (⟨frame.ssHash, actor, choice⟩ :: executed)
      (frame.suspended (system.nChoose frame.ssHash actor) choices)
      (some (system.successor frame.ssHash actor choice)) := by
  have accounted : ∀ position other choice', frame.actors[position]? = some other →
      choice' < max 1 (system.nChoose frame.ssHash other) →
      (frame.suspended (system.nChoose frame.ssHash actor) choices).Pending position choice' ∨
        (⟨frame.ssHash, other, choice'⟩ ∈ (⟨frame.ssHash, actor, choice⟩ :: executed : List Transition) ∧
          (some (system.successor frame.ssHash actor choice) =
              some (system.successor frame.ssHash other choice') ∨
            Answered system (⟨frame.ssHash, actor, choice⟩ :: executed) (frame.depth - 1) frame.coverage
              (system.successor frame.ssHash other choice'))) := by
    intro position other choice' otherRead bound
    rcases enumerates.accounted position other choice' otherRead bound with
      (ahead | ⟨rfl, untaken⟩) | ⟨member, answer⟩
    · left
      unfold DfsFrame.suspended DfsFrame.Pending
      dsimp only
      split
      · exact (Nat.lt_or_eq_of_le ahead).imp_right fun next => ⟨next.symm, .inl rfl⟩
      · exact .inl ahead
    · obtain rfl : actor = other := Option.some.inj (read.symm.trans otherRead)
      rcases split choice' bound untaken with rfl | member
      · exact .inr ⟨List.mem_cons_self .., .inl rfl⟩
      · left
        rw [DfsFrame.suspended, if_neg (List.ne_nil_of_mem member)]
        exact .inr ⟨rfl, .inr member⟩
    · refine .inr ⟨List.mem_cons_of_mem _ member, .inr ?_⟩
      exact (answer.resolve_left (by simp)).mono (List.subset_cons_self _ _)
  by_cases last : choices = []
  · rw [DfsFrame.suspended, if_pos last] at accounted ⊢
    exact ⟨fun _ => ⟨enumerates.sound, enumerates.actors, accounted⟩,
      by simp [DfsFrame.advanceActor], by simp [DfsFrame.advanceActor]⟩
  · rw [DfsFrame.suspended, if_neg last] at accounted ⊢
    exact ⟨fun _ => ⟨enumerates.sound, enumerates.actors, accounted⟩,
      fun _ => ⟨actor, read, rfl, offered⟩, fun _ => last⟩

/-- Executing an outcome either finds a violation or suspends the frame under a new query. -/
theorem dfsChoose_searching (random : ℕ)
    (memoised : Memoised system run.session)
    (awaits : Awaits system run.session.executed root depth rest frame.ssHash frame.depth)
    (read : frame.actors[frame.actorPos]? = some actor) (turn : Turn system frame actor preset)
    (enumerates : Enumerates system run.session.executed frame none fun position other =>
      frame.actorPos < position ∨ position = frame.actorPos ∧
        (frame.cardinality < 0 ∨ (other : ℤ) = preset ∨ other ∈ frame.choices)) :
    Progresses system root depth (dfsChoose system random frame actor preset rest run) := by
  obtain ⟨choice, choices, success, offered, split⟩ := turn.answer random
  unfold dfsChoose
  rw [success]
  dsimp only
  split
  · exact ⟨rfl, memoised.explore (Session.execute_explores _ _ _)⟩
  · refine ⟨memoised.explore (Session.execute_explores _ _ _), ⟨by simp, by simp, by simp⟩, ?_⟩
    obtain ⟨sameHash, sameDepth, entered⟩ :=
      frame.suspended_query (system.nChoose frame.ssHash actor) choices
    rw [← sameHash, ← sameDepth] at awaits
    rw [← sameDepth]
    exact .above entered (enumerates.suspend read offered split)
      (awaits.mono (Session.execute_explores _ _ _).executed)

theorem dfsNextActor_searching (random : ℕ) (memoised : Memoised system run.session)
    (awaits : Awaits system run.session.executed root depth rest frame.ssHash frame.depth)
    (enumerates : Enumerates system run.session.executed frame none frame.Pending) :
    Progresses system root depth (dfsNextActor system random frame rest run) := by
  unfold dfsNextActor
  split
  · next past => exact .finishFrame true memoised awaits (enumerates.answered past)
  · next actor read =>
    refine dfsChoose_searching random memoised awaits read (.first (by simp) rfl) ⟨?_, ?_, ?_⟩
    · exact enumerates.sound
    · exact enumerates.actors
    · intro position other choice otherRead bound
      refine (enumerates.accounted position other choice otherRead bound).imp_left ?_
      exact Or.imp_right fun ⟨same, _⟩ => ⟨same, .inl (by simp)⟩

theorem dfsEnter_searching (random : ℕ) (memoised : Memoised system run.session)
    (awaits : Awaits system run.session.executed root depth rest frame.ssHash frame.depth) :
    Progresses system root depth (dfsEnter system random frame rest run) := by
  have discovered := memoised.explore (run.session.discover_explores frame.ssHash)
  unfold dfsEnter
  dsimp only
  split
  · next hit =>
    exact .finishFrame false discovered awaits (.of_closureCovered (memoised.fullyCovered _ hit))
  · split
    · next outcome hit =>
      exact .finishFrame false discovered awaits (memoised.dfsCoverage _ _ outcome hit)
    · split
      · exact ⟨rfl, discovered⟩
      · next notFailed =>
        have sound : system.propertyFailed frame.ssHash = false := by simpa using notFailed
        split
        · next terminal =>
          exact .finishFrame true discovered awaits
            (.of_closureCovered (closureCovered_of_terminal sound terminal))
        · split
          · next cut => exact .finishFrame true discovered awaits (.of_depthCut sound cut)
          · refine dfsNextActor_searching random discovered awaits ⟨sound, rfl, ?_⟩
            intro position actor choice _ _
            exact .inl ((Nat.eq_zero_or_pos position).elim (fun same => .inr ⟨same, .inl rfl⟩) .inl)

theorem DfsFrame.resumed_query (frame : DfsFrame) :
    frame.resumed.ssHash = frame.ssHash ∧ frame.resumed.depth = frame.depth := by
  unfold DfsFrame.resumed
  split <;> exact ⟨rfl, rfl⟩

theorem Stored.resume (state : frame.state = .resume)
    (stored : Stored system executed frame none) : Stored system executed frame.resumed none := by
  obtain ⟨actor, read, cardinality, offered⟩ := stored.chooses (.inr state)
  have enumerates := stored.enumerates (by simp [state])
  unfold DfsFrame.resumed
  split
  · next empty =>
    refine ⟨fun _ => ⟨enumerates.sound, enumerates.actors, ?_⟩, by simp [DfsFrame.advanceActor],
      by simp [DfsFrame.advanceActor]⟩
    intro position other choice otherRead bound
    refine (enumerates.accounted position other choice otherRead bound).imp_left ?_
    rintro (ahead | ⟨_, turn | member⟩)
    · exact (Nat.lt_or_eq_of_le ahead).imp_right fun next => ⟨next.symm, .inl rfl⟩
    · simp [state] at turn
    · simp [empty] at member
  · next some =>
    refine ⟨fun _ => ⟨enumerates.sound, enumerates.actors, ?_⟩, fun _ => ⟨actor, read, cardinality, offered⟩,
      fun _ => some⟩
    intro position other choice otherRead bound
    refine (enumerates.accounted position other choice otherRead bound).imp_left ?_
    exact Or.imp_right fun ⟨same, untaken⟩ => ⟨same, .inr (untaken.resolve_left (by simp [state]))⟩

/-- One iteration keeps the invariant, whatever it draws. -/
theorem dfsIterate_searching (random : ℕ) (memoised : Memoised system run.session)
    (stored : Stored system run.session.executed frame none)
    (awaits : Awaits system run.session.executed root depth rest frame.ssHash frame.depth) :
    Progresses system root depth (dfsIterate system random frame rest run) := by
  unfold dfsIterate
  split
  · exact dfsEnter_searching random memoised awaits
  · next state =>
    exact dfsNextActor_searching random memoised awaits (stored.enumerates (by simp [state]))
  · next state =>
    obtain ⟨actor, read, cardinality, offered⟩ := stored.chooses (.inl state)
    have enumerates := stored.enumerates (by simp [state])
    rw [read]
    dsimp only
    rw [if_neg (by omega)]
    split
    · next empty => exact (stored.chosen state empty).elim
    · next preset choices pending =>
      rw [pending] at offered
      refine dfsChoose_searching random memoised awaits read
        (.later cardinality (offered preset (List.mem_cons_self ..))
          fun other member => offered other (List.mem_cons_of_mem _ member))
        ⟨enumerates.sound, enumerates.actors, ?_⟩
      intro position other choice otherRead bound
      refine (enumerates.accounted position other choice otherRead bound).imp_left ?_
      refine Or.imp_right fun ⟨same, untaken⟩ => ⟨same, .inr ?_⟩
      have member : choice ∈ preset :: choices := pending ▸ untaken.resolve_left (by simp [state])
      exact (List.mem_cons.mp member).imp_left (congrArg Nat.cast)
  · next state =>
    exact ⟨memoised, stored.resume state, by rwa [frame.resumed_query.1, frame.resumed_query.2]⟩

end Iteration

/-! ## Whole searches -/

/-- The loop ends in one of three ways, with sound tables, and answers its query when it finishes. -/
theorem dfsLoop_searching {root : HashType} (randoms : List ℕ) {run : DfsRun}
    (searching : Searching system root depth run) :
    Memoised system (dfsLoop system randoms run).2.session ∧
      ((dfsLoop system randoms run).1 = .finished →
        Answered system (dfsLoop system randoms run).2.session.executed depth
          ⟨(dfsLoop system randoms run).2.depthLimitReached⟩ root) ∧
      (dfsLoop system randoms run).1 ∈ [DfsEnd.finished, .violation, .interrupted] := by
  fun_induction dfsLoop system randoms run with
  | case1 randoms run empty =>
    have stack := searching.stack
    rw [empty] at stack
    exact ⟨searching.memoised, fun _ => stack, by simp⟩
  | case2 => exact ⟨searching.memoised, by simp, by simp⟩
  | case3 run frame rest random randoms frames stopped iteration =>
    have stack := searching.stack
    rw [frames] at stack
    have progress := dfsIterate_searching random searching.memoised stack.1 stack.2
    rw [iteration] at progress
    obtain ⟨violation, memoised⟩ := progress
    exact ⟨memoised, by simp [violation], by simp [violation]⟩
  | case4 run frame rest random randoms frames next iteration ih =>
    have stack := searching.stack
    rw [frames] at stack
    have progress := dfsIterate_searching random searching.memoised stack.1 stack.2
    rw [iteration] at progress
    exact ih progress

theorem doDfsIterative_searching (root : HashType) (depth : ℤ) {session : Session}
    (memoised : Memoised system session) :
    Searching system root depth
      { session := session, stack := [{ ssHash := root, depth := depth }] } :=
  ⟨memoised, ⟨by simp, by simp, by simp⟩, .bottom⟩

end DetSim.Scheduler
