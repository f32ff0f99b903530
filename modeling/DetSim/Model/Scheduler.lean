import Mathlib.Data.Finset.Card
import Mathlib.Data.Finset.Union

/-! # The serial searches of the scheduler

`exec_bfs`, `exec_dfs` and `exec_rand` explore the saved states from one process. They share four
global tables, which outlive the command that filled them and are cleared only on some of its exits.
A search is modelled over an arbitrary deterministic transition system; the random numbers it draws
and the moment at which it sees an interrupt are inputs. A session also logs the transitions executed
so far. No search reads that log.
-/

namespace DetSim.Scheduler

abbrev HashType := UInt64

inductive TransitionAction
  | normal | timeout
deriving DecidableEq, Repr

structure ActorAction where
  process : ℕ
  thread : ℕ
  action : TransitionAction
deriving DecidableEq, Repr

inductive Mode
  | bfs | dfs | rand
deriving DecidableEq, Repr

/-- What the saved states and the guests determine: which states violate a property, their enabled
actor actions, how many outcomes the syscall of an action offers, and the state each outcome commits.
A failed state enables nothing. -/
structure TransitionSystem where
  propertyFailed : HashType → Bool
  enabledActorActions : HashType → List ActorAction
  nChoose : HashType → ActorAction → ℕ
  successor : HashType → ActorAction → ℕ → HashType
  disabled_of_failed : ∀ hash, propertyFailed hash = true → enabledActorActions hash = []

/-- One executed transition. An action without alternatives has the single choice zero. -/
structure Transition where
  source : HashType
  actor : ActorAction
  choice : ℕ
deriving DecidableEq, Repr

/-- The state that a transition commits. -/
def TransitionSystem.target (system : TransitionSystem) (transition : Transition) : HashType :=
  system.successor transition.source transition.actor transition.choice

structure SearchCoverage where
  depthCut : Bool := false
deriving DecidableEq, Repr

def SearchCoverage.merge (coverage child : SearchCoverage) : SearchCoverage :=
  ⟨coverage.depthCut || child.depthCut⟩

/-- The tables of the scheduler, the running state, and the log of executed transitions. -/
structure Session where
  running : HashType
  stateSet : Finset HashType := ∅
  expandedRemaining : HashType → Option ℤ := fun _ => none
  fullyCovered : Finset HashType := ∅
  dfsCoverage : HashType → ℤ → Option SearchCoverage := fun _ _ => none
  executed : List Transition := []

/-- The largest value of a 32-bit `int`. -/
def kExpandedUnbounded : ℤ := 2 ^ 31 - 1

namespace Session

def expandedBudget (session : Session) (hash : HashType) : ℤ :=
  (session.expandedRemaining hash).getD (-1)

def recordExpanded (session : Session) (hash : HashType) (remaining : ℤ) : Session :=
  match session.expandedRemaining hash with
  | none =>
    { session with expandedRemaining := Function.update session.expandedRemaining hash (some remaining) }
  | some old =>
    if remaining > old then
      { session with expandedRemaining := Function.update session.expandedRemaining hash (some remaining) }
    else session

def allDiscoveredFullyExpanded (session : Session) : Bool :=
  -- the instance ranges over the set, not over all hashes
  @decide (∀ hash ∈ session.stateSet, session.expandedBudget hash = kExpandedUnbounded)
    Finset.decidableDforallFinset

def clearSearchBookkeeping (session : Session) : Session :=
  { session with
    stateSet := ∅
    expandedRemaining := fun _ => none
    fullyCovered := ∅
    dfsCoverage := fun _ _ => none }

def discover (session : Session) (hash : HashType) : Session :=
  { session with stateSet := insert hash session.stateSet }

/-- Every transition leaves the state it committed as the running one. -/
def execute (session : Session) (transition : Transition) (target : HashType) : Session :=
  { session with running := target, executed := transition :: session.executed }

end Session

/-- The outcome an automatic search takes when the syscall offers `nChoose` of them. -/
def handleAutoChoice (mode : Mode) (random nChoose : ℕ) (choose : ℤ) : ℤ :=
  if nChoose = 0 then choose
  else match mode with
    | .rand => (random % nChoose : ℕ)
    | .dfs => if choose < 0 then (random % nChoose : ℕ) else choose
    | .bfs => choose

/-- Execute one outcome of an actor action. The first execution, with a negative `cardinality`,
discovers the alternatives; a later one must find the same number and take its preset. The
alternatives still to execute are listed with the back of the source's vector first. The answer is
the choice taken, the cardinality and the remaining alternatives. -/
def searchActorChoice (system : TransitionSystem) (mode : Mode) (random : ℕ) (source : HashType)
    (actor : ActorAction) (preset cardinality : ℤ) (remaining : List ℕ) :
    Except String (ℕ × ℤ × List ℕ) :=
  let discovered := system.nChoose source actor
  let selected := handleAutoChoice mode random discovered preset
  if discovered ≠ 0 ∧ (selected < 0 ∨ (discovered : ℤ) ≤ selected) then
    .error "Invalid syscall choice discovery"
  else if cardinality < 0 then
    .ok (selected.toNat, discovered,
      ((List.range discovered).filter fun choice : ℕ => (choice : ℤ) ≠ selected).reverse ++ remaining)
  else if (discovered : ℤ) ≠ cardinality ∨ discovered = 0 ∨ selected ≠ preset then
    .error "Syscall choice cardinality/preset changed for the same saved actor action"
  else .ok (selected.toNat, cardinality, remaining)

/-- The global registers `n_choose` and `choose`, which every search and every syscall write. -/
structure ChoiceRegisters where
  nChoose : ℤ := 0
  choose : ℤ := -1
deriving DecidableEq, Repr

/-- What a transition leaves in the registers. It forgets the count of the previous one. Completing a
pending call resets both registers; the exit of a syscall reports its count and takes an outcome. -/
def ChoiceRegisters.transition (mode : Mode) (random nChoose : ℕ) (pending : Bool)
    (registers : ChoiceRegisters) : ChoiceRegisters :=
  if pending then ⟨0, -1⟩ else ⟨nChoose, handleAutoChoice mode random nChoose registers.choose⟩

/-- `searchActorChoice` as it runs on the registers; the second component is what it leaves in them. -/
def searchActorChoiceOn (system : TransitionSystem) (mode : Mode) (random : ℕ) (pending : Bool)
    (source : HashType) (actor : ActorAction) (preset cardinality : ℤ) (remaining : List ℕ)
    (registers : ChoiceRegisters) : Except String (ℕ × ℤ × List ℕ) × ChoiceRegisters :=
  let registers := { registers with nChoose := 0, choose := preset }
  let registers := registers.transition mode random (system.nChoose source actor) pending
  let discovered := registers.nChoose
  let selected := registers.choose
  let answer :=
    if discovered < 0 ∨ (discovered ≠ 0 ∧ (selected < 0 ∨ discovered ≤ selected)) then
      .error "Invalid syscall choice discovery"
    else if cardinality < 0 then
      .ok (selected.toNat, discovered,
        ((List.range discovered.toNat).filter fun choice : ℕ => (choice : ℤ) ≠ selected).reverse ++ remaining)
    else if discovered ≠ cardinality ∨ discovered = 0 ∨ selected ≠ preset then
      .error "Syscall choice cardinality/preset changed for the same saved actor action"
    else .ok (selected.toNat, cardinality, remaining)
  (answer, registers)

/-! ## Breadth-first search -/

/-- How `exec_bfs` ends. `complete` is the report "Complete explore", `incomplete` the report
"Search coverage incomplete". -/
inductive BfsEnd
  | violation | interrupted | complete | incomplete
  | threw (message : String)
deriving DecidableEq, Repr

structure BfsRun where
  session : Session
  queue : List HashType
  queued : Finset HashType

/-- A successor is enqueued once per search, also when an earlier search discovered it, unless it is
already expanded. -/
def BfsRun.visit (run : BfsRun) (target : HashType) : BfsRun :=
  let session := run.session.discover target
  if session.expandedBudget target ≠ kExpandedUnbounded ∧ target ∉ run.queued then
    ⟨session, run.queue ++ [target], insert target run.queued⟩
  else { run with session := session }

section Bfs

variable (system : TransitionSystem)

/-- One pass of the loop over the choices of an actor; an error is a return from `exec_bfs`. -/
def bfsTransition (source : HashType) (actor : ActorAction) (preset cardinality : ℤ)
    (choices : List ℕ) (run : BfsRun) : Except (BfsEnd × Session) (BfsRun × ℤ × List ℕ) :=
  match searchActorChoice system .bfs 0 source actor preset cardinality choices with
  | .error message => .error (.threw message, run.session)
  | .ok (choice, cardinality, choices) =>
    let target := system.successor source actor choice
    let session := run.session.execute ⟨source, actor, choice⟩ target
    if system.propertyFailed target then .error (.violation, session)
    else .ok (BfsRun.visit { run with session := session } target, cardinality, choices)

/-- The passes after the first one. Each takes the back alternative and adds none. -/
def bfsChoices (source : HashType) (actor : ActorAction) (cardinality : ℤ) :
    List ℕ → BfsRun → Except (BfsEnd × Session) BfsRun
  | [], run => .ok run
  | preset :: choices, run =>
    match bfsTransition system source actor preset cardinality choices run with
    | .error stopped => .error stopped
    | .ok (run, _) => bfsChoices source actor cardinality choices run

def bfsActor (source : HashType) (actor : ActorAction) (run : BfsRun) :
    Except (BfsEnd × Session) BfsRun :=
  match bfsTransition system source actor 0 (-1) [] run with
  | .error stopped => .error stopped
  | .ok (run, cardinality, choices) => bfsChoices system source actor cardinality choices run

def bfsActors (source : HashType) : List ActorAction → BfsRun → Except (BfsEnd × Session) BfsRun
  | [], run => .ok run
  | actor :: actors, run =>
    match bfsActor system source actor run with
    | .error stopped => .error stopped
    | .ok run => bfsActors source actors run

/-- Enqueueing a state uses up one of the finitely many hashes that were never queued. -/
def BfsRun.work (run : BfsRun) : ℕ :=
  run.queue.length + (2 ^ 64 - run.queued.card)

theorem card_lt_of_not_mem {hashes : Finset HashType} {hash : HashType} (absent : hash ∉ hashes) :
    hashes.card < 2 ^ 64 := by
  have bound : (insert hash hashes).card ≤ (Finset.range (2 ^ 64)).card :=
    Finset.card_le_card_of_injOn UInt64.toNat
      (fun other _ => by simpa using other.toNat_lt) (fun _ _ _ _ same => UInt64.toNat_inj.mp same)
  rw [Finset.card_insert_of_notMem absent, Finset.card_range] at bound
  omega

theorem BfsRun.visit_work (run : BfsRun) (target : HashType) : (run.visit target).work ≤ run.work := by
  unfold BfsRun.visit
  dsimp only
  split
  · next fresh =>
    have bound := card_lt_of_not_mem fresh.2
    simp only [work, List.length_append, List.length_singleton, Finset.card_insert_of_notMem fresh.2]
    omega
  · exact le_rfl

theorem bfsTransition_work {source : HashType} {actor : ActorAction} {preset cardinality : ℤ}
    {choices : List ℕ} {run : BfsRun} {answer : BfsRun × ℤ × List ℕ}
    (success : bfsTransition system source actor preset cardinality choices run = .ok answer) :
    answer.1.work ≤ run.work := by
  unfold bfsTransition at success
  split at success
  · contradiction
  · dsimp only at success
    split at success
    · contradiction
    · cases success
      exact BfsRun.visit_work _ _

theorem bfsChoices_work {source : HashType} {actor : ActorAction} {cardinality : ℤ}
    {choices : List ℕ} {run next : BfsRun}
    (success : bfsChoices system source actor cardinality choices run = .ok next) :
    next.work ≤ run.work := by
  induction choices generalizing run with
  | nil => cases success; exact le_rfl
  | cons preset choices ih =>
    simp only [bfsChoices] at success
    split at success
    · contradiction
    · next executed => exact (ih success).trans (bfsTransition_work system executed)

theorem bfsActors_work {source : HashType} {actors : List ActorAction} {run next : BfsRun}
    (success : bfsActors system source actors run = .ok next) : next.work ≤ run.work := by
  induction actors generalizing run with
  | nil => cases success; exact le_rfl
  | cons actor actors ih =>
    simp only [bfsActors] at success
    split at success
    · contradiction
    · next explored =>
      refine (ih success).trans ?_
      unfold bfsActor at explored
      split at explored
      · contradiction
      · next executed =>
        exact (bfsChoices_work system explored).trans (bfsTransition_work system executed)

/-- The queue is drained front to back. An interrupt is seen after an expansion; `interrupt` counts
the expansions before it. -/
def bfsLoop (interrupt : Option ℕ) (run : BfsRun) : BfsEnd × Session :=
  match popped : run.queue with
  | [] =>
    if run.session.allDiscoveredFullyExpanded then
      (.complete, { run.session with fullyCovered := run.session.fullyCovered ∪ run.session.stateSet })
    else (.incomplete, run.session)
  | source :: queue =>
    if run.session.expandedBudget source = kExpandedUnbounded then
      bfsLoop interrupt { run with queue := queue }
    else if system.propertyFailed source then (.violation, run.session)
    else match expanded : bfsActors system source (system.enabledActorActions source)
        { run with queue := queue } with
      | .error stopped => stopped
      | .ok next =>
        let session := next.session.recordExpanded source kExpandedUnbounded
        if interrupt = some 0 then (.interrupted, session.clearSearchBookkeeping)
        else bfsLoop (interrupt.map Nat.pred) { next with session := session }
termination_by run.work
decreasing_by
  · simp only [BfsRun.work, popped, List.length_cons]; omega
  · have bound := bfsActors_work system expanded
    simp only [BfsRun.work, popped, List.length_cons] at bound ⊢
    omega

def execBfs (interrupt : Option ℕ) (session : Session) : BfsEnd × Session :=
  bfsLoop system interrupt
    ⟨session.discover session.running, [session.running], {session.running}⟩

end Bfs

/-! ## Depth-first search -/

/-- The states 0 to 3 of a frame. -/
inductive FrameState
  | enter | nextActor | choose | resume
deriving DecidableEq, Repr

structure DfsFrame where
  ssHash : HashType
  depth : ℤ
  state : FrameState := .enter
  actors : List ActorAction := []
  actorPos : ℕ := 0
  choices : List ℕ := []
  cardinality : ℤ := -1
  coverage : SearchCoverage := {}
deriving DecidableEq, Repr

def DfsFrame.advanceActor (frame : DfsFrame) : DfsFrame :=
  { frame with actorPos := frame.actorPos + 1, state := .nextActor }

/-- The frame as an executed outcome leaves it under the child it pushed: at its next alternative, or
past the actor. -/
def DfsFrame.suspended (frame : DfsFrame) (cardinality : ℤ) (choices : List ℕ) : DfsFrame :=
  let frame := { frame with cardinality := cardinality, choices := choices }
  if choices = [] then frame.advanceActor else { frame with state := .resume }

/-- State 3 of a frame, which the loop reaches with a later iteration. -/
def DfsFrame.resumed (frame : DfsFrame) : DfsFrame :=
  if frame.choices = [] then frame.advanceActor else { frame with state := .choose }

/-- How `do_dfs_iterative` ends: it returns 0 when `finished`. Reading past a vector of a frame is
undefined behaviour in the source. -/
inductive DfsEnd
  | finished | violation | interrupted | undefinedBehaviour
  | threw (message : String)
deriving DecidableEq, Repr

/-- The explicit stack, top frame first. -/
structure DfsRun where
  session : Session
  stack : List DfsFrame
  depthLimitReached : Bool := false

def Session.publish (session : Session) (frame : DfsFrame) (result : SearchCoverage) : Session :=
  { session with
    dfsCoverage := Function.update session.dfsCoverage frame.ssHash
      (Function.update (session.dfsCoverage frame.ssHash) frame.depth (some result))
    fullyCovered :=
      if result.depthCut then session.fullyCovered else insert frame.ssHash session.fullyCovered }

def mergeParent (result : SearchCoverage) : List DfsFrame → List DfsFrame
  | [] => []
  | parent :: rest => { parent with coverage := parent.coverage.merge result } :: rest

/-- Pop the top frame `frame` and hand its result to the frame below. -/
def DfsRun.finishFrame (run : DfsRun) (frame : DfsFrame) (rest : List DfsFrame)
    (result : SearchCoverage) (publish : Bool) : DfsRun where
  session := if publish then run.session.publish frame result else run.session
  stack := mergeParent result rest
  depthLimitReached := run.depthLimitReached || result.depthCut

section Dfs

variable (system : TransitionSystem)

/-- State 2 of a frame: execute an outcome of the current actor and push the state it commits. The
first outcome of an actor is drawn at random, the others are the alternatives found with it. -/
def dfsChoose (random : ℕ) (frame : DfsFrame) (actor : ActorAction) (preset : ℤ)
    (rest : List DfsFrame) (run : DfsRun) : Except (DfsEnd × DfsRun) DfsRun :=
  match searchActorChoice system .dfs random frame.ssHash actor preset frame.cardinality
      frame.choices with
  | .error message => .error (.threw message, run)
  | .ok (choice, cardinality, choices) =>
    let target := system.successor frame.ssHash actor choice
    let session := run.session.execute ⟨frame.ssHash, actor, choice⟩ target
    if system.propertyFailed target then .error (.violation, { run with session := session })
    else
      .ok { run with
        session := session
        stack := { ssHash := target, depth := frame.depth - 1 } ::
          frame.suspended cardinality choices :: rest }

/-- State 1 of a frame: finish it after the last actor, or start with the next one. -/
def dfsNextActor (random : ℕ) (frame : DfsFrame) (rest : List DfsFrame) (run : DfsRun) :
    Except (DfsEnd × DfsRun) DfsRun :=
  match frame.actors[frame.actorPos]? with
  | none => .ok (run.finishFrame frame rest frame.coverage true)
  | some actor =>
    dfsChoose system random { frame with choices := [], cardinality := -1, state := .choose }
      actor (-1) rest run

/-- State 0 of a frame: answer the query from the tables, or begin the enumeration. -/
def dfsEnter (random : ℕ) (frame : DfsFrame) (rest : List DfsFrame) (entered : DfsRun) :
    Except (DfsEnd × DfsRun) DfsRun :=
  let run := { entered with session := entered.session.discover frame.ssHash }
  if frame.ssHash ∈ run.session.fullyCovered then .ok (run.finishFrame frame rest {} false)
  else match run.session.dfsCoverage frame.ssHash frame.depth with
    | some outcome => .ok (run.finishFrame frame rest outcome false)
    | none =>
      if system.propertyFailed frame.ssHash then .error (.violation, run)
      else if system.enabledActorActions frame.ssHash = [] then
        .ok (run.finishFrame frame rest {} true)
      else if frame.depth ≤ 0 then .ok (run.finishFrame frame rest ⟨true⟩ true)
      else
        dfsNextActor system random { frame with
          actors := system.enabledActorActions frame.ssHash
          state := .nextActor
          actorPos := 0 } rest run

/-- One iteration of the loop on a stack with top frame `frame`. -/
def dfsIterate (random : ℕ) (frame : DfsFrame) (rest : List DfsFrame) (run : DfsRun) :
    Except (DfsEnd × DfsRun) DfsRun :=
  match frame.state with
  | .enter => dfsEnter system random frame rest run
  | .nextActor => dfsNextActor system random frame rest run
  | .choose =>
    match frame.actors[frame.actorPos]? with
    | none => .error (.undefinedBehaviour, run)
    | some actor =>
      if frame.cardinality < 0 then dfsChoose system random frame actor (-1) rest run
      else match frame.choices with
        | [] => .error (.undefinedBehaviour, run)
        | preset :: choices =>
          dfsChoose system random { frame with choices := choices } actor preset rest run
  | .resume => .ok { run with stack := frame.resumed :: rest }

/-- The loop draws one random number per iteration. It sees an interrupt at its head when the given
numbers run out. -/
def dfsLoop : List ℕ → DfsRun → DfsEnd × DfsRun
  | randoms, run =>
    match run.stack, randoms with
    | [], _ => (.finished, run)
    | _ :: _, [] => (.interrupted, run)
    | frame :: rest, random :: randoms =>
      match dfsIterate system random frame rest run with
      | .error stopped => stopped
      | .ok next => dfsLoop randoms next

def doDfsIterative (randoms : List ℕ) (initialSsHash : HashType) (initialDepth : ℤ)
    (session : Session) : DfsEnd × DfsRun :=
  dfsLoop system randoms
    { session := session, stack := [{ ssHash := initialSsHash, depth := initialDepth }] }

def execDfs (depth : ℤ) (randoms : List ℕ) (session : Session) : DfsEnd × DfsRun :=
  doDfsIterative system randoms session.running depth session

end Dfs

/-! ## Random walks -/

inductive RandEnd
  | violation | interrupted
deriving DecidableEq, Repr

section Rand

variable (system : TransitionSystem)

/-- A walk of at most `steps` transitions. The first random number of a step picks the actor, the
second the outcome. An error is a violating transition. -/
def randWalk : ℕ → (ℕ → ℕ × ℕ) → HashType → Session → Except Session Session
  | 0, _, _, session => .ok session
  | steps + 1, randoms, source, session =>
    let actors := system.enabledActorActions source
    match actors[(randoms 0).1 % actors.length]? with
    | none => .ok session
    | some actor =>
      let choice := (handleAutoChoice .rand (randoms 0).2 (system.nChoose source actor) 0).toNat
      let target := system.successor source actor choice
      let session := (session.execute ⟨source, actor, choice⟩ target).discover target
      if system.propertyFailed target then .error session
      else randWalk steps (fun step => randoms (step + 1)) target session

/-- Walks from the start state until one finds a violation or an interrupt is seen after the last of
them. The interrupted search clears `state_set` and keeps the other tables. -/
def randLoop (depth : ℤ) (start : HashType) :
    List (ℕ → ℕ × ℕ) → Session → RandEnd × Session
  | [], session => (.interrupted, { session with stateSet := ∅ })
  | randoms :: walks, session =>
    match randWalk system depth.toNat randoms start session with
    | .error session => (.violation, session)
    | .ok session => randLoop depth start walks session

def execRand (depth : ℤ) (walks : List (ℕ → ℕ × ℕ)) (session : Session) : RandEnd × Session :=
  randLoop system depth session.running walks session

end Rand

/-! ## Sequences of commands -/

inductive Command
  | bfs (interrupt : Option ℕ)
  | dfs (depth : ℤ) (randoms : List ℕ)
  | rand (depth : ℤ) (walks : List (ℕ → ℕ × ℕ))
  | load (hash : HashType)

/-- The session a command leaves behind. Loading a state touches none of the tables. -/
def Command.step (system : TransitionSystem) (session : Session) : Command → Session
  | .bfs interrupt => (execBfs system interrupt session).2
  | .dfs depth randoms => (execDfs system depth randoms session).2.session
  | .rand depth walks => (execRand system depth walks session).2
  | .load hash => { session with running := hash }

def runCommands (system : TransitionSystem) (commands : List Command) (session : Session) : Session :=
  commands.foldl (Command.step system) session

end DetSim.Scheduler
