import DetSim.Model.Debugger
import DetSim.Model.Scheduler

/-! # Transitions and property checks

`state_transition` restores a saved state, lets one actor run, captures the result as a new state,
checks the configured properties on it and commits it. What the actor does to the nodes is a
parameter, the engine. The user plugin is one global object: its check hook runs after the assertions
and reads guest memory through the tracer, and it keeps data of its own from one call to the next.
-/

namespace DetSim.Tracer

open Expression Scheduler

/-- The shadow data of one tracee as the plugin archives it. -/
abbrev Blob := List UInt8

structure PendingSyscall where
  waiting : Bool
  deadline : Bool
  ioReady : Bool
deriving DecidableEq, Repr

structure ThreadState where
  alive : Bool
  pending : Option PendingSyscall := none
deriving DecidableEq, Repr

structure TraceeState where
  image : Image
  dead : Bool := false
  threads : List ThreadState := []
  currentThread : ℕ := 0

/-- A saved system state, with its verdict and the archived data of the plugin. -/
structure SysState where
  child : ℕ → TraceeState
  propertyFailed : Bool := false
  userState : ℕ → Blob := fun _ => []

def SysState.images (state : SysState) (node : ℕ) : Image := (state.child node).image

/-- The answers to the reads `eval<T>(expression, node)`, without a value where the read fails. A read
of a snapshot may throw. -/
abbrev Answers := String → ℕ → Except String (Option Int64)

/-- The hooks of a user plugin with global data of type `σ`. The check hook is given the answers to its
reads, and it may throw as well. -/
structure Plugin (σ : Type) where
  check : Answers → σ → Except String (ℤ × σ)
  save : ℕ → σ → Blob
  load : ℕ → Blob → σ → σ

/-- What the stopped processes show beside their images: what a name stands for, and their memory. -/
structure Stopped where
  resolve : ℕ → String → Option EvalResult
  memory : ℕ → Memory

/-- What is fixed before a run: the nodes, the assertions, the symbol service and the grammar, what the
stopped processes show, and the plugin if one is configured. -/
structure Config (σ : Type) where
  np : ℕ
  assertions : List String
  dwarf : Dwarf
  parse : String → Option ExprNode
  requireSymbols : ℕ → Except String Unit
  requireSymbolAddress : ℕ → UInt64 → Except String Unit
  stopped : (ℕ → TraceeState) → Stopped
  plugin : Option (Plugin σ)

/-- What the acting thread does to the nodes, up to the capture. -/
abbrev Engine := SysState → ℕ → ℕ → TransitionAction → ℕ → Except String (ℕ → TraceeState)

/-- The global state of the tracer: the running state, and the data of the plugin. -/
structure PtmcState (σ : Type) where
  running : SysState
  plugin : σ

variable {σ : Type}

/-! ## Assertions -/

/-- The colon form `tracee0:expr` of a leading node qualifier is rewritten to `tracee0(expr)`. -/
def normalizeNodeQualifier (np : ℕ) (expression : String) : Except String String :=
  let text := expression.toList
  let blanks := text.takeWhile Char.isWhitespace
  let rest := text.dropWhile Char.isWhitespace
  if rest.take 6 ≠ "tracee".toList then .ok expression
  else
    let digits := (rest.drop 6).takeWhile Char.isDigit
    match digits, (rest.drop 6).dropWhile Char.isDigit with
    | _ :: _, ':' :: operand =>
      let qualifier := Nat.ofDigitChars 10 digits 0
      if np ≤ qualifier then
        .error ("Observation node " ++ toString qualifier ++ " is outside this fixed-NP build (Nodes " ++
          toString np ++ "); every node of a run executes the same target")
      else .ok (String.ofList (blanks ++ "tracee".toList ++ digits ++ ['('] ++ operand ++ [')']))
    | _, _ => .ok expression

namespace Config

variable (config : Config σ)

/-- The observation of the saved images of a state. -/
def view (images : ℕ → Image) : Observation where
  processCount := config.np
  requireSymbols := config.requireSymbols
  requireSymbolAddress := config.requireSymbolAddress
  read := images

/-- `StateView::evaluate` on the images of a state. -/
def evaluate (images : ℕ → Image) (node : ℕ) (expression : String) : Except String Int64 :=
  if config.np ≤ node then .error "Observation process index"
  else do
    let normalized ← normalizeNodeQualifier config.np expression
    evaluateObservation config.dwarf (config.view images) config.parse node normalized

/-- A read of the hook, in the stopped processes and with the snapshots there are. A node that does not
exist stands for the current one. -/
def evalInternal (snapshot : ℕ → Option Image) (child : ℕ → TraceeState) (current : ℕ) : Answers :=
  fun expression node =>
    match config.parse expression with
    | none => .ok none
    | some ast =>
      let stopped := config.stopped child
      (evalLive config.dwarf stopped.resolve config.np (if node < config.np then node else current) ast
        ⟨snapshot, stopped.memory⟩).map fun outcome => outcome.1.map EvalResult.asValue

/-- The check hook with the answers to its reads. -/
def checkState (answers : Answers) (data : σ) : Except String (Bool × σ) :=
  match config.plugin with
  | none => .ok (false, data)
  | some plugin => (plugin.check answers data).map fun outcome => (outcome.1 ≠ 0, outcome.2)

/-- Without assertions nothing is checked. Otherwise every assertion is evaluated at the acting node
on the images of the new state; the hook runs when none is zero. -/
def checkAssertions (answers : Answers) (data : σ) (state : SysState) (actor : ℕ) :
    Except String (Bool × σ) :=
  if config.assertions = [] then .ok (false, data)
  else do
    let values ← config.assertions.mapM (config.evaluate state.images actor)
    if values.any (· = 0) then return (true, data)
    else config.checkState answers data

end Config

/-! ## Transitions -/

/-- The admission of a timeout action. -/
def timeoutActionClock (np : ℕ) (source : SysState) (process thread : ℕ) : Except String Unit :=
  let child := source.child process
  if np ≤ process then .error "Timeout process index out of range"
  else if child.dead ∨ source.propertyFailed then .error "actor belongs to a terminal state"
  else match child.threads[thread]? with
    | none => .error "thread index out of range"
    | some actor =>
      match actor.pending with
      | some pending =>
        if actor.alive ∧ pending.waiting ∧ pending.deadline then
          if pending.ioReady then .error "I/O is already ready" else .ok ()
        else .error "actor requires a waiting syscall with a finite deadline"
      | none => .error "actor requires a waiting syscall with a finite deadline"

def runnable (thread : ThreadState) : Bool :=
  thread.alive && !(thread.pending.any (·.waiting))

/-- The checks before a transition touches anything. -/
def transitionGuard (np : ℕ) (source : SysState) (process : ℕ) (requested : Option ℕ)
    (action : TransitionAction) : Except String Unit :=
  let child := source.child process
  if np ≤ process then .error "Transition process index out of range"
  else do
    if action = .timeout then
      timeoutActionClock np source process (requested.getD child.currentThread)
    if child.dead then
      .error "Cannot execute a terminated process; load a predecessor state first"
    else if source.propertyFailed then
      .error "Cannot execute a terminal property violation; load a predecessor state first"
    else match requested with
      | none => .ok ()
      | some thread =>
        match child.threads[thread]? with
        | none => .error "Transition thread index out of range"
        | some actor =>
          if action = .normal ∧ !runnable actor then .error "Transition thread is not runnable"
          else .ok ()

/-- The action a thread offers: it runs, or its unfinished syscall times out. -/
def threadAction (np : ℕ) (source : SysState) (process : ℕ) (actor : ThreadState) (thread : ℕ) :
    Option ActorAction :=
  if runnable actor then some ⟨process, thread, .normal⟩
  else if actor.alive && actor.pending.any (·.deadline) then
    match timeoutActionClock np source process thread with
    | .ok () => some ⟨process, thread, .timeout⟩
    | .error _ => none
  else none

/-- The actions enabled in a saved state, by process and thread. -/
def enabledActorActions (np : ℕ) (source : SysState) : List ActorAction :=
  if source.propertyFailed then []
  else (List.range np).flatMap fun process =>
    if (source.child process).dead then []
    else ((source.child process).threads.zipIdx).filterMap fun entry =>
      threadAction np source process entry.1 entry.2

section Transition

variable (config : Config σ) (engine : Engine)

/-- Restore, execute, capture, check and commit. The capture copies the archived plugin data of the
source. The hook runs while the running state is still the restored source, so that its reads are
answered by the snapshots of the source. -/
def stateTransition (source : SysState) (process : ℕ) (requested : Option ℕ) (action : TransitionAction)
    (choice : ℕ) (tracer : PtmcState σ) : Except String SysState × PtmcState σ :=
  match transitionGuard config.np source process requested action with
  | .error message => (.error message, tracer)
  | .ok () =>
    let restored := { tracer with running := source }
    let thread := requested.getD (source.child process).currentThread
    match engine source process thread action choice with
    | .error message => (.error message, restored)
    | .ok child =>
      let captured := { source with child := child }
      let answers := config.evalInternal (fun node => some (restored.running.images node)) child process
      match config.checkAssertions answers restored.plugin captured process with
      | .error message => (.error message, restored)
      | .ok (violation, data) =>
        let newState := { captured with propertyFailed := violation }
        (.ok newState, ⟨newState, data⟩)

/-- The first state is checked at node 0. The hook reads the stopped processes themselves, since there is
no running state yet. -/
def stateInitialization (child : ℕ → TraceeState) (data : σ) : Except String (SysState × PtmcState σ) :=
  let firstState : SysState := { child := child }
  match config.checkAssertions (config.evalInternal (fun _ => none) child 0) data firstState 0 with
  | .error message => .error message
  | .ok (violation, data) =>
    if violation then .error "Initial state violates configured properties"
    else .ok (firstState, ⟨firstState, data⟩)

/-- Loading a state makes it the running one. -/
def load (state : SysState) (tracer : PtmcState σ) : PtmcState σ := { tracer with running := state }

end Transition

/-! ## Runs -/

/-- A committed state, with the data the check that committed it left in the plugin. -/
structure Commit (σ : Type) where
  state : SysState
  data : σ

/-- A search is a sequence of transitions from saved states, an operator also loads them. States are
named by their position in the list of commits. -/
inductive Action
  | transition (source process : ℕ) (requested : Option ℕ) (action : TransitionAction) (choice : ℕ)
  | load (state : ℕ)
deriving DecidableEq, Repr

/-- The tracer together with the states it committed, oldest first. -/
structure Machine (σ : Type) where
  tracer : PtmcState σ
  commits : List (Commit σ)

def Machine.step (config : Config σ) (engine : Engine) (machine : Machine σ) : Action → Machine σ
  | .transition source process requested action choice =>
    match machine.commits[source]? with
    | none => machine
    | some commit =>
      match stateTransition config engine commit.state process requested action choice machine.tracer with
      | (.error _, tracer) => { machine with tracer := tracer }
      | (.ok newState, tracer) => ⟨tracer, machine.commits ++ [⟨newState, tracer.plugin⟩]⟩
  | .load state =>
    match machine.commits[state]? with
    | none => machine
    | some commit => { machine with tracer := load commit.state machine.tracer }

def Machine.run (config : Config σ) (engine : Engine) (actions : List Action) (machine : Machine σ) :
    Machine σ :=
  actions.foldl (Machine.step config engine) machine

/-- The machine after a successful initialization. -/
def Machine.start? (config : Config σ) (child : ℕ → TraceeState) (data : σ) : Option (Machine σ) :=
  match stateInitialization config child data with
  | .error _ => none
  | .ok (firstState, tracer) => some ⟨tracer, [⟨firstState, tracer.plugin⟩]⟩

end DetSim.Tracer
