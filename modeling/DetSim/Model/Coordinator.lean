import DetSim.Model.Enumeration

/-! # The coordinator of a parallel search

`run_parallel` leases states to worker processes and commits what they report. It checks every edge of
a lease when it arrives, and the set of edges as a whole when the worker says it is done. A lease whose
worker is lost is requeued until the retries of its state are used up. The saved states are behind a
store; what the environment does next, a message, a deadline, a closed stream, is an event. Every
exception of the source ends the search, so a step returns the next state or the failure.
-/

namespace DetSim.Search

open Kernel (Bytes)
open Scheduler (ActorAction TransitionAction)

/-- Why a search fails: a requirement of the coordinator, a worker that reported an exception, the
frontier, the retry budget of a state or of a worker's startup, or something the host did. -/
inductive Failure
  | requirement (message : String)
  | worker (reason : Bytes)
  | frontier (error : FrontierError)
  | retryBudget (reason : Bytes)
  | host (reason : String)
deriving DecidableEq, Repr

def require (condition : Prop) [Decidable condition] (message : String) : Except Failure Unit :=
  if condition then .ok () else .error (.requirement message)

abbrev EdgeKey := StateKey × ActorAction × ℤ

/-- The edges accepted so far, over all leases: target, result code and cardinality. -/
abbrev VerifiedEdges := Finmap fun _ : EdgeKey => StateKey × TransitionResultCode × ℕ

/-- The part of a worker's record that belongs to its current lease. -/
structure Job where
  ticket : Ticket
  actors : Finset ActorAction
  choices : Finmap (fun _ : ActorAction => Finset ℤ) := ∅
  choiceCounts : Finmap (fun _ : ActorAction => ℕ) := ∅
  successors : List StateKey := []
  violation : Option StateKey := none
  sourceBudget : ℤ
  sourceViolation : Bool

/-- The budget is not part of a saved state, so a loaded one has the initial value. -/
def kInitialModelBudget : ℤ := 5

def Job.create (ticket : Ticket) (source : Source) : Job where
  ticket := ticket
  actors := source.actors.toFinset
  sourceBudget := kInitialModelBudget
  sourceViolation := source.propertyFailed

/-- What a message of a leased worker leads to. -/
inductive Admission
  | edge (job : Job) (verified : VerifiedEdges)
  | violation (state : StateKey)
  | commit (expansion : Expansion)

namespace Job

/-- The record of an edge that passed all checks. -/
def record (job : Job) (edge : Edge) : Job :=
  { job with
    choiceCounts := job.choiceCounts.insert edge.actor edge.choiceCount
    choices := job.choices.insert edge.actor (insert edge.choice ((job.choices.lookup edge.actor).getD ∅))
    successors := job.successors ++ [edge.target]
    violation := if edge.propertyViolation then some edge.target else job.violation }

end Job

namespace Edge

def key (edge : Edge) : EdgeKey := (edge.source, edge.actor, edge.choice)

def result (edge : Edge) : StateKey × TransitionResultCode × ℕ := (edge.target, edge.resultCode, edge.choiceCount)

end Edge

namespace Job

/-- The checks on one edge, in the order of the source. `importBundle` answers whether the imported
target fails its properties. -/
def admitEdge (importBundle : Bundle → Except Failure Bool) (job : Job) (verified : VerifiedEdges) (edge : Edge) :
    Except Failure (Job × VerifiedEdges) := do
  require (job.violation = none) "Worker emitted edges after property violation"
  require (edge.leaseId = job.ticket.leaseId ∧ edge.source = job.ticket.state ∧ job.ticket.mayExpand)
    "Worker edge source/lease mismatch"
  require (edge.actor ∈ job.actors) "Worker edge actor is not enabled at source"
  require ((edge.actor.action = .timeout ∧ edge.choice = -2) ∨
    (edge.actor.action = .normal ∧ -1 ≤ edge.choice)) "Invalid worker edge choice"
  require (edge.resultCode.toNat ≤ TransitionResultCode.ckptStop.toNat) "Invalid/discarded worker edge result"
  require (edge.target ≠ 0 ∧ edge.target = edge.bundle.systemKey) "Worker edge bundle identity mismatch"
  require ((edge.choice < 0 ∧ edge.choiceCount = 0) ∨
    (edge.actor.action = .normal ∧ 0 ≤ edge.choice ∧ edge.choice < edge.choiceCount))
    "Worker choice outside declared cardinality"
  require ((job.choiceCounts.lookup edge.actor).getD edge.choiceCount = edge.choiceCount)
    "Worker actor cardinality changed across edges"
  require (edge.choice ∉ (job.choices.lookup edge.actor).getD ∅) "Duplicate worker action/choice response"
  require ((verified.lookup edge.key).getD edge.result = edge.result)
    "Nondeterministic transition: same source/action/choice produced a different result"
  let failed ← importBundle edge.bundle
  require (edge.propertyViolation = failed) "Worker property result differs from saved state"
  return (job.record edge, verified.insert edge.key edge.result)

/-- The choices received for an actor are the single fixed one. -/
def fixedChoice (job : Job) (actor : ActorAction) : Prop :=
  let choices := (job.choices.lookup actor).getD ∅
  job.choiceCounts.lookup actor = some 0 → choices.card = 1 ∧ choices.min.untopD 0 < 0

instance (job : Job) (actor : ActorAction) : Decidable (job.fixedChoice actor) :=
  inferInstanceAs (Decidable (_ → _))

/-- As many choices were received for an actor as it declared, from the first to the last. -/
def configuredChoices (job : Job) (actor : ActorAction) : Prop :=
  let choices := (job.choices.lookup actor).getD ∅
  let count := (job.choiceCounts.lookup actor).getD 0
  count ≠ 0 → choices.card = count ∧ choices.min.untopD 0 = 0 ∧ choices.max.unbotD 0 + 1 = count

instance (job : Job) (actor : ActorAction) : Decidable (job.configuredChoices actor) :=
  inferInstanceAs (Decidable (_ → _))

/-- The checks on a completion receipt. The source looks at one actor after the other and so reports the
first that is incomplete; here all fixed choices are looked at first. -/
def admitDone (job : Job) (done : Done) : Except Failure Admission := do
  require (done.leaseId = job.ticket.leaseId ∧ done.source = job.ticket.state ∧
    done.emitted = job.successors.length) "Invalid worker completion receipt"
  if done.kind = .violation then
    require (job.violation ≠ none ∨ (job.sourceViolation ∧ done.emitted = 0))
      "Worker violation receipt lacks saved violation"
    return .violation (job.violation.getD job.ticket.state)
  require (job.violation = none ∧ ¬job.sourceViolation) "Worker completion omitted property violation"
  if done.kind = .expanded then
    require (job.ticket.mayExpand ∧ 0 < job.sourceBudget ∧ job.actors ≠ ∅ ∧
      job.choices.keys.card = job.actors.card) "Incomplete worker actor expansion"
    require (∀ actor ∈ job.choices.keys, job.fixedChoice actor) "Invalid fixed worker choice set"
    require (∀ actor ∈ job.choices.keys, job.configuredChoices actor) "Incomplete worker configured choice set"
    return .commit { kind := .expanded, successors := job.successors }
  require (done.emitted = 0) "Non-expansion completion contains edges"
  match done.kind with
  | .terminal =>
    require (job.actors = ∅) "False terminal completion"
    return .commit { kind := .terminal }
  | .depthCut =>
    require (¬job.ticket.mayExpand ∧ job.actors ≠ ∅ ∧ 0 < job.sourceBudget) "False depth cutoff"
    return .commit { kind := .depthCut }
  | .modelBudget =>
    require (job.actors ≠ ∅ ∧ job.sourceBudget ≤ 0) "False model budget cutoff"
    return .commit { kind := .modelBudget, reason := "Saved model budget exhausted" }
  | _ => .error (.requirement "Invalid worker completion kind")

/-- A message of a worker that holds a lease. -/
def receive (importBundle : Bundle → Except Failure Bool) (job : Job) (verified : VerifiedEdges) :
    Message → Except Failure Admission
  | .hello _ => .error (.requirement "Worker startup model/compatibility/phase mismatch")
  | .edge edge => do
    let (job, verified) ← job.admitEdge importBundle verified edge
    return if edge.propertyViolation then .violation edge.target else .edge job verified
  | .error error => do
    require (error.leaseId = job.ticket.leaseId ∧ error.source = job.ticket.state) "Worker error lease mismatch"
    .error (.worker error.reason)
  | .done done => job.admitDone done
  | .task _ | .shutdown => .error (.requirement "Invalid worker completion receipt")

/-- How far a stream of messages takes a lease. -/
inductive Outcome
  | waiting (job : Job) (verified : VerifiedEdges)
  | violation (state : StateKey)
  | commit (expansion : Expansion)
  | failed (failure : Failure)

/-- The messages of one lease, until the lease ends. -/
def receiveAll (importBundle : Bundle → Except Failure Bool) (job : Job) (verified : VerifiedEdges) :
    List Message → Outcome
  | [] => .waiting job verified
  | message :: rest =>
    match job.receive importBundle verified message with
    | .error failure => .failed failure
    | .ok (.edge job verified) => job.receiveAll importBundle verified rest
    | .ok (.violation state) => .violation state
    | .ok (.commit expansion) => .commit expansion

end Job

/-! ## The search loop -/

/-- The options the search loop reads. `hasPriority` says whether a priority callback is given, and
`shared` whether states live in a pool the workers share. -/
structure Options where
  shared : Bool := true
  rootsLocality : Bool := false
  workers : ℕ := 2
  depth : UInt64 := 1
  policy : Policy := .dfs
  hasPriority : Bool := false
  retries : ℕ := 2
deriving DecidableEq, Repr

/-- The saved states as the coordinator reads them: load one with its enabled actions, import a received
one and learn whether it fails its properties, and compare the announcement of a worker. -/
structure Store where
  load : StateKey → Except Failure Source
  importBundle : Bundle → Except Failure Bool
  compatible : Hello → Bool

/-- A worker as the coordinator sees it. An open channel holds what the process at the other end will
still send. -/
structure Worker where
  channel : Option (List Message) := none
  hello : Bool := false
  job : Option Job := none
  startupFailures : ℕ := 0

structure Coordinator where
  frontier : Frontier
  workers : WorkerId → Worker := fun _ => {}
  failures : StateKey → ℕ := fun _ => 0
  verified : VerifiedEdges := ∅
  violation : Option StateKey := none
  retries : ℕ := 0

/-- What happens next. A spawn fails or opens a channel. A dispatch comes with the answers of the
callbacks and with what the worker would do for each source. A worker is lost by a deadline, a closed
or broken stream, or a failed send. An interrupt, or a host operation of the coordinator that fails,
aborts the search. -/
inductive CoordinatorEvent
  | spawn (worker : WorkerId) (started : Except String Hello)
  | dispatch (worker : WorkerId) (priority : Priority) (scorer : Scorer) (attempt : StateKey → Attempt)
  | message (worker : WorkerId)
  | lost (worker : WorkerId) (reason : String)
  | abort (reason : String)

namespace Coordinator

/-- A call to the frontier; an exception of the frontier ends the search. -/
def callFrontier {α : Type} (c : Coordinator) (answer : Except FrontierError α × Frontier) :
    Except Failure (α × Coordinator) :=
  match answer with
  | (.error error, _) => .error (.frontier error)
  | (.ok value, frontier) => .ok (value, { c with frontier := frontier })

def setWorker (c : Coordinator) (id : WorkerId) (worker : Worker) : Coordinator :=
  { c with workers := Function.update c.workers id worker }

/-- `lost`: count the failure, return the lease or give up, and drop the process and its channel. -/
def lost (options : Options) (c : Coordinator) (id : WorkerId) (reason : String) : Except Failure Coordinator :=
  let worker := c.workers id
  match worker.job with
  | some job => do
    let count := c.failures job.ticket.state + 1
    if options.retries < count then
      let _ ← c.callFrontier (c.frontier.commit job.ticket { kind := .failure, reason := reason })
      .error (.retryBudget (encodeText reason))
    else
      let (_, next) ← c.callFrontier (c.frontier.workerLost id)
      return { next.setWorker id { worker with channel := none, job := none } with
        failures := Function.update c.failures job.ticket.state count
        retries := c.retries + 1 }
  | none =>
    let count := worker.startupFailures + 1
    if options.retries < count then .error (.retryBudget (encodeText reason))
    else .ok { c.setWorker id { worker with channel := none, startupFailures := count } with retries := c.retries + 1 }

/-- The process was started, or its start failed. Only a worker without a channel is started. -/
def spawn (options : Options) (c : Coordinator) (id : WorkerId) (started : Except String Hello) :
    Except Failure Coordinator :=
  let worker := c.workers id
  match worker.channel, started with
  | some _, _ => .ok c
  | none, .error reason => c.lost options id reason
  | none, .ok hello => .ok (c.setWorker id { worker with channel := some [.hello hello], hello := false })

/-- The completion the coordinator commits itself when a shared state needs no execution. -/
def localCompletion (c : Coordinator) (ticket : Ticket) : EnumerationKind → Except Failure Coordinator
  | .violation => .ok { c with violation := some ticket.state }
  | .terminal => do
    let (_, c) ← c.callFrontier (c.frontier.commit ticket { kind := .terminal })
    return c
  | .depthCut => do
    let (_, c) ← c.callFrontier (c.frontier.commit ticket { kind := .depthCut })
    return c
  | .modelBudget => do
    let (_, c) ← c.callFrontier
      (c.frontier.commit ticket { kind := .modelBudget, reason := "Saved model budget exhausted" })
    return c
  | .expanded => .error (.requirement "Invalid local completion kind")

/-- Lease a state to an idle worker and send it the task. -/
def dispatch (store : Store) (options : Options) (c : Coordinator) (id : WorkerId) (priority : Priority)
    (scorer : Scorer) (attempt : StateKey → Attempt) : Except Failure Coordinator :=
  let worker := c.workers id
  match worker.channel, worker.hello, worker.job with
  | some stream, true, none => do
    let (selected, c) ← c.callFrontier (if options.rootsLocality then
      c.frontier.leaseScored id priority (some scorer) 32 else c.frontier.lease id priority)
    match selected with
    | none => return c
    | some ticket =>
      let source ← store.load ticket.state
      let kind := classifyEnumeration source ticket.mayExpand
      if options.shared ∧ kind ≠ .expanded then c.localCompletion ticket kind
      else return c.setWorker id { worker with
        channel := some (stream ++ workerReplies (attempt ticket.state) ticket source)
        job := some (Job.create ticket source) }
  | _, _, _ => .ok c

/-- Bytes as text. -/
def decodeText (bytes : Bytes) : String := .ofList (bytes.map fun byte => Char.ofNat byte.toNat)

/-- Handle one message of a worker whose channel now holds `rest`. -/
def handle (store : Store) (options : Options) (c : Coordinator) (id : WorkerId) (worker : Worker)
    (message : Message) : Except Failure Coordinator :=
  match message, worker.job with
  | .hello hello, job => do
    require (worker.hello = false ∧ job.isNone ∧ store.compatible hello)
      "Worker startup model/compatibility/phase mismatch"
    return c.setWorker id { worker with hello := true }
  | .error error, none => do
    require (error.leaseId = 0 ∧ error.source = 0) "Idle worker error has stale lease"
    (c.setWorker id worker).lost options id (decodeText error.reason)
  | _, none => .error (.requirement "Worker response has no active lease")
  | message, some job => do
    require worker.hello "Worker response has no active lease"
    match ← job.receive store.importBundle c.verified message with
    | .edge job verified => return { c.setWorker id { worker with job := some job } with verified := verified }
    | .violation state => return { c.setWorker id worker with violation := some state }
    | .commit expansion =>
      let (_, c) ← c.callFrontier (c.frontier.commit job.ticket expansion)
      return c.setWorker id { worker with job := none }

/-- The next message of a worker arrives. -/
def receive (store : Store) (options : Options) (c : Coordinator) (id : WorkerId) : Except Failure Coordinator :=
  let worker := c.workers id
  match worker.channel with
  | some (message :: rest) => c.handle store options id { worker with channel := some rest } message
  | _ => .ok c

/-- One event. Once a violation is known the loop is left and nothing more is handled. -/
def step (store : Store) (options : Options) (c : Coordinator) (event : CoordinatorEvent) :
    Except Failure Coordinator :=
  if c.violation.isSome then .ok c
  else match event with
    | .spawn id started => c.spawn options id started
    | .dispatch id priority scorer attempt => c.dispatch store options id priority scorer attempt
    | .message id => c.receive store options id
    | .lost id reason =>
      -- only a worker with a channel is watched
      if (c.workers id).channel.isSome then c.lost options id reason else .ok c
    | .abort reason => .error (.host reason)

def run (store : Store) (options : Options) (c : Coordinator) (events : List CoordinatorEvent) :
    Except Failure Coordinator :=
  events.foldlM (step store options) c

/-- The checks before the loop, and the admission of the root. -/
def start (options : Options) (root : StateKey) : Except Failure Coordinator := do
  require (!options.rootsLocality ∨ options.policy = .bfs) "Root worker locality requires BFS"
  require (0 < options.workers ∧ options.workers ≤ 32) "Invalid parallel worker count or timeout"
  require (root ≠ 0) "Invalid parallel root identity"
  match Frontier.create options.depth options.policy options.hasPriority uint64Max with
  | .error error => .error (.frontier error)
  | .ok frontier =>
    let (_, c) ← ({ frontier := frontier } : Coordinator).callFrontier (frontier.admitState root 0)
    return c

/-- The leases of the other workers are returned when the loop is left with a violation. -/
def finish (options : Options) (c : Coordinator) : Except Failure Coordinator :=
  if c.violation.isSome then
    (List.range options.workers).foldlM (fun c index => do
      let (_, c) ← c.callFrontier (c.frontier.workerLost (UInt64.ofNat (index + 1)))
      return c) c
  else .ok c

end Coordinator

inductive ParallelStatus
  | complete | bounded | violation | failed
deriving DecidableEq, Repr

structure Report where
  status : ParallelStatus
  violationState : Option StateKey := none
deriving DecidableEq, Repr

/-- The report of a finished loop; `none` while the search goes on. -/
def Coordinator.report : Except Failure Coordinator → Option Report
  | .error _ => some { status := .failed }
  | .ok c =>
    match c.violation with
    | some state => some { status := .violation, violationState := some state }
    | none =>
      match c.frontier.status with
      | .running => none
      | .complete => some { status := .complete }
      | .bounded => some { status := .bounded }
      | .failed => some { status := .failed }

/-- `run_parallel` under the given events, before it reports. -/
def Coordinator.search (store : Store) (options : Options) (root : StateKey) (events : List CoordinatorEvent) :
    Except Failure Coordinator := do
  let c ← Coordinator.start options root
  let c ← c.run store options events
  c.finish options

def runParallel (store : Store) (options : Options) (root : StateKey) (events : List CoordinatorEvent) :
    Option Report :=
  Coordinator.report (Coordinator.search store options root events)

end DetSim.Search
