import DetSim.ToMathlib.TreeMapSum

/-! # The search frontier

The coordinator of a search owns one frontier: a table of the states admitted so far, each with the
smallest depth known for it, and four redundant indexes that make dispatch cheap. Every operation is
a function from the frontier before the call to the answer and the frontier after it; a call that
throws also returns the frontier it leaves behind. Depths, sequence numbers and lease numbers are the
64-bit integers of the source. Allocation failures are outside the model, so `poisoned` is only read.
-/

namespace DetSim.Search

open Std

abbrev StateKey := UInt64
abbrev WorkerId := UInt64

inductive Policy
  | dfs | bfs | priority
deriving DecidableEq, Repr

inductive NodePhase
  | pending | inflight | expanded | terminal | depthCut | modelBudget | failure
deriving DecidableEq, Repr

inductive ResultKind
  | expanded | terminal | depthCut | modelBudget | failure
deriving DecidableEq, Repr

inductive Status
  | running | complete | bounded | failed
deriving DecidableEq, Repr

/-- The capability a worker receives with a state. Without `mayExpand` the worker only inspects the
enabled actions and executes no transition. -/
structure Ticket where
  state : StateKey
  worker : WorkerId
  leaseId : UInt64
  depth : UInt64
  mayExpand : Bool
deriving DecidableEq, Repr

/-- What a worker reports about a leased state. -/
structure Expansion where
  kind : ResultKind := .expanded
  successors : List StateKey := []
  reason : String := ""
deriving DecidableEq, Repr

structure Node where
  depth : UInt64
  phase : NodePhase
  sequence : UInt64
  ticket : Option Ticket
  successors : List StateKey
  reason : String
deriving DecidableEq, Repr

/-- Event counts; no operation reads them back. -/
structure Counters where
  admitted : ℕ := 0
  duplicates : ℕ := 0
  improvements : ℕ := 0
  leased : ℕ := 0
  committed : ℕ := 0
  requeued : ℕ := 0
  dispatchCandidates : ℕ := 0
deriving DecidableEq, Repr

/-- The exceptions of the source by class and text. `undefinedBehaviour` stands for dereferencing
the end of a map, which the source never guards against. -/
inductive FrontierError
  | invalidArgument (message : String)
  | lengthError (message : String)
  | overflowError (message : String)
  | runtimeError (message : String)
  | callback (message : String)
  | undefinedBehaviour
deriving DecidableEq, Repr

/-- `UINT64_MAX`. -/
def uint64Max : UInt64 := 0xFFFFFFFFFFFFFFFF

theorem toNat_add_one_of_ne_max {value : UInt64} (available : value ≠ uint64Max) :
    (value + 1).toNat = value.toNat + 1 := by
  have bound := value.toNat_lt
  have notMax : value.toNat ≠ uint64Max.toNat := fun same => available (UInt64.toNat_inj.mp same)
  rw [UInt64.toNat_add]
  simp only [uint64Max, UInt64.reduceToNat] at notMax ⊢
  omega

/-- Lexicographic order of `(depth, sequence)`, the key order of `bfs_pending_`. -/
def compareLayer : UInt64 × UInt64 → UInt64 × UInt64 → Ordering :=
  compareLex (compareOn Prod.fst) (compareOn Prod.snd)

instance : TransCmp compareLayer := inferInstanceAs (TransCmp (compareLex _ _))

instance : LawfulEqCmp compareLayer where
  eq_of_compare := by
    rintro ⟨depth, sequence⟩ ⟨otherDepth, otherSequence⟩ equal
    simpa [compareLayer, compareLex, compareOn] using equal

/-- The dispatch indexes over the node table. -/
structure Indexes where
  pending : ExtTreeMap UInt64 StateKey
  bfsPending : ExtTreeMap (UInt64 × UInt64) StateKey compareLayer
  activeLayers : ExtTreeMap UInt64 ℕ
  phaseCounts : NodePhase → ℕ

structure Frontier where
  limit : UInt64
  nextSequence : UInt64 := 0
  nextLease : UInt64 := 0
  policy : Policy
  maxStates : UInt64
  poisoned : Bool := false
  nodes : ExtTreeMap StateKey Node := ∅
  indexes : Indexes := ⟨∅, ∅, ∅, fun _ => 0⟩
  counters : Counters := {}

/-- The priority callback as it answers during one call; a callback may also throw. -/
abbrev Priority := StateKey → UInt64 → Except String ℤ

/-- The locality scorer as it answers during one call. -/
abbrev Scorer := StateKey → Except String ℤ

namespace Frontier

/-- The constructor. Policies outside the enumeration cannot be built here. -/
def create (depthLimit : UInt64) (policy : Policy) (hasPriority : Bool) (maxStates : UInt64) :
    Except FrontierError Frontier :=
  if (policy == .priority) != hasPriority then
    .error (.invalidArgument "priority callback required only for priority policy")
  else if maxStates = 0 then
    .error (.invalidArgument "frontier capacity must be positive")
  else
    .ok { limit := depthLimit, policy := policy, maxStates := maxStates }

def poisonedError : FrontierError := .runtimeError "frontier poisoned by allocation failure"

end Frontier

/-- Pending and in-flight nodes keep their layer open. -/
def NodePhase.active : NodePhase → Bool
  | .pending | .inflight => true
  | _ => false

namespace Indexes

def indexAdd (indexes : Indexes) (policy : Policy) (key : StateKey) (node : Node) : Indexes where
  phaseCounts := Function.update indexes.phaseCounts node.phase (indexes.phaseCounts node.phase + 1)
  pending :=
    if node.phase = .pending then indexes.pending.insertIfNew node.sequence key else indexes.pending
  bfsPending :=
    if node.phase = .pending ∧ policy = .bfs then
      indexes.bfsPending.insertIfNew (node.depth, node.sequence) key
    else indexes.bfsPending
  activeLayers :=
    if policy = .bfs ∧ node.phase.active then
      indexes.activeLayers.insert node.depth (indexes.activeLayers.getD node.depth 0 + 1)
    else indexes.activeLayers

def indexRemove (indexes : Indexes) (policy : Policy) (node : Node) : Indexes where
  phaseCounts := Function.update indexes.phaseCounts node.phase (indexes.phaseCounts node.phase - 1)
  pending :=
    if node.phase = .pending then indexes.pending.erase node.sequence else indexes.pending
  bfsPending :=
    if node.phase = .pending ∧ policy = .bfs then
      indexes.bfsPending.erase (node.depth, node.sequence)
    else indexes.bfsPending
  activeLayers :=
    if policy = .bfs ∧ node.phase.active then
      match indexes.activeLayers[node.depth]? with
      | none => indexes.activeLayers
      | some count =>
        if count - 1 = 0 then indexes.activeLayers.erase node.depth
        else indexes.activeLayers.insert node.depth (count - 1)
    else indexes.activeLayers

end Indexes

namespace Frontier

/-- Rewrite the node at `key`, taking the old value out of the indexes and entering the new one. -/
def replace (f : Frontier) (key : StateKey) (node next : Node) : Frontier :=
  { f with
    nodes := f.nodes.insert key next
    indexes := (f.indexes.indexRemove f.policy node).indexAdd f.policy key next }

def update (f : Frontier) (key : StateKey) (node : Node) (phase : NodePhase) (depth : UInt64) :
    Frontier :=
  f.replace key node { node with phase := phase, depth := depth }

/-- Assign the ticket field of a stored node; no index depends on it. -/
def setTicket (f : Frontier) (key : StateKey) (ticket : Option Ticket) : Frontier :=
  { f with nodes := f.nodes.modify key fun node => { node with ticket := ticket } }

/-- The first arrival of a state: a fresh pending node with the next sequence number. -/
def insertPending (f : Frontier) (key : StateKey) (distance : UInt64) : Frontier :=
  let node : Node := ⟨distance, .pending, f.nextSequence, none, [], ""⟩
  { f with
    nextSequence := f.nextSequence + 1
    nodes := f.nodes.insert key node
    indexes := f.indexes.indexAdd f.policy key node
    counters := { f.counters with admitted := f.counters.admitted + 1 } }

def countDuplicate (f : Frontier) : Frontier :=
  { f with counters := { f.counters with duplicates := f.counters.duplicates + 1 } }

/-- A node cut at its old depth is reopened by a shorter path. -/
def reopened : NodePhase → NodePhase
  | .depthCut => .pending
  | phase => phase

/-- A shorter path to a known state. -/
def improve (f : Frontier) (key : StateKey) (node : Node) (distance : UInt64) : Frontier :=
  let moved := f.update key node (reopened node.phase) distance
  { moved with counters := { moved.counters with improvements := moved.counters.improvements + 1 } }

/-- The relaxations an improved node causes. The source pushes them in reverse on a stack, so the
first successor is taken first. -/
def relaxations (node : Node) (distance : UInt64) : List (StateKey × UInt64) :=
  if node.phase = .expanded then node.successors.map fun successor => (successor, distance + 1)
  else []

/-- Every iteration of `propagate` lowers this bound: an insertion uses up a sequence number, an
improvement lowers a depth and pushes at most all recorded successors. -/
def propagateBound (f : Frontier) (work : List (StateKey × UInt64)) : ℕ :=
  (2 ^ 64 * (uint64Max.toNat - f.nextSequence.toNat) + f.nodes.sumBy (fun node => node.depth.toNat)) *
    (f.nodes.sumBy (fun node => node.successors.length) + 1) + work.length

theorem propagateBound_insertPending {f : Frontier} {key : StateKey} (distance : UInt64)
    (rest : List (StateKey × UInt64)) (absent : f.nodes[key]? = none)
    (available : f.nextSequence ≠ uint64Max) :
    (f.insertPending key distance).propagateBound rest < f.propagateBound ((key, distance) :: rest) := by
  have next := toNat_add_one_of_ne_max available
  have room : f.nextSequence.toNat + 1 ≤ uint64Max.toNat := by
    rw [← next]
    exact Nat.le_of_lt_succ (f.nextSequence + 1).toNat_lt
  have depth := distance.toNat_lt
  simp only [propagateBound, insertPending, ExtTreeMap.sumBy_insert_of_absent _ absent, next,
    List.length_nil, List.length_cons, Nat.add_zero]
  have smaller : 2 ^ 64 * (uint64Max.toNat - (f.nextSequence.toNat + 1)) +
      (f.nodes.sumBy (fun node => node.depth.toNat) + distance.toNat) ≤
      2 ^ 64 * (uint64Max.toNat - f.nextSequence.toNat) +
        f.nodes.sumBy (fun node => node.depth.toNat) := by omega
  have := Nat.mul_le_mul_right (f.nodes.sumBy (fun node => node.successors.length) + 1) smaller
  omega

theorem propagateBound_improve {f : Frontier} {key : StateKey} {node : Node} {distance : UInt64}
    (rest : List (StateKey × UInt64)) (read : f.nodes[key]? = some node)
    (shorter : ¬node.depth ≤ distance) :
    (f.countDuplicate.improve key node distance).propagateBound (relaxations node distance ++ rest) <
      f.propagateBound ((key, distance) :: rest) := by
  have lower : distance.toNat < node.depth.toNat := by
    simpa [UInt64.le_iff_toNat_le] using shorter
  have pushed : (relaxations node distance).length ≤
      f.nodes.sumBy (fun node => node.successors.length) := by
    have recorded := ExtTreeMap.weight_le_sumBy (fun node : Node => node.successors.length) read
    unfold relaxations
    split
    · simpa using recorded
    · simp
  have depths : (f.countDuplicate.improve key node distance).nodes.sumBy (fun node => node.depth.toNat) +
      node.depth.toNat = f.nodes.sumBy (fun node => node.depth.toNat) + distance.toNat :=
    ExtTreeMap.sumBy_insert_of_read (fun node : Node => node.depth.toNat) read _
  have successors : (f.countDuplicate.improve key node distance).nodes.sumBy
        (fun node => node.successors.length) = f.nodes.sumBy (fun node => node.successors.length) :=
    Nat.add_right_cancel (ExtTreeMap.sumBy_insert_of_read (fun node : Node => node.successors.length) read _)
  have smaller : 2 ^ 64 * (uint64Max.toNat - f.nextSequence.toNat) +
      (f.countDuplicate.improve key node distance).nodes.sumBy (fun node => node.depth.toNat) + 1 ≤
      2 ^ 64 * (uint64Max.toNat - f.nextSequence.toNat) +
        f.nodes.sumBy (fun node => node.depth.toNat) := by omega
  have scaled := Nat.mul_le_mul_right (f.nodes.sumBy (fun node => node.successors.length) + 1) smaller
  rw [Nat.add_mul _ 1, Nat.one_mul] at scaled
  have sequence : (f.countDuplicate.improve key node distance).nextSequence = f.nextSequence := rfl
  simp only [propagateBound, successors, sequence, List.length_append, List.length_cons]
  omega

/-- Relax the queued distances until none is left, inserting the states that are new. -/
def propagate (f : Frontier) (work : List (StateKey × UInt64)) : Except FrontierError Unit × Frontier :=
  match work with
  | [] => (.ok (), f)
  | (key, distance) :: rest =>
    match _ : f.nodes[key]? with
    | none =>
      if f.nodes.size = f.maxStates.toNat then
        (.error (.lengthError "frontier capacity exceeded"), f)
      else if _ : f.nextSequence = uint64Max then
        (.error (.overflowError "frontier sequence exhausted"), f)
      else propagate (f.insertPending key distance) rest
    | some node =>
      if _ : node.depth ≤ distance then propagate f.countDuplicate rest
      else propagate (f.countDuplicate.improve key node distance) (relaxations node distance ++ rest)
termination_by f.propagateBound work
decreasing_by
  · exact propagateBound_insertPending distance rest ‹_› ‹_›
  · simp [propagateBound, countDuplicate]
  · exact propagateBound_improve rest ‹_› ‹_›

/-- The answer of `admit`: the state is new or the depth is an improvement. -/
def changed (f : Frontier) (state : StateKey) (depth : UInt64) : Bool :=
  match f.nodes[state]? with
  | none => true
  | some node => decide (depth < node.depth)

def admitState (f : Frontier) (state : StateKey) (depth : UInt64) : Except FrontierError Bool × Frontier :=
  if f.poisoned then (.error poisonedError, f)
  else if f.limit < depth then (.error (.invalidArgument "admission beyond depth limit"), f)
  else if f.nodes[state]? = none ∧ f.nodes.size = f.maxStates.toNat then
    (.error (.lengthError "frontier capacity exceeded"), f)
  else Prod.map (Except.map fun _ => f.changed state depth) id (f.propagate [(state, depth)])

def finalizeLease (f : Frontier) (worker : WorkerId) (key : StateKey) (candidates : ℕ) :
    Except FrontierError Ticket × Frontier :=
  match f.nodes[key]? with
  | none => (.error .undefinedBehaviour, f)
  | some node =>
    if f.nextLease = uint64Max then (.error (.overflowError "frontier lease IDs exhausted"), f)
    else
      let result : Ticket := ⟨key, worker, f.nextLease + 1, node.depth, decide (node.depth < f.limit)⟩
      let f := { f with nextLease := f.nextLease + 1 }
      let f := f.update key node .inflight node.depth
      let f := f.setTicket key (some result)
      let counters :=
        { f.counters with
          dispatchCandidates := f.counters.dispatchCandidates + candidates
          leased := f.counters.leased + 1 }
      (.ok result, { f with counters := counters })

/-- The state a scan over pending candidates has settled on, with the number of candidates seen. -/
structure Selection where
  key : StateKey
  best : ℤ
  candidates : ℕ

/-- One later candidate of the priority scan: only a strictly smaller priority replaces the choice. -/
def considerPriority (f : Frontier) (priority : Priority) (selection : Selection) (key : StateKey) :
    Except FrontierError Selection :=
  match f.nodes[key]? with
  | none => .error .undefinedBehaviour
  | some node => do
    let value ← (priority key node.depth).mapError .callback
    let candidates := selection.candidates + 1
    return if value < selection.best then ⟨key, value, candidates⟩
      else { selection with candidates := candidates }

/-- The choice of the plain lease; `none` when the shallowest open layer is still in flight. -/
def select (f : Frontier) (priority : Priority) : Except FrontierError (Option (StateKey × ℕ)) :=
  match f.policy with
  | .dfs =>
    match f.indexes.pending.toList.getLast? with
    | none => .error .undefinedBehaviour
    | some (_, key) => .ok (some (key, 1))
  | .bfs =>
    match f.indexes.bfsPending.toList.head?, f.indexes.activeLayers.toList.head? with
    | some ((depth, _), key), some (layer, _) => .ok (if depth ≠ layer then none else some (key, 1))
    | _, _ => .error .undefinedBehaviour
  | .priority =>
    match f.indexes.pending.toList.map Prod.snd with
    | [] => .error .undefinedBehaviour
    | first :: rest =>
      match f.nodes[first]? with
      | none => .error .undefinedBehaviour
      | some node => do
        let best ← (priority first node.depth).mapError .callback
        let selection ← rest.foldlM (f.considerPriority priority) ⟨first, best, 1⟩
        return some (selection.key, selection.candidates)

/-- Lease what a selection chose; a failed or empty selection changes nothing. -/
def leaseSelected (f : Frontier) (worker : WorkerId) :
    Except FrontierError (Option (StateKey × ℕ)) → Except FrontierError (Option Ticket) × Frontier
  | .error error => (.error error, f)
  | .ok none => (.ok none, f)
  | .ok (some (key, candidates)) => Prod.map (Except.map some) id (f.finalizeLease worker key candidates)

def lease (f : Frontier) (worker : WorkerId) (priority : Priority) :
    Except FrontierError (Option Ticket) × Frontier :=
  if f.poisoned then (.error poisonedError, f)
  else if f.indexes.pending.isEmpty then (.ok none, f)
  else f.leaseSelected worker (f.select priority)

/-- One candidate of the locality scan: the first one, or a strictly larger score, is taken. -/
def consider (scorer : Scorer) (selection : Selection) (key : StateKey) :
    Except FrontierError Selection := do
  let score ← (scorer key).mapError .callback
  let candidates := selection.candidates + 1
  return if selection.candidates = 0 ∨ selection.best < score then ⟨key, score, candidates⟩
    else { selection with candidates := candidates }

/-- The candidates of the locality scan: the open layer in order, or the newest pending nodes. -/
def scoredCandidates (f : Frontier) (window : ℕ) : Except FrontierError (Option (List StateKey)) :=
  if f.policy = .bfs then
    match f.indexes.bfsPending.toList.head?, f.indexes.activeLayers.toList.head? with
    | some ((depth, _), _), some (layer, _) =>
      .ok (if depth ≠ layer then none
        else some (((f.indexes.bfsPending.toList.takeWhile fun entry => entry.1.1 = layer).take window).map
          Prod.snd))
    | _, _ => .error .undefinedBehaviour
  else .ok (some ((f.indexes.pending.toList.reverse.take window).map Prod.snd))

def selectScored (f : Frontier) (scorer : Scorer) (window : ℕ) :
    Except FrontierError (Option (StateKey × ℕ)) := do
  match ← f.scoredCandidates window with
  | none => return none
  | some candidates =>
    let selection ← candidates.foldlM (consider scorer) ⟨0, 0, 0⟩
    return some (selection.key, selection.candidates)

/-- The locality overload; an absent scorer models an empty callback. -/
def leaseScored (f : Frontier) (worker : WorkerId) (priority : Priority) (scorer : Option Scorer)
    (window : ℕ) : Except FrontierError (Option Ticket) × Frontier :=
  if f.poisoned then (.error poisonedError, f)
  else if f.policy = .priority then f.lease worker priority
  else match scorer with
    | none => (.error (.invalidArgument "Frontier locality needs a scorer and nonzero window"), f)
    | some scorer =>
      if window = 0 then
        (.error (.invalidArgument "Frontier locality needs a scorer and nonzero window"), f)
      else if f.indexes.pending.isEmpty then (.ok none, f)
      else f.leaseSelected worker (f.selectScored scorer window)

/-- The lease test of `commit`: the stored ticket agrees in every field that is compared. -/
def leaseMatches (f : Frontier) (ticket : Ticket) : Bool :=
  match f.nodes[ticket.state]? with
  | none => false
  | some node =>
    node.phase = .inflight && match node.ticket with
      | none => false
      | some stored => stored.worker = ticket.worker && stored.leaseId = ticket.leaseId &&
          stored.depth = ticket.depth && stored.mayExpand = ticket.mayExpand

def staleError : FrontierError := .invalidArgument "stale or invalid frontier lease"

end Frontier

def ResultKind.phase : ResultKind → NodePhase
  | .expanded => .expanded
  | .terminal => .terminal
  | .depthCut => .depthCut
  | .modelBudget => .modelBudget
  | .failure => .failure

namespace Frontier

/-- The checks of `commit` that look only at the ticket and the reported expansion. -/
def expansionError? (ticket : Ticket) (expansion : Expansion) : Option FrontierError :=
  let phase := expansion.kind.phase
  if (¬ticket.mayExpand ∧ phase = .expanded) ∨ (ticket.mayExpand ∧ phase = .depthCut) then
    some (.invalidArgument "expansion result incompatible with probe lease")
  else if phase ≠ .expanded ∧ expansion.successors ≠ [] then
    some (.invalidArgument "incomplete or terminal expansion cannot publish successors")
  else if (phase = .modelBudget ∨ phase = .failure) ∧ expansion.reason = "" then
    some (.invalidArgument "cutoff/failure requires a reason")
  else none

/-- How many distinct states of a list the table does not hold yet. -/
def missing (f : Frontier) (keys : List StateKey) : ℕ :=
  (keys.filter fun key => f.nodes[key]? = none).dedup.length

/-- Publish the successors one by one at the node's current depth plus one. -/
def propagateSuccessors (f : Frontier) (state : StateKey) :
    List StateKey → Except FrontierError Unit × Frontier
  | [] => (.ok (), f)
  | key :: rest =>
    match f.nodes[state]? with
    | none => (.error .undefinedBehaviour, f)
    | some node =>
      match f.propagate [(key, node.depth + 1)] with
      | (.ok _, f) => propagateSuccessors f state rest
      | (.error error, f) => (.error error, f)

/-- The writes of `commit`, after all its checks have passed. -/
def publish (f : Frontier) (ticket : Ticket) (expansion : Expansion) :
    Except FrontierError Unit × Frontier :=
  match f.nodes[ticket.state]? with
  | none => (.error .undefinedBehaviour, f)
  | some node =>
    let phase := expansion.kind.phase
    let node := { node with successors := expansion.successors, reason := expansion.reason }
    let f := f.update ticket.state node
      (if phase = .depthCut ∧ node.depth < f.limit then .pending else phase) node.depth
    let f := f.setTicket ticket.state none
    match f.propagateSuccessors ticket.state expansion.successors with
    | (.error error, f) => (.error error, f)
    | (.ok _, f) =>
      (.ok (), { f with counters := { f.counters with committed := f.counters.committed + 1 } })

def commit (f : Frontier) (ticket : Ticket) (expansion : Expansion) :
    Except FrontierError Unit × Frontier :=
  if f.poisoned then (.error poisonedError, f)
  else if ¬f.leaseMatches ticket then (.error staleError, f)
  else match expansionError? ticket expansion with
    | some error => (.error error, f)
    | none =>
      if f.maxStates.toNat - f.nodes.size < f.missing expansion.successors then
        (.error (.lengthError "frontier capacity exceeded"), f)
      else if (uint64Max - f.nextSequence).toNat < f.missing expansion.successors then
        (.error (.overflowError "frontier sequence exhausted"), f)
      else f.publish ticket expansion

/-- A commit whose kind is no value of the enumeration. -/
def commitUnknown (f : Frontier) (ticket : Ticket) : Except FrontierError Unit × Frontier :=
  if f.poisoned then (.error poisonedError, f)
  else if ¬f.leaseMatches ticket then (.error staleError, f)
  else (.error (.invalidArgument "unknown expansion result"), f)

/-- Requeue one node if the lost worker holds it. -/
def requeue (worker : WorkerId) (state : Frontier × ℕ) (entry : StateKey × Node) : Frontier × ℕ :=
  match entry.2.ticket with
  | none => state
  | some ticket =>
    if ticket.worker = worker then
      let f := state.1.update entry.1 entry.2 .pending entry.2.depth
      (f.setTicket entry.1 none, state.2 + 1)
    else state

def workerLost (f : Frontier) (worker : WorkerId) : Except FrontierError ℕ × Frontier :=
  if f.poisoned then (.error poisonedError, f)
  else
    let (f, count) := f.nodes.toList.foldl (requeue worker) (f, 0)
    (.ok count, { f with counters := { f.counters with requeued := f.counters.requeued + count } })

def status (f : Frontier) : Status :=
  if f.poisoned then .failed
  else if f.indexes.phaseCounts .failure ≠ 0 then .failed
  else if f.indexes.phaseCounts .pending ≠ 0 ∨ f.indexes.phaseCounts .inflight ≠ 0 then .running
  else if f.indexes.phaseCounts .depthCut ≠ 0 ∨ f.indexes.phaseCounts .modelBudget ≠ 0 then .bounded
  else .complete

end Frontier

/-- A call to the frontier, with what its callbacks answer while it runs. -/
inductive Call
  | admitState (state : StateKey) (depth : UInt64)
  | lease (worker : WorkerId) (priority : Priority)
  | leaseScored (worker : WorkerId) (priority : Priority) (scorer : Option Scorer) (window : ℕ)
  | commit (ticket : Ticket) (expansion : Expansion)
  | workerLost (worker : WorkerId)

/-- What a call that does not throw returns. -/
inductive Reply
  | admitted (changed : Bool)
  | leased (ticket : Option Ticket)
  | committed
  | lost (count : ℕ)
deriving DecidableEq, Repr

namespace Frontier

def call (f : Frontier) : Call → Except FrontierError Reply × Frontier
  | .admitState state depth => Prod.map (Except.map .admitted) id (f.admitState state depth)
  | .lease worker priority => Prod.map (Except.map .leased) id (f.lease worker priority)
  | .leaseScored worker priority scorer window =>
    Prod.map (Except.map .leased) id (f.leaseScored worker priority scorer window)
  | .commit ticket expansion => Prod.map (Except.map fun _ => .committed) id (f.commit ticket expansion)
  | .workerLost worker => Prod.map (Except.map .lost) id (f.workerLost worker)

/-- The frontier after a sequence of calls, whether or not they threw. -/
def run (f : Frontier) (calls : List Call) : Frontier :=
  calls.foldl (fun f call => (f.call call).2) f

end Frontier

end DetSim.Search
