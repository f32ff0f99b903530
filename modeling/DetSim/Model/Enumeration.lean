import DetSim.Model.Protocol
import DetSim.Model.Tracer

/-! # What a worker answers to a task

A worker restores the source it was sent and executes every enabled actor action, once per outcome of
its syscall. Each execution is streamed as an edge; the last message says how the enumeration ended.
What an execution does to the guests is a parameter. So are the other steps of the worker that may
throw: an exception ends the stream with an error message.
-/

namespace DetSim.Search

open Kernel (Bytes)
open Scheduler (ActorAction TransitionAction)

/-- The result of `state_transition` and the choice registers it leaves. -/
structure Execution where
  target : StateKey
  code : TransitionResultCode := .ckptYes
  nChoose : ℤ := 0
  choose : ℤ := 0
  propertyViolation : Bool := false
  propertyFailed : Bool := false
deriving DecidableEq, Repr

inductive ExecutionError
  | rejected (what : String)
  | failed (what : String)
deriving DecidableEq, Repr

/-- Execute an actor action of the source with a preset choice. -/
abbrev Executor := ActorAction → ℤ → Except ExecutionError Execution

/-- One execution of an actor action. A negative `cardinality` asks to discover the alternatives, which
are answered with the back of the source's vector first. -/
def searchActorChoice (execute : Executor) (actor : ActorAction) (preset cardinality : ℤ) :
    Except String (Execution × ℤ × List ℤ) :=
  match execute actor preset with
  | .error (.rejected what) => .error ("Enumerated actor action was rejected: " ++ what)
  | .error (.failed what) => .error what
  | .ok result =>
    if result.code = .ckptDiscard then .error "Enumerated actor action did not execute"
    else if result.nChoose < 0 ∨ (result.nChoose ≠ 0 ∧ (result.choose < 0 ∨ result.nChoose ≤ result.choose)) then
      .error "Invalid syscall choice discovery"
    else if cardinality < 0 then
      .ok (result, result.nChoose,
        (((List.range result.nChoose.toNat).map Int.ofNat).filter (· ≠ result.choose)).reverse)
    else if result.nChoose ≠ cardinality ∨ result.nChoose = 0 ∨ result.choose ≠ preset then
      .error "Syscall choice cardinality/preset changed for the same saved actor action"
    else .ok (result, cardinality, [])

inductive EnumerationKind
  | expanded | terminal | depthCut | modelBudget | violation
deriving DecidableEq, Repr

/-- What the enumeration reads of a saved source. -/
structure Source where
  propertyFailed : Bool
  actors : List ActorAction
deriving DecidableEq, Repr

/-- The source as it is loaded from a saved state of `np` nodes. -/
def Source.load (np : ℕ) (state : Tracer.SysState) : Source :=
  ⟨state.propertyFailed, Tracer.enabledActorActions np state⟩

def classifyEnumeration (source : Source) (mayExpand : Bool) : EnumerationKind :=
  if source.propertyFailed then .violation
  else if source.actors = [] then .terminal
  else if !mayExpand then .depthCut
  else .expanded

/-- The choice an edge names. -/
def edgeChoice (actor : ActorAction) (result : Execution) : ℤ :=
  if actor.action = .timeout then -2 else if result.nChoose ≠ 0 then result.choose else -1

/-- An execution the enumeration hands to its callback. -/
structure Emission where
  actor : ActorAction
  choice : ℤ
  cardinality : ℤ
  result : Execution
deriving DecidableEq, Repr

def Emission.violation (emission : Emission) : Bool :=
  emission.result.propertyViolation || emission.result.propertyFailed

/-- What the callback makes of an execution; it may throw. -/
abbrev EdgeCallback := Emission → Except String Edge

section Enumerate

variable (execute : Executor) (callback : EdgeCallback)

/-- One round of the choice loop: the edge sent, whether it violates a property, the cardinality and the
alternatives discovered. -/
def enumerateChoice (actor : ActorAction) (preset cardinality : ℤ) :
    Except String (Edge × Bool × ℤ × List ℤ) := do
  let (result, cardinality, discovered) ← searchActorChoice execute actor preset cardinality
  if result.target = 0 then .error "Single-state expansion produced no target identity"
  else
    let emission : Emission := ⟨actor, edgeChoice actor result, cardinality, result⟩
    let edge ← callback emission
    return (edge, emission.violation, cardinality, discovered)

/-- The edges sent, and the exception that stopped the enumeration or whether a violation did. -/
abbrev Enumerated := List Edge × Except String Bool

/-- The rounds after the first, which only take the alternatives already discovered. -/
def enumerateRemaining (actor : ActorAction) (cardinality : ℤ) : List ℤ → Enumerated
  | [] => ([], .ok false)
  | preset :: rest =>
    match enumerateChoice execute callback actor preset cardinality with
    | .error what => ([], .error what)
    | .ok (edge, true, _) => ([edge], .ok true)
    | .ok (edge, false, _) => (enumerateRemaining actor cardinality rest).map (edge :: ·) id

def enumerateActor (actor : ActorAction) : Enumerated :=
  match enumerateChoice execute callback actor 0 (-1) with
  | .error what => ([], .error what)
  | .ok (edge, true, _) => ([edge], .ok true)
  | .ok (edge, false, cardinality, discovered) =>
    (enumerateRemaining execute callback actor cardinality discovered).map (edge :: ·) id

def enumerateActors : List ActorAction → Enumerated
  | [] => ([], .ok false)
  | actor :: rest =>
    match enumerateActor execute callback actor with
    | (edges, .ok false) => (enumerateActors rest).map (edges ++ ·) id
    | stopped => stopped

/-- The edges of a source, and its summary unless something threw. The final restore of the source may
throw after all edges are sent. -/
def enumerateState (restore : Except String Unit) (source : Source) (mayExpand : Bool) :
    List Edge × Except String EnumerationKind :=
  match classifyEnumeration source mayExpand with
  | .expanded =>
    match enumerateActors execute callback source.actors with
    | (edges, .error what) => (edges, .error what)
    | (edges, .ok true) => (edges, .ok .violation)
    | (edges, .ok false) => (edges, restore.map fun _ => .expanded)
  | kind => ([], .ok kind)

end Enumerate

def completionKind : EnumerationKind → DoneKind
  | .expanded => .expanded
  | .terminal => .terminal
  | .depthCut => .depthCut
  | .modelBudget => .modelBudget
  | .violation => .violation

/-- What a worker process does with one task, apart from its messages: everything between the task and
the enumeration, the executions, the export of each target, and the final restore. -/
structure Attempt where
  prepare : Except String Unit := .ok ()
  execute : Executor
  exportBundle : StateKey → Except String Bundle
  restore : Except String Unit := .ok ()

def encodeText (text : String) : Bytes := text.toUTF8.toList

/-- The edge a worker sends for an execution. -/
def workerEdge (attempt : Attempt) (ticket : Ticket) (emission : Emission) : Except String Edge := do
  let bundle ← attempt.exportBundle emission.result.target
  return {
    leaseId := ticket.leaseId
    source := ticket.state
    target := emission.result.target
    actor := emission.actor
    choice := emission.choice
    choiceCount := (emission.cardinality % 2 ^ 32).toNat
    propertyViolation := emission.violation
    resultCode := emission.result.code
    bundle := bundle }

/-- All messages of a worker for one task, in order. -/
def workerReplies (attempt : Attempt) (ticket : Ticket) (source : Source) : List Message :=
  match attempt.prepare with
  | .error what => [.error ⟨ticket.leaseId, ticket.state, encodeText what⟩]
  | .ok () =>
    let (edges, summary) :=
      enumerateState attempt.execute (workerEdge attempt ticket) attempt.restore source ticket.mayExpand
    edges.map .edge ++ [match summary with
      | .ok kind => .done ⟨ticket.leaseId, ticket.state, completionKind kind, edges.length⟩
      | .error what => .error ⟨ticket.leaseId, ticket.state, encodeText what⟩]

end DetSim.Search
