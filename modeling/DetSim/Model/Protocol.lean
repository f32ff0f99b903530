import DetSim.Model.Frontier
import DetSim.Model.KernelState
import DetSim.Model.Scheduler

/-! # The messages between coordinator and workers

A coordinator and its worker processes exchange six kinds of messages over a stream socket. Actor
indices and choices are the integers of the source; those a message can carry over the wire are
non-negative, and a choice is at least `-2`.
-/

namespace DetSim.Search

open Kernel (Bytes)
open Scheduler (ActorAction TransitionAction)

inductive TransitionResultCode
  | ckptNo | ckptYes | ckptExit | ckptStop | ckptDiscard
deriving DecidableEq, Repr

def TransitionResultCode.toNat : TransitionResultCode → ℕ
  | .ckptNo => 0
  | .ckptYes => 1
  | .ckptExit => 2
  | .ckptStop => 3
  | .ckptDiscard => 4

structure Blob where
  key : UInt64
  bytes : Bytes
deriving DecidableEq, Repr

/-- A saved state with its closure, or in version 2 a reference into a shared pool. -/
structure Bundle where
  version : UInt32 := 1
  systemKey : StateKey
  metadata : Bytes := []
  blobs : List Blob := []
deriving DecidableEq, Repr

structure Hello where
  modelIdentity : Bytes
  compatibility : Bytes := []
deriving DecidableEq, Repr

structure Task where
  ticket : Ticket
  bundle : Bundle
deriving DecidableEq, Repr

/-- One executed transition. A choice count of zero goes with the fixed choice of the action. -/
structure Edge where
  leaseId : UInt64
  source : StateKey
  target : StateKey
  actor : ActorAction
  choice : ℤ := -1
  choiceCount : ℕ := 0
  propertyViolation : Bool := false
  resultCode : TransitionResultCode := .ckptNo
  bundle : Bundle
deriving DecidableEq, Repr

inductive DoneKind
  | expanded | terminal | depthCut | modelBudget | violation
deriving DecidableEq, Repr

structure Done where
  leaseId : UInt64
  source : StateKey
  kind : DoneKind := .expanded
  emitted : ℕ
deriving DecidableEq, Repr

structure WorkerError where
  leaseId : UInt64
  source : StateKey
  reason : Bytes
deriving DecidableEq, Repr

inductive Message
  | hello (hello : Hello)
  | task (task : Task)
  | edge (edge : Edge)
  | done (done : Done)
  | error (error : WorkerError)
  | shutdown
deriving DecidableEq, Repr

end DetSim.Search
