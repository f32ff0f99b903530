import DetSim.Model.Scheduler
import DetSim.ToMathlib.TreeMapSum

/-! # The state tree and the printed history

Every executed transition is offered to one table, which keeps for each state the first transition that reached
it. A history follows the table back from the running state and is printed in the order of execution. The table
is shared by all searches and outlives them; a session may also load a saved state and go on from there.
-/

namespace DetSim.Scheduler

def detsimChoiceTimeout : ℤ := -2

/-- An entry of the state tree: the predecessor, the process that moved, its choice and its thread. -/
structure TreeEdge where
  predecessor : HashType
  which : ℕ
  choose : ℤ
  slot : ℕ
deriving DecidableEq, Repr

abbrev StateTree := Std.ExtTreeMap HashType TreeEdge

def stateTreeAdd (tree : StateTree) (source target : HashType) (which : ℕ) (choose : ℤ) (slot : ℕ) : StateTree :=
  if tree[target]?.isSome then tree else tree.insert target ⟨source, which, choose, slot⟩

/-- The loop of `show_syscall_history` from a state, for at most so many rounds: the entries it prints, first
the oldest one. -/
def showSyscallHistory (tree : StateTree) : ℕ → HashType → Option (List (TreeEdge × HashType))
  | 0, _ => none
  | rounds + 1, ss =>
    match tree[ss]? with
    | none => some []
    | some edge => (showSyscallHistory tree rounds edge.predecessor).map (· ++ [(edge, ss)])

/-- The choice that a transition is filed under. -/
def TransitionSystem.transitionChoice (system : TransitionSystem) (transition : Transition) : ℤ :=
  if transition.actor.action = .timeout then detsimChoiceTimeout
  else if system.nChoose transition.source transition.actor = 0 then -1
  else transition.choice

/-- The entry of a transition. -/
def TransitionSystem.edge (system : TransitionSystem) (transition : Transition) : TreeEdge where
  predecessor := transition.source
  which := transition.actor.process
  choose := system.transitionChoice transition
  slot := transition.actor.thread

/-- The tree and the running state, with a log of the executed transitions and of the states from which
exploration started: the first one, and those that were loaded before any transition had reached them. -/
structure Explorer where
  tree : StateTree := ∅
  running : HashType
  executed : List Transition := []
  starts : List HashType

namespace Explorer

def initial (state : HashType) : Explorer := { running := state, starts := [state] }

variable (system : TransitionSystem) (explorer : Explorer)

/-- The states reached so far. -/
def reached : List HashType := explorer.starts ++ explorer.executed.map system.target

def stateTransition (transition : Transition) : Explorer :=
  { explorer with
    tree := stateTreeAdd explorer.tree transition.source (system.target transition) transition.actor.process
      (system.transitionChoice transition) transition.actor.thread
    running := system.target transition
    executed := transition :: explorer.executed }

def load (state : HashType) : Explorer :=
  { explorer with
    running := state
    starts := if state ∈ explorer.reached system then explorer.starts else state :: explorer.starts }

end Explorer

/-- What a session does: it executes a transition from a state reached so far, or loads a state. -/
inductive ExplorerEvent
  | transition (transition : Transition)
  | load (state : HashType)
deriving DecidableEq, Repr

/-- One event of a session. -/
def Explorer.step (system : TransitionSystem) (explorer : Explorer) (event : ExplorerEvent) (next : Explorer) : Prop :=
  match event with
  | .transition transition =>
    transition.source ∈ explorer.reached system ∧ next = explorer.stateTransition system transition
  | .load state => next = explorer.load system state

end DetSim.Scheduler
