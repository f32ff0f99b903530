import Mathlib

/-! # Interactive sessions

`cmd_si` and `cmd_sw` of the command line and `handle_user_choice`, over any transition system. An argument of `si` is
kept in a cell of the checker until a choice point takes it; a choice point that cannot take it asks the user.
-/

namespace DetSim.Session

/-- A step of a process, up to its choice point. Without one there are no choices. The rest depends on the choice, which
is -1 without a choice point, and may end the checker by an exception. A rejected step, or one of a process that has
ended, leaves the state. -/
structure Transition (State : Type*) where
  nChoose : ℕ
  finish : ℤ → Option State

/-- The states a checker can be in, by processes. -/
structure System (State : Type*) where
  processes : ℕ
  normal : State → ℕ → Transition State
  timeout : State → ℕ → Option State
  load : State → String → State

/-- The state of the checker that the commands share. -/
structure PtmcState (State : Type*) where
  runningState : State
  cursor : ℤ := -1
  batchChoicePreset : ℤ := -1

/-- The commands of a session. A step also has the lines its user would enter when asked, with the number in each. -/
inductive Command
  | si (args : List Char) (answers : List (Option ℤ))
  | sw (process : ℤ)
  | load (hash : String)

inductive SiArgument
  | normal
  | timeout
  | choice (value : ℕ)
  | usage
deriving DecidableEq

def isSpace (c : Char) : Bool := c = ' ' || (9 ≤ c.toNat && c.toNat ≤ 13)

def trim (text : List Char) : List Char :=
  ((text.dropWhile isSpace).reverse.dropWhile isSpace).reverse

/-- A choice is a number of the type `int`, in digits. -/
def parseArgument (args : List Char) : SiArgument :=
  let text := trim args
  if text = [] then .normal
  else if text = "timeout".toList then .timeout
  else if text.all Char.isDigit && Nat.ofDigitChars 10 text 0 < 2 ^ 31 then .choice (Nat.ofDigitChars 10 text 0)
  else .usage

/-- The prompt repeats until it reads a choice. The end of the input is the first one. -/
def promptInt (nChoose : ℕ) (answers : List (Option ℤ)) : ℤ :=
  match answers with
  | [] => 0
  | none :: rest => promptInt nChoose rest
  | some value :: rest => if 0 ≤ value ∧ value < nChoose then value else promptInt nChoose rest

/-- The choice, and what is left of the preset. -/
def handleUserChoice (preset : ℤ) (nChoose : ℕ) (answers : List (Option ℤ)) : ℤ × ℤ :=
  if 0 ≤ preset ∧ preset < nChoose then (preset, -1) else (promptInt nChoose answers, preset)

/-- `si` with this process in focus: it is refused, makes a step with the choice given, or times out. -/
def cmdSi {α : Type*} (processes : ℕ) (cursor : ℤ) (args : List Char) (refused : α) (step : Option ℕ → α)
    (timeout : α) : α :=
  if cursor < 0 ∨ processes ≤ cursor then refused
  else match parseArgument args with
    | .usage => refused
    | .choice value => step (some value)
    | .normal => step none
    | .timeout => timeout

/-- The process in focus after `sw`. -/
def cmdSw (processes : ℕ) (cursor process : ℤ) : ℤ := if process < 0 ∨ processes ≤ process then cursor else process

section Commands

variable {State : Type*} (system : System State)

/-- A step with the choice it took, if it came to a choice point. -/
def loadExecStore (ptmc : PtmcState State) (answers : List (Option ℤ)) : Option (PtmcState State) × Option ℤ :=
  let transition := system.normal ptmc.runningState ptmc.cursor.toNat
  if transition.nChoose = 0 then
    ((transition.finish (-1)).map fun next => { ptmc with runningState := next }, none)
  else
    let chosen := handleUserChoice ptmc.batchChoicePreset transition.nChoose answers
    ((transition.finish chosen.1).map fun next => { ptmc with runningState := next, batchChoicePreset := chosen.2 },
      some chosen.1)

def PtmcState.si (ptmc : PtmcState State) (args : List Char) (answers : List (Option ℤ)) :
    Option (PtmcState State) × Option ℤ :=
  cmdSi system.processes ptmc.cursor args (some ptmc, none)
    (fun choice => loadExecStore system
      { ptmc with batchChoicePreset := choice.elim ptmc.batchChoicePreset Int.ofNat } answers)
    ((system.timeout ptmc.runningState ptmc.cursor.toNat).map fun next => { ptmc with runningState := next }, none)

/-- A command with the choice it took. An exception ends the session. -/
def executeCommandLine (ptmc : PtmcState State) : Command → Option (PtmcState State) × Option ℤ
  | .si args answers => ptmc.si system args answers
  | .sw process => (some { ptmc with cursor := cmdSw system.processes ptmc.cursor process }, none)
  | .load hash => (some { ptmc with runningState := system.load ptmc.runningState hash }, none)

/-- One command of a session, as it was executed. -/
structure Entry (State : Type*) where
  ptmc : PtmcState State
  command : Command
  chosen : Option ℤ

/-- A whole session. -/
def session (ptmc : PtmcState State) : List Command → List (Entry State)
  | [] => []
  | command :: rest =>
    ⟨ptmc, command, (executeCommandLine system ptmc command).2⟩ ::
      match (executeCommandLine system ptmc command).1 with
      | none => []
      | some next => session next rest

end Commands

end DetSim.Session
