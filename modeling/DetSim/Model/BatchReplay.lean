import DetSim.Model.History
import DetSim.Model.Session
import Mathlib.Data.List.DropRight

/-! # From a printed history to a batch script and back to actions

A history is printed as text, `trace2batch` reads the text line by line with a regular expression and writes a
script of `sw` and `si` commands, and the debugger reads the script. Texts are lists of characters. All lines
fit the line buffer of the debugger: a printed call has a few hundred characters.
-/

namespace DetSim.Scheduler

open DetSim.Session (cmdSi cmdSw isSpace)

def decimal (number : ℕ) : List Char := Nat.toDigits 10 number

/-- `HASH_FORMAT`: sixteen hexadecimal digits, the high ones first. -/
def hashText (hash : HashType) : List Char :=
  (List.range 16).reverse.map fun place => Nat.digitChar (hash.toNat / 16 ^ place % 16)

/-! ## The action sequences -/

/-- One step as a path or a script denotes it. -/
structure ReplayAction where
  process : ℕ
  thread : ℕ
  choice : Option ℕ
  timeout : Bool
deriving DecidableEq, Repr

/-- The step of an entry of the state tree. -/
def TreeEdge.action (edge : TreeEdge) : ReplayAction where
  process := edge.which
  thread := edge.slot
  choice := if 0 ≤ edge.choose then some edge.choose.toNat else none
  timeout := edge.choose == detsimChoiceTimeout

/-! ## Printing -/

/-- What stands between the process and its call. -/
def choiceLabel (choose : ℤ) : List Char :=
  if choose = detsimChoiceTimeout then " (timeout): ".toList
  else if 0 ≤ choose then " (choose ".toList ++ decimal choose.toNat ++ "): ".toList
  else ": ".toList

def stateLine (edge : TreeEdge) (ss : HashType) : List Char :=
  hashText edge.predecessor ++ " => ".toList ++ hashText ss

def callLine (edge : TreeEdge) (call : List Char) : List Char :=
  " Tracee ".toList ++ decimal edge.which ++ choiceLabel edge.choose ++ call

/-- The text printed for one entry: the two states, then the process with its call. -/
def printStep (format : HashType → ℕ → List Char) (step : TreeEdge × HashType) : List Char :=
  stateLine step.1 step.2 ++ '\n' :: (callLine step.1 (format step.2 step.1.which) ++ ['\n'])

/-- The text of a history, where `format` gives the text of the last call of a process in a state. -/
def printHistory (format : HashType → ℕ → List Char) (history : List (TreeEdge × HashType)) : List Char :=
  history.flatMap (printStep format) ++ (decimal history.length ++ " steps in total.\n".toList)

/-! ## `trace2batch` -/

/-- The characters that Python takes for digits, with their values, and for space. Beyond ASCII they are a
matter of its Unicode tables. -/
structure CharClasses where
  digit : Char → Option ℕ
  space : Char → Bool
  digit_ascii : ∀ char : Char, char.toNat < 128 →
    digit char = if char.isDigit then some (char.toNat - '0'.toNat) else none
  space_ascii : ∀ char : Char, char.toNat < 128 →
    space char = (char == ' ' || 9 ≤ char.toNat && char.toNat ≤ 13 || 28 ≤ char.toNat && char.toNat ≤ 31)

/-- The lines of a file that is opened as text: `\r` and `\r\n` end a line as well. -/
def fileLines : List Char → List (List Char)
  | [] => [[]]
  | '\r' :: '\n' :: rest => [] :: fileLines rest
  | '\r' :: rest => [] :: fileLines rest
  | '\n' :: rest => [] :: fileLines rest
  | char :: rest =>
    match fileLines rest with
    | [] => [[char]]
    | line :: lines => (char :: line) :: lines

structure TraceEntry where
  nodeId : ℕ
  syscall : List Char
  choice : Option ℕ
deriving DecidableEq, Repr

section
variable (classes : CharClasses)

def stripText (text : List Char) : List Char :=
  (text.dropWhile classes.space).rdropWhile classes.space

/-- `\s+`. -/
def matchSpaces : List Char → Option (List Char)
  | [] => none
  | char :: rest => if classes.space char then some (rest.dropWhile classes.space) else none

/-- `(\d+)`, with the value of the group. -/
def matchNumber (text : List Char) : Option (ℕ × List Char) :=
  let digits := text.takeWhile fun char => (classes.digit char).isSome
  if digits = [] then none
  else some (digits.foldl (fun value char => 10 * value + (classes.digit char).getD 0) 0,
    text.dropWhile fun char => (classes.digit char).isSome)

def matchWord (word text : List Char) : Option (List Char) :=
  if word <+: text then some (text.drop word.length) else none

/-- `\s+\(choose\s+(\d+)\)`. -/
def matchChoose (text : List Char) : Option (ℕ × List Char) := do
  let rest ← matchSpaces classes text
  let rest ← matchWord "(choose".toList rest
  let rest ← matchSpaces classes rest
  let (choice, rest) ← matchNumber classes rest
  let rest ← matchWord ")".toList rest
  some (choice, rest)

/-- `:\s*(.+)$`, with the stripped group. -/
def matchSyscall (text : List Char) : Option (List Char) := do
  let rest ← matchWord ":".toList text
  if rest = [] then none else some (stripText classes rest)

/-- `Tracee\s+(\d+)(?:\s+\(choose\s+(\d+)\))?:\s*(.+)$`. No character is at once space, digit and a character
of the pattern, so the greedy match is the only one. -/
def matchTracee (text : List Char) : Option TraceEntry := do
  let rest ← matchWord "Tracee".toList text
  let rest ← matchSpaces classes rest
  let (nodeId, rest) ← matchNumber classes rest
  match matchChoose classes rest with
  | some (choice, rest) => (matchSyscall classes rest).map fun syscall => ⟨nodeId, syscall, some choice⟩
  | none => (matchSyscall classes rest).map fun syscall => ⟨nodeId, syscall, none⟩

/-- One round of the loop of `parse_trace_file`. -/
def parseTraceLine (line : List Char) : Option TraceEntry :=
  if "=>".toList <:+: line ∧ ¬"Tracee".toList <+: stripText classes line then none
  else if "steps in total".toList <:+: line then none
  else if stripText classes line = [] then none
  else (matchTracee classes (line.dropWhile classes.space)).or (matchTracee classes line)

def parseTraceFile (file : List Char) : List TraceEntry :=
  (fileLines file).filterMap (parseTraceLine classes)

end

/-- The lines for one entry, which is the entry with this number. -/
def entryScript (includeComments : Bool) (entry : TraceEntry) (number : ℕ) : List (List Char) :=
  (if includeComments then
    ["# Step ".toList ++ decimal (number + 1) ++ ": Node ".toList ++ decimal entry.nodeId ++
      entry.choice.elim [] (fun choice => " (choice=".toList ++ decimal choice ++ ")".toList),
     "# ".toList ++ entry.syscall]
   else []) ++
  ["sw ".toList ++ decimal entry.nodeId,
   entry.choice.elim "si".toList (fun choice => "si ".toList ++ decimal choice),
   "info sock".toList] ++
  (if includeComments then [[]] else [])

/-- The lines of the script. -/
def generateBatchScript (includeComments : Bool) (entries : List TraceEntry) : List (List Char) :=
  (if includeComments then
    ["# Auto-generated batch script from trace".toList,
     "# Total steps: ".toList ++ decimal entries.length, []]
   else []) ++
  entries.zipIdx.flatMap fun numbered => entryScript includeComments numbered.1 numbered.2

/-! ## The commands -/

/-- The delimiters of `strtok`. -/
def isDelimiter (char : Char) : Bool := char == ' ' || char == '\t' || char == '\r' || char == '\n'

def unsignedValue (text : List Char) : ℕ := Nat.ofDigitChars 10 (text.takeWhile Char.isDigit) 0

/-- `atoi`: the value as a long, which stays at the bound it passes, cut to an int. -/
def atoi : List Char → ℤ
  | '-' :: rest => (max (-(unsignedValue rest : ℤ)) (-2 ^ 63)).bmod (2 ^ 32)
  | '+' :: rest => (min (unsignedValue rest : ℤ) (2 ^ 63 - 1)).bmod (2 ^ 32)
  | text => (min (unsignedValue text : ℤ) (2 ^ 63 - 1)).bmod (2 ^ 32)

/-- The state of a replay: the process in focus and the steps taken so far. -/
structure Replay where
  cursor : ℤ
  performed : List ReplayAction := []
deriving DecidableEq, Repr

section
variable (processes : ℕ) (selected : List ReplayAction → ℕ → ℕ)

def Replay.sw (replay : Replay) (args : List Char) : Replay :=
  if args = [] then replay else { replay with cursor := cmdSw processes replay.cursor (atoi args) }

/-- `load_exec_store` for the process in focus: the thread is the one selected for it in the running state,
which the steps so far determine. -/
def Replay.loadExecStore (replay : Replay) (choice : Option ℕ) (timeout : Bool) : Replay :=
  { replay with
    performed := replay.performed ++
      [⟨replay.cursor.toNat, selected replay.performed replay.cursor.toNat, choice, timeout⟩] }

def Replay.si (replay : Replay) (args : List Char) : Replay :=
  cmdSi processes replay.cursor args replay (replay.loadExecStore selected · false)
    (replay.loadExecStore selected none true)

/-- The commands of a script; `info` only prints. -/
def executeCommandLine (replay : Replay) (line : List Char) : Replay :=
  let name := line.takeWhile (!isDelimiter ·)
  let args := ((line.dropWhile (!isDelimiter ·)).drop 1).dropWhile isSpace
  if name = "sw".toList then replay.sw processes args
  else if name = "si".toList then replay.si processes selected args
  else replay

/-- One line of a script, which may be blank or a comment. -/
def batchLine (replay : Replay) (line : List Char) : Replay :=
  match line.dropWhile isSpace with
  | [] => replay
  | '#' :: _ => replay
  | command => executeCommandLine processes selected replay command

def cmdBatch (replay : Replay) (script : List (List Char)) : Replay :=
  script.foldl (batchLine processes selected) replay

/-- The steps that the script for a printed history denotes, from a session with this process in focus. -/
def replayHistory (classes : CharClasses) (format : HashType → ℕ → List Char) (includeComments : Bool) (cursor : ℤ)
    (history : List (TreeEdge × HashType)) : List ReplayAction :=
  (cmdBatch processes selected { cursor }
    (generateBatchScript includeComments (parseTraceFile classes (printHistory format history)))).performed

end

end DetSim.Scheduler
