import Mathlib
import DetSim.Model.Expression

/-! # The memo of observations

Values of expressions over saved states are remembered by node, snapshot and executable, while neither the store nor the
symbol tables change. A value is remembered when its evaluation read memory and used no other node, and an answer from
the memo repeats the check of the symbols.

Snapshots do not change within a generation of the store, nor what the symbol tables say within one of their
generations. Types that are loaded during an evaluation start a new generation, so a call has one at its end.
-/

namespace DetSim.Expression

/-! ## Recorded accesses -/

/-- The checks and reads that an evaluation makes. -/
inductive Access
  | symbols (node : ℕ)
  | memory (node : ℕ)
deriving DecidableEq, Repr

def Access.node : Access → ℕ
  | .symbols node => node
  | .memory node => node

/-- What follows a successful evaluation. -/
def continuing (evaluated : Evaluated) (next : EvalResult → List Access) : List Access :=
  match evaluated with
  | .ok (some result) => next result
  | _ => []

section Accesses

variable (dwarf : Dwarf) (observation : Observation)

/-- An object of struct or array type is not read. -/
def fetches (node : ℕ) (location : EvalResult) : List Access :=
  let info := dwarf.getTypeInfo location.typeName
  if location.typeName ≠ "" ∧ (info.isStruct || info.isArray) then [] else [.memory node]

def typeAccess (node : ℕ) (name : String) : List Access :=
  let normalized := String.ofList (name.toList.filter fun c => c ≠ '*' && c ≠ ' ')
  if normalized ∈ primitiveTypes then [] else [.symbols node]

mutual

/-- The accesses of an evaluation that does not throw, in order. -/
def accesses (node : ℕ) : ExprNode → List Access
  | .number _ | .type _ | .preStep _ _ | .postStep _ _ | .assign _ _ => []
  | .variableNode name => [.symbols node] ++ continuing (variableAddress dwarf observation node name) fun location =>
      if location.typeName = "func" ∨ location.typeName = "void*" then [] else fetches dwarf node location
  | .binary op left right => accesses node left ++ continuing (eval dwarf observation node left) fun result =>
      if (op = .and ∧ result.asValue = 0) ∨ (op = .or ∧ result.asValue ≠ 0) then [] else accesses node right
  | .unary _ operand => accesses node operand
  | .memberAccess op object member =>
    (match op with
      | .arrow => accesses node object
      | .dot => addressAccesses node object) ++
      continuing (evalAddress dwarf observation node (.memberAccess op object member)) (fetches dwarf node)
  | .arrayIndex array index => accesses node array ++ continuing (eval dwarf observation node array) fun base =>
      accesses node index ++ continuing (eval dwarf observation node index) fun position =>
        fetches dwarf node (elementAddress dwarf base position)
  | .addressOf operand => addressAccesses node operand
  | .dereference operand =>
    accesses node operand ++ continuing (eval dwarf observation node operand) fun _ => [.memory node]
  | .conditional cond thenExpr elseExpr => accesses node cond ++ continuing (eval dwarf observation node cond) fun result =>
      if result.asValue ≠ 0 then accesses node thenExpr else accesses node elseExpr
  | .cast typeName operand => typeAccess node typeName ++ accesses node operand
  | .sizeofExpr operand => addressAccesses node operand ++
      if (evalAddress dwarf observation node operand).toOption.any fun located => sizeOf dwarf (typeNameOf located) ≠ 0 then []
      else accesses node operand
  | .sizeofType typeName => typeAccess node typeName ++
      if dwarf.typeSize typeName = 0 ∧ isIdentifier typeName then [.symbols node] else []
  | .offsetof _ _ => [.symbols node]
  | .typeof operand => accesses node operand
  | .processQualified procId expr => if procId < observation.processCount then accesses procId expr else []

def addressAccesses (node : ℕ) : ExprNode → List Access
  | .variableNode _ => [.symbols node]
  | .memberAccess op object _ =>
    match op with
    | .arrow => accesses node object
    | .dot => addressAccesses node object
  | .arrayIndex array index =>
    accesses node array ++ continuing (eval dwarf observation node array) fun _ => accesses node index
  | .dereference operand => accesses node operand
  | .processQualified procId expr => if procId < observation.processCount then addressAccesses procId expr else []
  | _ => []

end

end Accesses

/-! ## Views -/

inductive MemoMode
  | off
  | on
  | verify
deriving DecidableEq, Repr

/-- What does not change: the syntax, the symbol tables of each of their generations with the executables they are for,
and the snapshots of each generation of the store. -/
structure World where
  processCount : ℕ
  normalize : String → Except String String
  parse : String → Option ExprNode
  dwarf : ℕ → Dwarf
  matchesExecutable : ℕ → String → Bool
  mainImageContains : ℕ → UInt64 → Bool
  readSnapshot : ℕ → UInt64 → UInt64 → Except String Int64
  encodedSize : UInt64 → ℕ

/-- A `StateView`, of a saved state or of the stopped processes. -/
structure StateView where
  snapshots : ℕ → UInt64
  executables : ℕ → String
  storeGeneration : ℕ
  memoMode : MemoMode
  live : Option (ℕ → UInt64 → Except String Int64)

/-- The generations at a call, and those of the symbols at its end. A nested call is made during another one. -/
structure Moment where
  store : ℕ
  symbols : ℕ
  symbolsAfter : ℕ
  nested : Bool

section Memo

variable (world : World) (view : StateView) (moment : Moment)

def requireSymbols (node : ℕ) : Except String Unit :=
  if world.processCount ≤ node then .error "Observation process index"
  else if world.matchesExecutable moment.symbols (view.executables node) then .ok ()
  else .error "Observation symbols do not match the configured node executable"

/-- What an evaluation observes of a view. -/
def StateView.observation : Observation where
  processCount := world.processCount
  requireSymbols := requireSymbols world view moment
  requireSymbolAddress node address := do
    requireSymbols world view moment node
    if world.mainImageContains moment.symbols address then .ok ()
    else .error "Observation cannot use symbols outside the configured fixed executable"
  read node address :=
    if world.processCount ≤ node then .error "Observation process index"
    else match view.live with
      | some read => read node address
      | none =>
        if moment.store ≠ view.storeGeneration then .error "Observation belongs to a closed or failed snapshot store"
        else if view.snapshots node = 0 then .error "Observation has no saved process snapshot"
        else world.readSnapshot moment.store (view.snapshots node) address

/-- The evaluation without the memo. -/
def evaluateOriginal (node : ℕ) (expression : String) : Except String Int64 :=
  evaluateObservation (world.dwarf moment.symbols) (view.observation world moment) world.parse node expression

structure EvaluationReads where
  isLocal : Bool
  memory : Bool
  symbols : Bool
deriving DecidableEq, Repr

/-- What was recorded of an evaluation that returned: all its checks have passed. -/
def evaluationReads (node : ℕ) (expression : String) : EvaluationReads :=
  let made := (world.parse expression).elim [] (accesses (world.dwarf moment.symbols) (view.observation world moment) node)
  { isLocal := made.all (·.node == node)
    memory := made.any fun access => access == .memory access.node
    symbols := made.any fun access => access == .symbols access.node &&
      (requireSymbols world view moment access.node).isOk }

structure MemoValue where
  value : Int64
  symbols : Bool
deriving DecidableEq, Repr

structure RootKey where
  node : ℕ
  key : UInt64
  executable : String
deriving DecidableEq, Repr

def StateView.rootKey (node : ℕ) : RootKey := ⟨node, view.snapshots node, view.executables node⟩

structure MemoRoot where
  key : RootKey
  values : List (String × MemoValue)
deriving DecidableEq, Repr

structure Memo where
  store : ℕ := 0
  symbols : ℕ := 0
  roots : List MemoRoot := []
deriving DecidableEq, Repr

def Memo.sync (memo : Memo) (store symbols : ℕ) : Memo :=
  if memo.store ≠ store ∨ memo.symbols ≠ symbols then { store, symbols } else memo

def Memo.find (memo : Memo) (key : RootKey) : Option MemoRoot := memo.roots.find? (·.key == key)

/-- Put a root in front. -/
def Memo.front (memo : Memo) (root : MemoRoot) : Memo :=
  { memo with roots := root :: memo.roots.eraseP (·.key == root.key) }

/-- A root has at most 256 values. -/
def MemoRoot.emplace (root : MemoRoot) (expression : String) (value : MemoValue) : MemoRoot :=
  if root.values.length < 256 ∧ root.values.lookup expression = none then
    { root with values := (expression, value) :: root.values }
  else root

/-- A new root replaces the last one of sixteen. -/
def Memo.makeRoom (memo : Memo) (key : RootKey) : Memo :=
  if (memo.find key).isSome ∨ memo.roots.length < 16 then memo
  else { memo with roots := memo.roots.dropLast }

def Memo.remember (memo : Memo) (key : RootKey) (expression : String) (value : MemoValue) : Memo :=
  (memo.makeRoom key).front (((memo.find key).getD ⟨key, []⟩).emplace expression value)

inductive Failure
  | thrown (message : String)
  /-- "Saved observation memo disagrees with original evaluation". -/
  | disagreement
deriving DecidableEq, Repr

def MemoValue.disagrees (value : Int64) (reads : EvaluationReads) (cached : MemoValue) : Bool :=
  cached.value != value || !reads.isLocal || !reads.memory

/-- The end of an evaluation that is recorded. -/
def finish (memo : Memo) (node : ℕ) (expression : String) (cached : Option MemoValue) : Except Failure Int64 × Memo :=
  match evaluateOriginal world view moment node expression with
  | .error message => (.error (.thrown message), memo)
  | .ok value =>
    let reads := evaluationReads world view moment node expression
    if cached.any (·.disagrees value reads) then (.error .disagreement, memo)
    else if reads.isLocal ∧ reads.memory ∧ moment.symbolsAfter = moment.symbols ∧
        world.encodedSize (view.snapshots node) ≤ 65536 then
      (.ok value, memo.remember (view.rootKey node) expression ⟨value, reads.symbols⟩)
    else (.ok value, memo)

def evaluateNormalized (memo : Memo) (node : ℕ) (expression : String) : Except Failure Int64 × Memo :=
  if view.memoMode = .off ∨ view.live.isSome ∨ moment.nested ∨ view.snapshots node = 0 ∨ 1024 < expression.utf8ByteSize ∨
      4096 < (view.executables node).utf8ByteSize ∨ view.storeGeneration ≠ moment.store then
    ((evaluateOriginal world view moment node expression).mapError .thrown, memo)
  else
    let memo := memo.sync view.storeGeneration moment.symbols
    match memo.find (view.rootKey node) with
    | none => finish world view moment memo node expression none
    | some root =>
      match root.values.lookup expression with
      | none => finish world view moment memo node expression none
      | some cached =>
        match if cached.symbols then requireSymbols world view moment node else .ok () with
        | .error message => (.error (.thrown message), memo)
        | .ok () =>
          let memo := memo.front root
          if view.memoMode = .on then (.ok cached.value, memo)
          else finish world view moment memo node expression (some cached)

/-- `StateView::evaluate`. -/
def StateView.evaluate (memo : Memo) (node : ℕ) (expression : String) : Except Failure Int64 × Memo :=
  if world.processCount ≤ node then (.error (.thrown "Observation process index"), memo)
  else match world.normalize expression with
    | .error message => (.error (.thrown message), memo)
    | .ok normalized => evaluateNormalized world view moment memo node normalized

end Memo

/-! ## Histories of a thread -/

structure Call where
  view : StateView
  moment : Moment
  node : ℕ
  expression : String

def Call.answer (world : World) (memo : Memo) (call : Call) : Except Failure Int64 × Memo :=
  call.view.evaluate world call.moment memo call.node call.expression

/-- The same call with the memo off. -/
def Call.off (call : Call) : Call := { call with view := { call.view with memoMode := .off } }

def answers (world : World) (memo : Memo) : List Call → List (Except Failure Int64) × Memo
  | [] => ([], memo)
  | call :: calls =>
    let answered := call.answer world memo
    let rest := answers world answered.2 calls
    (answered.1 :: rest.1, rest.2)

end DetSim.Expression
