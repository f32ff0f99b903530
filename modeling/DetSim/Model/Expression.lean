import Mathlib

/-! # Observation expressions

Assertions are C expressions over the globals of the guests. They are evaluated under an observation:
every memory read and every use of symbols goes through it, and nothing is written. An evaluation
ends in three ways: it throws, it clears its `success` flag, or it yields a value or an address with
the name of its type. The symbol service and the grammar are parameters; the evaluation of every node
of the syntax tree is the one of the source.
-/

namespace DetSim.Expression

/-! ## Types -/

structure Member where
  name : String
  offset : ℕ
  typeName : String
deriving DecidableEq, Repr

structure TypeInfo where
  size : ℕ := 0
  isPointer : Bool := false
  isStruct : Bool := false
  isArray : Bool := false
  members : List Member := []
  elementType : String := ""
deriving DecidableEq, Repr

/-- The answers of the symbol service. An unknown global has address zero, an unknown member a
negative offset. -/
structure Dwarf where
  getGlobalAddr : String → UInt64
  getGlobalType : String → String
  getTypeInfo : String → TypeInfo
  typeSize : String → ℕ
  memberOffset : String → String → Int64

def trimRight (text : List Char) : List Char :=
  (text.reverse.dropWhile Char.isWhitespace).reverse

/-- The element type of an array, or the target of a pointer, by the spelling of its name. -/
def getElementType (typeName : String) : String :=
  let text := typeName.toList
  if '[' ∈ text then String.ofList (trimRight (text.takeWhile (· ≠ '[')))
  else if '*' ∈ text then String.ofList (trimRight (text.reverse.dropWhile (· ≠ '*')).tail.reverse)
  else ""

def getTypeSize (info : TypeInfo) : ℕ :=
  if info.isPointer then 8 else if 0 < info.size then info.size else 4

/-! ## Syntax -/

inductive BinaryOp
  | add | sub | mul | div | mod | lt | gt | le | ge | eq | ne | and | or | bitand | bitor | xor
  | shl | shr
deriving DecidableEq, Repr

inductive UnaryOp
  | neg | not | bitnot
deriving DecidableEq, Repr

inductive MemberOp
  | dot | arrow
deriving DecidableEq, Repr

inductive ExprNode
  | number (value : Int64)
  | type (name : String)
  | variableNode (name : String)
  | binary (op : BinaryOp) (left right : ExprNode)
  | unary (op : UnaryOp) (operand : ExprNode)
  | preStep (increment : Bool) (operand : ExprNode)
  | postStep (increment : Bool) (operand : ExprNode)
  | memberAccess (op : MemberOp) (object : ExprNode) (member : String)
  | arrayIndex (array index : ExprNode)
  | addressOf (operand : ExprNode)
  | dereference (operand : ExprNode)
  | conditional (cond thenExpr elseExpr : ExprNode)
  | assign (left right : ExprNode)
  | cast (typeName : String) (operand : ExprNode)
  | sizeofExpr (operand : ExprNode)
  | sizeofType (typeName : String)
  | offsetof (typeName member : String)
  | typeof (operand : ExprNode)
  | processQualified (procId : ℕ) (expr : ExprNode)
deriving DecidableEq, Repr

def ExprNode.isReadOnly : ExprNode → Bool
  | .number _ | .type _ | .variableNode _ | .sizeofType _ | .offsetof _ _ => true
  | .preStep _ _ | .postStep _ _ | .assign _ _ => false
  | .binary _ left right => left.isReadOnly && right.isReadOnly
  | .unary _ operand | .memberAccess _ operand _ | .addressOf operand | .dereference operand
  | .cast _ operand | .sizeofExpr operand | .typeof operand | .processQualified _ operand =>
    operand.isReadOnly
  | .arrayIndex array index => array.isReadOnly && index.isReadOnly
  | .conditional cond thenExpr elseExpr =>
    cond.isReadOnly && thenExpr.isReadOnly && elseExpr.isReadOnly

/-! ## Evaluation -/

inductive Value
  | value (value : Int64)
  | address (address : UInt64)
deriving DecidableEq, Repr

structure EvalResult where
  value : Value
  typeName : String := ""
deriving DecidableEq, Repr

def EvalResult.asValue (result : EvalResult) : Int64 :=
  match result.value with
  | .value value => value
  | .address address => address.toInt64

def EvalResult.asAddress (result : EvalResult) : UInt64 :=
  match result.value with
  | .value value => value.toUInt64
  | .address address => address

/-- A saved memory image: the eight bytes at each address, or the message of a failed read. -/
abbrev Image := UInt64 → Except String Int64

/-- What an evaluation may use. A read returns the eight bytes at an address of a node, or throws. -/
structure Observation where
  processCount : ℕ
  requireSymbols : ℕ → Except String Unit
  requireSymbolAddress : ℕ → UInt64 → Except String Unit
  read : ℕ → Image

/-- A thrown message, or a result; `none` is a cleared `success` flag. -/
abbrev Evaluated := Except String (Option EvalResult)

def fail : Evaluated := .ok none

def ofValue (value : Int64) (typeName : String := "") : EvalResult := ⟨.value value, typeName⟩

def ofAddress (address : UInt64) (typeName : String := "") : EvalResult := ⟨.address address, typeName⟩

/-- Continue with the result of a successful evaluation. -/
def andThen (evaluated : Evaluated) (next : EvalResult → Evaluated) : Evaluated :=
  match evaluated with
  | .error message => .error message
  | .ok none => fail
  | .ok (some result) => next result

/-- The low bytes of a read, sign-extended; sizes other than 1, 2 and 4 keep all of it. -/
def narrow (size : ℕ) (value : Int64) : Int64 :=
  if size = 1 then value.toInt8.toInt64
  else if size = 2 then value.toInt16.toInt64
  else if size = 4 then value.toInt32.toInt64
  else value

def minLong : ℤ := -2 ^ 63

def maxLong : ℤ := 2 ^ 63 - 1

def fitsLong (value : ℤ) : Bool := decide (minLong ≤ value ∧ value ≤ maxLong)

/-- The operand combinations an observation refuses. -/
def invalidArithmetic (op : BinaryOp) (left right : Int64) : Bool :=
  match op with
  | .add => !fitsLong (left.toInt + right.toInt)
  | .sub => !fitsLong (left.toInt - right.toInt)
  | .mul => !fitsLong (left.toInt * right.toInt)
  | .div | .mod => decide (right = 0 ∨ (left.toInt = minLong ∧ right.toInt = -1))
  | .shl => decide (right < 0 ∨ 64 ≤ right.toInt ∨ left < 0 ∨ maxLong / 2 ^ right.toInt.toNat < left.toInt)
  | .shr => decide (right < 0 ∨ 64 ≤ right.toInt)
  | _ => false

def truth (holds : Bool) : Int64 := if holds then 1 else 0

def BinaryOp.apply (op : BinaryOp) (left right : Int64) : Int64 :=
  match op with
  | .add => left + right
  | .sub => left - right
  | .mul => left * right
  | .div => if right = 0 then 0 else left / right
  | .mod => if right = 0 then 0 else left % right
  | .lt => truth (left < right)
  | .gt => truth (left > right)
  | .le => truth (left ≤ right)
  | .ge => truth (left ≥ right)
  | .eq => truth (left == right)
  | .ne => truth (left != right)
  | .and => truth (left != 0 && right != 0)
  | .or => truth (left != 0 || right != 0)
  | .bitand => left &&& right
  | .bitor => left ||| right
  | .xor => left ^^^ right
  | .shl => left <<< right
  | .shr => left >>> right

def UnaryOp.apply (op : UnaryOp) (operand : Int64) : Int64 :=
  match op with
  | .neg => -operand
  | .not => truth (operand == 0)
  | .bitnot => ~~~operand

/-- Type names that need no symbols. -/
def primitiveTypes : List String :=
  ["int", "long", "longlong", "short", "char", "bool", "float", "double", "void", "unsigned", "signed",
    "unsignedint", "signedint", "unsignedlong", "signedlong", "unsignedlonglong", "signedlonglong",
    "unsignedshort", "signedshort", "unsignedchar", "signedchar"]

def keywords : List String :=
  ["sizeof", "offsetof", "typeof", "struct", "union", "enum", "int", "char", "short", "long", "float",
    "double", "void", "unsigned", "signed", "const", "static"]

def isIdentifier (name : String) : Bool :=
  match name.toList with
  | [] => false
  | first :: rest => (first.isAlpha || first == '_') && rest.all (fun c => c.isAlphanum || c == '_') &&
      !keywords.contains name

section Eval

variable (dwarf : Dwarf) (observation : Observation)

def requireObservationType (node : ℕ) (name : String) : Except String Unit :=
  let normalized := String.ofList (name.toList.filter fun c => c ≠ '*' && c ≠ ' ')
  if normalized ∈ primitiveTypes then .ok () else observation.requireSymbols node

/-- Address and type of a global. An observation looks at no live mapping to resolve a name. -/
def variableAddress (node : ℕ) (name : String) : Evaluated := do
  observation.requireSymbols node
  let address := dwarf.getGlobalAddr name
  if address ≠ 0 then
    observation.requireSymbolAddress node address
    return some (ofAddress address (dwarf.getGlobalType name))
  else fail

/-- Read a value of the given size at an address. -/
def readTyped (node : ℕ) (address : UInt64) (size : ℕ) (typeName : String) : Evaluated := do
  let value ← observation.read node address
  return some (ofValue (narrow size value) typeName)

/-- The value of a variable. Functions and untyped symbols stand for their address. -/
def loadVariable (node : ℕ) (location : EvalResult) : Evaluated :=
  let typeName := location.typeName
  let info := dwarf.getTypeInfo typeName
  if typeName = "func" ∨ typeName = "void*" then .ok (ofValue location.asAddress.toInt64 typeName)
  else if typeName = "" then readTyped observation node location.asAddress 8 ""
  else if info.isStruct || info.isArray then .ok (ofAddress location.asAddress typeName)
  else readTyped observation node location.asAddress (getTypeSize info) typeName

/-- The value of a member, whose size is that of its type, or four bytes when it is unknown. -/
def loadMember (node : ℕ) (location : EvalResult) : Evaluated :=
  let typeName := location.typeName
  let info := dwarf.getTypeInfo typeName
  if typeName = "" then readTyped observation node location.asAddress 8 ""
  else if info.isStruct || info.isArray then .ok (ofAddress location.asAddress typeName)
  else readTyped observation node location.asAddress (if info.size = 0 then 4 else info.size) typeName

/-- The value of an array element. -/
def loadElement (node : ℕ) (location : EvalResult) : Evaluated :=
  let typeName := location.typeName
  let info := dwarf.getTypeInfo typeName
  if typeName = "" then readTyped observation node location.asAddress 8 ""
  else if info.isStruct || info.isArray then .ok (ofAddress location.asAddress typeName)
  else if info.isPointer then readTyped observation node location.asAddress 8 typeName
  else readTyped observation node location.asAddress (getTypeSize info) typeName

/-- What a pointer value points to. A target of struct, array or pointer type is one more read. -/
def loadTarget (node : ℕ) (pointer : EvalResult) : Evaluated :=
  let inner := if pointer.typeName = "" then "" else getElementType pointer.typeName
  let info := dwarf.getTypeInfo inner
  if inner = "" then readTyped observation node pointer.asAddress 8 ""
  else if info.isStruct || info.isArray || info.isPointer then do
    let target ← observation.read node pointer.asAddress
    return some (ofAddress target.toUInt64 inner)
  else readTyped observation node pointer.asAddress (getTypeSize info) inner

/-- The type a member is looked up in: the element type behind an arrow, if there is one. -/
def memberBase (op : MemberOp) (base : EvalResult) : String :=
  let info := dwarf.getTypeInfo base.typeName
  if op = .arrow ∧ base.typeName ≠ "" ∧ info.isPointer ∧ info.elementType ≠ "" then info.elementType
  else base.typeName

def memberAddress (op : MemberOp) (base : EvalResult) (member : String) : Evaluated :=
  let baseType := memberBase dwarf op base
  if baseType = "" then fail
  else match (dwarf.getTypeInfo baseType).members.find? (·.name = member) with
    | none => fail
    | some found => .ok (ofAddress (base.asAddress + found.offset.toUInt64) found.typeName)

def elementAddress (base index : EvalResult) : EvalResult :=
  let elementType := getElementType base.typeName
  let size := if elementType = "" then 8 else getTypeSize (dwarf.getTypeInfo elementType)
  ofAddress (base.asAddress + index.asValue.toUInt64 * size.toUInt64) elementType

/-- Both operands of an operator that does not short-circuit. -/
def applyBinary (op : BinaryOp) (left right : Int64) : Evaluated :=
  if invalidArithmetic op left right then .error "Invalid arithmetic in observation expression"
  else .ok (ofValue (op.apply left right))

def applyUnary (op : UnaryOp) (operand : Int64) : Evaluated :=
  if op = .neg ∧ operand.toInt = minLong then .error "Invalid negation in observation expression"
  else .ok (ofValue (op.apply operand))

def typeNameOf (evaluated : Option EvalResult) : String := (evaluated.map (·.typeName)).getD ""

def sizeOf (typeName : String) : ℕ := if typeName = "" then 0 else dwarf.typeSize typeName

mutual

def eval (node : ℕ) : ExprNode → Evaluated
  | .number value => .ok (ofValue value)
  | .type _ => fail
  | .variableNode name =>
    andThen (variableAddress dwarf observation node name) (loadVariable dwarf observation node)
  | .binary op left right =>
    andThen (eval node left) fun leftResult =>
      match op with
      | .and =>
        if leftResult.asValue = 0 then .ok (ofValue 0)
        else andThen (eval node right) fun rightResult => .ok (ofValue (truth (rightResult.asValue != 0)))
      | .or =>
        if leftResult.asValue ≠ 0 then .ok (ofValue 1)
        else andThen (eval node right) fun rightResult => .ok (ofValue (truth (rightResult.asValue != 0)))
      | op =>
        andThen (eval node right) fun rightResult =>
          applyBinary op leftResult.asValue rightResult.asValue
  | .unary op operand => andThen (eval node operand) fun result => applyUnary op result.asValue
  | .preStep _ _ | .postStep _ _ | .assign _ _ => .error "Observation cannot modify guest memory"
  | .memberAccess op object member =>
    andThen (match op with
      | .arrow => andThen (eval node object) fun base => memberAddress dwarf .arrow base member
      | .dot => andThen (evalAddress node object) fun base => memberAddress dwarf .dot base member)
      (loadMember dwarf observation node)
  | .arrayIndex array index =>
    andThen (eval node array) fun base => andThen (eval node index) fun position =>
      loadElement dwarf observation node (elementAddress dwarf base position)
  | .addressOf operand =>
    andThen (evalAddress node operand) fun result =>
      .ok (some { result with
        typeName := if result.typeName = "" then "" else result.typeName ++ " *" })
  | .dereference operand => andThen (eval node operand) (loadTarget dwarf observation node)
  | .conditional cond thenExpr elseExpr =>
    andThen (eval node cond) fun result =>
      if result.asValue ≠ 0 then eval node thenExpr else eval node elseExpr
  | .cast typeName operand => do
    requireObservationType observation node typeName
    andThen (eval node operand) fun result => .ok (some { result with typeName := typeName })
  | .sizeofExpr operand => do
    let located ← evalAddress node operand
    let size := sizeOf dwarf (typeNameOf located)
    if size ≠ 0 then return some (ofValue (Int64.ofNat size))
    let result ← eval node operand
    let size := sizeOf dwarf (typeNameOf result)
    return some (ofValue (Int64.ofNat (if size = 0 then 8 else size)))
  | .sizeofType typeName => do
    requireObservationType observation node typeName
    let size := dwarf.typeSize typeName
    if size = 0 ∧ isIdentifier typeName then
      let located ← variableAddress dwarf observation node typeName
      return some (ofValue (Int64.ofNat (sizeOf dwarf (typeNameOf located))))
    return some (ofValue (Int64.ofNat size))
  | .offsetof typeName member => do
    observation.requireSymbols node
    let offset := dwarf.memberOffset typeName member
    if offset < 0 then fail else return some (ofValue offset)
  | .typeof operand => do
    let result ← eval node operand
    return some (ofValue 0 (typeNameOf result))
  | .processQualified procId expr =>
    if procId < observation.processCount then eval procId expr else fail

def evalAddress (node : ℕ) : ExprNode → Evaluated
  | .variableNode name => variableAddress dwarf observation node name
  | .memberAccess op object member =>
    match op with
    | .arrow => andThen (eval node object) fun base => memberAddress dwarf .arrow base member
    | .dot => andThen (evalAddress node object) fun base => memberAddress dwarf .dot base member
  | .arrayIndex array index =>
    andThen (eval node array) fun base => andThen (eval node index) fun position =>
      .ok (elementAddress dwarf base position)
  | .dereference operand =>
    andThen (eval node operand) fun pointer =>
      .ok (ofAddress pointer.asAddress
        (if pointer.typeName = "" then "" else getElementType pointer.typeName))
  | .processQualified procId expr =>
    if procId < observation.processCount then evalAddress procId expr else fail
  | _ => fail

end

/-- Parse and evaluate a text at a node. The cache of parsed texts is transparent. -/
def evaluateObservation (parse : String → Option ExprNode) (node : ℕ) (expression : String) :
    Except String Int64 :=
  if observation.processCount ≤ node then .error "Observation process index"
  else match parse expression with
    | none => .error ("Invalid observation expression: " ++ expression)
    | some ast =>
      if !ast.isReadOnly then .error "Observation expression must be read-only"
      else match eval dwarf observation node ast with
        | .error message => .error message
        | .ok none => .error ("Cannot evaluate observation expression: " ++ expression)
        | .ok (some result) => .ok result.asValue

end Eval

end DetSim.Expression
