import Mathlib
import DetSim.Model.Expression
import DetSim.Model.PageSnapshot

/-! # The interactive evaluator

The expressions of `p` and of the reads of a check hook, evaluated in the stopped processes. Reads are answered by the
snapshot of a process if there is one, and by the process otherwise. An assignment and a step write a word into the
process. The rest is the evaluator of the observations without their checks.
-/

namespace DetSim.Expression

abbrev Memory := ℕ → Option UInt8

/-- The bytes at an address, if all of them are mapped. -/
def peek (memory : Memory) : ℕ → ℕ → Option (List UInt8)
  | _, 0 => some []
  | address, length + 1 => do
    let byte ← memory address
    let rest ← peek memory (address + 1) length
    return byte :: rest

def overwrite (memory : Memory) (address : ℕ) (bytes : List UInt8) : Memory := fun position =>
  if address ≤ position ∧ position < address + bytes.length then bytes[position - address]? else memory position

/-- The stopped processes: the snapshot of each, if the state has one, and its memory. -/
structure Guest where
  snapshot : ℕ → Option Image
  memory : ℕ → Memory

/-- An evaluation in stopped processes; `none` is a cleared `success` flag. -/
abbrev Live := Guest → Except String (Option EvalResult × Guest)

def Live.fail : Live := fun guest => .ok (none, guest)

def Live.done (result : EvalResult) : Live := fun guest => .ok (some result, guest)

/-- Continue with the result of an evaluation, whether it succeeded or not. -/
def Live.whatever (evaluated : Live) (next : Option EvalResult → Live) : Live := fun guest =>
  match evaluated guest with
  | .error message => .error message
  | .ok (result, later) => next result later

/-- Continue with the result of a successful evaluation. -/
def Live.andThen (evaluated : Live) (next : EvalResult → Live) : Live := evaluated.whatever fun result =>
  match result with
  | none => Live.fail
  | some result => next result

/-- The eight bytes at an address of a process. A snapshot throws outside its regions. -/
def readMemoryLong (guest : Guest) (node : ℕ) (address : UInt64) : Except String (Option Int64) :=
  match guest.snapshot node with
  | some image => (image address).map some
  | none => .ok ((peek (guest.memory node) address.toNat 8).map fun bytes => Int64.ofNat (Packed.natOfBytes bytes))

def wordBytes (word : Int64) : List UInt8 := Codec.natBytes 8 word.toUInt64.toNat

/-- `PTRACE_POKEDATA`: a word is written if all of its bytes are mapped. -/
def pokeData (memory : Memory) (address : ℕ) (word : Int64) : Option Memory :=
  (peek memory address 8).map fun _ => overwrite memory address (wordBytes word)

def readWord (node : ℕ) (address : UInt64) : Live := fun guest =>
  match readMemoryLong guest node address with
  | .error message => .error message
  | .ok word => .ok (word.map ofValue, guest)

def readLive (node : ℕ) (address : UInt64) (size : ℕ) (typeName : String) : Live :=
  (readWord node address).andThen fun word => .done (ofValue (narrow size word.asValue) typeName)

/-- Write a word and return a value. -/
def store (node : ℕ) (address : UInt64) (word result : Int64) : Live := fun guest =>
  match pokeData (guest.memory node) address.toNat word with
  | none => .ok (none, guest)
  | some memory => .ok (some (ofValue result), { guest with memory := Function.update guest.memory node memory })

def stepWord (increment : Bool) (word : Int64) : Int64 := if increment then word + 1 else word - 1

section Eval

variable (dwarf : Dwarf)
-- what a name stands for in a process: a global, a symbol of a shared library or a local of the selected frame
variable (resolve : ℕ → String → Option EvalResult)
variable (processCount : ℕ)

/-- The load of a typed object, whose size is given by its type. A struct or array stands for its address. -/
def loadAs (size : TypeInfo → ℕ) (node : ℕ) (location : EvalResult) : Live :=
  let typeName := location.typeName
  let info := dwarf.getTypeInfo typeName
  if typeName = "" then readLive node location.asAddress 8 ""
  else if info.isStruct || info.isArray then .done (ofAddress location.asAddress typeName)
  else readLive node location.asAddress (size info) typeName

def loadVariableLive (node : ℕ) (location : EvalResult) : Live :=
  if location.typeName = "func" ∨ location.typeName = "void*" then
    .done (ofValue location.asAddress.toInt64 location.typeName)
  else loadAs dwarf getTypeSize node location

def loadMemberLive : ℕ → EvalResult → Live := loadAs dwarf fun info => if info.size = 0 then 4 else info.size

def loadElementLive : ℕ → EvalResult → Live := loadAs dwarf getTypeSize

def loadTargetLive (node : ℕ) (pointer : EvalResult) : Live :=
  let inner := if pointer.typeName = "" then "" else getElementType pointer.typeName
  let info := dwarf.getTypeInfo inner
  if inner = "" then readLive node pointer.asAddress 8 ""
  else if info.isStruct || info.isArray || info.isPointer then
    (readWord node pointer.asAddress).andThen fun target => .done (ofAddress target.asAddress inner)
  else readLive node pointer.asAddress (getTypeSize info) inner

def variableLive (node : ℕ) (name : String) : Live := fun guest => .ok (resolve node name, guest)

def memberLive (op : MemberOp) (base : EvalResult) (member : String) : Live := fun guest =>
  (memberAddress dwarf op base member).map fun found => (found, guest)

mutual

def evalLive (node : ℕ) : ExprNode → Live
  | .number value => .done (ofValue value)
  | .type _ => .fail
  | .variableNode name => (variableLive resolve node name).andThen (loadVariableLive dwarf node)
  | .binary op left right =>
    (evalLive node left).andThen fun leftResult =>
      match op with
      | .and =>
        if leftResult.asValue = 0 then .done (ofValue 0)
        else (evalLive node right).andThen fun rightResult => .done (ofValue (truth (rightResult.asValue != 0)))
      | .or =>
        if leftResult.asValue ≠ 0 then .done (ofValue 1)
        else (evalLive node right).andThen fun rightResult => .done (ofValue (truth (rightResult.asValue != 0)))
      | op =>
        (evalLive node right).andThen fun rightResult =>
          .done (ofValue (op.apply leftResult.asValue rightResult.asValue))
  | .unary op operand => (evalLive node operand).andThen fun result => .done (ofValue (op.apply result.asValue))
  | .preStep increment operand =>
    (evalAddressLive node operand).andThen fun location =>
      (readWord node location.asAddress).andThen fun old =>
        store node location.asAddress (stepWord increment old.asValue) (stepWord increment old.asValue)
  | .postStep increment operand =>
    (evalAddressLive node operand).andThen fun location =>
      (readWord node location.asAddress).andThen fun old =>
        store node location.asAddress (stepWord increment old.asValue) old.asValue
  | .assign left right =>
    (evalAddressLive node left).andThen fun location =>
      (evalLive node right).andThen fun value => store node location.asAddress value.asValue value.asValue
  | .memberAccess op object member =>
    Live.andThen (match op with
      | .arrow => (evalLive node object).andThen fun base => memberLive dwarf .arrow base member
      | .dot => (evalAddressLive node object).andThen fun base => memberLive dwarf .dot base member)
      (loadMemberLive dwarf node)
  | .arrayIndex array index =>
    Live.andThen ((evalLive node array).andThen fun base => (evalLive node index).andThen fun position =>
      .done (elementAddress dwarf base position)) (loadElementLive dwarf node)
  | .addressOf operand =>
    (evalAddressLive node operand).andThen fun result =>
      .done { result with typeName := if result.typeName = "" then "" else result.typeName ++ " *" }
  | .dereference operand => (evalLive node operand).andThen (loadTargetLive dwarf node)
  | .conditional cond thenExpr elseExpr =>
    (evalLive node cond).andThen fun result =>
      if result.asValue ≠ 0 then evalLive node thenExpr else evalLive node elseExpr
  | .cast typeName operand =>
    (evalLive node operand).andThen fun result => .done { result with typeName := typeName }
  | .sizeofExpr operand =>
    (evalAddressLive node operand).whatever fun located =>
      if sizeOf dwarf (typeNameOf located) ≠ 0 then
        .done (ofValue (Int64.ofNat (sizeOf dwarf (typeNameOf located))))
      else (evalLive node operand).whatever fun result =>
        let size := sizeOf dwarf (typeNameOf result)
        .done (ofValue (Int64.ofNat (if size = 0 then 8 else size)))
  | .sizeofType typeName =>
    let size := dwarf.typeSize typeName
    if size = 0 ∧ isIdentifier typeName then
      (variableLive resolve node typeName).whatever fun located =>
        .done (ofValue (Int64.ofNat (sizeOf dwarf (typeNameOf located))))
    else .done (ofValue (Int64.ofNat size))
  | .offsetof typeName member =>
    let offset := dwarf.memberOffset typeName member
    if offset < 0 then .fail else .done (ofValue offset)
  | .typeof operand => (evalLive node operand).whatever fun result => .done (ofValue 0 (typeNameOf result))
  | .processQualified procId expr => if procId < processCount then evalLive procId expr else .fail

def evalAddressLive (node : ℕ) : ExprNode → Live
  | .variableNode name => variableLive resolve node name
  | .memberAccess op object member =>
    match op with
    | .arrow => (evalLive node object).andThen fun base => memberLive dwarf .arrow base member
    | .dot => (evalAddressLive node object).andThen fun base => memberLive dwarf .dot base member
  | .arrayIndex array index =>
    (evalLive node array).andThen fun base => (evalLive node index).andThen fun position =>
      .done (elementAddress dwarf base position)
  | .dereference operand =>
    (evalLive node operand).andThen fun pointer =>
      .done (ofAddress pointer.asAddress
        (if pointer.typeName = "" then "" else getElementType pointer.typeName))
  | .processQualified procId expr => if procId < processCount then evalAddressLive procId expr else .fail
  | _ => .fail

end

end Eval

end DetSim.Expression
