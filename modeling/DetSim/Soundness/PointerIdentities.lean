import Mathlib
import DetSim.Model.Expression
import DetSim.Soundness.SnapshotReads

/-! # Pointer identities

In C, `*e` is `e[0]`, `*&e` is `e`, `(*e).m` is `e->m` and `e[i]` is `*(e + i)`. Each form is evaluated by code of its own.
Dereferencing reads once more where the object is a struct or an array, taking an address and removing it again keeps
only names of types without brackets, an arrow looks for the element type in another place than a star, and a sum is
neither scaled nor typed. The identities hold exactly where none of this matters.
-/

namespace DetSim.Expression

open Snapshot (ImageRegion imageRead)

/-- What a view of an image answers to a read of eight bytes. -/
def readSaved (image : List ImageRegion) (address : UInt64) : Except String Int64 :=
  match imageRead image address.toNat 8 with
  | some bytes => .ok (Int64.ofNat (Packed.natOfBytes bytes))
  | none => .error "Snapshot read outside captured regions"

def ExprNode.isLvalue : ExprNode → Bool
  | .variableNode _ | .memberAccess _ _ _ | .arrayIndex _ _ | .dereference _ => true
  | _ => false

/-! ## Lvalues -/

theorem andThen_assoc (evaluated : Evaluated) (first second : EvalResult → Evaluated) :
    andThen (andThen evaluated first) second = andThen evaluated fun result => andThen (first result) second := by
  rcases evaluated with _ | _ | _ <;> rfl

section Lvalues

variable {dwarf : Dwarf} {observation : Observation} {node : ℕ}

/-- A variable, a member and an element are loaded from their address. -/
theorem eval_variableNode (name : String) : eval dwarf observation node (.variableNode name) =
    andThen (evalAddress dwarf observation node (.variableNode name)) (loadVariable dwarf observation node) := by
  rw [eval, evalAddress]

theorem eval_memberAccess (op : MemberOp) (object : ExprNode) (member : String) :
    eval dwarf observation node (.memberAccess op object member) =
      andThen (evalAddress dwarf observation node (.memberAccess op object member))
        (loadMember dwarf observation node) := by
  cases op <;> simp only [eval, evalAddress]

theorem eval_arrayIndex (array index : ExprNode) : eval dwarf observation node (.arrayIndex array index) =
    andThen (evalAddress dwarf observation node (.arrayIndex array index)) (loadElement dwarf observation node) := by
  rw [eval, evalAddress, andThen_assoc]
  simp only [andThen_assoc]
  rfl

end Lvalues

/-! ## Same objects -/

/-- What an evaluation says of an object: value or address, with the name of the type. It may fail. -/
def outcome : Evaluated → Option (Int64 × String)
  | .ok (some result) => some (result.asValue, result.typeName)
  | _ => none

@[simp] theorem outcome_error (message : String) : outcome (.error message) = none := rfl

@[simp] theorem outcome_fail : outcome (.ok none) = none := rfl

@[simp] theorem outcome_some (result : EvalResult) :
    outcome (.ok (some result)) = some (result.asValue, result.typeName) := rfl

section Identities

variable (dwarf : Dwarf) (observation : Observation) (node : ℕ)

/-- Two expressions denote the same object: with the same value, address and type, or none of them does. -/
def SameObject (first second : ExprNode) : Prop :=
  outcome (eval dwarf observation node first) = outcome (eval dwarf observation node second) ∧
    outcome (evalAddress dwarf observation node first) = outcome (evalAddress dwarf observation node second)

/-- A struct or array that begins with its own address. -/
def Direct (typeName : String) (address : UInt64) : Prop :=
  typeName ≠ "" → ((dwarf.getTypeInfo typeName).isStruct || (dwarf.getTypeInfo typeName).isArray) = true →
    observation.read node address = .ok address.toInt64

def ExprNode.isDereference : ExprNode → Bool
  | .dereference _ => true
  | _ => false

/-- Offset and type of a member. -/
def lookup (typeName member : String) : Option (UInt64 × String) :=
  if typeName = "" then none
  else ((dwarf.getTypeInfo typeName).members.find? (·.name = member)).map fun found =>
    (found.offset.toUInt64, found.typeName)

variable {dwarf observation node}

/-- The type of what a pointer to an object points to, by its name. -/
def behind (typeName : String) : String := if typeName = "" then "" else getElementType (typeName ++ " *")

/-- The size of a read of an object. -/
def readSize (dwarf : Dwarf) (typeName : String) : ℕ :=
  let info := dwarf.getTypeInfo typeName
  if typeName = "" ∨ (info.isStruct || info.isArray) = true then 8 else getTypeSize info

/-- A struct or array stands for its address, another object is read. -/
def loaded (dwarf : Dwarf) (observation : Observation) (node : ℕ) (address : UInt64) (typeName : String) :
    Option (Int64 × String) :=
  let info := dwarf.getTypeInfo typeName
  if typeName ≠ "" ∧ (info.isStruct || info.isArray) = true then some (address.toInt64, typeName)
  else outcome (readTyped observation node address (readSize dwarf typeName) typeName)

/-! ## Loads -/

theorem toInt64_asAddress (result : EvalResult) : result.asAddress.toInt64 = result.asValue := by
  rcases result with ⟨value | address, typeName⟩ <;> simp [EvalResult.asAddress, EvalResult.asValue]

theorem outcome_readTyped (address : UInt64) (size : ℕ) (typeName : String) :
    outcome (readTyped observation node address size typeName) =
      (observation.read node address).toOption.map fun value => (narrow size value, typeName) := by
  unfold readTyped
  cases observation.read node address <;> rfl

theorem loaded_eq_read_iff (address : UInt64) (typeName : String) :
    outcome (readTyped observation node address (readSize dwarf typeName) typeName) =
      loaded dwarf observation node address typeName ↔ Direct dwarf observation node typeName address := by
  unfold loaded Direct
  dsimp only
  split
  next aggregate =>
    have eight : readSize dwarf typeName = 8 := by simp [readSize, aggregate.2]
    rw [eight, outcome_readTyped]
    simp only [aggregate, ne_eq, not_false_eq_true, forall_const]
    cases observation.read node address <;> simp [Except.toOption, narrow]
  next plain =>
    refine iff_of_true rfl fun named aggregate => absurd ⟨named, aggregate⟩ plain

theorem elementType_of_name (name : String) :
    (if name = "" then "" else getElementType name) = getElementType name := by
  split
  next empty => rw [empty]; decide
  next => rfl

/-- Dereferencing always reads. -/
theorem outcome_loadTarget (pointer : EvalResult) :
    outcome (loadTarget dwarf observation node pointer) =
      outcome (readTyped observation node pointer.asAddress (readSize dwarf (getElementType pointer.typeName))
        (getElementType pointer.typeName)) := by
  unfold loadTarget
  rw [elementType_of_name]
  generalize getElementType pointer.typeName = typeName
  dsimp only
  split
  next empty => subst empty; simp [readSize]
  next named =>
    split
    next reads =>
      have eight : readSize dwarf typeName = 8 := by
        unfold readSize getTypeSize
        simp only [Bool.or_eq_true] at reads ⊢
        split_ifs <;> simp_all
      rw [eight, outcome_readTyped]
      cases observation.read node pointer.asAddress <;> simp [bind, Except.bind, pure, Except.pure, Except.toOption,
        ofAddress, EvalResult.asValue, narrow]
    next plain =>
      have size : readSize dwarf typeName = getTypeSize (dwarf.getTypeInfo typeName) := by
        simp only [Bool.or_eq_true, not_or] at plain
        simp [readSize, named, plain]
      rw [size]

theorem memberAddress_eq (op : MemberOp) (base : EvalResult) (member : String) :
    memberAddress dwarf op base member = .ok ((lookup dwarf (memberBase dwarf op base) member).map fun found =>
      ofAddress (base.asAddress + found.1) found.2) := by
  unfold memberAddress lookup
  split
  next none => simp [none, fail]
  next some =>
    rw [if_neg some]
    cases (dwarf.getTypeInfo (memberBase dwarf op base)).members.find? (·.name = member) <;> rfl

/-- The common shape of the other loads. -/
theorem outcome_load {load : Evaluated} {address : UInt64} {typeName : String}
    (untyped : typeName = "" → load = readTyped observation node address 8 "")
    (aggregate : typeName ≠ "" → ((dwarf.getTypeInfo typeName).isStruct || (dwarf.getTypeInfo typeName).isArray) = true →
      load = .ok (some (ofAddress address typeName)))
    (plain : typeName ≠ "" → ¬((dwarf.getTypeInfo typeName).isStruct || (dwarf.getTypeInfo typeName).isArray) = true →
      load = readTyped observation node address (getTypeSize (dwarf.getTypeInfo typeName)) typeName) :
    outcome load = loaded dwarf observation node address typeName := by
  unfold loaded readSize
  dsimp only
  by_cases named : typeName = ""
  · rw [untyped named]
    simp [named]
  · split
    next reads =>
      rw [aggregate named reads.2]
      rfl
    next reads =>
      have simple := not_and.mp reads named
      rw [plain named simple, if_neg (not_or.mpr ⟨named, simple⟩)]

theorem outcome_loadElement (location : EvalResult) : outcome (loadElement dwarf observation node location) =
    loaded dwarf observation node location.asAddress location.typeName := by
  apply outcome_load
  · intro untyped
    simp [loadElement, untyped]
  · intro named aggregate
    simp_all [loadElement]
  · intro named simple
    simp_all [loadElement]
    intro pointer
    simp [getTypeSize, pointer]

/-- The types of objects: neither a function nor a symbol without a type. -/
def ObjectType (typeName : String) : Prop := typeName ≠ "func" ∧ typeName ≠ "void*"

/-! ## Identities -/

/-- An lvalue without an address has no value. -/
theorem outcome_eval_of_none {expr : ExprNode} (lvalue : expr.isLvalue = true)
    (none : outcome (evalAddress dwarf observation node expr) = none) :
    outcome (eval dwarf observation node expr) = Option.none := by
  have nothing : ∀ (evaluated : Evaluated) load, outcome evaluated = Option.none →
      outcome (andThen evaluated load) = Option.none := by
    rintro (_ | _ | result) load none
    · rfl
    · rfl
    · cases none
  cases expr with
  | variableNode name => exact eval_variableNode name ▸ nothing _ _ none
  | memberAccess op object member => exact eval_memberAccess op object member ▸ nothing _ _ none
  | arrayIndex array index => exact eval_arrayIndex array index ▸ nothing _ _ none
  | dereference operand =>
    rw [evalAddress] at none
    rw [eval]
    rcases evaluated : eval dwarf observation node operand with _ | _ | pointer
    · rfl
    · rfl
    · rw [evaluated] at none
      cases none
  | _ => cases lvalue

/-- A pointer and its first element are the same object, unless the object would be read once more. -/
theorem dereference_iff (expr : ExprNode) :
    SameObject dwarf observation node (.dereference expr) (.arrayIndex expr (.number 0)) ↔
      ∀ base, eval dwarf observation node expr = .ok (some base) →
        Direct dwarf observation node (getElementType base.typeName) base.asAddress := by
  unfold SameObject
  rw [eval_arrayIndex]
  simp only [eval, evalAddress]
  rcases eval dwarf observation node expr with _ | _ | base
  · simp [andThen]
  · simp [andThen, fail]
  have first : elementAddress dwarf base (ofValue 0) = ofAddress base.asAddress (getElementType base.typeName) := by
    simp [elementAddress, ofValue, EvalResult.asValue, show Int64.toUInt64 0 = 0 from rfl]
  simp only [andThen, first, elementType_of_name, outcome_loadElement, outcome_loadTarget, and_true]
  rw [show (ofAddress base.asAddress (getElementType base.typeName)).asAddress = base.asAddress from rfl,
    show (ofAddress base.asAddress (getElementType base.typeName)).typeName = getElementType base.typeName from rfl,
    loaded_eq_read_iff]
  simp

/-- A member behind a star and behind an arrow are the same object when both look it up alike. -/
theorem arrow_iff (expr : ExprNode) (member : String) :
    SameObject dwarf observation node (.memberAccess .dot (.dereference expr) member) (.memberAccess .arrow expr member) ↔
      ∀ base, eval dwarf observation node expr = .ok (some base) →
        lookup dwarf (getElementType base.typeName) member = lookup dwarf (memberBase dwarf .arrow base) member := by
  unfold SameObject
  simp only [eval_memberAccess, evalAddress]
  rcases eval dwarf observation node expr with _ | _ | base
  · simp [andThen]
  · simp [andThen, fail]
  have apart : Function.Injective fun found : UInt64 × String => ((base.asAddress + found.1).toInt64, found.2) := by
    rintro ⟨offset, first⟩ ⟨offset', second⟩ same
    obtain ⟨same, rfl⟩ := Prod.mk.inj same
    have sum := congrArg Int64.toUInt64 same
    simp only [UInt64.toUInt64_toInt64] at sum
    rw [add_left_cancel sum]
  have plain : memberBase dwarf .dot (ofAddress base.asAddress (getElementType base.typeName)) =
      getElementType base.typeName := by simp [memberBase, ofAddress]
  have denoted : ∀ found : Option (UInt64 × String),
      outcome (.ok (found.map fun found => ofAddress (base.asAddress + found.1) found.2)) =
        found.map fun found => ((base.asAddress + found.1).toInt64, found.2) := by
    rintro (_ | _) <;> rfl
  simp only [Except.ok.injEq, Option.some.injEq, forall_eq']
  change outcome (andThen (memberAddress dwarf .dot (ofAddress base.asAddress _) member) _) =
      outcome (andThen (memberAddress dwarf .arrow base member) _) ∧
    outcome (memberAddress dwarf .dot (ofAddress base.asAddress _) member) =
      outcome (memberAddress dwarf .arrow base member) ↔ _
  rw [elementType_of_name, memberAddress_eq, memberAddress_eq, plain]
  constructor
  · rintro ⟨-, same⟩
    exact Option.map_injective apart ((denoted _).symm.trans (same.trans (denoted _)))
  · intro same
    rw [same]
    exact ⟨rfl, rfl⟩

/-- Only the index zero is the same when it is scaled: seven and the number of addresses are coprime. -/
theorem eq_zero_of_scaled {index : UInt64} (scaled : index * 8 = index) : index = 0 := by
  have nat := congrArg UInt64.toNat scaled
  rw [UInt64.toNat_mul, show (8 : UInt64).toNat = 8 from rfl] at nat
  have divided := Nat.div_add_mod (index.toNat * 8) (2 ^ 64)
  rw [nat] at divided
  have multiple : 2 ^ 64 ∣ 7 * index.toNat := ⟨index.toNat * 8 / 2 ^ 64, by linarith⟩
  have divides : 2 ^ 64 ∣ index.toNat := Nat.Coprime.dvd_of_dvd_mul_left (by norm_num) multiple
  exact UInt64.toNat_inj.mp (Nat.eq_zero_of_dvd_of_lt divides index.toNat_lt)

/-- An element and a dereferenced sum are the same object only at index zero of a pointer without a type. -/
theorem sum_iff (expr index : ExprNode) :
    SameObject dwarf observation node (.arrayIndex expr index) (.dereference (.binary .add expr index)) ↔
      ∀ base position, eval dwarf observation node expr = .ok (some base) →
        eval dwarf observation node index = .ok (some position) →
        getElementType base.typeName = "" ∧ position.asValue = 0 := by
  unfold SameObject
  rw [eval_arrayIndex]
  simp only [eval, evalAddress]
  rcases eval dwarf observation node expr with _ | _ | base
  · simp [andThen]
  · simp [andThen, fail]
  rcases eval dwarf observation node index with _ | _ | position
  · simp [andThen]
  · simp [andThen, fail]
  simp only [Except.ok.injEq, Option.some.injEq]
  change outcome (loadElement dwarf observation node (elementAddress dwarf base position)) =
      outcome (andThen (applyBinary .add base.asValue position.asValue) (loadTarget dwarf observation node)) ∧
    some ((elementAddress dwarf base position).asValue, getElementType base.typeName) =
      outcome (andThen (applyBinary .add base.asValue position.asValue) _) ↔ _
  constructor
  · rintro ⟨-, same⟩ _ _ rfl rfl
    unfold applyBinary at same
    split at same
    next => cases same
    next =>
    obtain ⟨address, type⟩ := Prod.mk.inj (Option.some.inj same)
    have untyped : getElementType base.typeName = "" := type
    refine ⟨untyped, ?_⟩
    change (base.asAddress + position.asValue.toUInt64 * _).toInt64 = (base.asValue + position.asValue).toUInt64.toInt64
      at address
    rw [if_pos untyped, ← toInt64_asAddress base] at address
    have sum := congrArg Int64.toUInt64 address
    simp only [UInt64.toUInt64_toInt64, Int64.toUInt64_add] at sum
    have scaled : position.asValue.toUInt64 * 8 = position.asValue.toUInt64 := add_left_cancel sum
    exact congrArg UInt64.toInt64 (eq_zero_of_scaled scaled)
  · intro only
    obtain ⟨untyped, zero⟩ := only base position rfl rfl
    have here : elementAddress dwarf base position = ofAddress base.asAddress "" := by
      simp [elementAddress, untyped, zero, show Int64.toUInt64 0 = 0 from rfl]
    have sum : applyBinary .add base.asValue position.asValue = .ok (some (ofValue base.asValue)) := by
      have low := base.asValue.le_toInt
      have high := base.asValue.toInt_lt
      have fits : fitsLong base.asValue.toInt = true := by
        rw [fitsLong, decide_eq_true_iff, minLong, maxLong]
        omega
      simp [applyBinary, invalidArithmetic, zero, fits, BinaryOp.apply]
    have back : base.asValue.toUInt64 = base.asAddress := by rw [← toInt64_asAddress, UInt64.toUInt64_toInt64]
    rw [here, sum, untyped, outcome_loadElement]
    have same : (ofValue base.asValue).asAddress = base.asAddress := back
    have none : getElementType (ofValue base.asValue).typeName = "" := by
      change getElementType "" = ""
      decide
    simp only [andThen, outcome_loadTarget, same, none]
    simp [loaded, ofAddress, EvalResult.asAddress, readSize]

/-- What an lvalue of a process is read as: a dereference is read, another lvalue unless it stands for its address. -/
def lvalueAt (dwarf : Dwarf) (observation : Observation) (node : ℕ) (expr : ExprNode) (location : EvalResult) :
    Option (Int64 × String) :=
  if expr.isDereference then
    outcome (readTyped observation node location.asAddress (readSize dwarf location.typeName) location.typeName)
  else loaded dwarf observation node location.asAddress location.typeName

/-- The name of the type of an lvalue survives, and a node reads at its address what its process reads it as. -/
def ReadsAlike (dwarf : Dwarf) (observation : Observation) (node home : ℕ) (expr : ExprNode) : Prop :=
  ∀ location, evalAddress dwarf observation home expr = .ok (some location) →
    behind location.typeName = location.typeName ∧
      outcome (readTyped observation node location.asAddress (readSize dwarf location.typeName) location.typeName) =
        lvalueAt dwarf observation home expr location

variable (sized : ∀ name, (dwarf.getTypeInfo name).isPointer = true → (dwarf.getTypeInfo name).size = 8)
include sized

theorem outcome_lvalue {expr : ExprNode} (lvalue : expr.isLvalue = true) {location : EvalResult}
    (located : evalAddress dwarf observation node expr = .ok (some location)) (object : ObjectType location.typeName) :
    outcome (eval dwarf observation node expr) = lvalueAt dwarf observation node expr location := by
  cases expr with
  | variableNode name =>
    rw [eval_variableNode, located]
    change outcome (loadVariable dwarf observation node location) = loaded _ _ _ _ _
    apply outcome_load <;> intros <;> simp_all [loadVariable, object.1, object.2]
  | memberAccess op base member =>
    rw [eval_memberAccess, located]
    change outcome (loadMember dwarf observation node location) = loaded _ _ _ _ _
    apply outcome_load
    · intro untyped
      simp [loadMember, untyped]
    · intro named aggregate
      simp_all [loadMember]
    · intro named simple
      have size : (if (dwarf.getTypeInfo location.typeName).size = 0 then 4
          else (dwarf.getTypeInfo location.typeName).size) = getTypeSize (dwarf.getTypeInfo location.typeName) := by
        have eight := sized location.typeName
        unfold getTypeSize
        split_ifs <;> simp_all
      simp_all [loadMember]
  | arrayIndex array index =>
    rw [eval_arrayIndex, located]
    exact outcome_loadElement location
  | dereference operand =>
    rw [evalAddress] at located
    rw [eval]
    rcases evaluated : eval dwarf observation node operand with _ | _ | pointer <;> rw [evaluated] at located
    · cases located
    · cases located
    · obtain rfl := Option.some.inj (Except.ok.inj located)
      rw [elementType_of_name]
      exact outcome_loadTarget pointer
  | _ => cases lvalue

/-- The object behind the address of an lvalue of a process is read where the address is taken. -/
theorem addressOf_home_iff {home : ℕ} {outer expr : ExprNode} (lvalue : expr.isLvalue = true)
    (object : ∀ location, evalAddress dwarf observation home expr = .ok (some location) → ObjectType location.typeName)
    (value : eval dwarf observation node outer = eval dwarf observation home expr)
    (place : evalAddress dwarf observation node outer = evalAddress dwarf observation home expr) :
    SameObject dwarf observation node (.dereference (.addressOf outer)) outer ↔
      ReadsAlike dwarf observation node home expr := by
  unfold SameObject ReadsAlike
  simp only [eval, evalAddress, value, place]
  rcases found : evalAddress dwarf observation home expr with _ | _ | location
  · simp [andThen, outcome_eval_of_none lvalue (congrArg outcome found)]
  · simp [andThen, fail, outcome_eval_of_none lvalue (congrArg outcome found)]
  have inner : getElementType (if location.typeName = "" then "" else location.typeName ++ " *") =
      behind location.typeName := by
    unfold behind
    split
    next => decide
    next => rfl
  rw [outcome_lvalue sized lvalue found (object location found)]
  simp only [andThen, outcome_loadTarget, elementType_of_name]
  rw [inner]
  change outcome (readTyped observation node location.asAddress _ _) = _ ∧
    some (location.asAddress.toInt64, behind location.typeName) = some (location.asValue, location.typeName) ↔ _
  simp only [toInt64_asAddress, Option.some.injEq, Prod.mk.injEq, true_and, Except.ok.injEq, forall_eq']
  rw [and_comm]
  refine and_congr_right fun same => ?_
  rw [same]

theorem addressOf_iff {expr : ExprNode} (lvalue : expr.isLvalue = true)
    (object : ∀ location, evalAddress dwarf observation node expr = .ok (some location) → ObjectType location.typeName) :
    SameObject dwarf observation node (.dereference (.addressOf expr)) expr ↔
      ∀ location, evalAddress dwarf observation node expr = .ok (some location) →
        behind location.typeName = location.typeName ∧ (expr.isDereference = false →
          Direct dwarf observation node location.typeName location.asAddress) := by
  rw [addressOf_home_iff sized lvalue object rfl rfl]
  refine forall₂_congr fun location _ => and_congr_right fun _ => ?_
  unfold lvalueAt
  cases expr.isDereference with
  | true => simp
  | false => simpa using loaded_eq_read_iff location.asAddress location.typeName

/-- The address of an lvalue of another process is read in the process that asks. -/
theorem addressOf_processQualified_iff {procId : ℕ} {expr : ExprNode} (lvalue : expr.isLvalue = true)
    (object : ∀ location, evalAddress dwarf observation procId expr = .ok (some location) →
      ObjectType location.typeName) :
    SameObject dwarf observation node (.dereference (.addressOf (.processQualified procId expr)))
        (.processQualified procId expr) ↔
      (procId < observation.processCount → ReadsAlike dwarf observation node procId expr) := by
  by_cases known : procId < observation.processCount
  · rw [addressOf_home_iff sized lvalue object (by rw [eval, if_pos known]) (by rw [evalAddress, if_pos known])]
    exact (imp_iff_right known).symm
  · refine iff_of_true ?_ fun other => absurd other known
    simp [SameObject, eval, evalAddress, known, andThen, fail]

/-- When the four identities of C hold. A sum names another object, or none, whenever the pointer has an element
type. -/
theorem pointer_identities_iff (expr index : ExprNode) (member : String) :
    (SameObject dwarf observation node (.dereference expr) (.arrayIndex expr (.number 0)) ↔
      ∀ base, eval dwarf observation node expr = .ok (some base) →
        Direct dwarf observation node (getElementType base.typeName) base.asAddress) ∧
    (expr.isLvalue = true →
      (∀ location, evalAddress dwarf observation node expr = .ok (some location) → ObjectType location.typeName) →
      (SameObject dwarf observation node (.dereference (.addressOf expr)) expr ↔
        ∀ location, evalAddress dwarf observation node expr = .ok (some location) →
          behind location.typeName = location.typeName ∧ (expr.isDereference = false →
            Direct dwarf observation node location.typeName location.asAddress))) ∧
    (∀ procId, expr.isLvalue = true →
      (∀ location, evalAddress dwarf observation procId expr = .ok (some location) → ObjectType location.typeName) →
      (SameObject dwarf observation node (.dereference (.addressOf (.processQualified procId expr)))
          (.processQualified procId expr) ↔
        (procId < observation.processCount → ReadsAlike dwarf observation node procId expr))) ∧
    (SameObject dwarf observation node (.memberAccess .dot (.dereference expr) member)
        (.memberAccess .arrow expr member) ↔
      ∀ base, eval dwarf observation node expr = .ok (some base) →
        lookup dwarf (getElementType base.typeName) member = lookup dwarf (memberBase dwarf .arrow base) member) ∧
    (SameObject dwarf observation node (.arrayIndex expr index) (.dereference (.binary .add expr index)) ↔
      ∀ base position, eval dwarf observation node expr = .ok (some base) →
        eval dwarf observation node index = .ok (some position) →
        getElementType base.typeName = "" ∧ position.asValue = 0) :=
  ⟨dereference_iff expr, addressOf_iff sized, fun _ => addressOf_processQualified_iff sized,
    arrow_iff expr member, sum_iff expr index⟩

end Identities

/-! ## A pointer to a struct -/

/-- A pointer at 4096, and behind it a struct at 4104 whose first word is one. -/
def pointerAndPair : ImageRegion where
  start := 4096
  prot := 3
  flags := ⟨114, 119, 45, 112, 0⟩
  bytes := [8, 16, 0, 0, 0, 0, 0, 0, 1, 0, 0, 0, 0, 0, 0, 0, 2, 0, 0, 0, 0, 0, 0, 0]
  nonempty := List.cons_ne_nil _ _
  bounded := by decide

def pairDwarf : Dwarf where
  getGlobalAddr _ := 4096
  getGlobalType name := if name = "p" then "pair *" else "long *"
  getTypeInfo name :=
    if name = "pair" then { size := 16, isStruct := true } else if name = "long" then { size := 8 }
    else { size := 8, isPointer := true }
  typeSize _ := 8
  memberOffset _ _ := -1

def pairObservation : Observation where
  processCount := 1
  requireSymbols _ := .ok ()
  requireSymbolAddress _ _ := .ok ()
  read _ := readSaved [pointerAndPair]

theorem pairDwarf_sized (name : String) (pointer : (pairDwarf.getTypeInfo name).isPointer = true) :
    (pairDwarf.getTypeInfo name).size = 8 := by
  simp only [pairDwarf] at pointer ⊢
  split_ifs at pointer ⊢
  rfl

/-- A pointer to a `long` keeps the first identity. -/
theorem pointer_identities_iff_long :
    SameObject pairDwarf pairObservation 0 (.dereference (.variableNode "q"))
      (.arrayIndex (.variableNode "q") (.number 0)) := by
  refine (pointer_identities_iff pairDwarf_sized (.variableNode "q") (.number 0) "").1.mpr fun base evaluated => ?_
  have value : eval pairDwarf pairObservation 0 (.variableNode "q") = .ok (some (ofValue 4104 "long *")) := by
    decide +kernel
  obtain rfl := Option.some.inj (Except.ok.inj (evaluated.symm.trans value))
  intro _ aggregate
  have plain : ((pairDwarf.getTypeInfo (getElementType "long *")).isStruct ||
    (pairDwarf.getTypeInfo (getElementType "long *")).isArray) = false := by decide +kernel
  exact absurd (plain.symm.trans aggregate) Bool.false_ne_true

/-- A struct behind a star is its first word, behind an index it is its address; and the second `long` behind an index is
2, behind a sum it is read one byte after the first. -/
theorem struct_behind_star :
    outcome (eval pairDwarf pairObservation 0 (.dereference (.variableNode "p"))) = some (1, "pair") ∧
    outcome (eval pairDwarf pairObservation 0 (.arrayIndex (.variableNode "p") (.number 0))) =
      some (4104, "pair") ∧
    outcome (eval pairDwarf pairObservation 0 (.arrayIndex (.variableNode "q") (.number 1))) = some (2, "long") ∧
    outcome (eval pairDwarf pairObservation 0 (.dereference (.binary .add (.variableNode "q") (.number 1)))) =
      some (144115188075855872, "") := by
  decide +kernel

end DetSim.Expression
