import DetSim.Model.Expression

/-! # The nodes an expression can observe

An evaluation uses memory and symbols of the node it runs at and of the nodes named by qualifiers
inside it, and of no other. An expression without qualifier therefore has the same value in two
states that agree on the memory of its node.
-/

namespace DetSim.Expression

/-- The nodes whose memory or symbols an evaluation at `node` may use. -/
def ExprNode.footprint (node : ℕ) : ExprNode → List ℕ
  | .number _ | .type _ | .preStep _ _ | .postStep _ _ | .assign _ _ => []
  | .variableNode _ | .sizeofType _ | .offsetof _ _ => [node]
  | .binary _ left right => left.footprint node ++ right.footprint node
  | .unary _ operand | .addressOf operand | .sizeofExpr operand | .typeof operand =>
    operand.footprint node
  | .memberAccess _ operand _ | .dereference operand | .cast _ operand => node :: operand.footprint node
  | .arrayIndex array index => node :: (array.footprint node ++ index.footprint node)
  | .conditional cond thenExpr elseExpr =>
    cond.footprint node ++ (thenExpr.footprint node ++ elseExpr.footprint node)
  | .processQualified procId expr => expr.footprint procId

/-- No process qualifier occurs in the expression. -/
def ExprNode.unqualified : ExprNode → Bool
  | .number _ | .type _ | .variableNode _ | .sizeofType _ | .offsetof _ _ => true
  | .binary _ left right | .assign left right | .arrayIndex left right =>
    left.unqualified && right.unqualified
  | .unary _ operand | .preStep _ operand | .postStep _ operand | .memberAccess _ operand _
  | .addressOf operand | .dereference operand | .cast _ operand | .sizeofExpr operand
  | .typeof operand => operand.unqualified
  | .conditional cond thenExpr elseExpr =>
    cond.unqualified && thenExpr.unqualified && elseExpr.unqualified
  | .processQualified _ _ => false

theorem ExprNode.eq_of_mem_footprint {expr : ExprNode} (unqualified : expr.unqualified = true)
    {node other : ℕ} (member : other ∈ expr.footprint node) : other = node := by
  induction expr with
  | number | type | preStep | postStep | assign => simp [footprint] at member
  | variableNode | sizeofType | offsetof => simpa [footprint] using member
  | unary _ _ ih | addressOf _ ih | sizeofExpr _ ih | typeof _ ih => exact ih unqualified member
  | memberAccess _ _ _ ih | dereference _ ih | cast _ _ ih =>
    exact (List.mem_cons.mp member).elim id (ih unqualified)
  | binary _ _ _ left right =>
    simp only [ExprNode.unqualified, Bool.and_eq_true] at unqualified
    exact (List.mem_append.mp member).elim (left unqualified.1) (right unqualified.2)
  | arrayIndex _ _ array index =>
    simp only [ExprNode.unqualified, Bool.and_eq_true] at unqualified
    rcases List.mem_cons.mp member with same | member
    · exact same
    · exact (List.mem_append.mp member).elim (array unqualified.1) (index unqualified.2)
  | conditional _ _ _ cond thenExpr elseExpr =>
    simp only [ExprNode.unqualified, Bool.and_eq_true] at unqualified
    simp only [footprint, List.mem_append] at member
    rcases member with member | member | member
    · exact cond unqualified.1.1 member
    · exact thenExpr unqualified.1.2 member
    · exact elseExpr unqualified.2 member
  | processQualified => simp [ExprNode.unqualified] at unqualified

/-! ## Agreement on the footprint -/

/-- The observations cannot be told apart at the node. -/
structure Observation.AgreeAt (left right : Observation) (node : ℕ) : Prop where
  requireSymbols : left.requireSymbols node = right.requireSymbols node
  requireSymbolAddress : left.requireSymbolAddress node = right.requireSymbolAddress node
  read : left.read node = right.read node

section Agreement

variable {dwarf : Dwarf} {left right : Observation} {node : ℕ}

theorem requireObservationType_congr (agree : left.AgreeAt right node) (name : String) :
    requireObservationType left node name = requireObservationType right node name := by
  simp only [requireObservationType, agree.requireSymbols]

theorem variableAddress_congr (agree : left.AgreeAt right node) (name : String) :
    variableAddress dwarf left node name = variableAddress dwarf right node name := by
  simp only [variableAddress, agree.requireSymbols, agree.requireSymbolAddress]

theorem readTyped_congr (agree : left.AgreeAt right node) (address : UInt64) (size : ℕ)
    (typeName : String) :
    readTyped left node address size typeName = readTyped right node address size typeName := by
  simp only [readTyped, agree.read]

theorem loadVariable_congr (agree : left.AgreeAt right node) :
    loadVariable dwarf left node = loadVariable dwarf right node := by
  funext location
  simp only [loadVariable, readTyped_congr agree]

theorem loadMember_congr (agree : left.AgreeAt right node) :
    loadMember dwarf left node = loadMember dwarf right node := by
  funext location
  simp only [loadMember, readTyped_congr agree]

theorem loadElement_congr (agree : left.AgreeAt right node) :
    loadElement dwarf left node = loadElement dwarf right node := by
  funext location
  simp only [loadElement, readTyped_congr agree]

theorem loadTarget_congr (agree : left.AgreeAt right node) :
    loadTarget dwarf left node = loadTarget dwarf right node := by
  funext pointer
  simp only [loadTarget, readTyped_congr agree, agree.read]

/-- Value and address of an expression depend only on the observation of its footprint. -/
theorem eval_congr (count : left.processCount = right.processCount) (expr : ExprNode) (node : ℕ)
    (agree : ∀ other ∈ expr.footprint node, left.AgreeAt right other) :
    eval dwarf left node expr = eval dwarf right node expr ∧
      evalAddress dwarf left node expr = evalAddress dwarf right node expr := by
  induction expr generalizing node with
  | number | type | preStep | postStep | assign => exact ⟨by simp only [eval], by simp only [evalAddress]⟩
  | variableNode name =>
    have here := agree node (List.mem_cons_self ..)
    simp only [eval, evalAddress, variableAddress_congr here, loadVariable_congr here, and_self]
  | binary op _ _ leftIH rightIH =>
    simp only [ExprNode.footprint, List.mem_append] at agree
    have first := leftIH node fun other member => agree other (.inl member)
    have second := rightIH node fun other member => agree other (.inr member)
    simp only [eval, evalAddress, first.1, second.1, and_self]
  | unary _ _ ih =>
    have operand := ih node agree
    simp only [eval, evalAddress, operand.1, and_self]
  | memberAccess op _ _ ih =>
    have here := agree node (List.mem_cons_self ..)
    have object := ih node fun other member => agree other (List.mem_cons_of_mem _ member)
    simp only [eval, evalAddress, object.1, object.2, loadMember_congr here, and_self]
  | arrayIndex _ _ arrayIH indexIH =>
    have here := agree node (List.mem_cons_self ..)
    simp only [ExprNode.footprint, List.mem_cons, List.mem_append] at agree
    have array := arrayIH node fun other member => agree other (.inr (.inl member))
    have index := indexIH node fun other member => agree other (.inr (.inr member))
    simp only [eval, evalAddress, array.1, index.1, loadElement_congr here, and_self]
  | addressOf _ ih =>
    have operand := ih node agree
    simp only [eval, evalAddress, operand.2, and_self]
  | dereference _ ih =>
    have here := agree node (List.mem_cons_self ..)
    have operand := ih node fun other member => agree other (List.mem_cons_of_mem _ member)
    simp only [eval, evalAddress, operand.1, loadTarget_congr here, and_self]
  | conditional _ _ _ condIH thenIH elseIH =>
    simp only [ExprNode.footprint, List.mem_append] at agree
    have cond := condIH node fun other member => agree other (.inl member)
    have thenExpr := thenIH node fun other member => agree other (.inr (.inl member))
    have elseExpr := elseIH node fun other member => agree other (.inr (.inr member))
    simp only [eval, evalAddress, cond.1, thenExpr.1, elseExpr.1, and_self]
  | cast typeName _ ih =>
    have here := agree node (List.mem_cons_self ..)
    have operand := ih node fun other member => agree other (List.mem_cons_of_mem _ member)
    simp only [eval, evalAddress, requireObservationType_congr here, operand.1, and_self]
  | sizeofExpr _ ih =>
    have operand := ih node agree
    simp only [eval, evalAddress, operand.1, operand.2, and_self]
  | sizeofType typeName =>
    have here := agree node (List.mem_cons_self ..)
    simp only [eval, evalAddress, requireObservationType_congr here, variableAddress_congr here, and_self]
  | offsetof =>
    have here := agree node (List.mem_cons_self ..)
    simp only [eval, evalAddress, here.requireSymbols, and_self]
  | typeof _ ih =>
    have operand := ih node agree
    simp only [eval, evalAddress, operand.1, and_self]
  | processQualified procId _ ih =>
    have inner := ih procId agree
    simp only [eval, evalAddress, count, inner.1, inner.2, and_self]

end Agreement

end DetSim.Expression
