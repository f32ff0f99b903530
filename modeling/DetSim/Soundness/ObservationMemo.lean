import Mathlib
import DetSim.Model.ObservationMemo
import DetSim.Soundness.ExpressionFootprint

/-! # The memo of observations is transparent

An evaluation whose recorded accesses are all at one node gives the same value, with the same accesses, in every
observation that agrees at that node. A remembered value is therefore the value in every view of its root, which is the
invariant that all calls keep.
-/

namespace DetSim.Expression

/-! ## Recorded accesses determine the value -/

section Recorded

variable {dwarf : Dwarf} {left right : Observation} {home node : ℕ} {location : EvalResult}

/-- All accesses are at the node. -/
def LocalTo (home : ℕ) (made : List Access) : Prop := ∀ access ∈ made, access.node = home

@[simp] theorem localTo_nil : LocalTo home [] := by simp [LocalTo]

@[simp] theorem localTo_cons {access : Access} {made : List Access} :
    LocalTo home (access :: made) ↔ access.node = home ∧ LocalTo home made := by simp [LocalTo]

@[simp] theorem localTo_append {first second : List Access} :
    LocalTo home (first ++ second) ↔ LocalTo home first ∧ LocalTo home second := by
  simp [LocalTo, or_imp, forall_and]

/-- After parts that agree, the rest has to agree only on their result. -/
theorem andThen_local {evaluated evaluated' : Evaluated} {next next' : EvalResult → Evaluated}
    {before before' : List Access} {steps steps' : EvalResult → List Access}
    (parts : evaluated = evaluated' ∧ before = before') (made : LocalTo home (continuing evaluated steps))
    (same : ∀ result, LocalTo home (steps result) → next result = next' result ∧ steps result = steps' result) :
    andThen evaluated next = andThen evaluated' next' ∧
      before ++ continuing evaluated steps = before' ++ continuing evaluated' steps' := by
  obtain ⟨rfl, rfl⟩ := parts
  rcases evaluated with message | _ | result
  · exact ⟨rfl, rfl⟩
  · exact ⟨rfl, rfl⟩
  · obtain ⟨value, following⟩ := same result made
    exact ⟨value, congrArg (before ++ ·) following⟩

variable (agree : left.AgreeAt right home)
include agree

theorem load_local (made : LocalTo home (fetches dwarf node location)) :
    loadMember dwarf left node location = loadMember dwarf right node location ∧
      loadElement dwarf left node location = loadElement dwarf right node location ∧
      loadVariable dwarf left node location = loadVariable dwarf right node location := by
  simp only [fetches] at made
  split at made
  case isTrue direct => simp [loadMember, loadElement, loadVariable, direct.1, direct.2]
  case isFalse =>
    obtain rfl : node = home := by simpa [Access.node] using made
    rw [loadMember_congr agree, loadElement_congr agree, loadVariable_congr agree]
    exact ⟨rfl, rfl, rfl⟩

theorem type_local {name : String} (made : LocalTo home (typeAccess node name)) :
    requireObservationType left node name = requireObservationType right node name := by
  simp only [typeAccess] at made
  simp only [requireObservationType]
  split at made
  case isTrue primitive => simp only [primitive, if_true]
  case isFalse =>
    obtain rfl : node = home := by simpa [Access.node] using made
    rw [agree.requireSymbols]

/-- Values, addresses and accesses are the same as long as all accesses are where the observations agree. -/
theorem eval_local (count : left.processCount = right.processCount) (expr : ExprNode) (node : ℕ) :
    (LocalTo home (accesses dwarf left node expr) →
      eval dwarf left node expr = eval dwarf right node expr ∧
        accesses dwarf left node expr = accesses dwarf right node expr) ∧
    (LocalTo home (addressAccesses dwarf left node expr) →
      evalAddress dwarf left node expr = evalAddress dwarf right node expr ∧
        addressAccesses dwarf left node expr = addressAccesses dwarf right node expr) := by
  induction expr generalizing node <;>
    -- a member access has an equation for each operator
    try simp only [accesses, addressAccesses, eval, evalAddress, localTo_append, localTo_cons, localTo_nil,
      implies_true, and_true, and_self, Access.node]
  case variableNode name =>
    constructor
    · rintro ⟨rfl, made⟩
      refine andThen_local ⟨variableAddress_congr agree name, rfl⟩ made fun location fetched => ⟨?_, rfl⟩
      by_cases direct : location.typeName = "func" ∨ location.typeName = "void*"
      · simp only [loadVariable, direct, if_true]
      · exact (load_local agree (by simpa only [direct, if_false] using fetched)).2.2
    · rintro rfl
      exact variableAddress_congr agree name
  case binary op first second firstIH secondIH =>
    rintro ⟨made, rest⟩
    refine andThen_local ((firstIH node).1 made) rest fun result following => ?_
    by_cases skipped : (op = .and ∧ result.asValue = 0) ∨ (op = .or ∧ result.asValue ≠ 0)
    · rcases skipped with ⟨rfl, known⟩ | ⟨rfl, known⟩ <;> simp [known]
    · simp only [(secondIH node).1 (by simpa only [skipped, if_false] using following), and_self]
  case unary ih | typeof ih =>
    intro made
    simp only [(ih node).1 made, and_self]
  case addressOf operand ih =>
    intro made
    simp only [(ih node).2 made, and_self]
  case memberAccess op object member ih =>
    cases op
    case arrow =>
      refine ⟨?_, fun made => by simp only [(ih node).1 made, and_self]⟩
      rintro ⟨made, rest⟩
      obtain ⟨value, same⟩ := (ih node).1 made
      exact andThen_local ⟨by rw [value], same⟩ rest fun location fetched => ⟨(load_local agree fetched).1, rfl⟩
    case dot =>
      refine ⟨?_, fun made => by simp only [(ih node).2 made, and_self]⟩
      rintro ⟨made, rest⟩
      obtain ⟨value, same⟩ := (ih node).2 made
      exact andThen_local ⟨by rw [value], same⟩ rest fun location fetched => ⟨(load_local agree fetched).1, rfl⟩
  case arrayIndex array index arrayIH indexIH =>
    constructor
    · rintro ⟨made, rest⟩
      refine andThen_local ((arrayIH node).1 made) rest fun base following => ?_
      rw [localTo_append] at following
      exact andThen_local ((indexIH node).1 following.1) following.2 fun position fetched =>
        ⟨(load_local agree fetched).2.1, rfl⟩
    · rintro ⟨made, rest⟩
      refine andThen_local ((arrayIH node).1 made) rest fun base following => ?_
      simp only [(indexIH node).1 following, and_self]
  case dereference operand ih =>
    constructor
    · rintro ⟨made, rest⟩
      refine andThen_local ((ih node).1 made) rest fun pointer fetched => ⟨?_, rfl⟩
      obtain rfl : node = home := by simpa [Access.node] using fetched
      rw [loadTarget_congr agree]
    · intro made
      simp only [(ih node).1 made, and_self]
  case conditional cond thenExpr elseExpr condIH thenIH elseIH =>
    rintro ⟨made, rest⟩
    refine andThen_local ((condIH node).1 made) rest fun result following => ?_
    split at following
    case isTrue holds => simpa only [if_pos holds] using (thenIH node).1 following
    case isFalse fails => simpa only [if_neg fails] using (elseIH node).1 following
  case cast typeName operand ih =>
    rintro ⟨typed, made⟩
    simp only [type_local agree typed, (ih node).1 made, and_self]
  case sizeofExpr operand ih =>
    rintro ⟨made, rest⟩
    obtain ⟨value, same⟩ := (ih node).2 made
    rw [← value, ← same]
    generalize evalAddress dwarf left node operand = located at rest ⊢
    split at rest
    case isTrue sized =>
      rcases located with message | located
      · exact ⟨rfl, by simp only [sized, if_true]⟩
      · have nonzero : sizeOf dwarf (typeNameOf located) ≠ 0 := by simpa [Except.toOption] using sized
        simp [nonzero, Except.toOption, bind, Except.bind]
    case isFalse =>
      simp only [(ih node).1 rest, and_self]
  case sizeofType typeName =>
    rintro ⟨typed, rest⟩
    rw [type_local agree typed]
    split at rest
    case isTrue named =>
      obtain rfl : node = home := by simpa [Access.node] using rest
      rw [variableAddress_congr agree]
    case isFalse unnamed => simp only [unnamed, if_false]
  case offsetof =>
    rintro rfl
    rw [agree.requireSymbols]
  case processQualified procId expr ih =>
    simp only [← count]
    split
    · exact ih procId
    · simp

end Recorded

/-! ## Remembered values -/

section Memo

variable {world : World} {view other : StateView} {moment later : Moment} {store symbols : ℕ} {key : RootKey}
  {expression : String} {cached : MemoValue} {memo : Memo} {root : MemoRoot}

/-- The view is of a saved state with this root, and is used in these generations. -/
structure Sees (store symbols : ℕ) (key : RootKey) (view : StateView) (moment : Moment) : Prop where
  saved : view.live = none
  generation : view.storeGeneration = store
  now : moment.store = store
  tables : moment.symbols = symbols
  same : view.rootKey key.node = key

theorem Sees.agreeAt (world : World) (first : Sees store symbols key view moment)
    (second : Sees store symbols key other later) :
    (view.observation world moment).AgreeAt (other.observation world later) key.node := by
  have snapshots : view.snapshots key.node = other.snapshots key.node :=
    (congrArg RootKey.key first.same).trans (congrArg RootKey.key second.same).symm
  have executables : view.executables key.node = other.executables key.node :=
    (congrArg RootKey.executable first.same).trans (congrArg RootKey.executable second.same).symm
  have required : requireSymbols world view moment key.node = requireSymbols world other later key.node := by
    simp only [requireSymbols, first.tables, second.tables, executables]
  refine ⟨required, ?_, ?_⟩
  · funext address
    simp only [StateView.observation, required, first.tables, second.tables]
  · funext address
    simp only [StateView.observation, first.saved, second.saved, first.generation, second.generation, first.now,
      second.now, snapshots]

/-- The symbols of an evaluation that stayed at its node have passed their check. -/
theorem requireSymbols_of_reads {node : ℕ} (stayed : (evaluationReads world view moment node expression).isLocal = true)
    (used : (evaluationReads world view moment node expression).symbols = true) :
    requireSymbols world view moment node = .ok () := by
  simp only [evaluationReads, List.any_eq_true, List.all_eq_true, Bool.and_eq_true, beq_iff_eq] at stayed used
  obtain ⟨access, member, -, passed⟩ := used
  rw [stayed access member] at passed
  generalize requireSymbols world view moment node = required at passed ⊢
  rcases required with message | _
  · simp [Except.isOk, Except.toBool] at passed
  · rfl

/-- An evaluation that stayed at its node is the same in every view of its root. -/
theorem Sees.evaluation_eq (world : World) (expression : String) (first : Sees store symbols key view moment)
    (second : Sees store symbols key other later)
    (stayed : (evaluationReads world view moment key.node expression).isLocal = true) :
    evaluateOriginal world view moment key.node expression = evaluateOriginal world other later key.node expression ∧
      evaluationReads world view moment key.node expression =
        evaluationReads world other later key.node expression := by
  have agree := first.agreeAt world second
  simp only [evaluationReads, evaluateOriginal, evaluateObservation, first.tables, second.tables] at stayed ⊢
  generalize world.parse expression = parsed at stayed ⊢
  rcases parsed with _ | ast
  · exact ⟨rfl, rfl⟩
  · simp only [Option.elim_some, List.all_eq_true, beq_iff_eq] at stayed ⊢
    obtain ⟨value, made⟩ := (eval_local agree rfl ast key.node).1 stayed
    rw [← value, ← made]
    refine ⟨rfl, congrArg _ ?_⟩
    rw [Bool.eq_iff_iff, List.any_eq_true, List.any_eq_true]
    refine exists_congr fun access => and_congr_right fun member => ?_
    have required : requireSymbols world view moment key.node = requireSymbols world other later key.node :=
      agree.requireSymbols
    rw [stayed access member, required]

/-- The value is that of the evaluation in every view of the root, which stays at its node and finds its symbols. -/
def Remembered (world : World) (store symbols : ℕ) (key : RootKey) (expression : String) (cached : MemoValue) : Prop :=
  ∀ view moment, Sees store symbols key view moment →
    evaluateOriginal world view moment key.node expression = .ok cached.value ∧
      (evaluationReads world view moment key.node expression).isLocal = true ∧
      (evaluationReads world view moment key.node expression).memory = true ∧
      (cached.symbols = true → requireSymbols world view moment key.node = .ok ())

structure Memo.Valid (world : World) (memo : Memo) : Prop where
  remembered : ∀ root ∈ memo.roots, ∀ entry ∈ root.values,
    Remembered world memo.store memo.symbols root.key entry.1 entry.2
  roots : memo.roots.length ≤ 16
  values : ∀ root ∈ memo.roots, root.values.length ≤ 256

theorem Memo.sync_epochs (memo : Memo) (store symbols : ℕ) :
    (memo.sync store symbols).store = store ∧ (memo.sync store symbols).symbols = symbols := by
  unfold Memo.sync
  split
  case isTrue => exact ⟨rfl, rfl⟩
  case isFalse same => simpa using same

theorem Memo.Valid.sync (valid : memo.Valid world) (store symbols : ℕ) : (memo.sync store symbols).Valid world := by
  unfold Memo.sync
  split
  · exact ⟨by simp, by simp, by simp⟩
  · exact valid

theorem Memo.Valid.front (valid : memo.Valid world)
    (entries : ∀ entry ∈ root.values, Remembered world memo.store memo.symbols root.key entry.1 entry.2)
    (small : root.values.length ≤ 256) (room : (memo.find root.key).isSome ∨ memo.roots.length < 16) :
    (memo.front root).Valid world := by
  have rest : memo.roots.eraseP (·.key == root.key) ⊆ memo.roots := List.eraseP_subset
  refine ⟨List.forall_mem_cons.mpr ⟨entries, fun listed member => valid.remembered listed (rest member)⟩, ?_,
    List.forall_mem_cons.mpr ⟨small, fun listed member => valid.values listed (rest member)⟩⟩
  have bounded := valid.roots
  simp only [Memo.front, List.length_cons]
  rcases room with found | room
  · obtain ⟨listed, member, same⟩ := List.find?_isSome.mp found
    have positive := List.length_pos_of_mem member
    rw [List.length_eraseP_of_mem member same]
    omega
  · exact Nat.lt_of_le_of_lt List.length_eraseP_le room

theorem Memo.Valid.makeRoom (valid : memo.Valid world) (key : RootKey) :
    (memo.makeRoom key).Valid world ∧ ((memo.makeRoom key).store = memo.store ∧ (memo.makeRoom key).symbols = memo.symbols) ∧
      (((memo.makeRoom key).find key).isSome ∨ (memo.makeRoom key).roots.length < 16) := by
  unfold Memo.makeRoom
  split
  case isTrue room => exact ⟨valid, ⟨rfl, rfl⟩, room⟩
  case isFalse full =>
    have bounded := valid.roots
    refine ⟨⟨fun listed member => valid.remembered listed (List.mem_of_mem_dropLast member), ?_,
      fun listed member => valid.values listed (List.mem_of_mem_dropLast member)⟩, ⟨rfl, rfl⟩, .inr ?_⟩ <;>
    · simp only [List.length_dropLast]
      omega

theorem Memo.Valid.remember (valid : memo.Valid world)
    (remembered : Remembered world memo.store memo.symbols key expression cached) :
    (memo.remember key expression cached).Valid world := by
  obtain ⟨valid', ⟨store, symbols⟩, room⟩ := valid.makeRoom key
  have held : ((memo.find key).getD ⟨key, []⟩).key = key ∧ ((memo.find key).getD ⟨key, []⟩).values.length ≤ 256 ∧
      ∀ entry ∈ ((memo.find key).getD ⟨key, []⟩).values,
        Remembered world memo.store memo.symbols key entry.1 entry.2 := by
    rcases found : memo.find key with _ | listed
    · simp
    · obtain rfl : listed.key = key := by simpa using List.find?_some found
      have member := List.mem_of_find?_eq_some found
      exact ⟨rfl, valid.values listed member, valid.remembered listed member⟩
  unfold Memo.remember
  generalize (memo.find key).getD ⟨key, []⟩ = root at held ⊢
  obtain ⟨rfl, small, entries⟩ := held
  rw [← store, ← symbols] at remembered entries
  unfold MemoRoot.emplace
  split
  case isTrue grows => exact valid'.front (List.forall_mem_cons.mpr ⟨remembered, entries⟩) grows.1 room
  case isFalse => exact valid'.front entries small room

theorem finish_spec {node : ℕ} {known : Option MemoValue} (valid : memo.Valid world)
    (sees : Sees memo.store memo.symbols (view.rootKey node) view moment)
    (trusted : ∀ cached ∈ known, Remembered world memo.store memo.symbols (view.rootKey node) expression cached) :
    (finish world view moment memo node expression known).1 =
        (evaluateOriginal world view moment node expression).mapError .thrown ∧
      (finish world view moment memo node expression known).2.Valid world := by
  unfold finish
  split
  case h_1 failed => exact ⟨by rw [failed]; rfl, valid⟩
  case h_2 value evaluated =>
    have agrees : ¬ known.any (·.disagrees value (evaluationReads world view moment node expression)) = true := by
      rcases known with _ | cached
      · simp
      · obtain ⟨same, stayed, read, -⟩ := trusted cached rfl view moment sees
        have value_eq : cached.value = value := Except.ok.inj (same.symm.trans evaluated)
        dsimp only [StateView.rootKey] at stayed read
        simp [MemoValue.disagrees, value_eq, stayed, read]
    rw [if_neg agrees, evaluated]
    split
    case isTrue admitted =>
      refine ⟨rfl, valid.remember fun other later seen => ?_⟩
      obtain ⟨same, reads⟩ := sees.evaluation_eq world expression seen admitted.1
      rw [← same, ← reads]
      refine ⟨evaluated, admitted.1, admitted.2.1, fun used => ?_⟩
      exact (sees.agreeAt world seen).requireSymbols.symm.trans (requireSymbols_of_reads admitted.1 used)
    case isFalse => exact ⟨rfl, valid⟩

theorem evaluateNormalized_spec (valid : memo.Valid world) (node : ℕ) :
    (evaluateNormalized world view moment memo node expression).1 =
        (evaluateOriginal world view moment node expression).mapError .thrown ∧
      (evaluateNormalized world view moment memo node expression).2.Valid world := by
  unfold evaluateNormalized
  split
  case isTrue => exact ⟨rfl, valid⟩
  case isFalse used =>
    simp only [not_or] at used
    have synced := valid.sync view.storeGeneration moment.symbols
    have sees : Sees (memo.sync view.storeGeneration moment.symbols).store
        (memo.sync view.storeGeneration moment.symbols).symbols (view.rootKey node) view moment := by
      obtain ⟨store, symbols⟩ := memo.sync_epochs view.storeGeneration moment.symbols
      exact ⟨by simpa using used.2.1, store.symm, by simpa [store] using (not_not.mp used.2.2.2.2.2.2).symm,
        symbols.symm, rfl⟩
    generalize memo.sync view.storeGeneration moment.symbols = memo at synced sees
    simp only
    split
    case h_1 => exact finish_spec synced sees (by simp)
    case h_2 root found =>
      split
      case h_1 => exact finish_spec synced sees (by simp)
      case h_2 cached hit =>
        have key_eq : root.key = view.rootKey node := by simpa using List.find?_some found
        have member := List.mem_of_find?_eq_some found
        have held : (expression, cached) ∈ root.values := by
          obtain ⟨before, after, listed, -⟩ := List.lookup_eq_some_iff.mp hit
          simp [listed]
        have known := synced.remembered root member (expression, cached) held
        rw [key_eq] at known
        obtain ⟨same, -, -, required⟩ := known view moment sees
        dsimp only [StateView.rootKey] at same required
        have passed : (if cached.symbols then requireSymbols world view moment node else .ok ()) = .ok () := by
          split
          case isTrue flagged => exact required flagged
          case isFalse => rfl
        have fronted := synced.front (synced.remembered root member) (synced.values root member)
          (.inl (by rw [key_eq, found]; rfl))
        rw [passed]
        simp only
        split
        case isTrue => exact ⟨by rw [same]; rfl, fronted⟩
        case isFalse => exact finish_spec fronted sees (by rintro _ ⟨⟩; exact known)

theorem Memo.Valid.evaluate_spec (valid : memo.Valid world) (view : StateView) (moment : Moment) (expression : String)
    (node : ℕ) :
    (view.evaluate world moment memo node expression).1 =
        (if world.processCount ≤ node then .error "Observation process index"
          else world.normalize expression >>= evaluateOriginal world view moment node).mapError .thrown ∧
      (view.evaluate world moment memo node expression).2.Valid world := by
  unfold StateView.evaluate
  split
  case isTrue => exact ⟨rfl, valid⟩
  case isFalse =>
    split
    case h_1 failed => exact ⟨by rw [failed]; rfl, valid⟩
    case h_2 normalized parsed =>
      rw [parsed]
      exact evaluateNormalized_spec valid node

theorem thrown_ne_disagreement (result : Except String Int64) :
    result.mapError Failure.thrown ≠ .error .disagreement := by
  cases result <;> simp [Except.mapError]

/-- One call answers as with the memo off, and never with a disagreement. -/
theorem answer_spec (valid : memo.Valid world) (call : Call) :
    (call.answer world memo).1 = (call.off.answer world {}).1 ∧ (call.answer world memo).1 ≠ .error .disagreement ∧
      (call.answer world memo).2.Valid world := by
  have empty : ({} : Memo).Valid world := ⟨by simp, by simp, by simp⟩
  obtain ⟨answered, kept⟩ := valid.evaluate_spec call.view call.moment call.expression call.node
  obtain ⟨plain, -⟩ := empty.evaluate_spec call.off.view call.moment call.expression call.node
  exact ⟨answered.trans plain.symm, answered.trans_ne (thrown_ne_disagreement _), kept⟩

/-- Every history of calls answers as with the memo off, values and errors alike, and a verification never finds a
disagreement. At most sixteen roots are held, with at most 256 values each, and a value that is held is the value of its
expression in every view of its root, whatever the other nodes are: its evaluation uses no other node. -/
theorem observation_memo_transparent (world : World) (calls : List Call) :
    (answers world {} calls).1 = calls.map (fun call => (call.off.answer world {}).1) ∧
      (∀ answer ∈ (answers world {} calls).1, answer ≠ .error .disagreement) ∧
      (answers world {} calls).2.roots.length ≤ 16 ∧
      ∀ root ∈ (answers world {} calls).2.roots, root.values.length ≤ 256 ∧ ∀ entry ∈ root.values,
        Remembered world (answers world {} calls).2.store (answers world {} calls).2.symbols root.key entry.1 entry.2 := by
  have run (memo : Memo) (valid : memo.Valid world) :
      (answers world memo calls).1 = calls.map (fun call => (call.off.answer world {}).1) ∧
        (∀ answer ∈ (answers world memo calls).1, answer ≠ .error .disagreement) ∧
        (answers world memo calls).2.Valid world := by
    induction calls generalizing memo with
    | nil => exact ⟨rfl, by simp [answers], valid⟩
    | cons call calls ih =>
      obtain ⟨same, fine, kept⟩ := answer_spec valid call
      obtain ⟨rest, never, after⟩ := ih _ kept
      refine ⟨?_, ?_, after⟩
      · rw [answers, List.map_cons, ← same, ← rest]
      · exact List.forall_mem_cons.mpr ⟨fine, never⟩
  obtain ⟨same, never, valid⟩ := run {} ⟨by simp, by simp, by simp⟩
  exact ⟨same, never, valid.roots, fun root member => ⟨valid.values root member, valid.remembered root member⟩⟩

end Memo

end DetSim.Expression
