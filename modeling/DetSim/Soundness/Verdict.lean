import DetSim.Model.Tracer
import DetSim.Soundness.ExpressionFootprint
import Mathlib.Tactic.Tauto

/-! # Property verdicts of committed states

Assertions are evaluated on the images of the state that is committed, at the acting node. The check
hook is a different matter: it reads through the running state, which is the source of the transition
until the new state is committed, and it does not run at all unless an assertion is configured. The
initial state is checked at node 0 alone, and no later check looks at a node before it acts.
-/

namespace DetSim.Tracer

open Expression Scheduler

variable {σ : Type}

/-! ## Inversion -/

theorem mapM_ok {α β ε : Type} {f : α → Except ε β} {inputs : List α} {outputs : List β}
    (success : inputs.mapM f = .ok outputs) :
    (∀ input ∈ inputs, ∃ output ∈ outputs, f input = .ok output) ∧
      ∀ output ∈ outputs, ∃ input ∈ inputs, f input = .ok output := by
  induction inputs generalizing outputs with
  | nil =>
    obtain rfl : [] = outputs := by simpa [pure, Except.pure] using success
    simp
  | cons input inputs ih =>
    rw [List.mapM_cons] at success
    cases first : f input with
    | error message => simp [first, bind, Except.bind] at success
    | ok output =>
      cases others : inputs.mapM f with
      | error message => simp [first, others, bind, Except.bind] at success
      | ok rest =>
        obtain rfl : output :: rest = outputs := by
          simpa [first, others, bind, Except.bind, pure, Except.pure] using success
        obtain ⟨forward, backward⟩ := ih others
        constructor
        · intro other member
          rcases List.mem_cons.mp member with rfl | member
          · exact ⟨output, List.mem_cons_self .., first⟩
          · obtain ⟨found, inside, same⟩ := forward other member
            exact ⟨found, List.mem_cons_of_mem _ inside, same⟩
        · intro other member
          rcases List.mem_cons.mp member with rfl | member
          · exact ⟨input, List.mem_cons_self .., first⟩
          · obtain ⟨found, inside, same⟩ := backward other member
            exact ⟨found, List.mem_cons_of_mem _ inside, same⟩

section Checks

variable {config : Config σ}

/-- Some assertion is zero at the node on the given images. -/
def Config.AssertionFails (config : Config σ) (images : ℕ → Image) (node : ℕ) : Prop :=
  ∃ assertion ∈ config.assertions, config.evaluate images node assertion = .ok 0

/-- The check hook returns non-zero on the given answers to its reads. -/
def Config.HookFails (config : Config σ) (answers : Answers) (data : σ) : Prop :=
  ∃ left, config.checkState answers data = .ok (true, left)

variable {answers : Answers} {data : σ} {state : SysState} {actor : ℕ} {answer : Bool × σ}

/-- A check that returns evaluated every assertion to a number. -/
theorem checkAssertions_evaluates
    (success : config.checkAssertions answers data state actor = .ok answer) :
    ∀ assertion ∈ config.assertions, ∃ value,
      config.evaluate state.images actor assertion = .ok value := by
  intro assertion member
  unfold Config.checkAssertions at success
  rw [if_neg (List.ne_nil_of_mem member)] at success
  cases values : config.assertions.mapM (config.evaluate state.images actor) with
  | error message => simp [values, bind, Except.bind] at success
  | ok values' =>
    obtain ⟨value, _, same⟩ := (mapM_ok values).1 assertion member
    exact ⟨value, same⟩

theorem checkAssertions_verdict
    (success : config.checkAssertions answers data state actor = .ok answer) :
    answer.1 = true ↔ config.AssertionFails state.images actor ∨
      (config.assertions ≠ [] ∧ config.HookFails answers data) := by
  unfold Config.checkAssertions at success
  split at success
  · next none =>
    cases success
    simp [Config.AssertionFails, none]
  · next some =>
    cases evaluated : config.assertions.mapM (config.evaluate state.images actor) with
    | error message => simp [evaluated, bind, Except.bind] at success
    | ok values =>
      obtain ⟨forward, backward⟩ := mapM_ok evaluated
      have zero : (values.any (· = 0)) = true ↔ config.AssertionFails state.images actor := by
        simp only [List.any_eq_true, decide_eq_true_eq]
        constructor
        · rintro ⟨value, member, rfl⟩
          exact backward 0 member
        · rintro ⟨assertion, member, same⟩
          obtain ⟨value, inside, found⟩ := forward assertion member
          exact ⟨value, inside, Except.ok.inj (found.symm.trans same)⟩
      by_cases fails : config.AssertionFails state.images actor
      · simp only [evaluated, bind, Except.bind, if_pos (zero.mpr fails)] at success
        cases success
        simp [fails]
      · simp only [evaluated, bind, Except.bind, if_neg (mt zero.mp fails)] at success
        obtain ⟨violation, left⟩ := answer
        simp [fails, some, Config.HookFails, success]

end Checks

/-- The reads of the hook of an actor, answered by the snapshots of a state. -/
def Config.answers (config : Config σ) (state : SysState) (child : ℕ → TraceeState) (actor : ℕ) : Answers :=
  config.evalInternal (fun node => some (state.images node)) child actor

/-- A committed transition passed its guards, executed, and was checked as captured. -/
theorem stateTransition_ok {config : Config σ} {engine : Engine} {source newState : SysState}
    {process : ℕ} {requested : Option ℕ} {action : TransitionAction} {choice : ℕ}
    {before after : PtmcState σ}
    (committed : stateTransition config engine source process requested action choice before =
      (.ok newState, after)) :
    transitionGuard config.np source process requested action = .ok () ∧
      engine source process (requested.getD (source.child process).currentThread) action choice =
        .ok newState.child ∧
      config.checkAssertions (config.answers source newState.child process) before.plugin
        { source with child := newState.child } process = .ok (newState.propertyFailed, after.plugin) ∧
      newState.userState = source.userState ∧ after.running = newState := by
  unfold stateTransition at committed
  split at committed
  · simp at committed
  · next admitted =>
    dsimp only at committed
    split at committed
    · simp at committed
    · next child executed =>
      split at committed
      · simp at committed
      · next violation data checked =>
        simp only [Prod.mk.injEq, Except.ok.injEq] at committed
        obtain ⟨rfl, rfl⟩ := committed
        exact ⟨admitted, executed, checked, rfl, rfl⟩

/-! ## The verdict of a transition -/

section Verdict

variable {config : Config σ} {engine : Engine} {source newState : SysState} {process : ℕ} {requested : Option ℕ}
  {action : TransitionAction} {choice : ℕ} {before after : PtmcState σ} {child : ℕ → TraceeState}

end Verdict

/-- A node with one runnable thread whose memory holds one number everywhere. -/
def uniform (value : Int64) : TraceeState :=
  { image := fun _ => .ok value, threads := [{ alive := true }] }

/-- One node, the assertion `1`, and a check hook that may read the global `x`. -/
def hookConfig (check : Answers → Unit → Except String (ℤ × Unit)) : Config Unit where
  np := 1
  assertions := ["1"]
  dwarf := ⟨fun _ => 8, fun _ => "long", fun _ => { size := 8 }, fun _ => 8, fun _ _ => -1⟩
  parse text := if text = "1" then some (.number 1) else if text = "x" then some (.variableNode "x") else none
  requireSymbols _ := .ok ()
  requireSymbolAddress _ _ := .ok ()
  stopped _ := ⟨fun _ _ => some (ofAddress 8 "long"), fun _ _ => some 0⟩
  plugin := some ⟨check, fun _ _ => [], fun _ _ data => data⟩

/-- Every step of a node fills its memory with ones. -/
def setsOne : Engine := fun source process _ _ _ =>
  .ok (Function.update source.child process (uniform 1))

theorem threadAction_eq_some {np process thread : ℕ} {source : SysState} {actor : ThreadState} {action : ActorAction} :
    threadAction np source process actor thread = some action ↔ process = action.process ∧ thread = action.thread ∧
      match action.action with
      | .normal => runnable actor = true
      | .timeout => runnable actor = false ∧ actor.alive ∧ actor.pending.any (·.deadline) ∧
        timeoutActionClock np source process thread = .ok () := by
  obtain ⟨_, _, _ | _⟩ := action <;> grind [threadAction]

/-- The actions offered in a state are exactly those that a transition admits. -/
theorem enabled_iff_admitted (np : ℕ) (source : SysState) (process thread : ℕ) (action : TransitionAction) :
    ⟨process, thread, action⟩ ∈ enabledActorActions np source ↔
      transitionGuard np source process (some thread) action = .ok () := by
  simp only [enabledActorActions, List.mem_ite_nil_left, List.mem_flatMap, List.mem_range, List.mem_filterMap,
    Prod.exists, List.mem_zipIdx_iff_getElem?, threadAction_eq_some, ↓existsAndEq, true_and, Bool.not_eq_true]
  cases action with
  | normal => grind [transitionGuard]
  | timeout =>
    cases clock : timeoutActionClock np source process thread with
    | error => simp [transitionGuard, clock, bind, Except.bind, ite_eq_iff]
    | ok =>
      simp only [transitionGuard, clock, bind, Except.bind, Option.getD_some, if_true]
      unfold timeoutActionClock at clock
      grind [runnable]

/-! ## Coverage of the nodes -/

/-- The expression names no node: it is evaluated wholly at the node it is asked for. -/
def Config.Unqualified (config : Config σ) (assertion : String) : Prop :=
  ∀ normalized ast, normalizeNodeQualifier config.np assertion = .ok normalized →
    config.parse normalized = some ast → ast.unqualified = true

theorem evaluate_congr {config : Config σ} {assertion : String}
    (unqualified : config.Unqualified assertion) {left right : ℕ → Image} {node : ℕ}
    (same : left node = right node) :
    config.evaluate left node assertion = config.evaluate right node assertion := by
  unfold Config.evaluate
  split
  · rfl
  · cases normal : normalizeNodeQualifier config.np assertion with
    | error message => rfl
    | ok normalized =>
      simp only [bind, Except.bind, evaluateObservation]
      cases parsed : config.parse normalized with
      | none => rfl
      | some ast =>
        have count : (config.view left).processCount = (config.view right).processCount := rfl
        have agree : eval config.dwarf (config.view left) node ast =
            eval config.dwarf (config.view right) node ast := by
          refine (eval_congr count ast node fun other member => ?_).1
          obtain rfl := ExprNode.eq_of_mem_footprint (unqualified normalized ast normal parsed) member
          exact ⟨rfl, rfl, same⟩
        simp only [agree, count]

/-- The assertion has a value other than zero at the node. -/
def Config.HoldsAt (config : Config σ) (state : SysState) (node : ℕ) (assertion : String) : Prop :=
  ∃ value, config.evaluate state.images node assertion = .ok value ∧ value ≠ 0

/-- A transition changes the memory of the acting node only. -/
def Isolated (engine : Engine) : Prop :=
  ∀ source process thread action choice child,
    engine source process thread action choice = .ok child →
      ∀ node, node ≠ process → (child node).image = (source.child node).image

section Coverage

variable {config : Config σ} {engine : Engine}

/-- One step adds at most one state, committed by a transition from an earlier one. -/
theorem Machine.step_commits (machine : Machine σ) (action : Action) :
    (machine.step config engine action).commits = machine.commits ∨
      ∃ commit ∈ machine.commits, ∃ process requested kind choice newState after,
        stateTransition config engine commit.state process requested kind choice machine.tracer =
          (.ok newState, after) ∧
        (machine.step config engine action).commits =
          machine.commits ++ [⟨newState, after.plugin⟩] := by
  cases action with
  | transition source process requested kind choice =>
    simp only [Machine.step]
    split
    · exact .inl rfl
    · next commit read =>
      split
      · exact .inl rfl
      · next newState after committed =>
        exact .inr ⟨commit, List.mem_of_getElem? read, process, requested, kind, choice, newState, after,
          committed, rfl⟩
  | load state =>
    simp only [Machine.step]
    split <;> exact .inl rfl

/-- The states committed in runs of a machine. -/
def Machine.Reaches (config : Config σ) (engine : Engine) (machine : Machine σ) (state : SysState) : Prop :=
  ∃ actions, ∃ commit ∈ (machine.run config engine actions).commits, commit.state = state

/-- A property of states that the transitions keep, among the states a machine reaches, holds in all
of them. -/
theorem Machine.Reaches.induction {machine : Machine σ} (property : SysState → Prop)
    (initial : ∀ commit ∈ machine.commits, property commit.state)
    (preserved : ∀ source process requested kind choice newState before after, property source →
      stateTransition config engine source process requested kind choice before = (.ok newState, after) →
      machine.Reaches config engine newState → property newState)
    {state : SysState} (reached : machine.Reaches config engine state) : property state := by
  suffices all : ∀ actions, ∀ commit ∈ (machine.run config engine actions).commits, property commit.state by
    obtain ⟨actions, commit, member, rfl⟩ := reached
    exact all actions commit member
  intro actions
  induction actions using List.reverseRecOn with
  | nil => exact initial
  | append_singleton actions action ih =>
    have last : machine.run config engine (actions ++ [action]) =
        (machine.run config engine actions).step config engine action := by
      simp [Machine.run, List.foldl_append]
    intro commit member
    have reaches : machine.Reaches config engine commit.state := ⟨_, commit, member, rfl⟩
    rw [last] at member
    rcases (machine.run config engine actions).step_commits action with same |
        ⟨source, earlier, process, requested, kind, choice, newState, after, committed, added⟩
    · exact ih commit (same ▸ member)
    · rw [added] at member
      rcases List.mem_append.mp member with old | new
      · exact ih commit old
      · obtain rfl := List.mem_singleton.mp new
        exact preserved source.state process requested kind choice newState _ after
          (ih source earlier) committed reaches

theorem transitionGuard_process {np : ℕ} {source : SysState} {process : ℕ} {requested : Option ℕ}
    {action : TransitionAction} (admitted : transitionGuard np source process requested action = .ok ()) :
    process < np := by
  by_contra outside
  simp [transitionGuard, Nat.not_lt.mp outside] at admitted

/-- The acting node was checked, and every other node is as it was. -/
theorem Config.HoldsAt.transition {source newState : SysState} {process : ℕ} {requested : Option ℕ}
    {kind : TransitionAction} {choice : ℕ} {before after : PtmcState σ} {assertion : String}
    (member : assertion ∈ config.assertions) (unqualified : config.Unqualified assertion)
    (isolated : Isolated engine)
    (committed : stateTransition config engine source process requested kind choice before =
      (.ok newState, after))
    (accepted : newState.propertyFailed = false) {node : ℕ}
    (held : config.HoldsAt source node assertion) : config.HoldsAt newState node assertion := by
  obtain ⟨_, executed, checked, _, _⟩ := stateTransition_ok committed
  by_cases acting : node = process
  · subst acting
    obtain ⟨value, evaluated⟩ := checkAssertions_evaluates checked assertion member
    refine ⟨value, evaluated, ?_⟩
    rintro rfl
    have failed := (checkAssertions_verdict checked).mpr (.inl ⟨assertion, member, evaluated⟩)
    simp [accepted] at failed
  · obtain ⟨value, evaluated, nonzero⟩ := held
    refine ⟨value, ?_, nonzero⟩
    rw [← evaluated]
    exact evaluate_congr unqualified (isolated _ _ _ _ _ _ executed node acting)

theorem Machine.start?_eq {child : ℕ → TraceeState} {data : σ} {machine : Machine σ}
    (started : Machine.start? config child data = some machine) :
    ∃ left, machine = ⟨⟨{ child := child }, left⟩, [⟨{ child := child }, left⟩]⟩ := by
  unfold Machine.start? stateInitialization at started
  dsimp only at started
  cases checked : config.checkAssertions (config.evalInternal (fun _ => none) child 0) data { child := child } 0 with
  | error message => simp [checked] at started
  | ok answer =>
    obtain ⟨violation, left⟩ := answer
    cases violation with
    | true => simp [checked] at started
    | false =>
      rw [checked] at started
      exact ⟨left, (Option.some.inj started).symm⟩

/-- A search without a failed state covers every node exactly when the initial state does. -/
theorem clean_search_covers_nodes {child : ℕ → TraceeState} {data : σ} {machine : Machine σ}
    (started : Machine.start? config child data = some machine) (isolated : Isolated engine)
    (clean : ∀ state, machine.Reaches config engine state → state.propertyFailed = false)
    {assertion : String} (member : assertion ∈ config.assertions)
    (unqualified : config.Unqualified assertion) :
    (∀ state, machine.Reaches config engine state →
        ∀ node < config.np, config.HoldsAt state node assertion) ↔
      ∀ node < config.np, config.HoldsAt { child := child } node assertion := by
  obtain ⟨left, rfl⟩ := Machine.start?_eq started
  constructor
  · intro covered
    exact covered _ ⟨[], _, List.mem_singleton_self _, rfl⟩
  · intro initially state reached
    refine Machine.Reaches.induction
      (fun state => ∀ node < config.np, config.HoldsAt state node assertion) ?_ ?_ reached
    · simpa using initially
    · intro source process requested kind choice newState before after held committed reaches node bound
      exact (held node bound).transition member unqualified isolated committed (clean newState reaches)

end Coverage

/-- Two nodes and the assertion that the global `x` is not zero. -/
def globalConfig : Config Unit where
  np := 2
  assertions := ["x"]
  dwarf := ⟨fun _ => 8, fun _ => "", fun _ => {}, fun _ => 0, fun _ _ => -1⟩
  parse text := if text = "x" then some (.variableNode "x") else none
  requireSymbols _ := .ok ()
  requireSymbolAddress _ _ := .ok ()
  stopped _ := ⟨fun _ _ => none, fun _ _ => none⟩
  plugin := none

theorem globalConfig_unqualified : globalConfig.Unqualified "x" := by
  intro normalized ast _ parsed
  simp only [globalConfig] at parsed
  split at parsed
  · cases parsed
    rfl
  · contradiction

theorem globalConfig_ones {node : ℕ} (bound : node < 2) {images : ℕ → Image}
    (ones : images node = (uniform 1).image) : globalConfig.evaluate images node "x" = .ok 1 := by
  have same : globalConfig.evaluate images node "x" =
      globalConfig.evaluate (fun _ => (uniform 1).image) node "x" :=
    evaluate_congr globalConfig_unqualified ones
  rw [same]
  match node, bound with
  | 0, _ => rfl
  | 1, _ => rfl

theorem setsOne_isolated : Isolated setsOne := by
  intro source process thread action choice child executed node other
  cases executed
  simp [Function.update_of_ne other]

/-- Each transition of `setsOne` leaves a one at the only node that is checked. -/
theorem globalConfig_clean {child : ℕ → TraceeState} {machine : Machine Unit}
    (started : Machine.start? globalConfig child () = some machine) {state : SysState}
    (reached : machine.Reaches globalConfig setsOne state) : state.propertyFailed = false := by
  obtain ⟨left, rfl⟩ := Machine.start?_eq started
  refine Machine.Reaches.induction (fun state => state.propertyFailed = false) ?_ ?_ reached
  · simp
  · intro source process requested kind choice newState before after _ committed _
    obtain ⟨admitted, executed, checked, _, _⟩ := stateTransition_ok committed
    have ones : newState.images process = (uniform 1).image := by
      have filled := congrFun (Except.ok.inj executed) process
      simp only [Function.update_self] at filled
      simp [SysState.images, ← filled]
    have one := globalConfig_ones (transitionGuard_process admitted) ones
    by_contra failed
    rcases (checkAssertions_verdict checked).mp (by simpa using failed) with ⟨assertion, member, zero⟩ | hook
    · obtain rfl : assertion = "x" := by simpa [globalConfig] using member
      have same : (Except.ok 1 : Except String Int64) = .ok 0 := one.symm.trans zero
      exact absurd same (by decide)
    · exact absurd hook.2 (by simp [Config.HookFails, Config.checkState, globalConfig])

/-- Both nodes start with a one. -/
theorem clean_search_covers_nodes_ones :
    ∃ machine, Machine.start? globalConfig (fun _ => uniform 1) () = some machine ∧
      ∀ state, machine.Reaches globalConfig setsOne state →
        ∀ node < 2, globalConfig.HoldsAt state node "x" := by
  have started : Machine.start? globalConfig (fun _ => uniform 1) () = some _ := rfl
  refine ⟨_, started, ?_⟩
  refine (clean_search_covers_nodes started setsOne_isolated ?_ (by decide)
    globalConfig_unqualified).mpr ?_
  · exact fun state reached => globalConfig_clean started reached
  · exact fun node bound => ⟨1, globalConfig_ones bound rfl, by decide⟩

/-- The second node starts with a zero, and each of its transitions is checked after it wrote a one. -/
theorem clean_search_misses_node :
    ∃ machine, Machine.start? globalConfig (fun node => uniform (if node = 0 then 1 else 0)) () =
        some machine ∧ Isolated setsOne ∧
      (∀ state, machine.Reaches globalConfig setsOne state → state.propertyFailed = false) ∧
      "x" ∈ globalConfig.assertions ∧ globalConfig.Unqualified "x" ∧
      ∃ state, machine.Reaches globalConfig setsOne state ∧
        ∃ node < 2, ¬ globalConfig.HoldsAt state node "x" := by
  have started : Machine.start? globalConfig (fun node => uniform (if node = 0 then 1 else 0)) () =
    some _ := rfl
  refine ⟨_, started, setsOne_isolated, ?_, by decide, globalConfig_unqualified, ?_⟩
  · exact fun state reached => globalConfig_clean started reached
  · refine ⟨_, ⟨[], _, List.mem_singleton_self _, rfl⟩, 1, by decide, ?_⟩
    rintro ⟨value, evaluated, nonzero⟩
    have zero : (Except.ok 0 : Except String Int64) = .ok value := evaluated
    exact nonzero (Except.ok.inj zero).symm

end DetSim.Tracer
