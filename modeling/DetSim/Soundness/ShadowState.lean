import DetSim.Soundness.Verdict

/-! # The shadow data of the user plugin

A plugin keeps one copy of its data, while a search jumps between branches. The hooks that would
archive the data with a state and bring it back are never called, so the data simply follows the
order in which checks run, and every state archives nothing. Data is owned by its branch exactly in
the runs in which there is nothing to own.
-/

namespace DetSim.Tracer

open Expression Scheduler

variable {σ : Type}

/-- The shadow data of a tracee in its archived form; empty when no plugin is configured. -/
def Config.shadow (config : Config σ) (index : ℕ) (data : σ) : Blob :=
  match config.plugin with
  | none => []
  | some plugin => plugin.save index data

/-- The plugin holds exactly the data archived in the given blobs. -/
def Config.Archives (config : Config σ) (data : σ) (blobs : ℕ → Blob) : Prop :=
  ∀ index, config.shadow index data = blobs index

def Config.Empty (config : Config σ) (data : σ) : Prop := config.Archives data fun _ => []

/-- The data follows the branch in one step: a transition starts from what the check of its source
left and archives what its own check leaves, and a load brings back what is archived. -/
def Owned (config : Config σ) (engine : Engine) (machine : Machine σ) : Action → Prop
  | .transition source process requested action choice =>
    ∀ commit, machine.commits[source]? = some commit →
      config.Archives machine.tracer.plugin (fun index => config.shadow index commit.data) ∧
      ∀ newState after,
        stateTransition config engine commit.state process requested action choice machine.tracer =
          (.ok newState, after) → config.Archives after.plugin newState.userState
  | .load state =>
    ∀ commit, machine.commits[state]? = some commit →
      config.Archives (load commit.state machine.tracer).plugin commit.state.userState

/-- Every step of the run is owned. -/
def OwnedRun (config : Config σ) (engine : Engine) : List Action → Machine σ → Prop
  | [], _ => True
  | action :: actions, machine => Owned config engine machine action ∧
      OwnedRun config engine actions (machine.step config engine action)

/-- The shadow data is empty before and after every step of the run. -/
def EmptyRun (config : Config σ) (engine : Engine) : List Action → Machine σ → Prop
  | [], machine => config.Empty machine.tracer.plugin
  | action :: actions, machine => config.Empty machine.tracer.plugin ∧
      EmptyRun config engine actions (machine.step config engine action)

/-- Nothing was archived so far, and nothing was left to archive. -/
structure Machine.Bare (config : Config σ) (machine : Machine σ) : Prop where
  userState : ∀ commit ∈ machine.commits, commit.state.userState = fun _ => []
  data : ∀ commit ∈ machine.commits, config.Empty commit.data

section Steps

variable {config : Config σ} {engine : Engine} {machine : Machine σ}

theorem EmptyRun.head {actions : List Action} (empty : EmptyRun config engine actions machine) :
    config.Empty machine.tracer.plugin := by
  cases actions with
  | nil => exact empty
  | cons action actions => exact empty.1

/-- A transition that throws leaves the data as it was: nothing can fail after the hook. -/
theorem stateTransition_error {source : SysState} {process : ℕ} {requested : Option ℕ}
    {action : TransitionAction} {choice : ℕ} {message : String} {before after : PtmcState σ}
    (failed : stateTransition config engine source process requested action choice before =
      (.error message, after)) : after.plugin = before.plugin := by
  unfold stateTransition at failed
  split at failed
  · cases failed
    rfl
  · dsimp only at failed
    split at failed
    · cases failed
      rfl
    · split at failed
      · cases failed
        rfl
      · simp at failed

/-- A step keeps the data, or it commits a state and the data its check left. -/
theorem Machine.step_cases (config : Config σ) (engine : Engine) (machine : Machine σ) (action : Action) :
    ((machine.step config engine action).commits = machine.commits ∧
      (machine.step config engine action).tracer.plugin = machine.tracer.plugin) ∨
    ∃ source process requested kind choice commit newState after,
      action = .transition source process requested kind choice ∧
      machine.commits[source]? = some commit ∧
      stateTransition config engine commit.state process requested kind choice machine.tracer =
        (.ok newState, after) ∧
      machine.step config engine action = ⟨after, machine.commits ++ [⟨newState, after.plugin⟩]⟩ := by
  cases action with
  | load state =>
    simp only [Machine.step]
    split <;> exact .inl ⟨rfl, rfl⟩
  | transition source process requested kind choice =>
    simp only [Machine.step]
    split
    · exact .inl ⟨rfl, rfl⟩
    · next commit read =>
      split
      · next failed => exact .inl ⟨rfl, stateTransition_error failed⟩
      · next newState after committed =>
        exact .inr ⟨source, process, requested, kind, choice, commit, newState, after, rfl, read,
          committed, rfl⟩

/-- The blobs of a new state are those of its source, since the capture copies them. -/
theorem Machine.Bare.copied {source process : ℕ} {requested : Option ℕ} {kind : TransitionAction}
    {choice : ℕ} {commit : Commit σ} {newState : SysState} {before after : PtmcState σ}
    (bare : machine.Bare config) (read : machine.commits[source]? = some commit)
    (committed : stateTransition config engine commit.state process requested kind choice before =
      (.ok newState, after)) : newState.userState = fun _ => [] := by
  obtain ⟨_, _, _, copied, _⟩ := stateTransition_ok committed
  exact copied.trans (bare.userState commit (List.mem_of_getElem? read))

theorem Machine.Bare.step {action : Action} (bare : machine.Bare config)
    (empty : config.Empty (machine.step config engine action).tracer.plugin) :
    (machine.step config engine action).Bare config := by
  rcases machine.step_cases config engine action with ⟨commits, _⟩ |
      ⟨source, process, requested, kind, choice, commit, newState, after, _, read, committed, stepped⟩
  · exact ⟨commits ▸ bare.userState, commits ▸ bare.data⟩
  · rw [stepped] at empty ⊢
    constructor
    · intro other member
      rcases List.mem_append.mp member with old | new
      · exact bare.userState other old
      · obtain rfl := List.mem_singleton.mp new
        exact bare.copied read committed
    · intro other member
      rcases List.mem_append.mp member with old | new
      · exact bare.data other old
      · obtain rfl := List.mem_singleton.mp new
        exact empty

/-- An owned step from empty data ends with empty data: what it archives is empty. -/
theorem Owned.empty {action : Action} (owned : Owned config engine machine action)
    (bare : machine.Bare config) (empty : config.Empty machine.tracer.plugin) :
    config.Empty (machine.step config engine action).tracer.plugin := by
  rcases machine.step_cases config engine action with ⟨_, same⟩ |
      ⟨source, process, requested, kind, choice, commit, newState, after, rfl, read, committed, stepped⟩
  · rwa [same]
  · rw [stepped]
    have archived := (owned commit read).2 newState after committed
    rwa [bare.copied read committed] at archived

/-- With empty data before and after, a step is owned. -/
theorem owned_of_empty {action : Action} (bare : machine.Bare config)
    (before : config.Empty machine.tracer.plugin)
    (after : config.Empty (machine.step config engine action).tracer.plugin) :
    Owned config engine machine action := by
  cases action with
  | load state =>
    intro commit read
    rw [bare.userState commit (List.mem_of_getElem? read)]
    exact before
  | transition source process requested kind choice =>
    intro commit read
    refine ⟨fun index => ?_, fun newState tracer committed => ?_⟩
    · exact (before index).trans (bare.data commit (List.mem_of_getElem? read) index).symm
    · rw [bare.copied read committed]
      simpa [Config.Empty, Machine.step, read, committed] using after

theorem ownedRun_iff_emptyRun (actions : List Action) (bare : machine.Bare config)
    (empty : config.Empty machine.tracer.plugin) :
    OwnedRun config engine actions machine ↔ EmptyRun config engine actions machine := by
  induction actions generalizing machine with
  | nil => exact ⟨fun _ => empty, fun _ => trivial⟩
  | cons action actions ih =>
    constructor
    · rintro ⟨owned, rest⟩
      have after := owned.empty bare empty
      exact ⟨empty, (ih (bare.step after) after).mp rest⟩
    · rintro ⟨_, rest⟩
      have after := rest.head
      exact ⟨owned_of_empty bare empty after, (ih (bare.step after) after).mpr rest⟩

end Steps

/-- The data of the plugin is owned by its branch, from the initial state on and in every step of a
run, exactly when the plugin never has data to archive in that run. -/
theorem shadow_data_owned_iff {config : Config σ} {child : ℕ → TraceeState} {data : σ}
    {machine : Machine σ} (started : Machine.start? config child data = some machine) (engine : Engine)
    (actions : List Action) :
    (∀ commit ∈ machine.commits, config.Archives commit.data commit.state.userState) ∧
        OwnedRun config engine actions machine ↔ EmptyRun config engine actions machine := by
  obtain ⟨left, rfl⟩ := Machine.start?_eq started
  have bare : ∀ empty : config.Empty left, Machine.Bare config
      ⟨⟨{ child := child }, left⟩, [⟨{ child := child }, left⟩]⟩ := fun empty =>
    ⟨by simp, by simpa using empty⟩
  constructor
  · rintro ⟨archived, owned⟩
    have empty : config.Empty left := archived _ (List.mem_singleton_self _)
    exact (ownedRun_iff_emptyRun actions (bare empty) empty).mp owned
  · intro emptyRun
    have empty : config.Empty left := emptyRun.head
    exact ⟨by simpa [Config.Empty] using empty, (ownedRun_iff_emptyRun actions (bare empty) empty).mpr emptyRun⟩

/-- A plugin without data, in a run that goes back to the initial state. -/
theorem shadow_data_owned_iff_silent :
    ∃ machine, Machine.start? (hookConfig fun _ data => .ok (0, data)) (fun _ => uniform 0) () =
        some machine ∧
      OwnedRun (hookConfig fun _ data => .ok (0, data)) setsOne
        [.transition 0 0 none .normal 0, .load 0, .transition 0 0 none .normal 0] machine := by
  have started : Machine.start? (hookConfig fun _ data => .ok (0, data)) (fun _ => uniform 0) () =
    some _ := rfl
  refine ⟨_, started, ((shadow_data_owned_iff started setsOne _).mpr ?_).2⟩
  exact ⟨fun _ => rfl, fun _ => rfl, fun _ => rfl, fun _ => rfl⟩

/-- A plugin that counts its checks, with one byte of shadow data for the first tracee. -/
def countChecks : Plugin UInt8 where
  check _ count := .ok (0, count + 1)
  save index count := if index = 0 then [count] else []
  load index blob count := if index = 0 then blob.headD count else count

def countConfig : Config UInt8 where
  np := 1
  assertions := ["1"]
  dwarf := ⟨fun _ => 0, fun _ => "", fun _ => {}, fun _ => 0, fun _ _ => -1⟩
  parse text := if text = "1" then some (.number 1) else none
  requireSymbols _ := .ok ()
  requireSymbolAddress _ _ := .ok ()
  stopped _ := ⟨fun _ _ => none, fun _ _ => none⟩
  plugin := some countChecks

/-- After a step and a load of the initial state the plugin has counted two checks. The check that
committed the initial state had left one, and the state archives none. -/
theorem shadow_data_of_another_branch :
    (∀ index saved current, countChecks.save index
        (countChecks.load index (countChecks.save index saved) current) = countChecks.save index saved) ∧
      ∃ machine, Machine.start? countConfig (fun _ => uniform 0) 0 = some machine ∧
        (∃ commit, machine.commits[0]? = some commit ∧ countConfig.shadow 0 commit.data = [1] ∧
          commit.state.userState 0 = []) ∧
        countConfig.shadow 0 (machine.run countConfig setsOne
          [.transition 0 0 none .normal 0, .load 0]).tracer.plugin = [2] ∧
        ¬ OwnedRun countConfig setsOne
          [.transition 0 0 none .normal 0, .load 0, .transition 0 0 none .normal 0] machine := by
  refine ⟨?_, _, rfl, ⟨_, rfl, rfl, rfl⟩, rfl, ?_⟩
  · intro index saved current
    by_cases first : index = 0 <;> simp [countChecks, first]
  · rintro ⟨owned, _⟩
    have archived := (owned _ rfl).2 _ _ rfl 0
    exact absurd archived (List.cons_ne_nil _ _)

end DetSim.Tracer
