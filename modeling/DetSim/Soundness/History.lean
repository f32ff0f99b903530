import DetSim.Model.History
import DetSim.ToMathlib.LabelledRuns
import DetSim.ToMathlib.ParentChains

/-! # Histories end and are genuine

The state tree keeps the first transition that reached a state. For a state that was not there before, its
source is an older state, so that following the tree back comes to an end. The states from which exploration
started have no entry, until a transition leads back to one of them: then the history of its source must not
begin there, or it never ends again.
-/

namespace DetSim.Scheduler

open LabelledRuns ParentChains

variable (system : TransitionSystem)

/-- The state in which a history of a state begins. -/
def historyOrigin (state : HashType) (history : List (TreeEdge × HashType)) : HashType :=
  history.head?.elim state fun entry => entry.1.predecessor

/-- A history lists an execution: its entries were executed and follow each other, the first one starts where
exploration started, and the last one ends in the state. -/
structure Genuine (explorer : Explorer) (state : HashType) (history : List (TreeEdge × HashType)) : Prop where
  executed : ∀ entry ∈ history, ∃ transition ∈ explorer.executed,
    entry = (system.edge transition, system.target transition)
  linked : history.IsChain fun first second => first.2 = second.1.predecessor
  starts : historyOrigin state history ∈ explorer.starts
  ends : ∀ entry ∈ history.getLast?, entry.2 = state

/-- The history of every state reached so far ends, and is genuine. -/
def Explorer.Explained (explorer : Explorer) : Prop :=
  ∀ state ∈ explorer.reached system, ∃ rounds history,
    showSyscallHistory explorer.tree rounds state = some history ∧ Genuine system explorer state history

/-- The entry of a state, if it has one. -/
def StateTree.parent (tree : StateTree) (state : HashType) : Option TreeEdge := tree[state]?

abbrev StateTree.Leads (tree : StateTree) : HashType → HashType → List (TreeEdge × HashType) → Prop :=
  ParentChains.Leads TreeEdge.predecessor tree.parent

/-- A transition leads back to the state in which the history of its source begins. -/
def Explorer.ReturnsToOrigin (explorer : Explorer) : ExplorerEvent → Prop
  | .transition transition => ∃ history, explorer.tree.Leads transition.source (system.target transition) history
  | .load _ => False

/-! ## The loop and the chains of the tree -/

variable {system} {tree : StateTree} {state origin : HashType} {history : List (TreeEdge × HashType)}

theorem showSyscallHistory_eq_some :
    (∃ rounds, showSyscallHistory tree rounds state = some history) ↔ ∃ origin, tree.Leads state origin history := by
  constructor
  · rintro ⟨rounds, printed⟩
    induction rounds generalizing state history with
    | zero => simp [showSyscallHistory] at printed
    | succ rounds ih =>
      rw [showSyscallHistory] at printed
      split at printed
      · next absent =>
        cases printed
        exact ⟨state, .root absent⟩
      · next edge recorded =>
        obtain ⟨earlier, rest, rfl⟩ := Option.map_eq_some_iff.mp printed
        obtain ⟨origin, leads⟩ := ih rest
        exact ⟨origin, .step recorded leads⟩
  · rintro ⟨origin, leads⟩
    induction leads with
    | @root key absent =>
      have absent : tree[key]? = none := absent
      exact ⟨1, by simp [showSyscallHistory, absent]⟩
    | @step key origin edge chain recorded _ ih =>
      have recorded : tree[key]? = some edge := recorded
      obtain ⟨rounds, printed⟩ := ih
      exact ⟨rounds + 1, by simp [showSyscallHistory, recorded, printed]⟩

theorem historyOrigin_eq (leads : tree.Leads state origin history) : historyOrigin state history = origin := by
  obtain ⟨-, first, -, empty⟩ := leads.linked
  cases history with
  | nil => exact empty rfl
  | cons entry rest => exact first entry rfl

theorem parent_stateTreeAdd (target source : HashType) (which : ℕ) (choose : ℤ) (slot : ℕ)
    (absent : tree.parent target = none) :
    (stateTreeAdd tree source target which choose slot).parent =
      Function.update tree.parent target (some ⟨source, which, choose, slot⟩) := by
  have absent : tree[target]? = none := absent
  funext key
  simp only [stateTreeAdd, absent, Option.isSome_none, Bool.false_eq_true, if_false, StateTree.parent,
    Std.ExtTreeMap.getElem?_insert_eq, Function.update_apply, eq_comm]

/-! ## Sessions -/

/-- Entries are executed transitions, and every state reached so far has a chain from a start. -/
structure Explorer.Traced (system : TransitionSystem) (explorer : Explorer) : Prop where
  recorded : ∀ key edge, explorer.tree.parent key = some edge →
    ∃ transition ∈ explorer.executed, edge = system.edge transition ∧ key = system.target transition
  leads : ∀ state ∈ explorer.reached system, ∃ origin ∈ explorer.starts, ∃ history,
    explorer.tree.Leads state origin history

namespace Explorer.Traced

variable {explorer next : Explorer}

theorem initial (state : HashType) : (Explorer.initial state).Traced system where
  recorded := by simp [Explorer.initial, StateTree.parent]
  leads := by
    intro other member
    rw [Explorer.reached, Explorer.initial, List.map_nil, List.append_nil] at member
    refine ⟨other, member, [], .root ?_⟩
    simp [StateTree.parent, Explorer.initial]

theorem reached_of_recorded (traced : explorer.Traced system) {key : HashType} {edge : TreeEdge}
    (recorded : explorer.tree.parent key = some edge) : key ∈ explorer.reached system := by
  obtain ⟨transition, executed, -, rfl⟩ := traced.recorded key edge recorded
  exact List.mem_append_right _ (List.mem_map_of_mem executed)

theorem explained (traced : explorer.Traced system) : explorer.Explained system := by
  intro state reached
  obtain ⟨origin, started, history, leads⟩ := traced.leads state reached
  obtain ⟨rounds, printed⟩ := showSyscallHistory_eq_some.mpr ⟨origin, leads⟩
  obtain ⟨linked, -, last, -⟩ := leads.linked
  refine ⟨rounds, history, printed, ?_, linked, ?_, last⟩
  · intro entry member
    obtain ⟨transition, executed, edge, key⟩ := traced.recorded _ _ (leads.recorded entry member)
    exact ⟨transition, executed, Prod.ext edge key⟩
  · rwa [historyOrigin_eq leads]

theorem load (traced : explorer.Traced system) (state : HashType) : (explorer.load system state).Traced system := by
  by_cases known : state ∈ explorer.reached system
  · have same : explorer.load system state = { explorer with running := state } := by simp [Explorer.load, known]
    rw [same]
    exact ⟨traced.recorded, traced.leads⟩
  · have grown : explorer.load system state = { explorer with running := state, starts := state :: explorer.starts } := by
      simp [Explorer.load, known]
    rw [grown]
    refine ⟨traced.recorded, ?_⟩
    intro other member
    rcases List.mem_cons.mp member with rfl | before
    · refine ⟨other, List.mem_cons_self, [], .root ?_⟩
      rw [Option.eq_none_iff_forall_ne_some]
      exact fun edge recorded => known (traced.reached_of_recorded recorded)
    · obtain ⟨origin, started, history, leads⟩ := traced.leads other before
      exact ⟨origin, List.mem_cons_of_mem _ started, history, leads⟩

theorem mem_reached_stateTransition {transition : Transition} {state : HashType} :
    state ∈ (explorer.stateTransition system transition).reached system ↔
      state = system.target transition ∨ state ∈ explorer.reached system := by
  simp only [Explorer.reached, Explorer.stateTransition, List.map_cons, List.mem_append, List.mem_cons]
  tauto

/-- A transition into a state that has an entry leaves the tree alone. -/
theorem transition_known (traced : explorer.Traced system) {transition : Transition} {edge : TreeEdge}
    (known : explorer.tree.parent (system.target transition) = some edge) :
    (explorer.stateTransition system transition).Traced system := by
  have known' : explorer.tree[system.target transition]? = some edge := known
  have tree : (explorer.stateTransition system transition).tree = explorer.tree := by
    simp [Explorer.stateTransition, stateTreeAdd, known']
  constructor
  · intro key edge recorded
    rw [tree] at recorded
    obtain ⟨earlier, executed, same⟩ := traced.recorded key edge recorded
    exact ⟨earlier, List.mem_cons_of_mem _ executed, same⟩
  · intro state member
    rw [tree]
    rcases mem_reached_stateTransition.mp member with rfl | before
    · exact traced.leads _ (traced.reached_of_recorded known)
    · exact traced.leads state before

/-- The tree after a transition into a state without an entry. -/
theorem parent_transition {transition : Transition} (absent : explorer.tree.parent (system.target transition) = none) :
    (explorer.stateTransition system transition).tree.parent =
      Function.update explorer.tree.parent (system.target transition) (some (system.edge transition)) :=
  parent_stateTreeAdd _ _ _ _ _ absent

theorem transition_new (traced : explorer.Traced system) {transition : Transition}
    (reached : transition.source ∈ explorer.reached system)
    (absent : explorer.tree.parent (system.target transition) = none)
    (elsewhere : ¬explorer.ReturnsToOrigin system (.transition transition)) :
    (explorer.stateTransition system transition).Traced system := by
  obtain ⟨origin, started, history, leads⟩ := traced.leads _ reached
  have other : origin ≠ system.target transition := by
    rintro rfl
    exact elsewhere ⟨history, leads⟩
  have further := leads.insert_of_ne (system.edge transition) absent other
  constructor
  · intro key edge recorded
    rw [parent_transition absent, Function.update_apply] at recorded
    split_ifs at recorded with same
    · cases recorded
      exact ⟨transition, List.mem_cons_self, rfl, same⟩
    · obtain ⟨earlier, executed, equal⟩ := traced.recorded key edge recorded
      exact ⟨earlier, List.mem_cons_of_mem _ executed, equal⟩
  · intro state member
    rw [StateTree.Leads, parent_transition absent]
    rcases mem_reached_stateTransition.mp member with rfl | before
    · exact ⟨origin, started, _, .step (Function.update_self ..) further⟩
    · obtain ⟨old, oldStarted, chain, oldLeads⟩ := traced.leads state before
      by_cases ended : old = system.target transition
      · subst ended
        exact ⟨origin, started, _, oldLeads.insert_of_eq (system.edge transition) absent further⟩
      · exact ⟨old, oldStarted, chain, oldLeads.insert_of_ne (system.edge transition) absent ended⟩

/-- An event that does not lead back to the origin of its source keeps every state explained. -/
theorem step (traced : explorer.Traced system) {event : ExplorerEvent}
    (allowed : ¬explorer.ReturnsToOrigin system event) (stepped : explorer.step system event next) :
    next.Traced system := by
  cases event with
  | load state =>
    cases stepped
    exact traced.load state
  | transition transition =>
    obtain ⟨reached, rfl⟩ := stepped
    cases entry : explorer.tree.parent (system.target transition) with
    | none => exact traced.transition_new reached entry allowed
    | some edge => exact traced.transition_known entry

/-- After a return to the origin of its source the history of that state never ends. -/
theorem not_returns {event : ExplorerEvent} (stepped : explorer.step system event next)
    (explained : next.Explained system) : ¬explorer.ReturnsToOrigin system event := by
  cases event with
  | load state => exact id
  | transition transition =>
    obtain ⟨reached, rfl⟩ := stepped
    rintro ⟨history, leads⟩
    obtain ⟨again, after, repeated, -⟩ := explained _ (mem_reached_stateTransition.mpr (.inl rfl))
    obtain ⟨start, round⟩ := showSyscallHistory_eq_some.mp ⟨again, repeated⟩
    rw [StateTree.Leads, parent_transition leads.origin_none] at round
    exact ParentChains.Leads.cyclic (system.edge transition) leads start after round

end Explorer.Traced

/-- In every session the histories of all states reached end and are genuine, exactly when no transition leads
back to the state in which the history of its own source begins. -/
theorem histories_genuine (system : TransitionSystem) (start : HashType) {run : List (ExplorerEvent × Explorer)}
    (runs : Run (Explorer.step system) (.initial start) run) :
    (∀ explorer ∈ visited (.initial start) run, explorer.Explained system) ↔
      ∀ move ∈ moves (.initial start) run, ¬move.1.ReturnsToOrigin system move.2.1 := by
  have keeps : ∀ (explorer : Explorer) (event : ExplorerEvent) (next : Explorer), explorer.Traced system →
      ¬explorer.ReturnsToOrigin system event → explorer.step system event next → next.Traced system :=
    fun _ _ _ traced allowed stepped => traced.step allowed stepped
  have breaks : ∀ (explorer : Explorer) (event : ExplorerEvent) (next : Explorer), explorer.Traced system →
      explorer.step system event next → next.Explained system → ¬explorer.ReturnsToOrigin system event :=
    fun _ _ _ _ stepped explained => Explorer.Traced.not_returns stepped explained
  exact Run.property_iff keeps (fun _ => Explorer.Traced.explained) breaks (.initial start) runs

/-- Every action adds a number to the state. -/
def shiftSystem (distance : HashType) : TransitionSystem where
  propertyFailed := fun _ => false
  enabledActorActions := fun _ => [⟨0, 0, .normal⟩]
  nChoose := fun _ _ => 0
  successor := fun state _ _ => state + distance
  disabled_of_failed := by simp

def idleTransition : Transition := ⟨1, ⟨0, 0, .normal⟩, 0⟩

/-- The session after its first transition, which starts in the start. -/
def shifted (distance : HashType) : Explorer := (Explorer.initial 1).stateTransition (shiftSystem distance) idleTransition

theorem shifted_run (distance : HashType) : Run (Explorer.step (shiftSystem distance)) (.initial 1)
    [(.transition idleTransition, shifted distance)] :=
  .cons ⟨by simp [Explorer.reached, Explorer.initial, idleTransition], rfl⟩ (.nil _)

/-- A second transition goes on from where the first one led. -/
def twoShifts : List (ExplorerEvent × Explorer) :=
  [(.transition idleTransition, shifted 1), (.transition ⟨2, ⟨0, 0, .normal⟩, 0⟩,
    (shifted 1).stateTransition (shiftSystem 1) ⟨2, ⟨0, 0, .normal⟩, 0⟩)]

theorem twoShifts_run : Run (Explorer.step (shiftSystem 1)) (.initial 1) twoShifts :=
  .cons ⟨by simp [Explorer.reached, Explorer.initial, idleTransition], rfl⟩
    (.cons ⟨by decide +kernel, rfl⟩ (.nil _))

/-- After a transition from the start to itself the history of the running state never ends. -/
theorem idle_history_endless : ¬∃ rounds entries, showSyscallHistory
    (shifted 0).tree rounds
    (shifted 0).running = some entries := by
  have recorded : (shifted 0).tree[(1 : HashType)]? =
      some ⟨1, 0, -1, 0⟩ := by decide +kernel
  have running : (shifted 0).running = 1 := rfl
  rw [running]
  rintro ⟨rounds, ended⟩
  induction rounds with
  | zero =>
    obtain ⟨entries, ended⟩ := ended
    contradiction
  | succ rounds ih =>
    obtain ⟨entries, ended⟩ := ended
    rw [showSyscallHistory, recorded] at ended
    cases shown : showSyscallHistory (shifted 0).tree rounds 1 with
    | none => simp [shown] at ended
    | some shorter => exact ih ⟨shorter, shown⟩

/-- So this session is not explained throughout, and one that goes on from state to state is. -/
theorem histories_genuine_shifts :
    (¬∀ explorer ∈ visited (.initial 1) [(ExplorerEvent.transition idleTransition, shifted 0)],
      explorer.Explained (shiftSystem 0)) ∧
    ∀ explorer ∈ visited (.initial 1) twoShifts, explorer.Explained (shiftSystem 1) := by
  have first : (Explorer.initial 1).tree.Leads 1 1 [] := .root (by decide +kernel)
  have recorded : (shifted 1).tree.parent 2 = some ⟨1, 0, -1, 0⟩ := by decide +kernel
  have second : (shifted 1).tree.Leads 2 1 _ := .step recorded (.root (by decide +kernel))
  rw [histories_genuine (shiftSystem 0) 1 (shifted_run 0), histories_genuine (shiftSystem 1) 1 twoShifts_run]
  refine ⟨fun allowed => allowed _ List.mem_cons_self ⟨[], first⟩, fun move member => ?_⟩
  rcases List.mem_cons.mp member with rfl | member
  · rintro ⟨history, leads⟩
    exact absurd (first.origin_unique leads) (by decide)
  · rw [List.mem_singleton.mp member]
    rintro ⟨history, leads⟩
    exact absurd (second.origin_unique leads) (by decide)

end DetSim.Scheduler
