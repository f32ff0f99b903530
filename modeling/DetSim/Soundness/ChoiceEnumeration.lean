import DetSim.Soundness.SchedulerSessions
import DetSim.Soundness.WorkerReplies

/-! # Every outcome of every actor once

The three searches share one way of taking the outcomes of an actor: the first execution takes one and
lists the others, and each later execution takes one from the list. The list of an actor is empty when
the next actor starts, and in a depth-first search it waits in its frame while the frames above run. So
what a search executes for a source is, actor by actor, every outcome exactly once, or the beginning of
such an enumeration if the search stops in it.
-/

namespace DetSim.Scheduler

open TransitionSystem

/-- An enumeration of all outcomes: the actors in order, and for each of them every choice once. -/
inductive Exhausts (count : ActorAction → ℕ) : List ActorAction → List (ActorAction × ℕ) → Prop
  | nil : Exhausts count [] []
  | cons {actor : ActorAction} {actors : List ActorAction} {choices : List ℕ} {taken : List (ActorAction × ℕ)}
      (each : choices.Perm (List.range (max 1 (count actor)))) (others : Exhausts count actors taken) :
      Exhausts count (actor :: actors) (choices.map (Prod.mk actor) ++ taken)

namespace Exhausts

variable {count : ActorAction → ℕ} {actor : ActorAction} {actors later : List ActorAction}
  {taken rest : List (ActorAction × ℕ)} {choices : List ℕ}

theorem append (first : Exhausts count actors taken) (second : Exhausts count later rest) :
    Exhausts count (actors ++ later) (taken ++ rest) := by
  induction first with
  | nil => exact second
  | cons each others ih =>
    rw [List.append_assoc]
    exact .cons each ih

theorem single (each : choices.Perm (List.range (max 1 (count actor)))) :
    Exhausts count [actor] (choices.map (Prod.mk actor)) := by
  simpa using Exhausts.cons each .nil

theorem exists_taken (count : ActorAction → ℕ) (actors : List ActorAction) : ∃ taken, Exhausts count actors taken := by
  induction actors with
  | nil => exact ⟨_, .nil⟩
  | cons actor actors ih =>
    obtain ⟨taken, others⟩ := ih
    exact ⟨_, .cons (.refl _) others⟩

end Exhausts

/-- The transitions from a source that take the listed outcomes. -/
def transitions (source : HashType) (taken : List (ActorAction × ℕ)) : List Transition :=
  taken.map fun entry => ⟨source, entry.1, entry.2⟩

theorem transitions_append (source : HashType) (first second : List (ActorAction × ℕ)) :
    transitions source (first ++ second) = transitions source first ++ transitions source second :=
  List.map_append

variable {system : TransitionSystem} {mode : Mode} {random : ℕ} {source : HashType} {actor : ActorAction}
  {preset cardinality : ℤ}

/-! ## One execution -/

/-- The registers carry nothing from one execution to the next. -/
theorem searchActorChoiceOn_eq (mode : Mode) (random : ℕ) {pending : Bool} (preset cardinality : ℤ)
    (remaining : List ℕ) (registers : ChoiceRegisters)
    (unoffered : pending = true → system.nChoose source actor = 0 ∧ preset ≤ 0) :
    (searchActorChoiceOn system mode random pending source actor preset cardinality remaining registers).1 =
      searchActorChoice system mode random source actor preset cardinality remaining := by
  unfold searchActorChoiceOn searchActorChoice ChoiceRegisters.transition
  cases pending with
  | false =>
    have counted : ¬(system.nChoose source actor : ℤ) < 0 := by omega
    simp only [Bool.false_eq_true, if_false, counted, false_or, ne_eq, Int.natCast_eq_zero, Int.toNat_natCast]
  | true =>
    obtain ⟨none, nonpositive⟩ := unoffered rfl
    have same : preset.toNat = 0 := by omega
    simp [none, handleAutoChoice, same]

/-- The first execution takes an outcome and lists the others. -/
theorem searchActorChoice_splits (system : TransitionSystem) (mode : Mode) (random : ℕ) (source : HashType)
    (actor : ActorAction) (first : cardinality < 0) (nonpositive : preset ≤ 0)
    (settled : mode = .bfs → 0 ≤ preset) :
    ∃ choice left, searchActorChoice system mode random source actor preset cardinality [] =
        .ok (choice, (system.nChoose source actor : ℤ), left) ∧
      (choice :: left).Perm (List.range (max 1 (system.nChoose source actor))) ∧
      ∀ other ∈ left, other < system.nChoose source actor := by
  obtain ⟨⟨choice, found, left⟩, success⟩ : ∃ answer, searchActorChoice system mode random source actor preset
      cardinality [] = .ok answer :=
    searchActorChoice_first first (fun some => by omega) settled
  obtain ⟨taken, rfl, alternatives⟩ := searchActorChoice_discover success nonpositive first
  simp only [List.not_mem_nil, or_false] at alternatives
  have distinct : left.Nodup := by
    unfold searchActorChoice at success
    dsimp only at success
    rw [if_pos first] at success
    split at success
    · contradiction
    · cases success
      simpa using List.nodup_range.filter _
  refine ⟨choice, left, success, ?_, fun other member => ((alternatives other).mp member).1⟩
  rw [List.perm_ext_iff_of_nodup (List.nodup_cons.mpr ⟨fun member => ((alternatives _).mp member).2 rfl, distinct⟩)
    List.nodup_range]
  intro other
  rw [List.mem_cons, alternatives, List.mem_range]
  dsimp only at taken
  omega

/-! ## Breadth-first search -/

/-- The outcomes executed between two points of a search, in order. -/
def Session.Took (source : HashType) (before after : Session) (taken : List (ActorAction × ℕ)) : Prop :=
  after.executed = (transitions source taken).reverse ++ before.executed

namespace Session.Took

variable {first middle last : Session} {taken later : List (ActorAction × ℕ)}

theorem refl (source : HashType) (session : Session) : Took source session session [] := rfl

theorem trans (start : Took source first middle taken) (rest : Took source middle last later) :
    Took source first last (taken ++ later) := by
  unfold Took at start rest ⊢
  rw [rest, start, transitions_append, List.reverse_append, List.append_assoc]

end Session.Took

/-- A loop of the breadth-first search over the listed enumerations runs through one of them, or stops in it at a
violation. -/
def Runs (source : HashType) (before : Session) (enumeration : List (ActorAction × ℕ) → Prop) :
    Except (BfsEnd × Session) BfsRun → Prop
  | .ok next => ∃ taken, enumeration taken ∧ before.Took source next.session taken
  | .error (stop, session) =>
    stop = .violation ∧ ∃ taken full, enumeration full ∧ taken <+: full ∧ before.Took source session taken

theorem Runs.after {first middle : Session} {taken : List (ActorAction × ℕ)}
    {enumeration whole : List (ActorAction × ℕ) → Prop} {result : Except (BfsEnd × Session) BfsRun}
    (runs : Runs source middle enumeration result) (start : first.Took source middle taken)
    (continues : ∀ later, enumeration later → whole (taken ++ later)) : Runs source first whole result := by
  match result, runs with
  | .ok next, ⟨later, exhausts, took⟩ => exact ⟨_, continues later exhausts, start.trans took⟩
  | .error (stop, session), ⟨violation, later, full, exhausts, begun, took⟩ =>
    exact ⟨violation, _, _, continues full exhausts, (List.prefix_append_right_inj taken).mpr begun, start.trans took⟩

/-- One pass of the choice loop executes one outcome. -/
theorem bfsTransition_took {choices left : List ℕ} {choice : ℕ} {count : ℤ} (run : BfsRun)
    (found : searchActorChoice system .bfs 0 source actor preset cardinality choices = .ok (choice, count, left)) :
    (∃ session, bfsTransition system source actor preset cardinality choices run = .error (.violation, session) ∧
        run.session.Took source session [(actor, choice)]) ∨
      ∃ next, bfsTransition system source actor preset cardinality choices run = .ok (next, count, left) ∧
        run.session.Took source next.session [(actor, choice)] := by
  unfold bfsTransition
  rw [found]
  dsimp only
  split
  · exact .inl ⟨_, rfl, rfl⟩
  · refine .inr ⟨_, rfl, ?_⟩
    rw [BfsRun.visit_session]
    rfl

theorem bfsChoices_runs {choices : List ℕ} (offered : ∀ choice ∈ choices, choice < system.nChoose source actor)
    (run : BfsRun) :
    Runs source run.session (· = choices.map (Prod.mk actor))
      (bfsChoices system source actor (system.nChoose source actor) choices run) := by
  induction choices generalizing run with
  | nil => exact ⟨[], rfl, .refl _ _⟩
  | cons preset choices ih =>
    rw [List.forall_mem_cons] at offered
    have found : searchActorChoice system .bfs 0 source actor preset (system.nChoose source actor) choices =
        .ok (preset, (system.nChoose source actor : ℤ), choices) := searchActorChoice_later offered.1 (by decide)
    rcases bfsTransition_took run found with ⟨session, stopped, took⟩ | ⟨next, executed, took⟩
    · rw [bfsChoices, stopped]
      exact ⟨rfl, [(actor, preset)], _, rfl, by simp, took⟩
    · rw [bfsChoices, executed]
      exact (ih offered.2 next).after took fun later whole => by rw [whole]; rfl

theorem bfsActor_runs (system : TransitionSystem) (source : HashType) (actor : ActorAction) (run : BfsRun) :
    Runs source run.session (Exhausts (system.nChoose source) [actor]) (bfsActor system source actor run) := by
  obtain ⟨choice, left, found, each, offered⟩ :=
    searchActorChoice_splits system .bfs 0 source actor (by decide : (-1 : ℤ) < 0) le_rfl fun _ => le_rfl
  have whole : Exhausts (system.nChoose source) [actor] ((actor, choice) :: left.map (Prod.mk actor)) :=
    Exhausts.single each
  unfold bfsActor
  rcases bfsTransition_took run found with ⟨session, stopped, took⟩ | ⟨next, executed, took⟩
  · rw [stopped]
    exact ⟨rfl, _, _, whole, by simp, took⟩
  · rw [executed]
    exact (bfsChoices_runs offered next).after took fun later same => by rw [same]; exact whole

theorem bfsActors_runs (system : TransitionSystem) (source : HashType) (actors : List ActorAction) (run : BfsRun) :
    Runs source run.session (Exhausts (system.nChoose source) actors) (bfsActors system source actors run) := by
  induction actors generalizing run with
  | nil => exact ⟨[], .nil, .refl _ _⟩
  | cons actor actors ih =>
    have own := bfsActor_runs system source actor run
    rw [bfsActors]
    cases ran : bfsActor system source actor run with
    | ok next =>
      rw [ran] at own
      obtain ⟨taken, exhausts, took⟩ := own
      exact (ih next).after took fun later others => exhausts.append others
    | error stopped =>
      rw [ran] at own
      obtain ⟨violation, taken, full, exhausts, begun, took⟩ := own
      obtain ⟨rest, others⟩ := Exhausts.exists_taken (system.nChoose source) actors
      exact ⟨violation, taken, full ++ rest, exhausts.append others, begun.trans (List.prefix_append _ _), took⟩

theorem bfsLoop_not_threw (interrupt : Option ℕ) (run : BfsRun) (message : String) :
    (bfsLoop system interrupt run).1 ≠ .threw message := by
  fun_induction bfsLoop system interrupt run with
  | case1 | case2 | case4 | case6 => simp
  | case3 _ _ _ _ _ _ ih => exact ih
  | case5 interrupt run source queue popped unexpanded fine stopped expanded =>
    have runs := bfsActors_runs system source (system.enabledActorActions source) { run with queue := queue }
    rw [expanded] at runs
    rw [runs.1]
    simp
  | case7 _ _ _ _ _ _ _ _ _ _ _ ih => exact ih

/-! ## Depth-first search -/

/-- What the frames have executed themselves, in order: those on the stack, top first, and those already popped. -/
structure Ledger where
  own : List (List Transition)
  finished : List (DfsFrame × List Transition) := []

/-- Add a new transition to the top frame. -/
def Ledger.note (transition : Option Transition) : List (List Transition) → List (List Transition)
  | [] => []
  | top :: below => (top ++ transition.toList) :: below

/-- Follow one iteration of the loop. -/
def Ledger.step (ledger : Ledger) (before after : DfsRun) : Ledger :=
  let own :=
    if before.session.executed.length < after.session.executed.length then
      note after.session.executed.head? ledger.own
    else ledger.own
  if before.stack.length < after.stack.length then { ledger with own := [] :: own }
  else if after.stack.length < before.stack.length then
    ⟨own.tail, (before.stack.zip own).take 1 ++ ledger.finished⟩
  else { ledger with own := own }

/-- The ledger at the end of the loop. -/
def dfsLedger (system : TransitionSystem) : List ℕ → DfsRun → Ledger → Ledger
  | randoms, run, ledger =>
    match run.stack, randoms with
    | [], _ => ledger
    | _ :: _, [] => ledger
    | frame :: rest, random :: randoms =>
      match dfsIterate system random frame rest run with
      | .error (_, last) => ledger.step run last
      | .ok next => dfsLedger system randoms next (ledger.step run next)

/-- What a frame on the stack has executed. A frame amid an actor keeps the outcomes that are left. -/
inductive Logged (system : TransitionSystem) (frame : DfsFrame) : List Transition → Prop
  | entering (state : frame.state = .enter) : Logged system frame []
  | between {taken : List (ActorAction × ℕ)} (state : frame.state = .nextActor)
      (actors : frame.actors = system.enabledActorActions frame.ssHash)
      (past : Exhausts (system.nChoose frame.ssHash) (frame.actors.take frame.actorPos) taken) :
      Logged system frame (transitions frame.ssHash taken)
  | amid {taken : List (ActorAction × ℕ)} {actor : ActorAction} {choices : List ℕ}
      (state : frame.state = .choose ∨ frame.state = .resume)
      (actors : frame.actors = system.enabledActorActions frame.ssHash)
      (read : frame.actors[frame.actorPos]? = some actor)
      (past : Exhausts (system.nChoose frame.ssHash) (frame.actors.take frame.actorPos) taken)
      (cardinality : frame.cardinality = system.nChoose frame.ssHash actor)
      (each : (choices ++ frame.choices).Perm (List.range (max 1 (system.nChoose frame.ssHash actor))))
      (offered : ∀ choice ∈ frame.choices, choice < system.nChoose frame.ssHash actor)
      (left : frame.choices ≠ []) :
      Logged system frame (transitions frame.ssHash (taken ++ choices.map (Prod.mk actor)))

/-- The beginning of an enumeration of a state. -/
def Begun (system : TransitionSystem) (hash : HashType) (own : List Transition) : Prop :=
  ∃ full, Exhausts (system.nChoose hash) (system.enabledActorActions hash) full ∧ own <+: transitions hash full

/-- A popped frame was answered when it was entered, or enumerated its state. -/
def Finished (system : TransitionSystem) (frame : DfsFrame) (own : List Transition) : Prop :=
  frame.state = .enter ∧ own = [] ∨
    ∃ taken, Exhausts (system.nChoose frame.ssHash) (system.enabledActorActions frame.ssHash) taken ∧
      own = transitions frame.ssHash taken

theorem Exhausts.begun {hash : HashType} {position : ℕ} {taken own : List (ActorAction × ℕ)}
    (past : Exhausts (system.nChoose hash) ((system.enabledActorActions hash).take position) taken) (start : own <+: taken) :
    Begun system hash (transitions hash own) := by
  obtain ⟨rest, others⟩ :=
    Exhausts.exists_taken (system.nChoose hash) ((system.enabledActorActions hash).drop position)
  refine ⟨taken ++ rest, ?_, ?_⟩
  · simpa using past.append others
  · exact (start.trans (List.prefix_append _ _)).map _

/-- The enumeration up to an actor extended by the outcomes of that actor. -/
theorem Exhausts.snoc {count : ActorAction → ℕ} {actors : List ActorAction} {position : ℕ}
    {taken : List (ActorAction × ℕ)} {choices : List ℕ} (past : Exhausts count (actors.take position) taken)
    (read : actors[position]? = some actor) (each : choices.Perm (List.range (max 1 (count actor)))) :
    Exhausts count (actors.take (position + 1)) (taken ++ choices.map (Prod.mk actor)) := by
  rw [List.take_add_one, read]
  exact past.append (.single each)

theorem Logged.begun {frame : DfsFrame} {own : List Transition} (logged : Logged system frame own) :
    Begun system frame.ssHash own := by
  cases logged with
  | entering =>
    have none : Exhausts (system.nChoose frame.ssHash) ((system.enabledActorActions frame.ssHash).take 0) [] := .nil
    exact none.begun (List.prefix_refl _)
  | between _ actors past =>
    rw [actors] at past
    exact past.begun (List.prefix_refl _)
  | amid _ actors read past _ each =>
    have whole := past.snoc read each
    rw [actors] at whole
    refine whole.begun ?_
    rw [List.map_append, ← List.append_assoc]
    exact List.prefix_append _ _

/-- The ways in which an iteration on the top frame changes what the frames have executed. -/
inductive Iterates (system : TransitionSystem) (run : DfsRun) (frame : DfsFrame) (rest : List DfsFrame)
    (own : List Transition) : Except (DfsEnd × DfsRun) DfsRun → Prop
  | failed {last : DfsRun} (stack : last.stack = run.stack)
      (same : last.session.executed = run.session.executed) :
      Iterates system run frame rest own (.error (.violation, last))
  | violated {last : DfsRun} {new : Transition} (stack : last.stack = run.stack)
      (noted : last.session.executed = new :: run.session.executed)
      (begun : Begun system frame.ssHash (own ++ [new])) :
      Iterates system run frame rest own (.error (.violation, last))
  | pushed {next : DfsRun} {child parent : DfsFrame} {new : Transition}
      (stack : next.stack = child :: parent :: rest)
      (noted : next.session.executed = new :: run.session.executed) (enters : child.state = .enter)
      (logged : Logged system parent (own ++ [new])) : Iterates system run frame rest own (.ok next)
  | popped {next : DfsRun} {result : SearchCoverage} (stack : next.stack = mergeParent result rest)
      (same : next.session.executed = run.session.executed) (finished : Finished system frame own) :
      Iterates system run frame rest own (.ok next)
  | kept {next : DfsRun} {resumed : DfsFrame} (stack : next.stack = resumed :: rest)
      (same : next.session.executed = run.session.executed) (logged : Logged system resumed own) :
      Iterates system run frame rest own (.ok next)

section Iterations

variable {frame top : DfsFrame} {rest : List DfsFrame} {run entered : DfsRun} {taken : List (ActorAction × ℕ)}
  {own : List Transition}

/-- Executing an outcome puts it behind those executed before. -/
theorem dfsChoose_iterates (frame : DfsFrame) (done : List ℕ) {choice : ℕ} {left : List ℕ}
    (stack : run.stack = entered.stack) (same : run.session.executed = entered.session.executed)
    (source : frame.ssHash = top.ssHash) (actors : frame.actors = system.enabledActorActions frame.ssHash)
    (read : frame.actors[frame.actorPos]? = some actor)
    (past : Exhausts (system.nChoose frame.ssHash) (frame.actors.take frame.actorPos) taken)
    (found : searchActorChoice system .dfs random frame.ssHash actor preset frame.cardinality frame.choices =
      .ok (choice, (system.nChoose frame.ssHash actor : ℤ), left))
    (each : (done ++ choice :: left).Perm (List.range (max 1 (system.nChoose frame.ssHash actor))))
    (offered : ∀ other ∈ left, other < system.nChoose frame.ssHash actor) :
    Iterates system entered top rest (transitions frame.ssHash (taken ++ done.map (Prod.mk actor)))
      (dfsChoose system random frame actor preset rest run) := by
  have extended : transitions frame.ssHash (taken ++ done.map (Prod.mk actor)) ++ [⟨frame.ssHash, actor, choice⟩] =
      transitions frame.ssHash (taken ++ (done ++ [choice]).map (Prod.mk actor)) := by
    simp [transitions]
  have behind : done ++ choice :: left = (done ++ [choice]) ++ left := by simp
  rw [behind] at each
  unfold dfsChoose
  rw [found]
  dsimp only
  split
  · refine .violated stack (congrArg _ same) ?_
    have whole := past.snoc read each
    rw [actors] at whole
    rw [← source, extended]
    exact whole.begun ⟨left.map (Prod.mk actor), by simp⟩
  · refine .pushed rfl (congrArg _ same) rfl ?_
    rw [extended]
    unfold DfsFrame.suspended
    dsimp only
    split
    · next none =>
      subst none
      rw [List.append_nil] at each
      exact .between rfl actors (past.snoc read each)
    · next some => exact .amid (.inr rfl) actors read past rfl each offered some

theorem dfsNextActor_iterates (frame top : DfsFrame) (run entered : DfsRun) (random : ℕ)
    (stack : run.stack = entered.stack)
    (same : run.session.executed = entered.session.executed) (source : frame.ssHash = top.ssHash)
    (actors : frame.actors = system.enabledActorActions frame.ssHash)
    (past : Exhausts (system.nChoose frame.ssHash) (frame.actors.take frame.actorPos) taken) :
    Iterates system entered top rest (transitions frame.ssHash taken) (dfsNextActor system random frame rest run) := by
  unfold dfsNextActor
  split
  · next beyond =>
    refine .popped rfl same (.inr ⟨taken, ?_, by rw [source]⟩)
    rw [List.take_of_length_le (List.getElem?_eq_none_iff.mp beyond), actors, source] at past
    exact past
  · next actor read =>
    obtain ⟨choice, left, found, each, offered⟩ :=
      searchActorChoice_splits system .dfs random frame.ssHash actor (by decide : (-1 : ℤ) < 0) (by decide : (-1 : ℤ) ≤ 0)
        (by decide)
    rw [← List.append_nil taken]
    exact dfsChoose_iterates { frame with choices := [], cardinality := -1, state := .choose } [] stack same source
      actors read past found each offered

theorem dfsEnter_iterates (random : ℕ) (state : frame.state = .enter) :
    Iterates system run frame rest [] (dfsEnter system random frame rest run) := by
  unfold dfsEnter
  dsimp only
  split
  · exact .popped rfl rfl (.inl ⟨state, rfl⟩)
  split
  · exact .popped rfl rfl (.inl ⟨state, rfl⟩)
  split
  · exact .failed rfl rfl
  split
  · exact .popped rfl rfl (.inl ⟨state, rfl⟩)
  split
  · exact .popped rfl rfl (.inl ⟨state, rfl⟩)
  · exact dfsNextActor_iterates { frame with
      actors := system.enabledActorActions frame.ssHash
      state := .nextActor
      actorPos := 0 } frame { run with session := run.session.discover frame.ssHash } run random rfl rfl rfl rfl .nil

theorem dfsIterate_iterates (random : ℕ) (logged : Logged system frame own) :
    Iterates system run frame rest own (dfsIterate system random frame rest run) := by
  unfold dfsIterate
  cases logged with
  | entering state =>
    rw [state]
    exact dfsEnter_iterates random state
  | between state actors past =>
    rw [state]
    exact dfsNextActor_iterates frame frame run run random rfl rfl rfl actors past
  | @amid taken actor done state actors read past cardinality each offered left =>
    rcases state with state | state
    · rw [state]
      dsimp only
      rw [read]
      dsimp only
      rw [if_neg (by omega)]
      obtain ⟨preset, choices, split⟩ := List.exists_cons_of_ne_nil left
      rw [split] at each offered ⊢
      rw [List.forall_mem_cons] at offered
      refine dfsChoose_iterates { frame with choices := choices } done rfl rfl rfl actors read past ?_ each offered.2
      dsimp only
      rw [cardinality]
      exact searchActorChoice_later offered.1 (by decide)
    · rw [state]
      refine .kept rfl rfl ?_
      unfold DfsFrame.resumed
      rw [if_neg left]
      exact .amid (.inl rfl) actors read past cardinality each offered left

end Iterations

/-- The ledger lists what the frames of the stack have executed. -/
structure Ledger.Balanced (system : TransitionSystem) (stack : List DfsFrame) (ledger : Ledger) : Prop where
  own : List.Forall₂ (Logged system) stack ledger.own
  finished : ∀ entry ∈ ledger.finished, Finished system entry.1 entry.2

/-- Whatever ends the loop: the popped frames have enumerated their states, and the others have begun to. -/
structure Ledger.Complete (system : TransitionSystem) (stack : List DfsFrame) (ledger : Ledger) : Prop where
  begun : List.Forall₂ (fun frame own => Begun system frame.ssHash own) stack ledger.own
  finished : ∀ entry ∈ ledger.finished, Finished system entry.1 entry.2

theorem Ledger.Balanced.complete {stack : List DfsFrame} {ledger : Ledger} (balanced : ledger.Balanced system stack) :
    ledger.Complete system stack :=
  ⟨balanced.own.imp fun _ _ logged => logged.begun, balanced.finished⟩

theorem Logged.merge {frame : DfsFrame} {own : List Transition} (result : SearchCoverage)
    (logged : Logged system frame own) :
    Logged system { frame with coverage := frame.coverage.merge result } own := by
  cases logged with
  | entering state => exact .entering state
  | between state actors past => exact .between state actors past
  | amid state actors read past cardinality each offered left =>
    exact .amid state actors read past cardinality each offered left

theorem mergeParent_logged {rest : List DfsFrame} {owns : List (List Transition)} (result : SearchCoverage)
    (logged : List.Forall₂ (Logged system) rest owns) :
    List.Forall₂ (Logged system) (mergeParent result rest) owns := by
  cases logged with
  | nil => exact .nil
  | cons top below => exact .cons (top.merge result) below

theorem length_mergeParent (result : SearchCoverage) (rest : List DfsFrame) :
    (mergeParent result rest).length = rest.length := by
  cases rest <;> rfl

section Ledgers

variable {run next : DfsRun} {frame : DfsFrame} {rest : List DfsFrame} {own : List Transition}
  {owns : List (List Transition)} {new : Transition} {ledger : Ledger}

theorem Ledger.step_note (logged : ledger.own = own :: owns)
    (noted : next.session.executed = new :: run.session.executed) (stack : next.stack.length = run.stack.length) :
    ledger.step run next = { ledger with own := (own ++ [new]) :: owns } := by
  simp [step, noted, stack, logged, note]

theorem Ledger.step_push (logged : ledger.own = own :: owns)
    (noted : next.session.executed = new :: run.session.executed) (stack : next.stack.length = run.stack.length + 1) :
    ledger.step run next = { ledger with own := [] :: (own ++ [new]) :: owns } := by
  simp [step, noted, stack, logged, note]

theorem Ledger.step_pop (logged : ledger.own = own :: owns) (running : run.stack = frame :: rest)
    (same : next.session.executed = run.session.executed) (stack : next.stack.length = rest.length) :
    ledger.step run next = ⟨owns, (frame, own) :: ledger.finished⟩ := by
  simp [step, same, stack, logged, running]

theorem Ledger.step_keep (same : next.session.executed = run.session.executed)
    (stack : next.stack.length = run.stack.length) : ledger.step run next = ledger := by
  simp [step, same, stack]

/-- One iteration keeps the ledger balanced; it ends the loop at a violation only. -/
theorem Iterates.balance {result : Except (DfsEnd × DfsRun) DfsRun} (running : run.stack = frame :: rest)
    (logged : ledger.own = own :: owns) (balanced : ledger.Balanced system run.stack)
    (iterates : Iterates system run frame rest own result) :
    (∃ last, result = .error (.violation, last) ∧ (ledger.step run last).Complete system last.stack) ∨
      ∃ next, result = .ok next ∧ (ledger.step run next).Balanced system next.stack := by
  have frames := balanced.own
  rw [running, logged, List.forall₂_cons] at frames
  cases iterates with
  | failed stack same =>
    refine .inl ⟨_, rfl, ?_⟩
    rw [Ledger.step_keep same (by rw [stack]), stack]
    exact balanced.complete
  | violated stack noted begun =>
    refine .inl ⟨_, rfl, ?_⟩
    rw [Ledger.step_note logged noted (by rw [stack]), stack, running]
    exact ⟨.cons begun (frames.2.imp fun _ _ logged => logged.begun), balanced.finished⟩
  | pushed stack noted enters top =>
    refine .inr ⟨_, rfl, ?_⟩
    rw [Ledger.step_push logged noted (by simp [stack, running]), stack]
    exact ⟨.cons (.entering enters) (.cons top frames.2), balanced.finished⟩
  | @popped next result stack same finished =>
    refine .inr ⟨_, rfl, ?_⟩
    rw [Ledger.step_pop logged running same (by rw [stack, length_mergeParent]), stack]
    exact ⟨mergeParent_logged result frames.2, List.forall_mem_cons.mpr ⟨finished, balanced.finished⟩⟩
  | kept stack same top =>
    refine .inr ⟨_, rfl, ?_⟩
    rw [Ledger.step_keep same (by simp [stack, running]), stack]
    refine ⟨?_, balanced.finished⟩
    rw [logged]
    exact .cons top frames.2

end Ledgers

theorem dfsLoop_ledger (randoms : List ℕ) {run : DfsRun} {ledger : Ledger}
    (balanced : ledger.Balanced system run.stack) :
    ((dfsLoop system randoms run).1 = .finished ∨ (dfsLoop system randoms run).1 = .violation ∨
        (dfsLoop system randoms run).1 = .interrupted) ∧
      (dfsLedger system randoms run ledger).Complete system (dfsLoop system randoms run).2.stack := by
  induction randoms generalizing run ledger with
  | nil =>
    unfold dfsLoop dfsLedger
    cases run.stack with
    | nil => exact ⟨.inl rfl, balanced.complete⟩
    | cons frame rest => exact ⟨.inr (.inr rfl), balanced.complete⟩
  | cons random randoms ih =>
    cases running : run.stack with
    | nil =>
      unfold dfsLoop dfsLedger
      rw [running]
      exact ⟨.inl rfl, balanced.complete⟩
    | cons frame rest =>
      have frames := balanced.own
      rw [running] at frames
      obtain ⟨own, owns, top, below, logged⟩ := List.forall₂_cons_left_iff.mp frames
      unfold dfsLoop dfsLedger
      rw [running]
      dsimp only
      rcases (dfsIterate_iterates random top).balance running logged balanced with
        ⟨last, stopped, complete⟩ | ⟨next, iterated, onward⟩
      · rw [stopped]
        exact ⟨.inr (.inl rfl), complete⟩
      · rw [iterated]
        exact ih onward

end DetSim.Scheduler

/-! ## The enumeration of a worker -/

namespace DetSim.Search

open Scheduler (ActorAction Exhausts handleAutoChoice)

/-- The executions of a saved source: the syscall of an action offers the same number of outcomes every time, and the
preset one is taken. -/
structure Reports (execute : Executor) (count : ActorAction → ℕ) : Prop where
  counted : ∀ actor preset result, execute actor preset = .ok result → result.nChoose = count actor
  chosen : ∀ actor preset result, execute actor preset = .ok result → count actor ≠ 0 →
    result.choose = handleAutoChoice .bfs 0 (count actor) preset

/-- The edge sent for an outcome. -/
def Sends (execute : Executor) (callback : EdgeCallback) (count : ActorAction → ℕ) (entry : ActorAction × ℕ)
    (edge : Edge) : Prop :=
  ∃ result, execute entry.1 entry.2 = .ok result ∧
    callback ⟨entry.1, edgeChoice entry.1 result, count entry.1, result⟩ = .ok edge

/-- The exceptions that end an enumeration come from the execution of an outcome or from the callback. -/
inductive Breaks (execute : Executor) (callback : EdgeCallback) (count : ActorAction → ℕ) (entry : ActorAction × ℕ) :
    String → Prop
  | rejected {what : String} (ran : execute entry.1 entry.2 = .error (.rejected what)) :
      Breaks execute callback count entry ("Enumerated actor action was rejected: " ++ what)
  | failed {what : String} (ran : execute entry.1 entry.2 = .error (.failed what)) :
      Breaks execute callback count entry what
  | discarded {result : Execution} (ran : execute entry.1 entry.2 = .ok result) (code : result.code = .ckptDiscard) :
      Breaks execute callback count entry "Enumerated actor action did not execute"
  | unnamed {result : Execution} (ran : execute entry.1 entry.2 = .ok result) (target : result.target = 0) :
      Breaks execute callback count entry "Single-state expansion produced no target identity"
  | unsent {result : Execution} {what : String} (ran : execute entry.1 entry.2 = .ok result)
      (threw : callback ⟨entry.1, edgeChoice entry.1 result, count entry.1, result⟩ = .error what) :
      Breaks execute callback count entry what

variable {execute : Executor} {callback : EdgeCallback} {count : ActorAction → ℕ} {actor : ActorAction}
  {preset : ℕ} {cardinality : ℤ}

/-- An execution in the choice loop discovers the alternatives at first, and finds its preset later. -/
structure Round (count : ActorAction → ℕ) (actor : ActorAction) (preset : ℕ) (cardinality : ℤ) : Prop where
  first : cardinality < 0 → preset = 0
  later : 0 ≤ cardinality → cardinality = count actor ∧ preset < count actor

theorem Reports.choose_eq (reports : Reports execute count) {result : Execution}
    (ran : execute actor preset = .ok result) (some : count actor ≠ 0) : result.choose = preset := by
  rw [reports.chosen actor preset result ran some, Scheduler.handleAutoChoice_of_preset (by omega) (by decide)]

/-- An execution in the choice loop fails for itself or finds the count; the first one also finds the alternatives. -/
theorem Round.search (round : Round count actor preset cardinality) (reports : Reports execute count)
    (callback : EdgeCallback) :
    (∃ what, searchActorChoice execute actor preset cardinality = .error what ∧
        Breaks execute callback count (actor, preset) what) ∨
      ∃ result left, searchActorChoice execute actor preset cardinality =
          .ok (result, (count actor : ℤ), left.map Int.ofNat) ∧
        execute actor preset = .ok result ∧ (cardinality < 0 →
          (preset :: left).Perm (List.range (max 1 (count actor))) ∧ ∀ other ∈ left, other < count actor) := by
  unfold searchActorChoice
  split
  · next ran => exact .inl ⟨_, rfl, .rejected ran⟩
  · next ran => exact .inl ⟨_, rfl, .failed ran⟩
  next result ran =>
  have counted := reports.counted actor preset result ran
  have chosen := reports.choose_eq ran
  have range : count actor ≠ 0 → preset < count actor := by
    intro some
    by_cases discovering : cardinality < 0
    · rw [round.first discovering]
      omega
    · exact (round.later (by omega)).2
  split
  · next code => exact .inl ⟨_, rfl, .discarded ran code⟩
  refine .inr ?_
  rw [if_neg (by omega)]
  split
  · next discovering =>
    refine ⟨result, ((List.range (count actor)).filter fun choice : ℕ => choice ≠ preset).reverse, ?_, ran, fun _ => ?_⟩
    · rw [counted, Int.toNat_natCast, List.map_reverse]
      congr 4
      by_cases none : count actor = 0
      · simp [none]
      · rw [chosen none, List.filter_map]
        congr 1
        refine List.filter_congr fun choice _ => ?_
        simp
    · have first := round.first discovering
      refine ⟨?_, fun other member => by simp at member; exact member.1⟩
      rw [List.perm_ext_iff_of_nodup (by simp [List.nodup_range.filter]) List.nodup_range]
      intro other
      simp only [List.mem_cons, List.mem_reverse, List.mem_filter, List.mem_range, decide_eq_true_eq]
      omega
  · next known =>
    obtain ⟨same, bound⟩ := round.later (by omega)
    rw [if_neg (by omega), same]
    exact ⟨result, [], rfl, ran, fun discovering => absurd discovering (by omega)⟩

/-- One round sends the edge of its outcome, or breaks at it. -/
theorem Round.enumerate (round : Round count actor preset cardinality) (reports : Reports execute count)
    (callback : EdgeCallback) :
    (∃ what, enumerateChoice execute callback actor preset cardinality = .error what ∧
        Breaks execute callback count (actor, preset) what) ∨
      ∃ edge violating left, enumerateChoice execute callback actor preset cardinality =
          .ok (edge, violating, (count actor : ℤ), left.map Int.ofNat) ∧
        Sends execute callback count (actor, preset) edge ∧ (cardinality < 0 →
          (preset :: left).Perm (List.range (max 1 (count actor))) ∧ ∀ other ∈ left, other < count actor) := by
  unfold enumerateChoice
  rcases round.search reports callback with ⟨what, failed, breaks⟩ | ⟨result, left, found, ran, discovered⟩
  · rw [failed]
    exact .inl ⟨what, rfl, breaks⟩
  rw [found]
  simp only [bind, Except.bind, pure, Except.pure]
  split
  · next target => exact .inl ⟨_, rfl, .unnamed ran target⟩
  split
  · next what threw => exact .inl ⟨what, rfl, .unsent ran threw⟩
  · next edge sent => exact .inr ⟨edge, _, left, rfl, ⟨result, ran, sent⟩, discovered⟩

/-- The edges of the listed enumerations: all of one of them unless the worker stops in it, after a violation or at an
outcome that breaks. -/
def Streams (execute : Executor) (callback : EdgeCallback) (count : ActorAction → ℕ)
    (enumeration : List (ActorAction × ℕ) → Prop) (enumerated : Enumerated) : Prop :=
  ∃ taken full, enumeration full ∧ taken <+: full ∧
    List.Forall₂ (Sends execute callback count) taken enumerated.1 ∧
    (enumerated.2 = .ok false → taken = full) ∧
    ∀ what, enumerated.2 = .error what → ∃ next, taken ++ [next] <+: full ∧ Breaks execute callback count next what

namespace Streams

variable {enumeration whole : List (ActorAction × ℕ) → Prop} {enumerated : Enumerated}
  {taken : List (ActorAction × ℕ)} {edges : List Edge}

theorem after (streams : Streams execute callback count enumeration enumerated)
    (sent : List.Forall₂ (Sends execute callback count) taken edges)
    (continues : ∀ later, enumeration later → whole (taken ++ later)) :
    Streams execute callback count whole (enumerated.map (edges ++ ·) id) := by
  obtain ⟨later, full, exhausts, begun, sentLater, complete, breaks⟩ := streams
  refine ⟨taken ++ later, taken ++ full, continues full exhausts, (List.prefix_append_right_inj taken).mpr begun,
    List.rel_append sent sentLater, fun done => ?_, fun what failed => ?_⟩
  · rw [complete done]
  · obtain ⟨next, start, breaks⟩ := breaks what failed
    exact ⟨next, by rw [List.append_assoc]; exact (List.prefix_append_right_inj taken).mpr start, breaks⟩

/-- A stream that stops with its first outcome. -/
theorem stopped {entry : ActorAction × ℕ} {rest : List (ActorAction × ℕ)} {edge : Edge}
    (exhausts : enumeration (entry :: rest)) (sends : Sends execute callback count entry edge) :
    Streams execute callback count enumeration ([edge], .ok true) :=
  ⟨[entry], _, exhausts, by simp, .cons sends .nil, by simp, by simp⟩

theorem broken {entry : ActorAction × ℕ} {rest : List (ActorAction × ℕ)} {what : String}
    (exhausts : enumeration (entry :: rest)) (breaks : Breaks execute callback count entry what) :
    Streams execute callback count enumeration ([], .error what) := by
  refine ⟨[], _, exhausts, List.nil_prefix, .nil, by simp, fun other same => ?_⟩
  cases same
  exact ⟨entry, by simp, breaks⟩

end Streams

theorem enumerateRemaining_streams (reports : Reports execute count) (callback : EdgeCallback) {choices : List ℕ}
    (offered : ∀ choice ∈ choices, choice < count actor) :
    Streams execute callback count (· = choices.map (Prod.mk actor))
      (enumerateRemaining execute callback actor (count actor) (choices.map Int.ofNat)) := by
  induction choices with
  | nil => exact ⟨[], [], rfl, List.prefix_refl _, .nil, fun _ => rfl, by simp [enumerateRemaining]⟩
  | cons preset choices ih =>
    rw [List.forall_mem_cons] at offered
    have round : Round count actor preset (count actor) := ⟨fun negative => by omega, fun _ => ⟨rfl, offered.1⟩⟩
    simp only [List.map_cons, enumerateRemaining, Int.ofNat_eq_natCast]
    rcases round.enumerate reports callback with ⟨what, failed, breaks⟩ | ⟨edge, violating, left, sent, sends, -⟩
    · rw [failed]
      exact .broken rfl breaks
    · rw [sent]
      cases violating with
      | true => exact .stopped rfl sends
      | false => exact (ih offered.2).after (.cons sends .nil) fun later same => by rw [same]; rfl

theorem enumerateActor_streams (reports : Reports execute count) (callback : EdgeCallback) (actor : ActorAction) :
    Streams execute callback count (Exhausts count [actor]) (enumerateActor execute callback actor) := by
  have round : Round count actor 0 (-1) := ⟨fun _ => rfl, fun known => absurd known (by decide)⟩
  unfold enumerateActor
  rcases round.enumerate reports callback with ⟨what, failed, breaks⟩ | ⟨edge, violating, left, sent, sends, discovered⟩
  · rw [show enumerateChoice execute callback actor 0 (-1) = .error what from failed]
    have each := (List.perm_cons_erase (List.mem_range.mpr (by omega : 0 < max 1 (count actor)))).symm
    exact .broken (Exhausts.single each) breaks
  · obtain ⟨each, offered⟩ := discovered (by decide)
    have whole : Exhausts count [actor] ((actor, 0) :: left.map (Prod.mk actor)) := Exhausts.single each
    rw [show enumerateChoice execute callback actor 0 (-1) =
      .ok (edge, violating, (count actor : ℤ), left.map Int.ofNat) from sent]
    cases violating with
    | true => exact .stopped whole sends
    | false =>
      exact (enumerateRemaining_streams reports callback offered).after (.cons sends .nil) fun later same => by
        rw [same]; exact whole

theorem enumerateActors_streams (reports : Reports execute count) (callback : EdgeCallback)
    (actors : List ActorAction) :
    Streams execute callback count (Exhausts count actors) (enumerateActors execute callback actors) := by
  induction actors with
  | nil => exact ⟨[], [], .nil, List.prefix_refl _, .nil, fun _ => rfl, by simp [enumerateActors]⟩
  | cons actor actors ih =>
    have own := enumerateActor_streams reports callback actor
    obtain ⟨rest, others⟩ := Exhausts.exists_taken count actors
    rw [enumerateActors]
    generalize enumerateActor execute callback actor = answer at own ⊢
    rcases answer with ⟨edges, what | (_ | _)⟩
    · obtain ⟨taken, full, exhausts, begun, sent, -, breaks⟩ := own
      refine ⟨taken, full ++ rest, exhausts.append others, begun.trans (List.prefix_append _ _), sent, by simp, ?_⟩
      intro other failed
      obtain ⟨next, start, breaks⟩ := breaks other failed
      exact ⟨next, start.trans (List.prefix_append _ _), breaks⟩
    · obtain ⟨taken, full, exhausts, -, sent, complete, -⟩ := own
      rw [← complete rfl] at exhausts
      exact ih.after sent fun later others => exhausts.append others
    · obtain ⟨taken, full, exhausts, begun, sent, -, -⟩ := own
      exact ⟨taken, full ++ rest, exhausts.append others, begun.trans (List.prefix_append _ _), sent, by simp, by simp⟩

/-- The edges of a source that is expanded are those of its actors. -/
theorem enumerateState_streams (reports : Reports execute count) (callback : EdgeCallback) (restore : Except String Unit)
    {source : Source} {mayExpand : Bool} (expands : classifyEnumeration source mayExpand = .expanded) :
    ∃ status, Streams execute callback count (Exhausts count source.actors)
        ((enumerateState execute callback restore source mayExpand).1, status) ∧
      ((enumerateState execute callback restore source mayExpand).2 = .ok .expanded → status = .ok false) ∧
      ∀ what, (enumerateState execute callback restore source mayExpand).2 = .error what →
        status = .error what ∨ status = .ok false ∧ restore = .error what := by
  have streams := enumerateActors_streams reports callback source.actors
  unfold enumerateState
  rw [expands]
  dsimp only
  generalize enumerateActors execute callback source.actors = answer at streams ⊢
  rcases answer with ⟨edges, what | (_ | _)⟩
  · exact ⟨_, streams, by simp, fun other same => .inl (by simpa using same)⟩
  · refine ⟨_, streams, fun _ => rfl, fun what failed => .inr ⟨rfl, ?_⟩⟩
    cases restore with
    | error other => simpa [Except.map] using failed
    | ok => simp [Except.map] at failed
  · exact ⟨_, streams, by simp, by simp⟩

end DetSim.Search

namespace DetSim.Scheduler

/-- Each search executes all outcomes of all actors of a state, each once and actor by actor, unless it stops on the
way; then it has executed the beginning of such an enumeration. The breadth-first search stops at a violation only, the
depth-first search also at an interrupt, and a worker also at an exception of an execution or of its callback: none
finds a changed cardinality. Each frame of the depth-first search enumerates on its own, and no execution depends on
what the previous one left in the registers. -/
theorem choices_enumerated_once (system : TransitionSystem) :
    (∀ mode random pending source actor preset cardinality remaining registers,
      (pending = true → system.nChoose source actor = 0 ∧ preset ≤ 0) →
        (searchActorChoiceOn system mode random pending source actor preset cardinality remaining registers).1 =
          searchActorChoice system mode random source actor preset cardinality remaining) ∧
      (∀ source run, Runs source run.session
        (Exhausts (system.nChoose source) (system.enabledActorActions source))
        (bfsActors system source (system.enabledActorActions source) run)) ∧
      (∀ interrupt session message, (execBfs system interrupt session).1 ≠ .threw message) ∧
      (∀ randoms root depth session,
        ((doDfsIterative system randoms root depth session).1 = .finished ∨
          (doDfsIterative system randoms root depth session).1 = .violation ∨
          (doDfsIterative system randoms root depth session).1 = .interrupted) ∧
        (dfsLedger system randoms { session := session, stack := [{ ssHash := root, depth := depth }] }
          { own := [[]] }).Complete system (doDfsIterative system randoms root depth session).2.stack) ∧
      ∀ execute callback count restore source mayExpand, Search.Reports execute count →
        Search.classifyEnumeration source mayExpand = .expanded →
        ∃ status, Search.Streams execute callback count (Exhausts count source.actors)
            ((Search.enumerateState execute callback restore source mayExpand).1, status) ∧
          ((Search.enumerateState execute callback restore source mayExpand).2 = .ok .expanded → status = .ok false) ∧
          ∀ what, (Search.enumerateState execute callback restore source mayExpand).2 = .error what →
            status = .error what ∨ status = .ok false ∧ restore = .error what := by
  refine ⟨fun mode random _ _ _ preset cardinality remaining registers unoffered =>
      searchActorChoiceOn_eq mode random preset cardinality remaining registers unoffered,
    fun source run => bfsActors_runs system source _ run, fun interrupt session message =>
      bfsLoop_not_threw interrupt _ message, fun randoms root depth session => ?_,
    fun execute callback count restore source mayExpand reports expands =>
      Search.enumerateState_streams reports callback restore expands⟩
  exact dfsLoop_ledger randoms ⟨.cons (.entering rfl) .nil, by simp⟩

/-- A state with one actor, whose syscall has two outcomes. -/
def fork (failed : HashType → Bool) (fine : failed 1 = false) : TransitionSystem where
  propertyFailed := failed
  enabledActorActions hash := if hash = 1 then [⟨0, 0, .normal⟩] else []
  nChoose _ _ := 2
  successor _ _ choice := 2 + UInt64.ofNat choice
  disabled_of_failed hash violates := by
    refine if_neg ?_
    rintro rfl
    rw [fine] at violates
    contradiction

/-- Two outcomes of the first actor and the single one of the second. -/
theorem choices_enumerated_once_twoChoices :
    let count : ActorAction → ℕ := fun actor => if actor.action = .normal then 2 else 0
    ∃ taken, Exhausts count (Search.Source.load 2 Search.waitingNode).actors taken ∧
      List.Forall₂ (Search.Sends Search.twoChoices.execute (Search.workerEdge Search.twoChoices ⟨7, 1, 1, 0, true⟩) count)
        taken
        (Search.enumerateState Search.twoChoices.execute (Search.workerEdge Search.twoChoices ⟨7, 1, 1, 0, true⟩) (.ok ())
          (Search.Source.load 2 Search.waitingNode) true).1 := by
  intro count
  have reports : Search.Reports Search.twoChoices.execute count := by
    constructor
    · intro actor preset result executed
      simp only [Search.twoChoices] at executed
      split at executed <;> cases executed <;> simp [count, *]
    · intro actor preset result executed some
      simp only [Search.twoChoices] at executed
      split at executed <;> cases executed <;> simp_all [count, handleAutoChoice]
  obtain ⟨status, ⟨taken, full, exhausts, -, sent, complete, -⟩, expanded, -⟩ :=
    (choices_enumerated_once (fork (fun _ => false) rfl)).2.2.2.2 Search.twoChoices.execute
      (Search.workerEdge Search.twoChoices ⟨7, 1, 1, 0, true⟩) count (.ok ()) (Search.Source.load 2 Search.waitingNode) true
      reports (by decide)
  rw [← complete (expanded (by decide))] at exhausts
  exact ⟨taken, exhausts, sent⟩

/-- At a violation the search stops before the other outcomes of the actor. -/
theorem violation_cuts_enumeration :
    (fork (· == 2) rfl).nChoose 1 ⟨0, 0, .normal⟩ = 2 ∧
      ∃ session, bfsActors (fork (· == 2) rfl) 1 [⟨0, 0, .normal⟩] ⟨{ running := 1 }, [], {1}⟩ =
          .error (.violation, session) ∧ session.executed = [⟨1, ⟨0, 0, .normal⟩, 0⟩] :=
  ⟨rfl, _, rfl, rfl⟩

end DetSim.Scheduler
