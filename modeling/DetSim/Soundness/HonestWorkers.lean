import DetSim.Soundness.WorkerReplies
import DetSim.Soundness.FrontierExploration
import DetSim.Soundness.SchedulerCoverage

/-! # Honest workers report the transition system

A deterministic transition system fixes the outcomes of every enabled action. A worker that executes
them sends edges of the system, wherever its stream is cut. Since the coordinator commits an expansion
only with one edge for each choice of each enabled action, what it commits is exactly the set of
successors.
-/

namespace DetSim.Search

open Scheduler (ActorAction TransitionAction TransitionSystem)

/-- The successors of a state, over all enabled actions and their outcomes. -/
def successors (system : TransitionSystem) : System := fun state =>
  (system.enabledActorActions state).toFinset.biUnion fun actor =>
    (Finset.range (max 1 (system.nChoose state actor))).image (system.successor state actor)

variable {system : TransitionSystem}

theorem mem_successors {state target : StateKey} :
    target ∈ successors system state ↔ ∃ actor ∈ system.enabledActorActions state,
      ∃ choice < max 1 (system.nChoose state actor), system.successor state actor choice = target := by
  simp [successors]

theorem successors_step_iff {source target : StateKey} :
    (successors system).Step source target ↔ system.Step source target := by
  rw [System.Step, mem_successors]
  constructor
  · rintro ⟨actor, enabled, choice, below, rfl⟩
    exact ⟨⟨source, actor, choice⟩, ⟨enabled, below⟩, rfl, rfl⟩
  · rintro ⟨⟨_, actor, choice⟩, ⟨enabled, below⟩, rfl, rfl⟩
    exact ⟨actor, enabled, choice, below, rfl⟩

theorem successors_eq_empty_iff {state : StateKey} :
    successors system state = ∅ ↔ system.enabledActorActions state = [] := by
  constructor
  · intro none
    by_contra some
    obtain ⟨actor, enabled⟩ := List.exists_mem_of_ne_nil _ some
    have member : system.successor state actor 0 ∈ successors system state :=
      mem_successors.mpr ⟨actor, enabled, 0, by omega, rfl⟩
    simp [none] at member
  · intro none
    simp [successors, none]

/-- What the coordinator loads for a state. -/
def systemSource (system : TransitionSystem) (state : StateKey) : Source :=
  ⟨system.propertyFailed state, system.enabledActorActions state⟩

/-- An edge of the system, with the number of outcomes of its action. -/
def TruthfulEdge (system : TransitionSystem) (edge : Edge) : Prop :=
  edge.choiceCount = system.nChoose edge.source edge.actor ∧
    edge.target = system.successor edge.source edge.actor edge.choice.toNat

/-- The executions of a worker on a source follow the system. -/
structure Attempt.Follows (attempt : Attempt) (system : TransitionSystem) (state : StateKey) : Prop where
  range : ∀ actor ∈ system.enabledActorActions state, system.nChoose state actor < 2 ^ 31
  timeout : ∀ actor ∈ system.enabledActorActions state, actor.action = .timeout → system.nChoose state actor = 0
  nChoose : ∀ actor ∈ system.enabledActorActions state, ∀ preset result, attempt.execute actor preset = .ok result →
    result.nChoose = system.nChoose state actor
  target : ∀ actor ∈ system.enabledActorActions state, ∀ preset result, attempt.execute actor preset = .ok result →
    result.target = system.successor state actor (if result.nChoose = 0 then 0 else result.choose.toNat)

section Streams

variable {execute : Executor} {callback : EdgeCallback} {P : Edge → Prop}

theorem enumerateRemaining_forall {actor : ActorAction}
    (round : ∀ preset cardinality answer, enumerateChoice execute callback actor preset cardinality = .ok answer →
      P answer.1) (cardinality : ℤ) (presets : List ℤ) :
    ∀ edge ∈ (enumerateRemaining execute callback actor cardinality presets).1, P edge := by
  induction presets with
  | nil => simp [enumerateRemaining]
  | cons preset rest ih =>
    simp only [enumerateRemaining]
    split
    · simp
    · next sent => simpa using round _ _ _ sent
    · next sent => simpa using ⟨round _ _ _ sent, ih⟩

theorem enumerateActors_forall {actors : List ActorAction}
    (round : ∀ actor ∈ actors, ∀ preset cardinality answer,
      enumerateChoice execute callback actor preset cardinality = .ok answer → P answer.1) :
    ∀ edge ∈ (enumerateActors execute callback actors).1, P edge := by
  induction actors with
  | nil => simp [enumerateActors]
  | cons actor rest ih =>
    have own : ∀ edge ∈ (enumerateActor execute callback actor).1, P edge := by
      have each := round actor List.mem_cons_self
      unfold enumerateActor
      split
      · simp
      · next sent => simpa using each _ _ _ sent
      · next cardinality discovered sent =>
        simpa using ⟨each _ _ _ sent, enumerateRemaining_forall each cardinality discovered⟩
    unfold enumerateActors
    split
    · next edges ended =>
      rw [ended] at own
      intro edge member
      rcases List.mem_append.mp member with first | later
      · exact own edge first
      · exact ih (fun other member => round other (List.mem_cons_of_mem _ member)) edge later
    · exact own

/-- What every round sends, the whole stream of a worker consists of. -/
theorem workerReplies_forall {attempt : Attempt} {ticket : Ticket} {source : Source}
    (round : ∀ actor ∈ source.actors, ∀ preset cardinality answer,
      enumerateChoice attempt.execute (workerEdge attempt ticket) actor preset cardinality = .ok answer → P answer.1)
    {edge : Edge} (member : .edge edge ∈ workerReplies attempt ticket source) : P edge := by
  cases prepared : attempt.prepare with
  | error what => simp [workerReplies, prepared] at member
  | ok _ =>
    have sent : edge ∈ (enumerateState attempt.execute (workerEdge attempt ticket) attempt.restore source
        ticket.mayExpand).1 := by
      simp only [workerReplies, prepared] at member
      rcases List.mem_append.mp member with listed | last
      · simpa using listed
      · rw [List.mem_singleton] at last
        split at last <;> cases last
    have all := enumerateActors_forall round
    unfold enumerateState at sent
    split at sent
    · split at sent <;> simp_all
    · simp at sent

end Streams

/-- Every edge an honest worker sends for a source is an edge of the system there. -/
theorem Attempt.Follows.truthful {attempt : Attempt} {ticket : Ticket}
    (follows : attempt.Follows system ticket.state) {edge : Edge}
    (member : .edge edge ∈ workerReplies attempt ticket (systemSource system ticket.state)) :
    TruthfulEdge system edge := by
  refine workerReplies_forall ?_ member
  rintro actor enabled preset cardinality ⟨sent, violating, count, discovered⟩ round
  have range := follows.range actor enabled
  have timeout := follows.timeout actor enabled
  unfold enumerateChoice at round
  cases searched : searchActorChoice attempt.execute actor preset cardinality with
  | error what => simp [searched, bind, Except.bind] at round
  | ok answer =>
    obtain ⟨result, discoveredCount, alternatives⟩ := answer
    obtain ⟨ran, _, rfl, _⟩ := searchActorChoice_eq_ok searched
    have target := follows.target actor enabled preset result ran
    have nChoose := follows.nChoose actor enabled preset result ran
    simp only [searched, bind, Except.bind] at round
    split at round
    · contradiction
    simp only [workerEdge, bind, Except.bind] at round
    cases exported : attempt.exportBundle result.target with
    | error what => simp [exported] at round
    | ok bundle =>
      simp only [exported, pure, Except.pure, Except.ok.injEq, Prod.mk.injEq] at round
      obtain ⟨rfl, _⟩ := round
      refine ⟨?_, ?_⟩
      · dsimp only
        omega
      · dsimp only
        rw [target]
        congr 1
        cases action : actor.action with
        | timeout => simp [edgeChoice, action, nChoose, timeout action]
        | normal => by_cases none : result.nChoose = 0 <;> simp [edgeChoice, action, none]

/-- The target of an accepted edge of the system is a successor. -/
theorem TruthfulEdge.target_mem {importBundle : Bundle → Except Failure Bool} {ticket : Ticket} {edge : Edge}
    (truthful : TruthfulEdge system edge)
    (checked : EdgeChecked importBundle ticket (system.enabledActorActions ticket.state).toFinset edge) :
    edge.target ∈ successors system ticket.state := by
  obtain ⟨count, reaches⟩ := truthful
  have source := checked.source
  refine mem_successors.mpr ⟨edge.actor, List.mem_toFinset.mp checked.enabled, edge.choice.toNat, ?_, ?_⟩
  · rw [← source, ← count]
    rcases checked.cardinality with ⟨negative, _⟩ | ⟨_, nonnegative, below⟩ <;> omega
  · rw [← source, reaches]

/-- The targets of a complete expansion with edges of the system are the successors. -/
theorem CompleteExpansion.targets {importBundle : Bundle → Except Failure Bool} {ticket : Ticket} {edges : List Edge}
    (expansion : CompleteExpansion (system.enabledActorActions ticket.state).toFinset edges)
    (checked : ∀ edge ∈ edges, EdgeChecked importBundle ticket
      (system.enabledActorActions ticket.state).toFinset edge)
    (truthful : ∀ edge ∈ edges, TruthfulEdge system edge) :
    (edges.map Edge.target).toFinset = successors system ticket.state := by
  ext target
  rw [List.mem_toFinset, List.mem_map]
  constructor
  · rintro ⟨edge, member, rfl⟩
    exact (truthful edge member).target_mem (checked edge member)
  · intro reached
    obtain ⟨actor, enabled, choice, below, rfl⟩ := mem_successors.mp reached
    obtain ⟨count, declared, perm⟩ := expansion.complete actor (List.mem_toFinset.mpr enabled)
    have received : ∀ wanted ∈ declaredChoices actor count, ∃ edge ∈ edges, edge.actor = actor ∧
        edge.choice = wanted := by
      intro wanted listed
      obtain ⟨edge, member, rfl⟩ := List.mem_map.mp (perm.mem_iff.mpr listed)
      obtain ⟨member, same⟩ := mem_edgesOf.mp member
      exact ⟨edge, member, same, rfl⟩
    have known : count = system.nChoose ticket.state actor := by
      obtain ⟨first, listed⟩ := List.exists_mem_of_length_pos
        (l := declaredChoices actor count) (by rw [length_declaredChoices]; omega)
      obtain ⟨edge, member, rfl, _⟩ := received first listed
      rw [← declared edge member rfl, (truthful edge member).1, (checked edge member).source]
    have listed : ∃ wanted ∈ declaredChoices actor count, wanted.toNat = choice := by
      unfold declaredChoices
      split
      · next zero =>
        have : choice = 0 := by omega
        refine ⟨_, List.mem_singleton_self _, ?_⟩
        split <;> simp [this]
      · next positive =>
        exact ⟨choice, List.mem_map.mpr ⟨choice, List.mem_range.mpr (by omega), rfl⟩, by simp⟩
    obtain ⟨wanted, listed, rfl⟩ := listed
    obtain ⟨edge, member, rfl, rfl⟩ := received wanted listed
    exact ⟨edge, member, by rw [(truthful edge member).2, (checked edge member).source]⟩

/-- The record of a lease on a state of the system, fed with edges of the system. -/
def HonestJob (system : TransitionSystem) (importBundle : Bundle → Except Failure Bool) (job : Job) : Prop :=
  ∃ edges, Records (Job.create job.ticket (systemSource system job.ticket.state)) edges job ∧
    ∀ edge ∈ edges, EdgeChecked importBundle job.ticket (system.enabledActorActions job.ticket.state).toFinset edge ∧
      TruthfulEdge system edge

theorem HonestJob.create (system : TransitionSystem) (importBundle : Bundle → Except Failure Bool) (ticket : Ticket) :
    HonestJob system importBundle (Job.create ticket (systemSource system ticket.state)) :=
  ⟨[], Job.create_records _ _, by simp⟩

section Admission

variable {importBundle : Bundle → Except Failure Bool} {job : Job} (honest : HonestJob system importBundle job)
include honest

theorem HonestJob.record {verified : VerifiedEdges} {edge : Edge}
    (checked : EdgeChecked importBundle job.ticket job.actors edge) (fits : EdgeFits job verified edge)
    (harmless : edge.propertyViolation = false) (truthful : TruthfulEdge system edge) :
    HonestJob system importBundle (job.record edge) := by
  obtain ⟨edges, records, all⟩ := honest
  refine ⟨edges ++ [edge], records.step fits harmless, ?_⟩
  intro other member
  rcases List.mem_append.mp member with old | new
  · exact all other old
  · obtain rfl := List.mem_singleton.mp new
    rw [records.actors] at checked
    exact ⟨checked, truthful⟩

/-- A violation that ends the lease is a failed successor of its state, or its state itself. -/
theorem HonestJob.violating {verified : VerifiedEdges} {message : Message} {state : StateKey}
    (imported : ∀ bundle failed, importBundle bundle = .ok failed → failed = system.propertyFailed bundle.systemKey)
    (truthful : ∀ edge, message = .edge edge → TruthfulEdge system edge)
    (received : job.receive importBundle verified message = .ok (.violation state)) :
    (state = job.ticket.state ∨ system.Step job.ticket.state state) ∧ system.propertyFailed state = true := by
  obtain ⟨edges, records, all⟩ := honest
  rcases receive_eq_violation received with ⟨edge, rfl, checked, violating, rfl⟩ | ⟨rfl, known⟩
  · rw [records.actors] at checked
    refine ⟨.inr (successors_step_iff.mp ((truthful edge rfl).target_mem checked)), ?_⟩
    rw [checked.target.2, ← imported _ _ checked.imported, violating]
  · rw [records.violation, records.sourceViolation] at known
    rw [records.violation]
    exact ⟨.inl rfl, known.resolve_left (by simp)⟩

/-- What is committed for the lease is true of the system, and its state fails no property. -/
theorem HonestJob.truthful {expansion : Expansion} (completes : Completes job expansion)
    (sound : job.sourceViolation = false) :
    Truthful (successors system) job.ticket expansion ∧ system.propertyFailed job.ticket.state = false := by
  obtain ⟨edges, records, all⟩ := honest
  have disabled_iff : job.actors = ∅ ↔ successors system job.ticket.state = ∅ := by
    rw [records.actors, successors_eq_empty_iff]
    exact List.toFinset_eq_empty_iff _
  refine ⟨?_, records.sourceViolation.symm.trans sound⟩
  cases completes with
  | expanded mayExpand budget enabled covered fixed configured =>
    refine ⟨disabled_iff.not.mp enabled, ?_⟩
    have checked := fun edge member => (all edge member).1
    have complete := (records.complete_iff checked).mp ⟨covered, fixed, configured⟩
    rw [records.successors]
    exact complete.targets checked fun edge member => (all edge member).2
  | terminal unsent disabled => exact disabled_iff.mp disabled
  | depthCut unsent probe enabled budget => exact disabled_iff.not.mp enabled
  | modelBudget unsent enabled spent =>
    have := Job.create_budget job.ticket (systemSource system job.ticket.state)
    rw [records.sourceBudget] at spent
    omega

end Admission

end DetSim.Search
