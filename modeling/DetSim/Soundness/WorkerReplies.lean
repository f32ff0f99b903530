import DetSim.Soundness.EdgeAdmission

/-! # The answers of a worker are accepted

The enumeration in the worker computes choices and cardinalities on its own. Followed round by round,
it sends exactly one edge for every choice of every enabled actor unless it stops early, on a violation
or an exception. So the coordinator accepts what a worker sends, and commits, reports the violation, or
fails with the worker's own exception.
-/

namespace DetSim.Search

open Scheduler (ActorAction TransitionAction)

variable {actor : ActorAction} {edges : List Edge} {source : Source}

theorem threadAction_index {np : ℕ} {source : Tracer.SysState} {process thread : ℕ} {actor : Tracer.ThreadState}
    {action : ActorAction} (offered : Tracer.threadAction np source process actor thread = some action) :
    action.process = process ∧ action.thread = thread := by
  unfold Tracer.threadAction at offered
  split at offered
  · cases offered
    exact ⟨rfl, rfl⟩
  split at offered
  · split at offered
    · cases offered
      exact ⟨rfl, rfl⟩
    · contradiction
  · contradiction

/-- A thread offers at most one action, so no action is listed twice. -/
theorem enabledActorActions_nodup (np : ℕ) (source : Tracer.SysState) :
    (Tracer.enabledActorActions np source).Nodup := by
  unfold Tracer.enabledActorActions
  split
  · exact .nil
  have offered : ∀ {process : ℕ} {action : ActorAction}, (action ∈ if (source.child process).dead then []
      else ((source.child process).threads.zipIdx).filterMap fun entry =>
        Tracer.threadAction np source process entry.1 entry.2) → action.process = process := by
    intro process action member
    split at member
    · simp at member
    · obtain ⟨entry, _, offered⟩ := List.mem_filterMap.mp member
      exact (threadAction_index offered).1
  rw [List.nodup_flatMap]
  refine ⟨?_, ?_⟩
  · intro process _
    split
    · exact .nil
    · have increasing : ((source.child process).threads.zipIdx).Pairwise fun first second => first.2 < second.2 := by
        rw [← List.pairwise_map, List.zipIdx_map_snd]
        exact List.pairwise_lt_range'
      rw [List.Nodup, List.pairwise_filterMap]
      refine increasing.imp ?_
      rintro first second less action offered other alsoOffered rfl
      have := (threadAction_index offered).2
      have := (threadAction_index alsoOffered).2
      omega
  · refine List.nodup_range.imp ?_
    intro first second different action member alsoMember
    exact different ((offered member).symm.trans (offered alsoMember))

/-- What is assumed of the executions and of the saved targets: a choice count is an `int`, a timeout
does not pass through the discovery of choices, and the closure exported for a target is imported with
the verdict of the execution. -/
structure Attempt.Honest (attempt : Attempt) (importBundle : Bundle → Except Failure Bool) : Prop where
  range : ∀ actor preset result, attempt.execute actor preset = .ok result → result.nChoose < 2 ^ 31
  timeout : ∀ actor preset result, attempt.execute actor preset = .ok result → actor.action = .timeout →
    result.nChoose = 0
  exported : ∀ actor preset result bundle, attempt.execute actor preset = .ok result →
    attempt.exportBundle result.target = .ok bundle → bundle.systemKey = result.target ∧
      importBundle bundle = .ok (result.propertyViolation || result.propertyFailed)

/-- What one execution in the choice loop answers. -/
theorem searchActorChoice_eq_ok {execute : Executor} {preset cardinality count : ℤ}
    {result : Execution} {discovered : List ℤ}
    (success : searchActorChoice execute actor preset cardinality = .ok (result, count, discovered)) :
    execute actor preset = .ok result ∧ result.code ≠ .ckptDiscard ∧ count = result.nChoose ∧ 0 ≤ count ∧
      (count ≠ 0 → 0 ≤ result.choose ∧ result.choose < count) ∧
      (cardinality < 0 → discovered =
        (((List.range count.toNat).map Int.ofNat).filter (· ≠ result.choose)).reverse) ∧
      (0 ≤ cardinality → count = cardinality ∧ count ≠ 0 ∧ result.choose = preset ∧ discovered = []) := by
  unfold searchActorChoice at success
  split at success
  · contradiction
  · contradiction
  next executed ran =>
  split at success
  · contradiction
  next code =>
  split at success
  · contradiction
  next valid =>
  push Not at valid
  split at success
  · next first =>
    cases success
    exact ⟨ran, code, rfl, valid.1, valid.2, fun _ => rfl, fun known => by omega⟩
  · next known =>
    split at success
    · contradiction
    · next unchanged =>
      push Not at unchanged
      obtain ⟨same, some, taken⟩ := unchanged
      cases success
      exact ⟨ran, code, same.symm, by omega, fun positive => same ▸ valid.2 some, fun first => absurd first known,
        fun _ => ⟨rfl, same ▸ some, taken, rfl⟩⟩

/-- The first choice taken together with the alternatives left is all of them. -/
theorem cons_alternatives_perm {count : ℕ} {choice : ℤ} (bounds : 0 ≤ choice ∧ choice < count) :
    (choice :: (((List.range count).map Int.ofNat).filter (· ≠ choice)).reverse).Perm
      ((List.range count).map Int.ofNat) := by
  have nodup : ((List.range count).map Int.ofNat).Nodup := List.nodup_range.map Int.ofNat_injective
  have member : choice ∈ (List.range count).map Int.ofNat :=
    List.mem_map.mpr ⟨choice.toNat, List.mem_range.mpr (by omega), Int.toNat_of_nonneg bounds.1⟩
  have erased : ((List.range count).map Int.ofNat).erase choice =
      ((List.range count).map Int.ofNat).filter (· ≠ choice) := by
    rw [nodup.erase_eq_filter]
    congr 1
    funext other
    simp [bne, beq_eq_decide]
  refine .trans (.cons _ (List.reverse_perm _)) ?_
  rw [← erased]
  exact (List.perm_cons_erase member).symm

variable {attempt : Attempt} {importBundle : Bundle → Except Failure Bool} {ticket : Ticket}
  {actors : Finset ActorAction}

/-- One round of the choice loop of an honest worker. -/
theorem Attempt.Honest.round (honest : attempt.Honest importBundle) (mayExpand : ticket.mayExpand = true)
    (enabled : actor ∈ actors) {preset cardinality count : ℤ} {edge : Edge} {violating : Bool}
    {discovered : List ℤ}
    (sent : enumerateChoice attempt.execute (workerEdge attempt ticket) actor preset cardinality =
      .ok (edge, violating, count, discovered)) :
    EdgeChecked importBundle ticket actors edge ∧ edge.actor = actor ∧ edge.propertyViolation = violating ∧
      (edge.choiceCount : ℤ) = count ∧
      (cardinality < 0 → (edge.choice :: discovered).Perm (declaredChoices actor edge.choiceCount)) ∧
      (0 ≤ cardinality → count = cardinality ∧ edge.choice = preset) := by
  unfold enumerateChoice at sent
  cases searched : searchActorChoice attempt.execute actor preset cardinality with
  | error what => simp [searched, bind, Except.bind] at sent
  | ok answer =>
    obtain ⟨result, discoveredCount, alternatives⟩ := answer
    obtain ⟨ran, code, rfl, nonnegative, taken, first, known⟩ := searchActorChoice_eq_ok searched
    simp only [searched, bind, Except.bind] at sent
    split at sent
    · contradiction
    next identified =>
    simp only [workerEdge, bind, Except.bind] at sent
    cases exported : attempt.exportBundle result.target with
    | error what => simp [exported] at sent
    | ok bundle =>
      simp only [exported, pure, Except.pure, Except.ok.injEq, Prod.mk.injEq] at sent
      obtain ⟨rfl, rfl, rfl, rfl⟩ := sent
      obtain ⟨systemKey, imported⟩ := honest.exported actor preset result bundle ran exported
      have range := honest.range actor preset result ran
      have timeout := honest.timeout actor preset result ran
      have count : (result.nChoose % 2 ^ 32).toNat = result.nChoose.toNat := by omega
      have named : (result.nChoose = 0 ∧ declaredChoices actor 0 = [edgeChoice actor result] ∧
            edgeChoice actor result < 0) ∨
          (actor.action = .normal ∧ result.nChoose ≠ 0 ∧ edgeChoice actor result = result.choose) := by
        cases action : actor.action with
        | timeout => simp [edgeChoice, declaredChoices, action, timeout action]
        | normal => by_cases none : result.nChoose = 0 <;> simp [edgeChoice, declaredChoices, action, none]
      refine ⟨⟨rfl, rfl, mayExpand, enabled, ?_, ?_, ⟨identified, systemKey.symm⟩, ?_, imported⟩, rfl, rfl, ?_, ?_, ?_⟩
      · cases action : actor.action with
        | timeout => simp [edgeChoice, action]
        | normal =>
          rcases named with ⟨none, _⟩ | ⟨_, some, same⟩
          · simp [edgeChoice, action, none]
          · have nonnegative := (taken some).1
            refine .inr ⟨rfl, ?_⟩
            dsimp only
            omega
      · cases code : result.code <;> simp_all [TransitionResultCode.toNat]
      · rcases named with ⟨none, _, negative⟩ | ⟨normal, some, same⟩
        · exact .inl ⟨negative, by simp [none]⟩
        · have bounds := taken some
          refine .inr ⟨normal, ?_, ?_⟩ <;> dsimp only <;> omega
      · dsimp only
        omega
      · intro unknown
        rw [count, first unknown]
        rcases named with ⟨none, fixed, _⟩ | ⟨normal, some, same⟩
        · simp [none, fixed]
        · have positive : result.nChoose.toNat ≠ 0 := by omega
          have bounds := taken some
          rw [same, declaredChoices, if_neg positive]
          have below : result.choose < (result.nChoose.toNat : ℤ) := by omega
          exact cons_alternatives_perm ⟨bounds.1, below⟩
      · intro discovered
        obtain ⟨same, some, preset, _⟩ := known discovered
        rcases named with ⟨none, _⟩ | ⟨_, _, chosen⟩
        · exact absurd none some
        · exact ⟨same, chosen.trans preset⟩

/-- Edges that are harmless up to the point where the enumeration stops. -/
inductive Stream (P : Edge → Prop) : List Edge → Except String Bool → Prop
  | exhausted : Stream P [] (.ok false)
  | thrown (what : String) : Stream P [] (.error what)
  | violated {edge : Edge} (holds : P edge) (violating : edge.propertyViolation = true) : Stream P [edge] (.ok true)
  | next {edge : Edge} {rest : List Edge} {status : Except String Bool} (holds : P edge)
      (harmless : edge.propertyViolation = false) (later : Stream P rest status) : Stream P (edge :: rest) status

namespace Stream

variable {P : Edge → Prop} {edges : List Edge} {status : Except String Bool}

theorem holds (stream : Stream P edges status) : ∀ edge ∈ edges, P edge := by
  induction stream with
  | exhausted => simp
  | thrown => simp
  | violated holds => simpa using holds
  | next holds _ _ ih => simpa using ⟨holds, ih⟩

theorem append {second : List Edge} (first : Stream P edges (.ok false)) (later : Stream P second status) :
    Stream P (edges ++ second) status := by
  generalize ended : Except.ok (ε := String) false = stopped at first
  induction first with
  | exhausted => exact later
  | thrown => cases ended
  | violated => cases ended
  | next holds harmless _ ih => exact .next holds harmless (ih ended)

/-- Only the last edge can violate a property, and only if the enumeration stopped for it. -/
theorem split (stream : Stream P edges status) :
    (status = .ok true ∧ ∃ init last, edges = init ++ [last] ∧ last.propertyViolation = true ∧
      ∀ edge ∈ init, edge.propertyViolation = false) ∨
    (status ≠ .ok true ∧ ∀ edge ∈ edges, edge.propertyViolation = false) := by
  induction stream with
  | exhausted => exact .inr ⟨by simp, by simp⟩
  | thrown => exact .inr ⟨by simp, by simp⟩
  | @violated edge _ violating => exact .inl ⟨rfl, [], edge, rfl, violating, by simp⟩
  | @next edge rest status _ harmless _ ih =>
    rcases ih with ⟨stopped, init, last, rfl, violating, before⟩ | ⟨running, all⟩
    · exact .inl ⟨stopped, edge :: init, last, rfl, violating, by simpa using ⟨harmless, before⟩⟩
    · exact .inr ⟨running, by simpa using ⟨harmless, all⟩⟩

end Stream

/-- What the enumeration sends for a list of actors. -/
structure Enumerates (P : Edge → Prop) (actions : List ActorAction) (out : Enumerated) : Prop where
  stream : Stream P out.1 out.2
  listed : ∀ edge ∈ out.1, edge.actor ∈ actions
  distinct : ∀ actor, (choicesOf out.1 actor).Nodup
  constant : ∀ first ∈ out.1, ∀ second ∈ out.1, first.actor = second.actor → first.choiceCount = second.choiceCount
  complete : out.2 = .ok false → ∀ actor ∈ actions, ∃ count,
    (∀ edge ∈ out.1, edge.actor = actor → edge.choiceCount = count) ∧
      (choicesOf out.1 actor).Perm (declaredChoices actor count)

section Enumerate

variable (honest : attempt.Honest importBundle) (mayExpand : ticket.mayExpand = true)

theorem choicesOf_of_forall (same : ∀ edge ∈ edges, edge.actor = actor) :
    choicesOf edges actor = edges.map Edge.choice := by
  rw [choicesOf, edgesOf, List.filter_eq_self.mpr (by simpa using same)]

theorem choicesOf_eq_nil (other : ∀ edge ∈ edges, edge.actor ≠ actor) :
    choicesOf edges actor = [] := by
  rw [choicesOf, edgesOf, List.filter_eq_nil_iff.mpr (by simpa using other), List.map_nil]

include honest mayExpand in
/-- The rounds after the first take the alternatives in order, as far as they get. -/
theorem enumerateRemaining_stream (enabled : actor ∈ actors) (count : ℕ)
    (presets : List ℤ) :
    let out := enumerateRemaining attempt.execute (workerEdge attempt ticket) actor count presets
    Stream (EdgeChecked importBundle ticket actors) out.1 out.2 ∧
      (∀ edge ∈ out.1, edge.actor = actor ∧ edge.choiceCount = count) ∧
      out.1.map Edge.choice <+: presets ∧ (out.2 = .ok false → out.1.map Edge.choice = presets) := by
  induction presets with
  | nil => exact ⟨.exhausted, by simp [enumerateRemaining], by simp [enumerateRemaining], fun _ => rfl⟩
  | cons preset rest ih =>
    simp only [enumerateRemaining]
    split
    · exact ⟨.thrown _, by simp, by simp, by simp⟩
    · next sent =>
      obtain ⟨checked, same, violating, cardinality, _, known⟩ := honest.round mayExpand enabled sent
      obtain ⟨unchanged, taken⟩ := known (Int.natCast_nonneg count)
      refine ⟨.violated checked violating, ?_, ?_, by simp⟩
      · simpa using ⟨same, by omega⟩
      · simp [taken]
    · next sent =>
      obtain ⟨checked, same, harmless, cardinality, _, known⟩ := honest.round mayExpand enabled sent
      obtain ⟨unchanged, taken⟩ := known (Int.natCast_nonneg count)
      obtain ⟨stream, all, chosen, complete⟩ := ih
      refine ⟨.next checked harmless stream, ?_, ?_, ?_⟩
      · simpa using ⟨⟨same, by omega⟩, all⟩
      · simpa [taken] using chosen
      · intro ended
        simpa [taken] using complete ended

/-- The edges of a single actor. -/
theorem Enumerates.of_actor {P : Edge → Prop} {status : Except String Bool}
    (count : ℕ) (stream : Stream P edges status)
    (all : ∀ edge ∈ edges, edge.actor = actor ∧ edge.choiceCount = count) (nodup : (edges.map Edge.choice).Nodup)
    (complete : status = .ok false → (edges.map Edge.choice).Perm (declaredChoices actor count)) :
    Enumerates P [actor] (edges, status) where
  stream := stream
  listed edge member := List.mem_singleton.mpr (all edge member).1
  distinct other := by
    by_cases same : actor = other
    · rwa [← same, choicesOf_of_forall fun edge member => (all edge member).1]
    · rw [choicesOf_eq_nil fun edge member equal => same ((all edge member).1.symm.trans equal)]
      exact .nil
  constant first member second present _ := (all first member).2.trans (all second present).2.symm
  complete ended other member := by
    rw [List.mem_singleton.mp member, choicesOf_of_forall fun edge member => (all edge member).1]
    exact ⟨count, fun edge member _ => (all edge member).2, complete ended⟩

include honest mayExpand in
theorem enumerateActor_enumerates (enabled : actor ∈ actors) :
    Enumerates (EdgeChecked importBundle ticket actors) [actor]
      (enumerateActor attempt.execute (workerEdge attempt ticket) actor) := by
  unfold enumerateActor
  split
  · exact .of_actor 0 (.thrown _) (by simp) (by simp) (by simp)
  · next edge _ sent =>
    obtain ⟨checked, same, violating, _⟩ := honest.round mayExpand enabled sent
    exact .of_actor edge.choiceCount (.violated checked violating) (by simp [same]) (by simp) (by simp)
  · next edge cardinality discovered sent =>
    obtain ⟨checked, same, harmless, counted, first, _⟩ := honest.round mayExpand enabled sent
    have perm := first (by decide)
    obtain ⟨stream, all, chosen, complete⟩ :=
      enumerateRemaining_stream honest mayExpand enabled edge.choiceCount discovered
    rw [counted] at stream all chosen complete
    refine .of_actor edge.choiceCount (.next checked harmless stream) ?_ ?_ ?_
    · simpa using ⟨same, all⟩
    · have once := perm.nodup_iff.mpr (nodup_declaredChoices _ _)
      exact once.sublist (chosen.sublist.cons_cons _)
    · intro ended
      simpa [complete ended] using perm

/-- The edges of one actor, then those of the others. -/
theorem Enumerates.cons {P : Edge → Prop} {rest : List ActorAction}
    {out : Enumerated} (first : Enumerates P [actor] (edges, .ok false)) (later : Enumerates P rest out)
    (fresh : actor ∉ rest) : Enumerates P (actor :: rest) (out.map (edges ++ ·) id) := by
  have alone : ∀ edge ∈ edges, edge.actor = actor := fun edge member => List.mem_singleton.mp (first.listed edge member)
  have apart : ∀ edge ∈ out.1, edge.actor ≠ actor := fun edge member same => fresh (same ▸ later.listed edge member)
  have choices : ∀ other, choicesOf (edges ++ out.1) other =
      if other = actor then choicesOf edges other else choicesOf out.1 other := by
    intro other
    rw [choicesOf_append]
    split
    · next same => rw [same, choicesOf_eq_nil apart, List.append_nil]
    · next different =>
      rw [choicesOf_eq_nil fun edge member equal => different (equal.symm.trans (alone edge member)), List.nil_append]
  refine ⟨first.stream.append later.stream, ?_, ?_, ?_, ?_⟩
  · intro edge member
    rcases List.mem_append.mp member with own | other
    · exact List.mem_cons.mpr (.inl (alone edge own))
    · exact List.mem_cons_of_mem _ (later.listed edge other)
  · intro other
    simp only [Prod.map_fst, choices]
    split
    · exact first.distinct other
    · exact later.distinct other
  · intro left member right present same
    rcases List.mem_append.mp member with own | other <;> rcases List.mem_append.mp present with own' | other'
    · exact first.constant left own right own' same
    · exact absurd (same.symm.trans (alone left own)) (apart right other')
    · exact absurd (same.trans (alone right own')) (apart left other)
    · exact later.constant left other right other' same
  · intro ended other member
    simp only [Prod.map_fst, choices]
    by_cases same : other = actor
    · subst same
      obtain ⟨count, constant, perm⟩ := first.complete rfl other (List.mem_singleton_self _)
      refine ⟨count, ?_, by rwa [if_pos rfl]⟩
      intro edge listed equal
      exact (List.mem_append.mp listed).elim (fun own => constant edge own equal) fun later => absurd equal (apart edge later)
    · obtain ⟨count, constant, perm⟩ :=
        later.complete ended other ((List.mem_cons.mp member).resolve_left same)
      refine ⟨count, ?_, by rwa [if_neg same]⟩
      intro edge listed equal
      exact (List.mem_append.mp listed).elim (fun own => absurd (equal.symm.trans (alone edge own)) same)
        fun later => constant edge later equal

include honest mayExpand in
theorem enumerateActors_enumerates {actions : List ActorAction} (enabled : ∀ actor ∈ actions, actor ∈ actors)
    (nodup : actions.Nodup) :
    Enumerates (EdgeChecked importBundle ticket actors) actions
      (enumerateActors attempt.execute (workerEdge attempt ticket) actions) := by
  induction actions with
  | nil => exact ⟨.exhausted, by simp [enumerateActors], by simp [enumerateActors, choicesOf, edgesOf],
      by simp [enumerateActors], by simp⟩
  | cons actor rest ih =>
    have first := enumerateActor_enumerates honest mayExpand (enabled actor List.mem_cons_self)
    have later := ih (fun other member => enabled other (List.mem_cons_of_mem _ member)) nodup.of_cons
    unfold enumerateActors
    split
    · next edges ended =>
      rw [ended] at first
      exact first.cons later (List.nodup_cons.mp nodup).1
    · next stopped =>
      refine ⟨first.stream, ?_, first.distinct, first.constant, ?_⟩
      · intro edge member
        exact List.mem_cons.mpr (.inl (List.mem_singleton.mp (first.listed edge member)))
      · intro ended
        exact (stopped _ (Prod.ext rfl ended)).elim

end Enumerate

theorem classifyEnumeration_eq {mayExpand : Bool} {kind : EnumerationKind}
    (classified : classifyEnumeration source mayExpand = kind) :
    match kind with
    | .expanded => source.propertyFailed = false ∧ source.actors ≠ [] ∧ mayExpand = true
    | .terminal => source.propertyFailed = false ∧ source.actors = []
    | .depthCut => source.propertyFailed = false ∧ source.actors ≠ [] ∧ mayExpand = false
    | .modelBudget => False
    | .violation => source.propertyFailed = true := by
  unfold classifyEnumeration at classified
  split_ifs at classified <;> subst classified <;> simp_all

theorem enumerateState_of_expanded {execute : Executor} {callback : EdgeCallback} {restore : Except String Unit}
    {mayExpand : Bool} (expanded : classifyEnumeration source mayExpand = .expanded) :
    enumerateState execute callback restore source mayExpand =
      ((enumerateActors execute callback source.actors).1,
        match (enumerateActors execute callback source.actors).2 with
        | .error what => .error what
        | .ok true => .ok .violation
        | .ok false => restore.map fun _ => .expanded) := by
  unfold enumerateState
  rw [expanded]
  obtain ⟨edges, status⟩ := enumerateActors execute callback source.actors
  cases status with
  | error what => rfl
  | ok violated => cases violated <;> rfl

/-- What the coordinator makes of an enumeration: the commit that fits the summary, the violation, or the
worker's exception. -/
def replyOutcome (ticket : Ticket) (edges : List Edge) : Except String EnumerationKind → Job.Outcome
  | .ok .expanded => .commit { kind := .expanded, successors := edges.map Edge.target }
  | .ok .terminal => .commit { kind := .terminal }
  | .ok .depthCut => .commit { kind := .depthCut }
  | .ok .modelBudget => .commit { kind := .modelBudget, reason := "Saved model budget exhausted" }
  | .ok .violation => .violation ((edges.getLast?.map Edge.target).getD ticket.state)
  | .error what => .failed (.worker (encodeText what))

/-- The messages of a worker are accepted, whatever happens during the enumeration. -/
theorem workerReplies_accepted (honest : attempt.Honest importBundle) (nodup : source.actors.Nodup)
    {verified : VerifiedEdges}
    (deterministic : ∀ edge, .edge edge ∈ workerReplies attempt ticket source →
      (verified.lookup edge.key).getD edge.result = edge.result) :
    (Job.create ticket source).receiveAll importBundle verified (workerReplies attempt ticket source) =
      match attempt.prepare with
      | .error what => .failed (.worker (encodeText what))
      | .ok () =>
        let (edges, summary) := enumerateState attempt.execute (workerEdge attempt ticket) attempt.restore source
          ticket.mayExpand
        replyOutcome ticket edges summary := by
  have reported : ∀ (job : Job) (known : VerifiedEdges) (what : String), job.ticket = ticket →
      job.receiveAll importBundle known [.error ⟨ticket.leaseId, ticket.state, encodeText what⟩] =
        .failed (.worker (encodeText what)) := by
    intro job known what same
    simp [Job.receiveAll, Job.receive, require, same, bind, Except.bind]
  unfold workerReplies at deterministic ⊢
  cases prepared : attempt.prepare with
  | error what => exact reported _ _ _ rfl
  | ok _ =>
    simp only [prepared] at deterministic ⊢
    cases kind : classifyEnumeration source ticket.mayExpand with
    | expanded =>
      obtain ⟨sound, enabled, mayExpand⟩ := classifyEnumeration_eq kind
      have enumerates := enumerateActors_enumerates honest mayExpand
        (fun actor member => List.mem_toFinset.mpr member) nodup
      rw [enumerateState_of_expanded kind] at deterministic ⊢
      obtain ⟨stream, _, distinct, constant, complete⟩ := enumerates
      generalize enumerateActors attempt.execute (workerEdge attempt ticket) source.actors = out at *
      obtain ⟨edges, status⟩ := out
      dsimp only at stream distinct constant complete deterministic ⊢
      have agrees : ∀ edge ∈ edges, (verified.lookup edge.key).getD edge.result = edge.result :=
        fun edge member => deterministic edge (List.mem_append_left _ (List.mem_map_of_mem member))
      have start := Job.create_records ticket source
      rcases stream.split with ⟨rfl, init, last, rfl, violating, harmless⟩ | ⟨running, harmless⟩
      · rw [receiveAll_violating start stream.holds harmless violating distinct constant agrees]
        simp [replyOutcome]
      obtain ⟨job, verifiedLast, admits⟩ := admits_of_checked start
        (fun edge member => ⟨harmless edge member, stream.holds edge member⟩) distinct constant agrees
      obtain ⟨records, _⟩ := admits.records start
      rw [List.nil_append] at records
      rw [admits.receiveAll]
      cases status with
      | error what => exact reported _ _ _ records.ticket
      | ok stopped =>
        cases stopped with
        | true => exact absurd rfl running
        | false =>
          cases attempt.restore with
          | error what => exact reported _ _ _ records.ticket
          | ok _ =>
            have covered := (records.complete_iff stream.holds).mpr
              ⟨fun edge member => (stream.holds edge member).enabled, fun actor member =>
                complete rfl actor (List.mem_toFinset.mp member)⟩
            have completes : Completes job { kind := .expanded, successors := job.successors } :=
              .expanded (by rw [records.ticket]; exact mayExpand)
                (by rw [records.sourceBudget]; exact Job.create_budget _ _)
                (by rw [records.actors]; simpa [Job.create] using enabled) covered.1 covered.2.1 covered.2.2
            have committed := receiveAll_done importBundle verifiedLast records.violation
              (records.sourceViolation.trans sound) completes []
            rw [records.ticket, records.successors, List.length_map] at committed
            exact committed
    | terminal =>
      obtain ⟨sound, disabled⟩ := classifyEnumeration_eq kind
      unfold enumerateState
      rw [kind]
      exact receiveAll_done _ _ rfl sound (.terminal rfl (by simp [Job.create, disabled])) []
    | depthCut =>
      obtain ⟨sound, enabled, probe⟩ := classifyEnumeration_eq kind
      unfold enumerateState
      rw [kind]
      exact receiveAll_done _ _ rfl sound (.depthCut rfl probe (by simpa [Job.create] using enabled)
        (Job.create_budget _ _)) []
    | modelBudget => exact (classifyEnumeration_eq kind).elim
    | violation =>
      have failed := classifyEnumeration_eq kind
      unfold enumerateState
      rw [kind]
      simp [Job.receiveAll, Job.receive, Job.admitDone, require, Job.create, completionKind, failed, replyOutcome,
        bind, Except.bind, pure, Except.pure]

/-- The admission of the coordinator is sound for every stream of messages, and accepts every stream an
honest worker produces unless it contradicts an edge verified earlier. -/
theorem admission_sound_complete (importBundle : Bundle → Except Failure Bool) (ticket : Ticket) (np : ℕ)
    (state : Tracer.SysState) (verified : VerifiedEdges) :
    (∀ messages expansion,
      (Job.create ticket (Source.load np state)).receiveAll importBundle verified messages = .commit expansion →
      state.propertyFailed = false ∧ ∃ edges done rest, messages = edges.map .edge ++ .done done :: rest ∧
        (∀ edge ∈ edges, edge.propertyViolation = false ∧
          EdgeChecked importBundle ticket (Tracer.enabledActorActions np state).toFinset edge) ∧
        expansion.successors = edges.map Edge.target ∧
        match expansion.kind with
        | .expanded => Tracer.enabledActorActions np state ≠ [] ∧
            CompleteExpansion (Tracer.enabledActorActions np state).toFinset edges
        | .terminal => Tracer.enabledActorActions np state = [] ∧ edges = []
        | .depthCut => ticket.mayExpand = false ∧ Tracer.enabledActorActions np state ≠ [] ∧ edges = []
        | .modelBudget | .failure => False) ∧
    (∀ attempt : Attempt, attempt.Honest importBundle →
      (∀ edge, .edge edge ∈ workerReplies attempt ticket (Source.load np state) →
        (verified.lookup edge.key).getD edge.result = edge.result) →
      (Job.create ticket (Source.load np state)).receiveAll importBundle verified
          (workerReplies attempt ticket (Source.load np state)) =
        match attempt.prepare with
        | .error what => .failed (.worker (encodeText what))
        | .ok () =>
          let (edges, summary) := enumerateState attempt.execute (workerEdge attempt ticket) attempt.restore
            (Source.load np state) ticket.mayExpand
          replyOutcome ticket edges summary) :=
  ⟨fun _ _ committed => receiveAll_commit committed,
    fun _ honest deterministic => workerReplies_accepted honest (enabledActorActions_nodup np state) deterministic⟩

/-- A worker whose first actor has two outcomes and whose second waits for a deadline. -/
def twoChoices : Attempt where
  execute actor preset :=
    if actor.action = .normal then .ok { target := if preset = 0 then 10 else 11, nChoose := 2, choose := preset }
    else .ok { target := 20 }
  exportBundle key := .ok { systemKey := key }

/-- Two nodes, of which the second waits. -/
def waitingNode : Tracer.SysState where
  child node :=
    { image := fun _ => .ok 0
      threads := [⟨true, if node = 0 then none else some ⟨true, true, false⟩⟩] }

theorem admission_sound_complete_twoChoices :
    (Job.create ⟨7, 1, 1, 0, true⟩ (Source.load 2 waitingNode)).receiveAll (fun _ => .ok false) ∅
      (workerReplies twoChoices ⟨7, 1, 1, 0, true⟩ (Source.load 2 waitingNode)) =
      .commit { kind := .expanded, successors := [10, 11, 20] } := by
  refine ((admission_sound_complete _ _ 2 waitingNode _).2 twoChoices ?_ (by simp)).trans rfl
  constructor
  · intro actor preset result executed
    simp only [twoChoices] at executed
    split at executed <;> cases executed <;> norm_num
  · intro actor preset result executed timeout
    simp only [twoChoices, timeout, reduceCtorEq, if_false] at executed
    cases executed
    rfl
  · intro actor preset result bundle executed exported
    simp only [twoChoices, Except.ok.injEq] at executed exported
    subst exported
    split at executed <;> cases executed <;> exact ⟨rfl, rfl⟩

end DetSim.Search
