import DetSim.Model.Coordinator
import DetSim.ToMathlib.Except

/-! # Which edge streams a lease accepts

The coordinator looks at the edges of a lease one by one and keeps only sets and counts of them. The
lemmas of this module say what those sets and counts are in terms of the list of edges received so far.
From this both directions follow: what an accepted completion says about the edges, and that a list of
edges with these properties is accepted.
-/

namespace DetSim.Search

open Scheduler (ActorAction TransitionAction)

variable {edge : Edge} {expansion : Expansion} {job last : Job} {edges : List Edge} {message : Message}
  {verified verifiedLast : VerifiedEdges}

theorem require_bind_eq_ok {α : Type} {condition : Prop} [Decidable condition] {message : String}
    {next : Unit → Except Failure α} {result : α} :
    (require condition message >>= next) = .ok result ↔ condition ∧ next () = .ok result := by
  unfold require
  split
  · next holds => simp [holds, bind, Except.bind]
  · next fails => simp [fails, bind, Except.bind]

/-- What the coordinator checks about an edge on its own. -/
structure EdgeChecked (importBundle : Bundle → Except Failure Bool) (ticket : Ticket) (actors : Finset ActorAction)
    (edge : Edge) : Prop where
  lease : edge.leaseId = ticket.leaseId
  source : edge.source = ticket.state
  mayExpand : ticket.mayExpand = true
  enabled : edge.actor ∈ actors
  choice : (edge.actor.action = .timeout ∧ edge.choice = -2) ∨ (edge.actor.action = .normal ∧ -1 ≤ edge.choice)
  code : edge.resultCode.toNat ≤ TransitionResultCode.ckptStop.toNat
  target : edge.target ≠ 0 ∧ edge.target = edge.bundle.systemKey
  cardinality : (edge.choice < 0 ∧ edge.choiceCount = 0) ∨
    (edge.actor.action = .normal ∧ 0 ≤ edge.choice ∧ edge.choice < edge.choiceCount)
  imported : importBundle edge.bundle = .ok edge.propertyViolation

/-- What it checks about an edge against the record of the lease and of the search. -/
structure EdgeFits (job : Job) (verified : VerifiedEdges) (edge : Edge) : Prop where
  quiet : job.violation = none
  constant : (job.choiceCounts.lookup edge.actor).getD edge.choiceCount = edge.choiceCount
  fresh : edge.choice ∉ (job.choices.lookup edge.actor).getD ∅
  deterministic : (verified.lookup edge.key).getD edge.result = edge.result

variable {importBundle : Bundle → Except Failure Bool}

theorem admitEdge_eq_ok_iff {next : Job} {verifiedNext : VerifiedEdges} :
    job.admitEdge importBundle verified edge = .ok (next, verifiedNext) ↔
      EdgeChecked importBundle job.ticket job.actors edge ∧ EdgeFits job verified edge ∧
        next = job.record edge ∧ verifiedNext = verified.insert edge.key edge.result := by
  simp only [Job.admitEdge, require_bind_eq_ok]
  cases imported : importBundle edge.bundle with
  | error failure =>
    simp only [bind, Except.bind, reduceCtorEq, and_false, false_iff]
    rintro ⟨checked, _⟩
    have := checked.imported
    simp [imported] at this
  | ok failed =>
    have bound : ∀ next : Bool → Except Failure (Job × VerifiedEdges), (Except.ok failed >>= next) = next failed :=
      fun _ => rfl
    simp only [bound, require_bind_eq_ok, pure, Except.pure, Except.ok.injEq, Prod.mk.injEq]
    constructor
    · rintro ⟨quiet, ⟨lease, source, mayExpand⟩, enabled, choice, code, target, cardinality, constant, fresh,
        deterministic, same, rfl, rfl⟩
      exact ⟨⟨lease, source, mayExpand, enabled, choice, code, target, cardinality, same ▸ imported⟩,
        ⟨quiet, constant, fresh, deterministic⟩, rfl, rfl⟩
    · rintro ⟨checked, fits, rfl, rfl⟩
      have same : edge.propertyViolation = failed := by simpa [imported] using checked.imported.symm
      exact ⟨fits.quiet, ⟨checked.lease, checked.source, checked.mayExpand⟩, checked.enabled, checked.choice,
        checked.code, checked.target, checked.cardinality, fits.constant, fits.fresh, fits.deterministic, same,
        rfl, rfl⟩

/-- A run of accepted edges that leaves the lease open. -/
inductive Admits (importBundle : Bundle → Except Failure Bool) : Job → VerifiedEdges → List Edge → Job →
    VerifiedEdges → Prop
  | nil (job : Job) (verified : VerifiedEdges) : Admits importBundle job verified [] job verified
  | cons {job last : Job} {verified verifiedLast : VerifiedEdges} {edge : Edge} {rest : List Edge}
      (checked : EdgeChecked importBundle job.ticket job.actors edge) (fits : EdgeFits job verified edge)
      (harmless : edge.propertyViolation = false)
      (later : Admits importBundle (job.record edge) (verified.insert edge.key edge.result) rest last verifiedLast) :
      Admits importBundle job verified (edge :: rest) last verifiedLast

theorem receive_edge
    (checked : EdgeChecked importBundle job.ticket job.actors edge) (fits : EdgeFits job verified edge) :
    job.receive importBundle verified (.edge edge) =
      .ok (if edge.propertyViolation then .violation edge.target
        else .edge (job.record edge) (verified.insert edge.key edge.result)) := by
  have accepted := admitEdge_eq_ok_iff.mpr ⟨checked, fits, rfl, rfl⟩
  simp [Job.receive, accepted, bind, Except.bind, pure, Except.pure]

theorem Admits.receiveAll
    (admits : Admits importBundle job verified edges last verifiedLast) (rest : List Message) :
    job.receiveAll importBundle verified (edges.map .edge ++ rest) = last.receiveAll importBundle verifiedLast rest := by
  induction admits with
  | nil => rfl
  | cons checked fits harmless _ ih =>
    simp only [List.map_cons, List.cons_append, Job.receiveAll, receive_edge checked fits, harmless,
      Bool.false_eq_true, if_false]
    exact ih

/-- What an accepted completion says about the record of the lease. -/
inductive Completes (job : Job) : Expansion → Prop
  | expanded (mayExpand : job.ticket.mayExpand = true) (budget : 0 < job.sourceBudget) (enabled : job.actors ≠ ∅)
      (covered : job.choices.keys.card = job.actors.card) (fixed : ∀ actor ∈ job.choices.keys, job.fixedChoice actor)
      (configured : ∀ actor ∈ job.choices.keys, job.configuredChoices actor) :
      Completes job { kind := .expanded, successors := job.successors }
  | terminal (unsent : job.successors = []) (disabled : job.actors = ∅) : Completes job { kind := .terminal }
  | depthCut (unsent : job.successors = []) (probe : job.ticket.mayExpand = false) (enabled : job.actors ≠ ∅)
      (budget : 0 < job.sourceBudget) : Completes job { kind := .depthCut }
  | modelBudget (unsent : job.successors = []) (enabled : job.actors ≠ ∅) (spent : job.sourceBudget ≤ 0) :
      Completes job { kind := .modelBudget, reason := "Saved model budget exhausted" }

theorem admitDone_eq_ok {done : Done} {admission : Admission}
    (accepted : job.admitDone done = .ok admission) :
    (done.kind = .violation ∧ admission = .violation (job.violation.getD job.ticket.state) ∧
      (job.violation ≠ none ∨ job.sourceViolation = true)) ∨
    ∃ expansion, admission = .commit expansion ∧ job.violation = none ∧ job.sourceViolation = false ∧
      Completes job expansion := by
  simp only [Job.admitDone, require_bind_eq_ok] at accepted
  obtain ⟨⟨_, _, emitted⟩, accepted⟩ := accepted
  split at accepted
  · next violating =>
    rw [require_bind_eq_ok] at accepted
    obtain ⟨saved, returned⟩ := accepted
    cases returned
    exact .inl ⟨violating, rfl, saved.imp_right And.left⟩
  next completing =>
  rw [require_bind_eq_ok] at accepted
  obtain ⟨⟨quiet, sound⟩, accepted⟩ := accepted
  right
  split at accepted
  · simp only [require_bind_eq_ok] at accepted
    obtain ⟨⟨mayExpand, budget, enabled, covered⟩, fixed, configured, returned⟩ := accepted
    cases returned
    exact ⟨_, rfl, quiet, by simpa using sound, .expanded mayExpand budget enabled covered fixed configured⟩
  rw [require_bind_eq_ok] at accepted
  obtain ⟨unsent, accepted⟩ := accepted
  have unsent : job.successors = [] := List.eq_nil_of_length_eq_zero (emitted ▸ unsent)
  split at accepted
  · rw [require_bind_eq_ok] at accepted
    obtain ⟨disabled, returned⟩ := accepted
    cases returned
    exact ⟨_, rfl, quiet, by simpa using sound, .terminal unsent disabled⟩
  · rw [require_bind_eq_ok] at accepted
    obtain ⟨⟨probe, enabled, budget⟩, returned⟩ := accepted
    cases returned
    exact ⟨_, rfl, quiet, by simpa using sound, .depthCut unsent (by simpa using probe) enabled budget⟩
  · rw [require_bind_eq_ok] at accepted
    obtain ⟨⟨enabled, spent⟩, returned⟩ := accepted
    cases returned
    exact ⟨_, rfl, quiet, by simpa using sound, .modelBudget unsent enabled spent⟩
  · contradiction

/-- The receipt that reports an expansion. -/
def ResultKind.receipt : ResultKind → DoneKind
  | .expanded => .expanded
  | .terminal => .terminal
  | .depthCut => .depthCut
  | .modelBudget => .modelBudget
  | .failure => .violation

theorem admitDone_of_completes (quiet : job.violation = none)
    (sound : job.sourceViolation = false) (completes : Completes job expansion) :
    job.admitDone ⟨job.ticket.leaseId, job.ticket.state, expansion.kind.receipt, job.successors.length⟩ =
      .ok (.commit expansion) := by
  cases completes with
  | expanded mayExpand budget enabled covered fixed configured =>
    simp [Job.admitDone, require, ResultKind.receipt, quiet, sound, mayExpand, budget, enabled, covered,
      if_pos fixed, if_pos configured, bind, Except.bind, pure, Except.pure]
  | terminal unsent disabled =>
    simp [Job.admitDone, require, ResultKind.receipt, quiet, sound, unsent, disabled, bind, Except.bind, pure,
      Except.pure]
  | depthCut unsent probe enabled budget =>
    simp [Job.admitDone, require, ResultKind.receipt, quiet, sound, unsent, probe, enabled, budget, bind,
      Except.bind, pure, Except.pure]
  | modelBudget unsent enabled spent =>
    simp [Job.admitDone, require, ResultKind.receipt, quiet, sound, unsent, enabled, spent, bind, Except.bind,
      pure, Except.pure]

theorem receiveAll_done (importBundle : Bundle → Except Failure Bool) (verified : VerifiedEdges)
    (quiet : job.violation = none)
    (sound : job.sourceViolation = false) (completes : Completes job expansion) (rest : List Message) :
    job.receiveAll importBundle verified
      (.done ⟨job.ticket.leaseId, job.ticket.state, expansion.kind.receipt, job.successors.length⟩ :: rest) =
      .commit expansion := by
  simp only [Job.receiveAll, Job.receive, admitDone_of_completes quiet sound completes]

/-- What a lease makes of a message: it is an edge that passes the checks, or a completion receipt. -/
theorem receive_eq_ok {admission : Admission}
    (received : job.receive importBundle verified message = .ok admission) :
    (∃ edge, message = .edge edge ∧ EdgeChecked importBundle job.ticket job.actors edge ∧ EdgeFits job verified edge ∧
      admission = if edge.propertyViolation then .violation edge.target
        else .edge (job.record edge) (verified.insert edge.key edge.result)) ∨
    ∃ done, message = .done done ∧ job.admitDone done = .ok admission := by
  cases message with
  | edge edge =>
    obtain ⟨⟨next, verifiedNext⟩, admitted, returned⟩ := Except.bind_eq_ok.mp received
    obtain ⟨checked, fits, rfl, rfl⟩ := admitEdge_eq_ok_iff.mp admitted
    cases returned
    exact .inl ⟨edge, rfl, checked, fits, rfl⟩
  | done done => exact .inr ⟨done, rfl, received⟩
  | error error => cases (require_bind_eq_ok.mp received).2
  | hello => cases received
  | task => cases received
  | shutdown => cases received

/-- Only an accepted edge without a violation keeps the lease open. -/
theorem receive_eq_edge {next : Job} {verifiedNext : VerifiedEdges}
    (received : job.receive importBundle verified message = .ok (.edge next verifiedNext)) :
    ∃ edge, message = .edge edge ∧ EdgeChecked importBundle job.ticket job.actors edge ∧ EdgeFits job verified edge ∧
      edge.propertyViolation = false ∧ next = job.record edge ∧
      verifiedNext = verified.insert edge.key edge.result := by
  rcases receive_eq_ok received with ⟨edge, rfl, checked, fits, same⟩ | ⟨done, rfl, admitted⟩
  · split at same
    · cases same
    · next harmless =>
      cases same
      exact ⟨edge, rfl, checked, fits, by simpa using harmless, rfl, rfl⟩
  · rcases admitDone_eq_ok admitted with ⟨_, same, _⟩ | ⟨_, same, _⟩ <;> cases same

/-- Only a completion receipt leads to a commit. -/
theorem receive_eq_commit
    (received : job.receive importBundle verified message = .ok (.commit expansion)) :
    ∃ done, message = .done done ∧ job.sourceViolation = false ∧ Completes job expansion := by
  rcases receive_eq_ok received with ⟨edge, rfl, checked, fits, same⟩ | ⟨done, rfl, admitted⟩
  · split at same <;> cases same
  · rcases admitDone_eq_ok admitted with ⟨_, same, _⟩ | ⟨_, same, _, sound, completes⟩
    · cases same
    · cases same
      exact ⟨done, rfl, sound, completes⟩

/-- A violation is the target of an accepted edge, or known to the lease already. -/
theorem receive_eq_violation {state : StateKey}
    (received : job.receive importBundle verified message = .ok (.violation state)) :
    (∃ edge, message = .edge edge ∧ EdgeChecked importBundle job.ticket job.actors edge ∧
      edge.propertyViolation = true ∧ state = edge.target) ∨
    (state = job.violation.getD job.ticket.state ∧ (job.violation ≠ none ∨ job.sourceViolation = true)) := by
  rcases receive_eq_ok received with ⟨edge, rfl, checked, fits, same⟩ | ⟨done, rfl, admitted⟩
  · split at same
    · next violating =>
      cases same
      exact .inl ⟨edge, rfl, checked, violating, rfl⟩
    · cases same
  · rcases admitDone_eq_ok admitted with ⟨_, same, known⟩ | ⟨_, same, _⟩
    · cases same
      exact .inr ⟨rfl, known⟩
    · cases same

/-- Every stream is a run of accepted edges, and ends there or with a message that ends the lease. -/
theorem receiveAll_cases (importBundle : Bundle → Except Failure Bool) (job : Job) (verified : VerifiedEdges)
    (messages : List Message) :
    ∃ edges rest last verifiedLast, messages = edges.map .edge ++ rest ∧
      Admits importBundle job verified edges last verifiedLast ∧
      (rest = [] ∨ ∃ message later, rest = message :: later ∧
        ∀ next verifiedNext, last.receive importBundle verifiedLast message ≠ .ok (.edge next verifiedNext)) := by
  induction messages generalizing job verified with
  | nil => exact ⟨[], [], job, verified, rfl, .nil _ _, .inl rfl⟩
  | cons message messages ih =>
    by_cases continues : ∃ next verifiedNext, job.receive importBundle verified message = .ok (.edge next verifiedNext)
    · obtain ⟨next, verifiedNext, received⟩ := continues
      obtain ⟨edge, rfl, checked, fits, harmless, rfl, rfl⟩ := receive_eq_edge received
      obtain ⟨edges, rest, last, verifiedLast, rfl, admits, ending⟩ :=
        ih (job.record edge) (verified.insert edge.key edge.result)
      exact ⟨edge :: edges, rest, last, verifiedLast, rfl, .cons checked fits harmless admits, ending⟩
    · push Not at continues
      exact ⟨[], message :: messages, job, verified, rfl, .nil _ _, .inr ⟨message, messages, rfl, continues⟩⟩

/-! ## The record of a lease -/

/-- The edges of one actor. -/
def edgesOf (edges : List Edge) (actor : ActorAction) : List Edge := edges.filter (·.actor = actor)

/-- The choices received for one actor, in order. -/
def choicesOf (edges : List Edge) (actor : ActorAction) : List ℤ := (edgesOf edges actor).map Edge.choice

/-- The record of a lease in terms of the edges received so far. -/
structure Records (start : Job) (edges : List Edge) (job : Job) : Prop where
  ticket : job.ticket = start.ticket
  actors : job.actors = start.actors
  sourceBudget : job.sourceBudget = start.sourceBudget
  sourceViolation : job.sourceViolation = start.sourceViolation
  violation : job.violation = none
  successors : job.successors = edges.map Edge.target
  choices : ∀ actor, job.choices.lookup actor =
    if choicesOf edges actor = [] then none else some (choicesOf edges actor).toFinset
  counts : ∀ actor, job.choiceCounts.lookup actor = (edgesOf edges actor).head?.map Edge.choiceCount
  constant : ∀ first ∈ edges, ∀ second ∈ edges, first.actor = second.actor → first.choiceCount = second.choiceCount
  distinct : ∀ actor, (choicesOf edges actor).Nodup

theorem edgesOf_snoc (edges : List Edge) (edge : Edge) (actor : ActorAction) :
    edgesOf (edges ++ [edge]) actor = edgesOf edges actor ++ if edge.actor = actor then [edge] else [] := by
  by_cases same : edge.actor = actor <;> simp [edgesOf, same]

theorem choicesOf_snoc (edges : List Edge) (edge : Edge) (actor : ActorAction) :
    choicesOf (edges ++ [edge]) actor =
      choicesOf edges actor ++ if edge.actor = actor then [edge.choice] else [] := by
  by_cases same : edge.actor = actor <;> simp [choicesOf, edgesOf_snoc, same]

theorem choicesOf_append (first second : List Edge) (actor : ActorAction) :
    choicesOf (first ++ second) actor = choicesOf first actor ++ choicesOf second actor := by
  simp [choicesOf, edgesOf]

theorem mem_edgesOf {actor : ActorAction} :
    edge ∈ edgesOf edges actor ↔ edge ∈ edges ∧ edge.actor = actor := by
  simp [edgesOf]

theorem Records.start {start : Job} (choices : start.choices = ∅) (counts : start.choiceCounts = ∅)
    (successors : start.successors = []) (violation : start.violation = none) : Records start [] start := by
  constructor <;> simp [choices, counts, successors, violation, choicesOf, edgesOf]

theorem Records.choices_getD {start : Job} (records : Records start edges job)
    (actor : ActorAction) : (job.choices.lookup actor).getD ∅ = (choicesOf edges actor).toFinset := by
  rw [records.choices]
  split
  · next none => simp [none]
  · rfl

theorem Records.fresh_iff {start : Job} (records : Records start edges job) (edge : Edge) :
    edge.choice ∉ (job.choices.lookup edge.actor).getD ∅ ↔ edge.choice ∉ choicesOf edges edge.actor := by
  rw [records.choices_getD, List.mem_toFinset]

theorem Records.constant_iff {start : Job} (records : Records start edges job) (edge : Edge) :
    (job.choiceCounts.lookup edge.actor).getD edge.choiceCount = edge.choiceCount ↔
      ∀ other ∈ edges, other.actor = edge.actor → other.choiceCount = edge.choiceCount := by
  rw [records.counts]
  cases listed : edgesOf edges edge.actor with
  | nil =>
    have none : ∀ other ∈ edges, other.actor ≠ edge.actor := by
      intro other member same
      have := mem_edgesOf.mpr ⟨member, same⟩
      simp [listed] at this
    simpa using fun other member same => absurd same (none other member)
  | cons first rest =>
    obtain ⟨member, same⟩ := mem_edgesOf.mp (listed ▸ List.mem_cons_self : first ∈ edgesOf edges edge.actor)
    simp only [List.head?_cons, Option.map_some, Option.getD_some]
    constructor
    · intro equal other present sameActor
      rw [← equal]
      exact records.constant other present first member (sameActor.trans same.symm)
    · intro equal
      exact equal first member same

/-- One more accepted edge. -/
theorem Records.step {start : Job}
    (records : Records start edges job) (fits : EdgeFits job verified edge)
    (harmless : edge.propertyViolation = false) : Records start (edges ++ [edge]) (job.record edge) where
  ticket := records.ticket
  actors := records.actors
  sourceBudget := records.sourceBudget
  sourceViolation := records.sourceViolation
  violation := by simp [Job.record, harmless, records.violation]
  successors := by simp [Job.record, records.successors]
  choices := by
    intro actor
    rw [choicesOf_snoc]
    by_cases same : edge.actor = actor
    · subst same
      have grown : insert edge.choice (choicesOf edges edge.actor).toFinset =
          (choicesOf edges edge.actor ++ [edge.choice]).toFinset := by
        ext choice
        simp
      simp only [Job.record, Finmap.lookup_insert, records.choices_getD, if_true, grown]
      rw [if_neg (by simp)]
    · simp [Job.record, Finmap.lookup_insert_of_ne _ (Ne.symm same), same, records.choices]
  counts := by
    intro actor
    rw [edgesOf_snoc]
    by_cases same : edge.actor = actor
    · subst same
      simp only [Job.record, Finmap.lookup_insert, if_true]
      cases listed : edgesOf edges edge.actor with
      | nil => rfl
      | cons first rest =>
        obtain ⟨member, same⟩ := mem_edgesOf.mp (listed ▸ List.mem_cons_self : first ∈ edgesOf edges edge.actor)
        simp [(records.constant_iff edge).mp fits.constant first member same]
    · simp [Job.record, Finmap.lookup_insert_of_ne _ (Ne.symm same), same, records.counts]
  constant := by
    have known := (records.constant_iff edge).mp fits.constant
    intro first member second present same
    rcases List.mem_append.mp member with old | new <;> rcases List.mem_append.mp present with other | last
    · exact records.constant first old second other same
    · obtain rfl := List.mem_singleton.mp last
      exact known first old same
    · obtain rfl := List.mem_singleton.mp new
      exact (known second other same.symm).symm
    · rw [List.mem_singleton.mp new, List.mem_singleton.mp last]
  distinct := by
    intro actor
    rw [choicesOf_snoc]
    by_cases same : edge.actor = actor
    · subst same
      have fresh := (records.fresh_iff edge).mp fits.fresh
      simpa [List.nodup_append, fresh] using ⟨records.distinct edge.actor, fun choice member equal => fresh (equal ▸ member)⟩
    · simpa [same] using records.distinct actor

/-- What an open lease has recorded, and what was checked about each edge on its own. -/
theorem Admits.records {start : Job} {before : List Edge}
    (records : Records start before job) (admits : Admits importBundle job verified edges last verifiedLast) :
    Records start (before ++ edges) last ∧ ∀ edge ∈ edges, edge.propertyViolation = false ∧
      EdgeChecked importBundle start.ticket start.actors edge := by
  induction admits generalizing before with
  | nil => simpa using records
  | @cons job last verified verifiedLast edge rest checked fits harmless _ ih =>
    obtain ⟨recorded, each⟩ := ih (records.step fits harmless)
    refine ⟨by simpa using recorded, ?_⟩
    rw [records.ticket, records.actors] at checked
    intro other member
    rcases List.mem_cons.mp member with rfl | later
    · exact ⟨harmless, checked⟩
    · exact each other later

/-- If every actor names each choice once, a later edge does not repeat an earlier one. -/
theorem choice_notMem_of_nodup {first second : List Edge}
    (distinct : ∀ actor, (choicesOf (first ++ second) actor).Nodup) (member : edge ∈ second) :
    edge.choice ∉ choicesOf first edge.actor := by
  intro repeated
  have once := distinct edge.actor
  rw [choicesOf_append] at once
  exact (List.nodup_append.mp once).2.2 _ repeated _ (List.mem_map_of_mem (mem_edgesOf.mpr ⟨member, rfl⟩)) rfl

theorem key_ne_of_nodup {first second : List Edge} (distinct : ∀ actor, (choicesOf (first ++ second) actor).Nodup)
    {earlier later : Edge} (before : earlier ∈ first) (after : later ∈ second) : earlier.key ≠ later.key := by
  intro same
  simp only [Edge.key, Prod.mk.injEq] at same
  refine choice_notMem_of_nodup distinct after ?_
  rw [← same.2.2]
  exact List.mem_map_of_mem (mem_edgesOf.mpr ⟨before, same.2.1⟩)

/-- An edge that passes the checks on its own also passes those against the record, if it names a new
choice, declares the cardinality of its actor and agrees with the edges verified before. -/
theorem Records.fits {start : Job} (records : Records start edges job)
    (distinct : ∀ actor, (choicesOf (edges ++ [edge]) actor).Nodup)
    (constant : ∀ other ∈ edges, other.actor = edge.actor → other.choiceCount = edge.choiceCount)
    (deterministic : (verified.lookup edge.key).getD edge.result = edge.result) : EdgeFits job verified edge where
  quiet := records.violation
  constant := (records.constant_iff edge).mpr constant
  fresh := (records.fresh_iff edge).mpr (choice_notMem_of_nodup distinct (List.mem_singleton_self edge))
  deterministic := deterministic

/-- Edges that pass the checks on their own, name each choice once, declare one cardinality per actor and
agree with the edges verified before are accepted. -/
theorem admits_of_checked {start : Job} {before : List Edge}
    (records : Records start before job)
    (checked : ∀ edge ∈ edges, edge.propertyViolation = false ∧ EdgeChecked importBundle start.ticket start.actors edge)
    (distinct : ∀ actor, (choicesOf (before ++ edges) actor).Nodup)
    (constant : ∀ first ∈ before ++ edges, ∀ second ∈ before ++ edges, first.actor = second.actor →
      first.choiceCount = second.choiceCount)
    (deterministic : ∀ edge ∈ edges, (verified.lookup edge.key).getD edge.result = edge.result) :
    ∃ last verifiedLast, Admits importBundle job verified edges last verifiedLast := by
  induction edges generalizing before job verified with
  | nil => exact ⟨job, verified, .nil _ _⟩
  | cons edge rest ih =>
    obtain ⟨harmless, alone⟩ := checked edge List.mem_cons_self
    have split : before ++ edge :: rest = before ++ [edge] ++ rest := by simp
    rw [split] at distinct constant
    have fits : EdgeFits job verified edge := by
      refine records.fits (fun actor => ?_) ?_ (deterministic edge List.mem_cons_self)
      · have once := distinct actor
        rw [choicesOf_append] at once
        exact (List.nodup_append.mp once).1
      · intro other member same
        exact constant other (by simp [member]) edge (by simp) same
    have later : ∀ other ∈ rest,
        ((verified.insert edge.key edge.result).lookup other.key).getD other.result = other.result := by
      intro other member
      rw [Finmap.lookup_insert_of_ne _ (key_ne_of_nodup distinct (by simp) member).symm]
      exact deterministic other (List.mem_cons_of_mem _ member)
    obtain ⟨last, verifiedLast, admits⟩ := ih (records.step fits harmless)
      (fun other member => checked other (List.mem_cons_of_mem _ member)) distinct constant later
    exact ⟨last, verifiedLast, .cons (by rwa [records.ticket, records.actors]) fits harmless admits⟩

theorem Admits.verified_lookup
    (admits : Admits importBundle job verified edges last verifiedLast) {key : EdgeKey}
    (other : ∀ edge ∈ edges, edge.key ≠ key) : verifiedLast.lookup key = verified.lookup key := by
  induction admits with
  | nil => rfl
  | @cons job last verified verifiedLast edge rest checked fits harmless _ ih =>
    rw [ih fun later member => other later (List.mem_cons_of_mem _ member),
      Finmap.lookup_insert_of_ne _ (other edge List.mem_cons_self).symm]

/-- The same for edges of which the last violates a property. -/
theorem receiveAll_violating {start : Job} {init : List Edge} {last : Edge}
    (records : Records start [] start)
    (checked : ∀ edge ∈ init ++ [last], EdgeChecked importBundle start.ticket start.actors edge)
    (harmless : ∀ edge ∈ init, edge.propertyViolation = false) (violating : last.propertyViolation = true)
    (distinct : ∀ actor, (choicesOf (init ++ [last]) actor).Nodup)
    (constant : ∀ first ∈ init ++ [last], ∀ second ∈ init ++ [last], first.actor = second.actor →
      first.choiceCount = second.choiceCount)
    (deterministic : ∀ edge ∈ init ++ [last], (verified.lookup edge.key).getD edge.result = edge.result)
    (rest : List Message) :
    start.receiveAll importBundle verified ((init ++ [last]).map .edge ++ rest) = .violation last.target := by
  have distinctInit : ∀ actor, (choicesOf ([] ++ init) actor).Nodup := by
    intro actor
    have once := distinct actor
    rw [choicesOf_append] at once
    exact (List.nodup_append.mp once).1
  obtain ⟨job, verifiedLast, admits⟩ := admits_of_checked records
    (fun edge member => ⟨harmless edge member, checked edge (by simp [member])⟩) distinctInit
    (fun first member second present => constant first (by simpa using .inl member) second (by simpa using .inl present))
    (fun edge member => deterministic edge (by simp [member]))
  obtain ⟨recorded, _⟩ := admits.records records
  rw [List.nil_append] at recorded
  have fits : EdgeFits job verifiedLast last := by
    refine recorded.fits distinct ?_ ?_
    · intro other member same
      exact constant other (by simp [member]) last (by simp) same
    · rw [admits.verified_lookup fun edge member => key_ne_of_nodup distinct member (List.mem_singleton_self last)]
      exact deterministic last (by simp)
  have alone : EdgeChecked importBundle job.ticket job.actors last := by
    rw [recorded.ticket, recorded.actors]
    exact checked last (by simp)
  rw [List.map_append, List.append_assoc, admits.receiveAll]
  simp only [List.map_cons, List.map_nil, List.cons_append, List.nil_append, Job.receiveAll,
    receive_edge alone fits, violating, if_true]

/-! ## Complete expansions -/

/-- The choices an actor with the given cardinality has: the fixed one of its action, or all of them. -/
def declaredChoices (actor : ActorAction) (count : ℕ) : List ℤ :=
  if count = 0 then [if actor.action = .timeout then -2 else -1] else (List.range count).map Int.ofNat

/-- Exactly one edge for each choice of each enabled actor, and no other edge. -/
structure CompleteExpansion (actors : Finset ActorAction) (edges : List Edge) : Prop where
  enabled : ∀ edge ∈ edges, edge.actor ∈ actors
  complete : ∀ actor ∈ actors, ∃ count, (∀ edge ∈ edges, edge.actor = actor → edge.choiceCount = count) ∧
    (choicesOf edges actor).Perm (declaredChoices actor count)

/-- A choice that passes the checks on one edge is among those declared with it. -/
theorem EdgeChecked.choice_mem {ticket : Ticket} {actors : Finset ActorAction}
    (checked : EdgeChecked importBundle ticket actors edge) :
    edge.choice ∈ declaredChoices edge.actor edge.choiceCount := by
  unfold declaredChoices
  rcases checked.cardinality with ⟨negative, zero⟩ | ⟨normal, nonnegative, below⟩
  · rw [if_pos zero]
    rcases checked.choice with ⟨timeout, fixed⟩ | ⟨normal, least⟩
    · simp [timeout, fixed]
    · have : edge.choice = -1 := by omega
      simp [normal, this]
  · rw [if_neg (by omega), List.mem_map]
    exact ⟨edge.choice.toNat, List.mem_range.mpr (by omega), Int.toNat_of_nonneg nonnegative⟩

theorem nodup_declaredChoices (actor : ActorAction) (count : ℕ) : (declaredChoices actor count).Nodup := by
  unfold declaredChoices
  split
  · simp
  · exact (List.nodup_range).map Int.ofNat_injective

theorem length_declaredChoices (actor : ActorAction) (count : ℕ) :
    (declaredChoices actor count).length = max count 1 := by
  unfold declaredChoices
  split
  · next zero => simp [zero]
  · next positive =>
    rw [List.length_map, List.length_range]
    omega

/-- The least and the largest of all choices below a bound. -/
theorem min_max_range {count : ℕ} (positive : count ≠ 0) :
    ((List.range count).map Int.ofNat).toFinset.min.untopD 0 = 0 ∧
      ((List.range count).map Int.ofNat).toFinset.max.unbotD 0 + 1 = count := by
  have mem_iff : ∀ choice : ℤ, choice ∈ ((List.range count).map Int.ofNat).toFinset ↔ 0 ≤ choice ∧ choice < count := by
    intro choice
    simp only [List.mem_toFinset, List.mem_map, List.mem_range]
    constructor
    · rintro ⟨n, below, rfl⟩
      exact ⟨Int.natCast_nonneg n, Int.ofNat_lt.mpr below⟩
    · rintro ⟨nonnegative, below⟩
      exact ⟨choice.toNat, by omega, Int.toNat_of_nonneg nonnegative⟩
  have first := (mem_iff 0).mpr ⟨le_rfl, by omega⟩
  have last := (mem_iff (count - 1)).mpr ⟨by omega, by omega⟩
  obtain ⟨least, isLeast⟩ := Finset.min_of_mem first
  obtain ⟨largest, isLargest⟩ := Finset.max_of_mem last
  have low := (mem_iff least).mp (Finset.mem_of_min isLeast)
  have high := (mem_iff largest).mp (Finset.mem_of_max isLargest)
  have below := Finset.min_le_of_eq first isLeast
  have above := Finset.le_max_of_eq last isLargest
  rw [isLeast, isLargest, WithTop.untopD_coe, WithBot.unbotD_coe]
  omega

/-- An actor passes the final check if and only if its choices are the declared ones. -/
theorem Records.choices_complete_iff {start : Job} (records : Records start edges job)
    (checked : ∀ edge ∈ edges, EdgeChecked importBundle start.ticket start.actors edge)
    (member : edge ∈ edges) :
    job.fixedChoice edge.actor ∧ job.configuredChoices edge.actor ↔
      (choicesOf edges edge.actor).Perm (declaredChoices edge.actor edge.choiceCount) := by
  have counted : job.choiceCounts.lookup edge.actor = some edge.choiceCount := by
    rw [records.counts]
    cases listed : edgesOf edges edge.actor with
    | nil =>
      have := mem_edgesOf.mpr ⟨member, rfl⟩
      simp [listed] at this
    | cons first rest =>
      obtain ⟨present, same⟩ := mem_edgesOf.mp (listed ▸ List.mem_cons_self : first ∈ edgesOf edges edge.actor)
      simp [records.constant first present edge member same]
  have declared : choicesOf edges edge.actor ⊆ declaredChoices edge.actor edge.choiceCount := by
    intro choice received
    obtain ⟨other, present, rfl⟩ := List.mem_map.mp received
    obtain ⟨present, same⟩ := mem_edgesOf.mp present
    have := (checked other present).choice_mem
    rwa [same, records.constant other present edge member same] at this
  have nodup := records.distinct edge.actor
  have size : (choicesOf edges edge.actor).toFinset.card = (choicesOf edges edge.actor).length :=
    List.toFinset_card_of_nodup nodup
  have subperm := nodup.subperm declared
  simp only [Job.fixedChoice, Job.configuredChoices, counted, records.choices_getD, Option.getD_some,
    Option.some.injEq, size]
  constructor
  · rintro ⟨fixed, configured⟩
    refine subperm.perm_of_length_le ?_
    rw [length_declaredChoices]
    by_cases zero : edge.choiceCount = 0
    · have := (fixed zero).1
      omega
    · have := (configured zero).1
      omega
  · intro perm
    have length := perm.length_eq
    rw [length_declaredChoices] at length
    have same : (choicesOf edges edge.actor).toFinset = (declaredChoices edge.actor edge.choiceCount).toFinset :=
      List.toFinset_eq_of_perm _ _ perm
    rw [same]
    refine ⟨fun zero => ⟨by omega, ?_⟩, fun positive => ⟨by omega, ?_⟩⟩
    · simp only [declaredChoices, if_pos zero]
      split <;> decide
    · rw [declaredChoices, if_neg positive]
      exact min_max_range positive

/-- The final check as a whole. -/
theorem Records.complete_iff {start : Job} (records : Records start edges job)
    (checked : ∀ edge ∈ edges, EdgeChecked importBundle start.ticket start.actors edge) :
    (job.choices.keys.card = job.actors.card ∧ (∀ actor ∈ job.choices.keys, job.fixedChoice actor) ∧
      ∀ actor ∈ job.choices.keys, job.configuredChoices actor) ↔ CompleteExpansion start.actors edges := by
  have mem_keys_iff : ∀ actor, actor ∈ job.choices.keys ↔ ∃ edge ∈ edges, edge.actor = actor := by
    intro actor
    rw [Finmap.mem_keys, ← Finmap.lookup_isSome, records.choices]
    by_cases none : choicesOf edges actor = []
    · rw [if_pos none]
      simp only [choicesOf, List.map_eq_nil_iff, edgesOf, List.filter_eq_nil_iff] at none
      simpa using none
    · rw [if_neg none]
      obtain ⟨choice, received⟩ := List.exists_mem_of_ne_nil _ none
      obtain ⟨edge, present, _⟩ := List.mem_map.mp received
      simpa using ⟨edge, mem_edgesOf.mp present⟩
  have enabled : job.choices.keys ⊆ start.actors := by
    intro actor member
    obtain ⟨edge, present, rfl⟩ := (mem_keys_iff actor).mp member
    exact (checked edge present).enabled
  rw [records.actors, ← forall₂_and]
  constructor
  · rintro ⟨covered, complete⟩
    have all := Finset.eq_of_subset_of_card_le enabled covered.ge
    refine ⟨fun edge present => (checked edge present).enabled, ?_⟩
    intro actor member
    obtain ⟨edge, present, rfl⟩ := (mem_keys_iff actor).mp (all ▸ member)
    exact ⟨edge.choiceCount, fun other listed same => records.constant other listed edge present same,
      (records.choices_complete_iff checked present).mp (complete _ (all ▸ member))⟩
  · intro expansion
    have all : job.choices.keys = start.actors := by
      refine enabled.antisymm ?_
      intro actor member
      obtain ⟨count, _, perm⟩ := expansion.complete actor member
      have some : choicesOf edges actor ≠ [] := by
        intro none
        have := perm.length_eq
        rw [none, length_declaredChoices, List.length_nil] at this
        omega
      obtain ⟨choice, received⟩ := List.exists_mem_of_ne_nil _ some
      obtain ⟨edge, present, _⟩ := List.mem_map.mp received
      exact (mem_keys_iff actor).mpr ⟨edge, mem_edgesOf.mp present⟩
    refine ⟨by rw [all], ?_⟩
    intro actor member
    obtain ⟨edge, present, rfl⟩ := (mem_keys_iff actor).mp member
    obtain ⟨count, constant, perm⟩ := expansion.complete edge.actor (all ▸ member)
    rw [records.choices_complete_iff checked present, constant edge present rfl]
    exact perm

theorem Job.create_budget (ticket : Ticket) (source : Source) : 0 < (Job.create ticket source).sourceBudget := by
  simp [Job.create, kInitialModelBudget]

theorem Job.create_records (ticket : Ticket) (source : Source) :
    Records (Job.create ticket source) [] (Job.create ticket source) :=
  .start rfl rfl rfl rfl

/-- What the coordinator knows of the stream when it commits the result of a lease. -/
theorem receiveAll_commit {ticket : Ticket} {source : Source} {messages : List Message}
    (committed : (Job.create ticket source).receiveAll importBundle verified messages = .commit expansion) :
    source.propertyFailed = false ∧ ∃ edges done rest, messages = edges.map .edge ++ .done done :: rest ∧
      (∀ edge ∈ edges, edge.propertyViolation = false ∧
        EdgeChecked importBundle ticket source.actors.toFinset edge) ∧
      expansion.successors = edges.map Edge.target ∧
      match expansion.kind with
      | .expanded => source.actors ≠ [] ∧ CompleteExpansion source.actors.toFinset edges
      | .terminal => source.actors = [] ∧ edges = []
      | .depthCut => ticket.mayExpand = false ∧ source.actors ≠ [] ∧ edges = []
      | .modelBudget | .failure => False := by
  obtain ⟨edges, rest, last, verifiedLast, rfl, admits, ending⟩ :=
    receiveAll_cases importBundle (Job.create ticket source) verified messages
  obtain ⟨records, checked⟩ := admits.records (Job.create_records ticket source)
  rw [List.nil_append] at records
  rw [admits.receiveAll] at committed
  rcases ending with rfl | ⟨message, later, rfl, ends⟩
  · cases committed
  have received : last.receive importBundle verifiedLast message = .ok (.commit expansion) := by
    unfold Job.receiveAll at committed
    split at committed
    · cases committed
    · next received => exact absurd received (ends _ _)
    · cases committed
    · next received =>
      cases committed
      exact received
  obtain ⟨done, rfl, sound, completes⟩ := receive_eq_commit received
  have disabled_iff : last.actors = ∅ ↔ source.actors = [] := by
    rw [records.actors]
    exact List.toFinset_eq_empty_iff _
  refine ⟨records.sourceViolation.symm.trans sound, edges, done, later, rfl, checked, ?_⟩
  cases completes with
  | expanded mayExpand budget enabled covered fixed configured =>
    refine ⟨records.successors, disabled_iff.not.mp enabled, ?_⟩
    exact (records.complete_iff fun edge member => (checked edge member).2).mp ⟨covered, fixed, configured⟩
  | terminal unsent disabled =>
    have none : edges = [] := by simpa [records.successors] using unsent
    exact ⟨by simp [none], disabled_iff.mp disabled, none⟩
  | depthCut unsent probe enabled budget =>
    have none : edges = [] := by simpa [records.successors] using unsent
    exact ⟨by simp [none], (congrArg Ticket.mayExpand records.ticket).symm.trans probe, disabled_iff.not.mp enabled, none⟩
  | modelBudget unsent enabled spent =>
    have := Job.create_budget ticket source
    rw [records.sourceBudget] at spent
    omega

end DetSim.Search
