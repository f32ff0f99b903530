import DetSim.Soundness.HonestWorkers

/-! # The search loop and its frontier

The coordinator drives one frontier with the reports of its workers. Its invariant ties the two
together: the frontier explores the transition system, every lease it has given out is the job of one
worker, and the edges recorded for a job are edges of the system. Each event concerns one worker, so
each step is a change at one worker.
-/

namespace DetSim.Search

open Std ExtTreeMap Relation
open Except (bind_eq_ok foldlM_invariant)
open Scheduler (TransitionSystem)

variable {expansion : Expansion} {f g : Frontier} {reply : Reply} {ticket : Ticket}

/-- The store holds the states of the system. -/
structure Store.Agrees (store : Store) (system : TransitionSystem) : Prop where
  load : ∀ key source, store.load key = .ok source → source = systemSource system key
  imported : ∀ bundle failed, store.importBundle bundle = .ok failed →
    failed = system.propertyFailed bundle.systemKey

/-- The worker of a dispatch follows the system. -/
def CoordinatorEvent.Honest (system : TransitionSystem) : CoordinatorEvent → Prop
  | .dispatch _ _ _ attempt => ∀ state, (attempt state).Follows system state
  | _ => True

variable {system : TransitionSystem} {root : StateKey}

/-! ## The frontier -/

/-- Finished states fail no property. -/
def Frontier.Clean (system : TransitionSystem) (f : Frontier) : Prop :=
  ∀ (key : StateKey) node, f.nodes[key]? = some node → node.phase ≠ .pending → node.phase ≠ .inflight →
    system.propertyFailed key = false

theorem Frontier.Clean.relax {work rest : Work} (clean : f.Clean system)
    (steps : ReflTransGen Relaxes (f, work) (g, rest)) : g.Clean system := by
  have evolves := evolves_of_relaxes steps
  intro key next present notPending notInflight
  cases before : f.nodes[key]? with
  | none => exact absurd (evolves.fresh key next present before).1 notPending
  | some node =>
    obtain ⟨same, again, shortened⟩ := evolves.kept key node before
    obtain rfl : same = next := Option.some.inj (again.symm.trans present)
    rcases shortened.phase with unchanged | ⟨_, pending, _⟩
    · exact clean key node before (unchanged ▸ notPending) (unchanged ▸ notInflight)
    · exact absurd pending notPending

theorem Frontier.Clean.replace (clean : f.Clean system) {key : StateKey} (node next : Node)
    (sound : next.phase ≠ .pending → next.phase ≠ .inflight → system.propertyFailed key = false) :
    (f.replace key node next).Clean system := by
  intro other entry present notPending notInflight
  simp only [Frontier.replace, getElem?_insert_eq] at present
  split at present
  · next same =>
    cases present
    exact same ▸ sound notPending notInflight
  · exact clean other entry present notPending notInflight

/-- The reports a call makes to the frontier are true, and no root is admitted. -/
def Call.Reports (system : TransitionSystem) : Call → Prop
  | .admitState _ _ => False
  | .commit ticket expansion => Truthful (successors system) ticket expansion ∧
      system.propertyFailed ticket.state = false
  | _ => True

/-- The frontier of a search from one root, with its history. -/
structure Tracks (system : TransitionSystem) (root : StateKey) (limit : UInt64) (f : Frontier)
    (events : List Event) : Prop where
  linked : Linked f events
  limit : f.limit = limit
  roots : admittedRoots events = {(root, 0)}
  truthful : TruthfulHistory (successors system) events
  explores : Explores (successors system) {(root, 0)} f []
  clean : f.Clean system

variable {limit : UInt64}

theorem Effect.clean {call : Call} {reply : Except FrontierError Reply} (effect : Effect f call reply g)
    (clean : f.Clean system) (reports : call.Reports system) : g.Clean system := by
  cases effect with
  | thrown => exact clean
  | idle => exact clean
  | admitted => exact reports.elim
  | @leased _ worker key node candidates isLease read pending available =>
    exact clean.replace node { node with phase := .inflight, ticket := some (f.ticketFor worker key node) }
      fun _ notInflight => absurd rfl notInflight
  | @committed ticket expansion node g matched compatible read supplied steps =>
    have relaxed : g.Clean system :=
      (clean.replace node (node.committed f.limit expansion) fun _ _ => reports.2).relax steps
    exact relaxed
  | @lost worker count g requeued =>
    intro key next present notPending notInflight
    obtain ⟨node, read, rfl⟩ := requeued.read present
    have same : node.requeued worker = node := by
      unfold Node.requeued at notPending ⊢
      split
      · rfl
      · split
        · next ticket held lost => simp [held, lost] at notPending
        · rfl
    rw [same] at notPending notInflight
    exact clean key node read notPending notInflight

/-- A call with true reports keeps the frontier on track. -/
theorem Tracks.call {events : List Event} (tracks : Tracks system root limit f events) (call : Call)
    (reports : call.Reports system) :
    Tracks system root limit (f.call call).2 (events ++ [(call, (f.call call).1)]) := by
  have effect := call_effect tracks.linked.coherent call
  have truthful : TruthfulHistory (successors system) (events ++ [(call, (f.call call).1)]) := by
    intro ticket expansion reply member
    rcases List.mem_append.mp member with old | new
    · exact tracks.truthful ticket expansion reply old
    · obtain ⟨same, _⟩ := Prod.mk.inj (List.mem_singleton.mp new)
      rw [← same] at reports
      exact reports.1
  have roots : admittedRoots (events ++ [(call, (f.call call).1)]) = {(root, 0)} := by
    rw [admittedRoots_snoc_of_other, tracks.roots]
    intro state depth reply same
    rw [(Prod.mk.inj same).1] at reports
    exact reports
  have explores := effect.explores tracks.linked.coherent (tracks.roots ▸ tracks.explores) truthful
  exact ⟨tracks.linked.step _ effect, effect.unchanged.2.trans tracks.limit, roots, truthful, roots ▸ explores,
    effect.clean tracks.clean reports⟩

theorem reached_iff_reachableIn {state : StateKey} {n : ℕ} :
    Reached (successors system).Step {(root, 0)} state n ↔ system.ReachableIn n root state := by
  constructor
  · intro reached
    induction reached with
    | root member =>
      cases Set.mem_singleton_iff.mp member
      exact .refl _
    | next _ edge ih => exact ih.snoc (successors_step_iff.mp edge)
  · intro path
    have extend : ∀ {length source target}, system.ReachableIn length source target → ∀ {depth},
        Reached (successors system).Step {(root, 0)} source depth →
        Reached (successors system).Step {(root, 0)} target (depth + length) := by
      intro length source target path
      induction path with
      | refl => exact fun reached => reached
      | head step _ ih =>
        intro depth reached
        have later := ih (reached.next (successors_step_iff.mpr step))
        rwa [Nat.add_right_comm] at later
    simpa using extend path (.root rfl)

/-- Every stored state is reachable. -/
theorem Tracks.reachable {events : List Event} (tracks : Tracks system root limit f events)
    {key : StateKey} {node : Node} (read : f.nodes[key]? = some node) : system.Reachable root key :=
  (reached_iff_reachableIn.mp (tracks.explores.attained key node read).1).reachable

theorem Tracks.start {maxStates : UInt64} {policy : Policy} {hasPriority changed : Bool}
    (created : Frontier.create limit policy hasPriority maxStates = .ok f)
    (admitted : f.call (.admitState root 0) = (.ok (.admitted changed), g)) :
    Tracks system root limit g [(.admitState root 0, .ok (.admitted changed))] := by
  obtain ⟨atLimit, empty⟩ := create_limit created
  have linked := create_linked created
  have effect := call_effect linked.coherent (.admitState root 0)
  rw [admitted] at effect
  have truthful : TruthfulHistory (successors system) [(.admitState root 0, .ok (.admitted changed))] := by
    intro ticket expansion reply member
    simp at member
  have roots : admittedRoots [(.admitState root 0, .ok (.admitted changed))] = {(root, 0)} := by
    have admits := admittedRoots_snoc_admitted [] root 0 (.admitted changed)
    simpa [admittedRoots] using admits
  have none : ∀ key : StateKey, f.nodes[key]? = none := by simp [empty]
  have explored : Explores (successors system) (admittedRoots []) f [] := by
    constructor <;> simp [none, admittedRoots]
  refine ⟨linked.step _ effect, effect.unchanged.2.trans atLimit, roots, truthful,
    roots ▸ effect.explores linked.coherent explored truthful, ?_⟩
  have clean : f.Clean system := fun key node read => by simp [none] at read
  cases effect with
  | admitted bound supplied steps => exact clean.relax steps

/-! ## One worker at a time -/

/-- What the coordinator may rely on for a worker: its job is a lease the frontier holds, and the edges it
will still send are edges of the system. -/
structure WorkerSound (system : TransitionSystem) (store : Store) (f : Frontier) (id : WorkerId) (worker : Worker) :
    Prop where
  job : ∀ job, worker.job = some job → job.ticket.worker = id ∧ f.Holds job.ticket ∧
    HonestJob system store.importBundle job ∧ worker.channel.isSome
  stream : ∀ stream, worker.channel = some stream → ∀ edge, .edge edge ∈ stream → TruthfulEdge system edge

/-- The invariant of the search loop. -/
structure Coordinated (system : TransitionSystem) (store : Store) (root : StateKey) (limit : UInt64)
    (c : Coordinator) : Prop where
  tracks : ∃ events, Tracks system root limit c.frontier events
  workers : ∀ id, WorkerSound system store c.frontier id (c.workers id)
  held : c.violation = none → ∀ ticket, c.frontier.Holds ticket →
    ∃ job, (c.workers ticket.worker).job = some job ∧ job.ticket = ticket
  violation : ∀ state, c.violation = some state → system.Reachable root state ∧ system.propertyFailed state = true

variable {store : Store} {options : Options} {c next : Coordinator}

/-- A call of the coordinator to its frontier that returned. -/
structure Called (c : Coordinator) (call : Call) (reply : Reply) (next : Coordinator) : Prop where
  answered : c.frontier.call call = (.ok reply, next.frontier)
  rest : next = { c with frontier := next.frontier }

theorem called_of_callFrontier {α : Type} {answer : Except FrontierError α × Frontier} {value : α} {call : Call}
    (wrap : α → Reply) (same : c.frontier.call call = Prod.map (Except.map wrap) id answer)
    (returned : c.callFrontier answer = .ok (value, next)) : Called c call (wrap value) next := by
  obtain ⟨result, frontier⟩ := answer
  cases result with
  | error error => simp [Coordinator.callFrontier] at returned
  | ok answered =>
    simp only [Coordinator.callFrontier, Except.ok.injEq, Prod.mk.injEq] at returned
    obtain ⟨rfl, rfl⟩ := returned
    exact ⟨same, rfl⟩

theorem called_of_commit {value : Unit}
    (returned : c.callFrontier (c.frontier.commit ticket expansion) = .ok (value, next)) :
    Called c (.commit ticket expansion) .committed next :=
  called_of_callFrontier (fun _ => .committed) rfl returned

theorem called_of_workerLost {worker : WorkerId} {count : ℕ}
    (returned : c.callFrontier (c.frontier.workerLost worker) = .ok (count, next)) :
    Called c (.workerLost worker) (.lost count) next :=
  called_of_callFrontier Reply.lost rfl returned

theorem called_of_lease {worker : WorkerId} {priority : Priority} {scorer : Scorer} {selected : Option Ticket}
    (returned : c.callFrontier (if options.rootsLocality then
      c.frontier.leaseScored worker priority (some scorer) 32 else c.frontier.lease worker priority) =
        .ok (selected, next)) :
    ∃ call, call.leases = some worker ∧ Called c call (.leased selected) next := by
  split at returned
  · exact ⟨.leaseScored worker priority (some scorer) 32, rfl, called_of_callFrontier Reply.leased rfl returned⟩
  · exact ⟨.lease worker priority, rfl, called_of_callFrontier Reply.leased rfl returned⟩

theorem Called.effect {call : Call} (called : Called c call reply next) (coherent : Coherent c.frontier) :
    Effect c.frontier call (.ok reply) next.frontier := by
  have effect := call_effect coherent call
  rwa [called.answered] at effect

theorem Called.workers {call : Call} (called : Called c call reply next) : next.workers = c.workers := by
  rw [called.rest]

theorem Called.violation {call : Call} (called : Called c call reply next) :
    next.violation = c.violation := by
  rw [called.rest]

theorem Called.tracks {call : Call} (called : Called c call reply next) (reports : call.Reports system)
    (tracks : ∃ events, Tracks system root limit c.frontier events) :
    ∃ events, Tracks system root limit next.frontier events := by
  obtain ⟨events, tracks⟩ := tracks
  have after := tracks.call call reports
  rw [called.answered] at after
  exact ⟨_, after⟩

variable {id : WorkerId}

section Change

variable (sound : Coordinated system store root limit c)
include sound

theorem Coordinated.coherent : Coherent c.frontier := by
  obtain ⟨events, tracks⟩ := sound.tracks
  exact tracks.linked.coherent

/-- The state of a ticket the frontier holds is reachable. -/
theorem Coordinated.reachable (holds : c.frontier.Holds ticket) :
    system.Reachable root ticket.state := by
  obtain ⟨events, tracks⟩ := sound.tracks
  obtain ⟨node, read, _⟩ := holds
  exact tracks.reachable read

/-- A worker without a job has no lease. -/
theorem Coordinated.not_holds_of_idle (running : c.violation = none)
    (idle : (c.workers ticket.worker).job = none) : ¬c.frontier.Holds ticket := by
  intro holds
  obtain ⟨job, present, _⟩ := sound.held running ticket holds
  simp [idle] at present

/-- Every step concerns one worker: it may exchange the leases of that worker and no others. -/
theorem Coordinated.change (running : c.violation = none) (id : WorkerId)
    (tracks : ∃ events, Tracks system root limit next.frontier events)
    (others : ∀ other, other ≠ id → next.workers other = c.workers other)
    (elsewhere : ∀ ticket : Ticket, ticket.worker ≠ id → (next.frontier.Holds ticket ↔ c.frontier.Holds ticket))
    (worker : WorkerSound system store next.frontier id (next.workers id))
    (held : next.violation = none → ∀ ticket : Ticket, ticket.worker = id → next.frontier.Holds ticket →
      ∃ job, (next.workers id).job = some job ∧ job.ticket = ticket)
    (violation : ∀ state, next.violation = some state →
      system.Reachable root state ∧ system.propertyFailed state = true) :
    Coordinated system store root limit next where
  tracks := tracks
  workers := by
    intro other
    by_cases same : other = id
    · exact same ▸ worker
    · have before := sound.workers other
      rw [← others other same] at before
      refine ⟨?_, before.stream⟩
      intro job present
      obtain ⟨own, holds, honest, watched⟩ := before.job job present
      exact ⟨own, (elsewhere job.ticket (own ▸ same)).mpr holds, honest, watched⟩
  held := by
    intro none ticket holds
    by_cases same : ticket.worker = id
    · obtain ⟨job, present, rfl⟩ := held none ticket same holds
      exact ⟨job, same ▸ present, rfl⟩
    · rw [others _ same]
      exact sound.held running ticket ((elsewhere ticket same).mp holds)
  violation := violation

/-- Nothing but one worker's record changes, and its job stays the same lease. -/
theorem Coordinated.setWorker (running : c.violation = none) (frontier : next.frontier = c.frontier)
    (violation : next.violation = none) (worker : Worker) (workers : next.workers = Function.update c.workers id worker)
    (worksOn : worker.job.map Job.ticket = (c.workers id).job.map Job.ticket)
    (honest : ∀ job, worker.job = some job → HonestJob system store.importBundle job ∧ worker.channel.isSome)
    (stream : ∀ stream, worker.channel = some stream → ∀ edge, .edge edge ∈ stream → TruthfulEdge system edge) :
    Coordinated system store root limit next := by
  refine sound.change running id (frontier ▸ sound.tracks) ?_ (by simp [frontier]) ⟨?_, ?_⟩ ?_ (by simp [violation])
  · intro other different
    rw [workers, Function.update_of_ne different]
  · rw [workers, Function.update_self, frontier]
    intro job present
    rw [present, Option.map_some] at worksOn
    obtain ⟨before, present', same⟩ := Option.map_eq_some_iff.mp worksOn.symm
    obtain ⟨own, holds, _⟩ := (sound.workers id).job before present'
    rw [same] at own holds
    exact ⟨own, holds, honest job present⟩
  · rw [workers, Function.update_self]
    exact stream
  · rw [workers, Function.update_self, frontier]
    rintro _ ticket rfl holds
    obtain ⟨job, present, rfl⟩ := sound.held running ticket holds
    rw [present, Option.map_some] at worksOn
    exact Option.map_eq_some_iff.mp worksOn

end Change

/-! ## The steps -/

/-- A lost worker keeps neither its channel nor its job, and what it had leased is requeued. -/
theorem lost_eq_ok {reason : String} (returned : c.lost options id reason = .ok next) :
    next.violation = c.violation ∧
    (∃ worker : Worker, next.workers = Function.update c.workers id worker ∧ worker.job = none ∧
      worker.channel = none) ∧
    ((next.frontier = c.frontier ∧ (c.workers id).job = none) ∨
      ∃ count, c.frontier.call (.workerLost id) = (.ok (.lost count), next.frontier)) := by
  unfold Coordinator.lost at returned
  dsimp only at returned
  split at returned
  · split at returned
    · obtain ⟨⟨_, _⟩, _, impossible⟩ := bind_eq_ok.mp returned
      cases impossible
    · obtain ⟨⟨count, requeued⟩, called, returned⟩ := bind_eq_ok.mp returned
      cases returned
      have called := called_of_workerLost called
      exact ⟨called.violation, ⟨_, congrArg (Function.update · id _) called.workers, rfl, rfl⟩,
        .inr ⟨count, called.answered⟩⟩
  · next none =>
    split at returned
    · cases returned
    · cases returned
      exact ⟨rfl, ⟨_, rfl, none, rfl⟩, .inl ⟨rfl, none⟩⟩

theorem reports_of_leases {call : Call} (leases : call.leases = some id) : call.Reports system := by
  cases call <;> simp_all [Call.leases, Call.Reports]

/-- A returned lease call gives one more lease to the worker, or changes nothing. -/
theorem Called.leased {call : Call} {selected : Option Ticket} (called : Called c call (.leased selected) next)
    (leases : call.leases = some id) (coherent : Coherent c.frontier) :
    (selected = none ∧ next = c) ∨ ∃ ticket, selected = some ticket ∧ ticket.worker = id ∧
      ∀ other, next.frontier.Holds other ↔ other = ticket ∨ c.frontier.Holds other := by
  have effect := called.effect coherent
  have holds := effect.holds_iff coherent
  generalize returned : Except.ok (ε := FrontierError) (Reply.leased selected) = reply at effect holds
  generalize same : next.frontier = frontier at effect
  cases effect with
  | thrown => cases returned
  | idle isLease =>
    cases returned
    exact .inl ⟨rfl, by rw [called.rest, same]⟩
  | @leased _ worker key node candidates isLease read pending available =>
    cases returned
    refine .inr ⟨_, rfl, ?_, ?_⟩
    · exact Option.some.inj (isLease.symm.trans leases)
    · intro other
      rw [← same, holds]
      cases call <;> simp_all [Event.issued?, Event.accepted?, Event.lost?, Call.leases, eq_comm]
  | admitted => cases returned
  | committed => cases returned
  | lost => cases returned

/-- The commit the coordinator makes spends exactly the lease it is for. -/
theorem Called.committed
    (called : Called c (.commit ticket expansion) .committed next) (coherent : Coherent c.frontier) (other : Ticket) :
    next.frontier.Holds other ↔ c.frontier.Holds other ∧ other ≠ ticket := by
  rw [(called.effect coherent).holds_iff coherent]
  simp [Event.issued?, Event.accepted?, Event.lost?, eq_comm]

section Steps

variable (sound : Coordinated system store root limit c) (running : c.violation = none)
include sound running

theorem Coordinated.lost {reason : String} (returned : c.lost options id reason = .ok next) :
    Coordinated system store root limit next := by
  obtain ⟨violation, ⟨worker, workers, idle, closed⟩, frontier⟩ := lost_eq_ok returned
  rw [running] at violation
  rcases frontier with ⟨frontier, none⟩ | ⟨count, answered⟩
  · exact sound.setWorker running frontier violation worker workers (by simp [idle, none]) (by simp [idle])
      (by simp [closed])
  obtain ⟨events, tracks⟩ := sound.tracks
  have after := tracks.call (.workerLost id) trivial
  have effect := call_effect sound.coherent (.workerLost id)
  rw [answered] at after effect
  have holds : ∀ ticket : Ticket, next.frontier.Holds ticket ↔ c.frontier.Holds ticket ∧ ticket.worker ≠ id := by
    intro ticket
    rw [effect.holds_iff sound.coherent]
    simp [Event.issued?, Event.accepted?, Event.lost?, eq_comm]
  refine sound.change running id ⟨_, after⟩ ?_ ?_ ⟨?_, ?_⟩ ?_ (by simp [violation])
  · intro other different
    rw [workers, Function.update_of_ne different]
  · intro ticket different
    simp [holds, different]
  · simp [workers, idle]
  · simp [workers, closed]
  · rintro _ ticket rfl stays
    exact absurd rfl ((holds ticket).mp stays).2

theorem Coordinated.spawn {started : Except String Hello} (returned : c.spawn options id started = .ok next) :
    Coordinated system store root limit next := by
  unfold Coordinator.spawn at returned
  dsimp only at returned
  split at returned
  · cases returned
    exact sound
  · exact sound.lost running returned
  · next hello closed =>
    cases returned
    refine sound.setWorker running rfl running _ rfl rfl ?_ ?_
    · intro job present
      obtain ⟨_, _, _, watched⟩ := (sound.workers id).job job present
      simp [closed] at watched
    · rintro stream ⟨⟩ edge member
      simp at member

/-- The coordinator completes a lease itself: it commits something true for it, or stops at a violation. -/
theorem Coordinated.localCompletion {leased : Coordinator} {call : Call}
    (idle : (c.workers ticket.worker).job = none) (called : Called c call (.leased (some ticket)) leased)
    (leases : call.leases = some ticket.worker)
    (returned : leased.localCompletion ticket
      (classifyEnumeration (systemSource system ticket.state) ticket.mayExpand) = .ok next) :
    Coordinated system store root limit next := by
  have leasedTracks := called.tracks (reports_of_leases leases) sound.tracks
  obtain ⟨⟨⟩, _⟩ | ⟨_, ⟨⟩, _, holds⟩ := called.leased leases sound.coherent
  have workerSound : ∀ f, WorkerSound system store f ticket.worker (c.workers ticket.worker) := fun f =>
    ⟨by simp [idle], (sound.workers _).stream⟩
  have committed : ∀ expansion, Truthful (successors system) ticket expansion →
      system.propertyFailed ticket.state = false → Called leased (.commit ticket expansion) .committed next →
      Coordinated system store root limit next := by
    intro expansion truthful harmless commits
    obtain ⟨events, tracks⟩ := leasedTracks
    have after := commits.committed tracks.linked.coherent
    have workers := commits.workers.trans called.workers
    refine sound.change running ticket.worker (commits.tracks ⟨truthful, harmless⟩ ⟨events, tracks⟩)
      (fun _ _ => by rw [workers]) ?_ (workers ▸ workerSound _) ?_ ?_
    · intro other different
      have : other ≠ ticket := fun same => different (same ▸ rfl)
      simp [after, holds, this]
    · intro _ other same still
      rw [after, holds] at still
      exact absurd (still.1.resolve_left still.2) (sound.not_holds_of_idle running (same ▸ idle))
    · simp [commits.violation, called.violation, running]
  cases classified : classifyEnumeration (systemSource system ticket.state) ticket.mayExpand with
  | violation =>
    rw [classified] at returned
    cases returned
    refine sound.change running ticket.worker leasedTracks (fun _ _ => by rw [← called.workers]) ?_
      (called.workers ▸ workerSound _) (by simp) ?_
    · intro other different
      have : other ≠ ticket := fun same => different (same ▸ rfl)
      exact (holds other).trans (or_iff_right this)
    · rintro state ⟨⟩
      obtain ⟨events, tracks⟩ := leasedTracks
      obtain ⟨node, read, _⟩ := (holds ticket).mpr (.inl rfl)
      exact ⟨tracks.reachable read, classifyEnumeration_eq classified⟩
  | terminal =>
    rw [classified] at returned
    obtain ⟨⟨_, _⟩, commits, ⟨⟩⟩ := bind_eq_ok.mp returned
    obtain ⟨harmless, disabled⟩ := classifyEnumeration_eq classified
    exact committed { kind := .terminal } (successors_eq_empty_iff.mpr disabled) harmless (called_of_commit commits)
  | depthCut =>
    rw [classified] at returned
    obtain ⟨⟨_, _⟩, commits, ⟨⟩⟩ := bind_eq_ok.mp returned
    obtain ⟨harmless, enabled, _⟩ := classifyEnumeration_eq classified
    exact committed { kind := .depthCut } (successors_eq_empty_iff.not.mpr enabled) harmless
      (called_of_commit commits)
  | modelBudget => exact (classifyEnumeration_eq classified).elim
  | expanded =>
    rw [classified] at returned
    cases returned

/-- A lease goes to an idle worker, with the task, or is completed by the coordinator. -/
theorem Coordinated.dispatch (agrees : store.Agrees system) {priority : Priority} {scorer : Scorer}
    {attempt : StateKey → Attempt} (honest : ∀ state, (attempt state).Follows system state)
    (returned : c.dispatch store options id priority scorer attempt = .ok next) :
    Coordinated system store root limit next := by
  unfold Coordinator.dispatch at returned
  dsimp only at returned
  split at returned
  · next stream opened _ idle =>
    obtain ⟨⟨selected, leased⟩, asked, returned⟩ := bind_eq_ok.mp returned
    obtain ⟨call, leases, called⟩ := called_of_lease asked
    rcases called.leased leases sound.coherent with ⟨rfl, rfl⟩ | ⟨ticket, rfl, rfl, holds⟩
    · cases returned
      exact sound
    · obtain ⟨source, loaded, returned⟩ := bind_eq_ok.mp returned
      obtain rfl := agrees.load ticket.state source loaded
      split at returned
      · exact sound.localCompletion running idle called leases returned
      cases returned
      have tracks := called.tracks (reports_of_leases leases) sound.tracks
      refine sound.change running ticket.worker tracks ?_ ?_ ⟨?_, ?_⟩ ?_ ?_
      · intro other different
        rw [← called.workers]
        exact Function.update_of_ne different _ _
      · intro other different
        have : other ≠ ticket := fun same => different (same ▸ rfl)
        exact (holds other).trans (or_iff_right this)
      · intro job present
        simp only [Coordinator.setWorker, Function.update_self, Option.some.injEq] at present ⊢
        subst present
        exact ⟨rfl, (holds ticket).mpr (.inl rfl), .create .., rfl⟩
      · intro replies present edge member
        simp only [Coordinator.setWorker, Function.update_self, Option.some.injEq] at present
        subst present
        rcases List.mem_append.mp member with old | new
        · exact (sound.workers _).stream stream opened edge old
        · exact (honest ticket.state).truthful new
      · intro _ other same still
        rcases (holds other).mp still with rfl | before
        · exact ⟨Job.create other (systemSource system other.state), by simp [Coordinator.setWorker], rfl⟩
        · exact absurd before (sound.not_holds_of_idle running (same ▸ idle))
      · intro state violated
        exact absurd (violated.symm.trans (called.violation.trans running)) (by simp)
  · cases returned
    exact sound

section Messages

variable {job : Job} {message : Message} {rest : List Message} (present : (c.workers id).job = some job)
  (opened : (c.workers id).channel = some (message :: rest))
include present opened

/-- The violation a message reports is reachable and fails. -/
theorem Coordinated.violating (agrees : store.Agrees system) {state : StateKey}
    (received : job.receive store.importBundle c.verified message = .ok (.violation state))
    (frontier : next.frontier = c.frontier) (violation : next.violation = some state)
    (workers : next.workers = Function.update c.workers id { c.workers id with channel := some rest }) :
    Coordinated system store root limit next := by
  have before := sound.workers id
  obtain ⟨_, holds, honest, _⟩ := before.job job present
  obtain ⟨near, failed⟩ := honest.violating agrees.imported
    (fun edge same => before.stream _ opened edge (same ▸ List.mem_cons_self)) received
  have leaseReachable := sound.reachable holds
  have reachable : system.Reachable root state := by
    rcases near with rfl | step
    · exact leaseReachable
    · exact leaseReachable.tail step
  refine sound.change running id (frontier ▸ sound.tracks) ?_ (by simp [frontier]) ⟨?_, ?_⟩ (by simp [violation]) ?_
  · intro other different
    rw [workers, Function.update_of_ne different]
  · rw [workers, Function.update_self, frontier]
    intro kept same
    obtain ⟨own, holds, honest, _⟩ := before.job kept same
    exact ⟨own, holds, honest, rfl⟩
  · rw [workers, Function.update_self]
    rintro stream ⟨⟩ edge member
    exact before.stream _ opened edge (List.mem_cons_of_mem _ member)
  · rw [violation]
    rintro _ ⟨⟩
    exact ⟨reachable, failed⟩

/-- What a completion receipt commits is true, and the worker is idle again. -/
theorem Coordinated.committing {committed : Coordinator}
    (received : job.receive store.importBundle c.verified message = .ok (.commit expansion))
    (commits : Called c (.commit job.ticket expansion) .committed committed)
    (frontier : next.frontier = committed.frontier) (violation : next.violation = none)
    (workers : next.workers = Function.update c.workers id { c.workers id with channel := some rest, job := none }) :
    Coordinated system store root limit next := by
  obtain ⟨own, _, honest, _⟩ := (sound.workers id).job job present
  obtain ⟨done, rfl, harmless, completes⟩ := receive_eq_commit received
  have after := commits.committed sound.coherent
  have tracks := commits.tracks (honest.truthful completes harmless) sound.tracks
  rw [← frontier] at after tracks
  refine sound.change running id tracks ?_ ?_ ⟨?_, ?_⟩ ?_ (by simp [violation])
  · intro other different
    rw [workers, Function.update_of_ne different]
  · intro ticket different
    have : ticket ≠ job.ticket := fun same => different (same ▸ own)
    exact (after ticket).trans (and_iff_left this)
  · simp [workers]
  · rw [workers, Function.update_self]
    rintro stream ⟨⟩ edge member
    exact (sound.workers id).stream _ opened edge (List.mem_cons_of_mem _ member)
  · rintro _ ticket rfl still
    obtain ⟨before, other⟩ := (after ticket).mp still
    obtain ⟨same, again, rfl⟩ := sound.held running ticket before
    exact absurd (congrArg Job.ticket (Option.some.inj (again.symm.trans present))) other

end Messages

/-- A message of a worker: an edge is recorded, a completion commits something true, and a violation is a
reachable state that fails. -/
theorem Coordinated.receive (agrees : store.Agrees system) (returned : c.receive store options id = .ok next) :
    Coordinated system store root limit next := by
  unfold Coordinator.receive at returned
  dsimp only at returned
  split at returned
  · next message rest opened =>
    have truthful := (sound.workers id).stream _ opened
    have remaining : ∀ stream, some rest = some stream → ∀ edge, .edge edge ∈ stream → TruthfulEdge system edge := by
      rintro stream ⟨⟩ edge member
      exact truthful edge (List.mem_cons_of_mem _ member)
    unfold Coordinator.handle at returned
    dsimp only at returned
    split at returned
    · next hello =>
      obtain ⟨⟨_, idle, _⟩, returned⟩ := require_bind_eq_ok.mp returned
      cases returned
      refine sound.setWorker running rfl running _ rfl rfl ?_ remaining
      intro job present
      exact absurd (present.symm.trans (Option.isNone_iff_eq_none.mp idle)) (by simp)
    · next error idle =>
      obtain ⟨_, returned⟩ := require_bind_eq_ok.mp returned
      have popped : Coordinated system store root limit
          (c.setWorker id { c.workers id with channel := some rest }) :=
        sound.setWorker running rfl running _ rfl rfl (by simp [idle]) remaining
      exact popped.lost running returned
    · cases returned
    · next present =>
      obtain ⟨_, returned⟩ := require_bind_eq_ok.mp returned
      obtain ⟨admission, received, returned⟩ := bind_eq_ok.mp returned
      cases admission with
      | edge recorded verified =>
        cases returned
        obtain ⟨edge, rfl, checked, fits, harmless, rfl, rfl⟩ := receive_eq_edge received
        obtain ⟨_, _, honest, _⟩ := (sound.workers id).job _ present
        refine sound.setWorker running rfl running _ rfl (by simp [present, Job.record]) ?_ remaining
        rintro _ ⟨⟩
        exact ⟨honest.record checked fits harmless (truthful edge List.mem_cons_self), rfl⟩
      | violation state =>
        cases returned
        exact sound.violating running present opened agrees received rfl rfl rfl
      | commit expansion =>
        obtain ⟨⟨_, committed⟩, commits, returned⟩ := bind_eq_ok.mp returned
        cases returned
        have commits := called_of_commit commits
        refine sound.committing running present opened received commits rfl (commits.violation.trans running) ?_
        exact congrArg (Function.update · id _) commits.workers
  · cases returned
    exact sound

end Steps

/-- One event of an honest search keeps the invariant. -/
theorem Coordinated.step (sound : Coordinated system store root limit c) (agrees : store.Agrees system)
    {event : CoordinatorEvent} (honest : event.Honest system) (returned : c.step store options event = .ok next) :
    Coordinated system store root limit next := by
  unfold Coordinator.step at returned
  split at returned
  · cases returned
    exact sound
  next noViolation =>
  have running : c.violation = none := by simpa using noViolation
  cases event with
  | spawn id started => exact sound.spawn running returned
  | dispatch id priority scorer attempt => exact sound.dispatch running agrees honest returned
  | message id => exact sound.receive running agrees returned
  | lost id reason =>
    dsimp only at returned
    split at returned
    · exact sound.lost running returned
    · cases returned
      exact sound
  | abort reason => cases returned

/-- Every event keeps the invariant, so every run does. -/
theorem Coordinated.run (sound : Coordinated system store root limit c) (agrees : store.Agrees system)
    {events : List CoordinatorEvent} (honest : ∀ event ∈ events, event.Honest system)
    (returned : c.run store options events = .ok next) : Coordinated system store root limit next :=
  foldlM_invariant (Coordinated system store root limit)
    (fun _ event _ member before stepped => before.step agrees (honest event member) stepped) sound returned

theorem start_coordinated (system : TransitionSystem) (store : Store)
    (returned : Coordinator.start options root = .ok c) : Coordinated system store root options.depth c := by
  simp only [Coordinator.start, require_bind_eq_ok] at returned
  obtain ⟨_, _, _, returned⟩ := returned
  split at returned
  · cases returned
  next frontier created =>
  obtain ⟨⟨changed, admitted⟩, asked, returned⟩ := bind_eq_ok.mp returned
  cases returned
  have called : Called { frontier := frontier } (.admitState root 0) (.admitted changed) admitted :=
    called_of_callFrontier Reply.admitted rfl asked
  have tracks : Tracks system root options.depth admitted.frontier _ := .start created called.answered
  have workers : admitted.workers = fun _ => {} := called.workers
  have violation : admitted.violation = none := called.violation
  refine ⟨⟨_, tracks⟩, ?_, ?_, by simp [violation]⟩
  · intro id
    rw [workers]
    exact ⟨by simp, by simp⟩
  · intro _ ticket holds
    have outstanding := (tracks.linked.holds ticket).mp holds
    have issued := outstanding.issued
    simp [Event.issued?] at issued

/-- Leaving the loop keeps the violation, and without one the whole state. -/
theorem finish_eq_ok (returned : c.finish options = .ok next) :
    next.violation = c.violation ∧ (c.violation = none → next = c) := by
  unfold Coordinator.finish at returned
  split at returned
  · next violated =>
    refine ⟨?_, fun none => by simp [none] at violated⟩
    refine foldlM_invariant (fun state => state.violation = c.violation) ?_ rfl returned
    intro state index after _ same stepped
    obtain ⟨⟨count, requeued⟩, called, returned⟩ := bind_eq_ok.mp stepped
    cases returned
    exact (called_of_workerLost called).violation.trans same
  · cases returned
    exact ⟨rfl, fun _ => rfl⟩

end DetSim.Search
