import DetSim.Soundness.FrontierCalls

/-! # Bookkeeping and tickets over whole runs

A run is any sequence of calls to a freshly constructed frontier, each of which returns or throws. Two
things are read off the invariant of `FrontierCalls`: what the redundant indexes and counters say about
the node table, and how the tickets handed out so far are treated. For the latter the history of a run
decides which tickets are outstanding, and the frontier stores exactly those.
-/

namespace DetSim.Search

open Std ExtTreeMap

variable {call : Call} {reply : Except FrontierError Reply} {f g : Frontier} {events : List Event} {ticket : Ticket}

/-- The bookkeeping of a frontier, stated on its own fields. -/
structure Bookkeeping (f : Frontier) : Prop where
  pending : ∀ sequence (key : StateKey), f.indexes.pending[sequence]? = some key ↔
    ∃ node, f.nodes[key]? = some node ∧ node.phase = .pending ∧ node.sequence = sequence
  bfsPending : f.policy = .bfs → ∀ depth sequence (key : StateKey),
    f.indexes.bfsPending[(depth, sequence)]? = some key ↔
      ∃ node, f.nodes[key]? = some node ∧ node.phase = .pending ∧ node.depth = depth ∧ node.sequence = sequence
  activeLayers : f.policy = .bfs → ∀ depth : UInt64, f.indexes.activeLayers[depth]?.getD 0 =
    f.nodes.countValues fun node => (node.phase = .pending ∨ node.phase = .inflight) ∧ node.depth = depth
  noEmptyLayer : f.policy = .bfs → ∀ depth : UInt64, f.indexes.activeLayers[depth]? ≠ some 0
  phaseCounts : ∀ phase, f.indexes.phaseCounts phase = f.nodes.countValues fun node => node.phase = phase
  ticket : ∀ (key : StateKey) node, f.nodes[key]? = some node → (node.ticket.isSome ↔ node.phase = .inflight)
  sequence : ∀ (key other : StateKey) node stored, f.nodes[key]? = some node → f.nodes[other]? = some stored →
    node.sequence = stored.sequence → key = other
  admitted : f.nodes.size = f.counters.admitted
  capacity : f.counters.admitted ≤ f.maxStates.toNat
  leased : f.counters.leased = f.counters.committed + f.counters.requeued +
    f.nodes.countValues fun node => node.phase = .inflight

theorem Coherent.bookkeeping (coherent : Coherent f) : Bookkeeping f where
  pending := by
    intro sequence key
    rw [coherent.stored.indexed.pending]
    refine exists_congr fun node => and_congr_right fun _ => ?_
    by_cases pending : node.phase = .pending <;> simp [Node.pendingSlot, pending]
  bfsPending := by
    intro bfs depth sequence key
    rw [coherent.stored.indexed.bfsPending bfs]
    refine exists_congr fun node => and_congr_right fun _ => ?_
    by_cases pending : node.phase = .pending <;> simp [Node.bfsSlot, pending]
  activeLayers := by
    intro bfs depth
    have same : (fun node : Node => decide (node.layerSlot = some depth)) = fun node =>
        decide ((node.phase = .pending ∨ node.phase = .inflight) ∧ node.depth = depth) := by
      funext node
      rw [decide_eq_decide]
      unfold Node.layerSlot
      cases node.phase <;> simp [NodePhase.active]
    rw [coherent.stored.indexed.activeLayers bfs, ← same]
    split <;> simp_all
  noEmptyLayer := by
    intro bfs depth
    rw [coherent.stored.indexed.activeLayers bfs]
    split <;> simp_all
  phaseCounts := coherent.stored.indexed.phaseCounts
  ticket := fun key node read => (coherent.fits key node read).stored_iff
  sequence := coherent.stored.distinct
  admitted := coherent.stored.admitted
  capacity := coherent.stored.admitted ▸ coherent.stored.capacity
  leased := coherent.leased

/-- The bookkeeping holds after every sequence of calls, successful or throwing. -/
theorem run_bookkeeping {limit maxStates : UInt64} {policy : Policy} {hasPriority : Bool} {f : Frontier}
    (success : Frontier.create limit policy hasPriority maxStates = .ok f) (calls : List Call) :
    Bookkeeping (f.run calls) :=
  (run_coherent (create_coherent success) calls).bookkeeping

/-- A breadth-first frontier whose second admission throws and whose worker is lost. -/
theorem run_bookkeeping_lost_worker :
    Bookkeeping (({ limit := 3, policy := .bfs, maxStates := 1 } : Frontier).run
      [.admitState 7 0, .admitState 8 0, .lease 1 (fun _ _ => .ok 0), .workerLost 1]) :=
  run_bookkeeping (show Frontier.create 3 .bfs false 1 = .ok _ from rfl) _

/-- A call that throws has no effect. -/
theorem Effect.thrown_eq {error : FrontierError}
    (effect : Effect f call (.error error) g) : g = f := by
  cases effect
  rfl

/-- Every call is atomic: if it throws, the frontier is the one before the call. A commit throws in its checks
or not at all, so that the two throws of the propagation are out of its reach. -/
theorem calls_atomic {limit maxStates : UInt64} {policy : Policy} {hasPriority : Bool} {f : Frontier}
    (success : Frontier.create limit policy hasPriority maxStates = .ok f) (calls : List Call) :
    (∀ call error, ((f.run calls).call call).1 = .error error → ((f.run calls).call call).2 = f.run calls) ∧
    (∀ ticket, ((f.run calls).commitUnknown ticket).2 = f.run calls) ∧
    ∀ ticket expansion, (f.run calls).leaseMatches ticket → Frontier.expansionError? ticket expansion = none →
      ¬(f.run calls).maxStates.toNat - (f.run calls).nodes.size < (f.run calls).missing expansion.successors →
      ¬(uint64Max - (f.run calls).nextSequence).toNat < (f.run calls).missing expansion.successors →
      ((f.run calls).publish ticket expansion).1 = .ok () := by
  have coherent := run_coherent (create_coherent success) calls
  refine ⟨?_, ?_, fun ticket expansion => publish_succeeds coherent⟩
  · intro call error thrown
    have effect := call_effect coherent call
    rw [thrown] at effect
    exact effect.thrown_eq
  · intro ticket
    unfold Frontier.commitUnknown
    split_ifs <;> rfl

/-- A commit of two new successors is refused when there is room for one, and the frontier stays as it was. -/
theorem calls_atomic_full :
    ((({ limit := 3, policy := .dfs, maxStates := 2 } : Frontier).run
        [.admitState 7 0, .lease 1 (fun _ _ => .ok 0)]).call (.commit ⟨7, 1, 1, 0, true⟩ { successors := [8, 9] })).2 =
      ({ limit := 3, policy := .dfs, maxStates := 2 } : Frontier).run
        [.admitState 7 0, .lease 1 (fun _ _ => .ok 0)] := by
  have created : Frontier.create 3 .dfs false 2 = .ok { limit := 3, policy := .dfs, maxStates := 2 } := rfl
  refine (calls_atomic created _).1 _ (.lengthError "frontier capacity exceeded") ?_
  decide +kernel

/-- What a call answered. -/
abbrev Event := Call × Except FrontierError Reply

/-- The answers of a sequence of calls, in order. -/
def Frontier.history (f : Frontier) : List Call → List Event
  | [] => []
  | call :: rest => (call, (f.call call).1) :: (f.call call).2.history rest

def Event.issued? : Event → Option Ticket
  | (_, .ok (.leased ticket)) => ticket
  | _ => none

def Event.accepted? : Event → Option Ticket
  | (.commit ticket _, .ok _) => some ticket
  | _ => none

def Event.lost? : Event → Option WorkerId
  | (.workerLost worker, .ok _) => some worker
  | _ => none

/-- Issued, and since then neither accepted nor reported lost with its worker. -/
def Outstanding (events : List Event) (ticket : Ticket) : Prop :=
  ∃ before event after, events = before ++ event :: after ∧ Event.issued? event = some ticket ∧
    ∀ later ∈ after, Event.accepted? later ≠ some ticket ∧ Event.lost? later ≠ some ticket.worker

/-- The frontier stores this ticket with the state it names. -/
def Frontier.Holds (f : Frontier) (ticket : Ticket) : Prop :=
  ∃ node, f.nodes[ticket.state]? = some node ∧ node.ticket = some ticket

theorem run_snoc (f : Frontier) (calls : List Call) (call : Call) :
    f.run (calls ++ [call]) = ((f.run calls).call call).2 := by
  simp [Frontier.run]

theorem history_append (f : Frontier) (first second : List Call) :
    f.history (first ++ second) = f.history first ++ (f.run first).history second := by
  induction first generalizing f with
  | nil => rfl
  | cons call rest ih => simp only [List.cons_append, Frontier.history, ih, Frontier.run, List.foldl_cons]

theorem history_snoc (f : Frontier) (calls : List Call) (call : Call) :
    f.history (calls ++ [call]) = f.history calls ++ [(call, ((f.run calls).call call).1)] :=
  history_append f calls [call]

/-- How one more event changes what is outstanding. -/
theorem outstanding_snoc (events : List Event) (event : Event) (ticket : Ticket) :
    Outstanding (events ++ [event]) ticket ↔ Event.issued? event = some ticket ∨
      (Outstanding events ticket ∧ Event.accepted? event ≠ some ticket ∧
        Event.lost? event ≠ some ticket.worker) := by
  constructor
  · rintro ⟨before, issue, after, split, issued, quiet⟩
    rcases List.eq_nil_or_concat after with rfl | ⟨init, last, rfl⟩
    · obtain ⟨_, rfl⟩ := List.append_inj' split rfl |>.imp id List.singleton_inj.mp
      exact .inl issued
    · rw [List.concat_eq_append] at split quiet
      have ends : events ++ [event] = (before ++ issue :: init) ++ [last] := by simpa using split
      obtain ⟨rfl, same⟩ := List.append_inj' ends rfl
      obtain rfl := List.singleton_inj.mp same
      exact .inr ⟨⟨before, issue, init, rfl, issued, fun later member => quiet later (by simp [member])⟩,
        quiet event (by simp)⟩
  · rintro (issued | ⟨⟨before, issue, after, rfl, issued, quiet⟩, still⟩)
    · exact ⟨events, event, [], rfl, issued, by simp⟩
    · refine ⟨before, issue, after ++ [event], by simp, issued, ?_⟩
      intro later member
      rcases List.mem_append.mp member with old | new
      · exact quiet later old
      · rw [List.mem_singleton.mp new]
        exact still

theorem Evolves.holds_iff (evolves : Evolves f g) (ticket : Ticket) :
    g.Holds ticket ↔ f.Holds ticket := by
  constructor
  · rintro ⟨next, present, held⟩
    cases before : f.nodes[ticket.state]? with
    | none =>
      obtain ⟨_, unticketed⟩ := evolves.fresh _ next present before
      simp [unticketed] at held
    | some node =>
      obtain ⟨same, again, shortened⟩ := evolves.kept _ node before
      obtain rfl : same = next := Option.some.inj (again.symm.trans present)
      exact ⟨node, before, shortened.ticket ▸ held⟩
  · rintro ⟨node, read, held⟩
    obtain ⟨next, present, shortened⟩ := evolves.kept _ node read
    exact ⟨next, present, shortened.ticket.trans held⟩

/-- Rewriting a node exchanges its own ticket and no other. -/
theorem replace_holds_iff (coherent : Coherent f) {key : StateKey} {node : Node}
    (read : f.nodes[key]? = some node) (next : Node) (ticket : Ticket) :
    (f.replace key node next).Holds ticket ↔
      (ticket.state = key ∧ next.ticket = some ticket) ∨ (f.Holds ticket ∧ node.ticket ≠ some ticket) := by
  simp only [Frontier.Holds, Frontier.replace, getElem?_insert_eq]
  by_cases here : key = ticket.state
  · subst here
    simp [read]
  · have elsewhere : node.ticket ≠ some ticket := fun held =>
      here ((coherent.fits key node read).issued ticket held).1.symm
    simp [here, Ne.symm here, elsewhere]

theorem requeued_ticket (node : Node) (worker : WorkerId) (ticket : Ticket) :
    (node.requeued worker).ticket = some ticket ↔ node.ticket = some ticket ∧ ticket.worker ≠ worker := by
  unfold Node.requeued
  cases held : node.ticket with
  | none => simp [held]
  | some stored =>
    by_cases lost : stored.worker = worker
    · simp only [lost, if_true, reduceCtorEq, Option.some.injEq, false_iff, not_and, not_not]
      rintro rfl
      exact lost
    · simp only [lost, if_false, held, Option.some.injEq, iff_self_and]
      rintro rfl
      exact lost

/-- The stored tickets change exactly as the history says. -/
theorem Effect.holds_iff
    (effect : Effect f call reply g) (coherent : Coherent f) (ticket : Ticket) :
    g.Holds ticket ↔ Event.issued? (call, reply) = some ticket ∨
      (f.Holds ticket ∧ Event.accepted? (call, reply) ≠ some ticket ∧
        Event.lost? (call, reply) ≠ some ticket.worker) := by
  cases effect with
  | thrown call error => cases call <;> simp [Event.issued?, Event.accepted?, Event.lost?]
  | idle isLease =>
    cases call <;> simp_all [Event.issued?, Event.accepted?, Event.lost?, Call.leases]
  | admitted bound supplied steps =>
    simpa [Event.issued?, Event.accepted?, Event.lost?] using
      (evolves_of_relaxes steps).holds_iff ticket
  | @leased _ worker key node candidates isLease read pending available =>
    have unticketed : node.ticket = none := by
      have fits := (coherent.fits key node read).stored_iff
      simpa [pending] using fits
    have exchanged := replace_holds_iff coherent read { node with
      phase := .inflight, ticket := some (f.ticketFor worker key node) } ticket
    have same : (f.leased worker key node candidates).Holds ticket ↔
        (f.replace key node { node with
          phase := .inflight, ticket := some (f.ticketFor worker key node) }).Holds ticket := Iff.rfl
    rw [same, exchanged]
    have quiet : Event.accepted? (call, .ok (.leased (some (f.ticketFor worker key node)))) = none ∧
        Event.lost? (call, .ok (.leased (some (f.ticketFor worker key node)))) = none := by
      cases call <;> simp_all [Event.accepted?, Event.lost?, Call.leases]
    simp only [quiet, unticketed, Event.issued?, Option.some.injEq, ne_eq, reduceCtorEq, not_false_eq_true,
      and_true]
    constructor
    · rintro (⟨_, issued⟩ | held)
      · exact .inl issued
      · exact .inr held
    · rintro (issued | held)
      · exact .inl ⟨issued ▸ rfl, issued⟩
      · exact .inr held
  | @committed accepted expansion node g matched compatible read supplied steps =>
    obtain ⟨same, again, held⟩ := (leaseMatches_iff coherent.toTicketed accepted).mp matched
    obtain rfl : node = same := Option.some.inj (read.symm.trans again)
    have evolved := (evolves_of_relaxes steps).holds_iff ticket
    have exchanged := replace_holds_iff coherent read (node.committed f.limit expansion) ticket
    have same : ({ g with counters := { g.counters with committed := g.counters.committed + 1 } } : Frontier).Holds
      ticket ↔ g.Holds ticket := Iff.rfl
    rw [same, evolved, exchanged]
    simp [Event.issued?, Event.accepted?, Event.lost?, Node.committed, held]
  | @lost worker count g requeued =>
    simp only [Frontier.Holds, requeued.nodes, Option.map_eq_some_iff, Event.issued?, Event.accepted?,
      Event.lost?, reduceCtorEq, false_or, ne_eq, not_false_eq_true, true_and, Option.some.injEq]
    constructor
    · rintro ⟨_, ⟨node, read, rfl⟩, held⟩
      obtain ⟨held, other⟩ := (requeued_ticket node worker ticket).mp held
      exact ⟨⟨node, read, held⟩, fun lost => other lost.symm⟩
    · rintro ⟨⟨node, read, held⟩, other⟩
      exact ⟨_, ⟨node, read, rfl⟩, (requeued_ticket node worker ticket).mpr ⟨held, fun lost => other lost.symm⟩⟩

/-- Lease numbers only grow, and a new ticket takes the next one. -/
theorem Effect.nextLease
    (effect : Effect f call reply g) :
    f.nextLease ≤ g.nextLease ∧ ∀ ticket, Event.issued? (call, reply) = some ticket →
      f.nextLease < ticket.leaseId ∧ ticket.leaseId = g.nextLease := by
  cases effect with
  | thrown => exact ⟨UInt64.le_refl _, by simp [Event.issued?]⟩
  | idle => exact ⟨UInt64.le_refl _, by simp [Event.issued?]⟩
  | admitted bound supplied steps =>
    have same := (evolves_of_relaxes steps).nextLease
    exact ⟨UInt64.le_of_eq same.symm, by simp [Event.issued?]⟩
  | leased candidates isLease read pending available =>
    have next : f.nextLease < f.nextLease + 1 := by
      unfold uint64Max at available
      lia
    refine ⟨UInt64.le_of_lt next, ?_⟩
    rintro ticket issued
    cases issued
    exact ⟨next, rfl⟩
  | committed matched compatible read supplied steps =>
    have same := (evolves_of_relaxes steps).nextLease
    exact ⟨UInt64.le_of_eq same.symm, by simp [Event.issued?]⟩
  | lost requeued => exact ⟨UInt64.le_of_eq requeued.nextLease.symm, by simp [Event.issued?]⟩

/-- No call changes the limit or poisons the frontier. -/
theorem Effect.unchanged
    (effect : Effect f call reply g) : g.poisoned = f.poisoned ∧ g.limit = f.limit := by
  cases effect with
  | thrown => exact ⟨rfl, rfl⟩
  | idle => exact ⟨rfl, rfl⟩
  | admitted bound supplied steps =>
    have evolves := evolves_of_relaxes steps
    exact ⟨evolves.poisoned, evolves.limit⟩
  | leased => exact ⟨rfl, rfl⟩
  | committed matched compatible read supplied steps =>
    have evolves := evolves_of_relaxes steps
    exact ⟨evolves.poisoned, evolves.limit⟩
  | lost requeued => exact ⟨requeued.poisoned, requeued.limit⟩

theorem Effect.policy
    (effect : Effect f call reply g) : g.policy = f.policy := by
  cases effect with
  | thrown => rfl
  | idle => rfl
  | admitted bound supplied steps => exact (evolves_of_relaxes steps).policy
  | leased => rfl
  | committed matched compatible read supplied steps => exact (evolves_of_relaxes steps).policy
  | lost requeued => exact requeued.policy

/-- An accepted commit spends a ticket that was stored, and issues none. -/
theorem Effect.accepted
    (effect : Effect f call reply g) (coherent : Coherent f)
    (accepted : Event.accepted? (call, reply) = some ticket) :
    f.Holds ticket ∧ Event.issued? (call, reply) = none := by
  cases effect with
  | thrown call error => cases call <;> simp [Event.accepted?] at accepted
  | idle isLease => cases call <;> simp_all [Event.accepted?, Call.leases]
  | admitted => simp [Event.accepted?] at accepted
  | leased candidates isLease => cases call <;> simp_all [Event.accepted?, Call.leases]
  | committed matched =>
    cases accepted
    exact ⟨(leaseMatches_iff coherent.toTicketed ticket).mp matched, rfl⟩
  | lost => simp [Event.accepted?] at accepted

/-- What a run establishes about the tickets in its history. -/
structure Linked (f : Frontier) (events : List Event) : Prop where
  coherent : Coherent f
  healthy : f.poisoned = false
  holds : ∀ ticket, f.Holds ticket ↔ Outstanding events ticket
  bounded : ∀ ticket ∈ events.filterMap Event.issued?, ticket.leaseId ≤ f.nextLease
  increasing : (events.filterMap Event.issued?).Pairwise fun first second => first.leaseId < second.leaseId
  once : ∀ ticket, (events.filterMap Event.accepted?).count ticket ≤ 1
  spent : ∀ ticket ∈ events.filterMap Event.accepted?,
    ticket ∈ events.filterMap Event.issued? ∧ ¬Outstanding events ticket

theorem Outstanding.issued (outstanding : Outstanding events ticket) :
    ticket ∈ events.filterMap Event.issued? := by
  obtain ⟨before, event, after, rfl, issued, _⟩ := outstanding
  exact List.mem_filterMap.mpr ⟨event, by simp, issued⟩

/-- A ticket that is no longer outstanding never becomes outstanding again. -/
theorem Linked.not_outstanding {event : Event} (linked : Linked f events)
    (effect : Effect f event.1 event.2 g) (issued : ticket ∈ events.filterMap Event.issued?)
    (spent : ¬Outstanding events ticket) : ¬Outstanding (events ++ [event]) ticket := by
  rw [outstanding_snoc]
  rintro (again | ⟨still, _⟩)
  · have := linked.bounded ticket issued
    have := (effect.nextLease.2 ticket again).1
    lia
  · exact spent still

theorem Linked.step (linked : Linked f events) (event : Event)
    (effect : Effect f event.1 event.2 g) : Linked g (events ++ [event]) where
  coherent := effect.coherent linked.coherent
  healthy := effect.unchanged.1.trans linked.healthy
  holds ticket := by
    rw [effect.holds_iff linked.coherent, outstanding_snoc, linked.holds]
  bounded := by
    intro ticket member
    rw [List.filterMap_append, List.mem_append] at member
    rcases member with old | new
    · exact UInt64.le_trans (linked.bounded ticket old) effect.nextLease.1
    · obtain ⟨same, present, issued⟩ := List.mem_filterMap.mp new
      rw [List.mem_singleton] at present
      subst present
      exact UInt64.le_of_eq (effect.nextLease.2 ticket issued).2
  increasing := by
    rw [List.filterMap_append, List.pairwise_append]
    refine ⟨linked.increasing, ?_, ?_⟩
    · cases issued : Event.issued? event <;> simp [issued]
    · intro first old second new
      obtain ⟨same, present, issued⟩ := List.mem_filterMap.mp new
      rw [List.mem_singleton] at present
      subst present
      have := linked.bounded first old
      have := (effect.nextLease.2 second issued).1
      lia
  once := by
    intro ticket
    have before := linked.once ticket
    rw [List.filterMap_append, List.count_append]
    cases accepted : Event.accepted? event with
    | none => simpa [accepted] using before
    | some spent =>
      by_cases same : spent = ticket
      · subst same
        have outstanding := (linked.holds spent).mp (effect.accepted linked.coherent accepted).1
        have fresh : (events.filterMap Event.accepted?).count spent = 0 :=
          List.count_eq_zero.mpr fun member => (linked.spent spent member).2 outstanding
        simp [accepted, fresh]
      · simpa [accepted, same] using before
  spent := by
    intro ticket member
    rw [List.filterMap_append, List.mem_append] at member
    rcases member with old | new
    · obtain ⟨issued, spent⟩ := linked.spent ticket old
      exact ⟨by simp [issued], linked.not_outstanding effect issued spent⟩
    · obtain ⟨same, present, accepted⟩ := List.mem_filterMap.mp new
      rw [List.mem_singleton] at present
      subst present
      obtain ⟨held, silent⟩ := effect.accepted linked.coherent accepted
      have outstanding := (linked.holds ticket).mp held
      refine ⟨by simp [outstanding.issued], ?_⟩
      rw [outstanding_snoc]
      rintro (issued | ⟨_, unaccepted, _⟩)
      · rw [show Event.issued? same = none from silent] at issued
        contradiction
      · exact unaccepted accepted

theorem create_linked {limit maxStates : UInt64} {policy : Policy} {hasPriority : Bool}
    (success : Frontier.create limit policy hasPriority maxStates = .ok f) : Linked f [] := by
  have coherent := create_coherent success
  unfold Frontier.create at success
  split at success
  · contradiction
  split at success
  · contradiction
  cases success
  refine ⟨coherent, rfl, ?_, by simp, by simp, by simp, by simp⟩
  intro ticket
  simp [Frontier.Holds, Outstanding]

theorem run_linked (start : Linked f []) (calls : List Call) :
    Linked (f.run calls) (f.history calls) := by
  induction calls using List.reverseRecOn with
  | nil => exact start
  | append_singleton calls call ih =>
    rw [run_snoc, history_snoc]
    exact ih.step _ (call_effect ih.coherent call)

theorem run_limit (start : Linked f []) (calls : List Call) : (f.run calls).limit = f.limit := by
  induction calls using List.reverseRecOn with
  | nil => rfl
  | append_singleton calls call ih =>
    rw [run_snoc]
    exact ((call_effect (run_linked start calls).coherent call).unchanged.2).trans ih

/-- Once spent, always spent: the rest of a run does not revive a ticket. -/
theorem spent_forever (start : Linked f []) (earlier later : List Call)
    (issued : ticket ∈ (f.history earlier).filterMap Event.issued?)
    (spent : ¬Outstanding (f.history earlier) ticket) :
    ticket ∈ (f.history (earlier ++ later)).filterMap Event.issued? ∧
      ¬Outstanding (f.history (earlier ++ later)) ticket := by
  induction later using List.reverseRecOn with
  | nil =>
    rw [List.append_nil]
    exact ⟨issued, spent⟩
  | append_singleton later call ih =>
    have linked := run_linked start (earlier ++ later)
    rw [← List.append_assoc, history_snoc]
    exact ⟨by simp [ih.1], linked.not_outstanding (call_effect linked.coherent call) ih.1 ih.2⟩

theorem commit_stale (linked : Linked f events)
    (spent : ¬Outstanding events ticket) (expansion : Expansion) :
    f.commit ticket expansion = (.error Frontier.staleError, f) := by
  have rejected : ¬f.leaseMatches ticket := by
    rw [leaseMatches_iff linked.coherent.toTicketed]
    exact mt (linked.holds ticket).mp spent
  simp [Frontier.commit, linked.healthy, rejected]

theorem expansionError?_ne_stale (ticket : Ticket) (expansion : Expansion) :
    Frontier.expansionError? ticket expansion ≠ some Frontier.staleError := by
  unfold Frontier.expansionError? Frontier.staleError
  simp only
  split
  · simp
  split
  · simp
  split <;> simp

/-- A stored ticket is accepted whenever the reported expansion suits it and fits into the table. -/
theorem commit_accepted (linked : Linked f events)
    (outstanding : Outstanding events ticket) (expansion : Expansion) :
    (f.commit ticket expansion).1 ≠ .error Frontier.staleError ∧
      (Frontier.expansionError? ticket expansion = none →
        f.nodes.size + f.missing expansion.successors ≤ f.maxStates.toNat →
        f.nextSequence.toNat + f.missing expansion.successors ≤ uint64Max.toNat →
        (f.commit ticket expansion).1 = .ok ()) := by
  have held := (linked.holds ticket).mpr outstanding
  have matched := (leaseMatches_iff linked.coherent.toTicketed ticket).mpr held
  have room : (uint64Max - f.nextSequence).toNat = uint64Max.toNat - f.nextSequence.toNat :=
    UInt64.toNat_sub_of_le _ _ (UInt64.le_iff_toNat_le.mpr (Nat.le_of_lt_succ f.nextSequence.toNat_lt))
  simp only [Frontier.commit, linked.healthy, matched, Bool.false_eq_true, not_true_eq_false, if_false]
  split
  · next error incompatible =>
    refine ⟨?_, by simp [incompatible]⟩
    rintro stale
    cases stale
    exact expansionError?_ne_stale ticket expansion incompatible
  next compatible =>
  split
  · exact ⟨by simp [Frontier.staleError], by omega⟩
  next capacity =>
  split
  · exact ⟨by simp [Frontier.staleError], by omega⟩
  next sequences =>
  rw [publish_succeeds linked.coherent matched compatible capacity sequences]
  simp

/-- Tickets are linear capabilities over every run. -/
theorem tickets_linear {limit maxStates : UInt64} {policy : Policy} {hasPriority : Bool} {f : Frontier}
    (success : Frontier.create limit policy hasPriority maxStates = .ok f) (calls : List Call) :
    ((f.history calls).filterMap Event.issued?).Pairwise (fun first second => first.leaseId < second.leaseId) ∧
    (∀ first second, Outstanding (f.history calls) first → Outstanding (f.history calls) second →
      first.state = second.state → first = second) ∧
    (∀ ticket, ((f.history calls).filterMap Event.accepted?).count ticket ≤ 1) ∧
    (∀ earlier later ticket, calls = earlier ++ later →
      ticket ∈ (f.history earlier).filterMap Event.issued? → ¬Outstanding (f.history earlier) ticket →
      ∀ expansion, (f.run calls).commit ticket expansion = (.error Frontier.staleError, f.run calls)) ∧
    (∀ ticket, Outstanding (f.history calls) ticket → ∀ expansion,
      ((f.run calls).commit ticket expansion).1 ≠ .error Frontier.staleError ∧
      (Frontier.expansionError? ticket expansion = none →
        (f.run calls).nodes.size + (f.run calls).missing expansion.successors ≤ (f.run calls).maxStates.toNat →
        (f.run calls).nextSequence.toNat + (f.run calls).missing expansion.successors ≤ uint64Max.toNat →
        ((f.run calls).commit ticket expansion).1 = .ok ())) := by
  have start := create_linked success
  have linked := run_linked start calls
  refine ⟨linked.increasing, ?_, linked.once, ?_, fun ticket outstanding => commit_accepted linked outstanding⟩
  · intro first second left right same
    obtain ⟨node, read, held⟩ := (linked.holds first).mpr left
    obtain ⟨other, again, stored⟩ := (linked.holds second).mpr right
    rw [← same, read, Option.some.injEq] at again
    rw [← again, held, Option.some.injEq] at stored
    exact stored
  · rintro earlier later ticket rfl issued spent expansion
    exact commit_stale linked (spent_forever start earlier later issued spent).2 expansion

/-- A ticket whose worker was lost stays rejected after the same worker leased the same state again. -/
theorem tickets_linear_leased_again :
    (({ limit := 3, policy := .dfs, maxStates := 9 } : Frontier).run
      ([.admitState 7 0, .lease 1 (fun _ _ => .ok 0), .workerLost 1] ++ [.lease 1 (fun _ _ => .ok 0)])).commit
        ⟨7, 1, 1, 0, true⟩ {} = (.error Frontier.staleError,
          ({ limit := 3, policy := .dfs, maxStates := 9 } : Frontier).run
            ([.admitState 7 0, .lease 1 (fun _ _ => .ok 0), .workerLost 1] ++ [.lease 1 (fun _ _ => .ok 0)])) := by
  have created : Frontier.create 3 .dfs false 9 = .ok { limit := 3, policy := .dfs, maxStates := 9 } := rfl
  refine (tickets_linear created _).2.2.2.1 _ _ ⟨7, 1, 1, 0, true⟩ rfl (by decide +kernel) ?_ {}
  rw [← (run_linked (create_linked created) _).holds]
  rintro ⟨node, read, held⟩
  have requeued : (({ limit := 3, policy := .dfs, maxStates := 9 } : Frontier).run
      [.admitState 7 0, .lease 1 (fun _ _ => .ok 0), .workerLost 1]).nodes[(7 : StateKey)]? =
      some ⟨0, .pending, 0, none, [], ""⟩ := by decide +kernel
  rw [requeued, Option.some.injEq] at read
  simp [← read] at held

end DetSim.Search
