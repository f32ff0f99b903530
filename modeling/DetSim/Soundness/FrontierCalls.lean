import DetSim.Soundness.FrontierCoherence

/-! # What a call does to a coherent frontier

`Effect` lists everything a call can do between two calls. A call that throws changes nothing; every
other call rewrites nodes, relaxes the distances it published and counts itself. In particular the
capacity checks made before the first write are enough: no propagation inside `admit` or `commit`
stops halfway. Invariants of whole runs are derived from this list.
-/

namespace DetSim.Search

open Std ExtTreeMap Relation

variable {call : Call} {expansion : Expansion} {f : Frontier} {node : Node} {key : StateKey} {ticket : Ticket}
  {worker : WorkerId}

/-- The node a successful commit leaves: a cut that is no longer at the limit is pending again. -/
def Node.committed (node : Node) (limit : UInt64) (expansion : Expansion) : Node :=
  { node with
    successors := expansion.successors
    reason := expansion.reason
    phase := if expansion.kind.phase = .depthCut ∧ node.depth < limit then .pending
      else expansion.kind.phase
    ticket := none }

/-- A node whose lease is dropped when its worker is lost. -/
def Node.requeued (node : Node) (worker : WorkerId) : Node :=
  match node.ticket with
  | none => node
  | some ticket => if ticket.worker = worker then { node with phase := .pending, ticket := none } else node

/-- The distances a commit publishes. -/
def published (node : Node) (expansion : Expansion) : Work :=
  expansion.successors.map fun successor => (successor, node.depth + 1)

/-- The lost worker's nodes are pending again and nothing else differs. -/
structure Requeued (worker : WorkerId) (f g : Frontier) (count : ℕ) : Prop where
  limit : g.limit = f.limit
  policy : g.policy = f.policy
  maxStates : g.maxStates = f.maxStates
  poisoned : g.poisoned = f.poisoned
  nextLease : g.nextLease = f.nextLease
  counters : g.counters = f.counters
  stored : Stored g
  nodes : ∀ key : StateKey, g.nodes[key]? = f.nodes[key]?.map (Node.requeued · worker)
  inflight : g.nodes.countValues (Node.hasPhase .inflight) + count =
    f.nodes.countValues (Node.hasPhase .inflight)

def Call.leases : Call → Option WorkerId
  | .lease worker _ => some worker
  | .leaseScored worker _ _ _ => some worker
  | _ => none

inductive Effect (f : Frontier) : Call → Except FrontierError Reply → Frontier → Prop
  | thrown (call : Call) (error : FrontierError) : Effect f call (.error error) f
  | idle {call : Call} {worker : WorkerId} (isLease : call.leases = some worker) :
      Effect f call (.ok (.leased none)) f
  | admitted {state : StateKey} {depth : UInt64} {changed : Bool} {g : Frontier} (bound : depth ≤ f.limit)
      (supplied : Supplied f [(state, depth)]) (steps : ReflTransGen Relaxes (f, [(state, depth)]) (g, [])) :
      Effect f (.admitState state depth) (.ok (.admitted changed)) g
  | leased {call : Call} {worker : WorkerId} {key : StateKey} {node : Node} (candidates : ℕ)
      (isLease : call.leases = some worker) (read : f.nodes[key]? = some node)
      (pending : node.phase = .pending) (available : f.nextLease ≠ uint64Max) :
      Effect f call (.ok (.leased (some (f.ticketFor worker key node)))) (f.leased worker key node candidates)
  | committed {ticket : Ticket} {expansion : Expansion} {node : Node} {g : Frontier}
      (accepted : f.leaseMatches ticket) (compatible : Frontier.expansionError? ticket expansion = none)
      (read : f.nodes[ticket.state]? = some node)
      (supplied : Supplied (f.replace ticket.state node (node.committed f.limit expansion))
        (published node expansion))
      (steps : ReflTransGen Relaxes (f.replace ticket.state node (node.committed f.limit expansion),
        published node expansion) (g, [])) :
      Effect f (.commit ticket expansion) (.ok .committed)
        { g with counters := { g.counters with committed := g.counters.committed + 1 } }
  | lost {worker : WorkerId} {count : ℕ} {g : Frontier} (requeued : Requeued worker f g count) :
      Effect f (.workerLost worker) (.ok (.lost count))
        { g with counters := { g.counters with requeued := g.counters.requeued + count } }

theorem missing_singleton (f : Frontier) (key : StateKey) :
    f.missing [key] = if f.nodes[key]? = none then 1 else 0 := by
  by_cases absent : f.nodes[key]? = none
  · rw [if_pos absent, Frontier.missing, List.filter_cons_of_pos (by simpa using absent)]
    rfl
  · rw [if_neg absent, Frontier.missing, List.filter_cons_of_neg (by simpa using absent)]
    rfl

theorem toNat_lt_max_of_ne {value : UInt64} (available : value ≠ uint64Max) :
    value.toNat + 1 ≤ uint64Max.toNat := by
  rw [← toNat_add_one_of_ne_max available]
  exact Nat.le_of_lt_succ (value + 1).toNat_lt

theorem admit_effect (coherent : Coherent f) (state : StateKey) (depth : UInt64) :
    Effect f (.admitState state depth) ((f.admitState state depth).1.map .admitted) (f.admitState state depth).2 := by
  unfold Frontier.admitState
  split
  · exact .thrown ..
  split
  · exact .thrown ..
  next bound =>
  split
  · exact .thrown ..
  next room =>
  by_cases exhausted : f.nodes[state]? = none ∧ f.nextSequence = uint64Max
  · have failed : f.propagate [(state, depth)] = (.error (.overflowError "frontier sequence exhausted"), f) := by
      rw [Frontier.propagate]
      split
      · simp_all
      · simp_all
    rw [failed]
    exact .thrown ..
  · have supplied : Supplied f [(state, depth)] := by
      have capacity := coherent.stored.capacity
      have sequence : f.nextSequence.toNat ≤ uint64Max.toNat := Nat.le_of_lt_succ f.nextSequence.toNat_lt
      apply coherent.supplied
      · simp only [List.map_cons, List.map_nil, missing_singleton]
        split
        · next absent =>
          have : f.nodes.size ≠ f.maxStates.toNat := fun full => room ⟨absent, full⟩
          omega
        · omega
      · simp only [List.map_cons, List.map_nil, missing_singleton]
        split
        · next absent => exact toNat_lt_max_of_ne fun last => exhausted ⟨absent, last⟩
        · exact sequence
    obtain ⟨g, returned, steps, _⟩ := propagate_of_supplied supplied
    rw [returned]
    exact .admitted (UInt64.not_lt.mp bound) supplied steps

/-- Leasing a pending choice; the lease numbers may be used up. -/
theorem leaseSelected_effect (isLease : call.leases = some worker)
    {choice : Except FrontierError (Option (StateKey × ℕ))}
    (pending : ∀ key candidates, choice = .ok (some (key, candidates)) → f.IsPending key) :
    Effect f call ((f.leaseSelected worker choice).1.map .leased) (f.leaseSelected worker choice).2 := by
  unfold Frontier.leaseSelected
  split
  · exact .thrown ..
  · exact .idle isLease
  · next key candidates =>
    obtain ⟨node, read, pending⟩ := pending key candidates rfl
    by_cases available : f.nextLease = uint64Max
    · simp only [Frontier.finalizeLease, read, if_pos available]
      exact .thrown ..
    · rw [finalizeLease_of_read worker candidates read available]
      exact .leased candidates isLease read pending available

theorem lease_effect (coherent : Coherent f)
    (isLease : call.leases = some worker) (priority : Priority) :
    Effect f call ((f.lease worker priority).1.map .leased) (f.lease worker priority).2 := by
  unfold Frontier.lease
  split
  · exact .thrown ..
  split
  · exact .idle isLease
  · exact leaseSelected_effect isLease fun key candidates success => select_isPending coherent.stored success

theorem leaseScored_effect (coherent : Coherent f)
    (isLease : call.leases = some worker) (priority : Priority) (scorer : Option Scorer) (window : ℕ) :
    Effect f call ((f.leaseScored worker priority scorer window).1.map .leased)
      (f.leaseScored worker priority scorer window).2 := by
  unfold Frontier.leaseScored
  split
  · exact .thrown ..
  split
  · exact lease_effect coherent isLease priority
  split
  · exact .thrown ..
  split
  · exact .thrown ..
  next positive =>
  split
  · exact .idle isLease
  next occupied =>
  exact leaseSelected_effect isLease fun key candidates success =>
    selectScored_isPending coherent.stored positive (by simpa using occupied) success

/-- Distances above a node's depth never change that depth. -/
theorem Relaxes.keeps_depth {a b : Frontier × Work} {state : StateKey} {depth : UInt64} (step : Relaxes a b)
    (above : ∀ item ∈ a.2, depth < item.2)
    (here : ∃ node, a.1.nodes[state]? = some node ∧ node.depth = depth) :
    (∀ item ∈ b.2, depth < item.2) ∧ ∃ node, b.1.nodes[state]? = some node ∧ node.depth = depth := by
  obtain ⟨node, read, atDepth⟩ := here
  cases step with
  | @insert f key distance rest absent room available =>
    refine ⟨fun item member => above item (List.mem_cons_of_mem _ member), node, ?_, atDepth⟩
    simp only [Frontier.insertPending, getElem?_insert_eq]
    rwa [if_neg]
    rintro rfl
    simp [absent] at read
  | skip known longer => exact ⟨fun item member => above item (List.mem_cons_of_mem _ member), node, read, atDepth⟩
  | @improve f key distance rest stored known shorter =>
    have front : depth < distance := above _ List.mem_cons_self
    refine ⟨?_, node, ?_, atDepth⟩
    · intro item member
      rcases List.mem_append.mp member with pushed | queued
      · unfold Frontier.relaxations at pushed
        split at pushed
        · obtain ⟨successor, _, rfl⟩ := List.mem_map.mp pushed
          simp only
          lia
        · simp at pushed
      · exact above item (List.mem_cons_of_mem _ queued)
    · simp only [Frontier.improve, Frontier.update, Frontier.replace, Frontier.countDuplicate,
        getElem?_insert_eq]
      rwa [if_neg]
      rintro rfl
      obtain rfl : node = stored := Option.some.inj (read.symm.trans known)
      lia

/-- The successor loop of `commit` is one propagation, since it never improves its own node. -/
theorem propagateSuccessors_eq {state : StateKey} {depth : UInt64} {keys : List StateKey}
    (bounded : keys ≠ [] → depth ≠ uint64Max)
    (here : ∃ node, f.nodes[state]? = some node ∧ node.depth = depth) :
    f.propagateSuccessors state keys = f.propagate (keys.map fun key => (key, depth + 1)) := by
  induction keys generalizing f with
  | nil =>
    rw [List.map_nil, Frontier.propagate]
    rfl
  | cons key rest ih =>
    obtain ⟨node, read, rfl⟩ := here
    have room := bounded (List.cons_ne_nil _ _)
    have above : node.depth < node.depth + 1 := by
      unfold uint64Max at room
      lia
    have split := propagate_append f [(key, node.depth + 1)] (rest.map fun key => (key, node.depth + 1))
    rw [List.map_cons, ← List.singleton_append (x := (key, node.depth + 1)), split]
    simp only [Frontier.propagateSuccessors, read]
    obtain ⟨left, steps, _⟩ := propagate_relaxes f [(key, node.depth + 1)]
    have kept := Relaxes.invariant (P := fun next => (∀ item ∈ next.2, node.depth < item.2) ∧
      ∃ same, next.1.nodes[state]? = some same ∧ same.depth = node.depth)
      (fun _ _ step known => step.keeps_depth known.1 known.2) steps
      ⟨by simpa using above, node, read, rfl⟩
    generalize f.propagate [(key, node.depth + 1)] = result at kept ⊢
    obtain ⟨outcome, g⟩ := result
    cases outcome with
    | error error => rfl
    | ok done => exact ih (fun _ => room) kept.2

theorem leaseMatches_iff (ticketed : Ticketed f) (ticket : Ticket) :
    f.leaseMatches ticket ↔ ∃ node, f.nodes[ticket.state]? = some node ∧ node.ticket = some ticket := by
  unfold Frontier.leaseMatches
  cases read : f.nodes[ticket.state]? with
  | none => simp
  | some node =>
    have fits := ticketed.fits _ _ read
    cases held : node.ticket with
    | none => simp [held]
    | some stored =>
      have inflight := fits.stored_iff.mp (by simp [held])
      have named := (fits.issued stored held).1
      obtain ⟨state, worker, leaseId, depth, mayExpand⟩ := stored
      obtain ⟨wanted, otherWorker, otherLease, otherDepth, otherExpand⟩ := ticket
      simp_all [and_assoc]

theorem replace_read_none_iff {other : StateKey} {next : Node}
    (read : f.nodes[key]? = some node) :
    (f.replace key node next).nodes[other]? = none ↔ f.nodes[other]? = none := by
  simp only [Frontier.replace, getElem?_insert_eq]
  split <;> simp_all

/-- The capacity checks of `commit` make its propagation succeed. -/
theorem commit_supplied (coherent : Coherent f) (read : f.nodes[ticket.state]? = some node)
    (capacity : ¬f.maxStates.toNat - f.nodes.size < f.missing expansion.successors)
    (sequences : ¬(uint64Max - f.nextSequence).toNat < f.missing expansion.successors) :
    Supplied (f.replace ticket.state node (node.committed f.limit expansion)) (published node expansion) := by
  have keys : (published node expansion).map Prod.fst = expansion.successors := by
    simp [published, Function.comp_def]
  have fewer : (f.replace ticket.state node (node.committed f.limit expansion)).missing expansion.successors ≤
      f.missing expansion.successors :=
    missing_le_of_subset fun key member absent => ⟨member, (replace_read_none_iff read).mp absent⟩
  refine ⟨?_, ?_, ?_⟩
  · intro other entry present expanded successor member
    rw [keys]
    simp only [Frontier.replace, getElem?_insert_eq] at present
    split at present
    · cases present
      exact .inr member
    · exact .inl (mt (replace_read_none_iff read).mp (coherent.closed other entry present expanded successor member))
  · have size : (f.replace ticket.state node (node.committed f.limit expansion)).nodes.size = f.nodes.size :=
      size_insert_of_read read _
    have bound : (f.replace ticket.state node (node.committed f.limit expansion)).maxStates.toNat =
      f.maxStates.toNat := rfl
    have := coherent.stored.capacity
    rw [keys]
    omega
  · have room : (uint64Max - f.nextSequence).toNat = uint64Max.toNat - f.nextSequence.toNat :=
      UInt64.toNat_sub_of_le _ _ (UInt64.le_iff_toNat_le.mpr (Nat.le_of_lt_succ f.nextSequence.toNat_lt))
    have bound : f.nextSequence.toNat ≤ uint64Max.toNat := Nat.le_of_lt_succ f.nextSequence.toNat_lt
    have same : (f.replace ticket.state node (node.committed f.limit expansion)).nextSequence.toNat =
      f.nextSequence.toNat := rfl
    rw [keys]
    omega

theorem expansionError?_eq_none
    (compatible : Frontier.expansionError? ticket expansion = none) :
    (expansion.kind = .expanded → ticket.mayExpand = true) ∧
      (expansion.kind = .depthCut → ticket.mayExpand = false) ∧
      (expansion.successors ≠ [] → expansion.kind = .expanded) := by
  unfold Frontier.expansionError? at compatible
  simp only at compatible
  split at compatible
  · contradiction
  next probe =>
  split at compatible
  · contradiction
  next silent =>
  cases kind : expansion.kind <;> simp_all [ResultKind.phase]

/-- The writes of a commit that passed its checks: one rewritten node, then relaxations to the end. -/
theorem publish_eq (coherent : Coherent f) (read : f.nodes[ticket.state]? = some node) (held : node.ticket = some ticket)
    (compatible : Frontier.expansionError? ticket expansion = none)
    (supplied : Supplied (f.replace ticket.state node (node.committed f.limit expansion))
      (published node expansion)) :
    ∃ g, ReflTransGen Relaxes (f.replace ticket.state node (node.committed f.limit expansion),
        published node expansion) (g, []) ∧
      f.publish ticket expansion =
        (.ok (), { g with counters := { g.counters with committed := g.counters.committed + 1 } }) := by
  obtain ⟨_, _, expand, depth⟩ := (coherent.fits _ _ read).issued ticket held
  obtain ⟨probe, _, publishes⟩ := expansionError?_eq_none compatible
  have bounded : expansion.successors ≠ [] → node.depth ≠ uint64Max := by
    intro some
    have shallow : ticket.depth < f.limit := by simpa [expand] using probe (publishes some)
    unfold uint64Max
    lia
  obtain ⟨g, returned, steps, _⟩ := propagate_of_supplied supplied
  have loop : (f.replace ticket.state node (node.committed f.limit expansion)).propagateSuccessors ticket.state
      expansion.successors = (.ok (), g) := by
    rw [propagateSuccessors_eq bounded ⟨node.committed f.limit expansion, by simp [Frontier.replace], rfl⟩]
    exact returned
  have rewritten : ((f.update ticket.state
      { node with successors := expansion.successors, reason := expansion.reason }
      (if expansion.kind.phase = .depthCut ∧ node.depth < f.limit then .pending else expansion.kind.phase)
      node.depth).setTicket ticket.state none) =
      f.replace ticket.state node (node.committed f.limit expansion) := by
    rw [update_setTicket]
    rfl
  refine ⟨g, steps, ?_⟩
  simp only [Frontier.publish, read, rewritten, loop]

/-- Past the checks of a commit nothing throws any more. -/
theorem publish_succeeds (coherent : Coherent f)
    (accepted : f.leaseMatches ticket) (compatible : Frontier.expansionError? ticket expansion = none)
    (capacity : ¬f.maxStates.toNat - f.nodes.size < f.missing expansion.successors)
    (sequences : ¬(uint64Max - f.nextSequence).toNat < f.missing expansion.successors) :
    (f.publish ticket expansion).1 = .ok () := by
  obtain ⟨node, read, held⟩ := (leaseMatches_iff coherent.toTicketed ticket).mp accepted
  obtain ⟨g, _, returned⟩ := publish_eq coherent read held compatible (commit_supplied coherent read capacity sequences)
  rw [returned]

theorem commit_effect (coherent : Coherent f) (ticket : Ticket) (expansion : Expansion) :
    Effect f (.commit ticket expansion) ((f.commit ticket expansion).1.map fun _ => .committed)
      (f.commit ticket expansion).2 := by
  unfold Frontier.commit
  split
  · exact .thrown ..
  split
  · exact .thrown ..
  next accepted =>
  split
  · exact .thrown ..
  next compatible =>
  split
  · exact .thrown ..
  next capacity =>
  split
  · exact .thrown ..
  next sequences =>
  have accepted := not_not.mp accepted
  obtain ⟨node, read, held⟩ := (leaseMatches_iff coherent.toTicketed ticket).mp accepted
  have supplied := commit_supplied coherent read capacity sequences
  obtain ⟨g, steps, returned⟩ := publish_eq coherent read held compatible supplied
  rw [returned]
  exact .committed accepted compatible read supplied steps

/-- One iteration of the loop in `worker_lost`: nothing, or one rewritten node. -/
theorem requeue_eq (worker : WorkerId) (f : Frontier) (count : ℕ) (key : StateKey) (node : Node) :
    (node.requeued worker = node ∧ Frontier.requeue worker (f, count) (key, node) = (f, count)) ∨
      (node.ticket.isSome ∧ node.requeued worker = { node with phase := .pending, ticket := none } ∧
        Frontier.requeue worker (f, count) (key, node) =
          (f.replace key node (node.requeued worker), count + 1)) := by
  unfold Node.requeued Frontier.requeue
  cases held : node.ticket with
  | none => simp
  | some ticket =>
    by_cases lost : ticket.worker = worker
    · right
      simp only [lost, if_true, update_setTicket, Option.isSome_some, true_and]
    · left
      simp only [lost, if_false, true_and]

/-- The loop over distinct stored entries requeues exactly those of the lost worker. -/
theorem foldl_requeue (worker : WorkerId) (count : ℕ) {entries : List (StateKey × Node)}
    (ticketed : Ticketed f) (present : ∀ entry ∈ entries, f.nodes[entry.1]? = some entry.2)
    (distinct : (entries.map Prod.fst).Nodup) :
    ∃ g total, entries.foldl (Frontier.requeue worker) (f, count) = (g, count + total) ∧
      g.limit = f.limit ∧ g.policy = f.policy ∧ g.maxStates = f.maxStates ∧ g.poisoned = f.poisoned ∧
      g.nextLease = f.nextLease ∧ g.counters = f.counters ∧ Ticketed g ∧
      (∀ key : StateKey, g.nodes[key]? =
        if key ∈ entries.map Prod.fst then f.nodes[key]?.map (Node.requeued · worker) else f.nodes[key]?) ∧
      g.nodes.countValues (Node.hasPhase .inflight) + total =
        f.nodes.countValues (Node.hasPhase .inflight) := by
  induction entries generalizing f count with
  | nil => exact ⟨f, 0, rfl, rfl, rfl, rfl, rfl, rfl, rfl, ticketed, by simp, rfl⟩
  | cons entry rest ih =>
    obtain ⟨key, node⟩ := entry
    have read : f.nodes[key]? = some node := present _ List.mem_cons_self
    rw [List.map_cons, List.nodup_cons] at distinct
    obtain ⟨outside, distinct⟩ := distinct
    rcases requeue_eq worker f count key node with ⟨same, step⟩ | ⟨held, next, step⟩
    · obtain ⟨g, total, folded, limit, policy, maxStates, poisoned, nextLease, counters, coherent, nodes, inflight⟩ :=
        ih count ticketed (fun entry member => present entry (List.mem_cons_of_mem _ member)) distinct
      refine ⟨g, total, by rw [List.foldl_cons, step, folded], limit, policy, maxStates, poisoned, nextLease,
        counters, coherent, ?_, inflight⟩
      intro other
      rw [nodes other]
      by_cases isKey : other = key
      · subst isKey
        rw [if_neg outside, if_pos (by simp), read, Option.map_some, same]
      · exact if_congr (by simp [isKey]) rfl rfl
    · have replaced : Ticketed (f.replace key node (node.requeued worker)) := by
        rw [next]
        exact ticketed.replace read rfl ⟨by simp, by simp⟩
      have others : ∀ entry ∈ rest,
          (f.replace key node (node.requeued worker)).nodes[entry.1]? = some entry.2 := by
        intro entry member
        simp only [Frontier.replace, getElem?_insert_eq]
        rw [if_neg]
        · exact present entry (List.mem_cons_of_mem _ member)
        · intro isKey
          exact outside (List.mem_map.mpr ⟨entry, member, isKey.symm⟩)
      obtain ⟨g, total, folded, limit, policy, maxStates, poisoned, nextLease, counters, coherent, nodes, inflight⟩ :=
        ih (count + 1) replaced others distinct
      refine ⟨g, total + 1, ?_, limit, policy, maxStates, poisoned, nextLease, counters, coherent, ?_, ?_⟩
      · rw [List.foldl_cons, step, folded, Nat.add_right_comm, Nat.add_assoc]
      · intro other
        rw [nodes other]
        simp only [Frontier.replace, getElem?_insert_eq]
        by_cases isKey : other = key
        · subst isKey
          rw [if_neg outside, if_pos rfl, if_pos (by simp), read, Option.map_some]
        · rw [if_neg (Ne.symm isKey)]
          exact if_congr (by simp [isKey]) rfl rfl
      · have counted := countValues_insert_of_read (Node.hasPhase .inflight) read (node.requeued worker)
        have wasInflight := (ticketed.fits key node read).stored_iff.mp held
        simp only [next, Node.hasPhase, wasInflight, decide_true, Bool.toNat_true, reduceCtorEq, decide_false,
          Bool.toNat_false] at counted
        simp only [Frontier.replace, next] at inflight
        omega

theorem workerLost_effect (coherent : Coherent f) (worker : WorkerId) :
    Effect f (.workerLost worker) ((f.workerLost worker).1.map .lost) (f.workerLost worker).2 := by
  unfold Frontier.workerLost
  split
  · exact .thrown ..
  have distinct : (f.nodes.toList.map Prod.fst).Nodup := by
    rw [map_fst_toList_eq_keys]
    exact nodup_keys
  obtain ⟨g, total, folded, limit, policy, maxStates, poisoned, nextLease, counters, ticketed, nodes, inflight⟩ :=
    foldl_requeue worker 0 coherent.toTicketed
      (fun entry member => mem_toList_iff_getElem?_eq_some.mp member) distinct
  rw [folded, Nat.zero_add]
  refine .lost ⟨limit, policy, maxStates, poisoned, nextLease, counters, ticketed.stored, ?_, inflight⟩
  intro key
  rw [nodes key]
  split
  · rfl
  · next outside =>
    cases read : f.nodes[key]? with
    | none => rfl
    | some node =>
      exact absurd (List.mem_map_of_mem (mem_toList_iff_getElem?_eq_some.mpr read)) outside

/-- Every call to a coherent frontier has one of the listed effects. -/
theorem call_effect (coherent : Coherent f) (call : Call) :
    Effect f call (f.call call).1 (f.call call).2 := by
  cases call with
  | admitState state depth => exact admit_effect coherent state depth
  | lease worker priority => exact lease_effect coherent rfl priority
  | leaseScored worker priority scorer window => exact leaseScored_effect coherent rfl priority scorer window
  | commit ticket expansion => exact commit_effect coherent ticket expansion
  | workerLost worker => exact workerLost_effect coherent worker

theorem TicketFits.requeue {limit nextLease : UInt64}
    (fits : TicketFits limit nextLease key node) (worker : WorkerId) :
    TicketFits limit nextLease key (node.requeued worker) := by
  unfold Node.requeued
  split
  · exact fits
  · split
    · exact ⟨by simp, by simp⟩
    · exact fits

theorem Requeued.read {g : Frontier} {count : ℕ} (requeued : Requeued worker f g count) {next : Node}
    (present : g.nodes[key]? = some next) :
    ∃ node, f.nodes[key]? = some node ∧ node.requeued worker = next := by
  rw [requeued.nodes, Option.map_eq_some_iff] at present
  exact present

theorem Node.committed_phase_ne_inflight (node : Node) (limit : UInt64) (expansion : Expansion) :
    (node.committed limit expansion).phase ≠ .inflight := by
  simp only [Node.committed]
  split
  · simp
  · cases expansion.kind <;> simp [ResultKind.phase]

/-- A commit takes one node out of flight. -/
theorem inflight_committed (expansion : Expansion)
    (read : f.nodes[key]? = some node) (inflight : node.phase = .inflight) :
    (f.replace key node (node.committed f.limit expansion)).nodes.countValues (Node.hasPhase .inflight) + 1 =
      f.nodes.countValues (Node.hasPhase .inflight) := by
  have counted := countValues_insert_of_read (Node.hasPhase .inflight) read (node.committed f.limit expansion)
  have landed := node.committed_phase_ne_inflight f.limit expansion
  simpa [Node.hasPhase, inflight, landed, Frontier.replace] using counted

/-- Each effect keeps a frontier coherent. -/
theorem Effect.coherent {g : Frontier} {reply : Except FrontierError Reply}
    (effect : Effect f call reply g) (coherent : Coherent f) : Coherent g := by
  cases effect with
  | thrown => exact coherent
  | idle => exact coherent
  | admitted bound supplied steps => exact coherent.relax supplied steps
  | @leased _ worker key node candidates isLease read pending available =>
    have next : f.nextLease < f.nextLease + 1 := by
      unfold uint64Max at available
      lia
    have stored : Stored (f.replace key node { node with
        phase := .inflight, ticket := some (f.ticketFor worker key node) }) := coherent.stored.replace read rfl
    refine ⟨⟨⟨stored.indexed, stored.below, stored.distinct, stored.admitted, stored.sequenced,
      stored.capacity⟩, ?_⟩, ?_, ?_⟩
    · intro other entry present
      simp only [Frontier.leased, Frontier.replace, getElem?_insert_eq] at present ⊢
      split at present
      · next same =>
        cases present
        exact ⟨by simp, by simp [Frontier.ticketFor, same]⟩
      · have fits := coherent.fits other entry present
        refine ⟨fits.stored_iff, fun ticket held => ?_⟩
        obtain ⟨state, lease, expand, depth⟩ := fits.issued ticket held
        exact ⟨state, by lia, expand, depth⟩
    · intro other entry present expanded successor member
      simp only [Frontier.leased, Frontier.replace, getElem?_insert_eq] at present ⊢
      split at present
      · cases present
        contradiction
      · have := coherent.closed other entry present expanded successor member
        split <;> simp_all
    · have balance := coherent.leased
      have counted := countValues_insert_of_read (Node.hasPhase .inflight) read { node with
        phase := .inflight, ticket := some (f.ticketFor worker key node) }
      simp only [Node.hasPhase, pending, reduceCtorEq, decide_false, decide_true, Bool.toNat_true,
        Bool.toNat_false, Nat.add_zero] at counted
      simp only [Frontier.leased, Frontier.replace] at balance ⊢
      omega
  | @committed ticket expansion node g accepted compatible read supplied steps =>
    obtain ⟨same, again, held⟩ := (leaseMatches_iff coherent.toTicketed ticket).mp accepted
    obtain rfl : node = same := Option.some.inj (read.symm.trans again)
    have inflight := (coherent.fits _ _ read).stored_iff.mp (by simp [held])
    have landed := node.committed_phase_ne_inflight f.limit expansion
    have replaced : Ticketed (f.replace ticket.state node (node.committed f.limit expansion)) :=
      coherent.toTicketed.replace read rfl ⟨iff_of_false (by simp [Node.committed]) landed, by simp [Node.committed]⟩
    have relaxed := replaced.relax steps
    have evolves := evolves_of_relaxes steps
    have settled := Relaxes.invariant (P := fun state => Supplied state.1 state.2)
      (fun _ _ step => step.supplied) steps supplied
    have stored := relaxed.stored
    refine ⟨⟨⟨stored.indexed, stored.below, stored.distinct, stored.admitted, stored.sequenced,
      stored.capacity⟩, relaxed.fits⟩, ?_, ?_⟩
    · intro other entry present expanded successor member
      exact (settled.closed other entry present expanded successor member).resolve_right (by simp)
    · have balance := coherent.leased
      have fewer := inflight_committed expansion read inflight
      have := evolves.leased
      have := evolves.committed
      have := evolves.requeued
      have := evolves.inflight
      simp only [Frontier.replace] at *
      omega
  | @lost worker count g requeued =>
    refine ⟨⟨⟨requeued.stored.indexed, requeued.stored.below, requeued.stored.distinct, requeued.stored.admitted,
      requeued.stored.sequenced, requeued.stored.capacity⟩, ?_⟩, ?_, ?_⟩
    · intro key next present
      obtain ⟨node, read, rfl⟩ := requeued.read present
      simp only [requeued.limit, requeued.nextLease]
      exact (coherent.fits key node read).requeue worker
    · intro key next present expanded successor member
      obtain ⟨node, read, rfl⟩ := requeued.read present
      have phase : node.phase = .expanded ∧ (node.requeued worker).successors = node.successors := by
        unfold Node.requeued at expanded ⊢
        split at expanded
        · exact ⟨expanded, by simp_all⟩
        · split at expanded
          · contradiction
          · exact ⟨expanded, by simp_all⟩
      have known := coherent.closed key node read phase.1 successor (phase.2 ▸ member)
      simpa [requeued.nodes] using known
    · have balance := coherent.leased
      have := requeued.inflight
      simp only [requeued.counters]
      omega

/-- Coherence is an invariant of every sequence of calls. -/
theorem run_coherent (coherent : Coherent f) (calls : List Call) : Coherent (f.run calls) := by
  induction calls generalizing f with
  | nil => exact coherent
  | cons call rest ih => exact ih ((call_effect coherent call).coherent coherent)

end DetSim.Search
