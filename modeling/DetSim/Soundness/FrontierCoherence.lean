import DetSim.Soundness.FrontierRelaxation

/-! # Coherent frontiers and dispatch

Between calls the indexes describe the node table, a ticket is stored exactly while its node is in
flight, every recorded successor is stored, and the lease counters balance. Relaxations
keep this, and so does leasing a node, which the two dispatch overloads only do to a pending one.
-/

namespace DetSim.Search

open Std ExtTreeMap Relation

variable {f : Frontier} {node : Node} {scorer : Scorer} {key : StateKey} {work : Work} {candidates window : ℕ}

/-- A node with its ticket: a ticket is stored exactly while the node is in flight, it names the node,
it was issued by this frontier, and the node's depth has only dropped since. -/
structure TicketFits (limit nextLease : UInt64) (key : StateKey) (node : Node) : Prop where
  stored_iff : node.ticket.isSome ↔ node.phase = .inflight
  issued : ∀ ticket, node.ticket = some ticket → ticket.state = key ∧ ticket.leaseId ≤ nextLease ∧
    ticket.mayExpand = decide (ticket.depth < limit) ∧ node.depth ≤ ticket.depth

/-- A coherent table whose tickets fit; this also holds inside a call. -/
structure Ticketed (f : Frontier) : Prop where
  stored : Stored f
  fits : ∀ (key : StateKey) node, f.nodes[key]? = some node → TicketFits f.limit f.nextLease key node

/-- The invariant of a frontier between two calls. -/
structure Coherent (f : Frontier) : Prop extends Ticketed f where
  closed : ∀ (key : StateKey) node, f.nodes[key]? = some node → node.phase = .expanded →
    ∀ successor ∈ node.successors, f.nodes[successor]? ≠ none
  leased : f.counters.leased =
    f.counters.committed + f.counters.requeued + f.nodes.countValues (Node.hasPhase .inflight)

theorem create_coherent {limit maxStates : UInt64} {policy : Policy} {hasPriority : Bool}
    (success : Frontier.create limit policy hasPriority maxStates = .ok f) : Coherent f := by
  unfold Frontier.create at success
  split at success
  · contradiction
  split at success
  · contradiction
  cases success
  exact ⟨⟨⟨indexed_empty _, by simp, by simp, by simp, by simp, by simp⟩, by simp⟩, by simp, by simp⟩

theorem TicketFits.shorten {limit nextLease : UInt64} {next : Node}
    (fits : TicketFits limit nextLease key node) (shortened : Shortened node next) :
    TicketFits limit nextLease key next where
  stored_iff := by
    rw [shortened.ticket, shortened.inflight_iff]
    exact fits.stored_iff
  issued := by
    intro ticket holds
    obtain ⟨state, lease, expand, depth⟩ := fits.issued ticket (shortened.ticket ▸ holds)
    exact ⟨state, lease, expand, UInt64.le_trans shortened.depth depth⟩

/-- Relaxations keep tickets fitting, whatever the surrounding call has done to the counters. -/
theorem Ticketed.relax {g : Frontier} {rest : Work} (ticketed : Ticketed f)
    (steps : ReflTransGen Relaxes (f, work) (g, rest)) : Ticketed g where
  stored := Relaxes.invariant (P := fun state => Stored state.1) (fun _ _ step => step.stored) steps
    ticketed.stored
  fits := by
    have evolves := evolves_of_relaxes steps
    intro key next present
    simp only at evolves
    rw [evolves.limit, evolves.nextLease]
    cases before : f.nodes[key]? with
    | none =>
      obtain ⟨pending, unticketed⟩ := evolves.fresh key next present before
      exact ⟨by simp [pending, unticketed], by simp [unticketed]⟩
    | some node =>
      obtain ⟨same, again, shortened⟩ := evolves.kept key node before
      obtain rfl : same = next := Option.some.inj (again.symm.trans present)
      exact (ticketed.fits key node before).shorten shortened

theorem Ticketed.replace {next : Node} (ticketed : Ticketed f)
    (read : f.nodes[key]? = some node) (sequence : next.sequence = node.sequence)
    (fits : TicketFits f.limit f.nextLease key next) : Ticketed (f.replace key node next) where
  stored := ticketed.stored.replace read sequence
  fits := by
    intro other entry present
    simp only [Frontier.replace, getElem?_insert_eq] at present
    split at present
    · next same =>
      cases present
      exact same ▸ fits
    · exact ticketed.fits other entry present

/-- With room in the table and in the sequence numbers, queued work cannot fail. -/
theorem Coherent.supplied (coherent : Coherent f)
    (capacity : f.nodes.size + f.missing (work.map Prod.fst) ≤ f.maxStates.toNat)
    (sequences : f.nextSequence.toNat + f.missing (work.map Prod.fst) ≤ uint64Max.toNat) :
    Supplied f work :=
  ⟨fun key node read expanded successor member => .inl (coherent.closed key node read expanded successor member),
    capacity, sequences⟩

/-- Relaxing a coherent frontier keeps it coherent. -/
theorem Coherent.relax {g : Frontier} (coherent : Coherent f) (supplied : Supplied f work)
    (steps : ReflTransGen Relaxes (f, work) (g, [])) : Coherent g where
  toTicketed := coherent.toTicketed.relax steps
  closed := by
    have settled := Relaxes.invariant (P := fun state => Supplied state.1 state.2)
      (fun _ _ step => step.supplied) steps supplied
    intro key node read expanded successor member
    exact (settled.closed key node read expanded successor member).resolve_right (by simp)
  leased := by
    have evolves := evolves_of_relaxes steps
    simp only at evolves
    rw [evolves.leased, evolves.committed, evolves.requeued, evolves.inflight]
    exact coherent.leased

/-- Assigning the ticket after `update` is one rewrite of the node. -/
theorem update_setTicket (f : Frontier) (key : StateKey) (node : Node) (phase : NodePhase)
    (depth : UInt64) (ticket : Option Ticket) :
    (f.update key node phase depth).setTicket key ticket =
      f.replace key node { node with phase := phase, depth := depth, ticket := ticket } := by
  have nodes : (f.nodes.insert key { node with phase := phase, depth := depth }).modify key
      (fun node => { node with ticket := ticket }) =
      f.nodes.insert key { node with phase := phase, depth := depth, ticket := ticket } := by
    apply ext_getElem?
    intro other
    simp only [getElem?_modify, getElem?_insert_eq, LawfulEqCmp.compare_eq_iff_eq]
    split_ifs <;> rfl
  simp only [Frontier.setTicket, Frontier.update, Frontier.replace, nodes]
  rfl

/-- The ticket a lease of a node hands out. -/
def Frontier.ticketFor (f : Frontier) (worker : WorkerId) (key : StateKey) (node : Node) : Ticket :=
  ⟨key, worker, f.nextLease + 1, node.depth, decide (node.depth < f.limit)⟩

/-- The frontier after leasing a node. -/
def Frontier.leased (f : Frontier) (worker : WorkerId) (key : StateKey) (node : Node) (candidates : ℕ) :
    Frontier :=
  { f.replace key node { node with phase := .inflight, ticket := some (f.ticketFor worker key node) } with
    nextLease := f.nextLease + 1
    counters := { f.counters with
      dispatchCandidates := f.counters.dispatchCandidates + candidates
      leased := f.counters.leased + 1 } }

theorem finalizeLease_of_read (worker : WorkerId)
    (candidates : ℕ) (read : f.nodes[key]? = some node) (available : f.nextLease ≠ uint64Max) :
    f.finalizeLease worker key candidates =
      (.ok (f.ticketFor worker key node), f.leased worker key node candidates) := by
  simp only [Frontier.finalizeLease, read, if_neg available, update_setTicket]
  rfl

/-- The states a dispatch may choose. -/
def Frontier.IsPending (f : Frontier) (key : StateKey) : Prop :=
  ∃ node, f.nodes[key]? = some node ∧ node.phase = .pending

theorem Stored.isPending_of_mem (stored : Stored f) {entry : UInt64 × StateKey}
    (member : entry ∈ f.indexes.pending.toList) : f.IsPending entry.2 := by
  obtain ⟨node, read, filed⟩ := (stored.indexed.pending entry.1 entry.2).mp
    (mem_toList_iff_getElem?_eq_some.mp member)
  refine ⟨node, read, ?_⟩
  unfold Node.pendingSlot at filed
  split at filed
  · assumption
  · contradiction

theorem Stored.isPending_of_mem_bfs (stored : Stored f) (bfs : f.policy = .bfs)
    {entry : (UInt64 × UInt64) × StateKey} (member : entry ∈ f.indexes.bfsPending.toList) :
    f.IsPending entry.2 := by
  obtain ⟨node, read, filed⟩ := (stored.indexed.bfsPending bfs entry.1 entry.2).mp
    (mem_toList_iff_getElem?_eq_some.mp member)
  refine ⟨node, read, ?_⟩
  unfold Node.bfsSlot at filed
  split at filed
  · assumption
  · contradiction

/-- The priority scan ends on one of the states it looked at. -/
theorem foldlM_considerPriority {priority : Priority} {rest : List StateKey}
    {start final : Frontier.Selection}
    (success : rest.foldlM (f.considerPriority priority) start = .ok final) :
    final.key = start.key ∨ final.key ∈ rest := by
  induction rest generalizing start with
  | nil =>
    cases success
    exact .inl rfl
  | cons key rest ih =>
    rw [List.foldlM_cons] at success
    cases considered : f.considerPriority priority start key with
    | error error => simp [considered, bind, Except.bind] at success
    | ok next =>
      simp only [considered, bind, Except.bind] at success
      have chosen : next.key = start.key ∨ next.key = key := by
        unfold Frontier.considerPriority at considered
        split at considered
        · contradiction
        · next node read =>
          cases answer : priority key node.depth with
          | error error => simp [answer, Except.mapError, bind, Except.bind] at considered
          | ok value =>
            simp only [answer, Except.mapError, bind, Except.bind, pure, Except.pure, Except.ok.injEq] at considered
            subst considered
            split <;> simp
      rcases ih success with same | member
      · rcases chosen with old | new
        · exact .inl (same.trans old)
        · exact .inr (by simp [same, new])
      · exact .inr (List.mem_cons_of_mem _ member)

/-- The locality scan ends on a candidate as soon as there is one. -/
theorem foldlM_consider {candidates : List StateKey} {start final : Frontier.Selection}
    (success : candidates.foldlM (Frontier.consider scorer) start = .ok final) :
    final.key ∈ candidates ∨ final.key = start.key ∧ (candidates = [] ∨ start.candidates ≠ 0) := by
  induction candidates generalizing start with
  | nil =>
    cases success
    exact .inr ⟨rfl, .inl rfl⟩
  | cons key rest ih =>
    rw [List.foldlM_cons] at success
    cases considered : Frontier.consider scorer start key with
    | error error => simp [considered, bind, Except.bind] at success
    | ok next =>
      simp only [considered, bind, Except.bind] at success
      have chosen : next.key = key ∨ next.key = start.key ∧ start.candidates ≠ 0 := by
        unfold Frontier.consider at considered
        cases answer : scorer key with
        | error error => simp [answer, Except.mapError, bind, Except.bind] at considered
        | ok score =>
          simp only [answer, Except.mapError, bind, Except.bind, pure, Except.pure, Except.ok.injEq] at considered
          subst considered
          split
          · exact .inl rfl
          · next kept => exact .inr ⟨rfl, fun zero => kept (.inl zero)⟩
      rcases ih success with member | ⟨same, _⟩
      · exact .inl (List.mem_cons_of_mem _ member)
      · rcases chosen with new | ⟨old, some⟩
        · exact .inl (by simp [same, new])
        · exact .inr ⟨same.trans old, .inr some⟩

theorem select_isPending (stored : Stored f) {priority : Priority}
    (success : f.select priority = .ok (some (key, candidates))) : f.IsPending key := by
  unfold Frontier.select at success
  split at success
  · split at success
    · contradiction
    · next sequence last found =>
      cases success
      exact stored.isPending_of_mem (List.mem_of_getLast? found)
  · next bfs =>
    split at success
    · next depth sequence first layer count found _ =>
      split at success
      · cases success
      · cases success
        exact stored.isPending_of_mem_bfs bfs (List.mem_of_mem_head? found)
    · contradiction
  · split at success
    · contradiction
    · next first rest listed =>
      have pending : ∀ key ∈ first :: rest, f.IsPending key := by
        intro key member
        rw [← listed, List.mem_map] at member
        obtain ⟨entry, present, rfl⟩ := member
        exact stored.isPending_of_mem present
      split at success
      · contradiction
      · next node read =>
        cases answer : priority first node.depth with
        | error error => simp [answer, Except.mapError, bind, Except.bind] at success
        | ok best =>
          cases scanned : rest.foldlM (f.considerPriority priority) ⟨first, best, 1⟩ with
          | error error => simp [answer, scanned, Except.mapError, bind, Except.bind] at success
          | ok selection =>
            simp only [answer, scanned, Except.mapError, bind, Except.bind, pure, Except.pure, Except.ok.injEq,
              Option.some.injEq, Prod.mk.injEq] at success
            obtain ⟨rfl, _⟩ := success
            rcases foldlM_considerPriority scanned with same | member
            · rw [same]
              exact pending first List.mem_cons_self
            · exact pending _ (List.mem_cons_of_mem _ member)

theorem scoredCandidates_isPending (stored : Stored f) {keys : List StateKey}
    (positive : window ≠ 0) (occupied : f.indexes.pending.isEmpty = false)
    (success : f.scoredCandidates window = .ok (some keys)) :
    keys ≠ [] ∧ ∀ key ∈ keys, f.IsPending key := by
  unfold Frontier.scoredCandidates at success
  split at success
  · next bfs =>
    split at success
    · next depth sequence first layer count found _ =>
      split at success
      · cases success
      · next same =>
        cases success
        have same := not_not.mp same
        obtain ⟨tail, listed⟩ := List.head?_eq_some_iff.mp found
        refine ⟨?_, ?_⟩
        · rw [listed, List.takeWhile_cons_of_pos (by simpa using same)]
          obtain ⟨more, rfl⟩ := Nat.exists_eq_succ_of_ne_zero positive
          simp
        · intro key member
          obtain ⟨entry, taken, rfl⟩ := List.mem_map.mp member
          exact stored.isPending_of_mem_bfs bfs
            ((List.takeWhile_sublist _).subset (List.mem_of_mem_take taken))
    · contradiction
  · cases success
    have nonempty : f.indexes.pending.toList ≠ [] := by
      intro empty
      rw [← isEmpty_toList, empty] at occupied
      simp at occupied
    refine ⟨?_, ?_⟩
    · simp [positive, nonempty]
    · intro key member
      obtain ⟨entry, taken, rfl⟩ := List.mem_map.mp member
      exact stored.isPending_of_mem (List.mem_reverse.mp (List.mem_of_mem_take taken))

/-- The locality scan answers one of its candidates. -/
theorem selectScored_mem (stored : Stored f) (positive : window ≠ 0)
    (occupied : f.indexes.pending.isEmpty = false)
    (success : f.selectScored scorer window = .ok (some (key, candidates))) :
    ∃ keys, f.scoredCandidates window = .ok (some keys) ∧ key ∈ keys := by
  unfold Frontier.selectScored at success
  cases listed : f.scoredCandidates window with
  | error error => simp [listed, bind, Except.bind] at success
  | ok found =>
    cases found with
    | none => simp [listed, bind, Except.bind, pure, Except.pure] at success
    | some keys =>
      obtain ⟨nonempty, _⟩ := scoredCandidates_isPending stored positive occupied listed
      cases scanned : keys.foldlM (Frontier.consider scorer) ⟨0, 0, 0⟩ with
      | error error => simp [listed, scanned, bind, Except.bind] at success
      | ok selection =>
        simp only [listed, scanned, bind, Except.bind, pure, Except.pure, Except.ok.injEq,
          Option.some.injEq, Prod.mk.injEq] at success
        obtain ⟨rfl, _⟩ := success
        refine ⟨keys, rfl, ?_⟩
        rcases foldlM_consider scanned with member | ⟨_, empty | counted⟩
        · exact member
        · exact absurd empty nonempty
        · exact absurd rfl counted

theorem selectScored_isPending (stored : Stored f) (positive : window ≠ 0)
    (occupied : f.indexes.pending.isEmpty = false)
    (success : f.selectScored scorer window = .ok (some (key, candidates))) : f.IsPending key := by
  obtain ⟨keys, listed, member⟩ := selectScored_mem stored positive occupied success
  exact (scoredCandidates_isPending stored positive occupied listed).2 key member

end DetSim.Search
