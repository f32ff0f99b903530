import DetSim.Soundness.FrontierExploration

/-! # Breadth-first dispatch is layer-synchronous

A breadth-first lease compares the shallowest pending node with the shallowest open layer, and the two
agree only when nothing shallower is pending or in flight. Along a run whose roots are admitted at depth
zero before anything is leased, all open nodes therefore lie in one layer and the next one, and all nodes
in flight in the first of the two. No commit can then shorten a known depth, and the depth of a lease is
the distance of its state from the roots.
-/

namespace DetSim.Search

open Std ExtTreeMap Relation

variable {call : Call} {f g : Frontier} {events : List Event} {node : Node} {key : StateKey} {ticket : Ticket}
  {layer : ℕ}

/-- No node that is pending or in flight is shallower than this depth. -/
def Frontier.NoneShallower (f : Frontier) (depth : UInt64) : Prop :=
  ∀ (key : StateKey) node, f.nodes[key]? = some node → node.phase = .pending ∨ node.phase = .inflight →
    depth ≤ node.depth

/-- A stored state that a breadth-first dispatch may choose. -/
def Frontier.IsShallowest (f : Frontier) (key : StateKey) : Prop :=
  ∃ node, f.nodes[key]? = some node ∧ f.NoneShallower node.depth

section Dispatch

variable {f : Frontier}

/-- The first open layer bounds the depth of every open node. -/
theorem Stored.noneShallower (stored : Stored f) (bfs : f.policy = .bfs) {layer : UInt64} {count : ℕ}
    (first : f.indexes.activeLayers.toList.head? = some (layer, count)) : f.NoneShallower layer := by
  intro key node read active
  have filed : node.layerSlot = some node.depth := by
    rcases active with phase | phase <;> simp [Node.layerSlot, phase, NodePhase.active]
  have counted : f.nodes.countValues (fun value => decide (value.layerSlot = some node.depth)) ≠ 0 := by
    rw [Ne, countValues_eq_zero_iff]
    intro none
    simpa [filed] using none key node read
  have indexed := stored.indexed.activeLayers bfs node.depth
  rw [if_neg counted] at indexed
  have member := mem_toList_iff_getElem?_eq_some.mpr indexed
  have ordered : f.indexes.activeLayers.toList.Pairwise fun a b => compare a.1 b.1 = .lt :=
    f.indexes.activeLayers.ordered_keys_toList
  obtain ⟨rest, listed⟩ := List.head?_eq_some_iff.mp first
  rw [listed] at member ordered
  rcases List.mem_cons.mp member with same | later
  · rw [(Prod.mk.inj same).1]
    exact UInt64.le_refl _
  · have less := (List.pairwise_cons.mp ordered).1 _ later
    exact UInt64.le_of_lt (compare_eq_lt.mp less)

/-- A breadth-first index entry of the first open layer names a shallowest node. -/
theorem Stored.isShallowest (stored : Stored f) (bfs : f.policy = .bfs) {layer : UInt64} {count : ℕ}
    (first : f.indexes.activeLayers.toList.head? = some (layer, count))
    {entry : (UInt64 × UInt64) × StateKey} (member : entry ∈ f.indexes.bfsPending.toList)
    (same : entry.1.1 = layer) : f.IsShallowest entry.2 := by
  obtain ⟨node, read, filed⟩ := (stored.indexed.bfsPending bfs entry.1 entry.2).mp
    (mem_toList_iff_getElem?_eq_some.mp member)
  refine ⟨node, read, ?_⟩
  have depth : node.depth = entry.1.1 := by
    unfold Node.bfsSlot at filed
    split at filed
    · rw [← Option.some.inj filed]
    · contradiction
  rw [depth, same]
  exact stored.noneShallower bfs first

theorem select_isShallowest (stored : Stored f) (bfs : f.policy = .bfs) {priority : Priority}
    {candidates : ℕ} (success : f.select priority = .ok (some (key, candidates))) : f.IsShallowest key := by
  unfold Frontier.select at success
  rw [bfs] at success
  dsimp only at success
  split at success
  · next depth sequence head layer count found first =>
    split at success
    · cases success
    · next same =>
      cases success
      exact stored.isShallowest bfs first (List.mem_of_mem_head? found) (not_not.mp same)
  · contradiction

theorem scoredCandidates_isShallowest (stored : Stored f) (bfs : f.policy = .bfs) {window : ℕ}
    {keys : List StateKey} (success : f.scoredCandidates window = .ok (some keys)) :
    ∀ key ∈ keys, f.IsShallowest key := by
  unfold Frontier.scoredCandidates at success
  rw [if_pos bfs] at success
  split at success
  · next depth sequence head layer count found first =>
    split at success
    · cases success
    · cases success
      intro key member
      obtain ⟨entry, taken, rfl⟩ := List.mem_map.mp member
      have taken := List.mem_of_mem_take taken
      exact stored.isShallowest bfs first ((List.takeWhile_sublist _).subset taken)
        (by simpa using List.mem_takeWhile_imp taken)
  · contradiction

/-- Whatever the scorer and the window, the locality scan stays in the first open layer. -/
theorem selectScored_isShallowest (stored : Stored f) (bfs : f.policy = .bfs) {scorer : Scorer} {window : ℕ}
    {candidates : ℕ} (positive : window ≠ 0) (occupied : f.indexes.pending.isEmpty = false)
    (success : f.selectScored scorer window = .ok (some (key, candidates))) : f.IsShallowest key := by
  obtain ⟨keys, listed, member⟩ := selectScored_mem stored positive occupied success
  exact scoredCandidates_isShallowest stored bfs listed key member

theorem leaseSelected_chosen {worker : WorkerId} {choice : Except FrontierError (Option (StateKey × ℕ))}
    (issued : (f.leaseSelected worker choice).1 = .ok (some ticket)) :
    ∃ candidates, choice = .ok (some (ticket.state, candidates)) ∧
      ∀ node, f.nodes[ticket.state]? = some node → ticket.depth = node.depth := by
  unfold Frontier.leaseSelected at issued
  split at issued
  · cases issued
  · cases issued
  · next key candidates =>
    cases read : f.nodes[key]? with
    | none => simp [Frontier.finalizeLease, read, Except.map] at issued
    | some node =>
      by_cases available : f.nextLease = uint64Max
      · simp [Frontier.finalizeLease, read, available, Except.map] at issued
      · rw [finalizeLease_of_read worker candidates read available] at issued
        cases issued
        refine ⟨candidates, rfl, ?_⟩
        intro same again
        rw [← Option.some.inj (read.symm.trans again)]
        rfl

/-- A breadth-first lease takes the depth of a node that no open node undercuts. -/
theorem call_noneShallower (stored : Stored f) (bfs : f.policy = .bfs)
    (issued : (f.call call).1 = .ok (.leased (some ticket))) : f.NoneShallower ticket.depth := by
  have chosen : ∀ {worker choice}, (f.leaseSelected worker choice).1 = .ok (some ticket) →
      (∀ key candidates, choice = .ok (some (key, candidates)) → f.IsShallowest key) →
      f.NoneShallower ticket.depth := by
    intro worker choice leased shallowest
    obtain ⟨candidates, rfl, depth⟩ := leaseSelected_chosen leased
    obtain ⟨node, read, open_⟩ := shallowest _ _ rfl
    rw [depth node read]
    exact open_
  have plain : ∀ {worker priority}, (f.lease worker priority).1 = .ok (some ticket) →
      f.NoneShallower ticket.depth := by
    intro worker priority leased
    unfold Frontier.lease at leased
    split_ifs at leased
    · cases leased
    · exact chosen leased fun key candidates success => select_isShallowest stored bfs success
  cases call with
  | lease worker priority =>
    have leased : (f.lease worker priority).1 = .ok (some ticket) := by
      cases leased : (f.lease worker priority).1 <;> simp_all [Frontier.call, Except.map]
    exact plain leased
  | leaseScored worker priority scorer window =>
    have leased : (f.leaseScored worker priority scorer window).1 = .ok (some ticket) := by
      cases leased : (f.leaseScored worker priority scorer window).1 <;> simp_all [Frontier.call, Except.map]
    unfold Frontier.leaseScored at leased
    split at leased
    · cases leased
    split at leased
    · exact plain leased
    split at leased
    · cases leased
    split at leased
    · cases leased
    next positive =>
    split at leased
    · cases leased
    next occupied =>
    exact chosen leased fun key candidates success =>
      selectScored_isShallowest stored bfs positive (by simpa using occupied) success
  | admitState state depth =>
    cases admitted : (f.admitState state depth).1 <;> simp_all [Frontier.call, Except.map]
  | commit ticket expansion =>
    cases committed : (f.commit ticket expansion).1 <;> simp_all [Frontier.call, Except.map]
  | workerLost worker =>
    cases lost : (f.workerLost worker).1 <;> simp_all [Frontier.call, Except.map]

end Dispatch

theorem relaxes_nil (steps : ReflTransGen Relaxes (f, []) (g, [])) : g = f := by
  rcases steps.cases_head with same | ⟨_, step, _⟩
  · exact (Prod.mk.inj same).1.symm
  · cases step

/-- Relaxing one and the same distance, with no node deeper than it, only adds pending nodes there. -/
theorem relaxes_level {a b : Frontier × Work} (depth : UInt64) (steps : ReflTransGen Relaxes a b)
    (within : ∀ (key : StateKey) node, a.1.nodes[key]? = some node → node.depth ≤ depth)
    (level : ∀ item ∈ a.2, item.2 = depth) :
    b.1.counters.improvements = a.1.counters.improvements ∧
      ∀ (key : StateKey) node, b.1.nodes[key]? = some node →
        a.1.nodes[key]? = some node ∨ node.depth = depth ∧ node.phase = .pending := by
  have invariant := Relaxes.invariant (P := fun state => (∀ item ∈ state.2, item.2 = depth) ∧
      state.1.counters.improvements = a.1.counters.improvements ∧
      ∀ (key : StateKey) node, state.1.nodes[key]? = some node →
        a.1.nodes[key]? = some node ∨ node.depth = depth ∧ node.phase = .pending) ?_ steps
    ⟨level, rfl, fun _ _ => .inl⟩
  · exact invariant.2
  rintro _ _ step ⟨level, improvements, origin⟩
  cases step with
  | @insert f head distance rest absent room available =>
    refine ⟨fun item member => level item (List.mem_cons_of_mem _ member), improvements, ?_⟩
    intro key node present
    simp only [Frontier.insertPending, getElem?_insert_eq] at present
    split at present
    · cases present
      exact .inr ⟨level _ List.mem_cons_self, rfl⟩
    · exact origin key node present
  | skip read longer =>
    exact ⟨fun item member => level item (List.mem_cons_of_mem _ member), improvements, origin⟩
  | @improve f head distance rest node read shorter =>
    -- every stored depth is within the common distance, so nothing is ever shortened
    have same : distance = depth := level _ List.mem_cons_self
    rcases origin head node read with old | ⟨atDepth, _⟩
    · have := within head node old
      lia
    · lia

/-- Roots are admitted at depth zero, and before any ticket is issued. -/
def RootsFirst (events : List Event) : Prop :=
  ∀ before state depth reply after, events = before ++ (Call.admitState state depth, .ok reply) :: after →
    depth = 0 ∧ ∀ event ∈ before, Event.issued? event = none

theorem RootsFirst.of_append {first second : List Event} (roots : RootsFirst (first ++ second)) :
    RootsFirst first := by
  rintro before state depth reply after rfl
  exact roots before state depth reply (after ++ second) (by simp)

/-- The layer that is being explored: leases so far are not deeper, everything in flight is in it, open
nodes are in it or in the next one, and no depth was ever shortened. -/
structure Layered (events : List Event) (f : Frontier) (layer : ℕ) : Prop where
  within : ∀ (key : StateKey) node, f.nodes[key]? = some node → node.depth.toNat ≤ layer + 1
  ahead : ∀ (key : StateKey) node, f.nodes[key]? = some node →
    node.phase = .pending ∨ node.phase = .inflight → layer ≤ node.depth.toNat
  inflight : ∀ (key : StateKey) node, f.nodes[key]? = some node → node.phase = .inflight →
    node.depth.toNat = layer
  improvements : f.counters.improvements = 0
  issued : ∀ ticket ∈ events.filterMap Event.issued?, ticket.depth.toNat ≤ layer
  waiting : events.filterMap Event.issued? = [] → layer = 0 ∧
    ∀ (key : StateKey) node, f.nodes[key]? = some node → node.depth = 0

/-- A call that issues no ticket and keeps every node at its depth, or adds pending ones at a depth that
is not behind, leaves the layer open. -/
theorem Layered.keep {event : Event}
    (layered : Layered events f layer) (silent : Event.issued? event = none)
    (improvements : g.counters.improvements = f.counters.improvements)
    (nodes : ∀ (key : StateKey) next, g.nodes[key]? = some next →
      (∃ node, f.nodes[key]? = some node ∧ next.depth = node.depth ∧
        (next.phase = .inflight → node.phase = .inflight) ∧
        (next.phase = .pending → node.phase = .pending ∨ node.phase = .inflight)) ∨
      next.phase = .pending ∧ layer ≤ next.depth.toNat ∧ next.depth.toNat ≤ layer + 1 ∧
        (events.filterMap Event.issued? = [] → next.depth = 0)) :
    Layered (events ++ [event]) g layer := by
  have tickets : (events ++ [event]).filterMap Event.issued? = events.filterMap Event.issued? := by
    simp [List.filterMap_append, silent]
  refine ⟨?_, ?_, ?_, improvements.trans layered.improvements, tickets ▸ layered.issued, ?_⟩
  · intro key next present
    rcases nodes key next present with ⟨node, read, depth, _⟩ | ⟨_, _, within, _⟩
    · exact depth ▸ layered.within key node read
    · exact within
  · intro key next present active
    rcases nodes key next present with ⟨node, read, depth, inflight, pending⟩ | ⟨_, ahead, _⟩
    · rw [depth]
      exact layered.ahead key node read (active.elim pending fun phase => .inr (inflight phase))
    · exact ahead
  · intro key next present phase
    rcases nodes key next present with ⟨node, read, depth, inflight, _⟩ | ⟨pending, _⟩
    · exact depth ▸ layered.inflight key node read (inflight phase)
    · rw [pending] at phase
      contradiction
  · rw [tickets]
    intro none
    obtain ⟨zero, roots⟩ := layered.waiting none
    refine ⟨zero, ?_⟩
    intro key next present
    rcases nodes key next present with ⟨node, read, depth, _⟩ | ⟨_, _, _, fresh⟩
    · exact depth.trans (roots key node read)
    · exact fresh none

theorem Layered.admit {state : StateKey} {depth : UInt64}
    {reply : Reply} (layered : Layered events f layer)
    (roots : RootsFirst (events ++ [(.admitState state depth, .ok reply)]))
    (silent : Event.issued? (.admitState state depth, .ok reply) = none)
    (steps : ReflTransGen Relaxes (f, [(state, depth)]) (g, [])) :
    Layered (events ++ [(.admitState state depth, .ok reply)]) g layer := by
  obtain ⟨rfl, silentBefore⟩ := roots events state depth reply [] rfl
  have none : events.filterMap Event.issued? = [] := List.filterMap_eq_nil_iff.mpr silentBefore
  obtain ⟨rfl, zero⟩ := layered.waiting none
  obtain ⟨improvements, origin⟩ := relaxes_level 0 steps
    (fun key node read => UInt64.le_of_eq (zero key node read)) (by simp)
  refine layered.keep silent improvements ?_
  intro key next present
  rcases origin key next present with old | ⟨depth, pending⟩
  · exact .inl ⟨next, old, rfl, id, .inl⟩
  · exact .inr ⟨pending, by simp, by simp [depth], fun _ => depth⟩

/-- A commit publishes the next layer: it cannot shorten a depth. -/
theorem Layered.commit
    {expansion : Expansion} (layered : Layered events f layer) (reply : Reply)
    (coherent : Coherent f) (silent : Event.issued? (.commit ticket expansion, .ok reply) = none)
    (issued : events.filterMap Event.issued? ≠ [])
    (accepted : f.leaseMatches ticket) (compatible : Frontier.expansionError? ticket expansion = none)
    (read : f.nodes[ticket.state]? = some node)
    (steps : ReflTransGen Relaxes (f.replace ticket.state node (node.committed f.limit expansion),
      published node expansion) (g, [])) :
    Layered (events ++ [(.commit ticket expansion, .ok reply)]) g layer := by
  obtain ⟨same, again, held⟩ := (leaseMatches_iff coherent.toTicketed ticket).mp accepted
  obtain rfl : node = same := Option.some.inj (read.symm.trans again)
  have fits := coherent.fits _ _ read
  have phase : node.phase = .inflight := fits.stored_iff.mp (by simp [held])
  have depth := layered.inflight _ _ read phase
  have replaced : ∀ (key : StateKey) next,
      (f.replace ticket.state node (node.committed f.limit expansion)).nodes[key]? = some next →
      ∃ old, f.nodes[key]? = some old ∧ next.depth = old.depth ∧
        (next.phase = .inflight → old.phase = .inflight) ∧
        (next.phase = .pending → old.phase = .pending ∨ old.phase = .inflight) := by
    intro key next present
    simp only [Frontier.replace, getElem?_insert_eq] at present
    split at present
    · next same =>
      cases present
      exact ⟨node, same ▸ read, rfl, fun _ => phase, fun _ => .inr phase⟩
    · exact ⟨next, present, rfl, id, .inl⟩
  by_cases none : expansion.successors = []
  · have unpublished : published node expansion = [] := by simp [published, none]
    rw [unpublished] at steps
    rw [relaxes_nil steps]
    exact layered.keep silent rfl fun key entry present => .inl (replaced key entry present)
  · have below : node.depth < f.limit := by
      obtain ⟨mayExpand, _, nonempty⟩ := expansionError?_eq_none compatible
      obtain ⟨_, _, expand, shallow⟩ := fits.issued ticket held
      have : ticket.depth < f.limit := by simpa [expand] using mayExpand (nonempty none)
      lia
    have next := toNat_add_one_of_lt below
    have within : ∀ (key : StateKey) entry,
        (f.replace ticket.state node (node.committed f.limit expansion)).nodes[key]? = some entry →
        entry.depth ≤ node.depth + 1 := by
      intro key entry present
      obtain ⟨old, stored, same, _⟩ := replaced key entry present
      have := layered.within key old stored
      rw [same, UInt64.le_iff_toNat_le]
      omega
    obtain ⟨improvements, origin⟩ := relaxes_level (node.depth + 1) steps within (by simp [published])
    refine layered.keep silent improvements ?_
    intro key entry present
    rcases origin key entry present with old | ⟨atDepth, pending⟩
    · exact .inl (replaced key entry old)
    · refine .inr ⟨pending, ?_, ?_, fun empty => absurd empty issued⟩ <;> rw [atDepth] <;> omega

/-- A lease opens the layer of the node it takes, which is the one being explored or the next. -/
theorem Layered.lease (layered : Layered events f layer)
    (call : Call) (worker : WorkerId) (candidates : ℕ)
    (read : f.nodes[key]? = some node) (pending : node.phase = .pending)
    (shallowest : f.NoneShallower node.depth) :
    layer ≤ node.depth.toNat ∧
      Layered (events ++ [(call, .ok (.leased (some (f.ticketFor worker key node))))])
        (f.leased worker key node candidates) node.depth.toNat := by
  have opened : layer ≤ node.depth.toNat := layered.ahead key node read (.inl pending)
  have origin : ∀ (other : StateKey) next, (f.leased worker key node candidates).nodes[other]? = some next →
      next.depth = node.depth ∨ f.nodes[other]? = some next := by
    intro other next present
    simp only [Frontier.leased, Frontier.replace, getElem?_insert_eq] at present
    split at present
    · cases present
      exact .inl rfl
    · exact .inr present
  refine ⟨opened, ?_, ?_, ?_, layered.improvements, ?_, ?_⟩
  · intro other next present
    rcases origin other next present with same | old
    · rw [same]
      exact Nat.le_succ _
    · have := layered.within other next old
      omega
  · intro other next present active
    rcases origin other next present with same | old
    · rw [same]
    · exact UInt64.le_iff_toNat_le.mp (shallowest other next old active)
  · intro other next present phase
    rcases origin other next present with same | old
    · rw [same]
    · -- a node still in flight keeps the layer open, so the lease cannot have left it
      have inLayer := layered.inflight other next old phase
      have := UInt64.le_iff_toNat_le.mp (shallowest other next old (.inr phase))
      omega
  · intro ticket member
    simp only [List.filterMap_append, List.filterMap_cons, List.filterMap_nil, Event.issued?, List.mem_append,
      List.mem_singleton] at member
    rcases member with old | rfl
    · exact (layered.issued ticket old).trans opened
    · exact le_rfl
  · simp [Event.issued?]

/-- One call of a layered run; a ticket is as deep as the layer it leaves open. -/
theorem Effect.layered {reply : Except FrontierError Reply} (effect : Effect f call reply g) (linked : Linked f events)
    (layered : Layered events f layer) (roots : RootsFirst (events ++ [(call, reply)]))
    (shallowest : ∀ ticket, reply = .ok (.leased (some ticket)) → f.NoneShallower ticket.depth) :
    ∃ next, layer ≤ next ∧ Layered (events ++ [(call, reply)]) g next ∧
      ∀ ticket, Event.issued? (call, reply) = some ticket → ticket.depth.toNat = next := by
  cases effect with
  | thrown call error =>
    exact ⟨layer, le_rfl, layered.keep rfl rfl fun key next present => .inl ⟨next, present, rfl, id, .inl⟩,
      by simp [Event.issued?]⟩
  | idle isLease =>
    exact ⟨layer, le_rfl, layered.keep rfl rfl fun key next present => .inl ⟨next, present, rfl, id, .inl⟩,
      by simp [Event.issued?]⟩
  | admitted bound supplied steps => exact ⟨layer, le_rfl, layered.admit roots rfl steps, by simp [Event.issued?]⟩
  | @leased _ worker key node candidates isLease read pending available =>
    obtain ⟨opened, next⟩ := layered.lease call worker candidates read pending (shallowest _ rfl)
    refine ⟨node.depth.toNat, opened, next, ?_⟩
    rintro ticket issued
    cases issued
    rfl
  | @committed ticket expansion node g matched compatible read supplied steps =>
    have held := (leaseMatches_iff linked.coherent.toTicketed ticket).mp matched
    have issued := List.ne_nil_of_mem ((linked.holds ticket).mp held).issued
    have committed := layered.commit .committed linked.coherent rfl issued matched compatible read steps
    refine ⟨layer, le_rfl, ?_, by simp [Event.issued?]⟩
    exact ⟨committed.within, committed.ahead, committed.inflight, committed.improvements, committed.issued,
      committed.waiting⟩
  | @lost worker count g requeued =>
    refine ⟨layer, le_rfl, layered.keep rfl (by simp [requeued.counters]) ?_, by simp [Event.issued?]⟩
    intro key next present
    obtain ⟨node, read, rfl⟩ := requeued.read present
    left
    refine ⟨node, read, ?_⟩
    unfold Node.requeued
    split
    · exact ⟨rfl, id, .inl⟩
    · next ticket held =>
      have inflight := (linked.coherent.fits key node read).stored_iff.mp (by simp [held])
      split <;> simp [inflight]

/-- What holds after every part of a run that admits its roots first. -/
structure LayeredRun (f : Frontier) (events : List Event) : Prop where
  linked : Linked f events
  bfs : f.policy = .bfs
  layered : ∃ layer, Layered events f layer
  ordered : (events.filterMap Event.issued?).Pairwise fun first second => first.depth ≤ second.depth

theorem LayeredRun.step (run : LayeredRun f events) (call : Call)
    (roots : RootsFirst (events ++ [(call, (f.call call).1)])) :
    LayeredRun (f.call call).2 (events ++ [(call, (f.call call).1)]) := by
  have effect := call_effect run.linked.coherent call
  obtain ⟨layer, layered⟩ := run.layered
  obtain ⟨next, _, opened, atDepth⟩ := effect.layered run.linked layered roots fun ticket issued =>
    call_noneShallower run.linked.coherent.stored run.bfs issued
  refine ⟨run.linked.step _ effect, effect.policy.trans run.bfs, ⟨next, opened⟩, ?_⟩
  rw [List.filterMap_append, List.pairwise_append]
  refine ⟨run.ordered, ?_, ?_⟩
  · cases issued : Event.issued? (call, (f.call call).1) <;> simp [issued]
  · intro earlier member later issued
    obtain ⟨event, last, issued⟩ := List.mem_filterMap.mp issued
    obtain rfl := List.mem_singleton.mp last
    have := opened.issued earlier (by simp [List.filterMap_append, member])
    have := atDepth later issued
    rw [UInt64.le_iff_toNat_le]
    omega

theorem run_layered {limit maxStates : UInt64} {hasPriority : Bool}
    (success : Frontier.create limit .bfs hasPriority maxStates = .ok f) (calls : List Call)
    (roots : RootsFirst (f.history calls)) : LayeredRun (f.run calls) (f.history calls) := by
  induction calls using List.reverseRecOn with
  | nil =>
    have linked := create_linked success
    unfold Frontier.create at success
    split_ifs at success
    cases success
    exact ⟨linked, rfl, ⟨0, by constructor <;> simp [Frontier.run, Frontier.history]⟩, .nil⟩
  | append_singleton calls call ih =>
    rw [history_snoc] at roots ⊢
    rw [run_snoc]
    exact (ih roots.of_append).step call roots

/-- A node that nothing open undercuts has the depth of a shortest path: what is shallower is finished,
and below the limit it is finished by relaxing its successors. -/
theorem Explores.isDistance {system : System} {roots : Set (StateKey × ℕ)}
    (explores : Explores system roots f []) (read : f.nodes[key]? = some node)
    (shallowest : f.NoneShallower node.depth) : IsDistance system.Step roots key node.depth.toNat := by
  obtain ⟨reached, bound⟩ := explores.attained key node read
  refine ⟨reached, ?_⟩
  intro n other
  by_contra! less
  let label : StateKey → Option ℕ := fun key => f.nodes[key]?.map fun node => node.depth.toNat
  have relaxed : ∀ a n b, label a = some n → n < node.depth.toNat → system.Step a b →
      ∃ m ≤ n + 1, label b = some m := by
    intro a n b labelled below edge
    obtain ⟨source, present, rfl⟩ := Option.map_eq_some_iff.mp labelled
    have finished : source.phase ≠ .pending ∧ source.phase ≠ .inflight := by
      constructor
      · intro phase
        have := UInt64.le_iff_toNat_le.mp (shallowest a source present (.inl phase))
        omega
      · intro phase
        have := UInt64.le_iff_toNat_le.mp (shallowest a source present (.inr phase))
        omega
    have below := UInt64.lt_iff_toNat_lt.mpr below
    exact explores.relaxed_label present finished (by lia) edge
  obtain ⟨m, below, labelled⟩ := label_le_of_reached label explores.rooted_label relaxed other less.le
  simp only [label, read, Option.map_some, Option.some.injEq] at labelled
  omega

/-- Once a ticket is issued the set of roots is fixed. -/
theorem admittedRoots_of_rootsFirst {before after : List Event} {event : Event}
    (roots : RootsFirst (before ++ event :: after)) (isLease : event.1.leases ≠ none)
    (issued : Event.issued? event = some ticket) : admittedRoots (before ++ event :: after) = admittedRoots before := by
  have late : ∀ state depth reply, (Call.admitState state depth, Except.ok reply) ∉ event :: after := by
    intro state depth reply member
    obtain ⟨first, second, split⟩ := List.append_of_mem member
    have silent := (roots (before ++ first) state depth reply second (by simp [split])).2
    cases first with
    | nil =>
      obtain ⟨rfl, _⟩ := List.cons.inj split
      exact isLease rfl
    | cons head rest =>
      obtain ⟨rfl, _⟩ := List.cons.inj split
      simp [silent event (by simp)] at issued
  ext root
  simp only [admittedRoots, List.mem_append, late, or_false]

theorem Effect.issued_read {reply : Except FrontierError Reply}
    (effect : Effect f call reply g) (issued : reply = .ok (.leased (some ticket))) :
    call.leases ≠ none ∧ ∃ node, f.nodes[ticket.state]? = some node ∧ ticket.depth = node.depth := by
  cases effect with
  | @leased _ worker key node candidates isLease read pending available =>
    cases issued
    exact ⟨by simp [isLease], node, read, rfl⟩
  | _ => cases issued

/-- Breadth-first search explores layer by layer, whatever the workers do; if their reports agree with a
system, every lease is made at the distance of its state. -/
theorem bfs_layer_synchronous {limit maxStates : UInt64} {hasPriority : Bool} {f : Frontier}
    (success : Frontier.create limit .bfs hasPriority maxStates = .ok f) (calls : List Call)
    (roots : RootsFirst (f.history calls)) :
    ((f.history calls).filterMap Event.issued?).Pairwise (fun first second => first.depth ≤ second.depth) ∧
    (∀ before after, calls = before ++ after → (f.run before).counters.improvements = 0) ∧
    ∀ before call after ticket, calls = before ++ call :: after →
      ((f.run before).call call).1 = .ok (.leased (some ticket)) →
      (∀ (key : StateKey) node, (f.run before).nodes[key]? = some node →
        node.phase = .pending ∨ node.phase = .inflight → ticket.depth ≤ node.depth) ∧
      ∀ system : System, TruthfulHistory system (f.history calls) →
        IsDistance system.Step (admittedRoots (f.history calls)) ticket.state ticket.depth.toNat := by
  refine ⟨(run_layered success calls roots).ordered, ?_, ?_⟩
  · rintro before after rfl
    rw [history_append] at roots
    obtain ⟨layer, layered⟩ := (run_layered success before roots.of_append).layered
    exact layered.improvements
  · rintro before call after ticket rfl issued
    rw [history_append] at roots ⊢
    have layered := run_layered success before roots.of_append
    have shallowest := call_noneShallower layered.linked.coherent.stored layered.bfs issued
    obtain ⟨isLease, node, read, depth⟩ := (call_effect layered.linked.coherent call).issued_read issued
    refine ⟨shallowest, ?_⟩
    intro system truthful
    have explores := run_explores (create_linked success) (create_limit success).2 before
      fun ticket expansion reply member => truthful ticket expansion reply (List.mem_append_left _ member)
    have announced : Event.issued? (call, ((f.run before).call call).1) = some ticket := by
      rw [issued]
      rfl
    rw [Frontier.history, admittedRoots_of_rootsFirst roots isLease announced, depth]
    exact explores.isDistance read (depth ▸ shallowest)

/-- A state with two successors that share their only successor. -/
def diamond : System := fun key => if key = 1 then {2, 3} else if key = 2 ∨ key = 3 then {4} else ∅

/-- Two workers on `diamond`: one is lost, and the other scores its leases. -/
def diamondCalls : List Call :=
  [.admitState 1 0, .lease 5 (fun _ _ => .ok 0), .commit ⟨1, 5, 1, 0, true⟩ { successors := [2, 3] },
    .leaseScored 5 (fun _ _ => .ok 0) (some fun key => .ok key.toNat) 4, .lease 6 (fun _ _ => .ok 0),
    .commit ⟨2, 6, 3, 1, true⟩ { successors := [4] }, .lease 6 (fun _ _ => .ok 0), .workerLost 5,
    .lease 6 (fun _ _ => .ok 0), .commit ⟨3, 6, 4, 1, true⟩ { successors := [4] }, .lease 6 (fun _ _ => .ok 0),
    .commit ⟨4, 6, 5, 2, false⟩ { kind := .terminal }]

theorem bfs_layer_synchronous_diamond :
    Frontier.create 2 .bfs false 9 = .ok { limit := 2, policy := .bfs, maxStates := 9 } ∧
    ((({ limit := 2, policy := .bfs, maxStates := 9 } : Frontier).history diamondCalls).filterMap
      Event.issued?).map (fun ticket => (ticket.state, ticket.depth)) = [(1, 0), (3, 1), (2, 1), (3, 1), (4, 2)] ∧
    IsDistance diamond.Step (admittedRoots
      (({ limit := 2, policy := .bfs, maxStates := 9 } : Frontier).history diamondCalls)) 4 2 := by
  have created : Frontier.create 2 .bfs false 9 = .ok { limit := 2, policy := .bfs, maxStates := 9 } := rfl
  refine ⟨created, by decide +kernel, ?_⟩
  refine ((bfs_layer_synchronous created diamondCalls ?_).2.2 (diamondCalls.take 10)
    (.lease 6 fun _ _ => .ok 0) (diamondCalls.drop 11) ⟨4, 6, 5, 2, false⟩ rfl (by decide +kernel)).2 diamond ?_
  · intro before state depth reply after split
    cases before with
    | nil =>
      obtain ⟨same, _⟩ := List.cons.inj split
      simp only [Prod.mk.injEq, Call.admitState.injEq] at same
      exact ⟨same.1.2.symm, by simp⟩
    | cons head tail =>
      rw [List.cons_append] at split
      have member : (Call.admitState state depth, Except.ok reply) ∈
          tail ++ (Call.admitState state depth, .ok reply) :: after := by simp
      rw [← (List.cons.inj split).2] at member
      simp [Frontier.history] at member
  · intro ticket expansion reply member
    simp only [diamondCalls, Frontier.history, List.mem_cons, Prod.mk.injEq, reduceCtorEq, false_and, false_or,
      Call.commit.injEq, List.not_mem_nil, or_false] at member
    rcases member with ⟨⟨rfl, rfl⟩, _⟩ | ⟨⟨rfl, rfl⟩, _⟩ | ⟨⟨rfl, rfl⟩, _⟩ | ⟨⟨rfl, rfl⟩, _⟩
    · exact ⟨by decide, by decide⟩
    · exact ⟨by decide, by decide⟩
    · exact ⟨by decide, by decide⟩
    · simp [Truthful, diamond]

end DetSim.Search
