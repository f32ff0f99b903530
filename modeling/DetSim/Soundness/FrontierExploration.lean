import DetSim.ToMathlib.RootedDistance
import DetSim.Soundness.FrontierRuns

/-! # The frontier explores the depth-bounded reachable set

Workers that report truthfully about a finite transition system drive the frontier to the same table
whatever the policy, the interleaving and the losses. Between calls the node depths are attained by
paths from the admitted roots and every expanded node is relaxed; inside a call the queued distances
stand in for relaxations not made yet. When nothing is pending or in flight, this makes the depths the
truncated distances from the roots.
-/

namespace DetSim.Search

open Std ExtTreeMap Relation

variable {f g : Frontier} {a b : Frontier × Work} {node : Node} {key : StateKey} {distance limit : UInt64}

/-- A finite transition system: the states and, for each, its set of successors. -/
abbrev System := StateKey → Finset StateKey

def System.Step (system : System) (a b : StateKey) : Prop := b ∈ system a

/-- A report that agrees with the system. A probe distinguishes only whether there are successors. -/
def Truthful (system : System) (ticket : Ticket) (expansion : Expansion) : Prop :=
  match expansion.kind with
  | .expanded => system ticket.state ≠ ∅ ∧ expansion.successors.toFinset = system ticket.state
  | .terminal => system ticket.state = ∅
  | .depthCut => system ticket.state ≠ ∅
  | .modelBudget | .failure => False

/-- Every commit that was accepted reported truthfully. -/
def TruthfulHistory (system : System) (events : List Event) : Prop :=
  ∀ ticket expansion reply, (Call.commit ticket expansion, Except.ok reply) ∈ events →
    Truthful system ticket expansion

/-- The roots a history admitted, with their depths. -/
def admittedRoots (events : List Event) : Set (StateKey × ℕ) :=
  {root | ∃ depth reply, (Call.admitState root.1 depth, Except.ok reply) ∈ events ∧ root.2 = depth.toNat}

/-- What a finished phase says about the system. -/
structure PhaseFits (system : System) (limit : UInt64) (key : StateKey) (node : Node) : Prop where
  expanded : node.phase = .expanded →
    node.depth < limit ∧ system key ≠ ∅ ∧ node.successors.toFinset = system key
  terminal : node.phase = .terminal → system key = ∅
  cut : node.phase = .depthCut → node.depth = limit ∧ system key ≠ ∅
  regular : node.phase ≠ .modelBudget ∧ node.phase ≠ .failure

/-- A state has a node, or a queued distance, of at most the given depth. -/
def Covered (f : Frontier) (work : Work) (key : StateKey) (bound : ℕ) : Prop :=
  (∃ node, f.nodes[key]? = some node ∧ node.depth.toNat ≤ bound) ∨
    ∃ distance, (key, distance) ∈ work ∧ distance.toNat ≤ bound

/-- The exploration invariant, with the distances still to be relaxed. -/
structure Explores (system : System) (roots : Set (StateKey × ℕ)) (f : Frontier) (work : Work) : Prop where
  attained : ∀ (key : StateKey) node, f.nodes[key]? = some node →
    Reached system.Step roots key node.depth.toNat ∧ node.depth ≤ f.limit
  queued : ∀ item ∈ work, Reached system.Step roots item.1 item.2.toNat ∧ item.2 ≤ f.limit
  rooted : ∀ root ∈ roots, Covered f work root.1 root.2
  relaxed : ∀ (key : StateKey) node, f.nodes[key]? = some node → node.phase = .expanded →
    ∀ successor ∈ node.successors, Covered f work successor (node.depth.toNat + 1)
  fits : ∀ (key : StateKey) node, f.nodes[key]? = some node → PhaseFits system f.limit key node

theorem toNat_add_one_of_lt {value bound : UInt64} (less : value < bound) :
    (value + 1).toNat = value.toNat + 1 :=
  toNat_add_one_of_ne_max (by unfold uint64Max; lia)

/-- A relaxation never uncovers a state. -/
theorem Relaxes.covered (step : Relaxes a b) {bound : ℕ}
    (covered : Covered a.1 a.2 key bound) : Covered b.1 b.2 key bound := by
  rcases covered with ⟨node, read, within⟩ | ⟨distance, member, within⟩
  · obtain ⟨next, present, shortened⟩ := step.evolves.kept key node read
    exact .inl ⟨next, present, (UInt64.le_iff_toNat_le.mp shortened.depth).trans within⟩
  · cases step with
    | @insert f head first rest absent room available =>
      rcases List.mem_cons.mp member with same | later
      · cases same
        exact .inl ⟨⟨distance, .pending, f.nextSequence, none, [], ""⟩, by simp [Frontier.insertPending], within⟩
      · exact .inr ⟨distance, later, within⟩
    | @skip f head first rest node read longer =>
      rcases List.mem_cons.mp member with same | later
      · cases same
        exact .inl ⟨node, read, (UInt64.le_iff_toNat_le.mp longer).trans within⟩
      · exact .inr ⟨distance, later, within⟩
    | @improve f head first rest node read shorter =>
      rcases List.mem_cons.mp member with same | later
      · cases same
        refine .inl ⟨{ node with phase := Frontier.reopened node.phase, depth := distance }, ?_, within⟩
        simp [Frontier.improve, Frontier.update, Frontier.replace]
      · exact .inr ⟨distance, List.mem_append_right _ later, within⟩

theorem PhaseFits.pending (system : System) (limit : UInt64) (key : StateKey)
    (pending : node.phase = .pending) : PhaseFits system limit key node := by
  constructor <;> simp [pending]

/-- Lowering a depth keeps a phase truthful, since a cut node is reopened. -/
theorem PhaseFits.shorten {system : System}
    (fits : PhaseFits system limit key node) (shorter : distance < node.depth) :
    PhaseFits system limit key { node with phase := Frontier.reopened node.phase, depth := distance } := by
  have expanded := fits.expanded
  have terminal := fits.terminal
  have regular := fits.regular
  cases phase : node.phase <;> constructor <;> simp_all [Frontier.reopened]
  have := (fits.expanded phase).1
  lia

variable {system : System} {roots : Set (StateKey × ℕ)}

theorem Explores.insertPending {rest : Work}
    (explores : Explores system roots f ((key, distance) :: rest)) (absent : f.nodes[key]? = none)
    (room : f.nodes.size ≠ f.maxStates.toNat) (available : f.nextSequence ≠ uint64Max) :
    Explores system roots (f.insertPending key distance) rest := by
  have step : Relaxes (f, (key, distance) :: rest) (f.insertPending key distance, rest) :=
    .insert absent room available
  have origin : ∀ (other : StateKey) node, (f.insertPending key distance).nodes[other]? = some node →
      (other = key ∧ node.depth = distance ∧ node.phase = .pending) ∨ f.nodes[other]? = some node := by
    intro other node present
    simp only [Frontier.insertPending, getElem?_insert_eq] at present
    split at present
    · next same =>
      cases present
      exact .inl ⟨same.symm, rfl, rfl⟩
    · exact .inr present
  have head := explores.queued _ List.mem_cons_self
  refine ⟨?_, fun item member => explores.queued item (List.mem_cons_of_mem _ member),
    fun root member => step.covered (explores.rooted root member), ?_, ?_⟩
  · intro other node present
    rcases origin other node present with ⟨rfl, rfl, _⟩ | old
    · exact head
    · exact explores.attained other node old
  · intro other node present expanded successor member
    rcases origin other node present with ⟨_, _, pending⟩ | old
    · rw [pending] at expanded
      contradiction
    · exact step.covered (explores.relaxed other node old expanded successor member)
  · intro other node present
    rcases origin other node present with ⟨_, _, pending⟩ | old
    · exact .pending _ _ _ pending
    · exact explores.fits other node old

theorem Explores.improve {rest : Work}
    (explores : Explores system roots f ((key, distance) :: rest)) (read : f.nodes[key]? = some node)
    (shorter : distance < node.depth) :
    Explores system roots (f.countDuplicate.improve key node distance)
      (Frontier.relaxations node distance ++ rest) := by
  have step : Relaxes (f, (key, distance) :: rest)
    (f.countDuplicate.improve key node distance, Frontier.relaxations node distance ++ rest) :=
    .improve read shorter
  have origin : ∀ (other : StateKey) entry,
      (f.countDuplicate.improve key node distance).nodes[other]? = some entry →
      (other = key ∧ entry = { node with phase := Frontier.reopened node.phase, depth := distance }) ∨
        f.nodes[other]? = some entry := by
    intro other entry present
    rw [getElem?_improve] at present
    split at present
    · next same =>
      cases present
      exact .inl ⟨same.symm, rfl⟩
    · exact .inr present
  have head := explores.queued _ List.mem_cons_self
  have fits := explores.fits key node read
  have next : (distance + 1).toNat = distance.toNat + 1 := toNat_add_one_of_lt shorter
  refine ⟨?_, ?_, fun root member => step.covered (explores.rooted root member), ?_, ?_⟩
  · intro other entry present
    rcases origin other entry present with ⟨rfl, rfl⟩ | old
    · exact head
    · exact explores.attained other entry old
  · intro item member
    rcases List.mem_append.mp member with pushed | later
    · unfold Frontier.relaxations at pushed
      split at pushed
      · next expanded =>
        obtain ⟨successor, recorded, rfl⟩ := List.mem_map.mp pushed
        obtain ⟨below, _, successors⟩ := fits.expanded expanded
        refine ⟨?_, ?_⟩
        · rw [next]
          refine head.1.next ?_
          rw [System.Step, ← successors, List.mem_toFinset]
          exact recorded
        · change distance + 1 ≤ f.limit
          lia
      · simp at pushed
    · exact explores.queued item (List.mem_cons_of_mem _ later)
  · intro other entry present expanded successor member
    rcases origin other entry present with ⟨rfl, rfl⟩ | old
    · have wasExpanded : node.phase = .expanded := by
        simp only [Frontier.reopened] at expanded
        split at expanded <;> simp_all
      refine .inr ⟨distance + 1, List.mem_append_left _ ?_, next.le⟩
      rw [Frontier.relaxations, if_pos wasExpanded]
      exact List.mem_map_of_mem member
    · exact step.covered (explores.relaxed other entry old expanded successor member)
  · intro other entry present
    rcases origin other entry present with ⟨rfl, rfl⟩ | old
    · exact fits.shorten shorter
    · exact explores.fits other entry old

theorem Relaxes.explores (step : Relaxes a b)
    (explores : Explores system roots a.1 a.2) : Explores system roots b.1 b.2 := by
  cases step with
  | insert absent room available => exact explores.insertPending absent room available
  | @skip f key distance rest node read longer =>
    have step : Relaxes (f, (key, distance) :: rest) (f.countDuplicate, rest) := .skip read longer
    exact ⟨explores.attained, fun item member => explores.queued item (List.mem_cons_of_mem _ member),
      fun root member => step.covered (explores.rooted root member),
      fun key node read expanded successor member =>
        step.covered (explores.relaxed key node read expanded successor member), explores.fits⟩
  | improve read shorter => exact explores.improve read shorter

theorem explores_of_relaxes (steps : ReflTransGen Relaxes a b)
    (explores : Explores system roots a.1 a.2) : Explores system roots b.1 b.2 :=
  Relaxes.invariant (P := fun state => Explores system roots state.1 state.2)
    (fun _ _ step => step.explores) steps explores

theorem admittedRoots_snoc_of_other {events : List Event} {event : Event}
    (other : ∀ state depth reply, event ≠ (.admitState state depth, .ok reply)) :
    admittedRoots (events ++ [event]) = admittedRoots events := by
  ext root
  simp only [admittedRoots, List.mem_append, List.mem_singleton, Set.mem_ofPred_eq]
  refine exists_congr fun depth => exists_congr fun reply => and_congr_left' (or_iff_left ?_)
  exact fun same => other _ _ _ same.symm

theorem admittedRoots_snoc_admitted (events : List Event) (state : StateKey) (depth : UInt64) (reply : Reply) :
    admittedRoots (events ++ [(.admitState state depth, .ok reply)]) =
      insert (state, depth.toNat) (admittedRoots events) := by
  ext ⟨key, bound⟩
  simp only [admittedRoots, List.mem_append, List.mem_singleton, Set.mem_ofPred_eq, Set.mem_insert_iff,
    Prod.mk.injEq, Call.admitState.injEq, Except.ok.injEq]
  constructor
  · rintro ⟨other, answer, old | ⟨⟨rfl, rfl⟩, _⟩, rfl⟩
    · exact .inr ⟨other, answer, old, rfl⟩
    · exact .inl ⟨rfl, rfl⟩
  · rintro (⟨rfl, rfl⟩ | ⟨other, answer, old, rfl⟩)
    · exact ⟨depth, reply, .inr ⟨⟨rfl, rfl⟩, rfl⟩, rfl⟩
    · exact ⟨other, answer, .inl old, rfl⟩

/-- A new root is queued at its depth. -/
theorem Explores.admitRoot (explores : Explores system roots f []) {state : StateKey}
    {depth : UInt64} (bound : depth ≤ f.limit) :
    Explores system (insert (state, depth.toNat) roots) f [(state, depth)] where
  attained key node read :=
    (explores.attained key node read).imp_left (·.mono (Set.subset_insert _ _))
  queued := by
    intro item member
    rw [List.mem_singleton.mp member]
    exact ⟨.root (Set.mem_insert _ _), bound⟩
  rooted := by
    rintro root (rfl | old)
    · exact .inr ⟨depth, List.mem_singleton_self _, le_rfl⟩
    · exact (explores.rooted root old).imp_right (by simp)
  relaxed key node read expanded successor member :=
    (explores.relaxed key node read expanded successor member).imp_right (by simp)
  fits := explores.fits

/-- Rewriting a node at its depth, with a phase the system agrees with, keeps the exploration; the
successors of a node that becomes expanded are queued. -/
theorem Explores.replace (explores : Explores system roots f []) (read : f.nodes[key]? = some node) (next : Node)
    (depth : next.depth = node.depth)
    (fits : PhaseFits system f.limit key next) (work : Work)
    (queued : ∀ item ∈ work, Reached system.Step roots item.1 item.2.toNat ∧ item.2 ≤ f.limit)
    (published : next.phase = .expanded → ∀ successor ∈ next.successors,
      Covered f work successor (next.depth.toNat + 1)) :
    Explores system roots (f.replace key node next) work := by
  have covered : ∀ {other bound}, Covered f [] other bound ∨ Covered f work other bound →
      Covered (f.replace key node next) work other bound := by
    rintro other bound known
    have known : Covered f work other bound := known.elim (fun old => old.imp_right (by simp)) id
    rcases known with ⟨stored, present, within⟩ | queued
    · left
      simp only [Frontier.replace, getElem?_insert_eq]
      by_cases same : key = other
      · subst same
        obtain rfl : node = stored := Option.some.inj (read.symm.trans present)
        exact ⟨next, if_pos rfl, depth ▸ within⟩
      · exact ⟨stored, (if_neg same).trans present, within⟩
    · exact .inr queued
  have origin : ∀ (other : StateKey) entry, (f.replace key node next).nodes[other]? = some entry →
      (other = key ∧ entry = next) ∨ f.nodes[other]? = some entry := by
    intro other entry present
    simp only [Frontier.replace, getElem?_insert_eq] at present
    split at present
    · next same =>
      cases present
      exact .inl ⟨same.symm, rfl⟩
    · exact .inr present
  refine ⟨?_, queued, fun root member => covered (.inl (explores.rooted root member)), ?_, ?_⟩
  · intro other entry present
    rcases origin other entry present with ⟨rfl, rfl⟩ | old
    · rw [depth]
      exact explores.attained other node read
    · exact explores.attained other entry old
  · intro other entry present expanded successor member
    rcases origin other entry present with ⟨rfl, rfl⟩ | old
    · exact covered (.inr (published expanded successor member))
    · exact covered (.inl (explores.relaxed other entry old expanded successor member))
  · intro other entry present
    rcases origin other entry present with ⟨rfl, rfl⟩ | old
    · exact fits
    · exact explores.fits other entry old

/-- A truthful commit of a stored ticket leaves a phase the system agrees with. -/
theorem Truthful.committed_fits {nextLease : UInt64} {ticket : Ticket} {expansion : Expansion}
    (truthful : Truthful system ticket expansion) (fits : TicketFits limit nextLease ticket.state node)
    (held : node.ticket = some ticket) (bound : node.depth ≤ limit)
    (compatible : Frontier.expansionError? ticket expansion = none) :
    PhaseFits system limit ticket.state (node.committed limit expansion) := by
  obtain ⟨_, _, expand, shallow⟩ := fits.issued ticket held
  obtain ⟨mayExpand, probe, _⟩ := expansionError?_eq_none compatible
  unfold Truthful at truthful
  cases kind : expansion.kind with
  | expanded =>
    have below : ticket.depth < limit := by simpa [expand] using mayExpand kind
    have deep : node.depth < limit := by lia
    rw [kind] at truthful
    constructor <;> simp [Node.committed, kind, ResultKind.phase, deep, truthful]
  | terminal =>
    rw [kind] at truthful
    constructor <;> simp [Node.committed, kind, ResultKind.phase, truthful]
  | depthCut =>
    rw [kind] at truthful
    by_cases deep : node.depth < limit
    · exact .pending _ _ _ (by simp [Node.committed, kind, ResultKind.phase, deep])
    · have atLimit : node.depth = limit := by lia
      constructor <;> simp [Node.committed, kind, ResultKind.phase, atLimit, truthful]
  | modelBudget => simp [kind] at truthful
  | failure => simp [kind] at truthful

/-- Only the node table and the limit matter for the exploration. -/
theorem Explores.congr {work : Work} (explores : Explores system roots f work)
    (nodes : g.nodes = f.nodes) (limit : g.limit = f.limit) : Explores system roots g work := by
  obtain ⟨attained, queued, rooted, relaxed, fits⟩ := explores
  simp only [Covered] at rooted relaxed
  constructor <;> simpa only [Covered, nodes, limit]

theorem Explores.requeue {worker : WorkerId} {count : ℕ}
    (explores : Explores system roots f []) (requeued : Requeued worker f g count) :
    Explores system roots g [] := by
  have depth : ∀ node : Node, (node.requeued worker).depth = node.depth := by
    intro node
    unfold Node.requeued
    split
    · rfl
    · split <;> rfl
  have phase : ∀ node : Node, node.requeued worker = node ∨ (node.requeued worker).phase = .pending := by
    intro node
    unfold Node.requeued
    split
    · exact .inl rfl
    · split
      · exact .inr rfl
      · exact .inl rfl
  have covered : ∀ {key bound}, Covered f [] key bound → Covered g [] key bound := by
    rintro key bound (⟨node, read, within⟩ | ⟨_, member, _⟩)
    · exact .inl ⟨node.requeued worker, by simp [requeued.nodes, read], (depth node).symm ▸ within⟩
    · simp at member
  refine ⟨?_, by simp, fun root member => covered (explores.rooted root member), ?_, ?_⟩
  · intro key next present
    obtain ⟨node, read, rfl⟩ := requeued.read present
    rw [depth, requeued.limit]
    exact explores.attained key node read
  · intro key next present expanded successor member
    obtain ⟨node, read, rfl⟩ := requeued.read present
    rcases phase node with same | pending
    · rw [same] at expanded member ⊢
      exact covered (explores.relaxed key node read expanded successor member)
    · rw [pending] at expanded
      contradiction
  · intro key next present
    obtain ⟨node, read, rfl⟩ := requeued.read present
    rw [requeued.limit]
    rcases phase node with same | pending
    · rw [same]
      exact explores.fits key node read
    · exact .pending _ _ _ pending

/-- One call with a truthful report keeps the exploration invariant. -/
theorem Effect.explores {call : Call} {reply : Except FrontierError Reply} {events : List Event}
    (effect : Effect f call reply g) (coherent : Coherent f)
    (explores : Explores system (admittedRoots events) f [])
    (truthful : TruthfulHistory system (events ++ [(call, reply)])) :
    Explores system (admittedRoots (events ++ [(call, reply)])) g [] := by
  cases effect with
  | thrown call error =>
    rw [admittedRoots_snoc_of_other (by simp)]
    exact explores
  | idle isLease =>
    rw [admittedRoots_snoc_of_other (by cases call <;> simp_all [Call.leases])]
    exact explores
  | admitted bound supplied steps =>
    rw [admittedRoots_snoc_admitted]
    exact explores_of_relaxes steps (explores.admitRoot bound)
  | @leased _ worker key node candidates isLease read pending available =>
    rw [admittedRoots_snoc_of_other (by cases call <;> simp_all [Call.leases])]
    have replaced := explores.replace read { node with
      phase := .inflight, ticket := some (f.ticketFor worker key node) } rfl
      (by constructor <;> simp) [] (by simp) (by simp)
    exact replaced.congr rfl rfl
  | @committed ticket expansion node g matched compatible read supplied steps =>
    rw [admittedRoots_snoc_of_other (by simp)]
    obtain ⟨same, again, held⟩ := (leaseMatches_iff coherent.toTicketed ticket).mp matched
    obtain rfl : node = same := Option.some.inj (read.symm.trans again)
    have truthful := truthful ticket expansion .committed (by simp)
    have ticketFits := coherent.fits _ _ read
    obtain ⟨reached, bound⟩ := explores.attained _ _ read
    have fits := truthful.committed_fits ticketFits held bound compatible
    have reported : expansion.successors ≠ [] → (node.committed f.limit expansion).phase = .expanded := by
      intro some
      simp [Node.committed, (expansionError?_eq_none compatible).2.2 some, ResultKind.phase]
    have next : expansion.successors ≠ [] → node.depth < f.limit := fun some => (fits.expanded (reported some)).1
    have replaced : Explores system (admittedRoots events)
        (f.replace ticket.state node (node.committed f.limit expansion)) (published node expansion) := by
      refine explores.replace read (node.committed f.limit expansion) rfl fits _ ?_ ?_
      · intro item member
        obtain ⟨successor, recorded, rfl⟩ := List.mem_map.mp member
        have some := List.ne_nil_of_mem recorded
        have below := next some
        refine ⟨?_, ?_⟩
        · rw [toNat_add_one_of_lt below]
          refine reached.next ?_
          rw [System.Step, ← (fits.expanded (reported some)).2.2, List.mem_toFinset]
          exact recorded
        · change node.depth + 1 ≤ f.limit
          lia
      · intro _ successor member
        have below := next (List.ne_nil_of_mem member)
        exact .inr ⟨node.depth + 1, List.mem_map_of_mem member, (toNat_add_one_of_lt below).le⟩
    exact (explores_of_relaxes steps replaced).congr rfl rfl
  | lost requeued =>
    rw [admittedRoots_snoc_of_other (by simp)]
    exact (explores.requeue requeued).congr rfl rfl

theorem run_explores (start : Linked f []) (empty : f.nodes = ∅) (calls : List Call)
    (truthful : TruthfulHistory system (f.history calls)) :
    Explores system (admittedRoots (f.history calls)) (f.run calls) [] := by
  induction calls using List.reverseRecOn with
  | nil =>
    have none : ∀ key : StateKey, f.nodes[key]? = none := by simp [empty]
    constructor <;> simp [Frontier.run, Frontier.history, none, admittedRoots]
  | append_singleton calls call ih =>
    rw [history_snoc] at truthful ⊢
    rw [run_snoc]
    have linked := run_linked start calls
    refine (call_effect linked.coherent call).explores linked.coherent (ih ?_) truthful
    exact fun ticket expansion reply member => truthful ticket expansion reply (List.mem_append_left _ member)

/-- The phase a finished search gives to a state found at a depth. -/
def finalPhase (system : System) (limit : UInt64) (key : StateKey) (depth : UInt64) : NodePhase :=
  if system key = ∅ then .terminal else if depth = limit then .depthCut else .expanded

/-- No work is left: every node is expanded, terminal or cut. -/
def Settled (f : Frontier) : Prop :=
  ∀ (key : StateKey) node, f.nodes[key]? = some node → node.phase ≠ .pending ∧ node.phase ≠ .inflight

theorem PhaseFits.eq_finalPhase
    (fits : PhaseFits system limit key node) (settled : node.phase ≠ .pending ∧ node.phase ≠ .inflight) :
    node.phase = finalPhase system limit key node.depth := by
  have regular := fits.regular
  cases phase : node.phase with
  | pending => exact absurd phase settled.1
  | inflight => exact absurd phase settled.2
  | expanded =>
    obtain ⟨below, occupied, _⟩ := fits.expanded phase
    have different : node.depth ≠ limit := by lia
    simp [finalPhase, occupied, different]
  | terminal => simp [finalPhase, fits.terminal phase]
  | depthCut =>
    obtain ⟨atLimit, occupied⟩ := fits.cut phase
    simp [finalPhase, occupied, atLimit]
  | modelBudget => exact absurd phase regular.1
  | failure => exact absurd phase regular.2

theorem Explores.rooted_label (explores : Explores system roots f []) (root : StateKey × ℕ)
    (member : root ∈ roots) :
    ∃ n ≤ root.2, f.nodes[root.1]?.map (fun node => node.depth.toNat) = some n := by
  rcases explores.rooted root member with ⟨node, read, within⟩ | ⟨_, queued, _⟩
  · exact ⟨node.depth.toNat, within, by simp [read]⟩
  · simp at queued

/-- A finished node below the limit is relaxed along every edge of the system. -/
theorem Explores.relaxed_label (explores : Explores system roots f []) {a b : StateKey}
    (read : f.nodes[a]? = some node) (finished : node.phase ≠ .pending ∧ node.phase ≠ .inflight)
    (below : node.depth < f.limit) (edge : system.Step a b) :
    ∃ n ≤ node.depth.toNat + 1, f.nodes[b]?.map (fun node => node.depth.toNat) = some n := by
  have fits := explores.fits a node read
  have deeper : node.depth ≠ f.limit := by lia
  have occupied : system a ≠ ∅ := Finset.ne_empty_of_mem edge
  have expanded : node.phase = .expanded := by
    rw [fits.eq_finalPhase finished, finalPhase, if_neg occupied, if_neg deeper]
  have recorded : b ∈ node.successors := by
    rw [← List.mem_toFinset, (fits.expanded expanded).2.2]
    exact edge
  rcases explores.relaxed a node read expanded b recorded with ⟨next, present, within⟩ | ⟨_, queued, _⟩
  · exact ⟨next.depth.toNat, within, by simp [present]⟩
  · simp at queued

/-- In a settled exploration the depths are the distances from the roots, cut off at the limit. -/
theorem Explores.depth_iff (explores : Explores system roots f []) (settled : Settled f)
    (key : StateKey) (n : ℕ) :
    f.nodes[key]?.map (fun node => node.depth.toNat) = some n ↔
      IsDistance system.Step roots key n ∧ n ≤ f.limit.toNat := by
  refine label_eq_some_iff (fun key => f.nodes[key]?.map fun node => node.depth.toNat) ?_
    explores.rooted_label ?_ key n
  · intro key n labelled
    obtain ⟨node, read, rfl⟩ := Option.map_eq_some_iff.mp labelled
    obtain ⟨reached, bound⟩ := explores.attained key node read
    exact ⟨reached, UInt64.le_iff_toNat_le.mp bound⟩
  · intro a n b labelled below edge
    obtain ⟨node, read, rfl⟩ := Option.map_eq_some_iff.mp labelled
    exact explores.relaxed_label read (settled a node read) (UInt64.lt_iff_toNat_lt.mpr below) edge

/-- A search that is no longer running has no work left and no failed or budget-cut node. -/
theorem Explores.status_of_done (explores : Explores system roots f []) (coherent : Coherent f)
    (healthy : f.poisoned = false) (done : f.status ≠ .running) :
    Settled f ∧ (f.status = .complete ∨ f.status = .bounded) ∧
      (f.status = .complete ↔ ∀ (key : StateKey) node, f.nodes[key]? = some node → node.phase ≠ .depthCut) := by
  have none : ∀ phase, f.indexes.phaseCounts phase = 0 ↔
      ∀ (key : StateKey) node, f.nodes[key]? = some node → node.phase ≠ phase := by
    intro phase
    rw [coherent.stored.indexed.phaseCounts, countValues_eq_zero_iff]
    simp [Node.hasPhase]
  have noFailure := (none .failure).mpr fun key node read => (explores.fits key node read).regular.2
  have noBudget := (none .modelBudget).mpr fun key node read => (explores.fits key node read).regular.1
  rw [← none]
  simp only [Frontier.status, healthy, noFailure, noBudget, Bool.false_eq_true, if_false, ne_eq,
    not_true_eq_false, or_false] at done ⊢
  split at done
  · exact absurd rfl done
  next idle =>
  rw [not_or, not_not, not_not] at idle
  refine ⟨fun key node read => ⟨(none .pending).mp idle.1 key node read, (none .inflight).mp idle.2 key node read⟩,
    ?_, ?_⟩
  · rw [idle.1, idle.2]
    split_ifs <;> simp_all
  · rw [idle.1, idle.2]
    by_cases cut : f.indexes.phaseCounts .depthCut = 0 <;> simp [cut]

/-- Two finished explorations from the same roots to the same limit have the same table. -/
theorem Explores.table_eq (left : Explores system roots f []) (right : Explores system roots g [])
    (leftSettled : Settled f) (rightSettled : Settled g) (limit : f.limit = g.limit) (key : StateKey) :
    f.nodes[key]?.map (fun node => (node.depth, node.phase)) =
      g.nodes[key]?.map (fun node => (node.depth, node.phase)) := by
  have depths : f.nodes[key]?.map (fun node => node.depth.toNat) =
      g.nodes[key]?.map (fun node => node.depth.toNat) := by
    apply Option.ext
    intro n
    rw [left.depth_iff leftSettled, right.depth_iff rightSettled, limit]
  cases first : f.nodes[key]? with
  | none => cases second : g.nodes[key]? <;> simp_all
  | some node =>
    cases second : g.nodes[key]? with
    | none => simp_all
    | some other =>
      have same : node.depth = other.depth := by simpa [first, second, UInt64.toNat_inj] using depths
      have leftPhase := (left.fits key node first).eq_finalPhase (leftSettled key node first)
      have rightPhase := (right.fits key other second).eq_finalPhase (rightSettled key other second)
      simp [same, leftPhase, rightPhase, limit]

theorem create_limit {maxStates : UInt64} {policy : Policy} {hasPriority : Bool}
    (success : Frontier.create limit policy hasPriority maxStates = .ok f) : f.limit = limit ∧ f.nodes = ∅ := by
  unfold Frontier.create at success
  split at success
  · contradiction
  split at success
  · contradiction
  cases success
  exact ⟨rfl, rfl⟩

/-- The depth-bounded reachable set is explored exactly, whatever the schedule. -/
theorem explored_exactly {limit maxStates : UInt64} {policy : Policy} {hasPriority : Bool} {f : Frontier}
    (success : Frontier.create limit policy hasPriority maxStates = .ok f) (system : System) (calls : List Call)
    (truthful : TruthfulHistory system (f.history calls)) (done : (f.run calls).status ≠ .running) :
    (∀ key : StateKey, (∃ node, (f.run calls).nodes[key]? = some node) ↔
      ∃ n ≤ limit.toNat, IsDistance system.Step (admittedRoots (f.history calls)) key n) ∧
    (∀ (key : StateKey) node, (f.run calls).nodes[key]? = some node →
      IsDistance system.Step (admittedRoots (f.history calls)) key node.depth.toNat ∧
      (node.phase = .depthCut → node.depth = limit ∧ system key ≠ ∅) ∧
      (node.phase ≠ .depthCut → node.phase = if system key = ∅ then .terminal else .expanded)) ∧
    ((f.run calls).status = .complete ∨ (f.run calls).status = .bounded) ∧
    ((f.run calls).status = .complete ↔
      ∀ (key : StateKey) node, (f.run calls).nodes[key]? = some node → node.phase ≠ .depthCut) ∧
    (∀ (otherPolicy : Policy) (otherPriority : Bool) (otherStates : UInt64) (g : Frontier) (others : List Call),
      Frontier.create limit otherPolicy otherPriority otherStates = .ok g →
      TruthfulHistory system (g.history others) → (g.run others).status ≠ .running →
      admittedRoots (g.history others) = admittedRoots (f.history calls) →
      ∀ key : StateKey, (g.run others).nodes[key]?.map (fun node => (node.depth, node.phase)) =
        (f.run calls).nodes[key]?.map (fun node => (node.depth, node.phase))) := by
  have finished : ∀ {policy hasPriority maxStates f calls},
      Frontier.create limit policy hasPriority maxStates = .ok f → TruthfulHistory system (f.history calls) →
      (f.run calls).status ≠ .running →
      Explores system (admittedRoots (f.history calls)) (f.run calls) [] ∧ (f.run calls).limit = limit ∧
        Settled (f.run calls) ∧
        ((f.run calls).status = .complete ∨ (f.run calls).status = .bounded) ∧
        ((f.run calls).status = .complete ↔
          ∀ (key : StateKey) node, (f.run calls).nodes[key]? = some node → node.phase ≠ .depthCut) := by
    intro policy hasPriority maxStates f calls success truthful done
    obtain ⟨atLimit, empty⟩ := create_limit success
    have start := create_linked success
    have linked := run_linked start calls
    have explores := run_explores start empty calls truthful
    exact ⟨explores, (run_limit start calls).trans atLimit,
      explores.status_of_done linked.coherent linked.healthy done⟩
  obtain ⟨explores, atLimit, settled, ended, complete⟩ := finished success truthful done
  refine ⟨?_, ?_, ended, complete, ?_⟩
  · intro key
    constructor
    · rintro ⟨node, read⟩
      obtain ⟨distance, bound⟩ := (explores.depth_iff settled key node.depth.toNat).mp (by simp [read])
      exact ⟨_, atLimit ▸ bound, distance⟩
    · rintro ⟨n, bound, distance⟩
      have labelled := (explores.depth_iff settled key n).mpr ⟨distance, atLimit.symm ▸ bound⟩
      obtain ⟨node, read, _⟩ := Option.map_eq_some_iff.mp labelled
      exact ⟨node, read⟩
  · intro key node read
    have fits := explores.fits key node read
    have phase := fits.eq_finalPhase (settled key node read)
    refine ⟨((explores.depth_iff settled key _).mp (by simp [read])).1, ?_, ?_⟩
    · intro cut
      exact atLimit ▸ fits.cut cut
    · intro uncut
      rw [phase, finalPhase] at uncut ⊢
      split_ifs at uncut ⊢ <;> simp_all
  · intro otherPolicy otherPriority otherStates g others created reported ended roots key
    obtain ⟨second, otherLimit, otherSettled, _⟩ := finished created reported ended
    rw [roots] at second
    exact second.table_eq explores otherSettled settled (otherLimit.trans atLimit.symm) key

/-- Two states that lead to each other. -/
def pingPong : System := fun key => if key = 1 then {2} else if key = 2 then {1} else ∅

/-- A depth-first search of `pingPong` to depth one in which a worker is lost during a probe. -/
def pingPongCalls : List Call :=
  [.admitState 1 0, .lease 5 (fun _ _ => .ok 0), .commit ⟨1, 5, 1, 0, true⟩ { successors := [2] },
    .lease 6 (fun _ _ => .ok 0), .workerLost 6, .lease 7 (fun _ _ => .ok 0),
    .commit ⟨2, 7, 3, 1, false⟩ { kind := .depthCut }]

theorem explored_exactly_pingPong :
    Frontier.create 1 .dfs false 9 = .ok { limit := 1, policy := .dfs, maxStates := 9 } ∧
    ∀ key : StateKey, (∃ node, (({ limit := 1, policy := .dfs, maxStates := 9 } : Frontier).run
        pingPongCalls).nodes[key]? = some node) ↔
      ∃ n ≤ 1, IsDistance pingPong.Step (admittedRoots
        (({ limit := 1, policy := .dfs, maxStates := 9 } : Frontier).history pingPongCalls)) key n := by
  have created : Frontier.create 1 .dfs false 9 = .ok { limit := 1, policy := .dfs, maxStates := 9 } := rfl
  refine ⟨created, (explored_exactly created pingPong pingPongCalls ?_ (by decide +kernel)).1⟩
  intro ticket expansion reply member
  simp only [pingPongCalls, Frontier.history, List.mem_cons, Prod.mk.injEq, reduceCtorEq, false_and, false_or,
    Call.commit.injEq, List.not_mem_nil, or_false] at member
  rcases member with ⟨⟨rfl, rfl⟩, _⟩ | ⟨⟨rfl, rfl⟩, _⟩
  · exact ⟨by decide, by decide⟩
  · simp [Truthful, pingPong]

end DetSim.Search
