import DetSim.Soundness.FrontierIndexes

/-! # Distance propagation as a sequence of relaxations

One iteration of `propagate` is a step on the frontier and the work list. A step inserts a missing
state, skips a distance that is no improvement, or lowers a depth and queues the successors of an
expanded node. Whatever every step preserves, `propagate` preserves; and if the table already holds
or queues every recorded successor, with room for the queued states, no step can throw.
-/

namespace DetSim.Search

open Std ExtTreeMap Relation

/-- Distances still to be relaxed, next one first. -/
abbrev Work := List (StateKey × UInt64)

variable {f : Frontier} {a b : Frontier × Work} {node : Node} {key : StateKey} {distance : UInt64}

/-- One iteration of `propagate` that does not throw. -/
inductive Relaxes : Frontier × Work → Frontier × Work → Prop
  | insert {f : Frontier} {key : StateKey} {distance : UInt64} {rest : Work}
      (absent : f.nodes[key]? = none) (room : f.nodes.size ≠ f.maxStates.toNat)
      (available : f.nextSequence ≠ uint64Max) :
      Relaxes (f, (key, distance) :: rest) (f.insertPending key distance, rest)
  | skip {f : Frontier} {key : StateKey} {distance : UInt64} {rest : Work} {node : Node}
      (read : f.nodes[key]? = some node) (longer : node.depth ≤ distance) :
      Relaxes (f, (key, distance) :: rest) (f.countDuplicate, rest)
  | improve {f : Frontier} {key : StateKey} {distance : UInt64} {rest : Work} {node : Node}
      (read : f.nodes[key]? = some node) (shorter : distance < node.depth) :
      Relaxes (f, (key, distance) :: rest)
        (f.countDuplicate.improve key node distance, Frontier.relaxations node distance ++ rest)

/-- `propagate` runs relaxations, and runs out of work when it does not throw. -/
theorem propagate_relaxes (f : Frontier) (work : Work) :
    ∃ rest, ReflTransGen Relaxes (f, work) ((f.propagate work).2, rest) ∧
      ((f.propagate work).1 = .ok () → rest = []) := by
  fun_induction Frontier.propagate f work with
  | case1 f => exact ⟨[], .refl, fun _ => rfl⟩
  | case2 f key distance rest absent full => exact ⟨_, .refl, nofun⟩
  | case3 f key distance rest absent room exhausted => exact ⟨_, .refl, nofun⟩
  | case4 f key distance rest absent room available ih =>
    obtain ⟨left, steps, done⟩ := ih
    exact ⟨left, .head (.insert absent room available) steps, done⟩
  | case5 f key distance rest node read longer ih =>
    obtain ⟨left, steps, done⟩ := ih
    exact ⟨left, .head (.skip read longer) steps, done⟩
  | case6 f key distance rest node read shorter ih =>
    obtain ⟨left, steps, done⟩ := ih
    exact ⟨left, .head (.improve read (UInt64.not_le.mp shorter)) steps, done⟩

/-- What every relaxation keeps, any number of relaxations keep. -/
theorem Relaxes.invariant {P : Frontier × Work → Prop} (step : ∀ a b, Relaxes a b → P a → P b)
    (steps : ReflTransGen Relaxes a b) (start : P a) : P b := by
  induction steps with
  | refl => exact start
  | tail _ last ih => exact step _ _ last ih

/-- Work is processed in order: a concatenated list is two propagations in a row. -/
theorem propagate_append (f : Frontier) (first second : Work) :
    f.propagate (first ++ second) = match f.propagate first with
      | (.ok _, g) => g.propagate second
      | (.error error, g) => (.error error, g) := by
  fun_induction Frontier.propagate f first with
  | case1 f => rfl
  | case2 f key distance rest absent full =>
    rw [List.cons_append, Frontier.propagate]
    split <;> simp_all
  | case3 f key distance rest absent room exhausted =>
    rw [List.cons_append, Frontier.propagate]
    split <;> simp_all
  | case4 f key distance rest absent room available ih =>
    rw [List.cons_append, Frontier.propagate]
    split <;> simp_all
  | case5 f key distance rest node read longer ih =>
    rw [List.cons_append, Frontier.propagate]
    split <;> simp_all
  | case6 f key distance rest node read shorter ih =>
    rw [List.cons_append, Frontier.propagate]
    split <;> simp_all

theorem Relaxes.stored (step : Relaxes a b) (stored : Stored a.1) : Stored b.1 := by
  cases step with
  | insert absent room available => exact stored.insertPending _ absent room available
  | skip read longer =>
    exact ⟨stored.indexed, stored.below, stored.distinct, stored.admitted, stored.sequenced, stored.capacity⟩
  | @improve f key distance rest node read shorter =>
    have replaced : Stored (f.replace key node { node with
      phase := Frontier.reopened node.phase, depth := distance }) := stored.replace read rfl
    exact ⟨replaced.indexed, replaced.below, replaced.distinct, replaced.admitted, replaced.sequenced,
      replaced.capacity⟩

/-- A node after relaxations: only its depth may drop, and a cut node may be reopened by that. -/
structure Shortened (node next : Node) : Prop where
  ticket : next.ticket = node.ticket
  sequence : next.sequence = node.sequence
  successors : next.successors = node.successors
  reason : next.reason = node.reason
  depth : next.depth ≤ node.depth
  phase : next.phase = node.phase ∨ node.phase = .depthCut ∧ next.phase = .pending ∧ next.depth < node.depth

theorem Shortened.refl (node : Node) : Shortened node node :=
  ⟨rfl, rfl, rfl, rfl, UInt64.le_refl _, .inl rfl⟩

theorem Shortened.trans {first middle last : Node} (left : Shortened first middle)
    (right : Shortened middle last) : Shortened first last where
  ticket := right.ticket.trans left.ticket
  sequence := right.sequence.trans left.sequence
  successors := right.successors.trans left.successors
  reason := right.reason.trans left.reason
  depth := UInt64.le_trans right.depth left.depth
  phase := by
    have upper := left.depth
    have lower := right.depth
    rcases left.phase with same | ⟨cut, reopened, less⟩
    · rcases right.phase with again | ⟨cut, reopened, less⟩
      · exact .inl (again.trans same)
      · exact .inr ⟨same ▸ cut, reopened, by lia⟩
    · rcases right.phase with again | ⟨cut, _, _⟩
      · exact .inr ⟨cut, again.trans reopened, by lia⟩
      · rw [reopened] at cut
        contradiction

theorem Shortened.inflight_iff {next : Node} (shortened : Shortened node next) :
    next.phase = .inflight ↔ node.phase = .inflight := by
  rcases shortened.phase with same | ⟨cut, reopened, _⟩
  · rw [same]
  · simp [cut, reopened]

/-- What relaxations leave alone: the configuration, the leases and every node up to shortening. -/
structure Evolves (f g : Frontier) : Prop where
  limit : g.limit = f.limit
  policy : g.policy = f.policy
  maxStates : g.maxStates = f.maxStates
  poisoned : g.poisoned = f.poisoned
  nextLease : g.nextLease = f.nextLease
  leased : g.counters.leased = f.counters.leased
  committed : g.counters.committed = f.counters.committed
  requeued : g.counters.requeued = f.counters.requeued
  inflight : g.nodes.countValues (Node.hasPhase .inflight) = f.nodes.countValues (Node.hasPhase .inflight)
  kept : ∀ (key : StateKey) node, f.nodes[key]? = some node →
    ∃ next, g.nodes[key]? = some next ∧ Shortened node next
  fresh : ∀ (key : StateKey) next, g.nodes[key]? = some next → f.nodes[key]? = none →
    next.phase = .pending ∧ next.ticket = none

theorem Evolves.refl (f : Frontier) : Evolves f f :=
  ⟨rfl, rfl, rfl, rfl, rfl, rfl, rfl, rfl, rfl, fun _ node read => ⟨node, read, .refl node⟩,
    fun _ _ present absent => by simp [present] at absent⟩

/-- The nodes after a shorter path to a known state. -/
theorem getElem?_improve {other : StateKey} : (f.countDuplicate.improve key node distance).nodes[other]? =
    if key = other then some { node with phase := Frontier.reopened node.phase, depth := distance }
    else f.nodes[other]? := getElem?_insert_eq ..

theorem Evolves.trans {g h : Frontier} (left : Evolves f g) (right : Evolves g h) : Evolves f h where
  limit := right.limit.trans left.limit
  policy := right.policy.trans left.policy
  maxStates := right.maxStates.trans left.maxStates
  poisoned := right.poisoned.trans left.poisoned
  nextLease := right.nextLease.trans left.nextLease
  leased := right.leased.trans left.leased
  committed := right.committed.trans left.committed
  requeued := right.requeued.trans left.requeued
  inflight := right.inflight.trans left.inflight
  kept := by
    intro key node read
    obtain ⟨middle, present, first⟩ := left.kept key node read
    obtain ⟨last, final, second⟩ := right.kept key middle present
    exact ⟨last, final, first.trans second⟩
  fresh := by
    intro key last present absent
    cases between : g.nodes[key]? with
    | none => exact right.fresh key last present between
    | some middle =>
      obtain ⟨pending, unticketed⟩ := left.fresh key middle between absent
      obtain ⟨next, final, shortened⟩ := right.kept key middle between
      obtain rfl : next = last := Option.some.inj (final.symm.trans present)
      rcases shortened.phase with same | ⟨cut, _, _⟩
      · exact ⟨same.trans pending, shortened.ticket.trans unticketed⟩
      · rw [pending] at cut
        contradiction

theorem Relaxes.evolves (step : Relaxes a b) : Evolves a.1 b.1 := by
  cases step with
  | @insert f key distance rest absent room available =>
    refine ⟨rfl, rfl, rfl, rfl, rfl, rfl, rfl, rfl, ?_, ?_, ?_⟩
    · exact countValues_insert_of_absent _ absent _
    · intro other node read
      refine ⟨node, ?_, .refl node⟩
      simp only [Frontier.insertPending, getElem?_insert_eq]
      rwa [if_neg]
      rintro rfl
      simp [absent] at read
    · intro other next present missing
      simp only [Frontier.insertPending, getElem?_insert_eq] at present
      split at present
      · cases present
        exact ⟨rfl, rfl⟩
      · simp [present] at missing
  | @skip f key distance rest node read longer =>
    have same := Evolves.refl f
    exact ⟨rfl, rfl, rfl, rfl, rfl, rfl, rfl, rfl, same.inflight, same.kept, same.fresh⟩
  | @improve f key distance rest node read shorter =>
    have shortened : Shortened node { node with
        phase := Frontier.reopened node.phase, depth := distance } := by
      refine ⟨rfl, rfl, rfl, rfl, UInt64.le_of_lt shorter, ?_⟩
      by_cases cut : node.phase = .depthCut
      · exact .inr ⟨cut, by simp [Frontier.reopened, cut], shorter⟩
      · left
        unfold Frontier.reopened
        split <;> simp_all
    refine ⟨rfl, rfl, rfl, rfl, rfl, rfl, rfl, rfl, ?_, ?_, ?_⟩
    · have count := countValues_insert_of_read (Node.hasPhase .inflight) read { node with
        phase := Frontier.reopened node.phase, depth := distance }
      have same : Node.hasPhase .inflight { node with
          phase := Frontier.reopened node.phase, depth := distance } = Node.hasPhase .inflight node := by
        simpa only [Node.hasPhase] using decide_eq_decide.mpr shortened.inflight_iff
      rw [same] at count
      exact Nat.add_right_cancel count
    · intro other stored present
      rw [getElem?_improve]
      split
      · next same =>
        subst same
        obtain rfl : node = stored := Option.some.inj (read.symm.trans present)
        exact ⟨_, rfl, shortened⟩
      · exact ⟨stored, present, .refl stored⟩
    · intro other next present absent
      rw [getElem?_improve] at present
      split at present
      · next same => simp [← same, read] at absent
      · simp [present] at absent

theorem evolves_of_relaxes (steps : ReflTransGen Relaxes a b) : Evolves a.1 b.1 := by
  induction steps with
  | refl => exact .refl _
  | tail _ last ih => exact ih.trans last.evolves

/-- The states of the work list that the table does not hold. -/
theorem missing_eq_card (f : Frontier) (keys : List StateKey) :
    f.missing keys = (keys.filter fun key => f.nodes[key]? = none).toFinset.card := by
  rw [Frontier.missing, List.card_toFinset]

theorem missing_le_of_subset {g : Frontier} {keys others : List StateKey}
    (subset : ∀ key ∈ keys, f.nodes[key]? = none → key ∈ others ∧ g.nodes[key]? = none) :
    f.missing keys ≤ g.missing others := by
  rw [missing_eq_card, missing_eq_card]
  apply Finset.card_le_card
  intro key member
  simp only [List.mem_toFinset, List.mem_filter, decide_eq_true_eq] at member ⊢
  exact subset key member.1 member.2

theorem missing_insertPending (distance : UInt64)
    (absent : f.nodes[key]? = none) (keys : List StateKey) :
    (f.insertPending key distance).missing keys + 1 ≤ f.missing (key :: keys) := by
  rw [missing_eq_card, missing_eq_card, ← Finset.card_insert_of_notMem (a := key)]
  · apply Finset.card_le_card
    intro other member
    simp only [Finset.mem_insert, List.mem_toFinset, List.mem_filter, decide_eq_true_eq,
      Frontier.insertPending, getElem?_insert_eq, List.mem_cons] at member ⊢
    rcases member with rfl | ⟨member, missing⟩
    · exact ⟨.inl rfl, absent⟩
    · split at missing
      · contradiction
      · exact ⟨.inr member, missing⟩
  · simp [Frontier.insertPending]

/-- Every recorded successor is stored or queued, and the queued states fit into the table. -/
structure Supplied (f : Frontier) (work : Work) : Prop where
  closed : ∀ (key : StateKey) node, f.nodes[key]? = some node → node.phase = .expanded →
    ∀ successor ∈ node.successors, f.nodes[successor]? ≠ none ∨ successor ∈ work.map Prod.fst
  capacity : f.nodes.size + f.missing (work.map Prod.fst) ≤ f.maxStates.toNat
  sequences : f.nextSequence.toNat + f.missing (work.map Prod.fst) ≤ uint64Max.toNat

theorem Supplied.insertPending {rest : Work}
    (supplied : Supplied f ((key, distance) :: rest)) (absent : f.nodes[key]? = none)
    (available : f.nextSequence ≠ uint64Max) : Supplied (f.insertPending key distance) rest := by
  have fewer := missing_insertPending distance absent (rest.map Prod.fst)
  have capacity := supplied.capacity
  have sequences := supplied.sequences
  simp only [List.map_cons] at capacity sequences
  refine ⟨?_, ?_, ?_⟩
  · intro other node present expanded successor member
    simp only [Frontier.insertPending, getElem?_insert_eq] at present ⊢
    split at present
    · cases present
      contradiction
    · rcases supplied.closed other node present expanded successor member with stored | queued
      · exact .inl (by split <;> simp_all)
      · rw [List.map_cons, List.mem_cons] at queued
        rcases queued with rfl | queued
        · simp
        · exact .inr queued
  · have grown := size_insert_of_absent absent ⟨distance, .pending, f.nextSequence, none, [], ""⟩
    have : (f.insertPending key distance).nodes.size = f.nodes.size + 1 := grown
    have : (f.insertPending key distance).maxStates.toNat = f.maxStates.toNat := rfl
    omega
  · have : (f.insertPending key distance).nextSequence.toNat = f.nextSequence.toNat + 1 :=
      toNat_add_one_of_ne_max available
    omega

/-- Two tables hold the same states. -/
theorem improve_read_none_iff {other : StateKey}
    (read : f.nodes[key]? = some node) :
    (f.countDuplicate.improve key node distance).nodes[other]? = none ↔ f.nodes[other]? = none := by
  rw [getElem?_improve]
  split <;> simp_all

theorem Supplied.improve {rest : Work}
    (supplied : Supplied f ((key, distance) :: rest)) (read : f.nodes[key]? = some node) :
    Supplied (f.countDuplicate.improve key node distance) (Frontier.relaxations node distance ++ rest) := by
  have fewer : (f.countDuplicate.improve key node distance).missing
      ((Frontier.relaxations node distance ++ rest).map Prod.fst) ≤
      f.missing (((key, distance) :: rest).map Prod.fst) := by
    refine missing_le_of_subset fun other member absent => ?_
    rw [improve_read_none_iff read] at absent
    refine ⟨?_, absent⟩
    rw [List.map_append, List.mem_append] at member
    rcases member with pushed | queued
    · simp only [Frontier.relaxations] at pushed
      split at pushed
      · next expanded =>
        simp only [List.map_map, List.mem_map, Function.comp_apply, exists_eq_right] at pushed
        exact (supplied.closed key node read expanded other pushed).resolve_left (absurd absent)
      · simp at pushed
    · exact List.mem_cons_of_mem _ queued
  have size : (f.countDuplicate.improve key node distance).nodes.size = f.nodes.size :=
    size_insert_of_read read _
  refine ⟨?_, ?_, ?_⟩
  · intro other stored present expanded successor member
    have keep : ∀ {work : Work}, f.nodes[successor]? ≠ none ∨ successor ∈ work.map Prod.fst →
        (f.countDuplicate.improve key node distance).nodes[successor]? ≠ none ∨
          successor ∈ work.map Prod.fst :=
      fun known => known.imp_left (mt (improve_read_none_iff read).mp)
    rw [getElem?_improve] at present
    split at present
    · cases present
      have wasExpanded : node.phase = .expanded := by
        simp only [Frontier.reopened] at expanded
        split at expanded <;> simp_all
      right
      simp only [Frontier.relaxations, wasExpanded, if_true, List.map_append, List.map_map,
        List.mem_append, List.mem_map, Function.comp_apply, exists_eq_right]
      exact .inl member
    · apply keep
      rcases supplied.closed other stored present expanded successor member with known | queued
      · exact .inl known
      · rcases List.mem_cons.mp queued with rfl | queued
        · exact .inl (by simp [read])
        · exact .inr (by rw [List.map_append]; exact List.mem_append_right _ queued)
  · have := supplied.capacity
    have : (f.countDuplicate.improve key node distance).maxStates.toNat = f.maxStates.toNat := rfl
    omega
  · have := supplied.sequences
    have : (f.countDuplicate.improve key node distance).nextSequence.toNat = f.nextSequence.toNat := rfl
    omega

theorem Relaxes.supplied (step : Relaxes a b) (supplied : Supplied a.1 a.2) :
    Supplied b.1 b.2 := by
  cases step with
  | insert absent room available => exact supplied.insertPending absent available
  | @skip f key distance rest node read longer =>
    have fewer : f.countDuplicate.missing (rest.map Prod.fst) ≤
        f.missing (((key, distance) :: rest).map Prod.fst) :=
      missing_le_of_subset fun other member absent => ⟨List.mem_cons_of_mem _ member, absent⟩
    refine ⟨?_, ?_, ?_⟩
    · intro other stored present expanded successor member
      rcases supplied.closed other stored present expanded successor member with known | queued
      · exact .inl known
      · rcases List.mem_cons.mp queued with rfl | queued
        · exact .inl (by simp [Frontier.countDuplicate, read])
        · exact .inr queued
    · exact (Nat.add_le_add_left fewer _).trans supplied.capacity
    · exact (Nat.add_le_add_left fewer _).trans supplied.sequences
  | improve read shorter => exact supplied.improve read

/-- With room for everything queued, propagation finishes. -/
theorem propagate_ok_of_supplied {work : Work} (supplied : Supplied f work) :
    (f.propagate work).1 = .ok () := by
  fun_induction Frontier.propagate f work with
  | case1 f => rfl
  | case2 f key distance rest absent full =>
    have needed := supplied.capacity
    have := missing_insertPending distance absent (rest.map Prod.fst)
    simp only [List.map_cons] at needed
    omega
  | case3 f key distance rest absent room exhausted =>
    have needed := supplied.sequences
    have := missing_insertPending distance absent (rest.map Prod.fst)
    simp only [List.map_cons, exhausted] at needed
    omega
  | case4 f key distance rest absent room available ih =>
    exact ih (supplied.insertPending absent available)
  | case5 f key distance rest node read longer ih =>
    exact ih ((Relaxes.skip read longer).supplied supplied)
  | case6 f key distance rest node read shorter ih => exact ih (supplied.improve read)

/-- A propagation that has room: it returns, nothing is left to relax, and no successor is missing. -/
theorem propagate_of_supplied {work : Work} (supplied : Supplied f work) :
    ∃ g, f.propagate work = (.ok (), g) ∧ ReflTransGen Relaxes (f, work) (g, []) ∧ Supplied g [] := by
  obtain ⟨rest, steps, done⟩ := propagate_relaxes f work
  have ok := propagate_ok_of_supplied supplied
  generalize f.propagate work = result at steps done ok
  obtain ⟨outcome, g⟩ := result
  subst ok
  obtain rfl := done rfl
  exact ⟨g, rfl, steps, Relaxes.invariant (P := fun state => Supplied state.1 state.2)
    (fun _ _ step => step.supplied) steps supplied⟩

end DetSim.Search
