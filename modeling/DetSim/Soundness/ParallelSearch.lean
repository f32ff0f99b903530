import DetSim.Soundness.CoordinatorRuns

/-! # A parallel search reports what is there

Losing a worker returns exactly its lease to the frontier, and the ticket is never held again. A report
says what the invariant of the search loop says when nothing is pending or in flight: a complete search
has every reachable state, a bounded one every state within its depth, and a violation is real.
-/

namespace DetSim.Search

open Std ExtTreeMap Relation
open Except (bind_eq_ok foldlM_invariant)
open Scheduler (TransitionSystem)

variable {system : TransitionSystem} {root : StateKey} {limit : UInt64} {store : Store} {options : Options}
  {c next : Coordinator} {id : WorkerId}

/-! ## Losing a worker -/

/-- The frontier changes only by its own calls. -/
def Frontier.Continues (f g : Frontier) : Prop := ∃ calls, g = f.run calls

theorem Frontier.Continues.refl (f : Frontier) : f.Continues f := ⟨[], rfl⟩

theorem Frontier.Continues.trans {f g h : Frontier} (first : f.Continues g) (second : g.Continues h) :
    f.Continues h := by
  obtain ⟨calls, rfl⟩ := first
  obtain ⟨later, rfl⟩ := second
  exact ⟨calls ++ later, by simp [Frontier.run]⟩

theorem Called.continues {call : Call} {reply : Reply} (called : Called c call reply next) :
    c.frontier.Continues next.frontier := ⟨[call], by simp [Frontier.run, called.answered]⟩

theorem lost_continues {reason : String} (returned : c.lost options id reason = .ok next) :
    c.frontier.Continues next.frontier := by
  obtain ⟨_, _, ⟨same, _⟩ | ⟨count, answered⟩⟩ := lost_eq_ok returned
  · exact same ▸ .refl _
  · exact ⟨[.workerLost id], by simp [Frontier.run, answered]⟩

theorem localCompletion_continues {ticket : Ticket} {kind : EnumerationKind}
    (returned : c.localCompletion ticket kind = .ok next) : c.frontier.Continues next.frontier := by
  cases kind with
  | violation =>
    cases returned
    exact .refl _
  | terminal =>
    obtain ⟨⟨_, _⟩, committed, ⟨⟩⟩ := bind_eq_ok.mp returned
    exact (called_of_commit committed).continues
  | depthCut =>
    obtain ⟨⟨_, _⟩, committed, ⟨⟩⟩ := bind_eq_ok.mp returned
    exact (called_of_commit committed).continues
  | modelBudget =>
    obtain ⟨⟨_, _⟩, committed, ⟨⟩⟩ := bind_eq_ok.mp returned
    exact (called_of_commit committed).continues
  | expanded => cases returned

theorem dispatch_continues {priority : Priority} {scorer : Scorer} {attempt : StateKey → Attempt}
    (returned : c.dispatch store options id priority scorer attempt = .ok next) :
    c.frontier.Continues next.frontier := by
  unfold Coordinator.dispatch at returned
  dsimp only at returned
  split at returned
  · obtain ⟨⟨selected, leased⟩, asked, returned⟩ := bind_eq_ok.mp returned
    obtain ⟨call, _, called⟩ := called_of_lease asked
    refine called.continues.trans ?_
    cases selected with
    | none =>
      cases returned
      exact .refl _
    | some ticket =>
      obtain ⟨source, loaded, returned⟩ := bind_eq_ok.mp returned
      split at returned
      · exact localCompletion_continues returned
      · cases returned
        exact .refl _
  · cases returned
    exact .refl _

theorem receive_continues (returned : c.receive store options id = .ok next) : c.frontier.Continues next.frontier := by
  unfold Coordinator.receive at returned
  dsimp only at returned
  split at returned
  · unfold Coordinator.handle at returned
    dsimp only at returned
    split at returned
    · obtain ⟨_, returned⟩ := require_bind_eq_ok.mp returned
      cases returned
      exact .refl _
    · obtain ⟨_, returned⟩ := require_bind_eq_ok.mp returned
      have continues := lost_continues returned
      exact continues
    · cases returned
    · obtain ⟨_, returned⟩ := require_bind_eq_ok.mp returned
      obtain ⟨admission, _, returned⟩ := bind_eq_ok.mp returned
      cases admission with
      | edge => cases returned; exact .refl _
      | violation => cases returned; exact .refl _
      | commit expansion =>
        obtain ⟨⟨_, committed⟩, commits, returned⟩ := bind_eq_ok.mp returned
        cases returned
        exact (called_of_commit commits).continues
  · cases returned
    exact .refl _

theorem step_continues {event : CoordinatorEvent} (returned : c.step store options event = .ok next) :
    c.frontier.Continues next.frontier := by
  unfold Coordinator.step at returned
  split at returned
  · cases returned
    exact .refl _
  cases event with
  | spawn id started =>
    dsimp only [Coordinator.spawn] at returned
    split at returned
    · cases returned
      exact .refl _
    · exact lost_continues returned
    · cases returned
      exact .refl _
  | dispatch id priority scorer attempt => exact dispatch_continues returned
  | message id => exact receive_continues returned
  | lost id reason =>
    dsimp only at returned
    split at returned
    · exact lost_continues returned
    · cases returned
      exact .refl _
  | abort reason => cases returned

theorem run_continues {events : List CoordinatorEvent} (returned : c.run store options events = .ok next) :
    c.frontier.Continues next.frontier :=
  foldlM_invariant (fun state => c.frontier.Continues state.frontier)
    (fun _ _ _ _ before stepped => before.trans (step_continues stepped)) (.refl _) returned

/-- A ticket that was issued and is no longer held is never held again. -/
theorem Tracks.not_holds {f : Frontier} {events : List Event} (tracks : Tracks system root limit f events)
    {ticket : Ticket} (issued : ticket.leaseId ≤ f.nextLease) (returned : ¬f.Holds ticket) {g : Frontier}
    (continues : f.Continues g) : ¬g.Holds ticket := by
  obtain ⟨calls, rfl⟩ := continues
  have coherent := tracks.linked.coherent
  clear tracks
  induction calls generalizing f with
  | nil => exact returned
  | cons call rest ih =>
    have effect := call_effect coherent call
    refine ih (UInt64.le_trans issued effect.nextLease.1) ?_ (effect.coherent coherent)
    rw [effect.holds_iff coherent]
    rintro (again | ⟨still, _⟩)
    · have := (effect.nextLease.2 ticket again).1
      lia
    · exact returned still

/-- The lost worker's lease is returned, and it is the only one. -/
theorem Coordinated.requeues (sound : Coordinated system store root limit c) (running : c.violation = none) {job : Job}
    (present : (c.workers id).job = some job) :
    ∃ f node, c.frontier.workerLost id = (.ok 1, f) ∧ f.nodes[job.ticket.state]? = some node ∧
      node.phase = .pending ∧ ∀ other : StateKey, other ≠ job.ticket.state →
        f.nodes[other]? = c.frontier.nodes[other]? := by
  obtain ⟨events, tracks⟩ := sound.tracks
  have coherent := tracks.linked.coherent
  obtain ⟨own, ⟨node, read, held⟩, _⟩ := (sound.workers id).job job present
  obtain ⟨count, f, answered⟩ : ∃ count f, c.frontier.workerLost id = (.ok count, f) := by
    simp [Frontier.workerLost, tracks.linked.healthy]
  have effect := call_effect coherent (.workerLost id)
  simp only [Frontier.call, answered, Prod.map_apply, Except.map] at effect
  cases effect with
  | @lost _ _ g requeued =>
    have here : node.requeued id = { node with phase := .pending, ticket := none } := by
      simp [Node.requeued, held, own]
    have other : ∀ key : StateKey, key ≠ job.ticket.state → g.nodes[key]? = c.frontier.nodes[key]? := by
      intro key different
      rw [requeued.nodes]
      cases entry : c.frontier.nodes[key]? with
      | none => rfl
      | some kept =>
        rw [Option.map_some, Node.requeued]
        split
        · rfl
        · next ticket stored =>
          -- a second lease of this worker would have to be its job too
          have elsewhere : ticket.worker ≠ id := by
            rintro rfl
            obtain ⟨rfl, _⟩ := (coherent.fits key kept entry).issued ticket stored
            obtain ⟨same, again, rfl⟩ := sound.held running ticket ⟨kept, entry, stored⟩
            exact different (congrArg (·.ticket.state) (Option.some.inj (again.symm.trans present)))
          rw [if_neg elsewhere]
    have written : g.nodes = c.frontier.nodes.insert job.ticket.state (node.requeued id) := by
      apply ExtTreeMap.ext_getElem?
      intro key
      rw [getElem?_insert_eq]
      split
      · next same => rw [← same, requeued.nodes, read, Option.map_some]
      · next different => exact other key fun same => different same.symm
    have inflight : node.phase = .inflight := (coherent.fits _ node read).stored_iff.mp (by simp [held])
    have counted := countValues_insert_of_read (Node.hasPhase .inflight) read (node.requeued id)
    rw [← written] at counted
    have once : count = 1 := by
      have := requeued.inflight
      simp only [here, Node.hasPhase, inflight, decide_true, Bool.toNat_true, reduceCtorEq, decide_false,
        Bool.toNat_false] at counted
      omega
    subst once
    exact ⟨_, node.requeued id, answered, by rw [written]; simp, by rw [here], other⟩

/-! ## The report -/

section Report

variable {f : Frontier} {events : List Event} (tracks : Tracks system root limit f events) (done : f.status ≠ .running)
include tracks done

/-- A finished search has every state within the limit, with the phase its depth calls for. -/
theorem Tracks.explored {state : StateKey} {n : ℕ} (path : system.ReachableIn n root state)
    (within : n ≤ limit.toNat) :
    system.propertyFailed state = false ∧ ∃ node, f.nodes[state]? = some node ∧ node.depth.toNat ≤ n ∧
      node.phase = finalPhase (successors system) limit state node.depth := by
  obtain ⟨settled, _⟩ := tracks.explores.status_of_done tracks.linked.coherent tracks.linked.healthy done
  obtain ⟨least, shorter, distance⟩ := exists_isDistance (reached_iff_reachableIn.mpr path)
  have labelled := (tracks.explores.depth_iff settled state least).mpr
    ⟨distance, (shorter.trans within).trans_eq (by rw [tracks.limit])⟩
  obtain ⟨node, read, rfl⟩ := Option.map_eq_some_iff.mp labelled
  have finished := settled state node read
  refine ⟨tracks.clean state node read finished.1 finished.2, node, read, shorter, ?_⟩
  rw [← tracks.limit]
  exact (tracks.explores.fits state node read).eq_finalPhase finished

/-- A complete search has every reachable state, and none was cut. -/
theorem Tracks.complete (complete : f.status = .complete) {state : StateKey} (reachable : system.Reachable root state) :
    system.propertyFailed state = false ∧
      ∃ node, f.nodes[state]? = some node ∧ (node.phase = .expanded ∨ node.phase = .terminal) := by
  obtain ⟨settled, _, uncut_iff⟩ :=
    tracks.explores.status_of_done tracks.linked.coherent tracks.linked.healthy done
  have uncut := uncut_iff.mp complete
  have phase : ∀ (key : StateKey) node, f.nodes[key]? = some node →
      node.phase = .expanded ∨ node.phase = .terminal := by
    intro key node read
    have fits := tracks.explores.fits key node read
    have finished := settled key node read
    have whole := uncut key node read
    have regular := fits.regular
    cases phase : node.phase <;> simp_all
  suffices stored : ∃ node, f.nodes[state]? = some node by
    obtain ⟨node, read⟩ := stored
    have finished := settled state node read
    exact ⟨tracks.clean state node read finished.1 finished.2, node, read, phase state node read⟩
  induction reachable with
  | refl =>
    obtain ⟨_, _, labelled⟩ := tracks.explores.rooted_label (root, 0) rfl
    obtain ⟨node, read, _⟩ := Option.map_eq_some_iff.mp labelled
    exact ⟨node, read⟩
  | @tail source target _ step ih =>
    obtain ⟨node, read⟩ := ih
    have edge := successors_step_iff.mpr step
    have fits := tracks.explores.fits source node read
    have expanded : node.phase = .expanded := by
      refine (phase source node read).resolve_right fun terminal => ?_
      exact Finset.ne_empty_of_mem edge (fits.terminal terminal)
    obtain ⟨_, _, labelled⟩ := tracks.explores.relaxed_label read (settled source node read)
      (fits.expanded expanded).1 edge
    obtain ⟨next, present, _⟩ := Option.map_eq_some_iff.mp labelled
    exact ⟨next, present⟩

end Report

/-- Without a violation the report is the status of the frontier. -/
theorem report_of_quiet {report : Report} (quiet : c.violation = none)
    (reported : Coordinator.report (.ok c) = some report) :
    c.frontier.status ≠ .running ∧ report.status ≠ .violation ∧
      (report.status = .complete → c.frontier.status = .complete) := by
  simp only [Coordinator.report, quiet] at reported
  cases status : c.frontier.status <;> rw [status] at reported <;> cases reported <;> simp

/-- A search that ended without a failure, before the loop is left and after. -/
theorem search_eq_ok {events : List CoordinatorEvent}
    (returned : Coordinator.search store options root events = .ok c) :
    ∃ started finished, Coordinator.start options root = .ok started ∧
      started.run store options events = .ok finished ∧ finished.finish options = .ok c := by
  obtain ⟨started, start, returned⟩ := bind_eq_ok.mp returned
  obtain ⟨finished, run, returned⟩ := bind_eq_ok.mp returned
  exact ⟨started, finished, start, run, returned⟩

/-- A worker with a job is lost while its state has retries left: its lease is returned, once. -/
theorem Coordinated.lost_within_budget (sound : Coordinated system store root limit c) (running : c.violation = none)
    {job : Job} (present : (c.workers id).job = some job) (reason : String)
    (retries : c.failures job.ticket.state < options.retries) :
    ∃ next, c.step store options (.lost id reason) = .ok next ∧ c.frontier.workerLost id = (.ok 1, next.frontier) ∧
      (∃ node, next.frontier.nodes[job.ticket.state]? = some node ∧ node.phase = .pending) ∧
      ∀ later after, next.run store options later = .ok after → ¬after.frontier.Holds job.ticket := by
  obtain ⟨own, ⟨held, read, stored⟩, _, watched⟩ := (sound.workers id).job job present
  obtain ⟨f, node, answered, requeued, pending, _⟩ := sound.requeues running present
  have stepped : ∃ next, c.step store options (.lost id reason) = .ok next ∧ next.frontier = f := by
    simp [Coordinator.step, running, watched, Coordinator.lost, present, Coordinator.callFrontier, answered,
      Nat.not_lt.mpr (Nat.succ_le_of_lt retries), bind, Except.bind, pure, Except.pure, Coordinator.setWorker]
  obtain ⟨next, returned, rfl⟩ := stepped
  refine ⟨next, returned, answered, ⟨node, requeued, pending⟩, ?_⟩
  intro later after continued
  obtain ⟨events, tracks⟩ := sound.tracks
  have called : c.frontier.call (.workerLost id) = (.ok (.lost 1), next.frontier) := by
    simp [Frontier.call, answered, Except.map]
  have effect := call_effect tracks.linked.coherent (.workerLost id)
  have tracked := tracks.call (.workerLost id) trivial
  rw [called] at effect tracked
  refine tracked.not_holds ?_ ?_ (run_continues continued)
  · have issued := ((tracks.linked.coherent.fits _ held read).issued _ stored).2.1
    exact UInt64.le_trans issued effect.nextLease.1
  · rintro ⟨again, present, ticketed⟩
    rw [requeued, Option.some.injEq] at present
    subst present
    have inflight := (tracked.linked.coherent.fits _ node requeued).stored_iff.mp (by simp [ticketed])
    simp [pending] at inflight

/-- Without retries left the search fails. -/
theorem lost_beyond_budget (store : Store) (running : c.violation = none) (watched : (c.workers id).channel.isSome)
    {job : Job}
    (present : (c.workers id).job = some job) (reason : String)
    (spent : options.retries ≤ c.failures job.ticket.state) :
    ∃ failure, c.step store options (.lost id reason) = .error failure := by
  simp only [Coordinator.step, running, watched, Coordinator.lost, present, Nat.lt_succ_of_le spent, if_true,
    Option.isSome_none, Bool.false_eq_true, if_false]
  obtain ⟨result, frontier⟩ := c.frontier.commit job.ticket { kind := .failure, reason := reason }
  cases result <;> simp [Coordinator.callFrontier, bind, Except.bind]

/-- Parallel search results can be trusted despite worker loss. -/
theorem parallel_report_sound (system : TransitionSystem) (store : Store) (agrees : store.Agrees system)
    (options : Options) (root : StateKey) (events : List CoordinatorEvent)
    (honest : ∀ event ∈ events, event.Honest system) :
    (∀ report, runParallel store options root events = some report →
      (report.status = .complete → ∃ c, Coordinator.search store options root events = .ok c ∧
        ∀ state, system.Reachable root state → system.propertyFailed state = false ∧
          ∃ node, c.frontier.nodes[state]? = some node ∧ (node.phase = .expanded ∨ node.phase = .terminal)) ∧
      (report.status = .bounded → ∃ c, Coordinator.search store options root events = .ok c ∧
        ∀ n state, system.ReachableIn n root state → n ≤ options.depth.toNat → system.propertyFailed state = false ∧
          ∃ node, c.frontier.nodes[state]? = some node ∧ (node.phase = .expanded ∨ node.phase = .terminal ∨
            (n = options.depth.toNat ∧ node.phase = .depthCut))) ∧
      (report.status = .violation → ∃ state, report.violationState = some state ∧ system.Reachable root state ∧
        system.propertyFailed state = true)) ∧
    (∀ earlier later id reason c job, events = earlier ++ .lost id reason :: later →
      (Coordinator.start options root >>= fun c => c.run store options earlier) = .ok c → c.violation = none →
      (c.workers id).job = some job →
      (c.failures job.ticket.state < options.retries →
        ∃ next, c.step store options (.lost id reason) = .ok next ∧
          c.frontier.workerLost id = (.ok 1, next.frontier) ∧
          (∃ node, next.frontier.nodes[job.ticket.state]? = some node ∧ node.phase = .pending) ∧
          ∀ more after, next.run store options more = .ok after → ¬after.frontier.Holds job.ticket) ∧
      (options.retries ≤ c.failures job.ticket.state →
        runParallel store options root events = some { status := .failed })) := by
  refine ⟨?_, ?_⟩
  · intro report reported
    unfold runParallel at reported
    cases searched : Coordinator.search store options root events with
    | error failure =>
      rw [searched] at reported
      cases reported
      simp
    | ok c =>
      rw [searched] at reported
      obtain ⟨started, finished, start, run, finish⟩ := search_eq_ok searched
      have sound := (start_coordinated system store start).run agrees honest run
      obtain ⟨violation, same⟩ := finish_eq_ok finish
      cases violated : c.violation with
      | some state =>
        simp only [Coordinator.report, violated, Option.some.injEq] at reported
        subst reported
        simpa using sound.violation state (violation.symm.trans violated)
      | none =>
        obtain rfl := same (violation.symm.trans violated)
        obtain ⟨history, tracks⟩ := sound.tracks
        obtain ⟨done, harmless, complete⟩ := report_of_quiet violated reported
        refine ⟨fun status => ⟨c, rfl, fun state => tracks.complete done (complete status)⟩, ?_,
          fun status => absurd status harmless⟩
        refine fun _ => ⟨c, rfl, fun n state path within => ?_⟩
        obtain ⟨sound, node, read, shorter, phase⟩ := tracks.explored done path within
        refine ⟨sound, node, read, ?_⟩
        rw [phase, finalPhase]
        split_ifs with noSuccessor atLimit
        · simp
        · have : options.depth.toNat ≤ n := atLimit ▸ shorter
          simp [Nat.le_antisymm within this]
        · simp
  · rintro earlier later id reason c job rfl reached running present
    obtain ⟨started, start, run⟩ := bind_eq_ok.mp reached
    have sound := (start_coordinated system store start).run agrees
      (fun event member => honest event (List.mem_append_left _ member)) run
    refine ⟨sound.lost_within_budget running present reason, ?_⟩
    intro spent
    obtain ⟨_, _, _, watched⟩ := (sound.workers id).job job present
    obtain ⟨failure, failed⟩ := lost_beyond_budget store running watched present reason spent
    have aborted : started.run store options (earlier ++ .lost id reason :: later) = .error failure := by
      unfold Coordinator.run at run ⊢
      rw [List.foldlM_append, run]
      simp [List.foldlM_cons, failed, bind, Except.bind]
    simp [runParallel, Coordinator.search, start, aborted, bind, Except.bind, Coordinator.report]

theorem toThree_disabled (state : StateKey) (failed : false = true) :
    (if state = 1 ∨ state = 2 then [(⟨0, 0, .normal⟩ : Scheduler.ActorAction)] else []) = [] :=
  absurd failed Bool.false_ne_true

/-- States one to three, each leading to the next. -/
def toThree : TransitionSystem where
  propertyFailed _ := false
  enabledActorActions state := if state = 1 ∨ state = 2 then [⟨0, 0, .normal⟩] else []
  nChoose _ _ := 0
  successor state _ _ := state + 1
  disabled_of_failed := toThree_disabled

/-- A worker that executes `toThree`, and the store of its states. -/
def toThreeAttempt (state : StateKey) : Attempt where
  execute _ _ := .ok { target := state + 1 }
  exportBundle key := .ok { systemKey := key }

def toThreeStore : Store where
  load key := .ok (systemSource toThree key)
  importBundle _ := .ok false
  compatible _ := true

/-- One worker is lost with its first lease, is started again and expands two states. -/
def toThreeEvents : List CoordinatorEvent :=
  let lease := CoordinatorEvent.dispatch 1 (fun _ _ => .ok 0) (fun _ => .ok 0) toThreeAttempt
  let spawn := CoordinatorEvent.spawn 1 (.ok ⟨[], []⟩)
  [spawn, .message 1, lease, .lost 1 "timeout", spawn, .message 1, lease, .message 1, .message 1,
    lease, .message 1, .message 1, lease]

theorem toThreeStore_agrees : toThreeStore.Agrees toThree where
  load _ _ loaded := (Except.ok.inj loaded).symm
  imported _ _ imported := (Except.ok.inj imported).symm

theorem toThreeEvents_honest : ∀ event ∈ toThreeEvents, event.Honest toThree := by
  have follows : ∀ state, (toThreeAttempt state).Follows toThree state := by
    intro state
    refine ⟨by simp [toThree], by simp [toThree], ?_, ?_⟩
    · rintro actor enabled preset result ⟨⟩
      rfl
    · rintro actor enabled preset result ⟨⟩
      rfl
  intro event member
  simp only [toThreeEvents, List.mem_cons, List.not_mem_nil, or_false] at member
  rcases member with rfl | rfl | rfl | rfl | rfl | rfl | rfl | rfl | rfl | rfl | rfl | rfl | rfl <;> trivial

theorem parallel_report_sound_toThree :
    runParallel toThreeStore { depth := 5 } 1 toThreeEvents = some { status := .complete } ∧
    ∃ c, Coordinator.search toThreeStore { depth := 5 } 1 toThreeEvents = .ok c ∧
      ∀ state, toThree.Reachable 1 state → toThree.propertyFailed state = false ∧
        ∃ node, c.frontier.nodes[state]? = some node ∧ (node.phase = .expanded ∨ node.phase = .terminal) := by
  have reported : runParallel toThreeStore { depth := 5 } 1 toThreeEvents = some { status := .complete } := by
    decide +kernel
  exact ⟨reported, ((parallel_report_sound toThree toThreeStore toThreeStore_agrees { depth := 5 } 1 toThreeEvents
    toThreeEvents_honest).1 _ reported).1 rfl⟩

/-- A bounded search leaves the states at its depth cut, although they are within it. -/
theorem bounded_report_cuts_at_depth :
    toThreeStore.Agrees toThree ∧ (∀ event ∈ toThreeEvents, event.Honest toThree) ∧
    runParallel toThreeStore { depth := 1 } 1 toThreeEvents = some { status := .bounded } ∧
    toThree.ReachableIn 1 1 2 ∧ (1 : ℕ) ≤ ({ depth := 1 } : Options).depth.toNat ∧
    ∃ c, Coordinator.search toThreeStore { depth := 1 } 1 toThreeEvents = .ok c ∧
      ∃ node, c.frontier.nodes[(2 : StateKey)]? = some node ∧ node.phase = .depthCut := by
  have step : toThree.Step 1 2 := ⟨⟨1, ⟨0, 0, .normal⟩, 0⟩, by decide, rfl, rfl⟩
  refine ⟨toThreeStore_agrees, toThreeEvents_honest, by decide +kernel, .head step (.refl _), by decide, ?_⟩
  have searched : ((Coordinator.search toThreeStore { depth := 1 } 1 toThreeEvents).toOption.bind
      fun c => c.frontier.nodes[(2 : StateKey)]?).map Node.phase = some .depthCut := by decide +kernel
  obtain ⟨node, found, phase⟩ := Option.map_eq_some_iff.mp searched
  obtain ⟨c, returned, read⟩ := Option.bind_eq_some_iff.mp found
  refine ⟨c, ?_, node, read, phase⟩
  cases search : Coordinator.search toThreeStore { depth := 1 } 1 toThreeEvents <;> simp_all [Except.toOption]

/-! ## Any moment of a search -/

/-- A state within the limit has a node, or it lies behind one that is not finished. -/
theorem Tracks.leads {f : Frontier} {events : List Event} (tracks : Tracks system root limit f events)
    {state : StateKey} {n : ℕ} (path : system.ReachableIn n root state) (within : n ≤ limit.toNat) :
    ∃ (middle : StateKey) (node : Node), f.nodes[middle]? = some node ∧ system.Reachable middle state ∧
      node.depth.toNat ≤ n ∧ (middle = state ∨ node.phase = .pending ∨ node.phase = .inflight) := by
  replace path := reached_iff_reachableIn.mpr path
  induction path with
  | root member =>
    obtain ⟨_, shorter, labelled⟩ := tracks.explores.rooted_label _ member
    obtain ⟨node, read, rfl⟩ := Option.map_eq_some_iff.mp labelled
    exact ⟨_, node, read, .refl, shorter, .inl rfl⟩
  | next _ edge ih =>
    obtain ⟨middle, node, read, path, shorter, place⟩ := ih (by omega)
    by_cases unfinished : node.phase = .pending ∨ node.phase = .inflight
    · exact ⟨middle, node, read, path.tail (successors_step_iff.mp edge), by omega, .inr unfinished⟩
    · obtain rfl := place.resolve_right unfinished
      have below : node.depth < f.limit := by
        rw [tracks.limit, UInt64.lt_iff_toNat_lt]
        omega
      obtain ⟨_, near, labelled⟩ := tracks.explores.relaxed_label read (not_or.mp unfinished) below edge
      obtain ⟨last, found, rfl⟩ := Option.map_eq_some_iff.mp labelled
      exact ⟨_, last, found, .refl, by omega, .inl rfl⟩

/-- What an honest run of the search leaves. -/
def Coordinator.Arises (system : TransitionSystem) (store : Store) (options : Options) (root : StateKey)
    (c : Coordinator) : Prop :=
  store.Agrees system ∧ ∃ events : List CoordinatorEvent, (∀ event ∈ events, event.Honest system) ∧
    (start options root >>= fun c => c.run store options events) = .ok c

theorem Coordinator.Arises.coordinated (arises : c.Arises system store options root) :
    Coordinated system store root options.depth c := by
  obtain ⟨agrees, events, honest, reached⟩ := arises
  obtain ⟨started, start, run⟩ := bind_eq_ok.mp reached
  exact (start_coordinated system store start).run agrees honest run

/-- In the middle of a search: the second state is with a worker, and nothing has seen the third. -/
theorem toThree_arises : ∃ c : Coordinator, c.Arises toThree toThreeStore { depth := 5 } 1 ∧ c.violation = none ∧
    (c.workers 1).job.map (fun job => job.ticket.state) = some 2 ∧ (c.frontier.nodes[(3 : StateKey)]?).isNone = true := by
  obtain ⟨c, reached, same⟩ := Except.map_eq_ok.mp (show (Coordinator.start { depth := 5 } 1 >>= fun c =>
    c.run toThreeStore { depth := 5 } (toThreeEvents.take 10)).map (fun c => (c.violation,
      (c.workers 1).job.map (fun job => job.ticket.state), (c.frontier.nodes[(3 : StateKey)]?).isNone)) =
    .ok (none, some 2, true) by decide +kernel)
  simp only [Prod.mk.injEq] at same
  exact ⟨c, ⟨toThreeStore_agrees, _, fun event member => toThreeEvents_honest event (List.mem_of_mem_take member),
    reached⟩, same⟩

/-- No reachable state is forgotten: it is stored, or behind a state that is queued or with a worker. -/
theorem search_forgets_nothing (arises : c.Arises system store options root) (running : c.violation = none) {n : ℕ}
    {state : StateKey} (path : system.ReachableIn n root state) (within : n ≤ options.depth.toNat) :
    ∃ (middle : StateKey) (node : Node), c.frontier.nodes[middle]? = some node ∧ system.Reachable middle state ∧
      node.depth.toNat ≤ n ∧ (middle = state ∨ node.phase = .pending ∨
        ∃ id job, (c.workers id).job = some job ∧ job.ticket.state = middle) := by
  obtain ⟨history, tracks⟩ := arises.coordinated.tracks
  obtain ⟨middle, node, read, rest, shorter, place⟩ := tracks.leads path within
  refine ⟨middle, node, read, rest, shorter, place.imp_right (Or.imp_right fun inflight => ?_)⟩
  have fits := tracks.linked.coherent.fits middle node read
  obtain ⟨ticket, stored⟩ := Option.isSome_iff_exists.mp (fits.stored_iff.mpr inflight)
  obtain ⟨rfl, _⟩ := fits.issued ticket stored
  obtain ⟨job, present, rfl⟩ := arises.coordinated.held running ticket ⟨node, read, stored⟩
  exact ⟨_, job, present, rfl⟩

/-- The third state is two steps away and not stored; what leads to it is out. -/
theorem search_forgets_nothing_toThree : ∃ c : Coordinator, c.Arises toThree toThreeStore { depth := 5 } 1 ∧
    c.frontier.nodes[(3 : StateKey)]? = none ∧
    ∃ (middle : StateKey) (node : Node), c.frontier.nodes[middle]? = some node ∧ toThree.Reachable middle 3 ∧
      node.depth.toNat ≤ 2 ∧ (node.phase = .pending ∨
        ∃ id job, (c.workers id).job = some job ∧ job.ticket.state = middle) := by
  obtain ⟨c, arises, running, _, unseen⟩ := toThree_arises
  replace unseen := Option.isNone_iff_eq_none.mp unseen
  have path : toThree.ReachableIn 2 1 3 :=
    .head ⟨⟨1, ⟨0, 0, .normal⟩, 0⟩, by decide, rfl, rfl⟩ (.head ⟨⟨2, ⟨0, 0, .normal⟩, 0⟩, by decide, rfl, rfl⟩ (.refl _))
  obtain ⟨middle, node, read, rest, shorter, place⟩ := search_forgets_nothing arises running path (by decide)
  refine ⟨c, arises, unseen, middle, node, read, rest, shorter, place.resolve_left ?_⟩
  rintro rfl
  exact Option.some_ne_none node (read.symm.trans unseen)

/-- No two workers have the same state, and without a violation the leases that are out are exactly the jobs. -/
theorem leases_are_jobs (arises : c.Arises system store options root) :
    (∀ first second job other, (c.workers first).job = some job → (c.workers second).job = some other →
      job.ticket.state = other.ticket.state → first = second) ∧
    (c.violation = none → ∀ ticket, c.frontier.Holds ticket ↔
      ∃ job, (c.workers ticket.worker).job = some job ∧ job.ticket = ticket) := by
  have sound := arises.coordinated
  refine ⟨?_, fun running ticket => ⟨sound.held running ticket, ?_⟩⟩
  · intro first second job other here there same
    obtain ⟨rfl, ⟨node, read, stored⟩, _⟩ := (sound.workers first).job job here
    obtain ⟨rfl, ⟨again, present, kept⟩, _⟩ := (sound.workers second).job other there
    rw [← same, read] at present
    cases present
    rw [Option.some.inj (stored.symm.trans kept)]
  · rintro ⟨job, present, rfl⟩
    exact ((sound.workers _).job job present).2.1

/-- The worker has the second state, and its lease is out. -/
theorem leases_are_jobs_toThree : ∃ (c : Coordinator) (job : Job), c.Arises toThree toThreeStore { depth := 5 } 1 ∧
    (c.workers 1).job = some job ∧ job.ticket.state = 2 ∧ c.frontier.Holds job.ticket ∧
    ∀ ticket, c.frontier.Holds ticket ↔ ∃ job, (c.workers ticket.worker).job = some job ∧ job.ticket = ticket := by
  obtain ⟨c, arises, running, given, _⟩ := toThree_arises
  obtain ⟨job, present, second⟩ := Option.map_eq_some_iff.mp given
  have exact := (leases_are_jobs arises).2 running
  obtain ⟨worker, held, _⟩ := (arises.coordinated.workers 1).job job present
  exact ⟨c, job, arises, present, second, held, exact⟩

end DetSim.Search
