import DetSim.Soundness.PendingRuns

/-! # Unfinished calls over whole runs

After every step each node passes the check of its unfinished calls, the blocked slots are those of the waiting
threads, the queued threads are those with a waiting futex call, and a granted call keeps its result until it is
delivered. The only way out is a thread that waits at address zero and finds its word there: it is granted its wait at
once and stays queued.
-/

namespace DetSim.Kernel

open FutexState TraceeState LiveProcess PtmcState LabelledRuns

variable {G : Type} {np : ℕ}

/-- What is expected of a process at any time. -/
structure LiveProcess.PendingValid (process : LiveProcess) : Prop where
  valid : validatePendingSyscalls process.state = true
  blocked : ∀ slot, process.threadBlocked slot = true ↔ ∃ thread, process.state.threads[slot]? = some thread ∧
    thread.alive = true ∧ ∃ pending, thread.pendingSyscall = some pending ∧ pending.phase = .waiting
  queued : ∀ thread ∈ process.state.threads, process.state.futex.Queued thread.tid ↔
    ∃ pending, thread.pendingSyscall = some pending ∧ pending.reason = .futex ∧ pending.phase = .waiting
  ended : ∀ thread ∈ process.state.threads, thread.alive = false → thread.pendingSyscall = none

/-- A step with its outcome. -/
def kernelStep (machine : Machine G np) (state : PtmcState G np) (label : Event G np × Option Outcome)
    (next : PtmcState G np) : Prop :=
  state.step machine label.1 = .ok (label.2, next)

/-- A granted call stays with its thread, or the thread ends, or the call is delivered with its result. -/
def GrantsKept (state : PtmcState G np) (label : Event G np × Option Outcome) (next : PtmcState G np) : Prop :=
  ∀ (node : Fin np) (slot : ℕ) (thread : ThreadState) (pending : PendingSyscall),
    (state.process node).state.threads[slot]? = some thread → thread.pendingSyscall = some pending →
    pending.phase = .ready → ∃ renewed, (next.process node).state.threads[slot]? = some renewed ∧
      (renewed.pendingSyscall = some pending ∨ renewed.alive = false ∨
        renewed.pendingSyscall = none ∧
          ∃ entry, label = (.normal node slot entry, some (.returned pending.result.toInt)))

/-! ## One state -/

variable {process : LiveProcess}

/-- A settled process passes the check of its unfinished calls. -/
theorem LiveProcess.Settled.validatePendingSyscalls (settled : Settled True process)
    (clear : process.state.futex.NoZero) : validatePendingSyscalls process.state = true := by
  rw [Kernel.validatePendingSyscalls, Bool.and_eq_true]
  constructor
  · rw [List.all_eq_true]
    intro thread member
    obtain ⟨slot, read⟩ := List.mem_iff_getElem?.mp member
    have fits := settled.placed.fits slot thread read
    rw [ThreadState.validatePending, futexState_any]
    split
    · next idle =>
      have asleep := settled.placed.not_waiting read (ThreadState.not_waitsOnFutex idle)
      simpa [Waiting] using asleep
    · next pending has =>
      have unfinished := fits.unfinished pending has
      have agrees : process.state.futex.isThreadWaiting thread.tid =
          (pending.reason == .futex && pending.phase == .waiting) := by
        rw [Bool.eq_iff_iff, Bool.and_eq_true, beq_iff_eq, beq_iff_eq]
        constructor
        · intro waiting
          obtain ⟨call, same, both⟩ := fits.sleeps waiting
          rw [has] at same
          cases same
          exact both
        · exact fun both => fits.lags trivial ⟨pending, has, both⟩
      rw [unfinished.1, unfinished.2, agrees]
      simp
  · rw [Option.all_eq_true]
    intro futex opened
    rw [List.all_eq_true]
    rintro ⟨uaddr, queue⟩ listed
    rw [List.all_eq_true]
    intro waiter member
    have same : process.state.futex = futex := by rw [TraceeState.futex, opened, Option.getD_some]
    have queued : process.state.futex.Queued waiter.tid := by
      refine ⟨uaddr, waiter, ?_, rfl⟩
      rw [same, queueAt, Std.ExtTreeMap.mem_toList_iff_getElem?_eq_some.mp listed]
      exact member
    have waiting : process.state.Waiting waiter.tid := (settled.placed.kept.waitingIff clear).mpr queued
    obtain ⟨slot, thread, read, named⟩ := settled.placed.owned waiter.tid waiting
    have fits := settled.placed.fits slot thread read
    obtain ⟨pending, has, -⟩ := fits.sleeps (named ▸ waiting)
    rw [List.any_eq_true]
    exact ⟨thread, List.mem_of_getElem? read, by simp [named, (fits.unfinished pending has).1]⟩

theorem LiveProcess.Settled.pendingValid (settled : Settled True process) (clear : process.state.futex.NoZero) :
    process.PendingValid where
  valid := settled.validatePendingSyscalls clear
  blocked := by
    intro slot
    rw [settled.blocked slot, Option.any_eq_true]
    refine exists_congr fun thread => and_congr_right fun _ => ?_
    rw [ThreadState.waits, Bool.and_eq_true, Option.any_eq_true]
    simp
  queued := by
    intro thread member
    obtain ⟨slot, read⟩ := List.mem_iff_getElem?.mp member
    have fits := settled.placed.fits slot thread read
    rw [← settled.placed.kept.waitingIff clear]
    exact ⟨fits.sleeps, fits.lags trivial⟩
  ended := by
    intro thread member dead
    obtain ⟨slot, read⟩ := List.mem_iff_getElem?.mp member
    cases has : thread.pendingSyscall with
    | none => rfl
    | some pending =>
      have alive := ((settled.placed.fits slot thread read).unfinished pending has).1
      rw [dead] at alive
      contradiction

/-- A thread that is queued at address zero has no waiting call that passes the check. -/
theorem LiveProcess.PendingValid.noZero (valid : process.PendingValid) (settled : Settled True process) :
    process.state.futex.NoZero := by
  rw [NoZero, List.eq_nil_iff_forall_not_mem]
  intro waiter member
  have filed := (settled.placed.kept.indexed.filed waiter.tid 0).mpr ⟨waiter, member, rfl⟩
  have owner : ∃ thread ∈ process.state.threads, thread.tid = waiter.tid := by
    have checked := valid.valid
    rw [Kernel.validatePendingSyscalls, Bool.and_eq_true] at checked
    have queues := checked.2
    cases opened : process.state.futexState with
    | none =>
      rw [TraceeState.futex, opened] at member
      simp [queueAt] at member
    | some futex =>
      rw [opened, Option.all_some, List.all_eq_true] at queues
      rw [TraceeState.futex, opened, Option.getD_some, queueAt] at member
      cases read : futex.waiters[(0 : UInt64)]? with
      | none => simp [read] at member
      | some queue =>
        rw [read] at member
        have live := queues (0, queue) (Std.ExtTreeMap.mem_toList_iff_getElem?_eq_some.mpr read)
        obtain ⟨thread, present, named⟩ := List.any_eq_true.mp (List.all_eq_true.mp live waiter member)
        rw [Bool.and_eq_true, beq_iff_eq] at named
        exact ⟨thread, present, named.1⟩
  obtain ⟨thread, present, named⟩ := owner
  obtain ⟨slot, read⟩ := List.mem_iff_getElem?.mp present
  have waits := (valid.queued thread present).mp ⟨0, waiter, member, named.symm⟩
  have waiting := (settled.placed.fits slot thread read).lags trivial waits
  obtain ⟨uaddr, other, positive⟩ := isThreadWaiting_iff.mp waiting
  rw [named, filed] at other
  exact positive (Option.some.inj other).symm

/-! ## One step -/

variable {machine : Machine G np} {state next : PtmcState G np} {label : Event G np × Option Outcome}

/-- A thread whose call is granted finds its result at its next step. -/
theorem delivers_granted {node : Fin np} {slot : ℕ} {entry : Entry G} {outcome : Outcome} {thread : ThreadState}
    {pending : PendingSyscall} (read : (state.process node).state.threads[slot]? = some thread)
    (has : thread.pendingSyscall = some pending) (ready : pending.phase = .ready)
    (acted : state.normalAction machine node slot entry = .ok (outcome, next)) :
    outcome = .returned pending.result.toInt ∧ ∃ renewed, (next.process node).state.threads[slot]? = some renewed ∧
      renewed.pendingSyscall = none := by
  unfold PtmcState.normalAction at acted
  split at acted
  · unfold PtmcState.doSingleSyscall PtmcState.completePendingSyscall at acted
    rw [if_neg (by rintro empty; simp [empty] at read)] at acted
    obtain ⟨completed, finished, rest⟩ := Except.bind_eq_ok.mp acted
    obtain ⟨found, acts, final⟩ := Except.bind_eq_ok.mp finished
    have same := (liveThread_spec acts).1
    rw [read] at same
    cases same
    simp only [has, ready] at final
    cases final
    cases rest
    refine ⟨rfl, thread.withCall none, ?_, rfl⟩
    simp only [PtmcState.setProcess, Function.update_self]
    exact List.getElem?_set_self (List.getElem?_eq_some_iff.mp read).1
  · contradiction

theorem grantsKept_step (settled : ∀ node, Settled True (state.process node))
    (clear : ∀ node, (state.process node).state.futex.NoZero) (stepped : kernelStep machine state label next) :
    GrantsKept state label next := by
  intro node slot thread pending read has ready
  obtain ⟨event, outcome⟩ := label
  by_cases delivers : event.delivers node slot
  · cases event with
    | normal cursor place entry =>
      obtain ⟨rfl, rfl⟩ := delivers
      obtain ⟨⟨_, _⟩, acted, same⟩ := Except.map_eq_ok.mp stepped
      cases same
      obtain ⟨rfl, renewed, there, gone⟩ := delivers_granted read has ready acted
      exact ⟨renewed, there, .inr (.inr ⟨gone, entry, rfl⟩)⟩
    | timeout cursor place =>
      obtain ⟨rfl, rfl⟩ := delivers
      obtain ⟨⟨_, _⟩, acted, same⟩ := Except.map_eq_ok.mp stepped
      unfold PtmcState.timeoutAction at acted
      split at acted
      · contradiction
      · contradiction
      · next target admitted =>
        obtain ⟨found, call, -, there, -, waits, waiting, -⟩ := PtmcState.timeoutActionClock_spec admitted
        rw [read] at there
        cases there
        rw [has] at waits
        cases waits
        rw [ready] at waiting
        contradiction
    | refresh => exact delivers.elim
    | refreshFutex cursor => exact delivers.elim
    | setDeadline cursor tid deadline => exact delivers.elim
    | expire cursor tid => exact delivers.elim
    | grant cursor tid result => exact delivers.elim
  · have proceeds := PtmcState.proceeds_step settled clear stepped node
    obtain ⟨renewed, there, endures⟩ := proceeds.endures slot thread delivers read
    obtain kept | dead := endures.granted pending has ready
    · exact ⟨renewed, there, .inl kept⟩
    · exact ⟨renewed, there, .inr (.inl dead)⟩

/-! ## Whole runs -/

/-- Nobody is queued at address zero along a run exactly if no step of it queues anybody there. -/
theorem noZero_iff_moves (settled : ∀ node, Settled True (state.process node))
    (clear : ∀ node, (state.process node).state.futex.NoZero)
    {run : List ((Event G np × Option Outcome) × PtmcState G np)} (runs : Run (kernelStep machine) state run) :
    (∀ other ∈ visited state run, ∀ node, (other.process node).state.futex.NoZero) ↔
      ∀ move ∈ moves state run, ∀ node, ¬move.2.1.1.queuesAtZero machine move.1 node := by
  have keeps : ∀ (state : PtmcState G np) (label : Event G np × Option Outcome) (next : PtmcState G np),
      ((∀ node, Settled True (state.process node)) ∧ ∀ node, (state.process node).state.futex.NoZero) →
      (∀ node, ¬label.1.queuesAtZero machine state node) → kernelStep machine state label next →
      (∀ node, Settled True (next.process node)) ∧ ∀ node, (next.process node).state.futex.NoZero := by
    rintro state label next ⟨settled, clear⟩ allowed stepped
    have proceeds := PtmcState.proceeds_step settled clear stepped
    exact ⟨fun node => (proceeds node).settled, fun node => (proceeds node).clear (allowed node)⟩
  refine Run.property_iff keeps (fun _ both => both.2) ?_ ⟨settled, clear⟩ runs
  rintro state label next ⟨settled, clear⟩ stepped cleared node zero
  exact PtmcState.zero_step settled clear stepped zero (cleared node)

/-- Unfinished calls stay valid and granted calls are delivered once exactly on the runs that queue nobody at
address zero. -/
theorem pendingValid_iff_noZero {start : PtmcState G np} (started : start.Started)
    {run : List ((Event G np × Option Outcome) × PtmcState G np)} (runs : Run (kernelStep machine) start run) :
    ((∀ state ∈ visited start run, ∀ node, (state.process node).PendingValid) ∧
      ∀ move ∈ moves start run, GrantsKept move.1 move.2.1 move.2.2) ↔
    ∀ state ∈ visited start run, ∀ node, (state.process node).state.futex.NoZero := by
  have initial : ∀ node, Settled True (start.process node) := fun node => started.settled node
  have keeps : ∀ {state : PtmcState G np} {label next}, (∀ node, Settled True (state.process node)) →
      (∀ node, (state.process node).state.futex.NoZero) → kernelStep machine state label next →
      ∀ node, Settled True (next.process node) :=
    fun settled clear stepped node => (PtmcState.proceeds_step settled clear stepped node).settled
  constructor
  · rintro ⟨valid, -⟩
    exact runs.condition_of_property keeps (fun settled valid node => (valid node).noZero (settled node)) initial valid
  · intro clear
    have settled : ∀ state ∈ visited start run, ∀ node, Settled True (state.process node) :=
      runs.invariant keeps initial clear
    refine ⟨fun state visited node => (settled state visited node).pendingValid (clear state visited node), ?_⟩
    exact runs.forall_moves (fun before clear _ _ stepped => grantsKept_step before clear stepped) settled clear

namespace Event

/-- A requeue to address zero. -/
def requeuesToZero (node : Fin np) : Event G np → Prop
  | .normal cursor _ entry =>
    cursor = node ∧ ThreadCall.decode entry.call.nr = some .futex ∧ (futexArguments entry.call).requeuesToZero
  | _ => False

/-- A thread without an unfinished call waits at address zero: the call is not refused, its timeout is valid if it has
one, and the word at the address is the expected one. -/
def waitsAtZero (machine : Machine G np) (state : PtmcState G np) (node : Fin np) : Event G np → Prop
  | .normal cursor slot entry =>
    let call := futexCall machine.guest.toGuestMemory (state.entered node entry) entry.call none
    cursor = node ∧ ThreadCall.decode entry.call.nr = some .futex ∧ (state.process node).Idle slot ∧
      futexTimed machine.guest.toGuestMemory (state.entered node entry) entry.call ∧ call.refused = none ∧
      call.waitsAtZero
  | _ => False

theorem queuesAtZero_iff {event : Event G np} {node : Fin np} (elsewhere : ¬event.requeuesToZero node) :
    event.queuesAtZero machine state node ↔ event.waitsAtZero machine state node := by
  cases event with
  | normal cursor slot entry =>
    constructor
    · rintro ⟨own, decoded, idle, timed, admitted, waits | ⟨moves, -⟩⟩
      · exact ⟨own, decoded, idle, timed, admitted, waits⟩
      · exact absurd ⟨own, decoded, moves⟩ elsewhere
    · rintro ⟨own, decoded, idle, timed, admitted, waits⟩
      exact ⟨own, decoded, idle, timed, admitted, .inl waits⟩
  | _ => rfl

end Event

/-- Unfinished calls stay valid and granted calls are delivered once, on the runs without requeues to address zero,
exactly if no wait at address zero finds its word. -/
theorem pending_calls_valid (machine : Machine G np) {start : PtmcState G np} (started : start.Started)
    {run : List ((Event G np × Option Outcome) × PtmcState G np)} (runs : Run (kernelStep machine) start run)
    (elsewhere : ∀ move ∈ moves start run, ∀ node, ¬move.2.1.1.requeuesToZero node) :
    ((∀ state ∈ visited start run, ∀ node, (state.process node).PendingValid) ∧
      ∀ move ∈ moves start run, GrantsKept move.1 move.2.1 move.2.2) ↔
    ∀ move ∈ moves start run, ∀ node, ¬move.2.1.1.waitsAtZero machine move.1 node := by
  rw [pendingValid_iff_noZero started runs,
    noZero_iff_moves (fun node => started.settled node) (fun node => (started.empty node) ▸ rfl) runs]
  refine forall₂_congr fun move member => forall_congr' fun node => not_congr ?_
  exact Event.queuesAtZero_iff (elsewhere move member node)

/-- A thread waits at address 8, another one wakes it, and it returns: nobody waits at zero. -/
theorem wait_and_wake : ∃ (waiting woken back : PtmcState Unit 1) (first second third : Option Outcome),
    Run (kernelStep zeroMachine) twoThreads [((futexEvent 0 8 0 0 0 0, first), waiting),
        ((futexEvent 1 8 1 1 0 0, second), woken), ((futexEvent 0 8 0 0 0 0, third), back)] ∧
      ((waiting.process 0).state.threads[0]?.bind ThreadState.pendingSyscall).any (·.phase == .waiting) = true ∧
      ((woken.process 0).state.threads[0]?.bind ThreadState.pendingSyscall).any (·.phase == .ready) = true ∧
      third = some (.returned 0) := by
  have computed : ((twoThreads.step zeroMachine (futexEvent 0 8 0 0 0 0) >>= fun waiting =>
      waiting.2.step zeroMachine (futexEvent 1 8 1 1 0 0) >>= fun woken =>
        (woken.2.step zeroMachine (futexEvent 0 8 0 0 0 0)).map fun back => (waiting, woken, back)).toOption.any
          fun run => ((run.1.2.process 0).state.threads[0]?.bind ThreadState.pendingSyscall).any (·.phase == .waiting) &&
            ((run.2.1.2.process 0).state.threads[0]?.bind ThreadState.pendingSyscall).any (·.phase == .ready) &&
            run.2.2.1 == some (.returned 0)) = true := by decide +kernel
  obtain ⟨run, done, checked⟩ := Except.ok_of_any computed
  obtain ⟨waiting, first, rest⟩ := Except.bind_eq_ok.mp done
  obtain ⟨woken, second, rest⟩ := Except.bind_eq_ok.mp rest
  obtain ⟨back, third, rfl⟩ := Except.map_eq_ok.mp rest
  simp only [Bool.and_eq_true, beq_iff_eq] at checked
  exact ⟨waiting.2, woken.2, back.2, waiting.1, woken.1, back.1, .cons first (.cons second (.cons third (.nil _))),
    checked.1.1, checked.1.2, checked.2⟩

/-- The calls of that run are valid all along. -/
theorem pending_calls_valid_wake : twoThreads.Started ∧
    ∃ (run : List ((Event Unit 1 × Option Outcome) × PtmcState Unit 1)) (waiting woken : PtmcState Unit 1),
      Run (kernelStep zeroMachine) twoThreads run ∧ waiting ∈ visited twoThreads run ∧ woken ∈ visited twoThreads run ∧
      ((waiting.process 0).state.threads[0]?.bind ThreadState.pendingSyscall).any (·.phase == .waiting) = true ∧
      ((woken.process 0).state.threads[0]?.bind ThreadState.pendingSyscall).any (·.phase == .ready) = true ∧
      (∀ state ∈ visited twoThreads run, ∀ node, (state.process node).PendingValid) ∧
      ∀ move ∈ moves twoThreads run, GrantsKept move.1 move.2.1 move.2.2 := by
  obtain ⟨waiting, woken, back, first, second, third, runs, waits, granted, -⟩ := wait_and_wake
  refine ⟨twoThreads_started, _, waiting, woken, runs, by simp [visited], by simp [visited], waits, granted, ?_⟩
  have apart : (futexCommand (toInt 0) ≠ futexRequeue ∧ futexCommand (toInt 0) ≠ futexCmpRequeue) ∧
      futexCommand (toInt 1) ≠ futexRequeue ∧ futexCommand (toInt 1) ≠ futexCmpRequeue := by decide
  refine (pending_calls_valid zeroMachine twoThreads_started runs ?_).mpr ?_
  · simp only [moves, List.mem_cons, List.not_mem_nil, or_false]
    rintro move (rfl | rfl | rfl) node ⟨-, -, moves, -⟩
    · exact moves.elim apart.1.1 apart.1.2
    · exact moves.elim apart.2.1 apart.2.2
    · exact moves.elim apart.1.1 apart.1.2
  · simp only [moves, List.mem_cons, List.not_mem_nil, or_false]
    have positive : (8 : UInt64) ≠ 0 := by decide
    rintro move (rfl | rfl | rfl) node ⟨-, -, -, -, -, -, zero, -⟩ <;> exact positive zero

/-- A thread waits at address 0, is granted its wait at once and exits: its place in the queue outlives it. -/
theorem wait_at_zero_invalid : ∃ run : List ((Event Unit 1 × Option Outcome) × PtmcState Unit 1),
    Run (kernelStep zeroMachine) twoThreads run ∧
      run.map (fun move => move.1.1) = [futexEvent 0 0 0 0 0 0, futexEvent 0 0 0 0 0 0, exitEvent 0] ∧
      ∃ state ∈ visited twoThreads run, ¬(state.process 0).PendingValid := by
  have computed : ((twoThreads.step zeroMachine (futexEvent 0 0 0 0 0 0) >>= fun waited =>
      waited.2.step zeroMachine (futexEvent 0 0 0 0 0 0) >>= fun awake =>
        awake.2.step zeroMachine (exitEvent 0)).toOption.any fun ended =>
          !validatePendingSyscalls (ended.2.process 0).state) = true := by decide +kernel
  obtain ⟨ended, done, failed⟩ := Except.ok_of_any computed
  obtain ⟨waited, first, rest⟩ := Except.bind_eq_ok.mp done
  obtain ⟨awake, second, third⟩ := Except.bind_eq_ok.mp rest
  refine ⟨[((_, waited.1), waited.2), ((_, awake.1), awake.2), ((_, ended.1), ended.2)],
    .cons first (.cons second (.cons third (.nil _))), rfl, ended.2, by simp [visited], fun valid => ?_⟩
  rw [valid.valid] at failed
  contradiction

end DetSim.Kernel
