import DetSim.Soundness.PendingRuns

/-! # Coherent futex queues

Over all runs, with wakes of whole ranges of addresses besides, queues and index agree and a queued waiter stays
blocked until something releases it. All of this holds exactly as long as nobody is queued at address zero, by a wait
that finds its word there or by a requeue. Such waiters count as not waiting from then on.
-/

namespace DetSim.Kernel

open FutexState TraceeState LiveProcess LabelledRuns

variable {G : Type} {np : ℕ}

/-- The two indexes of the futex queues agree. -/
structure FutexState.Coherent (futex : FutexState) : Prop where
  indexed : ∀ (tid : Int32) uaddr, futex.waiterMap[tid]? = some uaddr ↔
    ∃ waiter ∈ futex.queueAt uaddr, waiter.tid = tid
  once : ∀ uaddr, ((futex.queueAt uaddr).map FutexWaiter.tid).Nodup
  alone : ∀ first second, ∀ left ∈ futex.queueAt first, ∀ right ∈ futex.queueAt second,
    left.tid = right.tid → first = second
  nonempty : ∀ uaddr : UInt64, futex.waiters[uaddr]? ≠ some []
  placed : ∀ uaddr, ∀ waiter ∈ futex.queueAt uaddr, waiter.uaddr = uaddr
  waiting : ∀ tid, futex.isThreadWaiting tid = true ↔ futex.Queued tid

theorem FutexState.Kept.coherent {futex : FutexState} (kept : futex.Kept) (clear : futex.NoZero) : futex.Coherent where
  indexed := kept.indexed.filed
  once := kept.indexed.distinct
  alone := fun _ _ _ here _ there same => kept.indexed.place_unique here there same
  nonempty := kept.nonempty
  placed := kept.placed
  waiting := fun _ => kept.waitingIff clear

/-- A waiter at address zero is queued and not waiting. -/
theorem FutexState.Coherent.noZero {futex : FutexState} (coherent : futex.Coherent) : futex.NoZero := by
  rw [NoZero, List.eq_nil_iff_forall_not_mem]
  intro waiter member
  have filed := (coherent.indexed waiter.tid 0).mpr ⟨waiter, member, rfl⟩
  obtain ⟨uaddr, other, positive⟩ := isThreadWaiting_iff.mp ((coherent.waiting _).mpr ⟨0, waiter, member, rfl⟩)
  rw [filed] at other
  exact positive (Option.some.inj other).symm

/-- What can happen to the futex queues: an event of the kernel, or a wake of a range. -/
inductive QueueEvent (G : Type) (np : ℕ)
  | kernel (event : Event G np)
  | wakeRange (node : Fin np) (start stop : UInt64)

def queueStep (machine : Machine G np) (state : PtmcState G np) (event : QueueEvent G np) (next : PtmcState G np) :
    Prop :=
  match event with
  | .kernel event => ∃ outcome, state.step machine event = .ok (outcome, next)
  | .wakeRange node start stop => next = state.wakeRange node start stop

/-- The threads that an event lets leave their queues. -/
def QueueEvent.releases (machine : Machine G np) (state : PtmcState G np) (node : Fin np) (tid : Int32) :
    QueueEvent G np → Prop
  | .kernel event => event.releases machine state node tid
  | .wakeRange cursor start stop => cursor = node ∧
      ∃ uaddr, (state.process node).state.futex.waiterMap[tid]? = some uaddr ∧ inRange start stop uaddr

/-- A waiter that nothing releases stays queued, and its thread blocked. -/
def StaysBlocked (machine : Machine G np) (state : PtmcState G np) (event : QueueEvent G np) (next : PtmcState G np) :
    Prop :=
  ∀ node tid, (state.process node).state.futex.Queued tid → ¬event.releases machine state node tid →
    (next.process node).state.futex.Queued tid ∧ ∃ (slot : ℕ) (thread : ThreadState),
      (next.process node).state.threads[slot]? = some thread ∧ thread.tid = tid ∧
        (next.process node).threadBlocked slot = true

variable {machine : Machine G np} {state next : PtmcState G np} {event : QueueEvent G np} {node : Fin np}

theorem futex_wakeRange (state : PtmcState G np) (node : Fin np) (start stop : UInt64) :
    ((state.wakeRange node start stop).process node).state.futex =
      ((state.process node).state.futex.wakeWaitersInRange start stop).2 := by
  simp only [PtmcState.wakeRange, PtmcState.setProcess, Function.update_self, TraceeState.futex]
  have nobody : (∅ : Map UInt64 (List FutexWaiter)).toList = [] := Std.ExtTreeMap.toList_eq_nil_iff.mpr rfl
  cases (state.process node).state.futexState with
  | none => simp [FutexState.wakeWaitersInRange, nobody]
  | some futex => rfl

theorem settled_wakeRange (settled : Settled False (state.process node)) (start stop : UInt64) :
    Settled False ((state.wakeRange node start stop).process node) ∧ ∀ tid, (state.process node).state.futex.Queued tid →
      ¬(QueueEvent.wakeRange node start stop).releases machine state node tid →
        ((state.wakeRange node start stop).process node).state.futex.Queued tid := by
  have placed := settled.placed
  have released := placed.kept.wakeWaitersInRange start stop
  have queues := futex_wakeRange state node start stop
  have threads : ((state.wakeRange node start stop).process node).state.threads = (state.process node).state.threads := by
    simp only [PtmcState.wakeRange, PtmcState.setProcess, Function.update_self]
  refine ⟨⟨placed.release threads (queues ▸ released) ?_, ?_⟩, ?_⟩
  · simp only [PtmcState.wakeRange, PtmcState.setProcess, Function.update_self]
    exact Option.map_eq_none_iff.mp
  · intro slot
    rw [threads, ← settled.blocked slot]
    simp only [PtmcState.wakeRange, PtmcState.setProcess, Function.update_self]
  · intro tid queued stays
    rw [queues]
    exact released.stays tid queued fun inside => stays ⟨rfl, inside⟩

/-- One step keeps the invariant, and lets nobody leave whom it does not release. -/
theorem settled_queueStep (settled : ∀ node, Settled False (state.process node))
    (clear : ∀ node, (state.process node).state.futex.NoZero) (stepped : queueStep machine state event next)
    (node : Fin np) : Settled False (next.process node) ∧ ∀ tid, (state.process node).state.futex.Queued tid →
      ¬event.releases machine state node tid → (next.process node).state.futex.Queued tid := by
  cases event with
  | kernel event =>
    obtain ⟨outcome, stepped⟩ := stepped
    have proceeds := PtmcState.proceeds_step settled clear stepped node
    exact ⟨proceeds.settled, proceeds.stays⟩
  | wakeRange cursor start stop =>
    cases stepped
    by_cases own : cursor = node
    · subst own
      exact settled_wakeRange (settled cursor) start stop
    · have same : (state.wakeRange cursor start stop).process node = state.process node :=
        Function.update_of_ne (Ne.symm own) ..
      rw [same]
      exact ⟨settled node, fun _ queued _ => queued⟩

/-- A queued thread is blocked. -/
theorem blocked_of_queued {process : LiveProcess} (settled : Settled False process)
    (clear : process.state.futex.NoZero) {tid : Int32} (queued : process.state.futex.Queued tid) :
    ∃ (slot : ℕ) (thread : ThreadState), process.state.threads[slot]? = some thread ∧ thread.tid = tid ∧
      process.threadBlocked slot = true := by
  have waiting : process.state.Waiting tid := (settled.placed.kept.waitingIff clear).mpr queued
  obtain ⟨slot, thread, read, rfl⟩ := settled.placed.owned tid waiting
  have fits := settled.placed.fits slot thread read
  obtain ⟨pending, has, -, phase⟩ := fits.sleeps waiting
  refine ⟨slot, thread, read, rfl, ?_⟩
  rw [settled.blocked slot, read]
  simp [ThreadState.waits, (fits.unfinished pending has).1, has, phase]

/-- Futex queues are coherent and waiters stay blocked exactly on the runs that queue nobody at address zero. -/
theorem coherent_iff_noZero {start : PtmcState G np} (started : start.Started)
    {run : List (QueueEvent G np × PtmcState G np)} (runs : Run (queueStep machine) start run) :
    ((∀ state ∈ visited start run, ∀ node, (state.process node).state.futex.Coherent) ∧
      ∀ move ∈ moves start run, StaysBlocked machine move.1 move.2.1 move.2.2) ↔
    ∀ state ∈ visited start run, ∀ node, (state.process node).state.futex.NoZero := by
  have initial : ∀ node, Settled False (start.process node) := fun node => started.settled node
  constructor
  · rintro ⟨coherent, -⟩ state visited node
    exact (coherent state visited node).noZero
  · intro clear
    have settled : ∀ state ∈ visited start run, ∀ node, Settled False (state.process node) :=
      runs.invariant (fun settled clear stepped node => (settled_queueStep settled clear stepped node).1) initial clear
    refine ⟨fun state visited node => (settled state visited node).placed.kept.coherent (clear state visited node), ?_⟩
    refine runs.forall_moves ?_ settled clear
    intro state event next before clear after cleared stepped node tid queued stays
    have remains := (settled_queueStep before clear stepped node).2 tid queued stays
    exact ⟨remains, blocked_of_queued (after node) (cleared node) remains⟩

/-- An event that queues a thread at address zero: a wait there that finds its word, or a requeue that moves somebody. -/
def QueueEvent.queuesAtZero (machine : Machine G np) (state : PtmcState G np) (node : Fin np) : QueueEvent G np → Prop
  | .kernel event => event.queuesAtZero machine state node
  | .wakeRange _ _ _ => False

/-- Nobody is queued at address zero after a step exactly if the step queues nobody there. -/
theorem noZero_queueStep_iff (settled : ∀ node, Settled False (state.process node))
    (clear : ∀ node, (state.process node).state.futex.NoZero) (stepped : queueStep machine state event next) :
    (∀ node, (next.process node).state.futex.NoZero) ↔ ∀ node, ¬event.queuesAtZero machine state node := by
  cases event with
  | kernel event =>
    obtain ⟨outcome, stepped⟩ := stepped
    have proceeds := PtmcState.proceeds_step settled clear stepped
    constructor
    · exact fun cleared node zero => PtmcState.zero_step settled clear stepped zero (cleared node)
    · exact fun avoids node => (proceeds node).clear (avoids node)
  | wakeRange cursor start stop =>
    cases stepped
    refine iff_of_true (fun node => ?_) fun _ => id
    by_cases own : cursor = node
    · subst own
      rw [NoZero, futex_wakeRange, queueAt_wakeWaitersInRange]
      split
      · rfl
      · exact clear cursor
    · have same : (state.wakeRange cursor start stop).process node = state.process node :=
        Function.update_of_ne (Ne.symm own) ..
      rw [same]
      exact clear node

/-- Futex queues are coherent and waiters stay blocked exactly on the runs in which no wait at address zero finds its
word and no requeue moves a waiter there. -/
theorem futex_queues_coherent (machine : Machine G np) {start : PtmcState G np} (started : start.Started)
    {run : List (QueueEvent G np × PtmcState G np)} (runs : Run (queueStep machine) start run) :
    ((∀ state ∈ visited start run, ∀ node, (state.process node).state.futex.Coherent) ∧
      ∀ move ∈ moves start run, StaysBlocked machine move.1 move.2.1 move.2.2) ↔
    ∀ move ∈ moves start run, ∀ node, ¬move.2.1.queuesAtZero machine move.1 node := by
  rw [coherent_iff_noZero started runs]
  have keeps : ∀ (state : PtmcState G np) (event : QueueEvent G np) (next : PtmcState G np),
      ((∀ node, Settled False (state.process node)) ∧ ∀ node, (state.process node).state.futex.NoZero) →
      (∀ node, ¬event.queuesAtZero machine state node) → queueStep machine state event next →
      (∀ node, Settled False (next.process node)) ∧ ∀ node, (next.process node).state.futex.NoZero := by
    rintro state event next ⟨settled, clear⟩ allowed stepped
    refine ⟨fun node => (settled_queueStep settled clear stepped node).1, ?_⟩
    exact (noZero_queueStep_iff settled clear stepped).mpr allowed
  refine Run.property_iff keeps (fun _ both => both.2) ?_ ⟨fun node => started.settled node, ?_⟩ runs
  · rintro state event next ⟨settled, clear⟩ stepped cleared
    exact (noZero_queueStep_iff settled clear stepped).mp cleared
  · intro node
    rw [started.empty node]
    rfl

/-- A thread waits at address 8, and another one requeues it to address 16, where it stays: that is coherent. -/
theorem futex_queues_coherent_requeue : twoThreads.Started ∧ ∃ waiting moved : PtmcState Unit 1,
    Run (queueStep zeroMachine) twoThreads
      [(.kernel (futexEvent 0 8 0 0 0 0), waiting), (.kernel (futexEvent 1 8 3 0 1 16), moved)] ∧
    (moved.process 0).state.futex.getWaiters 16 = [1] ∧ (moved.process 0).state.futex.Coherent ∧
    (moved.process 0).threadBlocked 0 = true ∧
    StaysBlocked zeroMachine waiting (.kernel (futexEvent 1 8 3 0 1 16)) moved := by
  have computed : (((twoThreads.step zeroMachine (futexEvent 0 8 0 0 0 0)) >>= fun waited =>
      (waited.2.step zeroMachine (futexEvent 1 8 3 0 1 16)).map fun moved => (waited, moved)).toOption.any fun run =>
        (run.2.2.process 0).state.futex.getWaiters 16 == [1] && (run.2.2.process 0).threadBlocked 0) = true := by
    decide +kernel
  obtain ⟨run, done, checked⟩ := Except.ok_of_any computed
  obtain ⟨waited, first, rest⟩ := Except.bind_eq_ok.mp done
  obtain ⟨moved, second, rfl⟩ := Except.map_eq_ok.mp rest
  simp only [Bool.and_eq_true, beq_iff_eq] at checked
  have runs : Run (queueStep zeroMachine) twoThreads [(.kernel (futexEvent 0 8 0 0 0 0), waited.2),
      (.kernel (futexEvent 1 8 3 0 1 16), moved.2)] := .cons ⟨waited.1, first⟩ (.cons ⟨moved.1, second⟩ (.nil _))
  have waits : ¬(FutexState.Call.requeuesToZero (futexArguments ⟨sysFutex, 0, #v[8, 0, 0, 0, 0, 0]⟩)) :=
    fun moves => moves.1.elim (by decide) (by decide)
  have good := (futex_queues_coherent zeroMachine twoThreads_started runs).mpr (by
    simp only [moves, List.mem_cons, List.not_mem_nil, or_false]
    have eight : (8 : UInt64) ≠ 0 := by decide
    have sixteen : (16 : UInt64) ≠ 0 := by decide
    rintro move (rfl | rfl) node ⟨-, -, -, -, -, zero | zero⟩
    · exact eight zero.2.1
    · exact waits zero.1
    · exact eight zero.2.1
    · exact sixteen zero.1.2)
  exact ⟨twoThreads_started, waited.2, moved.2, runs, checked.1, good.1 _ (by simp [visited]) 0, checked.2,
    good.2 _ (List.mem_cons_of_mem _ List.mem_cons_self)⟩

/-- A thread waits at address 8, and another one requeues it to address 0: it stands in a queue and counts as not
waiting. -/
theorem requeue_to_zero_incoherent : ∃ waiting moved : PtmcState Unit 1,
    Run (queueStep zeroMachine) twoThreads
      [(.kernel (futexEvent 0 8 0 0 0 0), waiting), (.kernel (futexEvent 1 8 3 0 1 0), moved)] ∧
    ¬(moved.process 0).state.futex.Coherent := by
  have computed : (((twoThreads.step zeroMachine (futexEvent 0 8 0 0 0 0)) >>= fun waited =>
      waited.2.step zeroMachine (futexEvent 1 8 3 0 1 0)).toOption.any fun moved =>
        !((moved.2.process 0).state.futex.queueAt 0).isEmpty) = true := by decide +kernel
  obtain ⟨moved, done, queued⟩ := Except.ok_of_any computed
  obtain ⟨waited, first, second⟩ := Except.bind_eq_ok.mp done
  refine ⟨waited.2, moved.2, .cons ⟨waited.1, first⟩ (.cons ⟨moved.1, second⟩ (.nil _)), fun coherent => ?_⟩
  rw [coherent.noZero] at queued
  contradiction

end DetSim.Kernel
