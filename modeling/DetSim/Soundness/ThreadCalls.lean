import DetSim.Soundness.PendingThreads

/-! # Calls of threads

Suspensions, futex calls, exits and births of threads keep the joint invariant of their process. A suspended
call is valid once it has its deadline, a futex wait once its thread is queued, and an exiting thread leaves the
invariant for the moment between its cleared call and its departure from the queues; such pairs of steps are
taken together.
-/

namespace DetSim.Kernel

open Except (bind_eq_ok)

open FutexState TraceeState

namespace LiveProcess

variable {process after : LiveProcess} {prompt lag : Prop} {scope : Scope} {slot : ℕ} {thread : ThreadState}
  {info : SyscallInfo} {reason : PendingReason} {deadline : Option PendingDeadline} {G : Type}
  {memory : G} {result : Int} {exitCode : Int32} {number : ℕ}

/-! ## Suspensions -/

/-- A call that waits from now on. -/
def waitingCall (info : SyscallInfo) (reason : PendingReason) (deadline : Option PendingDeadline) : PendingSyscall :=
  ⟨.waiting, reason, info.nr, info.args, 0, deadline⟩

/-- A thread without an unfinished call. -/
def Idle (process : LiveProcess) (slot : ℕ) : Prop :=
  ∀ thread, process.state.threads[slot]? = some thread → thread.pendingSyscall = none

/-- What a suspension does, with the deadline that follows it. -/
structure Suspends (thread : ThreadState) (slot : ℕ) (info : SyscallInfo) (reason : PendingReason)
    (deadline : Option PendingDeadline) (process after : LiveProcess) : Prop where
  read : process.state.threads[slot]? = some thread
  alive : thread.alive = true
  threads : after.state.threads =
    process.state.threads.set slot (thread.withCall (some (waitingCall info reason deadline)))
  futex : after.state.futexState = process.state.futexState
  blocked : after.BlockedExactly
  timed : ∀ time, deadline = some time → validateTimedPending (waitingCall info reason deadline) time = true

theorem liveThread_spec {message : String} (returned : process.liveThread message slot = .ok thread) :
    process.state.threads[slot]? = some thread ∧ thread.alive = true := by
  unfold liveThread at returned
  split at returned
  · contradiction
  · next found read =>
    split at returned
    · next alive =>
      cases returned
      exact ⟨read, alive⟩
    · contradiction

theorem suspendSyscall_suspends (bounded : process.state.threads.length ≤ maxThreadsPerProcess)
    (idle : process.Idle slot) (returned : process.suspendSyscall slot info reason = .ok after) :
    ∃ thread, Suspends thread slot info reason none process after := by
  unfold suspendSyscall at returned
  obtain ⟨thread, acts, rest⟩ := bind_eq_ok.mp returned
  obtain ⟨read, alive⟩ := liveThread_spec acts
  split at rest
  · contradiction
  · cases rest
    refine ⟨thread, read, alive, ?_, rfl, blockedExactly_sync ((List.length_set ..).trans_le bounded), ?_⟩
    · rw [idle thread read]
      rfl
    · intro time absent
      contradiction

theorem Suspends.setPendingDeadline (suspends : Suspends thread slot info reason none process after)
    (numbered : Numbered process.state.threads) {time : PendingDeadline} {last : LiveProcess}
    (returned : after.setPendingDeadline thread.tid time = .ok last) :
    Suspends thread slot info reason (some time) process last := by
  unfold LiveProcess.setPendingDeadline at returned
  split_ifs at returned
  split at returned
  · contradiction
  · next place found pending unfinished =>
    split at returned
    · contradiction
    · next timed =>
      cases returned
      obtain ⟨there, named, has, -⟩ := unfinished_spec unfinished
      have inside := (List.getElem?_eq_some_iff.mp suspends.read).1
      have renumbered : Numbered (process.state.threads.set slot
          (thread.withCall (some (waitingCall info reason none)))) := numbered.set suspends.read rfl
      rw [← suspends.threads] at renumbered
      have here : after.state.threads[slot]? = some (thread.withCall (some (waitingCall info reason none))) := by
        rw [suspends.threads, List.getElem?_set_self inside]
      have same : place = slot := renumbered.unique there here named
      subst same
      rw [there] at here
      cases here
      cases has
      refine ⟨suspends.read, suspends.alive, ?_, suspends.futex, ?_, ?_⟩
      · rw [setThread, suspends.threads, List.set_set]
        rfl
      · exact suspends.blocked.set there rfl rfl rfl
      · rintro _ ⟨rfl⟩
        rwa [Bool.not_eq_true, Bool.not_eq_false'] at timed

/-- A suspension that is no futex wait. -/
theorem Settled.suspends (settled : Settled prompt process) (clear : process.state.futex.NoZero)
    (suspends : Suspends thread slot info reason deadline process after) (idle : process.Idle slot)
    (other : reason ≠ .futex) (valid : validatePending (waitingCall info reason deadline) = true) :
    Proceeds scope prompt process after := by
  have none := idle thread suspends.read
  refine settled.proceeds_set clear suspends.read suspends.threads suspends.futex rfl ?_ ?_ suspends.blocked (.inr ?_)
  · rintro _ ⟨rfl⟩
    exact ⟨suspends.alive, valid⟩
  · refine iff_of_false ?_ (ThreadState.not_waitsOnFutex none)
    rintro ⟨_, ⟨rfl⟩, reason, -⟩
    exact other reason
  · refine ThreadState.Endures.of_unfinished rfl ?_
    intro pending has
    rw [none] at has
    contradiction

/-! ## Timers -/

/-- The checks of a call that waits from now on, for a kind of call that is neither a select nor retried. -/
theorem validatePending_waiting (number : 0 ≤ info.nr) (other : info.nr ≠ sysPselect6)
    (futex : reason = .futex → info.nr = sysFutex)
    (timer : reason = .timer → (info.nr = sysNanosleep ∨ info.nr = sysClockNanosleep) ∧ deadline.isSome = true)
    (io : reason = .io → supportsPendingIo info.nr = true)
    (timed : ∀ time, deadline = some time → validateTimedPending (waitingCall info reason deadline) time = true) :
    validatePending (waitingCall info reason deadline) = true := by
  have limited : deadline.all (validateTimedPending (waitingCall info reason deadline)) = true :=
    (Option.all_eq_true _ _).mpr timed
  simp only [validatePending, Bool.and_eq_true]
  refine ⟨⟨⟨⟨⟨⟨decide_eq_true number, rfl⟩, ?_⟩, ?_⟩, by simp [waitingCall, other]⟩, ?_⟩, limited⟩
  · by_cases given : reason = .futex
    · simp [waitingCall, given, futex given]
    · simp [waitingCall, given]
  · by_cases given : reason = .timer
    · obtain ⟨named, some⟩ := timer given
      simp only [waitingCall, given, some]
      rcases named with named | named <;> simp [named]
    · simp [waitingCall, given]
  · by_cases given : reason = .io
    · simp [waitingCall, given, io given]
    · simp [waitingCall, given]

theorem validatePending_select (named : info.nr = sysPselect6) (positive : 0 ≤ toInt (info.args.get 0))
    (outside : overlapsScratch (info.args.get 4) = false) (limited : deadline.isSome = (info.args.get 4 != 0))
    (timed : ∀ time, deadline = some time → validateTimedPending (waitingCall info .timer deadline) time = true) :
    validatePending (waitingCall info .timer deadline) = true := by
  have sleeps : (sysPselect6 == sysNanosleep) = false := by decide
  have clocks : (sysPselect6 == sysClockNanosleep) = false := by decide
  have allowed : ∀ time, deadline = some time → time.clockId = clockMonotonic ∧ time.timeoutResult = 0 := by
    intro time given
    have checked := timed time given
    simp only [validateTimedPending, timedPendingAllowed, waitingCall, named, sleeps, clocks, Bool.false_eq_true,
      if_false, Bool.and_eq_true, beq_iff_eq] at checked
    exact ⟨checked.1.1.2.2, checked.1.1.1⟩
  have all : deadline.all (validateTimedPending (waitingCall info .timer deadline)) = true :=
    (Option.all_eq_true _ _).mpr timed
  have monotonic : (deadline.all fun time => time.clockId == clockMonotonic && time.timeoutResult == 0) = true := by
    rw [Option.all_eq_true]
    intro time given
    rw [(allowed time given).1, (allowed time given).2]
    rfl
  have number : (0 : Int32) ≤ sysPselect6 := by decide
  have first : info.args[0] = info.args.get 0 := rfl
  have fifth : info.args[4] = info.args.get 4 := rfl
  simp only [validatePending, Bool.and_eq_true]
  refine ⟨⟨⟨⟨⟨⟨?_, rfl⟩, rfl⟩, ?_⟩, ?_⟩, rfl⟩, all⟩
  · simpa [waitingCall, named] using number
  · simp [waitingCall, named]
  · simp only [waitingCall, named, first, fifth, outside, limited, monotonic]
    simpa using positive

theorem Settled.startTimer (settled : Settled prompt process) (clear : process.state.futex.NoZero)
    (idle : process.Idle slot) {time : PendingDeadline} (returned : process.startTimer slot info time = .ok after)
    (valid : (∀ given, some time = some given →
      validateTimedPending (waitingCall info .timer (some time)) given = true) →
      validatePending (waitingCall info .timer (some time)) = true) : Proceeds scope prompt process after := by
  unfold LiveProcess.startTimer at returned
  obtain ⟨middle, suspended, rest⟩ := bind_eq_ok.mp returned
  obtain ⟨found, acts, timed⟩ := bind_eq_ok.mp rest
  obtain ⟨thread, suspends⟩ := suspendSyscall_suspends settled.placed.numbered.bounded idle suspended
  have inside := (List.getElem?_eq_some_iff.mp suspends.read).1
  have read := (liveThread_spec acts).1
  rw [suspends.threads, List.getElem?_set_self inside] at read
  cases read
  have done := suspends.setPendingDeadline settled.placed.numbered timed
  exact settled.suspends clear done idle (by decide) (valid done.timed)

variable {guest : GuestMemory G} {now : Timeval} {node : NodeIo G} {outcome : Outcome}

theorem Settled.sleepCall (settled : Settled prompt process) (clear : process.state.futex.NoZero)
    (idle : process.Idle slot) (named : info.nr = sysNanosleep ∨ info.nr = sysClockNanosleep) {clock flags : Int32}
    {request : UInt64} (returned : process.sleepCall guest now node slot info clock flags request = .ok (outcome, after)) :
    Proceeds scope prompt process after := by
  unfold LiveProcess.sleepCall at returned
  split_ifs at returned
  · cases returned
    exact settled.proceeds_same clear rfl rfl
  · split at returned
    · cases returned
      exact settled.proceeds_same clear rfl rfl
    · split at returned
      · cases returned
        exact settled.proceeds_same clear rfl rfl
      · obtain ⟨time, -, rest⟩ := bind_eq_ok.mp returned
        split at rest
        · cases rest
          exact settled.proceeds_same clear rfl rfl
        · obtain ⟨suspended, started, last⟩ := Except.map_eq_ok.mp rest
          cases last
          refine settled.startTimer clear idle started fun timed => ?_
          refine validatePending_waiting ?_ ?_ (fun other => by contradiction) (fun _ => ⟨named, rfl⟩)
            (fun other => by contradiction) timed
          · rcases named with named | named <;> rw [named] <;> decide
          · rcases named with named | named <;> rw [named] <;> decide

theorem Settled.pselectWait (settled : Settled prompt process) (clear : process.state.futex.NoZero)
    (idle : process.Idle slot) (named : info.nr = sysPselect6) (positive : 0 ≤ toInt (info.args.get 0))
    (outside : overlapsScratch (info.args.get 4) = false) {time : Int64 × Int64}
    (returned : process.pselectWait now slot info time = .ok (outcome, after)) : Proceeds scope prompt process after := by
  unfold LiveProcess.pselectWait at returned
  split at returned
  · next unlimited =>
    obtain ⟨suspended, done, last⟩ := Except.map_eq_ok.mp returned
    cases last
    obtain ⟨thread, suspends⟩ := suspendSyscall_suspends settled.placed.numbered.bounded idle done
    refine settled.suspends clear suspends idle (by decide) ?_
    exact validatePending_select named positive outside (by simp [unlimited]) suspends.timed
  · next limited =>
    obtain ⟨deadline, -, rest⟩ := bind_eq_ok.mp returned
    obtain ⟨suspended, started, last⟩ := Except.map_eq_ok.mp rest
    cases last
    exact settled.startTimer clear idle started
      (validatePending_select named positive outside (by simp [limited]))

theorem Settled.startPselectTimer (settled : Settled prompt process) (clear : process.state.futex.NoZero)
    (idle : process.Idle slot) (named : info.nr = sysPselect6) {scanned : NodeIo G}
    (returned : process.startPselectTimer guest now node slot info = .ok (outcome, after, scanned)) :
    Proceeds scope prompt process after := by
  unfold LiveProcess.startPselectTimer at returned
  obtain ⟨-, -, rest⟩ := bind_eq_ok.mp returned
  split at rest
  · contradiction
  · next outside =>
    split at rest
    · cases rest
      exact settled.proceeds_same clear rfl rfl
    · next time timeout =>
      obtain ⟨⟨ready, scan⟩, -, last⟩ := bind_eq_ok.mp rest
      dsimp only at last
      split at last
      · cases last
        exact settled.proceeds_same clear rfl rfl
      · obtain ⟨⟨_, _⟩, waited, same⟩ := Except.map_eq_ok.mp last
        cases same
        have positive : 0 ≤ toInt (info.args.get 0) := by
          unfold pselectTimeout at timeout
          dsimp only at timeout
          split at timeout
          · contradiction
          · split_ifs at timeout with invalid negative
            exact Int32.not_lt.mp negative
        exact settled.pselectWait clear idle named positive (by simpa using outside) waited

/-! ## Suspended I/O -/

theorem supports_of_suspends (suspends : node.ioShouldSuspend guest info result = .ok true) :
    supportsPendingIo info.nr = true := by
  unfold NodeIo.ioShouldSuspend at suspends
  rw [supportsPendingIo, Bool.or_eq_true]
  split at suspends
  · next epoll => exact .inl epoll
  · split at suspends
    · contradiction
    · next data =>
      right
      rw [Bool.or_eq_true, not_or, Bool.not_eq_true, Bool.not_eq_false'] at data
      exact data.1

theorem Settled.suspendIo (settled : Settled prompt process) (clear : process.state.futex.NoZero)
    (idle : process.Idle slot) (supported : supportsPendingIo info.nr = true) {middle : LiveProcess}
    (suspended : process.suspendSyscall slot info .io = .ok middle)
    (returned : middle.configurePendingIo guest now node slot info = .ok after) : Proceeds scope prompt process after := by
  obtain ⟨thread, suspends⟩ := suspendSyscall_suspends settled.placed.numbered.bounded idle suspended
  have done : ∃ deadline, Suspends thread slot info .io deadline process after := by
    unfold configurePendingIo at returned
    obtain ⟨timeout, -, rest⟩ := bind_eq_ok.mp returned
    cases timeout with
    | none =>
      cases rest
      exact ⟨none, suspends⟩
    | some time =>
      obtain ⟨deadline, -, rest⟩ := bind_eq_ok.mp rest
      obtain ⟨found, live, timed⟩ := bind_eq_ok.mp rest
      have read := (liveThread_spec live).1
      rw [suspends.threads, List.getElem?_set_self (List.getElem?_eq_some_iff.mp suspends.read).1] at read
      cases read
      exact ⟨some deadline, suspends.setPendingDeadline settled.placed.numbered timed⟩
  obtain ⟨deadline, suspends⟩ := done
  have known : 0 ≤ info.nr ∧ info.nr ≠ sysPselect6 := by
    simp only [supportsPendingIo, epollCall, dataCall, Bool.or_eq_true, beq_iff_eq] at supported
    rcases supported with (((named | named) | named) | ((((named | named) | named) | named) | named)) <;>
      rw [named] <;> decide
  refine settled.suspends clear suspends idle (by decide) ?_
  exact validatePending_waiting known.1 known.2 (fun other => by contradiction) (fun other => by contradiction)
    (fun _ => supported) suspends.timed

/-! ## Futex calls -/

/-- The timeout of a wait, if it has one, can be read and is valid. -/
def futexTimed (guest : GuestMemory G) (node : NodeIo G) (info : SyscallInfo) : Prop :=
  futexWaits (toInt (info.args.get arg1)) ∧ info.args.get arg3 ≠ 0 →
    ∃ time, node.readTimespec guest (info.args.get arg3) = some time ∧ validTimespec time = true

/-- A call queues a thread at address zero, with the word that it finds in memory. -/
def futexAtZero (guest : GuestMemory G) (node : NodeIo G) (info : SyscallInfo) (futex : FutexState) : Prop :=
  futexTimed guest node info ∧ futex.queuesAtZero (futexCall guest node info none)

/-- What a futex call may touch. -/
def futexScope (guest : GuestMemory G) (node : NodeIo G) (info : SyscallInfo) (process : LiveProcess) : Scope where
  delivers := fun _ => False
  removes := fun tid => tid ∈ process.state.futex.wokenBy (futexArguments info)
  zero := futexAtZero guest node info process.state.futex

theorem futexDeadline_spec {limit : Except Int (Option PendingDeadline)}
    (returned : LiveProcess.futexDeadline guest now node info = .ok limit) :
    (∀ errno, limit = .error errno → ¬futexTimed guest node info) ∧
      ∀ deadline, limit = .ok deadline → futexTimed guest node info ∧
        (deadline.isSome = true → futexWaits (toInt (info.args.get arg1)) = true) := by
  unfold futexDeadline at returned
  dsimp only at returned
  split at returned
  next timed =>
    split at returned
    next unread =>
      cases returned
      refine ⟨fun _ _ readable => ?_, fun _ other => (by cases other)⟩
      obtain ⟨time, read, -⟩ := readable timed
      exact Option.some_ne_none _ (read.symm.trans unread)
    next time read =>
      split at returned
      next invalid =>
        cases returned
        refine ⟨fun _ _ readable => ?_, fun _ other => (by cases other)⟩
        obtain ⟨other, again, valid⟩ := readable timed
        rw [Option.some.inj (read.symm.trans again), valid] at invalid
        contradiction
      next valid =>
        obtain ⟨deadline, -, same⟩ := bind_eq_ok.mp returned
        cases same
        refine ⟨fun _ other => (by cases other), fun _ _ => ⟨fun _ => ⟨time, read, by simpa using valid⟩, fun _ => timed.1⟩⟩
  next untimed =>
    cases returned
    refine ⟨fun _ other => (by cases other), ?_⟩
    rintro _ ⟨rfl⟩
    exact ⟨fun timed => absurd timed untimed, fun some => by cases some⟩

/-- A deadline does not change where a call queues a thread. -/
theorem queuesAtZero_futexCall {futex : FutexState}
    (waits : deadline.isSome = true → futexWaits (toInt (info.args.get arg1)) = true) :
    futex.queuesAtZero (futexCall guest node info deadline) ↔ futex.queuesAtZero (futexCall guest node info none) := by
  cases deadline with
  | none => rfl
  | some deadline =>
    have waits := waits rfl
    have never : ∀ limit, ¬(futexCall guest node info limit).requeuesToZero := by
      rw [futexWaits, Bool.or_eq_true, beq_iff_eq, beq_iff_eq] at waits
      rintro limit ⟨moves | moves, -⟩ <;> rcases waits with wait | wait <;>
        exact absurd (wait.symm.trans moves) (by decide)
    unfold queuesAtZero
    simp only [never, false_and, or_false]
    rfl

theorem futexWaits_iff : futexWaits (toInt (info.args.get 1)) = true ↔ (futexCall guest node info deadline).waits := by
  rw [futexWaits, Bool.or_eq_true, beq_iff_eq, beq_iff_eq]
  rfl

/-- The process after a futex call, once its queues have changed and its own wait is suspended. -/
theorem placed_finishFutex (settled : Settled prompt process) (clear : process.state.futex.NoZero)
    (idle : process.Idle slot) (named : info.nr = sysFutex) (read : process.state.threads[slot]? = some thread)
    {futex : FutexState} {finished : LiveProcess}
    (handled : process.state.futex.handleFutex thread.tid (futexCall guest node info deadline) = .ok (result, futex))
    (returned : (process.withFutex futex).finishFutex slot thread.tid info deadline result = .ok (outcome, finished)) :
    Placed False finished.state ∧ finished.state.futex = futex ∧
      (∀ (other : ℕ) found, process.state.threads[other]? = some found →
        ∃ renewed, finished.state.threads[other]? = some renewed ∧ found.Endures renewed) ∧
      ∀ tid, process.state.futex.Queued tid →
        tid ∉ process.state.futex.wokenBy (futexArguments info) → futex.Queued tid := by
  have placed := settled.placed
  unfold finishFutex at returned
  obtain ⟨answered, released⟩ | ⟨waits, rfl, free, waiter, tid, uaddr, rfl⟩ :=
    handleFutex_cases placed.kept clear handled
  · rw [if_neg (by rwa [futexWaits_iff])] at returned
    cases returned
    refine ⟨placed.release rfl released (fun closed => absurd closed (Option.some_ne_none _)), rfl, ?_, released.stays⟩
    intro other found there
    exact ⟨found, there, ThreadState.Endures.refl found⟩
  · rw [if_pos ⟨futexWaits_iff.mpr waits, rfl⟩] at returned
    obtain ⟨suspended, done, last⟩ := Except.map_eq_ok.mp returned
    cases last
    have suspends : Suspends thread slot info .futex deadline
        (process.withFutex (process.state.futex.addWaiter waiter)) finished := by
      obtain ⟨middle, first, limited⟩ := bind_eq_ok.mp done
      have bounded : (process.withFutex (process.state.futex.addWaiter waiter)).state.threads.length ≤
          maxThreadsPerProcess := placed.numbered.bounded
      obtain ⟨found, suspends⟩ := suspendSyscall_suspends bounded idle first
      have same : found = thread := Option.some.inj (suspends.read.symm.trans read)
      subst same
      cases deadline with
      | none =>
        cases limited
        exact suspends
      | some time => exact suspends.setPendingDeadline placed.numbered limited
    have queues : finished.state.futex = process.state.futex.addWaiter waiter := by
      rw [TraceeState.futex, suspends.futex]
      rfl
    have none := idle thread read
    refine ⟨?_, queues, ?_, fun tid queued _ => queued.addWaiter waiter⟩
    · refine placed.weaken.renew read suspends.threads rfl ?_ ⟨?_, fun _ => ⟨_, rfl, rfl, rfl⟩, False.elim⟩ ?_ ?_
      · intro other foreign
        rw [Waiting, Waiting, queues, isThreadWaiting_addWaiter, if_neg (by rwa [tid])]
      · rintro _ ⟨rfl⟩
        refine ⟨suspends.alive, validatePending_waiting ?_ ?_ (fun _ => named) (fun other => by contradiction)
          (fun other => by contradiction) suspends.timed⟩ <;> rw [named] <;> decide
      · rw [queues]
        exact placed.kept.addWaiter clear (by rwa [tid])
      · intro closed
        rw [suspends.futex] at closed
        contradiction
    · have endures : thread.Endures (thread.withCall (some (waitingCall info .futex deadline))) := by
        refine ThreadState.Endures.of_unfinished rfl ?_
        intro pending has
        rw [none] at has
        contradiction
      intro other found there
      have quiet : Scope.quiet.delivers slot ∨ _ := .inr endures
      exact endures_set read suspends.threads quiet other found id there

/-- The queues of a process are there from the first futex call on. -/
theorem Settled.withFutex (settled : Settled prompt process) (clear : process.state.futex.NoZero) :
    Proceeds scope prompt process (process.withFutex process.state.futex) where
  settled := ⟨⟨settled.placed.numbered, settled.placed.fits, settled.placed.owned, settled.placed.kept,
    fun closed => absurd closed (Option.some_ne_none _)⟩, settled.blocked⟩
  endures := fun _ thread _ read => ⟨thread, read, ThreadState.Endures.refl thread⟩
  stays := fun _ queued _ => queued
  clear := fun _ => clear

theorem Settled.handleFutexCall (settled : Settled prompt process) (clear : process.state.futex.NoZero)
    (idle : process.Idle slot) (named : info.nr = sysFutex)
    (returned : process.handleFutexCall guest now node slot info = .ok (outcome, after)) :
    Proceeds (futexScope guest node info process) prompt process after ∧
      (after.state.futex.NoZero ↔ ¬futexAtZero guest node info process.state.futex) := by
  unfold LiveProcess.handleFutexCall at returned
  dsimp only at returned
  split at returned
  · contradiction
  · next thread read =>
    obtain ⟨limit, limited, rest⟩ := bind_eq_ok.mp returned
    obtain ⟨refused, admitted⟩ := futexDeadline_spec limited
    cases limit with
    | error errno =>
      cases rest
      exact ⟨settled.withFutex clear, iff_of_true clear fun zero => refused errno rfl zero.1⟩
    | ok deadline =>
      obtain ⟨⟨result, futex⟩, handled, rest⟩ := bind_eq_ok.mp rest
      obtain ⟨⟨outcome, finished⟩, finish, last⟩ := bind_eq_ok.mp rest
      cases last
      obtain ⟨placed, queues, endures, stays⟩ := placed_finishFutex settled clear idle named read handled finish
      obtain ⟨timed, waits⟩ := admitted deadline rfl
      have zero : finished.state.futex.NoZero ↔ ¬futexAtZero guest node info process.state.futex := by
        rw [queues, noZero_handleFutex_iff clear settled.placed.kept handled, futexAtZero, and_iff_right timed,
          queuesAtZero_futexCall waits]
      refine ⟨⟨settled_refreshFutexPending placed, ?_, ?_, zero.mpr⟩, zero⟩
      · intro other found _ there
        obtain ⟨renewed, here, lasts⟩ := endures other found there
        refine ⟨_, getElem?_refreshFutexPending ?_, lasts.trans (refreshFutexThread_spec _ renewed).2.2⟩
        exact here
      · intro tid queued waits
        exact queues ▸ stays tid queued waits

/-! ## Exits -/

/-- Threads were woken at some addresses, and nothing else happened. -/
structure Wakes (places : UInt64 → Prop) (process after : LiveProcess) : Prop where
  threads : after.state.threads = process.state.threads
  blocked : after.threadBlocked = process.threadBlocked
  opened : after.state.futexState = none → process.state.futexState = none
  released : Released process.state.futex after.state.futex
    fun tid => ∃ uaddr, process.state.futex.waiterMap[tid]? = some uaddr ∧ places uaddr
  unmoved : ∀ (tid : Int32) uaddr, after.state.futex.waiterMap[tid]? = some uaddr →
    process.state.futex.waiterMap[tid]? = some uaddr
  clear : after.state.futex.NoZero

variable {places : UInt64 → Prop}

theorem Wakes.refl (kept : process.state.futex.Kept) (clear : process.state.futex.NoZero) :
    Wakes places process process :=
  ⟨rfl, rfl, id, Released.refl kept, fun _ _ filed => filed, clear⟩

theorem Wakes.trans {last : LiveProcess} (first : Wakes places process after) (second : Wakes places after last) :
    Wakes places process last where
  threads := second.threads.trans first.threads
  blocked := second.blocked.trans first.blocked
  opened := first.opened ∘ second.opened
  released := by
    refine (first.released.trans second.released).mono fun tid gone => ?_
    obtain before | ⟨uaddr, filed, inside⟩ := gone
    · exact before
    · exact ⟨uaddr, first.unmoved tid uaddr filed, inside⟩
  unmoved := fun tid uaddr filed => first.unmoved tid uaddr (second.unmoved tid uaddr filed)
  clear := second.clear

theorem Wakes.mono {more : UInt64 → Prop} (wakes : Wakes places process after)
    (implies : ∀ uaddr, places uaddr → more uaddr) : Wakes more process after :=
  ⟨wakes.threads, wakes.blocked, wakes.opened,
    wakes.released.mono fun _ gone => gone.imp fun uaddr both => ⟨both.1, implies uaddr both.2⟩,
    wakes.unmoved, wakes.clear⟩

theorem wakes_wakeOne (kept : process.state.futex.Kept) (clear : process.state.futex.NoZero) (address : UInt64) :
    Wakes (· = address) process (process.wakeOne address) := by
  have woken := kept.wake address 1 0xffffffff false
  have cleared := clear.wake kept address 1 0xffffffff false
  have split := takeWaiters_perm (wakeable 0xffffffff false) 1 (process.state.futex.queueAt address)
  have queues : (process.wakeOne address).state.futex = (process.state.futex.wake address 1 0xffffffff false).2 := by
    unfold wakeOne TraceeState.futex
    cases process.state.futexState with
    | none => simp [FutexState.wake]
    | some futex => rfl
  refine ⟨rfl, rfl, Option.map_eq_none_iff.mp, ?_, ?_, ?_⟩
  · rw [queues]
    refine woken.mono fun tid gone => ?_
    obtain ⟨waiter, member, named⟩ := List.mem_map.mp gone
    refine ⟨address, (kept.indexed.filed _ _).mpr ⟨waiter, ?_, named⟩, rfl⟩
    exact split.mem_iff.mp (List.mem_append_left _ member)
  · intro tid uaddr filed
    rw [queues, wake_eq_drop kept, waiterMap_drop] at filed
    split at filed
    · contradiction
    · exact filed
  · rw [queues]
    exact cleared

variable {os : GuestOs G} {image last : ProcessImage G}

theorem wakes_applyRobustEffect (kept : image.1.state.futex.Kept) (clear : image.1.state.futex.NoZero)
    {effect : RobustEffect} (returned : applyRobustEffect os image effect = .ok last) :
    Wakes (fun uaddr => effect.wake = true ∧ uaddr = effect.address) image.1 last.1 := by
  have woken : Wakes (fun uaddr => effect.wake = true ∧ uaddr = effect.address) image.1
      (if effect.wake then image.1.wakeOne effect.address else image.1) := by
    split
    · next wake => exact (wakes_wakeOne kept clear effect.address).mono fun _ same => ⟨wake, same⟩
    · exact Wakes.refl kept clear
  unfold applyRobustEffect at returned
  dsimp only at returned
  generalize (if effect.wake = true then image.1.wakeOne effect.address else image.1) = awake at woken returned
  split at returned
  · obtain ⟨⟨memory, written⟩, -, rest⟩ := bind_eq_ok.mp returned
    cases written with
    | false => contradiction
    | true =>
      cases rest
      exact woken
  · cases returned
    exact woken

theorem wakes_applyRobustCleanup (kept : image.1.state.futex.Kept) (clear : image.1.state.futex.NoZero)
    {effects : List RobustEffect} (returned : applyRobustCleanup os image effects = .ok last) :
    Wakes (fun uaddr => ∃ effect ∈ effects, effect.wake = true ∧ uaddr = effect.address) image.1 last.1 := by
  refine Except.foldlM_invariant (fun other : ProcessImage G => Wakes _ image.1 other.1) ?_ (Wakes.refl kept clear)
    returned
  intro middle effect next member woken stepped
  refine woken.trans ((wakes_applyRobustEffect woken.released.kept woken.clear stepped).mono ?_)
  exact fun uaddr both => ⟨effect, member, both⟩

theorem wakes_clearChildTid (kept : image.1.state.futex.Kept) (clear : image.1.state.futex.NoZero)
    (returned : clearChildTid os image slot thread = .ok last) :
    Wakes (· = thread.clearChildTid) image.1 last.1 := by
  unfold clearChildTid at returned
  split at returned
  · obtain ⟨⟨memory, written⟩, -, rest⟩ := bind_eq_ok.mp returned
    cases written with
    | false =>
      cases rest
      exact Wakes.refl kept clear
    | true =>
      cases rest
      dsimp only
      split
      · exact wakes_wakeOne kept clear _
      · exact Wakes.refl kept clear
  · cases returned
    exact Wakes.refl kept clear

/-- The slots but one are blocked exactly. -/
def BlockedBesides (slot : ℕ) (process : LiveProcess) : Prop :=
  ∀ other, other ≠ slot → process.threadBlocked other = process.state.threads[other]?.any ThreadState.waits

/-- An exiting thread gives up its call and leaves the queues. -/
theorem forgotten_leaveQueues (placed : Placed lag process.state) (clear : process.state.futex.NoZero)
    (blocked : BlockedBesides slot process) (read : process.state.threads[slot]? = some thread) :
    Placed prompt ((process.setThread slot (forgetRegistrations thread)).leaveQueues thread.tid).state ∧
      BlockedBesides slot ((process.setThread slot (forgetRegistrations thread)).leaveQueues thread.tid) ∧
      ((process.setThread slot (forgetRegistrations thread)).leaveQueues thread.tid).state.futex.NoZero ∧
      (∀ tid, process.state.futex.Queued tid → tid ≠ thread.tid →
        ((process.setThread slot (forgetRegistrations thread)).leaveQueues thread.tid).state.futex.Queued tid) ∧
      ∀ (other : ℕ) found, (process.state.threads.set slot (forgetRegistrations thread))[other]? = some found →
        ∃ renewed, ((process.setThread slot (forgetRegistrations thread)).leaveQueues thread.tid).state.threads[other]? =
          some renewed ∧ found.Endures renewed ∧ (found.pendingSyscall = none → renewed.pendingSyscall = none) := by
  have gone : (forgetRegistrations thread).pendingSyscall = none := rfl
  have left := placed_leave placed clear read (ThreadState.not_waitsOnFutex gone) rfl (by simp [gone])
  unfold leaveQueues
  split
  · have queues : ((process.setThread slot (forgetRegistrations thread)).wakeThread thread.tid).state.futex =
        (process.state.futex.removeWaiter thread.tid).2 := futex_wakeThread process thread.tid
    have settled : Settled prompt _ := settled_refreshFutexPending left
    refine ⟨settled.placed, fun other _ => settled.blocked other, ?_, ?_, ?_⟩
    · exact queues ▸ clear.removeWaiter placed.kept thread.tid
    · intro tid queued foreign
      exact queues ▸ (placed.kept.removeWaiter thread.tid).stays tid queued foreign
    · intro other found there
      refine ⟨_, getElem?_refreshFutexPending there, (refreshFutexThread_spec _ found).2.2, ?_⟩
      intro idle
      rw [refreshFutexThread]
      simp [idle]
  · next closed =>
    have none : process.state.futexState = none := Option.not_isSome_iff_eq_none.mp closed
    have same : process.wakeThread thread.tid = process := by
      rw [LiveProcess.wakeThread, none, Option.map_none, ← none]
    rw [same] at left
    refine ⟨left.of_closed none, ?_, clear, fun _ queued _ => queued, ?_⟩
    · intro other foreign
      rw [setThread, blocked other foreign, List.getElem?_set_ne foreign.symm]
    · intro other found there
      exact ⟨found, there, ThreadState.Endures.refl found, id⟩

/-- What the exit of a thread may touch: the thread leaves its queue, and waiters are woken at the address of its
identifier and at those of the robust futexes it gives up. -/
def exitScope (process : LiveProcess) (thread : ThreadState) (effects : List RobustEffect) : Scope where
  delivers := fun _ => False
  removes := fun tid => tid = thread.tid ∨ ∃ uaddr, process.state.futex.waiterMap[tid]? = some uaddr ∧
    (uaddr = thread.clearChildTid ∨ ∃ effect ∈ effects, effect.wake = true ∧ uaddr = effect.address)
  zero := False

/-- What the exit of a process may touch: all its threads leave. -/
def groupScope : Scope := ⟨fun _ => False, fun _ => True, False⟩

theorem endThread_of_read (read : process.state.threads[slot]? = some thread) (exitCode : Int32) :
    process.endThread slot exitCode =
      { process.setThread slot { thread with exitCode := exitCode &&& 255, alive := false, physicalTid := 0 } with
        threadBlocked := Function.update process.threadBlocked slot false } := by
  rw [endThread, read]
  rfl

theorem settled_endThread (placed : Placed prompt process.state) (blocked : BlockedBesides slot process)
    (read : process.state.threads[slot]? = some thread) (idle : thread.pendingSyscall = none) (exitCode : Int32) :
    Settled prompt (process.endThread slot exitCode) := by
  have inside := (List.getElem?_eq_some_iff.mp read).1
  rw [endThread_of_read read]
  refine ⟨placed.renew read rfl rfl (fun _ _ => Iff.rfl) ⟨?_, ?_, ?_⟩ placed.kept ?_, ?_⟩
  · intro pending has
    exact absurd (idle.symm.trans has) (Option.some_ne_none pending).symm
  · intro waiting
    exact absurd waiting (placed.not_waiting read (ThreadState.not_waitsOnFutex idle))
  · intro _ waits
    exact absurd waits (ThreadState.not_waitsOnFutex idle)
  · intro closed
    exact ⟨closed, ThreadState.not_waitsOnFutex idle⟩
  · intro other
    by_cases here : other = slot
    · subst here
      dsimp only [setThread]
      rw [Function.update_self, List.getElem?_set_self inside]
      rfl
    · dsimp only [setThread]
      rw [Function.update_of_ne here, blocked other here, List.getElem?_set_ne (Ne.symm here)]

theorem Settled.exitSlot (settled : Settled prompt image.1) (clear : image.1.state.futex.NoZero)
    (read : image.1.state.threads[slot]? = some thread) {effects : List RobustEffect}
    (returned : LiveProcess.exitSlot os image slot thread effects exitCode = .ok last) :
    Proceeds (exitScope image.1 thread effects) prompt image.1 last.1 := by
  unfold LiveProcess.exitSlot clearLogicalTid at returned
  obtain ⟨cleaned, cleanup, rest⟩ := bind_eq_ok.mp returned
  obtain ⟨⟨forgotten, memory⟩, forgot, final⟩ := bind_eq_ok.mp rest
  obtain ⟨⟨cleared, between⟩, clearing, same⟩ := bind_eq_ok.mp forgot
  cases same
  cases final
  have robust := wakes_applyRobustCleanup settled.placed.kept clear cleanup
  have woken : Wakes (fun uaddr => uaddr = thread.clearChildTid ∨
      ∃ effect ∈ effects, effect.wake = true ∧ uaddr = effect.address) image.1 cleared :=
    (robust.mono fun _ => .inr).trans ((wakes_clearChildTid robust.released.kept robust.clear clearing).mono
      fun _ => .inl)
  have inside := (List.getElem?_eq_some_iff.mp read).1
  have besides : BlockedBesides slot cleared := by
    intro other _
    rw [woken.blocked, settled.blocked other, woken.threads]
  have placed := settled.placed.release woken.threads woken.released woken.opened
  obtain ⟨placed, blocked, still, queued, endures⟩ : Placed prompt _ ∧ _ :=
    forgotten_leaveQueues placed woken.clear besides (woken.threads ▸ read)
  obtain ⟨renewed, there, -, idle⟩ := endures slot (forgetRegistrations thread)
    (List.getElem?_set_self (woken.threads ▸ inside))
  refine ⟨settled_endThread placed blocked there (idle rfl) exitCode, ?_, ?_, ?_⟩
  · intro other found _ here
    rw [endThread_of_read there, setThread]
    by_cases own : other = slot
    · subst own
      refine ⟨_, List.getElem?_set_self (List.getElem?_eq_some_iff.mp there).1, fun _ => rfl, fun _ _ _ => .inr rfl⟩
    · rw [← woken.threads] at here
      obtain ⟨kept, now, lasts, -⟩ := endures other found (by rwa [List.getElem?_set_ne (Ne.symm own)])
      exact ⟨kept, by rwa [List.getElem?_set_ne (Ne.symm own)], lasts⟩
  · intro tid waits stays
    rw [endThread_of_read there]
    exact queued tid (woken.released.stays tid waits (stays ∘ .inr)) (stays ∘ .inl)
  · intro _
    rw [endThread_of_read there]
    exact still

theorem Settled.completeThreadStart (settled : Settled prompt image.1)
    (clear : image.1.state.futex.NoZero)
    (returned : LiveProcess.completeThreadStart os number image slot = .ok last) :
    Proceeds scope prompt image.1 last.1 := by
  unfold LiveProcess.completeThreadStart at returned
  obtain ⟨thread, live, rest⟩ := bind_eq_ok.mp returned
  have read := (liveThread_spec live).1
  split at rest
  · obtain ⟨⟨memory, written⟩, -, final⟩ := bind_eq_ok.mp rest
    cases final
    exact settled.proceeds_register clear read rfl rfl rfl
  · cases rest
    exact settled.proceeds_same clear rfl rfl

theorem Settled.exitThread (settled : Settled prompt process)
    (clear : process.state.futex.NoZero)
    (returned : process.exitThread os number memory slot exitCode = .ok last) :
    ∃ thread plan, process.state.threads[slot]? = some thread ∧
      RobustExitPlan.collect os memory {} thread (logicalThreadId number thread.tid) = .ok plan ∧
      Proceeds (exitScope process thread plan.effects) prompt process last.1 := by
  unfold LiveProcess.exitThread at returned
  obtain ⟨-, -, rest⟩ := bind_eq_ok.mp returned
  obtain ⟨thread, live, rest⟩ := bind_eq_ok.mp rest
  obtain ⟨plan, collected, rest⟩ := bind_eq_ok.mp rest
  obtain ⟨-, -, exited⟩ := bind_eq_ok.mp rest
  have here : Settled prompt (process, memory).1 := settled
  exact ⟨thread, plan, (liveThread_spec live).1, collected, here.exitSlot clear (liveThread_spec live).1 exited⟩

theorem Settled.exitGroupSlot {entry : List RobustEffect × ℕ}
    (settled : Settled prompt image.1) (clear : image.1.state.futex.NoZero)
    (returned : LiveProcess.exitGroupSlot os number exitCode image entry = .ok last) :
    Proceeds groupScope prompt image.1 last.1 := by
  unfold LiveProcess.exitGroupSlot at returned
  split at returned
  · cases returned
    exact settled.proceeds_same clear rfl rfl
  · split at returned
    · obtain ⟨started, start, rest⟩ := bind_eq_ok.mp returned
      obtain ⟨thread, live, exited⟩ := bind_eq_ok.mp rest
      have first : Proceeds groupScope prompt image.1 started.1 := settled.completeThreadStart clear start
      have second := first.settled.exitSlot (first.clear id) (liveThread_spec live).1 exited
      exact first.trans ⟨second.settled, second.endures, fun _ _ stays => absurd trivial stays, second.clear⟩
    · cases returned
      exact settled.proceeds_same clear rfl rfl

theorem Settled.exitGroup (settled : Settled prompt process)
    (clear : process.state.futex.NoZero)
    (returned : process.exitGroup os number memory slot exitCode = .ok last) :
    Proceeds groupScope prompt process last.1 := by
  unfold LiveProcess.exitGroup at returned
  obtain ⟨-, -, rest⟩ := bind_eq_ok.mp returned
  obtain ⟨-, -, rest⟩ := bind_eq_ok.mp rest
  obtain ⟨planned, -, exited⟩ := bind_eq_ok.mp rest
  refine Except.foldlM_invariant (fun other : ProcessImage G => Proceeds groupScope prompt process other.1) ?_
    (settled.proceeds_same clear rfl rfl) exited
  intro middle entry next _ before stepped
  exact before.trans (before.settled.exitGroupSlot (before.clear id) stepped)

/-! ## Births and registrations -/

theorem Settled.addThread (settled : Settled prompt process) (clear : process.state.futex.NoZero)
    (room : process.state.threads.length < maxThreadsPerProcess) {born : ThreadState}
    (number : born.tid = Int32.ofNat (process.state.threads.length + 1)) (idle : born.pendingSyscall = none) :
    Proceeds scope prompt process (process.addThread born) := by
  have placed := settled.placed
  have numbered : Numbered (process.state.threads ++ [born]) := by
    refine ⟨by simpa using room, ?_⟩
    intro slot thread there
    rw [List.getElem?_append] at there
    split at there
    · exact placed.numbered.number slot thread there
    · next beyond =>
      have last : slot = process.state.threads.length := by
        have inside := (List.getElem?_eq_some_iff.mp there).1
        rw [List.length_singleton] at inside
        omega
      subst last
      rw [Nat.sub_self, List.getElem?_cons_zero] at there
      rw [← Option.some.inj there, number]
  have fresh : ∀ (slot : ℕ) (thread : ThreadState), process.state.threads[slot]? = some thread → born.tid ≠ thread.tid := by
    intro slot thread read same
    have inside := (List.getElem?_eq_some_iff.mp read).1
    have here : (process.state.threads ++ [born])[slot]? = some thread := by
      rw [List.getElem?_append_left inside, read]
    have there : (process.state.threads ++ [born])[process.state.threads.length]? = some born := by simp
    have equal := numbered.unique there here same
    omega
  have split : ∀ (slot : ℕ) thread, (process.state.threads ++ [born])[slot]? = some thread →
      process.state.threads[slot]? = some thread ∨ thread = born := by
    intro slot thread there
    rw [List.getElem?_append] at there
    split at there
    · exact .inl there
    · exact .inr (List.mem_singleton.mp (List.mem_of_getElem? there))
  have asleep : ¬process.state.Waiting born.tid := by
    intro waiting
    obtain ⟨slot, thread, read, named⟩ := placed.owned born.tid waiting
    exact fresh slot thread read named.symm
  refine ⟨⟨⟨numbered, ?_, ?_, placed.kept, ?_⟩, ?_⟩, ?_, fun _ queued _ => queued, fun _ => clear⟩
  · intro slot thread there
    obtain old | rfl := split slot thread there
    · exact placed.fits slot thread old
    · refine ⟨?_, fun waiting => absurd waiting asleep,
        fun _ waits => absurd waits (ThreadState.not_waitsOnFutex idle)⟩
      intro pending has
      exact absurd (idle.symm.trans has) (Option.some_ne_none pending).symm
  · intro tid waiting
    obtain ⟨slot, thread, read, named⟩ := placed.owned tid waiting
    refine ⟨slot, thread, ?_, named⟩
    exact (List.getElem?_append_left (List.getElem?_eq_some_iff.mp read).1).trans read
  · intro closed slot thread there
    obtain old | rfl := split slot thread there
    · exact placed.opened closed slot thread old
    · exact ThreadState.not_waitsOnFutex idle
  · intro slot
    by_cases last : slot = process.state.threads.length
    · subst last
      simp [LiveProcess.addThread, ThreadState.waits, idle]
    · dsimp only [LiveProcess.addThread]
      rw [Function.update_of_ne last, settled.blocked slot, List.getElem?_append]
      split
      · rfl
      · next beyond =>
        rw [List.getElem?_eq_none (Nat.le_of_not_lt beyond), List.getElem?_eq_none]
        rw [List.length_singleton]
        omega
  · intro slot thread _ read
    refine ⟨thread, ?_, ThreadState.Endures.refl thread⟩
    exact (List.getElem?_append_left (List.getElem?_eq_some_iff.mp read).1).trans read

theorem Settled.createLogicalThread {request : CloneRequest} {tid : Int32}
    (settled : Settled prompt process) (clear : process.state.futex.NoZero)
    (returned : process.createLogicalThread os number memory slot request = .ok (tid, last)) :
    Proceeds scope prompt process last.1 := by
  unfold LiveProcess.createLogicalThread at returned
  obtain ⟨-, -, rest⟩ := bind_eq_ok.mp returned
  obtain ⟨-, -, rest⟩ := bind_eq_ok.mp rest
  obtain ⟨-, -, rest⟩ := bind_eq_ok.mp rest
  obtain ⟨-, -, rest⟩ := bind_eq_ok.mp rest
  split at rest
  · contradiction
  · next room =>
    obtain ⟨parent, -, rest⟩ := bind_eq_ok.mp rest
    obtain ⟨written, -, final⟩ := bind_eq_ok.mp rest
    cases final
    exact settled.addThread clear (Nat.lt_of_not_le room) rfl rfl

theorem Settled.recordLogicalClearTid {address : UInt64} (settled : Settled prompt process)
    (clear : process.state.futex.NoZero)
    (returned : process.recordLogicalClearTid number slot address = .ok (result, after)) :
    Proceeds scope prompt process after := by
  unfold LiveProcess.recordLogicalClearTid at returned
  obtain ⟨-, -, rest⟩ := bind_eq_ok.mp returned
  obtain ⟨thread, live, final⟩ := bind_eq_ok.mp rest
  cases final
  exact settled.proceeds_register clear (liveThread_spec live).1 rfl rfl rfl

theorem Settled.emulateSetRobustList {head length : UInt64} (settled : Settled prompt process)
    (clear : process.state.futex.NoZero)
    (returned : process.emulateSetRobustList slot head length = .ok (result, after)) :
    Proceeds scope prompt process after := by
  unfold LiveProcess.emulateSetRobustList at returned
  split at returned
  · cases returned
    exact settled.proceeds_same clear rfl rfl
  · obtain ⟨thread, live, rest⟩ := bind_eq_ok.mp returned
    obtain ⟨-, -, final⟩ := bind_eq_ok.mp rest
    cases final
    exact settled.proceeds_register clear (liveThread_spec live).1 rfl rfl rfl

end LiveProcess

end DetSim.Kernel
