import DetSim.Soundness.ThreadCalls
import DetSim.ToMathlib.LabelledRuns

/-! # Runs with unfinished calls

Every step of the system keeps the joint invariant of unfinished calls, futex queues and blocked threads at
every node, as long as nobody is queued at address zero.
-/

namespace DetSim.Kernel

open Except (bind_eq_ok map_eq_ok)

open FutexState TraceeState LiveProcess

/-! ## One node advances -/

namespace PtmcState

variable {G : Type} {np : ℕ} {machine : Machine G np} {state after : PtmcState G np} {cursor : Fin np} {prompt : Prop}
  {scope : Scope} {slot : ℕ} {info : SyscallInfo} {outcome : Outcome}

/-- A step at one node leaves the processes of the others alone. -/
structure Advances (cursor : Fin np) (scope : Scope) (prompt : Prop) (state after : PtmcState G np) : Prop where
  others : ∀ other, other ≠ cursor → after.process other = state.process other
  here : Proceeds scope prompt (state.process cursor) (after.process cursor)

theorem Advances.of_update {process : LiveProcess}
    (same : after.process = Function.update state.process cursor process)
    (proceeds : Proceeds scope prompt (state.process cursor) process) : Advances cursor scope prompt state after := by
  refine ⟨?_, ?_⟩
  · intro other foreign
    rw [same, Function.update_of_ne foreign]
  · rw [same, Function.update_self]
    exact proceeds

theorem Advances.of_same (settled : Settled prompt (state.process cursor))
    (clear : (state.process cursor).state.futex.NoZero) (same : after.process = state.process) :
    Advances cursor scope prompt state after := by
  refine ⟨fun other _ => congrFun same other, ?_⟩
  rw [same]
  exact settled.proceeds_same clear rfl rfl

theorem Advances.trans {last : PtmcState G np} (first : Advances cursor scope prompt state after)
    (second : Advances cursor scope prompt after last) : Advances cursor scope prompt state last :=
  ⟨fun other foreign => (second.others other foreign).trans (first.others other foreign),
    first.here.trans second.here⟩

/-! ## I/O -/

theorem advances_finishIoCall (settled : Settled prompt (state.process cursor))
    (clear : (state.process cursor).state.futex.NoZero) (idle : (state.process cursor).Idle slot) {result : Int}
    (returned : state.finishIoCall machine cursor slot info result = .ok (outcome, after)) :
    Advances cursor scope prompt state after := by
  unfold finishIoCall at returned
  obtain ⟨waits, decided, rest⟩ := bind_eq_ok.mp returned
  cases waits with
  | false =>
    cases rest
    exact .of_same settled clear rfl
  | true =>
    obtain ⟨middle, suspended, rest⟩ := bind_eq_ok.mp rest
    obtain ⟨configured, done, last⟩ := bind_eq_ok.mp rest
    cases last
    exact .of_update rfl (settled.suspendIo clear idle (supports_of_suspends decided) suspended done)

theorem advances_issueCall (settled : Settled prompt (state.process cursor))
    (clear : (state.process cursor).state.futex.NoZero) (idle : (state.process cursor).Idle slot) {choice : Int32}
    {call : IoCall} (returned : state.issueCall machine cursor slot info choice call = .ok (outcome, after)) :
    Advances cursor scope prompt state after := by
  unfold issueCall at returned
  obtain ⟨⟨result, nodes⟩, -, finished⟩ := bind_eq_ok.mp returned
  have advances : Advances cursor scope prompt { state with nodes } after :=
    advances_finishIoCall settled clear idle finished
  exact ⟨advances.others, advances.here⟩

/-! ## Unfinished calls -/

theorem idle_of_complete_none (returned : state.completePendingSyscall machine cursor slot = .ok none) :
    (state.process cursor).Idle slot := by
  intro thread read
  unfold completePendingSyscall at returned
  split at returned
  · next empty =>
    rw [empty] at read
    contradiction
  · obtain ⟨found, acts, rest⟩ := bind_eq_ok.mp returned
    have same := (liveThread_spec acts).1
    rw [read] at same
    cases same
    split at rest
    · next none => exact none
    · split at rest
      · contradiction
      · obtain ⟨_, _, impossible⟩ := map_eq_ok.mp rest
        contradiction
      · cases Except.ok.inj rest

theorem advances_completePendingSyscall (settled : Settled prompt (state.process cursor))
    (clear : (state.process cursor).state.futex.NoZero) (delivers : scope.delivers slot)
    (returned : state.completePendingSyscall machine cursor slot = .ok (some (outcome, after))) :
    Advances cursor scope prompt state after := by
  unfold completePendingSyscall at returned
  split at returned
  · cases Except.ok.inj returned
  · obtain ⟨thread, acts, rest⟩ := bind_eq_ok.mp returned
    have read := (liveThread_spec acts).1
    split at rest
    · cases Except.ok.inj rest
    · next pending has =>
      have idle : pending.phase ≠ .waiting → ¬thread.WaitsOnFutex := by
        rintro other ⟨call, same, -, waits⟩
        rw [has] at same
        cases same
        exact other waits
      split at rest
      · contradiction
      · next retry =>
        obtain ⟨⟨_, _⟩, done, same⟩ := map_eq_ok.mp rest
        cases same
        unfold completeRetry at done
        split at done
        · contradiction
        · next io =>
          obtain ⟨⟨result, nodes⟩, -, final⟩ := bind_eq_ok.mp done
          cases result with
          | none =>
            cases final
            exact .of_update rfl (settled.waitAgain clear read has (not_not.mp io) delivers)
          | some result =>
            cases final
            exact .of_update rfl (settled.clearPending clear read (idle (by simp [retry])) delivers)
      · next ready =>
        cases rest
        exact .of_update rfl (settled.clearPending clear read (idle (by simp [ready])) delivers)

/-! ## Exits and births -/

theorem advances_closeProcessIo (settled : Settled prompt (state.process cursor))
    (clear : (state.process cursor).state.futex.NoZero)
    (returned : state.closeProcessIo machine cursor = .ok after) : Advances cursor scope prompt state after := by
  unfold closeProcessIo at returned
  split at returned
  · contradiction
  · obtain ⟨-, -, rest⟩ := bind_eq_ok.mp returned
    obtain ⟨nodes, -, final⟩ := bind_eq_ok.mp rest
    cases final
    exact .of_update rfl (settled.proceeds_same clear rfl rfl)

theorem advances_exitLogicalThread (settled : Settled prompt (state.process cursor))
    (clear : (state.process cursor).state.futex.NoZero) {exitCode : Int32}
    (returned : state.exitLogicalThread machine cursor slot exitCode = .ok (outcome, after)) :
    ∃ thread plan, (state.process cursor).state.threads[slot]? = some thread ∧
      RobustExitPlan.collect machine.guest (state.nodes cursor).memory {} thread
        (logicalThreadId cursor thread.tid) = .ok plan ∧
      Advances cursor (exitScope (state.process cursor) thread plan.effects) prompt state after := by
  unfold exitLogicalThread at returned
  obtain ⟨-, -, rest⟩ := bind_eq_ok.mp returned
  obtain ⟨image, exits, rest⟩ := bind_eq_ok.mp rest
  obtain ⟨thread, plan, read, collected, proceeds⟩ := settled.exitThread clear exits
  refine ⟨thread, plan, read, collected, ?_⟩
  have exited : Advances cursor (exitScope (state.process cursor) thread plan.effects) prompt state
      (state.setImage cursor image) := .of_update rfl proceeds
  split at rest
  · obtain ⟨closed, closing, same⟩ := map_eq_ok.mp rest
    cases same
    exact exited.trans (advances_closeProcessIo exited.here.settled (exited.here.clear id) closing)
  · cases rest
    exact exited

theorem advances_exitLogicalProcess (settled : Settled prompt (state.process cursor))
    (clear : (state.process cursor).state.futex.NoZero) {exitCode : Int32}
    (returned : state.exitLogicalProcess machine cursor slot exitCode = .ok (outcome, after)) :
    Advances cursor groupScope prompt state after := by
  unfold exitLogicalProcess at returned
  obtain ⟨-, -, rest⟩ := bind_eq_ok.mp returned
  obtain ⟨image, exits, rest⟩ := bind_eq_ok.mp rest
  obtain ⟨closed, closing, same⟩ := map_eq_ok.mp rest
  cases same
  have exited : Advances cursor groupScope prompt state (state.setImage cursor image) :=
    .of_update rfl (settled.exitGroup clear exits)
  exact exited.trans (advances_closeProcessIo exited.here.settled (exited.here.clear id) closing)

theorem advances_finishClone (settled : Settled prompt (state.process cursor))
    (clear : (state.process cursor).state.futex.NoZero) {request : CloneRequest}
    (returned : state.finishClone machine cursor slot request = .ok (outcome, after)) :
    Advances cursor scope prompt state after := by
  unfold finishClone at returned
  obtain ⟨⟨tid, image⟩, born, final⟩ := bind_eq_ok.mp returned
  cases final
  exact .of_update rfl (settled.createLogicalThread clear born)

/-! ## Dispatch -/

/-- The number of a call. -/
def ThreadCall.number : ThreadCall → Int32
  | .futex => sysFutex
  | .nanosleep => sysNanosleep
  | .clockNanosleep => sysClockNanosleep
  | .pselect6 => sysPselect6
  | .clone => sysClone
  | .clone3 => sysClone3
  | .exit => sysExit
  | .exitGroup => sysExitGroup
  | .setTidAddress => sysSetTidAddress
  | .setRobustList => sysSetRobustList

theorem ThreadCall.number_of_decode {nr : Int32} {call : ThreadCall} (decoded : ThreadCall.decode nr = some call) :
    nr = call.number := by
  unfold ThreadCall.decode at decoded
  split_ifs at decoded with first <;> cases decoded <;> assumption

/-- The threads that a call of a thread may let leave their queues. -/
def releasedBy (machine : Machine G np) (process : LiveProcess) (cursor : Fin np) (slot : ℕ) (entry : Entry G)
    (tid : Int32) : Prop :=
  match ThreadCall.decode entry.call.nr with
  | some .futex => tid ∈ process.state.futex.wokenBy (futexArguments entry.call)
  | some .exit => ∃ thread plan, process.state.threads[slot]? = some thread ∧
      RobustExitPlan.collect machine.guest entry.memory {} thread (logicalThreadId cursor thread.tid) = .ok plan ∧
      (exitScope process thread plan.effects).removes tid
  | some .exitGroup => True
  | _ => False

/-- The descriptors and the memory of a node when a thread enters a call. -/
def entered (state : PtmcState G np) (cursor : Fin np) (entry : Entry G) : NodeIo G :=
  { state.nodes cursor with memory := entry.memory }

/-- A thread without an unfinished call enters a futex call that queues a thread at address zero. -/
def entersZero (machine : Machine G np) (process : LiveProcess) (io : NodeIo G) (slot : ℕ) (entry : Entry G) : Prop :=
  ThreadCall.decode entry.call.nr = some .futex ∧ process.Idle slot ∧
    futexAtZero machine.guest.toGuestMemory io entry.call process.state.futex

/-- What a step of a thread may touch. -/
def callScope (machine : Machine G np) (process : LiveProcess) (io : NodeIo G) (cursor : Fin np) (slot : ℕ)
    (entry : Entry G) : Scope where
  delivers := (· = slot)
  removes := releasedBy machine process cursor slot entry
  zero := entersZero machine process io slot entry

theorem Advances.widen {wider : Scope} (advances : Advances cursor scope prompt state after)
    (delivers : ∀ slot, scope.delivers slot → wider.delivers slot)
    (removes : ∀ tid, scope.removes tid → wider.removes tid) (zero : scope.zero → wider.zero) :
    Advances cursor wider prompt state after :=
  ⟨advances.others, advances.here.settled,
    fun slot thread spared read => advances.here.endures slot thread (spared ∘ delivers slot) read,
    fun tid queued stays => advances.here.stays tid queued (stays ∘ removes tid),
    fun avoids => advances.here.clear (avoids ∘ zero)⟩

theorem advances_handleThreadCall (settled : Settled prompt (state.process cursor))
    (clear : (state.process cursor).state.futex.NoZero) {entry : Entry G} (idle : (state.process cursor).Idle slot)
    (memory : (state.nodes cursor).memory = entry.memory) {call : ThreadCall}
    (decoded : ThreadCall.decode entry.call.nr = some call)
    (returned : state.handleThreadCall machine cursor slot entry.call call = .ok (outcome, after)) :
    Advances cursor (callScope machine (state.process cursor) (state.nodes cursor) cursor slot entry) prompt state
      after := by
  have number := ThreadCall.number_of_decode decoded
  cases call with
  | futex =>
    obtain ⟨⟨_, _⟩, handled, same⟩ := map_eq_ok.mp returned
    cases same
    refine Advances.widen (.of_update rfl (settled.handleFutexCall clear idle number handled).1) ?_ ?_ ?_
    · exact fun _ none => none.elim
    · intro tid woken
      change releasedBy machine (state.process cursor) cursor slot entry tid
      rw [releasedBy, decoded]
      exact woken
    · exact fun asks => ⟨decoded, idle, asks⟩
  | nanosleep =>
    obtain ⟨⟨_, _⟩, handled, same⟩ := map_eq_ok.mp returned
    cases same
    exact .of_update rfl (settled.sleepCall clear idle (.inl number) handled)
  | clockNanosleep =>
    obtain ⟨⟨_, _⟩, handled, same⟩ := map_eq_ok.mp returned
    cases same
    exact .of_update rfl (settled.sleepCall clear idle (.inr number) handled)
  | pselect6 =>
    obtain ⟨⟨_, _, _⟩, handled, same⟩ := bind_eq_ok.mp returned
    cases same
    exact .of_update rfl (settled.startPselectTimer clear idle number handled)
  | clone => exact advances_finishClone settled clear returned
  | clone3 =>
    obtain ⟨parsed, -, rest⟩ := bind_eq_ok.mp returned
    cases parsed with
    | error errno =>
      cases rest
      exact .of_same settled clear rfl
    | ok request => exact advances_finishClone settled clear rest
  | exit =>
    obtain ⟨thread, plan, read, collected, advances⟩ := advances_exitLogicalThread settled clear returned
    refine advances.widen (fun _ none => none.elim) ?_ False.elim
    intro tid gone
    change releasedBy machine (state.process cursor) cursor slot entry tid
    rw [releasedBy, decoded]
    exact ⟨thread, plan, read, memory ▸ collected, gone⟩
  | exitGroup =>
    refine (advances_exitLogicalProcess settled clear returned).widen (fun _ none => none.elim) ?_ False.elim
    intro tid _
    change releasedBy machine (state.process cursor) cursor slot entry tid
    rw [releasedBy, decoded]
    trivial
  | setTidAddress =>
    obtain ⟨⟨_, _⟩, handled, same⟩ := map_eq_ok.mp returned
    cases same
    exact .of_update rfl (settled.recordLogicalClearTid clear handled)
  | setRobustList =>
    obtain ⟨⟨_, _⟩, handled, same⟩ := map_eq_ok.mp returned
    cases same
    exact .of_update rfl (settled.emulateSetRobustList clear handled)

theorem advances_dispatch (settled : Settled prompt (state.process cursor))
    (clear : (state.process cursor).state.futex.NoZero) {entry : Entry G} (idle : (state.process cursor).Idle slot)
    (memory : (state.nodes cursor).memory = entry.memory)
    (returned : state.dispatch machine cursor slot entry = .ok (outcome, after)) :
    Advances cursor (callScope machine (state.process cursor) (state.nodes cursor) cursor slot entry) prompt state
      after := by
  unfold dispatch at returned
  split at returned
  · exact advances_issueCall settled clear idle returned
  · split at returned
    · next call decoded => exact advances_handleThreadCall settled clear idle memory decoded returned
    · cases returned
      exact .of_same settled clear rfl

/-- A new thread that stores its identifier is the same thread to everything else. -/
theorem completeThreadStart_spec {os : GuestOs G} {number : ℕ} {image last : ProcessImage G}
    (returned : completeThreadStart os number image slot = .ok last) :
    last.1.state.futexState = image.1.state.futexState ∧ ∃ thread renewed,
      image.1.state.threads[slot]? = some thread ∧ last.1.state.threads[slot]? = some renewed ∧
      renewed.tid = thread.tid ∧ renewed.pendingSyscall = thread.pendingSyscall ∧
      renewed.clearChildTid = thread.clearChildTid ∧ renewed.robustListHead = thread.robustListHead := by
  unfold completeThreadStart at returned
  obtain ⟨thread, live, rest⟩ := bind_eq_ok.mp returned
  have read := (liveThread_spec live).1
  split at rest
  · obtain ⟨⟨memory, written⟩, -, final⟩ := bind_eq_ok.mp rest
    cases final
    refine ⟨rfl, thread, _, read, List.getElem?_set_self (List.getElem?_eq_some_iff.mp read).1, rfl, rfl, rfl, rfl⟩
  · cases rest
    exact ⟨rfl, thread, thread, read, read, rfl, rfl, rfl, rfl⟩

theorem collect_congr {os : GuestOs G} {memory : G} {plan : RobustExitPlan} {thread renewed : ThreadState}
    (same : renewed.robustListHead = thread.robustListHead) (owner : Int32) :
    plan.collect os memory renewed owner = plan.collect os memory thread owner := by
  rw [RobustExitPlan.collect, RobustExitPlan.collect, same]

/-- The system in which a thread has started and enters its call. -/
structure Begins (state begun : PtmcState G np) (cursor : Fin np) (slot : ℕ) (entry : Entry G) : Prop where
  futex : (begun.process cursor).state.futex = (state.process cursor).state.futex
  io : begun.nodes cursor = state.entered cursor entry
  thread : ∃ thread renewed, (state.process cursor).state.threads[slot]? = some thread ∧
    (begun.process cursor).state.threads[slot]? = some renewed ∧ renewed.tid = thread.tid ∧
    renewed.pendingSyscall = thread.pendingSyscall ∧ renewed.clearChildTid = thread.clearChildTid ∧
    renewed.robustListHead = thread.robustListHead
  advances : ∀ {scope : Scope} {prompt : Prop}, Settled prompt (state.process cursor) →
    (state.process cursor).state.futex.NoZero → Advances cursor scope prompt state begun

theorem begins_of_start {entry : Entry G} {image : ProcessImage G}
    (start : completeThreadStart machine.guest cursor (state.process cursor, (state.nodes cursor).memory) slot = .ok image) :
    Begins state ((state.setImage cursor image).setMemory cursor entry.memory) cursor slot entry := by
  obtain ⟨futex, thread, renewed, before, now, tid, pending, clears, robust⟩ := completeThreadStart_spec start
  have process : ((state.setImage cursor image).setMemory cursor entry.memory).process cursor = image.1 :=
    Function.update_self ..
  refine ⟨?_, ?_, ⟨thread, renewed, before, process ▸ now, tid, pending, clears, robust⟩, ?_⟩
  · rw [process, TraceeState.futex, futex]
    rfl
  · simp only [setMemory, setImage, setProcess, entered, Function.update_self]
  · intro scope prompt settled clear
    have here : Settled prompt (state.process cursor, (state.nodes cursor).memory).1 := settled
    exact .of_update rfl (here.completeThreadStart clear start)

theorem Begins.idle {begun : PtmcState G np} {entry : Entry G} (begins : Begins state begun cursor slot entry)
    (idle : (state.process cursor).Idle slot) : (begun.process cursor).Idle slot := by
  obtain ⟨thread, renewed, before, now, -, pending, -⟩ := begins.thread
  intro found there
  rw [now] at there
  cases there
  exact pending.trans (idle thread before)

theorem advances_enterCall (settled : Settled prompt (state.process cursor))
    (clear : (state.process cursor).state.futex.NoZero) {entry : Entry G} (idle : (state.process cursor).Idle slot)
    (returned : state.enterCall machine cursor slot entry = .ok (outcome, after)) :
    Advances cursor (callScope machine (state.process cursor) (state.entered cursor entry) cursor slot entry) prompt
      state after := by
  unfold enterCall at returned
  obtain ⟨image, start, rest⟩ := bind_eq_ok.mp returned
  have begins : Begins state _ cursor slot entry := begins_of_start start
  generalize (state.setImage cursor image).setMemory cursor entry.memory = begun at begins rest
  have started : Advances cursor (callScope machine (state.process cursor) (state.entered cursor entry) cursor slot entry)
      prompt state begun := begins.advances settled clear
  have memory : (begun.nodes cursor).memory = entry.memory := by rw [begins.io, entered]
  refine started.trans ?_
  refine (advances_dispatch started.here.settled (begins.futex ▸ clear) (begins.idle idle) memory rest).widen
    (fun _ same => same) ?_ ?_
  · intro gone leaves
    obtain ⟨thread, renewed, before, now, tid, -, clears, robust⟩ := begins.thread
    unfold callScope releasedBy at leaves ⊢
    dsimp only at leaves ⊢
    split at leaves
    · rwa [begins.futex] at leaves
    · obtain ⟨found, plan, there, collected, own⟩ := leaves
      rw [now] at there
      cases there
      refine ⟨thread, plan, before, ?_, ?_⟩
      · rwa [collect_congr robust, tid] at collected
      · rw [exitScope, begins.futex] at own
        rwa [exitScope, ← tid, ← clears]
    · trivial
    · exact leaves
  · rintro ⟨decoded, -, zero⟩
    exact ⟨decoded, idle, by rwa [begins.io, begins.futex] at zero⟩

theorem advances_doSingleSyscall (settled : Settled prompt (state.process cursor))
    (clear : (state.process cursor).state.futex.NoZero) {entry : Entry G}
    (returned : state.doSingleSyscall machine cursor slot entry = .ok (outcome, after)) :
    Advances cursor (callScope machine (state.process cursor) (state.entered cursor entry) cursor slot entry) prompt
      state after := by
  unfold doSingleSyscall at returned
  obtain ⟨completed, finished, rest⟩ := bind_eq_ok.mp returned
  cases completed with
  | none => exact advances_enterCall settled clear (idle_of_complete_none finished) rest
  | some completed =>
    cases rest
    exact advances_completePendingSyscall settled clear rfl finished

/-! ## Timeouts and refreshes -/

/-- A timeout is the action of a live thread that waits with a deadline. -/
theorem timeoutActionClock_spec {target : Timeval} (admitted : state.timeoutActionClock cursor slot = .ok target) :
    ∃ thread pending deadline, (state.process cursor).state.threads[slot]? = some thread ∧ thread.alive = true ∧
      thread.pendingSyscall = some pending ∧ pending.phase = .waiting ∧ pending.deadline = some deadline ∧
      pendingTimeoutClock (state.time cursor) deadline = .ok target := by
  unfold timeoutActionClock at admitted
  dsimp only at admitted
  split_ifs at admitted
  split at admitted
  · contradiction
  · next thread read =>
    split at admitted
    · next pending deadline waits limited =>
      obtain ⟨has, waiting⟩ := Option.filter_eq_some_iff.mp waits
      rw [Bool.and_eq_true, beq_iff_eq] at waiting
      rw [has, Option.bind_some] at limited
      refine ⟨thread, pending, deadline, read, waiting.1, has, waiting.2, limited, ?_⟩
      split at admitted
      · contradiction
      · contradiction
      · cases clock : pendingTimeoutClock (state.time cursor) deadline with
        | error message =>
          rw [clock] at admitted
          cases admitted
        | ok found =>
          rw [clock] at admitted
          cases admitted
          rfl
    · contradiction

/-- What the timeout of a thread may touch. -/
def timeoutScope (process : LiveProcess) (slot : ℕ) : Scope where
  delivers := (· = slot)
  removes := fun tid => ∃ thread, process.state.threads[slot]? = some thread ∧ thread.tid = tid
  zero := False

theorem advances_expireAndComplete (settled : Settled prompt (state.process cursor))
    (clear : (state.process cursor).state.futex.NoZero) {target : Timeval}
    (returned : state.expireAndComplete machine cursor slot target = .ok (outcome, after)) :
    Advances cursor (timeoutScope (state.process cursor) slot) prompt state after := by
  unfold expireAndComplete at returned
  obtain ⟨thread, acts, rest⟩ := bind_eq_ok.mp returned
  obtain ⟨⟨expired, granted⟩, expires, rest⟩ := bind_eq_ok.mp rest
  obtain ⟨completed, finished, rest⟩ := bind_eq_ok.mp rest
  have read : (state.process cursor).state.threads[slot]? = some thread := (liveThread_spec acts).1
  have grant := settled.expirePendingSyscall clear expires
  generalize same : { state with time := Function.update state.time cursor target } = aged at finished
  have first : Advances cursor (timeoutScope (state.process cursor) slot) prompt state
      (aged.setProcess cursor granted) := by
    refine .of_update (same ▸ rfl) ⟨grant.settled, fun slot thread _ => grant.endures slot thread id, ?_, grant.clear⟩
    intro tid queued stays
    refine grant.stays tid queued fun same => stays ⟨thread, read, same.symm⟩
  cases completed with
  | none => contradiction
  | some completed =>
    dsimp only at rest
    split at rest
    · cases rest
      exact first.trans (advances_completePendingSyscall first.here.settled (first.here.clear id) rfl finished)
    · contradiction

theorem proceeds_refreshPendingSyscalls (settled : ∀ node, Settled prompt (state.process node))
    (clear : ∀ node, (state.process node).state.futex.NoZero)
    (returned : state.refreshPendingSyscalls = .ok after) (node : Fin np) :
    Proceeds scope prompt (state.process node) (after.process node) := by
  have all : ∀ node, Proceeds Scope.quiet prompt (state.process node) (after.process node) := by
    refine Except.foldlM_invariant
      (fun other : PtmcState G np => ∀ node, Proceeds Scope.quiet prompt (state.process node) (other.process node))
      ?_ (fun node => (settled node).proceeds_same (clear node) rfl rfl) returned
    intro middle here next _ before stepped other
    obtain ⟨process, refreshed, same⟩ := map_eq_ok.mp stepped
    rw [← same, setProcess]
    dsimp only
    by_cases own : other = here
    · subst own
      rw [Function.update_self]
      exact (before other).trans ((before other).settled.refreshPending ((before other).clear id) refreshed)
    · rw [Function.update_of_ne own]
      exact before other
  exact (all node).of_quiet

/-! ## Every step -/

/-- What one node does, seen from any node. -/
theorem Advances.at_node {wider : Scope} (advances : Advances cursor scope prompt state after)
    (settled : ∀ node, Settled prompt (state.process node)) (clear : ∀ node, (state.process node).state.futex.NoZero)
    (node : Fin np) (delivers : cursor = node → ∀ slot, scope.delivers slot → wider.delivers slot)
    (removes : cursor = node → ∀ tid, scope.removes tid → wider.removes tid)
    (zero : cursor = node → scope.zero → wider.zero) :
    Proceeds wider prompt (state.process node) (after.process node) := by
  by_cases own : cursor = node
  · subst own
    exact (advances.widen (delivers rfl) (removes rfl) (zero rfl)).here
  · rw [advances.others node (Ne.symm own)]
    exact (settled node).proceeds_same (clear node) rfl rfl

end PtmcState

open PtmcState

variable {G : Type} {np : ℕ}

namespace Event

/-- The granted calls that an event may deliver. -/
def delivers (node : Fin np) (slot : ℕ) : Event G np → Prop
  | .normal cursor place _ => cursor = node ∧ slot = place
  | .timeout cursor place => cursor = node ∧ slot = place
  | _ => False

/-- The threads that an event may let leave their futex queues: those that a call wakes, those that exit, those
whose wait times out, and those that are granted a result. -/
def releases (machine : Machine G np) (state : PtmcState G np) (node : Fin np) (tid : Int32) : Event G np → Prop
  | .normal cursor slot entry => cursor = node ∧ releasedBy machine (state.process node) node slot entry tid
  | .timeout cursor slot => cursor = node ∧ (timeoutScope (state.process node) slot).removes tid
  | .expire cursor other => cursor = node ∧ tid = other
  | .grant cursor other _ => cursor = node ∧ tid = other
  | _ => False

/-- The events that queue a thread at address zero. -/
def queuesAtZero (machine : Machine G np) (state : PtmcState G np) (node : Fin np) : Event G np → Prop
  | .normal cursor slot entry =>
    cursor = node ∧ entersZero machine (state.process node) (state.entered node entry) slot entry
  | _ => False

/-- What an event may touch at a node. -/
def scope (machine : Machine G np) (state : PtmcState G np) (node : Fin np) (event : Event G np) : Scope where
  delivers := fun slot => event.delivers node slot
  removes := fun tid => event.releases machine state node tid
  zero := event.queuesAtZero machine state node

end Event

variable {machine : Machine G np} {state after : PtmcState G np} {prompt : Prop} {outcome : Option Outcome}

theorem PtmcState.proceeds_step (settled : ∀ node, Settled prompt (state.process node))
    (clear : ∀ node, (state.process node).state.futex.NoZero) {event : Event G np}
    (stepped : state.step machine event = .ok (outcome, after)) (node : Fin np) :
    Proceeds (event.scope machine state node) prompt (state.process node) (after.process node) := by
  cases event with
  | normal cursor slot entry =>
    obtain ⟨⟨_, _⟩, acted, same⟩ := map_eq_ok.mp stepped
    cases same
    unfold normalAction at acted
    split at acted
    · refine (advances_doSingleSyscall (settled cursor) (clear cursor) acted).at_node settled clear node ?_ ?_ ?_
      · exact fun own _ same => ⟨own, same⟩
      · rintro rfl tid released
        exact ⟨rfl, released⟩
      · rintro rfl asks
        exact ⟨rfl, asks⟩
    · contradiction
  | timeout cursor slot =>
    obtain ⟨⟨_, _⟩, acted, same⟩ := map_eq_ok.mp stepped
    cases same
    unfold timeoutAction at acted
    split at acted
    · contradiction
    · contradiction
    · refine (advances_expireAndComplete (settled cursor) (clear cursor) acted).at_node settled clear node ?_ ?_ ?_
      · exact fun own _ same => ⟨own, same⟩
      · rintro rfl tid released
        exact ⟨rfl, released⟩
      · exact fun _ asks => asks.elim
  | refresh =>
    obtain ⟨_, refreshed, same⟩ := map_eq_ok.mp stepped
    cases same
    exact proceeds_refreshPendingSyscalls settled clear refreshed node
  | refreshFutex cursor =>
    cases stepped
    have refreshed : Advances cursor Scope.quiet prompt state
        (state.setProcess cursor (state.process cursor).refreshFutexPending) :=
      .of_update rfl ((settled cursor).refreshFutexPending (clear cursor))
    exact refreshed.at_node settled clear node (fun _ _ none => none.elim) (fun _ _ none => none.elim)
      (fun _ none => none.elim)
  | setDeadline cursor tid deadline =>
    obtain ⟨_, timed, same⟩ := map_eq_ok.mp stepped
    cases same
    have limited : Advances cursor Scope.quiet prompt state (state.setProcess cursor _) :=
      .of_update rfl ((settled cursor).setPendingDeadline (clear cursor) timed)
    exact limited.at_node settled clear node (fun _ _ none => none.elim) (fun _ _ none => none.elim)
      (fun _ none => none.elim)
  | expire cursor tid =>
    obtain ⟨_, expired, same⟩ := map_eq_ok.mp stepped
    cases same
    obtain ⟨⟨_, _⟩, granted, same⟩ := map_eq_ok.mp expired
    cases same
    have advances : Advances cursor _ prompt state (state.setProcess cursor _) :=
      .of_update rfl ((settled cursor).expirePendingSyscall (clear cursor) granted)
    exact advances.at_node settled clear node (fun _ _ none => none.elim) (fun own _ same => ⟨own, same⟩)
      (fun _ none => none.elim)
  | grant cursor tid result =>
    obtain ⟨_, granted, same⟩ := map_eq_ok.mp stepped
    cases same
    have advances : Advances cursor _ prompt state (state.setProcess cursor _) :=
      .of_update rfl ((settled cursor).readySyscall (clear cursor) granted)
    exact advances.at_node settled clear node (fun _ _ none => none.elim) (fun own _ same => ⟨own, same⟩)
      (fun _ none => none.elim)

/-! ## Address zero -/

theorem IoCall.decode_futex {info : SyscallInfo} (named : info.nr = sysFutex) : IoCall.decode info = none := by
  unfold IoCall.decode
  rw [named]
  rfl

/-- A step that queues a thread at address zero does so. -/
theorem PtmcState.zero_step (settled : ∀ node, Settled prompt (state.process node))
    (clear : ∀ node, (state.process node).state.futex.NoZero) {event : Event G np}
    (stepped : state.step machine event = .ok (outcome, after)) {node : Fin np}
    (zero : event.queuesAtZero machine state node) : ¬(after.process node).state.futex.NoZero := by
  cases event with
  | normal cursor slot entry =>
    obtain ⟨rfl, decoded, idle, queues⟩ := zero
    have number := ThreadCall.number_of_decode decoded
    obtain ⟨⟨_, _⟩, acted, same⟩ := map_eq_ok.mp stepped
    cases same
    unfold normalAction at acted
    split at acted
    · unfold doSingleSyscall at acted
      obtain ⟨completed, finished, rest⟩ := bind_eq_ok.mp acted
      cases completed with
      | some completed =>
        -- a thread without an unfinished call has none to complete
        unfold completePendingSyscall at finished
        split at finished
        · cases finished
        · obtain ⟨thread, acts, rest⟩ := bind_eq_ok.mp finished
          rw [idle thread (liveThread_spec acts).1] at rest
          cases rest
      | none =>
        obtain ⟨image, start, rest⟩ := bind_eq_ok.mp rest
        have begins : Begins state _ cursor slot entry := begins_of_start start
        generalize (state.setImage cursor image).setMemory cursor entry.memory = begun at begins rest
        have started : Advances cursor Scope.quiet prompt state begun := begins.advances (settled cursor) (clear cursor)
        unfold dispatch at rest
        simp only [IoCall.decode_futex number, decoded] at rest
        obtain ⟨⟨_, _⟩, handled, same⟩ := map_eq_ok.mp rest
        cases same
        have exact := (started.here.settled.handleFutexCall (begins.futex ▸ clear cursor) (begins.idle idle) number
          handled).2
        simp only [setProcess, Function.update_self]
        rw [exact, begins.io, begins.futex]
        exact not_not.mpr queues
    · contradiction
  | _ => exact zero.elim

/-! ## Starts -/

/-- A system without unfinished calls: its threads are numbered, its queues are empty and nobody is blocked. -/
structure PtmcState.Started (state : PtmcState G np) : Prop where
  numbered : ∀ node, Numbered (state.process node).state.threads
  idle : ∀ node, ∀ thread ∈ (state.process node).state.threads, thread.pendingSyscall = none
  empty : ∀ node, (state.process node).state.futex = {}
  unblocked : ∀ node slot, (state.process node).threadBlocked slot = false

/-- A process without unfinished calls is settled. -/
theorem LiveProcess.settled_of_idle {process : LiveProcess} (numbered : Numbered process.state.threads)
    (idle : ∀ thread ∈ process.state.threads, thread.pendingSyscall = none) (empty : process.state.futex = {})
    (unblocked : ∀ slot, process.threadBlocked slot = false) : Settled prompt process := by
  have idle : ∀ (slot : ℕ) thread, process.state.threads[slot]? = some thread → thread.pendingSyscall = none :=
    fun slot thread read => idle thread (List.mem_of_getElem? read)
  have asleep : ∀ tid, ¬process.state.Waiting tid := by
    intro tid
    simp [Waiting, empty, isThreadWaiting]
  refine ⟨⟨numbered, ?_, ?_, ?_, ?_⟩, ?_⟩
  · intro slot thread read
    refine ⟨?_, fun waiting => absurd waiting (asleep _), fun _ waits => ?_⟩
    · intro pending has
      exact absurd ((idle slot thread read).symm.trans has) (Option.some_ne_none pending).symm
    · exact absurd waits (ThreadState.not_waitsOnFutex (idle slot thread read))
  · exact fun tid waiting => absurd waiting (asleep tid)
  · rw [empty]
    exact kept_empty
  · exact fun _ slot thread read => ThreadState.not_waitsOnFutex (idle slot thread read)
  · intro slot
    rw [unblocked slot]
    cases read : process.state.threads[slot]? with
    | none => rfl
    | some thread => simp [ThreadState.waits, idle slot thread read]

theorem PtmcState.Started.settled (started : state.Started) (node : Fin np) : Settled prompt (state.process node) :=
  settled_of_idle (started.numbered node) (started.idle node) (started.empty node) (started.unblocked node)

section SmallSystem

/-- Memory that is all zero and forgets what is written. -/
def zeroMemory : GuestOs Unit where
  read := fun _ _ size => some (List.replicate size 0)
  write := fun _ _ _ => ((), true)
  writable := fun _ _ _ _ => .ok true

def zeroMachine : Machine Unit 1 := ⟨zeroMemory, fun _ => none⟩

/-- One node with two threads. -/
def twoThreads : PtmcState Unit 1 where
  process := fun _ =>
    { state := { threads := [{ tid := 1, alive := true, isMain := true }, { tid := 2, alive := true }], mainTid := 1 }
      threadBlocked := fun _ => false }
  time := fun _ => ⟨0, 0⟩
  nodes := fun _ => ⟨∅, {}, {}, ()⟩

theorem twoThreads_started : twoThreads.Started where
  numbered := by
    intro node
    refine ⟨(by decide : 2 ≤ 64), ?_⟩
    intro slot thread read
    rcases slot with _ | _ | slot
    · cases read
      rfl
    · cases read
      rfl
    · simp [twoThreads] at read
  idle := by simp [twoThreads]
  empty := fun _ => rfl
  unblocked := fun _ _ => rfl

/-- A futex call of a thread: its address, operation, value, fourth argument and second address. -/
def futexEvent (slot : ℕ) (uaddr op val val2 uaddr2 : UInt64) : Event Unit 1 :=
  .normal (Fin.last 0) slot
    { memory := (), call := ⟨sysFutex, 0, #v[uaddr, op, val, val2, uaddr2, 0]⟩, choice := 0
      other := ⟨0, (), {}, 0⟩ }

/-- The exit of a thread. -/
def exitEvent (slot : ℕ) : Event Unit 1 :=
  .normal (Fin.last 0) slot
    { memory := (), call := ⟨sysExit, 0, Vector.replicate 6 0⟩, choice := 0, other := ⟨0, (), {}, 0⟩ }

end SmallSystem

end DetSim.Kernel
