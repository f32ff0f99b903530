import Mathlib
import DetSim.Soundness.PendingRuns

/-! # Deadlines and clocks

A deadline is counted in nanoseconds and a clock in microseconds. A deadline is the request, plus the clock when it is
relative, saturated as the kernel does it; the clock after a timeout is the first tick that is not before the deadline
and not before the clock. Clocks are set by timeouts and by `gettimeofday` only, and both move them forwards.
-/

namespace DetSim.Kernel

open LiveProcess TraceeState

/-- The time in microseconds. -/
def Timeval.micros (time : Timeval) : Int := time.sec.toInt * 1000000 + time.usec.toInt

/-- The deadline in nanoseconds. -/
def PendingDeadline.nanos (deadline : PendingDeadline) : Int :=
  deadline.sec.toInt * 1000000000 + deadline.nsec.toInt

/-- Nanoseconds as the kernel keeps them: all seconds from a limit on are the end of time. -/
def saturated (sec nsec : Int) : Int := if 9223372036 ≤ sec then 2 ^ 63 - 1 else sec * 1000000000 + nsec

theorem validateModelTime_iff {now : Timeval} : validateModelTime now = true ↔
    0 ≤ now.sec.toInt ∧ 0 ≤ now.usec.toInt ∧ now.usec.toInt < 1000000 := by
  simp only [validateModelTime, Bool.and_eq_true, decide_eq_true_eq, Int64.le_iff_toInt_le, Int64.lt_iff_toInt_lt,
    and_assoc]
  rfl

theorem validateDeadline_iff {deadline : PendingDeadline} : validateDeadline deadline = true ↔
    (deadline.clockId = clockRealtime ∨ deadline.clockId = clockMonotonic) ∧ 0 ≤ deadline.sec.toInt ∧
      0 ≤ deadline.nsec.toInt ∧ deadline.nsec.toInt < 1000000000 := by
  simp only [validateDeadline, Bool.and_eq_true, Bool.or_eq_true, beq_iff_eq, decide_eq_true_eq,
    Int64.le_iff_toInt_le, Int32.le_iff_toInt_le, Int32.lt_iff_toInt_lt, and_assoc]
  rfl

/-! ## Making a deadline -/

theorem saturated_range {sec nsec : Int} (positive : 0 ≤ sec) (some_ : 0 ≤ nsec) (part : nsec < 1000000000) :
    0 ≤ saturated sec nsec ∧ saturated sec nsec < 2 ^ 63 := by
  unfold saturated
  split <;> omega

theorem saturated_mono {sec nsec sec' nsec' : Int} (later : sec * 1000000000 + nsec ≤ sec' * 1000000000 + nsec')
    (part : 0 ≤ nsec ∧ nsec < 1000000000) (part' : 0 ≤ nsec' ∧ nsec' < 1000000000) :
    saturated sec nsec ≤ saturated sec' nsec' := by
  unfold saturated
  split <;> split <;> omega

/-- What the clock adds to a relative request. -/
def startOf (now : Timeval) (relative : Bool) : Int :=
  if relative then saturated now.sec.toInt (now.usec.toInt * 1000) else 0

section Deadline

variable {now : Timeval} {clockId : Int32} {sec : Int64} {nsec : Int32} {relative : Bool} {timeoutResult : Int64}

/-- A valid request at a valid clock gives a deadline: the request, plus the clock, saturated. -/
theorem makePendingDeadline_eq (request : validateDeadline ⟨clockId, sec, nsec, timeoutResult⟩ = true)
    (clock : validateModelTime now = true) :
    ∃ deadline, makePendingDeadline now clockId sec nsec relative timeoutResult = .ok deadline ∧
      deadline.nanos = min (saturated sec.toInt nsec.toInt + startOf now relative) (2 ^ 63 - 1) ∧
      validateDeadline deadline = true ∧ deadline.inKtime = true := by
  obtain ⟨known, positive, start, part⟩ := validateDeadline_iff.mp request
  obtain ⟨later, some_, fraction⟩ := validateModelTime_iff.mp clock
  dsimp only at known positive start part
  have total : 0 ≤ saturated sec.toInt nsec.toInt + startOf now relative := by
    have first := (saturated_range positive start part).1
    have second : 0 ≤ startOf now relative := by
      unfold startOf
      split
      · exact (saturated_range later (by omega) (by omega)).1
      · rfl
    omega
  generalize bounded : min (saturated sec.toInt nsec.toInt + startOf now relative) (2 ^ 63 - 1) = nanos
  have seconds : (Int64.ofInt (nanos / 1000000000)).toInt = nanos / 1000000000 :=
    Int64.toInt_ofInt_of_le (by omega) (by omega)
  have rest : (Int32.ofInt (nanos % 1000000000)).toInt = nanos % 1000000000 :=
    Int32.toInt_ofInt_of_le (by omega) (by omega)
  refine ⟨⟨clockId, Int64.ofInt (nanos / 1000000000), Int32.ofInt (nanos % 1000000000), timeoutResult⟩, ?_, ?_, ?_, ?_⟩
  · rw [makePendingDeadline, request, clock, ← bounded]
    rfl
  · rw [PendingDeadline.nanos, seconds, rest]
    omega
  · rw [validateDeadline_iff, seconds, rest]
    exact ⟨known, by omega, by omega, by omega⟩
  · rw [PendingDeadline.inKtime, decide_eq_true_eq, seconds, rest, ktimeMax]
    omega

/-- A deadline that was made is the one of a valid request at a valid clock. -/
theorem makePendingDeadline_nanos {deadline : PendingDeadline}
    (made : makePendingDeadline now clockId sec nsec relative timeoutResult = .ok deadline) :
    validateDeadline ⟨clockId, sec, nsec, timeoutResult⟩ = true ∧ validateModelTime now = true ∧
      deadline.nanos = min (saturated sec.toInt nsec.toInt + startOf now relative) (2 ^ 63 - 1) := by
  have checked : validateDeadline ⟨clockId, sec, nsec, timeoutResult⟩ = true ∧ validateModelTime now = true := by
    unfold makePendingDeadline at made
    split_ifs at made with invalid unclocked
    all_goals exact ⟨by simpa using invalid, by simpa using unclocked⟩
  obtain ⟨found, same, nanos, -⟩ := makePendingDeadline_eq checked.1 checked.2
  cases same.symm.trans made
  exact ⟨checked.1, checked.2, nanos⟩

end Deadline

/-! ## The clock of a timeout -/

theorem toInt_add_of_small {value step : Int64} (start : 0 ≤ value.toInt) (forwards : 0 ≤ step.toInt)
    (room : value.toInt + step.toInt < 2 ^ 63) : (value + step).toInt = value.toInt + step.toInt := by
  rw [Int64.toInt_add]
  exact Int.bmod_eq_of_le (by omega) (by omega)

/-- A deadline in whole ticks, rounded up. -/
theorem exists_rounded {deadline : PendingDeadline} (valid : validateDeadline deadline = true)
    (bounded : deadline.nanos < 2 ^ 63) :
    ∃ first : Timeval, (if (deadline.nsec.toInt + 999) / 1000 = 1000000 then ⟨deadline.sec + 1, 0⟩
        else ⟨deadline.sec, Int64.ofInt ((deadline.nsec.toInt + 999) / 1000)⟩) = first ∧
      validateModelTime first = true ∧ first.micros = (deadline.nanos + 999) / 1000 := by
  obtain ⟨-, positive, start, part⟩ := validateDeadline_iff.mp valid
  unfold PendingDeadline.nanos at bounded ⊢
  refine ⟨_, rfl, ?_⟩
  rw [validateModelTime_iff, Timeval.micros]
  split
  · next carry =>
    have one : (1 : Int64).toInt = 1 := rfl
    have next := toInt_add_of_small positive (by decide : 0 ≤ (1 : Int64).toInt) (by omega)
    have zero : (0 : Int64).toInt = 0 := rfl
    dsimp only
    rw [next, zero, one]
    omega
  · have rounded : (Int64.ofInt ((deadline.nsec.toInt + 999) / 1000)).toInt = (deadline.nsec.toInt + 999) / 1000 :=
      Int64.toInt_ofInt_of_le (by omega) (by omega)
    dsimp only
    rw [rounded]
    omega

theorem reaches_iff {now : Timeval} {deadline : PendingDeadline} (clock : validateModelTime now = true)
    (valid : validateDeadline deadline = true) :
    now.reaches deadline = true ↔ deadline.nanos ≤ now.micros * 1000 := by
  obtain ⟨later, some_, fraction⟩ := validateModelTime_iff.mp clock
  obtain ⟨-, positive, start, part⟩ := validateDeadline_iff.mp valid
  rw [Timeval.reaches, Bool.or_eq_true, Bool.and_eq_true, decide_eq_true_eq, decide_eq_true_eq, beq_iff_eq,
    Int64.lt_iff_toInt_lt, ← Int64.toInt_inj, PendingDeadline.nanos, Timeval.micros]
  omega

/-- The clock of a timeout is the first tick that is neither before the clock nor before the deadline. -/
theorem pendingTimeoutClock_eq {source target : Timeval} {deadline : PendingDeadline}
    (returned : pendingTimeoutClock source deadline = .ok target) :
    validateModelTime target = true ∧ target.reaches deadline = true ∧
      target.micros = max source.micros ((deadline.nanos + 999) / 1000) := by
  unfold pendingTimeoutClock at returned
  split_ifs at returned with invalid clocks
  rw [Bool.or_eq_true, not_or, Bool.not_eq_true', Bool.not_eq_true', Bool.not_eq_false, Bool.not_eq_false] at clocks
  rw [Bool.not_eq_true', Bool.not_eq_false] at invalid
  have bounded : deadline.nanos < 2 ^ 63 := by
    have range := of_decide_eq_true clocks.2
    unfold ktimeMax at range
    unfold PendingDeadline.nanos
    omega
  obtain ⟨first, same, valid, rounded⟩ := exists_rounded invalid bounded
  dsimp only at returned
  rw [same] at returned
  obtain ⟨now, some_, part⟩ := validateModelTime_iff.mp clocks.1
  obtain ⟨later, more, fraction⟩ := validateModelTime_iff.mp valid
  have ends : validateModelTime target = true ∧ target.micros = max source.micros ((deadline.nanos + 999) / 1000) := by
    rw [← rounded]
    unfold Timeval.micros
    simp only [Int64.lt_iff_toInt_lt, ← Int64.toInt_inj] at returned
    split_ifs at returned
    · cases returned
      exact ⟨clocks.1, by omega⟩
    · cases returned
      exact ⟨valid, by omega⟩
  exact ⟨ends.1, (reaches_iff ends.1 invalid).mpr (by omega), ends.2⟩

/-! ## Timeouts -/

namespace PtmcState

variable {G : Type} {np : ℕ} {machine : Machine G np} {state after : PtmcState G np} {cursor : Fin np} {slot : ℕ}
  {outcome : Outcome}

/-- The end of a call leaves the clocks alone. -/
theorem time_completePendingSyscall
    (returned : state.completePendingSyscall machine cursor slot = .ok (some (outcome, after))) :
    after.time = state.time := by
  unfold completePendingSyscall at returned
  split at returned
  · cases returned
  obtain ⟨thread, -, rest⟩ := Except.bind_eq_ok.mp returned
  split at rest
  · cases rest
  · split at rest
    · cases rest
    · obtain ⟨reply, retried, same⟩ := Except.map_eq_ok.mp rest
      cases same
      unfold completeRetry at retried
      split_ifs at retried
      obtain ⟨⟨result, nodes⟩, -, last⟩ := Except.bind_eq_ok.mp retried
      cases result <;> cases last <;> rfl
    · cases rest
      rfl

/-- A live thread is found by its number. -/
theorem findThread_of_numbered {process : LiveProcess} {thread : ThreadState}
    (numbered : Numbered process.state.threads) (read : process.state.threads[slot]? = some thread)
    (alive : thread.alive = true) : process.findThread thread.tid = some slot := by
  obtain ⟨inside, same⟩ := List.getElem?_eq_some_iff.mp read
  refine List.findIdx?_eq_some_iff_getElem.mpr ⟨inside, by rw [same, alive, beq_self_eq_true]; rfl, ?_⟩
  intro other before
  rw [Bool.and_eq_true, beq_iff_eq]
  rintro ⟨named, -⟩
  have found : process.state.threads[other]? = some process.state.threads[other] :=
    List.getElem?_eq_getElem (before.trans inside)
  exact absurd (numbered.unique found read named) before.ne

/-- The deadline of an admitted timeout is due at the clock that was computed. -/
theorem due_of_admitted (numbered : Numbered (state.process cursor).state.threads) {target : Timeval}
    (admitted : state.timeoutActionClock cursor slot = .ok target) :
    ∃ thread pending deadline, (state.process cursor).state.threads[slot]? = some thread ∧ thread.alive = true ∧
      pendingTimeoutClock (state.time cursor) deadline = .ok target ∧
      (state.process cursor).unfinished thread.tid = some (slot, thread, pending) ∧
      (state.process cursor).pendingTimeoutDue target thread.tid = .ok (some deadline) := by
  obtain ⟨thread, pending, deadline, read, alive, has, waiting, limited, clock⟩ := timeoutActionClock_spec admitted
  obtain ⟨valid, due, -⟩ := pendingTimeoutClock_eq clock
  have checked : validateDeadline deadline = true := by
    by_contra invalid
    rw [pendingTimeoutClock, if_pos (by simpa using invalid)] at clock
    cases clock
  have unfinished : (state.process cursor).unfinished thread.tid = some (slot, thread, pending) := by
    simp [LiveProcess.unfinished, findThread_of_numbered numbered read alive, read, has, waiting]
  refine ⟨thread, pending, deadline, read, alive, clock, unfinished, ?_⟩
  unfold LiveProcess.pendingTimeoutDue
  simp only [unfinished, limited, checked, valid, due, Bool.not_true, Bool.false_eq_true, if_false, if_true]

/-- An admitted timeout ends the call of its thread. -/
theorem expireAndComplete_admitted (numbered : Numbered (state.process cursor).state.threads) {target : Timeval}
    (admitted : state.timeoutActionClock cursor slot = .ok target) :
    ∃ outcome after, state.expireAndComplete machine cursor slot target = .ok (outcome, after) := by
  obtain ⟨thread, pending, deadline, read, alive, -, unfinished, due⟩ := due_of_admitted numbered admitted
  generalize held : state.process cursor = process at read unfinished due
  have expires : ∃ granted, process.expirePendingSyscall target thread.tid = .ok (true, granted) ∧
      granted.state.threads = process.state.threads.set slot
        { thread with pendingSyscall := some { pending with phase := .ready, result := deadline.timeoutResult } } := by
    unfold LiveProcess.expirePendingSyscall LiveProcess.readySyscall
    simp only [due, unfinished, bind, Except.bind]
    refine ⟨_, rfl, ?_⟩
    split <;> rfl
  obtain ⟨granted, expired, threads⟩ := expires
  have ready : granted.state.threads[slot]? = some
      { thread with pendingSyscall := some { pending with phase := .ready, result := deadline.timeoutResult } } := by
    rw [threads, List.getElem?_set_self (List.getElem?_eq_some_iff.mp read).1]
  have acts : process.actor slot = .ok thread := by simp [LiveProcess.actor, LiveProcess.liveThread, read, alive]
  generalize aged : { state with time := Function.update state.time cursor target } = late
  have completes : ∃ completed, (late.setProcess cursor granted).completePendingSyscall machine cursor slot =
      .ok (some completed) := by
    have here : (late.setProcess cursor granted).process cursor = granted := Function.update_self ..
    have nonempty : granted.state.threads ≠ [] := fun empty => by
      rw [empty] at ready
      cases ready
    simp only [completePendingSyscall, here, nonempty, if_false, LiveProcess.actor, LiveProcess.liveThread, ready,
      alive, if_true, bind, Except.bind]
    exact ⟨_, rfl⟩
  obtain ⟨completed, done⟩ := completes
  refine ⟨completed.1, completed.2, ?_⟩
  simp only [expireAndComplete, aged, held, acts, expired, done, bind, Except.bind, if_true]

/-- The clocks after a timeout: that of the node is the computed one. -/
theorem time_timeoutAction (returned : state.timeoutAction machine cursor slot = .ok (outcome, after)) :
    ∃ deadline, ∃ target, pendingTimeoutClock (state.time cursor) deadline = .ok target ∧
      after.time = Function.update state.time cursor target := by
  unfold timeoutAction at returned
  split at returned
  · cases returned
  · cases returned
  · next target admitted =>
    obtain ⟨_, _, deadline, -, -, -, -, -, clock⟩ := timeoutActionClock_spec admitted
    refine ⟨deadline, target, clock, ?_⟩
    obtain ⟨thread, -, rest⟩ := Except.bind_eq_ok.mp returned
    obtain ⟨⟨expired, granted⟩, -, rest⟩ := Except.bind_eq_ok.mp rest
    obtain ⟨completed, finished, rest⟩ := Except.bind_eq_ok.mp rest
    cases completed with
    | none => cases rest
    | some completed =>
      dsimp only at rest
      split at rest
      · cases rest
        exact time_completePendingSyscall finished
      · cases rest

/-! ## Timeouts after a restore -/

/-- A thread without its carrier. -/
def unboundThread (thread : ThreadState) : ThreadState := { thread with physicalTid := 0 }

/-- What a restore does not touch: everything except the carriers and the slots that are derived from the threads. -/
def unbound (state : PtmcState G np) : PtmcState G np :=
  { state with process := fun node => { state.process node with
      state := { (state.process node).state with threads := (state.process node).state.threads.map unboundThread }
      threadBlocked := fun _ => false } }

theorem map_unboundThread_bindThreadCarriers {anchor : Int32} {carriers : List Int32} {threads bound : List ThreadState}
    (returned : bindThreadCarriers anchor carriers threads = .ok bound) :
    bound.map unboundThread = threads.map unboundThread := by
  fun_induction bindThreadCarriers anchor carriers threads generalizing bound with
  | case1 =>
    cases returned
    rfl
  | case4 => cases returned
  | case2 _ _ _ _ ih | case3 _ _ _ _ _ ih | case5 _ _ _ _ _ _ _ _ ih =>
    obtain ⟨left, rest, same⟩ := Except.map_eq_ok.mp returned
    rw [← same, List.map_cons, List.map_cons, ih rest]
    rfl

theorem unbound_recoverRunningState {pools : Fin np → Int32 × List Int32}
    (returned : state.recoverRunningState pools = .ok after) : after.unbound = state.unbound := by
  refine Except.foldlM_invariant (fun recovered => recovered.unbound = state.unbound) ?_ rfl returned
  intro recovered node next _ same restored
  obtain ⟨threads, bound, last⟩ := Except.bind_eq_ok.mp restored
  cases last
  rw [← same]
  unfold unbound setProcess
  congr 1
  funext other
  by_cases here : other = node
  · have kept := congrFun (congrArg process same) other
    dsimp only [unbound] at kept
    rw [kept, here]
    dsimp only
    rw [Function.update_self, map_unboundThread_bindThreadCarriers bound]
  · dsimp only
    rw [Function.update_of_ne here]

@[simp] theorem timeoutActionClock_unbound :
    state.unbound.timeoutActionClock cursor slot = state.timeoutActionClock cursor slot := by
  have valid : validatePendingSyscalls (state.unbound.process cursor).state =
      validatePendingSyscalls (state.process cursor).state := by
    simp only [validatePendingSyscalls, unbound, List.all_map, List.any_map]
    rfl
  have read : (state.unbound.process cursor).state.threads[slot]? =
      (state.process cursor).state.threads[slot]?.map unboundThread := List.getElem?_map ..
  unfold timeoutActionClock
  dsimp only
  rw [valid, read]
  cases (state.process cursor).state.threads[slot]? <;> rfl

theorem numbered_unbound :
    Numbered (state.unbound.process cursor).state.threads ↔ Numbered (state.process cursor).state.threads := by
  change Numbered ((state.process cursor).state.threads.map unboundThread) ↔ _
  constructor
  · intro numbered
    refine ⟨List.length_map unboundThread ▸ numbered.bounded, fun slot thread read => ?_⟩
    exact numbered.number slot (unboundThread thread) (by rw [List.getElem?_map, read]; rfl)
  · intro numbered
    refine ⟨(List.length_map unboundThread).trans_le numbered.bounded, fun slot thread read => ?_⟩
    rw [List.getElem?_map] at read
    obtain ⟨bound, found, same⟩ := Option.map_eq_some_iff.mp read
    exact same ▸ numbered.number slot bound found

/-- A timeout that is admitted is still admitted after a restore, and fires. -/
theorem timeoutTransition_admitted {pools : Fin np → Int32 × List Int32} {running : PtmcState G np}
    (numbered : Numbered (state.process cursor).state.threads) {target : Timeval}
    (admitted : state.timeoutActionClock cursor slot = .ok target)
    (restored : state.recoverRunningState pools = .ok running) :
    ∃ outcome after, state.timeoutTransition machine cursor pools slot = .ok (outcome, after) := by
  have same := unbound_recoverRunningState restored
  have again : running.timeoutActionClock cursor slot = .ok target := by
    rw [← timeoutActionClock_unbound, same, timeoutActionClock_unbound, admitted]
  have numbers : Numbered (running.process cursor).state.threads := by
    rwa [← numbered_unbound, same, numbered_unbound]
  obtain ⟨outcome, after, fired⟩ := expireAndComplete_admitted numbers again
  refine ⟨outcome, after, ?_⟩
  simp only [timeoutTransition, admitted, restored, bind, Except.bind, again]
  exact fired

/-! ## Clocks of a run -/

theorem time_issueCall {info : SyscallInfo} {choice : Int32} {call : IoCall}
    (returned : state.issueCall machine cursor slot info choice call = .ok (outcome, after)) :
    after.time = state.time := by
  grind [issueCall, finishIoCall, setProcess, Except.bind_eq_ok]

theorem time_closeProcessIo (returned : state.closeProcessIo machine cursor = .ok after) :
    after.time = state.time := by
  grind [closeProcessIo, setProcess, Except.bind_eq_ok]

theorem time_exitLogicalThread {exitCode : Int32}
    (returned : state.exitLogicalThread machine cursor slot exitCode = .ok (outcome, after)) :
    after.time = state.time := by
  obtain ⟨-, -, rest⟩ := Except.bind_eq_ok.mp returned
  obtain ⟨image, -, rest⟩ := Except.bind_eq_ok.mp rest
  dsimp only at rest
  split at rest
  · obtain ⟨closed, closes, same⟩ := Except.map_eq_ok.mp rest
    cases same
    exact (time_closeProcessIo closes).trans rfl
  · cases rest
    rfl

theorem time_exitLogicalProcess {exitCode : Int32}
    (returned : state.exitLogicalProcess machine cursor slot exitCode = .ok (outcome, after)) :
    after.time = state.time := by
  obtain ⟨-, -, rest⟩ := Except.bind_eq_ok.mp returned
  obtain ⟨image, -, rest⟩ := Except.bind_eq_ok.mp rest
  obtain ⟨closed, closes, same⟩ := Except.map_eq_ok.mp rest
  cases same
  exact (time_closeProcessIo closes).trans rfl

theorem time_finishClone {request : LiveProcess.CloneRequest}
    (returned : state.finishClone machine cursor slot request = .ok (outcome, after)) : after.time = state.time := by
  obtain ⟨⟨tid, image⟩, -, last⟩ := Except.bind_eq_ok.mp returned
  cases last
  rfl

theorem time_handleThreadCall {info : SyscallInfo} {call : ThreadCall}
    (returned : state.handleThreadCall machine cursor slot info call = .ok (outcome, after)) :
    after.time = state.time := by
  cases call with
  | clone => exact time_finishClone returned
  | clone3 =>
    obtain ⟨parsed, -, rest⟩ := Except.bind_eq_ok.mp returned
    cases parsed with
    | error errno =>
      cases rest
      rfl
    | ok request => exact time_finishClone rest
  | exit => exact time_exitLogicalThread returned
  | exitGroup => exact time_exitLogicalProcess returned
  | pselect6 =>
    obtain ⟨⟨outcome, process, node⟩, -, last⟩ := Except.bind_eq_ok.mp returned
    cases last
    rfl
  | futex | nanosleep | clockNanosleep | setTidAddress | setRobustList =>
    obtain ⟨answer, -, same⟩ := Except.map_eq_ok.mp returned
    cases same
    rfl

theorem time_refreshPendingSyscalls (returned : state.refreshPendingSyscalls = .ok after) :
    after.time = state.time := by
  refine Except.foldlM_invariant (fun other => other.time = state.time) ?_ rfl returned
  grind [refreshNode, setProcess, Except.map_eq_ok]

/-- The call is not modelled in detail. -/
def Unmodelled (entry : Entry G) : Prop := IoCall.decode entry.call = none ∧ ThreadCall.decode entry.call.nr = none

/-- A call sets no clock, or it is not modelled in detail and advances that of its node. -/
theorem time_doSingleSyscall {entry : Entry G}
    (returned : state.doSingleSyscall machine cursor slot entry = .ok (outcome, after)) :
    after.time = state.time ∨ Unmodelled entry ∧ after.time =
      Function.update state.time cursor (advanceClock (state.time cursor) entry.other.microseconds) := by
  obtain ⟨completed, completes, rest⟩ := Except.bind_eq_ok.mp returned
  cases completed with
  | some completed =>
    cases rest
    exact .inl (time_completePendingSyscall completes)
  | none =>
    obtain ⟨image, -, dispatched⟩ := Except.bind_eq_ok.mp rest
    unfold dispatch at dispatched
    split at dispatched
    · exact .inl ((time_issueCall dispatched).trans rfl)
    · next noIo =>
      split at dispatched
      · exact .inl ((time_handleThreadCall dispatched).trans rfl)
      · next noThread =>
        cases dispatched
        exact .inr ⟨⟨noIo, noThread⟩, rfl⟩

/-- A clock moved forwards, from a valid time to a valid one. -/
def Forwards (before after : Timeval) : Prop :=
  validateModelTime before = true → validateModelTime after = true ∧ before.micros ≤ after.micros

theorem forwards_advanceClock {time : Timeval} {microseconds : ℕ}
    (room : time.micros + microseconds < 2 ^ 63 * 1000000) : Forwards time (advanceClock time microseconds) := by
  intro valid
  obtain ⟨positive, some_, part⟩ := validateModelTime_iff.mp valid
  unfold Timeval.micros at room ⊢
  have seconds : (Int64.ofNat (microseconds / 1000000)).toInt = (microseconds / 1000000 : ℕ) :=
    Int64.toInt_ofNat_of_lt (by omega)
  have rest : (Int64.ofNat (microseconds % 1000000)).toInt = (microseconds % 1000000 : ℕ) :=
    Int64.toInt_ofNat_of_lt (by omega)
  have sec := toInt_add_of_small positive (by omega : 0 ≤ (Int64.ofNat (microseconds / 1000000)).toInt) (by omega)
  have usec := toInt_add_of_small some_ (by omega : 0 ≤ (Int64.ofNat (microseconds % 1000000)).toInt) (by omega)
  have one : (1 : Int64).toInt = 1 := rfl
  have million : (1000000 : Int64).toInt = 1000000 := rfl
  rw [validateModelTime_iff, advanceClock]
  split
  · next carry =>
    rw [Int64.le_iff_toInt_le, million] at carry
    have next := toInt_add_of_small (by omega : 0 ≤ (time.sec + Int64.ofNat (microseconds / 1000000)).toInt)
      (by omega : 0 ≤ (1 : Int64).toInt) (by omega)
    have left : (time.usec + Int64.ofNat (microseconds % 1000000) - 1000000).toInt =
        (time.usec + Int64.ofNat (microseconds % 1000000)).toInt - 1000000 := by
      rw [Int64.toInt_sub, million]
      exact Int.bmod_eq_of_le (by omega) (by omega)
    dsimp only
    omega
  · next below =>
    rw [Int64.le_iff_toInt_le, million] at below
    dsimp only
    omega

/-- A call that is not modelled in detail keeps the clock of its node in the range of the seconds. -/
def Timely (state : PtmcState G np) : Event G np → Prop
  | .normal node _ entry => Unmodelled entry →
      (state.time node).micros + entry.other.microseconds < 2 ^ 63 * 1000000
  | _ => True

/-- Anything that can happen to a system, with clocks that stay in range. -/
def TimelyStep (machine : Machine G np) (state after : PtmcState G np) : Prop :=
  ∃ event outcome, state.Timely event ∧ state.step machine event = .ok (outcome, after)

theorem TimelyStep.forwards (stepped : TimelyStep machine state after) (node : Fin np) :
    Forwards (state.time node) (after.time node) := by
  have still : ∀ {other : PtmcState G np}, other.time = state.time → Forwards (state.time node) (other.time node) :=
    fun same valid => by
      rw [same]
      exact ⟨valid, le_rfl⟩
  have set : ∀ {cursor : Fin np} {target : Timeval}, Forwards (state.time cursor) target →
      after.time = Function.update state.time cursor target → Forwards (state.time node) (after.time node) := by
    intro cursor target forwards updated
    by_cases here : node = cursor
    · rw [updated, here, Function.update_self]
      exact forwards
    · intro valid
      rw [updated, Function.update_of_ne here]
      exact ⟨valid, le_rfl⟩
  have updates : ∀ {cursor : Fin np} {answer : Except String LiveProcess} {outcome : Option Outcome},
      state.update cursor answer = .ok (outcome, after) → Forwards (state.time node) (after.time node) := by
    intro cursor answer outcome updated
    obtain ⟨process, -, same⟩ := Except.map_eq_ok.mp updated
    cases same
    exact still rfl
  obtain ⟨event, outcome, room, stepped⟩ := stepped
  cases event with
  | normal cursor slot entry =>
    obtain ⟨⟨shown, next⟩, acted, same⟩ := Except.map_eq_ok.mp stepped
    cases same
    unfold normalAction at acted
    split at acted
    · obtain same | ⟨other, advanced⟩ := time_doSingleSyscall acted
      · exact still same
      · exact set (forwards_advanceClock (room other)) advanced
    · cases acted
  | timeout cursor slot =>
    obtain ⟨⟨shown, next⟩, acted, same⟩ := Except.map_eq_ok.mp stepped
    cases same
    obtain ⟨deadline, target, clock, clocks⟩ := time_timeoutAction acted
    obtain ⟨valid, -, later⟩ := pendingTimeoutClock_eq clock
    exact set (fun _ => ⟨valid, by omega⟩) clocks
  | refresh =>
    obtain ⟨refreshed, refreshes, same⟩ := Except.map_eq_ok.mp stepped
    cases same
    exact still (time_refreshPendingSyscalls refreshes)
  | refreshFutex | setDeadline | expire | grant => exact updates stepped

theorem forwards_of_run {start : PtmcState G np} (run : Relation.ReflTransGen (TimelyStep machine) start state)
    (node : Fin np) : Forwards (start.time node) (state.time node) := by
  induction run with
  | refl => exact fun valid => ⟨valid, le_rfl⟩
  | tail _ stepped ih =>
    intro valid
    obtain ⟨middle, sooner⟩ := ih valid
    obtain ⟨last, later⟩ := stepped.forwards node middle
    exact ⟨last, sooner.trans later⟩

/-! ## The clock call -/

theorem advanceClock_zero {time : Timeval} (valid : validateModelTime time = true) : advanceClock time 0 = time := by
  obtain ⟨-, -, part⟩ := validateModelTime_iff.mp valid
  have below : ¬1000000 ≤ time.usec := by
    rw [Int64.le_iff_toInt_le]
    exact Int.not_le.mpr part
  simp [advanceClock, below]

/-- The reply is the one to a call of `gettimeofday` as a call that is not modelled in detail, which lets at most the
given time pass. -/
def RepliesAsOther (machine : Machine G np) (state : PtmcState G np) (cursor : Fin np) (limit : ℕ)
    (reply : Int × PtmcState G np) : Prop :=
  ∃ other : OtherEffect G, other.microseconds ≤ limit ∧
    ∀ (slot : ℕ) (entry : Entry G), entry.call.nr = sysGettimeofday → entry.other = other →
      state.dispatch machine cursor slot entry = .ok (.returned reply.1, reply.2)

theorem repliesAsOther_advanceClock (machine : Machine G np) (state : PtmcState G np) (cursor : Fin np)
    {limit microseconds : ℕ} (result : Int) (memory : G) (bounded : microseconds ≤ limit) :
    RepliesAsOther machine state cursor limit (result, { state.setMemory cursor memory with
        time := Function.update state.time cursor (advanceClock (state.time cursor) microseconds) }) := by
  refine ⟨⟨result, memory, (state.nodes cursor).fsState, microseconds⟩, bounded, ?_⟩
  intro slot entry number effect
  have noIo : IoCall.decode entry.call = none := by
    unfold IoCall.decode
    rw [number]
    rfl
  have noThread : ThreadCall.decode entry.call.nr = none := by
    rw [number]
    rfl
  simp only [dispatch, noIo, noThread, otherCall, effect, setMemory]

/-- `gettimeofday` writes memory, and lets no time pass or the steps of its choice. -/
theorem repliesAsOther_emuGettimeofday (machine : Machine G np) (state : PtmcState G np) (cursor : Fin np)
    (tv tz : UInt64) (nChoose choose : Int32) (valid : validateModelTime (state.time cursor) = true) :
    RepliesAsOther machine state cursor (kDefaultTimeStepUs * (choose.toInt.toNat + 1))
      (state.emuGettimeofday machine cursor tv tz nChoose choose) := by
  have idle : ∀ (result : Int) (memory : G), RepliesAsOther machine state cursor
      (kDefaultTimeStepUs * (choose.toInt.toNat + 1)) (result, state.setMemory cursor memory) := by
    intro result memory
    have replies := repliesAsOther_advanceClock machine state cursor result memory
      (Nat.zero_le (kDefaultTimeStepUs * (choose.toInt.toNat + 1)))
    rwa [advanceClock_zero valid, Function.update_eq_self] at replies
  unfold emuGettimeofday emuGettimeofdayWrite
  dsimp only
  generalize (if tv = 0 then _ else _ : G × Bool) = copied
  generalize (if tz = 0 then _ else _ : G × Bool) = zoned
  split
  · exact idle eFault copied.1
  · split
    · exact idle eFault zoned.1
    · split
      · rw [Function.update_eq_self]
        exact idle 0 zoned.1
      · exact repliesAsOther_advanceClock machine state cursor 0 zoned.1 le_rfl

/-- Admitted timeouts fire at the right time. A valid request gives a deadline, which is the request plus the clock,
saturated at the end of time as the kernel does it; it is accepted for every unfinished call that may have one, and it
grows with the request and with the clock. The clock of an admitted timeout is the first tick that is neither before
the clock nor before the deadline; the deadline is due then, and once the state is restored the timeout succeeds. In a
run no clock goes back or leaves its form, where `gettimeofday` is a call like all that are not modelled in detail. -/
theorem timeouts_exact (machine : Machine G np) :
    (∀ (now : Timeval) (clockId : Int32) (sec : Int64) (nsec : Int32) (relative : Bool) (timeoutResult : Int64),
      validateDeadline ⟨clockId, sec, nsec, timeoutResult⟩ = true → validateModelTime now = true →
      ∃ deadline, makePendingDeadline now clockId sec nsec relative timeoutResult = .ok deadline ∧
        deadline.nanos = min (saturated sec.toInt nsec.toInt +
          if relative then saturated now.sec.toInt (now.usec.toInt * 1000) else 0) (2 ^ 63 - 1) ∧
        ∀ (process : LiveProcess) (tid : Int32) (slot : ℕ) (thread : ThreadState) (pending : PendingSyscall),
          process.unfinished tid = some (slot, thread, pending) →
          timedPendingAllowed { pending with deadline := some deadline } deadline = true →
          ∃ next, process.setPendingDeadline tid deadline = .ok next) ∧
    (∀ (now later : Timeval) (clockId : Int32) (sec sec' : Int64) (nsec nsec' : Int32) (relative : Bool)
      (timeoutResult : Int64) (deadline deadline' : PendingDeadline), now.micros ≤ later.micros →
      sec.toInt * 1000000000 + nsec.toInt ≤ sec'.toInt * 1000000000 + nsec'.toInt →
      makePendingDeadline now clockId sec nsec relative timeoutResult = .ok deadline →
      makePendingDeadline later clockId sec' nsec' relative timeoutResult = .ok deadline' →
      deadline.nanos ≤ deadline'.nanos) ∧
    (∀ (state : PtmcState G np) (cursor : Fin np) (slot : ℕ) (target : Timeval),
      Numbered (state.process cursor).state.threads → state.timeoutActionClock cursor slot = .ok target →
      validateModelTime target = true ∧
      (∀ pools running, state.recoverRunningState pools = .ok running →
        ∃ outcome after, state.timeoutTransition machine cursor pools slot = .ok (outcome, after)) ∧
      ∃ thread deadline, (state.process cursor).state.threads[slot]? = some thread ∧
        (state.process cursor).pendingTimeoutDue target thread.tid = .ok (some deadline) ∧
        IsLeast { ticks : Int | (state.time cursor).micros ≤ ticks ∧ deadline.nanos ≤ ticks * 1000 }
          target.micros) ∧
    (∀ (start state : PtmcState G np), Relation.ReflTransGen (TimelyStep machine) start state → ∀ node,
      validateModelTime (start.time node) = true →
      validateModelTime (state.time node) = true ∧ (start.time node).micros ≤ (state.time node).micros) ∧
    ∀ (state : PtmcState G np) (cursor : Fin np) (tv tz : UInt64) (nChoose choose : Int32),
      validateModelTime (state.time cursor) = true →
      RepliesAsOther machine state cursor (kDefaultTimeStepUs * (choose.toInt.toNat + 1))
        (state.emuGettimeofday machine cursor tv tz nChoose choose) := by
  refine ⟨?_, ?_, ?_, fun start state run node => forwards_of_run run node, repliesAsOther_emuGettimeofday machine⟩
  · intro now clockId sec nsec relative timeoutResult request clock
    obtain ⟨deadline, made, nanos, valid, inKtime⟩ := makePendingDeadline_eq request clock
    refine ⟨deadline, made, nanos, fun process tid slot thread pending found allowed => ?_⟩
    have timed : validateTimedPending { pending with deadline := some deadline } deadline = true := by
      have range := of_decide_eq_true inKtime
      unfold ktimeMax at range
      rw [validateTimedPending, allowed, valid, Bool.true_and, Bool.true_and, decide_eq_true_eq]
      omega
    simp only [LiveProcess.setPendingDeadline, valid, inKtime, found, timed, Bool.not_true, Bool.false_eq_true, if_false]
    exact ⟨_, rfl⟩
  · intro now later clockId sec sec' nsec nsec' relative timeoutResult deadline deadline' clocks requests made made'
    obtain ⟨request, clock, nanos⟩ := makePendingDeadline_nanos made
    obtain ⟨request', clock', nanos'⟩ := makePendingDeadline_nanos made'
    obtain ⟨-, positive, part⟩ := validateDeadline_iff.mp request
    obtain ⟨-, positive', part'⟩ := validateDeadline_iff.mp request'
    obtain ⟨since, some_, fraction⟩ := validateModelTime_iff.mp clock
    obtain ⟨since', some_', fraction'⟩ := validateModelTime_iff.mp clock'
    have requested := saturated_mono requests part part'
    have started : startOf now relative ≤ startOf later relative := by
      unfold startOf
      split
      · unfold Timeval.micros at clocks
        exact saturated_mono (by omega) (by omega) (by omega)
      · exact le_rfl
    omega
  · intro state cursor slot target numbered admitted
    obtain ⟨thread, -, deadline, read, -, clock, -, due⟩ := due_of_admitted numbered admitted
    obtain ⟨valid, -, least⟩ := pendingTimeoutClock_eq clock
    refine ⟨valid, fun pools running => timeoutTransition_admitted numbered admitted, thread, deadline, read, due, ?_, ?_⟩
    · exact ⟨by omega, by omega⟩
    · rintro ticks ⟨after_, reached⟩
      rw [least]
      omega

/-- A node at the last second of the clock. -/
def lastSecond : PtmcState Unit 1 := { twoThreads with time := fun _ => ⟨9223372036854775807, 999950⟩ }

/-- A request of 9223372036 seconds is below the end of time, and the deadline is the end of time all the same. A clock
at its last second goes back when it is advanced. -/
theorem deadline_clamped :
    makePendingDeadline ⟨0, 0⟩ clockMonotonic 9223372036 0 false 0 = .ok ⟨clockMonotonic, 9223372036, 854775807, 0⟩ ∧
      validateModelTime (lastSecond.time 0) = true ∧
      ((lastSecond.emuGettimeofday zeroMachine 0 0 0 2 0).2.time 0).micros < (lastSecond.time 0).micros := by
  decide +kernel

end PtmcState

end DetSim.Kernel
