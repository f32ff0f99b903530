import DetSim.Model.KernelRuns
import DetSim.Soundness.FutexQueues
import DetSim.ToMathlib.Except

/-! # Threads with unfinished calls

The joint invariant of a process: its threads are numbered by their slots, an unfinished call is valid and its
thread alive, who stands in a futex queue has an unfinished wait, and the blocked slots are those of the waiting
threads. An operation may leave a woken thread with its wait until the next refresh; the invariant has a
parameter for that. Operations are described by what else they may touch: the granted calls they deliver, the
threads they let leave a queue, and whether they may queue a thread at address zero.
-/

namespace DetSim.Kernel

open FutexState

/-! ## Threads that wait -/

variable {tid : Int32} {pending : PendingSyscall}

namespace ThreadState

variable (thread : ThreadState)

def waits : Bool := thread.alive && thread.pendingSyscall.any fun pending => pending.phase == .waiting

def WaitsOnFutex : Prop :=
  ∃ pending, thread.pendingSyscall = some pending ∧ pending.reason = .futex ∧ pending.phase = .waiting

/-- The thread with another unfinished call, or with none. -/
def withCall (call : Option PendingSyscall) : ThreadState := { thread with pendingSyscall := call }

/-- A thread goes on: it does not come back from the dead, and keeps a granted call until its end. -/
structure Endures (renewed : ThreadState) : Prop where
  dead : thread.alive = false → renewed.alive = false
  granted : ∀ pending, thread.pendingSyscall = some pending → pending.phase = .ready →
    renewed.pendingSyscall = some pending ∨ renewed.alive = false

variable {thread} {renewed : ThreadState}

theorem Endures.refl (thread : ThreadState) : thread.Endures thread := ⟨id, fun _ has _ => .inl has⟩

theorem Endures.trans {last : ThreadState} (first : thread.Endures renewed) (second : renewed.Endures last) :
    thread.Endures last where
  dead := second.dead ∘ first.dead
  granted := by
    intro pending has ready
    obtain kept | dead := first.granted pending has ready
    · exact second.granted pending kept ready
    · exact .inr (second.dead dead)

/-- A call that is not granted yet may change. -/
theorem Endures.of_unfinished (alive : renewed.alive = thread.alive)
    (unfinished : ∀ pending, thread.pendingSyscall = some pending → pending.phase ≠ .ready) :
    thread.Endures renewed :=
  ⟨fun dead => alive.trans dead, fun pending has ready => absurd ready (unfinished pending has)⟩

theorem Endures.of_same (alive : renewed.alive = thread.alive)
    (same : renewed.pendingSyscall = thread.pendingSyscall) : thread.Endures renewed :=
  ⟨fun dead => alive.trans dead, fun _ has _ => .inl (same.trans has)⟩

theorem waitsOnFutex_congr (same : renewed.pendingSyscall = thread.pendingSyscall) :
    renewed.WaitsOnFutex ↔ thread.WaitsOnFutex := by
  rw [WaitsOnFutex, WaitsOnFutex, same]

theorem waits_congr (alive : renewed.alive = thread.alive) (same : renewed.pendingSyscall = thread.pendingSyscall) :
    renewed.waits = thread.waits := by
  rw [waits, waits, alive, same]

theorem not_waitsOnFutex (idle : thread.pendingSyscall = none) : ¬thread.WaitsOnFutex := by
  rintro ⟨pending, has, -⟩
  rw [idle] at has
  contradiction

end ThreadState

/-! ## The invariant -/

namespace TraceeState

variable (state : TraceeState)

def futex : FutexState := state.futexState.getD {}

def Waiting (tid : Int32) : Prop := state.futex.isThreadWaiting tid = true

theorem futexState_any (tid : Int32) :
    (state.futexState.any fun futex => futex.isThreadWaiting tid) = state.futex.isThreadWaiting tid := by
  rw [futex]
  cases state.futexState with
  | none => simp [isThreadWaiting]
  | some futex => rfl

/-- Threads are numbered by their slots. -/
structure Numbered (threads : List ThreadState) : Prop where
  bounded : threads.length ≤ maxThreadsPerProcess
  number : ∀ slot thread, threads[slot]? = some thread → thread.tid = Int32.ofNat (slot + 1)

/-- The unfinished call of a thread is valid and agrees with the queues. A prompt process has granted every
wait whose thread was woken. -/
structure Fits (prompt waiting : Prop) (thread : ThreadState) : Prop where
  unfinished : ∀ pending, thread.pendingSyscall = some pending → thread.alive = true ∧ validatePending pending = true
  sleeps : waiting → thread.WaitsOnFutex
  lags : prompt → thread.WaitsOnFutex → waiting

structure Placed (prompt : Prop) (state : TraceeState) : Prop where
  numbered : Numbered state.threads
  fits : ∀ (slot : ℕ) thread, state.threads[slot]? = some thread → Fits prompt (state.Waiting thread.tid) thread
  owned : ∀ tid, state.Waiting tid → ∃ (slot : ℕ) (thread : ThreadState), state.threads[slot]? = some thread ∧ thread.tid = tid
  kept : state.futex.Kept
  opened : state.futexState = none →
    ∀ (slot : ℕ) thread, state.threads[slot]? = some thread → ¬thread.WaitsOnFutex

variable {state} {after : TraceeState} {prompt lag : Prop}

theorem Numbered.unique {threads : List ThreadState} (numbered : Numbered threads) {first second : ℕ}
    {left right : ThreadState} (here : threads[first]? = some left) (there : threads[second]? = some right)
    (same : left.tid = right.tid) : first = second := by
  have low := (List.getElem?_eq_some_iff.mp here).1
  have high := (List.getElem?_eq_some_iff.mp there).1
  have bounded : threads.length ≤ 64 := numbered.bounded
  rw [numbered.number _ _ here, numbered.number _ _ there] at same
  have numbers := congrArg Int32.toInt same
  rw [Int32.toInt_ofNat_of_lt (by omega), Int32.toInt_ofNat_of_lt (by omega)] at numbers
  omega

theorem Numbered.set {threads : List ThreadState} (numbered : Numbered threads) {slot : ℕ}
    {thread renewed : ThreadState} (read : threads[slot]? = some thread) (same : renewed.tid = thread.tid) :
    Numbered (threads.set slot renewed) where
  bounded := by
    rw [List.length_set]
    exact numbered.bounded
  number := by
    intro other found there
    rw [List.getElem?_set] at there
    split at there
    · next here =>
      subst here
      split at there
      · rw [← Option.some.inj there, same]
        exact numbered.number _ _ read
      · contradiction
    · exact numbered.number _ _ there

/-- A thread without an unfinished futex wait is in no queue. -/
theorem Placed.not_waiting (placed : Placed prompt state) {slot : ℕ} {thread : ThreadState}
    (read : state.threads[slot]? = some thread) (idle : ¬thread.WaitsOnFutex) : ¬state.Waiting thread.tid :=
  fun waiting => idle ((placed.fits slot thread read).sleeps waiting)

theorem Placed.weaken (placed : Placed prompt state) : Placed False state where
  numbered := placed.numbered
  fits := fun slot thread read =>
    ⟨(placed.fits slot thread read).unfinished, (placed.fits slot thread read).sleeps, False.elim⟩
  owned := placed.owned
  kept := placed.kept
  opened := placed.opened

/-- One thread changes, and nobody else enters or leaves a queue. -/
theorem Placed.renew (placed : Placed prompt state) {slot : ℕ} {thread renewed : ThreadState}
    (read : state.threads[slot]? = some thread) (threads : after.threads = state.threads.set slot renewed)
    (number : renewed.tid = thread.tid) (others : ∀ tid, tid ≠ thread.tid → (after.Waiting tid ↔ state.Waiting tid))
    (fits : Fits prompt (after.Waiting thread.tid) renewed) (kept : after.futex.Kept)
    (opened : after.futexState = none → state.futexState = none ∧ ¬renewed.WaitsOnFutex) : Placed prompt after where
  numbered := threads ▸ placed.numbered.set read number
  fits := by
    intro other found there
    rw [threads, List.getElem?_set] at there
    split at there
    · next here =>
      subst here
      split at there
      · rw [← Option.some.inj there, number]
        exact fits
      · contradiction
    · next different =>
      have foreign : found.tid ≠ thread.tid := fun same => different (placed.numbered.unique read there same.symm)
      have old := placed.fits other found there
      refine ⟨old.unfinished, ?_, ?_⟩
      · rw [others _ foreign]
        exact old.sleeps
      · rw [others _ foreign]
        exact old.lags
  owned := by
    intro tid waiting
    have inside := (List.getElem?_eq_some_iff.mp read).1
    by_cases self : tid = thread.tid
    · refine ⟨slot, renewed, ?_, number.trans self.symm⟩
      rw [threads, List.getElem?_set_self inside]
    · obtain ⟨other, found, there, named⟩ := placed.owned tid ((others tid self).mp waiting)
      have different : slot ≠ other := by
        rintro rfl
        rw [read] at there
        exact self (Option.some.inj there ▸ named).symm
      refine ⟨other, found, ?_, named⟩
      rw [threads, List.getElem?_set_ne different, there]
  kept := kept
  opened := by
    intro closed other found there
    rw [threads, List.getElem?_set] at there
    split at there
    · next here =>
      subst here
      split at there
      · rw [← Option.some.inj there]
        exact (opened closed).2
      · contradiction
    · exact placed.opened (opened closed).1 other found there

/-- Threads leave their queues and keep their calls for the moment. -/
theorem Placed.release (placed : Placed prompt state) (threads : after.threads = state.threads)
    {gone : Int32 → Prop} (released : Released state.futex after.futex gone)
    (opened : after.futexState = none → state.futexState = none) : Placed False after where
  numbered := threads ▸ placed.numbered
  fits := by
    intro slot thread read
    rw [threads] at read
    have old := placed.fits slot thread read
    exact ⟨old.unfinished, fun waiting => old.sleeps (released.shrinks _ waiting), False.elim⟩
  owned := by
    intro tid waiting
    rw [threads]
    exact placed.owned tid (released.shrinks _ waiting)
  kept := released.kept
  opened := by
    intro closed
    rw [threads]
    exact placed.opened (opened closed)

/-- Every thread may change its call, and the queues stay. -/
theorem Placed.pointwise (placed : Placed lag state) (futex : after.futexState = state.futexState)
    (length : after.threads.length = state.threads.length)
    (each : ∀ (slot : ℕ) thread, state.threads[slot]? = some thread → ∃ renewed, after.threads[slot]? = some renewed ∧
      renewed.tid = thread.tid ∧ Fits prompt (state.Waiting thread.tid) renewed ∧
      (renewed.WaitsOnFutex → thread.WaitsOnFutex)) : Placed prompt after := by
  have queues : after.futex = state.futex := by rw [TraceeState.futex, TraceeState.futex, futex]
  have back : ∀ (slot : ℕ) renewed, after.threads[slot]? = some renewed → ∃ thread,
      state.threads[slot]? = some thread ∧ renewed.tid = thread.tid ∧
        Fits prompt (state.Waiting thread.tid) renewed ∧ (renewed.WaitsOnFutex → thread.WaitsOnFutex) := by
    intro slot renewed there
    have inside : slot < state.threads.length := length ▸ (List.getElem?_eq_some_iff.mp there).1
    have read := List.getElem?_eq_getElem inside
    obtain ⟨found, here, same⟩ := each slot _ read
    rw [there] at here
    cases here
    exact ⟨_, read, same⟩
  refine ⟨⟨length ▸ placed.numbered.bounded, ?_⟩, ?_, ?_, queues ▸ placed.kept, ?_⟩
  · intro slot renewed there
    obtain ⟨thread, read, number, -⟩ := back slot renewed there
    exact number.trans (placed.numbered.number slot thread read)
  · intro slot renewed there
    obtain ⟨thread, read, number, fits, -⟩ := back slot renewed there
    rw [Waiting, queues, number]
    exact fits
  · intro tid waiting
    rw [Waiting, queues] at waiting
    obtain ⟨slot, thread, read, named⟩ := placed.owned tid waiting
    obtain ⟨renewed, there, number, -⟩ := each slot thread read
    exact ⟨slot, renewed, there, number.trans named⟩
  · intro closed slot renewed there waits
    obtain ⟨thread, read, -, -, back⟩ := back slot renewed there
    exact placed.opened (futex ▸ closed) slot thread read (back waits)

/-- Without futex queues every process is prompt. -/
theorem Placed.of_closed (placed : Placed lag state) (closed : state.futexState = none) : Placed prompt state where
  numbered := placed.numbered
  fits := fun slot thread read =>
    ⟨(placed.fits slot thread read).unfinished, (placed.fits slot thread read).sleeps,
      fun _ waits => absurd waits (placed.opened closed slot thread read)⟩
  owned := placed.owned
  kept := placed.kept
  opened := placed.opened

end TraceeState

namespace LiveProcess

open TraceeState

variable {process after : LiveProcess} {prompt lag : Prop}

/-- The blocked slots are those of waiting threads. -/
def BlockedExactly (process : LiveProcess) : Prop :=
  ∀ slot, process.threadBlocked slot = process.state.threads[slot]?.any ThreadState.waits

structure Settled (prompt : Prop) (process : LiveProcess) : Prop where
  placed : Placed prompt process.state
  blocked : process.BlockedExactly

theorem blockedExactly_sync (bounded : process.state.threads.length ≤ maxThreadsPerProcess) :
    process.syncPendingBlocked.BlockedExactly := by
  intro slot
  by_cases inside : slot < maxThreadsPerProcess
  · simp only [syncPendingBlocked, inside, decide_true, Bool.true_and]
    rfl
  · have absent : process.state.threads[slot]? = none := List.getElem?_eq_none (by omega)
    simp [syncPendingBlocked, inside, absent]

theorem BlockedExactly.set (blocked : process.BlockedExactly) {slot : ℕ} {thread renewed : ThreadState}
    (read : process.state.threads[slot]? = some thread)
    (threads : after.state.threads = process.state.threads.set slot renewed)
    (unchanged : after.threadBlocked = process.threadBlocked) (same : renewed.waits = thread.waits) :
    after.BlockedExactly := by
  intro other
  rw [unchanged, blocked other, threads, List.getElem?_set]
  split
  · next here =>
    subst here
    rw [if_pos (List.getElem?_eq_some_iff.mp read).1, read, Option.any_some, Option.any_some, same]
  · rfl

/-! ## What operations may touch -/

structure Scope where
  delivers : ℕ → Prop
  removes : Int32 → Prop
  zero : Prop

/-- Nothing is touched. -/
def Scope.quiet : Scope := ⟨fun _ => False, fun _ => False, False⟩

structure Proceeds (scope : Scope) (prompt : Prop) (process after : LiveProcess) : Prop where
  settled : Settled prompt after
  endures : ∀ (slot : ℕ) thread, ¬scope.delivers slot → process.state.threads[slot]? = some thread →
    ∃ renewed, after.state.threads[slot]? = some renewed ∧ thread.Endures renewed
  stays : ∀ tid, process.state.futex.Queued tid → ¬scope.removes tid → after.state.futex.Queued tid
  clear : ¬scope.zero → after.state.futex.NoZero

variable {scope : Scope}

theorem Proceeds.trans {last : LiveProcess} (first : Proceeds scope prompt process after)
    (second : Proceeds scope prompt after last) : Proceeds scope prompt process last where
  settled := second.settled
  endures := by
    intro slot thread stays read
    obtain ⟨middle, there, left⟩ := first.endures slot thread stays read
    obtain ⟨renewed, here, right⟩ := second.endures slot middle stays there
    exact ⟨renewed, here, left.trans right⟩
  stays := fun tid queued stays => second.stays tid (first.stays tid queued stays) stays
  clear := second.clear

theorem Proceeds.of_quiet (proceeds : Proceeds Scope.quiet prompt process after) :
    Proceeds scope prompt process after where
  settled := proceeds.settled
  endures := fun slot thread _ read => proceeds.endures slot thread id read
  stays := fun tid queued _ => proceeds.stays tid queued id
  clear := fun _ => proceeds.clear id

/-- Neither the threads nor the queues change. -/
theorem Settled.proceeds_same (settled : Settled prompt process) (clear : process.state.futex.NoZero)
    (state : after.state = process.state) (blocked : after.threadBlocked = process.threadBlocked) :
    Proceeds scope prompt process after where
  settled := by
    refine ⟨state ▸ settled.placed, ?_⟩
    rw [BlockedExactly, blocked, state]
    exact settled.blocked
  endures := fun slot thread _ read => ⟨thread, state ▸ read, ThreadState.Endures.refl thread⟩
  stays := fun tid queued _ => state ▸ queued
  clear := fun _ => state ▸ clear

theorem endures_set {slot : ℕ} {thread renewed : ThreadState} (read : process.state.threads[slot]? = some thread)
    (threads : after.state.threads = process.state.threads.set slot renewed)
    (endures : scope.delivers slot ∨ thread.Endures renewed) :
    ∀ (other : ℕ) found, ¬scope.delivers other → process.state.threads[other]? = some found →
      ∃ renewed, after.state.threads[other]? = some renewed ∧ found.Endures renewed := by
  intro other found stays there
  by_cases here : slot = other
  · subst here
    rw [read] at there
    cases there
    refine ⟨renewed, ?_, endures.resolve_left stays⟩
    rw [threads, List.getElem?_set_self (List.getElem?_eq_some_iff.mp read).1]
  · exact ⟨found, by rw [threads, List.getElem?_set_ne here, there], ThreadState.Endures.refl found⟩

/-- One thread changes and the queues do not. -/
theorem Settled.proceeds_set (settled : Settled prompt process) (clear : process.state.futex.NoZero) {slot : ℕ}
    {thread renewed : ThreadState} (read : process.state.threads[slot]? = some thread)
    (threads : after.state.threads = process.state.threads.set slot renewed)
    (futex : after.state.futexState = process.state.futexState) (number : renewed.tid = thread.tid)
    (unfinished : ∀ pending, renewed.pendingSyscall = some pending →
      renewed.alive = true ∧ validatePending pending = true)
    (waits : renewed.WaitsOnFutex ↔ thread.WaitsOnFutex) (blocked : after.BlockedExactly)
    (endures : scope.delivers slot ∨ thread.Endures renewed) : Proceeds scope prompt process after where
  settled := by
    have queues : after.state.futex = process.state.futex := by rw [TraceeState.futex, TraceeState.futex, futex]
    have waiting : ∀ tid, after.state.Waiting tid ↔ process.state.Waiting tid := by
      intro tid
      rw [Waiting, Waiting, queues]
    have old := settled.placed.fits slot thread read
    refine ⟨settled.placed.renew read threads number (fun tid _ => waiting tid) ?_ (queues ▸ settled.placed.kept) ?_,
      blocked⟩
    · rw [waiting]
      exact ⟨unfinished, waits.mpr ∘ old.sleeps, fun on => old.lags on ∘ waits.mp⟩
    · intro closed
      have before := futex ▸ closed
      exact ⟨before, fun waiting => settled.placed.opened before slot thread read (waits.mp waiting)⟩
  endures := endures_set read threads endures
  stays := by
    intro tid queued _
    rwa [TraceeState.futex, futex]
  clear := by
    intro _
    rwa [TraceeState.futex, futex]

/-- A thread changes in other respects than its call. -/
theorem Settled.proceeds_register (settled : Settled prompt process) (clear : process.state.futex.NoZero) {slot : ℕ}
    {thread renewed : ThreadState} (read : process.state.threads[slot]? = some thread)
    (number : renewed.tid = thread.tid) (alive : renewed.alive = thread.alive)
    (same : renewed.pendingSyscall = thread.pendingSyscall) :
    Proceeds scope prompt process (process.setThread slot renewed) := by
  refine settled.proceeds_set clear read rfl rfl number ?_ (ThreadState.waitsOnFutex_congr same) ?_
    (.inr (ThreadState.Endures.of_same alive same))
  · rw [alive, same]
    exact (settled.placed.fits slot thread read).unfinished
  · exact settled.blocked.set read rfl rfl (ThreadState.waits_congr alive same)

/-! ## Valid calls -/

theorem validatePending_granted (valid : validatePending pending = true) (result : Int64) :
    validatePending { pending with phase := .ready, result } = true := by
  simp only [validatePending, Bool.and_eq_true] at valid ⊢
  obtain ⟨⟨⟨⟨⟨⟨number, -⟩, futex⟩, timer⟩, select⟩, io⟩, timed⟩ := valid
  refine ⟨⟨⟨⟨⟨⟨number, by simp⟩, ?_⟩, ?_⟩, select⟩, io⟩, timed⟩
  · revert futex
    cases pending.reason <;> simp
    exact fun named _ => named
  · revert timer
    cases pending.reason <;> simp
    exact fun named _ deadline => ⟨named, deadline⟩

theorem validatePending_rephased (valid : validatePending pending = true)
    (io : pending.reason = .io) (phase : PendingPhase) : validatePending { pending with phase, result := 0 } = true := by
  simp only [validatePending, Bool.and_eq_true] at valid ⊢
  obtain ⟨⟨⟨⟨⟨⟨number, -⟩, -⟩, -⟩, select⟩, supported⟩, timed⟩ := valid
  exact ⟨⟨⟨⟨⟨⟨number, by simp⟩, by simp [io]⟩, by simp [io]⟩, select⟩, supported⟩, timed⟩

theorem validatePending_result (valid : validatePending pending = true)
    (unfinished : pending.phase ≠ .ready) : pending.result = 0 := by
  simp only [validatePending, Bool.and_eq_true] at valid
  simpa [unfinished] using valid.1.1.1.1.1.2

theorem validatePending_timed (valid : validatePending pending = true)
    {deadline : PendingDeadline}
    (timed : validateTimedPending { pending with deadline := some deadline } deadline = true) :
    validatePending { pending with deadline := some deadline } = true := by
  have allowed : timedPendingAllowed { pending with deadline := some deadline } deadline = true := by
    simp only [validateTimedPending, Bool.and_eq_true] at timed
    exact timed.1.1
  simp only [validatePending, Bool.and_eq_true] at valid ⊢
  obtain ⟨⟨⟨⟨⟨⟨number, result⟩, futex⟩, timer⟩, select⟩, io⟩, -⟩ := valid
  refine ⟨⟨⟨⟨⟨⟨number, result⟩, futex⟩, ?_⟩, ?_⟩, io⟩, by simpa using timed⟩
  · revert timer
    cases pending.reason <;> simp
    exact fun named retried _ => ⟨named, retried⟩
  · by_cases named : pending.nr = sysPselect6
    · simp only [named, bne_self_eq_false, Bool.false_or, Bool.and_eq_true] at select ⊢
      obtain ⟨⟨⟨⟨reason, positive⟩, -⟩, outside⟩, -⟩ := select
      have timer : pending.reason = .timer := by simpa using reason
      have sleeps : (sysPselect6 == sysNanosleep) = false := by decide
      have clocks : (sysPselect6 == sysClockNanosleep) = false := by decide
      simp only [timedPendingAllowed, timer, named, sleeps, clocks, Bool.false_eq_true, if_false, beq_self_eq_true,
        Bool.true_and, Bool.and_eq_true] at allowed
      refine ⟨⟨⟨⟨reason, positive⟩, ?_⟩, outside⟩, ?_⟩
      · simpa using allowed.2.1
      · rw [Option.all_some, allowed.2.2, allowed.1]
        rfl
    · simp [named]

/-! ## Grants, deadlines and ends of calls -/

theorem unfinished_spec {slot : ℕ} {thread : ThreadState}
    (found : process.unfinished tid = some (slot, thread, pending)) :
    process.state.threads[slot]? = some thread ∧ thread.tid = tid ∧ thread.pendingSyscall = some pending ∧
      pending.phase ≠ .ready := by
  simp only [unfinished, bind, Option.bind_eq_some_iff] at found
  obtain ⟨place, searched, other, read, call, has, rest⟩ := found
  split at rest
  · contradiction
  · next phase =>
    simp only [Option.some.injEq, Prod.mk.injEq] at rest
    obtain ⟨rfl, rfl, rfl⟩ := rest
    obtain ⟨inside, chosen, -⟩ := List.findIdx?_eq_some_iff_getElem.mp searched
    have same := List.getElem?_eq_some_iff.mp read
    rw [same.2, Bool.and_eq_true, beq_iff_eq] at chosen
    exact ⟨read, chosen.1, has, phase⟩

theorem Settled.setPendingDeadline (settled : Settled prompt process) (clear : process.state.futex.NoZero)
    {deadline : PendingDeadline} (returned : process.setPendingDeadline tid deadline = .ok after) :
    Proceeds scope prompt process after := by
  unfold LiveProcess.setPendingDeadline at returned
  split_ifs at returned
  split at returned
  · contradiction
  · next slot thread pending found =>
    split at returned
    · contradiction
    · next timed =>
      cases returned
      obtain ⟨read, -, has, unready⟩ := unfinished_spec found
      have old := (settled.placed.fits slot thread read).unfinished pending has
      refine settled.proceeds_set clear read rfl rfl rfl ?_ ?_ ?_ (.inr ?_)
      · rintro _ ⟨rfl⟩
        exact ⟨old.1, validatePending_timed old.2 (by simpa using timed)⟩
      · simp [ThreadState.WaitsOnFutex, has]
      · refine settled.blocked.set read rfl rfl ?_
        simp [ThreadState.waits, has]
      · refine ThreadState.Endures.of_unfinished rfl ?_
        intro other same
        rw [has] at same
        cases same
        exact unready

/-- The queues of a process after one thread was woken. -/
theorem futex_wakeThread (process : LiveProcess) (tid : Int32) :
    (process.wakeThread tid).state.futex = (process.state.futex.removeWaiter tid).2 := by
  unfold LiveProcess.wakeThread TraceeState.futex
  cases read : process.state.futexState with
  | none =>
    rw [Option.getD_none, FutexState.removeWaiter_idle (by simp [isThreadWaiting])]
    rfl
  | some futex => rfl

/-- A thread leaves its queue together with its wait. -/
theorem placed_leave (placed : Placed prompt process.state)
    (clear : process.state.futex.NoZero) {slot : ℕ} {thread renewed : ThreadState}
    (read : process.state.threads[slot]? = some thread) (idle : ¬renewed.WaitsOnFutex)
    (number : renewed.tid = thread.tid) (unfinished : ∀ pending, renewed.pendingSyscall = some pending →
      renewed.alive = true ∧ validatePending pending = true) :
    Placed prompt ((process.wakeThread thread.tid).setThread slot renewed).state := by
  have queues : ((process.wakeThread thread.tid).setThread slot renewed).state.futex =
      (process.state.futex.removeWaiter thread.tid).2 := futex_wakeThread process thread.tid
  have released := placed.kept.removeWaiter thread.tid
  have still := clear.removeWaiter placed.kept thread.tid
  refine placed.renew read rfl number ?_ ⟨unfinished, ?_, fun _ waits => absurd waits idle⟩ ?_ ?_
  · intro tid foreign
    rw [Waiting, Waiting, queues, released.waiting placed.kept clear still foreign]
  · rw [Waiting, queues, placed.kept.removeWaiter_idle]
    exact fun waiting => absurd waiting Bool.false_ne_true
  · rw [queues]
    exact released.kept
  · intro closed
    exact ⟨Option.map_eq_none_iff.mp closed, idle⟩

theorem Settled.readySyscall (settled : Settled prompt process) (clear : process.state.futex.NoZero) {result : Int64}
    (returned : process.readySyscall tid result = .ok after) :
    Proceeds { Scope.quiet with removes := (· = tid) } prompt process after := by
  unfold LiveProcess.readySyscall at returned
  split at returned
  · contradiction
  · next slot thread pending found =>
    obtain ⟨read, rfl, has, unready⟩ := unfinished_spec found
    have placed := settled.placed
    have old := (placed.fits slot thread read).unfinished pending has
    have valid : ∀ call, (thread.withCall (some { pending with phase := .ready, result })).pendingSyscall = some call →
        thread.alive = true ∧ validatePending call = true := by
      rintro _ ⟨rfl⟩
      exact ⟨old.1, validatePending_granted old.2 result⟩
    have granted : ¬(thread.withCall (some { pending with phase := .ready, result })).WaitsOnFutex := by
      rintro ⟨call, same, -, phase⟩
      cases same
      contradiction
    have endures : thread.Endures (thread.withCall (some { pending with phase := .ready, result })) := by
      refine ThreadState.Endures.of_unfinished rfl ?_
      intro other same
      rw [has] at same
      cases same
      exact unready
    cases returned
    split
    · have left := placed_leave placed clear read granted rfl valid
      have queues := futex_wakeThread process thread.tid
      refine ⟨⟨left, blockedExactly_sync left.numbered.bounded⟩, ?_, ?_, ?_⟩
      · exact endures_set read rfl (.inr endures)
      · intro tid queued other
        exact queues ▸ (placed.kept.removeWaiter thread.tid).stays tid queued other
      · intro _
        exact queues ▸ clear.removeWaiter placed.kept thread.tid
    · next other =>
      have idle : ¬thread.WaitsOnFutex := by
        rintro ⟨call, same, reason, -⟩
        rw [has] at same
        cases same
        exact other reason
      refine settled.proceeds_set clear read rfl rfl rfl valid (iff_of_false granted idle) (blockedExactly_sync ?_)
        (.inr endures)
      exact (List.length_set ..).trans_le placed.numbered.bounded

/-- An expired call is granted its timeout. -/
theorem Settled.expirePendingSyscall (settled : Settled prompt process) (clear : process.state.futex.NoZero)
    {now : Timeval}
    {expired : Bool} (returned : process.expirePendingSyscall now tid = .ok (expired, after)) :
    Proceeds { Scope.quiet with removes := (· = tid) } prompt process after := by
  unfold LiveProcess.expirePendingSyscall at returned
  obtain ⟨due, -, returned⟩ := Except.bind_eq_ok.mp returned
  cases due with
  | none =>
    cases returned
    exact settled.proceeds_same clear rfl rfl
  | some deadline =>
    obtain ⟨granted, readied, last⟩ := Except.bind_eq_ok.mp returned
    cases last
    exact settled.readySyscall clear readied

/-- A call ends that is not a futex wait. -/
theorem Settled.clearPending (settled : Settled prompt process) (clear : process.state.futex.NoZero) {slot : ℕ}
    {thread : ThreadState} (read : process.state.threads[slot]? = some thread) (idle : ¬thread.WaitsOnFutex)
    (delivers : scope.delivers slot) : Proceeds scope prompt process (process.clearPending slot thread) := by
  refine settled.proceeds_set clear read rfl rfl rfl ?_ ?_ (blockedExactly_sync ?_) (.inl delivers)
  · intro pending has
    contradiction
  · exact iff_of_false (ThreadState.not_waitsOnFutex rfl) idle
  · exact (List.length_set ..).trans_le settled.placed.numbered.bounded

/-- An I/O call waits again. -/
theorem Settled.waitAgain (settled : Settled prompt process) (clear : process.state.futex.NoZero) {slot : ℕ}
    {thread : ThreadState} (read : process.state.threads[slot]? = some thread)
    (has : thread.pendingSyscall = some pending) (io : pending.reason = .io) (delivers : scope.delivers slot) :
    Proceeds scope prompt process (process.waitAgain slot thread pending) := by
  have old := (settled.placed.fits slot thread read).unfinished pending has
  refine settled.proceeds_set clear read rfl rfl rfl ?_ ?_ (blockedExactly_sync ?_) (.inl delivers)
  · rintro _ ⟨rfl⟩
    exact ⟨old.1, validatePending_rephased old.2 io .waiting⟩
  · simp [ThreadState.WaitsOnFutex, has, io]
  · exact (List.length_set ..).trans_le settled.placed.numbered.bounded

/-! ## Refreshes -/

theorem refreshFutexThread_spec (futexState : Option FutexState) (thread : ThreadState) :
    (refreshFutexThread futexState thread).tid = thread.tid ∧
      (refreshFutexThread futexState thread).alive = thread.alive ∧
      thread.Endures (refreshFutexThread futexState thread) := by
  unfold refreshFutexThread
  split
  · exact ⟨rfl, rfl, ThreadState.Endures.refl thread⟩
  · next pending has =>
    split
    · next woken =>
      refine ⟨rfl, rfl, ThreadState.Endures.of_unfinished rfl ?_⟩
      intro other same
      rw [has] at same
      cases same
      rw [woken.2.2.1]
      exact PendingPhase.noConfusion
    · exact ⟨rfl, rfl, ThreadState.Endures.refl thread⟩

/-- A refresh makes a process prompt. -/
theorem fits_refreshFutexThread {state : TraceeState} {thread : ThreadState}
    (fits : Fits lag (state.Waiting thread.tid) thread) :
    Fits prompt (state.Waiting thread.tid) (refreshFutexThread state.futexState thread) := by
  unfold refreshFutexThread
  split
  · next idle =>
    exact ⟨fits.unfinished, fits.sleeps, fun _ waits => absurd waits (ThreadState.not_waitsOnFutex idle)⟩
  · next pending has =>
    have old := fits.unfinished pending has
    rw [futexState_any]
    split
    · next woken =>
      have asleep : ¬state.Waiting thread.tid := by simpa [Waiting] using woken.2.2.2
      refine ⟨?_, fun waiting => absurd waiting asleep, ?_⟩
      · rintro _ ⟨rfl⟩
        exact ⟨old.1, validatePending_granted old.2 0⟩
      · rintro - ⟨call, same, -, phase⟩
        cases same
        contradiction
    · next stays =>
      refine ⟨fits.unfinished, fits.sleeps, ?_⟩
      rintro - ⟨call, same, reason, phase⟩
      rw [has] at same
      cases same
      simpa [Waiting, old.1, reason, phase] using stays

theorem waitsOnFutex_of_refreshed {futexState : Option FutexState} {thread : ThreadState}
    (waits : (refreshFutexThread futexState thread).WaitsOnFutex) : thread.WaitsOnFutex := by
  obtain ⟨pending, has, reason, phase⟩ := waits
  unfold refreshFutexThread at has
  split at has
  · next none =>
    rw [none] at has
    contradiction
  · split at has
    · cases has
      contradiction
    · exact ⟨pending, has, reason, phase⟩

theorem getElem?_refreshFutexPending {slot : ℕ} {thread : ThreadState}
    (read : process.state.threads[slot]? = some thread) :
    process.refreshFutexPending.state.threads[slot]? =
      some (refreshFutexThread process.state.futexState thread) := by
  rw [refreshFutexPending, syncPendingBlocked, List.getElem?_map, read]
  rfl

theorem placed_refreshFutexPending (placed : Placed lag process.state) :
    Placed prompt process.refreshFutexPending.state := by
  refine placed.pointwise rfl (List.length_map ..) ?_
  intro slot thread read
  exact ⟨_, getElem?_refreshFutexPending read, (refreshFutexThread_spec _ thread).1,
    fits_refreshFutexThread (placed.fits slot thread read), waitsOnFutex_of_refreshed⟩

theorem settled_refreshFutexPending (placed : Placed lag process.state) :
    Settled prompt process.refreshFutexPending :=
  ⟨placed_refreshFutexPending placed, blockedExactly_sync ((List.length_map ..).trans_le placed.numbered.bounded)⟩

theorem Settled.refreshFutexPending (settled : Settled lag process) (clear : process.state.futex.NoZero) :
    Proceeds scope prompt process process.refreshFutexPending where
  settled := settled_refreshFutexPending settled.placed
  endures := by
    intro slot thread _ read
    exact ⟨_, getElem?_refreshFutexPending read, (refreshFutexThread_spec _ thread).2.2⟩
  stays := fun _ queued _ => queued
  clear := fun _ => clear

variable {G : Type}

theorem refreshIoThread_spec {node : NodeIo G} {waiting : Prop} {thread renewed : ThreadState}
    (fits : Fits prompt waiting thread) (returned : refreshIoThread node thread = .ok renewed) :
    renewed.tid = thread.tid ∧ Fits prompt waiting renewed ∧ (renewed.WaitsOnFutex ↔ thread.WaitsOnFutex) ∧
      thread.Endures renewed := by
  unfold refreshIoThread at returned
  split at returned
  · cases returned
    exact ⟨rfl, fits, Iff.rfl, ThreadState.Endures.refl thread⟩
  · next pending has =>
    split at returned
    · next io =>
      obtain ⟨ready, -, last⟩ := Except.bind_eq_ok.mp returned
      cases last
      have old := fits.unfinished pending has
      have result : pending.result = 0 := validatePending_result old.2 io.2.2
      have idle : ∀ call : PendingSyscall, call.reason = .io → ¬(thread.withCall (some call)).WaitsOnFutex := by
        rintro call reason ⟨_, ⟨rfl⟩, other, -⟩
        rw [reason] at other
        contradiction
      have before : ¬thread.WaitsOnFutex := by
        rintro ⟨call, same, reason, -⟩
        rw [has] at same
        cases same
        rw [io.2.1] at reason
        contradiction
      have after := idle { pending with phase := if ready then .retry else .waiting } io.2.1
      refine ⟨rfl, ⟨?_, fun waiting => absurd (fits.sleeps waiting) before, fun _ waits => absurd waits after⟩,
        iff_of_false after before, ThreadState.Endures.of_unfinished rfl ?_⟩
      · rintro _ ⟨rfl⟩
        have valid := validatePending_rephased old.2 io.2.1 (if ready then .retry else .waiting)
        rw [← result] at valid
        exact ⟨old.1, valid⟩
      · intro other same
        rw [has] at same
        cases same
        exact io.2.2
    · cases returned
      exact ⟨rfl, fits, Iff.rfl, ThreadState.Endures.refl thread⟩

/-- A refresh looks at every unfinished call. -/
theorem Settled.refreshPending (settled : Settled lag process) (clear : process.state.futex.NoZero) {node : NodeIo G}
    (returned : process.refreshPending node = .ok after) : Proceeds scope prompt process after := by
  have first : Proceeds scope prompt process process.refreshFutexPending := settled.refreshFutexPending clear
  unfold LiveProcess.refreshPending at returned
  obtain ⟨threads, mapped, last⟩ := Except.bind_eq_ok.mp returned
  cases last
  refine first.trans ?_
  have placed := first.settled.placed
  have length := (Except.mapM_eq_ok mapped).length_eq
  have each : ∀ (slot : ℕ) thread, process.refreshFutexPending.state.threads[slot]? = some thread →
      ∃ renewed, threads[slot]? = some renewed ∧ renewed.tid = thread.tid ∧
        Fits prompt (process.refreshFutexPending.state.Waiting thread.tid) renewed ∧
        (renewed.WaitsOnFutex ↔ thread.WaitsOnFutex) ∧ thread.Endures renewed := by
    intro slot thread read
    obtain ⟨renewed, there, refreshed⟩ := Except.mapM_getElem? mapped read
    exact ⟨renewed, there, refreshIoThread_spec (placed.fits slot thread read) refreshed⟩
  have refreshed : Placed prompt { process.refreshFutexPending.state with threads } := by
    refine placed.pointwise rfl length.symm ?_
    intro slot thread read
    obtain ⟨renewed, there, number, fits, waits, -⟩ := each slot thread read
    exact ⟨renewed, there, number, fits, waits.mp⟩
  refine ⟨⟨refreshed, blockedExactly_sync refreshed.numbered.bounded⟩, ?_, fun _ queued _ => queued, fun _ => clear⟩
  intro slot thread _ read
  obtain ⟨renewed, there, -, -, -, endures⟩ := each slot thread read
  exact ⟨renewed, there, endures⟩

end LiveProcess

end DetSim.Kernel
