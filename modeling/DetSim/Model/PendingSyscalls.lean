import DetSim.Model.Futex
import DetSim.Model.SystemCalls

/-! # Unfinished system calls

A call that cannot finish is kept with its thread until it is granted a result, or until its I/O can be issued
again. A live thread is bound to a carrier of its own, so that here it is named by its slot. A deadline is kept
in nanoseconds of the model clock, like the kernel keeps it.
-/

namespace DetSim.Kernel

def sysClose : Int32 := 3
def maxThreadsPerProcess : ℕ := 64

structure Timeval where
  sec : Int64
  usec : Int64
deriving DecidableEq, Repr

/-- The scheduling side of a live process: its threads and futex queues, the slots that are not run, and whether it
has terminated. -/
structure LiveProcess where
  state : TraceeState
  threadBlocked : ℕ → Bool
  dead : Bool := false

/-! ## Deadlines -/

def ktimeMax : Int := 2 ^ 63 - 1

def toKtime (seconds nanos : Int) : Int :=
  if ktimeMax / 1000000000 ≤ seconds then ktimeMax else seconds * 1000000000 + nanos

def validateModelTime (now : Timeval) : Bool := 0 ≤ now.sec && 0 ≤ now.usec && now.usec < 1000000

def PendingDeadline.inKtime (deadline : PendingDeadline) : Bool :=
  decide (deadline.sec.toInt * 1000000000 + deadline.nsec.toInt ≤ ktimeMax)

/-- A request in seconds and nanoseconds as a deadline. -/
def makePendingDeadline (now : Timeval) (clockId : Int32) (sec : Int64) (nsec : Int32) (relative : Bool)
    (timeoutResult : Int64) : Except String PendingDeadline :=
  if !validateDeadline ⟨clockId, sec, nsec, timeoutResult⟩ then .error "Invalid pending syscall deadline"
  else if !validateModelTime now then .error "Invalid modeled clock for pending deadline"
  else
    let start := if relative then toKtime now.sec.toInt (now.usec.toInt * 1000) else 0
    let bounded := min (toKtime sec.toInt nsec.toInt + start) ktimeMax
    .ok ⟨clockId, Int64.ofInt (bounded / 1000000000), Int32.ofInt (bounded % 1000000000), timeoutResult⟩

/-- The clock at which a deadline is due, or the present one when it is later. -/
def pendingTimeoutClock (source : Timeval) (deadline : PendingDeadline) : Except String Timeval :=
  if !validateDeadline deadline then .error "Invalid pending syscall deadline"
  else if !validateModelTime source || !deadline.inKtime then .error "Invalid pending timeout clock"
  else
    let rounded := (deadline.nsec.toInt + 999) / 1000
    let target : Timeval :=
      if rounded = 1000000 then ⟨deadline.sec + 1, 0⟩ else ⟨deadline.sec, Int64.ofInt rounded⟩
    if target.sec < source.sec ∨ (source.sec = target.sec ∧ target.usec < source.usec) then .ok source
    else .ok target

/-- The clock has reached a deadline. -/
def Timeval.reaches (now : Timeval) (deadline : PendingDeadline) : Bool :=
  deadline.sec < now.sec || (now.sec == deadline.sec && decide (deadline.nsec.toInt ≤ now.usec.toInt * 1000))

namespace LiveProcess

variable (process : LiveProcess)

/-- The slot of a live thread by its logical number. -/
def findThread (tid : Int32) : Option ℕ :=
  process.state.threads.findIdx? fun thread => thread.tid == tid && thread.alive

/-- The live thread that runs in a slot. -/
def liveThread (message : String) (slot : ℕ) : Except String ThreadState :=
  match process.state.threads[slot]? with
  | none => .error message
  | some thread => if thread.alive then .ok thread else .error message

def actor (slot : ℕ) : Except String ThreadState :=
  process.liveThread "Pending syscall has no live bound actor" slot

def setThread (slot : ℕ) (thread : ThreadState) : LiveProcess :=
  { process with state := { process.state with threads := process.state.threads.set slot thread } }

/-- The slots of live threads that wait. -/
def syncPendingBlocked : LiveProcess :=
  { process with
    threadBlocked := fun slot => decide (slot < maxThreadsPerProcess) &&
      process.state.threads[slot]?.any fun thread =>
        thread.alive && thread.pendingSyscall.any fun pending => pending.phase == .waiting }

/-! ## Suspending and granting -/

/-- The unfinished call that a suspension may go on with. -/
def resumable (previous : Option PendingSyscall) (info : SyscallInfo) (reason : PendingReason) : Bool :=
  previous.all fun previous =>
    previous.phase == .retry && previous.reason == reason && previous.nr == info.nr && previous.args == info.args

def suspendSyscall (slot : ℕ) (info : SyscallInfo) (reason : PendingReason) : Except String LiveProcess := do
  let thread ← process.actor slot
  if !resumable thread.pendingSyscall info reason then .error "Cannot replace an unfinished syscall"
  else
    let pending : PendingSyscall := {
      phase := .waiting, reason, nr := info.nr, args := info.args, result := 0
      deadline := thread.pendingSyscall.bind PendingSyscall.deadline }
    .ok (process.setThread slot { thread with pendingSyscall := some pending }).syncPendingBlocked

/-- The thread with the given number and its unfinished call, as far as it waits for a grant. -/
def unfinished (tid : Int32) : Option (ℕ × ThreadState × PendingSyscall) := do
  let slot ← process.findThread tid
  let thread ← process.state.threads[slot]?
  let pending ← thread.pendingSyscall
  if pending.phase = .ready then none else some (slot, thread, pending)

def setPendingDeadline (tid : Int32) (deadline : PendingDeadline) : Except String LiveProcess :=
  if !validateDeadline deadline then .error "Invalid pending syscall deadline"
  else if !deadline.inKtime then .error "Pending deadline exceeds Linux ktime range"
  else match process.unfinished tid with
    | none => .error "Deadline requires an unfinished waiting syscall"
    | some (slot, thread, pending) =>
      if !validateTimedPending { pending with deadline := some deadline } deadline then
        .error "Unsupported pending deadline combination"
      else .ok (process.setThread slot
        { thread with pendingSyscall := some { pending with deadline := some deadline } })

/-- Wake a thread of a process with futex queues. -/
def wakeThread (tid : Int32) : LiveProcess :=
  { process with state := { process.state with futexState := process.state.futexState.map (·.wakeThread tid) } }

/-- Grant a result to an unfinished call. -/
def readySyscall (tid : Int32) (result : Int64) : Except String LiveProcess :=
  match process.unfinished tid with
  | none => .error "Only a waiting syscall can receive a completion"
  | some (slot, thread, pending) =>
    let woken := if pending.reason = .futex then process.wakeThread tid else process
    .ok (woken.setThread slot
      { thread with pendingSyscall := some { pending with phase := .ready, result } }).syncPendingBlocked

/-- The deadline of an unfinished call that is due. -/
def pendingTimeoutDue (now : Timeval) (tid : Int32) : Except String (Option PendingDeadline) :=
  match process.unfinished tid with
  | none => .ok none
  | some (_, _, pending) =>
    match pending.deadline with
    | none => .ok none
    | some deadline =>
      if !validateDeadline deadline then .error "Invalid pending syscall deadline"
      else if !validateModelTime now then .error "Invalid modeled clock for pending deadline"
      else .ok (if now.reaches deadline then some deadline else none)

/-- Grant the timeout of a due call. -/
def expirePendingSyscall (now : Timeval) (tid : Int32) : Except String (Bool × LiveProcess) := do
  match ← process.pendingTimeoutDue now tid with
  | none => .ok (false, process)
  | some deadline =>
    let granted ← process.readySyscall tid deadline.timeoutResult
    .ok (true, granted)

/-- Finish the call of a thread. -/
def clearPending (slot : ℕ) (thread : ThreadState) : LiveProcess :=
  (process.setThread slot { thread with pendingSyscall := none }).syncPendingBlocked

/-- Wait again after a retry that could not finish. -/
def waitAgain (slot : ℕ) (thread : ThreadState) (pending : PendingSyscall) : LiveProcess :=
  (process.setThread slot
    { thread with pendingSyscall := some { pending with phase := .waiting, result := 0 } }).syncPendingBlocked

/-! ## Readiness -/

/-- A futex wait whose thread left its queue is granted. -/
def refreshFutexThread (futexState : Option FutexState) (thread : ThreadState) : ThreadState :=
  match thread.pendingSyscall with
  | none => thread
  | some pending =>
    if thread.alive ∧ pending.reason = .futex ∧ pending.phase = .waiting ∧
        !futexState.any (·.isThreadWaiting thread.tid) then
      { thread with pendingSyscall := some { pending with phase := .ready, result := 0 } }
    else thread

def refreshFutexPending : LiveProcess :=
  syncPendingBlocked { process with
    state := { process.state with
      threads := process.state.threads.map (refreshFutexThread process.state.futexState) } }

end LiveProcess

/-! ## Pending I/O -/

/-- The seconds and nanoseconds of a time in memory. -/
def parseTimespec (bytes : Bytes) : Int64 × Int64 :=
  (Int64.ofNat (wordNat 8 bytes), Int64.ofNat (wordNat 8 (bytes.drop 8)))

/-- A time that can be waited for. -/
def validTimespec (time : Int64 × Int64) : Bool := 0 ≤ time.1 && 0 ≤ time.2 && time.2 < 1000000000

def kDefaultIoTimeoutMs : Int := 1000

namespace NodeIo

variable {G : Type} (guest : GuestMemory G) (node : NodeIo G)

def readTimespec (address : UInt64) : Option (Int64 × Int64) :=
  (guest.readExact node.memory address 16).map parseTimespec

/-- The result of a call is not returned: the call waits. -/
def ioShouldSuspend (call : SyscallInfo) (result : Int) : Except String Bool :=
  if epollCall call.nr then
    if result ≠ 0 then .ok false
    else if call.nr ≠ sysEpollPwait2 then .ok (toInt (call.args.get arg3) != 0)
    else if call.args.get arg3 = 0 then .ok true
    else match node.readTimespec guest (call.args.get arg3) with
      | none => .error "Validated epoll timeout became unreadable"
      | some (sec, nsec) => .ok (sec != 0 || nsec != 0)
  else if !dataCall call.nr || result != eAgain then .ok false
  else
    let fd := toInt (call.args.get arg0)
    if !node.fdManager.contains fd then .ok false
    else if node.fdManager.getStatusFlags fd &&& oNonblock ≠ 0 then .ok false
    else .ok (call.nr != sysRecvfrom || (call.args.get arg3).toUInt32 &&& msgDontwait == 0)

/-- How long a suspended call waits at most, if there is a limit. -/
def pendingIoTimeout (call : SyscallInfo) : Except String (Option (Int64 × Int32)) :=
  if !epollCall call.nr then
    .ok (some (Int64.ofInt (kDefaultIoTimeoutMs / 1000), Int32.ofInt (kDefaultIoTimeoutMs % 1000 * 1000000)))
  else if call.nr = sysEpollPwait2 then
    if call.args.get arg3 = 0 then .ok none
    else match node.readTimespec guest (call.args.get arg3) with
      | none => .error "Validated epoll timeout became unreadable"
      | some time =>
        if !validTimespec time then .error "Invalid captured epoll timeout"
        else .ok (some (time.1, Int32.ofInt time.2.toInt))
  else
    let milliseconds := toInt (call.args.get arg3)
    if milliseconds < 0 then .ok none
    else .ok (some (Int64.ofInt (milliseconds.toInt / 1000), Int32.ofInt (milliseconds.toInt % 1000 * 1000000)))

/-- A write to a pipe would not wait. -/
def pipeWritable (signedId : Int32) (pipe : Pipe) (count : UInt64) : Bool :=
  let available := pipeCapacity - pipe.buffer.length
  0 < signedId || pipe.readClosed ||
    if count.toNat ≤ pipeAtomicLimit then decide (count.toNat ≤ available) else decide (0 < available)

/-- Issuing a call again would not wait. -/
def ioRetryReady (call : SyscallInfo) : Except String Bool :=
  let fd := toInt (call.args.get arg0)
  match node.fdManager.getFdType fd with
  | none => .ok true
  | some kind =>
    if epollCall call.nr then .ok (node.sockState.epollReady fd node.fsState)
    else if !dataCall call.nr then .error "Unknown pending I/O syscall"
    else if kind = .pipe then
      match node.pipeEnd fd with
      | none => .ok true
      | some (signedId, pipe) =>
        if call.nr = sysWrite then .ok (pipeWritable signedId pipe (call.args.get arg2))
        else .ok (signedId < 0 || pipe.buffer != [] || pipe.writeClosed)
    else if kind ≠ .socket then .ok true
    else .ok (node.sockState.readyEvents fd node.fsState &&& (epollin ||| epollerr ||| epollhup ||| epollrdhup) != 0)

end NodeIo

namespace LiveProcess

variable {G : Type} (guest : GuestMemory G) (process : LiveProcess)

/-- Give a suspended call its deadline. -/
def configurePendingIo (now : Timeval) (node : NodeIo G) (slot : ℕ) (call : SyscallInfo) : Except String LiveProcess := do
  match ← node.pendingIoTimeout guest call with
  | none => .ok process
  | some (sec, nsec) =>
    let deadline ← makePendingDeadline now clockMonotonic sec nsec true 0
    let thread ← process.liveThread "Pending I/O deadline has no live bound actor" slot
    process.setPendingDeadline thread.tid deadline

/-- A pending I/O call is to be issued again when it would not wait. -/
def refreshIoThread (node : NodeIo G) (thread : ThreadState) : Except String ThreadState :=
  match thread.pendingSyscall with
  | none => .ok thread
  | some pending =>
    if thread.alive ∧ pending.reason = .io ∧ pending.phase ≠ .ready then do
      let ready ← node.ioRetryReady ⟨pending.nr, 0, pending.args⟩
      .ok { thread with pendingSyscall := some { pending with phase := if ready then .retry else .waiting } }
    else .ok thread

/-- Grant and refresh the calls of one process. -/
def refreshPending (node : NodeIo G) : Except String LiveProcess := do
  let refreshed := process.refreshFutexPending
  let threads ← refreshed.state.threads.mapM (refreshIoThread node)
  .ok (syncPendingBlocked { refreshed with state := { refreshed.state with threads } })

end LiveProcess

end DetSim.Kernel
