import DetSim.Model.Threads

/-! # Transitions of the modelled kernel

A transition runs one thread of one node up to its next system call and emulates that call, or it finishes the
call the thread has left unfinished, or it lets the deadline of a waiting thread pass. What user code does in
between is arbitrary: it may change the memory of its process. Afterwards the unfinished calls of all nodes are
looked at again, and the state is captured if its resources are valid.
-/

namespace DetSim.Kernel

section Constants

def sysOpen : Int32 := 2
def sysLseek : Int32 := 8
def sysIoctl : Int32 := 16
def sysWritev : Int32 := 20
def sysPipe : Int32 := 22
def sysSocket : Int32 := 41
def sysConnect : Int32 := 42
def sysSendto : Int32 := 44
def sysBind : Int32 := 49
def sysListen : Int32 := 50
def sysSetsockopt : Int32 := 54
def sysClone : Int32 := 56
def sysExit : Int32 := 60
def sysFcntl : Int32 := 72
def sysGettimeofday : Int32 := 96
def sysEpollCreate : Int32 := 213
def sysSetTidAddress : Int32 := 218
def sysExitGroup : Int32 := 231
def sysEpollCtl : Int32 := 233
def sysOpenat : Int32 := 257
def sysSetRobustList : Int32 := 273
def sysEpollCreate1 : Int32 := 291
def sysPipe2 : Int32 := 293
def sysClone3 : Int32 := 435

end Constants

/-! ## Calls on resources -/

/-- A system call on descriptors, with its arguments as the handlers read them. -/
inductive IoCall
  | read (fd : Int32) (buf count : UInt64)
  | write (fd : Int32) (buf count : UInt64)
  | writev (fd : Int32) (iov count : UInt64)
  | close (fd : Int32)
  | lseek (fd : Int32) (offset : Int64) (whence : Int32)
  | openat (dirfd : Int32) (path : UInt64) (flags : Int32) (mode : UInt32)
  | pipe (pipefd : UInt64) (flags : Int32)
  | fcntl (fd command argument : Int32)
  | ioctl (fd : Int32) (request : UInt32) (argument : UInt64)
  | socket (domain type protocol : Int32)
  | bind (fd : Int32) (addr : UInt64) (addrlen : UInt32)
  | listen (fd backlog : Int32)
  | connect (fd : Int32) (addr : UInt64) (addrlen : UInt32)
  | accept (fd : Int32) (addr addrlen : UInt64)
  | accept4 (fd : Int32) (addr addrlen : UInt64) (flags : Int32)
  | sendto (fd : Int32) (buf len : UInt64) (flags : UInt32) (destAddr : UInt64) (addrlen : UInt32)
  | recvfrom (fd : Int32) (buf len : UInt64) (flags : UInt32) (srcAddr addrlen : UInt64)
  | setsockopt (fd level optname : Int32) (optval : UInt64) (optlen : UInt32)
  | epollCreate (size : Int32)
  | epollCreate1 (flags : Int32)
  | epollCtl (epfd op fd : Int32) (event : UInt64)
  | epollWait (epfd : Int32) (events : UInt64) (maxevents : Int32)
  | epollPwait (epfd : Int32) (events : UInt64) (maxevents : Int32) (sigmask : UInt64)
  | epollPwait2 (epfd : Int32) (events : UInt64) (maxevents : Int32) (timeout sigmask : UInt64)
deriving DecidableEq, Repr

/-- The call of a system call number, if it is one on descriptors. -/
def IoCall.decode (info : SyscallInfo) : Option IoCall :=
  let word (index : Fin 6) : UInt64 := info.args.get index
  let int (index : Fin 6) : Int32 := toInt (word index)
  if info.nr = sysRead then some (.read (int arg0) (word arg1) (word arg2))
  else if info.nr = sysWrite then some (.write (int arg0) (word arg1) (word arg2))
  else if info.nr = sysWritev then some (.writev (int arg0) (word arg1) (word arg2))
  else if info.nr = sysClose then some (.close (int arg0))
  else if info.nr = sysLseek then some (.lseek (int arg0) (word arg1).toInt64 (int arg2))
  else if info.nr = sysOpen then some (.openat atFdcwd (word arg0) (int arg1) (word arg2).toUInt32)
  else if info.nr = sysOpenat then some (.openat (int arg0) (word arg1) (int arg2) (word arg3).toUInt32)
  else if info.nr = sysPipe then some (.pipe (word arg0) 0)
  else if info.nr = sysPipe2 then some (.pipe (word arg0) (int arg1))
  else if info.nr = sysFcntl then some (.fcntl (int arg0) (int arg1) (int arg2))
  else if info.nr = sysIoctl then some (.ioctl (int arg0) (word arg1).toUInt32 (word arg2))
  else if info.nr = sysSocket then some (.socket (int arg0) (int arg1) (int arg2))
  else if info.nr = sysBind then some (.bind (int arg0) (word arg1) (word arg2).toUInt32)
  else if info.nr = sysListen then some (.listen (int arg0) (int arg1))
  else if info.nr = sysConnect then some (.connect (int arg0) (word arg1) (word arg2).toUInt32)
  else if info.nr = sysAccept then some (.accept (int arg0) (word arg1) (word arg2))
  else if info.nr = sysAccept4 then some (.accept4 (int arg0) (word arg1) (word arg2) (int arg3))
  else if info.nr = sysSendto then
    some (.sendto (int arg0) (word arg1) (word arg2) (word arg3).toUInt32 (word arg4) (word arg5).toUInt32)
  else if info.nr = sysRecvfrom then
    some (.recvfrom (int arg0) (word arg1) (word arg2) (word arg3).toUInt32 (word arg4) (word arg5))
  else if info.nr = sysSetsockopt then some (.setsockopt (int arg0) (int arg1) (int arg2) (word arg3) (word arg4).toUInt32)
  else if info.nr = sysEpollCreate then some (.epollCreate (int arg0))
  else if info.nr = sysEpollCreate1 then some (.epollCreate1 (int arg0))
  else if info.nr = sysEpollCtl then some (.epollCtl (int arg0) (int arg1) (int arg2) (word arg3))
  else if info.nr = sysEpollWait then some (.epollWait (int arg0) (word arg1) (int arg2))
  else if info.nr = sysEpollPwait then some (.epollPwait (int arg0) (word arg1) (int arg2) (word arg4))
  else if info.nr = sysEpollPwait2 then some (.epollPwait2 (int arg0) (word arg1) (int arg2) (word arg3) (word arg4))
  else none

/-- The call that is issued again for an unfinished one. -/
def IoCall.decodeRetry (info : SyscallInfo) : Option IoCall :=
  if epollCall info.nr then
    some (.epollWait (toInt (info.args.get arg0)) (info.args.get arg1) (toInt (info.args.get arg2)))
  else if dataCall info.nr then IoCall.decode info
  else none

/-- Read a path of at most 4095 bytes from memory. -/
def readGuestString {G : Type} (guest : GuestMemory G) (memory : G) (address : UInt64) :
    ℕ → Bytes → Except Int Bytes
  | 0, _ => .error eNametoolong
  | rounds + 1, path =>
    match guest.readExact memory (address + UInt64.ofNat path.length) 1 with
    | some (byte :: _) => if byte = 0 then .ok path else readGuestString guest memory address rounds (path ++ [byte])
    | _ => .error eFault

/-- What is fixed for a run: how memory answers, and the addresses of the nodes. -/
structure Machine (G : Type) (np : ℕ) where
  guest : GuestOs G
  addrs : Addresses np

def Timeval.fileTime (time : Timeval) : FileTime := ⟨time.sec, time.usec * 1000⟩

namespace NodeIo

variable {G : Type} (guest : GuestMemory G) (node : NodeIo G)

def emuVfsOpenat (now : FileTime) (dirfd : Int32) (path : UInt64) (flags : Int32) (mode : UInt32) :
    Except String (Int × NodeIo G) :=
  if path = 0 then node.answer eFault
  else match readGuestString guest node.memory path 4096 [] with
    | .error errno => node.answer errno
    | .ok path => node.doOpenat now dirfd path flags mode

def emuEpollPwait (epfd : Int32) (events : UInt64) (maxevents : Int32) (sigmask : UInt64) :
    Except String (Int × NodeIo G) :=
  if sigmask ≠ 0 then .error "epoll_pwait signal masks are unsupported"
  else node.doEpollWait guest epfd events maxevents

def emuEpollPwait2 (epfd : Int32) (events : UInt64) (maxevents : Int32) (timeout sigmask : UInt64) :
    Except String (Int × NodeIo G) :=
  if sigmask ≠ 0 then .error "epoll_pwait2 signal masks are unsupported"
  else if timeout = 0 then node.doEpollWait guest epfd events maxevents
  else match node.readTimespec guest timeout with
    | none => node.answer eFault
    | some time =>
      if !validTimespec time then node.answer eInval else node.doEpollWait guest epfd events maxevents

end NodeIo

/-- Issue a call of a node. -/
def IoCall.issue {G : Type} {np : ℕ} (machine : Machine G np) (nodes : Nodes G np) (cursor : Fin np)
    (threads : List ThreadState) (now : FileTime) (choice : Int32) : IoCall → Except String (Int × Nodes G np)
  | .read fd buf count => nodes.local_ cursor fun node => node.emuRead machine.guest.toGuestMemory fd buf count
  | .write fd buf count => nodes.emuWrite machine.guest.toGuestMemory machine.addrs now cursor fd buf count
  | .writev fd iov count => nodes.emuWritev machine.guest.toGuestMemory machine.addrs now cursor fd iov count
  | .close fd => nodes.emuClose machine.addrs cursor threads fd
  | .lseek fd offset whence => nodes.local_ cursor fun node => node.doLseek fd offset whence
  | .openat dirfd path flags mode =>
    nodes.local_ cursor fun node => node.emuVfsOpenat machine.guest.toGuestMemory now dirfd path flags mode
  | .pipe pipefd flags => nodes.emuPipe machine.guest.toGuestMemory machine.addrs cursor threads pipefd flags
  | .fcntl fd command argument => nodes.local_ cursor fun node => node.emuFcntl threads fd command argument
  | .ioctl fd request argument =>
    nodes.local_ cursor fun node => node.emuIoctl machine.guest.toGuestMemory threads fd request argument
  | .socket domain type protocol => nodes.local_ cursor fun node => node.doSocket domain type protocol
  | .bind fd addr addrlen =>
    nodes.local_ cursor fun node => node.doBind machine.guest.toGuestMemory fd addr addrlen
  | .listen fd backlog => nodes.local_ cursor fun node => node.doListen fd backlog
  | .connect fd addr addrlen => nodes.doConnect machine.guest.toGuestMemory machine.addrs cursor fd addr addrlen
  | .accept fd addr addrlen =>
    nodes.local_ cursor fun node => node.doAccept machine.guest.toGuestMemory fd addr addrlen
  | .accept4 fd addr addrlen flags =>
    nodes.local_ cursor fun node => node.doAccept4 machine.guest.toGuestMemory fd addr addrlen flags
  | .sendto fd buf len flags destAddr addrlen =>
    nodes.doSendto machine.guest.toGuestMemory machine.addrs cursor fd buf len flags destAddr addrlen
  | .recvfrom fd buf len flags srcAddr addrlen =>
    nodes.local_ cursor fun node =>
      node.doRecvfrom machine.guest.toGuestMemory fd buf len flags srcAddr addrlen choice
  | .setsockopt fd level optname optval optlen =>
    nodes.local_ cursor fun node => node.doSetsockopt machine.guest.toGuestMemory fd level optname optval optlen
  | .epollCreate size => nodes.local_ cursor fun node => node.doEpollCreate size
  | .epollCreate1 flags => nodes.local_ cursor fun node => node.doEpollCreate1 flags
  | .epollCtl epfd op fd event =>
    nodes.local_ cursor fun node => node.doEpollCtl machine.guest.toGuestMemory epfd op fd event
  | .epollWait epfd events maxevents =>
    nodes.local_ cursor fun node => node.doEpollWait machine.guest.toGuestMemory epfd events maxevents
  | .epollPwait epfd events maxevents sigmask =>
    nodes.local_ cursor fun node => node.emuEpollPwait machine.guest.toGuestMemory epfd events maxevents sigmask
  | .epollPwait2 epfd events maxevents timeout sigmask =>
    nodes.local_ cursor fun node =>
      node.emuEpollPwait2 machine.guest.toGuestMemory epfd events maxevents timeout sigmask

/-! ## The state of a run -/

/-- The live processes, their clocks and their resources. -/
structure PtmcState (G : Type) (np : ℕ) where
  process : Fin np → LiveProcess
  time : Fin np → Timeval
  nodes : Nodes G np

/-- What a transition showed its thread: nothing yet, a result, or its end. -/
inductive Outcome
  | suspended
  | returned (result : Int)
  | exited
deriving DecidableEq, Repr

/-- What a call that is not modelled in detail does: it answers, changes memory and files, and may let time
pass. -/
structure OtherEffect (G : Type) where
  result : Int
  memory : G
  files : FileSystemState
  microseconds : ℕ := 0

/-- What a thread does up to its next call: the memory it leaves, the call, and the choices of the search. -/
structure Entry (G : Type) where
  memory : G
  call : SyscallInfo
  choice : Int32
  other : OtherEffect G

namespace LiveProcess

variable {G : Type} (guest : GuestMemory G) (process : LiveProcess)

/-! ## Waiting on futexes -/

def futexWaits (futexOp : Int32) : Bool :=
  futexCommand futexOp == futexWait || futexCommand futexOp == futexWaitBitset

/-- The deadline of a futex call, or an error number. -/
def futexDeadline (now : Timeval) (node : NodeIo G) (info : SyscallInfo) :
    Except String (Except Int (Option PendingDeadline)) :=
  let futexOp := toInt (info.args.get arg1)
  if futexWaits futexOp ∧ info.args.get arg3 ≠ 0 then
    match node.readTimespec guest (info.args.get arg3) with
    | none => .ok (.error eFault)
    | some time =>
      if !validTimespec time then .ok (.error eInval)
      else do
        let deadline ← makePendingDeadline now
          (if futexOp &&& futexClockRealtime ≠ 0 then clockRealtime else clockMonotonic) time.1
          (Int32.ofInt time.2.toInt) (futexCommand futexOp == futexWait) (-110)
        .ok (.ok (some deadline))
  else .ok (.ok none)

/-- The word a futex call compares. -/
def futexWord (node : NodeIo G) (info : SyscallInfo) : Option UInt32 :=
  let futexOp := toInt (info.args.get arg1)
  if futexWaits futexOp ∨ futexCommand futexOp = futexCmpRequeue then
    (guest.read node.memory (info.args.get arg0) 4).map fun word => UInt32.ofNat (wordNat 4 word)
  else none

/-- The arguments of a futex call, without the word in memory. -/
def futexArguments (info : SyscallInfo) : FutexState.Call where
  uaddr := info.args.get arg0
  futexOp := toInt (info.args.get arg1)
  val := toInt (info.args.get arg2)
  timeoutAddr := info.args.get arg3
  uaddr2 := info.args.get arg4
  val3 := toInt (info.args.get arg5)
  stackval := none

/-- The call of the futex queues. A timeout is kept apart from it. -/
def futexCall (node : NodeIo G) (info : SyscallInfo) (deadline : Option PendingDeadline) : FutexState.Call :=
  { futexArguments info with
    timeoutAddr := if deadline.isSome then 0 else info.args.get arg3
    stackval := futexWord guest node info }

/-- The futex queues are there from the first futex call on. -/
def withFutex (futex : FutexState) : LiveProcess :=
  { process with state := { process.state with futexState := some futex } }

/-- Give the unfinished call of a thread its deadline, if it has one. -/
def setOptionalDeadline (tid : Int32) : Option PendingDeadline → Except String LiveProcess
  | none => .ok process
  | some deadline => process.setPendingDeadline tid deadline

/-- Suspend a futex wait that was queued. -/
def suspendFutex (slot : ℕ) (tid : Int32) (info : SyscallInfo) (deadline : Option PendingDeadline) :
    Except String LiveProcess := do
  let suspended ← process.suspendSyscall slot info .futex
  suspended.setOptionalDeadline tid deadline

/-- Waiters that left their queue are not blocked. -/
def unblockWoken (futex : FutexState) (previous : List Int32) : LiveProcess :=
  { process with
    threadBlocked := fun slot => process.threadBlocked slot && !process.state.threads[slot]?.any fun thread =>
      previous.contains thread.tid && !futex.isThreadWaiting thread.tid }

/-- What a futex call of a thread does after the queues have changed. -/
def finishFutex (slot : ℕ) (tid : Int32) (info : SyscallInfo) (deadline : Option PendingDeadline) (result : Int) :
    Except String (Outcome × LiveProcess) :=
  if futexWaits (toInt (info.args.get arg1)) ∧ result = 0 then
    (process.suspendFutex slot tid info deadline).map fun suspended => (.suspended, suspended)
  else .ok (.returned result, process)

def handleFutexCall (now : Timeval) (node : NodeIo G) (slot : ℕ) (info : SyscallInfo) :
    Except String (Outcome × LiveProcess) := do
  let futex := process.state.futexState.getD {}
  let previous := futex.getWaiters (info.args.get arg0)
  match process.state.threads[slot]? with
  | none => .error "vector::_M_range_check"
  | some thread =>
    match ← futexDeadline guest now node info with
    | .error errno => .ok (.returned errno, process.withFutex futex)
    | .ok deadline => do
      let (result, futex) ← futex.handleFutex thread.tid (futexCall guest node info deadline)
      let (outcome, finished) ← (process.withFutex futex).finishFutex slot thread.tid info deadline result
      .ok (outcome, (finished.unblockWoken futex previous).refreshFutexPending)

/-! ## Sleeping -/

/-- Suspend a timer and give it its deadline. -/
def startTimer (slot : ℕ) (info : SyscallInfo) (deadline : PendingDeadline) : Except String LiveProcess := do
  let suspended ← process.suspendSyscall slot info .timer
  let thread ← suspended.actor slot
  suspended.setPendingDeadline thread.tid deadline

def sleepCall (now : Timeval) (node : NodeIo G) (slot : ℕ) (info : SyscallInfo) (clock flags : Int32)
    (request : UInt64) : Except String (Outcome × LiveProcess) :=
  if clock ≠ clockRealtime ∧ clock ≠ clockMonotonic then .error "Unsupported sleep clock"
  else if flags &&& ~~~1 ≠ 0 then .ok (.returned eInval, process)
  else match node.readTimespec guest request with
    | none => .ok (.returned eFault, process)
    | some time =>
      if !validTimespec time then .ok (.returned eInval, process)
      else do
        let deadline ← makePendingDeadline now clock time.1 (Int32.ofInt time.2.toInt) (flags &&& 1 == 0) 0
        if now.reaches deadline then .ok (.returned 0, process)
        else (process.startTimer slot info deadline).map fun suspended => (.suspended, suspended)

/-- The mask of a select is empty, if there is one. -/
def validatePselectMaskWrapper (node : NodeIo G) (wrapper : UInt64) : Except String Unit :=
  if wrapper = 0 then .ok ()
  else match guest.readExact node.memory wrapper 16 with
    | none => .error "Unreadable pselect6 signal mask wrapper"
    | some bytes => if wordNat 8 bytes = 0 then .ok () else .error "Unsupported pselect6 signal mask"

/-- The timeout of a select: zero when there is none, or an error number. -/
def pselectTimeout (node : NodeIo G) (info : SyscallInfo) : Except Int (Int64 × Int64) :=
  let address := info.args.get arg4
  match if address = 0 then some (0, 0) else node.readTimespec guest address with
  | none => .error eFault
  | some time =>
    if !validTimespec time then .error eInval
    else if toInt (info.args.get arg0) < 0 then .error eInval
    else .ok time

/-- Wait for the end of a select that has nothing to report. -/
def pselectWait (now : Timeval) (slot : ℕ) (info : SyscallInfo) (time : Int64 × Int64) :
    Except String (Outcome × LiveProcess) :=
  if info.args.get arg4 = 0 then
    (process.suspendSyscall slot info .timer).map fun suspended => (.suspended, suspended)
  else do
    let deadline ← makePendingDeadline now clockMonotonic time.1 (Int32.ofInt time.2.toInt) true 0
    (process.startTimer slot info deadline).map fun suspended => (.suspended, suspended)

/-- Scan the descriptors of a select. Without descriptors the pointers are not looked at. -/
def pselectScan (node : NodeIo G) (info : SyscallInfo) : Except String (Int × NodeIo G) :=
  let nfds := toInt (info.args.get arg0)
  if nfds = 0 then node.answer 0
  else node.emuSelectScan guest nfds (info.args.get arg1) (info.args.get arg2) (info.args.get arg3)

def startPselectTimer (now : Timeval) (node : NodeIo G) (slot : ℕ) (info : SyscallInfo) :
    Except String (Outcome × LiveProcess × NodeIo G) := do
  validatePselectMaskWrapper guest node (info.args.get arg5)
  if overlapsScratch (info.args.get arg4) then .error "pselect6 timeout overlaps reserved control memory"
  else match pselectTimeout guest node info with
    | .error errno => .ok (.returned errno, process, node)
    | .ok time => do
      let (ready, scanned) ← pselectScan guest node info
      if ready ≠ 0 ∨ (info.args.get arg4 ≠ 0 ∧ time = (0, 0)) then .ok (.returned ready, process, scanned)
      else (process.pselectWait now slot info time).map fun reply => (reply.1, reply.2, scanned)

end LiveProcess

/-- An unfinished I/O call would not wait any more. -/
def NodeIo.ioAlreadyReady {G : Type} (node : NodeIo G) (pending : PendingSyscall) : Except String Bool :=
  if pending.reason = .io then node.ioRetryReady ⟨pending.nr, 0, pending.args⟩ else .ok false

namespace PtmcState

variable {G : Type} {np : ℕ} (machine : Machine G np) (state : PtmcState G np) (cursor : Fin np)

def setProcess (process : LiveProcess) : PtmcState G np :=
  { state with process := Function.update state.process cursor process }

def setMemory (memory : G) : PtmcState G np :=
  { state with nodes := Function.update state.nodes cursor { state.nodes cursor with memory } }

/-- A change of a process and its memory. -/
def setImage (image : ProcessImage G) : PtmcState G np := (state.setProcess cursor image.1).setMemory cursor image.2

/-! ## Unfinished I/O -/

/-- Return the result of an I/O call, or suspend it. -/
def finishIoCall (slot : ℕ) (info : SyscallInfo) (result : Int) : Except String (Outcome × PtmcState G np) := do
  let guest := machine.guest.toGuestMemory
  if ← (state.nodes cursor).ioShouldSuspend guest info result then do
    let suspended ← (state.process cursor).suspendSyscall slot info .io
    let configured ← suspended.configurePendingIo guest (state.time cursor) (state.nodes cursor) slot info
    .ok (.suspended, state.setProcess cursor configured)
  else .ok (.returned result, state)

def issueCall (slot : ℕ) (info : SyscallInfo) (choice : Int32) (call : IoCall) :
    Except String (Outcome × PtmcState G np) := do
  let (result, nodes) ← call.issue machine state.nodes cursor (state.process cursor).state.threads
    (state.time cursor).fileTime choice
  finishIoCall machine { state with nodes } cursor slot info result

/-- Issue an unfinished call again. There is no result when it would wait. -/
def retryPendingIo (info : SyscallInfo) : Except String (Option Int × Nodes G np) :=
  match IoCall.decodeRetry info with
  | none => .error "Unsupported pending I/O retry"
  | some call => do
    let (result, nodes) ← call.issue machine state.nodes cursor (state.process cursor).state.threads
      (state.time cursor).fileTime 0
    if epollCall info.nr then .ok (if result = 0 then none else some result, nodes)
    else do
      let waits ← (nodes cursor).ioShouldSuspend machine.guest.toGuestMemory info result
      .ok (if waits then none else some result, nodes)

/-! ## Finishing calls -/

/-- A timed-out select reports nothing, and no time is left. -/
def reportTimeout (guest : GuestMemory G) (node : NodeIo G) (pending : PendingSyscall) : NodeIo G :=
  if pending.nr = sysPselect6 ∧ pending.result = 0 then
    let elapsed : NodeIo G := if pending.args.get arg4 = 0 then node else
      { node with memory := (guest.writeExact node.memory (pending.args.get arg4) (List.replicate 16 0)).1 }
    elapsed.emuSelectClear guest [pending.args.get arg1, pending.args.get arg2, pending.args.get arg3]
  else node

/-- Finish a retry: the call returns, or it waits again. -/
def completeRetry (slot : ℕ) (thread : ThreadState) (pending : PendingSyscall) :
    Except String (Outcome × PtmcState G np) :=
  if pending.reason ≠ .io then .error "Only I/O pending calls may retry"
  else do
    let process := state.process cursor
    match ← state.retryPendingIo machine cursor ⟨pending.nr, 0, pending.args⟩ with
    | (none, nodes) =>
      .ok (.suspended, { state with nodes }.setProcess cursor (process.waitAgain slot thread pending))
    | (some result, nodes) =>
      .ok (.returned result, { state with nodes }.setProcess cursor (process.clearPending slot thread))

/-- Deliver the result of a granted call. -/
def completeReady (slot : ℕ) (thread : ThreadState) (pending : PendingSyscall) : Outcome × PtmcState G np :=
  let reported := reportTimeout machine.guest.toGuestMemory (state.nodes cursor) pending
  (.returned pending.result.toInt,
    { state with nodes := Function.update state.nodes cursor reported }.setProcess cursor
      ((state.process cursor).clearPending slot thread))

/-- Finish the unfinished call of a thread, if it has one. -/
def completePendingSyscall (slot : ℕ) : Except String (Option (Outcome × PtmcState G np)) :=
  if (state.process cursor).state.threads = [] then .ok none
  else do
    let thread ← (state.process cursor).actor slot
    match thread.pendingSyscall with
    | none => .ok none
    | some pending =>
      match pending.phase with
      | .waiting => .error "Cannot execute a waiting syscall before completion is available"
      | .retry => (state.completeRetry machine cursor slot thread pending).map some
      | .ready => .ok (some (state.completeReady machine cursor slot thread pending))

/-! ## Exits and births -/

/-- A process may exit: no connection is left that would have to be reset. -/
def exitAllowed (socket : Socket) (connection : Option TcpConnection) : Except String Unit :=
  if socket.type ≠ sockStream then .ok ()
  else if socket.listening ∧ (socket.pendingConnections ≠ [] ∨ socket.establishedConnections.size ≠ 0) then
    .error "Process exit with unaccepted TCP connections requires reset semantics"
  else if !socket.connected then .ok ()
  else match connection with
    | none => .error "Connected TCP socket has no connection payload at process exit"
    | some connection =>
      if connection.recvBuffer.any (· != []) then
        .error "Process exit with unread TCP data requires reset semantics"
      else .ok ()

def preflightProcessIoExit : Except String Unit :=
  let sockets := (state.nodes cursor).sockState
  sockets.sockets.toList.forM fun entry => exitAllowed entry.2 sockets.tcpConnections[entry.1]?

/-- Close one descriptor of an exiting process. -/
def closeOwned (nodes : Nodes G np) (fd : Int32) : Except String (Nodes G np) := do
  let (result, closed) ← nodes.emuClose machine.addrs cursor (state.process cursor).state.threads fd
  if result ≠ 0 then .error "Virtual descriptor close failed during process exit" else .ok closed

/-- Close everything a process without live threads owns, and end it. -/
def closeProcessIo : Except String (PtmcState G np) :=
  if (state.process cursor).state.threads.any ThreadState.alive then
    .error "Cannot close process I/O with live logical tasks"
  else do
    state.preflightProcessIoExit cursor
    let nodes ← (state.nodes cursor).fdManager.keys.foldlM (state.closeOwned machine cursor) state.nodes
    .ok ({ state with nodes }.setProcess cursor { state.process cursor with dead := true })

/-- The last thread of a process must be allowed to take its descriptors with it. -/
def preflightExit (last : Bool) : Except String Unit :=
  if last then state.preflightProcessIoExit cursor else .ok ()

def exitLogicalThread (slot : ℕ) (exitCode : Int32) : Except String (Outcome × PtmcState G np) := do
  let process := state.process cursor
  let last := !process.sharedMm slot
  state.preflightExit cursor last
  let image ← process.exitThread machine.guest cursor (state.nodes cursor).memory slot exitCode
  let exited := state.setImage cursor image
  if last then (exited.closeProcessIo machine cursor).map fun closed => (.exited, closed)
  else .ok (.exited, exited)

def exitLogicalProcess (slot : ℕ) (exitCode : Int32) : Except String (Outcome × PtmcState G np) := do
  state.preflightProcessIoExit cursor
  let image ← (state.process cursor).exitGroup machine.guest cursor (state.nodes cursor).memory slot exitCode
  ((state.setImage cursor image).closeProcessIo machine cursor).map fun closed => (.exited, closed)

def finishClone (slot : ℕ) (request : LiveProcess.CloneRequest) : Except String (Outcome × PtmcState G np) := do
  let (tid, image) ← (state.process cursor).createLogicalThread machine.guest cursor (state.nodes cursor).memory slot
    request
  .ok (.returned (logicalThreadId cursor tid).toInt, state.setImage cursor image)

def handleClone3 (slot : ℕ) (info : SyscallInfo) : Except String (Outcome × PtmcState G np) := do
  match ← LiveProcess.parseClone3 machine.guest (state.nodes cursor).memory (info.args.get arg0) (info.args.get arg1) with
  | .error errno => .ok (.returned errno, state)
  | .ok request => state.finishClone machine cursor slot request

/-! ## Dispatch -/

/-- A call of the threads of a process that touches no descriptor. -/
inductive ThreadCall
  | futex | nanosleep | clockNanosleep | pselect6 | clone | clone3 | exit | exitGroup | setTidAddress | setRobustList
deriving DecidableEq, Repr

def ThreadCall.decode (nr : Int32) : Option ThreadCall :=
  if nr = sysFutex then some .futex
  else if nr = sysNanosleep then some .nanosleep
  else if nr = sysClockNanosleep then some .clockNanosleep
  else if nr = sysPselect6 then some .pselect6
  else if nr = sysClone then some .clone
  else if nr = sysClone3 then some .clone3
  else if nr = sysExit then some .exit
  else if nr = sysExitGroup then some .exitGroup
  else if nr = sysSetTidAddress then some .setTidAddress
  else if nr = sysSetRobustList then some .setRobustList
  else none

/-- The reply of a process to one of its threads. -/
def reply (answer : Except String (Outcome × LiveProcess)) : Except String (Outcome × PtmcState G np) :=
  answer.map fun answer => (answer.1, state.setProcess cursor answer.2)

/-- A registration that returns a number. -/
def register (answer : Except String (Int × LiveProcess)) : Except String (Outcome × PtmcState G np) :=
  answer.map fun answer => (.returned answer.1, state.setProcess cursor answer.2)

def handleThreadCall (slot : ℕ) (info : SyscallInfo) : ThreadCall → Except String (Outcome × PtmcState G np)
  | .futex => state.reply cursor
      ((state.process cursor).handleFutexCall machine.guest.toGuestMemory (state.time cursor) (state.nodes cursor) slot info)
  | .nanosleep => state.reply cursor ((state.process cursor).sleepCall machine.guest.toGuestMemory
      (state.time cursor) (state.nodes cursor) slot info clockMonotonic 0 (info.args.get arg0))
  | .clockNanosleep => state.reply cursor ((state.process cursor).sleepCall machine.guest.toGuestMemory
      (state.time cursor) (state.nodes cursor) slot info (toInt (info.args.get arg0)) (toInt (info.args.get arg1)) (info.args.get arg2))
  | .pselect6 => do
    let (outcome, process, node) ← (state.process cursor).startPselectTimer machine.guest.toGuestMemory
      (state.time cursor) (state.nodes cursor) slot info
    .ok (outcome, { state with nodes := Function.update state.nodes cursor node }.setProcess cursor process)
  | .clone => state.finishClone machine cursor slot
      ⟨info.args.get arg0, info.args.get arg1, info.args.get arg4, info.args.get arg2, info.args.get arg3⟩
  | .clone3 => state.handleClone3 machine cursor slot info
  | .exit => state.exitLogicalThread machine cursor slot (toInt (info.args.get arg0))
  | .exitGroup => state.exitLogicalProcess machine cursor slot (toInt (info.args.get arg0))
  | .setTidAddress => state.register cursor
      ((state.process cursor).recordLogicalClearTid cursor slot (info.args.get arg0))
  | .setRobustList => state.register cursor
      ((state.process cursor).emulateSetRobustList slot (info.args.get arg0) (info.args.get arg1))

def advanceClock (time : Timeval) (microseconds : ℕ) : Timeval :=
  let usec := time.usec + Int64.ofNat (microseconds % 1000000)
  let sec := time.sec + Int64.ofNat (microseconds / 1000000)
  if 1000000 ≤ usec then ⟨sec + 1, usec - 1000000⟩ else ⟨sec, usec⟩

def kDefaultTimeStepUs : ℕ := 100

/-- The bytes of a time in the memory of a tracee. -/
def timevalBytes (time : Timeval) : Bytes :=
  Codec.natBytes 8 time.sec.toUInt64.toNat ++ Codec.natBytes 8 time.usec.toUInt64.toNat

/-- Copy a time to the tracee. The clock takes it only if nothing was refused. -/
def emuGettimeofdayWrite (result : Timeval) (tv tz : UInt64) : Int × PtmcState G np :=
  let guest := machine.guest.toGuestMemory
  let copied := if tv = 0 then ((state.nodes cursor).memory, true)
    else guest.writeExact (state.nodes cursor).memory tv (timevalBytes result)
  let zoned := if tz = 0 then (copied.1, true) else guest.writeExact copied.1 tz (List.replicate 8 0)
  if !copied.2 then (eFault, state.setMemory cursor copied.1)
  else if !zoned.2 then (eFault, state.setMemory cursor zoned.1)
  else (0, { state.setMemory cursor zoned.1 with time := Function.update state.time cursor result })

/-- The clock of a node, advanced by the choice of the search. There is no plugin. -/
def emuGettimeofday (tv tz : UInt64) (nChoose choose : Int32) : Int × PtmcState G np :=
  let current := state.time cursor
  state.emuGettimeofdayWrite machine cursor
    (if nChoose = 0 then current else advanceClock current (kDefaultTimeStepUs * (choose.toInt.toNat + 1))) tv tz

/-- A call that is not modelled in detail. It leaves descriptors, sockets and pipes alone. -/
def otherCall (other : OtherEffect G) : Outcome × PtmcState G np :=
  let node := state.nodes cursor
  let files := { other.files with pipes := node.fsState.pipes, pipeFds := node.fsState.pipeFds }
  (.returned other.result,
    { state with
      nodes := Function.update state.nodes cursor { node with memory := other.memory, fsState := files }
      time := Function.update state.time cursor (advanceClock (state.time cursor) other.microseconds) })

/-- Emulate the call a thread has entered. -/
def dispatch (slot : ℕ) (entry : Entry G) : Except String (Outcome × PtmcState G np) :=
  match IoCall.decode entry.call with
  | some call => state.issueCall machine cursor slot entry.call entry.choice call
  | none =>
    match ThreadCall.decode entry.call.nr with
    | some call => state.handleThreadCall machine cursor slot entry.call call
    | none => .ok (state.otherCall cursor entry.other)

/-- Run a thread up to its next call, and emulate it. -/
def enterCall (slot : ℕ) (entry : Entry G) : Except String (Outcome × PtmcState G np) := do
  let image ← LiveProcess.completeThreadStart machine.guest cursor (state.process cursor, (state.nodes cursor).memory)
    slot
  ((state.setImage cursor image).setMemory cursor entry.memory).dispatch machine cursor slot entry

/-- One step of a thread: the end of its unfinished call, or its next call. -/
def doSingleSyscall (slot : ℕ) (entry : Entry G) : Except String (Outcome × PtmcState G np) := do
  match ← state.completePendingSyscall machine cursor slot with
  | some completed => .ok completed
  | none => state.enterCall machine cursor slot entry

/-- Look at the unfinished calls of one node again. -/
def refreshNode (node : Fin np) : Except String (PtmcState G np) :=
  ((state.process node).refreshPending (state.nodes node)).map (state.setProcess node)

/-- Look at the unfinished calls of all nodes again. -/
def refreshPendingSyscalls : Except String (PtmcState G np) := (List.finRange np).foldlM refreshNode state

/-! ## Timeouts -/

/-- A timeout is not the action of every thread: some are rejected, some states are invalid. -/
inductive ActionError
  | rejected (message : String)
  | invalid (message : String)
deriving DecidableEq, Repr

/-- The clock after the timeout of a thread. -/
def timeoutActionClock (slot : ℕ) : Except ActionError Timeval :=
  let process := state.process cursor
  if process.dead then .error (.rejected "actor belongs to a terminal state")
  else if !validatePendingSyscalls process.state then .error (.invalid "Invalid unfinished syscall state")
  else match process.state.threads[slot]? with
    | none => .error (.rejected "thread index out of range")
    | some thread =>
      match thread.pendingSyscall.filter fun pending => thread.alive && pending.phase == .waiting,
          thread.pendingSyscall.bind PendingSyscall.deadline with
      | some pending, some deadline =>
        match (state.nodes cursor).ioAlreadyReady pending with
        | .error message => .error (.invalid message)
        | .ok true => .error (.rejected "I/O is already ready")
        | .ok false => (pendingTimeoutClock (state.time cursor) deadline).mapError .invalid
      | _, _ => .error (.rejected "actor requires a waiting syscall with a finite deadline")

/-- Let the deadline of a thread pass, and finish its call. -/
def expireAndComplete (slot : ℕ) (target : Timeval) : Except String (Outcome × PtmcState G np) := do
  let process := state.process cursor
  let thread ← process.actor slot
  let (expired, granted) ← process.expirePendingSyscall target thread.tid
  let aged := { state with time := Function.update state.time cursor target }
  match ← (aged.setProcess cursor granted).completePendingSyscall machine cursor slot with
  | some completed => if expired then .ok completed else .error "Admitted timeout failed to complete"
  | none => .error "Admitted timeout failed to complete"

def timeoutAction (slot : ℕ) : Except String (Outcome × PtmcState G np) :=
  match state.timeoutActionClock cursor slot with
  | .error (.rejected message) => .error message
  | .error (.invalid message) => .error message
  | .ok target => state.expireAndComplete machine cursor slot target

/-- Bind the threads of a restored process to the carriers of its pool: the main thread to the anchor, the other live
ones to the further carriers in their order. -/
def bindThreadCarriers (anchor : Int32) : List Int32 → List ThreadState → Except String (List ThreadState)
  | _, [] => .ok []
  | carriers, thread :: rest =>
    if !thread.alive then (bindThreadCarriers anchor carriers rest).map ({ thread with physicalTid := 0 } :: ·)
    else if thread.isMain then
      (bindThreadCarriers anchor carriers rest).map ({ thread with physicalTid := anchor } :: ·)
    else match carriers.dropWhile (· == anchor) with
      | [] => .error "Snapshot needs more thread carriers than retained by its owner"
      | carrier :: left => (bindThreadCarriers anchor left rest).map ({ thread with physicalTid := carrier } :: ·)

/-- Restore a node: its threads are bound again, and those that wait are blocked. -/
def recoverNode (pools : Fin np → Int32 × List Int32) (recovered : PtmcState G np) (node : Fin np) :
    Except String (PtmcState G np) := do
  let saved := (state.process node).state
  let threads ← bindThreadCarriers (pools node).1 (pools node).2 saved.threads
  .ok (recovered.setProcess node { state.process node with
    state := { saved with threads }
    threadBlocked := fun slot => threads[slot]?.any fun thread =>
      thread.alive && thread.pendingSyscall.any (·.phase == .waiting) })

/-- Restore a saved state on the pools of its nodes, each an anchor and the carriers. -/
def recoverRunningState (pools : Fin np → Int32 × List Int32) : Except String (PtmcState G np) :=
  (List.finRange np).foldlM (state.recoverNode pools) state

/-- A timeout from a saved state: the state must admit it, and once more after it has been restored. -/
def timeoutTransition (pools : Fin np → Int32 × List Int32) (slot : ℕ) : Except String (Outcome × PtmcState G np) :=
  match state.timeoutActionClock cursor slot with
  | .error (.rejected message) => .error message
  | .error (.invalid message) => .error message
  | .ok _ => do
    let running ← state.recoverRunningState pools
    match running.timeoutActionClock cursor slot with
    | .error (.rejected message) => .error ("Admitted timeout became ineligible after restore: " ++ message)
    | .error (.invalid message) => .error message
    | .ok target => running.expireAndComplete machine cursor slot target

/-! ## Runs -/

/-- A thread that may run: it is alive and does not wait. -/
def runnable (slot : ℕ) : Bool :=
  !(state.process cursor).dead && (state.process cursor).state.threads[slot]?.any fun thread =>
    thread.alive && thread.pendingSyscall.all fun pending => pending.phase != .waiting

def normalAction (slot : ℕ) (entry : Entry G) : Except String (Outcome × PtmcState G np) :=
  if state.runnable cursor slot then state.doSingleSyscall machine cursor slot entry
  else .error "Transition thread is not runnable"

/-- A change of one process that shows no thread anything. -/
def update (answer : Except String LiveProcess) : Except String (Option Outcome × PtmcState G np) :=
  answer.map fun process => (none, state.setProcess cursor process)

end PtmcState

/-- What can happen to the unfinished calls of a system: a step of a thread, a timeout, and the operations on
deadlines, grants and readiness by themselves. -/
inductive Event (G : Type) (np : ℕ)
  | normal (node : Fin np) (slot : ℕ) (entry : Entry G)
  | timeout (node : Fin np) (slot : ℕ)
  | refresh
  | refreshFutex (node : Fin np)
  | setDeadline (node : Fin np) (tid : Int32) (deadline : PendingDeadline)
  | expire (node : Fin np) (tid : Int32)
  | grant (node : Fin np) (tid : Int32) (result : Int64)

namespace PtmcState

variable {G : Type} {np : ℕ} (machine : Machine G np) (state : PtmcState G np)

def step : Event G np → Except String (Option Outcome × PtmcState G np)
  | .normal node slot entry => (state.normalAction machine node slot entry).map fun reply => (some reply.1, reply.2)
  | .timeout node slot => (state.timeoutAction machine node slot).map fun reply => (some reply.1, reply.2)
  | .refresh => state.refreshPendingSyscalls.map fun refreshed => (none, refreshed)
  | .refreshFutex node => state.update node (.ok (state.process node).refreshFutexPending)
  | .setDeadline node tid deadline => state.update node ((state.process node).setPendingDeadline tid deadline)
  | .expire node tid => state.update node (((state.process node).expirePendingSyscall (state.time node) tid).map Prod.snd)
  | .grant node tid result => state.update node ((state.process node).readySyscall tid result)

/-- Wake everybody who waits in a range of addresses. Blocked slots are left to the next refresh. -/
def wakeRange (node : Fin np) (start stop : UInt64) : PtmcState G np :=
  let process := state.process node
  state.setProcess node { process with
    state := { process.state with
      futexState := process.state.futexState.map fun futex => (futex.wakeWaitersInRange start stop).2 } }

end PtmcState

end DetSim.Kernel
