import DetSim.Model.Descriptors

/-! # Futex queues

Threads of a process wait in queues by the address of a word. A second map gives the address each thread waits
at; zero means that it does not wait. The word itself is read before by the caller.
-/

namespace DetSim.Kernel

section Constants

def futexWait : Int32 := 0
def futexWake : Int32 := 1
def futexRequeue : Int32 := 3
def futexCmpRequeue : Int32 := 4
def futexWaitBitset : Int32 := 9
def futexWakeBitset : Int32 := 10
def futexPrivateFlag : Int32 := 128
def futexClockRealtime : Int32 := 256

end Constants

def futexCommand (futexOp : Int32) : Int32 := futexOp &&& ~~~(futexPrivateFlag ||| futexClockRealtime)

def futexPrivate (futexOp : Int32) : Bool := futexOp &&& futexPrivateFlag != 0

/-- Divide a queue: the first waiters of a kind, up to a limit, and the others in their order. -/
def takeWaiters (kind : FutexWaiter → Bool) : ℕ → List FutexWaiter → List FutexWaiter × List FutexWaiter
  | _, [] => ([], [])
  | limit, waiter :: rest =>
    if kind waiter ∧ 0 < limit then
      let (taken, remaining) := takeWaiters kind (limit - 1) rest
      (waiter :: taken, remaining)
    else
      let (taken, remaining) := takeWaiters kind limit rest
      (taken, waiter :: remaining)

namespace FutexState

variable (state : FutexState)

def getWaiters (uaddr : UInt64) : List Int32 := (state.waiters[uaddr]?.getD []).map FutexWaiter.tid

def addWaiter (waiter : FutexWaiter) : FutexState where
  waiters := state.waiters.insert waiter.uaddr (state.waiters[waiter.uaddr]?.getD [] ++ [waiter])
  waiterMap := state.waiterMap.insert waiter.tid waiter.uaddr

/-- A queue has no entry when it is empty. -/
def setQueue (waiters : Map UInt64 (List FutexWaiter)) (uaddr : UInt64) (queue : List FutexWaiter) :
    Map UInt64 (List FutexWaiter) :=
  if queue = [] then waiters.erase uaddr else waiters.insert uaddr queue

/-- Forget where some waiters wait. -/
def eraseTids (waiterMap : Map Int32 UInt64) (waiters : List FutexWaiter) : Map Int32 UInt64 :=
  waiters.foldl (fun waiterMap waiter => waiterMap.erase waiter.tid) waiterMap

def removeWaiter (tid : Int32) : Bool × FutexState :=
  match state.waiterMap[tid]? with
  | none => (false, state)
  | some uaddr =>
    if uaddr = 0 then (false, state)
    else
      let queue := state.waiters[uaddr]?.getD []
      if queue.any (·.tid == tid) then
        (true, {
          waiters := setQueue state.waiters uaddr (queue.eraseP (·.tid == tid))
          waiterMap := state.waiterMap.erase tid })
      -- the lookup leaves a queue behind
      else (false, { state with waiters := state.waiters.insert uaddr queue })

/-- Wake a thread after a timeout, or at its exit. -/
def wakeThread (tid : Int32) : FutexState := (state.removeWaiter tid).2

/-- The waiters that a wake may take. -/
def wakeable (bitset : UInt32) (privateWait : Bool) (waiter : FutexWaiter) : Bool :=
  waiter.privateWait == privateWait && waiter.bitset &&& bitset != 0

def wake (uaddr : UInt64) (nrWake : Int) (bitset : UInt32) (privateWait : Bool) : ℕ × FutexState :=
  match state.waiters[uaddr]? with
  | none => (0, state)
  | some queue =>
    if queue = [] then (0, state)
    else
      let (woken, remaining) := takeWaiters (wakeable bitset privateWait) nrWake.toNat queue
      (woken.length, {
        waiters := setQueue state.waiters uaddr remaining
        waiterMap := eraseTids state.waiterMap woken })

/-- Move waiters from one queue to the end of another. -/
def moveWaiters (uaddr1 uaddr2 : UInt64) (moved remaining : List FutexWaiter) : FutexState :=
  let target := state.waiters[uaddr2]?.getD [] ++ moved.map fun waiter => { waiter with uaddr := uaddr2 }
  { waiters := setQueue (setQueue state.waiters uaddr1 remaining) uaddr2 target
    waiterMap := moved.foldl (fun waiterMap waiter => waiterMap.insert waiter.tid uaddr2) state.waiterMap }

def requeue (uaddr1 uaddr2 : UInt64) (nrWake nrRequeue : Int) (privateWait : Bool) : Int × FutexState :=
  if uaddr1 % 4 ≠ 0 ∨ uaddr2 % 4 ≠ 0 ∨ nrWake < 0 ∨ nrRequeue < 0 then (eInval, state)
  else
    let (woken, state) := state.wake uaddr1 nrWake 0xffffffff privateWait
    match state.waiters[uaddr1]? with
    | none => (woken, state)
    | some queue =>
      let (moved, remaining) := takeWaiters (·.privateWait == privateWait) nrRequeue.toNat queue
      if uaddr1 = uaddr2 then (woken + moved.length, state)
      else (woken + moved.length, state.moveWaiters uaddr1 uaddr2 moved remaining)

/-- Wake everybody who waits in a range of addresses. -/
def wakeWaitersInRange (start stop : UInt64) : ℕ × FutexState :=
  let discarded := state.waiters.toList.filter fun entry => start ≤ entry.1 && entry.1 < stop
  ((discarded.map fun entry => entry.2.length).sum, {
    waiters := discarded.foldl (fun waiters entry => waiters.erase entry.1) state.waiters
    waiterMap := discarded.foldl (fun waiterMap entry => eraseTids waiterMap entry.2) state.waiterMap })

/-- The arguments of a futex call, as the handler passes them on. The word at the address is there when it
was read and readable. -/
structure Call where
  uaddr : UInt64
  futexOp : Int32
  val : Int32
  timeoutAddr : UInt64
  uaddr2 : UInt64
  val3 : Int32
  stackval : Option UInt32
deriving DecidableEq, Repr

/-- Why a call is refused before its operation is looked at, after the operation is known. -/
def Call.refused (call : Call) : Option Int :=
  let op := futexCommand call.futexOp
  if call.futexOp &&& futexClockRealtime ≠ 0 ∧ op ≠ futexWaitBitset then some eNosys
  else if call.uaddr % 4 ≠ 0 then some eInval
  else if (op = futexWaitBitset ∨ op = futexWakeBitset) ∧ call.val3 = 0 then some eInval
  else none

/-- Wait if the word has the expected value. -/
def waitCall (tid : Int32) (call : Call) : Except String (Int × FutexState) :=
  if call.timeoutAddr ≠ 0 then .error "timed futex wait is not modeled"
  else match call.stackval with
    | none => .ok (eFault, state)
    | some word =>
      if word ≠ call.val.toUInt32 then .ok (eAgain, state)
      else if state.isThreadWaiting tid then .error "thread already has a pending futex wait"
      else
        let bitset := if futexCommand call.futexOp = futexWaitBitset then call.val3.toUInt32 else 0xffffffff
        .ok (0, state.addWaiter ⟨tid, call.uaddr, call.val, bitset, futexPrivate call.futexOp⟩)

/-- Wake waiters: one at least is asked for. -/
def wakeCall (call : Call) : Except String (Int × FutexState) :=
  let bitset := if futexCommand call.futexOp = futexWakeBitset then call.val3.toUInt32 else 0xffffffff
  let (woken, state) := state.wake call.uaddr (max 1 call.val.toInt) bitset (futexPrivate call.futexOp)
  .ok (woken, state)

/-- Requeue waiters. The fourth argument is a number here. -/
def requeueCall (call : Call) : Except String (Int × FutexState) :=
  let nrRequeue := toInt call.timeoutAddr
  let requeued := state.requeue call.uaddr call.uaddr2 call.val.toInt nrRequeue.toInt (futexPrivate call.futexOp)
  if call.uaddr2 % 4 ≠ 0 ∨ call.val < 0 ∨ nrRequeue < 0 then .ok (eInval, state)
  else if futexCommand call.futexOp = futexCmpRequeue then
    match call.stackval with
    | none => .ok (eFault, state)
    | some word => if word ≠ call.val3.toUInt32 then .ok (eAgain, state) else .ok requeued
  else .ok requeued

def handleFutex (tid : Int32) (call : Call) : Except String (Int × FutexState) :=
  let op := futexCommand call.futexOp
  let waits := op = futexWait ∨ op = futexWaitBitset
  let wakes := op = futexWake ∨ op = futexWakeBitset
  let requeues := op = futexRequeue ∨ op = futexCmpRequeue
  if ¬(waits ∨ wakes ∨ requeues) then .error "unsupported futex operation"
  else match call.refused with
    | some errno => .ok (errno, state)
    | none =>
      if waits then state.waitCall tid call
      else if wakes then state.wakeCall call
      else state.requeueCall call

end FutexState

end DetSim.Kernel
