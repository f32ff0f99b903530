import DetSim.Model.PendingSyscalls

/-! # Logical threads

Threads of a process are born by a clone and end with an exit, alone or together. An exiting thread gives up
the robust futexes it owns and clears its identifier in memory; both may wake a waiter. All carriers are
stopped, so the walk over the robust list of a thread is planned on an overlay of memory first and applied
afterwards. Carriers, registers and host registrations are not part of the model.
-/

namespace DetSim.Kernel

section Constants

def cloneRequired : UInt64 := 0x100 ||| 0x200 ||| 0x400 ||| 0x800 ||| 0x10000
def cloneSysvsem : UInt64 := 0x40000
def cloneSettls : UInt64 := 0x80000
def cloneParentSettid : UInt64 := 0x100000
def cloneChildCleartid : UInt64 := 0x200000
def cloneChildSettid : UInt64 := 0x1000000
def robustListLimit : ℕ := 2048
def futexTidMask : UInt32 := 0x3fffffff
def futexOwnerDied : UInt32 := 0x40000000
def futexWaiters : UInt32 := 0x80000000
def eE2big : Int := -7

end Constants

/-- The memory of a tracee with its mappings: whether a range can be written to. A read-only file mapping
cannot be cleared. -/
structure GuestOs (G : Type) extends GuestMemory G where
  writable : G → UInt64 → ℕ → Bool → Except String Bool

namespace GuestOs

variable {G : Type} (guest : GuestOs G)

def writableGuestRange (memory : G) (address : UInt64) (size : ℕ) (clearing : Bool) : Except String Bool :=
  if address = 0 ∨ 2 ^ 64 - 1 - size < address.toNat then .ok false else guest.writable memory address size clearing

/-- Write a scalar, or nothing at all when it cannot be written. -/
def writeGuestScalar (memory : G) (address : UInt64) (bytes : Bytes) (clearing : Bool) : Except String (G × Bool) := do
  if ← guest.writableGuestRange memory address bytes.length clearing then
    match guest.writeExact memory address bytes with
    | (memory, true) => .ok (memory, true)
    | (_, false) => .error "Scalar write failed after writable-range validation"
  else .ok (memory, false)

end GuestOs

/-! ## Robust lists -/

def validateRobustRange (address : UInt64) (size : ℕ) : Except String Unit :=
  if address < scratchPage + 4096 ∧ (scratchPage ≤ address ∨ scratchPage.toNat - address.toNat < size) then
    .error "Robust-list access overlaps reserved control memory"
  else .ok ()

/-- One store or wake at the exit of a thread. -/
structure RobustEffect where
  address : UInt64
  value : UInt32
  write : Bool
  wake : Bool
deriving DecidableEq, Repr

/-- What is planned so far: the bytes that were stored, and the effects of the present thread. -/
structure RobustExitPlan where
  bytes : Map UInt64 UInt8 := ∅
  effects : List RobustEffect := []

namespace RobustExitPlan

variable {G : Type} (guest : GuestOs G) (memory : G) (plan : RobustExitPlan)

def read (address : UInt64) (size : ℕ) : Except String (Option Bytes) := do
  validateRobustRange address size
  if address = 0 ∨ 2 ^ 64 - 1 - size < address.toNat then .ok none
  else .ok ((guest.readExact memory address size).map fun bytes =>
    bytes.mapIdx fun offset byte => plan.bytes[address + UInt64.ofNat offset]?.getD byte)

def store (address : UInt64) (value : UInt32) (clearing : Bool) : Except String (Bool × RobustExitPlan) := do
  validateRobustRange address 4
  if ← guest.writableGuestRange memory address 4 clearing then
    let stored := (Codec.natBytes 4 value.toNat).zipIdx.foldl
      (fun bytes entry => bytes.insert (address + UInt64.ofNat entry.2) entry.1) plan.bytes
    .ok (true, { plan with bytes := stored })
  else .ok (false, plan)

def effect (effect : RobustEffect) : RobustExitPlan := { plan with effects := plan.effects ++ [effect] }

/-- Wake a waiter of a futex whose owner was about to take or release it. -/
def wakePending (address : UInt64) (value : UInt32) : Except String (Bool × RobustExitPlan) := do
  if ← guest.writableGuestRange memory address 4 true then .ok (true, plan.effect ⟨address, value, false, true⟩)
  else .ok (true, plan)

/-- Mark a futex whose owner died. -/
def markDead (address : UInt64) (value : UInt32) : Except String (Bool × RobustExitPlan) := do
  let replacement := (value &&& futexWaiters) ||| futexOwnerDied
  match ← plan.store guest memory address replacement false with
  | (false, plan) => .ok (false, plan)
  | (true, plan) => .ok (true, plan.effect ⟨address, replacement, true, value &&& futexWaiters != 0⟩)

/-- The death of the owner of one futex. False ends the walk. -/
def death (address : UInt64) (pi pending : Bool) (owner : Int32) : Except String (Bool × RobustExitPlan) := do
  if pi then .error "Unsupported PI robust futex ownership"
  else do
    validateRobustRange address 4
    if address % 4 ≠ 0 then .ok (false, plan)
    else match ← plan.read guest memory address 4 with
      | none => .ok (false, plan)
      | some word =>
        let value := UInt32.ofNat (wordNat 4 word)
        if pending && value &&& futexTidMask == 0 then plan.wakePending guest memory address value
        else if value &&& futexTidMask ≠ owner.toUInt32 then .ok (true, plan)
        else plan.markDead guest memory address value

/-- What a walk knows of its list: the head, the offset of the futexes, and the entry that is worked on. -/
structure Registration where
  head : UInt64
  offset : UInt64
  pending : UInt64

/-- The owner of one entry of a list dies, unless the entry is the one that is worked on. -/
def entryDeath (list : Registration) (owner : Int32) (tagged : UInt64) : Except String (Bool × RobustExitPlan) :=
  let entry := tagged &&& ~~~1
  if entry = list.pending then .ok (true, plan)
  else plan.death guest memory (entry + list.offset) (tagged &&& 1 != 0) false owner

/-- Walk over a list, up to the limit of entries. False ends the exit of the list. -/
def walk (list : Registration) (owner : Int32) :
    ℕ → UInt64 → RobustExitPlan → Except String (Bool × RobustExitPlan)
  | 0, _, plan => .ok (true, plan)
  | remaining + 1, tagged, plan =>
    if tagged &&& ~~~1 = list.head then .ok (true, plan)
    else do
      let next ← plan.read guest memory (tagged &&& ~~~1) 8
      match ← plan.entryDeath guest memory list owner tagged with
      | (false, plan) => .ok (false, plan)
      | (true, plan) =>
        match next with
        -- the owner of the present entry dies also when the next entry cannot be read
        | none => .ok (false, plan)
        | some next => walk list owner remaining (UInt64.ofNat (wordNat 8 next)) plan

/-- Walk over the registered list, and handle the entry that is worked on. -/
def collectList (head : UInt64) (owner : Int32) (registration : Bytes) : Except String RobustExitPlan := do
  let tagged := UInt64.ofNat (wordNat 8 registration)
  let pendingTagged := UInt64.ofNat (wordNat 8 (registration.drop 16))
  let list : Registration := ⟨head, UInt64.ofNat (wordNat 8 (registration.drop 8)), pendingTagged &&& ~~~1⟩
  match ← walk guest memory list owner robustListLimit tagged plan with
  | (false, plan) => .ok plan
  | (true, plan) =>
    if list.pending = 0 then .ok plan
    else (plan.death guest memory (list.pending + list.offset) (pendingTagged &&& 1 != 0) true owner).map Prod.snd

/-- Plan the exit of one thread. -/
def collect (thread : ThreadState) (owner : Int32) : Except String RobustExitPlan :=
  let fresh := { plan with effects := [] }
  if thread.robustListHead = 0 then .ok fresh
  else do
    match ← fresh.read guest memory thread.robustListHead 24 with
    | none => .ok fresh
    | some registration => fresh.collectList guest memory thread.robustListHead owner registration

end RobustExitPlan

/-! ## Exits -/

/-- The number the guest knows a thread by. -/
def logicalThreadId (node : ℕ) (tid : Int32) : Int32 := Int32.ofNat (node * maxThreadsPerProcess) + tid

/-- A process with its memory. -/
abbrev ProcessImage (G : Type) := LiveProcess × G

namespace LiveProcess

variable {G : Type} (guest : GuestOs G) (process : LiveProcess) (node : ℕ)

/-- The checks of the logical slots of a process. -/
def validateSlot (index : ℕ) (thread : ThreadState) : Bool :=
  thread.tid == Int32.ofNat (index + 1) && thread.isMain == (index == 0) &&
    thread.signalMask &&& 0x40100 == 0 && (thread.alive || thread.signalMask == 0) &&
    thread.altstackFlags &&& ~~~(0x80000000 ||| 2) == 0 &&
    (thread.altstackFlags &&& 2 == 0 || (thread.altstackSp == 0 && thread.altstackSize == 0)) &&
    (thread.altstackFlags &&& 2 != 0 || 2048 ≤ thread.altstackSize) &&
    (thread.alive || (thread.altstackSp == 0 && thread.altstackSize == 0 && thread.altstackFlags == 2)) &&
    (thread.alive || thread.robustListHead == 0)

def validateBoundSlots : Bool :=
  validatePendingSyscalls process.state && process.state.mainTid == 1 &&
    (process.state.threads.head?.any ThreadState.isMain) &&
    process.state.threads.zipIdx.all fun entry => validateSlot entry.2 entry.1

def prepareThreadPool : Except String Unit :=
  if process.validateBoundSlots then .ok () else .error "Invalid logical thread slot or main-thread designation"

/-- Another thread of the process is alive. -/
def sharedMm (slot : ℕ) : Bool :=
  process.state.threads.zipIdx.any fun entry => entry.2 != slot && entry.1.alive

/-- Wake one waiter at an address, if the process has futex queues. -/
def wakeOne (address : UInt64) : LiveProcess :=
  { process with
    state := { process.state with
      futexState := process.state.futexState.map fun futex => (futex.wake address 1 0xffffffff false).2 } }

def applyRobustEffect (image : ProcessImage G) (effect : RobustEffect) : Except String (ProcessImage G) := do
  let woken := if effect.wake then image.1.wakeOne effect.address else image.1
  if effect.write then
    match ← guest.writeGuestScalar image.2 effect.address (Codec.natBytes 4 effect.value.toNat) false with
    | (_, false) => .error "Robust futex became unwritable after exit preflight"
    | (memory, true) => .ok (woken, memory)
  else .ok (woken, image.2)

def applyRobustCleanup (image : ProcessImage G) (effects : List RobustEffect) : Except String (ProcessImage G) :=
  effects.foldlM (applyRobustEffect guest) image

/-- Clear the identifier of a thread in memory, and wake a thread that joins it. -/
def clearChildTid (image : ProcessImage G) (slot : ℕ) (thread : ThreadState) : Except String (ProcessImage G) :=
  if thread.clearChildTid ≠ 0 ∧ image.1.sharedMm slot then do
    match ← guest.writeGuestScalar image.2 thread.clearChildTid (Codec.natBytes 4 0) true with
    | (memory, false) => .ok (image.1, memory)
    | (memory, true) =>
      .ok (if thread.clearChildTid % 4 = 0 then image.1.wakeOne thread.clearChildTid else image.1, memory)
  else .ok image

/-- A thread without its registrations and its unfinished call. -/
def forgetRegistrations (thread : ThreadState) : ThreadState :=
  { thread with
    signalMask := 0, altstackSp := 0, altstackSize := 0, altstackFlags := 2, pendingSyscall := none
    robustListHead := 0, clearChildTid := 0, childSettidPending := false, pendingChildSettid := 0 }

/-- Wake a thread and refresh the others, if the process has futex queues. -/
def leaveQueues (tid : Int32) : LiveProcess :=
  if process.state.futexState.isSome then (process.wakeThread tid).refreshFutexPending else process

def clearLogicalTid (image : ProcessImage G) (slot : ℕ) (thread : ThreadState) : Except String (ProcessImage G) := do
  let (cleared, memory) ← clearChildTid guest image slot thread
  .ok ((cleared.setThread slot (forgetRegistrations thread)).leaveQueues thread.tid, memory)

/-- A thread that is gone. -/
def endThread (slot : ℕ) (exitCode : Int32) : LiveProcess :=
  let ended := match process.state.threads[slot]? with
    | none => process
    | some thread =>
      process.setThread slot { thread with exitCode := exitCode &&& 255, alive := false, physicalTid := 0 }
  { ended with threadBlocked := Function.update ended.threadBlocked slot false }

/-- The exit of one thread, with its planned effects. -/
def exitSlot (image : ProcessImage G) (slot : ℕ) (thread : ThreadState) (effects : List RobustEffect)
    (exitCode : Int32) : Except String (ProcessImage G) := do
  let cleaned ← applyRobustCleanup guest image effects
  let (cleared, memory) ← clearLogicalTid guest cleaned slot thread
  .ok (cleared.endThread slot exitCode, memory)

/-- Plan the clearing of an identifier at the exit of a thread, behind its robust list. -/
def planClear (memory : G) (thread : ThreadState) (shared : Bool) (plan : RobustExitPlan) :
    Except String RobustExitPlan :=
  if thread.clearChildTid ≠ 0 ∧ shared then
    (plan.store guest memory thread.clearChildTid 0 true).map Prod.snd
  else .ok plan

/-- The exit of a thread up to its descriptors. -/
def exitThread (memory : G) (slot : ℕ) (exitCode : Int32) : Except String (ProcessImage G) := do
  process.prepareThreadPool
  let thread ← process.liveThread "Logical exit has no live owned thread" slot
  let plan ← RobustExitPlan.collect guest memory {} thread (logicalThreadId node thread.tid)
  let _ ← planClear guest memory thread (process.sharedMm slot) plan
  exitSlot guest (process, memory) slot thread plan.effects exitCode

/-- Store the identifier that a new thread has not stored yet. -/
def planSettid (memory : G) (thread : ThreadState) (plan : RobustExitPlan) : Except String RobustExitPlan :=
  if thread.childSettidPending then
    (plan.store guest memory thread.pendingChildSettid (logicalThreadId node thread.tid).toUInt32 false).map Prod.snd
  else .ok plan

/-- Plan the exits of all live threads, in their order. -/
def planGroup (memory : G) : List ThreadState → ℕ → RobustExitPlan → Except String (List (List RobustEffect))
  | [], _, _ => .ok []
  | thread :: rest, live, plan =>
    if thread.alive then do
      let plan ← planSettid guest node memory thread plan
      let plan ← plan.collect guest memory thread (logicalThreadId node thread.tid)
      let cleared ← planClear guest memory thread (1 < live) plan
      let others ← planGroup memory rest (live - 1) cleared
      .ok (plan.effects :: others)
    else do
      let others ← planGroup memory rest live plan
      .ok ([] :: others)

/-- A new thread stores its identifier before it runs. -/
def completeThreadStart (image : ProcessImage G) (slot : ℕ) : Except String (ProcessImage G) := do
  let thread ← image.1.liveThread "Thread start has no live owned carrier" slot
  if thread.childSettidPending then do
    let id := (logicalThreadId node thread.tid).toUInt32
    let (memory, _) ← guest.writeGuestScalar image.2 thread.pendingChildSettid (Codec.natBytes 4 id.toNat) false
    .ok (image.1.setThread slot { thread with childSettidPending := false, pendingChildSettid := 0 }, memory)
  else .ok image

/-- One thread of a group exit. -/
def exitGroupSlot (exitCode : Int32) (image : ProcessImage G) (entry : List RobustEffect × ℕ) :
    Except String (ProcessImage G) :=
  match image.1.state.threads[entry.2]? with
  | none => .ok image
  | some thread =>
    if thread.alive then do
      let started ← completeThreadStart guest node image entry.2
      let thread ← started.1.liveThread "Logical process exit has no live owned caller" entry.2
      exitSlot guest started entry.2 thread entry.1 exitCode
    else .ok image

/-- The exit of all threads up to the descriptors. -/
def exitGroup (memory : G) (slot : ℕ) (exitCode : Int32) : Except String (ProcessImage G) := do
  process.prepareThreadPool
  let _ ← process.liveThread "Logical process exit has no live owned caller" slot
  let live := process.state.threads.countP ThreadState.alive
  let planned ← planGroup guest node memory process.state.threads live {}
  planned.zipIdx.foldlM (exitGroupSlot guest node exitCode) (process, memory)

/-! ## Births -/

structure CloneRequest where
  flags : UInt64
  stack : UInt64
  tls : UInt64
  parentTid : UInt64
  childTid : UInt64

def validateLogicalClone (flags : UInt64) : Except String Unit :=
  let allowed := cloneRequired ||| cloneSysvsem ||| cloneSettls ||| cloneParentSettid ||| cloneChildSettid |||
    cloneChildCleartid
  if flags &&& cloneRequired ≠ cloneRequired ∨ flags &&& ~~~allowed ≠ 0 then
    .error "Unsupported raw clone thread flags"
  else .ok ()

def validateTidPointer (address : UInt64) : Except String Unit :=
  if address < scratchPage + 4096 ∧ scratchPage - 4 < address then .error "TID write overlaps reserved control memory"
  else .ok ()

def validateTidPointers (request : CloneRequest) : Except String Unit := do
  if request.flags &&& cloneParentSettid ≠ 0 then validateTidPointer request.parentTid
  if request.flags &&& (cloneChildSettid ||| cloneChildCleartid) ≠ 0 then validateTidPointer request.childTid

def validateCloneStack (request : CloneRequest) : Except String Unit :=
  if request.stack = 0 then .error "Raw clone requires a child stack"
  else if (scratchPage ≤ request.stack ∧ request.stack ≤ scratchPage + 4096) ∨
      (request.flags &&& cloneSettls ≠ 0 ∧ scratchPage ≤ request.tls ∧ request.tls < scratchPage + 4096) then
    .error "Raw clone stack or TLS overlaps reserved control memory"
  else .ok ()

/-- A thread with the next number. -/
def bornThread (tid : Int32) (parent : ThreadState) (request : CloneRequest) : ThreadState where
  tid := tid
  alive := true
  comm := parent.comm
  cloneFlags := request.flags
  stackAddr := request.stack
  ptid := parent.tid
  signalMask := parent.signalMask
  clearChildTid := if request.flags &&& cloneChildCleartid ≠ 0 then request.childTid else 0
  childSettidPending := request.flags &&& cloneChildSettid != 0
  pendingChildSettid := if request.flags &&& cloneChildSettid ≠ 0 then request.childTid else 0

def addThread (thread : ThreadState) : LiveProcess :=
  { process with
    state := { process.state with
      threads := process.state.threads ++ [thread] }
    threadBlocked := Function.update process.threadBlocked process.state.threads.length false }

/-- The identifier of a new thread for its parent. A failed write is ignored. -/
def writeParentTid (memory : G) (tid : Int32) (request : CloneRequest) : Except String G :=
  if request.flags &&& cloneParentSettid ≠ 0 then
    (guest.writeGuestScalar memory request.parentTid
      (Codec.natBytes 4 (logicalThreadId node tid).toUInt32.toNat) false).map Prod.fst
  else .ok memory

def createLogicalThread (memory : G) (slot : ℕ) (request : CloneRequest) : Except String (Int32 × ProcessImage G) := do
  validateLogicalClone request.flags
  validateTidPointers request
  validateCloneStack request
  process.prepareThreadPool
  if maxThreadsPerProcess ≤ process.state.threads.length then .error "Logical thread birth limit exceeded"
  else do
    let parent ← process.liveThread "Raw clone has no live owned parent" slot
    let tid := Int32.ofNat (process.state.threads.length + 1)
    let memory ← writeParentTid guest node memory tid request
    .ok (tid, process.addThread (bornThread tid parent request), memory)

/-- The request of a clone3 in memory, or an error number. -/
def parseClone3 (memory : G) (address size : UInt64) : Except String (Except Int CloneRequest) :=
  if size < 64 then .ok (.error eInval)
  else if 4096 < size then .ok (.error eE2big)
  else
    let tail := if size ≤ 88 then some [] else
      if 2 ^ 64 - 1 - size.toNat < address.toNat then none
      else guest.readExact memory (address + 88) (size.toNat - 88)
    match tail with
    | none => .ok (.error eFault)
    | some tail =>
      if tail.any (· != 0) then .ok (.error eE2big)
      else match guest.readExact memory address (min size.toNat 88) with
        | none => .ok (.error eFault)
        | some bytes =>
          let field (index : ℕ) : UInt64 := UInt64.ofNat (wordNat 8 ((bytes ++ List.replicate 88 0).drop (8 * index)))
          if 64 < field 4 ∨ 32 < field 9 ∨ (field 8 == 0) != (field 9 == 0) then .ok (.error eInval)
          else do
            validateLogicalClone (field 0)
            if field 4 ≠ 0 then .ok (.error eInval)
            else if field 9 ≠ 0 then .error "clone3 explicit TID selection is unsupported"
            else if (field 5 == 0) != (field 6 == 0) ∨ 2 ^ 64 ≤ (field 5).toNat + (field 6).toNat then
              .ok (.error eInval)
            else if 2 ^ 63 ≤ (field 5).toNat ∨ 2 ^ 63 ≤ (field 6).toNat then .ok (.error eInval)
            else if 2 ^ 47 - 4096 ≤ (field 5).toNat ∨ 2 ^ 47 - 4096 < (field 5).toNat + (field 6).toNat then
              .error "clone3 extended virtual-address stack ranges are unsupported"
            else .ok (.ok ⟨field 0, field 5 + field 6, field 7, field 3, field 2⟩)

/-! ## Registrations -/

def recordLogicalClearTid (slot : ℕ) (address : UInt64) : Except String (Int × LiveProcess) := do
  validateTidPointer address
  let thread ← process.liveThread "set_tid_address has no live owned thread" slot
  .ok ((logicalThreadId node thread.tid).toInt, process.setThread slot { thread with clearChildTid := address })

def emulateSetRobustList (slot : ℕ) (head length : UInt64) : Except String (Int × LiveProcess) :=
  if length ≠ 24 then .ok (eInval, process)
  else do
    let thread ← process.liveThread "set_robust_list has no live owned thread" slot
    validateRobustRange head 24
    .ok (0, process.setThread slot { thread with robustListHead := head })

end LiveProcess

end DetSim.Kernel
