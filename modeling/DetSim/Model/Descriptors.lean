import DetSim.Model.StateValidation
import DetSim.ToMathlib.Codec

/-! # Virtual descriptors

One table per process names its files, sockets, pipes and epoll instances. A new descriptor gets the least
number that is free. The table keeps the kind of a descriptor and its flags; the resource itself is kept by
the file system or by the sockets under the same number.
-/

namespace DetSim.Kernel

section Constants

def ePerm : Int := -1
def eNoent : Int := -2
def eBadf : Int := -9
def eAgain : Int := -11
def eFault : Int := -14
def eExist : Int := -17
def eNotdir : Int := -20
def eIsdir : Int := -21
def eInval : Int := -22
def eMfile : Int := -24
def eNotty : Int := -25
def eTxtbsy : Int := -26
def eFbig : Int := -27
def eSpipe : Int := -29
def ePipe : Int := -32
def eNametoolong : Int := -36
def eNosys : Int := -38
def eLoop : Int := -40
def eOverflow : Int := -75
def eNotsock : Int := -88
def eDestaddrreq : Int := -89
def eProtonosupport : Int := -93
def eOpnotsupp : Int := -95
def eAfnosupport : Int := -97
def eAddrinuse : Int := -98
def eAddrnotavail : Int := -99
def eNetunreach : Int := -101
def eConnreset : Int := -104
def eIsconn : Int := -106
def eNotconn : Int := -107
def eConnrefused : Int := -111

def oRdwr : Int32 := 2
def oCreat : Int32 := 0o100
def oExcl : Int32 := 0o200
def oTrunc : Int32 := 0o1000
def oAppend : Int32 := 0o2000
def oNonblock : Int32 := 0o4000
def oAsync : Int32 := 0o20000
def oDirect : Int32 := 0o40000
def oDirectory : Int32 := 0o200000
def oNofollow : Int32 := 0o400000
def oNoatime : Int32 := 0o1000000
def oCloexec : Int32 := 0o2000000
def oPath : Int32 := 0o10000000
def oTmpfile : Int32 := 0o20200000

def fdCloexec : Int32 := 1

/-- How much a pipe holds, and up to which size a write to it is not divided. -/
def pipeCapacity : ℕ := 65536
def pipeAtomicLimit : ℕ := 4096

def fGetfd : Int32 := 1
def fSetfd : Int32 := 2
def fGetfl : Int32 := 3
def fSetfl : Int32 := 4

end Constants

/-- Status flags that no virtual descriptor has. -/
def unsupportedStatus : Int32 := oAsync ||| oDirect ||| oNoatime

namespace FdManager

variable (manager : FdManager)

/-- The table of a new process: the three standard streams. -/
def initial : FdManager :=
  (((∅ : FdManager).insert 0 ⟨.stdio, 0, 0⟩).insert 1 ⟨.stdio, oWronly, 0⟩).insert 2 ⟨.stdio, oWronly, 0⟩

def validateEntry (statusFlags descriptorFlags : Int32) : Bool :=
  !(statusFlags < 0 || statusFlags &&& oAccmode == oAccmode || statusFlags &&& unsupportedStatus != 0 ||
    descriptorFlags &&& ~~~fdCloexec != 0)

/-- The least number from the candidate on that is not among the ascending ones. -/
def scanFds (candidate : Int32) : List Int32 → Option Int32
  | [] => some candidate
  | fd :: rest =>
    if candidate < fd then some candidate
    else if candidate = Int32.maxValue then none
    else scanFds (candidate + 1) rest

def getNextFd : Option Int32 := scanFds 0 manager.keys

/-- Enter a new descriptor. There is none when the numbers are used up. -/
def allocateFd (kind : FdType) (statusFlags descriptorFlags : Int32) : Except String (Option Int32 × FdManager) :=
  if !validateEntry statusFlags descriptorFlags then .error "Invalid virtual descriptor entry"
  else match manager.getNextFd with
    | none => .ok (none, manager)
    | some fd => .ok (some fd, manager.insertIfNew fd ⟨kind, statusFlags, descriptorFlags⟩)

def releaseFd (fd : Int32) : FdManager := manager.erase fd

def getFdType (fd : Int32) : Option FdType := manager[fd]?.map FdEntry.kind

def getStatusFlags (fd : Int32) : Int32 := (manager[fd]?.map FdEntry.statusFlags).getD (-9)

def doFcntl (fd command argument : Int32) : Except String (Int × FdManager) :=
  match manager[fd]? with
  | none => .ok (eBadf, manager)
  | some entry =>
    if command = fGetfl then .ok (entry.statusFlags.toInt, manager)
    else if command = fGetfd then .ok (entry.descriptorFlags.toInt, manager)
    else if command = fSetfd then
      .ok (0, manager.insert fd { entry with descriptorFlags := argument &&& fdCloexec })
    else if command = fSetfl then
      if argument &&& unsupportedStatus ≠ 0 then .error "Unsupported virtual F_SETFL flags"
      else
        let changed := oAppend ||| oNonblock
        .ok (0, manager.insert fd
          { entry with statusFlags := (entry.statusFlags &&& ~~~changed) ||| (argument &&& changed) })
    else .error ("Unsupported virtual fcntl command " ++ toString command)

end FdManager

/-! ## The memory of a tracee -/

/-- The memory of a stopped tracee: reads and writes of whole ranges. A failed write may have changed a part
of the range. -/
structure GuestMemory (G : Type) where
  read : G → UInt64 → ℕ → Option Bytes
  write : G → UInt64 → Bytes → G × Bool

namespace GuestMemory

variable {G : Type} (guest : GuestMemory G)

/-- A range that can be transferred: not at address zero, and within the addresses. -/
def transferable (address : UInt64) (size : ℕ) : Bool :=
  address != 0 && size < 2 ^ 63 && address.toNat + size < 2 ^ 64

/-- Nothing is transferred at all when there is nothing to transfer. -/
def readExact (memory : G) (address : UInt64) (size : ℕ) : Option Bytes :=
  if size = 0 then some []
  else if transferable address size then guest.read memory address size
  else none

def writeExact (memory : G) (address : UInt64) (bytes : Bytes) : G × Bool :=
  if bytes = [] then (memory, true)
  else if transferable address bytes.length then guest.write memory address bytes
  else (memory, false)

end GuestMemory

/-- The number at the front of a transferred word. -/
def wordNat (width : ℕ) (word : Bytes) : ℕ := ((Codec.readNat width word).map Prod.fst).getD 0

/-- The resources of one process: its descriptors, files and pipes, sockets and epoll instances, and its
memory. -/
structure NodeIo (G : Type) where
  fdManager : FdManager
  fsState : FileSystemState
  sockState : SockState
  memory : G

/-- A call that changes nothing. -/
def NodeIo.answer {G : Type} (node : NodeIo G) (result : Int) : Except String (Int × NodeIo G) := .ok (result, node)

end DetSim.Kernel
