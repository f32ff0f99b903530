import DetSim.Model.Descriptors
import DetSim.Model.VirtualPaths

/-! # Virtual files and pipes

The calls of a process on its captured files and on its pipes. A file descriptor has a path and an offset;
a pipe has a buffer of bytes and two ends, and is named by its identifier at the reading end and by the
negated identifier at the writing end.
-/

namespace DetSim.Kernel

/-- The bytes of a text of the source. -/
def asciiBytes (text : String) : Bytes := text.toList.map fun letter => UInt8.ofNat letter.toNat

def atFdcwd : Int32 := -100

/-- The clock of the model as a file time: seconds and nanoseconds. -/
structure FileTime where
  sec : Int64
  nsec : Int64
deriving DecidableEq, Repr

namespace FileSystemState

variable (state : FileSystemState)

/-- A file that is mapped into memory cannot be changed. -/
def mapped (path : Bytes) : Bool := state.virtualFileMappingSources.toList.any fun entry => entry.2.2 == path

/-- Resolve a path against an open directory, or against the working directory. -/
def resolveAt (fdManager : FdManager) (mode : WalkMode) (dirfd : Int32) (path : Bytes) : Except PathError Bytes :=
  if path.isEmpty then .error (.errno (-2))
  else if path.head? == some slash || dirfd == atFdcwd then resolvePathChecked state.view mode state.cwd path
  else if !fdManager.contains dirfd then .error (.errno (-9))
  else match state.openFiles[dirfd]? with
    | none => .error (.errno (-20))
    | some description =>
      match state.filesystem[description.path]? with
      | none => .error (.thrown "Directory descriptor has no payload" [])
      | some node =>
        if !sIsDir node.metadata.stMode then .error (.errno (-20))
        else resolvePathChecked state.view mode description.path path

/-- Take a component into a path without looking at the files. -/
def collapse (parts : List Bytes) (part : Bytes) : List Bytes :=
  if part = [46] then parts else if part = [46, 46] then parts.dropLast else parts ++ [part]

/-- Resolve a path by its text alone. -/
def resolvePath (dirfd : Int32) (path : Bytes) : Except String Bytes := do
  let base ←
    if path.head? == some slash then .ok []
    else if dirfd == atFdcwd then .ok (if state.cwd.isEmpty then [slash] else state.cwd)
    else match state.openFiles[dirfd]? with
      | some description => .ok description.path
      | none => .error "map::at"
  let parts := ((joinPaths base path).splitOn slash).filter (!·.isEmpty)
  return slash :: [slash].intercalate (parts.foldl collapse [])

/-- The least identifier from the given one on that no pipe has. -/
def freePipeId : ℕ → Int32 → Option Int32
  | 0, _ => none
  | rounds + 1, id => if state.pipes.contains id then freePipeId rounds (id + 1) else some id

end FileSystemState

/-- Overwrite bytes of a file. A gap is filled with zeros. -/
def FileContent.write (content : FileContent) (offset : ℕ) (data : Bytes) : FileContent :=
  if data = [] then content
  else
    let bytes := content.bytes
    let gap := List.replicate (offset - bytes.length) 0
    { bytes := bytes.take offset ++ gap ++ data ++ bytes.drop (offset + data.length) }

namespace NodeIo

variable {G : Type} (guest : GuestMemory G) (node : NodeIo G)

/-! ## Opening and closing -/

/-- The checks of an open before anything is looked up. -/
def openRefused (path : Bytes) (flags : Int32) : Option Int :=
  if path = [] then some eNoent
  else if path.contains 0 then some eInval
  else if flags &&& oAccmode = oAccmode ∨ (flags &&& oCreat ≠ 0 ∧ flags &&& oDirectory ≠ 0) then some eInval
  else none

/-- The checks of an open against the file at the resolved path. -/
def openConflict (existing : Option VFSNode) (flags : Int32) : Option Int :=
  let exclusive := flags &&& oCreat ≠ 0 ∧ flags &&& oExcl ≠ 0
  match existing with
  | some file =>
    if sIsLnk file.metadata.stMode then
      some (if exclusive then eExist else if flags &&& oDirectory ≠ 0 then eNotdir else eLoop)
    else if exclusive then some eExist
    else if flags &&& oDirectory ≠ 0 ∧ !sIsDir file.metadata.stMode then some eNotdir
    else if sIsDir file.metadata.stMode ∧ (flags &&& oCreat ≠ 0 ∨ flags &&& oAccmode ≠ 0) then some eIsdir
    else none
  | none => if flags &&& oDirectory ≠ 0 ∨ flags &&& oCreat = 0 then some eNoent else none

/-- The running executable is not written to. -/
def executableBusy (path : Bytes) (flags : Int32) : Bool :=
  node.fsState.filesystem[asciiBytes "/proc/self/exe"]?.any fun link =>
    sIsLnk link.metadata.stMode && link.content.bytes == path &&
      (flags &&& oAccmode != 0 || flags &&& oTrunc != 0)

/-- Create a missing file in its directory. -/
def createFile (now : FileTime) (path : Bytes) (mode : UInt32) : Except String FileSystemState :=
  let state := node.fsState
  match state.filesystem[parentPath path]? with
  | none => .error "New virtual file has no directory parent"
  | some parent =>
    if !sIsDir parent.metadata.stMode then .error "New virtual file has no directory parent"
    else if 0x8000000000000000 ≤ state.nextInode then .error "Virtual guest inode domain exhausted"
    else
      let permissions := (mode &&& 0o7777) &&& ~~~state.creationMask
      let file : VFSNode := ⟨{}, ⟨0, 0o100000 ||| permissions, state.nextInode, now.sec, now.nsec⟩⟩
      let touched : VFSNode :=
        { parent with metadata := { parent.metadata with mtimSec := now.sec, mtimNsec := now.nsec } }
      .ok { state with
        filesystem := (state.filesystem.insert path file).insert (parentPath path) touched
        nextInode := state.nextInode + 1 }

/-- Cut a file that is opened for writing. -/
def truncateFile (now : FileTime) (path : Bytes) (flags : Int32) (state : FileSystemState) : FileSystemState :=
  if flags &&& oTrunc ≠ 0 ∧ flags &&& oAccmode ≠ 0 then
    match state.filesystem[path]? with
    | none => state
    | some file =>
      { state with
        filesystem := state.filesystem.insert path
          { content := {}
            metadata := { file.metadata with stSize := 0, mtimSec := now.sec, mtimNsec := now.nsec } } }
  else state

/-- The files before a descriptor is published: a missing file is created. -/
def preparedFiles (now : FileTime) (path : Bytes) (mode : UInt32) : Except String FileSystemState :=
  if node.fsState.filesystem.contains path then .ok node.fsState else node.createFile now path mode

/-- Publish the descriptor of an open whose checks passed. -/
def publishFile (now : FileTime) (path : Bytes) (flags : Int32) (mode : UInt32) : Except String (Int × NodeIo G) :=
  match node.fdManager.getNextFd with
  | none => node.answer eMfile
  | some candidate =>
    if node.fsState.openFiles.contains candidate then .error "Free descriptor still has a virtual file description"
    else do
      let created ← node.preparedFiles now path mode
      let (fd, manager) ← node.fdManager.allocateFd .file (flags &&& ~~~(oCloexec ||| oCreat ||| oExcl ||| oTrunc))
        (if flags &&& oCloexec ≠ 0 then fdCloexec else 0)
      if fd ≠ some candidate then .error "Virtual descriptor allocation changed during open"
      else
        let opened := truncateFile now path flags created
        .ok (candidate.toInt, { node with
          fdManager := manager
          fsState := { opened with openFiles := opened.openFiles.insert candidate ⟨path, 0⟩ } })

def doOpenat (now : FileTime) (dirfd : Int32) (input : Bytes) (flags : Int32) (mode : UInt32) :
    Except String (Int × NodeIo G) :=
  match openRefused input flags with
  | some errno => node.answer errno
  | none =>
    if flags &&& (oAsync ||| oDirect ||| oNoatime ||| oPath) ≠ 0 ∨ flags &&& oTmpfile = oTmpfile then
      .error "Unsupported virtual open flags"
    else
      let exclusive := flags &&& oCreat != 0 && flags &&& oExcl != 0
      let walk : WalkMode := {
        followFinal := !exclusive && flags &&& oNofollow == 0
        checkSearch := false
        creating := flags &&& oCreat != 0 }
      match node.fsState.resolveAt node.fdManager walk dirfd input with
      | .error (.errno code) => node.answer code.toInt
      | .error (.thrown message _) => .error message
      | .ok path =>
        if path = asciiBytes "/proc/self" ∧ flags &&& oNofollow ≠ 0 then
          .error "Virtual proc self nofollow open is not modeled"
        else match openConflict node.fsState.filesystem[path]? flags with
          | some errno => node.answer errno
          | none =>
            if node.executableBusy path flags then node.answer eTxtbsy
            else if flags &&& oTrunc ≠ 0 ∧ node.fsState.mapped path then
              .error "Modification of a mapped virtual file is unsupported"
            else node.publishFile now path flags mode

def doClose (fd : Int32) : Except String (Int × NodeIo G) :=
  if !node.fdManager.contains fd || !node.fsState.openFiles.contains fd then node.answer eBadf
  else .ok (0, { node with
    fdManager := node.fdManager.releaseFd fd
    fsState := { node.fsState with openFiles := node.fsState.openFiles.erase fd } })

/-! ## Contents and offsets -/

/-- What a file call needs of a descriptor: its description and the file. -/
def openedFile (fd : Int32) : Except String (OpenFileDescription × VFSNode) :=
  match node.fsState.openFiles[fd]? with
  | none => .error "Descriptor registry has no corresponding file payload"
  | some description =>
    match node.fsState.filesystem[description.path]? with
    | none => .error "map::at"
    | some file => .ok (description, file)

def setOffset (fd : Int32) (description : OpenFileDescription) (offset : ℕ) : FileSystemState :=
  { node.fsState with
    openFiles := node.fsState.openFiles.insert fd { description with offset := Int64.ofNat offset } }

/-- Read a file at the offset of a descriptor. -/
def readFile (fd : Int32) (destination count : UInt64) : Except String (Int × NodeIo G) := do
  let (description, file) ← node.openedFile fd
  if description.offset < 0 then .error "Negative virtual file offset"
  else
    let offset := description.offset.toInt.toNat
    let bytes := (file.content.bytes.drop offset).take count.toNat
    if sIsDir file.metadata.stMode then node.answer eIsdir
    else if node.fdManager.getStatusFlags fd &&& oAccmode = oWronly then node.answer eBadf
    else if bytes = [] then node.answer 0
    else match guest.writeExact node.memory destination bytes with
      | (memory, false) => .ok (eFault, { node with memory })
      | (memory, true) =>
        .ok (bytes.length, { node with memory, fsState := node.setOffset fd description (offset + bytes.length) })

/-- Append bytes to a file, or write them at the offset of a descriptor. -/
def writeFile (now : FileTime) (fd : Int32) (data : Bytes) : Except String (Int × NodeIo G) := do
  let (description, file) ← node.openedFile fd
  let status := node.fdManager.getStatusFlags fd
  if status &&& oAccmode = 0 then node.answer eBadf
  else if data = [] then node.answer 0
  else if node.fsState.mapped description.path then .error "Modification of a mapped virtual file is unsupported"
  else
    let appends := status &&& oAppend ≠ 0 ∨ node.fdManager.getFdType fd = some .stdio
    let offset := if appends then file.content.bytes.length else description.offset.toInt.toNat
    if 2 ^ 63 - 1 < offset + data.length then node.answer eFbig
    else
      let content := file.content.write offset data
      let written : VFSNode := {
        content := content
        metadata := { file.metadata with
          stSize := Int64.ofNat content.bytes.length, mtimSec := now.sec, mtimNsec := now.nsec } }
      let state := node.setOffset fd description (offset + data.length)
      .ok (data.length, { node with
        fsState := { state with filesystem := state.filesystem.insert description.path written } })

/-- Write to a file from the memory of the process. -/
def writeFileFrom (now : FileTime) (fd : Int32) (source count : UInt64) : Except String (Int × NodeIo G) :=
  match node.fsState.openFiles[fd]? with
  | none => .error "Descriptor registry has no corresponding file payload"
  | some description =>
    if node.fdManager.getStatusFlags fd &&& oAccmode = 0 then node.answer eBadf
    else if count ≠ 0 ∧ node.fsState.mapped description.path then
      .error "Modification of a mapped virtual file is unsupported"
    else match guest.readExact node.memory source count.toNat with
      | none => node.answer eFault
      | some data => node.writeFile now fd data

def doLseek (fd : Int32) (offset : Int64) (whence : Int32) : Except String (Int × NodeIo G) :=
  match node.fsState.openFiles[fd]? with
  | none => node.answer eBadf
  | some description =>
    if !node.fdManager.contains fd then node.answer eBadf
    else match node.fsState.filesystem[description.path]? with
      | none => .error "map::at"
      | some file =>
        if node.fdManager.getFdType fd = some .stdio then node.answer eSpipe
        else
          let base : Option Int :=
            if whence = 0 then some 0
            else if whence = 1 then some description.offset.toInt
            else if whence = 2 ∧ !sIsDir file.metadata.stMode then some file.content.bytes.length
            else none
          match base with
          | none => node.answer eInval
          | some base =>
            let next := base + offset.toInt
            if next < -2 ^ 63 ∨ 2 ^ 63 ≤ next then node.answer eOverflow
            else if next < 0 then node.answer eInval
            else .ok (next, { node with fsState := node.setOffset fd description next.toNat })

/-! ## Pipes -/

/-- A new pipe with its two descriptors. -/
def doPipe (flags : Int32) : Except String ((Int × Option (Int32 × Int32)) × NodeIo G) :=
  if flags &&& ~~~(oNonblock ||| oCloexec) ≠ 0 then .ok ((eInval, none), node)
  else match node.fsState.freePipeId (node.fsState.pipes.size + 1) 1 with
    | none => .error "Virtual pipe identifiers exhausted"
    | some id => do
      let descriptorFlags := if flags &&& oCloexec ≠ 0 then fdCloexec else 0
      let (readFd, manager) ← node.fdManager.allocateFd .pipe (flags &&& oNonblock) descriptorFlags
      let (writeFd, manager) ← manager.allocateFd .pipe (oWronly ||| (flags &&& oNonblock)) descriptorFlags
      match readFd, writeFd with
      | some readFd, some writeFd =>
        .ok ((0, some (readFd, writeFd)), { node with
          fdManager := manager
          fsState := { node.fsState with
            pipes := node.fsState.pipes.insert id ⟨[], false, false⟩
            pipeFds := (node.fsState.pipeFds.insert readFd id).insert writeFd (-id) } })
      | _, _ => .ok ((eMfile, none), node)

/-- The pipe of a descriptor, by the identifier of the end. -/
def pipeEnd (fd : Int32) : Option (Int32 × Pipe) :=
  if node.fdManager.getFdType fd = some .pipe then
    node.fsState.pipeFds[fd]?.bind fun signedId =>
      (node.fsState.pipes[if 0 < signedId then signedId else -signedId]?).map fun pipe => (signedId, pipe)
  else none

def setPipe (signedId : Int32) (pipe : Pipe) : FileSystemState :=
  { node.fsState with
    pipes := node.fsState.pipes.insert (if 0 < signedId then signedId else -signedId) pipe }

def doPipeRead (fd : Int32) (buf count : UInt64) : Except String (Int × NodeIo G) :=
  match node.pipeEnd fd with
  | none => node.answer eBadf
  | some (signedId, pipe) =>
    if signedId < 0 then node.answer eBadf
    else if count = 0 then node.answer 0
    else if pipe.buffer = [] then node.answer (if pipe.writeClosed then 0 else eAgain)
    else
      let data := pipe.buffer.take count.toNat
      match guest.writeExact node.memory buf data with
      | (memory, false) => .ok (eFault, { node with memory })
      | (memory, true) =>
        .ok (data.length, { node with
          memory, fsState := node.setPipe signedId { pipe with buffer := pipe.buffer.drop count.toNat } })

def doPipeWrite (fd : Int32) (buf count : UInt64) : Except String (Int × NodeIo G) :=
  match node.pipeEnd fd with
  | none => node.answer eBadf
  | some (signedId, pipe) =>
    let available := pipeCapacity - pipe.buffer.length
    if 0 < signedId then node.answer eBadf
    else if count = 0 then node.answer 0
    else if pipe.readClosed then node.answer ePipe
    else if 2 ^ 63 - 1 < count.toNat then node.answer eInval
    else if pipeAtomicLimit < count.toNat ∧ available < count.toNat ∧
        node.fdManager.getStatusFlags fd &&& oNonblock = 0 then
      .error "Blocking pipe writes requiring partial progress are unsupported"
    else if available = 0 ∨ (count.toNat ≤ pipeAtomicLimit ∧ available < count.toNat) then node.answer eAgain
    else match guest.readExact node.memory buf (min count.toNat available) with
      | none => node.answer eFault
      | some data =>
        .ok (min count.toNat available, { node with
          fsState := node.setPipe signedId { pipe with buffer := pipe.buffer ++ data } })

/-- Close one end. The pipe goes with its second end. -/
def doPipeClose (fd : Int32) : Except String (Int × NodeIo G) :=
  if node.fdManager.getFdType fd ≠ some .pipe then node.answer eBadf
  else match node.fsState.pipeFds[fd]? with
    | none => node.answer eBadf
    | some signedId =>
      let id := if 0 < signedId then signedId else -signedId
      let pipes := match node.fsState.pipes[id]? with
        | none => node.fsState.pipes
        | some pipe =>
          let closed : Pipe :=
            if 0 < signedId then { pipe with readClosed := true } else { pipe with writeClosed := true }
          if closed.readClosed && closed.writeClosed then node.fsState.pipes.erase id
          else node.fsState.pipes.insert id closed
      .ok (0, { node with
        fdManager := node.fdManager.releaseFd fd
        fsState := { node.fsState with pipes := pipes, pipeFds := node.fsState.pipeFds.erase fd } })

end NodeIo

end DetSim.Kernel
