import DetSim.Model.StateValidation
import DetSim.Model.VirtualPaths
import DetSim.Model.Threads

/-! # Reading directories

The entries of a directory are itself, the directory above, and its files in the order of their paths. A descriptor of
a directory keeps the index of the next entry as its offset. A call writes as many records as fit, field by field, and
stops at the first one that does not fit or cannot be written.
-/

namespace DetSim.Kernel

/-- An entry of a directory. -/
structure DirEntry where
  name : Bytes
  path : Bytes
deriving DecidableEq, Repr

/-- The path of the directory above, for its second entry. -/
def pathAbove (path : Bytes) : Bytes := if slash ∈ path then parentPath path else path

/-- The paths of the files of a directory begin with it and a slash. -/
def directoryPrefix (path : Bytes) : Bytes := if path = [slash] then [slash] else path ++ [slash]

/-- The entry of a directory for a path, if it is the path of a file in it. -/
def childEntry (directory path : Bytes) : Option DirEntry :=
  let name := path.drop (directoryPrefix directory).length
  if directoryPrefix directory <+: path ∧ name ≠ [] ∧ slash ∉ name then some ⟨name, path⟩ else none

def directoryEntries (files : Map Bytes VFSNode) (directory : Bytes) : Except String (List DirEntry) :=
  let children := files.toList.filterMap fun entry => childEntry directory entry.1
  if children.any fun entry => 255 < entry.name.length || entry.name.contains 0 then
    .error "Invalid captured directory entry name"
  else .ok (⟨[46], directory⟩ :: ⟨[46, 46], pathAbove directory⟩ :: children)

/-- Inodes from here on belong to files of the initial image. -/
def guestInodeLimit : UInt64 := 0x8000000000000000

/-- Files of the initial image have an inode derived from their path. -/
def initialVfsInode (hash : Bytes → UInt64) (path : Bytes) : UInt64 := hash path ||| guestInodeLimit

/-- The inodes of all files, which must be different. -/
def vfsInodes (hash : Bytes → UInt64) (files : Map Bytes VFSNode) : Except String (Map Bytes UInt64) :=
  let inodes := files.toList.map fun entry =>
    (entry.1, if entry.2.metadata.stIno = 0 then initialVfsInode hash entry.1 else entry.2.metadata.stIno)
  if (inodes.map Prod.snd).Nodup then .ok (.ofList inodes) else .error "Captured VFS path inode collision"

/-- The kind of a file in a record. -/
def direntType (mode : UInt32) : UInt8 :=
  if sIsDir mode then 4 else if sIsReg mode then 8 else if sIsLnk mode then 10 else 0

/-- The size of a record with a name, a multiple of eight. -/
def direntLength (name : Bytes) : ℕ := (19 + name.length + 1 + 7) / 8 * 8

/-- The progress of a call: the memory, the index of the next entry, the bytes written, the size of the last record, and
the room that is left. -/
structure Emission (G : Type) where
  memory : G
  offset : ℕ
  written : ℕ := 0
  previous : ℕ := 0
  remaining : Int

section

variable {G : Type} (guest : GuestOs G)

/-- Write a field. One that crosses pages is written only if all of it can be written. -/
def direntScalar (memory : G) (address : ℕ) (bytes : Bytes) : Except String (G × Bool) := do
  if 2 ^ 64 - 1 < address + bytes.length then return (memory, false)
  else if 4096 < address % 4096 + bytes.length then
    if ← guest.writable memory (UInt64.ofNat address) bytes.length false then
      return guest.writeExact memory (UInt64.ofNat address) bytes
    else return (memory, false)
  else return guest.writeExact memory (UInt64.ofNat address) bytes

/-- Write fields until one is refused. -/
def direntScalars : List (ℕ × Bytes) → G → Except String (G × Bool)
  | [], memory => .ok (memory, true)
  | (address, bytes) :: fields, memory => do
    let (memory, accepted) ← direntScalar guest memory address bytes
    if accepted then direntScalars fields memory else return (memory, false)

/-- The offset of the record before, the inode, the size, the kind and the end of the name, and then the name. -/
def writeDirent (emission : Emission G) (start : ℕ) (entry : DirEntry) (inode : UInt64) (mode : UInt32) :
    Except String (G × Bool) := do
  let address := start + emission.written
  let (memory, accepted) ← direntScalars guest [
    (address - emission.previous + 8, Codec.natBytes 8 emission.offset), (address, Codec.natBytes 8 inode.toNat),
    (address + 16, Codec.natBytes 2 (direntLength entry.name)), (address + 18, [direntType mode]),
    (address + 19 + entry.name.length, [0])] emission.memory
  if accepted then return guest.writeExact memory (UInt64.ofNat (address + 19)) entry.name else return (memory, false)

/-- Write the records of entries, and the reason why it stopped before the last one. -/
def emitEntries (files : Map Bytes VFSNode) (inodes : Map Bytes UInt64) (start : ℕ) :
    List DirEntry → Emission G → Except String (Emission G × Int)
  | [], emission => .ok (emission, 0)
  | entry :: rest, emission =>
    let length := direntLength entry.name
    let address := start + emission.written
    if emission.remaining < length then .ok (emission, eInval)
    else if 2 ^ 47 ≤ address ∨ 2 ^ 47 - address < length then .ok (emission, eFault)
    else match inodes[entry.path]?, files[entry.path]? with
      | some inode, some file => do
        let (memory, accepted) ← writeDirent guest emission start entry inode file.metadata.stMode
        if accepted then
          emitEntries files inodes start rest
            ⟨memory, emission.offset + 1, emission.written + length, length, emission.remaining - length⟩
        else .ok ({ emission with memory }, eFault)
      | _, _ => .error "map::at"

namespace NodeIo

variable (hash : Bytes → UInt64) (node : NodeIo G)

/-- The state after a call that has reached an index. -/
def setCursor (fd : Int32) (description : OpenFileDescription) (memory : G) (offset : ℕ) : NodeIo G :=
  { node with memory, fsState := node.setOffset fd description offset }

def doGetdents64 (fd : Int32) (buffer : UInt64) (count : UInt32) : Except String (Int × NodeIo G) :=
  if !node.fdManager.contains fd then node.answer eBadf
  else match node.fsState.openFiles[fd]? with
    | none => node.answer eNotdir
    | some description =>
      match node.fsState.filesystem[description.path]? with
      | none => .error "Directory descriptor has no captured payload"
      | some directory =>
        if !sIsDir directory.metadata.stMode then node.answer eNotdir
        else if description.offset < 0 then .error "Negative captured directory cursor"
        else do
          let inodes ← vfsInodes hash node.fsState.filesystem
          let entries ← directoryEntries node.fsState.filesystem description.path
          let cursor := description.offset.toInt.toNat
          if entries.length ≤ cursor then node.answer 0
          else if count ≠ 0 ∧ buffer < scratchPage + 4096 ∧ scratchPage.toNat < buffer.toNat + count.toNat then
            .error "getdents64 output overlaps reserved scratch page"
          else do
            let (emission, error) ← emitEntries guest node.fsState.filesystem inodes buffer.toNat (entries.drop cursor)
              { memory := node.memory, offset := cursor, remaining := count.toInt32.toInt }
            if emission.previous = 0 then
              .ok (error, node.setCursor fd description emission.memory emission.offset)
            else do
              let (memory, accepted) ← direntScalar guest emission.memory
                (buffer.toNat + emission.written - emission.previous + 8) (Codec.natBytes 8 emission.offset)
              .ok (if accepted then emission.written else eFault,
                node.setCursor fd description memory emission.offset)

end NodeIo

end

end DetSim.Kernel
