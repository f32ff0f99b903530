import DetSim.Model.KernelState

/-! # Path resolution in the virtual file system

Paths are resolved one component at a time over the captured files, following symbolic links. A walk
sees of a file only its mode and its bytes.
-/

namespace DetSim.Kernel

/-- The byte of a slash. -/
def slash : UInt8 := 47

def sIsType (mode kind : UInt32) : Bool := mode &&& 0o170000 == kind
def sIsDir (mode : UInt32) : Bool := sIsType mode 0o040000
def sIsReg (mode : UInt32) : Bool := sIsType mode 0o100000
def sIsLnk (mode : UInt32) : Bool := sIsType mode 0o120000

/-- What a walk reads of each path: the mode and the bytes of its file. -/
abbrev FileView := Bytes → Option (UInt32 × Bytes)

def FileSystemState.view (state : FileSystemState) : FileView := fun path =>
  state.filesystem[path]?.map fun node => (node.metadata.stMode, node.content.bytes)

inductive PathError
  | errno (code : Int32)
  | thrown (message : String) (path : Bytes)
deriving DecidableEq, Repr

def joinPaths (base rel : Bytes) : Bytes :=
  if rel.isEmpty then base
  else if rel.head? == some slash then rel
  else if base.isEmpty || base == [slash] then slash :: rel
  else if base.getLast? == some slash then base ++ rel
  else base ++ slash :: rel

/-- The components of a path in front of those still to be walked. A final slash asks for a directory. -/
def prependPath (value : Bytes) (pending : List Bytes) : List Bytes :=
  (value.splitOn slash).filter (!·.isEmpty) ++
    (if value.getLast? == some slash && pending.isEmpty then [[]] else []) ++ pending

/-- The directory above. -/
def parentPath (path : Bytes) : Bytes :=
  let above := (path.reverse.dropWhile (· != slash)).drop 1
  if above.isEmpty then [slash] else above.reverse

structure WalkMode where
  followFinal : Bool := true
  checkSearch : Bool := false
  creating : Bool := false

/-- Walk the pending components from a directory. At most 40 links are followed. -/
def walkPath (view : FileView) (mode : WalkMode) (links : ℕ) (current : Bytes) :
    List Bytes → Except PathError Bytes
  | [] => .ok current
  | part :: pending =>
    match view current with
    | none => .error (.errno (-2))
    | some (directory, _) =>
      if !sIsDir directory then .error (.errno (-20))
      else if mode.checkSearch && directory &&& 0o111 != 0o111 then
        .error (.thrown "VFS search permission requires captured credentials: " current)
      else if mode.creating && pending == [[]] then .error (.errno (-21))
      else if 255 < part.length then .error (.errno (-36))
      else if part.isEmpty || part == [46] then walkPath view mode links current pending
      else if part == [46, 46] then walkPath view mode links (parentPath current) pending
      else
        let next := joinPaths current part
        match view next with
        | some (kind, target) =>
          if sIsLnk kind && (!pending.isEmpty || mode.followFinal) then
            if links < 40 then
              if target.isEmpty then .error (.errno (-2))
              else if target.contains 0 then
                .error (.thrown "Captured symlink contains a null byte: " next)
              else
                walkPath view mode (links + 1) (if target.head? == some slash then [slash] else current)
                  (prependPath target pending)
            else .error (.errno (-40))
          else walkPath view mode links next pending
        | none => walkPath view mode links next pending
termination_by pending => (40 - links, pending.length)

/-- Resolve a path against the working directory. -/
def resolvePathChecked (view : FileView) (mode : WalkMode) (cwd path : Bytes) : Except PathError Bytes :=
  if path.isEmpty then .error (.errno (-2))
  else
    let start := if path.head? == some slash || cwd.isEmpty then [slash] else cwd
    walkPath view mode 0 start (prependPath path [])

end DetSim.Kernel
