import DetSim.Model.Directories
import DetSim.ToMathlib.CursorScans
import DetSim.ToMathlib.Except
import DetSim.Soundness.PendingRuns
import Mathlib

/-! # Scans of directories

A call of `doGetdents64` returns the entries from the cursor of the descriptor on, and moves the cursor past them. The
cursor is an index into the entries as they are at the call, so a scan while files come and go is a scan of a changing
list: an entry that is there all the time is returned exactly once unless it moved over the cursor.
-/

namespace DetSim.Kernel

open CursorScans

variable {G : Type} (guest : GuestOs G)

/-! ## Entries -/

theorem childEntry_path {directory path : Bytes} {entry : DirEntry} (child : childEntry directory path = some entry) :
    entry.path = path ∧ directory.length < path.length ∧ 1 < path.length := by
  obtain ⟨⟨⟨name, rfl⟩, named, -⟩, made⟩ := Option.ite_none_right_eq_some.mp child
  obtain rfl := Option.some.inj made
  have positive : 0 < name.length := by
    rw [List.drop_left] at named
    exact List.length_pos_iff.mpr named
  refine ⟨rfl, ?_⟩
  unfold directoryPrefix
  split
  next root => simp only [root, List.length_append, List.length_singleton]; omega
  next => simp only [List.length_append, List.length_singleton]; omega

theorem length_pathAbove (path : Bytes) : (pathAbove path).length ≤ max 1 path.length := by
  unfold pathAbove parentPath
  have shorter := (path.reverse.dropWhile_sublist (· != slash)).length_le
  rw [List.length_reverse] at shorter
  dsimp only
  split
  · split
    · simp
    · simp only [List.length_reverse, List.length_drop]
      omega
  · omega

/-- No entry of a directory is repeated. -/
theorem directoryEntries_nodup {files : Map Bytes VFSNode} {directory : Bytes} {entries : List DirEntry}
    (listed : directoryEntries files directory = .ok entries) : entries.Nodup := by
  have longer : ∀ entry ∈ files.toList.filterMap fun file => childEntry directory file.1,
      max 1 directory.length < entry.path.length := by
    intro entry member
    obtain ⟨file, -, child⟩ := List.mem_filterMap.mp member
    obtain ⟨same, bounds⟩ := childEntry_path child
    rw [same]
    omega
  unfold directoryEntries at listed
  dsimp only at listed
  split at listed
  · cases listed
  cases listed
  rw [List.nodup_cons, List.nodup_cons, List.mem_cons]
  refine ⟨?_, ?_, ?_⟩
  · rintro (same | member)
    · simp at same
    · exact absurd (longer _ member) (by simp)
  · intro member
    exact absurd (longer _ member) (not_lt.mpr (length_pathAbove directory))
  · refine Std.ExtTreeMap.distinct_keys_toList.filterMap _ ?_
    intro first second different left inLeft right inRight same
    rw [← (childEntry_path inLeft).1, ← (childEntry_path inRight).1, same] at different
    exact different (Std.ReflCmp.compare_self)

/-! ## One call -/

/-- The records of the entries were written one after the other. -/
inductive Written (start : ℕ) : List DirEntry → Emission G → Emission G → Prop
  | none (emission : Emission G) : Written start [] emission emission
  | record {entry : DirEntry} {rest : List DirEntry} {emission last : Emission G} {memory : G} {inode : UInt64}
      {mode : UInt32} (accepted : writeDirent guest emission start entry inode mode = .ok (memory, true))
      (later : Written start rest ⟨memory, emission.offset + 1, emission.written + direntLength entry.name,
        direntLength entry.name, emission.remaining - direntLength entry.name⟩ last) :
      Written start (entry :: rest) emission last

theorem Written.totals {start : ℕ} {entries : List DirEntry} {emission last : Emission G}
    (written : Written guest start entries emission last) : last.offset = emission.offset + entries.length ∧
      emission.written + entries.length ≤ last.written ∧
      (entries = [] → last.previous = emission.previous) ∧ (entries ≠ [] → last.previous ≠ 0) := by
  induction written with
  | none => simp
  | @record entry rest emission last memory inode mode _ _ ih =>
    obtain ⟨offset, written, same, moved⟩ := ih
    dsimp only at offset written same
    have positive : 0 < direntLength entry.name := by
      unfold direntLength
      omega
    rw [List.length_cons]
    refine ⟨by omega, by omega, by simp, fun _ => ?_⟩
    by_cases only : rest = []
    · rw [same only]
      exact positive.ne'
    · exact moved only

/-- The records of some entries are written. Only if there are none there is a reason to stop at the first one. -/
theorem emitEntries_spec {files : Map Bytes VFSNode} {inodes : Map Bytes UInt64} {start : ℕ} {entries : List DirEntry}
    {emission after : Emission G} {error : Int}
    (returned : emitEntries guest files inodes start entries emission = .ok (after, error)) :
    ∃ number ≤ entries.length, ∃ last, Written guest start (entries.take number) emission last ∧
      after.offset = last.offset ∧ after.written = last.written ∧ after.previous = last.previous ∧
      (number = 0 → entries ≠ [] → error < 0) := by
  induction entries generalizing emission with
  | nil =>
    cases returned
    exact ⟨0, le_rfl, _, .none _, rfl, rfl, rfl, by simp⟩
  | cons entry rest ih =>
    unfold emitEntries at returned
    dsimp only at returned
    split_ifs at returned
    · cases returned
      exact ⟨0, Nat.zero_le _, _, .none _, rfl, rfl, rfl, fun _ _ => by decide⟩
    · cases returned
      exact ⟨0, Nat.zero_le _, _, .none _, rfl, rfl, rfl, fun _ _ => by decide⟩
    split at returned
    · obtain ⟨⟨memory, accepted⟩, wrote, continued⟩ := Except.bind_eq_ok.mp returned
      cases accepted with
      | true =>
        obtain ⟨number, inside, last, later, offset, written, previous, -⟩ := ih continued
        exact ⟨number + 1, by simpa using inside, last, .record wrote later, offset, written, previous, by simp⟩
      | false =>
        cases continued
        exact ⟨0, Nat.zero_le _, _, .none _, rfl, rfl, rfl, fun _ _ => by decide⟩
    · cases returned

namespace NodeIo

variable (hash : Bytes → UInt64) {node after : NodeIo G} {fd : Int32} {path : Bytes} {cursor : ℕ}
  {entries : List DirEntry} {buffer : UInt64} {count : UInt32} {result : Int}

/-- A descriptor of a directory, its cursor and the entries of the directory. -/
def Sees (node : NodeIo G) (fd : Int32) (path : Bytes) (cursor : ℕ) (entries : List DirEntry) : Prop :=
  ∃ description, node.fsState.openFiles[fd]? = some description ∧ description.path = path ∧
    description.offset.toInt = cursor ∧ directoryEntries node.fsState.filesystem path = .ok entries ∧
    entries.length < 2 ^ 63

/-- The progress of a call at its start. -/
def emission (node : NodeIo G) (cursor : ℕ) (count : UInt32) : Emission G :=
  { memory := node.memory, offset := cursor, remaining := count.toInt32.toInt }

/-- A call that succeeds writes the records of the entries up to its new cursor and returns their size. There are none
at the end of the directory only. -/
theorem Sees.getdents64 (sees : node.Sees fd path cursor entries)
    (returned : node.doGetdents64 guest hash fd buffer count = .ok (result, after)) (succeeded : 0 ≤ result) :
    ∃ stop last, cursor ≤ stop ∧ after.Sees fd path stop entries ∧
      Written guest buffer.toNat ((entries.drop cursor).take (stop - cursor)) (node.emission cursor count) last ∧
      result = last.written ∧ (result = 0 → entries.length ≤ cursor) := by
  obtain ⟨description, opened, rfl, offset, listed, bounded⟩ := sees
  have moved : ∀ memory number, number ≤ (entries.drop cursor).length →
      (node.setCursor fd description memory (cursor + number)).Sees fd description.path (cursor + number) entries := by
    intro memory number inside
    rw [List.length_drop] at inside
    refine ⟨{ description with offset := Int64.ofNat (cursor + number) }, Std.ExtTreeMap.getElem?_insert_self, rfl, ?_,
      listed, bounded⟩
    refine Int64.toInt_ofNat_of_lt ?_
    have := description.offset.toInt_lt
    omega
  simp only [doGetdents64, opened] at returned
  split at returned
  · cases returned
    exact absurd succeeded (by decide)
  split at returned
  · cases returned
  split at returned
  · cases returned
    exact absurd succeeded (by decide)
  split at returned
  · cases returned
  obtain ⟨inodes, -, returned⟩ := Except.bind_eq_ok.mp returned
  obtain ⟨again, listedAgain, returned⟩ := Except.bind_eq_ok.mp returned
  obtain rfl : entries = again := Except.ok.inj (listed.symm.trans listedAgain)
  rw [offset, Int.toNat_natCast] at returned
  split at returned
  next ended =>
    cases returned
    refine ⟨cursor, node.emission cursor count, le_rfl, ⟨description, opened, rfl, offset, listed, bounded⟩, ?_, rfl,
      fun _ => ended⟩
    rw [Nat.sub_self, List.take_zero]
    exact .none _
  next unended =>
    split at returned
    · cases returned
    obtain ⟨⟨emission, error⟩, emitted, returned⟩ := Except.bind_eq_ok.mp returned
    obtain ⟨number, inside, last, wrote, reached, written, previous, stopped⟩ := emitEntries_spec guest emitted
    obtain ⟨offsets, sizes, unmoved, advanced⟩ := wrote.totals
    have remains : entries.drop cursor ≠ [] := by
      rw [ne_eq, List.drop_eq_nil_iff]
      exact unended
    have empty : (entries.drop cursor).take number = [] ↔ number = 0 := by simp [remains]
    dsimp only at returned offsets unmoved
    split at returned
    next nothing =>
      have none : number = 0 := empty.mp (by_contra fun some => advanced some (previous ▸ nothing))
      cases returned
      exact absurd succeeded (not_le.mpr (stopped none remains))
    next something =>
      obtain ⟨⟨memory, accepted⟩, -, returned⟩ := Except.bind_eq_ok.mp returned
      cases accepted with
      | false =>
        cases returned
        exact absurd (show 0 ≤ eFault from succeeded) (by decide)
      | true =>
        cases returned
        rw [List.length_take_of_le inside] at offsets sizes
        rw [reached, offsets]
        refine ⟨cursor + number, last, Nat.le_add_right .., moved memory number inside, ?_, ?_, ?_⟩
        · rwa [Nat.add_sub_cancel_left]
        · rw [← written]
          rfl
        · intro none
          have empties : number = 0 := by
            have total : (emission.written : Int) = 0 := none
            dsimp only at sizes
            omega
          exact absurd (previous.trans (unmoved (empty.mpr empties))) something

/-! ## Whole scans -/

/-- The scans of a directory with one descriptor: between the calls the files may change in any way. -/
inductive DirectoryRun (fd : Int32) (path : Bytes) : NodeIo G → Scan DirEntry → Prop
  | opened {node : NodeIo G} {entries : List DirEntry} (sees : node.Sees fd path 0 entries) :
      DirectoryRun fd path node { entries, always := (· ∈ entries) }
  | changed {node next : NodeIo G} {scan : Scan DirEntry} (run : DirectoryRun fd path node scan)
      {entries : List DirEntry} (sees : next.Sees fd path scan.cursor entries) :
      DirectoryRun fd path next (scan.change entries)
  | read {node after : NodeIo G} {scan : Scan DirEntry} (run : DirectoryRun fd path node scan) {buffer : UInt64}
      {count : UInt32} {result : Int}
      (returned : node.doGetdents64 guest hash fd buffer count = .ok (result, after)) (some : 0 < result) {stop : ℕ}
      (sees : after.Sees fd path stop scan.entries) : DirectoryRun fd path after (scan.visit stop)

variable {guest hash} {scan : Scan DirEntry}

theorem Sees.unique (sees : node.Sees fd path cursor entries) {other : ℕ} {others : List DirEntry}
    (again : node.Sees fd path other others) : cursor = other := by
  obtain ⟨description, opened, -, offset, -, -⟩ := sees
  obtain ⟨found, openedAgain, -, offsetAgain, -, -⟩ := again
  obtain rfl := Option.some.inj (opened.symm.trans openedAgain)
  exact Int.ofNat_inj.mp (offset.symm.trans offsetAgain)

theorem DirectoryRun.sees (run : DirectoryRun guest hash fd path node scan) :
    node.Sees fd path scan.cursor scan.entries := by
  cases run <;> assumption

theorem Sees.nodup (sees : node.Sees fd path cursor entries) : entries.Nodup := by
  obtain ⟨_, -, -, -, listed, -⟩ := sees
  exact directoryEntries_nodup listed

theorem DirectoryRun.reached (run : DirectoryRun guest hash fd path node scan) : Reached scan := by
  induction run with
  | opened sees => exact .start sees.nodup
  | changed _ sees ih => exact .change ih sees.nodup
  | read run returned some sees ih =>
    obtain ⟨stop, -, forwards, reached, -⟩ := run.sees.getdents64 guest hash returned some.le
    rw [sees.unique reached]
    exact .visit ih forwards

/-- At the end of a scan the entries that were always there were returned exactly once, if and only if each of them
slipped back behind the cursor as often as it jumped ahead of it. What a call of a scan returns are the entries whose
records it writes, and their size. -/
theorem scan_exact_iff (run : DirectoryRun guest hash fd path node scan) :
    (∀ buffer count after, node.doGetdents64 guest hash fd buffer count = .ok (0, after) →
      ((∀ entry, scan.always entry → scan.returned.count entry = 1) ↔
        ∀ entry, scan.always entry → scan.slips entry = scan.jumps entry)) ∧
    ∀ buffer count result after, node.doGetdents64 guest hash fd buffer count = .ok (result, after) → 0 < result →
      ∃ stop records last, DirectoryRun guest hash fd path after (scan.visit stop) ∧
        (scan.visit stop).returned = scan.returned ++ records ∧ result = last.written ∧
        Written guest buffer.toNat records (node.emission scan.cursor count) last := by
  refine ⟨fun buffer count after ended => ?_, fun buffer count result after returned some => ?_⟩
  · obtain ⟨stop, last, -, -, -, -, complete⟩ := run.sees.getdents64 guest hash ended le_rfl
    refine forall₂_congr fun entry always => ?_
    have balance := run.reached.count_complete (complete rfl) always
    omega
  · obtain ⟨stop, last, -, sees, wrote, size, -⟩ := run.sees.getdents64 guest hash returned some.le
    exact ⟨stop, _, last, run.read returned some sees, rfl, size, wrote⟩

end NodeIo

section Repeated

/-- A directory with one file, open at descriptor 3. -/
def oneFile : NodeIo Unit where
  fdManager := FdManager.initial.insert 3 ⟨.file, 0, 0⟩
  fsState := {
    filesystem := ((∅ : Map Bytes VFSNode).insert (asciiBytes "/") ⟨{}, 0, 0o40755, 1, 0, 0⟩)
      |>.insert (asciiBytes "/d") ⟨{}, 0, 0o40755, 2, 0, 0⟩ |>.insert (asciiBytes "/d/b") ⟨{}, 0, 0o100644, 3, 0, 0⟩
    openFiles := (∅ : Map Int32 OpenFileDescription).insert 3 ⟨asciiBytes "/d", 0⟩
    nextInode := 4 }
  sockState := {}
  memory := ()

def plainHash : Bytes → UInt64 := fun _ => 0

def getdents64 (node : NodeIo Unit) : Except String (Int × NodeIo Unit) :=
  node.doGetdents64 zeroMemory plainHash 3 4096 72

/-- The directory with a second file, which is also open. -/
def twoFiles : NodeIo Unit where
  fdManager := oneFile.fdManager.insert 4 ⟨.file, 1, 0⟩
  fsState := { oneFile.fsState with
    filesystem := oneFile.fsState.filesystem.insert (asciiBytes "/d/a") ⟨{}, 0, 0o100644, 4, 0, 0⟩
    openFiles := oneFile.fsState.openFiles.insert 4 ⟨asciiBytes "/d/a", 0⟩
    nextInode := 5 }
  sockState := {}
  memory := ()

def scanned (stop : ℕ) (node : NodeIo Unit) : NodeIo Unit := node.setCursor 3 ⟨asciiBytes "/d", 0⟩ () stop

def fileEntry (name : String) : DirEntry := ⟨asciiBytes name, asciiBytes ("/d/" ++ name)⟩

/-- The entries of the directory with some files. -/
def listing (files : List String) : List DirEntry :=
  ⟨asciiBytes ".", asciiBytes "/d"⟩ :: ⟨asciiBytes "..", asciiBytes "/"⟩ :: files.map fileEntry

theorem scanned_sees {node : NodeIo Unit} {files : List String} {stop : ℕ} (bounded : stop < 2 ^ 63)
    (listed : directoryEntries node.fsState.filesystem (asciiBytes "/d") = .ok (listing files))
    (short : (listing files).length < 2 ^ 63) : (scanned stop node).Sees 3 (asciiBytes "/d") stop (listing files) :=
  ⟨⟨asciiBytes "/d", Int64.ofNat stop⟩, Std.ExtTreeMap.getElem?_insert_self, rfl, Int64.toInt_ofNat_of_lt bounded, listed,
    short⟩

theorem oneFile_sees {stop : ℕ} (bounded : stop < 2 ^ 63) :
    (scanned stop oneFile).Sees 3 (asciiBytes "/d") stop (listing ["b"]) := scanned_sees bounded rfl (by decide)

theorem twoFiles_sees {stop : ℕ} (bounded : stop < 2 ^ 63) :
    (scanned stop twoFiles).Sees 3 (asciiBytes "/d") stop (listing ["a", "b"]) := scanned_sees bounded rfl (by decide)

theorem create_second :
    (scanned 3 oneFile).doOpenat ⟨0, 0⟩ atFdcwd (asciiBytes "/d/a") (oWronly ||| oCreat) 0o644 =
      .ok (4, scanned 3 twoFiles) := by
  let view := (scanned 3 oneFile).fsState.view
  have resolved : (scanned 3 oneFile).fsState.resolveAt (scanned 3 oneFile).fdManager ⟨true, false, true⟩ atFdcwd
      (asciiBytes "/d/a") = .ok (asciiBytes "/d/a") :=
    calc
      _ = walkPath view ⟨true, false, true⟩ 0 (asciiBytes "/") [asciiBytes "d", asciiBytes "a"] := rfl
      _ = walkPath view ⟨true, false, true⟩ 0 (asciiBytes "/d") [asciiBytes "a"] := walkPath.eq_2 ..
      _ = walkPath view ⟨true, false, true⟩ 0 (asciiBytes "/d/a") [] := walkPath.eq_2 ..
      _ = .ok (asciiBytes "/d/a") := walkPath.eq_1 ..
  have mode : (⟨!((oWronly ||| oCreat) &&& oCreat != 0 && (oWronly ||| oCreat) &&& oExcl != 0) &&
      (oWronly ||| oCreat) &&& oNofollow == 0, false, (oWronly ||| oCreat) &&& oCreat != 0⟩ : WalkMode) =
      ⟨true, false, true⟩ := rfl
  unfold NodeIo.doOpenat
  dsimp only
  rw [mode, resolved]
  rfl

/-- After two entries a file is created. The next call returns it and the one that was there, once. -/
theorem scan_exact_iff_created : ∃ (node : NodeIo Unit) (scan : Scan DirEntry), scan.entries = listing ["a", "b"] ∧
    scan.always (fileEntry "b") ∧ getdents64 node = .ok (0, node) ∧
    ∀ entry, scan.always entry → scan.returned.count entry = 1 := by
  have two : (scanned 0 oneFile).doGetdents64 zeroMemory plainHash 3 4096 48 = .ok (48, scanned 2 oneFile) := rfl
  have more : getdents64 (scanned 2 twoFiles) = .ok (48, scanned 4 twoFiles) := rfl
  have run := (((NodeIo.DirectoryRun.opened (oneFile_sees (by decide))).read two (by decide)
    (oneFile_sees (by decide))).changed (twoFiles_sees (by decide))).read more (by decide) (twoFiles_sees (by decide))
  have ended : getdents64 (scanned 4 twoFiles) = .ok (0, scanned 4 twoFiles) := rfl
  have always : fileEntry "b" ∈ listing ["b"] ∧ fileEntry "b" ∈ listing ["a", "b"] := by decide
  have balanced : ∀ entry ∈ listing ["b"], 0 + (passed entry (listing ["b"]) 2 - passed entry (listing ["a", "b"]) 2) =
      0 + (passed entry (listing ["a", "b"]) 2 - passed entry (listing ["b"]) 2) := by decide
  exact ⟨_, _, rfl, always, ended,
    ((NodeIo.scan_exact_iff run).1 _ _ _ ended).mpr fun entry always => balanced entry always.1⟩

/-- After three entries were returned a file is created whose name comes before that of the last one. The next call
returns that one again. -/
theorem entry_repeated : ∃ (first created second last : NodeIo Unit) (scan : Scan DirEntry),
    getdents64 oneFile = .ok (72, first) ∧
    first.doOpenat ⟨0, 0⟩ atFdcwd (asciiBytes "/d/a") (oWronly ||| oCreat) 0o644 = .ok (4, created) ∧
    getdents64 created = .ok (24, second) ∧ getdents64 second = .ok (0, last) ∧
    NodeIo.DirectoryRun zeroMemory plainHash 3 (asciiBytes "/d") second scan ∧
    scan.always (fileEntry "b") ∧ scan.returned.count (fileEntry "b") = 2 := by
  have first : getdents64 (scanned 0 oneFile) = .ok (72, scanned 3 oneFile) := rfl
  have listed : getdents64 (scanned 3 twoFiles) = .ok (24, scanned 4 twoFiles) := rfl
  have run := (((NodeIo.DirectoryRun.opened (oneFile_sees (by decide))).read first (by decide)
    (oneFile_sees (by decide))).changed (twoFiles_sees (by decide))).read listed (by decide) (twoFiles_sees (by decide))
  have always : fileEntry "b" ∈ listing ["b"] ∧ fileEntry "b" ∈ listing ["a", "b"] := by decide
  exact ⟨_, _, _, _, _, rfl, create_second, listed, rfl, run, always, by decide⟩

end Repeated

end DetSim.Kernel
