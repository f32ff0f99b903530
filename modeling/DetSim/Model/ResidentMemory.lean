import Mathlib
import DetSim.Model.PageSnapshot
import DetSim.Model.StateValidation

/-! # Resident memory

While a search runs, the tracer remembers for each node which saved snapshot its process holds, with an index of the
pages of that snapshot. A publication replaces the image. Writes and resumes take it back, and leave the weaker claim
that some read-only regions still hold their saved bytes.

The objects of a store do not change within one of its generations. What the host answers comes with each operation:
whether an object can be served, a process bound and a bound process found running, and which regions are mapped from
files that are still there. The four pages a snapshot keeps do not change what it returns and are left out. A search
turns resident memory on with a table of empty entries and clears it at its end, so the table is that of one search.
-/

namespace DetSim.Resident

open Kernel (Bytes scratchPage)
open Snapshot

/-- The objects of a store by their keys. -/
abbrev Store := UInt64 → Option Bytes

/-- `SnapshotView::open`. -/
def openSnapshot (store : Store) (root : UInt64) : Checked SnapshotView :=
  match store root with
  | none => .error (.thrown "Missing snapshot")
  | some data => snapshotView pageSize data

structure Page extends OwnedSpan where
  key : UInt64
deriving DecidableEq, Repr

structure Pages where
  values : List Page
  offsets : List ℕ
deriving DecidableEq, Repr

structure Image where
  snapshot : SnapshotView
  root : UInt64
  brk : UInt64
  pages : Pages
deriving DecidableEq, Repr

/-- `Image::page`. -/
def Image.page (image : Image) (region index : ℕ) : Checked Page :=
  match image.pages.offsets[region]? with
  | none => .error (.thrown "Resident page region out of range")
  | some first => do
    let stop := (image.pages.offsets[region + 1]?).getD image.pages.values.length
    require (index < (← sub64 stop first)) "Resident page index out of range"
    match image.pages.values[first + index]? with
    | none => .error .outside
    | some page => .ok page

/-! ## Loading the pages of a snapshot -/

section Loading

variable (store : Store) (view : SnapshotView) (hint : Option Image)

def paged : Bool := view.header.version == pageSnapshotVersion

/-- The references of a paged snapshot, and none for a flat one. -/
def references : List PageRef := if paged view then view.pages else []

def pageCount (region : ℕ) : ℕ := (view.regions[region]?).elim 0 RegionInfo.pageCount

def sameGeometry (before after : SnapshotView) : Bool :=
  before.mapsText == after.mapsText && before.regions == after.regions

/-- The hint, if its pages stand at the same places. -/
def matchingHint : Option Image :=
  hint.filter fun hint => paged hint.snapshot && !(references view).isEmpty && sameGeometry hint.snapshot view

/-- The page of the snapshot itself. -/
def freshPage (region index : ℕ) (key : UInt64) : Checked Page :=
  (view.page store region index {}).1.map fun span => { span with key }

/-- One round of the loop, after the given number of pages. A page of the hint with the same key is taken over. -/
def loadPage (position region index : ℕ) : Checked Page :=
  if (references view).isEmpty then freshPage store view region index 0
  else match (references view)[position]? with
    | none => .error .outside
    | some desired =>
      match if desired.key = 0 then none else matchingHint view hint with
      | none => freshPage store view region index desired.key
      | some hint => do
        let old ← hint.page region index
        if old.key = desired.key ∧ old.address = desired.address.toNat ∧ old.length = desired.length.toNat then
          return old
        else freshPage store view region index desired.key

def loadRegion (pages : Pages) (region : ℕ) : Checked Pages := do
  let values ← (List.range (pageCount view region)).foldlM (fun values index => do
    return values ++ [← loadPage store view hint values.length region index]) pages.values
  return { values, offsets := pages.offsets ++ [pages.values.length] }

/-- The pages of a new image: those of the hint if all its references and its geometry are the same. -/
def residentPages : Checked Pages :=
  match hint.filter fun hint => paged view && paged hint.snapshot && sameGeometry hint.snapshot view &&
      hint.snapshot.pages == view.pages with
  | some hint => .ok hint.pages
  | none => (List.range view.regions.length).foldlM (loadRegion store view hint) ⟨[], []⟩

end Loading

/-! ## Entries -/

structure Entry where
  pid : Int32 := 0
  /-- The process is bound by a descriptor. -/
  bound : Bool := false
  generation : ℕ := 0
  image : Option Image := none
  protectedImage : Option Image := none
  /-- Saved objects only, never a claim about the process. -/
  objectHint : Option Image := none
  heapBrk : Option UInt64 := none
  protectedValid : List Bool := []
  eligibleMaps : Bytes := []
  eligible : List Bool := []
deriving DecidableEq, Repr

namespace Entry

variable (entry : Entry)

def demote : Entry :=
  match entry.image with
  | none => entry
  | some image => { entry with image := none, protectedImage := some image, protectedValid := entry.eligible }

def invalidate : Entry :=
  { entry with image := none, heapBrk := none, protectedImage := none, protectedValid := [] }

/-- A range of addresses meets a region. -/
def overlaps (address length : ℕ) (region : RegionInfo) : Prop :=
  address < region.stop.toNat ∧ region.start.toNat < address + length

instance decidableOverlaps (address length : ℕ) (region : RegionInfo) : Decidable (overlaps address length region) :=
  inferInstanceAs (Decidable (_ ∧ _))

/-- The regions that a write does not meet stay valid. The source indexes the flags by the regions. -/
def write (address length : ℕ) : Entry :=
  let entry := entry.demote
  match entry.protectedImage with
  | none => entry
  | some image => { entry with protectedValid := entry.protectedValid.mapIdx fun index valid =>
      valid && !(image.snapshot.regions[index]?).any fun region => overlaps address length region }

/-- `describe_protected`. The host knows which regions are private read-only mappings of unchanged files. -/
def describeProtected (mapped : Bytes → RegionInfo → Bool) (snapshot : SnapshotView) : Entry :=
  if entry.eligibleMaps = snapshot.mapsText then entry
  else { entry with
    eligibleMaps := snapshot.mapsText
    eligible := snapshot.regions.map fun region =>
      mapped snapshot.mapsText region && region.prot &&& 1 != 0 && region.prot &&& 2 == 0 }

/-- What the host does for a publication. -/
structure Service where
  served : Bool
  binds : Bool
  mapped : Bytes → RegionInfo → Bool

/-- `publish`, for the entry of the node. -/
def publish (store : Store) (generation : ℕ) (service : Service) (pid : Int32) (root brk : UInt64) :
    Entry × Checked Unit :=
  let entry := if entry.pid ≠ pid ∨ entry.generation ≠ generation then {} else entry
  match if service.served then openSnapshot store root else .error (.thrown "Cannot read the store") with
  | .error abort => (entry, .error abort)
  | .ok snapshot =>
    -- An entry without an image has root zero.
    if entry.pid = pid ∧ entry.image.elim 0 Image.root = root ∧ entry.generation = generation then
      ({ entry with heapBrk := some brk }, .ok ())
    else match residentPages store snapshot entry.objectHint with
      | .error abort => (entry, .error abort)
      | .ok pages =>
        let rebind := decide (entry.pid ≠ pid) || !entry.bound
        if rebind && !service.binds then ({}, .error (.thrown "Cannot bind resident image to owned process"))
        else
          let entry : Entry := if rebind then { pid, bound := true } else entry
          let entry := { entry with generation }.describeProtected service.mapped snapshot
          let image : Image := ⟨snapshot, root, brk, pages⟩
          ({ entry with image := some image, heapBrk := some brk, objectHint := some image, protectedImage := none,
                        protectedValid := [] }, .ok ())

end Entry

/-! ## The table of all nodes -/

/-- The process of each node, and the threads of the processes. -/
structure Processes (np : ℕ) where
  pids : Fin np → Int32
  threads : Fin np → List Int32

structure Registry (np : ℕ) where
  generation : ℕ := 0
  processes : Processes np
  entries : Fin np → Entry := fun _ => {}

/-- How a thread is resumed. -/
inductive Resume
  | readOnly
  | guarded
  | unprotected
deriving DecidableEq, Repr

/-- What the host answers a check: the mode of captures, and whether the bound process runs. -/
structure Probe where
  fullCapture : Bool
  running : Bool

namespace Registry

variable {np : ℕ} (state : Registry np)

def nodeFor (tid : Int32) : Option (Fin np) :=
  (List.finRange np).find? fun node => state.processes.pids node = tid || tid ∈ state.processes.threads node

def set (node : Fin np) (entry : Entry) : Registry np :=
  { state with entries := Function.update state.entries node entry }

def invalidateAll : Registry np := { state with entries := fun _ => {} }

/-- The entry of a node if it can be relied on. -/
def checked (probe : Probe) (pid : Int32) : Option (Fin np) × Registry np :=
  if probe.fullCapture then (none, state)
  else match state.nodeFor pid with
    | none => (none, state)
    | some node =>
      let entry := state.entries node
      if entry.pid ≠ state.processes.pids node ∨ entry.generation ≠ state.generation ∨ !entry.bound ∨ !probe.running then
        (none, state.set node {})
      else (some node, state)

/-- `get`: the image that is reported. -/
def get (probe : Probe) (pid : Int32) : Option Image :=
  (state.checked probe pid).1.bind fun node => (state.entries node).image

/-- `get_read_only` and `ReadOnlyImage::region`: a region is reported to hold its saved bytes. -/
def readOnlyRegion (probe : Probe) (pid : Int32) (index : ℕ) (start stop : UInt64) (protection : UInt32) : Bool :=
  (state.checked probe pid).1.any fun node => (state.entries node).protectedImage.any fun image =>
    (state.entries node).protectedValid[index]? == some true && (image.snapshot.regions[index]?).any fun region =>
      region.start == start && region.stop == stop && region.prot == protection

def invalidate (tid : Int32) : Registry np :=
  match state.nodeFor tid with
  | none => state.invalidateAll
  | some node => state.set node (state.entries node).invalidate

/-- A write that stays in the scratch page. -/
def inScratch (address : UInt64) (length : ℕ) : Prop :=
  scratchPage ≤ address ∧ address - scratchPage < 4096 ∧ length ≤ 4096 - (address - scratchPage).toNat

instance decidableInScratch (address : UInt64) (length : ℕ) : Decidable (inScratch address length) :=
  inferInstanceAs (Decidable (_ ∧ _))

def writing (tid : Int32) (address : UInt64) (length : ℕ) : Registry np :=
  if length = 0 ∨ inScratch address length then state
  else match state.nodeFor tid with
    | none => state.invalidateAll
    | some node =>
      let entry := state.entries node
      if uint64Max - address.toNat < length then state.invalidateAll
      else if entry.pid ≠ state.processes.pids node ∨ entry.generation ≠ state.generation then state.set node {}
      else state.set node (entry.write address.toNat length)

def resuming (probe : Probe) (tid : Int32) : Resume → Registry np
  | .readOnly => state
  | .unprotected => state.invalidate tid
  | .guarded =>
    match state.checked probe tid with
    | (some node, state) => state.set node (state.entries node).demote
    | (none, state) => state.invalidate tid

def publish (contents : ℕ → Store) (service : Entry.Service) (pid : Int32) (root brk : UInt64) : Registry np :=
  match state.nodeFor pid with
  | none => state
  | some node =>
    if pid ≠ state.processes.pids node then state
    else state.set node
      ((state.entries node).publish (contents state.generation) state.generation service pid root brk).1

end Registry

inductive Op (np : ℕ)
  | publish (service : Entry.Service) (pid : Int32) (root brk : UInt64)
  | writing (tid : Int32) (address : UInt64) (length : ℕ)
  | resuming (probe : Probe) (tid : Int32) (kind : Resume)
  | invalidate (tid : Int32)
  | invalidateAll
  | get (probe : Probe) (pid : Int32)
  | reopen (generation : ℕ)
  | processes (processes : Processes np)

namespace Registry

variable {np : ℕ} (contents : ℕ → Store)

def step (state : Registry np) : Op np → Registry np
  | .publish service pid root brk => state.publish contents service pid root brk
  | .writing tid address length => state.writing tid address length
  | .resuming probe tid kind => state.resuming probe tid kind
  | .invalidate tid => state.invalidate tid
  | .invalidateAll => state.invalidateAll
  | .get probe pid => (state.checked probe pid).2
  | .reopen generation => { state with generation }
  | .processes processes => { state with processes }

def run (state : Registry np) (ops : List (Op np)) : Registry np := ops.foldl (step contents) state

end Registry

end DetSim.Resident
