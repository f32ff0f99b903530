import DetSim.Model.KernelState
import DetSim.ToMathlib.Packed

/-! # Memory snapshots

A snapshot is one block of bytes: a header, a table of memory regions, the serialized process state, the
text of the mappings, the memory and the registers. A flat snapshot holds the bytes of the regions; a paged
snapshot holds references to pages in the state store. Opening a snapshot validates every section, and
reading memory goes chunk by chunk, one page at most at a time.

The arithmetic of the source is on 64-bit numbers and its copies are unchecked. Here both are checked, so
that an overflow or an access outside the block is an outcome of its own.
-/

namespace DetSim.Snapshot

open Kernel (Bytes)

/-! ## Layout -/

def pageSize : ℕ := 4096

def snapshotMagic : UInt32 := 0x4453544D

def flatSnapshotVersion : UInt32 := 37

def pageSnapshotVersion : UInt32 := 38

def uint32Max : ℕ := 2 ^ 32 - 1

def uint64Max : ℕ := 2 ^ 64 - 1

/-- The size of the registers in a snapshot. -/
def regsSize : ℕ := 216

structure StateDataHeader where
  magic : UInt32
  version : UInt32
  numRegions : UInt32
  tstateOffset : UInt64
  tstateSize : UInt64
  mapsOffset : UInt64
  mapsSize : UInt64
  regsOffset : UInt64
deriving DecidableEq, Repr

structure PageManifestHeader where
  common : StateDataHeader
  pageSize : UInt32
  pageCount : UInt32
  pagesOffset : UInt64
deriving DecidableEq, Repr

/-- The permissions of a mapping as text, with the final zero. -/
structure Flags where
  read : UInt8
  write : UInt8
  execute : UInt8
  sharing : UInt8
  terminator : UInt8
deriving DecidableEq, Repr

/-- A memory region. Its offset is a position in the block, or the index of its first page. -/
structure RegionInfo where
  start : UInt64
  stop : UInt64
  offset : UInt64
  prot : UInt32
  flags : Flags
deriving DecidableEq, Repr

structure PageRef where
  address : UInt64
  length : UInt32
  key : UInt64
deriving DecidableEq, Repr

section Records

open Packed

def stateDataHeader : Packed StateDataHeader :=
  (uint32.prod (uint32.prod (uint32.prod (uint64.prod (uint64.prod (uint64.prod (uint64.prod uint64))))))).ofEquiv
    { toFun := fun h => (h.magic, h.version, h.numRegions, h.tstateOffset, h.tstateSize, h.mapsOffset, h.mapsSize,
        h.regsOffset)
      invFun := fun t => ⟨t.1, t.2.1, t.2.2.1, t.2.2.2.1, t.2.2.2.2.1, t.2.2.2.2.2.1, t.2.2.2.2.2.2.1, t.2.2.2.2.2.2.2⟩
      left_inv := fun _ => rfl
      right_inv := fun _ => rfl }

def pageManifestHeader : Packed PageManifestHeader :=
  (stateDataHeader.prod (uint32.prod (uint32.prod uint64))).ofEquiv
    { toFun := fun h => (h.common, h.pageSize, h.pageCount, h.pagesOffset)
      invFun := fun t => ⟨t.1, t.2.1, t.2.2.1, t.2.2.2⟩
      left_inv := fun _ => rfl
      right_inv := fun _ => rfl }

def flagsText : Packed Flags :=
  (uint8.prod (uint8.prod (uint8.prod (uint8.prod uint8)))).ofEquiv
    { toFun := fun f => (f.read, f.write, f.execute, f.sharing, f.terminator)
      invFun := fun t => ⟨t.1, t.2.1, t.2.2.1, t.2.2.2.1, t.2.2.2.2⟩
      left_inv := fun _ => rfl
      right_inv := fun _ => rfl }

def regionInfo : Packed RegionInfo :=
  (uint64.prod (uint64.prod (uint64.prod (uint32.prod flagsText)))).ofEquiv
    { toFun := fun r => (r.start, r.stop, r.offset, r.prot, r.flags)
      invFun := fun t => ⟨t.1, t.2.1, t.2.2.1, t.2.2.2.1, t.2.2.2.2⟩
      left_inv := fun _ => rfl
      right_inv := fun _ => rfl }

def pageRef : Packed PageRef :=
  (uint64.prod (uint32.prod uint64)).ofEquiv
    { toFun := fun p => (p.address, p.length, p.key)
      invFun := fun t => ⟨t.1, t.2.1, t.2.2⟩
      left_inv := fun _ => rfl
      right_inv := fun _ => rfl }

end Records

/-- How much of a page lies between an address in it and the end of its region. -/
def chunkLength (address stop : ℕ) : ℕ := min (stop - address) (pageSize - address % pageSize)

/-! ## Writing -/

/-- `memcpy` into a buffer. -/
def copyInto (buffer : Bytes) (offset : ℕ) (source : Bytes) : Bytes :=
  buffer.take offset ++ source ++ buffer.drop (offset + source.length)

def manifestHeader (regions : List RegionInfo) (metadata maps : Bytes) (pages : List PageRef) : PageManifestHeader :=
  let tstateOffset := pageManifestHeader.size + regions.length * regionInfo.size
  let mapsOffset := tstateOffset + metadata.length
  let pagesOffset := mapsOffset + maps.length
  { common := {
      magic := snapshotMagic
      version := pageSnapshotVersion
      numRegions := UInt32.ofNat regions.length
      tstateOffset := UInt64.ofNat tstateOffset
      tstateSize := UInt64.ofNat metadata.length
      mapsOffset := UInt64.ofNat mapsOffset
      mapsSize := UInt64.ofNat maps.length
      regsOffset := UInt64.ofNat (pagesOffset + pages.length * pageRef.size) }
    pageSize := UInt32.ofNat pageSize
    pageCount := UInt32.ofNat pages.length
    pagesOffset := UInt64.ofNat pagesOffset }

def encodePageManifest (regions : List RegionInfo) (metadata maps regs : Bytes) (pages : List PageRef) :
    Except String Bytes :=
  if uint32Max < regions.length ∨ uint32Max < pages.length ∨ uint32Max < metadata.length ∨ uint32Max < maps.length then
    .error "Page manifest table exceeds format limits"
  else
    let h := manifestHeader regions metadata maps pages
    let common := h.common
    if uint32Max - regsSize < common.regsOffset.toNat then .error "Page manifest exceeds store limit"
    else
      let result := List.replicate (common.regsOffset.toNat + regsSize) 0
      let result := copyInto result 0 (pageManifestHeader.pack h)
      let result := copyInto result pageManifestHeader.size (regionInfo.packTable regions)
      let result := copyInto result common.tstateOffset.toNat metadata
      let result := copyInto result common.mapsOffset.toNat maps
      let result := copyInto result h.pagesOffset.toNat (pageRef.packTable pages)
      .ok (copyInto result common.regsOffset.toNat regs)

/-! ## Opening -/

/-- How a computation ends early: an exception, a 64-bit result that wraps around, an access outside the
block, or a loop that does not come to an end. -/
inductive Abort
  | thrown (message : String)
  | wrapped
  | outside
  | diverged
deriving DecidableEq, Repr

abbrev Checked := Except Abort

def require (valid : Prop) [Decidable valid] (message : String) : Checked Unit :=
  if valid then .ok () else .error (.thrown message)

def add64 (a b : ℕ) : Checked ℕ := if a + b ≤ uint64Max then .ok (a + b) else .error .wrapped

def sub64 (a b : ℕ) : Checked ℕ := if b ≤ a then .ok (a - b) else .error .wrapped

def mul64 (a b : ℕ) : Checked ℕ := if a * b ≤ uint64Max then .ok (a * b) else .error .wrapped

/-- Copy out of the block. -/
def slice (data : Bytes) (offset length : ℕ) : Checked Bytes :=
  if offset + length ≤ data.length then .ok ((data.drop offset).take length) else .error .outside

def bounds (data : Bytes) (offset length : ℕ) : Checked Bool := do
  if offset ≤ data.length then
    let room ← sub64 data.length offset
    return length ≤ room
  else return false

structure SnapshotView where
  data : Bytes
  header : StateDataHeader
  regions : List RegionInfo
  pages : List PageRef
  regs : Bytes
deriving DecidableEq, Repr

def ascii (character : Char) : UInt8 := UInt8.ofNat character.toNat

/-- `PROT_READ`, `PROT_WRITE` and `PROT_EXEC` of the text. -/
def Flags.prot (flags : Flags) : UInt32 :=
  (if flags.read = ascii 'r' then 1 else 0) ||| (if flags.write = ascii 'w' then 2 else 0) |||
    (if flags.execute = ascii 'x' then 4 else 0)

def RegionInfo.validProtection (region : RegionInfo) : Bool :=
  let flags := region.flags
  (flags.read = ascii 'r' ∨ (flags.read = ascii '-' ∧ flags.write = ascii '-' ∧ flags.execute = ascii '-' ∧
      flags.sharing = ascii 'p')) ∧
    (flags.write = ascii 'w' ∨ flags.write = ascii '-') ∧ (flags.execute = ascii 'x' ∨ flags.execute = ascii '-') ∧
    flags.sharing = ascii 'p' ∧ flags.terminator = 0 ∧ region.prot = flags.prot

/-- The sections of the block lie inside it. -/
def sectionsInside (data : Bytes) (header : StateDataHeader) (headerSize : ℕ) : Checked Bool :=
  pure (decide (headerSize ≤ data.length)) <&&> (do
    let room ← sub64 data.length headerSize
    return header.numRegions.toNat ≤ room / regionInfo.size) <&&>
  pure (decide (header.tstateSize ≠ 0)) <&&>
  bounds data header.tstateOffset.toNat header.tstateSize.toNat <&&>
  bounds data header.mapsOffset.toNat header.mapsSize.toNat <&&>
  bounds data header.regsOffset.toNat regsSize

/-- The sections follow each other. -/
def sectionsOrdered (data : Bytes) (header : StateDataHeader) (headerSize : ℕ) : Checked Bool :=
  (do
    let table ← mul64 header.numRegions.toNat regionInfo.size
    let offset ← add64 headerSize table
    return header.tstateOffset.toNat = offset) <&&> (do
    let offset ← add64 header.tstateOffset.toNat header.tstateSize.toNat
    return header.mapsOffset.toNat = offset) <&&> (do
    let offset ← add64 header.mapsOffset.toNat header.mapsSize.toNat
    return offset ≤ header.regsOffset.toNat) <&&> (do
    let stop ← add64 header.regsOffset.toNat regsSize
    return stop = data.length)

/-- The page table lies between the mappings and the registers. -/
def pagesInside (data : Bytes) (h : PageManifestHeader) : Checked Bool :=
  (do
    let offset ← add64 h.common.mapsOffset.toNat h.common.mapsSize.toNat
    return h.pagesOffset.toNat = offset) <&&> (do
    let table ← mul64 h.pageCount.toNat pageRef.size
    bounds data h.pagesOffset.toNat table) <&&> (do
    let table ← mul64 h.pageCount.toNat pageRef.size
    let offset ← add64 h.pagesOffset.toNat table
    return offset = h.common.regsOffset.toNat)

/-- The pages of one region, from an address on. What is returned are the pages after them, with the index
of the first. -/
def coverRegion (stop : ℕ) : ℕ → ℕ → List PageRef → Checked (ℕ × List PageRef)
  | address, nextData, rest =>
    if address < stop then
      match rest with
      | [] => .error (.thrown "Missing page manifest coverage")
      | page :: rest => do
        let nextData ← add64 nextData 1
        let length := chunkLength address stop
        require (page.address.toNat = address ∧ page.length.toNat = length ∧ page.key ≠ 0)
          "Invalid page manifest coverage or key"
        let address ← add64 address length
        coverRegion stop address nextData rest
    else .ok (nextData, rest)

/-- Validate the regions one after the other, and return where their memory ends. -/
def checkRegions (paged : Bool) (regsOffset : ℕ) : List RegionInfo → ℕ → ℕ → List PageRef → Checked ℕ
  | [], _, nextData, _ => .ok nextData
  | region :: regions, previousEnd, nextData, rest => do
    require region.validProtection "Invalid snapshot memory region protection"
    require (region.start < region.stop ∧ previousEnd ≤ region.start.toNat ∧ region.offset.toNat = nextData)
      "Invalid snapshot memory region"
    if paged then
      let (nextData, rest) ← coverRegion region.stop.toNat region.start.toNat nextData rest
      checkRegions paged regsOffset regions region.stop.toNat nextData rest
    else
      require (region.offset.toNat ≤ regsOffset) "Invalid snapshot memory extent"
      let extent ← sub64 region.stop.toNat region.start.toNat
      let room ← sub64 regsOffset region.offset.toNat
      require (extent ≤ room) "Invalid snapshot memory extent"
      let nextData ← add64 nextData extent
      checkRegions paged regsOffset regions region.stop.toNat nextData rest

/-- The page table of a paged snapshot, on a host with pages of the given size. -/
def readPages (hostPageSize : ℕ) (data : Bytes) : Checked (List PageRef) := do
  let h := pageManifestHeader.unpack (← slice data 0 pageManifestHeader.size)
  require (hostPageSize = pageSize ∧ h.pageSize.toNat = pageSize) "Unsupported page snapshot page size"
  require ((← pagesInside data h) = true) "Invalid page manifest section bounds"
  return pageRef.unpackTable h.pageCount.toNat (← slice data h.pagesOffset.toNat (h.pageCount.toNat * pageRef.size))

/-- The constructor `SnapshotView::SnapshotView`. -/
def snapshotView (hostPageSize : ℕ) (data : Bytes) : Checked SnapshotView := do
  require (stateDataHeader.size ≤ data.length) "Truncated state snapshot header"
  let header := stateDataHeader.unpack (← slice data 0 stateDataHeader.size)
  require (header.magic = snapshotMagic ∧
    (header.version = flatSnapshotVersion ∨ header.version = pageSnapshotVersion)) "Incompatible state snapshot version"
  let paged := decide (header.version = pageSnapshotVersion)
  let headerSize := if paged then pageManifestHeader.size else stateDataHeader.size
  require ((← sectionsInside data header headerSize) = true) "Invalid snapshot section bounds"
  require ((← sectionsOrdered data header headerSize) = true) "Invalid snapshot section ordering"
  let count := header.numRegions.toNat
  let regions := regionInfo.unpackTable count (← slice data headerSize (count * regionInfo.size))
  let regs ← slice data header.regsOffset.toNat regsSize
  let pages ← if paged then readPages hostPageSize data else pure []
  let first ← if paged then pure 0 else add64 header.mapsOffset.toNat header.mapsSize.toNat
  let nextData ← checkRegions paged header.regsOffset.toNat regions 0 first pages
  require (nextData = if paged then pages.length else header.regsOffset.toNat) "Invalid snapshot memory extent"
  return { data, header, regions, pages, regs }

namespace SnapshotView

def metadata (view : SnapshotView) : Bytes :=
  (view.data.drop view.header.tstateOffset.toNat).take view.header.tstateSize.toNat

def mapsText (view : SnapshotView) : Bytes :=
  (view.data.drop view.header.mapsOffset.toNat).take view.header.mapsSize.toNat

end SnapshotView

/-! ## Reading memory -/

/-- A chunk of memory that lies in one page. -/
structure OwnedSpan where
  address : ℕ
  length : ℕ
  bytes : Bytes
deriving DecidableEq, Repr

/-- One of the pages a paged snapshot keeps. -/
structure CachedPage where
  key : UInt64 := 0
  bytes : Option Bytes := none
deriving DecidableEq, Repr

/-- The pages kept, and which of them is replaced next. -/
structure PageCache where
  cachedPages : List CachedPage := List.replicate 4 {}
  nextPage : ℕ := 0
deriving DecidableEq, Repr

/-- Where a chunk of a region begins. -/
def pageAddress (start index : ℕ) : ℕ := if index = 0 then start else (start / pageSize + index) * pageSize

def flatAddress (start index : ℕ) : Checked ℕ :=
  if index = 0 then pure start else do
    let number ← add64 (start / pageSize) index
    mul64 number pageSize

/-- `FlatMemory::page`. -/
def flatPage (data : Bytes) (region : RegionInfo) (index : ℕ) : Checked OwnedSpan := do
  let address ← flatAddress region.start.toNat index
  let _ ← sub64 region.stop.toNat address
  let length := chunkLength address region.stop.toNat
  -- A pointer is moved up to the address and back down to the start, modulo the size of the address space.
  let position := (region.offset.toNat + address + (2 ^ 64 - region.start.toNat)) % 2 ^ 64
  return { address, length, bytes := ← slice data position length }

/-- `PagedMemory::page`, with the store that holds the pages. -/
def pagedPage (load : UInt64 → Option Bytes) (pages : List PageRef) (region : RegionInfo) (index : ℕ)
    (cache : PageCache) : Checked OwnedSpan × PageCache :=
  match pages[region.offset.toNat + index]? with
  | none => (.error (.thrown "vector::_M_range_check"), cache)
  | some reference =>
    match cache.cachedPages.findSome? fun cached => if cached.key = reference.key then cached.bytes else none with
    | some bytes =>
      if bytes.length = reference.length.toNat then
        (.ok { address := reference.address.toNat, length := reference.length.toNat, bytes }, cache)
      else (.error (.thrown "Snapshot page length mismatch"), cache)
    | none =>
      match load reference.key with
      | none => (.error (.thrown "Missing snapshot page"), cache)
      | some bytes =>
        if bytes.length = reference.length.toNat then
          (.ok { address := reference.address.toNat, length := reference.length.toNat, bytes },
            { cachedPages := cache.cachedPages.set cache.nextPage { key := reference.key, bytes := some bytes }
              nextPage := (cache.nextPage + 1) % 4 })
        else (.error (.thrown "Snapshot page length mismatch"), cache)

def RegionInfo.pageCount (region : RegionInfo) : ℕ :=
  (region.stop.toNat - 1) / pageSize - region.start.toNat / pageSize + 1

namespace SnapshotView

variable (view : SnapshotView) (load : UInt64 → Option Bytes)

/-- `SnapshotView::page`. -/
def page (region index : ℕ) (cache : PageCache) : Checked OwnedSpan × PageCache :=
  match view.regions[region]? with
  | none => (.error (.thrown "vector::_M_range_check"), cache)
  | some info =>
    if index < info.pageCount then
      if view.header.version = pageSnapshotVersion then pagedPage load view.pages info index cache
      else (flatPage view.data info index, cache)
    else (.error (.thrown "Snapshot page index out of range"), cache)

/-- What one round of `read_into` copies from a chunk, and how much that is. -/
def copyChunk (address length : ℕ) (chunk : OwnedSpan) : Checked (Bytes × ℕ) := do
  let offset ← sub64 address chunk.address
  let room ← sub64 chunk.length offset
  let count := min length room
  return (← slice chunk.bytes offset count, count)

/-- The loop of `read_into`, for at most the given number of rounds. -/
def readLoop : ℕ → ℕ → ℕ → Bytes → PageCache → Checked Bytes × PageCache
  | _, _, 0, out, cache => (.ok out, cache)
  | 0, _, _ + 1, _, cache => (.error .diverged, cache)
  | rounds + 1, address, length + 1, out, cache =>
    -- The last region that starts at the address or below: the regions are sorted.
    match (view.regions.takeWhile fun region => decide (region.start.toNat ≤ address)).length with
    | 0 => (.error (.thrown "Snapshot read outside captured regions"), cache)
    | region + 1 =>
      match view.regions[region]? with
      | none => (.error .outside, cache)
      | some info =>
        if info.stop.toNat ≤ address then (.error (.thrown "Snapshot read outside captured regions"), cache)
        else
          let (chunk, cache) := view.page load region (address / pageSize - info.start.toNat / pageSize) cache
          match chunk >>= copyChunk address (length + 1) with
          | .error abort => (.error abort, cache)
          | .ok (bytes, count) =>
            match add64 address count with
            | .error abort => (.error abort, cache)
            | .ok address => readLoop rounds address (length + 1 - count) (out ++ bytes) cache

/-- `SnapshotView::read_into`. -/
def readInto (address length : ℕ) (cache : PageCache) : Checked Bytes × PageCache :=
  if uint64Max - address < length then (.error (.thrown "Snapshot read address overflow"), cache)
  else view.readLoop load length address length [] cache

end SnapshotView

/-! ## Capturing memory -/

/-- A captured region of memory with its bytes. -/
structure ImageRegion where
  start : UInt64
  prot : UInt32
  flags : Flags
  bytes : Bytes
  nonempty : bytes ≠ []
  bounded : start.toNat + bytes.length ≤ uint64Max

namespace ImageRegion

variable (region : ImageRegion)

def stop : ℕ := region.start.toNat + region.bytes.length

/-- The row of a region in the table of a snapshot. -/
def info (offset : ℕ) : RegionInfo :=
  { start := region.start, stop := UInt64.ofNat region.stop, offset := UInt64.ofNat offset
    prot := region.prot, flags := region.flags }

end ImageRegion

/-- The chunks of a region from an address on: their addresses and lengths. -/
def chunksFrom (stop : ℕ) : ℕ → ℕ → List (ℕ × ℕ)
  | 0, _ => []
  | rounds + 1, address =>
    if address < stop then
      (address, chunkLength address stop) :: chunksFrom stop rounds (address + chunkLength address stop)
    else []

namespace ImageRegion

variable (key : Bytes → UInt64) (region : ImageRegion)

/-- The chunks that `save_paged_snapshot` saves for a region. -/
def chunks : List (ℕ × ℕ) := chunksFrom region.stop region.bytes.length region.start.toNat

def chunkBytes (chunk : ℕ × ℕ) : Bytes := (region.bytes.drop (chunk.1 - region.start.toNat)).take chunk.2

def pageRefs : List PageRef :=
  region.chunks.map fun chunk =>
    { address := UInt64.ofNat chunk.1, length := UInt32.ofNat chunk.2, key := key (region.chunkBytes chunk) }

end ImageRegion

/-- The region table of a flat snapshot: bytes follow each other. -/
def flatRegions : ℕ → List ImageRegion → List RegionInfo
  | _, [] => []
  | offset, region :: rest => region.info offset :: flatRegions (offset + region.bytes.length) rest

/-- The region table of a paged snapshot: pages follow each other. -/
def pagedRegions : ℕ → List ImageRegion → List RegionInfo
  | _, [] => []
  | first, region :: rest => region.info first :: pagedRegions (first + region.chunks.length) rest

/-- The flat snapshot of an image, section by section as the capture fills its buffer. -/
def encodeFlat (image : List ImageRegion) (metadata maps regs : Bytes) : Bytes :=
  let tstateOffset := stateDataHeader.size + image.length * regionInfo.size
  let mapsOffset := tstateOffset + metadata.length
  let memory := image.flatMap ImageRegion.bytes
  let header : StateDataHeader := {
    magic := snapshotMagic
    version := flatSnapshotVersion
    numRegions := UInt32.ofNat image.length
    tstateOffset := UInt64.ofNat tstateOffset
    tstateSize := UInt64.ofNat metadata.length
    mapsOffset := UInt64.ofNat mapsOffset
    mapsSize := UInt64.ofNat maps.length
    regsOffset := UInt64.ofNat (mapsOffset + maps.length + memory.length) }
  stateDataHeader.pack header ++ (regionInfo.packTable (flatRegions (mapsOffset + maps.length) image) ++
    (metadata ++ (maps ++ (memory ++ regs))))

/-- The paged snapshot of an image. -/
def encodePaged (key : Bytes → UInt64) (image : List ImageRegion) (metadata maps regs : Bytes) : Except String Bytes :=
  encodePageManifest (pagedRegions 0 image) metadata maps regs (image.flatMap (ImageRegion.pageRefs key))

end DetSim.Snapshot
