import DetSim.Model.Wire

/-! # The cache of shared segments

Both ends of an object transport keep recently used segments in a cache. A segment is staged while its transfer
is under way and published once the transfer is acknowledged; only a published entry is found by the keys of
its objects. Entries are allocated objects: the list `lru` owns them, and tokens and index rows refer to them
weakly, so that such a reference is alive exactly as long as its entry is in the list.
-/

namespace DetSim.Search.Wire

open Kernel (Bytes)
open Scheduler (HashType)

/-- The limits that the cache reads. -/
structure ObjectLimits where
  cacheBytes : UInt64 := 64 * 2 ^ 20
  cacheSegments : UInt64 := 128
deriving DecidableEq, Repr

/-- An object of a segment, with its bytes in the mapping. -/
structure SegmentRow where
  key : HashType
  bytes : Bytes
deriving DecidableEq, Repr

structure Segment where
  size : UInt64
  rows : List SegmentRow
deriving DecidableEq, Repr

structure CacheEntry where
  segment : Segment
  rows : List ℕ
  published : Bool := false
  active : Bool := true
deriving DecidableEq, Repr

structure CacheView where
  segment : Segment
  row : ℕ
deriving DecidableEq, Repr

/-- A row of the index, with a weak reference to its entry. -/
structure CacheIndex where
  entry : ℕ
  row : ℕ
deriving DecidableEq, Repr

/-- A weak reference, which may be empty. -/
abbrev Token := Option ℕ

/-- The cache, with the allocated entries under their identities. -/
structure ObjectCache where
  bytes : UInt64 := 0
  peak : UInt64 := 0
  lru : List ℕ := []
  index : Std.ExtTreeMap HashType CacheIndex := ∅
  entries : Std.ExtTreeMap ℕ CacheEntry := ∅
  allocated : ℕ := 0

/-- Whether the view shows these bytes: equal sizes and equal contents. -/
def CacheView.shows (view : CacheView) (bytes : Bytes) : Bool :=
  view.segment.rows[view.row]?.map SegmentRow.bytes == some bytes

namespace ObjectCache

/-- `weak_ptr::lock`. -/
def lock (cache : ObjectCache) (id : ℕ) : Option CacheEntry :=
  if id ∈ cache.lru then cache.entries[id]? else none

def find (cache : ObjectCache) (key : HashType) : Option CacheView × ObjectCache :=
  match cache.index[key]? with
  | none => (none, cache)
  | some found =>
    match cache.lock found.entry with
    | none => (none, { cache with index := cache.index.erase key })
    | some entry =>
      if entry.active then
        (some ⟨entry.segment, found.row⟩, { cache with lru := cache.lru.erase found.entry ++ [found.entry] })
      else (none, { cache with index := cache.index.erase key })

/-- One round of the loop of `erase`: a row leaves the index if the index has it for this entry. -/
def forgetRow (id : ℕ) (segment : Segment) (index : Std.ExtTreeMap HashType CacheIndex) (row : ℕ) :
    Std.ExtTreeMap HashType CacheIndex :=
  match segment.rows[row]? with
  | none => index
  | some data => if index[data.key]?.any (·.entry = id) then index.erase data.key else index

def erase (cache : ObjectCache) (id : ℕ) : ObjectCache :=
  match cache.entries[id]? with
  | none => cache
  | some entry =>
    if entry.active then
      { cache with
        index := entry.rows.foldl (forgetRow id entry.segment) cache.index
        entries := cache.entries.insert id { entry with active := false }
        bytes := cache.bytes - entry.segment.size
        lru := cache.lru.erase id }
    else cache

/-- The row loop of `stage`: the rows to keep, with the row that came first for each of their keys. -/
def stageRows (segment : Segment) :
    List ℕ → List ℕ → Std.ExtTreeMap HashType ℕ → ObjectCache → Except String (List ℕ) × ObjectCache
  | [], selected, _, cache => (.ok selected, cache)
  | row :: rows, selected, keys, cache =>
    match segment.rows[row]? with
    | none => (.error "Invalid snapshot cache row", cache)
    | some data =>
      match cache.find data.key with
      | (some prior, cache) =>
        if prior.shows data.bytes then stageRows segment rows selected keys cache
        else (.error "Snapshot object cache byte conflict", cache)
      | (none, cache) =>
        match keys[data.key]? with
        | none => stageRows segment rows (selected ++ [row]) (keys.insert data.key row) cache
        | some duplicate =>
          if CacheView.shows ⟨segment, duplicate⟩ data.bytes then stageRows segment rows selected keys cache
          else (.error "Duplicate snapshot object cache byte conflict", cache)

/-- The oldest entries go until the new segment fits, for at most so many rounds. -/
def evict (limits : ObjectLimits) (size : UInt64) : ℕ → ObjectCache → ObjectCache
  | 0, cache => cache
  | rounds + 1, cache =>
    match cache.lru with
    | [] => cache
    | front :: _ =>
      if limits.cacheBytes - size < cache.bytes ∨ limits.cacheSegments.toNat ≤ cache.lru.length then
        evict limits size rounds (cache.erase front)
      else cache

/-- A new entry, the youngest one. -/
def add (cache : ObjectCache) (segment : Segment) (rows : List ℕ) : ObjectCache :=
  { cache with
    lru := cache.lru ++ [cache.allocated]
    entries := cache.entries.insert cache.allocated { segment, rows }
    bytes := cache.bytes + segment.size
    peak := max cache.peak (cache.bytes + segment.size)
    allocated := cache.allocated + 1 }

def stage (limits : ObjectLimits) (cache : ObjectCache) (segment : Segment) (rows : List ℕ) :
    Except String Token × ObjectCache :=
  if limits.cacheSegments = 0 ∨ limits.cacheBytes < segment.size then (.ok none, cache)
  else
    match cache.stageRows segment rows [] ∅ with
    | (.error what, cache) => (.error what, cache)
    | (.ok selected, cache) =>
      if selected = [] then (.ok none, cache)
      else
        let cache := cache.evict limits segment.size cache.lru.length
        (.ok (some cache.allocated), cache.add segment selected)

/-- The row loop of `publish` for an entry, whose rows are all in the segment: the rows that are now in the
index. -/
def publishRows (id : ℕ) (segment : Segment) :
    List ℕ → List ℕ → ObjectCache → Except String (List ℕ) × ObjectCache
  | [], selected, cache => (.ok selected, cache)
  | row :: rows, selected, cache =>
    match segment.rows[row]? with
    | none => publishRows id segment rows selected cache
    | some data =>
      match cache.find data.key with
      | (some prior, cache) =>
        if prior.shows data.bytes then publishRows id segment rows selected cache
        else (.error "Snapshot object cache publish conflict", cache)
      | (none, cache) =>
        publishRows id segment rows (selected ++ [row])
          { cache with index := cache.index.insert data.key ⟨id, row⟩ }

/-- The end of a round of `publish`. -/
def finish (cache : ObjectCache) (id : ℕ) (entry : CacheEntry) (selected : List ℕ) : ObjectCache :=
  let cache := { cache with entries := cache.entries.insert id { entry with rows := selected, published := true } }
  if selected = [] then cache.erase id else cache

def publish (cache : ObjectCache) : List Token → Except String Unit × ObjectCache
  | [] => (.ok (), cache)
  | token :: tokens =>
    match token.bind fun id => (cache.lock id).map (id, ·) with
    | none => publish cache tokens
    | some (id, entry) =>
      if !entry.active || entry.published then publish cache tokens
      else
        match cache.publishRows id entry.segment entry.rows [] with
        | (.error what, cache) => (.error what, cache)
        | (.ok selected, cache) => publish (cache.finish id entry selected) tokens

def cancel (cache : ObjectCache) : List Token → ObjectCache
  | [] => cache
  | token :: tokens =>
    match token.bind fun id => (cache.lock id).map (id, ·) with
    | none => cancel cache tokens
    | some (id, entry) => if entry.published then cancel cache tokens else cancel (cache.erase id) tokens

end ObjectCache

/-- What the callers do with a cache. -/
inductive CacheOperation
  | find (key : HashType)
  | stage (segment : Segment) (rows : List ℕ)
  | publish (tokens : List Token)
  | cancel (tokens : List Token)
  | evict
deriving DecidableEq, Repr

/-- The cache after an operation. A caller whose `publish` throws cancels the tokens at once. -/
def CacheOperation.run (limits : ObjectLimits) (cache : ObjectCache) : CacheOperation → ObjectCache
  | .find key => (cache.find key).2
  | .stage segment rows => (cache.stage limits segment rows).2
  | .publish tokens =>
    match cache.publish tokens with
    | (.ok _, cache) => cache
    | (.error _, cache) => cache.cancel tokens
  | .cancel tokens => cache.cancel tokens
  | .evict => cache.lru.head?.elim cache cache.erase

end DetSim.Search.Wire
