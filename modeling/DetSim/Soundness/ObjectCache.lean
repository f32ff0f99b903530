import DetSim.Model.Segments
import DetSim.ToMathlib.TreeMapSum
import Mathlib.Algebra.BigOperators.Group.List.Lemmas

/-! # The bookkeeping of the segment cache

The account of bytes, the bounds and the ownership of the index rows hold after every sequence of operations.
While an entry is being published the index already has rows of it, so the invariant names the entry that is
allowed to be visible early; a `publish` that throws leaves it so, and the `cancel` of its caller ends this.
-/

namespace DetSim.Search.Wire

open Scheduler (HashType)

namespace ObjectCache

/-- The size of the segment of an entry. -/
def sizeOf (cache : ObjectCache) (id : ℕ) : ℕ := cache.entries[id]?.elim 0 (·.segment.size.toNat)

/-- The index row of a key belongs to an entry of the list that has this row and, if it is not the one being
published, is published. -/
structure Indexed (cache : ObjectCache) (busy : Option ℕ) (key : HashType) (found : CacheIndex) : Prop where
  owned : found.entry ∈ cache.lru
  row : ∃ entry data, cache.entries[found.entry]? = some entry ∧ entry.active = true ∧
    (entry.published = true ∨ busy = some found.entry) ∧ found.row ∈ entry.rows ∧
    entry.segment.rows[found.row]? = some data ∧ data.key = key

/-- The invariant, with the entry that is being published. -/
structure Bookkeeping (limits : ObjectLimits) (busy : Option ℕ) (cache : ObjectCache) : Prop where
  nodup : cache.lru.Nodup
  live : ∀ id ∈ cache.lru, ∃ entry, cache.entries[id]? = some entry ∧ entry.active = true
  fresh : ∀ id, cache.entries[id]?.isSome → id < cache.allocated
  bytes : cache.bytes.toNat = (cache.lru.map cache.sizeOf).sum
  bytes_le : cache.bytes ≤ limits.cacheBytes
  segments : cache.lru.length ≤ limits.cacheSegments.toNat
  indexed : ∀ key found, cache.index[key]? = some found → cache.Indexed busy key found
  unpublished : ∀ id ∈ busy, ∀ entry, cache.entries[id]? = some entry → entry.published = false

/-- Index rows go only with their own entry, and an entry that has left the list does not come back. -/
structure Keeps (cache next : ObjectCache) : Prop where
  allocated : cache.allocated ≤ next.allocated
  left : ∀ id < cache.allocated, id ∈ next.lru → id ∈ cache.lru
  index : ∀ (key : HashType) (found : CacheIndex), cache.index[key]? = some found → found.entry ∈ next.lru →
    next.index[key]? = some found

variable {limits : ObjectLimits} {busy : Option ℕ} {cache next last : ObjectCache}

theorem Bookkeeping.empty (limits : ObjectLimits) : Bookkeeping limits none {} where
  nodup := List.nodup_nil
  live := by simp
  fresh := by simp
  bytes := by simp
  bytes_le := UInt64.zero_le
  segments := by simp
  indexed := by simp
  unpublished := by simp

theorem Bookkeeping.lt_allocated (kept : Bookkeeping limits busy cache) {id : ℕ} (member : id ∈ cache.lru) :
    id < cache.allocated := by
  obtain ⟨entry, allocated, -⟩ := kept.live id member
  exact kept.fresh id (by simp [allocated])

theorem Bookkeeping.lock_eq (kept : Bookkeeping limits busy cache) {id : ℕ} {entry : CacheEntry}
    (locked : cache.lock id = some entry) :
    id ∈ cache.lru ∧ cache.entries[id]? = some entry ∧ entry.active = true := by
  unfold lock at locked
  split_ifs at locked with member
  obtain ⟨other, allocated, active⟩ := kept.live id member
  rw [locked, Option.some.injEq] at allocated
  exact ⟨member, locked, allocated ▸ active⟩

theorem Bookkeeping.token_eq (kept : Bookkeeping limits busy cache) {token : Token} {id : ℕ} {entry : CacheEntry}
    (alive : (token.bind fun id => (cache.lock id).map (id, ·)) = some (id, entry)) :
    token = some id ∧ id ∈ cache.lru ∧ cache.entries[id]? = some entry ∧ entry.active = true := by
  obtain ⟨id', rfl, read⟩ := Option.bind_eq_some_iff.mp alive
  obtain ⟨entry', locked, same⟩ := Option.map_eq_some_iff.mp read
  obtain ⟨rfl, rfl⟩ := Prod.mk.inj same
  exact ⟨rfl, kept.lock_eq locked⟩

theorem Keeps.refl (cache : ObjectCache) : Keeps cache cache := ⟨le_rfl, fun _ _ => id, fun _ _ row _ => row⟩

/-! ## Looking up -/

/-- The order of the list is the only thing that differs. -/
def Touched (cache next : ObjectCache) : Prop := ∃ lru, lru.Perm cache.lru ∧ next = { cache with lru }

theorem Touched.refl (cache : ObjectCache) : Touched cache cache := ⟨cache.lru, .refl _, rfl⟩

theorem Touched.trans (first : Touched cache next) (second : Touched next last) : Touched cache last := by
  obtain ⟨lru, perm, rfl⟩ := first
  obtain ⟨lru', perm', rfl⟩ := second
  exact ⟨lru', perm'.trans perm, rfl⟩

theorem Touched.bookkeeping (touched : Touched cache next) (kept : Bookkeeping limits busy cache) :
    Bookkeeping limits busy next := by
  obtain ⟨lru, perm, rfl⟩ := touched
  refine ⟨perm.nodup_iff.mpr kept.nodup, fun id member => kept.live id (perm.mem_iff.mp member), kept.fresh, ?_,
    kept.bytes_le, perm.length_eq ▸ kept.segments, fun key found row => ?_, kept.unpublished⟩
  · exact kept.bytes.trans (perm.map cache.sizeOf).sum_eq.symm
  · obtain ⟨owned, row⟩ := kept.indexed key found row
    exact ⟨perm.mem_iff.mpr owned, row⟩

theorem Touched.keeps (touched : Touched cache next) : Keeps cache next := by
  obtain ⟨lru, perm, rfl⟩ := touched
  exact ⟨le_rfl, fun _ _ => perm.mem_iff.mp, fun _ _ row _ => row⟩

/-- A lookup answers from the index, and the branches for a dead entry are not taken. -/
theorem Bookkeeping.find_spec (kept : Bookkeeping limits busy cache) (key : HashType) :
    Touched cache (cache.find key).2 ∧
      match cache.index[key]? with
      | none => (cache.find key).1 = none
      | some found => ∃ entry, cache.entries[found.entry]? = some entry ∧
          (cache.find key).1 = some ⟨entry.segment, found.row⟩ := by
  unfold find
  cases row : cache.index[key]? with
  | none => exact ⟨.refl _, rfl⟩
  | some found =>
    obtain ⟨owned, entry, data, allocated, active, -⟩ := kept.indexed key found row
    have locked : cache.lock found.entry = some entry := by rw [lock, if_pos owned, allocated]
    simp only [locked, active, ↓reduceIte]
    refine ⟨⟨_, ?_, rfl⟩, entry, allocated, rfl⟩
    exact List.perm_append_comm.trans (List.perm_cons_erase owned).symm

/-! ## Erasing -/

/-- The rows that the loop of `erase` removes. -/
theorem getElem?_forgetRows (id : ℕ) (segment : Segment) (rows : List ℕ)
    (index : Std.ExtTreeMap HashType CacheIndex) (key : HashType) :
    (rows.foldl (forgetRow id segment) index)[key]? =
      if index[key]?.any (fun found : CacheIndex => found.entry = id) ∧
          ∃ row ∈ rows, segment.rows[row]?.map SegmentRow.key = some key then none
      else index[key]? := by
  induction rows generalizing index with
  | nil => simp
  | cons row rows ih =>
    rw [List.foldl_cons, ih]
    cases data : segment.rows[row]? with
    | none => simp [forgetRow, data]
    | some data' =>
      by_cases same : data'.key = key
      · by_cases own : index[key]?.any (fun found : CacheIndex => found.entry = id)
        · simp [forgetRow, data, same, own]
        · simp [forgetRow, data, same, own]
      · have kept : (forgetRow id segment index row)[key]? = index[key]? := by
          simp only [forgetRow, data]
          split_ifs
          · rw [Std.ExtTreeMap.getElem?_erase_eq, if_neg same]
          · rfl
        simp [kept, data, same]

theorem Bookkeeping.sum_erase (kept : Bookkeeping limits busy cache) {id : ℕ} (member : id ∈ cache.lru) :
    cache.sizeOf id + ((cache.lru.erase id).map cache.sizeOf).sum = cache.bytes.toNat := by
  rw [kept.bytes, ← List.sum_cons, ← List.map_cons, ((List.perm_cons_erase member).map cache.sizeOf).sum_eq]

/-- Erasing an entry of the list keeps the account and the index rows of all others. -/
theorem Bookkeeping.erase (kept : Bookkeeping limits busy cache) {id : ℕ} (member : id ∈ cache.lru) :
    Bookkeeping limits (busy.filter (· ≠ id)) (cache.erase id) ∧ Keeps cache (cache.erase id) ∧
      (cache.erase id).lru = cache.lru.erase id := by
  obtain ⟨entry, allocated, active⟩ := kept.live id member
  have erased : cache.erase id = { cache with
      index := entry.rows.foldl (forgetRow id entry.segment) cache.index
      entries := cache.entries.insert id { entry with active := false }
      bytes := cache.bytes - entry.segment.size
      lru := cache.lru.erase id } := by simp [ObjectCache.erase, allocated, active]
  have others (other : ℕ) (different : id ≠ other) :
      (cache.erase id).entries[other]? = cache.entries[other]? := by
    rw [erased, Std.ExtTreeMap.getElem?_insert_eq, if_neg different]
  have sizes : (cache.erase id).sizeOf = cache.sizeOf := by
    funext other
    by_cases same : id = other
    · subst same
      simp [sizeOf, erased, allocated]
    · rw [sizeOf, others other same, sizeOf]
  have total := kept.sum_erase member
  have own : cache.sizeOf id = entry.segment.size.toNat := by simp [sizeOf, allocated]
  have smaller : entry.segment.size ≤ cache.bytes := by
    rw [UInt64.le_iff_toNat_le]
    omega
  have account : (cache.bytes - entry.segment.size).toNat = cache.bytes.toNat - entry.segment.size.toNat :=
    UInt64.toNat_sub_of_le _ _ smaller
  have rows (key : HashType) : (cache.erase id).index[key]? =
      if cache.index[key]?.any (fun found : CacheIndex => found.entry = id) ∧
          ∃ row ∈ entry.rows, entry.segment.rows[row]?.map SegmentRow.key = some key then none
      else cache.index[key]? := by
    rw [erased]
    exact getElem?_forgetRows id entry.segment entry.rows cache.index key
  have list : (cache.erase id).lru = cache.lru.erase id := by rw [erased]
  have apart {other : ℕ} : other ∈ cache.lru.erase id ↔ other ≠ id ∧ other ∈ cache.lru := kept.nodup.mem_erase_iff
  refine ⟨⟨?_, ?_, ?_, ?_, ?_, ?_, ?_, ?_⟩, ⟨?_, ?_, ?_⟩, list⟩
  · rw [list]
    exact kept.nodup.erase id
  · intro other mem
    rw [list, apart] at mem
    rw [others other (Ne.symm mem.1)]
    exact kept.live other mem.2
  · intro other exists'
    have before : cache.entries[other]?.isSome := by
      by_cases same : id = other
      · simp [← same, allocated]
      · rwa [others other same] at exists'
    have bound := kept.fresh other before
    rw [erased]
    exact bound
  · rw [list, sizes]
    have written : (cache.erase id).bytes = cache.bytes - entry.segment.size := by rw [erased]
    rw [written, account]
    omega
  · have written : (cache.erase id).bytes = cache.bytes - entry.segment.size := by rw [erased]
    have bound := UInt64.le_iff_toNat_le.mp kept.bytes_le
    rw [written, UInt64.le_iff_toNat_le, account]
    omega
  · rw [list]
    exact (List.length_erase_le).trans kept.segments
  · intro key found row
    rw [rows key] at row
    split_ifs at row with gone
    obtain ⟨owned, entry', data, allocated', active', visible, listed, data', same⟩ := kept.indexed key found row
    have other : found.entry ≠ id := by
      intro equal
      rw [equal, allocated, Option.some.injEq] at allocated'
      subst allocated'
      exact gone ⟨by simp [row, equal], found.row, listed, by simp [data', same]⟩
    refine ⟨by rw [list, apart]; exact ⟨other, owned⟩, entry', data, ?_, active', ?_, listed, data', same⟩
    · rw [others _ (Ne.symm other), allocated']
    · refine visible.imp_right fun equal => ?_
      simp [equal, other]
  · intro other mem entry' allocated'
    obtain ⟨was, different⟩ := Option.mem_filter_iff.mp mem
    rw [others other (Ne.symm (by simpa using different))] at allocated'
    exact kept.unpublished other was entry' allocated'
  · rw [erased]
  · intro other _ mem
    rw [list, apart] at mem
    exact mem.2
  · intro key found row survivor
    rw [list, apart] at survivor
    rw [rows key, if_neg, row]
    simp [row, survivor.1]

theorem Keeps.trans (kept : Bookkeeping limits busy cache) (first : Keeps cache next) (second : Keeps next last) :
    Keeps cache last where
  allocated := first.allocated.trans second.allocated
  left id bound member := first.left id bound (second.left id (bound.trans_le first.allocated) member)
  index key found row survivor := by
    have bound := (kept.lt_allocated (kept.indexed key found row).owned).trans_le first.allocated
    exact second.index key found (first.index key found row (second.left _ bound survivor)) survivor

/-! ## Staging -/

theorem Bookkeeping.stageRows (segment : Segment) (rows selected : List ℕ) (keys : Std.ExtTreeMap HashType ℕ)
    (kept : Bookkeeping limits busy cache) : Touched cache (cache.stageRows segment rows selected keys).2 := by
  induction rows generalizing selected keys cache with
  | nil => exact .refl _
  | cons row rows ih =>
    unfold ObjectCache.stageRows
    cases segment.rows[row]? with
    | none => exact .refl _
    | some data =>
      have touched := (kept.find_spec data.key).1
      dsimp only
      cases found : cache.find data.key with
      | mk view next =>
        rw [found] at touched
        cases view with
        | some prior =>
          dsimp only
          split_ifs
          · exact touched.trans (ih _ _ (touched.bookkeeping kept))
          · exact touched
        | none =>
          dsimp only
          split
          · exact touched.trans (ih _ _ (touched.bookkeeping kept))
          · split_ifs
            · exact touched.trans (ih _ _ (touched.bookkeeping kept))
            · exact touched

/-- The loop ends, with room for the segment. -/
theorem Bookkeeping.evict (size : UInt64) (rounds : ℕ) (kept : Bookkeeping limits none cache)
    (enough : cache.lru.length ≤ rounds) :
    Bookkeeping limits none (cache.evict limits size rounds) ∧ Keeps cache (cache.evict limits size rounds) ∧
      ((cache.evict limits size rounds).lru = [] ∨
        (cache.evict limits size rounds).bytes ≤ limits.cacheBytes - size ∧
          (cache.evict limits size rounds).lru.length < limits.cacheSegments.toNat) := by
  induction rounds generalizing cache with
  | zero => exact ⟨kept, .refl _, .inl (List.length_eq_zero_iff.mp (Nat.le_zero.mp enough))⟩
  | succ rounds ih =>
    unfold ObjectCache.evict
    split
    · rename_i empty
      exact ⟨kept, .refl _, .inl empty⟩
    · rename_i front rest list
      have member : front ∈ cache.lru := by simp [list]
      obtain ⟨kept', keeps, erased⟩ := kept.erase member
      split_ifs with full
      · have shorter : (cache.erase front).lru.length ≤ rounds := by
          rw [erased, List.length_erase_of_mem member]
          omega
        obtain ⟨kept'', keeps', room⟩ := ih (by simpa using kept') shorter
        exact ⟨kept'', keeps.trans kept keeps', room⟩
      · rw [not_or, UInt64.not_lt, Nat.not_le] at full
        exact ⟨kept, .refl _, .inr full⟩

theorem Bookkeeping.add {segment : Segment} (rows : List ℕ) (kept : Bookkeeping limits none cache)
    (nonzero : limits.cacheSegments ≠ 0) (small : segment.size ≤ limits.cacheBytes)
    (room : cache.lru = [] ∨ cache.bytes ≤ limits.cacheBytes - segment.size ∧
      cache.lru.length < limits.cacheSegments.toNat) :
    Bookkeeping limits none (cache.add segment rows) ∧ Keeps cache (cache.add segment rows) := by
  have absent : cache.entries[cache.allocated]? = none := by
    rw [← Option.not_isSome_iff_eq_none]
    exact fun exists' => absurd (kept.fresh _ exists') (lt_irrefl _)
  have others (id : ℕ) (old : id < cache.allocated) :
      (cache.add segment rows).entries[id]? = cache.entries[id]? := by
    rw [ObjectCache.add, Std.ExtTreeMap.getElem?_insert_eq, if_neg (Nat.ne_of_gt old)]
  have sizes : cache.lru.map (cache.add segment rows).sizeOf = cache.lru.map cache.sizeOf :=
    List.map_congr_left fun id member => by rw [sizeOf, others id (kept.lt_allocated member), sizeOf]
  have own : (cache.add segment rows).sizeOf cache.allocated = segment.size.toNat := by
    simp [sizeOf, ObjectCache.add]
  have apart : cache.allocated ∉ cache.lru := fun member => absurd (kept.lt_allocated member) (lt_irrefl _)
  have small' := UInt64.le_iff_toNat_le.mp small
  have fits : cache.bytes.toNat + segment.size.toNat ≤ limits.cacheBytes.toNat ∧
      cache.lru.length < limits.cacheSegments.toNat := by
    obtain empty | ⟨bytes, segments⟩ := room
    · have zero : cache.bytes.toNat = 0 := by rw [kept.bytes, empty]; rfl
      have positive : limits.cacheSegments.toNat ≠ 0 := fun zero => nonzero (UInt64.toNat_inj.mp zero)
      rw [empty, List.length_nil]
      omega
    · rw [UInt64.le_iff_toNat_le, UInt64.toNat_sub_of_le _ _ small] at bytes
      omega
  have account : (cache.bytes + segment.size).toNat = cache.bytes.toNat + segment.size.toNat := by
    rw [UInt64.toNat_add]
    exact Nat.mod_eq_of_lt (fits.1.trans_lt limits.cacheBytes.toNat_lt)
  refine ⟨⟨?_, ?_, ?_, ?_, ?_, ?_, ?_, by simp⟩, ⟨Nat.le_succ _, ?_, ?_⟩⟩
  · exact List.nodup_append.mpr ⟨kept.nodup, List.nodup_singleton _,
      fun id member other mem same => apart (by rw [← List.mem_singleton.mp mem, ← same]; exact member)⟩
  · intro id member
    obtain old | new := List.mem_append.mp member
    · rw [others id (kept.lt_allocated old)]
      exact kept.live id old
    · rw [List.mem_singleton.mp new]
      exact ⟨{ segment, rows }, by simp [ObjectCache.add], rfl⟩
  · intro id exists'
    by_contra bound
    have later : cache.allocated + 1 ≤ id := Nat.not_lt.mp bound
    rw [ObjectCache.add, Std.ExtTreeMap.getElem?_insert_eq, if_neg (by omega)] at exists'
    exact absurd (kept.fresh id exists') (by omega)
  · have list : (cache.add segment rows).lru = cache.lru ++ [cache.allocated] := rfl
    have bytes : (cache.add segment rows).bytes = cache.bytes + segment.size := rfl
    rw [list, bytes, account, List.map_append, List.sum_append, sizes, List.map_singleton, List.sum_singleton, own,
      kept.bytes]
  · have bytes : (cache.add segment rows).bytes = cache.bytes + segment.size := rfl
    rw [bytes, UInt64.le_iff_toNat_le, account]
    exact fits.1
  · have list : (cache.add segment rows).lru = cache.lru ++ [cache.allocated] := rfl
    rw [list, List.length_append, List.length_singleton]
    exact fits.2
  · intro key found row
    obtain ⟨owned, entry, data, allocated, rest⟩ := kept.indexed key found row
    exact ⟨List.mem_append_left _ owned, entry, data, by rw [others _ (kept.lt_allocated owned), allocated], rest⟩
  · intro id old member
    obtain member | new := List.mem_append.mp member
    · exact member
    · exact absurd (List.mem_singleton.mp new) (Nat.ne_of_lt old)
  · exact fun key found row _ => row

theorem Bookkeeping.stage (segment : Segment) (rows : List ℕ) (kept : Bookkeeping limits none cache) :
    Bookkeeping limits none (cache.stage limits segment rows).2 ∧ Keeps cache (cache.stage limits segment rows).2 := by
  unfold ObjectCache.stage
  split_ifs with refused
  · exact ⟨kept, .refl _⟩
  · rw [not_or, UInt64.not_lt] at refused
    have touched := kept.stageRows segment rows [] ∅
    cases staged : cache.stageRows segment rows [] ∅ with
    | mk result next =>
      rw [staged] at touched
      have kept' := touched.bookkeeping kept
      cases result with
      | error what => exact ⟨kept', touched.keeps⟩
      | ok selected =>
        dsimp only
        split_ifs
        · exact ⟨kept', touched.keeps⟩
        · obtain ⟨kept'', keeps, room⟩ := kept'.evict segment.size next.lru.length le_rfl
          obtain ⟨added, keeps'⟩ := kept''.add selected refused.1 refused.2 room
          exact ⟨added, touched.keeps.trans kept (keeps.trans kept' keeps')⟩

/-! ## Publishing and cancelling -/

/-- What the row loop of `publish` keeps: all index rows of the entry are among those selected. -/
structure Publishing (limits : ObjectLimits) (id : ℕ) (cache : ObjectCache)
    (outcome : Except String (List ℕ) × ObjectCache) : Prop where
  kept : Bookkeeping limits (some id) outcome.2
  keeps : Keeps cache outcome.2
  member : id ∈ outcome.2.lru
  entries : outcome.2.entries = cache.entries
  rows : ∀ selected, outcome.1 = .ok selected → ∀ (key : HashType) (found : CacheIndex),
    outcome.2.index[key]? = some found → found.entry = id → found.row ∈ selected

theorem Publishing.trans {id : ℕ} {outcome : Except String (List ℕ) × ObjectCache}
    (kept : Bookkeeping limits busy cache) (keeps : Keeps cache next) (entries : next.entries = cache.entries)
    (rest : Publishing limits id next outcome) : Publishing limits id cache outcome :=
  ⟨rest.kept, keeps.trans kept rest.keeps, rest.member, rest.entries.trans entries, rest.rows⟩

theorem Bookkeeping.publishRows {id : ℕ} {entry : CacheEntry} (rows selected : List ℕ)
    (kept : Bookkeeping limits (some id) cache) (member : id ∈ cache.lru) (allocated : cache.entries[id]? = some entry)
    (part : rows ⊆ entry.rows)
    (own : ∀ (key : HashType) (found : CacheIndex), cache.index[key]? = some found → found.entry = id →
      found.row ∈ selected) :
    Publishing limits id cache (cache.publishRows id entry.segment rows selected) := by
  induction rows generalizing selected cache with
  | nil =>
    refine ⟨kept, .refl _, member, rfl, fun chosen same => ?_⟩
    rw [← Except.ok.inj same]
    exact own
  | cons row rows ih =>
    obtain ⟨first, part⟩ := List.cons_subset.mp part
    rw [ObjectCache.publishRows]
    cases object : entry.segment.rows[row]? with
    | none => exact ih selected kept member allocated part own
    | some data =>
      obtain ⟨touched, answer⟩ := kept.find_spec data.key
      cases found : cache.find data.key with
      | mk view next =>
        rw [found] at touched answer
        have kept' := touched.bookkeeping kept
        have keeps := touched.keeps
        obtain ⟨lru, perm, rfl⟩ := touched
        have member' := perm.mem_iff.mpr member
        cases view with
        | some prior =>
          dsimp only
          rw [found]
          dsimp only
          split_ifs
          · exact .trans kept keeps rfl (ih selected kept' member' allocated part own)
          · exact ⟨kept', keeps, member', rfl, fun chosen thrown => by simp at thrown⟩
        | none =>
          -- The key is not in the index, so the new row replaces none.
          have absent : cache.index[data.key]? = none := by
            cases known : cache.index[data.key]? with
            | none => rfl
            | some old => simp [known] at answer
          have rowed (key : HashType) : (cache.index.insert data.key ⟨id, row⟩)[key]? =
              if data.key = key then some ⟨id, row⟩ else cache.index[key]? :=
            Std.ExtTreeMap.getElem?_insert_eq ..
          have inserted : Bookkeeping limits (some id)
              { cache with lru, index := cache.index.insert data.key ⟨id, row⟩ } := by
            refine ⟨kept'.nodup, kept'.live, kept'.fresh, kept'.bytes, kept'.bytes_le, kept'.segments, ?_,
              kept'.unpublished⟩
            intro key found read
            rw [rowed] at read
            split_ifs at read with same
            · rw [← Option.some.inj read]
              obtain ⟨entry', allocated', active⟩ := kept.live id member
              rw [allocated, Option.some.injEq] at allocated'
              exact ⟨member', entry, data, allocated, allocated' ▸ active, .inr rfl, first, object, same⟩
            · obtain ⟨owned, rest⟩ := kept'.indexed key found read
              exact ⟨owned, rest⟩
          have keeps' : Keeps cache { cache with lru, index := cache.index.insert data.key ⟨id, row⟩ } := by
            refine ⟨le_rfl, keeps.left, fun key found old _ => ?_⟩
            rw [rowed, if_neg, old]
            rintro rfl
            simp [absent] at old
          dsimp only
          rw [found]
          refine .trans kept keeps' rfl (ih (selected ++ [row]) inserted member' allocated part ?_)
          intro key found read same
          rw [rowed] at read
          split_ifs at read
          · rw [← Option.some.inj read]
            exact List.mem_append_right _ (List.mem_singleton_self _)
          · exact List.mem_append_left _ (own key found read same)

/-- Publishing an entry with the rows that the index has for it. -/
theorem Bookkeeping.finish {id : ℕ} {entry : CacheEntry} {selected : List ℕ}
    (kept : Bookkeeping limits (some id) cache) (member : id ∈ cache.lru) (allocated : cache.entries[id]? = some entry)
    (own : ∀ (key : HashType) (found : CacheIndex), cache.index[key]? = some found → found.entry = id →
      found.row ∈ selected) :
    Bookkeeping limits none (cache.finish id entry selected) ∧ Keeps cache (cache.finish id entry selected) := by
  obtain ⟨entry', allocated', active⟩ := kept.live id member
  rw [allocated, Option.some.injEq] at allocated'
  subst allocated'
  have read (other : ℕ) : (cache.entries.insert id { entry with rows := selected, published := true })[other]? =
      if id = other then some { entry with rows := selected, published := true } else cache.entries[other]? :=
    Std.ExtTreeMap.getElem?_insert_eq ..
  have published : Bookkeeping limits none
      { cache with entries := cache.entries.insert id { entry with rows := selected, published := true } } := by
    refine ⟨kept.nodup, ?_, ?_, ?_, kept.bytes_le, kept.segments, ?_, by simp⟩
    · intro other listed
      rw [read]
      split_ifs
      · exact ⟨_, rfl, active⟩
      · exact kept.live other listed
    · intro other exists'
      rw [read] at exists'
      split_ifs at exists' with same
      · exact same ▸ kept.lt_allocated member
      · exact kept.fresh other exists'
    · refine kept.bytes.trans (congrArg List.sum (List.map_congr_left fun other _ => ?_))
      rw [sizeOf, sizeOf, read]
      split_ifs with same
      · simp [← same, allocated]
      · rfl
    · intro key found row
      obtain ⟨owned, entry', data, allocated', active', visible, listed, data', key'⟩ := kept.indexed key found row
      by_cases same : id = found.entry
      · rw [← same, allocated, Option.some.injEq] at allocated'
        subst allocated'
        exact ⟨owned, { entry with rows := selected, published := true }, data, by rw [read, if_pos same], active,
          .inl rfl, own key found row same.symm, data', key'⟩
      · refine ⟨owned, entry', data, by rw [read, if_neg same, allocated'], active', .inl ?_, listed, data', key'⟩
        exact visible.resolve_right fun busy => same (Option.some.inj busy)
  have keeps : Keeps cache
      { cache with entries := cache.entries.insert id { entry with rows := selected, published := true } } :=
    ⟨le_rfl, fun _ _ member => member, fun _ _ row _ => row⟩
  unfold ObjectCache.finish
  dsimp only
  split_ifs
  · obtain ⟨erased, keeps', -⟩ := published.erase member
    exact ⟨by simpa using erased, keeps.trans kept keeps'⟩
  · exact ⟨published, keeps⟩

/-- What `publish` leaves: everything in order, or one of the entries visible early if it throws. -/
theorem Bookkeeping.publish (tokens : List Token) (kept : Bookkeeping limits none cache) :
    Keeps cache (cache.publish tokens).2 ∧
      (((cache.publish tokens).1 = .ok () ∧ Bookkeeping limits none (cache.publish tokens).2) ∨
        ∃ what id, (cache.publish tokens).1 = .error what ∧ some id ∈ tokens ∧
          Bookkeeping limits (some id) (cache.publish tokens).2) := by
  induction tokens generalizing cache with
  | nil => exact ⟨.refl _, .inl ⟨rfl, kept⟩⟩
  | cons token tokens ih =>
    have later {next : ObjectCache} (kept' : Bookkeeping limits none next) (keeps : Keeps cache next) :
        Keeps cache (next.publish tokens).2 ∧
          (((next.publish tokens).1 = .ok () ∧ Bookkeeping limits none (next.publish tokens).2) ∨
            ∃ what id, (next.publish tokens).1 = .error what ∧ some id ∈ token :: tokens ∧
              Bookkeeping limits (some id) (next.publish tokens).2) := by
      obtain ⟨keeps', outcome⟩ := ih kept'
      refine ⟨keeps.trans kept keeps', outcome.imp_right ?_⟩
      rintro ⟨what, id, thrown, listed, busy⟩
      exact ⟨what, id, thrown, List.mem_cons_of_mem _ listed, busy⟩
    unfold ObjectCache.publish
    split
    · exact later kept (.refl _)
    · rename_i id entry locked
      obtain ⟨rfl, member, allocated, active⟩ := kept.token_eq locked
      split_ifs with skipped
      · exact later kept (.refl _)
      · have hidden : entry.published = false := by simpa [active] using skipped
        have busy : Bookkeeping limits (some id) cache := by
          refine ⟨kept.nodup, kept.live, kept.fresh, kept.bytes, kept.bytes_le, kept.segments, ?_, ?_⟩
          · intro key found row
            obtain ⟨owned, owner, data, known, live, visible, rest⟩ := kept.indexed key found row
            exact ⟨owned, owner, data, known, live, .inl (by simpa using visible), rest⟩
          · intro other mem read known
            rw [← Option.mem_some.mp mem, allocated, Option.some.injEq] at known
            rw [← known, hidden]
        have none' (key : HashType) (found : CacheIndex) (row : cache.index[key]? = some found)
            (own : found.entry = id) : found.row ∈ ([] : List ℕ) := by
          obtain ⟨-, owner, data, known, -, visible, -⟩ := kept.indexed key found row
          rw [own, allocated, Option.some.injEq] at known
          simp [← known, hidden] at visible
        obtain ⟨kept', keeps, member', entries, rows⟩ :=
          busy.publishRows entry.rows [] member allocated (List.Subset.refl _) none'
        cases run : cache.publishRows id entry.segment entry.rows [] with
        | mk result next =>
          rw [run] at kept' keeps member' entries rows
          cases result with
          | error what => exact ⟨keeps, .inr ⟨what, id, rfl, List.mem_cons_self, kept'⟩⟩
          | ok selected =>
            obtain ⟨finished, keeps'⟩ :=
              kept'.finish member' (by rw [entries, allocated]) (rows selected rfl)
            exact later finished (keeps.trans kept keeps')

theorem Bookkeeping.cancel (tokens : List Token) (kept : Bookkeeping limits busy cache)
    (listed : ∀ id ∈ busy, some id ∈ tokens) :
    Bookkeeping limits none (cache.cancel tokens) ∧ Keeps cache (cache.cancel tokens) := by
  induction tokens generalizing cache busy with
  | nil =>
    have idle : busy = none := Option.eq_none_iff_forall_not_mem.mpr fun id mem => by simpa using listed id mem
    exact ⟨idle ▸ kept, .refl _⟩
  | cons token tokens ih =>
    unfold ObjectCache.cancel
    split
    · rename_i dead
      -- The token of a dead entry: the index has no rows of it.
      have gone : Bookkeeping limits (busy.filter fun id => some id ≠ token) cache := by
        refine ⟨kept.nodup, kept.live, kept.fresh, kept.bytes, kept.bytes_le, kept.segments, ?_, ?_⟩
        · intro key found row
          obtain ⟨owned, entry, data, allocated, active, visible, rest⟩ := kept.indexed key found row
          refine ⟨owned, entry, data, allocated, active, visible.imp_right fun same => ?_, rest⟩
          have other : some found.entry ≠ token := by
            rintro rfl
            simp [lock, owned, allocated] at dead
          simp [same, other]
        · intro id mem
          exact kept.unpublished id (Option.mem_filter_iff.mp mem).1
      refine ih gone fun id mem => ?_
      obtain ⟨was, other⟩ := Option.mem_filter_iff.mp mem
      exact (List.mem_cons.mp (listed id was)).resolve_left (by simpa using other)
    · rename_i id entry locked
      obtain ⟨rfl, member, allocated, active⟩ := kept.token_eq locked
      split_ifs with published
      · refine ih kept fun id mem => ?_
        refine (List.mem_cons.mp (listed id mem)).resolve_left fun same => ?_
        have hidden := kept.unpublished id mem entry (by rw [Option.some.inj same, allocated])
        simp [hidden] at published
      · obtain ⟨kept', keeps, -⟩ := kept.erase member
        obtain ⟨done, keeps'⟩ := ih kept' fun id mem => by
          obtain ⟨was, other⟩ := Option.mem_filter_iff.mp mem
          exact (List.mem_cons.mp (listed id was)).resolve_left (by simpa using other)
        exact ⟨done, keeps.trans kept keeps'⟩

/-! ## Runs -/

theorem Bookkeeping.run (operation : CacheOperation) (kept : Bookkeeping limits none cache) :
    Bookkeeping limits none (operation.run limits cache) ∧ Keeps cache (operation.run limits cache) := by
  cases operation with
  | find key =>
    have touched := (kept.find_spec key).1
    exact ⟨touched.bookkeeping kept, touched.keeps⟩
  | stage segment rows => exact kept.stage segment rows
  | publish tokens =>
    obtain ⟨keeps, outcome⟩ := kept.publish tokens
    cases run : cache.publish tokens with
    | mk result next =>
      rw [run] at keeps outcome
      simp only [CacheOperation.run, run]
      obtain ⟨done, kept'⟩ | ⟨what, id, thrown, listed, busy⟩ := outcome
      · cases done
        exact ⟨kept', keeps⟩
      · cases thrown
        obtain ⟨kept', keeps'⟩ := busy.cancel tokens fun other mem => Option.mem_some.mp mem ▸ listed
        exact ⟨kept', keeps.trans kept keeps'⟩
  | cancel tokens => exact kept.cancel tokens (by simp)
  | evict =>
    unfold CacheOperation.run
    cases list : cache.lru with
    | nil => exact ⟨kept, .refl _⟩
    | cons front rest =>
      have member : front ∈ cache.lru := by simp [list]
      obtain ⟨kept', keeps, -⟩ := kept.erase member
      exact ⟨by simpa using kept', keeps⟩

theorem Bookkeeping.runs (limits : ObjectLimits) (operations : List CacheOperation) :
    Bookkeeping limits none (operations.foldl (CacheOperation.run limits) {}) := by
  induction operations using List.reverseRecOn with
  | nil => exact .empty limits
  | append_singleton operations operation ih =>
    rw [List.foldl_append]
    exact (ih.run operation).1

/-- No erasure touches the index rows of another entry. -/
theorem erase_index (cache : ObjectCache) (id : ℕ) {key : HashType} {found : CacheIndex}
    (row : cache.index[key]? = some found) (other : found.entry ≠ id) : (cache.erase id).index[key]? = some found := by
  unfold ObjectCache.erase
  split
  · exact row
  · split_ifs
    · rw [getElem?_forgetRows, if_neg, row]
      simp [row, other]
    · exact row

end ObjectCache

/-- A cache in order. The account is exact and within the limits, the entries of the list are active, every index
row belongs to a published entry of the list that has the row under this key, a lookup finds exactly the indexed
keys and only published entries, and index rows go only with their own entry: an erasure takes none of another
entry, and no operation takes one whose entry it leaves in the list. -/
structure ObjectCache.Consistent (limits : ObjectLimits) (cache : ObjectCache) : Prop where
  bytes : cache.bytes.toNat = (cache.lru.map cache.sizeOf).sum
  bytes_le : cache.bytes ≤ limits.cacheBytes
  segments : cache.lru.length ≤ limits.cacheSegments.toNat
  active : ∀ id ∈ cache.lru, ∃ entry, cache.entries[id]? = some entry ∧ entry.active = true
  indexed : ∀ (key : HashType) (found : CacheIndex), cache.index[key]? = some found → found.entry ∈ cache.lru ∧
    ∃ entry data, cache.entries[found.entry]? = some entry ∧ entry.active = true ∧ entry.published = true ∧
      found.row ∈ entry.rows ∧ entry.segment.rows[found.row]? = some data ∧ data.key = key
  find_index : ∀ key, (cache.find key).2.index = cache.index
  find_isSome : ∀ key, (cache.find key).1.isSome = cache.index[key]?.isSome
  find_published : ∀ key view, (cache.find key).1 = some view → ∃ found entry, cache.index[key]? = some found ∧
    cache.entries[found.entry]? = some entry ∧ entry.published = true ∧ view = ⟨entry.segment, found.row⟩
  erase_index : ∀ (id : ℕ) (key : HashType) (found : CacheIndex), cache.index[key]? = some found →
    found.entry ≠ id → (cache.erase id).index[key]? = some found
  run_index : ∀ (operation : CacheOperation) (key : HashType) (found : CacheIndex),
    cache.index[key]? = some found → found.entry ∈ (operation.run limits cache).lru →
      (operation.run limits cache).index[key]? = some found

/-- The cache is in order after every sequence of operations. -/
theorem object_cache_consistent (limits : ObjectLimits) (operations : List CacheOperation) :
    (operations.foldl (CacheOperation.run limits) {}).Consistent limits := by
  set cache := operations.foldl (CacheOperation.run limits) {}
  have kept : cache.Bookkeeping limits none := ObjectCache.Bookkeeping.runs limits operations
  have published (key : HashType) (found : CacheIndex) (row : cache.index[key]? = some found) :
      found.entry ∈ cache.lru ∧ ∃ entry data, cache.entries[found.entry]? = some entry ∧ entry.active = true ∧
        entry.published = true ∧ found.row ∈ entry.rows ∧ entry.segment.rows[found.row]? = some data ∧
        data.key = key := by
    obtain ⟨owned, entry, data, allocated, active, visible, rest⟩ := kept.indexed key found row
    exact ⟨owned, entry, data, allocated, active, by simpa using visible, rest⟩
  have answer (key : HashType) := (kept.find_spec key).2
  refine ⟨kept.bytes, kept.bytes_le, kept.segments, kept.live, published, fun key => ?_, fun key => ?_,
    fun key view shown => ?_, fun id _ _ row other => cache.erase_index id row other,
    fun operation key found row survivor => (kept.run operation).2.index key found row survivor⟩
  · obtain ⟨⟨lru, -, same⟩, -⟩ := kept.find_spec key
    rw [same]
  · have answered := answer key
    cases row : cache.index[key]? with
    | none =>
      rw [row] at answered
      simp [answered]
    | some found =>
      rw [row] at answered
      obtain ⟨entry, -, view⟩ := answered
      simp [view]
  · have answered := answer key
    cases row : cache.index[key]? with
    | none =>
      rw [row] at answered
      simp [answered] at shown
    | some found =>
      rw [row] at answered
      obtain ⟨entry, allocated, view'⟩ := answered
      obtain ⟨-, entry', -, allocated', -, visible, -⟩ := published key found row
      rw [allocated, Option.some.injEq] at allocated'
      rw [view', Option.some.injEq] at shown
      exact ⟨found, entry, rfl, allocated, allocated' ▸ visible, shown.symm⟩

/-- Two segments with different objects that have the same hash. -/
def firstSegment : Segment := ⟨49, [⟨0xc44bdff4074eecdb, [0]⟩]⟩

def secondSegment : Segment :=
  ⟨81, [⟨0xe12ef9d2eb86ceeb, [1]⟩, ⟨0xc44bdff4074eecdb, [245, 124, 44, 245, 10, 50, 59, 35]⟩]⟩

/-- The cache with both segments staged. -/
def stagedCache : ObjectCache := ((ObjectCache.stage {} {} firstSegment [0]).2.stage {} secondSegment [0, 1]).2

/-- Both segments are written and opened, and publishing both of them throws and leaves the second one visible under its
first key, unpublished. -/
theorem thrown_publish_visible :
    (makeSegment xxh3Short {} (8 * 2 ^ 20) [⟨0xc44bdff4074eecdb, [0]⟩]).map (·.2) = .ok firstSegment ∧
      (makeSegment xxh3Short {} (8 * 2 ^ 20) [⟨0xe12ef9d2eb86ceeb, [1]⟩,
        ⟨0xc44bdff4074eecdb, [245, 124, 44, 245, 10, 50, 59, 35]⟩]).map (·.2) = .ok secondSegment ∧
      (stagedCache.publish [some 0, some 1]).1 = .error "Snapshot object cache publish conflict" ∧
      (stagedCache.publish [some 0, some 1]).2.entries[1]?.map (·.published) = some false ∧
      ((stagedCache.publish [some 0, some 1]).2.find 0xe12ef9d2eb86ceeb).1 = some ⟨secondSegment, 0⟩ := by
  decide +kernel

end DetSim.Search.Wire
