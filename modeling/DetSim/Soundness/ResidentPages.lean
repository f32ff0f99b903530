import DetSim.Model.ResidentMemory
import DetSim.Soundness.PageManifest
import DetSim.ToMathlib.Except

/-! # Resident pages are those of their snapshot

A publication takes pages of the image before it for pages of the new one. They are the same: both lists enumerate the
regions in order, so equal geometry gives equal places, and a key names one object. An image is held only while nothing
was written and nobody was resumed, and a region stays valid only while no write met it.
-/

namespace DetSim.Resident

open Kernel (Bytes scratchPage)
open Snapshot Except

/-! ## Enumerations -/

section Pages

variable {store : Store} {view : SnapshotView} {hint : Option Image} {image : Image} {pages : Pages} {page : Page}
  {region index : ℕ} {info : RegionInfo}

/-- How many pages the regions before a region have. -/
def firstPage (view : SnapshotView) (region : ℕ) : ℕ := ((view.regions.take region).map RegionInfo.pageCount).sum

/-- The key of a page: that of its reference, or zero in a flat snapshot. -/
def keyAt (view : SnapshotView) (region index : ℕ) : UInt64 :=
  ((view.regions[region]?).bind fun info => (references view)[info.offset.toNat + index]?).elim 0 PageRef.key

/-- A page of a snapshot with its key. -/
def pageAt (store : Store) (view : SnapshotView) (region index : ℕ) : Checked Page :=
  freshPage store view region index (keyAt view region index)

/-- The pages are those of the snapshot, region by region and without others. -/
structure Enumerates (store : Store) (view : SnapshotView) (pages : Pages) : Prop where
  offsets : pages.offsets = (List.range view.regions.length).map (firstPage view)
  count : pages.values.length = firstPage view view.regions.length
  values : ∀ region < view.regions.length, ∀ index < pageCount view region, ∃ page,
    pages.values[firstPage view region + index]? = some page ∧ pageAt store view region index = .ok page

theorem pageCount_eq (read : view.regions[region]? = some info) : pageCount view region = info.pageCount := by
  rw [pageCount, read]
  rfl

theorem firstPage_succ (inside : region < view.regions.length) :
    firstPage view (region + 1) = firstPage view region + pageCount view region := by
  have read := List.getElem?_eq_getElem inside
  rw [firstPage, firstPage, List.take_add_one, pageCount_eq read, read, List.map_append, List.sum_append]
  simp only [Option.toList_some, List.map_cons, List.map_nil, List.sum_singleton]

/-- What the image hands out is a page of its snapshot. -/
theorem Enumerates.page_eq (exact : Enumerates store image.snapshot image.pages)
    (read : image.page region index = .ok page) : pageAt store image.snapshot region index = .ok page := by
  unfold Image.page at read
  rw [exact.offsets, List.getElem?_map] at read
  by_cases inside : region < image.snapshot.regions.length
  · rw [List.getElem?_range inside, Option.map_some] at read
    have stop : (((List.range image.snapshot.regions.length).map (firstPage image.snapshot))[region + 1]?).getD
        image.pages.values.length = firstPage image.snapshot region + pageCount image.snapshot region := by
      rw [← firstPage_succ inside, List.getElem?_map]
      by_cases more : region + 1 < image.snapshot.regions.length
      · rw [List.getElem?_range more]
        rfl
      · rw [List.getElem?_eq_none (by simpa using more), exact.count, ← Nat.le_antisymm inside (Nat.not_lt.mp more)]
        rfl
    dsimp only at read
    rw [stop, sub64_eq (Nat.le_add_right ..), Nat.add_sub_cancel_left] at read
    obtain ⟨_, checked, found⟩ := bind_eq_ok.mp (show (require (index < pageCount image.snapshot region) _ >>= _) = _ from read)
    unfold require at checked
    split_ifs at checked with below
    obtain ⟨other, there, same⟩ := exact.values region inside index below
    rw [there] at found
    exact same.trans found
  · rw [List.getElem?_eq_none (by simpa using inside)] at read
    contradiction

/-! ## References -/

theorem length_of_coveredFrom {stop address : ℕ} {covered : List PageRef} (cover : CoveredFrom stop address covered)
    (inside : address < stop) : covered.length = (stop - 1) / pageSize - address / pageSize + 1 := by
  induction covered generalizing address with
  | nil => exact absurd inside (Nat.not_lt.mpr cover)
  | cons page rest ih =>
    obtain ⟨-, -, later⟩ := cover
    rw [List.length_cons]
    unfold chunkLength pageSize at *
    by_cases more : address + min (stop - address) (4096 - address % 4096) < stop
    · rw [ih later more]
      omega
    · cases rest with
      | nil =>
        simp only [List.length_nil]
        omega
      | cons next rest => exact absurd later.1 more

/-- The pages of a region start where those before it end. -/
theorem offset_of_wellFormed {previous first : ℕ} {regions : List RegionInfo} {references : List PageRef}
    (formed : WellFormed previous first regions references) {region : ℕ} {info : RegionInfo}
    (read : regions[region]? = some info) :
    info.offset.toNat = first + ((regions.take region).map RegionInfo.pageCount).sum := by
  induction formed generalizing region with
  | nil => simp at read
  | @cons _ first top regions covered pages protection nonempty order offset cover rest ih =>
    cases region with
    | zero =>
      cases read
      simpa using offset
    | succ region =>
      rw [List.getElem?_cons_succ] at read
      rw [ih read, length_of_coveredFrom cover (UInt64.lt_iff_toNat_lt.mp nonempty), List.take_succ_cons,
        List.map_cons, List.sum_cons, RegionInfo.pageCount]
      omega

/-- An opened snapshot is flat, or its regions point at their pages. -/
structure Aligned (view : SnapshotView) : Prop where
  offset : paged view = true → ∀ region info, view.regions[region]? = some info →
    info.offset.toNat = firstPage view region

theorem aligned_of_open {data : Bytes} (small : data.length ≤ uint64Max)
    (opened : snapshotView pageSize data = .ok view) :
    Aligned view := by
  refine ⟨fun is region info read => ?_⟩
  obtain flat | ⟨h, opened⟩ := ((computes_snapshotView pageSize small).returns view).mp opened
  · rw [paged, flat.version] at is
    contradiction
  · rw [offset_of_wellFormed opened.memory read, Nat.zero_add, firstPage]

theorem version_of_paged (is : paged view = true) : view.header.version = pageSnapshotVersion := by
  simpa [paged] using is

/-- A page of a paged snapshot is the object its reference names. -/
theorem pageAt_eq_ok_iff (is : paged view = true) (read : view.regions[region]? = some info) {reference : PageRef}
    (below : index < info.pageCount) (named : view.pages[info.offset.toNat + index]? = some reference) :
    pageAt store view region index = .ok page ↔ ∃ bytes, store reference.key = some bytes ∧
      bytes.length = reference.length.toNat ∧
      page = ⟨⟨reference.address.toNat, reference.length.toNat, bytes⟩, reference.key⟩ := by
  have key : keyAt view region index = reference.key := by simp [keyAt, references, is, read, named]
  have empty : (({} : PageCache).cachedPages.findSome? fun cached =>
      if cached.key = reference.key then cached.bytes else none) = none := by
    simp
  rw [pageAt, key, freshPage, SnapshotView.page, read]
  simp only [below, if_true, version_of_paged is, pagedPage, named, empty]
  cases found : store reference.key with
  | none => simp [Except.map]
  | some bytes =>
    by_cases sized : bytes.length = reference.length.toNat
    · simp [sized, Except.map, eq_comm]
    · simp [sized, Except.map]

/-! ## Loading -/

/-- An image that was made of a snapshot of the store. -/
structure Proven (store : Store) (image : Image) : Prop where
  opened : openSnapshot store image.root = .ok image.snapshot
  pages : Enumerates store image.snapshot image.pages

/-- A page that a round of the loop adds is the next one of the snapshot. -/
theorem loadPage_eq (aligned : Aligned view) (proven : ∀ image, hint = some image → Proven store image)
    (inside : region < view.regions.length)
    (below : index < pageCount view region)
    (loaded : loadPage store view hint (firstPage view region + index) region index = .ok page) :
    pageAt store view region index = .ok page := by
  obtain ⟨info, read⟩ : ∃ info, view.regions[region]? = some info := ⟨_, List.getElem?_eq_getElem inside⟩
  unfold loadPage at loaded
  split at loaded
  · next none =>
    have key : keyAt view region index = 0 := by simp [keyAt, read, List.isEmpty_iff.mp none]
    rwa [pageAt, key]
  · next some =>
    have is : paged view = true := by
      by_contra flat
      simp [references, flat] at some
    have position := aligned.offset is region info read
    rw [references, if_pos is, ← position] at loaded
    split at loaded
    · contradiction
    · next desired named =>
      have key : keyAt view region index = desired.key := by simp [keyAt, references, is, read, named]
      split at loaded
      · rwa [pageAt, key]
      · next old reused =>
        rw [matchingHint] at reused
        split_ifs at reused
        obtain ⟨given, fits⟩ := Option.filter_eq_some_iff.mp reused
        simp only [Bool.and_eq_true, sameGeometry, beq_iff_eq] at fits
        obtain ⟨⟨isOld, -⟩, -, regions⟩ := fits
        obtain ⟨other, handed, rest⟩ := bind_eq_ok.mp loaded
        split_ifs at rest with same
        · cases rest
          have before := (proven old given).pages.page_eq handed
          have below : index < info.pageCount := pageCount_eq read ▸ below
          have readOld := read
          rw [← regions] at readOld
          obtain ⟨reference, namedOld⟩ : ∃ reference, old.snapshot.pages[info.offset.toNat + index]? =
              Option.some reference := by
            by_contra absent
            simp [pageAt, freshPage, SnapshotView.page, readOld, pagedPage, Except.map, below,
              version_of_paged isOld,
              Option.eq_none_iff_forall_ne_some.mpr fun reference is => absent ⟨reference, is⟩] at before
          obtain ⟨bytes, stored, sized, rfl⟩ := (pageAt_eq_ok_iff isOld readOld below namedOld).mp before
          obtain ⟨key, address, length⟩ := same
          dsimp only at key address length
          refine (pageAt_eq_ok_iff is read below named).mpr ⟨bytes, key ▸ stored, length ▸ sized, ?_⟩
          rw [key, address, length]
        · rwa [pageAt, key]

/-- The pages of the regions before a region have been loaded. -/
structure LoadedTo (store : Store) (view : SnapshotView) (region : ℕ) (pages : Pages) : Prop where
  offsets : pages.offsets = (List.range region).map (firstPage view)
  count : pages.values.length = firstPage view region
  values : ∀ other < region, ∀ index < pageCount view other, ∃ page,
    pages.values[firstPage view other + index]? = some page ∧ pageAt store view other index = .ok page

theorem LoadedTo.loadRegion (aligned : Aligned view) (proven : ∀ image, hint = some image → Proven store image)
    (inside : region < view.regions.length) (before : LoadedTo store view region pages) {after : Pages}
    (loaded : loadRegion store view hint pages region = .ok after) : LoadedTo store view (region + 1) after := by
  obtain ⟨values, scanned, last⟩ := bind_eq_ok.mp loaded
  cases last
  -- The loop over the pages of the region appends them one by one.
  obtain ⟨new, rfl, number, each⟩ := foldlM_range (fun index values => ∃ new, values = pages.values ++ new ∧
      new.length = index ∧ ∀ other < index, ∃ page, new[other]? = some page ∧ pageAt store view region other = .ok page)
    ⟨[], (List.append_nil _).symm, rfl, by simp⟩ (by
      rintro index below _ next ⟨new, rfl, number, each⟩ stepped
      obtain ⟨page, found, last⟩ := bind_eq_ok.mp stepped
      cases last
      rw [List.length_append, before.count, number] at found
      refine ⟨new ++ [page], by simp, by simp [number], fun other bound => ?_⟩
      rcases Nat.lt_succ_iff_lt_or_eq.mp bound with less | rfl
      · rw [List.getElem?_append_left (by omega)]
        exact each other less
      · exact ⟨page, by simp [← number], loadPage_eq aligned proven inside below found⟩) scanned
  refine ⟨?_, ?_, fun other bound index below => ?_⟩
  · rw [before.offsets, before.count, List.range_succ, List.map_append]
    rfl
  · rw [List.length_append, before.count, number, firstPage_succ inside]
  · rcases Nat.lt_succ_iff_lt_or_eq.mp bound with less | rfl
    · obtain ⟨page, there, same⟩ := before.values other less index below
      exact ⟨page, by rw [List.getElem?_append_left (List.getElem?_eq_some_iff.mp there).1, there], same⟩
    · obtain ⟨page, there, same⟩ := each index below
      exact ⟨page, by rw [← before.count, List.getElem?_append_right (by omega), Nat.add_sub_cancel_left, there], same⟩

/-- Taken over or loaded, the pages are those of the snapshot. -/
theorem residentPages_exact (aligned : Aligned view) (proven : ∀ image, hint = some image → Proven store image)
    (loaded : residentPages store view hint = .ok pages) : Enumerates store view pages := by
  unfold residentPages at loaded
  split at loaded
  · next image reused =>
    cases loaded
    obtain ⟨given, fits⟩ := Option.filter_eq_some_iff.mp reused
    simp only [Bool.and_eq_true, sameGeometry, beq_iff_eq] at fits
    obtain ⟨⟨⟨is, isOld⟩, -, regions⟩, named⟩ := fits
    have exact := (proven image given).pages
    have count : pageCount image.snapshot = pageCount view := by unfold pageCount; rw [regions]
    have first : firstPage image.snapshot = firstPage view := by unfold firstPage; rw [regions]
    have same : pageAt store image.snapshot = pageAt store view := by
      unfold pageAt freshPage SnapshotView.page keyAt references
      simp only [regions, named, version_of_paged is, version_of_paged isOld, is, isOld, if_true]
    exact ⟨by rw [exact.offsets, regions, first], by rw [exact.count, regions, first],
      by rw [← regions, ← first, ← count, ← same]; exact exact.values⟩
  · obtain ⟨offsets, number, values⟩ := foldlM_range (LoadedTo store view) ⟨rfl, by simp [firstPage], by simp⟩
      (fun region inside state next before stepped => before.loadRegion aligned proven inside stepped) loaded
    exact ⟨offsets, number, values⟩

end Pages

/-! ## Entries -/

/-- What captures guarantee of the snapshots they save: the text of the mappings determines the number of regions, and
the scratch page is left out. -/
structure Captured (regions : Bytes → ℕ) (store : Store) : Prop where
  none : regions [] = 0
  block : ∀ root data, store root = some data → data.length ≤ uint64Max
  count : ∀ root view, openSnapshot store root = .ok view → view.regions.length = regions view.mapsText
  scratch : ∀ root view, openSnapshot store root = .ok view → ∀ region ∈ view.regions,
    region.stop.toNat ≤ scratchPage.toNat ∨ scratchPage.toNat + 4096 ≤ region.start.toNat

theorem Captured.aligned {regions : Bytes → ℕ} {store : Store} (captured : Captured regions store) {root : UInt64}
    {view : SnapshotView} (opened : openSnapshot store root = .ok view) : Aligned view := by
  unfold openSnapshot at opened
  split at opened
  · contradiction
  · next data stored => exact aligned_of_open (captured.block root data stored) opened

variable {np : ℕ} {contents : ℕ → Store} {state : Registry np} {op : Op np} {node : Fin np} {entry : Entry}
  {regions : Bytes → ℕ}

/-- The images of an entry are proven, and its flags are those of its regions. -/
structure Entry.Sound (regions : Bytes → ℕ) (contents : ℕ → Store) (entry : Entry) : Prop where
  image : ∀ image, entry.image = some image → Proven (contents entry.generation) image
  guarded : ∀ image, entry.protectedImage = some image → Proven (contents entry.generation) image
  hint : ∀ image, entry.objectHint = some image → Proven (contents entry.generation) image
  described : entry.eligible.length = regions entry.eligibleMaps
  flags : ∀ image, entry.image = some image → entry.eligible.length = image.snapshot.regions.length
  valid : ∀ image, entry.protectedImage = some image → entry.protectedValid.length = image.snapshot.regions.length

/-- What an operation can do to the entry of a node. -/
inductive Alters (contents : ℕ → Store) (state : Registry np) (node : Fin np) : Op np → Entry → Prop
  | kept (op : Op np) : Alters contents state node op (state.entries node)
  | cleared (op : Op np) : Alters contents state node op {}
  | invalidated (op : Op np) : Alters contents state node op (state.entries node).invalidate
  | demoted (op : Op np) : Alters contents state node op (state.entries node).demote
  | wrote (op : Op np) (address length : ℕ) : Alters contents state node op ((state.entries node).write address length)
  | published {service : Entry.Service} {pid : Int32} (root brk : UInt64)
      (owns : state.nodeFor pid = some node) : Alters contents state node (.publish service pid root brk)
        ((state.entries node).publish (contents state.generation) state.generation service pid root brk).1

theorem entries_set (other node : Fin np) (new : Entry) :
    (state.set other new).entries node = if node = other then new else state.entries node :=
  Function.update_apply ..

theorem alters_set (other : Fin np) {new : Entry} (here : Alters contents state other op new) :
    Alters contents state node op ((state.set other new).entries node) := by
  rw [entries_set]
  split
  · next same =>
    subst same
    exact here
  · exact .kept op

theorem alters_invalidate (tid : Int32) : Alters contents state node op ((state.invalidate tid).entries node) := by
  unfold Registry.invalidate
  split
  · exact .cleared op
  · exact alters_set _ (.invalidated op)

/-- A check answers with a node and changes nothing, or may clear the entry of the node. -/
theorem Registry.checked_cases (state : Registry np) (probe : Probe) (pid : Int32) :
    (state.checked probe pid).2 = state ∨ (state.checked probe pid).1 = none ∧
      ∃ other, state.nodeFor pid = some other ∧ (state.checked probe pid).2 = state.set other {} := by
  unfold Registry.checked
  split
  · exact .inl rfl
  split
  · exact .inl rfl
  next other owns =>
  dsimp only
  split
  · exact .inr ⟨rfl, other, owns, rfl⟩
  · exact .inl rfl

theorem alters_step : Alters contents state node op ((state.step contents op).entries node) := by
  cases op with
  | publish service pid root brk =>
    unfold Registry.step Registry.publish
    dsimp only
    split
    · exact .kept _
    next other owns =>
    split
    · exact .kept _
    · exact alters_set other (.published root brk owns)
  | writing tid address length =>
    unfold Registry.step Registry.writing
    dsimp only
    split
    · exact .kept _
    split
    · exact .cleared _
    split
    · exact .cleared _
    split
    · exact alters_set _ (.cleared _)
    · exact alters_set _ (.wrote _ _ _)
  | resuming probe tid kind =>
    cases kind with
    | readOnly => exact .kept _
    | unprotected => exact alters_invalidate tid
    | guarded =>
      unfold Registry.step Registry.resuming
      dsimp only
      have cases := state.checked_cases probe tid
      generalize state.checked probe tid = answer at cases ⊢
      rcases answer with ⟨_ | found, after⟩ <;> dsimp only at cases <;>
        obtain rfl | ⟨none, other, owns, rfl⟩ := cases
      · exact alters_invalidate tid
      · have same : (state.set other {}).nodeFor tid = some other := owns
        dsimp only
        rw [Registry.invalidate, same]
        dsimp only
        rw [entries_set, entries_set, entries_set, if_pos rfl]
        split
        · exact .cleared _
        · exact .kept _
      · exact alters_set found (.demoted _)
      · contradiction
  | invalidate tid => exact alters_invalidate tid
  | invalidateAll => exact .cleared _
  | get probe pid =>
    unfold Registry.step
    dsimp only
    obtain same | ⟨-, other, -, same⟩ := state.checked_cases probe pid <;> rw [same]
    · exact .kept _
    · exact alters_set other (.cleared _)
  | reopen generation => exact .kept _
  | processes processes => exact .kept _

/-! ## Proven images -/

theorem describeProtected_length (entry : Entry) (mapped : Bytes → RegionInfo → Bool) {snapshot : SnapshotView}
    (described : entry.eligible.length = regions entry.eligibleMaps)
    (count : snapshot.regions.length = regions snapshot.mapsText) :
    (entry.describeProtected mapped snapshot).eligible.length = snapshot.regions.length ∧
      (entry.describeProtected mapped snapshot).eligibleMaps = snapshot.mapsText ∧
      (entry.describeProtected mapped snapshot).generation = entry.generation := by
  unfold Entry.describeProtected
  split
  · next same => exact ⟨by rw [described, count, same], same, rfl⟩
  · exact ⟨List.length_map .., rfl, rfl⟩

namespace Entry.Sound

theorem empty (none : regions [] = 0) : Entry.Sound regions contents {} :=
  ⟨by simp, by simp, by simp, none.symm, by simp, by simp⟩

theorem demote (sound : entry.Sound regions contents) : entry.demote.Sound regions contents := by
  unfold Entry.demote
  split
  · exact sound
  · next image held =>
    refine ⟨by simp, ?_, sound.hint, sound.described, by simp, ?_⟩
    · rintro _ ⟨rfl⟩
      exact sound.image image held
    · rintro _ ⟨rfl⟩
      exact sound.flags image held

theorem write (sound : entry.Sound regions contents) (address length : ℕ) :
    (entry.write address length).Sound regions contents := by
  have demoted := sound.demote
  unfold Entry.write
  dsimp only
  split
  · exact demoted
  · refine ⟨demoted.image, demoted.guarded, demoted.hint, demoted.described, demoted.flags, fun image held => ?_⟩
    rw [List.length_mapIdx]
    exact demoted.valid image held

theorem publish (captured : ∀ generation, Captured regions (contents generation)) (sound : entry.Sound regions contents)
    (generation : ℕ) (service : Service) (pid : Int32) (root brk : UInt64) :
    (entry.publish (contents generation) generation service pid root brk).1.Sound regions contents := by
  have fresh : Entry.Sound regions contents {} := .empty (captured 0).none
  obtain ⟨start, sound, here⟩ : ∃ start : Entry, start.Sound regions contents ∧
      (if entry.pid ≠ pid ∨ entry.generation ≠ generation then {} else entry) = start ∧
        (start.objectHint = none ∨ start.generation = generation) := by
    split
    · exact ⟨_, fresh, rfl, .inl rfl⟩
    · next same => exact ⟨entry, sound, rfl, .inr (by tauto)⟩
  unfold Entry.publish
  rw [here.1]
  dsimp only
  split
  · exact sound
  next snapshot opened =>
  have opened : openSnapshot (contents generation) root = .ok snapshot := by
    split at opened
    · exact opened
    · contradiction
  split
  · exact ⟨sound.image, sound.guarded, sound.hint, sound.described, sound.flags, sound.valid⟩
  split
  · exact sound
  next pages loaded =>
  have count := (captured generation).count root snapshot opened
  have proven : Proven (contents generation) ⟨snapshot, root, brk, pages⟩ := by
    refine ⟨opened, residentPages_exact ((captured generation).aligned opened) (fun image given => ?_) loaded⟩
    obtain none | same := here.2
    · rw [none] at given
      contradiction
    · exact same ▸ sound.hint image given
  split
  · exact fresh
  obtain ⟨bound, same, described⟩ : ∃ bound : Entry,
      (if decide (start.pid ≠ pid) || !start.bound then { pid, bound := true } else start) = bound ∧
        bound.eligible.length = regions bound.eligibleMaps := by
    split
    · exact ⟨_, rfl, fresh.described⟩
    · exact ⟨start, rfl, sound.described⟩
  rw [same]
  obtain ⟨sized, maps, current⟩ := describeProtected_length { bound with generation } service.mapped described count
  refine ⟨?_, by simp, ?_, sized.trans (count.trans (congrArg regions maps.symm)), ?_, by simp⟩ <;>
    rintro _ ⟨rfl⟩
  · exact current.symm ▸ proven
  · exact current.symm ▸ proven
  · exact sized

end Entry.Sound

theorem Entry.Sound.alters (captured : ∀ generation, Captured regions (contents generation))
    (sound : (state.entries node).Sound regions contents) {new : Entry} (alters : Alters contents state node op new) :
    new.Sound regions contents := by
  cases alters with
  | kept => exact sound
  | cleared => exact .empty (captured 0).none
  | invalidated => exact ⟨by simp [Entry.invalidate], by simp [Entry.invalidate], sound.hint, sound.described,
      by simp [Entry.invalidate], by simp [Entry.invalidate]⟩
  | demoted => exact sound.demote
  | wrote _ address length => exact sound.write address length
  | published root brk => exact sound.publish captured ..

theorem sound_run (captured : ∀ generation, Captured regions (contents generation)) (processes : Processes np)
    (ops : List (Op np)) (node : Fin np) :
    ((Registry.run contents { processes } ops).entries node).Sound regions contents := by
  refine List.foldlRecOn ops _ (motive := fun state : Registry np => (state.entries node).Sound regions contents)
    (.empty (captured 0).none) fun state sound op _ => sound.alters captured alters_step

/-! ## What is reported -/

/-- An entry without an image whose listed regions are not valid. -/
structure Entry.Silent (bad : ℕ → Prop) (entry : Entry) : Prop where
  image : entry.image = none
  valid : ∀ index, bad index → entry.protectedValid[index]? ≠ some true

theorem Entry.Silent.alters {bad : ℕ → Prop} (silent : (state.entries node).Silent bad)
    (foreign : ∀ service pid root brk, op = .publish service pid root brk → state.nodeFor pid ≠ some node) {new : Entry}
    (alters : Alters contents state node op new) : new.Silent bad := by
  have same : (state.entries node).demote = state.entries node := by rw [Entry.demote, silent.image]
  cases alters with
  | kept => exact silent
  | cleared => exact ⟨rfl, by simp⟩
  | invalidated => exact ⟨rfl, by simp [Entry.invalidate]⟩
  | demoted => exact same.symm ▸ silent
  | wrote _ address length =>
    unfold Entry.write
    rw [same]
    dsimp only
    split
    · exact silent
    · refine ⟨silent.image, fun index listed => ?_⟩
      have kept := silent.valid index listed
      rw [List.getElem?_mapIdx]
      cases found : (state.entries node).protectedValid[index]? with
      | none => simp
      | some valid =>
        rw [found] at kept
        cases valid with
        | false => simp
        | true => exact absurd rfl kept
  | published root brk owns => exact absurd owns (foreign _ _ root brk rfl)

/-- No publication for the node. -/
def Unpublished (contents : ℕ → Store) (node : Fin np) : Registry np → List (Op np) → Prop
  | _, [] => True
  | state, op :: rest => (∀ service pid root brk, op = .publish service pid root brk → state.nodeFor pid ≠ some node) ∧
      Unpublished contents node (state.step contents op) rest

theorem Entry.Silent.run {bad : ℕ → Prop} {ops : List (Op np)} (silent : (state.entries node).Silent bad)
    (unpublished : Unpublished contents node state ops) : ((state.run contents ops).entries node).Silent bad := by
  induction ops generalizing state with
  | nil => exact silent
  | cons op rest ih => exact ih (silent.alters unpublished.1 alters_step) unpublished.2

/-- The image that an entry holds, or held at last. -/
def Entry.lastImage (entry : Entry) : Option Image := entry.image <|> entry.protectedImage

theorem silent_writing (captured : ∀ generation, Captured regions (contents generation))
    (sound : (state.entries node).Sound regions contents) {tid : Int32} (owns : state.nodeFor tid = some node)
    {address : UInt64} {length : ℕ} (some : length ≠ 0) {image : Image} (held : (state.entries node).lastImage = .some image)
    {index : ℕ} {region : RegionInfo} (read : image.snapshot.regions[index]? = .some region)
    (meets : Entry.overlaps address.toNat length region) :
    ((state.writing tid address length).entries node).Silent (· = index) := by
  obtain ⟨gone, last⟩ : (state.entries node).demote.image = none ∧
      (state.entries node).demote.protectedImage = .some image := by
    unfold Entry.lastImage at held
    unfold Entry.demote
    cases live : (state.entries node).image with
    | none => exact ⟨live, by simpa [live] using held⟩
    | some other => exact ⟨rfl, by simpa [live] using held⟩
  have apart := (captured _).scratch _ _ (sound.demote.guarded image last).opened region (List.mem_of_getElem? read)
  have outside : ¬(length = 0 ∨ Registry.inScratch address length) := by
    rintro (none | ⟨low, near, fits⟩)
    · exact some none
    · obtain ⟨below, above⟩ := meets
      rw [UInt64.lt_iff_toNat_lt, UInt64.toNat_sub_of_le _ _ low] at near
      rw [UInt64.toNat_sub_of_le _ _ low] at fits
      rw [UInt64.le_iff_toNat_le] at low
      omega
  unfold Registry.writing
  rw [if_neg outside, owns]
  dsimp only
  split
  · exact ⟨rfl, by simp [Registry.invalidateAll]⟩
  split
  · rw [entries_set, if_pos rfl]
    exact ⟨rfl, by simp⟩
  rw [entries_set, if_pos rfl]
  unfold Entry.write
  dsimp only
  rw [last]
  refine ⟨gone, ?_⟩
  rintro _ rfl
  rw [List.getElem?_mapIdx, read]
  simp [meets]

theorem silent_resuming {tid : Int32} (owns : state.nodeFor tid = some node) (probe : Probe) :
    ((state.resuming probe tid .unprotected).entries node).Silent fun _ => True := by
  rw [Registry.resuming, Registry.invalidate, owns]
  dsimp only
  rw [entries_set, if_pos rfl]
  exact ⟨rfl, by simp [Entry.invalidate]⟩

theorem checked_node {probe : Probe} {pid : Int32} (found : (state.checked probe pid).1 = some node) :
    state.nodeFor pid = some node := by
  unfold Registry.checked at found
  split at found
  · contradiction
  split at found
  · contradiction
  next owns =>
  dsimp only at found
  split at found
  · contradiction
  · exact owns.trans found

/-- Nothing is reported of a silent entry. -/
theorem Entry.Silent.unreported {bad : ℕ → Prop} (silent : (state.entries node).Silent bad) {pid : Int32}
    (owns : state.nodeFor pid = some node) (probe : Probe) : state.get probe pid = none ∧
      ∀ index, bad index → ∀ start stop protection, state.readOnlyRegion probe pid index start stop protection = false := by
  unfold Registry.get Registry.readOnlyRegion
  cases found : (state.checked probe pid).1 with
  | none => simp
  | some other =>
    obtain rfl : node = other := Option.some.inj (owns.symm.trans (checked_node found))
    refine ⟨silent.image, fun index listed start stop protection => ?_⟩
    have invalid : ((state.entries node).protectedValid[index]? == some true) = false :=
      beq_eq_false_iff_ne.mpr (silent.valid index listed)
    simp [invalid]

/-- Over every sequence of operations on the entries of the nodes, with snapshots as captures save them: the pages of an
image are those of its snapshot, region by region, and the flags are those of its regions. After a write that meets a
region of the image, and until the next publication for the node, neither the image nor the region is reported; after an
unprotected resume, neither the image nor any region is. -/
theorem resident_pages_exact {regions : Bytes → ℕ} {contents : ℕ → Store}
    (captured : ∀ generation, Captured regions (contents generation)) {np : ℕ} (processes : Processes np)
    (ops : List (Op np)) {state : Registry np} (reached : state = Registry.run contents { processes } ops) :
    (∀ node image, (state.entries node).image = some image ∨ (state.entries node).protectedImage = some image →
      openSnapshot (contents (state.entries node).generation) image.root = .ok image.snapshot ∧
        Enumerates (contents (state.entries node).generation) image.snapshot image.pages) ∧
    (∀ node image, (state.entries node).protectedImage = some image →
      (state.entries node).protectedValid.length = image.snapshot.regions.length) ∧
    (∀ node tid, state.nodeFor tid = some node → ∀ address length, length ≠ 0 →
      ∀ image, (state.entries node).lastImage = some image → ∀ index region,
      image.snapshot.regions[index]? = some region → Entry.overlaps address.toNat length region → ∀ later last,
      Unpublished contents node (state.writing tid address length) later →
      last = (state.writing tid address length).run contents later → ∀ pid, last.nodeFor pid = some node → ∀ probe,
        last.get probe pid = none ∧
          ∀ start stop protection, last.readOnlyRegion probe pid index start stop protection = false) ∧
    ∀ node tid, state.nodeFor tid = some node → ∀ resumed later last,
      Unpublished contents node (state.resuming resumed tid .unprotected) later →
      last = (state.resuming resumed tid .unprotected).run contents later →
      ∀ pid, last.nodeFor pid = some node → ∀ probe, last.get probe pid = none ∧
        ∀ index start stop protection, last.readOnlyRegion probe pid index start stop protection = false := by
  subst reached
  have sound := sound_run captured processes ops
  refine ⟨fun node image held => ?_, fun node image => (sound node).valid image, ?_, ?_⟩
  · have proven := held.elim ((sound node).image image) ((sound node).guarded image)
    exact ⟨proven.opened, proven.pages⟩
  · rintro node tid owns address length some image held index region read meets later last unpublished rfl pid same probe
    have silent := (silent_writing captured (sound node) owns some held read meets).run unpublished
    exact ⟨(silent.unreported same probe).1, (silent.unreported same probe).2 index rfl⟩
  · rintro node tid owns resumed later last unpublished rfl pid same probe
    have silent := (silent_resuming owns resumed).run unpublished
    exact ⟨(silent.unreported same probe).1, fun index => (silent.unreported same probe).2 index trivial⟩

/-! ## One read-only byte -/

/-- A read-only region of one byte. -/
def oneByte (start : UInt64) (bounded : start.toNat + 1 ≤ uint64Max) : ImageRegion where
  start := start
  prot := 1
  flags := ⟨114, 45, 45, 112, 0⟩
  bytes := [7]
  nonempty := List.cons_ne_nil _ _
  bounded := bounded

/-- A store with two snapshots of the region, which share its page. -/
def byteStore (region : ImageRegion) : Store := fun root =>
  if root = 5 ∨ root = 6 then
    (encodePaged (fun _ => 9) [region] [root.toUInt8] [1] (List.replicate regsSize 0)).toOption
  else if root = 9 then some [7] else none

/-- The host serves everything. -/
def willing : Entry.Service := ⟨true, true, fun _ _ => true⟩

def oneProcess : Processes 1 := ⟨fun _ => 100, fun _ => []⟩

/-- The byte was published and written, the second publication took its page over, and its process was resumed in the
user's code. -/
def byteOps : List (Op 1) :=
  [.publish willing 100 5 0, .writing 100 4096 1, .publish willing 100 6 0, .resuming ⟨false, true⟩ 100 .guarded]

def byteState (region : ImageRegion) : Registry 1 :=
  Registry.run (fun _ => byteStore region) { processes := oneProcess } byteOps

def lowByte : ImageRegion := oneByte 4096 (by decide)

def scratchByte : ImageRegion := oneByte scratchPage (by decide)

theorem captured_byte : Captured (fun maps => if maps = [1] then 1 else 0) (byteStore lowByte) := by
  have stored : ∀ root data, byteStore lowByte root = some data → root ∈ [5, 6, 9] := by
    intro root data stored
    by_contra other
    simp_all [byteStore]
  have all : ∀ root view, openSnapshot (byteStore lowByte) root = .ok view →
      view.mapsText = [1] ∧ view.regions.length = 1 ∧ ∀ region ∈ view.regions, region.stop.toNat ≤ scratchPage.toNat := by
    intro root view opened
    have evaluated : ([5, 6, 9].all fun root => (openSnapshot (byteStore lowByte) root).toOption.all fun view =>
        decide (view.mapsText = [1] ∧ view.regions.length = 1 ∧
          ∀ region ∈ view.regions, region.stop.toNat ≤ scratchPage.toNat)) = true := by decide +kernel
    have known : root ∈ [5, 6, 9] := by
      cases found : byteStore lowByte root with
      | none =>
        rw [openSnapshot, found] at opened
        cases opened
      | some data => exact stored root data found
    have one := List.all_eq_true.mp evaluated root known
    rw [opened] at one
    exact of_decide_eq_true one
  refine ⟨rfl, fun root data found => ?_, fun root view opened => ?_, fun root view opened region member => ?_⟩
  · have evaluated : ([5, 6, 9].all fun root => (byteStore lowByte root).all fun data =>
        decide (data.length ≤ uint64Max)) = true := by decide +kernel
    have one := List.all_eq_true.mp evaluated root (stored root data found)
    rw [found] at one
    exact of_decide_eq_true one
  · obtain ⟨maps, count, -⟩ := all root view opened
    rw [count, maps]
    rfl
  · exact .inl ((all root view opened).2.2 region member)

/-- The byte is in memory as it was saved, until it is written. -/
theorem resident_pages_exact_byte :
    ((byteState lowByte).entries 0).lastImage.map (fun image => (image.root, image.pages.values.map Page.key)) =
      some (6, [9]) ∧
    (byteState lowByte).readOnlyRegion ⟨false, true⟩ 100 0 4096 4097 1 = true ∧
      ((byteState lowByte).writing 100 4096 1).readOnlyRegion ⟨false, true⟩ 100 0 4096 4097 1 = false := by
  have exact := (resident_pages_exact (fun _ => captured_byte) oneProcess byteOps (Eq.refl (byteState lowByte))).2.2.1
  have owns : (byteState lowByte).nodeFor 100 = some 0 ∧ ((byteState lowByte).writing 100 4096 1).nodeFor 100 = some 0 ∧
      (byteState lowByte).readOnlyRegion ⟨false, true⟩ 100 0 4096 4097 1 = true := by decide +kernel
  have taken : ((byteState lowByte).entries 0).lastImage.map (fun image => (image.root, image.pages.values.map Page.key)) =
      some (6, [9]) := by decide +kernel
  obtain ⟨image, held, region, read, meets⟩ : ∃ image, ((byteState lowByte).entries 0).lastImage = some image ∧
      ∃ region, image.snapshot.regions[0]? = some region ∧ Entry.overlaps (4096 : UInt64).toNat 1 region := by
    have evaluated : (((byteState lowByte).entries 0).lastImage.any fun image =>
        (image.snapshot.regions[0]?).any fun region => Entry.overlaps (4096 : UInt64).toNat 1 region) = true := by
      decide +kernel
    simpa [Option.any_eq_true] using evaluated
  generalize byteState lowByte = state at *
  refine ⟨taken, owns.2.2, ?_⟩
  exact (exact 0 100 owns.1 4096 1 one_ne_zero image held 0 region read meets [] _ trivial rfl 100 owns.2.1 _).2 4096 4097 1

/-- A write to the scratch page is not noticed, also if a snapshot has a region there. -/
theorem scratch_write_unnoticed :
    ((byteState scratchByte).entries 0).lastImage.any (fun image =>
      (image.snapshot.regions[0]?).any fun region => Entry.overlaps scratchPage.toNat 1 region) = true ∧
    ((byteState scratchByte).writing 100 scratchPage 1).readOnlyRegion ⟨false, true⟩ 100 0
      scratchPage (scratchPage + 1) 1 = true := by
  decide +kernel

end DetSim.Resident
