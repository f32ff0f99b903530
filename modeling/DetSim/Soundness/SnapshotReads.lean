import DetSim.Soundness.PageManifest

/-! # Flat and paged snapshots read the same memory

An image of memory is a list of regions with their bytes. Both encodings of an image are snapshots that the
constructor accepts, and a chunk of either holds the bytes of the image at its addresses. A read goes from
chunk to chunk, so it returns the bytes of the image, or throws where the image has none.
-/

namespace DetSim.Snapshot

open Kernel (Bytes)
open Except (bind_eq_ok)

/-! ## Chunks -/

theorem chunkLength_pos {address stop : ℕ} (inside : address < stop) : 0 < chunkLength address stop := by
  unfold chunkLength pageSize
  omega

theorem add_chunkLength_le {address stop : ℕ} (inside : address ≤ stop) : address + chunkLength address stop ≤ stop := by
  unfold chunkLength
  omega

/-- The number of chunks from an address to the end of its region. -/
def pagesBetween (address stop : ℕ) : ℕ := (stop - 1) / pageSize - address / pageSize + 1

/-- The chunks of a region by their index. -/
theorem getElem?_chunksFrom {stop rounds address : ℕ} (inside : address < stop) (enough : stop - address ≤ rounds)
    (index : ℕ) : (chunksFrom stop rounds address)[index]? = if index < pagesBetween address stop then
      some (pageAddress address index, chunkLength (pageAddress address index) stop) else none := by
  induction rounds generalizing address index with
  | zero => omega
  | succ rounds ih =>
    have step := chunkLength_pos inside
    rw [chunksFrom, if_pos inside]
    cases index with
    | zero =>
      have some : 0 < pagesBetween address stop := Nat.succ_pos _
      rw [if_pos some]
      rfl
    | succ index =>
      rw [List.getElem?_cons_succ]
      by_cases more : address + chunkLength address stop < stop
      · rw [ih more (by omega) index]
        -- The next chunk starts at the next page boundary.
        have boundary : address + chunkLength address stop = (address / pageSize + 1) * pageSize := by
          unfold chunkLength pageSize at *
          omega
        have count : (index + 1 < pagesBetween address stop) = (index < pagesBetween (address + chunkLength address stop) stop) := by
          rw [boundary] at more ⊢
          unfold pagesBetween pageSize at *
          rw [eq_iff_iff]
          omega
        have place : pageAddress address (index + 1) = pageAddress (address + chunkLength address stop) index := by
          rw [boundary]
          unfold pageAddress pageSize
          split <;> split <;> omega
        simp only [count, place]
      · have last : pagesBetween address stop = 1 := by
          unfold pagesBetween chunkLength pageSize at *
          omega
        rw [last, if_neg (by omega)]
        cases rounds with
        | zero => rfl
        | succ rounds => rw [chunksFrom, if_neg more, List.getElem?_nil]

/-- The chunk that holds an address. -/
theorem chunk_contains {start stop address : ℕ} (above : start ≤ address) (below : address < stop) :
    address / pageSize - start / pageSize < pagesBetween start stop ∧
      pageAddress start (address / pageSize - start / pageSize) ≤ address ∧
      address < pageAddress start (address / pageSize - start / pageSize) +
        chunkLength (pageAddress start (address / pageSize - start / pageSize)) stop := by
  unfold pagesBetween pageAddress chunkLength pageSize
  split <;> omega

/-- A chunk lies in its region. -/
theorem pageAddress_mem {start stop index : ℕ} (nonempty : start < stop) (bound : index < pagesBetween start stop) :
    start ≤ pageAddress start index ∧ pageAddress start index < stop := by
  unfold pagesBetween pageAddress pageSize at *
  split <;> omega

/-! ## Images -/

/-- The regions are in order and do not overlap. -/
def OrderedImage (image : List ImageRegion) : Prop :=
  image.Pairwise fun region later => region.stop ≤ later.start.toNat

def ImageRegion.Contains (region : ImageRegion) (address : ℕ) : Prop :=
  region.start.toNat ≤ address ∧ address < region.stop

instance (region : ImageRegion) (address : ℕ) : Decidable (region.Contains address) :=
  inferInstanceAs (Decidable (_ ∧ _))

/-- The byte of an image at an address, if some region has it. -/
def imageByte (image : List ImageRegion) (address : ℕ) : Option UInt8 :=
  (image.find? fun region => decide (region.Contains address)).bind fun region =>
    region.bytes[address - region.start.toNat]?

/-- The bytes of an image from an address on, if all of them lie in some region. -/
def imageRead (image : List ImageRegion) : ℕ → ℕ → Option Bytes
  | _, 0 => some []
  | address, length + 1 => do
    let byte ← imageByte image address
    let rest ← imageRead image (address + 1) length
    return byte :: rest

variable {image : List ImageRegion} {region : ImageRegion} {address : ℕ}

theorem imageRead_eq_none {length : ℕ} :
    imageRead image address length = none ↔ ∃ offset < length, imageByte image (address + offset) = none := by
  induction length generalizing address with
  | zero => simp [imageRead]
  | succ length ih =>
    rw [imageRead]
    cases first : imageByte image address with
    | none => exact ⟨fun _ => ⟨0, Nat.succ_pos _, first⟩, fun _ => rfl⟩
    | some byte =>
      have rest : imageRead image address (length + 1) = none ↔ imageRead image (address + 1) length = none := by
        rw [imageRead, first]
        cases imageRead image (address + 1) length <;> simp
      rw [imageRead, first] at rest
      rw [rest, ih]
      constructor
      · rintro ⟨offset, bound, missing⟩
        exact ⟨offset + 1, by omega, by rwa [Nat.add_comm offset, ← Nat.add_assoc]⟩
      · rintro ⟨offset, bound, missing⟩
        cases offset with
        | zero => simp [first] at missing
        | succ offset => exact ⟨offset, by omega, by rwa [Nat.add_comm offset, ← Nat.add_assoc] at missing⟩

theorem imageRead_add (first second : ℕ) :
    imageRead image address (first + second) = do
      let bytes ← imageRead image address first
      let rest ← imageRead image (address + first) second
      return bytes ++ rest := by
  induction first generalizing address with
  | zero =>
    rw [Nat.zero_add, Nat.add_zero]
    cases imageRead image address second <;> simp [imageRead]
  | succ first ih =>
    rw [Nat.succ_add, imageRead, imageRead, ih, Nat.add_right_comm, Nat.add_assoc address first 1]
    cases imageByte image address with
    | none => rfl
    | some byte =>
      cases imageRead image (address + 1) first with
      | none => rfl
      | some bytes => cases imageRead image (address + (first + 1)) second <;> rfl

/-- An address of a region lies in no other one. -/
theorem find?_of_contains (ordered : OrderedImage image) (member : region ∈ image) (inside : region.Contains address) :
    (image.find? fun region => decide (region.Contains address)) = some region := by
  induction image with
  | nil => cases member
  | cons first rest ih =>
    obtain ⟨before, later⟩ := List.pairwise_cons.mp ordered
    rcases List.mem_cons.mp member with rfl | member
    · exact List.find?_cons_of_pos (by simpa using inside)
    · have apart : ¬first.Contains address := by
        intro contains
        have := before region member
        unfold ImageRegion.Contains at *
        omega
      rw [List.find?_cons_of_neg (by simpa using apart)]
      exact ih later member

/-- The bytes of a region are those of the image. -/
theorem imageRead_region (ordered : OrderedImage image) (member : region ∈ image) {length : ℕ}
    (above : region.start.toNat ≤ address) (below : address + length ≤ region.stop) :
    imageRead image address length = some ((region.bytes.drop (address - region.start.toNat)).take length) := by
  induction length generalizing address with
  | zero => rw [imageRead, List.take_zero]
  | succ length ih =>
    have bound : address - region.start.toNat < region.bytes.length := by
      unfold ImageRegion.stop at below
      omega
    have byte : imageByte image address = some region.bytes[address - region.start.toNat] := by
      rw [imageByte, find?_of_contains ordered member ⟨above, by omega⟩]
      exact List.getElem?_eq_getElem bound
    rw [imageRead, byte, ih (by omega) (by omega), List.drop_eq_getElem_cons bound, List.take_succ_cons,
      show address + 1 - region.start.toNat = address - region.start.toNat + 1 by omega]
    rfl

/-- Where an address lies, if anywhere: in the last region that starts at it or below. -/
theorem locate (ordered : OrderedImage image) (address : ℕ) :
    let count := (image.takeWhile fun region => decide (region.start.toNat ≤ address)).length
    (count = 0 ∧ imageByte image address = none) ∨
    ∃ index region, count = index + 1 ∧ image[index]? = some region ∧ region.start.toNat ≤ address ∧
      (region.stop ≤ address → imageByte image address = none) := by
  induction image with
  | nil => exact .inl ⟨rfl, rfl⟩
  | cons first rest ih =>
    obtain ⟨before, later⟩ := List.pairwise_cons.mp ordered
    by_cases start : first.start.toNat ≤ address
    · rw [List.takeWhile_cons_of_pos (by simpa using start), List.length_cons]
      have skip : first.stop ≤ address → imageByte (first :: rest) address = imageByte rest address := by
        intro passed
        have apart : ¬first.Contains address := fun contains => absurd contains.2 (Nat.not_lt.mpr passed)
        rw [imageByte, List.find?_cons_of_neg (by simpa using apart), imageByte]
      rcases ih later with ⟨none, absent⟩ | ⟨index, region, count, read, above, absent⟩
      · exact .inr ⟨0, first, by rw [none], rfl, start, fun passed => (skip passed).trans absent⟩
      · have passed : first.stop ≤ address := (before region (List.mem_of_getElem? read)).trans above
        exact .inr ⟨index + 1, region, by rw [count], read, above, fun beyond => (skip passed).trans (absent beyond)⟩
    · rw [List.takeWhile_cons_of_neg (by simpa using start)]
      refine .inl ⟨rfl, ?_⟩
      have absent : (first :: rest).find? (fun region => decide (region.Contains address)) = none := by
        rw [List.find?_eq_none]
        intro region member
        rw [decide_eq_true_eq]
        rintro ⟨above, _⟩
        rcases List.mem_cons.mp member with rfl | member
        · exact start above
        · have := before region member
          unfold ImageRegion.stop at this
          omega
      rw [imageByte, absent]
      rfl

/-! ## Reading a view of an image -/

/-- A paged snapshot keeps pages of the store. -/
def CacheAgrees (load : UInt64 → Option Bytes) (cache : PageCache) : Prop :=
  ∀ cached ∈ cache.cachedPages, ∀ bytes ∈ cached.bytes, load cached.key = some bytes

/-- The chunk of a region with the given index. -/
def ImageRegion.span (region : ImageRegion) (index : ℕ) : OwnedSpan :=
  let address := pageAddress region.start.toNat index
  let length := chunkLength address region.stop
  { address, length, bytes := region.chunkBytes (address, length) }

/-- A view shows an image: it has the regions of the image, and its chunks have the image's bytes. -/
structure Shows (view : SnapshotView) (load : UInt64 → Option Bytes) (image : List ImageRegion) : Prop where
  regions : view.regions.map (fun info => (info.start.toNat, info.stop.toNat)) =
    image.map fun region => (region.start.toNat, region.stop)
  page : ∀ (index : ℕ) region, image[index]? = some region → ∀ number < pagesBetween region.start.toNat region.stop,
    ∀ cache, CacheAgrees load cache → ∃ after, CacheAgrees load after ∧
      view.page load index number cache = (.ok (region.span number), after)

variable {view : SnapshotView} {load : UInt64 → Option Bytes}

theorem Shows.getElem? (shows : Shows view load image) {index : ℕ} (read : image[index]? = some region) :
    ∃ info, view.regions[index]? = some info ∧ info.start.toNat = region.start.toNat ∧ info.stop.toNat = region.stop := by
  have same := congrArg (fun list => list[index]?) shows.regions
  simp only [List.getElem?_map, read, Option.map_some] at same
  obtain ⟨info, present, bounds⟩ := Option.map_eq_some_iff.mp same
  exact ⟨info, present, (Prod.mk.inj bounds).1, (Prod.mk.inj bounds).2⟩

theorem Shows.takeWhile (shows : Shows view load image) :
    (view.regions.takeWhile fun info => decide (info.start.toNat ≤ address)).length =
      (image.takeWhile fun region => decide (region.start.toNat ≤ address)).length := by
  have same := congrArg (fun list => (list.takeWhile fun bounds => decide (bounds.1 ≤ address)).length) shows.regions
  simpa only [List.takeWhile_map, List.length_map, Function.comp_def] using same

/-- The part of a chunk that a read copies. -/
theorem copyChunk_span {length number : ℕ} (positive : 0 < length) (above : (region.span number).address ≤ address)
    (below : address < (region.span number).address + (region.span number).length)
    (within : region.start.toNat ≤ (region.span number).address ∧
      (region.span number).address + (region.span number).length ≤ region.stop) :
    ∃ count, 0 < count ∧ count ≤ length ∧ address + count ≤ region.stop ∧
      SnapshotView.copyChunk address length (region.span number) =
        .ok ((region.bytes.drop (address - region.start.toNat)).take count, count) := by
  unfold ImageRegion.span at *
  dsimp only at *
  generalize pageAddress region.start.toNat number = start at *
  generalize chunkLength start region.stop = size at *
  have room : (region.chunkBytes (start, size)).length = size := by
    unfold ImageRegion.stop at within
    rw [ImageRegion.chunkBytes, List.length_take, List.length_drop]
    omega
  refine ⟨min length (size - (address - start)), by omega, by omega, by omega, ?_⟩
  refine bind_eq_ok.mpr ⟨address - start, sub64_eq above, bind_eq_ok.mpr ⟨size - (address - start), sub64_eq ?_,
    bind_eq_ok.mpr ⟨_, slice_eq ?_, congrArg Except.ok (Prod.ext ?_ rfl)⟩⟩⟩
  all_goals dsimp only
  · omega
  · omega
  rw [ImageRegion.chunkBytes, List.drop_take, List.take_take, List.drop_drop, Nat.min_eq_left (by omega),
    show start - region.start.toNat + (address - start) = address - region.start.toNat by omega]

def outsideError : Abort := .thrown "Snapshot read outside captured regions"

/-- The loop reads the image, and never runs out of rounds. -/
theorem readLoop_eq (shows : Shows view load image) (ordered : OrderedImage image) (rounds address length : ℕ)
    (out : Bytes) (cache : PageCache) (agrees : CacheAgrees load cache) (enough : length ≤ rounds)
    (bound : address + length ≤ uint64Max) :
    ∃ after, CacheAgrees load after ∧ view.readLoop load rounds address length out cache =
      ((imageRead image address length).elim (.error outsideError) fun bytes => .ok (out ++ bytes), after) := by
  induction rounds generalizing address length out cache with
  | zero =>
    obtain rfl : length = 0 := by omega
    exact ⟨cache, agrees, by simp [SnapshotView.readLoop, imageRead]⟩
  | succ rounds ih =>
    cases length with
    | zero => exact ⟨cache, agrees, by simp [SnapshotView.readLoop, imageRead]⟩
    | succ length =>
      have fails : imageByte image address = none → imageRead image address (length + 1) = none :=
        fun missing => imageRead_eq_none.mpr ⟨0, Nat.succ_pos _, missing⟩
      rw [SnapshotView.readLoop, shows.takeWhile]
      rcases locate ordered address with ⟨none, missing⟩ | ⟨index, region, count, read, above, missing⟩
      · rw [none, fails missing]
        exact ⟨cache, agrees, rfl⟩
      obtain ⟨info, present, start, stop⟩ := shows.getElem? read
      simp only [count, present, start, stop]
      by_cases beyond : region.stop ≤ address
      · rw [if_pos beyond, fails (missing beyond)]
        exact ⟨cache, agrees, rfl⟩
      rw [if_neg beyond]
      have inside : region.start.toNat < region.stop := above.trans_lt (Nat.not_le.mp beyond)
      obtain ⟨numbered, low, high⟩ := chunk_contains above (Nat.not_le.mp beyond)
      obtain ⟨first, last⟩ := pageAddress_mem inside numbered
      obtain ⟨after, kept, paged⟩ := shows.page index region read _ numbered cache agrees
      obtain ⟨count, positive, most, within, copied⟩ := copyChunk_span (Nat.succ_pos length) low high
        ⟨first, add_chunkLength_le last.le⟩
      obtain ⟨final, agreesFinal, rest⟩ := ih (address + count) (length + 1 - count)
        (out ++ (region.bytes.drop (address - region.start.toNat)).take count) after kept (by omega) (by omega)
      refine ⟨final, agreesFinal, ?_⟩
      have split : imageRead image address (length + 1) = (imageRead image (address + count) (length + 1 - count)).map
          ((region.bytes.drop (address - region.start.toNat)).take count ++ ·) := by
        conv_lhs => rw [show length + 1 = count + (length + 1 - count) by omega]
        rw [imageRead_add, imageRead_region ordered (List.mem_of_getElem? read) above within]
        cases imageRead image (address + count) (length + 1 - count) <;> rfl
      have copy : (Except.ok (region.span (address / pageSize - region.start.toNat / pageSize)) >>=
          SnapshotView.copyChunk address (length + 1)) = _ := copied
      simp only [paged, copy, add64_eq (by omega : address + count ≤ uint64Max), rest, split]
      cases imageRead image (address + count) (length + 1 - count) <;> simp

/-- A read of a view returns the bytes of its image. -/
theorem readInto_eq (shows : Shows view load image) (ordered : OrderedImage image) (address length : ℕ)
    (small : address ≤ uint64Max) (cache : PageCache) (agrees : CacheAgrees load cache) :
    ∃ after, CacheAgrees load after ∧ view.readInto load address length cache =
      (if uint64Max < address + length then .error (.thrown "Snapshot read address overflow")
        else (imageRead image address length).elim (.error outsideError) .ok, after) := by
  unfold SnapshotView.readInto
  by_cases overflow : uint64Max < address + length
  · rw [if_pos (by omega), if_pos overflow]
    exact ⟨cache, agrees, rfl⟩
  · rw [if_neg (by omega), if_neg overflow]
    obtain ⟨after, kept, read⟩ := readLoop_eq shows ordered length address length [] cache agrees (Nat.le_refl _) (by omega)
    exact ⟨after, kept, by simpa using read⟩

/-! ## The flat snapshot -/

theorem ImageRegion.start_lt_stop (region : ImageRegion) : region.start.toNat < region.stop := by
  have := List.length_pos_of_ne_nil region.nonempty
  unfold ImageRegion.stop
  omega

theorem ImageRegion.toNat_stop (region : ImageRegion) (offset : ℕ) : (region.info offset).stop.toNat = region.stop :=
  toNat_ofNat64 region.bounded

/-- The bytes of a chunk in a block that holds the bytes of its region. -/
theorem flatPage_eq {data rest : Bytes} {offset number : ℕ} (small : data.length ≤ uint64Max)
    (held : data.drop offset = region.bytes ++ rest) (offsetBound : offset ≤ uint64Max)
    (bound : number < pagesBetween region.start.toNat region.stop) :
    flatPage data (region.info offset) number = .ok (region.span number) := by
  obtain ⟨above, below⟩ := pageAddress_mem region.start_lt_stop bound
  have within := add_chunkLength_le below.le
  have bounded := region.bounded
  have length := congrArg List.length held
  rw [List.length_drop, List.length_append] at length
  have offset64 : (region.info offset).offset.toNat = offset := toNat_ofNat64 offsetBound
  have address : flatAddress region.start.toNat number = .ok (pageAddress region.start.toNat number) := by
    unfold ImageRegion.stop at below
    unfold pageAddress flatAddress at *
    split
    · rfl
    · next positive =>
      rw [if_neg positive] at below
      have number64 : region.start.toNat / pageSize + number ≤ uint64Max := by
        unfold pageSize at *
        omega
      exact bind_eq_ok.mpr ⟨_, add64_eq number64, mul64_eq (by omega)⟩
  generalize place : pageAddress region.start.toNat number = start at *
  have position : ((region.info offset).offset.toNat + start + (2 ^ 64 - (region.info offset).start.toNat)) % 2 ^ 64 =
      offset + (start - region.start.toNat) := by
    rw [offset64, show (region.info offset).start = region.start from rfl]
    unfold ImageRegion.stop uint64Max at *
    omega
  refine bind_eq_ok.mpr ⟨_, address, bind_eq_ok.mpr ⟨_, sub64_eq ?_, bind_eq_ok.mpr ⟨_, slice_eq ?_, ?_⟩⟩⟩
  · rw [region.toNat_stop]
    exact below.le
  · rw [position, region.toNat_stop]
    unfold ImageRegion.stop at *
    omega
  · rw [position, region.toNat_stop]
    refine congrArg Except.ok ?_
    simp only [ImageRegion.span, place, ImageRegion.chunkBytes, OwnedSpan.mk.injEq, true_and]
    rw [← List.drop_drop, held, List.drop_append_of_le_length, List.take_append_of_le_length]
    · rw [List.length_drop]
      unfold ImageRegion.stop at *
      omega
    · unfold ImageRegion.stop at *
      omega

/-- The row of a region in a flat snapshot, and where its bytes are. -/
theorem getElem?_flatRegions {data tail : Bytes} {offset index : ℕ}
    (held : data.drop offset = image.flatMap ImageRegion.bytes ++ tail) (read : image[index]? = some region) :
    ∃ place rest, (flatRegions offset image)[index]? = some (region.info place) ∧
      data.drop place = region.bytes ++ rest ∧ place ≤ offset + (image.flatMap ImageRegion.bytes).length := by
  induction image generalizing offset index with
  | nil => cases read
  | cons first image ih =>
    rw [List.flatMap_cons, List.append_assoc] at held
    rw [List.flatMap_cons, List.length_append]
    cases index with
    | zero =>
      cases read
      exact ⟨offset, _, rfl, held, by omega⟩
    | succ index =>
      obtain ⟨_, later⟩ := take_drop_section held rfl
      obtain ⟨place, rest, row, bytes, bound⟩ := ih later read
      exact ⟨place, rest, row, bytes, by omega⟩

theorem map_flatRegions (offset : ℕ) (image : List ImageRegion) :
    (flatRegions offset image).map (fun info => (info.start.toNat, info.stop.toNat)) =
      image.map fun region => (region.start.toNat, region.stop) := by
  induction image generalizing offset with
  | nil => rfl
  | cons region image ih =>
    rw [flatRegions, List.map_cons, List.map_cons, ih, region.toNat_stop]
    rfl

theorem length_flatRegions (offset : ℕ) (image : List ImageRegion) :
    (flatRegions offset image).length = image.length := by
  simpa using congrArg List.length (map_flatRegions offset image)

theorem extends_flatRegions {limit previousEnd offset : ℕ} (ordered : OrderedImage image)
    (start : ∀ region ∈ image, previousEnd ≤ region.start.toNat)
    (protection : ∀ region ∈ image, (region.info 0).validProtection = true)
    (room : offset + (image.flatMap ImageRegion.bytes).length ≤ limit) (bound : limit ≤ uint64Max) :
    Extends limit previousEnd offset (flatRegions offset image)
      (offset + (image.flatMap ImageRegion.bytes).length) := by
  induction image generalizing previousEnd offset with
  | nil => exact .nil ..
  | cons region image ih =>
    obtain ⟨before, later⟩ := List.pairwise_cons.mp ordered
    rw [List.forall_mem_cons] at start protection
    rw [List.flatMap_cons, List.length_append] at room ⊢
    have size : (region.info offset).stop.toNat - (region.info offset).start.toNat = region.bytes.length := by
      rw [region.toNat_stop, ImageRegion.stop]
      exact Nat.add_sub_cancel_left ..
    have nonempty : (region.info offset).start < (region.info offset).stop := by
      rw [UInt64.lt_iff_toNat_lt, region.toNat_stop]
      exact region.start_lt_stop
    have rest := @ih region.stop (offset + region.bytes.length) later before protection.2 (by omega)
    rw [← Nat.add_assoc]
    refine .cons protection.1 nonempty start.1 (toNat_ofNat64 (by omega)) ?_ ?_
    · rw [size]
      omega
    · rw [size, region.toNat_stop]
      exact rest

/-- The flat snapshot of an image is opened, and shows the image. -/
theorem exists_flat {metadata maps regs : Bytes} (ordered : OrderedImage image)
    (protection : ∀ region ∈ image, (region.info 0).validProtection = true) (nonempty : metadata ≠ [])
    (sized : regs.length = regsSize) (few : image.length ≤ uint32Max)
    (small : (encodeFlat image metadata maps regs).length ≤ uint64Max) (hostPageSize : ℕ)
    (load : UInt64 → Option Bytes) :
    ∃ view, snapshotView hostPageSize (encodeFlat image metadata maps regs) = .ok view ∧ Shows view load image := by
  have computes := computes_snapshotView hostPageSize small
  generalize block : encodeFlat image metadata maps regs = data at *
  unfold encodeFlat at block
  dsimp only at block
  generalize stateAt : stateDataHeader.size + image.length * regionInfo.size = tstateOffset at *
  generalize memory : image.flatMap ImageRegion.bytes = contents at *
  generalize header : StateDataHeader.mk .. = h at block
  have length := congrArg List.length block
  simp only [List.length_append, Packed.length_pack, Packed.length_packTable, length_flatRegions] at length
  have numRegions : h.numRegions.toNat = image.length := by
    rw [← header]
    exact toNat_ofNat32 few
  have tstateAt : h.tstateOffset.toNat = tstateOffset := by
    rw [← header]
    exact toNat_ofNat64 (by omega)
  have tstateSize : h.tstateSize.toNat = metadata.length := by
    rw [← header]
    exact toNat_ofNat64 (by omega)
  have mapsAt : h.mapsOffset.toNat = tstateOffset + metadata.length := by
    rw [← header]
    exact toNat_ofNat64 (by omega)
  have mapsSize : h.mapsSize.toNat = maps.length := by
    rw [← header]
    exact toNat_ofNat64 (by omega)
  have regsAt : h.regsOffset.toNat = tstateOffset + metadata.length + maps.length + contents.length := by
    rw [← header]
    exact toNat_ofNat64 (by omega)
  have start : data.drop 0 = _ := block.symm
  obtain ⟨headPart, afterHead⟩ := take_drop_section start (stateDataHeader.length_pack h)
  rw [Nat.zero_add] at afterHead
  obtain ⟨regionPart, afterRegions⟩ := take_drop_section afterHead (regionInfo.length_packTable _)
  rw [length_flatRegions, stateAt] at afterRegions
  obtain ⟨_, afterMetadata⟩ := take_drop_section afterRegions rfl
  obtain ⟨_, afterMaps⟩ := take_drop_section afterMetadata rfl
  obtain ⟨_, afterMemory⟩ := take_drop_section afterMaps rfl
  rw [List.drop_zero] at headPart
  have positive : h.tstateSize ≠ 0 := by
    intro zero
    rw [zero] at tstateSize
    exact nonempty (List.length_eq_zero_iff.mp tstateSize.symm)
  have opened : OpenedFlat data
      ⟨data, h, flatRegions (tstateOffset + metadata.length + maps.length) image, [], regs⟩ := by
    refine ⟨⟨rfl, ?_, ?_, ⟨?_, ?_, positive, ?_, ?_, ?_⟩, ⟨?_, ?_, ?_, ?_⟩, ?_, ?_⟩, ?_, rfl, ?_⟩
    all_goals try dsimp only
    · rw [headPart, stateDataHeader.unpack_pack]
    · rw [← header]
    · omega
    · rw [numRegions]
      omega
    · omega
    · omega
    · omega
    · rw [numRegions]
      omega
    · omega
    · omega
    · omega
    · rw [length_flatRegions] at regionPart
      have table := regionInfo.unpackTable_packTable (flatRegions (tstateOffset + metadata.length + maps.length) image)
      rw [length_flatRegions] at table
      rw [numRegions, regionPart, table]
    · rw [regsAt, afterMemory, ← sized, List.take_length]
    · rw [← header]
    · rw [mapsAt, mapsSize, regsAt, ← memory]
      exact extends_flatRegions ordered (fun _ _ => Nat.zero_le _) protection (Nat.le_refl _) (by rw [memory]; omega)
  refine ⟨_, (computes.returns _).mpr (.inl opened), map_flatRegions .., ?_⟩
  intro index region read number bound cache agrees
  rw [← memory] at afterMaps
  obtain ⟨place, rest, row, bytes, within⟩ := getElem?_flatRegions afterMaps read
  rw [memory] at within
  refine ⟨cache, agrees, ?_⟩
  have count : number < (region.info place).pageCount := by
    rw [RegionInfo.pageCount, region.toNat_stop]
    exact bound
  have flat : h.version ≠ pageSnapshotVersion := by
    rw [← header]
    exact (by decide : flatSnapshotVersion ≠ pageSnapshotVersion)
  simp only [SnapshotView.page, row, count, if_true, flat, if_false]
  rw [flatPage_eq small bytes (by omega) bound]

/-! ## The paged snapshot -/

variable {key : Bytes → UInt64}

/-- The row of a region in a paged snapshot, and where its pages are. -/
theorem getElem?_pagedRegions {pages tail : List PageRef} {first index : ℕ}
    (held : pages.drop first = image.flatMap (ImageRegion.pageRefs key) ++ tail) (read : image[index]? = some region) :
    ∃ place rest, (pagedRegions first image)[index]? = some (region.info place) ∧
      pages.drop place = region.pageRefs key ++ rest ∧
      place ≤ first + (image.flatMap (ImageRegion.pageRefs key)).length := by
  induction image generalizing first index with
  | nil => cases read
  | cons start image ih =>
    rw [List.flatMap_cons, List.append_assoc] at held
    rw [List.flatMap_cons, List.length_append]
    have length : (start.pageRefs key).length = start.chunks.length := List.length_map ..
    cases index with
    | zero =>
      cases read
      exact ⟨first, _, rfl, held, by omega⟩
    | succ index =>
      have later : pages.drop (first + start.chunks.length) = image.flatMap (ImageRegion.pageRefs key) ++ tail := by
        rw [← List.drop_drop, held]
        exact List.drop_left' length
      obtain ⟨place, rest, row, refs, bound⟩ := ih later read
      exact ⟨place, rest, row, refs, by omega⟩

theorem map_pagedRegions (first : ℕ) (image : List ImageRegion) :
    (pagedRegions first image).map (fun info => (info.start.toNat, info.stop.toNat)) =
      image.map fun region => (region.start.toNat, region.stop) := by
  induction image generalizing first with
  | nil => rfl
  | cons region image ih =>
    rw [pagedRegions, List.map_cons, List.map_cons, ih, region.toNat_stop]
    rfl

theorem coveredFrom_chunksFrom {stop rounds address : ℕ} {name : ℕ × ℕ → UInt64} (bound : stop ≤ uint64Max)
    (enough : stop - address ≤ rounds) (named : ∀ chunk ∈ chunksFrom stop rounds address, name chunk ≠ 0) :
    CoveredFrom stop address ((chunksFrom stop rounds address).map fun chunk =>
      { address := UInt64.ofNat chunk.1, length := UInt32.ofNat chunk.2, key := name chunk }) := by
  induction rounds generalizing address with
  | zero => exact (by omega : stop ≤ address)
  | succ rounds ih =>
    rw [chunksFrom] at named ⊢
    split
    · next inside =>
      rw [if_pos inside, List.forall_mem_cons] at named
      have step := chunkLength_pos inside
      have small : chunkLength address stop ≤ uint32Max := by
        unfold chunkLength pageSize uint32Max
        omega
      exact ⟨inside, ⟨toNat_ofNat64 (by omega), toNat_ofNat32 small, named.1⟩, ih (by omega) named.2⟩
    · next outside => exact Nat.not_lt.mp outside

/-- What the store must hold for the pages of an image. It saves nothing under the reserved key zero. -/
structure Stored (key : Bytes → UInt64) (load : UInt64 → Option Bytes) (image : List ImageRegion) : Prop where
  named : ∀ region ∈ image, ∀ chunk ∈ region.chunks, key (region.chunkBytes chunk) ≠ 0
  loaded : ∀ region ∈ image, ∀ chunk ∈ region.chunks,
    load (key (region.chunkBytes chunk)) = some (region.chunkBytes chunk)

theorem wellFormed_pagedRegions {previousEnd first : ℕ} (ordered : OrderedImage image)
    (start : ∀ region ∈ image, previousEnd ≤ region.start.toNat)
    (protection : ∀ region ∈ image, (region.info 0).validProtection = true)
    (named : ∀ region ∈ image, ∀ chunk ∈ region.chunks, key (region.chunkBytes chunk) ≠ 0)
    (bound : first + (image.flatMap (ImageRegion.pageRefs key)).length ≤ uint64Max) :
    WellFormed previousEnd first (pagedRegions first image) (image.flatMap (ImageRegion.pageRefs key)) := by
  induction image generalizing previousEnd first with
  | nil => exact .nil ..
  | cons region image ih =>
    obtain ⟨before, later⟩ := List.pairwise_cons.mp ordered
    rw [List.forall_mem_cons] at start protection named
    rw [List.flatMap_cons, List.length_append] at bound
    rw [List.flatMap_cons]
    have length : (region.pageRefs key).length = region.chunks.length := List.length_map ..
    have nonempty : (region.info first).start < (region.info first).stop := by
      rw [UInt64.lt_iff_toNat_lt, region.toNat_stop]
      exact region.start_lt_stop
    have rest := @ih region.stop (first + region.chunks.length) later before protection.2 named.2 (by omega)
    refine .cons protection.1 nonempty start.1 (toNat_ofNat64 (by omega)) ?_ ?_
    · rw [region.toNat_stop]
      exact coveredFrom_chunksFrom region.bounded (Nat.le_of_eq (Nat.add_sub_cancel_left ..)) named.1
    · rw [region.toNat_stop, length]
      exact rest

theorem ImageRegion.length_span {number : ℕ} (region : ImageRegion)
    (bound : number < pagesBetween region.start.toNat region.stop) :
    (region.span number).bytes.length = (region.span number).length := by
  obtain ⟨above, below⟩ := pageAddress_mem region.start_lt_stop bound
  have within := add_chunkLength_le below.le
  change ((region.bytes.drop _).take (chunkLength _ _)).length = chunkLength _ _
  rw [List.length_take, List.length_drop]
  unfold ImageRegion.stop at *
  omega

/-- The chunks of a region by their index. -/
theorem ImageRegion.getElem?_chunks {number : ℕ} (bound : number < pagesBetween region.start.toNat region.stop) :
    region.chunks[number]? = some ((region.span number).address, (region.span number).length) := by
  have enough : region.stop - region.start.toNat ≤ region.bytes.length := by
    unfold ImageRegion.stop
    omega
  rw [ImageRegion.chunks, getElem?_chunksFrom region.start_lt_stop enough, if_pos bound]
  rfl

/-- A page of the store, cached or not. -/
theorem pagedPage_eq {pages rest : List PageRef} {place number : ℕ} {cache : PageCache} (member : region ∈ image)
    (stored : Stored key load image) (agrees : CacheAgrees load cache) (small : place ≤ uint64Max)
    (held : pages.drop place = region.pageRefs key ++ rest)
    (bound : number < pagesBetween region.start.toNat region.stop) :
    ∃ after, CacheAgrees load after ∧
      pagedPage load pages (region.info place) number cache = (.ok (region.span number), after) := by
  obtain ⟨above, below⟩ := pageAddress_mem region.start_lt_stop bound
  have within := add_chunkLength_le below.le
  have bounded := region.bounded
  have chunk := region.getElem?_chunks bound
  have address64 : (UInt64.ofNat (region.span number).address).toNat = (region.span number).address := by
    refine toNat_ofNat64 ?_
    unfold ImageRegion.stop at below
    exact below.le.trans bounded
  have length32 : (UInt32.ofNat (region.span number).length).toNat = (region.span number).length := by
    refine toNat_ofNat32 (?_ : chunkLength _ _ ≤ _)
    unfold chunkLength pageSize uint32Max
    omega
  have bytesLength := region.length_span bound
  have loaded := stored.loaded region member _ (List.mem_of_getElem? chunk)
  have reference : pages[place + number]? = some {
      address := UInt64.ofNat (region.span number).address
      length := UInt32.ofNat (region.span number).length
      key := key (region.span number).bytes } := by
    have length : (region.pageRefs key).length = region.chunks.length := List.length_map ..
    have numbered : number < (region.pageRefs key).length := by
      rw [length]
      exact (List.getElem?_eq_some_iff.mp chunk).1
    rw [← List.getElem?_drop, held, List.getElem?_append_left numbered, ImageRegion.pageRefs, List.getElem?_map, chunk]
    rfl
  change load (key (region.span number).bytes) = some (region.span number).bytes at loaded
  unfold pagedPage
  rw [show (region.info place).offset.toNat = place from toNat_ofNat64 small, reference]
  generalize region.span number = span at *
  dsimp only
  split
  · next bytes found =>
    obtain ⟨cached, kept, holds⟩ := List.exists_of_findSome?_eq_some found
    split at holds
    · next same =>
      have held := agrees cached kept bytes holds
      rw [same, loaded] at held
      cases held
      rw [address64, length32, if_pos bytesLength]
      exact ⟨cache, agrees, rfl⟩
    · cases holds
  · rw [loaded]
    dsimp only
    rw [address64, length32, if_pos bytesLength]
    refine ⟨_, ?_, rfl⟩
    intro cached kept bytes holds
    rcases List.mem_or_eq_of_mem_set kept with kept | rfl
    · exact agrees cached kept bytes holds
    · cases holds
      exact loaded

/-- The paged snapshot of an image is opened, and shows the image. -/
theorem exists_paged {metadata maps regs data : Bytes} (ordered : OrderedImage image)
    (protection : ∀ region ∈ image, (region.info 0).validProtection = true) (nonempty : metadata ≠ [])
    (sized : regs.length = regsSize) (stored : Stored key load image)
    (encoded : encodePaged key image metadata maps regs = .ok data) :
    ∃ view, snapshotView pageSize data = .ok view ∧ Shows view load image := by
  obtain ⟨small, rfl⟩ := (encodePageManifest_eq_ok sized).mp encoded
  have larger : uint32Max ≤ uint64Max := by decide
  generalize table : image.flatMap (ImageRegion.pageRefs key) = pages at *
  generalize rows : pagedRegions 0 image = regions at *
  have few := small
  rw [regsStart] at few
  have rowsBound : regions.length ≤ regions.length * regionInfo.size := Nat.le_mul_of_pos_right _ (by decide)
  have pagesBound : pages.length ≤ pages.length * pageRef.size := Nat.le_mul_of_pos_right _ (by decide)
  have describes := describes_manifestHeader (by omega : regions.length ≤ uint32Max)
    (by omega : pages.length ≤ uint32Max) (by omega : regsStart regions metadata maps pages ≤ uint64Max)
  have wellFormed : WellFormed 0 0 regions pages := by
    rw [← rows, ← table]
    refine wellFormed_pagedRegions ordered (fun _ _ => Nat.zero_le _) protection stored.named ?_
    rw [table]
    omega
  obtain ⟨opened, _, _⟩ := opened_manifestBytes describes wellFormed nonempty sized
  have fits : (manifestBytes (manifestHeader regions metadata maps pages) regions metadata maps regs pages).length ≤
      uint64Max := by
    rw [length_manifestBytes, sized]
    omega
  refine ⟨_, ((computes_snapshotView _ fits).returns _).mpr (.inr ⟨_, opened⟩), ?_, ?_⟩
  · rw [← rows]
    exact map_pagedRegions ..
  intro index region read number bound cache agrees
  have start : pages.drop 0 = image.flatMap (ImageRegion.pageRefs key) ++ [] := by
    rw [table, List.append_nil, List.drop_zero]
  obtain ⟨place, rest, row, held, within⟩ := getElem?_pagedRegions start read
  rw [rows] at row
  rw [table] at within
  have count : number < (region.info place).pageCount := by
    rw [RegionInfo.pageCount, region.toNat_stop]
    exact bound
  obtain ⟨after, kept, paged⟩ := pagedPage_eq (List.mem_of_getElem? read) stored agrees (by omega : place ≤ uint64Max)
    held bound
  refine ⟨after, kept, ?_⟩
  have version : (manifestHeader regions metadata maps pages).common.version = pageSnapshotVersion := opened.version
  simp only [SnapshotView.page, row, count, if_true, version, paged]

/-! ## All bytes of a region -/

/-- Where a chunk of a region begins, or the region ends. -/
def ImageRegion.edge (region : ImageRegion) (number : ℕ) : ℕ :=
  if number < pagesBetween region.start.toNat region.stop then pageAddress region.start.toNat number else region.stop

theorem ImageRegion.edge_succ {number : ℕ} (bound : number < pagesBetween region.start.toNat region.stop) :
    region.edge (number + 1) = (region.span number).address + (region.span number).length := by
  have nonempty := region.start_lt_stop
  change region.edge (number + 1) = pageAddress region.start.toNat number +
    chunkLength (pageAddress region.start.toNat number) region.stop
  unfold ImageRegion.edge pagesBetween pageAddress chunkLength pageSize at *
  rw [if_neg (Nat.succ_ne_zero number)]
  split <;> split <;> omega

/-- The chunks before a number hold the bytes before its edge. -/
theorem ImageRegion.flatMap_span {number : ℕ} (bound : number ≤ pagesBetween region.start.toNat region.stop) :
    ((List.range number).map region.span).flatMap OwnedSpan.bytes =
      region.bytes.take (region.edge number - region.start.toNat) := by
  induction number with
  | zero =>
    have first : region.edge 0 = region.start.toNat := if_pos (Nat.succ_pos _)
    rw [first, Nat.sub_self]
    rfl
  | succ number ih =>
    obtain ⟨above, _⟩ := pageAddress_mem region.start_lt_stop bound
    have here : region.edge number = (region.span number).address := if_pos bound
    have split : region.edge (number + 1) - region.start.toNat =
        ((region.span number).address - region.start.toNat) + (region.span number).length := by
      rw [region.edge_succ bound]
      exact Nat.sub_add_comm above
    rw [List.range_succ, List.map_append, List.flatMap_append, ih (Nat.le_of_succ_le bound), here, split, List.take_add]
    simp only [List.map_cons, List.map_nil, List.flatMap_cons, List.flatMap_nil, List.append_nil]
    rfl

/-- What a view says about an image: every read, and the chunks of every region. -/
structure ReadsImage (view : SnapshotView) (load : UInt64 → Option Bytes) (image : List ImageRegion) : Prop where
  read : ∀ address length, address ≤ uint64Max → ∀ cache, CacheAgrees load cache → ∃ after, CacheAgrees load after ∧
    view.readInto load address length cache =
      (if uint64Max < address + length then .error (.thrown "Snapshot read address overflow")
        else (imageRead image address length).elim (.error (.thrown "Snapshot read outside captured regions")) .ok, after)
  pages : ∀ (index : ℕ) region, image[index]? = some region → ∃ info, ∃ spans : List OwnedSpan, view.regions[index]? = some info ∧
    info.pageCount = spans.length ∧ spans.flatMap OwnedSpan.bytes = region.bytes ∧
    ∀ (number : ℕ) span, spans[number]? = some span → span.bytes.length = span.length ∧
      span.address = region.start.toNat + ((spans.take number).flatMap OwnedSpan.bytes).length ∧
      ∀ cache, CacheAgrees load cache → (view.page load index number cache).1 = .ok span

theorem Shows.readsImage (shows : Shows view load image) (ordered : OrderedImage image) : ReadsImage view load image := by
  refine ⟨readInto_eq shows ordered, ?_⟩
  intro index region read
  obtain ⟨info, present, start, stop⟩ := shows.getElem? read
  refine ⟨info, (List.range (pagesBetween region.start.toNat region.stop)).map region.span, present, ?_, ?_, ?_⟩
  · rw [RegionInfo.pageCount, start, stop, List.length_map, List.length_range]
    rfl
  · rw [region.flatMap_span (Nat.le_refl _), ImageRegion.edge, if_neg (Nat.lt_irrefl _), ImageRegion.stop,
      Nat.add_sub_cancel_left, List.take_length]
  · intro number span at_
    rw [List.getElem?_map, Option.map_eq_some_iff] at at_
    obtain ⟨_, ranged, rfl⟩ := at_
    obtain ⟨bound, rfl⟩ := List.getElem?_eq_some_iff.mp ranged
    rw [List.getElem_range] at *
    rw [List.length_range] at bound
    obtain ⟨above, below⟩ := pageAddress_mem region.start_lt_stop bound
    refine ⟨region.length_span bound, ?_, ?_⟩
    · rw [← List.map_take, List.take_range, Nat.min_eq_left bound.le, region.flatMap_span bound.le, ImageRegion.edge,
        if_pos bound, List.length_take]
      change pageAddress _ _ = _
      unfold ImageRegion.stop at below
      omega
    · intro cache agrees
      obtain ⟨after, _, paged⟩ := shows.page index region read number bound cache agrees
      rw [paged]

/-- Flat and paged snapshots of an image are observationally equal. Both are accepted, and every read of
either returns exactly the bytes of the image. It throws exactly if the range reaches beyond the address
space or some byte of it lies in no region. The chunks of a region are its bytes in order. -/
theorem snapshots_agree (image : List ImageRegion) (ordered : OrderedImage image)
    (protection : ∀ region ∈ image, (region.info 0).validProtection = true) (metadata maps regs : Bytes)
    (nonempty : metadata ≠ []) (sized : regs.length = regsSize) (few : image.length ≤ uint32Max)
    (small : (encodeFlat image metadata maps regs).length ≤ uint64Max) (key : Bytes → UInt64)
    (load : UInt64 → Option Bytes) (stored : Stored key load image) (manifest : Bytes)
    (encoded : encodePaged key image metadata maps regs = .ok manifest) :
    (∃ flat paged, snapshotView pageSize (encodeFlat image metadata maps regs) = .ok flat ∧
      snapshotView pageSize manifest = .ok paged ∧ ReadsImage flat load image ∧ ReadsImage paged load image) ∧
    ∀ address length, imageRead image address length = none ↔
      ∃ offset < length, ∀ region ∈ image, ¬region.Contains (address + offset) := by
  obtain ⟨flat, flatOpened, flatShows⟩ := exists_flat ordered protection nonempty sized few small pageSize load
  obtain ⟨paged, pagedOpened, pagedShows⟩ := exists_paged ordered protection nonempty sized stored encoded
  refine ⟨⟨flat, paged, flatOpened, pagedOpened, flatShows.readsImage ordered, pagedShows.readsImage ordered⟩, ?_⟩
  intro address length
  rw [imageRead_eq_none]
  refine exists_congr fun offset => and_congr_right fun _ => ?_
  constructor
  · intro missing region member contains
    have inside : address + offset - region.start.toNat < region.bytes.length := by
      have below := contains.2
      unfold ImageRegion.stop at below
      have above := contains.1
      omega
    rw [imageByte, find?_of_contains ordered member contains] at missing
    exact absurd inside (Nat.not_lt.mpr (List.getElem?_eq_none_iff.mp missing))
  · intro outside
    have absent : image.find? (fun region => decide (region.Contains (address + offset))) = none := by
      rw [List.find?_eq_none]
      intro region member
      simpa using outside region member
    rw [imageByte, absent]
    rfl

def sampleRegion : ImageRegion where
  start := 4000
  prot := 1
  flags := ⟨ascii 'r', ascii '-', ascii '-', ascii 'p', 0⟩
  bytes := List.replicate 100 5
  nonempty := by decide
  bounded := by decide

def sampleKey (bytes : Bytes) : UInt64 := UInt64.ofNat bytes.length

def sampleLoad (key : UInt64) : Option Bytes := some (List.replicate key.toNat 5)

/-- A read over the page boundary inside an unaligned region, and one past its end. -/
theorem snapshots_agree_unaligned :
    ∃ flat paged manifest, encodePaged sampleKey [sampleRegion] [1] [] (List.replicate regsSize 0) = .ok manifest ∧
      snapshotView pageSize manifest = .ok paged ∧
      snapshotView pageSize (encodeFlat [sampleRegion] [1] [] (List.replicate regsSize 0)) = .ok flat ∧
      (∀ view ∈ [flat, paged], (view.readInto sampleLoad 4090 10 {}).1 = .ok (List.replicate 10 5) ∧
        (view.readInto sampleLoad 4090 11 {}).1 = .error (.thrown "Snapshot read outside captured regions")) := by
  obtain ⟨manifest, encoded⟩ : ∃ manifest,
      encodePaged sampleKey [sampleRegion] [1] [] (List.replicate regsSize 0) = .ok manifest :=
    ⟨_, (encodePageManifest_eq_ok List.length_replicate).mpr ⟨by decide, rfl⟩⟩
  have stored : Stored sampleKey sampleLoad [sampleRegion] := ⟨by decide +kernel, by decide +kernel⟩
  obtain ⟨⟨flat, paged, flatOpened, pagedOpened, flatReads, pagedReads⟩, _⟩ :=
    snapshots_agree [sampleRegion] (List.pairwise_singleton ..) (by decide) [1] [] (List.replicate regsSize 0) (by decide)
      List.length_replicate (by decide) (by decide +kernel) sampleKey sampleLoad stored manifest encoded
  refine ⟨flat, paged, manifest, encoded, pagedOpened, flatOpened, ?_⟩
  have both : ∀ view, ReadsImage view sampleLoad [sampleRegion] →
      (view.readInto sampleLoad 4090 10 {}).1 = .ok (List.replicate 10 5) ∧
        (view.readInto sampleLoad 4090 11 {}).1 = .error (.thrown "Snapshot read outside captured regions") := by
    intro view reads
    have empty : CacheAgrees sampleLoad {} := by
      intro cached member bytes held
      rw [List.eq_of_mem_replicate member] at held
      cases held
    obtain ⟨_, _, inside⟩ := reads.read 4090 10 (by decide) {} empty
    obtain ⟨_, _, outside⟩ := reads.read 4090 11 (by decide) {} empty
    rw [inside, outside]
    exact ⟨rfl, rfl⟩
  intro view member
  rcases List.mem_cons.mp member with rfl | member
  · exact both _ flatReads
  · rw [List.mem_singleton.mp member]
    exact both _ pagedReads

end DetSim.Snapshot
