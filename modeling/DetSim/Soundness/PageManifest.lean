import DetSim.Model.PageSnapshot
import DetSim.ToMathlib.Except

/-! # Opening a snapshot is safe and exact

The checks of the constructor are read as one description of the blocks it accepts. No arithmetic on the
way wraps around and no copy leaves the block, because every sum is bounded by a check made before it. The
accepted paged blocks are exactly the encodings of well formed manifests.
-/

namespace DetSim.Snapshot

open Kernel (Bytes)
open Except (bind_eq_ok)

/-! ## Checked computations -/

/-- A computation returns exactly the values described, and otherwise throws. -/
structure Computes {α : Type} (m : Checked α) (result : α → Prop) : Prop where
  returns : ∀ value, m = .ok value ↔ result value
  throws : ∀ abort, m = .error abort → ∃ message, abort = .thrown message

/-- A test returns whether the condition holds. -/
def Decides (test : Checked Bool) (condition : Prop) : Prop :=
  ∃ answer, test = .ok answer ∧ (answer = true ↔ condition)

section Rules

variable {α β : Type} {m : Checked α} {next : α → Checked β} {R : β → Prop} {condition : Prop}

theorem Computes.congr {described : α → Prop} {also : α → Prop} (computes : Computes m described)
    (same : ∀ value, described value ↔ also value) : Computes m also :=
  ⟨fun value => (computes.returns value).trans (same value), computes.throws⟩

theorem computes_pure (value : α) : Computes (pure value : Checked α) (· = value) :=
  ⟨fun _ => ⟨fun same => (Except.ok.inj same).symm, fun same => congrArg Except.ok same.symm⟩, nofun⟩

theorem computes_throw (message : String) : Computes (.error (.thrown message) : Checked α) fun _ => False :=
  ⟨fun _ => ⟨nofun, nofun⟩, fun _ same => ⟨message, (Except.error.inj same).symm⟩⟩

theorem Computes.bind {middle : α → Prop} {R : α → β → Prop} (first : Computes m middle)
    (second : ∀ value, middle value → Computes (next value) (R value)) :
    Computes (m >>= next) fun last => ∃ value, middle value ∧ R value last := by
  constructor
  · intro last
    rw [bind_eq_ok]
    refine exists_congr fun value => ?_
    rw [first.returns]
    exact and_congr_right fun holds => (second value holds).returns last
  · intro abort failed
    cases run : m with
    | error reason =>
      rw [run] at failed
      cases failed
      exact first.throws _ run
    | ok value =>
      rw [run] at failed
      exact (second value ((first.returns value).mp run)).throws abort failed

/-- A step that succeeds. -/
theorem computes_step {value : α} (step : m = .ok value) (rest : Computes (next value) R) :
    Computes (m >>= next) R := by
  rw [step]
  exact rest

theorem computes_require {valid : Prop} [Decidable valid] {message : String} {rest : Checked β}
    (continues : valid → Computes rest R) :
    Computes (require valid message >>= fun _ => rest) fun value => valid ∧ R value := by
  by_cases holds : valid
  · refine computes_step (if_pos holds) ((continues holds).congr fun value => ?_)
    exact (and_iff_right holds).symm
  · rw [require, if_neg holds]
    exact (computes_throw message).congr fun value => ⟨nofun, fun both => holds both.1⟩

theorem computes_require_decides {test : Checked Bool} {message : String} {rest : Checked β}
    (decides : Decides test condition) (continues : condition → Computes rest R) :
    Computes (test >>= fun answer => require (answer = true) message >>= fun _ => rest)
      fun value => condition ∧ R value := by
  obtain ⟨answer, step, means⟩ := decides
  refine computes_step step ((computes_require fun holds => continues (means.mp holds)).congr fun value => ?_)
  rw [means]

theorem decides_pure {condition : Prop} [Decidable condition] : Decides (pure (decide condition)) condition :=
  ⟨decide condition, rfl, decide_eq_true_iff⟩

theorem decides_step {next : α → Checked Bool} {value : α} (step : m = .ok value)
    (rest : Decides (next value) condition) : Decides (m >>= next) condition := by
  rw [step]
  exact rest

theorem Decides.and {left right : Checked Bool} {also : Prop} (first : Decides left condition)
    (second : condition → Decides right also) : Decides (left <&&> right) (condition ∧ also) := by
  obtain ⟨answer, step, means⟩ := first
  cases answer with
  | false =>
    refine ⟨false, by rw [andM, step]; rfl, ?_⟩
    simp only [Bool.false_eq_true, false_iff] at means ⊢
    exact fun both => means both.1
  | true =>
    obtain ⟨answer, step', means'⟩ := second (means.mp rfl)
    refine ⟨answer, by rw [andM, step]; exact step', ?_⟩
    rw [means', and_iff_right (means.mp rfl)]

theorem Decides.congr {test : Checked Bool} {also : Prop} (decides : Decides test condition) (same : condition ↔ also) :
    Decides test also := by
  obtain ⟨answer, step, means⟩ := decides
  exact ⟨answer, step, means.trans same⟩

end Rules

theorem add64_eq {a b : ℕ} (fits : a + b ≤ uint64Max) : add64 a b = .ok (a + b) := if_pos fits

theorem sub64_eq {a b : ℕ} (below : b ≤ a) : sub64 a b = .ok (a - b) := if_pos below

theorem mul64_eq {a b : ℕ} (fits : a * b ≤ uint64Max) : mul64 a b = .ok (a * b) := if_pos fits

theorem slice_eq {data : Bytes} {offset length : ℕ} (inside : offset + length ≤ data.length) :
    slice data offset length = .ok ((data.drop offset).take length) := if_pos inside

theorem slice_zero {data : Bytes} {length : ℕ} (inside : length ≤ data.length) :
    slice data 0 length = .ok (data.take length) := by
  rw [slice_eq (by omega), List.drop_zero]

theorem decides_bounds (data : Bytes) (offset length : ℕ) :
    Decides (bounds data offset length) (offset + length ≤ data.length) := by
  unfold bounds
  split
  · next inside =>
    refine decides_step (sub64_eq inside) (decides_pure.congr ?_)
    omega
  · next outside =>
    refine ⟨false, rfl, ?_⟩
    simp only [Bool.false_eq_true, false_iff]
    omega

/-! ## Sections -/

/-- The sections of a block lie inside it. -/
structure Inside (data : Bytes) (h : StateDataHeader) (headerSize : ℕ) : Prop where
  header : headerSize ≤ data.length
  regions : headerSize + h.numRegions.toNat * regionInfo.size ≤ data.length
  state : h.tstateSize ≠ 0
  tstate : h.tstateOffset.toNat + h.tstateSize.toNat ≤ data.length
  maps : h.mapsOffset.toNat + h.mapsSize.toNat ≤ data.length
  regs : h.regsOffset.toNat + regsSize ≤ data.length

/-- The sections of a block follow each other. -/
structure Ordered (data : Bytes) (h : StateDataHeader) (headerSize : ℕ) : Prop where
  tstate : h.tstateOffset.toNat = headerSize + h.numRegions.toNat * regionInfo.size
  maps : h.mapsOffset.toNat = h.tstateOffset.toNat + h.tstateSize.toNat
  memory : h.mapsOffset.toNat + h.mapsSize.toNat ≤ h.regsOffset.toNat
  regs : h.regsOffset.toNat + regsSize = data.length

variable {data : Bytes} {header : StateDataHeader} {headerSize : ℕ}

theorem decides_sectionsInside : Decides (sectionsInside data header headerSize) (Inside data header headerSize) := by
  have regions : headerSize ≤ data.length → Decides (do
      let room ← sub64 data.length headerSize
      return header.numRegions.toNat ≤ room / regionInfo.size)
      (headerSize + header.numRegions.toNat * regionInfo.size ≤ data.length) := by
    intro inside
    refine decides_step (sub64_eq inside) (decides_pure.congr ?_)
    rw [Nat.le_div_iff_mul_le (by decide)]
    omega
  refine (decides_pure.and fun inside => (regions inside).and fun _ => decides_pure.and fun _ =>
    (decides_bounds ..).and fun _ => (decides_bounds ..).and fun _ => decides_bounds ..).congr ?_
  exact ⟨fun all => ⟨all.1, all.2.1, all.2.2.1, all.2.2.2.1, all.2.2.2.2.1, all.2.2.2.2.2⟩,
    fun all => ⟨all.header, all.regions, all.state, all.tstate, all.maps, all.regs⟩⟩

theorem decides_sectionsOrdered (small : data.length ≤ uint64Max) (inside : Inside data header headerSize) :
    Decides (sectionsOrdered data header headerSize) (Ordered data header headerSize) := by
  obtain ⟨_, regions, _, tstate, maps, regs⟩ := inside
  refine ((decides_step (mul64_eq (by omega)) (decides_step (add64_eq (by omega)) decides_pure)).and fun _ =>
    (decides_step (add64_eq (by omega)) decides_pure).and fun _ =>
    (decides_step (add64_eq (by omega)) decides_pure).and fun _ =>
    decides_step (add64_eq (by omega)) decides_pure).congr ?_
  exact ⟨fun all => ⟨all.1, all.2.1, all.2.2.1, all.2.2.2⟩, fun all => ⟨all.tstate, all.maps, all.memory, all.regs⟩⟩

/-- The page table fills the space between the mappings and the registers. -/
structure PagesInside (h : PageManifestHeader) : Prop where
  first : h.pagesOffset.toNat = h.common.mapsOffset.toNat + h.common.mapsSize.toNat
  last : h.pagesOffset.toNat + h.pageCount.toNat * pageRef.size = h.common.regsOffset.toNat

theorem decides_pagesInside {h : PageManifestHeader} (small : data.length ≤ uint64Max)
    (maps : h.common.mapsOffset.toNat + h.common.mapsSize.toNat ≤ data.length)
    (regs : h.common.regsOffset.toNat ≤ data.length) : Decides (pagesInside data h) (PagesInside h) := by
  have table : h.pageCount.toNat * pageRef.size ≤ uint64Max := by
    have count := h.pageCount.toNat_lt
    rw [show pageRef.size = 20 from rfl]
    unfold uint64Max
    omega
  refine ((decides_step (add64_eq (by omega)) decides_pure).and fun _ =>
    (decides_step (mul64_eq table) (decides_bounds ..)).and fun inside =>
    decides_step (mul64_eq table) (decides_step (add64_eq (by omega)) decides_pure)).congr ?_
  constructor
  · rintro ⟨first, _, last⟩
    exact ⟨first, last⟩
  · rintro ⟨first, last⟩
    exact ⟨first, by omega, last⟩

/-! ## Regions -/

/-- Pages that cover a region from an address on: each one reaches to the next page boundary or to the end of
the region. -/
def CoveredFrom (stop : ℕ) : ℕ → List PageRef → Prop
  | address, [] => stop ≤ address
  | address, page :: pages => address < stop ∧
      (page.address.toNat = address ∧ page.length.toNat = chunkLength address stop ∧ page.key ≠ 0) ∧
      CoveredFrom stop (address + chunkLength address stop) pages

/-- A list of regions in order and without overlap, each with a valid protection, and the pages that cover
them. -/
inductive WellFormed : ℕ → ℕ → List RegionInfo → List PageRef → Prop
  | nil (previousEnd first : ℕ) : WellFormed previousEnd first [] []
  | cons {previousEnd first : ℕ} {region : RegionInfo} {regions : List RegionInfo} {covered pages : List PageRef}
      (protection : region.validProtection = true) (nonempty : region.start < region.stop)
      (order : previousEnd ≤ region.start.toNat) (offset : region.offset.toNat = first)
      (cover : CoveredFrom region.stop.toNat region.start.toNat covered)
      (rest : WellFormed region.stop.toNat (first + covered.length) regions pages) :
      WellFormed previousEnd first (region :: regions) (covered ++ pages)

/-- A list of regions whose bytes follow each other in a flat block. -/
inductive Extends (limit : ℕ) : ℕ → ℕ → List RegionInfo → ℕ → Prop
  | nil (previousEnd first : ℕ) : Extends limit previousEnd first [] first
  | cons {previousEnd first last : ℕ} {region : RegionInfo} {regions : List RegionInfo}
      (protection : region.validProtection = true) (nonempty : region.start < region.stop)
      (order : previousEnd ≤ region.start.toNat) (offset : region.offset.toNat = first)
      (extent : first + (region.stop.toNat - region.start.toNat) ≤ limit)
      (rest : Extends limit region.stop.toNat (first + (region.stop.toNat - region.start.toNat)) regions last) :
      Extends limit previousEnd first (region :: regions) last

theorem computes_coverRegion {stop : ℕ} (bound : stop ≤ uint64Max) (address nextData : ℕ) (start : address ≤ stop)
    (rest : List PageRef) (few : nextData + rest.length ≤ uint64Max) :
    Computes (coverRegion stop address nextData rest) fun last => ∃ covered,
      CoveredFrom stop address covered ∧ rest = covered ++ last.2 ∧ last.1 = nextData + covered.length := by
  induction rest generalizing address nextData with
  | nil =>
    rw [coverRegion]
    split
    · next inside =>
      refine (computes_throw _).congr fun last => ⟨nofun, ?_⟩
      rintro ⟨covered, cover, same, _⟩
      rw [List.nil_eq, List.append_eq_nil_iff] at same
      rw [same.1] at cover
      exact absurd inside (Nat.not_lt.mpr cover)
    · next outside =>
      refine (computes_pure (nextData, ([] : List PageRef))).congr fun last => ⟨?_, ?_⟩
      · rintro rfl
        exact ⟨[], Nat.not_lt.mp outside, rfl, rfl⟩
      · rintro ⟨covered, _, same, counted⟩
        rw [List.nil_eq, List.append_eq_nil_iff] at same
        rw [same.1] at counted
        exact Prod.ext counted same.2
  | cons page rest ih =>
    rw [coverRegion]
    rw [List.length_cons] at few
    split
    · next inside =>
      have reach : address + chunkLength address stop ≤ stop := by
        unfold chunkLength
        omega
      refine (computes_step (add64_eq (by omega)) (computes_require fun _ => computes_step (add64_eq (by omega))
        (ih _ _ reach (by omega)))).congr fun last => ⟨?_, ?_⟩
      · rintro ⟨valid, covered, cover, rfl, counted⟩
        refine ⟨page :: covered, ⟨inside, valid, cover⟩, rfl, ?_⟩
        rw [counted, List.length_cons]
        omega
      · rintro ⟨covered, cover, same, counted⟩
        cases covered with
        | nil => exact absurd inside (Nat.not_lt.mpr cover)
        | cons first covered =>
          rw [List.cons_append, List.cons.injEq] at same
          obtain ⟨rfl, rfl⟩ := same
          refine ⟨cover.2.1, covered, cover.2.2, rfl, ?_⟩
          rw [counted, List.length_cons]
          omega
    · next outside =>
      refine (computes_pure (nextData, page :: rest)).congr fun last => ⟨?_, ?_⟩
      · rintro rfl
        exact ⟨[], Nat.not_lt.mp outside, rfl, rfl⟩
      · rintro ⟨covered, cover, same, counted⟩
        cases covered with
        | nil => exact Prod.ext counted same.symm
        | cons first covered => exact absurd cover.1 outside

theorem computes_checkRegions_paged {regsOffset : ℕ} (regions : List RegionInfo) (previousEnd nextData : ℕ)
    (rest : List PageRef) (few : nextData + rest.length ≤ uint64Max) :
    Computes (checkRegions true regsOffset regions previousEnd nextData rest) fun last => ∃ covered tail,
      WellFormed previousEnd nextData regions covered ∧ rest = covered ++ tail ∧ last = nextData + covered.length := by
  induction regions generalizing previousEnd nextData rest with
  | nil =>
    refine (computes_pure nextData).congr fun last => ⟨?_, ?_⟩
    · rintro rfl
      exact ⟨[], rest, .nil .., rfl, rfl⟩
    · rintro ⟨covered, tail, ⟨⟩, _, counted⟩
      exact counted
  | cons region regions ih =>
    have bound := region.stop.toNat_lt
    rw [checkRegions]
    simp only [if_true]
    refine (computes_require fun protection => computes_require fun ordered =>
      (computes_coverRegion (by unfold uint64Max; omega) _ _ (UInt64.le_iff_toNat_le.mp (UInt64.le_of_lt ordered.1)) rest
        few).bind (R := fun middle last => ∃ covered tail, WellFormed region.stop.toNat middle.1 regions covered ∧
          middle.2 = covered ++ tail ∧ last = middle.1 + covered.length) fun middle found => ?_).congr fun last => ⟨?_, ?_⟩
    · obtain ⟨covered, _, same, counted⟩ := found
      refine ih _ _ _ ?_
      rw [same, List.length_append] at few
      omega
    · rintro ⟨protection, ⟨nonempty, order, offset⟩, middle, ⟨covered, cover, rfl, counted⟩, later, tail, wellFormed,
        same, rfl⟩
      rw [counted] at wellFormed
      refine ⟨covered ++ later, tail, .cons protection nonempty order offset cover wellFormed, ?_, ?_⟩
      · rw [same, List.append_assoc]
      · rw [counted, List.length_append, Nat.add_assoc]
    · rintro ⟨_, tail, wellFormed, rfl, rfl⟩
      cases wellFormed with
      | @cons _ _ _ _ covered later protection nonempty order offset cover wellFormed =>
        refine ⟨protection, ⟨nonempty, order, offset⟩, (nextData + covered.length, later ++ tail),
          ⟨covered, cover, ?_, rfl⟩, later, tail, wellFormed, rfl, ?_⟩
        · rw [List.append_assoc]
        · rw [List.length_append, Nat.add_assoc]

theorem computes_checkRegions_flat {regsOffset : ℕ} (bound : regsOffset ≤ uint64Max) (regions : List RegionInfo)
    (previousEnd nextData : ℕ) (rest : List PageRef) :
    Computes (checkRegions false regsOffset regions previousEnd nextData rest)
      (Extends regsOffset previousEnd nextData regions) := by
  induction regions generalizing previousEnd nextData with
  | nil =>
    refine (computes_pure nextData).congr fun last => ⟨?_, ?_⟩
    · rintro rfl
      exact .nil ..
    · rintro ⟨⟩
      rfl
  | cons region regions ih =>
    rw [checkRegions]
    simp only [Bool.false_eq_true, if_false]
    refine (computes_require fun protection => computes_require fun ordered => computes_require fun inside =>
      computes_step (sub64_eq (UInt64.le_iff_toNat_le.mp (UInt64.le_of_lt ordered.1))) (computes_step (sub64_eq inside)
        (computes_require fun room => computes_step (add64_eq (by omega)) (ih _ _)))).congr fun last => ⟨?_, ?_⟩
    · rintro ⟨protection, ⟨nonempty, order, offset⟩, inside, room, rest⟩
      exact .cons protection nonempty order offset (by omega) rest
    · intro wellFormed
      cases wellFormed with
      | cons protection nonempty order offset extent later =>
        exact ⟨protection, ⟨nonempty, order, offset⟩, by omega, by omega, later⟩

/-! ## The constructor -/

/-- The blocks the constructor accepts, and the view it makes of them. -/
structure Opened (data : Bytes) (view : SnapshotView) (headerSize : ℕ) : Prop where
  block : view.data = data
  header : view.header = stateDataHeader.unpack (data.take stateDataHeader.size)
  magic : view.header.magic = snapshotMagic
  inside : Inside data view.header headerSize
  ordered : Ordered data view.header headerSize
  regions : view.regions = regionInfo.unpackTable view.header.numRegions.toNat
    ((data.drop headerSize).take (view.header.numRegions.toNat * regionInfo.size))
  regs : view.regs = (data.drop view.header.regsOffset.toNat).take regsSize

/-- A flat block, with the bytes of its regions between the mappings and the registers. -/
structure OpenedFlat (data : Bytes) (view : SnapshotView) : Prop extends Opened data view stateDataHeader.size where
  version : view.header.version = flatSnapshotVersion
  pages : view.pages = []
  memory : Extends view.header.regsOffset.toNat 0 (view.header.mapsOffset.toNat + view.header.mapsSize.toNat)
    view.regions view.header.regsOffset.toNat

/-- A paged block, with a table of the pages of its regions. -/
structure OpenedPaged (hostPageSize : ℕ) (data : Bytes) (view : SnapshotView) (h : PageManifestHeader) : Prop
    extends Opened data view pageManifestHeader.size where
  version : view.header.version = pageSnapshotVersion
  manifest : h = pageManifestHeader.unpack (data.take pageManifestHeader.size)
  host : hostPageSize = pageSize ∧ h.pageSize.toNat = pageSize
  table : PagesInside h
  pages : view.pages = pageRef.unpackTable h.pageCount.toNat
    ((data.drop h.pagesOffset.toNat).take (h.pageCount.toNat * pageRef.size))
  memory : WellFormed 0 0 view.regions view.pages

/-- Both headers of a paged block start with the same fields. -/
theorem common_unpack (word : Bytes) :
    (pageManifestHeader.unpack word).common = stateDataHeader.unpack (word.take stateDataHeader.size) := rfl

theorem computes_readPages (hostPageSize : ℕ) (small : data.length ≤ uint64Max)
    (inside : Inside data (stateDataHeader.unpack (data.take stateDataHeader.size)) pageManifestHeader.size) :
    Computes (readPages hostPageSize data) fun pages =>
      let h := pageManifestHeader.unpack (data.take pageManifestHeader.size)
      (hostPageSize = pageSize ∧ h.pageSize.toNat = pageSize) ∧ PagesInside h ∧ pages =
        pageRef.unpackTable h.pageCount.toNat ((data.drop h.pagesOffset.toNat).take (h.pageCount.toNat * pageRef.size)) := by
  have common : (pageManifestHeader.unpack (data.take pageManifestHeader.size)).common =
      stateDataHeader.unpack (data.take stateDataHeader.size) := by
    rw [common_unpack, List.take_take]
    rfl
  rw [← common] at inside
  obtain ⟨long, _, _, _, maps, regs⟩ := inside
  refine computes_step (slice_zero long) ?_
  dsimp only
  generalize pageManifestHeader.unpack (data.take pageManifestHeader.size) = h at *
  refine computes_require fun _ => computes_require_decides (decides_pagesInside small maps (by omega)) fun table => ?_
  have last := table.last
  exact computes_step (slice_eq (by omega)) (computes_pure _)

/-- What the constructor accepts. Nothing on the way wraps around or leaves the block. -/
theorem computes_snapshotView (hostPageSize : ℕ) (small : data.length ≤ uint64Max) :
    Computes (snapshotView hostPageSize data) fun view =>
      OpenedFlat data view ∨ ∃ h, OpenedPaged hostPageSize data view h := by
  unfold snapshotView
  refine (computes_require fun long => computes_step (slice_zero long) (computes_require
    (R := fun view => OpenedFlat data view ∨ ∃ h, OpenedPaged hostPageSize data view h) fun known => ?_)).congr
      fun view => ⟨fun all => all.2.2, ?_⟩
  · rcases known.2 with flat | paged
    · have version : decide ((stateDataHeader.unpack (data.take stateDataHeader.size)).version = pageSnapshotVersion) =
        false := by
        rw [flat]
        rfl
      simp only [version, Bool.false_eq_true, if_false]
      generalize same : stateDataHeader.unpack (data.take stateDataHeader.size) = h at *
      refine (computes_require_decides decides_sectionsInside fun inside => computes_require_decides
        (decides_sectionsOrdered small inside) fun ordered => computes_step (slice_eq inside.regions) (computes_step
          (slice_eq inside.regs) (computes_step rfl (computes_step (add64_eq (inside.maps.trans small))
            ((computes_checkRegions_flat (by have := inside.regs; omega) _ _ _ _).bind fun last _ =>
              computes_require fun _ => computes_pure _))))).congr fun view => ⟨?_, ?_⟩
      · rintro ⟨inside, ordered, last, memory, rfl, rfl⟩
        exact .inl ⟨⟨rfl, same.symm, known.1, inside, ordered, rfl, rfl⟩, flat, rfl, memory⟩
      · rintro (opened | ⟨_, opened⟩)
        · obtain rfl : view.header = h := opened.header.trans same
          refine ⟨opened.inside, opened.ordered, _, ?_, rfl, ?_⟩
          · rw [← opened.regions]
            exact opened.memory
          · rw [← opened.regions, ← opened.regs, ← opened.pages, ← opened.block]
        · have contradicts := opened.version
          rw [opened.header, same, flat] at contradicts
          cases contradicts
    · have version : decide ((stateDataHeader.unpack (data.take stateDataHeader.size)).version = pageSnapshotVersion) =
        true := by
        rw [paged]
        rfl
      simp only [version, if_true]
      have readable := computes_readPages hostPageSize small
      generalize same : stateDataHeader.unpack (data.take stateDataHeader.size) = h at *
      refine (computes_require_decides decides_sectionsInside fun inside => computes_require_decides
        (decides_sectionsOrdered small inside) fun ordered => computes_step (slice_eq inside.regions) (computes_step
          (slice_eq inside.regs) ((readable inside).bind fun pages found => computes_step rfl
            ((computes_checkRegions_paged _ _ _ _ ?_).bind fun last _ =>
              computes_require fun _ => computes_pure _)))).congr fun view => ⟨?_, ?_⟩
      · rw [found.2.2, Packed.length_unpackTable]
        have count := (pageManifestHeader.unpack (data.take pageManifestHeader.size)).pageCount.toNat_lt
        unfold uint64Max
        omega
      · rintro ⟨inside, ordered, pages, ⟨host, table, read⟩, last, ⟨covered, tail, memory, split, rfl⟩, all, rfl⟩
        obtain rfl : tail = [] := by
          rw [split, List.length_append] at all
          exact List.length_eq_zero_iff.mp (by omega)
        rw [List.append_nil] at split
        subst split
        exact .inr ⟨_, ⟨rfl, same.symm, known.1, inside, ordered, rfl, rfl⟩, paged, rfl, host, table, read, memory⟩
      · rintro (opened | ⟨manifest, opened⟩)
        · have contradicts := opened.version
          rw [opened.header, same, paged] at contradicts
          cases contradicts
        · obtain rfl : view.header = h := opened.header.trans same
          obtain ⟨⟨block, _, _, inside, ordered, regions, regs⟩, _, rfl, host, table, pages, memory⟩ := opened
          refine ⟨inside, ordered, view.pages, ⟨host, table, pages⟩, _, ⟨view.pages, [], ?_, ?_, rfl⟩, ?_, ?_⟩
          · rw [← regions]
            exact memory
          · rw [List.append_nil]
          · rw [Nat.zero_add]
          · rw [← regions, ← regs, ← block]
  · rintro (opened | ⟨_, opened⟩)
    · have inside := opened.inside.header
      refine ⟨inside, ⟨?_, .inl ?_⟩, .inl opened⟩
      · rw [← opened.header, opened.magic]
      · rw [← opened.header, opened.version]
    · have inside := opened.inside.header
      refine ⟨(by decide : stateDataHeader.size ≤ pageManifestHeader.size).trans inside, ⟨?_, .inr ?_⟩,
        .inr ⟨_, opened⟩⟩
      · rw [← opened.header, opened.magic]
      · rw [← opened.header, opened.version]

/-! ## Manifests -/

section Manifests

variable {regions : List RegionInfo} {metadata maps regs : Bytes} {pages : List PageRef} {h : PageManifestHeader}

/-- The sections of a paged block, one after the other. -/
def manifestBytes (h : PageManifestHeader) (regions : List RegionInfo) (metadata maps regs : Bytes)
    (pages : List PageRef) : Bytes :=
  pageManifestHeader.pack h ++ (regionInfo.packTable regions ++ (metadata ++ (maps ++ (pageRef.packTable pages ++ regs))))

/-- Where the registers of a paged block begin. -/
def regsStart (regions : List RegionInfo) (metadata maps : Bytes) (pages : List PageRef) : ℕ :=
  pageManifestHeader.size + regions.length * regionInfo.size + metadata.length + maps.length + pages.length * pageRef.size

theorem length_manifestBytes : (manifestBytes h regions metadata maps regs pages).length =
    regsStart regions metadata maps pages + regs.length := by
  simp only [manifestBytes, regsStart, List.length_append, Packed.length_packTable, Packed.length_pack]
  omega

/-- The offsets in a manifest's header. -/
structure Describes (h : PageManifestHeader) (regions : List RegionInfo) (metadata maps : Bytes)
    (pages : List PageRef) : Prop where
  magic : h.common.magic = snapshotMagic
  version : h.common.version = pageSnapshotVersion
  size : h.pageSize.toNat = pageSize
  numRegions : h.common.numRegions.toNat = regions.length
  tstateOffset : h.common.tstateOffset.toNat = pageManifestHeader.size + regions.length * regionInfo.size
  tstateSize : h.common.tstateSize.toNat = metadata.length
  mapsOffset : h.common.mapsOffset.toNat = h.common.tstateOffset.toNat + metadata.length
  mapsSize : h.common.mapsSize.toNat = maps.length
  pagesOffset : h.pagesOffset.toNat = h.common.mapsOffset.toNat + maps.length
  pageCount : h.pageCount.toNat = pages.length
  regsOffset : h.common.regsOffset.toNat = h.pagesOffset.toNat + pages.length * pageRef.size

theorem toNat_ofNat32 {n : ℕ} (fits : n ≤ uint32Max) : (UInt32.ofNat n).toNat = n :=
  UInt32.toNat_ofNat_of_lt' (Nat.lt_of_le_of_lt fits (by decide))

theorem toNat_ofNat64 {n : ℕ} (fits : n ≤ uint64Max) : (UInt64.ofNat n).toNat = n :=
  UInt64.toNat_ofNat_of_lt' (Nat.lt_of_le_of_lt fits (by decide))

theorem eq_ofNat32 {a : UInt32} {n : ℕ} (same : a.toNat = n) : a = UInt32.ofNat n := by
  rw [← same, UInt32.ofNat_toNat]

theorem eq_ofNat64 {a : UInt64} {n : ℕ} (same : a.toNat = n) : a = UInt64.ofNat n := by
  rw [← same, UInt64.ofNat_toNat]

theorem describes_manifestHeader (few : regions.length ≤ uint32Max) (fewPages : pages.length ≤ uint32Max)
    (fits : regsStart regions metadata maps pages ≤ uint64Max) :
    Describes (manifestHeader regions metadata maps pages) regions metadata maps pages := by
  unfold regsStart at fits
  refine ⟨rfl, rfl, rfl, toNat_ofNat32 few, ?_, ?_, ?_, ?_, ?_, toNat_ofNat32 fewPages, ?_⟩
  all_goals
    simp only [manifestHeader]
    repeat rw [toNat_ofNat64 (by omega)]

/-- A header is determined by what it describes. -/
theorem Describes.eq_manifestHeader (describes : Describes h regions metadata maps pages) :
    h = manifestHeader regions metadata maps pages := by
  obtain ⟨magic, version, size, numRegions, tstateOffset, tstateSize, mapsOffset, mapsSize, pagesOffset, pageCount,
    regsOffset⟩ := describes
  rw [tstateOffset] at mapsOffset
  rw [mapsOffset] at pagesOffset
  rw [pagesOffset] at regsOffset
  obtain ⟨⟨_, _, _, _, _, _, _, _⟩, _, _, _⟩ := h
  simp only [manifestHeader, PageManifestHeader.mk.injEq, StateDataHeader.mk.injEq]
  exact ⟨⟨magic, version, eq_ofNat32 numRegions, eq_ofNat64 tstateOffset, eq_ofNat64 tstateSize, eq_ofNat64 mapsOffset,
    eq_ofNat64 mapsSize, eq_ofNat64 regsOffset⟩, eq_ofNat32 size, eq_ofNat32 pageCount, eq_ofNat64 pagesOffset⟩

/-- A section and what follows it. -/
theorem take_drop_section {data first rest : Bytes} {offset length : ℕ} (at_ : data.drop offset = first ++ rest)
    (sized : first.length = length) : (data.drop offset).take length = first ∧ data.drop (offset + length) = rest := by
  rw [← List.drop_drop, at_]
  exact ⟨List.take_left' sized, List.drop_left' sized⟩

theorem drop_eq_section (data : Bytes) (offset length : ℕ) :
    data.drop offset = (data.drop offset).take length ++ data.drop (offset + length) := by
  rw [← List.drop_drop, List.take_append_drop]

/-- The constructor accepts a well formed manifest. -/
theorem opened_manifestBytes (describes : Describes h regions metadata maps pages)
    (wellFormed : WellFormed 0 0 regions pages)
    (nonempty : metadata ≠ []) (sized : regs.length = regsSize) :
    OpenedPaged pageSize (manifestBytes h regions metadata maps regs pages)
      ⟨manifestBytes h regions metadata maps regs pages, h.common, regions, pages, regs⟩ h ∧
    ((manifestBytes h regions metadata maps regs pages).drop h.common.tstateOffset.toNat).take
      h.common.tstateSize.toNat = metadata ∧
    ((manifestBytes h regions metadata maps regs pages).drop h.common.mapsOffset.toNat).take
      h.common.mapsSize.toNat = maps := by
  have length : (manifestBytes h regions metadata maps regs pages).length = _ := length_manifestBytes
  obtain ⟨magic, version, size, numRegions, tstateOffset, tstateSize, mapsOffset, mapsSize, pagesOffset, pageCount,
    regsOffset⟩ := describes
  generalize block : manifestBytes h regions metadata maps regs pages = data at *
  have start : data.drop 0 = _ := block.symm
  obtain ⟨headPart, afterHead⟩ := take_drop_section start (pageManifestHeader.length_pack h)
  rw [Nat.zero_add] at afterHead
  obtain ⟨regionPart, afterRegions⟩ := take_drop_section afterHead (regionInfo.length_packTable regions)
  rw [← tstateOffset] at afterRegions
  obtain ⟨metadataPart, afterMetadata⟩ := take_drop_section afterRegions tstateSize.symm
  rw [tstateSize, ← mapsOffset] at afterMetadata
  obtain ⟨mapsPart, afterMaps⟩ := take_drop_section afterMetadata mapsSize.symm
  rw [mapsSize, ← pagesOffset] at afterMaps
  obtain ⟨pagesPart, afterPages⟩ := take_drop_section afterMaps (pageRef.length_packTable pages)
  rw [← regsOffset] at afterPages
  rw [List.drop_zero] at headPart
  have common : h.common = stateDataHeader.unpack (data.take stateDataHeader.size) := by
    have unpacked := common_unpack (data.take pageManifestHeader.size)
    rw [headPart, pageManifestHeader.unpack_pack, ← headPart, List.take_take] at unpacked
    exact unpacked
  have positive : h.common.tstateSize ≠ 0 := by
    intro zero
    rw [zero] at tstateSize
    exact nonempty (List.length_eq_zero_iff.mp tstateSize.symm)
  rw [regsStart] at length
  refine ⟨⟨⟨rfl, common, magic, ⟨?_, ?_, positive, ?_, ?_, ?_⟩, ⟨?_, ?_, ?_, ?_⟩, ?_, ?_⟩, version, ?_, ⟨rfl, size⟩,
    ⟨?_, ?_⟩, ?_, wellFormed⟩, metadataPart, mapsPart⟩
  all_goals try dsimp only
  · omega
  · rw [numRegions]
    omega
  · omega
  · omega
  · omega
  · rw [numRegions, tstateOffset]
  · rw [tstateSize, mapsOffset]
  · omega
  · omega
  · rw [numRegions, regionPart, regionInfo.unpackTable_packTable]
  · rw [afterPages, ← sized, List.take_length]
  · rw [headPart, pageManifestHeader.unpack_pack]
  · rw [mapsSize, pagesOffset]
  · rw [pageCount, regsOffset]
  · rw [pageCount, pagesPart, pageRef.unpackTable_packTable]

/-- An accepted paged block is the manifest of what its view exposes. -/
theorem eq_manifestBytes {view : SnapshotView} (opened : OpenedPaged pageSize data view h) :
    data = manifestBytes h view.regions view.metadata view.mapsText view.regs view.pages ∧
      Describes h view.regions view.metadata view.mapsText view.pages ∧ view.metadata ≠ [] ∧
        view.regs.length = regsSize := by
  obtain ⟨⟨block, header, magic, inside, ordered, regions, regs⟩, version, manifest, host, table, pages, memory⟩ := opened
  have common : h.common = view.header := by
    rw [header, manifest, common_unpack, List.take_take]
    rfl
  have lengthRegions : view.regions.length = view.header.numRegions.toNat := by
    rw [regions, Packed.length_unpackTable]
  have lengthPages : view.pages.length = h.pageCount.toNat := by
    rw [pages, Packed.length_unpackTable]
  obtain ⟨long, regionsInside, state, tstateInside, mapsInside, regsInside⟩ := inside
  obtain ⟨tstate, maps, memoryBound, regsEnd⟩ := ordered
  obtain ⟨first, last⟩ := table
  rw [common] at first last
  have metadataLength : view.metadata.length = view.header.tstateSize.toNat := by
    rw [SnapshotView.metadata, block, List.length_take, List.length_drop]
    omega
  have mapsLength : view.mapsText.length = view.header.mapsSize.toNat := by
    rw [SnapshotView.mapsText, block, List.length_take, List.length_drop]
    omega
  have regsLength : view.regs.length = regsSize := by
    rw [regs, List.length_take, List.length_drop]
    omega
  refine ⟨?_, ⟨?_, ?_, host.2, ?_, ?_, ?_, ?_, ?_, ?_, lengthPages.symm, ?_⟩, ?_, regsLength⟩
  · have headPart : pageManifestHeader.pack h = data.take pageManifestHeader.size := by
      rw [manifest, pageManifestHeader.pack_unpack]
      rw [List.length_take]
      omega
    have regionPart : regionInfo.packTable view.regions = (data.drop pageManifestHeader.size).take
        (view.header.numRegions.toNat * regionInfo.size) := by
      rw [regions, regionInfo.packTable_unpackTable]
      rw [List.length_take, List.length_drop]
      omega
    have pagesPart : pageRef.packTable view.pages = (data.drop h.pagesOffset.toNat).take
        (h.pageCount.toNat * pageRef.size) := by
      rw [pages, pageRef.packTable_unpackTable]
      rw [List.length_take, List.length_drop]
      omega
    have regsPart : view.regs = data.drop view.header.regsOffset.toNat := by
      rw [regs, List.take_of_length_le]
      rw [List.length_drop]
      omega
    rw [manifestBytes, headPart, regionPart, pagesPart, regsPart, SnapshotView.metadata, SnapshotView.mapsText, block,
      ← last, ← drop_eq_section, first, ← drop_eq_section, maps, ← drop_eq_section, tstate, ← drop_eq_section,
      List.take_append_drop]
  · rw [common, magic]
  · rw [common, version]
  · rw [common, lengthRegions]
  · rw [common, lengthRegions, tstate]
  · rw [common, metadataLength]
  · rw [common, metadataLength, maps]
  · rw [common, mapsLength]
  · rw [common, mapsLength, first]
  · rw [common, lengthPages, last]
  · intro empty
    rw [empty] at metadataLength
    exact state (UInt64.toNat_inj.mp metadataLength.symm)

/-- Copying into the part of a buffer that is still zero. -/
theorem copyInto_zeros {first source : Bytes} {room offset : ℕ} (start : first.length = offset) :
    copyInto (first ++ List.replicate room 0) offset source =
      (first ++ source) ++ List.replicate (room - source.length) 0 := by
  rw [copyInto, List.take_left' start, ← List.drop_drop, List.drop_left' start, List.drop_replicate]

theorem encodePageManifest_eq_ok (sized : regs.length = regsSize) {bytes : Bytes} :
    encodePageManifest regions metadata maps regs pages = .ok bytes ↔
      regsStart regions metadata maps pages + regsSize ≤ uint32Max ∧
        bytes = manifestBytes (manifestHeader regions metadata maps pages) regions metadata maps regs pages := by
  have larger : uint32Max ≤ uint64Max := by decide
  have rows : regions.length ≤ regions.length * regionInfo.size := Nat.le_mul_of_pos_right _ (by decide)
  have pageRows : pages.length ≤ pages.length * pageRef.size := Nat.le_mul_of_pos_right _ (by decide)
  have unfolded : regsStart regions metadata maps pages = pageManifestHeader.size + regions.length * regionInfo.size +
    metadata.length + maps.length + pages.length * pageRef.size := rfl
  unfold encodePageManifest
  by_cases limits : uint32Max < regions.length ∨ uint32Max < pages.length ∨ uint32Max < metadata.length ∨
    uint32Max < maps.length
  · rw [if_pos limits]
    refine ⟨nofun, fun both => ?_⟩
    omega
  rw [if_neg limits]
  have bound : regsStart regions metadata maps pages ≤ uint64Max := by
    rw [unfolded, show regionInfo.size = 33 from rfl, show pageRef.size = 20 from rfl, show pageManifestHeader.size = 68 from rfl]
    unfold uint32Max at limits
    unfold uint64Max
    omega
  obtain ⟨_, _, _, _, tstateOffset, _, mapsOffset, _, pagesOffset, _, regsOffset⟩ :=
    describes_manifestHeader (by omega : regions.length ≤ uint32Max) (by omega) bound
  generalize manifestHeader regions metadata maps pages = h at *
  dsimp only
  have small : ¬uint32Max - regsSize < h.common.regsOffset.toNat ↔
      regsStart regions metadata maps pages + regsSize ≤ uint32Max := by
    rw [show regsSize = 216 from rfl, unfolded]
    unfold uint32Max
    omega
  by_cases exceeds : uint32Max - regsSize < h.common.regsOffset.toNat
  · rw [if_pos exceeds]
    exact ⟨nofun, fun both => absurd exceeds (small.mpr both.1)⟩
  rw [if_neg exceeds, and_iff_right (small.mp exceeds), Except.ok.injEq, eq_comm]
  have written : copyInto (copyInto (copyInto (copyInto (copyInto (copyInto
      (List.replicate (h.common.regsOffset.toNat + regsSize) 0) 0 (pageManifestHeader.pack h))
      pageManifestHeader.size (regionInfo.packTable regions)) h.common.tstateOffset.toNat metadata)
      h.common.mapsOffset.toNat maps) h.pagesOffset.toNat (pageRef.packTable pages)) h.common.regsOffset.toNat regs =
      manifestBytes h regions metadata maps regs pages := by
    have blank : List.replicate (h.common.regsOffset.toNat + regsSize) (0 : UInt8) =
      [] ++ List.replicate (h.common.regsOffset.toNat + regsSize) 0 := rfl
    have headLength := pageManifestHeader.length_pack h
    have tableLength := regionInfo.length_packTable regions
    have pagesLength := pageRef.length_packTable pages
    rw [blank, copyInto_zeros List.length_nil, List.nil_append, copyInto_zeros headLength, copyInto_zeros, copyInto_zeros,
      copyInto_zeros, copyInto_zeros]
    · have full : h.common.regsOffset.toNat + regsSize - (pageManifestHeader.pack h).length -
          (regionInfo.packTable regions).length - metadata.length - maps.length - (pageRef.packTable pages).length -
          regs.length = 0 := by omega
      rw [full, List.replicate_zero, List.append_nil]
      simp only [manifestBytes, List.append_assoc]
    all_goals
      simp only [List.length_append]
      omega
  rw [written]

end Manifests

/-- Page manifests are exact, and opening a snapshot is safe. A well formed manifest that fits into the store
is written, and opening it gives its parts back. A paged block that is accepted and fits into the store is
the manifest of the parts it exposes. Opening any block at all only throws: no sum wraps around and nothing
outside the block is read. -/
theorem page_manifest_exact :
    (∀ regions metadata maps regs pages, WellFormed 0 0 regions pages → metadata ≠ [] → regs.length = regsSize →
      (regsStart regions metadata maps pages + regsSize ≤ uint32Max →
        ∃ data, encodePageManifest regions metadata maps regs pages = .ok data) ∧
      ∀ data, encodePageManifest regions metadata maps regs pages = .ok data →
        ∃ view, snapshotView pageSize data = .ok view ∧ view.header.version = pageSnapshotVersion ∧
          view.regions = regions ∧ view.metadata = metadata ∧ view.mapsText = maps ∧ view.regs = regs ∧
          view.pages = pages) ∧
    (∀ data view, data.length ≤ uint32Max → snapshotView pageSize data = .ok view →
      view.header.version = pageSnapshotVersion →
        encodePageManifest view.regions view.metadata view.mapsText view.regs view.pages = .ok data) ∧
    (∀ hostPageSize data abort, data.length ≤ uint64Max → snapshotView hostPageSize data = .error abort →
      ∃ message, abort = .thrown message) := by
  have larger : uint32Max ≤ uint64Max := by decide
  refine ⟨?_, ?_, ?_⟩
  · intro regions metadata maps regs pages wellFormed nonempty sized
    refine ⟨fun small => ⟨_, (encodePageManifest_eq_ok sized).mpr ⟨small, rfl⟩⟩, ?_⟩
    intro data encoded
    obtain ⟨small, rfl⟩ := (encodePageManifest_eq_ok sized).mp encoded
    have rows : regions.length ≤ regions.length * regionInfo.size := Nat.le_mul_of_pos_right _ (by decide)
    have pageRows : pages.length ≤ pages.length * pageRef.size := Nat.le_mul_of_pos_right _ (by decide)
    have few := small
    rw [regsStart] at few
    have describes := describes_manifestHeader (by omega : regions.length ≤ uint32Max)
      (by omega : pages.length ≤ uint32Max) (by omega : regsStart regions metadata maps pages ≤ uint64Max)
    obtain ⟨opened, metadataPart, mapsPart⟩ := opened_manifestBytes describes wellFormed nonempty sized
    have fits : (manifestBytes (manifestHeader regions metadata maps pages) regions metadata maps regs pages).length ≤
        uint64Max := by
      rw [length_manifestBytes, sized]
      omega
    exact ⟨_, ((computes_snapshotView _ fits).returns _).mpr (.inr ⟨_, opened⟩), opened.version, rfl, metadataPart,
      mapsPart, rfl, rfl⟩
  · intro data view small accepted paged
    rcases ((computes_snapshotView _ (small.trans larger)).returns view).mp accepted with opened | ⟨h, opened⟩
    · rw [opened.version] at paged
      cases paged
    · obtain ⟨bytes, describes, _, sized⟩ := eq_manifestBytes opened
      refine (encodePageManifest_eq_ok sized).mpr ⟨?_, ?_⟩
      · rwa [bytes, length_manifestBytes, sized] at small
      · rwa [← describes.eq_manifestHeader]
  · intro hostPageSize data abort small failed
    exact (computes_snapshotView _ small).throws abort failed

/-- Two chunks of an unaligned region. -/
theorem page_manifest_exact_unaligned :
    let regions : List RegionInfo := [⟨4000, 4100, 0, 1, ⟨ascii 'r', ascii '-', ascii '-', ascii 'p', 0⟩⟩]
    let pages : List PageRef := [⟨4000, 96, 7⟩, ⟨4096, 4, 8⟩]
    ∃ data view, encodePageManifest regions [1] [] (List.replicate regsSize 0) pages = .ok data ∧
      snapshotView pageSize data = .ok view ∧ view.regions = regions ∧ view.pages = pages := by
  intro regions pages
  have wellFormed : WellFormed 0 0 regions pages := by
    have cover : CoveredFrom 4100 4000 pages :=
      ⟨by decide, by decide, by decide, by decide, (by decide : (4100 : ℕ) ≤ 4096 + 4)⟩
    have whole := WellFormed.cons (by decide : regions[0].validProtection = true) (by decide) (Nat.zero_le _) rfl cover
      (.nil _ _)
    rwa [List.append_nil] at whole
  obtain ⟨written, opens⟩ := page_manifest_exact.1 regions [1] [] (List.replicate regsSize 0) pages wellFormed (by decide)
    (List.length_replicate ..)
  obtain ⟨data, encoded⟩ := written (by decide)
  obtain ⟨view, opened, _, sameRegions, _, _, _, samePages⟩ := opens data encoded
  exact ⟨data, view, encoded, opened, sameRegions, samePages⟩

/-- A block beyond the limit of the store is accepted, but its parts are not written again. -/
theorem large_manifest_not_written :
    ∃ data view, data.length ≤ uint64Max ∧ snapshotView pageSize data = .ok view ∧
      view.header.version = pageSnapshotVersion ∧
      ∀ bytes, encodePageManifest view.regions view.metadata view.mapsText view.regs view.pages ≠ .ok bytes := by
  obtain ⟨metadata, length⟩ : ∃ metadata : Bytes, metadata.length = 2 ^ 32 :=
    ⟨List.replicate (2 ^ 32) 0, List.length_replicate⟩
  obtain ⟨regs, sized⟩ : ∃ regs : Bytes, regs.length = regsSize := ⟨List.replicate regsSize 0, List.length_replicate⟩
  have total : regsStart [] metadata [] [] = 68 + 2 ^ 32 := by
    rw [regsStart, length]
    rfl
  have bound : regsStart [] metadata [] [] ≤ uint64Max := by
    rw [total]
    decide
  have nonempty : metadata ≠ [] := by
    intro empty
    rw [empty] at length
    cases length
  have describes := describes_manifestHeader (by decide) (by decide) bound
  obtain ⟨opened, metadataPart, _⟩ := opened_manifestBytes describes (.nil 0 0) nonempty sized
  have fits : (manifestBytes (manifestHeader [] metadata [] []) [] metadata [] regs []).length ≤ uint64Max := by
    rw [length_manifestBytes, total, sized]
    decide
  refine ⟨_, _, fits, ((computes_snapshotView _ fits).returns _).mpr (.inr ⟨_, opened⟩), opened.version, ?_⟩
  intro bytes
  rw [Ne, encodePageManifest_eq_ok sized, SnapshotView.metadata, metadataPart]
  rintro ⟨small, _⟩
  rw [regsStart, length] at small
  unfold uint32Max at small
  omega

end DetSim.Snapshot
