import DetSim.Model.Segments
import DetSim.Soundness.PageManifest

/-! # Segments are read as they were written

The reader of a segment accepts exactly the files that the writer makes, and no arithmetic on the way wraps around and no
access leaves the mapping, because every sum is bounded by the size of the file. What the sender puts into a batch by its
own estimate of the size is never too much for the writer.
-/

namespace DetSim.Search.Wire

open Kernel (Bytes)
open Scheduler (HashType)
open Snapshot

variable {hash : Bytes → HashType} {limits : Limits} {segmentBytes : ℕ}

def SegmentRow.blob (row : SegmentRow) : Blob := ⟨row.key, row.bytes⟩

def Blob.row (blob : Blob) : SegmentRow := ⟨blob.key, blob.bytes⟩

/-! ## The image of a list of objects -/

/-- The size of all contents. -/
def contentsSize (rows : List SegmentRow) : ℕ := (rows.map fun row => row.bytes.length).sum

/-- The size of a segment. -/
def segmentSize (rows : List SegmentRow) : ℕ := rowOffset rows.length + contentsSize rows

/-- The rows of the table when the contents start at an offset. -/
def tableFrom : ℕ → List SegmentRow → Bytes
  | _, [] => []
  | offset, row :: rows =>
    segmentRow.pack (row.key, UInt64.ofNat offset, UInt64.ofNat row.bytes.length) ++
      tableFrom (offset + row.bytes.length) rows

def contents (rows : List SegmentRow) : Bytes := rows.flatMap SegmentRow.bytes

def image (rows : List SegmentRow) : Bytes :=
  segmentHeader.pack (segmentMagic, UInt64.ofNat rows.length, UInt64.ofNat (segmentSize rows)) ++
    tableFrom (rowOffset rows.length) rows ++ contents rows

/-- What the reader insists on for every object. -/
structure GoodRow (hash : Bytes → HashType) (limits : Limits) (row : SegmentRow) : Prop where
  keyed : row.key ≠ 0
  some_ : row.bytes ≠ []
  small : row.bytes.length ≤ limits.maxBlobBytes.toNat
  hashed : hash row.bytes = row.key

@[simp] theorem contentsSize_nil : contentsSize [] = 0 := rfl

@[simp] theorem contentsSize_cons (row : SegmentRow) (rows : List SegmentRow) :
    contentsSize (row :: rows) = row.bytes.length + contentsSize rows := by simp [contentsSize]

theorem contents_cons (row : SegmentRow) (rows : List SegmentRow) :
    contents (row :: rows) = row.bytes ++ contents rows := rfl

@[simp] theorem length_contents (rows : List SegmentRow) : (contents rows).length = contentsSize rows := by
  simp [contents, contentsSize, List.length_flatMap]

@[simp] theorem length_tableFrom (offset : ℕ) (rows : List SegmentRow) :
    (tableFrom offset rows).length = rows.length * rowBytes := by
  induction rows generalizing offset with
  | nil => simp [tableFrom]
  | cons row rows ih =>
    rw [tableFrom, List.length_append, segmentRow.length_pack, ih, List.length_cons, Nat.succ_mul, Nat.add_comm]
    rfl

theorem length_image (rows : List SegmentRow) : (image rows).length = segmentSize rows := by
  rw [image, List.length_append, List.length_append, segmentHeader.length_pack, length_tableFrom, length_contents]
  rfl

/-! ## Reading -/

/-- The rows stand in the table from an index on, and their contents one after the other from an offset on. -/
def Stored (bytes : Bytes) : ℕ → ℕ → List SegmentRow → Prop
  | _, _, [] => True
  | index, next, row :: rows =>
    (bytes.drop (rowOffset index)).take rowBytes =
        segmentRow.pack (row.key, UInt64.ofNat next, UInt64.ofNat row.bytes.length) ∧
      (bytes.drop next).take row.bytes.length = row.bytes ∧ Stored bytes (index + 1) (next + row.bytes.length) rows

variable {bytes : Bytes}

theorem decides_rangeOk {size next : ℕ} (inside : next ≤ size) (row : UInt64 × UInt64 × UInt64) :
    Decides (rangeOk limits size next row)
      ((row.1 ≠ 0 ∧ row.2.2 ≠ 0 ∧ row.2.2 ≤ limits.maxBlobBytes ∧ row.2.1.toNat = next) ∧
        next + row.2.2.toNat ≤ size) := by
  refine decides_pure.and fun _ => decides_step (sub64_eq inside) (decides_pure.congr ?_)
  omega

/-- One row is read exactly when it is good and its contents are where they should be. -/
theorem computes_parseRow {index next : ℕ} (small : bytes.length < 2 ^ 63) (inside : next ≤ bytes.length)
    (table : rowOffset (index + 1) ≤ bytes.length) :
    Computes (parseRow hash limits bytes bytes.length next index) fun result =>
      result.2 = next + result.1.bytes.length ∧ result.2 ≤ bytes.length ∧ GoodRow hash limits result.1 ∧
        Stored bytes index next [result.1] := by
  have width : rowOffset index + rowBytes ≤ bytes.length := by
    unfold rowOffset at table ⊢
    rw [Nat.succ_mul] at table
    omega
  have wordLength : ((bytes.drop (rowOffset index)).take rowBytes).length = segmentRow.size := by
    rw [List.length_take, List.length_drop]
    exact min_eq_left (by omega)
  have repack := segmentRow.pack_unpack _ wordLength
  have sumFits : ∀ {length}, next + length ≤ bytes.length → next + length ≤ Snapshot.uint64Max := by
    intro length within
    unfold Snapshot.uint64Max
    omega
  have computes : Computes (parseRow hash limits bytes bytes.length next index) fun result =>
      let row := segmentRow.unpack ((bytes.drop (rowOffset index)).take rowBytes)
      let contents := (bytes.drop row.2.1.toNat).take row.2.2.toNat
      ((row.1 ≠ 0 ∧ row.2.2 ≠ 0 ∧ row.2.2 ≤ limits.maxBlobBytes ∧ row.2.1.toNat = next) ∧
        next + row.2.2.toNat ≤ bytes.length) ∧ hash contents = row.1 ∧
        result = (⟨row.1, contents⟩, next + row.2.2.toNat) := by
    refine computes_step (slice_eq width) (computes_require_decides (decides_rangeOk inside _) fun fits => ?_)
    have there := fits.2
    rw [← fits.1.2.2.2] at there
    refine computes_step (slice_eq there) (computes_require fun hashed => ?_)
    exact computes_step (add64_eq (sumFits fits.2)) (computes_pure _)
  refine computes.congr fun result => ?_
  dsimp only
  generalize segmentRow.unpack ((bytes.drop (rowOffset index)).take rowBytes) = row at repack
  obtain ⟨key, offset, size⟩ := row
  constructor
  · rintro ⟨⟨⟨keyed, some_, below, rfl⟩, within⟩, hashed, rfl⟩
    dsimp only at within
    have length : ((bytes.drop offset.toNat).take size.toNat).length = size.toNat := by
      rw [List.length_take, List.length_drop]
      omega
    have nonempty : size.toNat ≠ 0 := fun zero => some_ (UInt64.toNat_inj.mp zero)
    refine ⟨by rw [length], within, ⟨keyed, ?_, ?_, hashed⟩, ?_, ?_, trivial⟩
    · rw [← List.length_pos_iff, length]
      omega
    · rw [length]
      exact below
    · rw [length, UInt64.ofNat_toNat, UInt64.ofNat_toNat, ← repack]
    · rw [length]
  · rintro ⟨last, within, ⟨keyed, some_, below, hashed⟩, entry, there, -⟩
    obtain ⟨⟨rowKey, rowBytes'⟩, final⟩ := result
    have nonempty := List.length_pos_iff.mpr some_
    have same := segmentRow.unpack_pack (rowKey, UInt64.ofNat next, UInt64.ofNat rowBytes'.length)
    rw [← entry, ← repack, segmentRow.unpack_pack] at same
    simp only [Prod.mk.injEq] at same
    obtain ⟨rfl, rfl, rfl⟩ := same
    simp only at last within below there hashed nonempty
    have offsetNat : (UInt64.ofNat next).toNat = next := UInt64.toNat_ofNat_of_lt' (by
      show next < 2 ^ 64
      omega)
    have sizeNat : (UInt64.ofNat rowBytes'.length).toNat = rowBytes'.length := UInt64.toNat_ofNat_of_lt' (by
      show rowBytes'.length < 2 ^ 64
      omega)
    simp only [offsetNat, sizeNat, there]
    refine ⟨⟨⟨keyed, ?_, ?_, trivial⟩, ?_⟩, hashed, ?_⟩
    · intro zero
      rw [zero] at sizeNat
      exact absurd sizeNat.symm (by simpa using some_)
    · rw [UInt64.le_iff_toNat_le, sizeNat]
      exact below
    · rw [← last]
      exact within
    · rw [← last]

/-- The rows are read exactly when all of them are good and stored one after the other. -/
theorem computes_parseRows {count index next : ℕ} (small : bytes.length < 2 ^ 63) (inside : next ≤ bytes.length)
    (table : rowOffset (index + count) ≤ bytes.length) :
    Computes (parseRows hash limits bytes bytes.length count index next) fun result =>
      result.1.length = count ∧ result.2 = next + contentsSize result.1 ∧ result.2 ≤ bytes.length ∧
        (∀ row ∈ result.1, GoodRow hash limits row) ∧ Stored bytes index next result.1 := by
  induction count generalizing index next with
  | zero =>
    refine (computes_pure _).congr fun result => ?_
    constructor
    · rintro rfl
      exact ⟨rfl, rfl, inside, by simp, trivial⟩
    · rintro ⟨none_, last, -⟩
      obtain ⟨rows, final⟩ := result
      obtain rfl := List.length_eq_zero_iff.mp none_
      simp only [contentsSize_nil, Nat.add_zero] at last
      rw [last]
  | succ count ih =>
    have here : rowOffset (index + 1) ≤ bytes.length := by
      unfold rowOffset at table ⊢
      have := Nat.mul_le_mul_right rowBytes (show index + 1 ≤ index + (count + 1) by omega)
      omega
    rw [show index + (count + 1) = index + 1 + count by omega] at table
    refine ((computes_parseRow small inside here).bind fun first good => (ih good.2.1 table).bind fun others _ =>
      computes_pure _).congr fun result => ?_
    constructor
    · rintro ⟨⟨row, middle⟩, ⟨isNext, -, good, entry, there, -⟩, ⟨rows, last⟩, ⟨isLength, isLast, within, goods, stored⟩, rfl⟩
      dsimp only at isNext isLength isLast within goods stored good entry there
      subst isNext isLength isLast
      refine ⟨rfl, ?_, within, ?_, entry, there, stored⟩
      · rw [contentsSize_cons, Nat.add_assoc]
      · exact List.forall_mem_cons.mpr ⟨good, goods⟩
    · obtain ⟨rows, last⟩ := result
      dsimp only
      rintro ⟨length, rfl, within, goods, stored⟩
      cases rows with
      | nil => contradiction
      | cons row rows =>
        obtain ⟨entry, there, stored⟩ := stored
        rw [List.forall_mem_cons] at goods
        simp only [contentsSize_cons, ← Nat.add_assoc] at within ⊢
        refine ⟨(row, next + row.bytes.length), ⟨rfl, ?_, goods.1, entry, there, trivial⟩,
          (rows, next + row.bytes.length + contentsSize rows), ⟨Nat.succ.inj length, rfl, within, goods.2, stored⟩, rfl⟩
        exact (Nat.le_add_right _ _).trans within

/-! ### Tables and contents as a whole -/

theorem take_add_eq_append {α : Type*} {first second list : List α} {width rest : ℕ} (sized : first.length = width) :
    list.take (width + rest) = first ++ second ↔ list.take width = first ∧ (list.drop width).take rest = second := by
  rw [List.take_add]
  constructor
  · intro same
    refine List.append_inj same ?_
    have total := congrArg List.length same
    simp only [List.length_append, List.length_take, List.length_drop] at total ⊢
    omega
  · rintro ⟨left, right⟩
    rw [left, right]

theorem rowOffset_succ (index : ℕ) : rowOffset (index + 1) = rowOffset index + rowBytes := by
  unfold rowOffset
  rw [Nat.succ_mul, Nat.add_assoc]

/-- The rows and their contents are stored exactly when the table and the contents stand there as a whole. -/
theorem stored_iff (index next : ℕ) (rows : List SegmentRow) :
    Stored bytes index next rows ↔ (bytes.drop (rowOffset index)).take (rows.length * rowBytes) = tableFrom next rows ∧
      (bytes.drop next).take (contentsSize rows) = contents rows := by
  induction rows generalizing index next with
  | nil => simp [Stored, tableFrom, contents]
  | cons row rows ih =>
    have table : (row :: rows).length * rowBytes = rowBytes + rows.length * rowBytes := by
      rw [List.length_cons, Nat.succ_mul, Nat.add_comm]
    have entry : (segmentRow.pack (row.key, UInt64.ofNat next, UInt64.ofNat row.bytes.length)).length = rowBytes :=
      segmentRow.length_pack _
    rw [Stored, ih, table, tableFrom, take_add_eq_append entry, contentsSize_cons, contents_cons,
      take_add_eq_append rfl, List.drop_drop, List.drop_drop, ← rowOffset_succ]
    tauto

/-- The header, the table and the contents of an image. -/
theorem image_sections (rows : List SegmentRow) :
    (image rows).take headerBytes =
        segmentHeader.pack (segmentMagic, UInt64.ofNat rows.length, UInt64.ofNat (segmentSize rows)) ∧
      ((image rows).drop (rowOffset 0)).take (rows.length * rowBytes) = tableFrom (rowOffset rows.length) rows ∧
      ((image rows).drop (rowOffset rows.length)).take (contentsSize rows) = contents rows := by
  have header : (segmentHeader.pack (segmentMagic, UInt64.ofNat rows.length, UInt64.ofNat (segmentSize rows))).length =
      headerBytes := segmentHeader.length_pack _
  have start : rowOffset 0 = headerBytes := by simp [rowOffset]
  refine ⟨?_, ?_, ?_⟩
  · rw [image, List.append_assoc, List.take_left' header]
  · rw [start, image, List.append_assoc, List.drop_left' header, List.take_left' (length_tableFrom ..)]
  · rw [image, List.drop_left' (by rw [List.length_append, header, length_tableFrom]; rfl),
      List.take_of_length_le (length_contents rows).le]

/-- What the reader insists on for the whole segment. -/
structure Acceptable (hash : Bytes → HashType) (limits : Limits) (segmentBytes : ℕ) (rows : List SegmentRow) :
    Prop where
  some_ : rows ≠ []
  few : rows.length ≤ maxObjects
  bounded : segmentSize rows ≤ segmentBytes
  framed : segmentSize rows ≤ limits.maxFrameBytes.toNat
  offset : segmentSize rows < 2 ^ 63
  good : ∀ row ∈ rows, GoodRow hash limits row

theorem decides_countOk {size count : ℕ} (inside : headerBytes ≤ size) :
    Decides (countOk size count) ((count ≠ 0 ∧ count ≤ maxObjects) ∧ rowOffset count ≤ size) := by
  refine decides_pure.and fun _ => decides_step (sub64_eq inside) (decides_pure.congr ?_)
  rw [Nat.le_div_iff_mul_le (by decide)]
  unfold rowOffset
  omega

/-- The reader accepts the images of acceptable rows, and returns them. -/
theorem computes_openSegment (file : SealedFile) :
    Computes (openSegment hash limits segmentBytes file) fun segment =>
      segment.size = UInt64.ofNat file.bytes.length ∧ Acceptable hash limits segmentBytes segment.rows ∧
        file.bytes = image segment.rows := by
  obtain ⟨bytes, sized⟩ := file
  have computes : Computes (openSegment hash limits segmentBytes ⟨bytes, sized⟩) fun segment =>
      let header := segmentHeader.unpack (bytes.take headerBytes)
      headerBytes ≤ bytes.length ∧ (bytes.length ≤ segmentBytes ∧ bytes.length ≤ limits.maxFrameBytes.toNat) ∧
        (header.1 = segmentMagic ∧ header.2.2.toNat = bytes.length) ∧
        ((header.2.1.toNat ≠ 0 ∧ header.2.1.toNat ≤ maxObjects) ∧ rowOffset header.2.1.toNat ≤ bytes.length) ∧
        ∃ rows : List SegmentRow × ℕ, (rows.1.length = header.2.1.toNat ∧
          rows.2 = rowOffset header.2.1.toNat + contentsSize rows.1 ∧ rows.2 ≤ bytes.length ∧
          (∀ row ∈ rows.1, GoodRow hash limits row) ∧ Stored bytes 0 (rowOffset header.2.1.toNat) rows.1) ∧
          rows.2 = bytes.length ∧ segment = ⟨UInt64.ofNat bytes.length, rows.1⟩ := by
    refine computes_require fun long => computes_require fun small => computes_step (slice_zero long)
      (computes_require fun fixed => computes_require_decides (decides_countOk long) fun counted => ?_)
    have table := counted.2
    have sum_ : headerBytes + (segmentHeader.unpack (bytes.take headerBytes)).2.1.toNat * rowBytes ≤
        Snapshot.uint64Max := by
      unfold rowOffset at table
      unfold Snapshot.uint64Max
      omega
    refine computes_step (mul64_eq ((Nat.le_add_left _ _).trans sum_)) (computes_step (add64_eq sum_) ?_)
    refine (computes_parseRows sized table ?_).bind fun rows _ => computes_require fun whole => computes_pure _
    rwa [Nat.zero_add]
  refine computes.congr fun segment => ?_
  dsimp only
  have repack : headerBytes ≤ bytes.length →
      segmentHeader.pack (segmentHeader.unpack (bytes.take headerBytes)) = bytes.take headerBytes := by
    intro long
    refine segmentHeader.pack_unpack _ ?_
    rw [List.length_take]
    exact min_eq_left long
  constructor
  · rintro ⟨long, ⟨bounded, framed⟩, ⟨magic, recorded⟩, ⟨⟨some_, few⟩, table⟩, ⟨rows, last⟩,
      ⟨length, isLast, -, good, stored⟩, whole, rfl⟩
    dsimp only at length isLast good stored whole
    rw [← length] at some_ few table isLast stored
    have size : segmentSize rows = bytes.length := isLast.symm.trans whole
    have fields : segmentHeader.unpack (bytes.take headerBytes) =
        (segmentMagic, UInt64.ofNat rows.length, UInt64.ofNat (segmentSize rows)) := by
      refine Prod.ext magic (Prod.ext ?_ ?_)
      · rw [length, UInt64.ofNat_toNat]
      · rw [size, ← recorded, UInt64.ofNat_toNat]
    have header := repack long
    rw [fields] at header
    obtain ⟨tabled, filled⟩ := (stored_iff 0 _ rows).mp stored
    rw [List.take_of_length_le (by rw [List.length_drop]; omega)] at filled
    refine ⟨rfl, ⟨List.length_pos_iff.mp (Nat.pos_of_ne_zero some_), few, by rwa [size], by rwa [size],
      by rwa [size], good⟩, ?_⟩
    rw [image, header, ← tabled, ← filled]
    have offset : rowOffset 0 = headerBytes := by simp [rowOffset]
    rw [offset, List.append_assoc]
    have split : bytes.drop (rowOffset rows.length) = (bytes.drop headerBytes).drop (rows.length * rowBytes) := by
      rw [List.drop_drop, rowOffset]
    rw [split, List.take_append_drop, List.take_append_drop]
  · rintro ⟨isSize, ⟨some_, few, bounded, framed, -, good⟩, isImage⟩
    obtain ⟨size, rows⟩ := segment
    dsimp only at isSize some_ few bounded framed good isImage
    obtain ⟨head, tabled, filled⟩ := image_sections rows
    rw [← isImage] at head tabled filled
    have length : bytes.length = segmentSize rows := by rw [isImage, length_image]
    have fields : segmentHeader.unpack (bytes.take headerBytes) =
        (segmentMagic, UInt64.ofNat rows.length, UInt64.ofNat (segmentSize rows)) := by
      rw [head, segmentHeader.unpack_pack]
    have table : rowOffset rows.length ≤ bytes.length := by
      rw [length]
      exact Nat.le_add_right ..
    have long : headerBytes ≤ bytes.length := (Nat.le_add_right ..).trans table
    have count : (UInt64.ofNat rows.length).toNat = rows.length := UInt64.toNat_ofNat_of_lt' (by
      show rows.length < 2 ^ 64
      exact few.trans_lt (by decide))
    have recorded : (UInt64.ofNat (segmentSize rows)).toNat = bytes.length := by
      rw [← length, UInt64.toNat_ofNat_of_lt']
      show bytes.length < 2 ^ 64
      omega
    rw [← length] at bounded framed
    simp only [fields, count]
    refine ⟨long, ⟨bounded, framed⟩, ⟨trivial, recorded⟩, ⟨⟨?_, few⟩, table⟩, (rows, bytes.length), ⟨rfl, length, le_rfl,
      good, (stored_iff 0 _ rows).mpr ⟨tabled, filled⟩⟩, rfl, by rw [isSize]⟩
    exact (List.length_pos_iff.mpr some_).ne'

/-! ## Writing -/

def zeros (count : ℕ) : Bytes := List.replicate count 0

theorem zeros_add (first second : ℕ) : zeros (first + second) = zeros first ++ zeros second :=
  List.replicate_add ..

/-- Bytes in the middle of a mapping are overwritten. -/
theorem store_middle {before old after data : Bytes} {offset : ℕ} (start : before.length = offset)
    (sized : old.length = data.length) :
    store (before ++ (old ++ after)) offset data = .ok (before ++ (data ++ after)) := by
  unfold store copyInto
  rw [if_pos (by simp only [List.length_append]; omega), List.take_left' start, ← List.drop_drop,
    List.drop_left' start, List.drop_left' sized, List.append_assoc]

/-- The loop fills the table and the contents one object after the other. The buffer has four parts: what precedes the
next row, the rest of the table, the contents so far, and the rest of the contents. -/
theorem writeObjects_eq (rows : List SegmentRow) {index offset : ℕ} {before done : Bytes}
    (placed : before.length = rowOffset index)
    (reached : before.length + rows.length * rowBytes + done.length = offset)
    (fits : offset + contentsSize rows < 2 ^ 63) :
    writeObjects (rows.map SegmentRow.blob) index
        (before ++ (zeros (rows.length * rowBytes) ++ (done ++ zeros (contentsSize rows)))) offset =
      .ok (before ++ (tableFrom offset rows ++ (done ++ contents rows))) := by
  induction rows generalizing index offset before done with
  | nil => simp [writeObjects, zeros, tableFrom, contents, pure, Except.pure]
  | cons row rows ih =>
    rw [List.length_cons, Nat.succ_mul] at reached
    rw [contentsSize_cons] at fits
    have table : zeros ((row :: rows).length * rowBytes) = zeros rowBytes ++ zeros (rows.length * rowBytes) := by
      rw [← zeros_add, List.length_cons, Nat.succ_mul, Nat.add_comm]
    rw [table, contentsSize_cons, zeros_add, List.map_cons, writeObjects, writeObject]
    generalize entry : segmentRow.pack (row.blob.key, UInt64.ofNat offset, UInt64.ofNat row.blob.bytes.length) = data
    have width : data.length = rowBytes := by
      rw [← entry]
      exact segmentRow.length_pack _
    have first : store (before ++ (zeros rowBytes ++ zeros (rows.length * rowBytes) ++
        (done ++ (zeros row.bytes.length ++ zeros (contentsSize rows))))) (rowOffset index) data =
        .ok (before ++ (data ++ (zeros (rows.length * rowBytes) ++
          (done ++ (zeros row.bytes.length ++ zeros (contentsSize rows)))))) := by
      rw [List.append_assoc]
      exact store_middle placed (by rw [width]; exact List.length_replicate ..)
    have second : store (before ++ (data ++ (zeros (rows.length * rowBytes) ++
        (done ++ (zeros row.bytes.length ++ zeros (contentsSize rows)))))) offset row.bytes =
        .ok ((before ++ data) ++ (zeros (rows.length * rowBytes) ++
          ((done ++ row.bytes) ++ zeros (contentsSize rows)))) := by
      have start : (before ++ data ++ zeros (rows.length * rowBytes) ++ done).length = offset := by
        simp only [List.length_append, width, zeros, List.length_replicate]
        omega
      have room : (zeros row.bytes.length).length = row.bytes.length := List.length_replicate ..
      have shape := @store_middle _ _ (zeros (contentsSize rows)) _ _ start room
      simpa only [List.append_assoc] using shape
    have third : add64 offset row.bytes.length = .ok (offset + row.bytes.length) := by
      refine add64_eq ?_
      unfold Snapshot.uint64Max
      omega
    have placedNext : (before ++ data).length = rowOffset (index + 1) := by
      rw [List.length_append, placed, width, rowOffset_succ]
    have reachedNext : (before ++ data).length + rows.length * rowBytes + (done ++ row.bytes).length =
        offset + row.bytes.length := by
      simp only [List.length_append, width]
      omega
    have next := ih placedNext reachedNext (by omega)
    simp only [SegmentRow.blob, first, second, third, bind, Except.bind, pure, Except.pure] at next ⊢
    rw [next, tableFrom, contents_cons, ← entry]
    simp only [SegmentRow.blob, List.append_assoc]

theorem growSegment_eq {size : ℕ} {blob : Blob} (some_ : blob.bytes ≠ [])
    (fits : size + blob.bytes.length ≤ segmentBytes) (small : size + blob.bytes.length < 2 ^ 63) :
    growSegment segmentBytes size blob = .ok (size + blob.bytes.length) := by
  have room : sub64 segmentBytes size = .ok (segmentBytes - size) := sub64_eq (by omega)
  have sum_ : add64 size blob.bytes.length = .ok (size + blob.bytes.length) := by
    refine add64_eq ?_
    unfold Snapshot.uint64Max
    omega
  have inside : blob.bytes.length ≤ segmentBytes - size := by omega
  unfold growSegment
  rw [decide_eq_true some_, room, sum_]
  simp only [andM, bind, Except.bind, pure, Except.pure, decide_eq_true inside]
  rfl

theorem foldlM_growSegment {rows : List SegmentRow} {size : ℕ} (some_ : ∀ row ∈ rows, row.bytes ≠ [])
    (fits : size + contentsSize rows ≤ segmentBytes) (small : size + contentsSize rows < 2 ^ 63) :
    (rows.map SegmentRow.blob).foldlM (growSegment segmentBytes) size = .ok (size + contentsSize rows) := by
  induction rows generalizing size with
  | nil => rfl
  | cons row rows ih =>
    rw [List.forall_mem_cons] at some_
    rw [contentsSize_cons, ← Nat.add_assoc] at fits small ⊢
    have first : growSegment segmentBytes size row.blob = .ok (size + row.bytes.length) :=
      growSegment_eq some_.1 ((Nat.le_add_right ..).trans fits) ((Nat.le_add_right ..).trans_lt small)
    rw [List.map_cons, List.foldlM_cons, first]
    exact ih some_.2 fits small

/-- The writer makes the image of rows that fit. -/
theorem segmentFile_eq {rows : List SegmentRow} (some_ : rows ≠ []) (few : rows.length ≤ maxObjects)
    (filled : ∀ row ∈ rows, row.bytes ≠ []) (bounded : segmentSize rows ≤ segmentBytes)
    (offset : segmentSize rows < 2 ^ 63) :
    segmentFile segmentBytes (rows.map SegmentRow.blob) = .ok ⟨image rows, by rwa [length_image]⟩ := by
  have batch : rows.map SegmentRow.blob ≠ [] ∧ (rows.map SegmentRow.blob).length ≤ maxObjects := by
    rw [List.length_map]
    exact ⟨by simpa using some_, few⟩
  have start : rowOffset rows.length ≤ segmentSize rows := Nat.le_add_right ..
  have sum_ : headerBytes + rows.length * rowBytes ≤ Snapshot.uint64Max := by
    unfold rowOffset at start
    unfold Snapshot.uint64Max
    omega
  have size : (rows.map SegmentRow.blob).foldlM (growSegment segmentBytes) (headerBytes + rows.length * rowBytes) =
      .ok (segmentSize rows) := foldlM_growSegment filled bounded offset
  have blank : sealFile (List.replicate (segmentSize rows) 0) = .ok ⟨zeros (segmentSize rows),
      by rwa [zeros, List.length_replicate]⟩ := dif_pos (by rwa [List.length_replicate])
  generalize header : segmentHeader.pack (segmentMagic, UInt64.ofNat rows.length, UInt64.ofNat (segmentSize rows)) = head
  have width : head.length = headerBytes := by
    rw [← header]
    exact segmentHeader.length_pack _
  have parts : zeros (segmentSize rows) =
      zeros headerBytes ++ (zeros (rows.length * rowBytes) ++ ([] ++ zeros (contentsSize rows))) := by
    rw [List.nil_append, ← zeros_add, ← zeros_add, ← Nat.add_assoc]
    rfl
  have first : store (zeros (segmentSize rows)) 0 head =
      .ok (head ++ (zeros (rows.length * rowBytes) ++ ([] ++ zeros (contentsSize rows)))) := by
    rw [parts, ← List.nil_append (zeros headerBytes ++ _)]
    exact store_middle rfl (by rw [width]; exact List.length_replicate ..)
  have placed : head.length = rowOffset 0 := by rw [width, rowOffset, Nat.zero_mul, Nat.add_zero]
  have reached : head.length + rows.length * rowBytes + ([] : Bytes).length = headerBytes + rows.length * rowBytes := by
    rw [width, List.length_nil, Nat.add_zero]
  have second := writeObjects_eq rows placed reached offset
  have whole : head ++ (tableFrom (headerBytes + rows.length * rowBytes) rows ++ ([] ++ contents rows)) = image rows := by
    rw [← header, List.nil_append, image, List.append_assoc]
    rfl
  rw [whole] at second
  have last : sealFile (image rows) = .ok ⟨image rows, by rwa [length_image]⟩ := dif_pos (by rwa [length_image])
  have product := mul64_eq ((Nat.le_add_left _ _).trans sum_)
  have table := add64_eq sum_
  unfold segmentFile
  rw [Snapshot.require, if_pos batch]
  simp only [List.length_map, product, table, size, blank, header, first, second, last, bind, Except.bind]

/-- Writing and opening rows that the reader accepts. -/
theorem makeSegment_eq {rows : List SegmentRow} (acceptable : Acceptable hash limits segmentBytes rows) :
    makeSegment hash limits segmentBytes (rows.map SegmentRow.blob) =
      .ok (⟨image rows, by rw [length_image]; exact acceptable.offset⟩, ⟨UInt64.ofNat (segmentSize rows), rows⟩) := by
  have filled : ∀ row ∈ rows, row.bytes ≠ [] := fun row member => (acceptable.good row member).some_
  have written := segmentFile_eq acceptable.some_ acceptable.few filled acceptable.bounded acceptable.offset
  have opened := ((computes_openSegment ⟨image rows, by rw [length_image]; exact acceptable.offset⟩).returns
    ⟨UInt64.ofNat (segmentSize rows), rows⟩).mpr ⟨by rw [length_image], acceptable, rfl⟩
  rw [makeSegment, written]
  simp only [bind, Except.bind, opened]
  rfl

/-! ## Batches -/

theorem map_blob_row (batch : List Blob) : (batch.map Blob.row).map SegmentRow.blob = batch := by
  rw [List.map_map]
  exact List.map_id batch

theorem segmentSize_concat (batch : List Blob) (blob : Blob) :
    segmentSize ((batch ++ [blob]).map Blob.row) =
      segmentSize (batch.map Blob.row) + (rowBytes + blob.bytes.length) := by
  simp only [segmentSize, contentsSize, rowOffset, List.map_append, List.length_append, List.map_map, List.map_cons,
    List.map_nil, List.length_cons, List.length_nil, List.sum_append, List.sum_cons, List.sum_nil, Blob.row]
  rw [Nat.add_mul]
  omega

theorem eq_of_add64 {first second sum_ : ℕ} (added : add64 first second = .ok sum_) : sum_ = first + second := by
  unfold add64 at added
  split at added
  · exact (Except.ok.inj added).symm
  · contradiction

theorem eq_of_sub64 {first second difference : ℕ} (subtracted : sub64 first second = .ok difference) :
    second ≤ first ∧ difference = first - second := by
  unfold sub64 at subtracted
  split at subtracted
  · next below => exact ⟨below, (Except.ok.inj subtracted).symm⟩
  · contradiction

/-- The estimate of the loop is the size of the segment, and the loop takes objects from the front. -/
theorem fillBatch_bounded {batch fresh result rest : List Blob} {bytes : ℕ}
    (exact_ : segmentSize (batch.map Blob.row) = bytes) (few : batch.length ≤ maxObjects) (bounded : bytes ≤ segmentBytes)
    (filled : fillBatch segmentBytes batch bytes fresh = .ok (result, rest)) :
    result ++ rest = batch ++ fresh ∧ result.length ≤ maxObjects ∧ segmentSize (result.map Blob.row) ≤ segmentBytes := by
  induction fresh generalizing batch bytes with
  | nil =>
    cases filled
    exact ⟨rfl, few, exact_.trans_le bounded⟩
  | cons blob fresh ih =>
    unfold fillBatch at filled
    split at filled
    · cases filled
      exact ⟨rfl, few, exact_.trans_le bounded⟩
    · next room =>
      obtain ⟨wanted, isWanted, filled⟩ := Except.bind_eq_ok.mp filled
      obtain ⟨left, isLeft, filled⟩ := Except.bind_eq_ok.mp filled
      split at filled
      · cases filled
        exact ⟨rfl, few, exact_.trans_le bounded⟩
      · next enough =>
        obtain ⟨more, isMore, filled⟩ := Except.bind_eq_ok.mp filled
        obtain rfl := eq_of_add64 isWanted
        obtain ⟨-, rfl⟩ := eq_of_sub64 isLeft
        obtain rfl := eq_of_add64 isMore
        rw [List.append_cons]
        refine ih ?_ ?_ ?_ filled
        · rw [segmentSize_concat, exact_]
        · rw [List.length_append, List.length_singleton]
          omega
        · omega

theorem formBatches_bounded {rounds : ℕ} {fresh batch : List Blob}
    (formed : batch ∈ (formBatches segmentBytes rounds fresh).1) :
    batch.Sublist fresh ∧ batch ≠ [] ∧ batch.length ≤ maxObjects ∧
      segmentSize (batch.map Blob.row) ≤ segmentBytes := by
  induction rounds generalizing fresh with
  | zero => cases formed
  | succ rounds ih =>
    cases fresh with
    | nil => cases formed
    | cons blob fresh =>
      rw [formBatches] at formed
      · split at formed
        · cases formed
        · next result rest filled =>
          -- the room for the first object has been computed
          have start : headerBytes ≤ segmentBytes := by
            obtain ⟨wanted, -, first⟩ := Except.bind_eq_ok.mp filled
            obtain ⟨left, isLeft, -⟩ := Except.bind_eq_ok.mp first
            exact (eq_of_sub64 isLeft).1
          obtain ⟨parts, few, bounded⟩ := fillBatch_bounded rfl (Nat.zero_le _) start filled
          rw [List.nil_append] at parts
          rw [← parts]
          split at formed
          · cases formed
          · next some_ =>
            obtain rfl | later := List.mem_cons.mp formed
            · exact ⟨List.sublist_append_left _ _, some_, few, bounded⟩
            · obtain ⟨part, rest_⟩ := ih later
              exact ⟨part.trans (List.sublist_append_right _ _), rest_⟩
      · simp

theorem contentsSize_le {part whole : List Blob} (sub : part.Sublist whole) :
    contentsSize (part.map Blob.row) ≤ contentsSize (whole.map Blob.row) :=
  ((sub.map Blob.row).map _).sum_le_sum (fun _ _ => Nat.zero_le _)

/-- Every batch that the sender forms is written and read back, the reader accepts nothing but what the writer makes, and
it fails in no other way than by its checks. The sender takes its objects from a bundle whose frame is already encoded,
so that none is larger than `max_blob_bytes`, it leaves out empty ones, and the store knows no object with the key zero;
the bundle is in memory, so that all of it with the header and the rows of a segment is less than an offset can be. -/
theorem segment_format_exact (hash : Bytes → HashType) (limits : Limits) (segmentBytes : ℕ)
    (framed : segmentBytes ≤ limits.maxFrameBytes.toNat) :
    (∀ fresh, (∀ blob ∈ fresh, GoodRow hash limits (Blob.row blob)) →
      rowOffset maxObjects + contentsSize (fresh.map Blob.row) < 2 ^ 63 →
      ∀ batch ∈ (sendBatches segmentBytes fresh).1, batch ≠ [] ∧ batch.length ≤ maxObjects ∧
        ∃ file segment, makeSegment hash limits segmentBytes batch = .ok (file, segment) ∧
          openSegment hash limits segmentBytes file = .ok segment ∧ segment.rows = batch.map Blob.row) ∧
      (∀ file segment, openSegment hash limits segmentBytes file = .ok segment →
        makeSegment hash limits segmentBytes (segment.rows.map SegmentRow.blob) = .ok (file, segment)) ∧
      ∀ file abort, openSegment hash limits segmentBytes file = .error abort → ∃ reason, abort = .thrown reason := by
  refine ⟨fun fresh good held batch formed => ?_, fun file segment accepted => ?_, fun file abort failed => ?_⟩
  · obtain ⟨part, some_, few, bounded⟩ := formBatches_bounded formed
    have offset : segmentSize (batch.map Blob.row) < 2 ^ 63 := by
      have contents_ := contentsSize_le part
      have table : rowOffset (batch.map Blob.row).length ≤ rowOffset maxObjects := by
        rw [List.length_map]
        exact Nat.add_le_add_left (Nat.mul_le_mul_right _ few) _
      unfold segmentSize
      omega
    have acceptable : Acceptable hash limits segmentBytes (batch.map Blob.row) :=
      ⟨by simpa using some_, by simpa using few, bounded, bounded.trans framed, offset,
        by simpa using fun blob member => good blob (part.subset member)⟩
    have made := makeSegment_eq acceptable
    rw [map_blob_row] at made
    refine ⟨some_, few, _, _, made, ?_, rfl⟩
    exact ((computes_openSegment _).returns _).mpr ⟨by rw [length_image], acceptable, rfl⟩
  · obtain ⟨size, acceptable, isImage⟩ := ((computes_openSegment file).returns segment).mp accepted
    rw [makeSegment_eq acceptable]
    obtain ⟨bytes, sized⟩ := file
    obtain ⟨length, rows⟩ := segment
    dsimp only at size isImage
    subst isImage
    simp only [size, length_image]
  · exact (computes_openSegment file).throws abort failed

/-- A batch of two objects under their keys and the limits of the default configuration. -/
theorem segment_format_exact_batch :
    [⟨0x78af5f94892f3950, [97, 98, 99]⟩, ⟨0xe6c632b61e964e1f, [97]⟩] ∈
        (sendBatches (8 * 2 ^ 20) [⟨0x78af5f94892f3950, [97, 98, 99]⟩, ⟨0xe6c632b61e964e1f, [97]⟩]).1 ∧
      ∃ file segment, makeSegment xxh3Short {} (8 * 2 ^ 20)
          [⟨0x78af5f94892f3950, [97, 98, 99]⟩, ⟨0xe6c632b61e964e1f, [97]⟩] = .ok (file, segment) ∧
        openSegment xxh3Short {} (8 * 2 ^ 20) file = .ok segment ∧
        segment.rows = [⟨0x78af5f94892f3950, [97, 98, 99]⟩, ⟨0xe6c632b61e964e1f, [97]⟩] := by
  have formed : [⟨0x78af5f94892f3950, [97, 98, 99]⟩, ⟨0xe6c632b61e964e1f, [97]⟩] ∈
      (sendBatches (8 * 2 ^ 20) [⟨0x78af5f94892f3950, [97, 98, 99]⟩, ⟨0xe6c632b61e964e1f, [97]⟩]).1 := by
    decide +kernel
  refine ⟨formed, ((segment_format_exact xxh3Short {} _ (by decide)).1 _ ?_ (by decide +kernel) _ formed).2.2⟩
  intro blob member
  obtain rfl | rfl : blob = ⟨0x78af5f94892f3950, [97, 98, 99]⟩ ∨ blob = ⟨0xe6c632b61e964e1f, [97]⟩ := by
    simpa using member
  · exact ⟨by decide, by decide, by decide, by decide +kernel⟩
  · exact ⟨by decide, by decide, by decide, by decide +kernel⟩

end DetSim.Search.Wire
