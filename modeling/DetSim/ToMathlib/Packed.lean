import DetSim.ToMathlib.Codec

/-! # Packed records

A packed record occupies a fixed number of bytes, and every word of that length is one. Records follow each
other without padding, so a table is cut into rows of one size. Unlike a `Codec`, reading cannot fail: what
is not to be accepted is checked afterwards.
-/

namespace Packed

/-- The number that bytes stand for, least significant first. -/
def natOfBytes : List UInt8 → ℕ
  | [] => 0
  | byte :: rest => byte.toNat + 256 * natOfBytes rest

theorem natOfBytes_lt (data : List UInt8) : natOfBytes data < 256 ^ data.length := by
  induction data with
  | nil => simp [natOfBytes]
  | cons byte rest ih =>
    have := byte.toNat_lt
    rw [natOfBytes, List.length_cons, pow_succ]
    omega

theorem natBytes_natOfBytes (data : List UInt8) : Codec.natBytes data.length (natOfBytes data) = data := by
  induction data with
  | nil => rfl
  | cons byte rest ih =>
    have := byte.toNat_lt
    have quotient : (byte.toNat + 256 * natOfBytes rest) / 256 = natOfBytes rest := by omega
    have low : UInt8.ofNat (byte.toNat + 256 * natOfBytes rest) = byte := by
      rw [← UInt8.toNat_inj, UInt8.toNat_ofNat']
      omega
    rw [natOfBytes, List.length_cons, Codec.natBytes, quotient, low, ih]

theorem natOfBytes_natBytes {width value : ℕ} (fits : value < 256 ^ width) :
    natOfBytes (Codec.natBytes width value) = value := by
  induction width generalizing value with
  | zero =>
    rw [pow_zero, Nat.lt_one_iff] at fits
    subst fits
    rfl
  | succ width ih =>
    have smaller : value / 256 < 256 ^ width := by
      rw [Nat.div_lt_iff_lt_mul (by decide), ← pow_succ]
      exact fits
    rw [Codec.natBytes, natOfBytes, ih smaller, UInt8.toNat_ofNat']
    omega

end Packed

/-- Values and words of a fixed length, one to one. -/
structure Packed (α : Type) where
  size : ℕ
  pack : α → List UInt8
  unpack : List UInt8 → α
  length_pack : ∀ value, (pack value).length = size
  unpack_pack : ∀ value, unpack (pack value) = value
  pack_unpack : ∀ word, word.length = size → pack (unpack word) = word

namespace Packed

variable {α β : Type}

def uint8 : Packed UInt8 where
  size := 1
  pack value := [value]
  unpack word := word.headD 0
  length_pack _ := rfl
  unpack_pack _ := rfl
  pack_unpack word sized := by
    obtain ⟨byte, rfl⟩ := List.length_eq_one_iff.mp sized
    rfl

def uint32 : Packed UInt32 where
  size := 4
  pack value := Codec.natBytes 4 value.toNat
  unpack word := UInt32.ofNat (natOfBytes word)
  length_pack value := Codec.length_natBytes 4 value.toNat
  unpack_pack value := by
    rw [natOfBytes_natBytes value.toNat_lt, UInt32.ofNat_toNat]
  pack_unpack word sized := by
    have fits := natOfBytes_lt word
    rw [sized] at fits
    rw [UInt32.toNat_ofNat_of_lt' fits, ← sized, natBytes_natOfBytes]

def uint64 : Packed UInt64 where
  size := 8
  pack value := Codec.natBytes 8 value.toNat
  unpack word := UInt64.ofNat (natOfBytes word)
  length_pack value := Codec.length_natBytes 8 value.toNat
  unpack_pack value := by
    rw [natOfBytes_natBytes value.toNat_lt, UInt64.ofNat_toNat]
  pack_unpack word sized := by
    have fits := natOfBytes_lt word
    rw [sized] at fits
    rw [UInt64.toNat_ofNat_of_lt' fits, ← sized, natBytes_natOfBytes]

/-- One record after another. -/
def prod (left : Packed α) (right : Packed β) : Packed (α × β) where
  size := left.size + right.size
  pack value := left.pack value.1 ++ right.pack value.2
  unpack word := (left.unpack (word.take left.size), right.unpack (word.drop left.size))
  length_pack value := by rw [List.length_append, left.length_pack, right.length_pack]
  unpack_pack value := by
    rw [List.take_left' (left.length_pack _), List.drop_left' (left.length_pack _), left.unpack_pack,
      right.unpack_pack]
  pack_unpack word sized := by
    have first : (word.take left.size).length = left.size := by
      rw [List.length_take]
      omega
    have second : (word.drop left.size).length = right.size := by
      rw [List.length_drop]
      omega
    rw [left.pack_unpack _ first, right.pack_unpack _ second, List.take_append_drop]

/-- The fields of a structure. -/
def ofEquiv (fields : Packed α) (equiv : β ≃ α) : Packed β where
  size := fields.size
  pack value := fields.pack (equiv value)
  unpack word := equiv.symm (fields.unpack word)
  length_pack value := fields.length_pack _
  unpack_pack value := by rw [fields.unpack_pack, equiv.symm_apply_apply]
  pack_unpack word sized := by rw [equiv.apply_symm_apply, fields.pack_unpack word sized]

/-! ## Tables -/

variable (row : Packed α)

def packTable (rows : List α) : List UInt8 := rows.flatMap row.pack

def unpackTable : ℕ → List UInt8 → List α
  | 0, _ => []
  | count + 1, word => row.unpack (word.take row.size) :: unpackTable count (word.drop row.size)

theorem length_packTable (rows : List α) : (row.packTable rows).length = rows.length * row.size := by
  simp only [packTable, List.length_flatMap, row.length_pack, List.map_const', List.sum_replicate, smul_eq_mul]

theorem length_unpackTable (count : ℕ) (word : List UInt8) : (row.unpackTable count word).length = count := by
  induction count generalizing word with
  | zero => rfl
  | succ count ih => rw [unpackTable, List.length_cons, ih]

theorem unpackTable_packTable (rows : List α) : row.unpackTable rows.length (row.packTable rows) = rows := by
  induction rows with
  | nil => rfl
  | cons value rest ih =>
    have sized := row.length_pack value
    rw [packTable] at ih ⊢
    rw [List.flatMap_cons, List.length_cons, unpackTable, List.take_left' sized, List.drop_left' sized,
      row.unpack_pack, ih]

theorem packTable_unpackTable {count : ℕ} {word : List UInt8} (sized : word.length = count * row.size) :
    row.packTable (row.unpackTable count word) = word := by
  induction count generalizing word with
  | zero =>
    rw [Nat.zero_mul, List.length_eq_zero_iff] at sized
    rw [sized]
    rfl
  | succ count ih =>
    rw [Nat.succ_mul] at sized
    have first : (word.take row.size).length = row.size := by
      rw [List.length_take]
      omega
    have rest : (word.drop row.size).length = count * row.size := by
      rw [List.length_drop]
      omega
    have later := ih rest
    rw [packTable] at later ⊢
    rw [unpackTable, List.flatMap_cons, row.pack_unpack _ first, later, List.take_append_drop]

end Packed
