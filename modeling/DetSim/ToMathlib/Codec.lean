import Mathlib

/-! # Numbers as bytes

A number in a fixed count of bytes, and the reader of one at the front of a word.
-/

namespace Codec

/-- A number as a fixed count of bytes, least significant first. -/
def natBytes : ℕ → ℕ → List UInt8
  | 0, _ => []
  | width + 1, number => UInt8.ofNat number :: natBytes width (number / 256)

def readNat : ℕ → List UInt8 → Option (ℕ × List UInt8)
  | 0, word => some (0, word)
  | _ + 1, [] => none
  | width + 1, byte :: word => do
    let (number, rest) ← readNat width word
    some (byte.toNat + 256 * number, rest)

theorem length_natBytes (width number : ℕ) : (natBytes width number).length = width := by
  induction width generalizing number with
  | zero => rfl
  | succ width ih => rw [natBytes, List.length_cons, ih]

end Codec
