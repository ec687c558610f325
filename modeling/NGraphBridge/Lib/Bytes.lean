import Mathlib.Algebra.GroupWithZero.Nat
import Mathlib.Data.List.Basic

/-!
# Words of bytes

A word of several bytes is written with its lowest byte first.
-/

namespace NGraphBridge

def ofBytes : List (BitVec 8) → Nat
  | [] => 0
  | byte :: bytes => byte.toNat + 256 * ofBytes bytes

/-- The lowest bytes of a number. -/
def toBytes : Nat → Nat → List (BitVec 8)
  | 0, _ => []
  | count + 1, value => BitVec.ofNat 8 value :: toBytes count (value / 256)

theorem ofBytes_lt (bytes : List (BitVec 8)) :
    ofBytes bytes < 2 ^ (8 * bytes.length) := by
  induction bytes with
  | nil => exact Nat.one_pos
  | cons byte bytes ih =>
      have bounded := byte.isLt
      rw [ofBytes, List.length_cons, Nat.mul_add, Nat.pow_add]
      omega

theorem toBytes_ofBytes (bytes : List (BitVec 8)) :
    toBytes bytes.length (ofBytes bytes) = bytes := by
  induction bytes with
  | nil => rfl
  | cons byte bytes ih =>
      have bounded := byte.isLt
      have rest : (byte.toNat + 256 * ofBytes bytes) / 256 = ofBytes bytes := by
        omega
      have first : BitVec.ofNat 8 (byte.toNat + 256 * ofBytes bytes) =
          byte := by
        apply BitVec.eq_of_toNat_eq
        rw [BitVec.toNat_ofNat]
        omega
      rw [List.length_cons, ofBytes, toBytes, rest, ih, first]

section Words

variable {size : Nat}

/-- The words that lie behind each other. -/
def words (size : Nat) : Nat → List (BitVec 8) → List (BitVec (8 * size))
  | 0, _ => []
  | count + 1, bytes =>
      BitVec.ofNat (8 * size) (ofBytes (bytes.take size)) :: words size count
        (bytes.drop size)

def wordBytes (word : BitVec (8 * size)) : List (BitVec 8) :=
  toBytes size word.toNat

theorem wordBytes_ofBytes {bytes : List (BitVec 8)}
    (isWord : bytes.length = size) :
    wordBytes (BitVec.ofNat (8 * size) (ofBytes bytes)) = bytes := by
  subst isWord
  rw [wordBytes, BitVec.toNat_ofNat, Nat.mod_eq_of_lt (ofBytes_lt bytes),
    toBytes_ofBytes]

theorem words_length {count : Nat} {bytes : List (BitVec 8)} :
    (words size count bytes).length = count := by
  induction count generalizing bytes with
  | zero => rfl
  | succ count ih => rw [words, List.length_cons, ih]

/-- The words are made of the bytes. -/
theorem wordBytes_words {count : Nat} {bytes : List (BitVec 8)}
    (full : bytes.length = count * size) :
    (words size count bytes).flatMap wordBytes = bytes := by
  induction count generalizing bytes with
  | zero =>
      rw [Nat.zero_mul] at full
      rw [List.length_eq_zero_iff.mp full]
      rfl
  | succ count ih =>
      rw [Nat.succ_mul] at full
      have first : (bytes.take size).length = size := by
        rw [List.length_take]
        omega
      have rest : (bytes.drop size).length = count * size := by
        rw [List.length_drop]
        omega
      rw [words, List.flatMap_cons, wordBytes_ofBytes first, ih rest,
        List.take_append_drop]

end Words

end NGraphBridge
