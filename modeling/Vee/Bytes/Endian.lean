import Mathlib.Algebra.Group.Nat.Defs
import Mathlib.Data.List.Basic

/-!
# Byte order

A number as a sequence of bytes of fixed length, in both byte orders, and the
reversal of the bytes of a machine word. Reading the bytes of a big-endian
number in the other order and reversing the word that results recovers the
number; this is all that programs on a little-endian machine rely on when they
exchange words in network order.
-/

namespace Endian

abbrev Byte := BitVec 8

instance : LawfulBEq Byte := inferInstance

/-- The number that the bytes represent, the first one being the lowest. -/
def ofLittle (bytes : List Byte) : Nat :=
  bytes.foldr (fun b value => b.toNat + 256 * value) 0

/-- The `n` lowest bytes of a number, the lowest one first. -/
def toLittle (n x : Nat) : List Byte :=
  (List.range n).map fun i => BitVec.ofNat 8 (x / 256 ^ i)

def ofBig (bytes : List Byte) : Nat := ofLittle bytes.reverse

def toBig (n x : Nat) : List Byte := (toLittle n x).reverse

/-- The word with the bytes of `x` in the opposite order. -/
def reverse {w : Nat} (x : BitVec w) : BitVec w :=
  BitVec.ofNat w (ofBig (toLittle (w / 8) x.toNat))

variable {n w x : Nat} {b : Byte}

@[simp] theorem ofLittle_cons (bytes : List Byte) :
    ofLittle (b :: bytes) = b.toNat + 256 * ofLittle bytes := rfl

@[simp] theorem toLittle_length : (toLittle n x).length = n := by
  simp only [toLittle]
  rw [List.length_map, List.length_range]

@[simp] theorem toBig_length : (toBig n x).length = n := by
  simp only [toBig]
  rw [List.length_reverse, toLittle_length]

/-- The lowest byte, and the others as those of the quotient. -/
theorem toLittle_succ : toLittle (n + 1) x = BitVec.ofNat 8 x :: toLittle n (x / 256) := by
  simp only [toLittle]
  rw [List.range_succ_eq_map, List.map_cons, List.map_map, Nat.pow_zero, Nat.div_one]
  congr 1
  apply List.map_congr_left
  intro i _
  change BitVec.ofNat 8 (x / 256 ^ (i + 1)) = BitVec.ofNat 8 (x / 256 / 256 ^ i)
  rw [Nat.div_div_eq_div_mul, Nat.pow_succ']

theorem ofLittle_lt (bytes : List Byte) : ofLittle bytes < 256 ^ bytes.length := by
  induction bytes with
  | nil => decide
  | cons b bytes ih =>
      have low : b.toNat < 256 := b.isLt
      rw [ofLittle_cons, List.length_cons, Nat.pow_succ]
      omega

theorem ofBig_lt (bytes : List Byte) : ofBig bytes < 256 ^ bytes.length := by
  have bound := ofLittle_lt bytes.reverse
  rwa [List.length_reverse] at bound

/-- The bytes of the number that bytes represent. -/
theorem toLittle_ofLittle (bytes : List Byte) : toLittle bytes.length (ofLittle bytes) = bytes := by
  induction bytes with
  | nil => rfl
  | cons b bytes ih =>
      have low : b.toNat < 256 := b.isLt
      have quotient : (b.toNat + 256 * ofLittle bytes) / 256 = ofLittle bytes := by omega
      rw [List.length_cons, ofLittle_cons, toLittle_succ, quotient, ih]
      congr 1
      apply BitVec.eq_of_toNat_eq
      rw [BitVec.toNat_ofNat]
      omega

/-- The number that the bytes of a number represent. -/
theorem ofLittle_toLittle (fits : x < 256 ^ n) : ofLittle (toLittle n x) = x := by
  induction n generalizing x with
  | zero =>
      rw [Nat.pow_zero] at fits
      rw [Nat.lt_one_iff.mp fits]
      rfl
  | succ n ih =>
      rw [Nat.pow_succ'] at fits
      rw [toLittle_succ, ofLittle_cons, ih (Nat.div_lt_of_lt_mul fits), BitVec.toNat_ofNat]
      exact Nat.mod_add_div x 256

theorem ofBig_toBig (fits : x < 256 ^ n) : ofBig (toBig n x) = x := by
  simp only [ofBig, toBig]
  rw [List.reverse_reverse, ofLittle_toLittle fits]

theorem toBig_ofBig (bytes : List Byte) : toBig bytes.length (ofBig bytes) = bytes := by
  have recovered := toLittle_ofLittle bytes.reverse
  rw [List.length_reverse] at recovered
  simp only [ofBig, toBig]
  rw [recovered, List.reverse_reverse]

/-- A word that was read in little-endian order, reversed. -/
theorem reverse_ofLittle {bytes : List Byte} (length : bytes.length = n) :
    reverse (BitVec.ofNat (8 * n) (ofLittle bytes)) = BitVec.ofNat (8 * n) (ofBig bytes) := by
  have bound := ofLittle_lt bytes
  have width : 256 ^ n = 2 ^ (8 * n) := (Nat.pow_mul 2 8 n).symm
  rw [length, width] at bound
  simp only [reverse]
  rw [BitVec.toNat_ofNat, Nat.mod_eq_of_lt bound, Nat.mul_div_cancel_left n (by decide)]
  congr 2
  rw [← length, toLittle_ofLittle]

/-- The little-endian bytes of a reversed word are the big-endian ones. -/
theorem toLittle_reverse (x : BitVec (8 * n)) : toLittle n (reverse x).toNat = toBig n x.toNat := by
  have bound := ofBig_lt (toLittle n x.toNat)
  have width : 256 ^ n = 2 ^ (8 * n) := (Nat.pow_mul 2 8 n).symm
  rw [toLittle_length, width] at bound
  simp only [reverse]
  rw [Nat.mul_div_cancel_left n (by decide), BitVec.toNat_ofNat, Nat.mod_eq_of_lt bound]
  have recovered := toLittle_ofLittle ((toLittle n x.toNat).reverse)
  rw [List.length_reverse, toLittle_length] at recovered
  exact recovered

end Endian
