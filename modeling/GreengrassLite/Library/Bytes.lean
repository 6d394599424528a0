import Mathlib.Algebra.Group.Nat.Defs
import Mathlib.Algebra.Ring.Int.Defs

/-!
# Numbers as bytes

A number of a fixed width is stored in memory with its least significant byte first.
Reading the bytes back gives the number as far as it fits the width, and every
sequence of that many bytes is the representation of a number.
-/

namespace GreengrassLite.Library

/-- The lowest `width` bytes of a number, least significant first. -/
def leBytes : Nat → Nat → List UInt8
  | 0, _ => []
  | width + 1, number => UInt8.ofNat number :: leBytes width (number / 256)

/-- The number that the bytes represent, least significant first. -/
def leNat : List UInt8 → Nat
  | [] => 0
  | byte :: rest => byte.toNat + 256 * leNat rest

@[simp]
theorem length_leBytes (width number : Nat) : (leBytes width number).length = width := by
  induction width generalizing number with
  | zero => rfl
  | succ width ih => rw [leBytes, List.length_cons, ih]

/-- A number that fits the width is read back. -/
@[simp]
theorem leNat_leBytes {width number : Nat} (fits : number < 256 ^ width) :
    leNat (leBytes width number) = number := by
  induction width generalizing number with
  | zero =>
    exact (Nat.lt_one_iff.mp fits).symm
  | succ width ih =>
    have lower : number / 256 < 256 ^ width := Nat.div_lt_of_lt_mul (Nat.mul_comm _ _ ▸ fits)
    rw [leBytes, leNat, ih lower]
    exact Nat.mod_add_div number 256

theorem leNat_lt (bytes : List UInt8) : leNat bytes < 256 ^ bytes.length := by
  induction bytes with
  | nil => exact Nat.one_pos
  | cons byte rest ih =>
    have small := byte.toNat_lt
    rw [leNat, List.length_cons]
    omega

/-- Bytes are the representation of the number they represent. -/
@[simp]
theorem leBytes_leNat (bytes : List UInt8) : leBytes bytes.length (leNat bytes) = bytes := by
  induction bytes with
  | nil => rfl
  | cons byte rest ih =>
    have small := byte.toNat_lt
    have upper : (byte.toNat + 256 * leNat rest) / 256 = leNat rest := by omega
    have lower : (byte.toNat + 256 * leNat rest) % 256 = byte.toNat := by omega
    rw [List.length_cons, leNat, leBytes, upper]
    congr 1
    apply UInt8.toNat_inj.mp
    exact lower

/-- Lower bits beside a number. -/
theorem mul_two_pow_or {low : Nat} (high bits : Nat) (small : low < 2 ^ bits) :
    high * 2 ^ bits ||| low = high * 2 ^ bits + low := by
  rw [Nat.mul_comm]
  exact (Nat.two_pow_add_eq_or_of_lt small high).symm

/-! ## Two's complement -/

/-- The bits of a signed number of `width` bits, as a number. -/
def twosComplement (width : Nat) (number : Int) : Nat :=
  (number % 2 ^ width).toNat

/-- The signed number with these bits. -/
def ofTwosComplement (width bits : Nat) : Int :=
  if 2 * bits < 2 ^ width then bits else bits - 2 ^ width

/-- Whether a number is a signed number of `width` bits. -/
def SignedFits (width : Nat) (number : Int) : Prop :=
  -(2 : Int) ^ width ≤ 2 * number ∧ 2 * number < 2 ^ width

theorem twosComplement_lt (width : Nat) (number : Int) :
    twosComplement width number < 2 ^ width := by
  have positive : (0 : Int) < 2 ^ width := Int.pow_pos (by decide)
  have cast : ((2 ^ width : Nat) : Int) = 2 ^ width := by simp
  rw [twosComplement]
  omega

@[simp]
theorem ofTwosComplement_twosComplement {width : Nat} {number : Int}
    (fits : SignedFits width number) :
    ofTwosComplement width (twosComplement width number) = number := by
  have cast : ((2 ^ width : Nat) : Int) = 2 ^ width := by simp
  rcases fits with ⟨above, below⟩
  rw [ofTwosComplement, twosComplement]
  by_cases negative : number < 0
  · have shifted : number % 2 ^ width = number + 2 ^ width := by
      rw [← Int.add_emod_right]
      exact Int.emod_eq_of_lt (by omega) (by omega)
    omega
  · have same : number % 2 ^ width = number := Int.emod_eq_of_lt (by omega) (by omega)
    omega

@[simp]
theorem twosComplement_ofTwosComplement {width bits : Nat} (fits : bits < 2 ^ width) :
    twosComplement width (ofTwosComplement width bits) = bits := by
  have cast : ((2 ^ width : Nat) : Int) = 2 ^ width := by simp
  rw [twosComplement, ofTwosComplement]
  split
  · rw [Int.emod_eq_of_lt (by omega) (by omega)]
    rfl
  · rw [← Int.add_emod_right, Int.sub_add_cancel, Int.emod_eq_of_lt (by omega) (by omega)]
    rfl

end GreengrassLite.Library
