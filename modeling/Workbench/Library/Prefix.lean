import Mathlib.Algebra.Order.Ring.Nat

/-! Bit strings that begin with the same bits.

Those that share a prefix with a base are a range of numbers: they lie between the
base with all its other bits cleared and the base with all of them set. -/

set_option autoImplicit false

namespace Workbench.Library

/-- Ones for the first bits, zeros for the others. -/
def prefixMask (w count : Nat) : BitVec w := BitVec.allOnes w <<< (w - count)

/-- The first bits of two strings are the same. -/
def SamePrefix {w : Nat} (count : Nat) (a b : BitVec w) : Prop :=
  ∀ i < count, a.getMsbD i = b.getMsbD i

namespace SamePrefix

variable {w count : Nat} {a b : BitVec w}

instance : Decidable (SamePrefix count a b) :=
  inferInstanceAs (Decidable (∀ i < count, a.getMsbD i = b.getMsbD i))

/-- The first bits are what the numbers have above the last ones. -/
theorem iff_div (fits : count ≤ w) :
    SamePrefix count a b ↔ a.toNat / 2 ^ (w - count) = b.toNat / 2 ^ (w - count) := by
  constructor
  · intro same
    refine Nat.eq_of_testBit_eq fun i => ?_
    rw [Nat.testBit_div_two_pow, Nat.testBit_div_two_pow, BitVec.testBit_toNat,
      BitVec.testBit_toNat]
    by_cases inside : i < count
    · have bits := same (count - 1 - i) (by omega)
      have place : w - 1 - (count - 1 - i) = i + (w - count) := by omega
      simpa [BitVec.getMsbD_eq_getLsbD, place, show count - 1 - i < w by omega] using bits
    · simp [show w ≤ i + (w - count) by omega]
  · intro same i inside
    have bits := congrArg (Nat.testBit · (count - 1 - i)) same
    have place : count - 1 - i + (w - count) = w - 1 - i := by omega
    rw [BitVec.getMsbD_eq_getLsbD, BitVec.getMsbD_eq_getLsbD]
    simp only [Nat.testBit_div_two_pow, BitVec.testBit_toNat, place] at bits
    rw [bits]

end SamePrefix

section Ends

variable {w count : Nat}

theorem getLsbD_prefixMask (i : Nat) :
    (prefixMask w count).getLsbD i = decide (w - count ≤ i ∧ i < w) := by
  rw [prefixMask, BitVec.getLsbD_shiftLeft, BitVec.getLsbD_allOnes]
  grind

variable (a : BitVec w)

theorem toNat_and_prefixMask :
    (a &&& prefixMask w count).toNat = a.toNat / 2 ^ (w - count) * 2 ^ (w - count) := by
  refine Nat.eq_of_testBit_eq fun i => ?_
  rw [Nat.mul_comm, Nat.testBit_two_pow_mul, Nat.testBit_div_two_pow, BitVec.testBit_toNat,
    BitVec.testBit_toNat, BitVec.getLsbD_and, getLsbD_prefixMask]
  by_cases low : w - count ≤ i
  · have place : i - (w - count) + (w - count) = i := by omega
    have inside : a.getLsbD i = true → i < w := BitVec.lt_of_getLsbD
    grind
  · grind

theorem toNat_or_not_prefixMask :
    (a ||| ~~~prefixMask w count).toNat =
      a.toNat / 2 ^ (w - count) * 2 ^ (w - count) + (2 ^ (w - count) - 1) := by
  refine Nat.eq_of_testBit_eq fun i => ?_
  have positive : 0 < 2 ^ (w - count) := Nat.two_pow_pos _
  have below : 2 ^ (w - count) - 1 < 2 ^ (w - count) := by omega
  rw [Nat.mul_comm, Nat.testBit_two_pow_mul_add _ below, Nat.testBit_two_pow_sub_one,
    Nat.testBit_div_two_pow, BitVec.testBit_toNat, BitVec.testBit_toNat, BitVec.getLsbD_or,
    BitVec.getLsbD_not, getLsbD_prefixMask]
  by_cases low : w - count ≤ i
  · have place : i - (w - count) + (w - count) = i := by omega
    have inside : a.getLsbD i = true → i < w := BitVec.lt_of_getLsbD
    grind
  · grind

/-- The range that a prefix stands for. -/
theorem between_iff_samePrefix {b : BitVec w} (fits : count ≤ w) :
    (a &&& prefixMask w count).toNat ≤ b.toNat ∧
        b.toNat ≤ (a ||| ~~~prefixMask w count).toNat ↔
      SamePrefix count b a := by
  have positive : 0 < 2 ^ (w - count) := Nat.two_pow_pos _
  rw [SamePrefix.iff_div fits, Nat.div_eq_iff positive, toNat_and_prefixMask,
    toNat_or_not_prefixMask, Nat.add_sub_assoc positive]

end Ends

end Workbench.Library
