import ManyTier.Lib.Bytes
import Mathlib.Data.Nat.Bitwise

/-! The bits of a byte string, from the high bit of the first byte on.

The bits of a number in big-endian digits are those of the number from the highest on
(`bitAt_toBe`), and strings of one length that have the same bits are the same
(`ByteVec.bit_injective`). -/
namespace ManyTier

/-- Bit `k`; none is set past the end. -/
def bitAt (b : Bytes) (k : Nat) : Bool := (byteAt b (k / 8)).toNat.testBit (7 - k % 8)

theorem bitAt_of_le {b : Bytes} {k : Nat} (h : 8 * b.length ≤ k) : bitAt b k = false := by
  have hout : b.length ≤ k / 8 := by omega
  rw [bitAt, byteAt, List.getD_eq_default _ _ hout]
  exact Nat.zero_testBit _

theorem bitAt_cons_of_lt (x : UInt8) (b : Bytes) {k : Nat} (h : k < 8) : bitAt (x :: b) k = x.toNat.testBit (7 - k) := by
  rw [bitAt, Nat.div_eq_of_lt h, Nat.mod_eq_of_lt h, byteAt_cons_zero]

theorem bitAt_cons_add (x : UInt8) (b : Bytes) (k : Nat) : bitAt (x :: b) (k + 8) = bitAt b k := by
  rw [bitAt, Nat.add_div_right k (by decide), Nat.add_mod_right, byteAt_cons_succ, bitAt]

/-- The digits of a number have its bits, the highest first. -/
theorem bitAt_toBe {w k : Nat} (h : k < 8 * w) (n : Nat) : bitAt (toBe w n) k = n.testBit (8 * w - 1 - k) := by
  induction w generalizing k with
  | zero => omega
  | succ w ih =>
    rw [toBe]
    rcases Nat.lt_or_ge k 8 with hk | hk
    · have hdigit : (UInt8.ofNat (n / 256 ^ w)).toNat = n / 2 ^ (8 * w) % 2 ^ 8 := by
        rw [UInt8.toNat_ofNat', pow_mul]
        rfl
      have hplace : 7 - k + 8 * w = 8 * (w + 1) - 1 - k := by omega
      rw [bitAt_cons_of_lt _ _ hk, hdigit, Nat.testBit_mod_two_pow, Nat.testBit_div_two_pow, hplace,
        decide_eq_true (by omega : 7 - k < 8), Bool.true_and]
    · obtain ⟨j, rfl⟩ : ∃ j, k = j + 8 := ⟨k - 8, by omega⟩
      have hplace : 8 * w - 1 - j = 8 * (w + 1) - 1 - (j + 8) := by omega
      rw [bitAt_cons_add, ih (by omega), hplace]

/-- The bits of a byte are all bits of the string at its place. -/
theorem testBit_byteAt (b : Bytes) (i : Nat) {j : Nat} (h : j < 8) :
    (byteAt b i).toNat.testBit j = bitAt b (8 * i + (7 - j)) := by
  have hdiv : (8 * i + (7 - j)) / 8 = i := by omega
  have hmod : 7 - (8 * i + (7 - j)) % 8 = j := by omega
  rw [bitAt, hdiv, hmod]

theorem byteAt_eq_of_bits {a b : Bytes} (h : ∀ k, bitAt a k = bitAt b k) (i : Nat) : byteAt a i = byteAt b i := by
  refine UInt8.toNat_inj.mp (Nat.eq_of_testBit_eq fun j => ?_)
  rcases Nat.lt_or_ge j 8 with hj | hj
  · rw [testBit_byteAt a i hj, testBit_byteAt b i hj, h]
  · have hhigh : ∀ x : UInt8, x.toNat.testBit j = false := fun x =>
      Nat.testBit_lt_two_pow (x.toNat_lt.trans_le (Nat.pow_le_pow_right (by decide) hj))
    rw [hhigh, hhigh]

namespace ByteVec
variable {n : Nat}

/-- Bit `k` of a field. -/
def bit (v : ByteVec n) : Nat → Bool := bitAt v.toBytes

theorem bit_of_le (v : ByteVec n) {k : Nat} (h : 8 * n ≤ k) : v.bit k = false :=
  bitAt_of_le (by rwa [v.length_toBytes])

/-- A field is its bits. -/
theorem bit_injective : Function.Injective (bit (n := n)) := by
  intro v w h
  refine toBytes_injective (List.ext_getElem (by rw [length_toBytes, length_toBytes]) fun i hv hw => ?_)
  have hbyte := byteAt_eq_of_bits (congrFun h) i
  rwa [byteAt, byteAt, List.getD_eq_getElem _ _ hv, List.getD_eq_getElem _ _ hw] at hbyte

end ByteVec

/-! ### Masks -/

/-- Ones, moved up in a word of some width: those of the places from the shift on. -/
theorem testBit_shifted_ones (width shift j : Nat) :
    (((2 ^ width - 1) <<< shift) % 2 ^ width).testBit j = (decide (shift ≤ j) && decide (j < width)) := by
  rw [Nat.testBit_mod_two_pow, Nat.testBit_shiftLeft, Nat.testBit_two_pow_sub_one]
  rcases Nat.lt_or_ge j width with hj | hj
  · rw [decide_eq_true hj, decide_eq_true (by omega : j - shift < width), Bool.true_and, Bool.and_comm]
  · rw [decide_eq_false (Nat.not_lt.mpr hj), Bool.false_and, Bool.and_false]

end ManyTier
