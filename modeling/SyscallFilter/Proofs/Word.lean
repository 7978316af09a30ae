import Mathlib.Data.Nat.Bitwise
import SyscallFilter.Panic

namespace SyscallFilter.Word

theorem addWraps_eq_false_iff {a b : UInt32} :
    addWraps a b = false ↔ a.toNat + b.toNat < UInt32.size := by
  simp [addWraps]

theorem mulWraps_eq_false_iff {a b : UInt32} :
    mulWraps a b = false ↔ a.toNat * b.toNat < UInt32.size := by
  simp [mulWraps]

/-- Clearing the bits of a mask subtracts what the mask has in common with the
    word. -/
theorem and_not_eq_sub (word mask : UInt32) : word &&& ~~~mask = word - (word &&& mask) := by
  have hsum : (word.toBitVec &&& ~~~mask.toBitVec) + (word.toBitVec &&& mask.toBitVec) =
      word.toBitVec := by
    rw [BitVec.add_eq_or_of_and_eq_zero]
    · ext i hi
      cases hbit : mask.toBitVec[i] <;> simp [hbit]
    · ext i hi
      cases hbit : mask.toBitVec[i] <;> simp [hbit]
  apply UInt32.toBitVec_inj.mp
  rw [UInt32.toBitVec_sub, UInt32.toBitVec_and, UInt32.toBitVec_and, UInt32.toBitVec_not]
  exact BitVec.eq_sub_iff_add_eq.mpr hsum

/-- Setting the bits of a mask adds those that are not set yet. -/
theorem or_eq_sub_add (word mask : UInt32) : word ||| mask = word - (word &&& mask) + mask := by
  have hsum : (word.toBitVec &&& ~~~mask.toBitVec) + mask.toBitVec =
      word.toBitVec ||| mask.toBitVec := by
    rw [BitVec.add_eq_or_of_and_eq_zero]
    · ext i hi
      cases hbit : mask.toBitVec[i] <;> simp [hbit]
    · ext i hi
      cases hbit : mask.toBitVec[i] <;> simp [hbit]
  rw [← and_not_eq_sub]
  apply UInt32.toBitVec_inj.mp
  rw [UInt32.toBitVec_or, UInt32.toBitVec_add, UInt32.toBitVec_and, UInt32.toBitVec_not, hsum]

theorem toNat_and_bit (word : UInt32) {bit : UInt32} {place : Nat}
    (hplace : bit.toNat = 2 ^ place) :
    (word &&& bit).toNat = (word.toNat.testBit place).toNat * bit.toNat := by
  rw [UInt32.toNat_and, hplace]
  exact Nat.and_two_pow word.toNat place

/-- A single bit is set in a word entirely or not at all. -/
theorem and_bit_eq_or (word : UInt32) {bit : UInt32} (hbit : bit.toNat.isPowerOfTwo) :
    word &&& bit = bit ∨ word &&& bit = 0 := by
  obtain ⟨place, hplace⟩ := hbit
  have hand := toNat_and_bit word hplace
  cases hset : word.toNat.testBit place with
  | true => exact .inl (UInt32.toNat_inj.mp (by simpa [hset] using hand))
  | false => exact .inr (UInt32.toNat_inj.mp (by simpa [hset] using hand))

/-- If the bit is not set, a word at least as large as the bit is at least twice
    as large. -/
theorem and_bit_cases {word bit : UInt32} (hbit : bit.toNat.isPowerOfTwo) (hle : bit ≤ word) :
    word &&& bit = bit ∨ word &&& bit = 0 ∧ 2 * bit.toNat ≤ word.toNat := by
  obtain ⟨place, hplace⟩ := hbit
  have hand := toNat_and_bit word hplace
  cases hset : word.toNat.testBit place with
  | true =>
    left
    apply UInt32.toNat_inj.mp
    simpa [hset] using hand
  | false =>
    right
    have hzero : word &&& bit = 0 := by
      apply UInt32.toNat_inj.mp
      simpa [hset] using hand
    refine ⟨hzero, ?_⟩
    have hquotient : word.toNat / 2 ^ place % 2 = 0 := by
      simpa [Nat.testBit_eq_decide_div_mod_eq] using hset
    have hpositive : 0 < word.toNat / 2 ^ place :=
      Nat.div_pos (by rw [← hplace]; exact hle) (Nat.two_pow_pos place)
    calc 2 * bit.toNat = 2 * 2 ^ place := by rw [hplace]
      _ ≤ word.toNat / 2 ^ place * 2 ^ place := Nat.mul_le_mul_right _ (by omega)
      _ ≤ word.toNat := Nat.div_mul_le_self _ _

/-- Of two single bits the larger is at least twice the smaller. -/
theorem two_mul_le_of_lt {low high : UInt32} (hlow : low.toNat.isPowerOfTwo)
    (hhigh : high.toNat.isPowerOfTwo) (hlt : low < high) : 2 * low.toNat ≤ high.toNat := by
  obtain ⟨lowPlace, hlow⟩ := hlow
  obtain ⟨highPlace, hhigh⟩ := hhigh
  have hplaces : lowPlace < highPlace := by
    rw [UInt32.lt_iff_toNat_lt, hlow, hhigh] at hlt
    exact (Nat.pow_lt_pow_iff_right (by omega)).mp hlt
  rw [hlow, hhigh, ← Nat.pow_succ']
  exact Nat.pow_le_pow_right (by omega) hplaces

theorem toNat_one_shiftLeft {place : UInt32} (hplace : place < 32) :
    ((1 : UInt32) <<< place).toNat = 2 ^ place.toNat := by
  have hlt : place.toNat < 32 := hplace
  rw [UInt32.toNat_shiftLeft, Nat.mod_eq_of_lt hlt, UInt32.toNat_one, Nat.one_shiftLeft]
  exact Nat.mod_eq_of_lt (Nat.pow_lt_pow_right (by omega) hlt)

theorem one_shiftLeft_and_ne_zero_iff {place : UInt32} (hplace : place < 32) (mask : UInt32) :
    (1 <<< place) &&& mask ≠ 0 ↔ mask.toNat.testBit place.toNat = true := by
  rw [Ne, ← UInt32.toNat_inj, UInt32.toNat_and, toNat_one_shiftLeft hplace, Nat.two_pow_and]
  cases mask.toNat.testBit place.toNat <;> simp

theorem eq_of_testBit_eq {word other : UInt32}
    (hbits : ∀ i < 32, word.toNat.testBit i = other.toNat.testBit i) : word = other :=
  UInt32.toBitVec_inj.mp (BitVec.eq_of_getLsbD_eq hbits)

theorem eq_zero_iff (word : UInt32) : word = 0 ↔ ∀ i < 32, word.toNat.testBit i = false := by
  constructor
  · rintro rfl i _
    exact Nat.zero_testBit i
  · intro hclear
    apply eq_of_testBit_eq
    intro i hi
    rw [hclear i hi, UInt32.toNat_zero, Nat.zero_testBit]

theorem eq_ones_iff (word : UInt32) :
    word = 0xffffffff ↔ ∀ i < 32, word.toNat.testBit i = true := by
  have hones : ∀ i < 32, (0xffffffff : UInt32).toNat.testBit i = true := by decide
  constructor
  · rintro rfl
    exact hones
  · intro hset
    apply eq_of_testBit_eq
    intro i hi
    rw [hset i hi, hones i hi]

end SyscallFilter.Word
