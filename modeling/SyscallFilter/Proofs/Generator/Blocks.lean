import SyscallFilter.Generator.MaskTest
import SyscallFilter.Proofs.Abi
import SyscallFilter.Proofs.Word

namespace SyscallFilter.MaskTest

/-- The block that a program puts a number into, the flag taken away. -/
def blockOf (abi : Abi) (nr : UInt32) : UInt32 :=
  (nr &&& ~~~abi.flag) >>> 5

/-- The place of a number within its block. -/
def placeOf (nr : UInt32) : UInt32 :=
  nr &&& 0x1f

theorem toNat_shiftRight_five (nr : UInt32) : (nr >>> 5).toNat = nr.toNat / 32 := by
  rw [UInt32.toNat_shiftRight]
  exact Nat.shiftRight_eq_div_pow _ 5

theorem toNat_blockOf (abi : Abi) (nr : UInt32) :
    (blockOf abi nr).toNat = (nr &&& ~~~abi.flag).toNat / 32 :=
  toNat_shiftRight_five _

theorem toNat_placeOf (nr : UInt32) : (placeOf nr).toNat = nr.toNat % 32 := by
  rw [placeOf, UInt32.toNat_and]
  exact Nat.and_two_pow_sub_one_eq_mod nr.toNat 5

theorem placeOf_lt (nr : UInt32) : placeOf nr < 32 := by
  rw [UInt32.lt_iff_toNat_lt, toNat_placeOf]
  exact Nat.mod_lt _ (by omega)

theorem toNat_blockOf_mul_add (abi : Abi) (nr : UInt32) :
    (blockOf abi nr * 32 + placeOf nr).toNat =
      (blockOf abi nr).toNat * 32 + (placeOf nr).toNat := by
  have hthirtyTwo : (32 : UInt32).toNat = 32 := rfl
  have hcleared := (nr &&& ~~~abi.flag).toNat_lt
  rw [UInt32.toNat_add, UInt32.toNat_mul, toNat_blockOf, toNat_placeOf, hthirtyTwo]
  omega

/-- The bits of a mask are its members. -/
theorem testBit_maskOf (member : UInt32 → Bool) {width : Nat} (hwidth : width ≤ 32) (i : Nat) :
    (maskOf member width).toNat.testBit i = (decide (i < width) && member (UInt32.ofNat i)) := by
  induction width with
  | zero => simp [maskOf]
  | succ width ih =>
    have hplace : UInt32.ofNat width < 32 := by
      rw [UInt32.lt_iff_toNat_lt, UInt32.toNat_ofNat_of_lt' (by simp only [UInt32.size]; omega)]
      exact hwidth
    have hbit : ((1 : UInt32) <<< UInt32.ofNat width).toNat = 2 ^ width := by
      rw [Word.toNat_one_shiftLeft hplace,
        UInt32.toNat_ofNat_of_lt' (by simp only [UInt32.size]; omega)]
    have ih := ih (by omega)
    rw [maskOf]
    by_cases hi : i = width
    · subst i
      split
      · rename_i hmember
        simp [ih, hbit, hmember]
      · rename_i hmember
        simp [ih, hmember]
    · have hlt : i < width + 1 ↔ i < width := by omega
      split
      · simp [ih, hbit, hlt, Nat.testBit_two_pow_of_ne (Ne.symm hi)]
      · simp [ih, hlt]

/-- The bit of a number in the mask of a block says whether the number is
    unknown or traced. -/
theorem one_shiftLeft_and_blockMask_ne_zero_iff {policy : TracePolicy} {abi : Abi} {index : Nat}
    {block place : UInt32} (hplace : place < 32) :
    (1 <<< place) &&& blockMask policy abi index block ≠ 0 ↔
      abi.count ≤ block * 32 + place ∨ policy.traces (block * 32 + place) index = true := by
  have hlt : place.toNat < 32 := hplace
  rw [Word.one_shiftLeft_and_ne_zero_iff hplace, blockMask, testBit_maskOf _ (Nat.le_refl 32)]
  simp [hlt]

/-- Whether a number counts as traced. Those past the known ones do. -/
def counts (policy : TracePolicy) (abi : Abi) (index nr : Nat) : Bool :=
  abi.count.toNat ≤ nr || policy.traces (UInt32.ofNat nr) index

section Count

variable {abi : Abi}

theorem toNat_blockCount (hcount : abi.count.toNat + 32 ≤ UInt32.size) :
    (blockCount abi).toNat = (abi.count.toNat + 31) / 32 := by
  rw [UInt32.size] at hcount
  have hthirtyOne : (31 : UInt32).toNat = 31 := rfl
  rw [blockCount, UInt32.toNat_div, UInt32.toNat_add, hthirtyOne, Nat.mod_eq_of_lt (by omega)]
  rfl

/-- As all blocks have numbers below the first unknown one, the arithmetic on
    their numbers does not wrap. -/
theorem testBit_blockMask (hcount : abi.count.toNat + 32 ≤ UInt32.size) {block : Nat}
    (hblock : block < (abi.count.toNat + 31) / 32) {i : Nat} (hi : i < 32) (policy : TracePolicy)
    (index : Nat) :
    (blockMask policy abi index (UInt32.ofNat block)).toNat.testBit i =
      counts policy abi index (32 * block + i) := by
  have hnr : UInt32.ofNat block * 32 + UInt32.ofNat i = UInt32.ofNat (32 * block + i) := by
    rw [Nat.mul_comm, UInt32.ofNat_add, UInt32.ofNat_mul]
    rfl
  have hsmall : 32 * block + i < UInt32.size := by omega
  have hunknown : abi.count ≤ UInt32.ofNat (32 * block + i) ↔ abi.count.toNat ≤ 32 * block + i := by
    rw [UInt32.le_iff_toNat_le, UInt32.toNat_ofNat_of_lt' hsmall]
  rw [blockMask, testBit_maskOf _ (Nat.le_refl 32)]
  simp only [hi, hnr, hunknown, counts, decide_true, Bool.true_and]

/-- A number that passes the preamble either has the flag, and then its block
    and place name the number without the flag, or it is larger than any with
    the flag, and then neither it nor its block is a known one. -/
theorem blockOf_placeOf_cases (hfits : abi.FitsBlocks) {nr : UInt32} (hreach : abi.flag ≤ nr) :
    blockOf abi nr * 32 + placeOf nr = nr - abi.flag ∨
      blockCount abi ≤ blockOf abi nr ∧ abi.count ≤ nr - abi.flag := by
  have hrest : (nr - abi.flag).toNat = nr.toNat - abi.flag.toNat := UInt32.toNat_sub_of_le _ _ hreach
  have hle : abi.flag.toNat ≤ nr.toNat := hreach
  have hnr := nr.toNat_lt
  have hname (haligned : abi.flag.toNat % 32 = 0) (hset : nr &&& abi.flag = abi.flag) :
      blockOf abi nr * 32 + placeOf nr = nr - abi.flag := by
    apply UInt32.toNat_inj.mp
    rw [toNat_blockOf_mul_add, toNat_blockOf, toNat_placeOf, Word.and_not_eq_sub, hset, hrest]
    omega
  rcases hfits.1 with hzero | ⟨hbit, hwide, hbelow⟩
  · exact .inl (hname (by simp [hzero]) (by simp [hzero]))
  · have haligned : abi.flag.toNat % 32 = 0 := by
      obtain ⟨place, hplace⟩ := hbit
      have hle : 2 ^ 5 ≤ 2 ^ place := by
        rw [← hplace]
        exact hwide
      have hfive : 5 ≤ place := (Nat.pow_le_pow_iff_right (by omega)).mp hle
      rw [hplace]
      exact Nat.mod_eq_zero_of_dvd (Nat.pow_dvd_pow 2 hfive)
    rcases Word.and_bit_cases hbit hreach with hset | ⟨hclear, htwice⟩
    · exact .inl (hname haligned hset)
    · right
      have hcount : abi.count.toNat < abi.flag.toNat := hbelow
      refine ⟨?_, ?_⟩
      · rw [UInt32.le_iff_toNat_le, toNat_blockCount hfits.2, toNat_blockOf, Word.and_not_eq_sub, hclear,
          UInt32.sub_zero]
        omega
      · rw [UInt32.le_iff_toNat_le, hrest]
        omega

/-- Past the last block there are unknown numbers only. -/
theorem count_le_of_blockCount_le (hfits : abi.FitsBlocks) {nr : UInt32}
    (hblock : blockCount abi ≤ blockOf abi nr) :
    abi.count ≤ blockOf abi nr * 32 + placeOf nr := by
  rw [UInt32.le_iff_toNat_le, toNat_blockCount hfits.2] at hblock
  rw [UInt32.le_iff_toNat_le, toNat_blockOf_mul_add]
  omega

end Count

end SyscallFilter.MaskTest
