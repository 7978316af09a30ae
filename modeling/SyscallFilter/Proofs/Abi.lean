import SyscallFilter.Abi
import SyscallFilter.Proofs.Word

namespace SyscallFilter

namespace Abi

/-- The ABI has no flag, or its flag is a single bit above all its numbers. -/
def FlagAbove (abi : Abi) : Prop :=
  abi.flag = 0 ∨ abi.flag.toNat.isPowerOfTwo ∧ abi.count < abi.flag

instance (abi : Abi) : Decidable abi.FlagAbove :=
  inferInstanceAs (Decidable (_ ∨ _))

/-- Blocks of 32 numbers suit the ABI: a flag lies above the bits within a block
    as well as above all numbers, and counting the blocks up does not wrap. -/
def FitsBlocks (abi : Abi) : Prop :=
  (abi.flag = 0 ∨ abi.flag.toNat.isPowerOfTwo ∧ 32 ≤ abi.flag ∧ abi.count < abi.flag) ∧
    abi.count.toNat + 32 ≤ UInt32.size

instance (abi : Abi) : Decidable abi.FitsBlocks :=
  inferInstanceAs (Decidable (_ ∧ _))

theorem FitsBlocks.flagAbove {abi : Abi} (hfits : abi.FitsBlocks) : abi.FlagAbove := by
  rcases hfits.1 with hzero | ⟨hbit, _, hbelow⟩
  · exact .inl hzero
  · exact .inr ⟨hbit, hbelow⟩

/-- Setting the flag adds it, to the known numbers and to the first unknown
    one. -/
theorem FlagAbove.toNat_mark {abi : Abi} (hflag : abi.FlagAbove) {nr : UInt32}
    (hnr : nr ≤ abi.count) : (abi.mark nr).toNat = nr.toNat + abi.flag.toNat := by
  rw [mark, UInt32.toNat_or]
  rcases hflag with hzero | ⟨⟨bit, hbit⟩, hbelow⟩
  · simp [hzero]
  · have hlt : nr < abi.flag := UInt32.lt_of_le_of_lt hnr hbelow
    rw [hbit]
    exact Nat.or_two_pow_eq_add_of_lt (by rw [← hbit]; exact hlt)

theorem FlagAbove.flag_le_mark {abi : Abi} (hflag : abi.FlagAbove) {nr : UInt32}
    (hnr : nr ≤ abi.count) : abi.flag ≤ abi.mark nr := by
  rw [UInt32.le_iff_toNat_le, hflag.toNat_mark hnr]
  exact Nat.le_add_left _ _

theorem FlagAbove.mark_sub_flag {abi : Abi} (hflag : abi.FlagAbove) {nr : UInt32}
    (hnr : nr ≤ abi.count) : abi.mark nr - abi.flag = nr := by
  apply UInt32.toNat_inj.mp
  rw [UInt32.toNat_sub_of_le _ _ (hflag.flag_le_mark hnr), hflag.toNat_mark hnr, Nat.add_sub_cancel]

theorem FlagAbove.mark_eq_add {abi : Abi} (hflag : abi.FlagAbove) {nr : UInt32}
    (hnr : nr ≤ abi.count) : abi.mark nr = nr + abi.flag := by
  rw [← UInt32.sub_add_cancel (abi.mark nr) abi.flag, hflag.mark_sub_flag hnr]

/-- Besides a known number itself only the number with the flag set already looks
    like it. -/
theorem FlagAbove.eq_or_eq_add_of_mark_eq {abi : Abi} (hflag : abi.FlagAbove) {nr known : UInt32}
    (hknown : known ≤ abi.count) (hmark : abi.mark nr = abi.mark known) :
    nr = known ∨ nr = known + abi.flag := by
  have hrest : nr - (nr &&& abi.flag) = known := by
    rw [hflag.mark_eq_add hknown, mark, Word.or_eq_sub_add] at hmark
    exact (UInt32.add_left_inj _).mp hmark
  have hcommon : nr &&& abi.flag = abi.flag ∨ nr &&& abi.flag = 0 := by
    rcases hflag with hzero | ⟨hbit, _⟩
    · exact .inr (by rw [hzero, UInt32.and_zero])
    · exact Word.and_bit_eq_or nr hbit
  rcases hcommon with hset | hclear
  · right
    rw [← hrest, hset, UInt32.sub_add_cancel]
  · left
    rw [← hrest, hclear, UInt32.sub_zero]

end Abi

/-- The ABIs of an x86_64 machine with the first 64 numbers of each. Two of them
    share an architecture. -/
def AbiTable.hostHead : AbiTable :=
  AbiTable.host.map fun abi => { abi with count := 64 }

end SyscallFilter
