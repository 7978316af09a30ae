import SyscallFilter.Generator.MaskTest
import SyscallFilter.Proofs.Draft.Capacity

namespace SyscallFilter.MaskTest

theorem length_compare_le (block mask : UInt32) : (compare block mask).length ≤ 3 := by
  unfold compare
  split
  · simp
  · split <;> simp

/-- Also if counting the blocks up wraps, for then there are fewer. -/
theorem toNat_blockCount_le (abi : Abi) : (blockCount abi).toNat ≤ (abi.count.toNat + 31) / 32 := by
  have hthirtyOne : (31 : UInt32).toNat = 31 := rfl
  have hthirtyTwo : (32 : UInt32).toNat = 32 := rfl
  rw [blockCount, UInt32.toNat_div, UInt32.toNat_add, hthirtyOne, hthirtyTwo]
  exact Nat.div_le_div_right (Nat.mod_le _ _)

theorem length_loadBlock (abi : Abi) :
    (loadBlock abi).length = if abi.flag = 0 then 2 else 3 := by
  unfold loadBlock
  split <;> rfl

theorem length_compares_le (mask : UInt32 → UInt32) (blocks : List UInt32) :
    (blocks.flatMap fun block => compare block (mask block)).length ≤ blocks.length * 3 :=
  length_flatMap_le fun block _ => length_compare_le block (mask block)

/-- Besides the comparisons of its blocks a section has 12 instructions, and 16 if
    the flag has to be looked at too. -/
theorem size_sectionOf (policy : TracePolicy) (abi : Abi) (index : Nat) :
    (Draft.sectionOf (body policy) (abi, index)).size =
      (if abi.flag = 0 then 12 else 16) +
        ((blocks abi).flatMap fun block =>
          compare block (blockMask policy abi index block)).length := by
  have hloadBit : loadBit.length = 5 := rfl
  simp only [Draft.sectionOf, Section.size, body, List.length_append, List.length_singleton,
    Section.length_preamble, hloadBit, length_loadBlock]
  split <;> omega

/-- Every block takes three instructions at most, however its numbers are
    scattered. -/
theorem size_sectionOf_le (policy : TracePolicy) (abi : Abi) (index : Nat) :
    (Draft.sectionOf (body policy) (abi, index)).size ≤
      (if abi.flag = 0 then 12 else 16) + (abi.count.toNat + 31) / 32 * 3 := by
  have hblocks := toNat_blockCount_le abi
  have hcompares := length_compares_le (blockMask policy abi index) (blocks abi)
  rw [blocks, List.length_map, List.length_range, ← blocks] at hcompares
  rw [size_sectionOf]
  omega

end SyscallFilter.MaskTest
