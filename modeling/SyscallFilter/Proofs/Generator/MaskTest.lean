import SyscallFilter.Proofs.Draft.Routing
import SyscallFilter.Proofs.Generator.Blocks

namespace SyscallFilter.MaskTest

open Section

/-- The loads leave the block of the number in the accumulator and the bit of
    its place in the index register. -/
theorem exit?_loads (abi : Abi) (datum : Datum) (rest : Section) {regs : Registers}
    (hnr : regs.a = datum.nr) :
    exit? datum 0 regs (loadBit ++ loadBlock abi ++ rest) =
      exit? datum 0 ⟨blockOf abi datum.nr, 1 <<< placeOf datum.nr⟩ rest := by
  have hplace : regs.a &&& 0x1f < 32 := by
    rw [hnr]
    exact placeOf_lt datum.nr
  have hbit (later : Section) :
      exit? datum 0 regs (loadBit ++ later) =
        exit? datum 0 ⟨1 <<< (regs.a &&& 0x1f), 1 <<< (regs.a &&& 0x1f)⟩ later := by
    simp only [loadBit, List.cons_append, List.nil_append]
    rw [exit?_stmt _ _ _ (Instruction.operation_of_code .and rfl) rfl,
      exit?_stmt _ _ _ (Instruction.operation_of_code .tax rfl) rfl,
      exit?_stmt _ _ _ (Instruction.operation_of_code .loadImm rfl) rfl,
      exit?_stmt _ _ _ (Instruction.operation_of_code .lsh rfl) rfl,
      exit?_stmt _ _ _ (Instruction.operation_of_code .tax rfl) rfl]
    simp [Arithmetic.apply, Operand.value, Instruction.stmt, hplace]
  have hshift (a : UInt32) : Arithmetic.shiftRight.apply a 5 = a >>> 5 := by
    simp [Arithmetic.apply]
  rw [List.append_assoc, hbit, hnr, loadBlock]
  by_cases hflag : abi.flag = 0
  · simp only [hflag, if_true, List.cons_append, List.nil_append]
    rw [exit?_load, exit?_stmt _ _ _ (Instruction.operation_of_code .rsh rfl) rfl]
    simp [Operand.value, Instruction.stmt, hshift, Datum.read, blockOf, placeOf, hflag]
  · simp only [hflag, if_false, List.cons_append, List.nil_append]
    rw [exit?_load, exit?_stmt _ _ _ (Instruction.operation_of_code .and rfl) rfl,
      exit?_stmt _ _ _ (Instruction.operation_of_code .rsh rfl) rfl]
    simp [Operand.value, Instruction.stmt, Arithmetic.apply, Datum.read, blockOf, placeOf]

/-- The lines of a block judge the numbers of the block by its mask and let all
    others pass on. A uniform mask needs no bit test because some bit is set in
    the index register. -/
theorem exit?_compare (block mask : UInt32) (datum : Datum) (rest : Section) {regs : Registers}
    (hbit : regs.x ≠ 0) :
    exit? datum 0 regs (compare block mask ++ rest) =
      if regs.a = block then
        some (.verdict (if regs.x &&& mask ≠ 0 then .trace else .allow))
      else exit? datum 0 regs rest := by
  unfold compare
  split
  · rename_i hnone
    simp [hnone]
  · split
    · rename_i hall
      have hones : regs.x &&& 0xffffffff = regs.x := UInt32.and_neg_one
      simp [hall, hones, hbit]
    · simp only [List.cons_append, List.nil_append, exit?_jeq, leave?_skip]
      by_cases hblock : regs.a = block
      · rw [if_pos hblock, if_pos hblock, UInt8.toNat_zero,
          exit?_stmt _ _ _ (Instruction.operation_of_code .txa rfl) rfl]
        by_cases hset : regs.x &&& mask = 0
        · simp [hset]
        · simp [hset]
      · simp [hblock]

/-- As the blocks differ, at most one of them judges the number. -/
theorem exit?_flatMap_compare (mask : UInt32 → UInt32) (blocks : List UInt32) (datum : Datum)
    (rest : Section) {regs : Registers} (hbit : regs.x ≠ 0) :
    exit? datum 0 regs (blocks.flatMap (fun block => compare block (mask block)) ++ rest) =
      if regs.a ∈ blocks then
        some (.verdict (if regs.x &&& mask regs.a ≠ 0 then .trace else .allow))
      else exit? datum 0 regs rest := by
  have hpiece : ∀ block ∈ blocks, ∀ rest, exit? datum 0 regs (compare block (mask block) ++ rest) =
      if regs.a = block then
        some (.verdict (if regs.x &&& mask regs.a ≠ 0 then .trace else .allow))
      else exit? datum 0 regs rest := by
    intro block _ rest
    rw [exit?_compare _ _ _ _ hbit]
    by_cases hblock : regs.a = block
    · rw [if_pos hblock, if_pos hblock, hblock]
    · rw [if_neg hblock, if_neg hblock]
  rw [exit?_flatMap hpiece]
  simp only [exists_eq_right']

theorem mem_blocks_iff {abi : Abi} {block : UInt32} :
    block ∈ blocks abi ↔ block < blockCount abi := by
  rw [UInt32.lt_iff_toNat_lt, blocks, List.mem_map]
  constructor
  · rintro ⟨n, hn, rfl⟩
    rw [List.mem_range] at hn
    have hcount : (blockCount abi).toNat < UInt32.size := (blockCount abi).toNat_lt
    rwa [UInt32.toNat_ofNat_of_lt' (by omega)]
  · intro hlt
    exact ⟨block.toNat, List.mem_range.mpr hlt, UInt32.ofNat_toNat⟩

/-- The body gives every call that passes its preamble the verdict it is owed,
    also numbers beyond the flag that do not carry it. -/
theorem gives_body {policy : TracePolicy} {abi : Abi} {index : Nat} (hfits : abi.FitsBlocks)
    {datum : Datum} (hadmits : abi.Admits datum) :
    Draft.Gives (body policy) datum (policy.owed datum) (abi, index) := by
  intro regs hnr
  have hreach : abi.flag ≤ datum.nr := hadmits.flag_le
  have hplace := placeOf_lt datum.nr
  have hbit : (1 : UInt32) <<< placeOf datum.nr ≠ 0 := by
    rw [Ne, ← UInt32.toNat_inj, Word.toNat_one_shiftLeft hplace]
    exact Nat.two_pow_pos _ |>.ne'
  rw [body, List.append_assoc, exit?_loads _ _ _ hnr, exit?_flatMap_compare _ _ _ _ hbit]
  simp only [mem_blocks_iff, one_shiftLeft_and_blockMask_ne_zero_iff hplace, TracePolicy.owed,
    exit?_always, leave?_trace]
  rcases blockOf_placeOf_cases hfits hreach with hname | ⟨hpast, hunknown⟩
  · by_cases hblock : blockOf abi datum.nr < blockCount abi
    · simp only [if_pos hblock, hname]
    · have hunknown := count_le_of_blockCount_le hfits (UInt32.not_lt.mp hblock)
      rw [hname] at hunknown
      simp [hblock, hunknown]
  · simp [UInt32.not_lt.mpr hpast, hunknown]

/-- A program of masks that did not overflow runs to its end on every call and
    returns the verdict that the call is owed. Nothing ties the policy to the
    table, and ABIs may share an architecture. -/
theorem run_maskTest_draft {table : AbiTable} {policy : TracePolicy}
    (hblocks : ∀ abi ∈ table, abi.FitsBlocks) (hfits : (draft table policy).overflow = false)
    (datum : Datum) :
    run (draft table policy).code datum = .ok (policy.judge table datum).code := by
  apply Draft.run_ofSections_eq_judge _ hfits
  intro abi habi index hadmits
  exact gives_body (hblocks abi habi) hadmits

/-- The x32 call 9, a change of the mappings, by its marked number. -/
theorem run_maskTest_draft_hostHead :
    (∀ abi ∈ AbiTable.hostHead, abi.FitsBlocks) ∧
      (draft AbiTable.hostHead (.ofTable AbiTable.hostHead true)).overflow = false ∧
      run (draft AbiTable.hostHead (.ofTable AbiTable.hostHead true)).code
          ⟨Arch.x86_64, 0x40000009⟩ = .ok Verdict.trace.code := by
  have hflags : ∀ abi ∈ AbiTable.hostHead, abi.FitsBlocks := by decide
  have hfits : (draft AbiTable.hostHead (.ofTable AbiTable.hostHead true)).overflow = false := by
    decide +kernel
  have hjudge : (TracePolicy.ofTable AbiTable.hostHead true).judge AbiTable.hostHead
      ⟨Arch.x86_64, 0x40000009⟩ = .trace := by decide
  refine ⟨hflags, hfits, ?_⟩
  rw [run_maskTest_draft hflags hfits, hjudge]

end SyscallFilter.MaskTest
