import Mathlib.Data.List.Nodup
import SyscallFilter.Proofs.Generator.BlockTests
import SyscallFilter.Proofs.Generator.Overflow

namespace SyscallFilter

namespace MaskTest

/-- The constants that lines compare the accumulator with for equality. In a body
    these are the blocks it tests for. -/
def equalities (lines : Section) : List UInt32 :=
  lines.filterMap fun
    | .branch code k _ _ => if code = Opcode.jeq then some k else none
    | _ => none

theorem equalities_append (lines rest : Section) :
    equalities (lines ++ rest) = equalities lines ++ equalities rest :=
  List.filterMap_append

/-- However a block is judged, one line tests for it. -/
theorem equalities_compare (block mask : UInt32) : equalities (compare block mask) = [block] := by
  unfold compare
  split
  · rfl
  · split <;> rfl

theorem equalities_flatMap_compare (mask : UInt32 → UInt32) (blocks : List UInt32) :
    equalities (blocks.flatMap fun block => compare block (mask block)) = blocks := by
  induction blocks with
  | nil => rfl
  | cons block rest ih =>
    rw [List.flatMap_cons, equalities_append, equalities_compare, ih, List.singleton_append]

theorem equalities_body (policy : TracePolicy) (abi : Abi) (index : Nat) :
    equalities (body policy abi index) = blocks abi := by
  have hloads : equalities (loadBit ++ loadBlock abi) = [] := by
    unfold loadBlock
    split <;> rfl
  rw [body, equalities_append, equalities_append, hloads, equalities_flatMap_compare]
  exact List.append_nil _

theorem nodup_blocks (abi : Abi) : (blocks abi).Nodup := by
  apply List.Nodup.map_on _ List.nodup_range
  intro n hn m hm heq
  have hcount : (blockCount abi).toNat < UInt32.size := (blockCount abi).toNat_lt
  have hwords := congrArg UInt32.toNat heq
  rw [List.mem_range] at hn hm
  rwa [UInt32.toNat_ofNat_of_lt' (by omega), UInt32.toNat_ofNat_of_lt' (by omega)] at hwords

/-- A body tests for each block below the count once, and for no other. -/
theorem count_equalities_body (policy : TracePolicy) (abi : Abi) (index : Nat) (block : UInt32) :
    (equalities (body policy abi index)).count block = if block < blockCount abi then 1 else 0 := by
  rw [equalities_body, (nodup_blocks abi).count]
  simp only [mem_blocks_iff]

/-- The blocks are counted right: as many as the known numbers fill, and each
    known number has its block tested for by one line. -/
structure CountsBlocks (policy : TracePolicy) (abi : Abi) (index : Nat) : Prop where
  add_lt : abi.count.toNat + 31 < UInt32.size
  toNat_blockCount : (blockCount abi).toNat = blockTotal abi
  count_block : ∀ nr < abi.count, (equalities (body policy abi index)).count (nr >>> 5) = 1

section Count

variable {abi : Abi} (policy : TracePolicy) (index : Nat)

theorem countsBlocks_of_count_add_le (hcount : abi.count.toNat + 32 ≤ UInt32.size) :
    CountsBlocks policy abi index where
  add_lt := hcount
  toNat_blockCount := toNat_blockCount hcount
  count_block nr hnr := by
    have hblock : nr >>> 5 < blockCount abi := by
      have hknown : nr.toNat < abi.count.toNat := hnr
      rw [UInt32.lt_iff_toNat_lt, toNat_shiftRight_five, toNat_blockCount hcount]
      omega
    rw [count_equalities_body, if_pos hblock]

end Count

/-- With flags that are single bits above the numbers, the ends of runs and the
    numbers of blocks are words, for any policy. Counting the blocks up is right
    exactly if at least 32 words are no known numbers; otherwise the sum that
    rounds up leaves the words, and whenever the section of such an ABI is asked
    for, there is no program. -/
theorem countsBlocks_iff {table : AbiTable} (hflags : ∀ abi ∈ table, abi.FlagAbove)
    (policy : TracePolicy) :
    (∀ abi index, table[index]? = some abi →
      (∀ run ∈ RangeTest.tracedRuns policy abi index, RangeTest.compareWraps abi run = false) ∧
      (∀ block < blockCount abi, blockMaskWraps block = false) ∧
      (blockCountWraps abi = true ↔ UInt32.size < abi.count.toNat + 32) ∧
      (CountsBlocks policy abi index ↔ abi.count.toNat + 32 ≤ UInt32.size)) ∧
    Generator.rangeTest.generate table policy = .ok (RangeTest.draft table policy) ∧
    ((∃ request ∈ Draft.asked table (body policy), UInt32.size < request.abi.count.toNat + 32) →
      Generator.maskTest.generate table policy = .error .overflow) ∧
    ((∀ request ∈ Draft.asked table (body policy), request.abi.count.toNat + 32 ≤ UInt32.size) →
      Generator.maskTest.generate table policy = .ok (draft table policy)) := by
  have hstarts : RangeTest.StartsFit table policy := RangeTest.startsFit_of_flagAbove hflags
  refine ⟨?_, ?_, ?_, ?_⟩
  · intro abi index habi
    refine ⟨?_, fun _ hblock => blockMaskWraps_eq_false hblock, blockCountWraps_eq_true_iff,
      ⟨CountsBlocks.add_lt, countsBlocks_of_count_add_le policy index⟩⟩
    simpa [RangeTest.bodyWraps] using RangeTest.bodyWraps_eq_false hstarts habi
  · exact Generator.generate_of_not_wraps (RangeTest.wraps_eq_false hstarts)
  · intro hwide
    exact Generator.generate_of_wraps (wraps_eq_true_iff.mpr hwide)
  · intro hcounts
    apply Generator.generate_of_not_wraps
    rw [← Bool.not_eq_true]
    refine wraps_eq_true_iff.not.mpr ?_
    rintro ⟨request, hrequest, hwide⟩
    exact Nat.not_lt.mpr (hcounts request hrequest) hwide

/-- The largest number of known calls that is counted right, and the next one. -/
theorem countsBlocks_iff_largest :
    let policy : TracePolicy := .bare [⟨"small", Arch.arm, 0, 64⟩]
    let largest : Abi := ⟨"largest", Arch.arm, 0, 0xffffffe0⟩
    let wide : Abi := ⟨"wide", Arch.arm, 0, 0xffffffe1⟩
    (∀ abi ∈ ([largest] : AbiTable), abi.FlagAbove) ∧ CountsBlocks policy largest 0 ∧
      (∀ abi ∈ ([wide] : AbiTable), abi.FlagAbove) ∧
      Generator.maskTest.generate [wide] policy = .error .overflow := by
  intro policy largest wide
  have hlargest : ∀ abi ∈ ([largest] : AbiTable), abi.FlagAbove := by decide
  have hwide : ∀ abi ∈ ([wide] : AbiTable), abi.FlagAbove := by decide
  obtain ⟨hsections, _, _, _⟩ := countsBlocks_iff hlargest policy
  obtain ⟨_, _, hwraps, _⟩ := countsBlocks_iff hwide policy
  obtain ⟨_, _, _, hcounts⟩ := hsections largest 0 rfl
  refine ⟨hlargest, hcounts.mpr (by decide), hwide, hwraps ?_⟩
  exact ⟨Draft.Request.ofEntry (wide, 0), by decide +kernel, by decide⟩

/-- Every word but the last is a known number. Counting the blocks leaves the
    words, and there is no program. -/
theorem not_countsBlocks_wide :
    let policy : TracePolicy := .bare [⟨"small", Arch.arm, 0, 64⟩]
    let wide : Abi := ⟨"wide", Arch.arm, 0, 0xffffffff⟩
    wide.FlagAbove ∧ UInt32.size ≤ wide.count.toNat + 31 ∧
      Generator.maskTest.generate [wide] policy = .error .overflow ∧
      (blockCount wide).toNat ≠ blockTotal wide ∧ ¬CountsBlocks policy wide 0 := by
  intro policy wide
  refine ⟨.inl rfl, by decide, by decide +kernel, by decide +kernel, ?_⟩
  exact fun hcounts => absurd hcounts.add_lt (by decide)

end MaskTest

end SyscallFilter
