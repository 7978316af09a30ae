import SyscallFilter.Generator
import SyscallFilter.Proofs.Draft.Requests
import SyscallFilter.Proofs.Generator.MaskTest
import SyscallFilter.Proofs.Generator.RangeTest
import SyscallFilter.Proofs.Generator.Size

namespace SyscallFilter

namespace RangeTest

/-- The sum in a comparison is that of the first number of the run and one, so it
    leaves the words for the last word only. -/
theorem compareWraps_eq_true_iff {abi : Abi} {run : Run} :
    compareWraps abi run = true ↔ abi.mark (UInt32.ofNat run.start) = 0xffffffff := by
  have hword := (abi.mark (UInt32.ofNat run.start)).toNat_lt
  have hone : (1 : UInt32).toNat = 1 := rfl
  have hlast : (0xffffffff : UInt32).toNat = 4294967295 := rfl
  rw [compareWraps, ← Bool.not_eq_false, Word.addWraps_eq_false_iff, ← UInt32.toNat_inj, hone, hlast,
    UInt32.size]
  omega

/-- No maximal run of traced numbers begins with the last word, the flag of its ABI
    set. -/
def StartsFit (table : AbiTable) (policy : TracePolicy) : Prop :=
  ∀ abi index, table[index]? = some abi → ∀ run : Run,
    run.IsMaximal (fun nr => policy.traces (UInt32.ofNat nr) index) abi.count.toNat →
      abi.mark (UInt32.ofNat run.start) ≠ 0xffffffff

variable {table : AbiTable} {policy : TracePolicy}

/-- A run ends with a number of the ABI or before the first unknown one, and its
    marked end is a word too. -/
theorem startsFit_of_flagAbove (hflags : ∀ abi ∈ table, abi.FlagAbove) :
    StartsFit table policy := by
  intro abi index habi run hmaximal hlast
  have hflag := hflags abi (List.mem_of_getElem? habi)
  have hrun : run ∈ tracedRuns policy abi index := by
    rw [tracedRuns_eq_maximal]
    exact Run.mem_maximal_iff.mpr hmaximal
  obtain ⟨hstart, hstop⟩ := toNat_mark_ends hflag hrun
  have hends := (stop_le_count hrun).1
  have hword := (abi.mark (UInt32.ofNat run.stop)).toNat_lt
  have hmax : (0xffffffff : UInt32).toNat = 4294967295 := rfl
  rw [hlast, hmax] at hstart
  omega

theorem bodyWraps_eq_false (hstarts : StartsFit table policy) {abi : Abi} {index : Nat}
    (habi : table[index]? = some abi) : bodyWraps policy abi index = false := by
  rw [bodyWraps, List.any_eq_false]
  intro run hrun
  rw [tracedRuns_eq_maximal] at hrun
  rw [compareWraps_eq_true_iff]
  exact hstarts abi index habi run (Run.mem_maximal_iff.mp hrun)

theorem wraps_eq_false (hstarts : StartsFit table policy) : wraps table policy = false :=
  Draft.wraps_eq_false fun _ _ habi => bodyWraps_eq_false hstarts habi

end RangeTest

namespace MaskTest

/-- There are at most as many blocks as fill the words, so their numbers are
    words, also if counting them up wraps. -/
theorem blockMaskWraps_eq_false {abi : Abi} {block : UInt32} (hblock : block < blockCount abi) :
    blockMaskWraps block = false := by
  have hblocks := toNat_blockCount_le abi
  have hcount := abi.count.toNat_lt
  have hthirtyTwo : (32 : UInt32).toNat = 32 := rfl
  rw [UInt32.lt_iff_toNat_lt] at hblock
  have hproduct : block.toNat * 32 + 32 ≤ UInt32.size := by
    rw [UInt32.size]
    omega
  have hbits : ∀ bit < 32, Word.addWraps (block * 32) (UInt32.ofNat bit) = false := by
    intro bit hbit
    rw [Word.addWraps_eq_false_iff, UInt32.toNat_mul, hthirtyTwo,
      UInt32.toNat_ofNat_of_lt' (by omega)]
    omega
  rw [blockMaskWraps, Bool.or_eq_false_iff, Word.mulWraps_eq_false_iff, hthirtyTwo,
    List.any_eq_false]
  refine ⟨by omega, fun bit hbit => ?_⟩
  rw [hbits bit (List.mem_range.mp hbit)]
  exact Bool.false_ne_true

theorem blockCountWraps_eq_true_iff {abi : Abi} :
    blockCountWraps abi = true ↔ UInt32.size < abi.count.toNat + 32 := by
  have hthirtyOne : (31 : UInt32).toNat = 31 := rfl
  rw [blockCountWraps, ← Bool.not_eq_false, Word.addWraps_eq_false_iff, hthirtyOne]
  omega

/-- Only counting the blocks up can go wrong. -/
theorem bodyWraps_eq_true_iff {abi : Abi} :
    bodyWraps abi = true ↔ UInt32.size < abi.count.toNat + 32 := by
  have hmasks : (blocks abi).any blockMaskWraps = false := by
    rw [List.any_eq_false]
    intro block hblock
    rw [blockMaskWraps_eq_false (mem_blocks_iff.mp hblock)]
    exact Bool.false_ne_true
  rw [bodyWraps, hmasks, Bool.or_false, blockCountWraps_eq_true_iff]

variable {table : AbiTable} {policy : TracePolicy}

theorem wraps_eq_true_iff :
    wraps table policy = true ↔ ∃ request ∈ Draft.asked table (body policy),
      UInt32.size < request.abi.count.toNat + 32 := by
  rw [wraps, Draft.wraps_eq_any, List.any_eq_true]
  simp only [bodyWraps_eq_true_iff]

theorem wraps_eq_false (hcounts : ∀ abi ∈ table, abi.count.toNat + 32 ≤ UInt32.size) :
    wraps table policy = false := by
  apply Draft.wraps_eq_false
  intro abi index habi
  rw [← Bool.not_eq_true, bodyWraps_eq_true_iff, Nat.not_lt]
  exact hcounts abi (List.mem_of_getElem? habi)

end MaskTest

namespace Generator

variable {table : AbiTable} {policy : TracePolicy} {generator : Generator}

theorem generate_of_wraps (hwraps : generator.wraps table policy = true) :
    generator.generate table policy = .error .overflow :=
  if_pos hwraps

theorem generate_of_not_wraps (hwraps : generator.wraps table policy = false) :
    generator.generate table policy = .ok (generator.draft table policy) := by
  rw [generate, hwraps]
  rfl

/-- Where no generator's arithmetic goes wrong. -/
theorem wraps_eq_false (hcounts : ∀ abi ∈ table, abi.count.toNat + 32 ≤ UInt32.size)
    (hstarts : RangeTest.StartsFit table policy) (hgenerator : generator ∈ all) :
    generator.wraps table policy = false := by
  simp only [all, List.mem_cons, List.not_mem_nil, or_false] at hgenerator
  rcases hgenerator with rfl | rfl
  · exact RangeTest.wraps_eq_false hstarts
  · exact MaskTest.wraps_eq_false hcounts

end Generator

end SyscallFilter
