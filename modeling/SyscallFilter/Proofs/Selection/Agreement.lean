import SyscallFilter.Proofs.Generator.MaskTest
import SyscallFilter.Proofs.Generator.RangeTest
import SyscallFilter.Proofs.Selection.Chosen
import SyscallFilter.Proofs.Table.Separable

namespace SyscallFilter.Generator

/-- All generators agree with the policy, and so with each other, on tables that
    suit them all. -/
theorem run_draft_eq_judge {generator : Generator} (hgenerator : generator ∈ all)
    {table : AbiTable} {policy : TracePolicy} (hblocks : ∀ abi ∈ table, abi.FitsBlocks)
    (hfits : (generator.draft table policy).overflow = false) (datum : Datum) :
    run (generator.draft table policy).code datum = .ok (policy.judge table datum).code := by
  simp only [all, List.mem_cons, List.not_mem_nil, or_false] at hgenerator
  rcases hgenerator with rfl | rfl
  · apply Draft.run_ofSections_eq_judge _ hfits
    intro abi habi index hadmits
    exact RangeTest.gives_body (hblocks abi habi).flagAbove hadmits
  · apply Draft.run_ofSections_eq_judge _ hfits
    intro abi habi index hadmits
    exact MaskTest.gives_body (hblocks abi habi) hadmits

/-- Whichever generator made the filter. -/
theorem run_choose_eq_judge {table : AbiTable} {policy : TracePolicy} {filter : ActiveFilter}
    (hblocks : ∀ abi ∈ table, abi.FitsBlocks) (hchoose : choose all table policy = .ok filter)
    (datum : Datum) : run filter.code datum = .ok (policy.judge table datum).code := by
  obtain ⟨generator, hgenerator, hfits, rfl⟩ := exists_of_choose hchoose
  exact run_draft_eq_judge hgenerator hblocks hfits datum

/-- A chosen filter judges the known numbers of every ABI of a separable table
    by the policy for this ABI, though ABIs share architectures and a flag is
    only compared with. It does not matter which generator made the filter. -/
theorem run_choose_mark {table : AbiTable} {policy : TracePolicy} {filter : ActiveFilter}
    (hseparable : table.Separable) (hchoose : choose all table policy = .ok filter)
    {abi : Abi} {index : Nat} (habi : table[index]? = some abi) {nr : UInt32}
    (hnr : nr < abi.count) :
    run filter.code ⟨abi.arch, abi.mark nr⟩ =
      .ok (if policy.traces nr index then Verdict.trace else Verdict.allow).code := by
  obtain ⟨generator, hgenerator, hfits, rfl⟩ := exists_of_choose hchoose
  rw [run_draft_eq_judge hgenerator hseparable.fitsBlocks hfits,
    hseparable.judge_mark policy habi hnr]

/-- Call 59 is `execve` for x86_64 but nothing special for x32. -/
theorem run_choose_mark_hostHead :
    AbiTable.hostHead.Separable ∧
      ∃ filter, choose all AbiTable.hostHead (.ofTable AbiTable.hostHead true) = .ok filter ∧
        run filter.code ⟨Arch.x86_64, Abi.x86_64.mark 59⟩ = .ok Verdict.trace.code ∧
        run filter.code ⟨Arch.x86_64, Abi.x32.mark 59⟩ = .ok Verdict.allow.code := by
  have hseparable := AbiTable.separable_hostHead
  refine ⟨hseparable, ?_⟩
  have hok : (choose all AbiTable.hostHead (.ofTable AbiTable.hostHead true)).isOk = true := by
    decide +kernel
  cases hchoose : choose all AbiTable.hostHead (.ofTable AbiTable.hostHead true) with
  | error reason =>
    rw [hchoose] at hok
    cases hok
  | ok filter =>
    have hnr : (59 : UInt32) < 64 := by decide
    have hplain := run_choose_mark hseparable hchoose
      (show AbiTable.hostHead[0]? = some { Abi.x86_64 with count := 64 } from rfl) hnr
    have hflagged := run_choose_mark hseparable hchoose
      (show AbiTable.hostHead[2]? = some { Abi.x32 with count := 64 } from rfl) hnr
    exact ⟨filter, rfl, hplain, hflagged⟩

end SyscallFilter.Generator
