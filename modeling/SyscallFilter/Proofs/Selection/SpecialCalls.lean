import SyscallFilter.Proofs.Except
import SyscallFilter.Proofs.Selection.Agreement
import SyscallFilter.Proofs.TracePolicy.History
import SyscallFilter.Resumption

namespace SyscallFilter

namespace TracePolicy

/-- Nothing that is asked of a policy afterwards takes back what its start
    forces. -/
theorem Start.traces_attemptAll_of_forces {start : Start} {table : AbiTable} {abi : Abi}
    {index : Nat} (habi : table[index]? = some abi) {nr : UInt32} (hnr : nr < abi.count)
    (hforces : start.Forces abi nr) (history : List Choice) :
    ((start.policy table).attemptAll history).traces nr index = true :=
  (start.traces_attemptAll_iff table history).mpr ⟨abi, habi, hnr, .inr hforces⟩

theorem Start.forces_ofTable {stackTraces : Bool} {abi : Abi} {nr : UInt32} {cls : SyscallClass}
    (hclass : abi.HasClass nr cls)
    (hforced : cls = .indirectSubcall ∨ cls = .alwaysTraced ∨
      cls = .mappingChange ∧ stackTraces = true) :
    (ofTable stackTraces).Forces abi nr := by
  rcases hforced with rfl | rfl | ⟨rfl, hstack⟩
  · exact .inl hclass
  · exact .inr (.inl hclass)
  · exact .inr (.inr ⟨hclass, hstack⟩)

theorem resumption_eq_syscall_iff {policy : TracePolicy} {nr : UInt32} {index : Nat} :
    policy.resumption nr index = .syscall ↔
      nr < policy.count index ∧ policy.traces nr index = true := by
  simp [resumption]

end TracePolicy

namespace Generator

/-- A special call never slips through. Whatever was selected or refused since
    the start, a chosen filter traces the call under its marked number, and a
    process that leaves it stops at its next entry. The same number may belong
    to no class for another ABI of the architecture. -/
theorem run_choose_special {table : AbiTable} (hseparable : table.Separable) {stackTraces : Bool}
    {policy : TracePolicy}
    (hreached : ∃ history, policy = (TracePolicy.ofTable table stackTraces).attemptAll history)
    {filter : ActiveFilter} (hchoose : choose all table policy = .ok filter)
    {abi : Abi} {index : Nat} (habi : table[index]? = some abi)
    {nr : UInt32} {cls : SyscallClass} (hclass : abi.HasClass nr cls) (hnr : nr < abi.count)
    (hforced : cls = .indirectSubcall ∨ cls = .alwaysTraced ∨
      cls = .mappingChange ∧ stackTraces = true) :
    run filter.code ⟨abi.arch, abi.mark nr⟩ = .ok Verdict.trace.code ∧
      policy.resumption nr index = .syscall := by
  obtain ⟨history, hhistory⟩ := hreached
  have hbuilt : policy.BuiltFor table := ⟨.ofTable stackTraces, history, hhistory⟩
  have htraces : policy.traces nr index = true := by
    rw [hhistory]
    exact TracePolicy.Start.traces_attemptAll_of_forces habi hnr
      (TracePolicy.Start.forces_ofTable hclass hforced) history
  constructor
  · rw [run_choose_eq_judge hseparable.fitsBlocks hchoose, hseparable.judge_mark policy habi hnr,
      if_pos htraces]
  · rw [TracePolicy.resumption_eq_syscall_iff, hbuilt.count_eq habi]
    exact ⟨hnr, htraces⟩

/-- Call 9 changes the mappings, for x32 as for x86_64. A choice of x32 call 1 came
    after it was in force, and one that was refused. -/
theorem run_choose_special_hostHead :
    let policy := (TracePolicy.ofTable AbiTable.hostHead true).attemptAll
      [.single 2 1, ⟨2, 9, 64⟩]
    AbiTable.hostHead.Separable ∧ Abi.x32.HasClass 9 .mappingChange ∧
      ∃ filter, choose all AbiTable.hostHead policy = .ok filter ∧
        run filter.code ⟨Arch.x86_64, Abi.x32.mark 9⟩ = .ok Verdict.trace.code ∧
        policy.resumption 9 2 = .syscall := by
  intro policy
  have hseparable := AbiTable.separable_hostHead
  have hclass : Abi.x32.HasClass 9 .mappingChange :=
    ⟨Numbering.x32, by simp [Numbering.all], rfl, rfl, by decide⟩
  obtain ⟨filter, hchoose, _⟩ :=
    Except.exists_of_map_eq_ok (show (choose all AbiTable.hostHead policy).map (·.generator) =
      .ok "linear" by decide +kernel)
  have hspecial := run_choose_special hseparable ⟨_, rfl⟩ hchoose
    (show AbiTable.hostHead[2]? = some { Abi.x32 with count := 64 } from rfl)
    hclass (by decide) (.inr (.inr ⟨rfl, rfl⟩))
  exact ⟨hseparable, hclass, filter, hchoose, hspecial⟩

end Generator

end SyscallFilter
