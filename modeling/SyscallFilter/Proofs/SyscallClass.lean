import Mathlib.Data.List.Nodup
import SyscallFilter.TracePolicy

namespace SyscallFilter

namespace Numbering

/-- Architecture and flag tell the numberings apart. -/
theorem eq_of_arch_flag {first second : Numbering} (hfirst : first ∈ all) (hsecond : second ∈ all)
    (harch : first.arch = second.arch) (hflag : first.flag = second.flag) : first = second := by
  have hkeys : (all.map fun numbering => (numbering.arch, numbering.flag)).Nodup := by decide
  exact List.inj_on_of_nodup_map hkeys hfirst hsecond (Prod.ext harch hflag)

end Numbering

namespace Abi

/-- The numbering of the ABI's architecture and flag gives the number this class.
    Whether the number is one of the ABI's does not matter. -/
def HasClass (abi : Abi) (nr : UInt32) (cls : SyscallClass) : Prop :=
  ∃ numbering ∈ Numbering.all,
    numbering.arch = abi.arch ∧ numbering.flag = abi.flag ∧ (nr, cls) ∈ numbering.classes

/-- The special calls of an ABI are the classes of its numbering, cut off where
    its numbers end. -/
theorem mem_specialCalls_iff {abi : Abi} {nr : UInt32} {cls : SyscallClass} :
    (nr, cls) ∈ abi.specialCalls ↔ abi.HasClass nr cls ∧ nr < abi.count := by
  unfold specialCalls
  cases hfind : Numbering.all.find? fun n => n.arch = abi.arch ∧ n.flag = abi.flag with
  | none =>
    have hnone : ¬abi.HasClass nr cls := by
      rintro ⟨numbering, hnumbering, harch, hflag, _⟩
      simpa [harch, hflag] using List.find?_eq_none.mp hfind numbering hnumbering
    simp [hnone]
  | some found =>
    have hfound := List.mem_of_find?_eq_some hfind
    obtain ⟨harch, hflag⟩ : found.arch = abi.arch ∧ found.flag = abi.flag := by
      simpa using List.find?_some hfind
    have hclass : abi.HasClass nr cls ↔ (nr, cls) ∈ found.classes := by
      constructor
      · rintro ⟨numbering, hnumbering, hsameArch, hsameFlag, hmem⟩
        rwa [Numbering.eq_of_arch_flag hfound hnumbering (harch.trans hsameArch.symm)
          (hflag.trans hsameFlag.symm)]
      · exact fun hmem => ⟨found, hfound, harch, hflag, hmem⟩
    simp [hclass]

end Abi

/-- Stack traces decide about the calls that change the mappings only. -/
theorem Roster.forces_eq_true_iff {stackTraces : Bool} {cls : SyscallClass} :
    forces stackTraces cls = true ↔
      cls = .indirectSubcall ∨ cls = .alwaysTraced ∨ cls = .mappingChange ∧ stackTraces = true := by
  cases cls <;> simp [forces]

end SyscallFilter
