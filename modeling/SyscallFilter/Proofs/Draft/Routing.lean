import SyscallFilter.Proofs.Draft.Sections
import SyscallFilter.Proofs.Section.Preamble
import SyscallFilter.Proofs.Table.TestOrder

namespace SyscallFilter.Draft

/-- A body gives a call, once its number is loaded, the verdict it is owed. The
    index register may hold anything. -/
def Gives (body : Abi → Nat → Section) (datum : Datum) (owed : Abi × Nat → Verdict)
    (entry : Abi × Nat) : Prop :=
  ∀ regs : Registers, regs.a = datum.nr →
    Section.exit? datum 0 regs (body entry.1 entry.2) = some (.verdict (owed entry))

/-- Sections run one after the other give the verdict of the first that admits
    the call. Each one that does not hands on the architecture it found, which
    carries the induction. -/
private theorem runFrom_codeOf {body : Abi → Nat → Section} {datum : Datum}
    {owed : Abi × Nat → Verdict} {abis : List (Abi × Nat)}
    (hsizes : ∀ entry ∈ abis, (sectionOf body entry).size ≤ Section.maxSize)
    (hgives : ∀ entry ∈ abis, entry.1.Admits datum → Gives body datum owed entry)
    (position : Nat) {regs : Registers} (harch : regs.a = datum.arch) :
    runFrom datum position 0 regs (codeOf body abis) =
      .ok ((abis.find? fun entry => entry.1.Admits datum).elim .trace owed).code := by
  induction abis generalizing position regs with
  | nil => simp [codeOf, runFrom, Operation.perform]
  | cons entry later ih =>
    have hsize := hsizes entry List.mem_cons_self
    have hpreamble := Section.exit?_preamble entry.1 (body entry.1 entry.2) harch
    rw [codeOf_cons]
    by_cases hadmits : entry.1.Admits datum
    · rw [if_pos hadmits, hgives entry List.mem_cons_self hadmits _ rfl] at hpreamble
      rw [Section.runFrom_resolve hsize hpreamble, List.find?_cons_of_pos (by simpa using hadmits)]
      rfl
    · rw [if_neg hadmits] at hpreamble
      rw [Section.runFrom_resolve hsize hpreamble, List.find?_cons_of_neg (by simpa using hadmits)]
      exact ih (fun entry hentry => hsizes entry (List.mem_cons_of_mem _ hentry))
        (fun entry hentry => hgives entry (List.mem_cons_of_mem _ hentry)) _ harch

/-- Running a complete program gives every call the verdict of the body that
    belongs to its owner, and a call without an owner is traced. Bodies of ABIs
    that the call does not reach are not constrained. -/
theorem run_ofSections {table : AbiTable} {body : Abi → Nat → Section} {datum : Datum}
    {owed : Abi × Nat → Verdict} (hfits : (ofSections table body).overflow = false)
    (hgives : ∀ entry ∈ table.testOrder, entry.1.Admits datum → Gives body datum owed entry) :
    run (ofSections table body).code datum =
      .ok ((table.owner? datum).elim .trace owed).code := by
  obtain ⟨hcode, hsizes⟩ := ofSections_of_not_overflow hfits
  have hload : run (.load .arch :: codeOf body table.testOrder) datum =
      runFrom datum 1 0 { a := datum.arch } (codeOf body table.testOrder) := by
    simp [run, runFrom, Operation.perform, Datum.read]
  rw [hcode, hload, AbiTable.owner?_eq_find?]
  exact runFrom_codeOf hsizes hgives 1 rfl

/-- If the body of every ABI gives the verdicts that a policy owes its calls,
    the program returns the verdict of the policy on every call. -/
theorem run_ofSections_eq_judge {table : AbiTable} {body : Abi → Nat → Section}
    {policy : TracePolicy} {datum : Datum}
    (hgives : ∀ abi ∈ table, ∀ index, abi.Admits datum →
      Gives body datum (policy.owed datum) (abi, index))
    (hfits : (ofSections table body).overflow = false) :
    run (ofSections table body).code datum = .ok (policy.judge table datum).code := by
  rw [TracePolicy.judge_eq_elim]
  apply run_ofSections hfits
  rintro ⟨abi, index⟩ hentry hadmits
  exact hgives abi (AbiTable.mem_of_mem_testOrder hentry) index hadmits

end SyscallFilter.Draft
