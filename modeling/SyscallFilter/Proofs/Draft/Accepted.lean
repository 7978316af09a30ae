import SyscallFilter.Proofs.Draft.Sections
import SyscallFilter.Proofs.Section.WellFormed

namespace SyscallFilter.Draft

/-- Sections one after the other, the last return behind them. Each section may
    jump right behind itself, and there always stands something. -/
private theorem codeOf_wellFormed {body : Abi → Nat → Section} {abis : List (Abi × Nat)}
    (hsizes : ∀ entry ∈ abis, (sectionOf body entry).size ≤ Section.maxSize)
    (hbody : ∀ abi index, (body abi index).WellFormed) :
    (∀ insn ∈ codeOf body abis, insn.Permitted) ∧ JumpsWithin 0 (codeOf body abis) ∧
      (codeOf body abis).getLast? = some (.ret .trace) := by
  induction abis with
  | nil =>
    have hoffsets : (Instruction.ret .trace).offsets = [] :=
      Instruction.offsets_of_operation (Instruction.operation_ret .trace)
    refine ⟨?_, ?_, rfl⟩
    · intro insn hinsn
      rw [codeOf, List.flatMap_nil, List.nil_append, List.mem_singleton] at hinsn
      subst insn
      exact Instruction.permitted_ret (by decide)
    · simp [codeOf, jumpsWithin_cons, jumpsWithin_nil, hoffsets]
  | cons entry later ih =>
    obtain ⟨hpermitted, hjumps, hlast⟩ :=
      ih fun entry hentry => hsizes entry (List.mem_cons_of_mem _ hentry)
    have hsection : (sectionOf body entry).WellFormed := (hbody entry.1 entry.2).preamble entry.1
    obtain ⟨hsectionPermitted, hsectionJumps⟩ := hsection.resolve (hsizes entry List.mem_cons_self)
    have hlength : 1 ≤ (codeOf body later).length := by
      rw [codeOf, List.length_append]
      exact Nat.le_add_left _ _
    rw [codeOf_cons]
    refine ⟨?_, hsectionJumps.append hjumps hlength, ?_⟩
    · intro insn hinsn
      rcases List.mem_append.mp hinsn with hinsn | hinsn
      · exact hsectionPermitted insn hinsn
      · exact hpermitted insn hinsn
    · rw [List.getLast?_append, hlast]
      rfl

/-- A complete program with well-formed bodies meets the rules of the kernel. -/
theorem accepted_of_wellFormed {table : AbiTable} {body : Abi → Nat → Section}
    (hbody : ∀ abi index, (body abi index).WellFormed)
    (hfits : (ofSections table body).overflow = false) :
    Accepted (ofSections table body).code := by
  obtain ⟨hcode, hsizes⟩ := ofSections_of_not_overflow hfits
  obtain ⟨hpermitted, hjumps, hlast⟩ := codeOf_wellFormed hsizes hbody
  have hoffsets : (Instruction.load .arch).offsets = [] :=
    Instruction.offsets_of_operation (Instruction.operation_load .arch)
  rw [hcode]
  refine ⟨⟨.trace, ?_⟩, ?_, ?_⟩
  · rw [List.getLast?_cons, hlast]
    rfl
  · intro insn hinsn
    cases hinsn with
    | head => exact Instruction.permitted_load .arch
    | tail _ hinsn => exact hpermitted insn hinsn
  · exact jumpsWithin_cons.mpr ⟨by simp [hoffsets], hjumps⟩

end SyscallFilter.Draft
