import SyscallFilter.Abi
import SyscallFilter.Proofs.Machine.Execution

namespace SyscallFilter

instance (insn : Instruction) : Decidable insn.Supported :=
  decidable_of_iff (insn.operation.isOk = true) <| by
    rw [← Instruction.exists_operation_iff]
    cases insn.operation with
    | error cause => simp [Except.isOk, Except.toBool]
    | ok operation => simp [Except.isOk, Except.toBool]

/-- What can be seen of a program without running it: it ends in a return, all
    its instructions are supported and all its jumps stay inside, also those that
    are never reached. Nothing is asked of the bits that a class ignores. -/
structure Checked (code : List Instruction) : Prop where
  /-- The program is not empty either. -/
  returns : ∃ insn ∈ code.getLast?, Opcode.classOf insn.code = Opcode.ret
  supported : ∀ insn ∈ code, insn.Supported
  inside : ∀ position, ∀ hposition : position < code.length,
    ∀ offset ∈ code[position].leaps, position + 1 + offset < code.length

theorem checked_iff {code : List Instruction} :
    ((∃ insn ∈ code.getLast?, Opcode.classOf insn.code = Opcode.ret) ∧
      (∀ insn ∈ code, insn.Supported) ∧
      ∀ position, ∀ hposition : position < code.length,
        ∀ offset ∈ code[position].leaps, position + 1 + offset < code.length) ↔ Checked code :=
  ⟨fun ⟨hreturns, hsupported, hinside⟩ => ⟨hreturns, hsupported, hinside⟩,
    fun ⟨hreturns, hsupported, hinside⟩ => ⟨hreturns, hsupported, hinside⟩⟩

instance (code : List Instruction) : Decidable (Checked code) :=
  decidable_of_iff _ checked_iff

theorem Checked.jumpsWithin {code : List Instruction} (hchecked : Checked code) :
    JumpsWithin 0 code := by
  intro position insn hinsn offset hoffset
  obtain ⟨hposition, rfl⟩ := List.getElem?_eq_some_iff.mp hinsn
  rw [Instruction.offsets_eq_leaps (hchecked.supported _ (List.getElem_mem hposition))] at hoffset
  exact hchecked.inside position hposition offset hoffset

/-- Checking a program is enough to know that it never faults. -/
theorem Checked.exists_ret {code : List Instruction} (hchecked : Checked code) (datum : Datum) :
    ∃ insn ∈ code, Opcode.classOf insn.code = Opcode.ret ∧ run code datum = .ok insn.k := by
  obtain ⟨last, hlast, hclass⟩ := hchecked.returns
  have hnonempty : 0 < code.length := by
    apply List.length_pos_iff.mpr
    rintro rfl
    cases hlast
  have hends : ∀ insn, code.getLast? = some insn → ∃ k, insn.operation = .ok (.ret k) := by
    intro insn hinsn
    rw [hlast] at hinsn
    cases hinsn
    exact ⟨_, Instruction.operation_of_ret hclass⟩
  obtain ⟨insn, hinsn, k, hret, hrun⟩ := exists_ret_of_jumpsWithin
    (fun insn hinsn => Instruction.exists_operation_iff.mpr (hchecked.supported insn hinsn))
    hchecked.jumpsWithin hends datum 0 {} hnonempty
  obtain ⟨hclass, rfl⟩ := Instruction.operation_eq_ret_iff.mp hret
  exact ⟨insn, hinsn, hclass, hrun⟩

/-- A checked program returns the constant of one of its returns on every call.
    Of any program, checked or not, a run executes positions in ascending order and
    so no more instructions than there are; if it fails, then at an instruction
    that is not supported or past the end. -/
theorem ends_in_order_and_returns_if_checked (code : List Instruction) (datum : Datum) :
    (Checked code →
      ∃ insn ∈ code, Opcode.classOf insn.code = Opcode.ret ∧ run code datum = .ok insn.k) ∧
    (∃ positions, Executes code datum {} positions (run code datum)) ∧
    ∀ positions result, Executes code datum {} positions result →
      result = run code datum ∧ positions.Pairwise (· < ·) ∧
        (∀ position ∈ positions, position < code.length) ∧ positions.length ≤ code.length ∧
        Ending code positions result := by
  refine ⟨fun hchecked => hchecked.exists_ret datum, ?_, ?_⟩
  · obtain ⟨positions, result, hexecutes⟩ := exists_executes code datum {}
    have hresult : result = run code datum := hexecutes.result_eq
    exact ⟨positions, hresult ▸ hexecutes⟩
  · intro positions result hexecutes
    obtain ⟨hascending, hinside⟩ := hexecutes.ascending
    refine ⟨hexecutes.result_eq, hascending, ?_, hexecutes.length_le, hexecutes.ending⟩
    intro position hposition
    exact (hinside position hposition).2

/-- A checked program in which bits are set that no class looks at. Two calls take
    the two ways through it. -/
def lenient : List Instruction :=
  [⟨0x20, 1, 2, Field.arch.offset⟩, ⟨0xff1d, 1, 0, Arch.i386⟩, ⟨0x0f05, 9, 9, 1⟩, ⟨0x000e, 9, 9, 7⟩,
    ⟨0xff06, 9, 9, Verdict.trace.code⟩]

theorem ends_in_order_and_returns_if_checked_lenient :
    Checked lenient ∧
      (∃ insn ∈ lenient, Opcode.classOf insn.code = Opcode.ret ∧
        run lenient ⟨Arch.i386, 3⟩ = .ok insn.k) ∧
      Executes lenient ⟨Arch.arm, 3⟩ {} [0, 1, 2, 4] (.ok Verdict.trace.code) ∧
      run lenient ⟨Arch.arm, 3⟩ = .ok Verdict.trace.code := by
  have hchecked : Checked lenient := by decide
  have hexecutes : Executes lenient ⟨Arch.arm, 3⟩ {} [0, 1, 2, 4] (.ok Verdict.trace.code) :=
    .goesOn rfl rfl rfl (.goesOn rfl rfl rfl (.goesOn rfl rfl rfl (.returns rfl rfl rfl)))
  obtain ⟨hreturns, _⟩ := ends_in_order_and_returns_if_checked lenient ⟨Arch.i386, 3⟩
  obtain ⟨_, _, hruns⟩ := ends_in_order_and_returns_if_checked lenient ⟨Arch.arm, 3⟩
  exact ⟨hchecked, hreturns hchecked, hexecutes, (hruns _ _ hexecutes).1.symm⟩

end SyscallFilter
