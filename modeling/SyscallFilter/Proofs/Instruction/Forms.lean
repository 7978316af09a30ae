import SyscallFilter.Instruction.Listing
import SyscallFilter.Machine

namespace SyscallFilter

/-- What an instruction of the form does. Only a load from an offset at which
    no field lies is left without a meaning. -/
def Form.operation (insn : Instruction) : Form → Except Unsupported Operation
  | .loadWord =>
    if insn.k = Field.nr.offset then .ok (.load .nr)
    else if insn.k = Field.arch.offset then .ok (.load .arch)
    else .error (.offset insn.k)
  | .loadImm => .ok (.constant insn.k)
  | .ret => .ok (.ret insn.k)
  | .jeq => .ok (.branch .equal insn.k insn.jt insn.jf)
  | .jge => .ok (.branch .atLeast insn.k insn.jt insn.jf)
  | .jset => .ok (.branch .anyBit insn.k insn.jt insn.jf)
  | .ja => .ok (.jump insn.k)
  | .and => .ok (.arithmetic .and (.constant insn.k))
  | .lsh => .ok (.arithmetic .shiftLeft .index)
  | .rsh => .ok (.arithmetic .shiftRight (.constant insn.k))
  | .tax => .ok .tax
  | .txa => .ok .txa

namespace Instruction

/-- The interpreter ignores some bits of most codes; on the exact codes of the
    forms it agrees with them. -/
theorem operation_of_code {insn : Instruction} (form : Form) (hcode : insn.code = form.code) :
    insn.operation = form.operation insn := by
  obtain ⟨code, jt, jf, k⟩ := insn
  change code = form.code at hcode
  subst code
  cases form <;> cbv

@[simp] theorem operation_load (field : Field) : (load field).operation = .ok (.load field) := by
  rw [operation_of_code .loadWord rfl]
  cases field <;> rfl

@[simp] theorem operation_ret (verdict : Verdict) :
    (ret verdict).operation = .ok (.ret verdict.code) :=
  operation_of_code .ret rfl

@[simp] theorem operation_ja (k : UInt32) (jt jf : UInt8) :
    (jump Opcode.ja k jt jf).operation = .ok (.jump k) :=
  operation_of_code .ja rfl

end Instruction

end SyscallFilter
