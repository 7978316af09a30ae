import SyscallFilter.Proofs.Instruction.Forms
import SyscallFilter.Proofs.Machine.Jumps

namespace SyscallFilter

/-- The operation neither jumps nor returns. -/
def Operation.isStraight : Operation → Bool
  | .jump _ | .branch .. | .ret _ => false
  | _ => true

theorem Operation.offsets_of_isStraight {operation : Operation}
    (hstraight : operation.isStraight = true) : operation.offsets = [] := by
  cases operation with
  | jump offset => cases hstraight
  | branch test k jt jf => cases hstraight
  | _ => rfl

namespace Instruction

variable {insn : Instruction}

/-- The class of the instruction is known, and so is what the class looks at: the
    whole code and the offset of a load, the operation of the others. The bits
    that it does not look at are free. -/
inductive Supported (insn : Instruction) : Prop where
  | loadWord (field : Field) (hcode : insn.code = Opcode.ld ||| Opcode.abs)
      (hk : insn.k = field.offset)
  | loadImm (hcode : insn.code = Opcode.ld ||| Opcode.imm)
  | arithmetic (hclass : Opcode.classOf insn.code = Opcode.alu)
      (hop : Opcode.operationOf insn.code ∈ [Opcode.and, Opcode.lsh, Opcode.rsh])
  | jump (hclass : Opcode.classOf insn.code = Opcode.jmp)
      (hop : Opcode.operationOf insn.code ∈ [Opcode.ja, Opcode.jeq, Opcode.jge, Opcode.jset])
  | ret (hclass : Opcode.classOf insn.code = Opcode.ret)
  | move (hclass : Opcode.classOf insn.code = Opcode.misc)
      (hop : Opcode.moveOf insn.code ∈ [Opcode.tax, Opcode.txa])

/-- How far the instruction can jump, counted from the following one: `ja` by its
    constant, any other jump by one of its two offsets. -/
def leaps (insn : Instruction) : List Nat :=
  if Opcode.classOf insn.code = Opcode.jmp then
    if Opcode.operationOf insn.code = Opcode.ja then [insn.k.toNat]
    else [insn.jt.toNat, insn.jf.toNat]
  else []

section Classes

/-- A chain of alternatives succeeds if the first one that applies does. -/
private theorem exists_ite_ok_iff {α : Type} {c : Prop} [Decidable c] {a : α}
    {x : Except Unsupported α} :
    (∃ b, (if c then .ok a else x) = .ok b) ↔ c ∨ ∃ b, x = .ok b := by
  by_cases hc : c
  · simp [hc]
  · simp [hc]

theorem exists_loadOperation_iff :
    (∃ operation, insn.loadOperation = .ok operation) ↔
      (insn.code = Opcode.ld ||| Opcode.abs ∧ ∃ field : Field, insn.k = field.offset) ∨
        insn.code = Opcode.ld ||| Opcode.imm := by
  have hfield : (∃ field : Field, insn.k = field.offset) ↔
      insn.k = Field.nr.offset ∨ insn.k = Field.arch.offset := by
    constructor
    · rintro ⟨field, hk⟩
      cases field with
      | nr => exact .inl hk
      | arch => exact .inr hk
    · rintro (hk | hk)
      · exact ⟨.nr, hk⟩
      · exact ⟨.arch, hk⟩
  unfold loadOperation
  by_cases hword : insn.code = Opcode.ld ||| Opcode.abs
  · have himm : ¬Opcode.ld ||| Opcode.abs = Opcode.ld ||| Opcode.imm := by decide
    rw [if_pos hword, exists_ite_ok_iff, exists_ite_ok_iff]
    simp [hword, himm, hfield]
  · rw [if_neg hword, exists_ite_ok_iff]
    simp [hword]

theorem exists_arithmeticOperation_iff :
    (∃ operation, insn.arithmeticOperation = .ok operation) ↔
      Opcode.operationOf insn.code ∈ [Opcode.and, Opcode.lsh, Opcode.rsh] := by
  simp only [arithmeticOperation, exists_ite_ok_iff]
  simp

theorem exists_jumpOperation_iff :
    (∃ operation, insn.jumpOperation = .ok operation) ↔
      Opcode.operationOf insn.code ∈ [Opcode.ja, Opcode.jeq, Opcode.jge, Opcode.jset] := by
  simp only [jumpOperation, exists_ite_ok_iff]
  simp

theorem exists_moveOperation_iff :
    (∃ operation, insn.moveOperation = .ok operation) ↔
      Opcode.moveOf insn.code ∈ [Opcode.tax, Opcode.txa] := by
  simp only [moveOperation, exists_ite_ok_iff]
  simp

theorem operation_of_ld (hclass : Opcode.classOf insn.code = Opcode.ld) :
    insn.operation = insn.loadOperation := by
  simp [operation, hclass]

theorem operation_of_alu (hclass : Opcode.classOf insn.code = Opcode.alu) :
    insn.operation = insn.arithmeticOperation := by
  simp [operation, hclass, Opcode.alu, Opcode.ld]

theorem operation_of_jmp (hclass : Opcode.classOf insn.code = Opcode.jmp) :
    insn.operation = insn.jumpOperation := by
  simp [operation, hclass, Opcode.jmp, Opcode.alu, Opcode.ld]

theorem operation_of_ret (hclass : Opcode.classOf insn.code = Opcode.ret) :
    insn.operation = .ok (.ret insn.k) := by
  simp [operation, hclass, Opcode.ret, Opcode.jmp, Opcode.alu, Opcode.ld]

theorem operation_of_misc (hclass : Opcode.classOf insn.code = Opcode.misc) :
    insn.operation = insn.moveOperation := by
  simp [operation, hclass, Opcode.misc, Opcode.ret, Opcode.jmp, Opcode.alu, Opcode.ld]

end Classes

/-- The instructions with a meaning are exactly the supported ones. -/
theorem exists_operation_iff : (∃ operation, insn.operation = .ok operation) ↔ insn.Supported := by
  constructor
  · intro hmeans
    by_cases hld : Opcode.classOf insn.code = Opcode.ld
    · rw [operation_of_ld hld, exists_loadOperation_iff] at hmeans
      rcases hmeans with ⟨hcode, field, hk⟩ | hcode
      · exact .loadWord field hcode hk
      · exact .loadImm hcode
    by_cases halu : Opcode.classOf insn.code = Opcode.alu
    · rw [operation_of_alu halu, exists_arithmeticOperation_iff] at hmeans
      exact .arithmetic halu hmeans
    by_cases hjmp : Opcode.classOf insn.code = Opcode.jmp
    · rw [operation_of_jmp hjmp, exists_jumpOperation_iff] at hmeans
      exact .jump hjmp hmeans
    by_cases hret : Opcode.classOf insn.code = Opcode.ret
    · exact .ret hret
    by_cases hmisc : Opcode.classOf insn.code = Opcode.misc
    · rw [operation_of_misc hmisc, exists_moveOperation_iff] at hmeans
      exact .move hmisc hmeans
    simp [operation, hld, halu, hjmp, hret, hmisc] at hmeans
  · intro hsupported
    cases hsupported with
    | loadWord field hcode hk =>
      refine ⟨.load field, ?_⟩
      rw [operation_of_code .loadWord hcode]
      cases field <;> simp [Form.operation, hk, Field.offset]
    | loadImm hcode => exact ⟨_, operation_of_code .loadImm hcode⟩
    | arithmetic hclass hop =>
      rw [operation_of_alu hclass]
      exact exists_arithmeticOperation_iff.mpr hop
    | jump hclass hop =>
      rw [operation_of_jmp hclass]
      exact exists_jumpOperation_iff.mpr hop
    | ret hclass => exact ⟨_, operation_of_ret hclass⟩
    | move hclass hop =>
      rw [operation_of_misc hclass]
      exact exists_moveOperation_iff.mpr hop

section Straight

variable {operation : Operation}

theorem isStraight_of_loadOperation (hoperation : insn.loadOperation = .ok operation) :
    operation.isStraight = true := by
  unfold loadOperation at hoperation
  split at hoperation
  · split at hoperation
    · cases hoperation
      rfl
    · split at hoperation
      · cases hoperation
        rfl
      · cases hoperation
  · split at hoperation
    · cases hoperation
      rfl
    · cases hoperation

theorem isStraight_of_arithmeticOperation (hoperation : insn.arithmeticOperation = .ok operation) :
    operation.isStraight = true := by
  unfold arithmeticOperation at hoperation
  dsimp only at hoperation
  repeat' split at hoperation
  all_goals cases hoperation
  all_goals rfl

theorem isStraight_of_moveOperation (hoperation : insn.moveOperation = .ok operation) :
    operation.isStraight = true := by
  unfold moveOperation at hoperation
  dsimp only at hoperation
  repeat' split at hoperation
  all_goals cases hoperation
  all_goals rfl

/-- The classes of jumps and of returns aside, an operation goes straight on. -/
theorem isStraight_of_class (hoperation : insn.operation = .ok operation)
    (hjmp : Opcode.classOf insn.code ≠ Opcode.jmp) (hret : Opcode.classOf insn.code ≠ Opcode.ret) :
    operation.isStraight = true := by
  by_cases hld : Opcode.classOf insn.code = Opcode.ld
  · exact isStraight_of_loadOperation (operation_of_ld hld ▸ hoperation)
  by_cases halu : Opcode.classOf insn.code = Opcode.alu
  · exact isStraight_of_arithmeticOperation (operation_of_alu halu ▸ hoperation)
  by_cases hmisc : Opcode.classOf insn.code = Opcode.misc
  · exact isStraight_of_moveOperation (operation_of_misc hmisc ▸ hoperation)
  simp [Instruction.operation, hld, halu, hjmp, hret, hmisc] at hoperation

/-- Jumps have the offsets that can be read off them. -/
theorem offsets_of_jumpOperation (hoperation : insn.jumpOperation = .ok operation) :
    operation.offsets = if Opcode.operationOf insn.code = Opcode.ja then [insn.k.toNat]
      else [insn.jt.toNat, insn.jf.toNat] := by
  unfold jumpOperation at hoperation
  dsimp only at hoperation
  split at hoperation
  · rename_i hja
    cases hoperation
    rw [if_pos hja]
    rfl
  · rename_i hja
    rw [if_neg hja]
    repeat' split at hoperation
    all_goals cases hoperation
    all_goals rfl

end Straight

theorem offsets_eq_leaps (hsupported : insn.Supported) : insn.offsets = insn.leaps := by
  obtain ⟨operation, hoperation⟩ := exists_operation_iff.mpr hsupported
  rw [offsets_of_operation hoperation, leaps]
  by_cases hjmp : Opcode.classOf insn.code = Opcode.jmp
  · rw [if_pos hjmp]
    exact offsets_of_jumpOperation (operation_of_jmp hjmp ▸ hoperation)
  rw [if_neg hjmp]
  by_cases hret : Opcode.classOf insn.code = Opcode.ret
  · rw [operation_of_ret hret] at hoperation
    cases hoperation
    rfl
  exact Operation.offsets_of_isStraight (isStraight_of_class hoperation hjmp hret)

/-- Only instructions of the class of returns return, and they return their
    constant. -/
theorem operation_eq_ret_iff {k : UInt32} :
    insn.operation = .ok (.ret k) ↔ Opcode.classOf insn.code = Opcode.ret ∧ insn.k = k := by
  constructor
  · intro hoperation
    by_cases hret : Opcode.classOf insn.code = Opcode.ret
    · rw [operation_of_ret hret] at hoperation
      cases hoperation
      exact ⟨hret, rfl⟩
    by_cases hjmp : Opcode.classOf insn.code = Opcode.jmp
    · have hoffsets := offsets_of_jumpOperation (operation_of_jmp hjmp ▸ hoperation)
      split at hoffsets <;> cases hoffsets
    · cases isStraight_of_class hoperation hjmp hret
  · rintro ⟨hret, rfl⟩
    exact operation_of_ret hret

end Instruction

end SyscallFilter
