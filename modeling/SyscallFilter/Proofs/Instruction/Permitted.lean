import SyscallFilter.Proofs.Instruction.Forms
import SyscallFilter.Proofs.Machine.Jumps

namespace SyscallFilter

/-- The constants that a filter may give to the form: a load names a field, a
    shift stays within the word, and a return traces or allows the call. -/
def Form.Accepts (k : UInt32) : Form → Prop
  | .loadWord => k = Field.nr.offset ∨ k = Field.arch.offset
  | .ret => k = Verdict.trace.code ∨ k = Verdict.allow.code
  | .rsh => k < 32
  | _ => True

namespace Instruction

/-- The instructions that a filter may hold: exactly the codes of the forms, no
    bit of which is ignored, with constants that suit them. -/
def Permitted (insn : Instruction) : Prop :=
  ∃ form : Form, insn.code = form.code ∧ form.Accepts insn.k

theorem permitted_load (field : Field) : (load field).Permitted := by
  refine ⟨.loadWord, rfl, ?_⟩
  cases field with
  | nr => exact .inl rfl
  | arch => exact .inr rfl

theorem permitted_ret {verdict : Verdict} (hverdict : verdict ≠ .kill) :
    (ret verdict).Permitted := by
  refine ⟨.ret, rfl, ?_⟩
  cases verdict with
  | kill => exact absurd rfl hverdict
  | trace => exact .inl rfl
  | allow => exact .inr rfl

theorem Permitted.exists_operation {insn : Instruction} (hpermitted : insn.Permitted) :
    ∃ operation, insn.operation = .ok operation := by
  obtain ⟨form, hcode, haccepts⟩ := hpermitted
  rw [operation_of_code form hcode]
  cases form with
  | loadWord =>
    rcases haccepts with hnr | harch
    · exact ⟨.load .nr, by simp [Form.operation, hnr]⟩
    · exact ⟨.load .arch, by simp [Form.operation, harch, Field.offset]⟩
  | _ => exact ⟨_, rfl⟩

/-- A permitted instruction that returns, traces or allows the call. -/
theorem Permitted.ret_cases {insn : Instruction} (hpermitted : insn.Permitted) {k : UInt32}
    (hret : insn.operation = .ok (.ret k)) : k = Verdict.trace.code ∨ k = Verdict.allow.code := by
  obtain ⟨form, hcode, haccepts⟩ := hpermitted
  rw [operation_of_code form hcode] at hret
  cases form with
  | ret =>
    cases hret
    exact haccepts
  | loadWord =>
    rw [Form.operation] at hret
    split at hret
    · cases hret
    · split at hret <;> cases hret
  | _ => cases hret

end Instruction

/-- The structural rules that a kernel has for a filter program, its length
    aside. -/
structure Accepted (code : List Instruction) : Prop where
  /-- The program is not empty and ends in a return. -/
  returns : ∃ verdict : Verdict, code.getLast? = some (.ret verdict)
  permitted : ∀ insn ∈ code, insn.Permitted
  inside : ∀ position insn, code[position]? = some insn →
    ∀ offset ∈ insn.offsets, position + 1 + offset < code.length

/-- An accepted program traces or allows every call; it neither faults nor kills. -/
theorem Accepted.run_cases {code : List Instruction} (haccepted : Accepted code) (datum : Datum) :
    run code datum = .ok Verdict.trace.code ∨ run code datum = .ok Verdict.allow.code := by
  obtain ⟨verdict, hverdict⟩ := haccepted.returns
  have hnonempty : 0 < code.length := by
    apply List.length_pos_iff.mpr
    rintro rfl
    cases hverdict
  obtain ⟨insn, hinsn, k, hret, hrun⟩ := exists_ret_of_jumpsWithin
    (fun insn hinsn => (haccepted.permitted insn hinsn).exists_operation) haccepted.inside
    (fun insn hlast => by
      rw [hverdict] at hlast
      cases hlast
      exact ⟨_, Instruction.operation_ret verdict⟩)
    datum 0 {} hnonempty
  rw [run, hrun]
  rcases (haccepted.permitted insn hinsn).ret_cases hret with rfl | rfl
  · exact .inl rfl
  · exact .inr rfl

end SyscallFilter
