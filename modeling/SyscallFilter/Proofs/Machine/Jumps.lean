import SyscallFilter.Machine

namespace SyscallFilter

/-- Instructions that are jumped over do not matter. -/
theorem runFrom_skip (datum : Datum) (position skip : Nat) (regs : Registers)
    (before code : List Instruction) :
    runFrom datum position (before.length + skip) regs (before ++ code) =
      runFrom datum (position + before.length) skip regs code := by
  induction before generalizing position with
  | nil => simp
  | cons insn rest ih =>
    rw [List.length_cons, Nat.add_right_comm, List.cons_append, runFrom, ih]
    congr 1
    omega

/-- How far an operation can jump, counted from the following instruction. -/
def Operation.offsets : Operation → List Nat
  | .jump offset => [offset.toNat]
  | .branch _ _ jt jf => [jt.toNat, jf.toNat]
  | _ => []

def Instruction.offsets (insn : Instruction) : List Nat :=
  match insn.operation with
  | .ok operation => operation.offsets
  | .error _ => []

theorem Instruction.offsets_of_operation {insn : Instruction} {operation : Operation}
    (hoperation : insn.operation = .ok operation) : insn.offsets = operation.offsets := by
  rw [offsets, hoperation]

/-- No jump of the code leads further than to the first `behind` instructions
    that stand behind it. Code that is never reached is not exempt. -/
def JumpsWithin (behind : Nat) (code : List Instruction) : Prop :=
  ∀ position insn, code[position]? = some insn →
    ∀ offset ∈ insn.offsets, position + 1 + offset < code.length + behind

theorem jumpsWithin_nil (behind : Nat) : JumpsWithin behind [] := by
  intro position insn hinsn
  simp at hinsn

theorem jumpsWithin_cons {behind : Nat} {insn : Instruction} {rest : List Instruction} :
    JumpsWithin behind (insn :: rest) ↔
      (∀ offset ∈ insn.offsets, offset < rest.length + behind) ∧ JumpsWithin behind rest := by
  constructor
  · intro hjumps
    refine ⟨?_, ?_⟩
    · intro offset hoffset
      have hlt := hjumps 0 insn rfl offset hoffset
      rw [List.length_cons] at hlt
      omega
    · intro position later hlater offset hoffset
      have hlt := hjumps (position + 1) later (by simpa using hlater) offset hoffset
      rw [List.length_cons] at hlt
      omega
  · rintro ⟨hfirst, hrest⟩ position later hlater offset hoffset
    rw [List.length_cons]
    cases position with
    | zero =>
      cases hlater
      have hlt := hfirst offset hoffset
      omega
    | succ position =>
      have hlt := hrest position later (by simpa using hlater) offset hoffset
      omega

theorem JumpsWithin.append {inner behind : Nat} {code rest : List Instruction}
    (hcode : JumpsWithin inner code) (hrest : JumpsWithin behind rest)
    (hinner : inner ≤ rest.length + behind) : JumpsWithin behind (code ++ rest) := by
  induction code with
  | nil => exact hrest
  | cons insn later ih =>
    obtain ⟨hfirst, hlater⟩ := jumpsWithin_cons.mp hcode
    rw [List.cons_append, jumpsWithin_cons]
    refine ⟨?_, ih hlater⟩
    intro offset hoffset
    have hlt := hfirst offset hoffset
    rw [List.length_append]
    omega

/-- Code whose instructions all have a meaning, whose jumps stay inside and
    which ends in a return comes to a return, wherever the run enters it. The
    invariant is that what is left to skip is shorter than what is left. -/
theorem exists_ret_of_jumpsWithin {code : List Instruction}
    (hmeans : ∀ insn ∈ code, ∃ operation, insn.operation = .ok operation)
    (hjumps : JumpsWithin 0 code)
    (hlast : ∀ insn, code.getLast? = some insn → ∃ k, insn.operation = .ok (.ret k))
    (datum : Datum) (position : Nat) {skip : Nat} (regs : Registers) (hskip : skip < code.length) :
    ∃ insn ∈ code, ∃ k, insn.operation = .ok (.ret k) ∧
      runFrom datum position skip regs code = .ok k := by
  induction code generalizing position skip regs with
  | nil => exact absurd hskip (Nat.not_lt_zero _)
  | cons insn rest ih =>
    obtain ⟨hfirst, hrest⟩ := jumpsWithin_cons.mp hjumps
    -- Whatever the instruction does, the run goes on in the rest of the code.
    have later {skip : Nat} (regs : Registers) (hskip : skip < rest.length) :
        ∃ found ∈ insn :: rest, ∃ k, found.operation = .ok (.ret k) ∧
          runFrom datum (position + 1) skip regs rest = .ok k := by
      have hends : ∀ last, rest.getLast? = some last → ∃ k, last.operation = .ok (.ret k) := by
        intro last hlastRest
        apply hlast
        simp [List.getLast?_cons, hlastRest]
      obtain ⟨found, hfound, k, hret, hrun⟩ := ih
        (fun insn hinsn => hmeans insn (List.mem_cons_of_mem _ hinsn)) hrest hends
        (position + 1) regs hskip
      exact ⟨found, List.mem_cons_of_mem _ hfound, k, hret, hrun⟩
    cases skip with
    | succ skip =>
      rw [List.length_cons] at hskip
      exact later regs (by omega)
    | zero =>
      obtain ⟨operation, hoperation⟩ := hmeans insn List.mem_cons_self
      simp only [runFrom, hoperation]
      cases hperform : operation.perform datum regs with
      | done k =>
        have hret : operation = .ret k := by
          cases operation <;> cases hperform
          rfl
        subst operation
        exact ⟨insn, List.mem_cons_self, k, hoperation, rfl⟩
      | next regs skip =>
        have hnonempty : 0 < rest.length := by
          apply List.length_pos_iff.mpr
          rintro rfl
          obtain ⟨k, hret⟩ := hlast insn rfl
          rw [hret] at hoperation
          cases hoperation
          cases hperform
        apply later regs
        rw [Instruction.offsets_of_operation hoperation] at hfirst
        cases operation with
        | jump offset =>
          cases hperform
          exact hfirst _ (by simp [Operation.offsets])
        | branch test k jt jf =>
          cases hperform
          apply hfirst
          split <;> simp [Operation.offsets]
        | ret k => cases hperform
        | _ =>
          cases hperform
          exact hnonempty

end SyscallFilter
