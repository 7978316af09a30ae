import SyscallFilter.Proofs.Instruction.Permitted
import SyscallFilter.Proofs.Section.Flow

namespace SyscallFilter

/-- The target lies in the section or right behind it. -/
def Target.Inside (following : Nat) (target : Target) : Prop :=
  target.distance following ≤ following + 2

@[simp] theorem Target.inside_next (following : Nat) : Inside following .next :=
  Nat.le_refl _

@[simp] theorem Target.inside_trace (following : Nat) : Inside following .trace :=
  Nat.le_succ _

@[simp] theorem Target.inside_allow (following : Nat) : Inside following .allow :=
  Nat.le_add_right _ 2

@[simp] theorem Target.inside_skip (following : Nat) (lines : UInt8) :
    Inside following (.skip lines) ↔ lines.toNat ≤ following + 2 := Iff.rfl

/-- The line becomes a permitted instruction that does not jump out of reach. -/
def Line.WellFormed (following : Nat) : Line → Prop
  | .stmt insn => insn.Permitted ∧ insn.offsets = []
  | .branch code _ jt jf =>
    (∃ test, Test.ofCode? code = some test) ∧ jt.Inside following ∧ jf.Inside following
  | .always target => target.Inside following

section Lines

variable (following : Nat) (k : UInt32) (jt jf target : Target)

private theorem Line.wellFormed_branch {code : UInt16} (test : Test)
    (htest : Test.ofCode? code = some test) :
    (Line.branch code k jt jf).WellFormed following ↔ jt.Inside following ∧ jf.Inside following :=
  and_iff_right ⟨test, htest⟩

@[simp] theorem Line.wellFormed_jeq :
    (Line.branch Opcode.jeq k jt jf).WellFormed following ↔
      jt.Inside following ∧ jf.Inside following :=
  wellFormed_branch following k jt jf .equal rfl

@[simp] theorem Line.wellFormed_jge :
    (Line.branch Opcode.jge k jt jf).WellFormed following ↔
      jt.Inside following ∧ jf.Inside following :=
  wellFormed_branch following k jt jf .atLeast rfl

@[simp] theorem Line.wellFormed_jset :
    (Line.branch Opcode.jset k jt jf).WellFormed following ↔
      jt.Inside following ∧ jf.Inside following :=
  wellFormed_branch following k jt jf .anyBit rfl

@[simp] theorem Line.wellFormed_always :
    (Line.always target).WellFormed following ↔ target.Inside following := Iff.rfl

@[simp] theorem Line.wellFormed_load (field : Field) :
    (Line.stmt (.load field)).WellFormed following :=
  ⟨Instruction.permitted_load field,
    Instruction.offsets_of_operation (Instruction.operation_load field)⟩

/-- A plain instruction with the code of a form that does not jump. -/
theorem Line.wellFormed_stmt (form : Form) (haccepts : form.Accepts k)
    (hplain : ∀ insn operation, form.operation insn = .ok operation → operation.offsets = []) :
    (Line.stmt (.stmt form.code k)).WellFormed following := by
  have hpermitted : (Instruction.stmt form.code k).Permitted := ⟨form, rfl, haccepts⟩
  refine ⟨hpermitted, ?_⟩
  obtain ⟨operation, hoperation⟩ := hpermitted.exists_operation
  rw [Instruction.offsets_of_operation hoperation]
  rw [Instruction.operation_of_code form rfl] at hoperation
  exact hplain _ _ hoperation

end Lines

theorem Line.WellFormed.resolve {following : Nat} {line : Line}
    (hline : line.WellFormed following) (hfits : following + 2 ≤ Section.maxSize) :
    (line.resolve following).Permitted ∧
      ∀ offset ∈ (line.resolve following).offsets, offset ≤ following + 2 := by
  cases line with
  | stmt insn =>
    obtain ⟨hpermitted, hplain⟩ := hline
    exact ⟨hpermitted, by simp [Line.resolve, hplain]⟩
  | branch code k jt jf =>
    obtain ⟨⟨test, htest⟩, hjt, hjf⟩ := hline
    have hoperation := Instruction.operation_jump htest k (jt.offset following) (jf.offset following)
    refine ⟨⟨test.form, Test.code_form htest, by cases test <;> trivial⟩, ?_⟩
    intro offset hoffset
    rw [Line.resolve, Instruction.offsets_of_operation hoperation] at hoffset
    simp only [Operation.offsets, Target.toNat_offset hfits, List.mem_cons, List.not_mem_nil,
      or_false] at hoffset
    rcases hoffset with rfl | rfl
    · exact hjt
    · exact hjf
  | always target =>
    refine ⟨⟨.ja, rfl, trivial⟩, ?_⟩
    intro offset hoffset
    rw [Line.resolve, Instruction.offsets_of_operation (Instruction.operation_ja _ _ _)] at hoffset
    simp only [Operation.offsets, UInt8.toNat_toUInt32, Target.toNat_offset hfits,
      List.mem_singleton] at hoffset
    subst offset
    exact hline

namespace Section

/-- Every line of the section is well formed where it stands. -/
def WellFormed : Section → Prop
  | [] => True
  | line :: rest => line.WellFormed rest.length ∧ WellFormed rest

@[simp] theorem wellFormed_cons (line : Line) (rest : Section) :
    WellFormed (line :: rest) ↔ line.WellFormed rest.length ∧ WellFormed rest := Iff.rfl

theorem WellFormed.flatMap {α : Type} {piece : α → Section}
    (hpiece : ∀ x rest, WellFormed rest → WellFormed (piece x ++ rest)) (members : List α)
    {rest : Section} (hrest : rest.WellFormed) : WellFormed (members.flatMap piece ++ rest) := by
  induction members with
  | nil => exact hrest
  | cons x later ih =>
    rw [List.flatMap_cons, List.append_assoc]
    exact hpiece x _ ih

theorem WellFormed.preamble (abi : Abi) {body : Section} (hbody : body.WellFormed) :
    WellFormed (Section.preamble abi ++ body) := by
  by_cases hflag : abi.flag = 0
  · simp [Section.preamble, hflag, hbody]
  · simp [Section.preamble, hflag, hbody]

/-- The instructions of a well-formed section of the right size are permitted,
    and no jump among them leads further than to the section behind. -/
theorem WellFormed.resolve {lines : Section} (hlines : lines.WellFormed)
    (hfits : lines.size ≤ maxSize) :
    (∀ insn ∈ lines.resolve, insn.Permitted) ∧ JumpsWithin 1 lines.resolve := by
  induction lines with
  | nil =>
    have hret (verdict : Verdict) : (Instruction.ret verdict).offsets = [] :=
      Instruction.offsets_of_operation (Instruction.operation_ret verdict)
    refine ⟨?_, ?_⟩
    · intro insn hinsn
      simp only [Section.resolve, List.mem_cons, List.not_mem_nil, or_false] at hinsn
      rcases hinsn with rfl | rfl
      · exact Instruction.permitted_ret (by decide)
      · exact Instruction.permitted_ret (by decide)
    · simp [Section.resolve, jumpsWithin_cons, jumpsWithin_nil, hret]
  | cons line rest ih =>
    obtain ⟨hline, hrest⟩ := hlines
    have hrestFits : size rest ≤ maxSize := by
      simp only [size, List.length_cons] at hfits ⊢
      omega
    obtain ⟨hpermitted, hoffsets⟩ := hline.resolve hrestFits
    obtain ⟨hlater, hjumps⟩ := ih hrest hrestFits
    refine ⟨?_, ?_⟩
    · intro insn hinsn
      cases hinsn with
      | head => exact hpermitted
      | tail _ hinsn => exact hlater insn hinsn
    · refine jumpsWithin_cons.mpr ⟨?_, hjumps⟩
      intro offset hoffset
      have hle := hoffsets offset hoffset
      rw [length_resolve, size]
      omega

end Section

end SyscallFilter
