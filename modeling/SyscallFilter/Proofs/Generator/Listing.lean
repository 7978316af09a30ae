import SyscallFilter.Generator
import SyscallFilter.Proofs.Abi
import SyscallFilter.Proofs.Draft.Sections
import SyscallFilter.Proofs.Instruction.Rendering
import SyscallFilter.Proofs.Section.Symbolic

namespace SyscallFilter

/-- The instruction has a form, and the fields that the text of the form leaves
    out are zero. -/
def Instruction.HidesNothing (insn : Instruction) : Prop :=
  ∃ form : Form, insn.code = form.code ∧ (form.showsConstant = false → insn.k = 0) ∧
    (form.showsOffsets = false → insn.jt = 0 ∧ insn.jf = 0)

theorem Instruction.HidesNothing.exists_form {insn : Instruction} (hinsn : insn.HidesNothing) :
    ∃ form, Form.ofCode? insn.code = some form := by
  obtain ⟨form, hcode, _⟩ := hinsn
  exact ⟨form, by rw [hcode, Form.ofCode?_code]⟩

/-- Instructions that hide nothing are told apart by their texts. -/
theorem Instruction.HidesNothing.eq_of_looksLike {insn other : Instruction}
    (hinsn : insn.HidesNothing) (hother : other.HidesNothing) (hlooks : insn.LooksLike other) :
    insn = other := by
  obtain ⟨form, hform, hconstant, hoffsets⟩ := hinsn
  obtain ⟨otherForm, hotherForm, hotherConstant, hotherOffsets⟩ := hother
  obtain ⟨hcode, hfields⟩ := hlooks
  rw [hform, Form.ofCode?_code] at hfields
  have hsame : otherForm = form := by
    have hforms := Form.ofCode?_code otherForm
    rw [← hotherForm, ← hcode, hform, Form.ofCode?_code] at hforms
    exact (Option.some.inj hforms).symm
  subst otherForm
  have hk : insn.k = other.k := by
    cases hshows : form.showsConstant with
    | true => exact hfields.1 hshows
    | false => rw [hconstant hshows, hotherConstant hshows]
  have hjumps : insn.jt = other.jt ∧ insn.jf = other.jf := by
    cases hshows : form.showsOffsets with
    | true => exact hfields.2 hshows
    | false =>
      obtain ⟨hjt, hjf⟩ := hoffsets hshows
      obtain ⟨hotherJt, hotherJf⟩ := hotherOffsets hshows
      exact ⟨hjt.trans hotherJt.symm, hjf.trans hotherJf.symm⟩
  exact Instruction.mk.injEq .. ▸ ⟨hcode, hjumps.1, hjumps.2, hk⟩

/-- The line becomes an instruction that hides nothing. -/
def Line.HidesNothing : Line → Prop
  | .stmt insn => insn.HidesNothing
  | .branch code _ _ _ => ∃ test, Test.ofCode? code = some test
  | .always _ => True

section Lines

variable (k : UInt32) (jt jf target : Target)

@[simp] theorem Line.hidesNothing_jeq : (Line.branch Opcode.jeq k jt jf).HidesNothing :=
  ⟨.equal, rfl⟩

@[simp] theorem Line.hidesNothing_jge : (Line.branch Opcode.jge k jt jf).HidesNothing :=
  ⟨.atLeast, rfl⟩

@[simp] theorem Line.hidesNothing_jset : (Line.branch Opcode.jset k jt jf).HidesNothing :=
  ⟨.anyBit, rfl⟩

@[simp] theorem Line.hidesNothing_always : (Line.always target).HidesNothing :=
  trivial

/-- A plain instruction with the code of a form. -/
theorem Line.hidesNothing_stmt (form : Form) (hconstant : form.showsConstant = false → k = 0) :
    (Line.stmt (.stmt form.code k)).HidesNothing :=
  ⟨form, rfl, hconstant, fun _ => ⟨rfl, rfl⟩⟩

@[simp] theorem Line.hidesNothing_load (field : Field) : (Line.stmt (.load field)).HidesNothing :=
  hidesNothing_stmt field.offset .loadWord nofun

end Lines

theorem Line.HidesNothing.resolve {line : Line} (hline : line.HidesNothing) (following : Nat) :
    (line.resolve following).HidesNothing := by
  cases line with
  | stmt insn => exact hline
  | branch code k jt jf =>
    obtain ⟨test, htest⟩ := hline
    refine ⟨test.form, Test.code_form htest, ?_, ?_⟩
    · cases test <;> nofun
    · cases test <;> nofun
  | always target => exact ⟨.ja, rfl, nofun, fun _ => ⟨rfl, rfl⟩⟩

theorem Instruction.hidesNothing_ret (verdict : Verdict) : (ret verdict).HidesNothing :=
  ⟨.ret, rfl, nofun, fun _ => ⟨rfl, rfl⟩⟩

theorem Section.hidesNothing_resolve {lines : Section}
    (hlines : ∀ line ∈ lines, line.HidesNothing) : ∀ insn ∈ lines.resolve, insn.HidesNothing := by
  induction lines with
  | nil => simp [Section.resolve, Instruction.hidesNothing_ret]
  | cons line rest ih =>
    obtain ⟨hline, hrest⟩ := List.forall_mem_cons.mp hlines
    exact List.forall_mem_cons.mpr ⟨hline.resolve _, ih hrest⟩

theorem Section.hidesNothing_preamble (abi : Abi) :
    ∀ line ∈ Section.preamble abi, line.HidesNothing := by
  unfold preamble
  split
  · simp
  · simp

/-- A complete program hides nothing if the bodies of its sections do not. -/
theorem Draft.hidesNothing_ofSections {table : AbiTable} {body : Abi → Nat → Section}
    (hbody : ∀ abi index, ∀ line ∈ body abi index, line.HidesNothing)
    (hfits : (ofSections table body).overflow = false) :
    ∀ insn ∈ (ofSections table body).code, insn.HidesNothing := by
  rw [(ofSections_of_not_overflow hfits).1, codeOf, List.forall_mem_cons, List.forall_mem_append,
    List.forall_mem_singleton]
  refine ⟨Line.hidesNothing_load .arch, ?_, Instruction.hidesNothing_ret .trace⟩
  intro insn hinsn
  obtain ⟨entry, _, hinsn⟩ := List.mem_flatMap.mp hinsn
  apply Section.hidesNothing_resolve _ insn hinsn
  exact List.forall_mem_append.mpr ⟨Section.hidesNothing_preamble _, hbody _ _⟩

theorem RangeTest.hidesNothing_body (policy : TracePolicy) (abi : Abi) (index : Nat) :
    ∀ line ∈ body policy abi index, line.HidesNothing := by
  have hcompare (run : Run) : ∀ line ∈ compare abi run, line.HidesNothing := by
    unfold compare
    dsimp only
    split
    · simp
    · simp
  rw [body, List.forall_mem_append, List.forall_mem_singleton]
  refine ⟨?_, Line.hidesNothing_jge _ _ _⟩
  intro line hline
  obtain ⟨run, _, hline⟩ := List.mem_flatMap.mp hline
  exact hcompare run line hline

theorem MaskTest.hidesNothing_body (policy : TracePolicy) (abi : Abi) (index : Nat) :
    ∀ line ∈ body policy abi index, line.HidesNothing := by
  have hcompare (block mask : UInt32) : ∀ line ∈ compare block mask, line.HidesNothing := by
    have htxa := Line.hidesNothing_stmt 0 .txa fun _ => rfl
    unfold compare
    split
    · simp
    · split
      · simp
      · simp only [List.forall_mem_cons]
        exact ⟨by simp, htxa, by simp, by simp⟩
  have hand (k : UInt32) := Line.hidesNothing_stmt k .and nofun
  have htax := Line.hidesNothing_stmt 0 .tax fun _ => rfl
  have hloadBit : ∀ line ∈ loadBit, line.HidesNothing := by
    have himm := Line.hidesNothing_stmt 1 .loadImm nofun
    have hlsh := Line.hidesNothing_stmt 0 .lsh fun _ => rfl
    simp only [loadBit, List.forall_mem_cons]
    exact ⟨hand _, htax, himm, hlsh, htax, nofun⟩
  have hloadBlock : ∀ line ∈ loadBlock abi, line.HidesNothing := by
    have hnr := Line.hidesNothing_load .nr
    have hrsh := List.forall_mem_singleton.mpr (Line.hidesNothing_stmt 5 .rsh nofun)
    unfold loadBlock
    split
    · exact List.forall_mem_cons.mpr ⟨hnr, hrsh⟩
    · exact List.forall_mem_cons.mpr ⟨hnr, List.forall_mem_cons.mpr ⟨hand _, hrsh⟩⟩
  rw [body, List.forall_mem_append, List.forall_mem_append, List.forall_mem_append,
    List.forall_mem_singleton]
  refine ⟨⟨⟨hloadBit, hloadBlock⟩, ?_⟩, Line.hidesNothing_always _⟩
  intro line hline
  obtain ⟨block, _, hline⟩ := List.mem_flatMap.mp hline
  exact hcompare _ _ line hline

/-- In a listing the position of a line says which instruction it is of. -/
theorem getElem?_listing (code : List Instruction) (position : Nat) :
    (listing code)[position]? =
      code[position]?.map fun insn => s!"{Numeral.padded 4 position}: {insn.text}" := by
  rw [listing, List.getElem?_map, List.getElem?_zipIdx, Option.map_map, Nat.zero_add]
  rfl

/-- Programs that hide nothing are told apart by their listings. -/
theorem eq_of_listing_eq {code other : List Instruction}
    (hcode : ∀ insn ∈ code, insn.HidesNothing) (hother : ∀ insn ∈ other, insn.HidesNothing)
    (hlisting : listing code = listing other) : code = other := by
  apply List.ext_getElem?
  intro position
  have hlines := congrArg (·[position]?) hlisting
  rw [getElem?_listing, getElem?_listing] at hlines
  cases hinsn : code[position]? with
  | none =>
    rw [hinsn, Option.map_none, eq_comm, Option.map_eq_none_iff] at hlines
    rw [hlines]
  | some insn =>
    rw [hinsn, Option.map_some, eq_comm, Option.map_eq_some_iff] at hlines
    obtain ⟨found, hfound, hline⟩ := hlines
    have htext : insn.text = found.text := by
      simpa [toString] using hline.symm
    rw [hfound, (hcode insn (List.mem_of_getElem? hinsn)).eq_of_looksLike
      (hother found (List.mem_of_getElem? hfound)) (Instruction.text_eq_iff.mp htext)]

namespace Generator

theorem hidesNothing_draft {generator : Generator} (hgenerator : generator ∈ all) {table : AbiTable}
    {policy : TracePolicy} (hfits : (generator.draft table policy).overflow = false) :
    ∀ insn ∈ (generator.draft table policy).code, insn.HidesNothing := by
  simp only [all, List.mem_cons, List.not_mem_nil, or_false] at hgenerator
  rcases hgenerator with rfl | rfl
  · exact Draft.hidesNothing_ofSections (RangeTest.hidesNothing_body policy) hfits
  · exact Draft.hidesNothing_ofSections (MaskTest.hidesNothing_body policy) hfits

/-- A text identifies an instruction up to the fields that its code leaves out. In
    the programs of the generators these are zero and every code has a form, so a
    listing, line by line, identifies the program, whichever generator, table and
    policy it comes from. -/
theorem listing_identifies_draft :
    (∀ insn other : Instruction, insn.text = other.text ↔ insn.LooksLike other) ∧
    ∀ generator ∈ all, ∀ table policy, (generator.draft table policy).overflow = false →
      (∀ insn ∈ (generator.draft table policy).code,
        ¬"raw code=0x".toList <+: insn.text.toList) ∧
      ∀ other ∈ all, ∀ otherTable otherPolicy,
        (other.draft otherTable otherPolicy).overflow = false →
        listing (generator.draft table policy).code =
          listing (other.draft otherTable otherPolicy).code →
        (generator.draft table policy).code = (other.draft otherTable otherPolicy).code := by
  refine ⟨fun _ _ => Instruction.text_eq_iff, ?_⟩
  intro generator hgenerator table policy hfits
  have hcode := hidesNothing_draft hgenerator hfits
  refine ⟨?_, ?_⟩
  · intro insn hinsn hraw
    obtain ⟨form, hform⟩ := (hcode insn hinsn).exists_form
    rw [Instruction.lead_none_isPrefix_text_iff.mp hraw] at hform
    cases hform
  · intro other hother otherTable otherPolicy hotherFits hlisting
    exact eq_of_listing_eq hcode (hidesNothing_draft hother hotherFits) hlisting

/-- Two numbers of an ABI are selected, or special under another name of it. Both
    fill the same masks. -/
theorem listing_identifies_draft_renamed :
    let table : AbiTable := [⟨"arm", Arch.arm, 0, 40⟩]
    let policy : TracePolicy := ⟨#[⟨40, NumberSet.empty.insertRange 3 4, []⟩], false⟩
    let renamed : AbiTable := [⟨"eabi", Arch.arm, 0, 40⟩]
    let special : TracePolicy :=
      ⟨#[⟨40, .empty, [(3, .alwaysTraced), (4, .indirectSubcall)]⟩], false⟩
    (maskTest ∈ all ∧ (maskTest.draft table policy).overflow = false ∧
      (maskTest.draft renamed special).overflow = false ∧
      listing (maskTest.draft table policy).code = listing (maskTest.draft renamed special).code) ∧
    (∀ insn ∈ (maskTest.draft table policy).code, ¬"raw code=0x".toList <+: insn.text.toList) ∧
      (maskTest.draft table policy).code = (maskTest.draft renamed special).code := by
  intro table policy renamed special
  have hmember : maskTest ∈ all := .tail _ (.head _)
  have hfits : (maskTest.draft table policy).overflow = false := by decide +kernel
  have hspecial : (maskTest.draft renamed special).overflow = false := by decide +kernel
  have hlisting : listing (maskTest.draft table policy).code =
      listing (maskTest.draft renamed special).code := by decide +kernel
  obtain ⟨hnone, hsame⟩ := listing_identifies_draft.2 maskTest hmember table policy hfits
  exact ⟨⟨hmember, hfits, hspecial, hlisting⟩, hnone,
    hsame maskTest hmember renamed special hspecial hlisting⟩

end Generator

end SyscallFilter
