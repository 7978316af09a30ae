import SyscallFilter.Instruction.Listing
import SyscallFilter.Proofs.Text.Figures

namespace SyscallFilter

open Numeral (figures)

/-- The text of the form says what the constant is. -/
def Form.showsConstant : Form → Bool
  | .lsh | .tax | .txa => false
  | _ => true

/-- The text of the form says what the two offsets are. -/
def Form.showsOffsets : Form → Bool
  | .jeq | .jge | .jset => true
  | _ => false

namespace Instruction

/-- The instructions have the same code and agree on the fields that the text of
    this code shows. A code that is no form shows all. -/
def LooksLike (insn other : Instruction) : Prop :=
  insn.code = other.code ∧
    match Form.ofCode? insn.code with
    | some form =>
      (form.showsConstant = true → insn.k = other.k) ∧
        (form.showsOffsets = true → insn.jt = other.jt ∧ insn.jf = other.jf)
    | none => insn.k = other.k ∧ insn.jt = other.jt ∧ insn.jf = other.jf

/-- How the text of a form, or of a code that is none, begins. -/
def lead : Option Form → String
  | some .loadWord => "ld ["
  | some .loadImm => "ld #0x"
  | some .ret => "ret "
  | some .jeq => "jeq #0x"
  | some .jge => "jge #0x"
  | some .jset => "jset #0x"
  | some .ja => "ja +"
  | some .and => "and #0x"
  | some .lsh => "lsh x"
  | some .rsh => "rsh #"
  | some .tax => "tax"
  | some .txa => "txa"
  | none => "raw code=0x"

/-- How a load names its offset: by the field there, if there is one. -/
def wordName (k : UInt32) : List Char :=
  if k = Field.arch.offset then "arch".toList
  else if k = Field.nr.offset then "nr".toList
  else figures 10 0 k.toNat

/-- How a return names its constant: as the verdict, if it is one. -/
def returnName (k : UInt32) : List Char :=
  match Verdict.ofCode? k with
  | some verdict => verdict.name.toList
  | none => '#' :: '0' :: 'x' :: figures 16 0 k.toNat

/-- What follows the lead. -/
def operands (insn : Instruction) : Option Form → List Char
  | some .loadWord => wordName insn.k ++ [']']
  | some .ret => returnName insn.k
  | some .loadImm | some .and => figures 16 0 insn.k.toNat
  | some .ja | some .rsh => figures 10 0 insn.k.toNat
  | some .jeq | some .jge | some .jset =>
    figures 16 0 insn.k.toNat ++ ',' :: (" jt ".toList ++ (figures 10 0 insn.jt.toNat ++
      ',' :: (" jf ".toList ++ figures 10 0 insn.jf.toNat)))
  | some .lsh | some .tax | some .txa => []
  | none =>
    figures 16 (4 - (Nat.toDigits 16 insn.code.toNat).length) insn.code.toNat ++
      ' ' :: ("jt=".toList ++ (figures 10 0 insn.jt.toNat ++
        ' ' :: ("jf=".toList ++ (figures 10 0 insn.jf.toNat ++
          ' ' :: ("k=0x".toList ++ figures 16 0 insn.k.toNat)))))

theorem toList_text (insn : Instruction) :
    insn.text.toList =
      (lead (Form.ofCode? insn.code)).toList ++ insn.operands (Form.ofCode? insn.code) := by
  rw [text]
  cases Form.ofCode? insn.code with
  | none => simp [lead, operands, Numeral.toList_hex, Numeral.figures_zero, toString]
  | some form =>
    cases form with
    | loadWord =>
      simp only [lead, operands, wordText, wordName]
      split
      · rfl
      · split
        · rfl
        · simp [Numeral.figures_zero, toString]
    | ret =>
      simp only [lead, operands, returnText, returnName]
      cases Verdict.ofCode? insn.k with
      | none => simp [Numeral.toList_hex, toString]
      | some verdict => simp [toString]
    | _ => simp [lead, operands, branchText, Numeral.toList_hex, Numeral.figures_zero, toString]

/-- No lead begins another, so a text has one lead only. -/
theorem eq_of_lead_isPrefix {form other : Option Form}
    (hbegins : (lead form).toList <+: (lead other).toList) : form = other := by
  have hmem (form : Option Form) : form ∈ none :: Form.all.map some := by
    cases form with
    | none => exact List.mem_cons_self
    | some form => cases form <;> decide
  have hleads : ∀ form ∈ none :: Form.all.map some, ∀ other ∈ none :: Form.all.map some,
      (lead form).toList <+: (lead other).toList → form = other := by decide
  exact hleads form (hmem form) other (hmem other) hbegins

theorem form_eq_of_lead_append_eq {form other : Option Form} {later later' : List Char}
    (heq : (lead form).toList ++ later = (lead other).toList ++ later') :
    form = other ∧ later = later' := by
  have hform : form = other := by
    rcases List.prefix_or_prefix_of_prefix (List.prefix_append _ later)
      (heq ▸ List.prefix_append _ later') with hbegins | hbegins
    · exact eq_of_lead_isPrefix hbegins
    · exact (eq_of_lead_isPrefix hbegins).symm
  subst other
  exact ⟨rfl, List.append_cancel_left heq⟩

/-- The offset of which this is the name. -/
def wordOf (name : List Char) : UInt32 :=
  if name = "arch".toList then Field.arch.offset
  else if name = "nr".toList then Field.nr.offset
  else UInt32.ofNat (Numeral.valueOf 10 name)

/-- The constant of which this is the name. -/
def returnOf (name : List Char) : UInt32 :=
  match [Verdict.kill, Verdict.trace, Verdict.allow].find? (·.name.toList = name) with
  | some verdict => verdict.code
  | none => UInt32.ofNat (Numeral.valueOf 16 (name.drop 3))

/-- The names of the fields hold letters that no number holds. -/
theorem wordOf_wordName (k : UInt32) : wordOf (wordName k) = k := by
  have hletter : 'r' ∉ figures 10 0 k.toNat := fun hmem =>
    absurd (Numeral.isFigure_of_mem_figures (by decide) (by decide) 'r' hmem) (by decide)
  unfold wordName
  split
  · rename_i harch
    exact harch.symm
  · split
    · rename_i hnr
      exact hnr.symm
    · have harch : figures 10 0 k.toNat ≠ "arch".toList := fun heq =>
        hletter (by rw [heq]; decide)
      have hnr : figures 10 0 k.toNat ≠ "nr".toList := fun heq =>
        hletter (by rw [heq]; decide)
      rw [wordOf, if_neg harch, if_neg hnr, Numeral.valueOf_figures (by decide) (by decide),
        UInt32.ofNat_toNat]

theorem returnOf_returnName (k : UInt32) : returnOf (returnName k) = k := by
  unfold returnName
  cases hverdict : Verdict.ofCode? k with
  | some verdict =>
    have hcode : verdict.code = k := by simpa using List.find?_some hverdict
    rw [← hcode]
    cases verdict <;> rfl
  | none =>
    have hnone : [Verdict.kill, Verdict.trace, Verdict.allow].find?
        (·.name.toList = '#' :: '0' :: 'x' :: figures 16 0 k.toNat) = none := by
      simp [Verdict.name]
    simp only [returnOf, hnone, List.drop_succ_cons, List.drop_zero]
    rw [Numeral.valueOf_figures (by decide) (by decide), UInt32.ofNat_toNat]

section Fields

variable {insn other : Instruction}

theorem k_eq_of_figures_eq {base : Nat} (hbase : 1 < base) (hfigures : base ≤ 16)
    (heq : figures base 0 insn.k.toNat = figures base 0 other.k.toNat) : insn.k = other.k :=
  UInt32.toNat_inj.mp (Numeral.eq_of_figures_eq hbase hfigures heq)

/-- The operands of a form determine the fields that it shows. -/
theorem fields_of_operands_eq {form : Form}
    (heq : insn.operands (some form) = other.operands (some form)) :
    (form.showsConstant = true → insn.k = other.k) ∧
      (form.showsOffsets = true → insn.jt = other.jt ∧ insn.jf = other.jf) := by
  cases form with
  | loadWord =>
    have hk := congrArg wordOf (List.append_cancel_right heq)
    rw [wordOf_wordName, wordOf_wordName] at hk
    exact ⟨fun _ => hk, nofun⟩
  | ret =>
    have hk := congrArg returnOf heq
    rw [operands, operands, returnOf_returnName, returnOf_returnName] at hk
    exact ⟨fun _ => hk, nofun⟩
  | loadImm | and => exact ⟨fun _ => k_eq_of_figures_eq (by decide) (by decide) heq, nofun⟩
  | ja | rsh => exact ⟨fun _ => k_eq_of_figures_eq (by decide) (by decide) heq, nofun⟩
  | lsh | tax | txa => exact ⟨nofun, nofun⟩
  | jeq | jge | jset =>
    obtain ⟨hk, hoffsets⟩ :=
      Numeral.eq_of_figures_append_eq (by decide) (by decide) (by decide) heq
    obtain ⟨hjt, hrest⟩ := Numeral.eq_of_figures_append_eq (by decide) (by decide) (by decide)
      (List.append_cancel_left hoffsets)
    have hjf := Numeral.eq_of_figures_eq (by decide) (by decide) (List.append_cancel_left hrest)
    refine ⟨fun _ => UInt32.toNat_inj.mp hk, fun _ => ?_⟩
    exact ⟨UInt8.toNat_inj.mp hjt, UInt8.toNat_inj.mp hjf⟩

/-- Without a form the operands determine all fields. -/
theorem fields_of_operands_none_eq (heq : insn.operands none = other.operands none) :
    insn.code = other.code ∧ insn.k = other.k ∧ insn.jt = other.jt ∧ insn.jf = other.jf := by
  obtain ⟨hcode, hoffsets⟩ :=
    Numeral.eq_of_figures_append_eq (by decide) (by decide) (by decide) heq
  obtain ⟨hjt, hrest⟩ := Numeral.eq_of_figures_append_eq (by decide) (by decide) (by decide)
    (List.append_cancel_left hoffsets)
  obtain ⟨hjf, hconstant⟩ := Numeral.eq_of_figures_append_eq (by decide) (by decide) (by decide)
    (List.append_cancel_left hrest)
  have hk := Numeral.eq_of_figures_eq (by decide) (by decide) (List.append_cancel_left hconstant)
  exact ⟨UInt16.toNat_inj.mp hcode, UInt32.toNat_inj.mp hk, UInt8.toNat_inj.mp hjt,
    UInt8.toNat_inj.mp hjf⟩

theorem LooksLike.operands_eq (hlooks : insn.LooksLike other) :
    insn.operands (Form.ofCode? insn.code) = other.operands (Form.ofCode? insn.code) := by
  obtain ⟨hcode, hfields⟩ := hlooks
  cases hform : Form.ofCode? insn.code with
  | none =>
    simp only [hform] at hfields
    obtain ⟨hk, hjt, hjf⟩ := hfields
    simp only [operands, hcode, hk, hjt, hjf]
  | some form =>
    simp only [hform] at hfields
    obtain ⟨hconstant, hoffsets⟩ := hfields
    cases form with
    | lsh | tax | txa => rfl
    | jeq | jge | jset =>
      obtain ⟨hjt, hjf⟩ := hoffsets rfl
      simp only [operands, hconstant rfl, hjt, hjf]
    | _ => simp only [operands, hconstant rfl]

/-- Two instructions have the same text exactly if they have the same code and
    agree on the fields that it shows. -/
theorem text_eq_iff : insn.text = other.text ↔ insn.LooksLike other := by
  constructor
  · intro heq
    have hchars := congrArg String.toList heq
    rw [toList_text, toList_text] at hchars
    obtain ⟨hform, hoperands⟩ := form_eq_of_lead_append_eq hchars
    cases hother : Form.ofCode? other.code with
    | none =>
      rw [hform, hother] at hoperands
      rw [LooksLike, hform, hother]
      exact fields_of_operands_none_eq hoperands
    | some form =>
      rw [hform, hother] at hoperands
      have hcode : insn.code = other.code := by
        rw [← Form.code_of_ofCode? hother, Form.code_of_ofCode? (hform.trans hother)]
      rw [LooksLike, hform, hother]
      exact ⟨hcode, fields_of_operands_eq hoperands⟩
  · intro hlooks
    apply String.toList_inj.mp
    rw [toList_text, toList_text, ← hlooks.1, hlooks.operands_eq]

end Fields

/-- Only a text without a form begins like this. -/
theorem lead_none_isPrefix_text_iff {insn : Instruction} :
    (lead none).toList <+: insn.text.toList ↔ Form.ofCode? insn.code = none := by
  constructor
  · rintro ⟨later, hlater⟩
    rw [toList_text] at hlater
    exact (form_eq_of_lead_append_eq hlater).1.symm
  · intro hform
    rw [toList_text, hform]
    exact List.prefix_append _ _

end Instruction

end SyscallFilter
