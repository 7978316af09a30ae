import SyscallFilter.Generator
import SyscallFilter.Proofs.Abi
import SyscallFilter.Proofs.Draft.Accepted
import SyscallFilter.Proofs.Draft.Routing

namespace SyscallFilter

open Section

namespace RangeTest

theorem wellFormed_compare (abi : Abi) (run : Run) {rest : Section} (hrest : rest.WellFormed) :
    WellFormed (compare abi run ++ rest) := by
  unfold compare
  dsimp only
  split
  · simp [hrest]
  · simp [hrest]

/-- Whatever the flag makes of the ends of the runs. -/
theorem wellFormed_body (policy : TracePolicy) (abi : Abi) (index : Nat) :
    WellFormed (body policy abi index) := by
  apply WellFormed.flatMap fun run _ => wellFormed_compare abi run
  simp [WellFormed]

end RangeTest

namespace MaskTest

theorem wellFormed_compare (block mask : UInt32) {rest : Section} (hrest : rest.WellFormed) :
    WellFormed (compare block mask ++ rest) := by
  have htxa (following : Nat) := Line.wellFormed_stmt following 0 .txa trivial
    fun _ _ hoperation => by cases hoperation; rfl
  unfold compare
  split
  · simp [hrest]
  · split
    · simp [hrest]
    · simp only [List.cons_append, List.nil_append, wellFormed_cons]
      exact ⟨by simp, htxa _, by simp, hrest⟩

theorem wellFormed_loads (abi : Abi) {rest : Section} (hrest : rest.WellFormed) :
    WellFormed (loadBit ++ loadBlock abi ++ rest) := by
  have hand (following : Nat) (k : UInt32) := Line.wellFormed_stmt following k .and trivial
    fun _ _ hoperation => by cases hoperation; rfl
  have htax (following : Nat) := Line.wellFormed_stmt following 0 .tax trivial
    fun _ _ hoperation => by cases hoperation; rfl
  have himm (following : Nat) := Line.wellFormed_stmt following 1 .loadImm trivial
    fun _ _ hoperation => by cases hoperation; rfl
  have hlsh (following : Nat) := Line.wellFormed_stmt following 0 .lsh trivial
    fun _ _ hoperation => by cases hoperation; rfl
  have hrsh (following : Nat) := Line.wellFormed_stmt following 5 .rsh
    (show (5 : UInt32) < 32 by decide) fun _ _ hoperation => by cases hoperation; rfl
  by_cases hflag : abi.flag = 0
  · rw [loadBit, loadBlock, if_pos hflag]
    exact ⟨hand _ _, htax _, himm _, hlsh _, htax _, Line.wellFormed_load _ _, hrsh _, hrest⟩
  · rw [loadBit, loadBlock, if_neg hflag]
    exact ⟨hand _ _, htax _, himm _, hlsh _, htax _, Line.wellFormed_load _ _, hand _ _, hrsh _,
      hrest⟩

/-- However many blocks the arithmetic on words comes to. -/
theorem wellFormed_body (policy : TracePolicy) (abi : Abi) (index : Nat) :
    WellFormed (body policy abi index) := by
  rw [body, List.append_assoc]
  apply wellFormed_loads
  apply WellFormed.flatMap fun block _ => wellFormed_compare block _
  simp [WellFormed]

end MaskTest

namespace Generator

/-- Every program that a generator hands over without overflow meets the rules
    of the kernel. It traces or allows every call, and it traces the calls of
    architectures that no ABI has. Nothing is assumed of the table: flags may be
    any words, and counts may make the arithmetic of the generators wrap. -/
theorem accepted_draft {generator : Generator} (hgenerator : generator ∈ all) {table : AbiTable}
    {policy : TracePolicy} (hfits : (generator.draft table policy).overflow = false) :
    Accepted (generator.draft table policy).code ∧
      ∀ datum,
        (run (generator.draft table policy).code datum = .ok Verdict.trace.code ∨
          run (generator.draft table policy).code datum = .ok Verdict.allow.code) ∧
        ((∀ abi ∈ table, abi.arch ≠ datum.arch) →
          run (generator.draft table policy).code datum = .ok Verdict.trace.code) := by
  obtain ⟨body, hdraft, hbody⟩ : ∃ body : Abi → Nat → Section,
      generator.draft table policy = Draft.ofSections table body ∧
        ∀ abi index, WellFormed (body abi index) := by
    simp only [all, List.mem_cons, List.not_mem_nil, or_false] at hgenerator
    rcases hgenerator with rfl | rfl
    · exact ⟨RangeTest.body policy, rfl, RangeTest.wellFormed_body policy⟩
    · exact ⟨MaskTest.body policy, rfl, MaskTest.wellFormed_body policy⟩
  rw [hdraft] at hfits ⊢
  have haccepted := Draft.accepted_of_wellFormed hbody hfits
  refine ⟨haccepted, fun datum => ⟨haccepted.run_cases datum, fun hforeign => ?_⟩⟩
  have hunowned : table.owner? datum = none := by
    rw [AbiTable.owner?_eq_find?, List.find?_eq_none]
    rintro ⟨abi, index⟩ hentry hadmits
    exact hforeign abi (AbiTable.mem_of_mem_testOrder hentry) (of_decide_eq_true hadmits).1
  have hrun : run (Draft.ofSections table body).code datum =
      .ok ((table.owner? datum).elim Verdict.trace fun _ => .trace).code := by
    apply Draft.run_ofSections hfits
    rintro ⟨abi, index⟩ hentry hadmits
    exact absurd hadmits.1 (hforeign abi (AbiTable.mem_of_mem_testOrder hentry))
  rw [hrun, hunowned]
  rfl

/-- An ABI with two flag bits, and with so many numbers that counting its blocks
    wraps to none. -/
theorem accepted_draft_odd :
    let table : AbiTable := ⟨"odd", Arch.i386, 3, 0xffffffff⟩ :: AbiTable.hostHead
    let draft := maskTest.draft table (.ofTable table true)
    maskTest ∈ all ∧ draft.overflow = false ∧ (∀ abi ∈ table, abi.arch ≠ Arch.arm) ∧
      Accepted draft.code ∧ run draft.code ⟨Arch.arm, 0⟩ = .ok Verdict.trace.code := by
  intro table draft
  have hgenerator : maskTest ∈ all := by simp [all]
  have hfits : draft.overflow = false := by decide +kernel
  have hforeign : ∀ abi ∈ table, abi.arch ≠ Arch.arm := by decide
  obtain ⟨haccepted, hruns⟩ := accepted_draft hgenerator hfits
  exact ⟨hgenerator, hfits, hforeign, haccepted, (hruns ⟨Arch.arm, 0⟩).2 hforeign⟩

end Generator

end SyscallFilter
