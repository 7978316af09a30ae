import SyscallFilter.Proofs.TracePolicy.History
import SyscallFilter.Resumption
import SyscallFilter.Selection

namespace SyscallFilter.TracePolicy

/-- Nothing that can be asked tells the two policies apart. They may differ in
    how they came about and in how they keep their numbers. -/
structure Alike (first second : TracePolicy) : Prop where
  count_eq : ∀ index, first.count index = second.count index
  traces_eq : ∀ nr index, first.traces nr index = second.traces nr index

theorem alike_attemptAll {start : Start} {table : AbiTable} {first second : List Choice}
    (hsame : ∀ nr index, Chosen (start.policy table) first nr index ↔
      Chosen (start.policy table) second nr index) :
    Alike ((start.policy table).attemptAll first) ((start.policy table).attemptAll second) where
  count_eq index := by rw [start.count_attemptAll, start.count_attemptAll]
  traces_eq nr index := by
    rw [Bool.eq_iff_iff, start.traces_attemptAll_iff, start.traces_attemptAll_iff]
    simp only [hsame]

/-- The order of the choices does not matter, nor does how often each is made. -/
theorem alike_attemptAll_of_mem_iff (policy : TracePolicy) {first second : List Choice}
    (hsame : ∀ choice, choice ∈ first ↔ choice ∈ second) :
    Alike (policy.attemptAll first) (policy.attemptAll second) where
  count_eq index := by rw [count_attemptAll, count_attemptAll]
  traces_eq nr index := by
    rw [Bool.eq_iff_iff, traces_attemptAll_iff, traces_attemptAll_iff]
    simp only [hsame]

namespace Alike

variable {first second : TracePolicy}

theorem resumption_eq (halike : Alike first second) (nr : UInt32) (index : Nat) :
    first.resumption nr index = second.resumption nr index := by
  rw [resumption, resumption, halike.count_eq, halike.traces_eq]

/-- The generators look at the traced numbers only. -/
theorem rangeTest_body_eq (halike : Alike first second) :
    RangeTest.body first = RangeTest.body second := by
  funext abi index
  simp only [RangeTest.body, RangeTest.tracedRuns, halike.traces_eq]

theorem maskTest_body_eq (halike : Alike first second) :
    MaskTest.body first = MaskTest.body second := by
  funext abi index
  simp only [MaskTest.body, MaskTest.blockMask, halike.traces_eq]

theorem draft_eq (halike : Alike first second) {generator : Generator}
    (hgenerator : generator ∈ Generator.all) (table : AbiTable) :
    generator.draft table first = generator.draft table second := by
  simp only [Generator.all, List.mem_cons, List.not_mem_nil, or_false] at hgenerator
  rcases hgenerator with rfl | rfl
  · exact congrArg (Draft.ofSections table) halike.rangeTest_body_eq
  · exact congrArg (Draft.ofSections table) halike.maskTest_body_eq

/-- Their sums leave the words for both policies or for neither. -/
theorem wraps_eq (halike : Alike first second) {generator : Generator}
    (hgenerator : generator ∈ Generator.all) (table : AbiTable) :
    generator.wraps table first = generator.wraps table second := by
  simp only [Generator.all, List.mem_cons, List.not_mem_nil, or_false] at hgenerator
  rcases hgenerator with rfl | rfl
  · have hbodies : RangeTest.bodyWraps first = RangeTest.bodyWraps second := by
      funext abi index
      simp only [RangeTest.bodyWraps, RangeTest.tracedRuns, halike.traces_eq]
    show Draft.wraps _ _ _ = Draft.wraps _ _ _
    rw [halike.rangeTest_body_eq, hbodies]
  · show Draft.wraps _ _ _ = Draft.wraps _ _ _
    rw [halike.maskTest_body_eq]

theorem generate_eq (halike : Alike first second) {generator : Generator}
    (hgenerator : generator ∈ Generator.all) (table : AbiTable) :
    generator.generate table first = generator.generate table second := by
  rw [Generator.generate, Generator.generate, halike.wraps_eq hgenerator,
    halike.draft_eq hgenerator]

theorem tryCandidates_eq (halike : Alike first second) (table : AbiTable) :
    Generator.tryCandidates Generator.all table first =
      Generator.tryCandidates Generator.all table second := by
  have hmember {generator : Generator} (hgenerator : generator ∈ Generator.all) :=
    halike.generate_eq hgenerator table
  simp only [Generator.tryCandidates, Generator.all, List.mapM_cons, List.mapM_nil,
    hmember (List.mem_cons_self), hmember (List.mem_cons_of_mem _ List.mem_cons_self)]

/-- So the filters are the same, and so is all that is reported while they are
    chosen. -/
theorem trySelection_eq (halike : Alike first second) (table : AbiTable) :
    Generator.trySelection Generator.all table first =
      Generator.trySelection Generator.all table second := by
  rw [Generator.trySelection, Generator.trySelection, halike.tryCandidates_eq]

end Alike

end SyscallFilter.TracePolicy
