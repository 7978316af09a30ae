import SyscallFilter.Proofs.Draft.Layout

namespace SyscallFilter.Draft

/-- The whole section of an ABI whose body depends on the ABI alone. -/
def sectionOf (body : Abi → Nat → Section) (entry : Abi × Nat) : Section :=
  Section.preamble entry.1 ++ body entry.1 entry.2

/-- The instructions of the sections, one after the other, and the return for
    calls of unknown architectures behind them. -/
def codeOf (body : Abi → Nat → Section) (abis : List (Abi × Nat)) : List Instruction :=
  abis.flatMap (fun entry => (sectionOf body entry).resolve) ++ [.ret .trace]

theorem codeOf_cons (body : Abi → Nat → Section) (entry : Abi × Nat) (abis : List (Abi × Nat)) :
    codeOf body (entry :: abis) = (sectionOf body entry).resolve ++ codeOf body abis := by
  simp [codeOf]

theorem sectionsFor_eq_map (body : Abi → Nat → Section) (abis : List (Abi × Nat)) :
    sectionsFor (fun _ abi index _ => (body abi index, ())) abis () = abis.map (sectionOf body) := by
  induction abis with
  | nil => rfl
  | cons entry later ih => exact congrArg _ ih

variable {table : AbiTable} {body : Abi → Nat → Section}

theorem overflow_ofSections_iff_fits :
    (ofSections table body).overflow = false ↔
      Fits 1 (table.testOrder.map fun entry => (sectionOf body entry).size) := by
  have hsizes : (sectionsFor (fun _ abi index _ => (body abi index, ())) table.testOrder ()).map
      Section.size = table.testOrder.map fun entry => (sectionOf body entry).size := by
    rw [sectionsFor_eq_map, List.map_map]
    rfl
  rw [← hsizes]
  exact overflow_sections_eq_false_iff _

/-- A program that did not overflow is complete: the architecture is loaded,
    every section stands in the order of tests, and each is short enough for its
    jumps. The shape of the sections is not needed. -/
theorem ofSections_of_not_overflow (hfits : (ofSections table body).overflow = false) :
    (ofSections table body).code = .load .arch :: codeOf body table.testOrder ∧
      ∀ entry ∈ table.testOrder, (sectionOf body entry).size ≤ Section.maxSize := by
  have hsizes := ((fits_iff (by decide)).mp (overflow_ofSections_iff_fits.mp hfits)).1
  refine ⟨?_, fun entry hentry => hsizes _ (List.mem_map_of_mem hentry)⟩
  have hcode := sections_of_fits (fun _ abi index _ => (body abi index, ()))
    ((overflow_sections_eq_false_iff _).mp hfits)
  rw [ofSections, layOut, hcode, sectionsFor_eq_map, List.flatMap_map]
  rfl

end SyscallFilter.Draft
