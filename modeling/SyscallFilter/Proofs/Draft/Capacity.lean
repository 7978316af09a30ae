import Mathlib.Algebra.Order.BigOperators.Group.List
import Mathlib.Algebra.Order.Group.Nat
import SyscallFilter.Proofs.Draft.Sections
import SyscallFilter.Proofs.Table.TestOrder

namespace SyscallFilter

theorem length_flatMap_le {α β : Type} {piece : α → List β} {members : List α} {bound : Nat}
    (hpiece : ∀ x ∈ members, (piece x).length ≤ bound) :
    (members.flatMap piece).length ≤ members.length * bound := by
  rw [List.length_flatMap]
  have hlengths : ∀ n ∈ members.map fun x => (piece x).length, n ≤ bound := by
    intro n hn
    obtain ⟨x, hx, rfl⟩ := List.mem_map.mp hn
    exact hpiece x hx
  simpa using List.sum_le_card_nsmul _ _ hlengths

/-- Pieces of two lengths only. -/
theorem length_flatMap_eq_countP {α β : Type} {piece : α → List β} {p : α → Bool} {short long : Nat}
    {members : List α} (hpiece : ∀ x ∈ members, (piece x).length = if p x then short else long) :
    (members.flatMap piece).length =
      short * members.countP p + long * members.countP fun x => !p x := by
  induction members with
  | nil => rfl
  | cons x later ih =>
    obtain ⟨hfirst, hlater⟩ := List.forall_mem_cons.mp hpiece
    rw [List.flatMap_cons, List.length_append, hfirst, ih hlater, List.countP_cons, List.countP_cons]
    cases p x <;> simp [Nat.mul_succ] <;> omega

theorem Section.length_preamble (abi : Abi) :
    (preamble abi).length = if abi.flag = 0 then 2 else 5 := by
  unfold preamble
  split <;> rfl

namespace Draft

theorem length_codeOf (body : Abi → Nat → Section) (abis : List (Abi × Nat)) :
    (codeOf body abis).length = (abis.map fun entry => (sectionOf body entry).size).sum + 1 := by
  simp [codeOf, List.length_flatMap]

/-- A program is complete exactly if each section is short enough for its jumps
    and all instructions together stay within the capacity. -/
theorem overflow_ofSections_eq_false_iff {table : AbiTable} {body : Abi → Nat → Section} :
    (ofSections table body).overflow = false ↔
      (∀ entry ∈ table.testOrder, (sectionOf body entry).size ≤ Section.maxSize) ∧
        1 + (codeOf body table.testOrder).length ≤ capacity := by
  rw [overflow_ofSections_iff_fits, fits_iff (by decide), List.forall_mem_map, length_codeOf,
    ← Nat.add_assoc, Nat.succ_le_iff]

/-- The order of tests does not matter for whether a program overflows. -/
theorem overflow_ofSections_iff {table : AbiTable} {body : Abi → Nat → Section}
    {size : Abi × Nat → Nat} (hsize : ∀ entry ∈ table.zipIdx, (sectionOf body entry).size = size entry) :
    (ofSections table body).overflow = true ↔
      (∃ entry ∈ table.zipIdx, Section.maxSize < size entry) ∨
        capacity ≤ 1 + (table.zipIdx.map size).sum := by
  have hsizes : (table.testOrder.map fun entry => (sectionOf body entry).size).Perm
      (table.zipIdx.map size) := by
    rw [← List.map_congr_left hsize]
    exact table.testOrder_perm.map _
  rw [← Bool.not_eq_false, overflow_ofSections_iff_fits, fits_iff (by decide), hsizes.sum_eq,
    not_and_or, Nat.not_lt]
  refine or_congr_left ?_
  simp only [hsizes.mem_iff, List.forall_mem_map, not_forall, Nat.not_le, exists_prop]

/-- Sections of bounded size make a complete program if there are few of them. -/
theorem ofSections_of_size_le {table : AbiTable} {body : Abi → Nat → Section} {bound : Nat}
    (hsizes : ∀ entry ∈ table.testOrder, (sectionOf body entry).size ≤ bound)
    (hbound : bound ≤ Section.maxSize) (hroom : 2 + table.length * bound ≤ capacity) :
    (ofSections table body).overflow = false ∧
      (ofSections table body).code.length ≤ 2 + table.length * bound := by
  have hlength : (codeOf body table.testOrder).length ≤ table.length * bound + 1 := by
    rw [codeOf, List.length_append, List.length_singleton, ← AbiTable.length_testOrder]
    refine Nat.add_le_add_right (length_flatMap_le fun entry hentry => ?_) 1
    rw [Section.length_resolve]
    exact hsizes entry hentry
  have hfits : (ofSections table body).overflow = false := by
    refine overflow_ofSections_eq_false_iff.mpr ⟨?_, by omega⟩
    exact fun entry hentry => Nat.le_trans (hsizes entry hentry) hbound
  refine ⟨hfits, ?_⟩
  rw [(ofSections_of_not_overflow hfits).1, List.length_cons]
  omega

end Draft

end SyscallFilter
