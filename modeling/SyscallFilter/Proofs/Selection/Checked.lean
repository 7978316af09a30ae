import SyscallFilter.Proofs.Except
import SyscallFilter.Proofs.Generator.Overflow
import SyscallFilter.Proofs.Table.Host
import SyscallFilter.Selection

namespace SyscallFilter.Generator

variable {table : AbiTable} {policy : TracePolicy}

theorem tryCandidates_eq_ok {generators : List Generator}
    (hwraps : ∀ generator ∈ generators, generator.wraps table policy = false) :
    tryCandidates generators table policy = .ok (candidates generators table policy) := by
  refine Except.mapM_eq_ok_iff.mpr ?_
  rw [candidates, List.forall₂_map_right_iff, List.forall₂_same]
  intro generator hgenerator
  rw [generate_of_not_wraps (hwraps generator hgenerator)]
  rfl

/-- Where no sum leaves the words, checking them changes nothing about the
    selection. -/
theorem trySelection_eq_ok (hcounts : ∀ abi ∈ table, abi.count.toNat + 32 ≤ UInt32.size)
    (hstarts : RangeTest.StartsFit table policy) :
    trySelection all table policy = .ok (selection all table policy) := by
  rw [trySelection, selection,
    tryCandidates_eq_ok fun generator => wraps_eq_false hcounts hstarts]
  by_cases htable : table.isEmpty = true
  · rw [if_pos htable, if_pos htable]
  · rw [if_neg htable, if_neg htable]
    rfl

theorem tryChoose_eq_ok (hcounts : ∀ abi ∈ table, abi.count.toNat + 32 ≤ UInt32.size)
    (hstarts : RangeTest.StartsFit table policy) :
    tryChoose all table policy = .ok (choose all table policy) := by
  rw [tryChoose, trySelection_eq_ok hcounts hstarts]
  rfl

section Host

variable (policy : TracePolicy)

theorem counts_host : ∀ abi ∈ AbiTable.host, abi.count.toNat + 32 ≤ UInt32.size :=
  fun abi habi => (AbiTable.separable_host.fitsBlocks abi habi).2

theorem startsFit_host : RangeTest.StartsFit AbiTable.host policy :=
  RangeTest.startsFit_of_flagAbove fun abi habi =>
    (AbiTable.separable_host.fitsBlocks abi habi).flagAbove

theorem tryCandidates_host :
    tryCandidates all AbiTable.host policy = .ok (candidates all AbiTable.host policy) :=
  tryCandidates_eq_ok fun _ => wraps_eq_false counts_host (startsFit_host policy)

theorem trySelection_host :
    trySelection all AbiTable.host policy = .ok (selection all AbiTable.host policy) :=
  trySelection_eq_ok counts_host (startsFit_host policy)

end Host

end SyscallFilter.Generator
