import SyscallFilter.Proofs.Selection.Checked
import SyscallFilter.Proofs.Selection.Chosen

namespace SyscallFilter

/-- At 81 blocks, or at 79 behind a flag, a section has at most the length over
    which its jumps can lead, even if no block is uniform. -/
theorem MaskTest.size_sectionOf_le_maxSize {abi : Abi} (hplain : abi.flag = 0 → abi.count ≤ 2592)
    (hflagged : abi.flag ≠ 0 → abi.count ≤ 2528) (policy : TracePolicy) (index : Nat) :
    (Draft.sectionOf (body policy) (abi, index)).size ≤ Section.maxSize := by
  refine Nat.le_trans (size_sectionOf_le policy abi index) ?_
  rw [Section.maxSize]
  by_cases hflag : abi.flag = 0
  · have hcount : abi.count.toNat ≤ 2592 := hplain hflag
    rw [if_pos hflag]
    omega
  · have hcount : abi.count.toNat ≤ 2528 := hflagged hflag
    rw [if_neg hflag]
    omega

namespace Generator

/-- The masks see to it that there is a filter: their sections fit however the
    traced numbers are scattered, and if range comparisons do not overflow, the
    shorter program wins. -/
theorem exists_choose_of_sizes {table : AbiTable} (htable : table ≠ [])
    (hlength : table.length ≤ 16) (hplain : ∀ abi ∈ table, abi.flag = 0 → abi.count ≤ 2592)
    (hflagged : ∀ abi ∈ table, abi.flag ≠ 0 → abi.count ≤ 2528) (policy : TracePolicy) :
    ∃ filter, choose all table policy = .ok filter ∧ filter.code.length ≤ 4082 := by
  have hsizes : ∀ entry ∈ table.testOrder,
      (Draft.sectionOf (MaskTest.body policy) entry).size ≤ Section.maxSize := by
    rintro ⟨abi, index⟩ hentry
    have habi := AbiTable.mem_of_mem_testOrder hentry
    exact MaskTest.size_sectionOf_le_maxSize (hplain abi habi) (hflagged abi habi) policy index
  have hroom : 2 + table.length * Section.maxSize ≤ 4082 := by
    rw [Section.maxSize]
    omega
  obtain ⟨hfits, hshort⟩ := Draft.ofSections_of_size_le hsizes (Nat.le_refl _)
    (Nat.le_trans hroom (by decide))
  have hcode : (maskTest.draft table policy).code.length ≤ 4082 := Nat.le_trans hshort hroom
  have hmember : maskTest ∈ all := by simp [all]
  obtain ⟨filter, hchoose, hle⟩ :=
    exists_choose_le hmember htable hfits (Nat.le_trans hcode (by decide))
  exact ⟨filter, hchoose, Nat.le_trans hle hcode⟩

/-- Tables of ordinary size are always filtered, whatever is traced, unless a run
    of traced numbers begins with the last word. Flags may be any words: of those
    that are single bits above the numbers none makes a run begin there. -/
theorem exists_tryChoose_of_ordinary {table : AbiTable} (htable : table ≠ [])
    (hlength : table.length ≤ 16) (hplain : ∀ abi ∈ table, abi.flag = 0 → abi.count ≤ 2592)
    (hflagged : ∀ abi ∈ table, abi.flag ≠ 0 → abi.count ≤ 2528) {policy : TracePolicy}
    (hstarts : RangeTest.StartsFit table policy) :
    ∃ filter, tryChoose all table policy = .ok (.ok filter) ∧ filter.code.length ≤ 4082 := by
  have hcounts : ∀ abi ∈ table, abi.count.toNat + 32 ≤ UInt32.size := by
    intro abi habi
    have hcount : abi.count.toNat ≤ 2592 := by
      by_cases hflag : abi.flag = 0
      · exact hplain abi habi hflag
      · exact Nat.le_trans (hflagged abi habi hflag) (by decide)
    rw [UInt32.size]
    omega
  obtain ⟨filter, hchoose, hle⟩ := exists_choose_of_sizes htable hlength hplain hflagged policy
  rw [tryChoose_eq_ok hcounts hstarts, hchoose]
  exact ⟨filter, rfl, hle⟩

/-- The ABIs of an x86_64 machine; sixteen ABIs of the largest size of whose
    numbers every second is traced; and an ABI whose flag is the last word, of
    which nothing is traced. -/
theorem exists_tryChoose_of_ordinary_sixteen :
    let scattered : Roster := ⟨2592, ⟨[(4 ^ 2048 - 1) / 3]⟩, []⟩
    let wide : AbiTable := List.replicate 15 ⟨"plain", Arch.arm, 0, 2592⟩ ++
      [⟨"flagged", Arch.arm, 0x40000000, 2528⟩]
    let odd : AbiTable := [⟨"odd", Arch.arm, 0xffffffff, 1⟩]
    (∃ filter, tryChoose all AbiTable.host (.ofTable AbiTable.host true) = .ok (.ok filter) ∧
        filter.code.length ≤ 4082) ∧
      (∃ filter, tryChoose all wide ⟨Array.replicate 16 scattered, false⟩ = .ok (.ok filter) ∧
        filter.code.length ≤ 4082) ∧
      ∃ filter, tryChoose all odd (.bare odd) = .ok (.ok filter) ∧ filter.code.length ≤ 4082 := by
  intro scattered wide odd
  have hodd : RangeTest.StartsFit odd (.bare odd) := by
    intro abi index habi run hmaximal _
    obtain ⟨rfl, rfl⟩ : index = 0 ∧ abi = ⟨"odd", Arch.arm, 0xffffffff, 1⟩ := by
      have hindex := (List.getElem?_eq_some_iff.mp habi).1
      have hzero : index = 0 := Nat.lt_one_iff.mp hindex
      subst index
      exact ⟨rfl, (Option.some.inj habi).symm⟩
    have hstart : run.start < 1 := Nat.lt_of_lt_of_le hmaximal.start_lt_stop hmaximal.stop_le
    have hzero : run.start = 0 := Nat.lt_one_iff.mp hstart
    have htraced := hmaximal.member_of_holds run.start ⟨Nat.le_refl _, hmaximal.start_lt_stop⟩
    rw [hzero] at htraced
    exact absurd htraced (by decide)
  have hhost : ∀ abi ∈ AbiTable.host, abi.FlagAbove := by decide
  have hwide : ∀ abi ∈ wide, abi.FlagAbove := by decide
  exact ⟨exists_tryChoose_of_ordinary (by decide) (by decide) (by decide) (by decide)
      (RangeTest.startsFit_of_flagAbove hhost),
    exists_tryChoose_of_ordinary (by decide) (by decide) (by decide) (by decide)
      (RangeTest.startsFit_of_flagAbove hwide),
    exists_tryChoose_of_ordinary (by decide) (by decide) (by decide) (by decide) hodd⟩

/-- With the last word for a flag the number 0 is marked as the last word, and a
    run that begins with it breaks a generator down. -/
theorem tryChoose_eq_error_odd :
    let odd : AbiTable := [⟨"odd", 1, 0xffffffff, 1⟩]
    let policy := (TracePolicy.bare odd).select 0 ⟨0, 0⟩
    odd ≠ [] ∧ odd.length ≤ 16 ∧ (∀ abi ∈ odd, abi.flag = 0 → abi.count ≤ 2592) ∧
      (∀ abi ∈ odd, abi.flag ≠ 0 → abi.count ≤ 2528) ∧ policy.2 = .ok () ∧
      tryChoose all odd policy.1 = .error .overflow ∧
      ¬∃ filter, tryChoose all odd policy.1 = .ok (.ok filter) := by
  intro odd policy
  have hpanic : tryChoose all odd policy.1 = .error .overflow := by decide +kernel
  refine ⟨by decide, by decide, by decide, by decide, by decide +kernel, hpanic, ?_⟩
  rintro ⟨filter, hchoose⟩
  rw [hpanic] at hchoose
  cases hchoose

end Generator

end SyscallFilter
