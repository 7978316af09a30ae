import SyscallFilter.Generator.RangeTest
import SyscallFilter.Proofs.Abi
import SyscallFilter.Proofs.Draft.Routing
import SyscallFilter.Proofs.Run

namespace SyscallFilter.RangeTest

open Section

/-- The number lies in the run, the flag of the ABI set in both ends. -/
def Meets (abi : Abi) (nr : UInt32) (run : Run) : Prop :=
  abi.mark (UInt32.ofNat run.start) ≤ nr ∧ nr < abi.mark (UInt32.ofNat run.stop)

instance (abi : Abi) (nr : UInt32) (run : Run) : Decidable (Meets abi nr run) :=
  inferInstanceAs (Decidable (_ ∧ _))

/-- The comparisons of a run trace its numbers and let all others pass on. That
    the marked ends are ordered keeps the single comparison from wrapping. -/
theorem exit?_compare {abi : Abi} {run : Run} (datum : Datum) (regs : Registers) (rest : Section)
    (hends : abi.mark (UInt32.ofNat run.start) < abi.mark (UInt32.ofNat run.stop)) :
    exit? datum 0 regs (compare abi run ++ rest) =
      if Meets abi regs.a run then some (.verdict .trace) else exit? datum 0 regs rest := by
  unfold compare
  dsimp only
  split
  · rename_i hsingle
    -- The interval holds one number only, because its marked stop has not wrapped.
    have hnumber : Meets abi regs.a run ↔ regs.a = abi.mark (UInt32.ofNat run.start) := by
      have hsum := UInt32.toNat_add (abi.mark (UInt32.ofNat run.start)) 1
      have hone : (1 : UInt32).toNat = 1 := rfl
      rw [Meets, UInt32.le_iff_toNat_le, UInt32.lt_iff_toNat_lt, ← UInt32.toNat_inj]
      rw [UInt32.lt_iff_toNat_lt] at hends
      rw [hsingle] at hsum
      omega
    simp [hnumber]
  · by_cases hlower : abi.mark (UInt32.ofNat run.start) ≤ regs.a
    · by_cases hupper : abi.mark (UInt32.ofNat run.stop) ≤ regs.a
      · simp [Meets, hlower, hupper, UInt32.not_lt.mpr hupper]
      · simp [Meets, hlower, hupper, UInt32.not_le.mp hupper]
    · simp [Meets, hlower]

section Body

variable {policy : TracePolicy} {abi : Abi} {index : Nat}

/-- The scan finds the maximal runs, and what is known of these is used from here
    on. -/
theorem tracedRuns_eq_maximal (policy : TracePolicy) (abi : Abi) (index : Nat) :
    tracedRuns policy abi index =
      Run.maximal (fun nr => policy.traces (UInt32.ofNat nr) index) 0 abi.count.toNat :=
  Run.scan_eq_maximal _ _ _

theorem stop_le_count {run : Run} (hrun : run ∈ tracedRuns policy abi index) :
    run.start < run.stop ∧ run.stop ≤ abi.count.toNat := by
  rw [tracedRuns_eq_maximal] at hrun
  exact Run.within_of_mem_maximal run hrun

/-- The ends of a traced run are numbers of the ABI, so marking them adds the
    flag. -/
theorem toNat_mark_ends (hflag : abi.FlagAbove) {run : Run}
    (hrun : run ∈ tracedRuns policy abi index) :
    (abi.mark (UInt32.ofNat run.start)).toNat = run.start + abi.flag.toNat ∧
      (abi.mark (UInt32.ofNat run.stop)).toNat = run.stop + abi.flag.toNat := by
  obtain ⟨hstart, hstop⟩ := stop_le_count hrun
  have hcount : abi.count.toNat < UInt32.size := abi.count.toNat_lt
  have hmark (n : Nat) (hn : n ≤ abi.count.toNat) :
      (abi.mark (UInt32.ofNat n)).toNat = n + abi.flag.toNat := by
    have hword : (UInt32.ofNat n).toNat = n := UInt32.toNat_ofNat_of_lt' (by omega)
    rw [hflag.toNat_mark (by rw [UInt32.le_iff_toNat_le, hword]; exact hn), hword]
  exact ⟨hmark run.start (by omega), hmark run.stop hstop⟩

theorem exists_meets_iff (hflag : abi.FlagAbove) {nr : UInt32} (hreach : abi.flag ≤ nr) :
    (∃ run ∈ tracedRuns policy abi index, Meets abi nr run) ↔
      nr - abi.flag < abi.count ∧ policy.traces (nr - abi.flag) index = true := by
  have hnr : (nr - abi.flag).toNat = nr.toNat - abi.flag.toNat := UInt32.toNat_sub_of_le _ _ hreach
  have hle : abi.flag.toNat ≤ nr.toNat := hreach
  have hmeets : ∀ run ∈ tracedRuns policy abi index,
      (Meets abi nr run ↔ run.Holds (nr - abi.flag).toNat) := by
    intro run hrun
    obtain ⟨hstart, hstop⟩ := toNat_mark_ends hflag hrun
    rw [Meets, UInt32.le_iff_toNat_le, UInt32.lt_iff_toNat_lt, hstart, hstop, Run.Holds, hnr]
    omega
  calc (∃ run ∈ tracedRuns policy abi index, Meets abi nr run)
      ↔ ∃ run ∈ tracedRuns policy abi index, run.Holds (nr - abi.flag).toNat :=
        exists_congr fun run => and_congr_right (hmeets run)
    _ ↔ nr - abi.flag < abi.count ∧ policy.traces (nr - abi.flag) index = true := by
        rw [tracedRuns_eq_maximal, Run.exists_mem_maximal_iff, UInt32.ofNat_toNat, UInt32.lt_iff_toNat_lt]

/-- The body gives every call that passes its preamble the verdict it is owed.
    A flag that is no single bit, or not above the numbers, would let marked
    numbers of two runs coincide. -/
theorem gives_body (hflag : abi.FlagAbove) {datum : Datum} (hadmits : abi.Admits datum) :
    Draft.Gives (body policy) datum (policy.owed datum) (abi, index) := by
  intro regs hnr
  have hreach : abi.flag ≤ datum.nr := hadmits.flag_le
  have hends : ∀ run ∈ tracedRuns policy abi index,
      abi.mark (UInt32.ofNat run.start) < abi.mark (UInt32.ofNat run.stop) := by
    intro run hrun
    obtain ⟨hstart, hstop⟩ := toNat_mark_ends hflag hrun
    rw [UInt32.lt_iff_toNat_lt, hstart, hstop]
    have := (stop_le_count hrun).1
    omega
  have hguard : abi.mark abi.count ≤ datum.nr ↔ abi.count ≤ datum.nr - abi.flag := by
    have hle : abi.flag.toNat ≤ datum.nr.toNat := hreach
    rw [UInt32.le_iff_toNat_le, UInt32.le_iff_toNat_le, hflag.toNat_mark UInt32.le_rfl,
      UInt32.toNat_sub_of_le _ _ hreach]
    omega
  rw [body, exit?_flatMap fun run hrun rest => exit?_compare datum regs rest (hends run hrun), hnr]
  simp only [exists_meets_iff hflag hreach, TracePolicy.owed, exit?_jge, leave?_trace, leave?_allow,
    hnr, hguard]
  by_cases hknown : abi.count ≤ datum.nr - abi.flag
  · simp [hknown]
  · have hbelow := UInt32.not_le.mp hknown
    by_cases htraces : policy.traces (datum.nr - abi.flag) index = true
    · simp [hbelow, htraces]
    · simp [hknown, htraces]

end Body

/-- A program of range comparisons that did not overflow runs to its end on
    every call and returns the verdict that the call is owed. Nothing ties the
    policy to the table, and ABIs may share an architecture. -/
theorem run_rangeTest_draft {table : AbiTable} {policy : TracePolicy}
    (hflags : ∀ abi ∈ table, abi.FlagAbove) (hfits : (draft table policy).overflow = false)
    (datum : Datum) :
    run (draft table policy).code datum = .ok (policy.judge table datum).code := by
  apply Draft.run_ofSections_eq_judge _ hfits
  intro abi habi index hadmits
  exact gives_body (hflags abi habi) hadmits

/-- The x32 call 9, a change of the mappings, by its marked number. -/
theorem run_rangeTest_draft_hostHead :
    (∀ abi ∈ AbiTable.hostHead, abi.FlagAbove) ∧
      (draft AbiTable.hostHead (.ofTable AbiTable.hostHead true)).overflow = false ∧
      run (draft AbiTable.hostHead (.ofTable AbiTable.hostHead true)).code
          ⟨Arch.x86_64, 0x40000009⟩ = .ok Verdict.trace.code := by
  have hflags : ∀ abi ∈ AbiTable.hostHead, abi.FlagAbove := by decide
  have hfits : (draft AbiTable.hostHead (.ofTable AbiTable.hostHead true)).overflow = false := by
    decide +kernel
  have hjudge : (TracePolicy.ofTable AbiTable.hostHead true).judge AbiTable.hostHead
      ⟨Arch.x86_64, 0x40000009⟩ = .trace := by decide
  refine ⟨hflags, hfits, ?_⟩
  rw [run_rangeTest_draft hflags hfits, hjudge]

end SyscallFilter.RangeTest
