import SyscallFilter.Proofs.Draft.Capacity
import SyscallFilter.Proofs.Generator.RangeTest
import SyscallFilter.Proofs.Section.Emitted

namespace SyscallFilter.RangeTest

/-- How the numbers of a run are compared, the flag of the ABI set in the ends of
    the run: at once if it has a single number, otherwise with either end. -/
def comparisons (abi : Abi) (run : Run) : Section :=
  if run.isSingle then [.branch Opcode.jeq (abi.mark (UInt32.ofNat run.start)) .trace (.skip 0)]
  else
    [.branch Opcode.jge (abi.mark (UInt32.ofNat run.start)) (.skip 0) (.skip 1),
      .branch Opcode.jge (abi.mark (UInt32.ofNat run.stop)) (.skip 0) .trace]

/-- Codes and constants of the instructions that compare numbers with a run, the
    flag of the ABI set in its ends: `jeq` with its number if it has a single one,
    otherwise `jge` with either end. -/
def emittedFor (abi : Abi) (run : Run) : List (UInt16 × UInt32) :=
  if run.stop = run.start + 1 then [(0x15, UInt32.ofNat run.start ||| abi.flag)]
  else
    [(0x35, UInt32.ofNat run.start ||| abi.flag), (0x35, UInt32.ofNat run.stop ||| abi.flag)]

/-- The instructions of a section that compares numbers with the given runs. -/
def sectionSize (abi : Abi) (runs : List Run) : Nat :=
  (if abi.flag = 0 then 5 else 8) + runs.countP (·.isSingle) + 2 * runs.countP (!·.isSingle)

/-- The runs are the maximal ones that the traced numbers of an ABI form, and its
    section consists of the comparisons with these, in ascending order, and of
    the one that looks for unknown numbers: behind the preamble stand these
    instructions and the two returns. -/
structure Coalesces (policy : TracePolicy) (abi : Abi) (index : Nat) (runs : List Run) : Prop where
  mem_iff : ∀ run, run ∈ runs ↔
    run.IsMaximal (fun nr => policy.traces (UInt32.ofNat nr) index) abi.count.toNat
  ascending : runs.Pairwise Run.Precedes
  body_eq : body policy abi index =
    runs.flatMap (comparisons abi) ++ [.branch Opcode.jge (abi.mark abi.count) .trace .allow]
  length_eq : (Draft.sectionOf (body policy) (abi, index)).resolve.length = sectionSize abi runs
  emitted_eq :
    ((Draft.sectionOf (body policy) (abi, index)).resolve.drop (if abi.flag = 0 then 2 else 5)).map
        (fun insn => (insn.code, insn.k)) =
      runs.flatMap (emittedFor abi) ++
        [(0x35, abi.count ||| abi.flag), (0x06, 0x7fff0000), (0x06, 0x7ff00000)]

section Abi

variable {policy : TracePolicy} {abi : Abi} {index : Nat}

/-- The single comparison is recognised by the marked ends, which are one apart
    exactly if the run has one number: marking adds the flag to both. -/
theorem compare_eq (hflag : abi.FlagAbove) {run : Run} (hrun : run ∈ tracedRuns policy abi index) :
    compare abi run = comparisons abi run := by
  obtain ⟨hlower, hupper⟩ := toNat_mark_ends hflag hrun
  have hsum := UInt32.toNat_add (abi.mark (UInt32.ofNat run.start)) 1
  have hone : (1 : UInt32).toNat = 1 := rfl
  have hlt := (abi.mark (UInt32.ofNat run.stop)).toNat_lt
  have hends := (stop_le_count hrun).1
  have hsingle : abi.mark (UInt32.ofNat run.start) + 1 = abi.mark (UInt32.ofNat run.stop) ↔
      run.isSingle = true := by
    rw [← UInt32.toNat_inj, hsum, hlower, hupper, hone, Run.isSingle, beq_iff_eq]
    omega
  simp only [compare, comparisons, hsingle]

theorem body_eq_comparisons (hflag : abi.FlagAbove) :
    body policy abi index = (tracedRuns policy abi index).flatMap (comparisons abi) ++
      [.branch Opcode.jge (abi.mark abi.count) .trace .allow] := by
  rw [body, List.flatMap_congr fun run hrun => compare_eq hflag hrun]

theorem length_comparisons (abi : Abi) (run : Run) :
    (comparisons abi run).length = if run.isSingle then 1 else 2 := by
  unfold comparisons
  split <;> rfl

theorem size_sectionOf (hflag : abi.FlagAbove) :
    (Draft.sectionOf (body policy) (abi, index)).size =
      sectionSize abi (tracedRuns policy abi index) := by
  have hruns : ((tracedRuns policy abi index).flatMap (comparisons abi)).length =
      1 * (tracedRuns policy abi index).countP (·.isSingle) +
        2 * (tracedRuns policy abi index).countP (!·.isSingle) :=
    length_flatMap_eq_countP fun run _ => length_comparisons abi run
  simp only [Draft.sectionOf, Section.size, body_eq_comparisons hflag, List.length_append,
    List.length_singleton, Section.length_preamble, hruns, sectionSize]
  split <;> omega

theorem map_key?_comparisons (abi : Abi) (run : Run) :
    (comparisons abi run).map Line.key? = (emittedFor abi run).map some := by
  simp only [comparisons, emittedFor, Run.isSingle, beq_iff_eq]
  split <;> rfl

theorem map_key_resolve_sectionOf (hflag : abi.FlagAbove) :
    ((Draft.sectionOf (body policy) (abi, index)).resolve.drop (if abi.flag = 0 then 2 else 5)).map
        Instruction.key =
      (tracedRuns policy abi index).flatMap (emittedFor abi) ++
        [(0x35, abi.count ||| abi.flag), (0x06, 0x7fff0000), (0x06, 0x7ff00000)] := by
  have hbody : (body policy abi index).map Line.key? =
      ((tracedRuns policy abi index).flatMap (emittedFor abi) ++
        [(0x35, abi.count ||| abi.flag)]).map some := by
    rw [body_eq_comparisons hflag, List.map_append, List.map_append, List.map_flatMap,
      List.map_flatMap]
    simp only [map_key?_comparisons]
    rfl
  have hkeys := Section.map_key_resolve_append hbody []
  rw [List.append_nil] at hkeys
  rw [← Section.length_preamble, Draft.sectionOf, Section.drop_resolve_append, hkeys,
    List.append_assoc]
  rfl

theorem coalesces_tracedRuns (hflag : abi.FlagAbove) :
    Coalesces policy abi index (tracedRuns policy abi index) where
  mem_iff _ := by rw [tracedRuns_eq_maximal, Run.mem_maximal_iff]
  ascending := by
    rw [tracedRuns_eq_maximal]
    exact Run.pairwise_maximal _ _
  body_eq := body_eq_comparisons hflag
  length_eq := by rw [Section.length_resolve, size_sectionOf hflag]
  emitted_eq := map_key_resolve_sectionOf hflag

end Abi

/-- The traced numbers are coalesced into exactly the maximal runs, and the runs
    alone decide how long a section is and whether the program overflows. Without
    overflow the program consists of the sections described here. -/
theorem draft_coalesces {table : AbiTable} (hflags : ∀ abi ∈ table, abi.FlagAbove)
    (policy : TracePolicy) :
    let size := fun entry : Abi × Nat => sectionSize entry.1 (tracedRuns policy entry.1 entry.2)
    (∀ entry ∈ table.zipIdx,
        Coalesces policy entry.1 entry.2 (tracedRuns policy entry.1 entry.2)) ∧
      ((draft table policy).overflow = true ↔
        (∃ entry ∈ table.zipIdx, 255 < size entry) ∨ 8192 ≤ 1 + (table.zipIdx.map size).sum) ∧
      ((draft table policy).overflow = false →
        (draft table policy).code = .load .arch :: Draft.codeOf (body policy) table.testOrder) := by
  intro size
  have hflag : ∀ entry ∈ table.zipIdx, entry.1.FlagAbove := fun entry hentry =>
    hflags _ (List.fst_mem_of_mem_zipIdx hentry)
  refine ⟨fun entry hentry => coalesces_tracedRuns (hflag entry hentry), ?_, ?_⟩
  · exact Draft.overflow_ofSections_iff fun entry hentry => size_sectionOf (hflag entry hentry)
  · exact fun hfits => (Draft.ofSections_of_not_overflow hfits).1

/-- The last of the three runs ends with the last number. In the other table no
    two traced numbers are neighbours, which makes 300 runs. -/
theorem draft_coalesces_scattered :
    let flagged : Abi := ⟨"flagged", Arch.arm, 0x40000000, 64⟩
    let selected := ((NumberSet.empty.insertRange 10 20).insertRange 30 30).insertRange 60 63
    let policy : TracePolicy := ⟨#[⟨64, selected, []⟩], false⟩
    let scattered : AbiTable := [⟨"scattered", Arch.arm, 0, 600⟩]
    let everySecond : TracePolicy := ⟨#[⟨600, ⟨[(4 ^ 300 - 1) / 3]⟩, []⟩], false⟩
    (∀ abi ∈ ([flagged] : AbiTable), abi.FlagAbove) ∧
      Coalesces policy flagged 0 [⟨10, 21⟩, ⟨30, 31⟩, ⟨60, 64⟩] ∧
      (draft [flagged] policy).overflow = false ∧
      (∀ abi ∈ scattered, abi.FlagAbove) ∧ (draft scattered everySecond).overflow = true := by
  intro flagged selected policy scattered everySecond
  have hflags : ∀ abi ∈ ([flagged] : AbiTable), abi.FlagAbove := by decide
  have hplain : ∀ abi ∈ scattered, abi.FlagAbove := by decide
  have hruns : tracedRuns policy flagged 0 = [⟨10, 21⟩, ⟨30, 31⟩, ⟨60, 64⟩] := by decide +kernel
  obtain ⟨hsections, hoverflow, _⟩ := draft_coalesces hflags policy
  refine ⟨hflags, hruns ▸ hsections (flagged, 0) (by simp), ?_, hplain, ?_⟩
  · rw [← Bool.not_eq_true, hoverflow]
    decide +kernel
  · rw [(draft_coalesces hplain everySecond).2.1]
    decide +kernel

end SyscallFilter.RangeTest
