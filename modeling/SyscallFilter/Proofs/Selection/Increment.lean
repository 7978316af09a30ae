import SyscallFilter.Proofs.Except
import SyscallFilter.Proofs.Selection.Agreement
import SyscallFilter.Proofs.TracePolicy.History

namespace SyscallFilter

namespace TracePolicy

/-- A filter for the table takes the call to belong to the ABI of the choice, and
    the choice covers its number there. -/
def Choice.Reaches (choice : Choice) (table : AbiTable) (datum : Datum) : Prop :=
  ∃ entry, table.owner? datum = some entry ∧ choice.Covers (datum.nr - entry.1.flag) entry.2

section Step

variable {policy next : TracePolicy} {choice : Choice}

theorem traces_of_select (hselect : policy.select choice.index choice.range = (next, .ok ()))
    {nr : UInt32} {index : Nat} :
    next.traces nr index = true ↔ policy.traces nr index = true ∨ choice.Covers nr index := by
  have haccepts : policy.Accepts choice :=
    select_snd_eq_ok_iff.mp (congrArg Prod.snd hselect)
  have hnext : policy.attempt choice = next := by rw [attempt, hselect]
  rw [← hnext, traces_attempt_iff]
  simp [haccepts]

/-- Every call that the choice reaches is to be traced then. -/
theorem judge_of_reaches (hselect : policy.select choice.index choice.range = (next, .ok ()))
    {table : AbiTable} {datum : Datum} (hreaches : choice.Reaches table datum) :
    next.judge table datum = .trace := by
  obtain ⟨entry, howner, hcovers⟩ := hreaches
  have htraces := (traces_of_select hselect).mpr (.inr hcovers)
  rw [judge_eq_elim, howner]
  simp [owed, htraces]

/-- On all other calls the verdict is the one that was owed before. -/
theorem judge_of_not_reaches (hselect : policy.select choice.index choice.range = (next, .ok ()))
    {table : AbiTable} {datum : Datum} (hapart : ¬choice.Reaches table datum) :
    next.judge table datum = policy.judge table datum := by
  rw [judge_eq_elim, judge_eq_elim]
  cases howner : table.owner? datum with
  | none => rfl
  | some entry =>
    have hcovers : ¬choice.Covers (datum.nr - entry.1.flag) entry.2 :=
      fun hcovers => hapart ⟨entry, howner, hcovers⟩
    have htraces : next.traces (datum.nr - entry.1.flag) entry.2 =
        policy.traces (datum.nr - entry.1.flag) entry.2 := by
      rw [Bool.eq_iff_iff, traces_of_select hselect, or_iff_left hcovers]
    rw [Option.elim_some, Option.elim_some, owed, owed, htraces]

end Step

end TracePolicy

namespace Generator

/-- Two filters chosen before and after an accepted choice differ on the calls
    that the choice reaches, and the later one traces these. Nothing is said of
    the generators: runs may have merged, blocks may no longer be uniform, and
    the other generator may have won. The policy need not be for the table. -/
theorem run_choose_select {table : AbiTable} {policy next : TracePolicy}
    {choice : TracePolicy.Choice} {before after : ActiveFilter}
    (hblocks : ∀ abi ∈ table, abi.FitsBlocks)
    (hselect : policy.select choice.index choice.range = (next, .ok ()))
    (hbefore : choose all table policy = .ok before) (hafter : choose all table next = .ok after)
    (datum : Datum) :
    ∃ old new : Verdict,
      run before.code datum = .ok old.code ∧ run after.code datum = .ok new.code ∧
      (choice.Reaches table datum → new = .trace) ∧
      (¬choice.Reaches table datum → new = old) ∧
      (old = .trace → new = .trace) ∧
      ∀ abi index, table.owner? datum = some (abi, index) → index ≠ choice.index → new = old := by
  have hsame (hapart : ¬choice.Reaches table datum) :=
    TracePolicy.judge_of_not_reaches hselect hapart
  refine ⟨policy.judge table datum, next.judge table datum,
    run_choose_eq_judge hblocks hbefore datum, run_choose_eq_judge hblocks hafter datum,
    TracePolicy.judge_of_reaches hselect, hsame, ?_, ?_⟩
  · intro hold
    by_cases hreaches : choice.Reaches table datum
    · exact TracePolicy.judge_of_reaches hselect hreaches
    · rw [hsame hreaches, hold]
  · intro abi index howner hindex
    apply hsame
    rintro ⟨entry, hentry, hcovers⟩
    rw [howner] at hentry
    cases hentry
    exact hindex hcovers.1

/-- The 34 runs of the old policy are cheaper to compare one by one, but with
    i386 call 4 there is one too many, and masks are shorter. The x86_64 call 1,
    between two traced ones, goes on being allowed. -/
theorem run_choose_select_otherGenerator :
    let policy : TracePolicy :=
      ⟨#[⟨64, ⟨[0x5555555555555555]⟩, []⟩, ⟨64, ⟨[5]⟩, []⟩, ⟨64, ⟨[]⟩, []⟩], false⟩
    let choice := TracePolicy.Choice.single 1 4
    (∀ abi ∈ AbiTable.hostHead, abi.FitsBlocks) ∧ ∃ next before after,
      policy.select choice.index choice.range = (next, .ok ()) ∧
      choose all AbiTable.hostHead policy = .ok before ∧ before.generator = "linear" ∧
      choose all AbiTable.hostHead next = .ok after ∧ after.generator = "binary-match" ∧
      run after.code ⟨Arch.i386, 4⟩ = .ok Verdict.trace.code ∧
      run after.code ⟨Arch.x86_64, 1⟩ = run before.code ⟨Arch.x86_64, 1⟩ := by
  intro policy choice
  have hblocks : ∀ abi ∈ AbiTable.hostHead, abi.FitsBlocks := by decide
  have hselect : policy.select choice.index choice.range = (policy.attempt choice, .ok ()) := by
    decide +kernel
  obtain ⟨before, hbefore, hlinear⟩ :=
    Except.exists_of_map_eq_ok (show (choose all AbiTable.hostHead policy).map (·.generator) =
      .ok "linear" by decide +kernel)
  obtain ⟨after, hafter, hmatch⟩ :=
    Except.exists_of_map_eq_ok (show (choose all AbiTable.hostHead (policy.attempt choice)).map
      (·.generator) = .ok "binary-match" by decide +kernel)
  have hruns := run_choose_select hblocks hselect hbefore hafter
  refine ⟨hblocks, _, before, after, hselect, hbefore, hlinear, hafter, hmatch, ?_, ?_⟩
  · obtain ⟨_, new, _, hnew, htrace, _⟩ := hruns ⟨Arch.i386, 4⟩
    rw [hnew, htrace ⟨({ Abi.i386 with count := 64 }, 1), by decide, rfl, by decide, by decide⟩]
  · obtain ⟨old, new, hold, hnew, _, _, _, hother⟩ := hruns ⟨Arch.x86_64, 1⟩
    rw [hnew, hold, hother { Abi.x86_64 with count := 64 } 0 (by decide) (by decide)]

end Generator

end SyscallFilter
