import SyscallFilter.Proofs.SyscallClass

namespace SyscallFilter

namespace Roster

theorem traces_iff {roster : Roster} {stackTraces : Bool} {nr : UInt32} :
    roster.traces stackTraces nr = true ↔
      nr < roster.count ∧ (roster.selected.contains nr.toNat = true ∨
        ∃ cls, (nr, cls) ∈ roster.special ∧ forces stackTraces cls = true) := by
  simp only [traces, Bool.and_eq_true, Bool.or_eq_true, decide_eq_true_eq, List.any_eq_true,
    Prod.exists, beq_iff_eq]
  constructor
  · rintro ⟨hnr, hselected | ⟨special, cls, hspecial, rfl, hforces⟩⟩
    · exact ⟨hnr, .inl hselected⟩
    · exact ⟨hnr, .inr ⟨cls, hspecial, hforces⟩⟩
  · rintro ⟨hnr, hselected | ⟨cls, hspecial, hforces⟩⟩
    · exact ⟨hnr, .inl hselected⟩
    · exact ⟨hnr, .inr ⟨nr, cls, hspecial, rfl, hforces⟩⟩

/-- Selecting known numbers adds them to those that are traced. -/
theorem traces_insert_iff {roster : Roster} {range : NumberRange} {stackTraces : Bool}
    {nr : UInt32} (hrange : range.upper < roster.count) :
    (roster.insert range).traces stackTraces nr = true ↔
      roster.traces stackTraces nr = true ∨ range.lower ≤ nr ∧ nr ≤ range.upper := by
  simp only [traces_iff, insert, NumberSet.contains_insertRange, ← UInt32.le_iff_toNat_le,
    Bool.and_eq_true, Bool.or_eq_true, decide_eq_true_eq]
  constructor
  · rintro ⟨hnr, (hselected | hcovers) | hspecial⟩
    · exact .inl ⟨hnr, .inl hselected⟩
    · exact .inr hcovers
    · exact .inl ⟨hnr, .inr hspecial⟩
  · rintro (⟨hnr, hselected | hspecial⟩ | ⟨hlower, hupper⟩)
    · exact ⟨hnr, .inl (.inl hselected)⟩
    · exact ⟨hnr, .inr hspecial⟩
    · exact ⟨UInt32.lt_of_le_of_lt hupper hrange, .inl (.inr ⟨hlower, hupper⟩)⟩

end Roster

namespace TracePolicy

theorem lt_count_of_traces {policy : TracePolicy} {nr : UInt32} {index : Nat}
    (htraces : policy.traces nr index = true) : nr < policy.count index := by
  rw [traces] at htraces
  rw [count]
  cases hroster : policy.rosters[index]? with
  | none => simp [hroster] at htraces
  | some roster =>
    rw [hroster] at htraces
    exact (Roster.traces_iff.mp htraces).1

/-- Numbers of one ABI that are asked to be traced. -/
structure Choice where
  index : Nat
  range : NumberRange
  deriving DecidableEq

namespace Choice

def single (index : Nat) (nr : UInt32) : Choice :=
  ⟨index, nr, nr⟩

def Covers (choice : Choice) (nr : UInt32) (index : Nat) : Prop :=
  index = choice.index ∧ choice.range.lower ≤ nr ∧ nr ≤ choice.range.upper

end Choice

/-- The policy after a choice, accepted or refused. -/
def attempt (policy : TracePolicy) (choice : Choice) : TracePolicy :=
  (policy.select choice.index choice.range).1

/-- The policy after choices made one after the other. -/
def attemptAll (policy : TracePolicy) (history : List Choice) : TracePolicy :=
  history.foldl attempt policy

/-- The choice names numbers of the ABI, at least one. As an unknown ABI has no
    numbers, its index need not be looked at. -/
def Accepts (policy : TracePolicy) (choice : Choice) : Prop :=
  choice.range.lower ≤ choice.range.upper ∧ choice.range.upper < policy.count choice.index

theorem Accepts.lt_count {policy : TracePolicy} {choice : Choice} (haccepts : policy.Accepts choice)
    {nr : UInt32} {index : Nat} (hcovers : choice.Covers nr index) : nr < policy.count index := by
  obtain ⟨rfl, _, hupper⟩ := hcovers
  exact UInt32.lt_of_le_of_lt hupper haccepts.2

section Step

variable {policy next : TracePolicy} {choice : Choice} {index : Nat} {range : NumberRange}

theorem select_eq_ok_iff :
    policy.select index range = (next, .ok ()) ↔
      ∃ roster, policy.rosters[index]? = some roster ∧ range.lower ≤ range.upper ∧
        range.upper < roster.count ∧
        next = { policy with
          rosters := policy.rosters.setIfInBounds index (roster.insert range) } := by
  unfold select
  cases policy.rosters[index]? with
  | none => simp
  | some roster =>
    by_cases hempty : range.upper < range.lower
    · simp [hempty, UInt32.not_le.mpr hempty]
    · by_cases hpast : roster.count ≤ range.upper
      · simp [hempty, hpast, UInt32.not_lt.mpr hpast]
      · simp [hempty, hpast, UInt32.not_lt.mp hempty, UInt32.not_le.mp hpast, eq_comm]

/-- Every check comes before the first write, so what is refused has changed
    nothing. -/
theorem eq_of_select_eq_error {error : Error}
    (hselect : policy.select index range = (next, .error error)) : next = policy := by
  unfold select at hselect
  cases hroster : policy.rosters[index]? with
  | none =>
    rw [hroster] at hselect
    exact (congrArg Prod.fst hselect).symm
  | some roster =>
    simp only [hroster] at hselect
    split at hselect
    · exact (congrArg Prod.fst hselect).symm
    · split at hselect
      · exact (congrArg Prod.fst hselect).symm
      · cases congrArg Prod.snd hselect

theorem select_snd_eq_ok_iff :
    (policy.select choice.index choice.range).2 = .ok () ↔ policy.Accepts choice := by
  have hselect : (policy.select choice.index choice.range).2 = .ok () ↔
      ∃ next, policy.select choice.index choice.range = (next, .ok ()) := by
    simp [Prod.ext_iff]
  rw [hselect]
  simp only [select_eq_ok_iff, Accepts, count]
  cases policy.rosters[choice.index]? with
  | none => simp
  | some roster => simp

theorem exists_select_eq_error_iff :
    (∃ error, (policy.select choice.index choice.range).2 = .error error) ↔
      ¬policy.Accepts choice := by
  rw [← select_snd_eq_ok_iff]
  rcases (policy.select choice.index choice.range).2 with error | _
  · simp
  · simp

/-- An accepted choice changes the roster of its ABI only. -/
theorem getElem?_rosters_of_select (hselect : policy.select index range = (next, .ok ()))
    (other : Nat) :
    next.rosters[other]? =
      policy.rosters[other]?.map fun roster =>
        if other = index then roster.insert range else roster := by
  obtain ⟨roster, hroster, _, _, rfl⟩ := select_eq_ok_iff.mp hselect
  rw [Array.getElem?_setIfInBounds]
  by_cases hsame : other = index
  · subst other
    obtain ⟨hindex, _⟩ := Array.getElem?_eq_some_iff.mp hroster
    rw [if_pos rfl, if_pos hindex, hroster, Option.map_some, if_pos rfl]
  · simp [hsame, Ne.symm hsame]

end Step

section Attempt

variable (policy : TracePolicy) (choice : Choice)

theorem attempt_cases :
    policy.Accepts choice ∧
        policy.select choice.index choice.range = (policy.attempt choice, .ok ()) ∨
      ¬policy.Accepts choice ∧ policy.attempt choice = policy := by
  rw [← select_snd_eq_ok_iff, attempt]
  rcases hselect : policy.select choice.index choice.range with ⟨next, error | _⟩
  · exact .inr ⟨by simp, eq_of_select_eq_error hselect⟩
  · exact .inl ⟨rfl, rfl⟩

@[simp] theorem size_attempt : (policy.attempt choice).rosters.size = policy.rosters.size := by
  rcases attempt_cases policy choice with ⟨_, hselect⟩ | ⟨_, hsame⟩
  · obtain ⟨roster, _, _, _, hnext⟩ := select_eq_ok_iff.mp hselect
    rw [hnext, Array.size_setIfInBounds]
  · rw [hsame]

@[simp] theorem count_attempt (index : Nat) :
    (policy.attempt choice).count index = policy.count index := by
  rcases attempt_cases policy choice with ⟨_, hselect⟩ | ⟨_, hsame⟩
  · rw [count, count, getElem?_rosters_of_select hselect]
    cases policy.rosters[index]? with
    | none => rfl
    | some roster =>
      dsimp only [Option.map_some]
      split <;> rfl
  · rw [hsame]

/-- What was traced stays so, and an accepted choice adds the numbers it covers. -/
theorem traces_attempt_iff {nr : UInt32} {index : Nat} :
    (policy.attempt choice).traces nr index = true ↔
      policy.traces nr index = true ∨ policy.Accepts choice ∧ choice.Covers nr index := by
  rcases attempt_cases policy choice with ⟨haccepts, hselect⟩ | ⟨hrefuses, hsame⟩
  · have hnext := getElem?_rosters_of_select hselect index
    obtain ⟨roster, hroster, _, hupper, hpolicy⟩ := select_eq_ok_iff.mp hselect
    have hstack : (policy.attempt choice).stackTraces = policy.stackTraces := by rw [hpolicy]
    rw [traces, traces, hnext, hstack]
    -- A choice made for another ABI changes nothing here, and it covers nothing here.
    by_cases hindex : index = choice.index
    · subst index
      simp [hroster, Roster.traces_insert_iff hupper, haccepts, Choice.Covers]
    · cases policy.rosters[index]? with
      | none => simp [Choice.Covers, hindex]
      | some other => simp [Choice.Covers, hindex]
  · simp [hsame, hrefuses]

end Attempt

section History

variable (policy : TracePolicy) (history : List Choice)

theorem size_attemptAll : (policy.attemptAll history).rosters.size = policy.rosters.size := by
  induction history generalizing policy with
  | nil => rfl
  | cons choice later ih =>
    rw [attemptAll, List.foldl_cons]
    exact (ih _).trans (size_attempt policy choice)

theorem count_attemptAll (index : Nat) :
    (policy.attemptAll history).count index = policy.count index := by
  induction history generalizing policy with
  | nil => rfl
  | cons choice later ih =>
    rw [attemptAll, List.foldl_cons]
    exact (ih _).trans (count_attempt policy choice index)

/-- As the counts never change, whether a choice is accepted does not depend on
    when it is made. -/
theorem accepts_attemptAll_iff {choice : Choice} :
    (policy.attemptAll history).Accepts choice ↔ policy.Accepts choice := by
  rw [Accepts, Accepts, count_attemptAll]

theorem traces_attemptAll_iff {nr : UInt32} {index : Nat} :
    (policy.attemptAll history).traces nr index = true ↔
      policy.traces nr index = true ∨
        ∃ choice ∈ history, policy.Accepts choice ∧ choice.Covers nr index := by
  induction history generalizing policy with
  | nil => simp [attemptAll]
  | cons choice later ih =>
    have haccepts {other : Choice} : (policy.attempt choice).Accepts other ↔ policy.Accepts other :=
      accepts_attemptAll_iff policy [choice]
    rw [attemptAll, List.foldl_cons]
    refine (ih _).trans ?_
    simp [traces_attempt_iff, haccepts, or_assoc]

/-- Some choice of the history, accepted when it was made, covers the number. -/
def Chosen (nr : UInt32) (index : Nat) : Prop :=
  ∃ earlier choice later, history = earlier ++ choice :: later ∧
    ((policy.attemptAll earlier).select choice.index choice.range).2 = .ok () ∧
    choice.Covers nr index

theorem chosen_iff {nr : UInt32} {index : Nat} :
    Chosen policy history nr index ↔
      ∃ choice ∈ history, policy.Accepts choice ∧ choice.Covers nr index := by
  simp only [Chosen, select_snd_eq_ok_iff, accepts_attemptAll_iff]
  constructor
  · rintro ⟨earlier, choice, later, rfl, haccepts, hcovers⟩
    exact ⟨choice, by simp, haccepts, hcovers⟩
  · rintro ⟨choice, hchoice, haccepts, hcovers⟩
    obtain ⟨earlier, later, hsplit⟩ := List.append_of_mem hchoice
    exact ⟨earlier, choice, later, hsplit, haccepts, hcovers⟩

end History

/-- How a policy for a table begins. -/
inductive Start where
  /-- With the special calls of every ABI in force. -/
  | ofTable (stackTraces : Bool)
  | bare
  deriving DecidableEq

namespace Start

def policy (table : AbiTable) : Start → TracePolicy
  | ofTable stackTraces => .ofTable table stackTraces
  | bare => .bare table

/-- The class of the number alone has it traced. -/
def Forces (abi : Abi) (nr : UInt32) : Start → Prop
  | ofTable stackTraces =>
    abi.HasClass nr .indirectSubcall ∨ abi.HasClass nr .alwaysTraced ∨
      abi.HasClass nr .mappingChange ∧ stackTraces = true
  | bare => False

def roster : Start → Abi → Roster
  | ofTable _ => .ofAbi
  | bare => .bare

theorem count_roster (start : Start) (abi : Abi) : (start.roster abi).count = abi.count := by
  cases start <;> rfl

variable (start : Start) (table : AbiTable)

theorem size_policy : (start.policy table).rosters.size = table.length := by
  cases start <;> simp [policy, TracePolicy.ofTable, TracePolicy.bare]

theorem getElem?_rosters_policy (index : Nat) :
    (start.policy table).rosters[index]? = table[index]?.map start.roster := by
  cases start <;> simp [policy, roster, TracePolicy.ofTable, TracePolicy.bare]

theorem count_policy (index : Nat) :
    (start.policy table).count index = (table[index]?.map Abi.count).getD 0 := by
  rw [count, getElem?_rosters_policy]
  cases table[index]? with
  | none => rfl
  | some abi => exact start.count_roster abi

theorem traces_roster_iff {abi : Abi} {nr : UInt32} :
    (start.roster abi).traces (start.policy table).stackTraces nr = true ↔
      nr < abi.count ∧ start.Forces abi nr := by
  rw [Roster.traces_iff, count_roster]
  refine and_congr_right fun hnr => ?_
  cases start with
  | ofTable stackTraces =>
    simp only [roster, Roster.ofAbi, NumberSet.contains_empty, Abi.mem_specialCalls_iff,
      Roster.forces_eq_true_iff, Bool.false_eq_true, false_or]
    constructor
    · rintro ⟨cls, ⟨hclass, _⟩, rfl | rfl | ⟨rfl, hstack⟩⟩
      · exact .inl hclass
      · exact .inr (.inl hclass)
      · exact .inr (.inr ⟨hclass, hstack⟩)
    · rintro (hclass | hclass | ⟨hclass, hstack⟩)
      · exact ⟨_, ⟨hclass, hnr⟩, .inl rfl⟩
      · exact ⟨_, ⟨hclass, hnr⟩, .inr (.inl rfl)⟩
      · exact ⟨_, ⟨hclass, hnr⟩, .inr (.inr ⟨rfl, hstack⟩)⟩
  | bare => simp [roster, Roster.bare, Forces]

theorem traces_policy_iff {nr : UInt32} {index : Nat} :
    (start.policy table).traces nr index = true ↔
      ∃ abi, table[index]? = some abi ∧ nr < abi.count ∧ start.Forces abi nr := by
  rw [traces, getElem?_rosters_policy]
  cases table[index]? with
  | none => simp
  | some abi => simp [start.traces_roster_iff table]

variable (history : List Choice)

theorem count_attemptAll (index : Nat) :
    ((start.policy table).attemptAll history).count index =
      (table[index]?.map Abi.count).getD 0 := by
  rw [TracePolicy.count_attemptAll, start.count_policy]

/-- An accepted choice covers numbers of the table only, so a bound on the number
    loses nothing. -/
theorem traces_attemptAll_iff {nr : UInt32} {index : Nat} :
    ((start.policy table).attemptAll history).traces nr index = true ↔
      ∃ abi, table[index]? = some abi ∧ nr < abi.count ∧
        (Chosen (start.policy table) history nr index ∨ start.Forces abi nr) := by
  rw [TracePolicy.traces_attemptAll_iff, chosen_iff, start.traces_policy_iff]
  constructor
  · rintro (⟨abi, habi, hnr, hforces⟩ | ⟨choice, hchoice, haccepts, hcovers⟩)
    · exact ⟨abi, habi, hnr, .inr hforces⟩
    · have hnr := haccepts.lt_count hcovers
      rw [start.count_policy] at hnr
      cases habi : table[index]? with
      | none => simp [habi] at hnr
      | some abi =>
        rw [habi] at hnr
        exact ⟨abi, rfl, hnr, .inl ⟨choice, hchoice, haccepts, hcovers⟩⟩
  · rintro ⟨abi, habi, hnr, hchosen | hforces⟩
    · exact .inr hchosen
    · exact .inl ⟨abi, habi, hnr, hforces⟩

end Start

/-- The policy is what choices, accepted or refused, made of a start for the
    table. -/
def BuiltFor (policy : TracePolicy) (table : AbiTable) : Prop :=
  ∃ start history, policy = (Start.policy table start).attemptAll history

theorem BuiltFor.count_eq {table : AbiTable} {policy : TracePolicy} (hbuilt : policy.BuiltFor table)
    {abi : Abi} {index : Nat} (habi : table[index]? = some abi) : policy.count index = abi.count := by
  obtain ⟨start, history, rfl⟩ := hbuilt
  rw [start.count_attemptAll, habi, Option.map_some, Option.getD_some]

/-- Whatever is asked of a policy, in any order and with any refusals, it answers
    for a set of numbers: those that accepted choices covered and those that its
    start forces, as far as the table has them. A choice is refused exactly if it
    names no numbers of the table, and then it leaves the policy as it was. -/
theorem answers_attemptAll (table : AbiTable) (start : Start) (history : List Choice) :
    let policy := (start.policy table).attemptAll history
    policy.rosters.size = table.length ∧
      (∀ index, policy.count index = (table[index]?.map Abi.count).getD 0) ∧
      (∀ choice : Choice,
        (∃ error, (policy.select choice.index choice.range).2 = .error error) ↔
          table.length ≤ choice.index ∨ choice.range.upper < choice.range.lower ∨
            ∃ abi, table[choice.index]? = some abi ∧ abi.count ≤ choice.range.upper) ∧
      (∀ (choice : Choice) next error,
        policy.select choice.index choice.range = (next, .error error) →
          next = policy ∧ ∀ nr index, next.traces nr index = policy.traces nr index) ∧
      ∀ nr index, policy.traces nr index = true ↔
        ∃ abi, table[index]? = some abi ∧ nr < abi.count ∧
          (Chosen (start.policy table) history nr index ∨ start.Forces abi nr) := by
  intro policy
  refine ⟨?_, start.count_attemptAll table history, ?_, ?_,
    fun _ _ => start.traces_attemptAll_iff table history⟩
  · rw [size_attemptAll, start.size_policy]
  · intro choice
    rw [exists_select_eq_error_iff, Accepts, start.count_attemptAll, not_and_or, UInt32.not_le,
      UInt32.not_lt]
    cases habi : table[choice.index]? with
    | none => simp [List.getElem?_eq_none_iff.mp habi]
    | some abi =>
      obtain ⟨hindex, _⟩ := List.getElem?_eq_some_iff.mp habi
      simp [Nat.not_le.mpr hindex]
  · intro choice next error hselect
    obtain rfl := eq_of_select_eq_error hselect
    exact ⟨rfl, fun _ _ => rfl⟩

/-- A range that runs past the numbers of x86_64 is refused as a whole, though
    two choices before it and the class of `execve` are in force. -/
theorem answers_attemptAll_host :
    let history : List Choice := [⟨1, 5, 7⟩, ⟨0, 7, 5⟩, .single 0 2]
    let policy := (Start.ofTable false).policy AbiTable.host |>.attemptAll history
    let refused : Choice := ⟨0, 460, 463⟩
    (∃ error, (policy.select refused.index refused.range).2 = .error error) ∧
      (policy.select refused.index refused.range).1 = policy ∧
      policy.traces 6 1 = true ∧ policy.traces 2 0 = true ∧ policy.traces 59 0 = true ∧
      policy.traces 461 0 = false := by
  intro history policy refused
  obtain ⟨_, _, hrefused, hsame, htraces⟩ :=
    answers_attemptAll AbiTable.host (.ofTable false) history
  have hpast : ∃ error, (policy.select refused.index refused.range).2 = .error error :=
    (hrefused refused).mpr (.inr (.inr ⟨Abi.x86_64, rfl, by decide⟩))
  obtain ⟨error, herror⟩ := hpast
  refine ⟨⟨error, herror⟩, (hsame refused _ error (Prod.ext rfl herror)).1, ?_, ?_, ?_,
    by decide +kernel⟩
  · refine (htraces 6 1).mpr ⟨Abi.i386, rfl, by decide, .inl ⟨[], _, _, rfl, rfl, ?_⟩⟩
    exact ⟨rfl, by decide, by decide⟩
  · refine (htraces 2 0).mpr ⟨Abi.x86_64, rfl, by decide, .inl ⟨[_, _], _, [], rfl, rfl, ?_⟩⟩
    exact ⟨rfl, by decide, by decide⟩
  · refine (htraces 59 0).mpr ⟨Abi.x86_64, rfl, by decide, .inr (.inr (.inl ?_))⟩
    exact ⟨Numbering.x86_64, by simp [Numbering.all], rfl, rfl, by decide⟩

end TracePolicy

end SyscallFilter
