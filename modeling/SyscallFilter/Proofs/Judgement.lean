import SyscallFilter.Judgement

namespace SyscallFilter

/-- Whether the preamble of the ABI lets a call pass. A flag is compared as a
    number, so that any number beyond it passes too. -/
def Abi.Admits (abi : Abi) (datum : Datum) : Prop :=
  abi.arch = datum.arch ∧ (abi.flag = 0 ∨ abi.flag ≤ datum.nr)

instance (abi : Abi) (datum : Datum) : Decidable (abi.Admits datum) :=
  inferInstanceAs (Decidable (_ ∧ _))

theorem Abi.Admits.flag_le {abi : Abi} {datum : Datum} (hadmits : abi.Admits datum) :
    abi.flag ≤ datum.nr := by
  rcases hadmits.2 with hzero | hreach
  · rw [hzero]
    exact UInt32.zero_le
  · exact hreach

theorem AbiTable.owner?_eq_find? (table : AbiTable) (datum : Datum) :
    table.owner? datum = table.testOrder.find? fun entry => entry.1.Admits datum := rfl

namespace TracePolicy

/-- The verdict owed to a call that belongs to the given ABI. -/
def owed (policy : TracePolicy) (datum : Datum) (entry : Abi × Nat) : Verdict :=
  let nr := datum.nr - entry.1.flag
  if entry.1.count ≤ nr ∨ policy.traces nr entry.2 then .trace else .allow

theorem judge_eq_elim (policy : TracePolicy) (table : AbiTable) (datum : Datum) :
    policy.judge table datum = (table.owner? datum).elim .trace (policy.owed datum) := by
  unfold judge
  cases table.owner? datum <;> rfl

theorem judge_eq_or (policy : TracePolicy) (table : AbiTable) (datum : Datum) :
    policy.judge table datum = .trace ∨ policy.judge table datum = .allow := by
  unfold judge
  split
  · exact .inl rfl
  · dsimp only
    split
    · exact .inl rfl
    · exact .inr rfl

end TracePolicy

end SyscallFilter
