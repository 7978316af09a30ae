import SyscallFilter.Machine
import SyscallFilter.TracePolicy

namespace SyscallFilter

/-- The ABI a filter takes a call to belong to, with its index: of those that
    have the architecture of the call, the first to be tested whose flag the
    number reaches. -/
def AbiTable.owner? (table : AbiTable) (datum : Datum) : Option (Abi × Nat) :=
  table.testOrder.find? fun (abi, _) =>
    abi.arch = datum.arch ∧ (abi.flag = 0 ∨ abi.flag ≤ datum.nr)

/-- The verdict that a filter owes a call under a policy, said without any
    program. A call of no known ABI and a number past the known ones are
    traced. -/
def TracePolicy.judge (policy : TracePolicy) (table : AbiTable) (datum : Datum) : Verdict :=
  match table.owner? datum with
  | none => .trace
  | some (abi, index) =>
    let nr := datum.nr - abi.flag
    if abi.count ≤ nr ∨ policy.traces nr index then .trace else .allow

end SyscallFilter
