import SyscallFilter.FilterSetup
import SyscallFilter.Proofs.Selection.Agreement
import SyscallFilter.Proofs.Selection.Checked
import SyscallFilter.Proofs.TracePolicy.History

namespace SyscallFilter

namespace FilterSetup

section Parts

variable {table : AbiTable} {policy : TracePolicy}
  (hcounts : ∀ abi ∈ table, abi.count.toNat + 32 ≤ UInt32.size)
  (hstarts : RangeTest.StartsFit table policy)

include hcounts hstarts

end Parts

end FilterSetup

end SyscallFilter
