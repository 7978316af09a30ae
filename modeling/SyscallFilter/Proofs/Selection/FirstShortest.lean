import Mathlib.Order.Bounds.Basic
import SyscallFilter.Proofs.Selection.Chosen

namespace SyscallFilter.Generator

section Shortest

variable {generators : List Generator} {table : AbiTable} {policy : TracePolicy}

end Shortest

end SyscallFilter.Generator
