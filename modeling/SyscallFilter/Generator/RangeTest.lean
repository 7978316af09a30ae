import SyscallFilter.Draft
import SyscallFilter.Panic
import SyscallFilter.Run
import SyscallFilter.TracePolicy

namespace SyscallFilter.RangeTest

/-- Traces the numbers of a run: one comparison if it has a single number,
    otherwise one for each end. -/
def compare (abi : Abi) (run : Run) : Section :=
  let lower := abi.mark (UInt32.ofNat run.start)
  let upper := abi.mark (UInt32.ofNat run.stop)
  if lower + 1 = upper then
    [.branch Opcode.jeq lower .trace (.skip 0)]
  else
    [.branch Opcode.jge lower (.skip 0) (.skip 1), .branch Opcode.jge upper (.skip 0) .trace]

/-- Whether the sum in `compare` leaves the words. -/
def compareWraps (abi : Abi) (run : Run) : Bool :=
  Word.addWraps (abi.mark (UInt32.ofNat run.start)) 1

/-- The runs of traced numbers of an ABI. -/
def tracedRuns (policy : TracePolicy) (abi : Abi) (index : Nat) : List Run :=
  Run.scan (fun nr => policy.traces (UInt32.ofNat nr) index) 0 abi.count.toNat

/-- Compares the number with every run; past the runs, unknown numbers are
    traced and the others allowed. -/
def body (policy : TracePolicy) (abi : Abi) (index : Nat) : Section :=
  (tracedRuns policy abi index).flatMap (compare abi) ++
    [.branch Opcode.jge (abi.mark abi.count) .trace .allow]

/-- Whether a sum leaves the words while the body is made. -/
def bodyWraps (policy : TracePolicy) (abi : Abi) (index : Nat) : Bool :=
  (tracedRuns policy abi index).any (compareWraps abi)

/-- A program of range comparisons, short when the traced numbers form a few
    runs. -/
def draft (table : AbiTable) (policy : TracePolicy) : Draft :=
  Draft.ofSections table (body policy)

def wraps (table : AbiTable) (policy : TracePolicy) : Bool :=
  Draft.wraps table (body policy) (bodyWraps policy)

end SyscallFilter.RangeTest
