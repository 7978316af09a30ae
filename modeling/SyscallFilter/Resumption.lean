import SyscallFilter.TracePolicy

namespace SyscallFilter

/-- How a stopped process goes on after a system call. -/
inductive Resumption where
  /-- Up to the next entry into a system call. -/
  | syscall
  /-- Until its filter hands over a system call. -/
  | cont
  deriving DecidableEq

def Resumption.name : Resumption → String
  | .syscall => "Syscall"
  | .cont => "Cont"

/-- How a filtered process goes on after leaving a system call. Only a known
    call that is traced stops it at the next entry. -/
def TracePolicy.resumption (policy : TracePolicy) (nr : UInt32) (index : Nat) : Resumption :=
  if nr < policy.count index ∧ policy.traces nr index then .syscall else .cont

end SyscallFilter
