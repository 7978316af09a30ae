namespace SyscallFilter

/-- The failures of system calls that the program has to name. -/
inductive Errno where
  | unknown
  | eperm
  | esrch
  | echild
  | efault
  | einval
  | enosys
  deriving DecidableEq

namespace Errno

/-- The error with this number. Numbers without a name here are unknown. -/
def ofNumber : Nat → Errno
  | 1 => .eperm
  | 3 => .esrch
  | 10 => .echild
  | 14 => .efault
  | 22 => .einval
  | 38 => .enosys
  | _ => .unknown

def message : Errno → String
  | .unknown => "UnknownErrno: Unknown errno"
  | .eperm => "EPERM: Operation not permitted"
  | .esrch => "ESRCH: No such process"
  | .echild => "ECHILD: No child processes"
  | .efault => "EFAULT: Bad address"
  | .einval => "EINVAL: Invalid argument"
  | .enosys => "ENOSYS: Function not implemented"

end Errno

/-- A failed system call and what it was needed for. -/
structure SystemError where
  context : String
  errno : Errno
  deriving DecidableEq

def SystemError.message (failure : SystemError) : String :=
  s!"{failure.context}, {failure.errno.message}"

end SyscallFilter
