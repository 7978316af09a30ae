import SyscallFilter.Journal
import SyscallFilter.Resumption
import SyscallFilter.SystemError

namespace SyscallFilter

/-- What is asked of the kernel about another process. -/
inductive Request where
  | resume (how : Resumption)
  | setOptions
  | stopAtSyscall
  | wait
  | kill
  deriving DecidableEq

namespace Request

/-- What could not be done if the request fails. -/
def context (pid : Int) : Request → String
  | .resume .syscall => s!"cannot resume {pid} with ptrace syscall"
  | .resume .cont => s!"cannot resume {pid} with ptrace cont"
  | .setOptions => "cannot set ptrace options"
  | .stopAtSyscall => "cannot set break on syscall with ptrace"
  | .wait => s!"failed to waitpid on tracee {pid}"
  | .kill => s!"cannot kill {pid}"

/-- How the kernel answers a request about a process that does not exist. To
    wait fails because the process is no child; all else, because there is no
    such process. -/
def errnoIfMissing : Request → Errno
  | .wait => .echild
  | _ => .esrch

/-- The failure of a request about a process that does not exist. -/
def missing (pid : Int) (request : Request) : SystemError :=
  ⟨request.context pid, request.errnoIfMissing⟩

/-- The warning about a traced process that does not exist and so was never
    seen to end. It cannot be killed either. -/
def missingAtEnd (pid : Int) : Note :=
  ⟨.warn, .processControl, s!"cannot reap tracee {pid}: {(missing pid .kill).message}"⟩

end Request

end SyscallFilter
