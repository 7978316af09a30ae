namespace SyscallFilter

/-- The signals of the kernel, in the order of their numbers. -/
inductive Signal where
  | hup
  | int
  | quit
  | ill
  | trap
  | abrt
  | bus
  | fpe
  | kill
  | usr1
  | segv
  | usr2
  | pipe
  | alrm
  | term
  | stkflt
  | chld
  | cont
  | stop
  | tstp
  | ttin
  | ttou
  | urg
  | xcpu
  | xfsz
  | vtalrm
  | prof
  | winch
  | io
  | pwr
  | sys
  deriving DecidableEq

namespace Signal

def all : List Signal :=
  [hup, int, quit, ill, trap, abrt, bus, fpe, kill, usr1, segv, usr2, pipe, alrm, term, stkflt,
    chld, cont, stop, tstp, ttin, ttou, urg, xcpu, xfsz, vtalrm, prof, winch, io, pwr, sys]

def name : Signal → String
  | .hup => "SIGHUP"
  | .int => "SIGINT"
  | .quit => "SIGQUIT"
  | .ill => "SIGILL"
  | .trap => "SIGTRAP"
  | .abrt => "SIGABRT"
  | .bus => "SIGBUS"
  | .fpe => "SIGFPE"
  | .kill => "SIGKILL"
  | .usr1 => "SIGUSR1"
  | .segv => "SIGSEGV"
  | .usr2 => "SIGUSR2"
  | .pipe => "SIGPIPE"
  | .alrm => "SIGALRM"
  | .term => "SIGTERM"
  | .stkflt => "SIGSTKFLT"
  | .chld => "SIGCHLD"
  | .cont => "SIGCONT"
  | .stop => "SIGSTOP"
  | .tstp => "SIGTSTP"
  | .ttin => "SIGTTIN"
  | .ttou => "SIGTTOU"
  | .urg => "SIGURG"
  | .xcpu => "SIGXCPU"
  | .xfsz => "SIGXFSZ"
  | .vtalrm => "SIGVTALRM"
  | .prof => "SIGPROF"
  | .winch => "SIGWINCH"
  | .io => "SIGIO"
  | .pwr => "SIGPWR"
  | .sys => "SIGSYS"

def ofName? (name : String) : Option Signal :=
  all.find? (·.name = name)

end Signal

/-- What waiting for a process reports about it. -/
inductive WaitStatus where
  | exited (pid code : Int)
  | signaled (pid : Int) (signal : Signal) (coreDumped : Bool)
  | stopped (pid : Int) (signal : Signal)
  | ptraceEvent (pid : Int) (signal : Signal) (event : Int)
  | ptraceSyscall (pid : Int)
  | continued (pid : Int)
  | stillAlive
  deriving DecidableEq

end SyscallFilter
