import SyscallFilter.CommandLine.Execution

namespace SyscallFilter.CommandLine

/-- Runs a command line, and prints what it comes to. -/
def runProgram (library : ArgumentLibrary) (logger : Logger) (kernel : Kernel)
    (words : List String) : IO UInt32 := do
  match execute library logger kernel words with
  | .error _ => return 101
  | .ok ending =>
    for line in ending.output do
      IO.println line
    for line in ending.errors do
      IO.eprintln line
    return UInt32.ofNat ending.code

end SyscallFilter.CommandLine
