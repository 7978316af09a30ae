namespace SyscallFilter.CommandLine

/-- An argument of a command. Without a letter and a long name it is no option but
    a word that stands for itself. -/
structure Argument where
  name : String
  short : Option Char := none
  long : Option String := none
  takesValue : Bool := false
  repeatable : Bool := false
  required : Bool := false
  default : Option String := none
  /-- The arguments that it must not stand beside. -/
  conflicts : List String := []
  deriving DecidableEq

structure Command where
  name : String
  arguments : List Argument
  deriving DecidableEq

/-- A program with commands, one of which has to be given. Its own arguments stand
    in front of the command. -/
structure Grammar where
  program : Command
  commands : List Command
  deriving DecidableEq

namespace Argument

/-- The index of the ABI that the other arguments are about. -/
def abi : Argument :=
  { name := "personality", short := some 'p', long := some "personality", takesValue := true
    default := some "0" }

/-- Numbers to trace. -/
def trace : Argument :=
  { name := "trace", short := some 't', long := some "trace", takesValue := true
    repeatable := true }

def stackTraces : Argument :=
  { name := "stack-trace", short := some 'k', long := some "stack-trace" }

def dump : Argument :=
  { name := "dump", short := some 'd', long := some "dump" }

/-- The number to classify. -/
def number : Argument :=
  { name := "NR", takesValue := true, required := true }

def verbose : Argument :=
  { name := "verbose", short := some 'v', conflicts := ["loglevel"] }

def logLevel : Argument :=
  { name := "loglevel", short := some 'l', takesValue := true }

end Argument

namespace Command

def compile : Command :=
  ⟨"compile", [.abi, .trace, .stackTraces]⟩

def probe : Command :=
  ⟨"probe", [.abi, .trace, .stackTraces, .dump]⟩

def classify : Command :=
  ⟨"classify", [.number, .abi, .trace, .stackTraces]⟩

end Command

/-- The command lines of this program. -/
def grammar : Grammar :=
  { program := ⟨"seccomp-sieve", [.verbose, .logLevel]⟩
    commands := [.compile, .probe, .classify] }

end SyscallFilter.CommandLine
