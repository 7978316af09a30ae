import SyscallFilter.CommandLine.Report

namespace SyscallFilter.CommandLine

/-- What ends a command before there is a report. -/
inductive Halt where
  /-- The library ends the program, as it has no use for the value of an argument. -/
  | refused (exit : Exit)
  | panic (cause : Panic)
  deriving DecidableEq

/-- The number that an argument gives. -/
def ArgumentLibrary.number {α : Type} (library : ArgumentLibrary)
    (read : List Char → Except Numeral.Error α) (arguments : Matches) (name : String) :
    Except Halt α :=
  match arguments.value? name with
  | none => .error (.refused (library.missing name))
  | some text =>
    (read text.toList).mapError fun cause => .refused (library.invalid name text cause.message)

section Commands

variable (library : ArgumentLibrary) (kernel : Kernel) (arguments : Matches)

/-- Reads the arguments that all commands have in common, and goes on with the ABI,
    its index and the policy. -/
def withPolicy (goOn : Abi → Nat → TracePolicy → Except Halt Report) : Except Halt Report := do
  let index ← library.number (Numeral.read (UInt64.size - 1)) arguments "personality"
  match policyOf arguments index with
  | .error failure => return .ofFailure failure
  | .ok (abi, policy) => goOn abi index policy

/-- What a command prints and reports. The number to classify is read last. -/
def reportOf : (command : String) → Except Halt Report
  | "compile" =>
    withPolicy library arguments fun _ _ policy => (compile policy).mapError .panic
  | "probe" =>
    withPolicy library arguments fun _ _ policy =>
      (probe kernel policy (arguments.occurs "dump")).mapError .panic
  | "classify" =>
    withPolicy library arguments fun abi index policy => do
      let nr ← library.number Numeral.readWord arguments "NR"
      (classify policy abi index nr).mapError .panic
  | _ => .error (.panic .unreachable)

end Commands

/-- To be verbose comes before a level for the log, and either before what the
    environment says. -/
def logSource (front : Matches) : LogSource :=
  if front.occurs "verbose" then .filters "debug"
  else
    match front.value? "loglevel" with
    | some level => .filters level
    | none => .environment "info"

/-- The end of a program that prints a report and logs its journal. -/
def Report.exit (log : Journal → List String) (report : Report) : Exit :=
  ⟨if report.failure.isSome then 1 else 0, report.output, log report.fullJournal⟩

/-- Runs a command line. -/
def execute (library : ArgumentLibrary) (logger : Logger) (kernel : Kernel) (words : List String) :
    Except Panic Exit :=
  match library.read grammar words with
  | .error exit => .ok exit
  | .ok ⟨_, none⟩ => .error .unreachable
  | .ok ⟨front, some (command, arguments)⟩ =>
    let log := logger (logSource front)
    match reportOf library kernel arguments command with
    | .error (.refused exit) => .ok { exit with errors := log [] ++ exit.errors }
    | .error (.panic cause) => .error cause
    | .ok report => .ok (report.exit log)

end SyscallFilter.CommandLine
