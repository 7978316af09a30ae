import SyscallFilter.CommandLine.Grammar
import SyscallFilter.Journal

namespace SyscallFilter.CommandLine

/-- The end of a program: its exit code and what it wrote to its two outputs. -/
structure Exit where
  code : Nat
  output : List String
  errors : List String
  deriving DecidableEq

/-- What was found of the arguments of one command, by their names. -/
structure Matches where
  /-- Whether the argument was given or has a default. -/
  occurs : String → Bool
  /-- Its values in their order, or else its default. -/
  values : String → List String

def Matches.value? (given : Matches) (name : String) : Option String :=
  (given.values name).head?

/-- A command line taken apart: the arguments in front, and the command with its
    own. -/
structure Parsed where
  front : Matches
  command : Option (String × Matches)

/-- The library that takes command lines apart. Where it cannot, or was asked for
    help, it ends the program itself. -/
structure ArgumentLibrary where
  read : Grammar → List String → Except Exit Parsed
  /-- The end of a program that has no value for an argument. -/
  missing : (argument : String) → Exit
  /-- The end of a program that can do nothing with the value of an argument. -/
  invalid : (argument value cause : String) → Exit

/-- Where the filter of a log comes from. -/
inductive LogSource where
  | filters (spec : String)
  /-- The environment, or this text if it says nothing. -/
  | environment (default : String)
  deriving DecidableEq

/-- The library that writes a log: the lines that it makes of a journal. -/
abbrev Logger := LogSource → Journal → List String

end SyscallFilter.CommandLine
