namespace SyscallFilter

/-- How much a message matters, most urgent first. -/
inductive Level where
  | error
  | warn
  | info
  | debug
  | trace
  deriving DecidableEq

/-- The parts of the program that have something to report. -/
inductive Origin where
  | commandLine
  | layout
  | selection
  | processControl
  deriving DecidableEq

/-- A message reported beside an answer. -/
structure Note where
  level : Level
  origin : Origin
  message : String
  deriving DecidableEq

/-- Messages in the order they were reported. -/
abbrev Journal := List Note

end SyscallFilter
