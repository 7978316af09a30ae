namespace SyscallFilter

/-- The numbers from `start` up to `stop`, which is not included. -/
structure Run where
  start : Nat
  stop : Nat
  deriving DecidableEq

namespace Run

/-- How far numbers have been looked through for runs: the runs that have come to
    their end, and where the one begins that has not. -/
structure Scan where
  closed : Array Run
  opened : Option Nat

namespace Scan

/-- Ends the open run, if there is one, before `stop`. -/
def close (scan : Scan) (stop : Nat) : Scan :=
  match scan.opened with
  | some start => ⟨scan.closed.push ⟨start, stop⟩, none⟩
  | none => scan

/-- Looks at the next number. -/
def visit (member : Nat → Bool) (scan : Scan) (n : Nat) : Scan :=
  if member n then { scan with opened := some (scan.opened.getD n) } else scan.close n

end Scan

/-- Looks through the `length` numbers from `start` on for runs of members. The
    last run may be open to the end. -/
def scan (member : Nat → Bool) (start length : Nat) : List Run :=
  let scanned := (List.range' start length).foldl (Scan.visit member) ⟨#[], none⟩
  (scanned.close (start + length)).closed.toList

end Run

end SyscallFilter
