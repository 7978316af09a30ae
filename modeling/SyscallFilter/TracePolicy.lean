import SyscallFilter.NumberSet
import SyscallFilter.SyscallClass

namespace SyscallFilter

/-- What is known of the numbers of one ABI: how many there are, which ones the
    user selected, and which ones are special. -/
structure Roster where
  count : UInt32
  selected : NumberSet
  special : List (UInt32 × SyscallClass)
  deriving DecidableEq

namespace Roster

def ofAbi (abi : Abi) : Roster :=
  ⟨abi.count, .empty, abi.specialCalls⟩

/-- A roster in which no call is special. -/
def bare (abi : Abi) : Roster :=
  ⟨abi.count, .empty, []⟩

def insert (roster : Roster) (range : NumberRange) : Roster :=
  { roster with
    selected := roster.selected.insertRange range.lower.toNat range.upper.toNat }

/-- Whether calls of the class are traced without being selected. -/
def forces (stackTraces : Bool) : SyscallClass → Bool
  | .indirectSubcall => true
  | .alwaysTraced => true
  | .mappingChange => stackTraces

def traces (roster : Roster) (stackTraces : Bool) (nr : UInt32) : Bool :=
  nr < roster.count &&
    (roster.selected.contains nr.toNat ||
      roster.special.any fun (special, cls) => special == nr && forces stackTraces cls)

end Roster

/-- Which system calls have to stop in the tracer, for every ABI of a table. -/
structure TracePolicy where
  rosters : Array Roster
  /-- Stack traces are taken, so calls that change the mappings matter too. -/
  stackTraces : Bool
  deriving DecidableEq

namespace TracePolicy

/-- Why a selection is refused. -/
inductive Error where
  | unknownAbi (index : Nat)
  | emptyRange (range : NumberRange)
  | outOfRange (nr : UInt32) (index : Nat) (count : UInt32)
  deriving DecidableEq

def Error.message : Error → String
  | .unknownAbi index => s!"no personality #{index}"
  | .emptyRange range => s!"empty syscall range {range.lower}..={range.upper}"
  | .outOfRange nr index count =>
    s!"syscall {nr} is out of range for personality #{index} ({count} syscalls)"

/-- Nothing selected, the special calls of every ABI in force. -/
def ofTable (table : AbiTable) (stackTraces : Bool) : TracePolicy :=
  ⟨(table.map Roster.ofAbi).toArray, stackTraces⟩

/-- Nothing selected and no call special. -/
def bare (table : AbiTable) : TracePolicy :=
  ⟨(table.map Roster.bare).toArray, false⟩

/-- How many numbers of the ABI are known, none if there is no such ABI. -/
def count (policy : TracePolicy) (index : Nat) : UInt32 :=
  match policy.rosters[index]? with
  | some roster => roster.count
  | none => 0

/-- Selects a range of numbers of one ABI. With the outcome comes the policy as it
    is then, also if the range was refused. -/
def select (policy : TracePolicy) (index : Nat) (range : NumberRange) :
    TracePolicy × Except Error Unit :=
  match policy.rosters[index]? with
  | none => (policy, .error (.unknownAbi index))
  | some roster =>
    if range.upper < range.lower then (policy, .error (.emptyRange range))
    else if roster.count ≤ range.upper then
      (policy, .error (.outOfRange range.upper index roster.count))
    else
      ({ policy with rosters := policy.rosters.setIfInBounds index (roster.insert range) }, .ok ())

/-- Selects a range for a caller that has no use for the policy if that is
    refused. -/
def trySelect (policy : TracePolicy) (index : Nat) (range : NumberRange) :
    Except Error TracePolicy :=
  match policy.select index range with
  | (next, .ok ()) => .ok next
  | (_, .error error) => .error error

/-- Whether the call is handed to the tracer. Numbers beyond the known ones
    are not. -/
def traces (policy : TracePolicy) (nr : UInt32) (index : Nat) : Bool :=
  match policy.rosters[index]? with
  | some roster => roster.traces policy.stackTraces nr
  | none => false

end TracePolicy

end SyscallFilter
