import SyscallFilter.NumberSet
import SyscallFilter.Text.Numeral
import SyscallFilter.Text.Pieces

namespace SyscallFilter

/-- A list of numbers and ranges in writing, such as `0,2,5-7`. -/
abbrev NumberSpec := List Char

namespace NumberSpec

/-- Why a text does not name a list of ranges. -/
inductive Error where
  | number (side : String) (cause : Numeral.Error)
  | reversed (item : String)
  | outOfRange (nr count : UInt32)
  | empty (spec : String)
  deriving DecidableEq

def Error.message : Error → String
  | .number side cause => s!"invalid syscall number '{side}', {cause.message}"
  | .reversed item => s!"invalid syscall range '{item}'"
  | .outOfRange nr count =>
    s!"syscall {nr} is out of range (personality has {count} syscalls)"
  | .empty spec => s!"empty syscall set '{spec}'"

/-- The two bounds an item names: the texts around its first dash, or twice the
    item if it has none. -/
def bounds (item : List Char) : List Char × List Char :=
  match item.dropWhile (· != '-') with
  | [] => (item, item)
  | _ :: upper => (Text.trim (item.takeWhile (· != '-')), Text.trim upper)

def readBound (side : List Char) : Except Error UInt32 :=
  (Numeral.readWord side).mapError (.number (String.ofList side))

/-- Reads one item as a range of the numbers below `count`. -/
def readItem (count : UInt32) (item : List Char) : Except Error NumberRange := do
  let lower ← readBound (bounds item).1
  let upper ← readBound (bounds item).2
  if upper < lower then .error (.reversed (String.ofList item))
  else if count ≤ upper then .error (.outOfRange upper count)
  else .ok ⟨lower, upper⟩

/-- Reads a text as ranges of the numbers below `count`, in the order they are
    written, with commas between them. Blank items count for nothing; the
    leftmost bad item decides the error. -/
def parse (count : UInt32) (spec : NumberSpec) : Except Error (List NumberRange) := do
  let ranges ← (Text.items ',' spec).mapM (readItem count)
  if ranges.isEmpty then .error (.empty (String.ofList spec)) else .ok ranges

end NumberSpec

end SyscallFilter
