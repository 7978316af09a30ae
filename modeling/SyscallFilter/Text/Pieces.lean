import SyscallFilter.Text.Blank

namespace SyscallFilter.Text

/-- The pieces between separators that hold more than blanks, without the blanks at
    their ends. -/
def items (separator : Char) (text : List Char) : List (List Char) :=
  ((text.splitOn separator).map trim).filter (· ≠ [])

end SyscallFilter.Text
