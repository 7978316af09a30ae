import SyscallFilter.Abi
import SyscallFilter.Instruction

namespace SyscallFilter

/-- Where a jump leads, said before the length of its section is known. -/
inductive Target where
  /-- Past this many of the following lines. -/
  | skip (lines : UInt8)
  /-- The first instruction after the section. -/
  | next
  /-- The return at the end of the section that traces the call. -/
  | trace
  /-- The return at the end of the section that allows the call. -/
  | allow
  deriving DecidableEq

/-- An instruction of a section under construction. -/
inductive Line where
  | stmt (insn : Instruction)
  /-- A conditional jump; `code` need not name the class. -/
  | branch (code : UInt16) (k : UInt32) (jt jf : Target)
  | always (target : Target)
  deriving DecidableEq

/-- The offset of the target from a line that `following` lines of the section
    follow. Every section ends with a return that allows the call and one that
    traces it. -/
def Target.offset (following : Nat) : Target → UInt8
  | .skip lines => lines
  | .allow => UInt8.ofNat following
  | .trace => UInt8.ofNat (following + 1)
  | .next => UInt8.ofNat (following + 2)

def Line.resolve (following : Nat) : Line → Instruction
  | .stmt insn => insn
  | .branch code k jt jf => .jump code k (jt.offset following) (jf.offset following)
  | .always target => .jump Opcode.ja (target.offset following).toUInt32 0 0

/-- The part of a filter that judges the calls of one ABI, its two final
    returns not written out. -/
abbrev Section := List Line

namespace Section

/-- The longest section over which a jump can lead. -/
def maxSize : Nat := 255

/-- How many instructions the section has in the end. -/
def size (lines : Section) : Nat :=
  lines.length + 2

/-- Resolves every target and adds the final returns. -/
def resolve : Section → List Instruction
  | [] => [.ret .allow, .ret .trace]
  | line :: rest => line.resolve rest.length :: resolve rest

@[simp] theorem length_resolve (lines : Section) : lines.resolve.length = lines.size := by
  induction lines with
  | nil => rfl
  | cons line rest ih => simp [resolve, size, ih]

/-- The instructions of the section, unless it is too long for its jumps. -/
def resolve? (lines : Section) : Option (List Instruction) :=
  if lines.size ≤ maxSize then some lines.resolve else none

/-- How every section begins: a call of another architecture leaves the section
    at once, and then the number is loaded. If the ABI has a flag, a number
    without it leaves too, with the architecture loaded again for the section
    that follows. -/
def preamble (abi : Abi) : Section :=
  [.branch Opcode.jeq abi.arch (.skip 0) .next, .stmt (.load .nr)] ++
    if abi.flag = 0 then []
    else
      [.branch Opcode.jge abi.flag (.skip 2) (.skip 0), .stmt (.load .arch), .always .next]

end Section

end SyscallFilter
