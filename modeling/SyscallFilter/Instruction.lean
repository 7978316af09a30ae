namespace SyscallFilter

namespace Opcode

/-- Class of the loads into the accumulator. -/
def ld : UInt16 := 0x00

/-- Class of the arithmetic on the accumulator. -/
def alu : UInt16 := 0x04

/-- Class of the jumps. -/
def jmp : UInt16 := 0x05

/-- Class of the returns. -/
def ret : UInt16 := 0x06

/-- Class of the moves between accumulator and index register. -/
def misc : UInt16 := 0x07

/-- Loads: the constant itself. -/
def imm : UInt16 := 0x00

/-- Loads: the word at the offset the constant names. -/
def abs : UInt16 := 0x20

/-- Arithmetic: bitwise and. -/
def and : UInt16 := 0x50

/-- Arithmetic: left shift. -/
def lsh : UInt16 := 0x60

/-- Arithmetic: right shift. -/
def rsh : UInt16 := 0x70

/-- Jumps: always, by the constant. -/
def ja : UInt16 := 0x00

/-- Jumps: whether the accumulator equals the constant. -/
def jeq : UInt16 := 0x10

/-- Jumps: whether the accumulator is at least the constant. -/
def jge : UInt16 := 0x30

/-- Jumps: whether the accumulator shares a set bit with the constant. -/
def jset : UInt16 := 0x40

/-- Arithmetic: the operand is the index register, not the constant. -/
def x : UInt16 := 0x08

/-- Moves: accumulator to index register. -/
def tax : UInt16 := 0x00

/-- Moves: index register to accumulator. -/
def txa : UInt16 := 0x80

/-- The class a code belongs to. -/
def classOf (code : UInt16) : UInt16 :=
  code &&& 0x07

/-- The operation of an arithmetic or jump code. -/
def operationOf (code : UInt16) : UInt16 :=
  code &&& 0xf0

/-- The operation of a move code. -/
def moveOf (code : UInt16) : UInt16 :=
  code &&& 0xf8

end Opcode

/-- The fields of a system call that a filter can read. -/
inductive Field where
  | nr
  | arch
  deriving DecidableEq

/-- Where the field lies in the record the kernel shows to a filter. -/
def Field.offset : Field → UInt32
  | .nr => 0
  | .arch => 4

/-- What a filter tells the kernel to do with a system call. -/
inductive Verdict where
  | kill
  | trace
  | allow
  deriving DecidableEq

namespace Verdict

/-- The value a filter returns for the verdict. -/
def code : Verdict → UInt32
  | .kill => 0x00000000
  | .trace => 0x7ff00000
  | .allow => 0x7fff0000

def name : Verdict → String
  | .kill => "KILL"
  | .trace => "TRACE"
  | .allow => "ALLOW"

/-- The verdict that a returned value stands for, if it is one of the three. -/
def ofCode? (k : UInt32) : Option Verdict :=
  [kill, trace, allow].find? (·.code = k)

theorem ofCode?_code (verdict : Verdict) : ofCode? verdict.code = some verdict := by
  cases verdict <;> rfl

end Verdict

/-- One instruction of a filter program: an operation code, the offsets of a
    jump when its test holds and when it fails, counted from the following
    instruction, and a constant. -/
structure Instruction where
  code : UInt16
  jt : UInt8
  jf : UInt8
  k : UInt32
  deriving DecidableEq

namespace Instruction

/-- An instruction without jump offsets. -/
def stmt (code : UInt16) (k : UInt32) : Instruction :=
  ⟨code, 0, 0, k⟩

/-- A jump; `code` need not name the class. -/
def jump (code : UInt16) (k : UInt32) (jt jf : UInt8) : Instruction :=
  ⟨Opcode.jmp ||| code, jt, jf, k⟩

def load (field : Field) : Instruction :=
  stmt (Opcode.ld ||| Opcode.abs) field.offset

def ret (verdict : Verdict) : Instruction :=
  stmt Opcode.ret verdict.code

def isJump (insn : Instruction) : Bool :=
  Opcode.classOf insn.code == Opcode.jmp

/-- The eight bytes the kernel reads, each field with its low byte first. -/
def bytes (insn : Instruction) : List UInt8 :=
  [insn.code.toUInt8, (insn.code >>> 8).toUInt8, insn.jt, insn.jf,
    insn.k.toUInt8, (insn.k >>> 8).toUInt8, (insn.k >>> 16).toUInt8, (insn.k >>> 24).toUInt8]

end Instruction

end SyscallFilter
