import SyscallFilter.Instruction
import SyscallFilter.Text.Numeral

namespace SyscallFilter

/-- What a filter sees of one system call. -/
structure Datum where
  arch : UInt32
  nr : UInt32
  deriving DecidableEq

def Datum.read (datum : Datum) : Field → UInt32
  | .nr => datum.nr
  | .arch => datum.arch

/-- The accumulator and the index register. -/
structure Registers where
  a : UInt32 := 0
  x : UInt32 := 0
  deriving DecidableEq

inductive Arithmetic where
  | and
  | shiftLeft
  | shiftRight
  deriving DecidableEq

/-- A shift by the word size or more leaves no bit. -/
def Arithmetic.apply (a operand : UInt32) : Arithmetic → UInt32
  | .and => a &&& operand
  | .shiftLeft => if operand < 32 then a <<< operand else 0
  | .shiftRight => if operand < 32 then a >>> operand else 0

inductive Test where
  | equal
  | atLeast
  | anyBit
  deriving DecidableEq

def Test.holds (a k : UInt32) : Test → Bool
  | .equal => a == k
  | .atLeast => k ≤ a
  | .anyBit => a &&& k != 0

inductive Operand where
  | constant (k : UInt32)
  | index
  deriving DecidableEq

def Operand.value (regs : Registers) : Operand → UInt32
  | .constant k => k
  | .index => regs.x

/-- What an instruction does, its code taken apart. -/
inductive Operation where
  | load (field : Field)
  | constant (k : UInt32)
  | arithmetic (op : Arithmetic) (operand : Operand)
  | jump (offset : UInt32)
  | branch (test : Test) (k : UInt32) (jt jf : UInt8)
  | ret (k : UInt32)
  | tax
  | txa
  deriving DecidableEq

/-- Why an instruction has no meaning. -/
inductive Unsupported where
  | offset (k : UInt32)
  | load (code : UInt16)
  | arithmetic (op : UInt16)
  | jump (op : UInt16)
  | move (op : UInt16)
  | instructionClass (cls : UInt16)
  deriving DecidableEq

namespace Instruction

def loadOperation (insn : Instruction) : Except Unsupported Operation :=
  if insn.code = Opcode.ld ||| Opcode.abs then
    if insn.k = Field.nr.offset then .ok (.load .nr)
    else if insn.k = Field.arch.offset then .ok (.load .arch)
    else .error (.offset insn.k)
  else if insn.code = Opcode.ld ||| Opcode.imm then .ok (.constant insn.k)
  else .error (.load insn.code)

def arithmeticOperation (insn : Instruction) : Except Unsupported Operation :=
  let operand := if insn.code &&& Opcode.x = 0 then .constant insn.k else .index
  let op := Opcode.operationOf insn.code
  if op = Opcode.and then .ok (.arithmetic .and operand)
  else if op = Opcode.lsh then .ok (.arithmetic .shiftLeft operand)
  else if op = Opcode.rsh then .ok (.arithmetic .shiftRight operand)
  else .error (.arithmetic op)

def jumpOperation (insn : Instruction) : Except Unsupported Operation :=
  let op := Opcode.operationOf insn.code
  if op = Opcode.ja then .ok (.jump insn.k)
  else if op = Opcode.jeq then .ok (.branch .equal insn.k insn.jt insn.jf)
  else if op = Opcode.jge then .ok (.branch .atLeast insn.k insn.jt insn.jf)
  else if op = Opcode.jset then .ok (.branch .anyBit insn.k insn.jt insn.jf)
  else .error (.jump op)

def moveOperation (insn : Instruction) : Except Unsupported Operation :=
  let op := Opcode.moveOf insn.code
  if op = Opcode.tax then .ok .tax
  else if op = Opcode.txa then .ok .txa
  else .error (.move op)

/-- The meaning of an instruction. Loads are decided by the whole code; the
    other classes ignore the bits that their operation does not need, and a
    return ignores all of them. -/
def operation (insn : Instruction) : Except Unsupported Operation :=
  let cls := Opcode.classOf insn.code
  if cls = Opcode.ld then loadOperation insn
  else if cls = Opcode.alu then arithmeticOperation insn
  else if cls = Opcode.jmp then jumpOperation insn
  else if cls = Opcode.ret then .ok (.ret insn.k)
  else if cls = Opcode.misc then moveOperation insn
  else .error (.instructionClass cls)

end Instruction

/-- What follows an operation: the run ends, or it goes on with the
    instruction after the next `skip` ones. -/
inductive Outcome where
  | done (k : UInt32)
  | next (regs : Registers) (skip : Nat)
  deriving DecidableEq

def Operation.perform (datum : Datum) (regs : Registers) : Operation → Outcome
  | .load field => .next { regs with a := datum.read field } 0
  | .constant k => .next { regs with a := k } 0
  | .arithmetic op operand => .next { regs with a := op.apply regs.a (operand.value regs) } 0
  | .jump offset => .next regs offset.toNat
  | .branch test k jt jf => .next regs (if test.holds regs.a k then jt else jf).toNat
  | .ret k => .done k
  | .tax => .next { regs with x := regs.a } 0
  | .txa => .next { regs with a := regs.x } 0

/-- Why a run has no result. -/
inductive Fault where
  | pastEnd (counter : Nat)
  | unsupported (cause : Unsupported) (position : Nat)
  deriving DecidableEq

def Fault.message : Fault → String
  | .pastEnd counter => s!"program counter {counter} ran past the end of the program"
  | .unsupported cause position =>
    match cause with
    | .offset k => s!"unsupported seccomp_data offset {k}"
    | .load code => s!"unsupported load {Numeral.hex 0 code.toNat} at {position}"
    | .arithmetic op => s!"unsupported alu operation {Numeral.hex 0 op.toNat} at {position}"
    | .jump op => s!"unsupported jump {Numeral.hex 0 op.toNat} at {position}"
    | .move op => s!"unsupported misc operation {Numeral.hex 0 op.toNat} at {position}"
    | .instructionClass cls =>
      s!"unsupported instruction class {Numeral.hex 0 cls.toNat} at {position}"

/-- Runs what is left of a program, of which `position` instructions lie behind
    and the next `skip` ones are jumped over. All jumps lead forward, so the
    run follows the list. -/
def runFrom (datum : Datum) :
    (position skip : Nat) → Registers → List Instruction → Except Fault UInt32
  | position, skip, _, [] => .error (.pastEnd (position + skip))
  | position, skip + 1, regs, _ :: rest => runFrom datum (position + 1) skip regs rest
  | position, 0, regs, insn :: rest =>
    match insn.operation with
    | .error cause => .error (.unsupported cause position)
    | .ok operation =>
      match operation.perform datum regs with
      | .done k => .ok k
      | .next regs skip => runFrom datum (position + 1) skip regs rest

/-- The value that a program returns for a system call. -/
def run (code : List Instruction) (datum : Datum) : Except Fault UInt32 :=
  runFrom datum 0 0 {} code

end SyscallFilter
