import SyscallFilter.Instruction
import SyscallFilter.Text.Numeral

namespace SyscallFilter

/-- The instruction forms that have a mnemonic. -/
inductive Form where
  | loadWord
  | loadImm
  | ret
  | jeq
  | jge
  | jset
  | ja
  | and
  | lsh
  | rsh
  | tax
  | txa
  deriving DecidableEq

namespace Form

def all : List Form :=
  [loadWord, loadImm, ret, jeq, jge, jset, ja, and, lsh, rsh, tax, txa]

/-- The code of the form. Jumps, `and` and the right shift take the constant,
    the left shift takes the index register. -/
def code : Form → UInt16
  | .loadWord => Opcode.ld ||| Opcode.abs
  | .loadImm => Opcode.ld ||| Opcode.imm
  | .ret => Opcode.ret
  | .jeq => Opcode.jmp ||| Opcode.jeq
  | .jge => Opcode.jmp ||| Opcode.jge
  | .jset => Opcode.jmp ||| Opcode.jset
  | .ja => Opcode.jmp ||| Opcode.ja
  | .and => Opcode.alu ||| Opcode.and
  | .lsh => Opcode.alu ||| Opcode.lsh ||| Opcode.x
  | .rsh => Opcode.alu ||| Opcode.rsh
  | .tax => Opcode.misc ||| Opcode.tax
  | .txa => Opcode.misc ||| Opcode.txa

/-- The form with exactly this code. -/
def ofCode? (code : UInt16) : Option Form :=
  all.find? (·.code = code)

theorem ofCode?_code (form : Form) : ofCode? form.code = some form := by
  cases form <;> rfl

theorem code_of_ofCode? {code : UInt16} {form : Form} (h : ofCode? code = some form) :
    form.code = code := by
  simpa using List.find?_some h

end Form

namespace Instruction

def wordText (k : UInt32) : String :=
  if k = Field.arch.offset then "ld [arch]"
  else if k = Field.nr.offset then "ld [nr]"
  else s!"ld [{k}]"

def returnText (k : UInt32) : String :=
  match Verdict.ofCode? k with
  | some verdict => s!"ret {verdict.name}"
  | none => s!"ret #{Numeral.hex 0 k.toNat}"

def branchText (mnemonic : String) (insn : Instruction) : String :=
  s!"{mnemonic} #{Numeral.hex 0 insn.k.toNat}, jt {insn.jt}, jf {insn.jf}"

/-- The instruction as one line of a listing. A code that is no form is written
    as its four raw fields; a form writes only the fields it uses. -/
def text (insn : Instruction) : String :=
  match Form.ofCode? insn.code with
  | some .loadWord => wordText insn.k
  | some .loadImm => s!"ld #{Numeral.hex 0 insn.k.toNat}"
  | some .ret => returnText insn.k
  | some .jeq => branchText "jeq" insn
  | some .jge => branchText "jge" insn
  | some .jset => branchText "jset" insn
  | some .ja => s!"ja +{insn.k}"
  | some .and => s!"and #{Numeral.hex 0 insn.k.toNat}"
  | some .lsh => "lsh x"
  | some .rsh => s!"rsh #{insn.k}"
  | some .tax => "tax"
  | some .txa => "txa"
  | none =>
    let code := Numeral.hex 4 insn.code.toNat
    let k := Numeral.hex 0 insn.k.toNat
    s!"raw code={code} jt={insn.jt} jf={insn.jf} k={k}"

end Instruction

/-- The lines of a listing: each instruction after its position. -/
def listing (code : List Instruction) : List String :=
  code.zipIdx.map fun (insn, position) => s!"{Numeral.padded 4 position}: {insn.text}"

end SyscallFilter
