import SyscallFilter.Section

namespace SyscallFilter

/-- What stands in an instruction besides the offsets of a conditional jump: its
    code and its constant. -/
def Instruction.key (insn : Instruction) : UInt16 × UInt32 :=
  (insn.code, insn.k)

/-- The key of a line's instruction, which for all but unconditional jumps does not
    depend on where the line stands. -/
def Line.key? : Line → Option (UInt16 × UInt32)
  | .stmt insn => some insn.key
  | .branch code k _ _ => some (Opcode.jmp ||| code, k)
  | .always _ => none

theorem Line.key_resolve {line : Line} {key : UInt16 × UInt32} (hkey : line.key? = some key)
    (following : Nat) : (line.resolve following).key = key := by
  cases line with
  | stmt insn => exact Option.some.inj hkey
  | branch code k jt jf => exact Option.some.inj hkey
  | always target => cases hkey

namespace Section

/-- The instructions of a section's last lines do not depend on the lines before
    them. -/
theorem drop_resolve_append (lines rest : Section) :
    (resolve (lines ++ rest)).drop lines.length = resolve rest := by
  induction lines with
  | nil => rfl
  | cons line later ih => exact ih

theorem map_key_resolve_append {lines : Section} {keys : List (UInt16 × UInt32)}
    (hkeys : lines.map Line.key? = keys.map some) (rest : Section) :
    (resolve (lines ++ rest)).map Instruction.key =
      keys ++ (resolve rest).map Instruction.key := by
  induction lines generalizing keys with
  | nil =>
    rw [List.map_nil] at hkeys
    rw [List.map_eq_nil_iff.mp hkeys.symm]
    rfl
  | cons line later ih =>
    cases keys with
    | nil => cases hkeys
    | cons key others =>
      obtain ⟨hkey, hothers⟩ := List.cons.inj hkeys
      rw [List.cons_append, resolve, List.map_cons, ih hothers, Line.key_resolve hkey]
      rfl

end Section

end SyscallFilter
