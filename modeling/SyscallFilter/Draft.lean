import SyscallFilter.Journal
import SyscallFilter.Section

namespace SyscallFilter

/-- A filter program as a generator leaves it. An overflowed one is incomplete
    and of no use but to be reported. -/
structure Draft where
  code : List Instruction
  overflow : Bool
  journal : Journal
  deriving DecidableEq

namespace Draft

/-- The most instructions the kernel accepts. -/
def maxInstructions : Nat := 4096

/-- A program whose sections reach this length is given up. -/
def capacity : Nat := 2 * maxInstructions

def prepend (code : List Instruction) (draft : Draft) : Draft :=
  { draft with code := code ++ draft.code }

/-- A program that breaks off here, and why. -/
def brokenOff (reason : String) : Draft :=
  ⟨[], true, [⟨.debug, .layout, reason⟩]⟩

def tooLong (abi : Abi) (lines : Section) : Draft :=
  brokenOff
    s!"section of personality {abi.name} has {lines.size} instructions, jumps would overflow"

def tooMany : Draft :=
  brokenOff s!"filter program exceeds {capacity} instructions"

/-- What a generator adds to the preamble of a section, given the preamble, the
    ABI and its index. It may remember what it was asked before. -/
abbrev Body (σ : Type) := Section → Abi → Nat → σ → Section × σ

/-- Lays out the sections of the given ABIs after `used` instructions. Behind
    the last one stands a return for calls of unknown architectures. -/
def sections {σ : Type} (body : Body σ) : Nat → List (Abi × Nat) → σ → Draft × σ
  | _, [], state => (⟨[.ret .trace], false, []⟩, state)
  | used, (abi, index) :: rest, state =>
    let preamble := Section.preamble abi
    let (added, state) := body preamble abi index state
    let lines : Section := preamble ++ added
    match lines.resolve? with
    | none => (tooLong abi lines, state)
    | some code =>
      if used + code.length < capacity then
        let (draft, state) := sections body (used + code.length) rest state
        (draft.prepend code, state)
      else (tooMany, state)

/-- Lays out a program: the architecture is loaded, then every ABI of the table
    has its section, in the order in which they are to be tested. -/
def layOut {σ : Type} (table : AbiTable) (body : Body σ) (state : σ) : Draft × σ :=
  let (draft, state) := sections body 1 table.testOrder state
  (draft.prepend [.load .arch], state)

/-- Lays out a program whose sections depend on the ABI alone. -/
def ofSections (table : AbiTable) (body : Abi → Nat → Section) : Draft :=
  (layOut table (fun _ abi index _ => (body abi index, ())) ()).1

/-- Whether some section that is asked for while a program is laid out is one that
    `bodyWraps` tells of. -/
def wraps (table : AbiTable) (body : Abi → Nat → Section) (bodyWraps : Abi → Nat → Bool) : Bool :=
  (layOut table (fun _ abi index wrapped =>
    (body abi index, wrapped || bodyWraps abi index)) false).2

end Draft

end SyscallFilter
