import SyscallFilter.Draft
import SyscallFilter.Panic
import SyscallFilter.TracePolicy

namespace SyscallFilter.MaskTest

/-- The word whose bit `i` is set when `i` is a member, for `i` below `width`. -/
def maskOf (member : UInt32 → Bool) : Nat → UInt32
  | 0 => 0
  | width + 1 =>
    let bit := UInt32.ofNat width
    let mask := maskOf member width
    if member bit then mask ||| (1 <<< bit) else mask

/-- The mask of the 32 numbers of a block. Unknown numbers count as traced. -/
def blockMask (policy : TracePolicy) (abi : Abi) (index : Nat) (block : UInt32) : UInt32 :=
  maskOf (fun bit =>
    let nr := block * 32 + bit
    abi.count ≤ nr || policy.traces nr index) 32

/-- Whether a number of the block leaves the words while `blockMask` works it out. -/
def blockMaskWraps (block : UInt32) : Bool :=
  Word.mulWraps block 32 ||
    (List.range 32).any fun bit => Word.addWraps (block * 32) (UInt32.ofNat bit)

/-- Judges the numbers of a block by its mask. The index register holds the bit
    of the number. -/
def compare (block mask : UInt32) : Section :=
  if mask = 0 then [.branch Opcode.jeq block .allow (.skip 0)]
  else if mask = 0xffffffff then [.branch Opcode.jeq block .trace (.skip 0)]
  else
    [.branch Opcode.jeq block (.skip 0) (.skip 2),
      .stmt (.stmt (Opcode.misc ||| Opcode.txa) 0),
      .branch Opcode.jset mask .trace .allow]

/-- Puts the bit of the number within its block into the index register. The
    flag of the ABI lies above the bits this looks at. -/
def loadBit : Section :=
  [.stmt (.stmt (Opcode.alu ||| Opcode.and) 0x1f),
    .stmt (.stmt (Opcode.misc ||| Opcode.tax) 0),
    .stmt (.stmt (Opcode.ld ||| Opcode.imm) 1),
    .stmt (.stmt (Opcode.alu ||| Opcode.lsh ||| Opcode.x) 0),
    .stmt (.stmt (Opcode.misc ||| Opcode.tax) 0)]

/-- Puts the block of the number into the accumulator. -/
def loadBlock (abi : Abi) : Section :=
  .stmt (.load .nr) ::
    (if abi.flag = 0 then [] else [.stmt (.stmt (Opcode.alu ||| Opcode.and) (~~~abi.flag))]) ++
    [.stmt (.stmt (Opcode.alu ||| Opcode.rsh) 5)]

/-- How many blocks the known numbers of an ABI fill, the last one perhaps in
    part. -/
def blockCount (abi : Abi) : UInt32 :=
  (abi.count + 31) / 32

/-- Whether the sum in `blockCount` leaves the words. -/
def blockCountWraps (abi : Abi) : Bool :=
  Word.addWraps abi.count 31

def blocks (abi : Abi) : List UInt32 :=
  (List.range (blockCount abi).toNat).map UInt32.ofNat

/-- Compares the block of the number with every block; past the blocks, numbers
    are traced. -/
def body (policy : TracePolicy) (abi : Abi) (index : Nat) : Section :=
  loadBit ++ loadBlock abi ++
    (blocks abi).flatMap (fun block => compare block (blockMask policy abi index block)) ++
    [.always .trace]

/-- Whether a sum or a product leaves the words while the body is made. -/
def bodyWraps (abi : Abi) : Bool :=
  blockCountWraps abi || (blocks abi).any blockMaskWraps

/-- A program of one mask for every 32 numbers, whose length does not grow
    with the number of runs. -/
def draft (table : AbiTable) (policy : TracePolicy) : Draft :=
  Draft.ofSections table (body policy)

def wraps (table : AbiTable) (policy : TracePolicy) : Bool :=
  Draft.wraps table (body policy) (fun abi _ => bodyWraps abi)

end SyscallFilter.MaskTest
