namespace SyscallFilter

namespace Arch

def x86_64 : UInt32 := 0xc000003e

def i386 : UInt32 := 0x40000003

def aarch64 : UInt32 := 0xc00000b7

def arm : UInt32 := 0x40000028

def riscv64 : UInt32 := 0xc00000f3

end Arch

/-- One way in which programs of a machine call the kernel. -/
structure Abi where
  name : String
  /-- The architecture the kernel reports with each call. -/
  arch : UInt32
  /-- The bit that marks every number of this ABI, or zero if it has none. -/
  flag : UInt32
  /-- The numbers below `count` are known. -/
  count : UInt32
  deriving DecidableEq

/-- The ABIs of a machine, the native one first. -/
abbrev AbiTable := List Abi

namespace Abi

/-- The bit that sets the x32 calls apart from the x86_64 ones. -/
def x32Flag : UInt32 := 0x40000000

def x86_64 : Abi :=
  ⟨"x86_64", Arch.x86_64, 0, 463⟩

def i386 : Abi :=
  ⟨"i386", Arch.i386, 0, 463⟩

def x32 : Abi :=
  ⟨"x32", Arch.x86_64, x32Flag, 548⟩

/-- The number as the kernel sees it: with the flag of the ABI. -/
def mark (abi : Abi) (nr : UInt32) : UInt32 :=
  nr ||| abi.flag

end Abi

namespace AbiTable

/-- The ABIs of an x86_64 machine. -/
def host : AbiTable :=
  [Abi.x86_64, Abi.i386, Abi.x32]

/-- The ABIs with their indices, in the order in which a filter tests them. An
    ABI with a flag shares its architecture with a broader one, so the flagged
    ones come first; within the two groups later entries come first. -/
def testOrder (table : AbiTable) : List (Abi × Nat) :=
  let latestFirst := table.zipIdx.reverse
  latestFirst.filter (·.1.flag != 0) ++ latestFirst.filter (·.1.flag == 0)

end AbiTable

end SyscallFilter
