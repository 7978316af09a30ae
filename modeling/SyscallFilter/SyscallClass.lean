import SyscallFilter.Abi

namespace SyscallFilter

/-- Why a system call is special whatever the user selects. -/
inductive SyscallClass where
  /-- It stands for many calls, told apart by its arguments. -/
  | indirectSubcall
  /-- It replaces the program, which a tracer must never miss. -/
  | alwaysTraced
  /-- It changes the memory mappings, which stack traces depend on. -/
  | mappingChange
  deriving DecidableEq

/-- The special calls of a numbering, ascending, each number once. -/
structure Numbering where
  arch : UInt32
  flag : UInt32
  classes : List (UInt32 × SyscallClass)

namespace Numbering

open SyscallClass

def x86_64 : Numbering where
  arch := Arch.x86_64
  flag := 0
  classes :=
    [(9, mappingChange),     -- mmap
     (10, mappingChange),    -- mprotect
     (11, mappingChange),    -- munmap
     (12, mappingChange),    -- brk
     (25, mappingChange),    -- mremap
     (30, mappingChange),    -- shmat
     (59, alwaysTraced),     -- execve
     (67, mappingChange),    -- shmdt
     (216, mappingChange),   -- remap_file_pages
     (322, alwaysTraced)]    -- execveat

def x32 : Numbering where
  arch := Arch.x86_64
  flag := Abi.x32Flag
  classes :=
    [(9, mappingChange),     -- mmap
     (10, mappingChange),    -- mprotect
     (11, mappingChange),    -- munmap
     (12, mappingChange),    -- brk
     (25, mappingChange),    -- mremap
     (30, mappingChange),    -- shmat
     (67, mappingChange),    -- shmdt
     (216, mappingChange),   -- remap_file_pages
     (520, alwaysTraced),    -- execve
     (545, alwaysTraced)]    -- execveat

def i386 : Numbering where
  arch := Arch.i386
  flag := 0
  classes :=
    [(11, alwaysTraced),     -- execve
     (45, mappingChange),    -- brk
     (90, mappingChange),    -- mmap
     (91, mappingChange),    -- munmap
     (102, indirectSubcall), -- socketcall
     (117, indirectSubcall), -- ipc
     (125, mappingChange),   -- mprotect
     (163, mappingChange),   -- mremap
     (192, mappingChange),   -- mmap2
     (257, mappingChange),   -- remap_file_pages
     (358, alwaysTraced),    -- execveat
     (397, mappingChange),   -- shmat
     (398, mappingChange)]   -- shmdt

def arm : Numbering where
  arch := Arch.arm
  flag := 0
  classes :=
    [(11, alwaysTraced),     -- execve
     (45, mappingChange),    -- brk
     (91, mappingChange),    -- munmap
     (125, mappingChange),   -- mprotect
     (163, mappingChange),   -- mremap
     (192, mappingChange),   -- mmap2
     (253, mappingChange),   -- remap_file_pages
     (305, mappingChange),   -- shmat
     (306, mappingChange),   -- shmdt
     (387, alwaysTraced)]    -- execveat

/-- The numbers that newer architectures share. -/
def generic (arch : UInt32) : Numbering where
  arch := arch
  flag := 0
  classes :=
    [(196, mappingChange),   -- shmat
     (197, mappingChange),   -- shmdt
     (214, mappingChange),   -- brk
     (215, mappingChange),   -- munmap
     (216, mappingChange),   -- mremap
     (221, alwaysTraced),    -- execve
     (222, mappingChange),   -- mmap
     (226, mappingChange),   -- mprotect
     (234, mappingChange),   -- remap_file_pages
     (281, alwaysTraced)]    -- execveat

def all : List Numbering :=
  [x86_64, x32, i386, arm, generic Arch.aarch64, generic Arch.riscv64]

end Numbering

/-- The special calls of an ABI as far as its numbers go. An ABI whose
    architecture and flag no numbering has is without any. -/
def Abi.specialCalls (abi : Abi) : List (UInt32 × SyscallClass) :=
  match Numbering.all.find? fun n => n.arch = abi.arch ∧ n.flag = abi.flag with
  | some numbering => numbering.classes.filter (·.1 < abi.count)
  | none => []

end SyscallFilter
