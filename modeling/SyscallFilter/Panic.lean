namespace SyscallFilter

/-- Why a program breaks down in the middle of its work. -/
inductive Panic where
  /-- A sum or a product does not fit its type. -/
  | overflow
  /-- A command of no known name. -/
  | unreachable
  deriving DecidableEq

namespace Word

def addWraps (a b : UInt32) : Bool :=
  UInt32.size ≤ a.toNat + b.toNat

def mulWraps (a b : UInt32) : Bool :=
  UInt32.size ≤ a.toNat * b.toNat

end Word

end SyscallFilter
