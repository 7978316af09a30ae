import SyscallFilter.Proofs.Judgement
import SyscallFilter.Proofs.Section.Flow

namespace SyscallFilter.Section

/-- A call that passes reaches the body with its number loaded. Any other one
    leaves for the section behind, and the accumulator holds the architecture as
    it did before. -/
theorem exit?_preamble (abi : Abi) (body : Section) {datum : Datum} {regs : Registers}
    (harch : regs.a = datum.arch) :
    exit? datum 0 regs (preamble abi ++ body) =
      if abi.Admits datum then exit? datum 0 { regs with a := datum.nr } body
      else some (.next regs) := by
  by_cases hsame : abi.arch = datum.arch
  · have hload : { regs with a := datum.arch } = regs := by rw [← harch]
    by_cases hflag : abi.flag = 0
    · simp [preamble, Abi.Admits, harch, hsame, hflag, Datum.read]
    · by_cases hreach : abi.flag ≤ datum.nr
      · simp [preamble, Abi.Admits, harch, hsame, hflag, hreach, Datum.read]
      · simp [preamble, Abi.Admits, harch, hsame, hflag, hreach, Datum.read, hload]
  · have hother : datum.arch ≠ abi.arch := fun h => hsame h.symm
    simp [preamble, Abi.Admits, harch, hsame, hother]

end SyscallFilter.Section
