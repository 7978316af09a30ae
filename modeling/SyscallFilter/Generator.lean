import SyscallFilter.Generator.MaskTest
import SyscallFilter.Generator.RangeTest

namespace SyscallFilter

/-- A way of turning a policy into a filter program. -/
structure Generator where
  name : String
  /-- The program, made with arithmetic modulo 2^32. -/
  draft : AbiTable → TracePolicy → Draft
  /-- Whether that arithmetic is wrong somewhere on the way. -/
  wraps : AbiTable → TracePolicy → Bool

namespace Generator

/-- Makes the program, unless a sum on the way does not fit. -/
def generate (generator : Generator) (table : AbiTable) (policy : TracePolicy) :
    Except Panic Draft :=
  if generator.wraps table policy then .error .overflow else .ok (generator.draft table policy)

def rangeTest : Generator :=
  ⟨"linear", RangeTest.draft, RangeTest.wraps⟩

def maskTest : Generator :=
  ⟨"binary-match", MaskTest.draft, MaskTest.wraps⟩

/-- The generators that compete for every filter. -/
def all : List Generator :=
  [rangeTest, maskTest]

end Generator

end SyscallFilter
