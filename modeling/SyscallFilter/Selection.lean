import SyscallFilter.Generator
import SyscallFilter.Instruction.Listing
import SyscallFilter.SystemError

namespace SyscallFilter

/-- Why system calls are not filtered. -/
inductive Disabled where
  | unsupported (errno : Errno)
  | noAbis
  | overflow
  | tooLarge (length : Nat)
  deriving DecidableEq

def Disabled.message : Disabled → String
  | .unsupported errno => s!"seccomp filters are not supported by the kernel: {errno.message}"
  | .noAbis => "no syscall personality known for this architecture"
  | .overflow => "seccomp filter jump offsets overflow"
  | .tooLarge length =>
    let limit := Draft.maxInstructions
    s!"seccomp filter has {length} instructions, the kernel accepts at most {limit}"

/-- The program that filters system calls, and the generator that made it. -/
structure ActiveFilter where
  generator : String
  code : List Instruction
  deriving DecidableEq

namespace ActiveFilter

def length (filter : ActiveFilter) : Nat :=
  filter.code.length

/-- The shortest of the filters, of equally short ones the first. -/
def shortest? : List ActiveFilter → Option ActiveFilter
  | [] => none
  | filter :: rest =>
    match shortest? rest with
    | none => some filter
    | some best => if filter.length ≤ best.length then some filter else some best

/-- The program as debug messages, one instruction a line. -/
def dump (filter : ActiveFilter) : Journal :=
  let heading := s!"seccomp filter ({filter.generator}, {filter.length} instructions):"
  (heading :: listing filter.code).map (⟨.debug, .selection, ·⟩)

end ActiveFilter

/-- A draft that takes part in a selection, and the generator that made it. -/
structure Candidate where
  generator : String
  draft : Draft
  deriving DecidableEq

namespace Candidate

/-- The candidate as a filter, unless its draft overflowed. -/
def filter? (candidate : Candidate) : Option ActiveFilter :=
  if candidate.draft.overflow then none else some ⟨candidate.generator, candidate.draft.code⟩

/-- What is reported when the candidate is made. -/
def journal (candidate : Candidate) : Journal :=
  let overflow := if candidate.draft.overflow then ", overflow" else ""
  candidate.draft.journal ++
    [⟨.debug, .selection,
      s!"{candidate.generator} generator: {candidate.draft.code.length} instructions{overflow}"⟩]

/-- The shortest program that did not overflow, if the kernel accepts it. -/
def select (candidates : List Candidate) : Except Disabled ActiveFilter :=
  match ActiveFilter.shortest? (candidates.filterMap filter?) with
  | none => .error .overflow
  | some filter =>
    if filter.length ≤ Draft.maxInstructions then .ok filter
    else .error (.tooLarge filter.length)

end Candidate

namespace Generator

/-- What every generator makes of a table and a policy, with arithmetic modulo
    2^32. -/
def candidates (generators : List Generator) (table : AbiTable) (policy : TracePolicy) :
    List Candidate :=
  generators.map fun g => ⟨g.name, g.draft table policy⟩

/-- The filter for a table and a policy, and what is reported while it is
    chosen. Without any ABI the generators are not asked. -/
def selection (generators : List Generator) (table : AbiTable) (policy : TracePolicy) :
    Except Disabled ActiveFilter × Journal :=
  if table.isEmpty then (.error .noAbis, [])
  else
    let made := candidates generators table policy
    (Candidate.select made, made.flatMap Candidate.journal)

/-- The filter for a table and a policy: the shortest that a generator makes. -/
def choose (generators : List Generator) (table : AbiTable) (policy : TracePolicy) :
    Except Disabled ActiveFilter :=
  (selection generators table policy).1

/-- What the generators make one after the other, unless the arithmetic of one of
    them goes wrong. -/
def tryCandidates (generators : List Generator) (table : AbiTable) (policy : TracePolicy) :
    Except Panic (List Candidate) :=
  generators.mapM fun g => (g.generate table policy).map (Candidate.mk g.name)

/-- The selection, unless the arithmetic of a generator that is asked goes wrong. -/
def trySelection (generators : List Generator) (table : AbiTable) (policy : TracePolicy) :
    Except Panic (Except Disabled ActiveFilter × Journal) :=
  if table.isEmpty then .ok (.error .noAbis, [])
  else
    (tryCandidates generators table policy).map fun made =>
      (Candidate.select made, made.flatMap Candidate.journal)

def tryChoose (generators : List Generator) (table : AbiTable) (policy : TracePolicy) :
    Except Panic (Except Disabled ActiveFilter) :=
  (trySelection generators table policy).map Prod.fst

end Generator

end SyscallFilter
