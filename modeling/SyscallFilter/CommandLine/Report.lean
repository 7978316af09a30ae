import SyscallFilter.CommandLine.Library
import SyscallFilter.FilterSetup
import SyscallFilter.Machine
import SyscallFilter.NumberSpec

namespace SyscallFilter.CommandLine

/-- Why a command line that could be taken apart cannot be obeyed. -/
inductive Failure where
  | unknownAbi (index : Nat)
  | spec (cause : NumberSpec.Error)
  | selection (cause : TracePolicy.Error)
  | fault (cause : Fault)
  | system (cause : SystemError)
  deriving DecidableEq

/-- The ABIs of this machine by name. -/
def hostNames : String :=
  ", ".intercalate (AbiTable.host.map Abi.name)

def Failure.message : Failure → String
  | .unknownAbi index => s!"no personality #{index}, this host knows {hostNames}"
  | .spec cause => cause.message
  | .selection cause => cause.message
  | .fault cause => cause.message
  | .system cause => cause.message

/-- What a command prints and reports, and the failure that ends it. -/
structure Report where
  output : List String
  journal : Journal
  failure : Option Failure
  deriving DecidableEq

namespace Report

def ofFailure (failure : Failure) : Report :=
  ⟨[], [], some failure⟩

/-- The journal with the failure as its last message. -/
def fullJournal (report : Report) : Journal :=
  report.journal ++ report.failure.toList.map (⟨.error, .commandLine, ·.message⟩)

end Report

/-- Selects what the given specs name, one after the other. -/
def selectSpecs (policy : TracePolicy) (abi : Abi) (index : Nat) (specs : List String) :
    Except Failure TracePolicy :=
  specs.foldlM (fun policy spec => do
    let ranges ← (NumberSpec.parse abi.count spec.toList).mapError .spec
    ranges.foldlM (fun policy range => (policy.trySelect index range).mapError .selection) policy)
    policy

/-- The ABI with this index, and the policy that the arguments ask for. -/
def policyOf (arguments : Matches) (index : Nat) : Except Failure (Abi × TracePolicy) :=
  match AbiTable.host[index]? with
  | none => .error (.unknownAbi index)
  | some abi =>
    let policy := TracePolicy.ofTable AbiTable.host (arguments.occurs "stack-trace")
    (selectSpecs policy abi index (arguments.values "trace")).map (Prod.mk abi)

def disabledLine (reason : Disabled) : String :=
  s!"filtering disabled: {reason.message}"

def draftLine (candidate : Candidate) : String :=
  let overflow := if candidate.draft.overflow then " (overflow)" else ""
  s!"{candidate.generator}: {candidate.draft.code.length} instructions{overflow}"

/-- Prints the length of every draft and the chosen program. -/
def compile (policy : TracePolicy) : Except Panic Report := do
  let candidates ← Generator.tryCandidates Generator.all AbiTable.host policy
  let (choice, journal) ← Generator.trySelection Generator.all AbiTable.host policy
  let chosen :=
    match choice with
    | .ok filter => s!"chosen: {filter.generator}" :: listing filter.code
    | .error reason => [disabledLine reason]
  return ⟨candidates.map draftLine ++ chosen, candidates.flatMap (·.draft.journal) ++ journal, none⟩

/-- Sets up the filter and prints what the kernel does. -/
def probe (kernel : Kernel) (policy : TracePolicy) (dump : Bool) : Except Panic Report := do
  match ← FilterSetup.make kernel AbiTable.host policy dump with
  | (.error failure, journal) => return ⟨[], journal, some (.system failure)⟩
  | (.ok setup, journal) =>
    return ⟨[s!"filtering: {setup.capabilities.filtering}",
        s!"seccomp_before_sysentry: {setup.capabilities.seccompFirst}"] ++
        setup.disabled.toList.map fun reason => s!"disabled: {reason.message}",
      journal, none⟩

def traceOrAllow (trace : Bool) : String :=
  if trace then "TRACE" else "ALLOW"

/-- Prints what policy and filter say to one call of an ABI. -/
def classify (policy : TracePolicy) (abi : Abi) (index : Nat) (nr : UInt32) :
    Except Panic Report := do
  let predicate := traceOrAllow (policy.traces nr index)
  let resumption := (policy.resumption nr index).name
  let line := s!"{abi.name} syscall {nr}: predicate {predicate}, restart {resumption}"
  match ← Generator.trySelection Generator.all AbiTable.host policy with
  | (.error reason, journal) => return ⟨[line, disabledLine reason], journal, none⟩
  | (.ok filter, journal) =>
    match run filter.code ⟨abi.arch, abi.mark nr⟩ with
    | .error fault => return ⟨[line], journal, some (.fault fault)⟩
    | .ok k =>
      let verdict := traceOrAllow (k == Verdict.trace.code)
      return ⟨[line, s!"{filter.generator} filter: {verdict}"], journal, none⟩

end SyscallFilter.CommandLine
