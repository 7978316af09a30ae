import SyscallFilter.Resumption
import SyscallFilter.Selection

namespace SyscallFilter

/-- What the running kernel does. -/
structure Kernel where
  /-- Why it takes no filters, if it takes none. -/
  refusal : Option Errno
  /-- Whether a filter's stop comes before the entry stop of the same call, as
      far as that could be found out. -/
  stopOrder : Except SystemError (Option Bool)

/-- A kernel that takes filters and reports the entry into a call first. -/
def Kernel.current : Kernel :=
  ⟨none, .ok (some false)⟩

/-- What is known of the kernel once a tracer has started. -/
structure Capabilities where
  filtering : Bool
  seccompFirst : Bool
  deriving DecidableEq

/-- How the processes of a tracer are filtered. -/
structure FilterSetup where
  filter : Option ActiveFilter
  capabilities : Capabilities
  disabled : Option Disabled
  policy : TracePolicy
  deriving DecidableEq

namespace FilterSetup

/-- Without a filter every call is traced. -/
def unfiltered (policy : TracePolicy) (reason : Disabled) : FilterSetup :=
  ⟨none, ⟨false, false⟩, some reason, policy⟩

def filtered (policy : TracePolicy) (filter : ActiveFilter) (seccompFirst : Bool) : FilterSetup :=
  ⟨some filter, ⟨true, seccompFirst⟩, none, policy⟩

/-- How a process goes on after leaving a system call. -/
def resumption (setup : FilterSetup) (nr : UInt32) (index : Nat) : Resumption :=
  if setup.capabilities.filtering then setup.policy.resumption nr index else .syscall

def unfilteredNote (reason : Disabled) : Note :=
  ⟨.warn, .selection, s!"{reason.message}, tracing every syscall"⟩

def unknownOrderNote : Note :=
  ⟨.warn, .selection, "assuming seccomp stops follow syscall-entry stops"⟩

def filteredNote (filter : ActiveFilter) : Note :=
  ⟨.info, .selection,
    s!"using {filter.generator} seccomp filter with {filter.length} instructions"⟩

/-- Decides how the calls of a table are filtered on a kernel, and reports on
    it. Only if nothing can be learned about the order of stops is there no
    setup; every other trouble leads to one without a filter, unless a generator
    breaks down. -/
def make (kernel : Kernel) (table : AbiTable) (policy : TracePolicy) (dump : Bool) :
    Except Panic (Except SystemError FilterSetup × Journal) :=
  match kernel.refusal with
  | some errno =>
    .ok (.ok (unfiltered policy (.unsupported errno)), [unfilteredNote (.unsupported errno)])
  | none =>
    (Generator.trySelection Generator.all table policy).map fun
      | (.error reason, journal) =>
        (.ok (unfiltered policy reason), journal ++ [unfilteredNote reason])
      | (.ok filter, journal) =>
        match kernel.stopOrder with
        | .error failure => (.error failure, journal)
        | .ok order =>
          (.ok (filtered policy filter (order.getD false)),
            journal ++ (if order.isNone then [unknownOrderNote] else []) ++
              filteredNote filter :: (if dump then filter.dump else []))

end FilterSetup

end SyscallFilter
