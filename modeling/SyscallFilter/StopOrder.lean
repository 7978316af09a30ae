import SyscallFilter.WaitStatus

namespace SyscallFilter.StopOrder

/-- What a report says to the search for the stop order. -/
inductive Event where
  | stopped (signal : Signal)
  | seccomp
  | syscall
  | ptraceEvent (signal : Signal) (event : Int)
  | exited (code : Int)
  | signaled (signal : Signal)
  | other
  deriving DecidableEq

/-- The number of the event by which a filter stops a process. -/
def seccompEvent : Int := 7

def Event.ofStatus : WaitStatus → Event
  | .stopped _ signal => .stopped signal
  | .ptraceEvent _ signal event =>
    if signal = .trap ∧ event = seccompEvent then .seccomp else .ptraceEvent signal event
  | .ptraceSyscall _ => .syscall
  | .exited _ code => .exited code
  | .signaled _ signal _ => .signaled signal
  | .continued _ => .other
  | .stillAlive => .other

/-- The stop that a child has to make next. It stops itself, makes one call that
    its filter traces, and ends. `seccompFirst` tells which of the two stops at
    the traced call came first. -/
inductive State where
  | initialStop
  | firstStop
  | secondStop (seccompFirst : Bool)
  | callExit (seccompFirst : Bool)
  | exitEntry (seccompFirst : Bool)
  | childExit (seccompFirst : Bool)
  deriving DecidableEq

inductive Transition where
  /-- Tracing has to be set up before the child goes on. -/
  | configure (next : State)
  | resume (next : State)
  /-- The child made every stop, the filter's before the entry stop or not. -/
  | success (seccompFirst : Bool)
  /-- The event is none the child was to show. -/
  | violation (event : Event)
  deriving DecidableEq

def State.step : State → Event → Transition
  | .initialStop, .stopped .stop => .configure .firstStop
  | .firstStop, .seccomp => .resume (.secondStop true)
  | .firstStop, .syscall => .resume (.secondStop false)
  | .secondStop true, .syscall => .resume (.callExit true)
  | .secondStop false, .seccomp => .resume (.callExit false)
  | .callExit seccompFirst, .syscall => .resume (.exitEntry seccompFirst)
  | .exitEntry seccompFirst, .syscall => .resume (.childExit seccompFirst)
  | .childExit seccompFirst, .exited 0 => .success seccompFirst
  | _, event => .violation event

/-- The transitions that events cause, up to the one that ends the search. -/
def transitions : State → List Event → List Transition
  | _, [] => []
  | state, event :: rest =>
    match state.step event with
    | .configure next => .configure next :: transitions next rest
    | .resume next => .resume next :: transitions next rest
    | .success seccompFirst => [.success seccompFirst]
    | .violation event => [.violation event]

/-- Whether the filter's stop came first, if the events show all stops of the
    child. -/
def replay (events : List Event) : Option Bool :=
  match (transitions .initialStop events).getLast? with
  | some (.success seccompFirst) => some seccompFirst
  | _ => none

end SyscallFilter.StopOrder
