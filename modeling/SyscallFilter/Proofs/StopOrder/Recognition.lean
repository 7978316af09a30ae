import Mathlib.Data.List.Forall2
import Mathlib.Data.List.Induction
import SyscallFilter.StopOrder

namespace SyscallFilter.StopOrder

/-- What is reported, one after the other, on a child that does as it should. -/
inductive Stop where
  /-- The child stopped itself. -/
  | own
  /-- The filter handed over a call. -/
  | filter
  /-- A call was entered or left. -/
  | call
  /-- The child ended without an error. -/
  | exit
  deriving DecidableEq

namespace Stop

def event : Stop → Event
  | own => .stopped .stop
  | filter => .seccomp
  | call => .syscall
  | exit => .exited 0

def report (pid : Int) : Stop → WaitStatus
  | own => .stopped pid .stop
  | filter => .ptraceEvent pid .trap seccompEvent
  | call => .ptraceSyscall pid
  | exit => .exited pid 0

end Stop

theorem Event.ofStatus_eq_event_iff {status : WaitStatus} {stop : Stop} :
    ofStatus status = stop.event ↔ ∃ pid, status = stop.report pid := by
  cases status with
  | ptraceEvent pid signal number =>
    rw [ofStatus]
    split
    · rename_i hseccomp
      obtain ⟨rfl, rfl⟩ := hseccomp
      cases stop <;> simp [Stop.event, Stop.report]
    · rename_i hother
      cases stop with
      | filter => simpa [Stop.event, Stop.report] using hother
      | _ => simp [Stop.event, Stop.report]
  | _ => cases stop <;> simp [ofStatus, Stop.event, Stop.report]

/-- The stops of a child, the filter's stop at its traced call before the entry
    stop or after it. -/
def course : Bool → List Stop
  | true => [.own, .filter, .call, .call, .call, .exit]
  | false => [.own, .call, .filter, .call, .call, .exit]

def expected (seccompFirst : Bool) : List Event :=
  (course seccompFirst).map Stop.event

/-- The events still to come from a state on, if the search is to end with the
    given order. -/
def State.Awaits (order : Bool) (events : List Event) : State → Prop
  | .initialStop => events = expected order
  | .firstStop => events = (expected order).drop 1
  | .secondStop seccompFirst => order = seccompFirst ∧ events = (expected order).drop 2
  | .callExit seccompFirst => order = seccompFirst ∧ events = (expected order).drop 3
  | .exitEntry seccompFirst => order = seccompFirst ∧ events = (expected order).drop 4
  | .childExit seccompFirst => order = seccompFirst ∧ events = (expected order).drop 5

theorem State.not_awaits_nil (state : State) (order : Bool) : ¬state.Awaits order [] := by
  cases order <;> cases state <;> simp [Awaits, expected, course]

theorem State.exists_awaits (state : State) : ∃ order events, state.Awaits order events := by
  cases state with
  | initialStop => exact ⟨true, _, rfl⟩
  | firstStop => exact ⟨true, _, rfl⟩
  | _ => exact ⟨_, _, rfl, rfl⟩

/-- The state in which the search goes on, if it does. -/
def Transition.next? : Transition → Option State
  | .configure next => some next
  | .resume next => some next
  | .success _ => none
  | .violation _ => none

/-- One step takes the event away from what is awaited. The search ends if
    nothing is left to await, or if the event was not awaited. -/
theorem State.step_cases (state : State) (event : Event) :
    (∃ next, (state.step event).next? = some next ∧
        ∀ order rest, next.Awaits order rest ↔ state.Awaits order (event :: rest)) ∨
      (∃ seccompFirst, state.step event = .success seccompFirst ∧
        ∀ order rest, state.Awaits order (event :: rest) ↔ order = seccompFirst ∧ rest = []) ∨
      state.step event = .violation event ∧
        ∀ order rest, ¬state.Awaits order (event :: rest) := by
  fun_cases State.step state event with
  | case8 seccompFirst =>
    refine .inr (.inl ⟨seccompFirst, rfl, fun order rest => ?_⟩)
    cases order <;> simp [Awaits, expected, course, Stop.event]
  | case9 =>
    refine .inr (.inr ⟨rfl, fun order rest hawaits => ?_⟩)
    -- Every awaited event has a step of its own, which is ruled out here.
    cases state <;> cases order <;> simp_all [Awaits, expected, course, Stop.event]
  | _ =>
    refine .inl ⟨_, rfl, fun order rest => ?_⟩
    cases order <;> simp [Awaits, expected, course, Stop.event]

theorem transitions_cons_of_next {state next : State} {event : Event}
    (hnext : (state.step event).next? = some next) (rest : List Event) :
    transitions state (event :: rest) = state.step event :: transitions next rest := by
  rw [transitions]
  cases hstep : state.step event <;> simp_all [Transition.next?]

theorem transitions_cons_of_end {state : State} {event : Event}
    (hend : (state.step event).next? = none) (rest : List Event) :
    transitions state (event :: rest) = [state.step event] := by
  rw [transitions]
  cases hstep : state.step event <;> simp_all [Transition.next?]

/-- The events lead from one state to the other without ending the search. -/
inductive Reaches : State → List Event → State → Prop where
  | refl (state : State) : Reaches state [] state
  | step {state middle final : State} {event : Event} {rest : List Event}
      (hnext : (state.step event).next? = some middle) (hrest : Reaches middle rest final) :
      Reaches state (event :: rest) final

/-- Every one of the transitions lets the search go on, and there is one for each
    of so many events. -/
def Pending (count : Nat) (steps : List Transition) : Prop :=
  steps.length = count ∧ ∀ step ∈ steps, step.next?.isSome = true

namespace Reaches

variable {state final : State} {events : List Event}

theorem awaits_iff (hreaches : Reaches state events final) {order : Bool} {rest : List Event} :
    final.Awaits order rest ↔ state.Awaits order (events ++ rest) := by
  induction hreaches with
  | refl state => rfl
  | @step state middle final event later hnext _ ih =>
    rw [ih, List.cons_append]
    rcases state.step_cases event with ⟨next, hstep, hawaits⟩ | ⟨_, hstep, _⟩ | ⟨hstep, _⟩
    · rw [hnext] at hstep
      cases hstep
      exact hawaits order _
    · rw [hstep] at hnext
      cases hnext
    · rw [hstep] at hnext
      cases hnext

theorem transitions_append (hreaches : Reaches state events final) (rest : List Event) :
    transitions state (events ++ rest) = transitions state events ++ transitions final rest := by
  induction hreaches with
  | refl state => rfl
  | step hnext _ ih =>
    rw [List.cons_append, transitions_cons_of_next hnext, transitions_cons_of_next hnext, ih,
      List.cons_append]

theorem pending (hreaches : Reaches state events final) :
    Pending events.length (transitions state events) := by
  induction hreaches with
  | refl state => exact ⟨rfl, by simp [transitions]⟩
  | step hnext _ ih =>
    obtain ⟨hlength, hgoes⟩ := ih
    rw [transitions_cons_of_next hnext]
    exact ⟨by simp [hlength], by simpa [hnext] using hgoes⟩

end Reaches

/-- Events that are awaited do not end the search while more is awaited. -/
theorem State.Awaits.exists_reaches {state : State} {order : Bool} {events rest : List Event}
    (hawaits : state.Awaits order (events ++ rest)) (hrest : rest ≠ []) :
    ∃ final, Reaches state events final := by
  induction events generalizing state with
  | nil => exact ⟨state, .refl state⟩
  | cons event later ih =>
    rw [List.cons_append] at hawaits
    rcases state.step_cases event with ⟨next, hstep, hnext⟩ | ⟨_, _, hlast⟩ | ⟨_, hnone⟩
    · obtain ⟨final, hfinal⟩ := ih ((hnext order _).mpr hawaits)
      exact ⟨final, .step hstep hfinal⟩
    · obtain ⟨_, hempty⟩ := (hlast order _).mp hawaits
      exact absurd (List.append_eq_nil_iff.mp hempty).2 hrest
    · exact absurd hawaits (hnone order _)

/-- All awaited events together make the search succeed. -/
theorem State.Awaits.transitions_append {state : State} {order : Bool} {events : List Event}
    (hawaits : state.Awaits order events) (after : List Event) :
    ∃ steps, transitions state (events ++ after) = steps ++ [.success order] := by
  obtain rfl | ⟨before, last, rfl⟩ := events.eq_nil_or_concat'
  · exact absurd hawaits (state.not_awaits_nil order)
  obtain ⟨final, hreaches⟩ := hawaits.exists_reaches (by simp)
  have hlast := hreaches.awaits_iff.mpr hawaits
  refine ⟨transitions state before, ?_⟩
  rw [List.append_assoc, hreaches.transitions_append]
  rcases final.step_cases last with ⟨next, _, hnext⟩ | ⟨seccompFirst, hstep, hend⟩ | ⟨_, hnone⟩
  · exact absurd ((hnext order []).mpr hlast) (next.not_awaits_nil order)
  · obtain ⟨rfl, _⟩ := (hend order []).mp hlast
    rw [List.singleton_append, transitions_cons_of_end (by rw [hstep]; rfl), hstep]
  · exact absurd hlast (hnone order [])

theorem Reaches.transitions_violation {state final : State} {before : List Event} {event : Event}
    (hreaches : Reaches state before final)
    (hdeparts : ∀ order rest, ¬state.Awaits order (before ++ event :: rest)) (after : List Event) :
    transitions state (before ++ event :: after) =
      transitions state before ++ [.violation event] := by
  rw [hreaches.transitions_append]
  have hnone (order : Bool) (rest : List Event) : ¬final.Awaits order (event :: rest) := by
    rw [hreaches.awaits_iff]
    exact hdeparts order rest
  rcases final.step_cases event with ⟨next, hstep, hnext⟩ | ⟨seccompFirst, _, hend⟩ | ⟨hstep, _⟩
  · obtain ⟨order, rest, hawaits⟩ := next.exists_awaits
    exact absurd ((hnext order rest).mp hawaits) (hnone order rest)
  · exact absurd ((hend seccompFirst []).mpr ⟨rfl, rfl⟩) (hnone seccompFirst [])
  · rw [transitions_cons_of_end (by rw [hstep]; rfl), hstep]

theorem replay_of_expected {order : Bool} {events : List Event} (hall : expected order <+: events) :
    replay events = some order := by
  obtain ⟨after, rfl⟩ := hall
  have hawaits : State.initialStop.Awaits order (expected order) := rfl
  obtain ⟨steps, hsteps⟩ := hawaits.transitions_append after
  rw [replay, hsteps, List.getLast?_concat]

/-- The reports are those of the given stops. Which processes they are about does
    not matter. -/
def Shows (stops : List Stop) (statuses : List WaitStatus) : Prop :=
  List.Forall₂ (fun stop status => ∃ pid, status = stop.report pid) stops statuses

theorem shows_iff {stops : List Stop} {statuses : List WaitStatus} :
    Shows stops statuses ↔ stops.map Stop.event = statuses.map Event.ofStatus := by
  rw [← List.forall₂_eq_eq_eq, List.forall₂_map_left_iff, List.forall₂_map_right_iff]
  simp only [Shows, ← Event.ofStatus_eq_event_iff, eq_comm]

/-- The reports are the first of a child that does as it should. -/
def Begins (statuses : List WaitStatus) : Prop :=
  ∃ order count, Shows ((course order).take count) statuses

theorem begins_iff {statuses : List WaitStatus} :
    Begins statuses ↔ ∃ order, statuses.map Event.ofStatus <+: expected order := by
  simp only [Begins, shows_iff, List.map_take]
  constructor
  · rintro ⟨order, count, htake⟩
    exact ⟨order, htake ▸ List.take_prefix count _⟩
  · rintro ⟨order, hbegins⟩
    exact ⟨order, _, (List.prefix_iff_eq_take.mp hbegins).symm⟩

theorem shows_take_iff {order : Bool} {statuses : List WaitStatus} :
    Shows (course order) (statuses.take 6) ↔ expected order <+: statuses.map Event.ofStatus := by
  have hlength : (expected order).length = 6 := by cases order <;> rfl
  rw [shows_iff, List.prefix_iff_eq_take, hlength, List.map_take, expected]

/-- A list without a property that the empty list has departs from it at some
    member. -/
private theorem exists_departure {α : Type} {P : List α → Prop} (hnil : P []) {members : List α}
    (hmembers : ¬P members) :
    ∃ before x after, members = before ++ x :: after ∧ P before ∧ ¬P (before ++ [x]) := by
  induction members using List.reverseRecOn with
  | nil => exact absurd hnil hmembers
  | append_singleton init x ih =>
    by_cases hinit : P init
    · exact ⟨init, x, [], rfl, hinit, hmembers⟩
    · obtain ⟨before, y, after, rfl, hbefore, hdeparts⟩ := ih hinit
      exact ⟨before, y, after ++ [x], by simp, hbefore, hdeparts⟩

/-- The search goes on through the first reports of a child that did not yet end. -/
theorem Begins.exists_reaches {statuses : List WaitStatus} (hbegins : Begins statuses)
    (hopen : ∀ order, ¬expected order <+: statuses.map Event.ofStatus) :
    ∃ final, Reaches .initialStop (statuses.map Event.ofStatus) final := by
  obtain ⟨order, rest, hrest⟩ := begins_iff.mp hbegins
  have hawaits : State.initialStop.Awaits order (statuses.map Event.ofStatus ++ rest) := hrest
  refine hawaits.exists_reaches ?_
  rintro rfl
  rw [List.append_nil] at hrest
  exact hopen order (hrest ▸ List.prefix_refl _)

/-- Without a complete sequence the search is either still going on or has ended
    at the first report that does not continue one of the two. -/
theorem begins_or_departs {statuses : List WaitStatus}
    (hopen : ∀ order, ¬expected order <+: statuses.map Event.ofStatus) :
    (Begins statuses ∧
        Pending statuses.length (transitions .initialStop (statuses.map Event.ofStatus))) ∨
      ∃ before status after steps, statuses = before ++ status :: after ∧
        Begins before ∧ ¬Begins (before ++ [status]) ∧ Pending before.length steps ∧
        transitions .initialStop (statuses.map Event.ofStatus) =
          steps ++ [.violation (.ofStatus status)] := by
  by_cases hbegins : Begins statuses
  · obtain ⟨final, hreaches⟩ := hbegins.exists_reaches hopen
    exact .inl ⟨hbegins, by simpa using hreaches.pending⟩
  · have hnil : Begins [] := ⟨true, 0, .nil⟩
    obtain ⟨before, status, after, rfl, hbefore, hdeparts⟩ := exists_departure hnil hbegins
    simp only [List.map_append, List.map_cons] at hopen ⊢
    have hopenBefore (order : Bool) : ¬expected order <+: before.map Event.ofStatus := fun hall =>
      hopen order (hall.trans (List.prefix_append _ _))
    obtain ⟨final, hreaches⟩ := hbefore.exists_reaches hopenBefore
    refine .inr ⟨before, status, after, _, rfl, hbefore, hdeparts, by simpa using hreaches.pending,
      hreaches.transitions_violation ?_ _⟩
    intro order rest hawaits
    refine hdeparts (begins_iff.mpr ⟨order, rest, ?_⟩)
    have hexpected : before.map Event.ofStatus ++ Event.ofStatus status :: rest = expected order :=
      hawaits
    simpa using hexpected

theorem replay_eq_none_of_pending {events : List Event} {count : Nat}
    (hpending : Pending count (transitions .initialStop events)) : replay events = none := by
  unfold replay
  split
  · rename_i seccompFirst hlast
    cases hpending.2 _ (List.mem_of_getLast? hlast)
  · rfl

/-- The search for the stop order succeeds on two sequences of six reports, of
    any processes, and tells them apart. What follows them does not matter. Any
    other reports end it at the first that continues neither sequence, or leave
    it waiting if there is no such report. -/
theorem replay_map_ofStatus (statuses : List WaitStatus) :
    (∀ order, replay (statuses.map Event.ofStatus) = some order ↔
      Shows (course order) (statuses.take 6)) ∧
    ((∀ order, ¬Shows (course order) (statuses.take 6)) →
      replay (statuses.map Event.ofStatus) = none ∧
      ((Begins statuses ∧
          Pending statuses.length (transitions .initialStop (statuses.map Event.ofStatus))) ∨
        ∃ before status after steps, statuses = before ++ status :: after ∧
          Begins before ∧ ¬Begins (before ++ [status]) ∧ Pending before.length steps ∧
          transitions .initialStop (statuses.map Event.ofStatus) =
            steps ++ [.violation (.ofStatus status)])) := by
  simp only [shows_take_iff]
  have hnone (hopen : ∀ order, ¬expected order <+: statuses.map Event.ofStatus) :
      replay (statuses.map Event.ofStatus) = none := by
    rcases begins_or_departs hopen with ⟨_, hpending⟩ | ⟨_, _, _, _, _, _, _, _, hsteps⟩
    · exact replay_eq_none_of_pending hpending
    · rw [replay, hsteps, List.getLast?_concat]
  refine ⟨fun order => ⟨fun hreplay => ?_, replay_of_expected⟩,
    fun hopen => ⟨hnone hopen, begins_or_departs hopen⟩⟩
  by_cases hall : ∃ other, expected other <+: statuses.map Event.ofStatus
  · obtain ⟨other, hother⟩ := hall
    rw [replay_of_expected hother] at hreplay
    cases hreplay
    exact hother
  · rw [hnone (not_exists.mp hall)] at hreplay
    cases hreplay

/-- A second stop of the filter, here in another process, continues neither
    sequence. -/
theorem replay_map_ofStatus_twice :
    let statuses : List WaitStatus :=
      [.stopped 7 .stop, .ptraceEvent 7 .trap 7, .ptraceEvent 8 .trap 7, .ptraceSyscall 7]
    (∀ order, ¬Shows (course order) (statuses.take 6)) ∧
      replay (statuses.map Event.ofStatus) = none ∧
      ∃ before status after steps, statuses = before ++ status :: after ∧
        Begins before ∧ ¬Begins (before ++ [status]) ∧ Pending before.length steps ∧
        transitions .initialStop (statuses.map Event.ofStatus) =
          steps ++ [.violation (.ofStatus status)] := by
  intro statuses
  have hopen : ∀ order, ¬Shows (course order) (statuses.take 6) := by
    simp only [shows_take_iff]
    decide
  have hdeparted : ¬Begins statuses := by
    rw [begins_iff]
    decide
  obtain ⟨hnone, hend⟩ := (replay_map_ofStatus statuses).2 hopen
  exact ⟨hopen, hnone, hend.resolve_left fun hbegins => hdeparted hbegins.1⟩

end SyscallFilter.StopOrder
