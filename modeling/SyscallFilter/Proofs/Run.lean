import Mathlib.Data.List.Pairwise
import SyscallFilter.Run

namespace SyscallFilter.Run

/-- Puts a run in front of runs of larger numbers, joining it to the first of them
    if that follows at once. -/
def attach (run : Run) : List Run → List Run
  | [] => [run]
  | next :: later =>
    if next.start = run.stop then ⟨run.start, next.stop⟩ :: later else run :: next :: later

/-- Puts a number in front of runs of larger numbers. -/
def extend (n : Nat) (runs : List Run) : List Run :=
  attach ⟨n, n + 1⟩ runs

theorem extend_nil (n : Nat) : extend n [] = [⟨n, n + 1⟩] :=
  rfl

theorem extend_cons (n : Nat) (run : Run) (later : List Run) :
    extend n (run :: later) =
      if run.start = n + 1 then ⟨n, run.stop⟩ :: later else ⟨n, n + 1⟩ :: run :: later :=
  rfl

/-- The runs that ascending numbers form. -/
def ofAscending (numbers : List Nat) : List Run :=
  numbers.foldr extend []

/-- The maximal runs of members among the `length` numbers from `start` on,
    ascending. -/
def maximal (member : Nat → Bool) (start length : Nat) : List Run :=
  ofAscending ((List.range' start length).filter member)

/-- The run is not empty and ends at `bound` or before. -/
def Within (bound : Nat) (run : Run) : Prop :=
  run.start < run.stop ∧ run.stop ≤ bound

def Holds (run : Run) (n : Nat) : Prop :=
  run.start ≤ n ∧ n < run.stop

/-- The run has one number. -/
def isSingle (run : Run) : Bool :=
  run.stop == run.start + 1

theorem within_of_mem_extend {bound n : Nat} {runs : List Run} (hn : n < bound)
    (hruns : ∀ run ∈ runs, run.Within bound) : ∀ run ∈ extend n runs, run.Within bound := by
  intro run hrun
  cases runs with
  | nil =>
    rw [extend_nil, List.mem_singleton] at hrun
    subst run
    exact ⟨Nat.lt_succ_self n, hn⟩
  | cons first later =>
    obtain ⟨hfirst, hstop⟩ := hruns first List.mem_cons_self
    rw [extend_cons] at hrun
    split at hrun
    · rename_i hjoins
      cases hrun with
      | head => exact ⟨show n < first.stop by omega, hstop⟩
      | tail _ hrun => exact hruns run (List.mem_cons_of_mem _ hrun)
    · cases hrun with
      | head => exact ⟨Nat.lt_succ_self n, hn⟩
      | tail _ hrun => exact hruns run hrun

/-- Joining a number to the first run is sound because that run is not empty. -/
theorem exists_mem_extend_iff {bound n v : Nat} {runs : List Run}
    (hruns : ∀ run ∈ runs, run.Within bound) :
    (∃ run ∈ extend n runs, run.Holds v) ↔ v = n ∨ ∃ run ∈ runs, run.Holds v := by
  have hsingle : (⟨n, n + 1⟩ : Run).Holds v ↔ v = n := by
    simp only [Holds]
    omega
  cases runs with
  | nil => simp [extend_nil, hsingle]
  | cons first later =>
    obtain ⟨hfirst, _⟩ := hruns first List.mem_cons_self
    rw [extend_cons]
    split
    · rename_i hjoins
      have hjoined : (⟨n, first.stop⟩ : Run).Holds v ↔ v = n ∨ first.Holds v := by
        simp only [Holds]
        omega
      simp [hjoined, or_assoc]
    · simp [hsingle]

theorem within_of_mem_ofAscending {bound : Nat} {numbers : List Nat}
    (hnumbers : ∀ n ∈ numbers, n < bound) : ∀ run ∈ ofAscending numbers, run.Within bound := by
  induction numbers with
  | nil => simp [ofAscending]
  | cons n later ih =>
    exact within_of_mem_extend (hnumbers n List.mem_cons_self)
      (ih fun m hm => hnumbers m (List.mem_cons_of_mem _ hm))

theorem exists_mem_ofAscending_iff {bound v : Nat} {numbers : List Nat}
    (hnumbers : ∀ n ∈ numbers, n < bound) :
    (∃ run ∈ ofAscending numbers, run.Holds v) ↔ v ∈ numbers := by
  induction numbers with
  | nil => simp [ofAscending]
  | cons n later ih =>
    have hlater : ∀ m ∈ later, m < bound := fun m hm => hnumbers m (List.mem_cons_of_mem _ hm)
    rw [List.mem_cons, ← ih hlater]
    exact exists_mem_extend_iff (within_of_mem_ofAscending hlater)

private theorem lt_of_mem_filter {member : Nat → Bool} {length n : Nat}
    (hn : n ∈ (List.range' 0 length).filter member) : n < length := by
  obtain ⟨hrange, _⟩ := List.mem_filter.mp hn
  simpa using hrange

theorem within_of_mem_maximal {member : Nat → Bool} {length : Nat} :
    ∀ run ∈ maximal member 0 length, run.Within length :=
  within_of_mem_ofAscending fun _ => lt_of_mem_filter

/-- The runs hold exactly the members. -/
theorem exists_mem_maximal_iff {member : Nat → Bool} {length v : Nat} :
    (∃ run ∈ maximal member 0 length, run.Holds v) ↔ v < length ∧ member v = true := by
  rw [maximal, exists_mem_ofAscending_iff fun _ => lt_of_mem_filter]
  simp

/-- The run ends before the other starts, with a number between them. -/
def Precedes (run later : Run) : Prop :=
  run.stop < later.start

/-- Putting a number in front keeps the runs ascending and apart, for a run that
    follows without a gap is joined. -/
theorem pairwise_extend {bound n : Nat} {runs : List Run}
    (hruns : ∀ run ∈ runs, run.Within bound) (hbefore : ∀ run ∈ runs, n < run.start)
    (hapart : runs.Pairwise Precedes) : (extend n runs).Pairwise Precedes := by
  cases runs with
  | nil => simp [extend_nil]
  | cons first later =>
    obtain ⟨hfirst, _⟩ := List.pairwise_cons.mp hapart
    obtain ⟨hstart, _⟩ := hruns first List.mem_cons_self
    rw [extend_cons]
    split
    · exact List.pairwise_cons.mpr ⟨hfirst, hapart.of_cons⟩
    · rename_i hgap
      have hlt : n < first.start := hbefore first List.mem_cons_self
      have hnext : n + 1 < first.start := by omega
      refine List.pairwise_cons.mpr ⟨fun run hrun => ?_, hapart⟩
      cases hrun with
      | head => exact hnext
      | tail _ hrun =>
        have hrest : first.stop < run.start := hfirst run hrun
        show n + 1 < run.start
        omega

theorem pairwise_ofAscending {bound : Nat} {numbers : List Nat}
    (hnumbers : ∀ n ∈ numbers, n < bound) (hascending : numbers.Pairwise (· < ·)) :
    (ofAscending numbers).Pairwise Precedes := by
  induction numbers with
  | nil => exact List.Pairwise.nil
  | cons n later ih =>
    obtain ⟨hbefore, hlater⟩ := List.pairwise_cons.mp hascending
    have hbound : ∀ m ∈ later, m < bound := fun m hm => hnumbers m (List.mem_cons_of_mem _ hm)
    have hwithin := within_of_mem_ofAscending hbound
    have hstarts : ∀ run ∈ ofAscending later, n < run.start := by
      intro run hrun
      have hholds : run.Holds run.start := ⟨Nat.le_refl _, (hwithin run hrun).1⟩
      exact hbefore _ ((exists_mem_ofAscending_iff hbound).mp ⟨run, hrun, hholds⟩)
    exact pairwise_extend hwithin hstarts (ih hbound hlater)

/-- The run is not empty, lies among the first `length` numbers and holds members
    only, and neither of the numbers next to it is a member among these. -/
structure IsMaximal (member : Nat → Bool) (length : Nat) (run : Run) : Prop where
  start_lt_stop : run.start < run.stop
  stop_le : run.stop ≤ length
  member_of_holds : ∀ n, run.Holds n → member n = true
  before : ∀ n, n + 1 = run.start → member n = false
  behind : run.stop < length → member run.stop = false

section Maximal

variable {member : Nat → Bool} {length n : Nat} {run other : Run}

theorem pairwise_maximal (member : Nat → Bool) (length : Nat) :
    (maximal member 0 length).Pairwise Precedes := by
  have hascending : ((List.range' 0 length).filter member).Pairwise (· < ·) :=
    List.Pairwise.sublist List.filter_sublist List.pairwise_lt_range'
  exact pairwise_ofAscending (fun _ => lt_of_mem_filter) hascending

/-- The gaps between the runs keep the numbers next to one of them out of all
    others. -/
theorem not_holds_of_mem_maximal (hrun : run ∈ maximal member 0 length)
    (hnext : n + 1 = run.start ∨ n = run.stop) : ∀ other ∈ maximal member 0 length, ¬other.Holds n := by
  intro other hother hholds
  have hends : run.start < run.stop := (within_of_mem_maximal run hrun).1
  -- The order of the list is forgotten here, only the gap between two runs counts.
  have hapart : run ≠ other → run.Precedes other ∨ other.Precedes run := by
    have hsymmetric : Std.Symm fun run other : Run => run.Precedes other ∨ other.Precedes run :=
      ⟨fun _ _ => Or.symm⟩
    have heither : (maximal member 0 length).Pairwise fun run other =>
        run.Precedes other ∨ other.Precedes run := (pairwise_maximal member length).imp Or.inl
    exact heither.forall hrun hother
  by_cases heq : run = other
  · subst other
    simp only [Holds] at hholds
    omega
  · have hgap := hapart heq
    simp only [Precedes, Holds] at hgap hholds
    omega

theorem isMaximal_of_mem_maximal (hrun : run ∈ maximal member 0 length) :
    run.IsMaximal member length := by
  obtain ⟨hstart, hstop⟩ := within_of_mem_maximal run hrun
  have houtside (n : Nat) (hn : n < length) (hnext : n + 1 = run.start ∨ n = run.stop) :
      member n = false := by
    refine Bool.eq_false_iff.mpr fun hmember => ?_
    obtain ⟨other, hother, hholds⟩ := exists_mem_maximal_iff.mpr ⟨hn, hmember⟩
    exact not_holds_of_mem_maximal hrun hnext other hother hholds
  refine ⟨hstart, hstop, fun n hn => (exists_mem_maximal_iff.mp ⟨run, hrun, hn⟩).2, ?_, ?_⟩
  · intro n hn
    exact houtside n (by omega) (.inl hn)
  · intro hlt
    exact houtside run.stop hlt (.inr rfl)

/-- A maximal run ends no earlier, on either side, than any other maximal run it
    shares a number with. -/
theorem IsMaximal.covers (hrun : run.IsMaximal member length)
    (hother : other.IsMaximal member length) (hn : run.Holds n) (hn' : other.Holds n) :
    run.start ≤ other.start ∧ other.stop ≤ run.stop := by
  obtain ⟨hstart, hstop⟩ := hn
  obtain ⟨hstart', hstop'⟩ := hn'
  constructor
  · refine Nat.le_of_not_lt fun hlt => ?_
    have hbefore := hrun.before (run.start - 1) (by omega)
    rw [hother.member_of_holds _ ⟨by omega, by omega⟩] at hbefore
    cases hbefore
  · refine Nat.le_of_not_lt fun hlt => ?_
    have hbehind := hrun.behind (Nat.lt_of_lt_of_le hlt hother.stop_le)
    rw [hother.member_of_holds _ ⟨by omega, hlt⟩] at hbehind
    cases hbehind

theorem IsMaximal.eq_of_holds (hrun : run.IsMaximal member length)
    (hother : other.IsMaximal member length) (hn : run.Holds n) (hn' : other.Holds n) :
    run = other := by
  have hcovers := hrun.covers hother hn hn'
  have hcovered := hother.covers hrun hn' hn
  rcases run with ⟨start, stop⟩
  rcases other with ⟨otherStart, otherStop⟩
  have hends : start = otherStart ∧ stop = otherStop :=
    ⟨Nat.le_antisymm hcovers.1 hcovered.1, Nat.le_antisymm hcovered.2 hcovers.2⟩
  rw [hends.1, hends.2]

/-- All maximal runs are found, and nothing else. -/
theorem mem_maximal_iff : run ∈ maximal member 0 length ↔ run.IsMaximal member length := by
  refine ⟨isMaximal_of_mem_maximal, fun hmaximal => ?_⟩
  have hholds : run.Holds run.start := ⟨Nat.le_refl _, hmaximal.start_lt_stop⟩
  have hlt : run.start < length := Nat.lt_of_lt_of_le hmaximal.start_lt_stop hmaximal.stop_le
  obtain ⟨found, hfound, hstart⟩ :=
    exists_mem_maximal_iff.mpr ⟨hlt, hmaximal.member_of_holds _ hholds⟩
  rw [hmaximal.eq_of_holds (isMaximal_of_mem_maximal hfound) hholds hstart]
  exact hfound

end Maximal

section Scan

variable (member : Nat → Bool)

theorem maximal_succ (start length : Nat) :
    maximal member start (length + 1) =
      if member start then extend start (maximal member (start + 1) length)
      else maximal member (start + 1) length := by
  rw [maximal, List.range'_succ, List.filter_cons]
  split <;> rfl

/-- A run that ends where another begins can be joined to it before or after that
    is attached. -/
theorem attach_attach (start middle stop : Nat) (runs : List Run) :
    attach ⟨start, middle⟩ (attach ⟨middle, stop⟩ runs) = attach ⟨start, stop⟩ runs := by
  cases runs with
  | nil => simp [attach]
  | cons next later => by_cases hjoins : next.start = stop <;> simp [attach, hjoins]

theorem le_start_of_mem_maximal {start length : Nat} {run : Run}
    (hrun : run ∈ maximal member start length) : start ≤ run.start := by
  have hbound : ∀ n ∈ (List.range' start length).filter member, n < start + length := by
    intro n hn
    have hrange := (List.mem_filter.mp hn).1
    rw [List.mem_range'_1] at hrange
    exact hrange.2
  have hholds : run.Holds run.start :=
    ⟨Nat.le_refl _, (within_of_mem_ofAscending hbound run hrun).1⟩
  have hmem := (exists_mem_ofAscending_iff hbound).mp ⟨run, hrun, hholds⟩
  exact (List.mem_range'_1.mp (List.mem_filter.mp hmem).1).1

/-- A run that ends before a number is not joined to any run behind that number. -/
theorem attach_maximal (first start length : Nat) :
    attach ⟨first, start⟩ (maximal member (start + 1) length) =
      ⟨first, start⟩ :: maximal member (start + 1) length := by
  cases hruns : maximal member (start + 1) length with
  | nil => rfl
  | cons next later =>
    have hstart : start + 1 ≤ next.start :=
      le_start_of_mem_maximal member (hruns ▸ List.mem_cons_self)
    have hgap : next.start ≠ start := by omega
    simp [attach, hgap]

/-- What a scan has found when it has come to its end: the runs that were closed
    before, and of the numbers still to come the maximal runs. The open run is
    joined to the first of these if it goes on there. -/
theorem closed_foldl_visit (start length : Nat) (scan : Scan) :
    (((List.range' start length).foldl (Scan.visit member) scan).close
        (start + length)).closed.toList =
      scan.closed.toList ++ match scan.opened with
        | some first => attach ⟨first, start⟩ (maximal member start length)
        | none => maximal member start length := by
  induction length generalizing start scan with
  | zero =>
    obtain ⟨closed, _ | first⟩ := scan
    · simp [Scan.close, maximal, ofAscending]
    · simp [Scan.close, maximal, ofAscending, attach]
  | succ length ih =>
    have hnext : start + (length + 1) = start + 1 + length := by omega
    rw [List.range'_succ, List.foldl_cons, hnext, ih, maximal_succ]
    cases hmember : member start with
    | true =>
      obtain ⟨closed, _ | first⟩ := scan
      · simp [Scan.visit, hmember, extend]
      · simp [Scan.visit, hmember, extend, attach_attach]
    | false =>
      obtain ⟨closed, _ | first⟩ := scan
      · simp [Scan.visit, Scan.close, hmember]
      · simp [Scan.visit, Scan.close, hmember, attach_maximal]

/-- A scan finds the maximal runs, whatever the members are. -/
theorem scan_eq_maximal (start length : Nat) :
    scan member start length = maximal member start length := by
  rw [scan, closed_foldl_visit]
  rfl

end Scan

end SyscallFilter.Run
