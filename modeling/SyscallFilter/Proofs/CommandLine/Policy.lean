import SyscallFilter.CommandLine.Execution
import SyscallFilter.Proofs.NumberSpec
import SyscallFilter.Proofs.TracePolicy.History

namespace SyscallFilter

namespace TracePolicy

theorem trySelect_of_accepts {policy : TracePolicy} {choice : Choice}
    (haccepts : policy.Accepts choice) :
    policy.trySelect choice.index choice.range = .ok (policy.attempt choice) := by
  obtain ⟨_, hselect⟩ | ⟨hrefuses, _⟩ := attempt_cases policy choice
  · rw [trySelect, hselect]
  · exact absurd haccepts hrefuses

/-- Ranges of known numbers are accepted one after the other, as selecting some
    of them does not change how many there are. -/
theorem foldlM_trySelect {policy : TracePolicy} {index : Nat} {ranges : List NumberRange}
    (hranges : ∀ range ∈ ranges, policy.Accepts ⟨index, range⟩) :
    ranges.foldlM (fun policy range => policy.trySelect index range) policy =
      .ok (policy.attemptAll (ranges.map (Choice.mk index))) := by
  induction ranges generalizing policy with
  | nil => rfl
  | cons range later ih =>
    obtain ⟨hfirst, hlater⟩ := List.forall_mem_cons.mp hranges
    have hselect : policy.trySelect index range = .ok (policy.attempt ⟨index, range⟩) :=
      trySelect_of_accepts hfirst
    -- Accepting looks at the counts only, so the later ranges are no worse off.
    have hstill : ∀ other ∈ later, (policy.attempt ⟨index, range⟩).Accepts ⟨index, other⟩ :=
      fun other hother => (accepts_attemptAll_iff policy [⟨index, range⟩]).mpr (hlater other hother)
    rw [List.foldlM_cons, hselect]
    exact ih hstill

/-- What can be read as ranges of the numbers of an ABI can be selected. -/
theorem accepts_of_mem_parse {policy : TracePolicy} {index : Nat} {spec : NumberSpec}
    {ranges : List NumberRange} (hparse : NumberSpec.parse (policy.count index) spec = .ok ranges) :
    ∀ range ∈ ranges, policy.Accepts ⟨index, range⟩ :=
  NumberSpec.bounds_of_mem_parse hparse

/-- Selecting what was read adds the numbers of the ranges and no others. -/
theorem exists_foldlM_trySelect_of_parse {policy : TracePolicy} {index : Nat} {spec : NumberSpec}
    {ranges : List NumberRange} (hparse : NumberSpec.parse (policy.count index) spec = .ok ranges) :
    ∃ next, ranges.foldlM (fun policy range => policy.trySelect index range) policy = .ok next ∧
      ∀ nr, next.traces nr index = true ↔
        policy.traces nr index = true ∨ ∃ range ∈ ranges, range.lower ≤ nr ∧ nr ≤ range.upper := by
  have haccepts := accepts_of_mem_parse hparse
  refine ⟨_, foldlM_trySelect haccepts, fun nr => ?_⟩
  rw [traces_attemptAll_iff]
  refine or_congr_right ⟨?_, ?_⟩
  · rintro ⟨choice, hchoice, _, hcovers⟩
    obtain ⟨range, hrange, rfl⟩ := List.mem_map.mp hchoice
    exact ⟨range, hrange, hcovers.2⟩
  · rintro ⟨range, hrange, hcovers⟩
    exact ⟨_, List.mem_map_of_mem hrange, haccepts range hrange, rfl, hcovers⟩

end TracePolicy

namespace CommandLine

open TracePolicy

/-- The spec is a list of ranges of the numbers below `count`. -/
def Reads (count : UInt32) (spec : String) : Prop :=
  ∃ ranges, NumberSpec.parse count spec.toList = .ok ranges

theorem not_reads_iff {count : UInt32} {spec : String} :
    ¬Reads count spec ↔ ∃ cause, NumberSpec.parse count spec.toList = .error cause := by
  unfold Reads
  cases NumberSpec.parse count spec.toList <;> simp

/-- Some spec is the first that cannot be read, if they cannot all be. -/
theorem reads_or_first (count : UInt32) (specs : List String) :
    (∀ spec ∈ specs, Reads count spec) ∨
      ∃ earlier spec later cause, specs = earlier ++ spec :: later ∧
        (∀ spec ∈ earlier, Reads count spec) ∧
        NumberSpec.parse count spec.toList = .error cause := by
  induction specs with
  | nil => exact .inl (by simp)
  | cons spec later ih =>
    by_cases hspec : Reads count spec
    · rcases ih with hlater | ⟨between, bad, behind, cause, rfl, hbetween, hcause⟩
      · exact .inl (List.forall_mem_cons.mpr ⟨hspec, hlater⟩)
      · exact .inr ⟨spec :: between, bad, behind, cause, rfl,
          List.forall_mem_cons.mpr ⟨hspec, hbetween⟩, hcause⟩
    · obtain ⟨cause, hcause⟩ := not_reads_iff.mp hspec
      exact .inr ⟨[], spec, later, cause, rfl, by simp, hcause⟩

/-- The choices that the specs ask for. One that cannot be read asks for none. -/
def choicesOf (count : UInt32) (index : Nat) (specs : List String) : List Choice :=
  specs.flatMap fun spec =>
    ((NumberSpec.parse count spec.toList).toOption.getD []).map (Choice.mk index)

section SelectSpecs

variable {policy : TracePolicy} {abi : Abi} {index : Nat}

theorem selectSpecs_cons (hcount : policy.count index = abi.count) (spec : String)
    (later : List String) :
    selectSpecs policy abi index (spec :: later) =
      match NumberSpec.parse abi.count spec.toList with
      | .error cause => .error (.spec cause)
      | .ok ranges =>
        selectSpecs (policy.attemptAll (ranges.map (Choice.mk index))) abi index later := by
  rw [selectSpecs, List.foldlM_cons]
  cases hparse : NumberSpec.parse abi.count spec.toList with
  | error cause => rfl
  | ok ranges =>
    have hselect : ranges.foldlM (fun policy range =>
          (policy.trySelect index range).mapError Failure.selection) policy =
        .ok (policy.attemptAll (ranges.map (Choice.mk index))) := by
      rw [Except.foldlM_mapError, foldlM_trySelect (accepts_of_mem_parse (hcount ▸ hparse))]
      rfl
    -- Both sides are spelled out as matches first; the translated errors never occur.
    dsimp only [Except.mapError, bind, Except.bind] at hselect ⊢
    rw [hselect]
    rfl

/-- Specs that can be read are all selected, whatever specs follow. -/
theorem selectSpecs_append (hcount : policy.count index = abi.count) {earlier : List String}
    (hreads : ∀ spec ∈ earlier, Reads abi.count spec) (later : List String) :
    selectSpecs policy abi index (earlier ++ later) =
      selectSpecs (policy.attemptAll (choicesOf abi.count index earlier)) abi index later := by
  induction earlier generalizing policy with
  | nil => rfl
  | cons spec rest ih =>
    obtain ⟨⟨ranges, hparse⟩, hrest⟩ := List.forall_mem_cons.mp hreads
    have hchoices : choicesOf abi.count index (spec :: rest) =
        ranges.map (Choice.mk index) ++ choicesOf abi.count index rest := by
      simp [choicesOf, hparse, Except.toOption]
    rw [List.cons_append, selectSpecs_cons hcount, hparse]
    dsimp only
    rw [ih (by rw [count_attemptAll, hcount]) hrest, hchoices, attemptAll, attemptAll, attemptAll,
      List.foldl_append]

theorem selectSpecs_of_reads (hcount : policy.count index = abi.count) {specs : List String}
    (hreads : ∀ spec ∈ specs, Reads abi.count spec) :
    selectSpecs policy abi index specs =
      .ok (policy.attemptAll (choicesOf abi.count index specs)) := by
  have happend := selectSpecs_append hcount hreads []
  rw [List.append_nil] at happend
  exact happend

/-- The first spec that cannot be read ends the selection. -/
theorem selectSpecs_of_first (hcount : policy.count index = abi.count) {earlier : List String}
    (hreads : ∀ spec ∈ earlier, Reads abi.count spec) {spec : String} {cause : NumberSpec.Error}
    (hcause : NumberSpec.parse abi.count spec.toList = .error cause) (later : List String) :
    selectSpecs policy abi index (earlier ++ spec :: later) = .error (.spec cause) := by
  rw [selectSpecs_append hcount hreads, selectSpecs_cons (by rw [count_attemptAll, hcount]), hcause]

end SelectSpecs

/-- The order of the specs does not matter for what they ask for, nor does how
    often one is given. -/
theorem mem_choicesOf_iff {count : UInt32} {index : Nat} {first second : List String}
    (hsame : ∀ spec, spec ∈ first ↔ spec ∈ second) (choice : Choice) :
    choice ∈ choicesOf count index first ↔ choice ∈ choicesOf count index second := by
  simp only [choicesOf, List.mem_flatMap, hsame]

/-- Why the arguments of a command are refused: the index names no ABI, or else some
    spec cannot be read, and then the first one counts. -/
inductive Refusal (arguments : Matches) (index : Nat) : Failure → Prop
  | unknownAbi (hunknown : AbiTable.host[index]? = none) :
      Refusal arguments index (.unknownAbi index)
  | badSpec {abi : Abi} (habi : AbiTable.host[index]? = some abi) {earlier later : List String}
      {spec : String} (hspecs : arguments.values "trace" = earlier ++ spec :: later)
      (hearlier : ∀ spec ∈ earlier, Reads abi.count spec) {cause : NumberSpec.Error}
      (hcause : NumberSpec.parse abi.count spec.toList = .error cause) :
      Refusal arguments index (.spec cause)

section PolicyOf

variable {arguments : Matches} {index : Nat}

theorem count_ofTable {stackTraces : Bool} {abi : Abi} (habi : AbiTable.host[index]? = some abi) :
    (TracePolicy.ofTable AbiTable.host stackTraces).count index = abi.count := by
  have hcount := (Start.ofTable stackTraces).count_policy AbiTable.host index
  rw [habi] at hcount
  exact hcount

theorem policyOf_of_reads {abi : Abi} (habi : AbiTable.host[index]? = some abi)
    (hreads : ∀ spec ∈ arguments.values "trace", Reads abi.count spec) :
    policyOf arguments index =
      .ok (abi, (TracePolicy.ofTable AbiTable.host (arguments.occurs "stack-trace")).attemptAll
        (choicesOf abi.count index (arguments.values "trace"))) := by
  rw [policyOf, habi]
  dsimp only
  rw [selectSpecs_of_reads (count_ofTable habi) hreads]
  rfl

theorem Refusal.policyOf_eq {failure : Failure} (hrefusal : Refusal arguments index failure) :
    policyOf arguments index = .error failure := by
  cases hrefusal with
  | unknownAbi hunknown => rw [policyOf, hunknown]
  | badSpec habi hspecs hearlier hcause =>
    rw [policyOf, habi]
    dsimp only
    rw [hspecs, selectSpecs_of_first (count_ofTable habi) hearlier hcause]
    rfl

theorem not_refusal_of_reads {abi : Abi} (habi : AbiTable.host[index]? = some abi)
    (hreads : ∀ spec ∈ arguments.values "trace", Reads abi.count spec) :
    ¬∃ failure, Refusal arguments index failure := by
  rintro ⟨failure, hrefusal⟩
  have herror := hrefusal.policyOf_eq
  rw [policyOf_of_reads habi hreads] at herror
  cases herror

variable (arguments index)

/-- Either there is a policy or there is a refusal, as no range that could be read
    is refused when it is selected. -/
theorem reads_or_refusal :
    (∃ abi, AbiTable.host[index]? = some abi ∧
        ∀ spec ∈ arguments.values "trace", Reads abi.count spec) ∨
      ∃ failure, Refusal arguments index failure := by
  cases habi : AbiTable.host[index]? with
  | none => exact .inr ⟨_, .unknownAbi habi⟩
  | some abi =>
    rcases reads_or_first abi.count (arguments.values "trace") with
      hreads | ⟨_, _, _, _, hspecs, hearlier, hcause⟩
    · exact .inl ⟨abi, rfl, hreads⟩
    · exact .inr ⟨_, .badSpec habi hspecs hearlier hcause⟩

theorem exists_refusal_iff :
    (∃ failure, Refusal arguments index failure) ↔
      AbiTable.host[index]? = none ∨
        ∃ abi, AbiTable.host[index]? = some abi ∧ ∃ spec ∈ arguments.values "trace",
          ¬Reads abi.count spec := by
  constructor
  · rintro ⟨failure, hunknown | ⟨habi, hspecs, _, hcause⟩⟩
    · exact .inl hunknown
    · exact .inr ⟨_, habi, _, by simp [hspecs], not_reads_iff.mpr ⟨_, hcause⟩⟩
  · rintro (hunknown | ⟨abi, habi, spec, hspec, hbad⟩)
    · exact ⟨_, .unknownAbi hunknown⟩
    · obtain ⟨other, hother, hreads⟩ | hrefusal := reads_or_refusal arguments index
      · cases habi.symm.trans hother
        exact absurd (hreads spec hspec) hbad
      · exact hrefusal

end PolicyOf

section WithPolicy

variable {library : ArgumentLibrary} {arguments : Matches} {name text : String} {index : Nat}

theorem number_eq_ok {α : Type} {read : List Char → Except Numeral.Error α} {value : α}
    (htext : arguments.value? name = some text) (hread : read text.toList = .ok value) :
    library.number read arguments name = .ok value := by
  simp only [ArgumentLibrary.number, htext, hread]
  rfl

theorem number_eq_error {α : Type} {read : List Char → Except Numeral.Error α}
    {cause : Numeral.Error} (htext : arguments.value? name = some text)
    (hread : read text.toList = .error cause) :
    library.number read arguments name =
      .error (.refused (library.invalid name text cause.message)) := by
  simp only [ArgumentLibrary.number, htext, hread]
  rfl

variable {goOn : Abi → Nat → TracePolicy → Except Halt Report}
  (htext : arguments.value? "personality" = some text)
  (hindex : Numeral.read (UInt64.size - 1) text.toList = .ok index)

include htext hindex

theorem withPolicy_of_refusal {failure : Failure} (hrefusal : Refusal arguments index failure) :
    withPolicy library arguments goOn = .ok (.ofFailure failure) := by
  rw [withPolicy, number_eq_ok htext hindex]
  dsimp only [bind, Except.bind]
  rw [hrefusal.policyOf_eq]
  rfl

theorem withPolicy_of_reads {abi : Abi} (habi : AbiTable.host[index]? = some abi)
    (hreads : ∀ spec ∈ arguments.values "trace", Reads abi.count spec) :
    withPolicy library arguments goOn =
      goOn abi index
        ((TracePolicy.ofTable AbiTable.host (arguments.occurs "stack-trace")).attemptAll
          (choicesOf abi.count index (arguments.values "trace"))) := by
  rw [withPolicy, number_eq_ok htext hindex]
  dsimp only [bind, Except.bind]
  rw [policyOf_of_reads habi hreads]

end WithPolicy

end CommandLine

end SyscallFilter
