import SyscallFilter.Proofs.CommandLine.Policy
import SyscallFilter.Proofs.CommandLine.Spelling
import SyscallFilter.Proofs.Selection.Alike

namespace SyscallFilter.CommandLine

open TracePolicy

/-- The arguments that `compile` looks at are the same, but for the order of the
    specs and how often each is given. -/
structure Matches.SameButTraces (first second : Matches) : Prop where
  abi_eq : first.value? "personality" = second.value? "personality"
  stackTraces_eq : first.occurs "stack-trace" = second.occurs "stack-trace"
  mem_traces_iff : ∀ spec, spec ∈ first.values "trace" ↔ spec ∈ second.values "trace"

/-- The two lists differ in their trace options only, and these give the same
    specs, in any order and any number of times. -/
structure SameButTraces (first second : List Occurrence) : Prop where
  others_eq : first.filter (·.name ≠ "trace") = second.filter (·.name ≠ "trace")
  mem_traces_iff : ∀ value, ⟨"trace", value⟩ ∈ first ↔ ⟨"trace", value⟩ ∈ second

namespace SameButTraces

variable {first second : List Occurrence}

theorem filter_eq (hsame : SameButTraces first second) {name : String} (hname : name ≠ "trace") :
    first.filter (·.name = name) = second.filter (·.name = name) := by
  have hothers (given : List Occurrence) : given.filter (·.name = name) =
      (given.filter (·.name ≠ "trace")).filter (·.name = name) := by
    rw [List.filter_filter]
    refine List.filter_congr fun occurrence _ => ?_
    by_cases hoccurrence : occurrence.name = name
    · simp [hoccurrence, hname]
    · simp [hoccurrence]
  rw [hothers, hothers second, hsame.others_eq]

theorem mem_iff (hsame : SameButTraces first second) (occurrence : Occurrence) :
    occurrence ∈ first ↔ occurrence ∈ second := by
  obtain ⟨name, value⟩ := occurrence
  by_cases hname : name = "trace"
  · subst name
    exact hsame.mem_traces_iff value
  · have hmem (given : List Occurrence) :
        ⟨name, value⟩ ∈ given ↔ ⟨name, value⟩ ∈ given.filter (·.name = name) := by simp
    rw [hmem, hsame.filter_eq hname, ← hmem]

theorem mem_names_iff (hsame : SameButTraces first second) (name : String) :
    name ∈ first.map (·.name) ↔ name ∈ second.map (·.name) := by
  simp only [List.mem_map, hsame.mem_iff]

/-- Trace options may be repeated, so their number does not matter. -/
theorem admits (hsame : SameButTraces first second)
    (hadmits : Command.compile.Admits first) : Command.compile.Admits second := by
  have hrepeatable : ∀ argument ∈ Command.compile.arguments, argument.repeatable = false →
      argument.name ≠ "trace" := by decide
  obtain ⟨honce, hcomplete, hcompatible⟩ := hadmits
  simp only [hsame.mem_names_iff] at hcomplete hcompatible
  refine ⟨fun argument hargument hsingle => ?_, hcomplete, hcompatible⟩
  have hle := honce argument hargument hsingle
  rw [List.countP_eq_length_filter, hsame.filter_eq (hrepeatable argument hargument hsingle)] at hle
  rw [List.countP_eq_length_filter]
  exact hle

/-- A trace option has no default, so what is found are the specs that are given. -/
theorem mem_values_trace_iff {given : List Occurrence} {spec : String} :
    spec ∈ (Command.compile.found given).values "trace" ↔ ⟨"trace", some spec⟩ ∈ given := by
  have hfind : Command.compile.arguments.find? (·.name = "trace") = some .trace := by decide
  have hmem : spec ∈ (given.filter (·.name = "trace")).filterMap (·.value) ↔
      ⟨"trace", some spec⟩ ∈ given := by
    simp only [List.mem_filterMap, List.mem_filter, decide_eq_true_eq]
    constructor
    · rintro ⟨⟨_, _⟩, ⟨hgiven, rfl⟩, rfl⟩
      exact hgiven
    · exact fun hgiven => ⟨_, ⟨hgiven, rfl⟩, rfl⟩
  rw [← hmem, Command.found]
  dsimp only
  split
  · rename_i hnone
    rw [hnone, hfind]
    simp [Argument.trace]
  · rfl

theorem found (hsame : SameButTraces first second) :
    (Command.compile.found first).SameButTraces (Command.compile.found second) where
  abi_eq := by
    simp only [Matches.value?, Command.found, hsame.filter_eq (show "personality" ≠ "trace" by decide)]
  stackTraces_eq := by
    have hany : first.any (·.name = "stack-trace") = second.any (·.name = "stack-trace") := by
      rw [Bool.eq_iff_iff, List.any_eq_true, List.any_eq_true]
      simp only [hsame.mem_iff]
    dsimp only [Command.found]
    rw [hany]
  mem_traces_iff spec := by
    rw [mem_values_trace_iff, mem_values_trace_iff, hsame.mem_iff]

end SameButTraces

/-- What `compile` prints and reports depends on the traced numbers only. -/
theorem compile_eq_of_alike {first second : TracePolicy} (halike : first.Alike second) :
    compile first = compile second := by
  rw [compile, compile, halike.tryCandidates_eq, halike.trySelection_eq]

section Output

variable {library : ArgumentLibrary} {kernel : Kernel} {arguments arguments' : Matches}

/-- If some spec cannot be read, `compile` prints nothing wherever the spec
    stands, though it may log another error. -/
theorem reportOf_compile_of_index (hsame : arguments.SameButTraces arguments') {text : String}
    {index : Nat} (htext : arguments.value? "personality" = some text)
    (hindex : Numeral.read (UInt64.size - 1) text.toList = .ok index) :
    (reportOf library kernel arguments "compile").map (·.output) =
      (reportOf library kernel arguments' "compile").map (·.output) := by
  have htext' := hsame.abi_eq.symm.trans htext
  rw [reportOf, reportOf]
  rcases reads_or_refusal arguments index with ⟨abi, habi, hreads⟩ | hrefusal
  · have hreads' : ∀ spec ∈ arguments'.values "trace", Reads abi.count spec :=
      fun spec hspec => hreads spec ((hsame.mem_traces_iff spec).mpr hspec)
    have hchoices : ∀ choice, choice ∈ choicesOf abi.count index (arguments.values "trace") ↔
        choice ∈ choicesOf abi.count index (arguments'.values "trace") :=
      mem_choicesOf_iff hsame.mem_traces_iff
    have halike := alike_attemptAll_of_mem_iff
      (TracePolicy.ofTable AbiTable.host (arguments.occurs "stack-trace")) hchoices
    rw [withPolicy_of_reads htext hindex habi hreads,
      withPolicy_of_reads htext' hindex habi hreads', ← hsame.stackTraces_eq,
      compile_eq_of_alike halike]
  · have hrefusals : (∃ failure, Refusal arguments index failure) ↔
        ∃ failure, Refusal arguments' index failure := by
      simp only [exists_refusal_iff, hsame.mem_traces_iff]
    obtain ⟨_, hrefusal'⟩ := hrefusals.mp hrefusal
    obtain ⟨_, hrefusal⟩ := hrefusal
    rw [withPolicy_of_refusal htext hindex hrefusal, withPolicy_of_refusal htext' hindex hrefusal']
    rfl

theorem reportOf_compile_output (hsame : arguments.SameButTraces arguments') :
    (reportOf library kernel arguments "compile").map (·.output) =
      (reportOf library kernel arguments' "compile").map (·.output) := by
  cases htext : arguments.value? "personality" with
  | none =>
    have htext' := hsame.abi_eq.symm.trans htext
    simp only [reportOf, withPolicy, ArgumentLibrary.number, htext, htext']
    rfl
  | some text =>
    have htext' := hsame.abi_eq.symm.trans htext
    cases hindex : Numeral.read (UInt64.size - 1) text.toList with
    | error cause =>
      simp only [reportOf, withPolicy, number_eq_error htext hindex, number_eq_error htext' hindex]
      rfl
    | ok index => exact reportOf_compile_of_index hsame htext hindex

/-- What a run prints, once its command line is taken apart, is what the library or
    the report prints. -/
theorem output_execute {words : List String} {front : Matches} {command : String}
    (logger : Logger) (hread : library.read grammar words = .ok ⟨front, some (command, arguments)⟩) :
    (execute library logger kernel words).map (·.output) =
      match (reportOf library kernel arguments command).map (·.output) with
      | .ok output => .ok output
      | .error (.refused exit) => .ok exit.output
      | .error (.panic cause) => .error cause := by
  rw [execute, hread]
  dsimp only
  rcases reportOf library kernel arguments command with (exit | cause) | report <;> rfl

theorem output_execute_eq {words words' : List String} {front front' : Matches} (logger : Logger)
    (hread : library.read grammar words = .ok ⟨front, some ("compile", arguments)⟩)
    (hread' : library.read grammar words' = .ok ⟨front', some ("compile", arguments')⟩)
    (hsame : arguments.SameButTraces arguments') :
    (execute library logger kernel words).map (·.output) =
      (execute library logger kernel words').map (·.output) := by
  rw [output_execute logger hread, output_execute logger hread', reportOf_compile_output hsame]

end Output

/-- What is compiled depends on the numbers that are selected, not on how they
    came to be selected. Histories of choices that cover the same numbers give
    the same programs for every table, whether they are for it or not, the same
    choice among the programs, and the same decisions after calls; where a sum
    leaves the words, it does so for both. So the output of `compile` stays the
    same if its trace options change places or are given again, both as the
    library finds them and, if it finds what is in writing, as they are written. -/
theorem eq_of_same_selection :
    (∀ (made : AbiTable) (start : Start) (first second : List Choice),
      (∀ nr index, Chosen (start.policy made) first nr index ↔
        Chosen (start.policy made) second nr index) →
      let one := (start.policy made).attemptAll first
      let other := (start.policy made).attemptAll second
      (∀ table, ∀ generator ∈ Generator.all,
        generator.generate table one = generator.generate table other) ∧
      (∀ table, Generator.tryChoose Generator.all table one =
        Generator.tryChoose Generator.all table other) ∧
      ∀ nr index, one.resumption nr index = other.resumption nr index) ∧
    (∀ (library : ArgumentLibrary) (logger : Logger) kernel words words' front front' arguments
        arguments',
      library.read grammar words = .ok ⟨front, some ("compile", arguments)⟩ →
      library.read grammar words' = .ok ⟨front', some ("compile", arguments')⟩ →
      arguments.SameButTraces arguments' →
      (execute library logger kernel words).map (·.output) =
        (execute library logger kernel words').map (·.output)) ∧
    ∀ (library : ArgumentLibrary) (logger : Logger) kernel fronts front parts parts' given given',
      library.ReadsSpelled →
      List.Forall₂ grammar.program.Spelling fronts front → grammar.program.Admits front →
      List.Forall₂ Command.compile.Spelling parts given → Command.compile.Admits given →
      List.Forall₂ Command.compile.Spelling parts' given' → SameButTraces given given' →
      (execute library logger kernel (fronts.flatten ++ "compile" :: parts.flatten)).map (·.output) =
        (execute library logger kernel (fronts.flatten ++ "compile" :: parts'.flatten)).map
          (·.output) := by
  refine ⟨?_, ?_, ?_⟩
  · intro made start first second hsame one other
    have halike : one.Alike other := alike_attemptAll hsame
    refine ⟨fun table generator hgenerator => halike.generate_eq hgenerator table,
      fun table => ?_, halike.resumption_eq⟩
    rw [Generator.tryChoose, Generator.tryChoose, halike.trySelection_eq]
  · intro library logger kernel words words' front front' arguments arguments' hread hread' hsame
    exact output_execute_eq logger hread hread' hsame
  · intro library logger kernel fronts front parts parts' given given' hlaw hfronts hfront hparts
      hgiven hparts' hsame
    have hcompile : Command.compile ∈ grammar.commands := by decide
    exact output_execute_eq logger
      (hlaw .compile hcompile fronts front parts given hfronts hfront hparts hgiven)
      (hlaw .compile hcompile fronts front parts' given' hfronts hfront hparts' (hsame.admits hgiven))
      hsame.found

/-- Three numbers at once, or in two ranges with one in common after a choice that
    is refused; and trace options around another option, in another spelling and
    one of them twice. -/
theorem eq_of_same_selection_split :
    let start := (Start.ofTable true).policy AbiTable.host
    let first : List Choice := [⟨0, 5, 7⟩]
    let second : List Choice := [⟨0, 460, 463⟩, ⟨0, 6, 7⟩, ⟨0, 5, 6⟩]
    let run := execute .separate .errorsOnly Kernel.current
    let front := ["-l", "error"]
    (∀ nr index, Chosen start first nr index ↔ Chosen start second nr index) ∧
      (∀ table, Generator.tryChoose Generator.all table (start.attemptAll first) =
        Generator.tryChoose Generator.all table (start.attemptAll second)) ∧
      ArgumentLibrary.separate.ReadsSpelled ∧
      (run (front ++ ["compile", "-t", "1,5-7", "-k", "--trace", "9"])).map (·.output) =
        (run (front ++ ["compile", "--trace", "9", "-k", "-t", "1,5-7", "-t", "9"])).map
          (·.output) := by
  intro start first second run front
  have haccepts (range : NumberRange) : start.Accepts ⟨0, range⟩ ↔
      range.lower ≤ range.upper ∧ range.upper < 463 := Iff.rfl
  have hsame : ∀ nr index, Chosen start first nr index ↔ Chosen start second nr index := by
    intro nr index
    simp only [chosen_iff, first, second, List.mem_cons, List.not_mem_nil, or_false, exists_eq_or_imp,
      exists_eq_left, haccepts, Choice.Covers, UInt32.le_iff_toNat_le, UInt32.lt_iff_toNat_lt]
    simp
    omega
  have hlaw := ArgumentLibrary.readsSpelled_separate
  have hspelled {word value : String} (hword : word ∈ Argument.trace.words)
      (hvalue : IsPlain value) :
      Command.compile.Spelling [word, value] ⟨"trace", some value⟩ :=
    .option .trace (by decide) rfl hword hvalue
  have hstack : Command.compile.Spelling ["-k"] ⟨"stack-trace", none⟩ :=
    .flag .stackTraces (by decide) rfl (by decide)
  have hoptions : SameButTraces
      [⟨"trace", some "1,5-7"⟩, ⟨"stack-trace", none⟩, ⟨"trace", some "9"⟩]
      [⟨"trace", some "9"⟩, ⟨"stack-trace", none⟩, ⟨"trace", some "1,5-7"⟩,
        ⟨"trace", some "9"⟩] :=
    ⟨by decide, fun value => by simp; tauto⟩
  obtain ⟨hhistories, _, hspellings⟩ := eq_of_same_selection
  refine ⟨hsame, (hhistories _ _ _ _ hsame).2.1, hlaw, ?_⟩
  refine hspellings .separate _ Kernel.current [["-l", "error"]] [⟨"loglevel", some "error"⟩]
    [["-t", "1,5-7"], ["-k"], ["--trace", "9"]]
    [["--trace", "9"], ["-k"], ["-t", "1,5-7"], ["-t", "9"]] _ _ hlaw ?_ (by decide) ?_ (by decide)
    ?_ hoptions
  · exact .cons (.option .logLevel (by decide) rfl (by decide) (by decide)) .nil
  · exact .cons (hspelled (by decide) (by decide)) (.cons hstack
      (.cons (hspelled (by decide) (by decide)) .nil))
  · exact .cons (hspelled (by decide) (by decide)) (.cons hstack
      (.cons (hspelled (by decide) (by decide)) (.cons (hspelled (by decide) (by decide)) .nil)))

end SyscallFilter.CommandLine
