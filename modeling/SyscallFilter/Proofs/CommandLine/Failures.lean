import SyscallFilter.Proofs.CommandLine.Policy
import SyscallFilter.Proofs.CommandLine.Spelling
import SyscallFilter.Proofs.Selection.Agreement
import SyscallFilter.Proofs.Selection.Availability

namespace SyscallFilter.CommandLine

theorem exists_compile (policy : TracePolicy) :
    ∃ report, compile policy = .ok report ∧ report.failure = none := by
  rw [compile, Generator.tryCandidates_host, Generator.trySelection_host]
  exact ⟨_, rfl, rfl⟩

theorem traceOrAllow_code {verdict : Verdict} (hverdict : verdict = .trace ∨ verdict = .allow) :
    traceOrAllow (verdict.code == Verdict.trace.code) = traceOrAllow (verdict = .trace) := by
  rcases hverdict with rfl | rfl <;> rfl

/-- There is a filter on this machine for every policy, and the interpreter finds
    no fault in it, so a call is always classified to the end. -/
theorem exists_classify (policy : TracePolicy) (abi : Abi) (index : Nat) (nr : UInt32) :
    ∃ generator ∈ Generator.all, ∃ journal,
      let predicate := traceOrAllow (policy.traces nr index)
      let resumption := (policy.resumption nr index).name
      let verdict :=
        traceOrAllow (policy.judge AbiTable.host ⟨abi.arch, abi.mark nr⟩ = .trace)
      classify policy abi index nr =
        .ok ⟨[s!"{abi.name} syscall {nr}: predicate {predicate}, restart {resumption}",
          s!"{generator.name} filter: {verdict}"], journal, none⟩ := by
  obtain ⟨filter, hchoose, _⟩ := Generator.exists_choose_of_sizes
    (show AbiTable.host ≠ [] by decide) (by decide) (by decide) (by decide) policy
  have hrun := Generator.run_choose_eq_judge AbiTable.separable_host.fitsBlocks hchoose
    ⟨abi.arch, abi.mark nr⟩
  have hverdict := traceOrAllow_code (policy.judge_eq_or AbiTable.host ⟨abi.arch, abi.mark nr⟩)
  obtain ⟨generator, hgenerator, _, rfl⟩ := Generator.exists_of_choose hchoose
  rcases hselection : Generator.selection Generator.all AbiTable.host policy with ⟨choice, journal⟩
  have hchoice : choice = .ok ⟨generator.name, (generator.draft AbiTable.host policy).code⟩ :=
    (congrArg Prod.fst hselection).symm.trans hchoose
  subst choice
  refine ⟨generator, hgenerator, journal, ?_⟩
  rw [classify, Generator.trySelection_host, hselection]
  simp only [bind, Except.bind, hrun, hverdict]
  rfl

/-- The words for a text that is no number. -/
def numberFaults : List (Numeral.Error × String) :=
  [(.empty, "cannot parse integer from empty string"),
    (.invalidDigit, "invalid digit found in string"),
    (.tooLarge, "number too large to fit in target type")]

/-- The words for a spec that cannot be read. -/
inductive Told : NumberSpec.Error → String → Prop
  | number {cause : Numeral.Error} {fault : String} (hfault : (cause, fault) ∈ numberFaults)
      (side : String) :
      Told (.number side cause) s!"invalid syscall number '{side}', {fault}"
  | reversed (item : String) : Told (.reversed item) s!"invalid syscall range '{item}'"
  | outOfRange (nr count : UInt32) :
      Told (.outOfRange nr count)
        s!"syscall {nr} is out of range (personality has {count} syscalls)"
  | empty (spec : String) : Told (.empty spec) s!"empty syscall set '{spec}'"

theorem told_message (cause : NumberSpec.Error) : Told cause cause.message := by
  cases cause with
  | number side cause => cases cause <;> exact .number (by simp [numberFaults, Numeral.Error.message]) side
  | reversed item => exact .reversed item
  | outOfRange nr count => exact .outOfRange nr count
  | empty spec => exact .empty spec

/-- What is wrong with the arguments of a command, in words: the index names no ABI,
    or else a spec cannot be read, and then the first one counts. -/
inductive Complaint (arguments : Matches) (index : Nat) : String → Prop
  | unknownAbi (hindex : 3 ≤ index) :
      Complaint arguments index s!"no personality #{index}, this host knows x86_64, i386, x32"
  | badSpec {abi : Abi} (habi : AbiTable.host[index]? = some abi) {earlier later : List String}
      {spec : String} (hspecs : arguments.values "trace" = earlier ++ spec :: later)
      (hearlier : ∀ spec ∈ earlier, Reads abi.count spec) {cause : NumberSpec.Error}
      (hcause : NumberSpec.parse abi.count spec.toList = .error cause) {words : String}
      (hwords : Told cause words) : Complaint arguments index words

theorem message_unknownAbi (index : Nat) :
    (Failure.unknownAbi index).message =
      s!"no personality #{index}, this host knows x86_64, i386, x32" := by
  have hnames : hostNames = "x86_64, i386, x32" := by rfl
  have hmessage : (Failure.unknownAbi index).message =
      s!"no personality #{index}, this host knows {hostNames}" := rfl
  have hend : ", this host knows " ++ "x86_64, i386, x32" =
      ", this host knows x86_64, i386, x32" := by rfl
  rw [hmessage, hnames, String.append_assoc]
  exact congrArg (s!"no personality #{index}" ++ ·) hend

theorem Refusal.complaint {arguments : Matches} {index : Nat} {failure : Failure}
    (hrefusal : Refusal arguments index failure) : Complaint arguments index failure.message := by
  cases hrefusal with
  | unknownAbi hunknown =>
    rw [message_unknownAbi]
    exact .unknownAbi (List.getElem?_eq_none_iff.mp hunknown)
  | badSpec habi hspecs hearlier hcause =>
    exact .badSpec habi hspecs hearlier hcause (told_message _)

/-- What is logged goes by the level that was asked for, if one was. -/
inductive LogsBy (front : Matches) : LogSource → Prop
  | verbose (hverbose : front.occurs "verbose" = true) : LogsBy front (.filters "debug")
  | level {level : String} (hquiet : front.occurs "verbose" = false)
      (hlevel : front.value? "loglevel" = some level) : LogsBy front (.filters level)
  | environment (hquiet : front.occurs "verbose" = false)
      (hlevel : front.value? "loglevel" = none) : LogsBy front (.environment "info")

theorem logsBy_logSource (front : Matches) : LogsBy front (logSource front) := by
  rw [logSource]
  cases hverbose : front.occurs "verbose" with
  | true => exact .verbose hverbose
  | false =>
    cases hlevel : front.value? "loglevel" with
    | none => exact .environment hverbose hlevel
    | some level => exact .level hverbose hlevel

/-- The arguments give the number to classify, and it is a word. -/
def GivesNumber (arguments : Matches) : Prop :=
  ∃ number nr, arguments.value? "NR" = some number ∧ Numeral.readWord number.toList = .ok nr

section ReportOf

variable (library : ArgumentLibrary) (kernel : Kernel) {arguments : Matches}
  {command text : String} {index : Nat}

theorem number_of_not_givesNumber (hnumber : ¬GivesNumber arguments) :
    ∃ exit, library.number Numeral.readWord arguments "NR" = .error (.refused exit) ∧
      (library.EndsForUsage → exit.code = 2 ∧ exit.output = []) := by
  cases hvalue : arguments.value? "NR" with
  | none =>
    refine ⟨library.missing "NR", ?_, fun hends => hends.missing "NR"⟩
    simp only [ArgumentLibrary.number, hvalue]
  | some number =>
    cases hread : Numeral.readWord number.toList with
    | ok nr => exact absurd ⟨number, nr, hvalue, hread⟩ hnumber
    | error cause => exact ⟨_, number_eq_error hvalue hread, fun hends => hends.invalid ..⟩

variable (htext : arguments.value? "personality" = some text)
  (hindex : Numeral.read (UInt64.size - 1) text.toList = .ok index)

include htext hindex

theorem reportOf_of_refusal (hcommand : command = "compile" ∨ command = "classify")
    {failure : Failure} (hrefusal : Refusal arguments index failure) :
    reportOf library kernel arguments command = .ok (.ofFailure failure) := by
  rcases hcommand with rfl | rfl <;> exact withPolicy_of_refusal htext hindex hrefusal

variable {abi : Abi} (habi : AbiTable.host[index]? = some abi)
  (hreads : ∀ spec ∈ arguments.values "trace", Reads abi.count spec)

include habi hreads

theorem reportOf_compile :
    ∃ report, reportOf library kernel arguments "compile" = .ok report ∧
      report.failure = none := by
  obtain ⟨report, hcompile, hsuccess⟩ := exists_compile
    ((TracePolicy.ofTable AbiTable.host (arguments.occurs "stack-trace")).attemptAll
      (choicesOf abi.count index (arguments.values "trace")))
  refine ⟨report, ?_, hsuccess⟩
  rw [reportOf, withPolicy_of_reads htext hindex habi hreads, hcompile]
  rfl

theorem reportOf_classify {number : String} {nr : UInt32}
    (hnumber : arguments.value? "NR" = some number)
    (hread : Numeral.readWord number.toList = .ok nr) :
    reportOf library kernel arguments "classify" =
      (classify ((TracePolicy.ofTable AbiTable.host (arguments.occurs "stack-trace")).attemptAll
        (choicesOf abi.count index (arguments.values "trace"))) abi index nr).mapError .panic := by
  rw [reportOf, withPolicy_of_reads htext hindex habi hreads, number_eq_ok hnumber hread]
  dsimp only [bind, Except.bind]

/-- Once the index and the specs are accepted, a command fails no more, unless the
    number to classify cannot be read. -/
theorem reportOf_of_reads (hcommand : command = "compile" ∨ command = "classify") :
    (command = "classify" ∧ ¬GivesNumber arguments ∧ ∃ exit,
        reportOf library kernel arguments command = .error (.refused exit) ∧
        (library.EndsForUsage → exit.code = 2 ∧ exit.output = [])) ∨
      ¬(command = "classify" ∧ ¬GivesNumber arguments) ∧
        ∃ report, reportOf library kernel arguments command = .ok report ∧
          report.failure = none := by
  rcases hcommand with rfl | rfl
  · exact .inr ⟨by simp, reportOf_compile library kernel htext hindex habi hreads⟩
  · by_cases hgives : GivesNumber arguments
    · refine .inr ⟨fun hnone => hnone.2 hgives, ?_⟩
      obtain ⟨number, nr, hnumber, hread⟩ := hgives
      obtain ⟨generator, _, journal, hclassify⟩ := exists_classify
        ((TracePolicy.ofTable AbiTable.host (arguments.occurs "stack-trace")).attemptAll
          (choicesOf abi.count index (arguments.values "trace"))) abi index nr
      rw [reportOf_classify library kernel htext hindex habi hreads hnumber hread, hclassify]
      exact ⟨_, rfl, rfl⟩
    · obtain ⟨exit, hnumber, hexit⟩ := number_of_not_givesNumber library hgives
      refine .inl ⟨rfl, hgives, exit, ?_, hexit⟩
      rw [reportOf, withPolicy_of_reads htext hindex habi hreads, hnumber]
      rfl

end ReportOf

section Exits

variable {library : ArgumentLibrary} {kernel : Kernel} {words : List String}
  {front arguments : Matches} {command : String} (logger : Logger)
  (hread : library.read grammar words = .ok ⟨front, some (command, arguments)⟩)

include hread

theorem execute_of_report {report : Report}
    (hreport : reportOf library kernel arguments command = .ok report) :
    execute library logger kernel words = .ok (report.exit (logger (logSource front))) := by
  simp only [execute, hread, hreport]

theorem execute_of_refused {exit : Exit}
    (hrefused : reportOf library kernel arguments command = .error (.refused exit)) :
    execute library logger kernel words =
      .ok { exit with errors := logger (logSource front) [] ++ exit.errors } := by
  simp only [execute, hread, hrefused]

end Exits

/-- Every failure comes from the arguments, before anything is printed. Ranges
    that could be read are selected, each of them and one after the other, for
    the parser and the policy know the same numbers. So `compile` and `classify`
    fail only if their index names no ABI or some spec cannot be read, the first
    of which is reported; after that only the number to classify can be wrong.
    Selecting a range and running the filter never fail, and nothing breaks down.
    Of the library it is assumed that a useless value is wrong usage. -/
theorem failures_come_from_arguments :
    (∀ (policy : TracePolicy) index spec ranges,
      NumberSpec.parse (policy.count index) spec = .ok ranges →
      (∀ range ∈ ranges, (policy.select index range).2 = .ok ()) ∧
      ∃ next, ranges.foldlM (fun policy range => policy.trySelect index range) policy = .ok next ∧
        ∀ nr, next.traces nr index = true ↔
          policy.traces nr index = true ∨ ∃ range ∈ ranges, range.lower ≤ nr ∧ nr ≤ range.upper) ∧
    ∀ (library : ArgumentLibrary) (logger : Logger) kernel words front command arguments text index,
      library.EndsForUsage →
      library.read grammar words = .ok ⟨front, some (command, arguments)⟩ →
      (command = "compile" ∨ command = "classify") →
      arguments.value? "personality" = some text →
      Numeral.read (UInt64.size - 1) text.toList = .ok index →
      ∃ exit, execute library logger kernel words = .ok exit ∧
        (exit.code = 1 ↔ 3 ≤ index ∨ ∃ abi, AbiTable.host[index]? = some abi ∧
          ∃ spec ∈ arguments.values "trace", ¬Reads abi.count spec) ∧
        (exit.code = 1 → ∃ complaint source,
          Complaint arguments index complaint ∧ LogsBy front source ∧
          exit = ⟨1, [], logger source [⟨.error, .commandLine, complaint⟩]⟩) ∧
        (exit.code ≠ 1 →
          (exit.code = 2 ↔ command = "classify" ∧ ¬GivesNumber arguments) ∧
          (exit.code = 2 → exit.output = []) ∧
          (exit.code ≠ 2 → exit.code = 0 ∧
            ∃ report, reportOf library kernel arguments command = .ok report ∧
              report.failure = none)) := by
  refine ⟨?_, ?_⟩
  · intro policy index spec ranges hparse
    refine ⟨fun range hrange => ?_, TracePolicy.exists_foldlM_trySelect_of_parse hparse⟩
    exact (@TracePolicy.select_snd_eq_ok_iff policy ⟨index, range⟩).mpr
      (TracePolicy.accepts_of_mem_parse hparse range hrange)
  · intro library logger kernel words front command arguments text index hends hread hcommand htext
      hindex
    have hhost : AbiTable.host[index]? = none ↔ 3 ≤ index := List.getElem?_eq_none_iff
    rw [← hhost, ← exists_refusal_iff]
    rcases reads_or_refusal arguments index with ⟨abi, habi, hreads⟩ | ⟨failure, hrefusal⟩
    · have haccepted := not_refusal_of_reads habi hreads
      rcases reportOf_of_reads library kernel htext hindex habi hreads hcommand with
        ⟨hclassify, hnumber, exit, hrefused, hexit⟩ | ⟨hnumber, report, hreport, hsuccess⟩
      · obtain ⟨hcode, houtput⟩ := hexit hends
        refine ⟨_, execute_of_refused logger hread hrefused, ?_⟩
        simp [hcode, houtput, haccepted, hclassify, hnumber]
      · refine ⟨_, execute_of_report logger hread hreport, ?_⟩
        simp [Report.exit, hsuccess, haccepted, hnumber, hreport]
    · have hreport := reportOf_of_refusal library kernel htext hindex hcommand hrefusal
      refine ⟨_, execute_of_report logger hread hreport, ?_, ?_, ?_⟩
      · exact iff_of_true rfl ⟨failure, hrefusal⟩
      · exact fun _ => ⟨_, _, hrefusal.complaint, logsBy_logSource front, rfl⟩
      · exact fun hcode => absurd rfl hcode

/-- A reversed range behind a good spec is what is wrong, though the number to
    classify is no number either. Without the range that is found out. -/
theorem failures_come_from_arguments_x32 :
    let count := (TracePolicy.ofTable AbiTable.host false).count 2
    let run := execute .separate .errorsOnly Kernel.current
    NumberSpec.parse count "1,5-7".toList = .ok [⟨1, 1⟩, ⟨5, 7⟩] ∧
      ((TracePolicy.ofTable AbiTable.host false).select 2 ⟨5, 7⟩).2 = .ok () ∧
      ArgumentLibrary.separate.EndsForUsage ∧
      (∃ complaint : String, run ["-v", "classify", "-p", "2", "-t", "1,5-7", "-t", "9-3", "x"] =
        .ok ⟨1, [], [s!"[ERROR seccomp_sieve] {complaint}"]⟩) ∧
      ∃ exit, run ["classify", "x", "-p", "2", "--trace", "1,5-7"] = .ok exit ∧
        exit.code = 2 ∧ exit.output = [] := by
  intro count run
  obtain ⟨hranges, hexits⟩ := failures_come_from_arguments
  have hparse : NumberSpec.parse count "1,5-7".toList = .ok [⟨1, 1⟩, ⟨5, 7⟩] := rfl
  have hindex : Numeral.read (UInt64.size - 1) "2".toList = .ok 2 := by rfl
  have hselect := (hranges _ _ _ _ hparse).1 ⟨5, 7⟩ (by simp)
  have hends := ArgumentLibrary.endsForUsage_separate
  have hclassify : Command.classify ∈ grammar.commands := by decide
  have hread := ArgumentLibrary.readsSpelled_separate .classify hclassify
  have habi : Command.classify.Spelling ["-p", "2"] ⟨"personality", some "2"⟩ :=
    .option .abi (by decide) rfl (by decide) (by decide)
  have htrace {word value : String} (hword : word ∈ Argument.trace.words)
      (hvalue : IsPlain value) : Command.classify.Spelling [word, value] ⟨"trace", some value⟩ :=
    .option .trace (by decide) rfl hword hvalue
  have hnumber : Command.classify.Spelling ["x"] ⟨"NR", some "x"⟩ :=
    .operand .number (by decide) rfl (by decide)
  refine ⟨hparse, hselect, hends, ?_, ?_⟩
  · have hwords := hread [["-v"]] [⟨"verbose", none⟩]
      [["-p", "2"], ["-t", "1,5-7"], ["-t", "9-3"], ["x"]] _
      (.cons (.flag .verbose (by decide) rfl (by decide)) .nil) (by decide)
      (.cons habi (.cons (htrace (by decide) (by decide))
        (.cons (htrace (by decide) (by decide)) (.cons hnumber .nil)))) (by decide)
    obtain ⟨exit, hexit, hone, hlogged, _⟩ :=
      hexits .separate .errorsOnly Kernel.current _ _ _ _ "2" 2 hends hwords (.inr rfl) rfl hindex
    have hcode : exit.code = 1 := hone.mpr (.inr ⟨Abi.x32, rfl, "9-3", by decide,
      not_reads_iff.mpr ⟨.reversed "9-3", rfl⟩⟩)
    obtain ⟨complaint, _, _, _, rfl⟩ := hlogged hcode
    exact ⟨complaint, hexit⟩
  · have hwords := hread [] [] [["x"], ["-p", "2"], ["--trace", "1,5-7"]] _ .nil (by decide)
      (.cons hnumber (.cons habi (.cons (htrace (by decide) (by decide)) .nil))) (by decide)
    obtain ⟨exit, hexit, hone, _, hlast⟩ :=
      hexits .separate .errorsOnly Kernel.current _ _ _ _ "2" 2 hends hwords (.inr rfl) rfl hindex
    have haccepted : exit.code ≠ 1 := by
      rw [ne_eq, hone]
      rintro (hindex | ⟨abi, habi, spec, hspec, hbad⟩)
      · exact absurd hindex (by decide)
      · cases habi
        cases List.mem_singleton.mp hspec
        exact hbad ⟨_, hparse⟩
    obtain ⟨htwo, hempty, _⟩ := hlast haccepted
    have hcode : exit.code = 2 := by
      refine htwo.mpr ⟨rfl, ?_⟩
      rintro ⟨number, nr, hnumber, hread⟩
      cases hnumber
      have herror : Numeral.readWord "x".toList = .error .invalidDigit := rfl
      rw [herror] at hread
      cases hread
    exact ⟨exit, hexit, hcode, hempty hcode⟩

end SyscallFilter.CommandLine
