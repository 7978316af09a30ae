import SyscallFilter.Proofs.CommandLine.Failures

namespace SyscallFilter

theorem TracePolicy.resumption_eq (policy : TracePolicy) (nr : UInt32) (index : Nat) :
    policy.resumption nr index = if policy.traces nr index then .syscall else .cont := by
  rw [resumption]
  refine if_congr ?_ rfl rfl
  exact ⟨And.right, fun htraces => ⟨lt_count_of_traces htraces, htraces⟩⟩

namespace CommandLine

/-- The three answers about a call, as they are printed: what the policy says, how a
    process that leaves the call goes on, and what the filter says. -/
structure Answers where
  predicate : String
  resumption : String
  verdict : String
  deriving DecidableEq

namespace Answers

/-- What the answers are if they agree. -/
def agreed (traces : Bool) : Answers :=
  if traces then ⟨"TRACE", "Syscall", "TRACE"⟩ else ⟨"ALLOW", "Cont", "ALLOW"⟩

/-- The lines that tell the answers. -/
def lines (answers : Answers) (abi : Abi) (nr : UInt32) (generator : String) : List String :=
  [s!"{abi.name} syscall {nr}: predicate {answers.predicate}, restart {answers.resumption}",
    s!"{generator} filter: {answers.verdict}"]

/-- Policy and resumption always agree; the filter gives the verdict that is owed
    to the call as the kernel sees it. -/
def given (policy : TracePolicy) (abi : Abi) (index : Nat) (nr : UInt32) : Answers :=
  { agreed (policy.traces nr index) with
    verdict := traceOrAllow (policy.judge AbiTable.host ⟨abi.arch, abi.mark nr⟩ = .trace) }

variable {policy : TracePolicy} {abi : Abi} {index : Nat} {nr : UInt32}

theorem given_of_lt (habi : AbiTable.host[index]? = some abi) (hnr : nr < abi.count) :
    given policy abi index nr = agreed (policy.traces nr index) := by
  rw [given, AbiTable.separable_host.judge_mark policy habi hnr, agreed]
  cases policy.traces nr index <;> rfl

theorem given_of_le (hcount : policy.count index = abi.count) (hpast : abi.count ≤ nr) :
    (given policy abi index nr).predicate = "ALLOW" ∧
      (given policy abi index nr).resumption = "Cont" := by
  have huntraced : policy.traces nr index = false := by
    by_contra htraces
    have hnr := TracePolicy.lt_count_of_traces (Bool.not_eq_false _ ▸ htraces)
    exact UInt32.not_le.mpr (hcount ▸ hnr) hpast
  simp [given, agreed, huntraced]

theorem verdict_given_of_straysToX32 {known : UInt32}
    (hstrays : AbiTable.StraysToX32 abi nr known) :
    (given policy abi index nr).verdict =
      if policy.traces known 2 then "TRACE" else "ALLOW" := by
  rw [given, AbiTable.judge_of_straysToX32 policy hstrays]
  cases policy.traces known 2 <;> rfl

theorem verdict_given_of_not_straysToX32 (habi : abi ∈ AbiTable.host) (hpast : abi.count ≤ nr)
    (hstrays : ¬∃ known, AbiTable.StraysToX32 abi nr known) :
    (given policy abi index nr).verdict = "TRACE" := by
  rw [given, AbiTable.judge_of_not_straysToX32 policy habi hpast hstrays]
  rfl

end Answers

/-- What is printed of a call are the answers about it, with the name of a
    generator. -/
theorem exists_classify_eq_lines (policy : TracePolicy) (abi : Abi) (index : Nat) (nr : UInt32) :
    ∃ generator, (generator = "linear" ∨ generator = "binary-match") ∧ ∃ journal,
      classify policy abi index nr =
        .ok ⟨(Answers.given policy abi index nr).lines abi nr generator, journal, none⟩ := by
  have hnames : ∀ generator ∈ Generator.all,
      generator.name = "linear" ∨ generator.name = "binary-match" := by
    simp [Generator.all, Generator.rangeTest, Generator.maskTest]
  obtain ⟨generator, hgenerator, journal, hclassify⟩ := exists_classify policy abi index nr
  refine ⟨generator.name, hnames generator hgenerator, journal, hclassify.trans ?_⟩
  rw [policy.resumption_eq, Answers.lines, Answers.given, Answers.agreed]
  cases policy.traces nr index <;> rfl

/-- What `classify` prints for any number, any selection and each ABI of this
    machine. Policy, resumption and filter agree on the known numbers. Past them
    the policy lets a call pass and the filter traces it, unless the kernel sees
    a number of x32 there: then the filter goes by what is traced for x32. -/
theorem classify_answers (logger : Logger) (kernel : Kernel) {library : ArgumentLibrary}
    {words : List String} {front arguments : Matches} {text number : String} {index : Nat}
    {abi : Abi} {nr : UInt32}
    (hread : library.read grammar words = .ok ⟨front, some ("classify", arguments)⟩)
    (htext : arguments.value? "personality" = some text)
    (hindex : Numeral.read (UInt64.size - 1) text.toList = .ok index)
    (habi : AbiTable.host[index]? = some abi)
    (hreads : ∀ spec ∈ arguments.values "trace", Reads abi.count spec)
    (hnumber : arguments.value? "NR" = some number)
    (hnr : Numeral.readWord number.toList = .ok nr) :
    ∃ policy answers, ∃ exit : Exit, policyOf arguments index = .ok (abi, policy) ∧
      execute library logger kernel words = .ok exit ∧ exit.code = 0 ∧
      (exit.output = Answers.lines answers abi nr "linear" ∨
        exit.output = answers.lines abi nr "binary-match") ∧
      (nr < abi.count → answers = .agreed (policy.traces nr index)) ∧
      (abi.count ≤ nr → answers.predicate = "ALLOW" ∧ answers.resumption = "Cont" ∧
        (∀ known, AbiTable.StraysToX32 abi nr known →
          answers.verdict = if policy.traces known 2 then "TRACE" else "ALLOW") ∧
        ((¬∃ known, AbiTable.StraysToX32 abi nr known) → answers.verdict = "TRACE")) := by
  have hstart : (TracePolicy.ofTable AbiTable.host (arguments.occurs "stack-trace")).count index =
      abi.count := count_ofTable habi
  have hcount := (TracePolicy.count_attemptAll _
    (choicesOf abi.count index (arguments.values "trace")) index).trans hstart
  have hreport := reportOf_classify library kernel htext hindex habi hreads hnumber hnr
  obtain ⟨generator, hgenerator, journal, hclassify⟩ := exists_classify_eq_lines
    ((TracePolicy.ofTable AbiTable.host (arguments.occurs "stack-trace")).attemptAll
      (choicesOf abi.count index (arguments.values "trace"))) abi index nr
  rw [hclassify] at hreport
  refine ⟨_, Answers.given _ abi index nr, _, policyOf_of_reads habi hreads,
    execute_of_report logger hread hreport, rfl, ?_, Answers.given_of_lt habi, ?_⟩
  · rcases hgenerator with rfl | rfl
    · exact .inl rfl
    · exact .inr rfl
  intro hpast
  obtain ⟨hpredicate, hresumption⟩ := Answers.given_of_le hcount hpast
  refine ⟨hpredicate, hresumption, fun known => Answers.verdict_given_of_straysToX32, ?_⟩
  exact Answers.verdict_given_of_not_straysToX32 (List.mem_of_getElem? habi) hpast

/-- A number of x32 that has its flag already: nothing is known of it as it is
    written, but the filter sees call 5, which is traced. -/
theorem classify_answers_flagged :
    let run := execute .separate .errorsOnly Kernel.current
    ∃ exit, run ["classify", "-p", "2", "-t", "1,5-7", "1073741829"] = .ok exit ∧ exit.code = 0 ∧
      ∃ generator, exit.output =
        Answers.lines ⟨"ALLOW", "Cont", "TRACE"⟩ Abi.x32 1073741829 generator := by
  intro run
  let given : List Occurrence :=
    [⟨"personality", some "2"⟩, ⟨"trace", some "1,5-7"⟩, ⟨"NR", some "1073741829"⟩]
  have hread := ArgumentLibrary.readsSpelled_separate .classify (by decide) [] []
    [["-p", "2"], ["-t", "1,5-7"], ["1073741829"]] given .nil (by decide)
    (.cons (.option .abi (by decide) rfl (by decide) (by decide))
      (.cons (.option .trace (by decide) rfl (by decide) (by decide))
        (.cons (.operand .number (by decide) rfl (by decide)) .nil)))
    (by decide)
  have hreads : ∀ spec ∈ (Command.classify.found given).values "trace",
      Reads Abi.x32.count spec := by
    intro spec hspec
    cases List.mem_singleton.mp hspec
    exact ⟨[⟨1, 1⟩, ⟨5, 7⟩], rfl⟩
  have hindex : Numeral.read (UInt64.size - 1) "2".toList = .ok 2 := by rfl
  have hnumber : Numeral.readWord "1073741829".toList = .ok 1073741829 := by rfl
  have habi : AbiTable.host[2]? = some Abi.x32 := rfl
  obtain ⟨policy, ⟨predicate, resumption, verdict⟩, exit, hpolicy, hexit, hcode, houtput, _, hpast⟩ :=
    classify_answers .errorsOnly Kernel.current hread rfl hindex habi
      hreads rfl hnumber
  obtain ⟨hpredicate, hresumption, hstrays, _⟩ := hpast (by decide)
  have htraces : policy.traces 5 2 = true := by
    have hmade : (policyOf (Command.classify.found given) 2).map (fun made => made.2.traces 5 2) =
        .ok true := by decide +kernel
    rw [hpolicy] at hmade
    exact Except.ok.inj hmade
  have hverdict := hstrays 5 ⟨.inr rfl, by decide, by decide⟩
  rw [htraces, if_pos rfl] at hverdict
  cases hpredicate
  cases hresumption
  cases hverdict
  exact ⟨exit, hexit, hcode, houtput.elim (⟨_, ·⟩) (⟨_, ·⟩)⟩

end CommandLine

end SyscallFilter
