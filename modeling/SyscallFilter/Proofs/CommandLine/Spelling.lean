import Mathlib.Data.List.Forall2
import SyscallFilter.CommandLine.Library

namespace SyscallFilter.CommandLine

/-- To end the program over the value of an argument is to end it for wrong usage:
    it exits with 2 and prints nothing. -/
structure ArgumentLibrary.EndsForUsage (library : ArgumentLibrary) : Prop where
  missing : ∀ argument,
    (library.missing argument).code = 2 ∧ (library.missing argument).output = []
  invalid : ∀ argument value cause,
    (library.invalid argument value cause).code = 2 ∧
      (library.invalid argument value cause).output = []

/-- An argument as it occurs in a command line, with its value if it takes one. -/
structure Occurrence where
  name : String
  value : Option String
  deriving DecidableEq

/-- The words that stand for an option. -/
def Argument.words (argument : Argument) : List String :=
  (argument.short.map fun letter => String.ofList ['-', letter]).toList ++
    (argument.long.map fun name => String.ofList ('-' :: '-' :: name.toList)).toList

/-- The word is not empty and cannot be taken for an option. -/
def IsPlain (word : String) : Prop :=
  word.toList.head?.any (· != '-') = true

instance (word : String) : Decidable (IsPlain word) :=
  inferInstanceAs (Decidable (_ = true))

namespace Command

variable (command : Command) (given : List Occurrence)

/-- The words are the occurrence in writing. The value of an option stands in the
    word behind it. -/
inductive Spelling : List String → Occurrence → Prop where
  | flag {word : String} (argument : Argument) (hargument : argument ∈ command.arguments)
    (hflag : argument.takesValue = false) (hword : word ∈ argument.words) :
    Spelling [word] ⟨argument.name, none⟩
  | option {word value : String} (argument : Argument) (hargument : argument ∈ command.arguments)
    (htakes : argument.takesValue = true) (hword : word ∈ argument.words) (hvalue : IsPlain value) :
    Spelling [word, value] ⟨argument.name, some value⟩
  | operand {value : String} (argument : Argument) (hargument : argument ∈ command.arguments)
    (hwords : argument.words = []) (hvalue : IsPlain value) :
    Spelling [value] ⟨argument.name, some value⟩

/-- The occurrences may stand together in a command line: none is missing or
    repeated against the rule, and none conflicts with another. -/
def Admits : Prop :=
  (∀ argument ∈ command.arguments, argument.repeatable = false →
    given.countP (·.name = argument.name) ≤ 1) ∧
  (∀ argument ∈ command.arguments, argument.required = true → argument.name ∈ given.map (·.name)) ∧
  ∀ argument ∈ command.arguments, argument.name ∈ given.map (·.name) →
    ∀ other ∈ argument.conflicts, other ∉ given.map (·.name)

instance : Decidable (command.Admits given) :=
  inferInstanceAs (Decidable (_ ∧ _ ∧ _))

/-- What is to be found if these are given: the values in their order, or else the
    default. -/
def found : Matches where
  occurs name :=
    given.any (·.name = name) ||
      command.arguments.any fun argument => argument.name = name && argument.default.isSome
  values name :=
    match (given.filter (·.name = name)).filterMap (·.value) with
    | [] => ((command.arguments.find? (·.name = name)).bind (·.default)).toList
    | values => values

end Command

/-- The library finds what is in writing: arguments of the program, the name of a
    command, and arguments of that in any order. How it reads other words is left
    open. -/
def ArgumentLibrary.ReadsSpelled (library : ArgumentLibrary) : Prop :=
  ∀ command ∈ grammar.commands, ∀ fronts front parts given,
    List.Forall₂ grammar.program.Spelling fronts front → grammar.program.Admits front →
    List.Forall₂ command.Spelling parts given → command.Admits given →
    library.read grammar (fronts.flatten ++ command.name :: parts.flatten) =
      .ok ⟨grammar.program.found front, some (command.name, command.found given)⟩

/-! Two libraries for examples, one that obeys these laws and one for the log. -/

namespace Command

variable {command : Command} {parts : List (List String)} {given : List Occurrence}

/-- Reads arguments in writing up to a word that is none. -/
def readArguments (command : Command) : List String → List Occurrence × List String
  | [] => ([], [])
  | word :: rest =>
    match command.arguments.find? (word ∈ ·.words) with
    | some argument =>
      if argument.takesValue then
        match rest with
        | [] => ([], [word])
        | value :: later =>
          let (given, last) := readArguments command later
          (⟨argument.name, some value⟩ :: given, last)
      else
        let (given, last) := readArguments command rest
        (⟨argument.name, none⟩ :: given, last)
    | none =>
      match command.arguments.find? (·.words = []) with
      | none => ([], word :: rest)
      | some argument =>
        let (given, last) := readArguments command rest
        (⟨argument.name, some word⟩ :: given, last)

/-- Each word stands for one argument at most, and one argument at most is no
    option. -/
def Unambiguous (command : Command) : Prop :=
  ∀ argument ∈ command.arguments,
    (∀ word ∈ argument.words, command.arguments.find? (word ∈ ·.words) = some argument) ∧
      (argument.words = [] → command.arguments.find? (·.words = []) = some argument)

instance (command : Command) : Decidable command.Unambiguous :=
  inferInstanceAs (Decidable (∀ _ ∈ _, _))

theorem find?_of_isPlain {word : String} (hword : IsPlain word) :
    command.arguments.find? (word ∈ ·.words) = none := by
  rw [List.find?_eq_none]
  intro argument _ hmem
  have hfirst : word.toList.head? = some '-' := by
    simp only [decide_eq_true_eq, Argument.words, List.mem_append, Option.mem_toList,
      Option.map_eq_some_iff] at hmem
    rcases hmem with ⟨_, _, rfl⟩ | ⟨_, _, rfl⟩ <;> simp
  rw [IsPlain, hfirst] at hword
  exact absurd hword (by decide)

theorem readArguments_flatten (hunambiguous : command.Unambiguous)
    (hparts : List.Forall₂ command.Spelling parts given) {rest : List String}
    (hrest : command.readArguments rest = ([], rest)) :
    command.readArguments (parts.flatten ++ rest) = (given, rest) := by
  induction hparts with
  | nil => exact hrest
  | cons hspelling _ ih =>
    cases hspelling with
    | flag _ hargument hflag hword =>
      simp [readArguments, (hunambiguous _ hargument).1 _ hword, hflag, ih]
    | option _ hargument htakes hword hvalue =>
      simp [readArguments, (hunambiguous _ hargument).1 _ hword, htakes, ih]
    | operand _ hargument hwords hvalue =>
      simp [readArguments, find?_of_isPlain hvalue, (hunambiguous _ hargument).2 hwords, ih]

end Command

namespace ArgumentLibrary

def usage : Exit :=
  ⟨2, [], ["usage: seccomp-sieve [-v | -l LEVEL] COMMAND"]⟩

/-- Reads options whose values stand in words of their own, and no others. -/
def separate : ArgumentLibrary where
  read grammar words :=
    match grammar.program.readArguments words with
    | (_, []) => .error usage
    | (front, name :: rest) =>
      match grammar.commands.find? (·.name = name) with
      | none => .error usage
      | some command =>
        let (given, last) := command.readArguments rest
        if last = [] ∧ grammar.program.Admits front ∧ command.Admits given then
          .ok ⟨grammar.program.found front, some (command.name, command.found given)⟩
        else .error usage
  missing argument := ⟨2, [], [s!"error: no value for '{argument}'"]⟩
  invalid argument value cause :=
    ⟨2, [], [s!"error: invalid value '{value}' for '{argument}': {cause}"]⟩

theorem endsForUsage_separate : separate.EndsForUsage where
  missing _ := ⟨rfl, rfl⟩
  invalid _ _ _ := ⟨rfl, rfl⟩

theorem readsSpelled_separate : separate.ReadsSpelled := by
  intro command hcommand fronts front parts given hfronts hfront hparts hgiven
  have hprogram : grammar.program.Unambiguous := by decide
  have hcommands : ∀ command ∈ grammar.commands, command.Unambiguous ∧
      grammar.program.arguments.find? (command.name ∈ ·.words) = none ∧
      grammar.commands.find? (·.name = command.name) = some command := by decide
  have hoperand : grammar.program.arguments.find? (·.words = []) = none := by decide
  obtain ⟨hunambiguous, hname, hfind⟩ := hcommands command hcommand
  have hstop (rest : List String) : grammar.program.readArguments (command.name :: rest) =
      ([], command.name :: rest) := by
    simp only [Command.readArguments, hname, hoperand]
  have hread : command.readArguments (parts.flatten ++ []) = (given, []) :=
    Command.readArguments_flatten hunambiguous hparts rfl
  rw [List.append_nil] at hread
  simp only [separate, Command.readArguments_flatten hprogram hfronts (hstop _), hfind, hread]
  exact if_pos ⟨trivial, hfront, hgiven⟩

end ArgumentLibrary

/-- Writes errors only, as a log with the level `error` does, and one with any other
    level as long as nothing but errors is reported. -/
def Logger.errorsOnly : Logger := fun _ journal =>
  (journal.filter (·.level = .error)).map fun note => s!"[ERROR seccomp_sieve] {note.message}"

end SyscallFilter.CommandLine
