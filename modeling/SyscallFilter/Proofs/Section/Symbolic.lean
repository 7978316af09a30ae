import SyscallFilter.Proofs.Instruction.Forms
import SyscallFilter.Proofs.Machine.Jumps
import SyscallFilter.Section

namespace SyscallFilter

/-- The test of a conditional jump, of which `code` does not name the class. -/
def Test.ofCode? (code : UInt16) : Option Test :=
  if code = Opcode.jeq then some .equal
  else if code = Opcode.jge then some .atLeast
  else if code = Opcode.jset then some .anyBit
  else none

/-- The form of the conditional jumps with the test. -/
def Test.form : Test → Form
  | .equal => .jeq
  | .atLeast => .jge
  | .anyBit => .jset

theorem Test.code_form {code : UInt16} {test : Test} (htest : ofCode? code = some test) :
    Opcode.jmp ||| code = test.form.code := by
  unfold ofCode? at htest
  split at htest
  · subst code
    cases htest
    rfl
  · split at htest
    · subst code
      cases htest
      rfl
    · split at htest
      · subst code
        cases htest
        rfl
      · cases htest

theorem Instruction.operation_jump {code : UInt16} {test : Test}
    (htest : Test.ofCode? code = some test) (k : UInt32) (jt jf : UInt8) :
    (Instruction.jump code k jt jf).operation = .ok (.branch test k jt jf) := by
  rw [operation_of_code test.form (Test.code_form htest)]
  cases test <;> rfl

/-- How far the target lies ahead of a line that `following` lines of the
    section follow, before any offset is squeezed into a byte. -/
def Target.distance (following : Nat) : Target → Nat
  | .skip lines => lines.toNat
  | .allow => following
  | .trace => following + 1
  | .next => following + 2

/-- In a section that is short enough a byte holds the distance of every
    target. -/
theorem Target.toNat_offset {following : Nat} (hfits : following + 2 ≤ Section.maxSize)
    (target : Target) : (target.offset following).toNat = target.distance following := by
  have hbyte {count : Nat} (hcount : count ≤ following + 2) : (UInt8.ofNat count).toNat = count := by
    have hmax : Section.maxSize < 2 ^ 8 := by decide
    rw [UInt8.toNat_ofNat']
    exact Nat.mod_eq_of_lt (by omega)
  cases target with
  | skip lines => rfl
  | allow => exact hbyte (by omega)
  | trace => exact hbyte (by omega)
  | next => exact hbyte (by omega)

/-- The instruction of the section to which the target of the line at `position`
    leads. -/
def Target.destination (lines : Section) (position : Nat) : Target → Nat
  | .skip count => position + 1 + count.toNat
  | .allow => lines.length
  | .trace => lines.length + 1
  | .next => lines.size

/-- The instruction stands for the line at `position`: a statement is taken over
    as it is, and each jump leads to the destination of its target. -/
def Line.StandsFor (lines : Section) (position : Nat) (insn : Instruction) : Line → Prop
  | .stmt written => insn = written
  | .branch code k jt jf =>
    insn = .jump code k insn.jt insn.jf ∧
      position + 1 + insn.jt.toNat = jt.destination lines position ∧
      position + 1 + insn.jf.toNat = jf.destination lines position
  | .always target =>
    insn = .jump Opcode.ja insn.k 0 0 ∧
      position + 1 + insn.k.toNat = target.destination lines position

theorem Target.destination_eq {lines : Section} {position : Nat}
    (hposition : position < lines.length) (target : Target) :
    position + 1 + target.distance (lines.length - (position + 1)) =
      target.destination lines position := by
  cases target with
  | skip count => rfl
  | allow => simp only [distance, destination]; omega
  | trace => simp only [distance, destination]; omega
  | next => simp only [distance, destination, Section.size]; omega

theorem Line.standsFor_resolve {lines : Section} (hfits : lines.size ≤ Section.maxSize)
    {position : Nat} (hposition : position < lines.length) (line : Line) :
    line.StandsFor lines position (line.resolve (lines.length - (position + 1))) := by
  have hoffset (target : Target) :
      position + 1 + (target.offset (lines.length - (position + 1))).toNat =
        target.destination lines position := by
    rw [target.toNat_offset (by rw [Section.size] at hfits; omega), target.destination_eq hposition]
  cases line with
  | stmt written => rfl
  | branch code k jt jf => exact ⟨rfl, hoffset jt, hoffset jf⟩
  | always target => exact ⟨rfl, (UInt8.toNat_toUInt32 _).symm ▸ hoffset target⟩

theorem Test.exists_ofCode? {code : UInt16}
    (hcode : code = Opcode.jeq ∨ code = Opcode.jge ∨ code = Opcode.jset) :
    ∃ test, ofCode? code = some test := by
  rcases hcode with rfl | rfl | rfl
  · exact ⟨.equal, rfl⟩
  · exact ⟨.atLeast, rfl⟩
  · exact ⟨.anyBit, rfl⟩

namespace Section

/-- How control leaves a section: it comes to a return or to a statement without
    a meaning, or it goes on behind the section, past the next `skip`
    instructions there. -/
inductive Departure where
  | returned (k : UInt32)
  | faulted (cause : Unsupported) (line : Nat)
  | onward (regs : Registers) (skip : Nat)
  deriving DecidableEq

/-- How control leaves by way of a target, where it leaves as `passing` tells if
    so many lines are passed over. No distance but that of a skip is looked at. -/
def leadBy? (regs : Registers) (passing : Nat → Option Departure) : Target → Option Departure
  | .skip count => passing count.toNat
  | .next => some (.onward regs 0)
  | .trace => some (.returned Verdict.trace.code)
  | .allow => some (.returned Verdict.allow.code)

/-- How control leaves the lines of a section, of which the next `skip` ones are
    passed over and `line` ones lie behind. The targets are taken by their names;
    behind the last line stand the two returns of the section. Only a conditional
    jump of an unknown test leads nowhere. -/
def follow? (datum : Datum) : (line skip : Nat) → Registers → Section → Option Departure
  | _, 0, _, [] => some (.returned Verdict.allow.code)
  | _, 1, _, [] => some (.returned Verdict.trace.code)
  | _, skip + 2, regs, [] => some (.onward regs skip)
  | line, skip + 1, regs, _ :: rest => follow? datum (line + 1) skip regs rest
  | line, 0, regs, .stmt insn :: rest =>
    match insn.operation with
    | .error cause => some (.faulted cause line)
    | .ok operation =>
      match operation.perform datum regs with
      | .done k => some (.returned k)
      | .next regs skip => follow? datum (line + 1) skip regs rest
  | line, 0, regs, .branch code k jt jf :: rest =>
    match Test.ofCode? code with
    | none => none
    | some test =>
      leadBy? regs (fun skip => follow? datum (line + 1) skip regs rest)
        (if test.holds regs.a k then jt else jf)
  | line, 0, regs, .always target :: rest =>
    leadBy? regs (fun skip => follow? datum (line + 1) skip regs rest) target

/-- Every conditional jump of the section has one of the three tests. -/
def TestsKnown (lines : Section) : Prop :=
  ∀ code k jt jf, Line.branch code k jt jf ∈ lines →
    code = Opcode.jeq ∨ code = Opcode.jge ∨ code = Opcode.jset

theorem exists_leadBy? {regs : Registers} {passing : Nat → Option Departure}
    (hpassing : ∀ skip, ∃ departure, passing skip = some departure) (target : Target) :
    ∃ departure, leadBy? regs passing target = some departure := by
  cases target with
  | skip count => exact hpassing count.toNat
  | _ => exact ⟨_, rfl⟩

/-- Control always leaves a section whose tests are known. -/
theorem exists_follow? {lines : Section} (hknown : lines.TestsKnown) (datum : Datum)
    (line skip : Nat) (regs : Registers) :
    ∃ departure, follow? datum line skip regs lines = some departure := by
  induction lines generalizing line skip regs with
  | nil =>
    match skip with
    | 0 => exact ⟨_, rfl⟩
    | 1 => exact ⟨_, rfl⟩
    | _ + 2 => exact ⟨_, rfl⟩
  | cons first rest ih =>
    -- Also a test that is jumped over is assumed to be known, so it need not be followed.
    have hrest : TestsKnown rest := fun code k jt jf hmem =>
      hknown code k jt jf (List.mem_cons_of_mem _ hmem)
    have later (skip : Nat) (regs : Registers) := ih hrest (line + 1) skip regs
    cases skip with
    | succ skip =>
      rw [follow?]
      exact later skip regs
    | zero =>
      cases first with
      | stmt insn =>
        rw [follow?]
        split
        · exact ⟨_, rfl⟩
        · split
          · exact ⟨_, rfl⟩
          · exact later _ _
      | branch code k jt jf =>
        obtain ⟨test, htest⟩ := Test.exists_ofCode? (hknown code k jt jf List.mem_cons_self)
        simp only [follow?, htest]
        exact exists_leadBy? (fun skip => later skip regs) _
      | always target => exact exists_leadBy? (fun skip => later skip regs) target

/-- What a run comes to that leaves a section so, where the section begins at
    `start` and the code behind it at `next`. -/
def Departure.resume (datum : Datum) (start next : Nat) (behind : List Instruction) :
    Departure → Except Fault UInt32
  | .returned k => .ok k
  | .faulted cause line => .error (.unsupported cause (start + line))
  | .onward regs skip => runFrom datum next skip regs behind

theorem resolve_eq_append (lines : Section) :
    ∃ resolved : List Instruction, resolved.length = lines.length ∧
      lines.resolve = resolved ++ [.ret .allow, .ret .trace] := by
  induction lines with
  | nil => exact ⟨[], rfl, rfl⟩
  | cons line rest ih =>
    obtain ⟨resolved, hlength, hresolve⟩ := ih
    refine ⟨line.resolve rest.length :: resolved, ?_, ?_⟩
    · rw [List.length_cons, List.length_cons, hlength]
    · rw [resolve, hresolve, List.cons_append]

theorem getElem?_resolve {lines : Section} {position : Nat} {line : Line}
    (hline : lines[position]? = some line) :
    lines.resolve[position]? = some (line.resolve (lines.length - (position + 1))) := by
  induction lines generalizing position with
  | nil => simp at hline
  | cons first rest ih =>
    cases position with
    | zero =>
      cases hline
      rfl
    | succ position =>
      rw [List.length_cons, Nat.add_sub_add_right]
      exact ih hline

section Resume

variable {datum : Datum} {regs : Registers} {lines : Section} {departure : Departure}

private theorem runFrom_ret (datum : Datum) (position : Nat) (regs : Registers) (verdict : Verdict)
    (rest : List Instruction) :
    runFrom datum position 0 regs (.ret verdict :: rest) = .ok verdict.code := by
  simp [runFrom, Operation.perform]

/-- A jump leads where its target says, if a skip does. -/
theorem runFrom_offset {passing : Nat → Option Departure} {target : Target}
    (hfits : lines.size ≤ maxSize) (hlead : leadBy? regs passing target = some departure)
    {start position : Nat} {behind : List Instruction}
    (hpassing : ∀ skip, passing skip = some departure →
      runFrom datum position skip regs (lines.resolve ++ behind) =
        departure.resume datum start (position + lines.size) behind) :
    runFrom datum position (target.offset lines.length).toNat regs (lines.resolve ++ behind) =
      departure.resume datum start (position + lines.size) behind := by
  rw [target.toNat_offset hfits]
  obtain ⟨resolved, hlength, hresolve⟩ := resolve_eq_append lines
  -- Behind all lines stand the two returns, then the code behind the section.
  have hpast (extra : Nat) :
      runFrom datum position (lines.length + extra) regs (lines.resolve ++ behind) =
        runFrom datum (position + lines.length) extra regs
          (.ret .allow :: .ret .trace :: behind) := by
    rw [hresolve, List.append_assoc, ← hlength, runFrom_skip]
    rfl
  cases target with
  | skip count => exact hpassing _ hlead
  | allow =>
    cases hlead
    exact (hpast 0).trans (runFrom_ret datum _ regs .allow _)
  | trace =>
    cases hlead
    exact (hpast 1).trans (runFrom_ret datum (position + lines.length + 1) regs .trace behind)
  | next =>
    cases hlead
    exact hpast 2

/-- The instructions of a section do what its lines say, wherever the section
    stands and whatever stands behind it. The induction is on the lines, with any
    number of them passed over: a jump within the section passes over lines. -/
theorem runFrom_resolve_of_follow? {line skip : Nat} (hfits : lines.size ≤ maxSize)
    (hfollow : follow? datum line skip regs lines = some departure) (start : Nat)
    (behind : List Instruction) :
    runFrom datum (start + line) skip regs (lines.resolve ++ behind) =
      departure.resume datum start (start + line + lines.size) behind := by
  induction lines generalizing line skip regs with
  | nil =>
    match skip with
    | 0 =>
      cases hfollow
      exact runFrom_ret datum _ regs .allow _
    | 1 =>
      cases hfollow
      exact runFrom_ret datum (start + line + 1) regs .trace behind
    | _ + 2 =>
      cases hfollow
      rfl
  | cons first rest ih =>
    have hrest : size rest ≤ maxSize := by
      simp only [size, List.length_cons] at hfits ⊢
      omega
    have hend : start + (line + 1) + size rest = start + line + size (first :: rest) := by
      simp only [size, List.length_cons]
      omega
    have step {skip : Nat} {regs : Registers}
        (hlater : follow? datum (line + 1) skip regs rest = some departure) :
        runFrom datum (start + line + 1) skip regs (resolve rest ++ behind) =
          departure.resume datum start (start + line + size (first :: rest)) behind := by
      rw [← hend]
      exact ih hrest hlater
    have jump {regs : Registers} {target : Target}
        (hlead : leadBy? regs (fun skip => follow? datum (line + 1) skip regs rest) target =
          some departure) :
        runFrom datum (start + line + 1) (target.offset rest.length).toNat regs
            (resolve rest ++ behind) =
          departure.resume datum start (start + line + size (first :: rest)) behind := by
      rw [← hend]
      exact runFrom_offset hrest hlead fun skip hskip => ih hrest hskip
    cases skip with
    | succ skip =>
      rw [follow?] at hfollow
      exact step hfollow
    | zero =>
      cases first with
      | stmt insn =>
        simp only [follow?] at hfollow
        simp only [resolve, Line.resolve, List.cons_append, runFrom]
        cases hoperation : insn.operation with
        | error cause =>
          simp only [hoperation] at hfollow
          cases hfollow
          rfl
        | ok operation =>
          simp only [hoperation] at hfollow ⊢
          cases hperform : operation.perform datum regs with
          | done k =>
            simp only [hperform] at hfollow
            cases hfollow
            rfl
          | next regs skip =>
            simp only [hperform] at hfollow ⊢
            exact step hfollow
      | branch code k jt jf =>
        simp only [follow?] at hfollow
        cases htest : Test.ofCode? code with
        | none => simp [htest] at hfollow
        | some test =>
          simp only [htest] at hfollow
          simp only [resolve, Line.resolve, List.cons_append, runFrom,
            Instruction.operation_jump htest, Operation.perform]
          -- The lines choose between the targets, the code between their offsets.
          rw [← apply_ite (Target.offset rest.length)]
          exact jump hfollow
      | always target =>
        simp only [follow?] at hfollow
        simp only [resolve, Line.resolve, List.cons_append, runFrom, Instruction.operation_ja,
          Operation.perform]
        rw [UInt8.toNat_toUInt32]
        exact jump hfollow

end Resume

theorem resolve?_eq_none_iff {lines : Section} : lines.resolve? = none ↔ 253 < lines.length := by
  simp [resolve?, size, maxSize]

/-- Sections of up to 253 lines can be resolved, longer ones cannot. Every
    statement is taken over as it is and every jump leads to the destination of
    its target. So the instructions do what the lines say, wherever they are put
    and with whatever registers a run enters at the first of them; a statement
    that is itself a jump need not be excluded. -/
theorem resolve_keeps_meaning (lines : Section) :
    (lines.resolve? = none ↔ 253 < lines.length) ∧
    ∀ code, lines.resolve? = some code →
      code.length = lines.length + 2 ∧
      code[lines.length]? = some (.ret .allow) ∧
      code[lines.length + 1]? = some (.ret .trace) ∧
      (∀ position line, lines[position]? = some line →
        position + 3 ≤ lines.size ∧ lines.size - (position + 1) < UInt8.size ∧
          ∃ insn, code[position]? = some insn ∧ line.StandsFor lines position insn) ∧
      (lines.TestsKnown → ∀ datum regs, ∃ departure,
        follow? datum 0 0 regs lines = some departure ∧
          ∀ before behind, runFrom datum 0 before.length regs (before ++ code ++ behind) =
            departure.resume datum before.length (before.length + lines.size) behind) := by
  refine ⟨resolve?_eq_none_iff, ?_⟩
  intro code hcode
  obtain ⟨hfits, rfl⟩ : lines.size ≤ maxSize ∧ lines.resolve = code := by
    simpa [resolve?] using hcode
  obtain ⟨resolved, hlength, hresolve⟩ := resolve_eq_append lines
  refine ⟨length_resolve lines, ?_, ?_, ?_, ?_⟩
  · simp [hresolve, ← hlength]
  · simp [hresolve, ← hlength]
  · intro position line hline
    obtain ⟨hposition, _⟩ := List.getElem?_eq_some_iff.mp hline
    refine ⟨?_, ?_, _, getElem?_resolve hline, line.standsFor_resolve hfits hposition⟩
    · rw [size]
      omega
    · have hbyte : maxSize < UInt8.size := by decide
      omega
  · intro hknown datum regs
    obtain ⟨departure, hfollow⟩ := exists_follow? hknown datum 0 0 regs
    refine ⟨departure, hfollow, ?_⟩
    intro before behind
    rw [List.append_assoc]
    refine (runFrom_skip datum 0 0 regs before (lines.resolve ++ behind)).trans ?_
    rw [Nat.zero_add]
    exact runFrom_resolve_of_follow? hfits hfollow before.length behind

/-- A section with every kind of target, the last of which can lead past an
    instruction of the code behind. -/
def crossing : Section :=
  [.branch Opcode.jset 1 (.skip 1) .trace, .always .allow, .branch Opcode.jeq 7 (.skip 3) .next]

/-- An accumulator of 7 passes over the second line, over both returns and over
    the first instruction behind the section. -/
theorem resolve_keeps_meaning_crossing :
    crossing.TestsKnown ∧ crossing.resolve? = some crossing.resolve ∧
      follow? ⟨Arch.i386, 1⟩ 0 0 ⟨7, 0⟩ crossing = some (.onward ⟨7, 0⟩ 1) ∧
      runFrom ⟨Arch.i386, 1⟩ 0 2 ⟨7, 0⟩
        ([.load .nr, .ret .trace] ++ crossing.resolve ++ [.ret .trace, .ret .kill]) =
          .ok Verdict.kill.code := by
  have hknown : crossing.TestsKnown := by
    intro code k jt jf hmem
    simp only [crossing, List.mem_cons, List.not_mem_nil, or_false, Line.branch.injEq,
      reduceCtorEq, false_or] at hmem
    rcases hmem with ⟨rfl, _⟩ | ⟨rfl, _⟩
    · exact .inr (.inr rfl)
    · exact .inl rfl
  have hresolve : crossing.resolve? = some crossing.resolve := rfl
  have honward : follow? ⟨Arch.i386, 1⟩ 0 0 ⟨7, 0⟩ crossing = some (.onward ⟨7, 0⟩ 1) := rfl
  obtain ⟨_, hsome⟩ := resolve_keeps_meaning crossing
  obtain ⟨_, _, _, _, hrun⟩ := hsome _ hresolve
  obtain ⟨departure, hfollow, hresume⟩ := hrun hknown ⟨Arch.i386, 1⟩ ⟨7, 0⟩
  rw [honward] at hfollow
  cases hfollow
  exact ⟨hknown, hresolve, honward,
    hresume [.load .nr, .ret .trace] [.ret .trace, .ret .kill]⟩

end Section

end SyscallFilter
