import SyscallFilter.Proofs.Section.Symbolic

namespace SyscallFilter.Section

/-- What becomes of a call in a section: a verdict, or it is left to the section
    behind with what the registers then hold. -/
inductive Exit where
  | verdict (owed : Verdict)
  | next (regs : Registers)
  deriving DecidableEq

def Departure.exit? : Departure → Option Exit
  | .returned k => (Verdict.ofCode? k).map .verdict
  | .onward regs 0 => some (.next regs)
  | _ => none

/-- What becomes of a call in the lines of a section of which the next `skip` ones
    are passed over, unless a fault, a value that is no verdict, or a way past the
    beginning of the section behind. -/
def exit? (datum : Datum) (skip : Nat) (regs : Registers) (lines : Section) : Option Exit :=
  (follow? datum 0 skip regs lines).bind Departure.exit?

/-- What becomes of a call by way of a target, where the jump stands before
    `rest`. -/
def leave? (datum : Datum) (target : Target) (regs : Registers) (rest : Section) : Option Exit :=
  (leadBy? regs (fun skip => follow? datum 0 skip regs rest) target).bind Departure.exit?

section Targets

variable (datum : Datum) (regs : Registers) (rest : Section)

@[simp] theorem leave?_skip (count : UInt8) :
    leave? datum (.skip count) regs rest = exit? datum count.toNat regs rest := rfl

@[simp] theorem leave?_allow : leave? datum .allow regs rest = some (.verdict .allow) := rfl

@[simp] theorem leave?_trace : leave? datum .trace regs rest = some (.verdict .trace) := rfl

@[simp] theorem leave?_next : leave? datum .next regs rest = some (.next regs) := rfl

end Targets

section Counting

variable {datum : Datum} {regs : Registers}

theorem bind_leadBy?_congr {passing other : Nat → Option Departure} {f : Departure → Option Exit}
    (hpassing : ∀ skip, (passing skip).bind f = (other skip).bind f) (target : Target) :
    (leadBy? regs passing target).bind f = (leadBy? regs other target).bind f := by
  cases target with
  | skip count => exact hpassing count.toNat
  | _ => rfl

/-- Where the lines stand matters for faults only. -/
theorem bind_follow?_eq (line other skip : Nat) (regs : Registers) (lines : Section) :
    (follow? datum line skip regs lines).bind Departure.exit? =
      (follow? datum other skip regs lines).bind Departure.exit? := by
  induction lines generalizing line other skip regs with
  | nil =>
    match skip with
    | 0 => rfl
    | 1 => rfl
    | _ + 2 => rfl
  | cons first rest ih =>
    cases skip with
    | succ skip =>
      rw [follow?, follow?]
      exact ih (line + 1) (other + 1) skip regs
    | zero =>
      cases first with
      | stmt insn =>
        simp only [follow?]
        split
        · rfl
        · split
          · rfl
          · exact ih (line + 1) (other + 1) _ _
      | branch code k jt jf =>
        simp only [follow?]
        split
        · rfl
        · exact bind_leadBy?_congr (fun skip => ih (line + 1) (other + 1) skip regs) _
      | always target =>
        exact bind_leadBy?_congr (fun skip => ih (line + 1) (other + 1) skip regs) target

theorem bind_follow? (line skip : Nat) (regs : Registers) (lines : Section) :
    (follow? datum line skip regs lines).bind Departure.exit? = exit? datum skip regs lines :=
  bind_follow?_eq line 0 skip regs lines

theorem bind_leadBy? (line : Nat) (rest : Section) (target : Target) :
    (leadBy? regs (fun skip => follow? datum line skip regs rest) target).bind Departure.exit? =
      leave? datum target regs rest :=
  bind_leadBy?_congr (fun skip => bind_follow?_eq line 0 skip regs rest) target

end Counting

section Lines

variable (datum : Datum) (regs : Registers) (rest : Section)

@[simp] theorem exit?_succ (skip : Nat) (line : Line) :
    exit? datum (skip + 1) regs (line :: rest) = exit? datum skip regs rest := by
  rw [exit?, follow?, bind_follow?]

theorem exit?_stmt {insn : Instruction} {operation : Operation} {after : Registers}
    (hoperation : insn.operation = .ok operation)
    (hperform : operation.perform datum regs = .next after 0) :
    exit? datum 0 regs (.stmt insn :: rest) = exit? datum 0 after rest := by
  rw [exit?, follow?]
  simp only [hoperation, hperform]
  exact bind_follow? 1 0 after rest

@[simp] theorem exit?_load (field : Field) :
    exit? datum 0 regs (.stmt (.load field) :: rest) =
      exit? datum 0 { regs with a := datum.read field } rest :=
  exit?_stmt datum regs rest (Instruction.operation_load field) rfl

@[simp] theorem exit?_always (target : Target) :
    exit? datum 0 regs (.always target :: rest) = leave? datum target regs rest := by
  rw [exit?, follow?, bind_leadBy?]

private theorem exit?_branch {code : UInt16} (test : Test)
    (htest : Test.ofCode? code = some test) (k : UInt32) (jt jf : Target) :
    exit? datum 0 regs (.branch code k jt jf :: rest) =
      if test.holds regs.a k then leave? datum jt regs rest
      else leave? datum jf regs rest := by
  rw [exit?, follow?]
  simp only [htest, bind_leadBy?]
  cases test.holds regs.a k <;> rfl

@[simp] theorem exit?_jeq (k : UInt32) (jt jf : Target) :
    exit? datum 0 regs (.branch Opcode.jeq k jt jf :: rest) =
      if regs.a = k then leave? datum jt regs rest
      else leave? datum jf regs rest := by
  rw [exit?_branch datum regs rest .equal rfl]
  simp [Test.holds]

@[simp] theorem exit?_jge (k : UInt32) (jt jf : Target) :
    exit? datum 0 regs (.branch Opcode.jge k jt jf :: rest) =
      if k ≤ regs.a then leave? datum jt regs rest
      else leave? datum jf regs rest := by
  rw [exit?_branch datum regs rest .atLeast rfl]
  simp [Test.holds]

@[simp] theorem exit?_jset (k : UInt32) (jt jf : Target) :
    exit? datum 0 regs (.branch Opcode.jset k jt jf :: rest) =
      if regs.a &&& k ≠ 0 then leave? datum jt regs rest
      else leave? datum jf regs rest := by
  rw [exit?_branch datum regs rest .anyBit rfl]
  simp [Test.holds]

end Lines

/-- Pieces of which each either settles the exit or passes everything on, the
    registers as they were. -/
theorem exit?_flatMap {α : Type} {piece : α → Section} {p : α → Prop} [DecidablePred p]
    {datum : Datum} {regs : Registers} {exit : Exit} {members : List α}
    (hpiece : ∀ x ∈ members, ∀ rest, exit? datum 0 regs (piece x ++ rest) =
      if p x then some exit else exit? datum 0 regs rest) (rest : Section) :
    exit? datum 0 regs (members.flatMap piece ++ rest) =
      if ∃ x ∈ members, p x then some exit else exit? datum 0 regs rest := by
  induction members with
  | nil => simp
  | cons x later ih =>
    have hlater := ih fun y hy => hpiece y (List.mem_cons_of_mem _ hy)
    rw [List.flatMap_cons, List.append_assoc, hpiece x List.mem_cons_self, hlater]
    by_cases hx : p x
    · simp [hx]
    · simp [hx]

/-- What a run comes to that leaves a section so, where the code behind the
    section begins at `position`. -/
def Exit.resume (datum : Datum) (position : Nat) (rest : List Instruction) :
    Exit → Except Fault UInt32
  | .verdict owed => .ok owed.code
  | .next regs => runFrom datum position 0 regs rest

theorem Departure.resume_eq {departure : Departure} {exit : Exit}
    (hexit : departure.exit? = some exit) (datum : Datum) (start position : Nat)
    (rest : List Instruction) :
    departure.resume datum start position rest = exit.resume datum position rest := by
  cases departure with
  | returned k =>
    obtain ⟨verdict, hverdict, rfl⟩ := Option.map_eq_some_iff.mp hexit
    have hcode : verdict.code = k := by
      simpa using List.find?_some hverdict
    exact congrArg Except.ok hcode.symm
  | faulted cause line => cases hexit
  | onward regs skip =>
    cases skip with
    | zero =>
      cases hexit
      rfl
    | succ skip => cases hexit

/-- The instructions of a section do what its lines say, wherever the section
    stands and whatever stands behind it. Only its size is assumed: a longer one
    would not fit the offsets of its jumps. -/
theorem runFrom_resolve {datum : Datum} {skip : Nat} {regs : Registers} {lines : Section}
    {exit : Exit} (hfits : lines.size ≤ maxSize) (hexit : exit? datum skip regs lines = some exit)
    (position : Nat) (rest : List Instruction) :
    runFrom datum position skip regs (lines.resolve ++ rest) =
      exit.resume datum (position + lines.size) rest := by
  obtain ⟨departure, hfollow, hleave⟩ := Option.bind_eq_some_iff.mp hexit
  exact (runFrom_resolve_of_follow? hfits hfollow position rest).trans
    (Departure.resume_eq hleave datum position _ rest)

end SyscallFilter.Section
