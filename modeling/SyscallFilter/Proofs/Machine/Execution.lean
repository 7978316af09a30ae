import SyscallFilter.Proofs.Instruction.Supported

namespace SyscallFilter

/-- A run on its way: the position it has come to and what the registers hold. -/
structure Snapshot where
  counter : Nat := 0
  regs : Registers := {}

/-- From the snapshot on, the instructions at these positions of the code are
    executed, one after the other, and the result is this one. Each instruction is
    fetched by the counter; one without a meaning is the last. -/
inductive Executes (code : List Instruction) (datum : Datum) :
    Snapshot → List Nat → Except Fault UInt32 → Prop where
  | pastEnd {now : Snapshot} (hend : code[now.counter]? = none) :
      Executes code datum now [] (.error (.pastEnd now.counter))
  | faults {now : Snapshot} {insn : Instruction} {cause : Unsupported}
      (hinsn : code[now.counter]? = some insn) (hcause : insn.operation = .error cause) :
      Executes code datum now [now.counter] (.error (.unsupported cause now.counter))
  | returns {now : Snapshot} {insn : Instruction} {operation : Operation} {k : UInt32}
      (hinsn : code[now.counter]? = some insn) (hoperation : insn.operation = .ok operation)
      (hperform : operation.perform datum now.regs = .done k) :
      Executes code datum now [now.counter] (.ok k)
  | goesOn {now : Snapshot} {insn : Instruction} {operation : Operation} {regs : Registers}
      {skip : Nat} {later : List Nat} {result : Except Fault UInt32}
      (hinsn : code[now.counter]? = some insn) (hoperation : insn.operation = .ok operation)
      (hperform : operation.perform datum now.regs = .next regs skip)
      (hlater : Executes code datum ⟨now.counter + 1 + skip, regs⟩ later result) :
      Executes code datum now (now.counter :: later) result

/-- How a run can end: with the constant of a return, at an instruction whose
    class, operation or offset is not supported, or past the end of the code. In
    the first two cases that instruction is the last one executed. -/
inductive Ending (code : List Instruction) (positions : List Nat) : Except Fault UInt32 → Prop where
  | returned {position : Nat} {insn : Instruction} (hlast : positions.getLast? = some position)
      (hinsn : code[position]? = some insn) (hclass : Opcode.classOf insn.code = Opcode.ret) :
      Ending code positions (.ok insn.k)
  | unsupported {position : Nat} {insn : Instruction} {cause : Unsupported}
      (hlast : positions.getLast? = some position) (hinsn : code[position]? = some insn)
      (hunsupported : ¬insn.Supported) (hcause : insn.operation = .error cause) :
      Ending code positions (.error (.unsupported cause position))
  | pastEnd {counter : Nat} (hcounter : code.length ≤ counter) :
      Ending code positions (.error (.pastEnd counter))

/-- Only a return ends a run by itself. -/
theorem Operation.eq_ret_of_perform {datum : Datum} {regs : Registers} {operation : Operation}
    {k : UInt32} (hperform : operation.perform datum regs = .done k) : operation = .ret k := by
  cases operation <;> cases hperform
  rfl

/-- A run that enters the code at one of its instructions executes that one and
    enters the code again where this leads. -/
theorem runFrom_of_getElem? {code : List Instruction} {counter : Nat} {insn : Instruction}
    (hinsn : code[counter]? = some insn) (datum : Datum) (regs : Registers) :
    runFrom datum 0 counter regs code =
      match insn.operation with
      | .error cause => .error (.unsupported cause counter)
      | .ok operation =>
        match operation.perform datum regs with
        | .done k => .ok k
        | .next regs skip => runFrom datum 0 (counter + 1 + skip) regs code := by
  obtain ⟨hcounter, hget⟩ := List.getElem?_eq_some_iff.mp hinsn
  have hbefore : (code.take counter).length = counter := List.length_take_of_le (by omega)
  have hsplit : code.take counter ++ insn :: code.drop (counter + 1) = code := by
    rw [← hget, List.getElem_cons_drop hcounter, List.take_append_drop]
  have henter := runFrom_skip datum 0 0 regs (code.take counter) (insn :: code.drop (counter + 1))
  rw [hsplit, hbefore, Nat.add_zero, Nat.zero_add] at henter
  -- Where the run goes on, the instruction itself counts among those jumped over.
  have hagain (skip : Nat) (regs : Registers) :
      runFrom datum 0 (counter + 1 + skip) regs code =
        runFrom datum (counter + 1) skip regs (code.drop (counter + 1)) := by
    have hskip := runFrom_skip datum 0 skip regs (code.take counter ++ [insn])
      (code.drop (counter + 1))
    rwa [List.append_assoc, List.singleton_append, hsplit, List.length_append, hbefore,
      List.length_singleton, Nat.zero_add] at hskip
  rw [henter, runFrom]
  cases insn.operation with
  | error cause => rfl
  | ok operation =>
    cases hperform : operation.perform datum regs with
    | done k => simp only [hperform]
    | next regs skip => simp only [hperform, hagain]

theorem runFrom_of_length_le {code : List Instruction} {counter : Nat}
    (hcounter : code.length ≤ counter) (datum : Datum) (regs : Registers) :
    runFrom datum 0 counter regs code = .error (.pastEnd counter) := by
  have hskip := runFrom_skip datum 0 (counter - code.length) regs code []
  rw [List.append_nil, Nat.add_sub_cancel' hcounter, Nat.zero_add, runFrom,
    Nat.add_sub_cancel' hcounter] at hskip
  exact hskip

section Runs

variable {code : List Instruction} {datum : Datum} {now : Snapshot} {positions : List Nat}
  {result : Except Fault UInt32}

/-- An execution has the result that the run over the list of instructions has. -/
theorem Executes.result_eq (hexecutes : Executes code datum now positions result) :
    result = runFrom datum 0 now.counter now.regs code := by
  induction hexecutes with
  | pastEnd hend => rw [runFrom_of_length_le (List.getElem?_eq_none_iff.mp hend)]
  | faults hinsn hcause => simp only [runFrom_of_getElem? hinsn, hcause]
  | returns hinsn hoperation hperform => simp only [runFrom_of_getElem? hinsn, hoperation, hperform]
  | goesOn hinsn hoperation hperform _ ih =>
    simpa only [runFrom_of_getElem? hinsn, hoperation, hperform] using ih

/-- There is an execution from every snapshot, for all jumps lead forward. -/
theorem exists_executes (code : List Instruction) (datum : Datum) (now : Snapshot) :
    ∃ positions result, Executes code datum now positions result := by
  obtain ⟨counter, regs⟩ := now
  induction hleft : code.length - counter using Nat.strongRecOn generalizing counter regs with
  | _ left ih =>
    cases hinsn : code[counter]? with
    | none => exact ⟨_, _, .pastEnd hinsn⟩
    | some insn =>
      cases hoperation : insn.operation with
      | error cause => exact ⟨_, _, .faults hinsn hoperation⟩
      | ok operation =>
        cases hperform : operation.perform datum regs with
        | done k => exact ⟨_, _, .returns hinsn hoperation hperform⟩
        | next after skip =>
          have hcounter : counter < code.length := (List.getElem?_eq_some_iff.mp hinsn).1
          obtain ⟨later, result, hlater⟩ := ih _ (by omega) (counter + 1 + skip) after rfl
          exact ⟨_, _, .goesOn hinsn hoperation hperform hlater⟩

/-- Each step leads forward, so the positions ascend and stay in the code. -/
theorem Executes.ascending (hexecutes : Executes code datum now positions result) :
    positions.Pairwise (· < ·) ∧
      ∀ position ∈ positions, now.counter ≤ position ∧ position < code.length := by
  induction hexecutes with
  | pastEnd hend => simp
  | faults hinsn _ => simpa using (List.getElem?_eq_some_iff.mp hinsn).1
  | returns hinsn _ _ => simpa using (List.getElem?_eq_some_iff.mp hinsn).1
  | goesOn hinsn _ _ _ ih =>
    obtain ⟨hascending, hinside⟩ := ih
    dsimp only at hinside
    refine ⟨List.pairwise_cons.mpr ⟨?_, hascending⟩, List.forall_mem_cons.mpr ⟨?_, ?_⟩⟩
    · intro position hposition
      have hle := (hinside position hposition).1
      omega
    · exact ⟨Nat.le_refl _, (List.getElem?_eq_some_iff.mp hinsn).1⟩
    · intro position hposition
      have hle := hinside position hposition
      omega

/-- No more instructions are executed than there are from the counter on. -/
theorem Executes.length_le (hexecutes : Executes code datum now positions result) :
    positions.length ≤ code.length - now.counter := by
  induction hexecutes with
  | pastEnd _ => simp
  | faults hinsn _ =>
    have hcounter := (List.getElem?_eq_some_iff.mp hinsn).1
    simp only [List.length_singleton]
    omega
  | returns hinsn _ _ =>
    have hcounter := (List.getElem?_eq_some_iff.mp hinsn).1
    simp only [List.length_singleton]
    omega
  | goesOn hinsn _ _ _ ih =>
    have hcounter := (List.getElem?_eq_some_iff.mp hinsn).1
    simp only [List.length_cons] at ih ⊢
    omega

theorem Executes.ending (hexecutes : Executes code datum now positions result) :
    Ending code positions result := by
  induction hexecutes with
  | pastEnd hend => exact .pastEnd (List.getElem?_eq_none_iff.mp hend)
  | faults hinsn hcause =>
    refine .unsupported rfl hinsn ?_ hcause
    rw [← Instruction.exists_operation_iff, hcause]
    simp
  | returns hinsn hoperation hperform =>
    cases Operation.eq_ret_of_perform hperform
    obtain ⟨hclass, rfl⟩ := Instruction.operation_eq_ret_iff.mp hoperation
    exact .returned rfl hinsn hclass
  | goesOn _ _ _ hlater ih =>
    have hlast {position : Nat} {earlier : Nat} {later : List Nat}
        (hlater : later.getLast? = some position) :
        (earlier :: later).getLast? = some position := by
      simp [List.getLast?_cons, hlater]
    cases ih with
    | pastEnd hcounter => exact .pastEnd hcounter
    | unsupported hend hinsn hunsupported hcause =>
      exact .unsupported (hlast hend) hinsn hunsupported hcause
    | returned hend hinsn hclass => exact .returned (hlast hend) hinsn hclass

end Runs

end SyscallFilter
