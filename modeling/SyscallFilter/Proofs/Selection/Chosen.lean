import SyscallFilter.Selection

namespace SyscallFilter

namespace ActiveFilter

theorem shortest?_eq_none_iff {filters : List ActiveFilter} :
    shortest? filters = none ↔ filters = [] := by
  cases filters with
  | nil => simp [shortest?]
  | cons filter later =>
    rw [shortest?]
    cases shortest? later with
    | none => simp
    | some other =>
      dsimp only
      split <;> simp

/-- The first filter wins if no later one is shorter. -/
theorem shortest?_cons_cases {filter best : ActiveFilter} {later : List ActiveFilter}
    (hbest : shortest? (filter :: later) = some best) :
    best = filter ∧ (∀ other, shortest? later = some other → filter.length ≤ other.length) ∨
      shortest? later = some best ∧ best.length < filter.length := by
  rw [shortest?] at hbest
  cases hlater : shortest? later with
  | none =>
    rw [hlater] at hbest
    cases hbest
    exact .inl ⟨rfl, by simp⟩
  | some other =>
    rw [hlater] at hbest
    dsimp only at hbest
    split at hbest
    · rename_i hle
      cases hbest
      exact .inl ⟨rfl, fun _ hother => by cases hother; exact hle⟩
    · rename_i hlt
      cases hbest
      exact .inr ⟨rfl, Nat.lt_of_not_le hlt⟩

theorem mem_of_shortest? {filters : List ActiveFilter} {best : ActiveFilter}
    (hbest : shortest? filters = some best) : best ∈ filters := by
  induction filters generalizing best with
  | nil => cases hbest
  | cons filter later ih =>
    rcases shortest?_cons_cases hbest with ⟨rfl, _⟩ | ⟨hlater, _⟩
    · exact List.mem_cons_self
    · exact List.mem_cons_of_mem _ (ih hlater)

theorem length_le_of_shortest? {filters : List ActiveFilter} {best : ActiveFilter}
    (hbest : shortest? filters = some best) : ∀ filter ∈ filters, best.length ≤ filter.length := by
  induction filters generalizing best with
  | nil => simp
  | cons first later ih =>
    rw [List.forall_mem_cons]
    rcases shortest?_cons_cases hbest with ⟨rfl, hfirst⟩ | ⟨hlater, hlt⟩
    · refine ⟨Nat.le_refl _, fun filter hfilter => ?_⟩
      obtain ⟨other, hother⟩ := Option.ne_none_iff_exists'.mp fun hnone =>
        List.ne_nil_of_mem hfilter (shortest?_eq_none_iff.mp hnone)
      exact Nat.le_trans (hfirst other hother) (ih hother filter hfilter)
    · exact ⟨Nat.le_of_lt hlt, ih hlater⟩

end ActiveFilter

namespace Generator

/-- The generator comes to the end of its program. -/
def Completes (generator : Generator) (table : AbiTable) (policy : TracePolicy) : Prop :=
  (generator.draft table policy).overflow = false

instance (generator : Generator) (table : AbiTable) (policy : TracePolicy) :
    Decidable (generator.Completes table policy) :=
  inferInstanceAs (Decidable (_ = _))

/-- The program of the generator as a filter, whether it is complete or not. -/
def product (generator : Generator) (table : AbiTable) (policy : TracePolicy) : ActiveFilter :=
  ⟨generator.name, (generator.draft table policy).code⟩

/-- The complete programs, in the order of their generators. -/
def contenders (generators : List Generator) (table : AbiTable) (policy : TracePolicy) :
    List ActiveFilter :=
  (generators.filter (·.Completes table policy)).map (·.product table policy)

section Contenders

variable {generators : List Generator} {table : AbiTable} {policy : TracePolicy}

theorem mem_contenders_iff {filter : ActiveFilter} :
    filter ∈ contenders generators table policy ↔
      ∃ generator ∈ generators, generator.Completes table policy ∧
        filter = generator.product table policy := by
  simp [contenders, and_assoc, eq_comm]

theorem filterMap_candidates :
    (candidates generators table policy).filterMap Candidate.filter? =
      contenders generators table policy := by
  induction generators with
  | nil => rfl
  | cons generator later ih =>
    rw [candidates, List.map_cons, List.filterMap_cons, ← candidates, ih, contenders, contenders,
      List.filter_cons]
    cases hoverflow : (generator.draft table policy).overflow <;>
      simp [Candidate.filter?, Completes, product, hoverflow]

/-- With an ABI in the table the complete programs decide. -/
theorem choose_of_ne_nil (htable : table ≠ []) :
    choose generators table policy =
      match ActiveFilter.shortest? (contenders generators table policy) with
      | none => .error .overflow
      | some filter =>
        if filter.length ≤ Draft.maxInstructions then .ok filter
        else .error (.tooLarge filter.length) := by
  rw [choose, selection, if_neg (by simpa using htable), ← filterMap_candidates]
  rfl

/-- A chosen filter is the unchanged program of one of the generators, and this
    program did not overflow. -/
theorem exists_of_choose {filter : ActiveFilter}
    (hchoose : choose generators table policy = .ok filter) :
    ∃ generator ∈ generators, (generator.draft table policy).overflow = false ∧
      filter = ⟨generator.name, (generator.draft table policy).code⟩ := by
  by_cases htable : table = []
  · subst table
    cases hchoose
  · rw [choose_of_ne_nil htable] at hchoose
    split at hchoose
    · cases hchoose
    · rename_i best hbest
      split at hchoose
      · cases hchoose
        exact mem_contenders_iff.mp (ActiveFilter.mem_of_shortest? hbest)
      · cases hchoose

/-- One generator whose program the kernel would accept is enough. The filter is
    no longer than this program. -/
theorem exists_choose_le {generator : Generator} (hgenerator : generator ∈ generators)
    (htable : table ≠ []) (hfits : (generator.draft table policy).overflow = false)
    (haccepted : (generator.draft table policy).code.length ≤ Draft.maxInstructions) :
    ∃ filter, choose generators table policy = .ok filter ∧
      filter.length ≤ (generator.draft table policy).code.length := by
  have hmember : generator.product table policy ∈ contenders generators table policy :=
    mem_contenders_iff.mpr ⟨generator, hgenerator, hfits, rfl⟩
  obtain ⟨best, hbest⟩ : ∃ best,
      ActiveFilter.shortest? (contenders generators table policy) = some best :=
    Option.ne_none_iff_exists'.mp fun hnone =>
      List.ne_nil_of_mem hmember (ActiveFilter.shortest?_eq_none_iff.mp hnone)
  have hle := ActiveFilter.length_le_of_shortest? hbest _ hmember
  refine ⟨best, ?_, hle⟩
  rw [choose_of_ne_nil htable, hbest]
  exact if_pos (Nat.le_trans hle haccepted)

end Contenders

end Generator

end SyscallFilter
