import SyscallFilter.Abi

namespace SyscallFilter.AbiTable

/-- Every ABI is tested once. -/
theorem testOrder_perm (table : AbiTable) : table.testOrder.Perm table.zipIdx := by
  have hplain (entry : Abi × Nat) : (entry.1.flag == 0) = !(entry.1.flag != 0) := by
    simp [bne]
  simp only [testOrder, hplain]
  exact (List.filter_append_perm _ _).trans table.zipIdx.reverse_perm

@[simp] theorem length_testOrder (table : AbiTable) : table.testOrder.length = table.length := by
  rw [table.testOrder_perm.length_eq, List.length_zipIdx]

theorem mem_testOrder_iff {table : AbiTable} {abi : Abi} {index : Nat} :
    (abi, index) ∈ table.testOrder ↔ table[index]? = some abi := by
  rw [table.testOrder_perm.mem_iff]
  exact List.mem_zipIdx_iff_getElem?

theorem mem_of_mem_testOrder {table : AbiTable} {abi : Abi} {index : Nat}
    (hentry : (abi, index) ∈ table.testOrder) : abi ∈ table :=
  List.mem_of_getElem? (mem_testOrder_iff.mp hentry)

/-- A flagged ABI is tested before one without a flag, and of two alike the one
    later in the table before the other. -/
def TestedBefore (first second : Abi × Nat) : Prop :=
  first.1.flag ≠ 0 ∧ second.1.flag = 0 ∨
    (first.1.flag = 0 ↔ second.1.flag = 0) ∧ second.2 < first.2

theorem pairwise_testOrder (table : AbiTable) : table.testOrder.Pairwise TestedBefore := by
  have hlatest : table.zipIdx.reverse.Pairwise fun first second => second.2 < first.2 := by
    rw [List.pairwise_reverse]
    apply List.pairwise_map.mp
    rw [List.zipIdx_map_snd]
    exact List.pairwise_lt_range'
  have hgroup {p : Abi × Nat → Bool}
      (halike : ∀ first second, p first = true → p second = true →
        (first.1.flag = 0 ↔ second.1.flag = 0)) :
      (table.zipIdx.reverse.filter p).Pairwise TestedBefore := by
    apply List.pairwise_filter.mpr
    refine hlatest.imp fun {first second} hlt hfirst hsecond => ?_
    exact .inr ⟨halike first second hfirst hsecond, hlt⟩
  apply List.pairwise_append.mpr
  refine ⟨?_, ?_, ?_⟩
  · apply hgroup
    intro first second hfirst hsecond
    exact iff_of_false (by simpa using hfirst) (by simpa using hsecond)
  · apply hgroup
    intro first second hfirst hsecond
    exact iff_of_true (by simpa using hfirst) (by simpa using hsecond)
  · intro first hfirst second hsecond
    obtain ⟨_, hflagged⟩ := List.mem_filter.mp hfirst
    obtain ⟨_, hplain⟩ := List.mem_filter.mp hsecond
    exact .inl ⟨by simpa using hflagged, by simpa using hplain⟩

/-- The first member with a property is the one before which no other member has
    it. -/
private theorem find?_eq_some_of_pairwise {α : Type} {R : α → α → Prop} {p : α → Bool}
    {members : List α} (hordered : members.Pairwise R) {x : α} (hx : x ∈ members)
    (hp : p x = true) (hfirst : ∀ y ∈ members, p y = true → ¬R y x) :
    members.find? p = some x := by
  induction members with
  | nil => cases hx
  | cons y later ih =>
    obtain ⟨hbefore, hlater⟩ := List.pairwise_cons.mp hordered
    cases hx with
    | head => exact List.find?_cons_of_pos hp
    | tail _ hx =>
      have hneg : ¬p y = true := fun hy => hfirst y List.mem_cons_self hy (hbefore x hx)
      rw [List.find?_cons_of_neg hneg]
      exact ih hlater hx fun z hz => hfirst z (List.mem_cons_of_mem _ hz)

/-- The first ABI of the order of tests with a property. -/
theorem find?_testOrder {table : AbiTable} {abi : Abi} {index : Nat} {p : Abi × Nat → Bool}
    (habi : table[index]? = some abi) (hp : p (abi, index) = true)
    (hfirst : ∀ other place, table[place]? = some other → p (other, place) = true →
      ¬TestedBefore (other, place) (abi, index)) :
    table.testOrder.find? p = some (abi, index) := by
  apply find?_eq_some_of_pairwise table.pairwise_testOrder (mem_testOrder_iff.mpr habi) hp
  rintro ⟨other, place⟩ hother
  exact hfirst other place (mem_testOrder_iff.mp hother)

end SyscallFilter.AbiTable
