import SyscallFilter.Proofs.Abi
import SyscallFilter.Proofs.Judgement
import SyscallFilter.Proofs.Table.TestOrder
import SyscallFilter.Proofs.Word

namespace SyscallFilter.AbiTable

/-- No number of one ABI of the table looks like a number of another: two ABIs
    differ in architecture or flag, flags of one architecture ascend in the
    table, and an ABI without a flag ends below every flag of its architecture. -/
structure Separable (table : AbiTable) : Prop where
  fitsBlocks : ∀ abi ∈ table, abi.FitsBlocks
  distinct : table.Pairwise fun earlier later =>
    ¬(earlier.arch = later.arch ∧ earlier.flag = later.flag)
  ascending : table.Pairwise fun earlier later =>
    earlier.flag ≠ 0 → later.flag ≠ 0 → earlier.arch = later.arch → earlier.flag < later.flag
  plainBelow : ∀ plain ∈ table, ∀ flagged ∈ table,
    plain.flag = 0 → flagged.flag ≠ 0 → plain.arch = flagged.arch → plain.count ≤ flagged.flag

private theorem pairwise_of_getElem? {R : Abi → Abi → Prop} {table : AbiTable}
    (hpairs : table.Pairwise R) {earlier later : Abi} {low high : Nat}
    (hearlier : table[low]? = some earlier) (hlater : table[high]? = some later)
    (hlt : low < high) : R earlier later := by
  obtain ⟨hlow, rfl⟩ := List.getElem?_eq_some_iff.mp hearlier
  obtain ⟨hhigh, rfl⟩ := List.getElem?_eq_some_iff.mp hlater
  exact List.pairwise_iff_getElem.mp hpairs low high hlow hhigh hlt

section Owner

variable {table : AbiTable} {abi : Abi} {index : Nat} {nr : UInt32}

/-- No ABI that is tested earlier takes the marked number. A larger flag lies
    above it because single bits at least double. -/
theorem Separable.not_admits_of_testedBefore (hseparable : table.Separable)
    (habi : table[index]? = some abi) (hnr : nr < abi.count) {other : Abi} {place : Nat}
    (hother : table[place]? = some other) (hbefore : TestedBefore (other, place) (abi, index)) :
    ¬other.Admits ⟨abi.arch, abi.mark nr⟩ := by
  rintro ⟨harch, hreach⟩
  have habiMem := List.mem_of_getElem? habi
  have hotherMem := List.mem_of_getElem? hother
  have hmark := (hseparable.fitsBlocks abi habiMem).flagAbove.toNat_mark (UInt32.le_of_lt hnr)
  have hlt : nr.toNat < abi.count.toNat := hnr
  have hflagLe (hflagged : other.flag ≠ 0) : other.flag.toNat ≤ nr.toNat + abi.flag.toNat := by
    rw [← hmark]
    exact hreach.resolve_left hflagged
  rcases hbefore with ⟨hflagged, hplain⟩ | ⟨halike, hlater⟩
  · have hbelow : abi.count.toNat ≤ other.flag.toNat :=
      hseparable.plainBelow abi habiMem other hotherMem hplain hflagged harch.symm
    have hle := hflagLe hflagged
    have hzero : abi.flag.toNat = 0 := congrArg UInt32.toNat hplain
    omega
  · by_cases hplain : abi.flag = 0
    · have hdistinct := pairwise_of_getElem? hseparable.distinct habi hother hlater
      exact hdistinct ⟨harch.symm, hplain.trans (halike.mpr hplain).symm⟩
    · have hflagged : other.flag ≠ 0 := fun h => hplain (halike.mp h)
      -- The tests go backwards through the table, so the other flag is the larger one.
      have hascends := pairwise_of_getElem? hseparable.ascending habi hother hlater
        hplain hflagged harch.symm
      obtain ⟨hbit, _, hbelow⟩ := (hseparable.fitsBlocks abi habiMem).1.resolve_left hplain
      obtain ⟨hotherBit, _⟩ := (hseparable.fitsBlocks other hotherMem).1.resolve_left hflagged
      have hdouble := Word.two_mul_le_of_lt hbit hotherBit hascends
      have hle := hflagLe hflagged
      have hcount : abi.count.toNat < abi.flag.toNat := hbelow
      omega

/-- A marked number is taken to belong to its own ABI. -/
theorem Separable.owner?_mark (hseparable : table.Separable)
    (habi : table[index]? = some abi) (hnr : nr < abi.count) :
    table.owner? ⟨abi.arch, abi.mark nr⟩ = some (abi, index) := by
  have hflag := (hseparable.fitsBlocks abi (List.mem_of_getElem? habi)).flagAbove
  have hadmits : abi.Admits ⟨abi.arch, abi.mark nr⟩ :=
    ⟨rfl, .inr (hflag.flag_le_mark (UInt32.le_of_lt hnr))⟩
  rw [owner?_eq_find?]
  apply find?_testOrder habi (by simpa using hadmits)
  intro other place hother htaken hbefore
  exact hseparable.not_admits_of_testedBefore habi hnr hother hbefore (by simpa using htaken)

theorem Separable.judge_mark (hseparable : table.Separable) (policy : TracePolicy)
    (habi : table[index]? = some abi) (hnr : nr < abi.count) :
    policy.judge table ⟨abi.arch, abi.mark nr⟩ =
      if policy.traces nr index then .trace else .allow := by
  have hflag := (hseparable.fitsBlocks abi (List.mem_of_getElem? habi)).flagAbove
  rw [TracePolicy.judge_eq_elim, hseparable.owner?_mark habi hnr]
  simp [TracePolicy.owed, hflag.mark_sub_flag (UInt32.le_of_lt hnr), UInt32.not_le.mpr hnr]

end Owner

/-- A call whose number is no known one of an ABI of its architecture is
    traced. -/
theorem judge_of_unknown {table : AbiTable} (hflags : ∀ abi ∈ table, abi.FlagAbove)
    (policy : TracePolicy) {datum : Datum}
    (hunknown : ∀ (abi : Abi) (index : Nat) (nr : UInt32), table[index]? = some abi →
      abi.arch = datum.arch → nr < abi.count → abi.mark nr ≠ datum.nr) :
    policy.judge table datum = .trace := by
  rw [TracePolicy.judge_eq_elim]
  cases howner : table.owner? datum with
  | none => rfl
  | some entry =>
    obtain ⟨abi, index⟩ := entry
    rw [owner?_eq_find?] at howner
    have habi := mem_testOrder_iff.mp (List.mem_of_find?_eq_some howner)
    have hadmits : abi.Admits datum := by simpa using List.find?_some howner
    -- Whatever the flag is, adding it to what is left of the number gives the number back.
    have hpast : abi.count ≤ datum.nr - abi.flag := by
      by_contra hlt
      have hnr : datum.nr - abi.flag < abi.count := UInt32.not_le.mp hlt
      refine hunknown abi index _ habi hadmits.1 hnr ?_
      rw [(hflags abi (List.mem_of_getElem? habi)).mark_eq_add (UInt32.le_of_lt hnr),
        UInt32.sub_add_cancel]
    simp [TracePolicy.owed, hpast]

theorem separable_hostHead : hostHead.Separable where
  fitsBlocks := by decide
  distinct := by decide
  ascending := by decide
  plainBelow := by decide

end SyscallFilter.AbiTable
