import SyscallFilter.Proofs.Table.Separable

namespace SyscallFilter.AbiTable

theorem separable_host : host.Separable where
  fitsBlocks := by decide
  distinct := by decide
  ascending := by decide
  plainBelow := by decide

theorem host_cases {abi : Abi} (habi : abi ∈ host) :
    abi = Abi.x86_64 ∨ abi = Abi.i386 ∨ abi = Abi.x32 := by
  simpa [host] using habi

/-- A number past those of its ABI looks like a known number of x32: the ABI has
    the architecture of x32, and the number has the flag already. -/
def StraysToX32 (abi : Abi) (nr known : UInt32) : Prop :=
  (abi = Abi.x86_64 ∨ abi = Abi.x32) ∧ known < Abi.x32.count ∧ nr = Abi.x32Flag + known

section Strays

variable {abi : Abi} {nr known : UInt32}

theorem mark_x32 (hknown : known < Abi.x32.count) :
    Abi.x32.mark known = Abi.x32Flag + known := by
  have hflag : Abi.x32.FlagAbove := by decide
  rw [hflag.mark_eq_add (UInt32.le_of_lt hknown), UInt32.add_comm]
  rfl

theorem mark_x86_64 (nr : UInt32) : Abi.x86_64.mark nr = nr :=
  UInt32.or_zero

theorem StraysToX32.mark_eq (hstrays : StraysToX32 abi nr known) :
    abi.arch = Abi.x32.arch ∧ abi.mark nr = Abi.x32.mark known := by
  obtain ⟨rfl | rfl, hknown, rfl⟩ := hstrays
  · exact ⟨rfl, (mark_x86_64 _).trans (mark_x32 hknown).symm⟩
  · refine ⟨rfl, ?_⟩
    rw [← mark_x32 hknown, Abi.mark, Abi.mark, UInt32.or_assoc, UInt32.or_self]

/-- There is no other way in which a number past those of its ABI is taken for a
    known one: ABIs without a flag have too few numbers. -/
theorem straysToX32_of_mark_eq {other : Abi} (habi : abi ∈ host) (hother : other ∈ host)
    (harch : other.arch = abi.arch) (hpast : abi.count ≤ nr) (hknown : known < other.count)
    (hmark : other.mark known = abi.mark nr) : StraysToX32 abi nr known := by
  have hx32 : other = Abi.x32 := by
    have hcounts : ∀ other ∈ host, other ≠ Abi.x32 →
        other.flag = 0 ∧ ∀ abi ∈ host, other.count ≤ abi.count := by decide
    by_contra hne
    obtain ⟨hplain, hcount⟩ := hcounts other hother hne
    have hle : abi.count ≤ known := by
      rw [Abi.mark, hplain, UInt32.or_zero] at hmark
      rw [hmark]
      exact UInt32.le_trans hpast UInt32.left_le_or
    exact UInt32.not_le.mpr hknown (UInt32.le_trans (hcount abi habi) hle)
  subst other
  rcases host_cases habi with rfl | rfl | rfl
  · exact ⟨.inl rfl, hknown, (mark_x86_64 nr).symm.trans (hmark.symm.trans (mark_x32 hknown))⟩
  · exact absurd harch (by decide)
  · have hflag : Abi.x32.FlagAbove := by decide
    rcases hflag.eq_or_eq_add_of_mark_eq (UInt32.le_of_lt hknown) hmark.symm with rfl | hnr
    · exact absurd hpast (UInt32.not_le.mpr hknown)
    · exact ⟨.inr rfl, hknown, hnr.trans (UInt32.add_comm _ _)⟩

theorem judge_of_straysToX32 (policy : TracePolicy) (hstrays : StraysToX32 abi nr known) :
    policy.judge host ⟨abi.arch, abi.mark nr⟩ =
      if policy.traces known 2 then .trace else .allow := by
  obtain ⟨harch, hmark⟩ := hstrays.mark_eq
  rw [harch, hmark]
  exact separable_host.judge_mark policy rfl hstrays.2.1

theorem judge_of_not_straysToX32 (policy : TracePolicy) (habi : abi ∈ host)
    (hpast : abi.count ≤ nr) (hstrays : ¬∃ known, StraysToX32 abi nr known) :
    policy.judge host ⟨abi.arch, abi.mark nr⟩ = .trace := by
  refine judge_of_unknown (fun abi habi => (separable_host.fitsBlocks abi habi).flagAbove) policy ?_
  intro other place known hother harch hknown hmark
  exact hstrays ⟨known,
    straysToX32_of_mark_eq habi (List.mem_of_getElem? hother) harch hpast hknown hmark⟩

end Strays

end SyscallFilter.AbiTable
