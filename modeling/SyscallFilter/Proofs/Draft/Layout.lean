import Mathlib.Algebra.GroupWithZero.Nat
import Mathlib.Data.Nat.Find
import SyscallFilter.Draft

namespace SyscallFilter

theorem Section.resolve?_eq_some_iff {lines : Section} {code : List Instruction} :
    lines.resolve? = some code ↔ lines.size ≤ maxSize ∧ lines.resolve = code := by
  simp [resolve?]

namespace Draft

variable {σ : Type}

/-- The section of an ABI when the body has added to it, and what the body then
    remembers. -/
def sectionFor (body : Body σ) (entry : Abi × Nat) (state : σ) : Section × σ :=
  let preamble := Section.preamble entry.1
  let (added, next) := body preamble entry.1 entry.2 state
  (preamble ++ added, next)

/-- The sections of the given ABIs if the body is asked for all of them, one
    after the other. -/
def sectionsFor (body : Body σ) : List (Abi × Nat) → σ → List Section
  | [], _ => []
  | entry :: rest, state =>
    let (lines, next) := sectionFor body entry state
    lines :: sectionsFor body rest next

/-- What the body remembers when it was asked for the given ABIs. -/
def stateAfter (body : Body σ) (abis : List (Abi × Nat)) (state : σ) : σ :=
  abis.foldl (fun state entry => (sectionFor body entry state).2) state

@[simp] theorem length_sectionsFor (body : Body σ) (abis : List (Abi × Nat)) (state : σ) :
    (sectionsFor body abis state).length = abis.length := by
  induction abis generalizing state with
  | nil => rfl
  | cons entry rest ih => rw [sectionsFor, List.length_cons, List.length_cons, ih]

/-- Behind `used` instructions and the sections before it, the section at
    `position` is too long for its jumps, or the program comes to its capacity
    with it. -/
def BreaksAt (used : Nat) (sizes : List Nat) (position : Nat) : Prop :=
  Section.maxSize < sizes.getD position 0 ∨ capacity ≤ used + (sizes.take (position + 1)).sum

instance (used : Nat) (sizes : List Nat) (position : Nat) :
    Decidable (BreaksAt used sizes position) :=
  inferInstanceAs (Decidable (_ ∨ _))

/-- The section at `position` is the first to break the program off. -/
def BreaksFirstAt (used : Nat) (sizes : List Nat) (position : Nat) : Prop :=
  BreaksAt used sizes position ∧ ∀ earlier < position, ¬BreaksAt used sizes earlier

/-- No section breaks the program off. -/
def Fits (used : Nat) (sizes : List Nat) : Prop :=
  ∀ position < sizes.length, ¬BreaksAt used sizes position

section Breaks

variable {used size : Nat} {sizes : List Nat}

@[simp] theorem breaksAt_zero :
    BreaksAt used (size :: sizes) 0 ↔ Section.maxSize < size ∨ capacity ≤ used + size := by
  simp [BreaksAt]

@[simp] theorem breaksAt_succ {position : Nat} :
    BreaksAt used (size :: sizes) (position + 1) ↔ BreaksAt (used + size) sizes position := by
  simp [BreaksAt, Nat.add_assoc]

theorem fits_cons_iff :
    Fits used (size :: sizes) ↔
      (size ≤ Section.maxSize ∧ used + size < capacity) ∧ Fits (used + size) sizes := by
  rw [Fits, Fits, List.length_cons, Nat.forall_lt_succ_left]
  simp

theorem breaksFirstAt_zero :
    BreaksFirstAt used (size :: sizes) 0 ↔ Section.maxSize < size ∨ capacity ≤ used + size := by
  simp [BreaksFirstAt]

theorem breaksFirstAt_succ {position : Nat} :
    BreaksFirstAt used (size :: sizes) (position + 1) ↔
      (size ≤ Section.maxSize ∧ used + size < capacity) ∧
        BreaksFirstAt (used + size) sizes position := by
  rw [BreaksFirstAt, BreaksFirstAt, Nat.forall_lt_succ_left]
  simp [and_left_comm]

/-- The capacity need only be looked at behind the last section. -/
theorem fits_iff (hused : used < capacity) :
    Fits used sizes ↔ (∀ size ∈ sizes, size ≤ Section.maxSize) ∧ used + sizes.sum < capacity := by
  induction sizes generalizing used with
  | nil => simp [Fits, hused]
  | cons size later ih =>
    rw [fits_cons_iff, List.forall_mem_cons, List.sum_cons, ← Nat.add_assoc]
    constructor
    · rintro ⟨⟨hsize, hroom⟩, hlater⟩
      obtain ⟨hsizes, hsum⟩ := (ih hroom).mp hlater
      exact ⟨⟨hsize, hsizes⟩, hsum⟩
    · rintro ⟨⟨hsize, hsizes⟩, hsum⟩
      have hroom : used + size < capacity := by omega
      exact ⟨⟨hsize, hroom⟩, (ih hroom).mpr ⟨hsizes, hsum⟩⟩

/-- If the program breaks off, it does so at some section first. -/
theorem fits_or_first (used : Nat) (sizes : List Nat) :
    Fits used sizes ∨ ∃ position < sizes.length, BreaksFirstAt used sizes position := by
  by_cases hbreaks : ∃ position, position < sizes.length ∧ BreaksAt used sizes position
  · obtain ⟨hlt, hposition⟩ := Nat.find_spec hbreaks
    refine .inr ⟨Nat.find hbreaks, hlt, hposition, fun earlier hearlier hbreak => ?_⟩
    exact Nat.find_min hbreaks hearlier ⟨Nat.lt_trans hearlier hlt, hbreak⟩
  · exact .inl fun position hlt hbreak => hbreaks ⟨position, hlt, hbreak⟩

end Breaks

section Sections

variable (body : Body σ)

theorem sections_cons (used : Nat) (entry : Abi × Nat) (later : List (Abi × Nat)) (state : σ) :
    sections body used (entry :: later) state =
      let (lines, next) := sectionFor body entry state
      if Section.maxSize < lines.size then (tooLong entry.1 lines, next)
      else if capacity ≤ used + lines.size then (tooMany, next)
      else
        let (draft, final) := sections body (used + lines.size) later next
        (draft.prepend lines.resolve, final) := by
  rcases hmade : sectionFor body entry state with ⟨lines, next⟩
  have hlines : Section.preamble entry.1 ++
      (body (Section.preamble entry.1) entry.1 entry.2 state).1 = lines := congrArg Prod.fst hmade
  have hnext : (body (Section.preamble entry.1) entry.1 entry.2 state).2 = next :=
    congrArg Prod.snd hmade
  simp only [sections, hlines, hnext]
  by_cases hsize : lines.size ≤ Section.maxSize
  · by_cases hroom : used + lines.size < capacity
    · simp [Section.resolve?, hsize, hroom, Nat.not_lt.mpr hsize, Nat.not_le.mpr hroom]
    · simp [Section.resolve?, hsize, hroom, Nat.not_lt.mpr hsize, Nat.not_lt.mp hroom]
  · simp [Section.resolve?, hsize, Nat.lt_of_not_le hsize]

variable {used : Nat} {abis : List (Abi × Nat)} {state : σ}

/-- A program that fits is complete: every section stands in it, and behind the
    last one the return. -/
theorem sections_of_fits (hfits : Fits used ((sectionsFor body abis state).map Section.size)) :
    sections body used abis state =
      (⟨(sectionsFor body abis state).flatMap Section.resolve ++ [.ret .trace], false, []⟩,
        stateAfter body abis state) := by
  induction abis generalizing used state with
  | nil => rfl
  | cons entry later ih =>
    rw [sectionsFor, List.map_cons, fits_cons_iff] at hfits
    obtain ⟨⟨hsize, hroom⟩, hlater⟩ := hfits
    rw [sections_cons]
    dsimp only
    rw [if_neg (Nat.not_lt.mpr hsize), if_neg (Nat.not_le.mpr hroom), ih hlater]
    simp [prepend, sectionsFor, stateAfter]

/-- A program that does not fit breaks off with the first section that is one too
    many. The body is asked for this one too. -/
theorem sections_of_first {position : Nat} (hposition : position < abis.length)
    (hfirst : BreaksFirstAt used ((sectionsFor body abis state).map Section.size) position) :
    (sections body used abis state).1.code =
        ((sectionsFor body abis state).take position).flatMap Section.resolve ∧
      (sections body used abis state).1.overflow = true ∧
      (sections body used abis state).2 = stateAfter body (abis.take (position + 1)) state := by
  induction abis generalizing used state position with
  | nil => cases hposition
  | cons entry later ih =>
    rw [sectionsFor, List.map_cons] at hfirst
    rw [sections_cons, sectionsFor]
    dsimp only
    cases position with
    | zero =>
      -- A section that is too long is reported as such, even if there is no room for it either.
      by_cases hlong : Section.maxSize < (sectionFor body entry state).1.size
      · rw [if_pos hlong]
        simp [tooLong, brokenOff, stateAfter]
      · rw [if_neg hlong, if_pos ((breaksFirstAt_zero.mp hfirst).resolve_left hlong)]
        simp [tooMany, brokenOff, stateAfter]
    | succ position =>
      obtain ⟨⟨hsize, hroom⟩, hlater⟩ := breaksFirstAt_succ.mp hfirst
      obtain ⟨hcode, hoverflow, hstate⟩ := ih (Nat.lt_of_succ_lt_succ hposition) hlater
      rw [if_neg (Nat.not_lt.mpr hsize), if_neg (Nat.not_le.mpr hroom)]
      simp [prepend, hcode, hoverflow, hstate, stateAfter]

theorem overflow_sections_eq_false_iff :
    (sections body used abis state).1.overflow = false ↔
      Fits used ((sectionsFor body abis state).map Section.size) := by
  rcases fits_or_first used ((sectionsFor body abis state).map Section.size) with
    hfits | ⟨position, hposition, hfirst⟩
  · exact iff_of_true (by rw [sections_of_fits body hfits]) hfits
  · refine iff_of_false ?_ fun hfits => hfits position hposition hfirst.1
    rw [List.length_map, length_sectionsFor] at hposition
    rw [(sections_of_first body hposition hfirst).2.1]
    simp

end Sections

end Draft

end SyscallFilter
