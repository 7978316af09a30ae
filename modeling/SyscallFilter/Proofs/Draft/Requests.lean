import SyscallFilter.Proofs.Draft.Capacity
import SyscallFilter.Proofs.Table.TestOrder

namespace SyscallFilter.Draft

variable {σ : Type}

/-- What a body is asked for: to add to a preamble, for an ABI and its index. -/
structure Request where
  preamble : Section
  abi : Abi
  index : Nat
  deriving DecidableEq

/-- The request that an ABI of the table calls for. -/
def Request.ofEntry (entry : Abi × Nat) : Request :=
  ⟨Section.preamble entry.1, entry.1, entry.2⟩

/-- The body, which also remembers what it was asked for. -/
def recorded (body : Body σ) : Body (σ × List Request) :=
  fun preamble abi index (state, requests) =>
    let (added, next) := body preamble abi index state
    (added, next, requests ++ [⟨preamble, abi, index⟩])

section Recorded

variable (body : Body σ)

theorem sectionsFor_recorded (abis : List (Abi × Nat)) (state : σ) (requests : List Request) :
    sectionsFor (recorded body) abis (state, requests) = sectionsFor body abis state := by
  induction abis generalizing state requests with
  | nil => rfl
  | cons entry later ih => exact congrArg _ (ih _ _)

theorem stateAfter_recorded (abis : List (Abi × Nat)) (state : σ) (requests : List Request) :
    stateAfter (recorded body) abis (state, requests) =
      (stateAfter body abis state, requests ++ abis.map Request.ofEntry) := by
  induction abis generalizing state requests with
  | nil => simp [stateAfter]
  | cons entry later ih =>
    rw [stateAfter, List.foldl_cons]
    refine (ih _ _).trans ?_
    rw [List.append_assoc]
    rfl

/-- To be recorded changes nothing about a body. -/
theorem sections_recorded (used : Nat) (abis : List (Abi × Nat)) (state : σ)
    (requests : List Request) :
    (sections (recorded body) used abis (state, requests)).1 =
      (sections body used abis state).1 := by
  induction abis generalizing used state requests with
  | nil => rfl
  | cons entry later ih =>
    have hsection : sectionFor (recorded body) entry (state, requests) =
        ((sectionFor body entry state).1, (sectionFor body entry state).2,
          requests ++ [Request.ofEntry entry]) := rfl
    rw [sections_cons, sections_cons, hsection]
    dsimp only
    split
    · rfl
    · split
      · rfl
      · rw [ih]

/-- A body is asked for every section of a program that fits. -/
theorem requests_of_fits {abis : List (Abi × Nat)} {used : Nat} {state : σ}
    (hfits : Fits used ((sectionsFor body abis state).map Section.size)) :
    (sections (recorded body) used abis (state, [])).2.2 = abis.map Request.ofEntry := by
  rw [← sectionsFor_recorded body abis state []] at hfits
  rw [sections_of_fits (recorded body) hfits, stateAfter_recorded, List.nil_append]

/-- A body is asked for the section with which a program breaks off, and for no
    other one after it. -/
theorem requests_of_first {abis : List (Abi × Nat)} {used : Nat} {state : σ} {position : Nat}
    (hposition : position < abis.length)
    (hfirst : BreaksFirstAt used ((sectionsFor body abis state).map Section.size) position) :
    (sections (recorded body) used abis (state, [])).2.2 =
      (abis.take (position + 1)).map Request.ofEntry := by
  rw [← sectionsFor_recorded body abis state []] at hfirst
  rw [(sections_of_first (recorded body) hposition hfirst).2.2, stateAfter_recorded,
    List.nil_append]

/-- Whether the program breaks off or not, all requests are for ABIs of the list. -/
theorem mem_of_mem_requests {abis : List (Abi × Nat)} {used : Nat} {state : σ} {request : Request}
    (hrequest : request ∈ (sections (recorded body) used abis (state, [])).2.2) :
    ∃ entry ∈ abis, request = Request.ofEntry entry := by
  rcases fits_or_first used ((sectionsFor body abis state).map Section.size) with
    hfits | ⟨position, hposition, hfirst⟩
  · rw [requests_of_fits body hfits] at hrequest
    obtain ⟨entry, hentry, rfl⟩ := List.mem_map.mp hrequest
    exact ⟨entry, hentry, rfl⟩
  · rw [List.length_map, length_sectionsFor] at hposition
    rw [requests_of_first body hposition hfirst] at hrequest
    obtain ⟨entry, hentry, rfl⟩ := List.mem_map.mp hrequest
    exact ⟨entry, List.mem_of_mem_take hentry, rfl⟩

end Recorded

section LaidOut

variable (table : AbiTable) (body : Body σ) (state : σ)

theorem layOut_recorded :
    (layOut table (recorded body) (state, [])).1 = (layOut table body state).1 :=
  congrArg (prepend [.load .arch]) (sections_recorded body 1 table.testOrder state [])

variable {table body state}

/-- A program that fits is complete, and it may fill the capacity exactly. -/
theorem layOut_of_fits
    (hfits : Fits 1 ((sectionsFor body table.testOrder state).map Section.size)) :
    let built := sectionsFor body table.testOrder state
    let draft := (layOut table body state).1
    draft.overflow = false ∧
      (∀ lines ∈ built, lines.resolve? = some lines.resolve) ∧
      draft.code = .load .arch :: built.flatMap Section.resolve ++ [.ret .trace] ∧
      draft.code.length = 2 + (built.map Section.size).sum ∧ draft.code.length ≤ capacity := by
  intro built draft
  obtain ⟨hsizes, hsum : 1 + (built.map Section.size).sum < capacity⟩ :=
    (fits_iff (by decide)).mp hfits
  have hsections := sections_of_fits body hfits
  have hcode : draft.code = .load .arch :: built.flatMap Section.resolve ++ [.ret .trace] :=
    congrArg (fun made : Draft × σ => Instruction.load .arch :: made.1.code) hsections
  have hresolved : (built.flatMap Section.resolve).length = (built.map Section.size).sum := by
    simp only [List.length_flatMap, Section.length_resolve]
  have hlength : draft.code.length = 2 + (built.map Section.size).sum := by
    rw [hcode, List.length_append, List.length_cons, List.length_singleton, hresolved]
    omega
  refine ⟨congrArg (fun made => made.1.overflow) hsections, ?_, hcode, hlength, by omega⟩
  intro lines hlines
  exact Section.resolve?_eq_some_iff.mpr ⟨hsizes _ (List.mem_map_of_mem hlines), rfl⟩

/-- A program that does not fit has the sections before the one that is too much. -/
theorem layOut_of_first {position : Nat} (hposition : position < table.length)
    (hfirst : BreaksFirstAt 1 ((sectionsFor body table.testOrder state).map Section.size)
      position) :
    let kept := (sectionsFor body table.testOrder state).take position
    let draft := (layOut table body state).1
    draft.overflow = true ∧
      (∀ lines ∈ kept, lines.resolve? = some lines.resolve) ∧
      draft.code = .load .arch :: kept.flatMap Section.resolve := by
  rw [← AbiTable.length_testOrder] at hposition
  obtain ⟨hcode, hoverflow, _⟩ := sections_of_first body hposition hfirst
  refine ⟨hoverflow, ?_, congrArg (Instruction.load .arch :: ·) hcode⟩
  intro lines hlines
  obtain ⟨earlier, hearlier, hline⟩ := List.mem_take_iff_getElem.mp hlines
  obtain ⟨hbefore, hbuilt⟩ := Nat.lt_min.mp hearlier
  have hsize : ((sectionsFor body table.testOrder state).map Section.size).getD earlier 0 =
      lines.size := by
    rw [List.getD_eq_getElem?_getD, List.getElem?_map, List.getElem?_eq_getElem hbuilt, hline]
    rfl
  have hshort := hsize ▸ Nat.le_of_not_lt (not_or.mp (hfirst.2 earlier hbefore)).1
  exact Section.resolve?_eq_some_iff.mpr ⟨hshort, rfl⟩

end LaidOut

section Asked

variable (table : AbiTable) (body : Abi → Nat → Section)

/-- What a body that depends on the ABI alone is asked for while a program is laid
    out. -/
def asked : List Request :=
  (layOut table (recorded fun _ abi index _ => (body abi index, ())) ((), [])).2.2

theorem wraps_sections (bodyWraps : Abi → Nat → Bool) (used : Nat) (abis : List (Abi × Nat))
    (requests : List Request) :
    (sections (fun _ abi index wrapped => (body abi index, wrapped || bodyWraps abi index)) used
        abis (requests.any fun request => bodyWraps request.abi request.index)).2 =
      (sections (recorded fun _ abi index _ => (body abi index, ())) used abis
        ((), requests)).2.2.any fun request => bodyWraps request.abi request.index := by
  induction abis generalizing used requests with
  | nil => rfl
  | cons entry later ih =>
    let lines : Section := Section.preamble entry.1 ++ body entry.1 entry.2
    have hasked : ((requests.any fun request => bodyWraps request.abi request.index) ||
        bodyWraps entry.1 entry.2) =
          (requests ++ [Request.ofEntry entry]).any fun request =>
            bodyWraps request.abi request.index := by
      simp [Request.ofEntry]
    have hwraps : sectionFor (fun _ abi index wrapped =>
          (body abi index, wrapped || bodyWraps abi index)) entry
          (requests.any fun request => bodyWraps request.abi request.index) =
        (lines, (requests ++ [Request.ofEntry entry]).any fun request =>
          bodyWraps request.abi request.index) :=
      congrArg (Prod.mk lines) hasked
    have hrecorded : sectionFor (recorded fun _ abi index _ => (body abi index, ())) entry
        ((), requests) = (lines, (), requests ++ [Request.ofEntry entry]) := rfl
    rw [sections_cons, sections_cons, hwraps, hrecorded]
    dsimp only
    -- Both lay out the same section, so they go on or break off together.
    by_cases hlong : Section.maxSize < lines.size
    · rw [if_pos hlong, if_pos hlong]
    · by_cases hroom : capacity ≤ used + lines.size
      · rw [if_neg hlong, if_neg hlong, if_pos hroom, if_pos hroom]
      · rw [if_neg hlong, if_neg hlong, if_neg hroom, if_neg hroom]
        exact ih _ _

/-- The sections that are looked at for sums that wrap are the ones that are asked
    for. -/
theorem wraps_eq_any (bodyWraps : Abi → Nat → Bool) :
    wraps table body bodyWraps =
      (asked table body).any fun request => bodyWraps request.abi request.index :=
  wraps_sections body bodyWraps 1 table.testOrder []

variable {table body}

theorem getElem?_of_mem_asked {request : Request} (hrequest : request ∈ asked table body) :
    table[request.index]? = some request.abi := by
  obtain ⟨⟨abi, index⟩, hentry, rfl⟩ := mem_of_mem_requests _ hrequest
  exact AbiTable.mem_testOrder_iff.mp hentry

theorem wraps_eq_false {bodyWraps : Abi → Nat → Bool}
    (hbodies : ∀ abi index, table[index]? = some abi → bodyWraps abi index = false) :
    wraps table body bodyWraps = false := by
  rw [wraps_eq_any, List.any_eq_false]
  intro request hrequest
  rw [hbodies _ _ (getElem?_of_mem_asked hrequest)]
  exact Bool.false_ne_true

end Asked

/-- Sections are laid out in the order of tests up to the first that is too long
    for its jumps or with which the program comes to its capacity. If there is
    none, the program is complete; otherwise it breaks off before this section.
    The body is asked for the sections up to there, this one included, each time
    with a preamble alone, and it may answer as it likes. -/
theorem layOut_up_to_first_break (table : AbiTable) (body : Body σ) (state : σ) :
    let order := table.testOrder
    let built := sectionsFor body order state
    let sizes := built.map Section.size
    let draft := (layOut table body state).1
    let requests := (layOut table (recorded body) (state, [])).2.2
    (order.map Prod.snd).Perm (List.range table.length) ∧
    order.Pairwise AbiTable.TestedBefore ∧
    (layOut table (recorded body) (state, [])).1 = draft ∧
    (∀ request ∈ requests, table[request.index]? = some request.abi ∧
      request.preamble = Section.preamble request.abi ∧
      request.preamble.size = if request.abi.flag = 0 then 4 else 7) ∧
    ((∀ position < table.length, ¬BreaksAt 1 sizes position) →
      draft.overflow = false ∧
      (∀ lines ∈ built, lines.resolve? = some lines.resolve) ∧
      draft.code = .load .arch :: built.flatMap Section.resolve ++ [.ret .trace] ∧
      draft.code.length = 2 + sizes.sum ∧ draft.code.length ≤ capacity ∧
      requests = order.map Request.ofEntry) ∧
    ∀ position < table.length, BreaksFirstAt 1 sizes position →
      draft.overflow = true ∧
      (∀ lines ∈ built.take position, lines.resolve? = some lines.resolve) ∧
      draft.code = .load .arch :: (built.take position).flatMap Section.resolve ∧
      requests = (order.take (position + 1)).map Request.ofEntry := by
  intro order built sizes draft requests
  have horder : order.length = table.length := table.length_testOrder
  have hlength : sizes.length = table.length := by simp [sizes, built, order]
  refine ⟨?_, table.pairwise_testOrder, layOut_recorded table body state, ?_, ?_, ?_⟩
  · have hindices := table.testOrder_perm.map Prod.snd
    rwa [List.zipIdx_map_snd, ← List.range_eq_range'] at hindices
  · intro request hrequest
    obtain ⟨⟨abi, index⟩, hentry, rfl⟩ := mem_of_mem_requests body hrequest
    refine ⟨AbiTable.mem_testOrder_iff.mp hentry, rfl, ?_⟩
    rw [Section.size, Request.ofEntry, Section.length_preamble]
    split <;> rfl
  · intro hfits
    rw [← hlength] at hfits
    obtain ⟨hoverflow, hresolve, hcode, hcount, hroom⟩ := layOut_of_fits hfits
    exact ⟨hoverflow, hresolve, hcode, hcount, hroom, requests_of_fits body hfits⟩
  · intro position hposition hfirst
    obtain ⟨hoverflow, hresolve, hcode⟩ := layOut_of_first hposition hfirst
    refine ⟨hoverflow, hresolve, hcode, ?_⟩
    exact requests_of_first body (horder.symm ▸ hposition) hfirst

/-- A body that adds lines until it has none left, to each section no more than
    its jumps can cross. -/
def spending : Body Nat :=
  fun _ _ _ left => (List.replicate (min left 251) (.always .next), left - 251)

/-- So many ABIs that a program can outgrow the capacity with short sections. -/
def plainTable : AbiTable :=
  List.replicate 33 ⟨"plain", Arch.arm, 0, 0⟩

/-- Two programs of 33 sections: one that fills the capacity to the last
    instruction, and one with a line more, which breaks off before its last
    section. -/
theorem layOut_up_to_first_break_brim :
    (layOut plainTable spending 8058).1.overflow = false ∧
      (layOut plainTable spending 8058).1.code.length = 8192 ∧
      (layOut plainTable spending 8059).1.overflow = true ∧
      (layOut plainTable (recorded spending) (8059, [])).2.2 =
        plainTable.testOrder.map Request.ofEntry := by
  have hfull : (sectionsFor spending plainTable.testOrder 8058).map Section.size =
      List.replicate 32 255 ++ [30] := by decide +kernel
  have hmore : (sectionsFor spending plainTable.testOrder 8059).map Section.size =
      List.replicate 32 255 ++ [31] := by decide +kernel
  have hfits : ∀ position < plainTable.length,
      ¬BreaksAt 1 ((sectionsFor spending plainTable.testOrder 8058).map Section.size) position := by
    rw [hfull]
    decide +kernel
  have hbreaks : BreaksAt 1
      ((sectionsFor spending plainTable.testOrder 8059).map Section.size) 32 := by
    rw [hmore]
    decide +kernel
  have hfirst : ∀ earlier < 32,
      ¬BreaksAt 1 ((sectionsFor spending plainTable.testOrder 8059).map Section.size) earlier := by
    rw [hmore]
    decide +kernel
  obtain ⟨_, _, _, _, hcomplete, _⟩ := layOut_up_to_first_break plainTable spending 8058
  obtain ⟨_, _, _, _, _, hbroken⟩ := layOut_up_to_first_break plainTable spending 8059
  obtain ⟨hoverflow, _, _, hcount, _⟩ := hcomplete hfits
  obtain ⟨hover, _, _, hrequests⟩ := hbroken 32 (by decide) ⟨hbreaks, hfirst⟩
  refine ⟨hoverflow, ?_, hover, hrequests⟩
  rw [hcount, hfull]
  decide +kernel

end SyscallFilter.Draft
