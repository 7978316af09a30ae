import SyscallFilter.NumberSpec
import SyscallFilter.Proofs.Text.Numeral
import SyscallFilter.Proofs.Text.Pieces

namespace SyscallFilter.NumberSpec

/-- The texts of the two bounds that an item names. Its first dash divides them;
    without a dash the item is both of them. -/
inductive Bounds (item : List Char) : List Char → List Char → Prop where
  | same (hdash : '-' ∉ item) : Bounds item item item
  | divided {lower upper : List Char} (hitem : item = lower ++ '-' :: upper) (hdash : '-' ∉ lower) :
    Bounds item (Text.trim lower) (Text.trim upper)

/-- The text is a number that fits 32 bits. -/
abbrev IsBound (text : List Char) (n : UInt32) : Prop :=
  Numeral.Writes (UInt32.size - 1) text n.toNat

/-- The item names a range of the numbers below `count`. -/
inductive Denotes (count : UInt32) (item : List Char) (range : NumberRange) : Prop where
  | intro {lower upper : List Char} (hbounds : Bounds item lower upper)
    (hlower : IsBound lower range.lower) (hupper : IsBound upper range.upper)
    (hordered : range.lower ≤ range.upper) (hknown : range.upper < count)

/-- What is wrong with an item that names no such range: the first that is, of its
    lower bound, its upper bound, the order of the two and the size of the
    upper one. -/
inductive Faulty (count : UInt32) (item : List Char) : Error → Prop where
  | lower {lower upper : List Char} {cause : Numeral.Error} (hbounds : Bounds item lower upper)
    (hlower : Numeral.Refuses (UInt32.size - 1) lower cause) :
    Faulty count item (.number (String.ofList lower) cause)
  | upper {lower upper : List Char} {low : UInt32} {cause : Numeral.Error}
    (hbounds : Bounds item lower upper) (hlower : IsBound lower low)
    (hupper : Numeral.Refuses (UInt32.size - 1) upper cause) :
    Faulty count item (.number (String.ofList upper) cause)
  | reversed {lower upper : List Char} {low high : UInt32} (hbounds : Bounds item lower upper)
    (hlower : IsBound lower low) (hupper : IsBound upper high) (hreversed : high < low) :
    Faulty count item (.reversed (String.ofList item))
  | outOfRange {lower upper : List Char} {low high : UInt32} (hbounds : Bounds item lower upper)
    (hlower : IsBound lower low) (hupper : IsBound upper high) (hordered : low ≤ high)
    (hunknown : count ≤ high) : Faulty count item (.outOfRange high count)

section Item

variable {count : UInt32} {item : List Char}

theorem Bounds.eq {lower upper : List Char} (hbounds : Bounds item lower upper) :
    bounds item = (lower, upper) := by
  have hbefore {front : List Char} (hdash : '-' ∉ front) : ∀ c ∈ front, (c != '-') = true := by
    intro c hc
    simpa using ne_of_mem_of_not_mem hc hdash
  cases hbounds with
  | same hdash =>
    have hnone : item.dropWhile (· != '-') = [] := List.dropWhile_eq_nil_iff.mpr (hbefore hdash)
    rw [bounds, hnone]
  | @divided lower upper hitem hdash =>
    have hrest : item.dropWhile (· != '-') = '-' :: upper := by
      rw [hitem, List.dropWhile_append_of_pos (hbefore hdash)]
      exact List.dropWhile_cons_of_neg (by simp)
    have hfront : item.takeWhile (· != '-') = lower := by
      rw [hitem, List.takeWhile_append_of_pos (hbefore hdash), List.takeWhile_cons_of_neg (by simp),
        List.append_nil]
    rw [bounds, hrest, hfront]

theorem exists_bounds (item : List Char) : ∃ lower upper, Bounds item lower upper := by
  by_cases hdash : '-' ∈ item
  · obtain ⟨lower, upper, hitem, hfirst⟩ := List.eq_append_cons_of_mem hdash
    exact ⟨_, _, .divided hitem hfirst⟩
  · exact ⟨item, item, .same hdash⟩

theorem readBound_of_isBound {text : List Char} {n : UInt32} (hbound : IsBound text n) :
    readBound text = .ok n := by
  rw [readBound, Numeral.readWord_eq_ok_iff.mpr hbound]
  rfl

theorem readBound_of_refuses {text : List Char} {cause : Numeral.Error}
    (hrefuses : Numeral.Refuses (UInt32.size - 1) text cause) :
    readBound text = .error (.number (String.ofList text) cause) := by
  rw [readBound, Numeral.readWord_eq_error_iff.mpr hrefuses]
  rfl

theorem readItem_eq {lower upper : List Char} (hbounds : Bounds item lower upper) :
    readItem count item =
      readBound lower >>= fun low => readBound upper >>= fun high =>
        if high < low then .error (.reversed (String.ofList item))
        else if count ≤ high then .error (.outOfRange high count)
        else .ok ⟨low, high⟩ := by
  rw [readItem, hbounds.eq]

theorem readItem_of_denotes {range : NumberRange} (hdenotes : Denotes count item range) :
    readItem count item = .ok range := by
  obtain ⟨hbounds, hlower, hupper, hordered, hknown⟩ := hdenotes
  rw [readItem_eq hbounds, readBound_of_isBound hlower, readBound_of_isBound hupper]
  dsimp only [bind, Except.bind]
  rw [if_neg (UInt32.not_lt.mpr hordered), if_neg (UInt32.not_le.mpr hknown)]

theorem readItem_of_faulty {cause : Error} (hfaulty : Faulty count item cause) :
    readItem count item = .error cause := by
  cases hfaulty with
  | lower hbounds hlower =>
    rw [readItem_eq hbounds, readBound_of_refuses hlower]
    rfl
  | upper hbounds hlower hupper =>
    rw [readItem_eq hbounds, readBound_of_isBound hlower, readBound_of_refuses hupper]
    rfl
  | reversed hbounds hlower hupper hreversed =>
    rw [readItem_eq hbounds, readBound_of_isBound hlower, readBound_of_isBound hupper]
    exact if_pos hreversed
  | outOfRange hbounds hlower hupper hordered hunknown =>
    rw [readItem_eq hbounds, readBound_of_isBound hlower, readBound_of_isBound hupper]
    dsimp only [bind, Except.bind]
    rw [if_neg (UInt32.not_lt.mpr hordered), if_pos hunknown]

theorem isBound_or_refuses (text : List Char) :
    (∃ n, IsBound text n) ∨ ∃ cause, Numeral.Refuses (UInt32.size - 1) text cause := by
  cases hread : Numeral.readWord text with
  | ok n => exact .inl ⟨n, Numeral.readWord_eq_ok_iff.mp hread⟩
  | error cause => exact .inr ⟨cause, Numeral.readWord_eq_error_iff.mp hread⟩

theorem denotes_or_faulty (count : UInt32) (item : List Char) :
    (∃ range, Denotes count item range) ∨ ∃ cause, Faulty count item cause := by
  obtain ⟨lower, upper, hbounds⟩ := exists_bounds item
  rcases isBound_or_refuses lower with ⟨low, hlower⟩ | ⟨cause, hlower⟩
  · rcases isBound_or_refuses upper with ⟨high, hupper⟩ | ⟨cause, hupper⟩
    · by_cases hreversed : high < low
      · exact .inr ⟨_, .reversed hbounds hlower hupper hreversed⟩
      · by_cases hunknown : count ≤ high
        · exact .inr ⟨_, .outOfRange hbounds hlower hupper (UInt32.not_lt.mp hreversed) hunknown⟩
        · exact .inl ⟨⟨low, high⟩, .intro hbounds hlower hupper (UInt32.not_lt.mp hreversed)
            (UInt32.not_le.mp hunknown)⟩
    · exact .inr ⟨_, .upper hbounds hlower hupper⟩
  · exact .inr ⟨_, .lower hbounds hlower⟩

end Item

section Spec

variable {count : UInt32} {spec : NumberSpec}

/-- What is wrong with a text that names no list of ranges: it has no item, or an
    item is the first that names no range. -/
inductive Rejected (count : UInt32) (spec : NumberSpec) : Error → Prop where
  | empty (hitems : Text.items ',' spec = []) : Rejected count spec (.empty (String.ofList spec))
  | item {before later : List (List Char)} {item : List Char} {cause : Error}
    (hitems : Text.items ',' spec = before ++ item :: later)
    (hbefore : ∀ earlier ∈ before, ∃ range, Denotes count earlier range)
    (hfaulty : Faulty count item cause) : Rejected count spec cause

theorem mapM_readItem_of_denotes {items : List (List Char)} {ranges : List NumberRange}
    (hdenotes : List.Forall₂ (Denotes count) items ranges) :
    items.mapM (readItem count) = .ok ranges :=
  Except.mapM_eq_ok_iff.mpr (hdenotes.imp fun _ _ => readItem_of_denotes)

theorem parse_of_denotes {ranges : List NumberRange} (hitems : Text.items ',' spec ≠ [])
    (hdenotes : List.Forall₂ (Denotes count) (Text.items ',' spec) ranges) :
    parse count spec = .ok ranges := by
  have hranges : ¬ranges.isEmpty = true := by
    rw [List.isEmpty_iff]
    rintro rfl
    exact hitems (List.forall₂_nil_right_iff.mp hdenotes)
  rw [parse, mapM_readItem_of_denotes hdenotes]
  dsimp only [bind, Except.bind]
  rw [if_neg hranges]

theorem parse_of_rejected {cause : Error} (hrejected : Rejected count spec cause) :
    parse count spec = .error cause := by
  cases hrejected with
  | empty hitems =>
    rw [parse, hitems]
    rfl
  | @item before _ _ _ hitems hbefore hfaulty =>
    have hread : ∀ earlier ∈ before, ∃ range, readItem count earlier = .ok range :=
      fun earlier hearlier => (hbefore earlier hearlier).imp fun _ => readItem_of_denotes
    rw [parse, hitems, Except.mapM_eq_error_of_first hread (readItem_of_faulty hfaulty)]
    rfl

/-- Some item is the first that names no range, if they do not all name one. -/
theorem denotes_or_first_faulty (count : UInt32) (items : List (List Char)) :
    (∃ ranges, List.Forall₂ (Denotes count) items ranges) ∨
      ∃ before item later cause, items = before ++ item :: later ∧
        (∀ earlier ∈ before, ∃ range, Denotes count earlier range) ∧ Faulty count item cause := by
  induction items with
  | nil => exact .inl ⟨[], .nil⟩
  | cons item later ih =>
    rcases denotes_or_faulty count item with ⟨range, hitem⟩ | ⟨cause, hitem⟩
    · rcases ih with ⟨ranges, hlater⟩ | ⟨before, bad, rest, cause, rfl, hbefore, hbad⟩
      · exact .inl ⟨range :: ranges, .cons hitem hlater⟩
      · exact .inr ⟨item :: before, bad, rest, cause, rfl,
          List.forall_mem_cons.mpr ⟨⟨range, hitem⟩, hbefore⟩, hbad⟩
    · exact .inr ⟨[], item, later, cause, rfl, by simp, hitem⟩

theorem parse_eq_iff (count : UInt32) (spec : NumberSpec) :
    (∀ ranges, parse count spec = .ok ranges ↔
        Text.items ',' spec ≠ [] ∧ List.Forall₂ (Denotes count) (Text.items ',' spec) ranges) ∧
      ∀ cause, parse count spec = .error cause ↔ Rejected count spec cause := by
  apply Except.eq_iff_of_total
  · exact fun _ hranges => parse_of_denotes hranges.1 hranges.2
  · exact fun _ => parse_of_rejected
  · by_cases hitems : Text.items ',' spec = []
    · exact .inr ⟨_, .empty hitems⟩
    · rcases denotes_or_first_faulty count (Text.items ',' spec) with
        ⟨ranges, hdenotes⟩ | ⟨before, item, later, cause, hsplit, hbefore, hfaulty⟩
      · exact .inl ⟨ranges, hitems, hdenotes⟩
      · exact .inr ⟨cause, .item hsplit hbefore hfaulty⟩

/-- So every range that is read can be selected. -/
theorem bounds_of_mem_parse {ranges : List NumberRange} (hparse : parse count spec = .ok ranges) :
    ∀ range ∈ ranges, range.lower ≤ range.upper ∧ range.upper < count := by
  have hdenotes := (((parse_eq_iff count spec).1 ranges).mp hparse).2
  generalize Text.items ',' spec = items at hdenotes
  clear hparse
  induction hdenotes with
  | nil => simp
  | cons hfirst _ ih =>
    obtain ⟨_, _, _, hordered, hknown⟩ := hfirst
    exact List.forall_mem_cons.mpr ⟨⟨hordered, hknown⟩, ih⟩

/-- Exactly the texts of at least one item, each a range of known numbers, are
    read, and the leftmost item that is none decides the error. The items are
    what stands between the commas, blanks at the ends taken away, unless
    nothing is left. -/
theorem parse_grammar (count : UInt32) (spec : NumberSpec) :
    let items := ((spec.splitOn ',').map Text.trim).filter fun item => item ≠ []
    (∀ ranges, parse count spec = .ok ranges ↔
        items ≠ [] ∧ List.Forall₂ (Denotes count) items ranges) ∧
      ∀ cause, parse count spec = .error cause ↔
        items = [] ∧ cause = .empty (String.ofList spec) ∨
          ∃ before item later, items = before ++ item :: later ∧
            (∀ earlier ∈ before, ∃ range, Denotes count earlier range) ∧
            Faulty count item cause := by
  obtain ⟨hok, herror⟩ := parse_eq_iff count spec
  refine ⟨hok, fun cause => (herror cause).trans ⟨?_, ?_⟩⟩
  · rintro (hitems | ⟨hitems, hbefore, hfaulty⟩)
    · exact .inl ⟨hitems, rfl⟩
    · exact .inr ⟨_, _, _, hitems, hbefore, hfaulty⟩
  · rintro (⟨hitems, rfl⟩ | ⟨before, item, later, hitems, hbefore, hfaulty⟩)
    · exact .empty hitems
    · exact .item hitems hbefore hfaulty

end Spec

end SyscallFilter.NumberSpec
