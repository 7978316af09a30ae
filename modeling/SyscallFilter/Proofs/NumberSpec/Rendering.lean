import SyscallFilter.Proofs.NumberSpec

namespace SyscallFilter.NumberSpec

/-- The text is the number in decimal digits, with any number of zeros in front
    and blanks around it. -/
inductive Spells (text : List Char) (n : UInt32) : Prop where
  | intro (front back : List Char) (zeros : Nat) (hfront : ∀ c ∈ front, Text.isBlank c = true)
    (hback : ∀ c ∈ back, Text.isBlank c = true)
    (htext : text = front ++ Numeral.figures 10 zeros n.toNat ++ back)

/-- The text is the range in writing: its two ends with a dash between them, or its
    only number. -/
inductive SpellsRange (text : List Char) (range : NumberRange) : Prop where
  | single (hsingle : range.lower = range.upper) (hnumber : Spells text range.lower)
  | ends {lower upper : List Char} (htext : text = lower ++ '-' :: upper)
    (hlower : Spells lower range.lower) (hupper : Spells upper range.upper)

/-- The texts are the ranges in writing, one after the other, with blank texts
    anywhere between them. -/
inductive Renders : List (List Char) → List NumberRange → Prop where
  | nil : Renders [] []
  | blank {text : List Char} {texts : List (List Char)} {ranges : List NumberRange}
    (hblank : ∀ c ∈ text, Text.isBlank c = true) (hlater : Renders texts ranges) :
    Renders (text :: texts) ranges
  | range {text : List Char} {texts : List (List Char)} {range : NumberRange}
    {ranges : List NumberRange} (hrange : SpellsRange text range) (hlater : Renders texts ranges) :
    Renders (text :: texts) (range :: ranges)

section Item

variable {text : List Char} {count : UInt32} {range : NumberRange} {n : UInt32}

theorem Spells.blank_or_digit (hspells : Spells text n) :
    ∀ c ∈ text, Text.isBlank c = true ∨ c.isDigit = true := by
  obtain ⟨front, back, zeros, hfront, hback, rfl⟩ := hspells
  intro c hc
  rcases List.mem_append.mp hc with hc | hc
  · rcases List.mem_append.mp hc with hc | hc
    · exact .inl (hfront c hc)
    · exact .inr (Numeral.isDigit_of_mem_figures c hc)
  · exact .inl (hback c hc)

/-- Neither a dash nor a comma can stand in a number. -/
theorem Spells.not_mem (hspells : Spells text n) {c : Char} (hblank : Text.isBlank c = false)
    (hdigit : c.isDigit = false) : c ∉ text := by
  intro hc
  rcases hspells.blank_or_digit c hc with h | h
  · rw [hblank] at h
    cases h
  · rw [hdigit] at h
    cases h

theorem SpellsRange.comma_not_mem (hrange : SpellsRange text range) : ',' ∉ text := by
  have hfree {number : List Char} {n : UInt32} (hspells : Spells number n) : ',' ∉ number :=
    hspells.not_mem (by decide) (by decide)
  cases hrange with
  | single _ hnumber => exact hfree hnumber
  | ends htext hlower hupper =>
    rw [htext, List.mem_append, List.mem_cons]
    rintro (hcomma | hcomma | hcomma)
    · exact hfree hlower hcomma
    · exact absurd hcomma (by decide)
    · exact hfree hupper hcomma

theorem isTight_figures (zeros n : Nat) : Text.IsTight (Numeral.figures 10 zeros n) :=
  Text.isTight_of_isDigit Numeral.isDigit_of_mem_figures

theorem Spells.trim_eq (hspells : Spells text n) :
    ∃ zeros, Text.trim text = Numeral.figures 10 zeros n.toNat := by
  obtain ⟨front, back, zeros, hfront, hback, rfl⟩ := hspells
  exact ⟨zeros, Text.trim_append hfront (isTight_figures zeros n.toNat) hback⟩

theorem Spells.isBound_trim (hspells : Spells text n) : IsBound (Text.trim text) n := by
  obtain ⟨zeros, htrim⟩ := hspells.trim_eq
  rw [htrim]
  exact Numeral.writes_figures (Nat.le_pred_of_lt n.toNat_lt) zeros

theorem Bounds.of_spells (hspells : Spells text n) :
    Bounds (Text.trim text) (Text.trim text) (Text.trim text) := by
  obtain ⟨zeros, htrim⟩ := hspells.trim_eq
  rw [htrim]
  refine .same fun hdash => ?_
  exact absurd (Numeral.isDigit_of_mem_figures '-' hdash) (by decide)

/-- Trimming a range in writing takes the blanks off its outer ends. Those beside
    the dash stay, and go when the bounds themselves are trimmed. -/
theorem Bounds.of_spells_ends {lower upper : List Char} {low high : UInt32}
    (hlower : Spells lower low) (hupper : Spells upper high) :
    ∃ low' high', Bounds (Text.trim (lower ++ '-' :: upper)) (Text.trim low') (Text.trim high') ∧
      Spells low' low ∧ Spells high' high := by
  obtain ⟨front, left, zeros, hfront, hleft, rfl⟩ := hlower
  obtain ⟨right, back, more, hright, hback, rfl⟩ := hupper
  have hnone : ∀ c ∈ ([] : List Char), Text.isBlank c = true := by simp
  have hlow : Spells (Numeral.figures 10 zeros low.toNat ++ left) low :=
    .intro [] left zeros hnone hleft rfl
  have hhigh : Spells (right ++ Numeral.figures 10 more high.toNat) high :=
    .intro right [] more hright hnone (List.append_nil _).symm
  have hcore : Text.IsTight (Numeral.figures 10 zeros low.toNat ++ (left ++ '-' :: right) ++
      Numeral.figures 10 more high.toNat) :=
    (isTight_figures zeros _).append (isTight_figures more _) Numeral.figures_ne_nil
      Numeral.figures_ne_nil
  have htrim := Text.trim_append hfront hcore hback
  -- The dash between the numbers is the first one, for there is none in a number.
  refine ⟨_, _, .divided ?_ (hlow.not_mem (by decide) (by decide)), hlow, hhigh⟩
  simpa only [List.append_assoc, List.cons_append] using htrim

theorem Denotes.ne_nil {item : List Char} (hdenotes : Denotes count item range) : item ≠ [] := by
  rintro rfl
  obtain ⟨hbounds, hlower, _, _, _⟩ := hdenotes
  cases hbounds with
  | same _ => exact (Numeral.writes_iff.mp hlower).1 rfl
  | divided hitem _ => simp at hitem

theorem SpellsRange.denotes_trim (hrange : SpellsRange text range)
    (hordered : range.lower ≤ range.upper) (hknown : range.upper < count) :
    Denotes count (Text.trim text) range := by
  cases hrange with
  | single hsingle hnumber =>
    have hbound := hnumber.isBound_trim
    exact .intro (.of_spells hnumber) hbound (hsingle ▸ hbound) hordered hknown
  | ends htext hlower hupper =>
    obtain ⟨front, back, hbounds, hfront, hback⟩ := Bounds.of_spells_ends hlower hupper
    rw [htext]
    exact .intro hbounds hfront.isBound_trim hback.isBound_trim hordered hknown

end Item

section Texts

variable {count : UInt32} {texts : List (List Char)} {ranges : List NumberRange}

theorem Renders.comma_not_mem (hrenders : Renders texts ranges) : ∀ text ∈ texts, ',' ∉ text := by
  induction hrenders with
  | nil => simp
  | blank hblank _ ih =>
    refine List.forall_mem_cons.mpr ⟨fun hcomma => ?_, ih⟩
    exact absurd (hblank ',' hcomma) (by decide)
  | range hrange _ ih => exact List.forall_mem_cons.mpr ⟨hrange.comma_not_mem, ih⟩

/-- What is left of the texts names the ranges: the blank ones go, and no other. -/
theorem Renders.forall₂_denotes (hrenders : Renders texts ranges)
    (hranges : ∀ range ∈ ranges, range.lower ≤ range.upper ∧ range.upper < count) :
    List.Forall₂ (Denotes count) ((texts.map Text.trim).filter fun item => item ≠ []) ranges := by
  induction hrenders with
  | nil => exact .nil
  | blank hblank _ ih =>
    rw [List.map_cons, Text.trim_of_isBlank hblank, List.filter_cons_of_neg (by simp)]
    exact ih hranges
  | range hrange _ ih =>
    obtain ⟨⟨hordered, hknown⟩, hlater⟩ := List.forall_mem_cons.mp hranges
    have hdenotes := hrange.denotes_trim hordered hknown
    rw [List.map_cons, List.filter_cons_of_pos (by simpa using hdenotes.ne_nil)]
    exact .cons hdenotes (ih hlater)

theorem Renders.parse_intercalate (hrenders : Renders texts ranges) (hsome : ranges ≠ [])
    (hranges : ∀ range ∈ ranges, range.lower ≤ range.upper ∧ range.upper < count) :
    parse count ([','].intercalate texts) = .ok ranges := by
  have htexts : texts ≠ [] := by
    rintro rfl
    cases hrenders
    exact hsome rfl
  have hdenotes := hrenders.forall₂_denotes hranges
  rw [← Text.items_intercalate ',' htexts hrenders.comma_not_mem] at hdenotes
  refine parse_of_denotes (fun hitems => ?_) hdenotes
  rw [hitems] at hdenotes
  exact hsome (List.forall₂_nil_left_iff.mp hdenotes)

end Texts

section Join

variable {count : UInt32} {spec later : NumberSpec}

theorem exists_denotes_of_mem {items : List (List Char)} {ranges : List NumberRange}
    (hdenotes : List.Forall₂ (Denotes count) items ranges) :
    ∀ item ∈ items, ∃ range, Denotes count item range := by
  induction hdenotes with
  | nil => simp
  | cons hfirst _ ih => exact List.forall_mem_cons.mpr ⟨⟨_, hfirst⟩, ih⟩

theorem parse_join_of_ok {ranges more : List NumberRange} (hspec : parse count spec = .ok ranges)
    (hlater : parse count later = .ok more) :
    parse count (spec ++ ',' :: later) = .ok (ranges ++ more) := by
  obtain ⟨hitems, hranges⟩ := ((parse_eq_iff count spec).1 ranges).mp hspec
  obtain ⟨_, hmore⟩ := ((parse_eq_iff count later).1 more).mp hlater
  apply parse_of_denotes
  · rw [Text.items_append]
    exact List.append_ne_nil_of_left_ne_nil hitems _
  · rw [Text.items_append]
    exact List.rel_append hranges hmore

theorem parse_join_of_left {cause : Error} (hspec : parse count spec = .error cause)
    (hcause : ∀ text, cause ≠ .empty text) (later : NumberSpec) :
    parse count (spec ++ ',' :: later) = .error cause := by
  apply parse_of_rejected
  cases ((parse_eq_iff count spec).2 cause).mp hspec with
  | empty _ => exact absurd rfl (hcause _)
  | @item before rest item _ hitems hbefore hfaulty =>
    have hjoined : Text.items ',' (spec ++ ',' :: later) =
        before ++ item :: (rest ++ Text.items ',' later) := by
      rw [Text.items_append, hitems, List.append_assoc, List.cons_append]
    exact .item hjoined hbefore hfaulty

theorem parse_join_of_right {ranges : List NumberRange} {cause : Error}
    (hspec : parse count spec = .ok ranges) (hlater : parse count later = .error cause)
    (hcause : ∀ text, cause ≠ .empty text) :
    parse count (spec ++ ',' :: later) = .error cause := by
  have hread := exists_denotes_of_mem (((parse_eq_iff count spec).1 ranges).mp hspec).2
  apply parse_of_rejected
  cases ((parse_eq_iff count later).2 cause).mp hlater with
  | empty _ => exact absurd rfl (hcause _)
  | @item before rest item _ hitems hbefore hfaulty =>
    have hjoined : Text.items ',' (spec ++ ',' :: later) =
        (Text.items ',' spec ++ before) ++ item :: rest := by
      rw [Text.items_append, hitems, List.append_assoc]
    exact .item hjoined (List.forall_mem_append.mpr ⟨hread, hbefore⟩) hfaulty

end Join

/-- Ranges in writing are read back as they are, in their order and no two of them
    merged. With a comma between two texts, the ranges of both are read if each is
    a list of ranges, and otherwise the leftmost fault is reported, unless it is
    that a text has no item. -/
theorem parse_intercalate_and_join (count : UInt32) :
    (∀ texts ranges, ranges ≠ [] →
        (∀ range ∈ ranges, range.lower ≤ range.upper ∧ range.upper < count) →
        Renders texts ranges → parse count ([','].intercalate texts) = .ok ranges) ∧
      ∀ spec later : NumberSpec,
        (∀ ranges more, parse count spec = .ok ranges → parse count later = .ok more →
            parse count (spec ++ ',' :: later) = .ok (ranges ++ more)) ∧
          ∀ cause, (∀ text, cause ≠ .empty text) →
            (parse count spec = .error cause →
                parse count (spec ++ ',' :: later) = .error cause) ∧
              ((∃ ranges, parse count spec = .ok ranges) → parse count later = .error cause →
                parse count (spec ++ ',' :: later) = .error cause) := by
  constructor
  · intro texts ranges hsome hranges hrenders
    exact hrenders.parse_intercalate hsome hranges
  · intro spec later
    refine ⟨fun ranges more => parse_join_of_ok, fun cause hcause => ⟨fun hspec => ?_, ?_⟩⟩
    · exact parse_join_of_left hspec hcause later
    · rintro ⟨ranges, hspec⟩ hlater
      exact parse_join_of_right hspec hlater hcause

/-- Two ranges between blank items, one of them in a longer form than it needs, and
    the three kinds of joined texts. -/
theorem parse_intercalate_and_join_padded :
    Renders [" ".toList, " 003 -\t7\u3000".toList, [], "4".toList] [⟨3, 7⟩, ⟨4, 4⟩] ∧
      parse 10 " , 003 -\t7\u3000,,4".toList = .ok [⟨3, 7⟩, ⟨4, 4⟩] ∧
      parse 10 "3,4-9".toList = .ok [⟨3, 3⟩, ⟨4, 9⟩] ∧
      parse 10 "x,7-5".toList = .error (.number "x" .invalidDigit) ∧
      parse 10 "3,7-5".toList = .error (.reversed "7-5") := by
  have hspace : ∀ c ∈ [' '], Text.isBlank c = true := List.forall_mem_singleton.mpr rfl
  have hfirst : SpellsRange " 003 -\t7\u3000".toList ⟨3, 7⟩ := by
    refine @SpellsRange.ends _ _ " 003 ".toList "\t7\u3000".toList rfl ?_ ?_
    · exact .intro [' '] [' '] 2 hspace hspace (by decide)
    · exact .intro ['\t'] ['\u3000'] 0 (List.forall_mem_singleton.mpr rfl)
        (List.forall_mem_singleton.mpr rfl) (by decide)
  have hsecond : SpellsRange "4".toList ⟨4, 4⟩ :=
    .single rfl (.intro [] [] 0 (by simp) (by simp) (by decide))
  have hrenders : Renders [" ".toList, " 003 -\t7\u3000".toList, [], "4".toList]
      [⟨3, 7⟩, ⟨4, 4⟩] :=
    .blank hspace (.range hfirst (.blank (by simp) (.range hsecond .nil)))
  obtain ⟨hintercalate, hjoin⟩ := parse_intercalate_and_join 10
  refine ⟨hrenders, ?_, ?_, ?_, ?_⟩
  · exact hintercalate _ _ (by simp) (by decide) hrenders
  · exact (hjoin "3".toList "4-9".toList).1 [⟨3, 3⟩] [⟨4, 9⟩] (by decide) (by decide)
  · exact ((hjoin "x".toList "7-5".toList).2 _ (by simp)).1 (by decide)
  · exact ((hjoin "3".toList "7-5".toList).2 _ (by simp)).2 ⟨[⟨3, 3⟩], by decide⟩ (by decide)

end SyscallFilter.NumberSpec
