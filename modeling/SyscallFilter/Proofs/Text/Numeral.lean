import SyscallFilter.Proofs.Except
import SyscallFilter.Proofs.Text.Figures

namespace SyscallFilter.Numeral

/-- Decimal digits that, appended to `value`, stay within the limit. -/
def Fits (limit value : Nat) (digits : List Char) : Prop :=
  (∀ c ∈ digits, c.isDigit = true) ∧ Nat.ofDigitChars 10 digits value ≤ limit

/-- The text is `n` in writing, and `n` is within the limit: at least one decimal
    digit, leading zeros allowed, and perhaps a plus sign in front. -/
def Writes (limit : Nat) (text : List Char) (n : Nat) : Prop :=
  ∃ digits, (text = digits ∨ text = '+' :: digits) ∧ digits ≠ [] ∧ Fits limit 0 digits ∧
    Nat.ofDigitChars 10 digits 0 = n

/-- The text without the plus sign in front of its digits. A sign that nothing
    follows is not in front of any. -/
def unsigned : List Char → List Char
  | '+' :: c :: later => c :: later
  | text => text

/-- What is wrong with a text that is no number within the limit: it is empty, or
    behind digits that fit stands a character that is no digit, or a digit that
    does not fit any more. -/
inductive Refuses (limit : Nat) (text : List Char) : Error → Prop where
  | empty (htext : text = []) : Refuses limit text .empty
  | invalidDigit {front : List Char} {c : Char} {later : List Char}
      (htext : unsigned text = front ++ c :: later) (hfront : Fits limit 0 front)
      (hc : c.isDigit = false) : Refuses limit text .invalidDigit
  | tooLarge {front : List Char} {c : Char} {later : List Char}
      (htext : unsigned text = front ++ c :: later) (hfront : Fits limit 0 front)
      (hc : c.isDigit = true) (hlarge : limit < Nat.ofDigitChars 10 (front ++ [c]) 0) :
      Refuses limit text .tooLarge

section Digits

variable {limit value : Nat} {front later : List Char} {c : Char}

theorem le_ofDigitChars (digits : List Char) (value : Nat) :
    value ≤ Nat.ofDigitChars 10 digits value := by
  have hpositive : 1 ≤ 10 ^ digits.length := Nat.one_le_pow _ _ (by decide)
  have hscaled : 1 * value ≤ 10 ^ digits.length * value := Nat.mul_le_mul_right _ hpositive
  rw [Nat.ofDigitChars_eq_ofDigitChars_zero]
  omega

theorem fits_cons_iff :
    Fits limit value (c :: later) ↔
      c.isDigit = true ∧ Fits limit (10 * value + (c.toNat - '0'.toNat)) later := by
  simp [Fits, Nat.ofDigitChars_cons, and_assoc]

theorem Fits.value_le (hfits : Fits limit value later) : value ≤ limit :=
  Nat.le_trans (le_ofDigitChars later value) hfits.2

/-- Digits that fit are read, whatever follows. -/
theorem readDigits_append (hfits : Fits limit value front) (later : List Char) :
    readDigits limit value (front ++ later) =
      readDigits limit (Nat.ofDigitChars 10 front value) later := by
  induction front generalizing value with
  | nil => rfl
  | cons c rest ih =>
    obtain ⟨hc, hrest⟩ := fits_cons_iff.mp hfits
    rw [List.cons_append, readDigits, if_pos hc, Nat.ofDigitChars_cons]
    dsimp only
    rw [if_pos hrest.value_le, ih hrest]

theorem readDigits_of_fits (hfits : Fits limit value front) :
    readDigits limit value front = .ok (Nat.ofDigitChars 10 front value) := by
  have happend := readDigits_append hfits []
  rw [List.append_nil] at happend
  exact happend

theorem readDigits_of_not_isDigit (hfits : Fits limit value front) (hc : c.isDigit = false)
    (later : List Char) : readDigits limit value (front ++ c :: later) = .error .invalidDigit := by
  rw [readDigits_append hfits, readDigits, if_neg (Bool.not_eq_true _ ▸ hc)]

theorem readDigits_of_limit_lt (hfits : Fits limit value front) (hc : c.isDigit = true)
    (hlarge : limit < Nat.ofDigitChars 10 (front ++ [c]) value) (later : List Char) :
    readDigits limit value (front ++ c :: later) = .error .tooLarge := by
  rw [Nat.ofDigitChars_append, Nat.ofDigitChars_cons, Nat.ofDigitChars_nil] at hlarge
  rw [readDigits_append hfits, readDigits, if_pos hc]
  dsimp only
  rw [if_neg (Nat.not_le.mpr hlarge)]

/-- Digits that do not all fit have a first character that does not. -/
theorem fits_or_first (hvalue : value ≤ limit) (text : List Char) :
    Fits limit value text ∨ ∃ front c later, text = front ++ c :: later ∧ Fits limit value front ∧
      (c.isDigit = false ∨
        c.isDigit = true ∧ limit < Nat.ofDigitChars 10 (front ++ [c]) value) := by
  induction text generalizing value with
  | nil => exact .inl ⟨by simp, hvalue⟩
  | cons c rest ih =>
    have hnone : Fits limit value [] := ⟨by simp, hvalue⟩
    cases hc : c.isDigit with
    | false => exact .inr ⟨[], c, rest, rfl, hnone, .inl hc⟩
    | true =>
      by_cases hnext : 10 * value + (c.toNat - '0'.toNat) ≤ limit
      · rcases ih hnext with hfits | ⟨front, d, later, rfl, hfront, hd⟩
        · exact .inl (fits_cons_iff.mpr ⟨hc, hfits⟩)
        · exact .inr ⟨c :: front, d, later, rfl, fits_cons_iff.mpr ⟨hc, hfront⟩, hd⟩
      · exact .inr ⟨[], c, rest, rfl, hnone, .inr ⟨hc, Nat.lt_of_not_le hnext⟩⟩

end Digits

/-- Zeros in front do not change what a number reads as. -/
theorem writes_figures {limit n : Nat} (hn : n ≤ limit) (zeros : Nat) :
    Writes limit (figures 10 zeros n) n := by
  have hfits : Fits limit 0 (figures 10 zeros n) := by
    refine ⟨isDigit_of_mem_figures, ?_⟩
    rw [ofDigitChars_figures]
    exact hn
  exact ⟨_, .inl rfl, figures_ne_nil, hfits, ofDigitChars_figures⟩

section Text

variable {limit n : Nat} {text : List Char} {cause : Error}

theorem unsigned_of_ne (htext : ∀ later, text ≠ '+' :: later) : unsigned text = text := by
  unfold unsigned
  split
  · exact absurd rfl (htext _)
  · rfl

theorem unsigned_ne_nil (htext : text ≠ []) : unsigned text ≠ [] := by
  unfold unsigned
  split
  · simp
  · exact htext

theorem read_of_ne_nil (limit : Nat) (htext : text ≠ []) :
    read limit text = readDigits limit 0 (unsigned text) := by
  unfold read
  split
  · exact absurd rfl htext
  · rfl
  · rename_i digits hlone
    cases digits with
    | nil => exact absurd rfl hlone
    | cons c later => rfl
  · rename_i hsign
    rw [unsigned_of_ne hsign]

theorem writes_iff :
    Writes limit text n ↔
      text ≠ [] ∧ Fits limit 0 (unsigned text) ∧ Nat.ofDigitChars 10 (unsigned text) 0 = n := by
  constructor
  · rintro ⟨digits, rfl | rfl, hdigits, hfits, hvalue⟩
    · have hsign : ∀ later, text ≠ '+' :: later := by
        rintro later rfl
        exact absurd (hfits.1 '+' List.mem_cons_self) (by decide)
      rw [unsigned_of_ne hsign]
      exact ⟨hdigits, hfits, hvalue⟩
    · cases digits with
      | nil => exact absurd rfl hdigits
      | cons c later => exact ⟨by simp, hfits, hvalue⟩
  · rintro ⟨htext, hfits, hvalue⟩
    refine ⟨unsigned text, ?_, unsigned_ne_nil htext, hfits, hvalue⟩
    unfold unsigned
    split
    · exact .inr rfl
    · exact .inl rfl

theorem read_of_writes (hwrites : Writes limit text n) : read limit text = .ok n := by
  obtain ⟨htext, hfits, rfl⟩ := writes_iff.mp hwrites
  rw [read_of_ne_nil limit htext, readDigits_of_fits hfits]

theorem read_of_refuses (hrefuses : Refuses limit text cause) : read limit text = .error cause := by
  have hne {front later : List Char} {c : Char} (hsplit : unsigned text = front ++ c :: later) :
      text ≠ [] := by
    rintro rfl
    exact absurd hsplit (by simp [unsigned])
  cases hrefuses with
  | empty htext => rw [htext, read]
  | invalidDigit hsplit hfront hc =>
    rw [read_of_ne_nil limit (hne hsplit), hsplit, readDigits_of_not_isDigit hfront hc]
  | tooLarge hsplit hfront hc hlarge =>
    rw [read_of_ne_nil limit (hne hsplit), hsplit, readDigits_of_limit_lt hfront hc hlarge]

theorem writes_or_refuses (limit : Nat) (text : List Char) :
    (∃ n, Writes limit text n) ∨ ∃ cause, Refuses limit text cause := by
  by_cases htext : text = []
  · exact .inr ⟨_, .empty htext⟩
  · rcases fits_or_first (Nat.zero_le limit) (unsigned text) with
      hfits | ⟨front, c, later, hsplit, hfront, hc | ⟨hc, hlarge⟩⟩
    · exact .inl ⟨_, writes_iff.mpr ⟨htext, hfits, rfl⟩⟩
    · exact .inr ⟨_, .invalidDigit hsplit hfront hc⟩
    · exact .inr ⟨_, .tooLarge hsplit hfront hc hlarge⟩

theorem read_eq_iff (limit : Nat) (text : List Char) :
    (∀ n, read limit text = .ok n ↔ Writes limit text n) ∧
      ∀ cause, read limit text = .error cause ↔ Refuses limit text cause :=
  Except.eq_iff_of_total (fun _ => read_of_writes) (fun _ => read_of_refuses)
    (writes_or_refuses limit text)

end Text

section Word

variable {text : List Char}

theorem readWord_eq_ok_iff {word : UInt32} :
    readWord text = .ok word ↔ Writes (UInt32.size - 1) text word.toNat := by
  rw [readWord, ← (read_eq_iff _ text).1]
  cases hread : read (UInt32.size - 1) text with
  | error cause => simp [Except.map]
  | ok n =>
    obtain ⟨_, _, _, hfits, hvalue⟩ := ((read_eq_iff _ text).1 n).mp hread
    -- A number that is read stays within the limit, so the word does not wrap.
    have hn : n < UInt32.size := by
      have hle := hfits.2
      rw [hvalue] at hle
      exact Nat.lt_of_le_pred (by decide) hle
    simp only [Except.map, Except.ok.injEq, ← UInt32.toNat_inj, UInt32.toNat_ofNat_of_lt' hn]

theorem readWord_eq_error_iff {cause : Error} :
    readWord text = .error cause ↔ Refuses (UInt32.size - 1) text cause := by
  rw [readWord, ← (read_eq_iff _ text).2]
  cases read (UInt32.size - 1) text <;> simp [Except.map]

end Word

end SyscallFilter.Numeral
