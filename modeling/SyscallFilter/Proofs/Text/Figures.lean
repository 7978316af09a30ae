import Mathlib.Data.List.Basic
import SyscallFilter.Text.Numeral

namespace SyscallFilter.Numeral

/-- The character is a digit of some base up to sixteen, a letter being in lower
    case. -/
def IsFigure (c : Char) : Prop :=
  ∃ d < 16, c = Nat.digitChar d

instance (c : Char) : Decidable (IsFigure c) :=
  inferInstanceAs (Decidable (∃ d < 16, c = Nat.digitChar d))

def figureValue (c : Char) : Nat :=
  if c.isDigit then c.toNat - '0'.toNat else c.toNat - 'a'.toNat + 10

/-- The number that the figures stand for. -/
def valueOf (base : Nat) (text : List Char) : Nat :=
  text.foldl (fun value c => base * value + figureValue c) 0

theorem figureValue_digitChar : ∀ d < 16, figureValue (Nat.digitChar d) = d := by decide

theorem valueOf_append_singleton (base : Nat) (text : List Char) (c : Char) :
    valueOf base (text ++ [c]) = base * valueOf base text + figureValue c := by
  rw [valueOf, List.foldl_append]
  rfl

/-- The figures of a number behind any number of zeros. -/
def figures (base zeros n : Nat) : List Char :=
  List.replicate zeros '0' ++ Nat.toDigits base n

theorem figures_zero (base n : Nat) : figures base 0 n = Nat.toDigits base n := rfl

section Base

variable {base zeros n : Nat}

/-- One more figure stands for the number times the base and that figure. -/
theorem figures_of_base_le (hbase : 1 < base) (hn : base ≤ n) :
    figures base zeros n = figures base zeros (n / base) ++ [Nat.digitChar (n % base)] := by
  rw [figures, figures, List.append_assoc, Nat.toDigits_of_base_le hbase hn]

theorem figures_of_lt_base (hn : n < base) :
    figures base zeros n = List.replicate zeros '0' ++ [Nat.digitChar n] := by
  rw [figures, Nat.toDigits_of_lt_base hn]

theorem valueOf_replicate_zero (base zeros : Nat) :
    valueOf base (List.replicate zeros '0') = 0 := by
  induction zeros with
  | zero => rfl
  | succ zeros ih =>
    rw [List.replicate_succ', valueOf_append_singleton, ih]
    rfl

theorem valueOf_figures (hbase : 1 < base) (hfigures : base ≤ 16) (zeros n : Nat) :
    valueOf base (figures base zeros n) = n := by
  induction n using Nat.strongRecOn with
  | _ n ih =>
    rcases Nat.lt_or_ge n base with hlt | hge
    · rw [figures_of_lt_base hlt, valueOf_append_singleton, valueOf_replicate_zero,
        figureValue_digitChar n (by omega), Nat.mul_zero, Nat.zero_add]
    · have hfigure : n % base < base := Nat.mod_lt _ (by omega)
      rw [figures_of_base_le hbase hge, valueOf_append_singleton,
        ih (n / base) (Nat.div_lt_self (by omega) hbase), figureValue_digitChar _ (by omega),
        Nat.div_add_mod]

theorem exists_digitChar_of_mem_figures (hbase : 1 < base) :
    ∀ c ∈ figures base zeros n, ∃ d < base, c = Nat.digitChar d := by
  induction n using Nat.strongRecOn with
  | _ n ih =>
    have hzero : ∀ c ∈ List.replicate zeros '0', ∃ d < base, c = Nat.digitChar d := by
      intro c hc
      rw [List.eq_of_mem_replicate hc]
      exact ⟨0, by omega, rfl⟩
    rcases Nat.lt_or_ge n base with hlt | hge
    · rw [figures_of_lt_base hlt, List.forall_mem_append, List.forall_mem_singleton]
      exact ⟨hzero, n, hlt, rfl⟩
    · rw [figures_of_base_le hbase hge, List.forall_mem_append, List.forall_mem_singleton]
      exact ⟨ih _ (Nat.div_lt_self (by omega) hbase), _, Nat.mod_lt _ (by omega), rfl⟩

theorem isFigure_of_mem_figures (hbase : 1 < base) (hfigures : base ≤ 16) :
    ∀ c ∈ figures base zeros n, IsFigure c := by
  intro c hc
  obtain ⟨d, hd, rfl⟩ := exists_digitChar_of_mem_figures hbase c hc
  exact ⟨d, Nat.lt_of_lt_of_le hd hfigures, rfl⟩

theorem figures_ne_nil : figures base zeros n ≠ [] :=
  List.append_ne_nil_of_right_ne_nil _ Nat.toDigits_ne_nil

end Base

section Decimal

variable {zeros n : Nat}

theorem isDigit_of_mem_figures : ∀ c ∈ figures 10 zeros n, c.isDigit = true := by
  have hdigits : ∀ d < 10, (Nat.digitChar d).isDigit = true := by decide
  intro c hc
  obtain ⟨d, hd, rfl⟩ := exists_digitChar_of_mem_figures (by decide) c hc
  exact hdigits d hd

theorem valueOf_eq_ofDigitChars {text : List Char} (htext : ∀ c ∈ text, c.isDigit = true) :
    valueOf 10 text = Nat.ofDigitChars 10 text 0 := by
  refine List.foldl_ext _ _ _ fun value c hc => ?_
  rw [figureValue, if_pos (htext c hc)]

theorem ofDigitChars_figures : Nat.ofDigitChars 10 (figures 10 zeros n) 0 = n := by
  rw [← valueOf_eq_ofDigitChars isDigit_of_mem_figures, valueOf_figures (by decide) (by decide)]

end Decimal

/-- Where a stretch of figures ends can be seen from what stands behind it. -/
theorem append_cons_inj_of_isFigure {front front' later later' : List Char} {c c' : Char}
    (hfront : ∀ a ∈ front, IsFigure a) (hfront' : ∀ a ∈ front', IsFigure a)
    (hc : ¬IsFigure c) (hc' : ¬IsFigure c')
    (heq : front ++ c :: later = front' ++ c' :: later') :
    front = front' ∧ c :: later = c' :: later' := by
  induction front generalizing front' with
  | nil =>
    cases front' with
    | nil => exact ⟨rfl, heq⟩
    | cons a rest =>
      cases heq
      exact absurd (hfront' c List.mem_cons_self) hc
  | cons a rest ih =>
    cases front' with
    | nil =>
      cases heq
      exact absurd (hfront c' List.mem_cons_self) hc'
    | cons a' rest' =>
      obtain ⟨rfl, hrest⟩ := List.cons.inj heq
      obtain ⟨rfl, hlater⟩ := ih (fun b hb => hfront b (List.mem_cons_of_mem _ hb))
        (fun b hb => hfront' b (List.mem_cons_of_mem _ hb)) hrest
      exact ⟨rfl, hlater⟩

section Numbers

variable {base zeros zeros' n n' : Nat} {c : Char} {later later' : List Char}

theorem eq_of_figures_eq (hbase : 1 < base) (hfigures : base ≤ 16)
    (heq : figures base zeros n = figures base zeros' n') : n = n' := by
  rw [← valueOf_figures hbase hfigures zeros n, heq, valueOf_figures hbase hfigures]

/-- Numbers in front of the same mark can be told apart, and so can what stands
    behind it. -/
theorem eq_of_figures_append_eq (hbase : 1 < base) (hfigures : base ≤ 16) (hc : ¬IsFigure c)
    (heq : figures base zeros n ++ c :: later = figures base zeros' n' ++ c :: later') :
    n = n' ∧ later = later' := by
  obtain ⟨hnumbers, hlater⟩ := append_cons_inj_of_isFigure (isFigure_of_mem_figures hbase hfigures)
    (isFigure_of_mem_figures hbase hfigures) hc hc heq
  exact ⟨eq_of_figures_eq hbase hfigures hnumbers, (List.cons.inj hlater).2⟩

end Numbers

theorem toList_hex (width n : Nat) :
    (hex width n).toList = '0' :: 'x' :: figures 16 (width - (Nat.toDigits 16 n).length) n := by
  simp [hex, figures]

end SyscallFilter.Numeral
