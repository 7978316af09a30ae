import Mathlib.Data.List.Basic
import Mathlib.Data.List.TakeWhile
import SyscallFilter.Text.Pieces

namespace SyscallFilter.Text

section Trim

variable {text front core back : List Char}

/-- Neither end of the text is blank. -/
def IsTight (text : List Char) : Prop :=
  (∀ c ∈ text.head?, isBlank c = false) ∧ ∀ c ∈ text.getLast?, isBlank c = false

theorem dropWhile_isBlank (hfront : ∀ c ∈ front, isBlank c = true)
    (hcore : ∀ c ∈ core.head?, isBlank c = false) : (front ++ core).dropWhile isBlank = core := by
  rw [List.dropWhile_append_of_pos hfront]
  cases core with
  | nil => rfl
  | cons c later => exact List.dropWhile_cons_of_neg (by simpa using hcore)

theorem trim_of_isBlank (htext : ∀ c ∈ text, isBlank c = true) : trim text = [] := by
  rw [trim, List.dropWhile_eq_nil_iff.mpr htext]
  rfl

/-- Trimming takes the blanks at both ends away and nothing else. -/
theorem trim_append (hfront : ∀ c ∈ front, isBlank c = true) (hcore : IsTight core)
    (hback : ∀ c ∈ back, isBlank c = true) : trim (front ++ core ++ back) = core := by
  cases core with
  | nil =>
    rw [List.append_nil]
    exact trim_of_isBlank fun c hc => (List.mem_append.mp hc).elim (hfront c) (hback c)
  | cons c later =>
    have hhead : ∀ d ∈ (c :: later ++ back).head?, isBlank d = false := by
      simpa using hcore.1
    have hlast : ∀ d ∈ (c :: later).reverse.head?, isBlank d = false := by
      rw [List.head?_reverse]
      exact hcore.2
    have hreverse : ∀ d ∈ back.reverse, isBlank d = true := fun d hd =>
      hback d (List.mem_reverse.mp hd)
    rw [trim, List.append_assoc, dropWhile_isBlank hfront hhead, List.reverse_append,
      dropWhile_isBlank hreverse hlast, List.reverse_reverse]

/-- Only the ends of a text count, whatever stands between them. -/
theorem IsTight.append {middle : List Char} (hfront : IsTight front) (hback : IsTight back)
    (hfirst : front ≠ []) (hlast : back ≠ []) : IsTight (front ++ middle ++ back) := by
  constructor
  · rw [List.append_assoc, List.head?_append_of_ne_nil _ hfirst]
    exact hfront.1
  · rw [List.getLast?_append_of_ne_nil _ hlast]
    exact hback.2

theorem isBlank_of_isDigit {c : Char} (hc : c.isDigit = true) : isBlank c = false := by
  have hblanks : blanks.all (fun c => !c.isDigit) = true := by decide
  refine Bool.eq_false_iff.mpr fun hblank => ?_
  have hnone := List.all_eq_true.mp hblanks c (List.contains_iff_mem.mp hblank)
  rw [hc] at hnone
  cases hnone

theorem isTight_of_isDigit (htext : ∀ c ∈ text, c.isDigit = true) : IsTight text :=
  ⟨fun c hc => isBlank_of_isDigit (htext c (List.mem_of_mem_head? hc)),
    fun c hc => isBlank_of_isDigit (htext c (List.mem_of_mem_getLast? hc))⟩

end Trim

section Pieces

variable (separator : Char)

theorem items_append (text later : List Char) :
    items separator (text ++ separator :: later) = items separator text ++ items separator later := by
  simp only [items, List.splitOn_append_cons_self, List.map_append, List.filter_append]

theorem items_intercalate {texts : List (List Char)} (htexts : texts ≠ [])
    (hfree : ∀ text ∈ texts, separator ∉ text) :
    items separator ([separator].intercalate texts) =
      (texts.map trim).filter (· ≠ []) := by
  rw [items, List.splitOn_intercalate separator hfree htexts]

end Pieces

end SyscallFilter.Text
