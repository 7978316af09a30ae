import Mathlib.Data.List.Forall2

namespace Except

variable {ε ε' α β σ : Type}

/-- A result is known exactly if each of its values and each of its errors has a
    sufficient condition and one of these conditions holds. -/
theorem eq_iff_of_total {x : Except ε α} {P : α → Prop} {Q : ε → Prop}
    (hok : ∀ a, P a → x = ok a) (herror : ∀ e, Q e → x = error e)
    (htotal : (∃ a, P a) ∨ ∃ e, Q e) : (∀ a, x = ok a ↔ P a) ∧ ∀ e, x = error e ↔ Q e := by
  rcases htotal with ⟨a, ha⟩ | ⟨e, he⟩
  · refine ⟨fun b => ⟨fun hb => ?_, hok b⟩, fun e => ⟨fun he => ?_, herror e⟩⟩
    · rw [hok a ha] at hb
      cases hb
      exact ha
    · rw [hok a ha] at he
      cases he
  · refine ⟨fun b => ⟨fun hb => ?_, hok b⟩, fun e' => ⟨fun he' => ?_, herror e'⟩⟩
    · rw [herror e he] at hb
      cases hb
    · rw [herror e he] at he'
      cases he'
      exact he

theorem bind_eq_ok_iff {x : Except ε α} {f : α → Except ε β} {b : β} :
    (x >>= f) = ok b ↔ ∃ a, x = ok a ∧ f a = ok b := by
  cases x <;> simp [bind, Except.bind]

theorem exists_of_map_eq_ok {x : Except ε α} {f : α → β} {b : β} (h : x.map f = ok b) :
    ∃ a, x = ok a ∧ f a = b := by
  cases x with
  | error e => cases h
  | ok a =>
    cases h
    exact ⟨a, rfl, rfl⟩

theorem mapM_eq_ok_iff {f : α → Except ε β} {xs : List α} {ys : List β} :
    xs.mapM f = ok ys ↔ List.Forall₂ (fun x y => f x = ok y) xs ys := by
  induction xs generalizing ys with
  | nil => cases ys <;> simp [pure, Except.pure]
  | cons x later ih =>
    rw [List.mapM_cons, bind_eq_ok_iff]
    simp only [bind_eq_ok_iff, ih, pure, Except.pure, ok.injEq]
    cases ys with
    | nil => simp
    | cons y rest => simp [and_comm, and_assoc]

/-- The first step that fails decides the error. -/
theorem mapM_eq_error_of_first {f : α → Except ε β} {before : List α} {x : α} {e : ε}
    (hbefore : ∀ y ∈ before, ∃ b, f y = ok b) (hx : f x = error e) (later : List α) :
    (before ++ x :: later).mapM f = error e := by
  induction before with
  | nil => rw [List.nil_append, List.mapM_cons, hx]; rfl
  | cons y rest ih =>
    obtain ⟨⟨b, hy⟩, hrest⟩ := List.forall_mem_cons.mp hbefore
    rw [List.cons_append, List.mapM_cons, hy, ih hrest]
    rfl

/-- Translating the errors of the steps translates the error of the whole. -/
theorem foldlM_mapError (f : σ → α → Except ε σ) (g : ε → ε') (xs : List α) (s : σ) :
    xs.foldlM (fun s x => (f s x).mapError g) s = (xs.foldlM f s).mapError g := by
  induction xs generalizing s with
  | nil => rfl
  | cons x later ih =>
    rw [List.foldlM_cons, List.foldlM_cons]
    cases hx : f s x with
    | error e => rfl
    | ok next => exact ih next

end Except
