/-
# `DdsRtps.Lib.PyError` — exceptions of Python

A computation ends with a value or raises.  A loop ends exactly if all its
steps do; when a step depends on the state only in what it ends with, this is
a condition on what the loop runs over (`foldlM_ok_iff`).
-/
import Mathlib.Data.List.Basic

/-- An exception that a program raises. -/
inductive PyError where
  | valueError
  | typeError
  | indexError
  | keyError
  | attributeError
  | overflowError
deriving DecidableEq, Repr

namespace PyError

variable {α β σ : Type}

theorem ok_bind (a : α) (f : α → Except PyError β) :
    ((.ok a : Except PyError α) >>= f) = f a := rfl

theorem pure_eq (a : α) : (pure a : Except PyError α) = .ok a := rfl

theorem error_bind (e : PyError) (f : α → Except PyError β) :
    ((.error e : Except PyError α) >>= f) = .error e := rfl

theorem bind_eq_ok_iff {x : Except PyError α} {f : α → Except PyError β} {b : β} :
    x >>= f = .ok b ↔ ∃ a, x = .ok a ∧ f a = .ok b := by
  cases x with
  | error e => simp [error_bind]
  | ok a => simp [ok_bind]

theorem toOption_eq_some_iff {x : Except PyError α} {a : α} :
    x.toOption = some a ↔ x = .ok a := by
  cases x with
  | error e => exact ⟨nofun, nofun⟩
  | ok b => exact ⟨fun h => congrArg _ (Option.some.inj h), fun h => congrArg _ (Except.ok.inj h)⟩

/-- A computation of which something is known ended. -/
theorem exists_ok_of_toOption_map {ε : Type} {x : Except ε α} {f : α → β} {b : β}
    (h : x.toOption.map f = some b) : ∃ a, x = .ok a ∧ f a = b := by
  cases x with
  | error e => cases h
  | ok a => exact ⟨a, rfl, Option.some.inj h⟩

/-- Two computations after another, the second of which raises or not whatever
the first gives. -/
theorem exists_bind_ok_iff {x : Except PyError α} {f : α → Except PyError β} {P Q : Prop}
    (hx : (∃ a, x = .ok a) ↔ P) (hf : ∀ a, (∃ b, f a = .ok b) ↔ Q) :
    (∃ b, x >>= f = .ok b) ↔ P ∧ Q := by
  rw [← hx]
  constructor
  · intro ⟨b, hb⟩
    obtain ⟨a, ha, hfa⟩ := bind_eq_ok_iff.mp hb
    exact ⟨⟨a, ha⟩, (hf a).mp ⟨b, hfa⟩⟩
  · intro ⟨⟨a, ha⟩, hQ⟩
    rw [ha, ok_bind]
    exact (hf a).mpr hQ

/-! ## Loops -/

variable {f : σ → α → Except PyError σ}

theorem foldlM_cons (s : σ) (a : α) (l : List α) :
    (a :: l).foldlM f s = f s a >>= fun s' => l.foldlM f s' := rfl

theorem foldlM_append (s : σ) (l l' : List α) :
    (l ++ l').foldlM f s = l.foldlM f s >>= fun s' => l'.foldlM f s' :=
  List.foldlM_append

/-- A loop that never raises. -/
theorem foldlM_eq_foldl {g : σ → α → σ} {l : List α} (h : ∀ s, ∀ a ∈ l, f s a = .ok (g s a))
    (s : σ) : l.foldlM f s = .ok (l.foldl g s) := by
  induction l generalizing s with
  | nil => rfl
  | cons a l ih =>
      rw [foldlM_cons, h s a List.mem_cons_self, ok_bind, List.foldl_cons]
      exact ih (fun s a ha => h s a (List.mem_cons_of_mem _ ha)) (g s a)

/-- A loop in which one step raises, and the others raise nothing else. -/
theorem foldlM_eq_error {e : PyError} {l : List α} {bad : α → Bool} (hbad : l.any bad = true)
    (h : ∀ s, ∀ a ∈ l, bad a = true → f s a = .error e)
    (hgood : ∀ s, ∀ a ∈ l, bad a = false → ∃ s', f s a = .ok s') (s : σ) :
    l.foldlM f s = .error e := by
  induction l generalizing s with
  | nil => cases hbad
  | cons a l ih =>
      rw [foldlM_cons]
      cases ha : bad a with
      | true => rw [h s a List.mem_cons_self ha, error_bind]
      | false =>
          obtain ⟨s', hs'⟩ := hgood s a List.mem_cons_self ha
          rw [List.any_cons, ha, Bool.false_or] at hbad
          rw [hs', ok_bind]
          exact ih hbad (fun s a ha => h s a (List.mem_cons_of_mem _ ha))
            (fun s a ha => hgood s a (List.mem_cons_of_mem _ ha)) s'

/-- A loop ends exactly if no step raises. -/
theorem foldlM_ok_iff {good : α → Prop} {l : List α}
    (h : ∀ s, ∀ a ∈ l, (∃ s', f s a = .ok s') ↔ good a) (s : σ) :
    (∃ s', l.foldlM f s = .ok s') ↔ ∀ a ∈ l, good a := by
  induction l generalizing s with
  | nil => exact ⟨fun _ => List.forall_mem_nil _, fun _ => ⟨s, rfl⟩⟩
  | cons a l ih =>
      have ha := h s a List.mem_cons_self
      have ih := ih fun s b hb => h s b (List.mem_cons_of_mem _ hb)
      rw [List.forall_mem_cons, ← ha, foldlM_cons]
      constructor
      · rintro ⟨s', hs'⟩
        obtain ⟨t, ht, hrest⟩ := bind_eq_ok_iff.mp hs'
        exact ⟨⟨t, ht⟩, (ih t).mp ⟨s', hrest⟩⟩
      · rintro ⟨⟨t, ht⟩, hrest⟩
        rw [ht, ok_bind]
        exact (ih t).mpr hrest

end PyError
