/-
# `DdsRtps.Lib.FirstMax` — the first of the largest

A scan that keeps the best so far and replaces it by what is strictly better.
What it ends with is not smaller than anything it has seen, and of several that
are largest it is the first.
-/
import Mathlib.Order.Lattice
import Mathlib.Tactic.TypeStar

section
variable {α β : Type*} [LinearOrder β] (f : α → β)

/-- The element of `a :: l` with the largest value, and the first such. -/
def firstMax (a : α) (l : List α) : α :=
  l.foldl (fun best c => if f best < f c then c else best) a

@[simp] theorem firstMax_nil (a : α) : firstMax f a [] = a := rfl

theorem firstMax_cons (a b : α) (l : List α) :
    firstMax f a (b :: l) = firstMax f (if f a < f b then b else a) l := rfl

theorem firstMax_mem (a : α) (l : List α) : firstMax f a l ∈ a :: l := by
  induction l generalizing a with
  | nil => exact List.mem_cons_self
  | cons b l ih =>
      rw [firstMax_cons]
      have hmem := ih (if f a < f b then b else a)
      rcases List.mem_cons.mp hmem with heq | hl
      · rw [heq]
        split
        · simp
        · simp
      · exact List.mem_cons_of_mem _ (List.mem_cons_of_mem _ hl)

theorem le_firstMax_head (a : α) (l : List α) : f a ≤ f (firstMax f a l) := by
  induction l generalizing a with
  | nil => exact le_rfl
  | cons b l ih =>
      rw [firstMax_cons]
      refine le_trans ?_ (ih _)
      split
      · next h => exact le_of_lt h
      · exact le_rfl

theorem le_firstMax {a x : α} {l : List α} (hx : x ∈ a :: l) : f x ≤ f (firstMax f a l) := by
  induction l generalizing a with
  | nil =>
      obtain rfl := List.mem_singleton.mp hx
      exact le_rfl
  | cons b l ih =>
      rw [firstMax_cons]
      rcases List.mem_cons.mp hx with rfl | hx
      · refine le_trans ?_ (le_firstMax_head f _ l)
        split
        · next h => exact le_of_lt h
        · exact le_rfl
      · rcases List.mem_cons.mp hx with rfl | hx
        · refine le_trans ?_ (le_firstMax_head f _ l)
          split
          · exact le_rfl
          · next h => exact not_lt.mp h
        · exact ih (List.mem_cons_of_mem _ hx)

/-- A head that is not exceeded stays. -/
theorem firstMax_eq_head {a : α} {l : List α} (h : ∀ x ∈ l, f x ≤ f a) : firstMax f a l = a := by
  induction l with
  | nil => rfl
  | cons b l ih =>
      rw [firstMax_cons, if_neg (not_lt.mpr (h b List.mem_cons_self))]
      exact ih fun x hx => h x (List.mem_cons_of_mem _ hx)

end
