/-
# `DdsRtps.Lib.Quoted` — texts between quotes

`enclose` puts a text between two quotes, and `read` takes it out again, where
nothing in it ends it before.  `read_eq_some_iff` says that there is no other
way to read one, and so a text that was cut behind the first quote is never read
as the whole (`read_take_enclose`).
-/
import Mathlib.Data.List.Basic

namespace Quoted

variable {α : Type*}

/-- The text between quotes. -/
def enclose (q : α) (text : List α) : List α := q :: text ++ [q]

/-- Nothing in the text ends it. -/
def Plain (ends : α → Bool) (text : List α) : Prop := ∀ a ∈ text, ends a = false

instance (ends : α → Bool) (text : List α) : Decidable (Plain ends text) :=
  List.decidableBAll (fun a => ends a = false) text

theorem length_enclose (q : α) (text : List α) : (enclose q text).length = text.length + 2 := by
  rw [enclose, List.length_append, List.length_cons, List.length_singleton]

variable [DecidableEq α] {q : α} {ends : α → Bool}

/-- What stands between two quotes, if the text is that, and nothing ends it before. -/
def read (q : α) (ends : α → Bool) : List α → Option (List α)
  | [] => none
  | a :: rest =>
      if a = q ∧ rest.getLast? = some q ∧ rest.dropLast.all (! ends ·) then some rest.dropLast
      else none

theorem read_eq_some_iff {text body : List α} :
    read q ends text = some body ↔ text = enclose q body ∧ Plain ends body := by
  have hplain : ∀ l : List α, l.all (! ends ·) = true ↔ Plain ends l := by
    intro l
    rw [List.all_eq_true]
    exact forall₂_congr fun a _ => by rw [Bool.not_eq_true']
  constructor
  · intro h
    cases text with
    | nil => cases h
    | cons a rest =>
        rw [read] at h
        split at h
        · rename_i hand
          obtain ⟨rfl, hlast, hall⟩ := hand
          obtain rfl := Option.some.inj h
          refine ⟨?_, (hplain _).mp hall⟩
          rw [enclose, List.cons_append]
          congr 1
          obtain ⟨init, rfl⟩ := List.getLast?_eq_some_iff.mp hlast
          rw [List.dropLast_concat]
        · cases h
  · rintro ⟨rfl, h⟩
    rw [enclose, List.cons_append, read, List.dropLast_concat]
    exact if_pos ⟨rfl, List.getLast?_concat, (hplain body).mpr h⟩

/-- What was cut is not read as the whole. -/
theorem read_take_enclose {body : List α} {n : Nat} :
    read q ends ((enclose q body).take n) = some body ↔ body.length + 2 ≤ n ∧ Plain ends body := by
  rw [read_eq_some_iff, ← length_enclose q body]
  refine and_congr_left fun _ => ⟨fun h => ?_, List.take_of_length_le⟩
  rw [← h]
  exact List.length_take_le _ _

end Quoted
