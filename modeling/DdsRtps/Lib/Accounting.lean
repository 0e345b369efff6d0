/-
# `DdsRtps.Lib.Accounting` — what becomes of what arrives

Items arrive and wait, and are handled one by one or get lost while they wait.
`Accounts` says of four lists that each item is in exactly one place, and that
the items with the same key have not overtaken each other.  A key that is the
same for all items makes that a queue.

What one party does to its lists is a lemma here: more items come and some of
those that wait are lost (`Accounts.change`), or an item goes from one place
to the next (`Accounts.move`).
-/
import DdsRtps.Lib.ByKey
import Mathlib.Data.List.Perm.Subperm

namespace ByKey

variable {α κ : Type*} [DecidableEq κ] (key : α → κ)

/-- The members of each key are the same, in the same order. -/
def SameByKey (l l' : List α) : Prop := ∀ k, ofKey key k l = ofKey key k l'

variable {key}

theorem SameByKey.of_eq {l l' : List α} (h : l = l') : SameByKey key l l' := by
  rw [h]
  exact fun k => rfl

theorem SameByKey.append_left {l l' : List α} (h : SameByKey key l l') (l₀ : List α) :
    SameByKey key (l₀ ++ l) (l₀ ++ l') := by
  intro k
  rw [ofKey_append, ofKey_append, h k]

theorem ofKey_perm {l l' : List α} (h : l.Perm l') (k : κ) :
    (ofKey key k l).Perm (ofKey key k l') := h.filter _

theorem ofKey_sublist {l l' : List α} (h : l.Sublist l') (k : κ) :
    (ofKey key k l).Sublist (ofKey key k l') := h.filter _

theorem SameByKey.perm {l l' : List α} (h : SameByKey key l l') : l.Perm l' := by
  classical
  rw [List.perm_iff_count]
  intro a
  have hcount : ∀ l : List α, (ofKey key (key a) l).count a = l.count a := fun l =>
    List.count_filter (by simp)
  rw [← hcount, h, hcount]

/-- Sorting by the key does not change what is in it. -/
theorem sameByKey_mergeSort {κ : Type*} [LinearOrder κ] (key : α → κ) (l : List α) :
    SameByKey key (l.mergeSort fun a b => decide (key a ≤ key b)) l := by
  intro k
  have hsub : (ofKey key k l).Sublist (l.mergeSort fun a b => decide (key a ≤ key b)) := by
    refine List.sublist_mergeSort ?_ ?_ ?_ List.filter_sublist
    · intro a b c hab hbc
      simp only [decide_eq_true_eq] at hab hbc ⊢
      exact hab.trans hbc
    · intro a b
      simpa using le_total (key a) (key b)
    · refine List.pairwise_iff_forall_sublist.mpr fun {a b} hab => ?_
      have ha := (mem_ofKey_iff.mp (hab.subset List.mem_cons_self)).2
      have hb := (mem_ofKey_iff.mp (hab.subset (List.mem_cons_of_mem _ List.mem_cons_self))).2
      simp [ha, hb]
  have hkeys : (ofKey key k (ofKey key k l)).Sublist _ := ofKey_sublist hsub k
  rw [ofKey_ofKey fun a ha => (mem_ofKey_iff.mp ha).2] at hkeys
  exact (hkeys.eq_of_length (ofKey_perm (List.mergeSort_perm l _) k).length_eq.symm).symm

variable (key) in
/-- Each item that has arrived is handled, waits or is lost, and those that are
handled and those that wait are in the order in which they arrived. -/
structure Accounts (arrived handled waiting lost : List α) : Prop where
  once : arrived.Perm (handled ++ waiting ++ lost)
  inOrder : ∀ k, (ofKey key k (handled ++ waiting)).Sublist (ofKey key k arrived)

variable {arrived handled waiting lost : List α}

theorem accounts_nil : Accounts key [] [] [] [] := ⟨.nil, fun _ => .slnil⟩

/-- More items come, and some of those that wait are lost. -/
theorem Accounts.change (h : Accounts key arrived handled waiting lost)
    {new waiting' gone : List α} (hkept : waiting'.Sublist (waiting ++ new))
    (hgone : (waiting ++ new).Perm (waiting' ++ gone)) :
    Accounts key (arrived ++ new) handled waiting' (lost ++ gone) := by
  constructor
  · have hmore : (arrived ++ new).Perm (handled ++ (waiting ++ new) ++ lost) := by
      refine (h.once.append_right new).trans ?_
      simp only [List.append_assoc]
      exact ((List.perm_append_comm.append_left waiting).append_left handled)
    refine hmore.trans ?_
    refine ((hgone.append_left handled).append_right lost).trans ?_
    simp only [List.append_assoc]
    exact ((List.perm_append_comm.append_left waiting').append_left handled)
  · intro k
    have hsub : (ofKey key k (handled ++ waiting')).Sublist _ :=
      ofKey_sublist (hkept.append_left handled) k
    refine hsub.trans ?_
    rw [← List.append_assoc, ofKey_append, ofKey_append (l := arrived)]
    exact (h.inOrder k).append_right _

/-- Items go from one place to the next. -/
theorem Accounts.move (h : Accounts key arrived handled waiting lost)
    {handled' waiting' : List α}
    (hsame : SameByKey key (handled ++ waiting) (handled' ++ waiting')) :
    Accounts key arrived handled' waiting' lost := by
  constructor
  · exact h.once.trans (hsame.perm.append_right lost)
  · intro k
    rw [← hsame k]
    exact h.inOrder k

end ByKey
