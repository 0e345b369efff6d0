/-
# `DdsRtps.Lib.PagedTree` — trees that are listed in parts

The children of a node are listed in two parts, and a child may be a node again.
A walk that looks at both parts gives all leaves of a tree (`Whole`); one that
looks at the second part only gives what it keeps of them (`Kept`).

Of the leaves of some kind the second walk misses none exactly if no node that it
comes to lists one in its first part, or a tree with one
(`Whole.exists_kept_perm_iff`).
-/
import Mathlib.Data.List.Flatten
import Mathlib.Data.List.Perm.Basic
import Mathlib.Logic.Relation

/-- Nodes, and what they list; a child that is a node is `sub`. -/
structure PagedTree (ι α : Type*) where
  sub : α → Option ι
  Lists : ι → List α → List α → Prop
  unique : ∀ {i before last before' last'},
    Lists i before last → Lists i before' last' → before = before' ∧ last = last'

namespace PagedTree

variable {ι α : Type*} (t : PagedTree ι α)

/-- The leaves of a child, given those of the nodes. -/
def leaves (below : α → List α) (a : α) : List α := if (t.sub a).isSome then below a else [a]

/-- All leaves of a tree, which is finite. -/
inductive Whole : ι → List α → Prop
  | node {i : ι} {before last : List α} {below : α → List α} (h : t.Lists i before last)
      (hbelow : ∀ a ∈ before ++ last, ∀ j, t.sub a = some j → Whole j (below a)) :
      Whole i ((before ++ last).flatMap (t.leaves below))

/-- The leaves that are kept of it. -/
inductive Kept : ι → List α → Prop
  | node {i : ι} {before last : List α} {below : α → List α} (h : t.Lists i before last)
      (hbelow : ∀ a ∈ last, ∀ j, t.sub a = some j → Kept j (below a)) :
      Kept i (last.flatMap (t.leaves below))

/-- The second part of a node lists another one. -/
def Next (i j : ι) : Prop := ∃ before last a, t.Lists i before last ∧ a ∈ last ∧ t.sub a = some j

/-- The first part of a node has no leaf of a kind, and no tree with one. -/
def NothingBefore (p : α → Bool) (i : ι) : Prop :=
  ∀ before last, t.Lists i before last → ∀ a ∈ before,
    (t.sub a = none → p a = false) ∧
      ∀ j, t.sub a = some j → ∀ all, t.Whole j all → ∀ b ∈ all, p b = false

/-- No node that the walk comes to has. -/
def Complete (p : α → Bool) (i : ι) : Prop :=
  ∀ j, Relation.ReflTransGen t.Next i j → t.NothingBefore p j

variable {t} {i : ι} {before last all kept : List α} {p : α → Bool}

theorem complete_iff : t.Complete p i ↔ t.NothingBefore p i ∧ ∀ j, t.Next i j → t.Complete p j := by
  constructor
  · intro h
    exact ⟨h i .refl, fun j hj k hk => h k (.head hj hk)⟩
  · rintro ⟨hi, hnext⟩ k hk
    rcases hk.cases_head with rfl | ⟨j, hj, hk⟩
    · exact hi
    · exact hnext j hj k hk

/-- None of two kinds is missed. -/
theorem complete_or {q : α → Bool} :
    t.Complete (fun a => p a || q a) i ↔ t.Complete p i ∧ t.Complete q i := by
  simp only [Complete, NothingBefore, Bool.or_eq_false_iff]
  constructor
  · intro h
    refine ⟨fun j hj before last hlists a ha => ?_, fun j hj before last hlists a ha => ?_⟩
    · obtain ⟨hleaf, htree⟩ := h j hj before last hlists a ha
      exact ⟨fun hsub => (hleaf hsub).1, fun k hsub all hall b hb =>
        (htree k hsub all hall b hb).1⟩
    · obtain ⟨hleaf, htree⟩ := h j hj before last hlists a ha
      exact ⟨fun hsub => (hleaf hsub).2, fun k hsub all hall b hb =>
        (htree k hsub all hall b hb).2⟩
  · rintro ⟨hp, hq⟩ j hj before last hlists a ha
    obtain ⟨hleaf, htree⟩ := hp j hj before last hlists a ha
    obtain ⟨hleaf', htree'⟩ := hq j hj before last hlists a ha
    exact ⟨fun hsub => ⟨hleaf hsub, hleaf' hsub⟩, fun k hsub all hall b hb =>
      ⟨htree k hsub all hall b hb, htree' k hsub all hall b hb⟩⟩

theorem leaves_of_none {below : α → List α} {a : α} (h : t.sub a = none) :
    t.leaves below a = [a] := by
  rw [leaves, h]
  rfl

theorem leaves_of_some {below : α → List α} {a : α} {j : ι} (h : t.sub a = some j) :
    t.leaves below a = below a := by
  rw [leaves, h]
  rfl

/-- The leaves of the nodes matter, not how they are given. -/
theorem leaves_congr {below below' : α → List α} {a : α}
    (h : ∀ j, t.sub a = some j → below a = below' a) : t.leaves below a = t.leaves below' a := by
  cases hsub : t.sub a with
  | none => rw [leaves_of_none hsub, leaves_of_none hsub]
  | some j => rw [leaves_of_some hsub, leaves_of_some hsub, h j hsub]

theorem Whole.unique {all' : List α} (h : t.Whole i all) (h' : t.Whole i all') : all = all' := by
  induction h generalizing all' with
  | node hlists _ ih =>
      cases h' with
      | node hlists' hbelow' =>
          obtain ⟨rfl, rfl⟩ := t.unique hlists hlists'
          exact List.flatMap_congr fun a ha =>
            leaves_congr fun j hj => ih a ha j hj (hbelow' a ha j hj)

/-! ## What is kept -/

/-- Sublists one after another have as many of a kind as the lists exactly if each has. -/
theorem countP_flatMap_eq_iff {β : Type*} {f g : β → List α} {l : List β}
    (h : ∀ b ∈ l, (f b).Sublist (g b)) :
    (l.flatMap f).countP p = (l.flatMap g).countP p ↔
      ∀ b ∈ l, (f b).countP p = (g b).countP p := by
  induction l with
  | nil => simp
  | cons b l ih =>
      rw [List.forall_mem_cons] at h
      have hb := h.1.countP_le (p := p)
      have hl := (List.Sublist.flatMap_right l h.2).countP_le (p := p)
      have hrest := ih h.2
      rw [List.flatMap_cons, List.flatMap_cons, List.countP_append, List.countP_append,
        List.forall_mem_cons, ← hrest]
      omega

/-- The leaves of the first part, given those of the nodes. -/
theorem nothingBefore_iff {below : α → List α} (hlists : t.Lists i before last)
    (hbelow : ∀ a ∈ before, ∀ j, t.sub a = some j → t.Whole j (below a)) :
    t.NothingBefore p i ↔ ∀ a ∈ before, ∀ b ∈ t.leaves below a, p b = false := by
  constructor
  · intro h a ha b hb
    obtain ⟨hleaf, htree⟩ := h before last hlists a ha
    cases hsub : t.sub a with
    | none =>
        rw [leaves_of_none hsub, List.mem_singleton] at hb
        rw [hb]
        exact hleaf hsub
    | some j =>
        rw [leaves_of_some hsub] at hb
        exact htree j hsub (below a) (hbelow a ha j hsub) b hb
  · intro h before' last' hlists' a ha
    obtain ⟨rfl, rfl⟩ := t.unique hlists hlists'
    constructor
    · intro hsub
      refine h a ha a ?_
      rw [leaves_of_none hsub]
      exact List.mem_singleton_self a
    · intro j hsub all hall b hb
      refine h a ha b ?_
      rw [leaves_of_some hsub, (hbelow a ha j hsub).unique hall]
      exact hb

/-- What a node keeps of its leaves, given that for the nodes below it. -/
theorem countP_node_eq_iff {below below' : α → List α} (hlists : t.Lists i before last)
    (hbelow : ∀ a ∈ before ++ last, ∀ j, t.sub a = some j → t.Whole j (below a))
    (hkept : ∀ a ∈ last, ∀ j, t.sub a = some j → (below' a).Sublist (below a) ∧
      ((below' a).countP p = (below a).countP p ↔ t.Complete p j)) :
    (last.flatMap (t.leaves below')).countP p =
        ((before ++ last).flatMap (t.leaves below)).countP p ↔ t.Complete p i := by
  have hsublist : ∀ a ∈ last, (t.leaves below' a).Sublist (t.leaves below a) := by
    intro a ha
    cases hsub : t.sub a with
    | none =>
        rw [leaves_of_none hsub, leaves_of_none hsub]
    | some j =>
        rw [leaves_of_some hsub, leaves_of_some hsub]
        exact (hkept a ha j hsub).1
  have hle := (List.Sublist.flatMap_right last hsublist).countP_le (p := p)
  have hbefore : (before.flatMap (t.leaves below)).countP p = 0 ↔ t.NothingBefore p i := by
    rw [nothingBefore_iff hlists fun a ha => hbelow a (List.mem_append_left last ha),
      List.countP_eq_zero]
    simp only [List.mem_flatMap, forall_exists_index, and_imp, Bool.not_eq_true]
    exact ⟨fun h a ha b hb => h b a ha hb, fun h b a ha hb => h a ha b hb⟩
  have hlast : (∀ a ∈ last, (t.leaves below' a).countP p = (t.leaves below a).countP p) ↔
      ∀ j, t.Next i j → t.Complete p j := by
    constructor
    · rintro h j ⟨before', last', a, hlists', ha, hsub⟩
      obtain ⟨rfl, rfl⟩ := t.unique hlists hlists'
      have hcount := h a ha
      rw [leaves_of_some hsub, leaves_of_some hsub] at hcount
      exact (hkept a ha j hsub).2.mp hcount
    · intro h a ha
      cases hsub : t.sub a with
      | none => rw [leaves_of_none hsub, leaves_of_none hsub]
      | some j =>
          rw [leaves_of_some hsub, leaves_of_some hsub]
          exact (hkept a ha j hsub).2.mpr (h j ⟨before, last, a, hlists, ha, hsub⟩)
  rw [complete_iff, ← hbefore, ← hlast, ← countP_flatMap_eq_iff hsublist, List.flatMap_append,
    List.countP_append]
  omega

/-- Of a finite tree something is kept, of each kind all of it or not. -/
theorem Whole.exists_kept (h : t.Whole i all) :
    ∃ kept, t.Kept i kept ∧ kept.Sublist all ∧
      ∀ p, kept.countP p = all.countP p ↔ t.Complete p i := by
  induction h with
  | @node i before last below hlists hbelow ih =>
      have hkept : ∀ a, ∃ kept, a ∈ last → ∀ j, t.sub a = some j →
          t.Kept j kept ∧ kept.Sublist (below a) ∧
            ∀ p, kept.countP p = (below a).countP p ↔ t.Complete p j := by
        intro a
        by_cases ha : a ∈ last ∧ ∃ j, t.sub a = some j
        · obtain ⟨ha, j, hsub⟩ := ha
          obtain ⟨kept, hkept⟩ := ih a (List.mem_append_right before ha) j hsub
          refine ⟨kept, fun _ j' hsub' => ?_⟩
          obtain rfl := Option.some.inj (hsub.symm.trans hsub')
          exact hkept
        · exact ⟨[], fun ha' j hsub => absurd ⟨ha', j, hsub⟩ ha⟩
      choose below' hbelow' using hkept
      refine ⟨last.flatMap (t.leaves below'), .node hlists fun a ha j hsub =>
        (hbelow' a ha j hsub).1, ?_, fun p => countP_node_eq_iff hlists hbelow fun a ha j hsub =>
          ⟨(hbelow' a ha j hsub).2.1, (hbelow' a ha j hsub).2.2 p⟩⟩
      rw [List.flatMap_append]
      refine List.Sublist.trans ?_ (List.sublist_append_right _ _)
      refine List.Sublist.flatMap_right last fun a ha => ?_
      cases hsub : t.sub a with
      | none => rw [leaves_of_none hsub, leaves_of_none hsub]
      | some j =>
          rw [leaves_of_some hsub, leaves_of_some hsub]
          exact (hbelow' a ha j hsub).2.1

/-- **None of a kind is missed** exactly if nothing of it comes before the last parts. -/
theorem Whole.exists_kept_perm_iff (h : t.Whole i all) :
    ∃ kept, t.Kept i kept ∧
      ∀ p, (kept.filter p).Perm (all.filter p) ↔ t.Complete p i := by
  obtain ⟨kept, hkept, hsublist, hcount⟩ := h.exists_kept
  refine ⟨kept, hkept, fun p => ?_⟩
  rw [← hcount p, List.countP_eq_length_filter, List.countP_eq_length_filter]
  constructor
  · exact List.Perm.length_eq
  · intro hlength
    rw [(hsublist.filter p).eq_of_length hlength]

end PagedTree
