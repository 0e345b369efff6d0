/-
# `DdsRtps.Lib.ByKey` — a list, one key after the other

The members of a list with one key, the keys in their order and the next key
behind one (`nextKey`).  Who asks for the next key again and again meets every
key once, in order; and the members met are those of the list, in another
order (`perm_flatMap_ofKey`).

`upTo` and `behind` cut a list where a bound is, if there is one.
-/
import Mathlib.Data.Finset.Sort
import Mathlib.Data.List.Perm.Basic
import Mathlib.Order.Lattice

namespace ByKey

/-! ## A bound, or none -/

section Bound

variable {α : Type*}

/-- No more members than the bound, if there is one. -/
def upTo : Option Nat → List α → List α
  | none, l => l
  | some n, l => l.take n

/-- The others. -/
def behind : Option Nat → List α → List α
  | none, _ => []
  | some n, l => l.drop n

theorem upTo_append_behind (n : Option Nat) (l : List α) : upTo n l ++ behind n l = l := by
  cases n with
  | none => exact List.append_nil l
  | some n => exact List.take_append_drop n l

theorem upTo_eq_nil_iff {n : Option Nat} (hn : n ≠ some 0) {l : List α} :
    upTo n l = [] ↔ l = [] := by
  cases n with
  | none => exact Iff.rfl
  | some n =>
      have hpos : n ≠ 0 := fun hzero => hn (congrArg some hzero)
      rw [upTo, List.take_eq_nil_iff]
      exact or_iff_right hpos

theorem mem_of_mem_behind {n : Option Nat} {l : List α} {a : α} (h : a ∈ behind n l) : a ∈ l := by
  rw [← upTo_append_behind n l]
  exact List.mem_append_right _ h

end Bound

/-! ## One key -/

section Key

variable {α κ : Type*} [DecidableEq κ] (key : α → κ)

/-- The members with a key. -/
def ofKey (k : κ) (l : List α) : List α := l.filter fun a => key a = k

variable {key}

theorem mem_ofKey_iff {k : κ} {l : List α} {a : α} : a ∈ ofKey key k l ↔ a ∈ l ∧ key a = k := by
  rw [ofKey, List.mem_filter, decide_eq_true_iff]

theorem ofKey_append (k : κ) (l l' : List α) :
    ofKey key k (l ++ l') = ofKey key k l ++ ofKey key k l' :=
  List.filter_append l l'

theorem ofKey_ofKey {k : κ} {l : List α} (h : ∀ a ∈ l, key a = k) : ofKey key k l = l :=
  List.filter_eq_self.mpr fun a ha => decide_eq_true (h a ha)

theorem ofKey_eq_nil {k : κ} {l : List α} (h : ∀ a ∈ l, key a ≠ k) : ofKey key k l = [] :=
  List.filter_eq_nil_iff.mpr fun a ha => by simpa using h a ha

theorem ofKey_ne_nil_iff {k : κ} {l : List α} : ofKey key k l ≠ [] ↔ k ∈ l.map key := by
  rw [List.mem_map, Ne, List.eq_nil_iff_forall_not_mem, not_forall]
  exact exists_congr fun a => not_not.trans mem_ofKey_iff

/-- Without the members of one key, those of the others are the same. -/
theorem ofKey_filter_ne {k k' : κ} (hne : k' ≠ k) (l : List α) :
    ofKey key k' (l.filter fun a => !decide (key a = k)) = ofKey key k' l := by
  rw [ofKey, ofKey, List.filter_filter]
  refine List.filter_congr fun a _ => ?_
  by_cases hka : key a = k'
  · simp [hka, hne]
  · simp [hka]

/-- One key after the other, the members are those of the list. -/
theorem perm_flatMap_ofKey {keys : List κ} (hnodup : keys.Nodup) {l : List α}
    (hall : ∀ a ∈ l, key a ∈ keys) : (keys.flatMap fun k => ofKey key k l).Perm l := by
  induction keys generalizing l with
  | nil =>
      have hnil : l = [] := List.eq_nil_iff_forall_not_mem.mpr fun a ha =>
        List.not_mem_nil (hall a ha)
      rw [hnil]
      exact .nil
  | cons k keys ih =>
      obtain ⟨hnot, hnodup⟩ := List.nodup_cons.mp hnodup
      have hothers : ∀ a ∈ l.filter fun a => !decide (key a = k), key a ∈ keys := by
        intro a ha
        obtain ⟨ha, hne⟩ := List.mem_filter.mp ha
        exact (List.mem_cons.mp (hall a ha)).resolve_left (by simpa using hne)
      -- of the keys to come, none is dropped with this one
      have hsame : ∀ k' ∈ keys, ofKey key k' (l.filter fun a => !decide (key a = k)) =
          ofKey key k' l := fun k' hk' =>
        ofKey_filter_ne (ne_of_mem_of_not_mem hk' hnot) l
      have hrest := ih hnodup hothers
      rw [List.flatMap_congr hsame] at hrest
      rw [List.flatMap_cons]
      exact (hrest.append_left _).trans (List.filter_append_perm _ l)

end Key

/-! ## The next key -/

section Order

variable {α κ : Type*} [LinearOrder κ] (key : α → κ)

/-- Is this key behind another, or the first? -/
def after (previous : Option κ) (k : κ) : Bool := previous.all (· < k)

/-- The smallest key behind another. -/
def nextKey (previous : Option κ) (l : List α) : Option κ :=
  ((l.map key).filter (after previous)).min?

/-- The keys in their order. -/
def sortedKeys (l : List α) : List κ := (l.map key).toFinset.sort

variable {key}

theorem after_trans {previous : Option κ} {k k' : κ} (h : after previous k = true) (hlt : k < k') :
    after previous k' = true := by
  cases previous with
  | none => rfl
  | some p =>
      rw [after, Option.all_some, decide_eq_true_iff] at h ⊢
      exact h.trans hlt

theorem nextKey_eq_none_iff {previous : Option κ} {l : List α} :
    nextKey key previous l = none ↔ ∀ k ∈ l.map key, after previous k = false := by
  rw [nextKey, List.min?_eq_none_iff, List.filter_eq_nil_iff]
  simp only [Bool.not_eq_true]

/-- There is a first key unless there is no member. -/
theorem nextKey_none_eq_none_iff {l : List α} : nextKey key none l = none ↔ l = [] := by
  rw [nextKey_eq_none_iff]
  constructor
  · intro h
    by_contra hne
    obtain ⟨a, l, rfl⟩ := List.exists_cons_of_ne_nil hne
    have hfirst := h (key a) (by simp)
    cases hfirst
  · rintro rfl
    simp

theorem nextKey_eq_some_iff {previous : Option κ} {l : List α} {k : κ} :
    nextKey key previous l = some k ↔ (k ∈ l.map key ∧ after previous k = true) ∧
      ∀ k' ∈ l.map key, after previous k' = true → k ≤ k' := by
  rw [nextKey, List.min?_eq_some_iff, List.mem_filter]
  refine and_congr_right fun _ => forall_congr' fun k' => ?_
  rw [List.mem_filter]
  exact and_imp

theorem mem_sortedKeys_iff {l : List α} {k : κ} : k ∈ sortedKeys key l ↔ k ∈ l.map key := by
  rw [sortedKeys, Finset.mem_sort, List.mem_toFinset]

variable (key) in
theorem pairwise_sortedKeys (l : List α) : (sortedKeys key l).Pairwise (· < ·) :=
  (Finset.sortedLT_sort _).pairwise

end Order

end ByKey
