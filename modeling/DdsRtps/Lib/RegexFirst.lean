/-
# `DdsRtps.Lib.RegexFirst` — the match at the head, part by part

What `first` reports for a regex, from what it reports for the parts: a sequence in
which no part has to give way, the left of two alternatives, letters of a class as
far as they go.  So the match of a text that was put together after a regex is
computed along the text.

`search` passes over what begins nothing, to the first match behind it.  At two
letters that come together once, every match cuts the text in the same place
(`append_pair_inj`).
-/
import DdsRtps.Lib.Regex
import Mathlib.Data.List.Chain

namespace Regex

variable {α : Type*} {r s : Regex α} {p q : α → Bool} {t t' u v w : List α} {cs ds : Captures α}

/-! ## Sequences and alternatives -/

theorem first_empty (t : List α) : first (.empty : Regex α) t = some ([], [], t) := rfl

theorem first_one {a : α} (h : p a = true) (t : List α) :
    first (.one p) (a :: t) = some ([a], [], t) := by
  simp [first, run, h]

/-- Neither of two parts gives way. -/
theorem first_seq (hr : first r t = some (u, cs, t')) (hs : first s t' = some (v, ds, w)) :
    first (.seq r s) t = some (u ++ v, cs ++ ds, w) := by
  obtain ⟨more, hmore⟩ := List.head?_eq_some_iff.mp hr
  obtain ⟨more', hmore'⟩ := List.head?_eq_some_iff.mp hs
  simp [first, run, hmore, hmore']

theorem first_alt_left {m : List α × Captures α × List α} (h : first r t = some m) :
    first (.alt r s) t = some m := by
  obtain ⟨more, hmore⟩ := List.head?_eq_some_iff.mp h
  simp [first, run, hmore]

theorem first_alt_right (h : first r t = none) : first (.alt r s) t = first s t := by
  have hnil : run r t = [] := List.head?_eq_none_iff.mp h
  rw [first, run, hnil, List.nil_append]
  rfl

theorem first_group (n : Nat) (h : first r t = some (u, cs, v)) :
    first (.group n r) t = some (u, (n, u) :: cs, v) := by
  obtain ⟨more, hmore⟩ := List.head?_eq_some_iff.mp h
  simp [first, run, hmore]

theorem first_optional {m : List α × Captures α × List α} (h : first r t = some m) :
    first (optional r) t = some m :=
  first_alt_left h

/-! ## Letters -/

/-- The longest way comes first. -/
theorem head?_takes (hu : ∀ a ∈ u, p a = true) (hv : StartsOutside p v) :
    (takes p (u ++ v)).head? = some (u, v) := by
  induction u with
  | nil =>
      cases v with
      | nil => rfl
      | cons a v => simp [takes, hv a rfl]
  | cons a u ih =>
      rw [List.forall_mem_cons] at hu
      obtain ⟨more, hmore⟩ := List.head?_eq_some_iff.mp (ih hu.2)
      simp [takes, hu.1, hmore]

theorem first_many (hu : ∀ a ∈ u, p a = true) (hv : StartsOutside p v) :
    first (.star true p) (u ++ v) = some (u, [], v) := by
  obtain ⟨more, hmore⟩ := List.head?_eq_some_iff.mp (head?_takes hu hv)
  simp [first, run, hmore]

theorem first_plus (hne : u ≠ []) (hu : ∀ a ∈ u, p a = true) (hv : StartsOutside p v) :
    first (plus p) (u ++ v) = some (u, [], v) := by
  obtain ⟨a, u, rfl⟩ := List.exists_cons_of_ne_nil hne
  rw [List.forall_mem_cons] at hu
  exact first_seq (first_one hu.1 (u ++ v)) (first_many hu.2 hv)

theorem first_lit [DecidableEq α] (u v : List α) : first (lit u) (u ++ v) = some (u, [], v) := by
  induction u with
  | nil => exact first_empty v
  | cons a u ih => exact first_seq (first_one (p := (· = a)) (by simp) (u ++ v)) ih

theorem first_times {n : Nat} (hlength : u.length = n) (hu : ∀ a ∈ u, p a = true) (v : List α) :
    first (times p n) (u ++ v) = some (u, [], v) := by
  induction u generalizing n with
  | nil =>
      obtain rfl := hlength
      exact first_empty v
  | cons a u ih =>
      obtain rfl := hlength
      rw [List.forall_mem_cons] at hu
      exact first_seq (first_one hu.1 (u ++ v)) (ih rfl hu.2)

/-- A text that begins with another letter. -/
theorem first_lit_eq_none [DecidableEq α] {a b : α} (h : a ≠ b) (u v : List α) :
    first (lit (a :: u)) (b :: v) = none := by
  simp [first, lit, run, h.symm]

theorem parse_times {n : Nat} (h : Parse (times p n) u cs) :
    u.length = n ∧ (∀ a ∈ u, p a = true) ∧ cs = [] := by
  induction n generalizing u cs with
  | zero =>
      obtain ⟨rfl, rfl⟩ := h
      exact ⟨rfl, List.forall_mem_nil _, rfl⟩
  | succ n ih =>
      obtain ⟨_, _, v, ds, ⟨a, ha, rfl, rfl⟩, hv, rfl, rfl⟩ := h
      obtain ⟨rfl, hall, rfl⟩ := ih hv
      exact ⟨rfl, List.forall_mem_cons.mpr ⟨ha, hall⟩, rfl⟩

/-! ## Searching -/

theorem search_of_first (h : first r t = some (u, cs, v)) :
    search r t = some ⟨[], u, cs, v⟩ := by
  cases t with
  | nil => rw [search, h, Option.map_some]
  | cons a t => rw [search, h]

/-- What begins nothing is passed over. -/
theorem search_quiet {before : List α} (h : QuietBefore r before t) :
    search r (before ++ t) =
      (search r t).map fun m => { m with before := before ++ m.before } := by
  induction before with
  | nil =>
      show search r t = (search r t).map fun m => m
      rw [Option.map_id']
  | cons a before ih =>
      rw [List.cons_append, search, h.head, ih h.tail, Option.map_map]
      rfl

/-- The first match, behind what begins nothing. -/
theorem search_eq_some {before : List α} (h : QuietBefore r before (u ++ v))
    (hfirst : first r (u ++ v) = some (u, cs, v)) :
    search r (before ++ (u ++ v)) = some ⟨before, u, cs, v⟩ := by
  rw [search_quiet h, search_of_first hfirst, Option.map_some, List.append_nil]

/-- A match begins with two letters that nowhere stand together. -/
theorem quietBefore_of_isChain {before : List α} {a : α}
    (hr : ∀ u cs, Parse r u cs → ∃ x y u', u = x :: y :: u' ∧ p x = true ∧ q y = true)
    (h : (before ++ [a]).IsChain fun x y => ¬(p x = true ∧ q y = true)) (t : List α) :
    QuietBefore r before (a :: t) := by
  rintro b x c rfl
  rw [first_eq_none_iff]
  intro u v cs hu hp
  obtain ⟨x', y, u', rfl, hx, hy⟩ := hr u cs hp
  obtain ⟨rfl, htail⟩ := List.cons.inj hu
  have hpair := List.isChain_iff_forall_rel_of_append_cons_cons.mp h
  cases c with
  | nil =>
      obtain ⟨rfl, -⟩ := List.cons.inj htail
      exact hpair (List.append_assoc b [x] [a]) ⟨hx, hy⟩
  | cons d c =>
      obtain ⟨rfl, -⟩ := List.cons.inj htail
      exact hpair (List.append_assoc b (x :: d :: c) [a]) ⟨hx, hy⟩

/-! ## Cutting a text at two letters -/

/-- Two letters that come together once only: the first is not in `s`, the second nowhere
else behind it. -/
theorem append_pair_inj {a b : α} {before after s s' after' : List α} (hs : a ∉ s)
    (hs' : b ∉ s' ++ [a]) (hafter' : b ∉ after')
    (h : before ++ a :: b :: after = s ++ (s' ++ a :: b :: after')) : after = after' := by
  have hbehind : ∃ w, s' ++ a :: b :: after' = w ++ a :: b :: after := by
    rcases List.append_eq_append_iff.mp h with ⟨w, rfl, hw⟩ | ⟨w, rfl, hw⟩
    · cases w with
      | nil => exact ⟨[], hw.symm⟩
      | cons c w =>
          obtain ⟨rfl, -⟩ := List.cons.inj hw
          exact absurd (List.mem_append_right before List.mem_cons_self) hs
    · exact ⟨w, hw⟩
  obtain ⟨w, hw⟩ := hbehind
  rw [List.append_cons s' a, List.append_cons w a] at hw
  exact ((List.append_cons_inj_of_notMem hs' hafter').mp hw).2.2.symm

end Regex
