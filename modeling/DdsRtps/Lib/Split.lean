/-
# `DdsRtps.Lib.Split` — `str.split` at a separator

The parts of a text between the occurrences of a separator, from left to right
and not overlapping.  The first part ends where the separator begins for the
first time (`before`), the last part of a split at one character is what follows
its last occurrence (`last`).

A cut goes past a beginning of the text in which no occurrence starts
(`before_append`).  That none starts in a text without an occurrence is true
only if none goes beyond its end either (`noStart_of_next`).
-/
import Mathlib.Data.List.Infix

namespace Split

variable {α : Type*} [DecidableEq α]

/-- What is before the first occurrence, and what is after it. -/
def cut (sep : List α) : List α → Option (List α × List α)
  | [] => none
  | a :: s =>
      if sep <+: a :: s then some ([], (a :: s).drop sep.length)
      else (cut sep s).map fun parts => (a :: parts.1, parts.2)

/-- The parts of at most so many cuts. -/
def splitAtMost (sep : List α) : Nat → List α → List (List α)
  | 0, s => [s]
  | n + 1, s =>
      match cut sep s with
      | none => [s]
      | some (first, rest) => first :: splitAtMost sep n rest

/-- `s.split(sep)`, for a separator that is not empty. -/
def split (sep s : List α) : List (List α) := splitAtMost sep s.length s

/-- `s.split(sep)[0]`. -/
def before (sep s : List α) : List α := (split sep s).head?.getD []

/-- `s.split(sep)[-1]`. -/
def last (sep s : List α) : List α := (split sep s).getLast?.getD []

/-! ## Before the first occurrence -/

variable {sep p s : List α}

theorem before_eq (sep s : List α) : before sep s = ((cut sep s).map Prod.fst).getD s := by
  rw [before, split]
  cases s with
  | nil => rfl
  | cons a s =>
      rw [List.length_cons, splitAtMost]
      cases cut sep (a :: s) with
      | none => rfl
      | some parts => rfl

theorem cut_eq_none (h : ¬ sep <:+: s) : cut sep s = none := by
  induction s with
  | nil => rfl
  | cons a s ih =>
      rw [cut, if_neg fun hprefix => h hprefix.isInfix,
        ih fun hwithin => h (hwithin.trans (List.suffix_cons a s).isInfix)]
      rfl

/-- A text without the separator is its own first part. -/
theorem before_of_not_isInfix (h : ¬ sep <:+: s) : before sep s = s := by
  rw [before_eq, cut_eq_none h]
  rfl

/-- No occurrence starts in `p`, with `s` behind it. -/
def NoStart (sep p s : List α) : Prop := ∀ q, q <:+ p → q ≠ [] → ¬ sep <+: q ++ s

omit [DecidableEq α] in
theorem NoStart.tail {a : α} (h : NoStart sep (a :: p) s) : NoStart sep p s :=
  fun q hq => h q (hq.trans (List.suffix_cons a p))

theorem cut_append (h : NoStart sep p s) :
    cut sep (p ++ s) = (cut sep s).map fun parts => (p ++ parts.1, parts.2) := by
  induction p with
  | nil => exact Option.map_id'.symm
  | cons a p ih =>
      have hno : ¬ sep <+: a :: (p ++ s) := h (a :: p) List.suffix_rfl (List.cons_ne_nil a p)
      rw [List.cons_append, cut, if_neg hno, ih h.tail, Option.map_map]
      rfl

/-- The first part of a text goes past a beginning where no occurrence starts. -/
theorem before_append (h : NoStart sep p s) : before sep (p ++ s) = p ++ before sep s := by
  rw [before_eq, before_eq, cut_append h]
  cases cut sep s with
  | none => rfl
  | some parts => rfl

/-- It ends where an occurrence starts. -/
theorem before_self (h : sep ≠ []) (s : List α) : before sep (sep ++ s) = [] := by
  cases sep with
  | nil => exact absurd rfl h
  | cons a sep =>
      have hprefix : a :: sep <+: a :: (sep ++ s) := List.prefix_append (a :: sep) s
      rw [before_eq, List.cons_append, cut, if_pos hprefix]
      rfl

omit [DecidableEq α] in
/-- A text without the separator, followed by what is not in the separator behind its
first character. -/
theorem noStart_of_next {c x : α} {t : List α} (hwithin : ¬ c :: t <:+: p) (hx : x ∉ t) :
    NoStart (c :: t) p (x :: s) := by
  intro q hq hne hprefix
  rcases List.prefix_or_prefix_of_prefix hprefix (List.prefix_append q (x :: s)) with hin | hover
  · exact hwithin (hin.isInfix.trans hq.isInfix)
  · obtain ⟨r, hr⟩ := hover
    cases q with
    | nil => exact hne rfl
    | cons d q =>
        rw [List.cons_append] at hr
        obtain ⟨rfl, rfl⟩ := List.cons.inj hr
        cases r with
        | nil =>
            rw [List.append_nil] at hwithin
            exact hwithin hq.isInfix
        | cons y r =>
            rw [← List.cons_append, List.prefix_append_right_inj, List.cons_prefix_cons] at hprefix
            obtain ⟨rfl, -⟩ := hprefix
            exact hx (List.mem_append_right q List.mem_cons_self)

omit [DecidableEq α] in
/-- A text without the first character of the separator. -/
theorem noStart_of_notMem {c : α} {t : List α} (hc : c ∉ p) : NoStart (c :: t) p s := by
  intro q hq hne hprefix
  cases q with
  | nil => exact hne rfl
  | cons d q =>
      rw [List.cons_append, List.cons_prefix_cons] at hprefix
      obtain ⟨rfl, -⟩ := hprefix
      exact hc (hq.subset List.mem_cons_self)

omit [DecidableEq α] in
theorem isPrefix_of_isPrefix_append_cons {x : α} (hx : x ∉ sep) (h : sep <+: p ++ x :: s) :
    sep <+: p := by
  rcases List.prefix_or_prefix_of_prefix h (List.prefix_append p (x :: s)) with hin | ⟨r, rfl⟩
  · exact hin
  · cases r with
    | nil => rw [List.append_nil]
    | cons y r =>
        rw [List.prefix_append_right_inj, List.cons_prefix_cons] at h
        obtain ⟨rfl, -⟩ := h
        exact absurd (List.mem_append_right p List.mem_cons_self) hx

omit [DecidableEq α] in
/-- An occurrence does not go across a character that the separator does not have. -/
theorem isInfix_append_cons {x : α} (hx : x ∉ sep) (h : sep <:+: p ++ x :: s) :
    sep <:+: p ∨ sep <:+: s := by
  induction p with
  | nil =>
      rcases List.infix_cons_iff.mp h with hprefix | hwithin
      · exact .inl (isPrefix_of_isPrefix_append_cons (p := []) hx hprefix).isInfix
      · exact .inr hwithin
  | cons a p ih =>
      rcases List.infix_cons_iff.mp h with hprefix | hwithin
      · exact .inl (isPrefix_of_isPrefix_append_cons (p := a :: p) hx hprefix).isInfix
      · rcases ih hwithin with hin | hin
        · exact .inl (hin.trans (List.suffix_cons a p).isInfix)
        · exact .inr hin

/-! ## After the last occurrence of a character -/

theorem splitAtMost_of_not_isInfix (h : ¬ sep <:+: s) (n : Nat) : splitAtMost sep n s = [s] := by
  cases n with
  | zero => rfl
  | succ n => rw [splitAtMost, cut_eq_none h]

omit [DecidableEq α] in
theorem not_isInfix_singleton {c : α} (h : c ∉ s) : ¬ [c] <:+: s :=
  fun hwithin => h (hwithin.subset (List.mem_singleton_self c))

theorem last_of_notMem {c : α} (h : c ∉ s) : last [c] s = s := by
  rw [last, split, splitAtMost_of_not_isInfix (not_isInfix_singleton h)]
  rfl

theorem cut_singleton {c : α} (h : c ∉ p) (s : List α) : cut [c] (p ++ c :: s) = some (p, s) := by
  have hprefix : [c] <+: c :: s := List.prefix_append [c] s
  rw [cut_append (noStart_of_notMem h), cut, if_pos hprefix, Option.map_some, List.append_nil]
  rfl

/-- Enough cuts come to the last occurrence. -/
theorem getLast?_splitAtMost {c : α} (h : c ∉ s) (n : Nat) (p : List α) (hn : p.length ≤ n) :
    (splitAtMost [c] (n + 1) (p ++ c :: s)).getLast? = some s := by
  induction n generalizing p with
  | zero =>
      obtain rfl := List.eq_nil_of_length_eq_zero (Nat.le_zero.mp hn)
      rw [splitAtMost, cut_singleton List.not_mem_nil]
      rfl
  | succ n ih =>
      by_cases hc : c ∈ p
      · obtain ⟨p₁, p₂, rfl, hp₁⟩ := List.eq_append_cons_of_mem hc
        have hlength : p₂.length ≤ n := by
          rw [List.length_append, List.length_cons] at hn
          omega
        rw [List.append_assoc, List.cons_append, splitAtMost, cut_singleton hp₁]
        show (p₁ :: splitAtMost [c] (n + 1) (p₂ ++ c :: s)).getLast? = some s
        rw [List.getLast?_cons, ih p₂ hlength]
        rfl
      · rw [splitAtMost, cut_singleton hc]
        show (p :: splitAtMost [c] (n + 1) s).getLast? = some s
        rw [splitAtMost_of_not_isInfix (not_isInfix_singleton h)]
        rfl

theorem last_append_cons {c : α} (h : c ∉ s) (p : List α) : last [c] (p ++ c :: s) = s := by
  have hlength : (p ++ c :: s).length = p.length + s.length + 1 := by
    rw [List.length_append, List.length_cons, Nat.add_assoc]
  rw [last, split, hlength, getLast?_splitAtMost h _ p (Nat.le_add_right _ _)]
  rfl

omit [DecidableEq α] in
theorem exists_last_occurrence {c : α} (h : c ∈ s) : ∃ q r, s = q ++ c :: r ∧ c ∉ r := by
  obtain ⟨r, q, hreverse, hr⟩ := List.eq_append_cons_of_mem (List.mem_reverse.mpr h)
  refine ⟨q.reverse, r.reverse, ?_, fun hmem => hr (List.mem_reverse.mp hmem)⟩
  have hs := congrArg List.reverse hreverse
  simpa using hs

/-- The last part of a split at a character, said by what is before it. -/
theorem last_eq_iff {c : α} (h : c ∉ p) : last [c] s = p ↔ s = p ∨ ∃ q, s = q ++ c :: p := by
  constructor
  · intro hlast
    by_cases hc : c ∈ s
    · obtain ⟨q, r, rfl, hr⟩ := exists_last_occurrence hc
      rw [last_append_cons hr] at hlast
      exact .inr ⟨q, by rw [hlast]⟩
    · exact .inl ((last_of_notMem hc).symm.trans hlast)
  · rintro (rfl | ⟨q, rfl⟩)
    · exact last_of_notMem h
    · exact last_append_cons h q

end Split
