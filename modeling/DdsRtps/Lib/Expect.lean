/-
# `DdsRtps.Lib.Expect` — one `expect`, on a text of lines

`expect` looks for the first place where one of several regexes matches, and
takes at that place the first of them that does.  `expectAll` of
`DdsRtps.Lib.Regex` is one `expect` after the other (`expectAll_eq`).

The matches of a regex may avoid a class of letters, the ends of lines
(`Avoids`).  A line that it does not match in is then as good as no line
(`quietBefore_of_search`).
-/
import DdsRtps.Lib.Regex

namespace Regex

variable {α : Type*}

/-- The first match of one of the regexes, and the text behind it; `before` is
what has been read already. -/
def expect (rs : List (Regex α)) (before : List α) : List α → Option (Window α × List α)
  | [] => none
  | a :: t =>
      match firstOf rs (a :: t) with
      | some (i, u) => some (⟨i, before, u⟩, (a :: t).drop u.length)
      | none => expect rs (before ++ [a]) t

theorem expect_quiet {rs : List (Regex α)} {s t : List α} (h : ∀ r ∈ rs, QuietBefore r s t)
    (before : List α) : expect rs before (s ++ t) = expect rs (before ++ s) t := by
  induction s generalizing before with
  | nil => rw [List.nil_append, List.append_nil]
  | cons a s ih =>
      have hnone : firstOf rs (a :: (s ++ t)) = none :=
        firstOf_eq_none_iff.mpr fun r hr => (h r hr).head
      rw [List.cons_append, expect, hnone]
      rw [show before ++ a :: s = before ++ [a] ++ s by simp]
      exact ih (fun r hr => (h r hr).tail) _

theorem expect_match {rs : List (Regex α)} {i : Nat} {u v : List α} (hne : u ≠ [])
    (h : firstOf rs (u ++ v) = some (i, u)) (before : List α) :
    expect rs before (u ++ v) = some (⟨i, before, u⟩, v) := by
  obtain ⟨a, u, rfl⟩ := List.exists_cons_of_ne_nil hne
  rw [List.cons_append, expect, ← List.cons_append, h]
  simp

/-- One `expect` finds what a search does, if no match is empty. -/
theorem expect_singleton_eq_none_iff {r : Regex α}
    (hne : ∀ u cs, Parse r u cs → u ≠ []) {before t : List α} :
    expect [r] before t = none ↔ search r t = none := by
  induction t generalizing before with
  | nil =>
      have hnil : first r [] = none := by
        rw [first_eq_none_iff]
        intro u v cs hu hp
        exact hne u cs hp (List.append_eq_nil_iff.mp hu.symm).1
      simp [expect, search, hnil]
  | cons a t ih =>
      rw [expect, search, firstOf]
      cases first r (a :: t) with
      | some m => simp
      | none => simpa [firstOf] using ih

/-- What is left is the end of the text. -/
theorem suffix_of_expect {rs : List (Regex α)} {before t v : List α} {w : Window α}
    (h : expect rs before t = some (w, v)) : v <:+ t := by
  induction t generalizing before with
  | nil => cases h
  | cons a t ih =>
      rw [expect] at h
      cases hfirst : firstOf rs (a :: t) with
      | some m =>
          rw [hfirst] at h
          obtain ⟨-, rfl⟩ := Prod.mk.inj (Option.some.inj h)
          exact List.drop_suffix _ _
      | none =>
          rw [hfirst] at h
          exact (ih h).trans (List.suffix_cons a t)

/-! ## Matches within a line -/

/-- A match is not empty, and has no letter of the class in it. -/
def Avoids (r : Regex α) (p : α → Bool) : Prop :=
  ∀ u cs, Parse r u cs → u ≠ [] ∧ ∀ a ∈ u, p a = false

/-- What a regex does at the head of a line depends on the line alone. -/
theorem first_line {r : Regex α} {p : α → Bool} (hr : Avoids r p) {s t : List α} {e : α}
    (he : p e = true) {u v : List α} {cs : Captures α} (hs : s ++ e :: t = u ++ v)
    (hp : Parse r u cs) : ∃ w, s = u ++ w ∧ v = w ++ e :: t := by
  rcases List.append_eq_append_iff.mp hs with ⟨w, rfl, hw⟩ | ⟨w, rfl, hw⟩
  · cases w with
    | nil => exact ⟨[], by simp, by simpa using hw.symm⟩
    | cons a w =>
        -- the match would reach the end of the line
        obtain ⟨rfl, -⟩ := List.cons.inj hw
        have hbad := (hr _ _ hp).2 e (by simp)
        rw [he] at hbad
        cases hbad
  · exact ⟨w, rfl, hw⟩

theorem quietBefore_of_search {r : Regex α} {p : α → Bool} (hr : Avoids r p) {s t : List α} {e : α}
    (he : p e = true) (h : search r s = none) : QuietBefore r s (e :: t) := by
  rintro b a c rfl
  rw [first_eq_none_iff]
  intro u v cs hu hp
  obtain ⟨w, hw, -⟩ := first_line hr he hu hp
  exact search_eq_none_iff.mp h b u w cs (by rw [hw, List.append_assoc]) hp

theorem first_eq_none_of_avoids {r : Regex α} {p : α → Bool} (hr : Avoids r p) {e : α}
    (he : p e = true) (t : List α) : first r (e :: t) = none := by
  rw [first_eq_none_iff]
  intro u v cs hu hp
  obtain ⟨hne, hall⟩ := hr u cs hp
  obtain ⟨a, u, rfl⟩ := List.exists_cons_of_ne_nil hne
  obtain ⟨rfl, -⟩ := List.cons.inj hu
  have hbad := hall e List.mem_cons_self
  rw [he] at hbad
  cases hbad

/-! ## The index of a match -/

theorem index_lt_of_firstOf {rs : List (Regex α)} {t u : List α} {i : Nat}
    (h : firstOf rs t = some (i, u)) : i < rs.length := by
  induction rs generalizing i u with
  | nil => cases h
  | cons r rs ih =>
      rw [firstOf] at h
      cases hfirst : first r t with
      | some m =>
          rw [hfirst] at h
          obtain ⟨rfl, -⟩ := Prod.mk.inj (Option.some.inj h)
          simp
      | none =>
          rw [hfirst] at h
          obtain ⟨⟨j, u'⟩, hm, heq⟩ := Option.map_eq_some_iff.mp h
          obtain ⟨rfl, -⟩ := Prod.mk.inj heq
          simpa using ih hm

theorem index_lt_of_expect {rs : List (Regex α)} {before t v : List α} {w : Window α}
    (h : expect rs before t = some (w, v)) : w.index < rs.length := by
  induction t generalizing before with
  | nil => cases h
  | cons a t ih =>
      rw [expect] at h
      cases hfirst : firstOf rs (a :: t) with
      | some m =>
          obtain ⟨i, u⟩ := m
          rw [hfirst] at h
          obtain ⟨rfl, -⟩ := Prod.mk.inj (Option.some.inj h)
          exact index_lt_of_firstOf hfirst
      | none =>
          rw [hfirst] at h
          exact ih h

theorem index_lt_of_mem_expectAll {rs : List (Regex α)} {before t : List α} {k : Nat}
    {w : Window α} (h : w ∈ expectAll rs before k t) : w.index < rs.length := by
  induction t generalizing before k with
  | nil => cases k <;> cases h
  | cons a t ih =>
      cases k with
      | succ k => exact ih h
      | zero =>
          rw [expectAll] at h
          cases hfirst : firstOf rs (a :: t) with
          | some m =>
              obtain ⟨i, u⟩ := m
              rw [hfirst] at h
              rcases List.mem_cons.mp h with rfl | h
              · exact index_lt_of_firstOf hfirst
              · exact ih h
          | none =>
              rw [hfirst] at h
              exact ih h

/-! ## With fewer regexes -/

/-- What the first of some regexes is found by, it is found by alone. -/
theorem expect_of_index_zero {r : Regex α} {rs : List (Regex α)} {before t v : List α}
    {w : Window α} (h : expect (r :: rs) before t = some (w, v)) (hindex : w.index = 0) :
    expect [r] before t = some (w, v) := by
  induction t generalizing before with
  | nil => cases h
  | cons a t ih =>
      rw [expect] at h ⊢
      rw [firstOf] at h ⊢
      cases hfirst : first r (a :: t) with
      | some m =>
          rw [hfirst] at h
          exact h
      | none =>
          rw [hfirst] at h
          cases hrest : firstOf rs (a :: t) with
          | none =>
              rw [hrest] at h
              exact ih h
          | some m =>
              rw [hrest] at h
              obtain ⟨rfl, -⟩ := Prod.mk.inj (Option.some.inj h)
              exact absurd hindex (Nat.succ_ne_zero _)

/-- Regexes that match nowhere in a text can be left out. -/
theorem expectAll_congr {rs rs' : List (Regex α)} {t : List α}
    (h : ∀ v, v <:+ t → firstOf rs v = firstOf rs' v) (before : List α) (k : Nat) :
    expectAll rs before k t = expectAll rs' before k t := by
  induction t generalizing before k with
  | nil => cases k <;> rfl
  | cons a t ih =>
      have htail : ∀ v, v <:+ t → firstOf rs v = firstOf rs' v := fun v hv =>
        h v (hv.trans (List.suffix_cons a t))
      cases k with
      | succ k => exact ih htail [] k
      | zero =>
          rw [expectAll, expectAll, h _ List.suffix_rfl]
          cases firstOf rs' (a :: t) with
          | some m => exact congrArg _ (ih htail _ _)
          | none => exact ih htail _ _

/-! ## One after the other -/

theorem parse_of_firstOf {rs : List (Regex α)} {t u : List α} {i : Nat}
    (h : firstOf rs t = some (i, u)) : ∃ r ∈ rs, ∃ cs v, t = u ++ v ∧ Parse r u cs := by
  induction rs generalizing i with
  | nil => cases h
  | cons r rs ih =>
      rw [firstOf] at h
      cases hfirst : first r t with
      | some m =>
          obtain ⟨u', cs, v⟩ := m
          rw [hfirst] at h
          obtain ⟨-, rfl⟩ := Prod.mk.inj (Option.some.inj h)
          exact ⟨r, List.mem_cons_self, cs, v, parse_of_first hfirst⟩
      | none =>
          rw [hfirst] at h
          obtain ⟨⟨j, u'⟩, hm, heq⟩ := Option.map_eq_some_iff.mp h
          obtain ⟨-, rfl⟩ := Prod.mk.inj heq
          obtain ⟨r', hr', hrest⟩ := ih hm
          exact ⟨r', List.mem_cons_of_mem _ hr', hrest⟩

/-- `expectAll` is one `expect` after the other. -/
theorem expectAll_eq {rs : List (Regex α)} {p : α → Bool} (hrs : ∀ r ∈ rs, Avoids r p)
    (before t : List α) :
    expectAll rs before 0 t =
      match expect rs before t with
      | none => []
      | some (w, v) => w :: expectAll rs [] 0 v := by
  induction t generalizing before with
  | nil => rfl
  | cons a t ih =>
      cases hfirst : firstOf rs (a :: t) with
      | none =>
          rw [expectAll, hfirst, expect, hfirst]
          exact ih (before ++ [a])
      | some m =>
          obtain ⟨i, u⟩ := m
          obtain ⟨r, hr, cs, v, hu, hp⟩ := parse_of_firstOf hfirst
          have hne := (hrs r hr u cs hp).1
          rw [hu, expectAll_match hne (hu ▸ hfirst), expect_match hne (hu ▸ hfirst)]

end Regex
