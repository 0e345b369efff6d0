/-
# `DdsRtps.Lib.Regex` — regular expressions as a backtracking matcher runs them

A `Regex` is built from classes of letters; the only thing repeated is a class.
`run` lists the matches at the head of a text in the order in which a
backtracking matcher meets them, so the one it reports is the first.  `Parse`
says, without any order, which text a regex matches and with what captures;
`mem_run_iff` connects the two.

Over `first`, the match at the head, there are

  * `search`, the leftmost match;
  * `findAll` and `deleteAll`, every match from left to right;
  * `expectAll`, the windows an expect loop sees: the text up to a match of one
    of several regexes, and the match.

The last three are for regexes that match no empty text.  Each comes with a
rule for text in which nothing begins to match and a rule for a match.
-/
import Mathlib.Data.List.Basic
import Mathlib.Data.List.TakeWhile
import Mathlib.Tactic.Tauto

/-- A regular expression over letters `α`. -/
inductive Regex (α : Type*) where
  | empty
  | one (p : α → Bool)
  | seq (r s : Regex α)
  | alt (r s : Regex α)
  | star (greedy : Bool) (p : α → Bool)
  | group (n : Nat) (r : Regex α)

namespace Regex

variable {α : Type*}

/-- What the groups of a match hold. -/
abbrev Captures (α : Type*) := List (Nat × List α)

/-- One letter of a class or more. -/
def plus (p : α → Bool) : Regex α := .seq (.one p) (.star true p)

/-- Any number of letters of a class. -/
def many (p : α → Bool) : Regex α := .star true p

/-- A text, letter for letter. -/
def lit [DecidableEq α] : List α → Regex α
  | [] => .empty
  | a :: t => .seq (.one (· = a)) (lit t)

/-- One regex after the other. -/
def cat : List (Regex α) → Regex α
  | [] => .empty
  | r :: rs => .seq r (cat rs)

/-- So many letters of a class. -/
def times (p : α → Bool) : Nat → Regex α
  | 0 => .empty
  | n + 1 => .seq (.one p) (times p n)

/-- A regex, or nothing. -/
def optional (r : Regex α) : Regex α := .alt r .empty

/-! ## What a regex matches -/

/-- `r` matches exactly the text `u`, with captures `cs`. -/
def Parse : Regex α → List α → Captures α → Prop
  | .empty, u, cs => u = [] ∧ cs = []
  | .one p, u, cs => ∃ a, p a = true ∧ u = [a] ∧ cs = []
  | .seq r s, u, cs => ∃ u₁ cs₁ u₂ cs₂, Parse r u₁ cs₁ ∧ Parse s u₂ cs₂ ∧
      u = u₁ ++ u₂ ∧ cs = cs₁ ++ cs₂
  | .alt r s, u, cs => Parse r u cs ∨ Parse s u cs
  | .star _ p, u, cs => (∀ a ∈ u, p a = true) ∧ cs = []
  | .group n r, u, cs => ∃ cs', Parse r u cs' ∧ cs = (n, u) :: cs'

theorem parse_plus_iff {p : α → Bool} {u : List α} {cs : Captures α} :
    Parse (plus p) u cs ↔ u ≠ [] ∧ (∀ a ∈ u, p a = true) ∧ cs = [] := by
  simp only [plus, Parse]
  constructor
  · rintro ⟨_, _, v, _, ⟨a, ha, rfl, rfl⟩, ⟨hv, rfl⟩, rfl, rfl⟩
    refine ⟨by simp, ?_, rfl⟩
    simpa [ha] using hv
  · rintro ⟨hne, hall, rfl⟩
    obtain ⟨a, v, rfl⟩ := List.exists_cons_of_ne_nil hne
    rw [List.forall_mem_cons] at hall
    exact ⟨[a], [], v, [], ⟨a, hall.1, rfl, rfl⟩, ⟨hall.2, rfl⟩, rfl, rfl⟩

theorem parse_lit_iff [DecidableEq α] {t u : List α} {cs : Captures α} :
    Parse (lit t) u cs ↔ u = t ∧ cs = [] := by
  induction t generalizing u cs with
  | nil => rfl
  | cons a t ih =>
      simp only [lit, Parse, ih, decide_eq_true_eq]
      constructor
      · rintro ⟨_, _, _, _, ⟨_, rfl, rfl, rfl⟩, ⟨rfl, rfl⟩, rfl, rfl⟩
        exact ⟨rfl, rfl⟩
      · rintro ⟨rfl, rfl⟩
        exact ⟨[a], [], t, [], ⟨a, rfl, rfl, rfl⟩, ⟨rfl, rfl⟩, rfl, rfl⟩

theorem parse_cat_nil_iff {u : List α} {cs : Captures α} :
    Parse (cat []) u cs ↔ u = [] ∧ cs = [] :=
  Iff.rfl

theorem parse_cat_cons_iff {r : Regex α} {rs : List (Regex α)} {u : List α} {cs : Captures α} :
    Parse (cat (r :: rs)) u cs ↔ ∃ u₁ cs₁ u₂ cs₂, Parse r u₁ cs₁ ∧ Parse (cat rs) u₂ cs₂ ∧
      u = u₁ ++ u₂ ∧ cs = cs₁ ++ cs₂ :=
  Iff.rfl

theorem parse_group_iff {n : Nat} {r : Regex α} {u : List α} {cs : Captures α} :
    Parse (.group n r) u cs ↔ ∃ cs', Parse r u cs' ∧ cs = (n, u) :: cs' :=
  Iff.rfl

/-- A group that is not optional is in the captures. -/
theorem exists_lookup_of_mem_cat {n : Nat} {r : Regex α} {rs : List (Regex α)} {u : List α}
    {cs : Captures α} (hr : .group n r ∈ rs) (h : Parse (cat rs) u cs) :
    ∃ v, cs.lookup n = some v := by
  rw [← Option.isSome_iff_exists]
  induction rs generalizing u cs with
  | nil => cases hr
  | cons r' rs ih =>
      obtain ⟨u₁, cs₁, u₂, cs₂, h₁, h₂, -, rfl⟩ := parse_cat_cons_iff.mp h
      rw [List.lookup_append, Option.isSome_or, Bool.or_eq_true]
      rcases List.mem_cons.mp hr with rfl | hr
      · obtain ⟨cs', -, rfl⟩ := parse_group_iff.mp h₁
        left
        rw [List.lookup_cons_self]
        rfl
      · exact .inr (ih hr h₂)

/-! ## The matcher -/

/-- The ways to take letters of a class from the head of a text, longest
first. -/
def takes (p : α → Bool) : List α → List (List α × List α)
  | [] => [([], [])]
  | a :: t =>
      if p a then (takes p t).map (fun (u, v) => (a :: u, v)) ++ [([], a :: t)]
      else [([], a :: t)]

theorem mem_takes_iff {p : α → Bool} {t u v : List α} :
    (u, v) ∈ takes p t ↔ t = u ++ v ∧ ∀ a ∈ u, p a = true := by
  induction t generalizing u v with
  | nil =>
      simp only [takes, List.mem_singleton, Prod.mk.injEq]
      constructor
      · rintro ⟨rfl, rfl⟩
        exact ⟨rfl, by simp⟩
      · rintro ⟨h, -⟩
        exact List.append_eq_nil_iff.mp h.symm
  | cons a t ih =>
      unfold takes
      cases u with
      | nil =>
          split
          · simp [eq_comm (a := v)]
          · simp [eq_comm (a := v)]
      | cons b u =>
          by_cases hp : p a = true
          · simp only [hp, if_true, List.mem_append, List.mem_map, Prod.mk.injEq,
              List.cons.injEq, List.mem_singleton, List.cons_append, List.forall_mem_cons]
            constructor
            · rintro (⟨⟨u', v'⟩, hmem, ⟨rfl, rfl⟩, rfl⟩ | ⟨h, -⟩)
              · obtain ⟨rfl, hall⟩ := ih.mp hmem
                exact ⟨⟨rfl, rfl⟩, hp, hall⟩
              · cases h
            · rintro ⟨⟨rfl, rfl⟩, -, hall⟩
              exact .inl ⟨(u, v), ih.mpr ⟨rfl, hall⟩, ⟨rfl, rfl⟩, rfl⟩
          · simp only [hp, if_false, Bool.false_eq_true, List.mem_singleton, Prod.mk.injEq,
              List.cons_append, List.cons.injEq, List.forall_mem_cons]
            constructor
            · rintro ⟨h, -⟩
              cases h
            · rintro ⟨⟨rfl, -⟩, h, -⟩
              exact absurd h hp

/-- The matches at the head of a text, with their captures and what is left of
the text, in the order of a backtracking matcher. -/
def run : Regex α → List α → List (List α × Captures α × List α)
  | .empty, t => [([], [], t)]
  | .one _, [] => []
  | .one p, a :: t => if p a then [([a], [], t)] else []
  | .seq r s, t => (run r t).flatMap fun (u, cs, t') =>
      (run s t').map fun (v, ds, t'') => (u ++ v, cs ++ ds, t'')
  | .alt r s, t => run r t ++ run s t
  | .star greedy p, t =>
      let ways := (takes p t).map fun (u, v) => (u, [], v)
      if greedy then ways else ways.reverse
  | .group n r, t => (run r t).map fun (u, cs, t') => (u, (n, u) :: cs, t')

/-- The matcher meets exactly the matches. -/
theorem mem_run_iff {r : Regex α} {t u v : List α} {cs : Captures α} :
    (u, cs, v) ∈ run r t ↔ t = u ++ v ∧ Parse r u cs := by
  induction r generalizing t u v cs with
  | empty =>
      simp only [run, Parse, List.mem_singleton, Prod.mk.injEq]
      constructor
      · rintro ⟨rfl, rfl, rfl⟩
        exact ⟨rfl, rfl, rfl⟩
      · rintro ⟨rfl, rfl, rfl⟩
        exact ⟨rfl, rfl, rfl⟩
  | one p =>
      cases t with
      | nil => simp [run, Parse]; rintro rfl - a - h; cases h
      | cons a t =>
          simp only [run, Parse]
          constructor
          · intro h
            split at h
            · obtain ⟨rfl, rfl, rfl⟩ : u = [a] ∧ cs = [] ∧ v = t := by simpa using h
              exact ⟨rfl, a, ‹_›, rfl, rfl⟩
            · cases h
          · rintro ⟨h, b, hb, rfl, rfl⟩
            obtain ⟨rfl, rfl⟩ := List.cons.inj h
            simp [hb]
  | seq r s ihr ihs =>
      simp only [run, Parse, List.mem_flatMap, List.mem_map, Prod.exists, Prod.mk.injEq]
      constructor
      · rintro ⟨u₁, cs₁, t', h₁, u₂, cs₂, t'', h₂, rfl, rfl, rfl⟩
        obtain ⟨rfl, hp₁⟩ := ihr.mp h₁
        obtain ⟨rfl, hp₂⟩ := ihs.mp h₂
        exact ⟨by simp, u₁, cs₁, u₂, cs₂, hp₁, hp₂, rfl, rfl⟩
      · rintro ⟨rfl, u₁, cs₁, u₂, cs₂, hp₁, hp₂, rfl, rfl⟩
        exact ⟨u₁, cs₁, u₂ ++ v, ihr.mpr ⟨by simp, hp₁⟩, u₂, cs₂, v, ihs.mpr ⟨rfl, hp₂⟩,
          rfl, rfl, rfl⟩
  | alt r s ihr ihs =>
      simp only [run, Parse, List.mem_append, ihr, ihs]
      tauto
  | star greedy p =>
      have hmem : (u, cs, v) ∈ (takes p t).map (fun (u, v) => (u, ([] : Captures α), v)) ↔
          t = u ++ v ∧ (∀ a ∈ u, p a = true) ∧ cs = [] := by
        simp only [List.mem_map, Prod.exists, Prod.mk.injEq]
        constructor
        · rintro ⟨u', v', h, rfl, rfl, rfl⟩
          obtain ⟨ht, hall⟩ := mem_takes_iff.mp h
          exact ⟨ht, hall, rfl⟩
        · rintro ⟨ht, hall, rfl⟩
          exact ⟨u, v, mem_takes_iff.mpr ⟨ht, hall⟩, rfl, rfl, rfl⟩
      cases greedy <;> simp only [run, Parse, Bool.false_eq_true, if_true, if_false,
        List.mem_reverse, hmem]
  | group n r ih =>
      simp only [run, Parse, List.mem_map, Prod.exists, Prod.mk.injEq]
      constructor
      · rintro ⟨u', cs', v', h, rfl, rfl, rfl⟩
        obtain ⟨rfl, hp⟩ := ih.mp h
        exact ⟨rfl, cs', hp, rfl⟩
      · rintro ⟨rfl, cs', hp, rfl⟩
        exact ⟨u, cs', v, ih.mpr ⟨rfl, hp⟩, rfl, rfl, rfl⟩

/-! ## The match at the head of a text -/

/-- The match the matcher reports at the head of a text. -/
def first (r : Regex α) (t : List α) : Option (List α × Captures α × List α) := (run r t).head?

theorem parse_of_first {r : Regex α} {t u v : List α} {cs : Captures α}
    (h : first r t = some (u, cs, v)) : t = u ++ v ∧ Parse r u cs :=
  mem_run_iff.mp (List.mem_of_mem_head? h)

theorem first_eq_none_iff {r : Regex α} {t : List α} :
    first r t = none ↔ ∀ u v cs, t = u ++ v → ¬ Parse r u cs := by
  rw [first, List.head?_eq_none_iff, List.eq_nil_iff_forall_not_mem]
  constructor
  · intro h u v cs ht hp
    exact h _ (mem_run_iff.mpr ⟨ht, hp⟩)
  · rintro h ⟨u, cs, v⟩ hmem
    obtain ⟨ht, hp⟩ := mem_run_iff.mp hmem
    exact h u v cs ht hp

/-- Where there is one match only, the matcher reports it. -/
theorem first_eq_some {r : Regex α} {u v : List α} {cs : Captures α} (hp : Parse r u cs)
    (huniq : ∀ u' v' cs', u ++ v = u' ++ v' → Parse r u' cs' → u' = u ∧ cs' = cs) :
    first r (u ++ v) = some (u, cs, v) := by
  cases h : first r (u ++ v) with
  | none => exact absurd hp (first_eq_none_iff.mp h u v cs rfl)
  | some m =>
      obtain ⟨u', cs', v'⟩ := m
      obtain ⟨ht, hp'⟩ := parse_of_first h
      obtain ⟨rfl, rfl⟩ := huniq u' v' cs' ht hp'
      rw [List.append_cancel_left ht]

/-! ## The leftmost match -/

/-- A match in a text. -/
structure Found (α : Type*) where
  before : List α
  text : List α
  captures : Captures α
  after : List α

/-- The text of a group. -/
def Found.group (m : Found α) (n : Nat) : Option (List α) := m.captures.lookup n

/-- The leftmost match. -/
def search (r : Regex α) : List α → Option (Found α)
  | [] => (first r []).map fun (u, cs, v) => ⟨[], u, cs, v⟩
  | a :: t =>
      match first r (a :: t) with
      | some (u, cs, v) => some ⟨[], u, cs, v⟩
      | none => (search r t).map fun m => { m with before := a :: m.before }

/-- The leftmost match is a match, and none begins before it. -/
theorem search_spec {r : Regex α} {t : List α} {m : Found α} (h : search r t = some m) :
    t = m.before ++ m.text ++ m.after ∧ Parse r m.text m.captures ∧
      ∀ b u v cs, t = b ++ u ++ v → Parse r u cs → m.before.length ≤ b.length := by
  induction t generalizing m with
  | nil =>
      simp only [search, Option.map_eq_some_iff, Prod.exists] at h
      obtain ⟨u, cs, v, hfirst, rfl⟩ := h
      obtain ⟨ht, hp⟩ := parse_of_first hfirst
      exact ⟨ht, hp, by simp⟩
  | cons a t ih =>
      unfold search at h
      split at h
      · rename_i u cs v hfirst
        obtain rfl := Option.some.inj h
        obtain ⟨ht, hp⟩ := parse_of_first hfirst
        exact ⟨ht, hp, by simp⟩
      · rename_i hfirst
        simp only [Option.map_eq_some_iff] at h
        obtain ⟨m', hm', rfl⟩ := h
        obtain ⟨rfl, hp, hleft⟩ := ih hm'
        refine ⟨rfl, hp, fun b u v cs ht hu => ?_⟩
        cases b with
        | nil => exact absurd hu (first_eq_none_iff.mp hfirst u v cs ht)
        | cons b₀ b =>
            obtain ⟨-, ht⟩ := List.cons.inj ht
            simpa using hleft b u v cs ht hu

theorem search_eq_none_iff {r : Regex α} {t : List α} :
    search r t = none ↔ ∀ b u v cs, t = b ++ u ++ v → ¬ Parse r u cs := by
  constructor
  · intro h
    induction t with
    | nil =>
        intro b u v cs ht hp
        obtain ⟨rfl, rfl, rfl⟩ : b = [] ∧ u = [] ∧ v = [] := by simpa using ht.symm
        exact first_eq_none_iff.mp (by simpa [search] using h) [] [] cs rfl hp
    | cons a t ih =>
        unfold search at h
        split at h
        · cases h
        · rename_i hfirst
          intro b u v cs ht hp
          cases b with
          | nil => exact first_eq_none_iff.mp hfirst u v cs ht hp
          | cons b₀ b => exact ih (by simpa using h) b u v cs (List.cons.inj ht).2 hp
  · intro h
    cases hs : search r t with
    | none => rfl
    | some m =>
        obtain ⟨ht, hp, -⟩ := search_spec hs
        exact absurd hp (h _ _ _ _ ht)

/-- A search that must succeed, and what it then finds. -/
theorem exists_search_eq_some {r : Regex α} {b u v : List α} {cs : Captures α}
    (hp : Parse r u cs) : ∃ m, search r (b ++ u ++ v) = some m := by
  cases h : search r (b ++ u ++ v) with
  | none => exact absurd hp (search_eq_none_iff.mp h b u v cs rfl)
  | some m => exact ⟨m, rfl⟩

/-! ## Every match, from left to right -/

/-- Nothing begins to match inside `s`, when `t` stands behind it. -/
def QuietBefore (r : Regex α) (s t : List α) : Prop :=
  ∀ b a c, s = b ++ a :: c → first r (a :: c ++ t) = none

theorem QuietBefore.tail {r : Regex α} {a : α} {s t : List α} (h : QuietBefore r (a :: s) t) :
    QuietBefore r s t :=
  fun b a' c hs => h (a :: b) a' c (by rw [hs]; rfl)

theorem QuietBefore.append {r : Regex α} {s₁ s₂ t : List α} (h₁ : QuietBefore r s₁ (s₂ ++ t))
    (h₂ : QuietBefore r s₂ t) : QuietBefore r (s₁ ++ s₂) t := by
  intro b a c hs
  rcases List.append_eq_append_iff.mp hs with ⟨w, rfl, rfl⟩ | ⟨w, rfl, hw⟩
  · exact h₂ w a c rfl
  · cases w with
    | nil => exact h₂ [] a c hw.symm
    | cons a' w =>
        obtain ⟨rfl, rfl⟩ := List.cons.inj hw
        have hfirst := h₁ b a w rfl
        rwa [← List.append_assoc] at hfirst

/-- A match begins with `a`, and there is no `a`. -/
theorem quietBefore_of_not_mem {r : Regex α} {a : α} {s : List α}
    (hr : ∀ u cs, Parse r u cs → u.head? = some a) (h : a ∉ s) (t : List α) :
    QuietBefore r s t := by
  rintro b a' c rfl
  rw [first_eq_none_iff]
  intro u v cs hu hp
  have hhead := hr u cs hp
  cases u with
  | nil => cases hhead
  | cons d u =>
      obtain rfl := Option.some.inj hhead
      obtain ⟨rfl, -⟩ := List.cons.inj hu
      exact h (by simp)

/-- A match begins with the text `l`, and there is no `l`, nor does one begin:
what comes next is not in it. -/
theorem quietBefore_of_not_infix {r : Regex α} {l s : List α} {c : α}
    (hr : ∀ u cs, Parse r u cs → l <+: u) (h : ¬ l <:+: s) (hc : c ∉ l) (t : List α) :
    QuietBefore r s (c :: t) := by
  rintro b a s' rfl
  rw [first_eq_none_iff]
  intro u v cs hu hp
  obtain ⟨u', rfl⟩ := hr u cs hp
  rw [List.append_assoc] at hu
  rcases List.append_eq_append_iff.mp hu with ⟨w, hl, hw⟩ | ⟨w, hl, -⟩
  · cases w with
    | nil => exact h ⟨b, [], by rw [hl]; simp⟩
    | cons d w =>
        obtain ⟨rfl, -⟩ := List.cons.inj hw
        exact hc (by rw [hl]; simp)
  · exact h ⟨b, w, by rw [hl]; simp⟩

theorem QuietBefore.head {r : Regex α} {a : α} {s t : List α} (h : QuietBefore r (a :: s) t) :
    first r (a :: (s ++ t)) = none :=
  h [] a s rfl

/-- Every match, with its captures; the number is how many letters of a match
are still to be skipped. -/
def findAll (r : Regex α) : Nat → List α → List (List α × Captures α)
  | _, [] => []
  | k + 1, _ :: t => findAll r k t
  | 0, a :: t =>
      match first r (a :: t) with
      | some (u, cs, _) => (u, cs) :: findAll r (u.length - 1) t
      | none => findAll r 0 t

theorem findAll_skip {r : Regex α} (u t : List α) : findAll r u.length (u ++ t) = findAll r 0 t := by
  induction u with
  | nil => rfl
  | cons a u ih => exact ih

theorem findAll_quiet {r : Regex α} {s t : List α} (h : QuietBefore r s t) :
    findAll r 0 (s ++ t) = findAll r 0 t := by
  induction s with
  | nil => rfl
  | cons a s ih =>
      rw [List.cons_append, findAll, h.head]
      exact ih h.tail

theorem findAll_match {r : Regex α} {u v : List α} {cs : Captures α} (hne : u ≠ [])
    (h : first r (u ++ v) = some (u, cs, v)) :
    findAll r 0 (u ++ v) = (u, cs) :: findAll r 0 v := by
  obtain ⟨a, u, rfl⟩ := List.exists_cons_of_ne_nil hne
  rw [List.cons_append, findAll, ← List.cons_append, h]
  exact congrArg _ (findAll_skip u v)

/-- The text without its matches. -/
def deleteAll (r : Regex α) : Nat → List α → List α
  | _, [] => []
  | k + 1, _ :: t => deleteAll r k t
  | 0, a :: t =>
      match first r (a :: t) with
      | some (u, _, _) => deleteAll r (u.length - 1) t
      | none => a :: deleteAll r 0 t

theorem deleteAll_cons_of_none {r : Regex α} {a : α} {t : List α} (h : first r (a :: t) = none) :
    deleteAll r 0 (a :: t) = a :: deleteAll r 0 t := by
  rw [deleteAll, h]

theorem deleteAll_cons_of_some {r : Regex α} {a : α} {t u v : List α} {cs : Captures α}
    (h : first r (a :: t) = some (u, cs, v)) :
    deleteAll r 0 (a :: t) = deleteAll r (u.length - 1) t := by
  rw [deleteAll, h]

theorem deleteAll_quiet {r : Regex α} {s t : List α} (h : QuietBefore r s t) :
    deleteAll r 0 (s ++ t) = s ++ deleteAll r 0 t := by
  induction s with
  | nil => rfl
  | cons a s ih =>
      rw [List.cons_append, deleteAll_cons_of_none h.head, ih h.tail, List.cons_append]

/-- Where no match reaches from `s` into `t`, the two can be cleaned apart. -/
theorem deleteAll_append {r : Regex α} {s t : List α}
    (h : ∀ b a c, s = b ++ a :: c →
      (first r (a :: c ++ t)).map (·.1) = (first r (a :: c)).map (·.1))
    {k : Nat} (hk : k ≤ s.length) :
    deleteAll r k (s ++ t) = deleteAll r k s ++ deleteAll r 0 t := by
  induction s generalizing k with
  | nil =>
      obtain rfl : k = 0 := by simpa using hk
      rfl
  | cons a s ih =>
      have hs : ∀ b a' c, s = b ++ a' :: c →
          (first r (a' :: c ++ t)).map (·.1) = (first r (a' :: c)).map (·.1) :=
        fun b a' c hs => h (a :: b) a' c (by rw [hs]; rfl)
      cases k with
      | succ k => exact ih hs (by simpa using hk)
      | zero =>
          have hsame := h [] a s rfl
          rw [List.cons_append] at hsame ⊢
          cases hfirst : first r (a :: s) with
          | none =>
              rw [hfirst] at hsame
              rw [deleteAll_cons_of_none hfirst,
                deleteAll_cons_of_none (Option.map_eq_none_iff.mp hsame), List.cons_append,
                ih hs (Nat.zero_le _)]
          | some m =>
              obtain ⟨u, cs, v⟩ := m
              rw [hfirst] at hsame
              obtain ⟨⟨u', cs', v'⟩, hfirst', hu⟩ := Option.map_eq_some_iff.mp hsame
              obtain rfl : u' = u := hu
              have hlen := congrArg List.length (parse_of_first hfirst).1
              simp only [List.length_append, List.length_cons] at hlen
              have hk' : u'.length - 1 ≤ s.length := by omega
              rw [deleteAll_cons_of_some hfirst, deleteAll_cons_of_some hfirst', ih hs hk']

/-! ## The windows of an expect loop -/

/-- What one `expect` gives: which regex, the text before its match, and the
match. -/
structure Window (α : Type*) where
  index : Nat
  before : List α
  after : List α
deriving DecidableEq, Repr

/-- `before + after`. -/
def Window.text (w : Window α) : List α := w.before ++ w.after

/-- The first of the regexes that matches at the head of the text. -/
def firstOf : List (Regex α) → List α → Option (Nat × List α)
  | [], _ => none
  | r :: rs, t =>
      match first r t with
      | some (u, _, _) => some (0, u)
      | none => (firstOf rs t).map fun (i, u) => (i + 1, u)

theorem firstOf_eq_none_iff {rs : List (Regex α)} {t : List α} :
    firstOf rs t = none ↔ ∀ r ∈ rs, first r t = none := by
  induction rs with
  | nil => simp [firstOf]
  | cons r rs ih =>
      rw [firstOf, List.forall_mem_cons, ← ih]
      cases first r t <;> simp

/-- The windows of one `expect` after the other with the same regexes; `before`
is what has been read since the last match. -/
def expectAll (rs : List (Regex α)) (before : List α) : Nat → List α → List (Window α)
  | _, [] => []
  | k + 1, _ :: t => expectAll rs [] k t
  | 0, a :: t =>
      match firstOf rs (a :: t) with
      | some (i, u) => ⟨i, before, u⟩ :: expectAll rs [] (u.length - 1) t
      | none => expectAll rs (before ++ [a]) 0 t

theorem expectAll_skip {rs : List (Regex α)} (u t : List α) :
    expectAll rs [] u.length (u ++ t) = expectAll rs [] 0 t := by
  induction u with
  | nil => rfl
  | cons a u ih => exact ih

theorem expectAll_quiet {rs : List (Regex α)} {s t : List α}
    (h : ∀ r ∈ rs, QuietBefore r s t) (before : List α) :
    expectAll rs before 0 (s ++ t) = expectAll rs (before ++ s) 0 t := by
  induction s generalizing before with
  | nil => rw [List.nil_append, List.append_nil]
  | cons a s ih =>
      have hnone : firstOf rs (a :: (s ++ t)) = none :=
        firstOf_eq_none_iff.mpr fun r hr => (h r hr).head
      rw [List.cons_append, expectAll, hnone]
      rw [show before ++ a :: s = before ++ [a] ++ s by simp]
      exact ih (fun r hr => (h r hr).tail) _

theorem expectAll_match {rs : List (Regex α)} {i : Nat} {u v : List α} (hne : u ≠ [])
    (h : firstOf rs (u ++ v) = some (i, u)) (before : List α) :
    expectAll rs before 0 (u ++ v) = ⟨i, before, u⟩ :: expectAll rs [] 0 v := by
  obtain ⟨a, u, rfl⟩ := List.exists_cons_of_ne_nil hne
  rw [List.cons_append, expectAll, ← List.cons_append, h]
  exact congrArg _ (expectAll_skip u v)

/-! ## Cutting a text at its letters -/

/-- The letters of a class at the head of a text are cut off in one way only. -/
theorem append_cons_inj {p : α → Bool} {u u' v v' : List α} {a a' : α}
    (h : u ++ a :: v = u' ++ a' :: v') (hu : ∀ b ∈ u, p b = true) (hu' : ∀ b ∈ u', p b = true)
    (ha : p a = false) (ha' : p a' = false) : u = u' ∧ a = a' ∧ v = v' := by
  induction u generalizing u' with
  | nil =>
      cases u' with
      | nil => exact ⟨rfl, List.cons.inj h⟩
      | cons b u' =>
          obtain ⟨rfl, -⟩ := List.cons.inj h
          rw [hu' a List.mem_cons_self] at ha
          cases ha
  | cons b u ih =>
      cases u' with
      | nil =>
          obtain ⟨rfl, -⟩ := List.cons.inj h
          rw [hu b List.mem_cons_self] at ha'
          cases ha'
      | cons b' u' =>
          obtain ⟨rfl, htail⟩ := List.cons.inj h
          rw [List.forall_mem_cons] at hu hu'
          obtain ⟨rfl, hrest⟩ := ih htail hu.2 hu'.2
          exact ⟨rfl, hrest⟩

/-- The text is empty or begins with a letter outside the class. -/
def StartsOutside (p : α → Bool) (t : List α) : Prop := ∀ a ∈ t.head?, p a = false

theorem append_inj_of_startsOutside {p : α → Bool} {u u' v v' : List α} (h : u ++ v = u' ++ v')
    (hu : ∀ b ∈ u, p b = true) (hu' : ∀ b ∈ u', p b = true) (hv : StartsOutside p v)
    (hv' : StartsOutside p v') : u = u' ∧ v = v' := by
  rcases List.append_eq_append_iff.mp h with ⟨w, rfl, rfl⟩ | ⟨w, rfl, rfl⟩
  · cases w with
    | nil => simp
    | cons a w =>
        have hin := hu' a (by simp)
        rw [hv a rfl] at hin
        cases hin
  · cases w with
    | nil => simp
    | cons a w =>
        have hin := hu a (by simp)
        rw [hv' a rfl] at hin
        cases hin

/-- A text is letters of a class, and then nothing or another letter. -/
theorem exists_head_split (p : α → Bool) (t : List α) :
    ∃ u v, t = u ++ v ∧ (∀ a ∈ u, p a = true) ∧ StartsOutside p v := by
  refine ⟨t.takeWhile p, t.dropWhile p, (List.takeWhile_append_dropWhile ..).symm,
    fun a ha => List.mem_takeWhile_imp ha, fun a ha => ?_⟩
  have hnot := List.head?_dropWhile_not p t
  rw [Option.mem_def.mp ha] at hnot
  simpa using hnot

/-- The text is empty or ends in a letter outside the class. -/
def EndsOutside (p : α → Bool) (t : List α) : Prop := ∀ a ∈ t.getLast?, p a = false

theorem endsOutside_nil (p : α → Bool) : EndsOutside p [] := by
  simp [EndsOutside]

theorem endsOutside_append {p : α → Bool} {s t : List α} (hne : t ≠ [])
    (ht : ∀ a ∈ t, p a = false) : EndsOutside p (s ++ t) := by
  intro a ha
  rw [List.getLast?_append_of_ne_nil s hne] at ha
  exact ht a (List.mem_of_getLast? ha)

/-- The letters of a class at the end of a text are cut off in one way only. -/
theorem append_inj_of_endsOutside {p : α → Bool} {s t u v : List α} (h : s ++ u = t ++ v)
    (hu : ∀ a ∈ u, p a = true) (hv : ∀ a ∈ v, p a = true) (hs : EndsOutside p s)
    (ht : EndsOutside p t) : s = t ∧ u = v := by
  rcases List.append_eq_append_iff.mp h with ⟨w, rfl, rfl⟩ | ⟨w, rfl, rfl⟩
  · -- `w` is at the end of `t`, and all of it in the class
    have hw : w = [] := by
      by_contra hne
      obtain ⟨a, ha⟩ := Option.isSome_iff_exists.mp (List.getLast?_isSome.mpr hne)
      have hout := ht a (by rw [List.getLast?_append_of_ne_nil s hne]; exact ha)
      have hin := hu a (List.mem_append_left _ (List.mem_of_getLast? ha))
      rw [hin] at hout
      cases hout
    subst hw
    simp
  · have hw : w = [] := by
      by_contra hne
      obtain ⟨a, ha⟩ := Option.isSome_iff_exists.mp (List.getLast?_isSome.mpr hne)
      have hout := hs a (by rw [List.getLast?_append_of_ne_nil t hne]; exact ha)
      have hin := hv a (List.mem_append_left _ (List.mem_of_getLast? ha))
      rw [hin] at hout
      cases hout
    subst hw
    simp

end Regex
