/-
# `DdsRtps.Lib.Glob` — the language of a shell glob

Over an arbitrary alphabet, with two letters set apart: `star`, which stands
for any word, and `any`, which stands for any one letter.

`Matches star any p t` is the textbook reading, with the split written out: the
text is cut into as many pieces as the pattern has letters, and each piece is
what its letter allows.

`Pinned star any p t` is a smaller language.  The cut is the same, but a
`star` whose remaining text begins with the letter `star` itself must take
exactly that one letter.  It is what a matcher accepts that compares letters
before it looks for wildcards; `pinned_of_matches_of_no_star` says the two
languages agree on every text without the letter `star`.
-/
import Mathlib.Data.List.Forall2

namespace Glob

variable {α : Type*}

/-- The glob language, less the freedom of a `star` that faces the letter
`star`: such a `star` takes exactly that letter. -/
inductive Pinned (star any : α) : List α → List α → Prop
  | nil : Pinned star any [] []
  | letter {c a : α} {p t : List α} : c ≠ star → c = any ∨ c = a →
      Pinned star any p t → Pinned star any (c :: p) (a :: t)
  | facing {p t : List α} : Pinned star any p t →
      Pinned star any (star :: p) (star :: t)
  | free {p u v : List α} : (u ++ v).head? ≠ some star →
      Pinned star any p v → Pinned star any (star :: p) (u ++ v)

section Language
variable [DecidableEq α]

/-- What one letter of the pattern allows its piece of the text to be. -/
def Piece (star any c : α) (u : List α) : Prop :=
  if c = star then True else if c = any then u.length = 1 else u = [c]

instance (star any c : α) (u : List α) : Decidable (Piece star any c u) := by
  unfold Piece
  infer_instance

/-- The glob language: the text splits into pieces that the letters of the
pattern allow, in order. -/
def Matches (star any : α) (p t : List α) : Prop :=
  ∃ pieces : List (List α), List.Forall₂ (Piece star any) p pieces ∧ pieces.flatten = t

variable {star any : α}

@[simp] theorem piece_star (u : List α) : Piece star any star u := by simp [Piece]

theorem piece_letter_iff {c : α} (hc : c ≠ star) {u : List α} :
    Piece star any c u ↔ ∃ a, u = [a] ∧ (c = any ∨ c = a) := by
  by_cases h : c = any
  · subst h
    simp [Piece, hc, List.length_eq_one_iff]
  · simp only [Piece, hc, h, if_false, false_or]
    constructor
    · rintro rfl
      exact ⟨c, rfl, rfl⟩
    · rintro ⟨a, rfl, rfl⟩
      rfl

@[simp] theorem matches_nil_iff {t : List α} : Matches star any [] t ↔ t = [] := by
  simp [Matches, eq_comm]

theorem matches_cons_iff {c : α} {p t : List α} :
    Matches star any (c :: p) t ↔
      ∃ u v, t = u ++ v ∧ Piece star any c u ∧ Matches star any p v := by
  constructor
  · rintro ⟨pieces, hp, rfl⟩
    cases hp with
    | cons hc hrest => exact ⟨_, _, rfl, hc, _, hrest, rfl⟩
  · rintro ⟨u, v, rfl, hc, pieces, hrest, rfl⟩
    exact ⟨u :: pieces, .cons hc hrest, rfl⟩

/-- A pinned match is a match. -/
theorem matches_of_pinned {p t : List α} (h : Pinned star any p t) :
    Matches star any p t := by
  induction h with
  | nil => simp
  | letter hc hca _ ih =>
      exact matches_cons_iff.mpr ⟨[_], _, rfl, (piece_letter_iff hc).mpr ⟨_, rfl, hca⟩, ih⟩
  | facing _ ih => exact matches_cons_iff.mpr ⟨[star], _, rfl, piece_star _, ih⟩
  | free _ _ ih => exact matches_cons_iff.mpr ⟨_, _, rfl, piece_star _, ih⟩

/-- On a text without the letter `star` no `star` is ever pinned. -/
theorem pinned_of_matches_of_no_star : ∀ {p t : List α},
    star ∉ t → Matches star any p t → Pinned star any p t
  | [], t, _, h => by
      rw [matches_nil_iff] at h
      subst h
      exact .nil
  | c :: p, t, hst, h => by
      obtain ⟨u, v, rfl, hc, hv⟩ := matches_cons_iff.mp h
      have hrest := pinned_of_matches_of_no_star (fun hm => hst (by simp [hm])) hv
      by_cases hcs : c = star
      · subst hcs
        exact .free (fun hh => hst (List.mem_of_mem_head? hh)) hrest
      · obtain ⟨a, rfl, hca⟩ := (piece_letter_iff hcs).mp hc
        exact .letter hcs hca hrest

end Language

variable {star any : α}

/-! ## Reading the pinned language letter by letter

The four lemmas that follow say what `Pinned` is at the head of the pattern
and of the text; a matcher is verified against them and never against the
constructors. -/

@[simp] theorem pinned_nil_iff {t : List α} : Pinned star any [] t ↔ t = [] := by
  constructor
  · intro h
    cases h
    rfl
  · rintro rfl
    exact .nil

theorem pinned_letter_iff {c a : α} {p t : List α} (hc : c ≠ star) :
    Pinned star any (c :: p) (a :: t) ↔ (c = any ∨ c = a) ∧ Pinned star any p t := by
  constructor
  · intro h
    generalize hq : c :: p = q, hs : a :: t = s at h
    cases h with
    | nil => simp at hq
    | letter _ hca hrest =>
        obtain ⟨rfl, rfl⟩ := List.cons.inj hq
        obtain ⟨rfl, rfl⟩ := List.cons.inj hs
        exact ⟨hca, hrest⟩
    | facing _ => exact absurd (List.cons.inj hq).1 hc
    | free _ _ => exact absurd (List.cons.inj hq).1 hc
  · rintro ⟨hca, hrest⟩
    exact .letter hc hca hrest

theorem pinned_facing_iff {p t : List α} :
    Pinned star any (star :: p) (star :: t) ↔ Pinned star any p t := by
  constructor
  · intro h
    generalize hq : star :: p = q, hs : star :: t = s at h
    cases h with
    | nil => simp at hq
    | letter hc _ _ => exact absurd (List.cons.inj hq).1.symm hc
    | facing hrest =>
        obtain ⟨-, rfl⟩ := List.cons.inj hq
        obtain ⟨-, rfl⟩ := List.cons.inj hs
        exact hrest
    | free hne _ => simp [← hs] at hne
  · exact .facing

theorem pinned_free_iff {p t : List α} (ht : t.head? ≠ some star) :
    Pinned star any (star :: p) t ↔ ∃ u v, t = u ++ v ∧ Pinned star any p v := by
  constructor
  · intro h
    generalize hq : star :: p = q at h
    cases h with
    | nil => simp at hq
    | letter hc _ _ => exact absurd (List.cons.inj hq).1.symm hc
    | facing _ => simp at ht
    | free _ hrest =>
        obtain ⟨-, rfl⟩ := List.cons.inj hq
        exact ⟨_, _, rfl, hrest⟩
  · rintro ⟨u, v, rfl, hrest⟩
    exact .free ht hrest

theorem not_pinned_letter_nil {c : α} {p : List α} (hc : c ≠ star) :
    ¬ Pinned star any (c :: p) [] := by
  intro h
  generalize hq : c :: p = q, hs : ([] : List α) = s at h
  cases h with
  | nil => simp at hq
  | letter _ _ _ => simp at hs
  | facing _ => simp at hs
  | free _ _ => exact hc (List.cons.inj hq).1

/-- Against the empty text only `star`s are left. -/
theorem pinned_empty_text_iff (any : α) {p : List α} :
    Pinned star any p [] ↔ ∀ c ∈ p, c = star := by
  induction p with
  | nil => simp
  | cons c p ih =>
      by_cases hc : c = star
      · subst hc
        rw [pinned_free_iff (by simp)]
        simp [ih]
      · simp [not_pinned_letter_nil hc, hc]

/-! ## A literal stretch never gets ahead

`Literal w u`: every letter of `w` stands over its own letter of `u`, a
`star` of `w` only over the letter `star`.  If `w` covers the beginning of a
text literally, then reading `w` from any later place of that text ends no
earlier: this is why a matcher may forget all but the last `star`. -/

/-- `w` lies letter by letter over `u`. -/
def Literal (any : α) (w u : List α) : Prop :=
  List.Forall₂ (fun c a => c = any ∨ c = a) w u

theorem pinned_behind_literal {w u : List α} (hw : Literal any w u) (hsa : star ≠ any) :
    ∀ {p v t : List α}, v <:+ u ++ t → Pinned star any (w ++ p) v →
      ∃ t', t' <:+ t ∧ Pinned star any p t' := by
  induction hw with
  | nil =>
      intro p v t hv h
      exact ⟨v, hv, h⟩
  | @cons c a w u hca _ ih =>
      intro p v t hv h
      by_cases hc : c = star
      · subst hc
        have ha : a = c := (hca.resolve_left hsa).symm
        subst ha
        rcases List.suffix_cons_iff.mp hv with rfl | hv'
        · -- in step with the literal stretch: this `star` is pinned
          exact ih (List.suffix_refl _) (pinned_facing_iff.mp h)
        · by_cases hh : v.head? = some a
          · obtain ⟨v', rfl⟩ := List.head?_eq_some_iff.mp hh
            exact ih ((List.suffix_cons a v').trans hv') (pinned_facing_iff.mp h)
          · obtain ⟨x, y, rfl, hy⟩ := (pinned_free_iff hh).mp h
            exact ih ((List.suffix_append x y).trans hv') hy
      · cases v with
        | nil => exact absurd h (not_pinned_letter_nil hc)
        | cons b v =>
            have hrest := ((pinned_letter_iff hc).mp h).2
            rcases List.suffix_cons_iff.mp hv with heq | hv'
            · obtain ⟨-, rfl⟩ := List.cons.inj heq
              exact ih (List.suffix_refl _) hrest
            · exact ih ((List.suffix_cons b v).trans hv') hrest

end Glob
