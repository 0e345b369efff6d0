/-
# `DdsRtps.Hdds.FnmatchGlob` — the partition matcher of the HDDS shape_main

`fnmatch_glob` (srcRs/HDDS/src/main.rs) matches one partition name against
another with two indices and one remembered star.  Its loop is `fnmatchStep`,
one turn of the `while`, iterated by `Loop.run`; the fuel is the product the
measure of `fnmatchStep_measure` needs, and `fnmatchGlob_isSome` says it is
never used up.  The text index goes back at every mismatch behind a star; what
never goes back is the place the star was given (`starTx_mono`), and it moves
on between two such turns (`starTx_lt_of_resets`).

The body asks first whether the two current bytes agree, and only then
whether the pattern stands at a `*`.  A `*` in the pattern that meets a `*` in
the text is therefore read as the letter, and no star is remembered.  What the
loop accepts is `Glob.Pinned`, not `Glob.Matches` (`fnmatchGlob_eq_true_iff`):
one implies the other, and they agree on texts without `*`.
-/
import DdsRtps.Lib.Loop
import DdsRtps.Lib.Glob
import Mathlib.Data.List.TakeWhile

namespace DdsRtps.Hdds

open Glob (Matches Pinned Literal)

/-- `b'*'`. -/
def starByte : UInt8 := 42

/-- `b'?'`. -/
def anyByte : UInt8 := 63

/-- The local variables of `fnmatch_glob`. -/
structure GlobState where
  px : Nat
  tx : Nat
  starPx : Option Nat
  starTx : Nat
deriving DecidableEq, Repr

/-- The loop after the loop: skip trailing stars, then ask for the end. -/
def trailingStars (pat : List UInt8) (px : Nat) : Bool :=
  px + ((pat.drop px).takeWhile (· == starByte)).length == pat.length

/-- One turn of the `while px < pat.len() && pat[px] == b'*'` behind the loop. -/
def trailingStep (pat : List UInt8) (px : Nat) : Nat ⊕ Bool :=
  if px < pat.length ∧ pat[px]? = some starByte then .inl (px + 1) else .inr (px == pat.length)

/-- One turn of the `while tx < txt.len()` of `fnmatch_glob`. -/
def fnmatchStep (pat txt : List UInt8) (s : GlobState) : GlobState ⊕ Bool :=
  if s.tx < txt.length then
    if s.px < pat.length ∧ (pat[s.px]? = some anyByte ∨ pat[s.px]? = txt[s.tx]?) then
      .inl { s with px := s.px + 1, tx := s.tx + 1 }
    else if s.px < pat.length ∧ pat[s.px]? = some starByte then
      .inl { s with px := s.px + 1, starPx := some s.px, starTx := s.tx }
    else
      match s.starPx with
      | some spx => .inl { s with px := spx + 1, tx := s.starTx + 1, starTx := s.starTx + 1 }
      | none => .inr false
  else
    .inr (trailingStars pat s.px)

/-- `fnmatch_glob`; `none` would be a loop that has not ended. -/
def fnmatchGlob (pattern text : List UInt8) : Option Bool :=
  Loop.run (fnmatchStep pattern text) ((text.length + 1) * (pattern.length + 1))
    { px := 0, tx := 0, starPx := none, starTx := 0 }

/-! ## What one turn does -/

/-- The shape of the local variables at the head of the loop.  `stretch` is
the heart: since the remembered star, pattern and text have been read in step
and byte by byte. -/
structure GlobState.Wf (pat txt : List UInt8) (s : GlobState) : Prop where
  px_le : s.px ≤ pat.length
  tx_le : s.tx ≤ txt.length
  starTx_le : s.starTx ≤ s.tx
  stretch : ∀ spx, s.starPx = some spx → spx < pat.length ∧
    ∃ w u, Literal anyByte w u ∧ pat.drop (spx + 1) = w ++ pat.drop s.px ∧
      txt.drop s.starTx = u ++ txt.drop s.tx

/-- Every turn is one of three, and each exit one of two. -/
theorem fnmatchStep_cases (pat txt : List UInt8) (s : GlobState) :
    (∃ c a p t, pat.drop s.px = c :: p ∧ txt.drop s.tx = a :: t ∧ (c = anyByte ∨ c = a) ∧
        fnmatchStep pat txt s = .inl { s with px := s.px + 1, tx := s.tx + 1 }) ∨
    (∃ a p t, pat.drop s.px = starByte :: p ∧ txt.drop s.tx = a :: t ∧ a ≠ starByte ∧
        fnmatchStep pat txt s =
          .inl { s with px := s.px + 1, starPx := some s.px, starTx := s.tx }) ∨
    (∃ spx a t, s.starPx = some spx ∧ txt.drop s.tx = a :: t ∧
        ¬ Pinned starByte anyByte (pat.drop s.px) (a :: t) ∧
        fnmatchStep pat txt s =
          .inl { s with px := spx + 1, tx := s.starTx + 1, starTx := s.starTx + 1 }) ∨
    (∃ a t, s.starPx = none ∧ txt.drop s.tx = a :: t ∧
        ¬ Pinned starByte anyByte (pat.drop s.px) (a :: t) ∧
        fnmatchStep pat txt s = .inr false) ∨
    (txt.drop s.tx = [] ∧ fnmatchStep pat txt s = .inr (trailingStars pat s.px)) := by
  unfold fnmatchStep
  by_cases htx : s.tx < txt.length
  · have ht := List.drop_eq_getElem_cons htx
    rw [if_pos htx]
    by_cases hpx : s.px < pat.length
    · have hp := List.drop_eq_getElem_cons hpx
      by_cases hlit : pat[s.px] = anyByte ∨ pat[s.px] = txt[s.tx]
      · refine .inl ⟨_, _, _, _, hp, ht, hlit, ?_⟩
        rw [if_pos (by simpa [hpx, htx] using hlit)]
      · obtain ⟨hany, hne⟩ := not_or.mp hlit
        rw [if_neg (by simp [hpx, htx, hany, hne])]
        by_cases hstar : pat[s.px] = starByte
        · refine .inr (.inl ⟨_, _, _, by rw [hp, hstar], ht, fun h => hne (hstar.trans h.symm), ?_⟩)
          rw [if_pos (by simp [hpx, hstar])]
        · -- a letter that does not fit: back to the star, if there is one
          have hno : ¬ Pinned starByte anyByte (pat.drop s.px) (txt[s.tx] :: txt.drop (s.tx + 1)) := by
            rw [hp, Glob.pinned_letter_iff hstar]
            exact fun h => hlit h.1
          rw [if_neg (by simp [hpx, hstar])]
          cases hs : s.starPx with
          | some spx => exact .inr (.inr (.inl ⟨spx, _, _, rfl, ht, hno, rfl⟩))
          | none => exact .inr (.inr (.inr (.inl ⟨_, _, rfl, ht, hno, rfl⟩)))
    · -- the pattern is used up and the text is not
      have hno : ¬ Pinned starByte anyByte (pat.drop s.px) (txt[s.tx] :: txt.drop (s.tx + 1)) := by
        rw [List.drop_eq_nil_of_le (Nat.le_of_not_lt hpx)]
        simp [htx]
      rw [if_neg (fun h => hpx h.1), if_neg (fun h => hpx h.1)]
      cases hs : s.starPx with
      | some spx => exact .inr (.inr (.inl ⟨spx, _, _, rfl, ht, hno, rfl⟩))
      | none => exact .inr (.inr (.inr (.inl ⟨_, _, rfl, ht, hno, rfl⟩)))
  · rw [if_neg htx]
    exact .inr (.inr (.inr (.inr ⟨List.drop_eq_nil_of_le (Nat.le_of_not_lt htx), rfl⟩)))

/-! ## The loop ends -/

theorem init_wf (pat txt : List UInt8) :
    GlobState.Wf pat txt { px := 0, tx := 0, starPx := none, starTx := 0 } where
  px_le := Nat.zero_le _
  tx_le := Nat.zero_le _
  starTx_le := Nat.le_refl _
  stretch := fun _ h => by simp at h

theorem lt_of_drop_eq_cons {α : Type*} {l : List α} {n : Nat} {a : α} {t : List α}
    (h : l.drop n = a :: t) : n < l.length := by
  by_contra hn
  rw [List.drop_eq_nil_of_le (Nat.le_of_not_lt hn)] at h
  simp at h

theorem drop_succ_of_drop_eq_cons {α : Type*} {l : List α} {n : Nat} {a : α} {t : List α}
    (h : l.drop n = a :: t) : l.drop (n + 1) = t := by
  rw [← List.tail_drop, h, List.tail_cons]

theorem eq_or_suffix_tail {α : Type*} {l v : List α} (h : v <:+ l) : v = l ∨ v <:+ l.tail := by
  cases l with
  | nil => exact .inl (List.suffix_nil.mp h)
  | cons a l => exact List.suffix_cons_iff.mp h

/-- Every turn keeps the shape of the state. -/
theorem fnmatchStep_wf {pat txt : List UInt8} {s s' : GlobState} (hwf : s.Wf pat txt)
    (h : fnmatchStep pat txt s = .inl s') : s'.Wf pat txt := by
  rcases fnmatchStep_cases pat txt s with
    ⟨c, a, p, t, hp, ht, hca, hs⟩ | ⟨a, p, t, hp, ht, -, hs⟩ | ⟨spx, a, t, hspx, ht, -, hs⟩ |
    ⟨a, t, -, -, -, hs⟩ | ⟨-, hs⟩
  · obtain rfl := Sum.inl.inj (hs.symm.trans h)
    refine ⟨lt_of_drop_eq_cons hp, lt_of_drop_eq_cons ht, Nat.le_succ_of_le hwf.starTx_le, ?_⟩
    intro spx hspx
    obtain ⟨hlt, w, u, hwu, hw, hu⟩ := hwf.stretch spx hspx
    refine ⟨hlt, w ++ [c], u ++ [a], List.rel_append hwu (.cons hca .nil), ?_, ?_⟩
    · rw [hw, hp, drop_succ_of_drop_eq_cons hp]
      simp
    · rw [hu, ht, drop_succ_of_drop_eq_cons ht]
      simp
  · obtain rfl := Sum.inl.inj (hs.symm.trans h)
    refine ⟨lt_of_drop_eq_cons hp, hwf.tx_le, Nat.le_refl _, ?_⟩
    rintro spx hspx
    obtain rfl := Option.some.inj hspx
    exact ⟨lt_of_drop_eq_cons hp, [], [], .nil, rfl, rfl⟩
  · obtain rfl := Sum.inl.inj (hs.symm.trans h)
    have hlt := (hwf.stretch spx hspx).1
    refine ⟨hlt, Nat.lt_of_le_of_lt hwf.starTx_le (lt_of_drop_eq_cons ht), Nat.le_refl _, ?_⟩
    rintro spx' hspx'
    obtain rfl := Option.some.inj (hspx.symm.trans hspx')
    exact ⟨hlt, [], [], .nil, rfl, rfl⟩
  · exact absurd (hs.symm.trans h) (by simp)
  · exact absurd (hs.symm.trans h) (by simp)

/-- The measure of the loop: the candidate places left for the remembered
star, and below that the pattern left. -/
def GlobState.measure (pat txt : List UInt8) (s : GlobState) : Nat :=
  (txt.length - s.starTx) * (pat.length + 1) + (pat.length - s.px)

theorem measure_lt_of_starTx {pat txt : List UInt8} {s s' : GlobState}
    (hle : s.starTx ≤ s'.starTx) (hpx : s.px < pat.length) (hpx' : s'.px = s.px + 1) :
    s'.measure pat txt < s.measure pat txt := by
  have hmul := Nat.mul_le_mul_right (pat.length + 1) (Nat.sub_le_sub_left hle txt.length)
  unfold GlobState.measure
  omega

theorem fnmatchStep_measure {pat txt : List UInt8} {s s' : GlobState} (hwf : s.Wf pat txt)
    (h : fnmatchStep pat txt s = .inl s') : s'.measure pat txt < s.measure pat txt := by
  rcases fnmatchStep_cases pat txt s with
    ⟨c, a, p, t, hp, -, -, hs⟩ | ⟨a, p, t, hp, -, -, hs⟩ | ⟨spx, a, t, -, ht, -, hs⟩ |
    ⟨a, t, -, -, -, hs⟩ | ⟨-, hs⟩
  · obtain rfl := Sum.inl.inj (hs.symm.trans h)
    exact measure_lt_of_starTx (Nat.le_refl _) (lt_of_drop_eq_cons hp) rfl
  · obtain rfl := Sum.inl.inj (hs.symm.trans h)
    exact measure_lt_of_starTx hwf.starTx_le (lt_of_drop_eq_cons hp) rfl
  · -- one candidate place fewer pays for the whole pattern read again
    obtain rfl := Sum.inl.inj (hs.symm.trans h)
    have hlt : s.starTx < txt.length := Nat.lt_of_le_of_lt hwf.starTx_le (lt_of_drop_eq_cons ht)
    have hmul : (txt.length - s.starTx) * (pat.length + 1) =
        (txt.length - (s.starTx + 1)) * (pat.length + 1) + (pat.length + 1) := by
      rw [show txt.length - s.starTx = txt.length - (s.starTx + 1) + 1 by omega, Nat.succ_mul]
    simp only [GlobState.measure]
    omega
  · exact absurd (hs.symm.trans h) (by simp)
  · exact absurd (hs.symm.trans h) (by simp)

/-- The fuel is never used up. -/
theorem fnmatchGlob_isSome (pat txt : List UInt8) : (fnmatchGlob pat txt).isSome := by
  refine Loop.isSome_of_measure (fun s => s.Wf pat txt) (fun s => s.measure pat txt)
    (fun s s' hwf h => ⟨fnmatchStep_wf hwf h, fnmatchStep_measure hwf h⟩) _ _ (init_wf pat txt) ?_
  simp only [GlobState.measure, Nat.sub_zero, Nat.succ_mul]
  omega

theorem trailingStep_star {pat p : List UInt8} {px : Nat} (h : pat.drop px = starByte :: p) :
    trailingStep pat px = .inl (px + 1) ∧ trailingStars pat (px + 1) = trailingStars pat px := by
  have hlt := lt_of_drop_eq_cons h
  have hget : pat[px]? = some starByte := by
    rw [← List.head?_drop, h]
    rfl
  have htake : (starByte :: p).takeWhile (· == starByte) =
      starByte :: p.takeWhile (· == starByte) := List.takeWhile_cons_of_pos (beq_self_eq_true _)
  refine ⟨if_pos ⟨hlt, hget⟩, ?_⟩
  rw [trailingStars, trailingStars, h, drop_succ_of_drop_eq_cons h, htake, List.length_cons]
  congr 1
  omega

theorem trailingStep_other {pat : List UInt8} {px : Nat} (h : (pat.drop px).head? ≠ some starByte) :
    trailingStep pat px = .inr (trailingStars pat px) := by
  have hnone : (pat.drop px).takeWhile (· == starByte) = [] := by
    cases hd : pat.drop px with
    | nil => rfl
    | cons c p =>
        have hc : c ≠ starByte := fun heq => h (by rw [hd, heq]; rfl)
        exact List.takeWhile_cons_of_neg (by simpa using hc)
  rw [List.head?_drop] at h
  rw [trailingStep, if_neg (fun hand => h hand.2), trailingStars, hnone]
  rfl

/-- The loop behind the loop ends too, and with what `trailingStars` says. -/
theorem trailingStars_eq_run (pat : List UInt8) (px : Nat) :
    ∃ n, Loop.run (trailingStep pat) n px = some (trailingStars pat px) := by
  induction hleft : pat.drop px generalizing px with
  | nil =>
      refine ⟨1, Loop.run_succ_inr (trailingStep_other ?_)⟩
      rw [hleft]
      exact nofun
  | cons c p ih =>
      by_cases hc : c = starByte
      · obtain ⟨hstep, hstars⟩ := trailingStep_star (hc ▸ hleft)
        obtain ⟨n, hn⟩ := ih (px + 1) (drop_succ_of_drop_eq_cons hleft)
        exact ⟨n + 1, (Loop.run_succ_inl hstep).trans (hn.trans (congrArg some hstars))⟩
      · refine ⟨1, Loop.run_succ_inr (trailingStep_other ?_)⟩
        rw [hleft]
        exact fun heq => hc (Option.some.inj heq)

/-! ## The way of the star -/

/-- The local variables after so many turns, if the loop has not been left by then. -/
def globAfter (pat txt : List UInt8) : Nat → Option GlobState :=
  Loop.stateAfter (fnmatchStep pat txt) { px := 0, tx := 0, starPx := none, starTx := 0 }

/-- The next turn goes back behind the star at `spx`. -/
def Resets (pat txt : List UInt8) (spx : Nat) (s : GlobState) : Prop :=
  s.tx < txt.length ∧
    ¬ (s.px < pat.length ∧ (pat[s.px]? = some anyByte ∨ pat[s.px]? = txt[s.tx]?)) ∧
    ¬ (s.px < pat.length ∧ pat[s.px]? = some starByte) ∧ s.starPx = some spx
deriving Decidable

theorem fnmatchStep_of_resets {pat txt : List UInt8} {spx : Nat} {s : GlobState}
    (h : Resets pat txt spx s) :
    fnmatchStep pat txt s =
      .inl { s with px := spx + 1, tx := s.starTx + 1, starTx := s.starTx + 1 } := by
  obtain ⟨htx, hlit, hstar, hspx⟩ := h
  rw [fnmatchStep, if_pos htx, if_neg hlit, if_neg hstar]
  simp only [hspx]

theorem fnmatchStep_starTx {pat txt : List UInt8} {s s' : GlobState} (hwf : s.Wf pat txt)
    (h : fnmatchStep pat txt s = .inl s') : s.starTx ≤ s'.starTx := by
  rcases fnmatchStep_cases pat txt s with
    ⟨c, a, p, t, -, -, -, hs⟩ | ⟨a, p, t, -, -, -, hs⟩ | ⟨spx, a, t, -, -, -, hs⟩ |
    ⟨a, t, -, -, -, hs⟩ | ⟨-, hs⟩
  · obtain rfl := Sum.inl.inj (hs.symm.trans h)
    exact Nat.le_refl _
  · -- a new star is given the present place, which no star has passed
    obtain rfl := Sum.inl.inj (hs.symm.trans h)
    exact hwf.starTx_le
  · obtain rfl := Sum.inl.inj (hs.symm.trans h)
    exact Nat.le_succ _
  · exact absurd (hs.symm.trans h) (by simp)
  · exact absurd (hs.symm.trans h) (by simp)

theorem starTx_mono {pat txt : List UInt8} {j k : Nat} {s s' : GlobState} (hjk : j ≤ k)
    (hs : globAfter pat txt j = some s) (hs' : globAfter pat txt k = some s') :
    s.starTx ≤ s'.starTx :=
  Loop.stateAfter_mono (fun s => s.Wf pat txt) GlobState.starTx
    (fun _ _ hwf h => ⟨fnmatchStep_wf hwf h, fnmatchStep_starTx hwf h⟩) (init_wf pat txt) hjk hs hs'

/-- A turn back leaves the star at a later place, and no turn after it undoes that. -/
theorem starTx_lt_of_resets {pat txt : List UInt8} {spx j k : Nat} {s s' : GlobState} (hjk : j < k)
    (hs : globAfter pat txt j = some s) (hs' : globAfter pat txt k = some s')
    (hreset : Resets pat txt spx s) : s.starTx < s'.starTx := by
  have hnext : globAfter pat txt (j + 1) =
      some { s with px := spx + 1, tx := s.starTx + 1, starTx := s.starTx + 1 } :=
    Loop.stateAfter_succ_iff.mpr ⟨s, hs, fnmatchStep_of_resets hreset⟩
  exact Nat.lt_of_succ_le (starTx_mono hjk hnext hs')

/-- `fnmatch_glob` ends on every pattern and text: its loop is left after some
number of turns, and the loop behind it is left too.  On the way `star_tx`
never falls, and it grows between two turns back to the same star. -/
theorem fnmatchGlob_terminates (pat txt : List UInt8) :
    (∃ k < (txt.length + 1) * (pat.length + 1), ∃ s b, globAfter pat txt k = some s ∧
        fnmatchStep pat txt s = .inr b ∧ fnmatchGlob pat txt = some b) ∧
      (∀ px, ∃ n, Loop.run (trailingStep pat) n px = some (trailingStars pat px)) ∧
      (∀ j k s s', j ≤ k → globAfter pat txt j = some s → globAfter pat txt k = some s' →
        s.starTx ≤ s'.starTx) ∧
      ∀ spx j k s s', j < k → globAfter pat txt j = some s → globAfter pat txt k = some s' →
        Resets pat txt spx s → Resets pat txt spx s' → s.starTx < s'.starTx := by
  refine ⟨?_, trailingStars_eq_run pat, ?_, ?_⟩
  · obtain ⟨b, hb⟩ := Option.isSome_iff_exists.mp (fnmatchGlob_isSome pat txt)
    obtain ⟨k, hk, s, hs, hexit⟩ := Loop.exists_exit_of_run hb
    exact ⟨k, hk, s, b, hs, hexit, hb⟩
  · intro j k s s' hjk hs hs'
    exact starTx_mono hjk hs hs'
  · intro spx j k s s' hjk hs hs' hreset _
    exact starTx_lt_of_resets hjk hs hs' hreset

/-- `*ab` on `aaab`: two turns back to the one star. -/
theorem fnmatchGlob_terminates_at_two_resets :
    ∃ s s', globAfter [42, 97, 98] [97, 97, 97, 98] 2 = some s ∧
      globAfter [42, 97, 98] [97, 97, 97, 98] 4 = some s' ∧ s.starTx < s'.starTx :=
  ⟨{ px := 2, tx := 1, starPx := some 0, starTx := 0 },
    { px := 2, tx := 2, starPx := some 0, starTx := 1 }, by decide, by decide,
    (fnmatchGlob_terminates [42, 97, 98] [97, 97, 97, 98]).2.2.2 0 2 4 _ _ (by decide)
      (by decide) (by decide) (by decide) (by decide)⟩

/-! ## What the loop accepts -/

/-- What is still to be decided at the head of the loop: the rest of the
pattern against the rest of the text, or what follows the remembered star
against a later rest. -/
def GlobState.Accepts (pat txt : List UInt8) (s : GlobState) : Prop :=
  Pinned starByte anyByte (pat.drop s.px) (txt.drop s.tx) ∨
    ∃ spx v, s.starPx = some spx ∧ v <:+ txt.drop (s.starTx + 1) ∧
      Pinned starByte anyByte (pat.drop (spx + 1)) v

theorem star_ne_any : starByte ≠ anyByte := by decide

/-- What an older star could still reach, the place just read reaches too. -/
theorem exists_suffix_of_accepts {pat txt : List UInt8} {s : GlobState} (hwf : s.Wf pat txt)
    (h : s.Accepts pat txt) :
    ∃ v, v <:+ txt.drop s.tx ∧ Pinned starByte anyByte (pat.drop s.px) v := by
  rcases h with h | ⟨spx, v, hspx, hv, h⟩
  · exact ⟨_, List.suffix_refl _, h⟩
  · obtain ⟨-, w, u, hwu, hw, hu⟩ := hwf.stretch spx hspx
    rw [hw] at h
    refine Glob.pinned_behind_literal hwu star_ne_any (hv.trans ?_) h
    rw [← hu, ← List.tail_drop]
    exact List.tail_suffix _

theorem exists_suffix_of_pinned_star {p v : List UInt8}
    (h : Pinned starByte anyByte (starByte :: p) v) :
    ∃ v', v' <:+ v ∧ Pinned starByte anyByte p v' := by
  by_cases hv : v.head? = some starByte
  · obtain ⟨t, rfl⟩ := List.head?_eq_some_iff.mp hv
    exact ⟨t, List.suffix_cons _ _, Glob.pinned_facing_iff.mp h⟩
  · obtain ⟨x, y, rfl, hy⟩ := (Glob.pinned_free_iff hv).mp h
    exact ⟨y, List.suffix_append _ _, hy⟩

/-- No turn changes what is still to be decided. -/
theorem fnmatchStep_accepts {pat txt : List UInt8} {s s' : GlobState} (hwf : s.Wf pat txt)
    (h : fnmatchStep pat txt s = .inl s') : s.Accepts pat txt ↔ s'.Accepts pat txt := by
  rcases fnmatchStep_cases pat txt s with
    ⟨c, a, p, t, hp, ht, hca, hs⟩ | ⟨a, p, t, hp, ht, ha, hs⟩ | ⟨spx, a, t, hspx, ht, hno, hs⟩ |
    ⟨a, t, -, -, -, hs⟩ | ⟨-, hs⟩
  · obtain rfl := Sum.inl.inj (hs.symm.trans h)
    have hhead : Pinned starByte anyByte (c :: p) (a :: t) ↔ Pinned starByte anyByte p t := by
      by_cases hc : c = starByte
      · subst hc
        obtain rfl := hca.resolve_left star_ne_any
        exact Glob.pinned_facing_iff
      · rw [Glob.pinned_letter_iff hc]
        exact and_iff_right hca
    simp only [GlobState.Accepts]
    rw [hp, ht, drop_succ_of_drop_eq_cons hp, drop_succ_of_drop_eq_cons ht, hhead]
  · obtain rfl := Sum.inl.inj (hs.symm.trans h)
    have htail := drop_succ_of_drop_eq_cons ht
    constructor
    · intro hacc
      obtain ⟨v, hv, hpv⟩ := exists_suffix_of_accepts hwf hacc
      rw [hp] at hpv
      obtain ⟨v', hv', hpv'⟩ := exists_suffix_of_pinned_star hpv
      rw [ht] at hv
      have hsuf := hv'.trans hv
      simp only [GlobState.Accepts, drop_succ_of_drop_eq_cons hp, ht, htail]
      rcases List.suffix_cons_iff.mp hsuf with rfl | hsuf
      · exact .inl hpv'
      · exact .inr ⟨s.px, v', rfl, hsuf, by rwa [drop_succ_of_drop_eq_cons hp]⟩
    · intro hacc
      have hfree : (a :: t).head? ≠ some starByte := by simpa using ha
      simp only [GlobState.Accepts, drop_succ_of_drop_eq_cons hp, ht, htail] at hacc
      rw [GlobState.Accepts, hp, ht, Glob.pinned_free_iff hfree]
      refine .inl ?_
      rcases hacc with hpv | ⟨spx, v, hspx, ⟨u, hu⟩, hpv⟩
      · exact ⟨[], a :: t, rfl, hpv⟩
      · obtain rfl := Option.some.inj hspx
        rw [drop_succ_of_drop_eq_cons hp] at hpv
        exact ⟨a :: u, v, by simp [hu], hpv⟩
  · obtain rfl := Sum.inl.inj (hs.symm.trans h)
    simp only [GlobState.Accepts, ht, hno, false_or, hspx]
    constructor
    · rintro ⟨spx', v, hspx', hv, hpv⟩
      obtain rfl := Option.some.inj hspx'
      rcases eq_or_suffix_tail hv with rfl | hv'
      · exact .inl hpv
      · exact .inr ⟨spx, v, rfl, by simpa using hv', hpv⟩
    · rintro (hpv | ⟨spx', v, hspx', hv, hpv⟩)
      · exact ⟨spx, _, rfl, List.suffix_refl _, hpv⟩
      · obtain rfl := Option.some.inj hspx'
        refine ⟨spx, v, rfl, hv.trans ?_, hpv⟩
        rw [← List.tail_drop]
        exact List.tail_suffix _
  · exact absurd (hs.symm.trans h) (by simp)
  · exact absurd (hs.symm.trans h) (by simp)

theorem trailingStars_iff {pat : List UInt8} {px : Nat} (h : px ≤ pat.length) :
    trailingStars pat px = true ↔ ∀ c ∈ pat.drop px, c = starByte := by
  have hlen : ((pat.drop px).takeWhile (· == starByte)).length ≤ (pat.drop px).length :=
    (List.takeWhile_prefix _).length_le
  rw [List.length_drop] at hlen
  have hall := List.takeWhile_eq_self_iff (p := (· == starByte)) (l := pat.drop px)
  simp only [beq_iff_eq] at hall
  rw [trailingStars, beq_iff_eq, ← hall]
  constructor
  · intro heq
    refine (List.takeWhile_prefix _).eq_of_length ?_
    rw [List.length_drop]
    omega
  · intro heq
    rw [heq, List.length_drop]
    omega

/-- Each exit answers what is still to be decided. -/
theorem fnmatchStep_exit {pat txt : List UInt8} {s : GlobState} {b : Bool} (hwf : s.Wf pat txt)
    (h : fnmatchStep pat txt s = .inr b) : s.Accepts pat txt ↔ b = true := by
  rcases fnmatchStep_cases pat txt s with
    ⟨c, a, p, t, -, -, -, hs⟩ | ⟨a, p, t, -, -, -, hs⟩ | ⟨spx, a, t, -, -, -, hs⟩ |
    ⟨a, t, hnone, ht, hno, hs⟩ | ⟨ht, hs⟩
  · exact absurd (hs.symm.trans h) (by simp)
  · exact absurd (hs.symm.trans h) (by simp)
  · exact absurd (hs.symm.trans h) (by simp)
  · obtain rfl := Sum.inr.inj (hs.symm.trans h)
    simp [GlobState.Accepts, hnone, ht, hno]
  · obtain rfl := Sum.inr.inj (hs.symm.trans h)
    rw [trailingStars_iff hwf.px_le, ← Glob.pinned_empty_text_iff anyByte]
    constructor
    · intro hacc
      obtain ⟨v, hv, hpv⟩ := exists_suffix_of_accepts hwf hacc
      rw [ht, List.suffix_nil] at hv
      rwa [hv] at hpv
    · intro hp
      rw [GlobState.Accepts, ht]
      exact .inl hp

/-- The loop decides the pinned language. -/
theorem fnmatchGlob_eq_true_iff (pat txt : List UInt8) :
    fnmatchGlob pat txt = some true ↔ Pinned starByte anyByte pat txt := by
  obtain ⟨b, hb⟩ := Option.isSome_iff_exists.mp (fnmatchGlob_isSome pat txt)
  have hpost : Pinned starByte anyByte pat txt ↔ b = true := by
    refine Loop.post_of_inv
      (fun s => s.Wf pat txt ∧ (Pinned starByte anyByte pat txt ↔ s.Accepts pat txt))
      (fun b => Pinned starByte anyByte pat txt ↔ b = true) ?_ ?_ _ _ b ⟨init_wf pat txt, ?_⟩ hb
    · rintro s s' ⟨hwf, hacc⟩ hs
      exact ⟨fnmatchStep_wf hwf hs, hacc.trans (fnmatchStep_accepts hwf hs)⟩
    · rintro s b ⟨hwf, hacc⟩ hs
      exact hacc.trans (fnmatchStep_exit hwf hs)
    · simp [GlobState.Accepts]
  rw [hb, hpost, Option.some_inj]

/-- A partition name without `*` is matched as a shell would match it. -/
theorem fnmatchGlob_of_no_star {pat txt : List UInt8} (h : starByte ∉ txt) :
    fnmatchGlob pat txt = some true ↔ Matches starByte anyByte pat txt := by
  rw [fnmatchGlob_eq_true_iff]
  exact ⟨Glob.matches_of_pinned, Glob.pinned_of_matches_of_no_star h⟩

/-- `fnmatch_glob` answers as the glob language says exactly where a match, if
there is one, is found with every `*` that faces a `*` byte of the text taken
for that one byte. -/
theorem fnmatchGlob_exact_iff (pat txt : List UInt8) :
    (fnmatchGlob pat txt = some true ↔ Matches starByte anyByte pat txt) ↔
      (Matches starByte anyByte pat txt → Pinned starByte anyByte pat txt) := by
  rw [fnmatchGlob_eq_true_iff]
  exact ⟨fun h => h.mpr, fun h => ⟨Glob.matches_of_pinned, h⟩⟩

/-- The pattern `*` matches the text `*a`, and is refused. -/
theorem fnmatchGlob_star_missed :
    Matches starByte anyByte [starByte] [starByte, 97] ∧
      ¬ (fnmatchGlob [starByte] [starByte, 97] = some true ↔
        Matches starByte anyByte [starByte] [starByte, 97]) := by
  have hmatch : Matches starByte anyByte [starByte] [starByte, 97] :=
    ⟨[[starByte, 97]], by simp⟩
  have hrefused : fnmatchGlob [starByte] [starByte, 97] = some false := by decide
  exact ⟨hmatch, fun h => absurd (hrefused.symm.trans (h.mpr hmatch)) (by decide)⟩

end DdsRtps.Hdds
