/-
# `DdsRtps.Lib.Transition` — labelled transition systems and their invariants

A system is a set of initial states and a labelled step relation.  A run may
be restricted to steps of a certain kind (`allowed`); with no restriction it
is any interleaving at all.

`Reachable.invariant` is the induction over a run, done once: what holds
initially and is kept by every allowed step between reachable states holds in
every reachable state.  `Reachable.exists_minimal` goes the other way: a run
can be continued until a weight is at its least.
-/
import Mathlib.Tactic.ByContra
import Mathlib.Tactic.TypeStar

namespace Transition

/-- A labelled transition system. -/
structure System (σ l : Type*) where
  init : σ → Prop
  step : σ → l → σ → Prop

variable {σ l : Type*}

/-- The states of the runs all of whose steps are allowed. -/
inductive System.Reachable (S : System σ l) (allowed : σ → l → Prop) : σ → Prop
  | init {s : σ} : S.init s → S.Reachable allowed s
  | step {s s' : σ} {a : l} : S.Reachable allowed s → allowed s a → S.step s a s' →
      S.Reachable allowed s'

/-- No restriction: every interleaving. -/
def anyStep (_ : σ) (_ : l) : Prop := True

variable {S : System σ l} {allowed : σ → l → Prop}

/-- The invariant rule. -/
theorem System.Reachable.invariant (I : σ → Prop) (hinit : ∀ s, S.init s → I s)
    (hstep : ∀ s a s', I s → allowed s a → S.step s a s' → I s') {s : σ}
    (h : S.Reachable allowed s) : I s := by
  induction h with
  | init h => exact hinit _ h
  | step _ ha hs ih => exact hstep _ _ _ ih ha hs

/-- A run can go on until no step makes a weight smaller. -/
theorem System.Reachable.exists_minimal (weight : σ → Nat) {s : σ} (h : S.Reachable allowed s) :
    ∃ t, S.Reachable allowed t ∧
      ∀ a t', allowed t a → S.step t a t' → weight t ≤ weight t' := by
  induction hweight : weight s using Nat.strongRecOn generalizing s with
  | ind w ih =>
      by_cases hless : ∃ a t, allowed s a ∧ S.step s a t ∧ weight t < weight s
      · obtain ⟨a, t, ha, hstep, hlt⟩ := hless
        exact ih (weight t) (hweight ▸ hlt) (h.step ha hstep) rfl
      · refine ⟨s, h, fun a t ha hstep => ?_⟩
        by_contra hle
        exact hless ⟨a, t, ha, hstep, Nat.lt_of_not_le hle⟩

end Transition
