/-
# `DdsRtps.Lib.Loop` — `while` loops as a step function

A loop is a function `step : σ → σ ⊕ β`: `.inl s'` is one more turn of the
body, ending in the state `s'`, and `.inr b` is the exit with the result `b`.
`Loop.run` iterates it on a number of turns given in advance, and answers
`none` when they are used up, so that a definition by `run` is structural and
evaluates.

`Loop.drive` is for a loop whose turns each see something from outside: it goes
as far as the list of what they see.

There are three rules for `run`.  `Loop.post_of_inv` is the partial half, an
invariant with a postcondition; `Loop.isSome_of_measure` is the total half, a
measure that every turn lowers.  Neither mentions the other: a loop that is
proved right and never proved to end has only the first.
`Loop.run_eq_none_of_inv` is for a loop that does not end.

`Loop.after` is for a loop that is watched turn by turn: it follows a function
for as long as each of its turns does (`Loop.after_eq_iterate_iff`).
`Loop.stateAfter` watches a loop with an exit so: a run that returns goes
through a last state (`Loop.exists_exit_of_run`), and what no turn lowers is
never lowered on the way (`Loop.stateAfter_mono`).
-/
import Mathlib.Data.List.Range
import Mathlib.Data.Option.Basic
import Mathlib.Logic.Function.Iterate

namespace Loop

variable {σ β : Type*}

/-- At most `n` turns of the loop from the state `s`. -/
def run (step : σ → σ ⊕ β) : Nat → σ → Option β
  | 0, _ => none
  | n + 1, s =>
      match step s with
      | .inl s' => run step n s'
      | .inr b => some b

variable {step : σ → σ ⊕ β}

theorem run_succ_inl {n : Nat} {s s' : σ} (h : step s = .inl s') :
    run step (n + 1) s = run step n s' := by
  simp [run, h]

theorem run_succ_inr {n : Nat} {s : σ} {b : β} (h : step s = .inr b) :
    run step (n + 1) s = some b := by
  simp [run, h]

/-- The invariant rule: what every turn keeps, and every exit turns into
`Q`, gives `Q` of whatever the loop returns. -/
theorem post_of_inv (I : σ → Prop) (Q : β → Prop)
    (hturn : ∀ s s', I s → step s = .inl s' → I s')
    (hexit : ∀ s b, I s → step s = .inr b → Q b) :
    ∀ (n : Nat) (s : σ) (b : β), I s → run step n s = some b → Q b := by
  intro n
  induction n with
  | zero =>
      intro s b _ h
      simp [run] at h
  | succ n ih =>
      intro s b hI h
      cases hs : step s with
      | inl s' =>
          rw [run_succ_inl hs] at h
          exact ih s' b (hturn s s' hI hs) h
      | inr b' =>
          rw [run_succ_inr hs] at h
          obtain rfl := Option.some.inj h
          exact hexit s b' hI hs

/-- The measure rule: under an invariant, a measure that every turn lowers
bounds the number of turns. -/
theorem isSome_of_measure (I : σ → Prop) (μ : σ → Nat)
    (hturn : ∀ s s', I s → step s = .inl s' → I s' ∧ μ s' < μ s) :
    ∀ (n : Nat) (s : σ), I s → μ s < n → (run step n s).isSome := by
  intro n
  induction n with
  | zero =>
      intro s _ hμ
      exact absurd hμ (Nat.not_lt_zero _)
  | succ n ih =>
      intro s hI hμ
      cases hs : step s with
      | inl s' =>
          have hs' := hturn s s' hI hs
          rw [run_succ_inl hs]
          exact ih s' hs'.1 (by omega)
      | inr b =>
          rw [run_succ_inr hs]
          rfl

/-- More turns than are needed change nothing. -/
theorem run_le {n m : Nat} {s : σ} {b : β} (h : run step n s = some b) (hle : n ≤ m) :
    run step m s = some b := by
  induction n generalizing m s with
  | zero => cases h
  | succ n ih =>
      obtain ⟨m, rfl⟩ : ∃ m', m = m' + 1 := ⟨m - 1, by omega⟩
      cases hs : step s with
      | inl s' =>
          rw [run_succ_inl hs] at h ⊢
          exact ih h (by omega)
      | inr b' =>
          rw [run_succ_inr hs] at h ⊢
          exact h

/-- The rule for a loop that does not end: an invariant that makes another turn. -/
theorem run_eq_none_of_inv (I : σ → Prop) (hturn : ∀ s, I s → ∃ s', step s = .inl s' ∧ I s') :
    ∀ (n : Nat) (s : σ), I s → run step n s = none := by
  intro n
  induction n with
  | zero =>
      intro s _
      rfl
  | succ n ih =>
      intro s hI
      obtain ⟨s', hs, hI'⟩ := hturn s hI
      rw [run_succ_inl hs]
      exact ih s' hI'

/-! ## Turns that see something -/

section Drive

variable {ι : Type*}

/-- A turn for each of the inputs, unless the loop is left before. -/
def drive (step : ι → σ → σ ⊕ β) : List ι → σ → σ ⊕ β
  | [], s => .inl s
  | i :: inputs, s =>
      match step i s with
      | .inl s' => drive step inputs s'
      | .inr b => .inr b

variable {step : ι → σ → σ ⊕ β}

theorem drive_concat (inputs : List ι) (i : ι) (s : σ) :
    drive step (inputs ++ [i]) s =
      match drive step inputs s with
      | .inl s' => step i s'
      | .inr b => .inr b := by
  induction inputs generalizing s with
  | nil =>
      show (match step i s with
        | .inl s' => .inl s'
        | .inr b => .inr b) = step i s
      cases step i s with
      | inl s' => rfl
      | inr b => rfl
  | cons j inputs ih =>
      rw [List.cons_append, drive, drive]
      cases step j s with
      | inl s' => exact ih s'
      | inr b => rfl

/-- The invariant rule, for a loop that is left and for one that is not; the
invariant knows how many turns were made. -/
theorem drive_inv (I : Nat → σ → Prop) (Q : Nat → β → Prop)
    (hturn : ∀ i t s s', I t s → step i s = .inl s' → I (t + 1) s')
    (hexit : ∀ i t s b, I t s → step i s = .inr b → Q t b) {t : Nat} {s : σ} (hI : I t s)
    (inputs : List ι) :
    (∃ s', drive step inputs s = .inl s' ∧ I (t + inputs.length) s') ∨
      ∃ b m, drive step inputs s = .inr b ∧ m < t + inputs.length ∧ Q m b := by
  induction inputs generalizing t s with
  | nil => exact .inl ⟨s, rfl, hI⟩
  | cons i inputs ih =>
      rw [drive, List.length_cons]
      cases hs : step i s with
      | inl s' =>
          have hlength : t + (inputs.length + 1) = t + 1 + inputs.length := by omega
          rw [hlength]
          exact ih (hturn i t s s' hI hs)
      | inr b => exact .inr ⟨b, t, rfl, by omega, hexit i t s b hI hs⟩

/-- What every turn keeps holds of the state after all of the inputs. -/
theorem drive_inl_inv (I : σ → Prop) (hturn : ∀ i s s', I s → step i s = .inl s' → I s')
    {inputs : List ι} {s s' : σ} (hI : I s) (h : drive step inputs s = .inl s') : I s' := by
  have hrun := drive_inv (fun _ => I) (fun _ _ => True) (fun i _ => hturn i)
    (fun _ _ _ _ _ _ => trivial) (t := 0) hI inputs
  rcases hrun with ⟨t, ht, hIt⟩ | ⟨b, m, hb, -, -⟩
  · obtain rfl := Sum.inl.inj (ht.symm.trans h)
    exact hIt
  · cases hb.symm.trans h

/-- What every turn keeps and every exit turns into `Q` gives `Q` of what is returned. -/
theorem drive_inr_inv (I : σ → Prop) (Q : β → Prop)
    (hturn : ∀ i s s', I s → step i s = .inl s' → I s')
    (hexit : ∀ i s b, I s → step i s = .inr b → Q b) {inputs : List ι} {s : σ} {b : β} (hI : I s)
    (h : drive step inputs s = .inr b) : Q b := by
  have hrun := drive_inv (fun _ => I) (fun _ => Q) (fun i _ => hturn i) (fun i _ => hexit i)
    (t := 0) hI inputs
  rcases hrun with ⟨s', hs', -⟩ | ⟨b', m, hb', -, hQ⟩
  · cases hs'.symm.trans h
  · obtain rfl := Sum.inr.inj (hb'.symm.trans h)
    exact hQ

/-- What a turn keeps of something that a state and a result both show, the loop keeps. -/
theorem drive_elim_inv {α : Type*} {state : σ → α} {returned : β → α} (P : α → Prop)
    (hstep : ∀ i s, P (state s) → P ((step i s).elim state returned)) {s : σ} (hs : P (state s))
    (inputs : List ι) : P ((drive step inputs s).elim state returned) := by
  induction inputs generalizing s with
  | nil => exact hs
  | cons i inputs ih =>
      have hnext := hstep i s hs
      rw [drive]
      cases hi : step i s with
      | inl s' =>
          rw [hi] at hnext
          exact ih hnext
      | inr b =>
          rw [hi] at hnext
          exact hnext

/-- The invariant rule for a loop over a range, whose turns know their number. -/
theorem drive_range {step : Nat → σ → σ ⊕ β} (I : Nat → σ → Prop)
    (hturn : ∀ k s s', I k s → step k s = .inl s' → I (k + 1) s') {s : σ} (hI : I 0 s) (n : Nat) :
    (∃ t, drive step (List.range n) s = .inl t ∧ I n t) ∨
      ∃ m < n, ∃ t b, I m t ∧ step m t = .inr b ∧ drive step (List.range n) s = .inr b := by
  induction n with
  | zero => exact .inl ⟨s, rfl, hI⟩
  | succ n ih =>
      rw [List.range_succ, drive_concat]
      rcases ih with ⟨t, ht, hIt⟩ | ⟨m, hm, t, b, hIt, hexit, hb⟩
      · rw [ht]
        cases hs : step n t with
        | inl t' => exact .inl ⟨t', hs, hturn n t t' hIt hs⟩
        | inr b => exact .inr ⟨n, Nat.lt_succ_self n, t, b, hIt, hs, hs⟩
      · rw [hb]
        exact .inr ⟨m, Nat.lt_succ_of_lt hm, t, b, hIt, hexit, rfl⟩

end Drive

/-! ## Turns that may fail -/

/-- The state after so many turns, if none of them fails. -/
def after (step : σ → Option σ) (s : σ) : Nat → Option σ
  | 0 => some s
  | k + 1 => (after step s k).bind step

/-- The turns are those of a function, as long as each is. -/
theorem after_eq_iterate_iff {step : σ → Option σ} {f : σ → σ} {s : σ} {k : Nat} :
    (∀ j ≤ k, after step s j = some (f^[j] s)) ↔ ∀ j < k, step (f^[j] s) = some (f (f^[j] s)) := by
  constructor
  · intro h j hj
    have hnext := h (j + 1) hj
    rw [after, h j (Nat.le_of_lt hj), Function.iterate_succ_apply'] at hnext
    exact hnext
  · intro h j hj
    induction j with
    | zero => rfl
    | succ j ih => rw [after, ih (Nat.le_of_succ_le hj), Option.bind_some, h j hj,
        Function.iterate_succ_apply']

theorem after_front (step : σ → Option σ) (s : σ) (k : Nat) :
    after step s (k + 1) = (step s).bind (fun s' => after step s' k) := by
  induction k with
  | zero =>
      show step s = (step s).bind some
      exact (Option.bind_fun_some _).symm
  | succ k ih =>
      show (after step s (k + 1)).bind step = _
      rw [ih, Option.bind_assoc]
      rfl

/-! ## The states a loop goes through -/

/-- The state after so many turns, if the loop has not been left by then. -/
def stateAfter (step : σ → σ ⊕ β) (s : σ) : Nat → Option σ :=
  after (fun s => (step s).getLeft?) s

section StateAfter

variable {step : σ → σ ⊕ β}

theorem stateAfter_succ_iff {s t : σ} {k : Nat} :
    stateAfter step s (k + 1) = some t ↔
      ∃ s', stateAfter step s k = some s' ∧ step s' = .inl t := by
  show (stateAfter step s k).bind (fun s => (step s).getLeft?) = some t ↔ _
  rw [Option.bind_eq_some_iff]
  refine exists_congr fun s' => and_congr_right fun _ => ?_
  rw [Sum.getLeft?_eq_some_iff]

/-- A run that returns goes through a state at which the loop is left. -/
theorem exists_exit_of_run {n : Nat} {s : σ} {b : β} (h : run step n s = some b) :
    ∃ k < n, ∃ t, stateAfter step s k = some t ∧ step t = .inr b := by
  induction n generalizing s with
  | zero => cases h
  | succ n ih =>
      cases hs : step s with
      | inl s' =>
          rw [run_succ_inl hs] at h
          obtain ⟨k, hk, t, ht, hexit⟩ := ih h
          refine ⟨k + 1, Nat.succ_lt_succ hk, t, ?_, hexit⟩
          rw [stateAfter, after_front, hs]
          exact ht
      | inr b' =>
          rw [run_succ_inr hs] at h
          exact ⟨0, Nat.succ_pos n, s, rfl, hs.trans (congrArg Sum.inr (Option.some.inj h))⟩

theorem stateAfter_inv (I : σ → Prop) (hturn : ∀ s s', I s → step s = .inl s' → I s') {s t : σ}
    (hI : I s) {k : Nat} (h : stateAfter step s k = some t) : I t := by
  induction k generalizing t with
  | zero =>
      obtain rfl := Option.some.inj h
      exact hI
  | succ k ih =>
      obtain ⟨s', hs', hstep⟩ := stateAfter_succ_iff.mp h
      exact hturn s' t (ih hs') hstep

/-- What no turn lowers is not lowered by any number of turns. -/
theorem stateAfter_mono (I : σ → Prop) (f : σ → Nat)
    (hturn : ∀ s s', I s → step s = .inl s' → I s' ∧ f s ≤ f s') {s a b : σ} (hI : I s)
    {j k : Nat} (hjk : j ≤ k) (ha : stateAfter step s j = some a)
    (hb : stateAfter step s k = some b) : f a ≤ f b := by
  induction hjk generalizing b with
  | refl =>
      obtain rfl := Option.some.inj (ha.symm.trans hb)
      exact Nat.le_refl _
  | step _ ih =>
      obtain ⟨b', hb', hstep⟩ := stateAfter_succ_iff.mp hb
      have hI' : I b' := stateAfter_inv I (fun s s' hs h => (hturn s s' hs h).1) hI hb'
      exact Nat.le_trans (ih hb') (hturn b' b hI' hstep).2

end StateAfter

end Loop
