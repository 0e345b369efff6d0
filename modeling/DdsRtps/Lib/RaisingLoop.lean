/-
# `DdsRtps.Lib.RaisingLoop` — loops that may raise

An `EventLoop` says what is done with an input, at a time-out and at the end of
the stream.  A program says less: it goes on with whatever a wait has ended
with, and if it does not look it raises where there is no input.

`Refines` relates the two by their states.  A loop that refines an `EventLoop`
finishes with what that returns and with nothing else (`Refines.finishes_iff`);
so it raises nothing, if that is so for what is returned, and on a stream that
ends it finishes.
-/
import DdsRtps.Lib.EventLoop

/-- A loop that waits, as it is run. -/
structure RaisingLoop (ε ι σ β : Type*) where
  start : Except ε (σ ⊕ β)
  onArrival : Arrival ι → σ → Except ε (σ ⊕ β)

namespace RaisingLoop

variable {ε ι σ τ β γ : Type*}

/-- The loop after some events of a stream: it waits, or it has returned or raised. -/
def after (loop : RaisingLoop ε ι σ β) (events : Nat → Arrival ι) : Nat → Except ε (σ ⊕ β)
  | 0 => loop.start
  | n + 1 =>
      match loop.after events n with
      | .ok (.inl s) => loop.onArrival (events n) s
      | .ok (.inr b) => .ok (.inr b)
      | .error e => .error e

/-- The loop returns a value, or raises. -/
def Finishes (loop : RaisingLoop ε ι σ β) (events : Nat → Arrival ι) (r : Except ε β) : Prop :=
  ∃ n, loop.after events n = r.map Sum.inr

/-- What a turn comes to, in both: the loop waits in states that belong together, or it
is left with the same. -/
inductive Agree (R : σ → τ → Prop) (result : γ → Except ε β) :
    Except ε (σ ⊕ β) → τ ⊕ γ → Prop
  | waits {s : σ} {t : τ} : R s t → Agree R result (.ok (.inl s)) (.inl t)
  | leaves (c : γ) : Agree R result ((result c).map Sum.inr) (.inr c)

/-- A loop that does what an `EventLoop` says; `result` is what the values of that are
in the program. -/
structure Refines (R : σ → τ → Prop) (result : γ → Except ε β) (loop : RaisingLoop ε ι σ β)
    (spec : EventLoop ι τ γ) : Prop where
  start : Agree R result loop.start spec.start
  onInput : ∀ i s t, R s t → Agree R result (loop.onArrival (.input i) s) (spec.onInput i t)
  onTimeout : ∀ s t, R s t → loop.onArrival .timeout s = (result (spec.onTimeout t)).map Sum.inr
  onEof : ∀ s t, R s t → loop.onArrival .eof s = (result (spec.onEof t)).map Sum.inr

variable {R : σ → τ → Prop} {result : γ → Except ε β} {loop : RaisingLoop ε ι σ β}
  {spec : EventLoop ι τ γ} {events : Nat → Arrival ι}

theorem after_succ_of_finished {n : Nat} {r : Except ε β}
    (h : loop.after events n = r.map Sum.inr) : loop.after events (n + 1) = r.map Sum.inr := by
  rw [after, h]
  cases r with
  | ok b => rfl
  | error e => rfl

theorem map_inr_injective {r r' : Except ε β}
    (h : (r.map Sum.inr : Except ε (σ ⊕ β)) = r'.map Sum.inr) : r = r' := by
  cases r with
  | ok b =>
      cases r' with
      | ok b' => rw [Sum.inr.inj (Except.ok.inj h)]
      | error e' => cases h
  | error e =>
      cases r' with
      | ok b' => cases h
      | error e' => rw [Except.error.inj h]

namespace Refines

/-- After some events both wait, all of these having been inputs, or both are through. -/
theorem after_cases (h : Refines R result loop spec) (events : Nat → Arrival ι) (n : Nat) :
    (∃ inputs s t, EventLoop.Begins events inputs ∧ inputs.length = n ∧
        loop.after events n = .ok (.inl s) ∧ spec.after inputs = .inl t ∧ R s t) ∨
      ∃ c, loop.after events n = (result c).map Sum.inr ∧ spec.Returns events c := by
  induction n with
  | zero =>
      have hstart := h.start
      cases hspec : spec.start with
      | inl t =>
          rw [hspec] at hstart
          generalize hloop : loop.start = x at hstart
          cases hstart with
          | waits hR =>
              exact .inl ⟨[], _, t, EventLoop.begins_nil events, rfl, hloop,
                (EventLoop.after_nil spec).trans hspec, hR⟩
      | inr c =>
          rw [hspec] at hstart
          generalize hloop : loop.start = x at hstart
          cases hstart with
          | leaves =>
              exact .inr ⟨c, hloop, .left (EventLoop.begins_nil events) (.inl ⟨rfl, hspec⟩)⟩
  | succ n ih =>
      rcases ih with ⟨inputs, s, t, hbegins, rfl, hloop, hspec, hR⟩ | ⟨c, hloop, hreturns⟩
      · have hnext : loop.after events (inputs.length + 1) =
            loop.onArrival (events inputs.length) s := by
          rw [after, hloop]
        cases hevent : events inputs.length with
        | timeout =>
            rw [hevent, h.onTimeout s t hR] at hnext
            exact .inr ⟨_, hnext, .timeout hbegins hspec hevent⟩
        | eof =>
            rw [hevent, h.onEof s t hR] at hnext
            exact .inr ⟨_, hnext, .eof hbegins hspec hevent⟩
        | input i =>
            rw [hevent] at hnext
            have hmore := EventLoop.begins_concat_iff.mpr ⟨hbegins, hevent⟩
            have hafter : spec.after (inputs ++ [i]) = spec.onInput i t := by
              rw [EventLoop.after_concat, hspec]
            have hturn := h.onInput i s t hR
            rw [← hnext, ← hafter] at hturn
            generalize hloop' : loop.after events (inputs.length + 1) = x at hturn
            generalize hspec' : spec.after (inputs ++ [i]) = y at hturn
            cases hturn with
            | waits hR' =>
                exact .inl ⟨inputs ++ [i], _, _, hmore, by simp, rfl, hspec', hR'⟩
            | leaves c => exact .inr ⟨c, rfl, .of_after hmore hspec'⟩
      · exact .inr ⟨c, after_succ_of_finished hloop, hreturns⟩

/-- What the `EventLoop` returns, the loop finishes with. -/
theorem finishes_of_returns (h : Refines R result loop spec) {c : γ}
    (hreturns : spec.Returns events c) : loop.Finishes events (result c) := by
  have hdone : ∀ n, (∀ inputs t, EventLoop.Begins events inputs → inputs.length = n →
      spec.after inputs ≠ .inl t) → loop.Finishes events (result c) := by
    intro n hnot
    rcases h.after_cases events n with ⟨inputs, s, t, hbegins, hlength, -, hspec, -⟩ |
      ⟨c', hloop, hreturns'⟩
    · exact absurd hspec (hnot inputs t hbegins hlength)
    · rw [hreturns.unique hreturns']
      exact ⟨n, hloop⟩
  -- behind a stop there is no longer beginning, and one of the same length is the same
  have hstop : ∀ inputs, EventLoop.Begins events inputs →
      (∀ i, events inputs.length ≠ .input i) → loop.Finishes events (result c) := by
    intro inputs hbegins hnone
    refine hdone (inputs.length + 1) fun inputs' t hbegins' hlength => ?_
    have hle := (hbegins.prefix_of_stop hbegins' hnone).length_le
    omega
  cases hreturns with
  | @left inputs _ hbegins hleaves =>
      refine hdone inputs.length fun inputs' t hbegins' hlength hspec => ?_
      obtain rfl := (hbegins'.prefix_of_le hbegins hlength.le).eq_of_length hlength
      rw [hleaves.after_eq] at hspec
      cases hspec
  | @timeout inputs _ hbegins _ htimeout => exact hstop inputs hbegins (by simp [htimeout])
  | @eof inputs _ hbegins _ heof => exact hstop inputs hbegins (by simp [heof])

/-- A loop finishes with what the `EventLoop` returns, and with nothing else. -/
theorem finishes_iff (h : Refines R result loop spec) {r : Except ε β} :
    loop.Finishes events r ↔ ∃ c, r = result c ∧ spec.Returns events c := by
  constructor
  · rintro ⟨n, hn⟩
    rcases h.after_cases events n with ⟨inputs, s, t, -, -, hloop, -, -⟩ | ⟨c, hloop, hreturns⟩
    · rw [hloop] at hn
      cases r with
      | ok b => cases Except.ok.inj hn
      | error e => cases hn
    · exact ⟨c, map_inr_injective (hn.symm.trans hloop), hreturns⟩
  · rintro ⟨c, rfl, hreturns⟩
    exact h.finishes_of_returns hreturns

end Refines

/-! ## Loops that raise nothing -/

/-- Nothing is raised, and on a stream that ends a value is returned. -/
structure Safe (loop : RaisingLoop ε ι σ β) (events : Nat → Arrival ι) : Prop where
  not_error : ∀ e, ¬loop.Finishes events (.error e)
  returns : EventLoop.Ends events → ∃ b, loop.Finishes events (.ok b)

theorem Refines.safe (h : Refines R result loop spec)
    (hresult : ∀ c, spec.Returns events c → ∃ b, result c = .ok b) : loop.Safe events where
  not_error e hraises := by
    obtain ⟨c, heq, hreturns⟩ := h.finishes_iff.mp hraises
    obtain ⟨b, hb⟩ := hresult c hreturns
    rw [hb] at heq
    cases heq
  returns hends := by
    obtain ⟨c, hreturns⟩ := EventLoop.exists_returns_of_ends spec hends
    obtain ⟨b, hb⟩ := hresult c hreturns
    exact ⟨b, hb ▸ h.finishes_of_returns hreturns⟩

end RaisingLoop
