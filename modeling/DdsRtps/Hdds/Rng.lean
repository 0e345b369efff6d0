/-
# `DdsRtps.Hdds.Rng` — the random numbers of the HDDS shape_main

`rng_seed_once` and `rng_next_u32` of srcRs/HDDS/src/main.rs.  The state is an
atomic; a call loads it, takes three xorshift steps on what it has loaded, and
puts the result there, if nobody else has changed the state: otherwise it begins
again.

Any number of threads may call, and their steps come in any order.  All the same
the numbers are handed out as if one thread had asked for them one after the
other (`rng_linear`): none is handed out twice for one step of the generator, and
none is left out.  The state is never 0, where the generator would stay for ever,
and it runs in a circle, since no step loses anything.
-/
import DdsRtps.Lib.Transition
import DdsRtps.Lib.XorShift
import Mathlib.Logic.Function.Basic

namespace DdsRtps.Hdds.Rng

open Transition

/-! ## The code -/

/-- `rng_seed_once`, of the time in nanoseconds. -/
def rngSeed (nanos : Nat) : BitVec 64 :=
  let seed := BitVec.ofNat 64 nanos
  if seed = 0 then 1 else seed

/-- The three steps of `rng_next_u32`. -/
def xorshift (x : BitVec 64) : BitVec 64 := XorShift.left 17 (XorShift.right 7 (XorShift.left 13 x))

/-- `x as u32`. -/
def asU32 (x : BitVec 64) : BitVec 32 := x.setWidth 32

/-- Where a thread is: outside of the loop or before its load, or behind that. -/
inductive Caller where
  | idle
  | loaded (old : BitVec 64)
deriving DecidableEq, Repr

/-- `RNG_STATE`, the threads, and the numbers that have been returned to them. -/
structure Shared where
  rngState : BitVec 64
  caller : Nat → Caller
  returned : List (Nat × BitVec 32)

/-- A step of a thread in `rng_next_u32`. -/
inductive Shared.Step (st : Shared) : Nat → Shared → Prop
  | load {thread : Nat} : st.caller thread = .idle →
      Step st thread { st with caller := Function.update st.caller thread (.loaded st.rngState) }
  | exchange {thread : Nat} {old : BitVec 64} : st.caller thread = .loaded old →
      st.rngState = old →
      Step st thread {
        rngState := xorshift old
        caller := Function.update st.caller thread .idle
        returned := st.returned ++ [(thread, asU32 (xorshift old))] }
  | retry {thread : Nat} {old : BitVec 64} : st.caller thread = .loaded old →
      st.rngState ≠ old →
      Step st thread { st with caller := Function.update st.caller thread .idle }

/-- All runs from a seed. -/
def rngSystem (nanos : Nat) : System Shared Nat where
  init st := st = ⟨rngSeed nanos, fun _ => .idle, []⟩
  step := Shared.Step

/-- All ways on from a state. -/
def rngFrom (st : Shared) : System Shared Nat where
  init st' := st' = st
  step := Shared.Step

/-! ## One thread alone -/

/-- The states of the generator. -/
def stateAt (nanos k : Nat) : BitVec 64 := xorshift^[k] (rngSeed nanos)

/-- The numbers of the generator. -/
def numberAt (nanos k : Nat) : BitVec 32 := asU32 (stateAt nanos (k + 1))

theorem stateAt_succ (nanos k : Nat) : stateAt nanos (k + 1) = xorshift (stateAt nanos k) :=
  Function.iterate_succ_apply' ..

theorem xorshift_injective : Function.Injective xorshift :=
  (XorShift.left_injective (by decide)).comp
    ((XorShift.right_injective (by decide)).comp (XorShift.left_injective (by decide)))

theorem rngSeed_ne_zero (nanos : Nat) : rngSeed nanos ≠ 0 := by
  by_cases hzero : BitVec.ofNat 64 nanos = 0
  · rw [rngSeed, if_pos hzero]
    decide
  · rw [rngSeed, if_neg hzero]
    exact hzero

theorem stateAt_ne_zero (nanos k : Nat) : stateAt nanos k ≠ 0 :=
  XorShift.iterate_ne xorshift_injective (by decide) (rngSeed_ne_zero nanos) k

/-! ## Many threads -/

/-- So many numbers have been returned, and the state is the one behind them; what a
thread has loaded is that state or one before. -/
structure Shared.Linear (nanos : Nat) (st : Shared) : Prop where
  state : st.rngState = stateAt nanos st.returned.length
  returned : st.returned.map Prod.snd = (List.range st.returned.length).map (numberAt nanos)
  loaded : ∀ thread old, st.caller thread = .loaded old →
    ∃ k ≤ st.returned.length, old = stateAt nanos k

variable {nanos : Nat} {st st' : Shared} {thread : Nat}

theorem linear_init : (⟨rngSeed nanos, fun _ => .idle, []⟩ : Shared).Linear nanos where
  state := rfl
  returned := rfl
  loaded _ _ h := by cases h

/-- What the others have loaded stays. -/
theorem loaded_update {caller : Nat → Caller} {new : Caller} {P : BitVec 64 → Prop}
    (hnew : ∀ old, new = .loaded old → P old)
    (h : ∀ thread old, caller thread = .loaded old → P old) (other : Nat) (old : BitVec 64)
    (hloaded : Function.update caller thread new other = .loaded old) : P old := by
  by_cases hother : other = thread
  · rw [hother, Function.update_self] at hloaded
    exact hnew old hloaded
  · rw [Function.update_of_ne hother] at hloaded
    exact h other old hloaded

theorem Shared.Linear.step (h : st.Linear nanos) (hstep : st.Step thread st') :
    st'.Linear nanos := by
  cases hstep with
  | load hidle =>
      refine ⟨h.state, h.returned, loaded_update (fun old heq => ?_) h.loaded⟩
      obtain rfl := Caller.loaded.inj heq
      exact ⟨_, le_rfl, h.state⟩
  | retry hloaded hne =>
      exact ⟨h.state, h.returned, loaded_update (fun old heq => by cases heq) h.loaded⟩
  | exchange hloaded heq =>
      subst heq
      have hnext : xorshift st.rngState = stateAt nanos (st.returned.length + 1) := by
        rw [stateAt_succ, ← h.state]
      have hlength : (st.returned ++ [(thread, asU32 (xorshift st.rngState))]).length =
          st.returned.length + 1 := List.length_append
      refine ⟨?_, ?_, loaded_update (fun old heq => by cases heq) fun other old' hother => ?_⟩
      · rw [hlength]
        exact hnext
      · rw [hlength, List.map_append, h.returned, List.range_succ, List.map_append, hnext]
        rfl
      · obtain ⟨k, hk, hold⟩ := h.loaded other old' hother
        rw [hlength]
        exact ⟨k, Nat.le_succ_of_le hk, hold⟩

theorem linear_of_reachable (h : (rngSystem nanos).Reachable anyStep st) : st.Linear nanos :=
  h.invariant _ (fun _ hinit => hinit ▸ linear_init) fun _ _ _ hst _ hstep => hst.step hstep

/-- Numbers are added to those returned, and the state never changes without one. -/
theorem returned_grow (h : (rngFrom st).Reachable anyStep st') :
    ∃ more, st'.returned = st.returned ++ more ∧ (st'.rngState ≠ st.rngState → more ≠ []) := by
  refine h.invariant (fun later => ∃ more, later.returned = st.returned ++ more ∧
    (later.rngState ≠ st.rngState → more ≠ [])) ?_ ?_
  · rintro _ rfl
    exact ⟨[], (List.append_nil _).symm, fun hne => absurd rfl hne⟩
  · rintro later other next ⟨more, hmore, hgrown⟩ - hstep
    cases hstep with
    | load => exact ⟨more, hmore, hgrown⟩
    | retry => exact ⟨more, hmore, hgrown⟩
    | @exchange old =>
        have hmore' : more ++ [(other, asU32 (xorshift old))] ≠ [] := by simp
        refine ⟨_, ?_, fun _ => hmore'⟩
        rw [← List.append_assoc, ← hmore]

/-- An idle thread can only load. -/
theorem eq_load_of_idle (hidle : st.caller thread = .idle) (hstep : st.Step thread st') :
    st' = { st with caller := Function.update st.caller thread (.loaded st.rngState) } := by
  cases hstep with
  | load => rfl
  | exchange hloaded =>
      rw [hidle] at hloaded
      cases hloaded
  | retry hloaded =>
      rw [hidle] at hloaded
      cases hloaded

/-- **The numbers come as if one thread had asked for them.**  In every state that
any threads can come to, the numbers returned are the first ones of the generator,
each once and in order; the state is behind them, and not 0; what a thread has
loaded that is not the state any more is one before; wherever an exchange fails, at
least one number has been returned since its load; and the states of the generator
come round, with none of them twice in a round. -/
theorem rng_linear (h : (rngSystem nanos).Reachable anyStep st) :
    st.returned.map Prod.snd = (List.range st.returned.length).map (numberAt nanos) ∧
      st.rngState = stateAt nanos st.returned.length ∧ st.rngState ≠ 0 ∧
      (∀ thread old, st.caller thread = .loaded old → st.rngState ≠ old →
        ∃ k < st.returned.length, old = stateAt nanos k) ∧
      (∀ thread old loading, st.caller thread = .idle → st.Step thread loading →
        loading.caller thread = .loaded old →
        ∀ later, (rngFrom loading).Reachable anyStep later →
          later.caller thread = .loaded old → later.rngState ≠ old →
          ∃ more, more ≠ [] ∧ later.returned = st.returned ++ more) ∧
      ∃ round, 0 < round ∧ stateAt nanos round = rngSeed nanos ∧
        ∀ i < round, ∀ j < round, stateAt nanos i = stateAt nanos j → i = j := by
  have hst := linear_of_reachable h
  have hne : st.rngState ≠ 0 := hst.state ▸ stateAt_ne_zero nanos _
  have hfinite : Finite (BitVec 64) :=
    Finite.of_injective BitVec.toFin fun _ _ => BitVec.eq_of_toFin_eq
  refine ⟨hst.returned, hst.state, hne, fun thread old hold hne => ?_, ?_,
    XorShift.exists_round xorshift_injective _⟩
  · obtain ⟨k, hk, rfl⟩ := hst.loaded thread old hold
    refine ⟨k, lt_of_le_of_ne hk ?_, rfl⟩
    rintro rfl
    exact hne hst.state
  · intro thread old loading hidle hstep hloaded later hlater _ hchanged
    obtain rfl := eq_load_of_idle hidle hstep
    obtain rfl : st.rngState = old := by
      dsimp only at hloaded
      rw [Function.update_self] at hloaded
      exact Caller.loaded.inj hloaded
    obtain ⟨more, hmore, hgrown⟩ := returned_grow hlater
    exact ⟨more, hgrown hchanged, hmore⟩

/-- One thread has loaded the seed. -/
def oneLoaded : Shared where
  rngState := 1
  caller := Function.update (fun _ => .idle) 1 (.loaded 1)
  returned := []

theorem oneLoaded_reachable : (rngSystem 1).Reachable anyStep oneLoaded := by
  have hfirst : (rngSystem 1).Reachable anyStep ⟨rngSeed 1, fun _ => .idle, []⟩ := .init rfl
  exact hfirst.step trivial (show Shared.Step _ 1 _ from .load rfl)

/-- And another one. -/
def twoLoaded : Shared :=
  { oneLoaded with caller := Function.update oneLoaded.caller 2 (.loaded 1) }

/-- The first is done, and the one that is late has to begin again. -/
def twoThreads : Shared where
  rngState := xorshift 1
  caller := Function.update twoLoaded.caller 1 .idle
  returned := [(1, asU32 (xorshift 1))]

theorem twoThreads_later : (rngFrom twoLoaded).Reachable anyStep twoThreads := by
  have hfirst : (rngFrom twoLoaded).Reachable anyStep twoLoaded := .init rfl
  exact hfirst.step trivial (show Shared.Step _ 1 _ from .exchange rfl rfl)

theorem twoThreads_reachable : (rngSystem 1).Reachable anyStep twoThreads := by
  have hload := oneLoaded_reachable.step trivial (show Shared.Step _ 2 twoLoaded from .load rfl)
  exact hload.step trivial (show Shared.Step _ 1 _ from .exchange rfl rfl)

theorem rng_linear_twoThreads :
    twoThreads.rngState = stateAt 1 1 ∧ (∃ k < 1, (1 : BitVec 64) = stateAt 1 k) ∧
      ∃ more, more ≠ [] ∧ twoThreads.returned = oneLoaded.returned ++ more := by
  obtain ⟨-, hstate, -, hold, -, -⟩ := rng_linear twoThreads_reachable
  obtain ⟨-, -, -, -, hgrown, -⟩ := rng_linear oneLoaded_reachable
  have hload : oneLoaded.Step 2 twoLoaded := .load rfl
  exact ⟨hstate, hold 2 1 rfl (by decide),
    hgrown 2 1 twoLoaded rfl hload rfl twoThreads twoThreads_later rfl (by decide)⟩

end DdsRtps.Hdds.Rng
