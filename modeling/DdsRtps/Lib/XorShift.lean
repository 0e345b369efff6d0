/-
# `DdsRtps.Lib.XorShift` — a word and a shift of itself

`x ^ (x << k)` and `x ^ (x >> k)` lose nothing, unless `k` is 0: the bits that are
not hit by the shift are those of `x`, and each of the others is `x`'s up to a bit
that is known already.

A map on a finite type that loses nothing runs in circles (`exists_round`): from
any start it comes back there, and before that no value comes twice.
-/
import Mathlib.Data.BitVec
import Mathlib.Data.Fintype.EquivFin
import Mathlib.Dynamics.PeriodicPts.Lemmas

namespace XorShift

variable {w k : Nat}

/-- A word that is a shift of itself to the left is zero. -/
theorem eq_zero_of_shiftLeft_eq {d : BitVec w} (hk : 0 < k) (h : d <<< k = d) : d = 0#w := by
  refine BitVec.eq_of_getLsbD_eq fun i hi => ?_
  rw [BitVec.getLsbD_zero]
  induction i using Nat.strongRecOn with
  | ind i ih =>
      rw [← h, BitVec.getLsbD_shiftLeft]
      by_cases hik : i < k
      · simp [hik]
      · rw [ih (i - k) (by omega) (by omega)]
        simp

/-- And to the right, too. -/
theorem eq_zero_of_ushiftRight_eq {d : BitVec w} (hk : 0 < k) (h : d >>> k = d) : d = 0#w := by
  have hbit : ∀ n i, w ≤ i + n → d.getLsbD i = false := by
    intro n
    induction n with
    | zero => exact fun i hi => BitVec.getLsbD_of_ge _ _ hi
    | succ n ih =>
        intro i hi
        rw [← h, BitVec.getLsbD_ushiftRight]
        exact ih (k + i) (by omega)
  refine BitVec.eq_of_getLsbD_eq fun i _ => ?_
  rw [BitVec.getLsbD_zero, hbit w i (by omega)]

/-- `x ^ (x << k)`. -/
def left (k : Nat) (x : BitVec w) : BitVec w := x ^^^ (x <<< k)

/-- `x ^ (x >> k)`. -/
def right (k : Nat) (x : BitVec w) : BitVec w := x ^^^ (x >>> k)

theorem xor_eq_xor_of_eq {a b c d : BitVec w} (h : a ^^^ b = c ^^^ d) : b ^^^ d = a ^^^ c := by
  have hb : b = a ^^^ (c ^^^ d) := by
    rw [← h, ← BitVec.xor_assoc, BitVec.xor_self, BitVec.zero_xor]
  rw [hb, BitVec.xor_assoc, BitVec.xor_assoc, BitVec.xor_self, BitVec.xor_zero]

theorem left_injective (hk : 0 < k) : Function.Injective (left k : BitVec w → BitVec w) := by
  intro x y h
  have hshift : (x ^^^ y) <<< k = x ^^^ y := by
    rw [BitVec.shiftLeft_xor_distrib]
    exact xor_eq_xor_of_eq h
  exact BitVec.xor_eq_zero_iff.mp (eq_zero_of_shiftLeft_eq hk hshift)

theorem right_injective (hk : 0 < k) : Function.Injective (right k : BitVec w → BitVec w) := by
  intro x y h
  have hshift : (x ^^^ y) >>> k = x ^^^ y := by
    rw [BitVec.ushiftRight_xor_distrib]
    exact xor_eq_xor_of_eq h
  exact BitVec.xor_eq_zero_iff.mp (eq_zero_of_ushiftRight_eq hk hshift)

/-! ## Circles -/

/-- A map that loses nothing leaves a fixed point alone. -/
theorem iterate_ne {α : Type*} {f : α → α} (hf : Function.Injective f) {z x : α} (hz : f z = z)
    (hx : x ≠ z) (n : Nat) : f^[n] x ≠ z := by
  induction n with
  | zero => exact hx
  | succ n ih =>
      rw [Function.iterate_succ_apply']
      exact fun heq => ih (hf (heq.trans hz.symm))

/-- From any start the values come round, and no value comes twice before. -/
theorem exists_round {α : Type*} [Finite α] {f : α → α} (hf : Function.Injective f) (x : α) :
    ∃ n, 0 < n ∧ f^[n] x = x ∧ ∀ i < n, ∀ j < n, f^[i] x = f^[j] x → i = j := by
  refine ⟨Function.minimalPeriod f x, ?_, Function.isPeriodicPt_minimalPeriod f x, ?_⟩
  · exact Function.minimalPeriod_pos_of_mem_periodicPts (hf.mem_periodicPts x)
  · exact fun i hi j hj heq => Function.iterate_injOn_Iio_minimalPeriod hi hj heq

end XorShift
