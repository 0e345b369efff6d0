/-
# `DdsRtps.Lib.CInt` — sums and products of ints

A sum or a product of two ints of C that is beyond their range is undefined; so
the operations are partial, and where they have a value it is the exact one
(`toInt_of_inRange`, `toInt_of_add`).
-/
import Mathlib.Algebra.Group.Int.Defs
import Mathlib.Algebra.Group.Nat.Defs
import Mathlib.Data.Option.Basic

namespace CInt

/-- The range of a 32-bit int. -/
def InRange (n : Int) : Prop := -2 ^ 31 ≤ n ∧ n < 2 ^ 31

instance (n : Int) : Decidable (InRange n) := inferInstanceAs (Decidable (_ ∧ _))

/-- The int of a number, if it is one. -/
def ofInt? (n : Int) : Option Int32 := if InRange n then some (Int32.ofInt n) else none

/-- `a + b`. -/
def add (a b : Int32) : Option Int32 := ofInt? (a.toInt + b.toInt)

/-- `a * b`. -/
def mul (a b : Int32) : Option Int32 := ofInt? (a.toInt * b.toInt)

theorem toInt_of_inRange {n : Int} (h : InRange n) : (Int32.ofInt n).toInt = n :=
  Int32.toInt_ofInt_of_le h.1 h.2

theorem ofInt?_of_inRange {n : Int} (h : InRange n) : ofInt? n = some (Int32.ofInt n) := if_pos h

theorem ofInt?_of_not_inRange {n : Int} (h : ¬InRange n) : ofInt? n = none := if_neg h

theorem toInt_of_add {a b : Int32} (h : InRange (a.toInt + b.toInt)) :
    (a + b).toInt = a.toInt + b.toInt := by
  rw [Int32.toInt_add]
  exact Int.bmod_eq_of_le (by have := h.1; omega) (by have := h.2; omega)

theorem add_of_inRange {a b : Int32} (h : InRange (a.toInt + b.toInt)) :
    add a b = some (a + b) := by
  rw [add, ofInt?_of_inRange h, Option.some.injEq, ← Int32.toInt_inj, toInt_of_inRange h,
    toInt_of_add h]

theorem add_of_not_inRange {a b : Int32} (h : ¬InRange (a.toInt + b.toInt)) : add a b = none :=
  ofInt?_of_not_inRange h

end CInt
