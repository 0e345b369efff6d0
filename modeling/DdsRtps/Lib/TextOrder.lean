/-
# `DdsRtps.Lib.TextOrder` — texts of one length, compared

Python compares texts letter by letter, by code point.  Two texts whose parts
have the same lengths are compared part by part (`append_lt_append_iff`), and
two texts of as many decimal digits as the numbers they stand for
(`ofDigitChars_lt_iff`).
-/
import Mathlib.Algebra.Group.Nat.Defs
import Mathlib.Data.Char
import Mathlib.Data.List.Lex
import Mathlib.Order.Lattice

namespace TextOrder

variable {α : Type*} [LinearOrder α]

theorem append_lt_append_iff {a b s t : List α} (h : a.length = b.length) :
    a ++ s < b ++ t ↔ a < b ∨ a = b ∧ s < t := by
  induction a generalizing b with
  | nil =>
      obtain rfl := List.length_eq_zero_iff.mp h.symm
      simp
  | cons x a ih =>
      cases b with
      | nil => cases h
      | cons y b =>
          have hlen : a.length = b.length := by simpa using h
          rw [List.cons_append, List.cons_append, List.cons_lt_cons_iff, List.cons_lt_cons_iff,
            ih hlen, List.cons.injEq]
          tauto

/-- The number a digit stands for. -/
def digitValue (c : Char) : Nat := c.toNat - '0'.toNat

theorem digitValue_lt {c : Char} (h : c.isDigit = true) : digitValue c < 10 := by
  obtain ⟨hlow, hhigh⟩ := Char.isDigit_iff_toNat.mp h
  simp only [digitValue, Char.reduceToNat] at *
  omega

theorem digitValue_lt_iff {c d : Char} (hc : c.isDigit = true) (hd : d.isDigit = true) :
    digitValue c < digitValue d ↔ c < d := by
  obtain ⟨hc, -⟩ := Char.isDigit_iff_toNat.mp hc
  obtain ⟨hd, -⟩ := Char.isDigit_iff_toNat.mp hd
  rw [digitValue, digitValue, Char.lt_def, UInt32.lt_iff_toNat_lt]
  show _ ↔ c.toNat < d.toNat
  omega

theorem digitValue_inj {c d : Char} (hc : c.isDigit = true) (hd : d.isDigit = true)
    (h : digitValue c = digitValue d) : c = d := by
  rcases lt_trichotomy c d with hlt | heq | hlt
  · exact absurd h ((digitValue_lt_iff hc hd).mpr hlt).ne
  · exact heq
  · exact absurd h ((digitValue_lt_iff hd hc).mpr hlt).ne'

theorem ofDigitChars_cons (c : Char) (t : List Char) :
    Nat.ofDigitChars 10 (c :: t) 0 = 10 ^ t.length * digitValue c + Nat.ofDigitChars 10 t 0 := by
  rw [Nat.ofDigitChars_cons, Nat.ofDigitChars_eq_ofDigitChars_zero, Nat.mul_zero, Nat.zero_add]
  rfl

theorem ofDigitChars_lt {t : List Char} (h : ∀ c ∈ t, c.isDigit = true) :
    Nat.ofDigitChars 10 t 0 < 10 ^ t.length := by
  induction t with
  | nil => simp
  | cons c t ih =>
      rw [List.forall_mem_cons] at h
      have hdigit := digitValue_lt h.1
      have hrest := ih h.2
      have hmul : 10 ^ t.length * digitValue c ≤ 10 ^ t.length * 9 :=
        Nat.mul_le_mul_left _ (by omega)
      rw [ofDigitChars_cons, List.length_cons, Nat.pow_succ]
      omega

/-- A leading digit counts more than all that follow. -/
theorem mul_add_lt_iff {p d e v w : Nat} (hv : v < p) (hw : w < p) :
    p * d + v < p * e + w ↔ d < e ∨ d = e ∧ v < w := by
  rcases lt_trichotomy d e with hlt | rfl | hlt
  · have hmul : p * (d + 1) ≤ p * e := Nat.mul_le_mul_left p hlt
    rw [Nat.mul_succ] at hmul
    exact iff_of_true (by omega) (.inl hlt)
  · simp
  · have hmul : p * (e + 1) ≤ p * d := Nat.mul_le_mul_left p hlt
    rw [Nat.mul_succ] at hmul
    exact iff_of_false (by omega) (by omega)

/-- Digits compare as the numbers. -/
theorem ofDigitChars_lt_iff {a b : List Char} (h : a.length = b.length)
    (ha : ∀ c ∈ a, c.isDigit = true) (hb : ∀ c ∈ b, c.isDigit = true) :
    Nat.ofDigitChars 10 a 0 < Nat.ofDigitChars 10 b 0 ↔ a < b := by
  induction a generalizing b with
  | nil =>
      obtain rfl := List.length_eq_zero_iff.mp h.symm
      simp
  | cons c a ih =>
      cases b with
      | nil => cases h
      | cons d b =>
          have hlen : a.length = b.length := by simpa using h
          rw [List.forall_mem_cons] at ha hb
          rw [ofDigitChars_cons, ofDigitChars_cons, hlen,
            mul_add_lt_iff (hlen ▸ ofDigitChars_lt ha.2) (ofDigitChars_lt hb.2),
            digitValue_lt_iff ha.1 hb.1, ih hlen ha.2 hb.2, List.cons_lt_cons_iff]
          have hinj : digitValue c = digitValue d ↔ c = d :=
            ⟨digitValue_inj ha.1 hb.1, congrArg digitValue⟩
          rw [hinj]

end TextOrder
