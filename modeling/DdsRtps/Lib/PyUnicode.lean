/-
# `DdsRtps.Lib.PyUnicode` — the characters of Python strings

`\w` and `\s` of a regular expression, and `str.strip`, go by the Unicode
tables of the interpreter.  The tables are a parameter; of them only the ASCII
part is used, and that no letter is both of a word and a space.
-/
import Mathlib.Data.List.Basic
import Mathlib.Data.List.TakeWhile

/-- Texts are compared character by character. -/
instance lawfulBEq_text : LawfulBEq (List Char) := List.instLawfulBEq

theorem isAlphanum_iff {c : Char} : c.isAlphanum = true ↔
    ((65 ≤ c.toNat ∧ c.toNat ≤ 90) ∨ (97 ≤ c.toNat ∧ c.toNat ≤ 122)) ∨
      (48 ≤ c.toNat ∧ c.toNat ≤ 57) := by
  have hranges : c.isAlphanum = ((decide (c.val ≥ 65 ∧ c.val ≤ 90) ||
      (decide (c.val ≥ 97) && decide (c.val ≤ 122))) ||
        (decide (c.val ≥ 48) && decide (c.val ≤ 57))) := rfl
  rw [hranges]
  simp only [Bool.and_eq_true, Bool.or_eq_true, decide_eq_true_eq, UInt32.le_iff_toNat_le,
    ge_iff_le]
  exact Iff.rfl

/-- The character tables of a Python interpreter. -/
structure PyUnicode where
  /-- `str.isalnum`. -/
  isAlnum : Char → Bool
  /-- `str.isspace`. -/
  isSpace : Char → Bool
  isAlnum_ascii : ∀ c : Char, c.toNat < 128 → isAlnum c = c.isAlphanum
  isSpace_ascii : ∀ c : Char, c.toNat < 128 →
    isSpace c = ([9, 10, 11, 12, 13, 28, 29, 30, 31, 32].contains c.toNat)
  isSpace_of_isAlnum : ∀ c : Char, isAlnum c = true → isSpace c = false

namespace PyUnicode

/-- The tables of a world without letters beyond ASCII. -/
def ascii : PyUnicode where
  isAlnum c := c.toNat < 128 && c.isAlphanum
  isSpace c := c.toNat < 128 && [9, 10, 11, 12, 13, 28, 29, 30, 31, 32].contains c.toNat
  isAlnum_ascii c hc := by simp [hc]
  isSpace_ascii c hc := by simp [hc]
  isSpace_of_isAlnum c hc := by
    simp only [Bool.and_eq_true, decide_eq_true_eq, isAlphanum_iff] at hc
    simp only [List.contains_eq_mem, List.mem_cons, List.not_mem_nil, or_false,
      Bool.and_eq_false_imp, decide_eq_true_eq, decide_eq_false_iff_not]
    intro _ hspace
    omega

variable (py : PyUnicode)

/-- `\w`. -/
def word (c : Char) : Bool := py.isAlnum c || c == '_'

/-- `\s`. -/
def space (c : Char) : Bool := py.isSpace c

/-- `[0-9]`. -/
def digit (c : Char) : Bool := c.isDigit

theorem space_of_word {c : Char} (h : py.word c = true) : py.space c = false := by
  simp only [word, Bool.or_eq_true, beq_iff_eq] at h
  rcases h with h | rfl
  · exact py.isSpace_of_isAlnum c h
  · rw [space, py.isSpace_ascii _ (by decide)]
    decide

theorem word_of_space {c : Char} (h : py.space c = true) : py.word c = false := by
  by_contra hw
  rw [py.space_of_word (by simpa using hw)] at h
  cases h

theorem toNat_lt_of_isDigit {c : Char} (h : c.isDigit = true) : c.toNat < 128 := by
  simp only [Char.isDigit, Bool.and_eq_true, decide_eq_true_eq, ge_iff_le,
    UInt32.le_iff_toNat_le] at h
  have h2 : c.val.toNat ≤ 57 := h.2
  simp only [Char.toNat]
  omega

theorem word_of_digit {c : Char} (h : digit c = true) : py.word c = true := by
  rw [digit] at h
  rw [word, py.isAlnum_ascii c (toNat_lt_of_isDigit h), Char.isAlphanum, h]
  simp

theorem digit_of_space {c : Char} (h : py.space c = true) : digit c = false := by
  by_contra hd
  have hw := py.word_of_digit (c := c) (by simpa using hd)
  rw [py.word_of_space h] at hw
  cases hw

theorem space_blank : py.space ' ' = true := by
  rw [space, py.isSpace_ascii _ (by decide)]
  decide

theorem space_newline : py.space '\n' = true := by
  rw [space, py.isSpace_ascii _ (by decide)]
  decide

theorem word_bracket : py.word '[' = false := by
  rw [word, py.isAlnum_ascii _ (by decide)]
  decide

theorem word_closing : py.word ']' = false := by
  rw [word, py.isAlnum_ascii _ (by decide)]
  decide

theorem space_closing : py.space ']' = false := by
  rw [space, py.isSpace_ascii _ (by decide)]
  decide

theorem space_opening : py.space '<' = false := by
  rw [space, py.isSpace_ascii _ (by decide)]
  decide

/-- `str.strip`. -/
def strip (t : List Char) : List Char :=
  ((t.dropWhile py.space).reverse.dropWhile py.space).reverse

/-- A word keeps itself under `strip`, and loses the blanks around it. -/
theorem strip_blank_around {t : List Char} (hhead : ∀ c ∈ t.head?, py.space c = false)
    (hlast : ∀ c ∈ t.getLast?, py.space c = false) (hne : t ≠ []) :
    py.strip (' ' :: (t ++ [' '])) = t := by
  have hdrop : ∀ {l : List Char}, l ≠ [] → (∀ c ∈ l.head?, py.space c = false) → ∀ r,
      (' ' :: (l ++ r)).dropWhile py.space = l ++ r := by
    intro l hl hc r
    obtain ⟨c, l, rfl⟩ := List.exists_cons_of_ne_nil hl
    rw [List.dropWhile_cons_of_pos py.space_blank, List.cons_append,
      List.dropWhile_cons_of_neg (by simp [hc c rfl])]
  have hrev : (t ++ [' ']).reverse = ' ' :: (t.reverse ++ []) := by simp
  rw [strip, hdrop hne hhead, hrev, hdrop (by simpa using hne)
    (by simpa [List.head?_reverse] using hlast), List.append_nil, List.reverse_reverse]

end PyUnicode
