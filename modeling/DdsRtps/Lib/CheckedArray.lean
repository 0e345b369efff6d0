/-
# `DdsRtps.Lib.CheckedArray` — arrays whose accesses are checked

A program with arrays of a fixed length, in a language that stops it where an index
is none of theirs: `read` and `write` end in an error that holds the index.

`Ends Q E` is what a computation ends with, one way or the other; a loop is a
`List.foldlM`.  `foldlM_ends` is its invariant rule, and `foldlM_range_error` is for a
loop that is stopped, in the first turn that cannot be made.
-/
import Mathlib.Data.List.Range

namespace CheckedArray

universe u

variable {N : Nat} {ε : Type*} {α β σ : Type u}

/-! ## Accesses -/

/-- `xs[i]`. -/
def read (bad : Nat → ε) (xs : Vector α N) (i : Nat) : Except ε α :=
  if h : i < N then .ok xs[i] else .error (bad i)

/-- `xs[i] = a`. -/
def write (bad : Nat → ε) (xs : Vector α N) (i : Nat) (a : α) : Except ε (Vector α N) :=
  if h : i < N then .ok (xs.set i a h) else .error (bad i)

variable {bad : Nat → ε} {xs : Vector α N} {i : Nat}

theorem read_of_lt (h : i < N) : read bad xs i = .ok xs[i] := dif_pos h

theorem write_of_lt (h : i < N) (a : α) : write bad xs i a = .ok (xs.set i a h) := dif_pos h

theorem read_set (h : i < N) (a : α) : read bad (xs.set i a h) i = .ok a := by
  rw [read_of_lt h, Vector.getElem_set_self]

theorem write_of_le (h : N ≤ i) (a : α) : write bad xs i a = .error (bad i) :=
  dif_neg (Nat.not_lt.mpr h)

/-! ## What a computation ends with -/

/-- A value of the one kind, or an error of the other. -/
def Ends (Q : α → Prop) (E : ε → Prop) : Except ε α → Prop
  | .ok a => Q a
  | .error e => E e

variable {P : α → Prop} {Q : β → Prop} {E : ε → Prop}

theorem Ends.bind {x : Except ε α} {f : α → Except ε β} (hx : Ends P E x)
    (hf : ∀ a, P a → Ends Q E (f a)) : Ends Q E (x >>= f) := by
  cases x with
  | ok a => exact hf a hx
  | error e => exact hx

theorem Ends.mono {P' : α → Prop} {x : Except ε α} (hx : Ends P E x) (h : ∀ a, P a → P' a) :
    Ends P' E x := by
  cases x with
  | ok a => exact h a hx
  | error e => exact hx

theorem ends_read (h : i < N) : Ends (fun _ => True) E (read bad xs i) := by
  rw [read_of_lt h]
  trivial

theorem ends_write (h : i < N) (a : α) : Ends (fun _ => True) E (write bad xs i a) := by
  rw [write_of_lt h]
  trivial

/-! ## Loops -/

variable {ι : Type*} {I : σ → Prop} {body : σ → ι → Except ε σ} {l : List ι} {s : σ}

/-- The invariant rule. -/
theorem foldlM_ends (hbody : ∀ s, ∀ a ∈ l, I s → Ends I E (body s a)) (hI : I s) :
    Ends I E (l.foldlM body s) := by
  induction l generalizing s with
  | nil => exact hI
  | cons a l ih =>
      rw [List.foldlM_cons]
      refine (hbody s a List.mem_cons_self hI).bind fun s' hI' => ?_
      exact ih (fun s b hb => hbody s b (List.mem_cons_of_mem a hb)) hI'

/-- A loop whose first turns are made. -/
theorem foldlM_ok (hbody : ∀ s, ∀ a ∈ l, I s → ∃ s', body s a = .ok s' ∧ I s') (hI : I s) :
    ∃ s', l.foldlM body s = .ok s' ∧ I s' := by
  induction l generalizing s with
  | nil => exact ⟨s, rfl, hI⟩
  | cons a l ih =>
      obtain ⟨s', hs', hI'⟩ := hbody s a List.mem_cons_self hI
      rw [List.foldlM_cons, hs']
      exact ih (fun s b hb => hbody s b (List.mem_cons_of_mem a hb)) hI'

/-- A loop over a range that is stopped in one of its turns. -/
theorem foldlM_range_error {body : σ → Nat → Except ε σ} {n m : Nat} {e : ε} (hm : m < n)
    (hbefore : ∀ s, ∀ i < m, I s → ∃ s', body s i = .ok s' ∧ I s')
    (hat : ∀ s, I s → body s m = .error e) (hI : I s) :
    (List.range n).foldlM body s = .error e := by
  have hsplit : List.range n = List.range m ++ m :: (List.range (n - m - 1)).map (m + 1 + ·) := by
    have hn : n = m + 1 + (n - m - 1) := by omega
    conv_lhs => rw [hn]
    rw [List.range_add, List.range_succ, List.append_assoc, List.singleton_append]
  obtain ⟨s', hs', hI'⟩ : ∃ s', (List.range m).foldlM body s = .ok s' ∧ I s' :=
    foldlM_ok (fun s i hi => hbefore s i (List.mem_range.mp hi)) hI
  rw [hsplit, List.foldlM_append, hs']
  show (m :: _).foldlM body s' = .error e
  rw [List.foldlM_cons, hat s' hI']
  rfl

end CheckedArray
