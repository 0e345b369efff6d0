/-
# `DdsRtps.Lib.FirstSeen` — numbers given by first appearance

A dict from things to numbers and a counter: what is met for the first time
gets the next number, what is known keeps its own.  The number of a thing is its
place among the first appearances (`assignAll_spec`), so two lists agree on
the things of one of them exactly if its first appearances begin those of the
other (`numberOf_agree_iff`).
-/
import DdsRtps.Lib.PyDict
import Mathlib.Data.List.Induction
import Mathlib.Data.List.Nodup

/-- Two lists without repetition, the things of one at the same places in the other. -/
theorem List.prefix_of_idxOf_eq {α : Type*} [DecidableEq α] {l l' : List α} (hnodup : l'.Nodup)
    (hmem : ∀ a ∈ l', a ∈ l) (hidx : ∀ a ∈ l', l'.idxOf a = l.idxOf a) : l' <+: l := by
  rw [List.prefix_iff_getElem?]
  intro i hi
  have hin := List.getElem_mem hi
  have hplace : l.idxOf l'[i] = i := by
    rw [← hidx _ hin, hnodup.idxOf_getElem i hi]
  have hlt := List.idxOf_lt_length_of_mem (hmem _ hin)
  have hget := List.getElem_idxOf hlt
  simp only [hplace] at hget hlt
  rw [List.getElem?_eq_getElem hlt, hget]

/-! ## Numbers -/

/-- The numbers given so far, and the last of them. -/
structure FirstSeen (α : Type*) where
  numbers : PyDict α Nat
  current : Nat

namespace FirstSeen

variable {α : Type*}

/-- Nothing is numbered, and the next number comes after `n`. -/
def start (n : Nat) : FirstSeen α := ⟨.empty, n⟩

variable [DecidableEq α]

/-- The things of a list, in the order of their first appearance. -/
def firsts (l : List α) : List α := l.eraseDups

/-- `a in numbers`. -/
def known (s : FirstSeen α) (a : α) : Bool := (s.numbers.get? a).isSome

/-- The number of a thing: its own, or the next. -/
def number (s : FirstSeen α) (a : α) : Nat := (s.numbers.get? a).getD (s.current + 1)

/-- `if a not in numbers: current += 1; numbers[a] = current`. -/
def assign (s : FirstSeen α) (a : α) : FirstSeen α :=
  if s.known a then s else ⟨s.numbers.setDefault a (s.current + 1), s.current + 1⟩

/-- One thing after the other. -/
def assignAll (s : FirstSeen α) (l : List α) : FirstSeen α := l.foldl assign s

/-- The number of a thing of a list, with the first number after `n`. -/
def numberOf (n : Nat) (l : List α) (a : α) : Nat := n + 1 + (firsts l).idxOf a

/-! ## First appearances -/

theorem mem_firsts {l : List α} {a : α} : a ∈ firsts l ↔ a ∈ l := List.mem_eraseDups

theorem firsts_append (l l' : List α) : firsts (l ++ l') = firsts l ++ firsts (l'.removeAll l) :=
  List.eraseDups_append

theorem firsts_concat_known {l : List α} {a : α} (h : a ∈ l) : firsts (l ++ [a]) = firsts l := by
  rw [firsts_append]
  simp [List.removeAll, h, firsts]

theorem firsts_concat_new {l : List α} {a : α} (h : a ∉ l) :
    firsts (l ++ [a]) = firsts l ++ [a] := by
  rw [firsts_append]
  simp [List.removeAll, h, firsts, List.eraseDups_cons]

theorem firsts_prefix_append (l l' : List α) : firsts l <+: firsts (l ++ l') := by
  rw [firsts_append]
  exact List.prefix_append _ _

theorem nodup_firsts (l : List α) : (firsts l).Nodup := by
  induction l using List.reverseRecOn with
  | nil => exact List.nodup_nil
  | append_singleton l a ih =>
      by_cases h : a ∈ l
      · rwa [firsts_concat_known h]
      · rw [firsts_concat_new h]
        refine ih.append (List.nodup_singleton a) fun b hb hba => h ?_
        rw [← List.mem_singleton.mp hba]
        exact mem_firsts.mp hb

/-! ## What is numbered -/

theorem assignAll_concat (s : FirstSeen α) (l : List α) (a : α) :
    s.assignAll (l ++ [a]) = (s.assignAll l).assign a := by
  rw [assignAll, List.foldl_concat]
  rfl

/-- What is known has its number, whatever comes after. -/
theorem numberOf_append (n : Nat) {l : List α} {a : α} (h : a ∈ l) (l' : List α) :
    numberOf n (l ++ l') a = numberOf n l a := by
  rw [numberOf, numberOf, (firsts_prefix_append l l').idxOf_eq_of_mem (mem_firsts.mpr h)]

/-- What is new has the next number. -/
theorem numberOf_concat_new (n : Nat) {l : List α} {a : α} (h : a ∉ l) :
    numberOf n (l ++ [a]) a = n + (firsts l).length + 1 := by
  have hnew : a ∉ firsts l := fun hmem => h (mem_firsts.mp hmem)
  rw [numberOf, firsts_concat_new h, List.idxOf_append_of_notMem hnew]
  simp
  omega

/-- The counter, and the numbers. -/
theorem assignAll_spec (n : Nat) (l : List α) :
    ((start n).assignAll l).current = n + (firsts l).length ∧
      ∀ a, ((start n).assignAll l).numbers.get? a =
        if a ∈ l then some (numberOf n l a) else none := by
  induction l using List.reverseRecOn with
  | nil => exact ⟨rfl, fun a => rfl⟩
  | append_singleton l b ih =>
      obtain ⟨hcurrent, hnumbers⟩ := ih
      rw [assignAll_concat, assign, known, hnumbers b]
      by_cases hb : b ∈ l
      · -- a thing that is known changes nothing
        rw [if_pos hb, firsts_concat_known hb]
        refine ⟨by simpa using hcurrent, fun a => (hnumbers a).trans ?_⟩
        by_cases ha : a ∈ l
        · rw [if_pos ha, if_pos (List.mem_append_left _ ha), numberOf_append n ha]
        · have hne : a ≠ b := by
            rintro rfl
            exact ha hb
          rw [if_neg ha, if_neg (by simp [ha, hne])]
      · rw [if_neg hb, firsts_concat_new hb]
        refine ⟨by simp [hcurrent, Nat.add_assoc], fun a => ?_⟩
        show PyDict.get? (PyDict.setDefault _ b _) a = _
        rw [PyDict.get?_setDefault, hnumbers b, if_neg hb, hcurrent]
        by_cases hab : a = b
        · subst hab
          rw [if_pos rfl, if_pos (by simp), numberOf_concat_new n hb]
          rfl
        · rw [if_neg hab, hnumbers a]
          by_cases ha : a ∈ l
          · rw [if_pos ha, if_pos (List.mem_append_left _ ha), numberOf_append n ha]
          · rw [if_neg ha, if_neg (by simp [ha, hab])]

theorem current_assignAll (n : Nat) (l : List α) :
    ((start n).assignAll l).current = n + (firsts l).length :=
  (assignAll_spec n l).1

theorem known_assignAll (n : Nat) (l : List α) (a : α) :
    ((start n).assignAll l).known a = decide (a ∈ l) := by
  rw [known, (assignAll_spec n l).2 a]
  by_cases h : a ∈ l
  · simp [h]
  · simp [h]

/-- The number that a thing gets next is its number in the list that it ends. -/
theorem number_assignAll (n : Nat) (l : List α) (a : α) :
    ((start n).assignAll l).number a = numberOf n (l ++ [a]) a := by
  rw [number, (assignAll_spec n l).2 a, current_assignAll]
  by_cases h : a ∈ l
  · rw [if_pos h, numberOf_append n h]
    rfl
  · rw [if_neg h, numberOf_concat_new n h]
    rfl

/-! ## Different things, and different lists -/

theorem numberOf_inj {n : Nat} {l : List α} {a b : α} (ha : a ∈ l) (hb : b ∈ l) :
    numberOf n l a = numberOf n l b ↔ a = b := by
  constructor
  · intro h
    exact (List.idxOf_inj (mem_firsts.mpr ha)).mp (Nat.add_left_cancel h)
  · rintro rfl
    rfl

/-- The numbers of a list have no gap. -/
theorem exists_numberOf_iff {n k : Nat} {l : List α} :
    (∃ a ∈ l, numberOf n l a = k) ↔ n + 1 ≤ k ∧ k ≤ n + (firsts l).length := by
  constructor
  · rintro ⟨a, ha, rfl⟩
    have hlt := List.idxOf_lt_length_of_mem (mem_firsts.mpr ha)
    rw [numberOf]
    omega
  · rintro ⟨hlow, hhigh⟩
    have hlt : k - (n + 1) < (firsts l).length := by omega
    refine ⟨(firsts l)[k - (n + 1)], mem_firsts.mp (List.getElem_mem hlt), ?_⟩
    rw [numberOf, (nodup_firsts l).idxOf_getElem _ hlt]
    omega

/-- As many things were met as there are keys exactly if each key was met. -/
theorem length_firsts_eq_iff {l keys : List α} (hnodup : keys.Nodup) (hsub : ∀ a ∈ l, a ∈ keys) :
    (firsts l).length = keys.length ↔ ∀ a ∈ keys, a ∈ l := by
  constructor
  · intro hlength a ha
    have hsubperm := (nodup_firsts l).subperm fun a ha => hsub a (mem_firsts.mp ha)
    exact mem_firsts.mp ((hsubperm.perm_of_length_le hlength.ge).mem_iff.mpr ha)
  · intro h
    refine List.Perm.length_eq ((List.perm_ext_iff_of_nodup (nodup_firsts l) hnodup).mpr fun a => ?_)
    exact mem_firsts.trans ⟨hsub a, h a⟩

/-- Two lists agree on the things of one. -/
theorem numberOf_agree_iff (n : Nat) (l l' : List α) :
    (∀ a ∈ l', a ∈ l ∧ numberOf n l' a = numberOf n l a) ↔ firsts l' <+: firsts l := by
  constructor
  · intro h
    refine List.prefix_of_idxOf_eq (nodup_firsts l') ?_ ?_
    · intro a ha
      exact mem_firsts.mpr (h a (mem_firsts.mp ha)).1
    · intro a ha
      exact Nat.add_left_cancel (h a (mem_firsts.mp ha)).2
  · intro h a ha
    have hin := mem_firsts.mpr ha
    refine ⟨mem_firsts.mp (h.subset hin), ?_⟩
    rw [numberOf, numberOf, h.idxOf_eq_of_mem hin]

/-- A loop that numbers things and gives a title to each that is new, at its place. -/
theorem titles_foldl {σ ε ρ : Type*} {step : σ → ε → σ} (key : ε → α) (numbers : σ → FirstSeen α)
    (titles : σ → List (ρ × α)) (place : Nat → ρ) {n : Nat}
    (hnumbers : ∀ s e, numbers (step s e) = (numbers s).assign (key e))
    (htitles : ∀ s e, titles (step s e) = titles s ++ if (numbers s).known (key e) then []
      else [(place ((numbers s).number (key e)), key e)])
    {s : σ} (hstart : numbers s = start n) (hnone : titles s = []) (l : List ε) :
    titles (l.foldl step s) =
      (firsts (l.map key)).map fun a => (place (numberOf n (l.map key) a), a) := by
  have hall : ∀ l : List ε, numbers (l.foldl step s) = (start n).assignAll (l.map key) := by
    intro l
    induction l using List.reverseRecOn with
    | nil => exact hstart
    | append_singleton l e ih =>
        rw [List.foldl_concat, hnumbers, ih, List.map_append, List.map_singleton, assignAll_concat]
  induction l using List.reverseRecOn with
  | nil => exact hnone
  | append_singleton l e ih =>
      have hbefore : ((firsts (l.map key)).map fun a =>
          (place (numberOf n (l.map key ++ [key e]) a), a)) =
          (firsts (l.map key)).map fun a => (place (numberOf n (l.map key) a), a) :=
        List.map_congr_left fun a ha => by rw [numberOf_append _ (mem_firsts.mp ha)]
      rw [List.foldl_concat, htitles, ih, hall, known_assignAll, number_assignAll, List.map_append,
        List.map_singleton]
      -- what has its title is not given another
      by_cases hknown : key e ∈ l.map key
      · rw [if_pos (decide_eq_true hknown), firsts_concat_known hknown, hbefore, List.append_nil]
      · rw [if_neg (by simpa using hknown), firsts_concat_new hknown, List.map_append, hbefore]
        rfl

/-! ## A grid

Things are laid out in a grid by two of their features, each numbered by first
appearance. -/

section Grid

variable {ε κ : Type*} [DecidableEq κ] (rowKey : ε → α) (columnKey : ε → κ)

/-- The cell of a thing in the grid of a list. -/
def cell (row column : Nat) (l : List ε) (e : ε) : Nat × Nat :=
  (numberOf row (l.map rowKey) (rowKey e), numberOf column (l.map columnKey) (columnKey e))

variable {rowKey columnKey} {row column : Nat} {l : List ε}

/-- What comes later does not move a cell. -/
theorem cell_append {e : ε} (h : e ∈ l) (l' : List ε) :
    cell rowKey columnKey row column (l ++ l') e = cell rowKey columnKey row column l e := by
  rw [cell, List.map_append, List.map_append,
    numberOf_append _ (List.mem_map_of_mem (f := rowKey) h),
    numberOf_append _ (List.mem_map_of_mem (f := columnKey) h)]
  rfl

/-- Two things share a cell exactly if they share both features. -/
theorem cell_eq_iff {a b : ε} (ha : a ∈ l) (hb : b ∈ l) :
    cell rowKey columnKey row column l a = cell rowKey columnKey row column l b ↔
      rowKey a = rowKey b ∧ columnKey a = columnKey b := by
  rw [cell, cell, Prod.mk.injEq,
    numberOf_inj (List.mem_map_of_mem (f := rowKey) ha) (List.mem_map_of_mem (f := rowKey) hb),
    numberOf_inj (List.mem_map_of_mem (f := columnKey) ha)
      (List.mem_map_of_mem (f := columnKey) hb)]

omit [DecidableEq α] [DecidableEq κ] in
/-- Titles, which are written only for what is new, are not of the kind looked for. -/
theorem filterMap_unless {ω β : Type*} {kind : ω → Option β} {w : ω} (h : kind w = none)
    (b : Bool) : (if b then [] else [w]).filterMap kind = [] := by
  cases b with
  | false => exact List.filterMap_cons_none h
  | true => rfl

omit [DecidableEq α] [DecidableEq κ] in
theorem filterMap_unless_some {ω β : Type*} {kind : ω → Option β} {w : ω} {entry : β}
    (h : kind w = some entry) (b : Bool) :
    (if b then [] else [w]).filterMap kind = if b then [] else [entry] := by
  cases b with
  | false => exact List.filterMap_cons_some h
  | true => rfl

/-- A loop that numbers the features and puts each thing where they say. -/
theorem grid_foldl {σ : Type*} {step : σ → ε → σ} (rows : σ → FirstSeen α)
    (columns : σ → FirstSeen κ) (out : σ → List ((Nat × Nat) × ε))
    (hrows : ∀ s e, rows (step s e) = (rows s).assign (rowKey e))
    (hcolumns : ∀ s e, columns (step s e) = (columns s).assign (columnKey e))
    (hout : ∀ s e, out (step s e) =
      out s ++ [(((rows s).number (rowKey e), (columns s).number (columnKey e)), e)])
    {s : σ} (hrow : rows s = start row) (hcolumn : columns s = start column) (hnone : out s = [])
    (l : List ε) :
    rows (l.foldl step s) = (start row).assignAll (l.map rowKey) ∧
      columns (l.foldl step s) = (start column).assignAll (l.map columnKey) ∧
      out (l.foldl step s) = l.map fun e => (cell rowKey columnKey row column l e, e) := by
  induction l using List.reverseRecOn with
  | nil => exact ⟨hrow, hcolumn, hnone⟩
  | append_singleton l e ih =>
      obtain ⟨ihrows, ihcolumns, ihout⟩ := ih
      rw [List.foldl_concat, List.map_append, List.map_append, List.map_append, List.map_singleton,
        List.map_singleton, List.map_singleton, assignAll_concat, assignAll_concat]
      refine ⟨by rw [hrows, ihrows], by rw [hcolumns, ihcolumns], ?_⟩
      have hbefore : (l.map fun d => (cell rowKey columnKey row column (l ++ [e]) d, d)) =
          l.map fun d => (cell rowKey columnKey row column l d, d) :=
        List.map_congr_left fun d hd => by rw [cell_append hd]
      rw [hout, ihout, ihrows, ihcolumns, number_assignAll, number_assignAll, hbefore, cell,
        List.map_append, List.map_append]
      rfl

end Grid

end FirstSeen
