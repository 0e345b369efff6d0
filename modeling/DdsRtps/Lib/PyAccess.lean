/-
# `DdsRtps.Lib.PyAccess` — what raises if it is not there

The subscripts of a list and of a dict, and `list.index`.

Parallel lists, the k-th entries of which belong together, are the columns of a
list of rows.  To read or to set one of the columns at a row raises nothing
(`item_map`, `setItem_map`), and a column in which the row does not change is as
before (`set_map_same`).  The rows of the keys of a dict are its values
(`PyDict.values_modify`).
-/
import DdsRtps.Lib.PyDict
import DdsRtps.Lib.PyError
import Mathlib.Data.List.Basic

/-! ## Lists -/

namespace PyList

variable {α β : Type}

/-- `xs[i]`. -/
def item (xs : List α) (i : Nat) : Except PyError α :=
  match xs[i]? with
  | some a => .ok a
  | none => .error .indexError

/-- `xs[i] = a`. -/
def setItem (xs : List α) (i : Nat) (a : α) : Except PyError (List α) :=
  if i < xs.length then .ok (xs.set i a) else .error .indexError

/-- `xs.index(a)`. -/
def index [DecidableEq α] (xs : List α) (a : α) : Except PyError Nat :=
  if a ∈ xs then .ok (xs.idxOf a) else .error .valueError

theorem item_eq_ok {xs : List α} {i : Nat} {a : α} (h : xs[i]? = some a) : item xs i = .ok a := by
  rw [item, h]

theorem index_eq_ok [DecidableEq α] {xs : List α} {a : α} (h : a ∈ xs) :
    index xs a = .ok (xs.idxOf a) :=
  if_pos h

section Columns

variable {rows : List α} {i : Nat} {row : α}

theorem item_map (f : α → β) (h : rows[i]? = some row) : item (rows.map f) i = .ok (f row) :=
  item_eq_ok (by rw [List.getElem?_map, h, Option.map_some])

theorem setItem_map (f : α → β) (h : rows[i]? = some row) (b : β) :
    setItem (rows.map f) i b = .ok ((rows.map f).set i b) := by
  obtain ⟨hlt, -⟩ := List.getElem?_eq_some_iff.mp h
  rw [setItem, List.length_map, if_pos hlt]

theorem item_set_map (f : α → β) (h : rows[i]? = some row) (b : β) :
    item ((rows.map f).set i b) i = .ok b := by
  obtain ⟨hlt, -⟩ := List.getElem?_eq_some_iff.mp h
  exact item_eq_ok (by simp [hlt])

/-- A column in which the row does not change. -/
theorem set_map_same (f : α → β) (h : rows[i]? = some row) :
    (rows.map f).set i (f row) = rows.map f := by
  rw [← List.map_set]
  refine congrArg _ (List.ext_getElem? fun j => ?_)
  obtain ⟨hlt, -⟩ := List.getElem?_eq_some_iff.mp h
  rw [List.getElem?_set]
  by_cases hj : i = j
  · subst hj
    rw [if_pos rfl, if_pos hlt, h]
  · rw [if_neg hj]

end Columns

end PyList

/-! ## Dicts -/

namespace PyDict

variable {α β : Type}

def keys (d : PyDict α β) : List α := d.items.map Prod.fst

def values (d : PyDict α β) : List β := d.items.map Prod.snd

variable [DecidableEq α]

/-- `d[key]`. -/
def item (d : PyDict α β) (key : α) : Except PyError β :=
  match d.get? key with
  | some v => .ok v
  | none => .error .keyError

/-- `d[key] = v`. -/
def setItem (d : PyDict α β) (key : α) (v : β) : PyDict α β := d.upsert key v fun _ => v

theorem item_eq_ok {d : PyDict α β} {key : α} {v : β} (h : d.get? key = some v) :
    d.item key = .ok v := by
  rw [item, h]

theorem mem_keys_iff {d : PyDict α β} {key : α} : key ∈ d.keys ↔ ∃ v, d.get? key = some v := by
  rw [← Option.isSome_iff_exists, Option.isSome_iff_ne_none, ne_eq, get?_eq_none_iff, not_not, keys]

theorem keys_modify (d : PyDict α β) (key : α) (f : β → β) : (d.modify key f).keys = d.keys := by
  rw [keys, keys, modify, List.map_map]
  rfl

theorem keys_setDefault (d : PyDict α β) (key : α) (v : β) :
    (d.setDefault key v).keys = if key ∈ d.keys then d.keys else d.keys ++ [key] := by
  unfold setDefault keys
  split
  · rfl
  · rw [List.map_append]
    rfl

theorem values_setDefault (d : PyDict α β) (key : α) (v : β) :
    (d.setDefault key v).values = if key ∈ d.keys then d.values else d.values ++ [v] := by
  unfold setDefault keys values
  split
  · rfl
  · rw [List.map_append]
    rfl

/-- The value of a key stands where the key stands. -/
theorem getElem?_values_idxOf (d : PyDict α β) (key : α) :
    d.values[d.keys.idxOf key]? = d.get? key := by
  rw [values, keys, get?]
  induction d.items with
  | nil => rfl
  | cons item items ih =>
      rw [List.map_cons, List.map_cons, List.idxOf_cons, List.find?_cons]
      by_cases hkey : item.1 = key
      · simp [hkey]
      · have hne : (item.1 == key) = false := beq_false_of_ne hkey
        simpa [hkey, hne] using ih

theorem values_modify (d : PyDict α β) (key : α) (v : β) :
    (d.modify key fun _ => v).values = d.values.set (d.keys.idxOf key) v := by
  obtain ⟨items, hnodup⟩ := d
  rw [values, values, keys, modify, List.map_map]
  dsimp only
  induction items with
  | nil => rfl
  | cons item items ih =>
      rw [List.map_cons, List.nodup_cons] at hnodup
      simp only [List.map_cons, List.idxOf_cons, Function.comp_apply]
      by_cases hkey : item.1 = key
      · -- no other item has the key
        have hrest :
            items.map (Prod.snd ∘ fun item' => (item'.1, if item'.1 = key then v else item'.2)) =
              items.map Prod.snd := by
          refine List.map_congr_left fun item' hitem => ?_
          have hne : item'.1 ≠ key := by
            rintro rfl
            exact hnodup.1 (hkey ▸ List.mem_map_of_mem hitem)
          simp [hne]
        simpa [hkey] using hrest
      · have hne : (item.1 == key) = false := beq_false_of_ne hkey
        simpa [hkey, hne] using ih hnodup.2

/-! ### Changing the value of a key -/

theorem modify_eq_of_get? {d : PyDict α β} {key : α} {v : β} (h : d.get? key = some v)
    (f : β → β) : d.modify key f = d.modify key fun _ => f v := by
  refine eq_of_items_eq (List.map_congr_left fun item hitem => ?_)
  obtain ⟨k, v'⟩ := item
  by_cases hk : k = key
  · subst hk
    rw [mem_items_iff.mp hitem] at h
    rw [Option.some.inj h]
  · simp [hk]

theorem modify_modify (d : PyDict α β) (key : α) (f g : β → β) :
    (d.modify key f).modify key g = d.modify key fun v => g (f v) := by
  refine eq_of_items_eq ?_
  simp only [modify, List.map_map]
  refine List.map_congr_left ?_
  rintro ⟨k, v⟩ -
  by_cases hk : k = key
  · simp [hk]
  · simp [hk]

theorem setItem_eq_modify {d : PyDict α β} {key : α} {v : β} (h : d.get? key = some v) (w : β) :
    d.setItem key w = d.modify key fun _ => w :=
  upsert_of_get?_eq_some h w fun _ => w

/-- In a loop over the keys: the value of the next one is there, and setting it leaves
the others. -/
theorem setItem_split {d : PyDict α β} {before after : List (α × β)} {key : α} {v : β}
    (h : d.items = before ++ (key, v) :: after) (w : β) :
    d.item key = .ok v ∧ (d.setItem key w).items = before ++ (key, w) :: after := by
  have hget : d.get? key = some v := mem_items_iff.mp (by rw [h]; simp)
  refine ⟨item_eq_ok hget, ?_⟩
  have hnodup := d.nodup
  rw [h, List.map_append, List.map_cons, List.nodup_append] at hnodup
  obtain ⟨-, hafter, hdisjoint⟩ := hnodup
  have hother : ∀ item ∈ before ++ after, item.1 ≠ key := by
    rintro item hitem rfl
    rcases List.mem_append.mp hitem with hbefore | hitem
    · exact hdisjoint _ (List.mem_map_of_mem hbefore) _ List.mem_cons_self rfl
    · have hmem := List.mem_map_of_mem (f := Prod.fst) hitem
      exact (List.nodup_cons.mp hafter).1 hmem
  have hkeep : ∀ items : List (α × β), (∀ item ∈ items, item.1 ≠ key) →
      items.map (fun (k, v) => (k, if k = key then w else v)) = items := by
    intro items hitems
    refine (List.map_congr_left fun item hitem => ?_).trans items.map_id
    simp [hitems item hitem]
  rw [setItem_eq_modify hget]
  show d.items.map _ = _
  simp only [h, List.map_append, List.map_cons, if_true]
  rw [hkeep before fun item hitem => hother item (List.mem_append_left _ hitem),
    hkeep after fun item hitem => hother item (List.mem_append_right _ hitem)]

end PyDict
