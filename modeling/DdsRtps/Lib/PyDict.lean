/-
# `DdsRtps.Lib.PyDict` — dicts of Python

A dict keeps its items in the order in which their keys were first set, and no
key twice.  The second is a field of the structure, so that what `get?` finds
and what a loop over the items meets are the same (`mem_items_iff`).
-/
import Mathlib.Algebra.BigOperators.Group.List.Basic
import Mathlib.Algebra.GroupWithZero.Nat
import Mathlib.Algebra.Order.Group.Multiset
import Mathlib.Data.List.Nodup
import Mathlib.Tactic.Tauto

/-- The items of a dict, in the order of insertion. -/
structure PyDict (α β : Type*) where
  items : List (α × β)
  nodup : (items.map Prod.fst).Nodup

namespace PyDict

variable {α β : Type*}

/-- `{}`. -/
def empty : PyDict α β := ⟨[], List.nodup_nil⟩

/-- `list(d.keys())[0]`. -/
def firstKey (d : PyDict α β) : Option α := d.items.head?.map Prod.fst

/-- Every value is replaced. -/
def mapValues (f : β → β) (d : PyDict α β) : PyDict α β where
  items := d.items.map fun (k, v) => (k, f v)
  nodup := by
    rw [List.map_map]
    exact d.nodup

theorem firstKey_mapValues (f : β → β) (d : PyDict α β) :
    (d.mapValues f).firstKey = d.firstKey := by
  rw [firstKey, firstKey, mapValues, List.head?_map, Option.map_map]
  rfl

/-- `sum(f(key, v) for key, v in d.items())`. -/
def sumBy (f : α → β → Nat) (d : PyDict α β) : Nat := (d.items.map fun (k, v) => f k v).sum

/-- `sum(d.values())`. -/
def total (d : PyDict α Nat) : Nat := d.sumBy fun _ n => n

variable [DecidableEq α]

/-- `d.get(key)`. -/
def get? (d : PyDict α β) (key : α) : Option β :=
  (d.items.find? fun item => item.1 = key).map Prod.snd

/-- `if key not in d: d[key] = v`. -/
def setDefault (d : PyDict α β) (key : α) (v : β) : PyDict α β :=
  if h : key ∈ d.items.map Prod.fst then d
  else
    { items := d.items ++ [(key, v)]
      nodup := by
        rw [List.map_append, List.nodup_append]
        refine ⟨d.nodup, List.nodup_singleton _, ?_⟩
        rintro k hk k' hkey rfl
        rw [List.map_singleton, List.mem_singleton] at hkey
        rw [hkey] at hk
        exact h hk }

/-- `d[key] = f(d[key])`. -/
def modify (d : PyDict α β) (key : α) (f : β → β) : PyDict α β where
  items := d.items.map fun (k, v) => (k, if k = key then f v else v)
  nodup := by
    rw [List.map_map]
    exact d.nodup

/-! ## What is in a dict -/

theorem mem_items_iff {d : PyDict α β} {key : α} {v : β} :
    (key, v) ∈ d.items ↔ d.get? key = some v := by
  constructor
  · intro hmem
    cases hfind : d.items.find? fun item => item.1 = key with
    | none => simpa using List.find?_eq_none.mp hfind _ hmem
    | some item =>
        have hkey : item.1 = key := by simpa using List.find?_some hfind
        have hitem := List.mem_of_find?_eq_some hfind
        have hsame := List.inj_on_of_nodup_map d.nodup hitem hmem hkey
        rw [get?, hfind, hsame]
        rfl
  · intro hget
    obtain ⟨item, hfind, rfl⟩ := Option.map_eq_some_iff.mp hget
    have hkey : item.1 = key := by simpa using List.find?_some hfind
    rw [← hkey]
    exact List.mem_of_find?_eq_some hfind

theorem get?_eq_none_iff {d : PyDict α β} {key : α} :
    d.get? key = none ↔ key ∉ d.items.map Prod.fst := by
  rw [get?, Option.map_eq_none_iff, List.find?_eq_none]
  constructor
  · rintro h hmem
    obtain ⟨item, hitem, rfl⟩ := List.mem_map.mp hmem
    exact h item hitem (by simp)
  · intro h item hitem
    simp only [decide_eq_true_eq]
    rintro rfl
    exact h (List.mem_map_of_mem hitem)

theorem get?_empty (key : α) : (empty : PyDict α β).get? key = none := rfl

theorem get?_mapValues (f : β → β) (d : PyDict α β) (key : α) :
    (d.mapValues f).get? key = (d.get? key).map f := by
  rw [get?, get?, mapValues, List.find?_map, Option.map_map, Option.map_map]
  rfl

theorem get?_modify (d : PyDict α β) (key : α) (f : β → β) (k : α) :
    (d.modify key f).get? k = (d.get? k).map fun v => if k = key then f v else v := by
  have hsame : ∀ item : α × β, item.1 = k →
      (fun v => if item.1 = key then f v else v) = fun v => if k = key then f v else v := by
    rintro item rfl
    rfl
  rw [get?, get?, modify, List.find?_map]
  simp only [Option.map_map, Function.comp_def]
  cases hfind : d.items.find? fun item => item.1 = k with
  | none => rfl
  | some item =>
      have hkey : item.1 = k := by simpa using List.find?_some hfind
      simp [hkey]

theorem get?_setDefault (d : PyDict α β) (key : α) (v : β) (k : α) :
    (d.setDefault key v).get? k = if k = key then some ((d.get? key).getD v) else d.get? k := by
  unfold setDefault
  split
  · rename_i hin
    split
    · rename_i hk
      subst hk
      cases hget : d.get? k with
      | none => exact absurd hin (get?_eq_none_iff.mp hget)
      | some v' => rfl
    · rfl
  · rename_i hout
    have hnone := get?_eq_none_iff.mpr hout
    split
    · rename_i hk
      subst hk
      have hfind : d.items.find? (fun item => item.1 = k) = none :=
        Option.map_eq_none_iff.mp hnone
      rw [hnone, get?, List.find?_append, hfind]
      simp
    · rename_i hk
      rw [get?, get?, List.find?_append]
      simp [Ne.symm hk]

/-! ## The first key -/

theorem firstKey_modify (d : PyDict α β) (key : α) (f : β → β) :
    (d.modify key f).firstKey = d.firstKey := by
  rw [firstKey, firstKey, modify, List.head?_map, Option.map_map]
  rfl

/-- A dict that has a first key keeps it. -/
theorem firstKey_setDefault (d : PyDict α β) (key : α) (v : β) :
    (d.setDefault key v).firstKey = some (d.firstKey.getD key) := by
  unfold setDefault
  split
  · rename_i hin
    cases hitems : d.items with
    | nil =>
        rw [hitems] at hin
        cases hin
    | cons item items => simp [firstKey, hitems]
  · simp only [firstKey, List.head?_append]
    cases d.items.head? <;> rfl

/-! ## Sums over a dict -/

/-- `d[key] = update(d.get(key, default))`. -/
def upsert (d : PyDict α β) (key : α) (default : β) (update : β → β) : PyDict α β :=
  (d.setDefault key default).modify key update

/-- `d[key] = d.get(key, 0) + n`. -/
def increase (d : PyDict α Nat) (key : α) (n : Nat) : PyDict α Nat := d.upsert key 0 (· + n)

theorem mem_keys_setDefault (d : PyDict α β) (key : α) (v : β) :
    key ∈ (d.setDefault key v).items.map Prod.fst := by
  rw [setDefault]
  split
  · assumption
  · simp

variable {M : Type*} [AddCommMonoid M]

theorem sum_setDefault {f : α → β → M} (d : PyDict α β) (key : α) {v : β} (hzero : f key v = 0) :
    ((d.setDefault key v).items.map fun (k, v) => f k v).sum =
      (d.items.map fun (k, v) => f k v).sum := by
  rw [setDefault]
  split
  · rfl
  · simp [hzero]

/-- One item changes. -/
theorem sum_modify {f : α → β → M} {update : β → β} {key : α} {c : M} (d : PyDict α β)
    (hkey : key ∈ d.items.map Prod.fst) (hupdate : ∀ v, f key (update v) = f key v + c) :
    ((d.modify key update).items.map fun (k, v) => f k v).sum =
      (d.items.map fun (k, v) => f k v).sum + c := by
  obtain ⟨items, hnodup⟩ := d
  rw [modify]
  simp only at hkey ⊢
  induction items with
  | nil => simp at hkey
  | cons entry items ih =>
      obtain ⟨k, v⟩ := entry
      rw [List.map_cons, List.nodup_cons] at hnodup
      simp only [List.map_cons, List.sum_cons]
      by_cases hk : k = key
      · subst hk
        -- no other item has the key
        have hrest : items.map (fun (k', v) => (k', if k' = k then update v else v)) = items := by
          refine (List.map_congr_left fun entry' hentry => ?_).trans items.map_id
          have hne : entry'.1 ≠ k := by
            intro hsame
            have hmem := List.mem_map_of_mem (f := Prod.fst) hentry
            rw [hsame] at hmem
            exact hnodup.1 hmem
          simp only [if_neg hne, id]
        rw [hrest, if_pos rfl, hupdate, add_right_comm]
      · rw [List.map_cons, List.mem_cons] at hkey
        have hsum := ih hnodup.2 (hkey.resolve_left (Ne.symm hk))
        rw [hsum, if_neg hk, add_assoc]

/-- If the default counts nothing and the update counts `c` more, so do the items. -/
theorem sum_upsert {f : α → β → M} {update : β → β} {key : α} {default : β} {c : M}
    (d : PyDict α β) (hdefault : f key default = 0)
    (hupdate : ∀ v, f key (update v) = f key v + c) :
    ((d.upsert key default update).items.map fun (k, v) => f k v).sum =
      (d.items.map fun (k, v) => f k v).sum + c := by
  rw [upsert, sum_modify _ (mem_keys_setDefault d key default) hupdate,
    sum_setDefault d key hdefault]

/-- If the default counts nothing and the update counts `c` more, so does the dict. -/
theorem sumBy_upsert {f : α → β → Nat} {update : β → β} {key : α} {default : β} {c : Nat}
    (d : PyDict α β) (hdefault : f key default = 0)
    (hupdate : ∀ v, f key (update v) = f key v + c) :
    (d.upsert key default update).sumBy f = d.sumBy f + c :=
  sum_upsert d hdefault hupdate

theorem total_increase (d : PyDict α Nat) (key : α) (n : Nat) :
    (d.increase key n).total = d.total + n :=
  sumBy_upsert d rfl fun _ => rfl

theorem get?_upsert (d : PyDict α β) (key : α) (default : β) (update : β → β) (k : α) :
    (d.upsert key default update).get? k =
      if k = key then some (update ((d.get? key).getD default)) else d.get? k := by
  rw [upsert, get?_modify, get?_setDefault]
  by_cases hk : k = key
  · simp [hk]
  · simp [hk]

theorem mem_keys_upsert {d : PyDict α β} {key : α} {default : β} {update : β → β} {k : α} :
    k ∈ (d.upsert key default update).items.map Prod.fst ↔ k = key ∨ k ∈ d.items.map Prod.fst := by
  rw [← not_iff_not, not_or, ← get?_eq_none_iff, ← get?_eq_none_iff, get?_upsert]
  by_cases hk : k = key
  · simp [hk]
  · simp [hk]

omit [DecidableEq α] in
theorem sumBy_add (d : PyDict α β) (f g : α → β → Nat) :
    d.sumBy f + d.sumBy g = d.sumBy fun k v => f k v + g k v := by
  rw [sumBy, sumBy, sumBy, List.sum_map_add]

/-- `d.get(key, 0)` is the sum over the items with that key. -/
theorem getD_get?_eq_sumBy (d : PyDict α Nat) (key : α) :
    (d.get? key).getD 0 = d.sumBy fun k v => if k = key then v else 0 := by
  obtain ⟨items, hnodup⟩ := d
  rw [get?, sumBy]
  simp only
  induction items with
  | nil => rfl
  | cons entry items ih =>
      obtain ⟨k, v⟩ := entry
      rw [List.map_cons, List.nodup_cons] at hnodup
      rw [List.map_cons, List.sum_cons]
      by_cases hk : k = key
      · subst hk
        have hrest : (items.map fun (k', v) => if k' = k then v else 0).sum = 0 := by
          refine List.sum_eq_zero fun n hn => ?_
          obtain ⟨entry', hentry, rfl⟩ := List.mem_map.mp hn
          refine if_neg fun hsame => hnodup.1 ?_
          have hmem := List.mem_map_of_mem (f := Prod.fst) hentry
          rw [hsame] at hmem
          exact hmem
        rw [hrest]
        simp
      · rw [if_neg hk, Nat.zero_add, ← ih hnodup.2, List.find?_cons_of_neg (by simpa using hk)]

/-! ## Keys that are there, and keys that are not -/

omit [DecidableEq α] in
theorem eq_of_items_eq {d d' : PyDict α β} (h : d.items = d'.items) : d = d' := by
  cases d
  cases d'
  simp only at h
  subst h
  rfl

theorem upsert_of_get?_eq_some {d : PyDict α β} {key : α} {v : β} (h : d.get? key = some v)
    (default : β) (update : β → β) :
    d.upsert key default update = d.modify key fun _ => update v := by
  have hkey : key ∈ d.items.map Prod.fst := by
    by_contra hnot
    rw [get?_eq_none_iff.mpr hnot] at h
    cases h
  refine eq_of_items_eq ?_
  rw [upsert, setDefault, dif_pos hkey]
  refine List.map_congr_left fun (k, v') hentry => ?_
  by_cases hk : k = key
  · subst hk
    have hv : v' = v := by
      rw [mem_items_iff.mp hentry] at h
      exact Option.some.inj h
    simp [hv]
  · simp [hk]

theorem upsert_of_get?_eq_none {d : PyDict α β} {key : α} (h : d.get? key = none)
    (default : β) (update : β → β) :
    d.upsert key default update = d.setDefault key (update default) := by
  have hkey := get?_eq_none_iff.mp h
  refine eq_of_items_eq ?_
  rw [upsert, setDefault, dif_neg hkey, setDefault, dif_neg hkey]
  simp only [modify, List.map_append, List.map_cons, List.map_nil, if_true]
  refine congrArg (· ++ _) ((List.map_congr_left fun (k, v) hentry => ?_).trans
    (List.map_id d.items))
  have hne : k ≠ key := by
    rintro rfl
    exact hkey (List.mem_map_of_mem (f := Prod.fst) hentry)
  simp [hne]

/-! ## Dicts of lists -/

/-- `d[key].append(v)`, or `d[key] = [v]` if there is none. -/
def push (d : PyDict α (List β)) (key : α) (v : β) : PyDict α (List β) :=
  d.upsert key [] (· ++ [v])

/-- The list of a key, empty if there is none. -/
def listAt (d : PyDict α (List β)) (key : α) : List β := (d.get? key).getD []

theorem mem_keys_of_listAt_ne_nil {d : PyDict α (List β)} {key : α} (h : d.listAt key ≠ []) :
    key ∈ d.items.map Prod.fst := by
  by_contra hnot
  rw [listAt, get?_eq_none_iff.mpr hnot] at h
  exact h rfl

theorem listAt_push (d : PyDict α (List β)) (key : α) (v : β) (k : α) :
    (d.push key v).listAt k = d.listAt k ++ if k = key then [v] else [] := by
  rw [listAt, push, get?_upsert, listAt]
  by_cases hk : k = key
  · subst hk
    simp
  · simp [hk]

/-- Members of a list, each with its key. -/
def keyed (key : α) (l : List β) : Multiset (α × β) := ↑(l.map fun v => (key, v))

/-- All members of the lists. -/
def members (d : PyDict α (List β)) : Multiset (α × β) := (d.items.map fun (k, l) => keyed k l).sum

theorem members_push (d : PyDict α (List β)) (key : α) (v : β) :
    (d.push key v).members = d.members + {(key, v)} := by
  have happend : ∀ l : List β, keyed key (l ++ [v]) = keyed key l + {(key, v)} := by
    intro l
    rw [keyed, List.map_append, ← Multiset.coe_add]
    rfl
  exact sum_upsert d rfl happend

/-- Several members, one after the other. -/
def pushAll (d : PyDict α (List β)) (updates : List (α × β)) : PyDict α (List β) :=
  updates.foldl (fun d u => d.push u.1 u.2) d

/-- Its keys are those that were there and those that were added. -/
theorem mem_keys_pushAll {d : PyDict α (List β)} {updates : List (α × β)} {key : α} :
    key ∈ (d.pushAll updates).items.map Prod.fst ↔
      key ∈ d.items.map Prod.fst ∨ key ∈ updates.map Prod.fst := by
  induction updates generalizing d with
  | nil => simp [pushAll]
  | cons u updates ih =>
      rw [pushAll, List.foldl_cons, ← pushAll, ih, push, mem_keys_upsert, List.map_cons,
        List.mem_cons]
      tauto

/-- Every member is there once. -/
theorem members_pushAll (d : PyDict α (List β)) (updates : List (α × β)) :
    (d.pushAll updates).members = d.members + ↑updates := by
  induction updates generalizing d with
  | nil => exact (add_zero _).symm
  | cons u updates ih =>
      rw [pushAll, List.foldl_cons, ← pushAll, ih, members_push, add_assoc]
      rfl

/-- The list of a key has its members, in their order. -/
theorem listAt_pushAll (d : PyDict α (List β)) (updates : List (α × β)) (key : α) :
    (d.pushAll updates).listAt key =
      d.listAt key ++ (updates.filter (·.1 = key)).map Prod.snd := by
  induction updates generalizing d with
  | nil => exact (List.append_nil _).symm
  | cons u updates ih =>
      rw [pushAll, List.foldl_cons, ← pushAll, ih, listAt_push, List.append_assoc,
        List.filter_cons]
      by_cases hu : u.1 = key
      · simp [hu]
      · simp [hu, Ne.symm hu]

/-! ## Dicts of sums -/

section Sums

variable [AddCommMonoid β]

/-- `d[key] += v`, or `d[key] = v` if there is none. -/
def addTo (d : PyDict α β) (key : α) (v : β) : PyDict α β := d.upsert key 0 (· + v)

/-- Several values, one after the other. -/
def addToAll (d : PyDict α β) (updates : List (α × β)) : PyDict α β :=
  updates.foldl (fun d u => d.addTo u.1 u.2) d

theorem sum_addToAll (d : PyDict α β) (updates : List (α × β)) :
    ((d.addToAll updates).items.map Prod.snd).sum =
      (d.items.map Prod.snd).sum + (updates.map Prod.snd).sum := by
  induction updates generalizing d with
  | nil => exact (add_zero _).symm
  | cons u updates ih =>
      have hone : ((d.addTo u.1 u.2).items.map Prod.snd).sum = (d.items.map Prod.snd).sum + u.2 :=
        sum_upsert (f := fun _ v => v) d rfl fun v => rfl
      rw [addToAll, List.foldl_cons, ← addToAll, ih, hone, add_assoc, List.map_cons,
        List.sum_cons]

/-- The value of a key is the sum of all that was added to it. -/
theorem get?_addToAll (d : PyDict α β) (updates : List (α × β)) (key : α) :
    (d.addToAll updates).get? key =
      if key ∈ updates.map Prod.fst then
        some ((d.get? key).getD 0 + ((updates.filter (·.1 = key)).map Prod.snd).sum)
      else d.get? key := by
  induction updates generalizing d with
  | nil => rfl
  | cons u updates ih =>
      rw [addToAll, List.foldl_cons, ← addToAll, ih, addTo, get?_upsert, List.filter_cons]
      by_cases hu : u.1 = key
      · subst hu
        by_cases hrest : u.1 ∈ updates.map Prod.fst
        · simp [hrest, add_assoc]
        · have hfilter : updates.filter (·.1 = u.1) = [] := by
            refine List.filter_eq_nil_iff.mpr fun w hw hwu => hrest ?_
            rw [← of_decide_eq_true hwu]
            exact List.mem_map_of_mem hw
          simp [hrest, hfilter]
      · have hmem : key ∈ (u :: updates).map Prod.fst ↔ key ∈ updates.map Prod.fst := by
          rw [List.map_cons, List.mem_cons, or_iff_right (Ne.symm hu)]
        have hother : ¬ decide (u.1 = key) = true := fun h => hu (of_decide_eq_true h)
        rw [if_congr hmem rfl rfl, if_neg (Ne.symm hu), if_neg hother]

end Sums

end PyDict
