/-
# `DdsRtps.Lib.SameDict` — when two lists of updates fill the same dict

A dict is its keys in the order in which they were set, and a value for each
(`PyDict.eq_iff`).  Of dicts that are filled update by update the keys are the
first appearances (`keys_addToAll`, `keys_pushAll`), and the values the sums and
the lists of a key; so two lists of updates are told apart by no more than that
(`addToAll_eq_iff`, `pushAll_eq_iff`).
-/
import DdsRtps.Lib.FirstSeen

/-! ## First appearances -/

namespace FirstSeen

variable {α γ : Type*} [DecidableEq α] [DecidableEq γ]

theorem firsts_append_of_subset {l m : List α} (h : ∀ a ∈ m, a ∈ l) :
    firsts (l ++ m) = firsts l := by
  have hnil : m.removeAll l = [] := by
    refine List.filter_eq_nil_iff.mpr fun a ha => ?_
    simpa using h a ha
  rw [firsts_append, hnil]
  exact List.append_nil _

theorem firsts_append_congr {l l' : List α} (h : firsts l = firsts l') (m : List α) :
    firsts (l ++ m) = firsts (l' ++ m) := by
  have hremove : m.removeAll l = m.removeAll l' := by
    refine List.filter_congr fun a ha => ?_
    have hmem : a ∈ l ↔ a ∈ l' := by rw [← mem_firsts, h, mem_firsts]
    simp [hmem]
  rw [firsts_append, firsts_append, h, hremove]

/-- What comes of a repetition comes of the first appearance before. -/
theorem firsts_flatMap_firsts (l : List α) (f : α → List γ) :
    firsts ((firsts l).flatMap f) = firsts (l.flatMap f) := by
  induction l using List.reverseRecOn with
  | nil => rfl
  | append_singleton l a ih =>
      rw [List.flatMap_append, List.flatMap_singleton]
      by_cases ha : a ∈ l
      · rw [firsts_concat_known ha, ih, firsts_append_of_subset]
        exact fun b hb => List.mem_flatMap.mpr ⟨a, ha, hb⟩
      · rw [firsts_concat_new ha, List.flatMap_append, List.flatMap_singleton]
        exact firsts_append_congr ih (f a)

theorem firsts_flatMap_congr {l l' : List α} (h : firsts l = firsts l') (f : α → List γ) :
    firsts (l.flatMap f) = firsts (l'.flatMap f) := by
  rw [← firsts_flatMap_firsts, h, firsts_flatMap_firsts]

end FirstSeen

namespace PyDict

open FirstSeen

variable {α β : Type*} [DecidableEq α]

/-! ## Keys and values -/

/-- A dict is its keys, in their order, and their values. -/
theorem eq_iff {d d' : PyDict α β} :
    d = d' ↔ d.items.map Prod.fst = d'.items.map Prod.fst ∧ ∀ key, d.get? key = d'.get? key := by
  constructor
  · rintro rfl
    exact ⟨rfl, fun _ => rfl⟩
  · rintro ⟨hkeys, hget⟩
    have hitems : ∀ d : PyDict α β, (d.items.map fun item => (item.1, some item.2)) =
        (d.items.map Prod.fst).map fun key => (key, d.get? key) := by
      intro d
      rw [List.map_map]
      refine List.map_congr_left fun item hitem => ?_
      rw [Function.comp_apply, mem_items_iff.mp hitem]
    have hinj : Function.Injective fun item : α × β => (item.1, some item.2) := by
      intro item item' h
      obtain ⟨hkey, hvalue⟩ := Prod.mk.inj h
      exact Prod.ext hkey (Option.some.inj hvalue)
    refine eq_of_items_eq (List.map_injective_iff.mpr hinj ?_)
    simp only [hitems, hkeys, hget]

theorem keys_upsert (d : PyDict α β) (key : α) (default : β) (update : β → β) :
    (d.upsert key default update).items.map Prod.fst =
      if key ∈ d.items.map Prod.fst then d.items.map Prod.fst
      else d.items.map Prod.fst ++ [key] := by
  have hmodify : ∀ d : PyDict α β,
      (d.modify key update).items.map Prod.fst = d.items.map Prod.fst := by
    intro d
    rw [modify, List.map_map]
    rfl
  rw [upsert, hmodify, setDefault]
  split
  · rfl
  · exact List.map_append

/-- The keys of a dict that is filled update by update. -/
theorem keys_foldl {γ : Type*} {step : PyDict α β → α × γ → PyDict α β} {default : β}
    {f : γ → β → β} (hstep : ∀ d u, step d u = d.upsert u.1 default (f u.2))
    (updates : List (α × γ)) :
    (updates.foldl step .empty).items.map Prod.fst = firsts (updates.map Prod.fst) := by
  induction updates using List.reverseRecOn with
  | nil => rfl
  | append_singleton updates u ih =>
      rw [List.foldl_concat, hstep, keys_upsert, ih, List.map_append, List.map_singleton]
      by_cases hu : u.1 ∈ updates.map Prod.fst
      · rw [if_pos (mem_firsts.mpr hu), firsts_concat_known hu]
      · rw [if_neg fun hmem => hu (mem_firsts.mp hmem), firsts_concat_new hu]

/-! ## Dicts of lists -/

/-- What is added to a key, in order. -/
def addedTo (updates : List (α × β)) (key : α) : List β :=
  (updates.filter (·.1 = key)).map Prod.snd

theorem addedTo_append (updates updates' : List (α × β)) (key : α) :
    addedTo (updates ++ updates') key = addedTo updates key ++ addedTo updates' key := by
  rw [addedTo, List.filter_append, List.map_append]
  rfl

theorem addedTo_eq_nil_iff {updates : List (α × β)} {key : α} :
    addedTo updates key = [] ↔ key ∉ updates.map Prod.fst := by
  rw [addedTo, List.map_eq_nil_iff, List.filter_eq_nil_iff]
  constructor
  · rintro h hmem
    obtain ⟨u, hu, rfl⟩ := List.mem_map.mp hmem
    exact h u hu (decide_eq_true rfl)
  · intro h u hu hkey
    rw [← of_decide_eq_true hkey] at h
    exact h (List.mem_map_of_mem hu)

theorem eq_nil_of_addedTo {updates : List (α × β)} (h : ∀ key, addedTo updates key = []) :
    updates = [] := by
  rw [List.eq_nil_iff_forall_not_mem]
  intro u hu
  exact addedTo_eq_nil_iff.mp (h u.1) (List.mem_map_of_mem hu)

theorem keys_pushAll (updates : List (α × β)) :
    ((empty : PyDict α (List β)).pushAll updates).items.map Prod.fst =
      firsts (updates.map Prod.fst) :=
  keys_foldl (f := fun v l => l ++ [v]) (fun _ _ => rfl) updates

theorem get?_pushAll_empty (updates : List (α × β)) (key : α) :
    ((empty : PyDict α (List β)).pushAll updates).get? key =
      if key ∈ updates.map Prod.fst then some (addedTo updates key) else none := by
  have hlist : ((empty : PyDict α (List β)).pushAll updates).listAt key = addedTo updates key :=
    (listAt_pushAll _ updates key).trans (List.nil_append _)
  split
  · rename_i hin
    cases hget : ((empty : PyDict α (List β)).pushAll updates).get? key with
    | none =>
        rw [get?_eq_none_iff, keys_pushAll, mem_firsts] at hget
        exact absurd hin hget
    | some l =>
        rw [listAt, hget] at hlist
        exact congrArg some hlist
  · rename_i hout
    rwa [get?_eq_none_iff, keys_pushAll, mem_firsts]

theorem pushAll_eq_iff {updates updates' : List (α × β)} :
    (empty : PyDict α (List β)).pushAll updates = (empty : PyDict α (List β)).pushAll updates' ↔
      firsts (updates.map Prod.fst) = firsts (updates'.map Prod.fst) ∧
        ∀ key, addedTo updates key = addedTo updates' key := by
  rw [eq_iff, keys_pushAll, keys_pushAll]
  refine and_congr_right fun hkeys => forall_congr' fun key => ?_
  have hmem : key ∈ updates.map Prod.fst ↔ key ∈ updates'.map Prod.fst := by
    rw [← mem_firsts, hkeys, mem_firsts]
  rw [get?_pushAll_empty, get?_pushAll_empty]
  by_cases hin : key ∈ updates.map Prod.fst
  · rw [if_pos hin, if_pos (hmem.mp hin), Option.some.injEq]
  · rw [if_neg hin, if_neg (mt hmem.mpr hin), addedTo_eq_nil_iff.mpr hin,
      addedTo_eq_nil_iff.mpr (mt hmem.mpr hin)]
    exact ⟨fun _ => rfl, fun _ => rfl⟩

/-! ## Dicts of sums -/

section Sums

variable [AddCommMonoid β]

/-- The sum of what is added to a key. -/
def sumTo (updates : List (α × β)) (key : α) : β := (addedTo updates key).sum

theorem sumTo_append (updates updates' : List (α × β)) (key : α) :
    sumTo (updates ++ updates') key = sumTo updates key + sumTo updates' key := by
  rw [sumTo, addedTo_append, List.sum_append]
  rfl

theorem sumTo_eq_zero {updates : List (α × β)} {key : α} (h : key ∉ updates.map Prod.fst) :
    sumTo updates key = 0 := by
  rw [sumTo, addedTo_eq_nil_iff.mpr h, List.sum_nil]

/-- The sums of some of the keys. -/
theorem sumTo_filter (p : α → Bool) (updates : List (α × β)) (key : α) :
    sumTo (updates.filter fun u => p u.1) key = if p key then sumTo updates key else 0 := by
  rw [sumTo, addedTo, List.filter_filter]
  split
  · rename_i hkey
    refine congrArg (fun l : List (α × β) => (l.map Prod.snd).sum) (List.filter_congr fun u _ => ?_)
    rw [Bool.and_eq_left_iff_imp]
    intro hu
    rwa [of_decide_eq_true hu]
  · rename_i hkey
    have hnil : (updates.filter fun u => decide (u.1 = key) && p u.1) = [] := by
      refine List.filter_eq_nil_iff.mpr fun u _ hu => hkey ?_
      obtain ⟨hu, hp⟩ := Bool.and_eq_true_iff.mp hu
      rwa [← of_decide_eq_true hu]
    rw [hnil]
    rfl

theorem keys_addToAll (updates : List (α × β)) :
    ((empty : PyDict α β).addToAll updates).items.map Prod.fst = firsts (updates.map Prod.fst) :=
  keys_foldl (f := fun v old => old + v) (fun _ _ => rfl) updates

theorem get?_addToAll_empty (updates : List (α × β)) (key : α) :
    ((empty : PyDict α β).addToAll updates).get? key =
      if key ∈ updates.map Prod.fst then some (sumTo updates key) else none := by
  rw [get?_addToAll, get?_empty, Option.getD_none, zero_add]
  rfl

theorem addToAll_eq_iff {updates updates' : List (α × β)} :
    (empty : PyDict α β).addToAll updates = (empty : PyDict α β).addToAll updates' ↔
      firsts (updates.map Prod.fst) = firsts (updates'.map Prod.fst) ∧
        ∀ key, sumTo updates key = sumTo updates' key := by
  rw [eq_iff, keys_addToAll, keys_addToAll]
  refine and_congr_right fun hkeys => forall_congr' fun key => ?_
  have hmem : key ∈ updates.map Prod.fst ↔ key ∈ updates'.map Prod.fst := by
    rw [← mem_firsts, hkeys, mem_firsts]
  rw [get?_addToAll_empty, get?_addToAll_empty]
  by_cases hin : key ∈ updates.map Prod.fst
  · rw [if_pos hin, if_pos (hmem.mp hin), Option.some.injEq]
  · rw [if_neg hin, if_neg (mt hmem.mpr hin), sumTo_eq_zero hin,
      sumTo_eq_zero (mt hmem.mpr hin)]
    exact ⟨fun _ => rfl, fun _ => rfl⟩

/-- If the sums of all keys are zero, so is the sum of everything. -/
theorem sum_eq_zero_of_sumTo {updates : List (α × β)} (h : ∀ key, sumTo updates key = 0) :
    (updates.map Prod.snd).sum = 0 := by
  have hsum := sum_addToAll (empty : PyDict α β) updates
  have hempty : ((empty : PyDict α β).items.map Prod.snd).sum = 0 := rfl
  rw [hempty, zero_add] at hsum
  rw [← hsum]
  refine List.sum_eq_zero fun v hv => ?_
  obtain ⟨⟨key, v'⟩, hitem, rfl⟩ := List.mem_map.mp hv
  have hget := mem_items_iff.mp hitem
  rw [get?_addToAll_empty, h key] at hget
  split at hget
  · exact (Option.some.inj hget).symm
  · cases hget

end Sums

end PyDict
