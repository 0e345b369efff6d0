/-
# `DdsRtps.Lib.Keyed` — lists to which only new keys are added

`if key not in seen: seen.add(key); out.append(a)`: a list in which the first
of the members with one key stays.  What is added is a sublist of what is
offered, and it is all of it exactly if no key is offered twice and none is
there already.
-/
import Mathlib.Data.List.Nodup

namespace Keyed

variable {α β : Type*} [DecidableEq β] (key : α → β)

/-- A member is added, unless one with its key is there. -/
def add (l : List α) (a : α) : List α :=
  if key a ∈ l.map key then l else l ++ [a]

/-- Members are added in their order. -/
def addAll (l offered : List α) : List α := offered.foldl (add key) l

variable {key}

theorem addAll_cons_known {l : List α} {a : α} (h : key a ∈ l.map key) (offered : List α) :
    addAll key l (a :: offered) = addAll key l offered := by
  rw [addAll, List.foldl_cons, add, if_pos h, addAll]

theorem addAll_cons_new {l : List α} {a : α} (h : key a ∉ l.map key) (offered : List α) :
    addAll key l (a :: offered) = addAll key (l ++ [a]) offered := by
  rw [addAll, List.foldl_cons, add, if_neg h, addAll]

variable (key) in
/-- The list grows at its end, by some of what is offered. -/
theorem addAll_eq_append (l offered : List α) :
    ∃ new, new.Sublist offered ∧ addAll key l offered = l ++ new := by
  induction offered generalizing l with
  | nil => exact ⟨[], List.Sublist.refl _, (List.append_nil l).symm⟩
  | cons a offered ih =>
      by_cases h : key a ∈ l.map key
      · obtain ⟨new, hsub, heq⟩ := ih l
        rw [addAll_cons_known h]
        exact ⟨new, hsub.trans (List.sublist_cons_self _ _), heq⟩
      · obtain ⟨new, hsub, heq⟩ := ih (l ++ [a])
        rw [addAll_cons_new h, heq]
        exact ⟨a :: new, hsub.cons_cons a, by simp⟩

/-- All that is offered is added, exactly if every key is new. -/
theorem addAll_eq_append_iff (l offered : List α) :
    addAll key l offered = l ++ offered ↔
      (offered.map key).Nodup ∧ ∀ a ∈ offered, key a ∉ l.map key := by
  induction offered generalizing l with
  | nil => simp [addAll]
  | cons a offered ih =>
      by_cases h : key a ∈ l.map key
      · rw [addAll_cons_known h]
        constructor
        · intro hall
          obtain ⟨new, hsub, heq⟩ := addAll_eq_append key l offered
          rw [heq, List.append_cancel_left_eq] at hall
          have hlen := hsub.length_le
          rw [hall, List.length_cons] at hlen
          omega
        · intro hnew
          exact absurd h (hnew.2 a List.mem_cons_self)
      · have hassoc : l ++ a :: offered = (l ++ [a]) ++ offered := by simp
        rw [addAll_cons_new h, hassoc, ih, List.map_cons, List.nodup_cons,
          List.forall_mem_cons]
        constructor
        · rintro ⟨hnodup, hnew⟩
          refine ⟨⟨?_, hnodup⟩, h, ?_⟩
          · intro hmem
            obtain ⟨b, hb, hkey⟩ := List.mem_map.mp hmem
            exact hnew b hb (by simp [hkey])
          · intro b hb hmem
            exact hnew b hb (by simp [List.mem_map.mp hmem])
        · rintro ⟨⟨hfresh, hnodup⟩, -, hnew⟩
          refine ⟨hnodup, ?_⟩
          intro b hb hmem
          rw [List.map_append, List.mem_append] at hmem
          rcases hmem with hmem | hmem
          · exact hnew b hb hmem
          · have hsame : key b = key a := by simpa using hmem
            exact hfresh (hsame ▸ List.mem_map_of_mem hb)

/-- No key comes twice, if none did before. -/
theorem nodup_addAll {l : List α} (h : (l.map key).Nodup) (offered : List α) :
    ((addAll key l offered).map key).Nodup := by
  induction offered generalizing l with
  | nil => exact h
  | cons a offered ih =>
      by_cases hknown : key a ∈ l.map key
      · rw [addAll_cons_known hknown]
        exact ih h
      · rw [addAll_cons_new hknown]
        refine ih ?_
        rw [List.map_append, List.map_singleton, List.nodup_append]
        refine ⟨h, List.nodup_singleton _, ?_⟩
        intro k hk k' hk' heq
        rw [List.mem_singleton.mp hk'] at heq
        exact hknown (heq ▸ hk)

theorem prefix_addAll (l offered : List α) : l <+: addAll key l offered := by
  obtain ⟨new, -, heq⟩ := addAll_eq_append key l offered
  rw [heq]
  exact List.prefix_append l new

/-- With the members as keys, what is offered is there afterwards. -/
theorem mem_addAll_id [DecidableEq α] {l offered : List α} {a : α} :
    a ∈ addAll id l offered ↔ a ∈ l ∨ a ∈ offered := by
  induction offered generalizing l with
  | nil => simp [addAll]
  | cons b offered ih =>
      by_cases hknown : id b ∈ l.map id
      · rw [addAll_cons_known hknown, ih, List.mem_cons]
        rw [id, List.map_id] at hknown
        constructor
        · exact fun h => h.imp_right .inr
        · rintro (h | rfl | h)
          · exact .inl h
          · exact .inl hknown
          · exact .inr h
      · rw [addAll_cons_new hknown, ih, List.mem_append, List.mem_singleton, List.mem_cons,
          or_assoc]

end Keyed
