/-
# `DdsRtps.ShapeMain.GrowingSizes` — growing sizes in the four publishers

With `-z 0` every sample that an instance is sent is larger than the last, up to
`--size-modulo`, where it starts again from 1.  The C++, HDDS and DustDDS
publishers change the size before they write, from 0 on and by a modulo; the Zig
publisher changes it after, from 1 on, and resets it.

Whatever ends a run, and whatever it sees before, the sizes that an instance of a
topic is sent are the orbit of the function from a size to the next one
(`sizes_callsMade`, for each publisher).  What the orbits have in common is then
arithmetic (`toInt_iterate`).
-/
import DdsRtps.ShapeMain.Cxx
import DdsRtps.ShapeMain.DustDds
import DdsRtps.ShapeMain.HddsRs
import DdsRtps.ShapeMain.Zig
import Mathlib.Data.List.Iterate

namespace DdsRtps.ShapeMain

/-! ## The sizes that an instance is sent -/

/-- An instance of a topic has been sent the first sizes of an orbit. -/
def Sent (grow : Int32 → Int32) (first : Int32) (i j t : Nat) (calls : List Call) : Prop :=
  sizesOf i j calls = List.iterate grow first t

theorem sizesOf_forAll_eq_nil {i j : Nat} {calls : Nat → Nat → List Call}
    (h : ∀ i' j', sizesOf i j (calls i' j') = []) (numTopics numInstances : Nat) :
    sizesOf i j (forAll numTopics numInstances calls) = [] := by
  rw [sizesOf, forAll, List.filterMap_flatMap, List.flatMap_eq_nil_iff]
  intro i' _
  rw [List.filterMap_flatMap, List.flatMap_eq_nil_iff]
  exact fun j' _ => h i' j'

/-- Calls that write nothing to the instance do not matter. -/
theorem Sent.append {grow : Int32 → Int32} {first : Int32} {i j t : Nat} {calls : List Call}
    (h : Sent grow first i j t calls) {calls' : List Call} (hnone : sizesOf i j calls' = []) :
    Sent grow first i j t (calls ++ calls') := by
  rw [Sent, sizesOf_append, hnone, List.append_nil]
  exact h

/-- What a turn starts from: the sizes sent, and the next one, where they go on. -/
structure Growing (grow : Int32 → Int32) (first : Int32) (i j t : Nat) (calls : List Call)
    (next : Int32) : Prop where
  sent : Sent grow first i j t calls
  next : next = grow^[t] first

namespace Growing

variable {grow : Int32 → Int32} {first next : Int32} {i j t numTopics numInstances : Nat}
  {calls : List Call} {sample : Nat → Hdds.ShapeType}

/-- Before the first turn. -/
theorem start : Growing grow first i j 0 [] first := ⟨rfl, rfl⟩

theorem append (h : Growing grow first i j t calls next) {calls' : List Call}
    (hnone : sizesOf i j calls' = []) : Growing grow first i j t (calls ++ calls') next :=
  ⟨h.sent.append hnone, h.next⟩

variable (h : Growing grow first i j t calls next) (hi : i < numTopics) (hj : j < numInstances)
  (hsize : (sample j).shapesize = next)

include h hi hj hsize

/-- The writes of a turn. -/
theorem write : Growing grow first i j (t + 1)
    (calls ++ writeAll numTopics numInstances sample) (grow next) where
  sent := by
    rw [Sent, sizesOf_append, sizesOf_writeAll hi hj, hsize, h.next, List.iterate_add,
      ← h.sent.symm]
    rfl
  next := by rw [Function.iterate_succ_apply', ← h.next]

/-- The writes of a turn that an error ends. -/
theorem cut {made : List Call} {cut : Option Nat}
    (hcut : cutAfter (writeAll numTopics numInstances sample) cut = some made) :
    ∃ m ≤ t + 1, Sent grow first i j m (calls ++ made) := by
  obtain ⟨rest, hrest⟩ : made <+: writeAll numTopics numInstances sample := by
    unfold cutAfter at hcut
    split at hcut
    · split_ifs at hcut
      obtain rfl := Option.some.inj hcut
      exact List.take_prefix _ _
    · cases hcut
  have hone := sizesOf_writeAll hi hj sample
  rw [← hrest, sizesOf_append] at hone
  rcases List.append_eq_singleton_iff.mp hone with ⟨hnone, -⟩ | ⟨hall, -⟩
  · exact ⟨t, Nat.le_succ t, h.sent.append hnone⟩
  · refine ⟨t + 1, le_rfl, ?_⟩
    rw [Sent, sizesOf_append, hall, hsize, h.next, List.iterate_add, ← h.sent.symm]
    rfl

end Growing

/-- The run of a publisher: what a turn keeps, and what an exit makes of the sizes,
no more than one of them further. -/
theorem sent_drive {ι σ β : Type} {step : ι → σ → σ ⊕ β} {state : σ → List Call}
    {returned : β → List Call} {grow : Int32 → Int32} {first : Int32} {i j : Nat}
    (next : σ → Int32)
    (hturn : ∀ x t s s', Growing grow first i j t (state s) (next s) → step x s = .inl s' →
      Growing grow first i j (t + 1) (state s') (next s'))
    (hexit : ∀ x t s b, Growing grow first i j t (state s) (next s) → step x s = .inr b →
      ∃ m ≤ t + 1, Sent grow first i j m (returned b))
    {s : σ} (hinit : Growing grow first i j 0 (state s) (next s)) (inputs : List ι) :
    ∃ m ≤ inputs.length,
      Sent grow first i j m ((Loop.drive step inputs s).elim state returned) := by
  have hrun := Loop.drive_inv (fun t s => Growing grow first i j t (state s) (next s))
    (fun t b => ∃ m ≤ t + 1, Sent grow first i j m (returned b)) hturn hexit hinit inputs
  rw [Nat.zero_add] at hrun
  rcases hrun with ⟨s', hs, hgrowing⟩ | ⟨b, t, hb, ht, m, hm, hsent⟩
  · rw [hs]
    exact ⟨inputs.length, le_rfl, hgrowing.sent⟩
  · rw [hb]
    exact ⟨m, by omega, hsent⟩

/-! ## C++ -/

namespace Cxx

variable {options : Options} {i j : Nat}

theorem sizesOf_finalCalls : sizesOf i j (finalCalls options) = [] := by
  unfold finalCalls
  split
  · refine sizesOf_forAll_eq_nil (fun i' j' => ?_) _ _
    cases options.unregister <;> cases options.dispose <;> rfl
  · rfl

theorem shapesize_sampleOf (shape : Hdds.ShapeType) (l : Nat) :
    (sampleOf options shape l).shapesize = shape.shapesize := by
  unfold sampleOf
  split <;> rfl

/-- The size of the next samples in a state. -/
def next (options : Options) (s : State) : Int32 := nextSize options s.moving.shape.shapesize

/-- What an instance is sent. -/
theorem sizes_callsMade (start : Start) (signals : List Bool) (hi : i < options.numTopics.toNat)
    (hj : j < options.numInstances.toNat) :
    ∃ m ≤ signals.length, Sent (nextSize options) (nextSize options options.shapesize) i j m
      (callsMade options start signals) := by
  unfold callsMade
  refine sent_drive (next options) ?_ ?_ Growing.start signals
  · intro signalled t s s' hs hstep
    unfold step at hstep
    split_ifs at hstep
    obtain rfl := Sum.inl.inj hstep
    have hbegun : sizesOf i j (if begins options s.n then [.beginCoherentChanges] else []) = [] := by
      split <;> rfl
    have hended : sizesOf i j (if ends options s.n then [.endCoherentChanges] else []) = [] := by
      split <;> rfl
    exact ((hs.append hbegun).write hi hj (shapesize_sampleOf _ _)).append hended
  · intro signalled t s s' hs hstep
    unfold step at hstep
    split_ifs at hstep
    obtain rfl := Sum.inr.inj hstep
    exact ⟨t, Nat.le_succ t, hs.sent.append sizesOf_finalCalls⟩

end Cxx

/-! ## HDDS -/

namespace HddsRs

variable {options : Hdds.ShapeOptions} {i j : Nat}

theorem sizesOf_finalCalls : sizesOf i j (finalCalls options) = [] := by
  unfold finalCalls
  split
  · refine sizesOf_forAll_eq_nil (fun i' j' => ?_) _ _
    cases options.unregister <;> cases options.dispose <;> rfl
  · rfl

theorem shapesize_sampleOf (shape : Hdds.ShapeType) (l : Nat) :
    (sampleOf options shape l).shapesize = shape.shapesize := by
  unfold sampleOf
  split <;> rfl

/-- The size of the next samples in a state. -/
def next (options : Hdds.ShapeOptions) (s : State) : Int32 :=
  nextSize options s.moving.shape.shapesize

/-- What an instance is sent. -/
theorem sizes_callsMade (start : Start) (seen : List Seen) (hi : i < options.numTopics.toNat)
    (hj : j < options.numInstances.toNat) :
    ∃ m ≤ seen.length, Sent (nextSize options) (nextSize options (Int32.ofInt options.shapesize))
      i j m (callsMade options start seen) := by
  unfold callsMade
  refine sent_drive (next options) ?_ ?_ Growing.start seen
  · intro x t s s' hs hstep
    dsimp only [step] at hstep
    split at hstep
    · cases hstep
    · split at hstep
      · cases hstep
      · split_ifs at hstep
        obtain rfl := Sum.inl.inj hstep
        exact hs.write hi hj (shapesize_sampleOf _ _)
  · intro x t s b hs hstep
    dsimp only [step, finish] at hstep
    split at hstep
    · obtain rfl := Sum.inr.inj hstep
      exact ⟨t, Nat.le_succ t, hs.sent.append sizesOf_finalCalls⟩
    · split at hstep
      · rename_i hcut
        obtain rfl := Sum.inr.inj hstep
        exact hs.cut hi hj (shapesize_sampleOf _ _) hcut
      · split_ifs at hstep
        obtain rfl := Sum.inr.inj hstep
        exact ⟨t + 1, le_rfl,
          (hs.write hi hj (shapesize_sampleOf _ _)).sent.append sizesOf_finalCalls⟩

end HddsRs

/-! ## DustDDS -/

namespace DustDds

variable {options : Options} {i j : Nat}

theorem sizesOf_finalCalls : sizesOf i j (finalCalls options) = [] := by
  unfold finalCalls
  split
  · exact sizesOf_forAll_eq_nil (fun _ _ => rfl) _ _
  · exact sizesOf_forAll_eq_nil (fun _ _ => rfl) _ _
  · rfl

/-- The size of the next samples in a state. -/
def next (options : Options) (s : State) : Int32 := nextSize options s.moving.shape.shapesize

/-- What an instance is sent. -/
theorem sizes_callsMade (start : Start) (received : List Bool) (hi : i < options.numTopics.toNat)
    (hj : j < options.numInstances.toNat) :
    ∃ m ≤ received.length, Sent (nextSize options) (nextSize options options.shapesize) i j m
      (callsMade options start received) := by
  unfold callsMade
  refine sent_drive (next options) ?_ ?_ Growing.start received
  · intro x t s s' hs hstep
    dsimp only [step] at hstep
    split_ifs at hstep
    obtain rfl := Sum.inl.inj hstep
    exact hs.write hi hj rfl
  · intro x t s s' hs hstep
    dsimp only [step] at hstep
    split_ifs at hstep
    · obtain rfl := Sum.inr.inj hstep
      exact ⟨t, Nat.le_succ t, hs.sent.append sizesOf_finalCalls⟩
    · obtain rfl := Sum.inr.inj hstep
      exact ⟨t + 1, le_rfl, (hs.write hi hj rfl).sent.append sizesOf_finalCalls⟩

end DustDds

/-! ## Zig -/

namespace Zig

variable {options : Options} {i j : Nat}

theorem sizesOf_finalCalls : sizesOf i j (finalCalls options) = [] := by
  unfold finalCalls
  split
  · refine sizesOf_forAll_eq_nil (fun i' j' => ?_) _ _
    split <;> rfl
  · rfl

/-- The size of the next samples in a state: the one it has. -/
def next (s : State) : Int32 := s.shape.shapesize

/-- A turn without coherent sets. -/
theorem write_eq (h : gating options = false) (seen : Seen) (s : State) :
    write options seen s =
      match cutAfter (writeTurn options seen.random s.shape).2 seen.cut with
      | some made => .inr { ok := false, calls := s.calls ++ made }
      | none =>
          .inl { s with
            shape := (writeTurn options seen.random s.shape).1
            iteration := s.iteration + 1
            calls := s.calls ++ (writeTurn options seen.random s.shape).2 } := by
  cases hcut : cutAfter (writeTurn options seen.random s.shape).2 seen.cut <;>
    simp [write, h, hcut]

/-- What an instance is sent, without coherent sets. -/
theorem sizes_callsMade (h : gating options = false) (seen : List Seen)
    (hi : i < options.numTopics.toNat) (hj : j < options.numInstances.toNat) :
    ∃ m ≤ seen.length, Sent (nextSize options) (init options).shape.shapesize i j m
      (callsMade options seen) := by
  unfold callsMade
  refine sent_drive next ?_ ?_ Growing.start seen
  · intro x t s s' hs hstep
    dsimp only [step] at hstep
    rw [h, Bool.false_and, if_neg Bool.false_ne_true, write_eq h] at hstep
    split_ifs at hstep
    split at hstep
    · cases hstep
    · obtain rfl := Sum.inl.inj hstep
      exact hs.write hi hj rfl
  · intro x t s b hs hstep
    dsimp only [step] at hstep
    rw [h, Bool.false_and, if_neg Bool.false_ne_true, write_eq h] at hstep
    split_ifs at hstep
    · obtain rfl := Sum.inr.inj hstep
      exact ⟨t, Nat.le_succ t, hs.sent.append sizesOf_finalCalls⟩
    · obtain rfl := Sum.inr.inj hstep
      exact ⟨t, Nat.le_succ t, hs.sent⟩
    · split at hstep
      · rename_i hcut
        obtain rfl := Sum.inr.inj hstep
        exact hs.cut hi hj rfl hcut
      · cases hstep

end Zig

/-! ## What the orbits are -/

/-- The size of the `k`-th sample, counted from 1. -/
def expectedSize : Option Nat → Nat → Nat
  | none, k => k
  | some n, k => (k - 1) % n + 1

/-- The sizes up to the `k`-th sample, none of them above the limit, fit in an
`int32`. -/
def NoOverflow (limit : Option Nat) (k : Nat) : Prop := limit.elim k (min k) < 2 ^ 31

theorem NoOverflow.pred {limit : Option Nat} {k : Nat} (h : NoOverflow limit (k + 1)) :
    NoOverflow limit k := by
  cases limit with
  | none => exact Nat.lt_of_succ_lt h
  | some n =>
      have hmin : min (k + 1) n < 2 ^ 31 := h
      show min k n < 2 ^ 31
      omega

/-- An orbit from 1 on has the expected sizes, if each is followed by the next. -/
theorem toInt_iterate {modulo limit : Option Nat} {grow : Int32 → Int32} {first : Int32}
    (hfirst : first.toInt = 1)
    (hgrow : ∀ (k : Nat) (s : Int32), NoOverflow limit (k + 2) →
      s.toInt = expectedSize modulo (k + 1) → (grow s).toInt = expectedSize modulo (k + 2))
    {k : Nat} (hk : NoOverflow limit (k + 1)) :
    (grow^[k] first).toInt = expectedSize modulo (k + 1) := by
  induction k with
  | zero =>
      rw [Function.iterate_zero_apply, hfirst]
      cases modulo with
      | none => rfl
      | some n => simp [expectedSize]
  | succ k ih =>
      rw [Function.iterate_succ_apply']
      exact hgrow k _ hk (ih hk.pred)

theorem toInt_succ {s : Int32} {a : Nat} (hs : s.toInt = a) (ha : a + 1 < 2 ^ 31) :
    (s + 1).toInt = (a + 1 : Nat) := by
  rw [Int32.toInt_add, hs]
  show ((a : Int) + 1).bmod (2 ^ 32) = _
  rw [Int.bmod_eq_of_le (by omega) (by omega)]
  rfl

/-- The next size by a modulo, as in C++, HDDS and DustDDS. -/
def nextByModulo (n s : Int32) : Int32 := if n > 0 then s % n + 1 else s + 1

/-- The next size by a reset, as in Zig. -/
def nextByReset (n s : Int32) : Int32 := if n > 0 ∧ s + 1 > n then 1 else s + 1

/-- The first size that is taken by a modulo comes from 0. -/
theorem toInt_nextByModulo_zero (n : Int32) : (nextByModulo n 0).toInt = 1 := by
  unfold nextByModulo
  split
  · simp
  · rfl

section Growth

variable {modulo : Option Nat} {n : Int32} (hn : n.toInt = modulo.getD 0)
  (hmodulo : ∀ N ∈ modulo, 1 ≤ N ∧ N < 2 ^ 31)

include hn in
theorem pos_iff_of_modulo : n > 0 ↔ 0 < modulo.getD 0 := by
  rw [gt_iff_lt, Int32.lt_iff_toInt_lt, hn, Int32.toInt_zero]
  exact Int.natCast_pos

include hn hmodulo in
theorem toInt_nextByModulo {k : Nat} {s : Int32} (hk : NoOverflow modulo (k + 2))
    (hs : s.toInt = expectedSize modulo (k + 1)) :
    (nextByModulo n s).toInt = expectedSize modulo (k + 2) := by
  unfold nextByModulo
  cases modulo with
  | none =>
      rw [if_neg (by rw [pos_iff_of_modulo hn]; decide)]
      exact toInt_succ hs hk
  | some N =>
      obtain ⟨hpos, hlt⟩ := hmodulo N rfl
      rw [if_pos (by rw [pos_iff_of_modulo hn]; exact hpos)]
      have hmod : (s % n).toInt = ((k + 1) % N : Nat) := by
        rw [Int32.toInt_mod, hs, hn]
        show (((k + 1 - 1) % N + 1 : Nat) : Int).tmod (N : Int) = _
        rw [Int.tmod_eq_emod_of_nonneg (Int.natCast_nonneg _), Nat.add_sub_cancel,
          ← Int.natCast_emod, Nat.mod_add_mod]
      have hbelow := Nat.mod_lt (k + 1) hpos
      show _ = (((k + 1) % N + 1 : Nat) : Int)
      exact toInt_succ hmod (by omega)

include hn hmodulo in
theorem toInt_nextByReset {k : Nat} {s : Int32} (hk : NoOverflow (modulo.map (· + 1)) (k + 2))
    (hs : s.toInt = expectedSize modulo (k + 1)) :
    (nextByReset n s).toInt = expectedSize modulo (k + 2) := by
  unfold nextByReset
  cases modulo with
  | none =>
      rw [if_neg (by rw [pos_iff_of_modulo hn]; simp)]
      exact toInt_succ hs hk
  | some N =>
      obtain ⟨hpos, hlt⟩ := hmodulo N rfl
      have hmin : min (k + 2) (N + 1) < 2 ^ 31 := hk
      have hle := Nat.mod_le k N
      have hbelow := Nat.mod_lt k hpos
      have hnext : (s + 1).toInt = (k % N + 1 + 1 : Nat) := toInt_succ hs (by omega)
      have habove : s + 1 > n ↔ ¬ k % N + 1 < N := by
        rw [gt_iff_lt, Int32.lt_iff_toInt_lt, hnext, hn]
        show (N : Int) < _ ↔ _
        omega
      show _ = (((k + 1) % N + 1 : Nat) : Int)
      rw [succ_mod_eq hpos]
      by_cases hstay : k % N + 1 < N
      · rw [if_neg (fun h => habove.1 h.2 hstay), if_pos hstay, hnext]
      · rw [if_pos ⟨(pos_iff_of_modulo hn).2 hpos, habove.2 hstay⟩, if_neg hstay]
        rfl

end Growth

/-! ## The sizes of a run -/

/-- The `k`-th write to every instance of every topic has the expected size, as
long as none overflows. -/
def KthSizes (modulo limit : Option Nat) (numTopics numInstances : Nat) (calls : List Call) :
    Prop :=
  ∀ i < numTopics, ∀ j < numInstances, ∀ (k : Nat) (size : Int32),
    (sizesOf i j calls)[k]? = some size → NoOverflow limit (k + 1) →
      size.toInt = expectedSize modulo (k + 1)

theorem kthSizes_of_sent {modulo limit : Option Nat} {grow : Int32 → Int32} {first : Int32}
    {numTopics numInstances : Nat} {calls : List Call}
    (hsent : ∀ i < numTopics, ∀ j < numInstances, ∃ m, Sent grow first i j m calls)
    (hfirst : first.toInt = 1)
    (hgrow : ∀ (k : Nat) (s : Int32), NoOverflow limit (k + 2) →
      s.toInt = expectedSize modulo (k + 1) → (grow s).toInt = expectedSize modulo (k + 2)) :
    KthSizes modulo limit numTopics numInstances calls := by
  intro i hi j hj k size hsize hk
  obtain ⟨m, hm⟩ := hsent i hi j hj
  rw [hm] at hsize
  have hlt : k < m := by
    obtain ⟨hlength, -⟩ := List.getElem?_eq_some_iff.mp hsize
    rwa [List.length_iterate] at hlength
  rw [List.getElem?_iterate _ _ _ _ hlt] at hsize
  obtain rfl := Option.some.inj hsize
  exact toInt_iterate hfirst hgrow hk

section Growth

variable {modulo : Option Nat} {n : Int32} {numTopics numInstances : Nat} {calls : List Call}
  (hn : n.toInt = modulo.getD 0) (hmodulo : ∀ N ∈ modulo, 1 ≤ N ∧ N < 2 ^ 31)

include hn hmodulo

theorem kthSizes_byModulo
    (hsent : ∀ i < numTopics, ∀ j < numInstances,
      ∃ m, Sent (nextByModulo n) (nextByModulo n 0) i j m calls) :
    KthSizes modulo modulo numTopics numInstances calls :=
  kthSizes_of_sent hsent (toInt_nextByModulo_zero n) fun _ _ => toInt_nextByModulo hn hmodulo

theorem kthSizes_byReset
    (hsent : ∀ i < numTopics, ∀ j < numInstances, ∃ m, Sent (nextByReset n) 1 i j m calls) :
    KthSizes modulo (modulo.map (· + 1)) numTopics numInstances calls :=
  kthSizes_of_sent hsent rfl fun _ _ => toInt_nextByReset hn hmodulo

end Growth

/-- `-z 0`, neither `--coherent` nor `--ordered`, and perhaps `--size-modulo`. -/
structure Cxx.GrowsBy (modulo : Option Nat) (options : Cxx.Options) : Prop where
  shapesize : options.shapesize = 0
  coherent : options.coherentSetEnabled = false
  ordered : options.orderedAccessEnabled = false
  modulo : options.sizeModulo.toInt = modulo.getD 0

/-- The same of the options of HDDS. -/
structure HddsRs.GrowsBy (modulo : Option Nat) (options : Hdds.ShapeOptions) : Prop where
  shapesize : options.shapesize = 0
  coherent : options.coherentSetEnabled = false
  ordered : options.orderedAccessEnabled = false
  modulo : options.sizeModulo = modulo.getD 0

/-- The same of the options of DustDDS, where the other two end the process. -/
structure DustDds.GrowsBy (modulo : Option Nat) (options : DustDds.Options) : Prop where
  shapesize : options.shapesize = 0
  modulo : options.sizeModulo.map Int32.toInt = modulo.map fun n => (n : Int)

/-- The same of the options of the Zig publisher. -/
structure Zig.GrowsBy (modulo : Option Nat) (options : Zig.Options) : Prop where
  shapesize : options.shapesize = 0
  coherent : options.coherentAccess = false
  ordered : options.orderedAccess = false
  modulo : options.sizeModulo.toInt = modulo.getD 0

section Publishers

variable {modulo : Option Nat} (hmodulo : ∀ N ∈ modulo, 1 ≤ N ∧ N < 2 ^ 31)

include hmodulo

theorem Cxx.kthSizes {options : Cxx.Options} (h : Cxx.GrowsBy modulo options) (start : Start)
    (signals : List Bool) :
    KthSizes modulo modulo options.numTopics.toNat options.numInstances.toNat
      (Cxx.callsMade options start signals) := by
  have hnext : Cxx.nextSize options = nextByModulo options.sizeModulo := by
    funext s
    exact if_pos h.shapesize
  refine kthSizes_byModulo h.modulo hmodulo fun i hi j hj => ?_
  obtain ⟨m, -, hm⟩ := Cxx.sizes_callsMade start signals hi hj
  rw [hnext, h.shapesize] at hm
  exact ⟨m, hm⟩

theorem HddsRs.kthSizes {options : Hdds.ShapeOptions} (h : HddsRs.GrowsBy modulo options)
    (start : Start) (seen : List HddsRs.Seen) :
    KthSizes modulo modulo options.numTopics.toNat options.numInstances.toNat
      (HddsRs.callsMade options start seen) := by
  have hcast : (Int32.ofInt options.sizeModulo).toInt = modulo.getD 0 := by
    rw [← h.modulo]
    cases modulo with
    | none => rw [h.modulo]; rfl
    | some N =>
        obtain ⟨-, hlt⟩ := hmodulo N rfl
        have hN : options.sizeModulo = (N : Int) := h.modulo
        exact Int32.toInt_ofInt_of_le (by omega) (by omega)
  have hnext : HddsRs.nextSize options = nextByModulo (Int32.ofInt options.sizeModulo) := by
    funext s
    unfold HddsRs.nextSize nextByModulo
    rw [if_pos h.shapesize]
    have hpos : options.sizeModulo > 0 ↔ Int32.ofInt options.sizeModulo > 0 := by
      rw [pos_iff_of_modulo hcast, h.modulo]
      exact Int.natCast_pos
    simp only [hpos]
  refine kthSizes_byModulo hcast hmodulo fun i hi j hj => ?_
  obtain ⟨m, -, hm⟩ := HddsRs.sizes_callsMade start seen hi hj
  rw [hnext, h.shapesize] at hm
  exact ⟨m, hm⟩

theorem DustDds.kthSizes {options : DustDds.Options} (h : DustDds.GrowsBy modulo options)
    (start : Start) (received : List Bool) :
    KthSizes modulo modulo options.numTopics.toNat options.numInstances.toNat
      (DustDds.callsMade options start received) := by
  have hgetD : (options.sizeModulo.getD 0).toInt = modulo.getD 0 := by
    have hmap := h.modulo
    cases hsize : options.sizeModulo <;> cases modulo <;> simp_all
  have hnext : DustDds.nextSize options = nextByModulo (options.sizeModulo.getD 0) := by
    funext s
    unfold DustDds.nextSize
    rw [if_pos h.shapesize]
    cases options.sizeModulo <;> rfl
  refine kthSizes_byModulo hgetD hmodulo fun i hi j hj => ?_
  obtain ⟨m, -, hm⟩ := DustDds.sizes_callsMade start received hi hj
  rw [hnext, h.shapesize] at hm
  exact ⟨m, hm⟩

theorem Zig.kthSizes {options : Zig.Options} (h : Zig.GrowsBy modulo options)
    (seen : List Zig.Seen) :
    KthSizes modulo (modulo.map (· + 1)) options.numTopics.toNat options.numInstances.toNat
      (Zig.callsMade options seen) := by
  have hungated : Zig.gating options = false := by
    rw [Zig.gating, h.coherent, h.ordered]
    rfl
  have hnext : Zig.nextSize options = nextByReset options.sizeModulo := by
    funext s
    exact if_pos h.shapesize
  have hfirst : (Zig.init options).shape.shapesize = 1 := if_pos h.shapesize
  refine kthSizes_byReset h.modulo hmodulo fun i hi j hj => ?_
  obtain ⟨m, -, hm⟩ := Zig.sizes_callsMade hungated seen hi hj
  rw [hnext, hfirst] at hm
  exact ⟨m, hm⟩

end Publishers

/-- Growing sizes agree: in the four publishers the `k`-th write to every instance
of every topic has the size `k`, or `(k - 1) % N + 1` with a modulo `N`.  The size
of the Zig publisher is `N + 1` before it is reset, so that has to fit too. -/
theorem growing_sizes_agree (modulo : Option Nat) (hmodulo : ∀ N ∈ modulo, 1 ≤ N ∧ N < 2 ^ 31) :
    (∀ options start signals, Cxx.GrowsBy modulo options →
      KthSizes modulo modulo options.numTopics.toNat options.numInstances.toNat
        (Cxx.callsMade options start signals)) ∧
    (∀ options start seen, HddsRs.GrowsBy modulo options →
      KthSizes modulo modulo options.numTopics.toNat options.numInstances.toNat
        (HddsRs.callsMade options start seen)) ∧
    (∀ options start received, DustDds.GrowsBy modulo options →
      KthSizes modulo modulo options.numTopics.toNat options.numInstances.toNat
        (DustDds.callsMade options start received)) ∧
    ∀ options seen, Zig.GrowsBy modulo options →
      KthSizes modulo (modulo.map (· + 1)) options.numTopics.toNat options.numInstances.toNat
        (Zig.callsMade options seen) :=
  ⟨fun _ start signals h => Cxx.kthSizes hmodulo h start signals,
    fun _ start seen h => HddsRs.kthSizes hmodulo h start seen,
    fun _ start received h => DustDds.kthSizes hmodulo h start received,
    fun _ seen h => Zig.kthSizes hmodulo h seen⟩

/-! ## A run of each -/

/-- `-z 0 --size-modulo 3 --num-instances 2`. -/
def Cxx.threeSizes : Cxx.Options where
  color := "BLUE"
  shapesize := 0
  sizeModulo := 3
  additionalPayloadSize := 0
  coherentSetEnabled := false
  orderedAccessEnabled := false
  coherentSetSampleCount := 0
  numTopics := 1
  numInstances := 2
  numIterations := 0
  unregister := false
  dispose := false
  daWidth := 240
  daHeight := 270

/-- The same for HDDS. -/
def HddsRs.threeSizes : Hdds.ShapeOptions :=
  { Hdds.ShapeOptions.default_ with
    topicName := some "Square"
    publish := true
    shapesize := 0
    sizeModulo := 3
    numInstances := 2 }

/-- The same for DustDDS. -/
def DustDds.threeSizes : DustDds.Options where
  color := none
  shapesize := 0
  sizeModulo := some 3
  additionalPayloadSize := 0
  numTopics := 1
  numInstances := 2
  numIterations := 0
  finalInstanceState := none

/-- The same for Zig. -/
def Zig.threeSizes : Zig.Options where
  color := none
  shapesize := 0
  numIterations := -1
  numInstances := 2
  additionalPayload := 0
  sizeModulo := 3
  finalInstanceState := 0
  orderedAccess := false
  coherentAccess := false
  numTopics := 1
  coherentSampleCount := 0

/-- Five turns of each send the second instance 1, 2, 3, 1, 2. -/
theorem growing_sizes_agree_three :
    (KthSizes (some 3) (some 3) 1 2
        (Cxx.callsMade Cxx.threeSizes ⟨0, 0, 1, 1⟩ (List.replicate 5 false)) ∧
      sizesOf 0 1 (Cxx.callsMade Cxx.threeSizes ⟨0, 0, 1, 1⟩ (List.replicate 5 false)) =
        [1, 2, 3, 1, 2]) ∧
    (KthSizes (some 3) (some 3) 1 2
        (HddsRs.callsMade HddsRs.threeSizes ⟨0, 0, 1, 1⟩ (List.replicate 5 ⟨false, none⟩)) ∧
      sizesOf 0 1 (HddsRs.callsMade HddsRs.threeSizes ⟨0, 0, 1, 1⟩
        (List.replicate 5 ⟨false, none⟩)) = [1, 2, 3, 1, 2]) ∧
    (KthSizes (some 3) (some 3) 1 2
        (DustDds.callsMade DustDds.threeSizes ⟨0, 0, 1, 1⟩ (List.replicate 5 false)) ∧
      sizesOf 0 1 (DustDds.callsMade DustDds.threeSizes ⟨0, 0, 1, 1⟩ (List.replicate 5 false)) =
        [1, 2, 3, 1, 2]) ∧
    KthSizes (some 3) (some 4) 1 2 (Zig.callsMade Zig.threeSizes
        (List.replicate 5 ⟨false, true, false, fun _ => (0, 0), none⟩)) ∧
      sizesOf 0 1 (Zig.callsMade Zig.threeSizes
        (List.replicate 5 ⟨false, true, false, fun _ => (0, 0), none⟩)) = [1, 2, 3, 1, 2] := by
  obtain ⟨hcxx, hhdds, hdust, hzig⟩ := growing_sizes_agree (some 3) (by simp)
  exact ⟨⟨hcxx Cxx.threeSizes _ _ ⟨rfl, rfl, rfl, rfl⟩, by decide⟩,
    ⟨hhdds HddsRs.threeSizes _ _ ⟨rfl, rfl, rfl, rfl⟩, by decide⟩,
    ⟨hdust DustDds.threeSizes _ _ ⟨rfl, rfl⟩, by decide⟩,
    hzig Zig.threeSizes _ ⟨rfl, rfl, rfl, rfl⟩, by decide⟩

end DdsRtps.ShapeMain
