/-
# `DdsRtps.ShapeMain.Calls` — what a publisher calls

The four publishers (C++, HDDS, DustDDS and Zig) do the same in a turn: they
write one sample to every instance of every topic, and differ in when they
change it.  Here is what they share: the calls, the sample as it moves, and the
writes of a turn.

Instances are told apart by their colour, `BLUE`, `BLUE1`, `BLUE2` and so on;
a write names its instance by the number.
-/
import DdsRtps.Hdds.ShapeType

namespace DdsRtps.ShapeMain

open Hdds (ShapeType)

/-- A call of a publisher. -/
inductive Call where
  | beginCoherentChanges
  | endCoherentChanges
  | write (topic instance_ : Nat) (shape : ShapeType)
  | unregisterInstance (topic instance_ : Nat)
  | dispose (topic instance_ : Nat)
deriving DecidableEq, Repr

/-! ## The sample -/

/-- The colour of an instance. -/
def instanceColor (color : String) (j : Nat) : String := if j > 0 then color ++ toString j else color

/-- A sample, with its velocity. -/
structure Moving where
  shape : ShapeType
  xvel : Int32
  yvel : Int32
deriving DecidableEq, Repr

/-- What `random` gives: where the sample starts, and its velocity. -/
structure Start where
  x : Int32
  y : Int32
  xvel : Int32
  yvel : Int32
deriving DecidableEq, Repr

/-- The sample moves, and bounces off the border. -/
def Moving.bounce (daWidth daHeight : Int32) (m : Moving) : Moving :=
  let x := m.shape.x + m.xvel
  let y := m.shape.y + m.yvel
  let (x, xvel) := if x < 0 then (0, -m.xvel) else (x, m.xvel)
  let (x, xvel) := if x > daWidth then (daWidth, -xvel) else (x, xvel)
  let (y, yvel) := if y < 0 then (0, -m.yvel) else (y, m.yvel)
  let (y, yvel) := if y > daHeight then (daHeight, -yvel) else (y, yvel)
  { shape := { m.shape with x := x, y := y }, xvel := xvel, yvel := yvel }

/-! ## The writes of a turn -/

/-- A call, or several, for every instance of every topic. -/
def forAll (numTopics numInstances : Nat) (calls : Nat → Nat → List Call) : List Call :=
  (List.range numTopics).flatMap fun i => (List.range numInstances).flatMap fun j => calls i j

/-- `sample j` goes to the instance `j` of every topic. -/
def writeAll (numTopics numInstances : Nat) (sample : Nat → ShapeType) : List Call :=
  forAll numTopics numInstances fun i j => [.write i j (sample j)]

/-- The calls that are made of these when an error ends the turn after so many, if
one does. -/
def cutAfter (calls : List Call) : Option Nat → Option (List Call)
  | some m => if m ≤ calls.length then some (calls.take m) else none
  | none => none

/-- How a publisher returns, and what it has called. -/
structure Returned where
  ok : Bool
  calls : List Call
deriving DecidableEq, Repr

/-- The size of a sample, if the call writes it to this instance of this topic. -/
def Call.sizeTo (i j : Nat) : Call → Option Int32
  | .write i' j' shape => if i' = i ∧ j' = j then some shape.shapesize else none
  | _ => none

/-- The sizes that are written to an instance of a topic, in their order. -/
def sizesOf (i j : Nat) (calls : List Call) : List Int32 := calls.filterMap (Call.sizeTo i j)

/-- Does the call write to this instance of this topic? -/
def Call.writesTo (i j : Nat) (call : Call) : Bool := (call.sizeTo i j).isSome

theorem sizesOf_append (i j : Nat) (calls calls' : List Call) :
    sizesOf i j (calls ++ calls') = sizesOf i j calls ++ sizesOf i j calls' :=
  List.filterMap_append

/-- A loop over a range in which one turn alone gives something. -/
theorem flatMap_range_single {α : Type} {n i : Nat} (hi : i < n) {f : Nat → List α} {l : List α}
    (hself : f i = l) (hother : ∀ k, k ≠ i → f k = []) : (List.range n).flatMap f = l := by
  induction n with
  | zero => exact absurd hi (Nat.not_lt_zero i)
  | succ n ih =>
      rw [List.range_succ, List.flatMap_append, List.flatMap_singleton]
      rcases Nat.lt_succ_iff_lt_or_eq.mp hi with hlt | rfl
      · rw [ih hlt, hother n (Nat.ne_of_gt hlt), List.append_nil]
      · have hnone : (List.range i).flatMap f = [] := by
          rw [List.flatMap_eq_nil_iff]
          intro k hk
          exact hother k (Nat.ne_of_lt (List.mem_range.mp hk))
        rw [hnone, hself, List.nil_append]

theorem toNat_pos {n : UInt32} (h : n ≠ 0) : 0 < n.toNat :=
  UInt32.lt_iff_toNat_lt.mp (UInt32.pos_iff_ne_zero.mpr h)

/-- The number after `k` in the circle of the numbers below `n`. -/
theorem succ_mod_eq {k n : Nat} (hn : 1 ≤ n) :
    (k + 1) % n = if k % n + 1 < n then k % n + 1 else 0 := by
  have hlt := Nat.mod_lt k hn
  rw [← Nat.mod_add_mod]
  split
  · exact Nat.mod_eq_of_lt ‹_›
  · have heq : k % n + 1 = n := by omega
    rw [heq, Nat.mod_self]

/-- A turn writes once to every instance of every topic. -/
theorem sizesOf_writeAll {numTopics numInstances i j : Nat} (hi : i < numTopics)
    (hj : j < numInstances) (sample : Nat → ShapeType) :
    sizesOf i j (writeAll numTopics numInstances sample) = [(sample j).shapesize] := by
  rw [sizesOf, writeAll, forAll, List.filterMap_flatMap]
  simp only [List.filterMap_flatMap]
  refine flatMap_range_single hi (flatMap_range_single hj ?_ fun l hl => ?_) fun k hk => ?_
  · simp [Call.sizeTo]
  · simp [Call.sizeTo, hl]
  · simp [Call.sizeTo, hk]

/-! ## The calls of a loop -/

theorem mem_forAll {numTopics numInstances : Nat} {calls : Nat → Nat → List Call} {call : Call} :
    call ∈ forAll numTopics numInstances calls ↔
      ∃ i < numTopics, ∃ j < numInstances, call ∈ calls i j := by
  simp only [forAll, List.mem_flatMap, List.mem_range]

/-- What holds of the calls for each instance. -/
theorem forall_mem_forAll {numTopics numInstances : Nat} {calls : Nat → Nat → List Call}
    {P : Call → Prop} (h : ∀ i < numTopics, ∀ j < numInstances, ∀ call ∈ calls i j, P call) :
    ∀ call ∈ forAll numTopics numInstances calls, P call := by
  intro call hcall
  obtain ⟨i, hi, j, hj, hcall⟩ := mem_forAll.mp hcall
  exact h i hi j hj call hcall

/-- The call is none of the final ones; what it writes goes to an instance there is. -/
def Call.Regular (numTopics numInstances : Nat) (key : Nat → String) : Call → Prop
  | .write i j shape => i < numTopics ∧ j < numInstances ∧ shape.color = key j
  | .beginCoherentChanges => True
  | .endCoherentChanges => True
  | .unregisterInstance _ _ => False
  | .dispose _ _ => False

/-- The writes of a turn: each goes to an instance there is, and one or more to
every one of them. -/
structure WholeTurn (numTopics numInstances : Nat) (key : Nat → String) (writes : List Call) :
    Prop where
  regular : ∀ call ∈ writes, call.Regular numTopics numInstances key
  every : ∀ i < numTopics, ∀ j < numInstances, ∃ shape, .write i j shape ∈ writes

theorem regular_begin {numTopics numInstances : Nat} {key : Nat → String} (begun : Bool) :
    ∀ call ∈ if begun then [Call.beginCoherentChanges] else [],
      call.Regular numTopics numInstances key := by
  intro call hcall
  cases begun with
  | false => cases hcall
  | true =>
      obtain rfl := List.mem_singleton.mp hcall
      trivial

theorem regular_end {numTopics numInstances : Nat} {key : Nat → String} (ended : Bool) :
    ∀ call ∈ if ended then [Call.endCoherentChanges] else [],
      call.Regular numTopics numInstances key := by
  intro call hcall
  cases ended with
  | false => cases hcall
  | true =>
      obtain rfl := List.mem_singleton.mp hcall
      trivial

theorem wholeTurn_writeAll {numTopics numInstances : Nat} {key : Nat → String}
    {sample : Nat → ShapeType} (hkey : ∀ j, (sample j).color = key j) :
    WholeTurn numTopics numInstances key (writeAll numTopics numInstances sample) where
  regular := by
    refine forall_mem_forAll fun i hi j hj call hcall => ?_
    obtain rfl := List.mem_singleton.mp hcall
    exact ⟨hi, hj, hkey j⟩
  every := by
    intro i hi j hj
    exact ⟨sample j, mem_forAll.mpr ⟨i, hi, j, hj, List.mem_singleton.mpr rfl⟩⟩

end DdsRtps.ShapeMain
