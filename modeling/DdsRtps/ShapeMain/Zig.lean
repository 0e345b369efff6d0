/-
# `DdsRtps.ShapeMain.Zig` — the publisher in Zig

`runPublisher` of srcZig/shape_main.zig, from its loop on.  It goes on until
`g_all_done` is set or the iterations are made, and gives up when no reader has
matched after ten seconds.  With `--coherent` or `--ordered` a turn is a whole
coherent set, each instance with all its samples in turn; without, a turn writes
one sample to every instance.

An error of an allocation or of a write ends the turn and the function (`try`);
those of the last colours are left out.  There is room for 16 topics: a run with
more does not come to the loop.
-/
import DdsRtps.Lib.Loop
import DdsRtps.ShapeMain.Calls
import Mathlib.Data.List.Forall2

namespace DdsRtps.ShapeMain.Zig

open Hdds (ShapeType)

/-- What `runPublisher` reads of `Options`, from the loop on. -/
structure Options where
  color : Option String
  shapesize : Int32
  numIterations : Int
  numInstances : UInt32
  additionalPayload : UInt32
  sizeModulo : Int32
  finalInstanceState : UInt8
  orderedAccess : Bool
  coherentAccess : Bool
  numTopics : UInt32
  coherentSampleCount : UInt32
deriving DecidableEq, Repr

/-- The variables of `runPublisher`, and what it has called. -/
structure State where
  shape : ShapeType
  printedMatched : Bool
  iteration : Int
  calls : List Call
deriving DecidableEq, Repr

/-- What a turn sees: `g_all_done`, a matched reader, the end of the ten seconds,
the random numbers, and after how many writes an error ends it. -/
structure Seen where
  allDone : Bool
  matched : Bool
  late : Bool
  random : Nat → UInt16 × UInt16
  cut : Option Nat

variable (options : Options)

/-- `base_color`. -/
def baseColor : String := options.color.getD "BLUE"

/-- `ShapeColor.fromSlice(..) catch .{}`: a colour of more than 128 bytes is none. -/
def shapeColor (text : String) : String :=
  if (Utf8.asBytes text).length ≤ 128 then text else ""

/-- Before the loop. -/
def init : State where
  shape :=
    { color := shapeColor (baseColor options)
      x := 0
      y := 0
      shapesize := if options.shapesize = 0 then 1 else options.shapesize
      additionalPayloadSize :=
        if options.additionalPayload > 0 then
          List.replicate (options.additionalPayload.toNat - 1) 0 ++ [255]
        else [] }
  printedMatched := false
  iteration := 0
  calls := []

/-- The size after a sample was written. -/
def nextSize (shapesize : Int32) : Int32 :=
  if options.shapesize = 0 then
    let shapesize := shapesize + 1
    if options.sizeModulo > 0 ∧ shapesize > options.sizeModulo then 1 else shapesize
  else shapesize

/-- The sample somewhere else. -/
def place (shape : ShapeType) (random : UInt16 × UInt16) : ShapeType :=
  { shape with
    x := Int32.ofNat (random.1.toNat % 320)
    y := Int32.ofNat (random.2.toNat % 240) }

/-- The sample of an instance. -/
def sampleOf (shape : ShapeType) (inst : Nat) : ShapeType :=
  { shape with color := shapeColor (instanceColor (baseColor options) inst) }

/-- `use_coherent_gating`. -/
def gating : Bool := options.coherentAccess || options.orderedAccess

/-- `sc`, the samples of an instance in a coherent set. -/
def samplesInSet : Nat :=
  if options.coherentSampleCount > 0 then options.coherentSampleCount.toNat else 1

/-- A sample of a coherent set. -/
def writeInSet (random : Nat → UInt16 × UInt16) (made : ShapeType × List Call)
    (topicInst : Nat × Nat) : ShapeType × List Call :=
  let shape := place (sampleOf options made.1 topicInst.2) (random made.2.length)
  ({ shape with shapesize := nextSize options shape.shapesize },
    made.2 ++ [.write topicInst.1 topicInst.2 shape])

/-- The writes of a coherent set, and the sample after them. -/
def writeSet (random : Nat → UInt16 × UInt16) (shape : ShapeType) : ShapeType × List Call :=
  let places := (List.range options.numTopics.toNat).flatMap fun ti =>
    (List.range options.numInstances.toNat).flatMap fun inst =>
      List.replicate (samplesInSet options) (ti, inst)
  places.foldl (writeInSet options random) (shape, [])

/-- The writes of a turn without coherent sets, and the sample after them. -/
def writeTurn (random : Nat → UInt16 × UInt16) (shape : ShapeType) : ShapeType × List Call :=
  let shape := place shape (random 0)
  ({ shape with shapesize := nextSize options shape.shapesize },
    writeAll options.numTopics.toNat options.numInstances.toNat (sampleOf options shape))

/-- Unregister/dispose all instances across all topics on finite run. -/
def finalCalls : List Call :=
  if options.numIterations ≥ 0 then
    forAll options.numTopics.toNat options.numInstances.toNat fun i j =>
      if options.finalInstanceState = 'd'.toUInt8 then [.dispose i j] else [.unregisterInstance i j]
  else []

/-- The rest of a turn, when it is to write. -/
def write (seen : Seen) (s : State) : State ⊕ Returned :=
  let (shape, writes) :=
    if gating options then writeSet options seen.random s.shape
    else writeTurn options seen.random s.shape
  let begun := if gating options then [.beginCoherentChanges] else []
  let ended := if gating options then [.endCoherentChanges] else []
  match cutAfter writes seen.cut with
  | some made => .inr { ok := false, calls := s.calls ++ begun ++ made }
  | none =>
      .inl { s with
        shape := shape
        iteration := s.iteration + 1
        calls := s.calls ++ begun ++ writes ++ ended }

/-- `while (!g_all_done.load(.acquire))`. -/
def step (seen : Seen) (s : State) : State ⊕ Returned :=
  if seen.allDone ∨ (options.numIterations ≥ 0 ∧ s.iteration ≥ options.numIterations) then
    .inr { ok := true, calls := s.calls ++ finalCalls options }
  else if !s.printedMatched && !seen.matched && seen.late then
    .inr { ok := true, calls := s.calls }  -- READER_NOT_MATCHED
  else
    let s := { s with printedMatched := s.printedMatched || seen.matched }
    if gating options && !s.printedMatched then .inl s else write options seen s

/-- What has been called when the loop has gone as far as what it sees. -/
def callsMade (seen : List Seen) : List Call :=
  (Loop.drive (step options) seen (init options)).elim State.calls Returned.calls

/-! ## The writes of a turn -/

theorem exists_left_of_forall₂ {α β : Type*} {R : α → β → Prop} {l : List α} {l' : List β}
    (h : List.Forall₂ R l l') {b : β} (hb : b ∈ l') : ∃ a ∈ l, R a b := by
  induction h with
  | nil => cases hb
  | cons hr _ ih =>
      rcases List.mem_cons.mp hb with rfl | hb
      · exact ⟨_, List.mem_cons_self, hr⟩
      · obtain ⟨a, ha, hr'⟩ := ih hb
        exact ⟨a, List.mem_cons_of_mem _ ha, hr'⟩

theorem exists_right_of_forall₂ {α β : Type*} {R : α → β → Prop} {l : List α} {l' : List β}
    (h : List.Forall₂ R l l') {a : α} (ha : a ∈ l) : ∃ b ∈ l', R a b :=
  exists_left_of_forall₂ (R := flip R) h.flip ha

/-- The key of an instance. -/
def keyColor (j : Nat) : String :=
  shapeColor (instanceColor (baseColor options) j)

theorem samplesInSet_pos : 0 < samplesInSet options := by
  rw [samplesInSet]
  split
  · rename_i hpos
    exact UInt32.lt_iff_toNat_lt.mp hpos
  · exact Nat.one_pos

/-- The call writes to the place, with the key of its instance. -/
def WritesAt (place : Nat × Nat) (call : Call) : Prop :=
  ∃ shape, call = .write place.1 place.2 shape ∧ shape.color = keyColor options place.2

theorem writeInSet_snd (random : Nat → UInt16 × UInt16)
    (made : ShapeType × List Call) (place : Nat × Nat) :
    ∃ call, (writeInSet options random made place).2 = made.2 ++ [call] ∧
      WritesAt options place call :=
  ⟨_, rfl, _, rfl, rfl⟩

/-- The writes go to these places, in their order. -/
theorem foldl_writeInSet_snd (random : Nat → UInt16 × UInt16)
    (places : List (Nat × Nat)) (made : ShapeType × List Call) :
    ∃ writes, (places.foldl (writeInSet options random) made).2 = made.2 ++ writes ∧
      List.Forall₂ (WritesAt options) places writes := by
  induction places generalizing made with
  | nil => exact ⟨[], (List.append_nil _).symm, .nil⟩
  | cons place places ih =>
      obtain ⟨call, hcall, hat⟩ := writeInSet_snd options random made place
      obtain ⟨writes, hwrites, hats⟩ := ih (writeInSet options random made place)
      refine ⟨call :: writes, ?_, .cons hat hats⟩
      rw [List.foldl_cons, hwrites, hcall, List.append_assoc]
      rfl

theorem wholeTurn_writeSet (random : Nat → UInt16 × UInt16) (shape : ShapeType) :
    WholeTurn options.numTopics.toNat options.numInstances.toNat (keyColor options)
      (writeSet options random shape).2 := by
  obtain ⟨writes, hwrites, hats⟩ := foldl_writeInSet_snd options random
    ((List.range options.numTopics.toNat).flatMap fun ti =>
      (List.range options.numInstances.toNat).flatMap fun inst =>
        List.replicate (samplesInSet options) (ti, inst)) (shape, [])
  have hset : (writeSet options random shape).2 = writes := hwrites
  rw [hset]
  refine ⟨?_, ?_⟩
  · intro call hcall
    obtain ⟨place, hplace, written, rfl, hcolor⟩ := exists_left_of_forall₂ hats hcall
    simp only [List.mem_flatMap, List.mem_range, List.mem_replicate] at hplace
    obtain ⟨i, hi, j, hj, -, rfl⟩ := hplace
    exact ⟨hi, hj, hcolor⟩
  · intro i hi j hj
    have hplace : (i, j) ∈ (List.range options.numTopics.toNat).flatMap fun ti =>
        (List.range options.numInstances.toNat).flatMap fun inst =>
          List.replicate (samplesInSet options) (ti, inst) := by
      simp only [List.mem_flatMap, List.mem_range, List.mem_replicate]
      exact ⟨i, hi, j, hj, Nat.ne_of_gt (samplesInSet_pos options), rfl⟩
    obtain ⟨call, hcall, written, rfl, -⟩ := exists_right_of_forall₂ hats hplace
    exact ⟨written, hcall⟩

/-- The writes of a turn, with coherent sets or without. -/
theorem wholeTurn_writes (random : Nat → UInt16 × UInt16) (shape : ShapeType) :
    WholeTurn options.numTopics.toNat options.numInstances.toNat (keyColor options)
      (if gating options then writeSet options random shape
        else writeTurn options random shape).2 := by
  split
  · exact wholeTurn_writeSet options random shape
  · exact wholeTurn_writeAll fun _ => rfl

end DdsRtps.ShapeMain.Zig
