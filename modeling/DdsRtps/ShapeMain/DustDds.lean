/-
# `DdsRtps.ShapeMain.DustDds` — the publisher of DustDDS

`run_publisher` of srcRs/DustDDS/src/main.rs.  There are no coherent sets: with
`--coherent` or `--ordered` the publisher is not initialised.  What a write
answers is dropped (`.ok()`).

Arithmetic wraps, as in a release build.
-/
import DdsRtps.Lib.Loop
import DdsRtps.ShapeMain.Calls

namespace DdsRtps.ShapeMain.DustDds

open Hdds (ShapeType)

inductive FinalInstanceState where
  | u
  | d
deriving DecidableEq, Repr

/-- What `run_publisher` reads of `Options`. -/
structure Options where
  color : Option String
  shapesize : Int32
  sizeModulo : Option Int32
  additionalPayloadSize : Nat
  numTopics : UInt32
  numInstances : UInt32
  numIterations : UInt32
  finalInstanceState : Option FinalInstanceState
deriving DecidableEq, Repr

/-- The variables of `run_publisher`, and what it has called. -/
structure State where
  moving : Moving
  n : UInt32
  calls : List Call
deriving DecidableEq, Repr

variable (options : Options)

/-- `base_color`. -/
def baseColor : String := options.color.getD "BLUE"

/-- Before the loop. -/
def init (start : Start) : State where
  moving :=
    { shape :=
        { color := baseColor options
          x := start.x
          y := start.y
          shapesize := options.shapesize
          additionalPayloadSize := List.replicate options.additionalPayloadSize 255 }
      xvel := start.xvel
      yvel := start.yvel }
  n := 0
  calls := []

/-- `move_shape`, in an area of 240 and 270. -/
def moveShape (m : Moving) : Moving := m.bounce 240 270

/-- The size of the next samples. -/
def nextSize (shapesize : Int32) : Int32 :=
  if options.shapesize = 0 then
    match options.sizeModulo with
    | some sizeModulo => if sizeModulo > 0 then shapesize % sizeModulo + 1 else shapesize + 1
    | none => shapesize + 1
  else shapesize

/-- The sample of an instance. -/
def sampleOf (shape : ShapeType) (j : Nat) : ShapeType :=
  { shape with color := instanceColor (baseColor options) j }

/-- Unregister or dispose instances of all DataWriters. -/
def finalCalls : List Call :=
  match options.finalInstanceState with
  | some .u => forAll options.numTopics.toNat options.numInstances.toNat fun i j =>
      [.unregisterInstance i j]
  | some .d => forAll options.numTopics.toNat options.numInstances.toNat fun i j =>
      [.dispose i j]
  | none => []

/-- The body of the loop. -/
def turn (s : State) : State :=
  let moved := moveShape s.moving
  let shape := { moved.shape with shapesize := nextSize options moved.shape.shapesize }
  { moving := { moved with shape := shape }
    n := s.n + 1
    calls := s.calls ++
      writeAll options.numTopics.toNat options.numInstances.toNat (sampleOf options shape) }

/-- `while all_done.try_recv().is_err()`, with what is received. -/
def step (received : Bool) (s : State) : State ⊕ State :=
  if received then .inr s
  else
    let s' := turn options s
    if options.numIterations ≠ 0 ∧ s'.n ≥ options.numIterations then .inr s' else .inl s'

/-- What has been called when the loop has gone as far as what it receives. -/
def callsMade (start : Start) (received : List Bool) : List Call :=
  (Loop.drive (step options) received (init options start)).elim State.calls fun s =>
    s.calls ++ finalCalls options

end DdsRtps.ShapeMain.DustDds
