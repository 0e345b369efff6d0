/-
# `DdsRtps.ShapeMain.HddsRs` — the publisher of HDDS

`run_publisher` of srcRs/HDDS/src/main.rs, from the loop on, with the options as
`ShapeOptions::parse` leaves them.  Coherent sets are only printed there: nothing
is called at their begin and at their end.  A write that fails makes the function
return its error (`?`).

Arithmetic wraps, as in a release build.
-/
import DdsRtps.Hdds.ShapeOptions
import DdsRtps.Lib.Loop
import DdsRtps.ShapeMain.Calls

namespace DdsRtps.ShapeMain.HddsRs

open Hdds (ShapeType ShapeOptions)

/-- The variables of `run_publisher`, and what it has called. -/
structure State where
  moving : Moving
  n : UInt32
  calls : List Call
deriving DecidableEq, Repr

/-- What a turn sees: whether `ALL_DONE` is set, and which of its writes fails. -/
structure Seen where
  allDone : Bool
  failing : Option Nat
deriving DecidableEq, Repr

variable (options : ShapeOptions)

/-- The colour of the first instance. -/
def color : String := options.color.getD "BLUE"

/-- Before the loop. -/
def init (start : Start) : State where
  moving :=
    { shape :=
        { color := color options
          x := start.x
          y := start.y
          shapesize := Int32.ofInt options.shapesize
          additionalPayloadSize := List.replicate options.additionalPayloadSize.toNat 255 }
      xvel := start.xvel
      yvel := start.yvel }
  n := 0
  calls := []

/-- The size of the next samples; the modulo is taken `as i32`. -/
def nextSize (shapesize : Int32) : Int32 :=
  if options.shapesize = 0 then
    if options.sizeModulo > 0 then shapesize % Int32.ofInt options.sizeModulo + 1
    else shapesize + 1
  else shapesize

/-- The sample of an instance; one instance alone keeps its colour. -/
def sampleOf (shape : ShapeType) (j : Nat) : ShapeType :=
  if options.numInstances > 1 then { shape with color := instanceColor (color options) j }
  else shape

/-- Dispose/Unregister instances. -/
def finalCalls : List Call :=
  if options.dispose || options.unregister then
    forAll options.numTopics.toNat options.numInstances.toNat fun i j =>
      (if options.unregister then [.unregisterInstance i j] else []) ++
        if options.dispose then [.dispose i j] else []
  else []

/-- After the loop. -/
def finish (s : State) : Returned := { ok := true, calls := s.calls ++ finalCalls options }

/-- `while !ALL_DONE.load(..)`. -/
def step (seen : Seen) (s : State) : State ⊕ Returned :=
  if seen.allDone then .inr (finish options s)
  else
    let moved := s.moving.bounce (Int32.ofInt options.daWidth) (Int32.ofInt options.daHeight)
    let shape := { moved.shape with shapesize := nextSize options moved.shape.shapesize }
    let writes := writeAll options.numTopics.toNat options.numInstances.toNat
      (sampleOf options shape)
    match cutAfter writes (seen.failing.map (· + 1)) with
    | some made => .inr { ok := false, calls := s.calls ++ made }
    | none =>
        let s' :=
          { moving := { moved with shape := shape }
            n := s.n + 1
            calls := s.calls ++ writes }
        if options.numIterations ≠ 0 ∧ options.numIterations ≤ s'.n.toNat then
          .inr (finish options s')
        else .inl s'

/-- What has been called when the loop has gone as far as what it sees. -/
def callsMade (start : Start) (seen : List Seen) : List Call :=
  (Loop.drive (step options) seen (init options start)).elim State.calls Returned.calls

end DdsRtps.ShapeMain.HddsRs
