/-
# `DdsRtps.ShapeMain.Cxx` — the publisher in C++

`run_publisher` of srcCxx/shape_main.cxx, as it is compiled for every product
but Connext Micro (for that, the coherent sets are left out).  It goes on until
`all_done` is set, by a signal or by the number of iterations; the signals it
sees at the head of the loop are the input.

A turn that is numbered by a multiple of `coherent_set_sample_count` begins a
coherent set, and one whose number leaves `coherent_set_sample_count - 1` ends
it.  The number is an `unsigned int` and wraps.
-/
import DdsRtps.Lib.Loop
import DdsRtps.ShapeMain.Calls

namespace DdsRtps.ShapeMain.Cxx

open Hdds (ShapeType)

/-- What `run_publisher` reads of `ShapeOptions`. -/
structure Options where
  color : String
  shapesize : Int32
  sizeModulo : Int32
  additionalPayloadSize : Int32
  coherentSetEnabled : Bool
  orderedAccessEnabled : Bool
  coherentSetSampleCount : UInt32
  numTopics : UInt32
  numInstances : UInt32
  numIterations : UInt32
  unregister : Bool
  dispose : Bool
  daWidth : Int32
  daHeight : Int32
deriving DecidableEq, Repr

/-- The variables of `run_publisher`, and what it has called. -/
structure State where
  moving : Moving
  n : UInt32
  allDone : Bool
  calls : List Call
deriving DecidableEq, Repr

variable (options : Options)

/-- Before the loop. -/
def init (start : Start) : State where
  moving :=
    { shape :=
        { color := options.color
          x := start.x
          y := start.y
          shapesize := options.shapesize
          additionalPayloadSize :=
            if options.additionalPayloadSize > 0 then
              List.replicate options.additionalPayloadSize.toNatClampNeg 255
            else [] }
      xvel := start.xvel
      yvel := start.yvel }
  n := 0
  allDone := false
  calls := []

/-- `moveShape`. -/
def moveShape (m : Moving) : Moving := m.bounce options.daWidth options.daHeight

/-- The size of the next samples. -/
def nextSize (shapesize : Int32) : Int32 :=
  if options.shapesize = 0 then
    if options.sizeModulo > 0 then shapesize % options.sizeModulo + 1 else shapesize + 1
  else shapesize

/-- Are there coherent sets? -/
def grouped : Bool :=
  (options.coherentSetEnabled || options.orderedAccessEnabled) &&
    options.coherentSetSampleCount != 0

/-- Does the turn begin a coherent set? -/
def begins (n : UInt32) : Bool := grouped options && n % options.coherentSetSampleCount == 0

/-- Does the turn end one? -/
def ends (n : UInt32) : Bool :=
  grouped options && n % options.coherentSetSampleCount == options.coherentSetSampleCount - 1

/-- The sample of an instance; one instance alone keeps its colour. -/
def sampleOf (shape : ShapeType) (j : Nat) : ShapeType :=
  if options.numInstances > 1 then { shape with color := instanceColor options.color j } else shape

/-- The body of the loop. -/
def turn (s : State) : State :=
  let moved := moveShape options s.moving
  let shape := { moved.shape with shapesize := nextSize options moved.shape.shapesize }
  let n := s.n + 1
  { moving := { moved with shape := shape }
    n := n
    allDone := options.numIterations != 0 && options.numIterations ≤ n
    calls := s.calls ++
      (if begins options s.n then [.beginCoherentChanges] else []) ++
      writeAll options.numTopics.toNat options.numInstances.toNat (sampleOf options shape) ++
      (if ends options s.n then [.endCoherentChanges] else []) }

/-- `while ( ! all_done )`, with what the signal handler has set. -/
def step (signalled : Bool) (s : State) : State ⊕ State :=
  if s.allDone || signalled then .inr s else .inl (turn options s)

/-- Unregister or dispose instances of all DataWriters. -/
def finalCalls : List Call :=
  if options.dispose || options.unregister then
    forAll options.numTopics.toNat options.numInstances.toNat fun i j =>
      (if options.unregister then [.unregisterInstance i j] else []) ++
        if options.dispose then [.dispose i j] else []
  else []

/-- `run_publisher`: its calls, when it returns. -/
def runPublisher (start : Start) (signals : List Bool) : Option (List Call) :=
  match Loop.drive (step options) signals (init options start) with
  | .inl _ => none
  | .inr s => some (s.calls ++ finalCalls options)

/-- What has been called when the loop has gone as far as the signals: the
publisher may have returned, or may not. -/
def callsMade (start : Start) (signals : List Bool) : List Call :=
  (Loop.drive (step options) signals (init options start)).elim State.calls fun s =>
    s.calls ++ finalCalls options

/-! ## How many turns there are -/

/-- The turns before the loop is left: until it is signalled, but no more than
the number of iterations. -/
def turnsMade (signals : List Bool) : Nat :=
  let unsignalled := (signals.takeWhile (! ·)).length
  if options.numIterations = 0 then unsignalled
  else min unsignalled options.numIterations.toNat

variable {options} {start : Start}

/-- The state after so many turns. -/
def after (options : Options) (start : Start) (t : Nat) : State :=
  (turn options)^[t] (init options start)

theorem after_succ (t : Nat) : after options start (t + 1) = turn options (after options start t) :=
  Function.iterate_succ_apply' _ _ _

theorem n_after (t : Nat) : (after options start t).n.toNat = t % 2 ^ 32 := by
  induction t with
  | zero => rfl
  | succ t ih =>
      rw [after_succ]
      show ((after options start t).n + 1).toNat = _
      rw [UInt32.toNat_add, ih]
      show (t % 2 ^ 32 + 1) % 2 ^ 32 = _
      omega

/-- Until the number of iterations is reached, only a signal ends the loop. -/
theorem allDone_after {t : Nat} (h : options.numIterations = 0 ∨ t ≤ options.numIterations.toNat) :
    (after options start t).allDone = true ↔
      options.numIterations ≠ 0 ∧ t = options.numIterations.toNat := by
  cases t with
  | zero =>
      constructor
      · nofun
      · rintro ⟨hne, hzero⟩
        exact absurd (UInt32.toNat_inj.mp hzero.symm) hne
  | succ t =>
      have hn : (after options start (t + 1)).n.toNat = _ := n_after (t + 1)
      rw [after_succ] at hn ⊢
      show (options.numIterations != 0 && decide (options.numIterations ≤ _)) = true ↔ _
      rw [Bool.and_eq_true, bne_iff_ne, decide_eq_true_eq, UInt32.le_iff_toNat_le]
      refine and_congr_right fun hne => ?_
      have hle := h.resolve_left hne
      have hlt := options.numIterations.toNat_lt
      have hsmall : (t + 1) % 2 ^ 32 = t + 1 := Nat.mod_eq_of_lt (by omega)
      rw [hsmall] at hn
      have hcount : ((after options start t).n + 1).toNat = t + 1 := hn
      show options.numIterations.toNat ≤ ((after options start t).n + 1).toNat ↔ _
      rw [hcount]
      omega

/-- The loop is left in the state after its turns. -/
theorem drive_eq_inr {signals : List Bool} {t : Nat} {s : State}
    (ht : options.numIterations = 0 ∨ t ≤ options.numIterations.toNat)
    (h : Loop.drive (step options) signals (after options start t) = .inr s) :
    s = after options start (if options.numIterations = 0 then
        t + (signals.takeWhile (! ·)).length
      else min (t + (signals.takeWhile (! ·)).length) options.numIterations.toNat) := by
  induction signals generalizing t with
  | nil => cases h
  | cons signalled signals ih =>
      have hdone : (after options start t).allDone = true ↔ _ := allDone_after ht
      rw [Loop.drive, step] at h
      cases signalled with
      | true =>
          rw [Bool.or_true, if_pos rfl] at h
          obtain rfl := Sum.inr.inj h
          rw [List.takeWhile_cons_of_neg (by simp), List.length_nil, Nat.add_zero]
          split
          · rfl
          · rename_i hne
            rw [Nat.min_eq_left (ht.resolve_left hne)]
      | false =>
          rw [Bool.or_false] at h
          rw [List.takeWhile_cons_of_pos rfl, List.length_cons]
          by_cases hall : (after options start t).allDone = true
          · rw [if_pos hall] at h
            obtain ⟨hne, rfl⟩ := hdone.mp hall
            obtain rfl := Sum.inr.inj h
            rw [if_neg hne, Nat.min_eq_right (by omega)]
          · rw [if_neg hall] at h
            have hnext : options.numIterations = 0 ∨ t + 1 ≤ options.numIterations.toNat := by
              by_cases hzero : options.numIterations = 0
              · exact .inl hzero
              · have hne : t ≠ options.numIterations.toNat := fun ht => hall (hdone.mpr ⟨hzero, ht⟩)
                have hle := ht.resolve_left hzero
                exact .inr (by omega)
            simp only [← after_succ] at h
            rw [ih hnext h]
            have hsum : t + 1 + (signals.takeWhile (! ·)).length =
                t + ((signals.takeWhile (! ·)).length + 1) := by omega
            rw [hsum]

/-- What has been called when the publisher returns. -/
theorem runPublisher_eq_some {signals : List Bool} {calls : List Call}
    (h : runPublisher options start signals = some calls) :
    calls = (after options start (turnsMade options signals)).calls ++ finalCalls options := by
  rw [runPublisher] at h
  split at h
  · cases h
  · rename_i s hs
    obtain rfl := Option.some.inj h
    have hs' : Loop.drive (step options) signals (after options start 0) = .inr s := hs
    have heq := drive_eq_inr (.inr (Nat.zero_le _)) hs'
    simp only [Nat.zero_add] at heq
    rw [heq]
    rfl

end DdsRtps.ShapeMain.Cxx
