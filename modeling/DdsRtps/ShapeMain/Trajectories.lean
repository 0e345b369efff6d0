/-
# `DdsRtps.ShapeMain.Trajectories` — what an instance is sent

The C++, the HDDS and the DustDDS publishers start a shape at a random place with
a random velocity.  A turn moves it (`Moving.bounce`), lets it grow, and writes it
to every instance of every topic.

So a whole run has one trajectory.  Whatever ends the run, and whatever it sees
before, an instance has been sent the first samples of that trajectory, in its own
colour, and no other (`OnTrack`); every one of them lies in the box, wherever the
shape was started, and goes on from the one before by its own velocity or bounces.

The Zig publisher has a place of its own for each sample, in a box of 320 and 240.
-/
import DdsRtps.Hdds.Rng
import DdsRtps.ShapeMain.GrowingSizes
import DdsRtps.ShapeMain.Moves

namespace DdsRtps.ShapeMain

/-! ## The start -/

/-- The start in C++, of what `random()` gives; which operand of a product is computed
first is not defined. -/
def Cxx.startOf (options : Options) (random : Nat → Fin (2 ^ 31)) : Start where
  x := Int32.ofInt (Int.tmod (random 0).val options.daWidth.toInt)
  y := Int32.ofInt (Int.tmod (random 1).val options.daHeight.toInt)
  xvel := Int32.ofInt (((random 2).val % 5 + 1) * (if (random 3).val % 2 ≠ 0 then -1 else 1))
  yvel := Int32.ofInt (((random 4).val % 5 + 1) * (if (random 5).val % 2 ≠ 0 then -1 else 1))

/-- The start in HDDS, of what `rng_next_u32` gives. -/
def HddsRs.startOf (options : Hdds.ShapeOptions) (random : Nat → UInt32) : Start where
  x := (random 0 % (Int32.ofInt options.daWidth).toUInt32).toInt32
  y := (random 1 % (Int32.ofInt options.daHeight).toUInt32).toInt32
  xvel := (random 2 % 5 + 1).toInt32 * (if random 3 % 2 = 0 then 1 else -1)
  yvel := (random 4 % 5 + 1).toInt32 * (if random 5 % 2 = 0 then 1 else -1)

/-- `if random() { gen_range(1..=5) } else { gen_range(-5..=-1) }`. -/
def DustDds.velocity (random : Bool) (inRange : Fin 5) : Int32 :=
  if random then 1 + Int32.ofNat inRange.val else -5 + Int32.ofNat inRange.val

/-- The start in DustDDS. -/
def DustDds.startOf (x y : UInt32) (xRandom yRandom : Bool) (xInRange yInRange : Fin 5) :
    Start where
  x := x.toInt32.abs % 240
  y := y.toInt32.abs % 270
  xvel := velocity xRandom xInRange
  yvel := velocity yRandom yInRange

/-! ## The samples of an instance -/

/-- The sample, if the call writes it to this instance of this topic. -/
def Call.shapeTo (i j : Nat) : Call → Option Hdds.ShapeType
  | .write i' j' shape => if i' = i ∧ j' = j then some shape else none
  | _ => none

/-- The samples that are written to an instance of a topic, in their order. -/
def shapesOf (i j : Nat) (calls : List Call) : List Hdds.ShapeType :=
  calls.filterMap (Call.shapeTo i j)

theorem shapesOf_append (i j : Nat) (calls calls' : List Call) :
    shapesOf i j (calls ++ calls') = shapesOf i j calls ++ shapesOf i j calls' :=
  List.filterMap_append

theorem mem_shapesOf {i j : Nat} {calls : List Call} {shape : Hdds.ShapeType} :
    shape ∈ shapesOf i j calls ↔ Call.write i j shape ∈ calls := by
  rw [shapesOf, List.mem_filterMap]
  constructor
  · rintro ⟨call, hcall, hshape⟩
    cases call with
    | write i' j' shape' =>
        rw [Call.shapeTo] at hshape
        split_ifs at hshape with hsame
        obtain ⟨rfl, rfl⟩ := hsame
        obtain rfl := Option.some.inj hshape
        exact hcall
    | beginCoherentChanges => cases hshape
    | endCoherentChanges => cases hshape
    | unregisterInstance => cases hshape
    | dispose => cases hshape
  · intro hcall
    exact ⟨_, hcall, if_pos ⟨rfl, rfl⟩⟩

theorem shapesOf_forAll_eq_nil {i j : Nat} {calls : Nat → Nat → List Call}
    (h : ∀ i' j', shapesOf i j (calls i' j') = []) (numTopics numInstances : Nat) :
    shapesOf i j (forAll numTopics numInstances calls) = [] := by
  rw [shapesOf, forAll, List.filterMap_flatMap, List.flatMap_eq_nil_iff]
  intro i' _
  rw [List.filterMap_flatMap, List.flatMap_eq_nil_iff]
  exact fun j' _ => h i' j'

/-- A turn writes once to every instance there is. -/
theorem shapesOf_writeAll {numTopics numInstances i j : Nat} (hi : i < numTopics)
    (hj : j < numInstances) (sample : Nat → Hdds.ShapeType) :
    shapesOf i j (writeAll numTopics numInstances sample) = [sample j] := by
  rw [shapesOf, writeAll, forAll, List.filterMap_flatMap]
  simp only [List.filterMap_flatMap]
  refine flatMap_range_single hi (flatMap_range_single hj ?_ fun l hl => ?_) fun k hk => ?_
  · simp [Call.shapeTo]
  · simp [Call.shapeTo, hl]
  · simp [Call.shapeTo, hk]

/-- And to no other. -/
theorem shapesOf_writeAll_outside {numTopics numInstances i j : Nat}
    (h : ¬(i < numTopics ∧ j < numInstances)) (sample : Nat → Hdds.ShapeType) :
    shapesOf i j (writeAll numTopics numInstances sample) = [] := by
  rw [List.eq_nil_iff_forall_not_mem]
  intro shape hshape
  obtain ⟨i', hi, j', hj, hcall⟩ := mem_forAll.mp (mem_shapesOf.mp hshape)
  obtain ⟨rfl, rfl, -⟩ := Call.write.inj (List.mem_singleton.mp hcall)
  exact h ⟨hi, hj⟩

/-! ## The trajectory -/

/-- What the body of a loop makes of the shape. -/
def Moving.turned (w h : Int32) (grow : Int32 → Int32) (m : Moving) : Moving :=
  { m.bounce w h with
    shape := { (m.bounce w h).shape with shapesize := grow (m.bounce w h).shape.shapesize } }

/-- Moving and growing have nothing to do with each other. -/
theorem Moving.iterate_turned (w h : Int32) (grow : Int32 → Int32) (m : Moving) (k : Nat) :
    (Moving.turned w h grow)^[k] m =
      { (Moving.bounce w h)^[k] m with
        shape := { ((Moving.bounce w h)^[k] m).shape with
          color := m.shape.color
          shapesize := grow^[k] m.shape.shapesize
          additionalPayloadSize := m.shape.additionalPayloadSize } } := by
  induction k with
  | zero => rfl
  | succ k ih =>
      rw [Function.iterate_succ_apply', ih, Function.iterate_succ_apply',
        Function.iterate_succ_apply', Moving.turned, Moving.bounce_eq, Moving.bounce_eq]

/-- The sample that instance `j` is sent in the turn `k`. -/
def sampleAt (w h : Int32) (grow : Int32 → Int32) (first : Moving) (key : Nat → String)
    (k j : Nat) : Hdds.ShapeType where
  color := key j
  x := ((Moving.bounce w h)^[k + 1] first).shape.x
  y := ((Moving.bounce w h)^[k + 1] first).shape.y
  shapesize := grow^[k + 1] first.shape.shapesize
  additionalPayloadSize := first.shape.additionalPayloadSize

/-- All instances there are have been sent the samples of one trajectory, as many as
there were turns, but for a turn that an error ended. -/
structure OnTrack (w h : Int32) (grow : Int32 → Int32) (first : Moving) (key : Nat → String)
    (numTopics numInstances : Nat) (calls : List Call) : Prop where
  samples : ∃ turns, ∀ i < numTopics, ∀ j < numInstances, ∃ t, (t = turns ∨ t = turns + 1) ∧
    shapesOf i j calls = (List.range t).map fun k => sampleAt w h grow first key k j
  outside : ∀ i j, ¬(i < numTopics ∧ j < numInstances) → shapesOf i j calls = []

/-- What a turn starts from: the samples that have been written, and the shape. -/
structure Going (w h : Int32) (grow : Int32 → Int32) (first : Moving) (key : Nat → String)
    (numTopics numInstances turns : Nat) (calls : List Call) (moving : Moving) : Prop where
  inside : ∀ i < numTopics, ∀ j < numInstances,
    shapesOf i j calls = (List.range turns).map fun k => sampleAt w h grow first key k j
  outside : ∀ i j, ¬(i < numTopics ∧ j < numInstances) → shapesOf i j calls = []
  moving : moving = (Moving.turned w h grow)^[turns] first

namespace Going

variable {w h : Int32} {grow : Int32 → Int32} {first moving : Moving} {key : Nat → String}
  {numTopics numInstances turns : Nat} {calls : List Call}

/-- Before the first turn. -/
theorem start : Going w h grow first key numTopics numInstances 0 [] first where
  inside _ _ _ _ := rfl
  outside _ _ _ := rfl
  moving := rfl

/-- A run may end between two turns. -/
theorem onTrack (hgoing : Going w h grow first key numTopics numInstances turns calls moving) :
    OnTrack w h grow first key numTopics numInstances calls where
  samples := ⟨turns, fun i hi j hj => ⟨turns, .inl rfl, hgoing.inside i hi j hj⟩⟩
  outside := hgoing.outside

theorem color (hgoing : Going w h grow first key numTopics numInstances turns calls moving) :
    (moving.turned w h grow).shape.color = first.shape.color := by
  rw [hgoing.moving, ← Function.iterate_succ_apply' (Moving.turned w h grow),
    Moving.iterate_turned]

theorem append (hgoing : Going w h grow first key numTopics numInstances turns calls moving)
    {calls' : List Call} (hnone : ∀ i j, shapesOf i j calls' = []) :
    Going w h grow first key numTopics numInstances turns (calls ++ calls') moving where
  inside i hi j hj := by
    rw [shapesOf_append, hnone, List.append_nil]
    exact hgoing.inside i hi j hj
  outside i j hout := by
    rw [shapesOf_append, hnone, List.append_nil]
    exact hgoing.outside i j hout
  moving := hgoing.moving

variable (hgoing : Going w h grow first key numTopics numInstances turns calls moving)
  {sample : Nat → Hdds.ShapeType}

include hgoing in
theorem outside_write {i j : Nat} (hout : ¬(i < numTopics ∧ j < numInstances)) :
    shapesOf i j (calls ++ writeAll numTopics numInstances sample) = [] := by
  rw [shapesOf_append, shapesOf_writeAll_outside hout, hgoing.outside i j hout]
  rfl

variable
  (hsample : ∀ j < numInstances, sample j = { (moving.turned w h grow).shape with color := key j })

include hgoing hsample

/-- What a turn writes is the next sample. -/
theorem sample_eq {j : Nat} (hj : j < numInstances) :
    sample j = sampleAt w h grow first key turns j := by
  rw [hsample j hj, hgoing.moving, ← Function.iterate_succ_apply' (Moving.turned w h grow),
    Moving.iterate_turned]
  rfl

theorem inside_succ {i j : Nat} (hi : i < numTopics) (hj : j < numInstances) :
    shapesOf i j (calls ++ writeAll numTopics numInstances sample) =
      (List.range (turns + 1)).map fun k => sampleAt w h grow first key k j := by
  rw [shapesOf_append, shapesOf_writeAll hi hj, hgoing.inside i hi j hj,
    hgoing.sample_eq hsample hj, List.range_succ, List.map_append]
  rfl

/-- The writes of a turn. -/
theorem write : Going w h grow first key numTopics numInstances (turns + 1)
    (calls ++ writeAll numTopics numInstances sample) (moving.turned w h grow) where
  inside _ hi _ hj := hgoing.inside_succ hsample hi hj
  outside _ _ hout := hgoing.outside_write hout
  moving := by rw [Function.iterate_succ_apply', ← hgoing.moving]

/-- The writes of a turn that an error ends. -/
theorem cut {made : List Call} {cut : Option Nat}
    (hcut : cutAfter (writeAll numTopics numInstances sample) cut = some made) :
    OnTrack w h grow first key numTopics numInstances (calls ++ made) := by
  obtain ⟨rest, hrest⟩ : made <+: writeAll numTopics numInstances sample := by
    unfold cutAfter at hcut
    split at hcut
    · split_ifs at hcut
      obtain rfl := Option.some.inj hcut
      exact List.take_prefix _ _
    · cases hcut
  refine ⟨⟨turns, fun i hi j hj => ?_⟩, fun i j hout => ?_⟩
  · have hone := shapesOf_writeAll hi hj sample
    rw [← hrest, shapesOf_append] at hone
    rcases List.append_eq_singleton_iff.mp hone with ⟨hnone, -⟩ | ⟨hall, -⟩
    · refine ⟨turns, .inl rfl, ?_⟩
      rw [shapesOf_append, hnone, List.append_nil]
      exact hgoing.inside i hi j hj
    · refine ⟨turns + 1, .inr rfl, ?_⟩
      rw [← hgoing.inside_succ hsample hi hj, shapesOf_append, shapesOf_append, hall,
        shapesOf_writeAll hi hj]
  · have hnone : shapesOf i j (calls ++ writeAll numTopics numInstances sample) = [] :=
      hgoing.outside_write hout
    rw [← hrest, ← List.append_assoc, shapesOf_append] at hnone
    exact (List.append_eq_nil_iff.mp hnone).1

end Going

/-- The run of a publisher: what a turn keeps, and what an exit makes of the samples. -/
theorem onTrack_drive {ι σ β : Type} {step : ι → σ → σ ⊕ β} {state : σ → List Call}
    {returned : β → List Call} {w h : Int32} {grow : Int32 → Int32} {first : Moving}
    {key : Nat → String} {numTopics numInstances : Nat} (moving : σ → Moving)
    (hturn : ∀ x t s s',
      Going w h grow first key numTopics numInstances t (state s) (moving s) →
        step x s = .inl s' →
          Going w h grow first key numTopics numInstances (t + 1) (state s') (moving s'))
    (hexit : ∀ x t s b,
      Going w h grow first key numTopics numInstances t (state s) (moving s) →
        step x s = .inr b → OnTrack w h grow first key numTopics numInstances (returned b))
    {s : σ} (hinit : Going w h grow first key numTopics numInstances 0 (state s) (moving s))
    (inputs : List ι) :
    OnTrack w h grow first key numTopics numInstances
      ((Loop.drive step inputs s).elim state returned) := by
  have hrun := Loop.drive_inv
    (fun t s => Going w h grow first key numTopics numInstances t (state s) (moving s))
    (fun _ b => OnTrack w h grow first key numTopics numInstances (returned b))
    hturn hexit hinit inputs
  rw [Nat.zero_add] at hrun
  rcases hrun with ⟨s', hs, hgoing⟩ | ⟨b, t, hb, -, htrack⟩
  · rw [hs]
    exact hgoing.onTrack
  · rw [hb]
    exact htrack

/-! ## Where the shape is -/

variable {w h : Int32}

/-- Wherever the shape was started, its samples are in the box. -/
theorem sampleAt_within (hw : 1 ≤ w.toInt) (hh : 1 ≤ h.toInt) (grow : Int32 → Int32)
    (first : Moving) (key : Nat → String) (k j : Nat) :
    Within w (sampleAt w h grow first key k j).x ∧
      Within h (sampleAt w h grow first key k j).y := by
  rw [sampleAt, Function.iterate_succ_apply', Moving.bounce_eq]
  exact ⟨reflect_within hw, reflect_within hh⟩

/-- The shape is slow, and its place is in the box or would be without its sign. -/
structure Moving.Launched (w h : Int32) (m : Moving) : Prop where
  x : m.shape.x.toInt.natAbs ≤ w.toInt
  y : m.shape.y.toInt.natAbs ≤ h.toInt
  xvel : Slow m.xvel
  yvel : Slow m.yvel

theorem Moving.Launched.bounce {m : Moving} (hw : 1 ≤ w.toInt) (hh : 1 ≤ h.toInt)
    (hm : m.Launched w h) : (m.bounce w h).Launched w h := by
  rw [Moving.bounce_eq]
  obtain ⟨hx, hx'⟩ : Within w (reflect w (m.shape.x + m.xvel) m.xvel).1 := reflect_within hw
  obtain ⟨hy, hy'⟩ : Within h (reflect h (m.shape.y + m.yvel) m.yvel).1 := reflect_within hh
  exact ⟨by dsimp only; omega, by dsimp only; omega, (reflect_slow hw hm.xvel).1,
    (reflect_slow hh hm.yvel).1⟩

theorem Moving.Launched.ownMoves {m : Moving} (hw : 1 ≤ w.toInt ∧ w.toInt < 2 ^ 31 - 5)
    (hh : 1 ≤ h.toInt ∧ h.toInt < 2 ^ 31 - 5) (hm : m.Launched w h) :
    OwnMoves w h m (m.bounce w h) := by
  have hx := hm.x
  have hy := hm.y
  have hxvel := hm.xvel.2
  have hyvel := hm.yvel.2
  exact Moving.bounce_ownMoves hw.1 hh.1 ⟨by omega, by omega⟩ ⟨by omega, by omega⟩

/-- So it goes from each place to the next by its own velocity, or bounces. -/
theorem Moving.Launched.iterate {m : Moving} (hw : 1 ≤ w.toInt ∧ w.toInt < 2 ^ 31 - 5)
    (hh : 1 ≤ h.toInt ∧ h.toInt < 2 ^ 31 - 5) (hm : m.Launched w h) (k : Nat) :
    OwnMoves w h ((Moving.bounce w h)^[k] m) ((Moving.bounce w h)^[k + 1] m) := by
  have hlaunched : ((Moving.bounce w h)^[k] m).Launched w h := by
    induction k with
    | zero => exact hm
    | succ k ih =>
        rw [Function.iterate_succ_apply']
        exact ih.bounce hw.1 hh.1
  rw [Function.iterate_succ_apply']
  exact hlaunched.ownMoves hw hh

/-! ## C++ -/

namespace Cxx

variable {options : Options}

theorem shapesOf_finalCalls (i j : Nat) : shapesOf i j (finalCalls options) = [] := by
  unfold finalCalls
  split
  · refine shapesOf_forAll_eq_nil (fun i' j' => ?_) _ _
    cases options.unregister <;> cases options.dispose <;> rfl
  · rfl

/-- One instance alone keeps the colour, which is that of the first. -/
theorem sampleOf_eq {shape : Hdds.ShapeType} (hcolor : shape.color = options.color) {j : Nat}
    (hj : j < options.numInstances.toNat) :
    sampleOf options shape j = { shape with color := instanceColor options.color j } := by
  unfold sampleOf
  split
  · rfl
  · rename_i hone
    have hle : options.numInstances.toNat ≤ 1 := by
      rw [gt_iff_lt, UInt32.lt_iff_toNat_lt] at hone
      exact Nat.le_of_not_lt hone
    obtain rfl : j = 0 := by omega
    rw [instanceColor, if_neg (Nat.lt_irrefl 0), ← hcolor]

theorem onTrack (start : Start) (signals : List Bool) :
    OnTrack options.daWidth options.daHeight (nextSize options) (init options start).moving
      (instanceColor options.color) options.numTopics.toNat options.numInstances.toNat
      (callsMade options start signals) := by
  unfold callsMade
  refine onTrack_drive State.moving ?_ ?_ Going.start signals
  · intro signalled t s s' hs hstep
    unfold step at hstep
    split_ifs at hstep
    obtain rfl := Sum.inl.inj hstep
    have hbegun : ∀ i j,
        shapesOf i j (if begins options s.n then [.beginCoherentChanges] else []) = [] := by
      intro i j
      split <;> rfl
    have hended : ∀ i j,
        shapesOf i j (if ends options s.n then [.endCoherentChanges] else []) = [] := by
      intro i j
      split <;> rfl
    exact ((hs.append hbegun).write fun j hj => sampleOf_eq hs.color hj).append hended
  · intro signalled t s s' hs hstep
    unfold step at hstep
    split_ifs at hstep
    obtain rfl := Sum.inr.inj hstep
    exact (hs.append shapesOf_finalCalls).onTrack

end Cxx

/-! ## HDDS -/

namespace HddsRs

variable {options : Hdds.ShapeOptions}

theorem shapesOf_finalCalls (i j : Nat) : shapesOf i j (finalCalls options) = [] := by
  unfold finalCalls
  split
  · refine shapesOf_forAll_eq_nil (fun i' j' => ?_) _ _
    cases options.unregister <;> cases options.dispose <;> rfl
  · rfl

theorem sampleOf_eq {shape : Hdds.ShapeType} (hcolor : shape.color = color options) {j : Nat}
    (hj : j < options.numInstances.toNat) :
    sampleOf options shape j = { shape with color := instanceColor (color options) j } := by
  unfold sampleOf
  split
  · rfl
  · rename_i hone
    obtain rfl : j = 0 := by omega
    rw [instanceColor, if_neg (Nat.lt_irrefl 0), ← hcolor]

theorem onTrack (start : Start) (seen : List Seen) :
    OnTrack (Int32.ofInt options.daWidth) (Int32.ofInt options.daHeight) (nextSize options)
      (init options start).moving (instanceColor (color options)) options.numTopics.toNat
      options.numInstances.toNat (callsMade options start seen) := by
  unfold callsMade
  refine onTrack_drive State.moving ?_ ?_ Going.start seen
  · intro x t s s' hs hstep
    have hwrite := hs.write fun j hj => sampleOf_eq hs.color hj
    dsimp only [step] at hstep
    split at hstep
    · cases hstep
    · split at hstep
      · cases hstep
      · split_ifs at hstep
        obtain rfl := Sum.inl.inj hstep
        exact hwrite
  · intro x t s b hs hstep
    have hwrite := hs.write fun j hj => sampleOf_eq hs.color hj
    dsimp only [step, finish] at hstep
    split at hstep
    · obtain rfl := Sum.inr.inj hstep
      exact (hs.append shapesOf_finalCalls).onTrack
    · split at hstep
      · rename_i hcut
        obtain rfl := Sum.inr.inj hstep
        exact hs.cut (fun j hj => sampleOf_eq hs.color hj) hcut
      · split_ifs at hstep
        obtain rfl := Sum.inr.inj hstep
        exact (hwrite.append shapesOf_finalCalls).onTrack

end HddsRs

/-! ## DustDDS -/

namespace DustDds

variable {options : Options}

theorem shapesOf_finalCalls (i j : Nat) : shapesOf i j (finalCalls options) = [] := by
  unfold finalCalls
  split
  · exact shapesOf_forAll_eq_nil (fun _ _ => rfl) _ _
  · exact shapesOf_forAll_eq_nil (fun _ _ => rfl) _ _
  · rfl

theorem onTrack (start : Start) (received : List Bool) :
    OnTrack 240 270 (nextSize options) (init options start).moving
      (instanceColor (baseColor options)) options.numTopics.toNat options.numInstances.toNat
      (callsMade options start received) := by
  unfold callsMade
  refine onTrack_drive State.moving ?_ ?_ Going.start received
  · intro x t s s' hs hstep
    dsimp only [step] at hstep
    split_ifs at hstep
    obtain rfl := Sum.inl.inj hstep
    exact hs.write fun _ _ => rfl
  · intro x t s s' hs hstep
    dsimp only [step] at hstep
    split_ifs at hstep
    · obtain rfl := Sum.inr.inj hstep
      exact (hs.append shapesOf_finalCalls).onTrack
    · obtain rfl := Sum.inr.inj hstep
      exact ((hs.write fun _ _ => rfl).append shapesOf_finalCalls).onTrack

end DustDds

/-! ## Zig -/

namespace Zig

variable {options : Options}

/-- What the call writes goes to an instance there is, with a place in the box. -/
def Placed (numTopics numInstances : Nat) : Call → Prop
  | .write i j shape =>
      i < numTopics ∧ j < numInstances ∧ Within 319 shape.x ∧ Within 239 shape.y
  | _ => True

theorem within_mod (random : UInt16) {bound : Nat} (hbound : bound < 2 ^ 16) :
    Within (Int32.ofNat bound) (Int32.ofNat (random.toNat % (bound + 1))) := by
  have hlt : random.toNat % (bound + 1) < bound + 1 := Nat.mod_lt _ (Nat.succ_pos bound)
  rw [Within, Int32.toInt_ofNat_of_lt (by omega), Int32.toInt_ofNat_of_lt (by omega)]
  omega

/-- What calls are to satisfy, and what of the shape it rests on.  A turn changes the place, the
colour and the size of the shape, and what it writes is at a random place. -/
structure Keeps (options : Options) (P : Call → Prop) (Q : Hdds.ShapeType → Prop) : Prop where
  write : ∀ i < options.numTopics.toNat, ∀ j < options.numInstances.toNat, ∀ shape random,
    Q shape → P (.write i j (place (sampleOf options shape j) random))
  color : ∀ shape j, Q shape → Q (sampleOf options shape j)
  turn : ∀ shape random size, Q shape → Q { place shape random with shapesize := size }
  other : ∀ call, (∀ i j shape, call ≠ .write i j shape) → P call

namespace Keeps

variable {P : Call → Prop} {Q : Hdds.ShapeType → Prop} (hkeeps : Keeps options P Q)

include hkeeps

theorem writeTurn (random : Nat → UInt16 × UInt16) {shape : Hdds.ShapeType} (hshape : Q shape) :
    Q (Zig.writeTurn options random shape).1 ∧
      ∀ call ∈ (Zig.writeTurn options random shape).2, P call := by
  refine ⟨hkeeps.turn shape (random 0) _ hshape, forall_mem_forAll fun i hi j hj call hcall => ?_⟩
  obtain rfl := List.mem_singleton.mp hcall
  exact hkeeps.write i hi j hj shape (random 0) hshape

theorem writeSet (random : Nat → UInt16 × UInt16) {shape : Hdds.ShapeType} (hshape : Q shape) :
    Q (Zig.writeSet options random shape).1 ∧
      ∀ call ∈ (Zig.writeSet options random shape).2, P call := by
  unfold Zig.writeSet
  generalize hplaces : (List.range options.numTopics.toNat).flatMap _ = places
  have hplace : ∀ p ∈ places,
      p.1 < options.numTopics.toNat ∧ p.2 < options.numInstances.toNat := by
    intro p hp
    rw [← hplaces] at hp
    simp only [List.mem_flatMap, List.mem_range, List.mem_replicate] at hp
    obtain ⟨i, hi, j, hj, -, rfl⟩ := hp
    exact ⟨hi, hj⟩
  have hfold : ∀ made : Hdds.ShapeType × List Call, (Q made.1 ∧ ∀ call ∈ made.2, P call) →
      Q (places.foldl (writeInSet options random) made).1 ∧
        ∀ call ∈ (places.foldl (writeInSet options random) made).2, P call := by
    clear hplaces
    induction places with
    | nil => exact fun _ hmade => hmade
    | cons p places ih =>
        rintro made ⟨hshape, hcalls⟩
        obtain ⟨⟨hi, hj⟩, hrest⟩ := List.forall_mem_cons.mp hplace
        refine ih hrest _ ⟨hkeeps.turn _ _ _ (hkeeps.color _ _ hshape), fun call hcall => ?_⟩
        rcases List.mem_append.mp hcall with hcall | hcall
        · exact hcalls call hcall
        · obtain rfl := List.mem_singleton.mp hcall
          exact hkeeps.write _ hi _ hj _ _ hshape
  exact hfold _ ⟨hshape, nofun⟩

theorem finalCalls : ∀ call ∈ Zig.finalCalls options, P call := by
  unfold Zig.finalCalls
  split
  · refine forall_mem_forAll fun i _ j _ call hcall => hkeeps.other call ?_
    split at hcall
    · obtain rfl := List.mem_singleton.mp hcall
      nofun
    · obtain rfl := List.mem_singleton.mp hcall
      nofun
  · nofun

/-- The writes of a turn, with coherent sets or without. -/
theorem writes (random : Nat → UInt16 × UInt16) {shape : Hdds.ShapeType} (hshape : Q shape) :
    Q (if gating options then Zig.writeSet options random shape
        else Zig.writeTurn options random shape).1 ∧
      ∀ call ∈ (if gating options then Zig.writeSet options random shape
        else Zig.writeTurn options random shape).2, P call := by
  split
  · exact hkeeps.writeSet random hshape
  · exact hkeeps.writeTurn random hshape

/-- A turn keeps it, and so does a turn that an error ends. -/
theorem write_turn {seen : Seen} {s : State} (hshape : Q s.shape) (hs : ∀ call ∈ s.calls, P call) :
    (Zig.write options seen s).elim (fun s' => Q s'.shape ∧ ∀ call ∈ s'.calls, P call)
      fun returned => ∀ call ∈ returned.calls, P call := by
  have hwrites := hkeeps.writes seen.random hshape
  have hbegun : ∀ call ∈ if gating options then [Call.beginCoherentChanges] else [], P call := by
    split
    · exact List.forall_mem_singleton.mpr (hkeeps.other _ nofun)
    · nofun
  have hended : ∀ call ∈ if gating options then [Call.endCoherentChanges] else [], P call := by
    split
    · exact List.forall_mem_singleton.mpr (hkeeps.other _ nofun)
    · nofun
  unfold Zig.write
  generalize (if gating options then Zig.writeSet options seen.random s.shape
    else Zig.writeTurn options seen.random s.shape) = made at hwrites
  obtain ⟨shape, writes⟩ := made
  obtain ⟨hnext, hwrites⟩ := hwrites
  dsimp only at hnext hwrites ⊢
  split
  · rename_i made hcut
    have hmade : ∀ call ∈ made, call ∈ writes := by
      unfold cutAfter at hcut
      split at hcut
      · split_ifs at hcut
        obtain rfl := Option.some.inj hcut
        exact fun call hcall => List.mem_of_mem_take hcall
      · cases hcut
    exact List.forall_mem_append.mpr ⟨List.forall_mem_append.mpr ⟨hs, hbegun⟩,
      fun call hcall => hwrites call (hmade call hcall)⟩
  · exact ⟨hnext, List.forall_mem_append.mpr ⟨List.forall_mem_append.mpr
      ⟨List.forall_mem_append.mpr ⟨hs, hbegun⟩, hwrites⟩, hended⟩⟩

theorem step {seen : Seen} {s : State} (hshape : Q s.shape) (hs : ∀ call ∈ s.calls, P call) :
    (Zig.step options seen s).elim (fun s' => Q s'.shape ∧ ∀ call ∈ s'.calls, P call)
      fun returned => ∀ call ∈ returned.calls, P call := by
  unfold Zig.step
  dsimp only
  split_ifs
  · exact List.forall_mem_append.mpr ⟨hs, hkeeps.finalCalls⟩
  · exact hs
  · exact ⟨hshape, hs⟩
  · exact hkeeps.write_turn hshape hs

/-- All that a run calls satisfies it. -/
theorem callsMade (hinit : Q (init options).shape) (seen : List Seen) :
    ∀ call ∈ Zig.callsMade options seen, P call := by
  have hrun : (Loop.drive (Zig.step options) seen (init options)).elim
      (fun s => Q s.shape ∧ ∀ call ∈ s.calls, P call)
      fun returned => ∀ call ∈ returned.calls, P call :=
    Loop.drive_elim_inv id (fun _ _ hs => hkeeps.step hs.1 hs.2)
      ⟨hinit, fun _ hcall => absurd hcall List.not_mem_nil⟩ seen
  rw [Zig.callsMade]
  cases hend : Loop.drive (Zig.step options) seen (init options) with
  | inl s =>
      rw [hend] at hrun
      exact hrun.2
  | inr returned =>
      rw [hend] at hrun
      exact hrun

end Keeps

theorem keeps_placed : Keeps options (Placed options.numTopics.toNat options.numInstances.toNat)
    fun _ => True where
  write i hi j hj _ random _ := ⟨hi, hj, within_mod random.1 (show 319 < 2 ^ 16 by decide),
    within_mod random.2 (show 239 < 2 ^ 16 by decide)⟩
  color _ _ _ := trivial
  turn _ _ _ _ := trivial
  other call hcall := by
    cases call with
    | write i j shape => exact absurd rfl (hcall i j shape)
    | _ => trivial

/-- All that is written is in the box. -/
theorem placed_callsMade (seen : List Seen) : ∀ call ∈ callsMade options seen,
    Placed options.numTopics.toNat options.numInstances.toNat call :=
  keeps_placed.callsMade trivial seen

end Zig

/-! ## The starts -/

theorem slow_of_natAbs {v : Int32} {n : Nat} (hn : n < 5) (hv : v.toInt.natAbs = n + 1) :
    Slow v := ⟨by omega, by omega⟩

theorem natAbs_tmod_lt (a : Int) {b : Int} (hb : 0 < b) : (a.tmod b).natAbs < b := by
  rw [Int.natAbs_tmod]
  have hlt := Nat.mod_lt a.natAbs (Int.natAbs_pos.mpr hb.ne')
  omega

theorem Cxx.launched_init {options : Cxx.Options} (hw : options.daWidth = 240)
    (hh : options.daHeight = 270) (random : Nat → Fin (2 ^ 31)) :
    (Cxx.init options (Cxx.startOf options random)).moving.Launched 240 270 := by
  have hplace : ∀ (a : Int) {b : Int}, 0 < b → b ≤ 270 →
      (Int32.ofInt (a.tmod b)).toInt.natAbs ≤ b := by
    intro a b hb hb'
    have hlt := natAbs_tmod_lt a hb
    rw [Int32.toInt_ofInt_of_le (by omega) (by omega)]
    omega
  have hvelocity : ∀ a b : Nat,
      Slow (Int32.ofInt ((a % 5 + 1) * (if b % 2 ≠ 0 then -1 else 1))) := by
    intro a b
    have hlt := Nat.mod_lt a (show 0 < 5 by decide)
    refine slow_of_natAbs hlt ?_
    split
    · rw [Int32.toInt_ofInt_of_le (by omega) (by omega)]
      omega
    · rw [Int32.toInt_ofInt_of_le (by omega) (by omega)]
      omega
  refine ⟨?_, ?_, hvelocity _ _, hvelocity _ _⟩
  · show ((Int32.ofInt (Int.tmod _ options.daWidth.toInt)).toInt.natAbs : Int) ≤ _
    rw [hw]
    exact hplace _ (by decide) (by decide)
  · show ((Int32.ofInt (Int.tmod _ options.daHeight.toInt)).toInt.natAbs : Int) ≤ _
    rw [hh]
    exact hplace _ (by decide) (by decide)

theorem HddsRs.launched_init {options : Hdds.ShapeOptions} (hw : options.daWidth = 240)
    (hh : options.daHeight = 270) (random : Nat → UInt32) :
    (HddsRs.init options (HddsRs.startOf options random)).moving.Launched 240 270 := by
  have hplace : ∀ (r : UInt32) {b : Nat}, 0 < b → b ≤ 270 →
      ((r % UInt32.ofNat b).toInt32.toInt.natAbs : Int) ≤ b := by
    intro r b hb hb'
    have hlt := Nat.mod_lt r.toNat hb
    have hmod : (r % UInt32.ofNat b).toNat = r.toNat % b := by
      rw [UInt32.toNat_mod, UInt32.toNat_ofNat_of_lt' (Nat.lt_of_le_of_lt hb' (by decide))]
    rw [← @UInt32.ofNat_toNat (r % UInt32.ofNat b), UInt32.toInt32_ofNat', hmod,
      Int32.toInt_ofNat_of_lt (by omega)]
    omega
  have hvelocity : ∀ a b : UInt32,
      Slow ((a % 5 + 1).toInt32 * (if b % 2 = 0 then 1 else -1)) := by
    intro a b
    have hspeed : ∀ n : Fin 5, ∀ sign : Bool,
        Slow ((UInt32.ofNat n.val + 1).toInt32 * (if sign then 1 else -1)) := by decide
    have hlt : (a % 5).toNat < 5 := Nat.mod_lt _ (by decide)
    have hslow := hspeed ⟨(a % 5).toNat, hlt⟩ (decide (b % 2 = 0))
    rw [UInt32.ofNat_toNat] at hslow
    simpa only [decide_eq_true_eq] using hslow
  refine ⟨?_, ?_, hvelocity _ _, hvelocity _ _⟩
  · show ((_ % (Int32.ofInt options.daWidth).toUInt32).toInt32.toInt.natAbs : Int) ≤ _
    rw [hw]
    exact hplace _ (by decide) (by decide)
  · show ((_ % (Int32.ofInt options.daHeight).toUInt32).toInt32.toInt.natAbs : Int) ≤ _
    rw [hh]
    exact hplace _ (by decide) (by decide)

theorem DustDds.launched_init (options : DustDds.Options) (x y : UInt32) (xRandom yRandom : Bool)
    (xInRange yInRange : Fin 5) :
    (DustDds.init options
      (DustDds.startOf x y xRandom yRandom xInRange yInRange)).moving.Launched 240 270 := by
  have hvelocity : ∀ (random : Bool) (r : Fin 5), Slow (DustDds.velocity random r) := by decide
  have hplace : ∀ (a : Int32) {b : Int32}, 0 < b.toInt →
      ((a % b).toInt.natAbs : Int) ≤ b.toInt := by
    intro a b hb
    rw [Int32.toInt_mod]
    exact (natAbs_tmod_lt _ hb).le
  exact ⟨hplace _ (by decide), hplace _ (by decide), hvelocity _ _, hvelocity _ _⟩

/-- Where the absolute value overflows, the shape starts beside the box. -/
example : (DustDds.startOf 0x80000000 0 true true 0 0).x = -128 := by decide

/-! ## The publishers -/

/-- A run on a track: every instance is sent the first samples of one trajectory, which
lies in the box, and on which the shape goes by its own velocities or bounces. -/
structure Tour (w h : Int32) (grow : Int32 → Int32) (first : Moving) (key : Nat → String)
    (numTopics numInstances : Nat) (calls : List Call) : Prop extends
    OnTrack w h grow first key numTopics numInstances calls where
  within : ∀ k j, Within w (sampleAt w h grow first key k j).x ∧
    Within h (sampleAt w h grow first key k j).y
  moves : ∀ k, OwnMoves w h ((Moving.bounce w h)^[k] first) ((Moving.bounce w h)^[k + 1] first)

theorem tour_of_onTrack {grow : Int32 → Int32} {first : Moving} {key : Nat → String}
    {numTopics numInstances : Nat} {calls : List Call} (hfirst : first.Launched 240 270)
    (htrack : OnTrack 240 270 grow first key numTopics numInstances calls) :
    Tour 240 270 grow first key numTopics numInstances calls where
  toOnTrack := htrack
  within := sampleAt_within (by decide) (by decide) grow first key
  moves := hfirst.iterate (by decide) (by decide)

theorem Cxx.tour {options : Cxx.Options} (hw : options.daWidth = 240)
    (hh : options.daHeight = 270) (random : Nat → Fin (2 ^ 31)) (signals : List Bool) :
    Tour 240 270 (Cxx.nextSize options) (Cxx.init options (Cxx.startOf options random)).moving
      (instanceColor options.color) options.numTopics.toNat options.numInstances.toNat
      (Cxx.callsMade options (Cxx.startOf options random) signals) := by
  have htrack := @Cxx.onTrack options (Cxx.startOf options random) signals
  rw [hw, hh] at htrack
  exact tour_of_onTrack (Cxx.launched_init hw hh random) htrack

theorem HddsRs.tour {args : List String} {options : Hdds.ShapeOptions}
    (h : Hdds.parse args = .accepted options) (random : Nat → UInt32)
    (seen : List HddsRs.Seen) :
    Tour 240 270 (HddsRs.nextSize options)
      (HddsRs.init options (HddsRs.startOf options random)).moving
      (instanceColor (HddsRs.color options)) options.numTopics.toNat options.numInstances.toNat
      (HddsRs.callsMade options (HddsRs.startOf options random) seen) := by
  obtain ⟨hw, hh⟩ := Hdds.box_parse h
  have htrack := @HddsRs.onTrack options (HddsRs.startOf options random) seen
  rw [hw, hh] at htrack
  exact tour_of_onTrack (HddsRs.launched_init hw hh random) htrack

theorem DustDds.tour (options : DustDds.Options) (x y : UInt32) (xRandom yRandom : Bool)
    (xInRange yInRange : Fin 5) (received : List Bool) :
    Tour 240 270 (DustDds.nextSize options)
      (DustDds.init options (DustDds.startOf x y xRandom yRandom xInRange yInRange)).moving
      (instanceColor (DustDds.baseColor options)) options.numTopics.toNat
      options.numInstances.toNat
      (DustDds.callsMade options (DustDds.startOf x y xRandom yRandom xInRange yInRange)
        received) :=
  tour_of_onTrack (DustDds.launched_init options x y xRandom yRandom xInRange yInRange)
    (DustDds.onTrack _ received)

/-- **A run is one trajectory.**  For each publisher, its random start, and whatever
its loop sees: all instances of all topics are sent the first samples of the same
trajectory, whole turns up to an error, and nothing else is written; the trajectory
lies in the box of 240 and 270.  What the Zig publisher writes is in its own box. -/
theorem runs_on_track :
    (∀ (options : Cxx.Options) (random : Nat → Fin (2 ^ 31)) (signals : List Bool),
      options.daWidth = 240 → options.daHeight = 270 →
        Tour 240 270 (Cxx.nextSize options) (Cxx.init options (Cxx.startOf options random)).moving
          (instanceColor options.color) options.numTopics.toNat options.numInstances.toNat
          (Cxx.callsMade options (Cxx.startOf options random) signals)) ∧
    (∀ (args : List String) (options : Hdds.ShapeOptions) (nanos : Nat)
        (seen : List HddsRs.Seen), Hdds.parse args = .accepted options →
      let start := HddsRs.startOf options fun k => UInt32.ofBitVec (Hdds.Rng.numberAt nanos k)
      Tour 240 270 (HddsRs.nextSize options) (HddsRs.init options start).moving
        (instanceColor (HddsRs.color options)) options.numTopics.toNat options.numInstances.toNat
        (HddsRs.callsMade options start seen)) ∧
    (∀ (options : DustDds.Options) (x y : UInt32) (xRandom yRandom : Bool)
        (xInRange yInRange : Fin 5) (received : List Bool),
      let start := DustDds.startOf x y xRandom yRandom xInRange yInRange
      Tour 240 270 (DustDds.nextSize options) (DustDds.init options start).moving
        (instanceColor (DustDds.baseColor options)) options.numTopics.toNat
        options.numInstances.toNat (DustDds.callsMade options start received)) ∧
    ∀ (options : Zig.Options) (seen : List Zig.Seen) (i j : Nat) (shape : Hdds.ShapeType),
      .write i j shape ∈ Zig.callsMade options seen →
        i < options.numTopics.toNat ∧ j < options.numInstances.toNat ∧
          Within 319 shape.x ∧ Within 239 shape.y :=
  ⟨fun _ random signals hw hh => Cxx.tour hw hh random signals,
    fun _ _ _ seen h => HddsRs.tour h _ seen,
    fun options x y xRandom yRandom xInRange yInRange received =>
      DustDds.tour options x y xRandom yRandom xInRange yInRange received,
    fun _ seen _ _ _ hcall => Zig.placed_callsMade seen _ hcall⟩

/-- A command line for HDDS, and the options it gives. -/
def HddsRs.twoInstances : List String :=
  ["shape_main", "-P", "-t", "Square", "-z", "0", "--size-modulo", "3", "--num-instances", "2"]

def HddsRs.twoInstancesOptions : Hdds.ShapeOptions :=
  { HddsRs.threeSizes with color := some "BLUE" }

theorem runs_on_track_threeSizes :
    Tour 240 270 (Cxx.nextSize Cxx.threeSizes)
      (Cxx.init Cxx.threeSizes (Cxx.startOf Cxx.threeSizes fun _ => 0)).moving
      (instanceColor "BLUE") 1 2
      (Cxx.callsMade Cxx.threeSizes (Cxx.startOf Cxx.threeSizes fun _ => 0)
        [false, false, true]) ∧
    let start := HddsRs.startOf HddsRs.twoInstancesOptions fun k =>
      UInt32.ofBitVec (Hdds.Rng.numberAt 1 k)
    Tour 240 270 (HddsRs.nextSize HddsRs.twoInstancesOptions)
      (HddsRs.init HddsRs.twoInstancesOptions start).moving (instanceColor "BLUE") 1 2
      (HddsRs.callsMade HddsRs.twoInstancesOptions start
        [⟨false, none⟩, ⟨false, none⟩, ⟨true, none⟩]) := by
  obtain ⟨hcxx, hhdds, -, -⟩ := runs_on_track
  refine ⟨hcxx Cxx.threeSizes (fun _ => 0) [false, false, true] rfl rfl, ?_⟩
  have hparse : Hdds.parse HddsRs.twoInstances = .accepted HddsRs.twoInstancesOptions := by
    decide +kernel
  exact hhdds HddsRs.twoInstances HddsRs.twoInstancesOptions 1
    [⟨false, none⟩, ⟨false, none⟩, ⟨true, none⟩] hparse

end DdsRtps.ShapeMain
