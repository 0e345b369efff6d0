/-
# `DdsRtps.ShapeMain.Moves` — how the shape moves

`moveShape` of srcC/shape_main.c beside `Moving.bounce`, which is the code of the
C++, the HDDS and the DustDDS publishers.  Each of these moves a coordinate by
its own velocity and reflects it at the border (`reflect`); the C publisher
computes the new `y` from the new `x`.

The bounce keeps the shape in its box and its speeds (`Fits.bounce`).  The C
publisher has every coordinate in the box as well, so what tells it apart is only
where the shape is: it moves as the others do exactly if in each state the two sums
for `y` are the same or beyond the same border (`moves_alike_iff`).
-/
import DdsRtps.Lib.CInt
import DdsRtps.Lib.Loop
import DdsRtps.ShapeMain.Calls

namespace DdsRtps.ShapeMain

/-! ## The code -/

/-- `moveShape` of srcC/shape_main.c. -/
def C.moveShape (daWidth daHight : Int32) (m : Moving) : Option Moving := do
  let x ← CInt.add m.shape.x m.xvel
  let y ← CInt.add x m.yvel
  let (x, xval) := if x < 0 then (0, -m.xvel) else (x, m.xvel)
  let (x, xval) := if x > daWidth then (daWidth, -xval) else (x, xval)
  let (y, yval) := if y < 0 then (0, -m.yvel) else (y, m.yvel)
  let (y, yval) := if y > daHight then (daHight, -yval) else (y, yval)
  return { shape := { m.shape with x := x, y := y }, xvel := xval, yvel := yval }

/-- `moveShape` of srcCxx/shape_main.cxx. -/
def Cxx.moveShapeInt (daWidth daHeight : Int32) (m : Moving) : Option Moving := do
  let _ ← CInt.add m.shape.x m.xvel
  let _ ← CInt.add m.shape.y m.yvel
  return m.bounce daWidth daHeight

/-- The publishers that move a shape in a box of a given size. -/
inductive Publisher where
  | c
  | cxx
  | hdds
  | dustDds
deriving DecidableEq, Repr

/-- A move; in Rust sums wrap, as in a release build. -/
def Publisher.moveShape : Publisher → Int32 → Int32 → Moving → Option Moving
  | .c, w, h, m => C.moveShape w h m
  | .cxx, w, h, m => Cxx.moveShapeInt w h m
  | .hdds, w, h, m => some (m.bounce w h)
  | .dustDds, w, h, m => some (m.bounce w h)

/-! ## One coordinate -/

/-- A coordinate at a place `p`, and its velocity, back in the box. -/
def reflect (bound p v : Int32) : Int32 × Int32 :=
  let (p, v) := if p < 0 then (0, -v) else (p, v)
  if p > bound then (bound, -v) else (p, v)

/-- A speed of 1 to 5. -/
def Slow (v : Int32) : Prop := 1 ≤ v.toInt.natAbs ∧ v.toInt.natAbs ≤ 5

/-- Within the box. -/
def Within (bound p : Int32) : Prop := 0 ≤ p.toInt ∧ p.toInt ≤ bound.toInt

instance (v : Int32) : Decidable (Slow v) := inferInstanceAs (Decidable (_ ∧ _))

instance (bound p : Int32) : Decidable (Within bound p) := inferInstanceAs (Decidable (_ ∧ _))

theorem Slow.toInt_neg {v : Int32} (h : Slow v) : (-v).toInt = -v.toInt := by
  obtain ⟨-, hhigh⟩ := h
  rw [Int32.toInt_neg]
  exact Int.bmod_eq_of_le (by omega) (by omega)

theorem Slow.natAbs_neg {v : Int32} (h : Slow v) : (-v).toInt.natAbs = v.toInt.natAbs := by
  rw [h.toInt_neg, Int.natAbs_neg]

theorem Slow.neg {v : Int32} (h : Slow v) : Slow (-v) := by
  rw [Slow, h.natAbs_neg]
  exact h

theorem Slow.neg_ne {v : Int32} (h : Slow v) : -v ≠ v := by
  intro heq
  have hint := congrArg Int32.toInt heq
  rw [h.toInt_neg] at hint
  have hone := h.1
  omega

variable {bound p q v : Int32}

/-- Below the box, beyond it, or in it. -/
theorem reflect_cases (hbound : 1 ≤ bound.toInt) (p v : Int32) :
    (p.toInt < 0 ∧ reflect bound p v = (0, -v)) ∨
      (0 ≤ p.toInt ∧ bound.toInt < p.toInt ∧ reflect bound p v = (bound, -v)) ∨
      (0 ≤ p.toInt ∧ p.toInt ≤ bound.toInt ∧ reflect bound p v = (p, v)) := by
  have hlow : p < 0 ↔ p.toInt < 0 := by
    rw [Int32.lt_iff_toInt_lt, Int32.toInt_zero]
  have hhigh : p > bound ↔ bound.toInt < p.toInt := Int32.lt_iff_toInt_lt
  have hborder : ¬(0 : Int32) > bound := by
    rw [gt_iff_lt, Int32.lt_iff_toInt_lt, Int32.toInt_zero]
    omega
  by_cases hp : p < 0
  · left
    rw [reflect, if_pos hp]
    exact ⟨hlow.mp hp, if_neg hborder⟩
  · right
    have hp' := Int.not_lt.mp (mt hlow.mpr hp)
    rw [reflect, if_neg hp]
    by_cases hq : p > bound
    · exact .inl ⟨hp', hhigh.mp hq, if_pos hq⟩
    · exact .inr ⟨hp', Int.not_lt.mp (mt hhigh.mpr hq), if_neg hq⟩

/-- The reflected coordinate is in the box. -/
theorem reflect_within (hbound : 1 ≤ bound.toInt) : Within bound (reflect bound p v).1 := by
  rcases reflect_cases hbound p v with ⟨-, h⟩ | ⟨-, -, h⟩ | ⟨hlow, hhigh, h⟩
  · rw [h]
    exact ⟨Int32.toInt_zero.ge, by rw [Int32.toInt_zero]; omega⟩
  · rw [h]
    exact ⟨by show 0 ≤ bound.toInt; omega, le_rfl⟩
  · rw [h]
    exact ⟨hlow, hhigh⟩

/-- It is as fast as before. -/
theorem reflect_slow (hbound : 1 ≤ bound.toInt) (hv : Slow v) :
    Slow (reflect bound p v).2 ∧ (reflect bound p v).2.toInt.natAbs = v.toInt.natAbs := by
  rcases reflect_cases hbound p v with ⟨-, h⟩ | ⟨-, -, h⟩ | ⟨-, -, h⟩
  · rw [h]
    exact ⟨hv.neg, hv.natAbs_neg⟩
  · rw [h]
    exact ⟨hv.neg, hv.natAbs_neg⟩
  · rw [h]
    exact ⟨hv, rfl⟩

/-- Two places are reflected to the same exactly if they are the same, or beyond the
same border. -/
theorem reflect_eq_iff (hbound : 1 ≤ bound.toInt) (hv : Slow v) :
    reflect bound p v = reflect bound q v ↔
      p.toInt = q.toInt ∨ (p.toInt < 0 ∧ q.toInt < 0) ∨
        (bound.toInt < p.toInt ∧ bound.toInt < q.toInt) := by
  have hne := hv.neg_ne
  have hzero := Int32.toInt_zero
  have hsame : p = q ↔ p.toInt = q.toInt := Int32.toInt_inj.symm
  -- the borders are not the same, and a velocity is not its opposite
  have hborders : (0 : Int32) ≠ bound := by
    intro heq
    rw [← heq] at hbound
    omega
  rcases reflect_cases hbound p v with ⟨hp, h⟩ | ⟨hp, hp', h⟩ | ⟨hp, hp', h⟩
  · rcases reflect_cases hbound q v with ⟨hq, h'⟩ | ⟨hq, hq', h'⟩ | ⟨hq, hq', h'⟩
    · simp only [h, h', true_iff]
      omega
    · simp only [h, h', Prod.mk.injEq, hborders, false_and, false_iff]
      omega
    · simp only [h, h', Prod.mk.injEq, hne, and_false, false_iff]
      omega
  · rcases reflect_cases hbound q v with ⟨hq, h'⟩ | ⟨hq, hq', h'⟩ | ⟨hq, hq', h'⟩
    · simp only [h, h', Prod.mk.injEq, hborders.symm, false_and, false_iff]
      omega
    · simp only [h, h', true_iff]
      omega
    · simp only [h, h', Prod.mk.injEq, hne, and_false, false_iff]
      omega
  · rcases reflect_cases hbound q v with ⟨hq, h'⟩ | ⟨hq, hq', h'⟩ | ⟨hq, hq', h'⟩
    · simp only [h, h', Prod.mk.injEq, hne.symm, and_false, false_iff]
      omega
    · simp only [h, h', Prod.mk.injEq, hne.symm, and_false, false_iff]
      omega
    · simp only [h, h', Prod.mk.injEq, and_true, hsame]
      omega

/-- A coordinate goes on by its own velocity, or bounces at the border that it would cross. -/
def OwnMove (bound p v p' v' : Int32) : Prop :=
  (p'.toInt = p.toInt + v.toInt ∧ v' = v) ∨
    (p.toInt + v.toInt < 0 ∧ p' = 0 ∧ v' = -v) ∨
    (bound.toInt < p.toInt + v.toInt ∧ p' = bound ∧ v' = -v)

theorem reflect_ownMove (hbound : 1 ≤ bound.toInt) (hfits : CInt.InRange (p.toInt + v.toInt)) :
    OwnMove bound p v (reflect bound (p + v) v).1 (reflect bound (p + v) v).2 := by
  have hsum := CInt.toInt_of_add hfits
  rcases reflect_cases hbound (p + v) v with ⟨hlow, h⟩ | ⟨-, hhigh, h⟩ | ⟨-, -, h⟩
  · rw [h]
    exact .inr (.inl ⟨hsum ▸ hlow, rfl, rfl⟩)
  · rw [h]
    exact .inr (.inr ⟨hsum ▸ hhigh, rfl, rfl⟩)
  · rw [h]
    exact .inl ⟨hsum, rfl⟩

/-! ## A move -/

/-- The shape is in its box, and slow. -/
structure Moving.Fits (daWidth daHeight : Int32) (m : Moving) : Prop where
  x : Within daWidth m.shape.x
  y : Within daHeight m.shape.y
  xvel : Slow m.xvel
  yvel : Slow m.yvel

/-- Both coordinates go on by their own velocities, or bounce. -/
structure OwnMoves (daWidth daHeight : Int32) (m m' : Moving) : Prop where
  x : OwnMove daWidth m.shape.x m.xvel m'.shape.x m'.xvel
  y : OwnMove daHeight m.shape.y m.yvel m'.shape.y m'.yvel

variable {w h : Int32} {m : Moving}

theorem Moving.bounce_eq (w h : Int32) (m : Moving) :
    m.bounce w h =
      { shape := { m.shape with
          x := (reflect w (m.shape.x + m.xvel) m.xvel).1
          y := (reflect h (m.shape.y + m.yvel) m.yvel).1 }
        xvel := (reflect w (m.shape.x + m.xvel) m.xvel).2
        yvel := (reflect h (m.shape.y + m.yvel) m.yvel).2 } := by
  rw [Moving.bounce]
  rfl

/-- A bounce keeps the shape in its box. -/
theorem Moving.Fits.bounce (hw : 1 ≤ w.toInt) (hh : 1 ≤ h.toInt) (hm : m.Fits w h) :
    (m.bounce w h).Fits w h := by
  rw [Moving.bounce_eq]
  exact ⟨reflect_within hw, reflect_within hh, (reflect_slow hw hm.xvel).1,
    (reflect_slow hh hm.yvel).1⟩

/-- The sum for `y` in the C publisher fits as well, and is that of the others or beyond
the same border. -/
structure StepsAlike (w h : Int32) (m : Moving) : Prop where
  x : CInt.InRange (m.shape.x.toInt + m.xvel.toInt)
  y : CInt.InRange (m.shape.y.toInt + m.yvel.toInt)
  fits : CInt.InRange ((m.shape.x + m.xvel).toInt + m.yvel.toInt)
  same : m.shape.x.toInt + m.xvel.toInt = m.shape.y.toInt ∨
    (m.shape.x.toInt + m.xvel.toInt + m.yvel.toInt < 0 ∧ m.shape.y.toInt + m.yvel.toInt < 0) ∨
    (h.toInt < m.shape.x.toInt + m.xvel.toInt + m.yvel.toInt ∧
      h.toInt < m.shape.y.toInt + m.yvel.toInt)

theorem cxx_moveShape_eq_some {m' : Moving} :
    Cxx.moveShapeInt w h m = some m' ↔
      CInt.InRange (m.shape.x.toInt + m.xvel.toInt) ∧
        CInt.InRange (m.shape.y.toInt + m.yvel.toInt) ∧ m' = m.bounce w h := by
  rw [Cxx.moveShapeInt]
  by_cases hx : CInt.InRange (m.shape.x.toInt + m.xvel.toInt)
  · by_cases hy : CInt.InRange (m.shape.y.toInt + m.yvel.toInt)
    · rw [CInt.add_of_inRange hx, CInt.add_of_inRange hy]
      exact ⟨fun heq => ⟨hx, hy, (Option.some.inj heq).symm⟩,
        fun ⟨_, _, heq⟩ => congrArg some heq.symm⟩
    · rw [CInt.add_of_inRange hx, CInt.add_of_not_inRange hy]
      exact ⟨nofun, fun ⟨_, hy', _⟩ => absurd hy' hy⟩
  · rw [CInt.add_of_not_inRange hx]
    exact ⟨nofun, fun ⟨hx', _⟩ => absurd hx' hx⟩

theorem c_moveShape_eq_some {m' : Moving} :
    C.moveShape w h m = some m' ↔
      CInt.InRange (m.shape.x.toInt + m.xvel.toInt) ∧
        CInt.InRange ((m.shape.x + m.xvel).toInt + m.yvel.toInt) ∧
        m' =
          { shape := { m.shape with
              x := (reflect w (m.shape.x + m.xvel) m.xvel).1
              y := (reflect h (m.shape.x + m.xvel + m.yvel) m.yvel).1 }
            xvel := (reflect w (m.shape.x + m.xvel) m.xvel).2
            yvel := (reflect h (m.shape.x + m.xvel + m.yvel) m.yvel).2 } := by
  rw [C.moveShape]
  by_cases hx : CInt.InRange (m.shape.x.toInt + m.xvel.toInt)
  · by_cases hy : CInt.InRange ((m.shape.x + m.xvel).toInt + m.yvel.toInt)
    · rw [CInt.add_of_inRange hx, Option.bind_eq_bind, Option.bind_some, CInt.add_of_inRange hy]
      exact ⟨fun heq => ⟨hx, hy, (Option.some.inj heq).symm⟩,
        fun ⟨_, _, heq⟩ => congrArg some heq.symm⟩
    · rw [CInt.add_of_inRange hx, Option.bind_eq_bind, Option.bind_some, CInt.add_of_not_inRange hy]
      exact ⟨nofun, fun ⟨_, hy', _⟩ => absurd hy' hy⟩
  · rw [CInt.add_of_not_inRange hx]
    exact ⟨nofun, fun ⟨hx', _⟩ => absurd hx' hx⟩

/-- All make the move of the bounce exactly if the sums for `y` do not tell them apart. -/
theorem forall_moveShape_iff (hh : 1 ≤ h.toInt) (hm : m.Fits w h) :
    (∀ publisher : Publisher, publisher.moveShape w h m = some (m.bounce w h)) ↔
      StepsAlike w h m := by
  have hsame : ∀ hx : CInt.InRange (m.shape.x.toInt + m.xvel.toInt),
      ∀ hy : CInt.InRange (m.shape.y.toInt + m.yvel.toInt),
      ∀ hfits : CInt.InRange ((m.shape.x + m.xvel).toInt + m.yvel.toInt),
      reflect h (m.shape.y + m.yvel) m.yvel = reflect h (m.shape.x + m.xvel + m.yvel) m.yvel ↔
        (m.shape.x.toInt + m.xvel.toInt = m.shape.y.toInt ∨
          (m.shape.x.toInt + m.xvel.toInt + m.yvel.toInt < 0 ∧
            m.shape.y.toInt + m.yvel.toInt < 0) ∨
          (h.toInt < m.shape.x.toInt + m.xvel.toInt + m.yvel.toInt ∧
            h.toInt < m.shape.y.toInt + m.yvel.toInt)) := by
    intro hx hy hfits
    rw [reflect_eq_iff hh hm.yvel, CInt.toInt_of_add hy, CInt.toInt_of_add hfits,
      CInt.toInt_of_add hx]
    omega
  constructor
  · intro hall
    obtain ⟨hx, hfits, heq⟩ := c_moveShape_eq_some.mp (hall .c)
    obtain ⟨-, hy, -⟩ := cxx_moveShape_eq_some.mp (hall .cxx)
    refine ⟨hx, hy, hfits, (hsame hx hy hfits).mp ?_⟩
    rw [Moving.bounce_eq, Moving.mk.injEq, Hdds.ShapeType.mk.injEq] at heq
    obtain ⟨⟨-, -, hplace, -⟩, -, hvelocity⟩ := heq
    exact Prod.ext hplace hvelocity
  · rintro ⟨hx, hy, hfits, hsums⟩ publisher
    cases publisher with
    | c =>
        refine c_moveShape_eq_some.mpr ⟨hx, hfits, ?_⟩
        rw [Moving.bounce_eq, (hsame hx hy hfits).mpr hsums]
    | cxx => exact cxx_moveShape_eq_some.mpr ⟨hx, hy, rfl⟩
    | hdds => rfl
    | dustDds => rfl

theorem Moving.bounce_ownMoves (hw : 1 ≤ w.toInt) (hh : 1 ≤ h.toInt)
    (hx : CInt.InRange (m.shape.x.toInt + m.xvel.toInt))
    (hy : CInt.InRange (m.shape.y.toInt + m.yvel.toInt)) :
    OwnMoves w h m (m.bounce w h) := by
  rw [Moving.bounce_eq]
  exact ⟨reflect_ownMove hw hx, reflect_ownMove hh hy⟩

/-! ## Runs -/

/-- After so many bounces: in the box, and as fast as at the start. -/
theorem Moving.Fits.iterate (hw : 1 ≤ w.toInt) (hh : 1 ≤ h.toInt) (hm : m.Fits w h) (k : Nat) :
    ((Moving.bounce w h)^[k] m).Fits w h ∧
      ((Moving.bounce w h)^[k] m).xvel.toInt.natAbs = m.xvel.toInt.natAbs ∧
      ((Moving.bounce w h)^[k] m).yvel.toInt.natAbs = m.yvel.toInt.natAbs := by
  induction k with
  | zero => exact ⟨hm, rfl, rfl⟩
  | succ k ih =>
      obtain ⟨hfits, hx, hy⟩ := ih
      have hbounce := hfits.bounce hw hh
      rw [Moving.bounce_eq] at hbounce
      rw [Function.iterate_succ_apply', Moving.bounce_eq]
      exact ⟨hbounce, ((reflect_slow hw hfits.xvel).2).trans hx,
        ((reflect_slow hh hfits.yvel).2).trans hy⟩

/-- In the first `k` moves all publishers have the same shape, in its box and as fast as
at the start, and it moves by its own velocities. -/
def MoveAlike (w h : Int32) (m : Moving) (k : Nat) : Prop :=
  ∃ states : Nat → Moving,
    (∀ j ≤ k, (∀ publisher : Publisher,
        Loop.after (publisher.moveShape w h) m j = some (states j)) ∧
      Within w (states j).shape.x ∧ Within h (states j).shape.y ∧
      (states j).xvel.toInt.natAbs = m.xvel.toInt.natAbs ∧
      (states j).yvel.toInt.natAbs = m.yvel.toInt.natAbs) ∧
    ∀ j < k, OwnMoves w h (states j) (states (j + 1))

/-- **All publishers move the shape alike** as long as in every state the sums for `y` do
not tell the C publisher from the others, and no longer. -/
theorem moves_alike_iff (hw : 1 ≤ w.toInt) (hh : 1 ≤ h.toInt) (hm : m.Fits w h) (k : Nat) :
    MoveAlike w h m k ↔ ∀ j < k, StepsAlike w h ((Moving.bounce w h)^[j] m) := by
  have hrun : (∀ publisher : Publisher, ∀ j ≤ k,
      Loop.after (publisher.moveShape w h) m j = some ((Moving.bounce w h)^[j] m)) ↔
      ∀ j < k, StepsAlike w h ((Moving.bounce w h)^[j] m) := by
    simp only [Loop.after_eq_iterate_iff]
    constructor
    · intro hall j hj
      exact (forall_moveShape_iff hh (hm.iterate hw hh j).1).mp fun publisher =>
        hall publisher j hj
    · intro hsteps publisher j hj
      exact (forall_moveShape_iff hh (hm.iterate hw hh j).1).mpr (hsteps j hj) publisher
  rw [← hrun]
  constructor
  · rintro ⟨states, hstates, -⟩ publisher j hj
    have hbounce : Loop.after (Publisher.hdds.moveShape w h) m j =
        some ((Moving.bounce w h)^[j] m) := Loop.after_eq_iterate_iff.mpr (fun _ _ => rfl) j le_rfl
    rw [(hstates j hj).1 publisher, ← (hstates j hj).1 .hdds, hbounce]
  · intro hall
    refine ⟨fun j => (Moving.bounce w h)^[j] m, fun j hj => ?_, fun j hj => ?_⟩
    · obtain ⟨hfits, hx, hy⟩ := hm.iterate hw hh j
      exact ⟨fun publisher => hall publisher j hj, hfits.x, hfits.y, hx, hy⟩
    · have halike := hrun.mp hall j hj
      show OwnMoves w h _ ((Moving.bounce w h)^[j + 1] m)
      rw [Function.iterate_succ_apply']
      exact Moving.bounce_ownMoves hw hh halike.x halike.y

/-- A shape at the left border, in the box of the default size. -/
def atTheLeft : Moving where
  shape := { color := "BLUE", x := 0, y := 100, shapesize := 20, additionalPayloadSize := [] }
  xvel := 1
  yvel := 1

theorem fits_atTheLeft : atTheLeft.Fits 240 270 := by
  constructor <;> decide

theorem moves_alike_atTheLeft :
    MoveAlike 240 270 atTheLeft 1 ↔
      ∀ j < 1, StepsAlike 240 270 ((Moving.bounce 240 270)^[j] atTheLeft) :=
  moves_alike_iff (by decide) (by decide) fits_atTheLeft 1

/-- From (0, 100) the C publisher moves to (1, 2), the others to (1, 101). -/
theorem not_moves_alike :
    ¬ ∀ (w h : Int32) (m : Moving) (k : Nat), 1 ≤ w.toInt → 1 ≤ h.toInt → m.Fits w h →
      MoveAlike w h m k := by
  intro hall
  obtain ⟨states, hstates, -⟩ := hall 240 270 atTheLeft 1 (by decide) (by decide) fits_atTheLeft
  have hc := (hstates 1 le_rfl).1 .c
  have hcxx := (hstates 1 le_rfl).1 .cxx
  have hsame := hc.trans hcxx.symm
  revert hsame
  decide

end DdsRtps.ShapeMain
