/-
# `DdsRtps.Harness.WrittenLines` — from a publisher to the line of a sample

What a subscriber prints for a sample can be read back if the sample has words for
its topic and its colour and no negative number in it (`readings_of_printed`), and
the Zig subscriber panics at a negative coordinate.

The publishers keep the coordinates of all that they write in a box
(`DdsRtps.ShapeMain.Trajectories`).  So of the samples of their runs only the
strings and the size can be in the way (`readings_of_run`).
-/
import DdsRtps.Harness.SampleFormats
import DdsRtps.ShapeMain.Trajectories

namespace DdsRtps.Harness

open Regex
open Hdds (ShapeType)
open ShapeMain (Call Within)

/-- The calls of a run of one of the four publishers from a random start. -/
inductive RandomRun : List Call → Prop
  | cxx {options : ShapeMain.Cxx.Options} (random : Nat → Fin (2 ^ 31)) (signals : List Bool) :
      options.daWidth = 240 → options.daHeight = 270 →
      RandomRun (ShapeMain.Cxx.callsMade options (ShapeMain.Cxx.startOf options random) signals)
  | hdds {args : List String} {options : Hdds.ShapeOptions} (random : Nat → UInt32)
      (seen : List ShapeMain.HddsRs.Seen) : Hdds.parse args = .accepted options →
      RandomRun (ShapeMain.HddsRs.callsMade options (ShapeMain.HddsRs.startOf options random) seen)
  | dust (options : ShapeMain.DustDds.Options) (x y : UInt32) (xRandom yRandom : Bool)
      (xInRange yInRange : Fin 5) (received : List Bool) :
      RandomRun (ShapeMain.DustDds.callsMade options
        (ShapeMain.DustDds.startOf x y xRandom yRandom xInRange yInRange) received)
  | zig (options : ShapeMain.Zig.Options) (seen : List ShapeMain.Zig.Seen) :
      RandomRun (ShapeMain.Zig.callsMade options seen)

/-- A sample of a tour is one of the trajectory. -/
theorem exists_sampleAt_of_tour {w h : Int32} {grow : Int32 → Int32} {first : ShapeMain.Moving}
    {key : Nat → String} {numTopics numInstances : Nat} {calls : List Call}
    (htour : ShapeMain.Tour w h grow first key numTopics numInstances calls) {i j : Nat}
    {shape : ShapeType} (hwrite : .write i j shape ∈ calls) :
    ∃ k, shape = ShapeMain.sampleAt w h grow first key k j := by
  have hmem := ShapeMain.mem_shapesOf.mpr hwrite
  by_cases hinside : i < numTopics ∧ j < numInstances
  · obtain ⟨turns, hsamples⟩ := htour.samples
    obtain ⟨t, -, hshapes⟩ := hsamples i hinside.1 j hinside.2
    rw [hshapes] at hmem
    obtain ⟨k, -, rfl⟩ := List.mem_map.mp hmem
    exact ⟨k, rfl⟩
  · rw [htour.outside i j hinside] at hmem
    cases hmem

/-- It lies in the box. -/
theorem within_of_tour {w h : Int32} {grow : Int32 → Int32} {first : ShapeMain.Moving}
    {key : Nat → String} {numTopics numInstances : Nat} {calls : List Call}
    (htour : ShapeMain.Tour w h grow first key numTopics numInstances calls) {i j : Nat}
    {shape : ShapeType} (hwrite : .write i j shape ∈ calls) :
    Within w shape.x ∧ Within h shape.y := by
  obtain ⟨k, rfl⟩ := exists_sampleAt_of_tour htour hwrite
  exact htour.within k j

theorem RandomRun.nonneg {calls : List Call} (hrun : RandomRun calls) {i j : Nat}
    {shape : ShapeType} (hwrite : .write i j shape ∈ calls) :
    0 ≤ shape.x.toInt ∧ 0 ≤ shape.y.toInt := by
  cases hrun with
  | cxx random signals hw hh =>
      obtain ⟨hx, hy⟩ := within_of_tour (ShapeMain.Cxx.tour hw hh random signals) hwrite
      exact ⟨hx.1, hy.1⟩
  | hdds random seen h =>
      obtain ⟨hx, hy⟩ := within_of_tour (ShapeMain.HddsRs.tour h random seen) hwrite
      exact ⟨hx.1, hy.1⟩
  | dust options x y xRandom yRandom xInRange yInRange received =>
      obtain ⟨hx, hy⟩ := within_of_tour (ShapeMain.DustDds.tour options x y xRandom yRandom
        xInRange yInRange received) hwrite
      exact ⟨hx.1, hy.1⟩
  | zig options seen =>
      obtain ⟨-, -, hx, hy⟩ := ShapeMain.Zig.placed_callsMade seen _ hwrite
      exact ⟨hx.1, hy.1⟩

/-- A line that prints a sample of the run, or one without `[digits]`. -/
def FromRun (calls : List Call) : OutputLine → Prop
  | .sample r => ∃ i j, .write i j r.sample ∈ calls
  | .other text => NoSample text

/-- Words for the topic and the colour, and a size that is not negative. -/
structure Received.Worded (py : PyUnicode) (r : Received) : Prop where
  topic : r.topic.toList ≠ [] ∧ ∀ c ∈ r.topic.toList, py.word c = true
  color : r.sample.color.toList ≠ [] ∧ ∀ c ∈ r.sample.color.toList, py.word c = true
  shapesize : 0 ≤ r.sample.shapesize.toInt

variable {py : PyUnicode} {calls : List Call} {lines : List OutputLine}

theorem exists_write_of_samplesOf (hfrom : ∀ l ∈ lines, FromRun calls l) {r : Received}
    (hr : r ∈ samplesOf lines) : ∃ i j, .write i j r.sample ∈ calls := by
  obtain ⟨l, hl, hsome⟩ := List.mem_filterMap.mp hr
  cases l with
  | sample r' =>
      obtain rfl := Option.some.inj hsome
      exact hfrom _ hl
  | other text => cases hsome

theorem RandomRun.legal (hrun : RandomRun calls) (hfrom : ∀ l ∈ lines, FromRun calls l)
    (hworded : ∀ r ∈ samplesOf lines, r.Worded py) : ∀ l ∈ lines, l.Legal py := by
  intro l hl
  cases l with
  | other text => exact hfrom _ hl
  | sample r =>
      obtain ⟨i, j, hwrite⟩ := hfrom _ hl
      obtain ⟨hx, hy⟩ := hrun.nonneg hwrite
      obtain ⟨htopic, hcolor, hsize⟩ := hworded r (List.mem_filterMap.mpr ⟨_, hl, rfl⟩)
      exact ⟨htopic, hcolor, hx, hy, hsize⟩

/-- The first turn of a publisher that started in the corner, as a subscriber shows it. -/
def cornerLines : List OutputLine :=
  [.other "Create reader for topic: Square".toList, .sample ⟨"Square", ⟨"BLUE", 1, 1, 1, []⟩⟩]

end DdsRtps.Harness
