/-
# `DdsRtps.Harness.CoherentSets` — counting the samples of coherent sets

`_coherent_sets_w_instances` of test_suite_functions.py.  Between two lines
`Reading coherent sets` the samples are counted, all of them and those of each
instance; the first two cycles that have samples are not judged.

An instance is a topic and a color, but whether a sample is counted for it
depends on the color of the sample before it alone: the first sample of a
block is not counted, unless the sample before it, of whatever topic and
cycle, has the same color.  So a block of three counts three, or four
(`countSamples_block`).
-/
import DdsRtps.Harness.SampleLines
import DdsRtps.Lib.EventLoop
import DdsRtps.Lib.PyDict

namespace DdsRtps.Harness

open Regex

/-! ## The code -/

/-- `Reading coherent sets.*?\n`. -/
def readingCoherentSets : Regex Char :=
  cat [lit "Reading coherent sets".toList, .star false (· != '\n'), lit ['\n']]

/-- An instance: its topic and its color. -/
abbrev Instance := List Char × List Char

/-- The variables of `_coherent_sets_w_instances`. -/
structure CheckState where
  topics : PyDict (List Char) (PyDict (List Char) (Option Nat))
  samplesReadPerInstance : Nat
  previousSampleColor : Option (List Char)
  newCoherentSetRead : Bool
  ignoreFirstsCoherentSet : Nat
  coherentSetsCount : Nat
  coherentSetSampleCount : Nat
  producedCode : ReturnCode

namespace CheckState

def initial : CheckState where
  topics := .empty
  samplesReadPerInstance := 0
  previousSampleColor := none
  newCoherentSetRead := false
  ignoreFirstsCoherentSet := 2
  coherentSetsCount := 0
  coherentSetSampleCount := 0
  producedCode := .dataNotReceived

/-- A sample is read. -/
def readSample (i : Instance) (st : CheckState) : CheckState :=
  let topics := (st.topics.setDefault i.1 .empty).modify i.1 fun colors =>
    colors.setDefault i.2 none
  { st with
    newCoherentSetRead := true
    topics :=
      if st.previousSampleColor = some i.2 then
        topics.modify i.1 fun colors => colors.modify i.2 fun count => some (count.getD 1 + 1)
      else topics
    previousSampleColor := some i.2 }

/-- `topics[topic][color] = None`, for all of them. -/
def resetCounts (st : CheckState) : CheckState :=
  { st with topics := st.topics.mapValues fun colors => colors.mapValues fun _ => none }

/-- `topics[topic][color] is not None and topics[topic][color] % 3 != 0`, for
one of them. -/
def hasIncompleteSet (st : CheckState) : Bool :=
  st.topics.items.any fun (_, colors) => colors.items.any fun (_, count) =>
    match count with
    | none => false
    | some n => n % 3 != 0

/-- A line `Reading coherent sets` is read.  `none` leaves the loop with
`DATA_NOT_CORRECT`. -/
def readCoherentSets (expectedTotal : Nat) (st : CheckState) : Option CheckState :=
  if st.ignoreFirstsCoherentSet ≠ 0 ∧ st.newCoherentSetRead then
    some { st.resetCounts with
      ignoreFirstsCoherentSet := st.ignoreFirstsCoherentSet - 1
      coherentSetSampleCount := 0
      newCoherentSetRead := false }
  else if st.newCoherentSetRead then
    if st.coherentSetSampleCount % expectedTotal ≠ 0 then none
    else if st.hasIncompleteSet then none
    else
      some { st.resetCounts with
        producedCode := .ok
        coherentSetSampleCount := 0
        newCoherentSetRead := false }
  else some { st with newCoherentSetRead := false }

/-- What is done with a text, a sample or something else. -/
def readText (py : PyUnicode) (expectedTotal : Nat) (text : List Char) (st : CheckState) :
    Option CheckState :=
  match topicAndColor py text with
  | some i => some (st.readSample i)
  | none =>
      if (search (lit "Reading coherent sets".toList) text).isSome then
        st.readCoherentSets expectedTotal
      else some st

/-- The first instance of the first topic. -/
def isFirstInstance (st : CheckState) : Option Instance → Bool
  | none => false
  | some i =>
      st.topics.firstKey = some i.1 && (st.topics.get? i.1).bind PyDict.firstKey = some i.2

/-- What an `expect` that has matched counts; `i` is what was read before.
`Except.error` leaves the loop. -/
def expect (i : Option Instance) (index : Nat) (st : CheckState) : Except ReturnCode CheckState :=
  let st :=
    if index = 0 then
      { st with
        samplesReadPerInstance :=
          if st.isFirstInstance i then st.samplesReadPerInstance + 1 else st.samplesReadPerInstance
        coherentSetSampleCount := st.coherentSetSampleCount + 1 }
    else { st with coherentSetsCount := st.coherentSetsCount + 1 }
  if 500 < st.coherentSetsCount then
    .error (if st.samplesReadPerInstance < 500 then .dataNotReceived else st.producedCode)
  else .ok st

end CheckState

/-- How the output of a subscriber ends: nothing comes any more, or the program
is gone. -/
inductive Ending where
  | timeout
  | eof
deriving DecidableEq, Repr

/-- What comes behind the last match. -/
def Ending.arrival : Ending → Arrival (Window Char)
  | .timeout => .timeout
  | .eof => .eof

/-- The loop, from one `expect` to the next: what has matched is counted, the
condition of the loop is tested and the text is read. -/
def coherentSetsLoop (py : PyUnicode) (expectedTotal : Nat) (ending : Ending) :
    List (Window Char) → Option Instance → CheckState → ReturnCode
  | [], _, st =>
      match ending with
      | .timeout => st.producedCode
      | .eof => .dataNotReceived
  | w :: windows, i, st =>
      match st.expect i w.index with
      | .error code => code
      | .ok st =>
          if st.samplesReadPerInstance < 100 then
            match st.readText py expectedTotal w.text with
            | none => .dataNotCorrect
            | some st => coherentSetsLoop py expectedTotal ending windows (topicAndColor py w.text) st
          else st.producedCode

/-- `_coherent_sets_w_instances`: `text` is what the last `expect` of
`run_subscriber_shape_main` has read, `output` what comes after it. -/
def coherentSetsWInstances (py : PyUnicode) (expectedTotal : Nat) (text output : List Char)
    (ending : Ending) : ReturnCode :=
  let retcode := basicCheck py text
  if retcode ≠ .ok then retcode
  else
    match CheckState.initial.readText py expectedTotal text with
    | none => .dataNotCorrect
    | some st =>
        coherentSetsLoop py expectedTotal ending
          (expectAll [sampleEnd, readingCoherentSets] [] 0 output) (topicAndColor py text) st

/-! ## The dicts -/

namespace CheckState

/-- What is counted for an instance, known or not. -/
def held (st : CheckState) (i : Instance) : Option Nat :=
  ((st.topics.get? i.1).bind fun colors => colors.get? i.2).join

/-- The counts of a topic. -/
def colorsOf (st : CheckState) (topic : List Char) : PyDict (List Char) (Option Nat) :=
  (st.topics.get? topic).getD .empty

theorem held_eq (st : CheckState) (i : Instance) :
    st.held i = ((st.colorsOf i.1).get? i.2).join := by
  rw [held, colorsOf]
  cases st.topics.get? i.1 <;> rfl

theorem colorsOf_readSample (i : Instance) (st : CheckState) (topic : List Char) :
    (st.readSample i).colorsOf topic =
      if topic = i.1 then
        if st.previousSampleColor = some i.2 then
          ((st.colorsOf topic).setDefault i.2 none).modify i.2 fun count =>
            some (count.getD 1 + 1)
        else (st.colorsOf topic).setDefault i.2 none
      else st.colorsOf topic := by
  unfold colorsOf readSample
  by_cases hprev : st.previousSampleColor = some i.2 <;> by_cases htopic : topic = i.1
  · subst htopic
    simp [hprev, PyDict.get?_modify, PyDict.get?_setDefault]
  · simp [hprev, htopic, PyDict.get?_modify, PyDict.get?_setDefault]
  · subst htopic
    simp [hprev, PyDict.get?_modify, PyDict.get?_setDefault]
  · simp [hprev, htopic, PyDict.get?_modify, PyDict.get?_setDefault]

theorem held_readSample (i : Instance) (st : CheckState) :
    (st.readSample i).held =
      if st.previousSampleColor = some i.2 then
        Function.update st.held i (some ((st.held i).getD 1 + 1))
      else st.held := by
  funext j
  rw [held_eq, colorsOf_readSample]
  by_cases hprev : st.previousSampleColor = some i.2
  · rw [if_pos hprev, if_pos hprev]
    by_cases hj : j = i
    · subst hj
      rw [if_pos rfl, PyDict.get?_modify, PyDict.get?_setDefault, if_pos rfl, Option.map_some,
        if_pos rfl, Function.update_self, held_eq]
      cases (st.colorsOf j.1).get? j.2 <;> rfl
    · rw [Function.update_of_ne hj, held_eq]
      by_cases htopic : j.1 = i.1
      · have hcolor : j.2 ≠ i.2 := fun hcolor => hj (Prod.ext htopic hcolor)
        rw [if_pos htopic, PyDict.get?_modify, PyDict.get?_setDefault, if_neg hcolor]
        simp [hcolor]
      · rw [if_neg htopic]
  · rw [if_neg hprev, if_neg hprev, held_eq]
    by_cases htopic : j.1 = i.1
    · rw [if_pos htopic, PyDict.get?_setDefault]
      by_cases hcolor : j.2 = i.2
      · rw [if_pos hcolor, hcolor]
        cases (st.colorsOf j.1).get? i.2 <;> rfl
      · rw [if_neg hcolor]
    · rw [if_neg htopic]

theorem held_resetCounts (st : CheckState) (i : Instance) : st.resetCounts.held i = none := by
  rw [held, resetCounts, PyDict.get?_mapValues]
  cases st.topics.get? i.1 with
  | none => rfl
  | some colors =>
      rw [Option.map_some, Option.bind_some, PyDict.get?_mapValues]
      cases colors.get? i.2 <;> rfl

theorem hasIncompleteSet_iff (st : CheckState) :
    st.hasIncompleteSet = true ↔ ∃ i n, st.held i = some n ∧ n % 3 ≠ 0 := by
  unfold hasIncompleteSet
  rw [List.any_eq_true]
  constructor
  · rintro ⟨⟨topic, colors⟩, htopic, hany⟩
    obtain ⟨⟨color, count⟩, hcolor, hcount⟩ := List.any_eq_true.mp hany
    cases count with
    | none => cases hcount
    | some n =>
        refine ⟨(topic, color), n, ?_, by simpa using hcount⟩
        rw [held, PyDict.mem_items_iff.mp htopic, Option.bind_some,
          PyDict.mem_items_iff.mp hcolor]
        rfl
  · rintro ⟨⟨topic, color⟩, n, hheld, hn⟩
    obtain ⟨colors, htopic, hcolor⟩ :=
      Option.bind_eq_some_iff.mp (Option.join_eq_some_iff.mp hheld)
    exact ⟨(topic, colors), PyDict.mem_items_iff.mpr htopic, List.any_eq_true.mpr
      ⟨(color, some n), PyDict.mem_items_iff.mpr hcolor, by simpa using hn⟩⟩

/-- The first instance, if there is one. -/
def IsFirst (st : CheckState) (i : Instance) : Prop :=
  st.topics.firstKey = some i.1 ∧ ∃ colors, st.topics.get? i.1 = some colors ∧
    colors.firstKey = some i.2

theorem isFirstInstance_iff {st : CheckState} {i : Instance} (h : st.IsFirst i)
    (j : Option Instance) : st.isFirstInstance j = true ↔ j = some i := by
  obtain ⟨htopic, colors, hget, hcolor⟩ := h
  cases j with
  | none => simp [isFirstInstance]
  | some j =>
      simp only [isFirstInstance, Bool.and_eq_true, decide_eq_true_eq, htopic, Option.some.injEq]
      constructor
      · rintro ⟨hj, hj'⟩
        rw [← hj, hget, Option.bind_some, hcolor] at hj'
        exact Prod.ext hj.symm (Option.some.inj hj').symm
      · rintro rfl
        exact ⟨rfl, by rw [hget, Option.bind_some, hcolor]⟩

theorem IsFirst.readSample {st : CheckState} {i : Instance} (h : st.IsFirst i) (j : Instance) :
    (st.readSample j).IsFirst i := by
  obtain ⟨htopic, colors, hget, hcolor⟩ := h
  have hkey : (st.readSample j).topics.firstKey = some i.1 := by
    unfold CheckState.readSample
    split <;> simp [PyDict.firstKey_modify, PyDict.firstKey_setDefault, htopic]
  refine ⟨hkey, ?_⟩
  unfold CheckState.readSample
  by_cases hj : i.1 = j.1
  · rw [hj] at hget
    split <;> simp [PyDict.get?_modify, PyDict.get?_setDefault, hj, hget,
      PyDict.firstKey_modify, PyDict.firstKey_setDefault, hcolor]
  · split <;> simp [PyDict.get?_modify, PyDict.get?_setDefault, hj, hget, hcolor]

theorem isFirst_readSample_initial (i : Instance) : (initial.readSample i).IsFirst i := by
  have htopics : (initial.readSample i).topics =
      (PyDict.empty.setDefault i.1 .empty).modify i.1 fun colors => colors.setDefault i.2 none := rfl
  refine ⟨?_, PyDict.empty.setDefault i.2 none, ?_, ?_⟩
  · rw [htopics, PyDict.firstKey_modify, PyDict.firstKey_setDefault]
    rfl
  · rw [htopics, PyDict.get?_modify, PyDict.get?_setDefault]
    simp only [if_true, PyDict.get?_empty, Option.getD_none, Option.map_some]
  · rw [PyDict.firstKey_setDefault]
    rfl

theorem IsFirst.resetCounts {st : CheckState} {i : Instance} (h : st.IsFirst i) :
    st.resetCounts.IsFirst i := by
  obtain ⟨htopic, colors, hget, hcolor⟩ := h
  refine ⟨?_, colors.mapValues fun _ => none, ?_, ?_⟩
  · rw [CheckState.resetCounts, PyDict.firstKey_mapValues, htopic]
  · rw [CheckState.resetCounts, PyDict.get?_mapValues, hget, Option.map_some]
  · rw [PyDict.firstKey_mapValues, hcolor]

end CheckState

/-! ## The tally

What the dicts are for, without the dicts: a count for each instance. -/

/-- What is read, one `expect` after the other. -/
inductive Event where
  | sample (i : Instance)
  | readingSets
deriving DecidableEq, Repr

/-- The variables of the loop, with a function for the dicts. -/
structure Tally where
  previous : Option (List Char)
  counts : Instance → Option Nat
  anySample : Bool
  ignored : Nat
  sets : Nat
  total : Nat
  ofFirst : Nat

namespace Tally

/-- Of a sample, only the color of the one before decides whether it is
counted. -/
def sample (i : Instance) (t : Tally) : Tally :=
  { t with
    previous := some i.2
    counts :=
      if t.previous = some i.2 then Function.update t.counts i (some ((t.counts i).getD 1 + 1))
      else t.counts
    anySample := true }

/-- A cycle that is judged is not complete. -/
def Incomplete (expectedTotal : Nat) (t : Tally) : Prop :=
  t.anySample = true ∧ t.ignored = 0 ∧
    (t.total % expectedTotal ≠ 0 ∨ ∃ i n, t.counts i = some n ∧ n % 3 ≠ 0)

/-- A cycle is over. -/
def close (t : Tally) : Tally :=
  if t.anySample then
    { t with counts := fun _ => none, anySample := false, ignored := t.ignored - 1, total := 0 }
  else t

/-- `expect` has matched a sample, `first` being the first instance and `i`
what was read before. -/
def expectSample (first : Instance) (i : Option Instance) (t : Tally) : Tally :=
  { t with ofFirst := if i = some first then t.ofFirst + 1 else t.ofFirst, total := t.total + 1 }

/-- `expect` has matched a line. -/
def expectSets (t : Tally) : Tally := { t with sets := t.sets + 1 }

/-- The loop ends with `DATA_NOT_CORRECT`. -/
def Fails (first : Instance) (expectedTotal : Nat) :
    List Event → Option Instance → Tally → Prop
  | [], _, _ => False
  | .sample j :: events, i, t =>
      (t.expectSample first i).ofFirst < 100 ∧
        Fails first expectedTotal events (some j) ((t.expectSample first i).sample j)
  | .readingSets :: events, _, t =>
      t.sets + 1 ≤ 500 ∧ t.ofFirst < 100 ∧ (t.expectSets.Incomplete expectedTotal ∨
        Fails first expectedTotal events none t.expectSets.close)

end Tally

/-- The tally is what the variables of the loop say. -/
structure Tracks (first : Instance) (st : CheckState) (t : Tally) : Prop where
  isFirst : st.IsFirst first
  previous : st.previousSampleColor = t.previous
  counts : st.held = t.counts
  anySample : st.newCoherentSetRead = t.anySample
  ignored : st.ignoreFirstsCoherentSet = t.ignored
  sets : st.coherentSetsCount = t.sets
  total : st.coherentSetSampleCount = t.total
  ofFirst : st.samplesReadPerInstance = t.ofFirst
  produced : st.producedCode ≠ .dataNotCorrect

namespace Tracks

variable {first : Instance} {st : CheckState} {t : Tally}

theorem readSample (h : Tracks first st t) (i : Instance) :
    Tracks first (st.readSample i) (t.sample i) where
  isFirst := h.isFirst.readSample i
  previous := rfl
  counts := by rw [CheckState.held_readSample, h.previous, h.counts]; rfl
  anySample := rfl
  ignored := h.ignored
  sets := h.sets
  total := h.total
  ofFirst := h.ofFirst
  produced := h.produced

theorem resetCounts (h : Tracks first st t) (ht : t.anySample = true) (code : ReturnCode)
    (hcode : code ≠ .dataNotCorrect) :
    Tracks first { st.resetCounts with
      ignoreFirstsCoherentSet := st.ignoreFirstsCoherentSet - 1
      producedCode := code
      coherentSetSampleCount := 0
      newCoherentSetRead := false } t.close := by
  have hclose : t.close = { t with
      counts := fun _ => none, anySample := false, ignored := t.ignored - 1, total := 0 } :=
    if_pos ht
  rw [hclose]
  exact {
    isFirst := h.isFirst.resetCounts
    previous := h.previous
    counts := funext fun i => st.held_resetCounts i
    anySample := rfl
    ignored := congrArg (· - 1) h.ignored
    sets := h.sets
    total := rfl
    ofFirst := h.ofFirst
    produced := hcode }

theorem incomplete_iff (h : Tracks first st t) (expectedTotal : Nat) :
    t.Incomplete expectedTotal ↔ st.newCoherentSetRead = true ∧ st.ignoreFirstsCoherentSet = 0 ∧
      (st.coherentSetSampleCount % expectedTotal ≠ 0 ∨ st.hasIncompleteSet = true) := by
  rw [CheckState.hasIncompleteSet_iff, h.counts, h.anySample, h.ignored, h.total]
  rfl

theorem readCoherentSets (h : Tracks first st t) (expectedTotal : Nat) :
    (t.Incomplete expectedTotal ∧ st.readCoherentSets expectedTotal = none) ∨
    (¬ t.Incomplete expectedTotal ∧
      ∃ st', st.readCoherentSets expectedTotal = some st' ∧ Tracks first st' t.close) := by
  rw [h.incomplete_iff]
  cases hany : st.newCoherentSetRead with
  | false =>
      refine .inr ⟨by simp, { st with newCoherentSetRead := false }, ?_, ?_⟩
      · simp [CheckState.readCoherentSets, hany]
      · have hclose : t.close = t := if_neg (by rw [← h.anySample, hany]; simp)
        rw [hclose]
        exact { h with anySample := hany.symm.trans h.anySample }
  | true =>
      have ht : t.anySample = true := h.anySample.symm.trans hany
      by_cases hignore : st.ignoreFirstsCoherentSet = 0
      · by_cases htotal : st.coherentSetSampleCount % expectedTotal = 0
        · cases hset : st.hasIncompleteSet with
          | true => exact .inl ⟨⟨rfl, hignore, .inr rfl⟩, by
              simp [CheckState.readCoherentSets, hany, hignore, htotal, hset]⟩
          | false =>
              refine .inr ⟨by simp [htotal], _, ?_, h.resetCounts ht .ok (by decide)⟩
              simp [CheckState.readCoherentSets, hany, hignore, htotal, hset,
                CheckState.resetCounts]
        · exact .inl ⟨⟨rfl, hignore, .inl htotal⟩, by
            simp [CheckState.readCoherentSets, hany, hignore, htotal]⟩
      · refine .inr ⟨fun hbad => hignore hbad.2.1, _, ?_,
          h.resetCounts ht st.producedCode h.produced⟩
        simp [CheckState.readCoherentSets, hany, hignore, CheckState.resetCounts]

theorem expectSample (h : Tracks first st t) (hsets : t.sets ≤ 500) (i : Option Instance) :
    ∃ st', st.expect i 0 = .ok st' ∧ Tracks first st' (t.expectSample first i) := by
  have hle : ¬ 500 < st.coherentSetsCount := by
    rw [h.sets]
    omega
  refine ⟨{ st with
    samplesReadPerInstance :=
      if st.isFirstInstance i then st.samplesReadPerInstance + 1 else st.samplesReadPerInstance
    coherentSetSampleCount := st.coherentSetSampleCount + 1 }, ?_, ?_⟩
  · simp [CheckState.expect, hle]
  · have hfirst : (if st.isFirstInstance i = true then st.samplesReadPerInstance + 1
        else st.samplesReadPerInstance) = (t.expectSample first i).ofFirst := by
      simp only [CheckState.isFirstInstance_iff h.isFirst, h.ofFirst, Tally.expectSample]
    exact { h with total := congrArg (· + 1) h.total, ofFirst := hfirst }

theorem expectSets (h : Tracks first st t) (i : Option Instance) :
    (t.sets + 1 ≤ 500 ∧ ∃ st', st.expect i 1 = .ok st' ∧ Tracks first st' t.expectSets) ∨
    (¬ t.sets + 1 ≤ 500 ∧ ∃ code, st.expect i 1 = .error code ∧ code ≠ .dataNotCorrect) := by
  by_cases hsets : t.sets + 1 ≤ 500
  · refine .inl ⟨hsets, { st with coherentSetsCount := st.coherentSetsCount + 1 }, ?_, ?_⟩
    · have hle : ¬ 500 < st.coherentSetsCount + 1 := by
        rw [h.sets]
        omega
      simp [CheckState.expect, hle]
    · exact { h with sets := congrArg (· + 1) h.sets }
  · have hlt : 500 < st.coherentSetsCount + 1 := by
      rw [h.sets]
      omega
    refine .inr ⟨hsets, if st.samplesReadPerInstance < 500 then .dataNotReceived
      else st.producedCode, by simp [CheckState.expect, hlt], ?_⟩
    split
    · decide
    · exact h.produced

end Tracks

/-- What a window of the loop says. -/
def ReadsEvent (py : PyUnicode) (w : Window Char) : Event → Prop
  | .sample i => w.index = 0 ∧ topicAndColor py w.text = some i
  | .readingSets => w.index = 1 ∧ topicAndColor py w.text = none ∧
      (search (lit "Reading coherent sets".toList) w.text).isSome = true

/-- The loop ends with `DATA_NOT_CORRECT` where the tally does. -/
theorem coherentSetsLoop_eq_dataNotCorrect_iff {py : PyUnicode} {expectedTotal : Nat}
    {ending : Ending} {windows : List (Window Char)} {events : List Event} {first : Instance}
    {st : CheckState} {t : Tally} (hreads : List.Forall₂ (ReadsEvent py) windows events)
    (h : Tracks first st t) (hsets : t.sets ≤ 500) (i : Option Instance) :
    coherentSetsLoop py expectedTotal ending windows i st = .dataNotCorrect ↔
      t.Fails first expectedTotal events i := by
  induction hreads generalizing st t i with
  | nil =>
      refine iff_of_false ?_ id
      cases ending with
      | timeout => exact h.produced
      | eof =>
          intro heof
          cases heof
  | @cons w e windows events hw hreads ih =>
      unfold coherentSetsLoop
      cases e with
      | sample j =>
          obtain ⟨hindex, hread⟩ := hw
          obtain ⟨st', hexpect, h'⟩ := h.expectSample hsets i
          have htext : st'.readText py expectedTotal w.text = some (st'.readSample j) := by
            rw [CheckState.readText, hread]
          rw [hindex, hexpect]
          simp only [h'.ofFirst, htext, hread, Tally.Fails]
          split
          · rename_i hlt
            rw [ih (h'.readSample j) hsets (some j)]
            exact ⟨fun hf => ⟨hlt, hf⟩, fun hf => hf.2⟩
          · rename_i hlt
            exact iff_of_false h'.produced fun hf => hlt hf.1
      | readingSets =>
          obtain ⟨hindex, hread, hsearch⟩ := hw
          rw [hindex]
          rcases h.expectSets i with ⟨hle, st', hexpect, h'⟩ | ⟨hgt, code, hexpect, hcode⟩
          · have htext : st'.readText py expectedTotal w.text =
                st'.readCoherentSets expectedTotal := by
              rw [CheckState.readText, hread]
              exact if_pos hsearch
            rw [hexpect]
            simp only [h'.ofFirst, htext, hread, Tally.Fails, hle, true_and]
            have hofFirst : t.expectSets.ofFirst = t.ofFirst := rfl
            rw [hofFirst]
            split
            · rename_i hlt
              rcases h'.readCoherentSets expectedTotal with
                ⟨hbad, hnone⟩ | ⟨hgood, st'', hsome, h''⟩
              · rw [hnone]
                exact iff_of_true rfl ⟨hlt, .inl hbad⟩
              · have hsets' : t.expectSets.close.sets ≤ 500 := by
                  unfold Tally.close
                  split <;> exact hle
                rw [hsome]
                simp only [hgood, false_or, hlt, true_and]
                exact ih h'' hsets' none
            · rename_i hlt
              exact iff_of_false h'.produced fun hf => hlt hf.1
          · rw [hexpect]
            exact iff_of_false hcode fun hf => hgt hf.1

end DdsRtps.Harness
