/-
# `DdsRtps.Harness.OrderedAccess` — by instance or by topic

`ordered_access_w_instances` of test_suite_functions.py.  Between two lines
`Reading with ordered access` each sample is compared with the one before, over
the line as well; if more of them have the same color than another, the group
shows `INSTANCE` presentation, and `TOPIC` in the opposite case.  The first
group of more than five comparisons that shows one of the two fixes the
behavior, and later ones may disagree with it, within a tolerance of 5.

The tolerance is compared before it is used up, so that it takes seven groups
that disagree: with six the check passes (`honours_tolerance_iff`).
-/
import DdsRtps.Harness.SampleChecks
import DdsRtps.Lib.EventLoop

namespace DdsRtps.Harness

open Regex
open EventLoop (Begins)

/-! ## The code -/

/-- `\w+\s+(\w+)\s+[0-9]+\s+[0-9]+\s+\[[0-9]+\]`, of `ordered_access_w_instances`. -/
def orderedSample (py : PyUnicode) : Regex Char :=
  samplePattern py (plus py.word) (plus py.space) (some 1) none

/-- The color that `ordered_access_w_instances` reads. -/
def orderedColor (py : PyUnicode) (text : List Char) : Option (List Char) :=
  (search (orderedSample py) text).bind fun m => m.group 1

/-- The behavior that so many equal and different neighbours show. -/
def behaviorOf (colorEqualCount colorDifferentCount : Nat) : Option ReturnCode :=
  if colorDifferentCount < colorEqualCount then some .orderedAccessInstance
  else if colorEqualCount < colorDifferentCount then some .orderedAccessTopic
  else none

/-- `int(0.01 * MAX_SAMPLES_READ)`. -/
def behaviorMismatchTolerance : Nat := maxSamplesRead / 100

/-- The variables of `ordered_access_w_instances`. -/
structure OrderedState where
  instanceColor : List (List Char)
  samplesReadPerInstance : Nat
  previousSampleColor : Option (List Char)
  colorDifferentCount : Nat
  colorEqualCount : Nat
  samplesPrinted : Bool
  orderedAccessGroupCount : Nat
  behaviorMismatchCount : Nat
  producedCode : ReturnCode

/-- The loop waits in an `expect`. -/
structure OrderedWaiting where
  state : OrderedState
  currentColor : Option (List Char)

namespace OrderedState

def initial : OrderedState where
  instanceColor := []
  samplesReadPerInstance := 0
  previousSampleColor := none
  colorDifferentCount := 0
  colorEqualCount := 0
  samplesPrinted := false
  orderedAccessGroupCount := 0
  behaviorMismatchCount := 0
  producedCode := .ok

/-- A sample is read. -/
def readSample (color : List Char) (st : OrderedState) : OrderedState :=
  { st with
    samplesPrinted := true
    instanceColor :=
      if color ∈ st.instanceColor then st.instanceColor else st.instanceColor ++ [color]
    colorDifferentCount :=
      if st.previousSampleColor ≠ none ∧ st.previousSampleColor ≠ some color then
        st.colorDifferentCount + 1
      else st.colorDifferentCount
    colorEqualCount :=
      if st.previousSampleColor = some color then st.colorEqualCount + 1 else st.colorEqualCount
    previousSampleColor := some color }

/-- A group ends.  `none` leaves the loop with `DATA_NOT_CORRECT`. -/
def judgeGroup (st : OrderedState) : Option OrderedState :=
  if st.samplesPrinted ∧ 5 < st.colorEqualCount + st.colorDifferentCount then
    let currentBehavior := behaviorOf st.colorEqualCount st.colorDifferentCount
    if st.producedCode ≠ .ok then
      if some st.producedCode ≠ currentBehavior then
        if behaviorMismatchTolerance < st.behaviorMismatchCount then none
        else some { st with behaviorMismatchCount := st.behaviorMismatchCount + 1 }
      else some st
    else some { st with producedCode := currentBehavior.getD .ok }
  else some st

def resetCounts (st : OrderedState) : OrderedState :=
  { st with colorEqualCount := 0, colorDifferentCount := 0 }

/-- What is done with a text. -/
def readText (py : PyUnicode) (text : List Char) (st : OrderedState) : Option OrderedState :=
  match orderedColor py text with
  | some color => some (st.readSample color)
  | none =>
      if (search (lit "Reading with ordered access".toList) text).isSome then
        st.judgeGroup.map resetCounts
      else some st

/-- The condition of the loop is tested, and the text is read. -/
def turn (py : PyUnicode) (text : List Char) (st : OrderedState) : OrderedWaiting ⊕ ReturnCode :=
  if st.samplesReadPerInstance < maxSamplesRead then
    match st.readText py text with
    | some st => .inl ⟨st, orderedColor py text⟩
    | none => .inr .dataNotCorrect
  else .inr st.producedCode

end OrderedState

/-- What a match counts. -/
def OrderedWaiting.countMatch (wait : OrderedWaiting) (index : Nat) : OrderedState :=
  if index = 0 then
    if wait.currentColor ≠ none ∧ wait.currentColor = wait.state.instanceColor.head? then
      { wait.state with samplesReadPerInstance := wait.state.samplesReadPerInstance + 1 }
    else wait.state
  else { wait.state with orderedAccessGroupCount := wait.state.orderedAccessGroupCount + 1 }

/-- An `expect` has matched. -/
def OrderedWaiting.onMatch (py : PyUnicode) (w : Window Char) (wait : OrderedWaiting) :
    OrderedWaiting ⊕ ReturnCode :=
  let st := wait.countMatch w.index
  if maxSamplesRead < st.orderedAccessGroupCount then
    .inr (if st.samplesReadPerInstance < maxSamplesRead then .dataNotReceived else st.producedCode)
  else st.turn py w.text

/-- `ordered_access_w_instances`: `text` is what the last `expect` of
`run_subscriber_shape_main` has read. -/
def orderedAccessWInstances (py : PyUnicode) (text : List Char) :
    EventLoop (Window Char) OrderedWaiting ReturnCode where
  start :=
    if basicCheck py text ≠ .ok then .inr (basicCheck py text)
    else OrderedState.initial.turn py text
  onInput w wait := wait.onMatch py w
  onTimeout wait := wait.state.producedCode
  onEof _ := .dataNotReceived

/-! ## Groups -/

/-- How many samples of a group have the color of the one before, and how many
another. -/
structure Group where
  equal : Nat
  different : Nat
deriving DecidableEq, Repr

/-- The texts so far: the color of the last sample, the group it is in and the
groups that have ended. -/
structure Comparisons where
  previous : Option (List Char)
  current : Group
  groups : List Group
deriving DecidableEq, Repr

/-- One more text. -/
def Comparisons.read (py : PyUnicode) (c : Comparisons) (text : List Char) : Comparisons :=
  match orderedColor py text with
  | some color =>
      { c with
        previous := some color
        current :=
          if c.previous = none then c.current
          else if c.previous = some color then { c.current with equal := c.current.equal + 1 }
          else { c.current with different := c.current.different + 1 } }
  | none =>
      if (search (lit "Reading with ordered access".toList) text).isSome then
        { c with current := ⟨0, 0⟩, groups := c.groups ++ [c.current] }
      else c

def comparisons (py : PyUnicode) (texts : List (List Char)) : Comparisons :=
  texts.foldl (Comparisons.read py) ⟨none, ⟨0, 0⟩, []⟩

/-- The behaviors that the groups of more than five comparisons show. -/
def behaviors (groups : List Group) : List (Option ReturnCode) :=
  (groups.filter fun g => 5 < g.equal + g.different).map fun g => behaviorOf g.equal g.different

/-- The first behavior that is shown, and the groups behind it. -/
def fixedBehavior : List (Option ReturnCode) → Option (ReturnCode × List (Option ReturnCode))
  | [] => none
  | none :: behaviors => fixedBehavior behaviors
  | some b :: later => some (b, later)

/-- How many groups disagree with a behavior. -/
def disagreeing (b : ReturnCode) (later : List (Option ReturnCode)) : Nat :=
  later.countP fun b' => b' ≠ some b

/-- How many groups of the texts disagree with the behavior fixed in them. -/
def mismatches (py : PyUnicode) (texts : List (List Char)) : Nat :=
  match fixedBehavior (behaviors (comparisons py texts).groups) with
  | some (b, later) => disagreeing b later
  | none => 0

theorem behaviorOf_cases {equal different : Nat} {b : ReturnCode}
    (h : behaviorOf equal different = some b) :
    b = .orderedAccessInstance ∨ b = .orderedAccessTopic := by
  rw [behaviorOf] at h
  split at h
  · exact .inl (Option.some.inj h).symm
  · split at h
    · exact .inr (Option.some.inj h).symm
    · cases h

theorem behaviors_concat (groups : List Group) (g : Group) :
    behaviors (groups ++ [g]) = behaviors groups ++
      if 5 < g.equal + g.different then [behaviorOf g.equal g.different] else [] := by
  rw [behaviors, List.filter_append, List.map_append, behaviors]
  congr 1
  by_cases hmany : 5 < g.equal + g.different
  · simp [hmany]
  · simp [hmany]

theorem fixedBehavior_concat (bs : List (Option ReturnCode)) (b : Option ReturnCode) :
    fixedBehavior (bs ++ [b]) =
      match fixedBehavior bs with
      | some (c, later) => some (c, later ++ [b])
      | none => b.map fun c => (c, []) := by
  induction bs with
  | nil => cases b <;> rfl
  | cons b' bs ih =>
      cases b' with
      | none => exact ih
      | some c => rfl

theorem mem_of_fixedBehavior {bs later : List (Option ReturnCode)} {b : ReturnCode}
    (h : fixedBehavior bs = some (b, later)) : some b ∈ bs := by
  induction bs with
  | nil => cases h
  | cons b' bs ih =>
      cases b' with
      | none => exact List.mem_cons_of_mem _ (ih h)
      | some c =>
          obtain ⟨rfl, -⟩ := Prod.mk.inj (Option.some.inj h)
          exact List.mem_cons_self

/-- A behavior that is fixed is one of the two. -/
theorem fixedBehavior_cases {groups : List Group} {b : ReturnCode}
    {later : List (Option ReturnCode)} (h : fixedBehavior (behaviors groups) = some (b, later)) :
    b = .orderedAccessInstance ∨ b = .orderedAccessTopic := by
  obtain ⟨g, -, hg⟩ := List.mem_map.mp (mem_of_fixedBehavior h)
  exact behaviorOf_cases hg

/-- Another group adds one to those that disagree, or none. -/
theorem disagreeing_concat (b : ReturnCode) (later : List (Option ReturnCode))
    (b' : Option ReturnCode) :
    disagreeing b (later ++ [b']) = disagreeing b later + if b' ≠ some b then 1 else 0 := by
  rw [disagreeing, List.countP_append, List.countP_singleton, disagreeing]
  simp only [decide_eq_true_eq]

theorem comparisons_append (py : PyUnicode) (texts : List (List Char)) (t : List Char) :
    comparisons py (texts ++ [t]) = (comparisons py texts).read py t := by
  rw [comparisons, List.foldl_append]
  rfl

/-! ## One text -/

/-- What the variables say of the texts so far. -/
structure OrderedState.Knows (py : PyUnicode) (texts : List (List Char)) (st : OrderedState) :
    Prop where
  previous : st.previousSampleColor = (comparisons py texts).previous
  equal : st.colorEqualCount = (comparisons py texts).current.equal
  different : st.colorDifferentCount = (comparisons py texts).current.different
  printed : 0 < st.colorEqualCount + st.colorDifferentCount → st.samplesPrinted = true
  produced : st.producedCode =
    (fixedBehavior (behaviors (comparisons py texts).groups)).elim .ok Prod.fst
  mismatch : st.behaviorMismatchCount = mismatches py texts
  tolerated : mismatches py texts ≤ 6

namespace OrderedState

variable {py : PyUnicode} {texts : List (List Char)} {st : OrderedState}

theorem knows_initial (py : PyUnicode) : initial.Knows py [] where
  previous := rfl
  equal := rfl
  different := rfl
  printed h := absurd h (lt_irrefl 0)
  produced := rfl
  mismatch := rfl
  tolerated := Nat.zero_le 6

/-- A sample does not change what was judged. -/
theorem Knows.readSample (h : st.Knows py texts) {text color : List Char}
    (hcolor : orderedColor py text = some color) :
    (st.readSample color).Knows py (texts ++ [text]) := by
  have hread : comparisons py (texts ++ [text]) = { comparisons py texts with
      previous := some color
      current :=
        if (comparisons py texts).previous = none then (comparisons py texts).current
        else if (comparisons py texts).previous = some color then
          { (comparisons py texts).current with equal := (comparisons py texts).current.equal + 1 }
        else { (comparisons py texts).current with
          different := (comparisons py texts).current.different + 1 } } := by
    rw [comparisons_append, Comparisons.read, hcolor]
  have hmismatches : mismatches py (texts ++ [text]) = mismatches py texts := by
    rw [mismatches, hread]
    rfl
  refine ⟨?_, ?_, ?_, fun _ => rfl, ?_, ?_, ?_⟩
  · rw [hread]
    rfl
  · rw [hread]
    simp only [OrderedState.readSample, h.previous, h.equal]
    by_cases hnone : (comparisons py texts).previous = none
    · simp [hnone]
    · by_cases hsame : (comparisons py texts).previous = some color
      · simp [hsame]
      · simp [hnone, hsame]
  · rw [hread]
    simp only [OrderedState.readSample, h.previous, h.different]
    by_cases hnone : (comparisons py texts).previous = none
    · simp [hnone]
    · by_cases hsame : (comparisons py texts).previous = some color
      · simp [hsame]
      · simp [hnone, hsame]
  · rw [hread]
    exact h.produced
  · rw [hmismatches]
    exact h.mismatch
  · rw [hmismatches]
    exact h.tolerated

/-- A text that says nothing changes nothing. -/
theorem Knows.other (h : st.Knows py texts) {text : List Char}
    (hcolor : orderedColor py text = none)
    (hreading : ¬(search (lit "Reading with ordered access".toList) text).isSome = true) :
    st.Knows py (texts ++ [text]) := by
  have hread : comparisons py (texts ++ [text]) = comparisons py texts := by
    rw [comparisons_append, Comparisons.read, hcolor]
    exact if_neg hreading
  have hmismatches : mismatches py (texts ++ [text]) = mismatches py texts := by
    rw [mismatches, hread, mismatches]
  constructor
  · rw [hread, h.previous]
  · rw [hread, h.equal]
  · rw [hread, h.different]
  · exact h.printed
  · rw [hread, h.produced]
  · rw [hmismatches, h.mismatch]
  · rw [hmismatches]
    exact h.tolerated

/-- The counters begin again, whatever the group that ends has changed. -/
theorem knows_resetCounts {c : Comparisons} {text : List Char}
    (hread : comparisons py (texts ++ [text]) = c) (hcurrent : c.current = ⟨0, 0⟩)
    (hprevious : st.previousSampleColor = c.previous)
    (hproduced : st.producedCode = (fixedBehavior (behaviors c.groups)).elim .ok Prod.fst)
    (hmismatch : st.behaviorMismatchCount = mismatches py (texts ++ [text]))
    (htolerated : mismatches py (texts ++ [text]) ≤ 6) :
    st.resetCounts.Knows py (texts ++ [text]) where
  previous := hread ▸ hprevious
  equal := by
    rw [hread, hcurrent]
    rfl
  different := by
    rw [hread, hcurrent]
    rfl
  printed hless := absurd hless (lt_irrefl 0)
  produced := hread ▸ hproduced
  mismatch := hmismatch
  tolerated := htolerated

section Group

variable {text : List Char} (h : st.Knows py texts) (hcolor : orderedColor py text = none)
  (hreading : (search (lit "Reading with ordered access".toList) text).isSome = true)

include hcolor hreading

variable (texts) in
theorem comparisons_group : comparisons py (texts ++ [text]) =
    { comparisons py texts with
      current := ⟨0, 0⟩
      groups := (comparisons py texts).groups ++ [(comparisons py texts).current] } := by
  rw [comparisons_append, Comparisons.read, hcolor]
  exact if_pos hreading

include h

theorem Knows.behaviors_group : behaviors (comparisons py (texts ++ [text])).groups =
    behaviors (comparisons py texts).groups ++
      if 5 < st.colorEqualCount + st.colorDifferentCount then
        [behaviorOf st.colorEqualCount st.colorDifferentCount]
      else [] := by
  rw [comparisons_group texts hcolor hreading, h.equal, h.different]
  exact behaviors_concat (comparisons py texts).groups (comparisons py texts).current

/-- A group of few comparisons is not judged. -/
theorem Knows.judgeGroup_few (hfew : ¬5 < st.colorEqualCount + st.colorDifferentCount) :
    ∃ st', st.judgeGroup = some st' ∧ st'.resetCounts.Knows py (texts ++ [text]) := by
  have hread := comparisons_group texts hcolor hreading
  have hbehaviors := h.behaviors_group hcolor hreading
  rw [if_neg hfew, List.append_nil] at hbehaviors
  have hzero : mismatches py (texts ++ [text]) = mismatches py texts := by
    rw [mismatches, mismatches, hbehaviors]
  rw [OrderedState.judgeGroup, if_neg fun hand => hfew hand.2]
  refine ⟨_, rfl, knows_resetCounts hread rfl h.previous ?_ ?_ ?_⟩
  · rw [← hread, hbehaviors]
    exact h.produced
  · rw [hzero, h.mismatch]
  · rw [hzero]
    exact h.tolerated

/-- Where no behavior is fixed yet, a group may fix it. -/
theorem Knows.judgeGroup_free (hmany : 5 < st.colorEqualCount + st.colorDifferentCount)
    (hfree : fixedBehavior (behaviors (comparisons py texts).groups) = none) :
    ∃ st', st.judgeGroup = some st' ∧ st'.resetCounts.Knows py (texts ++ [text]) := by
  have hread := comparisons_group texts hcolor hreading
  have hfixed := fixedBehavior_concat (behaviors (comparisons py texts).groups)
    (behaviorOf st.colorEqualCount st.colorDifferentCount)
  have hbehaviors := h.behaviors_group hcolor hreading
  rw [if_pos hmany] at hbehaviors
  rw [← hbehaviors, hfree] at hfixed
  have hok : st.producedCode = .ok := by
    rw [h.produced, hfree]
    rfl
  have hzero : mismatches py (texts ++ [text]) = mismatches py texts := by
    rw [mismatches, mismatches, hfixed, hfree]
    cases behaviorOf st.colorEqualCount st.colorDifferentCount with
    | none => rfl
    | some b => rfl
  rw [OrderedState.judgeGroup, if_pos ⟨h.printed (by omega), hmany⟩]
  simp only [hok, ne_eq, not_true_eq_false, if_false]
  refine ⟨_, rfl, knows_resetCounts hread rfl h.previous ?_ ?_ ?_⟩
  · rw [← hread, hfixed]
    cases behaviorOf st.colorEqualCount st.colorDifferentCount with
    | none => rfl
    | some b => rfl
  · rw [hzero, ← h.mismatch]
  · rw [hzero]
    exact h.tolerated

/-- Where one is, a group agrees with it or counts as a mismatch, of which a seventh
is not tolerated. -/
theorem Knows.judgeGroup_fixed (hmany : 5 < st.colorEqualCount + st.colorDifferentCount)
    {b : ReturnCode} {later : List (Option ReturnCode)}
    (hbefore : fixedBehavior (behaviors (comparisons py texts).groups) = some (b, later)) :
    (6 < mismatches py (texts ++ [text]) ∧ st.judgeGroup = none) ∨
      ∃ st', st.judgeGroup = some st' ∧ st'.resetCounts.Knows py (texts ++ [text]) := by
  have hread := comparisons_group texts hcolor hreading
  have hfixed := fixedBehavior_concat (behaviors (comparisons py texts).groups)
    (behaviorOf st.colorEqualCount st.colorDifferentCount)
  have hbehaviors := h.behaviors_group hcolor hreading
  rw [if_pos hmany] at hbehaviors
  rw [← hbehaviors, hbefore] at hfixed
  have hmismatch := h.mismatch
  have hb : st.producedCode = b := by
    rw [h.produced, hbefore]
    rfl
  have hne : st.producedCode ≠ .ok := by
    rcases fixedBehavior_cases hbefore with rfl | rfl
    · simp [hb]
    · simp [hb]
  have hproduced : st.producedCode =
      (fixedBehavior (behaviors (comparisons py (texts ++ [text])).groups)).elim .ok Prod.fst := by
    rw [hfixed, hb]
    rfl
  rw [hread] at hproduced
  have hmore : mismatches py (texts ++ [text]) = mismatches py texts +
      if behaviorOf st.colorEqualCount st.colorDifferentCount ≠ some b then 1 else 0 := by
    rw [mismatches, mismatches, hfixed, hbefore]
    exact disagreeing_concat b later _
  rw [OrderedState.judgeGroup, if_pos ⟨h.printed (by omega), hmany⟩]
  simp only [ne_eq, hne, not_false_eq_true, if_true]
  by_cases hagrees : behaviorOf st.colorEqualCount st.colorDifferentCount = some b
  · rw [if_neg (not_not.mpr hagrees), add_zero] at hmore
    rw [if_neg (by rw [hb, hagrees]; exact not_not.mpr rfl)]
    refine .inr ⟨_, rfl, knows_resetCounts hread rfl h.previous hproduced ?_ ?_⟩
    · rw [hmore, hmismatch]
    · rw [hmore]
      exact h.tolerated
  · rw [if_pos hagrees] at hmore
    rw [if_pos (by rw [hb]; exact Ne.symm hagrees)]
    by_cases hfull : behaviorMismatchTolerance < st.behaviorMismatchCount
    · rw [if_pos hfull]
      have hsix : 5 < st.behaviorMismatchCount := hfull
      exact .inl ⟨by omega, rfl⟩
    · rw [if_neg hfull]
      have hfew : st.behaviorMismatchCount ≤ 5 := not_lt.mp hfull
      refine .inr ⟨_, rfl, knows_resetCounts hread rfl h.previous hproduced ?_ (by omega)⟩
      rw [hmore, ← hmismatch]

/-- A group ends: it disagrees once too often, or the variables say what was read. -/
theorem Knows.judgeGroup :
    (6 < mismatches py (texts ++ [text]) ∧ st.judgeGroup = none) ∨
      ∃ st', st.judgeGroup = some st' ∧ st'.resetCounts.Knows py (texts ++ [text]) := by
  by_cases hmany : 5 < st.colorEqualCount + st.colorDifferentCount
  · cases hbefore : fixedBehavior (behaviors (comparisons py texts).groups) with
    | none => exact .inr (h.judgeGroup_free hcolor hreading hmany hbefore)
    | some fixed => exact h.judgeGroup_fixed hcolor hreading hmany hbefore
  · exact .inr (h.judgeGroup_few hcolor hreading hmany)

end Group

variable (py) in
/-- What reading a text makes of the variables. -/
theorem Knows.readText (h : st.Knows py texts) (text : List Char) :
    (6 < mismatches py (texts ++ [text]) ∧ st.readText py text = none) ∨
      ∃ st', st.readText py text = some st' ∧ st'.Knows py (texts ++ [text]) := by
  rw [OrderedState.readText]
  cases hcolor : orderedColor py text with
  | some color => exact .inr ⟨_, rfl, h.readSample hcolor⟩
  | none =>
      by_cases hreading : (search (lit "Reading with ordered access".toList) text).isSome = true
      · simp only [hreading, if_true]
        rcases h.judgeGroup hcolor hreading with ⟨hsix, hnone⟩ | ⟨st', hsome, hknows⟩
        · exact .inl ⟨hsix, by rw [hnone]; rfl⟩
        · exact .inr ⟨_, by rw [hsome]; rfl, hknows⟩
      · simp only [hreading]
        exact .inr ⟨_, rfl, h.other hcolor hreading⟩

/-- What reading a text leaves as it is, and which instance is the first. -/
theorem readText_frame {text : List Char} {st st' : OrderedState}
    (h : st.readText py text = some st') :
    st'.samplesReadPerInstance = st.samplesReadPerInstance ∧
      st'.orderedAccessGroupCount = st.orderedAccessGroupCount ∧
      st'.instanceColor.head? = st.instanceColor.head?.or (orderedColor py text) := by
  rw [OrderedState.readText] at h
  cases hcolor : orderedColor py text with
  | some color =>
      rw [hcolor] at h
      obtain rfl := Option.some.inj h
      refine ⟨rfl, rfl, ?_⟩
      simp only [OrderedState.readSample]
      cases hcolors : st.instanceColor with
      | nil => rfl
      | cons first rest => split <;> rfl
  | none =>
      simp only [hcolor] at h
      rw [Option.or_none]
      have hjudge : ∀ {st' : OrderedState}, st.judgeGroup = some st' →
          st'.samplesReadPerInstance = st.samplesReadPerInstance ∧
            st'.orderedAccessGroupCount = st.orderedAccessGroupCount ∧
            st'.instanceColor.head? = st.instanceColor.head? := by
        intro st' hjudged
        rw [OrderedState.judgeGroup] at hjudged
        dsimp only at hjudged
        split_ifs at hjudged <;> obtain rfl := Option.some.inj hjudged <;> exact ⟨rfl, rfl, rfl⟩
      split at h
      · obtain ⟨st'', hjudged, rfl⟩ := Option.map_eq_some_iff.mp h
        obtain ⟨hcount, hlines, hfirst⟩ := hjudge hjudged
        exact ⟨hcount, hlines, hfirst⟩
      · obtain rfl := Option.some.inj h
        exact ⟨rfl, rfl, rfl⟩

end OrderedState

/-! ## A run -/

section Run

variable {py : PyUnicode} {text : List Char} {events : Nat → Arrival (Window Char)}

/-- Where `basic_check` passes, there is a first instance. -/
theorem exists_orderedColor (hbasic : basicCheck py text = .ok) :
    ∃ color, orderedColor py text = some color := by
  obtain ⟨m, color, hm, hcolor⟩ := exists_color_of_basicCheck hbasic none
  refine ⟨color, ?_⟩
  rw [orderedColor, orderedSample, hm, Option.bind_some, hcolor]

/-- Fewer than 500 samples of the first instance are counted, no more than 500 lines
were matched and no more than six groups disagree. -/
structure Going (py : PyUnicode) (text : List Char) (windows : List (Window Char)) : Prop where
  count : countedAs (orderedColor py) text windows < 500
  lines : groupLines windows ≤ 500
  mismatches : mismatches py (textsOf text windows) ≤ 6

/-- The loop waits, and its variables say what was read. -/
structure OrderedWaiting.Tracks (py : PyUnicode) (text : List Char) (windows : List (Window Char))
    (wait : OrderedWaiting) : Prop where
  knows : wait.state.Knows py (textsOf text windows)
  count : wait.state.samplesReadPerInstance = countedAs (orderedColor py) text windows
  lines : wait.state.orderedAccessGroupCount = groupLines windows
  first : wait.state.instanceColor.head? = orderedColor py text
  color : wait.currentColor = orderedColor py (lastText text windows)

/-- A match is counted, and nothing else is changed. -/
theorem OrderedWaiting.Tracks.countMatch {windows : List (Window Char)} {wait : OrderedWaiting}
    (h : wait.Tracks py text windows) (w : Window Char) :
    (wait.countMatch w.index).Knows py (textsOf text windows) ∧
      (wait.countMatch w.index).samplesReadPerInstance =
        countedAs (orderedColor py) text (windows ++ [w]) ∧
      (wait.countMatch w.index).orderedAccessGroupCount = groupLines (windows ++ [w]) ∧
      (wait.countMatch w.index).instanceColor.head? = orderedColor py text := by
  have hknows := h.knows
  rw [countedAs_append, groupLines_append, ← h.count, ← h.lines, ← h.color, ← h.first,
    OrderedWaiting.countMatch]
  by_cases hindex : w.index = 0
  · by_cases hfirst : wait.currentColor ≠ none ∧
        wait.currentColor = wait.state.instanceColor.head?
    · rw [if_pos hindex, if_pos hfirst, if_pos ⟨hindex, hfirst⟩, if_neg (not_not.mpr hindex)]
      exact ⟨⟨hknows.previous, hknows.equal, hknows.different, hknows.printed, hknows.produced,
        hknows.mismatch, hknows.tolerated⟩, rfl, rfl, rfl⟩
    · rw [if_pos hindex, if_neg hfirst, if_neg fun h => hfirst h.2, if_neg (not_not.mpr hindex)]
      exact ⟨hknows, rfl, rfl, rfl⟩
  · rw [if_neg hindex, if_neg fun h => hindex h.1, if_pos hindex]
    exact ⟨⟨hknows.previous, hknows.equal, hknows.different, hknows.printed, hknows.produced,
      hknows.mismatch, hknows.tolerated⟩, rfl, rfl, rfl⟩

/-- A match makes the loop wait again, or it returns: too many lines, enough samples or
too many groups that disagree. -/
theorem OrderedWaiting.Tracks.onMatch_cases {windows : List (Window Char)} {wait : OrderedWaiting}
    (h : wait.Tracks py text windows) (hbasic : basicCheck py text = .ok) (w : Window Char) :
    (500 < groupLines (windows ++ [w]) ∧ ∃ code, wait.onMatch py w = .inr code) ∨
      (groupLines (windows ++ [w]) ≤ 500 ∧
        500 ≤ countedAs (orderedColor py) text (windows ++ [w]) ∧
        wait.onMatch py w = .inr wait.state.producedCode) ∨
      (groupLines (windows ++ [w]) ≤ 500 ∧
        countedAs (orderedColor py) text (windows ++ [w]) < 500 ∧
        6 < mismatches py (textsOf text (windows ++ [w])) ∧
        wait.onMatch py w = .inr .dataNotCorrect) ∨
      Going py text (windows ++ [w]) ∧
        ∃ wait', wait.onMatch py w = .inl wait' ∧ wait'.Tracks py text (windows ++ [w]) := by
  obtain ⟨hknows, hcount, hlines, hfirst⟩ := h.countMatch w
  have hproduced : (wait.countMatch w.index).producedCode = wait.state.producedCode := by
    rw [hknows.produced, h.knows.produced]
  rw [← hcount, ← hlines, OrderedWaiting.onMatch, OrderedState.turn]
  by_cases hmany : maxSamplesRead < (wait.countMatch w.index).orderedAccessGroupCount
  · exact .inl ⟨hmany, _, if_pos hmany⟩
  · simp only [hmany, if_false]
    have hle : (wait.countMatch w.index).orderedAccessGroupCount ≤ 500 := not_lt.mp hmany
    by_cases hless : (wait.countMatch w.index).samplesReadPerInstance < maxSamplesRead
    · simp only [hless, if_true]
      rw [textsOf_append]
      rcases hknows.readText py w.text with ⟨hsix, hnone⟩ | ⟨st', hsome, hknows'⟩
      · exact .inr (.inr (.inl ⟨hle, hless, hsix, by rw [hnone]⟩))
      · obtain ⟨hcount', hlines', hfirst'⟩ := OrderedState.readText_frame hsome
        rw [← textsOf_append] at hknows'
        refine .inr (.inr (.inr ⟨⟨hcount ▸ hless, hlines ▸ hle, hknows'.tolerated⟩, _,
          by rw [hsome], hknows', ?_, ?_, ?_, ?_⟩))
        · rw [hcount', hcount]
        · rw [hlines', hlines]
        · obtain ⟨color, hcolor⟩ := exists_orderedColor hbasic
          rw [hfirst', hfirst, hcolor, Option.some_or]
        · rw [lastText, List.map_append, List.map_singleton, List.getLastD_concat]
    · refine .inr (.inl ⟨hle, not_lt.mp hless, ?_⟩)
      rw [if_neg hless, hproduced]

theorem mismatches_le_append (texts : List (List Char)) (t : List Char) :
    mismatches py texts ≤ mismatches py (texts ++ [t]) := by
  rw [mismatches, mismatches, comparisons_append, Comparisons.read]
  cases orderedColor py t with
  | some color => exact le_rfl
  | none =>
      by_cases hreading : (search (lit "Reading with ordered access".toList) t).isSome = true
      · simp only [hreading, if_true, behaviors_concat]
        split_ifs
        · rw [fixedBehavior_concat]
          cases fixedBehavior (behaviors (comparisons py texts).groups) with
          | none => exact Nat.zero_le _
          | some fixed =>
              simp only [disagreeing_concat]
              omega
        · rw [List.append_nil]
      · simp only [hreading]
        exact le_rfl

theorem Going.of_append {windows : List (Window Char)} {w : Window Char}
    (h : Going py text (windows ++ [w])) : Going py text windows := by
  obtain ⟨hcount, hlines, hmismatches⟩ := h
  rw [countedAs_append] at hcount
  rw [groupLines_append] at hlines
  rw [textsOf_append] at hmismatches
  exact ⟨by omega, by omega, (mismatches_le_append _ _).trans hmismatches⟩

/-- The loop waits as long as nothing is decided. -/
theorem Going.waits (hbasic : basicCheck py text = .ok) {windows : List (Window Char)}
    (h : Going py text windows) :
    ∃ wait, (orderedAccessWInstances py text).after windows = .inl wait ∧
      wait.Tracks py text windows := by
  induction windows using List.reverseRecOn with
  | nil =>
      obtain ⟨color, hcolor⟩ := exists_orderedColor hbasic
      have hstart : (orderedAccessWInstances py text).start =
          .inl ⟨OrderedState.initial.readSample color, some color⟩ := by
        simp [orderedAccessWInstances, hbasic, OrderedState.turn, OrderedState.initial,
          maxSamplesRead, OrderedState.readText, hcolor]
      refine ⟨_, (EventLoop.after_nil _).trans hstart, ?_, rfl, rfl, ?_, ?_⟩
      · exact (OrderedState.knows_initial py).readSample hcolor
      · exact hcolor.symm
      · exact hcolor.symm
  | append_singleton windows w ih =>
      obtain ⟨wait, hwait, htracks⟩ := ih h.of_append
      rw [EventLoop.after_concat, hwait]
      rcases htracks.onMatch_cases hbasic w with ⟨hmany, -⟩ | ⟨-, hfull, -⟩ | ⟨-, -, hsix, -⟩ |
        ⟨-, wait', hmatch, htracks'⟩
      · exact absurd h.lines (not_le.mpr hmany)
      · exact absurd h.count (not_lt.mpr hfull)
      · exact absurd h.mismatches (not_le.mpr hsix)
      · exact ⟨wait', hmatch, htracks'⟩

/-! ## Where the loop ends -/

/-- What the loop has read when it ends, neither by `EOF` nor by the exit on too many
lines: the stream times out, the 500th sample is counted, or a group disagrees once
too often. -/
inductive EndsAt (py : PyUnicode) (text : List Char) (events : Nat → Arrival (Window Char)) :
    List (List Char) → Prop
  | timeout {windows : List (Window Char)} : Begins events windows → Going py text windows →
      events windows.length = .timeout → EndsAt py text events (textsOf text windows)
  | full {windows : List (Window Char)} {w : Window Char} : Begins events (windows ++ [w]) →
      Going py text windows → groupLines (windows ++ [w]) ≤ 500 →
      500 ≤ countedAs (orderedColor py) text (windows ++ [w]) →
      EndsAt py text events (textsOf text windows)
  | mismatch {windows : List (Window Char)} {w : Window Char} : Begins events (windows ++ [w]) →
      Going py text windows → groupLines (windows ++ [w]) ≤ 500 →
      countedAs (orderedColor py) text (windows ++ [w]) < 500 →
      6 < mismatches py (textsOf text (windows ++ [w])) →
      EndsAt py text events (textsOf text (windows ++ [w]))

/-- What is answered, once a behavior is fixed. -/
theorem EndsAt.returns (hbasic : basicCheck py text = .ok) {texts : List (List Char)}
    (h : EndsAt py text events texts) {b : ReturnCode} {later : List (Option ReturnCode)}
    (hfixed : fixedBehavior (behaviors (comparisons py texts).groups) = some (b, later)) :
    (orderedAccessWInstances py text).Returns events
      (if 6 < disagreeing b later then .dataNotCorrect else b) := by
  have hmismatches : mismatches py texts = disagreeing b later := by
    rw [mismatches, hfixed]
  have hproduced : ∀ {st : OrderedState}, st.Knows py texts → st.producedCode = b := by
    intro st hknows
    rw [hknows.produced, hfixed]
    rfl
  cases h with
  | timeout hbegins hgoing hstop =>
      obtain ⟨wait, hwait, htracks⟩ := hgoing.waits hbasic
      rw [if_neg (not_lt.mpr (hmismatches ▸ hgoing.mismatches)), ← hproduced htracks.knows]
      exact .timeout hbegins hwait hstop
  | @full windows w hbegins hgoing hlines hfull =>
      obtain ⟨wait, hwait, htracks⟩ := hgoing.waits hbasic
      rw [if_neg (not_lt.mpr (hmismatches ▸ hgoing.mismatches)), ← hproduced htracks.knows]
      refine .of_after hbegins ?_
      rw [EventLoop.after_concat, hwait]
      rcases htracks.onMatch_cases hbasic w with
        ⟨hmany, -⟩ | ⟨-, -, hmatch⟩ | ⟨-, hless, -⟩ | ⟨hmore, -⟩
      · exact absurd hlines (not_le.mpr hmany)
      · exact hmatch
      · exact absurd hfull (not_le.mpr hless)
      · exact absurd hfull (not_le.mpr hmore.count)
  | @mismatch windows w hbegins hgoing hlines hless hsix =>
      obtain ⟨wait, hwait, htracks⟩ := hgoing.waits hbasic
      rw [if_pos (hmismatches ▸ hsix)]
      refine .of_after hbegins ?_
      rw [EventLoop.after_concat, hwait]
      rcases htracks.onMatch_cases hbasic w with
        ⟨hmany, -⟩ | ⟨-, hfull, -⟩ | ⟨-, -, -, hmatch⟩ | ⟨hmore, -⟩
      · exact absurd hlines (not_le.mpr hmany)
      · exact absurd hfull (not_le.mpr hless)
      · exact hmatch
      · exact absurd hsix (not_lt.mpr hmore.mismatches)

/-- **When the tolerance is honoured**: unless six groups disagree, no more and no less. -/
theorem honours_tolerance_iff (hbasic : basicCheck py text = .ok) {texts : List (List Char)}
    (hend : EndsAt py text events texts) {b : ReturnCode} {later : List (Option ReturnCode)}
    (hfixed : fixedBehavior (behaviors (comparisons py texts).groups) = some (b, later)) :
    (orderedAccessWInstances py text).Returns events
        (if 5 < disagreeing b later then .dataNotCorrect else b) ↔
      disagreeing b later ≠ 6 := by
  have hreturns := hend.returns hbasic hfixed
  constructor
  · intro h hsix
    have heq := h.unique hreturns
    rw [hsix, if_pos (by omega), if_neg (by omega)] at heq
    rcases fixedBehavior_cases hfixed with rfl | rfl
    · cases heq
    · cases heq
  · intro hne
    by_cases hmany : 6 < disagreeing b later
    · rw [if_pos (by omega)]
      rwa [if_pos hmany] at hreturns
    · rw [if_neg (by omega)]
      rwa [if_neg hmany] at hreturns

end Run

/-! ## Six groups that disagree -/

/-- The match of a line `Reading with ordered access`. -/
def readingMatch : Window Char := ⟨1, [], "Reading with ordered access\n".toList⟩

/-- A red group, and six in which red and blue alternate. -/
def sixGroups : List (Window Char) :=
  List.replicate 7 (sampleMatch "RED" 1) ++ readingMatch ::
    (List.replicate 6 ((List.replicate 3 [sampleMatch "BLUE" 1, sampleMatch "RED" 1]).flatten ++
      [readingMatch])).flatten

/-- They are read, and nothing comes behind them. -/
def sixGroupsStream : Nat → Arrival (Window Char) := EventLoop.streamOf sixGroups .timeout

theorem fixedBehavior_sixGroups :
    fixedBehavior (behaviors
      (comparisons .ascii (textsOf (sampleMatch "RED" 1).text sixGroups)).groups) =
        some (.orderedAccessInstance, List.replicate 6 (some .orderedAccessTopic)) := by
  decide +kernel

theorem endsAt_sixGroups :
    EndsAt .ascii (sampleMatch "RED" 1).text sixGroupsStream
      (textsOf (sampleMatch "RED" 1).text sixGroups) := by
  refine .timeout (EventLoop.begins_streamOf _ _) ⟨?_, ?_, ?_⟩ (EventLoop.streamOf_length _ _)
  · decide +kernel
  · decide +kernel
  · rw [mismatches, fixedBehavior_sixGroups]
    decide

theorem honours_tolerance_iff_sixGroups :
    (orderedAccessWInstances .ascii (sampleMatch "RED" 1).text).Returns sixGroupsStream
        (if 5 < disagreeing .orderedAccessInstance (List.replicate 6 (some .orderedAccessTopic)) then
          .dataNotCorrect else .orderedAccessInstance) ↔
      disagreeing .orderedAccessInstance (List.replicate 6 (some .orderedAccessTopic)) ≠ 6 :=
  honours_tolerance_iff basicCheck_sampleMatch_red endsAt_sixGroups fixedBehavior_sixGroups

/-- The check passes with six groups that disagree. -/
theorem not_honours_tolerance :
    ¬ ∀ (py : PyUnicode) (text : List Char) (events : Nat → Arrival (Window Char))
      (texts : List (List Char)) (b : ReturnCode) (later : List (Option ReturnCode)),
      basicCheck py text = .ok → EndsAt py text events texts →
        fixedBehavior (behaviors (comparisons py texts).groups) = some (b, later) →
        (orderedAccessWInstances py text).Returns events
          (if 5 < disagreeing b later then .dataNotCorrect else b) := by
  intro hall
  have hclaimed := hall _ _ _ _ _ _ basicCheck_sampleMatch_red endsAt_sixGroups
    fixedBehavior_sixGroups
  have hreturns := endsAt_sixGroups.returns basicCheck_sampleMatch_red fixedBehavior_sixGroups
  have heq := hclaimed.unique hreturns
  revert heq
  decide

end DdsRtps.Harness
