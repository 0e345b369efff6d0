/-
# `DdsRtps.Harness.CheckFunctions` — the checks, with what can raise

The check functions of test_suite_functions.py once more, as they stand: with
the lists that the source keeps side by side, and with the operations that
raise if something is not there.

    child_sub.before + child_sub.after   TypeError      behind a time-out or the end
    sub_string.group(1)                  AttributeError without a match
    int(...)                             ValueError     of no number
    instance_color[0], topics.keys()[0]  IndexError     of an empty list
    instance_color.index(color)          ValueError     of a color not in it
    topics[topic_name]                   KeyError       of a topic not in it

A function is cut in three (`CheckFunction`): what it does before its loop, and
the body of the loop before and behind the `expect`.
-/
import DdsRtps.Harness.CoherentEvidence
import DdsRtps.Harness.FinalStates
import DdsRtps.Harness.OrderedAccess
import DdsRtps.Harness.Receivers
import DdsRtps.Lib.PyAccess
import DdsRtps.Lib.RaisingLoop

namespace DdsRtps.Harness.Raising

open Regex
open PyUnicode (digit)

/-! ## What can raise -/

/-- What the last `expect` has left in `child_sub`. -/
abbrev Child := Arrival (Window Char)

/-- `child_sub.before + child_sub.after`: behind a time-out or the end, `after` is a class. -/
def beforeAndAfter : Child → Except PyError (List Char)
  | .input w => .ok w.text
  | .timeout | .eof => .error .typeError

/-- `sub_string.group(n)`. -/
def group (subString : Option (Found Char)) (n : Nat) : Except PyError (List Char) :=
  match subString with
  | none => .error .attributeError
  | some m =>
      match m.group n with
      | some text => .ok text
      | none => .error .indexError

/-- `int(text)`. -/
def int (text : List Char) : Except PyError Nat :=
  if text ≠ [] ∧ text.all digit = true then .ok (pyInt text) else .error .valueError

/-- `basic_check`. -/
def basicCheck (py : PyUnicode) (child : Child) : Except PyError ReturnCode := do
  let subString := search (basicSample py) (← beforeAndAfter child)
  if subString.isNone then return .dataNotReceived
  else if (← int (← group subString 1)) = 0 then return .dataNotCorrect
  else return .ok

/-- A check function: `.inr` is its `return`. -/
structure CheckFunction (σ ω : Type) where
  /-- From `basic_check` to the loop. -/
  enter : Child → Except PyError (σ ⊕ ReturnCode)
  /-- From the condition of the loop to the `expect`. -/
  head : Child → σ → Except PyError (ω ⊕ ReturnCode)
  /-- From the `expect` to the end of the body. -/
  tail : Child → ω → Except PyError (σ ⊕ ReturnCode)

/-- What comes next, unless the function has returned. -/
def andThen {σ ω : Type} (next : σ → Except PyError (ω ⊕ ReturnCode)) :
    σ ⊕ ReturnCode → Except PyError (ω ⊕ ReturnCode)
  | .inl st => next st
  | .inr code => .ok (.inr code)

/-- The function from its first line: `first` is what the last `expect` of
`run_subscriber_shape_main` has matched. -/
def CheckFunction.loop {σ ω : Type} (f : CheckFunction σ ω) (py : PyUnicode)
    (first : Window Char) : RaisingLoop PyError (Window Char) ω ReturnCode where
  start := do
    let retcode ← basicCheck py (.input first)
    if retcode ≠ .ok then return .inr retcode
    else f.enter (.input first) >>= andThen (f.head (.input first))
  onArrival child wait := f.tail child wait >>= andThen (f.head child)

/-! ## One value after the other -/

/-- `test_size_receivers`. -/
def testSizeReceivers (py : PyUnicode) :
    CheckFunction (Option (Found Char) × Receiving SizeKept) (Receiving SizeKept) where
  enter child := do
    let subString := search (basicSample py) (← beforeAndAfter child)
    if subString.isNone then return .inr .dataNotReceived
    else return .inl (subString, ⟨0, ← int (← group subString 1), true⟩)
  head _ st := do
    let (subString, st) := st
    if subString.isSome ∧ st.samplesRead < maxSamplesRead then
      let currentSampleSize ← int (← group subString 1)
      if currentSampleSize ≠ st.kept.firstSampleSize then
        if st.kept.ignoreFirstSamples then
          return .inl { st with kept := ⟨currentSampleSize, false⟩ }
        else return .inr .receivingFromBoth
      else return .inl st
    else return .inr .receivingFromOne
  tail child st :=
    match child with
    | .timeout => .ok (.inr .receivingFromOne)
    | .eof => .ok (.inr .dataNotReceived)
    | .input _ => do
        return .inl (search (basicSample py) (← beforeAndAfter child),
          { st with samplesRead := st.samplesRead + 1 })

/-- `test_color_receivers`. -/
def testColorReceivers (py : PyUnicode) :
    CheckFunction (Option (Found Char) × Receiving (List Char)) (Receiving (List Char)) where
  enter child := do
    let subString := search (colorSample py) (← beforeAndAfter child)
    return .inl (subString, ⟨0, ← group subString 1⟩)
  head _ st := do
    let (subString, st) := st
    if subString.isSome ∧ st.samplesRead < maxSamplesRead then
      if (← group subString 1) ≠ st.kept then return .inr .receivingFromBoth
      else return .inl st
    else return .inr .receivingFromOne
  tail child st :=
    match child with
    | .timeout => .ok (.inr .receivingFromOne)
    | .eof => .ok (.inr .dataNotReceived)
    | .input _ => do
        return .inl (search (colorSample py) (← beforeAndAfter child),
          { st with samplesRead := st.samplesRead + 1 })

/-- `[0-9]+ [0-9]+ \[([0-9]+)\]`, of `test_size_less_than_20`. -/
def sizeSample : Regex Char :=
  cat [plus digit, lit [' '], plus digit, lit [' ', '['], .group 1 (plus digit), lit [']']]

/-- `test_size_less_than_20`. -/
def testSizeLessThan20 : CheckFunction (Option (Found Char) × Nat) Nat where
  enter child := do return .inl (search sizeSample (← beforeAndAfter child), 0)
  head _ st := do
    let (subString, samplesRead) := st
    if subString.isSome ∧ samplesRead < maxSamplesRead / 2 then
      let size ← int (← group subString 1)
      if size < 1 ∨ 20 < size then return .inr .dataNotCorrect
      else return .inl samplesRead
    else return .inr .ok
  tail child samplesRead :=
    match child with
    | .timeout | .eof => .ok (.inr .dataNotReceived)
    | .input _ => do return .inl (search sizeSample (← beforeAndAfter child), samplesRead + 1)

/-! ## Instance by instance -/

/-- The variables of the checks by instance: `columns` are the lists besides
`instance_color`. -/
structure ListState (κ : Type) where
  instanceColor : List (List Char)
  columns : κ
  samplesReadPerInstance : Nat
  producedCode : ReturnCode
  lifespanExpirationObserved : Bool

/-- What one of these checks does: the samples it reads at most, its empty lists, what it
appends to them for a new instance, how it judges a sample of the instance with an
index, and its verdict behind the loop. -/
structure ListCheck (κ : Type) where
  limit : Nat
  empty : κ
  append : Option (Found Char) → κ → Except PyError κ
  judge : Option (Found Char) → Nat → κ → Except PyError (Judgement κ)
  verdict : ListState κ → ReturnCode

namespace ListCheck

variable {κ : Type} (check : ListCheck κ)

/-- `if sub_string.group(1) not in instance_color`. -/
def addInstance (subString : Option (Found Char)) (st : ListState κ) :
    Except PyError (ListState κ) := do
  let color ← group subString 1
  if color ∈ st.instanceColor then return st
  else
    return { st with
      instanceColor := st.instanceColor ++ [color]
      columns := ← check.append subString st.columns }

/-- `if sub_string.group(1) in instance_color`. -/
def judgeSample (subString : Option (Found Char)) (st : ListState κ) :
    Except PyError (ListState κ ⊕ ReturnCode) := do
  let color ← group subString 1
  if color ∈ st.instanceColor then
    let index ← PyList.index st.instanceColor color
    match ← check.judge subString index st.columns with
    | .wrong => return .inr (check.verdict { st with producedCode := .dataNotCorrect })
    | .right columns => return .inl { st with columns := columns }
    | .expired columns =>
        return .inl { st with
          columns := columns
          producedCode := .ok
          lifespanExpirationObserved := true }
  else return .inr (check.verdict { st with producedCode := .dataNotCorrect })

/-- The check: it waits with its variables and `sub_string`. -/
def function (py : PyUnicode) :
    CheckFunction (ListState κ) (ListState κ × Option (Found Char)) where
  enter _ := .ok (.inl ⟨[], check.empty, 0, .dataNotReceived, false⟩)
  head child st := do
    if st.samplesReadPerInstance < check.limit then
      let subString := search (instanceSample py) (← beforeAndAfter child)
      if subString.isSome then
        check.addInstance subString st >>= check.judgeSample subString >>=
          andThen fun st => .ok (.inl (st, subString))
      else return .inl (st, subString)
    else return .inr (check.verdict st)
  tail child wait :=
    match child with
    | .timeout => .ok (.inr (check.verdict wait.1))
    | .eof => .ok (.inr .dataNotReceived)
    | .input w => do
        let (st, subString) := wait
        if w.index = 0 ∧ subString.isSome then
          if (← group subString 1) = (← PyList.item st.instanceColor 0) then
            return .inl { st with samplesReadPerInstance := st.samplesReadPerInstance + 1 }
          else return .inl st
        else return .inl st

end ListCheck

/-- The lists of the first two checks. -/
structure SeqNums where
  instanceSeqNum : List Nat
  firstIteration : List Bool

/-- `test_order_w_instances`. -/
def testOrderWInstances : ListCheck SeqNums where
  limit := maxSamplesRead
  empty := ⟨[], []⟩
  append subString lists := do
    return ⟨lists.instanceSeqNum ++ [← int (← group subString 2)],
      lists.firstIteration ++ [true]⟩
  judge subString index lists := do
    if ← PyList.item lists.firstIteration index then
      return .right { lists with
        firstIteration := ← PyList.setItem lists.firstIteration index false }
    else
      let currentSize ← int (← group subString 2)
      if (← PyList.item lists.instanceSeqNum index) < currentSize then
        return .right { lists with
          instanceSeqNum := ← PyList.setItem lists.instanceSeqNum index currentSize }
      else return .wrong
  verdict st :=
    if maxSamplesRead = st.samplesReadPerInstance then .ok else st.producedCode

/-- `test_reliability_no_losses_w_instances`. -/
def testReliabilityNoLossesWInstances : ListCheck SeqNums where
  limit := maxSamplesRead
  empty := ⟨[], []⟩
  append subString lists := do
    return ⟨lists.instanceSeqNum ++ [← int (← group subString 2)],
      lists.firstIteration ++ [true]⟩
  judge subString index lists := do
    if ← PyList.item lists.firstIteration index then
      return .right { lists with
        firstIteration := ← PyList.setItem lists.firstIteration index false }
    else
      let instanceSeqNum ← PyList.setItem lists.instanceSeqNum index
        ((← PyList.item lists.instanceSeqNum index) + 1)
      if (← PyList.item instanceSeqNum index) ≠ (← int (← group subString 2)) then return .wrong
      else return .right { lists with instanceSeqNum := instanceSeqNum }
  verdict st :=
    if maxSamplesRead = st.samplesReadPerInstance then .ok else st.producedCode

/-- The lists of the third check. -/
structure TenthSamples where
  instanceSeqNum : List Nat
  firstIteration : List Bool
  ignoreFirstSample : List Bool
  missedSamples : List Nat

/-- `test_reading_1_sample_every_10_samples_w_instances`. -/
def testReading1SampleEvery10SamplesWInstances : ListCheck TenthSamples where
  limit := maxSamplesRead / 10
  empty := ⟨[], [], [], []⟩
  append subString lists := do
    return ⟨lists.instanceSeqNum ++ [← int (← group subString 2)],
      lists.firstIteration ++ [true], lists.ignoreFirstSample ++ [true],
      lists.missedSamples ++ [0]⟩
  judge subString index lists := do
    if ← PyList.item lists.firstIteration index then
      return .right { lists with
        firstIteration := ← PyList.setItem lists.firstIteration index false }
    else
      let currentSeqNum ← int (← group subString 2)
      if ← PyList.item lists.ignoreFirstSample index then
        return .right { lists with
          ignoreFirstSample := ← PyList.setItem lists.ignoreFirstSample index false
          instanceSeqNum := ← PyList.setItem lists.instanceSeqNum index currentSeqNum }
      else
        let gap : Int := currentSeqNum - (← PyList.item lists.instanceSeqNum index)
        if gap < 9 then return .wrong
        else
          let missedSamples ← PyList.setItem lists.missedSamples index
            ((← PyList.item lists.missedSamples index) + missedInGap gap)
          -- `max_samples_received * 0.1`
          if 5 < (← PyList.item missedSamples index) then return .wrong
          else
            return .right { lists with
              missedSamples := missedSamples
              instanceSeqNum := ← PyList.setItem lists.instanceSeqNum index currentSeqNum }
  verdict st :=
    -- `max_samples_received * 0.9`
    if 45 ≤ st.samplesReadPerInstance then .ok else st.producedCode

/-- The lists of the fourth check. -/
structure Lifespans where
  previousSeqNum : List Nat
  firstIteration : List Bool
  consecutiveSamples : List Nat
  ignoreFirstSample : List Bool

/-- What the fourth check does up to `previous_seq_num[index] = ...`. -/
def Lifespans.judge (subString : Option (Found Char)) (index : Nat) (lists : Lifespans) :
    Except PyError (Judgement Lifespans) := do
  if ← PyList.item lists.firstIteration index then
    return .right { lists with
      firstIteration := ← PyList.setItem lists.firstIteration index false }
  else if (← PyList.item lists.previousSeqNum index) + 1 = (← int (← group subString 2)) then
    return .right { lists with
      consecutiveSamples := ← PyList.setItem lists.consecutiveSamples index
        ((← PyList.item lists.consecutiveSamples index) + 1)
      ignoreFirstSample := ← PyList.setItem lists.ignoreFirstSample index false }
  else if (← PyList.item lists.consecutiveSamples index) = 3 ∨
      (← PyList.item lists.consecutiveSamples index) = 2 then
    return .expired { lists with
      consecutiveSamples := ← PyList.setItem lists.consecutiveSamples index 1 }
  else if ← PyList.item lists.ignoreFirstSample index then
    return .right { lists with
      ignoreFirstSample := ← PyList.setItem lists.ignoreFirstSample index false }
  else return .wrong

/-- `test_lifespan_2_3_consecutive_samples_w_instances`. -/
def testLifespan23ConsecutiveSamplesWInstances : ListCheck Lifespans where
  limit := maxSamplesRead / 10
  empty := ⟨[], [], [], []⟩
  append subString lists := do
    return ⟨lists.previousSeqNum ++ [← int (← group subString 2)],
      lists.firstIteration ++ [true], lists.consecutiveSamples ++ [1],
      lists.ignoreFirstSample ++ [true]⟩
  judge subString index lists := do
    match ← lists.judge subString index with
    | .wrong => return .wrong
    | .right lists =>
        return .right { lists with
          previousSeqNum := ← PyList.setItem lists.previousSeqNum index
            (← int (← group subString 2)) }
    | .expired lists =>
        return .expired { lists with
          previousSeqNum := ← PyList.setItem lists.previousSeqNum index
            (← int (← group subString 2)) }
  verdict st :=
    if maxSamplesRead / 10 = st.samplesReadPerInstance then
      if st.lifespanExpirationObserved then .ok else .dataNotCorrect
    else st.producedCode

/-! ## Final states, groups and sets -/

/-- `test_unregistering_w_instances` and `test_disposing_w_instances`. -/
def finalStates (py : PyUnicode) (state : String) :
    CheckFunction FinalStates (FinalStates × Option (Found Char)) where
  enter _ := .ok (.inl ⟨[], [], 0⟩)
  head child st := do
    if st.samplesReadPerInstance < maxSamplesRead then
      let subString := search (instanceSample py) (← beforeAndAfter child)
      if subString.isSome then
        let color ← group subString 1
        return .inl ({ st with instanceColor := addColor color st.instanceColor }, subString)
      else
        let subString := search (instanceState py state) (← beforeAndAfter child)
        if subString.isSome then
          let color ← group subString 1
          if color ∈ st.finalInstanceColor then return .inl (st, subString)
          else
            let st := { st with finalInstanceColor := st.finalInstanceColor ++ [color] }
            if st.instanceColor.length = st.finalInstanceColor.length then
              return .inr st.verdict
            else return .inl (st, subString)
        else return .inl (st, subString)
    else return .inr st.verdict
  tail child wait :=
    match child with
    | .timeout => .ok (.inr wait.1.verdict)
    | .eof => .ok (.inr .dataNotReceived)
    | .input w => do
        let (st, subString) := wait
        if w.index = 0 ∧ subString.isSome then
          if (← group subString 1) = (← PyList.item st.instanceColor 0) then
            return .inl { st with samplesReadPerInstance := st.samplesReadPerInstance + 1 }
          else return .inl st
        else return .inl st

/-- `test_unregistering_w_instances`. -/
def testUnregisteringWInstances (py : PyUnicode) :
    CheckFunction FinalStates (FinalStates × Option (Found Char)) :=
  finalStates py noWriters

/-- `test_disposing_w_instances`. -/
def testDisposingWInstances (py : PyUnicode) :
    CheckFunction FinalStates (FinalStates × Option (Found Char)) :=
  finalStates py disposed

/-- What a match counts in `ordered_access_w_instances`. -/
def countOrdered (index : Nat) (wait : OrderedWaiting) : Except PyError OrderedState := do
  let st := wait.state
  if index = 0 then
    match wait.currentColor with
    | some currentColor =>
        if currentColor = (← PyList.item st.instanceColor 0) then
          return { st with samplesReadPerInstance := st.samplesReadPerInstance + 1 }
        else return st
    | none => return st
  else return { st with orderedAccessGroupCount := st.orderedAccessGroupCount + 1 }

/-- `ordered_access_w_instances`. -/
def orderedAccessWInstances (py : PyUnicode) : CheckFunction OrderedState OrderedWaiting where
  enter _ := .ok (.inl .initial)
  head child st := do
    if st.samplesReadPerInstance < maxSamplesRead then
      let subString := search (orderedSample py) (← beforeAndAfter child)
      if subString.isSome then
        let currentColor ← group subString 1
        let st := st.readSample currentColor
        let _index ← PyList.index st.instanceColor currentColor
        return .inl ⟨st, some currentColor⟩
      else
        let subString :=
          search (lit "Reading with ordered access".toList) (← beforeAndAfter child)
        if subString.isSome then
          match st.judgeGroup with
          | some st => return .inl ⟨st.resetCounts, none⟩
          | none => return .inr .dataNotCorrect
        else return .inl ⟨st, none⟩
    else return .inr st.producedCode
  tail child wait :=
    match child with
    | .timeout => .ok (.inr wait.state.producedCode)
    | .eof => .ok (.inr .dataNotReceived)
    | .input w => do
        let st ← countOrdered w.index wait
        if maxSamplesRead < st.orderedAccessGroupCount then
          return .inr
            (if st.samplesReadPerInstance < maxSamplesRead then .dataNotReceived
            else st.producedCode)
        else return .inl st

/-- The dicts of `_coherent_sets_w_instances`, those of the topics and that of one. -/
abbrev Colors := PyDict (List Char) (Option Nat)

abbrev Topics := PyDict (List Char) Colors

/-- `if topics[topic_name][instance_color] is None`, and the `+= 1` behind it. -/
def increaseCount (colors : Colors) (instanceColor : List Char) : Except PyError Colors := do
  let colors :=
    if (← colors.item instanceColor).isNone then colors.setItem instanceColor (some 1) else colors
  match ← colors.item instanceColor with
  | some count => return colors.setItem instanceColor (some (count + 1))
  | none => .error .typeError

/-- A sample is read. -/
def readSample (topicName instanceColor : List Char) (st : CheckState) :
    Except PyError CheckState := do
  let topics := st.topics.setDefault topicName .empty
  -- `topics[topic_name]` is one object, whatever is set in it
  let colors := (← topics.item topicName).setDefault instanceColor none
  if instanceColor ∈ colors.keys then
    let colors ←
      if st.previousSampleColor = some instanceColor then increaseCount colors instanceColor
      else pure colors
    return { st with
      newCoherentSetRead := true
      topics := topics.setItem topicName colors
      previousSampleColor := some instanceColor }
  else
    return { st with newCoherentSetRead := true, topics := topics.setItem topicName colors }

/-- `for color in topics[topic]`: the counts are set to `None`. -/
def clearColors : List (List Char) → Colors → Colors
  | [], colors => colors
  | color :: rest, colors => clearColors rest (colors.setItem color none)

/-- `for topic in topics`. -/
def clearTopics : List (List Char) → Topics → Except PyError Topics
  | [], topics => .ok topics
  | topic :: rest, topics => do
      let colors ← topics.item topic
      clearTopics rest (topics.setItem topic (clearColors colors.keys colors))

/-- `for color in topics[topic]`: the counts are judged, with a `break`, and set to `None`. -/
def judgeColors : List (List Char) → Colors → ReturnCode → Except PyError (Colors × ReturnCode)
  | [], colors, producedCode => .ok (colors, producedCode)
  | color :: rest, colors, producedCode => do
      if (← colors.item color).any fun n => n % 3 ≠ 0 then return (colors, .dataNotCorrect)
      else judgeColors rest (colors.setItem color none) producedCode

/-- `for topic in topics`. -/
def judgeTopics : List (List Char) → Topics → ReturnCode → Except PyError (Topics × ReturnCode)
  | [], topics, producedCode => .ok (topics, producedCode)
  | topic :: rest, topics, producedCode => do
      let colors ← topics.item topic
      let (colors, producedCode) ← judgeColors colors.keys colors producedCode
      judgeTopics rest (topics.setItem topic colors) producedCode

/-- `print(f"Topic {topic}: ...")`, for the topics. -/
def printTopics (topics : Topics) : List (List Char) → Except PyError Unit
  | [] => .ok ()
  | topic :: rest => do
      let _colors ← topics.item topic
      printTopics topics rest

/-- The end of the function. -/
def leaveWith {α : Type} (st : CheckState) (producedCode : ReturnCode) :
    Except PyError (α ⊕ ReturnCode) := do
  printTopics st.topics st.topics.keys
  return .inr producedCode

/-- A line `Reading coherent sets` is read. -/
def readCoherentSets (expectedTotal : Nat) (st : CheckState) :
    Except PyError (CheckState ⊕ ReturnCode) := do
  if st.ignoreFirstsCoherentSet ≠ 0 ∧ st.newCoherentSetRead then
    return .inl { st with
      ignoreFirstsCoherentSet := st.ignoreFirstsCoherentSet - 1
      coherentSetSampleCount := 0
      topics := ← clearTopics st.topics.keys st.topics
      newCoherentSetRead := false }
  else if st.newCoherentSetRead then
    if st.coherentSetSampleCount % expectedTotal ≠ 0 then leaveWith st .dataNotCorrect
    else
      let (topics, producedCode) ← judgeTopics st.topics.keys st.topics .ok
      if producedCode = .dataNotCorrect then
        leaveWith { st with topics := topics } .dataNotCorrect
      else
        return .inl { st with
          producedCode := producedCode
          coherentSetSampleCount := 0
          topics := topics
          newCoherentSetRead := false }
  else return .inl { st with newCoherentSetRead := false }

/-- `topic_name is not None and instance_color is not None and` it is the first of the
first. -/
def isFirst (st : CheckState) : Option Instance → Except PyError Bool
  | none => .ok false
  | some (topicName, instanceColor) => do
      if topicName = (← PyList.item st.topics.keys 0) then
        let colors ← st.topics.item topicName
        return decide (instanceColor = (← PyList.item colors.keys 0))
      else return false

/-- What a match counts in `_coherent_sets_w_instances`. -/
def countCoherent (index : Nat) (wait : CoherentWaiting) : Except PyError CheckState := do
  let st := wait.state
  if index = 0 then
    let first ← isFirst st wait.current
    return { st with
      samplesReadPerInstance :=
        if first then st.samplesReadPerInstance + 1 else st.samplesReadPerInstance
      coherentSetSampleCount := st.coherentSetSampleCount + 1 }
  else return { st with coherentSetsCount := st.coherentSetsCount + 1 }

/-- `_coherent_sets_w_instances`. -/
def coherentSets (py : PyUnicode) (expectedTotal : Nat) :
    CheckFunction CheckState CoherentWaiting where
  enter _ := .ok (.inl .initial)
  head child st := do
    -- `MAX_SAMPLES_READ / 5`
    if st.samplesReadPerInstance < 100 then
      let subString := search (topicSample py) (← beforeAndAfter child)
      if subString.isSome then
        let topicName ← group subString 1
        let instanceColor ← group subString 2
        return .inl ⟨← readSample topicName instanceColor st, some (topicName, instanceColor)⟩
      else
        let subString := search (lit "Reading coherent sets".toList) (← beforeAndAfter child)
        if subString.isSome then
          readCoherentSets expectedTotal st >>= andThen fun st => .ok (.inl ⟨st, none⟩)
        else return .inl ⟨st, none⟩
    else leaveWith st st.producedCode
  tail child wait :=
    match child with
    | .timeout => leaveWith wait.state wait.state.producedCode
    | .eof => leaveWith wait.state .dataNotReceived
    | .input w => do
        let st ← countCoherent w.index wait
        if maxSamplesRead < st.coherentSetsCount then
          leaveWith st
            (if st.samplesReadPerInstance < maxSamplesRead then .dataNotReceived
            else st.producedCode)
        else return .inl st

/-- `coherent_sets_w_instances`. -/
def coherentSetsWInstances (py : PyUnicode) : CheckFunction CheckState CoherentWaiting :=
  coherentSets py 36

/-- `coherent_sets_w_instances_non_group`. -/
def coherentSetsWInstancesNonGroup (py : PyUnicode) : CheckFunction CheckState CoherentWaiting :=
  coherentSets py 12

end DdsRtps.Harness.Raising
