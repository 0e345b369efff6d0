/-
# `DdsRtps.Harness.DurabilityVerdicts` — late joiners, from the publisher to the verdict

The durability tests of test_suite.py start a publisher with `-z 0`, and a
subscriber some seconds later.  `test_durability_volatile` and
`test_durability_transient_local` of test_suite_functions.py look at the size of
the first sample that the subscriber prints.

The four publishers give the `k`-th write to an instance the size `k`
(`DdsRtps.ShapeMain.GrowingSizes`), the subscriber prints what is delivered, and
`run_subscriber_shape_main` hands the first sample to the check.  So the verdict
says which of the writes was the first to arrive (`durability_verdicts`),
whatever else the subscriber prints.
-/
import DdsRtps.Harness.CheckRefinement
import DdsRtps.Harness.SavedSamples
import DdsRtps.ShapeMain.GrowingSizes

namespace DdsRtps.Harness

open Regex
open PyUnicode (digit)
open ShapeMain (Call KthSizes NoOverflow)

/-! ## The checks -/

namespace Raising

/-- `test_durability_volatile`. -/
def testDurabilityVolatile (py : PyUnicode) (child : Child) : Except PyError ReturnCode := do
  let basicCheckRetcode ← basicCheck py child
  if basicCheckRetcode ≠ .ok then return basicCheckRetcode
  let subString := search sizeSample (← beforeAndAfter child)
  if 5 ≤ (← int (← group subString 1)) then return .ok else return .dataNotCorrect

/-- `test_durability_transient_local`. -/
def testDurabilityTransientLocal (py : PyUnicode) (child : Child) :
    Except PyError ReturnCode := do
  let basicCheckRetcode ← basicCheck py child
  if basicCheckRetcode ≠ .ok then return basicCheckRetcode
  let subString := search sizeSample (← beforeAndAfter child)
  if (← int (← group subString 1)) = 1 then return .ok else return .dataNotCorrect

end Raising

section First

variable {pyu : PyUnicode} {sub : Subscriber} {w : Window Char} {r : Received}

/-- The size that both checks read in the window of a sample. -/
theorem ReadsSample.sizeSample (h : ReadsSample pyu sub w r) :
    ∃ m, search Raising.sizeSample w.text = some m ∧
      Raising.group (some m) 1 = .ok (showInt r.sample.shapesize.toInt) ∧
      Raising.int (showInt r.sample.shapesize.toInt) = .ok r.sample.shapesize.toInt.toNat := by
  obtain ⟨m, hm, -, hcs⟩ := h.search_numbersSample (some 1)
  obtain ⟨pre, htext, hline, hr⟩ := h
  have hgroup : m.group 1 = some (showInt r.sample.shapesize.toInt) := by
    rw [Found.group, hcs]
    rfl
  refine ⟨m, hm, Raising.group_eq_ok hgroup, ?_⟩
  rw [Raising.int_eq_ok hr.size_digit.1 hr.size_digit.2, showInt_of_nonneg hr.shapesize,
    pyInt_toDigits]

theorem ReadsSample.basicCheck (h : ReadsSample pyu sub w r) :
    Raising.basicCheck pyu (.input w) =
      .ok (if r.sample.shapesize.toInt.toNat = 0 then .dataNotCorrect else .ok) := by
  rw [Raising.basicCheck_eq, h.basicCheck_text]

/-- Volatile: the first sample is to be none of the first four writes. -/
theorem testDurabilityVolatile_eq (h : ReadsSample pyu sub w r) :
    Raising.testDurabilityVolatile pyu (.input w) =
      .ok (if 5 ≤ r.sample.shapesize.toInt.toNat then .ok else .dataNotCorrect) := by
  obtain ⟨m, hm, hgroup, hint⟩ := h.sizeSample
  rw [Raising.testDurabilityVolatile, h.basicCheck, PyError.ok_bind]
  by_cases hzero : r.sample.shapesize.toInt.toNat = 0
  · simp [hzero, PyError.pure_eq]
  · simp only [hzero, if_false, ne_eq, not_true_eq_false, Raising.beforeAndAfter_input,
      PyError.ok_bind, PyError.pure_eq, hm, hgroup, hint]
    split <;> rfl

/-- Transient local: the first sample is to be the first write. -/
theorem testDurabilityTransientLocal_eq (h : ReadsSample pyu sub w r) :
    Raising.testDurabilityTransientLocal pyu (.input w) =
      .ok (if r.sample.shapesize.toInt.toNat = 1 then .ok else .dataNotCorrect) := by
  obtain ⟨m, hm, hgroup, hint⟩ := h.sizeSample
  rw [Raising.testDurabilityTransientLocal, h.basicCheck, PyError.ok_bind]
  by_cases hzero : r.sample.shapesize.toInt.toNat = 0
  · simp [hzero, PyError.pure_eq]
  · simp only [hzero, if_false, ne_eq, not_true_eq_false, Raising.beforeAndAfter_input,
      PyError.ok_bind, PyError.pure_eq, hm, hgroup, hint]
    split <;> rfl

end First

/-! ## The whole output -/

/-- The patterns that a subscriber is not to print before its first sample. -/
def refusals (py : PyCase) : List (Regex Char) :=
  [called "on_requested_incompatible_qos", called "on_requested_deadline_missed", notSupported py]

theorem received_eq (py : PyCase) : Patterns.received py = sampleEnd :: refusals py := rfl

theorem avoids_refusals (py : PyCase) : ∀ r ∈ refusals py, Avoids r breaks := by
  intro r hr
  simp only [refusals, List.mem_cons, List.not_mem_nil, or_false] at hr
  rcases hr with rfl | rfl | rfl
  · exact avoids_called (by decide) (by decide)
  · exact avoids_called (by decide) (by decide)
  · exact avoids_notSupported py fun _ => foreign_of_breaks

theorem avoids_reader (py : PyCase) : ∀ r ∈ Patterns.reader py, Avoids r endsLine := by
  intro r hr
  simp only [Patterns.reader, List.mem_cons, List.not_mem_nil, or_false] at hr
  rcases hr with rfl | rfl | rfl
  · exact avoids_lit (by decide) (by decide)
  · exact avoids_lit (by decide) (by decide)
  · exact avoids_notSupported py fun _ => foreign_of_endsLine

theorem avoids_received (py : PyCase) : ∀ r ∈ Patterns.received py, Avoids r endsLine := by
  rw [received_eq]
  intro r hr
  rcases List.mem_cons.mp hr with rfl | hr
  · exact avoids_sampleEnd
  · exact endsLine_of_breaks (avoids_refusals py r hr)

/-- The output of a subscriber that creates its reader: lines, one that a topic is
created, lines, one that a reader is, and what is printed from then on. -/
structure SubscriberLog where
  early : List (List Char)
  topicRest : List Char
  created : List (List Char)
  readerRest : List Char
  reading : List OutputLine

/-- What is printed. -/
def SubscriberLog.text (sub : Subscriber) (eol : LineEnd) (log : SubscriberLog) : List Char :=
  linesText eol log.early ++ ("Create topic:".toList ++
    (linesText eol (log.topicRest :: log.created) ++ ("Create reader for topic:".toList ++
      printed sub eol (.other log.readerRest :: log.reading))))

/-- Nothing that is expected stands anywhere else. -/
structure SubscriberLog.Legal (pyu : PyUnicode) (py : PyCase) (sub : Subscriber)
    (log : SubscriberLog) : Prop where
  early : ∀ l ∈ log.early, Silent (Patterns.topic py) l
  created : ∀ l ∈ log.topicRest :: log.created, Silent (Patterns.reader py) l
  reading : ∀ l ∈ OutputLine.other log.readerRest :: log.reading, l.Quiet pyu (refusals py) sub

/-- The check is handed the first sample that is printed, with the others to come, and
without one the code is `DATA_NOT_RECEIVED`. -/
theorem subscriberOutput_printed (pyu : PyUnicode) (py : PyCase) (sub : Subscriber)
    (eol : LineEnd) (log : SubscriberLog) (h : log.Legal pyu py sub) :
    match samplesOf log.reading with
    | [] => ∀ check, subscriberOutput py check (log.text sub eol) = .dataNotReceived
    | r :: rs => ∃ w rest, ReadsSample pyu sub w r ∧ rest <:+ log.text sub eol ∧
        List.Forall₂ (ReadsSample pyu sub) (expectAll [sampleEnd] [] 0 rest) rs ∧
        ∀ check, subscriberOutput py check (log.text sub eol) = check w rest := by
  have htopic := expect_head eol (avoids_topic py) h.early
    (first_lit "Create topic:".toList
      (linesText eol (log.topicRest :: log.created) ++ ("Create reader for topic:".toList ++
        printed sub eol (.other log.readerRest :: log.reading))))
  have hreader := expect_head eol (avoids_reader py) h.created
    (first_lit "Create reader for topic:".toList
      (printed sub eol (.other log.readerRest :: log.reading)))
  have hdata : ∀ check, subscriberOutput py check (log.text sub eol) =
      dataStage py check (printed sub eol (.other log.readerRest :: log.reading)) := by
    intro check
    rw [subscriberOutput, SubscriberLog.text, Patterns.topic, htopic]
    simp only [zero_ne_one, if_false]
    rw [readerStage, Patterns.reader, hreader]
    simp only [zero_ne_one, OfNat.zero_ne_ofNat, if_false]
  have hwindows := windows_of_quiet (avoids_refusals py) sub eol h.reading (.inl rfl)
  have hone := expectAll_eq (avoids_received py) []
    (printed sub eol (.other log.readerRest :: log.reading))
  rw [← received_eq, hone] at hwindows
  have hsamples : samplesOf (.other log.readerRest :: log.reading) = samplesOf log.reading := rfl
  rw [hsamples] at hwindows
  cases hexpect : expect (Patterns.received py) []
      (printed sub eol (.other log.readerRest :: log.reading)) with
  | none =>
      simp only [hexpect, List.forall₂_nil_left_iff] at hwindows
      rw [hwindows]
      intro check
      rw [hdata, dataStage, hexpect]
  | some m =>
      obtain ⟨w, rest⟩ := m
      simp only [hexpect] at hwindows
      cases hcase : samplesOf log.reading with
      | nil =>
          rw [hcase] at hwindows
          cases hwindows
      | cons r rs =>
          rw [hcase] at hwindows
          cases hwindows with
          | cons hw _ =>
              have hsuffix : rest <:+ log.text sub eol := by
                refine (suffix_of_expect hexpect).trans ?_
                simp only [SubscriberLog.text, ← List.append_assoc]
                exact List.suffix_append _ _
              refine ⟨w, rest, hw.2, hsuffix, ?_, fun check => ?_⟩
              · -- the pattern of a sample alone finds the same
                have hlegal : ∀ l ∈ OutputLine.other log.readerRest :: log.reading, l.Legal pyu :=
                  fun l hl => (h.reading l hl).1
                have hall := windows_of_printed sub eol hlegal (.inl rfl)
                rw [expectAll_eq (by simpa using avoids_sampleEnd),
                  expect_of_index_zero hexpect hw.1, hsamples, hcase] at hall
                cases hall with
                | cons _ hrest => exact hrest
              · rw [hdata, dataStage, hexpect]
                simp [hw.1]

/-! ## From the publisher -/

/-- The calls of a publisher with `-z 0` and without `--size-modulo`, of one of the
four, with so many topics and instances. -/
inductive GrowingRun : Nat → Nat → List Call → Prop
  | cxx {options : ShapeMain.Cxx.Options} (start : ShapeMain.Start) (signals : List Bool) :
      ShapeMain.Cxx.GrowsBy none options →
      GrowingRun options.numTopics.toNat options.numInstances.toNat
        (ShapeMain.Cxx.callsMade options start signals)
  | hdds {options : Hdds.ShapeOptions} (start : ShapeMain.Start)
      (seen : List ShapeMain.HddsRs.Seen) : ShapeMain.HddsRs.GrowsBy none options →
      GrowingRun options.numTopics.toNat options.numInstances.toNat
        (ShapeMain.HddsRs.callsMade options start seen)
  | dust {options : ShapeMain.DustDds.Options} (start : ShapeMain.Start)
      (received : List Bool) : ShapeMain.DustDds.GrowsBy none options →
      GrowingRun options.numTopics.toNat options.numInstances.toNat
        (ShapeMain.DustDds.callsMade options start received)
  | zig {options : ShapeMain.Zig.Options} (seen : List ShapeMain.Zig.Seen) :
      ShapeMain.Zig.GrowsBy none options →
      GrowingRun options.numTopics.toNat options.numInstances.toNat
        (ShapeMain.Zig.callsMade options seen)

theorem GrowingRun.kthSizes {numTopics numInstances : Nat} {calls : List Call}
    (h : GrowingRun numTopics numInstances calls) : KthSizes none none numTopics numInstances calls := by
  have hnone : ∀ N ∈ (none : Option Nat), 1 ≤ N ∧ N < 2 ^ 31 := fun N hN => by cases hN
  cases h with
  | cxx start signals h => exact ShapeMain.Cxx.kthSizes hnone h start signals
  | hdds start seen h => exact ShapeMain.HddsRs.kthSizes hnone h start seen
  | dust start received h => exact ShapeMain.DustDds.kthSizes hnone h start received
  | zig seen h => exact ShapeMain.Zig.kthSizes hnone h seen

/-- **The verdict says which write came first.**  Where the first sample that a
subscriber prints is the `k + 1`-st that an instance was sent, the check for volatile
durability is content from the fifth on, and that for transient local durability
with the first alone. -/
theorem durability_verdicts {numTopics numInstances : Nat} {calls : List Call}
    (hrun : GrowingRun numTopics numInstances calls) {i j k : Nat} (hi : i < numTopics)
    (hj : j < numInstances) (hk : k + 1 < 2 ^ 31) (pyu : PyUnicode) (py : PyCase)
    (sub : Subscriber) (eol : LineEnd) {log : SubscriberLog} (hlog : log.Legal pyu py sub)
    {r : Received} {rs : List Received} (hfirst : samplesOf log.reading = r :: rs)
    (hwrite : (ShapeMain.sizesOf i j calls)[k]? = some r.sample.shapesize) :
    ∃ w rest, (∀ check, subscriberOutput py check (log.text sub eol) = check w rest) ∧
      Raising.testDurabilityVolatile pyu (.input w) =
        .ok (if 5 ≤ k + 1 then .ok else .dataNotCorrect) ∧
      Raising.testDurabilityTransientLocal pyu (.input w) =
        .ok (if k = 0 then .ok else .dataNotCorrect) := by
  have hsize : r.sample.shapesize.toInt.toNat = k + 1 := by
    have hkth := hrun.kthSizes i hi j hj k _ hwrite hk
    rw [hkth]
    rfl
  have hprinted := subscriberOutput_printed pyu py sub eol log hlog
  rw [hfirst] at hprinted
  obtain ⟨w, rest, hw, -, -, hcheck⟩ := hprinted
  refine ⟨w, rest, hcheck, ?_, ?_⟩
  · rw [testDurabilityVolatile_eq hw, hsize]
  · rw [testDurabilityTransientLocal_eq hw, hsize]
    simp only [Nat.add_eq_right]

/-- A publisher of two samples, and a subscriber that receives both. -/
def twoWrites : ShapeMain.Cxx.Options where
  color := "BLUE"
  shapesize := 0
  sizeModulo := 0
  additionalPayloadSize := 0
  coherentSetEnabled := false
  orderedAccessEnabled := false
  coherentSetSampleCount := 0
  numTopics := 1
  numInstances := 1
  numIterations := 0
  unregister := false
  dispose := false
  daWidth := 240
  daHeight := 270

def firstLog : SubscriberLog where
  early := []
  topicRest := " Square".toList
  created := []
  readerRest := " Square".toList
  reading := [.sample ⟨"Square", ⟨"BLUE", 1, 1, 1, []⟩⟩, .sample ⟨"Square", ⟨"BLUE", 2, 2, 2, []⟩⟩]

theorem durability_verdicts_twoWrites :
    ∃ w rest, (∀ check, subscriberOutput .ascii check (firstLog.text .cxx .crlf) =
        check w rest) ∧
      Raising.testDurabilityVolatile .ascii (.input w) = .ok .dataNotCorrect ∧
      Raising.testDurabilityTransientLocal .ascii (.input w) = .ok .ok := by
  have hword : ∀ {l : List Char}, l.all PyUnicode.ascii.word = true →
      ∀ c ∈ l, PyUnicode.ascii.word c = true := List.all_eq_true.mp
  have hrun : GrowingRun 1 1 (ShapeMain.Cxx.callsMade twoWrites ⟨0, 0, 1, 1⟩ [false, false]) :=
    .cxx _ _ (⟨rfl, rfl, rfl, rfl⟩ : ShapeMain.Cxx.GrowsBy none twoWrites)
  have hlog : firstLog.Legal .ascii .ascii .cxx :=
    { early := by decide
      created := by decide
      reading := by
        simp only [firstLog, List.forall_mem_cons, OutputLine.Quiet, OutputLine.Legal]
        exact ⟨⟨noSample_of_not_mem (by decide), by decide⟩,
          ⟨⟨⟨by decide, hword (by decide)⟩, ⟨by decide, hword (by decide)⟩,
            by decide, by decide, by decide⟩, by decide⟩,
          ⟨⟨⟨by decide, hword (by decide)⟩, ⟨by decide, hword (by decide)⟩,
            by decide, by decide, by decide⟩, by decide⟩, by simp⟩ }
  exact durability_verdicts hrun (i := 0) (j := 0) (k := 0) (by decide) (by decide) (by decide)
    .ascii .ascii .cxx .crlf hlog rfl (by decide)

end DdsRtps.Harness
