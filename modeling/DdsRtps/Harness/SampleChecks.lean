/-
# `DdsRtps.Harness.SampleChecks` — the checks that read samples by instance

`test_order_w_instances`, `test_reliability_no_losses_w_instances`,
`test_reading_1_sample_every_10_samples_w_instances` and
`test_lifespan_2_3_consecutive_samples_w_instances` of test_suite_functions.py.
Which sizes each accepts is said of the list of them, without the variables
the loop keeps (`accepts_testOrder_iff` and the like).

On a stream that does not end a check returns, exactly if a size is wrong or
if its limit is reached, and for the limit only one instance counts: the one
that was seen first (`checks_return_iff`).  If that instance falls silent, the
others can go on for ever.
-/
import DdsRtps.Harness.SampleLoop
import Mathlib.Data.List.SplitBy

namespace DdsRtps.Harness

open Regex

/-! ## The code -/

/-- `MAX_SAMPLES_READ`. -/
def maxSamplesRead : Nat := 500

/-- `Reading with ordered access.*?\n`. -/
def readingOrderedAccess : Regex Char :=
  cat [lit "Reading with ordered access".toList, .star false (· != '\n'), lit ['\n']]

/-- What the first two checks keep of an instance. -/
structure SeqNum where
  seqNum : Nat
  firstIteration : Bool
deriving DecidableEq, Repr

/-- A check that reads `MAX_SAMPLES_READ` samples, each of which has to be a next
one. -/
def seqNumCheck (next : Nat → Nat → Bool) (patterns : List (Regex Char)) : SampleCheck SeqNum where
  limit := maxSamplesRead
  patterns := patterns
  new size := ⟨size, true⟩
  judge s size :=
    if s.firstIteration then .right { s with firstIteration := false }
    else if next s.seqNum size then .right { s with seqNum := size }
    else .wrong
  verdict st :=
    if maxSamplesRead = st.samplesReadPerInstance then .ok else st.producedCode

/-- `test_order_w_instances`. -/
def testOrder : SampleCheck SeqNum :=
  seqNumCheck (fun seqNum size => seqNum < size) [sampleEnd, readingOrderedAccess]

/-- `test_reliability_no_losses_w_instances`. -/
def testReliabilityNoLosses : SampleCheck SeqNum :=
  seqNumCheck (fun seqNum size => seqNum + 1 = size) [sampleEnd]

/-- What the third check keeps of an instance. -/
structure TenthSample where
  seqNum : Nat
  firstIteration : Bool
  ignoreFirstSample : Bool
  missedSamples : Nat
deriving DecidableEq, Repr

/-- `max(0, (gap - 10) // 10)`. -/
def missedInGap (gap : Int) : Nat := (max 0 ((gap - 10) / 10)).toNat

/-- `test_reading_1_sample_every_10_samples_w_instances`. -/
def testReading1SampleEvery10Samples : SampleCheck TenthSample where
  limit := maxSamplesRead / 10
  patterns := [sampleEnd]
  new size := ⟨size, true, true, 0⟩
  judge s size :=
    if s.firstIteration then .right { s with firstIteration := false }
    else if s.ignoreFirstSample then
      .right { s with ignoreFirstSample := false, seqNum := size }
    else
      let gap : Int := size - s.seqNum
      if gap < 9 then .wrong
      else
        let missed := s.missedSamples + missedInGap gap
        -- `max_samples_received * 0.1`
        if 5 < missed then .wrong
        else .right { s with missedSamples := missed, seqNum := size }
  verdict st :=
    -- `max_samples_received * 0.9`
    if 45 ≤ st.samplesReadPerInstance then .ok else st.producedCode

/-- What the fourth check keeps of an instance. -/
structure Lifespan where
  previousSeqNum : Nat
  firstIteration : Bool
  consecutiveSamples : Nat
  ignoreFirstSample : Bool
deriving DecidableEq, Repr

/-- `test_lifespan_2_3_consecutive_samples_w_instances`. -/
def testLifespan23ConsecutiveSamples : SampleCheck Lifespan where
  limit := maxSamplesRead / 10
  patterns := [sampleEnd]
  new size := ⟨size, true, 1, true⟩
  judge s size :=
    if s.firstIteration then .right { s with firstIteration := false, previousSeqNum := size }
    else if s.previousSeqNum + 1 = size then
      .right { s with
        consecutiveSamples := s.consecutiveSamples + 1
        ignoreFirstSample := false
        previousSeqNum := size }
    else if s.consecutiveSamples = 3 ∨ s.consecutiveSamples = 2 then
      .expired { s with consecutiveSamples := 1, previousSeqNum := size }
    else if s.ignoreFirstSample then
      .right { s with ignoreFirstSample := false, previousSeqNum := size }
    else .wrong
  verdict st :=
    if maxSamplesRead / 10 = st.samplesReadPerInstance then
      if st.lifespanExpirationObserved then .ok else .dataNotCorrect
    else st.producedCode

/-! ## The sizes that are accepted -/

theorem accepts_cons_iff {σ : Type} (check : SampleCheck σ) (size : Nat) (sizes : List Nat) :
    check.Accepts (size :: sizes) ↔
      ((check.judge (check.new size) size).kept.bind fun s => check.follow s sizes).isSome
        = true := by
  rw [SampleCheck.Accepts, SampleCheck.kept, SampleCheck.follow, List.foldlM_cons]
  simp
  rfl

theorem follow_cons {σ : Type} (check : SampleCheck σ) (s : σ) (size : Nat) (sizes : List Nat) :
    check.follow s (size :: sizes) =
      (check.judge s size).kept.bind fun s => check.follow s sizes := by
  rw [SampleCheck.follow, List.foldlM_cons]
  rfl

theorem isSome_follow_seqNumCheck_iff (next : Nat → Nat → Bool) (patterns : List (Regex Char))
    (seqNum : Nat) (sizes : List Nat) :
    ((seqNumCheck next patterns).follow ⟨seqNum, false⟩ sizes).isSome = true ↔
      (seqNum :: sizes).IsChain fun a b => next a b = true := by
  induction sizes generalizing seqNum with
  | nil => simp [SampleCheck.follow]
  | cons size sizes ih =>
      rw [follow_cons, List.isChain_cons_cons, ← ih]
      by_cases hnext : next seqNum size = true
      · simp [seqNumCheck, hnext, Judgement.kept]
      · simp [seqNumCheck, hnext, Judgement.kept]

/-- Each size is a next one of the size before. -/
theorem accepts_seqNumCheck_iff (next : Nat → Nat → Bool) (patterns : List (Regex Char))
    (sizes : List Nat) :
    (seqNumCheck next patterns).Accepts sizes ↔ sizes.IsChain fun a b => next a b = true := by
  cases sizes with
  | nil => simp [SampleCheck.Accepts]
  | cons size sizes =>
      rw [accepts_cons_iff, ← isSome_follow_seqNumCheck_iff next patterns]
      rfl

theorem accepts_testOrder_iff (sizes : List Nat) :
    testOrder.Accepts sizes ↔ sizes.IsChain (· < ·) := by
  rw [testOrder, accepts_seqNumCheck_iff]
  simp only [decide_eq_true_eq]

theorem accepts_testReliabilityNoLosses_iff (sizes : List Nat) :
    testReliabilityNoLosses.Accepts sizes ↔ sizes.IsChain fun a b => a + 1 = b := by
  rw [testReliabilityNoLosses, accepts_seqNumCheck_iff]
  simp only [decide_eq_true_eq]

/-- The samples missed between some sizes, each ten above the one before or more. -/
def missedSamples (sizes : List Nat) : Nat :=
  ((sizes.zip sizes.tail).map fun (a, b) => (b - a - 10) / 10).sum

theorem missedSamples_cons_cons (a b : Nat) (sizes : List Nat) :
    missedSamples (a :: b :: sizes) = (b - a - 10) / 10 + missedSamples (b :: sizes) := rfl

theorem missedInGap_eq {a b : Nat} (h : a + 9 ≤ b) :
    missedInGap ((b : Int) - a) = (b - a - 10) / 10 := by
  rw [missedInGap]
  omega

theorem isSome_follow_testReading1SampleEvery10Samples_iff (seqNum missed : Nat)
    (hmissed : missed ≤ 5) (sizes : List Nat) :
    (testReading1SampleEvery10Samples.follow ⟨seqNum, false, false, missed⟩ sizes).isSome = true ↔
      (seqNum :: sizes).IsChain (fun a b => a + 9 ≤ b) ∧
        missed + missedSamples (seqNum :: sizes) ≤ 5 := by
  induction sizes generalizing seqNum missed with
  | nil => simpa [SampleCheck.follow, missedSamples] using hmissed
  | cons size sizes ih =>
      rw [follow_cons, List.isChain_cons_cons, missedSamples_cons_cons]
      by_cases hearly : (size : Int) - seqNum < 9
      · have hgap : ¬seqNum + 9 ≤ size := by omega
        simp [testReading1SampleEvery10Samples, hearly, hgap, Judgement.kept]
      · have hgap : seqNum + 9 ≤ size := by omega
        by_cases hmany : 5 < missed + (size - seqNum - 10) / 10
        · have hmore : ¬missed + ((size - seqNum - 10) / 10 + missedSamples (size :: sizes)) ≤ 5 := by
            omega
          simp [testReading1SampleEvery10Samples, hearly, missedInGap_eq hgap, hmany, hmore,
            Judgement.kept]
        · have hjudge : testReading1SampleEvery10Samples.judge ⟨seqNum, false, false, missed⟩ size =
              .right ⟨size, false, false, missed + (size - seqNum - 10) / 10⟩ := by
            simp [testReading1SampleEvery10Samples, hearly, missedInGap_eq hgap, hmany]
          rw [hjudge, Judgement.kept, Option.bind_some, ih _ _ (not_lt.mp hmany), add_assoc]
          simp [hgap]

/-- From the second sample on the sizes are nine apart or more, and no more than
five are missed. -/
theorem accepts_testReading1SampleEvery10Samples_iff (sizes : List Nat) :
    testReading1SampleEvery10Samples.Accepts sizes ↔
      sizes.tail.IsChain (fun a b => a + 9 ≤ b) ∧ missedSamples sizes.tail ≤ 5 := by
  match sizes with
  | [] => simp [SampleCheck.Accepts, missedSamples]
  | [size] =>
      rw [accepts_cons_iff]
      simp [testReading1SampleEvery10Samples, Judgement.kept, SampleCheck.follow, missedSamples]
  | first :: size :: sizes =>
      have hfollow := isSome_follow_testReading1SampleEvery10Samples_iff size 0 (by decide) sizes
      rw [Nat.zero_add] at hfollow
      rw [accepts_cons_iff, List.tail_cons, ← hfollow]
      rfl

/-- The maximal runs of consecutive sizes. -/
def runsOf (sizes : List Nat) : List (List Nat) := sizes.splitBy fun a b => b == a + 1

/-- A first run of a single sample does not count. -/
def butFirstSingle : List Nat → List Nat
  | 1 :: lengths => lengths
  | lengths => lengths

/-- The lengths of the runs that have ended. -/
def endedRuns (sizes : List Nat) : List Nat :=
  butFirstSingle ((runsOf sizes).map List.length).dropLast

/-- The lengths of the runs, after `count` samples that end with `a`. -/
def runLengths (a count : Nat) : List Nat → List Nat
  | [] => [count]
  | b :: sizes => if a + 1 = b then runLengths b (count + 1) sizes else count :: runLengths b 1 sizes

theorem runLengths_ne_nil (a count : Nat) (sizes : List Nat) : runLengths a count sizes ≠ [] := by
  induction sizes generalizing a count with
  | nil => exact List.cons_ne_nil _ _
  | cons b sizes ih =>
      rw [runLengths]
      split
      · exact ih _ _
      · exact List.cons_ne_nil _ _

theorem map_length_loop (sizes : List Nat) (a : Nat) (group : List Nat) (groups : List (List Nat)) :
    (List.splitBy.loop (fun a b => b == a + 1) sizes a group groups).map List.length =
      groups.reverse.map List.length ++ runLengths a (group.length + 1) sizes := by
  induction sizes generalizing a group groups with
  | nil => simp [List.splitBy.loop, runLengths]
  | cons b sizes ih =>
      rw [List.splitBy.loop, runLengths]
      by_cases hnext : a + 1 = b
      · rw [if_pos hnext, ← hnext]
        simp only [beq_self_eq_true]
        rw [ih]
        simp
      · have hne : (b == a + 1) = false := by simpa using Ne.symm hnext
        rw [if_neg hnext, hne]
        simp only
        rw [ih]
        simp

theorem map_length_runsOf (size : Nat) (sizes : List Nat) :
    (runsOf (size :: sizes)).map List.length = runLengths size 1 sizes :=
  map_length_loop sizes size [] []

/-- The first run has at least the samples it began with. -/
theorem exists_runLengths_eq_cons (a count : Nat) (sizes : List Nat) :
    ∃ n lengths, runLengths a count sizes = n :: lengths ∧ count ≤ n := by
  induction sizes generalizing a count with
  | nil => exact ⟨count, [], rfl, le_rfl⟩
  | cons b sizes ih =>
      rw [runLengths]
      split
      · obtain ⟨n, lengths, heq, hle⟩ := ih b (count + 1)
        exact ⟨n, lengths, heq, by omega⟩
      · exact ⟨count, _, rfl, le_rfl⟩

/-- A run of two samples or more is no single one. -/
theorem butFirstSingle_runLengths_two (a : Nat) (sizes : List Nat) :
    butFirstSingle (runLengths a 2 sizes).dropLast = (runLengths a 2 sizes).dropLast := by
  obtain ⟨n, lengths, heq, hle⟩ := exists_runLengths_eq_cons a 2 sizes
  rw [heq]
  cases lengths with
  | nil => rfl
  | cons n' lengths =>
      rw [List.dropLast_cons_cons]
      match n, hle with
      | n + 2, _ => rfl

/-- Once a run counts, so do all that follow. -/
theorem isSome_follow_testLifespan_iff (a count : Nat) (sizes : List Nat) :
    (testLifespan23ConsecutiveSamples.follow ⟨a, false, count, false⟩ sizes).isSome = true ↔
      ∀ n ∈ (runLengths a count sizes).dropLast, n = 2 ∨ n = 3 := by
  induction sizes generalizing a count with
  | nil => simp [SampleCheck.follow, runLengths]
  | cons b sizes ih =>
      rw [follow_cons, runLengths]
      by_cases hnext : a + 1 = b
      · have hjudge : testLifespan23ConsecutiveSamples.judge ⟨a, false, count, false⟩ b =
            .right ⟨b, false, count + 1, false⟩ := by
          simp [testLifespan23ConsecutiveSamples, hnext]
        rw [if_pos hnext, hjudge, Judgement.kept, Option.bind_some, ih]
      · rw [if_neg hnext, List.dropLast_cons_of_ne_nil (runLengths_ne_nil _ _ _),
          List.forall_mem_cons, ← ih]
        by_cases hcount : count = 3 ∨ count = 2
        · have hjudge : testLifespan23ConsecutiveSamples.judge ⟨a, false, count, false⟩ b =
              .expired ⟨b, false, 1, false⟩ := by
            simp [testLifespan23ConsecutiveSamples, hnext, hcount]
          rw [hjudge, Judgement.kept, Option.bind_some]
          exact (and_iff_right hcount.symm).symm
        · have hjudge : testLifespan23ConsecutiveSamples.judge ⟨a, false, count, false⟩ b =
              .wrong := by
            simp [testLifespan23ConsecutiveSamples, hnext, hcount]
          rw [hjudge, Judgement.kept, Option.bind_none]
          exact iff_of_false (by simp) fun h => hcount h.1.symm

theorem isSome_follow_testLifespan_first_iff (a : Nat) (sizes : List Nat) :
    (testLifespan23ConsecutiveSamples.follow ⟨a, false, 1, true⟩ sizes).isSome = true ↔
      ∀ n ∈ butFirstSingle (runLengths a 1 sizes).dropLast, n = 2 ∨ n = 3 := by
  cases sizes with
  | nil => simp [SampleCheck.follow, runLengths, butFirstSingle]
  | cons b sizes =>
      rw [follow_cons, runLengths]
      by_cases hnext : a + 1 = b
      · have hjudge : testLifespan23ConsecutiveSamples.judge ⟨a, false, 1, true⟩ b =
            .right ⟨b, false, 2, false⟩ := by
          simp [testLifespan23ConsecutiveSamples, hnext]
        rw [if_pos hnext, hjudge, Judgement.kept, Option.bind_some, isSome_follow_testLifespan_iff,
          butFirstSingle_runLengths_two]
      · have hjudge : testLifespan23ConsecutiveSamples.judge ⟨a, false, 1, true⟩ b =
            .right ⟨b, false, 1, false⟩ := by
          simp [testLifespan23ConsecutiveSamples, hnext]
        rw [if_neg hnext, hjudge, Judgement.kept, Option.bind_some, isSome_follow_testLifespan_iff,
          List.dropLast_cons_of_ne_nil (runLengths_ne_nil _ _ _), butFirstSingle]

/-- All runs that have ended are of two or three samples. -/
theorem accepts_testLifespan23ConsecutiveSamples_iff (sizes : List Nat) :
    testLifespan23ConsecutiveSamples.Accepts sizes ↔ ∀ n ∈ endedRuns sizes, n = 2 ∨ n = 3 := by
  cases sizes with
  | nil => simp [SampleCheck.Accepts, endedRuns, runsOf, butFirstSingle]
  | cons size sizes =>
      rw [accepts_cons_iff, endedRuns, map_length_runsOf, ← isSome_follow_testLifespan_first_iff]
      rfl

/-! ## On a stream -/

/-- The sizes of an instance, among the first matches of a stream. -/
def sizesUpTo (py : PyUnicode) (text : List Char) (stream : Nat → Window Char) (n : Nat)
    (color : List Char) : List Nat :=
  sizesOf color (readingsOf py (textsOf text (firstMatches stream n)))

/-- The sample that was read before is a wrong one, or so many samples are counted, or
some instance has sizes that are not accepted. -/
def Decides (py : PyUnicode) (text : List Char) (stream : Nat → Window Char) (limit : Nat)
    (accepted : List Nat → Prop) : Prop :=
  basicCheck py text ≠ .ok ∨ ∃ n, limit ≤ counted py text (firstMatches stream n) ∨
    ∃ color, ¬accepted (sizesUpTo py text stream n color)

theorem returns_iff_decides {σ : Type} {check : SampleCheck σ} {accepted : List Nat → Prop}
    (hlimit : 0 < check.limit) (haccepts : ∀ sizes, check.Accepts sizes ↔ accepted sizes)
    (py : PyUnicode) (text : List Char) (stream : Nat → Window Char) :
    check.Returns py text stream ↔ Decides py text stream check.limit accepted := by
  simp only [SampleCheck.returns_iff hlimit, haccepts]
  rfl

/-- **When the checks return**: only the instance that was seen first brings a check
to its limit. -/
theorem checks_return_iff (py : PyUnicode) (text : List Char) (stream : Nat → Window Char) :
    (testOrder.Returns py text stream ↔
        Decides py text stream 500 fun sizes => sizes.IsChain (· < ·)) ∧
      (testReliabilityNoLosses.Returns py text stream ↔
        Decides py text stream 500 fun sizes => sizes.IsChain fun a b => a + 1 = b) ∧
      (testReading1SampleEvery10Samples.Returns py text stream ↔
        Decides py text stream 50 fun sizes =>
          sizes.tail.IsChain (fun a b => a + 9 ≤ b) ∧ missedSamples sizes.tail ≤ 5) ∧
      (testLifespan23ConsecutiveSamples.Returns py text stream ↔
        Decides py text stream 50 fun sizes => ∀ n ∈ endedRuns sizes, n = 2 ∨ n = 3) := by
  refine ⟨?_, ?_, ?_, ?_⟩
  · exact returns_iff_decides (by decide) accepts_testOrder_iff py text stream
  · exact returns_iff_decides (by decide) accepts_testReliabilityNoLosses_iff py text stream
  · exact returns_iff_decides (by decide) accepts_testReading1SampleEvery10Samples_iff py text stream
  · exact returns_iff_decides (by decide) accepts_testLifespan23ConsecutiveSamples_iff py text stream

/-! ## An instance that falls silent -/

/-- A match that reads a sample of this color and size. -/
def sampleMatch (color : String) (size : Nat) : Window Char where
  index := 0
  before := "Square ".toList ++ color.toList ++ " 001 001 ".toList
  after := '[' :: (Nat.toDigits 10 size ++ [']'])

/-- The fields between topic and size. -/
def sampleFields (color : String) : Fields :=
  ⟨[' '], color.toList, [' '], "001".toList, [' '], "001".toList, [' ']⟩

theorem sampleAt_sampleMatch {color : String} (size : Nat)
    (hcolor : color = "RED" ∨ color = "BLUE") :
    SampleAt .ascii [] "Square".toList (sampleFields color) (Nat.toDigits 10 size) where
  endsOutside := endsOutside_nil _
  topic_word := ⟨by decide, List.all_eq_true.mp (by decide)⟩
  valid := by
    rcases hcolor with rfl | rfl <;>
      constructor <;> exact ⟨by decide, List.all_eq_true.mp (by decide)⟩
  size_digit := ⟨Nat.toDigits_ne_nil, fun c hc => digit_toDigits hc⟩
  noSample := by
    rcases hcolor with rfl | rfl <;> exact noSample_of_not_mem (by decide)

theorem text_sampleMatch (color : String) (size : Nat) :
    (sampleMatch color size).text =
      sampleText [] "Square".toList (sampleFields color) (Nat.toDigits 10 size) := by
  simp [sampleMatch, Window.text, sampleText, sampleFields, Fields.text]

theorem colorAndSize_sampleMatch {color : String} (size : Nat)
    (hcolor : color = "RED" ∨ color = "BLUE") :
    colorAndSize .ascii (sampleMatch color size).text = some (color.toList, size) := by
  obtain ⟨m, hm, hcs⟩ := (sampleAt_sampleMatch size hcolor).search_instanceSample
  rw [colorAndSize, text_sampleMatch, hm, Option.bind_some, Found.group, Found.group, hcs,
    sampleFields]
  simp [pyInt_toDigits, List.lookup_cons]

theorem basicCheck_sampleMatch_red : basicCheck .ascii (sampleMatch "RED" 1).text = .ok := by
  obtain ⟨m, hm, hcs⟩ := (sampleAt_sampleMatch 1 (.inl rfl)).search_basicSample rfl rfl
  rw [basicCheck, basicSize, text_sampleMatch, hm, Option.bind_some, Found.group, hcs]
  rfl

/-- One red sample, and then blue ones for ever: 1, 2, 3, and so on. -/
def onlyBlue (n : Nat) : Window Char := sampleMatch "BLUE" (n + 1)

theorem readingsOf_onlyBlue (n : Nat) :
    readingsOf .ascii (textsOf (sampleMatch "RED" 1).text (firstMatches onlyBlue n)) =
      ("RED".toList, 1) :: (List.range n).map fun k => ("BLUE".toList, k + 1) := by
  rw [readingsOf, textsOf, List.filterMap_cons_some (colorAndSize_sampleMatch 1 (.inl rfl)),
    firstMatches, List.map_map, List.filterMap_map]
  have hblue : (colorAndSize .ascii ∘ Window.text ∘ onlyBlue) = fun k =>
      some ("BLUE".toList, k + 1) := by
    funext k
    rw [Function.comp_apply, Function.comp_apply, onlyBlue,
      colorAndSize_sampleMatch (k + 1) (.inr rfl)]
  rw [hblue, List.filterMap_eq_map']

/-- The red sample is counted, and none behind it. -/
theorem counted_onlyBlue_le (n : Nat) :
    counted .ascii (sampleMatch "RED" 1).text (firstMatches onlyBlue n) ≤ 1 := by
  rw [counted, readingsOf_onlyBlue, textsOf]
  cases hwindows : firstMatches onlyBlue n with
  | nil => exact Nat.zero_le 1
  | cons w windows =>
      rw [List.zip_cons_cons, List.countP_cons]
      have hone : ∀ b : Bool, (if b = true then 1 else 0) ≤ 1 := by decide
      rw [List.countP_eq_zero.mpr, Nat.zero_add]
      · exact hone _
      · -- the matches behind the first are blue
        rintro ⟨t, v⟩ hmem
        obtain ⟨w', hw', rfl⟩ := List.mem_map.mp (List.of_mem_zip hmem).1
        rw [← hwindows, firstMatches] at hw'
        obtain ⟨k, -, rfl⟩ := List.mem_map.mp hw'
        have hblue := colorAndSize_sampleMatch (k + 1) (.inr rfl)
        simp [onlyBlue, hblue, firstColor]

theorem isChain_onlyBlue (n : Nat) (color : List Char) :
    (sizesUpTo .ascii (sampleMatch "RED" 1).text onlyBlue n color).IsChain (· < ·) := by
  rw [sizesUpTo, readingsOf_onlyBlue, sizesOf]
  by_cases hred : color = "RED".toList
  · subst hred
    have hblue : ((List.range n).map fun k => ("BLUE".toList, k + 1)).filter
        (fun r => r.1 = "RED".toList) = [] := by
      rw [List.filter_eq_nil_iff]
      intro r hr
      obtain ⟨k, -, rfl⟩ := List.mem_map.mp hr
      simp
    rw [List.filter_cons_of_pos (by simp), hblue]
    exact List.isChain_singleton 1
  · rw [List.filter_cons_of_neg (by simpa using Ne.symm hred)]
    have hsorted : ((List.range n).map fun k => ("BLUE".toList, k + 1)).Pairwise
        fun a b => a.2 < b.2 := by
      rw [List.pairwise_map]
      exact List.pairwise_lt_range.imp fun h => Nat.succ_lt_succ h
    refine List.Pairwise.isChain ?_
    rw [List.pairwise_map]
    exact hsorted.filter _

/-- The red instance falls silent, and the check of the order waits for ever. -/
theorem not_always_return :
    ¬ ∀ (py : PyUnicode) (text : List Char) (stream : Nat → Window Char),
      testOrder.Returns py text stream ∧ testReliabilityNoLosses.Returns py text stream ∧
        testReading1SampleEvery10Samples.Returns py text stream ∧
          testLifespan23ConsecutiveSamples.Returns py text stream := by
  intro hall
  obtain ⟨hreturns, -⟩ := hall .ascii (sampleMatch "RED" 1).text onlyBlue
  have hdecides := (returns_iff_decides (by decide) accepts_testOrder_iff _ _ _).mp hreturns
  rcases hdecides with hbasic | ⟨n, hcount | ⟨color, hsizes⟩⟩
  · exact hbasic basicCheck_sampleMatch_red
  · have hle := hcount.trans (counted_onlyBlue_le n)
    exact absurd hle (by decide)
  · exact hsizes (isChain_onlyBlue n color)

end DdsRtps.Harness
