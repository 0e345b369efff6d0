/-
# `DdsRtps.Xlsx.Summary` — the sums of the summary are those of the report

In a consistent report the counters of a suite are the counts of its cases.
Then the four dicts of `JunitData` hold what the report holds: every suite is
once in the sums of its products and once in that of its pair, every case once
in the list of its publisher and once in that of its subscriber.

A case that passed has no result, so it is not unsupported.  This bounds the
passed tests of a suite by the supported ones, and the bound is kept by sums
(`AggregatedData.Bounded`).
-/
import DdsRtps.Xlsx.JunitData

namespace DdsRtps.Xlsx

/-- The counters of a suite are the counts of its cases, and a case has one
result at most, with a message. -/
structure Suite.Consistent (suite : Suite) : Prop where
  name : suite.name ≠ none
  tests : suite.tests = suite.cases.length
  failures : suite.failures = suite.cases.countP Case.isFailure
  skipped : suite.skipped = suite.cases.countP Case.isSkipped
  errors : suite.errors = suite.cases.countP Case.isError
  caseName : ∀ case ∈ suite.cases, case.name ≠ none
  result : ∀ case ∈ suite.cases, case.result.length ≤ 1
  message : ∀ case ∈ suite.cases, ∀ result ∈ case.result, result.message ≠ none

variable (py : PyUpper)

/-- What the cases of a suite count. -/
def Suite.summary (suite : Suite) : AggregatedData where
  passedTests := suite.cases.countP Case.isPassed
  totalTests := suite.cases.length
  unsupportedTests := suite.cases.countP (Case.isUnsupported py)

/-- Is the product the publisher or the subscriber? -/
def Suite.involves (product : Text) (suite : Suite) : Bool :=
  suite.publisherName py = product || suite.subscriberName py = product

/-- No more tests passed than are supported, and no more are supported than
there are. -/
structure AggregatedData.Bounded (a : AggregatedData) : Prop where
  passed_nonneg : 0 ≤ a.passedTests
  passed_le : a.passedTests ≤ a.supportedTests
  supported_le : a.supportedTests ≤ a.totalTests

/-- The dicts hold the report. -/
structure Conserves (report : List Suite) (data : JunitData) : Prop where
  summary : ∀ product, data.summaryDict.get? product =
    if report.any (Suite.involves py product) then
      some ((report.filter (Suite.involves py product)).map (Suite.summary py)).sum
    else none
  total : (data.productSummaryDict.items.map Prod.snd).sum = (report.map (Suite.summary py)).sum
  publisher : data.publisherProductDict.members = ↑(report.flatMap (Suite.publisherUpdates py))
  subscriber : data.subscriberProductDict.members = ↑(report.flatMap (Suite.subscriberUpdates py))
  bounded_summary : ∀ entry ∈ data.summaryDict.items, entry.2.Bounded
  bounded_pair : ∀ entry ∈ data.productSummaryDict.items, entry.2.Bounded

variable {py}

/-! ## A suite -/

/-- A case either passed, or failed, or was skipped, or had an error. -/
theorem Case.one_outcome {case : Case} (h : case.result.length ≤ 1) :
    (if case.isPassed then 1 else 0) + (if case.isFailure then 1 else 0) +
      (if case.isSkipped then 1 else 0) + (if case.isError then 1 else 0) = 1 := by
  obtain ⟨name, result⟩ := case
  match result, h with
  | [], _ => rfl
  | [⟨kind, message⟩], _ =>
      cases kind with
      | failure => rfl
      | error => rfl
      | skipped => rfl

theorem countP_outcomes {cases : List Case} (h : ∀ case ∈ cases, case.result.length ≤ 1) :
    cases.countP Case.isPassed + cases.countP Case.isFailure + cases.countP Case.isSkipped +
      cases.countP Case.isError = cases.length := by
  induction cases with
  | nil => rfl
  | cons case cases ih =>
      have hone := Case.one_outcome (h case List.mem_cons_self)
      have hrest := ih fun c hc => h c (List.mem_cons_of_mem _ hc)
      simp only [List.countP_cons, List.length_cons]
      omega

/-- A case that passed is not unsupported. -/
theorem Case.isUnsupported_of_isPassed {case : Case} (h : case.isPassed = true) :
    case.isUnsupported py = false := by
  obtain ⟨name, result⟩ := case
  cases result with
  | nil => rfl
  | cons r result =>
      obtain ⟨kind, message⟩ := r
      cases kind with
      | failure => simp [Case.isPassed, Case.isFailure] at h
      | error => simp [Case.isPassed, Case.isError] at h
      | skipped => simp [Case.isPassed, Case.isSkipped] at h

variable (py) in
theorem countP_passed_add_unsupported_le (cases : List Case) :
    cases.countP Case.isPassed + cases.countP (Case.isUnsupported py) ≤ cases.length := by
  induction cases with
  | nil => exact le_rfl
  | cons case cases ih =>
      simp only [List.countP_cons, List.length_cons]
      cases hpassed : case.isPassed with
      | false =>
          simp only [Bool.false_eq_true, if_false]
          split
          · omega
          · omega
      | true =>
          rw [Case.isUnsupported_of_isPassed hpassed]
          simp only [Bool.false_eq_true, if_false, if_true]
          omega

theorem Suite.Consistent.counts_eq {suite : Suite} (h : suite.Consistent) :
    suite.counts py = suite.summary py := by
  have houtcomes := countP_outcomes h.result
  refine AggregatedData.ext ?_ h.tests rfl
  show suite.tests - suite.failures - suite.skipped - suite.errors =
    ((suite.cases.countP Case.isPassed : Nat) : Int)
  rw [h.tests, h.failures, h.skipped, h.errors]
  omega

theorem Suite.Consistent.raises_eq_none {suite : Suite} (h : suite.Consistent) :
    suite.raises = none := by
  rw [Suite.raises, if_neg h.name, List.findSome?_eq_none_iff]
  intro case hcase
  rw [Case.raises, if_neg (h.caseName case hcase), if_neg]
  cases hhead : case.result.head? with
  | none => exact Bool.false_ne_true
  | some result =>
      have hmessage := h.message case hcase result (List.mem_of_mem_head? hhead)
      simpa using hmessage

/-! ## Bounds -/

theorem AggregatedData.bounded_zero : (0 : AggregatedData).Bounded :=
  ⟨le_rfl, le_rfl, le_rfl⟩

theorem AggregatedData.Bounded.add {a b : AggregatedData} (ha : a.Bounded) (hb : b.Bounded) :
    (a + b).Bounded := by
  obtain ⟨ha₁, ha₂, ha₃⟩ := ha
  obtain ⟨hb₁, hb₂, hb₃⟩ := hb
  rw [supportedTests] at ha₂ ha₃ hb₂ hb₃
  refine ⟨Int.add_nonneg ha₁ hb₁, ?_, ?_⟩
  · show a.passedTests + b.passedTests ≤
      a.totalTests + b.totalTests - (a.unsupportedTests + b.unsupportedTests)
    omega
  · show a.totalTests + b.totalTests - (a.unsupportedTests + b.unsupportedTests) ≤
      a.totalTests + b.totalTests
    omega

theorem AggregatedData.bounded_sum {l : List AggregatedData} (h : ∀ a ∈ l, a.Bounded) :
    l.sum.Bounded := by
  induction l with
  | nil => exact bounded_zero
  | cons a l ih =>
      rw [List.sum_cons]
      exact (h a List.mem_cons_self).add (ih fun b hb => h b (List.mem_cons_of_mem _ hb))

theorem Suite.bounded_summary (suite : Suite) : (suite.summary py).Bounded := by
  have hle := countP_passed_add_unsupported_le py suite.cases
  refine ⟨Int.natCast_nonneg _, ?_, ?_⟩
  · show ((suite.cases.countP Case.isPassed : Nat) : Int) ≤
      suite.cases.length - ((suite.cases.countP (Case.isUnsupported py) : Nat) : Int)
    omega
  · show (suite.cases.length : Int) - ((suite.cases.countP (Case.isUnsupported py) : Nat) : Int) ≤
      suite.cases.length
    omega

/-- A dict that sums bounded values has bounded values. -/
theorem bounded_addToAll {κ : Type} [DecidableEq κ] {updates : List (κ × AggregatedData)}
    (h : ∀ update ∈ updates, update.2.Bounded) :
    ∀ entry ∈ ((PyDict.empty : PyDict κ AggregatedData).addToAll updates).items,
      entry.2.Bounded := by
  rintro ⟨key, value⟩ hentry
  have hget := PyDict.mem_items_iff.mp hentry
  rw [PyDict.get?_addToAll] at hget
  split at hget
  · rw [PyDict.get?_empty, Option.getD_none, zero_add] at hget
    obtain rfl := Option.some.inj hget
    refine AggregatedData.bounded_sum fun a ha => ?_
    obtain ⟨update, hupdate, rfl⟩ := List.mem_map.mp ha
    exact h update (List.mem_filter.mp hupdate).1
  · cases hget

/-! ## The sums of a product -/

theorem mem_keys_summaryUpdates {suite : Suite} {product : Text} :
    product ∈ (suite.summaryUpdates py).map Prod.fst ↔ suite.involves py product = true := by
  rw [Suite.summaryUpdates, Suite.involves, Bool.or_eq_true, decide_eq_true_eq, decide_eq_true_eq]
  by_cases hsame : suite.publisherName py = suite.subscriberName py
  · rw [if_neg (not_not_intro hsame), hsame]
    simp [eq_comm]
  · rw [if_pos hsame]
    simp [eq_comm]

/-- A suite adds to a product what it counts, once. -/
theorem filter_summaryUpdates (suite : Suite) (product : Text) :
    ((suite.summaryUpdates py).filter (·.1 = product)).map Prod.snd =
      if suite.involves py product then [suite.counts py] else [] := by
  rw [Suite.summaryUpdates, Suite.involves]
  by_cases hsame : suite.publisherName py = suite.subscriberName py
  · rw [if_neg (not_not_intro hsame), hsame]
    by_cases hp : suite.subscriberName py = product
    · simp [hp]
    · simp [hp]
  · rw [if_pos hsame]
    by_cases hp : suite.publisherName py = product
    · have hs : suite.subscriberName py ≠ product := fun hs => hsame (hp.trans hs.symm)
      simp [hp, hs]
    · by_cases hs : suite.subscriberName py = product
      · simp [hp, hs]
      · simp [hp, hs]

theorem filter_flatMap_summaryUpdates (report : List Suite) (product : Text) :
    ((report.flatMap (Suite.summaryUpdates py)).filter (·.1 = product)).map Prod.snd =
      (report.filter (Suite.involves py product)).map (Suite.counts py) := by
  induction report with
  | nil => rfl
  | cons suite report ih =>
      rw [List.flatMap_cons, List.filter_append, List.map_append, ih, filter_summaryUpdates,
        List.filter_cons]
      split
      · rfl
      · rfl

theorem get?_summaryDict (report : List Suite) (product : Text) :
    (JunitData.empty.record py report).summaryDict.get? product =
      if report.any (Suite.involves py product) then
        some ((report.filter (Suite.involves py product)).map (Suite.counts py)).sum
      else none := by
  have hkey : product ∈ (report.flatMap (Suite.summaryUpdates py)).map Prod.fst ↔
      report.any (Suite.involves py product) = true := by
    rw [List.map_flatMap, List.mem_flatMap, List.any_eq_true]
    exact exists_congr fun suite => and_congr_right fun _ => mem_keys_summaryUpdates
  show ((PyDict.empty : PyDict Text AggregatedData).addToAll _).get? product = _
  rw [PyDict.get?_addToAll, filter_flatMap_summaryUpdates, PyDict.get?_empty, Option.getD_none,
    zero_add]
  simp only [hkey]

/-! ## The report -/

/-- From a consistent report `get_info` makes dicts that hold it. -/
theorem getInfo_conserves {report : List Suite} (h : ∀ suite ∈ report, suite.Consistent) :
    ∃ data, getInfo py .empty report = .ok data ∧ Conserves py report data := by
  have hcounts : ∀ suites : List Suite, suites ⊆ report →
      suites.map (Suite.counts py) = suites.map (Suite.summary py) :=
    fun suites hsub => List.map_congr_left fun suite hsuite => (h suite (hsub hsuite)).counts_eq
  have hbounded : ∀ suite ∈ report, (suite.counts py).Bounded := by
    intro suite hsuite
    rw [(h suite hsuite).counts_eq]
    exact suite.bounded_summary
  refine ⟨JunitData.empty.record py report,
    getInfo_eq_ok.mpr ⟨fun suite hsuite => (h suite hsuite).raises_eq_none, rfl⟩, ?_⟩
  constructor
  case summary =>
    intro product
    rw [get?_summaryDict, hcounts _ fun suite hsuite => (List.mem_filter.mp hsuite).1]
  case total =>
    show (((PyDict.empty : PyDict (Text × Text) AggregatedData).addToAll _).items.map _).sum = _
    rw [PyDict.sum_addToAll, List.map_map]
    exact (zero_add _).trans (congrArg List.sum (hcounts report (List.Subset.refl _)))
  case publisher => exact (PyDict.members_pushAll _ _).trans (zero_add _)
  case subscriber => exact (PyDict.members_pushAll _ _).trans (zero_add _)
  case bounded_summary =>
    refine bounded_addToAll fun update hupdate => ?_
    obtain ⟨suite, hsuite, hin⟩ := List.mem_flatMap.mp hupdate
    have hvalue : update.2 = suite.counts py := by
      rw [Suite.summaryUpdates] at hin
      split at hin
      · simp only [List.mem_cons, List.not_mem_nil, or_false] at hin
        rcases hin with rfl | rfl
        · rfl
        · rfl
      · rw [List.mem_singleton.mp hin]
    rw [hvalue]
    exact hbounded suite hsuite
  case bounded_pair =>
    refine bounded_addToAll fun update hupdate => ?_
    obtain ⟨suite, hsuite, rfl⟩ := List.mem_map.mp hupdate
    exact hbounded suite hsuite

/-- A product with another, which does not support one of two tests, and the
product with itself. -/
theorem getInfo_conserves_two :
    ∃ data, getInfo .ascii .empty
        [.counted "hdds---opendds".toList
          [⟨some "Test_Color_0".toList, []⟩,
            ⟨some "Test_Color_1".toList, [⟨.failure, some "SUB_UNSUPPORTED_FEATURE".toList⟩]⟩],
        .counted "hdds---hdds".toList [⟨some "Test_Color_0".toList, []⟩]] = .ok data ∧
      Conserves .ascii
        [.counted "hdds---opendds".toList
          [⟨some "Test_Color_0".toList, []⟩,
            ⟨some "Test_Color_1".toList, [⟨.failure, some "SUB_UNSUPPORTED_FEATURE".toList⟩]⟩],
        .counted "hdds---hdds".toList [⟨some "Test_Color_0".toList, []⟩]] data := by
  refine getInfo_conserves fun suite hsuite => ?_
  simp only [List.mem_cons, List.not_mem_nil, or_false] at hsuite
  rcases hsuite with rfl | rfl
  · exact ⟨by simp [Suite.counted], rfl, rfl, rfl, rfl, by simp [Suite.counted],
      by simp [Suite.counted], by simp [Suite.counted]⟩
  · exact ⟨by simp [Suite.counted], rfl, rfl, rfl, rfl, by simp [Suite.counted],
      by simp [Suite.counted], by simp [Suite.counted]⟩

end DdsRtps.Xlsx
