/-
# `DdsRtps.Analysis.GroupTotals` — the totals of a group of reports

`build_parallel_group_report` adds up three groups of statuses: what passed,
what really failed, and what was skipped as unsupported.  Its sum over the
statuses is over all of them.  A test case that was skipped for another reason is
in the second and in none of the first, so the three totals are short of the
number of results by those (`groupTotals_account`).
-/
import DdsRtps.Analysis.StatusSummary

namespace DdsRtps.Analysis

variable {py : PyInterp}

/-! ## A group of statuses over all rows -/

/-- The number of results in the rows with one of some statuses. -/
def groupTotal (group : RichStatus → Bool) (rows : Rows) : Nat :=
  ((rows.items.map Prod.snd).map (groupCount group)).sum

theorem groupTotal_eq_sumBy (group : RichStatus → Bool) (rows : Rows) :
    groupTotal group rows = rows.sumBy fun _ row => groupCount group row := by
  rw [groupTotal, PyDict.sumBy, List.map_map]
  rfl

theorem groupTotal_addStatus (group : RichStatus → Bool) (rows : Rows) (r : TestResult) :
    groupTotal group (addStatus rows r) =
      groupTotal group rows + if group r.richStatus then 1 else 0 := by
  rw [groupTotal_eq_sumBy, groupTotal_eq_sumBy]
  exact PyDict.sumBy_upsert _ rfl fun row => groupCount_add group r.richStatus row

theorem groupTotal_foldl (group : RichStatus → Bool) (rs : List TestResult) (rows : Rows) :
    groupTotal group (rs.foldl addStatus rows) =
      groupTotal group rows + rs.countP fun r => group r.richStatus := by
  induction rs generalizing rows with
  | nil => rfl
  | cons r rs ih =>
      rw [List.foldl_cons, ih, groupTotal_addStatus, List.countP_cons]
      omega

/-- A group counts, over all rows, the results of the group's files with its statuses. -/
theorem groupTotal_aggregateStatuses {files : List ReportFile} {rows : Rows}
    (h : aggregateStatuses py files = .ok rows) (group : RichStatus → Bool) :
    groupTotal group rows = (resultsOf py files).countP fun r => group r.richStatus := by
  rw [aggregateStatuses_eq h, groupTotal_foldl]
  exact Nat.zero_add _

theorem skippedUnsupported_eq (row : StatusSummaryRow) :
    row.skippedUnsupported = groupCount (· = .skippedUnsupported) row := by
  rw [StatusSummaryRow.skippedUnsupported, PyDict.getD_get?_eq_sumBy, groupCount]
  simp

/-- The sum over the statuses of a row is added to what is there. -/
theorem total_foldl_increase (items : List (RichStatus × Nat)) (totals : PyDict RichStatus Nat) :
    PyDict.total (items.foldl (fun totals (rs, cnt) => totals.increase rs cnt) totals) =
      totals.total + (items.map Prod.snd).sum := by
  induction items generalizing totals with
  | nil => rfl
  | cons entry items ih =>
      rw [List.foldl_cons, ih, PyDict.total_increase, List.map_cons, List.sum_cons]
      omega

theorem total_richStatusTotals (rows : List StatusSummaryRow) :
    PyDict.total (rows.foldl (fun totals row =>
      row.richCounts.items.foldl (fun totals (rs, cnt) => totals.increase rs cnt) totals) .empty) =
      (rows.map (groupCount fun _ => true)).sum := by
  have hloop : ∀ totals : PyDict RichStatus Nat, PyDict.total (rows.foldl (fun totals row =>
      row.richCounts.items.foldl (fun totals (rs, cnt) => totals.increase rs cnt) totals) totals) =
      totals.total + (rows.map (groupCount fun _ => true)).sum := by
    intro totals
    induction rows generalizing totals with
    | nil => rfl
    | cons row rows ih =>
        rw [List.foldl_cons, ih, total_foldl_increase, List.map_cons, List.sum_cons, Nat.add_assoc]
        rfl
  rw [hloop]
  exact Nat.zero_add _

/-! ## The report -/

/-- A status is in one of the three totals, unless it is `SKIPPED_OTHER`. -/
theorem sum_totals (rs : RichStatus) :
    (if rs.isPassed then 1 else 0) + (if rs.isRealFail then 1 else 0) +
      (if rs = .skippedUnsupported then 1 else 0) + (if rs = .skippedOther then 1 else 0) = 1 := by
  cases rs <;> rfl

theorem countP_totals (rs : List TestResult) :
    (rs.countP fun r => r.richStatus.isPassed) + (rs.countP fun r => r.richStatus.isRealFail) +
      (rs.countP fun r => r.richStatus = .skippedUnsupported) +
      (rs.countP fun r => r.richStatus = .skippedOther) = rs.length := by
  induction rs with
  | nil => rfl
  | cons r rs ih =>
      have hone := sum_totals r.richStatus
      simp only [List.countP_cons, List.length_cons, decide_eq_true_eq]
      omega

/-- What the three totals of a report count. -/
theorem totals_of_report {parallelCount : Nat} {files : List ReportFile}
    {report : ParallelGroupReport}
    (h : buildParallelGroupReport py parallelCount files = .ok report) :
    report.totalPassRaw = ((resultsOf py files).countP fun r => r.richStatus.isPassed) ∧
      report.totalFailRaw = ((resultsOf py files).countP fun r => r.richStatus.isRealFail) ∧
      report.totalSkipRaw =
        (resultsOf py files).countP fun r => r.richStatus = .skippedUnsupported := by
  obtain ⟨rows, hrows, hreport⟩ := PyError.bind_eq_ok_iff.mp h
  obtain rfl := Except.ok.inj hreport
  refine ⟨?_, ?_, ?_⟩
  · rw [← groupTotal_aggregateStatuses hrows, groupTotal]
    exact congrArg List.sum (List.map_congr_left fun row _ => row.passed_eq)
  · rw [← groupTotal_aggregateStatuses hrows, groupTotal]
    exact congrArg List.sum (List.map_congr_left fun row _ => row.totalRealFail_eq)
  · rw [← groupTotal_aggregateStatuses hrows fun rs => rs = .skippedUnsupported, groupTotal]
    exact congrArg List.sum (List.map_congr_left fun row _ => skippedUnsupported_eq row)

/-- What the two breakdowns over all rows add up to. -/
theorem breakdowns_of_report {parallelCount : Nat} {files : List ReportFile}
    {report : ParallelGroupReport}
    (h : buildParallelGroupReport py parallelCount files = .ok report) :
    report.richStatusTotals.total = (resultsOf py files).length ∧
      report.featureFails.total = (resultsOf py files).countP fun r => r.richStatus.isRealFail := by
  obtain ⟨rows, hrows, hreport⟩ := PyError.bind_eq_ok_iff.mp h
  obtain rfl := Except.ok.inj hreport
  constructor
  · rw [total_richStatusTotals, ← groupTotal, groupTotal_aggregateStatuses hrows]
    rw [List.countP_true]
  · rw [total_breakdown_fails, failsWhere_aggregateStatuses hrows]
    simp [featureOf]

/-- **The totals of a group.**  The sum over the statuses is the number of results, and
the failures by feature are the failures; passed, failed and skipped are short of the
number of results by those that were skipped for another reason. -/
theorem groupTotals_account {parallelCount : Nat} {files : List ReportFile}
    {report : ParallelGroupReport}
    (h : buildParallelGroupReport py parallelCount files = .ok report) :
    report.totalPassRaw + report.totalFailRaw + report.totalSkipRaw +
        ((resultsOf py files).countP fun r => r.richStatus = .skippedOther) =
          (resultsOf py files).length ∧
      (report.totalPassRaw + report.totalFailRaw + report.totalSkipRaw =
          (resultsOf py files).length ↔
        ∀ r ∈ resultsOf py files, r.richStatus ≠ .skippedOther) ∧
      report.richStatusTotals.total = (resultsOf py files).length ∧
      report.featureFails.total = report.totalFailRaw := by
  obtain ⟨hpass, hfail, hskip⟩ := totals_of_report h
  obtain ⟨hstatuses, hfeatures⟩ := breakdowns_of_report h
  have hall := countP_totals (resultsOf py files)
  have hother : ((resultsOf py files).countP fun r => r.richStatus = .skippedOther) = 0 ↔
      ∀ r ∈ resultsOf py files, r.richStatus ≠ .skippedOther := by
    simp [List.countP_eq_zero]
  refine ⟨?_, ?_, hstatuses, hfeatures.trans hfail.symm⟩
  · rw [hpass, hfail, hskip]
    exact hall
  · rw [hpass, hfail, hskip, ← hother]
    omega

/-- A report of one test case that is skipped with a row in its message. -/
def skippedReport (produced : String) : ReportFile where
  path := "junit_interoperability_report.xml"
  root := named "testsuites" "" [named "testsuite" "Suite"
    [named "testcase" "Case" [.mk "skipped"
      ⟨[("message", "<th> Publisher_1 </th> <th> INCOMPATIBLE_QOS </th> <th> " ++ produced ++
        " </th>")], List.nodup_singleton _⟩ [] [] []]]]

/-- A test case that is skipped with a row that agrees. -/
theorem groupTotals_account_agreed :
    ∃ report, buildParallelGroupReport PyInterp.ascii 1 [skippedReport "INCOMPATIBLE_QOS"] =
        .ok report ∧
      report.totalPassRaw + report.totalFailRaw + report.totalSkipRaw +
          ((resultsOf PyInterp.ascii [skippedReport "INCOMPATIBLE_QOS"]).countP
            fun r => r.richStatus = .skippedOther) =
        (resultsOf PyInterp.ascii [skippedReport "INCOMPATIBLE_QOS"]).length :=
  ⟨_, rfl, (groupTotals_account rfl).1⟩

/-- A test case that is skipped, and communicates where it should not, is in no total. -/
theorem groupTotals_lose_skippedOther :
    ∃ report, buildParallelGroupReport PyInterp.ascii 1 [skippedReport "OK"] = .ok report ∧
      (resultsOf PyInterp.ascii [skippedReport "OK"]).length = 1 ∧
      report.totalPassRaw + report.totalFailRaw + report.totalSkipRaw = 0 := by
  refine ⟨_, rfl, ?_, ?_⟩
  · decide +kernel
  · decide +kernel

end DdsRtps.Analysis
