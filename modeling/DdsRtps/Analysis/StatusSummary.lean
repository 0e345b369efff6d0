/-
# `DdsRtps.Analysis.StatusSummary` — the counts of a test over many reports

The groups into which `StatusSummaryRow` of
src/benchmarking/junit_compare/report_data.py puts the eleven statuses, and
`summarize_all_statuses` of analyzer.py.  `failure` is grouped by the spelling
of the status, and `total_real_fail` by a list of exceptions.

A group of statuses is a predicate, and its number in a row is a sum over the
row (`groupCount`).  So that the groups are disjoint and together are all is a
fact about each status, and no fact about a run.
-/
import DdsRtps.Analysis.Aggregate
import Mathlib.Data.Char
import Mathlib.Data.List.Lex

namespace DdsRtps.Analysis

/-! ## The code -/

/-- `RichStatus.value`. -/
def RichStatus.value : RichStatus → String
  | .passed => "passed"
  | .passedAsSkipped => "passed_as_skipped"
  | .skippedUnsupported => "skipped_unsupported"
  | .skippedOther => "skipped_other"
  | .failureQosUnexpected => "failure_qos_unexpected"
  | .failureFalsePass => "failure_false_pass"
  | .failureData => "failure_data"
  | .failureOrdering => "failure_ordering"
  | .failureInfrastructure => "failure_infrastructure"
  | .failureOther => "failure_other"
  | .error => "error"

/-- `rs.value.startswith("failure")`. -/
def RichStatus.startsWithFailure (rs : RichStatus) : Bool :=
  "failure".toList.isPrefixOf rs.value.toList

namespace StatusSummaryRow

/-- `failure`. -/
def failure (row : StatusSummaryRow) : Nat :=
  row.richCounts.sumBy fun rs v => if rs.startsWithFailure then v else 0

/-- `error`. -/
def error (row : StatusSummaryRow) : Nat := (row.richCounts.get? .error).getD 0

/-- `skipped`. -/
def skipped (row : StatusSummaryRow) : Nat :=
  (row.richCounts.get? .skippedUnsupported).getD 0 + (row.richCounts.get? .skippedOther).getD 0

/-- `total_fail`. -/
def totalFail (row : StatusSummaryRow) : Nat := row.failure + row.error

end StatusSummaryRow

/-- `{"passed": ..., "failure": ..., "error": ..., "skipped": ...}`. -/
structure StatusCounts where
  passed : Nat
  failure : Nat
  error : Nat
  skipped : Nat
deriving DecidableEq, Repr

namespace StatusCounts

/-- The counts of no results. -/
def zero : StatusCounts := ⟨0, 0, 0, 0⟩

instance : Add StatusCounts where
  add a b := ⟨a.passed + b.passed, a.failure + b.failure, a.error + b.error,
    a.skipped + b.skipped⟩

/-- All results that are counted. -/
def total (c : StatusCounts) : Nat := c.passed + c.skipped + c.failure + c.error

end StatusCounts

/-- The counts of a row. -/
def StatusSummaryRow.counts (row : StatusSummaryRow) : StatusCounts :=
  ⟨row.passed, row.failure, row.error, row.skipped⟩

/-- The outer loop of `_aggregate_statuses`, over what `load_results` gave. -/
def aggregateReports (reports : List Results) : Rows :=
  reports.foldl (fun totals results => (results.items.map Prod.snd).foldl addStatus totals) .empty

/-- `summarize_all_statuses`. -/
def summarizeAllStatuses (reports : List Results) : List (List Char × StatusCounts) :=
  ((aggregateReports reports).items.insertionSort fun a b => a.1 ≤ b.1).map fun (label, row) =>
    (label, row.counts)

/-! ## The groups of a row -/

/-- The number of results in a row with one of some statuses. -/
def groupCount (group : RichStatus → Bool) (row : StatusSummaryRow) : Nat :=
  row.richCounts.sumBy fun rs v => if group rs then v else 0

/-- The statuses in `passed`. -/
def RichStatus.isPassed (rs : RichStatus) : Bool := rs = .passed || rs = .passedAsSkipped

/-- The statuses in `skipped`. -/
def RichStatus.isSkipped (rs : RichStatus) : Bool :=
  rs = .skippedUnsupported || rs = .skippedOther

namespace StatusSummaryRow

variable (row : StatusSummaryRow)

theorem getD_add_getD {s t : RichStatus} (hne : s ≠ t) :
    (row.richCounts.get? s).getD 0 + (row.richCounts.get? t).getD 0 =
      groupCount (fun rs => rs = s || rs = t) row := by
  rw [PyDict.getD_get?_eq_sumBy, PyDict.getD_get?_eq_sumBy, PyDict.sumBy_add, groupCount]
  refine congrArg row.richCounts.sumBy (funext fun rs => funext fun v => ?_)
  by_cases hs : rs = s
  · subst hs
    simp [hne]
  · simp [hs]

theorem passed_eq : row.passed = groupCount RichStatus.isPassed row :=
  row.getD_add_getD (by decide)

theorem skipped_eq : row.skipped = groupCount RichStatus.isSkipped row :=
  row.getD_add_getD (by decide)

theorem error_eq : row.error = groupCount (· = .error) row := by
  rw [error, PyDict.getD_get?_eq_sumBy, groupCount]
  simp

theorem failure_eq : row.failure = groupCount RichStatus.startsWithFailure row := rfl

/-- No status is in two of the four groups, and none is in no group. -/
theorem sum_groups (rs : RichStatus) (v : Nat) :
    (if rs.isPassed then v else 0) + (if rs.isSkipped then v else 0) +
      (if rs.startsWithFailure then v else 0) + (if rs = .error then v else 0) = v := by
  cases rs <;> simp [RichStatus.isPassed, RichStatus.isSkipped, RichStatus.startsWithFailure,
    RichStatus.value]

/-- The spelling and the list of exceptions name the same failures. -/
theorem failure_or_error (rs : RichStatus) (v : Nat) :
    (if rs.startsWithFailure then v else 0) + (if rs = .error then v else 0) =
      if rs.isRealFail then v else 0 := by
  cases rs <;> simp [RichStatus.startsWithFailure, RichStatus.value, RichStatus.isRealFail]

/-- The four groups are the whole row. -/
theorem total_counts : row.counts.total = row.richCounts.total := by
  rw [StatusCounts.total, counts, passed_eq, skipped_eq, failure_eq, error_eq]
  simp only [groupCount, PyDict.sumBy_add, decide_eq_true_eq, sum_groups]
  rfl

theorem totalRealFail_eq : row.totalRealFail = groupCount RichStatus.isRealFail row := by
  rw [totalRealFail, groupCount]
  refine congrArg row.richCounts.sumBy (funext fun rs => funext fun v => ?_)
  cases rs <;> rfl

theorem totalFail_eq : row.totalFail = row.totalRealFail := by
  rw [totalFail, failure_eq, error_eq, totalRealFail_eq]
  simp only [groupCount, PyDict.sumBy_add, decide_eq_true_eq, failure_or_error]

end StatusSummaryRow

/-! ## The row of a label -/

/-- The row of a label, without counts if there is none. -/
def rowAt (rows : Rows) (label : List Char) : StatusSummaryRow :=
  (rows.get? label).getD (.new label)

theorem groupCount_add (group : RichStatus → Bool) (rs : RichStatus) (row : StatusSummaryRow) :
    groupCount group (row.add rs) = groupCount group row + if group rs then 1 else 0 := by
  rw [groupCount, StatusSummaryRow.add]
  refine PyDict.sumBy_upsert _ ?_ fun v => ?_
  · exact ite_self 0
  · split
    · rfl
    · rfl

theorem rowAt_addStatus (rows : Rows) (r : TestResult) (label : List Char) :
    rowAt (addStatus rows r) label =
      if keyLabel r.key = label then (rowAt rows label).add r.richStatus else rowAt rows label := by
  rw [rowAt, addStatus, PyDict.get?_upsert]
  by_cases hlabel : keyLabel r.key = label
  · subst hlabel
    rw [if_pos rfl, if_pos rfl]
    rfl
  · rw [if_neg (Ne.symm hlabel), if_neg hlabel]
    rfl

/-- A loop over results adds the number of them that have the label and are in the
group. -/
theorem groupCount_rowAt_foldl (group : RichStatus → Bool) (label : List Char)
    (rs : List TestResult) (rows : Rows) :
    groupCount group (rowAt (rs.foldl addStatus rows) label) =
      groupCount group (rowAt rows label) +
        rs.countP fun r => keyLabel r.key = label && group r.richStatus := by
  induction rs generalizing rows with
  | nil => rfl
  | cons r rs ih =>
      rw [List.foldl_cons, ih, rowAt_addStatus, List.countP_cons]
      by_cases hlabel : keyLabel r.key = label
      · rw [if_pos hlabel, groupCount_add]
        simp only [hlabel, decide_true, Bool.true_and]
        omega
      · rw [if_neg hlabel]
        simp [hlabel]

/-! ## Lists of reports -/

/-- The results of some reports. -/
def resultsOver (reports : List Results) : List TestResult :=
  reports.flatMap fun results => results.items.map Prod.snd

/-- The number of results with a label. -/
def numberOf (label : List Char) (reports : List Results) : Nat :=
  (resultsOver reports).countP fun r => keyLabel r.key = label

/-- The counts of a label. -/
def countsAt (reports : List Results) (label : List Char) : StatusCounts :=
  (rowAt (aggregateReports reports) label).counts

theorem aggregateReports_eq (reports : List Results) :
    aggregateReports reports = (resultsOver reports).foldl addStatus .empty := by
  rw [aggregateReports, resultsOver]
  generalize (PyDict.empty : Rows) = start
  induction reports generalizing start with
  | nil => rfl
  | cons results reports ih =>
      rw [List.foldl_cons, ih, List.flatMap_cons, List.foldl_append]

/-- What a group counts for a label are results with that label. -/
theorem groupCount_aggregateReports (group : RichStatus → Bool) (reports : List Results)
    (label : List Char) :
    groupCount group (rowAt (aggregateReports reports) label) =
      (resultsOver reports).countP fun r => keyLabel r.key = label && group r.richStatus := by
  rw [aggregateReports_eq, groupCount_rowAt_foldl]
  exact Nat.zero_add _

/-- The results of one group with one label. -/
def countIn (label : List Char) (rs : List TestResult) (group : RichStatus → Bool) : Nat :=
  rs.countP fun r => keyLabel r.key = label && group r.richStatus

theorem countsAt_eq (reports : List Results) (label : List Char) :
    countsAt reports label =
      ⟨countIn label (resultsOver reports) RichStatus.isPassed,
        countIn label (resultsOver reports) RichStatus.startsWithFailure,
        countIn label (resultsOver reports) (· = .error),
        countIn label (resultsOver reports) RichStatus.isSkipped⟩ := by
  rw [countsAt, StatusSummaryRow.counts, StatusSummaryRow.passed_eq, StatusSummaryRow.failure_eq,
    StatusSummaryRow.error_eq, StatusSummaryRow.skipped_eq]
  simp only [groupCount_aggregateReports]
  rfl

theorem total_countsAt (reports : List Results) (label : List Char) :
    (countsAt reports label).total = numberOf label reports := by
  have hall := groupCount_aggregateReports (fun _ => true) reports label
  simp only [Bool.and_true] at hall
  rw [countsAt, StatusSummaryRow.total_counts]
  exact hall

theorem countsAt_append (reports reports' : List Results) (label : List Char) :
    countsAt (reports ++ reports') label = countsAt reports label + countsAt reports' label := by
  rw [countsAt_eq, countsAt_eq, countsAt_eq, resultsOver, List.flatMap_append]
  simp only [countIn, List.countP_append]
  rfl

theorem countsAt_perm {reports reports' : List Results} (h : reports.Perm reports')
    (label : List Char) : countsAt reports label = countsAt reports' label := by
  have hperm : (resultsOver reports).Perm (resultsOver reports') := h.flatMap_right _
  rw [countsAt_eq, countsAt_eq]
  simp only [countIn, hperm.countP_eq]

/-- A loop over results adds their labels. -/
theorem mem_keys_foldl_addStatus {label : List Char} (rs : List TestResult) (rows : Rows) :
    label ∈ (rs.foldl addStatus rows).items.map Prod.fst ↔
      label ∈ rows.items.map Prod.fst ∨ ∃ r ∈ rs, keyLabel r.key = label := by
  induction rs generalizing rows with
  | nil => simp
  | cons r rs ih =>
      rw [List.foldl_cons, ih, addStatus, PyDict.mem_keys_upsert, List.exists_mem_cons_iff,
        or_assoc, or_left_comm]
      exact or_congr_right (or_congr_left eq_comm)

/-- The labels that have a row are those of the results. -/
theorem mem_labels_iff {reports : List Results} {label : List Char} :
    label ∈ (aggregateReports reports).items.map Prod.fst ↔
      ∃ r ∈ resultsOver reports, keyLabel r.key = label := by
  rw [aggregateReports_eq, mem_keys_foldl_addStatus]
  simp [PyDict.empty]

theorem summarizeAllStatuses_eq (reports : List Results) :
    summarizeAllStatuses reports =
      (((aggregateReports reports).items.map Prod.fst).insertionSort (· ≤ ·)).map fun label =>
        (label, countsAt reports label) := by
  have hrow : ∀ entry ∈ (aggregateReports reports).items.insertionSort fun a b => a.1 ≤ b.1,
      (entry.1, entry.2.counts) = (entry.1, countsAt reports entry.1) := by
    intro entry hentry
    rw [List.mem_insertionSort] at hentry
    rw [countsAt, rowAt, PyDict.mem_items_iff.mp hentry]
    rfl
  have hlabels := List.map_insertionSort (r := fun a b => a.1 ≤ b.1) (s := (· ≤ ·)) Prod.fst
    (aggregateReports reports).items fun a _ b _ => Iff.rfl
  rw [summarizeAllStatuses, ← hlabels, List.map_map]
  exact List.map_congr_left hrow

/-- The summary does not tell in which order the reports were read. -/
theorem summarizeAllStatuses_perm {reports reports' : List Results} (h : reports.Perm reports') :
    summarizeAllStatuses reports = summarizeAllStatuses reports' := by
  have hperm : (resultsOver reports).Perm (resultsOver reports') := h.flatMap_right _
  have hlabels : ((aggregateReports reports).items.map Prod.fst).Perm
      ((aggregateReports reports').items.map Prod.fst) := by
    refine (List.perm_ext_iff_of_nodup (PyDict.nodup _) (PyDict.nodup _)).mpr fun label => ?_
    rw [mem_labels_iff, mem_labels_iff]
    simp only [hperm.mem_iff]
  have hsorted : ((aggregateReports reports).items.map Prod.fst).insertionSort (· ≤ ·) =
      ((aggregateReports reports').items.map Prod.fst).insertionSort (· ≤ ·) := by
    refine List.Perm.eq_of_pairwise' (List.pairwise_insertionSort _ _)
      (List.pairwise_insertionSort _ _) ?_
    exact (List.perm_insertionSort _ _).trans (hlabels.trans (List.perm_insertionSort _ _).symm)
  rw [summarizeAllStatuses_eq, summarizeAllStatuses_eq, hsorted]
  refine List.map_congr_left fun label _ => ?_
  rw [countsAt_perm h]

variable {py : PyInterp}

/-- `_aggregate_statuses` of files is the loop over what they hold. -/
theorem aggregateStatuses_ok_iff {files : List ReportFile} {rows : Rows} :
    aggregateStatuses py files = .ok rows ↔
      ∃ reports, List.Forall₂ (fun file results => ∃ summary,
        loadResults py.toPyUnicode file.root = .ok (summary, results)) files reports ∧
        rows = aggregateReports reports := by
  rw [aggregateStatuses]
  simp only [aggregateReports]
  generalize (PyDict.empty : Rows) = start
  induction files generalizing start with
  | nil =>
      constructor
      · intro h
        exact ⟨[], .nil, (Except.ok.inj h).symm⟩
      · rintro ⟨reports, hload, rfl⟩
        cases hload
        rfl
  | cons file files ih =>
      rw [PyError.foldlM_cons]
      constructor
      · intro h
        obtain ⟨rows', hfile, hrest⟩ := PyError.bind_eq_ok_iff.mp h
        obtain ⟨⟨summary, results⟩, hload, hrows'⟩ := PyError.bind_eq_ok_iff.mp hfile
        obtain rfl := Except.ok.inj hrows'
        obtain ⟨reports, hreports, rfl⟩ := (ih _).mp hrest
        exact ⟨results :: reports, .cons ⟨summary, hload⟩ hreports, rfl⟩
      · rintro ⟨_, hload, rfl⟩
        obtain ⟨results, reports, ⟨summary, hfile⟩, hreports, rfl⟩ :=
          List.forall₂_cons_left_iff.mp hload
        rw [hfile]
        exact (ih _).mpr ⟨reports, hreports, rfl⟩

/-- No result is lost or counted twice, whatever the order of the reports. -/
theorem aggregateReports_conserves (reports : List Results) (label : List Char) :
    let row := rowAt (aggregateReports reports) label
    row.passed + row.skipped + row.failure + row.error = numberOf label reports ∧
      row.totalFail = row.totalRealFail ∧
      (∀ reports', countsAt (reports ++ reports') label =
        countsAt reports label + countsAt reports' label) ∧
      ∀ reports', reports.Perm reports' → countsAt reports label = countsAt reports' label := by
  intro row
  refine ⟨total_countsAt reports label, row.totalFail_eq, ?_, ?_⟩
  · intro reports'
    exact countsAt_append reports reports' label
  · intro reports' hperm
    exact countsAt_perm hperm label

/-- A report of one test case. -/
def reportOf (rs : RichStatus) : Results :=
  let r : TestResult := ⟨"Suite", "Case", [], .passed, rs, [], "", []⟩
  ⟨[(r.key, r)], List.nodup_singleton _⟩

/-- A test case that passes in one report and is in error in another. -/
theorem aggregateReports_conserves_two :
    [reportOf .passed, reportOf .error].Perm [reportOf .error, reportOf .passed] ∧
      countsAt [reportOf .passed, reportOf .error] "Suite / Case".toList =
        countsAt [reportOf .error, reportOf .passed] "Suite / Case".toList := by
  have hswap : [reportOf .passed, reportOf .error].Perm [reportOf .error, reportOf .passed] :=
    .swap _ _ _
  exact ⟨hswap, (aggregateReports_conserves _ _).2.2.2 _ hswap⟩

end DdsRtps.Analysis
