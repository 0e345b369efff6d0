/-
# `DdsRtps.Analysis.Aggregate` — the statistics of a group of reports

`build_parallel_group_report` of src/benchmarking/junit_compare/analyzer.py,
with what it calls: `key_label` of models.py, `StatusSummaryRow` of
report_data.py, and the two patterns that read a vendor or a feature off a
label.

All counts are sums over the rows of `aggregateStatuses`, and a sum over the
rows is a number of results (`failsWhere_aggregateStatuses`).
-/
import DdsRtps.Analysis.LoadResults
import DdsRtps.Lib.PyText

namespace DdsRtps.Analysis

open Regex

/-! ## The code -/

/-- `key_label`. -/
def keyLabel (key : ResultKey) : List Char :=
  let config := List.intercalate ", ".toList
    (key.attributes.map fun (k, v) => k.toList ++ "=".toList ++ v.toList)
  key.suite.toList ++ " / ".toList ++ key.name.toList ++
    if config ≠ [] then " [".toList ++ config ++ "]".toList else []

/-- `class StatusSummaryRow`. -/
structure StatusSummaryRow where
  label : List Char
  richCounts : PyDict RichStatus Nat

namespace StatusSummaryRow

/-- `StatusSummaryRow(label=label)`. -/
def new (label : List Char) : StatusSummaryRow := ⟨label, .empty⟩

/-- `add`. -/
def add (rs : RichStatus) (row : StatusSummaryRow) : StatusSummaryRow :=
  { row with richCounts := row.richCounts.increase rs 1 }

/-- `passed`. -/
def passed (row : StatusSummaryRow) : Nat :=
  (row.richCounts.get? .passed).getD 0 + (row.richCounts.get? .passedAsSkipped).getD 0

/-- `skipped_unsupported`. -/
def skippedUnsupported (row : StatusSummaryRow) : Nat :=
  (row.richCounts.get? .skippedUnsupported).getD 0

/-- `total_real_fail`. -/
def totalRealFail (row : StatusSummaryRow) : Nat :=
  row.richCounts.sumBy fun rs v =>
    if [RichStatus.passed, .passedAsSkipped, .skippedUnsupported, .skippedOther].contains rs then 0
    else v

/-- `is_flaky`. -/
def isFlaky (row : StatusSummaryRow) : Bool := 0 < row.passed && 0 < row.totalRealFail

end StatusSummaryRow

/-- A report that is on disk: its path, and the tree that is parsed from it. -/
structure ReportFile where
  path : String
  root : XmlElement

/-- The rows, by label. -/
abbrev Rows := PyDict (List Char) StatusSummaryRow

/-- One turn of the inner loop of `_aggregate_statuses`. -/
def addStatus (totals : Rows) (result : TestResult) : Rows :=
  totals.upsert (keyLabel result.key) (.new (keyLabel result.key)) (.add result.richStatus)

variable (py : PyInterp)

/-- `_aggregate_statuses`. -/
def aggregateStatuses (files : List ReportFile) : Except PyError Rows :=
  files.foldlM (fun totals file => do
    let (_, results) ← loadResults py.toPyUnicode file.root
    return (results.items.map Prod.snd).foldl addStatus totals) .empty

/-- `[^-]`. -/
def notDash (c : Char) : Bool := c != '-'

/-- `[^\s]`. -/
def notSpace (c : Char) : Bool := !py.space c

/-- `\d`. -/
def decimalDigit (c : Char) : Bool := if c.toNat < 128 then c.isDigit else (py.decimal c).isSome

/-- `[A-Za-z0-9]`. -/
def asciiAlnum (c : Char) : Bool := c.isAlphanum

/-- `\s*([^-]+-[^-]+)---([^-]+-[^\s]+)\s+/`. -/
def pubSubRe : Regex Char :=
  cat [many py.space, .group 1 (cat [plus notDash, lit ['-'], plus notDash]), lit ['-', '-', '-'],
    .group 2 (cat [plus notDash, lit ['-'], plus (notSpace py)]), plus py.space, lit ['/']]

/-- `_extract_pub_sub`. -/
def extractPubSub (label : List Char) : Option (List Char × List Char) :=
  (first (pubSubRe py) label).bind fun (_, captures, _) =>
    (captures.lookup 1).bind fun pub => (captures.lookup 2).map fun sub => (pub, sub)

/-- `/ rtps_test_suite_\d+_Test_([A-Za-z0-9]+)_\d+`. -/
def featureRe : Regex Char :=
  cat [lit "/ rtps_test_suite_".toList, plus (decimalDigit py), lit "_Test_".toList,
    .group 1 (plus asciiAlnum), lit "_".toList, plus (decimalDigit py)]

/-- `_extract_feature`. -/
def extractFeature (label : List Char) : List Char :=
  ((search (featureRe py) label).bind fun m => m.group 1).getD "Ostatní".toList

/-- `class FlakyTestRow`. -/
structure FlakyTestRow where
  label : List Char
  passCount : Nat
  failCount : Nat
deriving DecidableEq, Repr

/-- Numbers by name. -/
abbrev Counts := PyDict (List Char) Nat

/-- `class ParallelGroupReport`. -/
structure ParallelGroupReport where
  parallelCount : Nat
  runCount : Nat
  filePaths : List String
  totalFailRaw : Nat
  totalPassRaw : Nat
  totalSkipRaw : Nat
  totalUniqueTests : Nat
  richStatusTotals : PyDict RichStatus Nat
  flakyTests : List FlakyTestRow
  flakyPub : Counts
  flakySub : Counts
  flakyPubTestCount : Counts
  flakySubTestCount : Counts
  flakyFeat : Counts
  featureFails : Counts
  pubFails : Counts
  subFails : Counts

/-- The loop `d[name] = d.get(name, 0) + n`, where a label without a name is
passed over. -/
def breakdown (nameOf : List Char → Option (List Char)) (rows : List (List Char × Nat)) : Counts :=
  rows.foldl (fun counts (label, n) =>
    match nameOf label with
    | some name => counts.increase name n
    | none => counts) .empty

/-- The publisher of a label, where `_extract_pub_sub` finds one. -/
def pubOf (label : List Char) : Option (List Char) := (extractPubSub py label).map Prod.fst

/-- The subscriber. -/
def subOf (label : List Char) : Option (List Char) := (extractPubSub py label).map Prod.snd

/-- The feature, which every label has. -/
def featureOf (label : List Char) : Option (List Char) := some (extractFeature py label)

/-- `build_parallel_group_report`. -/
def buildParallelGroupReport (parallelCount : Nat) (groupFiles : List ReportFile) :
    Except PyError ParallelGroupReport := do
  let allRows ← aggregateStatuses py groupFiles
  let rows := allRows.items.map Prod.snd
  let richStatusTotals := rows.foldl (fun totals row =>
    row.richCounts.items.foldl (fun totals (rs, cnt) => totals.increase rs cnt) totals) .empty
  let statusSummary := allRows.items.filter fun (_, row) => 0 < row.totalRealFail
  let flakyRows := ((allRows.items.filter fun (_, row) => row.isFlaky).map fun (label, row) =>
      (⟨label, row.passed, row.totalRealFail⟩ : FlakyTestRow))
    |>.insertionSort fun r s => s.passCount + s.failCount ≤ r.passCount + r.failCount
  let flakyFails := flakyRows.map fun row => (row.label, row.failCount)
  let flakyOnes := flakyRows.map fun row => (row.label, 1)
  let fails := statusSummary.map fun (label, row) => (label, row.totalRealFail)
  return {
    parallelCount := parallelCount
    runCount := groupFiles.length
    filePaths := groupFiles.map ReportFile.path
    totalFailRaw := (rows.map StatusSummaryRow.totalRealFail).sum
    totalPassRaw := (rows.map StatusSummaryRow.passed).sum
    totalSkipRaw := (rows.map StatusSummaryRow.skippedUnsupported).sum
    totalUniqueTests := allRows.items.length
    richStatusTotals := richStatusTotals
    flakyTests := flakyRows
    flakyPub := breakdown (pubOf py) flakyFails
    flakySub := breakdown (subOf py) flakyFails
    flakyPubTestCount := breakdown (pubOf py) flakyOnes
    flakySubTestCount := breakdown (subOf py) flakyOnes
    flakyFeat := breakdown (featureOf py) flakyFails
    featureFails := breakdown (featureOf py) fails
    pubFails := breakdown (pubOf py) fails
    subFails := breakdown (subOf py) fails }

/-! ## Sums over the rows -/

/-- A status that says that the test failed. -/
def RichStatus.isRealFail (rs : RichStatus) : Bool :=
  !([RichStatus.passed, .passedAsSkipped, .skippedUnsupported, .skippedOther].contains rs)

theorem totalRealFail_new (label : List Char) : (StatusSummaryRow.new label).totalRealFail = 0 := rfl

theorem totalRealFail_add (rs : RichStatus) (row : StatusSummaryRow) :
    (row.add rs).totalRealFail = row.totalRealFail + if rs.isRealFail then 1 else 0 := by
  rw [StatusSummaryRow.totalRealFail, StatusSummaryRow.add]
  refine PyDict.sumBy_upsert _ ?_ fun v => ?_
  · split <;> rfl
  · cases rs <;> rfl

/-- The real failures of the labels with a property. -/
def failsWhere (q : List Char → Bool) (rows : Rows) : Nat :=
  rows.sumBy fun label row => if q label then row.totalRealFail else 0

theorem failsWhere_addStatus (q : List Char → Bool) (rows : Rows) (r : TestResult) :
    failsWhere q (addStatus rows r) =
      failsWhere q rows + if q (keyLabel r.key) && r.richStatus.isRealFail then 1 else 0 := by
  refine PyDict.sumBy_upsert _ ?_ fun row => ?_
  · rw [totalRealFail_new, ite_self]
  · rw [totalRealFail_add]
    cases q (keyLabel r.key) with
    | true => simp
    | false => simp

theorem failsWhere_foldl (q : List Char → Bool) (rs : List TestResult) (rows : Rows) :
    failsWhere q (rs.foldl addStatus rows) =
      failsWhere q rows + rs.countP fun r => q (keyLabel r.key) && r.richStatus.isRealFail := by
  induction rs generalizing rows with
  | nil => rfl
  | cons r rs ih =>
      rw [List.foldl_cons, ih, failsWhere_addStatus, List.countP_cons]
      omega

/-- All results of a list of reports. -/
def resultsOf (files : List ReportFile) : List TestResult :=
  files.flatMap fun file => resultsBelow py.toPyUnicode file.root

variable {py}

/-- A loop over reports that goes through the results of each goes through all results. -/
theorem foldlM_loadResults {σ : Type} {f : σ → TestResult → σ} {files : List ReportFile}
    {start last : σ}
    (h : files.foldlM (fun s file => do
      let (_, results) ← loadResults py.toPyUnicode file.root
      return (results.items.map Prod.snd).foldl f s) start = .ok last) :
    last = (resultsOf py files).foldl f start := by
  induction files generalizing start with
  | nil => exact (Except.ok.inj h).symm
  | cons file files ih =>
      rw [PyError.foldlM_cons] at h
      obtain ⟨s', hfile, hrest⟩ := PyError.bind_eq_ok_iff.mp h
      obtain ⟨⟨summary, results⟩, hload, hs'⟩ := PyError.bind_eq_ok_iff.mp hfile
      obtain rfl := Except.ok.inj hs'
      rw [ih hrest, resultsOf, resultsOf, List.flatMap_cons, List.foldl_append]
      rcases loadResults_eq py.toPyUnicode file.root with
        ⟨-, herror⟩ | ⟨-, results', hitems, hok⟩
      · rw [hload] at herror
        cases herror
      · rw [hload] at hok
        obtain ⟨-, rfl⟩ := Prod.mk.inj (Except.ok.inj hok)
        rw [hitems, List.map_map]
        simp [Function.comp_def, item]

theorem aggregateStatuses_eq {files : List ReportFile} {rows : Rows}
    (h : aggregateStatuses py files = .ok rows) :
    rows = (resultsOf py files).foldl addStatus .empty := foldlM_loadResults h

/-- The real failures of the labels with a property are as many as the results. -/
theorem failsWhere_aggregateStatuses {files : List ReportFile} {rows : Rows}
    (h : aggregateStatuses py files = .ok rows) (q : List Char → Bool) :
    failsWhere q rows =
      (resultsOf py files).countP fun r => q (keyLabel r.key) && r.richStatus.isRealFail := by
  rw [aggregateStatuses_eq h, failsWhere_foldl]
  exact Nat.zero_add _

theorem total_breakdown (nameOf : List Char → Option (List Char)) (rows : List (List Char × Nat)) :
    (breakdown nameOf rows).total =
      (rows.map fun (label, n) => if (nameOf label).isSome then n else 0).sum := by
  have hloop : ∀ counts : Counts, PyDict.total (rows.foldl (fun counts (label, n) =>
      match nameOf label with
      | some name => counts.increase name n
      | none => counts) counts) =
      counts.total + (rows.map fun (label, n) => if (nameOf label).isSome then n else 0).sum := by
    intro counts
    induction rows generalizing counts with
    | nil => rfl
    | cons row rows ih =>
        obtain ⟨label, n⟩ := row
        rw [List.foldl_cons, ih, List.map_cons, List.sum_cons]
        cases hname : nameOf label with
        | none => simp [hname]
        | some name =>
            simp only [hname, PyDict.total_increase, Option.isSome_some, if_true]
            omega
  rw [breakdown, hloop]
  exact Nat.zero_add _

/-- The rows that fail are all that count in a breakdown of failures. -/
theorem total_breakdown_fails (nameOf : List Char → Option (List Char)) (rows : Rows) :
    (breakdown nameOf ((rows.items.filter fun (_, row) => 0 < row.totalRealFail).map
        fun (label, row) => (label, row.totalRealFail))).total =
      failsWhere (fun label => (nameOf label).isSome) rows := by
  rw [total_breakdown, failsWhere, PyDict.sumBy, List.map_map]
  generalize rows.items = items
  induction items with
  | nil => rfl
  | cons entry items ih =>
      obtain ⟨label, row⟩ := entry
      rw [List.map_cons, List.sum_cons, ← ih]
      by_cases hrow : 0 < row.totalRealFail
      · rw [List.filter_cons_of_pos (by simpa using hrow), List.map_cons, List.sum_cons]
        rfl
      · rw [List.filter_cons_of_neg (by simpa using hrow)]
        have hzero : row.totalRealFail = 0 := by omega
        simp [hzero]

end DdsRtps.Analysis
