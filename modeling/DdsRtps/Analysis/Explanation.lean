/-
# `DdsRtps.Analysis.Explanation` — the numbers of an explanation

`generate_explanation` of src/benchmarking/junit_compare/explain.py says how many
labels always pass, how many always fail and how many do both.  It asks
`summarize_test_statuses` for the labels with a failure: what is not among them
counts as always passing, and what is among them without a pass as always
failing.  A skip is neither a pass nor a failure, so a label can be in the first
two numbers on the strength of skips alone (`explanation_iff`).
-/
import DdsRtps.Analysis.StatusSummary
import Mathlib.Data.Finset.Card

namespace DdsRtps.Analysis

variable (py : PyInterp)

/-! ## The code -/

/-- `(-failure - error, label)`, as `sorted` compares. -/
def mostFailuresFirst (a b : List Char × StatusCounts) : Prop :=
  b.2.failure + b.2.error < a.2.failure + a.2.error ∨
    a.2.failure + a.2.error = b.2.failure + b.2.error ∧ a.1 ≤ b.1

instance : DecidableRel mostFailuresFirst := fun _ _ => inferInstanceAs (Decidable (_ ∨ _ ∧ _))

/-- `summarize_test_statuses`. -/
def summarizeTestStatuses (files : List ReportFile) :
    Except PyError (List (List Char × StatusCounts)) := do
  let totals ← aggregateStatuses py files
  let rows := (totals.items.filter fun (_, row) => 0 < row.totalFail).map fun (label, row) =>
    (label, row.counts)
  return rows.insertionSort mostFailuresFirst

/-- The set `all_test_labels`. -/
def allTestLabels (files : List ReportFile) : Except PyError (List (List Char)) :=
  files.foldlM (fun labels file => do
    let (_, results) ← loadResults py.toPyUnicode file.root
    return (results.items.map Prod.snd).foldl (fun labels r => labels.insert (keyLabel r.key))
      labels) []

/-- `c.get("failure", 0) or c.get("error", 0)`. -/
def StatusCounts.failed (c : StatusCounts) : Bool := c.failure ≠ 0 || c.error ≠ 0

/-- The numbers that are printed: "Total unique tests across all suites", "Always-passing
tests (100% pass)", "Always-failing tests (100% fail)" and "Mixed-result tests (pass in
some, fail in others)". -/
structure Explanation where
  totalUniqueTests : Nat
  permPass : Int
  permFail : Nat
  mixed : Nat
deriving DecidableEq, Repr

/-- The part of `generate_explanation` that counts tests. -/
def explanation (files : List ReportFile) : Except PyError Explanation := do
  let statusSummary ← summarizeTestStatuses py files
  let allLabels ← allTestLabels py files
  let totalUniqueTests := allLabels.length
  return {
    totalUniqueTests := totalUniqueTests
    permPass := totalUniqueTests - statusSummary.length
    permFail := statusSummary.countP fun (_, c) => c.passed = 0 && c.failed
    mixed := statusSummary.countP fun (_, c) => 0 < c.passed && c.failed }

/-! ## What the numbers should be -/

/-- The labels of the results. -/
def labels (files : List ReportFile) : Finset (List Char) :=
  ((resultsOf py files).map fun r => keyLabel r.key).toFinset

/-- Some result with the label has a status of the group. -/
def HasSome (files : List ReportFile) (group : RichStatus → Bool) (label : List Char) : Prop :=
  ∃ r ∈ resultsOf py files, keyLabel r.key = label ∧ group r.richStatus = true

/-- All results with the label have a status of the group. -/
def HasOnly (files : List ReportFile) (group : RichStatus → Bool) (label : List Char) : Prop :=
  ∀ r ∈ resultsOf py files, keyLabel r.key = label → group r.richStatus = true

instance (files : List ReportFile) (group : RichStatus → Bool) :
    DecidablePred (HasSome py files group) := fun _ => inferInstanceAs (Decidable (∃ _ ∈ _, _))

instance (files : List ReportFile) (group : RichStatus → Bool) :
    DecidablePred (HasOnly py files group) := fun _ => inferInstanceAs (Decidable (∀ _ ∈ _, _))

/-- The three numbers are those of the labels that only pass, that only fail, and that
do both. -/
structure SaysWhatItMeans (files : List ReportFile) (e : Explanation) : Prop where
  permPass : e.permPass = ((labels py files).filter (HasOnly py files RichStatus.isPassed)).card
  permFail : e.permFail = ((labels py files).filter (HasOnly py files RichStatus.isRealFail)).card
  mixed : e.mixed = ((labels py files).filter fun label =>
    HasSome py files RichStatus.isPassed label ∧ HasSome py files RichStatus.isRealFail label).card

variable {py}

theorem mem_labels {files : List ReportFile} {label : List Char} :
    label ∈ labels py files ↔ ∃ r ∈ resultsOf py files, keyLabel r.key = label := by
  rw [labels, List.mem_toFinset, List.mem_map]

/-! ## The numbers as numbers of labels -/

section
variable {files : List ReportFile} {rows : Rows}

theorem keys_aggregateStatuses (h : aggregateStatuses py files = .ok rows) :
    (rows.items.map Prod.fst).toFinset = labels py files := by
  ext label
  rw [aggregateStatuses_eq h, List.mem_toFinset, mem_keys_foldl_addStatus, mem_labels]
  simp [PyDict.empty]

/-- A group counts something in the row of a label exactly if a result is in it. -/
theorem groupCount_pos_iff (h : aggregateStatuses py files = .ok rows)
    (group : RichStatus → Bool) (label : List Char) :
    0 < groupCount group (rowAt rows label) ↔ HasSome py files group label := by
  have hcount := groupCount_rowAt_foldl group label (resultsOf py files) .empty
  rw [← aggregateStatuses_eq h, show groupCount group (rowAt .empty label) = 0 from rfl,
    Nat.zero_add] at hcount
  rw [hcount, List.countP_pos_iff, HasSome]
  simp only [Bool.and_eq_true, decide_eq_true_eq]

/-- So many rows have a property as labels whose row has it. -/
theorem length_filter_rows (h : aggregateStatuses py files = .ok rows)
    (q : StatusSummaryRow → Bool) :
    (rows.items.filter fun e => q e.2).length =
      ((labels py files).filter fun label => q (rowAt rows label) = true).card := by
  have hrow : ∀ e ∈ rows.items, rowAt rows e.1 = e.2 := by
    intro e he
    rw [rowAt, PyDict.mem_items_iff.mp he]
    rfl
  have hkeys : (rows.items.filter fun e => q e.2).map Prod.fst =
      (rows.items.map Prod.fst).filter fun label => q (rowAt rows label) := by
    rw [List.filter_map]
    refine congrArg _ (List.filter_congr fun e he => ?_)
    rw [Function.comp_apply, hrow e he]
  rw [← keys_aggregateStatuses h, ← List.toFinset_filter,
    List.toFinset_card_of_nodup (rows.nodup.filter _), ← hkeys, List.length_map]

/-- The summary counts the labels that fail and have a property. -/
theorem countP_statusSummary (h : aggregateStatuses py files = .ok rows) (q : StatusCounts → Bool) :
    ((((rows.items.filter fun (_, row) => 0 < row.totalFail).map fun (label, row) =>
        (label, row.counts)).insertionSort mostFailuresFirst).countP fun e => q e.2) =
      ((labels py files).filter fun label => q (rowAt rows label).counts = true ∧
        HasSome py files RichStatus.isRealFail label).card := by
  have hfilter := length_filter_rows h fun row => q row.counts && decide (0 < row.totalFail)
  rw [(List.perm_insertionSort _ _).countP_eq, List.countP_map, List.countP_filter,
    List.countP_eq_length_filter]
  refine hfilter.trans (congrArg Finset.card (Finset.filter_congr fun label _ => ?_))
  rw [Bool.and_eq_true, decide_eq_true_eq, StatusSummaryRow.totalFail_eq,
    StatusSummaryRow.totalRealFail_eq, groupCount_pos_iff h]

theorem passed_pos_iff (h : aggregateStatuses py files = .ok rows) (label : List Char) :
    0 < (rowAt rows label).counts.passed ↔ HasSome py files RichStatus.isPassed label := by
  show 0 < (rowAt rows label).passed ↔ _
  rw [StatusSummaryRow.passed_eq, groupCount_pos_iff h]

theorem failed_iff (h : aggregateStatuses py files = .ok rows) (label : List Char) :
    (rowAt rows label).counts.failed = true ↔ HasSome py files RichStatus.isRealFail label := by
  rw [← groupCount_pos_iff h, ← StatusSummaryRow.totalRealFail_eq, ← StatusSummaryRow.totalFail_eq]
  show ((rowAt rows label).failure ≠ 0 || (rowAt rows label).error ≠ 0) = true ↔
    0 < (rowAt rows label).failure + (rowAt rows label).error
  simp only [Bool.or_eq_true, decide_eq_true_eq]
  omega

end

theorem length_allTestLabels {files : List ReportFile} {allLabels : List (List Char)}
    (h : allTestLabels py files = .ok allLabels) : allLabels.length = (labels py files).card := by
  have hloop : ∀ (rs : List TestResult) (start : List (List Char)), start.Nodup →
      (rs.foldl (fun labels r => labels.insert (keyLabel r.key)) start).Nodup ∧
        ∀ label, label ∈ rs.foldl (fun labels r => labels.insert (keyLabel r.key)) start ↔
          label ∈ start ∨ ∃ r ∈ rs, keyLabel r.key = label := by
    intro rs
    induction rs with
    | nil => simp
    | cons r rs ih =>
        intro start hstart
        obtain ⟨hnodup, hmem⟩ := ih _ (hstart.insert (a := keyLabel r.key))
        refine ⟨hnodup, fun label => ?_⟩
        rw [List.foldl_cons, hmem, List.mem_insert_iff, List.exists_mem_cons_iff, or_assoc,
          or_left_comm]
        exact or_congr_right (or_congr_left eq_comm)
  obtain ⟨hnodup, hmem⟩ := hloop (resultsOf py files) [] List.nodup_nil
  rw [foldlM_loadResults h, ← List.toFinset_card_of_nodup hnodup]
  congr 1
  ext label
  rw [List.mem_toFinset, hmem, mem_labels]
  simp

/-- What `generate_explanation` counts: labels without a failure, labels with a failure and
no pass, and labels with both. -/
theorem explanation_counts {files : List ReportFile} {e : Explanation}
    (h : explanation py files = .ok e) :
    e.permPass = ((labels py files).filter fun label =>
        ¬HasSome py files RichStatus.isRealFail label).card ∧
      e.permFail = ((labels py files).filter fun label =>
        ¬HasSome py files RichStatus.isPassed label ∧
          HasSome py files RichStatus.isRealFail label).card ∧
      e.mixed = ((labels py files).filter fun label =>
        HasSome py files RichStatus.isPassed label ∧
          HasSome py files RichStatus.isRealFail label).card := by
  obtain ⟨statusSummary, hsummary, hrest⟩ := PyError.bind_eq_ok_iff.mp h
  obtain ⟨allLabels, hlabels, he⟩ := PyError.bind_eq_ok_iff.mp hrest
  obtain ⟨rows, hrows, hstatusSummary⟩ := PyError.bind_eq_ok_iff.mp hsummary
  obtain rfl := Except.ok.inj hstatusSummary
  obtain rfl := Except.ok.inj he
  refine ⟨?_, ?_, ?_⟩
  · -- all labels without those of the summary
    have hall := (countP_statusSummary hrows fun _ => true).trans
      (congrArg Finset.card (Finset.filter_congr fun label _ => and_iff_right rfl))
    rw [List.countP_true] at hall
    have hsplit := Finset.card_filter_add_card_filter_not (s := labels py files)
      (HasSome py files RichStatus.isRealFail)
    show ((allLabels.length : Int) - _) = _
    rw [length_allTestLabels hlabels, hall]
    omega
  · refine (countP_statusSummary hrows fun c => c.passed = 0 && c.failed).trans ?_
    refine congrArg Finset.card (Finset.filter_congr fun label _ => ?_)
    rw [Bool.and_eq_true, decide_eq_true_eq, failed_iff hrows, ← passed_pos_iff hrows,
      Nat.pos_iff_ne_zero, not_not, and_assoc, and_self]
  · refine (countP_statusSummary hrows fun c => 0 < c.passed && c.failed).trans ?_
    refine congrArg Finset.card (Finset.filter_congr fun label _ => ?_)
    rw [Bool.and_eq_true, decide_eq_true_eq, failed_iff hrows, passed_pos_iff hrows]
    tauto

/-! ## When they are what they should be -/

/-- So many labels of a set have a property as have a weaker one, exactly if the weaker
one implies it. -/
theorem card_filter_eq_iff {α : Type*} {s : Finset α} {p q : α → Prop} [DecidablePred p]
    [DecidablePred q] (h : ∀ x ∈ s, p x → q x) :
    (s.filter q).card = (s.filter p).card ↔ ∀ x ∈ s, q x → p x := by
  have hsubset : s.filter p ⊆ s.filter q := by
    intro x hx
    rw [Finset.mem_filter] at hx ⊢
    exact ⟨hx.1, h x hx.1 hx.2⟩
  constructor
  · intro hcard x hx hq
    have heq := Finset.eq_of_subset_of_card_le hsubset hcard.le
    have hmem : x ∈ s.filter q := Finset.mem_filter.mpr ⟨hx, hq⟩
    rw [← heq] at hmem
    exact (Finset.mem_filter.mp hmem).2
  · intro hall
    refine congrArg Finset.card (Finset.filter_congr fun x hx => ?_)
    exact ⟨hall x hx, h x hx⟩

section
variable {files : List ReportFile} {label : List Char}

theorem mem_labels_of_hasSome {group : RichStatus → Bool} (h : HasSome py files group label) :
    label ∈ labels py files := by
  obtain ⟨r, hr, hlabel, -⟩ := h
  exact mem_labels.mpr ⟨r, hr, hlabel⟩

/-- Only one of three groups, if the three are disjoint and together are all. -/
theorem hasOnly_iff {group other other' : RichStatus → Bool}
    (h : ∀ rs, group rs = true ↔ ¬other rs = true ∧ ¬other' rs = true) :
    HasOnly py files group label ↔
      ¬HasSome py files other label ∧ ¬HasSome py files other' label := by
  constructor
  · intro honly
    constructor
    · rintro ⟨r, hr, hlabel, hother⟩
      exact ((h _).mp (honly r hr hlabel)).1 hother
    · rintro ⟨r, hr, hlabel, hother⟩
      exact ((h _).mp (honly r hr hlabel)).2 hother
  · intro ⟨hno, hno'⟩ r hr hlabel
    rw [h]
    exact ⟨fun hother => hno ⟨r, hr, hlabel, hother⟩, fun hother => hno' ⟨r, hr, hlabel, hother⟩⟩

theorem hasOnly_isPassed_iff :
    HasOnly py files RichStatus.isPassed label ↔
      ¬HasSome py files RichStatus.isRealFail label ∧
        ¬HasSome py files RichStatus.isSkipped label :=
  hasOnly_iff fun rs => by cases rs <;> decide

theorem hasOnly_isRealFail_iff :
    HasOnly py files RichStatus.isRealFail label ↔
      ¬HasSome py files RichStatus.isPassed label ∧
        ¬HasSome py files RichStatus.isSkipped label :=
  hasOnly_iff fun rs => by cases rs <;> decide

/-- A label has a result, and so one that failed if it has none of the other two kinds. -/
theorem hasSome_isRealFail (hmem : label ∈ labels py files)
    (honly : HasOnly py files RichStatus.isRealFail label) :
    HasSome py files RichStatus.isRealFail label := by
  obtain ⟨r, hr, hlabel⟩ := mem_labels.mp hmem
  exact ⟨r, hr, hlabel, honly r hr hlabel⟩

/-- **When the explanation says what it means.**  Exactly if every label that was skipped in
one report passed in another and failed in a third. -/
theorem explanation_iff {e : Explanation} (h : explanation py files = .ok e) :
    SaysWhatItMeans py files e ↔
      ∀ label, HasSome py files RichStatus.isSkipped label →
        HasSome py files RichStatus.isPassed label ∧
          HasSome py files RichStatus.isRealFail label := by
  obtain ⟨hpass, hfail, hmixed⟩ := explanation_counts h
  -- the labels that are counted, and among them those that should be
  have hpassIff := card_filter_eq_iff (s := labels py files)
    (p := HasOnly py files RichStatus.isPassed)
    (q := fun label => ¬HasSome py files RichStatus.isRealFail label)
    fun label _ honly => (hasOnly_isPassed_iff.mp honly).1
  have hfailIff := card_filter_eq_iff (s := labels py files)
    (p := HasOnly py files RichStatus.isRealFail)
    (q := fun label => ¬HasSome py files RichStatus.isPassed label ∧
      HasSome py files RichStatus.isRealFail label)
    fun label hmem honly => ⟨(hasOnly_isRealFail_iff.mp honly).1, hasSome_isRealFail hmem honly⟩
  constructor
  · intro hsays label hskip
    have hmem := mem_labels_of_hasSome hskip
    have hpermPass := hpassIff.mp (Int.ofNat_inj.mp (hpass.symm.trans hsays.permPass)) label hmem
    have hpermFail := hfailIff.mp (hfail.symm.trans hsays.permFail) label hmem
    rw [hasOnly_isPassed_iff] at hpermPass
    rw [hasOnly_isRealFail_iff] at hpermFail
    tauto
  · intro hskips
    refine ⟨?_, ?_, hmixed⟩
    · refine hpass.trans (congrArg Nat.cast (hpassIff.mpr fun label _ hno => ?_))
      rw [hasOnly_isPassed_iff]
      exact ⟨hno, fun hskip => hno (hskips label hskip).2⟩
    · refine hfail.trans (hfailIff.mpr fun label _ hno => ?_)
      rw [hasOnly_isRealFail_iff]
      exact ⟨hno.1, fun hskip => hno.1 (hskips label hskip).1⟩

end

/-! ## A test that is never run -/

/-- A report of one test case, with the outcome as its child. -/
def reportWith (children : List XmlElement) : ReportFile where
  path := "junit_interoperability_report.xml"
  root := named "testsuites" "" [named "testsuite" "Suite" [named "testcase" "Case" children]]

/-- The message of a subscriber that does not have the feature. -/
def unsupported : XmlElement :=
  .mk "skipped" ⟨[("message", "<th> Subscriber_1 </th> <th> OK </th> " ++
    "<th> SUB_UNSUPPORTED_FEATURE </th>")], List.nodup_singleton _⟩ [] [] []

/-- A test that passes in one report and fails in another. -/
theorem explanation_iff_flaky :
    SaysWhatItMeans PyInterp.ascii [reportWith [], reportWith [named "failure" "" []]]
        ⟨1, 0, 0, 1⟩ ↔
      ∀ label, HasSome PyInterp.ascii [reportWith [], reportWith [named "failure" "" []]]
          RichStatus.isSkipped label →
        HasSome PyInterp.ascii [reportWith [], reportWith [named "failure" "" []]]
            RichStatus.isPassed label ∧
          HasSome PyInterp.ascii [reportWith [], reportWith [named "failure" "" []]]
            RichStatus.isRealFail label :=
  explanation_iff (by decide +kernel)

/-- A feature that is missing: the one test is said to pass always. -/
theorem not_saysWhatItMeans_unsupported :
    explanation PyInterp.ascii [reportWith [unsupported]] = .ok ⟨1, 1, 0, 0⟩ ∧
      ((labels PyInterp.ascii [reportWith [unsupported]]).filter
        (HasOnly PyInterp.ascii [reportWith [unsupported]] RichStatus.isPassed)).card = 0 ∧
      ¬SaysWhatItMeans PyInterp.ascii [reportWith [unsupported]] ⟨1, 1, 0, 0⟩ := by
  have hnone : ((labels PyInterp.ascii [reportWith [unsupported]]).filter
      (HasOnly PyInterp.ascii [reportWith [unsupported]] RichStatus.isPassed)).card = 0 := by
    decide +kernel
  refine ⟨by decide +kernel, hnone, ?_⟩
  intro hsays
  have hpermPass := hsays.permPass
  rw [hnone] at hpermPass
  cases hpermPass

end DdsRtps.Analysis
