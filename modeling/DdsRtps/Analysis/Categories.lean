/-
# `DdsRtps.Analysis.Categories` — what decides the status of a skip and of a failure

A skipped test case counts as passed when all its rows agree.  The rows come
from the table in its message, and a message without table has none: they all
agree then, and `passedOnEvidence_iff` says that this is the only pass without a
row behind it.

A failure gets the category of the code that was produced most often among the
rows that disagree, the first of several.  So a category wins, whatever the
order of the rows, exactly if one code of it is more frequent than every code
of the other categories (`classifyOutcome_failure_iff`).  That the rows of the
category are more, taken together, is not enough.
-/
import DdsRtps.Analysis.StatusSummary
import DdsRtps.Lib.FirstMax

namespace DdsRtps.Analysis

open Regex

/-! ## Skipped test cases -/

/-- The message has three cells in a row, the first neither blank nor a heading,
where the scan for such rows looks for them. -/
def HasRow (py : PyUnicode) (message : List Char) : Prop :=
  ∃ m ∈ findAll (tableRowRe py) 0 message, (outcomeRow py m.2).isSome = true

theorem parseOutcomeRows_ne_nil_iff (py : PyUnicode) (message : List Char) :
    parseOutcomeRows py message ≠ [] ↔ HasRow py message := by
  rw [parseOutcomeRows, HasRow, Ne, List.filterMap_eq_nil_iff]
  push Not
  simp only [Option.isSome_iff_ne_none]

/-- A skip is a pass, exactly if no code says that a feature is missing and the rows
agree. -/
theorem isPassed_skipped (rows : List OutcomeRow) :
    (classifyOutcome .skipped rows).isPassed =
      (!(rows.any fun r => unsupportedCodes.contains r.produced) &&
        rows.all fun r => r.expected = r.produced) := by
  rw [classifyOutcome]
  cases rows.any fun r => unsupportedCodes.contains r.produced with
  | true => rfl
  | false =>
      cases rows.all fun r => r.expected = r.produced with
      | true => rfl
      | false => rfl

theorem isPassed_of_isFailure {status : RichStatus} (h : status.isFailure = true) :
    status.isPassed = false := by
  cases status <;> first | rfl | cases h

/-- Nothing that fails counts as passed. -/
theorem isPassed_failure (rows : List OutcomeRow) :
    (classifyOutcome .failure rows).isPassed = false := by
  cases h : rows.any fun r => unsupportedCodes.contains r.produced with
  | true =>
      simp only [classifyOutcome, h]
      rfl
  | false => exact isPassed_of_isFailure (isFailure_classifyOutcome h)

/-- The result counts as passed only on evidence: a row was parsed from the message of
the skip, and every row that was parsed agrees. -/
def PassedOnEvidence (py : PyUnicode) (suite case skipped : XmlElement) : Prop :=
  (testResult py suite case).richStatus.isPassed = true →
    parseOutcomeRows py (skipped.get "message").toList ≠ [] ∧
      ∀ r ∈ parseOutcomeRows py (skipped.get "message").toList, r.expected = r.produced

/-- **A skip without a row is a pass.**  A test case that is skipped counts as passed
only on evidence, exactly if there is a row in the message, or if a failure or an error
stands beside the skip. -/
theorem passedOnEvidence_iff (py : PyUnicode) {suite case skipped : XmlElement}
    (h : case.find "skipped" = some skipped) :
    PassedOnEvidence py suite case skipped ↔
      HasRow py (skipped.get "message").toList ∨
        case.find "failure" ≠ none ∨ case.find "error" ≠ none := by
  rw [← parseOutcomeRows_ne_nil_iff, PassedOnEvidence, testResult, outcomeOf, h]
  cases hfailure : case.find "failure" with
  | some failure => simp [isPassed_failure]
  | none =>
      cases herror : case.find "error" with
      | some error => simp [classifyOutcome, RichStatus.isPassed]
      | none =>
          simp only [isPassed_skipped, ne_eq, not_true_eq_false, or_false, Bool.and_eq_true,
            List.all_eq_true, decide_eq_true_eq]
          constructor
          · intro hevidence hnil
            rw [hnil] at hevidence
            exact (hevidence ⟨rfl, List.forall_mem_nil _⟩).1 rfl
          · intro hrow hagree
            exact ⟨hrow, hagree.2⟩

/-- `<skipped message="..."/>`. -/
def skippedWith (message : String) : XmlElement :=
  .mk "skipped" ⟨[("message", message)], List.nodup_singleton _⟩ [] [] []

/-- The table of the harness, cut down to one row. -/
theorem passedOnEvidence_iff_oneRow :
    PassedOnEvidence PyUnicode.ascii (named "testsuite" "Suite" [])
        (named "testcase" "Case" [skippedWith "<th> Subscriber_1 </th> <th> OK </th> <th> OK </th>"])
        (skippedWith "<th> Subscriber_1 </th> <th> OK </th> <th> OK </th>") ↔
      HasRow PyUnicode.ascii "<th> Subscriber_1 </th> <th> OK </th> <th> OK </th>".toList ∨
        (named "testcase" "Case"
            [skippedWith "<th> Subscriber_1 </th> <th> OK </th> <th> OK </th>"]).find "failure" ≠
          none ∨
        (named "testcase" "Case"
            [skippedWith "<th> Subscriber_1 </th> <th> OK </th> <th> OK </th>"]).find "error" ≠
          none :=
  passedOnEvidence_iff PyUnicode.ascii rfl

/-- A test case that was not run is a pass. -/
theorem not_passedOnEvidence_notRun :
    (testResult PyUnicode.ascii (named "testsuite" "Suite" [])
        (named "testcase" "Case" [skippedWith "not run"])).richStatus = .passedAsSkipped ∧
      parseOutcomeRows PyUnicode.ascii "not run".toList = [] ∧
      ¬PassedOnEvidence PyUnicode.ascii (named "testsuite" "Suite" [])
        (named "testcase" "Case" [skippedWith "not run"]) (skippedWith "not run") := by
  have hrows : parseOutcomeRows PyUnicode.ascii "not run".toList = [] := by decide +kernel
  refine ⟨by decide +kernel, hrows, ?_⟩
  intro hevidence
  exact (hevidence (by decide +kernel)).1 hrows

/-! ## Failures -/

/-- The category of a produced code. -/
def categoryOf (code : String) : RichStatus :=
  if code = "INCOMPATIBLE_QOS" then .failureQosUnexpected
  else if code = "OK" then .failureFalsePass
  else if dataCodes.contains code then .failureData
  else if orderingCodes.contains code then .failureOrdering
  else if infraCodes.contains code then .failureInfrastructure
  else .failureOther

/-- The codes that were produced where another was expected, in the order of the rows. -/
def mismatches (rows : List OutcomeRow) : List String :=
  (rows.filter fun r => r.expected ≠ r.produced).map OutcomeRow.produced

/-- A code of the category comes more often than every code of the others. -/
def HasTopCode (category : RichStatus) (codes : List String) : Prop :=
  ∃ code ∈ codes, categoryOf code = category ∧
    ∀ other ∈ codes, categoryOf other ≠ category → codes.count other < codes.count code

/-- The codes of the category, taken together, are more than those of every other. -/
def Outnumbers (category : RichStatus) (codes : List String) : Prop :=
  ∀ other, other ≠ category →
    (codes.countP fun code => categoryOf code = other) <
      codes.countP fun code => categoryOf code = category

theorem mostCommon_eq (code : String) (codes : List String) :
    mostCommon code codes = firstMax ((code :: codes).count ·) code codes := rfl

/-- The category of a failure is that of the first of its most frequent codes. -/
theorem classifyOutcome_failure {rows : List OutcomeRow} {code : String} {codes : List String}
    (hsupported : ∀ r ∈ rows, r.produced ∉ unsupportedCodes)
    (h : mismatches rows = code :: codes) :
    classifyOutcome .failure rows = categoryOf (mostCommon code codes) := by
  have hnone : (rows.any fun r => unsupportedCodes.contains r.produced) = false := by
    simpa using hsupported
  rw [mismatches] at h
  simp only [classifyOutcome, hnone, Bool.false_eq_true, if_false, h]
  rfl

theorem mismatches_perm {rows rows' : List OutcomeRow} (h : rows'.Perm rows) :
    (mismatches rows').Perm (mismatches rows) := (h.filter _).map _

/-- A code that disagrees can be brought to the front. -/
theorem exists_perm_mismatches_cons {rows : List OutcomeRow} {code : String}
    (h : code ∈ mismatches rows) :
    ∃ rows' codes, rows'.Perm rows ∧ mismatches rows' = code :: codes := by
  obtain ⟨r, hr, rfl⟩ := List.mem_map.mp h
  obtain ⟨hmem, hne⟩ := List.mem_filter.mp hr
  refine ⟨r :: rows.erase r, mismatches (rows.erase r), (List.perm_cons_erase hmem).symm, ?_⟩
  rw [mismatches, List.filter_cons, if_pos hne, List.map_cons]
  rfl

/-- **Which failures have their category whatever the order of the rows.** -/
theorem classifyOutcome_failure_iff {rows : List OutcomeRow}
    (hsupported : ∀ r ∈ rows, r.produced ∉ unsupportedCodes) (hrows : mismatches rows ≠ [])
    (category : RichStatus) :
    (∀ rows', rows'.Perm rows → classifyOutcome .failure rows' = category) ↔
      HasTopCode category (mismatches rows) := by
  have hsupported' : ∀ {rows' : List OutcomeRow}, rows'.Perm rows →
      ∀ r ∈ rows', r.produced ∉ unsupportedCodes := by
    intro rows' hperm r hr
    exact hsupported r (hperm.mem_iff.mp hr)
  constructor
  · intro hall
    obtain ⟨code, codes, hcodes⟩ := List.exists_cons_of_ne_nil hrows
    have htop : ∀ other ∈ mismatches rows,
        (mismatches rows).count other ≤ (mismatches rows).count (mostCommon code codes) := by
      intro other hother
      rw [hcodes, mostCommon_eq] at *
      exact le_firstMax ((code :: codes).count ·) hother
    refine ⟨mostCommon code codes, ?_, ?_, ?_⟩
    · rw [hcodes, mostCommon_eq]
      exact firstMax_mem _ code codes
    · rw [← classifyOutcome_failure hsupported hcodes]
      exact hall rows (List.Perm.refl rows)
    · intro other hother hcategory
      by_contra hmany
      -- the other code is as frequent, and wins when its row comes first
      obtain ⟨rows', codes', hperm, hcodes'⟩ := exists_perm_mismatches_cons hother
      have hcount : ∀ c, (mismatches rows').count c = (mismatches rows).count c :=
        (mismatches_perm hperm).count_eq
      have hhead : mostCommon other codes' = other := by
        rw [mostCommon_eq, ← hcodes']
        refine firstMax_eq_head _ fun c hc => ?_
        rw [hcount, hcount]
        refine (htop c ?_).trans (not_lt.mp hmany)
        rw [← (mismatches_perm hperm).mem_iff, hcodes']
        exact List.mem_cons_of_mem _ hc
      apply hcategory
      rw [← hall rows' hperm, classifyOutcome_failure (hsupported' hperm) hcodes', hhead]
  · rintro ⟨top, htop, rfl, hmore⟩ rows' hperm
    have hcodesPerm := mismatches_perm hperm
    obtain ⟨code, codes, hcodes⟩ : ∃ code codes, mismatches rows' = code :: codes :=
      List.exists_cons_of_ne_nil fun hnil => by
        rw [hnil] at hcodesPerm
        exact hrows hcodesPerm.symm.eq_nil
    rw [classifyOutcome_failure (hsupported' hperm) hcodes]
    by_contra hother
    have hmem : mostCommon code codes ∈ mismatches rows := by
      rw [← hcodesPerm.mem_iff, hcodes, mostCommon_eq]
      exact firstMax_mem _ code codes
    have hless := hmore _ hmem hother
    have hge : (mismatches rows').count top ≤ (mismatches rows').count (mostCommon code codes) := by
      rw [hcodes, mostCommon_eq]
      refine le_firstMax ((code :: codes).count ·) ?_
      rwa [← hcodes, hcodesPerm.mem_iff]
    rw [hcodesPerm.count_eq, hcodesPerm.count_eq] at hge
    omega

/-- A publisher that is refused and two subscribers with wrong data and with none. -/
def refusedAndTwoData : List OutcomeRow :=
  [⟨"Publisher_1", "OK", "INCOMPATIBLE_QOS"⟩, ⟨"Subscriber_1", "OK", "DATA_NOT_CORRECT"⟩,
    ⟨"Subscriber_2", "OK", "DATA_NOT_RECEIVED"⟩]

/-- Two rows about data and one about QoS: the first code of three that come once wins. -/
theorem not_dominant_category :
    (∀ r ∈ refusedAndTwoData, r.produced ∉ unsupportedCodes) ∧
      Outnumbers .failureData (mismatches refusedAndTwoData) ∧
      classifyOutcome .failure refusedAndTwoData = .failureQosUnexpected := by
  refine ⟨by decide, ?_, by decide⟩
  intro other hother
  cases other <;> first | decide | exact absurd rfl hother

/-- Two subscribers with wrong data outvote the publisher. -/
theorem classifyOutcome_failure_iff_wrongData :
    (∀ rows' : List OutcomeRow, rows'.Perm
        [⟨"Publisher_1", "OK", "INCOMPATIBLE_QOS"⟩, ⟨"Subscriber_1", "OK", "DATA_NOT_CORRECT"⟩,
          ⟨"Subscriber_2", "OK", "DATA_NOT_CORRECT"⟩] →
        classifyOutcome .failure rows' = .failureData) ↔
      HasTopCode .failureData
        (mismatches [⟨"Publisher_1", "OK", "INCOMPATIBLE_QOS"⟩,
          ⟨"Subscriber_1", "OK", "DATA_NOT_CORRECT"⟩,
          ⟨"Subscriber_2", "OK", "DATA_NOT_CORRECT"⟩]) :=
  classifyOutcome_failure_iff (by decide) (by decide) .failureData

end DdsRtps.Analysis
