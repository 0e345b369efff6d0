/-
# `DdsRtps.Analysis.LoadResults` — the test cases of a report

`load_results` of src/benchmarking/junit_compare/loader.py, with `TestResult`
of models.py, over the tree that the parser gives.  It goes through the suites
below the root and through the test cases of each, and raises on a key that it
has met before.

So it gives the test cases of those suites, each once (`loadResults_eq`).  A
root that is itself a suite is not below the root: its test cases are not
there (`lossless_iff`).
-/
import DdsRtps.Analysis.Loader
import DdsRtps.Lib.PyError
import DdsRtps.Lib.Xml
import Mathlib.Data.List.Sort

namespace DdsRtps.Analysis

/-! ## The code -/

/-- The attributes of a test case, other than its name and its time. -/
abbrev Attributes := List (String × String)

/-- `TestResult.key`. -/
structure ResultKey where
  suite : String
  name : String
  attributes : Attributes
deriving DecidableEq, Repr

/-- `class TestResult`. -/
structure TestResult where
  suite : String
  name : String
  attributes : Attributes
  status : XmlTag
  richStatus : RichStatus
  detail : List Char
  time : String
  outcomeRows : List OutcomeRow
deriving DecidableEq, Repr

/-- `TestResult.key`. -/
def TestResult.key (r : TestResult) : ResultKey := ⟨r.suite, r.name, r.attributes⟩

/-- `(key, value) <= (key', value')`, as `sorted` compares. -/
def itemLe (a b : String × String) : Bool := a.1 < b.1 || (a.1 == b.1 && !(b.2 < a.2))

/-- `_node_detail`. -/
def nodeDetail (py : PyUnicode) (node : XmlElement) : List Char :=
  let text := py.strip node.itertext
  let message := py.strip (node.get "message").toList
  if message ≠ [] ∧ text ≠ [] then py.strip (message ++ '\n' :: text)
  else if message ≠ [] then message
  else text

/-- What stands in a test case: the tag, the detail and the rows. -/
def outcomeOf (py : PyUnicode) (case : XmlElement) : XmlTag × List Char × List OutcomeRow :=
  match case.find "failure", case.find "error", case.find "skipped" with
  | some failure, _, _ =>
      (.failure, nodeDetail py failure, parseOutcomeRows py (failure.get "message").toList)
  | none, some error, _ => (.error, nodeDetail py error, [])
  | none, none, some skipped =>
      (.skipped, nodeDetail py skipped, parseOutcomeRows py (skipped.get "message").toList)
  | none, none, none => (.passed, [], [])

/-- The result of a test case in a suite. -/
def testResult (py : PyUnicode) (suite case : XmlElement) : TestResult :=
  let attributes := (case.attrib.items.filter fun (key, _) => !(["name", "time"].contains key))
    |>.insertionSort fun a b => itemLe a b
  let (xmlTag, detail, outcomeRows) := outcomeOf py case
  { suite := suite.get "name"
    name := case.get "name"
    attributes := attributes
    status := xmlTag
    richStatus := classifyOutcome xmlTag outcomeRows
    detail := detail
    time := case.get "time"
    outcomeRows := outcomeRows }

/-- The results, by key. -/
abbrev Results := PyDict ResultKey TestResult

/-- `if result.key in results: raise ValueError(...)`, and then
`results[result.key] = result`. -/
def addResult (results : Results) (result : TestResult) : Except PyError Results :=
  if result.key ∈ results.items.map Prod.fst then .error .valueError
  else .ok (results.setDefault result.key result)

/-- `load_results`, from the root of the tree. -/
def loadResults (py : PyUnicode) (root : XmlElement) :
    Except PyError (PyDict String String × Results) := do
  let results ← (root.findallBelow "testsuite").foldlM (fun results suite =>
    (suite.findall "testcase").foldlM (fun results case =>
      addResult results (testResult py suite case)) results) .empty
  return (root.attrib, results)

/-! ## What is loaded -/

variable (py : PyUnicode)

/-- The results of the test cases of some suites. -/
def resultsIn (suites : List XmlElement) : List TestResult :=
  suites.flatMap fun suite => (suite.findall "testcase").map (testResult py suite)

/-- The item of a result. -/
def item (r : TestResult) : ResultKey × TestResult := (r.key, r)

/-- The results of all test cases of all suites of a document. -/
def allResults (root : XmlElement) : List TestResult :=
  resultsIn py (root.elements.filter fun e => e.tag = "testsuite")

/-- The results of the suites below the root. -/
def resultsBelow (root : XmlElement) : List TestResult :=
  resultsIn py (root.findallBelow "testsuite")

/-- The results of the root, as a suite. -/
def resultsOfRoot (root : XmlElement) : List TestResult :=
  if root.tag = "testsuite" then resultsIn py [root] else []

theorem allResults_eq (root : XmlElement) :
    allResults py root = resultsOfRoot py root ++ resultsBelow py root := by
  rw [allResults, XmlElement.filter_elements, resultsIn, List.flatMap_append, resultsOfRoot]
  split
  · rfl
  · rfl

/-- A loop that adds results ends if no key comes twice, and then has them all. -/
theorem foldlM_addResult (rs : List TestResult) (results : Results) :
    (¬(results.items.map Prod.fst ++ rs.map TestResult.key).Nodup ∧
        rs.foldlM addResult results = .error .valueError) ∨
      (∃ results' : Results, results'.items = results.items ++ rs.map item ∧
        rs.foldlM addResult results = .ok results') := by
  induction rs generalizing results with
  | nil => exact .inr ⟨results, by simp, rfl⟩
  | cons r rs ih =>
      rw [PyError.foldlM_cons]
      by_cases hknown : r.key ∈ results.items.map Prod.fst
      · refine .inl ⟨?_, ?_⟩
        · intro hnodup
          rw [List.map_cons, List.nodup_append] at hnodup
          exact hnodup.2.2 _ hknown _ List.mem_cons_self rfl
        · rw [addResult, if_pos hknown, PyError.error_bind]
      · have hitems : (results.setDefault r.key r).items = results.items ++ [item r] := by
          rw [PyDict.setDefault, dif_neg hknown]
          rfl
        rw [addResult, if_neg hknown, PyError.ok_bind]
        rcases ih (results.setDefault r.key r) with ⟨hdup, herror⟩ | ⟨results', hall, hok⟩
        · refine .inl ⟨?_, herror⟩
          rw [hitems, List.map_append, List.append_assoc] at hdup
          exact hdup
        · refine .inr ⟨results', ?_, hok⟩
          rw [hall, hitems, List.append_assoc, List.map_cons]
          rfl

theorem foldlM_suites (suites : List XmlElement) (results : Results) :
    suites.foldlM (fun results suite =>
      (suite.findall "testcase").foldlM (fun results case =>
        addResult results (testResult py suite case)) results) results =
      (resultsIn py suites).foldlM addResult results := by
  induction suites generalizing results with
  | nil => rfl
  | cons suite suites ih =>
      rw [PyError.foldlM_cons, resultsIn, List.flatMap_cons, PyError.foldlM_append,
        List.foldlM_map]
      refine congrArg _ (funext fun results' => ?_)
      exact ih results'

/-- The suites below the root are loaded, or two keys in them are the same. -/
theorem loadResults_eq (root : XmlElement) :
    (¬((resultsBelow py root).map TestResult.key).Nodup ∧
        loadResults py root = .error .valueError) ∨
      (((resultsBelow py root).map TestResult.key).Nodup ∧
        ∃ results : Results, results.items = (resultsBelow py root).map item ∧
          loadResults py root = .ok (root.attrib, results)) := by
  rw [loadResults, foldlM_suites, ← resultsBelow]
  rcases foldlM_addResult (resultsBelow py root) .empty with
    ⟨hdup, herror⟩ | ⟨results, hall, hok⟩
  · exact .inl ⟨hdup, by rw [herror]; rfl⟩
  · refine .inr ⟨?_, results, hall, by rw [hok]; rfl⟩
    have hkeys := results.nodup
    rw [hall] at hkeys
    simpa [PyDict.empty, item, Function.comp_def] using hkeys

/-- Two test cases have equal keys and the loader raises, or there is a result for
each test case of each suite, under its key, and no other. -/
def Lossless (root : XmlElement) : Prop :=
  (¬((allResults py root).map TestResult.key).Nodup ∧ loadResults py root = .error .valueError) ∨
    ∃ results : Results, loadResults py root = .ok (root.attrib, results) ∧
      results.items.Perm ((allResults py root).map item)

/-- Nothing is lost, exactly if the root is not a suite with test cases, or if two
test cases below it have equal keys. -/
theorem lossless_iff (root : XmlElement) :
    Lossless py root ↔
      ¬(root.tag = "testsuite" ∧ root.findall "testcase" ≠ []) ∨
        ¬((resultsBelow py root).map TestResult.key).Nodup := by
  have hroot : resultsOfRoot py root = [] ↔
      ¬(root.tag = "testsuite" ∧ root.findall "testcase" ≠ []) := by
    rw [resultsOfRoot]
    split
    · rename_i htag
      simp [htag, resultsIn]
    · rename_i htag
      simp [htag]
  rw [← hroot, Lossless, allResults_eq]
  rcases loadResults_eq py root with ⟨hdup, herror⟩ | ⟨hnodup, results, hitems, hok⟩
  · have hall : ¬((resultsOfRoot py root ++ resultsBelow py root).map TestResult.key).Nodup := by
      intro hnodup
      rw [List.map_append] at hnodup
      exact hdup hnodup.of_append_right
    exact ⟨fun _ => .inr hdup, fun _ => .inl ⟨hall, herror⟩⟩
  · constructor
    · rintro (⟨-, herror⟩ | ⟨results', hok', hperm⟩)
      · rw [hok] at herror
        cases herror
      · obtain rfl : results = results' := by
          rw [hok] at hok'
          exact (Prod.mk.inj (Except.ok.inj hok')).2
        have hlen := hperm.length_eq
        rw [hitems, List.length_map, List.length_map, List.length_append] at hlen
        exact .inl (List.length_eq_zero_iff.mp (by omega))
    · rintro (hnone | hdup)
      · rw [hnone, List.nil_append]
        exact .inr ⟨results, hok, by rw [hitems]⟩
      · exact absurd hnodup hdup

/-! ## A report of one suite -/

/-- An element with a name and children, and no text. -/
def named (tag name : String) (children : List XmlElement) : XmlElement :=
  .mk tag ⟨[("name", name)], List.nodup_singleton _⟩ [] [] children

/-- `<testsuite name="Suite"><testcase name="Case"/></testsuite>`. -/
def suiteDocument : XmlElement := named "testsuite" "Suite" [named "testcase" "Case" []]

/-- The one test case is not loaded. -/
theorem not_lossless_suiteDocument : ¬Lossless PyUnicode.ascii suiteDocument := by
  have hload : loadResults PyUnicode.ascii suiteDocument =
      .ok (suiteDocument.attrib, .empty) := rfl
  have hall : (allResults PyUnicode.ascii suiteDocument).length = 1 := rfl
  rintro (⟨-, herror⟩ | ⟨results, hok, hperm⟩)
  · rw [hload] at herror
    cases herror
  · rw [hload] at hok
    obtain rfl := (Prod.mk.inj (Except.ok.inj hok)).2
    have hlen := hperm.length_eq
    rw [List.length_map, hall] at hlen
    cases hlen

end DdsRtps.Analysis
