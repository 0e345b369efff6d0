/-
# `DdsRtps.Xlsx.JunitData` — what the spreadsheet takes from a JUnit report

`ProductUtils.get_product_name` and `JunitData` of src/generate_xlsx_report.py.
A suite is one pair of products, written `<publisher>---<subscriber>`; its cases
go into a list for the publisher and a list for the subscriber, its counts into
the sums of each and of the pair.

`get_info` goes through the suites and their cases once and raises as soon as
something is missing.  It is the same as reading everything first and then
filling the four dicts each on its own (`getInfo_eq`).
-/
import DdsRtps.Analysis.Aggregate

namespace DdsRtps.Xlsx

open Regex Analysis

abbrev Text := List Char

/-- An interpreter, with `str.upper`. -/
structure PyUpper extends PyInterp where
  upper : Text → Text
  upper_ascii : ∀ t : Text, (∀ c ∈ t, c.toNat < 128) → upper t = t.map Char.toUpper

/-- An interpreter without letters beyond ASCII. -/
def PyUpper.ascii : PyUpper where
  toPyInterp := PyInterp.ascii
  upper t := t.map Char.toUpper
  upper_ascii _ _ := rfl

/-! ## A report -/

inductive ResultKind where
  | failure
  | error
  | skipped
deriving DecidableEq, Repr

/-- A result element of a case. -/
structure Result where
  kind : ResultKind
  message : Option Text
deriving DecidableEq, Repr

structure Case where
  name : Option Text
  result : List Result
deriving DecidableEq, Repr

def Case.isFailure (case : Case) : Bool := case.result.any (·.kind = .failure)

def Case.isError (case : Case) : Bool := case.result.any (·.kind = .error)

def Case.isSkipped (case : Case) : Bool := case.result.any (·.kind = .skipped)

def Case.isPassed (case : Case) : Bool := !case.isError && !case.isFailure && !case.isSkipped

/-- A suite, with its counters. -/
structure Suite where
  name : Option Text
  tests : Int
  failures : Int
  skipped : Int
  errors : Int
  cases : List Case
deriving DecidableEq, Repr

/-- A suite whose counters count its cases. -/
def Suite.counted (name : Text) (cases : List Case) : Suite where
  name := some name
  tests := cases.length
  failures := cases.countP Case.isFailure
  skipped := cases.countP Case.isSkipped
  errors := cases.countP Case.isError
  cases := cases

/-! ## Names -/

variable (py : PyUpper)

/-- `([\d.]+)`. -/
def versionRe : Regex Char := .group 1 (plus fun c => decimalDigit py.toPyInterp c || c = '.')

/-- What is in the name of a product, and how its beautified name begins: the
branches of `get_product_name`, in their order. -/
def productTitles : List (List Text × Text) :=
  [(["connext".toList, "micro".toList], "Connext DDS Micro".toList),
    (["connext".toList], "Connext DDS".toList),
    (["opendds".toList], "OpenDDS".toList),
    (["coredx".toList], "CoreDX DDS".toList),
    (["intercom".toList], "InterCOM DDS".toList),
    (["fastdds".toList], "FastDDS".toList),
    (["dust_dds".toList], "Dust DDS".toList),
    (["hdds".toList], "HDDS".toList),
    (["cyclone".toList], "Cyclone DDS".toList),
    (["zzdds".toList], "Zenzen DDS".toList)]

/-- `get_product_name`. -/
def getProductName (product : Text) : Text :=
  let ver := match (search (versionRe py) product).bind (·.group 1) with
    | some v => ' ' :: v
    | none => []
  match productTitles.find? fun entry => entry.1.all (· <:+: py.lower product) with
  | some (_, title) => py.strip (title ++ ver)
  | none => product

/-- `([\S]+)\-\-\-([\S]+)`. -/
def productNamesRe : Regex Char :=
  cat [.group 1 (plus (notSpace py.toPyInterp)), lit "---".toList,
    .group 2 (plus (notSpace py.toPyInterp))]

/-- `((?:Test_)[\S]+_\d+)`. -/
def testNameRe : Regex Char :=
  .group 1 (cat [lit "Test_".toList, plus (notSpace py.toPyInterp), lit "_".toList,
    plus (decimalDigit py.toPyInterp)])

/-- The beautified publisher and subscriber of a suite. -/
def productNames (suiteName : Text) : Text × Text :=
  let found := (search (productNamesRe py) suiteName).bind fun m =>
    (m.group 1).bind fun publisher => (m.group 2).map fun subscriber => (publisher, subscriber)
  match found with
  | some (publisher, subscriber) => (getProductName py publisher, getProductName py subscriber)
  | none => (getProductName py suiteName, getProductName py suiteName)

def testName (caseName : Text) : Text :=
  ((search (testNameRe py) caseName).bind (·.group 1)).getD caseName

/-! ## A case -/

inductive TestStatus where
  | passed
  | failed
  | pubUnsupported
  | subUnsupported
  | pubSubUnsupported
deriving DecidableEq, Repr

/-- Does the message of the first result have the text in it? -/
def Case.mentions (feature : Text) (case : Case) : Bool :=
  case.result.head?.any fun result => feature <:+: py.upper (result.message.getD [])

def Case.isPubUnsupported (case : Case) : Bool :=
  case.mentions py "PUB_UNSUPPORTED_FEATURE".toList

def Case.isSubUnsupported (case : Case) : Bool :=
  case.mentions py "SUB_UNSUPPORTED_FEATURE".toList

def Case.isUnsupported (case : Case) : Bool :=
  case.isPubUnsupported py || case.isSubUnsupported py

def Case.status (case : Case) : TestStatus :=
  if case.isPassed then .passed
  else if case.isPubUnsupported py && case.isSubUnsupported py then .pubSubUnsupported
  else if case.isPubUnsupported py then .pubUnsupported
  else if case.isSubUnsupported py then .subUnsupported
  else .failed

def Case.testName (case : Case) : Text := Xlsx.testName py (case.name.getD [])

/-- `re.search` raises without a name, and `upper` without a message. -/
def Case.raises (case : Case) : Option PyError :=
  if case.name = none then some .typeError
  else if case.result.head?.any (·.message = none) then some .attributeError
  else none

/-! ## The data -/

/-- `JunitAggregatedData`. -/
structure AggregatedData where
  passedTests : Int
  totalTests : Int
  unsupportedTests : Int
deriving DecidableEq, Repr

namespace AggregatedData

@[ext] theorem ext {a b : AggregatedData} (hpassed : a.passedTests = b.passedTests)
    (htotal : a.totalTests = b.totalTests)
    (hunsupported : a.unsupportedTests = b.unsupportedTests) : a = b := by
  cases a
  cases b
  simp only at hpassed htotal hunsupported
  rw [hpassed, htotal, hunsupported]

def supportedTests (a : AggregatedData) : Int := a.totalTests - a.unsupportedTests

instance : Add AggregatedData :=
  ⟨fun a b => ⟨a.passedTests + b.passedTests, a.totalTests + b.totalTests,
    a.unsupportedTests + b.unsupportedTests⟩⟩

instance : Zero AggregatedData := ⟨⟨0, 0, 0⟩⟩

instance : AddCommMonoid AggregatedData where
  add_assoc a b c := ext (Int.add_assoc _ _ _) (Int.add_assoc _ _ _) (Int.add_assoc _ _ _)
  zero_add a := ext (Int.zero_add _) (Int.zero_add _) (Int.zero_add _)
  add_zero a := ext (Int.add_zero _) (Int.add_zero _) (Int.add_zero _)
  add_comm a b := ext (Int.add_comm _ _) (Int.add_comm _ _) (Int.add_comm _ _)
  nsmul := nsmulRec

end AggregatedData

/-- `JunitTestCaseAggregatedData`. -/
structure TestCaseAggregatedData where
  product : Text
  testName : Text
  status : TestStatus
deriving DecidableEq, Repr

structure JunitData where
  summaryDict : PyDict Text AggregatedData
  productSummaryDict : PyDict (Text × Text) AggregatedData
  publisherProductDict : PyDict Text (List TestCaseAggregatedData)
  subscriberProductDict : PyDict Text (List TestCaseAggregatedData)

/-- The dicts before the first report. -/
def JunitData.empty : JunitData := ⟨.empty, .empty, .empty, .empty⟩

/-- `update_value_aggregated_data_dict`. -/
def updateValueAggregatedDataDict {κ : Type} [DecidableEq κ] (dictionary : PyDict κ AggregatedData)
    (key : κ) (value : AggregatedData) : PyDict κ AggregatedData :=
  match dictionary.get? key with
  | some old => dictionary.modify key fun _ => old + value
  | none => dictionary.setDefault key value

/-- `update_value_to_product_dict`. -/
def updateValueToProductDict (key : Text) (productDict : PyDict Text (List TestCaseAggregatedData))
    (value : TestCaseAggregatedData) : PyDict Text (List TestCaseAggregatedData) :=
  match productDict.get? key with
  | some list => productDict.modify key fun _ => list ++ [value]
  | none => productDict.setDefault key [value]

/-- The body of the loop over the cases of a suite, with the count of the
unsupported ones. -/
def addCase (publisherName subscriberName : Text) (s : JunitData × Int) (case : Case) :
    Except PyError (JunitData × Int) :=
  match case.raises with
  | some e => .error e
  | none =>
      .ok ({ s.1 with
        publisherProductDict := updateValueToProductDict publisherName s.1.publisherProductDict
          ⟨subscriberName, case.testName py, case.status py⟩
        subscriberProductDict := updateValueToProductDict subscriberName s.1.subscriberProductDict
          ⟨publisherName, case.testName py, case.status py⟩ },
        if case.isUnsupported py then s.2 + 1 else s.2)

/-- What a suite counts. -/
def Suite.element (suite : Suite) (unsupportedTestsCount : Int) : AggregatedData where
  passedTests := suite.tests - suite.failures - suite.skipped - suite.errors
  totalTests := suite.tests
  unsupportedTests := unsupportedTestsCount

/-- The body of the loop over the suites. -/
def addSuite (data : JunitData) (suite : Suite) : Except PyError JunitData :=
  match suite.name with
  | none => .error .typeError
  | some name =>
      let (publisherName, subscriberName) := productNames py name
      (suite.cases.foldlM (addCase py publisherName subscriberName) (data, 0)).map
        fun (data, unsupportedTestsCount) =>
          let element := suite.element unsupportedTestsCount
          let summaryDict := updateValueAggregatedDataDict data.summaryDict publisherName element
          { data with
            -- a product with itself counts once
            summaryDict := if publisherName ≠ subscriberName then
                updateValueAggregatedDataDict summaryDict subscriberName element
              else summaryDict
            productSummaryDict := updateValueAggregatedDataDict data.productSummaryDict
              (publisherName, subscriberName) element }

/-- `get_info`, with the dicts as it finds them. -/
def getInfo (data : JunitData) (report : List Suite) : Except PyError JunitData :=
  report.foldlM (addSuite py) data

/-! ## What a suite adds -/

def Suite.publisherName (suite : Suite) : Text := (productNames py (suite.name.getD [])).1

def Suite.subscriberName (suite : Suite) : Text := (productNames py (suite.name.getD [])).2

/-- Does the suite raise, and what? -/
def Suite.raises (suite : Suite) : Option PyError :=
  if suite.name = none then some .typeError else suite.cases.findSome? Case.raises

/-- The counts of a suite. -/
def Suite.counts (suite : Suite) : AggregatedData :=
  suite.element (suite.cases.countP (Case.isUnsupported py))

/-- What goes into the sums of the products. -/
def Suite.summaryUpdates (suite : Suite) : List (Text × AggregatedData) :=
  (suite.publisherName py, suite.counts py) ::
    if suite.publisherName py ≠ suite.subscriberName py then
      [(suite.subscriberName py, suite.counts py)]
    else []

/-- What goes into the sum of the pair. -/
def Suite.pairUpdate (suite : Suite) : (Text × Text) × AggregatedData :=
  ((suite.publisherName py, suite.subscriberName py), suite.counts py)

/-- What goes into the list of the publisher. -/
def Suite.publisherUpdates (suite : Suite) : List (Text × TestCaseAggregatedData) :=
  suite.cases.map fun case =>
    (suite.publisherName py, ⟨suite.subscriberName py, case.testName py, case.status py⟩)

/-- What goes into the list of the subscriber. -/
def Suite.subscriberUpdates (suite : Suite) : List (Text × TestCaseAggregatedData) :=
  suite.cases.map fun case =>
    (suite.subscriberName py, ⟨suite.publisherName py, case.testName py, case.status py⟩)

/-- The dicts with a report in them. -/
def JunitData.record (data : JunitData) (report : List Suite) : JunitData where
  summaryDict := data.summaryDict.addToAll (report.flatMap (Suite.summaryUpdates py))
  productSummaryDict := data.productSummaryDict.addToAll (report.map (Suite.pairUpdate py))
  publisherProductDict :=
    data.publisherProductDict.pushAll (report.flatMap (Suite.publisherUpdates py))
  subscriberProductDict :=
    data.subscriberProductDict.pushAll (report.flatMap (Suite.subscriberUpdates py))

variable {py}

theorem updateValueAggregatedDataDict_eq {κ : Type} [DecidableEq κ]
    (d : PyDict κ AggregatedData) (key : κ) (value : AggregatedData) :
    updateValueAggregatedDataDict d key value = d.addTo key value := by
  rw [updateValueAggregatedDataDict, PyDict.addTo]
  cases h : d.get? key with
  | some old => exact (PyDict.upsert_of_get?_eq_some h 0 (· + value)).symm
  | none => rw [PyDict.upsert_of_get?_eq_none h, zero_add]

theorem updateValueToProductDict_eq (key : Text) (d : PyDict Text (List TestCaseAggregatedData))
    (value : TestCaseAggregatedData) : updateValueToProductDict key d value = d.push key value := by
  rw [updateValueToProductDict, PyDict.push]
  cases h : d.get? key with
  | some list => exact (PyDict.upsert_of_get?_eq_some h [] (· ++ [value])).symm
  | none =>
      rw [PyDict.upsert_of_get?_eq_none h]
      rfl

/-- The loop over the cases: it raises what the first bad case raises, or fills
the two lists and counts. -/
theorem foldlM_addCase (publisherName subscriberName : Text) (cases : List Case) (data : JunitData)
    (n : Int) :
    cases.foldlM (addCase py publisherName subscriberName) (data, n) =
      match cases.findSome? Case.raises with
      | some e => .error e
      | none => .ok ({ data with
          publisherProductDict := data.publisherProductDict.pushAll
            (cases.map fun case =>
              (publisherName, ⟨subscriberName, case.testName py, case.status py⟩))
          subscriberProductDict := data.subscriberProductDict.pushAll
            (cases.map fun case =>
              (subscriberName, ⟨publisherName, case.testName py, case.status py⟩)) },
        n + cases.countP (Case.isUnsupported py)) := by
  induction cases generalizing data n with
  | nil =>
      show Except.ok (data, n) = .ok (data, n + 0)
      rw [add_zero]
  | cons case cases ih =>
      rw [PyError.foldlM_cons, addCase, List.findSome?_cons]
      cases hraises : case.raises with
      | some e => rfl
      | none =>
          rw [PyError.ok_bind, ih]
          cases cases.findSome? Case.raises with
          | some e => rfl
          | none =>
              have hcount : (if case.isUnsupported py then n + 1 else n) +
                  (cases.countP (Case.isUnsupported py) : Int) =
                  n + ((case :: cases).countP (Case.isUnsupported py) : Int) := by
                rw [List.countP_cons]
                split
                · omega
                · omega
              simp only [updateValueToProductDict_eq, hcount]
              rfl

theorem addSuite_eq (data : JunitData) (suite : Suite) :
    addSuite py data suite =
      match suite.raises with
      | some e => .error e
      | none => .ok (data.record py [suite]) := by
  rw [addSuite, Suite.raises]
  cases hname : suite.name with
  | none => rfl
  | some name =>
      simp only [foldlM_addCase, reduceCtorEq, if_false]
      cases suite.cases.findSome? Case.raises with
      | some e => rfl
      | none =>
          have hpublisher : (productNames py name).1 = suite.publisherName py := by
            rw [Suite.publisherName, hname, Option.getD_some]
          have hsubscriber : (productNames py name).2 = suite.subscriberName py := by
            rw [Suite.subscriberName, hname, Option.getD_some]
          simp only [Except.map, updateValueAggregatedDataDict_eq, hpublisher, hsubscriber,
            Int.zero_add]
          rw [JunitData.record]
          simp only [List.flatMap_cons, List.flatMap_nil, List.append_nil, List.map_cons,
            List.map_nil]
          by_cases hsame : suite.publisherName py = suite.subscriberName py
          · rw [Suite.summaryUpdates, if_neg (by simpa using hsame), if_neg (by simpa using hsame)]
            rfl
          · rw [Suite.summaryUpdates, if_pos hsame, if_pos hsame]
            rfl

theorem record_append (data : JunitData) (report report' : List Suite) :
    data.record py (report ++ report') = (data.record py report).record py report' := by
  simp only [JunitData.record, PyDict.addToAll, PyDict.pushAll, List.flatMap_append,
    List.map_append, List.foldl_append]

/-- All is read, and then the dicts are filled. -/
theorem getInfo_eq (data : JunitData) (report : List Suite) :
    getInfo py data report =
      match report.findSome? Suite.raises with
      | some e => .error e
      | none => .ok (data.record py report) := by
  induction report generalizing data with
  | nil => rfl
  | cons suite report ih =>
      rw [getInfo, PyError.foldlM_cons, addSuite_eq, List.findSome?_cons]
      cases suite.raises with
      | some e => rfl
      | none =>
          rw [PyError.ok_bind, ← getInfo, ih, ← record_append]
          rfl

theorem getInfo_eq_ok {data data' : JunitData} {report : List Suite} :
    getInfo py data report = .ok data' ↔
      (∀ suite ∈ report, suite.raises = none) ∧ data' = data.record py report := by
  rw [getInfo_eq, ← List.findSome?_eq_none_iff]
  cases report.findSome? Suite.raises with
  | some e => exact ⟨nofun, nofun⟩
  | none =>
      constructor
      · intro h
        exact ⟨rfl, (Except.ok.inj h).symm⟩
      · rintro ⟨-, rfl⟩
        rfl

end DdsRtps.Xlsx
