/-
# `DdsRtps.Xlsx.ProductTable` — the worksheet of a product

`add_product_table`, `add_static_data_test` and `add_data_test_worksheet` of
src/generate_xlsx_report.py.  A table gives its columns to the products and its
rows to the tests in the order in which its own list brings them
(`addProductTable_spec`, `tests_addProductTable`).

A worksheet has two tables side by side, and only the first has the names of
the tests.  The second is read by them, but its rows come from its own list: the
two agree exactly if its tests begin those of the first (`rows_aligned_iff`).
-/
import DdsRtps.Lib.FirstSeen
import DdsRtps.Xlsx.JunitData

namespace DdsRtps.Xlsx

/-! ## The code -/

/-- What a cell is for. -/
inductive Content where
  | heading (text : Text)
  | product (name : Text)
  | test (name : Text)
  | result (element : TestCaseAggregatedData)
deriving DecidableEq, Repr

/-- The text of a status. -/
def strResult : TestStatus → Text
  | .passed => "OK".toList
  | .failed => "ERROR".toList
  | .pubUnsupported => "PUB UNSUPPORTED".toList
  | .subUnsupported => "SUB UNSUPPORTED".toList
  | .pubSubUnsupported => "PUB/SUB UNSUPPORTED".toList

/-- The text of a cell. -/
def Content.text : Content → Text
  | .heading text => text
  | .product name => name
  | .test name => name
  | .result element => strResult element.status

/-- A call of `worksheet.write`. -/
structure Write where
  row : Nat
  column : Nat
  content : Content
deriving DecidableEq, Repr

/-- The state of the loop of `add_product_table`. -/
structure Table where
  columns : FirstSeen Text
  rows : FirstSeen Text
  writes : List Write

/-- The body of the loop. -/
def addElement (startingRow startingColumn : Nat) (printTestName : Bool) (t : Table)
    (element : TestCaseAggregatedData) : Table :=
  let processColumn := t.columns.number element.product
  let processRow := t.rows.number element.testName
  { columns := t.columns.assign element.product
    rows := t.rows.assign element.testName
    writes := t.writes ++
      (if t.columns.known element.product then []
        else [⟨startingRow, processColumn, .product element.product⟩]) ++
      (if t.rows.known element.testName || !printTestName then []
        else [⟨processRow, startingColumn, .test element.testName⟩]) ++
      [⟨processRow, processColumn, .result element⟩] }

/-- `add_product_table`. -/
def addProductTable (startingRow startingColumn : Nat) (value : List TestCaseAggregatedData)
    (printTestName : Bool) : Table :=
  value.foldl (addElement startingRow startingColumn printTestName)
    { columns := .start startingColumn
      rows := .start startingRow
      writes := if printTestName then
          [⟨startingRow, startingColumn, .heading "Test".toList⟩]
        else [] }

/-- A call of `merge_range` in one row, or of `write` in one cell. -/
structure Heading where
  row : Nat
  firstColumn : Nat
  lastColumn : Nat
  text : Text
deriving DecidableEq, Repr

/-- What making the workbook raises. -/
inductive WorkbookError where
  | unboundLocal
  | worksheetName (name : Text)
  | companyName (product : Text)
deriving DecidableEq, Repr

/-- `add_static_data_test`. -/
def addStaticDataTest (productName : Text) (pubProductCount subProductCount : Nat) :
    Except WorkbookError (List Heading) :=
  if pubProductCount = 0 ∨ subProductCount = 0 then .error .unboundLocal
  else
    let lastColumnPublisher := 1 + subProductCount
    let publisherEnd := if lastColumnPublisher > 2 then lastColumnPublisher else 2
    let lastColumnSubscriber := lastColumnPublisher + 1 + pubProductCount
    let subscriberEnd :=
      if lastColumnSubscriber > lastColumnPublisher + 2 then lastColumnSubscriber
      else lastColumnPublisher + 2
    .ok [⟨0, 2, publisherEnd, "Publisher: ".toList ++ productName⟩,
      ⟨1, 2, publisherEnd, "Subscriber (next row): ".toList⟩,
      ⟨0, lastColumnPublisher + 2, subscriberEnd, "Subscriber: ".toList ++ productName⟩,
      ⟨1, lastColumnPublisher + 2, subscriberEnd, "Publisher (next row): ".toList⟩]

/-- The worksheet of a product. -/
structure Worksheet where
  name : Text
  product : Text
  publisherTable : List Write
  subscriberTable : List Write
  headings : List Heading
deriving DecidableEq, Repr

/-- The body of the loop of `add_data_test_worksheet`, once the worksheet is
added. -/
def productWorksheet (data : JunitData) (pubProductNames subProductNames : List Text)
    (name : Text) : Except WorkbookError Worksheet :=
  let startingRow := 1 + 1
  let publisherTable := addProductTable startingRow 1 (data.publisherProductDict.listAt name) true
  let subscriberTable :=
    if name ∈ subProductNames then
      (addProductTable startingRow (publisherTable.columns.current + 1)
        (data.subscriberProductDict.listAt name) false).writes
    else []
  (addStaticDataTest name pubProductNames.length subProductNames.length).map fun headings =>
    { name := name.take 31
      product := name
      publisherTable := publisherTable.writes
      subscriberTable := subscriberTable
      headings := headings }

/-- `add_data_test_worksheet`; `add_worksheet` takes a name or raises, by the
names that there are. -/
def addDataTestWorksheet (takes : List Text → Text → Bool) (data : JunitData) :
    Except WorkbookError (List Worksheet) :=
  let pubProductNames := data.publisherProductDict.items.map Prod.fst
  let subProductNames := data.subscriberProductDict.items.map Prod.fst
  pubProductNames.foldlM (fun sheets name =>
    if takes (["Summary".toList, "Test Descriptions".toList] ++ sheets.map Worksheet.name)
        (name.take 31) then
      (productWorksheet data pubProductNames subProductNames name).map fun sheet =>
        sheets ++ [sheet]
    else .error (.worksheetName (name.take 31))) []

/-! ## A table -/

/-- The element of a result, with its cell. -/
def Write.result? (w : Write) : Option ((Nat × Nat) × TestCaseAggregatedData) :=
  match w.content with
  | .result element => some ((w.row, w.column), element)
  | _ => none

/-- The name of a test, with its cell. -/
def Write.test? (w : Write) : Option ((Nat × Nat) × Text) :=
  match w.content with
  | .test name => some ((w.row, w.column), name)
  | _ => none

/-- The cell of an element in the table of a list. -/
def cellOf (startingRow startingColumn : Nat) (value : List TestCaseAggregatedData)
    (element : TestCaseAggregatedData) : Nat × Nat :=
  FirstSeen.cell TestCaseAggregatedData.testName TestCaseAggregatedData.product startingRow
    startingColumn value element

variable {startingRow startingColumn : Nat} {printTestName : Bool}

/-- The loop numbers the tests and the products, and writes every element once,
in the order of the list, into its cell. -/
theorem addProductTable_spec (value : List TestCaseAggregatedData) :
    (addProductTable startingRow startingColumn value printTestName).rows =
        (FirstSeen.start startingRow).assignAll (value.map (·.testName)) ∧
      (addProductTable startingRow startingColumn value printTestName).columns =
        (FirstSeen.start startingColumn).assignAll (value.map (·.product)) ∧
      (addProductTable startingRow startingColumn value printTestName).writes.filterMap
          Write.result? =
        value.map fun element => (cellOf startingRow startingColumn value element, element) := by
  refine FirstSeen.grid_foldl Table.rows Table.columns
    (fun t => t.writes.filterMap Write.result?) (fun t element => rfl) (fun t element => rfl)
    (fun t element => ?_) rfl rfl ?_ value
  · simp only [addElement, List.filterMap_append]
    rw [FirstSeen.filterMap_unless rfl, FirstSeen.filterMap_unless rfl, List.append_nil,
      List.append_nil]
    rfl
  · cases printTestName with
    | false => rfl
    | true => rfl

theorem addProductTable_concat (value : List TestCaseAggregatedData)
    (element : TestCaseAggregatedData) :
    addProductTable startingRow startingColumn (value ++ [element]) printTestName =
      addElement startingRow startingColumn printTestName
        (addProductTable startingRow startingColumn value printTestName) element := by
  rw [addProductTable, List.foldl_concat]
  rfl

/-- The tests are named once each, in the first column, in the rows of their results. -/
theorem tests_addProductTable (value : List TestCaseAggregatedData) :
    (addProductTable startingRow startingColumn value true).writes.filterMap Write.test? =
      (FirstSeen.firsts (value.map (·.testName))).map fun name =>
        ((FirstSeen.numberOf startingRow (value.map (·.testName)) name, startingColumn), name) := by
  refine FirstSeen.titles_foldl TestCaseAggregatedData.testName Table.rows
    (fun t => t.writes.filterMap Write.test?) (fun row => (row, startingColumn))
    (fun t element => rfl) (fun t element => ?_) rfl rfl value
  have hproduct : (if t.columns.known element.product then []
      else [(⟨startingRow, t.columns.number element.product, .product element.product⟩ :
        Write)]).filterMap Write.test? = [] := FirstSeen.filterMap_unless rfl _
  simp only [addElement, List.filterMap_append, hproduct, List.append_nil, Bool.not_true,
    Bool.or_false]
  exact (List.append_nil _).trans (congrArg (_ ++ ·) (FirstSeen.filterMap_unless_some (by rfl) _))

/-! ## Where a result is, and where a test is named -/

theorem Write.result?_eq_some {w : Write} {cell : Nat × Nat} {element : TestCaseAggregatedData} :
    w.result? = some (cell, element) ↔ w.content = .result element ∧ (w.row, w.column) = cell := by
  rw [result?]
  cases w.content with
  | result element' =>
      simp only [Option.some.injEq, Prod.mk.injEq, Content.result.injEq]
      exact and_comm
  | heading text => simp
  | product name => simp
  | test name => simp

theorem Write.test?_eq_some {w : Write} {cell : Nat × Nat} {name : Text} :
    w.test? = some (cell, name) ↔ w.content = .test name ∧ (w.row, w.column) = cell := by
  rw [test?]
  cases w.content with
  | test name' =>
      simp only [Option.some.injEq, Prod.mk.injEq, Content.test.injEq]
      exact and_comm
  | heading text => simp
  | product name => simp
  | result element => simp

/-- A result is in a row exactly if its element is in the list and the row is
that of its test. -/
theorem exists_result_iff {value : List TestCaseAggregatedData} {row : Nat}
    {element : TestCaseAggregatedData} :
    (∃ w ∈ (addProductTable startingRow startingColumn value printTestName).writes,
        w.content = .result element ∧ w.row = row) ↔
      element ∈ value ∧
        row = FirstSeen.numberOf startingRow (value.map (·.testName)) element.testName := by
  have hresults : (addProductTable startingRow startingColumn value
      printTestName).writes.filterMap Write.result? = _ := (addProductTable_spec value).2.2
  constructor
  · rintro ⟨w, hw, hcontent, rfl⟩
    have hmem := List.mem_filterMap.mpr ⟨w, hw, Write.result?_eq_some.mpr ⟨hcontent, rfl⟩⟩
    rw [hresults] at hmem
    obtain ⟨element', helement, heq⟩ := List.mem_map.mp hmem
    obtain ⟨hcell, rfl⟩ := Prod.mk.inj heq
    exact ⟨helement, (Prod.mk.inj hcell).1.symm⟩
  · rintro ⟨helement, rfl⟩
    have hmem := List.mem_map_of_mem
      (f := fun e => (cellOf startingRow startingColumn value e, e)) helement
    rw [← hresults] at hmem
    obtain ⟨w, hw, hsome⟩ := List.mem_filterMap.mp hmem
    obtain ⟨hcontent, hcell⟩ := Write.result?_eq_some.mp hsome
    exact ⟨w, hw, hcontent, (Prod.mk.inj hcell).1⟩

/-- A test is named in a row exactly if it is in the list and the row is its own. -/
theorem exists_test_iff {value : List TestCaseAggregatedData} {row : Nat} {name : Text} :
    (∃ w ∈ (addProductTable startingRow startingColumn value true).writes,
        w.content = .test name ∧ w.row = row) ↔
      name ∈ value.map (·.testName) ∧
        FirstSeen.numberOf startingRow (value.map (·.testName)) name = row := by
  have htests : (addProductTable startingRow startingColumn value true).writes.filterMap
      Write.test? = _ := tests_addProductTable value
  constructor
  · rintro ⟨w, hw, hcontent, rfl⟩
    have hmem := List.mem_filterMap.mpr ⟨w, hw, Write.test?_eq_some.mpr ⟨hcontent, rfl⟩⟩
    rw [htests] at hmem
    obtain ⟨name', hname, heq⟩ := List.mem_map.mp hmem
    obtain ⟨hcell, rfl⟩ := Prod.mk.inj heq
    exact ⟨FirstSeen.mem_firsts.mp hname, (Prod.mk.inj hcell).1⟩
  · rintro ⟨hname, rfl⟩
    have hmem := List.mem_map_of_mem
      (f := fun name => ((FirstSeen.numberOf startingRow (value.map (·.testName)) name,
        startingColumn), name)) (FirstSeen.mem_firsts.mpr hname)
    rw [← htests] at hmem
    obtain ⟨w, hw, hsome⟩ := List.mem_filterMap.mp hmem
    obtain ⟨hcontent, hcell⟩ := Write.test?_eq_some.mp hsome
    exact ⟨w, hw, hcontent, (Prod.mk.inj hcell).1⟩

/-! ## A worksheet -/

/-- Every result of the second table lies in the row that the first names by
its test. -/
def Worksheet.Aligned (sheet : Worksheet) : Prop :=
  ∀ w ∈ sheet.subscriberTable, ∀ element, w.content = .result element →
    ∃ title ∈ sheet.publisherTable, title.content = .test element.testName ∧ title.row = w.row

/-- Two tables with the same first row. -/
theorem aligned_tables_iff {value value' : List TestCaseAggregatedData} {column column' : Nat} :
    (∀ w ∈ (addProductTable startingRow column' value' false).writes, ∀ element,
        w.content = .result element →
        ∃ title ∈ (addProductTable startingRow column value true).writes,
          title.content = .test element.testName ∧ title.row = w.row) ↔
      FirstSeen.firsts (value'.map (·.testName)) <+: FirstSeen.firsts (value.map (·.testName)) := by
  rw [← FirstSeen.numberOf_agree_iff startingRow]
  constructor
  · intro h name hname
    obtain ⟨element, helement, rfl⟩ := List.mem_map.mp hname
    obtain ⟨w, hw, hcontent, hrow⟩ := exists_result_iff.mpr ⟨helement, rfl⟩
    obtain ⟨hin, hnumber⟩ := exists_test_iff.mp (h w hw element hcontent)
    exact ⟨hin, hrow.symm.trans hnumber.symm⟩
  · intro h w hw element hcontent
    obtain ⟨helement, hrow⟩ := exists_result_iff.mp ⟨w, hw, hcontent, rfl⟩
    obtain ⟨hin, hnumber⟩ := h element.testName (List.mem_map_of_mem helement)
    exact exists_test_iff.mpr ⟨hin, hnumber.symm.trans hrow.symm⟩

/-- What is in the worksheet of a product. -/
theorem productWorksheet_ok {data : JunitData} {pubs subs : List Text} {name : Text}
    {sheet : Worksheet} (h : productWorksheet data pubs subs name = .ok sheet) :
    sheet.product = name ∧
      sheet.publisherTable =
        (addProductTable 2 1 (data.publisherProductDict.listAt name) true).writes ∧
      ∃ column, name ∈ subs → sheet.subscriberTable =
        (addProductTable 2 column (data.subscriberProductDict.listAt name) false).writes := by
  rw [productWorksheet] at h
  cases hstatic : addStaticDataTest name pubs.length subs.length with
  | error e =>
      rw [hstatic] at h
      cases h
  | ok headings =>
      rw [hstatic] at h
      obtain rfl := Except.ok.inj h
      exact ⟨rfl, rfl, _, fun hsub => if_pos hsub⟩

/-- There is a worksheet for each publisher, in their order, and each is built
as above. -/
theorem addDataTestWorksheet_ok {takes : List Text → Text → Bool} {data : JunitData}
    {sheets : List Worksheet} (h : addDataTestWorksheet takes data = .ok sheets) :
    sheets.map Worksheet.product = data.publisherProductDict.items.map Prod.fst ∧
      ∀ sheet ∈ sheets, productWorksheet data (data.publisherProductDict.items.map Prod.fst)
        (data.subscriberProductDict.items.map Prod.fst) sheet.product = .ok sheet := by
  rw [addDataTestWorksheet] at h
  generalize hpubs : data.publisherProductDict.items.map Prod.fst = pubs at h ⊢
  generalize hsubs : data.subscriberProductDict.items.map Prod.fst = subs at h ⊢
  clear hpubs hsubs
  -- the sheets that are there before a turn of the loop stay
  suffices hloop : ∀ (names : List Text) (before sheets : List Worksheet),
      names.foldlM (fun sheets name =>
        if takes (["Summary".toList, "Test Descriptions".toList] ++ sheets.map Worksheet.name)
            (name.take 31) then
          (productWorksheet data pubs subs name).map fun sheet => sheets ++ [sheet]
        else .error (.worksheetName (name.take 31))) before = .ok sheets →
      ∃ new, sheets = before ++ new ∧ new.map Worksheet.product = names ∧
        ∀ sheet ∈ new, productWorksheet data pubs subs sheet.product = .ok sheet by
    obtain ⟨new, rfl, hproducts, hall⟩ := hloop pubs [] sheets h
    exact ⟨hproducts, hall⟩
  intro names
  induction names with
  | nil =>
      intro before sheets hok
      obtain rfl := Except.ok.inj hok
      exact ⟨[], (List.append_nil _).symm, rfl, List.forall_mem_nil _⟩
  | cons name names ih =>
      intro before sheets hok
      rw [List.foldlM_cons] at hok
      split at hok
      · cases hsheet : productWorksheet data pubs subs name with
        | error e =>
            rw [hsheet] at hok
            cases hok
        | ok sheet =>
            rw [hsheet] at hok
            obtain ⟨new, rfl, hproducts, hall⟩ := ih (before ++ [sheet]) sheets hok
            have hname := (productWorksheet_ok hsheet).1
            refine ⟨sheet :: new, by simp, by rw [List.map_cons, hname, hproducts], ?_⟩
            rw [List.forall_mem_cons, hname]
            exact ⟨hsheet, hall⟩
      · cases hok

/-! ## The tests of a product -/

section Tests

variable (py : PyUpper) (report : List Suite) (product : Text)

/-- The tests of a product as publisher, in the order of the report. -/
def publisherTests : List Text :=
  (report.filter fun suite => suite.publisherName py = product).flatMap fun suite =>
    suite.cases.map (Case.testName py)

/-- The tests of a product as subscriber, in the order of the report. -/
def subscriberTests : List Text :=
  (report.filter fun suite => suite.subscriberName py = product).flatMap fun suite =>
    suite.cases.map (Case.testName py)

end Tests

variable {py : PyUpper} {report : List Suite} {product : Text}

/-- A dict to which each suite adds its cases under one name. -/
theorem listAt_pushAll_flatMap (updates : Suite → List (Text × TestCaseAggregatedData))
    (keyOf : Suite → Text) (hkey : ∀ suite, ∀ update ∈ updates suite, update.1 = keyOf suite)
    (report : List Suite) (product : Text) :
    ((PyDict.empty : PyDict Text (List TestCaseAggregatedData)).pushAll
        (report.flatMap updates)).listAt product =
      (report.filter fun suite => keyOf suite = product).flatMap fun suite =>
        (updates suite).map Prod.snd := by
  rw [PyDict.listAt_pushAll]
  refine (List.nil_append _).trans ?_
  induction report with
  | nil => rfl
  | cons suite report ih =>
      rw [List.flatMap_cons, List.filter_append, List.map_append, ih, List.filter_cons]
      by_cases hsuite : keyOf suite = product
      · have hall : (updates suite).filter (fun update => update.1 = product) = updates suite := by
          rw [List.filter_eq_self]
          intro update hupdate
          rw [hkey suite update hupdate]
          exact decide_eq_true hsuite
        rw [hall, if_pos (decide_eq_true hsuite), List.flatMap_cons]
      · have hnone : (updates suite).filter (fun update => update.1 = product) = [] := by
          rw [List.filter_eq_nil_iff]
          intro update hupdate
          rw [hkey suite update hupdate]
          simpa using hsuite
        rw [hnone, if_neg (by simpa using hsuite)]
        rfl

theorem tests_publisherProductDict :
    ((JunitData.empty.record py report).publisherProductDict.listAt product).map (·.testName) =
      publisherTests py report product := by
  have hname : ∀ suite, ∀ update ∈ Suite.publisherUpdates py suite,
      update.1 = Suite.publisherName py suite := by
    intro suite update hupdate
    obtain ⟨case, -, rfl⟩ := List.mem_map.mp hupdate
    rfl
  have hlist := listAt_pushAll_flatMap (Suite.publisherUpdates py) (Suite.publisherName py) hname
    report product
  refine (congrArg _ hlist).trans ?_
  rw [publisherTests, List.map_flatMap]
  simp only [Suite.publisherUpdates, List.map_map, Function.comp_def]

theorem tests_subscriberProductDict :
    ((JunitData.empty.record py report).subscriberProductDict.listAt product).map (·.testName) =
      subscriberTests py report product := by
  have hname : ∀ suite, ∀ update ∈ Suite.subscriberUpdates py suite,
      update.1 = Suite.subscriberName py suite := by
    intro suite update hupdate
    obtain ⟨case, -, rfl⟩ := List.mem_map.mp hupdate
    rfl
  have hlist := listAt_pushAll_flatMap (Suite.subscriberUpdates py) (Suite.subscriberName py) hname
    report product
  refine (congrArg _ hlist).trans ?_
  rw [subscriberTests, List.map_flatMap]
  simp only [Suite.subscriberUpdates, List.map_map, Function.comp_def]

theorem mem_publishers (h : publisherTests py report product ≠ []) :
    product ∈ (JunitData.empty.record py report).publisherProductDict.items.map Prod.fst := by
  refine PyDict.mem_keys_of_listAt_ne_nil fun hnil => h ?_
  rw [← tests_publisherProductDict, hnil]
  rfl

theorem mem_subscribers (h : subscriberTests py report product ≠ []) :
    product ∈ (JunitData.empty.record py report).subscriberProductDict.items.map Prod.fst := by
  refine PyDict.mem_keys_of_listAt_ne_nil fun hnil => h ?_
  rw [← tests_subscriberProductDict, hnil]
  rfl

/-- The worksheet of a publisher, with its two tables. -/
theorem exists_worksheet {takes : List Text → Text → Bool} {data : JunitData}
    {sheets : List Worksheet} (hdata : getInfo py .empty report = .ok data)
    (hsheets : addDataTestWorksheet takes data = .ok sheets)
    (hpublisher : publisherTests py report product ≠ []) :
    ∃ sheet column, sheets.find? (fun sheet => sheet.product = product) = some sheet ∧
      sheet.publisherTable =
        (addProductTable 2 1 (data.publisherProductDict.listAt product) true).writes ∧
      (subscriberTests py report product ≠ [] → sheet.subscriberTable =
        (addProductTable 2 column (data.subscriberProductDict.listAt product) false).writes) := by
  obtain ⟨-, rfl⟩ := getInfo_eq_ok.mp hdata
  obtain ⟨hproducts, hall⟩ := addDataTestWorksheet_ok hsheets
  have hin : product ∈ sheets.map Worksheet.product := by
    rw [hproducts]
    exact mem_publishers hpublisher
  obtain ⟨sheet₀, hsheet₀, hproduct₀⟩ := List.mem_map.mp hin
  cases hfind : sheets.find? fun sheet => sheet.product = product with
  | none =>
      have hno := List.find?_eq_none.mp hfind sheet₀ hsheet₀
      exact absurd (decide_eq_true hproduct₀) hno
  | some sheet =>
      have hproduct : sheet.product = product := by
        simpa using List.find?_some hfind
      have hsheet := productWorksheet_ok (hall sheet (List.mem_of_find?_eq_some hfind))
      rw [hproduct] at hsheet
      obtain ⟨-, hfirst, column, hsecond⟩ := hsheet
      exact ⟨sheet, column, rfl, hfirst, fun hsub => hsecond (mem_subscribers hsub)⟩

/-- The results of a product as subscriber are in the rows of their tests,
exactly if the tests it has as subscriber begin those it has as publisher. -/
theorem rows_aligned_iff {takes : List Text → Text → Bool} {data : JunitData}
    {sheets : List Worksheet} (hdata : getInfo py .empty report = .ok data)
    (hsheets : addDataTestWorksheet takes data = .ok sheets)
    (hpublisher : publisherTests py report product ≠ [])
    (hsubscriber : subscriberTests py report product ≠ []) :
    ∃ sheet, sheets.find? (fun sheet => sheet.product = product) = some sheet ∧
      (sheet.Aligned ↔ FirstSeen.firsts (subscriberTests py report product) <+:
        FirstSeen.firsts (publisherTests py report product)) := by
  obtain ⟨sheet, column, hfind, hfirst, hsecond⟩ := exists_worksheet hdata hsheets hpublisher
  obtain ⟨-, rfl⟩ := getInfo_eq_ok.mp hdata
  refine ⟨sheet, hfind, ?_⟩
  rw [Worksheet.Aligned, hfirst, hsecond hsubscriber, aligned_tables_iff,
    tests_publisherProductDict, tests_subscriberProductDict]

/-- A report in which OpenDDS and HDDS were tested in both directions, one of two
tests only in the first. -/
def unevenReport : List Suite :=
  [.counted "opendds---hdds".toList [⟨some "Test_Color_1".toList, []⟩],
    .counted "hdds---opendds".toList
      [⟨some "Test_Color_0".toList, []⟩, ⟨some "Test_Color_1".toList, []⟩]]

theorem getInfo_unevenReport :
    getInfo .ascii .empty unevenReport = .ok (JunitData.empty.record .ascii unevenReport) :=
  getInfo_eq_ok.mpr ⟨List.forall_mem_cons.mpr ⟨rfl, List.forall_mem_cons.mpr
    ⟨rfl, List.forall_mem_nil _⟩⟩, rfl⟩

theorem exists_sheets_unevenReport : ∃ sheets, addDataTestWorksheet (fun _ _ => true)
    (JunitData.empty.record .ascii unevenReport) = .ok sheets := by
  have hsome : (addDataTestWorksheet (fun _ _ => true)
      (JunitData.empty.record .ascii unevenReport)).toOption.map List.length = some 2 := by
    decide +kernel
  obtain ⟨sheets, hsheets, -⟩ := PyError.exists_ok_of_toOption_map hsome
  exact ⟨sheets, hsheets⟩

theorem tests_unevenReport :
    publisherTests .ascii unevenReport "HDDS".toList =
        ["Test_Color_0".toList, "Test_Color_1".toList] ∧
      subscriberTests .ascii unevenReport "HDDS".toList = ["Test_Color_1".toList] := by
  decide +kernel

theorem publisherTests_unevenReport_ne_nil :
    publisherTests .ascii unevenReport "HDDS".toList ≠ [] := by
  rw [tests_unevenReport.1]
  exact List.cons_ne_nil _ _

theorem subscriberTests_unevenReport_ne_nil :
    subscriberTests .ascii unevenReport "HDDS".toList ≠ [] := by
  rw [tests_unevenReport.2]
  exact List.cons_ne_nil _ _

theorem rows_aligned_unevenReport :
    ∃ sheets, addDataTestWorksheet (fun _ _ => true)
        (JunitData.empty.record .ascii unevenReport) = .ok sheets ∧
      ∃ sheet, sheets.find? (fun sheet => sheet.product = "HDDS".toList) = some sheet ∧
        (sheet.Aligned ↔ FirstSeen.firsts (subscriberTests .ascii unevenReport "HDDS".toList) <+:
          FirstSeen.firsts (publisherTests .ascii unevenReport "HDDS".toList)) := by
  obtain ⟨sheets, hsheets⟩ := exists_sheets_unevenReport
  exact ⟨sheets, hsheets, rows_aligned_iff getInfo_unevenReport hsheets
    publisherTests_unevenReport_ne_nil subscriberTests_unevenReport_ne_nil⟩

/-- The result of `Test_Color_1` stands in the row of `Test_Color_0`. -/
theorem not_rows_aligned :
    ¬ ∀ (py : PyUpper) (takes : List Text → Text → Bool) (report : List Suite) (data : JunitData)
      (sheets : List Worksheet) (product : Text), getInfo py .empty report = .ok data →
      addDataTestWorksheet takes data = .ok sheets → publisherTests py report product ≠ [] →
      subscriberTests py report product ≠ [] →
      ∃ sheet, sheets.find? (fun sheet => sheet.product = product) = some sheet ∧
        sheet.Aligned := by
  intro h
  obtain ⟨sheets, hsheets⟩ := exists_sheets_unevenReport
  obtain ⟨sheet, hfind, haligned⟩ := h .ascii _ unevenReport _ sheets "HDDS".toList
    getInfo_unevenReport hsheets publisherTests_unevenReport_ne_nil
    subscriberTests_unevenReport_ne_nil
  obtain ⟨sheet', column, hfind', hfirst, hsecond⟩ := exists_worksheet getInfo_unevenReport
    hsheets publisherTests_unevenReport_ne_nil
  obtain rfl := Option.some.inj (hfind.symm.trans hfind')
  rw [Worksheet.Aligned, hfirst, hsecond subscriberTests_unevenReport_ne_nil, aligned_tables_iff,
    tests_publisherProductDict, tests_subscriberProductDict, tests_unevenReport.1,
    tests_unevenReport.2] at haligned
  revert haligned
  decide

end DdsRtps.Xlsx
