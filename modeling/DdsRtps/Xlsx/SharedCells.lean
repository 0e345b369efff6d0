/-
# `DdsRtps.Xlsx.SharedCells` — which results lie on one cell

`ProductUtils.get_company_name` and `add_data_summary_worksheet` of
src/generate_xlsx_report.py, and the cells of the workbook.

A result is put into its cell by the beautified name of the other product and
the name of its test, a suite by its two beautified names.  Beautifying drops
what it does not know, so that two builds of one version are one product.  Cells
are shared exactly by what these names do not tell apart (`shared_cells_iff`).
-/
import DdsRtps.Lib.PyText
import DdsRtps.Xlsx.ProductTable

namespace DdsRtps.Xlsx

/-! ## The code -/

/-- What is in the name of a product, and its company: the branches of
`get_company_name`, in their order. -/
def companies : List (List Text × Text) :=
  [(["connext".toList], "Real-Time Innovations (RTI)".toList),
    (["opendds".toList], "OpenDDS Foundation".toList),
    (["coredx".toList], "Twin Oaks Computing, Inc".toList),
    (["intercom".toList], "Kongsberg".toList),
    (["fastdds".toList], "eProsima".toList),
    (["dust".toList], "S2E Software Systems".toList),
    (["hdds".toList], "Naskel".toList),
    (["cyclone".toList], "Eclipse Foundation".toList),
    (["zzdds".toList, "zenzen".toList], "Zenzen IoT".toList)]

/-- `get_company_name`. -/
def getCompanyName (py : PyUpper) (product : Text) : Except WorkbookError Text :=
  match companies.find? fun entry => entry.1.any (· <:+: py.lower product) with
  | some (_, company) => .ok company
  | none => .error (.companyName product)

/-- Passed, supported and total. -/
def AggregatedData.text (a : AggregatedData) : Text :=
  PyInterp.intText a.passedTests ++ " / ".toList ++ PyInterp.intText a.supportedTests ++
    " / ".toList ++ PyInterp.intText a.totalTests

/-- What a cell of the summary is for. -/
inductive SummaryContent where
  | heading (text : Text)
  | company (name : Text)
  | product (name : Text)
  | coverage (value : AggregatedData)
  | publisher (name : Text)
  | subscriber (name : Text)
  | pair (names : Text × Text) (value : AggregatedData)
deriving DecidableEq, Repr

/-- The text of a cell. -/
def SummaryContent.text : SummaryContent → Text
  | .heading text => text
  | .company name => name
  | .product name => name
  | .coverage value => value.text
  | .publisher name => name
  | .subscriber name => name
  | .pair _ value => value.text

/-- A call of `worksheet.write`. -/
structure SummaryWrite where
  row : Nat
  column : Nat
  content : SummaryContent
deriving DecidableEq, Repr

/-- The body of the loop over the products. -/
def addProductRow (py : PyUpper) (column : Nat) (pairs : List ((Text × Text) × AggregatedData))
    (s : Nat × List SummaryWrite) (productName : Text) :
    Except WorkbookError (Nat × List SummaryWrite) :=
  (getCompanyName py productName).map fun company =>
    (s.1 + 1, s.2 ++ [⟨s.1, column, .company company⟩, ⟨s.1, column + 1, .product productName⟩] ++
      -- the product with itself
      (pairs.filter fun entry => productName = entry.1.1 ∧ productName = entry.1.2).map fun entry =>
        ⟨s.1, column + 2, .coverage entry.2⟩)

/-- The state of the loop over the pairs. -/
structure Matrix where
  rows : FirstSeen Text
  columns : FirstSeen Text
  writes : List SummaryWrite

/-- The body of the loop over the pairs. -/
def addPair (subscriberRow publisherColumn : Nat) (t : Matrix)
    (entry : (Text × Text) × AggregatedData) : Matrix :=
  let (publisherName, subscriberName) := entry.1
  let processRow := t.rows.number publisherName
  let processColumn := t.columns.number subscriberName
  { rows := t.rows.assign publisherName
    columns := t.columns.assign subscriberName
    writes := t.writes ++
      (if t.rows.known publisherName then []
        else [⟨processRow, publisherColumn, .publisher publisherName⟩]) ++
      (if t.columns.known subscriberName then []
        else [⟨subscriberRow, processColumn, .subscriber subscriberName⟩]) ++
      [⟨processRow, processColumn, .pair entry.1 entry.2⟩] }

/-- `add_data_summary_worksheet`. -/
def addDataSummaryWorksheet (py : PyUpper) (startingRow startingColumn : Nat) (data : JunitData) :
    Except WorkbookError (List SummaryWrite) :=
  let headings := [⟨startingRow, startingColumn, .heading "Company".toList⟩,
    ⟨startingRow, startingColumn + 1, .heading "Product".toList⟩,
    ⟨startingRow, startingColumn + 2, .heading "Single-Product Tests".toList⟩]
  ((data.summaryDict.items.map Prod.fst).foldlM
      (addProductRow py startingColumn data.productSummaryDict.items)
      (startingRow + 1, headings)).map fun (currentRow, writes) =>
    let subscriberRow := currentRow + 2
    (data.productSummaryDict.items.foldl (addPair subscriberRow 1)
      { rows := .start subscriberRow
        columns := .start startingColumn
        writes := writes ++ [⟨subscriberRow, startingColumn,
          .heading "Publisher (row)/Subscriber (column)".toList⟩] }).writes

/-! ## The matrix -/

/-- The pair of a value in the matrix, with its cell. -/
def SummaryWrite.pair? (w : SummaryWrite) :
    Option ((Nat × Nat) × ((Text × Text) × AggregatedData)) :=
  match w.content with
  | .pair names value => some ((w.row, w.column), (names, value))
  | _ => none

variable {py : PyUpper} {startingRow startingColumn : Nat}

/-- There are no values of pairs above the matrix. -/
theorem foldlM_addProductRow {pairs : List ((Text × Text) × AggregatedData)} {column : Nat}
    {products : List Text} {s s' : Nat × List SummaryWrite}
    (h : products.foldlM (addProductRow py column pairs) s = .ok s') :
    s'.2.filterMap SummaryWrite.pair? = s.2.filterMap SummaryWrite.pair? := by
  induction products generalizing s with
  | nil =>
      obtain rfl := Except.ok.inj h
      rfl
  | cons product products ih =>
      rw [List.foldlM_cons, addProductRow] at h
      cases hcompany : getCompanyName py product with
      | error e =>
          rw [hcompany] at h
          cases h
      | ok company =>
          rw [hcompany] at h
          have hcoverage : ∀ entries : List ((Text × Text) × AggregatedData),
              (entries.map fun entry =>
                (⟨s.1, column + 2, .coverage entry.2⟩ : SummaryWrite)).filterMap
                  SummaryWrite.pair? = [] := by
            intro entries
            rw [List.filterMap_map]
            exact List.filterMap_eq_nil_iff.mpr fun entry _ => rfl
          refine (ih h).trans ?_
          simp only [List.filterMap_append, hcoverage, List.append_nil]
          exact List.append_nil _

/-- The loop over the pairs writes each value into the cell of its pair. -/
theorem pairs_foldl_addPair (subscriberRow publisherColumn : Nat) {writes : List SummaryWrite}
    (hnone : writes.filterMap SummaryWrite.pair? = [])
    (entries : List ((Text × Text) × AggregatedData)) :
    (entries.foldl (addPair subscriberRow publisherColumn)
      { rows := .start subscriberRow
        columns := .start startingColumn
        writes := writes }).writes.filterMap SummaryWrite.pair? =
      entries.map fun entry =>
        (FirstSeen.cell (fun entry : (Text × Text) × AggregatedData => entry.1.1)
          (fun entry => entry.1.2) subscriberRow startingColumn entries entry, entry) := by
  refine (FirstSeen.grid_foldl Matrix.rows Matrix.columns
    (fun t => t.writes.filterMap SummaryWrite.pair?) (fun t entry => rfl) (fun t entry => rfl)
    (fun t entry => ?_) rfl rfl hnone entries).2.2
  simp only [addPair, List.filterMap_append]
  rw [FirstSeen.filterMap_unless rfl, FirstSeen.filterMap_unless rfl, List.append_nil,
    List.append_nil]
  rfl

/-- The cells of the matrix. -/
theorem addDataSummaryWorksheet_ok {data : JunitData} {writes : List SummaryWrite}
    (h : addDataSummaryWorksheet py startingRow startingColumn data = .ok writes) :
    ∃ row, writes.filterMap SummaryWrite.pair? =
      data.productSummaryDict.items.map fun entry =>
        (FirstSeen.cell (fun entry : (Text × Text) × AggregatedData => entry.1.1)
          (fun entry => entry.1.2) row startingColumn data.productSummaryDict.items entry,
          entry) := by
  rw [addDataSummaryWorksheet] at h
  cases hrows : (data.summaryDict.items.map Prod.fst).foldlM
      (addProductRow py startingColumn data.productSummaryDict.items)
      (startingRow + 1, [⟨startingRow, startingColumn, .heading "Company".toList⟩,
        ⟨startingRow, startingColumn + 1, .heading "Product".toList⟩,
        ⟨startingRow, startingColumn + 2, .heading "Single-Product Tests".toList⟩]) with
  | error e =>
      rw [hrows] at h
      cases h
  | ok s =>
      rw [hrows] at h
      obtain rfl := Except.ok.inj h
      refine ⟨s.1 + 2, pairs_foldl_addPair _ _ ?_ _⟩
      simp only [List.filterMap_append, foldlM_addProductRow hrows]
      rfl

/-! ## Which suites and cases share a cell -/

section Cells

variable (py : PyUpper) (report : List Suite)

/-- The cases of a publisher, each with its suite, in the order of the report. -/
def publisherCases (product : Text) : List (Suite × Case) :=
  (report.filter fun suite => suite.publisherName py = product).flatMap fun suite =>
    suite.cases.map fun case => (suite, case)

/-- What a case of a suite is in the list of its publisher. -/
def publisherElement (sc : Suite × Case) : TestCaseAggregatedData :=
  ⟨sc.1.subscriberName py, sc.2.testName py, sc.2.status py⟩

/-- The two names of a suite. -/
def Suite.names (suite : Suite) : Text × Text := (suite.publisherName py, suite.subscriberName py)

/-- The sum of what the suites with these two names count. -/
def pairSum (names : Text × Text) : AggregatedData :=
  ((report.filter fun suite => suite.names py = names).map (Suite.counts py)).sum

/-- Results of a publisher share a cell exactly if they are of one subscriber
and one test. -/
def ResultsShare (product : Text) (table : List Write) : Prop :=
  ∃ cell : Suite × Case → Nat × Nat,
    table.filterMap Write.result? = (publisherCases py report product).map
      (fun sc => (cell sc, publisherElement py sc)) ∧
    ∀ a ∈ publisherCases py report product, ∀ b ∈ publisherCases py report product,
      cell a = cell b ↔ a.1.subscriberName py = b.1.subscriberName py ∧
        a.2.testName py = b.2.testName py

/-- Suites share a cell exactly if they are of one publisher and one subscriber,
and the cell has their sum. -/
def SuitesShare (writes : List SummaryWrite) : Prop :=
  ∃ cell : Suite → Nat × Nat,
    (∀ entry, entry ∈ writes.filterMap SummaryWrite.pair? ↔
      ∃ suite ∈ report, entry = (cell suite, (suite.names py, pairSum py report (suite.names py)))) ∧
    ∀ a ∈ report, ∀ b ∈ report, cell a = cell b ↔ a.names py = b.names py

end Cells

variable {report : List Suite} {product : Text}

theorem listAt_publisherCases :
    (JunitData.empty.record py report).publisherProductDict.listAt product =
      (publisherCases py report product).map (publisherElement py) := by
  refine (listAt_pushAll_flatMap (Suite.publisherUpdates py) (Suite.publisherName py)
    (fun _ _ hupdate => by
      obtain ⟨case, -, rfl⟩ := List.mem_map.mp hupdate
      rfl) report product).trans ?_
  rw [publisherCases, List.map_flatMap]
  simp only [Suite.publisherUpdates, List.map_map, Function.comp_def]
  rfl

/-- The sums of the pairs. -/
theorem mem_productSummaryDict {entry : (Text × Text) × AggregatedData} :
    entry ∈ (JunitData.empty.record py report).productSummaryDict.items ↔
      ∃ suite ∈ report, entry = (suite.names py, pairSum py report (suite.names py)) := by
  obtain ⟨names, value⟩ := entry
  have hfilter : ((report.map (Suite.pairUpdate py)).filter fun u => u.1 = names).map Prod.snd =
      (report.filter fun suite => suite.names py = names).map (Suite.counts py) := by
    rw [List.filter_map, List.map_map]
    rfl
  have hkey : names ∈ (report.map (Suite.pairUpdate py)).map Prod.fst ↔
      ∃ suite ∈ report, suite.names py = names := by
    rw [List.map_map, List.mem_map]
    rfl
  rw [PyDict.mem_items_iff]
  show ((PyDict.empty : PyDict (Text × Text) AggregatedData).addToAll _).get? names = _ ↔ _
  rw [PyDict.get?_addToAll, hfilter, PyDict.get?_empty, Option.getD_none, zero_add]
  simp only [hkey, Prod.mk.injEq]
  constructor
  · intro h
    split at h
    · rename_i hin
      obtain ⟨suite, hsuite, rfl⟩ := hin
      exact ⟨suite, hsuite, rfl, (Option.some.inj h).symm⟩
    · cases h
  · rintro ⟨suite, hsuite, rfl, rfl⟩
    rw [if_pos ⟨suite, hsuite, rfl⟩]
    rfl

theorem resultsShare_addProductTable :
    ResultsShare py report product (addProductTable 2 1
      ((JunitData.empty.record py report).publisherProductDict.listAt product) true).writes := by
  refine ⟨fun sc => cellOf 2 1 ((publisherCases py report product).map (publisherElement py))
    (publisherElement py sc), ?_, ?_⟩
  · rw [(addProductTable_spec _).2.2, listAt_publisherCases, List.map_map]
    rfl
  · intro a ha b hb
    exact (FirstSeen.cell_eq_iff (List.mem_map_of_mem (f := publisherElement py) ha)
      (List.mem_map_of_mem (f := publisherElement py) hb)).trans and_comm

theorem suitesShare_addDataSummaryWorksheet {writes : List SummaryWrite}
    (h : addDataSummaryWorksheet py startingRow startingColumn
      (JunitData.empty.record py report) = .ok writes) : SuitesShare py report writes := by
  obtain ⟨row, hpairs⟩ := addDataSummaryWorksheet_ok h
  have hentry : ∀ suite ∈ report, (suite.names py, pairSum py report (suite.names py)) ∈
      (JunitData.empty.record py report).productSummaryDict.items :=
    fun suite hsuite => mem_productSummaryDict.mpr ⟨suite, hsuite, rfl⟩
  refine ⟨fun suite => FirstSeen.cell (fun entry : (Text × Text) × AggregatedData => entry.1.1)
    (fun entry => entry.1.2) row startingColumn
    (JunitData.empty.record py report).productSummaryDict.items
    (suite.names py, pairSum py report (suite.names py)), ?_, ?_⟩
  · intro entry
    rw [hpairs, List.mem_map]
    constructor
    · rintro ⟨item, hitem, rfl⟩
      obtain ⟨suite, hsuite, rfl⟩ := mem_productSummaryDict.mp hitem
      exact ⟨suite, hsuite, rfl⟩
    · rintro ⟨suite, hsuite, rfl⟩
      exact ⟨_, hentry suite hsuite, rfl⟩
  · intro a ha b hb
    rw [FirstSeen.cell_eq_iff (hentry a ha) (hentry b hb)]
    exact Prod.ext_iff.symm

/-- Cells of the workbook are shared exactly by what the beautified names and
the names of the tests do not tell apart. -/
theorem shared_cells_iff {data : JunitData} (hdata : getInfo py .empty report = .ok data) :
    (∀ takes sheets, addDataTestWorksheet takes data = .ok sheets →
      ∀ product, publisherTests py report product ≠ [] →
        ∃ sheet, sheets.find? (fun sheet => sheet.product = product) = some sheet ∧
          ResultsShare py report product sheet.publisherTable) ∧
      ∀ writes, addDataSummaryWorksheet py 13 1 data = .ok writes →
        SuitesShare py report writes := by
  constructor
  · intro takes sheets hsheets product hpublisher
    obtain ⟨sheet, column, hfind, hfirst, -⟩ := exists_worksheet hdata hsheets hpublisher
    obtain ⟨-, rfl⟩ := getInfo_eq_ok.mp hdata
    refine ⟨sheet, hfind, ?_⟩
    rw [hfirst]
    exact resultsShare_addProductTable
  · intro writes hwrites
    obtain ⟨-, rfl⟩ := getInfo_eq_ok.mp hdata
    exact suitesShare_addDataSummaryWorksheet hwrites

/-- Two builds of OpenDDS 3.2, each tested with HDDS. -/
def twoBuilds : List Suite :=
  [.counted "opendds-3.2-linux---hdds".toList [⟨some "Test_Color_0".toList, []⟩],
    .counted "opendds-3.2-macos---hdds".toList
      [⟨some "Test_Color_0".toList, [⟨.failure, some "DATA_NOT_RECEIVED".toList⟩]⟩]]

theorem getInfo_twoBuilds :
    getInfo .ascii .empty twoBuilds = .ok (JunitData.empty.record .ascii twoBuilds) :=
  getInfo_eq_ok.mpr ⟨List.forall_mem_cons.mpr ⟨rfl, List.forall_mem_cons.mpr
    ⟨rfl, List.forall_mem_nil _⟩⟩, rfl⟩

/-- The cells of the results of OpenDDS 3.2, and of the matrix. -/
theorem cells_twoBuilds :
    ((addDataTestWorksheet (fun _ _ => true) (JunitData.empty.record .ascii twoBuilds)).toOption.map
        fun sheets => sheets.map fun sheet =>
          (sheet.publisherTable.filterMap Write.result?).map Prod.fst) = some [[(3, 2), (3, 2)]] ∧
      ((addDataSummaryWorksheet .ascii 13 1 (JunitData.empty.record .ascii twoBuilds)).toOption.map
        fun writes => (writes.filterMap SummaryWrite.pair?).map Prod.fst) = some [(19, 2)] := by
  decide +kernel

theorem exists_workbook_twoBuilds :
    ∃ sheets writes, addDataTestWorksheet (fun _ _ => true)
        (JunitData.empty.record .ascii twoBuilds) = .ok sheets ∧
      addDataSummaryWorksheet .ascii 13 1 (JunitData.empty.record .ascii twoBuilds) = .ok writes ∧
      sheets.map (fun sheet => (sheet.publisherTable.filterMap Write.result?).map Prod.fst) =
        [[(3, 2), (3, 2)]] := by
  obtain ⟨sheets, hsheets, hcells⟩ := PyError.exists_ok_of_toOption_map cells_twoBuilds.1
  obtain ⟨writes, hwrites, -⟩ := PyError.exists_ok_of_toOption_map cells_twoBuilds.2
  exact ⟨sheets, writes, hsheets, hwrites, hcells⟩

theorem shared_cells_twoBuilds :
    (∀ takes sheets, addDataTestWorksheet takes
        (JunitData.empty.record .ascii twoBuilds) = .ok sheets →
      ∀ product, publisherTests .ascii twoBuilds product ≠ [] →
        ∃ sheet, sheets.find? (fun sheet => sheet.product = product) = some sheet ∧
          ResultsShare .ascii twoBuilds product sheet.publisherTable) ∧
      ∀ writes, addDataSummaryWorksheet .ascii 13 1
          (JunitData.empty.record .ascii twoBuilds) = .ok writes →
        SuitesShare .ascii twoBuilds writes :=
  shared_cells_iff getInfo_twoBuilds

/-- The results of two builds lie on one cell, and so do the suites. -/
theorem not_cells_unshared :
    ¬ ∀ (py : PyUpper) (takes : List Text → Text → Bool) (report : List Suite) (data : JunitData)
      (sheets : List Worksheet) (writes : List SummaryWrite),
      (∀ suite ∈ report, ∃ publisher subscriber,
        suite.name = some (publisher ++ "---".toList ++ subscriber)) →
      (report.map Suite.name).Nodup → (∀ suite ∈ report, (suite.cases.map Case.name).Nodup) →
      getInfo py .empty report = .ok data → addDataTestWorksheet takes data = .ok sheets →
      addDataSummaryWorksheet py 13 1 data = .ok writes →
      (∀ sheet ∈ sheets,
        ((sheet.publisherTable.filterMap Write.result?).map Prod.fst).Nodup) ∧
        ∃ cell : Suite → Nat × Nat, (∀ suite ∈ report, ∃ value,
            (cell suite, (suite.names py, value)) ∈ writes.filterMap SummaryWrite.pair?) ∧
          ∀ a ∈ report, ∀ b ∈ report, cell a = cell b → a = b := by
  intro h
  obtain ⟨sheets, writes, hsheets, hwrites, hcells⟩ := exists_workbook_twoBuilds
  have hnames : ∀ suite ∈ twoBuilds, ∃ publisher subscriber,
      suite.name = some (publisher ++ "---".toList ++ subscriber) := by
    intro suite hsuite
    simp only [twoBuilds, List.mem_cons, List.not_mem_nil, or_false] at hsuite
    rcases hsuite with rfl | rfl
    · exact ⟨"opendds-3.2-linux".toList, "hdds".toList, by decide +kernel⟩
    · exact ⟨"opendds-3.2-macos".toList, "hdds".toList, by decide +kernel⟩
  have hcases : ∀ suite ∈ twoBuilds, (suite.cases.map Case.name).Nodup := by
    intro suite hsuite
    simp only [twoBuilds, List.mem_cons, List.not_mem_nil, or_false] at hsuite
    rcases hsuite with rfl | rfl
    · exact List.nodup_singleton _
    · exact List.nodup_singleton _
  have hunshared := (h .ascii _ twoBuilds _ sheets writes hnames (by decide +kernel) hcases
    getInfo_twoBuilds hsheets hwrites).1
  -- the one worksheet has two results on one cell
  have hall : ∀ cells ∈ sheets.map fun sheet =>
      (sheet.publisherTable.filterMap Write.result?).map Prod.fst, cells.Nodup := by
    intro cells hmem
    obtain ⟨sheet, hsheet, rfl⟩ := List.mem_map.mp hmem
    exact hunshared sheet hsheet
  rw [hcells] at hall
  exact absurd (hall _ List.mem_cons_self) (by decide)

end DdsRtps.Xlsx
