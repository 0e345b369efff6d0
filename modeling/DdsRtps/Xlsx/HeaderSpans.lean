/-
# `DdsRtps.Xlsx.HeaderSpans` — the headers above the tables of a product

`add_static_data_test` computes its columns from the numbers of all publishers
and of all subscribers, `add_product_table` gives a column to each product that
there is in its list.  The two agree exactly if the product met everyone in both
roles (`headers_span_iff`); one missing opponent as publisher shifts the second
table as well, since it starts where the first one ends.
-/
import DdsRtps.Xlsx.CellLabels
import Mathlib.Order.Interval.Finset.Nat

namespace DdsRtps.Xlsx

/-! ## Columns -/

/-- The columns of a header. -/
def Heading.columns (h : Heading) : Finset Nat := Finset.Icc h.firstColumn h.lastColumn

/-- Is it of a column of a product? -/
def Write.ofProduct (w : Write) : Bool :=
  match w.content with
  | .product _ => true
  | .result _ => true
  | .heading _ => false
  | .test _ => false

/-- The columns of a table, behind the names of the tests. -/
def tableColumns (writes : List Write) : Finset Nat :=
  ((writes.filter Write.ofProduct).map Write.column).toFinset

/-- The header of a worksheet with a title. -/
def Worksheet.heading? (sheet : Worksheet) (title : Text) : Option Heading :=
  sheet.headings.find? fun h => h.text = title ++ sheet.product

/-- Each of the two headers spans its table. -/
def Worksheet.Spanned (sheet : Worksheet) : Prop :=
  (sheet.heading? "Publisher: ".toList).map Heading.columns =
      some (tableColumns sheet.publisherTable) ∧
    (sheet.heading? "Subscriber: ".toList).map Heading.columns =
      some (tableColumns sheet.subscriberTable)

theorem Write.product?_eq_some {w : Write} {cell : Nat × Nat} {name : Text} :
    w.product? = some (cell, name) ↔ w.content = .product name ∧ (w.row, w.column) = cell := by
  constructor
  · exact reads_product w cell name
  · rintro ⟨hcontent, rfl⟩
    rw [product?, hcontent]

variable {startingRow startingColumn : Nat} {printTestName : Bool}

/-- A table has a column for each of its products, and no other. -/
theorem tableColumns_addProductTable (value : List TestCaseAggregatedData) :
    tableColumns (addProductTable startingRow startingColumn value printTestName).writes =
      Finset.Icc (startingColumn + 1)
        (startingColumn + (FirstSeen.firsts (value.map (·.product))).length) := by
  ext k
  rw [Finset.mem_Icc, ← FirstSeen.exists_numberOf_iff, tableColumns, List.mem_toFinset,
    List.mem_map]
  have hproducts : (addProductTable startingRow startingColumn value
      printTestName).writes.filterMap Write.product? = _ := products_addProductTable value
  have hresults : (addProductTable startingRow startingColumn value
      printTestName).writes.filterMap Write.result? = _ := (addProductTable_spec value).2.2
  constructor
  · rintro ⟨w, hw, rfl⟩
    obtain ⟨hw, hof⟩ := List.mem_filter.mp hw
    cases hcontent : w.content with
    | product name =>
        have hmem := List.mem_filterMap.mpr ⟨w, hw, Write.product?_eq_some.mpr ⟨hcontent, rfl⟩⟩
        rw [hproducts] at hmem
        obtain ⟨name', hname, heq⟩ := List.mem_map.mp hmem
        exact ⟨name', FirstSeen.mem_firsts.mp hname, (Prod.mk.inj (Prod.mk.inj heq).1).2⟩
    | result element =>
        have hmem := List.mem_filterMap.mpr ⟨w, hw, Write.result?_eq_some.mpr ⟨hcontent, rfl⟩⟩
        rw [hresults] at hmem
        obtain ⟨element', helement, heq⟩ := List.mem_map.mp hmem
        exact ⟨element'.product, List.mem_map_of_mem helement,
          (Prod.mk.inj (Prod.mk.inj heq).1).2⟩
    | heading text =>
        rw [Write.ofProduct, hcontent] at hof
        cases hof
    | test name =>
        rw [Write.ofProduct, hcontent] at hof
        cases hof
  · rintro ⟨name, hname, rfl⟩
    have hmem := List.mem_map_of_mem (f := fun name => ((startingRow,
      FirstSeen.numberOf startingColumn (value.map (·.product)) name), name))
      (FirstSeen.mem_firsts.mpr hname)
    rw [← hproducts] at hmem
    obtain ⟨w, hw, hsome⟩ := List.mem_filterMap.mp hmem
    obtain ⟨hcontent, hcell⟩ := Write.product?_eq_some.mp hsome
    refine ⟨w, List.mem_filter.mpr ⟨hw, ?_⟩, (Prod.mk.inj hcell).2⟩
    rw [Write.ofProduct, hcontent]

/-! ## A worksheet -/

/-- The two headers, from the numbers of publishers and of subscribers. -/
theorem headings_of_addStaticDataTest {name : Text} {pubs subs : Nat} {headings : List Heading}
    (h : addStaticDataTest name pubs subs = .ok headings) :
    (headings.find? fun h => h.text = "Publisher: ".toList ++ name).map Heading.columns =
        some (Finset.Icc 2 (1 + subs)) ∧
      (headings.find? fun h => h.text = "Subscriber: ".toList ++ name).map Heading.columns =
        some (Finset.Icc (subs + 3) (subs + 2 + pubs)) ∧ 0 < pubs ∧ 0 < subs := by
  rw [addStaticDataTest] at h
  split at h
  · cases h
  · rename_i hcounts
    obtain rfl := Except.ok.inj h
    have hpublisherEnd : (if 1 + subs > 2 then 1 + subs else 2) = 1 + subs := by
      split
      · rfl
      · omega
    have hsubscriberEnd : (if 1 + subs + 1 + pubs > 1 + subs + 2 then 1 + subs + 1 + pubs
        else 1 + subs + 2) = subs + 2 + pubs := by
      split
      · omega
      · omega
    have hstart : 1 + subs + 2 = subs + 3 := by omega
    refine ⟨?_, ?_, by omega, by omega⟩
    · rw [List.find?_cons_of_pos (by simp), hpublisherEnd]
      rfl
    · rw [List.find?_cons_of_neg (by simp),
        List.find?_cons_of_neg (by simp),
        List.find?_cons_of_pos (by simp), hsubscriberEnd, hstart]
      rfl

/-- Where the second table of a worksheet begins. -/
theorem productWorksheet_layout {data : JunitData} {pubs subs : List Text} {name : Text}
    {sheet : Worksheet} (h : productWorksheet data pubs subs name = .ok sheet) :
    addStaticDataTest name pubs.length subs.length = .ok sheet.headings ∧
      sheet.subscriberTable =
        if name ∈ subs then
          (addProductTable 2 (1 + (FirstSeen.firsts
            ((data.publisherProductDict.listAt name).map (·.product))).length + 1)
            (data.subscriberProductDict.listAt name) false).writes
        else [] := by
  rw [productWorksheet] at h
  cases hstatic : addStaticDataTest name pubs.length subs.length with
  | error e =>
      rw [hstatic] at h
      cases h
  | ok headings =>
      rw [hstatic] at h
      obtain rfl := Except.ok.inj h
      refine ⟨rfl, ?_⟩
      simp only [(addProductTable_spec _).2.1, FirstSeen.current_assignAll]

/-- The headers of a worksheet, by the numbers of opponents. -/
theorem spanned_iff_lengths {data : JunitData} {pubs subs : List Text} {name : Text}
    {sheet : Worksheet} (h : productWorksheet data pubs subs name = .ok sheet)
    (hsub : data.subscriberProductDict.listAt name ≠ [] → name ∈ subs) :
    sheet.Spanned ↔
      (FirstSeen.firsts ((data.publisherProductDict.listAt name).map (·.product))).length =
          subs.length ∧
        (FirstSeen.firsts ((data.subscriberProductDict.listAt name).map (·.product))).length =
          pubs.length := by
  obtain ⟨hproduct, hpublisherTable, -⟩ := productWorksheet_ok h
  obtain ⟨hstatic, hsubscriberTable⟩ := productWorksheet_layout h
  obtain ⟨hpublisher, hsubscriber, hpubs, hsubs⟩ := headings_of_addStaticDataTest hstatic
  generalize hmet : (FirstSeen.firsts
    ((data.publisherProductDict.listAt name).map (·.product))).length = met at *
  -- a product that is no subscriber has an empty table, as from an empty list
  have hcolumns : tableColumns sheet.subscriberTable = Finset.Icc (met + 3) (met + 2 +
      (FirstSeen.firsts ((data.subscriberProductDict.listAt name).map (·.product))).length) := by
    rw [hsubscriberTable]
    split
    · rw [tableColumns_addProductTable]
      congr 1 <;> omega
    · rename_i hnot
      have hnil : data.subscriberProductDict.listAt name = [] := by
        by_contra hne
        exact hnot (hsub hne)
      rw [hnil]
      exact (Finset.Icc_eq_empty (by simp [FirstSeen.firsts])).symm
  generalize (FirstSeen.firsts
    ((data.subscriberProductDict.listAt name).map (·.product))).length = met' at *
  rw [Worksheet.Spanned, Worksheet.heading?, Worksheet.heading?, hproduct, hpublisher, hsubscriber,
    hpublisherTable, tableColumns_addProductTable, hcolumns, hmet, Option.some.injEq,
    Option.some.injEq]
  constructor
  · rintro ⟨hfirst, hsecond⟩
    have hcard := congrArg Finset.card hfirst
    have hcard' := congrArg Finset.card hsecond
    rw [Nat.card_Icc, Nat.card_Icc] at hcard hcard'
    omega
  · rintro ⟨rfl, rfl⟩
    exact ⟨rfl, rfl⟩

/-! ## Opponents -/

section Opponents

variable {py : PyUpper} {report : List Suite} {product name : Text}
  {updates : Suite → List (Text × TestCaseAggregatedData)} {keyOf nameOf : Suite → Text}
  (hupdates : ∀ suite, updates suite = suite.cases.map fun case =>
    (keyOf suite, ⟨nameOf suite, case.testName py, case.status py⟩))

include hupdates

variable (report updates) in
/-- A key of a dict of lists is the name of a suite with a case. -/
theorem mem_keys_updates_iff :
    name ∈ ((PyDict.empty : PyDict Text (List TestCaseAggregatedData)).pushAll
        (report.flatMap updates)).items.map Prod.fst ↔
      ∃ suite ∈ report, suite.cases ≠ [] ∧ keyOf suite = name := by
  rw [PyDict.mem_keys_pushAll, List.map_flatMap, List.mem_flatMap]
  constructor
  · rintro (hempty | ⟨suite, hsuite, hname⟩)
    · cases hempty
    · rw [hupdates] at hname
      obtain ⟨update, hupdate, rfl⟩ := List.mem_map.mp hname
      obtain ⟨case, hcase, rfl⟩ := List.mem_map.mp hupdate
      exact ⟨suite, hsuite, List.ne_nil_of_mem hcase, rfl⟩
  · rintro ⟨suite, hsuite, hcases, rfl⟩
    obtain ⟨case, hcase⟩ := List.exists_mem_of_ne_nil _ hcases
    refine .inr ⟨suite, hsuite, ?_⟩
    rw [hupdates, List.map_map]
    exact List.mem_map_of_mem (f := fun _ => keyOf suite) hcase

variable (report product updates) in
/-- The products in the list of a key are the other names of its suites. -/
theorem mem_opponents_iff :
    name ∈ (((PyDict.empty : PyDict Text (List TestCaseAggregatedData)).pushAll
        (report.flatMap updates)).listAt product).map (·.product) ↔
      ∃ suite ∈ report, suite.cases ≠ [] ∧ keyOf suite = product ∧ nameOf suite = name := by
  have hkey : ∀ suite, ∀ update ∈ updates suite, update.1 = keyOf suite := by
    intro suite update hupdate
    rw [hupdates] at hupdate
    obtain ⟨case, -, rfl⟩ := List.mem_map.mp hupdate
    rfl
  rw [listAt_pushAll_flatMap updates keyOf hkey report product, List.map_flatMap,
    List.mem_flatMap]
  constructor
  · rintro ⟨suite, hsuite, hname⟩
    obtain ⟨hsuite, hproduct⟩ := List.mem_filter.mp hsuite
    rw [hupdates] at hname
    obtain ⟨element, helement, rfl⟩ := List.mem_map.mp hname
    obtain ⟨update, hupdate, rfl⟩ := List.mem_map.mp helement
    obtain ⟨case, hcase, rfl⟩ := List.mem_map.mp hupdate
    exact ⟨suite, hsuite, List.ne_nil_of_mem hcase, of_decide_eq_true hproduct, rfl⟩
  · rintro ⟨suite, hsuite, hcases, hproduct, rfl⟩
    obtain ⟨case, hcase⟩ := List.exists_mem_of_ne_nil _ hcases
    refine ⟨suite, List.mem_filter.mpr ⟨hsuite, decide_eq_true hproduct⟩, ?_⟩
    rw [hupdates, List.map_map, List.map_map]
    exact List.mem_map_of_mem (f := fun _ => nameOf suite) hcase

end Opponents

/-- The product met as publisher everyone who is a subscriber, and as subscriber
everyone who is a publisher. -/
def MeetsAll (py : PyUpper) (report : List Suite) (product : Text) : Prop :=
  ∀ suite ∈ report, suite.cases ≠ [] →
    (∃ met ∈ report, met.cases ≠ [] ∧ met.publisherName py = product ∧
        met.subscriberName py = suite.subscriberName py) ∧
      ∃ met ∈ report, met.cases ≠ [] ∧ met.subscriberName py = product ∧
        met.publisherName py = suite.publisherName py

variable {py : PyUpper} {report : List Suite} {product : Text}

/-- The headers of a worksheet span its tables exactly if its product met everyone
in both roles. -/
theorem headers_span_iff {takes : List Text → Text → Bool} {data : JunitData}
    {sheets : List Worksheet} (hdata : getInfo py .empty report = .ok data)
    (hsheets : addDataTestWorksheet takes data = .ok sheets)
    (hpublisher : publisherTests py report product ≠ []) :
    ∃ sheet, sheets.find? (fun sheet => sheet.product = product) = some sheet ∧
      (sheet.Spanned ↔ MeetsAll py report product) := by
  obtain ⟨sheet, -, hfind, -⟩ := exists_worksheet hdata hsheets hpublisher
  refine ⟨sheet, hfind, ?_⟩
  have hproduct : sheet.product = product := by simpa using List.find?_some hfind
  have hsheet := (addDataTestWorksheet_ok hsheets).2 sheet (List.mem_of_find?_eq_some hfind)
  rw [hproduct] at hsheet
  rw [spanned_iff_lengths hsheet PyDict.mem_keys_of_listAt_ne_nil]
  obtain ⟨-, rfl⟩ := getInfo_eq_ok.mp hdata
  have hpubs : ∀ {name}, name ∈ _ ↔ _ :=
    mem_keys_updates_iff report (Suite.publisherUpdates py) fun _ => rfl
  have hsubs : ∀ {name}, name ∈ _ ↔ _ :=
    mem_keys_updates_iff report (Suite.subscriberUpdates py) fun _ => rfl
  have hmet : ∀ {name}, name ∈ _ ↔ _ :=
    mem_opponents_iff report product (Suite.publisherUpdates py) fun _ => rfl
  have hmet' : ∀ {name}, name ∈ _ ↔ _ :=
    mem_opponents_iff report product (Suite.subscriberUpdates py) fun _ => rfl
  rw [FirstSeen.length_firsts_eq_iff (PyDict.nodup _), FirstSeen.length_firsts_eq_iff
    (PyDict.nodup _)]
  · constructor
    · rintro ⟨hfirst, hsecond⟩ suite hsuite hcases
      exact ⟨hmet.mp (hfirst _ (hsubs.mpr ⟨suite, hsuite, hcases, rfl⟩)),
        hmet'.mp (hsecond _ (hpubs.mpr ⟨suite, hsuite, hcases, rfl⟩))⟩
    · intro h
      constructor
      · intro name hname
        obtain ⟨suite, hsuite, hcases, rfl⟩ := hsubs.mp hname
        exact hmet.mpr (h suite hsuite hcases).1
      · intro name hname
        obtain ⟨suite, hsuite, hcases, rfl⟩ := hpubs.mp hname
        exact hmet'.mpr (h suite hsuite hcases).2
  · intro name hname
    obtain ⟨suite, hsuite, hcases, -, rfl⟩ := hmet'.mp hname
    exact hpubs.mpr ⟨suite, hsuite, hcases, rfl⟩
  · intro name hname
    obtain ⟨suite, hsuite, hcases, -, rfl⟩ := hmet.mp hname
    exact hsubs.mpr ⟨suite, hsuite, hcases, rfl⟩

theorem headers_span_unevenReport :
    ∃ sheets, addDataTestWorksheet (fun _ _ => true)
        (JunitData.empty.record .ascii unevenReport) = .ok sheets ∧
      ∃ sheet, sheets.find? (fun sheet => sheet.product = "HDDS".toList) = some sheet ∧
        (sheet.Spanned ↔ MeetsAll .ascii unevenReport "HDDS".toList) := by
  obtain ⟨sheets, hsheets⟩ := exists_sheets_unevenReport
  exact ⟨sheets, hsheets, headers_span_iff getInfo_unevenReport hsheets
    publisherTests_unevenReport_ne_nil⟩

/-- The header is two columns wide, the table has one: HDDS was not tested with itself. -/
theorem not_headers_span :
    ¬ ∀ (py : PyUpper) (takes : List Text → Text → Bool) (report : List Suite) (data : JunitData)
      (sheets : List Worksheet) (product : Text), getInfo py .empty report = .ok data →
      addDataTestWorksheet takes data = .ok sheets → publisherTests py report product ≠ [] →
      ∃ sheet, sheets.find? (fun sheet => sheet.product = product) = some sheet ∧
        sheet.Spanned := by
  intro h
  obtain ⟨sheets, hsheets⟩ := exists_sheets_unevenReport
  obtain ⟨sheet, hfind, hspanned⟩ := h .ascii _ unevenReport _ sheets "HDDS".toList
    getInfo_unevenReport hsheets publisherTests_unevenReport_ne_nil
  have hproduct : sheet.product = "HDDS".toList := by simpa using List.find?_some hfind
  have hsheet := (addDataTestWorksheet_ok hsheets).2 sheet (List.mem_of_find?_eq_some hfind)
  rw [hproduct] at hsheet
  have hlengths := (spanned_iff_lengths hsheet PyDict.mem_keys_of_listAt_ne_nil).mp hspanned
  revert hlengths
  decide +kernel

end DdsRtps.Xlsx
