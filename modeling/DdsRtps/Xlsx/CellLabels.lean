/-
# `DdsRtps.Xlsx.CellLabels` — what stands above and beside a cell

The table of `add_product_table` has the products above its columns and the tests
beside its rows, the matrix of `add_data_summary_worksheet` the subscribers and
the publishers.  Both number what they meet for the first time, and write its
title; that every cell then has its own titles, and that no title is written over,
is `Lays` for each of the two (`lays_addProductTable`, `exists_isMatrix`).

The matrix begins two rows below the table of the products.  Its counters for
columns and for publishers start both from the column of the titles, which is
column 1 whatever the starting column is; so this is about starting column 1.
-/
import DdsRtps.Lib.LabelledGrid
import DdsRtps.Xlsx.SharedCells

namespace DdsRtps.Xlsx

open LabelledGrid

/-! ## The table of a product -/

/-- The cell of a write. -/
def Write.cell (w : Write) : Nat × Nat := (w.row, w.column)

/-- The name of a product, with its cell. -/
def Write.product? (w : Write) : Option ((Nat × Nat) × Text) :=
  match w.content with
  | .product name => some ((w.row, w.column), name)
  | _ => none

/-- A heading, with its cell. -/
def Write.heading? (w : Write) : Option ((Nat × Nat) × Text) :=
  match w.content with
  | .heading text => some ((w.row, w.column), text)
  | _ => none

/-- What a worksheet shows in a cell. -/
def shown (writes : List Write) (c : Nat × Nat) : Option Content :=
  (lastAt Write.cell writes c).map Write.content

theorem reads_result : Reads Write.cell Write.content Content.result Write.result? :=
  fun _ _ _ => Write.result?_eq_some.mp

theorem reads_test : Reads Write.cell Write.content Content.test Write.test? :=
  fun _ _ _ => Write.test?_eq_some.mp

theorem reads_product : Reads Write.cell Write.content Content.product Write.product? := by
  intro w c name h
  rw [Write.product?] at h
  split at h
  · rename_i name' hcontent
    obtain ⟨hcell, rfl⟩ := Prod.mk.inj (Option.some.inj h)
    exact ⟨hcontent, hcell⟩
  · cases h

theorem reads_heading : Reads Write.cell Write.content Content.heading Write.heading? := by
  intro w c text h
  rw [Write.heading?] at h
  split at h
  · rename_i text' hcontent
    obtain ⟨hcell, rfl⟩ := Prod.mk.inj (Option.some.inj h)
    exact ⟨hcontent, hcell⟩
  · cases h

variable {startingRow startingColumn : Nat} {printTestName : Bool}

/-- The products are named once each, in the first row, in the columns of their results. -/
theorem products_addProductTable (value : List TestCaseAggregatedData) :
    (addProductTable startingRow startingColumn value printTestName).writes.filterMap
        Write.product? =
      (FirstSeen.firsts (value.map (·.product))).map fun name =>
        ((startingRow, FirstSeen.numberOf startingColumn (value.map (·.product)) name), name) := by
  refine FirstSeen.titles_foldl TestCaseAggregatedData.product Table.columns
    (fun t => t.writes.filterMap Write.product?) (fun column => (startingRow, column))
    (fun t element => rfl) (fun t element => ?_) rfl ?_ value
  · have htest : (if t.rows.known element.testName || !printTestName then []
        else [(⟨t.rows.number element.testName, startingColumn, .test element.testName⟩ :
          Write)]).filterMap Write.product? = [] := FirstSeen.filterMap_unless rfl _
    simp only [addElement, List.filterMap_append, htest, List.append_nil]
    exact (List.append_nil _).trans (congrArg (_ ++ ·) (FirstSeen.filterMap_unless_some (by rfl) _))
  · cases printTestName with
    | false => rfl
    | true => rfl

/-- There is one heading, in the corner. -/
theorem headings_addProductTable (value : List TestCaseAggregatedData) :
    (addProductTable startingRow startingColumn value true).writes.filterMap Write.heading? =
      [((startingRow, startingColumn), "Test".toList)] := by
  induction value using List.reverseRecOn with
  | nil => rfl
  | append_singleton value element ih =>
      rw [addProductTable_concat, addElement]
      simp only [List.filterMap_append, ih]
      rw [FirstSeen.filterMap_unless rfl, FirstSeen.filterMap_unless rfl]
      rfl

theorem heading?_isSome {w : Write} (hresult : w.result? = none) (hproduct : w.product? = none)
    (htest : w.test? = none) : w.heading?.isSome = true := by
  rw [Write.result?] at hresult
  rw [Write.product?] at hproduct
  rw [Write.test?] at htest
  rw [Write.heading?]
  cases hcontent : w.content with
  | heading text => rfl
  | product name =>
      rw [hcontent] at hproduct
      cases hproduct
  | test name =>
      rw [hcontent] at htest
      cases htest
  | result element =>
      rw [hcontent] at hresult
      cases hresult

/-- The heading is in the corner. -/
theorem heading_cell {value : List TestCaseAggregatedData} {w : Write}
    (hw : w ∈ (addProductTable startingRow startingColumn value true).writes)
    (hsome : w.heading?.isSome = true) : w.cell = (startingRow, startingColumn) := by
  obtain ⟨⟨c, text⟩, hread⟩ := Option.isSome_iff_exists.mp hsome
  have hmem := List.mem_filterMap.mpr ⟨w, hw, hread⟩
  rw [headings_addProductTable, List.mem_singleton] at hmem
  rw [(reads_heading w c text hread).2, (Prod.mk.inj hmem).1]

variable (startingRow startingColumn) in
theorem lays_addProductTable (value : List TestCaseAggregatedData) :
    Lays Write.cell startingRow startingColumn TestCaseAggregatedData.testName
      TestCaseAggregatedData.product Write.result? Write.test? Write.product? value
      (addProductTable startingRow startingColumn value true).writes where
  values := (addProductTable_spec value).2.2
  columnTitles := products_addProductTable value
  rowTitles := tests_addProductTable value
  others _ hw hresult hproduct htest :=
    .inr (heading_cell hw (heading?_isSome hresult hproduct htest))

/-- No title of a table is written over. -/
theorem title_once_addProductTable {value : List TestCaseAggregatedData} {w : Write}
    (hw : w ∈ (addProductTable startingRow startingColumn value true).writes)
    (htitle : w.result? = none) :
    WrittenOnce Write.cell (addProductTable startingRow startingColumn value true).writes w := by
  have hlays := lays_addProductTable startingRow startingColumn value
  by_cases hproduct : w.product?.isSome = true
  · exact hlays.columnTitle_once reads_result reads_test reads_product hw hproduct
  · by_cases htest : w.test?.isSome = true
    · exact hlays.rowTitle_once reads_result reads_test reads_product hw htest
    · have hheading := heading?_isSome htitle (by simpa using hproduct) (by simpa using htest)
      refine reads_heading.writtenOnce ?_ hw fun w' hw' hcell => ?_
      · rw [headings_addProductTable]
        exact List.nodup_singleton _
      · -- no title and no result is in the corner
        have hcorner := hcell.trans (heading_cell hw hheading)
        refine heading?_isSome ?_ ?_ ?_
        · by_contra hsome
          have hplace := hlays.value_cell reads_result hw' (Option.isSome_iff_ne_none.mpr hsome)
          rw [hcorner] at hplace
          exact lt_irrefl _ hplace.1
        · by_contra hsome
          have hplace := hlays.columnTitle_cell reads_product hw'
            (Option.isSome_iff_ne_none.mpr hsome)
          rw [hcorner] at hplace
          exact lt_irrefl _ hplace.2
        · by_contra hsome
          have hplace := hlays.rowTitle_cell reads_test hw' (Option.isSome_iff_ne_none.mpr hsome)
          rw [hcorner] at hplace
          exact lt_irrefl _ hplace.1

/-! ## The matrix of the pairs -/

/-- The cell of a write. -/
def SummaryWrite.cell (w : SummaryWrite) : Nat × Nat := (w.row, w.column)

/-- The name of a subscriber, with its cell. -/
def SummaryWrite.subscriber? (w : SummaryWrite) : Option ((Nat × Nat) × Text) :=
  match w.content with
  | .subscriber name => some ((w.row, w.column), name)
  | _ => none

/-- The name of a publisher, with its cell. -/
def SummaryWrite.publisher? (w : SummaryWrite) : Option ((Nat × Nat) × Text) :=
  match w.content with
  | .publisher name => some ((w.row, w.column), name)
  | _ => none

/-- What stands above the matrix or in its corner, with its cell. -/
def SummaryWrite.above? (w : SummaryWrite) : Option ((Nat × Nat) × SummaryContent) :=
  match w.content with
  | .publisher _ => none
  | .subscriber _ => none
  | .pair _ _ => none
  | content => some ((w.row, w.column), content)

/-- What the summary shows in a cell. -/
def shownSummary (writes : List SummaryWrite) (c : Nat × Nat) : Option SummaryContent :=
  (lastAt SummaryWrite.cell writes c).map SummaryWrite.content

theorem reads_pair : Reads SummaryWrite.cell SummaryWrite.content
    (fun entry : (Text × Text) × AggregatedData => SummaryContent.pair entry.1 entry.2)
    SummaryWrite.pair? := by
  intro w c entry h
  rw [SummaryWrite.pair?] at h
  split at h
  · rename_i names value hcontent
    obtain ⟨hcell, rfl⟩ := Prod.mk.inj (Option.some.inj h)
    exact ⟨hcontent, hcell⟩
  · cases h

theorem reads_subscriber : Reads SummaryWrite.cell SummaryWrite.content SummaryContent.subscriber
    SummaryWrite.subscriber? := by
  intro w c name h
  rw [SummaryWrite.subscriber?] at h
  split at h
  · rename_i name' hcontent
    obtain ⟨hcell, rfl⟩ := Prod.mk.inj (Option.some.inj h)
    exact ⟨hcontent, hcell⟩
  · cases h

theorem reads_publisher : Reads SummaryWrite.cell SummaryWrite.content SummaryContent.publisher
    SummaryWrite.publisher? := by
  intro w c name h
  rw [SummaryWrite.publisher?] at h
  split at h
  · rename_i name' hcontent
    obtain ⟨hcell, rfl⟩ := Prod.mk.inj (Option.some.inj h)
    exact ⟨hcontent, hcell⟩
  · cases h

theorem reads_above : Reads SummaryWrite.cell SummaryWrite.content id SummaryWrite.above? := by
  intro w c content h
  rw [SummaryWrite.above?] at h
  split at h
  · cases h
  · cases h
  · cases h
  · obtain ⟨hcell, hcontent⟩ := Prod.mk.inj (Option.some.inj h)
    exact ⟨hcontent, hcell⟩

theorem above?_isSome {w : SummaryWrite} (hpair : w.pair? = none)
    (hsubscriber : w.subscriber? = none) (hpublisher : w.publisher? = none) :
    w.above?.isSome = true := by
  rw [SummaryWrite.pair?] at hpair
  rw [SummaryWrite.subscriber?] at hsubscriber
  rw [SummaryWrite.publisher?] at hpublisher
  rw [SummaryWrite.above?]
  cases hcontent : w.content with
  | pair names value => simp [hcontent] at hpair
  | subscriber name => simp [hcontent] at hsubscriber
  | publisher name => simp [hcontent] at hpublisher
  | heading text => rfl
  | company name => rfl
  | product name => rfl
  | coverage value => rfl

/-- What stands above the matrix is none of its own. -/
theorem none_of_above {w : SummaryWrite} (h : w.above?.isSome = true) :
    w.pair? = none ∧ w.subscriber? = none ∧ w.publisher? = none := by
  rw [SummaryWrite.above?] at h
  rw [SummaryWrite.pair?, SummaryWrite.subscriber?, SummaryWrite.publisher?]
  cases hcontent : w.content with
  | pair names value => simp [hcontent] at h
  | subscriber name => simp [hcontent] at h
  | publisher name => simp [hcontent] at h
  | heading text => exact ⟨rfl, rfl, rfl⟩
  | company name => exact ⟨rfl, rfl, rfl⟩
  | product name => exact ⟨rfl, rfl, rfl⟩
  | coverage value => exact ⟨rfl, rfl, rfl⟩

/-- What is written before the matrix: nothing of the matrix, above the current row, and no
cell twice. -/
structure Above (s : Nat × List SummaryWrite) : Prop where
  above : ∀ w ∈ s.2, w.above? = some (w.cell, w.content)
  rows : ∀ w ∈ s.2, w.row < s.1
  nodup : (s.2.map SummaryWrite.cell).Nodup

variable {py : PyUpper}

/-- A product is with itself in one pair only. -/
theorem coverage_cases {pairs : List ((Text × Text) × AggregatedData)}
    (hpairs : (pairs.map Prod.fst).Nodup) (product : Text) :
    (pairs.filter fun entry => product = entry.1.1 ∧ product = entry.1.2) = [] ∨
      ∃ entry, (pairs.filter fun entry => product = entry.1.1 ∧ product = entry.1.2) = [entry] := by
  have hone : (pairs.filter fun entry => product = entry.1.1 ∧ product = entry.1.2).length ≤ 1 := by
    rw [← List.countP_eq_length_filter]
    have hcount := List.nodup_iff_count_le_one.mp hpairs (product, product)
    rw [List.count, List.countP_map] at hcount
    refine le_trans (le_of_eq (List.countP_congr fun entry _ => ?_)) hcount
    simp only [decide_eq_true_eq, Function.comp_apply, beq_iff_eq]
    constructor
    · rintro ⟨hpublisher, hsubscriber⟩
      exact Prod.ext hpublisher.symm hsubscriber.symm
    · intro hpair
      rw [hpair]
      exact ⟨rfl, rfl⟩
  rcases Nat.le_one_iff_eq_zero_or_eq_one.mp hone with hzero | hone
  · exact .inl (List.length_eq_zero_iff.mp hzero)
  · exact .inr (List.length_eq_one_iff.mp hone)

/-- The row of a product is new. -/
theorem Above.turn {pairs : List ((Text × Text) × AggregatedData)} {column : Nat}
    {s s' : Nat × List SummaryWrite} {product : Text} (hs : Above s)
    (hpairs : (pairs.map Prod.fst).Nodup) (h : addProductRow py column pairs s product = .ok s') :
    Above s' := by
  rw [addProductRow] at h
  cases hcompany : getCompanyName py product with
  | error e =>
      rw [hcompany] at h
      cases h
  | ok company =>
      rw [hcompany] at h
      obtain rfl := Except.ok.inj h
      -- all that is new is in the current row
      have hnew : ∀ new : List SummaryWrite,
          (∀ w ∈ new, w.above? = some (w.cell, w.content)) → (∀ w ∈ new, w.row = s.1) →
          (new.map SummaryWrite.cell).Nodup → Above (s.1 + 1, s.2 ++ new) := by
        intro new habove hrow hnodup
        refine ⟨?_, ?_, ?_⟩
        · intro w hw
          rcases List.mem_append.mp hw with hw | hw
          · exact hs.above w hw
          · exact habove w hw
        · intro w hw
          rcases List.mem_append.mp hw with hw | hw
          · exact Nat.lt_succ_of_lt (hs.rows w hw)
          · rw [hrow w hw]
            exact Nat.lt_succ_self _
        · rw [List.map_append]
          refine hs.nodup.append hnodup fun c hold hc => ?_
          obtain ⟨w, hw, rfl⟩ := List.mem_map.mp hold
          obtain ⟨w', hw', hcell⟩ := List.mem_map.mp hc
          have hsame : w.row = s.1 := (Prod.mk.inj hcell).1.symm.trans (hrow w' hw')
          exact absurd (hs.rows w hw) (by omega)
      rcases coverage_cases hpairs product with hnone | ⟨entry, hentry⟩
      · simp only [hnone, List.map_nil, List.append_nil]
        refine hnew _ ?_ ?_ ?_
        · simp [SummaryWrite.above?, SummaryWrite.cell]
        · simp
        · simp [SummaryWrite.cell]
      · simp only [hentry, List.map_cons, List.map_nil, List.append_assoc]
        refine hnew _ ?_ ?_ ?_
        · simp [SummaryWrite.above?, SummaryWrite.cell]
        · simp
        · simp [SummaryWrite.cell]

theorem Above.foldlM {pairs : List ((Text × Text) × AggregatedData)} {column : Nat}
    {products : List Text} {s s' : Nat × List SummaryWrite} (hs : Above s)
    (hpairs : (pairs.map Prod.fst).Nodup)
    (h : products.foldlM (addProductRow py column pairs) s = .ok s') : Above s' := by
  induction products generalizing s with
  | nil =>
      obtain rfl := Except.ok.inj h
      exact hs
  | cons product products ih =>
      rw [List.foldlM_cons] at h
      cases hturn : addProductRow py column pairs s product with
      | error e =>
          rw [hturn] at h
          cases h
      | ok s'' =>
          rw [hturn] at h
          exact ih (hs.turn hpairs hturn) h

/-- What is read in the matrix is not read above it. -/
theorem Above.filterMap_concat {s : Nat × List SummaryWrite} (hs : Above s) {β : Type}
    {read? : SummaryWrite → Option β} (corner : SummaryWrite) (hcorner : read? corner = none)
    (hread : ∀ w, w.above?.isSome = true → read? w = none) :
    (s.2 ++ [corner]).filterMap read? = [] := by
  rw [List.filterMap_append, List.filterMap_cons_none hcorner, List.filterMap_nil, List.append_nil]
  refine List.filterMap_eq_nil_iff.mpr fun w hw => hread w ?_
  rw [hs.above w hw]
  rfl

/-- What stands above the matrix, and in its corner. -/
theorem Above.above_concat {s : Nat × List SummaryWrite} (hs : Above s) {corner : SummaryWrite}
    (hcorner : corner.above? = some (corner.cell, corner.content)) :
    (s.2 ++ [corner]).filterMap SummaryWrite.above? =
      s.2.map (fun w => (w.cell, w.content)) ++ [(corner.cell, corner.content)] := by
  rw [List.filterMap_append, List.filterMap_cons_some hcorner, List.filterMap_nil,
    ← List.filterMap_eq_map]
  exact congrArg (· ++ _) (List.filterMap_congr fun w hw => hs.above w hw)

/-- What stands above the matrix stays there. -/
theorem above_foldl_addPair (subscriberRow publisherColumn : Nat)
    (entries : List ((Text × Text) × AggregatedData)) (t : Matrix) :
    (entries.foldl (addPair subscriberRow publisherColumn) t).writes.filterMap
        SummaryWrite.above? = t.writes.filterMap SummaryWrite.above? := by
  induction entries generalizing t with
  | nil => rfl
  | cons entry entries ih =>
      rw [List.foldl_cons, ih]
      simp only [addPair, List.filterMap_append]
      rw [FirstSeen.filterMap_unless rfl, FirstSeen.filterMap_unless rfl]
      simp [SummaryWrite.above?]

/-- The subscribers are named once each, in the row of the corner. -/
theorem subscribers_foldl_addPair (subscriberRow publisherColumn : Nat)
    {writes : List SummaryWrite} (hnone : writes.filterMap SummaryWrite.subscriber? = [])
    (entries : List ((Text × Text) × AggregatedData)) :
    (entries.foldl (addPair subscriberRow publisherColumn)
      { rows := .start subscriberRow
        columns := .start startingColumn
        writes := writes }).writes.filterMap SummaryWrite.subscriber? =
      (FirstSeen.firsts (entries.map fun entry => entry.1.2)).map fun name =>
        ((subscriberRow, FirstSeen.numberOf startingColumn (entries.map fun entry => entry.1.2)
          name), name) := by
  refine FirstSeen.titles_foldl (fun entry : (Text × Text) × AggregatedData => entry.1.2)
    Matrix.columns (fun t => t.writes.filterMap SummaryWrite.subscriber?)
    (fun column => (subscriberRow, column)) (fun t entry => rfl) (fun t entry => ?_) rfl hnone
    entries
  simp only [addPair, List.filterMap_append]
  rw [FirstSeen.filterMap_unless rfl, List.append_nil]
  exact (List.append_nil _).trans (congrArg (_ ++ ·) (FirstSeen.filterMap_unless_some (by rfl) _))

/-- The publishers are named once each, in their column. -/
theorem publishers_foldl_addPair (subscriberRow publisherColumn : Nat)
    {writes : List SummaryWrite} (hnone : writes.filterMap SummaryWrite.publisher? = [])
    (entries : List ((Text × Text) × AggregatedData)) :
    (entries.foldl (addPair subscriberRow publisherColumn)
      { rows := .start subscriberRow
        columns := .start startingColumn
        writes := writes }).writes.filterMap SummaryWrite.publisher? =
      (FirstSeen.firsts (entries.map fun entry => entry.1.1)).map fun name =>
        ((FirstSeen.numberOf subscriberRow (entries.map fun entry => entry.1.1) name,
          publisherColumn), name) := by
  refine FirstSeen.titles_foldl (fun entry : (Text × Text) × AggregatedData => entry.1.1)
    Matrix.rows (fun t => t.writes.filterMap SummaryWrite.publisher?)
    (fun row => (row, publisherColumn)) (fun t entry => rfl) (fun t entry => ?_) rfl hnone entries
  have hsubscriber : (if t.columns.known entry.1.2 then []
      else [(⟨subscriberRow, t.columns.number entry.1.2, .subscriber entry.1.2⟩ :
        SummaryWrite)]).filterMap SummaryWrite.publisher? = [] := FirstSeen.filterMap_unless rfl _
  simp only [addPair, List.filterMap_append, hsubscriber, List.append_nil]
  exact (List.append_nil _).trans (congrArg (_ ++ ·) (FirstSeen.filterMap_unless_some (by rfl) _))

/-- Where the matrix is, and what it consists of. -/
structure IsMatrix (subscriberRow : Nat) (entries : List ((Text × Text) × AggregatedData))
    (writes : List SummaryWrite) : Prop where
  lays : Lays SummaryWrite.cell subscriberRow 1
    (fun entry : (Text × Text) × AggregatedData => entry.1.1) (fun entry => entry.1.2)
    SummaryWrite.pair? SummaryWrite.publisher? SummaryWrite.subscriber? entries writes
  above : ((writes.filterMap SummaryWrite.above?).map Prod.fst).Nodup

theorem exists_isMatrix {data : JunitData} {writes : List SummaryWrite}
    (h : addDataSummaryWorksheet py startingRow 1 data = .ok writes) :
    ∃ subscriberRow, IsMatrix subscriberRow data.productSummaryDict.items writes := by
  rw [addDataSummaryWorksheet] at h
  cases hrows : (data.summaryDict.items.map Prod.fst).foldlM
      (addProductRow py 1 data.productSummaryDict.items)
      (startingRow + 1, [⟨startingRow, 1, .heading "Company".toList⟩,
        ⟨startingRow, 1 + 1, .heading "Product".toList⟩,
        ⟨startingRow, 1 + 2, .heading "Single-Product Tests".toList⟩]) with
  | error e =>
      rw [hrows] at h
      cases h
  | ok s =>
      rw [hrows] at h
      obtain rfl := Except.ok.inj h
      have hs : Above s := by
        refine Above.foldlM ⟨?_, ?_, ?_⟩ data.productSummaryDict.nodup hrows
        · simp [SummaryWrite.above?, SummaryWrite.cell]
        · simp
        · simp [SummaryWrite.cell]
      have hall := fun w => (above_foldl_addPair (s.1 + 2) 1 data.productSummaryDict.items w)
      refine ⟨s.1 + 2, ⟨?_, ?_, ?_, ?_⟩, ?_⟩
      · exact pairs_foldl_addPair _ _
          (hs.filterMap_concat _ rfl fun w hw => (none_of_above hw).1) _
      · exact subscribers_foldl_addPair _ _
          (hs.filterMap_concat _ rfl fun w hw => (none_of_above hw).2.1) _
      · exact publishers_foldl_addPair _ _
          (hs.filterMap_concat _ rfl fun w hw => (none_of_above hw).2.2) _
      · intro w hw hpair hsubscriber hpublisher
        obtain ⟨⟨c, content⟩, hread⟩ :=
          Option.isSome_iff_exists.mp (above?_isSome hpair hsubscriber hpublisher)
        have hmem := List.mem_filterMap.mpr ⟨w, hw, hread⟩
        rw [hall, hs.above_concat rfl, List.mem_append, List.mem_map, List.mem_singleton] at hmem
        rw [(reads_above w c content hread).2]
        rcases hmem with ⟨w', hw', heq⟩ | heq
        · left
          rw [← (Prod.mk.inj heq).1]
          exact Nat.lt_add_right 2 (hs.rows w' hw')
        · exact .inr (Prod.mk.inj heq).1
      · rw [hall, hs.above_concat rfl, List.map_append, List.map_map]
        refine hs.nodup.append (List.nodup_singleton _) fun c hc hcorner => ?_
        obtain ⟨w, hw, rfl⟩ := List.mem_map.mp hc
        have hsame := congrArg Prod.fst (List.mem_singleton.mp hcorner)
        exact absurd (hs.rows w hw) (by
          have : w.row = s.1 + 2 := hsame
          omega)

namespace IsMatrix

variable {subscriberRow : Nat} {entries : List ((Text × Text) × AggregatedData)}
  {writes : List SummaryWrite} (h : IsMatrix subscriberRow entries writes)

include h

/-- Where it stands, what is above the matrix is above it. -/
theorem above_of_cell {w : SummaryWrite} (hw : w ∈ writes)
    (hcell : w.row < subscriberRow ∨ w.cell = (subscriberRow, 1)) : w.above?.isSome = true := by
  have hplace : ¬(subscriberRow < w.row) ∧ ¬(w.row = subscriberRow ∧ 1 < w.column) := by
    rcases hcell with hlt | hcorner
    · omega
    · obtain ⟨hrow, hcolumn⟩ := Prod.mk.inj hcorner
      omega
  refine above?_isSome ?_ ?_ ?_
  · by_contra hsome
    exact hplace.1 (h.lays.value_cell reads_pair hw (Option.isSome_iff_ne_none.mpr hsome)).1
  · by_contra hsome
    exact hplace.2
      (h.lays.columnTitle_cell reads_subscriber hw (Option.isSome_iff_ne_none.mpr hsome))
  · by_contra hsome
    exact hplace.1
      (h.lays.rowTitle_cell reads_publisher hw (Option.isSome_iff_ne_none.mpr hsome)).1

/-- No cell of the summary is written twice, if no pair is there twice. -/
theorem once (hentries : (entries.map Prod.fst).Nodup) {w : SummaryWrite} (hw : w ∈ writes) :
    WrittenOnce SummaryWrite.cell writes w := by
  rcases h.lays.kind_cases reads_pair reads_publisher reads_subscriber hw with
    ⟨hpair, hplace⟩ | ⟨hsubscriber, -⟩ | ⟨hpublisher, -⟩ | hother
  · refine reads_pair.writtenOnce ?_ hw fun w' hw' hcell => ?_
    · rw [h.lays.values, List.map_map]
      refine List.Nodup.map_on ?_ (List.Nodup.of_map _ hentries)
      intro a ha b hb heq
      obtain ⟨hpublisher, hsubscriber⟩ := (FirstSeen.cell_eq_iff ha hb).mp heq
      exact List.inj_on_of_nodup_map hentries ha hb (Prod.ext hpublisher hsubscriber)
    · rw [← hcell] at hplace
      rcases h.lays.kind_cases reads_pair reads_publisher reads_subscriber hw' with
        hpair' | hsubscriber' | hpublisher' | habove | hcorner
      · exact hpair'.1
      · omega
      · omega
      · omega
      · rw [hcorner] at hplace
        exact absurd hplace.1 (lt_irrefl _)
  · exact h.lays.columnTitle_once reads_pair reads_publisher reads_subscriber hw hsubscriber
  · exact h.lays.rowTitle_once reads_pair reads_publisher reads_subscriber hw hpublisher
  · refine reads_above.writtenOnce h.above hw fun w' hw' hcell => h.above_of_cell hw' ?_
    show w'.cell.1 < subscriberRow ∨ w'.cell = (subscriberRow, 1)
    rw [hcell]
    exact hother

end IsMatrix

/-- The text of the last result of a product and a test. -/
def lastText (value : List TestCaseAggregatedData) (element : TestCaseAggregatedData) :
    Option Text :=
  (lastLike TestCaseAggregatedData.testName TestCaseAggregatedData.product value element).map
    fun last => strResult last.status

/-- **Cells carry their own labels.**  The last result of a product and a test is under that
product and beside that test, the value of a pair under its subscriber and beside its publisher,
and no title is written over, nor anything in the summary.  So are the texts that are shown:
the names, and the words for a status or the three numbers. -/
theorem cells_labelled {data : JunitData} {writes : List SummaryWrite}
    (h : addDataSummaryWorksheet py startingRow 1 data = .ok writes)
    (tableRow tableColumn : Nat) (value : List TestCaseAggregatedData) :
    (Labelled (shown (addProductTable tableRow tableColumn value true).writes) tableRow
        tableColumn Content.test Content.product TestCaseAggregatedData.testName
        TestCaseAggregatedData.product
        (fun element => (lastLike TestCaseAggregatedData.testName TestCaseAggregatedData.product
          value element).map Content.result) value ∧
      ∀ w ∈ (addProductTable tableRow tableColumn value true).writes, w.result? = none →
        WrittenOnce Write.cell (addProductTable tableRow tableColumn value true).writes w) ∧
    (∃ subscriberRow, Labelled (shownSummary writes) subscriberRow 1 SummaryContent.publisher
        SummaryContent.subscriber (fun entry => entry.1.1) (fun entry => entry.1.2)
        (fun entry => some (SummaryContent.pair entry.1 entry.2)) data.productSummaryDict.items) ∧
    (∀ w ∈ writes, WrittenOnce SummaryWrite.cell writes w) ∧
    Labelled (fun c => (shown (addProductTable tableRow tableColumn value true).writes c).map
        Content.text) tableRow tableColumn id id TestCaseAggregatedData.testName
        TestCaseAggregatedData.product (lastText value) value ∧
      ∃ subscriberRow, Labelled (fun c => (shownSummary writes c).map SummaryContent.text)
        subscriberRow 1 id id (fun entry => entry.1.1) (fun entry => entry.1.2)
        (fun entry => some entry.2.text) data.productSummaryDict.items := by
  obtain ⟨subscriberRow, hmatrix⟩ := exists_isMatrix h
  have htable : Labelled (shown (addProductTable tableRow tableColumn value true).writes) tableRow
      tableColumn Content.test Content.product TestCaseAggregatedData.testName
      TestCaseAggregatedData.product
      (fun element => (lastLike TestCaseAggregatedData.testName TestCaseAggregatedData.product
        value element).map Content.result) value :=
    (lays_addProductTable _ _ value).labelled reads_result reads_test reads_product
  have hsummary : Labelled (shownSummary writes) subscriberRow 1 SummaryContent.publisher
      SummaryContent.subscriber (fun entry => entry.1.1) (fun entry => entry.1.2)
      (fun entry => some (SummaryContent.pair entry.1 entry.2)) data.productSummaryDict.items := by
    obtain ⟨rowOf, columnOf, hrows, hcolumns, hshown⟩ :=
      hmatrix.lays.labelled reads_pair reads_publisher reads_subscriber
    refine ⟨rowOf, columnOf, hrows, hcolumns, fun entry hentry => ?_⟩
    obtain ⟨hsubscriber, hpublisher, hpair⟩ := hshown entry hentry
    refine ⟨hsubscriber, hpublisher, hpair.trans ?_⟩
    show (lastLike (fun entry => entry.1.1) (fun entry => entry.1.2)
      data.productSummaryDict.items entry).map _ = _
    -- a pair is in the dict once
    rw [lastLike_eq_self hentry fun entry' hentry' hpublisher' hsubscriber' =>
      List.inj_on_of_nodup_map data.productSummaryDict.nodup hentry' hentry
        (Prod.ext hpublisher' hsubscriber')]
    rfl
  refine ⟨⟨htable, ?_⟩, ⟨subscriberRow, hsummary⟩, ?_, ?_, subscriberRow, ?_⟩
  · exact fun w hw htitle => title_once_addProductTable hw htitle
  · exact fun w hw => hmatrix.once data.productSummaryDict.nodup hw
  · have htexts := htable.map Content.text
    simp only [Option.map_map] at htexts
    exact htexts
  · exact hsummary.map SummaryContent.text

/-- The results of OpenDDS 3.2 as publisher, two on one cell. -/
def twoBuildsResults : List TestCaseAggregatedData :=
  [⟨"HDDS".toList, "Test_Color_0".toList, .passed⟩, ⟨"HDDS".toList, "Test_Color_0".toList, .failed⟩]

theorem cells_labelled_twoBuilds : ∃ writes,
    addDataSummaryWorksheet .ascii 13 1 (JunitData.empty.record .ascii twoBuilds) = .ok writes ∧
      (∃ subscriberRow, Labelled (shownSummary writes) subscriberRow 1 SummaryContent.publisher
        SummaryContent.subscriber (fun entry => entry.1.1) (fun entry => entry.1.2)
        (fun entry => some (SummaryContent.pair entry.1 entry.2))
        (JunitData.empty.record .ascii twoBuilds).productSummaryDict.items) ∧
      Labelled (fun c => (shown (addProductTable 2 1 twoBuildsResults true).writes c).map
        Content.text) 2 1 id id TestCaseAggregatedData.testName TestCaseAggregatedData.product
        (fun _ => some "ERROR".toList) twoBuildsResults := by
  obtain ⟨-, writes, -, hwrites, -⟩ := exists_workbook_twoBuilds
  obtain ⟨-, hmatrix, -, htexts, -⟩ := cells_labelled hwrites 2 1 twoBuildsResults
  refine ⟨writes, hwrites, hmatrix, ?_⟩
  obtain ⟨rowOf, columnOf, hrows, hcolumns, hshown⟩ := htexts
  refine ⟨rowOf, columnOf, hrows, hcolumns, fun element helement => ?_⟩
  obtain ⟨hcolumn, hrow, hvalue⟩ := hshown element helement
  refine ⟨hcolumn, hrow, hvalue.trans ?_⟩
  have hall : ∀ e ∈ twoBuildsResults, lastText twoBuildsResults e = some "ERROR".toList := by
    decide
  exact hall element helement

end DdsRtps.Xlsx
