/-
# `DdsRtps.Xlsx.ClassAttributes` — two reports in one process

The four dicts of `JunitData` of src/generate_xlsx_report.py are attributes of
the class, and `__init__` makes no others: what an instance is asked for is found
at the class.  So every instance shows all reports that were read so far
(`dataOf_newAll`), and a report that is read after another has data of its own
only if there is nothing in either (`reports_independent_iff`).
-/
import DdsRtps.Lib.SameDict
import DdsRtps.Xlsx.ProductTable

namespace DdsRtps.Xlsx

open FirstSeen PyDict

/-! ## The class -/

/-- The class `JunitData`: its attributes, and the attributes of each instance. -/
structure JunitDataClass where
  attributes : JunitData
  instances : List (Option JunitData)

/-- The class as it is declared. -/
def JunitDataClass.declared : JunitDataClass := ⟨.empty, []⟩

/-- The dicts of an instance: its own, or those of the class. -/
def JunitDataClass.dataOf (c : JunitDataClass) (i : Nat) : JunitData :=
  ((c.instances[i]?).join).getD c.attributes

section Code

variable (py : PyUpper)

/-- `JunitData(input)`, with the number of the new instance: `get_info` changes the
dicts that it finds, and assigns none. -/
def JunitDataClass.new (c : JunitDataClass) (input : List Suite) :
    Except PyError (JunitDataClass × Nat) :=
  (getInfo py c.attributes input).map fun attributes =>
    (⟨attributes, c.instances ++ [none]⟩, c.instances.length)

/-- One report after the other. -/
def JunitDataClass.newAll (c : JunitDataClass) (inputs : List (List Suite)) :
    Except PyError JunitDataClass :=
  inputs.foldlM (fun c input => (c.new py input).map Prod.fst) c

end Code

/-- No instance has dicts of its own. -/
def JunitDataClass.Shared (c : JunitDataClass) : Prop := ∀ own ∈ c.instances, own = none

variable {py : PyUpper}

namespace JunitDataClass

theorem Shared.dataOf_eq {c : JunitDataClass} (h : c.Shared) (i : Nat) :
    c.dataOf i = c.attributes := by
  rw [dataOf]
  cases hget : c.instances[i]? with
  | none => rfl
  | some own =>
      rw [h own (List.mem_of_getElem? hget)]
      rfl

theorem shared_declared : declared.Shared := List.forall_mem_nil _

theorem new_eq_ok {c c' : JunitDataClass} {input : List Suite} {i : Nat} :
    c.new py input = .ok (c', i) ↔ (∀ suite ∈ input, suite.raises = none) ∧
      c' = ⟨c.attributes.record py input, c.instances ++ [none]⟩ ∧ i = c.instances.length := by
  rw [new]
  constructor
  · intro h
    cases hinfo : getInfo py c.attributes input with
    | error e =>
        rw [hinfo] at h
        cases h
    | ok attributes =>
        rw [hinfo] at h
        obtain ⟨hraises, rfl⟩ := getInfo_eq_ok.mp hinfo
        obtain ⟨rfl, rfl⟩ := Prod.mk.inj (Except.ok.inj h)
        exact ⟨hraises, rfl, rfl⟩
  · rintro ⟨hraises, rfl, rfl⟩
    rw [getInfo_eq_ok.mpr ⟨hraises, rfl⟩]
    rfl

/-- A new instance has no dicts of its own either. -/
theorem Shared.new {c c' : JunitDataClass} {input : List Suite} {i : Nat} (hshared : c.Shared)
    (h : c.new py input = .ok (c', i)) : c'.Shared := by
  obtain ⟨-, rfl, -⟩ := new_eq_ok.mp h
  intro own hown
  rcases List.mem_append.mp hown with hold | hnew
  · exact hshared own hold
  · exact List.mem_singleton.mp hnew

theorem newAll_eq_ok {c c' : JunitDataClass} {inputs : List (List Suite)} (hshared : c.Shared)
    (h : c.newAll py inputs = .ok c') :
    c'.Shared ∧ c'.attributes = c.attributes.record py inputs.flatten := by
  induction inputs generalizing c with
  | nil =>
      obtain rfl := Except.ok.inj h
      exact ⟨hshared, rfl⟩
  | cons input inputs ih =>
      rw [newAll, PyError.foldlM_cons] at h
      cases hnew : c.new py input with
      | error e =>
          rw [hnew] at h
          cases h
      | ok made =>
          obtain ⟨c₁, i⟩ := made
          rw [hnew] at h
          obtain ⟨hshared', hattributes⟩ := ih (hshared.new hnew) h
          obtain ⟨-, rfl, -⟩ := new_eq_ok.mp hnew
          refine ⟨hshared', hattributes.trans ?_⟩
          rw [List.flatten_cons, record_append]

/-- Every instance shows all reports. -/
theorem dataOf_newAll {c : JunitDataClass} {inputs : List (List Suite)}
    (h : declared.newAll py inputs = .ok c) (i : Nat) :
    c.dataOf i = JunitData.empty.record py inputs.flatten := by
  obtain ⟨hshared, hattributes⟩ := newAll_eq_ok shared_declared h
  rw [hshared.dataOf_eq, hattributes]
  rfl

end JunitDataClass

/-! ## What two reports have in common -/

section Updates

variable (py)

def Suite.pair (suite : Suite) : Text × Text := (suite.publisherName py, suite.subscriberName py)

end Updates

/-- The products of a pair, once each. -/
def productsOf (pair : Text × Text) : List Text :=
  pair.1 :: if pair.1 ≠ pair.2 then [pair.2] else []

theorem map_pairUpdate (report : List Suite) :
    (report.map (Suite.pairUpdate py)).map Prod.fst = report.map (Suite.pair py) :=
  List.map_map

theorem map_summaryUpdates (report : List Suite) :
    (report.flatMap (Suite.summaryUpdates py)).map Prod.fst =
      (report.map (Suite.pair py)).flatMap productsOf := by
  have hone : ∀ suite : Suite,
      (suite.summaryUpdates py).map Prod.fst = productsOf (suite.pair py) := by
    intro suite
    rw [Suite.summaryUpdates, productsOf, Suite.pair]
    split
    · rfl
    · rfl
  rw [List.map_flatMap, List.flatMap_map]
  exact List.flatMap_congr fun suite _ => hone suite

/-- A product of the pair gets the counts of the suite, once. -/
theorem sumTo_summaryUpdates_one (suite : Suite) (product : Text) :
    sumTo (suite.summaryUpdates py) product =
      if product ∈ productsOf (suite.pairUpdate py).1 then suite.counts py else 0 := by
  rw [Suite.summaryUpdates, productsOf, Suite.pairUpdate]
  generalize suite.publisherName py = publisher
  generalize suite.subscriberName py = subscriber
  generalize suite.counts py = counts
  have hone : ∀ name, sumTo [(name, counts)] product = if product = name then counts else 0 := by
    intro name
    split
    · rename_i hname
      simp [sumTo, addedTo, hname]
    · rename_i hname
      exact sumTo_eq_zero (by simpa using hname)
  by_cases hsame : publisher = subscriber
  · simp only [hsame, ne_eq, not_true_eq_false, if_false, List.mem_singleton, hone]
  · simp only [ne_eq, hsame, not_false_eq_true, if_true, List.mem_cons, List.not_mem_nil, or_false]
    rw [← List.singleton_append, sumTo_append, hone, hone]
    by_cases hproduct : product = publisher
    · rw [if_pos hproduct, if_neg (by rwa [hproduct]), if_pos (.inl hproduct), add_zero]
    · rw [if_neg hproduct, zero_add]
      simp [hproduct]

/-- The sum of a product is over the pairs that it is in. -/
theorem sumTo_summaryUpdates (report : List Suite) (product : Text) :
    sumTo (report.flatMap (Suite.summaryUpdates py)) product =
      (((report.map (Suite.pairUpdate py)).filter fun u =>
        decide (product ∈ productsOf u.1)).map Prod.snd).sum := by
  induction report with
  | nil => rfl
  | cons suite report ih =>
      rw [List.flatMap_cons, sumTo_append, ih, sumTo_summaryUpdates_one, List.map_cons]
      by_cases hin : product ∈ productsOf (suite.pairUpdate py).1
      · rw [List.filter_cons_of_pos (by simpa using hin), List.map_cons, List.sum_cons]
        exact congrArg (· + _) (if_pos hin)
      · rw [List.filter_cons_of_neg (by simpa using hin)]
        refine (congrArg (· + _) (if_neg hin)).trans (zero_add _)

/-- If the counts of every pair are zero, so are those of every product. -/
theorem sumTo_summaryUpdates_eq_zero {report : List Suite}
    (h : ∀ pair, sumTo (report.map (Suite.pairUpdate py)) pair = 0) (product : Text) :
    sumTo (report.flatMap (Suite.summaryUpdates py)) product = 0 := by
  rw [sumTo_summaryUpdates]
  refine sum_eq_zero_of_sumTo fun pair => ?_
  rw [sumTo_filter (fun pair => decide (product ∈ productsOf pair)), h pair]
  exact ite_self _

/-- Neither report has a case, both name the same pairs in the same order of first
appearance, and in each the counts of every pair sum up to zero. -/
structure WithoutResults (py : PyUpper) (a b : List Suite) : Prop where
  cases : ∀ suite ∈ a ++ b, suite.cases = []
  pairs : firsts (a.map (Suite.pair py)) = firsts (b.map (Suite.pair py))
  counts : ∀ pair, sumTo (a.map (Suite.pairUpdate py)) pair = 0 ∧
    sumTo (b.map (Suite.pairUpdate py)) pair = 0

/-! ## Independence -/

instance : IsLeftCancelAdd AggregatedData where
  add_left_cancel a b c h := by
    have hpassed := congrArg AggregatedData.passedTests h
    have htotal := congrArg AggregatedData.totalTests h
    have hunsupported := congrArg AggregatedData.unsupportedTests h
    exact AggregatedData.ext (Int.add_left_cancel hpassed) (Int.add_left_cancel htotal)
      (Int.add_left_cancel hunsupported)

instance : IsCancelAdd AggregatedData := AddCommMagma.IsLeftCancelAdd.toIsCancelAdd _

/-- When two reports fill the same four dicts. -/
theorem record_empty_eq_iff {a b : List Suite} :
    JunitData.empty.record py a = JunitData.empty.record py b ↔
      (firsts ((a.map (Suite.pair py)).flatMap productsOf) =
            firsts ((b.map (Suite.pair py)).flatMap productsOf) ∧
          ∀ product, sumTo (a.flatMap (Suite.summaryUpdates py)) product =
            sumTo (b.flatMap (Suite.summaryUpdates py)) product) ∧
        (firsts (a.map (Suite.pair py)) = firsts (b.map (Suite.pair py)) ∧
          ∀ pair, sumTo (a.map (Suite.pairUpdate py)) pair =
            sumTo (b.map (Suite.pairUpdate py)) pair) ∧
        JunitData.publisherProductDict (JunitData.empty.record py a) =
          JunitData.publisherProductDict (JunitData.empty.record py b) ∧
        JunitData.subscriberProductDict (JunitData.empty.record py a) =
          JunitData.subscriberProductDict (JunitData.empty.record py b) := by
  rw [← map_summaryUpdates, ← map_summaryUpdates, ← map_pairUpdate, ← map_pairUpdate,
    ← addToAll_eq_iff, ← addToAll_eq_iff]
  constructor
  · intro h
    exact ⟨congrArg JunitData.summaryDict h, congrArg JunitData.productSummaryDict h,
      congrArg JunitData.publisherProductDict h, congrArg JunitData.subscriberProductDict h⟩
  · rintro ⟨hsummary, hpair, hpublisher, hsubscriber⟩
    rw [JunitData.record, JunitData.record, JunitData.mk.injEq]
    exact ⟨hsummary, hpair, hpublisher, hsubscriber⟩

variable (py) in
theorem publisherUpdates_eq_nil_iff {report : List Suite} :
    report.flatMap (Suite.publisherUpdates py) = [] ↔ ∀ suite ∈ report, suite.cases = [] := by
  rw [List.flatMap_eq_nil_iff]
  exact forall₂_congr fun suite _ => List.map_eq_nil_iff

variable (py) in
theorem subscriberUpdates_eq_nil_iff {report : List Suite} :
    report.flatMap (Suite.subscriberUpdates py) = [] ↔ ∀ suite ∈ report, suite.cases = [] := by
  rw [List.flatMap_eq_nil_iff]
  exact forall₂_congr fun suite _ => List.map_eq_nil_iff

/-- A second report shows the same as alone, and leaves the first as it was, exactly
if there is nothing in either. -/
theorem record_append_eq_iff {a b : List Suite} :
    (JunitData.empty.record py (a ++ b) = JunitData.empty.record py b ∧
        JunitData.empty.record py (a ++ b) = JunitData.empty.record py a) ↔
      WithoutResults py a b := by
  rw [record_empty_eq_iff, record_empty_eq_iff]
  simp only [List.map_append, List.flatMap_append, sumTo_append]
  constructor
  · rintro ⟨⟨-, hpairb, hpublisherb, -⟩, -, hpaira, hpublishera, -⟩
    have hb := (pushAll_eq_iff.mp hpublisherb).2
    have ha := (pushAll_eq_iff.mp hpublishera).2
    simp only [List.flatMap_append, addedTo_append] at hb ha
    refine ⟨?_, hpaira.1.symm.trans hpairb.1, fun pair => ⟨?_, ?_⟩⟩
    · rw [List.forall_mem_append, ← publisherUpdates_eq_nil_iff py,
        ← publisherUpdates_eq_nil_iff py]
      exact ⟨eq_nil_of_addedTo fun key => List.append_left_eq_self.mp (hb key),
        eq_nil_of_addedTo fun key => List.append_right_eq_self.mp (ha key)⟩
    · exact add_eq_right.mp (hpairb.2 pair)
    · exact add_eq_left.mp (hpaira.2 pair)
  · rintro ⟨hcases, hpairs, hcounts⟩
    have hnilpublisher := (publisherUpdates_eq_nil_iff py).mpr hcases
    have hnilsubscriber := (subscriberUpdates_eq_nil_iff py).mpr hcases
    rw [List.flatMap_append, List.append_eq_nil_iff] at hnilpublisher hnilsubscriber
    have hfirsts : firsts (a.map (Suite.pair py) ++ b.map (Suite.pair py)) =
        firsts (a.map (Suite.pair py)) := by
      refine firsts_append_of_subset fun pair hpair => ?_
      rwa [← mem_firsts, hpairs, mem_firsts]
    have hproducts := firsts_flatMap_congr hfirsts productsOf
    have hcounta := sumTo_summaryUpdates_eq_zero fun pair => (hcounts pair).1
    have hcountb := sumTo_summaryUpdates_eq_zero fun pair => (hcounts pair).2
    rw [List.flatMap_append] at hproducts
    simp only [JunitData.record, List.flatMap_append, hnilpublisher, hnilsubscriber, hcounts,
      hcounta, hcountb, zero_add, implies_true, and_true, List.append_nil]
    exact ⟨⟨hproducts.trans (firsts_flatMap_congr hpairs _), hfirsts.trans hpairs⟩,
      hproducts, hfirsts⟩

namespace JunitDataClass

/-- **Reports are independent** exactly if they have no results: the data of a report
that is read second is that of the report alone, and the data of the first is what it was. -/
theorem reports_independent_iff {a b : List Suite} {ca cb : JunitDataClass} {ia ib : Nat}
    (ha : declared.new py a = .ok (ca, ia)) (hb : declared.new py b = .ok (cb, ib)) :
    ∃ c i, ca.new py b = .ok (c, i) ∧
      (c.dataOf i = cb.dataOf ib ∧ c.dataOf ia = ca.dataOf ia ↔ WithoutResults py a b) := by
  have hsa := shared_declared.new ha
  obtain ⟨-, hca, -⟩ := new_eq_ok.mp ha
  obtain ⟨hraises, hcb, -⟩ := new_eq_ok.mp hb
  have hc : ca.new py b = .ok (⟨ca.attributes.record py b, ca.instances ++ [none]⟩,
      ca.instances.length) := new_eq_ok.mpr ⟨hraises, rfl, rfl⟩
  refine ⟨_, _, hc, ?_⟩
  have hsc := hsa.new hc
  rw [hsc.dataOf_eq, hsc.dataOf_eq, hsa.dataOf_eq, (shared_declared.new hb).dataOf_eq, hca, hcb,
    ← record_append_eq_iff, record_append]
  rfl

/-- The class when one report was read. -/
def afterUnevenReport : JunitDataClass := ⟨JunitData.empty.record .ascii unevenReport, [none]⟩

theorem new_unevenReport : declared.new .ascii unevenReport = .ok (afterUnevenReport, 0) :=
  new_eq_ok.mpr ⟨(getInfo_eq_ok.mp getInfo_unevenReport).1, rfl, rfl⟩

theorem reports_independent_unevenReport :
    ∃ c i, afterUnevenReport.new .ascii unevenReport = .ok (c, i) ∧
      (c.dataOf i = afterUnevenReport.dataOf 0 ∧ c.dataOf 0 = afterUnevenReport.dataOf 0 ↔
        WithoutResults .ascii unevenReport unevenReport) :=
  reports_independent_iff new_unevenReport new_unevenReport

/-- The second report shows every test twice. -/
theorem not_reports_independent :
    ¬ ∀ (py : PyUpper) (a b : List Suite) (ca cb : JunitDataClass) (ia ib : Nat),
      declared.new py a = .ok (ca, ia) → declared.new py b = .ok (cb, ib) →
      ∃ c i, ca.new py b = .ok (c, i) ∧
        c.dataOf i = cb.dataOf ib ∧ c.dataOf ia = ca.dataOf ia := by
  intro h
  obtain ⟨c, i, hsecond, hdata, -⟩ :=
    h .ascii unevenReport unevenReport _ _ 0 0 new_unevenReport new_unevenReport
  obtain ⟨-, rfl, rfl⟩ := new_eq_ok.mp hsecond
  have htests := congrArg (fun data : JunitData =>
    (data.publisherProductDict.listAt "HDDS".toList).length) hdata
  revert htests
  decide +kernel

end JunitDataClass

end DdsRtps.Xlsx
