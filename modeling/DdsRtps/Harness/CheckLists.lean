/-
# `DdsRtps.Harness.CheckLists` — lists side by side are a dict

The four checks that read samples instance by instance.  The source keeps
`instance_color` and other lists and looks up in all of them by the index of a
color; their models keep a dict from the color to what belongs to it.  The
lists are its keys and the columns of its values (`listed`), so that each index
is in all of them and none of the lookups raises.
-/
import DdsRtps.Harness.CheckRefinement
import DdsRtps.Harness.SampleVerdicts

namespace DdsRtps.Harness.Raising

open Regex
open RaisingLoop (Agree Refines)

/-! ## Keys and columns -/

/-- `sub_string` is a match with this color, or none. -/
def HoldsColor (subString : Option (Found Char)) (color : Option (List Char)) : Prop :=
  subString = none ∧ color = none ∨
    ∃ m c, subString = some m ∧ color = some c ∧ group (some m) 1 = .ok c

section Lists

variable {κ σ : Type}

/-- What is kept of each instance has become something else. -/
def mapJudgement (f : σ → κ) : Judgement σ → Judgement κ
  | .wrong => .wrong
  | .right s => .right (f s)
  | .expired s => .expired (f s)

/-- The variables of a check, from those of the model: the dict is two lists, its keys
and the columns of its values. -/
def listed (columns : List σ → κ) (st : SampleState σ) : ListState κ where
  instanceColor := st.instances.keys
  columns := columns st.instances.values
  samplesReadPerInstance := st.samplesReadPerInstance
  producedCode := st.producedCode
  lifespanExpirationObserved := st.lifespanExpirationObserved

/-- The lists of a check are the columns of what the model keeps of each instance. -/
structure Columns (lists : ListCheck κ) (check : SampleCheck σ) (columns : List σ → κ) : Prop where
  limit : lists.limit = check.limit
  empty : lists.empty = columns []
  append : ∀ {subString d size}, group subString 2 = .ok d → int d = .ok size →
    ∀ rows, lists.append subString (columns rows) = .ok (columns (rows ++ [check.new size]))
  judge : ∀ {subString d size}, group subString 2 = .ok d → int d = .ok size →
    ∀ {rows index row}, rows[index]? = some row →
      lists.judge subString index (columns rows) =
        .ok (mapJudgement (fun row' => columns (rows.set index row')) (check.judge row size))
  verdict : ∀ {st : ListState κ} {st' : SampleState σ},
    st.samplesReadPerInstance = st'.samplesReadPerInstance → st.producedCode = st'.producedCode →
    st.lifespanExpirationObserved = st'.lifespanExpirationObserved →
    lists.verdict st = check.verdict st'

/-- The states in which a check and its model wait. -/
structure WaitsListed (columns : List σ → κ) (wait : ListState κ × Option (Found Char))
    (wait' : Waiting σ) : Prop where
  state : wait.1 = listed columns wait'.state
  color : HoldsColor wait.2 wait'.color
  known : ∀ color, wait'.color = some color → color ∈ wait'.state.instances.keys

variable {lists : ListCheck κ} {check : SampleCheck σ} {columns : List σ → κ}

/-- The state with the instance of a sample. -/
def withInstance (check : SampleCheck σ) (color : List Char) (size : Nat) (st : SampleState σ) :
    SampleState σ :=
  { st with instances := st.instances.setDefault color (check.new size) }

theorem Columns.addInstance (h : Columns lists check columns) {subString : Option (Found Char)}
    {color d : List Char} {size : Nat} (hcolor : group subString 1 = .ok color)
    (hd : group subString 2 = .ok d) (hsize : int d = .ok size) (st : SampleState σ) :
    lists.addInstance subString (listed columns st) =
      .ok (listed columns (withInstance check color size st)) := by
  rw [ListCheck.addInstance, hcolor, PyError.ok_bind]
  by_cases hknown : color ∈ st.instances.keys
  · simp only [listed, withInstance, PyDict.keys_setDefault, PyDict.values_setDefault, hknown,
      if_true, PyError.pure_eq]
  · simp only [listed, withInstance, PyDict.keys_setDefault, PyDict.values_setDefault, hknown,
      if_false, h.append hd hsize, PyError.ok_bind, PyError.pure_eq]

theorem Columns.judgeSample (h : Columns lists check columns) {subString : Option (Found Char)}
    {color d : List Char} {size : Nat} (hcolor : group subString 1 = .ok color)
    (hd : group subString 2 = .ok d) (hsize : int d = .ok size) {st : SampleState σ} {row : σ}
    (hrow : st.instances.get? color = some row) :
    lists.judgeSample subString (listed columns st) =
      .ok (match check.judge row size with
        | .wrong =>
            .inr (lists.verdict { listed columns st with producedCode := .dataNotCorrect })
        | .right s =>
            .inl (listed columns { st with instances := st.instances.modify color fun _ => s })
        | .expired s =>
            .inl (listed columns { st with
              instances := st.instances.modify color fun _ => s
              producedCode := .ok
              lifespanExpirationObserved := true })) := by
  have hknown : color ∈ st.instances.keys := PyDict.mem_keys_iff.mpr ⟨row, hrow⟩
  have hindex := (PyDict.getElem?_values_idxOf st.instances color).trans hrow
  rw [ListCheck.judgeSample, hcolor, PyError.ok_bind]
  simp only [listed, hknown, if_true, PyList.index_eq_ok hknown, h.judge hd hsize hindex,
    PyError.ok_bind, PyError.pure_eq]
  cases check.judge row size with
  | wrong => rfl
  | right s => simp only [mapJudgement, PyDict.keys_modify, PyDict.values_modify]
  | expired s => simp only [mapJudgement, PyDict.keys_modify, PyDict.values_modify]

/-- What a sample leaves of the model, when its instance is there. -/
theorem readSample_of_row {color : List Char} {size : Nat} {st : SampleState σ} {row : σ}
    (hrow : (withInstance check color size st).instances.get? color = some row) :
    check.readSample color size st =
      match check.judge row size with
      | .wrong => none
      | .right s => some { withInstance check color size st with
          instances := (withInstance check color size st).instances.modify color fun _ => s }
      | .expired s => some { withInstance check color size st with
          instances := (withInstance check color size st).instances.modify color fun _ => s
          producedCode := .ok
          lifespanExpirationObserved := true } := by
  rw [withInstance] at hrow
  simp only [SampleCheck.readSample, hrow]
  rfl

theorem Columns.head (h : Columns lists check columns) (py : PyUnicode) (w : Window Char)
    (st : SampleState σ) :
    Agree (WaitsListed columns) Except.ok
      ((lists.function py).head (.input w) (listed columns st)) (check.turn py w.text st) := by
  rw [SampleCheck.turn, SampleCheck.readText]
  have hcount : (listed columns st).samplesReadPerInstance < lists.limit ↔
      st.samplesReadPerInstance < check.limit := by
    rw [h.limit]
    rfl
  by_cases hlimit : st.samplesReadPerInstance < check.limit
  · rw [if_pos hlimit]
    rcases instanceSample_cases py w.text with
      ⟨hnone, hread, -⟩ | ⟨m, color, d, size, hm, hcolor, hd, hsize, hread, -⟩
    · simp only [ListCheck.function, if_pos (hcount.mpr hlimit), beforeAndAfter_input, hnone, hread,
        PyError.ok_bind, PyError.pure_eq]
      exact .waits ⟨rfl, .inl ⟨rfl, rfl⟩, forall_none⟩
    · obtain ⟨row, hrow⟩ : ∃ row, (withInstance check color size st).instances.get? color =
          some row :=
        ⟨_, by rw [withInstance, PyDict.get?_setDefault, if_pos rfl]⟩
      have hholds : HoldsColor (some m) (some color) := .inr ⟨m, color, rfl, rfl, hcolor⟩
      have hknown : ∀ s, color ∈
          ((withInstance check color size st).instances.modify color fun _ => s).keys := by
        intro s
        rw [PyDict.keys_modify]
        exact PyDict.mem_keys_setDefault _ _ _
      simp only [ListCheck.function, if_pos (hcount.mpr hlimit), beforeAndAfter_input, hm, hread,
        PyError.ok_bind, Option.isSome_some, if_true, h.addInstance hcolor hd hsize,
        h.judgeSample hcolor hd hsize hrow, readSample_of_row hrow]
      cases check.judge row size with
      | wrong =>
          have hverdict : lists.verdict { listed columns (withInstance check color size st) with
              producedCode := .dataNotCorrect } =
                check.verdict { st with producedCode := .dataNotCorrect } :=
            h.verdict rfl rfl rfl
          show Agree _ _ (.ok (.inr (lists.verdict _))) (.inr (check.verdict _))
          rw [hverdict]
          exact agree_code _
      | right s =>
          refine .waits ⟨rfl, hholds, fun c hc => ?_⟩
          obtain rfl : color = c := Option.some.inj hc
          exact hknown s
      | expired s =>
          refine .waits ⟨rfl, hholds, fun c hc => ?_⟩
          obtain rfl : color = c := Option.some.inj hc
          exact hknown s
  · rw [if_neg hlimit]
    simp only [ListCheck.function, if_neg (mt hcount.mp hlimit), PyError.pure_eq]
    have hverdict : lists.verdict (listed columns st) = check.verdict st := h.verdict rfl rfl rfl
    rw [hverdict]
    exact agree_code _

/-- `instance_color[0]` is the first key: there is one, since `sub_string` is of an
instance that is known. -/
theorem tail_input (lists : ListCheck κ) (py : PyUnicode) {wait : ListState κ × Option (Found Char)}
    {wait' : Waiting σ} (hwaits : WaitsListed columns wait wait') (w : Window Char) :
    (lists.function py).tail (.input w) wait =
      .ok (.inl (listed columns (wait'.countSample w.index))) := by
  obtain ⟨st, subString⟩ := wait
  obtain ⟨st', color⟩ := wait'
  obtain ⟨rfl, hholds, hknown⟩ := hwaits
  simp only [ListCheck.function, Waiting.countSample]
  rcases hholds with ⟨rfl, rfl⟩ | ⟨m, c, rfl, rfl, hgroup⟩
  · simp [PyError.pure_eq]
  · have hfirst : PyList.item (listed columns st').instanceColor 0 =
        .ok (st'.instances.keys.head (List.ne_nil_of_mem (hknown c rfl))) := by
      refine PyList.item_eq_ok ?_
      rw [← List.head?_eq_getElem?]
      exact List.head?_eq_some_head _
    have hkey : st'.instances.firstKey =
        some (st'.instances.keys.head (List.ne_nil_of_mem (hknown c rfl))) := by
      rw [PyDict.firstKey, ← List.head?_map]
      exact List.head?_eq_some_head _
    simp only [hgroup, hfirst, hkey, Option.isSome_some, and_true, ne_eq, reduceCtorEq,
      not_false_eq_true, true_and, Option.some.injEq, PyError.ok_bind, PyError.pure_eq]
    by_cases hindex : w.index = 0
    · by_cases hsame : c = st'.instances.keys.head (List.ne_nil_of_mem (hknown c rfl))
      · simp [hindex, ← hsame, listed]
      · simp [hindex, hsame]
    · simp [hindex]

theorem Columns.refines (h : Columns lists check columns) (py : PyUnicode) (first : Window Char) :
    Refines (WaitsListed columns) Except.ok ((lists.function py).loop py first)
      (check.eventLoop py first.text) := by
  have hverdict : ∀ {wait : ListState κ × Option (Found Char)} {wait' : Waiting σ},
      WaitsListed columns wait wait' → lists.verdict wait.1 = check.verdict wait'.state := by
    intro wait wait' hwaits
    rw [hwaits.state]
    exact h.verdict rfl rfl rfl
  refine refines_of (fun hbasic => ?_) (fun hbasic => ?_) (fun w wait wait' hwaits => ?_)
    (fun wait wait' hwaits => ?_) (fun _ _ _ => rfl)
  · have hstart : (check.eventLoop py first.text).start = .inr (Harness.basicCheck py first.text) :=
      if_pos hbasic
    rw [hstart]
    exact agree_code _
  · have hstart : (check.eventLoop py first.text).start =
        check.turn py first.text (.initial σ) := by
      rw [SampleCheck.eventLoop, SampleCheck.after]
      simp only [hbasic, ne_eq, not_true_eq_false, if_false]
      cases check.turn py first.text (.initial σ) <;> rfl
    have henter : (lists.function py).enter (.input first) =
        .ok (.inl (listed columns (.initial σ))) := by
      simp only [ListCheck.function, h.empty]
      rfl
    rw [hstart, henter, PyError.ok_bind]
    exact h.head py first _
  · rw [tail_input lists py hwaits w, PyError.ok_bind]
    exact h.head py w _
  · show Except.ok (Sum.inr (lists.verdict wait.1)) = _
    rw [hverdict hwaits]
    rfl

end Lists

/-! ## The four checks -/

/-- `instance_seq_num` and `first_iteration`. -/
def seqNumColumns (rows : List SeqNum) : SeqNums where
  instanceSeqNum := rows.map SeqNum.seqNum
  firstIteration := rows.map SeqNum.firstIteration

theorem testOrder_columns : Columns testOrderWInstances testOrder seqNumColumns where
  limit := rfl
  empty := rfl
  append hd hsize rows := by
    simp [testOrderWInstances, hd, hsize, PyError.ok_bind, PyError.pure_eq, seqNumColumns,
      testOrder, seqNumCheck]
  judge {subString d size} hd hsize {rows index row} hrow := by
    have hseqNum := PyList.set_map_same SeqNum.seqNum hrow
    have hfirst := PyList.set_map_same SeqNum.firstIteration hrow
    simp only [testOrderWInstances, testOrder, seqNumCheck, seqNumColumns, PyList.item_map _ hrow,
      PyList.setItem_map _ hrow, hd, hsize, PyError.ok_bind, PyError.pure_eq, List.map_set,
      decide_eq_true_eq]
    cases hiteration : row.firstIteration with
    | true => simp [mapJudgement, hseqNum]
    | false =>
        rw [hiteration] at hfirst
        by_cases hnext : row.seqNum < size
        · simp [mapJudgement, hnext, hfirst]
        · simp [mapJudgement, hnext]
  verdict hcount hproduced _ := by
    simp only [testOrderWInstances, testOrder, seqNumCheck, hcount, hproduced]

theorem testReliabilityNoLosses_columns :
    Columns testReliabilityNoLossesWInstances testReliabilityNoLosses seqNumColumns where
  limit := rfl
  empty := rfl
  append hd hsize rows := by
    simp [testReliabilityNoLossesWInstances, hd, hsize, PyError.ok_bind, PyError.pure_eq,
      seqNumColumns, testReliabilityNoLosses, seqNumCheck]
  judge {subString d size} hd hsize {rows index row} hrow := by
    have hseqNum := PyList.set_map_same SeqNum.seqNum hrow
    have hfirst := PyList.set_map_same SeqNum.firstIteration hrow
    simp only [testReliabilityNoLossesWInstances, testReliabilityNoLosses, seqNumCheck,
      seqNumColumns, PyList.item_map _ hrow, PyList.setItem_map _ hrow,
      PyList.item_set_map _ hrow, hd, hsize, PyError.ok_bind, PyError.pure_eq, List.map_set,
      decide_eq_true_eq]
    cases hiteration : row.firstIteration with
    | true => simp [mapJudgement, hseqNum]
    | false =>
        rw [hiteration] at hfirst
        by_cases hnext : row.seqNum + 1 = size
        · simp [mapJudgement, hnext, hfirst]
        · simp [mapJudgement, hnext]
  verdict hcount hproduced _ := by
    simp only [testReliabilityNoLossesWInstances, testReliabilityNoLosses, seqNumCheck, hcount,
      hproduced]

/-- The lists of `test_reading_1_sample_every_10_samples_w_instances`. -/
def tenthSampleColumns (rows : List TenthSample) : TenthSamples where
  instanceSeqNum := rows.map TenthSample.seqNum
  firstIteration := rows.map TenthSample.firstIteration
  ignoreFirstSample := rows.map TenthSample.ignoreFirstSample
  missedSamples := rows.map TenthSample.missedSamples

theorem testReading1SampleEvery10Samples_columns :
    Columns testReading1SampleEvery10SamplesWInstances testReading1SampleEvery10Samples
      tenthSampleColumns where
  limit := rfl
  empty := rfl
  append hd hsize rows := by
    simp [testReading1SampleEvery10SamplesWInstances, hd, hsize, PyError.ok_bind, PyError.pure_eq,
      tenthSampleColumns, testReading1SampleEvery10Samples]
  judge {subString d size} hd hsize {rows index row} hrow := by
    have hseqNum := PyList.set_map_same TenthSample.seqNum hrow
    have hfirst := PyList.set_map_same TenthSample.firstIteration hrow
    have hignore := PyList.set_map_same TenthSample.ignoreFirstSample hrow
    have hmissed := PyList.set_map_same TenthSample.missedSamples hrow
    simp only [testReading1SampleEvery10SamplesWInstances, testReading1SampleEvery10Samples,
      tenthSampleColumns, PyList.item_map _ hrow, PyList.setItem_map _ hrow,
      PyList.item_set_map _ hrow, hd, hsize, PyError.ok_bind, PyError.pure_eq, List.map_set]
    cases hiteration : row.firstIteration with
    | true => simp [mapJudgement, hseqNum, hignore, hmissed]
    | false =>
        rw [hiteration] at hfirst
        cases hfirstSample : row.ignoreFirstSample with
        | true => simp [mapJudgement, hfirst, hmissed]
        | false =>
            rw [hfirstSample] at hignore
            by_cases hearly : (size : Int) - row.seqNum < 9
            · simp [mapJudgement, hearly]
            · by_cases hmany : 5 < row.missedSamples + missedInGap ((size : Int) - row.seqNum)
              · simp [mapJudgement, hearly, hmany]
              · simp [mapJudgement, hearly, hmany, hfirst, hignore]
  verdict hcount hproduced _ := by
    simp only [testReading1SampleEvery10SamplesWInstances, testReading1SampleEvery10Samples, hcount,
      hproduced]

/-- The lists of `test_lifespan_2_3_consecutive_samples_w_instances`. -/
def lifespanColumns (rows : List Lifespan) : Lifespans where
  previousSeqNum := rows.map Lifespan.previousSeqNum
  firstIteration := rows.map Lifespan.firstIteration
  consecutiveSamples := rows.map Lifespan.consecutiveSamples
  ignoreFirstSample := rows.map Lifespan.ignoreFirstSample

theorem testLifespan23ConsecutiveSamples_columns :
    Columns testLifespan23ConsecutiveSamplesWInstances testLifespan23ConsecutiveSamples
      lifespanColumns where
  limit := rfl
  empty := rfl
  append hd hsize rows := by
    simp [testLifespan23ConsecutiveSamplesWInstances, hd, hsize, PyError.ok_bind, PyError.pure_eq,
      lifespanColumns, testLifespan23ConsecutiveSamples]
  judge {subString d size} hd hsize {rows index row} hrow := by
    have hfirst := PyList.set_map_same Lifespan.firstIteration hrow
    have hconsecutive := PyList.set_map_same Lifespan.consecutiveSamples hrow
    have hignore := PyList.set_map_same Lifespan.ignoreFirstSample hrow
    simp only [testLifespan23ConsecutiveSamplesWInstances, Lifespans.judge,
      testLifespan23ConsecutiveSamples, lifespanColumns, PyList.item_map _ hrow,
      PyList.setItem_map _ hrow, hd, hsize, PyError.ok_bind, PyError.pure_eq, List.map_set]
    cases hiteration : row.firstIteration with
    | true => simp [mapJudgement, hconsecutive, hignore, PyError.ok_bind, PyList.setItem_map _ hrow]
    | false =>
        rw [hiteration] at hfirst
        by_cases hnext : row.previousSeqNum + 1 = size
        · simp [mapJudgement, hnext, hfirst, PyError.ok_bind, PyList.setItem_map _ hrow]
        · by_cases hcomplete : row.consecutiveSamples = 3 ∨ row.consecutiveSamples = 2
          · simp [mapJudgement, hnext, hcomplete, hfirst, hignore, PyError.ok_bind,
              PyList.setItem_map _ hrow]
          · cases hfirstSample : row.ignoreFirstSample with
            | true =>
                simp [mapJudgement, hnext, hcomplete, hfirst, hconsecutive,
                  PyError.ok_bind, PyList.setItem_map _ hrow]
            | false => simp [mapJudgement, hnext, hcomplete, PyError.ok_bind]
  verdict hcount hproduced hobserved := by
    simp only [testLifespan23ConsecutiveSamplesWInstances, testLifespan23ConsecutiveSamples, hcount,
      hproduced, hobserved]

end DdsRtps.Harness.Raising
