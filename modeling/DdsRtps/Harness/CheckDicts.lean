/-
# `DdsRtps.Harness.CheckDicts` — loops over the dicts of coherent sets

`_coherent_sets_w_instances` reads and sets `topics[topic][color]` in loops over
the keys, with a `break` in the inner one, and asks for the first key of the
first topic.  Its model says what comes of that.  Of a loop over the keys, what
is behind the one at hand is untouched, and its value is there (`setItem_split`).
-/
import DdsRtps.Harness.CheckRefinement

namespace DdsRtps.Harness.Raising

open Regex
open RaisingLoop (Agree Refines)

/-! ## The loops -/

theorem clearColors_items {colors : Colors} {before after : List (List Char × Option Nat)}
    (h : colors.items = before ++ after) :
    (clearColors (after.map Prod.fst) colors).items =
      before ++ after.map fun (color, _) => (color, none) := by
  induction after generalizing before colors with
  | nil => exact h
  | cons item after ih =>
      have hset := (PyDict.setItem_split h none).2
      rw [← List.singleton_append, ← List.append_assoc] at hset
      rw [List.map_cons, clearColors, ih hset, List.append_assoc]
      rfl

theorem clearColors_eq (colors : Colors) :
    clearColors colors.keys colors = colors.mapValues fun _ => none :=
  PyDict.eq_of_items_eq (clearColors_items (List.nil_append _).symm)

theorem clearTopics_items {topics : Topics} {before after : List (List Char × Colors)}
    (h : topics.items = before ++ after) :
    ∃ topics', clearTopics (after.map Prod.fst) topics = .ok topics' ∧
      topics'.items =
        before ++ after.map fun (topic, colors) => (topic, colors.mapValues fun _ => none) := by
  induction after generalizing before topics with
  | nil => exact ⟨topics, rfl, h⟩
  | cons item after ih =>
      obtain ⟨topic, colors⟩ := item
      obtain ⟨hitem, hset⟩ := PyDict.setItem_split h (colors.mapValues fun _ => none)
      rw [← List.singleton_append, ← List.append_assoc] at hset
      obtain ⟨topics', hclear, hitems⟩ := ih hset
      refine ⟨topics', ?_, ?_⟩
      · rw [List.map_cons, clearTopics, hitem, PyError.ok_bind, clearColors_eq]
        exact hclear
      · rw [hitems, List.append_assoc]
        rfl

theorem clearTopics_eq (st : CheckState) :
    clearTopics st.topics.keys st.topics = .ok st.resetCounts.topics := by
  obtain ⟨topics', hclear, hitems⟩ := clearTopics_items (List.nil_append st.topics.items).symm
  refine hclear.trans (congrArg _ ?_)
  exact PyDict.eq_of_items_eq hitems

/-- A count that is no number of whole sets. -/
def incomplete (count : Option Nat) : Bool :=
  match count with
  | none => false
  | some n => n % 3 != 0

/-- A topic that has one. -/
def incompleteTopic (colors : Colors) : Bool := colors.items.any fun item => incomplete item.2

theorem any_eq_incomplete (count : Option Nat) :
    (count.any fun n => n % 3 ≠ 0) = incomplete count := by
  cases count with
  | none => rfl
  | some n => simp [incomplete, bne, Bool.beq_eq_decide_eq]

theorem judgeColors_items {colors : Colors} {before after : List (List Char × Option Nat)}
    (h : colors.items = before ++ after) (code : ReturnCode) :
    ∃ colors', judgeColors (after.map Prod.fst) colors code =
        .ok (colors', if after.any fun item => incomplete item.2 then .dataNotCorrect else code) ∧
      ((after.any fun item => incomplete item.2) = false →
        colors'.items = before ++ after.map fun (color, _) => (color, none)) := by
  induction after generalizing before colors with
  | nil => exact ⟨colors, rfl, fun _ => h⟩
  | cons item after ih =>
      obtain ⟨color, count⟩ := item
      obtain ⟨hitem, hset⟩ := PyDict.setItem_split h none
      rw [List.map_cons, judgeColors, hitem, PyError.ok_bind, any_eq_incomplete, List.any_cons]
      cases hcount : incomplete count with
      | true => exact ⟨colors, rfl, fun hall => by cases hall⟩
      | false =>
          rw [← List.singleton_append, ← List.append_assoc] at hset
          obtain ⟨colors', hjudge, hitems⟩ := ih hset
          refine ⟨colors', hjudge, fun hall => ?_⟩
          rw [hitems hall, List.append_assoc]
          rfl

theorem judgeColors_eq (colors : Colors) (code : ReturnCode) :
    ∃ colors', judgeColors colors.keys colors code =
        .ok (colors', if incompleteTopic colors then .dataNotCorrect else code) ∧
      (incompleteTopic colors = false → colors' = colors.mapValues fun _ => none) := by
  obtain ⟨colors', hjudge, hitems⟩ := judgeColors_items (List.nil_append colors.items).symm code
  exact ⟨colors', hjudge, fun hall => PyDict.eq_of_items_eq (hitems hall)⟩

theorem judgeTopics_items {topics : Topics} {before after : List (List Char × Colors)}
    (h : topics.items = before ++ after) (code : ReturnCode) :
    ∃ topics', judgeTopics (after.map Prod.fst) topics code =
        .ok (topics',
          if after.any fun item => incompleteTopic item.2 then .dataNotCorrect else code) ∧
      ((after.any fun item => incompleteTopic item.2) = false → topics'.items =
        before ++ after.map fun (topic, colors) => (topic, colors.mapValues fun _ => none)) := by
  induction after generalizing before topics code with
  | nil => exact ⟨topics, rfl, fun _ => h⟩
  | cons item after ih =>
      obtain ⟨topic, colors⟩ := item
      obtain ⟨colors', hjudge, hcolors⟩ := judgeColors_eq colors code
      obtain ⟨hitem, hset⟩ := PyDict.setItem_split h colors'
      rw [← List.singleton_append, ← List.append_assoc] at hset
      obtain ⟨topics', hrest, hitems⟩ := ih hset
        (if incompleteTopic colors then .dataNotCorrect else code)
      rw [List.any_cons]
      refine ⟨topics', ?_, fun hall => ?_⟩
      · rw [List.map_cons, judgeTopics, hitem, PyError.ok_bind, hjudge, PyError.ok_bind]
        refine hrest.trans ?_
        cases incompleteTopic colors with
        | true => simp
        | false => rfl
      · rw [Bool.or_eq_false_iff] at hall
        rw [hitems hall.2, List.append_assoc, hcolors hall.1]
        rfl

/-- The topics are judged as the model judges them. -/
theorem judgeTopics_eq (st : CheckState) :
    ∃ topics', judgeTopics st.topics.keys st.topics .ok =
        .ok (topics', if st.hasIncompleteSet then .dataNotCorrect else .ok) ∧
      (st.hasIncompleteSet = false → topics' = st.resetCounts.topics) := by
  obtain ⟨topics', hjudge, hitems⟩ :=
    judgeTopics_items (List.nil_append st.topics.items).symm .ok
  exact ⟨topics', hjudge, fun hall => PyDict.eq_of_items_eq (hitems hall)⟩

theorem printTopics_eq (topics : Topics) (names : List (List Char))
    (h : ∀ topic ∈ names, topic ∈ topics.keys) : printTopics topics names = .ok () := by
  induction names with
  | nil => rfl
  | cons topic names ih =>
      rw [List.forall_mem_cons] at h
      obtain ⟨colors, hget⟩ := PyDict.mem_keys_iff.mp h.1
      rw [printTopics, PyDict.item_eq_ok hget, PyError.ok_bind]
      exact ih h.2

theorem leaveWith_eq {α : Type} (st : CheckState) (code : ReturnCode) :
    (leaveWith st code : Except PyError (α ⊕ ReturnCode)) = .ok (.inr code) := by
  rw [leaveWith, printTopics_eq _ _ fun _ h => h]
  rfl

/-! ## A text -/

theorem increaseCount_eq {colors : Colors} {color : List Char} {count : Option Nat}
    (h : colors.get? color = some count) :
    increaseCount colors color =
      .ok (colors.modify color fun count => some (count.getD 1 + 1)) := by
  rw [increaseCount, PyDict.item_eq_ok h, PyError.ok_bind, PyDict.modify_eq_of_get? h]
  cases count with
  | some n =>
      simp only [Option.isNone_some, Bool.false_eq_true, if_false, PyDict.item_eq_ok h,
        PyError.ok_bind, PyError.pure_eq, PyDict.setItem_eq_modify h, Option.getD_some]
  | none =>
      have hone : (colors.modify color fun _ => some 1).get? color = some (some 1) := by
        rw [PyDict.get?_modify, h, Option.map_some, if_pos rfl]
      simp only [Option.isNone_none, if_true, PyDict.setItem_eq_modify h, PyDict.item_eq_ok hone,
        PyError.ok_bind, PyError.pure_eq, PyDict.setItem_eq_modify hone, PyDict.modify_modify,
        Option.getD_none]

/-- A sample raises nothing: its topic and its color are in the dicts by then. -/
theorem readSample_eq (topic color : List Char) (st : CheckState) :
    readSample topic color st = .ok (st.readSample (topic, color)) := by
  obtain ⟨colors, hget⟩ : ∃ colors,
      (st.topics.setDefault topic .empty).get? topic = some colors :=
    ⟨_, by rw [PyDict.get?_setDefault, if_pos rfl]⟩
  obtain ⟨count, hcount⟩ : ∃ count, (colors.setDefault color none).get? color = some count :=
    ⟨_, by rw [PyDict.get?_setDefault, if_pos rfl]⟩
  have hmem : color ∈ (colors.setDefault color none).keys := PyDict.mem_keys_iff.mpr ⟨count, hcount⟩
  rw [readSample, CheckState.readSample]
  simp only [PyDict.item_eq_ok hget, PyError.ok_bind, hmem, if_true]
  by_cases hprevious : st.previousSampleColor = some color
  · simp only [hprevious, if_true, increaseCount_eq hcount, PyError.ok_bind, PyError.pure_eq,
      PyDict.setItem_eq_modify hget, PyDict.modify_modify,
      PyDict.modify_eq_of_get? hget fun colors => _]
  · simp only [hprevious, if_false, PyError.ok_bind, PyError.pure_eq,
      PyDict.setItem_eq_modify hget]
    rw [PyDict.modify_eq_of_get? hget fun colors => colors.setDefault color none]

theorem readCoherentSets_eq (expectedTotal : Nat) (st : CheckState) :
    readCoherentSets expectedTotal st =
      .ok (match st.readCoherentSets expectedTotal with
        | some st => .inl st
        | none => .inr .dataNotCorrect) := by
  obtain ⟨topics, hjudge, htopics⟩ := judgeTopics_eq st
  rw [readCoherentSets, CheckState.readCoherentSets]
  split
  · rw [clearTopics_eq, PyError.ok_bind]
    rfl
  · split
    · split
      · rw [leaveWith_eq]
      · rw [hjudge, PyError.ok_bind]
        cases hall : st.hasIncompleteSet with
        | true => simp [leaveWith_eq]
        | false =>
            rw [htopics hall]
            rfl
    · rfl

/-! ## A match -/

/-- The states in which `_coherent_sets_w_instances` and its model wait: what was read is in
the dicts. -/
structure WaitsCoherent (wait wait' : CoherentWaiting) : Prop where
  same : wait = wait'
  known : ∀ i, wait'.current = some i →
    ∃ colors, wait'.state.topics.get? i.1 = some colors ∧ i.2 ∈ colors.keys

theorem known_readSample (i : Instance) (st : CheckState) :
    ∃ colors, (st.readSample i).topics.get? i.1 = some colors ∧ i.2 ∈ colors.keys := by
  obtain ⟨colors, hget⟩ : ∃ colors, (st.topics.setDefault i.1 .empty).get? i.1 = some colors :=
    ⟨_, by rw [PyDict.get?_setDefault, if_pos rfl]⟩
  have hmem : i.2 ∈ (colors.setDefault i.2 none).keys := PyDict.mem_keys_setDefault colors i.2 none
  rw [CheckState.readSample]
  dsimp only
  split
  · refine ⟨_, by rw [PyDict.get?_modify, PyDict.get?_modify, hget]; rfl, ?_⟩
    simpa only [if_true, PyDict.keys_modify] using hmem
  · refine ⟨_, by rw [PyDict.get?_modify, hget]; rfl, ?_⟩
    simpa only [if_true] using hmem

theorem item_keys_zero {α β : Type} [DecidableEq α] {d : PyDict α β} {key : α}
    (h : d.firstKey = some key) : PyList.item d.keys 0 = .ok key := by
  refine PyList.item_eq_ok ?_
  rw [← List.head?_eq_getElem?, PyDict.keys, List.head?_map]
  exact h

theorem exists_firstKey {α β : Type} [DecidableEq α] {d : PyDict α β} {key : α}
    (h : key ∈ d.keys) : ∃ first, d.firstKey = some first := by
  rw [PyDict.firstKey, ← List.head?_map]
  exact ⟨_, List.head?_eq_some_head (List.ne_nil_of_mem h)⟩

/-- Neither `list(topics.keys())[0]` nor that of the topic raises. -/
theorem isFirst_eq {wait : CoherentWaiting} (h : WaitsCoherent wait wait) :
    isFirst wait.state wait.current = .ok (wait.state.isFirstInstance wait.current) := by
  obtain ⟨st, current⟩ := wait
  cases current with
  | none => rfl
  | some i =>
      obtain ⟨topic, color⟩ := i
      obtain ⟨colors, hget, hcolor⟩ := h.known (topic, color) rfl
      obtain ⟨first, hfirst⟩ := exists_firstKey (PyDict.mem_keys_iff.mpr ⟨colors, hget⟩)
      obtain ⟨firstColor, hfirstColor⟩ := exists_firstKey hcolor
      rw [isFirst, CheckState.isFirstInstance]
      simp only [item_keys_zero hfirst, hfirst, PyError.ok_bind, Option.some.injEq]
      by_cases htopic : topic = first
      · simp only [htopic, if_true]
        rw [← htopic, PyDict.item_eq_ok hget, PyError.ok_bind, item_keys_zero hfirstColor,
          PyError.ok_bind]
        simp [hget, hfirstColor, PyError.pure_eq, eq_comm]
      · simp [htopic, Ne.symm htopic, PyError.pure_eq]

theorem coherentSets_tail (py : PyUnicode) (expectedTotal : Nat) {wait : CoherentWaiting}
    (h : WaitsCoherent wait wait) (w : Window Char) :
    (coherentSets py expectedTotal).tail (.input w) wait =
      .ok (match wait.state.expect wait.current w.index with
        | .ok st => .inl st
        | .error code => .inr code) := by
  have hcount : countCoherent w.index wait = .ok
      (if w.index = 0 then
        { wait.state with
          samplesReadPerInstance :=
            if wait.state.isFirstInstance wait.current then wait.state.samplesReadPerInstance + 1
            else wait.state.samplesReadPerInstance
          coherentSetSampleCount := wait.state.coherentSetSampleCount + 1 }
      else { wait.state with coherentSetsCount := wait.state.coherentSetsCount + 1 }) := by
    rw [countCoherent, isFirst_eq h]
    by_cases hindex : w.index = 0
    · simp [hindex, PyError.ok_bind, PyError.pure_eq]
    · simp [hindex, PyError.pure_eq]
  -- the condition behind the count is the same in both, whatever was counted
  have hexit : ∀ st : CheckState,
      (if maxSamplesRead < st.coherentSetsCount then
        leaveWith st
          (if st.samplesReadPerInstance < maxSamplesRead then .dataNotReceived
          else st.producedCode)
      else .ok (.inl st) : Except PyError (CheckState ⊕ ReturnCode)) =
      .ok (match (if 500 < st.coherentSetsCount then
          .error (if st.samplesReadPerInstance < 500 then .dataNotReceived else st.producedCode)
        else .ok st : Except ReturnCode CheckState) with
        | .ok st => .inl st
        | .error code => .inr code) := by
    intro st
    rw [leaveWith_eq, maxSamplesRead]
    by_cases hmany : 500 < st.coherentSetsCount
    · rw [if_pos hmany, if_pos hmany]
    · rw [if_neg hmany, if_neg hmany]
  simp only [coherentSets, hcount, PyError.ok_bind, PyError.pure_eq, CheckState.expect]
  exact hexit _

theorem coherentSets_head (py : PyUnicode) (expectedTotal : Nat) (w : Window Char)
    (st : CheckState) :
    Agree WaitsCoherent Except.ok ((coherentSets py expectedTotal).head (.input w) st)
      (if st.samplesReadPerInstance < 100 then
        match st.readText py expectedTotal w.text with
        | none => .inr .dataNotCorrect
        | some st => .inl ⟨st, topicAndColor py w.text⟩
      else .inr st.producedCode) := by
  by_cases hlimit : st.samplesReadPerInstance < 100
  · simp only [coherentSets, if_pos hlimit, beforeAndAfter_input, PyError.ok_bind,
      CheckState.readText]
    rcases topicSample_cases py w.text with ⟨hnone, hread⟩ | ⟨m, topic, color, hm, ht, hc, hread⟩
    · simp only [hnone, hread, Option.isSome_none, Bool.false_eq_true, if_false]
      cases search (lit "Reading coherent sets".toList) w.text with
      | none => exact .waits ⟨rfl, forall_none⟩
      | some m =>
          simp only [Option.isSome_some, if_true, readCoherentSets_eq, PyError.ok_bind]
          cases st.readCoherentSets expectedTotal with
          | none => exact agree_code _
          | some st => exact .waits ⟨rfl, forall_none⟩
    · simp only [hm, hread, Option.isSome_some, if_true, ht, hc, readSample_eq, PyError.ok_bind,
        PyError.pure_eq]
      refine .waits ⟨rfl, fun i hi => ?_⟩
      obtain rfl : (topic, color) = i := Option.some.inj hi
      exact known_readSample (topic, color) st
  · simp only [coherentSets, if_neg hlimit, leaveWith_eq]
    exact agree_code _

theorem coherentSets_refines (py : PyUnicode) (expectedTotal : Nat) (first : Window Char) :
    Refines WaitsCoherent Except.ok ((coherentSets py expectedTotal).loop py first)
      (coherentSetsEvents py expectedTotal first.text) := by
  refine refines_of (fun hbasic => ?_) (fun hbasic => ?_) (fun w wait wait' hwaits => ?_)
    (fun wait wait' hwaits => ?_) (fun wait wait' hwaits => ?_)
  · rw [coherentSetsEvents, if_pos hbasic]
    exact agree_code _
  · rw [coherentSetsEvents, if_neg (not_not.mpr hbasic)]
    exact coherentSets_head py expectedTotal first .initial
  · obtain ⟨rfl, hknown⟩ := hwaits
    rw [coherentSets_tail py expectedTotal ⟨rfl, hknown⟩ w, PyError.ok_bind]
    show Agree _ _ _ (wait.onMatch py expectedTotal w)
    rw [CoherentWaiting.onMatch]
    cases wait.state.expect wait.current w.index with
    | error code => exact agree_code _
    | ok st => exact coherentSets_head py expectedTotal w st
  · obtain ⟨rfl, -⟩ := hwaits
    exact leaveWith_eq _ _
  · exact leaveWith_eq _ _

end DdsRtps.Harness.Raising
