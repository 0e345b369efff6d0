/-
# `DdsRtps.Harness.CheckSafety` — no check function raises

Whatever a subscriber prints, the check functions of test_suite_functions.py that
read samples return a code (`checks_safe`).  Each of them refines its model, and
where that has an exception it is not raised: `instance_color[0]` is asked for
behind the first sample, which is in the list by then, because `basic_check` has
found it with a pattern that implies that of the instances; and
`sub_string.group(1)` without a question is for that sample as well.
-/
import DdsRtps.Harness.CheckDicts
import DdsRtps.Harness.CheckLists

namespace DdsRtps.Harness.Raising

open Regex
open RaisingLoop (Agree Refines)

/-! ## Final states -/

/-- The states in which the checks of final states and their model wait. -/
structure WaitsFinal (wait : FinalStates × Option (Found Char)) (wait' : FinalWaiting) : Prop where
  state : wait.1 = wait'.state
  color : HoldsColor wait.2 wait'.subString

theorem finalStates_head (py : PyUnicode) (state : String) (w : Window Char) (st : FinalStates) :
    Agree WaitsFinal id ((finalStates py state).head (.input w) st)
      (st.turn py state true w.text) := by
  rw [FinalStates.turn]
  by_cases hlimit : st.samplesReadPerInstance < maxSamplesRead
  · rw [if_pos hlimit]
    simp only [finalStates, if_pos hlimit, beforeAndAfter_input, PyError.ok_bind]
    rcases instanceSample_cases py w.text with
      ⟨hnone, -, hsampled⟩ | ⟨m, color, d, size, hm, hcolor, -, -, -, hsampled⟩
    · rcases instanceState_cases py state hsampled with
        ⟨hnone', hreported⟩ | ⟨m, color, hm, hcolor, hreported⟩
      · simp only [hnone, hnone', FinalStates.readText, hsampled, hreported, instanceOf,
          PyError.pure_eq]
        exact .waits ⟨rfl, .inl ⟨rfl, rfl⟩⟩
      · simp only [hnone, hm, FinalStates.readText, hsampled, hreported, instanceOf, hcolor,
          PyError.ok_bind, PyError.pure_eq, Option.isSome_none, Option.isSome_some, if_true]
        have hholds : HoldsColor (some m) (some color) := .inr ⟨m, color, rfl, rfl, hcolor⟩
        by_cases hknown : color ∈ st.finalInstanceColor
        · simp only [hknown, if_true, Bool.and_false, Bool.false_eq_true, if_false]
          exact .waits ⟨rfl, hholds⟩
        · by_cases heven :
              st.instanceColor.length = (st.finalInstanceColor ++ [color]).length
          · simp only [hknown, if_false, heven, if_true, decide_true, Bool.and_self]
            exact agree_ok _
          · simp only [hknown, if_false, heven, decide_false, Bool.and_false, Bool.false_eq_true]
            exact .waits ⟨rfl, hholds⟩
    · simp only [hm, FinalStates.readText, hsampled, instanceOf, hcolor, PyError.ok_bind,
        PyError.pure_eq, Option.isSome_some, if_true]
      exact .waits ⟨rfl, .inr ⟨m, color, rfl, rfl, hcolor⟩⟩
  · rw [if_neg hlimit]
    simp only [finalStates, if_neg hlimit, PyError.pure_eq]
    exact agree_ok _

/-- A match is counted, if there is an `instance_color[0]` to compare it with. -/
theorem finalStates_tail (py : PyUnicode) (state : String) (w : Window Char) (st : FinalStates)
    {subString : Option (Found Char)} {color : Option (List Char)}
    (h : HoldsColor subString color) :
    (∃ st' : FinalStates, (finalStates py state).tail (.input w) (st, subString) = .ok (.inl st') ∧
        FinalWaiting.onMatch py state true w ⟨st, color⟩ = st'.turn py state true w.text) ∨
      (finalStates py state).tail (.input w) (st, subString) = .error .indexError ∧
        FinalWaiting.onMatch py state true w ⟨st, color⟩ = .inr (.error .indexError) := by
  rw [FinalWaiting.onMatch]
  rcases h with ⟨rfl, rfl⟩ | ⟨m, c, rfl, rfl, hgroup⟩
  · refine .inl ⟨st, ?_, rfl⟩
    simp [finalStates, PyError.pure_eq]
  · by_cases hindex : w.index = 0
    · obtain ⟨instanceColor, finalInstanceColor, samplesRead⟩ := st
      simp only [hindex, if_true]
      cases instanceColor with
      | nil =>
          refine .inr ⟨?_, rfl⟩
          simp [finalStates, hindex, hgroup, PyList.item, PyError.ok_bind, PyError.error_bind]
      | cons first rest =>
          refine .inl ⟨⟨first :: rest, finalInstanceColor,
            if c = first then samplesRead + 1 else samplesRead⟩, ?_, rfl⟩
          simp only [finalStates, hindex, hgroup, PyList.item, PyError.ok_bind,
            PyError.pure_eq, Option.isSome_some, and_self, if_true, List.getElem?_cons_zero]
          split <;> rfl
    · simp only [hindex, if_false]
      refine .inl ⟨st, ?_, rfl⟩
      simp [finalStates, hindex, PyError.pure_eq]

theorem finalStates_refines (py : PyUnicode) (state : String) (first : Window Char) :
    Refines WaitsFinal id ((finalStates py state).loop py first)
      (Harness.finalStates py state true first.text) := by
  refine refines_of (fun hbasic => ?_) (fun hbasic => ?_) (fun w wait wait' hwaits => ?_)
    (fun wait wait' hwaits => ?_) (fun _ _ _ => rfl)
  · rw [Harness.finalStates, if_pos hbasic]
    exact agree_ok _
  · rw [Harness.finalStates, if_neg (not_not.mpr hbasic)]
    exact finalStates_head py state first ⟨[], [], 0⟩
  · obtain ⟨st, subString⟩ := wait
    obtain ⟨st', color⟩ := wait'
    obtain ⟨rfl, hholds⟩ := hwaits
    show Agree _ _ _ (FinalWaiting.onMatch py state true w ⟨st, color⟩)
    rcases finalStates_tail py state w st hholds with
      ⟨st', htail, hmatch⟩ | ⟨htail, hmatch⟩
    · rw [htail, hmatch, PyError.ok_bind]
      exact finalStates_head py state w st'
    · rw [htail, hmatch]
      exact .leaves (Except.error PyError.indexError)
  · show Except.ok (Sum.inr wait.1.verdict) = _
    rw [hwaits.state]
    rfl

/-- There is an instance, once there is a sample. -/
theorem instanceColor_turn {py : PyUnicode} {state : String} {text : List Char} {st : FinalStates}
    {wait : FinalWaiting} (h : st.instanceColor ≠ [] ∨ (sampledColor py text).isSome = true)
    (hturn : st.turn py state true text = .inl wait) : wait.state.instanceColor ≠ [] := by
  have hread : (st.readText py state text).1.instanceColor ≠ [] := by
    rw [FinalStates.readText]
    cases hsampled : sampledColor py text with
    | some color =>
        simp only [addColor]
        split
        · rename_i hmem
          exact List.ne_nil_of_mem hmem
        · simp
    | none =>
        have hcolors := h.resolve_right (by simp [hsampled])
        cases reportedColor py state text with
        | none => exact hcolors
        | some color =>
            simp only
            split
            · exact hcolors
            · exact hcolors
  rw [FinalStates.turn] at hturn
  split at hturn
  · dsimp only at hturn
    split at hturn
    · cases hturn
    · rw [← Sum.inl.inj hturn]
      exact hread
  · cases hturn

/-- A turn raises nothing. -/
theorem turn_ok {py : PyUnicode} {state : String} {text : List Char} {st : FinalStates}
    {r : Except PyError ReturnCode} (h : st.turn py state true text = .inr r) :
    ∃ code, r = .ok code := by
  rw [FinalStates.turn] at h
  split at h
  · dsimp only at h
    split at h
    · exact ⟨_, (Sum.inr.inj h).symm⟩
    · cases h
  · exact ⟨_, (Sum.inr.inj h).symm⟩

/-- The `IndexError` of `instance_color[0]` is never raised. -/
theorem finalStates_ok {py : PyUnicode} {state : String} {text : List Char}
    {events : Nat → Arrival (Window Char)} {r : Except PyError ReturnCode}
    (h : (Harness.finalStates py state true text).Returns events r) : ∃ code, r = .ok code := by
  -- a match that comes while there is an instance is a turn
  have hmatch : ∀ {w : Window Char} {wait : FinalWaiting}, wait.state.instanceColor ≠ [] →
      ∃ st : FinalStates, st.instanceColor ≠ [] ∧
        wait.onMatch py state true w = st.turn py state true w.text := by
    rintro w ⟨⟨instanceColor, finalInstanceColor, samplesRead⟩, subString⟩ hcolors
    rw [FinalWaiting.onMatch]
    cases subString with
    | none => exact ⟨_, hcolors, rfl⟩
    | some color =>
        by_cases hindex : w.index = 0
        · obtain ⟨first, rest, rfl⟩ := List.exists_cons_of_ne_nil hcolors
          simp only [hindex, if_true]
          refine ⟨_, ?_, rfl⟩
          exact hcolors
        · simp only [hindex, if_false]
          exact ⟨_, hcolors, rfl⟩
  refine h.post (fun wait => wait.state.instanceColor ≠ []) (fun r => ∃ code, r = .ok code)
    (fun wait hstart => ?_) (fun r hstart => ?_) (fun w wait wait' hcolors hturn => ?_)
    (fun w wait r hcolors hturn => ?_) (fun wait _ => ⟨_, rfl⟩) (fun wait _ => ⟨_, rfl⟩)
  · rw [Harness.finalStates] at hstart
    by_cases hbasic : Harness.basicCheck py text = .ok
    · rw [if_neg (not_not.mpr hbasic)] at hstart
      dsimp only at hstart
      exact instanceColor_turn (.inr (Option.isSome_iff_exists.mpr (exists_sampledColor hbasic)))
        hstart
    · rw [if_pos hbasic] at hstart
      cases hstart
  · rw [Harness.finalStates] at hstart
    dsimp only at hstart
    split at hstart
    · exact ⟨_, (Sum.inr.inj hstart).symm⟩
    · exact turn_ok hstart
  · obtain ⟨st, hst, heq⟩ := hmatch (w := w) hcolors
    exact instanceColor_turn (.inl hst) (heq.symm.trans hturn)
  · obtain ⟨st, -, heq⟩ := hmatch (w := w) hcolors
    exact turn_ok (heq.symm.trans hturn)

/-! ## Groups -/

/-- The states in which `ordered_access_w_instances` and its model wait: the color of the
last sample is among the instances. -/
structure WaitsOrdered (wait wait' : OrderedWaiting) : Prop where
  same : wait = wait'
  known : ∀ color, wait'.currentColor = some color → color ∈ wait'.state.instanceColor

theorem mem_instanceColor_readSample (color : List Char) (st : OrderedState) :
    color ∈ (st.readSample color).instanceColor := by
  rw [OrderedState.readSample]
  dsimp only
  split
  · assumption
  · simp

theorem orderedAccess_head (py : PyUnicode) (w : Window Char) (st : OrderedState) :
    Agree WaitsOrdered Except.ok ((orderedAccessWInstances py).head (.input w) st)
      (st.turn py w.text) := by
  rw [OrderedState.turn, OrderedState.readText]
  by_cases hlimit : st.samplesReadPerInstance < maxSamplesRead
  · rw [if_pos hlimit]
    simp only [orderedAccessWInstances, if_pos hlimit, beforeAndAfter_input, PyError.ok_bind]
    rcases orderedSample_cases py w.text with ⟨hnone, hread⟩ | ⟨m, color, hm, hcolor, hread⟩
    · rw [hnone, hread]
      simp only [Option.isSome_none, Bool.false_eq_true, if_false, PyError.pure_eq]
      cases search (lit "Reading with ordered access".toList) w.text with
      | none => exact .waits ⟨rfl, forall_none⟩
      | some m =>
          simp only [Option.isSome_some, if_true]
          cases st.judgeGroup with
          | none => exact agree_code _
          | some st => exact .waits ⟨rfl, forall_none⟩
    · rw [hm, hread]
      have hknown := mem_instanceColor_readSample color st
      simp only [Option.isSome_some, if_true, hcolor, PyList.index_eq_ok hknown, PyError.ok_bind,
        PyError.pure_eq]
      refine .waits ⟨rfl, fun c hc => ?_⟩
      obtain rfl : color = c := Option.some.inj hc
      exact hknown
  · rw [if_neg hlimit]
    simp only [orderedAccessWInstances, if_neg hlimit, PyError.pure_eq]
    exact agree_code _

theorem countOrdered_eq {wait : OrderedWaiting}
    (hknown : ∀ color, wait.currentColor = some color → color ∈ wait.state.instanceColor)
    (index : Nat) : countOrdered index wait = .ok (wait.countMatch index) := by
  obtain ⟨st, color⟩ := wait
  rw [countOrdered, OrderedWaiting.countMatch]
  by_cases hindex : index = 0
  · simp only [hindex, if_true]
    cases color with
    | none => rfl
    | some color =>
        obtain ⟨first, rest, hcolors⟩ : ∃ first rest, st.instanceColor = first :: rest :=
          List.exists_cons_of_ne_nil (List.ne_nil_of_mem (hknown color rfl))
        simp only [PyList.item, hcolors, List.getElem?_cons_zero, PyError.ok_bind, PyError.pure_eq,
          List.head?_cons, ne_eq, reduceCtorEq, not_false_eq_true, true_and, Option.some.injEq]
        by_cases hsame : color = first
        · simp only [hsame, if_true]
        · simp only [hsame, if_false]
  · simp only [hindex, if_false]
    rfl

theorem orderedAccess_refines (py : PyUnicode) (first : Window Char) :
    Refines WaitsOrdered Except.ok ((orderedAccessWInstances py).loop py first)
      (Harness.orderedAccessWInstances py first.text) := by
  refine refines_of (fun hbasic => ?_) (fun hbasic => ?_) (fun w wait wait' hwaits => ?_)
    (fun wait wait' hwaits => ?_) (fun _ _ _ => rfl)
  · rw [Harness.orderedAccessWInstances, if_pos hbasic]
    exact agree_code _
  · rw [Harness.orderedAccessWInstances, if_neg (not_not.mpr hbasic)]
    exact orderedAccess_head py first .initial
  · obtain ⟨rfl, hknown⟩ := hwaits
    show Agree _ _ _ (wait.onMatch py w)
    have htail : (orderedAccessWInstances py).tail (.input w) wait =
        .ok (if maxSamplesRead < (wait.countMatch w.index).orderedAccessGroupCount then
          .inr (if (wait.countMatch w.index).samplesReadPerInstance < maxSamplesRead then
            .dataNotReceived else (wait.countMatch w.index).producedCode)
          else .inl (wait.countMatch w.index)) := by
      simp only [orderedAccessWInstances, countOrdered_eq hknown, PyError.ok_bind, PyError.pure_eq]
      split <;> rfl
    rw [htail, PyError.ok_bind, OrderedWaiting.onMatch]
    split
    · exact agree_code _
    · exact orderedAccess_head py w _
  · obtain ⟨rfl, -⟩ := hwaits
    rfl

/-! ## All of them -/

/-- The check functions of test_suite_functions.py that read one sample after the other. -/
inductive CheckName where
  | testSizeReceivers
  | testColorReceivers
  | testSizeLessThan20
  | testOrderWInstances
  | testReliabilityNoLossesWInstances
  | testReading1SampleEvery10SamplesWInstances
  | testUnregisteringWInstances
  | testDisposingWInstances
  | testLifespan23ConsecutiveSamplesWInstances
  | orderedAccessWInstances
  | coherentSetsWInstances
  | coherentSetsWInstancesNonGroup
deriving DecidableEq, Repr

/-- What a call of the function comes to, on the events behind the first match: the code
that it returns or the exception that it raises. -/
def CheckName.Finishes (py : PyUnicode) (first : Window Char)
    (events : Nat → Arrival (Window Char)) (r : Except PyError ReturnCode) : CheckName → Prop
  | testSizeReceivers => ((Raising.testSizeReceivers py).loop py first).Finishes events r
  | testColorReceivers => ((Raising.testColorReceivers py).loop py first).Finishes events r
  | testSizeLessThan20 => (Raising.testSizeLessThan20.loop py first).Finishes events r
  | testOrderWInstances =>
      ((Raising.testOrderWInstances.function py).loop py first).Finishes events r
  | testReliabilityNoLossesWInstances =>
      ((Raising.testReliabilityNoLossesWInstances.function py).loop py first).Finishes events r
  | testReading1SampleEvery10SamplesWInstances =>
      ((Raising.testReading1SampleEvery10SamplesWInstances.function py).loop py first).Finishes
        events r
  | testUnregisteringWInstances =>
      ((Raising.testUnregisteringWInstances py).loop py first).Finishes events r
  | testDisposingWInstances =>
      ((Raising.testDisposingWInstances py).loop py first).Finishes events r
  | testLifespan23ConsecutiveSamplesWInstances =>
      ((Raising.testLifespan23ConsecutiveSamplesWInstances.function py).loop py first).Finishes
        events r
  | orderedAccessWInstances =>
      ((Raising.orderedAccessWInstances py).loop py first).Finishes events r
  | coherentSetsWInstances => ((Raising.coherentSetsWInstances py).loop py first).Finishes events r
  | coherentSetsWInstancesNonGroup =>
      ((Raising.coherentSetsWInstancesNonGroup py).loop py first).Finishes events r

/-- **No check function raises**: whatever the first match and the matches behind it have
in them, and whether the output ends in silence or with the program, a call does not come to
an exception; and if the output ends, it comes to a code. -/
theorem checks_safe (check : CheckName) (py : PyUnicode) (first : Window Char)
    (events : Nat → Arrival (Window Char)) :
    (∀ e, ¬check.Finishes py first events (.error e)) ∧
      (EventLoop.Ends events → ∃ code, check.Finishes py first events (.ok code)) := by
  -- a model without exceptions, and one of final states
  have hcode : ∀ {σ ω τ : Type} {R : ω → τ → Prop} {f : CheckFunction σ ω}
      {spec : EventLoop (Window Char) τ ReturnCode},
      Refines R Except.ok (f.loop py first) spec → (f.loop py first).Safe events :=
    fun hrefines => hrefines.safe fun code _ => ⟨code, rfl⟩
  have hfinal : ∀ state, ((finalStates py state).loop py first).Safe events :=
    fun state => (finalStates_refines py state first).safe fun _ => finalStates_ok
  have hsafe : ∀ {ω : Type} {loop : RaisingLoop PyError (Window Char) ω ReturnCode},
      loop.Safe events → (∀ e, ¬loop.Finishes events (.error e)) ∧
        (EventLoop.Ends events → ∃ code, loop.Finishes events (.ok code)) :=
    fun h => ⟨h.not_error, h.returns⟩
  cases check with
  | testSizeReceivers =>
      exact hsafe ((testSizeReceivers_refines py first).safe fun _ =>
        ReceiverCheck.returns_ok exists_basicSize)
  | testColorReceivers =>
      exact hsafe ((testColorReceivers_refines py first).safe fun _ =>
        ReceiverCheck.returns_ok exists_colorOf)
  | testSizeLessThan20 => exact hsafe (hcode (testSizeLessThan20_refines py first))
  | testOrderWInstances => exact hsafe (hcode (testOrder_columns.refines py first))
  | testReliabilityNoLossesWInstances =>
      exact hsafe (hcode (testReliabilityNoLosses_columns.refines py first))
  | testReading1SampleEvery10SamplesWInstances =>
      exact hsafe (hcode (testReading1SampleEvery10Samples_columns.refines py first))
  | testUnregisteringWInstances => exact hsafe (hfinal noWriters)
  | testDisposingWInstances => exact hsafe (hfinal disposed)
  | testLifespan23ConsecutiveSamplesWInstances =>
      exact hsafe (hcode (testLifespan23ConsecutiveSamples_columns.refines py first))
  | orderedAccessWInstances => exact hsafe (hcode (orderedAccess_refines py first))
  | coherentSetsWInstances => exact hsafe (hcode (coherentSets_refines py 36 first))
  | coherentSetsWInstancesNonGroup => exact hsafe (hcode (coherentSets_refines py 12 first))

end DdsRtps.Harness.Raising
