/-
# `DdsRtps.Harness.CheckRefinement` — the checks return what their models say

The check functions of `DdsRtps.Harness.CheckFunctions` against the event loops
that the other modules have for them: here what the groups of a match hold,
which is what the models read in the text, the steps that are common to all of
them (`refines_of`), and the checks that read one value after the other.
-/
import DdsRtps.Harness.CheckFunctions

namespace DdsRtps.Harness

open Regex

/-! ## A model of `test_size_less_than_20` -/

/-- The size that `test_size_less_than_20` reads. -/
def sizeOf (text : List Char) : Option Nat :=
  (search Raising.sizeSample text).bind fun m => (m.group 1).map pyInt

/-- The condition of the loop is tested, and the size is judged. -/
def sizeTurn (text : List Char) (samplesRead : Nat) : Nat ⊕ ReturnCode :=
  match sizeOf text with
  | some size =>
      if samplesRead < maxSamplesRead / 2 then
        if size < 1 ∨ 20 < size then .inr .dataNotCorrect else .inl samplesRead
      else .inr .ok
  | none => .inr .ok

/-- `test_size_less_than_20`. -/
def testSizeLessThan20 (py : PyUnicode) (text : List Char) :
    EventLoop (Window Char) Nat ReturnCode where
  start := if basicCheck py text ≠ .ok then .inr (basicCheck py text) else sizeTurn text 0
  onInput w samplesRead := sizeTurn w.text (samplesRead + 1)
  onTimeout _ := .dataNotReceived
  onEof _ := .dataNotReceived

namespace Raising

open PyUnicode (digit)
open RaisingLoop (Agree Refines)

/-! ## What is found -/

section Found

variable {m : Found Char} {n : Nat} {t : List Char}

theorem group_of_captures {cs : Captures Char} (hcs : m.captures = cs) (h : cs.lookup n = some t) :
    m.group n = some t := by
  rw [Found.group, hcs, h]

theorem group_eq_ok (h : m.group n = some t) : group (some m) n = .ok t := by
  rw [group, h]

theorem int_eq_ok (hne : t ≠ []) (hdigit : ∀ c ∈ t, digit c = true) : int t = .ok (pyInt t) :=
  if_pos ⟨hne, List.all_eq_true.mpr hdigit⟩

theorem parse_blank {py : PyUnicode} (s : List Char) (cs : Captures Char)
    (hs : Parse (lit [' ']) s cs) : (s ≠ [] ∧ ∀ c ∈ s, py.space c = true) ∧ cs = [] := by
  obtain ⟨rfl, rfl⟩ := parse_lit_iff.mp hs
  exact ⟨⟨by simp, by simpa using py.space_blank⟩, rfl⟩

/-- No sample is found, or one with a number for its size. -/
theorem search_samplePattern_cases {py : PyUnicode} {topic sep : Regex Char}
    {color size : Option Nat}
    (hsep : ∀ s cs, Parse sep s cs → (s ≠ [] ∧ ∀ c ∈ s, py.space c = true) ∧ cs = [])
    (text : List Char) :
    search (samplePattern py topic sep color size) text = none ∨
      ∃ m w ws d, ∃ f : Fields, search (samplePattern py topic sep color size) text = some m ∧
        Parse topic w ws ∧ m.captures = ws ++ captured color f.color ++ captured size d ∧
        int d = .ok (pyInt d) := by
  cases hsearch : search (samplePattern py topic sep color size) text with
  | none => exact .inl rfl
  | some m =>
      obtain ⟨-, hparse, -⟩ := search_spec hsearch
      obtain ⟨w, ws, f, d, hw, -, -, -, hd, hdigit, -, hcs⟩ :=
        (parse_samplePattern_iff hsep).mp hparse
      exact .inr ⟨m, w, ws, d, f, rfl, hw, hcs, int_eq_ok hd hdigit⟩

theorem basicSample_cases (py : PyUnicode) (text : List Char) :
    search (basicSample py) text = none ∧ basicSize py text = none ∨
      ∃ m d size, search (basicSample py) text = some m ∧ group (some m) 1 = .ok d ∧
        int d = .ok size ∧ basicSize py text = some size := by
  rcases search_samplePattern_cases parse_blank text with
    hnone | ⟨m, w, ws, d, f, hm, hw, hcs, hint⟩
  · exact .inl ⟨hnone, by rw [basicSize, basicSample, hnone]; rfl⟩
  · obtain ⟨c, -, -, rfl⟩ := hw
    have hgroup : m.group 1 = some d := group_of_captures hcs rfl
    refine .inr ⟨m, d, pyInt d, hm, group_eq_ok hgroup, hint, ?_⟩
    rw [basicSize, basicSample, hm, Option.bind_some, hgroup, Option.map_some]

theorem colorSample_cases (py : PyUnicode) (text : List Char) :
    search (colorSample py) text = none ∧ colorOf py text = none ∨
      ∃ m color, search (colorSample py) text = some m ∧ group (some m) 1 = .ok color ∧
        colorOf py text = some color := by
  rcases search_samplePattern_cases parse_blank text with
    hnone | ⟨m, w, ws, d, f, hm, hw, hcs, -⟩
  · exact .inl ⟨hnone, by rw [colorOf, colorSample, hnone]; rfl⟩
  · obtain ⟨c, -, -, rfl⟩ := hw
    have hgroup : m.group 1 = some f.color := group_of_captures hcs rfl
    refine .inr ⟨m, f.color, hm, group_eq_ok hgroup, ?_⟩
    rw [colorOf, colorSample, hm, Option.bind_some, hgroup]

theorem instanceSample_cases (py : PyUnicode) (text : List Char) :
    search (instanceSample py) text = none ∧ colorAndSize py text = none ∧
        sampledColor py text = none ∨
      ∃ m color d size, search (instanceSample py) text = some m ∧
        group (some m) 1 = .ok color ∧ group (some m) 2 = .ok d ∧ int d = .ok size ∧
        colorAndSize py text = some (color, size) ∧ sampledColor py text = some color := by
  rcases search_samplePattern_cases (fun _ _ => SampleAt.parse_plus_space py) text with
    hnone | ⟨m, w, ws, d, f, hm, hw, hcs, hint⟩
  · refine .inl ⟨hnone, ?_, ?_⟩
    · rw [colorAndSize, instanceSample, hnone]
      rfl
    · rw [sampledColor, instanceSample, hnone]
      rfl
  · obtain ⟨-, -, rfl⟩ := parse_plus_iff.mp hw
    have hcolor : m.group 1 = some f.color := group_of_captures hcs rfl
    have hsize : m.group 2 = some d := group_of_captures hcs rfl
    refine .inr ⟨m, f.color, d, pyInt d, hm, group_eq_ok hcolor, group_eq_ok hsize, hint, ?_, ?_⟩
    · rw [colorAndSize, instanceSample, hm, Option.bind_some, hcolor, hsize]
      rfl
    · rw [sampledColor, instanceSample, hm, Option.bind_some, hcolor]

theorem orderedSample_cases (py : PyUnicode) (text : List Char) :
    search (orderedSample py) text = none ∧ orderedColor py text = none ∨
      ∃ m color, search (orderedSample py) text = some m ∧ group (some m) 1 = .ok color ∧
        orderedColor py text = some color := by
  rcases search_samplePattern_cases (fun _ _ => SampleAt.parse_plus_space py) text with
    hnone | ⟨m, w, ws, d, f, hm, hw, hcs, -⟩
  · exact .inl ⟨hnone, by rw [orderedColor, orderedSample, hnone]; rfl⟩
  · obtain ⟨-, -, rfl⟩ := parse_plus_iff.mp hw
    have hgroup : m.group 1 = some f.color := group_of_captures hcs rfl
    refine .inr ⟨m, f.color, hm, group_eq_ok hgroup, ?_⟩
    rw [orderedColor, orderedSample, hm, Option.bind_some, hgroup]

theorem topicSample_cases (py : PyUnicode) (text : List Char) :
    search (topicSample py) text = none ∧ topicAndColor py text = none ∨
      ∃ m topic color, search (topicSample py) text = some m ∧ group (some m) 1 = .ok topic ∧
        group (some m) 2 = .ok color ∧ topicAndColor py text = some (topic, color) := by
  rcases search_samplePattern_cases (fun _ _ => SampleAt.parse_plus_space py) text with
    hnone | ⟨m, w, ws, d, f, hm, hw, hcs, -⟩
  · exact .inl ⟨hnone, by rw [topicAndColor, topicSample, hnone]; rfl⟩
  · obtain ⟨_, hword, rfl⟩ := parse_group_iff.mp hw
    obtain ⟨-, -, rfl⟩ := parse_plus_iff.mp hword
    have htopic : m.group 1 = some w := group_of_captures hcs rfl
    have hcolor : m.group 2 = some f.color := group_of_captures hcs rfl
    refine .inr ⟨m, w, f.color, hm, group_eq_ok htopic, group_eq_ok hcolor, ?_⟩
    rw [topicAndColor, topicSample, hm, Option.bind_some, htopic, hcolor]
    rfl

/-- The state of an instance, in a text without a sample. -/
theorem instanceState_cases (py : PyUnicode) (state : String) {text : List Char}
    (hsample : sampledColor py text = none) :
    search (instanceState py state) text = none ∧ reportedColor py state text = none ∨
      ∃ m color, search (instanceState py state) text = some m ∧
        group (some m) 1 = .ok color ∧ reportedColor py state text = some color := by
  cases hm : search (instanceState py state) text with
  | none => exact .inl ⟨rfl, by rw [reportedColor, hsample]; simp only [hm]; rfl⟩
  | some m =>
      obtain ⟨-, hparse, -⟩ := search_spec hm
      obtain ⟨color, hgroup⟩ :=
        exists_lookup_of_mem_cat (n := 1) (r := plus py.word) (by simp) hparse
      refine .inr ⟨m, color, rfl, group_eq_ok hgroup, ?_⟩
      rw [reportedColor, hsample]
      simp only [hm]
      exact hgroup

end Found

/-- Nothing is to be shown of the text that was not found. -/
theorem forall_none {α : Type} {P : α → Prop} : ∀ a, (none : Option α) = some a → P a := by
  intro a ha
  cases ha

/-! ## One function and one event loop -/

theorem beforeAndAfter_input (w : Window Char) : beforeAndAfter (.input w) = .ok w.text := rfl

theorem basicCheck_eq (py : PyUnicode) (w : Window Char) :
    basicCheck py (.input w) = .ok (Harness.basicCheck py w.text) := by
  rw [Harness.basicCheck, basicCheck, beforeAndAfter_input, PyError.ok_bind]
  rcases basicSample_cases py w.text with ⟨hnone, hsize⟩ | ⟨m, d, size, hm, hgroup, hint, hsize⟩
  · rw [hnone, hsize]
    rfl
  · rw [hm, hsize]
    simp only [hgroup, hint, PyError.ok_bind, PyError.pure_eq]
    by_cases hzero : size = 0
    · simp [hzero]
    · simp [hzero]

section Refines

variable {σ ω τ γ : Type} {R : ω → τ → Prop} {result : γ → Except PyError ReturnCode}

/-- Both return a code, in a model that has exceptions. -/
theorem agree_ok (code : ReturnCode) :
    Agree R (id : Except PyError ReturnCode → Except PyError ReturnCode) (.ok (.inr code))
      (.inr (.ok code)) :=
  .leaves (Except.ok code)

/-- Both return a code, in a model that has none. -/
theorem agree_code (code : ReturnCode) :
    Agree R (Except.ok : ReturnCode → Except PyError ReturnCode) (.ok (.inr code)) (.inr code) :=
  .leaves code

/-- What is to be shown of a function: `basic_check` is made first, then it goes from one
`expect` to the next. -/
theorem refines_of {f : CheckFunction σ ω} {spec : EventLoop (Window Char) τ γ} {py : PyUnicode}
    {first : Window Char}
    (hbad : Harness.basicCheck py first.text ≠ .ok →
      Agree R result (.ok (.inr (Harness.basicCheck py first.text))) spec.start)
    (hgood : Harness.basicCheck py first.text = .ok →
      Agree R result (f.enter (.input first) >>= andThen (f.head (.input first))) spec.start)
    (hinput : ∀ w wait t, R wait t →
      Agree R result (f.tail (.input w) wait >>= andThen (f.head (.input w))) (spec.onInput w t))
    (htimeout : ∀ wait t, R wait t →
      f.tail .timeout wait = (result (spec.onTimeout t)).map Sum.inr)
    (heof : ∀ wait t, R wait t → f.tail .eof wait = (result (spec.onEof t)).map Sum.inr) :
    Refines R result (f.loop py first) spec where
  start := by
    rw [CheckFunction.loop, basicCheck_eq]
    simp only [PyError.ok_bind]
    by_cases hbasic : Harness.basicCheck py first.text = .ok
    · rw [if_neg (not_not.mpr hbasic)]
      exact hgood hbasic
    · rw [if_pos hbasic]
      exact hbad hbasic
  onInput := hinput
  onTimeout wait t hR := by
    show f.tail .timeout wait >>= andThen (f.head .timeout) = _
    rw [htimeout wait t hR]
    cases result (spec.onTimeout t) <;> rfl
  onEof wait t hR := by
    show f.tail .eof wait >>= andThen (f.head .eof) = _
    rw [heof wait t hR]
    cases result (spec.onEof t) <;> rfl

end Refines

/-! ## One value after the other -/

theorem testSizeReceivers_head (py : PyUnicode) (child : Child) (text : List Char)
    (st : Receiving SizeKept) :
    Agree Eq id ((testSizeReceivers py).head child (search (basicSample py) text, st))
      ((Harness.testSizeReceivers py).turn (basicSize py text) st.samplesRead st.kept) := by
  rcases basicSample_cases py text with ⟨hnone, hsize⟩ | ⟨m, d, size, hm, hgroup, hint, hsize⟩
  · rw [hnone, hsize]
    exact agree_ok .receivingFromOne
  · rw [hm, hsize]
    simp only [testSizeReceivers, hgroup, hint, PyError.ok_bind, PyError.pure_eq,
      ReceiverCheck.turn, Option.isSome_some, true_and, Harness.testSizeReceivers]
    split
    · split
      · split
        · exact .waits rfl
        · exact agree_ok .receivingFromBoth
      · exact .waits rfl
    · exact agree_ok .receivingFromOne

theorem testSizeReceivers_refines (py : PyUnicode) (first : Window Char) :
    Refines Eq id ((testSizeReceivers py).loop py first)
      ((Harness.testSizeReceivers py).eventLoop py first.text) := by
  refine refines_of (fun hbasic => ?_) (fun hbasic => ?_) ?_ (fun _ _ _ => rfl) (fun _ _ _ => rfl)
  · simp only [ReceiverCheck.eventLoop, if_pos hbasic]
    exact agree_ok _
  · simp only [ReceiverCheck.eventLoop, if_neg (not_not.mpr hbasic)]
    have hhead := testSizeReceivers_head py (.input first) first.text
    obtain ⟨m, d, size, hm, hgroup, hint, hsize⟩ :=
      (basicSample_cases py first.text).resolve_left fun h => by
        rw [Harness.basicCheck, h.2] at hbasic
        cases hbasic
    rw [hm, hsize] at hhead
    have henter : (testSizeReceivers py).enter (.input first) =
        .ok (.inl (some m, ⟨0, size, true⟩)) := by
      simp [testSizeReceivers, beforeAndAfter_input, hm, hgroup, hint, PyError.ok_bind,
        PyError.pure_eq]
    rw [henter]
    have hread : (Harness.testSizeReceivers py).read first.text = some size := hsize
    rw [hread]
    exact hhead ⟨0, size, true⟩
  · rintro w st _ rfl
    exact testSizeReceivers_head py (.input w) w.text { st with samplesRead := st.samplesRead + 1 }

theorem testColorReceivers_head (py : PyUnicode) (child : Child) (text : List Char)
    (st : Receiving (List Char)) :
    Agree Eq id ((testColorReceivers py).head child (search (colorSample py) text, st))
      ((Harness.testColorReceivers py).turn (colorOf py text) st.samplesRead st.kept) := by
  rcases colorSample_cases py text with ⟨hnone, hcolor⟩ | ⟨m, color, hm, hgroup, hcolor⟩
  · rw [hnone, hcolor]
    exact agree_ok .receivingFromOne
  · rw [hm, hcolor]
    simp only [testColorReceivers, hgroup, PyError.ok_bind, PyError.pure_eq,
      ReceiverCheck.turn, Option.isSome_some, true_and, Harness.testColorReceivers]
    split
    · split
      · exact agree_ok .receivingFromBoth
      · exact .waits rfl
    · exact agree_ok .receivingFromOne

theorem testColorReceivers_refines (py : PyUnicode) (first : Window Char) :
    Refines Eq id ((testColorReceivers py).loop py first)
      ((Harness.testColorReceivers py).eventLoop py first.text) := by
  refine refines_of (fun hbasic => ?_) (fun hbasic => ?_) ?_ (fun _ _ _ => rfl) (fun _ _ _ => rfl)
  · simp only [ReceiverCheck.eventLoop, if_pos hbasic]
    exact agree_ok _
  · simp only [ReceiverCheck.eventLoop, if_neg (not_not.mpr hbasic)]
    have hhead := testColorReceivers_head py (.input first) first.text
    rcases colorSample_cases py first.text with ⟨hnone, hcolor⟩ | ⟨m, color, hm, hgroup, hcolor⟩
    · -- `sub_string.group(1)` of `None`, in both
      have henter : (testColorReceivers py).enter (.input first) = .error .attributeError := by
        simp [testColorReceivers, beforeAndAfter_input, hnone, group, PyError.ok_bind]
      have hread : (Harness.testColorReceivers py).read first.text = none := hcolor
      rw [henter, hread]
      exact .leaves (Except.error PyError.attributeError)
    · rw [hm, hcolor] at hhead
      have henter : (testColorReceivers py).enter (.input first) =
          .ok (.inl (some m, ⟨0, color⟩)) := by
        simp [testColorReceivers, beforeAndAfter_input, hm, hgroup, PyError.ok_bind,
          PyError.pure_eq]
      have hread : (Harness.testColorReceivers py).read first.text = some color := hcolor
      rw [henter, hread]
      exact hhead ⟨0, color⟩
  · rintro w st _ rfl
    exact testColorReceivers_head py (.input w) w.text { st with samplesRead := st.samplesRead + 1 }

theorem sizeSample_cases (text : List Char) :
    search sizeSample text = none ∧ sizeOf text = none ∨
      ∃ m d size, search sizeSample text = some m ∧ group (some m) 1 = .ok d ∧
        int d = .ok size ∧ sizeOf text = some size := by
  cases hm : search sizeSample text with
  | none => exact .inl ⟨rfl, by rw [sizeOf, hm]; rfl⟩
  | some m =>
      obtain ⟨-, hparse, -⟩ := search_spec hm
      obtain ⟨_, _, _, _, px, h₁, -, hcs⟩ := parse_cat_cons_iff.mp hparse
      obtain ⟨_, _, _, _, pblank, h₂, -, rfl⟩ := parse_cat_cons_iff.mp h₁
      obtain ⟨_, _, _, _, py', h₃, -, rfl⟩ := parse_cat_cons_iff.mp h₂
      obtain ⟨_, _, _, _, popen, h₄, -, rfl⟩ := parse_cat_cons_iff.mp h₃
      obtain ⟨d, _, _, _, pd, -, -, rfl⟩ := parse_cat_cons_iff.mp h₄
      obtain ⟨-, -, rfl⟩ := parse_plus_iff.mp px
      obtain ⟨-, rfl⟩ := parse_lit_iff.mp pblank
      obtain ⟨-, -, rfl⟩ := parse_plus_iff.mp py'
      obtain ⟨-, rfl⟩ := parse_lit_iff.mp popen
      obtain ⟨_, pdigit, rfl⟩ := parse_group_iff.mp pd
      obtain ⟨hd, hdigit, -⟩ := parse_plus_iff.mp pdigit
      have hgroup : m.group 1 = some d := group_of_captures hcs rfl
      refine .inr ⟨m, d, pyInt d, rfl, group_eq_ok hgroup, int_eq_ok hd hdigit, ?_⟩
      rw [sizeOf, hm, Option.bind_some, hgroup, Option.map_some]

theorem testSizeLessThan20_head (child : Child) (text : List Char) (samplesRead : Nat) :
    Agree Eq Except.ok (testSizeLessThan20.head child (search sizeSample text, samplesRead))
      (sizeTurn text samplesRead) := by
  rw [sizeTurn]
  rcases sizeSample_cases text with ⟨hnone, hsize⟩ | ⟨m, d, size, hm, hgroup, hint, hsize⟩
  · rw [hnone, hsize]
    exact agree_code .ok
  · rw [hm, hsize]
    simp only [testSizeLessThan20, hgroup, hint, PyError.ok_bind, PyError.pure_eq,
      Option.isSome_some, true_and]
    split
    · split
      · exact agree_code .dataNotCorrect
      · exact .waits rfl
    · exact agree_code .ok

theorem testSizeLessThan20_refines (py : PyUnicode) (first : Window Char) :
    Refines Eq Except.ok (testSizeLessThan20.loop py first)
      (Harness.testSizeLessThan20 py first.text) := by
  refine refines_of (fun hbasic => ?_) (fun hbasic => ?_) ?_ (fun _ _ _ => rfl) (fun _ _ _ => rfl)
  · rw [Harness.testSizeLessThan20, if_pos hbasic]
    exact agree_code _
  · rw [Harness.testSizeLessThan20, if_neg (not_not.mpr hbasic)]
    exact testSizeLessThan20_head (.input first) first.text 0
  · rintro w samplesRead _ rfl
    exact testSizeLessThan20_head (.input w) w.text (samplesRead + 1)

end Raising

end DdsRtps.Harness
