/-
# `DdsRtps.Harness.FinalStates` — is every instance unregistered, or disposed

`test_unregistering_w_instances` and `test_disposing_w_instances` of
test_suite_functions.py.  They collect the instances that are sampled and those
for which a final state is reported, and pass if the two sets are the same.
They do not read to the end: as soon as as many instances are reported as
sampled the loop is left, which is a comparison of lengths.

`finalStates` has the loop with this exit and without it.  Which of the two
verdicts comes out is a matter of what would have been read behind the exit
(`early_exit_iff`).
-/
import DdsRtps.Harness.InstanceLines
import DdsRtps.Harness.SampleChecks
import DdsRtps.Lib.EventLoop
import DdsRtps.Lib.FirstSeen
import DdsRtps.Lib.PyError
import Mathlib.Data.Finset.Dedup

namespace DdsRtps.Harness

open Regex
open EventLoop (Begins)
open FirstSeen (firsts mem_firsts firsts_concat_known firsts_concat_new firsts_prefix_append)

/-! ## The code -/

/-- The color of a sample. -/
def sampledColor (py : PyUnicode) (text : List Char) : Option (List Char) :=
  (search (instanceSample py) text).bind fun m => m.group 1

/-- The color of an instance whose final state is reported, in a text without a sample. -/
def reportedColor (py : PyUnicode) (state : String) (text : List Char) : Option (List Char) :=
  match sampledColor py text with
  | some _ => none
  | none => (search (instanceState py state) text).bind fun m => m.group 1

/-- `sub_string`, by its first group. -/
def instanceOf (py : PyUnicode) (state : String) (text : List Char) : Option (List Char) :=
  (sampledColor py text).or (reportedColor py state text)

/-- The variables of the two checks. -/
structure FinalStates where
  instanceColor : List (List Char)
  finalInstanceColor : List (List Char)
  samplesReadPerInstance : Nat

/-- The loop waits in an `expect`. -/
structure FinalWaiting where
  state : FinalStates
  subString : Option (List Char)

/-- `if color not in colors: colors.append(color)`. -/
def addColor (color : List Char) (colors : List (List Char)) : List (List Char) :=
  if color ∈ colors then colors else colors ++ [color]

namespace FinalStates

/-- The code that is returned behind the loop. -/
def verdict (st : FinalStates) : ReturnCode :=
  if st.instanceColor.length = 0 then .dataNotReceived
  else if st.instanceColor.toFinset = st.finalInstanceColor.toFinset then .ok
  else .dataNotCorrect

/-- A text is read; the flag says whether the loop is left. -/
def readText (py : PyUnicode) (state : String) (text : List Char) (st : FinalStates) :
    FinalStates × Bool :=
  match sampledColor py text with
  | some color => ({ st with instanceColor := addColor color st.instanceColor }, false)
  | none =>
      match reportedColor py state text with
      | some color =>
          if color ∈ st.finalInstanceColor then (st, false)
          else
            ({ st with finalInstanceColor := st.finalInstanceColor ++ [color] },
              st.instanceColor.length = (st.finalInstanceColor ++ [color]).length)
      | none => (st, false)

/-- The condition of the loop is tested, and the text is read.  `early` says whether
the `break` on equal lengths is there. -/
def turn (py : PyUnicode) (state : String) (early : Bool) (text : List Char) (st : FinalStates) :
    FinalWaiting ⊕ Except PyError ReturnCode :=
  if st.samplesReadPerInstance < maxSamplesRead then
    let (st, leave) := st.readText py state text
    if early && leave then .inr (.ok st.verdict) else .inl ⟨st, instanceOf py state text⟩
  else .inr (.ok st.verdict)

end FinalStates

/-- An `expect` has matched. -/
def FinalWaiting.onMatch (py : PyUnicode) (state : String) (early : Bool) (w : Window Char)
    (wait : FinalWaiting) : FinalWaiting ⊕ Except PyError ReturnCode :=
  match wait.subString with
  | none => wait.state.turn py state early w.text
  | some color =>
      if w.index = 0 then
        match wait.state.instanceColor with
        -- `instance_color[0]`
        | [] => .inr (.error .indexError)
        | first :: _ =>
            FinalStates.turn py state early w.text
              { wait.state with
                samplesReadPerInstance :=
                  if color = first then wait.state.samplesReadPerInstance + 1
                  else wait.state.samplesReadPerInstance }
      else wait.state.turn py state early w.text

/-- The two checks, with the `break` or without it: `text` is what the last `expect` of
`run_subscriber_shape_main` has read. -/
def finalStates (py : PyUnicode) (state : String) (early : Bool) (text : List Char) :
    EventLoop (Window Char) FinalWaiting (Except PyError ReturnCode) where
  start :=
    if basicCheck py text ≠ .ok then .inr (.ok (basicCheck py text))
    else FinalStates.turn py state early text ⟨[], [], 0⟩
  onInput w wait := wait.onMatch py state early w
  onTimeout wait := .ok wait.state.verdict
  onEof _ := .ok .dataNotReceived

/-- The state that `test_unregistering_w_instances` searches for. -/
def noWriters : String := "NOT_ALIVE_NO_WRITERS_INSTANCE_STATE"

/-- The state that `test_disposing_w_instances` searches for. -/
def disposed : String := "NOT_ALIVE_DISPOSED_INSTANCE_STATE"

/-- `test_unregistering_w_instances`. -/
def testUnregistering (py : PyUnicode) (text : List Char) :
    EventLoop (Window Char) FinalWaiting (Except PyError ReturnCode) :=
  finalStates py noWriters true text

/-- `test_disposing_w_instances`. -/
def testDisposing (py : PyUnicode) (text : List Char) :
    EventLoop (Window Char) FinalWaiting (Except PyError ReturnCode) :=
  finalStates py disposed true text

/-! ## What the texts say -/

/-- The instances that are sampled in some texts. -/
def sampledIn (py : PyUnicode) (texts : List (List Char)) : List (List Char) :=
  texts.filterMap (sampledColor py)

/-- The instances that are reported in some texts. -/
def reportedIn (py : PyUnicode) (state : String) (texts : List (List Char)) : List (List Char) :=
  texts.filterMap (reportedColor py state)

/-- The same instances are sampled as reported. -/
def Settled (py : PyUnicode) (state : String) (texts : List (List Char)) : Prop :=
  ∀ color, color ∈ sampledIn py texts ↔ color ∈ reportedIn py state texts

instance (py : PyUnicode) (state : String) (texts : List (List Char)) :
    Decidable (Settled py state texts) :=
  decidable_of_iff ((sampledIn py texts).toFinset = (reportedIn py state texts).toFinset)
    (by simp only [Finset.ext_iff, List.mem_toFinset, Settled])

/-- The verdict on some texts. -/
def verdictOn (py : PyUnicode) (state : String) (texts : List (List Char)) : ReturnCode :=
  if sampledIn py texts = [] then .dataNotReceived
  else if Settled py state texts then .ok
  else .dataNotCorrect

/-- A text reports a new instance, and with it as many instances are reported as sampled. -/
def Evens (py : PyUnicode) (state : String) (texts : List (List Char)) (text : List Char) : Prop :=
  ∃ color, reportedColor py state text = some color ∧ color ∉ reportedIn py state texts ∧
    (firsts (sampledIn py texts)).length = (firsts (reportedIn py state texts)).length + 1

/-- No text does. -/
def NeverEvens (py : PyUnicode) (state : String) (texts : List (List Char)) : Prop :=
  ∀ before t, before ++ [t] <+: texts → ¬Evens py state before t

section Texts

theorem sampledIn_append (py : PyUnicode) (texts : List (List Char)) (t : List Char) :
    sampledIn py (texts ++ [t]) = sampledIn py texts ++ (sampledColor py t).toList := by
  rw [sampledIn, List.filterMap_append, sampledIn]
  cases hcolor : sampledColor py t with
  | none => simp [hcolor]
  | some color => simp [hcolor]

theorem reportedIn_append (py : PyUnicode) (state : String) (texts : List (List Char))
    (t : List Char) :
    reportedIn py state (texts ++ [t]) =
      reportedIn py state texts ++ (reportedColor py state t).toList := by
  rw [reportedIn, List.filterMap_append, reportedIn]
  cases hcolor : reportedColor py state t with
  | none => simp [hcolor]
  | some color => simp [hcolor]

variable {py : PyUnicode} {state : String}

/-- A text with a sample reports nothing. -/
theorem reportedColor_of_sampled {text color : List Char} (h : sampledColor py text = some color) :
    reportedColor py state text = none := by
  rw [reportedColor, h]

theorem neverEvens_append_iff (texts : List (List Char)) (t : List Char) :
    NeverEvens py state (texts ++ [t]) ↔ NeverEvens py state texts ∧ ¬Evens py state texts t := by
  constructor
  · intro h
    exact ⟨fun before t' hinitial => h before t' (hinitial.trans (List.prefix_append _ _)),
      h texts t List.prefix_rfl⟩
  · rintro ⟨htexts, hlast⟩ before t' hinitial
    rcases List.prefix_concat_iff.mp hinitial with heq | hbefore
    · obtain ⟨rfl, hlast'⟩ := List.append_inj' heq rfl
      obtain rfl := List.singleton_inj.mp hlast'
      exact hlast
    · exact htexts before t' hbefore

theorem exists_first_evens {texts : List (List Char)} (h : ¬NeverEvens py state texts) :
    ∃ before t, before ++ [t] <+: texts ∧ NeverEvens py state before ∧ Evens py state before t := by
  induction texts using List.reverseRecOn with
  | nil =>
      refine absurd (fun before t hinitial => ?_) h
      exact absurd (List.prefix_nil.mp hinitial) (by simp)
  | append_singleton texts t ih =>
      by_cases htexts : NeverEvens py state texts
      · have hlast : Evens py state texts t := by
          by_contra hlast
          exact h ((neverEvens_append_iff texts t).mpr ⟨htexts, hlast⟩)
        exact ⟨texts, t, List.prefix_rfl, htexts, hlast⟩
      · obtain ⟨before, t', hinitial, hfirst⟩ := ih htexts
        exact ⟨before, t', hinitial.trans (List.prefix_append _ _), hfirst⟩

end Texts

/-! ## One text -/

/-- What the variables say of the texts so far. -/
structure FinalStates.Knows (py : PyUnicode) (state : String) (texts : List (List Char))
    (st : FinalStates) : Prop where
  sampled : st.instanceColor = firsts (sampledIn py texts)
  reported : st.finalInstanceColor = firsts (reportedIn py state texts)

namespace FinalStates

variable {py : PyUnicode} {state : String} {texts : List (List Char)} {st : FinalStates}

theorem addColor_firsts (color : List Char) (colors : List (List Char)) :
    addColor color (firsts colors) = firsts (colors ++ [color]) := by
  rw [addColor]
  by_cases hmem : color ∈ colors
  · rw [if_pos (mem_firsts.mpr hmem), firsts_concat_known hmem]
  · rw [if_neg fun h => hmem (mem_firsts.mp h), firsts_concat_new hmem]

theorem Knows.verdict (h : st.Knows py state texts) : st.verdict = verdictOn py state texts := by
  have hnil : st.instanceColor.length = 0 ↔ sampledIn py texts = [] := by
    rw [h.sampled, List.length_eq_zero_iff]
    constructor
    · intro hfirsts
      refine List.eq_nil_iff_forall_not_mem.mpr fun color hmem => ?_
      have hfirst := mem_firsts.mpr hmem
      rw [hfirsts] at hfirst
      exact List.not_mem_nil hfirst
    · intro hnone
      rw [hnone]
      rfl
  have hsets : st.instanceColor.toFinset = st.finalInstanceColor.toFinset ↔
      Settled py state texts := by
    rw [h.sampled, h.reported, Finset.ext_iff]
    simp only [List.mem_toFinset, mem_firsts, Settled]
  rw [FinalStates.verdict, verdictOn]
  simp only [hnil, hsets]

/-- What reading a text makes of the variables, and when the loop is left. -/
theorem Knows.readText (h : st.Knows py state texts) (text : List Char) :
    (st.readText py state text).1.Knows py state (texts ++ [text]) ∧
      ((st.readText py state text).2 = true ↔ Evens py state texts text) ∧
      (st.readText py state text).1.samplesReadPerInstance = st.samplesReadPerInstance := by
  have hsampled := sampledIn_append py texts text
  have hreported := reportedIn_append py state texts text
  rw [FinalStates.readText]
  cases hcolor : sampledColor py text with
  | some color =>
      have hnone : reportedColor py state text = none := reportedColor_of_sampled hcolor
      rw [hcolor, Option.toList_some] at hsampled
      rw [hnone, Option.toList_none, List.append_nil] at hreported
      refine ⟨⟨?_, ?_⟩, iff_of_false Bool.false_ne_true ?_, rfl⟩
      · rw [hsampled, ← addColor_firsts, ← h.sampled]
      · rw [hreported, ← h.reported]
      · rintro ⟨color', hcolor', -⟩
        rw [hnone] at hcolor'
        cases hcolor'
  | none =>
      rw [hcolor, Option.toList_none, List.append_nil] at hsampled
      cases hfinal : reportedColor py state text with
      | none =>
          rw [hfinal, Option.toList_none, List.append_nil] at hreported
          refine ⟨⟨hsampled ▸ h.sampled, hreported ▸ h.reported⟩, ?_, rfl⟩
          refine iff_of_false Bool.false_ne_true ?_
          rintro ⟨color', hcolor', -⟩
          rw [hfinal] at hcolor'
          cases hcolor'
      | some color =>
          rw [hfinal, Option.toList_some] at hreported
          by_cases hmem : color ∈ reportedIn py state texts
          · have hknown : color ∈ st.finalInstanceColor := by
              rw [h.reported]
              exact mem_firsts.mpr hmem
            simp only [hknown, if_true]
            refine ⟨⟨hsampled ▸ h.sampled, ?_⟩, ?_, trivial⟩
            · rw [hreported, firsts_concat_known hmem, h.reported]
            · refine iff_of_false Bool.false_ne_true ?_
              rintro ⟨color', hcolor', hnew, -⟩
              rw [hfinal] at hcolor'
              exact hnew (Option.some.inj hcolor' ▸ hmem)
          · have hnew : color ∉ st.finalInstanceColor := by
              rw [h.reported]
              exact fun hin => hmem (mem_firsts.mp hin)
            simp only [hnew, if_false]
            refine ⟨⟨hsampled ▸ h.sampled, ?_⟩, ?_, trivial⟩
            · rw [hreported, firsts_concat_new hmem, h.reported]
            · rw [decide_eq_true_eq, h.sampled, h.reported, List.length_append,
                List.length_singleton, Evens, hfinal]
              constructor
              · intro heq
                exact ⟨color, rfl, hmem, heq⟩
              · rintro ⟨-, -, -, heq⟩
                exact heq

end FinalStates

/-! ## A run -/

section Run

variable {py : PyUnicode} {state : String} {text : List Char}
  {events : Nat → Arrival (Window Char)}

/-- Where `basic_check` passes, there is a first sample. -/
theorem exists_sampledColor (hbasic : basicCheck py text = .ok) :
    ∃ color, sampledColor py text = some color := by
  obtain ⟨m, color, hm, hcolor⟩ := exists_color_of_basicCheck hbasic (some 2)
  refine ⟨color, ?_⟩
  rw [sampledColor, instanceSample, hm, Option.bind_some, hcolor]

/-- The loop waits, and its variables say what was read. -/
structure FinalWaiting.Tracks (py : PyUnicode) (state : String) (text : List Char)
    (windows : List (Window Char)) (wait : FinalWaiting) : Prop where
  knows : wait.state.Knows py state (textsOf text windows)
  count : wait.state.samplesReadPerInstance = countedAs (instanceOf py state) text windows
  subString : wait.subString = instanceOf py state (lastText text windows)

/-- The limit is not reached, and the `break`, if it is there, is not either. -/
structure Open (py : PyUnicode) (state : String) (early : Bool) (text : List Char)
    (windows : List (Window Char)) : Prop where
  count : countedAs (instanceOf py state) text windows < 500
  never : early = true → NeverEvens py state (textsOf text windows)

/-- A turn below the limit. -/
theorem FinalStates.Knows.turn {texts : List (List Char)} {st : FinalStates}
    (h : st.Knows py state texts) (early : Bool) (hless : st.samplesReadPerInstance < 500)
    (t : List Char) :
    (early = true ∧ Evens py state texts t ∧
        st.turn py state early t = .inr (.ok (verdictOn py state (texts ++ [t])))) ∨
      (¬(early = true ∧ Evens py state texts t) ∧
        ∃ wait, st.turn py state early t = .inl wait ∧ wait.state.Knows py state (texts ++ [t]) ∧
          wait.state.samplesReadPerInstance = st.samplesReadPerInstance ∧
          wait.subString = instanceOf py state t) := by
  obtain ⟨hknows, hleave, hcount⟩ := h.readText t
  rw [FinalStates.turn, maxSamplesRead, if_pos hless]
  by_cases hboth : early = true ∧ Evens py state texts t
  · refine .inl ⟨hboth.1, hboth.2, ?_⟩
    simp only [hboth.1, hleave.mpr hboth.2, Bool.and_self, if_true, hknows.verdict]
  · have hstay : (early && (st.readText py state t).2) = false := by
      rw [Bool.eq_false_iff, ne_eq, Bool.and_eq_true, hleave]
      exact hboth
    refine .inr ⟨hboth, ⟨(st.readText py state t).1, instanceOf py state t⟩, ?_, hknows, hcount, rfl⟩
    simp only [hstay, Bool.false_eq_true, if_false]

/-- What a match counts is the next turn's state. -/
theorem FinalWaiting.Tracks.onMatch (hbasic : basicCheck py text = .ok)
    {windows : List (Window Char)} {wait : FinalWaiting} (h : wait.Tracks py state text windows)
    (early : Bool) (w : Window Char) :
    ∃ st, wait.onMatch py state early w = FinalStates.turn py state early w.text st ∧
      st.Knows py state (textsOf text windows) ∧
      st.samplesReadPerInstance = countedAs (instanceOf py state) text (windows ++ [w]) := by
  obtain ⟨first, hfirst⟩ := exists_sampledColor hbasic
  have hinstance : instanceOf py state text = some first := by
    rw [instanceOf, hfirst, Option.some_or]
  rw [FinalWaiting.onMatch, countedAs_append, ← h.count, ← h.subString, hinstance]
  cases hsub : wait.subString with
  | none => exact ⟨wait.state, rfl, h.knows, by simp⟩
  | some color =>
      by_cases hindex : w.index = 0
      · -- the instances begin with that of the first sample
        obtain ⟨rest, hcolors⟩ : ∃ rest, wait.state.instanceColor = first :: rest := by
          obtain ⟨rest, hrest⟩ :=
            firsts_prefix_append [first] ((windows.map Window.text).filterMap (sampledColor py))
          refine ⟨rest, ?_⟩
          rw [h.knows.sampled, sampledIn, textsOf, List.filterMap_cons_some hfirst]
          exact hrest.symm
        refine ⟨{ wait.state with samplesReadPerInstance :=
          if color = first then wait.state.samplesReadPerInstance + 1
          else wait.state.samplesReadPerInstance }, ?_, ⟨h.knows.sampled, h.knows.reported⟩, ?_⟩
        · simp only [hindex, if_true, hcolors]
        · by_cases hsame : color = first
          · simp [hindex, hsame]
          · simp [hsame]
      · refine ⟨wait.state, if_neg hindex, h.knows, ?_⟩
        rw [if_neg fun hand => hindex hand.1, add_zero]

theorem Open.of_append {early : Bool} {windows : List (Window Char)} {w : Window Char}
    (h : Open py state early text (windows ++ [w])) : Open py state early text windows := by
  obtain ⟨hcount, hnever⟩ := h
  rw [countedAs_append] at hcount
  rw [textsOf_append] at hnever
  exact ⟨by omega, fun hearly => ((neverEvens_append_iff _ _).mp (hnever hearly)).1⟩

theorem not_evens_of_sampled {texts : List (List Char)} {t color : List Char}
    (h : sampledColor py t = some color) : ¬Evens py state texts t := by
  rintro ⟨color', hcolor', -⟩
  rw [reportedColor_of_sampled h] at hcolor'
  cases hcolor'

/-- As long as this is so, the loop waits. -/
theorem Open.waits (hbasic : basicCheck py text = .ok) {early : Bool} {windows : List (Window Char)}
    (h : Open py state early text windows) :
    ∃ wait, (finalStates py state early text).after windows = .inl wait ∧
      wait.Tracks py state text windows := by
  induction windows using List.reverseRecOn with
  | nil =>
      obtain ⟨first, hfirst⟩ := exists_sampledColor hbasic
      have hknows : FinalStates.Knows py state [] ⟨[], [], 0⟩ := ⟨rfl, rfl⟩
      rcases hknows.turn early (Nat.succ_pos 499) text with
        ⟨-, hevens, -⟩ | ⟨-, wait, hturn, hknows', hcount, hsub⟩
      · exact absurd hevens (not_evens_of_sampled hfirst)
      · refine ⟨wait, ?_, hknows', hcount, hsub⟩
        rw [EventLoop.after_nil]
        simpa [finalStates, hbasic] using hturn
  | append_singleton windows w ih =>
      obtain ⟨wait, hwait, htracks⟩ := ih h.of_append
      obtain ⟨st, hmatch, hknows, hcount⟩ := htracks.onMatch hbasic early w
      have hnever := h.never
      rw [textsOf_append] at hnever
      have hless := h.count
      rw [← hcount] at hless
      rw [EventLoop.after_concat, hwait]
      rcases hknows.turn early hless w.text with
        ⟨hearly, hevens, -⟩ | ⟨-, wait', hturn, hknows', hcount', hsub⟩
      · exact absurd hevens ((neverEvens_append_iff _ _).mp (hnever hearly)).2
      · refine ⟨wait', hmatch.trans hturn, ?_, hcount'.trans hcount, ?_⟩
        · rw [textsOf_append]
          exact hknows'
        · rw [hsub, lastText, List.map_append, List.map_singleton, List.getLastD_concat]

/-- Where the stream has nothing more to give, the verdict is one on all texts. -/
theorem Open.returns (hbasic : basicCheck py text = .ok) {early : Bool}
    {windows : List (Window Char)} (h : Open py state early text windows) (hbegins : Begins events windows)
    (hstop : events windows.length = .timeout) :
    (finalStates py state early text).Returns events
      (.ok (verdictOn py state (textsOf text windows))) := by
  obtain ⟨wait, hwait, htracks⟩ := h.waits hbasic
  rw [← htracks.knows.verdict]
  exact .timeout hbegins hwait hstop

/-- Where the `break` is, the verdict is one on the texts so far. -/
theorem returns_at_break (hbasic : basicCheck py text = .ok) {windows : List (Window Char)}
    {w : Window Char} (hbegins : Begins events (windows ++ [w]))
    (hlimit : countedAs (instanceOf py state) text (windows ++ [w]) < 500)
    (hnever : NeverEvens py state (textsOf text windows))
    (hevens : Evens py state (textsOf text windows) w.text) :
    (finalStates py state true text).Returns events
      (.ok (verdictOn py state (textsOf text (windows ++ [w])))) := by
  have hopen : Open py state true text windows := by
    refine ⟨?_, fun _ => hnever⟩
    rw [countedAs_append] at hlimit
    omega
  obtain ⟨wait, hwait, htracks⟩ := hopen.waits hbasic
  obtain ⟨st, hmatch, hknows, hcount⟩ := htracks.onMatch hbasic true w
  rw [← hcount] at hlimit
  refine .of_after hbegins ?_
  rw [EventLoop.after_concat, hwait, textsOf_append]
  rcases hknows.turn true hlimit w.text with ⟨-, -, hturn⟩ | ⟨hnot, -⟩
  · exact hmatch.trans hturn
  · exact absurd ⟨rfl, hevens⟩ hnot

/-- A beginning of the texts is what some of the matches have read. -/
theorem prefix_textsOf {before : List (List Char)} {t : List Char} {windows : List (Window Char)}
    (h : before ++ [t] <+: textsOf text windows) :
    (before = [] ∧ t = text) ∨
      ∃ windows' w, windows' ++ [w] <+: windows ∧ before = textsOf text windows' ∧ t = w.text := by
  induction windows using List.reverseRecOn with
  | nil =>
      have hone : before ++ [t] <+: [] ++ [text] := h
      rcases List.prefix_concat_iff.mp hone with heq | hnone
      · obtain ⟨hbefore, hlast⟩ := List.append_inj' heq rfl
        exact .inl ⟨hbefore, List.singleton_inj.mp hlast⟩
      · exact absurd (List.prefix_nil.mp hnone) (by simp)
  | append_singleton windows w ih =>
      rw [textsOf_append] at h
      rcases List.prefix_concat_iff.mp h with heq | hbefore
      · obtain ⟨hbefore, hlast⟩ := List.append_inj' heq rfl
        exact .inr ⟨windows, w, List.prefix_rfl, hbefore, List.singleton_inj.mp hlast⟩
      · rcases ih hbefore with hfirst | ⟨windows', w', hinitial, hrest⟩
        · exact .inl hfirst
        · exact .inr ⟨windows', w', hinitial.trans (List.prefix_append _ _), hrest⟩

/-! ## The early exit -/

/-- The check answers as the same loop without the `break` does, and that is `OK` exactly
if there are instances and the same are sampled as reported. -/
def SameVerdict (check : EventLoop (Window Char) FinalWaiting (Except PyError ReturnCode))
    (py : PyUnicode) (state : String) (text : List Char) (events : Nat → Arrival (Window Char))
    (windows : List (Window Char)) : Prop :=
  (∀ code, check.Returns events code ↔ (finalStates py state false text).Returns events code) ∧
    (check.Returns events (.ok .ok) ↔
      sampledIn py (textsOf text windows) ≠ [] ∧ Settled py state (textsOf text windows))

/-- What is read behind some texts leaves open what they leave open, and where they are
settled brings no instance that is only sampled or only reported. -/
def UnsettledBehind (py : PyUnicode) (state : String) (before texts : List (List Char)) : Prop :=
  (Settled py state before → ∀ color, color ∉ sampledIn py before →
    (color ∈ sampledIn py texts ↔ color ∈ reportedIn py state texts)) ∧
  (¬Settled py state before → ¬Settled py state texts)

theorem unsettledBehind_iff {before texts : List (List Char)} (h : before <+: texts) :
    UnsettledBehind py state before texts ↔
      (Settled py state before ↔ Settled py state texts) := by
  have hsampled : ∀ color, color ∈ sampledIn py before → color ∈ sampledIn py texts := by
    obtain ⟨more, rfl⟩ := h
    intro color hmem
    rw [sampledIn, List.filterMap_append]
    exact List.mem_append_left _ hmem
  have hreported : ∀ color, color ∈ reportedIn py state before → color ∈ reportedIn py state texts := by
    obtain ⟨more, rfl⟩ := h
    intro color hmem
    rw [reportedIn, List.filterMap_append]
    exact List.mem_append_left _ hmem
  constructor
  · rintro ⟨hsettled, hopen⟩
    refine ⟨fun hbefore color => ?_, fun htexts => not_not.mp fun hbefore => hopen hbefore htexts⟩
    by_cases hmem : color ∈ sampledIn py before
    · exact iff_of_true (hsampled color hmem) (hreported color ((hbefore color).mp hmem))
    · exact hsettled hbefore color hmem
  · intro hiff
    exact ⟨fun hbefore color _ => hiff.mp hbefore color,
      fun hbefore htexts => hbefore (hiff.mpr htexts)⟩

theorem verdictOn_eq_iff {before texts : List (List Char)} (h : before <+: texts)
    (hsome : sampledIn py before ≠ []) :
    verdictOn py state before = verdictOn py state texts ↔
      (Settled py state before ↔ Settled py state texts) := by
  have hmore : sampledIn py texts ≠ [] := by
    obtain ⟨more, rfl⟩ := h
    rw [sampledIn, List.filterMap_append]
    exact List.append_ne_nil_of_left_ne_nil hsome _
  rw [verdictOn, verdictOn, if_neg hsome, if_neg hmore]
  by_cases hbefore : Settled py state before
  · by_cases htexts : Settled py state texts
    · simp [hbefore, htexts]
    · simp [hbefore, htexts]
  · by_cases htexts : Settled py state texts
    · simp [hbefore, htexts]
    · simp [hbefore, htexts]

theorem verdictOn_eq_ok_iff (texts : List (List Char)) :
    verdictOn py state texts = .ok ↔ sampledIn py texts ≠ [] ∧ Settled py state texts := by
  rw [verdictOn]
  by_cases hnil : sampledIn py texts = []
  · simp [hnil]
  · by_cases hsettled : Settled py state texts
    · simp [hnil, hsettled]
    · simp [hnil, hsettled]

/-- Two loops that both return give the same codes, if they return the same code. -/
theorem sameVerdict_iff {check : EventLoop (Window Char) FinalWaiting (Except PyError ReturnCode)}
    {windows : List (Window Char)} {code : ReturnCode} (hcheck : check.Returns events (.ok code))
    (hwhole : (finalStates py state false text).Returns events
      (.ok (verdictOn py state (textsOf text windows)))) :
    SameVerdict check py state text events windows ↔
      code = verdictOn py state (textsOf text windows) := by
  constructor
  · rintro ⟨hsame, -⟩
    exact Except.ok.inj (((hsame _).mp hcheck).unique hwhole)
  · rintro rfl
    refine ⟨fun code => ?_, ?_⟩
    · constructor
      · intro h
        rwa [h.unique hcheck]
      · intro h
        rwa [h.unique hwhole]
    · rw [← verdictOn_eq_ok_iff]
      constructor
      · intro h
        exact Except.ok.inj (hcheck.unique h)
      · intro h
        rwa [← h]

/-- The `break` changes nothing, exactly if what it does not read changes nothing. -/
theorem sameVerdict_finalStates_iff (hbasic : basicCheck py text = .ok)
    {windows : List (Window Char)} (hbegins : Begins events windows)
    (hstop : events windows.length = .timeout)
    (hlimit : countedAs (instanceOf py state) text windows < 500) :
    SameVerdict (finalStates py state true text) py state text events windows ↔
      ∀ before t, before ++ [t] <+: textsOf text windows → NeverEvens py state before →
        Evens py state before t →
          UnsettledBehind py state (before ++ [t]) (textsOf text windows) := by
  have hwhole : Open py state false text windows := ⟨hlimit, fun h => absurd h Bool.false_ne_true⟩
  by_cases hnever : NeverEvens py state (textsOf text windows)
  · have hearly : Open py state true text windows := ⟨hlimit, fun _ => hnever⟩
    refine iff_of_true ((sameVerdict_iff (hearly.returns hbasic hbegins hstop)
      (hwhole.returns hbasic hbegins hstop)).mpr rfl) ?_
    intro before t hinitial _ hevens
    exact absurd hevens (hnever before t hinitial)
  · obtain ⟨before, t, hinitial, hbefore, hevens⟩ := exists_first_evens hnever
    -- there is one first text with which the lengths are equal
    have hunique : (∀ before t, before ++ [t] <+: textsOf text windows → NeverEvens py state before →
        Evens py state before t →
          UnsettledBehind py state (before ++ [t]) (textsOf text windows)) ↔
        UnsettledBehind py state (before ++ [t]) (textsOf text windows) := by
      refine ⟨fun h => h before t hinitial hbefore hevens,
        fun h before' t' hinitial' hbefore' hevens' => ?_⟩
      have hle : before' ++ [t'] <+: before ++ [t] ∨ before ++ [t] <+: before' ++ [t'] :=
        List.prefix_or_prefix_of_prefix hinitial' hinitial
      rcases hle with hle | hle
      · rcases List.prefix_concat_iff.mp hle with heq | hshort
        · rwa [heq]
        · exact absurd hevens' (hbefore before' t' hshort)
      · rcases List.prefix_concat_iff.mp hle with heq | hshort
        · rwa [← heq]
        · exact absurd hevens (hbefore' before t hshort)
    rw [hunique, unsettledBehind_iff hinitial]
    rcases prefix_textsOf hinitial with ⟨-, rfl⟩ | ⟨windows', w, hle, rfl, rfl⟩
    · obtain ⟨first, hfirst⟩ := exists_sampledColor hbasic
      exact absurd hevens (not_evens_of_sampled hfirst)
    · have hsome : sampledIn py (textsOf text (windows' ++ [w])) ≠ [] := by
        obtain ⟨first, hfirst⟩ := exists_sampledColor hbasic
        rw [sampledIn, textsOf, List.filterMap_cons_some hfirst]
        exact List.cons_ne_nil _ _
      have hfew : countedAs (instanceOf py state) text (windows' ++ [w]) < 500 := by
        obtain ⟨more, rfl⟩ := hle
        refine lt_of_le_of_lt ?_ hlimit
        exact countedAs_le_of_initial _ _ (List.prefix_append _ _)
      rw [← textsOf_append, ← verdictOn_eq_iff (textsOf_append text windows' w ▸ hinitial) hsome]
      exact sameVerdict_iff (returns_at_break hbasic (hbegins.of_initial hle) hfew hbefore hevens)
        (hwhole.returns hbasic hbegins hstop)

/-- **When the early exit changes nothing**, for both checks: where the lengths are equal
for the first time, what comes behind leaves the verdict as it is. -/
theorem early_exit_iff (hbasic : basicCheck py text = .ok) {windows : List (Window Char)}
    (hbegins : Begins events windows) (hstop : events windows.length = .timeout) :
    (countedAs (instanceOf py noWriters) text windows < 500 →
      (SameVerdict (testUnregistering py text) py noWriters text events windows ↔
        ∀ before t, before ++ [t] <+: textsOf text windows → NeverEvens py noWriters before →
          Evens py noWriters before t →
            UnsettledBehind py noWriters (before ++ [t]) (textsOf text windows))) ∧
    (countedAs (instanceOf py disposed) text windows < 500 →
      (SameVerdict (testDisposing py text) py disposed text events windows ↔
        ∀ before t, before ++ [t] <+: textsOf text windows → NeverEvens py disposed before →
          Evens py disposed before t →
            UnsettledBehind py disposed (before ++ [t]) (textsOf text windows))) :=
  ⟨sameVerdict_finalStates_iff hbasic hbegins hstop,
    sameVerdict_finalStates_iff hbasic hbegins hstop⟩

end Run

/-! ## An instance that comes late -/

/-- The red instance loses its writers, and only then a blue sample comes. -/
def blueComesLate : List (Window Char) :=
  [⟨0, [], "Square RED NOT_ALIVE_NO_WRITERS_INSTANCE_STATE\r\n".toList⟩,
    ⟨0, [], "Square BLUE 001 001 [1]\r\n".toList⟩]

/-- They are read behind a red sample, and nothing comes any more. -/
def blueComesLateStream : Nat → Arrival (Window Char) := EventLoop.streamOf blueComesLate .timeout

theorem early_exit_iff_blueComesLate :
    (countedAs (instanceOf .ascii noWriters) (sampleMatch "RED" 1).text blueComesLate < 500 →
      (SameVerdict (testUnregistering .ascii (sampleMatch "RED" 1).text) .ascii noWriters
          (sampleMatch "RED" 1).text blueComesLateStream blueComesLate ↔
        ∀ before t, before ++ [t] <+: textsOf (sampleMatch "RED" 1).text blueComesLate →
          NeverEvens .ascii noWriters before → Evens .ascii noWriters before t →
            UnsettledBehind .ascii noWriters (before ++ [t])
              (textsOf (sampleMatch "RED" 1).text blueComesLate))) ∧
    (countedAs (instanceOf .ascii disposed) (sampleMatch "RED" 1).text blueComesLate < 500 →
      (SameVerdict (testDisposing .ascii (sampleMatch "RED" 1).text) .ascii disposed
          (sampleMatch "RED" 1).text blueComesLateStream blueComesLate ↔
        ∀ before t, before ++ [t] <+: textsOf (sampleMatch "RED" 1).text blueComesLate →
          NeverEvens .ascii disposed before → Evens .ascii disposed before t →
            UnsettledBehind .ascii disposed (before ++ [t])
              (textsOf (sampleMatch "RED" 1).text blueComesLate))) :=
  early_exit_iff basicCheck_sampleMatch_red (EventLoop.begins_streamOf _ _)
    (EventLoop.streamOf_length _ _)

/-- The check passes, and the blue instance is never unregistered. -/
theorem early_exit_differs :
    ¬ ∀ (py : PyUnicode) (text : List Char) (events : Nat → Arrival (Window Char))
      (windows : List (Window Char)), basicCheck py text = .ok → Begins events windows →
        events windows.length = .timeout →
        (countedAs (instanceOf py noWriters) text windows < 500 →
          SameVerdict (testUnregistering py text) py noWriters text events windows) ∧
        (countedAs (instanceOf py disposed) text windows < 500 →
          SameVerdict (testDisposing py text) py disposed text events windows) := by
  intro hall
  have hbegins : Begins blueComesLateStream blueComesLate := EventLoop.begins_streamOf _ _
  have hstop : blueComesLateStream blueComesLate.length = .timeout := EventLoop.streamOf_length _ _
  have hlimit : countedAs (instanceOf .ascii noWriters) (sampleMatch "RED" 1).text blueComesLate <
      500 := by
    decide +kernel
  obtain ⟨hsame, -⟩ := hall .ascii (sampleMatch "RED" 1).text blueComesLateStream blueComesLate
    basicCheck_sampleMatch_red hbegins hstop
  have hbehind := (sameVerdict_finalStates_iff basicCheck_sampleMatch_red hbegins hstop hlimit).mp
    (hsame hlimit) [(sampleMatch "RED" 1).text]
      "Square RED NOT_ALIVE_NO_WRITERS_INSTANCE_STATE\r\n".toList ⟨_, rfl⟩ ?_ ?_
  · -- the blue instance is new behind the exit, and only sampled
    have hblue := hbehind.1 (by decide +kernel) "BLUE".toList (by decide +kernel)
    exact absurd (hblue.mp (by decide +kernel)) (by decide +kernel)
  · intro before t hinitial hevens
    obtain ⟨hbefore, rfl⟩ : before = [] ∧ t = (sampleMatch "RED" 1).text := by
      have hone : before ++ [t] <+: [] ++ [(sampleMatch "RED" 1).text] := hinitial
      rcases List.prefix_concat_iff.mp hone with heq | hnone
      · obtain ⟨hbefore, hlast⟩ := List.append_inj' heq rfl
        exact ⟨hbefore, List.singleton_inj.mp hlast⟩
      · exact absurd (List.prefix_nil.mp hnone) (by simp)
    obtain ⟨first, hfirst⟩ := exists_sampledColor basicCheck_sampleMatch_red
    exact not_evens_of_sampled hfirst hevens
  · exact ⟨"RED".toList, by decide +kernel, by decide +kernel, by decide +kernel⟩

end DdsRtps.Harness
