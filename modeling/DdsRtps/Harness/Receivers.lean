/-
# `DdsRtps.Harness.Receivers` — does a subscriber receive from one publisher

`test_size_receivers` and `test_color_receivers` of test_suite_functions.py.
Both read a value of one sample after the other, its size or its color, and
answer `RECEIVING_FROM_BOTH` as soon as the values cannot be those of one
publisher.  They differ in what is kept for that (`ReceiverCheck`).

`RECEIVING_FROM_ONE` is the answer to everything else: to `MAX_SAMPLES_READ`
samples, but also to a subscriber that falls silent and to a `[digits]` that is
no sample; and the last of the samples is not looked at
(`receivingFromOne_evidence_iff`).
-/
import DdsRtps.Harness.SampleChecks
import DdsRtps.Lib.EventLoop
import DdsRtps.Lib.PyError

namespace DdsRtps.Harness

open Regex
open EventLoop (Begins)

/-! ## The code -/

/-- `\w\s+(\w+)\s+[0-9]+ [0-9]+ \[[0-9]+\]`, of `test_color_receivers`. -/
def colorSample (py : PyUnicode) : Regex Char :=
  samplePattern py (.one py.word) (lit [' ']) (some 1) none

/-- The color that `test_color_receivers` reads. -/
def colorOf (py : PyUnicode) (text : List Char) : Option (List Char) :=
  (search (colorSample py) text).bind fun m => m.group 1

/-- What a check does: the value it reads in a text, what it answers if there is none
in the first, what it keeps of the first value and of each that comes; a value that
leaves nothing to keep is one of another publisher. -/
structure ReceiverCheck (κ σ : Type) where
  read : List Char → Option κ
  unread : Except PyError ReturnCode
  first : κ → σ
  judge : σ → κ → Option σ

/-- The loop waits in an `expect`. -/
structure Receiving (σ : Type) where
  samplesRead : Nat
  kept : σ

namespace ReceiverCheck

variable {κ σ : Type} (check : ReceiverCheck κ σ)

/-- The condition of the loop is tested, and the value is judged. -/
def turn (subString : Option κ) (samplesRead : Nat) (kept : σ) :
    Receiving σ ⊕ Except PyError ReturnCode :=
  match subString with
  | some value =>
      if samplesRead < maxSamplesRead then
        match check.judge kept value with
        | some kept => .inl ⟨samplesRead, kept⟩
        | none => .inr (.ok .receivingFromBoth)
      else .inr (.ok .receivingFromOne)
  | none => .inr (.ok .receivingFromOne)

/-- The check: `text` is what the last `expect` of `run_subscriber_shape_main` has read. -/
def eventLoop (py : PyUnicode) (text : List Char) :
    EventLoop (Window Char) (Receiving σ) (Except PyError ReturnCode) where
  start :=
    if basicCheck py text ≠ .ok then .inr (.ok (basicCheck py text))
    else
      match check.read text with
      | some value => check.turn (some value) 0 (check.first value)
      | none => .inr check.unread
  onInput w st := check.turn (check.read w.text) (st.samplesRead + 1) st.kept
  onTimeout _ := .ok .receivingFromOne
  onEof _ := .ok .dataNotReceived

end ReceiverCheck

/-- What `test_size_receivers` keeps. -/
structure SizeKept where
  firstSampleSize : Nat
  ignoreFirstSamples : Bool
deriving DecidableEq, Repr

/-- `test_size_receivers`.  Its pattern is that of `basic_check`. -/
def testSizeReceivers (py : PyUnicode) : ReceiverCheck Nat SizeKept where
  read := basicSize py
  unread := .ok .dataNotReceived
  first size := ⟨size, true⟩
  judge s size :=
    if size ≠ s.firstSampleSize then
      if s.ignoreFirstSamples then some ⟨size, false⟩ else none
    else some s

/-- `test_color_receivers`. -/
def testColorReceivers (py : PyUnicode) : ReceiverCheck (List Char) (List Char) where
  read := colorOf py
  -- `sub_string.group(1)` of `None`
  unread := .error .attributeError
  first color := color
  judge first color := if color ≠ first then none else some first

/-! ## The first sample -/

/-- Where `basic_check` passes, the size is read. -/
theorem exists_basicSize {py : PyUnicode} {text : List Char} (hbasic : basicCheck py text = .ok) :
    ∃ size, basicSize py text = some size := by
  cases hsize : basicSize py text with
  | none =>
      rw [basicCheck, hsize] at hbasic
      cases hbasic
  | some size => exact ⟨size, rfl⟩

/-- Where `basic_check` passes, the color is read. -/
theorem exists_colorOf {py : PyUnicode} {text : List Char} (hbasic : basicCheck py text = .ok) :
    ∃ color, colorOf py text = some color := by
  obtain ⟨m, w, ws, d, f, hm, hw, hcs⟩ := exists_search_of_basicCheck hbasic (.one py.word)
    (lit [' ']) (some 1) none (fun c hc => ⟨[], c, hc, rfl, rfl⟩) (parse_lit_iff.mpr ⟨rfl, rfl⟩)
    fun s cs hs => by
      obtain ⟨rfl, rfl⟩ := parse_lit_iff.mp hs
      exact ⟨⟨by simp, by simpa using py.space_blank⟩, rfl⟩
  obtain ⟨c, -, -, rfl⟩ := hw
  refine ⟨f.color, ?_⟩
  rw [colorOf, colorSample, hm, Option.bind_some, Found.group, hcs]
  rfl

theorem ReceiverCheck.turn_eq_inr {κ σ : Type} {check : ReceiverCheck κ σ}
    {subString : Option κ} {samplesRead : Nat} {kept : σ} {r : Except PyError ReturnCode}
    (h : check.turn subString samplesRead kept = .inr r) : ∃ code, r = .ok code := by
  cases subString with
  | none => exact ⟨_, (Sum.inr.inj h).symm⟩
  | some value =>
      rw [turn] at h
      split at h
      · split at h
        · cases h
        · exact ⟨_, (Sum.inr.inj h).symm⟩
      · exact ⟨_, (Sum.inr.inj h).symm⟩

/-- A check returns a code, if the value of a well-formed first sample is read. -/
theorem ReceiverCheck.returns_ok {κ σ : Type} {check : ReceiverCheck κ σ} {py : PyUnicode}
    {text : List Char} {events : Nat → Arrival (Window Char)} {r : Except PyError ReturnCode}
    (hread : basicCheck py text = .ok → ∃ value, check.read text = some value)
    (h : (check.eventLoop py text).Returns events r) : ∃ code, r = .ok code := by
  refine h.post (fun _ => True) (fun r => ∃ code, r = .ok code) (fun _ _ => trivial)
    (fun r hstart => ?_) (fun _ _ _ _ _ => trivial) (fun w st r _ hturn => turn_eq_inr hturn)
    (fun _ _ => ⟨_, rfl⟩) (fun _ _ => ⟨_, rfl⟩)
  by_cases hbasic : basicCheck py text = .ok
  · obtain ⟨value, hvalue⟩ := hread hbasic
    simp only [eventLoop, hbasic, ne_eq, not_true_eq_false, if_false, hvalue] at hstart
    exact turn_eq_inr hstart
  · simp only [eventLoop, if_pos hbasic] at hstart
    exact ⟨_, (Sum.inr.inj hstart).symm⟩

/-- The `AttributeError` of `test_color_receivers` is never raised. -/
theorem testColorReceivers_not_error {py : PyUnicode} {text : List Char}
    {events : Nat → Arrival (Window Char)} (e : PyError) :
    ¬((testColorReceivers py).eventLoop py text).Returns events (.error e) := by
  intro h
  obtain ⟨code, hcode⟩ := ReceiverCheck.returns_ok exists_colorOf h
  cases hcode

/-! ## What is kept -/

namespace ReceiverCheck

variable {κ σ : Type} (check : ReceiverCheck κ σ)

/-- One more text: it has to be a sample, and one of the same publisher. -/
def follow (s : σ) (text : List Char) : Option σ := (check.read text).bind (check.judge s)

/-- What is kept of some texts, if they are all samples of one publisher. -/
def source (text : List Char) (windows : List (Window Char)) : Option σ :=
  (check.read text).bind fun value =>
    (textsOf text windows).foldlM check.follow (check.first value)

theorem source_concat (text : List Char) (windows : List (Window Char)) (w : Window Char) :
    check.source text (windows ++ [w]) =
      (check.source text windows).bind fun s => check.follow s w.text := by
  rw [source, source]
  cases check.read text with
  | none => rfl
  | some value =>
      rw [Option.bind_some, Option.bind_some, textsOf, List.map_append, ← List.cons_append,
        List.foldlM_append, List.map_singleton, textsOf]
      refine congrArg _ (funext fun s => ?_)
      rw [List.foldlM_cons]
      cases check.follow s w.text with
      | none => rfl
      | some s => rfl

theorem source_isSome_of_initial {text : List Char} {windows windows' : List (Window Char)}
    (h : windows <+: windows') (hsome : (check.source text windows').isSome = true) :
    (check.source text windows).isSome = true := by
  obtain ⟨more, rfl⟩ := h
  induction more using List.reverseRecOn with
  | nil => rwa [List.append_nil] at hsome
  | append_singleton more w ih =>
      rw [← List.append_assoc, source_concat] at hsome
      exact ih (Option.isSome_of_isSome_bind hsome)

/-! ## The loop -/

variable {check} {py : PyUnicode} {text : List Char} {events : Nat → Arrival (Window Char)}

theorem turn_eq_inl_iff {subString : Option κ} {samplesRead : Nat} {kept : σ} {st : Receiving σ} :
    check.turn subString samplesRead kept = .inl st ↔
      samplesRead < 500 ∧ subString.bind (check.judge kept) = some st.kept ∧
        st.samplesRead = samplesRead := by
  cases subString with
  | none => simp [turn]
  | some value =>
      rw [turn, Option.bind_some, maxSamplesRead]
      by_cases hless : samplesRead < 500
      · rw [if_pos hless]
        cases check.judge kept value with
        | none => simp
        | some kept' =>
            obtain ⟨samplesRead', kept''⟩ := st
            simp only [hless, Sum.inl.injEq, Receiving.mk.injEq, Option.some.injEq, true_and]
            exact ⟨fun h => ⟨h.2, h.1.symm⟩, fun h => ⟨h.2.symm, h.1⟩⟩
      · rw [if_neg hless]
        simp [hless]

/-- What makes the loop return `RECEIVING_FROM_ONE`. -/
theorem turn_eq_receivingFromOne_iff {subString : Option κ} {samplesRead : Nat} {kept : σ} :
    check.turn subString samplesRead kept = .inr (.ok .receivingFromOne) ↔
      subString = none ∨ 500 ≤ samplesRead := by
  cases subString with
  | none => simp [turn]
  | some value =>
      rw [turn, maxSamplesRead]
      by_cases hless : samplesRead < 500
      · rw [if_pos hless]
        cases check.judge kept value with
        | none => simp [hless]
        | some kept => simp [hless]
      · rw [if_neg hless]
        simpa using not_lt.mp hless

/-- The loop waits as long as all texts are samples of one publisher, and fewer than
`MAX_SAMPLES_READ` are behind the first. -/
theorem after_eq_inl_iff (hbasic : basicCheck py text = .ok) {windows : List (Window Char)}
    {st : Receiving σ} :
    (check.eventLoop py text).after windows = .inl st ↔
      windows.length < 500 ∧ check.source text windows = some st.kept ∧
        st.samplesRead = windows.length := by
  induction windows using List.reverseRecOn generalizing st with
  | nil =>
      rw [EventLoop.after_nil, source, textsOf, List.map_nil]
      simp only [eventLoop, hbasic, ne_eq, not_true_eq_false, if_false]
      cases hread : check.read text with
      | none => simp
      | some value =>
          simp only [turn_eq_inl_iff, Option.bind_some, List.foldlM_cons, List.foldlM_nil, follow,
            hread, List.length_nil]
          cases check.judge (check.first value) value with
          | none => rfl
          | some s => rfl
  | append_singleton windows w ih =>
      rw [EventLoop.after_concat, source_concat, List.length_append, List.length_singleton]
      cases hafter : (check.eventLoop py text).after windows with
      | inl before =>
          obtain ⟨hless, hsource, hread⟩ := ih.mp hafter
          simp only [hsource, Option.bind_some, follow]
          rw [← hread]
          exact turn_eq_inl_iff
      | inr code =>
          refine iff_of_false (by simp) ?_
          rintro ⟨hless, hsource, -⟩
          obtain ⟨s, hs, -⟩ := Option.bind_eq_some_iff.mp hsource
          have hwaits : (check.eventLoop py text).after windows = .inl ⟨windows.length, s⟩ :=
            ih.mpr ⟨by omega, hs, rfl⟩
          rw [hafter] at hwaits
          cases hwaits

/-! ## Evidence -/

/-- 500 samples are read behind the first, and they are all of one publisher. -/
def Evidence (text : List Char) (events : Nat → Arrival (Window Char))
    (single : List (List Char) → Prop) : Prop :=
  ∃ windows, Begins events windows ∧ windows.length = 500 ∧ single (textsOf text windows)

variable (check) in
/-- Before that, and with nothing but samples of one publisher so far, nothing comes
any more, or a match that is no sample; or the last of the 500 is one of another
publisher. -/
def Unbacked (text : List Char) (events : Nat → Arrival (Window Char))
    (single : List (List Char) → Prop) : Prop :=
  ∃ windows, Begins events windows ∧ windows.length < 500 ∧ single (textsOf text windows) ∧
    (events windows.length = .timeout ∨
      ∃ w, events windows.length = .input w ∧
        (check.read w.text = none ∨
          windows.length = 499 ∧ ¬single (textsOf text (windows ++ [w]))))

variable {single : List (List Char) → Prop}

theorem Unbacked.receivingFromOne (hbasic : basicCheck py text = .ok)
    (hsingle : ∀ windows, single (textsOf text windows) ↔ (check.source text windows).isSome = true)
    (h : check.Unbacked text events single) :
    (check.eventLoop py text).Returns events (.ok .receivingFromOne) := by
  obtain ⟨windows, hbegins, hless, hone, hnext⟩ := h
  obtain ⟨s, hs⟩ := Option.isSome_iff_exists.mp ((hsingle windows).mp hone)
  have hwaits : (check.eventLoop py text).after windows = .inl ⟨windows.length, s⟩ :=
    (after_eq_inl_iff hbasic).mpr ⟨hless, hs, rfl⟩
  rcases hnext with hstop | ⟨w, hw, hlast⟩
  · exact .timeout hbegins hwaits hstop
  · refine .of_after (EventLoop.begins_concat_iff.mpr ⟨hbegins, hw⟩) ?_
    rw [EventLoop.after_concat, hwaits]
    refine turn_eq_receivingFromOne_iff.mpr ?_
    rcases hlast with hnone | ⟨hlength, -⟩
    · exact .inl hnone
    · exact .inr (by simp [hlength])

theorem Unbacked.not_evidence
    (hsingle : ∀ windows, single (textsOf text windows) ↔ (check.source text windows).isSome = true)
    (h : check.Unbacked text events single) : ¬Evidence text events single := by
  rintro ⟨windows', hbegins', hlength', hone'⟩
  obtain ⟨windows, hbegins, hless, -, hstop | ⟨w, hw, hlast⟩⟩ := h
  · have hle := (hbegins.prefix_of_stop hbegins' (by simp [hstop])).length_le
    omega
  · have hmore := EventLoop.begins_concat_iff.mpr ⟨hbegins, hw⟩
    have hlength : (windows ++ [w]).length = windows.length + 1 := by simp
    have hle : windows ++ [w] <+: windows' := hmore.prefix_of_le hbegins' (by omega)
    rcases hlast with hnone | ⟨hlast, hother⟩
    · have hsome := check.source_isSome_of_initial hle ((hsingle windows').mp hone')
      obtain ⟨s, hs⟩ := Option.isSome_iff_exists.mp hsome
      rw [source_concat] at hs
      obtain ⟨s', -, hs'⟩ := Option.bind_eq_some_iff.mp hs
      rw [follow, hnone] at hs'
      cases hs'
    · rw [hle.eq_of_length (by omega)] at hother
      exact hother hone'

theorem evidence_or_unbacked (hbasic : basicCheck py text = .ok)
    (hunread : check.unread ≠ .ok .receivingFromOne)
    (hsingle : ∀ windows, single (textsOf text windows) ↔ (check.source text windows).isSome = true)
    (h : (check.eventLoop py text).Returns events (.ok .receivingFromOne)) :
    Evidence text events single ∨ check.Unbacked text events single := by
  have hwaits : ∀ {windows : List (Window Char)} {st : Receiving σ},
      (check.eventLoop py text).after windows = .inl st →
      windows.length < 500 ∧ single (textsOf text windows) ∧ st.samplesRead = windows.length := by
    intro windows st hafter
    obtain ⟨hless, hs, hread⟩ := (after_eq_inl_iff hbasic).mp hafter
    exact ⟨hless, (hsingle windows).mpr (by rw [hs]; rfl), hread⟩
  generalize hcode : (Except.ok .receivingFromOne : Except PyError ReturnCode) = code at h
  cases h with
  | left hbegins hleaves =>
      subst hcode
      rcases hleaves with ⟨rfl, hstart⟩ | ⟨windows, w, st, rfl, hafter, hturn⟩
      · simp only [eventLoop, hbasic, ne_eq, not_true_eq_false, if_false] at hstart
        cases hread : check.read text with
        | none =>
            rw [hread] at hstart
            exact absurd (Sum.inr.inj hstart) hunread
        | some value =>
            rw [hread] at hstart
            rcases turn_eq_receivingFromOne_iff.mp hstart with hnone | hle
            · cases hnone
            · omega
      · obtain ⟨hless, hone, hread⟩ := hwaits hafter
        obtain ⟨hbegins, hw⟩ := EventLoop.begins_concat_iff.mp hbegins
        rcases turn_eq_receivingFromOne_iff.mp hturn with hnone | hle
        · exact .inr ⟨windows, hbegins, hless, hone, .inr ⟨w, hw, .inl hnone⟩⟩
        · have hlast : windows.length = 499 := by omega
          by_cases hall : single (textsOf text (windows ++ [w]))
          · exact .inl ⟨windows ++ [w], EventLoop.begins_concat_iff.mpr ⟨hbegins, hw⟩,
              by simp [hlast], hall⟩
          · exact .inr ⟨windows, hbegins, hless, hone, .inr ⟨w, hw, .inr ⟨hlast, hall⟩⟩⟩
  | timeout hbegins hafter hstop =>
      obtain ⟨hless, hone, -⟩ := hwaits hafter
      exact .inr ⟨_, hbegins, hless, hone, .inl hstop⟩
  | eof hbegins hafter hstop =>
      have hcontra : ReturnCode.receivingFromOne = .dataNotReceived := Except.ok.inj hcode
      cases hcontra

theorem evidence_iff (hbasic : basicCheck py text = .ok)
    (hunread : check.unread ≠ .ok .receivingFromOne)
    (hsingle : ∀ windows, single (textsOf text windows) ↔
      (check.source text windows).isSome = true) :
    ((check.eventLoop py text).Returns events (.ok .receivingFromOne) →
      Evidence text events single) ↔ ¬check.Unbacked text events single := by
  constructor
  · intro h hunbacked
    exact hunbacked.not_evidence hsingle (h (hunbacked.receivingFromOne hbasic hsingle))
  · intro hunbacked hreturns
    exact (evidence_or_unbacked hbasic hunread hsingle hreturns).resolve_right hunbacked

end ReceiverCheck

/-! ## Colors and sizes -/

/-- All texts are samples of one color. -/
def OneColor (py : PyUnicode) (texts : List (List Char)) : Prop :=
  ∃ color, ∀ t ∈ texts, colorOf py t = some color

/-- How often a size is not that of the sample before. -/
def sizeChanges (sizes : List Nat) : Nat :=
  (sizes.zip sizes.tail).countP fun (a, b) => a ≠ b

/-- All texts are samples, and their size changes once at most. -/
def OneSizeChange (py : PyUnicode) (texts : List (List Char)) : Prop :=
  ∃ sizes : List Nat, texts.map (basicSize py) = sizes.map some ∧ sizeChanges sizes ≤ 1

section Sources

variable {py : PyUnicode} {text : List Char}

theorem foldlM_follow_color_iff (first : List Char) (texts : List (List Char)) :
    (texts.foldlM (testColorReceivers py).follow first).isSome = true ↔
      ∀ t ∈ texts, colorOf py t = some first := by
  induction texts with
  | nil => simp
  | cons t texts ih =>
      rw [List.foldlM_cons, List.forall_mem_cons, ← ih, ReceiverCheck.follow]
      simp only [testColorReceivers]
      cases colorOf py t with
      | none => simp
      | some color =>
          by_cases hcolor : color = first
          · simp [hcolor]
          · simp [hcolor]

theorem oneColor_iff (windows : List (Window Char)) :
    OneColor py (textsOf text windows) ↔
      ((testColorReceivers py).source text windows).isSome = true := by
  rw [ReceiverCheck.source, OneColor]
  show _ ↔ ((colorOf py text).bind _).isSome = true
  cases hread : colorOf py text with
  | none =>
      refine iff_of_false ?_ Bool.false_ne_true
      rintro ⟨color, hall⟩
      have htext := hall text List.mem_cons_self
      rw [hread] at htext
      cases htext
  | some first =>
      rw [Option.bind_some]
      refine Iff.trans ?_ (foldlM_follow_color_iff first (textsOf text windows)).symm
      constructor
      · rintro ⟨color, hall⟩
        have htext := hall text List.mem_cons_self
        rw [hread] at htext
        obtain rfl := Option.some.inj htext
        exact hall
      · exact fun hall => ⟨first, hall⟩

theorem sizeChanges_cons_cons (a b : Nat) (sizes : List Nat) :
    sizeChanges (a :: b :: sizes) = sizeChanges (b :: sizes) + if a ≠ b then 1 else 0 := by
  rw [sizeChanges, List.tail_cons, List.zip_cons_cons, List.countP_cons]
  simp [sizeChanges]

theorem foldlM_judge_size_iff (a : Nat) (ignore : Bool) (sizes : List Nat) :
    (sizes.foldlM (testSizeReceivers py).judge ⟨a, ignore⟩).isSome = true ↔
      sizeChanges (a :: sizes) ≤ if ignore then 1 else 0 := by
  induction sizes generalizing a ignore with
  | nil => simp [sizeChanges]
  | cons b sizes ih =>
      rw [List.foldlM_cons, sizeChanges_cons_cons]
      by_cases hsame : b = a
      · subst hsame
        have hjudge : (testSizeReceivers py).judge ⟨b, ignore⟩ b = some ⟨b, ignore⟩ := by
          simp [testSizeReceivers]
        rw [hjudge]
        simpa using ih b ignore
      · rw [if_pos (Ne.symm hsame)]
        cases ignore with
        | false =>
            have hjudge : (testSizeReceivers py).judge ⟨a, false⟩ b = none := by
              simp [testSizeReceivers, hsame]
            rw [hjudge]
            simp
        | true =>
            have hjudge : (testSizeReceivers py).judge ⟨a, true⟩ b = some ⟨b, false⟩ := by
              simp [testSizeReceivers, hsame]
            rw [hjudge]
            simpa using ih b false

/-- Texts that are all samples are followed by their sizes. -/
theorem foldlM_follow_size_iff (s : SizeKept) (texts : List (List Char)) :
    (texts.foldlM (testSizeReceivers py).follow s).isSome = true ↔
      ∃ sizes : List Nat, texts.map (basicSize py) = sizes.map some ∧
        (sizes.foldlM (testSizeReceivers py).judge s).isSome = true := by
  induction texts generalizing s with
  | nil => exact iff_of_true rfl ⟨[], rfl, rfl⟩
  | cons t texts ih =>
      rw [List.foldlM_cons, ReceiverCheck.follow, List.map_cons]
      show (((basicSize py t).bind _).bind _).isSome = true ↔ _
      cases hread : basicSize py t with
      | none =>
          refine iff_of_false Bool.false_ne_true ?_
          rintro ⟨sizes, hsizes, -⟩
          cases sizes with
          | nil => cases hsizes
          | cons size sizes => cases (List.cons.inj hsizes).1
      | some size =>
          rw [Option.bind_some]
          cases hjudge : (testSizeReceivers py).judge s size with
          | none =>
              refine iff_of_false Bool.false_ne_true ?_
              rintro ⟨sizes, hsizes, hfold⟩
              cases sizes with
              | nil => cases hsizes
              | cons size' sizes =>
                  obtain rfl := Option.some.inj (List.cons.inj hsizes).1
                  rw [List.foldlM_cons, hjudge] at hfold
                  cases hfold
          | some s' =>
              rw [Option.bind_some, ih]
              constructor
              · rintro ⟨sizes, hsizes, hfold⟩
                refine ⟨size :: sizes, congrArg (some size :: ·) hsizes, ?_⟩
                rw [List.foldlM_cons, hjudge]
                exact hfold
              · rintro ⟨sizes, hsizes, hfold⟩
                cases sizes with
                | nil => cases hsizes
                | cons size' sizes =>
                    obtain ⟨hsize, hrest⟩ := List.cons.inj hsizes
                    obtain rfl := Option.some.inj hsize
                    rw [List.foldlM_cons, hjudge] at hfold
                    exact ⟨sizes, hrest, hfold⟩

theorem oneSizeChange_iff (windows : List (Window Char)) :
    OneSizeChange py (textsOf text windows) ↔
      ((testSizeReceivers py).source text windows).isSome = true := by
  rw [ReceiverCheck.source, OneSizeChange]
  show _ ↔ ((basicSize py text).bind _).isSome = true
  cases hread : basicSize py text with
  | none =>
      refine iff_of_false ?_ Bool.false_ne_true
      rintro ⟨sizes, hsizes, -⟩
      rw [textsOf, List.map_cons, hread] at hsizes
      cases sizes with
      | nil => cases hsizes
      | cons size sizes => cases (List.cons.inj hsizes).1
  | some first =>
      rw [Option.bind_some]
      refine Iff.trans ?_ (foldlM_follow_size_iff ⟨first, true⟩ (textsOf text windows)).symm
      refine exists_congr fun sizes => and_congr_right fun hsizes => ?_
      rw [foldlM_judge_size_iff]
      rw [textsOf, List.map_cons, hread] at hsizes
      cases sizes with
      | nil => cases hsizes
      | cons size sizes =>
          obtain rfl := Option.some.inj (List.cons.inj hsizes).1
          rw [sizeChanges_cons_cons]
          simp

end Sources

/-- **When `RECEIVING_FROM_ONE` is backed by 500 samples**: the subscriber does not fall
silent and prints nothing but samples before, and the last of them is of the same
publisher as well. -/
theorem receivingFromOne_evidence_iff {py : PyUnicode} {text : List Char}
    {events : Nat → Arrival (Window Char)} (hbasic : basicCheck py text = .ok) :
    ((((testColorReceivers py).eventLoop py text).Returns events (.ok .receivingFromOne) →
        ReceiverCheck.Evidence text events (OneColor py)) ↔
      ¬(testColorReceivers py).Unbacked text events (OneColor py)) ∧
    ((((testSizeReceivers py).eventLoop py text).Returns events (.ok .receivingFromOne) →
        ReceiverCheck.Evidence text events (OneSizeChange py)) ↔
      ¬(testSizeReceivers py).Unbacked text events (OneSizeChange py)) := by
  constructor
  · refine ReceiverCheck.evidence_iff hbasic ?_ oneColor_iff
    intro h
    cases h
  · refine ReceiverCheck.evidence_iff hbasic ?_ oneSizeChange_iff
    intro h
    have hcode : ReturnCode.dataNotReceived = .receivingFromOne := Except.ok.inj h
    cases hcode

/-- One red sample, and nothing behind it. -/
def redOnce : Nat → Arrival (Window Char) := EventLoop.streamOf [] .timeout

theorem receivingFromOne_evidence_iff_redOnce :
    ((((testColorReceivers .ascii).eventLoop .ascii (sampleMatch "RED" 1).text).Returns redOnce
        (.ok .receivingFromOne) →
        ReceiverCheck.Evidence (sampleMatch "RED" 1).text redOnce (OneColor .ascii)) ↔
      ¬(testColorReceivers .ascii).Unbacked (sampleMatch "RED" 1).text redOnce (OneColor .ascii)) ∧
    ((((testSizeReceivers .ascii).eventLoop .ascii (sampleMatch "RED" 1).text).Returns redOnce
        (.ok .receivingFromOne) →
        ReceiverCheck.Evidence (sampleMatch "RED" 1).text redOnce (OneSizeChange .ascii)) ↔
      ¬(testSizeReceivers .ascii).Unbacked (sampleMatch "RED" 1).text redOnce
        (OneSizeChange .ascii)) :=
  receivingFromOne_evidence_iff basicCheck_sampleMatch_red

/-- A single sample is enough. -/
theorem not_receivingFromOne_evidence :
    ¬ ∀ (py : PyUnicode) (text : List Char) (events : Nat → Arrival (Window Char)),
      basicCheck py text = .ok →
        (((testColorReceivers py).eventLoop py text).Returns events (.ok .receivingFromOne) →
          ReceiverCheck.Evidence text events (OneColor py)) ∧
        (((testSizeReceivers py).eventLoop py text).Returns events (.ok .receivingFromOne) →
          ReceiverCheck.Evidence text events (OneSizeChange py)) := by
  intro hall
  obtain ⟨hcolor, -⟩ := hall .ascii (sampleMatch "RED" 1).text redOnce basicCheck_sampleMatch_red
  have hunbacked : (testColorReceivers .ascii).Unbacked (sampleMatch "RED" 1).text redOnce
      (OneColor .ascii) := by
    obtain ⟨color, hread⟩ := exists_colorOf basicCheck_sampleMatch_red
    refine ⟨[], EventLoop.begins_nil _, Nat.succ_pos 499, ⟨color, ?_⟩, .inl rfl⟩
    intro t ht
    rw [List.mem_singleton.mp ht]
    exact hread
  exact hunbacked.not_evidence oneColor_iff
    (hcolor (hunbacked.receivingFromOne basicCheck_sampleMatch_red oneColor_iff))

end DdsRtps.Harness
