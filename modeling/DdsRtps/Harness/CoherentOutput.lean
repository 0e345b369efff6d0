/-
# `DdsRtps.Harness.CoherentOutput` — the verdict on what a subscriber prints

With coherent sets, `run_subscriber` (srcCxx/shape_main.cxx and
srcRs/HDDS/src/main.rs) prints `Reading coherent sets, iteration n` before each
cycle.  The windows of the check are those lines and the samples, one each and
in order (`events_of_coherentOutput`), so that the verdict on an output is the
verdict on its blocks (`coherentSets_sound_iff`).
-/
import DdsRtps.Harness.CoherentRuns

namespace DdsRtps.Harness

open Regex
open PyUnicode (digit)

/-! ## Printing -/

/-- A line of the output of a subscriber that reads coherent sets. -/
inductive CoherentLine where
  | sample (r : Received)
  | readingSets (iteration : Nat)
  | other (text : List Char)

/-- A line, without its end. -/
def CoherentLine.text (sub : Subscriber) : CoherentLine → List Char
  | .sample r => r.line sub
  | .readingSets n => "Reading coherent sets, iteration ".toList ++ Nat.toDigits 10 n
  | .other text => text

/-- The output of a subscriber. -/
def coherentOutput (sub : Subscriber) (eol : LineEnd) (lines : List CoherentLine) : List Char :=
  lines.flatMap fun l => l.text sub ++ eol.text

/-- A sample line that makes sense, or any line that has neither `[digits]` nor
the words of a reading line. -/
def CoherentLine.Legal (py : PyUnicode) : CoherentLine → Prop
  | .sample r => r.Legal py
  | .readingSets _ => True
  | .other text => NoSample text ∧ ¬ "Reading coherent sets".toList <:+: text

/-- The instance of a sample. -/
def Received.inst (r : Received) : Instance := (r.topic.toList, r.sample.color.toList)

/-- What is printed, without the other lines. -/
def eventsOf (lines : List CoherentLine) : List Event :=
  lines.filterMap fun
    | .sample r => some (.sample r.inst)
    | .readingSets _ => some .readingSets
    | .other _ => none

/-! ## The pattern of a reading line -/

theorem parse_readingCoherentSets_iff {u : List Char} {cs : Captures Char} :
    Parse readingCoherentSets u cs ↔ cs = [] ∧ ∃ m, (∀ c ∈ m, (c != '\n') = true) ∧
      u = "Reading coherent sets".toList ++ (m ++ ['\n']) := by
  constructor
  · intro h
    obtain ⟨_, _, _, _, pwords, h₁, rfl, rfl⟩ := parse_cat_cons_iff.mp h
    obtain ⟨m, _, _, _, ⟨hm, rfl⟩, h₂, rfl, rfl⟩ := parse_cat_cons_iff.mp h₁
    obtain ⟨_, _, _, _, pend, h₃, rfl, rfl⟩ := parse_cat_cons_iff.mp h₂
    obtain ⟨rfl, rfl⟩ := parse_cat_nil_iff.mp h₃
    obtain ⟨rfl, rfl⟩ := parse_lit_iff.mp pwords
    obtain ⟨rfl, rfl⟩ := parse_lit_iff.mp pend
    exact ⟨rfl, m, hm, rfl⟩
  · rintro ⟨rfl, m, hm, rfl⟩
    exact ⟨_, [], _, [], parse_lit_iff.mpr ⟨rfl, rfl⟩, ⟨m, [], ['\n'], [], ⟨hm, rfl⟩,
      ⟨['\n'], [], [], [], parse_lit_iff.mpr ⟨rfl, rfl⟩, ⟨rfl, rfl⟩, rfl, rfl⟩, rfl, rfl⟩,
      rfl, rfl⟩

theorem head?_of_parse_readingCoherentSets {u : List Char} {cs : Captures Char}
    (hp : Parse readingCoherentSets u cs) : u.head? = some 'R' := by
  obtain ⟨-, m, -, rfl⟩ := parse_readingCoherentSets_iff.mp hp
  rfl

theorem isPrefix_of_parse_readingCoherentSets {u : List Char} {cs : Captures Char}
    (hp : Parse readingCoherentSets u cs) : "Reading coherent sets".toList <+: u := by
  obtain ⟨-, m, -, rfl⟩ := parse_readingCoherentSets_iff.mp hp
  exact List.prefix_append _ _

/-- A reading line is matched, up to its end and no further. -/
theorem first_readingCoherentSets {m : List Char} (hm : ∀ c ∈ m, (c != '\n') = true)
    (t : List Char) :
    first readingCoherentSets ("Reading coherent sets".toList ++ (m ++ ['\n']) ++ t) =
      some ("Reading coherent sets".toList ++ (m ++ ['\n']), [], t) := by
  refine first_eq_some (parse_readingCoherentSets_iff.mpr ⟨rfl, m, hm, rfl⟩) ?_
  intro u v cs h hp
  obtain ⟨rfl, m', hm', rfl⟩ := parse_readingCoherentSets_iff.mp hp
  simp only [List.append_assoc, List.append_cancel_left_eq] at h
  obtain ⟨rfl, -, -⟩ := append_cons_inj h hm hm' (by decide) (by decide)
  exact ⟨rfl, rfl⟩

/-! ## A sample line has no words of a reading line -/

/-- Two words, the second of them a color, do not make three. -/
theorem not_infix_of_words {p : Char → Bool} {topic sep color rest l₁ l₂ : List Char} {c : Char}
    (htopic : EndsOutside p topic) (htopic' : ' ' ∉ topic)
    (hsep : ∀ c ∈ sep, p c = true) (hcolor : ' ' ∉ color) (hc : c ∉ rest) (hl : ' ' ∈ l₁)
    (hl' : ∀ s, EndsOutside p (s ++ l₁)) :
    ¬ l₁ ++ ' ' :: c :: l₂ <:+: topic ++ (sep ++ (color ++ rest)) := by
  rintro ⟨s, t, h⟩
  have h₁ : (s ++ l₁) ++ ' ' :: c :: (l₂ ++ t) = topic ++ (sep ++ (color ++ rest)) := by
    rw [← h]
    simp
  -- two blanks with a letter between them: the first is not in the topic
  rcases List.append_eq_append_iff.mp h₁ with ⟨w, rfl, -⟩ | ⟨w, hw, h₂⟩
  · exact htopic' (by simp [hl])
  rcases List.append_eq_append_iff.mp h₂ with ⟨v, rfl, h₃⟩ | ⟨v, hsplit, -⟩
  · rcases List.append_eq_append_iff.mp h₃ with ⟨x, rfl, h₄⟩ | ⟨x, hx, h₄⟩
    · exact hc (by rw [h₄]; simp)
    · cases x with
      | nil => exact hc (by rw [← List.nil_append rest, ← h₄]; simp)
      | cons d x =>
          obtain ⟨rfl, -⟩ := List.cons.inj h₄
          exact hcolor (by rw [hx]; simp)
  · -- the second is in the space behind it, and so the first would be its end
    have hcut : (s ++ l₁) ++ [] = topic ++ w := by rw [List.append_nil, hw]
    obtain ⟨heq, -⟩ := append_inj_of_endsOutside hcut (by simp)
      (fun d hd => hsep d (by rw [hsplit]; simp [hd])) (hl' s) htopic
    exact htopic' (by rw [← heq]; simp [hl])

theorem Received.Legal.not_infix {py : PyUnicode} {r : Received} (hr : r.Legal py)
    (sub : Subscriber) :
    ¬ "Reading coherent sets".toList <:+: r.topic.toList ++ (r.fields sub).text := by
  have hwords : "Reading coherent sets".toList =
    "Reading coherent".toList ++ ' ' :: 's' :: "ets".toList := rfl
  have hblank : ∀ {l : List Char}, (∀ c ∈ l, py.word c = true) → ' ' ∉ l := fun hl hmem => by
    have hspace := py.space_of_word (hl _ hmem)
    rw [py.space_blank] at hspace
    cases hspace
  have hletter : ∀ n, 's' ∉ List.replicate n ' ' ++ [' '] := fun n hmem => by
    rw [← List.replicate_succ'] at hmem
    exact absurd (List.eq_of_mem_replicate hmem) (by decide)
  have hdigit : ∀ {l : List Char}, (∀ c ∈ l, digit c = true) → 's' ∉ l := fun hl hmem =>
    absurd (hl _ hmem) (by decide)
  have hline : r.topic.toList ++ (r.fields sub).text =
      r.topic.toList ++ ((r.fields sub).sep₁ ++ ((r.fields sub).color ++
        ((r.fields sub).sep₂ ++ ((r.fields sub).x ++ ([' '] ++ ((r.fields sub).y ++ [' '])))))) := by
    simp only [Fields.text, List.append_assoc]
    rfl
  rw [hline, hwords]
  refine not_infix_of_words (p := py.space) ?_ (hblank hr.topic.2)
    (hr.fields_valid sub).sep₁.2 (hblank hr.color.2) ?_ (by decide) ?_
  · have hends := endsOutside_append (s := []) hr.topic.1
      fun c hc => py.space_of_word (hr.topic.2 c hc)
    exact hends
  · simp only [List.mem_append, not_or]
    exact ⟨hletter _, hdigit (hr.fields_valid sub).x.2,
      by decide, hdigit (hr.fields_valid sub).y.2, by decide⟩
  · intro s
    have hlast : "Reading coherent".toList = "Reading coheren".toList ++ ['t'] := rfl
    have hspace : py.space 't' = false := by
      rw [PyUnicode.space, py.isSpace_ascii _ (by decide)]
      decide
    rw [hlast, ← List.append_assoc]
    exact endsOutside_append (by simp) (by simpa using hspace)

/-! ## The windows of an output -/

theorem quietBefore_sampleHead {py : PyUnicode} {r : Received} (hr : r.Legal py)
    (sub : Subscriber) (t : List Char) :
    QuietBefore readingCoherentSets (r.topic.toList ++ (r.fields sub).text) ('[' :: t) :=
  quietBefore_of_not_infix (fun _ _ => isPrefix_of_parse_readingCoherentSets)
    (hr.not_infix sub) (by decide) t

theorem quietBefore_eol (eol : LineEnd) (t : List Char) :
    QuietBefore readingCoherentSets eol.text t :=
  quietBefore_of_not_mem (fun _ _ => head?_of_parse_readingCoherentSets)
    (by cases eol <;> decide) t

theorem quietBefore_sampleTail (payload : List UInt8) (eol : LineEnd) (t : List Char) :
    QuietBefore readingCoherentSets (payloadSuffix payload ++ eol.text) t := by
  refine QuietBefore.append ?_ (quietBefore_eol eol t)
  refine quietBefore_of_not_mem (fun _ _ => head?_of_parse_readingCoherentSets) ?_ _
  unfold payloadSuffix
  split
  · exact List.not_mem_nil
  · simp only [List.mem_append, not_or]
    exact ⟨⟨by decide, fun hmem => absurd (digit_toDigits hmem) (by decide)⟩, by decide⟩

theorem quietBefore_other {text : List Char} (h : ¬ "Reading coherent sets".toList <:+: text)
    (eol : LineEnd) (t : List Char) :
    QuietBefore readingCoherentSets (text ++ eol.text) t := by
  refine QuietBefore.append ?_ (quietBefore_eol eol t)
  cases eol with
  | lf =>
      exact quietBefore_of_not_infix (fun _ _ => isPrefix_of_parse_readingCoherentSets) h
        (by decide) t
  | crlf =>
      exact quietBefore_of_not_infix (fun _ _ => isPrefix_of_parse_readingCoherentSets) h
        (by decide) ('\n' :: t)

/-- The sample patterns find nothing where no `[digits]` is. -/
theorem topicAndColor_of_noSample {py : PyUnicode} {t : List Char} (h : NoSample t) :
    topicAndColor py t = none := by
  have hnone : search (topicSample py) t = none := by
    rw [search_eq_none_iff]
    rintro b u v cs rfl hp
    obtain ⟨w, ws, f, d, -, -, -, -, hd, hdigit, rfl, -⟩ :=
      (parse_samplePattern_iff fun s cs hs => SampleAt.parse_plus_space py hs).mp hp
    exact noSample_iff.mp h (b ++ (w ++ f.text)) d v hd hdigit (by simp)
  rw [topicAndColor, hnone, Option.bind_none]

/-- The text of a reading line behind its words. -/
def iterationText (n : Nat) (eol : LineEnd) : List Char :=
  ", iteration ".toList ++ Nat.toDigits 10 n ++ eol.text.dropLast

theorem readingLine_eq (sub : Subscriber) (n : Nat) (eol : LineEnd) :
    (CoherentLine.readingSets n).text sub ++ eol.text =
      "Reading coherent sets".toList ++ (iterationText n eol ++ ['\n']) := by
  have hwords : "Reading coherent sets, iteration ".toList =
    "Reading coherent sets".toList ++ ", iteration ".toList := rfl
  have heol : eol.text = eol.text.dropLast ++ ['\n'] := by cases eol <;> rfl
  have htext : (CoherentLine.readingSets n).text sub =
    "Reading coherent sets, iteration ".toList ++ Nat.toDigits 10 n := rfl
  unfold iterationText
  rw [htext, hwords]
  conv_lhs => rw [heol]
  simp only [List.append_assoc]

theorem not_mem_iterationText {c : Char} (hc : c ∉ ", iteration ".toList) (hc' : digit c = false)
    (hc'' : c ≠ '\r') (n : Nat) (eol : LineEnd) : c ∉ iterationText n eol := by
  unfold iterationText
  simp only [List.mem_append, not_or]
  refine ⟨⟨hc, fun hmem => ?_⟩, ?_⟩
  · rw [digit_toDigits hmem] at hc'
    cases hc'
  · cases eol with
    | lf => exact List.not_mem_nil
    | crlf => simpa [LineEnd.text] using hc''

/-- A reading line has one window. -/
theorem expectAll_readingLine (sub : Subscriber) (n : Nat) (eol : LineEnd)
    (before rest : List Char) :
    expectAll [sampleEnd, readingCoherentSets] before 0
        ((CoherentLine.readingSets n).text sub ++ eol.text ++ rest) =
      ⟨1, before, (CoherentLine.readingSets n).text sub ++ eol.text⟩ ::
        expectAll [sampleEnd, readingCoherentSets] [] 0 rest := by
  have hm : ∀ c ∈ iterationText n eol, (c != '\n') = true := by
    intro c hc
    rw [bne_iff_ne]
    rintro rfl
    exact not_mem_iterationText (by decide) (by decide) (by decide) n eol hc
  have hne : "Reading coherent sets".toList ++ (iterationText n eol ++ ['\n']) ≠ [] := by simp
  have hsample : first sampleEnd
      ("Reading coherent sets".toList ++ (iterationText n eol ++ ['\n']) ++ rest) = none := by
    have hquiet : QuietBefore sampleEnd ("Reading coherent sets".toList)
        (iterationText n eol ++ ['\n'] ++ rest) :=
      quietBefore_of_not_mem (fun _ _ => head?_of_parse_sampleEnd) (by decide) _
    have hfirst := hquiet [] 'R' "eading coherent sets".toList rfl
    rw [List.append_assoc]
    exact hfirst
  rw [readingLine_eq]
  refine expectAll_match (i := 1) hne ?_ before
  rw [firstOf, hsample, firstOf, first_readingCoherentSets hm]
  rfl

theorem noSample_readingLine (sub : Subscriber) (n : Nat) :
    NoSample ((CoherentLine.readingSets n).text sub) := by
  have htext : (CoherentLine.readingSets n).text sub =
    "Reading coherent sets, iteration ".toList ++ Nat.toDigits 10 n := rfl
  refine noSample_of_not_mem ?_
  rw [htext, List.mem_append, not_or]
  exact ⟨by decide, fun hmem => absurd (digit_toDigits hmem) (by decide)⟩

theorem isSome_search_readingLine (sub : Subscriber) (n : Nat) (eol : LineEnd)
    (before : List Char) :
    (search (lit "Reading coherent sets".toList)
      (before ++ ((CoherentLine.readingSets n).text sub ++ eol.text))).isSome = true := by
  obtain ⟨m, hm⟩ := exists_search_eq_some (b := before) (v := iterationText n eol ++ ['\n'])
    (parse_lit_iff (t := "Reading coherent sets".toList).mpr ⟨rfl, rfl⟩)
  rw [readingLine_eq, ← List.append_assoc, hm]
  rfl

/-- What the check reads in an output. -/
theorem events_of_coherentOutput {py : PyUnicode} (sub : Subscriber) (eol : LineEnd)
    {lines : List CoherentLine} (h : ∀ l ∈ lines, l.Legal py) {before : List Char}
    (hbefore : LineStart before) :
    List.Forall₂ (ReadsEvent py)
      (expectAll [sampleEnd, readingCoherentSets] before 0 (coherentOutput sub eol lines))
      (eventsOf lines) := by
  induction lines generalizing before with
  | nil => exact List.Forall₂.nil
  | cons l lines ih =>
      rw [List.forall_mem_cons] at h
      have houtput : coherentOutput sub eol (l :: lines) =
          l.text sub ++ eol.text ++ coherentOutput sub eol lines := rfl
      rw [houtput]
      cases l with
      | sample r =>
          have hr : r.Legal py := h.1
          have hline := expectAll_line hr sub eol [readingCoherentSets]
            (by simpa using quietBefore_sampleHead hr sub)
            (by simpa using quietBefore_sampleTail r.sample.additionalPayloadSize eol)
            before (coherentOutput sub eol lines)
          rw [show (CoherentLine.sample r).text sub = r.line sub from rfl, hline]
          exact .cons ⟨rfl, (hr.readsSample sub hbefore 0).topicAndColor⟩
            (ih h.2 (Received.lineStart_tail _ eol))
      | readingSets n =>
          rw [expectAll_readingLine]
          refine .cons ⟨rfl, ?_, ?_⟩ (ih h.2 (.inl rfl))
          · exact topicAndColor_of_noSample (hbefore.append (noSample_readingLine sub n) eol).noSample
          · exact isSome_search_readingLine sub n eol before
      | other text =>
          obtain ⟨hsample, hwords⟩ := h.1
          have hquiet : ∀ r ∈ [sampleEnd, readingCoherentSets],
              QuietBefore r (text ++ eol.text) (coherentOutput sub eol lines) := by
            simpa using ⟨quietBefore_line hsample eol _, quietBefore_other hwords eol _⟩
          rw [show (CoherentLine.other text).text sub = text from rfl, expectAll_quiet hquiet]
          exact ih h.2 (hbefore.append hsample eol)

/-! ## The verdict -/

theorem basicCheck_eq {py : PyUnicode} {sub : Subscriber} {w : Window Char} {r : Received}
    (h : ReadsSample py sub w r) :
    basicCheck py w.text = if r.sample.shapesize.toInt = 0 then .dataNotCorrect else .ok := by
  have hzero : r.sample.shapesize.toInt.toNat = 0 ↔ r.sample.shapesize.toInt = 0 := by
    obtain ⟨-, -, -, hr⟩ := h
    have hsize := hr.shapesize
    omega
  rw [h.basicCheck_text]
  simp only [hzero]

/-- A cycle is judged: it is the third with samples, or a later one, and the
check has not stopped before: it stops with the hundredth sample of the first
instance that another sample directly follows, and after 500 reading lines. -/
structure Judged (first : Instance) (before : List (List Instance)) (is : List Instance) :
    Prop where
  third : 2 ≤ withSamples before
  lines : before.length + 1 ≤ 500
  samples : ((before ++ [is]).map fun is => followed first (blocks is)).sum < 100

/-- The verdict on complete sets is `DATA_NOT_CORRECT` where the first sample
is of size 0, or a judged cycle has two blocks of one color side by side or
begins with the color of the sample before it. -/
theorem coherentSetsWInstances_eq_dataNotCorrect_iff (py : PyUnicode) (sub : Subscriber)
    (eol : LineEnd) (ending : Ending) {expectedTotal : Nat} {w : Window Char} {r : Received}
    {lines : List CoherentLine} (closed : List (List Instance)) (left : List Instance)
    (hfirst : ReadsSample py sub w r) (hlines : ∀ l ∈ lines, l.Legal py)
    (hclosed : ∀ is ∈ closed, Complete expectedTotal is)
    (hrun : .sample r.inst :: eventsOf lines = closed.flatMap cycleEvents ++ left.map .sample) :
    coherentSetsWInstances py expectedTotal w.text
        (payloadSuffix r.sample.additionalPayloadSize ++ eol.text ++ coherentOutput sub eol lines)
        ending = .dataNotCorrect ↔
      r.sample.shapesize.toInt = 0 ∨ ∃ before is after, closed = before ++ is :: after ∧
        Judged r.inst before is ∧ ¬ Apart (lastColor none before.flatten) is := by
  rw [coherentSetsWInstances, basicCheck_eq hfirst]
  by_cases hsize : r.sample.shapesize.toInt = 0
  · simp [hsize]
  · have htext : CheckState.initial.readText py expectedTotal w.text =
        some (CheckState.initial.readSample r.inst) := by
      rw [CheckState.readText, hfirst.topicAndColor]
      rfl
    have hquiet : ∀ r' ∈ [sampleEnd, readingCoherentSets],
        QuietBefore r' (payloadSuffix r.sample.additionalPayloadSize ++ eol.text)
          (coherentOutput sub eol lines) := by
      simpa using ⟨quietBefore_of_not_mem (fun _ _ => head?_of_parse_sampleEnd)
        (Received.not_mem_tail _ eol) _, quietBefore_sampleTail _ eol _⟩
    have hreads := events_of_coherentOutput sub eol hlines
      (Received.lineStart_tail r.sample.additionalPayloadSize eol)
    rw [expectAll_quiet hquiet, List.nil_append, htext, hfirst.topicAndColor]
    simp only [hsize, if_false, ne_eq, not_true_eq_false, false_or]
    rw [coherentSetsLoop_eq_dataNotCorrect_iff hreads (Tally.tracks_begun r.inst)
      (Nat.zero_le 500)]
    refine (Tally.fails_begun_iff hclosed hrun).trans ?_
    constructor
    · rintro ⟨before, is, after, hsplit, hthird, hlen, hsum, hapart⟩
      exact ⟨before, is, after, hsplit, ⟨hthird, hlen, hsum⟩, hapart⟩
    · rintro ⟨before, is, after, hsplit, ⟨hthird, hlen, hsum⟩, hapart⟩
      exact ⟨before, is, after, hsplit, hthird, hlen, hsum, hapart⟩

/-- **On complete sets the verdict is right exactly if their order is.** -/
theorem coherentSets_sound_iff (py : PyUnicode) (sub : Subscriber) (eol : LineEnd)
    (ending : Ending) {expectedTotal : Nat} {w : Window Char} {r : Received}
    {lines : List CoherentLine} (closed : List (List Instance)) (left : List Instance)
    (hfirst : ReadsSample py sub w r) (hlines : ∀ l ∈ lines, l.Legal py)
    (hclosed : ∀ is ∈ closed, Complete expectedTotal is)
    (hrun : .sample r.inst :: eventsOf lines = closed.flatMap cycleEvents ++ left.map .sample) :
    coherentSetsWInstances py expectedTotal w.text
        (payloadSuffix r.sample.additionalPayloadSize ++ eol.text ++ coherentOutput sub eol lines)
        ending ≠ .dataNotCorrect ↔
      r.sample.shapesize.toInt ≠ 0 ∧ ∀ before is after, closed = before ++ is :: after →
        Judged r.inst before is → Apart (lastColor none before.flatten) is := by
  rw [ne_eq, coherentSetsWInstances_eq_dataNotCorrect_iff py sub eol ending closed left hfirst
    hlines hclosed hrun, not_or]
  refine and_congr_right fun _ => ?_
  constructor
  · intro h before is after hsplit hjudged
    by_contra hapart
    exact h ⟨before, is, after, hsplit, hjudged, hapart⟩
  · rintro h ⟨before, is, after, hsplit, hjudged, hapart⟩
    exact hapart (h before is after hsplit hjudged)

/-! ### Three cycles -/

/-- A sample of a topic and a color. -/
def shape (topic color : String) : Received := ⟨topic, ⟨color, 10, 20, 30, []⟩⟩

/-- The blocks of some samples. -/
def shapeBlocks (order : List Received) : List Received := order.flatMap fun r => [r, r, r]

/-- Three cycles with the same blocks. -/
def threeCycles (order : List Received) : List CoherentLine :=
  (shapeBlocks order).map .sample ++ .readingSets 1 :: ((shapeBlocks order).map .sample ++
    .readingSets 2 :: ((shapeBlocks order).map .sample ++ [.readingSets 3]))

theorem legal_threeCycles {py : PyUnicode} {order : List Received} (h : ∀ r ∈ order, r.Legal py) :
    ∀ l ∈ threeCycles order, l.Legal py := by
  have hblocks : ∀ l ∈ (shapeBlocks order).map CoherentLine.sample, l.Legal py := by
    intro l hl
    obtain ⟨r, hr, rfl⟩ := List.mem_map.mp hl
    obtain ⟨r', hr', hmem⟩ := List.mem_flatMap.mp hr
    obtain rfl : r = r' := by simpa using hmem
    exact h r hr'
  intro l hl
  simp only [threeCycles, List.mem_append, List.mem_cons, List.not_mem_nil, or_false] at hl
  rcases hl with hl | rfl | hl | rfl | hl | rfl
  · exact hblocks l hl
  · trivial
  · exact hblocks l hl
  · trivial
  · exact hblocks l hl
  · trivial

/-- What the check is called with: the first sample, behind a reading line. -/
def firstWindow : Window Char :=
  ⟨0, "Reading coherent sets, iteration 0\n".toList ++
    ((shape "Square" "BLUE").topic.toList ++ ((shape "Square" "BLUE").fields .cxx).text),
    '[' :: (showInt (shape "Square" "BLUE").sample.shapesize.toInt ++ [']'])⟩

theorem legal_shape_ascii {topic color : String}
    (ht : topic.toList ≠ [] ∧ topic.toList.all PyUnicode.ascii.word = true)
    (hc : color.toList ≠ [] ∧ color.toList.all PyUnicode.ascii.word = true) :
    (shape topic color).Legal .ascii where
  topic := ⟨ht.1, List.all_eq_true.mp ht.2⟩
  color := ⟨hc.1, List.all_eq_true.mp hc.2⟩
  x := show 0 ≤ (10 : Int32).toInt by decide
  y := show 0 ≤ (20 : Int32).toInt by decide
  shapesize := show 0 ≤ (30 : Int32).toInt by decide

theorem readsSample_firstWindow :
    ReadsSample .ascii .cxx firstWindow (shape "Square" "BLUE") := by
  have hline : LineStart "Reading coherent sets, iteration 0\n".toList :=
    .inr ⟨"Reading coherent sets, iteration 0".toList, rfl, noSample_of_not_mem (by decide)⟩
  exact (legal_shape_ascii (by decide) (by decide)).readsSample .cxx hline 0

/-- Two colors in two topics, color by color. -/
def colorByColor : List Received :=
  [shape "Square" "BLUE", shape "Circle" "BLUE", shape "Square" "RED", shape "Circle" "RED"]

/-- Two colors in two topics, in turn. -/
def colorsInTurn : List Received :=
  [shape "Square" "BLUE", shape "Circle" "RED", shape "Circle" "BLUE", shape "Square" "RED"]

theorem legal_colorByColor : ∀ r ∈ colorByColor, r.Legal .ascii := by
  simp only [colorByColor, List.forall_mem_cons, List.not_mem_nil, false_implies, implies_true,
    and_true]
  exact ⟨legal_shape_ascii (by decide) (by decide), legal_shape_ascii (by decide) (by decide),
    legal_shape_ascii (by decide) (by decide), legal_shape_ascii (by decide) (by decide)⟩

/-- Complete sets in three cycles, color by color: the third is refused. -/
theorem colorByColor_refused :
    (∀ l ∈ (threeCycles colorByColor).tail, l.Legal .ascii) ∧
      Complete 12 (colorByColor.map Received.inst) ∧
      eventsOf (threeCycles colorByColor) =
        (List.replicate 3 (colorByColor.map Received.inst)).flatMap cycleEvents ∧
      coherentSetsWInstances .ascii 12 firstWindow.text
        (payloadSuffix [] ++ LineEnd.lf.text ++
          coherentOutput .cxx .lf (threeCycles colorByColor).tail) .timeout = .dataNotCorrect := by
  have hlegal : ∀ l ∈ (threeCycles colorByColor).tail, l.Legal .ascii := fun l hl =>
    legal_threeCycles legal_colorByColor l (List.mem_of_mem_tail hl)
  have hcomplete : Complete 12 (colorByColor.map Received.inst) := ⟨by decide, by decide⟩
  have hevents : eventsOf (threeCycles colorByColor) =
      (List.replicate 3 (colorByColor.map Received.inst)).flatMap cycleEvents := rfl
  refine ⟨hlegal, hcomplete, hevents, ?_⟩
  refine (coherentSetsWInstances_eq_dataNotCorrect_iff .ascii .cxx .lf .timeout
    (List.replicate 3 (colorByColor.map Received.inst)) [] readsSample_firstWindow hlegal
    (fun is his => List.eq_of_mem_replicate his ▸ hcomplete) ?_).mpr (.inr ?_)
  · rw [List.map_nil, List.append_nil, ← hevents]
    rfl
  · refine ⟨List.replicate 2 (colorByColor.map Received.inst), colorByColor.map Received.inst, [],
      rfl, ⟨by decide, by decide, by decide⟩, by decide⟩

theorem coherentSets_sound_iff_colorsInTurn :
    coherentSetsWInstances .ascii 12 firstWindow.text
      (payloadSuffix [] ++ LineEnd.lf.text ++
        coherentOutput .cxx .lf (threeCycles colorsInTurn).tail) .timeout ≠ .dataNotCorrect := by
  have hlegal : ∀ r ∈ colorsInTurn, r.Legal .ascii := by
    simp only [colorsInTurn, List.forall_mem_cons, List.not_mem_nil, false_implies, implies_true,
      and_true]
    exact ⟨legal_shape_ascii (by decide) (by decide), legal_shape_ascii (by decide) (by decide),
      legal_shape_ascii (by decide) (by decide), legal_shape_ascii (by decide) (by decide)⟩
  have hcomplete : Complete 12 (colorsInTurn.map Received.inst) := ⟨by decide, by decide⟩
  have hevents : eventsOf (threeCycles colorsInTurn) =
      (List.replicate 3 (colorsInTurn.map Received.inst)).flatMap cycleEvents := rfl
  refine (coherentSets_sound_iff .ascii .cxx .lf .timeout
    (List.replicate 3 (colorsInTurn.map Received.inst)) [] readsSample_firstWindow
    (fun l hl => legal_threeCycles hlegal l (List.mem_of_mem_tail hl))
    (fun is his => List.eq_of_mem_replicate his ▸ hcomplete) ?_).mpr ⟨by decide, ?_⟩
  · rw [List.map_nil, List.append_nil, ← hevents]
    rfl
  · rintro before is after hsplit -
    have his : is = colorsInTurn.map Received.inst :=
      List.eq_of_mem_replicate (n := 3) (by rw [hsplit]; simp)
    have hbefore : ∀ is' ∈ before, is' = colorsInTurn.map Received.inst := fun is' his' =>
      List.eq_of_mem_replicate (n := 3) (by rw [hsplit]; simp [his'])
    rcases List.eq_nil_or_concat before with rfl | ⟨cycles, is', rfl⟩
    · rw [his]
      decide
    · rw [List.concat_eq_append, List.flatten_append, lastColor_append, his,
        hbefore is' (by simp)]
      simp only [List.flatten_singleton]
      have hlast : ∀ previous, lastColor previous (colorsInTurn.map Received.inst) =
        some "RED".toList := fun _ => rfl
      rw [hlast]
      decide

end DdsRtps.Harness
