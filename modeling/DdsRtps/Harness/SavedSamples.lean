/-
# `DdsRtps.Harness.SavedSamples` — what a publisher prints is what is saved

A publisher that is started with `-w` prints each sample it writes, in
srcCxx/shape_main.cxx and srcRs/HDDS/src/main.rs in the format of the
subscribers.  `run_publisher_shape_main` of interoperability_report.py saves
`x y [size]` of the first 500 in `samples_sent`, and is content when there is
one more (`publisherOutput_printed`).

Nothing else of the output gets into the queue, whatever stands before and
between the samples: before the match of the reader a line may even look like a
sample.
-/
import DdsRtps.Harness.PublisherOutput
import DdsRtps.Harness.SampleLines

namespace DdsRtps.Harness

open Regex
open PyUnicode (digit)

/-! ## Patterns that stay within a line -/

/-- The letters that end a line. -/
def endsLine (c : Char) : Bool := c == '\n' || c == '\r'

/-- In a line without a match nothing begins to match, nor at its end. -/
theorem quietBefore_endOfLine {r : Regex Char} (hr : Avoids r endsLine) {s : List Char}
    (h : search r s = none) (eol : LineEnd) (t : List Char) :
    QuietBefore r (s ++ eol.text) t := by
  have hend : ∀ {c : Char} {t' : List Char}, endsLine c = true → QuietBefore r [c] t' := by
    intro c t' hc b a w hw
    cases b with
    | nil =>
        obtain ⟨rfl, rfl⟩ := List.cons.inj hw
        exact first_eq_none_of_avoids hr hc t'
    | cons b₀ b => simp at hw
  cases eol with
  | lf => exact (quietBefore_of_search hr (by decide) h).append (hend (by decide))
  | crlf =>
      have hends : QuietBefore r (['\r'] ++ ['\n']) t :=
        QuietBefore.append (hend (by decide)) (hend (by decide))
      exact (quietBefore_of_search hr (by decide) h).append hends

theorem avoids_sampleEnd : Avoids sampleEnd endsLine := by
  intro u cs hp
  obtain ⟨d, -, hdigit, rfl, -⟩ := parse_sampleEnd_iff.mp hp
  refine ⟨by simp, fun c hc => ?_⟩
  simp only [List.cons_append, List.mem_cons, List.mem_append, List.not_mem_nil, or_false] at hc
  rcases hc with rfl | hc | rfl
  · decide
  · cases hend : endsLine c with
    | false => rfl
    | true =>
        have hline : c = '\n' ∨ c = '\r' := by simpa [endsLine] using hend
        rcases hline with rfl | rfl <;> exact absurd (hdigit _ hc) (by decide)
  · decide

theorem avoids_lit {p : Char → Bool} {t : List Char} (hne : t ≠ [])
    (h : t.all (fun c => !p c) = true) : Avoids (lit t) p := by
  intro u cs hp
  obtain ⟨rfl, -⟩ := parse_lit_iff.mp hp
  exact ⟨hne, fun c hc => by simpa using List.all_eq_true.mp h c hc⟩

theorem parse_called_iff {name : String} {u : List Char} {cs : Captures Char} :
    Parse (called name) u cs ↔ u = name.toList ∧ cs = [(1, [])] := by
  simp only [called, parse_cat_cons_iff, parse_cat_nil_iff, parse_lit_iff, parse_group_iff]
  constructor
  · rintro ⟨u₁, cs₁, u₂, cs₂, ⟨rfl, rfl⟩, ⟨u₃, cs₃, u₄, cs₄, ⟨cs', ⟨rfl, rfl⟩, rfl⟩,
      ⟨rfl, rfl⟩, rfl, rfl⟩, rfl, rfl⟩
    simp
  · rintro ⟨rfl, rfl⟩
    exact ⟨_, [], [], [(1, [])], ⟨rfl, rfl⟩, ⟨[], [(1, [])], [], [], ⟨[], ⟨rfl, rfl⟩, rfl⟩,
      ⟨rfl, rfl⟩, rfl, rfl⟩, by simp, rfl⟩

theorem avoids_called {p : Char → Bool} {name : String} (hne : name.toList ≠ [])
    (h : name.toList.all (fun c => !p c) = true) : Avoids (called name) p := by
  intro u cs hp
  obtain ⟨rfl, -⟩ := parse_called_iff.mp hp
  exact ⟨hne, fun c hc => by simpa using List.all_eq_true.mp h c hc⟩

theorem Avoids.mono {r : Regex Char} {p q : Char → Bool} (h : Avoids r p)
    (hle : ∀ c, q c = true → p c = true) : Avoids r q := by
  intro u cs hp
  obtain ⟨hne, hall⟩ := h u cs hp
  refine ⟨hne, fun c hc => ?_⟩
  cases hq : q c with
  | false => rfl
  | true => exact absurd (hle c hq) (by simp [hall c hc])

theorem parse_ones_iff {p : Char → Char → Bool} {l u : List Char} {cs : Captures Char} :
    Parse (cat (l.map fun c => .one (p c))) u cs ↔
      List.Forall₂ (fun c d => p c d = true) l u ∧ cs = [] := by
  induction l generalizing u cs with
  | nil => simp [parse_cat_nil_iff]
  | cons c l ih =>
      rw [List.map_cons, parse_cat_cons_iff, List.forall₂_cons_left_iff]
      constructor
      · rintro ⟨_, _, u, _, ⟨d, hd, rfl, rfl⟩, hrest, rfl, rfl⟩
        obtain ⟨hall, rfl⟩ := ih.mp hrest
        exact ⟨⟨d, u, hd, hall, rfl⟩, rfl⟩
      · rintro ⟨⟨d, u, hd, hall, rfl⟩, rfl⟩
        exact ⟨[d], [], u, [], ⟨d, hd, rfl, rfl⟩, ih.mpr ⟨hall, rfl⟩, rfl, rfl⟩

theorem parse_notSupported_iff {py : PyCase} {u : List Char} {cs : Captures Char} :
    Parse (notSupported py) u cs ↔
      List.Forall₂ (fun c d => py.same c d = true) "not supported".toList u ∧ cs = [] :=
  parse_ones_iff

theorem exists_same_of_forall₂ {R : Char → Char → Prop} {l u : List Char}
    (h : List.Forall₂ R l u) {d : Char} (hd : d ∈ u) : ∃ c ∈ l, R c d := by
  induction h with
  | nil => cases hd
  | cons hcd _ ih =>
      rcases List.mem_cons.mp hd with rfl | hd
      · exact ⟨_, List.mem_cons_self, hcd⟩
      · obtain ⟨c, hc, hR⟩ := ih hd
        exact ⟨c, List.mem_cons_of_mem _ hc, hR⟩

/-- A letter that stands for none of those of `not supported`. -/
def Foreign (d : Char) : Prop :=
  d.toNat < 128 ∧ ∀ c ∈ "not supported".toList, c.toLower ≠ d.toLower

instance (d : Char) : Decidable (Foreign d) :=
  @instDecidableAnd _ _ inferInstance (List.decidableBAll _ _)

theorem avoids_notSupported (py : PyCase) {p : Char → Bool} (h : ∀ d, p d = true → Foreign d) :
    Avoids (notSupported py) p := by
  intro u cs hp
  obtain ⟨hall, -⟩ := parse_notSupported_iff.mp hp
  constructor
  · rintro rfl
    cases hall
  · intro d hd
    obtain ⟨c, hc, hsame⟩ := exists_same_of_forall₂ hall hd
    cases hpd : p d with
    | false => rfl
    | true =>
        obtain ⟨hlt, hne⟩ := h d hpd
        rw [py.same_ascii c d hlt] at hsame
        exact absurd (by simpa using hsame) (hne c hc)

/-! ## The sample that is saved -/

/-- `[0-9]+ [0-9]+ \[[0-9]+\]`, with or without a group around the size. -/
def numbersSample (size : Option Nat) : Regex Char :=
  cat [plus digit, lit [' '], plus digit, lit [' ', '['], grouped size (plus digit), lit [']']]

theorem savedSample_eq : savedSample = numbersSample none := rfl

theorem parse_numbersSample_iff {size : Option Nat} {u : List Char} {cs : Captures Char} :
    Parse (numbersSample size) u cs ↔ ∃ x y z, (x ≠ [] ∧ ∀ c ∈ x, digit c = true) ∧
      (y ≠ [] ∧ ∀ c ∈ y, digit c = true) ∧ (z ≠ [] ∧ ∀ c ∈ z, digit c = true) ∧
      u = x ++ ' ' :: (y ++ ' ' :: '[' :: (z ++ [']'])) ∧ cs = captured size z := by
  simp only [numbersSample, parse_cat_cons_iff, parse_cat_nil_iff, parse_lit_iff, parse_plus_iff,
    parse_grouped_plus_iff]
  constructor
  · rintro ⟨x, _, _, _, ⟨hx, hx', rfl⟩, ⟨_, _, _, _, ⟨rfl, rfl⟩, ⟨y, _, _, _, ⟨hy, hy', rfl⟩,
      ⟨_, _, _, _, ⟨rfl, rfl⟩, ⟨z, _, _, _, ⟨hz, hz', rfl⟩, ⟨_, _, _, _, ⟨rfl, rfl⟩, ⟨rfl, rfl⟩,
        rfl, rfl⟩, rfl, rfl⟩, rfl, rfl⟩, rfl, rfl⟩, rfl, rfl⟩, rfl, rfl⟩
    exact ⟨x, y, z, ⟨hx, hx'⟩, ⟨hy, hy'⟩, ⟨hz, hz'⟩, by simp, by simp⟩
  · rintro ⟨x, y, z, hx, hy, hz, rfl, rfl⟩
    exact ⟨x, [], _, _, ⟨hx.1, hx.2, rfl⟩, ⟨[' '], [], _, _, ⟨rfl, rfl⟩,
      ⟨y, [], _, _, ⟨hy.1, hy.2, rfl⟩, ⟨[' ', '['], [], _, _, ⟨rfl, rfl⟩,
        ⟨z, _, _, [], ⟨hz.1, hz.2, rfl⟩, ⟨[']'], [], [], [], ⟨rfl, rfl⟩, ⟨rfl, rfl⟩, rfl, rfl⟩,
          rfl, rfl⟩, rfl, rfl⟩, rfl, rfl⟩, rfl, rfl⟩, by simp, by simp⟩

/-- What is searched for in a text that ends with a sample, is the end of it,
from the first digit of `x` on. -/
theorem search_numbersSample (size : Option Nat) {s x y z : List Char}
    (hs : EndsOutside digit s)
    (hx : x ≠ [] ∧ ∀ c ∈ x, digit c = true) (hy : y ≠ [] ∧ ∀ c ∈ y, digit c = true)
    (hz : z ≠ [] ∧ ∀ c ∈ z, digit c = true)
    (hnone : NoSample (s ++ x ++ [' '] ++ y ++ [' '])) :
    ∃ m, search (numbersSample size) (s ++ (x ++ ' ' :: (y ++ ' ' :: '[' :: (z ++ [']'])))) =
        some m ∧
      m.text = x ++ ' ' :: (y ++ ' ' :: '[' :: (z ++ [']'])) ∧ m.captures = captured size z := by
  have hp : Parse (numbersSample size) (x ++ ' ' :: (y ++ ' ' :: '[' :: (z ++ [']'])))
      (captured size z) := parse_numbersSample_iff.mpr ⟨x, y, z, hx, hy, hz, rfl, rfl⟩
  obtain ⟨m, hm⟩ := exists_search_eq_some (b := s) (v := []) hp
  rw [List.append_nil] at hm
  obtain ⟨htext, hparse, hleft⟩ := search_spec hm
  obtain ⟨x', y', z', hx', hy', hz', hmtext, hcs⟩ := parse_numbersSample_iff.mp hparse
  have hfirst := hleft s _ [] _ (List.append_nil _).symm hp
  have hcut : (m.before ++ x' ++ [' '] ++ y' ++ [' ']) ++ '[' :: (z' ++ ']' :: m.after) =
      (s ++ x ++ [' '] ++ y ++ [' ']) ++ '[' :: (z ++ [']']) := by
    rw [hmtext] at htext
    simpa using htext.symm
  obtain ⟨hfields, rfl, -⟩ := sampleEnd_unique hnone hz.2 hz'.1 hz'.2 hcut
  have hblank : ∀ t : List Char, EndsOutside digit (t ++ [' ']) := fun t =>
    endsOutside_append (List.cons_ne_nil _ _) (List.forall_mem_singleton.mpr (by decide))
  obtain ⟨hxs, rfl⟩ := append_inj_of_endsOutside (List.append_cancel_right hfields) hy'.2 hy.2
    (hblank _) (hblank _)
  have hxs := List.append_cancel_right hxs
  -- a match that begins in `s` would have digits from there on
  obtain ⟨w, hw⟩ : ∃ w, s = m.before ++ w := by
    rcases List.append_eq_append_iff.mp hxs with ⟨w, rfl, -⟩ | ⟨w, hw, -⟩
    · exact ⟨w, rfl⟩
    · have hlen : w = [] := by
        have := congrArg List.length hw
        rw [List.length_append] at this
        exact List.length_eq_zero_iff.mp (by omega)
      exact ⟨[], by rw [hw, hlen]; simp⟩
  rw [hw, List.append_assoc, List.append_cancel_left_eq] at hxs
  have hdigits : ∀ c ∈ w, digit c = true := fun c hc => hx'.2 c (hxs ▸ List.mem_append_left _ hc)
  have hnil : w = [] := by
    by_contra hne
    obtain ⟨c, hc⟩ := Option.isSome_iff_exists.mp (List.getLast?_isSome.mpr hne)
    have hout := hs c (by rw [hw, List.getLast?_append_of_ne_nil _ hne]; exact hc)
    rw [hdigits c (List.mem_of_getLast? hc)] at hout
    cases hout
  refine ⟨m, hm, ?_, hcs⟩
  rw [hmtext, hxs, hnil, List.nil_append]

/-- `x y [size]`, as the publisher prints it. -/
def savedText (r : Received) : List Char :=
  showInt03 r.sample.x.toInt ++ ' ' :: (showInt03 r.sample.y.toInt ++ ' ' :: '[' ::
    (showInt r.sample.shapesize.toInt ++ [']']))

theorem ReadsSample.search_numbersSample {py : PyUnicode} {sub : Subscriber} {w : Window Char}
    {r : Received} (h : ReadsSample py sub w r) (size : Option Nat) :
    ∃ m, search (numbersSample size) w.text = some m ∧ m.text = savedText r ∧
      m.captures = captured size (showInt r.sample.shapesize.toInt) := by
  obtain ⟨pre, htext, hline, hr⟩ := h
  have hat := hr.sampleAt sub hline
  have hnone : NoSample ((pre ++ r.topic.toList ++ (List.replicate (10 - sub.width r.topic) ' ' ++
      [' ']) ++ r.sample.color.toList ++ (List.replicate (10 - sub.width r.sample.color) ' ' ++
        [' '])) ++ showInt03 r.sample.x.toInt ++ [' '] ++ showInt03 r.sample.y.toInt ++ [' ']) := by
    have := hat.noSample
    simpa [Received.fields, Fields.text] using this
  have hblank : ∀ n, ∀ c ∈ List.replicate n ' ' ++ [' '], digit c = false := by
    intro n c hc
    rw [← List.replicate_succ'] at hc
    rw [List.eq_of_mem_replicate hc]
    decide
  obtain ⟨m, hm, hmtext, hcs⟩ := Harness.search_numbersSample size
    (endsOutside_append (by simp) (hblank _)) (showInt03_of_nonneg hr.x) (showInt03_of_nonneg hr.y)
    hr.size_digit hnone
  refine ⟨m, ?_, hmtext, hcs⟩
  rw [htext, ← hm]
  congr 1
  simp [sampleText, Received.fields, Fields.text]

/-! ## The samples of an output -/

/-- The patterns that a publisher is not to print. -/
def mishaps (py : PyCase) : List (Regex Char) :=
  [called "on_offered_deadline_missed", notSupported py]

theorem sent_eq (py : PyCase) : Patterns.sent py = sampleEnd :: mishaps py := rfl

/-- A letter that ends a line, or opens a bracket. -/
def breaks (c : Char) : Bool := endsLine c || c == '['

theorem foreign_of_breaks {d : Char} (h : breaks d = true) : Foreign d := by
  have hd : (d = '\n' ∨ d = '\r') ∨ d = '[' := by simpa [breaks, endsLine] using h
  rcases hd with (rfl | rfl) | rfl <;> decide

theorem avoids_mishaps (py : PyCase) : ∀ r ∈ mishaps py, Avoids r breaks := by
  intro r hr
  simp only [mishaps, List.mem_cons, List.not_mem_nil, or_false] at hr
  rcases hr with rfl | rfl
  · exact avoids_called (by decide) (by decide)
  · exact avoids_notSupported py fun _ => foreign_of_breaks

/-- A line that is printed: a sample that makes sense or a line without
`[digits]`, and in either nothing else that is expected. -/
def OutputLine.Quiet (pyu : PyUnicode) (others : List (Regex Char)) (sub : Subscriber)
    (l : OutputLine) : Prop :=
  l.Legal pyu ∧ ∀ r ∈ others, search r (match l with
    | .sample r => r.line sub
    | .other text => text) = none

theorem endsLine_of_breaks {r : Regex Char} (h : Avoids r breaks) : Avoids r endsLine :=
  Avoids.mono h fun _ hc => by simp [breaks, hc]

theorem search_eq_none_of_append {r : Regex Char} {s t : List Char}
    (h : search r (s ++ t) = none) : search r s = none ∧ search r t = none := by
  rw [search_eq_none_iff] at h
  rw [search_eq_none_iff, search_eq_none_iff]
  constructor
  · rintro b u v cs rfl
    exact h b u (v ++ t) cs (by simp)
  · rintro b u v cs rfl
    exact h (s ++ b) u v cs (by simp)

/-- The windows of the samples printed, each of the first pattern and ended by
its sample. -/
theorem windows_of_quiet {pyu : PyUnicode} {others : List (Regex Char)}
    (hothers : ∀ r ∈ others, Avoids r breaks) (sub : Subscriber) (eol : LineEnd)
    {lines : List OutputLine} (h : ∀ l ∈ lines, l.Quiet pyu others sub) {before : List Char}
    (hbefore : LineStart before) :
    List.Forall₂ (fun w r => w.index = 0 ∧ ReadsSample pyu sub w r)
      (expectAll (sampleEnd :: others) before 0 (printed sub eol lines)) (samplesOf lines) := by
  induction lines generalizing before with
  | nil => exact List.Forall₂.nil
  | cons l lines ih =>
      rw [List.forall_mem_cons] at h
      cases l with
      | other text =>
          have hquiet : ∀ r ∈ sampleEnd :: others,
              QuietBefore r (text ++ eol.text) (printed sub eol lines) := by
            rw [List.forall_mem_cons]
            exact ⟨quietBefore_line h.1.1 eol _, fun r hr =>
              quietBefore_endOfLine (endsLine_of_breaks (hothers r hr)) (h.1.2 r hr) eol _⟩
          have hprinted : printed sub eol (.other text :: lines) =
              (text ++ eol.text) ++ printed sub eol lines := rfl
          rw [hprinted, expectAll_quiet hquiet]
          exact ih h.2 (hbefore.append h.1.1 eol)
      | sample r =>
          have hr : r.Legal pyu := h.1.1
          have hprinted : printed sub eol (.sample r :: lines) =
              r.line sub ++ eol.text ++ printed sub eol lines := rfl
          have hparts : ∀ r' ∈ others,
              search r' (r.topic.toList ++ (r.fields sub).text) = none ∧
                search r' (payloadSuffix r.sample.additionalPayloadSize) = none := by
            intro r' hr'
            have hline := h.1.2 r' hr'
            simp only [r.line_eq] at hline
            exact ⟨(search_eq_none_of_append hline).1,
              (search_eq_none_of_append (search_eq_none_of_append hline).2).2⟩
          rw [hprinted, expectAll_line hr sub eol others
            (fun r' hr' t => quietBefore_of_search (hothers r' hr') (by decide) (hparts r' hr').1)
            (fun r' hr' t =>
              quietBefore_endOfLine (endsLine_of_breaks (hothers r' hr')) (hparts r' hr').2 eol t)]
          refine List.Forall₂.cons ⟨rfl, hr.readsSample sub hbefore 0⟩ ?_
          exact ih h.2 (Received.lineStart_tail _ eol)

/-- So many turns of the loop save so many samples; one more is to come. -/
theorem saveSamples_eq {pyu : PyUnicode} {sub : Subscriber} (n : Nat) {w : Window Char}
    {r : Received} {windows : List (Window Char)} {rs : List Received}
    (hw : ReadsSample pyu sub w r)
    (h : List.Forall₂ (fun w r => w.index = 0 ∧ ReadsSample pyu sub w r) windows rs) :
    saveSamples (n + 1) w windows =
      ⟨if n + 1 < rs.length + 1 then .ok else .dataNotSent,
        ((r :: rs).take (n + 1)).map savedText⟩ := by
  induction n generalizing w r windows rs with
  | zero =>
      obtain ⟨m, hm, hmtext, -⟩ := hw.search_numbersSample none
      rw [saveSamples, savedSample_eq, hm]
      cases h with
      | nil => simp [hmtext]
      | cons hw' hrest => simp [saveSamples, hw'.1, hmtext]
  | succ n ih =>
      obtain ⟨m, hm, hmtext, -⟩ := hw.search_numbersSample none
      rw [saveSamples, savedSample_eq, hm]
      cases h with
      | nil => simp [hmtext]
      | @cons w' r' windows' rs' hw' hrest =>
          simp only [hw'.1]
          rw [ih hw'.2 hrest]
          simp [hmtext]

/-- What is saved of the samples printed. -/
theorem samplesStage_printed (pyu : PyUnicode) (py : PyCase) (sub : Subscriber) (eol : LineEnd)
    (lines : List OutputLine) (h : ∀ l ∈ lines, l.Quiet pyu (mishaps py) sub) :
    samplesStage py (printed sub eol lines) =
      ⟨if maxSamplesSaved < (samplesOf lines).length then .ok else .dataNotSent,
        ((samplesOf lines).take maxSamplesSaved).map savedText⟩ := by
  have hwindows := windows_of_quiet (avoids_mishaps py) sub eol h (.inl rfl)
  rw [samplesStage, sent_eq]
  cases hcase : expectAll (sampleEnd :: mishaps py) [] 0 (printed sub eol lines) with
  | nil =>
      rw [hcase, List.forall₂_nil_left_iff] at hwindows
      rw [hwindows]
      rfl
  | cons w windows =>
      rw [hcase] at hwindows
      cases hsamples : samplesOf lines with
      | nil => rw [hsamples] at hwindows; cases hwindows
      | cons r rs =>
          rw [hsamples] at hwindows
          cases hwindows with
          | cons hw hrest =>
              simp only [hw.1]
              exact saveSamples_eq 499 hw.2 hrest

/-! ## The whole output -/

/-- Lines of text. -/
def linesText (eol : LineEnd) (ls : List (List Char)) : List Char := ls.flatMap (· ++ eol.text)

/-- None of the patterns matches in the line. -/
def Silent (rs : List (Regex Char)) (l : List Char) : Prop := ∀ r ∈ rs, search r l = none

instance (rs : List (Regex Char)) (l : List Char) : Decidable (Silent rs l) :=
  inferInstanceAs (Decidable (∀ r ∈ rs, search r l = none))

theorem expect_lines {rs : List (Regex Char)} (hrs : ∀ r ∈ rs, Avoids r endsLine) (eol : LineEnd)
    {ls : List (List Char)} (h : ∀ l ∈ ls, Silent rs l) (before t : List Char) :
    expect rs before (linesText eol ls ++ t) = expect rs (before ++ linesText eol ls) t := by
  refine expect_quiet (fun r hr => ?_) before
  induction ls with
  | nil => intro b a c hb; simp [linesText] at hb
  | cons l ls ih =>
      rw [List.forall_mem_cons] at h
      have hsplit : linesText eol (l :: ls) = (l ++ eol.text) ++ linesText eol ls := rfl
      rw [hsplit]
      exact (quietBefore_endOfLine (hrs r hr) (h.1 r hr) eol _).append (ih h.2)

theorem first_lit (l v : List Char) : first (lit l) (l ++ v) = some (l, [], v) :=
  first_eq_some (parse_lit_iff.mpr ⟨rfl, rfl⟩) fun _ _ _ _ hp => parse_lit_iff.mp hp

theorem first_called (name : String) (v : List Char) :
    first (called name) (name.toList ++ v) = some (name.toList, [(1, [])], v) :=
  first_eq_some (parse_called_iff.mpr ⟨rfl, rfl⟩) fun _ _ _ _ hp => parse_called_iff.mp hp

/-- The first pattern is found at the head of its line, behind lines without
any. -/
theorem expect_head {r : Regex Char} {rs : List (Regex Char)} (eol : LineEnd)
    (hrs : ∀ r' ∈ r :: rs, Avoids r' endsLine) {ls : List (List Char)}
    (h : ∀ l ∈ ls, Silent (r :: rs) l) {u v : List Char} {cs : Captures Char}
    (hfirst : first r (u ++ v) = some (u, cs, v)) :
    expect (r :: rs) [] (linesText eol ls ++ (u ++ v)) =
      some (⟨0, linesText eol ls, u⟩, v) := by
  have hne : u ≠ [] := (hrs r List.mem_cons_self u cs (parse_of_first hfirst).2).1
  rw [expect_lines hrs eol h, List.nil_append]
  exact expect_match hne (by rw [firstOf, hfirst]) _

theorem foreign_of_endsLine {d : Char} (h : endsLine d = true) : Foreign d :=
  foreign_of_breaks (by simp [breaks, h])

theorem avoids_topic (py : PyCase) : ∀ r ∈ Patterns.topic py, Avoids r endsLine := by
  intro r hr
  simp only [Patterns.topic, List.mem_cons, List.not_mem_nil, or_false] at hr
  rcases hr with rfl | rfl
  · exact avoids_lit (by decide) (by decide)
  · exact avoids_notSupported py fun _ => foreign_of_endsLine

theorem avoids_writer (py : PyCase) : ∀ r ∈ Patterns.writer py, Avoids r endsLine := by
  intro r hr
  simp only [Patterns.writer, List.mem_cons, List.not_mem_nil, or_false] at hr
  rcases hr with rfl | rfl
  · exact avoids_lit (by decide) (by decide)
  · exact avoids_notSupported py fun _ => foreign_of_endsLine

theorem avoids_matched (py : PyCase) : ∀ r ∈ Patterns.matched py, Avoids r endsLine := by
  intro r hr
  simp only [Patterns.matched, List.mem_cons, List.not_mem_nil, or_false] at hr
  rcases hr with rfl | rfl | rfl
  · exact avoids_called (by decide) (by decide)
  · exact avoids_lit (by decide) (by decide)
  · exact avoids_notSupported py fun _ => foreign_of_endsLine

/-- The output of a publisher that gets as far as its samples: lines, one that a
topic is created, lines, one that a writer is, lines, one that a reader is
matched, and what is printed from then on.  A text is what stands in its line
behind the words that are expected. -/
structure PublisherLog where
  early : List (List Char)
  topicRest : List Char
  created : List (List Char)
  writerRest : List Char
  waiting : List (List Char)
  matchRest : List Char
  sending : List OutputLine

/-- What is printed. -/
def PublisherLog.text (sub : Subscriber) (eol : LineEnd) (log : PublisherLog) : List Char :=
  linesText eol log.early ++ ("Create topic:".toList ++
    (linesText eol (log.topicRest :: log.created) ++ ("Create writer for topic".toList ++
      (linesText eol (log.writerRest :: log.waiting) ++ ("on_publication_matched".toList ++
        printed sub eol (.other log.matchRest :: log.sending))))))

/-- Nothing that is expected stands anywhere else. -/
structure PublisherLog.Legal (pyu : PyUnicode) (py : PyCase) (sub : Subscriber)
    (log : PublisherLog) : Prop where
  early : ∀ l ∈ log.early, Silent (Patterns.topic py) l
  created : ∀ l ∈ log.topicRest :: log.created, Silent (Patterns.writer py) l
  waiting : ∀ l ∈ log.writerRest :: log.waiting, Silent (Patterns.matched py) l
  sending : ∀ l ∈ OutputLine.other log.matchRest :: log.sending, l.Quiet pyu (mishaps py) sub

/-- **What a publisher prints is what is saved.**  Of every such output, the
queue has `x y [size]` of the samples printed behind the match of the reader,
in order, up to 500 and nothing else; the code is `OK` exactly if there are
more than that. -/
theorem publisherOutput_printed (pyu : PyUnicode) (py : PyCase) (sub : Subscriber) (eol : LineEnd)
    (log : PublisherLog) (h : log.Legal pyu py sub) :
    publisherOutput py true (log.text sub eol) =
      ⟨if maxSamplesSaved < (samplesOf log.sending).length then .ok else .dataNotSent,
        ((samplesOf log.sending).take maxSamplesSaved).map savedText⟩ := by
  have htopic := expect_head eol (avoids_topic py) h.early
    (first_lit "Create topic:".toList
      (linesText eol (log.topicRest :: log.created) ++ ("Create writer for topic".toList ++
        (linesText eol (log.writerRest :: log.waiting) ++ ("on_publication_matched".toList ++
          printed sub eol (.other log.matchRest :: log.sending))))))
  have hwriter := expect_head eol (avoids_writer py) h.created
    (first_lit "Create writer for topic".toList
      (linesText eol (log.writerRest :: log.waiting) ++ ("on_publication_matched".toList ++
        printed sub eol (.other log.matchRest :: log.sending))))
  have hmatched := expect_head eol (avoids_matched py) h.waiting
    (first_called "on_publication_matched"
      (printed sub eol (.other log.matchRest :: log.sending)))
  rw [publisherOutput, PublisherLog.text, Patterns.topic, htopic]
  simp only [zero_ne_one, if_false]
  rw [writerStage, Patterns.writer, hwriter]
  simp only [zero_ne_one, if_false]
  rw [matchStage, Patterns.matched, hmatched]
  simp only [zero_ne_one, OfNat.zero_ne_ofNat, if_false, if_true]
  exact samplesStage_printed pyu py sub eol _ h.sending

/-- The output of a publisher of a square. -/
def squareLog : PublisherLog where
  early := ["shape_main, HDDS".toList]
  topicRest := " Square".toList
  created := ["Create publisher".toList]
  writerRest := ": Square color: BLUE".toList
  waiting := ["Square     BLUE       001 002 [30]".toList]
  matchRest := "() topic: 'Square' type: 'ShapeType' : matched readers 1 (change = 1)".toList
  sending := [.sample ⟨"Square", ⟨"BLUE", 7, 120, 30, [1, 255]⟩⟩, .other [],
    .sample ⟨"Square", ⟨"BLUE", 9, 123, 30, []⟩⟩]

theorem publisherOutput_printed_squareLog :
    publisherOutput .ascii true (squareLog.text .cxx .crlf) =
      ⟨.dataNotSent, ["007 120 [30]".toList, "009 123 [30]".toList]⟩ := by
  have hword : ∀ {l : List Char}, l.all PyUnicode.ascii.word = true →
      ∀ c ∈ l, PyUnicode.ascii.word c = true := List.all_eq_true.mp
  refine publisherOutput_printed .ascii .ascii .cxx .crlf squareLog
    { early := by decide
      created := by decide
      waiting := by decide
      sending := ?_ }
  simp only [squareLog, List.forall_mem_cons, OutputLine.Quiet, OutputLine.Legal]
  exact ⟨⟨noSample_of_not_mem (by decide), by decide⟩,
    ⟨⟨⟨by decide, hword (by decide)⟩, ⟨by decide, hword (by decide)⟩,
      by decide, by decide, by decide⟩, by decide⟩,
    ⟨noSample_of_not_mem (by decide), by decide⟩,
    ⟨⟨⟨by decide, hword (by decide)⟩, ⟨by decide, hword (by decide)⟩,
      by decide, by decide, by decide⟩, by decide⟩, by simp⟩

end DdsRtps.Harness
