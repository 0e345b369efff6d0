/-
# `DdsRtps.Harness.SampleLines` — what a subscriber prints is what is read

`run_subscriber` prints a line for each sample, in srcCxx/shape_main.cxx with
`printf("%-10s %-10s %03d %03d [%d]")` and in srcRs/HDDS/src/main.rs with
`print!("{:<10} {:<10} {:03} {:03} [{}]")`; ` {byte}` follows when there is a
payload.  The two differ in one thing: what counts for the width of a string
is bytes in the one and characters in the other.

The checks expect `\[[0-9]+\]` again and again, and search in what each
`expect` has read.  `readings_of_printed` says that they read back the samples
that were printed, whatever stands between the lines.
-/
import DdsRtps.Harness.Patterns
import DdsRtps.Harness.ReturnCode
import DdsRtps.Hdds.ShapeType
import Mathlib.Data.List.Forall2

namespace DdsRtps.Harness

open Regex
open PyUnicode (digit)
open Hdds (ShapeType)

/-! ## Printing -/

/-- The two `run_subscriber` that print samples. -/
inductive Subscriber where
  | cxx
  | hdds
deriving DecidableEq, Repr

/-- What the width of a string field counts. -/
def Subscriber.width : Subscriber → String → Nat
  | .cxx, s => (Utf8.asBytes s).length
  | .hdds, s => s.toList.length

/-- `%-10s`. -/
def padded (sub : Subscriber) (s : String) : List Char :=
  s.toList ++ List.replicate (10 - sub.width s) ' '

/-- `%d`. -/
def showInt : Int → List Char
  | .ofNat n => Nat.toDigits 10 n
  | .negSucc n => '-' :: Nat.toDigits 10 (n + 1)

/-- `%03d`. -/
def showInt03 : Int → List Char
  | .ofNat n => List.replicate (3 - (Nat.toDigits 10 n).length) '0' ++ Nat.toDigits 10 n
  | .negSucc n =>
      '-' :: (List.replicate (2 - (Nat.toDigits 10 (n + 1)).length) '0' ++ Nat.toDigits 10 (n + 1))

/-- ` {byte}`, the last of the payload. -/
def payloadSuffix (payload : List UInt8) : List Char :=
  match payload.getLast? with
  | none => []
  | some byte => " \x7b".toList ++ Nat.toDigits 10 byte.toNat ++ "\x7d".toList

/-- How a line ends on the terminal. -/
inductive LineEnd where
  | lf
  | crlf
deriving DecidableEq, Repr

def LineEnd.text : LineEnd → List Char
  | .lf => ['\n']
  | .crlf => ['\r', '\n']

/-- A sample as it is received: its topic and its value. -/
structure Received where
  topic : String
  sample : ShapeType
deriving DecidableEq, Repr

/-- The line of a sample, without its end. -/
def Received.line (sub : Subscriber) (r : Received) : List Char :=
  padded sub r.topic ++ [' '] ++ padded sub r.sample.color ++ [' '] ++
    showInt03 r.sample.x.toInt ++ [' '] ++ showInt03 r.sample.y.toInt ++ [' ', '['] ++
    showInt r.sample.shapesize.toInt ++ [']'] ++ payloadSuffix r.sample.additionalPayloadSize

/-- A line of the output of a subscriber. -/
inductive OutputLine where
  | sample (r : Received)
  | other (text : List Char)

/-- The samples printed. -/
def samplesOf (lines : List OutputLine) : List Received :=
  lines.filterMap fun
    | .sample r => some r
    | .other _ => none

/-- The output of a subscriber. -/
def printed (sub : Subscriber) (eol : LineEnd) (lines : List OutputLine) : List Char :=
  lines.flatMap fun
    | .sample r => r.line sub ++ eol.text
    | .other text => text ++ eol.text

/-! ## Reading -/

/-- `int` of a text of decimal digits. -/
def pyInt (digits : List Char) : Nat := Nat.ofDigitChars 10 digits 0

/-- The size `basic_check` reads. -/
def basicSize (py : PyUnicode) (text : List Char) : Option Nat :=
  (search (basicSample py) text).bind fun m => (m.group 1).map pyInt

/-- `basic_check`. -/
def basicCheck (py : PyUnicode) (text : List Char) : ReturnCode :=
  match basicSize py text with
  | none => .dataNotReceived
  | some sampleSize => if sampleSize = 0 then .dataNotCorrect else .ok

/-- The color and the size that the checks by instance read. -/
def colorAndSize (py : PyUnicode) (text : List Char) : Option (List Char × Nat) :=
  (search (instanceSample py) text).bind fun m =>
    (m.group 1).bind fun color => (m.group 2).map fun size => (color, pyInt size)

/-- The topic and the color that `_coherent_sets_w_instances` reads. -/
def topicAndColor (py : PyUnicode) (text : List Char) : Option (List Char × List Char) :=
  (search (topicSample py) text).bind fun m =>
    (m.group 1).bind fun topic => (m.group 2).map fun color => (topic, color)

/-! ## A first sample -/

/-- Where `basic_check` passes, there is a sample with the fields one blank apart. -/
theorem exists_fields_of_basicCheck {py : PyUnicode} {text : List Char}
    (hbasic : basicCheck py text = .ok) :
    ∃ (before after d : List Char) (c : Char) (f : Fields),
      text = before ++ ([c] ++ f.text ++ '[' :: (d ++ [']'])) ++ after ∧ py.word c = true ∧
        f.Valid py ∧ f.sep₃ = [' '] ∧ f.sep₄ = [' '] ∧ d ≠ [] ∧ ∀ a ∈ d, digit a = true := by
  cases hsize : search (basicSample py) text with
  | none =>
      rw [basicCheck, basicSize, hsize] at hbasic
      cases hbasic
  | some m =>
      obtain ⟨htext, hparse, -⟩ := search_spec hsize
      obtain ⟨w, ws, f, d, hw, hf, hs₃, hs₄, hd, hdigit, hu, -⟩ :=
        (parse_samplePattern_iff fun s cs hs => by
          obtain ⟨rfl, rfl⟩ := parse_lit_iff.mp hs
          exact ⟨⟨by simp, by simpa using py.space_blank⟩, rfl⟩).mp hparse
      obtain ⟨c, hc, rfl, -⟩ := hw
      exact ⟨m.before, m.after, d, c, f, hu ▸ htext, hc, hf, (parse_lit_iff.mp hs₃).1,
        (parse_lit_iff.mp hs₄).1, hd, hdigit⟩

/-- A sample pattern that takes a letter of the topic and blanks between the numbers
finds a sample there as well; `ws` is what its first part captures. -/
theorem exists_search_of_basicCheck {py : PyUnicode} {text : List Char}
    (hbasic : basicCheck py text = .ok) (topic sep : Regex Char) (color size : Option Nat)
    (htopic : ∀ c, py.word c = true → ∃ ws, Parse topic [c] ws)
    (hblank : Parse sep [' '] [])
    (hsep : ∀ s cs, Parse sep s cs → (s ≠ [] ∧ ∀ c ∈ s, py.space c = true) ∧ cs = []) :
    ∃ m w ws d, ∃ f : Fields, search (samplePattern py topic sep color size) text = some m ∧
      Parse topic w ws ∧ m.captures = ws ++ captured color f.color ++ captured size d := by
  obtain ⟨before, after, d, c, f, htext, hc, hf, hs₃, hs₄, hd, hdigit⟩ :=
    exists_fields_of_basicCheck hbasic
  obtain ⟨ws, hws⟩ := htopic c hc
  have hparse : Parse (samplePattern py topic sep color size)
      ([c] ++ f.text ++ '[' :: (d ++ [']'])) (ws ++ captured color f.color ++ captured size d) :=
    (parse_samplePattern_iff hsep).mpr
      ⟨[c], ws, f, d, hws, hf, hs₃ ▸ hblank, hs₄ ▸ hblank, hd, hdigit, rfl, rfl⟩
  obtain ⟨m, hm⟩ := exists_search_eq_some (b := before) (v := after) hparse
  rw [← htext] at hm
  obtain ⟨-, hfound, -⟩ := search_spec hm
  obtain ⟨w, ws', f', d', hw, -, -, -, -, -, -, hcs⟩ := (parse_samplePattern_iff hsep).mp hfound
  exact ⟨m, w, ws', d', f', hm, hw, hcs⟩

/-- One that takes a word for the topic and captures the color finds a color. -/
theorem exists_color_of_basicCheck {py : PyUnicode} {text : List Char}
    (hbasic : basicCheck py text = .ok) (size : Option Nat) :
    ∃ m color, search (samplePattern py (plus py.word) (plus py.space) (some 1) size) text = some m ∧
      m.group 1 = some color := by
  obtain ⟨m, w, ws, d, f, hm, hw, hcs⟩ := exists_search_of_basicCheck hbasic (plus py.word)
    (plus py.space) (some 1) size
    (fun c hc => ⟨[], parse_plus_iff.mpr ⟨List.cons_ne_nil c [], by simpa using hc, rfl⟩⟩)
    (parse_plus_iff.mpr ⟨List.cons_ne_nil ' ' [], by simpa using py.space_blank, rfl⟩)
    fun s cs hs => SampleAt.parse_plus_space py hs
  obtain ⟨-, -, rfl⟩ := parse_plus_iff.mp hw
  refine ⟨m, f.color, hm, ?_⟩
  rw [Found.group, hcs]
  rfl

/-! ## The texts of numbers -/

theorem digit_toDigits {n : Nat} {c : Char} (h : c ∈ Nat.toDigits 10 n) : digit c = true :=
  Nat.isDigit_of_mem_toDigits (by decide) (by decide) h

theorem showInt_of_nonneg {n : Int} (h : 0 ≤ n) : showInt n = Nat.toDigits 10 n.toNat := by
  obtain ⟨k, rfl⟩ := Int.eq_ofNat_of_zero_le h
  rfl

theorem showInt03_of_nonneg {n : Int} (h : 0 ≤ n) :
    showInt03 n ≠ [] ∧ ∀ c ∈ showInt03 n, digit c = true := by
  obtain ⟨k, rfl⟩ := Int.eq_ofNat_of_zero_le h
  have heq : showInt03 (k : Int) =
      List.replicate (3 - (Nat.toDigits 10 k).length) '0' ++ Nat.toDigits 10 k := rfl
  rw [heq]
  constructor
  · simp
  · intro c hc
    rcases List.mem_append.mp hc with hc | hc
    · rw [List.eq_of_mem_replicate hc]
      decide
    · exact digit_toDigits hc

theorem pyInt_toDigits (n : Nat) : pyInt (Nat.toDigits 10 n) = n :=
  Nat.ofDigitChars_ten_toDigits

/-! ## Where a line begins -/

/-- A text in which there is no sample and behind which a line begins. -/
def LineStart (t : List Char) : Prop := t = [] ∨ ∃ s, t = s ++ ['\n'] ∧ NoSample s

theorem LineStart.noSample {t : List Char} (h : LineStart t) : NoSample t := by
  rcases h with rfl | ⟨s, rfl, hs⟩
  · exact noSample_of_not_mem List.not_mem_nil
  · exact hs.append_cons (noSample_of_not_mem List.not_mem_nil) (by decide) (by decide) (by decide)

/-- A line without samples behind such a text makes such a text. -/
theorem LineStart.append {t text : List Char} (h : LineStart t) (htext : NoSample text)
    (eol : LineEnd) : LineStart (t ++ (text ++ eol.text)) := by
  have hall : NoSample (t ++ text) := by
    rcases h with rfl | ⟨s, rfl, hs⟩
    · exact htext
    · rw [List.append_assoc]
      exact hs.append_cons htext (by decide) (by decide) (by decide)
  right
  cases eol with
  | lf => exact ⟨t ++ text, by simp [LineEnd.text], hall⟩
  | crlf =>
      exact ⟨t ++ text ++ ['\r'], by simp [LineEnd.text],
        hall.append_cons (noSample_of_not_mem List.not_mem_nil) (by decide) (by decide) (by decide)⟩

/-! ## A line and its fields -/

/-- A sample of which the patterns can make sense: `\w+` for topic and color,
and no negative number. -/
structure Received.Legal (py : PyUnicode) (r : Received) : Prop where
  topic : r.topic.toList ≠ [] ∧ ∀ c ∈ r.topic.toList, py.word c = true
  color : r.sample.color.toList ≠ [] ∧ ∀ c ∈ r.sample.color.toList, py.word c = true
  x : 0 ≤ r.sample.x.toInt
  y : 0 ≤ r.sample.y.toInt
  shapesize : 0 ≤ r.sample.shapesize.toInt

/-- A sample line that makes sense, or any line without `[digits]`. -/
def OutputLine.Legal (py : PyUnicode) : OutputLine → Prop
  | .sample r => r.Legal py
  | .other text => NoSample text

namespace Received

/-- The fields of a sample line. -/
def fields (sub : Subscriber) (r : Received) : Fields where
  sep₁ := List.replicate (10 - sub.width r.topic) ' ' ++ [' ']
  color := r.sample.color.toList
  sep₂ := List.replicate (10 - sub.width r.sample.color) ' ' ++ [' ']
  x := showInt03 r.sample.x.toInt
  sep₃ := [' ']
  y := showInt03 r.sample.y.toInt
  sep₄ := [' ']

theorem line_eq (sub : Subscriber) (r : Received) :
    r.line sub = (r.topic.toList ++ (r.fields sub).text) ++
      ('[' :: (showInt r.sample.shapesize.toInt ++ [']']) ++
        payloadSuffix r.sample.additionalPayloadSize) := by
  simp [line, fields, Fields.text, padded]

variable {py : PyUnicode} {r : Received}

theorem space_blanks (py : PyUnicode) (n : Nat) :
    List.replicate n ' ' ++ [' '] ≠ [] ∧
      ∀ c ∈ List.replicate n ' ' ++ [' '], py.space c = true := by
  refine ⟨by simp, fun c hc => ?_⟩
  rw [← List.replicate_succ'] at hc
  rw [List.eq_of_mem_replicate hc]
  exact py.space_blank

theorem Legal.fields_valid (h : r.Legal py) (sub : Subscriber) : (r.fields sub).Valid py where
  sep₁ := space_blanks py _
  color := h.color
  sep₂ := space_blanks py _
  x := showInt03_of_nonneg h.x
  sep₃ := space_blanks py 0
  y := showInt03_of_nonneg h.y
  sep₄ := space_blanks py 0

/-- Words, numbers and blanks have no bracket. -/
theorem Legal.not_mem_head (h : r.Legal py) (sub : Subscriber) :
    '[' ∉ r.topic.toList ++ (r.fields sub).text := by
  have hword : ∀ {l : List Char}, (∀ c ∈ l, py.word c = true) → '[' ∉ l := fun hl hmem => by
    have := hl _ hmem
    rw [py.word_bracket] at this
    cases this
  have hdigit : ∀ {l : List Char}, (∀ c ∈ l, digit c = true) → '[' ∉ l := fun hl hmem =>
    absurd (hl _ hmem) (by decide)
  have hblank : ∀ n, '[' ∉ List.replicate n ' ' ++ [' '] := fun n hmem => by
    rw [← List.replicate_succ'] at hmem
    exact absurd (List.eq_of_mem_replicate hmem) (by decide)
  simp only [fields, Fields.text, List.mem_append, not_or]
  exact ⟨hword h.topic.2, ⟨⟨⟨⟨⟨List.mem_append.not.mp (hblank _) |> not_or.mp,
    hword h.color.2⟩, List.mem_append.not.mp (hblank _) |> not_or.mp⟩,
    hdigit (showInt03_of_nonneg h.x).2⟩, by decide⟩, hdigit (showInt03_of_nonneg h.y).2⟩, by decide⟩

theorem Legal.size_digit (h : r.Legal py) :
    showInt r.sample.shapesize.toInt ≠ [] ∧
      ∀ c ∈ showInt r.sample.shapesize.toInt, digit c = true := by
  rw [showInt_of_nonneg h.shapesize]
  exact ⟨Nat.toDigits_ne_nil, fun c hc => digit_toDigits hc⟩

/-- What follows the size has no bracket. -/
theorem not_mem_tail (payload : List UInt8) (eol : LineEnd) :
    '[' ∉ payloadSuffix payload ++ eol.text := by
  have hsuffix : '[' ∉ payloadSuffix payload := by
    unfold payloadSuffix
    split
    · exact List.not_mem_nil
    · rename_i byte _
      simp only [List.mem_append, not_or]
      exact ⟨⟨by decide, fun hmem => absurd (digit_toDigits hmem) (by decide)⟩, by decide⟩
  rw [List.mem_append, not_or]
  exact ⟨hsuffix, by cases eol <;> decide⟩

/-- Where a line begins a sample can stand. -/
theorem Legal.sampleAt (h : r.Legal py) (sub : Subscriber) {pre : List Char}
    (hline : LineStart pre) :
    SampleAt py pre r.topic.toList (r.fields sub) (showInt r.sample.shapesize.toInt) where
  endsOutside := by
    rcases hline with rfl | ⟨s, rfl, -⟩
    · exact endsOutside_nil _
    · exact endsOutside_append (by simp) (by simpa using py.word_of_space py.space_newline)
  topic_word := h.topic
  valid := h.fields_valid sub
  size_digit := h.size_digit
  noSample := by
    have hhead := noSample_of_not_mem (h.not_mem_head sub)
    rw [List.append_assoc]
    rcases hline with rfl | ⟨s, rfl, hs⟩
    · exact hhead
    · rw [List.append_assoc]
      exact hs.append_cons hhead (by decide) (by decide) (by decide)

end Received

/-! ## The windows of an output -/

theorem quietBefore_line {text : List Char} (h : NoSample text) (eol : LineEnd) (t : List Char) :
    QuietBefore sampleEnd (text ++ eol.text) t := by
  refine QuietBefore.append ?_
    (quietBefore_of_not_mem (fun _ _ => head?_of_parse_sampleEnd) (by cases eol <;> decide) t)
  cases eol with
  | lf => exact h.quietBefore (by decide) (by decide)
  | crlf => exact h.quietBefore (by decide) (by decide)

theorem first_sampleEnd {z : List Char} (hz : z ≠ [] ∧ ∀ c ∈ z, digit c = true) (t : List Char) :
    first sampleEnd ('[' :: (z ++ [']']) ++ t) = some ('[' :: (z ++ [']']), [], t) := by
  refine first_eq_some (parse_sampleEnd_iff.mpr ⟨z, hz.1, hz.2, rfl, rfl⟩) ?_
  intro u v cs h hp
  obtain ⟨d, -, hdigit, rfl, rfl⟩ := parse_sampleEnd_iff.mp hp
  have hinner : z ++ ']' :: t = d ++ ']' :: v := by simpa using h
  obtain ⟨rfl, -, -⟩ := append_cons_inj hinner hz.2 hdigit (by decide) (by decide)
  exact ⟨rfl, rfl⟩

/-- A sample line has one window, for every choice of other patterns that
nothing in the line begins to match. -/
theorem expectAll_line {py : PyUnicode} {r : Received} (hr : r.Legal py) (sub : Subscriber)
    (eol : LineEnd) (others : List (Regex Char))
    (hhead : ∀ r' ∈ others, ∀ t, QuietBefore r' (r.topic.toList ++ (r.fields sub).text) ('[' :: t))
    (htail : ∀ r' ∈ others, ∀ t,
      QuietBefore r' (payloadSuffix r.sample.additionalPayloadSize ++ eol.text) t)
    (before rest : List Char) :
    expectAll (sampleEnd :: others) before 0 (r.line sub ++ eol.text ++ rest) =
      ⟨0, before ++ (r.topic.toList ++ (r.fields sub).text),
        '[' :: (showInt r.sample.shapesize.toInt ++ [']'])⟩ ::
      expectAll (sampleEnd :: others)
        (payloadSuffix r.sample.additionalPayloadSize ++ eol.text) 0 rest := by
  have hsplit : r.line sub ++ eol.text ++ rest =
      (r.topic.toList ++ (r.fields sub).text) ++
        ('[' :: (showInt r.sample.shapesize.toInt ++ [']']) ++
          ((payloadSuffix r.sample.additionalPayloadSize ++ eol.text) ++ rest)) := by
    rw [r.line_eq]
    simp only [List.append_assoc]
  have hsample : ∀ s t, '[' ∉ s → QuietBefore sampleEnd s t := fun s t hs =>
    quietBefore_of_not_mem (fun _ _ => head?_of_parse_sampleEnd) hs t
  have hfirst := first_sampleEnd hr.size_digit
    ((payloadSuffix r.sample.additionalPayloadSize ++ eol.text) ++ rest)
  have hhead' : ∀ r' ∈ sampleEnd :: others, QuietBefore r' (r.topic.toList ++ (r.fields sub).text)
      ('[' :: (showInt r.sample.shapesize.toInt ++ [']']) ++
        ((payloadSuffix r.sample.additionalPayloadSize ++ eol.text) ++ rest)) :=
    List.forall_mem_cons.mpr
      ⟨hsample _ _ (hr.not_mem_head sub), fun r' hr' => hhead r' hr' _⟩
  have htail' : ∀ r' ∈ sampleEnd :: others,
      QuietBefore r' (payloadSuffix r.sample.additionalPayloadSize ++ eol.text) rest :=
    List.forall_mem_cons.mpr
      ⟨hsample _ _ (Received.not_mem_tail _ eol), fun r' hr' => htail r' hr' _⟩
  rw [hsplit, expectAll_quiet hhead', expectAll_match (i := 0) (by simp) (by rw [firstOf, hfirst]),
    expectAll_quiet htail']
  rfl

/-- A window ends with this sample. -/
def ReadsSample (py : PyUnicode) (sub : Subscriber) (w : Window Char) (r : Received) : Prop :=
  ∃ pre, w.text = sampleText pre r.topic.toList (r.fields sub) (showInt r.sample.shapesize.toInt) ∧
    LineStart pre ∧ r.Legal py

variable {py : PyUnicode} {sub : Subscriber} {w : Window Char} {r : Received}

theorem Received.Legal.readsSample (hr : r.Legal py) (sub : Subscriber) {before : List Char}
    (hbefore : LineStart before) (index : Nat) :
    ReadsSample py sub ⟨index, before ++ (r.topic.toList ++ (r.fields sub).text),
      '[' :: (showInt r.sample.shapesize.toInt ++ [']'])⟩ r := by
  refine ⟨before, ?_, hbefore, hr⟩
  simp only [Window.text, sampleText, List.append_assoc]

/-- Behind a sample a line can begin. -/
theorem Received.lineStart_tail (payload : List UInt8) (eol : LineEnd) :
    LineStart (payloadSuffix payload ++ eol.text) := by
  have hnone : NoSample (payloadSuffix payload) :=
    noSample_of_not_mem fun hmem => Received.not_mem_tail _ eol (List.mem_append_left _ hmem)
  exact LineStart.append (.inl rfl) hnone eol

theorem ReadsSample.topicAndColor (h : ReadsSample py sub w r) :
    topicAndColor py w.text = some (r.topic.toList, r.sample.color.toList) := by
  obtain ⟨pre, htext, hline, hr⟩ := h
  obtain ⟨m, hm, hcs⟩ := (hr.sampleAt sub hline).search_topicSample
  rw [Harness.topicAndColor, htext, hm, Option.bind_some, Found.group, Found.group, hcs]
  rfl

theorem ReadsSample.colorAndSize (h : ReadsSample py sub w r) :
    colorAndSize py w.text =
      some (r.sample.color.toList, r.sample.shapesize.toInt.toNat) := by
  obtain ⟨pre, htext, hline, hr⟩ := h
  obtain ⟨m, hm, hcs⟩ := (hr.sampleAt sub hline).search_instanceSample
  rw [Harness.colorAndSize, htext, hm, Option.bind_some, Found.group, Found.group, hcs,
    ← pyInt_toDigits r.sample.shapesize.toInt.toNat, ← showInt_of_nonneg hr.shapesize]
  rfl

theorem ReadsSample.basicSize (h : ReadsSample py sub w r) :
    basicSize py w.text = some r.sample.shapesize.toInt.toNat := by
  obtain ⟨pre, htext, hline, hr⟩ := h
  obtain ⟨m, hm, hcs⟩ := (hr.sampleAt sub hline).search_basicSample rfl rfl
  rw [Harness.basicSize, htext, hm, Option.bind_some, Found.group, hcs,
    ← pyInt_toDigits r.sample.shapesize.toInt.toNat, ← showInt_of_nonneg hr.shapesize]
  rfl

theorem ReadsSample.basicCheck_text (h : ReadsSample py sub w r) :
    basicCheck py w.text =
      if r.sample.shapesize.toInt.toNat = 0 then .dataNotCorrect else .ok := by
  rw [basicCheck, h.basicSize]

/-- The windows of an output end with its samples, one each and in order. -/
theorem windows_of_printed (sub : Subscriber) (eol : LineEnd)
    {lines : List OutputLine} (h : ∀ l ∈ lines, l.Legal py) {before : List Char}
    (hbefore : LineStart before) :
    List.Forall₂ (ReadsSample py sub)
      (expectAll [sampleEnd] before 0 (printed sub eol lines)) (samplesOf lines) := by
  induction lines generalizing before with
  | nil => exact List.Forall₂.nil
  | cons l lines ih =>
      rw [List.forall_mem_cons] at h
      cases l with
      | other text =>
          have hquiet : ∀ r ∈ [sampleEnd],
              QuietBefore r (text ++ eol.text) (printed sub eol lines) := by
            simpa using quietBefore_line h.1 eol _
          have hprinted : printed sub eol (.other text :: lines) =
              (text ++ eol.text) ++ printed sub eol lines := rfl
          rw [hprinted, expectAll_quiet hquiet]
          exact ih h.2 (hbefore.append h.1 eol)
      | sample r =>
          have hr : r.Legal py := h.1
          have hprinted : printed sub eol (.sample r :: lines) =
              r.line sub ++ eol.text ++ printed sub eol lines := rfl
          rw [hprinted, expectAll_line hr sub eol [] (by simp) (by simp)]
          refine List.Forall₂.cons (hr.readsSample sub hbefore 0) ?_
          exact ih h.2 (Received.lineStart_tail _ eol)

/-- **What is printed is what is read.**  Each of the sample patterns reads
from the windows of an output the samples that were printed, in order, and
nothing else. -/
theorem readings_of_printed (py : PyUnicode) (sub : Subscriber) (eol : LineEnd)
    (lines : List OutputLine) (h : ∀ l ∈ lines, l.Legal py) :
    (expectAll [sampleEnd] [] 0 (printed sub eol lines)).map
        (fun w => (topicAndColor py w.text, colorAndSize py w.text, basicSize py w.text)) =
      (samplesOf lines).map fun r =>
        (some (r.topic.toList, r.sample.color.toList),
          some (r.sample.color.toList, r.sample.shapesize.toInt.toNat),
          some r.sample.shapesize.toInt.toNat) := by
  rw [← List.forall₂_eq_eq_eq, List.forall₂_map_left_iff, List.forall₂_map_right_iff]
  refine (windows_of_printed sub eol h (.inl rfl)).imp fun w r hw => ?_
  rw [hw.topicAndColor, hw.colorAndSize, hw.basicSize]

/-- A line of text, a sample with a payload and one without. -/
def twoSamples : List OutputLine :=
  [.other "Reading coherent sets, iteration 1".toList,
    .sample ⟨"Square", ⟨"BLUE", 7, 120, 30, [1, 255]⟩⟩, .other [],
    .sample ⟨"Square", ⟨"RED", 1234, 0, 0, []⟩⟩]

theorem readings_of_printed_twoSamples :
    (expectAll [sampleEnd] [] 0 (printed .cxx .crlf twoSamples)).map (fun w =>
        (topicAndColor .ascii w.text, colorAndSize .ascii w.text, basicSize .ascii w.text)) =
      [(some ("Square".toList, "BLUE".toList), some ("BLUE".toList, 30), some 30),
        (some ("Square".toList, "RED".toList), some ("RED".toList, 0), some 0)] := by
  have hword : ∀ {l : List Char}, l.all PyUnicode.ascii.word = true →
      ∀ c ∈ l, PyUnicode.ascii.word c = true := List.all_eq_true.mp
  refine readings_of_printed .ascii .cxx .crlf twoSamples ?_
  simp only [twoSamples, List.forall_mem_cons, OutputLine.Legal]
  exact ⟨noSample_of_not_mem (by decide),
    ⟨⟨by decide, hword (by decide)⟩, ⟨by decide, hword (by decide)⟩,
      by decide, by decide, by decide⟩,
    noSample_of_not_mem (by decide),
    ⟨⟨by decide, hword (by decide)⟩, ⟨by decide, hword (by decide)⟩,
      by decide, by decide, by decide⟩,
    by simp⟩

end DdsRtps.Harness
