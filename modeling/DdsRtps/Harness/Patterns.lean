/-
# `DdsRtps.Harness.Patterns` — the patterns the checks search for

The regular expressions of rtps_test_utilities.py and
test_suite_functions.py, each under the function that uses it, and what their
matches say.  The checks search in `child_sub.before + child_sub.after`, a
text that ends with a match of `[digits]`.

`\w` and `\s` are those of Python strings, which go by the Unicode tables of
the interpreter (`PyUnicode`).

All the sample patterns end in the same fields: space, color, space, number,
space, number, space.  Read from the right, a text splits into such fields in
one way only (`Fields.unique`).
-/
import DdsRtps.Lib.PyUnicode
import DdsRtps.Lib.Regex

namespace DdsRtps.Harness

open Regex

open PyUnicode (digit)

/-! ## The end of a sample -/

/-- `\[[0-9]+\]`, the pattern the checks expect. -/
def sampleEnd : Regex Char := cat [lit ['['], plus digit, lit [']']]

theorem parse_sampleEnd_iff {u : List Char} {cs : Captures Char} :
    Parse sampleEnd u cs ↔
      ∃ d, d ≠ [] ∧ (∀ c ∈ d, digit c = true) ∧ u = '[' :: d ++ [']'] ∧ cs = [] := by
  simp only [sampleEnd, parse_cat_cons_iff, parse_cat_nil_iff, parse_lit_iff, parse_plus_iff]
  constructor
  · rintro ⟨_, _, _, _, ⟨rfl, rfl⟩, ⟨d, _, _, _, ⟨hd, hdigit, rfl⟩,
      ⟨_, _, _, _, ⟨rfl, rfl⟩, ⟨rfl, rfl⟩, rfl, rfl⟩, rfl, rfl⟩, rfl, rfl⟩
    exact ⟨d, hd, hdigit, by simp, rfl⟩
  · rintro ⟨d, hd, hdigit, rfl, rfl⟩
    exact ⟨['['], [], d ++ [']'], [], ⟨rfl, rfl⟩, ⟨d, [], [']'], [], ⟨hd, hdigit, rfl⟩,
      ⟨[']'], [], [], [], ⟨rfl, rfl⟩, ⟨rfl, rfl⟩, rfl, rfl⟩, rfl, rfl⟩, by simp, rfl⟩

/-- No `[digits]` in a text. -/
def NoSample (t : List Char) : Prop := search sampleEnd t = none

theorem noSample_iff {t : List Char} :
    NoSample t ↔ ∀ a d v, d ≠ [] → (∀ c ∈ d, digit c = true) → t ≠ a ++ '[' :: (d ++ ']' :: v) := by
  rw [NoSample, search_eq_none_iff]
  constructor
  · rintro h a d v hd hdigit rfl
    exact h a ('[' :: d ++ [']']) v [] (by simp) (parse_sampleEnd_iff.mpr ⟨d, hd, hdigit, rfl, rfl⟩)
  · rintro h a u v cs rfl hp
    obtain ⟨d, hd, hdigit, rfl, -⟩ := parse_sampleEnd_iff.mp hp
    exact h a d v hd hdigit (by simp)

theorem noSample_of_not_mem {t : List Char} (h : '[' ∉ t) : NoSample t := by
  rw [noSample_iff]
  rintro a d v - - rfl
  simp at h

/-- A letter that is no digit and no `]` is in no `[digits]`, except as its
head: a `[digits]` around it lies on one side. -/
theorem sample_left_or_right {a d v s t : List Char} {c : Char}
    (hdigit : ∀ c ∈ d, digit c = true) (hc : digit c = false) (hc' : c ≠ ']')
    (h : a ++ '[' :: (d ++ ']' :: v) = s ++ c :: t) :
    (∃ w, s = a ++ '[' :: (d ++ ']' :: w)) ∨ ∃ w, a = s ++ w := by
  rcases List.append_eq_append_iff.mp h with ⟨w, rfl, hw⟩ | ⟨w, rfl, -⟩
  · cases w with
    | nil => exact .inr ⟨[], by simp⟩
    | cons b w =>
        obtain ⟨rfl, htail⟩ := List.cons.inj hw
        obtain ⟨e, w', rfl, he, hhead⟩ := exists_head_split digit w
        left
        have hsplit : d ++ ']' :: v = e ++ (w' ++ c :: t) := by
          rw [← List.append_assoc]
          exact htail
        cases w' with
        | nil =>
            obtain ⟨-, hbad, -⟩ := append_cons_inj hsplit hdigit he (by decide) hc
            exact absurd hbad.symm hc'
        | cons b w' =>
            obtain ⟨rfl, rfl, -⟩ := append_cons_inj hsplit hdigit he (by decide) (hhead b rfl)
            exact ⟨w', rfl⟩
  · exact .inr ⟨w, rfl⟩

theorem NoSample.append_cons {s t : List Char} {c : Char} (hs : NoSample s) (ht : NoSample t)
    (hc : digit c = false) (hc' : c ≠ ']') (hc'' : c ≠ '[') : NoSample (s ++ c :: t) := by
  rw [noSample_iff] at *
  intro a d v hd hdigit h
  rcases sample_left_or_right hdigit hc hc' h.symm with ⟨w, hw⟩ | ⟨w, rfl⟩
  · exact hs a d w hd hdigit hw
  · rw [List.append_assoc, List.append_cancel_left_eq] at h
    cases w with
    | nil => exact hc'' (List.cons.inj h).1
    | cons b w => exact ht w d v hd hdigit (List.cons.inj h).2

/-- Behind a text without samples, nothing begins to match in it. -/
theorem NoSample.quietBefore {s t : List Char} {c : Char} (hs : NoSample s)
    (hc : digit c = false) (hc' : c ≠ ']') : QuietBefore sampleEnd s (c :: t) := by
  rintro b a s' rfl
  rw [first_eq_none_iff]
  intro u v cs h hp
  obtain ⟨d, hd, hdigit, rfl, -⟩ := parse_sampleEnd_iff.mp hp
  have h' : [] ++ '[' :: (d ++ ']' :: v) = (a :: s') ++ c :: t := by simpa using h.symm
  rcases sample_left_or_right hdigit hc hc' h' with ⟨w, hw⟩ | ⟨w, hw⟩
  · exact noSample_iff.mp hs b d w hd hdigit (by rw [hw]; rfl)
  · cases hw

theorem head?_of_parse_sampleEnd {u : List Char} {cs : Captures Char}
    (hp : Parse sampleEnd u cs) : u.head? = some '[' := by
  obtain ⟨d, -, -, rfl, -⟩ := parse_sampleEnd_iff.mp hp
  rfl

/-- Behind a text without samples, a text that ends with one `[digits]` has no
other. -/
theorem sampleEnd_unique {q z a d v : List Char} (hq : NoSample q)
    (hz : ∀ c ∈ z, digit c = true) (hd : d ≠ []) (hdigit : ∀ c ∈ d, digit c = true)
    (h : a ++ '[' :: (d ++ ']' :: v) = q ++ '[' :: (z ++ [']'])) : a = q ∧ d = z ∧ v = [] := by
  rcases sample_left_or_right hdigit (by decide) (by decide) h with ⟨w, hw⟩ | ⟨w, rfl⟩
  · exact absurd hw (noSample_iff.mp hq a d w hd hdigit)
  · rw [List.append_assoc, List.append_cancel_left_eq] at h
    cases w with
    | nil =>
        obtain ⟨rfl, -, rfl⟩ := append_cons_inj (List.cons.inj h).2 hdigit hz (by decide) (by decide)
        exact ⟨List.append_nil q, rfl, rfl⟩
    | cons b w =>
        -- a second `[` has no place among digits and `]`
        have hmem : '[' ∈ z ++ [']'] := by
          rw [← (List.cons.inj h).2]
          simp
        rcases List.mem_append.mp hmem with hmem | hmem
        · exact absurd (hz _ hmem) (by decide)
        · exact absurd hmem (by decide)

/-! ## The fields before it -/

/-- The texts between the topic and the `[` of a sample. -/
structure Fields where
  sep₁ : List Char
  color : List Char
  sep₂ : List Char
  x : List Char
  sep₃ : List Char
  y : List Char
  sep₄ : List Char

namespace Fields

def text (f : Fields) : List Char :=
  f.sep₁ ++ f.color ++ f.sep₂ ++ f.x ++ f.sep₃ ++ f.y ++ f.sep₄

/-- The separators are spaces, the color is a word and `x` and `y` are numbers. -/
structure Valid (py : PyUnicode) (f : Fields) : Prop where
  sep₁ : f.sep₁ ≠ [] ∧ ∀ c ∈ f.sep₁, py.space c = true
  color : f.color ≠ [] ∧ ∀ c ∈ f.color, py.word c = true
  sep₂ : f.sep₂ ≠ [] ∧ ∀ c ∈ f.sep₂, py.space c = true
  x : f.x ≠ [] ∧ ∀ c ∈ f.x, digit c = true
  sep₃ : f.sep₃ ≠ [] ∧ ∀ c ∈ f.sep₃, py.space c = true
  y : f.y ≠ [] ∧ ∀ c ∈ f.y, digit c = true
  sep₄ : f.sep₄ ≠ [] ∧ ∀ c ∈ f.sep₄, py.space c = true

variable {py : PyUnicode}

theorem space_of_digit {c : Char} (h : digit c = true) : py.space c = false :=
  py.space_of_word (py.word_of_digit h)

/-- Behind a word there is one way to read the fields. -/
theorem unique {f g : Fields} (hf : f.Valid py) (hg : g.Valid py) {a b : List Char}
    (ha : EndsOutside py.space a) (hb : EndsOutside py.space b) (h : a ++ f.text = b ++ g.text) :
    a = b ∧ f = g := by
  obtain ⟨s₁, color, s₂, x, s₃, y, s₄⟩ := f
  obtain ⟨t₁, color', t₂, x', t₃, y', t₄⟩ := g
  simp only [text, ← List.append_assoc] at h
  obtain ⟨h₁, rfl⟩ := append_inj_of_endsOutside h hf.sep₄.2 hg.sep₄.2
    (endsOutside_append hf.y.1 fun c hc => space_of_digit (hf.y.2 c hc))
    (endsOutside_append hg.y.1 fun c hc => space_of_digit (hg.y.2 c hc))
  obtain ⟨h₂, rfl⟩ := append_inj_of_endsOutside h₁ hf.y.2 hg.y.2
    (endsOutside_append hf.sep₃.1 fun c hc => py.digit_of_space (hf.sep₃.2 c hc))
    (endsOutside_append hg.sep₃.1 fun c hc => py.digit_of_space (hg.sep₃.2 c hc))
  obtain ⟨h₃, rfl⟩ := append_inj_of_endsOutside h₂ hf.sep₃.2 hg.sep₃.2
    (endsOutside_append hf.x.1 fun c hc => space_of_digit (hf.x.2 c hc))
    (endsOutside_append hg.x.1 fun c hc => space_of_digit (hg.x.2 c hc))
  obtain ⟨h₄, rfl⟩ := append_inj_of_endsOutside h₃ hf.x.2 hg.x.2
    (endsOutside_append hf.sep₂.1 fun c hc => py.digit_of_space (hf.sep₂.2 c hc))
    (endsOutside_append hg.sep₂.1 fun c hc => py.digit_of_space (hg.sep₂.2 c hc))
  obtain ⟨h₅, rfl⟩ := append_inj_of_endsOutside h₄ hf.sep₂.2 hg.sep₂.2
    (endsOutside_append hf.color.1 fun c hc => py.space_of_word (hf.color.2 c hc))
    (endsOutside_append hg.color.1 fun c hc => py.space_of_word (hg.color.2 c hc))
  obtain ⟨h₆, rfl⟩ := append_inj_of_endsOutside h₅ hf.color.2 hg.color.2
    (endsOutside_append hf.sep₁.1 fun c hc => py.word_of_space (hf.sep₁.2 c hc))
    (endsOutside_append hg.sep₁.1 fun c hc => py.word_of_space (hg.sep₁.2 c hc))
  obtain ⟨rfl, rfl⟩ := append_inj_of_endsOutside h₆ hf.sep₁.2 hg.sep₁.2 ha hb
  exact ⟨rfl, rfl⟩

end Fields

/-! ## The sample patterns -/

/-- A regex, with or without a group around it. -/
def grouped : Option Nat → Regex Char → Regex Char
  | none, r => r
  | some n, r => .group n r

/-- What such a group captures. -/
def captured : Option Nat → List Char → Captures Char
  | none, _ => []
  | some n, u => [(n, u)]

theorem parse_grouped_plus_iff {o : Option Nat} {p : Char → Bool} {u : List Char}
    {cs : Captures Char} :
    Parse (grouped o (plus p)) u cs ↔ u ≠ [] ∧ (∀ c ∈ u, p c = true) ∧ cs = captured o u := by
  cases o with
  | none => exact parse_plus_iff
  | some n =>
      simp only [grouped, parse_group_iff, parse_plus_iff, captured]
      constructor
      · rintro ⟨_, ⟨hne, hall, rfl⟩, rfl⟩
        exact ⟨hne, hall, rfl⟩
      · rintro ⟨hne, hall, rfl⟩
        exact ⟨[], ⟨hne, hall, rfl⟩, rfl⟩

/-- The sample patterns: what stands for the topic, what separates the numbers,
and which groups hold topic, color and size. -/
def samplePattern (py : PyUnicode) (topic sep : Regex Char) (color size : Option Nat) :
    Regex Char :=
  cat [topic, plus py.space, grouped color (plus py.word), plus py.space, plus digit, sep,
    plus digit, sep, lit ['['], grouped size (plus digit), lit [']']]

/-- `\w\s+\w+\s+[0-9]+ [0-9]+ \[([0-9]+)\]`, of `basic_check`. -/
def basicSample (py : PyUnicode) : Regex Char :=
  samplePattern py (.one py.word) (lit [' ']) none (some 1)

/-- `\w+\s+(\w+)\s+[0-9]+\s+[0-9]+\s+\[([0-9]+)\]`, of the checks by instance. -/
def instanceSample (py : PyUnicode) : Regex Char :=
  samplePattern py (plus py.word) (plus py.space) (some 1) (some 2)

/-- `(\w+)\s+(\w+)\s+[0-9]+\s+[0-9]+\s+\[[0-9]+\]`, of `_coherent_sets_w_instances`. -/
def topicSample (py : PyUnicode) : Regex Char :=
  samplePattern py (.group 1 (plus py.word)) (plus py.space) (some 2) none

/-- What a sample pattern matches: topic, fields and size. -/
theorem parse_samplePattern_iff {py : PyUnicode} {topic sep : Regex Char}
    {color size : Option Nat} {u : List Char} {cs : Captures Char}
    (hsep : ∀ s cs, Parse sep s cs → (s ≠ [] ∧ ∀ c ∈ s, py.space c = true) ∧ cs = []) :
    Parse (samplePattern py topic sep color size) u cs ↔
      ∃ (w : List Char) (ws : Captures Char) (f : Fields) (d : List Char), Parse topic w ws ∧
        f.Valid py ∧ Parse sep f.sep₃ [] ∧ Parse sep f.sep₄ [] ∧ d ≠ [] ∧
        (∀ c ∈ d, digit c = true) ∧ u = w ++ f.text ++ '[' :: (d ++ [']']) ∧
        cs = ws ++ captured color f.color ++ captured size d := by
  constructor
  · intro h
    obtain ⟨w, ws, _, _, hw, h₁, rfl, rfl⟩ := parse_cat_cons_iff.mp h
    obtain ⟨s₁, _, _, _, ps₁, h₂, rfl, rfl⟩ := parse_cat_cons_iff.mp h₁
    obtain ⟨col, _, _, _, pcol, h₃, rfl, rfl⟩ := parse_cat_cons_iff.mp h₂
    obtain ⟨s₂, _, _, _, ps₂, h₄, rfl, rfl⟩ := parse_cat_cons_iff.mp h₃
    obtain ⟨x, _, _, _, px, h₅, rfl, rfl⟩ := parse_cat_cons_iff.mp h₄
    obtain ⟨s₃, _, _, _, hs₃, h₆, rfl, rfl⟩ := parse_cat_cons_iff.mp h₅
    obtain ⟨y, _, _, _, py', h₇, rfl, rfl⟩ := parse_cat_cons_iff.mp h₆
    obtain ⟨s₄, _, _, _, hs₄, h₈, rfl, rfl⟩ := parse_cat_cons_iff.mp h₇
    obtain ⟨_, _, _, _, popen, h₉, rfl, rfl⟩ := parse_cat_cons_iff.mp h₈
    obtain ⟨d, _, _, _, pd, h₁₀, rfl, rfl⟩ := parse_cat_cons_iff.mp h₉
    obtain ⟨_, _, _, _, pclose, h₁₁, rfl, rfl⟩ := parse_cat_cons_iff.mp h₁₀
    obtain ⟨rfl, rfl⟩ := parse_cat_nil_iff.mp h₁₁
    obtain ⟨hs₁, hs₁', rfl⟩ := parse_plus_iff.mp ps₁
    obtain ⟨hcol, hcol', rfl⟩ := parse_grouped_plus_iff.mp pcol
    obtain ⟨hs₂, hs₂', rfl⟩ := parse_plus_iff.mp ps₂
    obtain ⟨hx, hx', rfl⟩ := parse_plus_iff.mp px
    obtain ⟨hspace₃, rfl⟩ := hsep _ _ hs₃
    obtain ⟨hy, hy', rfl⟩ := parse_plus_iff.mp py'
    obtain ⟨hspace₄, rfl⟩ := hsep _ _ hs₄
    obtain ⟨rfl, rfl⟩ := parse_lit_iff.mp popen
    obtain ⟨hd, hd', rfl⟩ := parse_grouped_plus_iff.mp pd
    obtain ⟨rfl, rfl⟩ := parse_lit_iff.mp pclose
    exact ⟨w, ws, ⟨s₁, col, s₂, x, s₃, y, s₄⟩, d, hw,
      ⟨⟨hs₁, hs₁'⟩, ⟨hcol, hcol'⟩, ⟨hs₂, hs₂'⟩, ⟨hx, hx'⟩, hspace₃, ⟨hy, hy'⟩, hspace₄⟩,
      hs₃, hs₄, hd, hd', by simp [Fields.text], by simp⟩
  · rintro ⟨w, ws, f, d, hw, hf, hs₃, hs₄, hd, hd', rfl, rfl⟩
    refine ⟨w, ws, _, _, hw,
      ⟨f.sep₁, _, _, _, parse_plus_iff.mpr ⟨hf.sep₁.1, hf.sep₁.2, rfl⟩,
      ⟨f.color, _, _, _, parse_grouped_plus_iff.mpr ⟨hf.color.1, hf.color.2, rfl⟩,
      ⟨f.sep₂, _, _, _, parse_plus_iff.mpr ⟨hf.sep₂.1, hf.sep₂.2, rfl⟩,
      ⟨f.x, _, _, _, parse_plus_iff.mpr ⟨hf.x.1, hf.x.2, rfl⟩,
      ⟨f.sep₃, _, _, _, hs₃,
      ⟨f.y, _, _, _, parse_plus_iff.mpr ⟨hf.y.1, hf.y.2, rfl⟩,
      ⟨f.sep₄, _, _, _, hs₄,
      ⟨_, _, _, _, parse_lit_iff.mpr ⟨rfl, rfl⟩,
      ⟨d, _, _, _, parse_grouped_plus_iff.mpr ⟨hd, hd', rfl⟩,
      ⟨_, _, _, _, parse_lit_iff.mpr ⟨rfl, rfl⟩, ⟨rfl, rfl⟩, rfl, rfl⟩,
      rfl, rfl⟩, rfl, rfl⟩, rfl, rfl⟩, rfl, rfl⟩, rfl, rfl⟩, rfl, rfl⟩, rfl, rfl⟩, rfl, rfl⟩,
      rfl, rfl⟩, ?_, ?_⟩
    · simp [Fields.text]
    · simp

/-! ## Searching up to the end of a sample -/

/-- A text that ends with a sample: `pre` stands before its topic, and there is
no other `[digits]` in the text. -/
structure SampleAt (py : PyUnicode) (pre topic : List Char) (f : Fields) (size : List Char) :
    Prop where
  endsOutside : EndsOutside py.word pre
  topic_word : topic ≠ [] ∧ ∀ c ∈ topic, py.word c = true
  valid : f.Valid py
  size_digit : size ≠ [] ∧ ∀ c ∈ size, digit c = true
  noSample : NoSample (pre ++ topic ++ f.text)

/-- That text. -/
def sampleText (pre topic : List Char) (f : Fields) (size : List Char) : List Char :=
  pre ++ topic ++ f.text ++ '[' :: (size ++ [']'])

namespace SampleAt

variable {py : PyUnicode} {pre topic size : List Char} {f : Fields}

/-- Whatever a sample pattern matches in the text is that sample. -/
theorem unique (h : SampleAt py pre topic f size) {b w d v : List Char} {g : Fields}
    (hw : w ≠ [] ∧ ∀ c ∈ w, py.word c = true) (hg : g.Valid py) (hd : d ≠ [])
    (hdigit : ∀ c ∈ d, digit c = true)
    (heq : sampleText pre topic f size = b ++ (w ++ g.text ++ '[' :: (d ++ [']'])) ++ v) :
    b ++ w = pre ++ topic ∧ g = f ∧ d = size := by
  have hcut : (b ++ w ++ g.text) ++ '[' :: (d ++ ']' :: v) =
      (pre ++ topic ++ f.text) ++ '[' :: (size ++ [']']) := by
    simpa [sampleText] using heq.symm
  obtain ⟨hfields, hsize, -⟩ := sampleEnd_unique h.noSample h.size_digit.2 hd hdigit hcut
  obtain ⟨hhead, hsame⟩ := Fields.unique hg h.valid
    (endsOutside_append hw.1 fun c hc => py.space_of_word (hw.2 c hc))
    (endsOutside_append h.topic_word.1 fun c hc => py.space_of_word (h.topic_word.2 c hc)) hfields
  exact ⟨hhead, hsame, hsize⟩

/-- A sample pattern finds the sample, if its first part can match some end of
the topic. -/
theorem search_samplePattern (h : SampleAt py pre topic f size) (head sep : Regex Char)
    (gc gs : Option Nat)
    (hhead : ∀ w ws, Parse head w ws → w ≠ [] ∧ ∀ c ∈ w, py.word c = true)
    (hsep : ∀ s cs, Parse sep s cs → (s ≠ [] ∧ ∀ c ∈ s, py.space c = true) ∧ cs = [])
    (hs₃ : Parse sep f.sep₃ []) (hs₄ : Parse sep f.sep₄ []) {b₀ w₀ : List Char}
    {ws₀ : Captures Char} (hsplit : b₀ ++ w₀ = pre ++ topic) (hw₀ : Parse head w₀ ws₀) :
    ∃ m w ws, search (samplePattern py head sep gc gs) (sampleText pre topic f size) = some m ∧
      Parse head w ws ∧ m.before ++ w = pre ++ topic ∧ m.before.length ≤ b₀.length ∧
      m.captures = ws ++ captured gc f.color ++ captured gs size := by
  have hp : Parse (samplePattern py head sep gc gs) (w₀ ++ f.text ++ '[' :: (size ++ [']']))
      (ws₀ ++ captured gc f.color ++ captured gs size) :=
    (parse_samplePattern_iff hsep).mpr
      ⟨w₀, ws₀, f, size, hw₀, h.valid, hs₃, hs₄, h.size_digit.1, h.size_digit.2, rfl, rfl⟩
  have htext : sampleText pre topic f size =
      b₀ ++ (w₀ ++ f.text ++ '[' :: (size ++ [']'])) ++ [] := by
    rw [sampleText, ← hsplit]
    simp
  obtain ⟨m, hm⟩ := exists_search_eq_some (b := b₀) (v := []) hp
  rw [← htext] at hm
  obtain ⟨ht, hparse, hleft⟩ := search_spec hm
  obtain ⟨w, ws, g, d, hw, hg, -, -, hd, hdigit, hu, hcs⟩ := (parse_samplePattern_iff hsep).mp hparse
  rw [hu] at ht
  obtain ⟨hbw, rfl, rfl⟩ := h.unique (hhead w ws hw) hg hd hdigit ht
  exact ⟨m, w, ws, hm, hw, hbw, hleft _ _ _ _ htext hp, hcs⟩

theorem parse_plus_space (py : PyUnicode) {s : List Char} {cs : Captures Char}
    (hs : Parse (plus py.space) s cs) : (s ≠ [] ∧ ∀ c ∈ s, py.space c = true) ∧ cs = [] := by
  obtain ⟨hne, hall, hcs⟩ := parse_plus_iff.mp hs
  exact ⟨⟨hne, hall⟩, hcs⟩

theorem parse_topic (h : SampleAt py pre topic f size) : Parse (plus py.word) topic [] :=
  parse_plus_iff.mpr ⟨h.topic_word.1, h.topic_word.2, rfl⟩

theorem parse_sep₃ (h : SampleAt py pre topic f size) : Parse (plus py.space) f.sep₃ [] :=
  parse_plus_iff.mpr ⟨h.valid.sep₃.1, h.valid.sep₃.2, rfl⟩

theorem parse_sep₄ (h : SampleAt py pre topic f size) : Parse (plus py.space) f.sep₄ [] :=
  parse_plus_iff.mpr ⟨h.valid.sep₄.1, h.valid.sep₄.2, rfl⟩

/-- The color and the size that the checks by instance read. -/
theorem search_instanceSample (h : SampleAt py pre topic f size) :
    ∃ m, search (instanceSample py) (sampleText pre topic f size) = some m ∧
      m.captures = [(1, f.color), (2, size)] := by
  obtain ⟨m, w, ws, hm, hw, -, -, hcs⟩ := h.search_samplePattern (plus py.word)
    (plus py.space) (some 1) (some 2)
    (fun w ws hw => by
      obtain ⟨hne, hall, -⟩ := parse_plus_iff.mp hw
      exact ⟨hne, hall⟩)
    (fun s cs hs => parse_plus_space py hs) h.parse_sep₃ h.parse_sep₄ rfl h.parse_topic
  obtain ⟨-, -, rfl⟩ := parse_plus_iff.mp hw
  exact ⟨m, hm, hcs⟩

/-- The topic and the color that `_coherent_sets_w_instances` reads. -/
theorem search_topicSample (h : SampleAt py pre topic f size) :
    ∃ m, search (topicSample py) (sampleText pre topic f size) = some m ∧
      m.captures = [(1, topic), (2, f.color)] := by
  obtain ⟨m, w, ws, hm, hw, hbw, hleft, hcs⟩ := h.search_samplePattern
    (.group 1 (plus py.word)) (plus py.space) (some 2) none
    (fun w ws hw => by
      obtain ⟨cs', hw, -⟩ := parse_group_iff.mp hw
      obtain ⟨hne, hall, -⟩ := parse_plus_iff.mp hw
      exact ⟨hne, hall⟩)
    (fun s cs hs => parse_plus_space py hs) h.parse_sep₃ h.parse_sep₄ rfl
    (parse_group_iff.mpr ⟨[], h.parse_topic, rfl⟩)
  obtain ⟨cs', hplus, rfl⟩ := parse_group_iff.mp hw
  obtain ⟨-, hword, rfl⟩ := parse_plus_iff.mp hplus
  -- the leftmost match begins where the topic does: `pre` does not end in a word
  obtain ⟨-, rfl⟩ : pre = m.before ∧ topic = w := by
    rcases List.append_eq_append_iff.mp hbw with ⟨e, hpre, rfl⟩ | ⟨e, hpre, htopic⟩
    · have he : e = [] := by
        by_contra hne
        obtain ⟨c, hc⟩ := Option.isSome_iff_exists.mp (List.getLast?_isSome.mpr hne)
        have hout := h.endsOutside c (by rw [hpre, List.getLast?_append_of_ne_nil _ hne]; exact hc)
        rw [hword c (List.mem_append_left _ (List.mem_of_getLast? hc))] at hout
        cases hout
      subst he
      exact ⟨by simpa using hpre, rfl⟩
    · have he : e = [] := by
        rw [hpre, List.length_append] at hleft
        exact List.length_eq_zero_iff.mp (by omega)
      subst he
      exact ⟨by simpa using hpre.symm, htopic⟩
  exact ⟨m, hm, hcs⟩

/-- The size that `basic_check` reads, if the numbers are one blank apart. -/
theorem search_basicSample (h : SampleAt py pre topic f size) (hs₃ : f.sep₃ = [' '])
    (hs₄ : f.sep₄ = [' ']) :
    ∃ m, search (basicSample py) (sampleText pre topic f size) = some m ∧
      m.captures = [(1, size)] := by
  obtain ⟨topic', c, htopic⟩ : ∃ topic' c, topic = topic' ++ [c] :=
    ⟨_, _, (List.dropLast_append_getLast h.topic_word.1).symm⟩
  have hc : py.word c = true := h.topic_word.2 c (by rw [htopic]; simp)
  have hsplit : (pre ++ topic') ++ [c] = pre ++ topic := by rw [htopic, List.append_assoc]
  obtain ⟨m, w, ws, hm, hw, -, -, hcs⟩ := h.search_samplePattern (.one py.word)
    (lit [' ']) none (some 1)
    (fun w ws hw => by
      obtain ⟨c, hc, rfl, -⟩ := hw
      exact ⟨by simp, by simpa using hc⟩)
    (fun s cs hs => by
      obtain ⟨rfl, rfl⟩ := parse_lit_iff.mp hs
      exact ⟨⟨by simp, by simpa using py.space_blank⟩, rfl⟩)
    (parse_lit_iff.mpr ⟨hs₃, rfl⟩) (parse_lit_iff.mpr ⟨hs₄, rfl⟩) hsplit
    ⟨c, hc, rfl, rfl⟩
  obtain ⟨c', -, rfl, rfl⟩ := hw
  exact ⟨m, hm, hcs⟩

end SampleAt

end DdsRtps.Harness
