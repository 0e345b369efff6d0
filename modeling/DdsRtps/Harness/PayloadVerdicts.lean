/-
# `DdsRtps.Harness.PayloadVerdicts` — large data, from the publisher to the verdict

Behind the size of a sample a subscriber prints the last byte of its payload, if
there is one.  `test_large_data` of test_suite_functions.py expects whole samples,
up to that byte, and is content with 500 of them that end with 255; the four
publishers put 255 there.

The pattern of such a sample goes over blanks and ends of lines, so that a match is
not within a line.  But a match has one `{`, and where the lines that are no samples
have none, that of the next payload (`LargeAt.large_unique`).  So the check skips the samples
without a payload, and the first sample, which is read up to its size only
(`payload_verdicts`).
-/
import DdsRtps.Harness.DeadlineVerdicts
import DdsRtps.Harness.WrittenLines
import DdsRtps.Lib.RegexFirst

namespace DdsRtps.Harness

open Regex
open PyUnicode (digit)
open EventLoop (streamOf)
open Hdds (ShapeType)
open ShapeMain (Call)

/-! ## The pattern -/

/-- `\w+\s+\w+\s+[0-9]+\s+[0-9]+\s+\[[0-9]+\]\s+\{[0-9]+\}`, with or without a group
around the last number. -/
def largeSample (py : PyUnicode) (byte : Option Nat) : Regex Char :=
  cat [samplePattern py (plus py.word) (plus py.space) none none, plus py.space,
    lit ['\x7b'], grouped byte (plus digit), lit ['\x7d']]

/-- What it matches: a sample, blanks and a number in braces. -/
theorem parse_largeSample_iff {py : PyUnicode} {byte : Option Nat} {u : List Char}
    {cs : Captures Char} :
    Parse (largeSample py byte) u cs ↔
      ∃ (w : List Char) (f : Fields) (d s b : List Char),
        (w ≠ [] ∧ ∀ c ∈ w, py.word c = true) ∧ f.Valid py ∧
        (d ≠ [] ∧ ∀ c ∈ d, digit c = true) ∧ (s ≠ [] ∧ ∀ c ∈ s, py.space c = true) ∧
        (b ≠ [] ∧ ∀ c ∈ b, digit c = true) ∧
        u = (w ++ f.text ++ '[' :: (d ++ ']' :: s)) ++ '\x7b' :: (b ++ ['\x7d']) ∧
        cs = captured byte b := by
  simp only [largeSample, parse_cat_cons_iff, parse_cat_nil_iff, parse_lit_iff, parse_plus_iff,
    parse_grouped_plus_iff, parse_samplePattern_iff fun s cs => SampleAt.parse_plus_space py]
  constructor
  · rintro ⟨_, _, _, _, ⟨w, _, f, d, ⟨hw, hword, rfl⟩, hf, -, -, hd, hdigit, rfl, rfl⟩,
      ⟨s, _, _, _, ⟨hs, hspace, rfl⟩, ⟨_, _, _, _, ⟨rfl, rfl⟩, ⟨b, _, _, _, ⟨hb, hbyte, rfl⟩,
        ⟨_, _, _, _, ⟨rfl, rfl⟩, ⟨rfl, rfl⟩, rfl, rfl⟩, rfl, rfl⟩, rfl, rfl⟩, rfl, rfl⟩, rfl, rfl⟩
    exact ⟨w, f, d, s, b, ⟨hw, hword⟩, hf, ⟨hd, hdigit⟩, ⟨hs, hspace⟩, ⟨hb, hbyte⟩, by simp,
      by simp [captured]⟩
  · rintro ⟨w, f, d, s, b, hw, hf, hd, hs, hb, rfl, rfl⟩
    exact ⟨_, _, _, _, ⟨w, [], f, d, ⟨hw.1, hw.2, rfl⟩, hf, ⟨hf.sep₃.1, hf.sep₃.2, trivial⟩,
      ⟨hf.sep₄.1, hf.sep₄.2, trivial⟩, hd.1, hd.2, rfl, rfl⟩,
      ⟨s, [], _, _, ⟨hs.1, hs.2, rfl⟩, ⟨_, [], _, _, ⟨rfl, rfl⟩, ⟨b, _, _, [], ⟨hb.1, hb.2, rfl⟩,
        ⟨_, [], [], [], ⟨rfl, rfl⟩, ⟨rfl, rfl⟩, rfl, rfl⟩, rfl, rfl⟩, rfl, rfl⟩, rfl, rfl⟩,
      by simp, by simp [captured]⟩

/-- A match has a brace. -/
theorem brace_mem_of_parse {py : PyUnicode} {byte : Option Nat} {u : List Char}
    {cs : Captures Char} (h : Parse (largeSample py byte) u cs) : '\x7b' ∈ u := by
  obtain ⟨w, f, d, s, b, -, -, -, -, -, rfl, -⟩ := parse_largeSample_iff.mp h
  simp

theorem word_brace (py : PyUnicode) : py.word '\x7b' = false := by
  rw [PyUnicode.word, py.isAlnum_ascii _ (by decide)]
  decide

theorem space_brace (py : PyUnicode) : py.space '\x7b' = false := by
  rw [PyUnicode.space, py.isSpace_ascii _ (by decide)]
  decide

theorem word_closingBrace (py : PyUnicode) : py.word '\x7d' = false := by
  rw [PyUnicode.word, py.isAlnum_ascii _ (by decide)]
  decide

theorem space_closingBrace (py : PyUnicode) : py.space '\x7d' = false := by
  rw [PyUnicode.space, py.isSpace_ascii _ (by decide)]
  decide

section Brace

variable {py : PyUnicode} {l : List Char}

theorem brace_notMem_of_word (h : ∀ c ∈ l, py.word c = true) : '\x7b' ∉ l := fun hmem =>
  absurd (h _ hmem) (by simp [word_brace])

theorem brace_notMem_of_space (h : ∀ c ∈ l, py.space c = true) : '\x7b' ∉ l := fun hmem =>
  absurd (h _ hmem) (by simp [space_brace])

theorem brace_notMem_of_digit (h : ∀ c ∈ l, digit c = true) : '\x7b' ∉ l := fun hmem =>
  absurd (h _ hmem) (by decide)

/-- Words, numbers and blanks have no brace. -/
theorem Fields.Valid.brace_notMem {f : Fields} (h : f.Valid py) : '\x7b' ∉ f.text := by
  simp only [Fields.text, List.mem_append, not_or]
  exact ⟨⟨⟨⟨⟨⟨brace_notMem_of_space h.sep₁.2, brace_notMem_of_word h.color.2⟩,
    brace_notMem_of_space h.sep₂.2⟩, brace_notMem_of_digit h.x.2⟩,
    brace_notMem_of_space h.sep₃.2⟩, brace_notMem_of_digit h.y.2⟩, brace_notMem_of_space h.sep₄.2⟩

end Brace

/-! ## One match -/

/-- A text of which the first brace belongs to a sample: `pre` stands before its topic. -/
structure LargeAt (py : PyUnicode) (pre topic : List Char) (f : Fields) (size byte : List Char) :
    Prop where
  endsOutside : EndsOutside py.word pre
  not_mem : '\x7b' ∉ pre
  topic_word : topic ≠ [] ∧ ∀ c ∈ topic, py.word c = true
  valid : f.Valid py
  size_digit : size ≠ [] ∧ ∀ c ∈ size, digit c = true
  byte_digit : byte ≠ [] ∧ ∀ c ∈ byte, digit c = true

/-- That sample, with its payload. -/
def largeText (topic : List Char) (f : Fields) (size byte : List Char) : List Char :=
  (topic ++ f.text ++ '[' :: (size ++ [']', ' '])) ++ '\x7b' :: (byte ++ ['\x7d'])

namespace LargeAt

variable {py : PyUnicode} {pre topic size byte : List Char} {f : Fields}

/-- The text up to the brace. -/
def before (pre topic : List Char) (f : Fields) (size : List Char) : List Char :=
  pre ++ topic ++ f.text ++ ['['] ++ size ++ [']'] ++ [' ']

theorem text_eq (pre topic : List Char) (f : Fields) (size byte rest : List Char) :
    pre ++ (largeText topic f size byte ++ rest) =
      before pre topic f size ++ '\x7b' :: (byte ++ '\x7d' :: rest) := by
  simp [largeText, before]

theorem not_mem_before (h : LargeAt py pre topic f size byte) :
    '\x7b' ∉ before pre topic f size := by
  simp [before, h.not_mem, brace_notMem_of_word h.topic_word.2, h.valid.brace_notMem,
    brace_notMem_of_digit h.size_digit.2]

/-- Whatever begins to match up to the brace, is an end of the topic with all that
follows it. -/
theorem large_unique (h : LargeAt py pre topic f size byte) {g : Option Nat}
    {a u v rest : List Char} {cs : Captures Char} (ha : '\x7b' ∉ a)
    (hp : Parse (largeSample py g) u cs)
    (heq : pre ++ (largeText topic f size byte ++ rest) = a ++ (u ++ v)) :
    ∃ w, a ++ w = pre ++ topic ∧ (w ≠ [] ∧ ∀ c ∈ w, py.word c = true) ∧
      u = largeText w f size byte ∧ cs = captured g byte := by
  obtain ⟨w, k, d, s, b, hw, hk, hd, hs, hb, rfl, rfl⟩ := parse_largeSample_iff.mp hp
  have hnone : '\x7b' ∉ a ++ w ++ k.text ++ ['['] ++ d ++ [']'] ++ s := by
    simp [ha, brace_notMem_of_word hw.2, hk.brace_notMem, brace_notMem_of_digit hd.2,
      brace_notMem_of_space hs.2]
  have hbrace : before pre topic f size ++ '\x7b' :: (byte ++ '\x7d' :: rest) =
      (a ++ w ++ k.text ++ ['['] ++ d ++ [']'] ++ s) ++ '\x7b' :: (b ++ '\x7d' :: v) := by
    rw [← text_eq, heq]
    simp
  have hother : ∀ {t : List Char}, '\x7b' ∉ t → ∀ c ∈ t, (c != '\x7b') = true := by
    intro t ht c hc
    simpa using fun hsame : c = '\x7b' => ht (hsame ▸ hc)
  -- the first brace is in the same place on both sides
  obtain ⟨hbefore, -, hbehind⟩ := append_cons_inj hbrace (hother h.not_mem_before)
    (hother hnone) (by decide) (by decide)
  obtain ⟨rfl, -, -⟩ := append_cons_inj hbehind h.byte_digit.2 hb.2 (by decide) (by decide)
  obtain ⟨hclosing, rfl⟩ := append_inj_of_endsOutside hbefore
    (List.forall_mem_singleton.mpr py.space_blank) hs.2
    (endsOutside_append (List.cons_ne_nil _ _) (List.forall_mem_singleton.mpr py.space_closing))
    (endsOutside_append (List.cons_ne_nil _ _) (List.forall_mem_singleton.mpr py.space_closing))
  obtain ⟨hopening, rfl⟩ := append_inj_of_endsOutside (List.append_cancel_right hclosing)
    h.size_digit.2 hd.2
    (endsOutside_append (List.cons_ne_nil _ _) (List.forall_mem_singleton.mpr (by decide)))
    (endsOutside_append (List.cons_ne_nil _ _) (List.forall_mem_singleton.mpr (by decide)))
  obtain ⟨htopic, rfl⟩ := Fields.unique h.valid hk
    (endsOutside_append h.topic_word.1 fun c hc => py.space_of_word (h.topic_word.2 c hc))
    (endsOutside_append hw.1 fun c hc => py.space_of_word (hw.2 c hc))
    (List.append_cancel_right hopening)
  exact ⟨w, htopic.symm, hw, by simp [largeText], rfl⟩

theorem parse_largeText (h : LargeAt py pre topic f size byte) (g : Option Nat) :
    Parse (largeSample py g) (largeText topic f size byte) (captured g byte) :=
  parse_largeSample_iff.mpr ⟨topic, f, size, [' '], byte, h.topic_word, h.valid, h.size_digit,
    ⟨List.cons_ne_nil _ _, List.forall_mem_singleton.mpr py.space_blank⟩, h.byte_digit, rfl, rfl⟩

/-- Nothing begins to match before the topic. -/
theorem quietBefore_pre (h : LargeAt py pre topic f size byte) (g : Option Nat)
    (rest : List Char) :
    QuietBefore (largeSample py g) pre (largeText topic f size byte ++ rest) := by
  rintro b c t rfl
  rw [first_eq_none_iff]
  intro u v cs hu hp
  have hb : '\x7b' ∉ b := fun hmem => h.not_mem (List.mem_append_left _ hmem)
  obtain ⟨w, hw, hword, -, -⟩ := h.large_unique hb hp
    (by rw [List.append_assoc, ← hu])
  -- such a match would begin with letters of a word in `pre`
  rw [List.append_assoc, List.append_cancel_left_eq] at hw
  obtain ⟨l, hl⟩ : ∃ l, (c :: t).getLast? = some l := ⟨_, List.getLast?_eq_some_getLast (by simp)⟩
  have hout := h.endsOutside l (by rw [List.getLast?_append_of_ne_nil _ (by simp), hl]; rfl)
  have hmem : l ∈ w := by
    rw [hw]
    exact List.mem_append_left _ (List.mem_of_getLast? hl)
  rw [hword.2 l hmem] at hout
  cases hout

theorem first_largeText (h : LargeAt py pre topic f size byte) (g : Option Nat)
    (rest : List Char) :
    first (largeSample py g) (largeText topic f size byte ++ rest) =
      some (largeText topic f size byte, captured g byte, rest) := by
  refine first_eq_some (h.parse_largeText g) fun u v cs hu hp => ?_
  obtain ⟨w, hw, -, rfl, rfl⟩ := h.large_unique h.not_mem hp
    (by rw [hu])
  rw [List.append_cancel_left hw]
  exact ⟨rfl, rfl⟩

/-- One `expect` finds the sample. -/
theorem expectAll_large (h : LargeAt py pre topic f size byte) (before rest : List Char) :
    expectAll [largeSample py none] before 0 (pre ++ (largeText topic f size byte ++ rest)) =
      ⟨0, before ++ pre, largeText topic f size byte⟩ ::
        expectAll [largeSample py none] [] 0 rest := by
  have hquiet : ∀ r ∈ [largeSample py none],
      QuietBefore r pre (largeText topic f size byte ++ rest) := by
    simpa using h.quietBefore_pre none rest
  rw [expectAll_quiet hquiet]
  exact expectAll_match (by simp [largeText]) (by rw [firstOf, h.first_largeText none rest]) _

/-- The byte that the check reads in its window; what is left from before begins nothing. -/
theorem search_large (h : LargeAt py pre topic f size byte) {before : List Char}
    (hbefore : ∀ t, QuietBefore (largeSample py (some 1)) before t) :
    ∃ m, search (largeSample py (some 1)) (before ++ pre ++ largeText topic f size byte) = some m ∧
      m.group 1 = some byte := by
  have hquiet : QuietBefore (largeSample py (some 1)) (before ++ pre)
      (largeText topic f size byte ++ []) :=
    (hbefore _).append (h.quietBefore_pre (some 1) [])
  have hfound := search_eq_some hquiet (h.first_largeText (some 1) [])
  rw [List.append_nil] at hfound
  exact ⟨_, hfound, rfl⟩

end LargeAt

/-! ## The lines behind the first sample -/

/-- A sample line that makes sense, or any line without a brace. -/
def OutputLine.Plain (py : PyUnicode) : OutputLine → Prop
  | .sample r => r.Legal py
  | .other text => '\x7b' ∉ text

/-- The last bytes of the payloads, of the samples that have one. -/
def lastBytes (lines : List OutputLine) : List Nat :=
  (samplesOf lines).filterMap fun r => r.sample.additionalPayloadSize.getLast?.map UInt8.toNat

/-- The check reads this byte in the window. -/
def ReadsByte (py : PyUnicode) (w : Window Char) (byte : Nat) : Prop :=
  ∃ m, search (largeSample py (some 1)) w.text = some m ∧
    m.group 1 = some (Nat.toDigits 10 byte)

section Lines

variable {py : PyUnicode} {sub : Subscriber} {eol : LineEnd} {lines : List OutputLine}

/-- Without a brace there is no match. -/
theorem expectAll_of_not_mem {text : List Char} (h : '\x7b' ∉ text) (before : List Char) :
    expectAll [largeSample py none] before 0 text = [] := by
  have hquiet : ∀ r ∈ [largeSample py none], QuietBefore r text [] := by
    rw [List.forall_mem_singleton]
    rintro b c t rfl
    rw [first_eq_none_iff]
    intro u v cs hu hp
    refine h (List.mem_append_right _ ?_)
    rw [List.append_nil] at hu
    rw [hu]
    exact List.mem_append_left _ (brace_mem_of_parse hp)
  have hall := expectAll_quiet hquiet before
  rw [List.append_nil] at hall
  rw [hall]
  rfl

/-- A match begins with a word. -/
theorem first_largeSample_of_word {c : Char} (hc : py.word c = false) (g : Option Nat)
    (t : List Char) : first (largeSample py g) (c :: t) = none := by
  rw [first_eq_none_iff]
  intro u v cs hu hp
  obtain ⟨w, f, d, sep, byte, hw, -, -, -, -, rfl, -⟩ := parse_largeSample_iff.mp hp
  obtain ⟨a, w, rfl⟩ := List.exists_cons_of_ne_nil hw.1
  obtain ⟨rfl, -⟩ := List.cons.inj hu
  rw [hw.2 c List.mem_cons_self] at hc
  cases hc

/-- And blanks come behind the word. -/
theorem first_largeSample_of_digits {digits : List Char} (hd : ∀ c ∈ digits, digit c = true)
    (g : Option Nat) (t : List Char) :
    first (largeSample py g) (digits ++ '\x7d' :: t) = none := by
  rw [first_eq_none_iff]
  intro u v cs hu hp
  obtain ⟨w, f, d, sep, byte, hw, hf, -, -, -, rfl, -⟩ := parse_largeSample_iff.mp hp
  obtain ⟨blank, blanks, hblanks⟩ := List.exists_cons_of_ne_nil hf.sep₁.1
  have hblank : py.space blank = true := hf.sep₁.2 blank (by rw [hblanks]; exact List.mem_cons_self)
  have hcut : ∃ rest, digits ++ '\x7d' :: t = w ++ blank :: rest := by
    rw [hu, Fields.text, hblanks]
    exact ⟨_, by simp only [List.append_assoc, List.cons_append]; rfl⟩
  obtain ⟨rest, hcut⟩ := hcut
  obtain ⟨-, rfl, -⟩ := append_cons_inj hcut (fun c hc => py.word_of_digit (hd c hc)) hw.2
    (word_closingBrace py) (py.word_of_space hblank)
  rw [space_closingBrace py] at hblank
  cases hblank

/-- Nothing begins to match in the payload of a sample that was read up to its size. -/
theorem quietBefore_payloadSuffix (payload : List UInt8) (g : Option Nat) (t : List Char) :
    QuietBefore (largeSample py g) (payloadSuffix payload) t := by
  unfold payloadSuffix
  split
  · intro b c s hs
    simp at hs
  · rename_i last _
    have hopening : QuietBefore (largeSample py g) " \x7b".toList
        (Nat.toDigits 10 last.toNat ++ ("\x7d".toList ++ t)) := by
      intro b c s hs
      refine first_largeSample_of_word ?_ g _
      have hmem : c ∈ " \x7b".toList := by rw [hs]; simp
      have hc : c = ' ' ∨ c = '\x7b' := by simpa using hmem
      rcases hc with rfl | rfl
      · exact py.word_of_space py.space_blank
      · exact word_brace py
    have hdigits : QuietBefore (largeSample py g) (Nat.toDigits 10 last.toNat)
        ("\x7d".toList ++ t) := by
      intro b c s hs
      have hall : ∀ d ∈ c :: s, digit d = true := fun d hd =>
        digit_toDigits (by rw [hs]; exact List.mem_append_right _ hd)
      exact first_largeSample_of_digits hall g t
    have hclosing : QuietBefore (largeSample py g) "\x7d".toList t := by
      intro b c s hs
      refine first_largeSample_of_word ?_ g _
      have hmem : c ∈ "\x7d".toList := by rw [hs]; simp
      obtain rfl : c = '\x7d' := by simpa using hmem
      exact word_closingBrace py
    exact (hopening.append hdigits).append hclosing

theorem endsOutside_eol (py : PyUnicode) (text : List Char) (eol : LineEnd) :
    EndsOutside py.word (text ++ eol.text) := by
  intro c hc
  have hlast : (text ++ eol.text).getLast? = some '\n' := by
    cases eol <;> simp [LineEnd.text, List.getLast?_append]
  obtain rfl : '\n' = c := Option.some.inj (hlast.symm.trans hc)
  exact py.word_of_space py.space_newline

/-- The windows are those of the samples with a payload; `before` is what is left of the
sample in front of them, and `pre` what is printed behind that without a payload. -/
theorem readsBytes_of_plain (hlines : ∀ l ∈ lines, l.Plain py) {before pre : List Char}
    (hbefore : ∀ t, QuietBefore (largeSample py (some 1)) before t) (hpre : '\x7b' ∉ pre)
    (hends : EndsOutside py.word pre) :
    List.Forall₂ (ReadsByte py)
      (expectAll [largeSample py none] before 0 (pre ++ printed sub eol lines))
      (lastBytes lines) := by
  have heol : '\x7b' ∉ eol.text := by cases eol <;> decide
  induction lines generalizing before pre with
  | nil =>
      have hnone : '\x7b' ∉ pre ++ printed sub eol [] := by simpa [printed] using hpre
      rw [expectAll_of_not_mem hnone]
      exact .nil
  | cons l lines ih =>
      rw [List.forall_mem_cons] at hlines
      obtain ⟨hl, hlines⟩ := hlines
      -- a line without a payload is read with the next one that has one
      have hskip : ∀ text : List Char, '\x7b' ∉ text →
          List.Forall₂ (ReadsByte py) (expectAll [largeSample py none] before 0
            (pre ++ ((text ++ eol.text) ++ printed sub eol lines))) (lastBytes lines) := by
        intro text htext
        rw [← List.append_assoc]
        refine ih hlines hbefore ?_ ?_
        · simp only [List.mem_append, not_or]
          exact ⟨hpre, htext, heol⟩
        · rw [← List.append_assoc]
          exact endsOutside_eol py _ eol
      cases l with
      | other text => exact hskip text hl
      | sample r =>
          have hr : r.Legal py := hl
          cases hpayload : r.sample.additionalPayloadSize.getLast? with
          | none =>
              have hbytes : lastBytes (.sample r :: lines) = lastBytes lines := by
                simp [lastBytes, samplesOf, hpayload]
              rw [hbytes]
              refine hskip (r.line sub) ?_
              rw [r.line_eq, payloadSuffix, hpayload]
              simp [brace_notMem_of_word hr.topic.2, (hr.fields_valid sub).brace_notMem,
                brace_notMem_of_digit hr.size_digit.2]
          | some last =>
              have hbytes : lastBytes (.sample r :: lines) = last.toNat :: lastBytes lines := by
                simp [lastBytes, samplesOf, hpayload]
              have hlarge : LargeAt py pre r.topic.toList (r.fields sub)
                  (showInt r.sample.shapesize.toInt) (Nat.toDigits 10 last.toNat) :=
                { endsOutside := hends
                  not_mem := hpre
                  topic_word := hr.topic
                  valid := hr.fields_valid sub
                  size_digit := hr.size_digit
                  byte_digit := ⟨Nat.toDigits_ne_nil, fun c hc => digit_toDigits hc⟩ }
              have hline : printed sub eol (.sample r :: lines) =
                  largeText r.topic.toList (r.fields sub) (showInt r.sample.shapesize.toInt)
                    (Nat.toDigits 10 last.toNat) ++ (eol.text ++ printed sub eol lines) := by
                have hsuffix : payloadSuffix r.sample.additionalPayloadSize =
                    ' ' :: '\x7b' :: (Nat.toDigits 10 last.toNat ++ ['\x7d']) := by
                  rw [payloadSuffix, hpayload]
                  rfl
                have hfirst : printed sub eol (.sample r :: lines) =
                    r.line sub ++ eol.text ++ printed sub eol lines := rfl
                rw [hfirst, r.line_eq, hsuffix, largeText]
                simp
              rw [hline, hbytes, hlarge.expectAll_large]
              refine .cons (hlarge.search_large hbefore) (ih hlines ?_ heol ?_)
              · intro t b c s hs
                simp at hs
              · simpa using endsOutside_eol py [] eol

end Lines

/-! ## The check -/

namespace Raising

/-- `test_large_data`: its state is `samples_read`. -/
def testLargeData (py : PyUnicode) : CheckFunction Nat Nat where
  enter _ := .ok (.inl 0)
  head _ samplesRead := .ok (if samplesRead < maxSamplesRead then .inl samplesRead else .inr .ok)
  tail child samplesRead :=
    match child with
    | .timeout | .eof => .ok (.inr .dataNotReceived)
    | .input _ => do
        let subString := search (largeSample py (some 1)) (← beforeAndAfter child)
        if subString.isSome then
          if (← int (← group subString 1)) ≠ 255 then return .inr .dataNotCorrect
          else return .inl (samplesRead + 1)
        else return .inr .dataNotCorrect

end Raising

/-- The byte that is read in a window. -/
def largeByte (py : PyUnicode) (text : List Char) : Option Nat :=
  (search (largeSample py (some 1)) text).bind fun m => (m.group 1).map pyInt

/-- `test_large_data`, without the exceptions. -/
def testLargeData (py : PyUnicode) (text : List Char) : EventLoop (Window Char) Nat ReturnCode where
  start := if basicCheck py text ≠ .ok then .inr (basicCheck py text) else .inl 0
  onInput w samplesRead :=
    if largeByte py w.text = some 255 then
      if samplesRead + 1 < maxSamplesRead then .inl (samplesRead + 1) else .inr .ok
    else .inr .dataNotCorrect
  onTimeout _ := .dataNotReceived
  onEof _ := .dataNotReceived

/-- No sample is found, or one with a number for its last byte. -/
theorem largeByte_cases (py : PyUnicode) (text : List Char) :
    (search (largeSample py (some 1)) text = none ∧ largeByte py text = none) ∨
      ∃ m b, search (largeSample py (some 1)) text = some m ∧
        Raising.group (some m) 1 = .ok b ∧ Raising.int b = .ok (pyInt b) ∧
        largeByte py text = some (pyInt b) := by
  cases hsearch : search (largeSample py (some 1)) text with
  | none => exact .inl ⟨rfl, by rw [largeByte, hsearch]; rfl⟩
  | some m =>
      obtain ⟨-, hparse, -⟩ := search_spec hsearch
      obtain ⟨w, f, d, sep, b, -, -, -, -, hb, -, hcs⟩ := parse_largeSample_iff.mp hparse
      have hgroup : m.group 1 = some b := Raising.group_of_captures hcs rfl
      refine .inr ⟨m, b, rfl, Raising.group_eq_ok hgroup, Raising.int_eq_ok hb.1 hb.2, ?_⟩
      rw [largeByte, hsearch, Option.bind_some, hgroup, Option.map_some]

theorem testLargeData_refines (py : PyUnicode) (first : Window Char) :
    RaisingLoop.Refines Eq Except.ok ((Raising.testLargeData py).loop py first)
      (testLargeData py first.text) := by
  refine Raising.refines_of (fun hbasic => ?_) (fun hbasic => ?_) ?_ (fun _ _ _ => rfl)
    (fun _ _ _ => rfl)
  · rw [testLargeData, if_pos hbasic]
    exact Raising.agree_code _
  · rw [testLargeData, if_neg (not_not.mpr hbasic)]
    exact .waits rfl
  · rintro w samplesRead _ rfl
    rcases largeByte_cases py w.text with ⟨hnone, hbyte⟩ | ⟨m, b, hm, hgroup, hint, hbyte⟩
    · simp only [Raising.testLargeData, testLargeData, Raising.beforeAndAfter_input,
        PyError.ok_bind, hnone, hbyte]
      exact Raising.agree_code .dataNotCorrect
    · simp only [Raising.testLargeData, testLargeData, Raising.beforeAndAfter_input,
        PyError.ok_bind, hm, hgroup, hint, hbyte, Option.some.injEq]
      by_cases h255 : pyInt b = 255
      · simp only [h255, Option.isSome_some, if_true, ne_eq, not_true_eq_false, if_false,
          PyError.pure_eq, PyError.ok_bind, Raising.andThen]
        split
        · exact .waits rfl
        · exact Raising.agree_code .ok
      · simp only [h255, Option.isSome_some, if_true, if_false, ne_eq, not_false_eq_true,
          PyError.pure_eq, PyError.ok_bind]
        exact Raising.agree_code .dataNotCorrect

/-! ## The verdict -/

/-- What is answered, of the last bytes of the payloads to come and with so many samples to
be read. -/
def largeVerdict (wanted : Nat) (bytes : List Nat) : ReturnCode :=
  if ∃ byte ∈ bytes.take wanted, byte ≠ 255 then .dataNotCorrect
  else if wanted ≤ bytes.length then .ok else .dataNotReceived

theorem largeVerdict_cons_of_ne {byte : Nat} (h : byte ≠ 255) (wanted : Nat) (bytes : List Nat) :
    largeVerdict (wanted + 1) (byte :: bytes) = .dataNotCorrect :=
  if_pos ⟨byte, by rw [List.take_succ_cons]; exact List.mem_cons_self, h⟩

theorem largeVerdict_cons (wanted : Nat) (bytes : List Nat) :
    largeVerdict (wanted + 1) (255 :: bytes) = largeVerdict wanted bytes := by
  simp [largeVerdict]

theorem largeVerdict_zero (bytes : List Nat) : largeVerdict 0 bytes = .ok := by
  simp [largeVerdict]

/-- Where all bytes are right only their number counts. -/
theorem largeVerdict_of_all {bytes : List Nat} (h : ∀ byte ∈ bytes, byte = 255) (wanted : Nat) :
    largeVerdict wanted bytes = if wanted ≤ bytes.length then .ok else .dataNotReceived := by
  refine if_neg ?_
  rintro ⟨byte, hbyte, hne⟩
  exact hne (h byte (List.mem_of_mem_take hbyte))

theorem ReadsByte.largeByte {py : PyUnicode} {w : Window Char} {byte : Nat}
    (h : ReadsByte py w byte) : Harness.largeByte py w.text = some byte := by
  obtain ⟨m, hm, hgroup⟩ := h
  rw [Harness.largeByte, hm, Option.bind_some, hgroup, Option.map_some, pyInt_toDigits]

/-- The loop, with so many samples still to be read. -/
theorem drive_testLargeData {py : PyUnicode} {text : List Char} {windows : List (Window Char)}
    {bytes : List Nat} (h : List.Forall₂ (ReadsByte py) windows bytes) {samplesRead wanted : Nat}
    (hwanted : samplesRead + (wanted + 1) = maxSamplesRead) :
    (Loop.drive (testLargeData py text).onInput windows samplesRead).elim
      (fun _ => .dataNotReceived) id = largeVerdict (wanted + 1) bytes := by
  induction h generalizing samplesRead wanted with
  | nil => simp [Loop.drive, largeVerdict]
  | @cons w byte windows bytes hbyte _ ih =>
      rw [Loop.drive]
      by_cases h255 : byte = 255
      · subst h255
        rw [largeVerdict_cons]
        cases wanted with
        | zero =>
            have hturn : (testLargeData py text).onInput w samplesRead = .inr .ok := by
              simp only [testLargeData, hbyte.largeByte, if_true]
              exact if_neg (by omega)
            rw [hturn, largeVerdict_zero]
            rfl
        | succ wanted =>
            have hturn : (testLargeData py text).onInput w samplesRead =
                .inl (samplesRead + 1) := by
              simp only [testLargeData, hbyte.largeByte, if_true]
              exact if_pos (by omega)
            rw [hturn]
            exact ih (by omega)
      · have hturn : (testLargeData py text).onInput w samplesRead = .inr .dataNotCorrect := by
          simp only [testLargeData, hbyte.largeByte, Option.some.injEq, h255, if_false]
        rw [hturn, largeVerdict_cons_of_ne h255]
        rfl

/-- What the check answers of an output. -/
def largeResult (py : PyUnicode) (first : Window Char) (text : List Char) : ReturnCode :=
  ((testLargeData py first.text).after (expectAll [largeSample py none] [] 0 text)).elim
    (fun _ => .dataNotReceived) id

/-- The function finishes with that, whether the output ends or nothing comes in time. -/
theorem finishes_largeResult (py : PyUnicode) (first : Window Char) (text : List Char)
    (ending : Ending) :
    ((Raising.testLargeData py).loop py first).Finishes
      (streamOf (expectAll [largeSample py none] [] 0 text) ending.arrival)
      (.ok (largeResult py first text)) := by
  refine (testLargeData_refines py first).finishes_of_returns ?_
  cases ending with
  | timeout => exact EventLoop.returns_timeout (testLargeData py first.text) _
  | eof => exact EventLoop.returns_eof (testLargeData py first.text) _

/-- Without a first sample with a size. -/
theorem largeResult_of_ne {py : PyUnicode} {first : Window Char} {text : List Char}
    (hbasic : basicCheck py first.text ≠ .ok) :
    largeResult py first text = basicCheck py first.text := by
  have hstart : (testLargeData py first.text).start = .inr (basicCheck py first.text) :=
    if_pos hbasic
  rw [largeResult, EventLoop.after, hstart]
  rfl

/-- And behind one. -/
theorem largeResult_eq {py : PyUnicode} {first : Window Char} {text : List Char} {bytes : List Nat}
    (hbasic : basicCheck py first.text = .ok)
    (h : List.Forall₂ (ReadsByte py) (expectAll [largeSample py none] [] 0 text) bytes) :
    largeResult py first text = largeVerdict 500 bytes := by
  have hstart : (testLargeData py first.text).start = .inl 0 := if_neg (not_not.mpr hbasic)
  rw [largeResult, EventLoop.after, hstart]
  exact drive_testLargeData h (show 0 + (499 + 1) = maxSamplesRead from rfl)

/-! ## What the publishers put there -/

/-- The last byte of a payload is 255. -/
def EndsIn255 (shape : ShapeType) : Prop :=
  ∀ byte ∈ shape.additionalPayloadSize.getLast?, byte = 255

theorem eq_of_getLast?_replicate {n : Nat} {byte : UInt8}
    (h : byte ∈ (List.replicate n (255 : UInt8)).getLast?) : byte = 255 :=
  List.eq_of_mem_replicate (List.mem_of_getLast? h)

theorem endsIn255_of_tour {w h : Int32} {grow : Int32 → Int32} {first : ShapeMain.Moving}
    {key : Nat → String} {numTopics numInstances : Nat} {calls : List Call}
    (htour : ShapeMain.Tour w h grow first key numTopics numInstances calls)
    (hfirst : EndsIn255 first.shape) {i j : Nat} {shape : ShapeType}
    (hwrite : .write i j shape ∈ calls) : EndsIn255 shape := by
  obtain ⟨k, rfl⟩ := exists_sampleAt_of_tour htour hwrite
  exact hfirst

/-- Zig puts it behind zeros, and a turn leaves it there. -/
theorem keeps_endsIn255 (options : ShapeMain.Zig.Options) :
    ShapeMain.Zig.Keeps options (fun call => ∀ i j shape, call = .write i j shape → EndsIn255 shape)
      EndsIn255 where
  write i _ j _ shape random hshape i' j' shape' heq := by
    obtain ⟨-, -, rfl⟩ := Call.write.inj heq
    exact hshape
  color _ _ hshape := hshape
  turn _ _ _ hshape := hshape
  other call hcall i j shape heq := absurd heq (hcall i j shape)

theorem RandomRun.endsIn255 {calls : List Call} (hrun : RandomRun calls) {i j : Nat}
    {shape : ShapeType} (hwrite : .write i j shape ∈ calls) : EndsIn255 shape := by
  cases hrun with
  | @cxx options random signals hw hh =>
      refine endsIn255_of_tour (ShapeMain.Cxx.tour hw hh random signals) ?_ hwrite
      show ∀ byte ∈ (if options.additionalPayloadSize > 0 then _ else _ : List UInt8).getLast?, _
      intro byte hbyte
      split at hbyte
      · exact eq_of_getLast?_replicate hbyte
      · cases hbyte
  | hdds random seen h =>
      exact endsIn255_of_tour (ShapeMain.HddsRs.tour h random seen)
        (fun _ => eq_of_getLast?_replicate) hwrite
  | dust options x y xRandom yRandom xInRange yInRange received =>
      exact endsIn255_of_tour (ShapeMain.DustDds.tour options x y xRandom yRandom xInRange
        yInRange received) (fun _ => eq_of_getLast?_replicate) hwrite
  | zig options seen =>
      refine (keeps_endsIn255 options).callsMade ?_ seen _ hwrite i j shape rfl
      show ∀ byte ∈ (if options.additionalPayload > 0 then _ else _ : List UInt8).getLast?, _
      intro byte hbyte
      split at hbyte
      · rw [List.getLast?_concat] at hbyte
        exact (Option.some.inj hbyte).symm
      · cases hbyte

/-- So the check sees no other byte. -/
theorem lastBytes_of_run {calls : List Call} (hrun : RandomRun calls)
    {lines : List OutputLine} (hfrom : ∀ r ∈ samplesOf lines, ∃ i j, .write i j r.sample ∈ calls) :
    ∀ byte ∈ lastBytes lines, byte = 255 := by
  intro byte hbyte
  obtain ⟨r, hr, hlast⟩ := List.mem_filterMap.mp hbyte
  obtain ⟨i, j, hwrite⟩ := hfrom r hr
  obtain ⟨last, hlast', rfl⟩ := Option.map_eq_some_iff.mp hlast
  rw [hrun.endsIn255 hwrite last hlast']
  rfl

/-- **Large data.**  The check raises nothing and returns, whatever a subscriber prints.
Behind a first sample with a size it looks at the last bytes of the payloads that are
printed after it: one that is not 255 among the first 500 is wrong, and 500 of them are
enough.  What any of the four publishers writes ends with 255, so that of its samples the
number alone decides. -/
theorem payload_verdicts (pyu : PyUnicode) (py : PyCase) :
    ∃ check : Window Char → List Char → ReturnCode,
      (∀ first text (ending : Ending), ((Raising.testLargeData pyu).loop pyu first).Finishes
        (streamOf (expectAll [largeSample pyu none] [] 0 text) ending.arrival)
        (.ok (check first text))) ∧
      ∀ (sub : Subscriber) (eol : LineEnd) (log : FirstLog) (lines : List OutputLine),
        log.Legal pyu py sub → log.behind = printed sub eol lines → (∀ l ∈ lines, l.Plain pyu) →
        subscriberOutput py check (log.text sub eol) =
            (if log.first.sample.shapesize.toInt.toNat = 0 then .dataNotCorrect
            else largeVerdict 500 (lastBytes lines)) ∧
          ∀ calls, RandomRun calls →
            (∀ r ∈ samplesOf lines, ∃ i j, .write i j r.sample ∈ calls) →
            subscriberOutput py check (log.text sub eol) =
              if log.first.sample.shapesize.toInt.toNat = 0 then .dataNotCorrect
              else if 500 ≤ (lastBytes lines).length then .ok else .dataNotReceived := by
  refine ⟨largeResult pyu, finishes_largeResult pyu, ?_⟩
  intro sub eol log lines hlog hbehind hplain
  obtain ⟨w, hw, hcheck⟩ := hlog.subscriberOutput_eq eol
  have hbasic := hw.basicCheck_text
  have hbytes : List.Forall₂ (ReadsByte pyu) (expectAll [largeSample pyu none] [] 0 (log.left eol))
      (lastBytes lines) := by
    have hquiet : ∀ r ∈ [largeSample pyu none],
        QuietBefore r (payloadSuffix log.first.sample.additionalPayloadSize)
          (eol.text ++ printed sub eol lines) := by
      rw [List.forall_mem_singleton]
      exact quietBefore_payloadSuffix _ none _
    rw [FirstLog.left, hbehind, List.append_assoc, expectAll_quiet hquiet]
    refine readsBytes_of_plain hplain (quietBefore_payloadSuffix _ (some 1)) ?_ ?_
    · cases eol <;> decide
    · simpa using endsOutside_eol pyu [] eol
  have hverdict : subscriberOutput py (largeResult pyu) (log.text sub eol) =
      if log.first.sample.shapesize.toInt.toNat = 0 then .dataNotCorrect
      else largeVerdict 500 (lastBytes lines) := by
    rw [hcheck]
    by_cases hzero : log.first.sample.shapesize.toInt.toNat = 0
    · rw [if_pos hzero] at hbasic ⊢
      rw [largeResult_of_ne (by rw [hbasic]; decide), hbasic]
    · rw [if_neg hzero] at hbasic ⊢
      exact largeResult_eq hbasic hbytes
  refine ⟨hverdict, fun calls hrun hfrom => ?_⟩
  rw [hverdict, largeVerdict_of_all (lastBytes_of_run hrun hfrom)]

theorem samplesOf_replicate (n : Nat) (r : Received) :
    samplesOf (List.replicate n (.sample r)) = List.replicate n r := by
  simp [samplesOf]

theorem length_lastBytes_replicate (n : Nat) {r : Received} {byte : UInt8}
    (h : r.sample.additionalPayloadSize.getLast? = some byte) :
    (lastBytes (List.replicate n (.sample r))).length = n := by
  rw [lastBytes, samplesOf_replicate]
  simp [h]

/-- A publisher with payloads of two bytes. -/
def twoBytes : ShapeMain.Cxx.Options :=
  { ShapeMain.Cxx.threeSizes with additionalPayloadSize := 2 }

/-- Its sample is the first one, and 500 more are enough, but one is not. -/
theorem payload_verdicts_twoBytes :
    ∃ check : Window Char → List Char → ReturnCode,
      (∀ first text (ending : Ending), ((Raising.testLargeData .ascii).loop .ascii first).Finishes
        (streamOf (expectAll [largeSample .ascii none] [] 0 text) ending.arrival)
        (.ok (check first text))) ∧
      subscriberOutput .ascii check ((subscribedLog cornerSample
        (printed .cxx .crlf (List.replicate 500 (.sample cornerSample)))).text .cxx .crlf) = .ok ∧
      subscriberOutput .ascii check ((subscribedLog cornerSample
        (printed .cxx .crlf [.other [], .sample cornerSample])).text .cxx .crlf) =
          .dataNotReceived := by
  obtain ⟨check, hcheck, hverdict⟩ := payload_verdicts .ascii .ascii
  have hlegal : ∀ behind, (subscribedLog cornerSample behind).Legal .ascii .ascii .cxx :=
    legal_subscribedLog legal_cornerSample (by decide)
  have hrun : RandomRun (ShapeMain.Cxx.callsMade twoBytes
      (ShapeMain.Cxx.startOf twoBytes fun _ => 0) [false]) := .cxx _ _ rfl rfl
  have hwrite : .write 0 0 cornerSample.sample ∈ ShapeMain.Cxx.callsMade twoBytes
      (ShapeMain.Cxx.startOf twoBytes fun _ => 0) [false] := by decide
  refine ⟨check, hcheck, ?_, ?_⟩
  · have hplain : ∀ l ∈ List.replicate 500 (OutputLine.sample cornerSample), l.Plain .ascii := by
      intro l hl
      rw [List.eq_of_mem_replicate hl]
      exact legal_cornerSample
    obtain ⟨-, hnumber⟩ := hverdict .cxx .crlf _ _ (hlegal (printed .cxx .crlf _)) rfl hplain
    rw [hnumber _ hrun fun r hr => ?_, length_lastBytes_replicate 500 rfl]
    · rfl
    · rw [samplesOf_replicate] at hr
      rw [List.eq_of_mem_replicate hr]
      exact ⟨0, 0, hwrite⟩
  · have hplain : ∀ l ∈ [OutputLine.other [], .sample cornerSample], l.Plain .ascii := by
      simp only [List.forall_mem_cons, OutputLine.Plain]
      exact ⟨List.not_mem_nil, legal_cornerSample, by simp⟩
    obtain ⟨-, hnumber⟩ := hverdict .cxx .crlf _ _ (hlegal (printed .cxx .crlf _)) rfl hplain
    rw [hnumber _ hrun fun r hr => ?_]
    · decide
    · obtain rfl : r = cornerSample := by simpa [samplesOf] using hr
      exact ⟨0, 0, hwrite⟩

end DdsRtps.Harness
