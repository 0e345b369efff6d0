/-
# `DdsRtps.Harness.DeadlineVerdicts` — a missed deadline, from the output to the verdict

`test_deadline_missed` of test_suite_functions.py waits for the line that the
listener of a subscriber prints, and asks for a sample where the output has
ended without one.  `pexpect` has then given away all of its buffer, so that no
sample can be found any more: the check has no way to return `OK`
(`deadline_verdicts`).

What is handed to a check is the first sample that is printed
(`FirstLog.Legal.subscriberOutput_eq`), whatever follows it.
-/
import DdsRtps.Harness.DurabilityVerdicts

namespace DdsRtps.Harness

open Regex

/-! ## Up to the first sample -/

/-- The output of a subscriber that prints a sample: lines up to it, its line, and any
text behind that. -/
structure FirstLog where
  early : List (List Char)
  topicRest : List Char
  created : List (List Char)
  readerRest : List Char
  waiting : List (List Char)
  first : Received
  behind : List Char

namespace FirstLog

/-- What is printed. -/
def text (sub : Subscriber) (eol : LineEnd) (log : FirstLog) : List Char :=
  linesText eol log.early ++ ("Create topic:".toList ++
    (linesText eol (log.topicRest :: log.created) ++ ("Create reader for topic:".toList ++
      (linesText eol (log.readerRest :: log.waiting) ++
        (log.first.line sub ++ eol.text ++ log.behind)))))

/-- What is left of it behind the match of the first sample. -/
def left (eol : LineEnd) (log : FirstLog) : List Char :=
  payloadSuffix log.first.sample.additionalPayloadSize ++ eol.text ++ log.behind

/-- Up to the end of the sample, nothing that is expected stands anywhere else. -/
structure Legal (pyu : PyUnicode) (py : PyCase) (sub : Subscriber) (log : FirstLog) : Prop where
  early : ∀ l ∈ log.early, Silent (Patterns.topic py) l
  created : ∀ l ∈ log.topicRest :: log.created, Silent (Patterns.reader py) l
  waiting : ∀ l ∈ log.readerRest :: log.waiting, Silent (Patterns.received py) l
  first : log.first.Legal pyu
  head : Silent (refusals py) (log.first.topic.toList ++ (log.first.fields sub).text)

variable {pyu : PyUnicode} {py : PyCase} {sub : Subscriber} {log : FirstLog}

theorem lineStart_linesText (eol : LineEnd) {ls : List (List Char)} (h : ∀ l ∈ ls, NoSample l)
    {before : List Char} (hbefore : LineStart before) :
    LineStart (before ++ linesText eol ls) := by
  induction ls generalizing before with
  | nil => simpa [linesText] using hbefore
  | cons l ls ih =>
      rw [List.forall_mem_cons] at h
      have hnext := ih h.2 (hbefore.append h.1 eol)
      rwa [List.append_assoc] at hnext

/-- The line of the sample ends the `expect` that waits for it. -/
theorem Legal.expect_first (h : log.Legal pyu py sub) (eol : LineEnd) (before : List Char) :
    expect (Patterns.received py) before (log.first.line sub ++ eol.text ++ log.behind) =
      some (⟨0, before ++ (log.first.topic.toList ++ (log.first.fields sub).text),
        '[' :: (showInt log.first.sample.shapesize.toInt ++ [']'])⟩, log.left eol) := by
  have hline : log.first.line sub ++ eol.text ++ log.behind =
      (log.first.topic.toList ++ (log.first.fields sub).text) ++
        ('[' :: (showInt log.first.sample.shapesize.toInt ++ [']']) ++ log.left eol) := by
    rw [log.first.line_eq, left]
    simp only [List.append_assoc]
  have hquiet : ∀ r ∈ Patterns.received py,
      QuietBefore r (log.first.topic.toList ++ (log.first.fields sub).text)
        ('[' :: (showInt log.first.sample.shapesize.toInt ++ [']']) ++ log.left eol) := by
    rw [received_eq, List.forall_mem_cons]
    constructor
    · exact quietBefore_of_not_mem (fun _ _ => head?_of_parse_sampleEnd)
        (h.first.not_mem_head sub) _
    · intro r hr
      exact quietBefore_of_search (avoids_refusals py r hr) (by decide) (h.head r hr)
  have hsample := first_sampleEnd h.first.size_digit (log.left eol)
  rw [hline, expect_quiet hquiet, received_eq]
  exact expect_match (by simp) (by rw [firstOf, hsample]) _

/-- The check is handed the first sample, and what is printed behind it. -/
theorem Legal.subscriberOutput_eq (h : log.Legal pyu py sub) (eol : LineEnd) :
    ∃ w, ReadsSample pyu sub w log.first ∧
      ∀ check, subscriberOutput py check (log.text sub eol) = check w (log.left eol) := by
  have htopic := expect_head eol (avoids_topic py) h.early
    (first_lit "Create topic:".toList
      (linesText eol (log.topicRest :: log.created) ++ ("Create reader for topic:".toList ++
        (linesText eol (log.readerRest :: log.waiting) ++
          (log.first.line sub ++ eol.text ++ log.behind)))))
  have hreader := expect_head eol (avoids_reader py) h.created
    (first_lit "Create reader for topic:".toList
      (linesText eol (log.readerRest :: log.waiting) ++
        (log.first.line sub ++ eol.text ++ log.behind)))
  have hdata := (expect_lines (avoids_received py) eol h.waiting []
    (log.first.line sub ++ eol.text ++ log.behind)).trans (h.expect_first eol _)
  rw [List.nil_append] at hdata
  have hstart : LineStart (linesText eol (log.readerRest :: log.waiting)) :=
    lineStart_linesText eol (fun l hl => h.waiting l hl sampleEnd List.mem_cons_self) (.inl rfl)
  refine ⟨_, h.first.readsSample sub hstart 0, fun check => ?_⟩
  rw [subscriberOutput, text, Patterns.topic, htopic]
  simp only [zero_ne_one, if_false]
  rw [readerStage, Patterns.reader, hreader]
  simp only [zero_ne_one, OfNat.zero_ne_ofNat, if_false]
  rw [dataStage, hdata]
  simp only [zero_ne_one, OfNat.zero_ne_ofNat, if_false]

end FirstLog

/-! ## The check -/

/-- What the listener of a subscriber prints. -/
def missed : Regex Char := called "on_requested_deadline_missed"

/-- `test_deadline_missed`, of the text that is left and of what comes at its end.  At
the end of the file nothing is left in the buffer for the second `expect`. -/
def testDeadlineMissed (py : PyUnicode) (first : Window Char) (text : List Char)
    (ending : Ending) : Except PyError ReturnCode := do
  let basicCheckRetcode ← Raising.basicCheck py (.input first)
  if basicCheckRetcode ≠ .ok then return basicCheckRetcode
  match expect [missed] [] text with
  | some _ => return .deadlineMissed
  | none =>
      match ending with
      | .timeout => return .dataNotReceived
      | .eof =>
          match expect [sampleEnd] [] [] with
          | some _ => return .ok
          | none => return .dataNotReceived

/-- The line is found, or it stands nowhere. -/
theorem expect_missed_eq_none_iff {text : List Char} :
    expect [missed] [] text = none ↔ ¬"on_requested_deadline_missed".toList <:+: text := by
  have hne : ∀ u cs, Parse missed u cs → u ≠ [] := by
    intro u cs hp
    obtain ⟨rfl, -⟩ := parse_called_iff.mp hp
    decide
  rw [expect_singleton_eq_none_iff hne, search_eq_none_iff]
  constructor
  · rintro h ⟨b, v, rfl⟩
    exact h b _ v _ rfl (parse_called_iff.mpr ⟨rfl, rfl⟩)
  · rintro h b u v cs rfl hp
    obtain ⟨rfl, -⟩ := parse_called_iff.mp hp
    exact h ⟨b, v, rfl⟩

/-- What the check answers, without the exceptions. -/
def deadlineCode (py : PyUnicode) (first : Window Char) (text : List Char) : ReturnCode :=
  if basicCheck py first.text ≠ .ok then basicCheck py first.text
  else if "on_requested_deadline_missed".toList <:+: text then .deadlineMissed
  else .dataNotReceived

theorem testDeadlineMissed_eq (py : PyUnicode) (first : Window Char) (text : List Char)
    (ending : Ending) :
    testDeadlineMissed py first text ending = .ok (deadlineCode py first text) := by
  unfold testDeadlineMissed
  rw [deadlineCode, Raising.basicCheck_eq, PyError.ok_bind]
  by_cases hbasic : basicCheck py first.text = .ok
  · simp only [hbasic, ne_eq, not_true_eq_false, if_false, PyError.pure_eq]
    cases hexpect : expect [missed] [] text with
    | none =>
        rw [if_neg (expect_missed_eq_none_iff.mp hexpect)]
        cases ending <;> rfl
    | some m =>
        have hfound : "on_requested_deadline_missed".toList <:+: text := by
          by_contra hnot
          rw [expect_missed_eq_none_iff.mpr hnot] at hexpect
          cases hexpect
        rw [if_pos hfound]
  · simp only [ne_eq, hbasic, not_false_eq_true, if_true, PyError.pure_eq]

theorem deadlineCode_ne_ok (py : PyUnicode) (first : Window Char) (text : List Char) :
    deadlineCode py first text ≠ .ok := by
  rw [deadlineCode]
  split
  · assumption
  · split <;> decide

/-- **Deadlines.**  Whatever a subscriber prints, the check raises nothing and never is
content; and behind a first sample with a size it finds that a deadline was missed
just where this is printed after it. -/
theorem deadline_verdicts (pyu : PyUnicode) (py : PyCase) (ending : Ending) :
    ∃ check : Window Char → List Char → ReturnCode,
      (∀ first text, testDeadlineMissed pyu first text ending = .ok (check first text)) ∧
      (∀ text, subscriberOutput py check text ≠ .ok) ∧
      ∀ (sub : Subscriber) (eol : LineEnd) (log : FirstLog), log.Legal pyu py sub →
        subscriberOutput py check (log.text sub eol) =
          if log.first.sample.shapesize.toInt.toNat = 0 then .dataNotCorrect
          else if "on_requested_deadline_missed".toList <:+: log.left eol then .deadlineMissed
          else .dataNotReceived := by
  refine ⟨deadlineCode pyu, fun first text => testDeadlineMissed_eq pyu first text ending,
    fun text => ?_, fun sub eol log hlog => ?_⟩
  · rw [subscriberOutput]
    split
    · decide
    · split
      · decide
      · rw [readerStage]
        split
        · decide
        · split
          · decide
          · split
            · decide
            · rw [dataStage]
              split
              · decide
              · split_ifs
                · decide
                · decide
                · decide
                · exact deadlineCode_ne_ok pyu _ _
  · obtain ⟨w, hw, hcheck⟩ := hlog.subscriberOutput_eq eol
    rw [hcheck, deadlineCode, hw.basicCheck_text]
    by_cases hzero : log.first.sample.shapesize.toInt.toNat = 0
    · rw [if_pos hzero, if_pos (by decide), if_pos hzero]
    · rw [if_neg hzero, if_neg (by decide), if_neg hzero]

/-- The output of a subscriber of squares. -/
def subscribedLog (first : Received) (behind : List Char) : FirstLog where
  early := []
  topicRest := " Square".toList
  created := []
  readerRest := " Square".toList
  waiting := []
  first := first
  behind := behind

theorem legal_subscribedLog {first : Received} (hfirst : first.Legal .ascii)
    (hhead : Silent (refusals .ascii) (first.topic.toList ++ (first.fields .cxx).text))
    (behind : List Char) : (subscribedLog first behind).Legal .ascii .ascii .cxx := by
  have hcreated : ∀ l ∈ [" Square".toList], Silent (Patterns.reader .ascii) l := by decide
  have hwaiting : ∀ l ∈ [" Square".toList], Silent (Patterns.received .ascii) l := by decide
  exact ⟨List.forall_mem_nil _, hcreated, hwaiting, hfirst, hhead⟩

/-- A first sample, with a payload. -/
def cornerSample : Received := ⟨"Square", ⟨"BLUE", 1, 1, 1, [255, 255]⟩⟩

theorem legal_cornerSample : cornerSample.Legal .ascii := by
  have hword : ∀ {l : List Char}, l.all PyUnicode.ascii.word = true →
      ∀ c ∈ l, PyUnicode.ascii.word c = true := List.all_eq_true.mp
  exact ⟨⟨by decide, hword (by decide)⟩, ⟨by decide, hword (by decide)⟩,
    by decide, by decide, by decide⟩

/-- It is followed by the line of the listener. -/
theorem deadline_verdicts_cornerSample :
    ∃ check : Window Char → List Char → ReturnCode,
      (∀ first text, testDeadlineMissed .ascii first text .timeout = .ok (check first text)) ∧
      subscriberOutput .ascii check ((subscribedLog cornerSample
        "\non_requested_deadline_missed() topic: 'Square'".toList).text .cxx .crlf) =
          .deadlineMissed := by
  obtain ⟨check, hcheck, -, hverdict⟩ := deadline_verdicts .ascii .ascii .timeout
  refine ⟨check, hcheck, ?_⟩
  rw [hverdict .cxx .crlf _ (legal_subscribedLog legal_cornerSample (by decide) _)]
  decide

end DdsRtps.Harness
