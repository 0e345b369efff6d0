/-
# `DdsRtps.Harness.PublisherOutput` — the main parts, on what the child prints

`run_publisher_shape_main` and `run_subscriber_shape_main` of
interoperability_report.py, up to where they wait for the others, as functions
of the text that the child prints until it ends or falls silent.  Both ways
give the same codes, so one result stands for `TIMEOUT` and `EOF`.

`DdsRtps.Harness.RunTest` has the main parts as automata that are told the
index of each match.  Here the indices come from the text, and the automaton,
told those, ends with the same code (`publisherOutput_refines`,
`subscriberOutput_refines`).

`re.IGNORECASE` goes by the case tables of the interpreter (`PyCase`).
-/
import DdsRtps.Harness.Patterns
import DdsRtps.Harness.RunTest
import DdsRtps.Lib.Expect

namespace DdsRtps.Harness

open Regex
open PyUnicode (digit)

/-! ## The patterns -/

/-- How an interpreter compares letters without their case: a letter of a
pattern with one of the text. -/
structure PyCase where
  same : Char → Char → Bool
  same_ascii : ∀ c d : Char, d.toNat < 128 → same c d = (c.toLower == d.toLower)

/-- The case tables of a world without letters beyond ASCII. -/
def PyCase.ascii : PyCase where
  same c d := d.toNat < 128 && c.toLower == d.toLower
  same_ascii c d h := by simp [h]

/-- `re.compile('not supported', re.IGNORECASE)`. -/
def notSupported (py : PyCase) : Regex Char :=
  cat ("not supported".toList.map fun c => .one (py.same c))

/-- A pattern such as `on_publication_matched()`, which ends in an empty group. -/
def called (name : String) : Regex Char := cat [lit name.toList, .group 1 .empty]

/-- `[0-9]+ [0-9]+ \[[0-9]+\]`. -/
def savedSample : Regex Char :=
  cat [plus digit, lit [' '], plus digit, lit [' ', '['], plus digit, lit [']']]

namespace Patterns

variable (py : PyCase)

/-- What is expected first. -/
def topic : List (Regex Char) := [lit "Create topic:".toList, notSupported py]

/-- What a publisher is expected to print then. -/
def writer : List (Regex Char) := [lit "Create writer for topic".toList, notSupported py]

/-- And then. -/
def matched : List (Regex Char) :=
  [called "on_publication_matched", lit "on_offered_incompatible_qos".toList, notSupported py]

/-- And then again and again. -/
def sent : List (Regex Char) := [sampleEnd, called "on_offered_deadline_missed", notSupported py]

/-- What a subscriber is expected to print second. -/
def reader : List (Regex Char) :=
  [lit "Create reader for topic:".toList, lit "failed to create content filtered topic".toList,
    notSupported py]

/-- And then. -/
def received : List (Regex Char) :=
  [sampleEnd, called "on_requested_incompatible_qos", called "on_requested_deadline_missed",
    notSupported py]

end Patterns

/-! ## The code -/

/-- The code of a publisher, and what it puts into `samples_sent`. -/
structure Saved where
  code : ReturnCode
  samples : List (List Char)
deriving DecidableEq, Repr

variable (py : PyCase)

/-- The `for` loop, with so many turns to go; the windows are those of the
matches behind `child_pub.before + child_pub.after`. -/
def saveSamples : Nat → Window Char → List (Window Char) → Saved
  | 0, _, _ => ⟨.ok, []⟩
  | n + 1, w, windows =>
      match search savedSample w.text with
      | none => ⟨.dataNotCorrect, []⟩
      | some pubString =>
          match windows with
          | [] => ⟨.dataNotSent, [pubString.text]⟩
          | w' :: windows =>
              if w'.index = 1 then ⟨.deadlineMissed, [pubString.text]⟩
              else if w'.index = 2 then ⟨.pubUnsupportedFeature, [pubString.text]⟩
              else
                let saved := saveSamples n w' windows
                { saved with samples := pubString.text :: saved.samples }

/-- Step 5: check whether the writer sends the samples. -/
def samplesStage (text : List Char) : Saved :=
  match expectAll (Patterns.sent py) [] 0 text with
  | [] => ⟨.dataNotSent, []⟩
  | w :: windows =>
      if w.index = 1 then ⟨.deadlineMissed, []⟩
      else if w.index = 2 then ⟨.pubUnsupportedFeature, []⟩
      else saveSamples maxSamplesSaved w windows

/-- Step 4: check if the writer matches the reader. -/
def matchStage (writes : Bool) (text : List Char) : Saved :=
  match expect (Patterns.matched py) [] text with
  | none => ⟨.readerNotMatched, []⟩
  | some (w, text) =>
      if w.index = 1 then ⟨.incompatibleQos, []⟩
      else if w.index = 2 then ⟨.pubUnsupportedFeature, []⟩
      else if writes then samplesStage py text
      else ⟨.ok, []⟩

/-- Step 3: check if the writer is created. -/
def writerStage (writes : Bool) (text : List Char) : Saved :=
  match expect (Patterns.writer py) [] text with
  | none => ⟨.writerNotCreated, []⟩
  | some (w, text) =>
      if w.index = 1 then ⟨.pubUnsupportedFeature, []⟩ else matchStage py writes text

/-- `run_publisher_shape_main`, from step 2 on. -/
def publisherOutput (writes : Bool) (text : List Char) : Saved :=
  match expect (Patterns.topic py) [] text with
  | none => ⟨.topicNotCreated, []⟩
  | some (w, text) =>
      if w.index = 1 then ⟨.pubUnsupportedFeature, []⟩ else writerStage py writes text

/-- Step 4 of a subscriber: read data or incompatible qos or deadline missed.
The check function is given the window of the first sample and the text behind
it. -/
def dataStage (check : Window Char → List Char → ReturnCode) (text : List Char) : ReturnCode :=
  match expect (Patterns.received py) [] text with
  | none => .dataNotReceived
  | some (w, text) =>
      if w.index = 1 then .incompatibleQos
      else if w.index = 2 then .deadlineMissed
      else if w.index = 3 then .subUnsupportedFeature
      else check w text

/-- Step 3: check if the reader is created. -/
def readerStage (check : Window Char → List Char → ReturnCode) (text : List Char) : ReturnCode :=
  match expect (Patterns.reader py) [] text with
  | none => .readerNotCreated
  | some (w, text) =>
      if w.index = 1 then .filterNotCreated
      else if w.index = 2 then .subUnsupportedFeature
      else dataStage py check text

/-- `run_subscriber_shape_main`, from step 2 on. -/
def subscriberOutput (check : Window Char → List Char → ReturnCode) (text : List Char) :
    ReturnCode :=
  match expect (Patterns.topic py) [] text with
  | none => .topicNotCreated
  | some (w, text) =>
      if w.index = 1 then .subUnsupportedFeature else readerStage py check text

/-! ## The same, as the automata have it -/

/-- An automaton that is told one reply after the other; the last one ends it,
with a code in the slot or without. -/
def tell {P : Type} (main : P → Reply → Option (Option P × Option ReturnCode)) :
    P → Option ReturnCode → List Reply → Option (Option ReturnCode)
  | _, _, [] => none
  | p, slot, reply :: replies =>
      match main p reply with
      | none => none
      | some (none, code) => if replies = [] then some (code.or slot) else none
      | some (some p, code) => tell main p (code.or slot) replies

section

variable {P : Type} {main : P → Reply → Option (Option P × Option ReturnCode)}
  {p p' : P} {reply : Reply} {code slot : Option ReturnCode}

theorem tell_last (h : main p reply = some (none, code)) :
    tell main p slot [reply] = some (code.or slot) := by
  rw [tell, h]
  rfl

theorem tell_more {result : Option ReturnCode} (h : main p reply = some (some p', code))
    (hrest : ∃ replies, tell main p' (code.or slot) replies = some result) :
    ∃ replies, tell main p slot replies = some result := by
  obtain ⟨replies, hreplies⟩ := hrest
  refine ⟨reply :: replies, ?_⟩
  rw [tell, h]
  exact hreplies

end

variable {py}

theorem saveSamples_refines (writes eof : Bool) {n x : Nat} (hx : x + (n + 1) = maxSamplesSaved)
    {w : Window Char} {windows : List (Window Char)} (h : ∀ w ∈ windows, w.index < 3) :
    ∃ replies, tell (publisherMain writes eof) (.saving x) (some .ok) replies =
      some (some (saveSamples (n + 1) w windows).code) := by
  induction n generalizing x w windows with
  | zero =>
      rw [saveSamples]
      cases search savedSample w.text with
      | none => exact ⟨[.sample false], rfl⟩
      | some m =>
          have hsample : publisherMain writes eof (.saving x) (.sample true) =
              some (some (.nextSample x), none) := rfl
          refine tell_more hsample ?_
          cases windows with
          | nil => exact ⟨[.index 3], rfl⟩
          | cons w' windows =>
              have hlast : ¬ x + 1 < maxSamplesSaved := by omega
              obtain hi | hi | hi : w'.index = 0 ∨ w'.index = 1 ∨ w'.index = 2 := by
                have := h w' List.mem_cons_self
                omega
              · refine ⟨[.index 0], ?_⟩
                have hlast' : publisherMain writes eof (.nextSample x) (.index 0) =
                    some (none, none) := by simp [publisherMain, expected, hlast]
                rw [tell_last hlast']
                simp [saveSamples, hi]
              · exact ⟨[.index 1], by simp [tell, publisherMain, expected, hi]⟩
              · exact ⟨[.index 2], by simp [tell, publisherMain, expected, hi]⟩
  | succ n ih =>
      rw [saveSamples]
      cases search savedSample w.text with
      | none => exact ⟨[.sample false], rfl⟩
      | some m =>
          have hsample : publisherMain writes eof (.saving x) (.sample true) =
              some (some (.nextSample x), none) := rfl
          refine tell_more hsample ?_
          cases windows with
          | nil => exact ⟨[.index 3], rfl⟩
          | cons w' windows =>
              rw [List.forall_mem_cons] at h
              have hmore : x + 1 < maxSamplesSaved := by omega
              obtain hi | hi | hi : w'.index = 0 ∨ w'.index = 1 ∨ w'.index = 2 := by omega
              · simp only [hi]
                have hnext : publisherMain writes eof (.nextSample x) (.index 0) =
                    some (some (.saving (x + 1)), none) := by simp [publisherMain, expected, hmore]
                refine tell_more hnext ?_
                exact ih (by omega) h.2
              · exact ⟨[.index 1], by simp [tell, publisherMain, expected, hi]⟩
              · exact ⟨[.index 2], by simp [tell, publisherMain, expected, hi]⟩

theorem samplesStage_refines (writes eof : Bool) (slot : Option ReturnCode) (text : List Char) :
    ∃ replies, tell (publisherMain writes eof) .firstSample slot replies =
      some (some (samplesStage py text).code) := by
  rw [samplesStage]
  cases hwindows : expectAll (Patterns.sent py) [] 0 text with
  | nil => exact ⟨[.index 3], rfl⟩
  | cons w windows =>
      have hindex : ∀ w' ∈ w :: windows, w'.index < 3 := by
        intro w' hw'
        rw [← hwindows] at hw'
        exact index_lt_of_mem_expectAll hw'
      rw [List.forall_mem_cons] at hindex
      obtain hi | hi | hi : w.index = 0 ∨ w.index = 1 ∨ w.index = 2 := by omega
      · simp only [hi]
        have hfound : publisherMain writes eof .firstSample (.index 0) =
            some (some (.saving 0), some .ok) := by simp [publisherMain, expected]
        refine tell_more hfound ?_
        exact saveSamples_refines writes eof (n := 499) rfl hindex.2
      · exact ⟨[.index 1], by simp [tell, publisherMain, expected, hi]⟩
      · exact ⟨[.index 2], by simp [tell, publisherMain, expected, hi]⟩

theorem matchStage_refines (writes eof : Bool) (slot : Option ReturnCode) (text : List Char) :
    ∃ replies, tell (publisherMain writes eof) .reader slot replies =
      some (some (matchStage py writes text).code) := by
  rw [matchStage]
  cases hexpect : expect (Patterns.matched py) [] text with
  | none => exact ⟨[.index 3], rfl⟩
  | some m =>
      obtain ⟨w, rest⟩ := m
      have hlt : w.index < 3 := index_lt_of_expect hexpect
      obtain hi | hi | hi : w.index = 0 ∨ w.index = 1 ∨ w.index = 2 := by omega
      · cases writes with
        | true =>
            simp only [hi]
            have hmatched : publisherMain true eof .reader (.index 0) =
                some (some .firstSample, none) := by simp [publisherMain, expected]
            refine tell_more hmatched ?_
            exact samplesStage_refines true eof _ rest
        | false => exact ⟨[.index 0], by simp [tell, publisherMain, expected, hi]⟩
      · exact ⟨[.index 1], by simp [tell, publisherMain, expected, hi]⟩
      · exact ⟨[.index 2], by simp [tell, publisherMain, expected, hi]⟩

/-- The automaton of a publisher, told the indices of the matches in the text,
ends with the code that the text gives. -/
theorem publisherOutput_refines (writes eof : Bool) (text : List Char) :
    ∃ replies, tell (publisherMain writes eof) .topic none replies =
      some (some (publisherOutput py writes text).code) := by
  rw [publisherOutput]
  cases htopic : expect (Patterns.topic py) [] text with
  | none => exact ⟨[.index 2], rfl⟩
  | some m =>
      obtain ⟨w, text⟩ := m
      have hlt : w.index < 2 := index_lt_of_expect htopic
      obtain hi | hi : w.index = 0 ∨ w.index = 1 := by omega
      · simp only [hi]
        have hcreated : publisherMain writes eof .topic (.index 0) =
            some (some .writer, none) := by simp [publisherMain, expected]
        refine tell_more hcreated ?_
        rw [if_neg (by decide), writerStage]
        cases hwriter : expect (Patterns.writer py) [] text with
        | none => exact ⟨[.index 2], rfl⟩
        | some m =>
            obtain ⟨w, text⟩ := m
            have hlt : w.index < 2 := index_lt_of_expect hwriter
            obtain hi | hi : w.index = 0 ∨ w.index = 1 := by omega
            · simp only [hi]
              have hwriting : publisherMain writes eof .writer (.index 0) =
                  some (some .reader, none) := by simp [publisherMain, expected]
              refine tell_more hwriting ?_
              exact matchStage_refines writes eof _ text
            · exact ⟨[.index 1], by simp [tell, publisherMain, expected, hi]⟩
      · exact ⟨[.index 1], by simp [tell, publisherMain, expected, hi]⟩

/-- The automaton of a subscriber, too. -/
theorem subscriberOutput_refines (eof : Bool) (check : Window Char → List Char → ReturnCode)
    (text : List Char) :
    ∃ replies, tell (subscriberMain eof) .topic none replies =
      some (some (subscriberOutput py check text)) := by
  rw [subscriberOutput]
  cases htopic : expect (Patterns.topic py) [] text with
  | none => exact ⟨[.index 2], rfl⟩
  | some m =>
      obtain ⟨w, text⟩ := m
      have hlt : w.index < 2 := index_lt_of_expect htopic
      obtain hi | hi : w.index = 0 ∨ w.index = 1 := by omega
      · simp only [hi]
        have hcreated : subscriberMain eof .topic (.index 0) =
            some (some .reader, none) := by simp [subscriberMain, expected]
        refine tell_more hcreated ?_
        rw [if_neg (by decide), readerStage]
        cases hreader : expect (Patterns.reader py) [] text with
        | none => exact ⟨[.index 3], rfl⟩
        | some m =>
            obtain ⟨w, text⟩ := m
            have hlt : w.index < 3 := index_lt_of_expect hreader
            obtain hi | hi | hi : w.index = 0 ∨ w.index = 1 ∨ w.index = 2 := by omega
            · simp only [hi]
              have hread : subscriberMain eof .reader (.index 0) =
                  some (some .data, none) := by simp [subscriberMain, expected]
              refine tell_more hread ?_
              rw [if_neg (by decide), if_neg (by decide), dataStage]
              cases hdata : expect (Patterns.received py) [] text with
              | none => exact ⟨[.index 4], rfl⟩
              | some m =>
                  obtain ⟨w, text⟩ := m
                  have hlt : w.index < 4 := index_lt_of_expect hdata
                  obtain hi | hi | hi | hi :
                      w.index = 0 ∨ w.index = 1 ∨ w.index = 2 ∨ w.index = 3 := by omega
                  · simp only [hi]
                    have hfirst : subscriberMain eof .data (.index 0) =
                        some (some .check, none) := by simp [subscriberMain, expected]
                    refine tell_more hfirst ?_
                    exact ⟨[.code (check w text)], rfl⟩
                  · exact ⟨[.index 1], by simp [tell, subscriberMain, expected, hi]⟩
                  · exact ⟨[.index 2], by simp [tell, subscriberMain, expected, hi]⟩
                  · exact ⟨[.index 3], by simp [tell, subscriberMain, expected, hi]⟩
            · exact ⟨[.index 1], by simp [tell, subscriberMain, expected, hi]⟩
            · exact ⟨[.index 2], by simp [tell, subscriberMain, expected, hi]⟩
      · exact ⟨[.index 1], by simp [tell, subscriberMain, expected, hi]⟩

end DdsRtps.Harness
