/-
# `DdsRtps.Harness.SampleVerdicts` — what the checks by instance answer

The loop of SampleLoop on a stream of events, with its verdict.  Three things
make a check return: so many samples are counted (`Reaches`), a size is wrong
(`Refuses`), or nothing comes any more (`Runs`); and the verdict is taken from
the variables as they are then.

For `test_order_w_instances` and `test_reliability_no_losses_w_instances` the
verdict says which of the three it was (`testOrder_exact`,
`testReliabilityNoLosses_exact`).  The other two let something else through.
`test_reading_1_sample_every_10_samples_w_instances` forgets a wrong size, once
45 samples are counted (`dataNotCorrect_of_violates_iff`), and
`test_lifespan_2_3_consecutive_samples_w_instances` passes on any run of two or
three samples, if nothing comes behind it (`ok_evidence_iff`).
-/
import DdsRtps.Harness.SampleChecks

namespace DdsRtps.Harness

open Regex
open EventLoop (Begins Ends)

/-! ## What decides -/

/-- The samples that are judged before the last match. -/
def judgedReadings (py : PyUnicode) (text : List Char) (windows : List (Window Char)) :
    List Reading :=
  readingsOf py (textsOf text windows).dropLast

/-- So many samples of the instance seen first are counted, and no sizes are
refused before. -/
def Counts (py : PyUnicode) (text : List Char) (events : Nat → Arrival (Window Char)) (limit : Nat)
    (accepted : List Nat → Prop) : Prop :=
  ∃ windows, Begins events windows ∧ limit ≤ counted py text windows ∧
    ∀ color, accepted (sizesOf color (judgedReadings py text windows))

/-- Some sizes are refused, with fewer samples counted. -/
def Violates (py : PyUnicode) (text : List Char) (events : Nat → Arrival (Window Char))
    (limit : Nat) (accepted : List Nat → Prop) : Prop :=
  ∃ windows, Begins events windows ∧ counted py text windows < limit ∧
    ∃ color, ¬accepted (sizesOf color (readingsOf py (textsOf text windows)))

section Prefixes

variable {py : PyUnicode} {text : List Char}

theorem judgedReadings_concat (windows : List (Window Char)) (w : Window Char) :
    judgedReadings py text (windows ++ [w]) = readingsOf py (textsOf text windows) := by
  rw [judgedReadings, textsOf, List.map_append, ← List.cons_append, List.map_singleton,
    List.dropLast_concat, textsOf]

theorem counted_le_of_initial {windows windows' : List (Window Char)}
    (h : windows <+: windows') : counted py text windows ≤ counted py text windows' := by
  obtain ⟨more, rfl⟩ := h
  induction more using List.reverseRecOn with
  | nil => rw [List.append_nil]
  | append_singleton more w ih =>
      rw [← List.append_assoc, counted_append]
      omega

theorem readings_initial (py : PyUnicode) (text : List Char)
    {windows windows' : List (Window Char)} (h : windows <+: windows') :
    readingsOf py (textsOf text windows) <+: readingsOf py (textsOf text windows') := by
  obtain ⟨more, rfl⟩ := h
  rw [readingsOf, readingsOf, textsOf, textsOf, List.map_append, ← List.cons_append,
    List.filterMap_append]
  exact List.prefix_append _ _

theorem sizesOf_initial {readings readings' : List Reading} (h : readings <+: readings')
    (color : List Char) : sizesOf color readings <+: sizesOf color readings' := by
  obtain ⟨more, rfl⟩ := h
  rw [sizesOf, sizesOf, List.filter_append, List.map_append]
  exact List.prefix_append _ _

/-- All that is read up to some match is judged before a later one. -/
theorem readings_prefix_judged {windows windows' : List (Window Char)} (h : windows <+: windows')
    (hne : windows ≠ windows') :
    readingsOf py (textsOf text windows) <+: judgedReadings py text windows' := by
  rcases List.eq_nil_or_concat windows' with rfl | ⟨before, w, rfl⟩
  · exact absurd (List.prefix_nil.mp h) hne
  · rw [List.concat_eq_append] at h hne ⊢
    rw [judgedReadings_concat]
    rcases List.prefix_concat_iff.mp h with heq | hbefore
    · exact absurd heq hne
    · exact readings_initial py text hbefore

end Prefixes

namespace SampleCheck

variable {σ : Type} (check : SampleCheck σ)

/-! ## The check as a loop that waits -/

/-- A check of these four. -/
def eventLoop (py : PyUnicode) (text : List Char) :
    EventLoop (Window Char) (Waiting σ) ReturnCode where
  start := check.after py text []
  onInput w wait := check.onMatch py wait w
  onTimeout wait := check.verdict wait.state
  onEof _ := .dataNotReceived

theorem after_eventLoop (py : PyUnicode) (text : List Char) (windows : List (Window Char)) :
    (check.eventLoop py text).after windows = check.after py text windows := by
  induction windows using List.reverseRecOn with
  | nil => rw [EventLoop.after_nil, eventLoop]
  | append_singleton windows w ih =>
      rw [EventLoop.after_concat, after_append, ih]
      cases check.after py text windows with
      | inl wait => rfl
      | inr code => rfl

/-- On an output that ends, this is what the loop over its windows returns. -/
theorem eventLoop_returns (py : PyUnicode) (text output : List Char) (ending : Ending) :
    (check.eventLoop py text).Returns
      (EventLoop.streamOf (expectAll check.patterns [] 0 output) ending.arrival)
      (check.result py text output ending) := by
  cases ending with
  | timeout =>
      have hresult : check.result py text output .timeout =
          ((check.eventLoop py text).after (expectAll check.patterns [] 0 output)).elim
            (check.eventLoop py text).onTimeout id := by
        rw [result, after_eventLoop]
        cases check.after py text (expectAll check.patterns [] 0 output) <;> rfl
      rw [hresult]
      exact EventLoop.returns_timeout _ _
  | eof =>
      have hresult : check.result py text output .eof =
          ((check.eventLoop py text).after (expectAll check.patterns [] 0 output)).elim
            (check.eventLoop py text).onEof id := by
        rw [result, after_eventLoop]
        cases check.after py text (expectAll check.patterns [] 0 output) <;> rfl
      rw [hresult]
      exact EventLoop.returns_eof _ _

variable {check} {py : PyUnicode} {text : List Char} {events : Nat → Arrival (Window Char)}

variable (check py text events) in
/-- The limit is reached; `st` has the variables then. -/
structure Reaches (windows : List (Window Char)) (st : SampleState σ) : Prop where
  begins : Begins events windows
  limit : counted py text windows = check.limit
  knows : check.Knows (judgedReadings py text windows) st
  count : st.samplesReadPerInstance = counted py text windows

variable (check py text events) in
/-- A size is wrong. -/
structure Refuses (windows : List (Window Char)) (st : SampleState σ) : Prop where
  begins : Begins events windows
  limit : counted py text windows < check.limit
  wrong : ∃ color, ¬check.Accepts (sizesOf color (readingsOf py (textsOf text windows)))
  knows : check.Knows (judgedReadings py text windows) st
  count : st.samplesReadPerInstance = counted py text windows

variable (check py text events) in
/-- The loop waits. -/
structure Runs (windows : List (Window Char)) (st : SampleState σ) : Prop where
  begins : Begins events windows
  limit : counted py text windows < check.limit
  knows : check.Knows (readingsOf py (textsOf text windows)) st
  count : st.samplesReadPerInstance = counted py text windows

/-- The first sample is never refused. -/
theorem undecided_nil (hlimit : 0 < check.limit) (hbasic : basicCheck py text = .ok)
    (hfirst : ∀ size, check.Accepts [size]) : check.Undecided py text [] := by
  refine ⟨hbasic, hlimit, fun color => ?_⟩
  have hone : readingsOf py (textsOf text []) = (colorAndSize py text).toList := by
    rw [textsOf, readingsOf, List.map_nil, List.filterMap_cons]
    cases colorAndSize py text with
    | none => rfl
    | some r => rfl
  rw [hone]
  cases colorAndSize py text with
  | none => exact .inl rfl
  | some r =>
      have hsizes := sizesOf_append color [] r
      rw [List.nil_append] at hsizes
      rw [Option.toList_some, hsizes]
      split
      · exact hfirst r.2
      · exact .inl rfl

theorem leavesAt_cases {windows : List (Window Char)} {code : ReturnCode}
    (hlimit : 0 < check.limit) (hbasic : basicCheck py text = .ok)
    (hfirst : ∀ size, check.Accepts [size]) (hbegins : Begins events windows)
    (h : (check.eventLoop py text).LeavesAt windows code) :
    ∃ st, (Reaches check py text events windows st ∧ code = check.verdict st) ∨
      (Refuses check py text events windows st ∧
        code = check.verdict { st with producedCode := .dataNotCorrect }) := by
  rcases h with ⟨rfl, hstart⟩ | ⟨before, w, wait, rfl, hbefore, hlast⟩
  · rcases after_cases py hlimit text [] with ⟨hdecided, -⟩ | ⟨-, wait, hwait, -⟩
    · exact absurd (undecided_nil hlimit hbasic hfirst) hdecided
    · rw [eventLoop, hwait] at hstart
      cases hstart
  · rw [after_eventLoop] at hbefore
    rcases after_cases py hlimit text before with
      ⟨-, code', hcode⟩ | ⟨hundecided, wait', hwait, hwaits⟩
    · rw [hcode] at hbefore
      cases hbefore
    · obtain rfl := Sum.inl.inj (hwait.symm.trans hbefore)
      obtain ⟨hread, hcount⟩ := hwaits.countSample w
      have hle : counted py text (before ++ [w]) ≤ check.limit := by
        have hless := hundecided.count
        rw [counted_append]
        split <;> omega
      have hknows := hread
      rw [← judgedReadings_concat before w] at hknows
      rcases turn_cases py hread w.text with
        ⟨hfull, hturn⟩ | ⟨hless, hwrong, hturn⟩ | ⟨-, wait', hturn, -⟩
      · refine ⟨wait'.countSample w.index, .inl ⟨⟨hbegins, ?_, hknows, hcount⟩, ?_⟩⟩
        · rw [hcount] at hfull
          exact le_antisymm hle hfull
        · exact Sum.inr.inj (hlast.symm.trans hturn)
      · refine ⟨wait'.countSample w.index, .inr ⟨⟨hbegins, ?_, ?_, hknows, hcount⟩, ?_⟩⟩
        · rwa [hcount] at hless
        · rwa [readingsOf_append]
        · exact Sum.inr.inj (hlast.symm.trans hturn)
      · have hcontra := hlast.symm.trans hturn
        cases hcontra

/-- A check returns in one of three ways. -/
theorem returns_cases {code : ReturnCode} (hlimit : 0 < check.limit)
    (hbasic : basicCheck py text = .ok) (hfirst : ∀ size, check.Accepts [size])
    (h : (check.eventLoop py text).Returns events code) :
    ∃ windows st, (Reaches check py text events windows st ∧ code = check.verdict st) ∨
      (Refuses check py text events windows st ∧
        code = check.verdict { st with producedCode := .dataNotCorrect }) ∨
      (Runs check py text events windows st ∧
        (events windows.length = .timeout ∧ code = check.verdict st ∨
          events windows.length = .eof ∧ code = .dataNotReceived)) := by
  have hruns : ∀ {windows : List (Window Char)} {wait : Waiting σ}, Begins events windows →
      (check.eventLoop py text).after windows = .inl wait →
      Runs check py text events windows wait.state := by
    intro windows wait hbegins hwait
    rw [after_eventLoop] at hwait
    rcases after_cases py hlimit text windows with ⟨-, code', hcode⟩ |
      ⟨hundecided, wait', hwait', hwaits⟩
    · rw [hcode] at hwait
      cases hwait
    · obtain rfl := Sum.inl.inj (hwait'.symm.trans hwait)
      exact ⟨hbegins, hundecided.count, hwaits.knows, hwaits.count⟩
  cases h with
  | left hbegins hleaves =>
      obtain ⟨st, hreaches | hrefuses⟩ := leavesAt_cases hlimit hbasic hfirst hbegins hleaves
      · exact ⟨_, st, .inl hreaches⟩
      · exact ⟨_, st, .inr (.inl hrefuses)⟩
  | timeout hbegins hwait hstop =>
      exact ⟨_, _, .inr (.inr ⟨hruns hbegins hwait, .inl ⟨hstop, rfl⟩⟩)⟩
  | eof hbegins hwait hstop => exact ⟨_, _, .inr (.inr ⟨hruns hbegins hwait, .inr ⟨hstop, rfl⟩⟩)⟩

/-! ## One of the three -/

/-- Nothing is refused before the loop gets to what it refuses. -/
theorem prefix_of_wrong {windows windows' : List (Window Char)} (hbegins : Begins events windows)
    (hwrong : ∃ color, ¬check.Accepts (sizesOf color (readingsOf py (textsOf text windows))))
    (hbegins' : Begins events windows')
    (haccepts : ∀ color, check.Accepts (sizesOf color (judgedReadings py text windows'))) :
    windows' <+: windows := by
  rcases hbegins'.prefix_or hbegins with hle | hle
  · exact hle
  · by_contra hne
    obtain ⟨color, hwrong⟩ := hwrong
    have hjudged : readingsOf py (textsOf text windows) <+: judgedReadings py text windows' :=
      readings_prefix_judged hle fun heq => hne (heq ▸ List.prefix_rfl)
    exact hwrong (check.accepts_of_initial (haccepts color) (sizesOf_initial hjudged color))

theorem not_violates_of_counts {limit : Nat} (h : Counts py text events limit check.Accepts) :
    ¬Violates py text events limit check.Accepts := by
  rintro ⟨windows, hbegins, hless, hwrong⟩
  obtain ⟨windows', hbegins', hle, haccepts⟩ := h
  have hinitial := prefix_of_wrong hbegins hwrong hbegins' haccepts
  exact absurd (hle.trans (counted_le_of_initial hinitial)) (not_le.mpr hless)

theorem Reaches.counts {windows : List (Window Char)} {st : SampleState σ}
    (h : Reaches check py text events windows st) :
    Counts py text events check.limit check.Accepts :=
  ⟨windows, h.begins, h.limit.ge, h.knows.accepts⟩

theorem Refuses.violates {windows : List (Window Char)} {st : SampleState σ}
    (h : Refuses check py text events windows st) {limit : Nat}
    (hless : counted py text windows < limit) : Violates py text events limit check.Accepts :=
  ⟨windows, h.begins, hless, h.wrong⟩

/-- The loop refuses a size as soon as there is one to refuse. -/
theorem Refuses.count_lt {windows : List (Window Char)} {st : SampleState σ}
    (h : Refuses check py text events windows st) {limit : Nat}
    (hviolates : Violates py text events limit check.Accepts) :
    counted py text windows < limit := by
  obtain ⟨windows', hbegins, hless, hwrong⟩ := hviolates
  have hinitial := prefix_of_wrong hbegins hwrong h.begins h.knows.accepts
  exact lt_of_le_of_lt (counted_le_of_initial hinitial) hless

/-- Where the stream has nothing more to give, nothing is decided. -/
theorem Runs.undecided {windows : List (Window Char)} {st : SampleState σ}
    (h : Runs check py text events windows st) (hstop : ∀ w, events windows.length ≠ .input w) :
    ¬Counts py text events check.limit check.Accepts ∧
      ¬Violates py text events check.limit check.Accepts := by
  constructor
  · rintro ⟨windows', hbegins', hle, -⟩
    have hinitial := h.begins.prefix_of_stop hbegins' hstop
    exact absurd (hle.trans (counted_le_of_initial hinitial)) (not_le.mpr h.limit)
  · rintro ⟨windows', hbegins', -, color, hwrong⟩
    have hinitial := readings_initial py text
      (h.begins.prefix_of_stop hbegins' hstop)
    exact hwrong (check.accepts_of_initial (h.knows.accepts color) (sizesOf_initial hinitial color))

/-- Where something is decided, the loop returns. -/
theorem exists_returns_of_decided {windows : List (Window Char)} (hlimit : 0 < check.limit)
    (hbegins : Begins events windows) (hdecided : ¬check.Undecided py text windows) :
    ∃ code, (check.eventLoop py text).Returns events code := by
  rcases after_cases py hlimit text windows with ⟨-, code, hcode⟩ | ⟨hundecided, -⟩
  · rw [← after_eventLoop] at hcode
    exact ⟨code, .of_after hbegins hcode⟩
  · exact absurd hundecided hdecided

/-- Silence and the end of the program are no match. -/
theorem ne_input_of_stop {ι : Type} {event : Arrival ι} {P Q : Prop}
    (h : event = .timeout ∧ P ∨ event = .eof ∧ Q) (w : ι) : event ≠ .input w := by
  rintro rfl
  rcases h with ⟨htimeout, -⟩ | ⟨heof, -⟩
  · cases htimeout
  · cases heof

theorem reaches_of_counts (hlimit : 0 < check.limit) (hbasic : basicCheck py text = .ok)
    (hfirst : ∀ size, check.Accepts [size])
    (h : Counts py text events check.limit check.Accepts) :
    ∃ windows st, Reaches check py text events windows st ∧
      (check.eventLoop py text).Returns events (check.verdict st) := by
  have hcounts := h
  obtain ⟨windows, hbegins, hle, -⟩ := h
  obtain ⟨code, hreturns⟩ := exists_returns_of_decided hlimit hbegins fun hundecided =>
    absurd hle (not_le.mpr hundecided.count)
  obtain ⟨windows', st, ⟨hreaches, rfl⟩ | ⟨hrefuses, -⟩ | ⟨hruns, hstop⟩⟩ :=
    returns_cases hlimit hbasic hfirst hreturns
  · exact ⟨windows', st, hreaches, hreturns⟩
  · exact absurd (hrefuses.violates hrefuses.limit) (not_violates_of_counts hcounts)
  · exact absurd hcounts (hruns.undecided (ne_input_of_stop hstop)).1

theorem refuses_of_violates (hlimit : 0 < check.limit) (hbasic : basicCheck py text = .ok)
    (hfirst : ∀ size, check.Accepts [size])
    (h : Violates py text events check.limit check.Accepts) :
    ∃ windows st, Refuses check py text events windows st ∧
      (check.eventLoop py text).Returns events
        (check.verdict { st with producedCode := .dataNotCorrect }) := by
  have hviolates := h
  obtain ⟨windows, hbegins, -, color, hwrong⟩ := h
  obtain ⟨code, hreturns⟩ := exists_returns_of_decided hlimit hbegins fun hundecided =>
    hwrong (hundecided.accepts color)
  obtain ⟨windows', st, ⟨hreaches, -⟩ | ⟨hrefuses, rfl⟩ | ⟨hruns, hstop⟩⟩ :=
    returns_cases hlimit hbasic hfirst hreturns
  · exact absurd hviolates (not_violates_of_counts hreaches.counts)
  · exact ⟨windows', st, hrefuses, hreturns⟩
  · exact absurd hviolates (hruns.undecided (ne_input_of_stop hstop)).2

/-! ## What is observed -/

/-- A check that never sees samples expire answers `DATA_NOT_RECEIVED`, as long as
nothing else is decided. -/
theorem Knows.producedCode_of_never {readings : List Reading} {st : SampleState σ}
    (h : check.Knows readings st) (hnever : ∀ s size, (check.judge s size).isExpired = false) :
    st.producedCode = .dataNotReceived := by
  have hexpires : ∀ (s : σ) (sizes : List Nat), check.expires s sizes = false := by
    intro s sizes
    induction sizes generalizing s with
    | nil => rfl
    | cons size sizes ih =>
        have hsize := hnever s size
        rw [expires]
        cases hjudge : check.judge s size with
        | wrong => rfl
        | right s => exact ih s
        | expired s =>
            rw [hjudge] at hsize
            cases hsize
  have hflag : ¬st.lifespanExpirationObserved = true := by
    rw [h.observed]
    rintro ⟨color, hexpired⟩
    cases hsizes : sizesOf color readings with
    | nil => rwa [hsizes] at hexpired
    | cons size sizes =>
        rw [hsizes, Expired, hexpires] at hexpired
        cases hexpired
  rw [h.produced, if_neg hflag]

end SampleCheck

/-! ## The exact checks -/

section Exact

variable {py : PyUnicode} {text : List Char} {events : Nat → Arrival (Window Char)}

/-- The verdict tells what has made the check return. -/
structure Exact {σ : Type} (check : SampleCheck σ) (py : PyUnicode) (text : List Char)
    (events : Nat → Arrival (Window Char)) (limit : Nat) (accepted : List Nat → Prop) : Prop where
  ok : (check.eventLoop py text).Returns events .ok ↔ Counts py text events limit accepted
  dataNotCorrect : (check.eventLoop py text).Returns events .dataNotCorrect ↔
    Violates py text events limit accepted
  /-- `DATA_NOT_RECEIVED` otherwise. -/
  otherwise : ∀ code, (check.eventLoop py text).Returns events code →
    ¬Counts py text events limit accepted → ¬Violates py text events limit accepted →
    code = .dataNotReceived
  ends : Ends events → ¬Counts py text events limit accepted →
    ¬Violates py text events limit accepted →
    (check.eventLoop py text).Returns events .dataNotReceived

section Verdicts

variable {σ : Type} {check : SampleCheck σ} (hlimit : 0 < check.limit)
  (hbasic : basicCheck py text = .ok) (hfirst : ∀ size, check.Accepts [size])
  (hreached : ∀ windows st, SampleCheck.Reaches check py text events windows st →
    check.verdict st = .ok)
  (hrefused : ∀ windows st, SampleCheck.Refuses check py text events windows st →
    check.verdict { st with producedCode := .dataNotCorrect } = .dataNotCorrect)
  (hrunning : ∀ windows st, SampleCheck.Runs check py text events windows st →
    check.verdict st = .dataNotReceived)

include hlimit hbasic hfirst hreached hrefused hrunning

theorem returns_of_verdicts {code : ReturnCode}
    (hreturns : (check.eventLoop py text).Returns events code) :
    (Counts py text events check.limit check.Accepts ∧ code = .ok) ∨
      (Violates py text events check.limit check.Accepts ∧ code = .dataNotCorrect) ∨
      code = .dataNotReceived := by
  obtain ⟨windows, st, ⟨h, rfl⟩ | ⟨h, rfl⟩ | ⟨h, ⟨-, rfl⟩ | ⟨-, rfl⟩⟩⟩ :=
    SampleCheck.returns_cases hlimit hbasic hfirst hreturns
  · exact .inl ⟨h.counts, hreached windows st h⟩
  · exact .inr (.inl ⟨h.violates h.limit, hrefused windows st h⟩)
  · exact .inr (.inr (hrunning windows st h))
  · exact .inr (.inr rfl)

/-- A check is exact, if it has one verdict on each of the three ways to return. -/
theorem exact_of_verdicts : Exact check py text events check.limit check.Accepts := by
  have hcases : ∀ code, (check.eventLoop py text).Returns events code → _ := fun code =>
    returns_of_verdicts hlimit hbasic hfirst hreached hrefused hrunning
  constructor
  · constructor
    · intro hreturns
      rcases hcases _ hreturns with ⟨hcounts, -⟩ | ⟨-, hcode⟩ | hcode
      · exact hcounts
      · cases hcode
      · cases hcode
    · intro hcounts
      obtain ⟨windows, st, h, hreturns⟩ :=
        SampleCheck.reaches_of_counts hlimit hbasic hfirst hcounts
      rwa [hreached windows st h] at hreturns
  · constructor
    · intro hreturns
      rcases hcases _ hreturns with ⟨-, hcode⟩ | ⟨hviolates, -⟩ | hcode
      · cases hcode
      · exact hviolates
      · cases hcode
    · intro hviolates
      obtain ⟨windows, st, h, hreturns⟩ :=
        SampleCheck.refuses_of_violates hlimit hbasic hfirst hviolates
      rwa [hrefused windows st h] at hreturns
  · intro code hreturns hcounts hviolates
    rcases hcases _ hreturns with ⟨h, -⟩ | ⟨h, -⟩ | hcode
    · exact absurd h hcounts
    · exact absurd h hviolates
    · exact hcode
  · intro hends hcounts hviolates
    obtain ⟨code, hreturns⟩ := EventLoop.exists_returns_of_ends (check.eventLoop py text) hends
    rcases hcases _ hreturns with ⟨h, -⟩ | ⟨h, -⟩ | rfl
    · exact absurd h hcounts
    · exact absurd h hviolates
    · exact hreturns

end Verdicts

/-- Below the limit the code is the one that was produced. -/
theorem verdict_seqNumCheck_of_lt {next : Nat → Nat → Bool} {patterns : List (Regex Char)}
    {st : SampleState SeqNum} (hless : st.samplesReadPerInstance < 500) :
    (seqNumCheck next patterns).verdict st = st.producedCode := by
  refine if_neg fun heq => ?_
  have hfull : 500 = st.samplesReadPerInstance := heq
  omega

theorem seqNumCheck_exact (events : Nat → Arrival (Window Char)) (next : Nat → Nat → Bool)
    (patterns : List (Regex Char)) (hbasic : basicCheck py text = .ok) :
    Exact (seqNumCheck next patterns) py text events 500 (seqNumCheck next patterns).Accepts := by
  have hlimit : 0 < (seqNumCheck next patterns).limit := by
    show 0 < 500
    omega
  have hfirst : ∀ size, (seqNumCheck next patterns).Accepts [size] := by
    intro size
    rw [accepts_seqNumCheck_iff]
    exact List.isChain_singleton size
  have hnever : ∀ s size, ((seqNumCheck next patterns).judge s size).isExpired = false := by
    intro s size
    simp only [seqNumCheck]
    split
    · rfl
    · split <;> rfl
  refine exact_of_verdicts hlimit hbasic hfirst ?_ ?_ ?_
  · intro windows st h
    exact if_pos (h.limit.symm.trans h.count.symm)
  · intro windows st h
    have hless : counted py text windows < 500 := h.limit
    rw [← h.count] at hless
    exact verdict_seqNumCheck_of_lt hless
  · intro windows st h
    have hless : counted py text windows < 500 := h.limit
    rw [← h.count] at hless
    rw [verdict_seqNumCheck_of_lt hless]
    exact h.knows.producedCode_of_never hnever

/-- **`test_order_w_instances` is exact**: `OK` at the 500th sample of the instance
seen first, `DATA_NOT_CORRECT` if a size of some instance does not exceed the one
before, `DATA_NOT_RECEIVED` otherwise. -/
theorem testOrder_exact (hbasic : basicCheck py text = .ok) :
    Exact testOrder py text events 500 fun sizes => sizes.IsChain (· < ·) := by
  have hexact := seqNumCheck_exact events (fun seqNum size => seqNum < size)
    [sampleEnd, readingOrderedAccess] hbasic
  have haccepts : (seqNumCheck (fun seqNum size => seqNum < size)
      [sampleEnd, readingOrderedAccess]).Accepts = fun sizes => sizes.IsChain (· < ·) :=
    funext fun sizes => propext (accepts_testOrder_iff sizes)
  rw [haccepts] at hexact
  exact hexact

/-- **`test_reliability_no_losses_w_instances` is exact**: the sizes of an instance
have to follow each other without a gap. -/
theorem testReliabilityNoLosses_exact (hbasic : basicCheck py text = .ok) :
    Exact testReliabilityNoLosses py text events 500 fun sizes =>
      sizes.IsChain fun a b => a + 1 = b := by
  have hexact := seqNumCheck_exact events (fun seqNum size => seqNum + 1 = size)
    [sampleEnd] hbasic
  have haccepts : (seqNumCheck (fun seqNum size => seqNum + 1 = size) [sampleEnd]).Accepts =
      fun sizes => sizes.IsChain fun a b => a + 1 = b :=
    funext fun sizes => propext (accepts_testReliabilityNoLosses_iff sizes)
  rw [haccepts] at hexact
  exact hexact

end Exact

/-- Two red samples, and nothing behind them. -/
def redTwice : Nat → Arrival (Window Char) :=
  EventLoop.streamOf [sampleMatch "RED" 2] .timeout

theorem testOrder_exact_redTwice :
    Exact testOrder .ascii (sampleMatch "RED" 1).text redTwice 500 fun sizes =>
      sizes.IsChain (· < ·) :=
  testOrder_exact basicCheck_sampleMatch_red

theorem testReliabilityNoLosses_exact_redTwice :
    Exact testReliabilityNoLosses .ascii (sampleMatch "RED" 1).text redTwice 500 fun sizes =>
      sizes.IsChain fun a b => a + 1 = b :=
  testReliabilityNoLosses_exact basicCheck_sampleMatch_red

/-! ## One sample of ten -/

section Tenth

variable {py : PyUnicode} {text : List Char} {events : Nat → Arrival (Window Char)}

/-- From the second sample on, the sizes of an instance are nine apart or more, and
no more than five are missed. -/
def TenApart (sizes : List Nat) : Prop :=
  sizes.tail.IsChain (fun a b => a + 9 ≤ b) ∧ missedSamples sizes.tail ≤ 5

theorem accepts_eq_tenApart : testReading1SampleEvery10Samples.Accepts = TenApart :=
  funext fun sizes => propext (accepts_testReading1SampleEvery10Samples_iff sizes)

/-- Where the sizes of some instance are wrong, the verdict goes by the samples
counted so far. -/
theorem dataNotCorrect_iff_of_violates (hbasic : basicCheck py text = .ok)
    (h : Violates py text events 50 TenApart) :
    (testReading1SampleEvery10Samples.eventLoop py text).Returns events .dataNotCorrect ↔
      Violates py text events 45 TenApart := by
  have hfirst : ∀ size, testReading1SampleEvery10Samples.Accepts [size] := by
    intro size
    rw [accepts_eq_tenApart]
    exact ⟨List.isChain_nil, Nat.zero_le 5⟩
  rw [← accepts_eq_tenApart] at h ⊢
  have hlimit : 0 < testReading1SampleEvery10Samples.limit := Nat.succ_pos 49
  obtain ⟨windows, st, hrefuses, hreturns⟩ :=
    SampleCheck.refuses_of_violates hlimit hbasic hfirst h
  have hverdict : testReading1SampleEvery10Samples.verdict
      { st with producedCode := .dataNotCorrect } =
        if 45 ≤ counted py text windows then .ok else .dataNotCorrect := by
    rw [← hrefuses.count]
    rfl
  rw [hverdict] at hreturns
  constructor
  · intro hcorrect
    have heq := hreturns.unique hcorrect
    refine hrefuses.violates (not_le.mp fun hle => ?_)
    rw [if_pos hle] at heq
    cases heq
  · intro hearly
    rwa [if_neg (not_le.mpr (hrefuses.count_lt hearly))] at hreturns

/-- **When a violation is not masked**: `test_reading_1_sample_every_10_samples_w_instances`
answers `DATA_NOT_CORRECT` to each, unless the first one comes when 45 samples or more
are counted. -/
theorem dataNotCorrect_of_violates_iff (hbasic : basicCheck py text = .ok) :
    (Violates py text events 50 TenApart →
      (testReading1SampleEvery10Samples.eventLoop py text).Returns events .dataNotCorrect) ↔
    (Violates py text events 50 TenApart → Violates py text events 45 TenApart) :=
  ⟨fun h hviolates => (dataNotCorrect_iff_of_violates hbasic hviolates).mp (h hviolates),
    fun h hviolates => (dataNotCorrect_iff_of_violates hbasic hviolates).mpr (h hviolates)⟩

end Tenth

theorem dataNotCorrect_of_violates_iff_redTwice :
    (Violates .ascii (sampleMatch "RED" 1).text redTwice 50 TenApart →
      (testReading1SampleEvery10Samples.eventLoop .ascii (sampleMatch "RED" 1).text).Returns
        redTwice .dataNotCorrect) ↔
    (Violates .ascii (sampleMatch "RED" 1).text redTwice 50 TenApart →
      Violates .ascii (sampleMatch "RED" 1).text redTwice 45 TenApart) :=
  dataNotCorrect_of_violates_iff basicCheck_sampleMatch_red

/-- Red samples of these sizes. -/
def redMatches (sizes : List Nat) : List (Window Char) := sizes.map (sampleMatch "RED")

theorem readingsOf_redMatches (size : Nat) (sizes : List Nat) :
    readingsOf .ascii (textsOf (sampleMatch "RED" size).text (redMatches sizes)) =
      (size :: sizes).map fun size => ("RED".toList, size) := by
  have hred : (colorAndSize .ascii ∘ Window.text ∘ sampleMatch "RED") = fun size =>
      some ("RED".toList, size) := by
    funext size
    rw [Function.comp_apply, Function.comp_apply, colorAndSize_sampleMatch size (.inl rfl)]
  have htexts : textsOf (sampleMatch "RED" size).text (redMatches sizes) =
      (size :: sizes).map (Window.text ∘ sampleMatch "RED") := by
    rw [textsOf, redMatches, List.map_map, List.map_cons]
    rfl
  rw [htexts, readingsOf, List.filterMap_map, hred, List.filterMap_eq_map']

theorem sizesOf_single (color : List Char) (sizes : List Nat) :
    sizesOf color (sizes.map fun size => (color, size)) = sizes := by
  induction sizes with
  | nil => rfl
  | cons size sizes ih =>
      rw [List.map_cons, sizesOf, List.filter_cons_of_pos (by simp), List.map_cons]
      exact congrArg (size :: ·) ih

theorem sizesOf_other {color color' : List Char} (h : color' ≠ color) (sizes : List Nat) :
    sizesOf color' (sizes.map fun size => (color, size)) = [] := by
  rw [sizesOf, List.filter_eq_nil_iff.mpr, List.map_nil]
  intro r hr
  obtain ⟨size, -, rfl⟩ := List.mem_map.mp hr
  simpa using Ne.symm h

/-- Every sample of a single instance is counted. -/
theorem counted_redMatches (size : Nat) (sizes : List Nat) :
    counted .ascii (sampleMatch "RED" size).text (redMatches sizes) = sizes.length := by
  have hlength : ((textsOf (sampleMatch "RED" size).text (redMatches sizes)).zip
      (redMatches sizes)).length = sizes.length := by
    simp [textsOf, redMatches]
  rw [counted, ← hlength, List.countP_eq_length]
  rintro ⟨t, w⟩ hmem
  have ht : colorAndSize .ascii t ≠ none ∧ ∀ r, colorAndSize .ascii t = some r →
      r.1 = "RED".toList := by
    have htext := (List.of_mem_zip hmem).1
    have hsome : ∃ size', t = (sampleMatch "RED" size').text := by
      rcases List.mem_cons.mp htext with rfl | htext
      · exact ⟨size, rfl⟩
      · obtain ⟨w, hw, rfl⟩ := List.mem_map.mp htext
        obtain ⟨size', -, rfl⟩ := List.mem_map.mp hw
        exact ⟨size', rfl⟩
    obtain ⟨size', rfl⟩ := hsome
    rw [colorAndSize_sampleMatch size' (.inl rfl)]
    exact ⟨Option.some_ne_none _, fun r hr => by rw [← Option.some.inj hr]⟩
  have hw : w.index = 0 := by
    obtain ⟨size', -, rfl⟩ := List.mem_map.mp (List.of_mem_zip hmem).2
    rfl
  cases hread : colorAndSize .ascii t with
  | none => exact absurd hread ht.1
  | some r =>
      have hr := ht.2 r hread
      simp [hw, hread, hr, readingsOf_redMatches, firstColor]

/-- One sample of ten, after the first. -/
def tenthSizes : List Nat := (List.range 44).map fun k => 10 * k + 11

/-- Then one that comes too early, and nothing behind it. -/
def lateViolation : Nat → Arrival (Window Char) :=
  EventLoop.streamOf (redMatches (tenthSizes ++ [442])) .timeout

theorem violates_lateViolation :
    Violates .ascii (sampleMatch "RED" 1).text lateViolation 50 TenApart := by
  refine ⟨redMatches (tenthSizes ++ [442]), EventLoop.begins_streamOf _ _, ?_, "RED".toList, ?_⟩
  · rw [counted_redMatches]
    decide
  · rw [readingsOf_redMatches, sizesOf_single]
    exact fun h => absurd h.1 (by decide +kernel)

theorem not_violates_lateViolation :
    ¬Violates .ascii (sampleMatch "RED" 1).text lateViolation 45 TenApart := by
  rintro ⟨windows, hbegins, hless, color, hwrong⟩
  have hle : windows <+: redMatches (tenthSizes ++ [442]) := by
    refine (EventLoop.begins_streamOf _ _).prefix_of_stop hbegins fun w hw => ?_
    rw [EventLoop.streamOf_length] at hw
    cases hw
  have hcut : ∃ more, redMatches tenthSizes = windows ++ more := by
    obtain ⟨sizes, hsizes, rfl⟩ := List.prefix_map_iff.mp hle
    rw [← redMatches, counted_redMatches] at hless
    have htenth : sizes <+: tenthSizes :=
      List.prefix_of_prefix_length_le hsizes (List.prefix_append _ _) (Nat.lt_succ_iff.mp hless)
    obtain ⟨more, hmore⟩ := htenth.map (sampleMatch "RED")
    exact ⟨more, hmore.symm⟩
  obtain ⟨more, hmore⟩ := hcut
  have hinitial := sizesOf_initial (readings_initial .ascii (sampleMatch "RED" 1).text
    (hmore ▸ List.prefix_append windows more)) color
  rw [readingsOf_redMatches] at hinitial
  rw [← accepts_eq_tenApart] at hwrong
  refine hwrong (testReading1SampleEvery10Samples.accepts_of_initial ?_ hinitial)
  rw [accepts_eq_tenApart]
  by_cases hcolor : color = "RED".toList
  · rw [hcolor, sizesOf_single]
    exact ⟨by decide +kernel, by decide +kernel⟩
  · rw [sizesOf_other hcolor]
    exact ⟨List.isChain_nil, Nat.zero_le 5⟩

/-- The 46th sample comes too early, and the check passes. -/
theorem violation_masked :
    ¬ ∀ (py : PyUnicode) (text : List Char) (events : Nat → Arrival (Window Char)),
      basicCheck py text = .ok → Violates py text events 50 TenApart →
        (testReading1SampleEvery10Samples.eventLoop py text).Returns events .dataNotCorrect := by
  intro hall
  have hcorrect := hall _ _ _ basicCheck_sampleMatch_red violates_lateViolation
  exact not_violates_lateViolation
    ((dataNotCorrect_iff_of_violates basicCheck_sampleMatch_red violates_lateViolation).mp hcorrect)

/-! ## Lifespan -/

theorem expires_testLifespan_iff (a count : Nat) (sizes : List Nat) :
    testLifespan23ConsecutiveSamples.expires ⟨a, false, count, false⟩ sizes = true ↔
      ∃ n ∈ (runLengths a count sizes).dropLast.head?, n = 2 ∨ n = 3 := by
  induction sizes generalizing a count with
  | nil => simp [SampleCheck.expires, runLengths]
  | cons b sizes ih =>
      rw [SampleCheck.expires, runLengths]
      by_cases hnext : a + 1 = b
      · have hjudge : testLifespan23ConsecutiveSamples.judge ⟨a, false, count, false⟩ b =
            .right ⟨b, false, count + 1, false⟩ := by
          simp [testLifespan23ConsecutiveSamples, hnext]
        rw [if_pos hnext, hjudge]
        exact ih b (count + 1)
      · rw [if_neg hnext, List.dropLast_cons_of_ne_nil (runLengths_ne_nil _ _ _), List.head?_cons]
        by_cases hcount : count = 3 ∨ count = 2
        · have hjudge : testLifespan23ConsecutiveSamples.judge ⟨a, false, count, false⟩ b =
              .expired ⟨b, false, 1, false⟩ := by
            simp [testLifespan23ConsecutiveSamples, hnext, hcount]
          rw [hjudge]
          exact iff_of_true rfl ⟨count, rfl, hcount.symm⟩
        · have hjudge : testLifespan23ConsecutiveSamples.judge ⟨a, false, count, false⟩ b =
              .wrong := by
            simp [testLifespan23ConsecutiveSamples, hnext, hcount]
          rw [hjudge]
          refine iff_of_false Bool.false_ne_true ?_
          rintro ⟨n, hn, hlength⟩
          obtain rfl := Option.some.inj hn
          exact hcount hlength.symm

theorem expires_testLifespan_first_iff (a : Nat) (sizes : List Nat) :
    testLifespan23ConsecutiveSamples.expires ⟨a, false, 1, true⟩ sizes = true ↔
      ∃ n ∈ (butFirstSingle (runLengths a 1 sizes).dropLast).head?, n = 2 ∨ n = 3 := by
  cases sizes with
  | nil => simp [SampleCheck.expires, runLengths, butFirstSingle]
  | cons b sizes =>
      rw [SampleCheck.expires, runLengths]
      by_cases hnext : a + 1 = b
      · have hjudge : testLifespan23ConsecutiveSamples.judge ⟨a, false, 1, true⟩ b =
            .right ⟨b, false, 2, false⟩ := by
          simp [testLifespan23ConsecutiveSamples, hnext]
        rw [if_pos hnext, hjudge, butFirstSingle_runLengths_two]
        exact expires_testLifespan_iff b 2 sizes
      · have hjudge : testLifespan23ConsecutiveSamples.judge ⟨a, false, 1, true⟩ b =
            .right ⟨b, false, 1, false⟩ := by
          simp [testLifespan23ConsecutiveSamples, hnext]
        rw [if_neg hnext, hjudge, List.dropLast_cons_of_ne_nil (runLengths_ne_nil _ _ _),
          butFirstSingle]
        exact expires_testLifespan_iff b 1 sizes

/-- Samples have expired, where a run of two or three has ended. -/
theorem expired_testLifespan_iff {sizes : List Nat} (h : ∀ n ∈ endedRuns sizes, n = 2 ∨ n = 3) :
    testLifespan23ConsecutiveSamples.Expired sizes ↔ endedRuns sizes ≠ [] := by
  cases sizes with
  | nil => simp [SampleCheck.Expired, endedRuns, runsOf, butFirstSingle]
  | cons size sizes =>
      have hfirst : testLifespan23ConsecutiveSamples.Expired (size :: sizes) ↔
          ∃ n ∈ (endedRuns (size :: sizes)).head?, n = 2 ∨ n = 3 := by
        rw [endedRuns, map_length_runsOf]
        exact expires_testLifespan_first_iff size sizes
      rw [hfirst]
      cases hruns : endedRuns (size :: sizes) with
      | nil => simp
      | cons n lengths =>
          rw [hruns] at h
          exact iff_of_true ⟨n, rfl, h n List.mem_cons_self⟩ (List.cons_ne_nil n lengths)

/-- Without a gap no run ends. -/
theorem endedRuns_of_isChain {sizes : List Nat} (h : sizes.IsChain fun a b => a + 1 = b) :
    endedRuns sizes = [] := by
  have hone : ∀ (a count : Nat) (sizes : List Nat), (a :: sizes).IsChain (fun a b => a + 1 = b) →
      runLengths a count sizes = [count + sizes.length] := by
    intro a count sizes hchain
    induction sizes generalizing a count with
    | nil => rfl
    | cons b sizes ih =>
        obtain ⟨hnext, hchain⟩ := List.isChain_cons_cons.mp hchain
        rw [runLengths, if_pos hnext, ih b (count + 1) hchain, List.length_cons]
        congr 1
        omega
  cases sizes with
  | nil => rfl
  | cons size sizes =>
      rw [endedRuns, map_length_runsOf, hone size 1 sizes h]
      rfl

section Lifespan

/-- What passing should be backed by: 50 samples of the instance seen first are counted,
some instance has a gap, and all runs that have ended are of two or three samples. -/
def LifespanEvidence (py : PyUnicode) (text : List Char) (events : Nat → Arrival (Window Char)) :
    Prop :=
  ∃ windows, Begins events windows ∧ 50 ≤ counted py text windows ∧
    (∃ color, ¬(sizesOf color (judgedReadings py text windows)).IsChain fun a b => a + 1 = b) ∧
    ∀ color, ∀ n ∈ endedRuns (sizesOf color (judgedReadings py text windows)), n = 2 ∨ n = 3

/-- Nothing comes any more before 50 samples are counted, but some run has ended, and
each that has is of two or three samples. -/
def SilentBehindRun (py : PyUnicode) (text : List Char) (events : Nat → Arrival (Window Char)) :
    Prop :=
  ∃ windows, Begins events windows ∧ events windows.length = .timeout ∧
    counted py text windows < 50 ∧
    (∃ color, endedRuns (sizesOf color (readingsOf py (textsOf text windows))) ≠ []) ∧
    ∀ color, ∀ n ∈ endedRuns (sizesOf color (readingsOf py (textsOf text windows))), n = 2 ∨ n = 3

variable {py : PyUnicode} {text : List Char} {events : Nat → Arrival (Window Char)}

theorem observed_iff {readings : List Reading} {st : SampleState Lifespan}
    (h : testLifespan23ConsecutiveSamples.Knows readings st) :
    st.lifespanExpirationObserved = true ↔ ∃ color, endedRuns (sizesOf color readings) ≠ [] := by
  rw [h.observed]
  refine exists_congr fun color => ?_
  exact expired_testLifespan_iff
    ((accepts_testLifespan23ConsecutiveSamples_iff _).mp (h.accepts color))

/-- Such a stream passes. -/
theorem SilentBehindRun.ok (hbasic : basicCheck py text = .ok)
    (h : SilentBehindRun py text events) :
    (testLifespan23ConsecutiveSamples.eventLoop py text).Returns events .ok := by
  obtain ⟨windows, hbegins, hstop, hless, hended, hruns⟩ := h
  have hlimit : 0 < testLifespan23ConsecutiveSamples.limit := Nat.succ_pos 49
  rcases SampleCheck.after_cases py hlimit text windows with
    ⟨hdecided, -⟩ | ⟨-, wait, hwait, hwaits⟩
  · refine absurd ⟨hbasic, hless, fun color => ?_⟩ hdecided
    exact (accepts_testLifespan23ConsecutiveSamples_iff _).mpr (hruns color)
  · have hreturns := EventLoop.Returns.timeout hbegins
      ((SampleCheck.after_eventLoop _ py text windows).trans hwait) hstop
    have hverdict : testLifespan23ConsecutiveSamples.verdict wait.state = .ok := by
      refine (if_neg fun hfull => ?_).trans ?_
      · have hcount := hwaits.count
        rw [← hcount, ← hfull] at hless
        exact lt_irrefl _ hless
      · rw [hwaits.knows.produced, if_pos ((observed_iff hwaits.knows).mpr hended)]
    rwa [← hverdict]

/-- The stream never gets to 50 samples. -/
theorem SilentBehindRun.not_evidence (h : SilentBehindRun py text events) :
    ¬LifespanEvidence py text events := by
  rintro ⟨windows, hbegins, hle, -⟩
  obtain ⟨windows', hbegins', hstop, hless, -⟩ := h
  have hinitial := hbegins'.prefix_of_stop hbegins (by simp [hstop])
  exact absurd (hle.trans (counted_le_of_initial hinitial)) (not_le.mpr hless)

/-- **When passing is backed by evidence**: unless the subscriber falls silent behind a
run of two or three samples, before 50 are counted. -/
theorem ok_evidence_iff (hbasic : basicCheck py text = .ok) :
    ((testLifespan23ConsecutiveSamples.eventLoop py text).Returns events .ok →
      LifespanEvidence py text events) ↔ ¬SilentBehindRun py text events := by
  constructor
  · intro h hsilent
    exact hsilent.not_evidence (h (hsilent.ok hbasic))
  · intro hsilent hreturns
    have hfirst : ∀ size, testLifespan23ConsecutiveSamples.Accepts [size] := by
      intro size
      rw [accepts_testLifespan23ConsecutiveSamples_iff,
        endedRuns_of_isChain (List.isChain_singleton size)]
      exact List.forall_mem_nil _
    obtain ⟨windows, st, ⟨h, hcode⟩ | ⟨h, hcode⟩ | ⟨h, ⟨hstop, hcode⟩ | ⟨-, hcode⟩⟩⟩ :=
      SampleCheck.returns_cases (Nat.succ_pos 49) hbasic hfirst hreturns
    · -- 50 samples are counted, and the flag says that a run has ended
      have hobserved : st.lifespanExpirationObserved = true := by
        by_contra hnot
        have hverdict : testLifespan23ConsecutiveSamples.verdict st = .dataNotCorrect :=
          (if_pos (h.limit.symm.trans h.count.symm)).trans (if_neg hnot)
        rw [hverdict] at hcode
        cases hcode
      obtain ⟨color, hended⟩ := (observed_iff h.knows).mp hobserved
      exact ⟨windows, h.begins, h.limit.ge,
        ⟨color, fun hchain => hended (endedRuns_of_isChain hchain)⟩, fun color =>
          (accepts_testLifespan23ConsecutiveSamples_iff _).mp (h.knows.accepts color)⟩
    · have hverdict : testLifespan23ConsecutiveSamples.verdict
          { st with producedCode := .dataNotCorrect } = .dataNotCorrect := by
        refine if_neg fun hfull => ?_
        exact absurd h.limit (not_lt.mpr (le_of_eq (hfull.trans h.count)))
      rw [hverdict] at hcode
      cases hcode
    · have hproduced : testLifespan23ConsecutiveSamples.verdict st = st.producedCode :=
        if_neg fun hfull => absurd h.limit (not_lt.mpr (le_of_eq (hfull.trans h.count)))
      rw [hproduced, h.knows.produced] at hcode
      have hobserved : st.lifespanExpirationObserved = true := by
        by_contra hnot
        rw [if_neg hnot] at hcode
        cases hcode
      refine absurd ⟨windows, h.begins, hstop, h.limit, (observed_iff h.knows).mp hobserved,
        fun color => ?_⟩ hsilent
      exact (accepts_testLifespan23ConsecutiveSamples_iff _).mp (h.knows.accepts color)
    · cases hcode

end Lifespan

theorem ok_evidence_iff_redTwice :
    ((testLifespan23ConsecutiveSamples.eventLoop .ascii (sampleMatch "RED" 1).text).Returns
        redTwice .ok → LifespanEvidence .ascii (sampleMatch "RED" 1).text redTwice) ↔
      ¬SilentBehindRun .ascii (sampleMatch "RED" 1).text redTwice :=
  ok_evidence_iff basicCheck_sampleMatch_red

/-- Two samples, one behind a gap, and nothing more. -/
def threeSamples : Nat → Arrival (Window Char) :=
  EventLoop.streamOf (redMatches [2, 4]) .timeout

/-- Three samples are enough to pass. -/
theorem not_ok_evidence :
    ¬ ∀ (py : PyUnicode) (text : List Char) (events : Nat → Arrival (Window Char)),
      basicCheck py text = .ok →
        (testLifespan23ConsecutiveSamples.eventLoop py text).Returns events .ok →
          LifespanEvidence py text events := by
  intro hall
  have hsilent : SilentBehindRun .ascii (sampleMatch "RED" 1).text threeSamples := by
    have hbegins : Begins threeSamples (redMatches [2, 4]) := EventLoop.begins_streamOf _ _
    refine ⟨redMatches [2, 4], hbegins, rfl, ?_, ⟨"RED".toList, ?_⟩, ?_⟩
    · rw [counted_redMatches]
      decide
    · rw [readingsOf_redMatches, sizesOf_single]
      decide
    · intro color
      rw [readingsOf_redMatches]
      by_cases hcolor : color = "RED".toList
      · rw [hcolor, sizesOf_single]
        decide
      · rw [sizesOf_other hcolor]
        decide
  have hreturns := hsilent.ok basicCheck_sampleMatch_red
  exact hsilent.not_evidence (hall _ _ _ basicCheck_sampleMatch_red hreturns)

end DdsRtps.Harness
