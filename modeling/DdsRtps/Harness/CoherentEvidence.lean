/-
# `DdsRtps.Harness.CoherentEvidence` — what a passing verdict on coherent sets says

`_coherent_sets_w_instances` on a stream of events.  A read cycle that is judged
passes if all its `[digits]` matches, and those of each instance, make up whole
sets.  But the sum it is judged by begins with the matches of the cycles right
before it that had no sample: `coherent_set_sample_count` is set to 0 at the end
of a cycle with samples only.  So the verdict is backed by the cycle itself just
where these matches alone make up whole sets (`ok_evidence_iff`).
-/
import DdsRtps.Harness.CoherentSets
import DdsRtps.Harness.SampleChecks
import Mathlib.Data.List.DropRight

namespace DdsRtps.Harness

open Regex
open EventLoop (Begins)

/-! ## The code -/

/-- The loop waits in an `expect`, with the instance that was read before. -/
structure CoherentWaiting where
  state : CheckState
  current : Option Instance

/-- An `expect` has matched. -/
def CoherentWaiting.onMatch (py : PyUnicode) (expectedTotal : Nat) (w : Window Char)
    (wait : CoherentWaiting) : CoherentWaiting ⊕ ReturnCode :=
  match wait.state.expect wait.current w.index with
  | .error code => .inr code
  | .ok st =>
      if st.samplesReadPerInstance < 100 then
        match st.readText py expectedTotal w.text with
        | none => .inr .dataNotCorrect
        | some st => .inl ⟨st, topicAndColor py w.text⟩
      else .inr st.producedCode

/-- `_coherent_sets_w_instances`: `text` is what the last `expect` of
`run_subscriber_shape_main` has read. -/
def coherentSetsEvents (py : PyUnicode) (expectedTotal : Nat) (text : List Char) :
    EventLoop (Window Char) CoherentWaiting ReturnCode where
  start :=
    if basicCheck py text ≠ .ok then .inr (basicCheck py text)
    else
      match CheckState.initial.readText py expectedTotal text with
      | none => .inr .dataNotCorrect
      | some st => .inl ⟨st, topicAndColor py text⟩
  onInput w wait := wait.onMatch py expectedTotal w
  onTimeout wait := wait.state.producedCode
  onEof _ := .dataNotReceived

theorem drive_onMatch (py : PyUnicode) (expectedTotal : Nat) (ending : Ending)
    (windows : List (Window Char)) (wait : CoherentWaiting) :
    coherentSetsLoop py expectedTotal ending windows wait.current wait.state =
      (Loop.drive (CoherentWaiting.onMatch py expectedTotal) windows wait).elim
        (fun wait' => coherentSetsLoop py expectedTotal ending [] wait'.current wait'.state)
        id := by
  induction windows generalizing wait with
  | nil => rfl
  | cons w windows ih =>
      rw [coherentSetsLoop, Loop.drive, CoherentWaiting.onMatch]
      cases wait.state.expect wait.current w.index with
      | error code => rfl
      | ok st =>
          by_cases hless : st.samplesReadPerInstance < 100
          · simp only [hless, if_true]
            cases st.readText py expectedTotal w.text with
            | none => rfl
            | some st' => exact ih ⟨st', topicAndColor py w.text⟩
          · simp only [hless, if_false, Sum.elim_inr, id_eq]

/-- Where `basic_check` passes, the loop waits once the first text is read. -/
theorem coherentSetsEvents_start {py : PyUnicode} (expectedTotal : Nat) {text : List Char}
    (hbasic : basicCheck py text = .ok) :
    (coherentSetsEvents py expectedTotal text).start =
      match CheckState.initial.readText py expectedTotal text with
      | none => .inr .dataNotCorrect
      | some st => .inl ⟨st, topicAndColor py text⟩ :=
  if_neg (not_not.mpr hbasic)

/-- What the code returns on an output that ends, in terms of where the loop is
behind its last match. -/
theorem coherentSetsWInstances_eq (py : PyUnicode) (expectedTotal : Nat)
    (text output : List Char) (ending : Ending) :
    coherentSetsWInstances py expectedTotal text output ending =
      ((coherentSetsEvents py expectedTotal text).after
        (expectAll [sampleEnd, readingCoherentSets] [] 0 output)).elim
          (fun wait => coherentSetsLoop py expectedTotal ending [] wait.current wait.state) id := by
  rw [coherentSetsWInstances, EventLoop.after]
  by_cases hbasic : basicCheck py text = .ok
  · rw [coherentSetsEvents_start expectedTotal hbasic, if_neg (not_not.mpr hbasic)]
    cases CheckState.initial.readText py expectedTotal text with
    | none => rfl
    | some st => exact drive_onMatch py expectedTotal ending _ ⟨st, topicAndColor py text⟩
  · have hstart : (coherentSetsEvents py expectedTotal text).start = .inr (basicCheck py text) :=
      if_pos hbasic
    rw [hstart, if_pos hbasic]
    rfl

/-- On an output that ends, this is what the loop over its windows returns. -/
theorem coherentSetsEvents_returns (py : PyUnicode) (expectedTotal : Nat)
    (text output : List Char) (ending : Ending) :
    (coherentSetsEvents py expectedTotal text).Returns
      (EventLoop.streamOf (expectAll [sampleEnd, readingCoherentSets] [] 0 output) ending.arrival)
      (coherentSetsWInstances py expectedTotal text output ending) := by
  rw [coherentSetsWInstances_eq]
  cases ending with
  | timeout => exact EventLoop.returns_timeout (coherentSetsEvents py expectedTotal text) _
  | eof => exact EventLoop.returns_eof (coherentSetsEvents py expectedTotal text) _

/-! ## Read cycles -/

/-- What is read up to a line `Reading coherent sets`: the `[digits]` matches, the
samples, and those of them that follow a sample of their color. -/
structure Cycle where
  matched : Nat
  samples : List Instance
  followers : List Instance
deriving DecidableEq, Repr

/-- What was read so far: the color of the last sample, the cycle that it goes on with,
and those that are over. -/
structure Cycles where
  previous : Option (List Char)
  current : Cycle
  closed : List Cycle
deriving DecidableEq, Repr

/-- One more match. -/
def Cycles.countMatch (index : Nat) (c : Cycles) : Cycles :=
  if index = 0 then { c with current := { c.current with matched := c.current.matched + 1 } }
  else c

/-- One more text. -/
def Cycles.read (py : PyUnicode) (text : List Char) (c : Cycles) : Cycles :=
  match topicAndColor py text with
  | some i =>
      { c with
        previous := some i.2
        current :=
          { c.current with
            samples := c.current.samples ++ [i]
            followers :=
              if c.previous = some i.2 then c.current.followers ++ [i] else c.current.followers } }
  | none =>
      if (search (lit "Reading coherent sets".toList) text).isSome then
        { c with current := ⟨0, [], []⟩, closed := c.closed ++ [c.current] }
      else c

def cyclesOf (py : PyUnicode) (text : List Char) (windows : List (Window Char)) : Cycles :=
  windows.foldl (fun c w => (c.countMatch w.index).read py w.text)
    (Cycles.read py text ⟨none, ⟨0, [], []⟩, []⟩)

/-- A cycle that is judged: it has samples, and two cycles before it have some. -/
structure JudgedCycle (closed before : List Cycle) (c : Cycle) : Prop where
  initial : before ++ [c] <+: closed
  samples : c.samples ≠ []
  behind : 2 ≤ before.countP fun c => c.samples ≠ []

/-- For every instance that follows its own color, the samples are whole sets of three. -/
def Cycle.Triples (c : Cycle) : Prop := ∀ i ∈ c.followers, 3 ∣ 1 + c.followers.count i

/-- The matches of the cycles without samples at the end. -/
def pending (closed : List Cycle) : Nat :=
  ((closed.rtakeWhile fun c => c.samples = []).map Cycle.matched).sum

/-- **Evidence**: a cycle is judged, and those that are have whole sets. -/
def CoherentEvidence (expectedTotal : Nat) (closed : List Cycle) : Prop :=
  (∃ before c, JudgedCycle closed before c) ∧
    ∀ before c, JudgedCycle closed before c → expectedTotal ∣ c.matched ∧ c.Triples

/-- The same of the sums that the loop takes. -/
def Adds (expectedTotal : Nat) (closed : List Cycle) : Prop :=
  ∀ before c, JudgedCycle closed before c → expectedTotal ∣ pending before + c.matched ∧ c.Triples

theorem not_judgedCycle_nil (before : List Cycle) (c : Cycle) : ¬JudgedCycle [] before c := by
  intro h
  exact absurd (List.prefix_nil.mp h.initial) (by simp)

theorem JudgedCycle.of_initial {closed closed' before : List Cycle} {c : Cycle}
    (h : JudgedCycle closed before c) (hinitial : closed <+: closed') :
    JudgedCycle closed' before c :=
  ⟨h.initial.trans hinitial, h.samples, h.behind⟩

theorem judgedCycle_concat_iff {closed before : List Cycle} {c c' : Cycle} :
    JudgedCycle (closed ++ [c']) before c ↔ JudgedCycle closed before c ∨
      (before = closed ∧ c = c' ∧ c'.samples ≠ [] ∧ 2 ≤ closed.countP fun c => c.samples ≠ []) := by
  constructor
  · rintro ⟨hinitial, hsamples, hbehind⟩
    rcases List.prefix_concat_iff.mp hinitial with heq | hinitial
    · obtain ⟨rfl, hc⟩ := List.append_inj' heq rfl
      obtain rfl := List.singleton_inj.mp hc
      exact .inr ⟨rfl, rfl, hsamples, hbehind⟩
    · exact .inl ⟨hinitial, hsamples, hbehind⟩
  · rintro (h | ⟨rfl, rfl, hsamples, hbehind⟩)
    · exact h.of_initial (List.prefix_append _ _)
    · exact ⟨List.prefix_rfl, hsamples, hbehind⟩

theorem pending_concat (closed : List Cycle) (c : Cycle) :
    pending (closed ++ [c]) = if c.samples = [] then pending closed + c.matched else 0 := by
  rw [pending, List.rtakeWhile_concat, pending]
  by_cases hsamples : c.samples = []
  · simp [hsamples]
  · simp [hsamples]

theorem countP_samples_concat (closed : List Cycle) (c : Cycle) :
    ((closed ++ [c]).countP fun c => c.samples ≠ []) =
      (closed.countP fun c => c.samples ≠ []) + if c.samples = [] then 0 else 1 := by
  rw [List.countP_append, List.countP_singleton]
  by_cases hsamples : c.samples = []
  · simp [hsamples]
  · simp [hsamples]

theorem cyclesOf_append (py : PyUnicode) (text : List Char) (windows : List (Window Char))
    (w : Window Char) :
    cyclesOf py text (windows ++ [w]) =
      ((cyclesOf py text windows).countMatch w.index).read py w.text := by
  rw [cyclesOf, List.foldl_append]
  rfl

theorem closed_initial_append (py : PyUnicode) (text : List Char) (windows : List (Window Char))
    (w : Window Char) :
    (cyclesOf py text windows).closed <+: (cyclesOf py text (windows ++ [w])).closed := by
  have hcount : ((cyclesOf py text windows).countMatch w.index).closed =
      (cyclesOf py text windows).closed := by
    rw [Cycles.countMatch]
    split <;> rfl
  rw [cyclesOf_append, ← hcount, Cycles.read]
  cases topicAndColor py w.text with
  | some i => exact List.prefix_rfl
  | none =>
      by_cases hreading : (search (lit "Reading coherent sets".toList) w.text).isSome
      · simp only [hreading, if_true]
        exact List.prefix_append _ _
      · simp only [hreading]
        exact List.prefix_rfl

/-- What the dicts hold for an instance in such a cycle. -/
def Cycle.held (c : Cycle) (i : Instance) : Option Nat :=
  if i ∈ c.followers then some (1 + c.followers.count i) else none

theorem triples_iff (c : Cycle) :
    c.Triples ↔ ¬∃ i n, c.held i = some n ∧ n % 3 ≠ 0 := by
  constructor
  · rintro h ⟨i, n, hheld, hn⟩
    rw [Cycle.held] at hheld
    by_cases hi : i ∈ c.followers
    · rw [if_pos hi] at hheld
      obtain rfl := Option.some.inj hheld
      exact hn (Nat.mod_eq_zero_of_dvd (h i hi))
    · rw [if_neg hi] at hheld
      cases hheld
  · intro h i hi
    by_contra hn
    exact h ⟨i, _, if_pos hi, fun hzero => hn (Nat.dvd_of_mod_eq_zero hzero)⟩

theorem held_follow (c : Cycle) (samples : List Instance) (i : Instance) :
    Cycle.held ⟨c.matched, samples, c.followers ++ [i]⟩ =
      Function.update c.held i (some ((c.held i).getD 1 + 1)) := by
  funext j
  by_cases hj : j = i
  · subst hj
    rw [Function.update_self, Cycle.held, Cycle.held, if_pos (by simp), List.count_append,
      List.count_singleton_self]
    by_cases hmem : j ∈ c.followers
    · rw [if_pos hmem, Option.getD_some, Nat.add_assoc]
    · rw [if_neg hmem, Option.getD_none, List.count_eq_zero_of_not_mem hmem]
  · have hmem : j ∈ c.followers ++ [i] ↔ j ∈ c.followers := by simp [hj]
    have hcount : (c.followers ++ [i]).count j = c.followers.count j := by
      rw [List.count_append, List.count_singleton, if_neg (by simpa using Ne.symm hj), Nat.add_zero]
    rw [Function.update_of_ne hj, Cycle.held, Cycle.held, hcount]
    simp only [hmem]

/-! ## One text -/

/-- What the variables say of what was read. -/
structure CheckState.Knows (expectedTotal : Nat) (c : Cycles) (st : CheckState) : Prop where
  previous : st.previousSampleColor = c.previous
  held : st.held = c.current.held
  anySample : st.newCoherentSetRead = true ↔ c.current.samples ≠ []
  followers : c.current.samples = [] → c.current.followers = []
  ignored : st.ignoreFirstsCoherentSet = 2 - c.closed.countP fun c => c.samples ≠ []
  total : st.coherentSetSampleCount = pending c.closed + c.current.matched
  produced : st.producedCode = .ok ↔ ∃ before c', JudgedCycle c.closed before c'
  adds : Adds expectedTotal c.closed

namespace CheckState

variable {py : PyUnicode} {expectedTotal : Nat} {c : Cycles} {st : CheckState}

theorem knows_initial (expectedTotal : Nat) :
    initial.Knows expectedTotal ⟨none, ⟨0, [], []⟩, []⟩ where
  previous := rfl
  held := by
    funext i
    rfl
  anySample := by simp [initial]
  followers _ := rfl
  ignored := rfl
  total := rfl
  produced := by
    refine iff_of_false (by simp [initial]) ?_
    rintro ⟨before, c', h⟩
    exact not_judgedCycle_nil before c' h
  adds before c' h := absurd h (not_judgedCycle_nil before c')

/-- A sample does not change what was judged. -/
theorem Knows.readSample (h : st.Knows expectedTotal c) {text : List Char} {i : Instance}
    (hread : topicAndColor py text = some i) :
    (st.readSample i).Knows expectedTotal (c.read py text) := by
  rw [Cycles.read, hread]
  refine ⟨rfl, ?_, ?_, ?_, h.ignored, h.total, h.produced, h.adds⟩
  · rw [held_readSample, h.previous, h.held]
    by_cases hprevious : c.previous = some i.2
    · simp only [hprevious, if_true]
      exact (held_follow c.current _ i).symm
    · simp only [hprevious, if_false]
      rfl
  · simp [CheckState.readSample]
  · intro hnone
    simp at hnone

/-- A cycle without samples ends, and its matches stay. -/
theorem Knows.closeSilent (h : st.Knows expectedTotal c) (hsamples : c.current.samples = []) :
    Knows expectedTotal { c with current := ⟨0, [], []⟩, closed := c.closed ++ [c.current] }
      { st with newCoherentSetRead := false } := by
  have hjudged : ∀ before c', JudgedCycle (c.closed ++ [c.current]) before c' ↔
      JudgedCycle c.closed before c' := by
    intro before c'
    rw [judgedCycle_concat_iff]
    exact ⟨fun h => h.resolve_right fun hnew => hnew.2.2.1 hsamples, .inl⟩
  have hheld : c.current.held = Cycle.held ⟨0, [], []⟩ := by
    funext i
    rw [Cycle.held, h.followers hsamples]
    rfl
  refine ⟨h.previous, h.held.trans hheld, by simp, fun _ => rfl, ?_, ?_, ?_, ?_⟩
  · simp only [countP_samples_concat, if_pos hsamples]
    exact h.ignored
  · simp only [pending_concat, if_pos hsamples]
    exact h.total
  · simp only [hjudged]
    exact h.produced
  · intro before c' hnew
    exact h.adds before c' ((hjudged before c').mp hnew)

/-- A cycle with samples ends, and everything begins again. -/
theorem Knows.closeRead (h : st.Knows expectedTotal c) (hsamples : c.current.samples ≠ [])
    {code : ReturnCode}
    (hcode : code = .ok ↔ ∃ before c', JudgedCycle (c.closed ++ [c.current]) before c')
    (hadds : Adds expectedTotal (c.closed ++ [c.current])) :
    Knows expectedTotal { c with current := ⟨0, [], []⟩, closed := c.closed ++ [c.current] }
      { st.resetCounts with
        ignoreFirstsCoherentSet := st.ignoreFirstsCoherentSet - 1
        producedCode := code
        coherentSetSampleCount := 0
        newCoherentSetRead := false } where
  previous := h.previous
  held := funext fun i => st.held_resetCounts i
  anySample := by simp
  followers _ := rfl
  ignored := by
    simp only [countP_samples_concat, if_neg hsamples]
    rw [h.ignored]
    omega
  total := by
    simp only [pending_concat, if_neg hsamples]
  produced := hcode
  adds := hadds

/-- One of the first two cycles with samples ends. -/
theorem Knows.readIgnored (h : st.Knows expectedTotal c) (hsamples : c.current.samples ≠ [])
    (hignored : st.ignoreFirstsCoherentSet ≠ 0) :
    ∃ st', st.readCoherentSets expectedTotal = some st' ∧ st'.Knows expectedTotal
      { c with current := ⟨0, [], []⟩, closed := c.closed ++ [c.current] } := by
  have hfew : ¬2 ≤ c.closed.countP fun c => c.samples ≠ [] := by
    have heq := h.ignored
    omega
  have hjudged : ∀ before c', JudgedCycle (c.closed ++ [c.current]) before c' ↔
      JudgedCycle c.closed before c' := by
    intro before c'
    rw [judgedCycle_concat_iff]
    exact ⟨fun h => h.resolve_right fun hnew => hfew hnew.2.2.2, .inl⟩
  rw [CheckState.readCoherentSets, if_pos ⟨hignored, h.anySample.mpr hsamples⟩]
  refine ⟨_, rfl, h.closeRead hsamples ?_ ?_⟩
  · simp only [hjudged]
    exact h.produced
  · intro before c' hnew
    exact h.adds before c' ((hjudged before c').mp hnew)

/-- A cycle with samples behind those ends, and is judged. -/
theorem Knows.readJudged (h : st.Knows expectedTotal c) (hsamples : c.current.samples ≠ [])
    (hignored : st.ignoreFirstsCoherentSet = 0) :
    (¬Adds expectedTotal (c.closed ++ [c.current]) ∧ st.readCoherentSets expectedTotal = none) ∨
      ∃ st', st.readCoherentSets expectedTotal = some st' ∧ st'.Knows expectedTotal
        { c with current := ⟨0, [], []⟩, closed := c.closed ++ [c.current] } := by
  have hbehind : 2 ≤ c.closed.countP fun c => c.samples ≠ [] := by
    have heq := h.ignored
    omega
  have hlast : JudgedCycle (c.closed ++ [c.current]) c.closed c.current :=
    ⟨List.prefix_rfl, hsamples, hbehind⟩
  have hsum : st.coherentSetSampleCount % expectedTotal ≠ 0 ↔
      ¬expectedTotal ∣ pending c.closed + c.current.matched := by
    rw [h.total, Nat.dvd_iff_mod_eq_zero]
  have htriples : st.hasIncompleteSet = true ↔ ¬c.current.Triples := by
    rw [hasIncompleteSet_iff, h.held, triples_iff, not_not]
  rw [CheckState.readCoherentSets, if_neg fun hboth => hboth.1 hignored,
    if_pos (h.anySample.mpr hsamples)]
  by_cases hdvd : expectedTotal ∣ pending c.closed + c.current.matched
  · rw [if_neg fun hne => hsum.mp hne hdvd]
    by_cases hwhole : c.current.Triples
    · rw [if_neg fun hincomplete => htriples.mp hincomplete hwhole]
      refine .inr ⟨_, rfl, ?_⟩
      have hclose := h.closeRead hsamples
        (iff_of_true (Eq.refl ReturnCode.ok) ⟨_, _, hlast⟩) ?_
      · have hzero : st.ignoreFirstsCoherentSet - 1 = st.resetCounts.ignoreFirstsCoherentSet :=
          (congrArg (· - 1) hignored).trans hignored.symm
        rw [hzero] at hclose
        exact hclose
      · intro before c' hjudged
        rcases judgedCycle_concat_iff.mp hjudged with hold | ⟨rfl, rfl, -, -⟩
        · exact h.adds before c' hold
        · exact ⟨hdvd, hwhole⟩
    · rw [if_pos (htriples.mpr hwhole)]
      exact .inl ⟨fun hadds => hwhole (hadds _ _ hlast).2, rfl⟩
  · rw [if_pos (hsum.mpr hdvd)]
    exact .inl ⟨fun hadds => hdvd (hadds _ _ hlast).1, rfl⟩

/-- A line `Reading coherent sets`: a sum is wrong, or the variables say what was
read. -/
theorem Knows.readCoherentSets (h : st.Knows expectedTotal c) {text : List Char}
    (hread : topicAndColor py text = none)
    (hreading : (search (lit "Reading coherent sets".toList) text).isSome = true) :
    (¬Adds expectedTotal (c.read py text).closed ∧ st.readCoherentSets expectedTotal = none) ∨
      ∃ st', st.readCoherentSets expectedTotal = some st' ∧
        st'.Knows expectedTotal (c.read py text) := by
  have hnext : c.read py text =
      { c with current := ⟨0, [], []⟩, closed := c.closed ++ [c.current] } := by
    rw [Cycles.read, hread]
    exact if_pos hreading
  rw [hnext]
  by_cases hsamples : c.current.samples = []
  · have hfalse : ¬st.newCoherentSetRead = true := fun htrue => h.anySample.mp htrue hsamples
    rw [CheckState.readCoherentSets, if_neg fun hboth => hfalse hboth.2, if_neg hfalse]
    exact .inr ⟨_, rfl, h.closeSilent hsamples⟩
  · by_cases hignored : st.ignoreFirstsCoherentSet = 0
    · exact h.readJudged hsamples hignored
    · exact .inr (h.readIgnored hsamples hignored)

/-- A text: a sum is wrong, or the variables say what was read. -/
theorem Knows.readText (h : st.Knows expectedTotal c) (py : PyUnicode) (text : List Char) :
    (¬Adds expectedTotal (c.read py text).closed ∧ st.readText py expectedTotal text = none) ∨
      ∃ st', st.readText py expectedTotal text = some st' ∧
        st'.Knows expectedTotal (c.read py text) := by
  rw [CheckState.readText]
  cases hread : topicAndColor py text with
  | some i => exact .inr ⟨_, rfl, h.readSample hread⟩
  | none =>
      by_cases hreading : (search (lit "Reading coherent sets".toList) text).isSome = true
      · simp only [hreading, if_true]
        exact h.readCoherentSets hread hreading
      · have hnext : c.read py text = c := by
          rw [Cycles.read, hread]
          exact if_neg hreading
        rw [hnext]
        simp only [hreading]
        exact .inr ⟨st, rfl, h⟩

end CheckState

namespace CheckState

/-- What a text leaves as it is. -/
theorem readCoherentSets_frame {expectedTotal : Nat} {st st' : CheckState} {i : Instance}
    (h : st.readCoherentSets expectedTotal = some st') (hfirst : st.IsFirst i) :
    st'.samplesReadPerInstance = st.samplesReadPerInstance ∧
      st'.coherentSetsCount = st.coherentSetsCount ∧ st'.IsFirst i := by
  rw [CheckState.readCoherentSets] at h
  split at h
  · obtain rfl := Option.some.inj h
    exact ⟨rfl, rfl, hfirst.resetCounts⟩
  · split at h
    · split at h
      · cases h
      · split at h
        · cases h
        · obtain rfl := Option.some.inj h
          exact ⟨rfl, rfl, hfirst.resetCounts⟩
    · obtain rfl := Option.some.inj h
      exact ⟨rfl, rfl, hfirst⟩

theorem readText_frame {py : PyUnicode} {expectedTotal : Nat} {text : List Char}
    {st st' : CheckState} {i : Instance} (h : st.readText py expectedTotal text = some st')
    (hfirst : st.IsFirst i) :
    st'.samplesReadPerInstance = st.samplesReadPerInstance ∧
      st'.coherentSetsCount = st.coherentSetsCount ∧ st'.IsFirst i := by
  rw [CheckState.readText] at h
  cases hread : topicAndColor py text with
  | some j =>
      rw [hread] at h
      obtain rfl := Option.some.inj h
      exact ⟨rfl, rfl, hfirst.readSample j⟩
  | none =>
      rw [hread] at h
      by_cases hreading : (search (lit "Reading coherent sets".toList) text).isSome = true
      · simp only [hreading, if_true] at h
        exact readCoherentSets_frame h hfirst
      · simp only [hreading] at h
        obtain rfl := Option.some.inj h
        exact ⟨rfl, rfl, hfirst⟩

end CheckState

/-! ## A run -/

section Run

variable {py : PyUnicode} {expectedTotal : Nat} {text : List Char}
  {events : Nat → Arrival (Window Char)}

/-- Where `basic_check` passes, there is a first instance. -/
theorem exists_topicAndColor (hbasic : basicCheck py text = .ok) :
    ∃ i, topicAndColor py text = some i := by
  obtain ⟨m, w, ws, d, f, hm, hw, hcs⟩ := exists_search_of_basicCheck hbasic
    (.group 1 (plus py.word)) (plus py.space) (some 2) none
    (fun c hc => ⟨[(1, [c])], parse_group_iff.mpr ⟨[], parse_plus_iff.mpr
      ⟨List.cons_ne_nil c [], by simpa using hc, rfl⟩, rfl⟩⟩)
    (parse_plus_iff.mpr ⟨List.cons_ne_nil ' ' [], by simpa using py.space_blank, rfl⟩)
    fun s cs hs => SampleAt.parse_plus_space py hs
  obtain ⟨cs', hplus, rfl⟩ := parse_group_iff.mp hw
  obtain ⟨-, -, rfl⟩ := parse_plus_iff.mp hplus
  refine ⟨(w, f.color), ?_⟩
  rw [topicAndColor, topicSample, hm, Option.bind_some, Found.group, Found.group, hcs]
  rfl

/-- Fewer than 100 samples of the first instance are counted, no more than 500 lines
were matched, and the sums of the judged cycles are right. -/
structure CoherentGoing (py : PyUnicode) (expectedTotal : Nat) (text : List Char)
    (windows : List (Window Char)) : Prop where
  count : countedAs (topicAndColor py) text windows < 100
  lines : groupLines windows ≤ 500
  adds : Adds expectedTotal (cyclesOf py text windows).closed

/-- The loop waits, and its variables say what was read. -/
structure CoherentWaiting.Tracks (py : PyUnicode) (expectedTotal : Nat) (text : List Char)
    (windows : List (Window Char)) (wait : CoherentWaiting) : Prop where
  knows : wait.state.Knows expectedTotal (cyclesOf py text windows)
  count : wait.state.samplesReadPerInstance = countedAs (topicAndColor py) text windows
  lines : wait.state.coherentSetsCount = groupLines windows
  first : ∃ i, topicAndColor py text = some i ∧ wait.state.IsFirst i
  current : wait.current = topicAndColor py (lastText text windows)

/-- A match is counted, and nothing else is changed. -/
theorem CoherentWaiting.Tracks.expect_cases {windows : List (Window Char)} {wait : CoherentWaiting}
    (h : wait.Tracks py expectedTotal text windows)
    (hgoing : CoherentGoing py expectedTotal text windows) (w : Window Char) :
    (500 < groupLines (windows ++ [w]) ∧
        wait.state.expect wait.current w.index = .error .dataNotReceived) ∨
      (groupLines (windows ++ [w]) ≤ 500 ∧
        ∃ st, wait.state.expect wait.current w.index = .ok st ∧
          st.Knows expectedTotal ((cyclesOf py text windows).countMatch w.index) ∧
          st.samplesReadPerInstance = countedAs (topicAndColor py) text (windows ++ [w]) ∧
          st.coherentSetsCount = groupLines (windows ++ [w]) ∧
          st.producedCode = wait.state.producedCode ∧
          ∃ i, topicAndColor py text = some i ∧ st.IsFirst i) := by
  obtain ⟨first, hfirst, hisFirst⟩ := h.first
  have hknows := h.knows
  rw [countedAs_append, groupLines_append, ← h.count, ← h.lines, ← h.current, Cycles.countMatch,
    CheckState.expect]
  by_cases hindex : w.index = 0
  · have hcounted : (if wait.state.isFirstInstance wait.current = true then
          wait.state.samplesReadPerInstance + 1 else wait.state.samplesReadPerInstance) =
        wait.state.samplesReadPerInstance +
          if wait.current ≠ none ∧ wait.current = topicAndColor py text then 1 else 0 := by
      rw [hfirst]
      by_cases hsame : wait.current = some first
      · rw [if_pos ((CheckState.isFirstInstance_iff hisFirst _).mpr hsame),
          if_pos ⟨by simp [hsame], hsame⟩]
      · rw [if_neg fun htrue => hsame ((CheckState.isFirstInstance_iff hisFirst _).mp htrue),
          if_neg fun hboth => hsame hboth.2]
        rfl
    simp only [hindex, if_true, true_and, ne_eq, not_true_eq_false, if_false, Nat.add_zero]
    have hle : wait.state.coherentSetsCount ≤ 500 := h.lines ▸ hgoing.lines
    rw [if_neg (not_lt.mpr hle)]
    exact .inr ⟨hle, _, rfl,
      ⟨hknows.previous, hknows.held, hknows.anySample, hknows.followers, hknows.ignored,
        congrArg (· + 1) hknows.total, hknows.produced, hknows.adds⟩,
      hcounted, rfl, rfl, first, hfirst, hisFirst⟩
  · have hfew : wait.state.samplesReadPerInstance < 100 := h.count ▸ hgoing.count
    simp only [hindex, if_false, false_and, ne_eq, not_false_eq_true, if_true, Nat.add_zero]
    by_cases hmany : 500 < wait.state.coherentSetsCount + 1
    · rw [if_pos hmany, if_pos (hfew.trans (by omega))]
      exact .inl ⟨hmany, rfl⟩
    · rw [if_neg hmany]
      exact .inr ⟨not_lt.mp hmany, _, rfl,
        ⟨hknows.previous, hknows.held, hknows.anySample, hknows.followers, hknows.ignored,
          hknows.total, hknows.produced, hknows.adds⟩,
        rfl, rfl, rfl, first, hfirst, hisFirst⟩

/-- A match makes the loop wait again, or it returns: too many lines, enough samples or
a sum that is wrong. -/
theorem CoherentWaiting.Tracks.onMatch_cases {windows : List (Window Char)}
    {wait : CoherentWaiting} (h : wait.Tracks py expectedTotal text windows)
    (hgoing : CoherentGoing py expectedTotal text windows) (w : Window Char) :
    (500 < groupLines (windows ++ [w]) ∧
        wait.onMatch py expectedTotal w = .inr .dataNotReceived) ∨
      (groupLines (windows ++ [w]) ≤ 500 ∧
        100 ≤ countedAs (topicAndColor py) text (windows ++ [w]) ∧
        wait.onMatch py expectedTotal w = .inr wait.state.producedCode) ∨
      (countedAs (topicAndColor py) text (windows ++ [w]) < 100 ∧
        ¬Adds expectedTotal (cyclesOf py text (windows ++ [w])).closed ∧
        wait.onMatch py expectedTotal w = .inr .dataNotCorrect) ∨
      CoherentGoing py expectedTotal text (windows ++ [w]) ∧
        ∃ wait', wait.onMatch py expectedTotal w = .inl wait' ∧
          wait'.Tracks py expectedTotal text (windows ++ [w]) := by
  rw [CoherentWaiting.onMatch, cyclesOf_append]
  rcases h.expect_cases hgoing w with ⟨hmany, herror⟩ |
    ⟨hle, st, hok, hknows, hcount, hlines, hproduced, i, hfirst, hisFirst⟩
  · rw [herror]
    exact .inl ⟨hmany, rfl⟩
  · rw [hok]
    simp only
    by_cases hless : st.samplesReadPerInstance < 100
    · rw [if_pos hless]
      rcases hknows.readText py w.text with ⟨hwrong, hnone⟩ | ⟨st', hsome, hknows'⟩
      · rw [hnone]
        exact .inr (.inr (.inl ⟨hcount ▸ hless, hwrong, rfl⟩))
      · obtain ⟨hcount', hlines', hisFirst'⟩ := CheckState.readText_frame hsome hisFirst
        rw [hsome]
        rw [← cyclesOf_append] at hknows'
        refine .inr (.inr (.inr ⟨⟨hcount ▸ hless, hle, hknows'.adds⟩, _, rfl, hknows', ?_, ?_,
          ⟨i, hfirst, hisFirst'⟩, ?_⟩))
        · rw [hcount', hcount]
        · rw [hlines', hlines]
        · rw [lastText, List.map_append, List.map_singleton, List.getLastD_concat]
    · rw [if_neg hless, hproduced]
      exact .inr (.inl ⟨hle, hcount ▸ not_lt.mp hless, rfl⟩)

theorem Adds.of_initial {closed closed' : List Cycle} (h : Adds expectedTotal closed')
    (hinitial : closed <+: closed') : Adds expectedTotal closed := by
  intro before c hjudged
  exact h before c (hjudged.of_initial hinitial)

theorem CoherentGoing.of_append {windows : List (Window Char)} {w : Window Char}
    (h : CoherentGoing py expectedTotal text (windows ++ [w])) :
    CoherentGoing py expectedTotal text windows := by
  obtain ⟨hcount, hlines, hadds⟩ := h
  rw [countedAs_append] at hcount
  rw [groupLines_append] at hlines
  exact ⟨by omega, by omega, hadds.of_initial (closed_initial_append py text windows w)⟩

/-- The loop begins to wait. -/
theorem exists_start (expectedTotal : Nat) (hbasic : basicCheck py text = .ok) :
    CoherentGoing py expectedTotal text [] ∧
      ∃ wait, (coherentSetsEvents py expectedTotal text).start = .inl wait ∧
        wait.Tracks py expectedTotal text [] := by
  obtain ⟨i, hi⟩ := exists_topicAndColor hbasic
  have hstart : (coherentSetsEvents py expectedTotal text).start =
      .inl ⟨CheckState.initial.readSample i, topicAndColor py text⟩ := by
    rw [coherentSetsEvents_start expectedTotal hbasic, CheckState.readText, hi]
  have hknows := (CheckState.knows_initial expectedTotal).readSample hi
  exact ⟨⟨Nat.succ_pos 99, Nat.zero_le 500, hknows.adds⟩, _, hstart, hknows, rfl, rfl,
    ⟨i, hi, CheckState.isFirst_readSample_initial i⟩, rfl⟩

/-- Where the loop waits, nothing is decided. -/
theorem tracks_of_waits (hbasic : basicCheck py text = .ok) {windows : List (Window Char)}
    {wait : CoherentWaiting}
    (h : (coherentSetsEvents py expectedTotal text).after windows = .inl wait) :
    CoherentGoing py expectedTotal text windows ∧ wait.Tracks py expectedTotal text windows := by
  refine EventLoop.inv_of_waits (fun windows wait =>
    CoherentGoing py expectedTotal text windows ∧ wait.Tracks py expectedTotal text windows)
    ?_ ?_ h
  · intro wait hstart
    obtain ⟨hgoing, wait', hstart', htracks⟩ := exists_start expectedTotal hbasic
    obtain rfl := Sum.inl.inj (hstart'.symm.trans hstart)
    exact ⟨hgoing, htracks⟩
  · rintro windows w wait wait' ⟨hgoing, htracks⟩ hturn
    have hmatch : wait.onMatch py expectedTotal w = .inl wait' := hturn
    rcases htracks.onMatch_cases hgoing w with ⟨-, heq⟩ | ⟨-, -, heq⟩ | ⟨-, -, heq⟩ |
      ⟨hgoing', wait'', heq, htracks'⟩
    · rw [heq] at hmatch
      cases hmatch
    · rw [heq] at hmatch
      cases hmatch
    · rw [heq] at hmatch
      cases hmatch
    · obtain rfl := Sum.inl.inj (heq.symm.trans hmatch)
      exact ⟨hgoing', htracks'⟩

/-- As long as nothing is decided, the loop waits. -/
theorem CoherentGoing.waits (hbasic : basicCheck py text = .ok) {windows : List (Window Char)}
    (h : CoherentGoing py expectedTotal text windows) :
    ∃ wait, (coherentSetsEvents py expectedTotal text).after windows = .inl wait ∧
      wait.Tracks py expectedTotal text windows := by
  induction windows using List.reverseRecOn with
  | nil =>
      obtain ⟨-, wait, hstart, htracks⟩ := exists_start expectedTotal hbasic
      exact ⟨wait, (EventLoop.after_nil _).trans hstart, htracks⟩
  | append_singleton windows w ih =>
      obtain ⟨wait, hwait, htracks⟩ := ih h.of_append
      rw [EventLoop.after_concat, hwait]
      rcases htracks.onMatch_cases h.of_append w with ⟨hmany, -⟩ | ⟨-, hfull, -⟩ | ⟨-, hwrong, -⟩ |
        ⟨-, wait', hmatch, htracks'⟩
      · exact absurd h.lines (not_le.mpr hmany)
      · exact absurd h.count (not_lt.mpr hfull)
      · exact absurd h.adds hwrong
      · exact ⟨wait', hmatch, htracks'⟩

/-! ## The verdict -/

/-- What the loop has read when it ends with a verdict: the stream times out, or the
100th sample of the first instance is counted. -/
structure CoherentEnds (py : PyUnicode) (text : List Char) (events : Nat → Arrival (Window Char))
    (windows : List (Window Char)) : Prop where
  basic : basicCheck py text = .ok
  begins : Begins events windows
  count : countedAs (topicAndColor py) text windows < 100
  lines : groupLines windows ≤ 500
  stops : events windows.length = .timeout ∨ ∃ w, events windows.length = .input w ∧
    100 ≤ countedAs (topicAndColor py) text (windows ++ [w])

/-- A stream is read up to one place. -/
theorem CoherentEnds.not_longer {windows windows' : List (Window Char)}
    (h : CoherentEnds py text events windows) (h' : CoherentEnds py text events windows') :
    ¬windows.length < windows'.length := by
  intro hlt
  have hnext : events windows.length = .input windows'[windows.length] :=
    h'.begins windows.length hlt
  rcases h.stops with htimeout | ⟨w, hw, hfull⟩
  · rw [htimeout] at hnext
    cases hnext
  · have hmore : Begins events (windows ++ [w]) := EventLoop.begins_concat_iff.mpr ⟨h.begins, hw⟩
    have hinitial : windows ++ [w] <+: windows' := by
      refine hmore.prefix_of_le h'.begins ?_
      rw [List.length_append, List.length_singleton]
      exact hlt
    have hcount := countedAs_le_of_initial (topicAndColor py) text hinitial
    exact absurd (hfull.trans hcount) (not_le.mpr h'.count)

theorem CoherentEnds.unique {windows windows' : List (Window Char)}
    (h : CoherentEnds py text events windows) (h' : CoherentEnds py text events windows') :
    windows = windows' := by
  have hle := not_lt.mp (h.not_longer h')
  have hle' := not_lt.mp (h'.not_longer h)
  exact (h.begins.prefix_of_le h'.begins hle').eq_of_length (hle'.antisymm hle)

/-- A loop that passes has begun: `basic_check` passed. -/
theorem basicCheck_of_ok (h : (coherentSetsEvents py expectedTotal text).Returns events .ok) :
    basicCheck py text = .ok := by
  by_contra hne
  have hstart : (coherentSetsEvents py expectedTotal text).start = .inr (basicCheck py text) :=
    if_pos hne
  have hafter : (coherentSetsEvents py expectedTotal text).after [] = .inr (basicCheck py text) :=
    (EventLoop.after_nil _).trans hstart
  exact hne (EventLoop.Returns.unique (.of_after (EventLoop.begins_nil events) hafter) h)

/-- The last of some inputs makes the loop pass: the 100th sample of the first
instance. -/
theorem CoherentEnds.of_leavesAt (hbasic : basicCheck py text = .ok)
    {inputs : List (Window Char)} (hbegins : Begins events inputs)
    (h : (coherentSetsEvents py expectedTotal text).LeavesAt inputs .ok) :
    ∃ windows, CoherentEnds py text events windows ∧
      (∃ before c, JudgedCycle (cyclesOf py text windows).closed before c) ∧
      Adds expectedTotal (cyclesOf py text windows).closed := by
  rcases h with ⟨-, hstart⟩ | ⟨windows, w, wait, rfl, hwait, hturn⟩
  · obtain ⟨-, wait, hstart', -⟩ := exists_start expectedTotal hbasic
    rw [hstart'] at hstart
    cases hstart
  · obtain ⟨hgoing, htracks⟩ := tracks_of_waits hbasic hwait
    obtain ⟨hbegins, hw⟩ := EventLoop.begins_concat_iff.mp hbegins
    have hmatch : wait.onMatch py expectedTotal w = .inr .ok := hturn
    rcases htracks.onMatch_cases hgoing w with ⟨-, heq⟩ | ⟨-, hfull, heq⟩ | ⟨-, -, heq⟩ |
      ⟨-, wait', heq, -⟩
    · rw [heq] at hmatch
      cases hmatch
    · have hok := Sum.inr.inj (heq.symm.trans hmatch)
      exact ⟨windows, ⟨hbasic, hbegins, hgoing.count, hgoing.lines, .inr ⟨w, hw, hfull⟩⟩,
        htracks.knows.produced.mp hok, hgoing.adds⟩
    · rw [heq] at hmatch
      cases hmatch
    · rw [heq] at hmatch
      cases hmatch

/-- With a cycle that is judged, and no sum that is wrong, the loop passes. -/
theorem CoherentEnds.ok {windows : List (Window Char)} (h : CoherentEnds py text events windows)
    (hjudged : ∃ before c, JudgedCycle (cyclesOf py text windows).closed before c)
    (hadds : Adds expectedTotal (cyclesOf py text windows).closed) :
    (coherentSetsEvents py expectedTotal text).Returns events .ok := by
  have hgoing : CoherentGoing py expectedTotal text windows := ⟨h.count, h.lines, hadds⟩
  obtain ⟨wait, hwait, htracks⟩ := hgoing.waits h.basic
  have hok : wait.state.producedCode = .ok := htracks.knows.produced.mpr hjudged
  rcases h.stops with htimeout | ⟨w, hw, hfull⟩
  · rw [← hok]
    exact .timeout h.begins hwait htimeout
  · refine .of_after (EventLoop.begins_concat_iff.mpr ⟨h.begins, hw⟩) ?_
    rw [EventLoop.after_concat, hwait, ← hok]
    have hindex : w.index = 0 := by
      by_contra hne
      rw [countedAs_append, if_neg fun hcounted => hne hcounted.1] at hfull
      exact absurd hfull (not_le.mpr h.count)
    have hlines : groupLines (windows ++ [w]) ≤ 500 := by
      rw [groupLines_append, if_neg (not_not.mpr hindex)]
      exact h.lines
    rcases htracks.onMatch_cases hgoing w with ⟨hmany, -⟩ | ⟨-, -, heq⟩ | ⟨hless, -⟩ | ⟨hmore, -⟩
    · exact absurd hlines (not_le.mpr hmany)
    · exact heq
    · exact absurd hfull (not_le.mpr hless)
    · exact absurd hfull (not_le.mpr hmore.count)

/-- **What passing says**: a cycle is judged, and the sums of those that are are right. -/
theorem coherentSets_ok_iff :
    (coherentSetsEvents py expectedTotal text).Returns events .ok ↔
      ∃ windows, CoherentEnds py text events windows ∧
        (∃ before c, JudgedCycle (cyclesOf py text windows).closed before c) ∧
        Adds expectedTotal (cyclesOf py text windows).closed := by
  constructor
  · intro h
    have hbasic := basicCheck_of_ok h
    generalize hcode : ReturnCode.ok = code at h
    cases h with
    | left hbegins hleaves =>
        subst hcode
        exact CoherentEnds.of_leavesAt hbasic hbegins hleaves
    | @timeout windows wait hbegins hwait hstop =>
        obtain ⟨hgoing, htracks⟩ := tracks_of_waits hbasic hwait
        exact ⟨windows, ⟨hbasic, hbegins, hgoing.count, hgoing.lines, .inl hstop⟩,
          htracks.knows.produced.mp hcode.symm, hgoing.adds⟩
    | eof hbegins hwait hstop => cases hcode
  · rintro ⟨windows, hends, hjudged, hadds⟩
    exact hends.ok hjudged hadds

/-- All sums are right, but matches of cycles without samples fill up the sum of a
cycle that is judged. -/
def FilledUp (py : PyUnicode) (expectedTotal : Nat) (text : List Char)
    (events : Nat → Arrival (Window Char)) : Prop :=
  ∃ windows, CoherentEnds py text events windows ∧
    Adds expectedTotal (cyclesOf py text windows).closed ∧
    ∃ before c, JudgedCycle (cyclesOf py text windows).closed before c ∧
      ¬expectedTotal ∣ pending before

/-- Such a stream passes. -/
theorem FilledUp.ok (h : FilledUp py expectedTotal text events) :
    (coherentSetsEvents py expectedTotal text).Returns events .ok := by
  obtain ⟨windows, hends, hadds, before, c, hjudged, -⟩ := h
  exact coherentSets_ok_iff.mpr ⟨windows, hends, ⟨before, c, hjudged⟩, hadds⟩

/-- The cycle itself has no whole sets. -/
theorem FilledUp.not_evidence (h : FilledUp py expectedTotal text events) :
    ¬∃ windows, CoherentEnds py text events windows ∧
      CoherentEvidence expectedTotal (cyclesOf py text windows).closed := by
  rintro ⟨windows', hends', -, hevidence⟩
  obtain ⟨windows, hends, hadds, before, c, hjudged, hpending⟩ := h
  obtain rfl := hends.unique hends'
  have hmatched := (hevidence before c hjudged).1
  exact hpending ((Nat.dvd_add_left hmatched).mp (hadds before c hjudged).1)

/-- **When passing is backed by evidence**: unless matches of cycles without samples fill
up the sum of a cycle that is judged. -/
theorem coherentSets_evidence_iff :
    ((coherentSetsEvents py expectedTotal text).Returns events .ok →
      ∃ windows, CoherentEnds py text events windows ∧
        CoherentEvidence expectedTotal (cyclesOf py text windows).closed) ↔
      ¬FilledUp py expectedTotal text events := by
  constructor
  · intro h hfilled
    exact hfilled.not_evidence (h hfilled.ok)
  · intro hfilled hreturns
    obtain ⟨windows, hends, hjudged, hadds⟩ := coherentSets_ok_iff.mp hreturns
    refine ⟨windows, hends, hjudged, fun before c h => ⟨?_, (hadds before c h).2⟩⟩
    have hpending : expectedTotal ∣ pending before := by
      by_contra hnot
      exact hfilled ⟨windows, hends, hadds, before, c, h, hnot⟩
    exact (Nat.dvd_add_right hpending).mp (hadds before c h).1

end Run

/-! ## A match that is no sample -/

/-- The match of a line `Reading coherent sets`. -/
def readingSetsMatch : Window Char := ⟨1, [], "Reading coherent sets\n".toList⟩

/-- A line of a color that is not one word, as `-c light-blue` gives it. -/
def noSampleMatch : Window Char := ⟨0, "Square light-blue 001 001 ".toList, "[30]".toList⟩

/-- Two cycles of one sample, one of a match that is no sample, and one of eleven
samples. -/
def elevenSamples : List (Window Char) :=
  [readingSetsMatch, sampleMatch "BLUE" 1, readingSetsMatch, noSampleMatch, readingSetsMatch] ++
    sampleMatch "RED" 1 :: (List.replicate 5 [sampleMatch "BLUE" 1, sampleMatch "RED" 1]).flatten ++
    [readingSetsMatch]

/-- They are read, and nothing comes behind them. -/
def elevenSamplesStream : Nat → Arrival (Window Char) := EventLoop.streamOf elevenSamples .timeout

/-- The two cycles that are not judged, and the one without samples. -/
def cyclesBefore : List Cycle :=
  [⟨0, [("Square".toList, "RED".toList)], []⟩, ⟨1, [("Square".toList, "BLUE".toList)], []⟩,
    ⟨1, [], []⟩]

def elevenSamplesCycle : Cycle where
  matched := 11
  samples := ("Square".toList, "RED".toList) :: (List.replicate 5
    [("Square".toList, "BLUE".toList), ("Square".toList, "RED".toList)]).flatten
  followers := []

theorem closed_elevenSamples :
    (cyclesOf .ascii (sampleMatch "RED" 1).text elevenSamples).closed =
      cyclesBefore ++ [elevenSamplesCycle] := by
  decide +kernel

theorem not_judgedCycle_cyclesBefore (before : List Cycle) (c : Cycle) :
    ¬JudgedCycle cyclesBefore before c := by
  intro h
  have hsplit : cyclesBefore = [] ++ [⟨0, [("Square".toList, "RED".toList)], []⟩] ++
      [⟨1, [("Square".toList, "BLUE".toList)], []⟩] ++ [⟨1, [], []⟩] := rfl
  rw [hsplit, judgedCycle_concat_iff, judgedCycle_concat_iff, judgedCycle_concat_iff] at h
  rcases h with ((h | ⟨-, -, -, h⟩) | ⟨-, -, -, h⟩) | ⟨-, -, h, -⟩
  · exact not_judgedCycle_nil before c h
  · exact absurd h (by decide)
  · exact absurd h (by decide)
  · exact h rfl

theorem filledUp_elevenSamples :
    FilledUp .ascii 12 (sampleMatch "RED" 1).text elevenSamplesStream := by
  have hlast : JudgedCycle (cyclesBefore ++ [elevenSamplesCycle]) cyclesBefore elevenSamplesCycle :=
    ⟨List.prefix_rfl, List.cons_ne_nil _ _, by decide⟩
  refine ⟨elevenSamples, ⟨basicCheck_sampleMatch_red, EventLoop.begins_streamOf _ _, ?_, ?_,
    .inl (EventLoop.streamOf_length _ _)⟩, ?_, ?_⟩
  · decide +kernel
  · decide
  · rw [closed_elevenSamples]
    intro before c h
    rcases judgedCycle_concat_iff.mp h with hold | ⟨rfl, rfl, -, -⟩
    · exact absurd hold (not_judgedCycle_cyclesBefore before c)
    · exact ⟨by decide, List.forall_mem_nil _⟩
  · rw [closed_elevenSamples]
    exact ⟨_, _, hlast, by decide⟩

/-- A cycle of eleven samples passes for a set of twelve. -/
theorem not_coherentSets_evidence :
    ¬ ∀ (py : PyUnicode) (expectedTotal : Nat) (text : List Char)
      (events : Nat → Arrival (Window Char)),
      (coherentSetsEvents py expectedTotal text).Returns events .ok →
        ∃ windows, CoherentEnds py text events windows ∧
          CoherentEvidence expectedTotal (cyclesOf py text windows).closed := by
  intro hall
  exact filledUp_elevenSamples.not_evidence (hall _ _ _ _ filledUp_elevenSamples.ok)

end DdsRtps.Harness
