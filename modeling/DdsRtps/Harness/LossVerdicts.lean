/-
# `DdsRtps.Harness.LossVerdicts` — losses, from the publisher to the verdict

Most tests of test_suite.py with samples that grow (`-z 0`) check the numbers of
the samples by instance, with `test_reliability_no_losses_w_instances` or with
`test_order_w_instances` of test_suite_functions.py.  They see sizes; the publisher
has numbered its writes with them (`DdsRtps.ShapeMain.GrowingSizes`).

Here the verdicts are said of the writes that were delivered, in the order in
which the subscriber prints them (`loss_verdicts`): of an instance the numbers
have to follow each other, or to grow, and 500 samples of the instance that is
seen first have to be judged.  What is judged is all but the last.
-/
import DdsRtps.Harness.DurabilityVerdicts
import DdsRtps.Harness.SampleVerdicts

namespace DdsRtps.Harness

open Regex
open EventLoop (Begins streamOf begins_streamOf_iff)
open ShapeMain (Call NoOverflow instanceColor)

/-! ## Numbers by instance -/

section Numbers

variable {κ κ' : Type}

/-- Another name for each instance, and numbers that are one higher. -/
def renumber (f : κ → κ') (a : κ × Nat) : κ' × Nat := (f a.1, a.2 + 1)

/-- What is judged of the new list is judged of the old one. -/
theorem exists_judged_map_iff {f : κ → κ'} {P : List (κ' × Nat) → κ' × Nat → Prop}
    {l : List (κ × Nat)} :
    (∃ judged a, judged ++ [a] <+: l.map (renumber f) ∧ P judged a) ↔
      ∃ judged a, judged ++ [a] <+: l ∧ P (judged.map (renumber f)) (renumber f a) := by
  constructor
  · rintro ⟨judged, a, ⟨rest, hrest⟩, hP⟩
    obtain ⟨seen, rest', rfl, hseen, -⟩ := List.map_eq_append_iff.mp hrest.symm
    obtain ⟨judged', last, rfl, rfl, hlast⟩ := List.map_eq_append_iff.mp hseen
    obtain ⟨a', rfl, rfl⟩ := List.map_eq_singleton_iff.mp hlast
    exact ⟨judged', a', List.prefix_append _ _, hP⟩
  · rintro ⟨judged, a, hinit, hP⟩
    refine ⟨_, _, ?_, hP⟩
    have hmap := hinit.map (renumber f)
    rwa [List.map_append] at hmap

variable [DecidableEq κ] [DecidableEq κ']

/-- The numbers of one instance. -/
def numbersOf (k : κ) (l : List (κ × Nat)) : List Nat := (l.filter fun a => a.1 = k).map Prod.snd

/-- How many of these are of the instance that `l` begins with. -/
def ofFirst (l judged : List (κ × Nat)) : Nat :=
  judged.countP fun a => some a.1 = l.head?.map Prod.fst

/-- 500 of the first instance are judged, and of every instance each follows the
one before. -/
def Completes (next : Nat → Nat → Prop) (l : List (κ × Nat)) : Prop :=
  ∃ judged a, judged ++ [a] <+: l ∧ 500 ≤ ofFirst l judged ∧
    ∀ k, (numbersOf k judged).IsChain next

/-- Before that, one of some instance does not follow the one before. -/
def Breaks (next : Nat → Nat → Prop) (l : List (κ × Nat)) : Prop :=
  ∃ judged a, judged ++ [a] <+: l ∧ ofFirst l judged < 500 ∧
    ∃ k, ¬(numbersOf k (judged ++ [a])).IsChain next

variable {f : κ → κ'} {next next' : Nat → Nat → Prop}

theorem numbersOf_map (hf : Function.Injective f) (k : κ) (l : List (κ × Nat)) :
    numbersOf (f k) (l.map (renumber f)) = (numbersOf k l).map (· + 1) := by
  induction l with
  | nil => rfl
  | cons a l ih =>
      have hkey : ((renumber f a).1 = f k) = (a.1 = k) := propext hf.eq_iff
      rw [numbersOf] at ih
      rw [List.map_cons, numbersOf, numbersOf, List.filter_cons, List.filter_cons]
      simp only [hkey]
      split
      · rw [List.map_cons, ih]
        rfl
      · exact ih

omit [DecidableEq κ] in
theorem numbersOf_map_eq_nil {k' : κ'} (hk : ∀ k, f k ≠ k') (l : List (κ × Nat)) :
    numbersOf k' (l.map (renumber f)) = [] := by
  rw [numbersOf, List.map_eq_nil_iff, List.filter_eq_nil_iff]
  intro a ha
  obtain ⟨b, -, rfl⟩ := List.mem_map.mp ha
  exact fun h => hk b.1 (of_decide_eq_true h)

theorem isChain_numbersOf_map_iff (hf : Function.Injective f)
    (hnext : ∀ a b, next' (a + 1) (b + 1) ↔ next a b) (l : List (κ × Nat)) :
    (∀ k', (numbersOf k' (l.map (renumber f))).IsChain next') ↔
      ∀ k, (numbersOf k l).IsChain next := by
  have hkey : ∀ k, (numbersOf (f k) (l.map (renumber f))).IsChain next' ↔
      (numbersOf k l).IsChain next := by
    intro k
    rw [numbersOf_map hf, List.isChain_map]
    simp only [hnext]
  constructor
  · exact fun h k => (hkey k).mp (h (f k))
  · intro h k'
    by_cases hk : ∃ k, f k = k'
    · obtain ⟨k, rfl⟩ := hk
      exact (hkey k).mpr (h k)
    · rw [not_exists] at hk
      rw [numbersOf_map_eq_nil hk]
      exact List.isChain_nil

theorem ofFirst_map (hf : Function.Injective f) (l judged : List (κ × Nat)) :
    ofFirst (l.map (renumber f)) (judged.map (renumber f)) = ofFirst l judged := by
  rw [ofFirst, List.countP_map, ofFirst]
  refine List.countP_congr fun a _ => ?_
  cases l with
  | nil => simp
  | cons b l => simp [renumber, hf.eq_iff]

omit [DecidableEq κ'] in
/-- The first instance shows in what is judged, too. -/
theorem ofFirst_of_begins {l judged : List (κ × Nat)} {a : κ × Nat} (h : judged ++ [a] <+: l) :
    ofFirst (judged ++ [a]) judged = ofFirst l judged := by
  obtain ⟨rest, rfl⟩ := h
  rw [ofFirst, ofFirst]
  cases judged <;> rfl

theorem completes_map_iff (hf : Function.Injective f)
    (hnext : ∀ a b, next' (a + 1) (b + 1) ↔ next a b) {l : List (κ × Nat)} :
    Completes next' (l.map (renumber f)) ↔ Completes next l := by
  rw [Completes, exists_judged_map_iff, Completes]
  simp only [ofFirst_map hf, isChain_numbersOf_map_iff hf hnext]

theorem breaks_map_iff (hf : Function.Injective f)
    (hnext : ∀ a b, next' (a + 1) (b + 1) ↔ next a b) {l : List (κ × Nat)} :
    Breaks next' (l.map (renumber f)) ↔ Breaks next l := by
  rw [Breaks, exists_judged_map_iff, Breaks]
  have hchain : ∀ (judged : List (κ × Nat)) (a : κ × Nat),
      (∃ k', ¬(numbersOf k' (judged.map (renumber f) ++ [renumber f a])).IsChain next') ↔
        ∃ k, ¬(numbersOf k (judged ++ [a])).IsChain next := by
    intro judged a
    have hall := isChain_numbersOf_map_iff hf hnext (judged ++ [a])
    rw [List.map_append, List.map_singleton] at hall
    rw [← not_forall, ← not_forall, hall]
  simp only [ofFirst_map hf, hchain]

end Numbers

/-! ## The windows of an output -/

section Windows

variable {pyu : PyUnicode} {sub : Subscriber}

/-- What is read of a sample that is printed. -/
def readingOf (r : Received) : Reading := (r.sample.color.toList, r.sample.shapesize.toInt.toNat)

theorem readingsOf_reads {windows : List (Window Char)} {rs : List Received}
    (h : List.Forall₂ (ReadsSample pyu sub) windows rs) :
    readingsOf pyu (windows.map Window.text) = rs.map readingOf := by
  induction h with
  | nil => rfl
  | cons hw _ ih =>
      rw [readingsOf] at ih
      rw [List.map_cons, readingsOf, List.filterMap_cons_some hw.colorAndSize, ih]
      rfl

theorem countP_zip_reads (color : Option (List Char)) {w : Window Char} {r : Received}
    {windows : List (Window Char)} {rs : List Received} (hw : ReadsSample pyu sub w r)
    (h : List.Forall₂ (ReadsSample pyu sub) windows rs) (hindex : ∀ w' ∈ windows, w'.index = 0) :
    (((textsOf w.text windows).zip windows).countP fun (t, w) =>
        w.index = 0 && (colorAndSize pyu t).any fun a => some a.1 = color) =
      ((r :: rs).map readingOf).dropLast.countP fun a => some a.1 = color := by
  induction h generalizing w r with
  | nil => rfl
  | @cons w' r' windows rs hw' _ ih =>
      rw [List.forall_mem_cons] at hindex
      have hzip : (textsOf w.text (w' :: windows)).zip (w' :: windows) =
          (w.text, w') :: (textsOf w'.text windows).zip windows := rfl
      have hlast : ((r :: r' :: rs).map readingOf).dropLast =
          readingOf r :: ((r' :: rs).map readingOf).dropLast := rfl
      rw [hzip, hlast, List.countP_cons, List.countP_cons, ih hw' hindex.2]
      simp [hindex.1, hw.colorAndSize, readingOf]

theorem Ending.ne_input (ending : Ending) (w : Window Char) : ending.arrival ≠ .input w := by
  intro heq
  cases ending <;> cases heq

/-- An output that ends, its windows being samples. -/
structure ReadsAll (pyu : PyUnicode) (sub : Subscriber) (w : Window Char)
    (windows : List (Window Char)) (received : List Received) : Prop where
  reads : List.Forall₂ (ReadsSample pyu sub) (w :: windows) received
  index : ∀ w' ∈ windows, w'.index = 0

variable {w : Window Char} {windows : List (Window Char)} {received : List Received}

theorem ReadsAll.of_prefix (h : ReadsAll pyu sub w windows received)
    {windows' : List (Window Char)} (hinit : windows' <+: windows) :
    ReadsAll pyu sub w windows' (received.take (windows'.length + 1)) where
  reads := by
    have htake := List.forall₂_take (windows'.length + 1) h.reads
    rwa [List.take_succ_cons, ← List.prefix_iff_eq_take.mp hinit] at htake
  index w' hw' := h.index w' (hinit.subset hw')

theorem ReadsAll.of_begins (h : ReadsAll pyu sub w windows received) {ending : Ending}
    {windows' : List (Window Char)} (hbegins : Begins (streamOf windows ending.arrival) windows') :
    ReadsAll pyu sub w windows' (received.take (windows'.length + 1)) :=
  h.of_prefix ((begins_streamOf_iff ending.ne_input).mp hbegins)

theorem ReadsAll.readings (h : ReadsAll pyu sub w windows received) :
    readingsOf pyu (textsOf w.text windows) = received.map readingOf :=
  readingsOf_reads h.reads

/-- All but the last sample are judged before the last match. -/
theorem ReadsAll.judged (h : ReadsAll pyu sub w windows received) :
    judgedReadings pyu w.text windows = (readingsOf pyu (textsOf w.text windows)).dropLast := by
  have hreads : List.Forall₂ (ReadsSample pyu sub) (w :: windows).dropLast received.dropLast := by
    rw [List.dropLast_eq_take, List.dropLast_eq_take, h.reads.length_eq]
    exact List.forall₂_take _ h.reads
  have htexts : (textsOf w.text windows).dropLast = (w :: windows).dropLast.map Window.text := by
    rw [List.map_dropLast]
    rfl
  rw [judgedReadings, htexts, readingsOf_reads hreads, h.readings, List.map_dropLast]

/-- Of these, those of the first instance are counted. -/
theorem ReadsAll.counted (h : ReadsAll pyu sub w windows received) :
    Harness.counted pyu w.text windows =
      ofFirst (readingsOf pyu (textsOf w.text windows))
        (readingsOf pyu (textsOf w.text windows)).dropLast := by
  have hreadings := h.readings
  obtain ⟨hreads, hindex⟩ := h
  cases hreads with
  | cons hw hrest => rw [Harness.counted, countP_zip_reads _ hw hrest hindex, ofFirst, hreadings, firstColor]

/-- What is said of the samples seen up to some match is said of a list that the
received samples begin with. -/
theorem ReadsAll.exists_begins_iff (h : ReadsAll pyu sub w windows received)
    (ending : Ending) (P : List Reading → Prop) :
    (∃ windows', Begins (streamOf windows ending.arrival) windows' ∧
        P (readingsOf pyu (textsOf w.text windows'))) ↔
      ∃ judged a, judged ++ [a] <+: received.map readingOf ∧ P (judged ++ [a]) := by
  constructor
  · rintro ⟨windows', hbegins, hP⟩
    have hreadings := (h.of_begins hbegins).readings
    have hne : readingsOf pyu (textsOf w.text windows') ≠ [] := by
      rw [hreadings]
      have hlength := h.reads.length_eq
      intro hnil
      have hzero := congrArg List.length hnil
      simp only [List.length_map, List.length_take, List.length_cons, List.length_nil] at *
      omega
    obtain ⟨judged, a, hseen⟩ :
        ∃ judged a, readingsOf pyu (textsOf w.text windows') = judged ++ [a] :=
      ⟨_, _, (List.dropLast_concat_getLast hne).symm⟩
    refine ⟨judged, a, ?_, hseen ▸ hP⟩
    rw [← hseen, hreadings, List.map_take]
    exact List.take_prefix _ _
  · rintro ⟨judged, a, hinit, hP⟩
    have hlength := hinit.length_le
    have hsame := h.reads.length_eq
    simp only [List.length_append, List.length_map, List.length_cons, List.length_nil] at *
    have hwindows : windows.take judged.length <+: windows := List.take_prefix _ _
    refine ⟨windows.take judged.length, (begins_streamOf_iff ending.ne_input).mpr hwindows, ?_⟩
    have hcount : (windows.take judged.length).length = judged.length := by
      rw [List.length_take]
      omega
    rw [(h.of_prefix hwindows).readings, hcount, List.map_take]
    have htake := List.prefix_iff_eq_take.mp hinit
    rw [List.length_append, List.length_singleton] at htake
    rwa [← htake]

theorem ReadsAll.counts_iff (h : ReadsAll pyu sub w windows received) (ending : Ending)
    {next : Nat → Nat → Prop} :
    Counts pyu w.text (streamOf windows ending.arrival) 500 (fun sizes => sizes.IsChain next) ↔
      Completes next (received.map readingOf) := by
  have hseen := h.exists_begins_iff ending fun seen =>
    500 ≤ ofFirst seen seen.dropLast ∧ ∀ color, (numbersOf color seen.dropLast).IsChain next
  simp only [List.dropLast_concat] at hseen
  rw [Completes]
  refine Iff.trans ?_ (hseen.trans ?_)
  · refine exists_congr fun windows' => and_congr_right fun hbegins => ?_
    have hall := h.of_begins hbegins
    rw [hall.counted, hall.judged]
    rfl
  · refine exists_congr fun judged => exists_congr fun a => and_congr_right fun hinit => ?_
    rw [ofFirst_of_begins hinit]

theorem ReadsAll.violates_iff (h : ReadsAll pyu sub w windows received) (ending : Ending)
    {next : Nat → Nat → Prop} :
    Violates pyu w.text (streamOf windows ending.arrival) 500 (fun sizes => sizes.IsChain next) ↔
      Breaks next (received.map readingOf) := by
  have hseen := h.exists_begins_iff ending fun seen =>
    ofFirst seen seen.dropLast < 500 ∧ ∃ color, ¬(numbersOf color seen).IsChain next
  simp only [List.dropLast_concat] at hseen
  rw [Breaks]
  refine Iff.trans ?_ (hseen.trans ?_)
  · refine exists_congr fun windows' => and_congr_right fun hbegins => ?_
    rw [(h.of_begins hbegins).counted]
    rfl
  · refine exists_congr fun judged => exists_congr fun a => and_congr_right fun hinit => ?_
    rw [ofFirst_of_begins hinit]

end Windows

/-! ## The verdicts -/

/-- What a check by number answers, of the writes that it sees. -/
structure NumberVerdict {κ : Type} [DecidableEq κ] (next : Nat → Nat → Prop) (l : List (κ × Nat))
    (code : ReturnCode) : Prop where
  ok : code = .ok ↔ Completes next l
  dataNotCorrect : code = .dataNotCorrect ↔ Breaks next l
  otherwise : ¬Completes next l → ¬Breaks next l → code = .dataNotReceived

section Verdicts

variable {pyu : PyUnicode} {sub : Subscriber} {w : Window Char} {received : List Received}

/-- The check of an output whose windows are samples. -/
theorem numberVerdict_result {next : Nat → Nat → Bool} {patterns : List (Regex Char)}
    {output : List Char} (h : ReadsAll pyu sub w (expectAll patterns [] 0 output) received)
    (hbasic : basicCheck pyu w.text = .ok) (ending : Ending) :
    NumberVerdict (fun a b => next a b = true) (received.map readingOf)
      ((seqNumCheck next patterns).result pyu w.text output ending) := by
  have hexact := seqNumCheck_exact (streamOf (expectAll patterns [] 0 output) ending.arrival)
    next patterns hbasic
  have haccepts : (seqNumCheck next patterns).Accepts =
      fun sizes => sizes.IsChain fun a b => next a b = true :=
    funext fun sizes => propext (accepts_seqNumCheck_iff next patterns sizes)
  rw [haccepts] at hexact
  have hreturns := (seqNumCheck next patterns).eventLoop_returns pyu w.text output ending
  have hcode : ∀ code, (seqNumCheck next patterns).result pyu w.text output ending = code ↔
      ((seqNumCheck next patterns).eventLoop pyu w.text).Returns
        (streamOf (expectAll patterns [] 0 output) ending.arrival) code := by
    intro code
    constructor
    · rintro rfl
      exact hreturns
    · exact fun h => hreturns.unique h
  have hcounts : _ ↔ Completes (fun a b => next a b = true) _ := h.counts_iff ending
  have hviolates : _ ↔ Breaks (fun a b => next a b = true) _ := h.violates_iff ending
  constructor
  · rw [hcode, hexact.ok, hcounts]
  · rw [hcode, hexact.dataNotCorrect, hviolates]
  · intro hnot hnot'
    exact hexact.otherwise _ hreturns (fun h => hnot (hcounts.mp h))
      fun h => hnot' (hviolates.mp h)

/-! ## From the publisher -/

theorem instanceColor_injective (base : String) :
    Function.Injective fun j => (instanceColor base j).toList := by
  have hzero : (instanceColor base 0).toList = base.toList := rfl
  have hsucc : ∀ j, (instanceColor base (j + 1)).toList =
      base.toList ++ Nat.toDigits 10 (j + 1) := fun j => by simp [instanceColor]
  -- the base alone is no base with digits
  have hne : ∀ j, base.toList ≠ base.toList ++ Nat.toDigits 10 (j + 1) := fun j heq =>
    Nat.toDigits_ne_nil (List.append_cancel_left ((List.append_nil _).trans heq)).symm
  intro j k heq
  cases j with
  | zero =>
      cases k with
      | zero => rfl
      | succ k => exact absurd (heq.trans (hsucc k)) (hne k)
  | succ j =>
      cases k with
      | zero => exact absurd (heq.symm.trans (hsucc j)) (hne j)
      | succ k =>
          have hdigits := List.append_cancel_left ((hsucc j).symm.trans (heq.trans (hsucc k)))
          rw [← pyInt_toDigits (j + 1), hdigits, pyInt_toDigits]

/-- The samples are these writes to a topic: of an instance, and so many after its
first. -/
def Delivered (base : String) (i numInstances : Nat) (calls : List Call)
    (received : List Received) (writes : List (Nat × Nat)) : Prop :=
  List.Forall₂ (fun r (j, k) => j < numInstances ∧ k + 1 < 2 ^ 31 ∧
    r.sample.color = instanceColor base j ∧
    (ShapeMain.sizesOf i j calls)[k]? = some r.sample.shapesize) received writes

/-- The sizes of the samples number the writes. -/
theorem Delivered.readings {numTopics numInstances : Nat} {calls : List Call}
    (hrun : GrowingRun numTopics numInstances calls) {i : Nat} (hi : i < numTopics) {base : String}
    {writes : List (Nat × Nat)} (h : Delivered base i numInstances calls received writes) :
    received.map readingOf = writes.map (renumber fun j => (instanceColor base j).toList) := by
  induction h with
  | nil => rfl
  | @cons r write received writes hwrite _ ih =>
      obtain ⟨j, k⟩ := write
      obtain ⟨hj, hk, hcolor, hsize⟩ := hwrite
      have hnumber : r.sample.shapesize.toInt = (k + 1 : Nat) :=
        hrun.kthSizes i hi j hj k _ hsize hk
      rw [List.map_cons, List.map_cons, ih, readingOf, hcolor, hnumber]
      rfl

theorem not_first_readingOrderedAccess {t : List Char}
    (h : ¬"Reading with ordered access".toList <:+: t) {v : List Char} (hv : v <:+ t) :
    first readingOrderedAccess v = none := by
  rw [first_eq_none_iff]
  intro u rest cs hu hp
  rw [readingOrderedAccess, parse_cat_cons_iff] at hp
  obtain ⟨u₁, cs₁, u₂, cs₂, hlit, -, rfl, -⟩ := hp
  obtain ⟨rfl, -⟩ := parse_lit_iff.mp hlit
  refine h (List.IsInfix.trans ?_ hv.isInfix)
  exact ⟨[], u₂ ++ rest, by rw [hu]; simp⟩

/-- Without a sample there is nothing to judge. -/
theorem numberVerdict_nil {κ : Type} [DecidableEq κ] {next : Nat → Nat → Prop} :
    NumberVerdict next ([] : List (κ × Nat)) .dataNotReceived := by
  have hnone : ∀ (judged : List (κ × Nat)) (a : κ × Nat), ¬judged ++ [a] <+: [] := fun judged a h =>
    absurd (List.prefix_nil.mp h) (by simp)
  refine ⟨iff_of_false (by decide) ?_, iff_of_false (by decide) ?_, fun _ _ => rfl⟩
  · rintro ⟨judged, a, hinit, -⟩
    exact hnone judged a hinit
  · rintro ⟨judged, a, hinit, -⟩
    exact hnone judged a hinit

theorem NumberVerdict.of_map {κ κ' : Type} [DecidableEq κ] [DecidableEq κ'] {f : κ → κ'}
    (hf : Function.Injective f) {next next' : Nat → Nat → Prop}
    (hnext : ∀ a b, next' (a + 1) (b + 1) ↔ next a b) {l : List (κ × Nat)} {code : ReturnCode}
    (h : NumberVerdict next' (l.map (renumber f)) code) : NumberVerdict next l code := by
  obtain ⟨hok, hnot, hother⟩ := h
  rw [completes_map_iff hf hnext] at hok hother
  rw [breaks_map_iff hf hnext] at hnot hother
  exact ⟨hok, hnot, hother⟩

/-- A check by number, where its other patterns do not matter. -/
theorem numberVerdict_of_log {numTopics numInstances : Nat} {calls : List Call}
    (hrun : GrowingRun numTopics numInstances calls) {i : Nat} (hi : i < numTopics) {base : String}
    {py : PyCase} {eol : LineEnd} (ending : Ending) {log : SubscriberLog}
    (hlog : log.Legal pyu py sub) {writes : List (Nat × Nat)}
    (hdelivered : Delivered base i numInstances calls (samplesOf log.reading) writes)
    {next : Nat → Nat → Bool} {next' : Nat → Nat → Prop} {patterns : List (Regex Char)}
    (hnext : ∀ a b, next (a + 1) (b + 1) = true ↔ next' a b)
    (hpatterns : ∀ rest, rest <:+ log.text sub eol →
      expectAll patterns [] 0 rest = expectAll [sampleEnd] [] 0 rest) :
    NumberVerdict next' writes (subscriberOutput py (fun w rest =>
      (seqNumCheck next patterns).result pyu w.text rest ending) (log.text sub eol)) := by
  have hreadings := hdelivered.readings hrun hi
  have hprinted := subscriberOutput_printed pyu py sub eol log hlog
  cases hsamples : samplesOf log.reading with
  | nil =>
      rw [hsamples] at hdelivered hprinted
      cases hdelivered
      rw [hprinted]
      exact numberVerdict_nil
  | cons r rs =>
      rw [hsamples] at hdelivered hprinted hreadings
      obtain ⟨w, rest, hw, hsuffix, hrest, hcheck⟩ := hprinted
      have hall : ReadsAll pyu sub w (expectAll patterns [] 0 rest) (r :: rs) := by
        rw [hpatterns rest hsuffix]
        refine ⟨List.Forall₂.cons hw hrest, fun w' hw' => ?_⟩
        have hlt := index_lt_of_mem_expectAll hw'
        exact Nat.lt_one_iff.mp hlt
      have hbasic : basicCheck pyu w.text = .ok := by
        cases hdelivered with
        | @cons _ write _ _ hwrite _ =>
            obtain ⟨j, k⟩ := write
            obtain ⟨hj, hk, -, hsize⟩ := hwrite
            have hnumber : r.sample.shapesize.toInt = (k + 1 : Nat) :=
              hrun.kthSizes i hi j hj k _ hsize hk
            rw [basicCheck, hw.basicSize, hnumber]
            rfl
      have hverdict : NumberVerdict (fun a b => next a b = true) ((r :: rs).map readingOf)
          ((seqNumCheck next patterns).result pyu w.text rest ending) :=
        numberVerdict_result hall hbasic ending
      rw [hcheck]
      rw [hreadings] at hverdict
      exact hverdict.of_map (instanceColor_injective base) hnext

/-- **The verdicts say what was lost.**  Of every output in which the samples that a
subscriber prints are writes of one of the four publishers, the check for losses
is content when of every instance the writes follow each other without a gap, up to
the 500th of the first instance, and the check for order when they come in the
order in which they were written. -/
theorem loss_verdicts {numTopics numInstances : Nat} {calls : List Call}
    (hrun : GrowingRun numTopics numInstances calls) {i : Nat} (hi : i < numTopics)
    (base : String) (pyu : PyUnicode) (py : PyCase) (sub : Subscriber) (eol : LineEnd)
    (ending : Ending) {log : SubscriberLog} (hlog : log.Legal pyu py sub)
    {writes : List (Nat × Nat)}
    (hdelivered : Delivered base i numInstances calls (samplesOf log.reading) writes) :
    NumberVerdict (fun a b => a + 1 = b) writes
        (subscriberOutput py (fun w rest =>
          testReliabilityNoLosses.result pyu w.text rest ending) (log.text sub eol)) ∧
      (¬"Reading with ordered access".toList <:+: log.text sub eol →
        NumberVerdict (· < ·) writes
          (subscriberOutput py (fun w rest =>
            testOrder.result pyu w.text rest ending) (log.text sub eol))) := by
  constructor
  · exact numberVerdict_of_log hrun hi ending hlog hdelivered (by simp) fun _ _ => rfl
  · intro hnone
    refine numberVerdict_of_log hrun hi ending hlog hdelivered (by simp) fun rest hrest => ?_
    refine expectAll_congr (fun v hv => ?_) [] 0
    rw [firstOf, firstOf, firstOf, not_first_readingOrderedAccess hnone (hv.trans hrest)]
    rfl

end Verdicts

/-- A subscriber that does not receive the second of three writes. -/
def lossLog : SubscriberLog where
  early := []
  topicRest := " Square".toList
  created := []
  readerRest := " Square".toList
  reading := [.sample ⟨"Square", ⟨"BLUE", 1, 1, 1, []⟩⟩, .other [],
    .sample ⟨"Square", ⟨"BLUE", 3, 3, 3, []⟩⟩]

theorem loss_verdicts_lossLog :
    subscriberOutput .ascii (fun w rest =>
      testReliabilityNoLosses.result .ascii w.text rest .timeout) (lossLog.text .cxx .crlf) =
        .dataNotCorrect := by
  have hword : ∀ {l : List Char}, l.all PyUnicode.ascii.word = true →
      ∀ c ∈ l, PyUnicode.ascii.word c = true := List.all_eq_true.mp
  have hrun : GrowingRun 1 1
      (ShapeMain.Cxx.callsMade twoWrites ⟨0, 0, 1, 1⟩ [false, false, false]) :=
    .cxx _ _ (⟨rfl, rfl, rfl, rfl⟩ : ShapeMain.Cxx.GrowsBy none twoWrites)
  have hlog : lossLog.Legal .ascii .ascii .cxx :=
    { early := by decide
      created := by decide
      reading := by
        simp only [lossLog, List.forall_mem_cons, OutputLine.Quiet, OutputLine.Legal]
        exact ⟨⟨noSample_of_not_mem (by decide), by decide⟩,
          ⟨⟨⟨by decide, hword (by decide)⟩, ⟨by decide, hword (by decide)⟩,
            by decide, by decide, by decide⟩, by decide⟩,
          ⟨noSample_of_not_mem (by decide), by decide⟩,
          ⟨⟨⟨by decide, hword (by decide)⟩, ⟨by decide, hword (by decide)⟩,
            by decide, by decide, by decide⟩, by decide⟩, by simp⟩ }
  have hdelivered : Delivered "BLUE" 0 1
      (ShapeMain.Cxx.callsMade twoWrites ⟨0, 0, 1, 1⟩ [false, false, false])
      (samplesOf lossLog.reading) [(0, 0), (0, 2)] :=
    .cons ⟨by decide, by decide, rfl, by decide⟩ (.cons ⟨by decide, by decide, rfl, by decide⟩ .nil)
  have hverdicts := loss_verdicts hrun (i := 0) (by decide) "BLUE" .ascii .ascii .cxx .crlf .timeout
    hlog hdelivered
  exact hverdicts.1.dataNotCorrect.mpr
    ⟨[(0, 0)], (0, 2), List.prefix_rfl, by decide, 0, by decide⟩

end DdsRtps.Harness
