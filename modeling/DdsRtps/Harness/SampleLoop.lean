/-
# `DdsRtps.Harness.SampleLoop` — reading samples instance by instance

Four checks of test_suite_functions.py have one loop.  It searches the text
that the last `expect` has read for a sample, judges its size by what it keeps
of the instance, and expects the next `[digits]`; that counts a sample, if the
one just read was of the instance that was seen first.  They differ in what is
kept, in how it is judged and in the verdict (`SampleCheck`).

The lists `instance_color`, `instance_seq_num`, ... that the source indexes
alike are one dict here, from the color to what is kept.

The loop waits for more, exactly if the count is below the limit and no
instance is judged wrong (`after_cases`).
-/
import DdsRtps.Harness.CoherentSets
import Mathlib.Data.List.Induction

namespace DdsRtps.Harness

open Regex

/-! ## The code -/

/-- What comes of a size: an error, or what is kept from now on. -/
inductive Judgement (σ : Type) where
  | wrong
  | right (s : σ)
  /-- A gap that shows that samples have expired. -/
  | expired (s : σ)

/-- What is kept. -/
def Judgement.kept {σ : Type} : Judgement σ → Option σ
  | .wrong => none
  | .right s | .expired s => some s

def Judgement.isExpired {σ : Type} : Judgement σ → Bool
  | .expired _ => true
  | .wrong | .right _ => false

/-- The variables that all four have, and those of each instance. -/
structure SampleState (σ : Type) where
  instances : PyDict (List Char) σ
  samplesReadPerInstance : Nat
  producedCode : ReturnCode
  lifespanExpirationObserved : Bool

def SampleState.initial (σ : Type) : SampleState σ := ⟨.empty, 0, .dataNotReceived, false⟩

/-- What one of the checks does: the samples it reads at most, the patterns it
expects, what it keeps of a new instance, how it judges a size, and its verdict
behind the loop. -/
structure SampleCheck (σ : Type) where
  limit : Nat
  patterns : List (Regex Char)
  new : Nat → σ
  judge : σ → Nat → Judgement σ
  verdict : SampleState σ → ReturnCode

/-- The loop waits in an `expect`; `color` is that of the sample just read. -/
structure Waiting (σ : Type) where
  state : SampleState σ
  color : Option (List Char)

/-- What a match counts. -/
def Waiting.countSample {σ : Type} (wait : Waiting σ) (index : Nat) : SampleState σ :=
  if index = 0 ∧ wait.color ≠ none ∧ wait.color = wait.state.instances.firstKey then
    { wait.state with samplesReadPerInstance := wait.state.samplesReadPerInstance + 1 }
  else wait.state

namespace SampleCheck

variable {σ : Type} (check : SampleCheck σ) (py : PyUnicode)

/-- A sample of an instance is judged.  `none` leaves the loop with
`DATA_NOT_CORRECT`. -/
def readSample (color : List Char) (size : Nat) (st : SampleState σ) : Option (SampleState σ) :=
  let instances := st.instances.setDefault color (check.new size)
  match instances.get? color with
  | some s =>
      match check.judge s size with
      | .wrong => none
      | .right s => some { st with instances := instances.modify color fun _ => s }
      | .expired s =>
          some { st with
            instances := instances.modify color fun _ => s
            producedCode := .ok
            lifespanExpirationObserved := true }
  | none => none

/-- A text is read, a sample or something else. -/
def readText (text : List Char) (st : SampleState σ) : Option (SampleState σ) :=
  match colorAndSize py text with
  | some (color, size) => check.readSample color size st
  | none => some st

/-- The condition of the loop is tested, and the text is read. -/
def turn (text : List Char) (st : SampleState σ) : Waiting σ ⊕ ReturnCode :=
  if st.samplesReadPerInstance < check.limit then
    match check.readText py text st with
    | some st => .inl ⟨st, (colorAndSize py text).map Prod.fst⟩
    | none => .inr (check.verdict { st with producedCode := .dataNotCorrect })
  else .inr (check.verdict st)

/-- An `expect` has matched. -/
def onMatch (wait : Waiting σ) (w : Window Char) : Waiting σ ⊕ ReturnCode :=
  check.turn py w.text (wait.countSample w.index)

/-- One match after the other, until the check returns. -/
def run : List (Window Char) → Waiting σ → Waiting σ ⊕ ReturnCode
  | [], wait => .inl wait
  | w :: windows, wait =>
      match check.onMatch py wait w with
      | .inl wait => run windows wait
      | .inr code => .inr code

/-- The check from its first line: `text` is what the last `expect` of
`run_subscriber_shape_main` has read. -/
def after (text : List Char) (windows : List (Window Char)) : Waiting σ ⊕ ReturnCode :=
  let retcode := basicCheck py text
  if retcode ≠ .ok then .inr retcode
  else
    match check.turn py text (.initial σ) with
    | .inl wait => check.run py windows wait
    | .inr code => .inr code

/-- The check of an output that ends. -/
def result (text output : List Char) (ending : Ending) : ReturnCode :=
  match check.after py text (expectAll check.patterns [] 0 output) with
  | .inr code => code
  | .inl wait =>
      match ending with
      | .timeout => check.verdict wait.state
      | .eof => .dataNotReceived

end SampleCheck

/-! ## What was read -/

/-- A sample that was read: its color and its size. -/
abbrev Reading := List Char × Nat

/-- The readings of some texts, one text after the other. -/
def readingsOf (py : PyUnicode) (texts : List (List Char)) : List Reading :=
  texts.filterMap (colorAndSize py)

/-- The sizes of one instance. -/
def sizesOf (color : List Char) (readings : List Reading) : List Nat :=
  (readings.filter fun r => r.1 = color).map Prod.snd

theorem sizesOf_append (color : List Char) (readings : List Reading) (r : Reading) :
    sizesOf color (readings ++ [r]) =
      sizesOf color readings ++ if r.1 = color then [r.2] else [] := by
  rw [sizesOf, List.filter_append, List.map_append]
  by_cases hcolor : r.1 = color
  · simp [sizesOf, hcolor]
  · simp [sizesOf, hcolor]

/-- The texts that were read: that of the first sample, and those of the matches. -/
def textsOf (text : List Char) (windows : List (Window Char)) : List (List Char) :=
  text :: windows.map Window.text

/-- The color of the instance that is seen first. -/
def firstColor (readings : List Reading) : Option (List Char) := readings.head?.map Prod.fst

/-- The samples that are counted: those of the instance seen first, if the match
right after is a `[digits]`. -/
def counted (py : PyUnicode) (text : List Char) (windows : List (Window Char)) : Nat :=
  ((textsOf text windows).zip windows).countP fun (t, w) =>
    w.index = 0 && (colorAndSize py t).any fun r =>
      some r.1 = firstColor (readingsOf py (textsOf text windows))

/-- The first matches of a stream. -/
def firstMatches (stream : Nat → Window Char) (n : Nat) : List (Window Char) :=
  (List.range n).map stream

namespace SampleCheck

variable {σ : Type} (check : SampleCheck σ)

/-- What is kept after some sizes of an instance. -/
def follow (s : σ) (sizes : List Nat) : Option σ :=
  sizes.foldlM (fun s size => (check.judge s size).kept) s

/-- What is kept of an instance: nothing, if there is none or if it is wrong. -/
def kept : List Nat → Option σ
  | [] => none
  | size :: sizes => check.follow (check.new size) (size :: sizes)

/-- No size of an instance is wrong. -/
def Accepts (sizes : List Nat) : Prop := sizes = [] ∨ (check.kept sizes).isSome = true

/-- Some size shows that samples have expired, and none is wrong before it. -/
def expires (s : σ) : List Nat → Bool
  | [] => false
  | size :: sizes =>
      match check.judge s size with
      | .wrong => false
      | .right s => expires s sizes
      | .expired _ => true

/-- Samples of an instance have expired. -/
def Expired : List Nat → Prop
  | [] => False
  | size :: sizes => check.expires (check.new size) (size :: sizes) = true

/-- What is kept when one more size comes. -/
def keptBefore (sizes : List Nat) (size : Nat) : Option σ :=
  if sizes = [] then some (check.new size) else check.kept sizes

theorem follow_append (s : σ) (sizes : List Nat) (size : Nat) :
    check.follow s (sizes ++ [size]) =
      (check.follow s sizes).bind fun s => (check.judge s size).kept := by
  rw [follow, List.foldlM_append]
  refine congrArg _ (funext fun s => ?_)
  rw [List.foldlM_cons]
  cases (check.judge s size).kept with
  | none => rfl
  | some s => rfl

/-- One more size is judged by what is kept, and a first one by what is new. -/
theorem kept_append (sizes : List Nat) (size : Nat) :
    check.kept (sizes ++ [size]) =
      (check.keptBefore sizes size).bind fun s => (check.judge s size).kept := by
  cases sizes with
  | nil => exact check.follow_append (check.new size) [] size
  | cons a sizes => exact check.follow_append (check.new a) (a :: sizes) size

theorem expires_append (s : σ) (sizes : List Nat) (size : Nat) :
    check.expires s (sizes ++ [size]) =
      (check.expires s sizes || (check.follow s sizes).any fun s => (check.judge s size).isExpired) := by
  induction sizes generalizing s with
  | nil =>
      rw [List.nil_append, expires, expires, follow, List.foldlM_nil]
      show _ = (check.judge s size).isExpired
      cases check.judge s size with
      | wrong => rfl
      | right s => rfl
      | expired s => rfl
  | cons a sizes ih =>
      rw [List.cons_append, expires, expires, follow, List.foldlM_cons]
      cases check.judge s a with
      | wrong => rfl
      | right s => exact ih s
      | expired s => rfl

theorem expired_append_iff (sizes : List Nat) (size : Nat) :
    check.Expired (sizes ++ [size]) ↔ check.Expired sizes ∨
      ((check.keptBefore sizes size).any fun s => (check.judge s size).isExpired) = true := by
  cases sizes with
  | nil =>
      show check.expires (check.new size) ([] ++ [size]) = true ↔ False ∨ _
      rw [expires_append, Bool.or_eq_true]
      exact or_congr (iff_of_false Bool.false_ne_true id) Iff.rfl
  | cons a sizes =>
      show check.expires (check.new a) (a :: sizes ++ [size]) = true ↔
        check.expires (check.new a) (a :: sizes) = true ∨ _
      rw [expires_append, Bool.or_eq_true]
      exact Iff.rfl

/-- What is wrong stays wrong. -/
theorem accepts_of_append {sizes : List Nat} {size : Nat}
    (h : check.Accepts (sizes ++ [size])) : check.Accepts sizes := by
  rcases List.eq_nil_or_concat sizes with rfl | ⟨_, _, rfl⟩
  · exact .inl rfl
  · rcases h with h | h
    · simp at h
    · right
      rw [kept_append, keptBefore, if_neg (by simp)] at h
      exact Option.isSome_of_isSome_bind h

theorem accepts_of_initial {sizes sizes' : List Nat} (h : check.Accepts sizes')
    (hinitial : sizes <+: sizes') : check.Accepts sizes := by
  obtain ⟨more, rfl⟩ := hinitial
  induction more using List.reverseRecOn with
  | nil => rwa [List.append_nil] at h
  | append_singleton more size ih =>
      rw [← List.append_assoc] at h
      exact ih (check.accepts_of_append h)

/-! ## One turn -/

/-- What the variables of the instances say of the samples read so far. -/
structure Knows (readings : List Reading) (st : SampleState σ) : Prop where
  kept : ∀ color, st.instances.get? color = check.kept (sizesOf color readings)
  first : st.instances.firstKey = firstColor readings
  accepts : ∀ color, check.Accepts (sizesOf color readings)
  observed : st.lifespanExpirationObserved = true ↔ ∃ color, check.Expired (sizesOf color readings)
  produced : st.producedCode = if st.lifespanExpirationObserved then .ok else .dataNotReceived

variable {check}

theorem knows_initial : check.Knows [] (.initial σ) where
  kept _ := rfl
  first := rfl
  accepts _ := .inl rfl
  observed := ⟨fun h => absurd h Bool.false_ne_true, fun ⟨_, h⟩ => h.elim⟩
  produced := rfl

/-- A size is judged by what the sizes before it have left. -/
theorem Knows.get?_setDefault {readings : List Reading} {st : SampleState σ}
    (h : check.Knows readings st) (color : List Char) (size : Nat) :
    (st.instances.setDefault color (check.new size)).get? color =
      check.keptBefore (sizesOf color readings) size := by
  rw [PyDict.get?_setDefault, if_pos rfl, h.kept, keptBefore]
  rcases h.accepts color with hnil | hsome
  · rw [if_pos hnil, hnil]
    rfl
  · obtain ⟨s, hs⟩ := Option.isSome_iff_exists.mp hsome
    split
    · rename_i hnil
      rw [hnil] at hs
      cases hs
    · rw [hs]
      rfl

variable (check) in
/-- What a sample changes; `expired` says whether it shows that samples have expired. -/
structure Reads (color : List Char) (size : Nat) (s : σ) (expired : Bool)
    (st st' : SampleState σ) : Prop where
  instances : st'.instances = st.instances.upsert color (check.new size) fun _ => s
  count : st'.samplesReadPerInstance = st.samplesReadPerInstance
  observed : st'.lifespanExpirationObserved = (st.lifespanExpirationObserved || expired)
  produced : st'.producedCode = if expired then .ok else st.producedCode

theorem readSample_cases {readings : List Reading} {st : SampleState σ}
    (h : check.Knows readings st) (color : List Char) (size : Nat) :
    (check.kept (sizesOf color readings ++ [size]) = none ∧
        check.readSample color size st = none) ∨
      ∃ s st', check.kept (sizesOf color readings ++ [size]) = some s ∧
        check.readSample color size st = some st' ∧
        Reads check color size s ((check.keptBefore (sizesOf color readings) size).any fun s =>
          (check.judge s size).isExpired) st st' := by
  rw [kept_append, readSample, ← h.get?_setDefault color size]
  cases hget : (st.instances.setDefault color (check.new size)).get? color with
  | none => exact .inl ⟨rfl, rfl⟩
  | some s =>
      simp only [Option.bind_some, Option.any_some]
      cases hjudge : check.judge s size with
      | wrong => exact .inl ⟨rfl, rfl⟩
      | right s' => exact .inr ⟨s', _, rfl, rfl, rfl, rfl, (Bool.or_false _).symm, rfl⟩
      | expired s' => exact .inr ⟨s', _, rfl, rfl, rfl, rfl, (Bool.or_true _).symm, rfl⟩

/-- A sample that is read is known afterwards, and one that is not has a wrong size. -/
theorem Knows.reads {readings : List Reading} {st st' : SampleState σ} {s : σ}
    {color : List Char} {size : Nat} (h : check.Knows readings st)
    (hkept : check.kept (sizesOf color readings ++ [size]) = some s)
    (hreads : Reads check color size s ((check.keptBefore (sizesOf color readings) size).any fun s =>
      (check.judge s size).isExpired) st st') :
    check.Knows (readings ++ [(color, size)]) st' where
  kept c := by
    rw [hreads.instances, PyDict.get?_upsert, sizesOf_append]
    by_cases hc : c = color
    · subst hc
      rw [if_pos rfl, if_pos rfl, hkept]
    · rw [if_neg hc, if_neg (Ne.symm hc), List.append_nil, h.kept]
  first := by
    rw [hreads.instances, PyDict.upsert, PyDict.firstKey_modify, PyDict.firstKey_setDefault,
      h.first, firstColor, firstColor]
    cases readings with
    | nil => rfl
    | cons r readings => rfl
  accepts c := by
    rw [sizesOf_append]
    by_cases hc : color = c
    · subst hc
      rw [if_pos rfl, Accepts, hkept]
      exact .inr rfl
    · rw [if_neg hc, List.append_nil]
      exact h.accepts c
  observed := by
    have hexpired : ∀ c, check.Expired (sizesOf c (readings ++ [(color, size)])) ↔
        check.Expired (sizesOf c readings) ∨ color = c ∧
          ((check.keptBefore (sizesOf color readings) size).any fun s =>
            (check.judge s size).isExpired) = true := by
      intro c
      rw [sizesOf_append]
      by_cases hc : color = c
      · subst hc
        rw [if_pos rfl, expired_append_iff, and_iff_right rfl]
      · rw [if_neg hc, List.append_nil]
        simp [hc]
    rw [hreads.observed, Bool.or_eq_true, h.observed]
    simp only [hexpired, exists_or, exists_eq_left']
  produced := by
    rw [hreads.produced, hreads.observed, h.produced]
    generalize st.lifespanExpirationObserved = observed
    generalize (check.keptBefore (sizesOf color readings) size).any _ = expired
    cases observed <;> cases expired <;> rfl

variable {py : PyUnicode}

/-- The readings, and the one of a text. -/
def more (py : PyUnicode) (readings : List Reading) (text : List Char) : List Reading :=
  readings ++ (colorAndSize py text).toList

theorem accepts_of_more {readings : List Reading} {text color : List Char}
    (h : check.Accepts (sizesOf color (more py readings text))) :
    check.Accepts (sizesOf color readings) := by
  rw [more] at h
  cases hread : colorAndSize py text with
  | none =>
      rw [hread, Option.toList_none, List.append_nil] at h
      exact h
  | some r =>
      rw [hread, Option.toList_some, sizesOf_append] at h
      by_cases hcolor : r.1 = color
      · rw [if_pos hcolor] at h
        exact check.accepts_of_append h
      · rw [if_neg hcolor, List.append_nil] at h
        exact h

variable (py) in
theorem readText_cases {readings : List Reading} {st : SampleState σ}
    (h : check.Knows readings st) (text : List Char) :
    ((∃ color, ¬check.Accepts (sizesOf color (more py readings text))) ∧
        check.readText py text st = none) ∨
      ∃ st', check.readText py text st = some st' ∧ check.Knows (more py readings text) st' ∧
        st'.samplesReadPerInstance = st.samplesReadPerInstance := by
  rw [readText, more]
  cases hread : colorAndSize py text with
  | none => exact .inr ⟨st, rfl, by rw [Option.toList_none, List.append_nil]; exact h, rfl⟩
  | some r =>
      obtain ⟨color, size⟩ := r
      rw [Option.toList_some]
      rcases readSample_cases h color size with ⟨hnone, hbreak⟩ | ⟨s, st', hsome, hgo, hreads⟩
      · refine .inl ⟨⟨color, ?_⟩, hbreak⟩
        rw [sizesOf_append, if_pos rfl, Accepts, hnone]
        simp
      · exact .inr ⟨st', hgo, h.reads hsome hreads, hreads.count⟩

variable (py) in
/-- A turn waits, if the limit is not reached and no size is wrong. -/
theorem turn_cases {readings : List Reading} {st : SampleState σ} (h : check.Knows readings st)
    (text : List Char) :
    (check.limit ≤ st.samplesReadPerInstance ∧
        check.turn py text st = .inr (check.verdict st)) ∨
      (st.samplesReadPerInstance < check.limit ∧
        (∃ color, ¬check.Accepts (sizesOf color (more py readings text))) ∧
        check.turn py text st =
          .inr (check.verdict { st with producedCode := .dataNotCorrect })) ∨
      st.samplesReadPerInstance < check.limit ∧
        ∃ wait, check.turn py text st = .inl wait ∧ check.Knows (more py readings text) wait.state ∧
          wait.color = (colorAndSize py text).map Prod.fst ∧
          wait.state.samplesReadPerInstance = st.samplesReadPerInstance := by
  rw [turn]
  by_cases hlimit : st.samplesReadPerInstance < check.limit
  · rw [if_pos hlimit]
    rcases readText_cases py h text with ⟨hwrong, hbreak⟩ | ⟨st', hgo, hknows, hcount⟩
    · rw [hbreak]
      exact .inr (.inl ⟨hlimit, hwrong, rfl⟩)
    · rw [hgo]
      exact .inr (.inr ⟨hlimit, _, rfl, hknows, rfl, hcount⟩)
  · rw [if_neg hlimit]
    exact .inl ⟨not_lt.mp hlimit, rfl⟩

end SampleCheck

/-! ## The count -/

variable {py : PyUnicode}

/-- The text that was read last. -/
def lastText (text : List Char) (windows : List (Window Char)) : List Char :=
  (windows.map Window.text).getLastD text

theorem zip_textsOf_append (text : List Char) (windows : List (Window Char)) (w : Window Char) :
    (textsOf text (windows ++ [w])).zip (windows ++ [w]) =
      (textsOf text windows).zip windows ++ [(lastText text windows, w)] := by
  induction windows generalizing text with
  | nil => rfl
  | cons v windows ih =>
      have hrest := ih v.text
      simp only [textsOf, lastText, List.map_cons, List.cons_append, List.zip_cons_cons,
        List.getLastD_cons] at hrest ⊢
      rw [hrest]

theorem readingsOf_append (text : List Char) (windows : List (Window Char)) (w : Window Char) :
    readingsOf py (textsOf text (windows ++ [w])) =
      SampleCheck.more py (readingsOf py (textsOf text windows)) w.text := by
  rw [textsOf, List.map_append, ← List.cons_append, readingsOf, List.filterMap_append,
    SampleCheck.more]
  cases hread : colorAndSize py w.text with
  | none => simp [hread, readingsOf, textsOf]
  | some r => simp [hread, readingsOf, textsOf]

theorem lastText_mem (text : List Char) (windows : List (Window Char)) :
    lastText text windows ∈ textsOf text windows :=
  List.getLastD_mem_cons

/-- Where there is a sample, one more does not change which instance is the first. -/
theorem firstColor_more {texts : List (List Char)} {t : List Char} (ht : t ∈ texts) {r : Reading}
    (hr : colorAndSize py t = some r) (text : List Char) :
    firstColor (SampleCheck.more py (readingsOf py texts) text) =
      firstColor (readingsOf py texts) := by
  have hmem : r ∈ readingsOf py texts := List.mem_filterMap.mpr ⟨t, ht, hr⟩
  rw [SampleCheck.more, firstColor, firstColor, List.head?_append_of_ne_nil _
    (List.ne_nil_of_mem hmem)]

/-- The match is counted, if a sample of the instance seen first was just read. -/
theorem counted_append (text : List Char) (windows : List (Window Char)) (w : Window Char) :
    counted py text (windows ++ [w]) = counted py text windows +
      if w.index = 0 ∧ (colorAndSize py (lastText text windows)).map Prod.fst ≠ none ∧
        (colorAndSize py (lastText text windows)).map Prod.fst =
          firstColor (readingsOf py (textsOf text windows)) then 1 else 0 := by
  have hfirst : ∀ t ∈ textsOf text windows,
      ((colorAndSize py t).any fun r =>
        some r.1 = firstColor (readingsOf py (textsOf text (windows ++ [w])))) =
      (colorAndSize py t).any fun r =>
        some r.1 = firstColor (readingsOf py (textsOf text windows)) := by
    intro t ht
    rw [readingsOf_append]
    cases hread : colorAndSize py t with
    | none => rfl
    | some r => rw [Option.any_some, Option.any_some, firstColor_more ht hread]
  rw [counted, zip_textsOf_append, List.countP_append, List.countP_singleton, counted]
  refine congrArg₂ _ ?_ ?_
  · refine List.countP_congr fun (t, v) hpair => ?_
    show (_ && _) = true ↔ (_ && _) = true
    rw [hfirst t (List.of_mem_zip hpair).1]
  · show (if (_ && _) = true then 1 else 0) = _
    rw [hfirst _ (lastText_mem text windows)]
    cases hread : colorAndSize py (lastText text windows) with
    | none => simp
    | some r => simp

/-- The same, for a check that reads the instance of a text in another way; a text
without one is not counted. -/
def countedAs {κ : Type} [DecidableEq κ] (read : List Char → Option κ) (text : List Char)
    (windows : List (Window Char)) : Nat :=
  ((textsOf text windows).zip windows).countP fun (t, w) =>
    w.index = 0 && (read t).isSome && read t = read text

section Counts

variable {κ : Type} [DecidableEq κ] (read : List Char → Option κ) (text : List Char)

theorem countedAs_append (windows : List (Window Char)) (w : Window Char) :
    countedAs read text (windows ++ [w]) = countedAs read text windows +
      if w.index = 0 ∧ read (lastText text windows) ≠ none ∧
        read (lastText text windows) = read text then 1 else 0 := by
  rw [countedAs, zip_textsOf_append, List.countP_append, List.countP_singleton, countedAs]
  congr 1
  simp only [Bool.and_eq_true, decide_eq_true_eq, Option.isSome_iff_ne_none, and_assoc]

theorem countedAs_le_of_initial {windows windows' : List (Window Char)} (h : windows <+: windows') :
    countedAs read text windows ≤ countedAs read text windows' := by
  obtain ⟨more, rfl⟩ := h
  induction more using List.reverseRecOn with
  | nil => rw [List.append_nil]
  | append_singleton more w ih =>
      rw [← List.append_assoc, countedAs_append]
      omega

end Counts

/-- The matches that are no samples, but lines between them. -/
def groupLines (windows : List (Window Char)) : Nat := windows.countP fun w => w.index ≠ 0

theorem groupLines_append (windows : List (Window Char)) (w : Window Char) :
    groupLines (windows ++ [w]) = groupLines windows + if w.index ≠ 0 then 1 else 0 := by
  rw [groupLines, List.countP_append, List.countP_singleton, groupLines]
  simp only [decide_eq_true_eq]

theorem textsOf_append (text : List Char) (windows : List (Window Char)) (w : Window Char) :
    textsOf text (windows ++ [w]) = textsOf text windows ++ [w.text] := by
  rw [textsOf, textsOf, List.map_append, List.map_singleton, List.cons_append]

/-! ## A run -/

namespace SampleCheck

variable {σ : Type} {check : SampleCheck σ}

/-- The limit is not reached, and no size is wrong. -/
structure Undecided (check : SampleCheck σ) (py : PyUnicode) (text : List Char)
    (windows : List (Window Char)) : Prop where
  basic : basicCheck py text = .ok
  count : counted py text windows < check.limit
  accepts : ∀ color, check.Accepts (sizesOf color (readingsOf py (textsOf text windows)))

variable (check) in
/-- The loop waits, and its variables say what was read. -/
structure WaitsAfter (py : PyUnicode) (text : List Char) (windows : List (Window Char))
    (wait : Waiting σ) : Prop where
  knows : check.Knows (readingsOf py (textsOf text windows)) wait.state
  color : wait.color = (colorAndSize py (lastText text windows)).map Prod.fst
  count : wait.state.samplesReadPerInstance = counted py text windows

/-- What a match counts is not known of any instance. -/
theorem WaitsAfter.countSample {text : List Char} {windows : List (Window Char)} {wait : Waiting σ}
    (h : WaitsAfter check py text windows wait) (w : Window Char) :
    check.Knows (readingsOf py (textsOf text windows)) (wait.countSample w.index) ∧
      (wait.countSample w.index).samplesReadPerInstance = counted py text (windows ++ [w]) := by
  have hknows := h.knows
  rw [counted_append, ← h.color, ← hknows.first, ← h.count, Waiting.countSample]
  split
  · exact ⟨⟨hknows.kept, hknows.first, hknows.accepts, hknows.observed, hknows.produced⟩, rfl⟩
  · exact ⟨hknows, rfl⟩

theorem run_append (py : PyUnicode) (windows : List (Window Char)) (w : Window Char)
    (wait : Waiting σ) :
    check.run py (windows ++ [w]) wait =
      match check.run py windows wait with
      | .inl wait => check.onMatch py wait w
      | .inr code => .inr code := by
  induction windows generalizing wait with
  | nil =>
      show (match check.onMatch py wait w with
        | .inl wait => .inl wait
        | .inr code => .inr code) = check.onMatch py wait w
      cases check.onMatch py wait w with
      | inl wait => rfl
      | inr code => rfl
  | cons v windows ih =>
      rw [List.cons_append, run, run]
      cases check.onMatch py wait v with
      | inl wait => exact ih wait
      | inr code => rfl

/-- One match more, as the loop meets it. -/
theorem after_append (py : PyUnicode) (text : List Char) (windows : List (Window Char))
    (w : Window Char) :
    check.after py text (windows ++ [w]) =
      match check.after py text windows with
      | .inl wait => check.onMatch py wait w
      | .inr code => .inr code := by
  rw [after, after]
  by_cases hbasic : basicCheck py text = .ok
  · simp only [hbasic, ne_eq, not_true_eq_false, if_false]
    cases check.turn py text (.initial σ) with
    | inl wait => exact run_append py windows w wait
    | inr code => rfl
  · simp [hbasic]

variable (py) in
/-- The loop waits as long as nothing is decided, and no longer. -/
theorem after_cases (hlimit : 0 < check.limit) (text : List Char) (windows : List (Window Char)) :
    (¬check.Undecided py text windows ∧ ∃ code, check.after py text windows = .inr code) ∨
      check.Undecided py text windows ∧ ∃ wait, check.after py text windows = .inl wait ∧
        WaitsAfter check py text windows wait := by
  induction windows using List.reverseRecOn with
  | nil =>
      have hreadings : readingsOf py (textsOf text []) = more py [] text := by
        rw [textsOf, readingsOf, more, List.map_nil, List.filterMap_cons, List.nil_append]
        cases colorAndSize py text with
        | none => rfl
        | some r => rfl
      rw [after]
      by_cases hbasic : basicCheck py text = .ok
      · simp only [hbasic, ne_eq, not_true_eq_false, if_false]
        rcases turn_cases py knows_initial text with
          ⟨hle, -⟩ | ⟨-, ⟨color, hwrong⟩, hturn⟩ | ⟨hless, wait, hturn, hknows, hcolor, hcount⟩
        · exact absurd hlimit (not_lt.mpr hle)
        · exact .inl ⟨fun h => hwrong (hreadings ▸ h.accepts color), _, by rw [hturn]⟩
        · refine .inr ⟨⟨hbasic, hlimit, fun color => ?_⟩, wait, by rw [hturn]; rfl, ?_⟩
          · rw [hreadings]
            exact hknows.accepts color
          · exact ⟨hreadings ▸ hknows, hcolor, hcount⟩
      · exact .inl ⟨fun h => hbasic h.basic, _, if_pos hbasic⟩
  | append_singleton windows w ih =>
      rw [after_append]
      rcases ih with ⟨hdecided, code, hafter⟩ | ⟨hundecided, wait, hafter, hwaits⟩
      · refine .inl ⟨fun h => hdecided ⟨h.basic, ?_, fun color => ?_⟩, code, by rw [hafter]⟩
        · have hcount := h.count
          rw [counted_append] at hcount
          omega
        · have haccepts := h.accepts color
          rw [readingsOf_append] at haccepts
          exact accepts_of_more haccepts
      · obtain ⟨hknows, hcount⟩ := hwaits.countSample w
        rw [hafter]
        simp only [onMatch]
        rcases turn_cases py hknows w.text with
          ⟨hle, hturn⟩ | ⟨-, ⟨color, hwrong⟩, hturn⟩ | ⟨hless, wait', hturn, hknows', hcolor, hcount'⟩
        · rw [hcount] at hle
          exact .inl ⟨fun h => absurd h.count (not_lt.mpr hle), _, hturn⟩
        · exact .inl ⟨fun h => hwrong (readingsOf_append text windows w ▸ h.accepts color), _, hturn⟩
        · rw [← readingsOf_append] at hknows'
          rw [hcount] at hless hcount'
          refine .inr ⟨⟨hundecided.basic, hless, hknows'.accepts⟩, wait', hturn, hknows', ?_, hcount'⟩
          rw [hcolor, lastText, List.map_append, List.map_singleton, List.getLastD_concat]

/-! ## Streams -/

/-- The check returns after finitely many matches. -/
def Returns (check : SampleCheck σ) (py : PyUnicode) (text : List Char)
    (stream : Nat → Window Char) : Prop :=
  ∃ n code, check.after py text (firstMatches stream n) = .inr code

/-- What decides: the limit is reached, or a size is wrong. -/
theorem returns_iff (hlimit : 0 < check.limit) (text : List Char) (stream : Nat → Window Char) :
    check.Returns py text stream ↔ basicCheck py text ≠ .ok ∨
      ∃ n, check.limit ≤ counted py text (firstMatches stream n) ∨
        ∃ color, ¬check.Accepts
          (sizesOf color (readingsOf py (textsOf text (firstMatches stream n)))) := by
  constructor
  · rintro ⟨n, code, hreturn⟩
    rcases after_cases py hlimit text (firstMatches stream n) with
      ⟨hdecided, -⟩ | ⟨-, wait, hwait, -⟩
    · by_contra hnone
      push Not at hnone
      obtain ⟨hbasic, hmore⟩ := hnone
      exact hdecided ⟨hbasic, (hmore n).1, (hmore n).2⟩
    · rw [hreturn] at hwait
      cases hwait
  · intro h
    have hsome : ∃ n, ¬check.Undecided py text (firstMatches stream n) := by
      rcases h with hbasic | ⟨n, hle | ⟨color, hwrong⟩⟩
      · exact ⟨0, fun h => hbasic h.basic⟩
      · exact ⟨n, fun h => absurd h.count (not_lt.mpr hle)⟩
      · exact ⟨n, fun h => hwrong (h.accepts color)⟩
    obtain ⟨n, hdecided⟩ := hsome
    rcases after_cases py hlimit text (firstMatches stream n) with
      ⟨-, code, hcode⟩ | ⟨hundecided, -⟩
    · exact ⟨n, code, hcode⟩
    · exact absurd hundecided hdecided

end SampleCheck

end DdsRtps.Harness
