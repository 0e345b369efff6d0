/-
# `DdsRtps.ShapeMain.Drain` — reading until nothing is left

In an iteration `run_subscriber` reads every topic until a call returns no data:
with `take` or `read`, of all instances or of the next one, in
srcCxx/shape_main.cxx without a bound on the samples of a call and in
srcC/shape_main.c with `MAX_SAMPLES`.  Both ask for samples in any state, so a
`read` returns what it has returned before.

The readers are not part of the sources; `DataReader.Lawful` is what the loops
rely on: a call returns some of the samples that there are, and not more than it
is asked for.  A reader that is taken from gets empty, and one that is read instance
by instance runs out of instances.  One that is read as a whole does not change
at all, so `read` goes on for ever; and the next instance is asked for, whether
or not all samples of this one were returned (`drains_iff`).
-/
import DdsRtps.Harness.SampleLines
import DdsRtps.Lib.ByKey
import DdsRtps.Lib.Loop

namespace DdsRtps.ShapeMain

open ByKey
open Harness (OutputLine Received padded samplesOf)
open Hdds (ShapeType)

/-! ## Readers -/

inductive InstanceState where
  | alive
  | notAliveNoWriters
  | notAliveDisposed
deriving DecidableEq, Repr

/-- A sample with what `SampleInfo` says of it. -/
structure Fetched (H : Type) where
  instanceHandle : H
  validData : Bool
  instanceState : InstanceState
  sample : ShapeType
deriving DecidableEq, Repr

/-- The calls on a `DataReader`, for samples in any state.  The bound `none` is
`LENGTH_UNLIMITED`, the handle `none` is `HANDLE_NIL`, and no samples are
`RETCODE_NO_DATA`. -/
structure DataReader (H σ : Type) where
  take : Option Nat → σ → List (Fetched H) × σ
  read : Option Nat → σ → List (Fetched H) × σ
  takeNextInstance : Option Nat → Option H → σ → List (Fetched H) × σ
  readNextInstance : Option Nat → Option H → σ → List (Fetched H) × σ
  getKeyValue : H → String

section Laws

variable {H σ : Type} [LinearOrder H]

/-- The samples of an instance. -/
def ofInstance (h : H) (cache : List (Fetched H)) : List (Fetched H) :=
  ofKey Fetched.instanceHandle h cache

/-- The smallest instance behind a handle. -/
def nextHandle (previous : Option H) (cache : List (Fetched H)) : Option H :=
  nextKey Fetched.instanceHandle previous cache

/-- What a call returns of the samples that there are for it: some of them, at least one
if there is one, and no more than the bound. -/
structure Portion (n : Option Nat) (available returned : List (Fetched H)) : Prop where
  subperm : returned.Subperm available
  ne_nil : n ≠ some 0 → available ≠ [] → returned ≠ []
  atMost : ∀ m ∈ n, returned.length ≤ m

omit [LinearOrder H] in
theorem Portion.exists_others {n : Option Nat} {available returned : List (Fetched H)}
    (h : Portion n available returned) : ∃ others, available.Perm (returned ++ others) := by
  obtain ⟨same, hsame, hsub⟩ := h.subperm
  obtain ⟨others, hothers⟩ := hsub.exists_perm_append
  exact ⟨others, hothers.trans (hsame.append_right others)⟩

/-- What the calls do to the content of the cache: `take` removes what it returns,
`read` keeps it, the others return samples of the next instance. -/
structure DataReader.Lawful (reader : DataReader H σ) (contents : σ → List (Fetched H)) :
    Prop where
  take (n : Option Nat) (s : σ) :
    Portion n (contents s) (reader.take n s).1 ∧
      ((reader.take n s).1 ++ contents (reader.take n s).2).Perm (contents s)
  read (n : Option Nat) (s : σ) :
    Portion n (contents s) (reader.read n s).1 ∧ contents (reader.read n s).2 = contents s
  takeNextInstance_none {n : Option Nat} {previous : Option H} {s : σ}
      (h : nextHandle previous (contents s) = none) :
    (reader.takeNextInstance n previous s).1 = []
  takeNextInstance_some {n : Option Nat} {previous : Option H} {s : σ} {h : H}
      (hnext : nextHandle previous (contents s) = some h) :
    Portion n (ofInstance h (contents s)) (reader.takeNextInstance n previous s).1 ∧
      ((reader.takeNextInstance n previous s).1 ++
        ofInstance h (contents (reader.takeNextInstance n previous s).2)).Perm
          (ofInstance h (contents s)) ∧
      ∀ h', h' ≠ h → ofInstance h' (contents (reader.takeNextInstance n previous s).2) =
        ofInstance h' (contents s)
  readNextInstance_none {n : Option Nat} {previous : Option H} {s : σ}
      (h : nextHandle previous (contents s) = none) :
    (reader.readNextInstance n previous s).1 = []
  readNextInstance_some {n : Option Nat} {previous : Option H} {s : σ} {h : H}
      (hnext : nextHandle previous (contents s) = some h) :
    Portion n (ofInstance h (contents s)) (reader.readNextInstance n previous s).1 ∧
      contents (reader.readNextInstance n previous s).2 = contents s

/-- A reader that returns, of an instance, all that there is up to the bound. -/
structure DataReader.Eager (reader : DataReader H σ) (contents : σ → List (Fetched H)) :
    Prop where
  takeNextInstance {n : Option Nat} {previous : Option H} {s : σ} {h : H}
      (hnext : nextHandle previous (contents s) = some h) :
    (reader.takeNextInstance n previous s).1 = upTo n (ofInstance h (contents s))
  readNextInstance {n : Option Nat} {previous : Option H} {s : σ} {h : H}
      (hnext : nextHandle previous (contents s) = some h) :
    (reader.readNextInstance n previous s).1 = upTo n (ofInstance h (contents s))

end Laws

/-! ## The code -/

/-- What the loop reads of `ShapeOptions`. -/
structure ReadOptions where
  useRead : Bool
  takeReadNextInstance : Bool
deriving DecidableEq, Repr

/-- The state of a `do`-`while` loop: the reader, the last handle and what was printed. -/
structure Draining (H σ : Type) where
  reader : σ
  previousHandle : Option H
  output : List OutputLine

/-- `MAX_SAMPLES`. -/
def C.maxSamples : Nat := 500

section Code

variable {H σ : Type}

/-- `%-10s %-10s NOT_ALIVE_...`, for an instance that is not alive. -/
def notAliveLine (topic color : String) : InstanceState → List OutputLine
  | .alive => []
  | .notAliveNoWriters =>
      [.other (padded .cxx topic ++ [' '] ++ padded .cxx color ++
        " NOT_ALIVE_NO_WRITERS_INSTANCE_STATE".toList)]
  | .notAliveDisposed =>
      [.other (padded .cxx topic ++ [' '] ++ padded .cxx color ++
        " NOT_ALIVE_DISPOSED_INSTANCE_STATE".toList)]

/-- What is printed of a sample; `color` is that of its key. -/
def Fetched.lines (topic : String) (color : Fetched H → String) (f : Fetched H) :
    List OutputLine :=
  (if f.validData then [.sample ⟨topic, f.sample⟩] else []) ++
    notAliveLine topic (color f) f.instanceState

variable (options : ReadOptions) (reader : DataReader H σ) (maxSamples : Option Nat)
  (color : Fetched H → String)

/-- The call that the options ask for. -/
def fetch (previous : Option H) (s : σ) : List (Fetched H) × σ :=
  if !options.useRead then
    if options.takeReadNextInstance then reader.takeNextInstance maxSamples previous s
    else reader.take maxSamples s
  else if options.takeReadNextInstance then reader.readNextInstance maxSamples previous s
  else reader.read maxSamples s

/-- One turn: the samples of a call are printed, and the handle of the first is kept. -/
def drainTurn (topic : String) (d : Draining H σ) : Draining H σ ⊕ List OutputLine :=
  match fetch options reader maxSamples d.previousHandle d.reader with
  | ([], _) => .inr d.output
  | (f :: fs, s) =>
      .inl ⟨s, some f.instanceHandle, d.output ++ (f :: fs).flatMap (Fetched.lines topic color)⟩

/-- The loop over one topic. -/
def drainTopic (fuel : Nat) (topic : String) (s : σ) : Option (List OutputLine) :=
  Loop.run (drainTurn options reader maxSamples color topic) fuel ⟨s, none, []⟩

/-- The loop over all topics, each with its reader. -/
def drainTopics (fuel : Nat) (topics : List (String × σ)) : Option (List OutputLine) :=
  (topics.mapM fun (topic, s) => drainTopic options reader maxSamples color fuel topic s).map
    List.flatten

/-- The loops of `run_subscriber` in srcCxx/shape_main.cxx; where a product has no
`get_key_value`, the color is one that was printed before. -/
def Cxx.drain (fuel : Nat) (topics : List (String × σ)) : Option (List OutputLine) :=
  drainTopics options reader none (fun f => reader.getKeyValue f.instanceHandle) fuel topics

/-- The loops of `run_subscriber` in srcC/shape_main.c. -/
def C.drain (fuel : Nat) (topics : List (String × σ)) : Option (List OutputLine) :=
  drainTopics options reader (some C.maxSamples) (fun f => f.sample.color) fuel topics

end Code

/-! ## What is delivered -/

section Delivery

variable {H σ : Type}

/-- The samples with data, as the subscriber of a topic receives them. -/
def received (topic : String) (cache : List (Fetched H)) : List Received :=
  (cache.filter Fetched.validData).map fun f => ⟨topic, f.sample⟩

/-- The samples with data in all caches. -/
def validSamples (contents : σ → List (Fetched H)) (topics : List (String × σ)) : List Received :=
  topics.flatMap fun (topic, s) => received topic (contents s)

/-- The loops end, and every sample with data was printed once. -/
def Delivers (contents : σ → List (Fetched H)) (topics : List (String × σ))
    (drain : Nat → List (String × σ) → Option (List OutputLine)) : Prop :=
  ∃ fuel output, drain fuel topics = some output ∧
    (samplesOf output).Perm (validSamples contents topics)

theorem received_append (topic : String) (fs fs' : List (Fetched H)) :
    received topic (fs ++ fs') = received topic fs ++ received topic fs' := by
  rw [received, List.filter_append, List.map_append, received, received]

theorem received_eq_nil_iff {topic : String} {fs : List (Fetched H)} :
    received topic fs = [] ↔ ∀ f ∈ fs, f.validData = false := by
  rw [received, List.map_eq_nil_iff, List.filter_eq_nil_iff]
  simp only [Bool.not_eq_true]

theorem samplesOf_append (lines lines' : List OutputLine) :
    samplesOf (lines ++ lines') = samplesOf lines ++ samplesOf lines' :=
  List.filterMap_append

/-- What is printed of some samples are those with data. -/
theorem samplesOf_lines (topic : String) (color : Fetched H → String) (fs : List (Fetched H)) :
    samplesOf (fs.flatMap (Fetched.lines topic color)) = received topic fs := by
  induction fs with
  | nil => rfl
  | cons f fs ih =>
      have hnone : ∀ state, samplesOf (notAliveLine topic (color f) state) = [] := by
        intro state
        cases state <;> rfl
      have hone : samplesOf (if f.validData then [.sample ⟨topic, f.sample⟩] else []) =
          received topic [f] := by
        rw [received, List.filter_singleton]
        cases f.validData <;> rfl
      rw [List.flatMap_cons, samplesOf_append, ih, Fetched.lines, samplesOf_append, hnone,
        List.append_nil, hone, ← received_append, List.singleton_append]

end Delivery

/-! ## One topic -/

section Topic

variable {H σ : Type} {options : ReadOptions} {reader : DataReader H σ}
  {maxSamples : Option Nat} {color : Fetched H → String} {topic : String}

theorem drainTurn_of_nil {d : Draining H σ}
    (h : (fetch options reader maxSamples d.previousHandle d.reader).1 = []) :
    drainTurn options reader maxSamples color topic d = .inr d.output := by
  rw [drainTurn]
  cases hfetch : fetch options reader maxSamples d.previousHandle d.reader with
  | mk fs s =>
      rw [hfetch] at h
      obtain rfl : fs = [] := h
      rfl

theorem drainTurn_of_cons {d : Draining H σ} {f : Fetched H} {fs : List (Fetched H)}
    (h : (fetch options reader maxSamples d.previousHandle d.reader).1 = f :: fs) :
    drainTurn options reader maxSamples color topic d =
      .inl ⟨(fetch options reader maxSamples d.previousHandle d.reader).2, some f.instanceHandle,
        d.output ++ (f :: fs).flatMap (Fetched.lines topic color)⟩ := by
  rw [drainTurn]
  cases hfetch : fetch options reader maxSamples d.previousHandle d.reader with
  | mk fs' s =>
      rw [hfetch] at h
      obtain rfl : fs' = f :: fs := h
      rfl

variable [LinearOrder H] {contents : σ → List (Fetched H)}

variable (color topic) in
/-- `take` empties the cache, some samples at a time. -/
theorem run_take (h : reader.Lawful contents) (htake : options.useRead = false)
    (hall : options.takeReadNextInstance = false) (hbound : maxSamples ≠ some 0) :
    ∀ (n : Nat) (d : Draining H σ), (contents d.reader).length ≤ n →
      ∃ taken : List (Fetched H),
        Loop.run (drainTurn options reader maxSamples color topic) (n + 1) d =
          some (d.output ++ taken.flatMap (Fetched.lines topic color)) ∧
        taken.Perm (contents d.reader) := by
  have hfetch : ∀ previous s, fetch options reader maxSamples previous s =
      reader.take maxSamples s := by
    intro previous s
    rw [fetch, htake, hall]
    rfl
  -- nothing is returned where nothing is left
  have hempty : ∀ d : Draining H σ,
      (fetch options reader maxSamples d.previousHandle d.reader).1 = [] →
        contents d.reader = [] := by
    intro d hgot
    rw [hfetch] at hgot
    by_contra hne
    exact (h.take maxSamples d.reader).1.ne_nil hbound hne hgot
  intro n
  induction n with
  | zero =>
      intro d hle
      have hnil := List.eq_nil_of_length_eq_zero (Nat.le_zero.mp hle)
      have hnone : (fetch options reader maxSamples d.previousHandle d.reader).1 = [] := by
        have hsub := (h.take maxSamples d.reader).1.subperm
        rw [hnil, List.subperm_nil] at hsub
        rw [hfetch, hsub]
      refine ⟨[], ?_, hnil ▸ .nil⟩
      rw [Loop.run_succ_inr (drainTurn_of_nil hnone), List.flatMap_nil, List.append_nil]
  | succ n ih =>
      intro d hle
      cases hgot : (fetch options reader maxSamples d.previousHandle d.reader).1 with
      | nil =>
          refine ⟨[], ?_, hempty d hgot ▸ .nil⟩
          rw [Loop.run_succ_inr (drainTurn_of_nil hgot), List.flatMap_nil, List.append_nil]
      | cons f fs =>
          have hperm := (h.take maxSamples d.reader).2
          rw [← hfetch d.previousHandle, hgot] at hperm
          have hless : (contents
              (fetch options reader maxSamples d.previousHandle d.reader).2).length ≤ n := by
            have hlength := hperm.length_eq
            rw [List.length_append, List.length_cons] at hlength
            omega
          obtain ⟨taken, hrun, htaken⟩ := ih
            ⟨(fetch options reader maxSamples d.previousHandle d.reader).2,
              some f.instanceHandle,
              d.output ++ (f :: fs).flatMap (Fetched.lines topic color)⟩ hless
          refine ⟨f :: fs ++ taken, ?_, (htaken.append_left _).trans hperm⟩
          rw [Loop.run_succ_inl (drainTurn_of_cons hgot), hrun, List.append_assoc,
            List.flatMap_append]

/-- `read` prints the same samples again and again. -/
theorem run_read (h : reader.Lawful contents) (hread : options.useRead = true)
    (hall : options.takeReadNextInstance = false) (hbound : maxSamples ≠ some 0) (n : Nat)
    (d : Draining H σ) (hne : contents d.reader ≠ []) :
    Loop.run (drainTurn options reader maxSamples color topic) n d = none := by
  have hfetch : ∀ previous s, fetch options reader maxSamples previous s =
      reader.read maxSamples s := by
    intro previous s
    rw [fetch, hread, hall]
    rfl
  refine Loop.run_eq_none_of_inv (fun d => contents d.reader ≠ []) ?_ n d hne
  intro d hne
  obtain ⟨hportion, hkept⟩ := h.read maxSamples d.reader
  cases hgot : (fetch options reader maxSamples d.previousHandle d.reader).1 with
  | nil =>
      rw [hfetch] at hgot
      exact absurd hgot (hportion.ne_nil hbound hne)
  | cons f fs =>
      refine ⟨_, drainTurn_of_cons hgot, ?_⟩
      simp only [hfetch, hkept]
      exact hne

variable (maxSamples) in
theorem fetch_next_none (h : reader.Lawful contents) (hnext : options.takeReadNextInstance = true)
    {previous : Option H} {s : σ} (hnone : nextHandle previous (contents s) = none) :
    (fetch options reader maxSamples previous s).1 = [] := by
  rw [fetch, hnext]
  cases options.useRead with
  | false => exact h.takeNextInstance_none hnone
  | true => exact h.readNextInstance_none hnone

variable (maxSamples) in
/-- Taken or read, the other instances stay as they are. -/
theorem fetch_next_some (h : reader.Lawful contents) (hnext : options.takeReadNextInstance = true)
    {previous : Option H} {s : σ} {k : H} (hsome : nextHandle previous (contents s) = some k) :
    Portion maxSamples (ofInstance k (contents s))
        (fetch options reader maxSamples previous s).1 ∧
      ∀ k', k' ≠ k → ofInstance k' (contents (fetch options reader maxSamples previous s).2) =
        ofInstance k' (contents s) := by
  rw [fetch, hnext]
  cases options.useRead with
  | false =>
      obtain ⟨hportion, -, hothers⟩ := h.takeNextInstance_some (n := maxSamples) hsome
      exact ⟨hportion, hothers⟩
  | true =>
      obtain ⟨hportion, hkept⟩ := h.readNextInstance_some (n := maxSamples) hsome
      exact ⟨hportion, fun k' _ => congrArg (ofInstance k') hkept⟩

variable (maxSamples) in
theorem fetch_next_eager (h : reader.Eager contents) (hnext : options.takeReadNextInstance = true)
    {previous : Option H} {s : σ} {k : H} (hsome : nextHandle previous (contents s) = some k) :
    (fetch options reader maxSamples previous s).1 =
      upTo maxSamples (ofInstance k (contents s)) := by
  rw [fetch, hnext]
  cases options.useRead with
  | false => exact h.takeNextInstance hsome
  | true => exact h.readNextInstance hsome

/-- These are the instances of the cache behind a handle, in their order. -/
structure IsTodo (cache : List (Fetched H)) (previous : Option H) (todo : List H) : Prop where
  sorted : todo.Pairwise (· < ·)
  mem_iff : ∀ k, k ∈ todo ↔ after previous k = true ∧ ofInstance k cache ≠ []

section Todo

variable {cache cache' : List (Fetched H)} {previous : Option H} {k : H} {todo : List H}

theorem isTodo_sortedKeys (cache : List (Fetched H)) :
    IsTodo cache none (sortedKeys Fetched.instanceHandle cache) where
  sorted := pairwise_sortedKeys Fetched.instanceHandle cache
  mem_iff k := by
    rw [mem_sortedKeys_iff, ofInstance, ofKey_ne_nil_iff]
    exact (and_iff_right rfl).symm

theorem IsTodo.nextHandle_nil (h : IsTodo cache previous []) :
    nextHandle previous cache = none := by
  refine nextKey_eq_none_iff.mpr fun k hk => ?_
  by_contra hafter
  have hin := (h.mem_iff k).mpr ⟨by simpa using hafter, ofKey_ne_nil_iff.mpr hk⟩
  exact List.not_mem_nil hin

theorem IsTodo.nextHandle_cons (h : IsTodo cache previous (k :: todo)) :
    nextHandle previous cache = some k := by
  obtain ⟨hafter, hne⟩ := (h.mem_iff k).mp List.mem_cons_self
  refine nextKey_eq_some_iff.mpr ⟨⟨ofKey_ne_nil_iff.mp hne, hafter⟩, fun k' hk' hafter' => ?_⟩
  rcases List.mem_cons.mp ((h.mem_iff k').mpr ⟨hafter', ofKey_ne_nil_iff.mpr hk'⟩) with rfl | hk'
  · exact le_rfl
  · exact (List.rel_of_pairwise_cons h.sorted hk').le

/-- Behind the first of them, the others are. -/
theorem IsTodo.tail (h : IsTodo cache previous (k :: todo))
    (hothers : ∀ k', k' ≠ k → ofInstance k' cache' = ofInstance k' cache) :
    IsTodo cache' (some k) todo where
  sorted := h.sorted.of_cons
  mem_iff k' := by
    simp only [after, Option.all_some, decide_eq_true_eq]
    constructor
    · intro hk'
      have hlt : k < k' := List.rel_of_pairwise_cons h.sorted hk'
      obtain ⟨-, hne⟩ := (h.mem_iff k').mp (List.mem_cons_of_mem k hk')
      exact ⟨hlt, by rwa [hothers k' hlt.ne']⟩
    · rintro ⟨hlt, hne⟩
      rw [hothers k' hlt.ne'] at hne
      obtain ⟨hafter, -⟩ := (h.mem_iff k).mp List.mem_cons_self
      exact (List.mem_cons.mp ((h.mem_iff k').mpr ⟨after_trans hafter hlt, hne⟩)).resolve_left
        hlt.ne'

end Todo

variable (options reader maxSamples) in
/-- What the calls return when these instances are the next, one after the other. -/
def answers : List H → Option H → σ → List (List (Fetched H))
  | [], _, _ => []
  | k :: todo, previous, s =>
      (fetch options reader maxSamples previous s).1 ::
        answers todo (some k) (fetch options reader maxSamples previous s).2

variable (maxSamples) in
/-- Each instance is answered with samples of its own, since what the call for another has
changed are those of the other. -/
theorem portions_answers (h : reader.Lawful contents) (hnext : options.takeReadNextInstance = true)
    {todo : List H} {previous : Option H} {s : σ} (htodo : IsTodo (contents s) previous todo) :
    List.Forall₂ (fun k fs => Portion maxSamples (ofInstance k (contents s)) fs) todo
      (answers options reader maxSamples todo previous s) := by
  induction todo generalizing previous s with
  | nil => exact .nil
  | cons k todo ih =>
      obtain ⟨hportion, hothers⟩ := fetch_next_some maxSamples h hnext htodo.nextHandle_cons
      refine .cons hportion ?_
      have hrest := ih (htodo.tail hothers)
      rw [List.forall₂_iff_get] at hrest ⊢
      refine ⟨hrest.1, fun i hi hi' => ?_⟩
      have hone := hrest.2 i hi hi'
      have hbehind := List.rel_of_pairwise_cons htodo.sorted (List.get_mem todo ⟨i, hi⟩)
      rwa [hothers _ hbehind.ne'] at hone

theorem answers_eager (h : reader.Lawful contents) (heager : reader.Eager contents)
    (hnext : options.takeReadNextInstance = true) {todo : List H} {previous : Option H} {s : σ}
    (htodo : IsTodo (contents s) previous todo) :
    answers options reader maxSamples todo previous s =
      todo.map fun k => upTo maxSamples (ofInstance k (contents s)) := by
  induction todo generalizing previous s with
  | nil => rfl
  | cons k todo ih =>
      obtain ⟨-, hothers⟩ := fetch_next_some maxSamples h hnext htodo.nextHandle_cons
      rw [answers, ih (htodo.tail hothers), List.map_cons,
        fetch_next_eager maxSamples heager hnext htodo.nextHandle_cons]
      refine congrArg _ (List.map_congr_left fun k' hk' => ?_)
      rw [hothers k' (List.rel_of_pairwise_cons htodo.sorted hk').ne']

variable (color topic) in
/-- The instances behind the last handle are met in order, and what is returned for each is
printed. -/
theorem run_next (h : reader.Lawful contents) (hnext : options.takeReadNextInstance = true)
    (hbound : maxSamples ≠ some 0) {todo : List H} {d : Draining H σ}
    (htodo : IsTodo (contents d.reader) d.previousHandle todo) :
    Loop.run (drainTurn options reader maxSamples color topic) (todo.length + 1) d =
      some (d.output ++ (answers options reader maxSamples todo d.previousHandle
        d.reader).flatten.flatMap (Fetched.lines topic color)) := by
  induction todo generalizing d with
  | nil =>
      have hnone := fetch_next_none maxSamples h hnext htodo.nextHandle_nil
      rw [Loop.run_succ_inr (drainTurn_of_nil hnone), answers, List.flatten_nil, List.flatMap_nil,
        List.append_nil]
  | cons k todo ih =>
      obtain ⟨-, hne⟩ := (htodo.mem_iff k).mp List.mem_cons_self
      obtain ⟨hportion, hothers⟩ := fetch_next_some maxSamples h hnext htodo.nextHandle_cons
      cases hgot : (fetch options reader maxSamples d.previousHandle d.reader).1 with
      | nil => exact absurd hgot (hportion.ne_nil hbound hne)
      | cons f fs =>
          have hhandle : f.instanceHandle = k := by
            have hmem : f ∈ (fetch options reader maxSamples d.previousHandle d.reader).1 := by
              rw [hgot]
              exact List.mem_cons_self
            exact (mem_ofKey_iff.mp (hportion.subperm.subset hmem)).2
          subst hhandle
          rw [List.length_cons, Loop.run_succ_inl (drainTurn_of_cons hgot), ih (htodo.tail hothers),
            answers, hgot, List.flatten_cons, List.flatMap_append, List.append_assoc]

/-! ## What is left behind -/

variable (options reader maxSamples contents) in
/-- For each instance, in order, as many samples with data are returned as there are. -/
def InFull (s : σ) : Prop :=
  List.Forall₂ (fun k fs => fs.countP Fetched.validData =
      (ofInstance k (contents s)).countP Fetched.validData)
    (sortedKeys Fetched.instanceHandle (contents s))
    (answers options reader maxSamples (sortedKeys Fetched.instanceHandle (contents s)) none s)

/-- Without a bound, and up to it, a reader that gives all it has is in full. -/
theorem inFull_iff_of_eager (h : reader.Lawful contents) (heager : reader.Eager contents)
    (hnext : options.takeReadNextInstance = true) {s : σ} :
    InFull options reader maxSamples contents s ↔
      ∀ k, ∀ f ∈ behind maxSamples (ofInstance k (contents s)), f.validData = false := by
  rw [InFull, answers_eager h heager hnext (isTodo_sortedKeys (contents s)),
    List.forall₂_map_right_iff, List.forall₂_same]
  have hsplit : ∀ k, (upTo maxSamples (ofInstance k (contents s))).countP Fetched.validData =
      (ofInstance k (contents s)).countP Fetched.validData ↔
        ∀ f ∈ behind maxSamples (ofInstance k (contents s)), f.validData = false := by
    intro k
    have hcount := congrArg (List.countP Fetched.validData)
      (upTo_append_behind maxSamples (ofInstance k (contents s)))
    rw [List.countP_append] at hcount
    rw [← hcount, Nat.left_eq_add, List.countP_eq_zero]
    simp only [Bool.not_eq_true]
  constructor
  · intro hall k f hf
    have hkey : k ∈ sortedKeys Fetched.instanceHandle (contents s) :=
      mem_sortedKeys_iff.mpr (ofKey_ne_nil_iff.mp (List.ne_nil_of_mem (mem_of_mem_behind hf)))
    exact (hsplit k).mp (hall k hkey) f hf
  · exact fun hall k _ => (hsplit k).mpr (hall k)

/-- A call returns no data in the end: samples are taken, or one instance is asked for after
the other, or there is nothing from the start. -/
def RunsOut (options : ReadOptions) (cache : List (Fetched H)) : Prop :=
  options.takeReadNextInstance = true ∨ options.useRead = false ∨ cache = []

theorem drainTopic_of_not_runsOut (h : reader.Lawful contents) (hbound : maxSamples ≠ some 0)
    {s : σ} (hout : ¬RunsOut options (contents s)) (fuel : Nat) :
    drainTopic options reader maxSamples color fuel topic s = none := by
  rw [RunsOut, not_or, not_or, Bool.not_eq_true, Bool.not_eq_false] at hout
  obtain ⟨hall, hread, hne⟩ := hout
  exact run_read h hread hall hbound fuel ⟨s, none, []⟩ hne

/-- Of what is returned for the instances, and what is not, there is nothing to add where all
calls return in full. -/
theorem exists_leftBehind (topic : String) {keys : List H} {cache : List (Fetched H)}
    {returned : List (List (Fetched H))}
    (h : List.Forall₂ (fun k fs => Portion maxSamples (ofInstance k cache) fs) keys returned) :
    ∃ left, (received topic returned.flatten ++ left).Perm
        (received topic (keys.flatMap fun k => ofInstance k cache)) ∧
      (left = [] ↔ List.Forall₂ (fun k fs => fs.countP Fetched.validData =
        (ofInstance k cache).countP Fetched.validData) keys returned) := by
  induction h with
  | nil => exact ⟨[], .nil, iff_of_true rfl .nil⟩
  | @cons k fs keys returned hportion _ ih =>
      obtain ⟨left, hperm, hleft⟩ := ih
      obtain ⟨rest, hrest⟩ := hportion.exists_others
      have hvalid : (received topic fs ++ received topic rest).Perm
          (received topic (ofInstance k cache)) := by
        rw [← received_append]
        exact ((hrest.filter Fetched.validData).map _).symm
      refine ⟨received topic rest ++ left, ?_, ?_⟩
      · rw [List.flatten_cons, List.flatMap_cons, received_append, received_append,
          List.append_assoc]
        refine .trans ?_ (hvalid.append hperm)
        rw [List.append_assoc]
        exact (List.perm_append_comm_assoc _ _ _).append_left _
      · have hcount := hrest.countP_eq Fetched.validData
        rw [List.countP_append] at hcount
        rw [List.append_eq_nil_iff, hleft, List.forall₂_cons, hcount, Nat.left_eq_add,
          received_eq_nil_iff, List.countP_eq_zero]
        simp only [Bool.not_eq_true]

variable (color topic) in
/-- Where the loop ends, the samples with data are printed or left behind. -/
theorem drainTopic_of_runsOut (h : reader.Lawful contents) (hbound : maxSamples ≠ some 0) {s : σ}
    (hout : RunsOut options (contents s)) :
    ∃ fuel output left, drainTopic options reader maxSamples color fuel topic s = some output ∧
      (samplesOf output ++ left).Perm (received topic (contents s)) ∧
      (left = [] ↔ (options.takeReadNextInstance = true →
        InFull options reader maxSamples contents s)) := by
  cases hnext : options.takeReadNextInstance with
  | false =>
      cases hread : options.useRead with
      | false =>
          obtain ⟨taken, hrun, htaken⟩ := run_take color topic h hread hnext
            hbound (contents s).length ⟨s, none, []⟩ le_rfl
          refine ⟨_, _, [], hrun, ?_, iff_of_true rfl nofun⟩
          rw [List.append_nil, List.nil_append, samplesOf_lines]
          exact (htaken.filter Fetched.validData).map _
      | true =>
          have hnil : contents s = [] := by
            rcases hout with hout | hout | hout
            · rw [hnext] at hout
              cases hout
            · rw [hread] at hout
              cases hout
            · exact hout
          have hnone : (fetch options reader maxSamples none s).1 = [] := by
            have hsub := (h.read maxSamples s).1.subperm
            rw [hnil, List.subperm_nil] at hsub
            rw [fetch, hread, hnext]
            exact hsub
          refine ⟨1, _, [], Loop.run_succ_inr (drainTurn_of_nil hnone), ?_, iff_of_true rfl nofun⟩
          rw [hnil]
          exact .nil
  | true =>
      have htodo := isTodo_sortedKeys (contents s)
      have hrun := run_next color topic h hnext hbound (d := ⟨s, none, []⟩) htodo
      obtain ⟨left, hperm, hleft⟩ :=
        exists_leftBehind topic (portions_answers maxSamples h hnext htodo)
      refine ⟨_, _, left, hrun, ?_, hleft.trans ⟨fun hall _ => hall, fun hall => hall rfl⟩⟩
      have hsorted := pairwise_sortedKeys Fetched.instanceHandle (contents s)
      have hwhole := perm_flatMap_ofKey (hsorted.imp ne_of_lt) fun f hf =>
        mem_sortedKeys_iff.mpr (List.mem_map_of_mem hf)
      rw [List.nil_append, samplesOf_lines]
      exact hperm.trans ((hwhole.filter Fetched.validData).map _)

end Topic

/-! ## All topics -/

section Topics

variable {H σ : Type} {options : ReadOptions} {reader : DataReader H σ}
  {maxSamples : Option Nat} {color : Fetched H → String}

theorem drainTopics_cons (fuel : Nat) (topic : String) (s : σ) (topics : List (String × σ)) :
    drainTopics options reader maxSamples color fuel ((topic, s) :: topics) =
      (drainTopic options reader maxSamples color fuel topic s).bind fun output =>
        (drainTopics options reader maxSamples color fuel topics).map (output ++ ·) := by
  simp only [drainTopics, List.mapM_cons]
  cases drainTopic options reader maxSamples color fuel topic s with
  | none => rfl
  | some output =>
      cases topics.mapM fun (topic, s) =>
          drainTopic options reader maxSamples color fuel topic s with
      | none => rfl
      | some outputs => rfl

theorem drainTopics_le {fuel fuel' : Nat} {topics : List (String × σ)} {output : List OutputLine}
    (h : drainTopics options reader maxSamples color fuel topics = some output)
    (hle : fuel ≤ fuel') :
    drainTopics options reader maxSamples color fuel' topics = some output := by
  induction topics generalizing output with
  | nil => exact h
  | cons t topics ih =>
      obtain ⟨topic, s⟩ := t
      rw [drainTopics_cons] at h ⊢
      obtain ⟨first, hfirst, h⟩ := Option.bind_eq_some_iff.mp h
      obtain ⟨rest, hrest, rfl⟩ := Option.map_eq_some_iff.mp h
      have hfirst' : drainTopic options reader maxSamples color fuel' topic s = some first :=
        Loop.run_le hfirst hle
      rw [hfirst', ih hrest]
      rfl

variable [LinearOrder H] {contents : σ → List (Fetched H)}

variable (color) in
/-- Where all loops end, the samples with data are printed or left behind. -/
theorem drainTopics_of_runsOut (h : reader.Lawful contents) (hbound : maxSamples ≠ some 0)
    {topics : List (String × σ)} (hout : ∀ t ∈ topics, RunsOut options (contents t.2)) :
    ∃ fuel output left, drainTopics options reader maxSamples color fuel topics = some output ∧
      (samplesOf output ++ left).Perm (validSamples contents topics) ∧
      (left = [] ↔ ∀ t ∈ topics, options.takeReadNextInstance = true →
        InFull options reader maxSamples contents t.2) := by
  induction topics with
  | nil => exact ⟨0, [], [], rfl, .nil, iff_of_true rfl nofun⟩
  | cons t topics ih =>
      obtain ⟨topic, s⟩ := t
      obtain ⟨hfirst, hrest⟩ := List.forall_mem_cons.mp hout
      obtain ⟨fuel, output, left, hdrain, hperm, hleft⟩ := ih hrest
      obtain ⟨fuel', output', left', hdrain', hperm', hleft'⟩ :=
        drainTopic_of_runsOut color topic h hbound hfirst
      have hboth : drainTopics options reader maxSamples color (max fuel fuel')
          ((topic, s) :: topics) = some (output' ++ output) := by
        have hfirst' : drainTopic options reader maxSamples color (max fuel fuel') topic s =
            some output' := Loop.run_le hdrain' (le_max_right _ _)
        rw [drainTopics_cons, hfirst', drainTopics_le hdrain (le_max_left _ _)]
        rfl
      refine ⟨_, _, left' ++ left, hboth, ?_, ?_⟩
      · rw [samplesOf_append, validSamples, List.flatMap_cons]
        refine .trans ?_ (hperm'.append hperm)
        rw [List.append_assoc, List.append_assoc]
        exact (List.perm_append_comm_assoc _ _ _).append_left _
      · rw [List.append_eq_nil_iff, hleft, hleft', List.forall_mem_cons]

theorem drainTopics_of_not_runsOut (h : reader.Lawful contents) (hbound : maxSamples ≠ some 0)
    {topics : List (String × σ)} {t : String × σ} (ht : t ∈ topics)
    (hout : ¬RunsOut options (contents t.2)) (fuel : Nat) :
    drainTopics options reader maxSamples color fuel topics = none := by
  induction topics with
  | nil => cases ht
  | cons t' topics ih =>
      obtain ⟨topic, s⟩ := t'
      rw [drainTopics_cons]
      rcases List.mem_cons.mp ht with rfl | ht
      · rw [drainTopic_of_not_runsOut h hbound hout]
        rfl
      · rw [ih ht]
        cases drainTopic options reader maxSamples color fuel topic s with
        | none => rfl
        | some output => rfl

/-- **When the loops deliver**: they end, and leave nothing behind. -/
theorem delivers_iff (h : reader.Lawful contents) (hbound : maxSamples ≠ some 0)
    (topics : List (String × σ)) :
    Delivers contents topics (drainTopics options reader maxSamples color) ↔
      ∀ t ∈ topics, RunsOut options (contents t.2) ∧ (options.takeReadNextInstance = true →
        InFull options reader maxSamples contents t.2) := by
  constructor
  · rintro ⟨fuel, output, hdrain, hperm⟩
    have hout : ∀ t ∈ topics, RunsOut options (contents t.2) := by
      intro t ht
      by_contra hnot
      rw [drainTopics_of_not_runsOut h hbound ht hnot] at hdrain
      cases hdrain
    obtain ⟨fuel', output', left, hdrain', hperm', hleft⟩ :=
      drainTopics_of_runsOut color h hbound hout
    -- both runs are one
    have hmax := drainTopics_le hdrain (le_max_left fuel fuel')
    rw [drainTopics_le hdrain' (le_max_right fuel fuel')] at hmax
    obtain rfl := Option.some.inj hmax
    have hlength := (hperm'.trans hperm.symm).length_eq
    rw [List.length_append] at hlength
    have hnil := List.eq_nil_of_length_eq_zero (by omega : left.length = 0)
    intro t ht
    exact ⟨hout t ht, hleft.mp hnil t ht⟩
  · intro hall
    obtain ⟨fuel, output, left, hdrain, hperm, hleft⟩ :=
      drainTopics_of_runsOut color h hbound fun t ht => (hall t ht).1
    rw [hleft.mpr fun t ht => (hall t ht).2, List.append_nil] at hperm
    exact ⟨fuel, output, hdrain, hperm⟩

end Topics

/-- **When the loops end and deliver each sample once**: unless there is something to
`read` all at once, and if of each instance that is asked for all samples with data are
returned.  Of a reader that returns all it has, these are the instances without a sample
with data behind the bound, in C++ all of them. -/
theorem drains_iff {H σ : Type} [LinearOrder H] {reader : DataReader H σ}
    {contents : σ → List (Fetched H)} (h : reader.Lawful contents) (options : ReadOptions)
    (topics : List (String × σ)) :
    (Delivers contents topics (Cxx.drain options reader) ↔
      ∀ t ∈ topics, RunsOut options (contents t.2) ∧ (options.takeReadNextInstance = true →
        InFull options reader none contents t.2)) ∧
    (Delivers contents topics (C.drain options reader) ↔
      ∀ t ∈ topics, RunsOut options (contents t.2) ∧ (options.takeReadNextInstance = true →
        InFull options reader (some C.maxSamples) contents t.2)) ∧
    (reader.Eager contents →
      (Delivers contents topics (Cxx.drain options reader) ↔
        ∀ t ∈ topics, RunsOut options (contents t.2)) ∧
      (Delivers contents topics (C.drain options reader) ↔
        ∀ t ∈ topics, RunsOut options (contents t.2) ∧
          (options.takeReadNextInstance = true →
            ∀ k, ∀ f ∈ (ofInstance k (contents t.2)).drop C.maxSamples,
              f.validData = false))) := by
  refine ⟨delivers_iff h (by simp) topics, delivers_iff h (by decide) topics, fun heager =>
    ⟨?_, ?_⟩⟩
  · refine (delivers_iff h (by simp) topics).trans (forall₂_congr fun t _ => ?_)
    refine and_iff_left fun hnext => (inFull_iff_of_eager h heager hnext).mpr ?_
    exact fun k f hf => absurd hf List.not_mem_nil
  · refine (delivers_iff h (by decide) topics).trans (forall₂_congr fun t _ => ?_)
    exact and_congr_right fun _ => forall_congr' fun hnext => inFull_iff_of_eager h heager hnext

/-! ## A cache -/

/-- The bound of a call, where the reader itself returns no more than `most`. -/
def boundOf (most n : Option Nat) : Option Nat :=
  match most, n with
  | none, n => n
  | some m, none => some m
  | some m, some n => some (min m n)

/-- A reader that is its cache, and returns no more than `most` samples at a time. -/
def cacheReader (most : Option Nat) : DataReader Nat (List (Fetched Nat)) where
  take n cache := (upTo (boundOf most n) cache, behind (boundOf most n) cache)
  read n cache := (upTo (boundOf most n) cache, cache)
  takeNextInstance n previous cache :=
    match nextHandle previous cache with
    | none => ([], cache)
    | some k =>
        (upTo (boundOf most n) (ofInstance k cache),
          (cache.filter fun f => !decide (f.instanceHandle = k)) ++
            behind (boundOf most n) (ofInstance k cache))
  readNextInstance n previous cache :=
    match nextHandle previous cache with
    | none => ([], cache)
    | some k => (upTo (boundOf most n) (ofInstance k cache), cache)
  getKeyValue _ := "RED"

theorem portion_upTo {most n : Option Nat} (hmost : most ≠ some 0) (l : List (Fetched Nat)) :
    Portion n l (upTo (boundOf most n) l) where
  subperm := by
    rw [← upTo_append_behind (boundOf most n) l]
    exact (List.sublist_append_left _ _).subperm.trans (by rw [upTo_append_behind])
  ne_nil hn hne := by
    have hbound : boundOf most n ≠ some 0 := by
      cases most with
      | none => exact hn
      | some m =>
          cases n with
          | none => exact hmost
          | some n =>
              have hm : m ≠ 0 := fun h => hmost (congrArg some h)
              have hn' : n ≠ 0 := fun h => hn (congrArg some h)
              simp [boundOf, hm, hn']
    exact mt (upTo_eq_nil_iff hbound).mp hne
  atMost m hm := by
    obtain rfl : n = some m := hm
    cases most with
    | none => exact List.length_take_le _ _
    | some k => exact (List.length_take_le _ _).trans (min_le_right _ _)

theorem lawful_cacheReader {most : Option Nat} (hmost : most ≠ some 0) :
    (cacheReader most).Lawful id where
  take n s := ⟨portion_upTo hmost s, by rw [id, id, cacheReader, upTo_append_behind]⟩
  read n s := ⟨portion_upTo hmost s, rfl⟩
  takeNextInstance_none := by
    intro n previous s h
    have hnone : nextHandle previous s = none := h
    simp [cacheReader, hnone]
  takeNextInstance_some := by
    intro n previous s k h
    have hsome : nextHandle previous s = some k := h
    have hcall : (cacheReader most).takeNextInstance n previous s =
        (upTo (boundOf most n) (ofInstance k s),
          (s.filter fun f => !decide (f.instanceHandle = k)) ++
            behind (boundOf most n) (ofInstance k s)) := by
      simp [cacheReader, hsome]
    have hbehind : ∀ f ∈ behind (boundOf most n) (ofInstance k s), f.instanceHandle = k :=
      fun f hf => (mem_ofKey_iff.mp (mem_of_mem_behind hf)).2
    rw [hcall]
    refine ⟨portion_upTo hmost _, ?_, fun k' hk => ?_⟩
    · have hothers : ofKey Fetched.instanceHandle k
          (s.filter fun f => !decide (f.instanceHandle = k)) = [] :=
        ofKey_eq_nil fun f hf => by simpa using (List.mem_filter.mp hf).2
      dsimp only [id]
      rw [show ofInstance k (_ ++ _) = _ from ofKey_append k _ _, hothers, List.nil_append,
        ofKey_ofKey hbehind, upTo_append_behind]
    · rw [id, ofInstance, ofKey_append, ofKey_filter_ne hk,
        ofKey_eq_nil fun f hf heq => hk (heq.symm.trans (hbehind f hf)), List.append_nil]
      rfl
  readNextInstance_none := by
    intro n previous s h
    have hnone : nextHandle previous s = none := h
    simp [cacheReader, hnone]
  readNextInstance_some := by
    intro n previous s k h
    have hsome : nextHandle previous s = some k := h
    have hcall : (cacheReader most).readNextInstance n previous s =
        (upTo (boundOf most n) (ofInstance k s), s) := by
      simp [cacheReader, hsome]
    rw [hcall]
    exact ⟨portion_upTo hmost _, rfl⟩

theorem eager_cacheReader : (cacheReader none).Eager id where
  takeNextInstance := by
    intro n previous s k h
    have hsome : nextHandle previous s = some k := h
    simp [cacheReader, hsome, boundOf]
  readNextInstance := by
    intro n previous s k h
    have hsome : nextHandle previous s = some k := h
    simp [cacheReader, hsome, boundOf]

/-- A sample of an instance. -/
def redSample (x : Int32) : Fetched Nat where
  instanceHandle := 1
  validData := true
  instanceState := .alive
  sample := ⟨"RED", x, 20, 30, []⟩

/-- Two samples of an instance, and the end of another one. -/
def twoTopics : List (String × List (Fetched Nat)) :=
  [("Square", [redSample 10, redSample 11]),
    ("Circle", [⟨2, false, .notAliveDisposed, ⟨"BLUE", 0, 0, 0, []⟩⟩])]

/-- With the next instance all samples are printed, if the reader returns them at once;
with `take` it may return them one by one. -/
theorem drains_iff_twoTopics :
    Delivers id twoTopics (Cxx.drain ⟨true, true⟩ (cacheReader none)) ∧
      ¬Delivers id twoTopics (Cxx.drain ⟨true, true⟩ (cacheReader (some 1))) ∧
      Delivers id twoTopics (C.drain ⟨false, false⟩ (cacheReader (some 1))) := by
  refine ⟨?_, fun hdelivers => ?_, ?_⟩
  · have heager := (drains_iff (lawful_cacheReader (by simp)) ⟨true, true⟩ twoTopics).2.2
      eager_cacheReader
    exact heager.1.mpr fun t _ => .inl rfl
  · have hfull := ((drains_iff (lawful_cacheReader (by simp)) ⟨true, true⟩ twoTopics).1.mp
      hdelivers _ List.mem_cons_self).2 rfl
    -- of two samples one is returned
    have hkeys : sortedKeys Fetched.instanceHandle [redSample 10, redSample 11] = [1] := by
      simp [sortedKeys, redSample]
    rw [InFull, id, hkeys] at hfull
    exact absurd (List.forall₂_cons.mp hfull).1 (by decide)
  · exact (drains_iff (lawful_cacheReader (by simp)) ⟨false, false⟩ twoTopics).2.1.mpr
      fun t _ => ⟨.inr (.inl rfl), fun hnext => Bool.noConfusion hnext⟩

/-- One sample that is read with `-R --take-read` is printed for ever. -/
theorem not_drains :
    ¬ ∀ (reader : DataReader Nat (List (Fetched Nat)))
      (contents : List (Fetched Nat) → List (Fetched Nat)), reader.Lawful contents →
      ∀ (options : ReadOptions) (topics : List (String × List (Fetched Nat))),
        Delivers contents topics (Cxx.drain options reader) ∧
          Delivers contents topics (C.drain options reader) := by
  intro hall
  have hlawful : (cacheReader none).Lawful id := lawful_cacheReader (by simp)
  obtain ⟨hcxx, -⟩ := hall (cacheReader none) id hlawful ⟨true, false⟩
    [("Square", [redSample 10])]
  have hdelivers := (delivers_iff hlawful (by simp) _).mp hcxx
  rcases (hdelivers _ (List.mem_singleton_self _)).1 with h | h | h
  · cases h
  · cases h
  · cases h

end DdsRtps.ShapeMain
