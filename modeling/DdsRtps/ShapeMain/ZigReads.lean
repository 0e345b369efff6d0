/-
# `DdsRtps.ShapeMain.ZigReads` — the read loop in Zig

The loop of `runSubscriber` in srcZig/shape_main.zig.  In an iteration each topic
is read until nothing is left: sample by sample in the order of delivery
(`--take-read`) or instance by instance, or with `-R` all that is not read yet,
out of a buffer.  The color of an instance is remembered for samples that say
no more than that it is gone.

The typed readers are not part of the sources (`TypedReader.Lawful`), and
between any two steps of the program samples arrive and others are lost.  In
every run each sample is handled once and in order, and none waits for longer
than an iteration (`samples_accounted`).
-/
import DdsRtps.Lib.Accounting
import DdsRtps.Lib.Transition
import DdsRtps.ShapeMain.Drain
import DdsRtps.ShapeMain.ZigOptions
import Mathlib.Logic.Function.Basic

namespace DdsRtps.ShapeMain.Zig

open ByKey
open Hdds (ShapeType)
open Transition

/-! ## Readers -/

/-- A sample as a call hands it out: `info`, and `value` with what has been
decoded of it. -/
structure Sampled (H : Type) where
  instanceHandle : H
  instanceState : InstanceState
  decodes : Bool
  value : ShapeType
deriving DecidableEq, Repr

/-- The calls on a `ShapeTypeDataReader`: to take the next sample, the next one
of the first instance (`HANDLE_NIL`), and to read those that are not read
yet. -/
structure TypedReader (H σ : Type) where
  takeNextSample : σ → Option (Sampled H) × σ
  takeNextInstance : σ → Option (Sampled H) × σ
  read : σ → List (Sampled H) × σ

/-- What the calls do to the samples that are neither taken nor read.  Of a
`read` that meets a sample which cannot be decoded nothing is known. -/
structure TypedReader.Lawful {H σ : Type} [LinearOrder H] (reader : TypedReader H σ)
    (waiting : σ → List (Sampled H)) : Prop where
  takeNextSample_none {s : σ} (h : waiting s = []) :
    (reader.takeNextSample s).1 = none ∧ waiting (reader.takeNextSample s).2 = []
  takeNextSample_some {s : σ} {f : Sampled H} {l : List (Sampled H)} (h : waiting s = f :: l) :
    (reader.takeNextSample s).1 = some f ∧ waiting (reader.takeNextSample s).2 = l
  takeNextInstance_none {s : σ} (h : waiting s = []) :
    (reader.takeNextInstance s).1 = none ∧ waiting (reader.takeNextInstance s).2 = []
  takeNextInstance_some {s : σ} {h : H}
      (hnext : nextKey Sampled.instanceHandle none (waiting s) = some h) :
    ∃ f, (reader.takeNextInstance s).1 = some f ∧ f.instanceHandle = h ∧
      SameByKey Sampled.instanceHandle (waiting s) (f :: waiting (reader.takeNextInstance s).2)
  read {s : σ} (h : ∀ f ∈ waiting s, f.decodes = true) :
    (reader.read s).1 = waiting s ∧ waiting (reader.read s).2 = []

/-! ## The code -/

/-- What is printed. -/
inductive Line where
  | coherent (iteration : Nat)
  | ordered (iteration : Nat)
  | notAlive (topic color : String) (state : InstanceState)
  | sample (topic : String) (value : ShapeType)
deriving DecidableEq, Repr

/-- Where the program is: between two iterations, at a topic, in the loop over a
topic with what is left of `read_buf`, or behind the loops. -/
inductive Place (H : Type) where
  | resting
  | topic (ti : Nat)
  | draining (ti : Nat) (readBuf : List (Sampled H))
  | left
deriving DecidableEq, Repr

/-- The variables of the loop, the readers and what was printed, and whether a
cast has stopped the program. -/
structure Reading (H σ : Type) where
  place : Place H
  trapped : Bool
  iteration : Nat
  readers : Nat → σ
  ihToColor : H → Option String
  output : List Line

section Code

variable {H σ : Type} [LinearOrder H] (opts : CommandLine.Options) (names : Nat → String)
  (reader : TypedReader H σ)

/-- A sample that is handed out: a line that its instance is gone, or its own. -/
def present (ti : Nat) (f : Sampled H) (s : Reading H σ) : Reading H σ :=
  if f.instanceState ≠ .alive then
    let color := if f.value.color = "" then (s.ihToColor f.instanceHandle).getD ""
      else f.value.color
    { s with output := s.output ++ [.notAlive (names ti) color f.instanceState] }
  else
    let s := { s with
      ihToColor := Function.update s.ihToColor f.instanceHandle (some f.value.color) }
    -- `@intCast` to `u32`
    if f.value.x.toInt < 0 ∨ f.value.y.toInt < 0 then { s with trapped := true }
    else { s with output := s.output ++ [.sample (names ti) f.value] }

/-- A sample that cannot be decoded. -/
def presentBroken (ti : Nat) (f : Sampled H) (s : Reading H σ) : Reading H σ :=
  if f.instanceState ≠ .alive then present names ti f s else s

/-- The call that takes a sample. -/
def takeNext (s : σ) : Option (Sampled H) × σ :=
  if opts.takeRead then reader.takeNextSample s else reader.takeNextInstance s

/-- `read_buf`. -/
def fillBuffer (read : List (Sampled H)) : List (Sampled H) :=
  if opts.takeRead then read
  else read.mergeSort fun a b => decide (a.instanceHandle ≤ b.instanceHandle)

/-- What is printed at the beginning of an iteration. -/
def accessLines (iteration : Nat) : List Line :=
  (if opts.coherentAccess then [.coherent iteration] else []) ++
    if opts.orderedAccess then [.ordered iteration] else []

/-- The next step of the program; between two iterations it looks at
`g_all_done`. -/
def advance (allDone : Bool) (s : Reading H σ) : Option (Reading H σ) :=
  if s.trapped then none
  else match s.place with
  | .resting =>
      if allDone ∨ (0 ≤ opts.numIterations.toInt ∧ opts.numIterations.toInt ≤ s.iteration) then
        some { s with place := .left }
      else some { s with place := .topic 0, output := s.output ++ accessLines opts s.iteration }
  | .topic ti =>
      if ti < opts.numTopics.toNat then
        if opts.readOnly then
          let (read, r) := reader.read (s.readers ti)
          some { s with
            place := .draining ti (fillBuffer opts read)
            readers := Function.update s.readers ti r }
        else some { s with place := .draining ti [] }
      else some { s with place := .resting, iteration := s.iteration + 1 }
  | .draining ti readBuf =>
      if opts.readOnly then
        match readBuf with
        | [] => some { s with place := .topic (ti + 1) }
        | f :: readBuf => some (present names ti f { s with place := .draining ti readBuf })
      else
        match takeNext opts reader (s.readers ti) with
        | (none, r) => some { s with
            place := .topic (ti + 1)
            readers := Function.update s.readers ti r }
        | (some f, r) =>
            let s := { s with readers := Function.update s.readers ti r }
            some (if f.decodes then present names ti f s else presentBroken names ti f s)
  | .left => none

end Code

/-! ## What has happened -/

section History

variable {H σ : Type} [LinearOrder H]

/-- What has arrived for each topic, what the middleware has dropped of it, what
had arrived when the iteration began, and what the program was handed out, of
any topic. -/
structure History (H : Type) where
  arrived : Nat → List (Sampled H)
  lost : Nat → List (Sampled H)
  due : Nat → List (Sampled H)
  handled : List (Nat × Sampled H)

/-- The samples of a topic that the program was handed out. -/
def History.handledOf (past : History H) (ti : Nat) : List (Sampled H) :=
  (past.handled.filter fun e => e.1 = ti).map Prod.snd

/-- The loop and its history. -/
structure Run (H σ : Type) where
  now : Reading H σ
  past : History H

/-- What is left of the buffer of a topic. -/
def Place.buffer (place : Place H) (ti : Nat) : List (Sampled H) :=
  match place with
  | .draining ti' readBuf => if ti' = ti then readBuf else []
  | _ => []

/-- Does an iteration begin here? -/
def Place.first : Place H → Bool
  | .topic 0 => true
  | _ => false

variable (opts : CommandLine.Options) (names : Nat → String) (reader : TypedReader H σ)
  (waiting : σ → List (Sampled H))

/-- What the next step of the program is handed out. -/
def handedOut (s : Reading H σ) : List (Nat × Sampled H) :=
  match s.place with
  | .draining ti readBuf =>
      if opts.readOnly then (readBuf.head?.map (ti, ·)).toList
      else ((takeNext opts reader (s.readers ti)).1.map (ti, ·)).toList
  | _ => []

/-- The history behind a step of the program. -/
def History.next (past : History H) (s s' : Reading H σ) : History H :=
  { past with
    due := if s'.place.first then past.arrived else past.due
    handled := past.handled ++ handedOut opts reader s }

/-- What a step is: the middleware does something to the samples of a topic, or
the program goes on. -/
inductive Act (H : Type) where
  | change (ti : Nat) (new : List (Sampled H))
  | program (allDone : Bool)

inductive Run.Step : Run H σ → Act H → Run H σ → Prop
  | change {st : Run H σ} {ti : Nat} {r : σ} {new gone : List (Sampled H)} :
      (waiting r).Sublist (waiting (st.now.readers ti) ++ new) →
      (waiting (st.now.readers ti) ++ new).Perm (waiting r ++ gone) →
      Run.Step st (.change ti new)
        { now := { st.now with readers := Function.update st.now.readers ti r }
          past := { st.past with
            arrived := Function.update st.past.arrived ti (st.past.arrived ti ++ new)
            lost := Function.update st.past.lost ti (st.past.lost ti ++ gone) } }
  | program {st : Run H σ} {allDone : Bool} {now' : Reading H σ} :
      advance opts names reader allDone st.now = some now' →
      Run.Step st (.program allDone) ⟨now', st.past.next opts reader st.now now'⟩

/-- At the start nothing has arrived. -/
structure Run.Start (st : Run H σ) : Prop where
  place : st.now.place = .resting
  trapped : st.now.trapped = false
  waiting : ∀ ti, waiting (st.now.readers ti) = []
  ihToColor : st.now.ihToColor = fun _ => none
  output : st.now.output = []
  past : st.past = ⟨fun _ => [], fun _ => [], fun _ => [], []⟩

/-- All runs of the loop. -/
def readLoop : System (Run H σ) (Act H) where
  init := Run.Start waiting
  step := Run.Step opts names reader waiting

/-- With `-R`, samples that can be decoded arrive. -/
def Readable (_ : Run H σ) : Act H → Prop
  | .change _ new => opts.readOnly = true → ∀ f ∈ new, f.decodes = true
  | .program _ => True

/-! ## What the lines are to be -/

/-- A sample that is shown as such. -/
def Sampled.Shown (f : Sampled H) : Prop := f.instanceState = .alive ∧ f.decodes = true

instance (f : Sampled H) : Decidable f.Shown := inferInstanceAs (Decidable (_ ∧ _))

/-- The color of the last sample under a handle, of whichever topic. -/
def lastColor (handled : List (Nat × Sampled H)) (h : H) : Option String :=
  (handled.reverse.find? fun e => decide (e.2.instanceHandle = h ∧ e.2.Shown)).map
    (·.2.value.color)

/-- The line of a sample, behind others. -/
def lineOf (before : List (Nat × Sampled H)) (e : Nat × Sampled H) : List Line :=
  if e.2.instanceState ≠ .alive then
    [.notAlive (names e.1)
      (if e.2.value.color = "" then (lastColor before e.2.instanceHandle).getD ""
        else e.2.value.color) e.2.instanceState]
  else if e.2.decodes = true ∧ 0 ≤ e.2.value.x.toInt ∧ 0 ≤ e.2.value.y.toInt then
    [.sample (names e.1) e.2.value]
  else []

/-- The lines of samples, behind others. -/
def linesOf (before : List (Nat × Sampled H)) : List (Nat × Sampled H) → List Line
  | [] => []
  | e :: rest => lineOf names before e ++ linesOf (before ++ [e]) rest

/-- A line of a sample. -/
def Line.ofSample : Line → Bool
  | .notAlive _ _ _ => true
  | .sample _ _ => true
  | _ => false

end History

/-! ## A step of the program -/

section Step

variable {H σ : Type} [LinearOrder H] {opts : CommandLine.Options} {names : Nat → String}
  {reader : TypedReader H σ} {waiting : σ → List (Sampled H)}

variable (opts names) in
/-- A sample that is handed out, whether or not it can be decoded. -/
def handOver (ti : Nat) (f : Sampled H) (s : Reading H σ) : Reading H σ :=
  if opts.readOnly ∨ f.decodes then present names ti f s else presentBroken names ti f s

variable (opts names reader) in
/-- What the program may do next. -/
inductive Goes (s : Reading H σ) : Reading H σ → Prop
  | leave : s.place = .resting → Goes s { s with place := .left }
  | start : s.place = .resting →
      Goes s { s with place := .topic 0, output := s.output ++ accessLines opts s.iteration }
  | read {ti : Nat} : s.place = .topic ti → opts.readOnly = true →
      Goes s { s with
        place := .draining ti (fillBuffer opts (reader.read (s.readers ti)).1)
        readers := Function.update s.readers ti (reader.read (s.readers ti)).2 }
  | enter {ti : Nat} : s.place = .topic ti → opts.readOnly = false →
      Goes s { s with place := .draining ti [] }
  | finish {ti : Nat} : s.place = .topic ti → opts.numTopics.toNat ≤ ti →
      Goes s { s with place := .resting, iteration := s.iteration + 1 }
  | pass {ti : Nat} {readBuf : List (Sampled H)} {r : σ} : s.place = .draining ti readBuf →
      (opts.readOnly = true ∧ readBuf = [] ∧ r = s.readers ti ∨
        opts.readOnly = false ∧ takeNext opts reader (s.readers ti) = (none, r)) →
      Goes s { s with place := .topic (ti + 1), readers := Function.update s.readers ti r }
  | handle {ti : Nat} {readBuf readBuf' : List (Sampled H)} {f : Sampled H} {r : σ} :
      s.place = .draining ti readBuf →
      (opts.readOnly = true ∧ readBuf = f :: readBuf' ∧ r = s.readers ti ∨
        opts.readOnly = false ∧ takeNext opts reader (s.readers ti) = (some f, r) ∧
          readBuf' = readBuf) →
      Goes s (handOver opts names ti f { s with
        place := .draining ti readBuf'
        readers := Function.update s.readers ti r })

theorem goes_of_advance {allDone : Bool} {s s' : Reading H σ}
    (h : advance opts names reader allDone s = some s') : Goes opts names reader s s' := by
  rw [advance] at h
  split at h
  · cases h
  cases hplace : s.place with
  | resting =>
      simp only [hplace] at h
      split at h
      · obtain rfl := Option.some.inj h
        exact .leave hplace
      · obtain rfl := Option.some.inj h
        exact .start hplace
  | topic ti =>
      simp only [hplace] at h
      split at h
      · split at h
        · rename_i hread
          obtain rfl := Option.some.inj h
          exact .read hplace hread
        · rename_i hread
          obtain rfl := Option.some.inj h
          exact .enter hplace (by simpa using hread)
      · rename_i hle
        obtain rfl := Option.some.inj h
        exact .finish hplace (Nat.le_of_not_lt hle)
  | draining ti readBuf =>
      simp only [hplace] at h
      cases hread : opts.readOnly with
      | true =>
          rw [if_pos hread] at h
          cases readBuf with
          | nil =>
              obtain rfl := Option.some.inj h
              have hpass : Goes opts names reader s _ := .pass hplace (.inl ⟨hread, rfl, rfl⟩)
              rwa [Function.update_eq_self] at hpass
          | cons f readBuf =>
              obtain rfl := Option.some.inj h
              have hhandle : Goes opts names reader s _ :=
                .handle hplace (.inl ⟨hread, rfl, rfl⟩)
              rwa [Function.update_eq_self, handOver, if_pos (.inl hread)] at hhandle
      | false =>
          simp only [hread, Bool.false_eq_true, if_false] at h
          cases htake : takeNext opts reader (s.readers ti) with
          | mk got r =>
              rw [htake] at h
              cases got with
              | none =>
                  obtain rfl := Option.some.inj h
                  exact .pass hplace (.inr ⟨hread, htake⟩)
              | some f =>
                  obtain rfl := Option.some.inj h
                  have hhandle : Goes opts names reader s _ :=
                    .handle hplace (.inr ⟨hread, htake, rfl⟩)
                  simpa [handOver, hread] using hhandle
  | left =>
      simp only [hplace] at h
      cases h

omit [LinearOrder H] in
theorem handedOut_eq_nil {s : Reading H σ} (h : ∀ ti readBuf, s.place ≠ .draining ti readBuf) :
    handedOut opts reader s = [] := by
  rw [handedOut]
  cases hplace : s.place with
  | draining ti readBuf => exact absurd hplace (h ti readBuf)
  | resting => rfl
  | topic ti => rfl
  | left => rfl

omit [LinearOrder H] in
theorem handedOut_of_pass {s : Reading H σ} {ti : Nat} {readBuf : List (Sampled H)} {r : σ}
    (hplace : s.place = .draining ti readBuf)
    (h : opts.readOnly = true ∧ readBuf = [] ∧ r = s.readers ti ∨
      opts.readOnly = false ∧ takeNext opts reader (s.readers ti) = (none, r)) :
    handedOut opts reader s = [] := by
  rw [handedOut, hplace]
  rcases h with ⟨hread, rfl, -⟩ | ⟨hread, htake⟩
  · simp [hread]
  · simp [hread, htake]

omit [LinearOrder H] in
theorem handedOut_of_handle {s : Reading H σ} {ti : Nat} {readBuf readBuf' : List (Sampled H)}
    {f : Sampled H} {r : σ} (hplace : s.place = .draining ti readBuf)
    (h : opts.readOnly = true ∧ readBuf = f :: readBuf' ∧ r = s.readers ti ∨
      opts.readOnly = false ∧ takeNext opts reader (s.readers ti) = (some f, r) ∧
        readBuf' = readBuf) : handedOut opts reader s = [(ti, f)] := by
  rw [handedOut, hplace]
  rcases h with ⟨hread, rfl, -⟩ | ⟨hread, htake, -⟩
  · simp [hread]
  · simp [hread, htake]

@[simp] theorem handOver_place (ti : Nat) (f : Sampled H) (s : Reading H σ) :
    (handOver opts names ti f s).place = s.place := by
  simp only [handOver, presentBroken, present]
  split_ifs <;> rfl

@[simp] theorem handOver_readers (ti : Nat) (f : Sampled H) (s : Reading H σ) :
    (handOver opts names ti f s).readers = s.readers := by
  simp only [handOver, presentBroken, present]
  split_ifs <;> rfl

end Step

/-! ## The samples -/

section Samples

variable {H σ : Type} [LinearOrder H] {opts : CommandLine.Options} {names : Nat → String}
  {reader : TypedReader H σ} {waiting : σ → List (Sampled H)} {κ : Type*} [DecidableEq κ]
  {key : Sampled H → κ}

variable (opts key) in
/-- A key whose order every way of reading keeps. -/
def Orders : Prop :=
  opts.takeRead = true ∨
    ∀ l l' : List (Sampled H), SameByKey Sampled.instanceHandle l l' → SameByKey key l l'

theorem takeNext_none (hreader : reader.Lawful waiting) {s r : σ}
    (h : takeNext opts reader s = (none, r)) : waiting s = [] ∧ waiting r = [] := by
  rw [takeNext] at h
  split at h
  · cases hwaiting : waiting s with
    | nil =>
        obtain ⟨-, hleft⟩ := hreader.takeNextSample_none hwaiting
        rw [h] at hleft
        exact ⟨rfl, hleft⟩
    | cons f l =>
        obtain ⟨hsome, -⟩ := hreader.takeNextSample_some hwaiting
        rw [h] at hsome
        cases hsome
  · cases hnext : nextKey Sampled.instanceHandle none (waiting s) with
    | none =>
        have hnil := nextKey_none_eq_none_iff.mp hnext
        obtain ⟨-, hleft⟩ := hreader.takeNextInstance_none hnil
        rw [h] at hleft
        exact ⟨hnil, hleft⟩
    | some k =>
        obtain ⟨f, hsome, -⟩ := hreader.takeNextInstance_some hnext
        rw [h] at hsome
        cases hsome

theorem takeNext_some (hreader : reader.Lawful waiting) (hkey : Orders opts key) {s r : σ}
    {f : Sampled H} (h : takeNext opts reader s = (some f, r)) :
    SameByKey key (waiting s) (f :: waiting r) := by
  rw [takeNext] at h
  split at h
  · cases hwaiting : waiting s with
    | nil =>
        obtain ⟨hnone, -⟩ := hreader.takeNextSample_none hwaiting
        rw [h] at hnone
        cases hnone
    | cons f' l =>
        obtain ⟨hsome, hleft⟩ := hreader.takeNextSample_some hwaiting
        rw [h] at hsome hleft
        obtain rfl := Option.some.inj hsome
        rw [← hleft]
        exact .of_eq rfl
  · rename_i htake
    have hby := hkey.resolve_left (by simpa using htake)
    cases hnext : nextKey Sampled.instanceHandle none (waiting s) with
    | none =>
        obtain ⟨hnone, -⟩ := hreader.takeNextInstance_none (nextKey_none_eq_none_iff.mp hnext)
        rw [h] at hnone
        cases hnone
    | some k =>
        obtain ⟨f', hsome, -, hsame⟩ := hreader.takeNextInstance_some hnext
        rw [h] at hsome hsame
        obtain rfl := Option.some.inj hsome
        exact hby _ _ hsame

theorem sameByKey_fillBuffer (hkey : Orders opts key) (l : List (Sampled H)) :
    SameByKey key l (fillBuffer opts l) := by
  rw [fillBuffer]
  split
  · exact .of_eq rfl
  · rename_i htake
    have hby := hkey.resolve_left (by simpa using htake)
    exact hby _ _ fun k => (sameByKey_mergeSort Sampled.instanceHandle l k).symm

omit [LinearOrder H] in
theorem handledOf_next_of_nil {past : History H} {s s' : Reading H σ}
    (h : handedOut opts reader s = []) (ti : Nat) :
    (past.next opts reader s s').handledOf ti = past.handledOf ti := by
  rw [History.handledOf, History.next, h, List.append_nil]
  rfl

omit [LinearOrder H] in
theorem handledOf_next_of_one {past : History H} {s s' : Reading H σ} {ti : Nat} {f : Sampled H}
    (h : handedOut opts reader s = [(ti, f)]) (ti' : Nat) :
    (past.next opts reader s s').handledOf ti' =
      past.handledOf ti' ++ if ti = ti' then [f] else [] := by
  rw [History.handledOf, History.next, h]
  by_cases hti : ti = ti'
  · simp [History.handledOf, hti]
  · simp [History.handledOf, hti]

variable (opts key waiting) in
/-- The samples of each topic are accounted for, and with `-R` all can be
decoded. -/
structure Accounted (st : Run H σ) : Prop where
  accounts : ∀ ti, Accounts key (st.past.arrived ti) (st.past.handledOf ti)
    (st.now.place.buffer ti ++ waiting (st.now.readers ti)) (st.past.lost ti)
  decodes : opts.readOnly = true → ∀ ti, ∀ f ∈ st.past.arrived ti, f.decodes = true
  noBuffer : opts.readOnly = false → ∀ ti, st.now.place.buffer ti = []

omit [LinearOrder H] in
theorem Accounted.waiting_decodes {st : Run H σ} (h : Accounted opts waiting key st)
    (hread : opts.readOnly = true) {ti : Nat} {f : Sampled H}
    (hf : f ∈ st.now.place.buffer ti ++ waiting (st.now.readers ti)) : f.decodes = true := by
  refine h.decodes hread ti f ((h.accounts ti).once.mem_iff.mpr ?_)
  exact List.mem_append_left _ (List.mem_append_right _ hf)

/-- A step of the program leaves each sample where it is, or takes it to the next
place. -/
theorem Accounted.goes (hreader : reader.Lawful waiting) (hkey : Orders opts key) {st : Run H σ}
    (h : Accounted opts waiting key st) {s' : Reading H σ}
    (hgoes : Goes opts names reader st.now s') :
    Accounted opts waiting key ⟨s', st.past.next opts reader st.now s'⟩ := by
  have hmove : (∀ ti, SameByKey key
      (st.past.handledOf ti ++ (st.now.place.buffer ti ++ waiting (st.now.readers ti)))
      ((st.past.next opts reader st.now s').handledOf ti ++
        (s'.place.buffer ti ++ waiting (s'.readers ti)))) →
      (opts.readOnly = false → ∀ ti, s'.place.buffer ti = []) →
      Accounted opts waiting key ⟨s', st.past.next opts reader st.now s'⟩ :=
    fun hsame hbuffer => ⟨fun ti => (h.accounts ti).move (hsame ti), h.decodes, hbuffer⟩
  have hquiet : handedOut opts reader st.now = [] →
      (∀ ti, SameByKey key (st.now.place.buffer ti ++ waiting (st.now.readers ti))
        (s'.place.buffer ti ++ waiting (s'.readers ti))) →
      (opts.readOnly = false → ∀ ti, s'.place.buffer ti = []) →
      Accounted opts waiting key ⟨s', st.past.next opts reader st.now s'⟩ := by
    intro hnil hsame hbuffer
    refine hmove (fun ti => ?_) hbuffer
    rw [handledOf_next_of_nil hnil]
    exact (hsame ti).append_left _
  cases hgoes with
  | leave hplace =>
      refine hquiet (handedOut_eq_nil (by simp [hplace])) (fun ti => .of_eq ?_) fun _ ti => rfl
      simp [hplace, Place.buffer]
  | start hplace =>
      refine hquiet (handedOut_eq_nil (by simp [hplace])) (fun ti => .of_eq ?_) fun _ ti => rfl
      simp [hplace, Place.buffer]
  | @read ti hplace hread =>
      have hwaiting : ∀ f ∈ waiting (st.now.readers ti), f.decodes = true := fun f hf =>
        h.waiting_decodes hread (List.mem_append_right _ hf)
      obtain ⟨hall, hnone⟩ := hreader.read hwaiting
      refine hquiet (handedOut_eq_nil (by simp [hplace])) (fun ti' => ?_) ?_
      · by_cases hti : ti = ti'
        · subst hti
          simpa [hplace, Place.buffer, hall, hnone] using sameByKey_fillBuffer hkey _
        · refine .of_eq ?_
          simp [hplace, Place.buffer, hti, Function.update_of_ne (Ne.symm hti)]
      · intro hnot
        rw [hread] at hnot
        cases hnot
  | enter hplace hread =>
      refine hquiet (handedOut_eq_nil (by simp [hplace])) (fun ti => .of_eq ?_) fun _ ti => ?_
      · simp [hplace, Place.buffer]
      · simp [Place.buffer]
  | finish hplace hle =>
      refine hquiet (handedOut_eq_nil (by simp [hplace])) (fun ti => .of_eq ?_) fun _ ti => rfl
      simp [hplace, Place.buffer]
  | @pass ti readBuf r hplace hnone =>
      refine hquiet (handedOut_of_pass hplace hnone) (fun ti' => .of_eq ?_) fun _ ti => rfl
      have hbuf : readBuf = [] ∧ waiting r = waiting (st.now.readers ti) := by
        rcases hnone with ⟨-, hnil, rfl⟩ | ⟨hread, htake⟩
        · exact ⟨hnil, rfl⟩
        · obtain ⟨hbefore, hafter⟩ := takeNext_none hreader htake
          have hbuffer := h.noBuffer hread ti
          rw [hplace] at hbuffer
          exact ⟨by simpa [Place.buffer] using hbuffer, hafter.trans hbefore.symm⟩
      by_cases hti : ti = ti'
      · subst hti
        simp [hplace, Place.buffer, hbuf]
      · simp [hplace, Place.buffer, hti, Function.update_of_ne (Ne.symm hti)]
  | @handle ti readBuf readBuf' f r hplace hsome =>
      have hone := handedOut_of_handle hplace hsome
      have hbuf : SameByKey key (readBuf ++ waiting (st.now.readers ti))
          ([f] ++ (readBuf' ++ waiting r)) := by
        rcases hsome with ⟨-, rfl, rfl⟩ | ⟨hread, htake, rfl⟩
        · exact .of_eq rfl
        · have hbuffer := h.noBuffer hread ti
          rw [hplace] at hbuffer
          have hnil : readBuf' = [] := by simpa [Place.buffer] using hbuffer
          rw [hnil]
          exact takeNext_some hreader hkey htake
      refine hmove (fun ti' => ?_) fun hread ti' => ?_
      · rw [handledOf_next_of_one hone, List.append_assoc]
        refine SameByKey.append_left ?_ _
        by_cases hti : ti = ti'
        · subst hti
          simpa [hplace, Place.buffer] using hbuf
        · refine .of_eq ?_
          simp [hplace, Place.buffer, hti, Function.update_of_ne (Ne.symm hti)]
      · have hbuffer := h.noBuffer hread ti
        rcases hsome with ⟨hnot, -⟩ | ⟨-, -, rfl⟩
        · rw [hread] at hnot
          cases hnot
        · rw [hplace] at hbuffer
          have hnil : readBuf' = [] := by simpa [Place.buffer] using hbuffer
          simp [Place.buffer, hnil]

/-- So does what happens between two steps. -/
theorem accounted_of_step (hreader : reader.Lawful waiting) (hkey : Orders opts key)
    {st st' : Run H σ} {act : Act H} (h : Accounted opts waiting key st)
    (hallowed : Readable opts st act) (hstep : Run.Step opts names reader waiting st act st') :
    Accounted opts waiting key st' := by
  cases hstep with
  | program hnext => exact h.goes hreader hkey (goes_of_advance hnext)
  | @change ti r new gone hkept hgone =>
      constructor
      · intro ti'
        by_cases hti : ti' = ti
        · subst hti
          have hkept' : (st.now.place.buffer ti' ++ waiting r).Sublist
              (st.now.place.buffer ti' ++ waiting (st.now.readers ti') ++ new) := by
            rw [List.append_assoc]
            exact hkept.append_left _
          have hgone' : (st.now.place.buffer ti' ++ waiting (st.now.readers ti') ++ new).Perm
              (st.now.place.buffer ti' ++ waiting r ++ gone) := by
            rw [List.append_assoc, List.append_assoc]
            exact hgone.append_left _
          have hchange := (h.accounts ti').change hkept' hgone'
          simpa [History.handledOf] using hchange
        · simpa [History.handledOf, hti] using h.accounts ti'
      · intro hread ti' f hf
        by_cases hti : ti' = ti
        · subst hti
          simp only [Function.update_self, List.mem_append] at hf
          exact hf.elim (h.decodes hread ti' f) (hallowed hread f)
        · simp only [Function.update_of_ne hti] at hf
          exact h.decodes hread ti' f hf
      · exact h.noBuffer

end Samples

/-! ## The lines -/

section Lines

variable {H σ : Type} [LinearOrder H] {opts : CommandLine.Options} {names : Nat → String}
  {reader : TypedReader H σ} {waiting : σ → List (Sampled H)}

theorem lastColor_append (handled : List (Nat × Sampled H)) (e : Nat × Sampled H) (h : H) :
    lastColor (handled ++ [e]) h =
      if e.2.instanceHandle = h ∧ e.2.Shown then some e.2.value.color else lastColor handled h := by
  rw [lastColor, List.reverse_append, List.reverse_singleton, List.singleton_append,
    List.find?_cons]
  split
  · rename_i hfound
    rw [if_pos (by simpa using hfound)]
    rfl
  · rename_i hfound
    rw [if_neg (by simpa using hfound)]
    rfl

theorem linesOf_append (before handled : List (Nat × Sampled H)) (e : Nat × Sampled H) :
    linesOf names before (handled ++ [e]) =
      linesOf names before handled ++ lineOf names (before ++ handled) e := by
  induction handled generalizing before with
  | nil => simp [linesOf]
  | cons e' handled ih => simp [linesOf, ih]

variable (names) in
/-- The lines are those of the samples handed out, and the colors are known of
these. -/
structure Told (st : Run H σ) : Prop where
  colors : ∀ h, st.now.ihToColor h = lastColor st.past.handled h
  lines : st.now.output.filter Line.ofSample = linesOf names [] st.past.handled

/-- What is done with a sample that says no more than that its instance is
gone. -/
theorem handOver_gone {f : Sampled H} (hgone : f.instanceState ≠ .alive) (ti : Nat)
    (s : Reading H σ) : handOver opts names ti f s = { s with
      output := s.output ++ [.notAlive (names ti)
        (if f.value.color = "" then (s.ihToColor f.instanceHandle).getD ""
          else f.value.color) f.instanceState] } := by
  rw [handOver, presentBroken, if_pos hgone, ite_self, present, if_pos hgone]

variable (opts names) in
theorem handOver_shown {f : Sampled H} (hf : f.Shown) (ti : Nat) (s : Reading H σ) :
    (handOver opts names ti f s).ihToColor =
        Function.update s.ihToColor f.instanceHandle (some f.value.color) ∧
      (handOver opts names ti f s).output = s.output ++
        if 0 ≤ f.value.x.toInt ∧ 0 ≤ f.value.y.toInt then [.sample (names ti) f.value] else [] := by
  rw [handOver, if_pos (.inr hf.2), present, if_neg (not_not.mpr hf.1)]
  by_cases hneg : f.value.x.toInt < 0 ∨ f.value.y.toInt < 0
  · have hnot : ¬(0 ≤ f.value.x.toInt ∧ 0 ≤ f.value.y.toInt) := by omega
    rw [if_neg hnot]
    simp [hneg]
  · have hfits : 0 ≤ f.value.x.toInt ∧ 0 ≤ f.value.y.toInt := by omega
    rw [if_pos hfits]
    simp [hneg]

theorem handOver_broken {f : Sampled H} (halive : f.instanceState = .alive)
    (hbroken : ¬(opts.readOnly = true ∨ f.decodes = true)) (ti : Nat) (s : Reading H σ) :
    handOver opts names ti f s = s := by
  rw [handOver, if_neg hbroken, presentBroken, if_neg (not_not.mpr halive)]

/-- What is done with a sample shows its line. -/
theorem told_handOver {st : Run H σ} (h : Told names st) {ti : Nat} {f : Sampled H}
    (hf : opts.readOnly = true → f.decodes = true) {s : Reading H σ}
    (hcolor : s.ihToColor = st.now.ihToColor) (houtput : s.output = st.now.output)
    {past : History H} (hpast : past.handled = st.past.handled ++ [(ti, f)]) :
    Told names ⟨handOver opts names ti f s, past⟩ := by
  have hlines : linesOf names [] past.handled =
      st.now.output.filter Line.ofSample ++ lineOf names st.past.handled (ti, f) := by
    rw [hpast, linesOf_append, h.lines, List.nil_append]
  by_cases halive : f.instanceState = .alive
  · by_cases hdecodes : f.decodes = true
    · have hshown : f.Shown := ⟨halive, hdecodes⟩
      obtain ⟨hcolors, houtputs⟩ := handOver_shown opts names hshown ti s
      constructor
      · intro k
        rw [hpast, lastColor_append, hcolors, hcolor]
        by_cases hk : f.instanceHandle = k
        · subst hk
          simp [Sampled.Shown, halive, hdecodes]
        · simp [hk, h.colors, Function.update_of_ne (Ne.symm hk)]
      · rw [hlines, houtputs, houtput, List.filter_append]
        congr 1
        rw [lineOf, if_neg (not_not.mpr halive)]
        by_cases hfits : 0 ≤ f.value.x.toInt ∧ 0 ≤ f.value.y.toInt
        · simp [hfits, hdecodes, Line.ofSample]
        · simp [hfits]
    · have hbroken : ¬(opts.readOnly = true ∨ f.decodes = true) := by tauto
      rw [handOver_broken halive hbroken]
      constructor
      · intro k
        have hnot : ¬(f.instanceHandle = k ∧ f.Shown) := fun hk => hdecodes hk.2.2
        rw [hpast, lastColor_append, if_neg hnot]
        simp only [hcolor]
        exact h.colors k
      · rw [hlines, houtput]
        simp [lineOf, halive, hdecodes]
  · rw [handOver_gone halive]
    constructor
    · intro k
      have hnot : ¬(f.instanceHandle = k ∧ f.Shown) := fun hk => halive hk.2.1
      rw [hpast, lastColor_append, if_neg hnot]
      simp only [hcolor]
      exact h.colors k
    · rw [hlines]
      simp [lineOf, halive, houtput, hcolor, h.colors, Line.ofSample]

theorem filter_accessLines (iteration : Nat) :
    (accessLines opts iteration).filter Line.ofSample = [] := by
  rw [accessLines]
  split_ifs <;> rfl

/-- Each step of the program tells what it is handed out. -/
theorem Told.goes {st : Run H σ} (h : Told names st)
    (hdecodes : opts.readOnly = true →
      ∀ ti, ∀ f ∈ st.now.place.buffer ti, f.decodes = true) {s' : Reading H σ}
    (hgoes : Goes opts names reader st.now s') :
    Told names ⟨s', st.past.next opts reader st.now s'⟩ := by
  have hquiet : handedOut opts reader st.now = [] → s'.ihToColor = st.now.ihToColor →
      s'.output.filter Line.ofSample = st.now.output.filter Line.ofSample →
      Told names ⟨s', st.past.next opts reader st.now s'⟩ := by
    intro hnil hcolor hlines
    have hhandled : (st.past.next opts reader st.now s').handled = st.past.handled := by
      rw [History.next, hnil, List.append_nil]
    exact ⟨fun k => by rw [hhandled, hcolor, h.colors], by rw [hhandled, hlines, h.lines]⟩
  cases hgoes with
  | leave hplace => exact hquiet (handedOut_eq_nil (by simp [hplace])) rfl rfl
  | start hplace =>
      refine hquiet (handedOut_eq_nil (by simp [hplace])) rfl ?_
      rw [List.filter_append, filter_accessLines, List.append_nil]
  | read hplace _ => exact hquiet (handedOut_eq_nil (by simp [hplace])) rfl rfl
  | enter hplace _ => exact hquiet (handedOut_eq_nil (by simp [hplace])) rfl rfl
  | finish hplace _ => exact hquiet (handedOut_eq_nil (by simp [hplace])) rfl rfl
  | pass hplace hnone => exact hquiet (handedOut_of_pass hplace hnone) rfl rfl
  | @handle ti readBuf readBuf' f r hplace hsome =>
      have hhandled : (st.past.next opts reader st.now (handOver opts names ti f { st.now with
          place := .draining ti readBuf'
          readers := Function.update st.now.readers ti r })).handled =
          st.past.handled ++ [(ti, f)] := by
        rw [History.next, handedOut_of_handle hplace hsome]
      have hf : opts.readOnly = true → f.decodes = true := by
        intro hread
        rcases hsome with ⟨-, rfl, -⟩ | ⟨hnot, -⟩
        · exact hdecodes hread ti f (by simp [hplace, Place.buffer])
        · rw [hread] at hnot
          cases hnot
      refine told_handOver h hf ?_ ?_ hhandled
      · rfl
      · rfl

end Lines

/-! ## What is due -/

section Due

variable {H σ : Type} [LinearOrder H] {opts : CommandLine.Options} {names : Nat → String}
  {reader : TypedReader H σ} {waiting : σ → List (Sampled H)}

variable (opts) in
/-- Is the program through with a topic in this iteration? -/
def Passed (place : Place H) (ti : Nat) : Prop :=
  match place with
  | .resting => ti < opts.numTopics.toNat
  | .topic ti' => ti < ti'
  | .draining ti' _ => ti < ti'
  | .left => False

variable (opts) in
/-- What is due has arrived, and of a topic that the program is through with it
is handled or lost; with `-R` it may be in the buffer. -/
structure OnTime (st : Run H σ) : Prop where
  prefixed : ∀ ti, st.past.due ti <+: st.past.arrived ti
  passed : ∀ ti, Passed opts st.now.place ti →
    (st.past.due ti).Subperm (st.past.handledOf ti ++ st.past.lost ti)
  buffered : opts.readOnly = true → ∀ ti readBuf, st.now.place = .draining ti readBuf →
    (st.past.due ti).Subperm (st.past.handledOf ti ++ readBuf ++ st.past.lost ti)

omit [LinearOrder H] in
@[simp] theorem History.next_arrived (past : History H) (s s' : Reading H σ) :
    (past.next opts reader s s').arrived = past.arrived := rfl

omit [LinearOrder H] in
@[simp] theorem History.next_lost (past : History H) (s s' : Reading H σ) :
    (past.next opts reader s s').lost = past.lost := rfl

omit [LinearOrder H] in
@[simp] theorem History.next_due (past : History H) (s s' : Reading H σ) :
    (past.next opts reader s s').due = if s'.place.first then past.arrived else past.due := rfl

theorem OnTime.goes (hreader : reader.Lawful waiting) {st : Run H σ} (h : OnTime opts st)
    (haccounted : Accounted opts waiting Sampled.instanceHandle st) {s' : Reading H σ}
    (hgoes : Goes opts names reader st.now s') :
    OnTime opts ⟨s', st.past.next opts reader st.now s'⟩ := by
  have hafter := haccounted.goes hreader (.inr fun _ _ hsame => hsame) hgoes
  cases hgoes with
  | leave hplace =>
      exact ⟨h.prefixed, fun ti hpassed => hpassed.elim, fun _ ti readBuf hbad => by cases hbad⟩
  | start hplace =>
      exact ⟨fun ti => List.prefix_rfl, fun ti hpassed => absurd hpassed (Nat.not_lt_zero ti),
        fun _ ti readBuf hbad => by cases hbad⟩
  | @read ti hplace hread =>
      refine ⟨h.prefixed, fun ti' hpassed => ?_, fun _ ti' readBuf hbuf => ?_⟩
      · rw [handledOf_next_of_nil (handedOut_eq_nil (by simp [hplace]))]
        exact h.passed ti' (by rw [hplace]; exact hpassed)
      · obtain ⟨rfl, rfl⟩ := Place.draining.inj hbuf
        have hwaiting : ∀ f ∈ waiting (st.now.readers ti), f.decodes = true := fun f hf =>
          haccounted.waiting_decodes hread (List.mem_append_right _ hf)
        have hnone := (hreader.read hwaiting).2
        have hall := (h.prefixed ti).sublist.subperm.trans (hafter.accounts ti).once.subperm
        simpa [Place.buffer, Place.first, hnone] using hall
  | enter hplace hread =>
      refine ⟨h.prefixed, fun ti' hpassed => ?_, fun hnot => ?_⟩
      · rw [handledOf_next_of_nil (handedOut_eq_nil (by simp [hplace]))]
        exact h.passed ti' (by rw [hplace]; exact hpassed)
      · rw [hread] at hnot
        cases hnot
  | finish hplace hle =>
      refine ⟨h.prefixed, fun ti' hpassed => ?_, fun _ ti readBuf hbad => by cases hbad⟩
      rw [handledOf_next_of_nil (handedOut_eq_nil (by simp [hplace]))]
      exact h.passed ti' (by rw [hplace]; exact Nat.lt_of_lt_of_le hpassed hle)
  | @pass ti readBuf r hplace hnone =>
      refine ⟨h.prefixed, fun ti' hpassed => ?_, fun _ ti readBuf hbad => by cases hbad⟩
      rw [handledOf_next_of_nil (handedOut_of_pass hplace hnone)]
      rcases Nat.lt_succ_iff_lt_or_eq.mp hpassed with hlt | rfl
      · exact h.passed ti' (by rw [hplace]; exact hlt)
      · rcases hnone with ⟨hread, rfl, rfl⟩ | ⟨hread, htake⟩
        · simpa [Place.first] using h.buffered hread ti' [] hplace
        · have hbuffer := haccounted.noBuffer hread ti'
          have hall := (h.prefixed ti').sublist.subperm.trans (haccounted.accounts ti').once.subperm
          rw [hbuffer, (takeNext_none hreader htake).1] at hall
          simpa [Place.first] using hall
  | @handle ti readBuf readBuf' f r hplace hsome =>
      have hone := handedOut_of_handle hplace hsome
      refine ⟨fun ti' => ?_, fun ti' hpassed => ?_, fun hread ti' buf hbuf => ?_⟩
      · simpa [Place.first] using h.prefixed ti'
      · rw [handOver_place] at hpassed
        rw [handledOf_next_of_one hone, if_neg (Nat.ne_of_gt hpassed), List.append_nil]
        simpa [Place.first] using h.passed ti' (by rw [hplace]; exact hpassed)
      · rw [handOver_place] at hbuf
        obtain ⟨rfl, rfl⟩ := Place.draining.inj hbuf
        rcases hsome with ⟨-, rfl, rfl⟩ | ⟨hnot, -⟩
        · rw [handledOf_next_of_one hone, if_pos rfl]
          simpa [Place.first] using h.buffered hread ti (f :: readBuf') hplace
        · rw [hread] at hnot
          cases hnot

omit [LinearOrder H] in
/-- What the middleware does makes nothing late. -/
theorem OnTime.change {st : Run H σ} (h : OnTime opts st) (ti : Nat) (r : σ)
    (new gone : List (Sampled H)) : OnTime opts
      { now := { st.now with readers := Function.update st.now.readers ti r }
        past := { st.past with
          arrived := Function.update st.past.arrived ti (st.past.arrived ti ++ new)
          lost := Function.update st.past.lost ti (st.past.lost ti ++ gone) } } := by
  have hlost : ∀ ti', (st.past.lost ti').Sublist
      (Function.update st.past.lost ti (st.past.lost ti ++ gone) ti') := by
    intro ti'
    by_cases hti : ti' = ti
    · subst hti
      simp
    · simp [hti]
  refine ⟨fun ti' => ?_, fun ti' hpassed => ?_, fun hread ti' readBuf hplace => ?_⟩
  · by_cases hti : ti' = ti
    · subst hti
      simpa using (h.prefixed ti').trans (List.prefix_append _ _)
    · simpa [hti] using h.prefixed ti'
  · exact (h.passed ti' hpassed).trans ((hlost ti').append_left _).subperm
  · exact (h.buffered hread ti' readBuf hplace).trans ((hlost ti').append_left _).subperm

end Due

/-! ## Whole runs -/

section Runs

variable {H σ : Type} [LinearOrder H] {opts : CommandLine.Options} {names : Nat → String}
  {reader : TypedReader H σ} {waiting : σ → List (Sampled H)} {κ : Type*} [DecidableEq κ]
  {key : Sampled H → κ}

theorem accounted_of_reachable (hreader : reader.Lawful waiting) (hkey : Orders opts key)
    {st : Run H σ} (h : (readLoop opts names reader waiting).Reachable (Readable opts) st) :
    Accounted opts waiting key st := by
  refine h.invariant _ (fun st hstart => ?_) fun st act st' hst hallowed hstep =>
    accounted_of_step hreader hkey hst hallowed hstep
  obtain ⟨hplace, -, hwaiting, -, -, hpast⟩ := hstart
  constructor
  · intro ti
    rw [hpast, hplace, hwaiting]
    exact accounts_nil
  · intro _ ti f hf
    rw [hpast] at hf
    cases hf
  · intro _ ti
    rw [hplace]
    rfl

theorem told_of_reachable (hreader : reader.Lawful waiting) {st : Run H σ}
    (h : (readLoop opts names reader waiting).Reachable (Readable opts) st) : Told names st := by
  induction h with
  | init hstart =>
      obtain ⟨-, -, -, hcolors, houtput, hpast⟩ := hstart
      exact ⟨fun k => by rw [hcolors, hpast]; rfl, by rw [houtput, hpast]; rfl⟩
  | @step st st' act hst _ hstep ih =>
      have hstep : Run.Step opts names reader waiting st act st' := hstep
      have haccounted : Accounted opts waiting Sampled.instanceHandle st :=
        accounted_of_reachable hreader (.inr fun _ _ hsame => hsame) hst
      cases hstep with
      | change => exact ⟨ih.colors, ih.lines⟩
      | program hnext =>
          refine ih.goes (fun hread ti f hf => ?_) (goes_of_advance hnext)
          exact haccounted.waiting_decodes hread (List.mem_append_left _ hf)

theorem onTime_of_reachable (hreader : reader.Lawful waiting) {st : Run H σ}
    (h : (readLoop opts names reader waiting).Reachable (Readable opts) st) : OnTime opts st := by
  induction h with
  | init hstart =>
      obtain ⟨hplace, -, -, -, -, hpast⟩ := hstart
      refine ⟨fun ti => ?_, fun ti _ => ?_, fun _ ti readBuf hbad => ?_⟩
      · rw [hpast]
      · rw [hpast]
        exact List.nil_subperm
      · rw [hplace] at hbad
        cases hbad
  | @step st st' act hst _ hstep ih =>
      have hstep : Run.Step opts names reader waiting st act st' := hstep
      cases hstep with
      | change => exact ih.change _ _ _ _
      | program hnext =>
          exact ih.goes hreader (accounted_of_reachable hreader (.inr fun _ _ hsame => hsame) hst)
            (goes_of_advance hnext)

/-- **No sample is lost by the loop.**  In every run, whatever arrives when, each
sample of a topic is handed out once, is waiting, or was dropped by the middleware;
those of an instance are handed out in the order of their arrival, and with
`--take-read` all are.  What is printed are the lines of the samples handed out.
Between two iterations nothing is left that had arrived when the last one began. -/
theorem samples_accounted (hreader : reader.Lawful waiting) {st : Run H σ}
    (h : (readLoop opts names reader waiting).Reachable (Readable opts) st) :
    (∀ ti, Accounts Sampled.instanceHandle (st.past.arrived ti) (st.past.handledOf ti)
      (st.now.place.buffer ti ++ waiting (st.now.readers ti)) (st.past.lost ti)) ∧
    (opts.takeRead = true → ∀ ti, Accounts (fun _ => ()) (st.past.arrived ti)
      (st.past.handledOf ti) (st.now.place.buffer ti ++ waiting (st.now.readers ti))
      (st.past.lost ti)) ∧
    st.now.output.filter Line.ofSample = linesOf names [] st.past.handled ∧
    (st.now.place = .resting → ∀ ti < opts.numTopics.toNat,
      (st.past.due ti).Subperm (st.past.handledOf ti ++ st.past.lost ti)) := by
  refine ⟨(accounted_of_reachable hreader (.inr fun _ _ hsame => hsame) h).accounts,
    fun htake => (accounted_of_reachable hreader (.inl htake) h).accounts,
    (told_of_reachable hreader h).lines, fun hplace ti hti => ?_⟩
  refine (onTime_of_reachable hreader h).passed ti ?_
  rw [hplace]
  exact hti

end Runs

/-- A reader that is its samples. -/
def listReader : TypedReader Nat (List (Sampled Nat)) where
  takeNextSample s := (s.head?, s.tail)
  takeNextInstance s :=
    match nextKey Sampled.instanceHandle none s with
    | none => (none, s)
    | some k => (s.find? fun f => f.instanceHandle = k, s.eraseP fun f => f.instanceHandle = k)
  read s := (s, [])

theorem sameByKey_eraseP {k : Nat} {f : Sampled Nat} {s : List (Sampled Nat)}
    (h : s.find? (fun f => decide (f.instanceHandle = k)) = some f) :
    SameByKey Sampled.instanceHandle s (f :: s.eraseP fun f => f.instanceHandle = k) := by
  induction s with
  | nil => cases h
  | cons g s ih =>
      by_cases hg : g.instanceHandle = k
      · rw [List.find?_cons_of_pos (by simpa using hg)] at h
        obtain rfl := Option.some.inj h
        rw [List.eraseP_cons_of_pos (by simpa using hg)]
        exact .of_eq rfl
      · rw [List.find?_cons_of_neg (by simpa using hg)] at h
        rw [List.eraseP_cons_of_neg (by simpa using hg)]
        have hf : f.instanceHandle = k := by simpa using List.find?_some h
        intro k'
        have hrest := ih h k'
        by_cases hk : k' = k
        · subst hk
          simpa [ofKey, hf, hg] using hrest
        · have hrest : ofKey Sampled.instanceHandle k' s =
              ofKey Sampled.instanceHandle k' (s.eraseP fun f => f.instanceHandle = k) := by
            simpa [ofKey, hf, Ne.symm hk] using hrest
          simp only [ofKey] at hrest
          simp [ofKey, List.filter_cons, hf, Ne.symm hk, hrest]

theorem lawful_listReader : listReader.Lawful id where
  takeNextSample_none := by
    rintro s rfl
    exact ⟨rfl, rfl⟩
  takeNextSample_some := by
    rintro s f l rfl
    exact ⟨rfl, rfl⟩
  takeNextInstance_none := by
    rintro s rfl
    exact ⟨rfl, rfl⟩
  takeNextInstance_some := by
    intro s k hnext
    have hnext : nextKey Sampled.instanceHandle none s = some k := hnext
    obtain ⟨⟨hmem, -⟩, -⟩ := nextKey_eq_some_iff.mp hnext
    obtain ⟨g, hg, hgk⟩ := List.mem_map.mp hmem
    have hfound : (s.find? fun f => decide (f.instanceHandle = k)).isSome = true :=
      List.find?_isSome.mpr ⟨g, hg, by simpa using hgk⟩
    obtain ⟨f, hf⟩ := Option.isSome_iff_exists.mp hfound
    have hcall : listReader.takeNextInstance s =
        (some f, s.eraseP fun f => decide (f.instanceHandle = k)) := by
      simp [listReader, hnext, hf]
    rw [hcall]
    exact ⟨f, rfl, by simpa using List.find?_some hf, sameByKey_eraseP hf⟩
  read _ := ⟨rfl, rfl⟩

/-- A sample of an instance, and one that says that it is gone. -/
def blueSample (x : Int32) : Sampled Nat := ⟨1, .alive, true, ⟨"BLUE", x, 20, 30, []⟩⟩

def blueGone : Sampled Nat := ⟨1, .notAliveDisposed, false, ⟨"", 0, 0, 0, []⟩⟩

/-- The loop before anything has happened. -/
def readStart : Run Nat (List (Sampled Nat)) where
  now := ⟨.resting, false, 0, fun _ => [], fun _ => none, []⟩
  past := ⟨fun _ => [], fun _ => [], fun _ => [], []⟩

/-- What so many steps of the program lead to. -/
def steps (opts : CommandLine.Options) : Nat → Run Nat (List (Sampled Nat)) → Run Nat (List (Sampled Nat))
  | 0, st => st
  | n + 1, st =>
      match advance opts (fun _ => "Square") listReader false st.now with
      | none => st
      | some now' => steps opts n ⟨now', st.past.next opts listReader st.now now'⟩

theorem reachable_steps (opts : CommandLine.Options) (n : Nat) {st : Run Nat (List (Sampled Nat))}
    (h : (readLoop opts (fun _ => "Square") listReader id).Reachable (Readable opts) st) :
    (readLoop opts (fun _ => "Square") listReader id).Reachable (Readable opts)
      (steps opts n st) := by
  induction n generalizing st with
  | zero => exact h
  | succ n ih =>
      rw [steps]
      split
      · exact h
      · rename_i now' hnext
        have hallowed : Readable opts st (.program false) := trivial
        exact ih (h.step hallowed (Run.Step.program hnext))

/-- Both have arrived. -/
def blueArrived : Run Nat (List (Sampled Nat)) where
  now := { readStart.now with
    readers := Function.update readStart.now.readers 0 [blueSample 10, blueGone] }
  past := { readStart.past with
    arrived := Function.update readStart.past.arrived 0 ([] ++ [blueSample 10, blueGone])
    lost := Function.update readStart.past.lost 0 ([] ++ []) }

theorem reachable_blueArrived (opts : CommandLine.Options) (hread : opts.readOnly = false) :
    (readLoop opts (fun _ => "Square") listReader id).Reachable (Readable opts) blueArrived := by
  have hstart : (readLoop opts (fun _ => "Square") listReader id).Reachable (Readable opts)
      readStart := .init ⟨rfl, rfl, fun _ => rfl, rfl, rfl, rfl⟩
  have hallowed : Readable opts readStart (.change 0 [blueSample 10, blueGone]) := by
    intro hnot
    rw [hread] at hnot
    cases hnot
  exact hstart.step hallowed (.change (List.Sublist.refl _) (.refl _))

/-- The color of what is gone is that of the sample before. -/
theorem samples_accounted_blue :
    (steps {} 6 blueArrived).now.output.filter Line.ofSample =
        [.sample "Square" ⟨"BLUE", 10, 20, 30, []⟩,
          .notAlive "Square" "BLUE" .notAliveDisposed] ∧
      [blueSample 10, blueGone].Subperm ((steps {} 6 blueArrived).past.handledOf 0 ++
        (steps {} 6 blueArrived).past.lost 0) := by
  obtain ⟨-, -, hlines, hdue⟩ := samples_accounted lawful_listReader
    (reachable_steps {} 6 (reachable_blueArrived {} rfl))
  exact ⟨hlines.trans (by decide), hdue (by decide) 0 (by decide)⟩

end DdsRtps.ShapeMain.Zig
