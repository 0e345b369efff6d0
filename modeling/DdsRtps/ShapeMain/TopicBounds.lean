/-
# `DdsRtps.ShapeMain.TopicBounds` — the arrays of the topics in Zig

`--num-topics` is not checked.  From 1 to 16 no index is beyond an array, whatever
fails and however long the loops go on; with any other number a program that is
given `-P` or `-S` is stopped, if it finds all that it asks for
(`topics_in_bounds_iff`).
-/
import DdsRtps.ShapeMain.ZigTopics

namespace DdsRtps.ShapeMain.Zig

open CheckedArray (Ends)

/-- An error that a function returns. -/
def Stop.IsError : Stop → Prop
  | .error _ => True
  | .underflow => False
  | .outOfBounds _ => False

/-- No check of Zig stops the program. -/
def Safe {α : Type} (r : Except Stop α) : Prop :=
  r ≠ .error .underflow ∧ ∀ index, r ≠ .error (.outOfBounds index)

/-- What a function is to end with: a value, or an error that it returns. -/
abbrev Fine {α : Type} (r : Except Stop α) : Prop := Ends (fun _ => True) Stop.IsError r

section Fine

variable {α β : Type} {r : Except Stop α} {i n : Nat}

theorem safe_of_fine (h : Fine r) : Safe r := by
  constructor
  · rintro rfl
    exact h
  · rintro index rfl
    exact h

theorem Fine.andThen {f : α → Except Stop β} (h : Fine r) (hf : ∀ a, Fine (f a)) :
    Fine (r >>= f) :=
  h.bind fun a _ => hf a

theorem fine_ok (a : α) : Fine (.ok a) := trivial

theorem fine_error (e : ZigError) : Fine (.error (.error e) : Except Stop α) := trivial

theorem fine_load (h : i < maxTopics) (xs : Vector α maxTopics) : Fine (load xs i) :=
  CheckedArray.ends_read h

theorem fine_store (h : i < maxTopics) (xs : Vector α maxTopics) (a : α) : Fine (store xs i a) :=
  CheckedArray.ends_write h a

theorem fine_ensure (ok : Bool) (e : ZigError) : Fine (ensure ok e) := by
  cases ok with
  | true => exact fine_ok ()
  | false => exact fine_error e

theorem fine_forAllBelow {use : Nat → Except Stop Unit} (h : ∀ i < n, Fine (use i)) :
    Fine (forAllBelow n use) :=
  CheckedArray.foldlM_ends (fun _ i hi _ => h i (List.mem_range.mp hi)) trivial

/-- A loop that fills the arrays. -/
theorem fine_foldlM {body : α → Nat → Except Stop α} (h : n ≤ maxTopics)
    (hbody : ∀ i < maxTopics, ∀ a, Fine (body a i)) (a : α) :
    Fine ((List.range n).foldlM body a) :=
  CheckedArray.foldlM_ends (fun a i hi _ =>
    hbody i (Nat.lt_of_lt_of_le (List.mem_range.mp hi) h) a) trivial

theorem fine_loopResult {ι σ : Type} {turn : ι → σ → σ ⊕ Except Stop Bool}
    (h : ∀ seen s r, turn seen s = .inr r → Fine r) (inputs : List ι) (s : σ) :
    Fine (loopResult (Loop.drive turn inputs s)) := by
  rcases Loop.drive_inv (fun _ _ => True) (fun _ r => Fine r) (fun _ _ _ _ _ _ => trivial)
    (fun seen _ s r _ hr => h seen s r hr) (t := 0) (s := s) trivial inputs with
    ⟨s', hs', _⟩ | ⟨r, _, hr, _, hfine⟩
  · rw [hs']
    exact fine_ok false
  · rw [hr]
    exact hfine

theorem fine_freeNames (h : n ≤ maxTopics) (names : Vector String maxTopics) :
    Fine (freeNames names n) :=
  fine_forAllBelow fun _ hi => (fine_load (Nat.lt_of_lt_of_le hi h) names).andThen fun _ =>
    fine_ok ()

theorem fine_topicAt (h : i ≤ maxTopics) (et : ExtraTopics) (base : Handle) :
    Fine (et.topicAt base i) := by
  unfold ExtraTopics.topicAt
  split
  · exact fine_ok base
  · refine fine_load ?_ et.topics
    omega

theorem fine_nameAt (h : i ≤ maxTopics) (et : ExtraTopics) (baseName : String) :
    Fine (et.nameAt baseName i) := by
  unfold ExtraTopics.nameAt
  split
  · exact fine_ok baseName
  · refine fine_load ?_ et.names
    omega

theorem fine_deferring {cleanup : Except Stop Unit} {r : Except Stop Bool} (hcleanup : Fine cleanup)
    (h : Fine r) : Fine (deferring cleanup r) := by
  cases r with
  | ok left =>
      cases left with
      | true => exact hcleanup.andThen fun _ => fine_ok true
      | false => exact fine_ok false
  | error stop =>
      cases stop with
      | error e => exact hcleanup.andThen fun _ => fine_error e
      | underflow => exact h
      | outOfBounds index => exact h

end Fine

/-! ## The functions -/

section Bounds

variable {world : World} {opts : CommandLine.Options} {et : ExtraTopics} {base : Handle}

theorem ends_createExtraTopic {i : Nat} (h : i < maxTopics) :
    Ends (fun et' => et'.count = et.count) Stop.IsError (createExtraTopic world opts et i) := by
  refine (fine_store h et.names _).bind fun names _ => ?_
  refine (fine_ensure _ _).bind fun _ _ => ?_
  refine (fine_store h et.topics _).bind fun topics _ => ?_
  cases world.createTopic (i + 1) with
  | none => exact (fine_freeNames h names).bind fun _ _ => trivial
  | some _ => exact rfl

theorem ends_createExtraTopics (h : 1 ≤ opts.numTopics.toNat)
    (hmax : opts.numTopics.toNat ≤ maxTopics) :
    Ends (fun et => et.count.toNat ≤ maxTopics) Stop.IsError (createExtraTopics world opts) := by
  have hne : opts.numTopics ≠ 0 := by
    rintro heq
    rw [heq] at h
    exact absurd h (by decide)
  have hcount : (opts.numTopics - 1).toNat ≤ maxTopics := by
    have hle : 1 ≤ opts.numTopics := UInt32.le_iff_toNat_le.mpr h
    rw [UInt32.toNat_sub_of_le _ _ hle]
    exact Nat.le_trans (Nat.sub_le _ _) hmax
  rw [createExtraTopics, if_neg hne]
  refine (CheckedArray.foldlM_ends (I := fun et => et.count = opts.numTopics - 1)
    (fun et i hi hcount' => ?_) rfl).mono fun et hcount' => by rw [hcount']; exact hcount
  refine (ends_createExtraTopic ?_).mono fun et' heq => heq.trans hcount'
  exact Nat.lt_of_lt_of_le (List.mem_range.mp hi) hcount

variable (hmax : opts.numTopics.toNat ≤ maxTopics)

theorem fine_createWriter {i : Nat} (h : i < maxTopics) (writers : Writers) :
    Fine (createWriter world opts base et writers i) := by
  refine (fine_nameAt (Nat.le_of_lt h) et _).andThen fun tn => ?_
  refine (fine_store h _ tn).andThen fun lctxs => ?_
  refine (fine_topicAt (Nat.le_of_lt h) et base).andThen fun _ => ?_
  refine (fine_store h _ _).andThen fun dwHandles => ?_
  refine (fine_load h dwHandles).andThen fun handle => ?_
  refine (fine_ensure _ _).andThen fun _ => ?_
  exact (fine_store h _ handle).andThen fun _ => fine_ok _

theorem fine_createReader {i : Nat} (h : i < maxTopics) (readers : Readers) :
    Fine (createReader world opts et readers i) := by
  refine (fine_nameAt (Nat.le_of_lt h) et _).andThen fun tn => ?_
  refine (fine_store h _ tn).andThen fun lctxs => ?_
  refine (fine_store h _ _).andThen fun drHandles => ?_
  refine (fine_load h drHandles).andThen fun handle => ?_
  refine (fine_ensure _ _).andThen fun _ => ?_
  exact (fine_store h _ handle).andThen fun _ => fine_ok _

include hmax

theorem fine_useCall {call : Call} (h : Call.Below opts.numTopics.toNat call) (writers : Writers) :
    Fine (useCall opts writers call) := by
  cases call with
  | write ti inst shape =>
      have hti := Nat.lt_of_lt_of_le h hmax
      refine (fine_load hti _).andThen fun _ => ?_
      split
      · exact (fine_load hti _).andThen fun _ => fine_ok ()
      · exact fine_ok ()
  | unregisterInstance ti inst =>
      exact (fine_load (Nat.lt_of_lt_of_le h hmax) _).andThen fun _ => fine_ok ()
  | dispose ti inst =>
      exact (fine_load (Nat.lt_of_lt_of_le h hmax) _).andThen fun _ => fine_ok ()
  | beginCoherentChanges => exact fine_ok ()
  | endCoherentChanges => exact fine_ok ()

theorem fine_useCalls {calls : List Call}
    (h : ∀ call ∈ calls, Call.Below opts.numTopics.toNat call) (writers : Writers) :
    Fine (useCalls opts writers calls) :=
  CheckedArray.foldlM_ends (fun _ call hcall _ => fine_useCall hmax (h call hcall) writers) trivial

omit hmax in
theorem fine_useMatched (writers : Writers) (seen : Seen) (s : State) :
    Fine (useMatched writers seen s) := by
  unfold useMatched
  split
  · exact fine_ok ()
  · refine (fine_load (by decide) _).andThen fun _ => ?_
    split
    · exact (fine_load (by decide) _).andThen fun _ => fine_ok ()
    · exact fine_ok ()

theorem fine_useFinal (writers : Writers) (seen : Seen) : Fine (useFinal opts writers seen) := by
  have hfinal : ∀ call ∈ finalCalls (loopOptions opts), Call.Below opts.numTopics.toNat call :=
    below_finalCalls
  unfold useFinal
  split
  · split
    · rename_i made hmade
      exact (fine_useCalls hmax (below_cutAfter hfinal hmade) writers).andThen fun _ =>
        fine_error _
    · refine (fine_useCalls hmax hfinal writers).andThen fun _ => ?_
      refine (fine_forAllBelow fun ti hti => ?_).andThen fun _ => fine_ok true
      exact (fine_load (Nat.lt_of_lt_of_le hti hmax) _).andThen fun _ => fine_ok ()
  · exact fine_ok true

/-- A turn of the publisher that leaves the loop ends it well. -/
theorem fine_of_writerTurn {writers : Writers} {seen : Seen} {s : State} {r : Except Stop Bool}
    (h : writerTurn opts writers seen s = .inr r) : Fine r := by
  have hcalls := extends_step (loopOptions opts) seen s
  have hmatched := fine_useMatched writers seen s
  unfold writerTurn at h
  split at h
  · obtain rfl := Sum.inr.inj h
    exact fine_useFinal hmax writers seen
  · cases hm : useMatched writers seen s with
    | error stop =>
        rw [hm] at h hmatched
        obtain rfl := Sum.inr.inj h
        exact hmatched
    | ok _ =>
        rw [hm] at h
        cases hstep : step (loopOptions opts) seen s with
        | inl s' =>
            rw [hstep] at h hcalls
            have huse : Fine (useCalls opts writers (s'.calls.drop s.calls.length)) :=
              fine_useCalls hmax hcalls.below_drop writers
            cases hu : useCalls opts writers (s'.calls.drop s.calls.length) with
            | error stop =>
                rw [hu] at huse
                simp only [hu] at h
                obtain rfl := Sum.inr.inj h
                exact huse
            | ok _ =>
                simp only [hu] at h
                cases h
        | inr returned =>
            rw [hstep] at h hcalls
            obtain rfl := Sum.inr.inj h
            refine (fine_useCalls hmax hcalls.below_drop writers).andThen fun _ => ?_
            split
            · exact fine_ok true
            · exact fine_error _

theorem fine_writerLoop (writers : Writers) : Fine (writerLoop world opts writers) :=
  fine_loopResult (fun _ _ _ h => fine_of_writerTurn hmax h) _ _

theorem fine_useTopic {ti : Nat} (h : ti < opts.numTopics.toNat) (readers : Readers)
    (seen : ReaderSeen) : Fine (useTopic opts readers seen ti) := by
  have hti := Nat.lt_of_lt_of_le h hmax
  refine (fine_load hti _).andThen fun _ => fine_forAllBelow fun _ _ => ?_
  exact (fine_load hti _).andThen fun _ => fine_ok ()

/-- A turn of the subscriber that leaves the loop ends it well. -/
theorem fine_of_readerTurn {readers : Readers} {seen : ReaderSeen} {iteration : Int}
    {r : Except Stop Bool} (h : readerTurn opts readers seen iteration = .inr r) : Fine r := by
  have huse : Fine (forAllBelow opts.numTopics.toNat (useTopic opts readers seen)) :=
    fine_forAllBelow fun ti hti => fine_useTopic hmax hti readers seen
  unfold readerTurn at h
  split at h
  · obtain rfl := Sum.inr.inj h
    exact fine_ok true
  · cases hu : forAllBelow opts.numTopics.toNat (useTopic opts readers seen) with
    | error stop =>
        rw [hu] at h huse
        obtain rfl := Sum.inr.inj h
        exact huse
    | ok _ =>
        rw [hu] at h
        cases h

theorem fine_readerLoop (readers : Readers) : Fine (readerLoop world opts readers) :=
  fine_loopResult (fun _ _ _ h => fine_of_readerTurn hmax h) _ _

variable (h : 1 ≤ opts.numTopics.toNat)

include h

theorem fine_runPublisher : Fine (runPublisher world opts base) := by
  refine (ends_createExtraTopics h hmax).bind fun et hcount => ?_
  refine fine_deferring (fine_freeNames hcount et.names) ?_
  refine (fine_ensure _ _).andThen fun _ => (fine_ensure _ _).andThen fun _ => ?_
  refine (fine_foldlM hmax (fun i hi => fine_createWriter hi) _).andThen fun writers => ?_
  exact (fine_ensure _ _).andThen fun _ => fine_writerLoop hmax writers

theorem fine_runSubscriber : Fine (runSubscriber world opts) := by
  refine (ends_createExtraTopics h hmax).bind fun et hcount => ?_
  refine fine_deferring (fine_freeNames hcount et.names) ?_
  refine (fine_nameAt (Nat.zero_le _) et _).andThen fun _ => ?_
  refine (fine_ensure _ _).andThen fun _ => (fine_ensure _ _).andThen fun _ => ?_
  exact (fine_foldlM hmax (fun i hi => fine_createReader hi) _).andThen fun readers =>
    fine_readerLoop hmax readers

theorem fine_main : Fine (main world opts) := by
  unfold main
  split
  · exact fine_ok true
  · split
    · exact fine_ok true
    · cases world.createTopic 0 with
      | none => exact fine_ok true
      | some base =>
          show Fine (if _ then _ else _)
          split
          · exact fine_runPublisher hmax h
          · exact fine_runSubscriber hmax h

end Bounds

/-! ## With all that is asked for -/

/-- Nothing fails. -/
def lucky : World where
  participant := true
  createTopic := some
  allocName := fun _ => true
  publisher := true
  subscriber := true
  buildQos := true
  createDatawriter := some
  createDatareader := some
  allocPayload := true
  writerTurns := []
  readerTurns := []

section Lucky

variable {opts : CommandLine.Options} {et : ExtraTopics} {i : Nat}

theorem load_ok {α : Type} (h : i < maxTopics) (xs : Vector α maxTopics) :
    ∃ a, load xs i = .ok a :=
  ⟨_, CheckedArray.read_of_lt h⟩

theorem topicAt_ok (h : i ≤ maxTopics) (et : ExtraTopics) (base : Handle) :
    ∃ topic, et.topicAt base i = .ok topic := by
  unfold ExtraTopics.topicAt
  split
  · exact ⟨base, rfl⟩
  · refine load_ok ?_ et.topics
    omega

theorem nameAt_ok (h : i ≤ maxTopics) (et : ExtraTopics) (baseName : String) :
    ∃ name, et.nameAt baseName i = .ok name := by
  unfold ExtraTopics.nameAt
  split
  · exact ⟨baseName, rfl⟩
  · refine load_ok ?_ et.names
    omega

theorem createExtraTopic_ok (h : i < maxTopics) :
    ∃ et', createExtraTopic lucky opts et i = .ok et' := by
  rw [createExtraTopic]
  simp only [store, CheckedArray.write_of_lt h]
  exact ⟨_, rfl⟩

theorem createWriter_ok (h : i < maxTopics) (base : Handle) (writers : Writers) :
    ∃ writers', createWriter lucky opts base et writers i = .ok writers' := by
  obtain ⟨tn, hname⟩ := nameAt_ok (Nat.le_of_lt h) et opts.topicName
  obtain ⟨topic, htopic⟩ := topicAt_ok (Nat.le_of_lt h) et base
  rw [createWriter, hname, htopic]
  simp only [store, load, CheckedArray.write_of_lt h, bind, Except.bind, CheckedArray.read_set h]
  exact ⟨_, rfl⟩

theorem createReader_ok (h : i < maxTopics) (readers : Readers) :
    ∃ readers', createReader lucky opts et readers i = .ok readers' := by
  obtain ⟨tn, hname⟩ := nameAt_ok (Nat.le_of_lt h) et opts.topicName
  rw [createReader, hname]
  simp only [store, load, CheckedArray.write_of_lt h, bind, Except.bind, CheckedArray.read_set h]
  exact ⟨_, rfl⟩

theorem store_stops {α : Type} (xs : Vector α maxTopics) (a : α) :
    store xs maxTopics a = .error (.outOfBounds maxTopics) :=
  CheckedArray.write_of_le (Nat.le_refl maxTopics) a

theorem createWriter_stops (base : Handle) (writers : Writers) :
    createWriter lucky opts base et writers maxTopics = .error (.outOfBounds maxTopics) := by
  obtain ⟨tn, hname⟩ := nameAt_ok (Nat.le_refl maxTopics) et opts.topicName
  rw [createWriter, hname]
  simp only [bind, Except.bind, store_stops]

theorem createReader_stops (readers : Readers) :
    createReader lucky opts et readers maxTopics = .error (.outOfBounds maxTopics) := by
  obtain ⟨tn, hname⟩ := nameAt_ok (Nat.le_refl maxTopics) et opts.topicName
  rw [createReader, hname]
  simp only [bind, Except.bind, store_stops]

/-- A loop that fills the arrays, as far as they go. -/
theorem foldlM_fills {α : Type} {body : α → Nat → Except Stop α} {n : Nat} (h : n ≤ maxTopics)
    (hok : ∀ i < maxTopics, ∀ a, ∃ a', body a i = .ok a') (a : α) :
    ∃ a', (List.range n).foldlM body a = .ok a' := by
  obtain ⟨a', ha', -⟩ := CheckedArray.foldlM_ok (I := fun _ => True) (fun a i hi _ => by
    obtain ⟨a', ha'⟩ := hok i (Nat.lt_of_lt_of_le (List.mem_range.mp hi) h) a
    exact ⟨a', ha', trivial⟩) (s := a) trivial
  exact ⟨a', ha'⟩

/-- Behind their end it stops the program. -/
theorem foldlM_stops {α : Type} {body : α → Nat → Except Stop α} {n : Nat} (h : maxTopics < n)
    (hok : ∀ i < maxTopics, ∀ a, ∃ a', body a i = .ok a')
    (hstops : ∀ a, body a maxTopics = .error (.outOfBounds maxTopics)) (a : α) :
    (List.range n).foldlM body a = .error (.outOfBounds maxTopics) := by
  refine CheckedArray.foldlM_range_error (I := fun _ => True) h (fun a i hi _ => ?_)
    (fun a _ => hstops a) trivial
  obtain ⟨a', ha'⟩ := hok i hi a
  exact ⟨a', ha', trivial⟩

variable (h : maxTopics < opts.numTopics.toNat)

include h

/-- With 17 topics the extra ones just fit. -/
theorem createExtraTopics_of_lt :
    createExtraTopics lucky opts = .error (.outOfBounds maxTopics) ∨
      ∃ et, createExtraTopics lucky opts = .ok et := by
  have hne : opts.numTopics ≠ 0 := by
    intro heq
    rw [heq] at h
    exact absurd h (by decide)
  rw [createExtraTopics, if_neg hne]
  rcases Nat.lt_or_ge maxTopics (opts.numTopics - 1).toNat with hlt | hge
  · left
    refine foldlM_stops hlt (fun i hi et => createExtraTopic_ok hi) (fun et => ?_) _
    rw [createExtraTopic, store_stops]
    rfl
  · right
    exact foldlM_fills hge (fun i hi et => createExtraTopic_ok hi) _

theorem runPublisher_stops (base : Handle) :
    runPublisher lucky opts base = .error (.outOfBounds maxTopics) := by
  rcases createExtraTopics_of_lt h with hstops | ⟨et, het⟩
  · rw [runPublisher, hstops]
    rfl
  · have hwriters : (List.range opts.numTopics.toNat).foldlM (createWriter lucky opts base et)
        Writers.undefined = .error (.outOfBounds maxTopics) :=
      foldlM_stops h (fun i hi => createWriter_ok hi base) (createWriter_stops base) _
    rw [runPublisher, het]
    show deferring et.deinitNames ((List.range _).foldlM _ _ >>= _) = _
    rw [hwriters]
    rfl

theorem runSubscriber_stops : runSubscriber lucky opts = .error (.outOfBounds maxTopics) := by
  rcases createExtraTopics_of_lt h with hstops | ⟨et, het⟩
  · rw [runSubscriber, hstops]
    rfl
  · have hreaders : (List.range opts.numTopics.toNat).foldlM (createReader lucky opts et)
        Readers.undefined = .error (.outOfBounds maxTopics) :=
      foldlM_stops h (fun i hi => createReader_ok hi) createReader_stops _
    rw [runSubscriber, het]
    show deferring et.deinitNames ((List.range _).foldlM _ _ >>= _) = _
    rw [hreaders]
    rfl

end Lucky

/-! ## The program -/

section Program

variable {args : List String} {opts : CommandLine.Options}

theorem main_lucky (h : opts.publish = true ∨ opts.subscribe = true) :
    main lucky opts =
      if opts.publish then runPublisher lucky opts (some 0) else runSubscriber lucky opts := by
  have hmode : (!opts.publish && !opts.subscribe) = false := by
    rcases h with h | h
    · rw [h]
      rfl
    · rw [h]
      exact Bool.and_false _
  rw [main, hmode]
  rfl

/-- A number of topics that the arrays have no room for. -/
theorem not_safe_main (hmode : opts.publish = true ∨ opts.subscribe = true)
    (h : opts.numTopics.toNat < 1 ∨ maxTopics < opts.numTopics.toNat) :
    ¬Safe (main lucky opts) := by
  rw [main_lucky hmode]
  rcases h with hzero | hmax
  · have heq : opts.numTopics = 0 := UInt32.toNat_inj.mp (Nat.lt_one_iff.mp hzero)
    have hunderflow : createExtraTopics lucky opts = .error .underflow := if_pos heq
    intro hsafe
    refine hsafe.1 ?_
    split
    · rw [runPublisher, hunderflow]
      rfl
    · rw [runSubscriber, hunderflow]
      rfl
  · intro hsafe
    refine hsafe.2 maxTopics ?_
    split
    · exact runPublisher_stops hmax (some 0)
    · exact runSubscriber_stops hmax

/-- **The arrays of the topics are not overrun** by a command line that asks for neither
a publisher nor a subscriber, or for as many topics as there is room for; and by any
other they are. -/
theorem topics_in_bounds_iff (h : CommandLine.parseArgs args = .accepted opts) :
    (∀ world, Safe (run world args)) ↔
      (opts.publish = false ∧ opts.subscribe = false) ∨
        (1 ≤ opts.numTopics.toNat ∧ opts.numTopics.toNat ≤ maxTopics) := by
  have hrun : ∀ world, run world args = main world opts := by
    intro world
    rw [run, h]
  simp only [hrun]
  constructor
  · intro hsafe
    by_contra hcond
    rw [not_or, not_and_or, not_and_or] at hcond
    rw [Bool.not_eq_false, Bool.not_eq_false, Nat.not_le, Nat.not_le] at hcond
    exact not_safe_main hcond.1 hcond.2 (hsafe lucky)
  · rintro (⟨hpublish, hsubscribe⟩ | ⟨hmin, hmax⟩) world
    · rw [main, hpublish, hsubscribe]
      exact safe_of_fine (fine_ok true)
    · exact safe_of_fine (fine_main hmax hmin)

/-- Sixteen topics fit. -/
theorem topics_in_bounds_sixteen :
    (∀ world, Safe (run world ["-P", "--num-topics", "16"])) ↔
      (true = false ∧ false = false) ∨ (1 ≤ 16 ∧ 16 ≤ maxTopics) := by
  have h : CommandLine.parseArgs ["-P", "--num-topics", "16"] =
      .accepted { publish := true, numTopics := 16, color := some "BLUE" } := rfl
  exact topics_in_bounds_iff h

/-- A seventeenth has no place. -/
theorem not_topics_in_bounds :
    ¬ ∀ args opts, CommandLine.parseArgs args = .accepted opts →
      ∀ world, Safe (run world args) := by
  intro h
  have hsafe := h ["-P", "--num-topics", "17"]
    { publish := true, numTopics := 17, color := some "BLUE" } rfl lucky
  exact hsafe.2 16 rfl

end Program

end DdsRtps.ShapeMain.Zig
