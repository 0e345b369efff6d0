/-
# `DdsRtps.Hdds.NoMatchLost` — every match is printed, or when it is not

On the reader side a pair of a registered and an announced endpoint is always
in one of five places: the FSM is yet to be asked, the listener is yet to be
called, the pair is in the hands of the catch-up loop, it is in the hands of
the listener's loop, or its line is printed (`Pending`).  Every step moves a
pair forward among these, so when both calls have ended the line is out.

On the writer side the catch-up loop prints incompatibilities only, and leaves
matches to the listener.  A match is then printed if the writer is on its list
before the listener is called; `RegisteredFirst` are the runs in which that is
so for every compatible reader, and there is a run in which it is not.
-/
import DdsRtps.Hdds.PromptLines

namespace DdsRtps.Hdds

open MatchNotifier (writerCompat readerCompat dueLine)

namespace World

/-! ## The reader side -/

/-- Where a reader and a remote writer are with each other. -/
def Pending (w : World) (a : AddCall) (d : Discovery) : Prop :=
  a.todo = none ∨ d.todo = none ∨ (∃ l, a.todo = some l ∧ d.remote ∈ l) ∨
    (∃ l, d.todo = some l ∧ a.ep ∈ l) ∨
      ∀ line, dueLine .reader a.ep d.remote = some line → ⟨a.ep, d.remote, line⟩ ∈ w.log

/-- Nothing is lost between a reader and a remote writer it is to meet. -/
def ReadersPending (fsm : DiscoveryFsm) (localPrefix : List UInt8) (w : World) : Prop :=
  ∀ a ∈ w.adds, ∀ d ∈ w.discoveries, w.Meets fsm localPrefix .reader a d → w.Pending a d

theorem readersPending_of_reachable {fsm : DiscoveryFsm} {localPrefix : List UInt8}
    {allowed : World → Label → Prop} {w : World}
    (h : (system fsm localPrefix).Reachable allowed w) : w.ReadersPending fsm localPrefix := by
  intro a ha d hd hmeet
  rcases settling_of_reachable h ha hd hmeet with h | h | h | h | h
  · exact .inl h
  · exact .inr (.inl h)
  · exact .inr (.inr (.inl h))
  · exact .inr (.inr (.inr (.inl h)))
  · exact .inr (.inr (.inr (.inr fun line hline => h line (MatchNotifier.prompt_reader hline))))

/-- **No match is lost on the reader side.**  In every state of every run, a
reader and a remote writer that are to meet, and have been through their
calls, have had the line printed that `check_writer_reader_compat` calls for;
and no line was ever printed for a pair whose partitions do not meet. -/
theorem no_subscription_lost (fsm : DiscoveryFsm) (localPrefix : List UInt8) {w : World}
    (h : (system fsm localPrefix).Reachable Transition.anyStep w) :
    (∀ a ∈ w.adds, ∀ d ∈ w.discoveries, w.Meets fsm localPrefix .reader a d → BothDone a d →
      (readerCompat a.ep d.remote = none →
        ∃ p ∈ w.log, p.line = .subscriptionMatched a.ep.topic d.remote.typeName) ∧
      ∀ policy, readerCompat a.ep d.remote = some policy → policy ≠ .partition →
        ∃ p ∈ w.log, p.line = .requestedIncompatibleQos a.ep.topic policy) ∧
    ∀ p ∈ w.log, p.remote.kind = .writer → readerCompat p.ep p.remote ≠ some .partition := by
  constructor
  · rintro a ha d hd hmeet ⟨hadone, hddone⟩
    have hpending := readersPending_of_reachable h a ha d hd hmeet
    have hprinted : ∀ line, dueLine .reader a.ep d.remote = some line →
        ⟨a.ep, d.remote, line⟩ ∈ w.log := by
      simpa [Pending, hadone, hddone] using hpending
    constructor
    · intro hcompat
      exact ⟨_, hprinted _ (MatchNotifier.dueLine_of_compat_none (k := .reader) hcompat), rfl⟩
    · intro policy hcompat hp
      exact ⟨_, hprinted _ (MatchNotifier.dueLine_of_compat_some (k := .reader) hcompat hp), rfl⟩
  · intro p hp hkind
    have hdue := (sound_of_reachable h).log_due p hp
    rw [hkind] at hdue
    exact MatchNotifier.compat_ne_partition_of_dueLine hdue

/-! ## A concrete run -/

/-- An FSM that remembers every announcement, and confirms it. -/
def rememberAll : DiscoveryFsm where
  findReadersForTopic seen t := seen.filter fun e => e.kind = .reader ∧ e.topicName = t
  findWritersForTopic seen t := seen.filter fun e => e.kind = .writer ∧ e.topicName = t
  isEndpointParticipantConfirmed seen guid := seen.any fun e => e.endpointGuid = guid
  of_mem_findReaders := by simp
  of_mem_findWriters := by simp

theorem rememberAll_holds (history : List EndpointInfo) (e : EndpointInfo) :
    rememberAll.Holds history e := by
  intro seen _ he
  constructor
  · cases hk : e.kind <;> simp [DiscoveryFsm.find, EndpointKind.peer, rememberAll, hk, he]
  · exact List.any_eq_true.mpr ⟨e, he, by simp⟩

/-- The QoS of an endpoint that asks for nothing special. -/
def plainQos : QoS := ⟨[], .reliable, .shared, defaultDeadline, .volatile, []⟩

/-- A local endpoint for squares. -/
def squareEndpoint : LocalEndpoint := ⟨"Square", plainQos, .xcdr1⟩

/-- A remote endpoint for squares. -/
def squareRemote (kind : EndpointKind) : EndpointInfo :=
  ⟨List.replicate 16 7, kind, "Square", "ShapeType", plainQos, true, true⟩

/-- The state after the discovery of a remote endpoint and the registration of
a local one that it is to meet. -/
def discoveredFirst (k : EndpointKind) : World :=
  let n := MatchNotifier.new []
  let e := squareRemote k.peer
  let discovered := n.onEndpointDiscovered e
  let added := MatchNotifier.addTopic rememberAll [e] discovered.1 k squareEndpoint
  ⟨added.1, [⟨k, squareEndpoint, some []⟩], [⟨e, some []⟩], discovered.2 ++ added.2⟩

theorem reachable_discoveredFirst {allowed : World → Label → Prop} {k : EndpointKind}
    (hinsert : ∀ w e, allowed w (.insert e)) (hcall : ∀ w, allowed w .call)
    (hnotify : ∀ w, allowed w .notify) (hask : ∀ w, allowed w .ask)
    (hscan : ∀ w, allowed w .scan) (hpush : ∀ w ep, allowed w (.push k ep)) :
    (system rememberAll []).Reachable allowed (discoveredFirst k) := by
  have hstart : (system rememberAll []).Reachable allowed (start []) := .init rfl
  have hdiscovered := reachable_onEndpointDiscovered hinsert hcall hnotify
    (e := squareRemote k.peer) hstart (by simp [Unlocked, start])
  exact reachable_addTopic hask hscan k squareEndpoint hdiscovered
    (hpush _ _) (by simp [Unlocked, start])

theorem no_subscription_lost_square :
    (∀ a ∈ (discoveredFirst .reader).adds, ∀ d ∈ (discoveredFirst .reader).discoveries,
      (discoveredFirst .reader).Meets rememberAll [] .reader a d → BothDone a d →
      (readerCompat a.ep d.remote = none →
        ∃ p ∈ (discoveredFirst .reader).log,
          p.line = .subscriptionMatched a.ep.topic d.remote.typeName) ∧
      ∀ policy, readerCompat a.ep d.remote = some policy → policy ≠ .partition →
        ∃ p ∈ (discoveredFirst .reader).log,
          p.line = .requestedIncompatibleQos a.ep.topic policy) ∧
    ∀ p ∈ (discoveredFirst .reader).log, p.remote.kind = .writer →
      readerCompat p.ep p.remote ≠ some .partition :=
  no_subscription_lost rememberAll [] (reachable_discoveredFirst (fun _ _ => trivial)
    (fun _ => trivial) (fun _ => trivial) (fun _ => trivial) (fun _ => trivial)
    fun _ _ => trivial)

/-! ## The writer side -/

/-- Only writers are registered. -/
def OnlyWriters (_ : World) (l : Label) : Prop := ∀ ep, l ≠ .push .reader ep

/-- Only writers are registered, each before the listener is called about any
reader it is compatible with. -/
def RegisteredFirst (w : World) (l : Label) : Prop :=
  OnlyWriters w l ∧ ∀ ep, l = .push .writer ep → ∀ d ∈ w.discoveries, d.remote.kind = .reader →
    d.remote.topicName = ep.topic → d.remote.prefix12 ≠ w.notifier.localPrefix →
      writerCompat ep d.remote = none → d.todo = none

/-- No match of a writer is lost: for a compatible pair that has been through
its calls, on a topic without incompatible readers, a match on the topic has
been printed. -/
def PublicationsMatched (fsm : DiscoveryFsm) (localPrefix : List UInt8) (w : World) : Prop :=
  ∀ a ∈ w.adds, ∀ d ∈ w.discoveries, w.Meets fsm localPrefix .writer a d → BothDone a d →
    writerCompat a.ep d.remote = none → ¬ w.Incompatible .writer a.ep.topic →
      ∃ p ∈ w.log, ∃ typeName, p.line = .publicationMatched a.ep.topic typeName

/-- Where a writer and a compatible remote reader are with each other, if the
writer was registered first. -/
def WriterPending (w : World) (a : AddCall) (d : Discovery) : Prop :=
  d.todo = none ∨ (∃ l, d.todo = some l ∧ a.ep ∈ l) ∨
    ⟨a.ep, d.remote, .publicationMatched a.ep.topic d.remote.typeName⟩ ∈ w.log

theorem WriterPending.of_log {w w' : World} {a : AddCall} {d : Discovery}
    (h : w.WriterPending a d) (hlog : w.log ⊆ w'.log) : w'.WriterPending a d :=
  h.imp id (Or.imp id fun h => hlog h)

/-- Nothing is lost between a writer and a compatible remote reader. -/
def WritersPending (localPrefix : List UInt8) (w : World) : Prop :=
  ∀ a ∈ w.adds, ∀ d ∈ w.discoveries, d.remote.kind = .reader → d.remote.topicName = a.ep.topic →
    d.remote.prefix12 ≠ localPrefix → writerCompat a.ep d.remote = none →
      ¬ w.Incompatible .writer a.ep.topic → w.WriterPending a d

theorem kind_eq_writer_step {fsm : DiscoveryFsm} {w w' : World} {l : Label}
    (hw : ∀ r ∈ w.registered, r.1 = .writer) (hl : OnlyWriters w l) (h : Step fsm w l w') :
    ∀ r ∈ w'.registered, r.1 = .writer := by
  cases h with
  | @push k ep hfree =>
      intro r hr
      simp only [registered, List.map_append, List.map_cons, List.map_nil, List.mem_append,
        List.mem_singleton] at hr
      rcases hr with hr | rfl
      · exact hw r hr
      · cases k with
        | writer => rfl
        | reader => exact absurd rfl (hl ep)
  | ask ha =>
      intro r hr
      rw [registered, registered_replace _ ha] at hr
      exact hw r hr
  | scan ha =>
      intro r hr
      rw [registered, registered_replace _ ha] at hr
      exact hw r hr
  | insert | call | notify => exact hw

theorem writersPending_step {fsm : DiscoveryFsm} {localPrefix : List UInt8} {w w' : World}
    {l : Label} (hsound : w.Sound localPrefix) (hkind : ∀ r ∈ w.registered, r.1 = .writer)
    (hw : w.WritersPending localPrefix) (hl : RegisteredFirst w l) (h : Step fsm w l w') :
    w'.WritersPending localPrefix := by
  have hmono : ∀ {t}, ¬ w'.Incompatible .writer t → ¬ w.Incompatible .writer t :=
    mt (Incompatible.mono h.registered_isPrefix.subset h.seen_isPrefix.subset)
  intro a ha d hd hreader htopic hlocal hcompat hclean
  have hold : ∀ a₀ ∈ w.adds, ∀ d₀ ∈ w.discoveries, a₀.ep = a.ep → d₀.remote = d.remote →
      w.WriterPending a₀ d₀ := fun a₀ ha₀ d₀ hd₀ hep hr =>
    hw a₀ ha₀ d₀ hd₀ (hr ▸ hreader) (hr ▸ hep ▸ htopic) (hr ▸ hlocal) (hr ▸ hep ▸ hcompat)
      (hep ▸ hmono hclean)
  cases h with
  | @push k ep hfree =>
      rcases List.mem_append.mp ha with ha | ha
      · exact (hold a ha d hd rfl rfl).of_log (List.Subset.refl _)
      · -- the new writer is ahead of the listener
        obtain rfl := List.mem_singleton.mp ha
        obtain rfl : k = .writer := by
          cases k with
          | writer => rfl
          | reader => exact absurd rfl (hl.1 ep)
        exact .inl (hl.2 ep rfl d hd hreader htopic (hsound.localPrefix_eq ▸ hlocal) hcompat)
  | insert =>
      rcases List.mem_append.mp hd with hd | hd
      · exact (hold a ha d hd rfl rfl).of_log (List.Subset.refl _)
      · exact .inl (by rw [List.mem_singleton.mp hd])
  | @ask l₁ l₂ k ep hadds =>
      rcases mem_replace ha with rfl | ha
      · exact (hold ⟨k, ep, none⟩ (by simp [hadds]) d hd rfl rfl).of_log (List.Subset.refl _)
      · exact (hold a (hadds ▸ ha) d hd rfl rfl).of_log (List.Subset.refl _)
  | @scan l₁ l₂ k ep remote rest result hadds hresult =>
      rcases mem_replace ha with rfl | ha
      · exact (hold ⟨k, ep, some (remote :: rest)⟩ (by simp [hadds]) d hd rfl rfl).of_log
          (List.subset_append_left _ _)
      · exact (hold a (hadds ▸ ha) d hd rfl rfl).of_log (List.subset_append_left _ _)
  | @call l₁ l₂ e hdisc hfree =>
      rcases mem_replace hd with rfl | hd
      · refine .inr (.inl ⟨_, rfl, ?_⟩)
        have hreg : (a.kind, a.ep) ∈ w.registered := mem_registered ha
        have hwriter : a.kind = .writer := hkind _ hreg
        rw [MatchNotifier.listening_eq, if_neg (hsound.localPrefix_eq ▸ hlocal), hreader,
          hsound.mem_endpoints]
        rwa [hwriter] at hreg
      · exact (hold a ha d (hdisc ▸ hd) rfl rfl).of_log (List.Subset.refl _)
  | @notify l₁ l₂ e ep rest result hdisc hresult =>
      rcases mem_replace hd with rfl | hd
      · rcases hold a ha ⟨e, some (ep :: rest)⟩ (by simp [hdisc]) rfl rfl with
          h | ⟨l, hl, h⟩ | h
        · cases h
        · obtain rfl := Option.some.inj hl
          rcases List.mem_cons.mp h with rfl | h
          · -- its turn has come, and the topic is not marked
            refine .inr (.inr (List.mem_append_right _ ?_))
            rw [← hresult]
            refine MatchNotifier.notify_writer_prints hreader htopic.symm hcompat fun hmark => ?_
            obtain ⟨k, hk⟩ := hsound.marked _ hmark
            obtain ⟨ep', e', hep', -⟩ := id hk
            rw [show k = .writer from hkind _ hep'] at hk
            exact hmono hclean hk
          · exact .inr (.inl ⟨_, rfl, h⟩)
        · exact .inr (.inr (List.mem_append_left _ h))
      · exact (hold a ha d (hdisc ▸ hd) rfl rfl).of_log (List.subset_append_left _ _)

/-- **When no match is lost on the writer side.**  In every run in which each
writer is registered before the listener is called about a reader compatible
with it, every state has the matches of the writers printed. -/
theorem publicationsMatched_of_registeredFirst (fsm : DiscoveryFsm) (localPrefix : List UInt8)
    {w : World} (h : (system fsm localPrefix).Reachable RegisteredFirst w) :
    w.PublicationsMatched fsm localPrefix := by
  have hinv := h.invariant (fun w => w.Sound localPrefix ∧ (∀ r ∈ w.registered, r.1 = .writer) ∧
    w.WritersPending localPrefix) (by
      rintro w rfl
      exact ⟨sound_start localPrefix, by simp [registered, start],
        by simp [WritersPending, start]⟩) (by
      rintro w l w' ⟨hsound, hkind, hw⟩ hl hstep
      exact ⟨hsound.step hstep, kind_eq_writer_step hkind hl.1 hstep,
        writersPending_step hsound hkind hw hl hstep⟩)
  rintro a ha d hd hmeet ⟨-, hdone⟩ hcompat hclean
  have hpending := hinv.2.2 a ha d hd hmeet.kind_remote hmeet.topic hmeet.not_local hcompat hclean
  rcases hpending with h | ⟨l, hl, h⟩ | h
  · exact absurd (hdone.symm.trans h) (by simp)
  · obtain rfl := Option.some.inj (hdone.symm.trans hl)
    cases h
  · exact ⟨_, h, _, rfl⟩

/-- The state after the registration of a writer and the discovery of a reader
that it is to meet. -/
def addedFirst : World :=
  let n := MatchNotifier.new []
  let e := squareRemote .reader
  let added := MatchNotifier.addTopic rememberAll [] n .writer squareEndpoint
  let discovered := added.1.onEndpointDiscovered e
  ⟨discovered.1, [⟨.writer, squareEndpoint, some []⟩], [⟨e, some []⟩], added.2 ++ discovered.2⟩

theorem publicationsMatched_of_registeredFirst_square :
    addedFirst.PublicationsMatched rememberAll [] ∧ addedFirst.log ≠ [] := by
  refine ⟨publicationsMatched_of_registeredFirst rememberAll [] ?_, by decide⟩
  have hstart : (system rememberAll []).Reachable RegisteredFirst (start []) := .init rfl
  have hother : ∀ (w : World) (l : Label), (∀ k ep, l ≠ .push k ep) → RegisteredFirst w l :=
    fun w l hl => ⟨fun ep => hl _ ep, fun ep h => absurd h (hl _ ep)⟩
  have hadded := reachable_addTopic (fun w => hother w .ask (by simp))
    (fun w => hother w .scan (by simp)) .writer squareEndpoint hstart
    ⟨by simp [OnlyWriters], by simp [start]⟩ (by simp [Unlocked, start])
  exact reachable_onEndpointDiscovered (e := squareRemote .reader)
    (fun w e => hother w (.insert e) (by simp)) (fun w => hother w .call (by simp))
    (fun w => hother w .notify (by simp)) hadded (by simp [Unlocked, start])

/-- A reader discovered to the end, and then a writer registered to the end:
the two are compatible, and nothing was printed. -/
theorem publication_lost_by_late_push :
    ¬ ∀ (fsm : DiscoveryFsm) (localPrefix : List UInt8) (w : World),
      (system fsm localPrefix).Reachable OnlyWriters w → w.PublicationsMatched fsm localPrefix := by
  intro hall
  have hrun : (system rememberAll []).Reachable OnlyWriters (discoveredFirst .writer) :=
    reachable_discoveredFirst (fun _ _ _ h => by cases h) (fun _ _ h => by cases h)
      (fun _ _ h => by cases h) (fun _ _ h => by cases h) (fun _ _ h => by cases h)
      (fun _ _ _ h => by cases h)
  obtain ⟨p, hp, -⟩ := hall rememberAll [] _ hrun
    ⟨.writer, squareEndpoint, some []⟩ (by decide) ⟨squareRemote .reader, some []⟩ (by decide)
    ⟨rfl, rfl, rfl, by decide, rememberAll_holds _ _⟩ ⟨rfl, rfl⟩ (by decide)
    (by
      rintro ⟨ep, e, hep, -, he, -, -, policy, hpolicy, -⟩
      obtain rfl : ep = squareEndpoint := (Prod.mk.inj (List.mem_singleton.mp hep)).2
      obtain rfl : e = squareRemote .reader := List.mem_singleton.mp he
      exact absurd hpolicy (by decide +revert))
  have hsilent : (discoveredFirst .writer).log = [] := by decide
  rw [hsilent] at hp
  cases hp

end World

end DdsRtps.Hdds
